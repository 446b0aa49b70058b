import Streamwm.ManagePass
import Streamwm.PlacementOrder

/-!
# The two sequences in full

The handlers of `manage_start` and `render_start` are the only ones that ask river to change
anything about a window. Here both are put in closed form. A manage sequence makes of a
context `d` the context `onManageStart_eq` writes down : the requests of `manageRequests`, one
group after the other, with the state before the fullscreen block and the one after it
(`settled`) as the only two states they are read off. A render sequence is `beginRender`, which
settles the nodes, and then one `Window.draw` for every window in the order of the placements
(`onRenderStart_eq`) : with distinct ids the windows do not see one another.
-/

namespace Streamwm

open Partial

/-! ## Manage sequences -/

namespace State

variable (s : State)

/-- The requests that set the cursor of a seat. -/
def cursorRequests (seat : ObjectId) (shape : CursorShape) : List Request :=
  ((s.seats.find? fun t => t.proxy == seat).bind fun t => t.pointer.map fun pointer =>
    match t.cursorShape with
    | some device => Request.setCursorShape device shape
    | none => .setDefaultCursor pointer).toList

end State

namespace AppData

variable (d : AppData)

/-- The state after the fullscreen block of a manage sequence. -/
def settled : State :=
  d.state.refocused.managed d.config

/-- The operation that runs once the pending one has started. -/
def stagedOp : Option PointerOp :=
  d.pendingOp.or d.pointerOp

/-- The requests about pointer operations. -/
def pointerRequests : List Request :=
  (d.pendingOp.map fun op => d.state.cursorRequests op.seat (cursorShape op.kind op.edges) ++
    [Request.opStartPointer op.seat op.window]).getD [] ++
  if d.opEndRequested then
    (d.stagedOp.map fun op => Request.opEnd op.seat :: d.state.cursorRequests op.seat .default).getD []
  else []

/-- The requests that close windows. -/
def closeRequests : List Request :=
  d.pendingClose.flatMap fun fid =>
    ((d.state.findWindow fid).map fun (w : Window) => Request.close w.proxy).toList

/-- The layer-shell object of the first output. -/
def firstLayer : Option ObjectId :=
  d.state.outputs.head?.bind (·.layer)

/-- The request for the default layer-shell output. -/
def layerRequests : List Request :=
  if d.layerDefaultSet then [] else (d.firstLayer.map Request.layerSetDefault).toList

/-- The requests about the bindings. -/
def bindingRequests : List Request :=
  (d.bindings.map fun b =>
    if isResizeBinding b.2.1 then
      if d.state.resizeMode then Request.enable b.1 else .disable b.1
    else .enable b.1) ++ d.pointerBindings.map fun b => Request.enable b.1

/-- What a manage sequence sends before `manage_finish`. -/
def manageRequests (routed : Option Window) (gs : List (ℕ × Geometry)) : List Request :=
  d.pointerRequests ++ d.state.windows.map (fun w => Request.hide w.proxy) ++ d.closeRequests ++
    d.state.windows.flatMap (fun w => (d.state.refocused.manageWindow d.config w).2) ++
    d.layerRequests ++ d.settled.focusRequests routed ++
    (gs.flatMap d.settled.proposeCell ++ d.settled.proposeFloats) ++
    d.settled.windows.flatMap (fun w => w.setTiled.2) ++ d.bindingRequests ++
    d.pendingPointerWarp.elim [] d.settled.warpRequests

variable {d} {d' : AppData}

theorem setSeatCursor_sends (seat : ObjectId) (shape : CursorShape) :
    d.setSeatCursor seat shape = d.sendAll (d.state.cursorRequests seat shape) := by
  unfold setSeatCursor State.cursorRequests
  cases d.state.seats.find? fun t => t.proxy == seat with
  | none => simp [sendAll]
  | some t =>
    cases hpointer : t.pointer with
    | none => simp [sendAll, hpointer]
    | some pointer => cases hshape : t.cursorShape <;> simp [hpointer, hshape, send, sendAll]

theorem startPendingOp_eq (d : AppData) : d.startPendingOp =
    { d with
      pendingOp := none
      pointerOp := d.stagedOp
      sent := d.sent ++ (d.pendingOp.map fun op =>
        d.state.cursorRequests op.seat (cursorShape op.kind op.edges) ++
          [Request.opStartPointer op.seat op.window]).getD [] } := by
  unfold startPendingOp stagedOp
  cases hop : d.pendingOp with
  | none =>
    simp only [Option.none_or, Option.map_none, Option.getD_none, List.append_nil]
    rw [← hop]
  | some op =>
    simp only [setSeatCursor_sends, send, sendAll, List.append_assoc, Option.map_some,
      Option.getD_some, Option.some_or]

theorem endRequestedOp_eq (d : AppData) : d.endRequestedOp =
    { d with
      opEndRequested := false
      pointerOp := if d.opEndRequested then none else d.pointerOp
      sent := d.sent ++ if d.opEndRequested then
          (d.pointerOp.map fun op =>
            Request.opEnd op.seat :: d.state.cursorRequests op.seat .default).getD []
        else [] } := by
  unfold endRequestedOp
  cases hend : d.opEndRequested with
  | false =>
    simp only [Bool.false_eq_true, if_false, List.append_nil]
    rw [← hend]
  | true =>
    cases hop : d.pointerOp with
    | none => simp
    | some op => simp [setSeatCursor_sends, send, sendAll]

theorem processPointerOps_eq (d : AppData) : d.processPointerOps =
    { d with
      pendingOp := none
      opEndRequested := false
      pointerOp := if d.opEndRequested then none else d.stagedOp
      sent := d.sent ++ d.pointerRequests } := by
  rw [processPointerOps, startPendingOp_eq, endRequestedOp_eq]
  simp only [pointerRequests, List.append_assoc]

theorem beginManage_eq (d : AppData) : d.beginManage =
    some { d.processPointerOps with state := d.state.refocused } := by
  rw [beginManage, modifyStateM, (pointerPass d).state, d.state.refocusAll_eq.1]
  rfl

theorem setLayerDefault_eq (d : AppData) : d.setLayerDefault =
    { d with
      layerDefaultSet := d.layerDefaultSet || d.firstLayer.isSome
      sent := d.sent ++ d.layerRequests } := by
  unfold setLayerDefault layerRequests
  cases hset : d.layerDefaultSet with
  | true =>
    simp only [if_true, Bool.true_or, List.append_nil]
    rw [← hset]
  | false =>
    cases hlayer : d.firstLayer with
    | none =>
      rw [firstLayer] at hlayer
      simp only [hlayer, Bool.false_eq_true, if_false, Option.isSome_none, Bool.or_false,
        Option.map_none, Option.toList_none, List.append_nil]
      rw [← hset]
    | some layer =>
      rw [firstLayer] at hlayer
      simp [hlayer, send]

theorem applyPointerWarp_eq (d : AppData) : d.applyPointerWarp =
    { d with
      pendingPointerWarp := none
      sent := d.sent ++ d.pendingPointerWarp.elim [] d.state.warpRequests } := by
  unfold applyPointerWarp
  cases hwarp : d.pendingPointerWarp with
  | none =>
    simp only [Option.elim_none, List.append_nil]
    rw [← hwarp]
  | some target => rfl

/-- The steps around the fullscreen block. -/
theorem manageWindows_all (d : AppData) : d.manageWindows =
    { d with
      state := d.state.managed d.config
      pendingClose := []
      layerDefaultSet := d.layerDefaultSet || d.firstLayer.isSome
      sent := d.sent ++ (d.state.windows.map (fun w => Request.hide w.proxy) ++ d.closeRequests ++
        d.state.windows.flatMap (fun w => (d.state.manageWindow d.config w).2) ++
        d.layerRequests) } := by
  rw [manageWindows, setLayerDefault_eq]
  simp only [applyFullscreen, updateWindows, applyPendingClose, sendAll, List.append_assoc]
  rfl

/-- The rest of a manage sequence. -/
theorem finishManage_all (h : d.finishManage = some d') : ∃ routed gs,
    d.state.routedWindow = some routed ∧ d.state.computeAll d.config = some gs ∧
    d' = { d with
      state := d.state.tiled
      pendingPointerWarp := none
      sent := d.sent ++ (d.state.focusRequests routed ++
        (gs.flatMap d.state.proposeCell ++ d.state.proposeFloats) ++
        d.state.windows.flatMap (fun w => w.setTiled.2) ++ d.bindingRequests ++
        d.pendingPointerWarp.elim [] d.state.warpRequests ++ [.manageFinish]) } := by
  obtain ⟨routed, hrouted, h⟩ := Option.bind_eq_some_iff.mp h
  obtain ⟨gs, hgs, h⟩ := Option.bind_eq_some_iff.mp h
  refine ⟨routed, gs, hrouted, hgs, ?_⟩
  rw [← Option.some.inj h, applyPointerWarp_eq]
  simp only [send, sendAll, proposeAll, updateWindows, enableBindings, bindingRequests,
    List.append_assoc]
  rfl

/-- A manage sequence, as one assignment. -/
theorem onManageStart_eq (h : d.onManageStart = some d') : ∃ routed gs,
    d.settled.routedWindow = some routed ∧ d.settled.computeAll d.config = some gs ∧
    d' = { d with
      state := d.settled.tiled
      pendingOp := none
      opEndRequested := false
      pointerOp := if d.opEndRequested then none else d.stagedOp
      pendingClose := []
      layerDefaultSet := d.layerDefaultSet || d.firstLayer.isSome
      pendingPointerWarp := none
      sent := d.sent ++ (d.manageRequests routed gs ++ [.manageFinish]) } := by
  obtain ⟨d₁, hbegin, h⟩ := Option.bind_eq_some_iff.mp h
  rw [beginManage_eq, processPointerOps_eq, Option.some.injEq] at hbegin
  have hconfig : d₁.config = d.config := by rw [← hbegin]
  have hstate : d₁.state = d.state.refocused := by rw [← hbegin]
  have hlayer : d₁.firstLayer = d.firstLayer := by
    unfold firstLayer
    rw [hstate, State.refocused, List.head?_mapIdx]
    cases d.state.outputs.head? <;> rfl
  rw [manageWindows_all] at h
  obtain ⟨routed, gs, hrouted, hgs, rfl⟩ := finishManage_all h
  have hlayers : d₁.layerRequests = d.layerRequests := by
    unfold layerRequests
    rw [hlayer, ← hbegin]
  rw [hlayer, hlayers]
  subst hbegin
  refine ⟨routed, gs, hrouted, hgs, ?_⟩
  simp only [manageRequests, List.append_assoc]
  rfl

end AppData

/-! ## Render sequences -/

/-- Where a placement puts a window. -/
def Placement.origin : Placement → ℤ × ℤ
  | .at g => (g.x, g.y)
  | _ => (0, 0)

namespace Window

variable (config : Config) (focused : Option ℕ) (place : Placement) (w : Window)

/-- The border of a window : whether it is focused, the width and the colour. -/
def borderFor : Bool × ℕ × ℕ × ℕ × ℕ :=
  (decide (focused = some w.id), config.borderWidth,
    if focused = some w.id then AppData.color config.focusedBorderColor
    else AppData.color config.borderColor)

/-- The requests that position and raise a window. -/
def raiseRequests : List Request :=
  (w.node.map fun node =>
    [Request.setPosition node place.origin.1 place.origin.2, .placeTop node]).getD []

/-- The request that draws a border. -/
def borderRequest (b : Bool × ℕ × ℕ × ℕ × ℕ) : Request :=
  .setBorders w.proxy .all b.2.1 (AppData.to32bit b.2.2.1) (AppData.to32bit b.2.2.2.1)
    (AppData.to32bit b.2.2.2.2) (AppData.to32bit 0xff)

/-- Apply a placement to the window it is for. -/
def draw : Window × List Request :=
  if place = .hidden then (w, [.hide w.proxy])
  else
    ({ w with borderApplied := some (w.borderFor config focused) },
      w.raiseRequests place ++
        (if w.borderApplied ≠ some (w.borderFor config focused) then
          [w.borderRequest (w.borderFor config focused)] else []) ++
        [.show w.proxy])

end Window

namespace AppData

variable {d d' : AppData} {config : Config} {focused : Option ℕ}

/-- Updating a window that the update leaves as it is. -/
theorem modifyWindow_of_fixed {s : State} {id : ℕ} {w : Window} {f : Window → Window}
    (hw : s.findWindow id = some w) (hf : f w = w) : s.modifyWindow id f = s := by
  unfold State.modifyWindow
  rw [modifyFirst_congr (g := fun v => v) hw hf]
  have hid := map_modifyFirst (p := fun w : Window => w.id == id) (f := fun v => v) (fun v => v)
    (fun _ => rfl) s.windows
  rw [List.map_id', List.map_id'] at hid
  rw [hid]

/-- Applying a placement concerns the window it is for. -/
theorem renderWindow_draw {w : Window} (place : Placement)
    (hw : d.state.findWindow w.id = some w) : d.renderWindow config focused (w.id, place) =
      { d with
        state := d.state.modifyWindow w.id fun v => (v.draw config focused place).1
        sent := d.sent ++ (w.draw config focused place).2 } := by
  by_cases hp : place = .hidden
  · rw [modifyWindow_of_fixed hw (by rw [Window.draw, if_pos hp]), Window.draw, if_pos hp,
      renderWindow, hw]
    simp only [hp, if_true]
    rfl
  have hpos : d.renderWindow config focused (w.id, place) =
      (if w.borderApplied ≠ some (w.borderFor config focused) then
        (((d.sendAll (w.raiseRequests place)).send
          (w.borderRequest (w.borderFor config focused))).modifyState fun s =>
            s.modifyWindow w.id fun v => { v with
              borderApplied := some (w.borderFor config focused) })
      else d.sendAll (w.raiseRequests place)).send (.show w.proxy) := by
    unfold renderWindow
    rw [hw]
    simp only [if_neg hp]
    cases place
    · exact absurd rfl hp
    · rfl
    · rfl
  rw [hpos]
  by_cases hb : w.borderApplied = some (w.borderFor config focused)
  · rw [modifyWindow_of_fixed hw (by rw [Window.draw, if_neg hp, ← hb]), Window.draw, if_neg hp]
    simp [hb, send, sendAll]
  · have hdraw : d.state.modifyWindow w.id (fun v => { v with
        borderApplied := some (w.borderFor config focused) }) =
        d.state.modifyWindow w.id fun v => (v.draw config focused place).1 := by
      unfold State.modifyWindow
      rw [modifyFirst_congr hw]
      rw [Window.draw, if_neg hp]
    rw [← hdraw, Window.draw, if_neg hp]
    simp [hb, send, sendAll, modifyState]

theorem id_draw (place : Placement) (w : Window) : (w.draw config focused place).1.id = w.id := by
  unfold Window.draw
  split_ifs <;> rfl

theorem findWindow_of_nodup {s : State} {w : Window} (hids : (s.windows.map (·.id)).Nodup)
    (hw : w ∈ s.windows) : s.findWindow w.id = some w := by
  obtain ⟨v, hv⟩ := State.exists_findWindow_id hw
  obtain ⟨hmem, hid⟩ := State.mem_of_findWindow hv
  rw [hv, List.inj_on_of_nodup_map hids hmem hw hid]

/-- With distinct ids, applying the placements draws every window placed. -/
theorem renderWindows_draw (place : Window → Placement) : ∀ (ws : List Window) (d : AppData),
    (d.state.windows.map (·.id)).Nodup → (ws.map (·.id)).Nodup → (∀ w ∈ ws, w ∈ d.state.windows) →
      d.renderWindows focused (ws.map fun w => (w.id, place w)) =
        { d with
          state := { d.state with
            windows := d.state.windows.map fun w =>
              if w.id ∈ ws.map (·.id) then (w.draw d.config focused (place w)).1 else w }
          sent := d.sent ++ ws.flatMap fun w => (w.draw d.config focused (place w)).2 }
  | [], d, _, _, _ => by simp [renderWindows]
  | w :: ws, d, hids, hws, hmem => by
    obtain ⟨hnot, hrest⟩ := List.nodup_cons.mp hws
    have hw := hmem w List.mem_cons_self
    have hdraw : d.renderWindow d.config focused (w.id, place w) = _ :=
      renderWindow_draw (place w) (findWindow_of_nodup hids hw)
    rw [State.modifyWindow, modifyFirst_eq_map w.id _ hids] at hdraw
    generalize hd₁ : d.renderWindow d.config focused (w.id, place w) = d₁ at hdraw
    have hwindows : d₁.state.windows = d.state.windows.map fun v =>
        if v.id = w.id then (v.draw d.config focused (place w)).1 else v := by rw [hdraw]
    have hids₁ : d₁.state.windows.map (·.id) = d.state.windows.map (·.id) := by
      rw [hwindows, List.map_map]
      refine List.map_congr_left fun v _ => ?_
      rw [Function.comp_apply]
      split_ifs
      · exact id_draw (place w) v
      · rfl
    have hmem₁ : ∀ v ∈ ws, v ∈ d₁.state.windows := by
      intro v hv
      have hne : v.id ≠ w.id := fun h => hnot (List.mem_map.mpr ⟨v, hv, h⟩)
      rw [hwindows]
      exact List.mem_map.mpr ⟨v, hmem v (List.mem_cons_of_mem w hv), if_neg hne⟩
    have hstep : d.renderWindows focused ((w :: ws).map fun w => (w.id, place w)) =
        d₁.renderWindows focused (ws.map fun w => (w.id, place w)) := by
      rw [← hd₁]
      rfl
    have hall : ((d.state.windows.map fun v =>
        if v.id = w.id then (v.draw d.config focused (place w)).1 else v).map fun v =>
          if v.id ∈ ws.map (·.id) then (v.draw d.config focused (place v)).1 else v) =
        d.state.windows.map fun v =>
          if v.id ∈ (w :: ws).map (·.id) then (v.draw d.config focused (place v)).1 else v := by
      rw [List.map_map]
      refine List.map_congr_left fun v hv => ?_
      rw [Function.comp_apply, List.map_cons]
      by_cases hid : v.id = w.id
      · obtain rfl := List.inj_on_of_nodup_map hids hv hw hid
        rw [if_pos rfl, id_draw, if_neg hnot, if_pos List.mem_cons_self]
      · rw [if_neg hid]
        simp only [List.mem_cons, hid, false_or]
    rw [hstep, renderWindows_draw place ws d₁ (hids₁ ▸ hids) hrest hmem₁, hwindows, hdraw]
    simp only [hall, List.flatMap_cons, List.append_assoc]

/-- All windows that are placed are drawn. -/
theorem renderBlocks_eq (place : Window → Placement) (hids : (d.state.windows.map (·.id)).Nodup) :
    d.renderWindows focused ((d.state.blocks place).map fun w => (w.id, place w)) =
      { d with
        state := { d.state with
          windows := d.state.windows.map fun w => (w.draw d.config focused (place w)).1 }
        sent := d.sent ++ (d.state.blocks place).flatMap fun w =>
          (w.draw d.config focused (place w)).2 } := by
  have hperm := State.perm_blocks (s := d.state) place
  rw [renderWindows_draw place (d.state.blocks place) d hids
    ((hperm.map (·.id)).nodup_iff.mpr hids) fun w hw => hperm.mem_iff.mp hw]
  have hall : (d.state.windows.map fun w => if w.id ∈ (d.state.blocks place).map (·.id) then
      (w.draw d.config focused (place w)).1 else w) =
      d.state.windows.map fun w => (w.draw d.config focused (place w)).1 :=
    List.map_congr_left fun w hw => if_pos (List.mem_map_of_mem (hperm.mem_iff.mpr hw))
  rw [hall]

/-- The layout reads the ids, the tags and the floating states of the windows. -/
theorem computeAll_of_windows {s : State} {ws : List Window}
    (h : ws.map (fun w => (w.id, w.tag, w.floating)) =
      s.windows.map fun w => (w.id, w.tag, w.floating)) (config : Config) :
    ({ s with windows := ws } : State).computeAll config = s.computeAll config := by
  have hkeys (ws : List Window) (i : ℕ) (out : Output) :
      (ws.filter fun w => s.onActiveTag i out.activeTag w && !w.floating).map (·.id) =
        ((ws.map fun w => (w.id, w.tag, w.floating)).filter fun k =>
          s.tagOwner k.2.1 == some i && k.2.1 == out.activeTag && !k.2.2).map (·.1) := by
    rw [List.filter_map, List.map_map]
    rfl
  have hvisible : ∀ i, ({ s with windows := ws } : State).visibleWindows i = s.visibleWindows i := by
    intro i
    unfold State.visibleWindows
    refine congrArg (Option.bind s.outputs[i]?) (funext fun out => congrArg some ?_)
    rw [hkeys s.windows, ← h]
    exact hkeys ws i out
  have houtput : ∀ i, ({ s with windows := ws } : State).computeOutput config i =
      s.computeOutput config i := by
    intro i
    simp only [State.computeOutput, State.computeOutputIn, hvisible]
    rfl
  simp only [State.computeAll_eq, funext houtput]

/-- Settling the nodes changes nodes. -/
theorem rendered_beginRender (d : AppData) :
    List.Forall₂ Window.Rendered d.state.windows d.beginRender.state.windows := by
  have htrans : ∀ w v u : Window, w.Rendered v → v.Rendered u → w.Rendered u :=
    fun _ _ _ h h' => h.trans h'
  exact forall₂_trans htrans (forall₂_trans htrans (rendered_releaseHiddenNodes d)
    (rendered_createNodes _)) (rendered_releaseHiddenNodes _)

theorem map_beginRender {α : Type} (k : Window → α)
    (hk : ∀ w border node, k { w with borderApplied := border, node } = k w) (d : AppData) :
    d.beginRender.state.windows.map k = d.state.windows.map k := by
  refine map_eq_of_forall₂ (fun w w' h => ?_) (rendered_beginRender d)
  obtain ⟨border, node, rfl⟩ := h
  exact hk w border node

/-- Settling the nodes changes no cell. -/
theorem computeAll_beginRender (d : AppData) (config : Config) :
    d.beginRender.state.computeAll config = d.state.computeAll config :=
  computeAll_of_windows (s := d.state) (map_beginRender _ (fun _ _ _ => rfl) d) config

/-- A snapshot is published, or nothing. -/
theorem refreshSnapshot_eq {hasClients : Bool} (h : d.refreshSnapshot hasClients = some d') :
    d' = { d with published := d'.published } := by
  unfold refreshSnapshot at h
  split_ifs at h
  · exact Option.some.inj h ▸ rfl
  · obtain ⟨snap, -, h⟩ := Option.bind_eq_some_iff.mp h
    exact Option.some.inj h ▸ rfl

/-- A render sequence : the nodes are settled, and every window is drawn. -/
theorem onRenderStart_eq (hids : (d.state.windows.map (·.id)).Nodup) {hasClients : Bool}
    (h : d.onRenderStart hasClients = some d') : ∃ focused gs published,
    d.state.activeFocusedWindow = some focused ∧ d.state.computeAll d.config = some gs ∧
    d' = { d.beginRender with
      state := { d.state with
        windows := d.beginRender.state.windows.map fun w =>
          (w.draw d.config focused (d.state.placement gs w)).1 }
      published
      sent := d.beginRender.sent ++
        (((d.beginRender.state.blocks (d.state.placement gs)).flatMap fun w =>
          (w.draw d.config focused (d.state.placement gs w)).2) ++ [.renderFinish]) } := by
  obtain ⟨focused, hfocused, h⟩ := Option.bind_eq_some_iff.mp h
  obtain ⟨d₁, h₁, h⟩ := Option.bind_eq_some_iff.mp h
  obtain ⟨gs, hgs⟩ := d.state.exists_computeAll d.config
  have hgs' : d.beginRender.state.computeAll d.beginRender.config = some gs :=
    (computeAll_beginRender d d.config).trans hgs
  have hids' : (d.beginRender.state.windows.map (·.id)).Nodup := by
    rwa [map_beginRender (·.id) (fun _ _ _ => rfl) d]
  have heq := renderAllRun_eq focused hgs'
  rw [heq, Option.some.injEq] at h₁
  have hblocks : d.beginRender.renderWindows focused ((d.beginRender.state.blocks
      (d.state.placement gs)).map fun w => (w.id, d.state.placement gs w)) = d₁ := h₁
  rw [renderBlocks_eq _ hids'] at hblocks
  subst hblocks
  refine ⟨focused, gs, d'.published, hfocused, hgs, ?_⟩
  rw [refreshSnapshot_eq h]
  simp only [send, List.append_assoc]
  rfl

end AppData

end Streamwm
