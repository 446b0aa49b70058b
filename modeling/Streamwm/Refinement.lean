import Streamwm.EventLoop
import Streamwm.Handlers

/-!
# The event loop refines the state machine

A manage sequence refocuses every output (`refocusAll_eq`), meets the desired and the
applied fullscreen states, and otherwise only sends requests; a render sequence changes
only what no operation reads.

`handle_spec` : on a well-formed state no event makes the loop panic, and the state
afterwards is reached by operations. So the states the event loop reaches are among
those the state machine reaches, and every one of them is well-formed
(`handle_never_panics`).
-/

namespace Streamwm

open Partial Transition

namespace State

variable {s : State} {i : ℕ}

/-! ## Refocusing -/

/-- The state with the outputs below `k` refocused. -/
def refocusedBelow (s : State) (k : ℕ) : State :=
  { s with outputs := s.outputs.mapIdx fun i o =>
      if i < k then { o with focusedWindow := s.refocusTarget i o } else o }

/-- The state with every output refocused. -/
def refocused (s : State) : State :=
  { s with outputs := s.outputs.mapIdx fun i o => { o with focusedWindow := s.refocusTarget i o } }

theorem refocusOutput_refocusedBelow (hi : i < s.outputs.length) :
    (s.refocusedBelow i).refocusOutput i = some (s.refocusedBelow (i + 1)) := by
  have hout : (s.refocusedBelow i).outputs[i]? = some s.outputs[i] := by
    simp [refocusedBelow, hi]
  have htarget :
      (s.refocusedBelow i).refocusTarget i s.outputs[i] = s.refocusTarget i s.outputs[i] :=
    rfl
  rw [refocusOutput_eq hout, Option.some.injEq, htarget]
  unfold setFocusedWindow refocusedBelow
  congr 1
  ext j : 1
  simp only [List.getElem?_modify, List.getElem?_mapIdx]
  rcases lt_or_ge j s.outputs.length with hj | hj
  · simp only [List.getElem?_eq_getElem hj, Option.map_some]
    rcases lt_trichotomy j i with hlt | rfl | hgt
    · simp [hlt, Nat.lt_succ_of_lt hlt, hlt.ne']
    · simp
    · simp [hgt.not_gt, show ¬j < i + 1 by omega, hgt.ne]
  · simp [hj]

/-- The loop over all outputs. -/
theorem refocusAll_eq (s : State) : s.refocusAll = some s.refocused ∧
    Reachable LocalStep s s.refocused := by
  have hzero : s.refocusedBelow 0 = s := by
    have hmap : (s.outputs.mapIdx fun i o =>
        if i < 0 then { o with focusedWindow := s.refocusTarget i o } else o) = s.outputs :=
      List.ext_getElem (by simp) fun j _ _ => by simp
    rw [refocusedBelow, hmap]
  have hall : s.refocusedBelow s.outputs.length = s.refocused := by
    unfold refocusedBelow refocused
    congr 1
    refine List.ext_getElem (by simp) fun j hj _ => ?_
    rw [List.length_mapIdx] at hj
    simp [hj]
  obtain ⟨r, hr, rfl, hreach⟩ := exists_loop (n := s.outputs.length)
    (f := fun i s => s.refocusOutput i)
    (fun k r => r = s.refocusedBelow k ∧ Reachable LocalStep s r) (by
      rintro j r hj ⟨rfl, hreach⟩
      have hstep := refocusOutput_refocusedBelow hj
      exact ⟨_, hstep, rfl, hreach.trans (reachable_of_local (.refocus j) trivial hstep)⟩)
    s.outputs.length 0 s (by omega) ⟨hzero.symm, .refl⟩
  exact ⟨hall ▸ hr, hall ▸ hreach⟩

theorem same_refocused (s : State) : Same s s.refocused where
  tags := rfl
  owner _ := rfl
  length := by simp [refocused]
  shown i := by simp [shown, refocused, Option.map_map, Function.comp_def]
  proxy i := by simp [outputProxy, refocused, Option.map_map, Function.comp_def]
  windows := rfl
  seats := rfl
  nextWindowId := rfl
  focused := Or.inl rfl

end State

open State

variable {d d' : AppData}

/-- Local steps are steps. -/
theorem Handled.reachable (h : Handled d d') : Reachable Op.Step d.state d'.state :=
  h.steps.mono fun _ _ _ hstep => hstep.2

/-! ## Updating every window -/

namespace AppData

/-- A loop over the windows, with requests about no mode. -/
theorem idle_updateWindows {f : Window → Window × List Request} (hf : ∀ w, Window.Kept w (f w).1)
    (hr : ∀ w, ∀ r ∈ (f w).2, r.Modal = false) : Idle d (d.updateWindows f) := by
  refine ⟨⟨reachable_of_windows ?_, ⟨_, rfl, fun r hmem => ?_⟩, rfl⟩, rfl, rfl, rfl, rfl⟩
  · rw [List.forall₂_map_right_iff]
    exact List.forall₂_same.mpr fun w _ => hf w
  · obtain ⟨w, -, hw⟩ := List.mem_flatMap.mp hmem
    exact hr w r hw

/-- A loop over the windows that takes no node. -/
theorem untouched_updateWindows {f : Window → Window × List Request}
    (hf : ∀ w, (f w).1.held = w.held) (hr : ∀ w, ∀ r ∈ (f w).2, r.OfNodes = false) :
    Untouched d (d.updateWindows f) := by
  refine ⟨?_, le_refl _, _, rfl, fun r hmem => ?_⟩
  · change (d.state.windows.map _).map _ = _
    rw [List.map_map]
    exact List.map_congr_left fun w _ => hf w
  · obtain ⟨w, -, hw⟩ := List.mem_flatMap.mp hmem
    exact hr w r hw

theorem inert_updateWindows {f : Window → Window × List Request}
    (hf : ∀ w, Window.Fixed w (f w).1) (hr : ∀ w, ∀ r ∈ (f w).2, r.Marked = false) :
    Inert d (d.updateWindows f) :=
  ⟨idle_updateWindows (fun w => (hf w).toKept)
    fun w r hmem => (Bool.or_eq_false_iff.mp (hr w r hmem)).1,
    untouched_updateWindows (fun w => (hf w).held)
      fun w r hmem => (Bool.or_eq_false_iff.mp (hr w r hmem)).2⟩

end AppData

/-- The requests of the fullscreen block. -/
def Request.OfManage : Request → Bool
  | .fullscreen _ _ | .exitFullscreen _ | .informFullscreen _ | .informNotFullscreen _ => true
  | .setCapabilities _ | .useSsd _ | .useCsd _ => true
  | _ => false

namespace Window

variable {w w' w'' : Window}

/-- The window after (part of) the fullscreen block : four fields change, and `fullscreen`
is only cleared. -/
def Managed (w w' : Window) : Prop :=
  ∃ fullscreen fullscreenApplied ssdApplied capsSet,
    w' = { w with fullscreen, fullscreenApplied, ssdApplied, capsSet } ∧
      (fullscreen = true → w.fullscreen = true)

theorem Managed.refl (w : Window) : Managed w w :=
  ⟨_, _, _, _, rfl, fun h => h⟩

/-- One step of the fullscreen block after another. -/
theorem Managed.trans (h : Managed w w') (h' : Managed w' w'') : Managed w w'' := by
  obtain ⟨_, _, _, _, rfl, hf⟩ := h
  obtain ⟨_, _, _, _, rfl, hf'⟩ := h'
  exact ⟨_, _, _, _, rfl, fun h => hf (hf' h)⟩

theorem Managed.proxy (h : Managed w w') : w'.proxy = w.proxy := by
  obtain ⟨_, _, _, _, rfl, -⟩ := h
  rfl

theorem Managed.tag (h : Managed w w') : w'.tag = w.tag := by
  obtain ⟨_, _, _, _, rfl, -⟩ := h
  rfl

theorem managed_manage (useSsd : Bool) (target : Option ObjectId) (untagged outputsEmpty : Bool)
    (w : Window) : Managed w (w.manage useSsd target untagged outputsEmpty).1 := by
  have hdrop (w : Window) : Managed w (w.dropLostFullscreen untagged outputsEmpty).1 := by
    unfold dropLostFullscreen
    split_ifs
    · exact ⟨_, _, _, _, rfl, fun h => by cases h⟩
    · exact Managed.refl w
  have hcaps (w : Window) : Managed w w.setCaps.1 := by
    unfold setCaps
    split_ifs
    · exact Managed.refl w
    · exact ⟨_, _, _, _, rfl, fun h => h⟩
  have hdeco (w : Window) : Managed w (w.setDecorations useSsd).1 := by
    unfold setDecorations
    split
    · exact ⟨_, _, _, _, rfl, fun h => h⟩
    · exact Managed.refl w
  have hsync (w : Window) : Managed w (w.syncFullscreen target).1 := by
    unfold syncFullscreen
    split_ifs
    · split
      · exact ⟨_, _, _, _, rfl, fun h => h⟩
      · exact Managed.refl w
    · exact ⟨_, _, _, _, rfl, fun h => h⟩
    · exact Managed.refl w
  exact (((hdrop w).trans (hcaps _)).trans (hdeco _)).trans (hsync _)

/-- The fullscreen block makes requests about fullscreen, capabilities and decorations. -/
theorem ofManage_manage (useSsd : Bool) (target : Option ObjectId)
    (untagged outputsEmpty : Bool) (w : Window) :
    ∀ r ∈ (w.manage useSsd target untagged outputsEmpty).2, r.OfManage = true := by
  have hdrop : ∀ w : Window, ∀ r ∈ (w.dropLostFullscreen untagged outputsEmpty).2,
      r.OfManage = true := by
    intro w
    unfold dropLostFullscreen
    split_ifs <;> simp [Request.OfManage]
  have hcaps : ∀ w : Window, ∀ r ∈ w.setCaps.2, r.OfManage = true := by
    intro w
    unfold setCaps
    split_ifs <;> simp [Request.OfManage]
  have hdeco : ∀ w : Window, ∀ r ∈ (w.setDecorations useSsd).2, r.OfManage = true := by
    intro w
    unfold setDecorations
    split_ifs <;> simp [Request.OfManage]
  have hsync : ∀ w : Window, ∀ r ∈ (w.syncFullscreen target).2, r.OfManage = true := by
    intro w
    unfold syncFullscreen
    split_ifs
    · cases target <;> simp [Request.OfManage]
    · simp [Request.OfManage]
    · simp
  intro r hr
  simp only [manage, List.mem_append] at hr
  rcases hr with ((hr | hr) | hr) | hr
  · exact hdrop _ r hr
  · exact hcaps _ r hr
  · exact hdeco _ r hr
  · exact hsync _ r hr

/-- The fullscreen block is not about pointer operations or nodes. -/
theorem requests_manage (useSsd : Bool) (target : Option ObjectId)
    (untagged outputsEmpty : Bool) (w : Window) :
    ∀ r ∈ (w.manage useSsd target untagged outputsEmpty).2,
      r.OfPointerOp = false ∧ r.OfNodes = false := by
  intro r hr
  have hkind := w.ofManage_manage useSsd target untagged outputsEmpty r hr
  cases r <;> first
    | exact ⟨rfl, rfl⟩
    | cases hkind

/-- Telling a window its edges changes nothing but what it was last told. -/
theorem setTiled_spec (w : Window) : ∃ t, w.setTiled.1 = { w with tiledApplied := t } ∧
    ∀ r ∈ w.setTiled.2, ∃ edges, r = .setTiled w.proxy edges := by
  unfold setTiled
  dsimp only
  split_ifs
  · exact ⟨w.tiledApplied, rfl, fun r hr => by cases hr⟩
  all_goals exact ⟨_, rfl, fun r hr => ⟨_, List.mem_singleton.mp hr⟩⟩

end Window

namespace AppData

/-! ## Manage sequences -/

/-- An unmarked request is about neither modes nor nodes. -/
theorem unmarked (r : Request) (h : r.Marked = false) :
    r.OfFullscreen = false ∧ r.OfNodes = false :=
  ⟨(Bool.or_eq_false_iff.mp (Bool.or_eq_false_iff.mp h).1).1, (Bool.or_eq_false_iff.mp h).2⟩

theorem modal_of_marked (r : Request) (h : r.Marked = false) : r.OfPointerOp = false :=
  (Bool.or_eq_false_iff.mp (Bool.or_eq_false_iff.mp h).1).2

/-- Setting a cursor is a request, if the seat has a pointer. -/
theorem setSeatCursor_eq (d : AppData) (seat : ObjectId) (shape : CursorShape) :
    ∃ rs, d.setSeatCursor seat shape = d.sendAll rs ∧ ∀ r ∈ rs, r.Marked = false := by
  have hnone : ∃ rs, d = d.sendAll rs ∧ ∀ r ∈ rs, r.Marked = false :=
    ⟨[], by simp [sendAll], by simp⟩
  unfold setSeatCursor
  split
  · exact hnone
  · split
    · exact hnone
    · split
      · exact ⟨[.setCursorShape _ _], rfl,
          List.forall_mem_singleton.mpr rfl⟩
      · exact ⟨[.setDefaultCursor _], rfl,
          List.forall_mem_singleton.mpr rfl⟩

/-- What a manage sequence does about pointer operations : the pending one starts, and
what then runs ends if that is requested. -/
structure PointerPass (d d' : AppData) : Prop where
  state : d'.state = d.state
  config : d'.config = d.config
  pendingOp : d'.pendingOp = none
  opEndRequested : d'.opEndRequested = false
  pointerOp : d'.pointerOp = if d.opEndRequested then none else d.pendingOp.or d.pointerOp
  sent : ∃ rs, d'.sent = d.sent ++ rs ∧ (∀ r ∈ rs, r.OfFullscreen = false) ∧
    rs.filter Request.OfPointerOp =
      (d.pendingOp.map fun op => Request.opStartPointer op.seat op.window).toList ++
        if d.opEndRequested then
          ((d.pendingOp.or d.pointerOp).map fun op => Request.opEnd op.seat).toList
        else []
  untouched : Untouched d d'

theorem startPendingOp_spec (d : AppData) : ∃ rs,
    d.startPendingOp = { d with pendingOp := none, pointerOp := d.pendingOp.or d.pointerOp }.sendAll rs ∧
      (∀ r ∈ rs, r.OfFullscreen = false ∧ r.OfNodes = false) ∧ rs.filter Request.OfPointerOp =
        (d.pendingOp.map fun op => Request.opStartPointer op.seat op.window).toList := by
  unfold startPendingOp
  cases hp : d.pendingOp with
  | none =>
    have heta : ({ d with pendingOp := none, pointerOp := d.pointerOp } : AppData) = d := by
      rw [← hp]
    exact ⟨[], by simpa [sendAll] using heta.symm, by simp, rfl⟩
  | some op =>
    obtain ⟨rs, hrs, hm⟩ :=
      setSeatCursor_eq { d with pendingOp := none } op.seat (cursorShape op.kind op.edges)
    refine ⟨rs ++ [.opStartPointer op.seat op.window], by simp [hrs, send, sendAll],
      fun r hr => ?_, ?_⟩
    · rcases List.mem_append.mp hr with hr | hr
      · exact unmarked r (hm r hr)
      · rw [List.mem_singleton.mp hr]
        exact ⟨rfl, rfl⟩
    · have hnil : rs.filter Request.OfPointerOp = [] :=
        List.filter_eq_nil_iff.mpr fun r hr => by simp [modal_of_marked r (hm r hr)]
      rw [List.filter_append, hnil]
      rfl

theorem endRequestedOp_spec (d : AppData) : ∃ rs,
    d.endRequestedOp = { d with opEndRequested := false
                                pointerOp := if d.opEndRequested then none else d.pointerOp }.sendAll rs ∧
      (∀ r ∈ rs, r.OfFullscreen = false ∧ r.OfNodes = false) ∧ rs.filter Request.OfPointerOp =
        if d.opEndRequested then (d.pointerOp.map fun op =>
          Request.opEnd op.seat).toList else [] := by
  unfold endRequestedOp
  cases hend : d.opEndRequested with
  | false =>
    have heta : ({ d with opEndRequested := false, pointerOp := d.pointerOp } : AppData) = d := by
      rw [← hend]
    exact ⟨[], by simpa [sendAll] using heta.symm, by simp, rfl⟩
  | true =>
    rw [if_pos rfl]
    cases hop : d.pointerOp with
    | none => exact ⟨[], by simp [sendAll], by simp, rfl⟩
    | some op =>
      obtain ⟨rs, hrs, hm⟩ := setSeatCursor_eq (({ d with opEndRequested := false, pointerOp := none } :
        AppData).send (.opEnd op.seat)) op.seat .default
      refine ⟨.opEnd op.seat :: rs, hrs.trans (by simp [send, sendAll]), fun r hr => ?_, ?_⟩
      · rcases List.mem_cons.mp hr with rfl | hr
        · exact ⟨rfl, rfl⟩
        · exact unmarked r (hm r hr)
      · have hnil : rs.filter Request.OfPointerOp = [] :=
          List.filter_eq_nil_iff.mpr fun r hr => by simp [modal_of_marked r (hm r hr)]
        rw [List.filter_cons_of_pos (by rfl), hnil]
        rfl

theorem pointerPass (d : AppData) : PointerPass d d.processPointerOps := by
  obtain ⟨rs, hrs, hf, hp⟩ := startPendingOp_spec d
  obtain ⟨rs', hrs', hf', hp'⟩ := endRequestedOp_spec d.startPendingOp
  rw [hrs] at hrs' hp'
  have heq : d.processPointerOps = _ := (congrArg endRequestedOp hrs).trans hrs'
  rw [heq]
  have hmem : ∀ r ∈ rs ++ rs', r.OfFullscreen = false ∧ r.OfNodes = false := fun r hr =>
    (List.mem_append.mp hr).elim (hf r) (hf' r)
  refine ⟨rfl, rfl, rfl, rfl, rfl,
    ⟨rs ++ rs', List.append_assoc .., fun r hr => (hmem r hr).1, ?_⟩,
    ⟨rfl, le_refl _, rs ++ rs', List.append_assoc .., fun r hr => (hmem r hr).2⟩⟩
  rw [List.filter_append, hp, hp']
  rfl

theorem inert_applyPendingClose : Inert d d.applyPendingClose := by
  have hclear : Inert d { d with pendingClose := [] } := inert_of_eq rfl rfl rfl rfl rfl rfl (le_refl _)
  refine hclear.sendAll fun r hr => ?_
  obtain ⟨fid, -, hr⟩ := List.mem_flatMap.mp hr
  exact forall_mem_option _ (fun _ => rfl) _ r hr

theorem inert_setLayerDefault : Inert d d.setLayerDefault ∧ d.setLayerDefault.state = d.state := by
  unfold setLayerDefault
  split_ifs
  · exact ⟨Inert.refl d, rfl⟩
  · split
    · next layer _ =>
      have hsend : Inert d (d.send (.layerSetDefault layer)) := (Inert.refl d).send rfl
      exact ⟨hsend.trans (inert_of_eq rfl rfl rfl rfl rfl rfl (le_refl _)), rfl⟩
    · exact ⟨Inert.refl d, rfl⟩

/-- A manage sequence up to the fullscreen block. -/
theorem beginManage_spec (d : AppData) : ∃ d₁, d.beginManage = some d₁ ∧
    d₁.state = d.state.refocused ∧ Inert d.processPointerOps d₁ := by
  obtain ⟨hrefocus, hreach⟩ := d.state.refocusAll_eq
  have hstate := (pointerPass d).state
  refine ⟨{ d.processPointerOps with state := d.state.refocused }, ?_, rfl, ?_⟩
  · simp only [beginManage, modifyStateM, hstate, hrefocus]
    rfl
  · exact inert_state (hstate ▸ hreach) (by rw [hstate]; rfl)
      (by rw [hstate, (State.same_refocused d.state).windows])

/-- The fullscreen block runs between requests that change nothing. -/
theorem manageWindows_spec (d : AppData) : ∃ d₁, d₁.state = d.state ∧ Inert d d₁ ∧
    Inert d₁.applyFullscreen d.manageWindows ∧ d.manageWindows.state = d₁.applyFullscreen.state := by
  have hhide : Inert d (d.sendAll (d.state.windows.map fun w => Request.hide w.proxy)) := by
    refine (Inert.refl d).sendAll fun r hr => ?_
    obtain ⟨w, -, rfl⟩ := List.mem_map.mp hr
    rfl
  have hclose := hhide.trans (inert_applyPendingClose
    (d := d.sendAll (d.state.windows.map fun w => Request.hide w.proxy)))
  refine ⟨_, ?_, hclose, ?_, ?_⟩
  · rfl
  · exact inert_setLayerDefault.1
  · exact inert_setLayerDefault.2

/-- The window focus is routed to can be computed. -/
theorem exists_routedWindow (hs : d.state.WellFormed) :
    ∃ routed, d.state.routedWindow = some routed := by
  unfold routedWindow
  split
  · exact ⟨none, rfl⟩
  · next o ho =>
    rw [List.getElem?_eq_getElem (hs.activeOutput_lt ho)]
    exact ⟨_, rfl⟩

/-- The focus of the seats is set. -/
theorem inert_focusRequests (routed : Option Window) :
    Inert d (d.sendAll (d.state.focusRequests routed)) := by
  refine (Inert.refl d).sendAll fun r hr => ?_
  obtain ⟨seat, -, rfl⟩ := List.mem_map.mp hr
  cases routed <;> rfl

/-- Sizes are proposed. -/
theorem inert_proposeAll (gs : List (ℕ × Geometry)) : Inert d (d.proposeAll gs) := by
  refine (Inert.refl d).sendAll fun r hr => ?_
  rcases List.mem_append.mp hr with hr | hr
  · obtain ⟨p, -, hp⟩ := List.mem_flatMap.mp hr
    unfold proposeCell at hp
    split_ifs at hp
    · simp at hp
    · split at hp
      · simp at hp
      · split_ifs at hp
        · rw [List.mem_singleton.mp hp]
          rfl
        · simp only [List.mem_cons, List.not_mem_nil, or_false] at hp
          rcases hp with rfl | rfl <;> rfl
  · obtain ⟨w, -, hw⟩ := List.mem_flatMap.mp hr
    split_ifs at hw
    · rw [List.mem_singleton.mp hw]
      rfl
    · simp at hw

/-- Windows are told which of their edges are tiled. -/
theorem inert_setTiled : Inert d (d.updateWindows Window.setTiled) := by
  refine inert_updateWindows (fun w => ?_) fun w r hr => ?_
  · obtain ⟨t, ht, -⟩ := w.setTiled_spec
    rw [ht]
    exact ⟨⟨rfl, rfl, rfl, fun h => h, rfl⟩, rfl⟩
  · obtain ⟨t, -, hrs⟩ := w.setTiled_spec
    obtain ⟨edges, rfl⟩ := hrs r hr
    rfl

/-- The bindings are only enabled and disabled. -/
theorem exists_enableBindings (d : AppData) : ∃ rs, d.enableBindings = d.sendAll rs ∧
    ∀ r ∈ rs, ∃ b, r = .enable b ∨ r = .disable b := by
  refine ⟨_, rfl, fun r hr => ?_⟩
  rcases List.mem_append.mp hr with hr | hr
  · obtain ⟨b, -, rfl⟩ := List.mem_map.mp hr
    refine ⟨b.1, ?_⟩
    split_ifs
    · exact Or.inl rfl
    · exact Or.inr rfl
    · exact Or.inl rfl
  · obtain ⟨b, -, rfl⟩ := List.mem_map.mp hr
    exact ⟨b.1, Or.inl rfl⟩

/-- A warp moves pointers only. -/
theorem mem_warpRequests {s : State} {target : ℕ} {r : Request} (hr : r ∈ s.warpRequests target) :
    ∃ seat x y, r = .pointerWarp seat x y := by
  unfold State.warpRequests at hr
  split at hr
  · cases hr
  · obtain ⟨seat, -, rfl⟩ := List.mem_map.mp hr
    exact ⟨_, _, _, rfl⟩

/-- Bindings are enabled and disabled. -/
theorem inert_enableBindings : Inert d d.enableBindings := by
  obtain ⟨rs, hrs, hkind⟩ := exists_enableBindings d
  rw [hrs]
  refine (Inert.refl d).sendAll fun r hr => ?_
  obtain ⟨b, rfl | rfl⟩ := hkind r hr <;> rfl

theorem inert_applyPointerWarp : Inert d d.applyPointerWarp ∧ d.applyPointerWarp.state = d.state := by
  unfold applyPointerWarp
  split
  · exact ⟨Inert.refl d, rfl⟩
  · next target _ =>
    have hclear : Inert d { d with pendingPointerWarp := none } := inert_of_eq rfl rfl rfl rfl rfl rfl (le_refl _)
    refine ⟨hclear.sendAll fun r hr => ?_, rfl⟩
    obtain ⟨seat, x, y, rfl⟩ := mem_warpRequests hr
    rfl

/-- The rest of a manage sequence. -/
theorem finishManage_spec (hs : d.state.WellFormed) : ∃ d', d.finishManage = some d' ∧ Inert d d' ∧
    d'.state = { d.state with windows := d.state.windows.map fun w => w.setTiled.1 } := by
  obtain ⟨routed, hrouted⟩ := exists_routedWindow hs
  obtain ⟨gs, hgs⟩ := d.state.exists_computeAll d.config
  refine ⟨_, by
    simp only [finishManage, hrouted, sendAll, hgs, Option.bind_eq_bind, Option.bind_some]; rfl,
    ?_, ?_⟩
  · have htiled := ((inert_focusRequests (d := d) routed).trans
      (inert_proposeAll gs)).trans inert_setTiled
    exact ((htiled.trans inert_enableBindings).trans inert_applyPointerWarp.1).send rfl
  · exact inert_applyPointerWarp.2

/-- The fullscreen block moves no window. -/
theorem quiet_applyFullscreen : d.state.Quiet d.applyFullscreen.state := by
  refine ⟨rfl, rfl, ?_, rfl, rfl⟩
  change List.Forall₂ _ d.state.windows
    (d.state.windows.map fun w => (d.state.manageWindow d.config w).1)
  rw [List.forall₂_map_right_iff]
  refine List.forall₂_same.mpr fun w _ => ?_
  obtain ⟨_, _, _, _, hw, hf⟩ := w.managed_manage d.config.useSsd (d.state.fullscreenTarget w)
    (d.state.tagOwner w.tag).isNone d.state.outputs.isEmpty
  rw [State.manageWindow, hw]
  exact ⟨rfl, rfl, rfl, hf⟩

theorem untouched_applyFullscreen : Untouched d d.applyFullscreen := by
  refine untouched_updateWindows (fun w => ?_) fun w r hr => (w.requests_manage _ _ _ _ r hr).2
  obtain ⟨_, _, _, _, hw, -⟩ := w.managed_manage d.config.useSsd (d.state.fullscreenTarget w)
    (d.state.tagOwner w.tag).isNone d.state.outputs.isEmpty
  rw [State.manageWindow, hw]
  rfl

/-- A manage sequence : pointer operations, refocusing, the fullscreen block, and what
only sends requests. -/
theorem onManageStart_spec (hs : d.state.WellFormed) : ∃ d₁ d', d.onManageStart = some d' ∧
    d₁.state = d.state.refocused ∧ Inert d.processPointerOps d₁ ∧ Inert d₁.applyFullscreen d' ∧
      d'.state = { d₁.applyFullscreen.state with
        windows := d₁.applyFullscreen.state.windows.map fun w => w.setTiled.1 } := by
  obtain ⟨d₀, hbegin, hstate, hidle⟩ := beginManage_spec d
  obtain ⟨d₁, hd₁, hidle₁, hidle₂, hstate₂⟩ := manageWindows_spec d₀
  have hwf : d₀.manageWindows.state.WellFormed := by
    rw [hstate₂]
    exact quiet_applyFullscreen.wellFormed
      ((hidle.trans hidle₁).wellFormed ((pointerPass d).state.symm ▸ hs))
  obtain ⟨d', hfinish, hidle', hstate'⟩ := finishManage_spec hwf
  refine ⟨d₁, d', ?_, hd₁.trans hstate, hidle.trans hidle₁, hidle₂.trans hidle', hstate₂ ▸ hstate'⟩
  simp only [onManageStart, hbegin, Option.bind_eq_bind, Option.bind_some, hfinish]

/-- A manage sequence takes no node. -/
theorem untouched_onManageStart (hs : d.state.WellFormed) :
    ∃ d', d.onManageStart = some d' ∧ Untouched d d' := by
  obtain ⟨d₁, d', h, -, hinert, hinert', -⟩ := onManageStart_spec hs
  exact ⟨d', h, ((pointerPass d).untouched.trans hinert.toUntouched).trans
    (untouched_applyFullscreen.trans hinert'.toUntouched)⟩

/-! ## Render sequences -/

/-- The nodes of hidden windows are given back. -/
theorem idle_releaseHiddenNodes : Idle d d.releaseHiddenNodes := by
  refine idle_updateWindows (fun w => ?_) fun w r hr => ?_
  · unfold Window.releaseNode
    split_ifs
    · exact Window.Kept.refl w
    · exact ⟨rfl, rfl, rfl, fun h => h, rfl⟩
  · unfold Window.releaseNode at hr
    split_ifs at hr
    · simp at hr
    · exact forall_mem_option _ (fun _ => rfl) w.node r hr

/-- Nodes are asked for. -/
theorem idle_createNodes : Idle d d.createNodes := by
  have htake : ∀ (w : Window) (node : ObjectId) (visible : Bool),
      Window.Kept w (w.takeNode node visible).1 ∧
        ∀ r ∈ (w.takeNode node visible).2, r.Modal = false := by
    intro w node visible
    unfold Window.takeNode
    split_ifs
    · exact ⟨⟨rfl, rfl, rfl, fun h => h, rfl⟩,
        List.forall_mem_singleton.mpr rfl⟩
    · exact ⟨Window.Kept.refl w, by simp⟩
  refine ⟨⟨reachable_of_windows ?_, ⟨_, rfl, fun r hr => ?_⟩, rfl⟩, rfl, rfl, rfl, rfl⟩
  · rw [List.map_map, List.forall₂_map_right_iff]
    nth_rewrite 1 [← List.zipIdx_map_fst 0 d.state.windows]
    rw [List.forall₂_map_left_iff]
    exact List.forall₂_same.mpr fun p _ => (htake p.1 _ _).1
  · obtain ⟨q, hq, hr⟩ := List.mem_flatMap.mp hr
    obtain ⟨p, -, rfl⟩ := List.mem_map.mp hq
    exact (htake p.1 _ _).2 r hr

theorem idle_renderWindow (config : Config) (focused : Option ℕ) (p : ℕ × Placement) :
    Idle d (d.renderWindow config focused p) := by
  unfold renderWindow
  split
  · exact Idle.refl d
  next w _ =>
  split_ifs
  · exact (Idle.refl d).send rfl
  have hnode : ∀ x y, ∀ r ∈ (w.node.map fun node =>
      [Request.setPosition node x y, .placeTop node]).getD [], r.Modal = false := by
    intro x y
    cases w.node <;> simp [Request.Modal, Request.OfFullscreen, Request.OfPointerOp]
  have hborder : ∀ (d₁ d₂ : AppData) (b : Bool × ℕ × ℕ × ℕ × ℕ), Idle d₁ d₂ →
      Idle d₁ (d₂.modifyState fun s => s.modifyWindow p.1 fun w =>
        { w with borderApplied := some b }) := by
    intro d₁ d₂ b h
    have hkeep : Inert d₂ (d₂.modifyState fun s => s.modifyWindow p.1 fun w =>
        { w with borderApplied := some b }) :=
      inert_modifyWindow p.1 fun _ => ⟨⟨rfl, rfl, rfl, fun h => h, rfl⟩, rfl⟩
    exact h.trans hkeep.toIdle
  dsimp only
  split
  all_goals
    refine Idle.send ?_ rfl
    split_ifs
    · exact hborder _ _ _ (((Idle.refl d).sendAll (hnode _ _)).send rfl)
    · exact (Idle.refl d).sendAll (hnode _ _)

variable (d) in
/-- The context in which a render sequence computes the placements. -/
def beginRender : AppData :=
  d.releaseHiddenNodes.createNodes.releaseHiddenNodes

variable (d) in
/-- Apply the placements, one after the other. -/
def renderWindows (focused : Option ℕ) (ps : List (ℕ × Placement)) : AppData :=
  ps.foldl (fun data p => data.renderWindow data.config focused p) d

theorem idle_beginRender : Idle d d.beginRender :=
  (idle_releaseHiddenNodes.trans idle_createNodes).trans idle_releaseHiddenNodes

theorem idle_renderWindows (focused : Option ℕ) (ps : List (ℕ × Placement)) :
    Idle d (d.renderWindows focused ps) :=
  foldl_of_trans Idle.refl (fun _ _ _ h h' => h.trans h')
    (fun d₂ p => idle_renderWindow d₂.config focused p) ps d

/-- A render sequence, taken apart : nodes, placements, requests. -/
theorem onRenderStart_spec (hs : d.state.WellFormed) (hasClients : Bool) : ∃ d' ps focused,
    d.onRenderStart hasClients = some d' ∧
    d.beginRender.state.placements d.beginRender.config = some ps ∧
    d'.state = (d.beginRender.renderWindows focused ps).state ∧
    d'.sent = (d.beginRender.renderWindows focused ps).sent ++ [.renderFinish] ∧
    Inert (d.beginRender.renderWindows focused ps) d' := by
  have hnodes := (idle_releaseHiddenNodes (d := d)).trans idle_createNodes
  obtain ⟨focused, hfocused⟩ := activeFocusedWindow_eq (hnodes.wellFormed hs)
  obtain ⟨ps, hps⟩ := exists_placements d.beginRender.state d.beginRender.config
  have hrender := idle_beginRender.trans
    (idle_renderWindows (d := d.beginRender) focused ps)
  obtain ⟨d', hd', hinert, hstate, hsent⟩ := inert_refreshSnapshot
    (d := (d.beginRender.renderWindows focused ps).send .renderFinish)
    (hrender.wellFormed hs) hasClients
  refine ⟨d', ps, focused, ?_, hps, hstate, hsent, ((Inert.refl _).send rfl).trans hinert⟩
  have hplace : d.releaseHiddenNodes.createNodes.releaseHiddenNodes.state.placements
      d.releaseHiddenNodes.createNodes.releaseHiddenNodes.config = some ps := hps
  simp only [onRenderStart, hfocused, renderAllRun, hplace, Option.bind_eq_bind, Option.bind_some]
  exact hd'

/-- A render sequence. -/
theorem idle_onRenderStart (hs : d.state.WellFormed) (hasClients : Bool) :
    ∃ d', d.onRenderStart hasClients = some d' ∧ Idle d d' := by
  obtain ⟨d', ps, focused, hd', -, -, -, hinert⟩ := onRenderStart_spec hs hasClients
  exact ⟨d', hd', (idle_beginRender.trans (idle_renderWindows focused ps)).trans hinert.toIdle⟩

end AppData

/-! ## All events -/

/-- The events that add or remove windows or outputs or apply fullscreen states. -/
def Event.OfObjects : Event → Bool
  | .newWindow _ | .newOutput _ | .manageStart | .window _ .closed | .output _ .removed => true
  | _ => false

namespace AppData

/-- The window, if it is known, is not gone and asks for no pointer operation. -/
theorem windowEvent_spec (window : ObjectId) (event : WindowEvent) :
    ∃ d', d.windowEvent window event = some d' ∧ (Steady d d' ∨ event = .closed ∧ Apart d d' ∧
      d'.state = d.state.closeWindow window) := by
  cases hid : d.state.findWindowByProxy window with
  | none =>
    obtain ⟨d', h, hinert⟩ := inert_windowEvent (d := d) window event (by simp [hid])
    exact ⟨d', h, Or.inl hinert.toSteady⟩
  | some id =>
    cases event with
    | closed =>
      cases hw : d.state.findWindow id with
      | some w =>
        obtain ⟨hapart, hstate⟩ := apart_windowClosed (d := d) window w
        exact ⟨_, by simp [windowEvent, hid, hw], Or.inr ⟨rfl, hapart, hstate⟩⟩
      | none =>
        exact ⟨d.modifyState fun s => s.closeWindow window, by simp [windowEvent, hid, hw],
          Or.inr ⟨rfl, apart_state rfl, rfl⟩⟩
    | pointerMoveRequested seat =>
      obtain ⟨d', h, hd⟩ := steady_startInteractiveOp (d := d) id seat .move .empty
      exact ⟨d', by simp [windowEvent, hid, h], Or.inl hd⟩
    | pointerResizeRequested seat edges =>
      obtain ⟨d', h, hd⟩ := steady_startInteractiveOp (d := d) id seat .resize (edges.getD .empty)
      exact ⟨d', by simp [windowEvent, hid, h], Or.inl hd⟩
    | _ =>
      refine Exists.imp (fun d' h => ⟨h.1, Or.inl h.2.toSteady⟩) (inert_windowEvent window _ ?_)
      simp

/-- What an output reports is idle, or its end. -/
theorem outputEvent_spec (hs : d.state.WellFormed) (output : ObjectId) (event : OutputEvent) :
    ∃ d', d.outputEvent output event = some d' ∧ Untouched d d' ∧
      (Idle d d' ∨ event = .removed ∧ Apart d d' ∧ ∃ idx,
        d.state.findOutputByProxy output = some idx ∧
          d.state.removeOutput idx = some d'.state) := by
  by_cases hevent : event = .removed
  · subst hevent
    cases hidx : d.state.findOutputByProxy output with
    | none =>
      exact ⟨d, by simp [outputEvent, hidx], Untouched.refl d, Or.inl (Idle.refl d)⟩
    | some idx =>
      have hlt := (List.findIdx?_eq_some_iff_getElem.mp hidx).1
      obtain ⟨d', h, hapart, hremove, hnodes⟩ := apart_outputRemoved hs idx d.state.outputs[idx]
      exact ⟨d', by simp [outputEvent, hidx, hlt, h], hnodes,
        Or.inr ⟨rfl, hapart, idx, rfl, hremove⟩⟩
  · obtain ⟨d', h, hinert⟩ := inert_outputEvent hs output event hevent
    exact ⟨d', h, hinert.toUntouched, Or.inl hinert.toIdle⟩

/-- What a seat reports opens and closes no window. -/
theorem seatEvent_spec (seat : ObjectId) (event : SeatEvent) :
    ∃ d', d.seatEvent seat event = some d' ∧ Steady d d' := by
  by_cases h₁ : event = .removed
  · subst h₁
    exact ⟨_, rfl, steady_seatRemoved seat⟩
  by_cases h₂ : event = .opRelease
  · subst h₂
    exact ⟨_, rfl, steady_endPointerOp⟩
  obtain ⟨d', h, hinert⟩ := inert_seatEvent (d := d) seat event h₁ h₂
  exact ⟨d', h, hinert.toSteady⟩

/-- All other events but a render sequence change no node either. -/
theorem steady_handle (hs : d.state.WellFormed) {event : Event} (h : event.OfObjects = false)
    (hrender : ∀ hasClients, event ≠ .renderStart hasClients) :
    ∃ d', d.handle event = some d' ∧ Steady d d' := by
  have inert : ∀ {x : Option AppData}, (∃ d', x = some d' ∧ Inert d d') →
      ∃ d', x = some d' ∧ Steady d d' := fun ⟨d', h, hinert⟩ => ⟨d', h, hinert.toSteady⟩
  cases event with
  | newWindow _ | newOutput _ | manageStart => simp [Event.OfObjects] at h
  | renderStart hasClients => exact absurd rfl (hrender hasClients)
  | unavailable | finished =>
    exact inert ⟨_, rfl, inert_of_eq rfl rfl rfl rfl rfl rfl (le_refl _)⟩
  | newSeat seat => exact ⟨_, rfl, (steady_newSeat seat).1⟩
  | window window event =>
    obtain ⟨d', hd', hd | ⟨rfl, -, -⟩⟩ := windowEvent_spec (d := d) window event
    · exact ⟨d', hd', hd⟩
    · simp [Event.OfObjects] at h
  | output output event =>
    obtain ⟨d', hd', hnodes, hd | ⟨rfl, -, -⟩⟩ := outputEvent_spec hs output event
    · exact ⟨d', hd', hd.toHandled, hnodes⟩
    · simp [Event.OfObjects] at h
  | nonExclusiveArea layer x y width height =>
    exact inert (inert_nonExclusiveArea hs layer x y width height)
  | seat seat event => exact seatEvent_spec seat event
  | wlOutputName global name => exact inert ⟨_, rfl, inert_wlOutputName global name⟩
  | bindingPressed binding => exact inert (inert_dispatchAction hs binding)
  | pointerBindingPressed binding => exact ⟨_, rfl, steady_startPointerOp binding⟩
  | pointerBindingReleased binding => exact ⟨_, rfl, steady_endPointerOp⟩
  | command cmd => exact inert (inert_applyCommand hs cmd)
  | statusRequest => exact inert (inert_serviceStatusRequest hs)
  | flushPending => exact inert ⟨_, rfl, inert_flushPending⟩

/-- They make local changes only, render sequences included. -/
theorem handled_handle (hs : d.state.WellFormed) {event : Event} (h : event.OfObjects = false) :
    ∃ d', d.handle event = some d' ∧ Handled d d' := by
  by_cases hrender : ∃ hasClients, event = .renderStart hasClients
  · obtain ⟨hasClients, rfl⟩ := hrender
    obtain ⟨d', hd', hidle⟩ := idle_onRenderStart hs hasClients
    exact ⟨d', hd', hidle.toHandled⟩
  · obtain ⟨d', hd', hsteady⟩ := steady_handle hs h fun c hc => hrender ⟨c, hc⟩
    exact ⟨d', hd', hsteady.toHandled⟩

/-- No event makes the loop panic, and what it does to the state, operations do. -/
theorem handle_spec (hs : d.state.WellFormed) (event : Event) :
    ∃ d', d.handle event = some d' ∧ Reachable Op.Step d.state d'.state := by
  have one : ∀ (op : Op) {s : State}, Op.Step d.state op s → Reachable Op.Step d.state s :=
    fun _ _ h => Reachable.refl.tail h
  cases hevent : event.OfObjects with
  | false =>
    obtain ⟨d', h, hd⟩ := handled_handle hs hevent
    exact ⟨d', h, hd.reachable⟩
  | true =>
    unfold Event.OfObjects at hevent
    split at hevent
    · next window => exact ⟨_, rfl, one (.createWindow window) rfl⟩
    · next output =>
      obtain ⟨d', s, h, hadd, -, hlayer, -⟩ := apart_newOutput hs output
      exact ⟨d', h, (one (.addOutput output) hadd).trans (hlayer.mono fun _ _ _ hstep => hstep.2)⟩
    · obtain ⟨d₁, d', h, -, hinert, hinert', -⟩ := onManageStart_spec hs
      have hbegin := hinert.toHandled.reachable
      rw [(pointerPass d).state] at hbegin
      have happly :
          Op.Step d₁.state .applyFullscreen d₁.applyFullscreen.state := quiet_applyFullscreen
      exact ⟨d', h, (hbegin.tail happly).trans hinert'.toHandled.reachable⟩
    · next window =>
      obtain ⟨d', h, hd | ⟨-, -, hstate⟩⟩ := windowEvent_spec (d := d) window .closed
      · exact ⟨d', h, hd.reachable⟩
      · exact ⟨d', h, one (.closeWindow window) hstate.symm⟩
    · next output =>
      obtain ⟨d', h, -, hd | ⟨-, -, idx, -, hremove⟩⟩ := outputEvent_spec hs output .removed
      · exact ⟨d', h, hd.toHandled.reachable⟩
      · exact ⟨d', h, one (.removeOutput idx) hremove⟩
    · simp at hevent

/-- Every event keeps all indices in range, by operations. -/
theorem Step.wellFormed {event : Event} (hs : d.state.WellFormed) (h : Step d event d') :
    d'.state.WellFormed ∧ Reachable Op.Step d.state d'.state := by
  obtain ⟨d₁, hd₁, hreach⟩ := handle_spec hs event
  obtain rfl := Option.some.inj (hd₁.symm.trans h)
  exact ⟨hreach.invariant (fun _ _ _ hs hstep => hstep.wellFormed hs) hs, hreach⟩

/-- The states the event loop reaches are among those the state machine reaches. -/
theorem reachable_state {config : Config} {xkb layerShell cursorShapeManager : Bool}
    (h : Reachable Step (AppData.new config xkb layerShell cursorShapeManager) d) :
    d.state.WellFormed ∧ Reachable Op.Step
      (State.new (max (1 / 10) (min config.masterFraction (9 / 10)))) d.state :=
  h.simulate (fun d => d.state) (J := fun d => d.state.WellFormed)
    (fun _ _ _ hs hstep => (Step.wellFormed hs hstep).1)
    (fun _ _ _ hs hstep => (Step.wellFormed hs hstep).2) (wellFormed_new _)

/-- After every run of the event loop all indices are in range, so that whatever comes
next, no handler and none of `computeAll`, `placements` and `buildSnapshot` panics. -/
theorem handle_never_panics {config : Config} {xkb layerShell cursorShapeManager : Bool}
    (h : Reachable Step (AppData.new config xkb layerShell cursorShapeManager) d) :
    d.state.WellFormed ∧ (∀ event, ∃ d', d.handle event = some d') ∧
      (∃ gs, d.state.computeAll d.config = some gs) ∧
      (∃ ps, d.state.placements d.config = some ps) ∧
      ∃ snap, d.state.buildSnapshot = some snap := by
  have hs := (reachable_state h).1
  refine ⟨hs, fun event => ?_, exists_computeAll _ _, exists_placements _ _, ?_⟩
  · exact (handle_spec hs event).imp fun _ h => h.1
  · exact (buildSnapshot_spec hs.inRange).imp fun _ h => h.1

/-- The only output is removed while it shows a window. -/
theorem handle_never_panics_unplug : ∃ d₁ d₂ d₃ d₄ : AppData,
    (AppData.new .default true true true).handle (.newOutput 1) = some d₁ ∧
      d₁.handle (.newWindow 2) = some d₂ ∧ d₂.handle (.output 1 .removed) = some d₃ ∧
        d₃.handle .manageStart = some d₄ ∧ d₄.state.WellFormed := by
  have h₀ :
      Reachable Step (AppData.new .default true true true) (AppData.new .default true true true) :=
    .refl
  obtain ⟨d₁, h₁⟩ := (handle_never_panics h₀).2.1 (.newOutput 1)
  obtain ⟨d₂, h₂⟩ := (handle_never_panics (h₀.tail h₁)).2.1 (.newWindow 2)
  obtain ⟨d₃, h₃⟩ := (handle_never_panics ((h₀.tail h₁).tail h₂)).2.1 (.output 1 .removed)
  obtain ⟨d₄, h₄⟩ := (handle_never_panics (((h₀.tail h₁).tail h₂).tail h₃)).2.1 .manageStart
  exact ⟨d₁, d₂, d₃, d₄, h₁, h₂, h₃, h₄,
    (handle_never_panics ((((h₀.tail h₁).tail h₂).tail h₃).tail h₄)).1⟩

end AppData

end Streamwm
