import Streamwm.FloatingBoxes
import Streamwm.Handlers
import Streamwm.PointerWarp
import Streamwm.WindowFrame

/-!
# Which events float a window

A window starts tiled and is floated by four kinds of events : the float action, a drag the
client asks for, an app id with a rule, and a parent that floats (`floatedBy`). Outside manage
sequences, a window that floats after an event floated before, or is the one that event floats
(`floatsOnly_handle`).
-/

namespace Streamwm

open Partial Transition

/-- An operation of tags, outputs or focus, or on which windows there are. -/
def Op.KeepsFloats : Op → Prop
  | .quiet | .applyFullscreen | .outputGeometry _ _ => False
  | _ => True

namespace State

variable {s s' s'' r : State} {o : Option ℕ} {op : Op} {id t : ℕ}

/-- Every window of `s'` that floats is a window of `s` that floats, or the one named `o`. -/
def FloatsOnly (o : Option ℕ) (s s' : State) : Prop :=
  ∀ w' ∈ s'.windows, w'.floating = true →
    ∃ w ∈ s.windows, w.proxy = w'.proxy ∧ w.id = w'.id ∧ (w.floating = true ∨ o = some w.id)

/-- The windows stay as they are. -/
theorem floatsOnly_of_windows (h : s'.windows = s.windows) : FloatsOnly o s s' :=
  fun w' hw' hfl => ⟨w', h ▸ hw', rfl, rfl, Or.inl hfl⟩

theorem FloatsOnly.refl (s : State) : FloatsOnly o s s :=
  floatsOnly_of_windows rfl

/-- A window that one step floats, and the next keeps so. -/
theorem FloatsOnly.trans (h : FloatsOnly o s s') (h' : FloatsOnly none s' s'') :
    FloatsOnly o s s'' := by
  intro w'' hw'' hfl''
  obtain ⟨w', hw', hproxy', hid', hfl'⟩ := h' w'' hw'' hfl''
  obtain ⟨w, hw, hproxy, hid, hfl⟩ := h w' hw' (hfl'.resolve_right (by simp))
  exact ⟨w, hw, hproxy.trans hproxy', hid.trans hid', hfl⟩

/-- Updating every window without floating any. -/
theorem floatsOnly_map {f : Window → Window} (h : s'.windows = s.windows.map f)
    (hf : ∀ w, (f w).proxy = w.proxy ∧ (f w).id = w.id ∧
      ((f w).floating = true → w.floating = true)) : FloatsOnly o s s' := by
  intro w' hw' hfl
  rw [h] at hw'
  obtain ⟨w, hw, rfl⟩ := List.mem_map.mp hw'
  obtain ⟨hproxy, hid, hfloat⟩ := hf w
  exact ⟨w, hw, hproxy.symm, hid.symm, Or.inl (hfloat hfl)⟩

/-- Windows are closed. -/
theorem floatsOnly_filter {p : Window → Bool} (h : s'.windows = s.windows.filter p) :
    FloatsOnly o s s' := fun w' hw' hfl =>
  ⟨w', List.mem_of_mem_filter (h ▸ hw'), rfl, rfl, Or.inl hfl⟩

/-- Updating a window, floating it or not. -/
theorem floatsOnly_modifyWindow {f : Window → Window} (hf : ∀ w, (f w).proxy = w.proxy ∧
      (f w).id = w.id ∧ ((f w).floating = true → w.floating = true ∨ o = some id)) :
    FloatsOnly o s (s.modifyWindow id f) := by
  have hkeep : List.Forall₂ (fun w w' : Window => w'.proxy = w.proxy ∧ w'.id = w.id ∧
      (w'.floating = true → w.floating = true ∨ o = some w.id)) s.windows
      (modifyFirst (fun w => w.id == id) f s.windows) := by
    refine forall₂_modifyFirst (fun w => ⟨rfl, rfl, Or.inl⟩) (fun w hw => ?_) s.windows
    obtain ⟨hproxy, hid, hfloat⟩ := hf w
    exact ⟨hproxy, hid, by rwa [beq_iff_eq.mp hw]⟩
  intro w' hw' hfl
  obtain ⟨w, hw, hproxy, hid, hfloat⟩ := exists_of_forall₂ hkeep hw'
  exact ⟨w, hw, hproxy.symm, hid.symm, hfloat hfl⟩

theorem floatsOnly_clearFullscreenOnTag (t : ℕ) : FloatsOnly o s (s.clearFullscreenOnTag t) := by
  refine floatsOnly_map rfl fun w => ?_
  split_ifs <;> exact ⟨rfl, rfl, fun h => h⟩

/-- Floating windows are moved, and no others. -/
theorem floatsOnly_clampFloatingWindows (s : State) : FloatsOnly o s s.clampFloatingWindows := by
  unfold clampFloatingWindows
  split_ifs
  · exact FloatsOnly.refl s
  · refine floatsOnly_map rfl fun w => ?_
    obtain ⟨x, y, hw⟩ := s.clampFloatingWindow_moves w
    rw [hw]
    exact ⟨rfl, rfl, fun h => h⟩

theorem floatsOnly_repairOutputs (h : s.repairOutputs = some s') : FloatsOnly o s s' := by
  obtain ⟨r, hr, h⟩ := Option.bind_eq_some_iff.mp h
  obtain rfl := Option.some.inj h
  have hwindows := congrArg Prod.fst (windowsAndAreas_normalizeOutputs hr)
  exact (floatsOnly_of_windows hwindows).trans (floatsOnly_clampFloatingWindows r)

/-- Tags, focus and outputs float no window. -/
theorem floatsOnly_of_step (hs : s.WellFormed) (h : Op.Step s op s') (hop : op.KeepsFloats) :
    FloatsOnly o s s' := by
  have hnormalize : ∀ {k : ℕ} {r r' : State}, Normalizing k r r' → r.windows = s.windows →
      FloatsOnly o s r'.clampFloatingWindows := fun hr hwindows =>
    (floatsOnly_of_windows (hr.windows.trans hwindows)).trans (floatsOnly_clampFloatingWindows _)
  cases change_of_step hs h with
  | same _ h => exact floatsOnly_of_windows h.windows
  | @shows _ _ _ old _ _ h =>
    rcases h.windows with hw | ⟨-, hw⟩
    · intro w' hw'
      exact floatsOnly_clearFullscreenOnTag old w' (hw ▸ hw')
    · exact floatsOnly_of_windows hw
  | sendNone _ => exact FloatsOnly.refl _
  | @send _ t w _ h =>
    have hmove : FloatsOnly o s (s.modifyWindow w.id fun w => { w with tag := t }) :=
      floatsOnly_modifyWindow fun _ => ⟨rfl, rfl, Or.inl⟩
    exact hmove.trans (floatsOnly_of_windows h.windows)
  | create proxy =>
    intro w' hw' hfl
    rcases List.mem_append.mp hw' with hw' | hw'
    · exact ⟨w', hw', rfl, rfl, Or.inl hfl⟩
    · rw [List.mem_singleton.mp hw'] at hfl
      cases hfl
  | close proxy => exact floatsOnly_filter rfl
  | fullscreen wid => exact floatsOnly_modifyWindow fun w => ⟨rfl, rfl, Or.inl⟩
  | applyFullscreen _ | quiet _ _ | geometryNone _ _ _ _ | geometry _ _ => exact hop.elim
  | @add proxy _ h =>
    have hsame := (validFocus_spec (s.withNewOutput proxy) (by simp [← List.length_pos_iff])).1
    exact floatsOnly_of_windows (by rw [h.windows, hsame.windows, windows_withNewOutput])
  | removeNone _ => exact FloatsOnly.refl _
  | removeLast _ _ => exact floatsOnly_of_windows rfl
  | remove _ _ hr => exact hnormalize hr rfl

end State

namespace AppData

open State

variable {d d' d'' : AppData} {o : Option ℕ} {id : ℕ} {op : Op}

/-- The window an action floats. -/
def actionFloats (d : AppData) (action : String) : Option ℕ :=
  if (splitAction action).1 = .float then d.state.activeFocusedWindow.join else none

/-- The window an event floats, unless it floats already. -/
def floatedBy (d : AppData) : Event → Option ℕ
  | .window window (.appId appId) =>
    if appId.any d.config.isFloatingApp then d.state.findWindowByProxy window else none
  | .window window (.parent parent) =>
    if (parent.bind fun p => d.state.windows.find? fun w => w.proxy == p).any (·.floating) then
      d.state.findWindowByProxy window
    else none
  | .window window (.pointerMoveRequested _) => d.state.findWindowByProxy window
  | .window window (.pointerResizeRequested _ _) => d.state.findWindowByProxy window
  | .bindingPressed binding =>
    ((d.bindings.find? fun b => b.1 == binding).map (·.2.1)).bind d.actionFloats
  | _ => none

/-! ## Windows -/

/-- Storing an app id floats a window only by a rule. -/
theorem floatsOnly_windowAppId (appId : Option String) :
    FloatsOnly (if appId.any d.config.isFloatingApp then some id else none) d.state
      (d.windowAppId id appId).state := by
  refine floatsOnly_modifyWindow fun w => ?_
  unfold Window.setAppId
  cases hrule : appId.any d.config.isFloatingApp with
  | false => exact ⟨rfl, rfl, Or.inl⟩
  | true =>
    refine ⟨?_, ?_, fun _ => Or.inr rfl⟩
    all_goals
      dsimp only
      split_ifs
      · split <;> rfl
      all_goals rfl

/-- Storing a parent floats a window only if that floats. -/
theorem floatsOnly_windowParent (parent : Option ObjectId) :
    FloatsOnly (if (parent.bind fun p => d.state.windows.find? fun w => w.proxy == p).any
      (·.floating) then some id else none) d.state (d.windowParent id parent).state := by
  unfold windowParent
  generalize (parent.bind fun p => d.state.windows.find? fun w => w.proxy == p) = found
  cases found with
  | none => exact floatsOnly_of_windows rfl
  | some p =>
    refine floatsOnly_modifyWindow fun w => ?_
    rw [Option.any_some]
    unfold Window.setParent
    cases hp : p.floating with
    | false => exact ⟨rfl, rfl, Or.inl⟩
    | true =>
      cases hw : w.floating with
      | false => exact ⟨rfl, rfl, fun _ => Or.inr rfl⟩
      | true => exact ⟨rfl, rfl, fun _ => Or.inl rfl⟩

/-- A drag that the client asks for floats its window. -/
theorem floatsOnly_startInteractiveOp {seat : ObjectId} {kind : OpKind} {edges : Edges}
    (h : d.startInteractiveOp id seat kind edges = some d') :
    FloatsOnly (some id) d.state d'.state := by
  obtain ⟨d₁, h₁, h⟩ := Option.bind_eq_some_iff.mp h
  have hfloat : FloatsOnly (some id) d.state d₁.state := by
    obtain ⟨gs, -, h₁⟩ := Option.bind_eq_some_iff.mp h₁
    obtain rfl := Option.some.inj h₁
    refine floatsOnly_modifyWindow fun w => ?_
    split_ifs
    · exact ⟨rfl, rfl, Or.inl⟩
    · split <;> exact ⟨rfl, rfl, fun _ => Or.inr rfl⟩
  dsimp only at h
  split at h
  · exact Option.some.inj h ▸ hfloat
  · obtain rfl := Option.some.inj h
    exact hfloat

/-- A rule for the app id, a floating parent or a drag floats the window that reports it. -/
theorem floatsOnly_windowEvent {window : ObjectId} {event : WindowEvent}
    (h : d.windowEvent window event = some d') :
    FloatsOnly (d.floatedBy (.window window event)) d.state d'.state := by
  unfold windowEvent at h
  cases hid : d.state.findWindowByProxy window with
  | none =>
    rw [hid] at h
    exact Option.some.inj h ▸ FloatsOnly.refl _
  | some id =>
    rw [hid] at h
    cases event with
    | closed =>
      dsimp only at h
      split at h <;> exact Option.some.inj h ▸ floatsOnly_filter rfl
    | appId appId =>
      rw [floatedBy, hid]
      exact Option.some.inj h ▸ floatsOnly_windowAppId appId
    | parent parent =>
      rw [floatedBy, hid]
      exact Option.some.inj h ▸ floatsOnly_windowParent parent
    | pointerMoveRequested seat | pointerResizeRequested seat edges =>
      rw [floatedBy, hid]
      exact floatsOnly_startInteractiveOp h
    | maximizeRequested | unmaximizeRequested => exact Option.some.inj h ▸ FloatsOnly.refl _
    | title _ | dimensions _ _ | dimensionsHint _ _ _ _ | fullscreenRequested
      | exitFullscreenRequested | minimizeRequested =>
      obtain rfl := Option.some.inj h
      exact floatsOnly_modifyWindow fun w => ⟨rfl, rfl, Or.inl⟩

/-! ## Outputs and seats -/

/-- A change that is an operation. -/
theorem floatsOnly_op (hs : d.state.WellFormed) {s : State} (h : Op.Step d.state op s)
    (hop : op.KeepsFloats) (hwindows : d'.state.windows = s.windows) :
    FloatsOnly o d.state d'.state :=
  (floatsOnly_of_step hs h hop).trans (floatsOnly_of_windows hwindows)

/-- New geometry of an output. -/
theorem floatsOnly_outputGeometry {idx : ℕ} {g : GeometryEvent}
    (h : d.outputGeometry idx g = some d') : FloatsOnly o d.state d'.state := by
  obtain ⟨d₁, h₁, h⟩ := Option.bind_eq_some_iff.mp h
  obtain ⟨s, hs, h₁⟩ := Option.bind_eq_some_iff.mp h₁
  obtain rfl := Option.some.inj h₁
  obtain rfl := Option.some.inj h
  have hset : FloatsOnly o d.state (d.state.setGeometry idx g) := floatsOnly_of_windows rfl
  exact hset.trans (floatsOnly_repairOutputs hs)

/-- What an output reports. -/
theorem floatsOnly_outputEvent (hs : d.state.WellFormed) {output : ObjectId} {event : OutputEvent}
    (h : d.outputEvent output event = some d') : FloatsOnly o d.state d'.state := by
  cases event with
  | wlOutput name =>
    obtain rfl := Option.some.inj h
    exact floatsOnly_of_windows rfl
  | position x y | dimensions width height =>
    unfold outputEvent at h
    dsimp only at h
    split at h
    · exact floatsOnly_outputGeometry h
    · exact Option.some.inj h ▸ FloatsOnly.refl _
  | removed =>
    unfold outputEvent at h
    dsimp only at h
    split at h
    · obtain ⟨out, -, h⟩ := Option.bind_eq_some_iff.mp h
      obtain ⟨d₁, h₁, h⟩ := Option.bind_eq_some_iff.mp h
      obtain ⟨s, hremove, h₁⟩ := Option.bind_eq_some_iff.mp h₁
      obtain rfl := Option.some.inj h₁
      obtain rfl := Option.some.inj h
      have hop : Op.Step d.state (.removeOutput _) s := hremove
      exact floatsOnly_op hs hop trivial rfl
    · exact Option.some.inj h ▸ FloatsOnly.refl _

theorem floatsOnly_newOutput (hs : d.state.WellFormed) {output : ObjectId}
    (h : d.newOutput output = some d') : FloatsOnly o d.state d'.state := by
  obtain ⟨d₁, h₁, h⟩ := Option.bind_eq_some_iff.mp h
  obtain ⟨s, hadd, h₁⟩ := Option.bind_eq_some_iff.mp h₁
  obtain rfl := Option.some.inj h₁
  have hop : Op.Step d.state (.addOutput output) s := hadd
  refine floatsOnly_op hs hop trivial ?_
  split_ifs at h
  · split at h
    · split_ifs at h <;> exact Option.some.inj h ▸ rfl
    · exact Option.some.inj h ▸ rfl
  · exact Option.some.inj h ▸ rfl

/-- To focus a window does not float it. -/
theorem floatsOnly_focusWindow (hs : d.state.WellFormed) {wid : ℕ} {s : State} {changed : Bool}
    (h : d.state.focusWindowOnOutput wid = some (s, changed)) (hwindows : d'.state.windows = s.windows) :
    FloatsOnly o d.state d'.state := by
  have hop : Op.Step d.state (.focusWindow wid) s := ⟨changed, h⟩
  exact floatsOnly_op hs hop trivial hwindows

/-- A drag moves and resizes its window. -/
theorem floatsOnly_applyPointerDelta (dx dy : ℤ) :
    FloatsOnly o d.state (d.applyPointerDelta dx dy).state := by
  unfold applyPointerDelta
  split
  · exact FloatsOnly.refl _
  · next op _ =>
    refine floatsOnly_modifyWindow fun w => ?_
    unfold PointerOp.drag
    split <;> exact ⟨rfl, rfl, Or.inl⟩

theorem floatsOnly_endPointerOp : FloatsOnly o d.state d.endPointerOp.state := by
  unfold endPointerOp
  split_ifs <;> exact floatsOnly_of_windows rfl

theorem floatsOnly_pointerEnter (hs : d.state.WellFormed) {seat window : ObjectId}
    (h : d.pointerEnter seat window = some d') : FloatsOnly o d.state d'.state := by
  unfold pointerEnter at h
  split at h
  · exact Option.some.inj h ▸ FloatsOnly.refl _
  · next wid _ =>
    dsimp only at h
    generalize hd₁ : (d.modifyState fun s => s.modifySeat seat fun t =>
      { t with pointerWindow := some wid }) = d₁ at h
    have hpoint : Inert d d₁ := hd₁ ▸ inert_modifySeat seat fun _ => rfl
    have hfirst : FloatsOnly o d.state d₁.state := hd₁ ▸ floatsOnly_of_windows rfl
    split_ifs at h
    · obtain ⟨⟨s, changed⟩, hfocus, h⟩ := Option.bind_eq_some_iff.mp h
      obtain rfl := Option.some.inj h
      refine hfirst.trans (floatsOnly_focusWindow (hpoint.toHandled.wellFormed hs) hfocus ?_)
      cases changed <;> rfl
    · exact Option.some.inj h ▸ hfirst

/-- A touched window is restored and focused. -/
theorem floatsOnly_windowInteraction (hs : d.state.WellFormed) {window : ObjectId}
    (h : d.windowInteraction window = some d') : FloatsOnly o d.state d'.state := by
  unfold windowInteraction at h
  split at h
  · exact Option.some.inj h ▸ FloatsOnly.refl _
  · next wid _ =>
    obtain ⟨⟨s, changed⟩, hfocus, h⟩ := Option.bind_eq_some_iff.mp h
    obtain rfl := Option.some.inj h
    have hshow : Inert d (d.modifyState fun s => s.modifyWindow wid fun w =>
        { w with minimized := false }) :=
      inert_modifyWindow wid fun _ => ⟨⟨rfl, rfl, rfl, fun h => h, rfl⟩, rfl⟩
    have hfirst : FloatsOnly o d.state (d.modifyState fun s => s.modifyWindow wid fun w =>
        { w with minimized := false }).state :=
      floatsOnly_modifyWindow fun w => ⟨rfl, rfl, Or.inl⟩
    exact hfirst.trans (floatsOnly_focusWindow (hshow.toHandled.wellFormed hs) hfocus rfl)

/-- What a seat reports. -/
theorem floatsOnly_seatEvent (hs : d.state.WellFormed) {seat : ObjectId} {event : SeatEvent}
    (h : d.seatEvent seat event = some d') : FloatsOnly o d.state d'.state := by
  cases event with
  | removed =>
    obtain rfl := Option.some.inj h
    refine floatsOnly_of_windows ?_
    change ((d.dropBindings seat).forgetOps seat).state.windows = _
    unfold forgetOps
    dsimp only
    split_ifs <;> rfl
  | opDelta dx dy => exact Option.some.inj h ▸ floatsOnly_applyPointerDelta dx dy
  | opRelease => exact Option.some.inj h ▸ floatsOnly_endPointerOp
  | wlSeat name | pointerLeave =>
    obtain rfl := Option.some.inj h
    exact floatsOnly_of_windows rfl
  | pointerEnter window => exact floatsOnly_pointerEnter hs h
  | windowInteraction window => exact floatsOnly_windowInteraction hs h
  | pointerPosition x y =>
    obtain rfl := Option.some.inj h
    refine floatsOnly_of_windows ?_
    unfold pointerPosition
    dsimp only
    split_ifs
    · split
      · split_ifs <;> rfl
      · rfl
    · rfl

theorem windows_foldl {α : Type} {f : AppData → α → AppData}
    (hf : ∀ d a, (f d a).state.windows = d.state.windows) :
    ∀ (l : List α) (d : AppData), (l.foldl f d).state.windows = d.state.windows :=
  Partial.foldl_of_trans (R := fun d d' : AppData => d'.state.windows = d.state.windows)
    (fun _ => rfl) (fun _ _ _ h h' => h'.trans h) hf

/-- A new seat is about no window. -/
theorem windows_newSeat (d : AppData) (seat : ObjectId) :
    (d.newSeat seat).state.windows = d.state.windows := by
  have hkeys : ∀ d : AppData, (d.bindForSeat seat).state.windows = d.state.windows := fun d => by
    refine windows_foldl (fun d b => ?_) _ d
    unfold bindKey
    split <;> rfl
  have hpointer : ∀ d : AppData, (d.bindPointerForSeat seat).state.windows = d.state.windows :=
    fun _ => rfl
  unfold newSeat
  dsimp only
  generalize hd₁ : bindPointerForSeat _ seat = d₁
  have hbind : d₁.state.windows = d.state.windows := by
    rw [← hd₁, hpointer]
    split_ifs
    · rw [hkeys]
      rfl
    · rfl
  split_ifs
  · split
    · split_ifs <;> exact hbind
    · exact hbind
  · exact hbind

/-! ## Render sequences and the socket -/

/-- A loop over the windows that floats none. -/
theorem floatsOnly_updateWindows {f : Window → Window × List Request}
    (hf : ∀ w, (f w).1.proxy = w.proxy ∧ (f w).1.id = w.id ∧
      ((f w).1.floating = true → w.floating = true)) :
    FloatsOnly o d.state (d.updateWindows f).state :=
  floatsOnly_map rfl hf

theorem floatsOnly_releaseHiddenNodes : FloatsOnly o d.state d.releaseHiddenNodes.state := by
  refine floatsOnly_updateWindows fun w => ?_
  unfold Window.releaseNode
  split_ifs <;> exact ⟨rfl, rfl, fun h => h⟩

theorem floatsOnly_createNodes : FloatsOnly o d.state d.createNodes.state := by
  intro w' hw' hfl
  obtain ⟨q, hq, rfl⟩ := List.mem_map.mp hw'
  obtain ⟨p, hp, rfl⟩ := List.mem_map.mp hq
  refine ⟨p.1, List.fst_mem_of_mem_zipIdx hp, ?_⟩
  unfold Window.takeNode at hfl ⊢
  split_ifs at hfl ⊢ <;> exact ⟨rfl, rfl, Or.inl hfl⟩

/-- A window is rendered as it is. -/
theorem floatsOnly_renderWindow (config : Config) (focused : Option ℕ) (p : ℕ × Placement) :
    FloatsOnly o d.state (renderWindow config focused p d).state := by
  unfold renderWindow
  split
  · exact FloatsOnly.refl _
  · split_ifs
    · exact floatsOnly_of_windows rfl
    · dsimp only
      split_ifs
      all_goals first
        | exact floatsOnly_modifyWindow fun w => ⟨rfl, rfl, Or.inl⟩
        | exact floatsOnly_of_windows rfl

theorem floatsOnly_foldl {α : Type} {f : AppData → α → AppData}
    (hf : ∀ d a, FloatsOnly none d.state (f d a).state) :
    ∀ (l : List α) (d : AppData), FloatsOnly none d.state (l.foldl f d).state :=
  Partial.foldl_of_trans (R := fun d d' : AppData => FloatsOnly none d.state d'.state)
    (fun d => FloatsOnly.refl d.state) (fun _ _ _ h h' => h.trans h') hf

/-- A render sequence takes the layout as it finds it. -/
theorem floatsOnly_onRenderStart {hasClients : Bool} (h : d.onRenderStart hasClients = some d') :
    FloatsOnly o d.state d'.state := by
  obtain ⟨focused, -, h⟩ := Option.bind_eq_some_iff.mp h
  obtain ⟨d₁, h₁, h⟩ := Option.bind_eq_some_iff.mp h
  obtain ⟨ps, -, h₁⟩ := Option.bind_eq_some_iff.mp h₁
  obtain rfl := Option.some.inj h₁
  have hrender : ∀ (ps : List (ℕ × Placement)) (d : AppData), FloatsOnly none d.state
      (ps.foldl (fun data p => data.renderWindow data.config focused p) d).state :=
    floatsOnly_foldl fun d p => floatsOnly_renderWindow d.config focused p
  have hnodes : FloatsOnly o d.state d.releaseHiddenNodes.createNodes.releaseHiddenNodes.state :=
    (floatsOnly_releaseHiddenNodes.trans floatsOnly_createNodes).trans
      floatsOnly_releaseHiddenNodes
  refine (hnodes.trans (hrender ps _)).trans (floatsOnly_of_windows ?_)
  unfold refreshSnapshot at h
  split_ifs at h
  · exact Option.some.inj h ▸ rfl
  · obtain ⟨snap, -, h⟩ := Option.bind_eq_some_iff.mp h
    exact Option.some.inj h ▸ rfl

/-- No command of the socket floats a window. -/
theorem floatsOnly_commandState (hs : d.state.WellFormed) {cmd : Command} {s : State}
    (h : d.commandState cmd = some s) : FloatsOnly o d.state s := by
  cases cmd with
  | focusTag tag output =>
    rw [commandState_focusTag] at h
    cases hstart : d.state.commandStart tag output with
    | none =>
      rw [hstart] at h
      exact Option.some.inj h ▸ FloatsOnly.refl _
    | some i =>
      rw [hstart] at h
      have hop : Op.Step d.state (.focusTag i tag) s := h
      exact floatsOnly_of_step hs hop trivial
  | sendToTag tag =>
    unfold commandState at h
    dsimp only at h
    split at h
    · next i _ =>
      have hop : Op.Step d.state (.sendFocusedToTag i tag) s := h
      exact floatsOnly_of_step hs hop trivial
    · exact Option.some.inj h ▸ FloatsOnly.refl _
  | focusOutput name =>
    unfold commandState at h
    dsimp only at h
    split at h <;> exact Option.some.inj h ▸ floatsOnly_of_windows rfl
  | focusWindow appId title =>
    unfold commandState at h
    dsimp only at h
    split at h
    · next w _ =>
      have hop : Op.Step d.state (.commandFocusWindow w.id w.tag) s := h
      exact floatsOnly_of_step hs hop trivial
    · exact Option.some.inj h ▸ FloatsOnly.refl _
  | spawn _ | quit | refresh => exact Option.some.inj h ▸ FloatsOnly.refl _

/-! ## Actions -/

/-- To focus a tag takes fullscreen from windows and floats none. -/
theorem floatsOnly_actionFocusTag (hs : d.state.WellFormed) {arg : Option (List Char)}
    (h : d.actionFocusTag arg = some d') : FloatsOnly o d.state d'.state := by
  unfold actionFocusTag at h
  split at h
  · exact Option.some.inj h ▸ FloatsOnly.refl _
  · next tag _ =>
    dsimp only at h
    split at h
    · next i _ =>
      obtain ⟨s, hfocus, h⟩ := Option.bind_eq_some_iff.mp h
      obtain rfl := Option.some.inj h
      have hop : Op.Step d.state (.focusTag i tag) s := hfocus
      exact floatsOnly_op hs hop trivial rfl
    · exact Option.some.inj h ▸ FloatsOnly.refl _

/-- A window is sent tiled or floating, as it is. -/
theorem floatsOnly_actionSendToTag (hs : d.state.WellFormed) {arg : Option (List Char)}
    (h : d.actionSendToTag arg = some d') : FloatsOnly o d.state d'.state := by
  unfold actionSendToTag at h
  split at h
  · exact Option.some.inj h ▸ FloatsOnly.refl _
  · next tag _ =>
    split at h
    · next i _ =>
      obtain ⟨s, hsend, h⟩ := Option.bind_eq_some_iff.mp h
      obtain rfl := Option.some.inj h
      have hop : Op.Step d.state (.sendFocusedToTag i tag) s := hsend
      exact floatsOnly_op hs hop trivial rfl
    · exact Option.some.inj h ▸ FloatsOnly.refl _

theorem floatsOnly_actionFocusStep (hs : d.state.WellFormed) {next : Bool}
    (h : d.actionFocusStep next = some d') : FloatsOnly o d.state d'.state := by
  obtain ⟨⟨s, changed⟩, hcycle, h⟩ := Option.bind_eq_some_iff.mp h
  obtain rfl := Option.some.inj h
  have hop : Op.Step d.state (.cycleFocus next) s := ⟨changed, hcycle⟩
  refine floatsOnly_op hs hop trivial ?_
  cases changed <;> rfl

/-- The float action floats the focused window. -/
theorem floatsOnly_actionFloat (h : d.actionFloat = some d') :
    FloatsOnly d.state.activeFocusedWindow.join d.state d'.state := by
  obtain ⟨focused, hfocused, h⟩ := Option.bind_eq_some_iff.mp h
  rw [hfocused]
  cases focused with
  | none => exact Option.some.inj h ▸ FloatsOnly.refl _
  | some fid =>
    dsimp only at h
    split_ifs at h
    · obtain ⟨d₁, h₁, h⟩ := Option.bind_eq_some_iff.mp h
      obtain ⟨s, hfloat, h₁⟩ := Option.bind_eq_some_iff.mp h₁
      obtain ⟨gs, -, hfloat⟩ := Option.bind_eq_some_iff.mp hfloat
      obtain rfl := Option.some.inj hfloat
      obtain rfl := Option.some.inj h₁
      obtain rfl := Option.some.inj h
      refine floatsOnly_modifyWindow fun w => ?_
      split <;> exact ⟨rfl, rfl, fun _ => Or.inr rfl⟩
    · obtain rfl := Option.some.inj h
      exact floatsOnly_modifyWindow fun w => ⟨rfl, rfl, fun h => by cases h⟩

theorem floatsOnly_resizeStep {delta : ℚ} {s : State} (h : d.state.resizeStep delta = some s) :
    FloatsOnly o d.state s := by
  unfold State.resizeStep at h
  split_ifs at h
  · split at h
    · obtain ⟨out, -, h⟩ := Option.bind_eq_some_iff.mp h
      obtain rfl := Option.some.inj h
      have hset : ∀ t f, FloatsOnly o d.state (d.state.setMasterFraction t f) := fun t f =>
        floatsOnly_of_windows rfl
      exact (hset _ _).trans (floatsOnly_clearFullscreenOnTag _)
    · exact Option.some.inj h ▸ FloatsOnly.refl _
  · exact Option.some.inj h ▸ FloatsOnly.refl _

/-- Of the actions, only the float action floats a window : the focused one. -/
theorem floatsOnly_runAction (hs : d.state.WellFormed) {action : String}
    (h : d.runAction action = some d') : FloatsOnly (d.actionFloats action) d.state d'.state := by
  unfold runAction at h
  unfold actionFloats
  generalize splitAction action = p at h
  obtain ⟨name, arg⟩ := p
  cases name with
  | focusNext | focusPrev => exact floatsOnly_actionFocusStep hs h
  | focusTag => exact floatsOnly_actionFocusTag hs h
  | sendToTag => exact floatsOnly_actionSendToTag hs h
  | float => exact floatsOnly_actionFloat h
  | close =>
    obtain ⟨focused, -, h⟩ := Option.bind_eq_some_iff.mp h
    cases focused <;> exact Option.some.inj h ▸ floatsOnly_of_windows rfl
  | fullscreen =>
    obtain ⟨focused, -, h⟩ := Option.bind_eq_some_iff.mp h
    split at h
    · obtain rfl := Option.some.inj h
      exact floatsOnly_modifyWindow fun w => ⟨rfl, rfl, Or.inl⟩
    · exact Option.some.inj h ▸ FloatsOnly.refl _
  | focusNextOutput | focusPrevOutput =>
    obtain rfl := Option.some.inj h
    refine floatsOnly_of_windows ?_
    unfold actionFocusStepOutput State.focusStepOutput
    dsimp only
    split_ifs <;> rfl
  | resizeStepLeft | resizeStepRight =>
    obtain ⟨d₁, h₁, h⟩ := Option.bind_eq_some_iff.mp h
    obtain ⟨s, hresize, h₁⟩ := Option.bind_eq_some_iff.mp h₁
    obtain rfl := Option.some.inj h₁
    obtain rfl := Option.some.inj h
    exact floatsOnly_resizeStep hresize
  | spawnTerminal | spawnLauncher | spawn | cycleLayout | enterResizeMode | exitResizeMode | quit
    | unhandled =>
    obtain rfl := Option.some.inj h
    exact floatsOnly_of_windows rfl

/-- A window that floats after an event floated before, or is the one the event floats. -/
theorem floatsOnly_handle (hs : d.state.WellFormed) {event : Event} (hevent : event ≠ .manageStart)
    (h : d.handle event = some d') : FloatsOnly (d.floatedBy event) d.state d'.state := by
  cases event with
  | manageStart => exact absurd rfl hevent
  | unavailable | finished => exact Option.some.inj h ▸ floatsOnly_of_windows rfl
  | newWindow window =>
    have hop : Op.Step d.state (.createWindow window) d'.state := by
      rw [← Option.some.inj h]
      rfl
    exact floatsOnly_of_step hs hop trivial
  | newOutput output => exact floatsOnly_newOutput hs h
  | newSeat seat => exact Option.some.inj h ▸ floatsOnly_of_windows (windows_newSeat d seat)
  | renderStart hasClients => exact floatsOnly_onRenderStart h
  | window window event => exact floatsOnly_windowEvent h
  | output output event => exact floatsOnly_outputEvent hs h
  | nonExclusiveArea layer x y width height =>
    change d.nonExclusiveArea layer x y width height = some d' at h
    unfold nonExclusiveArea at h
    split at h
    · exact floatsOnly_outputGeometry h
    · exact Option.some.inj h ▸ FloatsOnly.refl _
  | seat seat event => exact floatsOnly_seatEvent hs h
  | wlOutputName global name => exact Option.some.inj h ▸ floatsOnly_of_windows rfl
  | bindingPressed binding =>
    change d.dispatchAction binding = some d' at h
    unfold dispatchAction at h
    rw [floatedBy]
    split at h
    · next action haction =>
      rw [haction]
      exact floatsOnly_runAction hs h
    · exact Option.some.inj h ▸ FloatsOnly.refl _
  | pointerBindingPressed binding =>
    obtain rfl := Option.some.inj h
    refine floatsOnly_of_windows ?_
    unfold startPointerOp
    split
    · rfl
    · split <;> rfl
  | pointerBindingReleased binding => exact Option.some.inj h ▸ floatsOnly_endPointerOp
  | command cmd =>
    obtain ⟨s, hcommand, h⟩ := Option.bind_eq_some_iff.mp h
    obtain rfl := Option.some.inj h
    refine (floatsOnly_commandState hs hcommand).trans (floatsOnly_of_windows ?_)
    cases cmd with
    | spawn command =>
      dsimp only
      split_ifs <;> rfl
    | _ => rfl
  | statusRequest =>
    obtain ⟨snap, -, h⟩ := Option.bind_eq_some_iff.mp h
    exact Option.some.inj h ▸ floatsOnly_of_windows rfl
  | flushPending =>
    obtain rfl := Option.some.inj h
    unfold flushPending
    split_ifs <;> exact floatsOnly_of_windows rfl

end AppData

end Streamwm
