import Streamwm.EventLoop

/-!
# What only a manage sequence does

The dimension bounds of windows and the position of the pointer are set in manage sequences
only : no other handler sends such a request (`plain_handle`). The pending warp is set by the
actions of bindings and taken by a manage sequence, and every other handler leaves it
(`pendingPointerWarp_handle`).
-/

namespace Streamwm

/-- The requests that only a manage sequence sends. -/
def Request.OfPass : Request → Bool
  | .setDimensionBounds _ _ _ | .pointerWarp _ _ _ => true
  | _ => false

/-- An event that lets a pending warp wait. -/
def Event.KeepsWarp : Event → Prop
  | .manageStart | .bindingPressed _ => False
  | _ => True

namespace AppData

variable {d d' d'' : AppData}

/-- The requests made do not belong to a manage sequence. -/
def Plain (d d' : AppData) : Prop :=
  ∃ rs, d'.sent = d.sent ++ rs ∧ ∀ r ∈ rs, r.OfPass = false

/-- Nor is a warp scheduled. -/
structure Calm (d d' : AppData) : Prop where
  plain : Plain d d'
  warp : d'.pendingPointerWarp = d.pendingPointerWarp

theorem Plain.trans (h : Plain d d') (h' : Plain d' d'') : Plain d d'' := by
  obtain ⟨rs, hrs, hr⟩ := h
  obtain ⟨rs', hrs', hr'⟩ := h'
  refine ⟨rs ++ rs', by rw [hrs', hrs, List.append_assoc], fun r hmem => ?_⟩
  exact (List.mem_append.mp hmem).elim (hr r) (hr' r)

theorem Calm.trans (h : Calm d d') (h' : Calm d' d'') : Calm d d'' :=
  ⟨h.plain.trans h'.plain, h'.warp.trans h.warp⟩

/-- Nothing is asked for and no warp scheduled. -/
theorem calm_of_eq (hsent : d'.sent = d.sent)
    (hwarp : d'.pendingPointerWarp = d.pendingPointerWarp) : Calm d d' :=
  ⟨⟨[], by simp [hsent], by simp⟩, hwarp⟩

theorem Calm.refl (d : AppData) : Calm d d :=
  calm_of_eq rfl rfl

/-- What is done to the state alone asks for nothing. -/
theorem calm_state {s : State} : Calm d { d with state := s } :=
  calm_of_eq rfl rfl

theorem calm_sendAll {rs : List Request} (h : ∀ r ∈ rs, r.OfPass = false) : Calm d (d.sendAll rs) :=
  ⟨⟨rs, rfl, h⟩, rfl⟩

theorem calm_send {r : Request} (h : r.OfPass = false) : Calm d (d.send r) :=
  calm_sendAll (by simpa using h : ∀ r' ∈ [r], r'.OfPass = false)

theorem calm_manageDirty : Calm d d.manageDirty :=
  calm_send rfl

/-- A change outside the requests, and a request for a manage sequence. -/
theorem calm_of_dirty (hsent : d'.sent = d.sent ++ [.manageDirty])
    (hwarp : d'.pendingPointerWarp = d.pendingPointerWarp) : Calm d d' :=
  ⟨⟨_, hsent, by simp [Request.OfPass]⟩, hwarp⟩

/-- To ask for a manage sequence is to leave its work to it. -/
theorem Calm.manageDirty (h : Calm d d') : Calm d d'.manageDirty :=
  h.trans calm_manageDirty

theorem calm_requestManageIf (b : Bool) : Calm d (d.requestManageIf b) := by
  cases b
  · exact Calm.refl d
  · exact calm_manageDirty

/-- An update of the state that may fail asks for nothing. -/
theorem calm_modifyStateM {f : State → Option State} (h : d.modifyStateM f = some d') :
    Calm d d' := by
  obtain ⟨s, -, h⟩ := Option.bind_eq_some_iff.mp h
  obtain rfl := Option.some.inj h
  exact calm_state

/-- What is sent to an object that may be missing is no work of a manage sequence. -/
theorem calm_map_toList {α : Type} {f : α → Request} (hf : ∀ a, (f a).OfPass = false)
    (o : Option α) : ∀ r ∈ (o.map f).toList, r.OfPass = false := by
  cases o with
  | none => simp
  | some a => simpa using hf a

theorem ofPass_map {α : Type} {f : α → Request} (hf : ∀ a, (f a).OfPass = false) (l : List α) :
    ∀ r ∈ l.map f, r.OfPass = false :=
  List.forall_mem_map.mpr fun a _ => hf a

/-! ## Windows and outputs -/

theorem calm_floatForOp {wid : ℕ} (h : d.floatForOp wid = some d') : Calm d d' := by
  obtain ⟨gs, -, h⟩ := Option.bind_eq_some_iff.mp h
  exact Option.some.inj h ▸ calm_state

/-- An interactive operation floats its window and asks for a manage sequence. -/
theorem calm_startInteractiveOp {wid : ℕ} {seat : ObjectId} {kind : OpKind} {edges : Edges}
    (h : d.startInteractiveOp wid seat kind edges = some d') : Calm d d' := by
  obtain ⟨d₁, h₁, h⟩ := Option.bind_eq_some_iff.mp h
  refine (calm_floatForOp h₁).trans ?_
  dsimp only at h
  split at h
  · exact Option.some.inj h ▸ Calm.refl d₁
  · exact Option.some.inj h ▸ calm_of_dirty rfl rfl

/-- A closed window gives back its node and itself. -/
theorem calm_windowClosed (window : ObjectId) (w : Window) : Calm d (d.windowClosed window w) :=
  ((calm_sendAll (calm_map_toList (fun _ => rfl) w.node)).trans (calm_send rfl)).trans calm_state

theorem calm_windowParent (id : ℕ) (parent : Option ObjectId) : Calm d (d.windowParent id parent) := by
  unfold windowParent
  split <;> exact calm_state

/-- What a window reports is noted, and at most a manage sequence asked for. -/
theorem calm_windowEvent {window : ObjectId} {event : WindowEvent}
    (h : d.windowEvent window event = some d') : Calm d d' := by
  unfold windowEvent at h
  split at h
  · exact Option.some.inj h ▸ Calm.refl d
  · cases event with
    | closed =>
      dsimp only at h
      split at h
      · exact Option.some.inj h ▸ calm_windowClosed _ _
      · exact Option.some.inj h ▸ calm_state
    | parent parent => exact Option.some.inj h ▸ calm_windowParent _ parent
    | pointerMoveRequested seat => exact calm_startInteractiveOp h
    | pointerResizeRequested seat edges => exact calm_startInteractiveOp h
    | maximizeRequested | unmaximizeRequested => exact Option.some.inj h ▸ Calm.refl d
    | appId _ | title _ | dimensions _ _ | dimensionsHint _ _ _ _ =>
      exact Option.some.inj h ▸ calm_state
    | fullscreenRequested | exitFullscreenRequested | minimizeRequested =>
      exact Option.some.inj h ▸ calm_state.manageDirty

/-- New geometry is taken over and a manage sequence asked for. -/
theorem calm_outputGeometry {idx : ℕ} {g : GeometryEvent}
    (h : d.outputGeometry idx g = some d') : Calm d d' := by
  obtain ⟨d₁, h₁, h⟩ := Option.bind_eq_some_iff.mp h
  exact Option.some.inj h ▸ (calm_modifyStateM h₁).manageDirty

/-- An output gives back its layer, its global and itself. -/
theorem calm_outputRemoved {idx : ℕ} {o : Output} (h : d.outputRemoved idx o = some d') :
    Calm d d' := by
  obtain ⟨d₁, h₁, h⟩ := Option.bind_eq_some_iff.mp h
  have hsend : Calm d (d.sendAll ((o.layer.map Request.destroy).toList ++
      (o.wlOutput.map Request.destroy).toList ++ [.destroy o.proxy])) := by
    refine calm_sendAll fun r hr => ?_
    simp only [List.mem_append, List.mem_singleton] at hr
    rcases hr with (hr | hr) | rfl
    · exact calm_map_toList (fun _ => rfl) o.layer r hr
    · exact calm_map_toList (fun _ => rfl) o.wlOutput r hr
    · rfl
  refine Option.some.inj h ▸ (hsend.trans (calm_modifyStateM h₁)).trans ?_
  exact (calm_of_eq rfl rfl : Calm d₁ { d₁ with layerDefaultSet := false }).manageDirty

/-- What an output reports asks for no bounds and no warp. -/
theorem calm_outputEvent {output : ObjectId} {event : OutputEvent}
    (h : d.outputEvent output event = some d') : Calm d d' := by
  cases event with
  | wlOutput name =>
    refine Option.some.inj h ▸ ?_
    exact ((calm_of_eq rfl rfl : Calm d d.allocate.2).trans (calm_send rfl)).trans calm_state
  | position x y | dimensions width height =>
    unfold outputEvent at h
    dsimp only at h
    split at h
    · exact calm_outputGeometry h
    · exact Option.some.inj h ▸ Calm.refl d
  | removed =>
    unfold outputEvent at h
    dsimp only at h
    split at h
    · obtain ⟨o, -, h⟩ := Option.bind_eq_some_iff.mp h
      exact calm_outputRemoved h
    · exact Option.some.inj h ▸ Calm.refl d

theorem calm_nonExclusiveArea {layer : ObjectId} {x y width height : ℤ}
    (h : d.nonExclusiveArea layer x y width height = some d') : Calm d d' := by
  unfold nonExclusiveArea at h
  split at h
  · exact calm_outputGeometry h
  · exact Option.some.inj h ▸ Calm.refl d

/-- For a new output a layer is asked for at most. -/
theorem calm_newOutput {output : ObjectId} (h : d.newOutput output = some d') : Calm d d' := by
  obtain ⟨d₁, h₁, h⟩ := Option.bind_eq_some_iff.mp h
  refine (calm_modifyStateM h₁).trans ?_
  split_ifs at h
  · split at h
    · split_ifs at h
      · refine Option.some.inj h ▸ ?_
        exact ((calm_of_eq rfl rfl : Calm d₁ d₁.allocate.2).trans (calm_send rfl)).trans calm_state
      · exact Option.some.inj h ▸ Calm.refl d₁
    · exact Option.some.inj h ▸ Calm.refl d₁
  · exact Option.some.inj h ▸ Calm.refl d₁

/-! ## Seats -/

/-- The bindings of a seat are destroyed. -/
theorem calm_dropBindings (seat : ObjectId) : Calm d (d.dropBindings seat) := by
  have hdestroy : ∀ l : List (ObjectId × String × ObjectId),
      ∀ r ∈ l.map fun b => Request.destroy b.1, r.OfPass = false := ofPass_map fun _ => rfl
  exact ((calm_sendAll (hdestroy _)).trans (calm_sendAll (hdestroy _))).trans (calm_of_eq rfl rfl)

/-- The operations of a seat are dropped without a request. -/
theorem calm_forgetOps (seat : ObjectId) : Calm d (d.forgetOps seat) := by
  unfold forgetOps
  dsimp only
  split_ifs <;> exact calm_of_eq rfl rfl

/-- A seat gives back its bindings and what it bound. -/
theorem calm_seatRemoved (seat : ObjectId) : Calm d (d.seatRemoved seat) :=
  (((calm_dropBindings seat).trans (calm_forgetOps seat)).trans
    (calm_sendAll (ofPass_map (fun _ => rfl) _))).trans calm_state

/-- For a named seat the `wl_seat`, a pointer and a cursor shape device are created. -/
theorem calm_bindWlSeat (seat : ObjectId) (name : ℕ) : Calm d (d.bindWlSeat seat name) := by
  have hallocate : Calm d d.allocate.2.allocate.2.allocate.2 := calm_of_eq rfl rfl
  refine hallocate.trans ((calm_sendAll fun r hr => ?_).trans calm_state)
  simp only [List.mem_append, List.mem_cons, List.not_mem_nil, or_false] at hr
  rcases hr with (rfl | rfl) | hr
  · rfl
  · rfl
  · exact calm_map_toList (fun _ => rfl) _ r hr

/-- Focus follows the pointer, which stays where it is. -/
theorem calm_pointerEnter {seat window : ObjectId} (h : d.pointerEnter seat window = some d') :
    Calm d d' := by
  unfold pointerEnter at h
  split at h
  · exact Option.some.inj h ▸ Calm.refl d
  · dsimp only at h
    split_ifs at h
    · obtain ⟨⟨s, changed⟩, -, h⟩ := Option.bind_eq_some_iff.mp h
      refine Option.some.inj h ▸ ?_
      exact (calm_state (s := s)).trans (calm_requestManageIf changed)
    · exact Option.some.inj h ▸ calm_state

theorem calm_windowInteraction {window : ObjectId} (h : d.windowInteraction window = some d') :
    Calm d d' := by
  unfold windowInteraction at h
  split at h
  · exact Option.some.inj h ▸ Calm.refl d
  · obtain ⟨⟨s, changed⟩, -, h⟩ := Option.bind_eq_some_iff.mp h
    exact Option.some.inj h ▸ calm_of_eq rfl rfl

/-- The pointer may focus another output, which warps it nowhere. -/
theorem calm_pointerPosition (seat : ObjectId) (x y : ℤ) : Calm d (d.pointerPosition seat x y) := by
  unfold pointerPosition
  dsimp only
  split_ifs
  · split
    · split_ifs
      · exact calm_of_dirty rfl rfl
      · exact calm_state
    · exact calm_state
  · exact calm_state

theorem calm_applyPointerDelta (dx dy : ℤ) : Calm d (d.applyPointerDelta dx dy) := by
  unfold applyPointerDelta
  split
  · exact Calm.refl d
  · exact calm_state

theorem calm_endPointerOp : Calm d d.endPointerOp := by
  unfold endPointerOp
  split_ifs
  · exact (calm_of_eq rfl rfl : Calm d { d with opEndRequested := true }).manageDirty
  · exact Calm.refl d

/-- What a seat reports never moves its own pointer. -/
theorem calm_seatEvent {seat : ObjectId} {event : SeatEvent}
    (h : d.seatEvent seat event = some d') : Calm d d' := by
  cases event with
  | removed => exact Option.some.inj h ▸ calm_seatRemoved seat
  | opDelta dx dy => exact Option.some.inj h ▸ calm_applyPointerDelta dx dy
  | opRelease => exact Option.some.inj h ▸ calm_endPointerOp
  | wlSeat name => exact Option.some.inj h ▸ calm_bindWlSeat seat name
  | pointerEnter window => exact calm_pointerEnter h
  | pointerLeave => exact Option.some.inj h ▸ calm_state
  | windowInteraction window => exact calm_windowInteraction h
  | pointerPosition x y => exact Option.some.inj h ▸ calm_pointerPosition seat x y

theorem calm_startPointerOp (binding : ObjectId) : Calm d (d.startPointerOp binding) := by
  unfold startPointerOp
  split
  · exact Calm.refl d
  · split
    · exact Calm.refl d
    · exact calm_of_dirty rfl rfl

/-- A key is bound, or left alone if its description does not parse. -/
theorem calm_bindKey (seat : ObjectId) (bind : String × String × String) :
    Calm d (bindKey seat d bind) := by
  unfold bindKey
  split
  · exact Calm.refl d
  · exact (calm_of_eq rfl rfl : Calm d d.allocate.2).trans ((calm_send rfl).trans (calm_of_eq rfl rfl))

/-- A loop over steps that leave the pass its work. -/
theorem calm_foldl {α : Type} {f : AppData → α → AppData} (hf : ∀ d a, Calm d (f d a)) :
    ∀ (l : List α) (d : AppData), Calm d (l.foldl f d) :=
  Partial.foldl_of_trans Calm.refl (fun _ _ _ h h' => h.trans h') hf

theorem calm_bindPointer (seat : ObjectId) (button : ℕ) (action : String) :
    Calm d (d.bindPointer seat button action) :=
  (calm_of_eq rfl rfl : Calm d d.allocate.2).trans ((calm_send rfl).trans (calm_of_eq rfl rfl))

/-- A new seat gets its bindings. -/
theorem calm_newSeat (seat : ObjectId) : Calm d (d.newSeat seat) := by
  unfold newSeat
  dsimp only
  generalize hd₁ : bindPointerForSeat _ seat = d₁
  have hpointer : Calm d d₁ := by
    rw [← hd₁]
    refine Calm.trans ?_ ((calm_bindPointer seat 0x110 "move").trans
      (calm_bindPointer seat 0x111 "resize"))
    split_ifs
    · exact calm_state.trans (calm_foldl (fun d b => calm_bindKey seat b) _ _)
    · exact calm_state
  refine hpointer.trans ?_
  split_ifs
  · split
    · split_ifs
      · exact ((calm_of_eq rfl rfl : Calm d₁ d₁.allocate.2).trans (calm_send rfl)).trans calm_state
      · exact Calm.refl d₁
    · exact Calm.refl d₁
  · exact Calm.refl d₁

/-! ## Render sequences -/

theorem calm_updateWindows {f : Window → Window × List Request}
    (hf : ∀ w, ∀ r ∈ (f w).2, r.OfPass = false) : Calm d (d.updateWindows f) := by
  refine ⟨⟨_, rfl, fun r hr => ?_⟩, rfl⟩
  obtain ⟨w, -, hr⟩ := List.mem_flatMap.mp hr
  exact hf w r hr

/-- The nodes of hidden windows are destroyed. -/
theorem calm_releaseHiddenNodes : Calm d d.releaseHiddenNodes := by
  refine calm_updateWindows fun w r hr => ?_
  unfold Window.releaseNode at hr
  split_ifs at hr
  · cases hr
  · exact calm_map_toList (fun _ => rfl) _ r hr

/-- Nodes are asked for, for the windows that are placed. -/
theorem calm_createNodes : Calm d d.createNodes := by
  refine ⟨⟨_, rfl, fun r hr => ?_⟩, rfl⟩
  obtain ⟨p, hp, hr⟩ := List.mem_flatMap.mp hr
  obtain ⟨q, -, rfl⟩ := List.mem_map.mp hp
  unfold Window.takeNode at hr
  split_ifs at hr
  · rw [List.mem_singleton.mp hr]
    rfl
  · cases hr

/-- A window is hidden, or bordered, placed and shown. -/
theorem calm_renderWindow (config : Config) (focused : Option ℕ) (p : ℕ × Placement) :
    Calm d (renderWindow config focused p d) := by
  unfold renderWindow
  split
  · exact Calm.refl d
  next w _ =>
  split_ifs
  · exact calm_send rfl
  · have hnode : ∀ x y : ℤ, Calm d (d.sendAll ((w.node.map fun node =>
        [Request.setPosition node x y, .placeTop node]).getD [])) := fun x y => by
      refine calm_sendAll fun r hr => ?_
      cases hnode : w.node with
      | none => simp [hnode] at hr
      | some node =>
        simp only [hnode, Option.map_some, Option.getD_some, List.mem_cons, List.not_mem_nil,
          or_false] at hr
        rcases hr with rfl | rfl <;> rfl
    dsimp only
    refine Calm.trans ?_ (calm_send rfl)
    split_ifs
    all_goals first
      | exact (hnode _ _).trans ((calm_send rfl).trans calm_state)
      | exact hnode _ _

theorem calm_refreshSnapshot {hasClients : Bool} (h : d.refreshSnapshot hasClients = some d') :
    Calm d d' := by
  unfold refreshSnapshot at h
  split_ifs at h
  · exact Option.some.inj h ▸ Calm.refl d
  · obtain ⟨snap, -, h⟩ := Option.bind_eq_some_iff.mp h
    exact Option.some.inj h ▸ calm_of_eq rfl rfl

/-- A render sequence sets neither bounds nor the position of the pointer. -/
theorem calm_onRenderStart {hasClients : Bool} (h : d.onRenderStart hasClients = some d') :
    Calm d d' := by
  obtain ⟨focused, -, h⟩ := Option.bind_eq_some_iff.mp h
  obtain ⟨d₁, h₁, h⟩ := Option.bind_eq_some_iff.mp h
  obtain ⟨ps, -, h₁⟩ := Option.bind_eq_some_iff.mp h₁
  obtain rfl := Option.some.inj h₁
  have hbegin := (calm_releaseHiddenNodes (d := d)).trans
    (calm_createNodes.trans calm_releaseHiddenNodes)
  exact (hbegin.trans (calm_foldl (fun d p => calm_renderWindow d.config focused p) ps _)).trans
    ((calm_send rfl).trans (calm_refreshSnapshot h))

/-! ## The socket, and all events -/

/-- A command is applied to the state and the rest left to a manage sequence. -/
theorem calm_applyCommand {cmd : Command} (h : d.applyCommand cmd = some d') : Calm d d' := by
  obtain ⟨s, -, h⟩ := Option.bind_eq_some_iff.mp h
  obtain rfl := Option.some.inj h
  cases cmd with
  | spawn command =>
    dsimp only
    split_ifs
    · exact ((calm_state (s := s)).trans (calm_send rfl)).manageDirty
    · exact (calm_state (s := s)).manageDirty
  | _ => exact calm_of_dirty rfl rfl

theorem calm_flushPending : Calm d d.flushPending := by
  unfold flushPending
  split_ifs
  · exact calm_of_dirty rfl rfl
  · exact Calm.refl d

/-- Outside manage sequences and bindings, nothing of a manage sequence is done or scheduled. -/
theorem calm_handle {event : Event} (h : d.handle event = some d') (hevent : event.KeepsWarp) :
    Calm d d' := by
  cases event with
  | manageStart | bindingPressed _ => exact hevent.elim
  | unavailable | finished => exact Option.some.inj h ▸ calm_of_eq rfl rfl
  | newWindow window => exact Option.some.inj h ▸ calm_state
  | newOutput output => exact calm_newOutput h
  | newSeat seat => exact Option.some.inj h ▸ calm_newSeat seat
  | renderStart hasClients => exact calm_onRenderStart h
  | window window event => exact calm_windowEvent h
  | output output event => exact calm_outputEvent h
  | nonExclusiveArea layer x y width height => exact calm_nonExclusiveArea h
  | seat seat event => exact calm_seatEvent h
  | wlOutputName global name => exact Option.some.inj h ▸ calm_state
  | pointerBindingPressed binding => exact Option.some.inj h ▸ calm_startPointerOp binding
  | pointerBindingReleased binding => exact Option.some.inj h ▸ calm_endPointerOp
  | command cmd => exact calm_applyCommand h
  | statusRequest =>
    obtain ⟨snap, -, h⟩ := Option.bind_eq_some_iff.mp h
    exact Option.some.inj h ▸ calm_of_eq rfl rfl
  | flushPending => exact Option.some.inj h ▸ calm_flushPending

/-! ## Actions -/

theorem calm_actionFocusStep {next : Bool} (h : d.actionFocusStep next = some d') : Calm d d' := by
  obtain ⟨⟨s, changed⟩, -, h⟩ := Option.bind_eq_some_iff.mp h
  exact Option.some.inj h ▸ (calm_state (s := s)).trans (calm_requestManageIf changed)

/-- A focused tag may schedule a warp, but asks for none. -/
theorem plain_actionFocusTag {arg : Option (List Char)} (h : d.actionFocusTag arg = some d') :
    Plain d d' := by
  unfold actionFocusTag at h
  split at h
  · exact Option.some.inj h ▸ (Calm.refl d).plain
  · dsimp only at h
    split at h
    · obtain ⟨s, -, h⟩ := Option.bind_eq_some_iff.mp h
      exact Option.some.inj h ▸ ⟨[.manageDirty], rfl, by simp [Request.OfPass]⟩
    · exact Option.some.inj h ▸ ⟨[], by simp, by simp⟩

theorem calm_actionSendToTag {arg : Option (List Char)} (h : d.actionSendToTag arg = some d') :
    Calm d d' := by
  unfold actionSendToTag at h
  split at h
  · exact Option.some.inj h ▸ Calm.refl d
  · split at h
    · obtain ⟨s, -, h⟩ := Option.bind_eq_some_iff.mp h
      exact Option.some.inj h ▸ calm_of_dirty rfl rfl
    · exact Option.some.inj h ▸ Calm.refl d

theorem calm_actionClose (h : d.actionClose = some d') : Calm d d' := by
  obtain ⟨o, -, h⟩ := Option.bind_eq_some_iff.mp h
  cases o with
  | none => exact Option.some.inj h ▸ Calm.refl d
  | some fid => exact Option.some.inj h ▸ calm_of_dirty rfl rfl

theorem calm_actionFullscreen (h : d.actionFullscreen = some d') : Calm d d' := by
  obtain ⟨o, -, h⟩ := Option.bind_eq_some_iff.mp h
  split at h
  · exact Option.some.inj h ▸ calm_of_dirty rfl rfl
  · exact Option.some.inj h ▸ Calm.refl d

theorem calm_actionFloat (h : d.actionFloat = some d') : Calm d d' := by
  obtain ⟨o, -, h⟩ := Option.bind_eq_some_iff.mp h
  cases o with
  | none => exact Option.some.inj h ▸ Calm.refl d
  | some fid =>
    dsimp only at h
    split_ifs at h
    · obtain ⟨d₁, h₁, h⟩ := Option.bind_eq_some_iff.mp h
      exact Option.some.inj h ▸ (calm_modifyStateM h₁).manageDirty
    · exact Option.some.inj h ▸ calm_of_dirty rfl rfl

/-- A focused output schedules a warp. -/
theorem plain_actionFocusStepOutput (next : Bool) : Plain d (d.actionFocusStepOutput next) := by
  unfold actionFocusStepOutput
  split
  · exact ⟨[.manageDirty], rfl, by simp [Request.OfPass]⟩
  · exact ⟨[], by simp, by simp⟩

theorem calm_actionResizeStep {delta : ℚ} (h : d.actionResizeStep delta = some d') : Calm d d' := by
  obtain ⟨d₁, h₁, h⟩ := Option.bind_eq_some_iff.mp h
  exact Option.some.inj h ▸ (calm_modifyStateM h₁).manageDirty

/-- Whatever the action, the requests of a manage sequence wait for it. -/
theorem plain_runAction {action : String} (h : d.runAction action = some d') : Plain d d' := by
  unfold runAction at h
  generalize splitAction action = p at h
  obtain ⟨name, arg⟩ := p
  cases name with
  | spawnTerminal | spawnLauncher => exact Option.some.inj h ▸ (calm_send rfl).plain
  | spawn => exact Option.some.inj h ▸ (calm_sendAll (calm_map_toList (fun _ => rfl) arg)).plain
  | close => exact (calm_actionClose h).plain
  | focusNext | focusPrev => exact (calm_actionFocusStep h).plain
  | focusTag => exact plain_actionFocusTag h
  | sendToTag => exact (calm_actionSendToTag h).plain
  | fullscreen => exact (calm_actionFullscreen h).plain
  | float => exact (calm_actionFloat h).plain
  | focusNextOutput | focusPrevOutput => exact Option.some.inj h ▸ plain_actionFocusStepOutput _
  | cycleLayout | unhandled => exact Option.some.inj h ▸ (Calm.refl d).plain
  | enterResizeMode | exitResizeMode =>
    obtain rfl := Option.some.inj h
    exact (calm_state.manageDirty).plain
  | resizeStepLeft | resizeStepRight => exact (calm_actionResizeStep h).plain
  | quit => exact Option.some.inj h ▸ (calm_of_eq rfl rfl : Calm d _).plain

/-- Only a manage sequence sends its requests. -/
theorem plain_handle {event : Event} (hevent : event ≠ .manageStart)
    (h : d.handle event = some d') : Plain d d' := by
  cases event with
  | manageStart => exact absurd rfl hevent
  | bindingPressed binding =>
    change d.dispatchAction binding = some d' at h
    unfold dispatchAction at h
    split at h
    · exact plain_runAction h
    · exact Option.some.inj h ▸ (Calm.refl d).plain
  | _ => exact (calm_handle h trivial).plain

end AppData

end Streamwm
