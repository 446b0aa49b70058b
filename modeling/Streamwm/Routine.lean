import Streamwm.Ledger
import Streamwm.Manage
import Streamwm.EventLoop

/-!
# Routine events

Most events bring no object and take none away (`Event.Routine`). Their handlers leave the
ledger, the bindings and the configuration alone, and ask nothing of river but a manage
sequence (`routine_handle`). All of them but the resize actions leave the splits alone too.
`Routine g` says so for a projection `g` of the state.
-/

namespace Streamwm

open Partial

/-- The requests that concern no object. -/
def Request.Free : Request → Bool
  | .manageDirty | .spawn _ => true
  | _ => false

/-- An event that brings no object and takes none away. -/
def Event.Routine : Event → Bool
  | .newWindow _ | .newOutput _ | .newSeat _ | .manageStart | .renderStart _ | .window _ .closed
  | .output _ (.wlOutput _) | .output _ .removed | .seat _ .removed | .seat _ (.wlSeat _) => false
  | _ => true

/-- The actions about splits. -/
def ActionName.Resizes : ActionName → Prop
  | .enterResizeMode | .exitResizeMode | .resizeStepLeft | .resizeStepRight => True
  | _ => False

namespace AppData

/-- What the handlers of routine events have in common : the configuration, the globals, the
bindings and the objects created. -/
def fixed (d : AppData) : Config × (Bool × Bool × Bool) × List (ObjectId × String × ObjectId) ×
    List (ObjectId × String × ObjectId) × Bool × ObjectId :=
  (d.config, (d.xkb, d.layerShell, d.cursorShapeManager), d.bindings, d.pointerBindings,
    d.layerDefaultSet, d.nextObject)

/-- What the handler of a routine event does. -/
structure Routine {β : Type} (g : State → β) (d d' : AppData) : Prop where
  sent : ∃ rs, d'.sent = d.sent ++ rs ∧ ∀ r ∈ rs, r.Free = true
  state : g d'.state = g d.state
  fixed : d'.fixed = d.fixed

variable {d d' d'' : AppData} {β : Type} {g : State → β}

/-- Nothing is asked for, and what is watched stays. -/
theorem routine_of_eq (hsent : d'.sent = d.sent) (hstate : g d'.state = g d.state)
    (hfixed : d'.fixed = d.fixed) : Routine g d d' :=
  ⟨⟨[], by simp [hsent], by simp⟩, hstate, hfixed⟩

theorem Routine.refl (d : AppData) : Routine g d d :=
  routine_of_eq rfl rfl rfl

theorem Routine.trans (h : Routine g d d') (h' : Routine g d' d'') : Routine g d d'' := by
  obtain ⟨rs, hrs, hr⟩ := h.sent
  obtain ⟨rs', hrs', hr'⟩ := h'.sent
  refine ⟨⟨rs ++ rs', by rw [hrs', hrs, List.append_assoc], fun r hmem => ?_⟩,
    h'.state.trans h.state, h'.fixed.trans h.fixed⟩
  exact (List.mem_append.mp hmem).elim (hr r) (hr' r)

theorem routine_sendAll {rs : List Request} (h : ∀ r ∈ rs, r.Free = true) :
    Routine g d (d.sendAll rs) :=
  ⟨⟨rs, rfl, h⟩, rfl, rfl⟩

theorem routine_send {r : Request} (h : r.Free = true) : Routine g d (d.send r) :=
  routine_sendAll (by simpa using h : ∀ r' ∈ [r], r'.Free = true)

theorem Routine.manageDirty (h : Routine g d d') : Routine g d d'.manageDirty :=
  h.trans (routine_send rfl)

/-- An update of the state that keeps what is watched. -/
theorem routine_state {s : State} (h : g s = g d.state) : Routine g d { d with state := s } :=
  routine_of_eq rfl h rfl

theorem Routine.requestManageIf (h : Routine g d d') (b : Bool) :
    Routine g d (d'.requestManageIf b) := by
  cases b
  · exact h
  · exact h.manageDirty

/-- An update of the state that may fail, and keeps what is watched. -/
theorem routine_modifyStateM {f : State → Option State} (h : d.modifyStateM f = some d')
    (hf : ∀ s, f d.state = some s → g s = g d.state) : Routine g d d' := by
  obtain ⟨s, hs, h⟩ := Option.bind_eq_some_iff.mp h
  obtain rfl := Option.some.inj h
  exact routine_state (hf s hs)

/-- A handler that leaves the books alone leaves the ledger alone. -/
theorem Routine.ledger (h : Routine State.books d d') : Routine State.ledger d d' :=
  ⟨h.sent, congrArg Prod.fst h.state, h.fixed⟩

/-! ## Windows -/

/-- An update of a window that keeps its objects. -/
theorem routine_modifyWindow (id : ℕ) {f : Window → Window} (hf : ∀ w, (f w).entry = w.entry) :
    Routine State.books d (d.modifyState fun s => s.modifyWindow id f) :=
  routine_state (State.books_modifyWindow id hf)

/-- An app id floats a window at most. -/
theorem entry_setAppId (w : Window) (appId : Option String) (shouldFloat : Bool)
    (area : Option (ℤ × ℤ × ℕ × ℕ)) : (w.setAppId appId shouldFloat area).entry = w.entry := by
  unfold Window.setAppId
  split_ifs
  · cases area <;> rfl
  · rfl

/-- A parent floats and places a window at most. -/
theorem entry_setParent (w parent : Window) (area : ℤ × ℤ × ℕ × ℕ) :
    (w.setParent parent area).entry = w.entry := by
  unfold Window.setParent
  dsimp only
  split_ifs <;> rfl

theorem routine_windowAppId (id : ℕ) (appId : Option String) :
    Routine State.books d (d.windowAppId id appId) :=
  (routine_modifyWindow id fun w => entry_setAppId w _ _ _).trans (routine_state rfl)

/-- A window may float over its parent. -/
theorem routine_windowParent (id : ℕ) (parent : Option ObjectId) :
    Routine State.books d (d.windowParent id parent) := by
  unfold windowParent
  split
  · exact (routine_modifyWindow id fun w => entry_setParent w _ _).trans (routine_state rfl)
  · exact routine_state rfl

/-- A dragged window floats where it is shown. -/
theorem routine_floatForOp {wid : ℕ} (h : d.floatForOp wid = some d') :
    Routine State.books d d' := by
  obtain ⟨gs, -, h⟩ := Option.bind_eq_some_iff.mp h
  refine Option.some.inj h ▸ routine_modifyWindow wid fun w => ?_
  split_ifs
  · rfl
  · split <;> rfl

/-- An interactive operation is staged, and a manage sequence asked for. -/
theorem routine_startInteractiveOp {wid : ℕ} {seat : ObjectId} {kind : OpKind} {edges : Edges}
    (h : d.startInteractiveOp wid seat kind edges = some d') : Routine State.books d d' := by
  obtain ⟨d₁, h₁, h⟩ := Option.bind_eq_some_iff.mp h
  refine (routine_floatForOp h₁).trans ?_
  dsimp only at h
  split at h
  · exact Option.some.inj h ▸ Routine.refl d₁
  · next w _ =>
    obtain rfl := Option.some.inj h
    exact Routine.manageDirty (routine_of_eq rfl rfl rfl)

/-- All a window reports but its end is about the window alone. -/
theorem routine_windowEvent {window : ObjectId} {event : WindowEvent}
    (h : d.windowEvent window event = some d') (hevent : event ≠ .closed) :
    Routine State.books d d' := by
  unfold windowEvent at h
  split at h
  · exact Option.some.inj h ▸ Routine.refl d
  next id _ =>
  cases event with
  | closed => exact absurd rfl hevent
  | appId appId => exact Option.some.inj h ▸ routine_windowAppId id appId
  | parent parent => exact Option.some.inj h ▸ routine_windowParent id parent
  | pointerMoveRequested seat => exact routine_startInteractiveOp h
  | pointerResizeRequested seat edges => exact routine_startInteractiveOp h
  | maximizeRequested | unmaximizeRequested => exact Option.some.inj h ▸ Routine.refl d
  | title _ | dimensions _ _ | dimensionsHint _ _ _ _ =>
    exact Option.some.inj h ▸ routine_modifyWindow id fun _ => by rfl
  | fullscreenRequested | exitFullscreenRequested | minimizeRequested =>
    exact Option.some.inj h ▸ (routine_modifyWindow id fun _ => by rfl).manageDirty

/-! ## Outputs and seats -/

/-- New geometry moves floating windows and no object. -/
theorem routine_outputGeometry {idx : ℕ} {e : GeometryEvent}
    (h : d.outputGeometry idx e = some d') : Routine State.books d d' := by
  obtain ⟨d₁, h₁, h⟩ := Option.bind_eq_some_iff.mp h
  refine Option.some.inj h ▸ (routine_modifyStateM h₁ fun s hs => ?_).manageDirty
  exact (State.books_repairOutputs hs).trans (State.books_setGeometry e)

/-- What an output reports is about its geometry, but for its name and its end. -/
theorem routine_outputEvent {output : ObjectId} {event : OutputEvent}
    (h : d.outputEvent output event = some d') (hname : ∀ name, event ≠ .wlOutput name)
    (hremoved : event ≠ .removed) : Routine State.books d d' := by
  cases event with
  | wlOutput name => exact absurd rfl (hname name)
  | removed => exact absurd rfl hremoved
  | position x y | dimensions width height =>
    unfold outputEvent at h
    dsimp only at h
    split at h
    · exact routine_outputGeometry h
    · exact Option.some.inj h ▸ Routine.refl d

theorem routine_nonExclusiveArea {layer : ObjectId} {x y width height : ℤ}
    (h : d.nonExclusiveArea layer x y width height = some d') : Routine State.books d d' := by
  unfold nonExclusiveArea at h
  split at h
  · exact routine_outputGeometry h
  · exact Option.some.inj h ▸ Routine.refl d

/-- The name of an output is no object of it. -/
theorem routine_wlOutputName (global : ℕ) (name : String) :
    Routine State.books d (d.wlOutputName global name) :=
  routine_state (State.books_modifyOutput _ fun _ => by rfl)

/-- An update of a seat that keeps its objects. -/
theorem routine_modifySeat (seat : ObjectId) {f : Seat → Seat} (hf : ∀ t, (f t).entry = t.entry) :
    Routine State.books d (d.modifyState fun s => s.modifySeat seat f) :=
  routine_state (State.books_modifySeat seat hf)

/-- Focus follows the pointer. -/
theorem routine_pointerEnter {seat window : ObjectId} (h : d.pointerEnter seat window = some d') :
    Routine State.books d d' := by
  unfold pointerEnter at h
  split at h
  · exact Option.some.inj h ▸ Routine.refl d
  next wid _ =>
  have hseat : Routine State.books d (d.modifyState fun s =>
      s.modifySeat seat fun t => { t with pointerWindow := some wid }) :=
    routine_modifySeat seat fun _ => by rfl
  dsimp only at h
  split_ifs at h
  · obtain ⟨⟨s, changed⟩, hs, h⟩ := Option.bind_eq_some_iff.mp h
    obtain rfl := Option.some.inj h
    exact (hseat.trans (routine_state (State.books_focusWindowOnOutput hs))).requestManageIf changed
  · exact Option.some.inj h ▸ hseat

/-- A touched window is restored and gets the focus. -/
theorem routine_windowInteraction {window : ObjectId} (h : d.windowInteraction window = some d') :
    Routine State.books d d' := by
  unfold windowInteraction at h
  split at h
  · exact Option.some.inj h ▸ Routine.refl d
  next wid _ =>
  obtain ⟨⟨s, changed⟩, hs, h⟩ := Option.bind_eq_some_iff.mp h
  obtain rfl := Option.some.inj h
  have hshown : Routine State.books d (d.modifyState fun s =>
      s.modifyWindow wid fun w => { w with minimized := false }) :=
    routine_modifyWindow wid fun _ => by rfl
  exact hshown.trans (routine_state (State.books_focusWindowOnOutput hs))

/-- The pointer is followed to another output. -/
theorem routine_pointerPosition (seat : ObjectId) (x y : ℤ) :
    Routine State.books d (d.pointerPosition seat x y) := by
  have hseat : Routine State.books d (d.modifyState fun s =>
      s.modifySeat seat fun t => { t with pointerX := x, pointerY := y }) :=
    routine_modifySeat seat fun _ => by rfl
  unfold pointerPosition
  dsimp only
  split_ifs
  · split
    · next i _ =>
      split_ifs
      · have hfocus : Routine State.books d ((d.modifyState fun s =>
            s.modifySeat seat fun t => { t with pointerX := x, pointerY := y }).modifyState
              fun s => s.setFocusedOutput i) := hseat.trans (routine_state rfl)
        exact hfocus.manageDirty
      · exact hseat
    · exact hseat
  · exact hseat

/-- A drag moves and resizes. -/
theorem entry_drag (op : PointerOp) (dx dy : ℤ) (w : Window) : (op.drag dx dy w).entry = w.entry := by
  unfold PointerOp.drag
  cases op.kind <;> rfl

theorem routine_applyPointerDelta (dx dy : ℤ) : Routine State.books d (d.applyPointerDelta dx dy) := by
  unfold applyPointerDelta
  split
  · exact Routine.refl d
  · next op _ => exact routine_modifyWindow op.window (entry_drag op dx dy)

/-- The end of an operation is noted for the manage sequence. -/
theorem routine_endPointerOp : Routine g d d.endPointerOp := by
  unfold endPointerOp
  split_ifs
  · exact Routine.manageDirty (routine_of_eq rfl rfl rfl)
  · exact Routine.refl d

/-- The start of an operation is noted for the manage sequence. -/
theorem routine_startPointerOp (binding : ObjectId) : Routine g d (d.startPointerOp binding) := by
  unfold startPointerOp
  split
  · exact Routine.refl d
  · split
    · exact Routine.refl d
    · exact Routine.manageDirty (routine_of_eq rfl rfl rfl)

/-- What a seat reports is about focus and drags, but for its name and its end. -/
theorem routine_seatEvent {seat : ObjectId} {event : SeatEvent}
    (h : d.seatEvent seat event = some d') (hremoved : event ≠ .removed)
    (hname : ∀ name, event ≠ .wlSeat name) : Routine State.books d d' := by
  cases event with
  | removed => exact absurd rfl hremoved
  | wlSeat name => exact absurd rfl (hname name)
  | opDelta dx dy => exact Option.some.inj h ▸ routine_applyPointerDelta dx dy
  | opRelease => exact Option.some.inj h ▸ routine_endPointerOp
  | pointerEnter window => exact routine_pointerEnter h
  | pointerLeave => exact Option.some.inj h ▸ routine_modifySeat seat fun _ => by rfl
  | windowInteraction window => exact routine_windowInteraction h
  | pointerPosition x y => exact Option.some.inj h ▸ routine_pointerPosition seat x y

/-! ## Actions -/

theorem routine_actionFocusStep {next : Bool} (h : d.actionFocusStep next = some d') :
    Routine State.books d d' := by
  obtain ⟨⟨s, changed⟩, hs, h⟩ := Option.bind_eq_some_iff.mp h
  obtain rfl := Option.some.inj h
  exact (routine_state (State.books_cycleFocus hs)).requestManageIf changed

/-- To focus a tag changes who owns it, and no object. -/
theorem routine_actionFocusTag {arg : Option (List Char)} (h : d.actionFocusTag arg = some d') :
    Routine State.books d d' := by
  unfold actionFocusTag at h
  split at h
  · exact Option.some.inj h ▸ Routine.refl d
  · dsimp only at h
    split at h
    · obtain ⟨s, hs, h⟩ := Option.bind_eq_some_iff.mp h
      obtain rfl := Option.some.inj h
      exact (routine_state (State.books_focusTag hs)).manageDirty.trans (routine_of_eq rfl rfl rfl)
    · exact Option.some.inj h ▸ routine_of_eq rfl rfl rfl

theorem routine_actionSendToTag {arg : Option (List Char)} (h : d.actionSendToTag arg = some d') :
    Routine State.books d d' := by
  unfold actionSendToTag at h
  split at h
  · exact Option.some.inj h ▸ Routine.refl d
  · split at h
    · obtain ⟨s, hs, h⟩ := Option.bind_eq_some_iff.mp h
      obtain rfl := Option.some.inj h
      exact (routine_state (State.books_sendFocusedToTag hs)).manageDirty
    · exact Option.some.inj h ▸ Routine.refl d

/-- A window is closed by the next manage sequence. -/
theorem routine_actionClose (h : d.actionClose = some d') : Routine State.books d d' := by
  obtain ⟨o, -, h⟩ := Option.bind_eq_some_iff.mp h
  cases o with
  | none => exact Option.some.inj h ▸ Routine.refl d
  | some fid =>
    obtain rfl := Option.some.inj h
    exact Routine.manageDirty (routine_of_eq rfl rfl rfl)

theorem routine_actionFullscreen (h : d.actionFullscreen = some d') : Routine State.books d d' := by
  obtain ⟨o, -, h⟩ := Option.bind_eq_some_iff.mp h
  split at h
  · exact Option.some.inj h ▸ (routine_modifyWindow _ fun _ => by rfl).manageDirty
  · exact Option.some.inj h ▸ Routine.refl d

theorem routine_actionFloat (h : d.actionFloat = some d') : Routine State.books d d' := by
  obtain ⟨o, -, h⟩ := Option.bind_eq_some_iff.mp h
  cases o with
  | none => exact Option.some.inj h ▸ Routine.refl d
  | some fid =>
    dsimp only at h
    split_ifs at h
    · obtain ⟨d₁, h₁, h⟩ := Option.bind_eq_some_iff.mp h
      exact Option.some.inj h ▸
        (routine_modifyStateM h₁ fun s hs => State.books_floatFrom hs).manageDirty
    · exact Option.some.inj h ▸ (routine_modifyWindow fid fun _ => by rfl).manageDirty

/-- To focus another output only schedules a warp. -/
theorem routine_actionFocusStepOutput (next : Bool) :
    Routine State.books d (d.actionFocusStepOutput next) := by
  have hstate : ∀ {s : State} {x : Option ℕ}, d.state.focusStepOutput next = (s, x) →
      s.books = d.state.books := by
    intro s x h
    unfold State.focusStepOutput at h
    dsimp only at h
    split_ifs at h <;> obtain ⟨rfl, -⟩ := Prod.mk.inj h <;> rfl
  unfold actionFocusStepOutput
  split
  · next s target h => exact Routine.manageDirty (routine_of_eq rfl (hstate h) rfl)
  · next s h => exact routine_state (hstate h)

/-- A resize action changes a split, which is no object. -/
theorem routine_actionResizeStep {delta : ℚ} (h : d.actionResizeStep delta = some d') :
    Routine State.ledger d d' := by
  obtain ⟨d₁, h₁, h⟩ := Option.bind_eq_some_iff.mp h
  exact Option.some.inj h ▸
    (routine_modifyStateM h₁ fun s hs => State.ledger_resizeStep hs).manageDirty

/-- An action that is not about splits. -/
theorem routine_runAction {action : String} (h : d.runAction action = some d')
    (hname : ¬(splitAction action).1.Resizes) : Routine State.books d d' := by
  unfold runAction at h
  generalize splitAction action = p at h hname
  obtain ⟨name, arg⟩ := p
  cases name with
  | spawnTerminal | spawnLauncher => exact Option.some.inj h ▸ routine_send rfl
  | spawn =>
    refine Option.some.inj h ▸ routine_sendAll fun r hr => ?_
    obtain ⟨cmd, -, rfl⟩ := Option.map_eq_some_iff.mp (Option.mem_toList.mp hr)
    rfl
  | close => exact routine_actionClose h
  | focusNext | focusPrev => exact routine_actionFocusStep h
  | focusTag => exact routine_actionFocusTag h
  | sendToTag => exact routine_actionSendToTag h
  | fullscreen => exact routine_actionFullscreen h
  | float => exact routine_actionFloat h
  | focusNextOutput | focusPrevOutput => exact Option.some.inj h ▸ routine_actionFocusStepOutput _
  | cycleLayout | unhandled => exact Option.some.inj h ▸ Routine.refl d
  | enterResizeMode | exitResizeMode | resizeStepLeft | resizeStepRight =>
    exact absurd trivial hname
  | quit => exact Option.some.inj h ▸ routine_of_eq rfl rfl rfl

/-- No action brings an object or takes one away. -/
theorem routine_runAction_ledger {action : String} (h : d.runAction action = some d') :
    Routine State.ledger d d' := by
  by_cases hname : (splitAction action).1.Resizes
  · unfold runAction at h
    generalize splitAction action = p at h hname
    obtain ⟨name, arg⟩ := p
    cases name with
    | enterResizeMode | exitResizeMode =>
      obtain rfl := Option.some.inj h
      exact Routine.manageDirty (routine_state rfl)
    | resizeStepLeft | resizeStepRight => exact routine_actionResizeStep h
    | _ => exact hname.elim
  · exact (routine_runAction h hname).ledger

/-! ## All routine events -/

/-- A command does no more to objects than an action. -/
theorem routine_applyCommand {cmd : Command} (h : d.applyCommand cmd = some d') :
    Routine State.books d d' := by
  obtain ⟨s, hs, h⟩ := Option.bind_eq_some_iff.mp h
  obtain rfl := Option.some.inj h
  have hstate : s.books = d.state.books := by
    unfold commandState at hs
    cases cmd with
    | focusTag tag output =>
      dsimp only at hs
      split at hs
      · exact State.books_focusTag hs
      · exact Option.some.inj hs ▸ rfl
    | sendToTag tag =>
      dsimp only at hs
      split at hs
      · exact State.books_sendFocusedToTag hs
      · exact Option.some.inj hs ▸ rfl
    | focusOutput name =>
      dsimp only at hs
      split at hs <;> exact Option.some.inj hs ▸ rfl
    | focusWindow appId title =>
      dsimp only at hs
      split at hs
      · exact State.books_commandFocusWindow hs
      · exact Option.some.inj hs ▸ rfl
    | spawn _ | quit | refresh => exact Option.some.inj hs ▸ rfl
  have hset := routine_state (g := State.books) hstate
  cases cmd with
  | spawn command =>
    dsimp only
    split_ifs
    · exact (hset.trans (routine_send rfl)).manageDirty
    · exact hset.manageDirty
  | quit => exact Routine.manageDirty (hset.trans (routine_of_eq rfl rfl rfl))
  | _ => exact hset.manageDirty

/-- What was left pending is flushed by asking for a manage sequence. -/
theorem routine_flushPending : Routine State.books d d.flushPending := by
  unfold flushPending
  split_ifs
  · exact Routine.manageDirty (routine_state rfl)
  · exact Routine.refl d

/-- A routine event other than the press of a binding leaves the books alone. -/
theorem routine_handle_books {event : Event} (hevent : event.Routine = true)
    (hpress : ∀ binding, event ≠ .bindingPressed binding) (h : d.handle event = some d') :
    Routine State.books d d' := by
  cases event with
  | newWindow _ | newOutput _ | newSeat _ | manageStart | renderStart _ => cases hevent
  | bindingPressed binding => exact absurd rfl (hpress binding)
  | unavailable | finished => exact Option.some.inj h ▸ routine_of_eq rfl rfl rfl
  | window window event =>
    refine routine_windowEvent h ?_
    rintro rfl
    cases hevent
  | output output event =>
    refine routine_outputEvent h ?_ ?_
    · rintro name rfl
      cases hevent
    · rintro rfl
      cases hevent
  | nonExclusiveArea layer x y width height => exact routine_nonExclusiveArea h
  | seat seat event =>
    refine routine_seatEvent h ?_ ?_
    · rintro rfl
      cases hevent
    · rintro name rfl
      cases hevent
  | wlOutputName global name => exact Option.some.inj h ▸ routine_wlOutputName global name
  | pointerBindingPressed binding => exact Option.some.inj h ▸ routine_startPointerOp binding
  | pointerBindingReleased binding => exact Option.some.inj h ▸ routine_endPointerOp
  | command cmd => exact routine_applyCommand h
  | statusRequest =>
    obtain ⟨snap, -, h⟩ := Option.bind_eq_some_iff.mp h
    exact Option.some.inj h ▸ routine_of_eq rfl rfl rfl
  | flushPending => exact Option.some.inj h ▸ routine_flushPending

/-- A routine event leaves the ledger alone and asks for a manage sequence at most. -/
theorem routine_handle {event : Event} (hevent : event.Routine = true)
    (h : d.handle event = some d') : Routine State.ledger d d' := by
  by_cases hpress : ∃ binding, event = .bindingPressed binding
  · obtain ⟨binding, rfl⟩ := hpress
    change d.dispatchAction binding = some d' at h
    unfold dispatchAction at h
    split at h
    · exact routine_runAction_ledger h
    · exact Option.some.inj h ▸ Routine.refl d
  · exact (routine_handle_books hevent (fun b hb => hpress ⟨b, hb⟩) h).ledger

end AppData

end Streamwm
