import Streamwm.EventLoop
import Streamwm.Change
import Streamwm.Snapshot

/-!
# What the handlers do

Every handler changes the state by operations of `Op`. `Handled` says so for handlers
that neither add nor remove windows or outputs nor apply fullscreen states : their
operations are `Local`, and they send no request that changes a mode river keeps
(`Request.Modal`). `Apart` says that a handler leaves seats and pointer operations alone,
and `Idle` is both. `Untouched` says that every window keeps its object and its render node;
a handler that is `Handled` and untouched is `Steady`, and `Inert` if it is idle as well.
Each handler gets one such lemma, on a well-formed state where the handler could panic
otherwise; the manage and render sequences follow in `Streamwm.Refinement`.
-/

namespace Streamwm

open Partial Transition

/-- The operations that keep windows and outputs and apply no fullscreen state. A focus
command names a window and its tag. -/
def State.Local (s : State) : Op → Prop
  | .addOutput _ | .removeOutput _ | .createWindow _ | .closeWindow _ | .applyFullscreen => False
  | .commandFocusWindow wid tag => ∃ w ∈ s.windows, w.id = wid ∧ w.tag = tag
  | _ => True

/-- A step of a local operation. -/
def State.LocalStep (s : State) (op : Op) (s' : State) : Prop :=
  s.Local op ∧ Op.Step s op s'

/-- The requests about fullscreen states. -/
def Request.OfFullscreen : Request → Bool
  | .fullscreen _ _ | .exitFullscreen _ => true
  | _ => false

/-- The requests about pointer operations. -/
def Request.OfPointerOp : Request → Bool
  | .opStartPointer _ _ | .opEnd _ => true
  | _ => false

/-- The requests that change the fullscreen states or pointer operations river keeps. -/
def Request.Modal (r : Request) : Bool :=
  r.OfFullscreen || r.OfPointerOp

/-- The requests river's render nodes depend on, and the one that depends on them. -/
def Request.OfNodes : Request → Bool
  | .getNode _ _ | .destroyNode _ | .setPosition _ _ _ | .placeTop _ | .show _ => true
  | _ => false

/-- The requests only a few handlers make. -/
def Request.Marked (r : Request) : Bool :=
  r.Modal || r.OfNodes

/-- The object of a window, and its render node. -/
def Window.held (w : Window) : ObjectId × Option ObjectId :=
  (w.proxy, w.node)

/-- The request of an object, if there is one. -/
theorem forall_mem_option (p : Request → Bool) {α : Type} {f : α → Request}
    (hf : ∀ a, p (f a) = false) (x : Option α) : ∀ r ∈ (x.map f).toList, p r = false := by
  cases x <;> simp [hf]

/-- The objects of a list are destroyed. -/
theorem forall_mem_destroy (p : Request → Bool) (hp : ∀ o, p (.destroy o) = false)
    (os : List ObjectId) : ∀ r ∈ os.map Request.destroy, p r = false := by
  intro r hr
  obtain ⟨o, -, rfl⟩ := List.mem_map.mp hr
  exact hp o

/-- Fields of a window that local operations other than those on tags and fullscreen
leave alone. -/
structure Window.Kept (w w' : Window) : Prop where
  proxy : w'.proxy = w.proxy
  id : w'.id = w.id
  tag : w'.tag = w.tag
  fullscreen : w'.fullscreen = true → w.fullscreen = true
  applied : w'.fullscreenApplied = w.fullscreenApplied

theorem Window.Kept.refl (w : Window) : Kept w w :=
  ⟨rfl, rfl, rfl, fun h => h, rfl⟩

/-- The same window with the same render node. -/
structure Window.Fixed (w w' : Window) : Prop extends Kept w w' where
  node : w'.node = w.node

theorem Window.Fixed.held {w w' : Window} (h : Fixed w w') : w'.held = w.held :=
  Prod.ext h.proxy h.node

namespace State

variable {s s' : State} {i : ℕ}

/-- One local operation. -/
theorem reachable_of_local (op : Op) (hop : s.Local op) (h : Op.Step s op s') :
    Reachable LocalStep s s' :=
  Reachable.refl.tail ⟨hop, h⟩

/-- Local operations keep all indices in range. -/
theorem wellFormed_of_reachable (h : Reachable LocalStep s s') (hs : s.WellFormed) :
    s'.WellFormed :=
  h.invariant (fun _ _ _ hs hstep => hstep.2.wellFormed hs) hs

/-- A change of windows that keeps each, of outputs out of the tags' sight, and of what
no operation reads. -/
theorem reachable_of_kept (hw : List.Forall₂ Window.Kept s.windows s'.windows)
    (ho : s'.outputs.map Output.sight = s.outputs.map Output.sight)
    (ht : s'.tags.map (·.output) = s.tags.map (·.output))
    (hf : s'.focusedOutput = s.focusedOutput) (hn : s'.nextWindowId = s.nextWindowId) :
    Reachable LocalStep s s' :=
  reachable_of_local .quiet trivial
    ⟨⟨ht, ho, hw.imp fun _ _ h => ⟨h.proxy, h.id, h.tag, h.fullscreen⟩, hf, hn⟩,
      hw.imp fun _ _ h => h.applied⟩

/-- The windows are changed, and what local operations keep of them stays. -/
theorem reachable_of_windows {ws : List Window} (hw : List.Forall₂ Window.Kept s.windows ws) :
    Reachable LocalStep s { s with windows := ws } :=
  reachable_of_kept hw rfl rfl rfl rfl

/-- Nothing that operations are about changes. -/
theorem reachable_of_same (hw : s'.windows = s.windows) (ho : s'.outputs = s.outputs)
    (ht : s'.tags = s.tags) (hf : s'.focusedOutput = s.focusedOutput)
    (hn : s'.nextWindowId = s.nextWindowId) : Reachable LocalStep s s' :=
  reachable_of_kept (hw ▸ List.forall₂_same.mpr fun w _ => Window.Kept.refl w) (by rw [ho])
    (by rw [ht]) hf hn

/-- One window is changed, and what local operations keep of it stays. -/
theorem reachable_modifyWindow (id : ℕ) {f : Window → Window} (hf : ∀ w, Window.Kept w (f w)) :
    Reachable LocalStep s (s.modifyWindow id f) :=
  reachable_of_windows (forall₂_modifyFirst Window.Kept.refl (fun w _ => hf w) s.windows)

/-- One output is changed, and the tag it shows stays. -/
theorem reachable_modifyOutput {p : Output → Bool} {f : Output → Output}
    (hf : ∀ o, (f o).sight = o.sight) : Reachable LocalStep s (s.modifyOutput p f) :=
  reachable_of_kept (List.forall₂_same.mpr fun w _ => Window.Kept.refl w)
    (map_modifyFirst Output.sight hf s.outputs) rfl rfl rfl

/-- To take fullscreen from the windows of a tag is local. -/
theorem reachable_clearFullscreenOnTag (t : ℕ) :
    Reachable LocalStep s (s.clearFullscreenOnTag t) := by
  refine reachable_of_windows ?_
  rw [List.forall₂_map_right_iff]
  refine List.forall₂_same.mpr fun w _ => ?_
  split_ifs
  · exact ⟨rfl, rfl, rfl, fun h => by simp at h, rfl⟩
  · exact Window.Kept.refl w

/-- A split is no index. -/
theorem reachable_setMasterFraction (t : ℕ) (q : ℚ) :
    Reachable LocalStep s (s.setMasterFraction t q) :=
  reachable_of_kept (List.forall₂_same.mpr fun w _ => Window.Kept.refl w) rfl
    (map_modify (·.output) (fun _ => by rfl) s.tags t) rfl rfl

end State

open State

/-- What a handler does that only makes local changes. -/
structure Handled (d d' : AppData) : Prop where
  steps : Reachable LocalStep d.state d'.state
  sent : ∃ rs, d'.sent = d.sent ++ rs ∧ ∀ r ∈ rs, r.Modal = false
  config : d'.config = d.config

/-- What a handler does that concerns no pointer operation and no seat. -/
structure Apart (d d' : AppData) : Prop where
  sent : ∃ rs, d'.sent = d.sent ++ rs ∧ ∀ r ∈ rs, r.Modal = false
  config : d'.config = d.config
  seats : d'.state.seats.map (·.proxy) = d.state.seats.map (·.proxy)
  pointerOp : d'.pointerOp = d.pointerOp
  pendingOp : d'.pendingOp = d.pendingOp
  opEndRequested : d'.opEndRequested = d.opEndRequested

/-- What a handler does that concerns no seat and no mode. -/
structure Idle (d d' : AppData) : Prop extends Handled d d', Apart d d'

/-- What a handler does that concerns no render node. -/
structure Untouched (d d' : AppData) : Prop where
  held : d'.state.windows.map Window.held = d.state.windows.map Window.held
  nextObject : d.nextObject ≤ d'.nextObject
  noNodes : ∃ rs, d'.sent = d.sent ++ rs ∧ ∀ r ∈ rs, r.OfNodes = false

/-- What a handler does that opens and closes nothing. -/
structure Steady (d d' : AppData) : Prop extends Handled d d', Untouched d d'

/-- What most handlers do. -/
structure Inert (d d' : AppData) : Prop extends Idle d d', Untouched d d'

variable {d d' d'' : AppData}

theorem Handled.refl (d : AppData) : Handled d d :=
  ⟨.refl, ⟨[], by simp, by simp⟩, rfl⟩

/-- What one handler does after another. -/
theorem Handled.trans (h : Handled d d') (h' : Handled d' d'') : Handled d d'' := by
  obtain ⟨rs, hrs, hm⟩ := h.sent
  obtain ⟨rs', hrs', hm'⟩ := h'.sent
  refine ⟨h.steps.trans h'.steps, ⟨rs ++ rs', by rw [hrs', hrs, List.append_assoc], ?_⟩,
    h'.config.trans h.config⟩
  intro r hr
  exact (List.mem_append.mp hr).elim (hm r) (hm' r)

/-- After a handler all indices are in range. -/
theorem Handled.wellFormed (h : Handled d d') (hs : d.state.WellFormed) : d'.state.WellFormed :=
  wellFormed_of_reachable h.steps hs

theorem Idle.refl (d : AppData) : Idle d d :=
  ⟨Handled.refl d, rfl, rfl, rfl, rfl⟩

theorem Apart.trans (h : Apart d d') (h' : Apart d' d'') : Apart d d'' := by
  obtain ⟨rs, hrs, hm⟩ := h.sent
  obtain ⟨rs', hrs', hm'⟩ := h'.sent
  refine ⟨⟨rs ++ rs', by rw [hrs', hrs, List.append_assoc], ?_⟩, h'.config.trans h.config,
    h'.seats.trans h.seats, h'.pointerOp.trans h.pointerOp, h'.pendingOp.trans h.pendingOp,
    h'.opEndRequested.trans h.opEndRequested⟩
  intro r hr
  exact (List.mem_append.mp hr).elim (hm r) (hm' r)

theorem Idle.trans (h : Idle d d') (h' : Idle d' d'') : Idle d d'' :=
  have hapart := h.toApart.trans h'.toApart
  ⟨h.toHandled.trans h'.toHandled, hapart.seats, hapart.pointerOp, hapart.pendingOp,
    hapart.opEndRequested⟩

/-- Requests about no mode river keeps. -/
theorem Idle.sendAll {rs : List Request} (h : Idle d d') (hr : ∀ r ∈ rs, r.Modal = false) :
    Idle d (d'.sendAll rs) :=
  h.trans ⟨⟨.refl, ⟨rs, rfl, hr⟩, rfl⟩, rfl, rfl, rfl, rfl⟩

theorem Idle.send {r : Request} (h : Idle d d') (hr : r.Modal = false) : Idle d (d'.send r) :=
  Idle.sendAll h (by simpa using hr : ∀ r' ∈ [r], r'.Modal = false)

theorem Untouched.refl (d : AppData) : Untouched d d :=
  ⟨rfl, le_refl _, [], by simp, by simp⟩

theorem Untouched.trans (h : Untouched d d') (h' : Untouched d' d'') : Untouched d d'' := by
  obtain ⟨rs, hrs, hm⟩ := h.noNodes
  obtain ⟨rs', hrs', hm'⟩ := h'.noNodes
  refine ⟨h'.held.trans h.held, h.nextObject.trans h'.nextObject,
    rs ++ rs', by rw [hrs', hrs, List.append_assoc], fun r hr => ?_⟩
  exact (List.mem_append.mp hr).elim (hm r) (hm' r)

/-- Requests about no render node. -/
theorem Untouched.sendAll {rs : List Request} (h : Untouched d d')
    (hr : ∀ r ∈ rs, r.OfNodes = false) : Untouched d (d'.sendAll rs) :=
  h.trans ⟨rfl, le_refl _, rs, rfl, hr⟩

theorem Untouched.send {r : Request} (h : Untouched d d') (hr : r.OfNodes = false) :
    Untouched d (d'.send r) :=
  Untouched.sendAll h (by simpa using hr : ∀ r' ∈ [r], r'.OfNodes = false)

theorem Steady.refl (d : AppData) : Steady d d :=
  ⟨Handled.refl d, Untouched.refl d⟩

theorem Steady.trans (h : Steady d d') (h' : Steady d' d'') : Steady d d'' :=
  ⟨h.toHandled.trans h'.toHandled, h.toUntouched.trans h'.toUntouched⟩

/-- A change outside the windows, and requests. -/
theorem steady_of_windows {rs : List Request} (h : Reachable LocalStep d.state d'.state)
    (hw : d'.state.windows = d.state.windows) (hsent : d'.sent = d.sent ++ rs)
    (hr : ∀ r ∈ rs, r.Marked = false) (hc : d'.config = d.config)
    (hn : d.nextObject ≤ d'.nextObject) : Steady d d' :=
  ⟨⟨h, ⟨rs, hsent, fun r hmem => (Bool.or_eq_false_iff.mp (hr r hmem)).1⟩, hc⟩,
    ⟨by rw [hw], hn, rs, hsent, fun r hmem => (Bool.or_eq_false_iff.mp (hr r hmem)).2⟩⟩

theorem Inert.refl (d : AppData) : Inert d d :=
  ⟨Idle.refl d, Untouched.refl d⟩

theorem Inert.trans (h : Inert d d') (h' : Inert d' d'') : Inert d d'' :=
  ⟨h.toIdle.trans h'.toIdle, h.toUntouched.trans h'.toUntouched⟩

/-- Requests about neither. -/
theorem Inert.sendAll {rs : List Request} (h : Inert d d') (hr : ∀ r ∈ rs, r.Marked = false) :
    Inert d (d'.sendAll rs) :=
  ⟨h.toIdle.sendAll fun r hmem => (Bool.or_eq_false_iff.mp (hr r hmem)).1,
    h.toUntouched.sendAll fun r hmem => (Bool.or_eq_false_iff.mp (hr r hmem)).2⟩

theorem Inert.send {r : Request} (h : Inert d d') (hr : r.Marked = false) :
    Inert d (d'.send r) :=
  Inert.sendAll h (by simpa using hr : ∀ r' ∈ [r], r'.Marked = false)

/-- Seats and operations apart, what most handlers do is steady. -/
theorem Inert.toSteady (h : Inert d d') : Steady d d' :=
  ⟨h.toHandled, h.toUntouched⟩

/-- To ask for a manage sequence changes nothing yet. -/
theorem Inert.manageDirty (h : Inert d d') : Inert d d'.manageDirty :=
  h.send rfl

/-! ## Changes that keep the nodes -/

/-- The operations that leave the list of windows to other operations. -/
def Op.KeepsNodes : Op → Prop
  | .createWindow _ | .closeWindow _ | .applyFullscreen | .quiet | .outputGeometry _ _ => False
  | _ => True

namespace State

variable {s s' : State} {op : Op}

/-- A window is changed, and its object and node stay. -/
theorem held_modifyWindow (id : ℕ) {f : Window → Window} (hf : ∀ w, (f w).held = w.held)
    (s : State) : (s.modifyWindow id f).windows.map Window.held = s.windows.map Window.held :=
  map_modifyFirst Window.held hf s.windows

/-- To leave fullscreen takes no node. -/
theorem held_clearFullscreenOnTag (t : ℕ) (s : State) :
    (s.clearFullscreenOnTag t).windows.map Window.held = s.windows.map Window.held := by
  change (s.windows.map _).map _ = _
  rw [List.map_map]
  refine List.map_congr_left fun w _ => ?_
  simp only [Function.comp_apply]
  split_ifs <;> rfl

/-- To move a floating window takes no node. -/
theorem held_clampFloatingWindows (s : State) :
    s.clampFloatingWindows.windows.map Window.held = s.windows.map Window.held := by
  unfold clampFloatingWindows
  split_ifs
  · rfl
  · rw [List.map_map]
    refine List.map_congr_left fun w _ => ?_
    simp only [Function.comp_apply, clampFloatingWindow]
    split_ifs
    · split
      · rfl
      · split_ifs <;> rfl
    · rfl

/-- An operation that neither opens nor closes a window keeps every window with its node. -/
theorem Change.held (h : Change s op s') (hop : op.KeepsNodes) :
    s'.windows.map Window.held = s.windows.map Window.held := by
  cases h with
  | same _ h => rw [h.windows]
  | @shows _ _ _ old _ _ h =>
    rcases h.windows with hw | ⟨-, hw⟩
    · rw [hw, held_clearFullscreenOnTag]
    · rw [hw]
  | sendNone _ => rfl
  | send h =>
    rw [h.windows]
    exact map_modifyFirst Window.held (fun _ => by rfl) s.windows
  | fullscreen wid => exact held_modifyWindow wid (fun _ => by rfl) s
  | @add proxy _ h =>
    have hsame := (validFocus_spec (s.withNewOutput proxy) (by simp [← List.length_pos_iff])).1
    rw [h.windows, hsame.windows, windows_withNewOutput]
  | removeNone _ => rfl
  | removeLast _ _ => rfl
  | remove _ _ h =>
    rw [held_clampFloatingWindows, h.windows]
    rfl
  | create _ | close _ | applyFullscreen _ | quiet _ _ | geometryNone _ _ _ _ | geometry _ _ =>
    exact hop.elim

/-- A repair after new geometry takes no node. -/
theorem held_outputGeometry (hs : s.WellFormed) {i : ℕ} {g : GeometryEvent}
    (h : (s.setGeometry i g).repairOutputs = some s') :
    s'.windows.map Window.held = s.windows.map Window.held := by
  obtain ⟨r, hr, hcase⟩ := outputGeometry_spec hs (i := i) g
  obtain rfl := Option.some.inj (hr.symm.trans h)
  rw [held_clampFloatingWindows]
  rcases hcase with ⟨-, rfl⟩ | ⟨-, hn⟩
  · rfl
  · rw [hn.windows]
    rfl

end State

namespace AppData

/-! ## Basic steps -/

theorem inert_requestManageIf (b : Bool) : Inert d (d.requestManageIf b) := by
  cases b
  · exact Inert.refl d
  · exact (Inert.refl d).manageDirty

/-- A local change of the state. -/
theorem inert_state {s : State} (h : Reachable LocalStep d.state s)
    (hseats : s.seats = d.state.seats)
    (hheld : s.windows.map Window.held = d.state.windows.map Window.held) :
    Inert d { d with state := s } :=
  ⟨⟨⟨h, ⟨[], by simp, by simp⟩, rfl⟩, by rw [hseats], rfl, rfl, rfl⟩,
    ⟨hheld, le_refl _, [], by simp, by simp⟩⟩

/-- A window is changed, and stays the same window. -/
theorem inert_modifyWindow (id : ℕ) {f : Window → Window} (hf : ∀ w, Window.Fixed w (f w)) :
    Inert d (d.modifyState fun s => s.modifyWindow id f) :=
  inert_state (reachable_modifyWindow id fun w => (hf w).toKept) rfl
    (held_modifyWindow id (fun w => (hf w).held) d.state)

theorem inert_markDirty : Inert d (d.modifyState State.markDirty) :=
  inert_state (reachable_of_same rfl rfl rfl rfl rfl) rfl rfl

/-- A seat is changed, and stays the same seat. -/
theorem inert_modifySeat (seat : ObjectId) {f : Seat → Seat} (hf : ∀ t, (f t).proxy = t.proxy) :
    Inert d (d.modifyState fun s => s.modifySeat seat f) :=
  ⟨⟨⟨reachable_of_same rfl rfl rfl rfl rfl, ⟨[], by simp [modifyState], by simp⟩, rfl⟩,
    map_modifyFirst (·.proxy) hf d.state.seats, rfl, rfl, rfl⟩,
    ⟨rfl, le_refl _, [], by simp [modifyState], by simp⟩⟩

/-- A change of the state by operations that leave the seats alone. -/
theorem inert_of_change {s : State} (op : Op) (hop : d.state.Local op) (hnodes : op.KeepsNodes)
    (h : Op.Step d.state op s) (hc : Change d.state op s) : Inert d { d with state := s } := by
  refine inert_state (reachable_of_local op hop h) (hc.seats ?_ ?_) (hc.held hnodes)
  · rintro rfl
    exact hnodes
  · rintro rfl
    exact hop

/-- A change outside the state, the requests and the pointer operations. -/
theorem inert_of_eq (hs : d'.state = d.state) (hr : d'.sent = d.sent) (hc : d'.config = d.config)
    (h₁ : d'.pointerOp = d.pointerOp) (h₂ : d'.pendingOp = d.pendingOp)
    (h₃ : d'.opEndRequested = d.opEndRequested) (hn : d.nextObject ≤ d'.nextObject) :
    Inert d d' :=
  ⟨⟨⟨hs ▸ .refl, ⟨[], by simp [hr], by simp⟩, hc⟩, by rw [hs], h₁, h₂, h₃⟩,
    ⟨by rw [hs], hn, [], by simp [hr], by simp⟩⟩

/-! ## Actions -/

/-- There is an output to ask for its focused window, or none at all. -/
theorem activeFocusedWindow_eq {s : State} (hs : s.WellFormed) :
    ∃ x, s.activeFocusedWindow = some x := by
  unfold State.activeFocusedWindow
  split
  · exact ⟨none, rfl⟩
  · next o ho =>
    rw [List.getElem?_eq_getElem (hs.activeOutput_lt ho)]
    exact ⟨_, rfl⟩

/-- Focus goes to the next window, or the one before. -/
theorem inert_actionFocusStep (hs : d.state.WellFormed) (next : Bool) :
    ∃ d', d.actionFocusStep next = some d' ∧ Inert d d' := by
  obtain ⟨s, changed, hcycle, hc⟩ := change_cycleFocus hs next
  have hstep := inert_of_change (.cycleFocus next) trivial trivial ⟨changed, hcycle⟩ hc
  exact ⟨_, by rw [actionFocusStep, hcycle]; rfl, hstep.trans (inert_requestManageIf changed)⟩

/-- A tag is shown, on its owner or on the focused output. -/
theorem inert_actionFocusTag (hs : d.state.WellFormed) (arg : Option (List Char)) :
    ∃ d', d.actionFocusTag arg = some d' ∧ Inert d d' := by
  unfold actionFocusTag
  split
  · exact ⟨d, rfl, Inert.refl d⟩
  next tag _ =>
  cases ho : d.state.activeOutput with
  | none => exact ⟨_, rfl, inert_of_eq rfl rfl rfl rfl rfl rfl (le_refl _)⟩
  | some o =>
    obtain ⟨s, hfocus, hc⟩ := change_focusTag hs (o := o) (t := tag)
    have hstep := inert_of_change (.focusTag o tag) trivial trivial hfocus hc
    refine ⟨_, by simp only [hfocus]; rfl, ?_⟩
    exact (hstep.manageDirty).trans (inert_of_eq rfl rfl rfl rfl rfl rfl (le_refl _))

/-- The focused window is sent. -/
theorem inert_actionSendToTag (arg : Option (List Char)) :
    ∃ d', d.actionSendToTag arg = some d' ∧ Inert d d' := by
  unfold actionSendToTag
  split
  · exact ⟨d, rfl, Inert.refl d⟩
  next tag _ =>
  cases ho : d.state.activeOutput with
  | none => exact ⟨d, rfl, Inert.refl d⟩
  | some o =>
    obtain ⟨s, hsend, hc⟩ := change_sendFocusedToTag (s := d.state) (o := o) (t := tag)
    have hstep := inert_of_change (.sendFocusedToTag o tag) trivial trivial hsend hc
    exact ⟨_, by simp only [hsend]; rfl, hstep.manageDirty⟩

/-- The focused window is put down for closing, and stays until then. -/
theorem inert_actionClose (hs : d.state.WellFormed) :
    ∃ d', d.actionClose = some d' ∧ Inert d d' := by
  obtain ⟨x, hx⟩ := activeFocusedWindow_eq hs
  cases x with
  | none => exact ⟨d, by simp [actionClose, hx], Inert.refl d⟩
  | some fid =>
    have hqueue : Inert d { d with pendingClose := d.pendingClose ++ [fid] } :=
      inert_of_eq rfl rfl rfl rfl rfl rfl (le_refl _)
    exact ⟨_, by rw [actionClose, hx]; rfl, hqueue.manageDirty⟩

/-- The flag of a window is set. -/
theorem inert_fullscreen (id : ℕ) :
    Inert d (d.modifyState fun s => s.modifyWindow id fun w => { w with fullscreen := true }) :=
  inert_state (reachable_of_local (.fullscreen id) trivial rfl) rfl
    (held_modifyWindow id (fun _ => by rfl) d.state)

/-- To leave fullscreen is local. -/
theorem inert_exitFullscreen (id : ℕ) :
    Inert d (d.modifyState fun s => s.modifyWindow id fun w => { w with fullscreen := false }) :=
  inert_modifyWindow id fun _ => ⟨⟨rfl, rfl, rfl, fun h => by simp at h, rfl⟩, rfl⟩

/-- The focused window enters or leaves fullscreen, and river is told later. -/
theorem inert_actionFullscreen (hs : d.state.WellFormed) :
    ∃ d', d.actionFullscreen = some d' ∧ Inert d d' := by
  obtain ⟨x, hx⟩ := activeFocusedWindow_eq hs
  cases hw : x.bind fun fid => d.state.findWindow fid with
  | none => exact ⟨d, by simp [actionFullscreen, hx, hw], Inert.refl d⟩
  | some w =>
    refine ⟨_, by simp only [actionFullscreen, hx, Option.bind_eq_bind, Option.bind_some, hw]; rfl,
      Inert.manageDirty ?_⟩
    obtain ⟨fid, -, hfind⟩ := Option.bind_eq_some_iff.mp hw
    obtain ⟨-, rfl⟩ := mem_of_findWindow hfind
    -- toggling the flag sets it or clears it
    have htoggle : ∀ b, w.fullscreen = b → (d.state.modifyWindow w.id fun w =>
        { w with fullscreen := !w.fullscreen }) =
        d.state.modifyWindow w.id fun w => { w with fullscreen := !b } := by
      intro b hb
      rw [State.modifyWindow, modifyFirst_congr hfind (by rw [hb])]
      rfl
    cases hb : w.fullscreen with
    | false =>
      have hset : Inert d (d.modifyState fun s => s.modifyWindow w.id fun w =>
          { w with fullscreen := !false }) := inert_fullscreen w.id
      rwa [modifyState, ← htoggle false hb] at hset
    | true =>
      have hclear : Inert d (d.modifyState fun s => s.modifyWindow w.id fun w =>
          { w with fullscreen := !true }) := inert_exitFullscreen w.id
      rwa [modifyState, ← htoggle true hb] at hclear

theorem fixed_float (geom : Option Geometry) (w : Window) : Window.Fixed w (match geom with
    | some g =>
      { w with floatX := g.x, floatY := g.y, floatW := g.width, floatH := g.height
               floating := true }
    | none => { w with floating := true }) := by
  cases geom <;> exact ⟨⟨rfl, rfl, rfl, fun h => h, rfl⟩, rfl⟩

/-- The focused window floats where it was tiled, or tiles again. -/
theorem inert_actionFloat (hs : d.state.WellFormed) :
    ∃ d', d.actionFloat = some d' ∧ Inert d d' := by
  obtain ⟨x, hx⟩ := activeFocusedWindow_eq hs
  cases x with
  | none => exact ⟨d, by simp [actionFloat, hx], Inert.refl d⟩
  | some fid =>
    simp only [actionFloat, hx, Option.bind_eq_bind, Option.bind_some]
    split_ifs
    · obtain ⟨gs, hgs⟩ := d.state.exists_computeAll d.config
      refine ⟨_, by simp only [modifyStateM, State.floatFrom, hgs]; rfl, ?_⟩
      exact (inert_modifyWindow fid fun w => fixed_float _ w).manageDirty
    · have hoff : Inert d (d.modifyState fun s =>
          s.modifyWindow fid fun w => { w with floating := false }) :=
        inert_modifyWindow fid fun _ => ⟨⟨rfl, rfl, rfl, fun h => h, rfl⟩, rfl⟩
      exact ⟨_, rfl, hoff.manageDirty⟩

/-- Focus goes to another output. -/
theorem inert_actionFocusStepOutput (next : Bool) : Inert d (d.actionFocusStepOutput next) := by
  unfold actionFocusStepOutput State.focusStepOutput
  by_cases hn : d.state.outputs.length > 1
  · rw [if_pos hn]
    have hlt : ∀ k, k % d.state.outputs.length < d.state.outputs.length := fun k =>
      Nat.mod_lt k (by omega)
    have hfocus : ∀ k, k < d.state.outputs.length → Inert d
        { d with state := d.state.setFocusedOutput k, pendingPointerWarp := some k } := fun k hk =>
      ⟨⟨⟨reachable_of_local (.focusOutput k) trivial ⟨hk, rfl⟩, ⟨[], by simp, by simp⟩, rfl⟩,
        rfl, rfl, rfl, rfl⟩, ⟨rfl, le_refl _, [], by simp, by simp⟩⟩
    refine (hfocus _ ?_).manageDirty
    split_ifs <;> exact hlt _
  · rw [if_neg hn]
    exact Inert.refl d

/-- A resize step changes a split and takes fullscreen from the tag. -/
theorem inert_actionResizeStep (hs : d.state.WellFormed) (delta : ℚ) :
    ∃ d', d.actionResizeStep delta = some d' ∧ Inert d d' := by
  have key : ∃ s, d.state.resizeStep delta = some s ∧ Reachable LocalStep d.state s ∧
      s.seats = d.state.seats ∧ s.windows.map Window.held = d.state.windows.map Window.held := by
    unfold State.resizeStep
    by_cases hmode : d.state.resizeMode = true
    · rw [if_pos hmode]
      cases ho : d.state.activeOutput with
      | none => exact ⟨_, rfl, .refl, rfl, rfl⟩
      | some o =>
        simp only [List.getElem?_eq_getElem (hs.activeOutput_lt ho), Option.bind_eq_bind,
          Option.bind_some]
        exact ⟨_, rfl, (reachable_setMasterFraction _ _).trans (reachable_clearFullscreenOnTag _),
          rfl, held_clearFullscreenOnTag _ _⟩
    · rw [if_neg hmode]
      exact ⟨_, rfl, .refl, rfl, rfl⟩
  obtain ⟨s, hs', hreach, hseats, hheld⟩ := key
  exact ⟨_, by simp only [actionResizeStep, modifyStateM, hs']; rfl,
    (inert_state hreach hseats hheld).manageDirty⟩

/-- No action fails on a well-formed state, whatever its argument. -/
theorem inert_runAction (hs : d.state.WellFormed) (action : String) :
    ∃ d', d.runAction action = some d' ∧ Inert d d' := by
  unfold runAction
  generalize splitAction action = p
  obtain ⟨name, arg⟩ := p
  cases name with
  | spawnTerminal => exact ⟨_, rfl, (Inert.refl d).send rfl⟩
  | spawnLauncher => exact ⟨_, rfl, (Inert.refl d).send rfl⟩
  | spawn =>
    exact ⟨_, rfl, (Inert.refl d).sendAll (forall_mem_option _ (fun _ => rfl) arg)⟩
  | close => exact inert_actionClose hs
  | focusNext => exact inert_actionFocusStep hs true
  | focusPrev => exact inert_actionFocusStep hs false
  | focusTag => exact inert_actionFocusTag hs arg
  | sendToTag => exact inert_actionSendToTag arg
  | fullscreen => exact inert_actionFullscreen hs
  | float => exact inert_actionFloat hs
  | focusNextOutput => exact ⟨_, rfl, inert_actionFocusStepOutput true⟩
  | focusPrevOutput => exact ⟨_, rfl, inert_actionFocusStepOutput false⟩
  | cycleLayout => exact ⟨_, rfl, Inert.refl d⟩
  | enterResizeMode =>
    have hmode : Inert d (d.modifyState State.toggleResizeMode) :=
      inert_state (reachable_of_same rfl rfl rfl rfl rfl) rfl rfl
    exact ⟨_, rfl, hmode.manageDirty⟩
  | exitResizeMode =>
    have hmode : Inert d (d.modifyState fun s => { s with resizeMode := false }) :=
      inert_state (reachable_of_same rfl rfl rfl rfl rfl) rfl rfl
    exact ⟨_, rfl, hmode.manageDirty⟩
  | resizeStepLeft => exact inert_actionResizeStep hs _
  | resizeStepRight => exact inert_actionResizeStep hs _
  | quit => exact ⟨_, rfl, inert_of_eq rfl rfl rfl rfl rfl rfl (le_refl _)⟩
  | unhandled => exact ⟨_, rfl, Inert.refl d⟩

/-- A binding runs its action, and an unknown one none. -/
theorem inert_dispatchAction (hs : d.state.WellFormed) (binding : ObjectId) :
    ∃ d', d.dispatchAction binding = some d' ∧ Inert d d' := by
  unfold dispatchAction
  split
  · exact inert_runAction hs _
  · exact ⟨d, rfl, Inert.refl d⟩

/-! ## Bindings and new seats -/

/-- A key is bound. -/
theorem inert_bindKey (seat : ObjectId) (bind : String × String × String) :
    Inert d (d.bindKey seat bind) := by
  unfold bindKey
  split
  · exact Inert.refl d
  · have hnew : Inert d { d with nextObject := d.nextObject + 1 } :=
      inert_of_eq rfl rfl rfl rfl rfl rfl (Nat.le_succ _)
    exact (hnew.send rfl).trans (inert_of_eq rfl rfl rfl rfl rfl rfl (le_refl _))

theorem inert_bindForSeat (seat : ObjectId) : Inert d (d.bindForSeat seat) :=
  foldl_of_trans Inert.refl (fun _ _ _ h h' => h.trans h') (fun _ bind => inert_bindKey seat bind)
    _ d

/-- A button is bound. -/
theorem inert_bindPointer (seat : ObjectId) (button : ℕ) (action : String) :
    Inert d (d.bindPointer seat button action) := by
  have hnew : Inert d { d with nextObject := d.nextObject + 1 } :=
    inert_of_eq rfl rfl rfl rfl rfl rfl (Nat.le_succ _)
  exact (hnew.send rfl).trans (inert_of_eq rfl rfl rfl rfl rfl rfl (le_refl _))

theorem inert_bindPointerForSeat (seat : ObjectId) : Inert d (d.bindPointerForSeat seat) :=
  (inert_bindPointer seat _ _).trans (inert_bindPointer seat _ _)

/-! ## Windows -/

/-- The area only moves and resizes the window. -/
theorem fixed_setAppId (w : Window) (appId : Option String) (shouldFloat : Bool)
    (area : Option (ℤ × ℤ × ℕ × ℕ)) : Window.Fixed w (w.setAppId appId shouldFloat area) := by
  unfold Window.setAppId
  split_ifs
  · cases area <;> exact ⟨⟨rfl, rfl, rfl, fun h => h, rfl⟩, rfl⟩
  · exact ⟨⟨rfl, rfl, rfl, fun h => h, rfl⟩, rfl⟩

theorem fixed_setParent (w parent : Window) (area : ℤ × ℤ × ℕ × ℕ) :
    Window.Fixed w (w.setParent parent area) := by
  unfold Window.setParent
  dsimp only
  split_ifs <;> exact ⟨⟨rfl, rfl, rfl, fun h => h, rfl⟩, rfl⟩

theorem inert_windowAppId (id : ℕ) (appId : Option String) : Inert d (d.windowAppId id appId) :=
  (inert_modifyWindow id fun w => fixed_setAppId w _ _ _).trans inert_markDirty

/-- A window may float over its parent. -/
theorem inert_windowParent (id : ℕ) (parent : Option ObjectId) :
    Inert d (d.windowParent id parent) := by
  unfold windowParent
  split
  · exact (inert_modifyWindow id fun w => fixed_setParent w _ _).trans inert_markDirty
  · exact inert_markDirty

/-- A dragged window floats where the layout has it. -/
theorem inert_floatForOp (wid : ℕ) : ∃ d', d.floatForOp wid = some d' ∧ Inert d d' := by
  obtain ⟨gs, hgs⟩ := d.state.exists_computeAll d.config
  refine ⟨_, by rw [floatForOp, hgs]; rfl, inert_modifyWindow wid fun w => ?_⟩
  split_ifs
  · exact ⟨Window.Kept.refl w, rfl⟩
  · exact fixed_float _ w

/-- What a window reports, but its end and the drags it asks for. -/
theorem inert_windowEvent (window : ObjectId) (event : WindowEvent) (h : ∀ id,
    d.state.findWindowByProxy window = some id → event ≠ .closed ∧
      (∀ seat, event ≠ .pointerMoveRequested seat) ∧
      ∀ seat edges, event ≠ .pointerResizeRequested seat edges) :
    ∃ d', d.windowEvent window event = some d' ∧ Inert d d' := by
  have hkeep : ∀ (id : ℕ) (f : Window → Window), (∀ w, Window.Fixed w (f w)) →
      Inert d (d.modifyState fun s => s.modifyWindow id f) := fun id f hf => inert_modifyWindow id hf
  unfold windowEvent
  split
  · exact ⟨d, rfl, Inert.refl d⟩
  next id hid =>
  obtain ⟨h₁, h₂, h₃⟩ := h id hid
  cases event with
  | closed => exact absurd rfl h₁
  | appId appId => exact ⟨_, rfl, inert_windowAppId id appId⟩
  | title title => exact ⟨_, rfl, hkeep id _ fun _ => ⟨⟨rfl, rfl, rfl, fun h => h, rfl⟩, rfl⟩⟩
  | dimensions width height => exact ⟨_, rfl, hkeep id _ fun _ => ⟨⟨rfl, rfl, rfl, fun h => h, rfl⟩, rfl⟩⟩
  | dimensionsHint a b c e => exact ⟨_, rfl, hkeep id _ fun _ => ⟨⟨rfl, rfl, rfl, fun h => h, rfl⟩, rfl⟩⟩
  | parent parent => exact ⟨_, rfl, inert_windowParent id parent⟩
  | pointerMoveRequested seat => exact absurd rfl (h₂ seat)
  | pointerResizeRequested seat edges => exact absurd rfl (h₃ seat edges)
  | fullscreenRequested => exact ⟨_, rfl, (inert_fullscreen id).manageDirty⟩
  | exitFullscreenRequested => exact ⟨_, rfl, (inert_exitFullscreen id).manageDirty⟩
  | maximizeRequested => exact ⟨d, rfl, Inert.refl d⟩
  | unmaximizeRequested => exact ⟨d, rfl, Inert.refl d⟩
  | minimizeRequested =>
    exact ⟨_, rfl, Inert.manageDirty (hkeep id _ fun _ => ⟨⟨rfl, rfl, rfl, fun h => h, rfl⟩, rfl⟩)⟩

/-- A window is forgotten, its requests are not about modes. -/
theorem apart_windowClosed (window : ObjectId) (w : Window) : Apart d (d.windowClosed window w) ∧
    (d.windowClosed window w).state = d.state.closeWindow window := by
  have hsend : Idle d ((d.sendAll (w.node.map Request.destroyNode).toList).send
      (.destroy w.proxy)) :=
    ((Idle.refl d).sendAll (forall_mem_option Request.Modal (fun _ => rfl) w.node)).send rfl
  exact ⟨⟨hsend.sent, hsend.config, hsend.seats, hsend.pointerOp, hsend.pendingOp,
    hsend.opEndRequested⟩, rfl⟩

/-- A change of the state that leaves the seats alone. -/
theorem apart_state {s : State} (hseats : s.seats = d.state.seats) :
    Apart d { d with state := s } :=
  ⟨⟨[], by simp, by simp⟩, rfl, by rw [hseats], rfl, rfl, rfl⟩

/-- A window is added. -/
theorem apart_newWindow (window : ObjectId) : Apart d (d.newWindow window) ∧
    (d.newWindow window).state = d.state.createWindow window :=
  ⟨apart_state rfl, rfl⟩

/-! ## Outputs -/

/-- New geometry is taken over, and the outputs repaired. -/
theorem inert_outputGeometry (hs : d.state.WellFormed) (idx : ℕ) (g : GeometryEvent) :
    ∃ d', d.outputGeometry idx g = some d' ∧ Inert d d' := by
  obtain ⟨s, hrepair, hc⟩ := change_outputGeometry hs idx g
  have hstep : Inert d { d with state := s } :=
    inert_state (reachable_of_local (.outputGeometry idx g) trivial hrepair)
      (hc.seats (by simp) (by simp)) (held_outputGeometry hs hrepair)
  exact ⟨_, by simp only [outputGeometry, modifyStateM, hrepair]; rfl, hstep.manageDirty⟩

/-- The global of an output is bound. -/
theorem inert_bindWlOutput (output : ObjectId) (name : ℕ) : Inert d (d.bindWlOutput output name) := by
  have hnew : Inert d { d with nextObject := d.nextObject + 1 } :=
    inert_of_eq rfl rfl rfl rfl rfl rfl (Nat.le_succ _)
  have hbind : Inert d ({ d with nextObject := d.nextObject + 1 }.send (.bind name d.nextObject)) :=
    hnew.send rfl
  exact hbind.trans (inert_state (reachable_modifyOutput fun _ => rfl) rfl rfl)

theorem inert_wlOutputName (global : ℕ) (name : String) : Inert d (d.wlOutputName global name) :=
  inert_state (reachable_modifyOutput fun _ => rfl) rfl rfl

theorem inert_nonExclusiveArea (hs : d.state.WellFormed) (layer : ObjectId) (x y width height : ℤ) :
    ∃ d', d.nonExclusiveArea layer x y width height = some d' ∧ Inert d d' := by
  unfold nonExclusiveArea
  split
  · exact inert_outputGeometry hs _ _
  · exact ⟨d, rfl, Inert.refl d⟩

/-- What an output reports, but its end. -/
theorem inert_outputEvent (hs : d.state.WellFormed) (output : ObjectId) (event : OutputEvent)
    (h : event ≠ .removed) : ∃ d', d.outputEvent output event = some d' ∧ Inert d d' := by
  cases event with
  | wlOutput name => exact ⟨_, rfl, inert_bindWlOutput output name⟩
  | removed => exact absurd rfl h
  | position x y =>
    simp only [outputEvent]
    cases d.state.findOutputByProxy output with
    | none => exact ⟨d, rfl, Inert.refl d⟩
    | some idx => exact inert_outputGeometry hs idx _
  | dimensions width height =>
    simp only [outputEvent]
    cases d.state.findOutputByProxy output with
    | none => exact ⟨d, rfl, Inert.refl d⟩
    | some idx => exact inert_outputGeometry hs idx _

/-- The objects of an output are destroyed, and its tags dealt out. -/
theorem apart_outputRemoved (hs : d.state.WellFormed) (idx : ℕ) (o : Output) :
    ∃ d', d.outputRemoved idx o = some d' ∧ Apart d d' ∧
      d.state.removeOutput idx = some d'.state ∧ Untouched d d' := by
  obtain ⟨s, hremove, hc⟩ := change_removeOutput hs idx
  have hmarked :
      ∀ r ∈ (o.layer.map Request.destroy).toList ++ (o.wlOutput.map Request.destroy).toList ++
      [.destroy o.proxy], r.Marked = false := by
    intro r hr
    simp only [List.mem_append, List.mem_singleton] at hr
    rcases hr with (hr | hr) | rfl
    · exact forall_mem_option _ (fun _ => rfl) o.layer r hr
    · exact forall_mem_option _ (fun _ => rfl) o.wlOutput r hr
    · rfl
  have hsent : Apart d (({ d with state := s, layerDefaultSet := false } : AppData).sendAll
      ((o.layer.map Request.destroy).toList ++ (o.wlOutput.map Request.destroy).toList ++
        [.destroy o.proxy])) :=
    ⟨⟨_, rfl, fun r hr => (Bool.or_eq_false_iff.mp (hmarked r hr)).1⟩, rfl,
      congrArg (List.map (·.proxy)) (hc.seats (by simp) (by simp)), rfl, rfl, rfl⟩
  have hnodes : Untouched d (({ d with state := s, layerDefaultSet := false } : AppData).sendAll
      ((o.layer.map Request.destroy).toList ++ (o.wlOutput.map Request.destroy).toList ++
        [.destroy o.proxy])) :=
    ⟨hc.held trivial, le_refl _, _, rfl, fun r hr => (Bool.or_eq_false_iff.mp (hmarked r hr)).2⟩
  exact ⟨_, by simp only [outputRemoved, modifyStateM, sendAll, hremove]; rfl,
    hsent.trans ((Idle.refl _).send rfl).toApart, hremove, hnodes.send rfl⟩

/-- The layer-shell object of the last output is stored. -/
theorem apart_newOutput (hs : d.state.WellFormed) (output : ObjectId) :
    ∃ d' s, d.newOutput output = some d' ∧ d.state.addOutput output = some s ∧ Apart d d' ∧
      Reachable LocalStep s d'.state ∧ Untouched d d' := by
  obtain ⟨s, hadd, hc⟩ := change_addOutput hs output
  have hstate : Apart d { d with state := s } := apart_state (hc.seats (by simp) (by simp))
  have hheld : s.windows.map Window.held = d.state.windows.map Window.held := hc.held trivial
  have hplain : Apart d { d with state := s } ∧ Reachable LocalStep s s ∧
      Untouched d { d with state := s } :=
    ⟨hstate, .refl, hheld, le_refl _, [], (List.append_nil _).symm, by simp⟩
  simp only [newOutput, modifyStateM, hadd, Option.bind_eq_bind, Option.bind_some, Option.pure_def]
  split_ifs
  · split
    · split_ifs
      · refine ⟨_, s, rfl, rfl, ⟨⟨[.layerGetOutput _ _], rfl,
          List.forall_mem_singleton.mpr rfl⟩, rfl, hstate.seats, rfl, rfl, rfl⟩, ?_,
          hheld, Nat.le_succ _, [.layerGetOutput _ _], rfl, List.forall_mem_singleton.mpr rfl⟩
        exact reachable_of_kept (List.forall₂_same.mpr fun w _ => Window.Kept.refl w)
          (map_modify Output.sight (fun _ => by rfl) s.outputs _) rfl rfl rfl
      · exact ⟨_, s, rfl, rfl, hplain⟩
    · exact ⟨_, s, rfl, rfl, hplain⟩
  · exact ⟨_, s, rfl, rfl, hplain⟩

/-! ## Seats -/

/-- The global of a seat is bound, and its devices. -/
theorem inert_bindWlSeat (seat : ObjectId) (name : ℕ) : Inert d (d.bindWlSeat seat name) := by
  have hmodal : ∀ (shape : Option ObjectId) (a b : ObjectId),
      ∀ r ∈ [Request.bind name a, .bind name b] ++ (shape.map fun d => Request.bind name d).toList,
        r.Marked = false := by
    intro shape a b r hr
    rcases List.mem_append.mp hr with hr | hr
    · simp only [List.mem_cons, List.not_mem_nil, or_false] at hr
      rcases hr with rfl | rfl <;> rfl
    · exact forall_mem_option Request.Marked (fun _ => rfl) shape r hr
  have hnew : Inert d { d with nextObject := d.nextObject + 1 + 1 + 1 } :=
    inert_of_eq rfl rfl rfl rfl rfl rfl (Nat.le_add_right d.nextObject 3)
  exact (hnew.sendAll (hmodal _ _ _)).trans (inert_modifySeat seat fun _ => rfl)

/-- Focus follows the pointer. -/
theorem inert_pointerEnter (seat window : ObjectId) :
    ∃ d', d.pointerEnter seat window = some d' ∧ Inert d d' := by
  unfold pointerEnter
  split
  · exact ⟨d, rfl, Inert.refl d⟩
  next wid _ =>
  have hseat : Inert d (d.modifyState fun s =>
      s.modifySeat seat fun t => { t with pointerWindow := some wid }) :=
    inert_modifySeat seat fun _ => rfl
  dsimp only
  split_ifs
  · obtain ⟨s, changed, hfocus, hc⟩ := change_focusWindow (s := (d.modifyState fun s =>
      s.modifySeat seat fun t => { t with pointerWindow := some wid }).state) wid
    have hstep := inert_of_change (.focusWindow wid) trivial trivial ⟨changed, hfocus⟩ hc
    exact ⟨_, by rw [hfocus]; rfl, hseat.trans (hstep.trans (inert_requestManageIf changed))⟩
  · exact ⟨_, rfl, hseat⟩

/-- A touched window is restored and gets the focus. -/
theorem inert_windowInteraction (window : ObjectId) :
    ∃ d', d.windowInteraction window = some d' ∧ Inert d d' := by
  unfold windowInteraction
  split
  · exact ⟨d, rfl, Inert.refl d⟩
  next wid _ =>
  have hshow : Inert d (d.modifyState fun s =>
      s.modifyWindow wid fun w => { w with minimized := false }) :=
    inert_modifyWindow wid fun _ => ⟨⟨rfl, rfl, rfl, fun h => h, rfl⟩, rfl⟩
  obtain ⟨s, changed, hfocus, hc⟩ := change_focusWindow (s := (d.modifyState fun s =>
    s.modifyWindow wid fun w => { w with minimized := false }).state) wid
  have hstep := inert_of_change (.focusWindow wid) trivial trivial ⟨changed, hfocus⟩ hc
  exact ⟨_, by dsimp only; rw [hfocus]; rfl, hshow.trans hstep⟩

/-- The output under the pointer gets the focus. -/
theorem inert_pointerPosition (seat : ObjectId) (x y : ℤ) : Inert d (d.pointerPosition seat x y) := by
  have hseat : Inert d (d.modifyState fun s =>
      s.modifySeat seat fun t => { t with pointerX := x, pointerY := y }) :=
    inert_modifySeat seat fun _ => rfl
  unfold pointerPosition
  dsimp only
  split_ifs
  · split
    · next i hi =>
      split_ifs
      · have hlt := (List.findIdx?_eq_some_iff_getElem.mp hi).1
        have hfocus : Inert (d.modifyState fun s =>
            s.modifySeat seat fun t => { t with pointerX := x, pointerY := y })
            ((d.modifyState fun s =>
              s.modifySeat seat fun t => { t with pointerX := x, pointerY := y }).modifyState
                fun s => s.setFocusedOutput i) :=
          inert_state (reachable_of_local (.focusOutput i) trivial ⟨hlt, rfl⟩) rfl rfl
        exact hseat.trans (hfocus.manageDirty)
      · exact hseat
    · exact hseat
  · exact hseat

/-- A drag moves and resizes its window. -/
theorem inert_applyPointerDelta (dx dy : ℤ) : Inert d (d.applyPointerDelta dx dy) := by
  have hdrag : ∀ (op : PointerOp) (w : Window), Window.Fixed w (op.drag dx dy w) := by
    intro op w
    cases h : op.kind <;> simp only [PointerOp.drag, h] <;> exact ⟨⟨rfl, rfl, rfl, fun h => h, rfl⟩, rfl⟩
  unfold applyPointerDelta
  split
  · exact Inert.refl d
  · next op _ => exact inert_modifyWindow op.window (hdrag op)

/-- The pointer operation and seat events change the three queues and the seats only. -/
theorem steady_endPointerOp : Steady d d.endPointerOp := by
  unfold endPointerOp
  split_ifs
  · exact steady_of_windows .refl rfl rfl (List.forall_mem_singleton.mpr rfl) rfl (le_refl _)
  · exact Steady.refl d

/-- An operation is staged for the manage sequence. -/
theorem steady_startPointerOp (binding : ObjectId) : Steady d (d.startPointerOp binding) := by
  unfold startPointerOp
  split
  · exact Steady.refl d
  · split
    · exact Steady.refl d
    · exact steady_of_windows .refl rfl rfl (List.forall_mem_singleton.mpr rfl) rfl (le_refl _)

/-- The dragged window floats, and its operation is staged. -/
theorem steady_startInteractiveOp (wid : ℕ) (seat : ObjectId) (kind : OpKind) (edges : Edges) :
    ∃ d', d.startInteractiveOp wid seat kind edges = some d' ∧ Steady d d' := by
  obtain ⟨d₁, hfloat, hidle⟩ := inert_floatForOp (d := d) wid
  simp only [startInteractiveOp, hfloat, Option.bind_eq_bind, Option.bind_some, Option.pure_def]
  split
  · exact ⟨d₁, rfl, hidle.toSteady⟩
  · exact ⟨_, rfl, hidle.toSteady.trans
      (steady_of_windows .refl rfl rfl (List.forall_mem_singleton.mpr rfl) rfl (le_refl _))⟩

/-- The requests destroy objects, and the seat's operations are forgotten. -/
theorem steady_seatRemoved (seat : ObjectId) : Steady d (d.seatRemoved seat) := by
  have hbind : Steady d (d.dropBindings seat) := by
    refine steady_of_windows .refl rfl (List.append_assoc ..) (fun r hr => ?_) rfl (le_refl _)
    rcases List.mem_append.mp hr with hr | hr <;>
    · obtain ⟨b, -, rfl⟩ := List.mem_map.mp hr
      rfl
  have hforget : ∀ d₁ : AppData, Steady d₁ (d₁.forgetOps seat) := by
    intro d₁
    unfold forgetOps
    dsimp only
    split_ifs <;>
      exact steady_of_windows .refl rfl (List.append_nil _).symm (by simp) rfl (le_refl _)
  have hrelease : ∀ d₁ : AppData, Steady d₁ (d₁.releaseSeat seat) := fun d₁ =>
    steady_of_windows (reachable_of_same rfl rfl rfl rfl rfl) rfl rfl
      (forall_mem_destroy _ (fun _ => rfl) _) rfl (le_refl _)
  exact (hbind.trans (hforget _)).trans (hrelease _)

/-- A new seat is appended, and its bindings and layer-shell object are requested. -/
theorem steady_newSeat (seat : ObjectId) : Steady d (d.newSeat seat) ∧
    (d.newSeat seat).state.seats.map (·.proxy) = d.state.seats.map (·.proxy) ++ [seat] ∧
      (d.newSeat seat).pointerOp = d.pointerOp ∧ (d.newSeat seat).pendingOp = d.pendingOp ∧
        (d.newSeat seat).opEndRequested = d.opEndRequested := by
  have hpush : Steady d (d.modifyState fun s => { s with seats := s.seats ++ [Seat.new seat] }) :=
    steady_of_windows (reachable_of_same rfl rfl rfl rfl rfl) rfl (List.append_nil _).symm
      (by simp) rfl (le_refl _)
  have hidle : Inert (d.modifyState fun s => { s with seats := s.seats ++ [Seat.new seat] })
      (d.newSeat seat) := by
    unfold newSeat
    dsimp only
    generalize hd₁ : (d.modifyState fun s => { s with seats := s.seats ++ [Seat.new seat] }) = d₁
    have hxkb : Inert d₁ (if d₁.xkb then d₁.bindForSeat seat else d₁) := by
      split_ifs
      · exact inert_bindForSeat seat
      · exact Inert.refl d₁
    have hbound := hxkb.trans (inert_bindPointerForSeat seat)
    revert hbound
    generalize (if d₁.xkb then d₁.bindForSeat seat else d₁).bindPointerForSeat seat = d₂
    intro hbound
    refine hbound.trans ?_
    split_ifs
    · split
      · split_ifs
        · have hlayer : Steady d₂ ((d₂.allocate.2.send
              (.layerGetSeat seat d₂.allocate.1)).modifyState fun s =>
                { s with seats := s.seats.modify (s.seats.length - 1) fun t =>
                    { t with layer := some d₂.allocate.1 } }) :=
            steady_of_windows (reachable_of_same rfl rfl rfl rfl rfl) rfl rfl
              (List.forall_mem_singleton.mpr rfl) rfl (Nat.le_succ _)
          exact ⟨⟨hlayer.toHandled, map_modify (·.proxy) (fun _ => by rfl) d₂.state.seats _, rfl, rfl,
            rfl⟩, hlayer.toUntouched⟩
        · exact Inert.refl d₂
      · exact Inert.refl d₂
    · exact Inert.refl d₂
  refine ⟨hpush.trans hidle.toSteady, ?_, hidle.pointerOp, hidle.pendingOp, hidle.opEndRequested⟩
  rw [hidle.seats]
  simp [modifyState, Seat.new]

/-- What a seat reports, but its end and that of a drag. -/
theorem inert_seatEvent (seat : ObjectId) (event : SeatEvent) (h₁ : event ≠ .removed)
    (h₂ : event ≠ .opRelease) : ∃ d', d.seatEvent seat event = some d' ∧ Inert d d' := by
  cases event with
  | removed => exact absurd rfl h₁
  | wlSeat name => exact ⟨_, rfl, inert_bindWlSeat seat name⟩
  | pointerEnter window => exact inert_pointerEnter seat window
  | pointerLeave => exact ⟨_, rfl, inert_modifySeat seat fun _ => rfl⟩
  | windowInteraction window => exact inert_windowInteraction window
  | opDelta dx dy => exact ⟨_, rfl, inert_applyPointerDelta dx dy⟩
  | opRelease => exact absurd rfl h₂
  | pointerPosition x y => exact ⟨_, rfl, inert_pointerPosition seat x y⟩

/-! ## The status socket -/

/-- What a command does to the state, it does by operations. -/
theorem inert_commandState (hs : d.state.WellFormed) (cmd : Command) :
    ∃ s, d.commandState cmd = some s ∧ Inert d { d with state := s } := by
  cases cmd with
  | focusTag tag output =>
    simp only [commandState]
    split
    · next o _ =>
      obtain ⟨s, hfocus, hc⟩ := change_focusTag hs (o := o) (t := tag)
      exact ⟨s, hfocus, inert_of_change (.focusTag o tag) trivial trivial hfocus hc⟩
    · exact ⟨_, rfl, Inert.refl d⟩
  | sendToTag tag =>
    simp only [commandState]
    split
    · next o _ =>
      obtain ⟨s, hsend, hc⟩ := change_sendFocusedToTag (s := d.state) (o := o) (t := tag)
      exact ⟨s, hsend, inert_of_change (.sendFocusedToTag o tag) trivial trivial hsend hc⟩
    · exact ⟨_, rfl, Inert.refl d⟩
  | focusOutput name =>
    simp only [commandState]
    split
    · next i hi =>
      have hlt := (List.findIdx?_eq_some_iff_getElem.mp hi).1
      exact ⟨_, rfl, inert_state (reachable_of_local (.focusOutput i) trivial ⟨hlt, rfl⟩) rfl rfl⟩
    · exact ⟨_, rfl, Inert.refl d⟩
  | focusWindow appId title =>
    simp only [commandState]
    split
    · next w hw =>
      obtain ⟨s, hfocus, hc⟩ := change_commandFocusWindow (s := d.state) (t := w.tag) w.id
      exact ⟨s, hfocus, inert_of_change (.commandFocusWindow w.id w.tag)
        ⟨w, List.mem_of_find?_eq_some hw, rfl, rfl⟩ trivial hfocus hc⟩
    · exact ⟨_, rfl, Inert.refl d⟩
  | spawn command => exact ⟨_, rfl, Inert.refl d⟩
  | quit => exact ⟨_, rfl, Inert.refl d⟩
  | refresh => exact ⟨_, rfl, Inert.refl d⟩

/-- No command fails on a well-formed state. -/
theorem inert_applyCommand (hs : d.state.WellFormed) (cmd : Command) :
    ∃ d', d.applyCommand cmd = some d' ∧ Inert d d' := by
  obtain ⟨s, hstate, hidle⟩ := inert_commandState hs cmd
  refine ⟨_, by simp only [applyCommand, hstate]; rfl, Inert.manageDirty ?_⟩
  split
  · split_ifs
    · exact hidle.send rfl
    · exact hidle
  · exact hidle.trans (inert_of_eq rfl rfl rfl rfl rfl rfl (le_refl _))
  · exact hidle

/-- A snapshot is built and published, if anybody listens. -/
theorem inert_refreshSnapshot (hs : d.state.WellFormed) (hasClients : Bool) :
    ∃ d', d.refreshSnapshot hasClients = some d' ∧ Inert d d' ∧ d'.state = d.state ∧
      d'.sent = d.sent := by
  obtain ⟨snap, hsnap, -⟩ := buildSnapshot_spec hs.inRange
  cases hasClients with
  | false => exact ⟨d, rfl, Inert.refl d, rfl, rfl⟩
  | true =>
    exact ⟨{ d with published := d.published ++ [snap] },
      by simp only [refreshSnapshot, hsnap]; rfl,
      inert_of_eq rfl rfl rfl rfl rfl rfl (le_refl _), rfl, rfl⟩

/-- A snapshot is built for the client that asked. -/
theorem inert_serviceStatusRequest (hs : d.state.WellFormed) :
    ∃ d', d.serviceStatusRequest = some d' ∧ Inert d d' := by
  obtain ⟨snap, hsnap, -⟩ := buildSnapshot_spec hs.inRange
  exact ⟨{ d with answers := d.answers ++ [snap] }, by simp only [serviceStatusRequest, hsnap]; rfl,
    inert_of_eq rfl rfl rfl rfl rfl rfl (le_refl _)⟩

theorem inert_flushPending : Inert d d.flushPending := by
  unfold flushPending
  split_ifs
  · have hclear : Inert d (d.modifyState fun s => { s with pendingApply := false }) :=
      inert_state (reachable_of_same rfl rfl rfl rfl rfl) rfl rfl
    exact hclear.manageDirty
  · exact Inert.refl d

end AppData

end Streamwm
