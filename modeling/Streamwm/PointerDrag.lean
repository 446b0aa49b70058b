import Streamwm.PointerAgreement
import Streamwm.Render

/-!
# Pointer operations from the press to the last delta

What a press or a client's request stages, and where the deltas that follow leave the
window. `op_delta` carries the motion since the operation started.

`startPointerOp_acts_iff` : a press of a binding acts on the seat the binding was created
for exactly when the first seat whose pointer is over a window is that seat, or neither
window floats.

`Drag op d d' dx dy` is an operation as it runs : it was staged in a reachable context, started
by a later manage sequence that ends in `d`, and followed by motion, the last of which is the
delta `(dx, dy)`. Whatever happened before it started, it starts from what was recorded when it was
staged (`PointerOp.origin`), which is the window's geometry then (`Drag.anchored`); in `d'` the
window is where `PointerOp.drag` puts it (`Drag.spec`). The three laws of a drag then are
arithmetic on `PointerOp.drag`. They fail where the pointer's position
at the start, which the deltas do not include, is subtracted from them, or where the minimum
size is enforced on the size alone; `Drag.follows_pointer_iff`, `Drag.opposite_edge_fixed_iff`
and `Drag.undragged_axes_kept_iff` say exactly when.
-/

namespace Streamwm

open Partial Transition

/-! ## Which seat a press acts on -/

namespace AppData

variable {data : AppData} {binding seat : ObjectId} {action : String}

variable (data) in
/-- The seat of an object and the floating window under its pointer. -/
def floatingUnder (seat : ObjectId) : Option (Seat × Window) :=
  (data.state.seats.find? fun s => s.proxy == seat).bind fun s =>
    ((s.pointerWindow.bind data.state.findWindow).filter (·.floating)).map fun w => (s, w)

variable (data) in
/-- The first seat whose pointer is over a window, and that window's id. -/
def firstPointing : Option (Seat × ℕ) :=
  data.state.seats.findSome? fun s => s.pointerWindow.map fun w => (s, w)

/-- The operation a press with this action starts on a seat and a window. -/
def pressedOp (action : String) (seat : Seat) (w : Window) : PointerOp :=
  let kind := if action = "move" then OpKind.move else OpKind.resize
  { window := w.id, kind, startX := seat.pointerX, startY := seat.pointerY
    startFloatX := w.floatX, startFloatY := w.floatY, startW := w.floatW, startH := w.floatH
    edges := if kind = .resize then { Edges.empty with bottom := true, right := true }
      else Edges.empty
    seat := seat.proxy }

variable (data) in
/-- Stage an operation, if there is one. -/
def stage (op : Option PointerOp) : AppData :=
  match op with
  | none => data
  | some op => { data with pendingOp := some op }.manageDirty

/-- What a press does. -/
theorem startPointerOp_eq
    (hb : data.pointerBindings.find? (fun b => b.1 == binding) = some (binding, action, seat)) :
    data.startPointerOp binding =
      data.stage (data.pointedWindow.map fun p => pressedOp action p.1 p.2) := by
  unfold startPointerOp
  rw [hb]
  cases data.pointedWindow <;> rfl

/-- Staging is seen : two stagings that leave the same context stage the same. -/
theorem stage_inj {x y : Option PointerOp} (h : data.stage x = data.stage y) : x = y := by
  have hsent : ∀ op : PointerOp, data.stage (some op) ≠ data := by
    intro op heq
    have := congrArg (fun d => d.sent.length) heq
    simp [stage, manageDirty, send] at this
  cases x with
  | none =>
    cases y with
    | none => rfl
    | some op => exact absurd h.symm (hsent op)
  | some op =>
    cases y with
    | none => exact absurd h (hsent op)
    | some op' => exact congrArg (fun d => d.pendingOp) h

theorem pointedWindow_eq : data.pointedWindow = data.firstPointing.bind fun p =>
    ((data.state.findWindow p.2).filter (·.floating)).map fun w => (p.1, w) := by
  unfold pointedWindow firstPointing
  split
  · next h => rw [h, Option.bind_none]
  · next h => rw [h, Option.bind_some]

/-- The first pointing seat, by two searches. -/
theorem firstPointing_eq_some {s : Seat} {wid : ℕ} (h : data.firstPointing = some (s, wid)) :
    data.state.seats.find? (·.pointerWindow.isSome) = some s ∧ s.pointerWindow = some wid := by
  unfold firstPointing at h
  generalize data.state.seats = seats at h
  induction seats with
  | nil => simp at h
  | cons t seats ih =>
    rw [List.findSome?_cons] at h
    cases hw : t.pointerWindow with
    | none =>
      rw [hw] at h
      rw [List.find?_cons_of_neg (by simp [hw])]
      exact ih h
    | some wid' =>
      rw [hw] at h
      obtain ⟨rfl, rfl⟩ := Prod.mk.inj (Option.some.inj h)
      exact ⟨List.find?_cons_of_pos (by simp [hw]), hw⟩

theorem floatingUnder_eq_some {s : Seat} {w : Window}
    (h : data.floatingUnder seat = some (s, w)) :
    data.state.seats.find? (fun t => t.proxy == seat) = some s ∧ s.proxy = seat ∧
      s.pointerWindow.isSome = true := by
  obtain ⟨t, ht, hmap⟩ := Option.bind_eq_some_iff.mp h
  obtain ⟨v, hv, hpair⟩ := Option.map_eq_some_iff.mp hmap
  obtain ⟨rfl, rfl⟩ := Prod.mk.inj hpair
  obtain ⟨wid, hwid, -⟩ := Option.bind_eq_some_iff.mp (Option.filter_eq_some_iff.mp hv).1
  exact ⟨ht, by simpa using List.find?_some ht, by rw [hwid]; rfl⟩

variable (data) in
/-- The first seat whose pointer is over a window is this one, or neither the window there
nor the one under this seat's pointer exists and floats. -/
def OwnFirst (seat : ObjectId) : Prop :=
  ∀ s wid, data.firstPointing = some (s, wid) →
    data.state.seats.find? (fun t => t.proxy == seat) = some s ∨
      ((data.state.findWindow wid).filter (·.floating) = none ∧ data.floatingUnder seat = none)

/-- A press of a binding stages the operation on the floating window under the pointer of
the binding's own seat, and none when there is no such window, exactly when that seat is the
first to point. -/
theorem startPointerOp_acts_iff
    (hb : data.pointerBindings.find? (fun b => b.1 == binding) = some (binding, action, seat)) :
    data.startPointerOp binding =
        data.stage ((data.floatingUnder seat).map fun p => pressedOp action p.1 p.2) ↔
      data.OwnFirst seat := by
  rw [startPointerOp_eq hb]
  constructor
  · intro h s wid hfirst
    have hops := stage_inj h
    rw [pointedWindow_eq, hfirst, Option.bind_some] at hops
    cases hw : (data.state.findWindow wid).filter (·.floating) with
    | none =>
      rw [hw, Option.map_none, Option.map_none, eq_comm, Option.map_eq_none_iff] at hops
      exact .inr ⟨rfl, hops⟩
    | some w =>
      rw [hw, Option.map_some, Option.map_some, eq_comm] at hops
      obtain ⟨⟨t, v⟩, hunder, hop⟩ := Option.map_eq_some_iff.mp hops
      obtain ⟨hfind, hproxy, hpoints⟩ := floatingUnder_eq_some hunder
      have hseat : t.proxy = s.proxy := congrArg PointerOp.seat hop
      have hsame : s = t := eq_of_find? (firstPointing_eq_some hfirst).1 hfind
        (by simp [← hseat, hproxy]) hpoints
      exact .inl (hsame ▸ hfind)
  · intro h
    congr 2
    rw [pointedWindow_eq]
    cases hfirst : data.firstPointing with
    | none =>
      rw [Option.bind_none, eq_comm, Option.eq_none_iff_forall_ne_some]
      rintro ⟨s, w⟩ hunder
      obtain ⟨hfind, -, hpoints⟩ := floatingUnder_eq_some hunder
      have hnone := List.findSome?_eq_none_iff.mp hfirst s (List.mem_of_find?_eq_some hfind)
      rw [Option.map_eq_none_iff] at hnone
      simp [hnone] at hpoints
    | some p =>
      obtain ⟨s, wid⟩ := p
      rw [Option.bind_some]
      rcases h s wid hfirst with hfind | ⟨hfirst', hunder⟩
      · rw [floatingUnder, hfind, Option.bind_some, (firstPointing_eq_some hfirst).2,
          Option.bind_some]
      · rw [hfirst', hunder, Option.map_none]

/-- Two seats, each with its pointer over a floating window of its own. -/
def twoPointers : List Event :=
  [.newWindow 102, .newWindow 103, .newSeat 110, .newSeat 111,
    .window 102 (.pointerMoveRequested 110), .window 103 (.pointerMoveRequested 111),
    .seat 110 (.pointerEnter 102), .seat 111 (.pointerEnter 103)]

/-- The first seat's binding acts on the window under its pointer. -/
theorem startPointerOp_acts_first : ∃ d, Reachable Step (AppData.new .default false false false) d ∧
    d.startPointerOp 0 = d.stage ((d.floatingUnder 110).map fun p => pressedOp "move" p.1 p.2) ∧
      (d.floatingUnder 110).isSome = true := by
  obtain ⟨d, hd, hb, hown, hsome⟩ : ∃ d,
      twoPointers.foldlM handle (AppData.new .default false false false) = some d ∧
      d.pointerBindings.find? (fun b => b.1 == 0) = some (0, "move", 110) ∧
      d.firstPointing.map (·.1) = d.state.seats.find? (fun t => t.proxy == 110) ∧
      (d.floatingUnder 110).isSome = true := ⟨_, rfl, rfl, rfl, rfl⟩
  refine ⟨d, reachable_of_foldlM _ hd, (startPointerOp_acts_iff hb).mpr fun s wid hfirst => ?_,
    hsome⟩
  rw [hfirst] at hown
  exact .inl hown.symm

/-- The second seat's binding acts on the first seat, and the window under its pointer. -/
theorem startPointerOp_acts_on_other :
    ∃ d, Reachable Step (AppData.new .default false false false) d ∧
      d.pointerBindings.find? (fun b => b.1 == 2) = some (2, "move", 111) ∧
      d.startPointerOp 2 ≠
        d.stage ((d.floatingUnder 111).map fun p => pressedOp "move" p.1 p.2) := by
  obtain ⟨d, hd, hb, hpressed, hown⟩ : ∃ d,
      twoPointers.foldlM handle (AppData.new .default false false false) = some d ∧
      d.pointerBindings.find? (fun b => b.1 == 2) = some (2, "move", 111) ∧
      (d.startPointerOp 2).pendingOp.map (·.seat) = some 110 ∧
      (d.stage ((d.floatingUnder 111).map fun p => pressedOp "move" p.1 p.2)).pendingOp.map
        (·.seat) = some 111 := ⟨_, rfl, rfl, rfl, rfl⟩
  refine ⟨d, reachable_of_foldlM _ hd, hb, fun heq => ?_⟩
  rw [heq, hown] at hpressed
  exact absurd hpressed (by decide)

end AppData

/-! ## Where the deltas leave the window -/

/-- The same window, at the same place and size. -/
structure Window.SameBox (w w' : Window) : Prop where
  id : w'.id = w.id
  floating : w'.floating = w.floating
  floatX : w'.floatX = w.floatX
  floatY : w'.floatY = w.floatY
  floatW : w'.floatW = w.floatW
  floatH : w'.floatH = w.floatH

/-- The operation has recorded the window's geometry. -/
structure PointerOp.AnchoredAt (op : PointerOp) (w : Window) : Prop where
  startFloatX : op.startFloatX = w.floatX
  startFloatY : op.startFloatY = w.floatY
  startW : op.startW = w.floatW
  startH : op.startH = w.floatH

namespace Window

variable {w w' w'' : Window}

theorem SameBox.refl (w : Window) : SameBox w w :=
  ⟨rfl, rfl, rfl, rfl, rfl, rfl⟩

theorem SameBox.trans (h : SameBox w w') (h' : SameBox w' w'') : SameBox w w'' :=
  ⟨h'.id.trans h.id, h'.floating.trans h.floating, h'.floatX.trans h.floatX,
    h'.floatY.trans h.floatY, h'.floatW.trans h.floatW, h'.floatH.trans h.floatH⟩

/-- The fullscreen block leaves the box alone. -/
theorem Managed.sameBox (h : Managed w w') : SameBox w w' := by
  obtain ⟨_, _, _, _, rfl, -⟩ := h
  exact ⟨rfl, rfl, rfl, rfl, rfl, rfl⟩

theorem sameBox_setTiled (w : Window) : SameBox w w.setTiled.1 := by
  obtain ⟨t, ht, -⟩ := w.setTiled_spec
  rw [ht]
  exact ⟨rfl, rfl, rfl, rfl, rfl, rfl⟩

end Window

namespace PointerOp

variable (op : PointerOp)

/-- The window from which the operation moves it : the place it has recorded, and for a resize the
size. -/
def origin (w : Window) : Window :=
  match op.kind with
  | .move => { w with floatX := op.startFloatX, floatY := op.startFloatY }
  | .resize =>
    { w with floatX := op.startFloatX, floatY := op.startFloatY
             floatW := op.startW, floatH := op.startH }

/-- The operation starts with the window there. -/
structure StartsAt (w : Window) : Prop where
  startFloatX : op.startFloatX = w.floatX
  startFloatY : op.startFloatY = w.floatY
  startW : op.kind = .resize → op.startW = w.floatW
  startH : op.kind = .resize → op.startH = w.floatH

theorem startsAt_origin (w : Window) : op.StartsAt (op.origin w) := by
  unfold origin
  cases hkind : op.kind with
  | move =>
    refine ⟨rfl, rfl, fun h => ?_, fun h => ?_⟩
    · cases hkind.symm.trans h
    · cases hkind.symm.trans h
  | resize => exact ⟨rfl, rfl, fun _ => rfl, fun _ => rfl⟩

/-- A window that stays where it was recorded is there. -/
theorem AnchoredAt.origin_eq {op : PointerOp} {w : Window} (h : op.AnchoredAt w) :
    op.origin w = w := by
  unfold origin
  rw [h.startFloatX, h.startFloatY, h.startW, h.startH]
  cases op.kind <;> rfl

theorem drag_origin (dx dy : ℤ) (w : Window) : op.drag dx dy (op.origin w) = op.drag dx dy w := by
  unfold drag origin
  cases op.kind <;> rfl

/-- A delta overrides the one before : it carries the whole motion. -/
theorem drag_drag (dx dy dx' dy' : ℤ) (w : Window) :
    op.drag dx dy (op.drag dx' dy' w) = op.drag dx dy w := by
  unfold drag
  cases op.kind <;> rfl

@[simp] theorem drag_id (dx dy : ℤ) (w : Window) : (op.drag dx dy w).id = w.id := by
  unfold drag
  cases op.kind <;> rfl

end PointerOp

namespace State

variable {s : State} {id : ℕ} {w : Window}

theorem findWindow_modifyWindow {f : Window → Window} (hf : ∀ w, (f w).id = w.id) :
    (s.modifyWindow id f).findWindow id = (s.findWindow id).map f := by
  refine find?_modifyFirst (fun w hw => ?_) s.windows
  rw [hf]
  exact hw

end State

namespace AppData

variable {data data' : AppData} {op : PointerOp} {event : Event} {id : ℕ} {w : Window}

/-- A manage sequence leaves the boxes alone. -/
theorem sameBox_onManageStart (hs : data.state.WellFormed) (h : data.onManageStart = some data') :
    List.Forall₂ Window.SameBox data.state.windows data'.state.windows := by
  obtain ⟨d₁, d', hd', hstate, -, -, hfinal⟩ := onManageStart_spec hs
  obtain rfl := Option.some.inj (hd'.symm.trans h)
  have hwindows : data.state.windows = d₁.state.windows := by
    rw [hstate, (State.same_refocused data.state).windows]
  rw [hfinal, hwindows]
  change List.Forall₂ _ d₁.state.windows ((d₁.state.windows.map _).map _)
  rw [List.map_map, List.forall₂_map_right_iff]
  exact List.forall₂_same.mpr fun w _ =>
    (w.managed_manage _ _ _ _).sameBox.trans (Window.sameBox_setTiled _)

/-- The operation a manage sequence leaves running is the one that was staged. -/
theorem pointerOp_onManageStart (hs : data.state.WellFormed)
    (h : data.onManageStart = some data') (hpending : data.pendingOp = some op) {op' : PointerOp}
    (hop : data'.pointerOp = some op') : op' = op := by
  obtain ⟨d', hd', -, -, hpointer, -⟩ := onManageStart_ops hs
  obtain rfl := Option.some.inj (hd'.symm.trans h)
  rw [hpointer, hpending] at hop
  split_ifs at hop
  exact (Option.some.inj hop).symm

/-! ### Staging -/

end AppData

namespace Window

/-- A window that floats, from its cell if it did not. -/
def floated (geom : Option Geometry) (w : Window) : Window :=
  if w.floating then w
  else
    match geom with
    | some g =>
      { w with floatX := g.x, floatY := g.y, floatW := g.width, floatH := g.height
               floating := true }
    | none => { w with floating := true }

@[simp] theorem floated_id (geom : Option Geometry) (w : Window) : (w.floated geom).id = w.id := by
  unfold floated
  split_ifs
  · rfl
  · split <;> rfl

@[simp] theorem floating_floated (geom : Option Geometry) (w : Window) :
    (w.floated geom).floating = true := by
  unfold floated
  split_ifs with h
  · exact h
  · split <;> rfl

end Window

namespace AppData

theorem floatForOp_eq (data : AppData) (id : ℕ) : ∃ geom, data.floatForOp id =
    some (data.modifyState fun s => s.modifyWindow id (Window.floated geom)) := by
  obtain ⟨gs, hgs⟩ := data.state.exists_computeAll data.config
  refine ⟨(gs.find? fun p => p.1 == id).map (·.2), ?_⟩
  rw [floatForOp, hgs]
  rfl

variable {data data' : AppData} {op : PointerOp} {event : Event} {id : ℕ} {w : Window}

/-- A press anchors the operation it stages. -/
theorem anchored_startPointerOp (binding : ObjectId) (hne : data.startPointerOp binding ≠ data) :
    ∃ op w, (data.startPointerOp binding).pendingOp = some op ∧
      (data.startPointerOp binding).state.findWindow op.window = some w ∧ w.floating = true ∧
      op.AnchoredAt w := by
  unfold startPointerOp at hne ⊢
  split at hne
  · exact absurd rfl hne
  · split at hne
    · exact absurd rfl hne
    · next seat w hpoint =>
      simp only
      rw [pointedWindow_eq] at hpoint
      obtain ⟨p, -, hmap⟩ := Option.bind_eq_some_iff.mp hpoint
      obtain ⟨v, hv, hpair⟩ := Option.map_eq_some_iff.mp hmap
      obtain ⟨rfl, rfl⟩ := Prod.mk.inj hpair
      obtain ⟨hfind, hfloat⟩ := Option.filter_eq_some_iff.mp hv
      refine ⟨_, v, rfl, ?_, hfloat, ⟨rfl, rfl, rfl, rfl⟩⟩
      exact (State.mem_of_findWindow hfind).2.symm ▸ hfind

/-- A window that is known is found by its id. -/
theorem exists_findWindow {window : ObjectId}
    (h : data.state.findWindowByProxy window = some id) :
    ∃ w, data.state.findWindow id = some w := by
  obtain ⟨w, hw, rfl⟩ := Option.map_eq_some_iff.mp h
  exact State.exists_findWindow_id (List.mem_of_find?_eq_some hw)

/-- A request anchors the operation it stages at the window, once that floats. -/
theorem anchored_startInteractiveOp {seat : ObjectId} {kind : OpKind} {edges : Edges}
    (hw : data.state.findWindow id = some w)
    (h : data.startInteractiveOp id seat kind edges = some data') :
    ∃ op w, data'.pendingOp = some op ∧ data'.state.findWindow op.window = some w ∧
      w.floating = true ∧ op.AnchoredAt w := by
  obtain ⟨geom, hfloat⟩ := data.floatForOp_eq id
  have hv : (data.state.modifyWindow id (Window.floated geom)).findWindow id =
      some (w.floated geom) :=
    (State.findWindow_modifyWindow (Window.floated_id geom)).trans (congrArg (Option.map _) hw)
  simp only [startInteractiveOp, hfloat, Option.bind_eq_bind, Option.bind_some, modifyState] at h
  rw [hv] at h
  obtain rfl := Option.some.inj h
  exact ⟨_, w.floated geom, rfl, hv, Window.floating_floated geom w, ⟨rfl, rfl, rfl, rfl⟩⟩

end AppData

/-- The events that stage an operation. -/
def Event.stagesOp : Event → Bool
  | .pointerBindingPressed _ => true
  | .window _ (.pointerMoveRequested _) => true
  | .window _ (.pointerResizeRequested _ _) => true
  | _ => false

namespace AppData

variable {data data' : AppData} {op : PointerOp} {event : Event} {w : Window}

/-- An event that stages an operation anchors it, unless it is ignored. -/
theorem Step.anchored (h : Step data event data') (hevent : event.stagesOp = true)
    (hne : data' ≠ data) :
    ∃ op w, data'.pendingOp = some op ∧ data'.state.findWindow op.window = some w ∧
      w.floating = true ∧ op.AnchoredAt w := by
  cases event with
  | pointerBindingPressed binding =>
    obtain rfl := Option.some.inj h
    exact anchored_startPointerOp binding hne
  | window window e =>
    change data.windowEvent window e = some data' at h
    cases hid : data.state.findWindowByProxy window with
    | none =>
      rw [windowEvent, hid] at h
      exact absurd (Option.some.inj h).symm hne
    | some id =>
      obtain ⟨w, hw⟩ := exists_findWindow hid
      cases e with
      | pointerMoveRequested seat =>
        rw [windowEvent, hid] at h
        exact anchored_startInteractiveOp hw h
      | pointerResizeRequested seat edges =>
        rw [windowEvent, hid] at h
        exact anchored_startInteractiveOp hw h
      | _ => cases hevent
  | _ => cases hevent

end AppData

/-! ### Deltas -/

/-- The events of a drag : motion, and the sequences river runs meanwhile. -/
def Event.ofDrag : Event → Bool
  | .seat _ (.opDelta _ _) => true
  | .seat _ (.pointerPosition _ _) => true
  | .manageStart => true
  | .renderStart _ => true
  | _ => false

/-- An event during which the operation goes on. -/
def DragStep (op : PointerOp) (d : AppData) (event : Event) (d' : AppData) : Prop :=
  event.ofDrag = true ∧ d.Step event d' ∧ d'.pointerOp = some op

/-- `w'` is the window `w`, wherever the operation has dragged it. -/
def PointerOp.Drags (op : PointerOp) (w w' : Window) : Prop :=
  w'.id = w.id ∧ ∀ dx dy, (op.drag dx dy w).SameBox (op.drag dx dy w')

namespace PointerOp

variable {op : PointerOp} {w w' w'' : Window}

theorem Drags.refl (w : Window) : op.Drags w w :=
  ⟨rfl, fun dx dy => Window.SameBox.refl (op.drag dx dy w)⟩

theorem Drags.trans (h : op.Drags w w') (h' : op.Drags w' w'') : op.Drags w w'' :=
  ⟨h'.1.trans h.1, fun dx dy => (h.2 dx dy).trans (h'.2 dx dy)⟩

/-- The rest of a window plays no part in a drag. -/
theorem drags_of_sameBox (h : w.SameBox w') : op.Drags w w' := by
  refine ⟨h.id, fun dx dy => ?_⟩
  unfold drag
  cases op.kind with
  | move => exact ⟨h.id, h.floating, rfl, rfl, h.floatW, h.floatH⟩
  | resize => exact ⟨h.id, h.floating, rfl, rfl, rfl, rfl⟩

theorem drags_drag (dx dy : ℤ) (w : Window) : op.Drags w (op.drag dx dy w) := by
  refine ⟨op.drag_id dx dy w, fun dx' dy' => ?_⟩
  rw [op.drag_drag]
  exact Window.SameBox.refl _

end PointerOp

theorem Window.Rendered.sameBox {w w' : Window} (h : w.Rendered w') : w.SameBox w' := by
  obtain ⟨border, node, rfl⟩ := h
  exact ⟨rfl, rfl, rfl, rfl, rfl, rfl⟩

namespace AppData

variable {data data' : AppData} {op : PointerOp} {w : Window}

theorem findWindow_applyPointerDelta (hop : data.pointerOp = some op)
    (hw : data.state.findWindow op.window = some w) (dx dy : ℤ) :
    (data.applyPointerDelta dx dy).state.findWindow op.window = some (op.drag dx dy w) := by
  unfold applyPointerDelta
  rw [hop]
  exact (State.findWindow_modifyWindow (op.drag_id dx dy)).trans (congrArg (Option.map _) hw)

theorem windows_pointerPosition (seat : ObjectId) (x y : ℤ) :
    (data.pointerPosition seat x y).state.windows = data.state.windows := by
  unfold pointerPosition
  dsimp only
  split_ifs
  · split
    · split_ifs <;> rfl
    · rfl
  · rfl

/-- While the operation goes on, only the operation moves its window. -/
theorem findWindow_dragStep {event : Event} (hs : data.state.WellFormed)
    (hop : data.pointerOp = some op) (hw : data.state.findWindow op.window = some w)
    (h : DragStep op data event data') :
    ∃ w', data'.state.findWindow op.window = some w' ∧ op.Drags w w' := by
  obtain ⟨hevent, hstep, -⟩ := h
  have hbox (hboxes : List.Forall₂ Window.SameBox data.state.windows data'.state.windows) :
      ∃ w', data'.state.findWindow op.window = some w' ∧ op.Drags w w' := by
    obtain ⟨w', hw', hsame⟩ := State.findWindow_of_forall₂ (fun _ _ h => h.id) hboxes hw
    exact ⟨w', hw', PointerOp.drags_of_sameBox hsame⟩
  cases event with
  | manageStart => exact hbox (sameBox_onManageStart hs hstep)
  | renderStart hasClients =>
    exact hbox ((rendered_onRenderStart hs hstep).imp fun _ _ h => h.sameBox)
  | seat seat e =>
    cases e with
    | opDelta dx dy =>
      obtain rfl := Option.some.inj hstep
      exact ⟨_, findWindow_applyPointerDelta hop hw dx dy, PointerOp.drags_drag dx dy w⟩
    | pointerPosition x y =>
      obtain rfl := Option.some.inj hstep
      refine ⟨w, ?_, PointerOp.Drags.refl w⟩
      rw [State.findWindow, windows_pointerPosition]
      exact hw
    | _ => cases hevent
  | _ => cases hevent

/-- Over a whole drag too. -/
theorem findWindow_dragSteps (hs : data.state.WellFormed) (hop : data.pointerOp = some op)
    (hw : data.state.findWindow op.window = some w)
    (h : Reachable (DragStep op) data data') : data'.pointerOp = some op ∧
      ∃ w', data'.state.findWindow op.window = some w' ∧ op.Drags w w' := by
  have hinv := h.invariant (I := fun d => d.state.WellFormed ∧ d.pointerOp = some op ∧
      ∃ w', d.state.findWindow op.window = some w' ∧ op.Drags w w')
    (fun d event d' hd hstep => by
      obtain ⟨hwf, hop, v, hv, hdrags⟩ := hd
      obtain ⟨w', hw', hdrags'⟩ := findWindow_dragStep hwf hop hv hstep
      exact ⟨(Step.wellFormed hwf hstep.2.1).1, hstep.2.2, w', hw', hdrags.trans hdrags'⟩)
    ⟨hs, hop, w, hw, PointerOp.Drags.refl w⟩
  exact hinv.2

end AppData

/-! ## Three laws of a drag -/

/-- An operation as it runs : staged in a reachable context, started by the manage sequence
that ends in `d`, whatever comes before that, and followed by motion, the last of which is the delta
`(dx, dy)`. -/
structure Drag (op : PointerOp) (d d' : AppData) (dx dy : ℤ) : Prop where
  started : ∃ config xkb layerShell cursorShapeManager data event staged d₀,
    Reachable AppData.Step (AppData.new config xkb layerShell cursorShapeManager) data ∧
      event.stagesOp = true ∧ data.Step event staged ∧ staged ≠ data ∧
      staged.pendingOp = some op ∧ Reachable AppData.Step staged d₀ ∧ d₀.Step .manageStart d
  running : d.pointerOp = some op
  /-- The window has not been closed meanwhile. -/
  known : ∃ w, d.state.findWindow op.window = some w
  dragged : ∃ seat d₁, Reachable (DragStep op) d d₁ ∧ d₁.Step (.seat seat (.opDelta dx dy)) d'

/-- The law holds between the operation's window as it starts in `d` and the same window in `d'`. -/
def PointerOp.Keeps (op : PointerOp) (d d' : AppData) (law : Window → Window → Prop) : Prop :=
  ∃ w w', d.state.findWindow op.window = some w ∧ d'.state.findWindow op.window = some w' ∧
    law (op.origin w) w'

namespace Drag

variable {op : PointerOp} {d d' : AppData} {dx dy : ℤ}

/-- The operation has recorded its window's geometry when it was staged, and the window floats. -/
theorem anchored (h : Drag op d d' dx dy) : ∃ staged w, Reachable AppData.Step staged d ∧
    staged.state.findWindow op.window = some w ∧ w.floating = true ∧ op.AnchoredAt w := by
  obtain ⟨_, _, _, _, data, event, staged, d₀, -, hevent, hstage, hne, hpending, hbetween, hstart⟩ :=
    h.started
  obtain ⟨op', w, hpending', hw, hfl, hanchor⟩ := hstage.anchored hevent hne
  obtain rfl := Option.some.inj (hpending.symm.trans hpending')
  exact ⟨staged, w, hbetween.tail hstart, hw, hfl, hanchor⟩

/-- The last delta says where the window is. -/
theorem spec (h : Drag op d d' dx dy) : ∃ w w', d.state.findWindow op.window = some w ∧
    d'.state.findWindow op.window = some w' ∧ (op.drag dx dy w).SameBox w' := by
  obtain ⟨_, _, _, _, data, event, staged, d₀, hreach, -, hstage, -, -, hbetween, hstart⟩ := h.started
  have hs : d.state.WellFormed :=
    (AppData.reachable_state (((hreach.tail hstage).trans hbetween).tail hstart)).1
  obtain ⟨w, hw⟩ := h.known
  obtain ⟨seat, d₁, hdrags, hlast⟩ := h.dragged
  obtain ⟨hop, w₁, hw₁, hwhere⟩ := AppData.findWindow_dragSteps hs h.running hw hdrags
  obtain rfl := Option.some.inj hlast
  exact ⟨w, _, hw, AppData.findWindow_applyPointerDelta hop hw₁ dx dy, hwhere.2 dx dy⟩

/-- An operation that starts with the manage sequence after the event that stages it : the window
starts where it is. -/
theorem of_prompt {config : Config} {xkb layerShell cursorShapeManager : Bool}
    {data staged : AppData} {event : Event}
    (hreach : Reachable AppData.Step (AppData.new config xkb layerShell cursorShapeManager) data)
    (hevent : event.stagesOp = true) (hstage : data.Step event staged) (hne : staged ≠ data)
    (hstart : staged.Step .manageStart d) (hrunning : d.pointerOp = some op)
    (hdragged : ∃ seat d₁, Reachable (DragStep op) d d₁ ∧
      d₁.Step (.seat seat (.opDelta dx dy)) d') :
    Drag op d d' dx dy ∧ ∃ w, d.state.findWindow op.window = some w ∧ w.floating = true ∧
      op.origin w = w := by
  obtain ⟨op', v, hpending, hv, hfl, hanchor⟩ := hstage.anchored hevent hne
  have hs : staged.state.WellFormed := (AppData.reachable_state (hreach.tail hstage)).1
  obtain rfl := AppData.pointerOp_onManageStart hs hstart hpending hrunning
  obtain ⟨w, hw, hbox⟩ := State.findWindow_of_forall₂ (fun _ _ h => h.id)
    (AppData.sameBox_onManageStart hs hstart) hv
  have hanchor' : op.AnchoredAt w :=
    ⟨hanchor.startFloatX.trans hbox.floatX.symm, hanchor.startFloatY.trans hbox.floatY.symm,
      hanchor.startW.trans hbox.floatW.symm, hanchor.startH.trans hbox.floatH.symm⟩
  refine ⟨⟨?_, hrunning, ⟨w, hw⟩, hdragged⟩, w, hw, hbox.floating.trans hfl, hanchor'.origin_eq⟩
  exact ⟨config, xkb, layerShell, cursorShapeManager, data, event, staged, staged, hreach, hevent,
    hstage, hne, hpending, .refl, hstart⟩

/-- A law of the two windows is one of `PointerOp.drag`. -/
theorem keeps_iff (h : Drag op d d' dx dy) {law : Window → Window → Prop} {P : Prop}
    (hlaw : ∀ w w', op.StartsAt w → (op.drag dx dy w).SameBox w' → (law w w' ↔ P)) :
    op.Keeps d d' law ↔ P := by
  obtain ⟨w, w', hw, hw', hbox⟩ := h.spec
  have hiff := hlaw (op.origin w) w' (op.startsAt_origin w) ((op.drag_origin dx dy w).symm ▸ hbox)
  refine Iff.trans ⟨?_, fun h => ⟨w, w', hw, hw', h⟩⟩ hiff
  rintro ⟨v, v', hv, hv', h⟩
  obtain rfl := Option.some.inj (hw.symm.trans hv)
  obtain rfl := Option.some.inj (hw'.symm.trans hv')
  exact h

end Drag

/-! ### Motion -/

/-- A move follows the motion; without motion the window is as it was. -/
def PointerOp.Follows (op : PointerOp) (dx dy : ℤ) (w w' : Window) : Prop :=
  (op.kind = .move → w'.floatX = w.floatX + dx ∧ w'.floatY = w.floatY + dy) ∧
    (50 ≤ w.floatW → 50 ≤ w.floatH → dx = 0 → dy = 0 → w.SameBox w')

/-- When a resize without motion keeps one axis : the pointer was at 0, or the window is at
its minimum and the pointer's position would shrink it. -/
def AtRest (origin : Bool) (start : ℤ) (size : ℕ) : Prop :=
  start = 0 ∨ (origin = false ∧ size = 50 ∧ 0 ≤ start)

/-- The edge opposite to the dragged one stays where it was. -/
def PointerOp.OppositeFixed (op : PointerOp) (w w' : Window) : Prop :=
  (if op.edges.left then w'.floatX + w'.floatW = w.floatX + w.floatW
    else w'.floatX = w.floatX) ∧
    if op.edges.top then w'.floatY + w'.floatH = w.floatY + w.floatH
    else w'.floatY = w.floatY

/-- An axis without a dragged edge keeps its position and size. -/
def PointerOp.AxesKept (op : PointerOp) (w w' : Window) : Prop :=
  (op.edges.left = false → op.edges.right = false →
    w'.floatX = w.floatX ∧ w'.floatW = w.floatW) ∧
    (op.edges.top = false → op.edges.bottom = false →
      w'.floatY = w.floatY ∧ w'.floatH = w.floatH)

namespace PointerOp

variable {op : PointerOp} {dx dy : ℤ} {w w' : Window}

theorem drag_of_move (hkind : op.kind = .move) (hbox : (op.drag dx dy w).SameBox w') :
    w'.floatX = op.startFloatX + (dx - op.startX) ∧
      w'.floatY = op.startFloatY + (dy - op.startY) ∧
      w'.floatW = w.floatW ∧ w'.floatH = w.floatH := by
  have h := hbox
  unfold drag at h
  rw [hkind] at h
  exact ⟨h.floatX, h.floatY, h.floatW, h.floatH⟩

/-- Where a resize leaves the window, axis by axis. -/
theorem drag_of_resize (hkind : op.kind = .resize) (hbox : (op.drag dx dy w).SameBox w') :
    (w'.floatX = if op.edges.left then op.startFloatX + (dx - op.startX) else op.startFloatX) ∧
      ((w'.floatW : ℤ) = max (if op.edges.left then op.startW - (dx - op.startX)
        else op.startW + (dx - op.startX)) 50) ∧
      (w'.floatY = if op.edges.top then op.startFloatY + (dy - op.startY) else op.startFloatY) ∧
      ((w'.floatH : ℤ) = max (if op.edges.top then op.startH - (dy - op.startY)
        else op.startH + (dy - op.startY)) 50) := by
  have h := hbox
  unfold drag at h
  rw [hkind] at h
  refine ⟨h.floatX, ?_, h.floatY, ?_⟩
  · rw [h.floatW]
    exact Int.toNat_of_nonneg ((by decide : (0 : ℤ) ≤ 50).trans (le_max_right _ _))
  · rw [h.floatH]
    exact Int.toNat_of_nonneg ((by decide : (0 : ℤ) ≤ 50).trans (le_max_right _ _))

theorem sameBox_iff (hbox : (op.drag dx dy w).SameBox w') : w.SameBox w' ↔
    w'.floatX = w.floatX ∧ w'.floatY = w.floatY ∧ w'.floatW = w.floatW ∧ w'.floatH = w.floatH := by
  have hfloat : (op.drag dx dy w).floating = w.floating := by
    unfold drag
    cases op.kind <;> rfl
  exact ⟨fun h => ⟨h.floatX, h.floatY, h.floatW, h.floatH⟩, fun h =>
    ⟨hbox.id.trans (op.drag_id dx dy w), hbox.floating.trans hfloat, h.1, h.2.1, h.2.2.1, h.2.2.2⟩⟩

/-- One axis of a resize without motion. -/
theorem atRest_iff {origin : Bool} {start pos pos' : ℤ} {size size' : ℕ} (hsize : 50 ≤ size)
    (hpos : pos' = if origin then pos + (0 - start) else pos)
    (hsize' : (size' : ℤ) =
      max (if origin then (size : ℤ) - (0 - start) else size + (0 - start)) 50) :
    (pos' = pos ∧ size' = size) ↔ AtRest origin start size := by
  unfold AtRest
  cases origin with
  | true =>
    simp only [if_true] at hpos hsize'
    simp only [Bool.true_eq_false, false_and, or_false]
    omega
  | false =>
    simp only [Bool.false_eq_true, if_false] at hpos hsize'
    simp only [true_and]
    omega

theorem follows_iff (hanchor : op.StartsAt w) (hbox : (op.drag dx dy w).SameBox w') :
    op.Follows dx dy w w' ↔ (op.kind = .move → op.startX = 0 ∧ op.startY = 0) ∧
      (op.kind = .resize → 50 ≤ op.startW → 50 ≤ op.startH → dx = 0 → dy = 0 →
        AtRest op.edges.left op.startX op.startW ∧ AtRest op.edges.top op.startY op.startH) := by
  unfold Follows
  rw [sameBox_iff hbox]
  cases hkind : op.kind with
  | move =>
    obtain ⟨hx, hy, hw, hh⟩ := drag_of_move hkind hbox
    rw [hanchor.startFloatX] at hx
    rw [hanchor.startFloatY] at hy
    simp only [true_implies, reduceCtorEq, false_implies, and_true]
    constructor
    · rintro ⟨⟨hmx, hmy⟩, -⟩
      omega
    · rintro ⟨hsx, hsy⟩
      refine ⟨by omega, fun _ _ hdx hdy => ⟨by omega, by omega, hw, hh⟩⟩
  | resize =>
    obtain ⟨hx, hw, hy, hh⟩ := drag_of_resize hkind hbox
    rw [hanchor.startFloatX] at hx
    rw [hanchor.startFloatY] at hy
    rw [hanchor.startW hkind] at hw ⊢
    rw [hanchor.startH hkind] at hh ⊢
    simp only [true_implies, reduceCtorEq, false_implies, true_and]
    refine forall₂_congr fun hminW hminH => forall₂_congr fun hdx hdy => ?_
    subst hdx hdy
    rw [← atRest_iff hminW hx hw, ← atRest_iff hminH hy hh]
    tauto

theorem oppositeFixed_iff (hkind : op.kind = .resize) (hanchor : op.StartsAt w)
    (hbox : (op.drag dx dy w).SameBox w') : op.OppositeFixed w w' ↔
      (op.edges.left = true → 50 ≤ (op.startW : ℤ) - (dx - op.startX)) ∧
        (op.edges.top = true → 50 ≤ (op.startH : ℤ) - (dy - op.startY)) := by
  obtain ⟨hx, hw, hy, hh⟩ := drag_of_resize hkind hbox
  rw [hanchor.startFloatX] at hx
  rw [hanchor.startFloatY] at hy
  have hstartW := hanchor.startW hkind
  have hstartH := hanchor.startH hkind
  unfold OppositeFixed
  refine and_congr ?_ ?_
  · cases hleft : op.edges.left with
    | true =>
      simp only [hleft, if_true] at hx hw
      simp only [if_true, true_implies]
      omega
    | false =>
      simp only [hleft, Bool.false_eq_true, if_false] at hx
      simp [hx]
  · cases htop : op.edges.top with
    | true =>
      simp only [htop, if_true] at hy hh
      simp only [if_true, true_implies]
      omega
    | false =>
      simp only [htop, Bool.false_eq_true, if_false] at hy
      simp [hy]

theorem axesKept_iff (hkind : op.kind = .resize) (hstartW : 50 ≤ op.startW)
    (hstartH : 50 ≤ op.startH) (hanchor : op.StartsAt w)
    (hbox : (op.drag dx dy w).SameBox w') : op.AxesKept w w' ↔
      (op.edges.left = false → op.edges.right = false →
        dx = op.startX ∨ (op.startW = 50 ∧ dx ≤ op.startX)) ∧
        (op.edges.top = false → op.edges.bottom = false →
          dy = op.startY ∨ (op.startH = 50 ∧ dy ≤ op.startY)) := by
  obtain ⟨hx, hw, hy, hh⟩ := drag_of_resize hkind hbox
  rw [hanchor.startFloatX] at hx
  rw [hanchor.startFloatY] at hy
  have hW := hanchor.startW hkind
  have hH := hanchor.startH hkind
  unfold AxesKept
  refine and_congr (forall₂_congr fun hleft _ => ?_) (forall₂_congr fun htop _ => ?_)
  · simp only [hleft, Bool.false_eq_true, if_false] at hx hw
    omega
  · simp only [htop, Bool.false_eq_true, if_false] at hy hh
    omega

end PointerOp

namespace Drag

variable {op : PointerOp} {d d' : AppData} {dx dy : ℤ}

/-! ### A drag a client asks for -/

/-- A window without an output asks for an operation with the pointer at `(x, y)`; one delta
follows. -/
theorem exists_of_request (kind : OpKind) (edges : Edges) (x y dx dy : ℤ) :
    ∃ op d d', Drag op d d' dx dy ∧ op.kind = kind ∧ op.startX = x ∧ op.startY = y ∧
      op.startW = 400 ∧ op.startH = 300 ∧ (kind = .resize → op.edges = edges) := by
  have hdrag {data staged d d' : AppData} {op : PointerOp} (request : WindowEvent)
      (hdata : [Event.newWindow 102, .newSeat 110, .seat 110 (.pointerPosition x y)].foldlM
        AppData.handle (AppData.new .default false false false) = some data)
      (hevent : (Event.window 102 request).stagesOp = true)
      (hstage : data.handle (.window 102 request) = some staged)
      (hne : data.pendingOp ≠ staged.pendingOp)
      (hstart : staged.handle .manageStart = some d) (hrunning : d.pointerOp = some op)
      (hdelta : d.handle (.seat 110 (.opDelta dx dy)) = some d') : Drag op d d' dx dy :=
    (of_prompt (reachable_of_foldlM _ hdata) hevent hstage
      (fun heq => hne (congrArg AppData.pendingOp heq.symm)) hstart hrunning
      ⟨110, d, Reachable.refl, hdelta⟩).1
  cases kind with
  | move =>
    exact ⟨_, _, _, hdrag (.pointerMoveRequested 110) rfl rfl rfl (fun h => by cases h) rfl rfl rfl,
      rfl, rfl, rfl, rfl, rfl, fun h => by cases h⟩
  | resize =>
    exact ⟨_, _, _, hdrag (.pointerResizeRequested 110 (some edges)) rfl rfl rfl
      (fun h => by cases h) rfl rfl rfl, rfl, rfl, rfl, rfl, rfl, fun _ => rfl⟩

/-! ### The laws -/

/-- A move follows the motion, and an operation without motion leaves a window of at least
50 by 50 where and as large as it was, exactly when the pointer was at the origin at the
start; a window at its minimum also withstands a resize without motion. -/
theorem follows_pointer_iff (h : Drag op d d' dx dy) :
    op.Keeps d d' (op.Follows dx dy) ↔
      (op.kind = .move → op.startX = 0 ∧ op.startY = 0) ∧
        (op.kind = .resize → 50 ≤ op.startW → 50 ≤ op.startH → dx = 0 → dy = 0 →
          AtRest op.edges.left op.startX op.startW ∧
            AtRest op.edges.top op.startY op.startH) :=
  h.keeps_iff fun _ _ => PointerOp.follows_iff

/-- A move from the origin. -/
theorem follows_pointer_iff_origin :
    ∃ op d d', Drag op d d' 5 7 ∧ op.kind = .move ∧ op.Keeps d d' (op.Follows 5 7) := by
  obtain ⟨op, d, d', h, hkind, hx, hy, -, -, -⟩ := exists_of_request .move .empty 0 0 5 7
  refine ⟨op, d, d', h, hkind, (follows_pointer_iff h).mpr ⟨fun _ => ⟨hx, hy⟩, fun hresize => ?_⟩⟩
  rw [hkind] at hresize
  cases hresize

/-- A move that starts with the pointer at `(100, 100)` does not follow it. -/
theorem move_jumps :
    ∃ op d d', Drag op d d' 5 7 ∧ op.kind = .move ∧ ¬op.Keeps d d' (op.Follows 5 7) := by
  obtain ⟨op, d, d', h, hkind, hx, -, -, -, -⟩ := exists_of_request .move .empty 100 100 5 7
  refine ⟨op, d, d', h, hkind, fun hkeeps => ?_⟩
  have hzero := ((h.keeps_iff fun _ _ => PointerOp.follows_iff).mp hkeeps).1 hkind
  rw [hx] at hzero
  exact absurd hzero.1 (by decide)

/-- A resize keeps the edges opposite to the dragged ones in place exactly when no dragged
left or top edge is pushed past the minimum size. -/
theorem opposite_edge_fixed_iff (h : Drag op d d' dx dy) (hkind : op.kind = .resize) :
    op.Keeps d d' op.OppositeFixed ↔
      (op.edges.left = true → 50 ≤ (op.startW : ℤ) - (dx - op.startX)) ∧
        (op.edges.top = true → 50 ≤ (op.startH : ℤ) - (dy - op.startY)) :=
  h.keeps_iff fun _ _ => PointerOp.oppositeFixed_iff hkind

/-- The left edge, dragged outwards. -/
theorem opposite_edge_fixed_iff_outwards : ∃ op d d', Drag op d d' (-20) 0 ∧
    op.edges = { Edges.empty with left := true } ∧ op.Keeps d d' op.OppositeFixed := by
  obtain ⟨op, d, d', h, hkind, hx, -, hw, -, hedges⟩ :=
    exists_of_request .resize { Edges.empty with left := true } 30 30 (-20) 0
  refine ⟨op, d, d', h, hedges rfl, (opposite_edge_fixed_iff h hkind).mpr ⟨fun _ => ?_, fun htop => ?_⟩⟩
  · rw [hw, hx]
    decide
  · rw [hedges rfl] at htop
    cases htop

/-- The left edge, dragged inwards past the minimum : the window slides to the right. -/
theorem opposite_edge_moves : ∃ op d d', Drag op d d' 500 0 ∧ op.kind = .resize ∧
    op.edges = { Edges.empty with left := true } ∧ ¬op.Keeps d d' op.OppositeFixed := by
  obtain ⟨op, d, d', h, hkind, hx, -, hw, -, hedges⟩ :=
    exists_of_request .resize { Edges.empty with left := true } 0 0 500 0
  refine ⟨op, d, d', h, hkind, hedges rfl, fun hkeeps => ?_⟩
  have hmin := ((h.keeps_iff fun _ _ => PointerOp.oppositeFixed_iff hkind).mp hkeeps).1
    (by rw [hedges rfl])
  rw [hw, hx] at hmin
  exact absurd hmin (by decide)

/-- A resize leaves an axis without a dragged edge alone exactly when the delta on it is the
pointer's position at the start, or the window is at its minimum and the difference would
shrink it. -/
theorem undragged_axes_kept_iff (h : Drag op d d' dx dy) (hkind : op.kind = .resize)
    (hstartW : 50 ≤ op.startW) (hstartH : 50 ≤ op.startH) :
    op.Keeps d d' op.AxesKept ↔
      (op.edges.left = false → op.edges.right = false →
        dx = op.startX ∨ (op.startW = 50 ∧ dx ≤ op.startX)) ∧
        (op.edges.top = false → op.edges.bottom = false →
          dy = op.startY ∨ (op.startH = 50 ∧ dy ≤ op.startY)) :=
  h.keeps_iff fun _ _ => PointerOp.axesKept_iff hkind hstartW hstartH

/-- The bottom edge, dragged straight down from the left border of the screen. -/
theorem undragged_axes_kept_iff_straight : ∃ op d d', Drag op d d' 0 40 ∧
    op.edges = { Edges.empty with bottom := true } ∧ op.Keeps d d' op.AxesKept := by
  obtain ⟨op, d, d', h, hkind, hx, -, hw, hh, hedges⟩ :=
    exists_of_request .resize { Edges.empty with bottom := true } 0 30 0 40
  refine ⟨op, d, d', h, hedges rfl, (undragged_axes_kept_iff h hkind (by omega) (by omega)).mpr
    ⟨fun _ _ => .inl hx.symm, fun _ hbottom => ?_⟩⟩
  rw [hedges rfl] at hbottom
  cases hbottom

/-- The bottom edge, dragged straight down elsewhere : the width changes too. -/
theorem undragged_axis_changes : ∃ op d d', Drag op d d' 0 40 ∧ op.kind = .resize ∧
    50 ≤ op.startW ∧ 50 ≤ op.startH ∧ op.edges = { Edges.empty with bottom := true } ∧
    ¬op.Keeps d d' op.AxesKept := by
  obtain ⟨op, d, d', h, hkind, hx, -, hw, hh, hedges⟩ :=
    exists_of_request .resize { Edges.empty with bottom := true } 100 30 0 40
  have hsizeW : 50 ≤ op.startW := by omega
  have hsizeH : 50 ≤ op.startH := by omega
  refine ⟨op, d, d', h, hkind, hsizeW, hsizeH, hedges rfl, fun hkeeps => ?_⟩
  have hdx := ((h.keeps_iff fun _ _ => PointerOp.axesKept_iff hkind hsizeW hsizeH).mp hkeeps).1
    (by rw [hedges rfl]; rfl) (by rw [hedges rfl]; rfl)
  rw [hx, hw] at hdx
  exact absurd hdx (by decide)

end Drag

end Streamwm
