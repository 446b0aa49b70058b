import Mathlib.Logic.Function.Basic
import Streamwm.Refinement

/-!
# The compositor

`River` is what river keeps about the two modes the window manager sets through
requests : the pointer operation in progress on each seat, and the output each window is
fullscreen on. It follows `river-window-management-v1.xml` : an `op_start_pointer` on a
seat with an operation in progress is ignored, removing a seat ends its operation, and
removing an output ends the fullscreen states on it.

A `Session` is the window manager and river side by side. One step is an event : river
sends it (`River.sends`), the window manager handles it, and river carries out the
requests made meanwhile, in order.
-/

namespace Streamwm

open Partial Transition

/-- What river keeps. -/
structure River where
  /-- The objects announced so far; they are never announced again. -/
  used : List ObjectId
  seats : List ObjectId
  outputs : List ObjectId
  /-- The window of the operation in progress on a seat. -/
  op : ObjectId → Option ℕ
  /-- The output a window is fullscreen on. -/
  held : ObjectId → Option ObjectId
  /-- The output the last `fullscreen` request for a window named. -/
  asked : ObjectId → Option ObjectId

namespace River

/-- River before it sends anything. -/
def new : River :=
  { used := [], seats := [], outputs := []
    op := fun _ => none, held := fun _ => none, asked := fun _ => none }

variable (v : River)

/-- River may send the event. -/
def sends : Event → Bool
  | .newWindow window => !v.used.contains window
  | .newOutput output => !v.used.contains output
  | .seat seat (.opDelta _ _) | .seat seat .opRelease => (v.op seat).isSome
  | .window _ (.pointerMoveRequested seat) | .window _ (.pointerResizeRequested seat _) =>
    v.seats.contains seat
  | _ => true

/-- What river changes when it sends the event. -/
def observe : Event → River
  | .newWindow window => { v with used := window :: v.used }
  | .newOutput output => { v with used := output :: v.used, outputs := v.outputs ++ [output] }
  | .newSeat seat => { v with seats := v.seats ++ [seat] }
  | .output output .removed =>
    { v with outputs := v.outputs.filter (· != output)
             held := fun w => (v.held w).filter (· != output) }
  | .seat seat .removed =>
    { v with seats := v.seats.filter (· != seat), op := Function.update v.op seat none }
  | _ => v

/-- River carries out a request. -/
def request : Request → River
  | .opStartPointer seat window =>
    if seat ∈ v.seats ∧ v.op seat = none then
      { v with op := Function.update v.op seat (some window) }
    else v
  | .opEnd seat => { v with op := Function.update v.op seat none }
  | .fullscreen window output =>
    { v with held := Function.update v.held window (some output)
             asked := Function.update v.asked window (some output) }
  | .exitFullscreen window => { v with held := Function.update v.held window none }
  | _ => v

def requests (rs : List Request) : River :=
  rs.foldl request v

end River

/-- The window manager and river. -/
structure Session where
  data : AppData
  river : River

namespace Session

/-- The session when the event loop starts. -/
def new (config : Config) (xkb layerShell cursorShapeManager : Bool) : Session :=
  { data := AppData.new config xkb layerShell cursorShapeManager, river := River.new }

/-- One event; `none` when river does not send it or its handler panics. -/
def next (p : Session) (event : Event) : Option Session :=
  if p.river.sends event then do
    let data ← p.data.handle event
    return ⟨data, (p.river.observe event).requests (data.sent.drop p.data.sent.length)⟩
  else none

def Step (p : Session) (event : Event) (p' : Session) : Prop :=
  p.next event = some p'

end Session

/-! ## Requests -/

namespace River

variable {v v' : River} {rs : List Request}

theorem request_seats (v : River) (r : Request) : (v.request r).seats = v.seats ∧
    (v.request r).outputs = v.outputs ∧ (v.request r).used = v.used := by
  unfold request
  split
  · split_ifs <;> exact ⟨rfl, rfl, rfl⟩
  all_goals exact ⟨rfl, rfl, rfl⟩

/-- Requests announce and remove nothing. -/
theorem requests_seats : ∀ (rs : List Request) (v : River), (v.requests rs).seats = v.seats ∧
    (v.requests rs).outputs = v.outputs ∧ (v.requests rs).used = v.used
  | [], _ => ⟨rfl, rfl, rfl⟩
  | r :: rs, v => by
    obtain ⟨h₁, h₂, h₃⟩ := requests_seats rs (v.request r)
    obtain ⟨k₁, k₂, k₃⟩ := request_seats v r
    exact ⟨h₁.trans k₁, h₂.trans k₂, h₃.trans k₃⟩

theorem requests_append (rs rs' : List Request) :
    v.requests (rs ++ rs') = (v.requests rs).requests rs' :=
  List.foldl_append

/-- A request outside the pointer operations changes none. -/
theorem request_op {r : Request} (h : r.OfPointerOp = false) : (v.request r).op = v.op := by
  unfold request
  split
  · simp [Request.OfPointerOp] at h
  · simp [Request.OfPointerOp] at h
  all_goals rfl

theorem request_op_congr (r : Request) (hop : v'.op = v.op) (hseats : v'.seats = v.seats) :
    (v'.request r).op = (v.request r).op := by
  unfold request
  split
  · rw [hop, hseats]
    split_ifs
    · rfl
    · exact hop
  · exact congrArg (fun f : ObjectId → Option ℕ => Function.update f _ none) hop
  all_goals exact hop

/-- Only the requests about pointer operations matter to them. -/
theorem requests_op : ∀ (rs : List Request) (v v' : River), v'.op = v.op → v'.seats = v.seats →
    (v'.requests rs).op = (v.requests (rs.filter Request.OfPointerOp)).op
  | [], _, _, hop, _ => hop
  | r :: rs, v, v', hop, hseats => by
    have hseats' : (v'.request r).seats = v.seats := (request_seats v' r).1.trans hseats
    cases hr : r.OfPointerOp with
    | true =>
      rw [List.filter_cons_of_pos hr]
      exact requests_op rs (v.request r) (v'.request r) (request_op_congr r hop hseats)
        (hseats'.trans (request_seats v r).1.symm)
    | false =>
      rw [List.filter_cons_of_neg (by simp [hr])]
      exact requests_op rs v (v'.request r) ((request_op hr).trans hop) hseats'

/-- Requests that set no mode change none. -/
theorem requests_op_of_modal (h : ∀ r ∈ rs, r.Modal = false) : (v.requests rs).op = v.op := by
  have hnil : rs.filter Request.OfPointerOp = [] :=
    List.filter_eq_nil_iff.mpr fun r hr => by simp [(Bool.or_eq_false_iff.mp (h r hr)).2]
  rw [requests_op rs v v rfl rfl, hnil]
  rfl

/-! ## Fullscreen states -/

/-- Where a window is fullscreen, and where it was last asked to be. -/
def modes (v : River) (window : ObjectId) : Option ObjectId × Option ObjectId :=
  (v.held window, v.asked window)

/-- What a request makes of the fullscreen state of one window. -/
def setModes (window : ObjectId) (m : Option ObjectId × Option ObjectId) :
    Request → Option ObjectId × Option ObjectId
  | .fullscreen w output => if w = window then (some output, some output) else m
  | .exitFullscreen w => if w = window then (none, m.2) else m
  | _ => m

theorem modes_request (v : River) (r : Request) (window : ObjectId) :
    (v.request r).modes window = setModes window (v.modes window) r := by
  unfold request
  split
  · split_ifs <;> rfl
  · rfl
  · next w output =>
    by_cases h : w = window
    · simp [modes, setModes, h]
    · simp [modes, setModes, h, Function.update_of_ne (Ne.symm h)]
  · next w =>
    by_cases h : w = window
    · simp [modes, setModes, h]
    · simp [modes, setModes, h, Function.update_of_ne (Ne.symm h)]
  · next h₁ h₂ h₃ h₄ =>
    unfold setModes
    split
    · exact absurd rfl (h₃ _ _)
    · exact absurd rfl (h₄ _)
    · rfl

/-- The fullscreen states of different windows do not touch. -/
theorem modes_requests (window : ObjectId) : ∀ (rs : List Request) (v : River),
    (v.requests rs).modes window = rs.foldl (setModes window) (v.modes window)
  | [], _ => rfl
  | r :: rs, v => by
    rw [List.foldl_cons, ← modes_request]
    exact modes_requests window rs (v.request r)

theorem foldl_setModes_filter (window : ObjectId) : ∀ (rs : List Request)
    (m : Option ObjectId × Option ObjectId),
    rs.foldl (setModes window) m = (rs.filter Request.OfFullscreen).foldl (setModes window) m
  | [], _ => rfl
  | r :: rs, m => by
    cases hr : r.OfFullscreen with
    | true =>
      rw [List.filter_cons_of_pos hr, List.foldl_cons, List.foldl_cons]
      exact foldl_setModes_filter window rs _
    | false =>
      have hsame : setModes window m r = m := by
        unfold setModes
        split <;> simp_all [Request.OfFullscreen]
      rw [List.filter_cons_of_neg (by simp [hr]), List.foldl_cons, hsame]
      exact foldl_setModes_filter window rs m

theorem modes_requests_of_not (h : ∀ r ∈ rs, r.OfFullscreen = false) (window : ObjectId) :
    (v.requests rs).modes window = v.modes window := by
  have hnil : rs.filter Request.OfFullscreen = [] :=
    List.filter_eq_nil_iff.mpr fun r hr => by simp [h r hr]
  rw [modes_requests, foldl_setModes_filter, hnil]
  rfl

end River

namespace Session

variable {p p' : Session} {event : Event}

theorem step_iff : Step p event p' ↔ p.river.sends event = true ∧
    p.data.handle event = some p'.data ∧ p'.river =
      (p.river.observe event).requests (p'.data.sent.drop p.data.sent.length) := by
  obtain ⟨d', v'⟩ := p'
  unfold Step next
  split_ifs with hs
  · rw [Option.bind_eq_bind, Option.bind_eq_some_iff]
    constructor
    · rintro ⟨d, hd, heq⟩
      obtain ⟨rfl, rfl⟩ := Session.mk.inj (Option.some.inj heq)
      exact ⟨hs, hd, rfl⟩
    · rintro ⟨-, hd, hv⟩
      exact ⟨d', hd, by rw [show v' = _ from hv]; rfl⟩
  · simp [hs]

/-- River after the requests `rs` of a step. -/
theorem Step.river {rs : List Request} (h : Step p event p')
    (hrs : p'.data.sent = p.data.sent ++ rs) :
    p'.river = (p.river.observe event).requests rs := by
  have hriver := (step_iff.mp h).2.2
  rwa [hrs, List.drop_left] at hriver

end Session

end Streamwm
