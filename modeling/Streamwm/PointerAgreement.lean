import Streamwm.River

/-!
# Pointer operations and the compositor

The window manager has one slot for the running operation and one for the next, river
has an operation per seat. They agree (`Session.Agree`) as long as no manage sequence
finds a pending operation while another one runs (`Session.NoOverwrite`) : the sequence
then overwrites the running one, without ending it, by an operation that river ignores
on the same seat and starts beside the running one on another.

`Step.pointer` lists what one event does to the two sides; `agree_iff_noOverwrite` is
the statement over runs.
-/

namespace Streamwm

open Partial Transition

variable {d d' : AppData}

/-- What a handler does that may stage an operation on one of the `known` seats. -/
structure Staged (known : List ObjectId) (d d' : AppData) : Prop where
  sent : ∃ rs, d'.sent = d.sent ++ rs ∧ ∀ r ∈ rs, r.Modal = false
  seats : d'.state.seats.map (·.proxy) = d.state.seats.map (·.proxy)
  pointerOp : d'.pointerOp = d.pointerOp
  pendingOp : ∀ op, d'.pendingOp = some op → d.pendingOp = some op ∨ op.seat ∈ known

theorem Apart.staged (h : Apart d d') (known : List ObjectId) : Staged known d d' :=
  ⟨h.sent, h.seats, h.pointerOp, fun _ hop => Or.inl (h.pendingOp ▸ hop)⟩

/-- An event that starts, ends or drops pointer operations or changes the seats. -/
def Event.OfSeats : Event → Bool
  | .newSeat _ | .manageStart | .seat _ .removed => true
  | _ => false

namespace AppData

theorem staged_endPointerOp (known : List ObjectId) : Staged known d d.endPointerOp := by
  unfold endPointerOp
  split_ifs
  · exact ⟨⟨[.manageDirty], rfl, List.forall_mem_singleton.mpr rfl⟩,
      rfl, rfl, fun _ hop => Or.inl hop⟩
  · exact (Idle.refl d).toApart.staged known

/-- The operation is staged on the seat whose pointer is over the window. -/
theorem staged_startPointerOp (binding : ObjectId) :
    Staged (d.state.seats.map (·.proxy)) d (d.startPointerOp binding) := by
  unfold startPointerOp
  split
  · exact (Idle.refl d).toApart.staged _
  · split
    · exact (Idle.refl d).toApart.staged _
    · next seat w hpoint =>
      refine ⟨⟨[.manageDirty], rfl,
        List.forall_mem_singleton.mpr rfl⟩, rfl, rfl, ?_⟩
      rintro op hop
      have hseat : op.seat = seat.proxy := by
        obtain rfl := Option.some.inj hop
        rfl
      have hmem : seat ∈ d.state.seats := by
        unfold pointedWindow at hpoint
        split at hpoint
        · simp at hpoint
        · next seat' wid hfind =>
          obtain ⟨_, -, heq⟩ := Option.map_eq_some_iff.mp hpoint
          obtain ⟨rfl, -⟩ := Prod.mk.inj heq
          obtain ⟨t, ht, hmap⟩ := List.exists_of_findSome?_eq_some hfind
          obtain ⟨_, -, hpair⟩ := Option.map_eq_some_iff.mp hmap
          obtain ⟨rfl, -⟩ := Prod.mk.inj hpair
          exact ht
      exact Or.inr (hseat ▸ List.mem_map_of_mem hmem)

theorem staged_startInteractiveOp (wid : ℕ) (seat : ObjectId) (kind : OpKind) (edges : Edges) :
    ∃ d', d.startInteractiveOp wid seat kind edges = some d' ∧ Staged [seat] d d' := by
  obtain ⟨d₁, hfloat, hinert⟩ := inert_floatForOp (d := d) wid
  have hstaged := hinert.toApart.staged [seat]
  simp only [startInteractiveOp, hfloat, Option.bind_eq_bind, Option.bind_some, Option.pure_def]
  split
  · exact ⟨d₁, rfl, hstaged⟩
  · obtain ⟨rs, hrs, hm⟩ := hstaged.sent
    refine ⟨_, rfl, ⟨rs ++ [.manageDirty], by simp [manageDirty, send, hrs], fun r hr => ?_⟩,
      hstaged.seats, hstaged.pointerOp, fun op hop => Or.inr ?_⟩
    · rcases List.mem_append.mp hr with hr | hr
      · exact hm r hr
      · rw [List.mem_singleton.mp hr]
        rfl
    · obtain rfl := Option.some.inj hop
      exact List.mem_singleton_self seat

/-- A window that is known and asks for an operation stages it on the seat it names. -/
theorem staged_windowEvent (window : ObjectId) (event : WindowEvent) {seats : List ObjectId}
    (hseat : ∀ seat, event = .pointerMoveRequested seat ∨
      (∃ edges, event = .pointerResizeRequested seat edges) → seat ∈ seats) :
    ∃ d', d.windowEvent window event = some d' ∧ Staged seats d d' := by
  have hnamed : ∀ {seat : ObjectId} {d' : AppData}, seat ∈ seats → Staged [seat] d d' →
      Staged seats d d' := fun hmem h =>
    ⟨h.sent, h.seats, h.pointerOp, fun op hop => (h.pendingOp op hop).imp_right fun hop => by
      rwa [List.mem_singleton.mp hop]⟩
  cases hid : d.state.findWindowByProxy window with
  | none =>
    obtain ⟨d', h, hinert⟩ := inert_windowEvent (d := d) window event (by simp [hid])
    exact ⟨d', h, hinert.toApart.staged seats⟩
  | some id =>
    cases event with
    | closed =>
      cases hw : d.state.findWindow id with
      | some w =>
        exact ⟨_, by simp [windowEvent, hid, hw],
          (apart_windowClosed (d := d) window w).1.staged seats⟩
      | none =>
        exact ⟨d.modifyState fun s => s.closeWindow window, by simp [windowEvent, hid, hw],
          (apart_state (d := d) (s := d.state.closeWindow window) rfl).staged seats⟩
    | pointerMoveRequested seat =>
      obtain ⟨d', h, hd⟩ := staged_startInteractiveOp (d := d) id seat .move .empty
      exact ⟨d', by simp [windowEvent, hid, h], hnamed (hseat seat (Or.inl rfl)) hd⟩
    | pointerResizeRequested seat edges =>
      obtain ⟨d', h, hd⟩ := staged_startInteractiveOp (d := d) id seat .resize (edges.getD .empty)
      exact ⟨d', by simp [windowEvent, hid, h], hnamed (hseat seat (Or.inr ⟨edges, rfl⟩)) hd⟩
    | _ =>
      refine Exists.imp (fun d' h => ⟨h.1, h.2.toApart.staged seats⟩) (inert_windowEvent window _ ?_)
      simp

/-- Of the events, `newSeat`, `manageStart` and the removal of a seat do more. -/
theorem staged_handle (hs : d.state.WellFormed) {event : Event} {v : River}
    (hsends : v.sends event = true) (hv : d.state.seats.map (·.proxy) = v.seats)
    (hevent : event.OfSeats = false) : ∃ d', d.handle event = some d' ∧ Staged v.seats d d' := by
  have inert : ∀ {x : Option AppData}, (∃ d', x = some d' ∧ Inert d d') →
      ∃ d', x = some d' ∧ Staged v.seats d d' := fun ⟨d', h, hinert⟩ =>
    ⟨d', h, hinert.toApart.staged v.seats⟩
  cases event with
  | newSeat _ => simp [Event.OfSeats] at hevent
  | manageStart => simp [Event.OfSeats] at hevent
  | unavailable => exact inert ⟨_, rfl, inert_of_eq rfl rfl rfl rfl rfl rfl (le_refl _)⟩
  | finished => exact inert ⟨_, rfl, inert_of_eq rfl rfl rfl rfl rfl rfl (le_refl _)⟩
  | newWindow window => exact ⟨_, rfl, (apart_newWindow (d := d) window).1.staged v.seats⟩
  | newOutput output =>
    obtain ⟨d', -, h, -, hapart, -⟩ := apart_newOutput hs output
    exact ⟨d', h, hapart.staged v.seats⟩
  | renderStart hasClients =>
    obtain ⟨d', h, hidle⟩ := idle_onRenderStart hs hasClients
    exact ⟨d', h, hidle.toApart.staged v.seats⟩
  | window window event =>
    refine staged_windowEvent window event fun seat hseat => ?_
    rcases hseat with rfl | ⟨edges, rfl⟩ <;> simpa [River.sends] using hsends
  | output output event =>
    obtain ⟨d', h, -, hd | ⟨-, hd, -⟩⟩ := outputEvent_spec hs output event
    · exact ⟨d', h, hd.toApart.staged v.seats⟩
    · exact ⟨d', h, hd.staged v.seats⟩
  | nonExclusiveArea layer x y width height =>
    exact inert (inert_nonExclusiveArea hs layer x y width height)
  | seat seat event =>
    by_cases h₁ : event = .removed
    · subst h₁
      simp [Event.OfSeats] at hevent
    by_cases h₂ : event = .opRelease
    · subst h₂
      exact ⟨_, rfl, staged_endPointerOp v.seats⟩
    · exact inert (inert_seatEvent seat event h₁ h₂)
  | wlOutputName global name => exact inert ⟨_, rfl, inert_wlOutputName global name⟩
  | bindingPressed binding => exact inert (inert_dispatchAction hs binding)
  | pointerBindingPressed binding => exact ⟨_, rfl, hv ▸ staged_startPointerOp binding⟩
  | pointerBindingReleased binding => exact ⟨_, rfl, staged_endPointerOp v.seats⟩
  | command cmd => exact inert (inert_applyCommand hs cmd)
  | statusRequest => exact inert (inert_serviceStatusRequest hs)
  | flushPending => exact inert ⟨_, rfl, inert_flushPending⟩

/-- The operations of a seat go with it. -/
theorem seatRemoved_ops (seat : ObjectId) :
    (d.seatRemoved seat).pointerOp = d.pointerOp.filter (·.seat != seat) ∧
      (d.seatRemoved seat).pendingOp = d.pendingOp.filter (·.seat != seat) := by
  have hforget :
      ∀ d₁ : AppData, (d₁.forgetOps seat).pointerOp = d₁.pointerOp.filter (·.seat != seat) ∧
      (d₁.forgetOps seat).pendingOp = d₁.pendingOp.filter (·.seat != seat) := by
    intro d₁
    unfold forgetOps
    dsimp only
    constructor
    · cases h₁ : d₁.pointerOp with
      | none => split_ifs <;> simp_all
      | some a => split_ifs <;> simp_all [Option.filter]
    · cases h₁ : d₁.pendingOp with
      | none => split_ifs <;> simp_all
      | some a => split_ifs <;> simp_all [Option.filter]
  exact hforget (d.dropBindings seat)

theorem seatRemoved_seats (seat : ObjectId) : (d.seatRemoved seat).state.seats.map (·.proxy) =
    (d.state.seats.map (·.proxy)).filter (· != seat) := by
  have hstate : ((d.dropBindings seat).forgetOps seat).state = d.state := by
    unfold forgetOps
    dsimp only
    split_ifs <;> rfl
  change ((((d.dropBindings seat).forgetOps seat).state.seats.filter _).map _) = _
  rw [hstate, List.filter_map]
  rfl

/-- The requests of a manage sequence about pointer operations. -/
def opRequests (data : AppData) : List Request :=
  (data.pendingOp.map fun op => Request.opStartPointer op.seat op.window).toList ++
    if data.opEndRequested then
      ((data.pendingOp.or data.pointerOp).map fun op => Request.opEnd op.seat).toList
    else []

/-- The fullscreen block is not about pointer operations. -/
theorem applyFullscreen_sent (d : AppData) : ∃ rs, d.applyFullscreen.sent = d.sent ++ rs ∧
    ∀ r ∈ rs, r.OfPointerOp = false := by
  refine ⟨_, rfl, fun r hr => ?_⟩
  obtain ⟨w, -, hw⟩ := List.mem_flatMap.mp hr
  exact (w.requests_manage _ _ _ _ r hw).1

theorem onManageStart_ops (hs : d.state.WellFormed) : ∃ d', d.onManageStart = some d' ∧
    d'.state.seats.map (·.proxy) = d.state.seats.map (·.proxy) ∧ d'.pendingOp = none ∧
      d'.pointerOp = (if d.opEndRequested then none else d.pendingOp.or d.pointerOp) ∧
      ∃ rs, d'.sent = d.sent ++ rs ∧ rs.filter Request.OfPointerOp = d.opRequests := by
  have hpass := pointerPass d
  obtain ⟨d₁, d', h, -, hidle, hidle', -⟩ := onManageStart_spec hs
  obtain ⟨rs₀, hrs₀, -, hops⟩ := hpass.sent
  obtain ⟨rs₁, hrs₁, hm₁⟩ := hidle.toHandled.sent
  obtain ⟨rs₂, hrs₂, hm₂⟩ := hidle'.toHandled.sent
  obtain ⟨rsf, hrsf, hmf⟩ := applyFullscreen_sent d₁
  refine ⟨d', h, ?_, ?_, ?_, rs₀ ++ (rs₁ ++ (rsf ++ rs₂)), ?_, ?_⟩
  · exact (hidle'.seats.trans hidle.seats).trans (by rw [hpass.state])
  · exact (hidle'.pendingOp.trans hidle.pendingOp).trans hpass.pendingOp
  · exact (hidle'.pointerOp.trans hidle.pointerOp).trans hpass.pointerOp
  · rw [hrs₂, hrsf, hrs₁, hrs₀, List.append_assoc, List.append_assoc, List.append_assoc]
  · have hnil : ∀ rs : List Request, (∀ r ∈ rs, r.OfPointerOp = false) →
        rs.filter Request.OfPointerOp = [] := fun rs hr =>
      List.filter_eq_nil_iff.mpr fun r hmem => by simp [hr r hmem]
    rw [List.filter_append, List.filter_append, List.filter_append, hops, hnil rsf hmf,
      hnil rs₁ fun r hr => (Bool.or_eq_false_iff.mp (hm₁ r hr)).2,
      hnil rs₂ fun r hr => (Bool.or_eq_false_iff.mp (hm₂ r hr)).2]
    simp [opRequests]

end AppData

namespace Session

variable {p p' : Session} {event : Event}

/-- The window manager knows river's seats and stages operations on them only. -/
structure Tracked (p : Session) : Prop where
  wellFormed : p.data.state.WellFormed
  seats : p.data.state.seats.map (·.proxy) = p.river.seats
  pendingOp : ∀ op, p.data.pendingOp = some op → op.seat ∈ p.river.seats

theorem tracked_new (config : Config) (xkb layerShell cursorShapeManager : Bool) :
    (Session.new config xkb layerShell cursorShapeManager).Tracked where
  wellFormed := State.wellFormed_new _
  seats := rfl
  pendingOp op h := by simp [Session.new, AppData.new] at h

/-- The requests of a step that says nothing about modes leave river's operations as the
event left them. -/
theorem Step.quiet {rs : List Request} (h : Step p event p') (hrs : p'.data.sent = p.data.sent ++ rs)
    (hm : ∀ r ∈ rs, r.Modal = false) :
    p'.river.op = (p.river.observe event).op ∧ p'.river.seats = (p.river.observe event).seats := by
  rw [h.river hrs]
  exact ⟨River.requests_op_of_modal hm, (River.requests_seats _ _).1⟩

theorem Step.pointer_other (hp : p.Tracked) (h : Step p event p') (hevent : event.OfSeats = false) :
    p'.Tracked ∧ p'.data.pointerOp = p.data.pointerOp ∧ p'.river.op = p.river.op := by
  obtain ⟨hsends, hhandle, -⟩ := step_iff.mp h
  obtain ⟨d', hd', hstaged⟩ := AppData.staged_handle hp.wellFormed hsends hp.seats hevent
  obtain rfl := Option.some.inj (hd'.symm.trans hhandle)
  obtain ⟨rs, hrs, hm⟩ := hstaged.sent
  obtain ⟨hop, hseats⟩ := h.quiet hrs hm
  have hsame : (p.river.observe event).op = p.river.op ∧
      (p.river.observe event).seats = p.river.seats := by
    unfold River.observe
    split <;> simp_all [Event.OfSeats]
  refine ⟨⟨(AppData.Step.wellFormed hp.wellFormed hhandle).1, ?_, fun op hpend => ?_⟩,
    hstaged.pointerOp, hop.trans hsame.1⟩
  · rw [hstaged.seats, hp.seats, hseats, hsame.2]
  · rw [hseats, hsame.2]
    exact (hstaged.pendingOp op hpend).elim (hp.pendingOp op) fun hmem => hmem

theorem Step.pointer_newSeat {seat : ObjectId} (hp : p.Tracked) (h : Step p (.newSeat seat) p') :
    p'.Tracked ∧ p'.data.pointerOp = p.data.pointerOp ∧ p'.river.op = p.river.op := by
  have hhandle := (step_iff.mp h).2.1
  obtain ⟨hd, hseats', hop', hpend', -⟩ := AppData.steady_newSeat (d := p.data) seat
  obtain hdata : p.data.newSeat seat = p'.data := Option.some.inj hhandle
  rw [hdata] at hd hseats' hop' hpend'
  obtain ⟨rs, hrs, hm⟩ := hd.sent
  obtain ⟨hop, hseats⟩ := h.quiet hrs hm
  refine ⟨⟨(AppData.Step.wellFormed hp.wellFormed hhandle).1, ?_, fun op hpend => ?_⟩, hop', hop⟩
  · rw [hseats', hp.seats, hseats]
    rfl
  · rw [hseats]
    exact List.mem_append_left _ (hp.pendingOp op (hpend' ▸ hpend))

theorem Step.pointer_manage (hp : p.Tracked) (h : Step p .manageStart p') : p'.Tracked ∧
    p'.data.pointerOp = (if p.data.opEndRequested then none
      else p.data.pendingOp.or p.data.pointerOp) ∧
    p'.river.op = (p.river.requests p.data.opRequests).op := by
  have hhandle := (step_iff.mp h).2.1
  obtain ⟨d', hd', hseats', hpend', hop', rs, hrs, hfilter⟩ :=
    AppData.onManageStart_ops hp.wellFormed
  obtain rfl := Option.some.inj (hd'.symm.trans hhandle)
  have hriver := h.river hrs
  refine ⟨⟨(AppData.Step.wellFormed hp.wellFormed hhandle).1, ?_, fun op hpend => ?_⟩, hop', ?_⟩
  · rw [hseats', hp.seats, hriver, (River.requests_seats _ _).1]
    rfl
  · rw [hpend'] at hpend
    simp at hpend
  · rw [hriver, River.requests_op rs p.river (p.river.observe .manageStart) rfl rfl, hfilter]

theorem Step.pointer_seatRemoved {seat : ObjectId} (hp : p.Tracked)
    (h : Step p (.seat seat .removed) p') : p'.Tracked ∧
      p'.data.pointerOp = p.data.pointerOp.filter (·.seat != seat) ∧
      p'.river.op = Function.update p.river.op seat none := by
  have hhandle := (step_iff.mp h).2.1
  have hd := AppData.steady_seatRemoved (d := p.data) seat
  obtain ⟨hop', hpend'⟩ := AppData.seatRemoved_ops (d := p.data) seat
  have hseats' := AppData.seatRemoved_seats (d := p.data) seat
  obtain hdata : p.data.seatRemoved seat = p'.data := Option.some.inj hhandle
  rw [hdata] at hd hseats' hop' hpend'
  obtain ⟨rs, hrs, hm⟩ := hd.sent
  obtain ⟨hop, hseats⟩ := h.quiet hrs hm
  refine ⟨⟨(AppData.Step.wellFormed hp.wellFormed hhandle).1, ?_, fun op hpend => ?_⟩, hop', hop⟩
  · rw [hseats', hp.seats, hseats]
    rfl
  · rw [hpend', Option.filter_eq_some_iff] at hpend
    rw [hseats]
    exact List.mem_filter.mpr ⟨hp.pendingOp op hpend.1, hpend.2⟩

/-- What one event does to the pointer operations of both sides. -/
theorem Step.pointer (hp : p.Tracked) (h : Step p event p') : p'.Tracked ∧
    ((event ≠ .manageStart ∧ p'.data.pointerOp = p.data.pointerOp ∧ p'.river.op = p.river.op) ∨
    (∃ seat, event = .seat seat .removed ∧
      p'.data.pointerOp = p.data.pointerOp.filter (·.seat != seat) ∧
      p'.river.op = Function.update p.river.op seat none) ∨
    (event = .manageStart ∧
      p'.data.pointerOp = (if p.data.opEndRequested then none
        else p.data.pendingOp.or p.data.pointerOp) ∧
      p'.river.op = (p.river.requests p.data.opRequests).op)) := by
  cases hevent : event.OfSeats with
  | false =>
    obtain ⟨htracked, hop, hriver⟩ := h.pointer_other hp hevent
    refine ⟨htracked, Or.inl ⟨?_, hop, hriver⟩⟩
    rintro rfl
    simp [Event.OfSeats] at hevent
  | true =>
    unfold Event.OfSeats at hevent
    split at hevent
    · obtain ⟨htracked, hsame⟩ := h.pointer_newSeat hp
      exact ⟨htracked, Or.inl ⟨by simp, hsame⟩⟩
    · obtain ⟨htracked, hmanage⟩ := h.pointer_manage hp
      exact ⟨htracked, Or.inr (Or.inr ⟨rfl, hmanage⟩)⟩
    · obtain ⟨htracked, hremoved⟩ := h.pointer_seatRemoved hp
      exact ⟨htracked, Or.inr (Or.inl ⟨_, rfl, hremoved⟩)⟩
    · simp at hevent

/-! ## Agreement -/

/-- The operations river has when the window manager runs `x`. -/
def opsOf (x : Option PointerOp) (seat : ObjectId) : Option ℕ :=
  x.bind fun op => if op.seat = seat then some op.window else none

/-- River has the running operation in progress, on its seat and for its window, and no
other. -/
def Agree (p : Session) : Prop :=
  p.river.op = opsOf p.data.pointerOp

/-- If a manage sequence finds a pending operation while one runs, both are on the same
seat, and for the same window unless the end is requested too. -/
def NoOverwrite (p : Session) (event : Event) : Prop :=
  event = .manageStart → ∀ a q, p.data.pointerOp = some a → p.data.pendingOp = some q →
    q.seat = a.seat ∧ (q.window = a.window ∨ p.data.opEndRequested = true)

theorem opsOf_none : opsOf none = fun _ => none :=
  rfl

theorem opsOf_self (op : PointerOp) : opsOf (some op) op.seat = some op.window := by
  simp [opsOf]

theorem opsOf_of_ne {op : PointerOp} {seat : ObjectId} (h : op.seat ≠ seat) :
    opsOf (some op) seat = none := by
  simp [opsOf, h]

theorem opsOf_inj {a q : PointerOp} : opsOf (some a) = opsOf (some q) ↔
    q.seat = a.seat ∧ q.window = a.window := by
  constructor
  · intro h
    have hseat : q.seat = a.seat := by
      by_contra hne
      have hself := congrFun h a.seat
      rw [opsOf_self, opsOf_of_ne hne] at hself
      simp at hself
    have hself := congrFun h a.seat
    rw [opsOf_self, ← hseat, opsOf_self] at hself
    exact ⟨hseat, (Option.some.inj hself).symm⟩
  · rintro ⟨hseat, hwindow⟩
    funext seat
    simp [opsOf, hseat, hwindow]

/-- Ending the running operation, or starting one when none runs. -/
theorem update_opsOf (op : PointerOp) (x : Option ℕ) :
    Function.update (opsOf (some op)) op.seat x = Function.update (opsOf none) op.seat x := by
  funext seat
  by_cases h : seat = op.seat
  · rw [h, Function.update_self, Function.update_self]
  · rw [Function.update_of_ne h, Function.update_of_ne h, opsOf_of_ne (Ne.symm h)]
    rfl

theorem update_opsOf_none (seat : ObjectId) : Function.update (opsOf none) seat none = opsOf none :=
  Function.update_eq_self seat (opsOf none)

theorem update_opsOf_some (op : PointerOp) :
    Function.update (opsOf none) op.seat (some op.window) = opsOf (some op) := by
  rw [← update_opsOf, ← opsOf_self op, Function.update_eq_self]

/-- The removal of a seat. -/
theorem update_opsOf_filter (x : Option PointerOp) (seat : ObjectId) :
    Function.update (opsOf x) seat none = opsOf (x.filter (·.seat != seat)) := by
  cases x with
  | none => exact update_opsOf_none seat
  | some op =>
    by_cases h : op.seat = seat
    · rw [← h, update_opsOf, update_opsOf_none]
      simp [Option.filter]
    · have hself : Function.update (opsOf (some op)) seat none = opsOf (some op) := by
        rw [← opsOf_of_ne h, Function.update_eq_self]
      rw [hself]
      simp [Option.filter, h]

/-- River starts an operation on a seat that has none. -/
theorem request_start {v : River} {op : PointerOp} (hseat : op.seat ∈ v.seats)
    {x : Option PointerOp} (hv : v.op = opsOf x) (hfree : opsOf x op.seat = none) :
    (v.request (.opStartPointer op.seat op.window)).op =
      Function.update (opsOf x) op.seat (some op.window) := by
  rw [River.request, if_pos ⟨hseat, hv ▸ hfree⟩, ← hv]

/-- It ignores the request on a seat that has one. -/
theorem request_start_busy {v : River} {op : PointerOp} (hbusy : v.op op.seat ≠ none) :
    v.request (.opStartPointer op.seat op.window) = v := by
  rw [River.request, if_neg fun h => hbusy h.2]

theorem request_end (v : River) (seat : ObjectId) :
    (v.request (.opEnd seat)).op = Function.update v.op seat none :=
  rfl

/-- Ending the operation river has in progress. -/
theorem request_end_opsOf {v : River} {op : PointerOp} (h : v.op = opsOf (some op)) :
    (v.request (.opEnd op.seat)).op = opsOf none := by
  rw [request_end, h, update_opsOf, update_opsOf_none]

/-- A manage sequence keeps the agreement iff it overwrites no operation. -/
theorem agree_manage_iff {v : River} {d : AppData} (hagree : v.op = opsOf d.pointerOp)
    (hpend : ∀ op, d.pendingOp = some op → op.seat ∈ v.seats) :
    (v.requests d.opRequests).op =
        opsOf (if d.opEndRequested then none else d.pendingOp.or d.pointerOp) ↔
      ∀ a q, d.pointerOp = some a → d.pendingOp = some q →
        q.seat = a.seat ∧ (q.window = a.window ∨ d.opEndRequested = true) := by
  unfold AppData.opRequests
  cases hq : d.pendingOp with
  | none =>
    refine iff_of_true ?_ (by simp)
    cases hend : d.opEndRequested with
    | false => simpa [River.requests] using hagree
    | true =>
      cases ha : d.pointerOp with
      | none => simpa [River.requests, ha] using hagree
      | some a =>
        have hended := request_end_opsOf (hagree.trans (congrArg opsOf ha))
        simpa [River.requests] using hended
  | some q =>
    have hseat := hpend q hq
    cases ha : d.pointerOp with
    | none =>
      refine iff_of_true ?_ (by simp)
      rw [ha] at hagree
      have hstart := (request_start hseat hagree rfl).trans (update_opsOf_some q)
      cases hend : d.opEndRequested with
      | false => simpa [River.requests] using hstart
      | true =>
        have hended := request_end_opsOf hstart
        simpa [River.requests] using hended
    | some a =>
      rw [ha] at hagree
      by_cases hsame : q.seat = a.seat
      · have hbusy : v.op q.seat ≠ none := by
          rw [hagree, hsame, opsOf_self]
          simp
        have hignored := request_start_busy hbusy
        rw [hsame] at hignored
        cases hend : d.opEndRequested with
        | false =>
          have hiff := opsOf_inj (a := a) (q := q)
          simpa [River.requests, hignored, hagree, hsame] using hiff
        | true =>
          have hended := request_end_opsOf hagree
          simpa [River.requests, hignored, hsame] using hended
      · -- river now has an operation on the pending one's seat and still one on the other
        have hstart := request_start hseat hagree (opsOf_of_ne (Ne.symm hsame))
        refine iff_of_false (fun heq => ?_) fun h => hsame (h a q rfl rfl).1
        have hself := congrFun heq a.seat
        cases hend : d.opEndRequested with
        | false =>
          rw [hend] at hself
          simp only [Option.map_some, Option.toList_some, if_false, Bool.false_eq_true,
            List.append_nil, River.requests, List.foldl_cons, List.foldl_nil, hstart,
            Option.some_or] at hself
          rw [Function.update_of_ne (Ne.symm hsame), opsOf_self, opsOf_of_ne hsame] at hself
          simp at hself
        | true =>
          rw [hend] at hself
          simp only [Option.map_some, Option.toList_some, if_true, List.cons_append,
            List.nil_append, River.requests, List.foldl_cons, List.foldl_nil,
            Option.some_or] at hself
          rw [request_end, hstart] at hself
          simp only [Function.update_of_ne (Ne.symm hsame), opsOf_self, opsOf_none] at hself
          simp at hself

/-- One event keeps the agreement iff it overwrites no operation. -/
theorem Step.agree_iff (hp : p.Tracked) (hagree : p.Agree) (h : Step p event p') :
    p'.Agree ↔ p.NoOverwrite event := by
  obtain ⟨-, ⟨hevent, hop, hriver⟩ | ⟨seat, rfl, hop, hriver⟩ | ⟨rfl, hop, hriver⟩⟩ := h.pointer hp
  · exact iff_of_true (hriver.trans (hagree.trans (by rw [hop]))) fun hmanage =>
      absurd hmanage hevent
  · refine iff_of_true ?_ fun hmanage => by simp at hmanage
    rw [Agree, hriver, hop, ← update_opsOf_filter, ← hagree]
  · rw [Agree, hriver, hop, agree_manage_iff hagree hp.pendingOp]
    exact ⟨fun h _ => h, fun h => h rfl⟩

theorem Agree.op_iff (h : p.Agree) (seat : ObjectId) : p.river.op seat ≠ none ↔
    ∃ op, p.data.pointerOp = some op ∧ op.seat = seat := by
  rw [h]
  cases hop : p.data.pointerOp with
  | none => simp [opsOf]
  | some op => simp [opsOf]

/-- What an `op_delta` from a seat may change : the window river moves or resizes. -/
def DragsOnly (seat : ObjectId) (p p' : Session) : Prop :=
  p'.data = { p.data with state := { p.data.state with windows := p'.data.state.windows } } ∧
    List.Forall₂ (fun w w' : Window => w' = w ∨ p.river.op seat = some w.id)
      p.data.state.windows p'.data.state.windows

/-- In agreement an `op_delta` changes only the window of the operation river started on
that seat. -/
theorem Agree.dragsOnly (hagree : p.Agree) {seat : ObjectId} {dx dy : ℤ}
    (h : Step p (.seat seat (.opDelta dx dy)) p') : DragsOnly seat p p' := by
  obtain ⟨hsends, hhandle, -⟩ := step_iff.mp h
  obtain ⟨op, hop, rfl⟩ := (hagree.op_iff seat).mp
    (Option.ne_none_iff_isSome.mpr (by simpa [River.sends] using hsends))
  have hdata :
      p.data.modifyState (fun s => s.modifyWindow op.window (op.drag dx dy)) = p'.data := by
    have happly := Option.some.inj hhandle
    rwa [AppData.applyPointerDelta, hop] at happly
  have hriver : p.river.op op.seat = some op.window := by
    rw [hagree, hop, opsOf_self]
  rw [DragsOnly, ← hdata]
  refine ⟨rfl, ?_⟩
  refine forall₂_modifyFirst (R := fun w w' : Window => w' = w ∨ p.river.op op.seat = some w.id)
    (fun _ => Or.inl rfl) (fun w hw => Or.inr ?_) _
  rw [hriver, beq_iff_eq.mp hw]

/-- River and the window manager agree in all states of a run iff no manage sequence
overwrites a running operation. Then, after every manage sequence, river has an operation
in progress on a seat iff the window manager runs one there, and every `op_delta` changes
only the window of river's operation. -/
theorem agree_iff_noOverwrite {config : Config} {xkb layerShell cursorShapeManager : Bool}
    {τs : List (Transition.Step Session Event)}
    (h : IsRun Step (Session.new config xkb layerShell cursorShapeManager) τs) :
    ((∀ τ ∈ τs, τ.post.Agree) ↔ ∀ τ ∈ τs, τ.pre.NoOverwrite τ.event) ∧
      ((∀ τ ∈ τs, τ.pre.NoOverwrite τ.event) → ∀ τ ∈ τs,
        (τ.event = .manageStart → ∀ seat, τ.post.river.op seat ≠ none ↔
          ∃ op, τ.post.data.pointerOp = some op ∧ op.seat = seat) ∧
        ∀ seat dx dy, τ.event = .seat seat (.opDelta dx dy) → DragsOnly seat τ.pre τ.post) := by
  have hnew : (Session.new config xkb layerShell cursorShapeManager).Agree := rfl
  have htracked := tracked_new config xkb layerShell cursorShapeManager
  have hstep :
      ∀ p e p', p.Tracked → Step p e p' → p'.Tracked := fun _ _ _ hp hs => (hs.pointer hp).1
  have hiff : (∀ τ ∈ τs, τ.post.Agree) ↔ ∀ τ ∈ τs, τ.pre.NoOverwrite τ.event :=
    h.forall_post_iff (J := Tracked) (P := Agree) hstep (fun _ _ _ hp ha hs => hs.agree_iff hp ha)
      htracked hnew
  refine ⟨hiff, fun hsafe τ hτ => ⟨fun _ => (hiff.mpr hsafe τ hτ).op_iff, ?_⟩⟩
  have hboth := h.invariant_of_cond (I := fun p => p.Tracked ∧ p.Agree) (C := NoOverwrite)
    (fun p e p' hp hc hs => ⟨hstep p e p' hp.1 hs, (hs.agree_iff hp.1 hp.2).mpr hc⟩)
    ⟨htracked, hnew⟩ hsafe τ hτ
  intro seat dx dy hevent
  have hs := h.step_of_mem hτ
  rw [hevent] at hs
  exact hboth.1.2.dragsOnly hs

theorem isRun_next (events : List Event) (p : Session) :
    IsRun Step p (trace next p events) :=
  isRun_trace next events p

/-- A window asks for a move, then, while that runs, once more. -/
theorem agree_iff_noOverwrite_again : ∃ τs, IsRun Step (Session.new .default false false false) τs ∧
    τs.length = 8 ∧ ∀ τ ∈ τs, τ.post.Agree := by
  have hrun := isRun_next [.newWindow 2, .newSeat 10, .window 2 (.pointerMoveRequested 10),
    .manageStart, .window 2 (.pointerMoveRequested 10), .manageStart, .seat 10 .opRelease,
    .manageStart] (Session.new .default false false false)
  have hsame : ∀ τ ∈ trace next (Session.new .default false false false)
      [.newWindow 2, .newSeat 10, .window 2 (.pointerMoveRequested 10), .manageStart,
        .window 2 (.pointerMoveRequested 10), .manageStart, .seat 10 .opRelease, .manageStart],
      τ.pre.data.pointerOp = none ∨ τ.pre.data.pendingOp = none ∨
        τ.pre.data.pendingOp.map (fun q => (q.seat, q.window)) =
          τ.pre.data.pointerOp.map fun a => (a.seat, a.window) := by decide
  refine ⟨_, hrun, rfl, (agree_iff_noOverwrite hrun).1.mpr fun τ hτ _ a q ha hq => ?_⟩
  obtain hnone | hnone | heq := hsame τ hτ
  · simp [ha] at hnone
  · simp [hq] at hnone
  · rw [ha, hq, Option.map_some, Option.map_some, Option.some.injEq, Prod.mk.injEq] at heq
    exact ⟨heq.1, Or.inl heq.2⟩

/-- A window asks for a move on one seat and, while that runs, for one on another. -/
theorem exists_overwritten : ¬∀ (config : Config) (xkb layerShell cursorShapeManager : Bool)
    (τs : List (Transition.Step Session Event)),
    IsRun Step (Session.new config xkb layerShell cursorShapeManager) τs → ∀ τ ∈ τs,
      (τ.event = .manageStart → ∀ seat, τ.post.river.op seat ≠ none ↔
        ∃ op, τ.post.data.pointerOp = some op ∧ op.seat = seat) ∧
      ∀ seat dx dy, τ.event = .seat seat (.opDelta dx dy) → DragsOnly seat τ.pre τ.post := by
  intro h
  obtain ⟨τ, hget, hevent, hriver, hdata⟩ : ∃ τ : Transition.Step Session Event,
      (trace next (Session.new .default false false false) [.newWindow 2, .newSeat 10, .newSeat 11,
        .window 2 (.pointerMoveRequested 10), .manageStart, .window 2 (.pointerMoveRequested 11),
        .manageStart])[6]? = some τ ∧ τ.event = .manageStart ∧ τ.post.river.op 10 = some 1 ∧
        τ.post.data.pointerOp.map (·.seat) = some 11 := ⟨_, rfl, rfl, rfl, rfl⟩
  obtain ⟨op, hop, hseat⟩ := ((h _ _ _ _ _ (isRun_next _ _) τ (List.mem_of_getElem? hget)).1 hevent
    10).mp (by simp [hriver])
  rw [hop, Option.map_some, hseat] at hdata
  simp at hdata

end Session

end Streamwm
