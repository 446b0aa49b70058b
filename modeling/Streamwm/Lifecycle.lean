import Mathlib.Data.Finset.Card
import Mathlib.Tactic.Abel
import Streamwm.Objects
import Streamwm.PointerAgreement

/-!
# The life of an object

River announces windows, outputs and seats; the window manager makes objects of its own for
them, and destroys all of them when the window closes or the output or seat goes. `Registry` is
the window manager beside the set of live objects. River's objects are numbered from `base` on,
those of the window manager below.

Each handler is a `Custody.Triple` from the holdings before it to the holdings after it
(`triple_handle`). So in every run a request names only live objects, what it creates is new
and nothing is destroyed twice (`never_stale`), and the live objects are those held and the
`wl_seat` objects of the seats named, which are never released (`no_leak`).
-/

namespace Streamwm

open Custody Partial Transition

/-! ## Holdings that change -/

namespace Ledger

theorem objects_addWindow (l : Ledger) (e : WindowEntry) :
    ({ l with windows := l.windows ++ [e] } : Ledger).objects = e.objects + l.objects := by
  unfold objects
  rw [List.map_append, List.sum_append, List.map_singleton, List.sum_singleton]
  abel

theorem objects_addOutput (l : Ledger) (e : OutputEntry) :
    ({ l with outputs := l.outputs ++ [e] } : Ledger).objects = e.objects + l.objects := by
  unfold objects
  rw [List.map_append, List.sum_append, List.map_singleton, List.sum_singleton]
  abel

theorem objects_addSeat (l : Ledger) (e : SeatEntry) :
    ({ l with seats := l.seats ++ [e] } : Ledger).objects = e.objects + l.objects := by
  unfold objects
  rw [List.map_append, List.sum_append, List.map_singleton, List.sum_singleton]
  abel

/-- Without the windows that satisfy `p`. -/
theorem objects_dropWindows (l : Ledger) (p : WindowEntry → Bool) :
    l.objects = ((l.windows.filter p).map WindowEntry.objects).sum +
      ({ l with windows := l.windows.filter fun e => !p e } : Ledger).objects := by
  unfold objects
  rw [sum_map_filter p WindowEntry.objects l.windows]
  abel

theorem objects_dropSeats (l : Ledger) (p : SeatEntry → Bool) :
    l.objects = ((l.seats.filter p).map SeatEntry.objects).sum +
      ({ l with seats := l.seats.filter fun e => !p e } : Ledger).objects := by
  unfold objects
  rw [sum_map_filter p SeatEntry.objects l.seats]
  abel

/-- Without one output. -/
theorem objects_dropOutput (l : Ledger) {i : ℕ} {e : OutputEntry} (he : l.outputs[i]? = some e) :
    l.objects = e.objects + ({ l with outputs := l.outputs.eraseIdx i } : Ledger).objects := by
  obtain ⟨hi, rfl⟩ := List.getElem?_eq_some_iff.mp he
  have hsum := ((List.getElem_cons_eraseIdx_perm hi).map OutputEntry.objects).sum_eq
  rw [List.map_cons, List.sum_cons] at hsum
  unfold objects
  rw [← hsum]
  abel

/-- An output gets the objects `G`. -/
theorem objects_modifyOutput (l : Ledger) {p : OutputEntry → Bool} {f : OutputEntry → OutputEntry}
    {e : OutputEntry} {G : Multiset ObjectId} (he : l.outputs.find? p = some e)
    (hf : (f e).objects = G + e.objects) :
    ({ l with outputs := modifyFirst p f l.outputs } : Ledger).objects = G + l.objects := by
  unfold objects
  rw [sum_map_modifyFirst hf he]
  abel

theorem objects_modifySeat (l : Ledger) {p : SeatEntry → Bool} {f : SeatEntry → SeatEntry}
    {e : SeatEntry} {G : Multiset ObjectId} (he : l.seats.find? p = some e)
    (hf : (f e).objects = G + e.objects) :
    ({ l with seats := modifyFirst p f l.seats } : Ledger).objects = G + l.objects := by
  unfold objects
  rw [sum_map_modifyFirst hf he]
  abel

end Ledger

/-! ## Handlers -/

/-- The object that a request binds to a global of the given name. -/
def Request.boundTo (name : ℕ) : Request → Option ObjectId
  | .bind n x => if n = name then some x else none
  | _ => none

namespace AppData

variable {d d' : AppData} (base : ℕ)

/-- The objects after a handler that changes only the ledger. -/
theorem objects_of_ledger {l : Ledger} (hledger : d'.state.ledger = l)
    (hfixed : d'.fixed = d.fixed) :
    d'.objects = l.objects + d.bindingObjects ∧ d'.nextObject = d.nextObject := by
  simp only [fixed, Prod.mk.injEq] at hfixed
  unfold objects bindingObjects
  rw [hledger, hfixed.2.2.1, hfixed.2.2.2.1]
  exact ⟨rfl, hfixed.2.2.2.2.2⟩

theorem triple_of_routine (h : Routine State.ledger d d') : ∃ rs, d'.sent = d.sent ++ rs ∧
    Triple base d.nextObject d.objects (deeds rs) d'.nextObject d'.objects := by
  obtain ⟨rs, hrs, hfree⟩ := h.sent
  obtain ⟨hobjects, hnext⟩ := objects_of_ledger h.state h.fixed
  refine ⟨rs, hrs, ?_⟩
  rw [deeds_free hfree, hobjects, hnext]
  exact Triple.nil

theorem triple_newWindow (d : AppData) (window : ObjectId) : ∃ rs,
    (d.newWindow window).sent = d.sent ++ rs ∧
      Triple base d.nextObject (window ::ₘ d.objects) (deeds rs) (d.newWindow window).nextObject
        (d.newWindow window).objects := by
  obtain ⟨hbooks, hsent, hfixed⟩ := newWindow_spec d window
  obtain ⟨hobjects, hnext⟩ := objects_of_ledger (congrArg Prod.fst hbooks) hfixed
  refine ⟨[], by rw [hsent, List.append_nil], ?_⟩
  rw [hobjects, hnext, Ledger.objects_addWindow, add_assoc]
  exact Triple.nil

theorem triple_newOutput {output : ObjectId} (h : d.newOutput output = some d') : ∃ rs,
    d'.sent = d.sent ++ rs ∧
      Triple base d.nextObject (output ::ₘ d.objects) (deeds rs) d'.nextObject d'.objects := by
  obtain ⟨hbooks, hsent, hfixed⟩ := newOutput_spec h
  obtain ⟨hobjects, hnext⟩ := objects_of_ledger (congrArg Prod.fst hbooks) hfixed
  refine ⟨_, hsent, ?_⟩
  rw [hobjects, hnext, Ledger.objects_addOutput, add_assoc]
  change Triple base d.nextObject ({output} + d.objects) _ _
    ((d.newOutputEntry output).objects + d.objects)
  unfold newOutputEntry OutputEntry.objects
  cases d.layerShell with
  | false => exact Triple.nil
  | true =>
    have hmem : output ∈ ({output} + d.objects : Multiset ObjectId) :=
      Multiset.mem_add.mpr (Or.inl (Multiset.mem_singleton_self output))
    have hafter : (output ::ₘ {d.nextObject}) + d.objects =
        d.nextObject ::ₘ ({output} + d.objects) := by
      rw [← Multiset.singleton_add, ← Multiset.singleton_add]
      abel
    exact hafter ▸ Triple.createFor hmem

theorem triple_newSeat (d : AppData) (seat : ObjectId) : ∃ rs,
    (d.newSeat seat).sent = d.sent ++ rs ∧
      Triple base d.nextObject (seat ::ₘ d.objects) (deeds rs) (d.newSeat seat).nextObject
        (d.newSeat seat).objects := by
  obtain ⟨hbooks, hsent, hfixed⟩ := newSeat_spec d seat
  refine ⟨_, hsent, ?_⟩
  generalize d.newSeat seat = d' at hbooks hfixed
  simp only [fixed, Prod.mk.injEq] at hfixed
  obtain ⟨-, -, hbindings, hpointer, -, hnext⟩ := hfixed
  have hledger : d'.state.ledger = _ := congrArg Prod.fst hbooks
  dsimp only at hledger
  have hkeys : Triple base d.nextObject (seat ::ₘ d.objects) (deeds ((d.seatKeys.zipIdx
      d.nextObject).map fun p => Request.getXkbBinding seat p.1.1 p.1.2.1 p.2))
      (d.nextObject + d.seatKeys.length)
      (↑((d.seatKeys.zipIdx d.nextObject).map (·.2)) + seat ::ₘ d.objects) := by
    rw [deeds, List.flatMap_map]
    exact Triple.createAll (Multiset.mem_cons_self seat d.objects)
  generalize hH : (↑((d.seatKeys.zipIdx d.nextObject).map (·.2)) + seat ::ₘ d.objects :
    Multiset ObjectId) = H at hkeys
  have hseat : seat ∈ H := hH ▸ Multiset.mem_add.mpr (Or.inr (Multiset.mem_cons_self seat _))
  generalize hk : d.nextObject + d.seatKeys.length = k at hkeys hbindings hpointer hnext hledger
  have hbuttons : Triple base k H
      (deeds [.getPointerBinding seat 0x110 (parseModifiers "" d.config.modifier) k,
        .getPointerBinding seat 0x111 (parseModifiers "" d.config.modifier) (k + 1)])
      (k + 2) ((k + 1) ::ₘ k ::ₘ H) :=
    (Triple.createFor hseat).seq (Triple.createFor (Multiset.mem_cons_of_mem hseat))
  have hlayer : Triple base (k + 2) ((k + 1) ::ₘ k ::ₘ H)
      (deeds ((if d.layerShell then some (k + 2) else none).map
        (Request.layerGetSeat seat)).toList)
      (k + 2 + if d.layerShell then 1 else 0)
      (↑(if d.layerShell then some (k + 2) else none : Option ObjectId).toList +
        (k + 1) ::ₘ k ::ₘ H) := by
    cases d.layerShell with
    | false =>
      change Triple base (k + 2) _ [] (k + 2) (0 + _)
      rw [zero_add]
      exact Triple.nil
    | true => exact Triple.createFor (Multiset.mem_cons_of_mem (Multiset.mem_cons_of_mem hseat))
  have hafter : d'.objects = ↑(if d.layerShell then some (k + 2) else none :
      Option ObjectId).toList + (k + 1) ::ₘ k ::ₘ H := by
    rw [objects, bindingObjects, hledger, hbindings, hpointer, Ledger.objects_addSeat, ← hH, objects,
      bindingObjects]
    simp only [SeatEntry.objects, List.map_append, List.map_map, Function.comp_def, List.map_cons,
      List.map_nil, Option.toList_none, List.append_nil, ← Multiset.coe_add,
      ← Multiset.singleton_add, ← Multiset.cons_coe, Multiset.coe_nil]
    abel
  rw [deeds_append, deeds_append, hafter, hnext]
  exact (hkeys.seq hbuttons).seq hlayer

/-- A window that closes is destroyed, and its node before it. -/
theorem triple_windowClosed {w : Window} (hnodup : d.objects.Nodup) (hw : w ∈ d.state.windows) :
    ∃ rs, (d.windowClosed w.proxy w).sent = d.sent ++ rs ∧
      Triple base d.nextObject d.objects (deeds rs) (d.windowClosed w.proxy w).nextObject
        (d.windowClosed w.proxy w).objects := by
  obtain ⟨hbooks, hsent, hfixed⟩ := windowClosed_spec d w.proxy w
  obtain ⟨hobjects, hnext⟩ := objects_of_ledger (congrArg Prod.fst hbooks) hfixed
  refine ⟨_, hsent, ?_⟩
  have hkeys : (d.state.ledger.windows.map WindowEntry.proxy).Nodup := by
    refine nodup_keys (f := WindowEntry.objects) (fun e => Multiset.mem_cons_self _ _) ?_
    rw [objects, Ledger.objects, add_assoc] at hnodup
    exact (Multiset.nodup_add.mp hnodup).1
  have hfilter : d.state.ledger.windows.filter (fun e => e.proxy == w.proxy) = [w.entry] :=
    filter_key (k := WindowEntry.proxy) (a := w.entry) hkeys (List.mem_map_of_mem hw)
  have hbefore := Ledger.objects_dropWindows d.state.ledger fun e => e.proxy == w.proxy
  rw [hfilter, List.map_singleton, List.sum_singleton] at hbefore
  have hdeeds : deeds ((w.node.map Request.destroyNode).toList ++ [.destroy w.proxy]) =
      (w.node.toList ++ [w.proxy]).map .destroy := by
    cases w.node <;> rfl
  have hentry : w.entry.objects = ↑(w.node.toList ++ [w.proxy]) := by
    rw [← Multiset.coe_add, add_comm]
    rfl
  have hfilters : (fun e : WindowEntry => decide (e.proxy ≠ w.proxy)) =
      fun e => !(e.proxy == w.proxy) := by
    funext e
    rw [decide_not, beq_eq_decide]
  rw [hdeeds, hobjects, hnext, hfilters, objects, hbefore, hentry, add_assoc]
  exact Triple.destroyAll (w.node.toList ++ [w.proxy])

/-- The entry that a search for its object finds. -/
theorem find_output (hnodup : d.objects.Nodup) {e : OutputEntry} (he : e ∈ d.state.ledger.outputs) :
    d.state.ledger.outputs.find? (fun e' => e'.proxy == e.proxy) = some e := by
  refine find_key (k := OutputEntry.proxy) (nodup_keys (f := OutputEntry.objects)
    (fun e => Multiset.mem_cons_self _ _) ?_) he
  rw [objects, Ledger.objects, add_assoc, add_assoc] at hnodup
  exact (Multiset.nodup_add.mp (Multiset.nodup_add.mp hnodup).2.1).1

theorem nodup_seats (hnodup : d.objects.Nodup) :
    (d.state.ledger.seats.map SeatEntry.proxy).Nodup := by
  refine nodup_keys (f := SeatEntry.objects) (fun e => Multiset.mem_cons_self _ _) ?_
  rw [objects, Ledger.objects] at hnodup
  exact (Multiset.nodup_add.mp (Multiset.nodup_add.mp (Multiset.nodup_add.mp hnodup).1).2.1).2.1

/-- The name of an output brings its `wl_output`. -/
theorem triple_bindWlOutput (hnodup : d.objects.Nodup) {output : ObjectId} (name : ℕ)
    (hnew : ∃ e ∈ d.state.ledger.outputs, e.proxy = output ∧ e.wlOutput = none) : ∃ rs,
    (d.bindWlOutput output name).sent = d.sent ++ rs ∧
      Triple base d.nextObject d.objects (deeds rs) (d.bindWlOutput output name).nextObject
        (d.bindWlOutput output name).objects := by
  obtain ⟨e, he, rfl, hnone⟩ := hnew
  obtain ⟨hbooks, hsent, hfixed⟩ := bindWlOutput_spec d e.proxy name
  refine ⟨_, hsent, ?_⟩
  obtain ⟨hobjects, hnext⟩ := objects_of_ledger (d := { d with nextObject := d.nextObject + 1 })
    (congrArg Prod.fst hbooks) hfixed
  have hentry : ({ e with wlOutput := some d.nextObject } : OutputEntry).objects =
      {d.nextObject} + e.objects := by
    simp only [OutputEntry.objects, hnone, Option.toList_some, Option.toList_none, List.append_nil,
      ← Multiset.coe_add, Multiset.coe_singleton, ← Multiset.singleton_add]
    abel
  rw [hobjects, hnext, Ledger.objects_modifyOutput _ (find_output hnodup he) hentry, add_assoc]
  exact Triple.create

/-- The objects of an output that goes are destroyed. -/
theorem triple_outputRemoved {idx : ℕ} {o : Output} (ho : d.state.outputs[idx]? = some o)
    (h : d.outputRemoved idx o = some d') : ∃ rs, d'.sent = d.sent ++ rs ∧
      Triple base d.nextObject d.objects (deeds rs) d'.nextObject d'.objects := by
  obtain ⟨hidx, -⟩ := List.getElem?_eq_some_iff.mp ho
  obtain ⟨hbooks, hsent, hfixed⟩ := outputRemoved_spec hidx h
  refine ⟨_, hsent, ?_⟩
  obtain ⟨hobjects, hnext⟩ := objects_of_ledger (d := { d with layerDefaultSet := false })
    (congrArg Prod.fst hbooks) hfixed
  have hentry : d.state.ledger.outputs[idx]? = some o.entry := by
    change (d.state.outputs.map Output.entry)[idx]? = _
    rw [List.getElem?_map, ho]
    rfl
  have hdeeds : deeds ((o.layer.map Request.destroy).toList ++
      (o.wlOutput.map Request.destroy).toList ++ [.destroy o.proxy, .manageDirty]) =
        (o.layer.toList ++ o.wlOutput.toList ++ [o.proxy]).map .destroy := by
    cases o.layer <;> cases o.wlOutput <;> rfl
  have hobject : o.entry.objects = ↑(o.layer.toList ++ o.wlOutput.toList ++ [o.proxy]) := by
    rw [← Multiset.coe_add, add_comm]
    rfl
  rw [hdeeds, hobjects, hnext, objects, Ledger.objects_dropOutput _ hentry, hobject, add_assoc]
  exact Triple.destroyAll _

/-- The objects of a seat that goes are destroyed, and its bindings before them. -/
theorem triple_seatRemoved (hnodup : d.objects.Nodup) (seat : ObjectId) : ∃ rs,
    (d.seatRemoved seat).sent = d.sent ++ rs ∧
      Triple base d.nextObject d.objects (deeds rs) (d.seatRemoved seat).nextObject
        (d.seatRemoved seat).objects := by
  obtain ⟨hbooks, hsent, hfixed⟩ := seatRemoved_spec d seat
  refine ⟨_, hsent, ?_⟩
  generalize d.seatRemoved seat = d' at hbooks hfixed
  simp only [fixed, Prod.mk.injEq] at hfixed
  obtain ⟨-, -, hbindings, hpointer, -, hnext⟩ := hfixed
  have hledger : d'.state.ledger = _ := congrArg Prod.fst hbooks
  dsimp only at hledger
  generalize hremoved : d.state.seats.filter (fun t => t.proxy == seat) = removed
  have hobjects : (↑((removed.head?.map fun t => t.layer.toList ++ [t.proxy]).getD [] ++
      removed.flatMap fun t => t.cursorShape.toList ++ t.pointer.toList) : Multiset ObjectId) =
        ((d.state.ledger.seats.filter fun e => e.proxy == seat).map SeatEntry.objects).sum := by
    have hentries : d.state.ledger.seats.filter (fun e => e.proxy == seat) =
        removed.map Seat.entry := by
      rw [← hremoved]
      exact List.filter_map ..
    cases removed with
    | nil => rw [hentries]; rfl
    | cons t rest =>
      have ht : t ∈ d.state.seats.filter fun t => t.proxy == seat := hremoved ▸ List.mem_cons_self
      obtain ⟨hmem, hproxy⟩ := List.mem_filter.mp ht
      obtain rfl := beq_iff_eq.mp hproxy
      have hone := filter_key (k := SeatEntry.proxy) (a := t.entry) (nodup_seats hnodup)
        (List.mem_map_of_mem hmem)
      have hrest : rest.map Seat.entry = [] := (List.cons.inj (hentries.symm.trans hone)).2
      rw [List.map_eq_nil_iff.mp hrest] at hentries ⊢
      rw [hentries]
      simp only [List.head?_cons, Option.map_some, Option.getD_some, List.flatMap_cons,
        List.flatMap_nil, List.append_nil, List.map_cons, List.map_nil, List.sum_singleton,
        SeatEntry.objects, Seat.entry, ← Multiset.coe_add, Multiset.coe_singleton,
        ← Multiset.singleton_add]
      abel
  have hdestroy (l : List (ObjectId × String × ObjectId)) :
      l.map (fun b => Request.destroy b.1) = (l.map (·.1)).map Request.destroy := by
    rw [List.map_map]
    rfl
  have hbefore : d.objects = ↑((d.bindings.filter fun b => b.2.2 == seat).map (·.1) ++
      (d.pointerBindings.filter fun b => b.2.2 == seat).map (·.1) ++
      ((removed.head?.map fun t => t.layer.toList ++ [t.proxy]).getD [] ++
        removed.flatMap fun t => t.cursorShape.toList ++ t.pointer.toList)) + d'.objects := by
    rw [objects, bindingObjects, Ledger.objects_dropSeats _ fun e => e.proxy == seat, ← hobjects,
      coe_map_filter (fun b : ObjectId × String × ObjectId => b.2.2 == seat) (·.1) d.bindings,
      coe_map_filter (fun b : ObjectId × String × ObjectId => b.2.2 == seat) (·.1)
        d.pointerBindings, objects, bindingObjects, hledger, hbindings, hpointer]
    simp only [← Multiset.coe_add]
    abel
  rw [hdestroy, hdestroy, ← List.map_append, ← List.map_append, deeds_destroy, hbefore, hnext]
  exact Triple.destroyAll _

/-- The name of a seat brings its pointer and its cursor, and a `wl_seat` nobody keeps. -/
theorem triple_bindWlSeat (hnodup : d.objects.Nodup) {seat : ObjectId} (name : ℕ)
    (hnew : ∃ e ∈ d.state.ledger.seats, e.proxy = seat ∧ e.pointer = none ∧ e.cursorShape = none) :
    ∃ rs, (d.bindWlSeat seat name).sent = d.sent ++ rs ∧
      Triple base d.nextObject d.objects (deeds rs) (d.bindWlSeat seat name).nextObject
        ((d.bindWlSeat seat name).objects + {d.nextObject}) ∧
      rs.findSome? (Request.boundTo name) = some d.nextObject := by
  obtain ⟨e, he, rfl, hpointer, hcursor⟩ := hnew
  obtain ⟨hbooks, hsent, hfixed⟩ := bindWlSeat_spec d e.proxy name
  refine ⟨_, hsent, ?_, by simp [Request.boundTo]⟩
  obtain ⟨hobjects, hnext⟩ := objects_of_ledger (d := { d with nextObject := d.nextObject + 3 })
    (congrArg Prod.fst hbooks) hfixed
  have hfind := find_key (k := SeatEntry.proxy) (nodup_seats hnodup) he
  have hpair : Triple base d.nextObject d.objects (deeds [.bind name d.nextObject,
      .bind name (d.nextObject + 1)]) (d.nextObject + 2)
      ((d.nextObject + 1) ::ₘ d.nextObject ::ₘ d.objects) :=
    Triple.create.seq Triple.create
  generalize hshape : (if d.cursorShapeManager then some (d.nextObject + 2) else none :
    Option ObjectId) = shape at hobjects
  have hdevice {H : Multiset ObjectId} : Triple base (d.nextObject + 2) H
      (deeds (shape.map (Request.bind name)).toList) (d.nextObject + 3) (↑shape.toList + H) := by
    rw [← hshape]
    cases d.cursorShapeManager with
    | false =>
      change Triple base (d.nextObject + 2) H [] (d.nextObject + 3) (0 + H)
      rw [zero_add]
      exact Triple.skip (Nat.le_succ _)
    | true => exact Triple.create
  have hentry : ({ e with pointer := some (d.nextObject + 1), cursorShape := shape } :
      SeatEntry).objects = (↑shape.toList + {d.nextObject + 1}) + e.objects := by
    simp only [SeatEntry.objects, hpointer, hcursor, Option.toList_some, Option.toList_none,
      List.append_nil, ← Multiset.coe_add, Multiset.coe_singleton, ← Multiset.singleton_add]
    abel
  have hafter : (d.bindWlSeat e.proxy name).objects + {d.nextObject} =
      ↑shape.toList + (d.nextObject + 1) ::ₘ d.nextObject ::ₘ d.objects := by
    rw [hobjects, Ledger.objects_modifySeat _ hfind hentry]
    simp only [objects, bindingObjects, ← Multiset.singleton_add]
    abel
  rw [deeds_append, hnext, hafter]
  exact hpair.seq hdevice

end AppData

/-- The object an event brings. -/
def Event.brings : Event → Option ObjectId
  | .newWindow x | .newOutput x | .newSeat x => some x
  | _ => none

/-- The `wl_seat` of the seat an event names : the first object that is bound to the name. -/
def Event.wlSeat (rs : List Request) : Event → Option ObjectId
  | .seat _ (.wlSeat name) => rs.findSome? (Request.boundTo name)
  | _ => none

/-- The event is about an output or seat whose global is not named yet, if it names one. -/
def Event.NamesNew (d : AppData) : Event → Prop
  | .output x (.wlOutput _) => ∃ e ∈ d.state.ledger.outputs, e.proxy = x ∧ e.wlOutput = none
  | .seat x (.wlSeat _) =>
    ∃ e ∈ d.state.ledger.seats, e.proxy = x ∧ e.pointer = none ∧ e.cursorShape = none
  | _ => True

namespace AppData

variable {d d' : AppData} (base : ℕ)

/-- From its holdings, and the object the event brings, a handler comes to its holdings again,
and to a `wl_seat` it does not keep when the event names a seat. -/
theorem triple_handle (hids : d.state.FreshIds) (hops : d.OpsHeld)
    (hnodup : d.objects.Nodup) {event : Event} (hnew : event.NamesNew d)
    (h : d.handle event = some d') : ∃ rs, d'.sent = d.sent ++ rs ∧
      Triple base d.nextObject (↑event.brings.toList + d.objects) (deeds rs) d'.nextObject
        (d'.objects + ↑(event.wlSeat rs).toList) := by
  have hkept {rs : List Request} (hsent : d'.sent = d.sent ++ rs)
      (ht : Triple base d.nextObject (↑event.brings.toList + d.objects) (deeds rs) d'.nextObject
        d'.objects) (hevent : event.wlSeat rs = none) : ∃ rs, d'.sent = d.sent ++ rs ∧
      Triple base d.nextObject (↑event.brings.toList + d.objects) (deeds rs) d'.nextObject
        (d'.objects + ↑(event.wlSeat rs).toList) := by
    refine ⟨rs, hsent, ?_⟩
    rw [hevent]
    exact (add_zero d'.objects).symm ▸ ht
  have hquiet {rs : List Request} (hsent : d'.sent = d.sent ++ rs)
      (ht : Triple base d.nextObject d.objects (deeds rs) d'.nextObject d'.objects)
      (hbrings : event.brings = none) (hevent : event.wlSeat rs = none) :
      ∃ rs, d'.sent = d.sent ++ rs ∧
      Triple base d.nextObject (↑event.brings.toList + d.objects) (deeds rs) d'.nextObject
        (d'.objects + ↑(event.wlSeat rs).toList) := by
    refine hkept hsent ?_ hevent
    rw [hbrings]
    exact (zero_add d.objects).symm ▸ ht
  cases effect_handle hids.nodup h with
  | routine hevent h _ =>
    obtain ⟨rs, hrs, ht⟩ := triple_of_routine base h
    refine hquiet hrs ht ?_ ?_
    · cases event <;> first | rfl | cases hevent
    · cases event with
      | seat _ event => cases event <;> first | rfl | cases hevent
      | _ => rfl
  | newWindow window =>
    obtain ⟨rs, hrs, ht⟩ := triple_newWindow base d window
    exact hkept hrs ht rfl
  | closed hw =>
    obtain ⟨rs, hrs, ht⟩ := triple_windowClosed base hnodup hw
    exact hquiet hrs ht rfl rfl
  | newOutput h =>
    obtain ⟨rs, hrs, ht⟩ := triple_newOutput base h
    exact hkept hrs ht rfl
  | wlOutput output name =>
    obtain ⟨rs, hrs, ht⟩ := triple_bindWlOutput base hnodup name hnew
    exact hquiet hrs ht rfl rfl
  | outputRemoved ho h =>
    obtain ⟨rs, hrs, ht⟩ := triple_outputRemoved base ho h
    exact hquiet hrs ht rfl rfl
  | newSeat seat =>
    obtain ⟨rs, hrs, ht⟩ := triple_newSeat base d seat
    exact hkept hrs ht rfl
  | wlSeat seat name =>
    obtain ⟨rs, hrs, ht, hbound⟩ := triple_bindWlSeat base hnodup name hnew
    refine ⟨rs, hrs, ?_⟩
    rw [Event.wlSeat, hbound]
    exact (zero_add d.objects).symm ▸ ht
  | seatRemoved seat =>
    obtain ⟨rs, hrs, ht⟩ := triple_seatRemoved base hnodup seat
    exact hquiet hrs ht rfl rfl
  | manageStart h =>
    obtain ⟨rs, hrs, ht⟩ := triple_onManageStart base hops h
    exact hquiet hrs ht rfl rfl
  | renderStart h =>
    obtain ⟨rs, hrs, ht⟩ := triple_onRenderStart base hids.nodup h
    exact hquiet hrs ht rfl rfl

end AppData

/-! ## Outputs and seats held -/

/-- The event changes what is held for outputs. -/
def Event.OfOutputs : Event → Bool
  | .newOutput _ | .output _ (.wlOutput _) | .output _ .removed => true
  | _ => false

/-- The event changes what is held for seats. -/
def Event.HoldsSeats : Event → Bool
  | .newSeat _ | .seat _ (.wlSeat _) | .seat _ .removed => true
  | _ => false

namespace AppData

variable {d d' : AppData}

/-- What is held for outputs changes with the events about them only, and so for seats. -/
theorem ledger_handle (hids : (d.state.windows.map (·.id)).Nodup) {event : Event}
    (h : d.handle event = some d') :
    (event.OfOutputs = false → d'.state.ledger.outputs = d.state.ledger.outputs) ∧
      (event.HoldsSeats = false → d'.state.ledger.seats = d.state.ledger.seats) := by
  have hsame {l : Ledger} (houtputs : l.outputs = d.state.ledger.outputs)
      (hseats : l.seats = d.state.ledger.seats) {a b : Prop} :
      (a → l.outputs = d.state.ledger.outputs) ∧ (b → l.seats = d.state.ledger.seats) :=
    ⟨fun _ => houtputs, fun _ => hseats⟩
  cases effect_handle hids h with
  | routine _ h _ => exact hsame (congrArg Ledger.outputs h.state) (congrArg Ledger.seats h.state)
  | newWindow window =>
    have hbooks := (newWindow_spec d window).1
    exact hsame (congrArg (·.1.outputs) hbooks) (congrArg (·.1.seats) hbooks)
  | @closed w _ =>
    have hbooks := (windowClosed_spec d w.proxy w).1
    exact hsame (congrArg (·.1.outputs) hbooks) (congrArg (·.1.seats) hbooks)
  | newOutput h =>
    exact ⟨by simp [Event.OfOutputs], fun _ => congrArg (·.1.seats) (newOutput_spec h).1⟩
  | wlOutput output name => exact ⟨by simp [Event.OfOutputs], fun _ => rfl⟩
  | outputRemoved ho h =>
    have hbooks := (outputRemoved_spec (List.getElem?_eq_some_iff.mp ho).1 h).1
    exact ⟨by simp [Event.OfOutputs], fun _ => congrArg (·.1.seats) hbooks⟩
  | newSeat seat =>
    have hbooks := (newSeat_spec d seat).1
    exact ⟨fun _ => congrArg (·.1.outputs) hbooks, by simp [Event.HoldsSeats]⟩
  | wlSeat seat name => exact ⟨fun _ => rfl, by simp [Event.HoldsSeats]⟩
  | seatRemoved seat =>
    have hbooks := (seatRemoved_spec d seat).1
    exact ⟨fun _ => congrArg (·.1.outputs) hbooks, by simp [Event.HoldsSeats]⟩
  | manageStart h =>
    obtain ⟨routed, gs, -, -, rfl⟩ := onManageStart_eq h
    have hbooks := loop_keeps State.books (fun _ _ _ => State.books_refocusOutput)
      d.state.refocusAll_eq.1
    exact hsame (congrArg (·.1.outputs) hbooks) (congrArg (·.1.seats) hbooks)
  | renderStart h =>
    obtain ⟨focused, gs, published, -, -, rfl⟩ := onRenderStart_eq hids h
    exact hsame rfl rfl

/-- Numbers are never given back. -/
theorem nextObject_handle (hids : (d.state.windows.map (·.id)).Nodup) {event : Event}
    (h : d.handle event = some d') : d.nextObject ≤ d'.nextObject := by
  have hnext {a b : AppData} (h : a.fixed = b.fixed) : a.nextObject = b.nextObject :=
    congrArg (·.2.2.2.2.2) h
  cases effect_handle hids h with
  | routine _ h _ => exact (hnext h.fixed).ge
  | newWindow window => exact (hnext (newWindow_spec d window).2.2).ge
  | closed _ => exact (hnext (windowClosed_spec d _ _).2.2).ge
  | newOutput h => exact hnext (newOutput_spec h).2.2 ▸ Nat.le_add_right _ _
  | wlOutput output name => exact Nat.le_succ _
  | outputRemoved ho h =>
    exact (hnext (outputRemoved_spec (List.getElem?_eq_some_iff.mp ho).1 h).2.2).ge
  | newSeat seat =>
    refine le_of_le_of_eq ?_ (hnext (newSeat_spec d seat).2.2).symm
    exact ((Nat.le_add_right _ _).trans (Nat.le_add_right _ 2)).trans (Nat.le_add_right _ _)
  | wlSeat seat name => exact Nat.le_add_right _ 3
  | seatRemoved seat => exact (hnext (seatRemoved_spec d seat).2.2).ge
  | manageStart h =>
    obtain ⟨routed, gs, -, -, rfl⟩ := onManageStart_eq h
    exact le_rfl
  | renderStart h =>
    obtain ⟨focused, gs, published, -, -, rfl⟩ := onRenderStart_eq hids h
    exact (triple_beginRender 0 d).choose_spec.2.1

/-- The seats an event names are there. -/
def SeatKnown (d : AppData) : Event → Prop
  | .window _ (.pointerMoveRequested seat) | .window _ (.pointerResizeRequested seat _) =>
    seat ∈ d.state.seats.map (·.proxy)
  | _ => True

/-- Pointer operations stay on seats that are there. -/
theorem opsHeld_handle (hs : d.state.WellFormed) (hops : d.OpsHeld) {event : Event}
    (hknown : d.SeatKnown event) (h : d.handle event = some d') : d'.OpsHeld := by
  cases hevent : event.OfSeats with
  | false =>
    -- a compositor that has announced nothing yet but these seats
    have hsends : ({ River.new with seats := d.state.seats.map (·.proxy), op := fun _ => some 0 } :
        River).sends event = true := by
      cases event with
      | window window event =>
        cases event <;> first | rfl | exact List.contains_iff_mem.mpr hknown
      | seat seat event => cases event <;> rfl
      | _ => rfl
    obtain ⟨d₁, hd₁, hstaged⟩ := staged_handle hs hsends rfl hevent
    obtain rfl := Option.some.inj (hd₁.symm.trans h)
    intro op hop
    rw [hstaged.seats]
    rcases hop with hop | hop
    · exact (hstaged.pendingOp op hop).elim (fun hop => hops op (Or.inl hop)) fun hmem => hmem
    · exact hops op (Or.inr (hstaged.pointerOp ▸ hop))
  | true =>
    cases event with
    | newSeat seat =>
      obtain ⟨-, hseats, hop, hpending, -⟩ := steady_newSeat (d := d) seat
      obtain rfl := Option.some.inj h
      intro op hheld
      rw [hseats]
      rw [hop, hpending] at hheld
      exact List.mem_append_left _ (hops op hheld)
    | manageStart =>
      obtain ⟨d₁, hd₁, hseats, hpending, hop, -⟩ := onManageStart_ops hs
      obtain rfl := Option.some.inj (hd₁.symm.trans h)
      intro op hheld
      rw [hpending, hop] at hheld
      rw [hseats]
      rcases hheld with hheld | hheld
      · cases hheld
      · split_ifs at hheld
        exact hops op (Option.or_eq_some_iff.mp hheld |>.imp_right (·.2))
    | seat seat event =>
      cases event with
      | removed =>
        obtain ⟨hop, hpending⟩ := seatRemoved_ops (d := d) seat
        have hseats := seatRemoved_seats (d := d) seat
        obtain rfl := Option.some.inj h
        intro op hheld
        change (d.seatRemoved seat).pendingOp = some op ∨ _ at hheld
        rw [hop, hpending, Option.filter_eq_some_iff, Option.filter_eq_some_iff] at hheld
        change op.seat ∈ (d.seatRemoved seat).state.seats.map (·.proxy)
        rw [hseats]
        rcases hheld with ⟨hheld, hne⟩ | ⟨hheld, hne⟩
        · exact List.mem_filter.mpr ⟨hops op (Or.inl hheld), hne⟩
        · exact List.mem_filter.mpr ⟨hops op (Or.inr hheld), hne⟩
      | _ => cases hevent
    | _ => cases hevent

end AppData

/-! ## River and the window manager -/

/-- The window manager and what river keeps of the objects. -/
structure Registry where
  data : AppData
  /-- The objects that are live. -/
  live : Finset ObjectId
  /-- The seats that are there. -/
  seats : Finset ObjectId
  /-- The outputs and the seats whose globals are not named yet. -/
  newOutputs : Finset ObjectId
  newSeats : Finset ObjectId
  /-- How many seats have been named. -/
  seatsNamed : ℕ
  /-- The `wl_seat` objects that they were bound to. -/
  wlSeats : Multiset ObjectId

namespace Registry

def new (config : Config) (xkb layerShell cursorShapeManager : Bool) : Registry :=
  { data := AppData.new config xkb layerShell cursorShapeManager
    live := ∅, seats := ∅, newOutputs := ∅, newSeats := ∅, seatsNamed := 0, wlSeats := 0 }

/-- River may send the event : an object it announces is new, a global is named once, and the
seat of an interactive operation is there. -/
def sends (base : ℕ) (v : Registry) : Event → Bool
  | .newWindow x | .newOutput x | .newSeat x => decide (x ∉ v.live ∧ base ≤ x)
  | .output x (.wlOutput _) => decide (x ∈ v.newOutputs)
  | .seat x (.wlSeat _) => decide (x ∈ v.newSeats)
  | .window _ (.pointerMoveRequested seat) | .window _ (.pointerResizeRequested seat _) =>
    decide (seat ∈ v.seats)
  | _ => true

/-- What river changes when it sends the event. -/
def observe (v : Registry) : Event → Registry
  | .newWindow x => { v with live := insert x v.live }
  | .newOutput x => { v with live := insert x v.live, newOutputs := insert x v.newOutputs }
  | .newSeat x =>
    { v with live := insert x v.live, seats := insert x v.seats, newSeats := insert x v.newSeats }
  | .output x (.wlOutput _) => { v with newOutputs := v.newOutputs.erase x }
  | .output x .removed => { v with newOutputs := v.newOutputs.erase x }
  | .seat x (.wlSeat _) =>
    { v with newSeats := v.newSeats.erase x, seatsNamed := v.seatsNamed + 1 }
  | .seat x .removed => { v with seats := v.seats.erase x, newSeats := v.newSeats.erase x }
  | _ => v

/-- One event; `none` when river does not send it or its handler panics. -/
def next (base : ℕ) (v : Registry) (event : Event) : Option Registry :=
  if v.sends base event then do
    let data ← v.data.handle event
    let rs := data.sent.drop v.data.sent.length
    return { v.observe event with
      data
      live := performAll (v.observe event).live (deeds rs)
      wlSeats := v.wlSeats + ↑(event.wlSeat rs).toList }
  else none

def Step (base : ℕ) (v : Registry) (event : Event) (v' : Registry) : Prop :=
  v.next base event = some v'

/-- What every reached registry keeps. -/
structure Invariant (base : ℕ) (v : Registry) : Prop where
  wellFormed : v.data.state.WellFormed
  freshIds : v.data.state.FreshIds
  opsHeld : v.data.OpsHeld
  seats : ∀ x ∈ v.seats, x ∈ v.data.state.seats.map (·.proxy)
  newOutputs : ∀ x ∈ v.newOutputs,
    ∃ e ∈ v.data.state.ledger.outputs, e.proxy = x ∧ e.wlOutput = none
  newSeats : ∀ x ∈ v.newSeats,
    ∃ e ∈ v.data.state.ledger.seats, e.proxy = x ∧ e.pointer = none ∧ e.cursorShape = none
  holds : v.data.nextObject ≤ base →
    Holds base v.data.nextObject v.data.objects v.wlSeats v.live ∧ v.wlSeats.card = v.seatsNamed

variable {base : ℕ} {v v' : Registry} {event : Event}

theorem step_iff : Step base v event v' ↔ v.sends base event = true ∧
    v.data.handle event = some v'.data ∧ v' = { v.observe event with
      data := v'.data
      live := performAll (v.observe event).live (deeds (v'.data.sent.drop v.data.sent.length))
      wlSeats := v.wlSeats + ↑(event.wlSeat (v'.data.sent.drop v.data.sent.length)).toList } := by
  unfold Step next
  split_ifs with hs
  · rw [Option.bind_eq_bind, Option.bind_eq_some_iff]
    constructor
    · rintro ⟨d, hd, heq⟩
      obtain rfl := Option.some.inj heq
      exact ⟨hs, hd, rfl⟩
    · rintro ⟨-, hd, hv⟩
      exact ⟨v'.data, hd, congrArg some hv.symm⟩
  · simp [hs]

/-- An output river has not named has no `wl_output` yet. -/
theorem newOutputs_handle {d' : AppData} (hids : (v.data.state.windows.map (·.id)).Nodup)
    (hv : ∀ x ∈ v.newOutputs, ∃ e ∈ v.data.state.ledger.outputs, e.proxy = x ∧ e.wlOutput = none)
    (h : v.data.handle event = some d') : ∀ x ∈ (v.observe event).newOutputs,
      ∃ e ∈ d'.state.ledger.outputs, e.proxy = x ∧ e.wlOutput = none := by
  cases hevent : event.OfOutputs with
  | false =>
    have hsame : (v.observe event).newOutputs = v.newOutputs := by
      cases event with
      | newOutput _ => cases hevent
      | output _ event => cases event <;> first | rfl | cases hevent
      | seat _ event => cases event <;> rfl
      | _ => rfl
    rw [hsame, (AppData.ledger_handle hids h).1 hevent]
    exact hv
  | true =>
    cases event with
    | newOutput output =>
      have hout : d'.state.ledger.outputs =
          v.data.state.ledger.outputs ++ [v.data.newOutputEntry output] :=
        congrArg (·.1.outputs) (AppData.newOutput_spec h).1
      rw [hout]
      intro x hx
      rcases Finset.mem_insert.mp hx with rfl | hx
      · exact ⟨_, List.mem_append_right _ (List.mem_singleton_self _), rfl, rfl⟩
      · obtain ⟨e, he, hproxy⟩ := hv x hx
        exact ⟨e, List.mem_append_left _ he, hproxy⟩
    | output output event =>
      cases event with
      | wlOutput name =>
        have hbooks := (AppData.bindWlOutput_spec v.data output name).1
        obtain rfl := Option.some.inj h
        intro x hx
        obtain ⟨hne, hx⟩ := Finset.mem_erase.mp hx
        obtain ⟨e, he, rfl, hnone⟩ := hv x hx
        refine ⟨e, ?_, rfl, hnone⟩
        have hmem := mem_modifyFirst_of_neg (p := fun e : OutputEntry => e.proxy == output)
          (f := fun e => { e with wlOutput := some v.data.nextObject })
          (beq_eq_false_iff_ne.mpr hne) he
        exact (congrArg (·.1.outputs) hbooks : _ = _) ▸ hmem
      | removed =>
        intro x hx
        obtain ⟨hne, hx⟩ := Finset.mem_erase.mp hx
        obtain ⟨e, he, rfl, hnone⟩ := hv x hx
        change v.data.outputEvent output .removed = some d' at h
        unfold AppData.outputEvent at h
        dsimp only at h
        split at h
        · next idx hfound =>
          obtain ⟨o, ho, h⟩ := Option.bind_eq_some_iff.mp h
          obtain ⟨hidx, rfl⟩ := List.getElem?_eq_some_iff.mp ho
          have hproxy : v.data.state.outputs[idx].proxy = output := by
            obtain ⟨_, hp, -⟩ := List.findIdx?_eq_some_iff_getElem.mp hfound
            exact beq_iff_eq.mp hp
          have hout : d'.state.ledger.outputs = v.data.state.ledger.outputs.eraseIdx idx :=
            congrArg (·.1.outputs) (AppData.outputRemoved_spec hidx h).1
          rw [hout]
          refine ⟨e, ?_, rfl, hnone⟩
          obtain ⟨j, hj⟩ := List.getElem?_of_mem he
          refine List.mem_eraseIdx_iff_getElem?.mpr ⟨j, fun hsame => hne ?_, hj⟩
          have hentry : v.data.state.ledger.outputs[idx]? =
              some v.data.state.outputs[idx].entry := by
            change (v.data.state.outputs.map Output.entry)[idx]? = _
            rw [List.getElem?_map, ho]
            rfl
          rw [hsame, hentry] at hj
          rw [← Option.some.inj hj]
          exact hproxy
        · exact Option.some.inj h ▸ ⟨e, he, rfl, hnone⟩
      | _ => cases hevent
    | _ => cases hevent

/-- The seats river knows are there, and one it has not named has no cursor yet. -/
theorem seats_handle {d' : AppData} (hids : (v.data.state.windows.map (·.id)).Nodup)
    (hseats : ∀ x ∈ v.seats, x ∈ v.data.state.ledger.seats.map (·.proxy))
    (hv : ∀ x ∈ v.newSeats,
      ∃ e ∈ v.data.state.ledger.seats, e.proxy = x ∧ e.pointer = none ∧ e.cursorShape = none)
    (h : v.data.handle event = some d') :
    (∀ x ∈ (v.observe event).seats, x ∈ d'.state.ledger.seats.map (·.proxy)) ∧
      ∀ x ∈ (v.observe event).newSeats,
        ∃ e ∈ d'.state.ledger.seats, e.proxy = x ∧ e.pointer = none ∧ e.cursorShape = none := by
  cases hevent : event.HoldsSeats with
  | false =>
    have hsame : (v.observe event).seats = v.seats ∧ (v.observe event).newSeats = v.newSeats := by
      cases event with
      | newSeat _ => cases hevent
      | output _ event => cases event <;> exact ⟨rfl, rfl⟩
      | seat _ event => cases event <;> first | exact ⟨rfl, rfl⟩ | cases hevent
      | _ => exact ⟨rfl, rfl⟩
    rw [hsame.1, hsame.2, (AppData.ledger_handle hids h).2 hevent]
    exact ⟨hseats, hv⟩
  | true =>
    cases event with
    | newSeat seat =>
      obtain ⟨layer, hout⟩ : ∃ layer, d'.state.ledger.seats = v.data.state.ledger.seats ++
          [{ proxy := seat, layer, pointer := none, cursorShape := none }] := by
        obtain rfl := Option.some.inj h
        exact ⟨_, congrArg (·.1.seats) (AppData.newSeat_spec v.data seat).1⟩
      rw [hout]
      refine ⟨fun x hx => ?_, fun x hx => ?_⟩
      · rw [List.map_append]
        rcases Finset.mem_insert.mp hx with rfl | hx
        · exact List.mem_append_right _ (List.mem_singleton_self _)
        · exact List.mem_append_left _ (hseats x hx)
      · rcases Finset.mem_insert.mp hx with rfl | hx
        · exact ⟨_, List.mem_append_right _ (List.mem_singleton_self _), rfl, rfl, rfl⟩
        · obtain ⟨e, he, hproxy⟩ := hv x hx
          exact ⟨e, List.mem_append_left _ he, hproxy⟩
    | seat seat event =>
      cases event with
      | wlSeat name =>
        obtain ⟨f, hf, hout⟩ : ∃ f : SeatEntry → SeatEntry, (∀ e, (f e).proxy = e.proxy) ∧
            d'.state.ledger.seats =
              modifyFirst (fun e => e.proxy == seat) f v.data.state.ledger.seats := by
          obtain rfl := Option.some.inj h
          refine ⟨_, ?_, congrArg (·.1.seats) (AppData.bindWlSeat_spec v.data seat name).1⟩
          exact fun _ => rfl
        rw [hout, map_modifyFirst _ hf]
        refine ⟨hseats, fun x hx => ?_⟩
        obtain ⟨hne, hx⟩ := Finset.mem_erase.mp hx
        obtain ⟨e, he, rfl, hnone⟩ := hv x hx
        have hmem := mem_modifyFirst_of_neg (p := fun e : SeatEntry => e.proxy == seat) (f := f)
          (beq_eq_false_iff_ne.mpr hne) he
        exact ⟨e, hmem, rfl, hnone⟩
      | removed =>
        have hout : d'.state.ledger.seats =
            v.data.state.ledger.seats.filter fun e => !(e.proxy == seat) := by
          obtain rfl := Option.some.inj h
          exact congrArg (·.1.seats) (AppData.seatRemoved_spec v.data seat).1
        have hkeep {e : SeatEntry} (he : e ∈ v.data.state.ledger.seats) (hne : e.proxy ≠ seat) :
            e ∈ d'.state.ledger.seats := by
          rw [hout]
          exact List.mem_filter.mpr ⟨he, by simpa using hne⟩
        refine ⟨fun x hx => ?_, fun x hx => ?_⟩
        · obtain ⟨hne, hx⟩ := Finset.mem_erase.mp hx
          obtain ⟨e, he, rfl⟩ := List.mem_map.mp (hseats x hx)
          exact List.mem_map_of_mem (hkeep he hne)
        · obtain ⟨hne, hx⟩ := Finset.mem_erase.mp hx
          obtain ⟨e, he, rfl, hnone⟩ := hv x hx
          exact ⟨e, hkeep he hne, rfl, hnone⟩
      | _ => cases hevent
    | _ => cases hevent

theorem names_new (hv : v.Invariant base) (hsends : v.sends base event = true) :
    event.NamesNew v.data ∧ v.data.SeatKnown event := by
  cases event with
  | output x event =>
    cases event with
    | wlOutput name => exact ⟨hv.newOutputs x (of_decide_eq_true hsends), trivial⟩
    | _ => exact ⟨trivial, trivial⟩
  | seat x event =>
    cases event with
    | wlSeat name => exact ⟨hv.newSeats x (of_decide_eq_true hsends), trivial⟩
    | _ => exact ⟨trivial, trivial⟩
  | window x event =>
    cases event with
    | pointerMoveRequested seat => exact ⟨trivial, hv.seats seat (of_decide_eq_true hsends)⟩
    | pointerResizeRequested seat _ => exact ⟨trivial, hv.seats seat (of_decide_eq_true hsends)⟩
    | _ => exact ⟨trivial, trivial⟩
  | _ => exact ⟨trivial, trivial⟩

/-- An object that comes is held from then on. -/
theorem holds_observe {n : ℕ} {H G : Multiset ObjectId} (hsends : v.sends base event = true)
    (h : Holds base n H G v.live) :
    Holds base n (↑event.brings.toList + H) G (v.observe event).live := by
  have hlive (hbrings : event.brings = none) (hsame : (v.observe event).live = v.live) :
      Holds base n (↑event.brings.toList + H) G (v.observe event).live := by
    rw [hbrings, hsame]
    exact (zero_add H).symm ▸ h
  cases event with
  | newWindow x | newOutput x | newSeat x =>
    obtain ⟨hx, hbase⟩ := of_decide_eq_true hsends
    exact h.arrive hx hbase
  | output x event => cases event <;> exact hlive rfl rfl
  | seat x event => cases event <;> exact hlive rfl rfl
  | _ => exact hlive rfl rfl

/-- A seat that is named is bound to one `wl_seat`. -/
theorem seatsNamed_observe {d' : AppData} {rs : List Request} (h : v.data.handle event = some d')
    (hrs : d'.sent = v.data.sent ++ rs) :
    (v.observe event).seatsNamed = v.seatsNamed + (event.wlSeat rs).toList.length := by
  cases event with
  | seat x event =>
    cases event with
    | wlSeat name =>
      obtain rfl := Option.some.inj h
      have hsent := (AppData.bindWlSeat_spec v.data x name).2.1
      obtain rfl := List.append_cancel_left (hrs.symm.trans hsent)
      simp [observe, Event.wlSeat, Request.boundTo]
    | _ => rfl
  | output x event => cases event <;> rfl
  | _ => rfl

/-- A step keeps the invariant, and its requests are in order. -/
theorem Invariant.step (hv : v.Invariant base) (h : Step base v event v') : v'.Invariant base ∧
    (v'.data.nextObject ≤ base → ∃ rs, v'.data.sent = v.data.sent ++ rs ∧
      AllowsAll (v.observe event).live (deeds rs)) := by
  obtain ⟨hsends, hd', hv'⟩ := step_iff.mp h
  obtain ⟨hnew, hknown⟩ := names_new hv hsends
  obtain ⟨hwf, hreach⟩ := AppData.Step.wellFormed hv.wellFormed hd'
  have hseatProxies (d : AppData) :
      d.state.ledger.seats.map (·.proxy) = d.state.seats.map (·.proxy) := List.map_map
  obtain ⟨hseats, hnewSeats⟩ := seats_handle hv.freshIds.nodup
    (fun x hx => hseatProxies v.data ▸ hv.seats x hx) hv.newSeats hd'
  have hstep : v'.data.nextObject ≤ base → ∃ rs, v'.data.sent = v.data.sent ++ rs ∧
      AllowsAll (v.observe event).live (deeds rs) ∧
      Holds base v'.data.nextObject v'.data.objects v'.wlSeats v'.live ∧
      v'.wlSeats.card = v'.seatsNamed := by
    intro hbase
    obtain ⟨hF, hcard⟩ :=
      hv.holds ((AppData.nextObject_handle hv.freshIds.nodup hd').trans hbase)
    obtain ⟨rs, hrs, ht⟩ := AppData.triple_handle base hv.freshIds hv.opsHeld hF.nodup hnew hd'
    obtain ⟨hallows, hholds⟩ := ht.2 hbase v.wlSeats _ (holds_observe hsends hF)
    rw [hrs, List.drop_left] at hv'
    refine ⟨rs, hrs, hallows, ?_, ?_⟩
    · rw [hv', add_comm v.wlSeats]
      exact hholds.frame
    · rw [hv', Multiset.card_add, hcard, Multiset.coe_card]
      exact (seatsNamed_observe hd' hrs).symm
  refine ⟨⟨hwf, hv.freshIds.of_reachable hv.wellFormed hreach,
    AppData.opsHeld_handle hv.wellFormed hv.opsHeld hknown hd', ?_, ?_, ?_, ?_⟩, ?_⟩
  · rw [hv', ← hseatProxies]
    exact hseats
  · rw [hv']
    exact newOutputs_handle hv.freshIds.nodup hv.newOutputs hd'
  · rw [hv']
    exact hnewSeats
  · intro hbase
    obtain ⟨rs, -, -, hholds, hcard⟩ := hstep hbase
    exact ⟨hholds, hcard⟩
  · intro hbase
    obtain ⟨rs, hrs, hallows, -⟩ := hstep hbase
    exact ⟨rs, hrs, hallows⟩

theorem invariant_new (config : Config) (xkb layerShell cursorShapeManager : Bool) :
    (new config xkb layerShell cursorShapeManager).Invariant base where
  wellFormed := State.wellFormed_new _
  freshIds := State.freshIds_new _
  opsHeld op hop := by rcases hop with hop | hop <;> cases hop
  seats x hx := by cases hx
  newOutputs x hx := by cases hx
  newSeats x hx := by cases hx
  holds _ := ⟨⟨rfl, fun x hx => by cases hx⟩, rfl⟩

/-- In every run, as long as the window manager numbers its objects below river's, every
request names live objects, creates new ones, and destroys live ones. -/
theorem never_stale {config : Config} {xkb layerShell cursorShapeManager : Bool}
    {τs : List (Transition.Step Registry Event)}
    (h : IsRun (Step base) (new config xkb layerShell cursorShapeManager) τs)
    (hbase : ∀ τ ∈ τs, τ.post.data.nextObject ≤ base) :
    ∀ τ ∈ τs, ∃ rs, τ.post.data.sent = τ.pre.data.sent ++ rs ∧
      AllowsAll (τ.pre.observe τ.event).live (deeds rs) := by
  have hinv := h.invariant (I := Invariant base) (fun _ _ _ hv hst => (hv.step hst).1)
    (invariant_new config xkb layerShell cursorShapeManager)
  intro τ hτ
  exact ((hinv τ hτ).1.step (h.step_of_mem hτ)).2 (hbase τ hτ)

/-- An output and a seat come, are named, and go, with a window between. -/
theorem never_stale_shown : ∃ τs,
    IsRun (Step 1000) (new .default true true true) τs ∧ τs.length = 10 ∧
    ∀ τ ∈ τs, ∃ rs, τ.post.data.sent = τ.pre.data.sent ++ rs ∧
      AllowsAll (τ.pre.observe τ.event).live (deeds rs) := by
  have hrun := isRun_trace (next 1000) [.newOutput 1001, .output 1001 (.wlOutput 1),
    .newSeat 1002, .seat 1002 (.wlSeat 2), .newWindow 1003, .manageStart, .renderStart false,
    .window 1003 .closed, .seat 1002 .removed, .output 1001 .removed] (new .default true true true)
  exact ⟨_, hrun, by decide +kernel, never_stale hrun (by decide +kernel)⟩

/-- In every state of such a run the live objects are those the window manager holds, each held
once, and the `wl_seat` objects of the seats that have been named, one for each. -/
theorem no_leak {config : Config} {xkb layerShell cursorShapeManager : Bool}
    {τs : List (Transition.Step Registry Event)}
    (h : IsRun (Step base) (new config xkb layerShell cursorShapeManager) τs)
    (hbase : ∀ τ ∈ τs, τ.post.data.nextObject ≤ base) :
    ∀ τ ∈ τs, τ.post.live.val = τ.post.data.objects + τ.post.wlSeats ∧
      τ.post.wlSeats.card = τ.post.seatsNamed := by
  have hinv := h.invariant (I := Invariant base) (fun _ _ _ hv hst => (hv.step hst).1)
    (invariant_new config xkb layerShell cursorShapeManager)
  intro τ hτ
  obtain ⟨hholds, hcard⟩ := (hinv τ hτ).2.holds (hbase τ hτ)
  exact ⟨hholds.live, hcard⟩

/-- After everything has gone again, the `wl_seat` is left. -/
theorem no_leak_shown : ∃ τs, IsRun (Step 1000) (new .default true true true) τs ∧
    (∃ τ ∈ τs, τ.post.data.objects = 0 ∧ τ.post.wlSeats.card = 1) ∧
    ∀ τ ∈ τs, τ.post.live.val = τ.post.data.objects + τ.post.wlSeats ∧
      τ.post.wlSeats.card = τ.post.seatsNamed := by
  have hrun := isRun_trace (next 1000) [.newOutput 1001, .output 1001 (.wlOutput 1),
    .newSeat 1002, .seat 1002 (.wlSeat 2), .newWindow 1003, .manageStart, .renderStart false,
    .window 1003 .closed, .seat 1002 .removed, .output 1001 .removed] (new .default true true true)
  exact ⟨_, hrun, by decide +kernel, no_leak hrun (by decide +kernel)⟩

end Registry

end Streamwm
