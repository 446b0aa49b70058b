import Streamwm.Library.Inbox
import Streamwm.Lifecycle
import Streamwm.Phases

/-!
# The keys river grabs

A binding is an object for a chord, a key or a button of a seat with modifiers. River has it
disabled at first, and while it is enabled the chord does not reach the applications. Here
river keeps for every binding its chord and whether it is enabled (`Grab`), as the requests of
the window manager say.

The bindings the window manager keeps are, seat by seat, those of the configuration, and river
has no others (`Table`). A new seat gets its bindings (`table_newSeat`) and one that goes takes
them along (`table_seatRemoved`). A manage sequence enables them, but those of resize mode only
in that mode (`armed_onManageStart`).
-/

namespace Streamwm

open Custody Inbox Partial Transition

/-- A key or a button of a seat, with modifiers. -/
inductive Chord
  | key (seat : ObjectId) (keysym : ℕ) (modifiers : Modifiers)
  | button (seat : ObjectId) (button : ℕ) (modifiers : Modifiers)
  deriving DecidableEq

/-- A binding as river keeps it. -/
structure Grab where
  chord : Chord
  enabled : Bool
  deriving DecidableEq

/-- The binding a request is about; any object may be destroyed. -/
def Request.binding : Request → Option ObjectId
  | .getXkbBinding _ _ _ x | .getPointerBinding _ _ _ x | .enable x | .disable x | .destroy x =>
    some x
  | _ => none

namespace Grab

/-- River carries out a request about a binding. -/
def request (g : Option Grab) : Request → Option Grab
  | .getXkbBinding seat keysym m _ => some { chord := .key seat keysym m, enabled := false }
  | .getPointerBinding seat button m _ => some { chord := .button seat button m, enabled := false }
  | .enable _ => g.map fun g => { g with enabled := true }
  | .disable _ => g.map fun g => { g with enabled := false }
  | .destroy _ => none
  | _ => g

/-- The bindings after some requests. -/
def after (grabs : ObjectId → Option Grab) (rs : List Request) : ObjectId → Option Grab :=
  fun x => hear Request.binding request x (grabs x) rs

theorem after_append (grabs : ObjectId → Option Grab) (rs rs' : List Request) :
    after grabs (rs ++ rs') = after (after grabs rs) rs' :=
  funext fun _ => hear_append

theorem chord_after {grabs : ObjectId → Option Grab} {rs : List Request} {x : ObjectId}
    (h : ∀ r ∈ rs, r.binding = some x →
      ∀ s, (request s r).map (·.chord) = s.map (·.chord)) :
    (after grabs rs x).map (·.chord) = (grabs x).map (·.chord) :=
  hear_keeps (g := Option.map Grab.chord) h

end Grab

namespace AppData

/-- The seats there are. -/
def seatIds (d : AppData) : List ObjectId :=
  d.state.ledger.seats.map (·.proxy)

/-- The chords of the keybindings of a seat, with their actions. -/
def seatChords (d : AppData) (seat : ObjectId) : List (Chord × String) :=
  d.seatKeys.map fun k => (.key seat k.1 k.2.1, k.2.2)

/-- The chords of the pointer bindings of a seat. -/
def seatButtons (d : AppData) (seat : ObjectId) : List (Chord × String) :=
  [(.button seat 0x110 (parseModifiers "" d.config.modifier), "move"),
    (.button seat 0x111 (parseModifiers "" d.config.modifier), "resize")]

/-- The chords river has for some bindings, with their seats and actions. -/
def chordsOf (grabs : ObjectId → Option Grab) (bs : List (ObjectId × String × ObjectId)) :
    List (ObjectId × Option Chord × String) :=
  bs.map fun b => (b.2.2, (grabs b.1).map (·.chord), b.2.1)

/-- The chords that are to be there, seat by seat. -/
def chordsFor (seats : List ObjectId) (chords : ObjectId → List (Chord × String)) :
    List (ObjectId × Option Chord × String) :=
  seats.flatMap fun seat => (chords seat).map fun c => (seat, some c.1, c.2)

theorem chordsOf_append (grabs : ObjectId → Option Grab)
    (bs bs' : List (ObjectId × String × ObjectId)) :
    chordsOf grabs (bs ++ bs') = chordsOf grabs bs ++ chordsOf grabs bs' :=
  List.map_append

theorem chordsOf_congr {grabs grabs' : ObjectId → Option Grab}
    {bs : List (ObjectId × String × ObjectId)} (h : ∀ b ∈ bs, grabs' b.1 = grabs b.1) :
    chordsOf grabs' bs = chordsOf grabs bs :=
  List.map_congr_left fun b hb => by rw [h b hb]

theorem chordsFor_cons (seat : ObjectId) (seats : List ObjectId)
    (chords : ObjectId → List (Chord × String)) : chordsFor (seat :: seats) chords =
      ((chords seat).map fun c => (seat, some c.1, c.2)) ++ chordsFor seats chords :=
  List.flatMap_cons

theorem chordsFor_append (seats seats' : List ObjectId)
    (chords : ObjectId → List (Chord × String)) :
    chordsFor (seats ++ seats') chords = chordsFor seats chords ++ chordsFor seats' chords :=
  List.flatMap_append

/-- River has the bindings of the seats, and no others. -/
structure Table (d : AppData) (grabs : ObjectId → Option Grab) : Prop where
  keys : chordsOf grabs d.bindings = chordsFor d.seatIds d.seatChords
  buttons : chordsOf grabs d.pointerBindings = chordsFor d.seatIds d.seatButtons
  only : ∀ x, grabs x ≠ none → x ∈ d.bindingObjects

/-- The action is one for now. -/
def armed (d : AppData) (action : String) : Bool :=
  !isResizeBinding action || d.state.resizeMode

/-- The bindings are enabled as they are to be now. -/
structure Armed (d : AppData) (grabs : ObjectId → Option Grab) : Prop where
  keys : ∀ b ∈ d.bindings, (grabs b.1).map (·.enabled) = some (d.armed b.2.1)
  buttons : ∀ b ∈ d.pointerBindings, (grabs b.1).map (·.enabled) = some true

/-- What the bindings of a seat depend on. -/
def keyed (d : AppData) : Config × Bool × List (ObjectId × String × ObjectId) ×
    List (ObjectId × String × ObjectId) :=
  (d.config, d.xkb, d.bindings, d.pointerBindings)

variable {d d' : AppData} {grabs : ObjectId → Option Grab} {rs : List Request}

theorem keyed_of_fixed (h : d'.fixed = d.fixed) : d'.keyed = d.keyed :=
  congrArg (fun f => (f.1, f.2.1.1, f.2.2.1, f.2.2.2.1)) h

theorem chords_of_config (hconfig : d'.config = d.config) (hxkb : d'.xkb = d.xkb) :
    d'.seatChords = d.seatChords ∧ d'.seatButtons = d.seatButtons := by
  unfold seatChords seatButtons seatKeys
  rw [hconfig, hxkb]
  exact ⟨rfl, rfl⟩

theorem objects_of_keyed (h : d'.keyed = d.keyed) : d'.bindingObjects = d.bindingObjects := by
  have hkeys : d'.bindings = d.bindings := congrArg (·.2.2.1) h
  have hbuttons : d'.pointerBindings = d.pointerBindings := congrArg (·.2.2.2) h
  unfold bindingObjects
  rw [hkeys, hbuttons]

/-- The table is about the chords of the bindings only. -/
theorem Table.congr {grabs' : ObjectId → Option Grab} (h : d.Table grabs)
    (hkeyed : d'.keyed = d.keyed) (hseats : d'.seatIds = d.seatIds)
    (hsame : ∀ x, (grabs' x).map (·.chord) = (grabs x).map (·.chord)) : d'.Table grabs' := by
  have hchords (bs : List (ObjectId × String × ObjectId)) :
      chordsOf grabs' bs = chordsOf grabs bs :=
    List.map_congr_left fun b _ => by rw [hsame]
  obtain ⟨hkeys, hbuttons⟩ := chords_of_config (congrArg (·.1) hkeyed) (congrArg (·.2.1) hkeyed)
  refine ⟨?_, ?_, fun x hx => ?_⟩
  · rw [hchords, hseats, hkeys, ← h.keys]
    exact congrArg (fun f => chordsOf grabs f.2.2.1) hkeyed
  · rw [hchords, hseats, hbuttons, ← h.buttons]
    exact congrArg (fun f => chordsOf grabs f.2.2.2) hkeyed
  · rw [objects_of_keyed hkeyed]
    refine h.only x fun hnone => hx ?_
    have hx' := hsame x
    rw [hnone] at hx'
    exact Option.map_eq_none_iff.mp hx'

/-- A binding the window manager keeps is one river has. -/
theorem exists_grab {bs : List (ObjectId × String × ObjectId)} {seats : List ObjectId}
    {chords : ObjectId → List (Chord × String)} (h : chordsOf grabs bs = chordsFor seats chords)
    {b : ObjectId × String × ObjectId} (hb : b ∈ bs) : b.2.2 ∈ seats ∧
      ∃ g, grabs b.1 = some g ∧ (g.chord, b.2.1) ∈ chords b.2.2 := by
  have hmem : (b.2.2, (grabs b.1).map (·.chord), b.2.1) ∈ chordsFor seats chords :=
    h ▸ List.mem_map_of_mem hb
  obtain ⟨seat, hseat, hrow⟩ := List.mem_flatMap.mp hmem
  obtain ⟨c, hc, heq⟩ := List.mem_map.mp hrow
  obtain ⟨rfl, hpair⟩ := Prod.mk.inj heq
  obtain ⟨hchord, haction⟩ := Prod.mk.inj hpair
  obtain ⟨g, hg, hgc⟩ := Option.map_eq_some_iff.mp hchord.symm
  refine ⟨hseat, g, hg, ?_⟩
  rw [hgc, ← haction]
  exact hc

/-- Every chord that is to be there is one river has. -/
theorem exists_binding {bs : List (ObjectId × String × ObjectId)} {seats : List ObjectId}
    {chords : ObjectId → List (Chord × String)} (h : chordsOf grabs bs = chordsFor seats chords)
    {seat : ObjectId} (hseat : seat ∈ seats) {c : Chord × String} (hc : c ∈ chords seat) :
    ∃ b ∈ bs, b.2.1 = c.2 ∧ ∃ g, grabs b.1 = some g ∧ g.chord = c.1 := by
  have hmem : (seat, some c.1, c.2) ∈ chordsOf grabs bs :=
    h ▸ List.mem_flatMap.mpr ⟨seat, hseat, List.mem_map_of_mem hc⟩
  obtain ⟨b, hb, heq⟩ := List.mem_map.mp hmem
  obtain ⟨-, hpair⟩ := Prod.mk.inj heq
  obtain ⟨hchord, haction⟩ := Prod.mk.inj hpair
  exact ⟨b, hb, haction, Option.map_eq_some_iff.mp hchord⟩

theorem key_mem_bindingObjects {b : ObjectId × String × ObjectId} (hb : b ∈ d.bindings) :
    b.1 ∈ d.bindingObjects :=
  Multiset.mem_add.mpr (Or.inl (Multiset.mem_coe.mpr (List.mem_map_of_mem hb)))

theorem button_mem_bindingObjects {b : ObjectId × String × ObjectId}
    (hb : b ∈ d.pointerBindings) : b.1 ∈ d.bindingObjects :=
  Multiset.mem_add.mpr (Or.inr (Multiset.mem_coe.mpr (List.mem_map_of_mem hb)))

theorem disjoint_bindings (hnodup : d.objects.Nodup) {x : ObjectId} (hx : x ∈ d.bindingObjects) :
    x ∉ d.state.ledger.objects :=
  fun hledger => Multiset.disjoint_left.mp (Multiset.nodup_add.mp hnodup).2.2 hledger hx

/-! ## Handlers that concern no binding -/

end AppData

/-- The event changes what bindings there are, or which are enabled. -/
def Event.Rebinds : Event → Bool
  | .newSeat _ | .seat _ .removed | .manageStart => true
  | _ => false

/-- The request is about no binding, unless it destroys an object of windows, outputs or seats. -/
def Request.Foreign (H : Multiset ObjectId) (r : Request) : Prop :=
  ∀ x, r.binding = some x → r = .destroy x ∧ x ∈ H

namespace AppData

variable {d d' : AppData} {grabs : ObjectId → Option Grab} {rs : List Request}

theorem foreign_of_none {H : Multiset ObjectId} {r : Request} (h : r.binding = none) :
    r.Foreign H := fun x hx => by
  rw [h] at hx
  cases hx

theorem foreign_destroy {H : Multiset ObjectId} {x : ObjectId} (hx : x ∈ H) :
    (Request.destroy x).Foreign H := fun _ hy => by
  obtain rfl := Option.some.inj hy
  exact ⟨rfl, hx⟩

theorem foreign_option {H : Multiset ObjectId} {f : ObjectId → Request} {o : Option ObjectId}
    (hf : ∀ x ∈ o, (f x).Foreign H) : ∀ r ∈ (o.map f).toList, r.Foreign H := by
  intro r hr
  obtain ⟨x, hx, rfl⟩ := Option.map_eq_some_iff.mp (Option.mem_toList.mp hr)
  exact hf x hx

/-- A render sequence is about no binding. -/
theorem foreign_onRenderStart (hids : (d.state.windows.map (·.id)).Nodup) {hasClients : Bool}
    (h : d.onRenderStart hasClients = some d') : ∃ rs, d'.sent = d.sent ++ rs ∧
      (∀ r ∈ rs, r.Foreign d.state.ledger.objects) ∧ d'.keyed = d.keyed ∧
      d'.seatIds = d.seatIds := by
  obtain ⟨rs, hrs, hr⟩ := rendering_onRenderStart hids h
  obtain ⟨focused, gs, published, -, -, rfl⟩ := onRenderStart_eq hids h
  refine ⟨_, hrs, List.forall_mem_append.mpr ⟨fun r hmem => foreign_of_none ?_,
    List.forall_mem_singleton.mpr (foreign_of_none rfl)⟩, rfl, rfl⟩
  have hkind := hr r hmem
  cases r <;> first | rfl | cases hkind

/-- All handlers but three concern no binding. -/
theorem foreign_handle (hids : (d.state.windows.map (·.id)).Nodup) {event : Event}
    (hevent : event.Rebinds = false) (h : d.handle event = some d') : ∃ rs,
      d'.sent = d.sent ++ rs ∧ (∀ r ∈ rs, r.Foreign d.state.ledger.objects) ∧
      d'.keyed = d.keyed ∧ d'.seatIds = d.seatIds := by
  cases effect_handle hids h with
  | newSeat _ | seatRemoved _ | manageStart _ => cases hevent
  | routine _ h _ =>
    obtain ⟨rs, hrs, hfree⟩ := h.sent
    refine ⟨rs, hrs, fun r hr => foreign_of_none ?_, keyed_of_fixed h.fixed,
      congrArg (fun l => l.seats.map (·.proxy)) h.state⟩
    have hkind := hfree r hr
    cases r <;> first | rfl | cases hkind
  | newWindow window =>
    obtain ⟨hbooks, hsent, hfixed⟩ := newWindow_spec d window
    exact ⟨[], by rw [hsent, List.append_nil], by simp, keyed_of_fixed hfixed,
      congrArg (fun b => b.1.seats.map (·.proxy)) hbooks⟩
  | @closed w hw =>
    obtain ⟨hbooks, hsent, hfixed⟩ := windowClosed_spec d w.proxy w
    refine ⟨_, hsent, List.forall_mem_append.mpr ⟨?_, List.forall_mem_singleton.mpr ?_⟩,
      keyed_of_fixed hfixed, congrArg (fun b => b.1.seats.map (·.proxy)) hbooks⟩
    · exact foreign_option fun x _ => foreign_of_none rfl
    · exact foreign_destroy (State.proxy_mem_objects hw)
  | newOutput h =>
    obtain ⟨hbooks, hsent, hfixed⟩ := newOutput_spec h
    refine ⟨_, hsent, fun r hr => foreign_of_none ?_,
      congrArg (fun f => (f.1, f.2.1.1, f.2.2.1, f.2.2.2.1)) hfixed,
      congrArg (fun b => b.1.seats.map (·.proxy)) hbooks⟩
    split_ifs at hr
    · rw [List.mem_singleton.mp hr]
      rfl
    · cases hr
  | wlOutput output name =>
    exact ⟨_, (bindWlOutput_spec d output name).2.1,
      List.forall_mem_singleton.mpr (foreign_of_none rfl), rfl, rfl⟩
  | @outputRemoved idx o _ ho h =>
    obtain ⟨hbooks, hsent, hfixed⟩ := outputRemoved_spec (List.getElem?_eq_some_iff.mp ho).1 h
    have hheld {x : ObjectId} (hx : x ∈ o.entry.objects) : x ∈ d.state.ledger.objects :=
      State.output_mem_objects (List.mem_of_getElem? ho) hx
    refine ⟨_, hsent, List.forall_mem_append.mpr
      ⟨List.forall_mem_append.mpr ⟨foreign_option fun x hx => foreign_destroy ?_,
        foreign_option fun x hx => foreign_destroy ?_⟩, List.forall_mem_cons.mpr
          ⟨foreign_destroy ?_, List.forall_mem_singleton.mpr (foreign_of_none rfl)⟩⟩,
      congrArg (fun f => (f.1, f.2.1.1, f.2.2.1, f.2.2.2.1)) hfixed,
      congrArg (fun b => b.1.seats.map (·.proxy)) hbooks⟩
    · exact hheld (Multiset.mem_cons_of_mem (Multiset.mem_coe.mpr
        (List.mem_append_left _ (Option.mem_toList.mpr hx))))
    · exact hheld (Multiset.mem_cons_of_mem (Multiset.mem_coe.mpr
        (List.mem_append_right _ (Option.mem_toList.mpr hx))))
    · exact hheld (Multiset.mem_cons_self _ _)
  | wlSeat seat name =>
    obtain ⟨hbooks, hsent, hfixed⟩ := bindWlSeat_spec d seat name
    refine ⟨_, hsent, List.forall_mem_append.mpr ⟨fun r hr => foreign_of_none ?_,
      foreign_option fun x _ => foreign_of_none rfl⟩,
      congrArg (fun f => (f.1, f.2.1.1, f.2.2.1, f.2.2.2.1)) hfixed, ?_⟩
    · simp only [List.mem_cons, List.not_mem_nil, or_false] at hr
      rcases hr with rfl | rfl <;> rfl
    · exact (congrArg (fun b => b.1.seats.map (·.proxy)) hbooks).trans
        (map_modifyFirst (·.proxy) (fun _ => by rfl) d.state.ledger.seats)
  | renderStart h => exact foreign_onRenderStart hids h

/-- Requests that concern no binding leave all of them as they are. -/
theorem after_foreign (honly : ∀ x, grabs x ≠ none → x ∈ d.bindingObjects)
    (hnodup : d.objects.Nodup) (hrs : ∀ r ∈ rs, r.Foreign d.state.ledger.objects) :
    Grab.after grabs rs = grabs := by
  funext x
  by_cases hx : x ∈ d.state.ledger.objects
  · have hnone : grabs x = none := by
      by_contra hsome
      exact disjoint_bindings hnodup (honly x hsome) hx
    unfold Grab.after
    rw [hnone]
    refine hear_const (fun r hr htarget _ => ?_) (Or.inl rfl)
    rw [(hrs r hr x htarget).1]
    rfl
  · exact hear_of_not fun r hr htarget => hx (hrs r hr x htarget).2

/-! ## Manage sequences -/

theorem mem_bindingRequests {r : Request} (hr : r ∈ d.bindingRequests) :
    (∃ b ∈ d.bindings, r = if d.armed b.2.1 then .enable b.1 else .disable b.1) ∨
      ∃ b ∈ d.pointerBindings, r = .enable b.1 := by
  rcases List.mem_append.mp hr with hr | hr
  · obtain ⟨b, hb, rfl⟩ := List.mem_map.mp hr
    refine Or.inl ⟨b, hb, ?_⟩
    unfold armed
    cases isResizeBinding b.2.1 <;> cases d.state.resizeMode <;> rfl
  · obtain ⟨b, hb, rfl⟩ := List.mem_map.mp hr
    exact Or.inr ⟨b, hb, rfl⟩

/-- A manage sequence is about bindings in one place. -/
theorem binding_manageRequests {routed : Option Window} {gs : List (ℕ × Geometry)} {r : Request}
    {x : ObjectId} (hr : r ∈ d.manageRequests routed gs ++ [.manageFinish])
    (hx : r.binding = some x) : r ∈ d.bindingRequests := by
  rcases List.mem_append.mp hr with hr | hr
  · obtain ⟨c, hpart, hmem⟩ := part_manageRequests hr
    cases r with
    | enable _ | disable _ =>
      obtain rfl := Option.some.inj hpart
      exact hmem
    | getXkbBinding _ _ _ _ | getPointerBinding _ _ _ _ | destroy _ => cases hpart
    | _ => cases hx
  · rw [List.mem_singleton.mp hr] at hx
    cases hx

theorem enables_manageRequests {routed : Option Window} {gs : List (ℕ × Geometry)} {r : Request}
    (hr : r ∈ d.bindingRequests) : r ∈ d.manageRequests routed gs ++ [.manageFinish] :=
  List.mem_append_left _ (List.mem_append_left _ (List.mem_append_right _ hr))

theorem nodup_bindings (hnodup : d.objects.Nodup) :
    (d.bindings.map (·.1)).Nodup ∧ (d.pointerBindings.map (·.1)).Nodup ∧
      ∀ b ∈ d.bindings, ∀ p ∈ d.pointerBindings, b.1 ≠ p.1 := by
  obtain ⟨hkeys, hbuttons, hdisjoint⟩ :=
    Multiset.nodup_add.mp (Multiset.nodup_add.mp hnodup).2.1
  refine ⟨Multiset.coe_nodup.mp hkeys, Multiset.coe_nodup.mp hbuttons, fun b hb p hp heq => ?_⟩
  exact Multiset.disjoint_left.mp hdisjoint (Multiset.mem_coe.mpr (List.mem_map_of_mem hb))
    (heq ▸ Multiset.mem_coe.mpr (List.mem_map_of_mem hp))

/-- A binding that every request enables, or every one disables, ends up so. -/
theorem after_enabled {x : ObjectId} {g : Grab} (hg : grabs x = some g) {on : Bool}
    (hrs : ∀ r ∈ rs, r.binding = some x → r = if on then .enable x else .disable x)
    (hmem : (if on then Request.enable x else .disable x) ∈ rs) :
    (Grab.after grabs rs x).map (·.enabled) = some on := by
  have hafter : Grab.after grabs rs x = some { g with enabled := on } := by
    refine hear_const_of (P := fun s => s.map (·.chord) = some g.chord) rfl ?_ ?_
      (Or.inr ⟨_, hmem, by cases on <;> rfl⟩)
    · rw [hg]
      rfl
    · intro r hr htarget s hs
      obtain ⟨g', rfl, hchord⟩ := Option.map_eq_some_iff.mp hs
      rw [hrs r hr htarget]
      cases on <;> exact congrArg some (congrArg (Grab.mk · _) hchord)
  rw [hafter]
  rfl

/-- The requests about bindings change no chord. -/
theorem chord_after (hrs : ∀ r ∈ rs, ∀ x, r.binding = some x → r ∈ d.bindingRequests)
    (x : ObjectId) : (Grab.after grabs rs x).map (·.chord) = (grabs x).map (·.chord) := by
  refine Grab.chord_after fun r hr htarget s => ?_
  rcases mem_bindingRequests (hrs r hr x htarget) with ⟨b, -, rfl⟩ | ⟨b, -, rfl⟩
  · split_ifs <;> cases s <;> rfl
  · cases s <;> rfl

/-- They enable what is to be enabled. -/
theorem armed_after (htable : d.Table grabs) (hnodup : d.objects.Nodup)
    (hrs : ∀ r ∈ rs, ∀ x, r.binding = some x → r ∈ d.bindingRequests)
    (hall : ∀ r ∈ d.bindingRequests, r ∈ rs) : d.Armed (Grab.after grabs rs) := by
  obtain ⟨hkeys, hbuttons, hdisjoint⟩ := nodup_bindings hnodup
  refine ⟨fun b hb => ?_, fun p hp => ?_⟩
  · obtain ⟨-, g, hg, -⟩ := exists_grab htable.keys hb
    refine after_enabled hg (fun r hr htarget => ?_) (hall _ ?_)
    · rcases mem_bindingRequests (hrs r hr b.1 htarget) with ⟨c, hc, rfl⟩ | ⟨p, hp, rfl⟩
      · have hcb : c.1 = b.1 := by
          split_ifs at htarget <;> exact Option.some.inj htarget
        rw [List.inj_on_of_nodup_map hkeys hc hb hcb]
      · exact absurd (Option.some.inj htarget).symm (hdisjoint b hb p hp)
    · refine List.mem_append_left _ (List.mem_map.mpr ⟨b, hb, ?_⟩)
      unfold armed
      cases isResizeBinding b.2.1 <;> cases d.state.resizeMode <;> rfl
  · obtain ⟨-, g, hg, -⟩ := exists_grab htable.buttons hp
    refine after_enabled hg (fun r hr htarget => (?_ : r = if true then _ else _)) (hall _ ?_)
    · rcases mem_bindingRequests (hrs r hr p.1 htarget) with ⟨b, hb, rfl⟩ | ⟨q, hq, rfl⟩
      · have hbp : b.1 = p.1 := by
          split_ifs at htarget <;> exact Option.some.inj htarget
        exact absurd hbp (hdisjoint b hb p hp)
      · rw [if_pos rfl, Option.some.inj htarget]
    · exact List.mem_append_right _ (List.mem_map_of_mem hp)

/-- A manage sequence changes no chord, and enables what is to be enabled. -/
theorem armed_onManageStart (htable : d.Table grabs) (hnodup : d.objects.Nodup)
    (h : d.onManageStart = some d') : ∃ rs, d'.sent = d.sent ++ rs ∧
      d'.Table (Grab.after grabs rs) ∧ d'.Armed (Grab.after grabs rs) := by
  obtain ⟨routed, gs, -, -, rfl⟩ := onManageStart_eq h
  have hrs : ∀ r ∈ d.manageRequests routed gs ++ [.manageFinish], ∀ x, r.binding = some x →
      r ∈ d.bindingRequests := fun r hr x => binding_manageRequests hr
  have harmed := armed_after htable hnodup hrs fun r => enables_manageRequests
  have hbooks := loop_keeps State.books (fun _ _ _ => State.books_refocusOutput)
    d.state.refocusAll_eq.1
  refine ⟨_, rfl, htable.congr rfl ?_ (chord_after hrs), harmed.keys, harmed.buttons⟩
  exact congrArg (fun b => b.1.seats.map (·.proxy)) hbooks

/-! ## Seats that come and go -/

/-- Rows of numbered chords. -/
theorem chordsOf_zipIdx (seat : ObjectId) (l : List (ℕ × Modifiers × String)) (n : ℕ)
    (h : ∀ p ∈ l.zipIdx n, (grabs p.2).map (·.chord) = some (.key seat p.1.1 p.1.2.1)) :
    chordsOf grabs ((l.zipIdx n).map fun p => (p.2, p.1.2.2, seat)) =
      l.map fun k => (seat, some (Chord.key seat k.1 k.2.1), k.2.2) := by
  have hrows : chordsOf grabs ((l.zipIdx n).map fun p => (p.2, p.1.2.2, seat)) =
      ((l.zipIdx n).map Prod.fst).map fun k => (seat, some (Chord.key seat k.1 k.2.1), k.2.2) := by
    unfold chordsOf
    rw [List.map_map, List.map_map]
    refine List.map_congr_left fun p hp => ?_
    rw [Function.comp_apply, Function.comp_apply, h p hp]
  rw [hrows, List.zipIdx_map_fst]

/-- The requests that bind the keys of a seat. -/
theorem after_bindKeys (seat : ObjectId) (l : List (ℕ × Modifiers × String)) (n : ℕ)
    {p : (ℕ × Modifiers × String) × ℕ} (hp : p ∈ l.zipIdx n) :
    Grab.after grabs ((l.zipIdx n).map fun p => Request.getXkbBinding seat p.1.1 p.1.2.1 p.2) p.2 =
      some { chord := .key seat p.1.1 p.1.2.1, enabled := false } := by
  have hnumbers : ((l.zipIdx n).map Prod.snd).Nodup := by
    rw [List.zipIdx_map_snd]
    exact List.nodup_range'
  refine hear_const (fun r hr htarget s => ?_) (Or.inr ⟨_, List.mem_map_of_mem hp, rfl⟩)
  obtain ⟨q, hq, rfl⟩ := List.mem_map.mp hr
  rw [List.inj_on_of_nodup_map hnumbers hq hp (Option.some.inj htarget)]
  rfl

/-- The numbers of new bindings. -/
theorem range_zipIdx {α : Type} {l : List α} {n : ℕ} {p : α × ℕ} (hp : p ∈ l.zipIdx n) :
    n ≤ p.2 ∧ p.2 < n + l.length := by
  have hmem : p.2 ∈ (l.zipIdx n).map Prod.snd := List.mem_map_of_mem hp
  rw [List.zipIdx_map_snd, List.mem_range'_1] at hmem
  exact hmem

/-- The requests that bind the keys of a new seat. -/
def keyRequests (d : AppData) (seat : ObjectId) : List Request :=
  (d.seatKeys.zipIdx d.nextObject).map fun p => .getXkbBinding seat p.1.1 p.1.2.1 p.2

/-- The requests that bind its buttons. -/
def buttonRequests (d : AppData) (seat : ObjectId) : List Request :=
  [.getPointerBinding seat 0x110 (parseModifiers "" d.config.modifier)
      (d.nextObject + d.seatKeys.length),
    .getPointerBinding seat 0x111 (parseModifiers "" d.config.modifier)
      (d.nextObject + d.seatKeys.length + 1)]

theorem range_keyRequests {seat : ObjectId} {r : Request} (hr : r ∈ d.keyRequests seat)
    {x : ObjectId} (hx : r.binding = some x) :
    d.nextObject ≤ x ∧ x < d.nextObject + d.seatKeys.length := by
  obtain ⟨p, hp, rfl⟩ := List.mem_map.mp hr
  exact Option.some.inj hx ▸ range_zipIdx hp

theorem range_buttonRequests {seat : ObjectId} {r : Request} (hr : r ∈ d.buttonRequests seat)
    {x : ObjectId} (hx : r.binding = some x) : x = d.nextObject + d.seatKeys.length ∨
      x = d.nextObject + d.seatKeys.length + 1 := by
  simp only [buttonRequests, List.mem_cons, List.not_mem_nil, or_false] at hr
  rcases hr with rfl | rfl
  · exact Or.inl (Option.some.inj hx).symm
  · exact Or.inr (Option.some.inj hx).symm

/-- The bindings of a new seat. -/
theorem after_seat (d : AppData) (grabs : ObjectId → Option Grab) (seat : ObjectId) :
    (∀ p ∈ d.seatKeys.zipIdx d.nextObject,
      (Grab.after grabs (d.keyRequests seat ++ d.buttonRequests seat) p.2).map (·.chord) =
        some (.key seat p.1.1 p.1.2.1)) ∧
    (Grab.after grabs (d.keyRequests seat ++ d.buttonRequests seat)
      (d.nextObject + d.seatKeys.length)).map (·.chord) =
        some (.button seat 0x110 (parseModifiers "" d.config.modifier)) ∧
    (Grab.after grabs (d.keyRequests seat ++ d.buttonRequests seat)
      (d.nextObject + d.seatKeys.length + 1)).map (·.chord) =
        some (.button seat 0x111 (parseModifiers "" d.config.modifier)) := by
  rw [Grab.after_append]
  refine ⟨fun p hp => ?_, ?_, ?_⟩
  · obtain ⟨-, hlt⟩ := range_zipIdx hp
    have hkeep : Grab.after (Grab.after grabs (d.keyRequests seat)) (d.buttonRequests seat) p.2 =
        Grab.after grabs (d.keyRequests seat) p.2 := by
      refine hear_of_not fun r hr htarget => ?_
      rcases range_buttonRequests hr htarget with heq | heq
      · exact absurd heq hlt.ne
      · exact absurd heq (hlt.trans (Nat.lt_succ_self _)).ne
    rw [hkeep, keyRequests, after_bindKeys seat d.seatKeys d.nextObject hp]
    rfl
  · simp [Grab.after, buttonRequests, hear, Request.binding, Grab.request]
  · simp [Grab.after, buttonRequests, hear, Request.binding, Grab.request]

/-- A new seat gets its bindings. -/
theorem table_newSeat (htable : d.Table grabs) (seat : ObjectId)
    (hfresh : ∀ x ∈ d.bindingObjects, x < d.nextObject ∨ (d.newSeat seat).nextObject ≤ x) :
    ∃ rs, (d.newSeat seat).sent = d.sent ++ rs ∧ (d.newSeat seat).Table (Grab.after grabs rs) := by
  obtain ⟨hbooks, hsent, hfixed⟩ := newSeat_spec d seat
  have hnext : (d.newSeat seat).nextObject = d.nextObject + d.seatKeys.length + 2 +
    if d.layerShell then 1 else 0 := congrArg (·.2.2.2.2.2) hfixed
  have hbindings : (d.newSeat seat).bindings = d.bindings ++
    (d.seatKeys.zipIdx d.nextObject).map fun p => (p.2, p.1.2.2, seat) :=
      congrArg (·.2.2.1) hfixed
  have hpointer : (d.newSeat seat).pointerBindings = d.pointerBindings ++
    [(d.nextObject + d.seatKeys.length, "move", seat),
      (d.nextObject + d.seatKeys.length + 1, "resize", seat)] := congrArg (·.2.2.2.1) hfixed
  have hseats : (d.newSeat seat).seatIds = d.seatIds ++ [seat] :=
    (congrArg (fun b => b.1.seats.map (·.proxy)) hbooks).trans List.map_append
  have hchords : (d.newSeat seat).seatChords = d.seatChords ∧
      (d.newSeat seat).seatButtons = d.seatButtons :=
    chords_of_config (congrArg (·.1) hfixed) (congrArg (·.2.1.1) hfixed)
  refine ⟨_, hsent, ?_⟩
  generalize hlayer : (Option.map (Request.layerGetSeat seat) _).toList = ls
  have hls : ∀ r ∈ ls, r.binding = none := by
    intro r hr
    rw [← hlayer] at hr
    obtain ⟨_, -, rfl⟩ := Option.map_eq_some_iff.mp (Option.mem_toList.mp hr)
    rfl
  change Table _ (Grab.after grabs (d.keyRequests seat ++ d.buttonRequests seat ++ ls))
  have hlast : Grab.after grabs (d.keyRequests seat ++ d.buttonRequests seat ++ ls) =
      Grab.after grabs (d.keyRequests seat ++ d.buttonRequests seat) := by
    rw [Grab.after_append]
    refine funext fun x => hear_of_not fun r hr htarget => ?_
    rw [hls r hr] at htarget
    cases htarget
  rw [hlast]
  obtain ⟨hkeys, hmove, hresize⟩ := after_seat d grabs seat
  have hold : ∀ x, ¬(d.nextObject ≤ x ∧ x < d.nextObject + d.seatKeys.length + 2) →
      Grab.after grabs (d.keyRequests seat ++ d.buttonRequests seat) x = grabs x := by
    intro x hx
    refine hear_of_not fun r hr htarget => hx ?_
    rcases List.mem_append.mp hr with hr | hr
    · obtain ⟨hle, hlt⟩ := range_keyRequests hr htarget
      exact ⟨hle, hlt.trans_le (Nat.le_add_right _ 2)⟩
    · rcases range_buttonRequests hr htarget with rfl | rfl
      · exact ⟨Nat.le_add_right _ _, Nat.lt_add_of_pos_right (by decide)⟩
      · exact ⟨(Nat.le_add_right _ _).trans (Nat.le_succ _), Nat.lt_succ_self _⟩
  have hkept : ∀ x ∈ d.bindingObjects,
      Grab.after grabs (d.keyRequests seat ++ d.buttonRequests seat) x = grabs x := by
    refine fun x hx => hold x fun hrange => (hfresh x hx).elim hrange.1.not_gt fun hle => ?_
    rw [hnext] at hle
    exact hrange.2.not_ge ((Nat.le_add_right _ _).trans hle)
  refine ⟨?_, ?_, fun x hx => ?_⟩
  · rw [hbindings, hseats, hchords.1, chordsOf_append, chordsFor_append, ← htable.keys,
      chordsOf_congr fun b hb => hkept b.1 (key_mem_bindingObjects hb),
      chordsOf_zipIdx seat d.seatKeys d.nextObject hkeys]
    simp only [chordsFor, List.flatMap_singleton, seatChords, List.map_map]
    rfl
  · rw [hpointer, hseats, hchords.2, chordsOf_append, chordsFor_append, ← htable.buttons,
      chordsOf_congr fun b hb => hkept b.1 (button_mem_bindingObjects hb)]
    simp only [chordsOf, List.map_cons, List.map_nil, hmove, hresize]
    rfl
  · by_cases hrange : d.nextObject ≤ x ∧ x < d.nextObject + d.seatKeys.length + 2
    · rcases Nat.lt_succ_iff_lt_or_eq.mp hrange.2 with hlt | rfl
      · rcases Nat.lt_succ_iff_lt_or_eq.mp hlt with hlt | rfl
        · have hmem : x ∈ (d.seatKeys.zipIdx d.nextObject).map Prod.snd := by
            rw [List.zipIdx_map_snd]
            exact List.mem_range'_1.mpr ⟨hrange.1, hlt⟩
          obtain ⟨p, hp, rfl⟩ := List.mem_map.mp hmem
          refine key_mem_bindingObjects (b := (p.2, p.1.2.2, seat)) ?_
          rw [hbindings]
          exact List.mem_append_right _ (List.mem_map_of_mem hp)
        · refine button_mem_bindingObjects (b := (_, "move", seat)) ?_
          rw [hpointer]
          exact List.mem_append_right _ List.mem_cons_self
      · refine button_mem_bindingObjects (b := (_, "resize", seat)) ?_
        rw [hpointer]
        exact List.mem_append_right _ (List.mem_cons_of_mem _ List.mem_cons_self)
    · rw [hold x hrange] at hx
      unfold bindingObjects
      rw [hbindings, hpointer, List.map_append, List.map_append]
      exact Multiset.mem_of_le (add_le_add (Multiset.coe_le.mpr (List.sublist_append_left _ _).subperm)
        (Multiset.coe_le.mpr (List.sublist_append_left _ _).subperm)) (htable.only x hx)

theorem chordsOf_filter (grabs : ObjectId → Option Grab) (seat : ObjectId)
    (bs : List (ObjectId × String × ObjectId)) :
    chordsOf grabs (bs.filter fun b => !(b.2.2 == seat)) =
      (chordsOf grabs bs).filter fun row => !(row.1 == seat) := by
  unfold chordsOf
  rw [List.filter_map]
  rfl

theorem chordsFor_filter (chords : ObjectId → List (Chord × String)) (seat : ObjectId) :
    ∀ seats : List ObjectId, (chordsFor seats chords).filter (fun row => !(row.1 == seat)) =
      chordsFor (seats.filter fun x => !(x == seat)) chords
  | [] => rfl
  | x :: seats => by
    rw [chordsFor_cons, List.filter_append, chordsFor_filter chords seat seats, List.filter_map]
    by_cases hx : x = seat
    · have hnone : (chords x).filter ((fun row : ObjectId × Option Chord × String =>
          !(row.1 == seat)) ∘ fun c => (x, some c.1, c.2)) = [] :=
        List.filter_eq_nil_iff.mpr fun c _ => by simp [hx]
      rw [hnone, List.filter_cons_of_neg (by simp [hx])]
      rfl
    · have hall : (chords x).filter ((fun row : ObjectId × Option Chord × String =>
          !(row.1 == seat)) ∘ fun c => (x, some c.1, c.2)) = chords x :=
        List.filter_eq_self.mpr fun c _ => by simp [hx]
      rw [hall, List.filter_cons_of_pos (by simp [hx]), chordsFor_cons]

/-- What goes with a seat : its bindings, and objects that are none. -/
def Goes (d : AppData) (seat x : ObjectId) : Prop :=
  (∃ b ∈ d.bindings, b.2.2 = seat ∧ b.1 = x) ∨ (∃ b ∈ d.pointerBindings, b.2.2 = seat ∧ b.1 = x) ∨
    x ∈ d.state.ledger.objects

theorem goes_seatRemoved (d : AppData) (seat : ObjectId) : ∃ rs,
    (d.seatRemoved seat).sent = d.sent ++ rs ∧ (∀ r ∈ rs, ∃ x, r = .destroy x ∧ d.Goes seat x) ∧
      (∀ b ∈ d.bindings, b.2.2 = seat → .destroy b.1 ∈ rs) ∧
      ∀ b ∈ d.pointerBindings, b.2.2 = seat → .destroy b.1 ∈ rs := by
  refine ⟨_, (seatRemoved_spec d seat).2.1, fun r hr => ?_, fun b hb hseat => ?_, fun b hb hseat => ?_⟩
  · rcases List.mem_append.mp hr with hr | hr
    · rcases List.mem_append.mp hr with hr | hr
      · obtain ⟨b, hb, rfl⟩ := List.mem_map.mp hr
        obtain ⟨hb, hseat⟩ := List.mem_filter.mp hb
        exact ⟨b.1, rfl, Or.inl ⟨b, hb, by simpa using hseat, rfl⟩⟩
      · obtain ⟨b, hb, rfl⟩ := List.mem_map.mp hr
        obtain ⟨hb, hseat⟩ := List.mem_filter.mp hb
        exact ⟨b.1, rfl, Or.inr (Or.inl ⟨b, hb, by simpa using hseat, rfl⟩)⟩
    · obtain ⟨x, hx, rfl⟩ := List.mem_map.mp hr
      refine ⟨x, rfl, Or.inr (Or.inr ?_)⟩
      rcases List.mem_append.mp hx with hx | hx
      · cases hhead : (d.state.seats.filter fun t => t.proxy == seat).head? with
        | none => simp [hhead] at hx
        | some t =>
          have ht := List.mem_of_mem_filter (List.mem_of_mem_head? hhead)
          rw [hhead, Option.map_some, Option.getD_some, List.mem_append, List.mem_singleton] at hx
          rcases hx with hx | rfl
          · exact State.seat_mem_objects ht (Multiset.mem_cons_of_mem (Multiset.mem_coe.mpr
              (List.mem_append_left _ hx)))
          · exact State.seatProxy_mem_objects ht
      · obtain ⟨t, ht, hx⟩ := List.mem_flatMap.mp hx
        exact State.seat_mem_objects (List.mem_of_mem_filter ht) (Multiset.mem_cons_of_mem
          (Multiset.mem_coe.mpr (List.mem_append_right _ hx)))
  · refine List.mem_append_left _ (List.mem_append_left _ (List.mem_map.mpr ⟨b, ?_, rfl⟩))
    exact List.mem_filter.mpr ⟨hb, by simpa using hseat⟩
  · refine List.mem_append_left _ (List.mem_append_right _ (List.mem_map.mpr ⟨b, ?_, rfl⟩))
    exact List.mem_filter.mpr ⟨hb, by simpa using hseat⟩

/-- A seat that goes takes its bindings with it, and no other. -/
theorem table_seatRemoved (htable : d.Table grabs) (hnodup : d.objects.Nodup) (seat : ObjectId) :
    ∃ rs, (d.seatRemoved seat).sent = d.sent ++ rs ∧
      (d.seatRemoved seat).Table (Grab.after grabs rs) ∧
      (∀ b ∈ (d.seatRemoved seat).bindings, b ∈ d.bindings ∧ Grab.after grabs rs b.1 = grabs b.1) ∧
      ∀ b ∈ (d.seatRemoved seat).pointerBindings,
        b ∈ d.pointerBindings ∧ Grab.after grabs rs b.1 = grabs b.1 := by
  obtain ⟨hkeys, hbuttons, hdisjoint⟩ := nodup_bindings hnodup
  obtain ⟨rs, hrs, hgoes, hdrop, hdrop'⟩ := goes_seatRemoved d seat
  obtain ⟨hbooks, -, hfixed⟩ := seatRemoved_spec d seat
  have hbindings : (d.seatRemoved seat).bindings = d.bindings.filter fun b => !(b.2.2 == seat) :=
    congrArg (·.2.2.1) hfixed
  have hpointer : (d.seatRemoved seat).pointerBindings =
    d.pointerBindings.filter fun b => !(b.2.2 == seat) := congrArg (·.2.2.2.1) hfixed
  have hkept : ∀ x, ¬d.Goes seat x → Grab.after grabs rs x = grabs x := by
    refine fun x hx => hear_of_not fun r hr htarget => hx ?_
    obtain ⟨y, rfl, hy⟩ := hgoes r hr
    exact Option.some.inj htarget ▸ hy
  have hkey : ∀ b ∈ (d.seatRemoved seat).bindings,
      b ∈ d.bindings ∧ Grab.after grabs rs b.1 = grabs b.1 := by
    intro b hb
    rw [hbindings] at hb
    obtain ⟨hb, hseat⟩ := List.mem_filter.mp hb
    refine ⟨hb, hkept b.1 ?_⟩
    rintro (⟨c, hc, hcs, heq⟩ | ⟨p, hp, -, heq⟩ | hledger)
    · rw [List.inj_on_of_nodup_map hkeys hc hb heq] at hcs
      simp [hcs] at hseat
    · exact hdisjoint b hb p hp heq.symm
    · exact disjoint_bindings hnodup (key_mem_bindingObjects hb) hledger
  have hbutton : ∀ b ∈ (d.seatRemoved seat).pointerBindings,
      b ∈ d.pointerBindings ∧ Grab.after grabs rs b.1 = grabs b.1 := by
    intro p hp
    rw [hpointer] at hp
    obtain ⟨hp, hseat⟩ := List.mem_filter.mp hp
    refine ⟨hp, hkept p.1 ?_⟩
    rintro (⟨b, hb, -, heq⟩ | ⟨q, hq, hqs, heq⟩ | hledger)
    · exact hdisjoint b hb p hp heq
    · rw [List.inj_on_of_nodup_map hbuttons hq hp heq] at hqs
      simp [hqs] at hseat
    · exact disjoint_bindings hnodup (button_mem_bindingObjects hp) hledger
  have hseats : (d.seatRemoved seat).seatIds = d.seatIds.filter fun x => !(x == seat) := by
    refine (congrArg (fun b => b.1.seats.map (·.proxy)) hbooks).trans ?_
    unfold seatIds
    rw [List.filter_map]
    rfl
  have hchords : (d.seatRemoved seat).seatChords = d.seatChords ∧
      (d.seatRemoved seat).seatButtons = d.seatButtons :=
    chords_of_config (congrArg (·.1) hfixed) (congrArg (·.2.1.1) hfixed)
  refine ⟨rs, hrs, ⟨?_, ?_, fun x hx => ?_⟩, hkey, hbutton⟩
  · rw [chordsOf_congr fun b hb => (hkey b hb).2, hbindings, chordsOf_filter, htable.keys,
      chordsFor_filter, hseats, hchords.1]
  · rw [chordsOf_congr fun b hb => (hbutton b hb).2, hpointer, chordsOf_filter, htable.buttons,
      chordsFor_filter, hseats, hchords.2]
  · -- what is still there was not destroyed
    have hnot : ∀ r ∈ rs, r.binding ≠ some x := by
      refine fun r hr htarget => hx (hear_const (fun r hr _ s => ?_) (Or.inr ⟨r, hr, htarget⟩))
      obtain ⟨y, rfl, -⟩ := hgoes r hr
      rfl
    have hsame : Grab.after grabs rs x = grabs x := hear_of_not hnot
    rw [hsame] at hx
    rcases Multiset.mem_add.mp (htable.only x hx) with hmem | hmem
    · obtain ⟨b, hb, rfl⟩ := List.mem_map.mp (Multiset.mem_coe.mp hmem)
      refine key_mem_bindingObjects ?_
      rw [hbindings]
      refine List.mem_filter.mpr ⟨hb, ?_⟩
      by_contra hseat
      exact hnot _ (hdrop b hb (by simpa using hseat)) rfl
    · obtain ⟨b, hb, rfl⟩ := List.mem_map.mp (Multiset.mem_coe.mp hmem)
      refine button_mem_bindingObjects ?_
      rw [hpointer]
      refine List.mem_filter.mpr ⟨hb, ?_⟩
      by_contra hseat
      exact hnot _ (hdrop' b hb (by simpa using hseat)) rfl

end AppData

end Streamwm
