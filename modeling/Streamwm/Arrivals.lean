import Streamwm.OutputOps
import Streamwm.Routine
import Streamwm.Sequences

/-!
# Objects that come and go

The events that are neither routine nor the start of a sequence bring an object or take one
away. Each theorem here says of one of them what becomes of the ledger and the splits
(`State.books`), of the bindings and the object counter (`AppData.fixed`), and what is sent. The
bindings of a new seat are numbered one after the other (`bindForSeat_eq`). `Effect` has one case
for each kind of event, and every event has its effect (`effect_handle`).
-/

namespace Streamwm

open Partial

namespace State

variable {s r : State} {i : ℕ}

theorem books_assignInitialTag (h : s.assignInitialTag i = some r) : r.books = s.books := by
  unfold assignInitialTag at h
  split_ifs at h
  · exact Option.some.inj h ▸ rfl
  · split at h
    · exact (books_normalizeOutputs h).trans (books_setActiveTag.trans books_setTagOutput)
    · exact books_normalizeOutputs h

/-- A new output has no objects yet. -/
theorem books_addOutput {proxy : ObjectId} (h : s.addOutput proxy = some r) : r.books =
    ({ s.ledger with outputs := s.ledger.outputs ++ [(Output.new proxy).entry] }, s.splits) := by
  obtain ⟨r₁, h₁, h⟩ := Option.bind_eq_some_iff.mp h
  have hr : r.books = r₁.books := by
    rw [← Option.some.inj h]
    split_ifs <;> rfl
  have hadded : ({ s with outputs := s.outputs ++ [Output.new proxy] } : State).books =
      ({ s.ledger with outputs := s.ledger.outputs ++ [(Output.new proxy).entry] }, s.splits) := by
    unfold books ledger
    rw [List.map_append]
    rfl
  exact hr.trans ((books_assignInitialTag h₁).trans hadded)

/-- The output taken out is forgotten; the tags keep their splits. -/
theorem books_dropOutput (s : State) (i : ℕ) : (s.dropOutput i).books =
    ({ s.ledger with outputs := s.ledger.outputs.eraseIdx i }, s.splits) := by
  have hsplits : (s.dropOutput i).tags.map (·.masterFraction) = s.tags.map (·.masterFraction) := by
    rw [tags_dropOutput, List.map_map]
    rfl
  have houtputs : (s.dropOutput i).outputs.map Output.entry =
      (s.outputs.map Output.entry).eraseIdx i := (List.eraseIdx_map ..).symm
  unfold books ledger splits
  rw [hsplits, houtputs]
  rfl

theorem books_removeOutput (hi : i < s.outputs.length) (h : s.removeOutput i = some r) :
    r.books = ({ s.ledger with outputs := s.ledger.outputs.eraseIdx i }, s.splits) := by
  unfold removeOutput at h
  rw [if_neg (not_le.mpr hi)] at h
  obtain ⟨r₁, h₁, h⟩ := Option.bind_eq_some_iff.mp h
  rw [← Option.some.inj h]
  exact books_clampFloatingWindows.trans ((books_normalizeOutputs h₁).trans (books_dropOutput s i))

theorem books_createWindow (s : State) (proxy : ObjectId) : (s.createWindow proxy).books =
    ({ s.ledger with
      windows := s.ledger.windows ++ [(Window.new s.nextWindowId proxy 0).entry] }, s.splits) := by
  unfold createWindow
  dsimp only
  rw [books_setFocusedWindow]
  unfold books ledger
  rw [List.map_append]
  rfl

theorem books_closeWindow (s : State) (proxy : ObjectId) : (s.closeWindow proxy).books =
    ({ s.ledger with windows := s.ledger.windows.filter fun e => e.proxy ≠ proxy }, s.splits) := by
  unfold closeWindow books ledger
  rw [List.filter_map]
  rfl

end State

/-! ## Bindings -/

/-- The keybindings of a configuration whose key is known : keysym, modifiers, action. -/
def keyBindings (config : Config) : List (ℕ × Modifiers × String) :=
  (defaultBindings config).filterMap fun b => (parseKeysym b.1).map fun ks =>
    (ks, parseModifiers b.2.1 config.modifier, b.2.2)

namespace AppData

variable {d d' : AppData}

/-- Registering a binding takes the next object. -/
theorem bindKey_eq (seat : ObjectId) (b : String × String × String) {ks : ℕ}
    (hks : parseKeysym b.1 = some ks) : bindKey seat d b =
      { d with
        nextObject := d.nextObject + 1
        bindings := d.bindings ++ [(d.nextObject, b.2.2, seat)]
        sent := d.sent ++ [.getXkbBinding seat ks (parseModifiers b.2.1 d.config.modifier)
          d.nextObject] } := by
  unfold bindKey
  rw [hks]
  rfl

/-- The bindings of a seat are numbered one after the other. -/
theorem foldl_bindKey (seat : ObjectId) : ∀ (bs : List (String × String × String)) (d : AppData),
    let ks := bs.filterMap fun b => (parseKeysym b.1).map fun ks =>
      (ks, parseModifiers b.2.1 d.config.modifier, b.2.2)
    bs.foldl (bindKey seat) d =
      { d with
        nextObject := d.nextObject + ks.length
        bindings := d.bindings ++ (ks.zipIdx d.nextObject).map fun p => (p.2, p.1.2.2, seat)
        sent := d.sent ++ (ks.zipIdx d.nextObject).map fun p =>
          Request.getXkbBinding seat p.1.1 p.1.2.1 p.2 }
  | [], d => by simp
  | b :: bs, d => by
    rw [List.foldl_cons, List.filterMap_cons]
    cases hks : parseKeysym b.1 with
    | none =>
      have hsame : bindKey seat d b = d := by rw [bindKey, hks]
      rw [hsame]
      exact foldl_bindKey seat bs d
    | some ks =>
      rw [bindKey_eq seat b hks]
      dsimp only
      rw [foldl_bindKey seat bs]
      simp only [Option.map_some, List.zipIdx_cons, List.map_cons, List.length_cons,
        List.append_assoc, List.singleton_append, Nat.add_assoc, Nat.add_comm 1]

theorem bindForSeat_eq (d : AppData) (seat : ObjectId) : d.bindForSeat seat =
    { d with
      nextObject := d.nextObject + (keyBindings d.config).length
      bindings := d.bindings ++ ((keyBindings d.config).zipIdx d.nextObject).map fun p =>
        (p.2, p.1.2.2, seat)
      sent := d.sent ++ ((keyBindings d.config).zipIdx d.nextObject).map fun p =>
        Request.getXkbBinding seat p.1.1 p.1.2.1 p.2 } :=
  foldl_bindKey seat (defaultBindings d.config) d

theorem bindPointerForSeat_eq (d : AppData) (seat : ObjectId) : d.bindPointerForSeat seat =
    { d with
      nextObject := d.nextObject + 2
      pointerBindings := d.pointerBindings ++
        [(d.nextObject, "move", seat), (d.nextObject + 1, "resize", seat)]
      sent := d.sent ++
        [.getPointerBinding seat 0x110 (parseModifiers "" d.config.modifier) d.nextObject,
          .getPointerBinding seat 0x111 (parseModifiers "" d.config.modifier) (d.nextObject + 1)] } := by
  simp [bindPointerForSeat, bindPointer, allocate, send]

/-! ## Events -/

theorem newWindow_spec (d : AppData) (window : ObjectId) :
    (d.newWindow window).state.books = ({ d.state.ledger with
        windows := d.state.ledger.windows ++ [(Window.new d.state.nextWindowId window 0).entry] },
      d.state.splits) ∧
      (d.newWindow window).sent = d.sent ∧ (d.newWindow window).fixed = d.fixed :=
  ⟨State.books_createWindow d.state window, rfl, rfl⟩

/-- The objects of a new output. -/
def newOutputEntry (d : AppData) (output : ObjectId) : OutputEntry :=
  { proxy := output, layer := if d.layerShell then some d.nextObject else none, wlOutput := none }

theorem newOutput_spec {output : ObjectId} (h : d.newOutput output = some d') :
    d'.state.books = ({ d.state.ledger with
        outputs := d.state.ledger.outputs ++ [d.newOutputEntry output] }, d.state.splits) ∧
      d'.sent = d.sent ++ (if d.layerShell then [.layerGetOutput output d.nextObject] else []) ∧
      d'.fixed = ({ d with
        nextObject := d.nextObject + if d.layerShell then 1 else 0 } : AppData).fixed := by
  obtain ⟨d₁, h₁, h⟩ := Option.bind_eq_some_iff.mp h
  obtain ⟨s, hs, h₁⟩ := Option.bind_eq_some_iff.mp h₁
  have hbooks := State.books_addOutput hs
  obtain rfl := Option.some.inj h₁
  have hentries : s.outputs.map Output.entry =
      d.state.outputs.map Output.entry ++ [(Output.new output).entry] :=
    congrArg (fun b => b.1.outputs) hbooks
  obtain ⟨out, hlast, hout⟩ : ∃ out, s.outputs.getLast? = some out ∧
      out.entry = (Output.new output).entry := by
    have hget : (s.outputs.map Output.entry).getLast? = some (Output.new output).entry := by
      rw [hentries, List.getLast?_concat]
    rwa [List.getLast?_map, Option.map_eq_some_iff] at hget
  have hlayer : out.layer = none := congrArg OutputEntry.layer hout
  have hproxy : out.proxy = output := congrArg OutputEntry.proxy hout
  cases hshell : d.layerShell with
  | false =>
    simp only [hshell, Bool.false_eq_true, if_false] at h
    obtain rfl := Option.some.inj h
    refine ⟨?_, by simp, rfl⟩
    rw [hbooks, newOutputEntry, hshell]
    rfl
  | true =>
    simp only [hshell, if_true, hlast, hlayer, Option.isNone_none] at h
    obtain rfl := Option.some.inj h
    refine ⟨?_, by rw [hproxy]; rfl, rfl⟩
    have hmodify := map_modify_last (f := fun o : Output => { o with layer := some d.nextObject })
      (c := { proxy := output, layer := some d.nextObject, wlOutput := none }) hentries fun o ho => by
        rw [Output.entry, Output.entry, Output.new, OutputEntry.mk.injEq] at ho
        rw [Output.entry, OutputEntry.mk.injEq]
        exact ⟨ho.1, rfl, ho.2.2⟩
    have hledger := congrArg Prod.fst hbooks
    have hsplits : s.splits = d.state.splits := congrArg Prod.snd hbooks
    refine Prod.ext ?_ hsplits
    have hwindows : s.windows.map Window.entry = d.state.windows.map Window.entry :=
      congrArg Ledger.windows hledger
    have hseats : s.seats.map Seat.entry = d.state.seats.map Seat.entry :=
      congrArg Ledger.seats hledger
    change Ledger.mk (s.windows.map Window.entry) _ (s.seats.map Seat.entry) = _
    rw [hwindows, hseats, newOutputEntry, hshell]
    exact congrArg (fun os => Ledger.mk (d.state.windows.map Window.entry) os
      (d.state.seats.map Seat.entry)) hmodify

theorem windowClosed_spec (d : AppData) (window : ObjectId) (w : Window) :
    (d.windowClosed window w).state.books = ({ d.state.ledger with
        windows := d.state.ledger.windows.filter fun e => e.proxy ≠ window }, d.state.splits) ∧
      (d.windowClosed window w).sent =
        d.sent ++ ((w.node.map Request.destroyNode).toList ++ [.destroy w.proxy]) ∧
      (d.windowClosed window w).fixed = d.fixed :=
  ⟨State.books_closeWindow d.state window, List.append_assoc .., rfl⟩

/-- The name of an output brings one object. -/
theorem bindWlOutput_spec (d : AppData) (output : ObjectId) (name : ℕ) :
    (d.bindWlOutput output name).state.books = ({ d.state.ledger with
        outputs := modifyFirst (fun e : OutputEntry => e.proxy == output)
          (fun e => { e with wlOutput := some d.nextObject }) d.state.ledger.outputs },
      d.state.splits) ∧
      (d.bindWlOutput output name).sent = d.sent ++ [.bind name d.nextObject] ∧
      (d.bindWlOutput output name).fixed =
        ({ d with nextObject := d.nextObject + 1 } : AppData).fixed := by
  refine ⟨?_, rfl, rfl⟩
  have houtputs := map_modifyFirst_comm (p := fun e : OutputEntry => e.proxy == output)
    (f := fun o : Output => { o with wlGlobal := some name, wlOutput := some d.nextObject })
    (k := fun e => { e with wlOutput := some d.nextObject }) Output.entry (fun _ => rfl)
    d.state.outputs
  exact Prod.ext (congrArg (fun os : List OutputEntry => ({ d.state.ledger with outputs := os } :
    Ledger)) houtputs) rfl

/-- The objects of an output that goes are destroyed. -/
theorem outputRemoved_spec {idx : ℕ} {o : Output} (hidx : idx < d.state.outputs.length)
    (h : d.outputRemoved idx o = some d') :
    d'.state.books = ({ d.state.ledger with
        outputs := d.state.ledger.outputs.eraseIdx idx }, d.state.splits) ∧
      d'.sent = d.sent ++ ((o.layer.map Request.destroy).toList ++
        (o.wlOutput.map Request.destroy).toList ++ [.destroy o.proxy, .manageDirty]) ∧
      d'.fixed = ({ d with layerDefaultSet := false } : AppData).fixed := by
  obtain ⟨d₁, h₁, h⟩ := Option.bind_eq_some_iff.mp h
  obtain ⟨s, hs, h₁⟩ := Option.bind_eq_some_iff.mp h₁
  obtain rfl := Option.some.inj h₁
  obtain rfl := Option.some.inj h
  refine ⟨State.books_removeOutput hidx hs, ?_, rfl⟩
  simp [manageDirty, send, sendAll]

/-- The objects of a seat that goes are destroyed. -/
theorem seatRemoved_spec (d : AppData) (seat : ObjectId) :
    (d.seatRemoved seat).state.books = ({ d.state.ledger with
        seats := d.state.ledger.seats.filter fun e => !(e.proxy == seat) }, d.state.splits) ∧
      (d.seatRemoved seat).sent = d.sent ++
        (((d.bindings.filter fun b => b.2.2 == seat).map fun b => Request.destroy b.1) ++
        ((d.pointerBindings.filter fun b => b.2.2 == seat).map fun b => Request.destroy b.1) ++
        ((((d.state.seats.filter fun t => t.proxy == seat).head?.map fun t =>
          t.layer.toList ++ [t.proxy]).getD [] ++ (d.state.seats.filter fun t =>
            t.proxy == seat).flatMap fun t => t.cursorShape.toList ++ t.pointer.toList).map
              Request.destroy)) ∧
      (d.seatRemoved seat).fixed = ({ d with
        bindings := d.bindings.filter fun b => !(b.2.2 == seat)
        pointerBindings := d.pointerBindings.filter fun b => !(b.2.2 == seat) } : AppData).fixed := by
  have hforget : ∀ d₁ : AppData, (d₁.forgetOps seat).state = d₁.state ∧
      (d₁.forgetOps seat).sent = d₁.sent ∧ (d₁.forgetOps seat).fixed = d₁.fixed := by
    intro d₁
    unfold forgetOps
    dsimp only
    split_ifs <;> exact ⟨rfl, rfl, rfl⟩
  obtain ⟨hstate, hsent, hfixed⟩ := hforget (d.dropBindings seat)
  unfold seatRemoved
  generalize (d.dropBindings seat).forgetOps seat = d₁ at hstate hsent hfixed
  change d₁.state = d.state at hstate
  unfold releaseSeat
  refine ⟨?_, ?_, hfixed⟩
  · change ({ d₁.state with seats := d₁.state.seats.filter fun t => !(t.proxy == seat) } :
      State).books = _
    rw [hstate]
    unfold State.books State.ledger
    rw [List.filter_map]
    rfl
  · change d₁.sent ++ _ = _
    rw [hstate, hsent]
    simp only [dropBindings, sendAll, List.append_assoc]

/-- The name of a seat brings its pointer and its cursor. -/
theorem bindWlSeat_spec (d : AppData) (seat : ObjectId) (name : ℕ) :
    let n := d.nextObject
    let shape := if d.cursorShapeManager then some (n + 2) else none
    (d.bindWlSeat seat name).state.books = ({ d.state.ledger with
        seats := modifyFirst (fun e : SeatEntry => e.proxy == seat)
          (fun e => { e with pointer := some (n + 1), cursorShape := shape }) d.state.ledger.seats },
      d.state.splits) ∧
      (d.bindWlSeat seat name).sent = d.sent ++ ([.bind name n, .bind name (n + 1)] ++
        (shape.map (Request.bind name)).toList) ∧
      (d.bindWlSeat seat name).fixed = ({ d with nextObject := n + 3 } : AppData).fixed := by
  refine ⟨?_, rfl, rfl⟩
  have hseats := map_modifyFirst_comm (p := fun e : SeatEntry => e.proxy == seat)
    (f := fun t : Seat => { t with
      pointer := some (d.nextObject + 1)
      cursorShape := if d.cursorShapeManager then some (d.nextObject + 2) else none })
    (k := fun e => { e with
      pointer := some (d.nextObject + 1)
      cursorShape := if d.cursorShapeManager then some (d.nextObject + 2) else none })
    Seat.entry (fun _ => rfl) d.state.seats
  exact Prod.ext (congrArg (fun ts : List SeatEntry => ({ d.state.ledger with seats := ts } :
    Ledger)) hseats) rfl

/-- The keybindings a seat gets. -/
def seatKeys (d : AppData) : List (ℕ × Modifiers × String) :=
  if d.xkb then keyBindings d.config else []

theorem bindKeys_eq (d : AppData) (seat : ObjectId) :
    (if d.xkb then d.bindForSeat seat else d) =
      { d with
        nextObject := d.nextObject + d.seatKeys.length
        bindings := d.bindings ++ (d.seatKeys.zipIdx d.nextObject).map fun p =>
          (p.2, p.1.2.2, seat)
        sent := d.sent ++ (d.seatKeys.zipIdx d.nextObject).map fun p =>
          Request.getXkbBinding seat p.1.1 p.1.2.1 p.2 } := by
  unfold seatKeys
  split_ifs
  · exact bindForSeat_eq d seat
  · simp

/-- A new seat gets its bindings and its layer-shell object. -/
theorem newSeat_spec (d : AppData) (seat : ObjectId) :
    let n := d.nextObject
    let k := n + d.seatKeys.length
    let layer := if d.layerShell then some (k + 2) else none
    (d.newSeat seat).state.books = ({ d.state.ledger with
        seats := d.state.ledger.seats ++
          [{ proxy := seat, layer, pointer := none, cursorShape := none }] }, d.state.splits) ∧
      (d.newSeat seat).sent = d.sent ++
        ((d.seatKeys.zipIdx n).map (fun p => Request.getXkbBinding seat p.1.1 p.1.2.1 p.2) ++
        [.getPointerBinding seat 0x110 (parseModifiers "" d.config.modifier) k,
          .getPointerBinding seat 0x111 (parseModifiers "" d.config.modifier) (k + 1)] ++
        (layer.map (Request.layerGetSeat seat)).toList) ∧
      (d.newSeat seat).fixed = ({ d with
        nextObject := k + 2 + if d.layerShell then 1 else 0
        bindings := d.bindings ++ (d.seatKeys.zipIdx n).map fun p => (p.2, p.1.2.2, seat)
        pointerBindings := d.pointerBindings ++
          [(k, "move", seat), (k + 1, "resize", seat)] } : AppData).fixed := by
  intro n k layer
  generalize hd₁ : ((if (d.modifyState fun s => { s with seats := s.seats ++ [Seat.new seat] }).xkb
    then (d.modifyState fun s => { s with seats := s.seats ++ [Seat.new seat] }).bindForSeat seat
    else d.modifyState fun s => { s with seats := s.seats ++ [Seat.new seat] }).bindPointerForSeat
      seat) = d₁
  have hnew : d.newSeat seat = d.newSeat seat := rfl
  conv_rhs at hnew => unfold newSeat
  dsimp only at hnew
  rw [hd₁] at hnew
  rw [bindKeys_eq, bindPointerForSeat_eq] at hd₁
  have hshell : d₁.layerShell = d.layerShell := hd₁ ▸ rfl
  have hstate : d₁.state = { d.state with seats := d.state.seats ++ [Seat.new seat] } := hd₁ ▸ rfl
  have hnext : d₁.nextObject = k + 2 := hd₁ ▸ rfl
  have hsent : d₁.sent = d.sent ++
      ((d.seatKeys.zipIdx n).map (fun p => Request.getXkbBinding seat p.1.1 p.1.2.1 p.2) ++
        [.getPointerBinding seat 0x110 (parseModifiers "" d.config.modifier) k,
          .getPointerBinding seat 0x111 (parseModifiers "" d.config.modifier) (k + 1)]) :=
    hd₁ ▸ List.append_assoc ..
  have hfixed : d₁.fixed = ({ d with
      nextObject := k + 2
      bindings := d.bindings ++ (d.seatKeys.zipIdx n).map fun p => (p.2, p.1.2.2, seat)
      pointerBindings := d.pointerBindings ++
        [(k, "move", seat), (k + 1, "resize", seat)] } : AppData).fixed := hd₁ ▸ rfl
  have hledger (layer : Option ObjectId) : ({ d.state with
      seats := d.state.seats ++ [{ Seat.new seat with layer }] } : State).books =
        ({ d.state.ledger with
          seats := d.state.ledger.seats ++
            [{ proxy := seat, layer, pointer := none, cursorShape := none }] }, d.state.splits) := by
    unfold State.books State.ledger
    rw [List.map_append]
    rfl
  by_cases hlayer : d.layerShell = true
  · rw [if_pos (hshell.trans hlayer), hstate, List.getLast?_concat] at hnew
    simp only [layer, if_pos hlayer, Option.map_some, Option.toList_some]
    replace hnew := hnew.trans (if_pos rfl)
    refine ⟨?_, ?_, ?_⟩
    · have hmodify := modify_concat (fun t : Seat => { t with layer := some (k + 2) })
        (Seat.new seat) d.state.seats
      rw [hnew, ← hledger (some (k + 2)), ← hmodify, ← hnext]
      change State.books { d₁.state with
        seats := d₁.state.seats.modify (d₁.state.seats.length - 1) fun t =>
          { t with layer := some d₁.nextObject } } = _
      rw [hstate, List.length_append, List.length_singleton, Nat.add_sub_cancel]
    · rw [hnew, ← hnext, ← List.append_assoc, ← hsent]
      rfl
    · rw [hnew]
      have hcount (m : ℕ) (h : m = k + 2) : ({ d₁ with nextObject := m + 1 } : AppData).fixed =
          ({ d with
            nextObject := k + 2 + 1
            bindings := d.bindings ++ (d.seatKeys.zipIdx n).map fun p => (p.2, p.1.2.2, seat)
            pointerBindings := d.pointerBindings ++
              [(k, "move", seat), (k + 1, "resize", seat)] } : AppData).fixed := by
        rw [h, ← hd₁]
        rfl
      exact hcount d₁.nextObject hnext
  · rw [if_neg (hshell ▸ hlayer)] at hnew
    simp only [layer, if_neg hlayer, Option.map_none, Option.toList_none, List.append_nil,
      Nat.add_zero]
    exact ⟨(congrArg State.books (hnew ▸ hstate)).trans (hledger none), hnew ▸ hsent, hnew ▸ hfixed⟩

end AppData

/-! ## Every event -/

/-- The event starts a sequence. -/
def Event.Starts : Event → Bool
  | .manageStart | .renderStart _ => true
  | _ => false

/-- The event may find nothing to do about objects : it is routine, or what it ends is not known. -/
def Event.Quiet : Event → Bool
  | .newWindow _ | .newOutput _ | .newSeat _ | .manageStart | .renderStart _
  | .output _ (.wlOutput _) | .seat _ .removed | .seat _ (.wlSeat _) => false
  | _ => true

/-- The requests made outside the sequences. -/
def Request.Occasional : Request → Bool
  | .manageDirty | .spawn _ | .destroyNode _ | .destroy _ | .layerGetOutput _ _ | .layerGetSeat _ _
  | .bind _ _ | .getXkbBinding _ _ _ _ | .getPointerBinding _ _ _ _ => true
  | _ => false

namespace AppData

variable {d d' : AppData}

/-- What an event does : nothing about objects, or one of the handlers above, or a sequence. -/
inductive Effect (d : AppData) : Event → AppData → Prop
  | routine {event : Event} {d' : AppData} : event.Quiet = true → Routine State.ledger d d' →
      ((∀ binding, event ≠ .bindingPressed binding) → d'.state.splits = d.state.splits) →
      Effect d event d'
  | newWindow (window : ObjectId) : Effect d (.newWindow window) (d.newWindow window)
  | closed {w : Window} : w ∈ d.state.windows →
      Effect d (.window w.proxy .closed) (d.windowClosed w.proxy w)
  | newOutput {output : ObjectId} {d' : AppData} : d.newOutput output = some d' →
      Effect d (.newOutput output) d'
  | wlOutput (output : ObjectId) (name : ℕ) :
      Effect d (.output output (.wlOutput name)) (d.bindWlOutput output name)
  | outputRemoved {idx : ℕ} {o : Output} {d' : AppData} : d.state.outputs[idx]? = some o →
      d.outputRemoved idx o = some d' → Effect d (.output o.proxy .removed) d'
  | newSeat (seat : ObjectId) : Effect d (.newSeat seat) (d.newSeat seat)
  | wlSeat (seat : ObjectId) (name : ℕ) :
      Effect d (.seat seat (.wlSeat name)) (d.bindWlSeat seat name)
  | seatRemoved (seat : ObjectId) : Effect d (.seat seat .removed) (d.seatRemoved seat)
  | manageStart {d' : AppData} : d.onManageStart = some d' → Effect d .manageStart d'
  | renderStart {hasClients : Bool} {d' : AppData} : d.onRenderStart hasClients = some d' →
      Effect d (.renderStart hasClients) d'

theorem Routine.effect {event : Event} (hevent : event.Quiet = true)
    (h : Routine State.books d d') : Effect d event d' :=
  .routine hevent h.ledger fun _ => congrArg Prod.snd h.state

theorem effect_windowEvent (hids : (d.state.windows.map (·.id)).Nodup) {window : ObjectId}
    {event : WindowEvent} (h : d.windowEvent window event = some d') :
    Effect d (.window window event) d' := by
  by_cases hevent : event = .closed
  · subst hevent
    unfold windowEvent at h
    split at h
    · exact Option.some.inj h ▸ (Routine.refl d).effect rfl
    · next id hid =>
      obtain ⟨w, hw, rfl⟩ := Option.map_eq_some_iff.mp hid
      have hmem := List.mem_of_find?_eq_some hw
      have hproxy : w.proxy = window := by simpa using List.find?_some hw
      simp only [findWindow_of_nodup hids hmem] at h
      obtain rfl := Option.some.inj h
      rw [← hproxy]
      exact .closed hmem
  · exact (routine_windowEvent h hevent).effect rfl

theorem effect_outputEvent {output : ObjectId} {event : OutputEvent}
    (h : d.outputEvent output event = some d') : Effect d (.output output event) d' := by
  cases event with
  | wlOutput name => exact Option.some.inj h ▸ .wlOutput output name
  | removed =>
    unfold outputEvent at h
    dsimp only at h
    split at h
    · next idx hfound =>
      obtain ⟨o, ho, h⟩ := Option.bind_eq_some_iff.mp h
      obtain ⟨hidx, hp, -⟩ := List.findIdx?_eq_some_iff_getElem.mp hfound
      rw [List.getElem?_eq_getElem hidx] at ho
      have hproxy : o.proxy = output := Option.some.inj ho ▸ beq_iff_eq.mp hp
      rw [← hproxy]
      exact .outputRemoved (List.getElem?_eq_some_iff.mpr ⟨hidx, Option.some.inj ho⟩) h
    · exact Option.some.inj h ▸ (Routine.refl d).effect rfl
  | position x y => exact (routine_outputEvent h (by simp) (by simp)).effect rfl
  | dimensions width height => exact (routine_outputEvent h (by simp) (by simp)).effect rfl

theorem effect_seatEvent {seat : ObjectId} {event : SeatEvent}
    (h : d.seatEvent seat event = some d') : Effect d (.seat seat event) d' := by
  by_cases hremoved : event = .removed
  · subst hremoved
    exact Option.some.inj h ▸ .seatRemoved seat
  by_cases hname : ∃ name, event = .wlSeat name
  · obtain ⟨name, rfl⟩ := hname
    exact Option.some.inj h ▸ .wlSeat seat name
  · refine (routine_seatEvent h hremoved fun name hevent => hname ⟨name, hevent⟩).effect ?_
    cases event <;> first | rfl | exact absurd rfl hremoved | exact absurd ⟨_, rfl⟩ hname

/-- Every event has its effect. -/
theorem effect_handle (hids : (d.state.windows.map (·.id)).Nodup) {event : Event}
    (h : d.handle event = some d') : Effect d event d' := by
  cases event with
  | newWindow window => exact Option.some.inj h ▸ .newWindow window
  | newOutput output => exact .newOutput h
  | newSeat seat => exact Option.some.inj h ▸ .newSeat seat
  | manageStart => exact .manageStart h
  | renderStart hasClients => exact .renderStart h
  | window window event => exact effect_windowEvent hids h
  | output output event => exact effect_outputEvent h
  | seat seat event => exact effect_seatEvent h
  | bindingPressed binding =>
    exact .routine rfl (routine_handle rfl h) fun hpress => absurd rfl (hpress binding)
  | _ => exact (routine_handle_books rfl (by simp) h).effect rfl

/-- Splits change with the press of a binding only. -/
theorem splits_handle (hids : (d.state.windows.map (·.id)).Nodup) {event : Event}
    (hpress : ∀ binding, event ≠ .bindingPressed binding) (h : d.handle event = some d') :
    d'.state.splits = d.state.splits := by
  cases effect_handle hids h with
  | routine _ _ hsplits => exact hsplits hpress
  | newWindow window => exact congrArg Prod.snd (newWindow_spec d window).1
  | closed _ => exact congrArg Prod.snd (windowClosed_spec d _ _).1
  | newOutput h => exact congrArg Prod.snd (newOutput_spec h).1
  | wlOutput output name => exact congrArg Prod.snd (bindWlOutput_spec d output name).1
  | outputRemoved ho h =>
    exact congrArg Prod.snd (outputRemoved_spec (List.getElem?_eq_some_iff.mp ho).1 h).1
  | newSeat seat => exact congrArg Prod.snd (newSeat_spec d seat).1
  | wlSeat seat name => exact congrArg Prod.snd (bindWlSeat_spec d seat name).1
  | seatRemoved seat => exact congrArg Prod.snd (seatRemoved_spec d seat).1
  | manageStart h =>
    obtain ⟨routed, gs, -, -, rfl⟩ := onManageStart_eq h
    exact congrArg Prod.snd (loop_keeps State.books (fun _ _ _ => State.books_refocusOutput)
      d.state.refocusAll_eq.1)
  | renderStart h =>
    obtain ⟨focused, gs, published, -, -, rfl⟩ := onRenderStart_eq hids h
    rfl

theorem occasional_map {α : Type} {f : α → Request} (hf : ∀ a, (f a).Occasional = true)
    (l : List α) : ∀ r ∈ l.map f, r.Occasional = true :=
  List.forall_mem_map.mpr fun a _ => hf a

theorem occasional_option {α : Type} {f : α → Request} (hf : ∀ a, (f a).Occasional = true)
    (o : Option α) : ∀ r ∈ (o.map f).toList, r.Occasional = true := by
  intro r hr
  obtain ⟨a, -, rfl⟩ := Option.map_eq_some_iff.mp (Option.mem_toList.mp hr)
  exact hf a

/-- What is sent outside the sequences. -/
theorem occasional_handle (hids : (d.state.windows.map (·.id)).Nodup) {event : Event}
    (hevent : event.Starts = false) (h : d.handle event = some d') : ∃ rs,
      d'.sent = d.sent ++ rs ∧ ∀ r ∈ rs, r.Occasional = true := by
  cases effect_handle hids h with
  | manageStart _ | renderStart _ => cases hevent
  | routine _ h _ =>
    obtain ⟨rs, hrs, hfree⟩ := h.sent
    refine ⟨rs, hrs, fun r hr => ?_⟩
    have hkind := hfree r hr
    cases r <;> first | rfl | cases hkind
  | newWindow window => exact ⟨[], by rw [(newWindow_spec d window).2.1, List.append_nil], by simp⟩
  | closed _ =>
    refine ⟨_, (windowClosed_spec d _ _).2.1, List.forall_mem_append.mpr ⟨?_, ?_⟩⟩
    · exact occasional_option (fun _ => rfl) _
    · exact List.forall_mem_singleton.mpr rfl
  | newOutput h =>
    refine ⟨_, (newOutput_spec h).2.1, fun r hr => ?_⟩
    split_ifs at hr
    · exact List.mem_singleton.mp hr ▸ rfl
    · cases hr
  | wlOutput output name =>
    exact ⟨_, (bindWlOutput_spec d output name).2.1, List.forall_mem_singleton.mpr rfl⟩
  | outputRemoved ho h =>
    refine ⟨_, (outputRemoved_spec (List.getElem?_eq_some_iff.mp ho).1 h).2.1,
      List.forall_mem_append.mpr ⟨List.forall_mem_append.mpr ⟨?_, ?_⟩, by simp [Request.Occasional]⟩⟩
    · exact occasional_option (fun _ => rfl) _
    · exact occasional_option (fun _ => rfl) _
  | newSeat seat =>
    refine ⟨_, (newSeat_spec d seat).2.1, List.forall_mem_append.mpr
      ⟨List.forall_mem_append.mpr ⟨?_, by simp [Request.Occasional]⟩, ?_⟩⟩
    · exact occasional_map (fun _ => rfl) _
    · exact occasional_option (fun _ => rfl) _
  | wlSeat seat name =>
    refine ⟨_, (bindWlSeat_spec d seat name).2.1,
      List.forall_mem_append.mpr ⟨by simp [Request.Occasional], ?_⟩⟩
    exact occasional_option (fun _ => rfl) _
  | seatRemoved seat =>
    refine ⟨_, (seatRemoved_spec d seat).2.1,
      List.forall_mem_append.mpr ⟨List.forall_mem_append.mpr ⟨?_, ?_⟩, ?_⟩⟩
    all_goals exact occasional_map (fun _ => rfl) _

end AppData

end Streamwm
