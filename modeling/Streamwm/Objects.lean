import Streamwm.Arrivals
import Streamwm.Library.Custody
import Streamwm.Sequences

/-!
# Objects held

`Request.deeds` reads a request as what it does to objects : those it names must be live, one it
creates must be new, and `destroy` ends one. `AppData.objects` are the objects the window
manager holds, in the ledger and in the lists of bindings.

A manage sequence only uses what is held (`uses_manageRequests`). A render sequence destroys
the nodes of windows out of sight, creates those of windows in sight and uses what it then holds
(`renders`) : a `Custody.Triple`, by the rules for a loop over the windows.
-/

namespace Streamwm

open Custody Partial

/-- What a request does to objects. -/
def Request.deeds : Request → List Deed
  | .manageDirty | .manageFinish | .renderFinish | .spawn _ => []
  | .hide w | .show w | .close w | .exitFullscreen w | .informFullscreen w
  | .informNotFullscreen w | .setCapabilities w | .useSsd w | .useCsd w
  | .setDimensionBounds w _ _ | .proposeDimensions w _ _ | .setTiled w _
  | .setBorders w _ _ _ _ _ _ => [.use w]
  | .fullscreen w output => [.use w, .use output]
  | .getNode w node => [.use w, .create node]
  | .setPosition node _ _ | .placeTop node => [.use node]
  | .destroyNode node => [.destroy node]
  | .focusWindow seat w => [.use seat, .use w]
  | .clearFocus seat | .opStartPointer seat _ | .opEnd seat | .pointerWarp seat _ _ => [.use seat]
  | .setCursorShape device _ => [.use device]
  | .setDefaultCursor pointer => [.use pointer]
  | .getXkbBinding seat _ _ binding | .getPointerBinding seat _ _ binding =>
    [.use seat, .create binding]
  | .enable binding | .disable binding => [.use binding]
  | .layerSetDefault layer => [.use layer]
  | .layerGetOutput output layer => [.use output, .create layer]
  | .layerGetSeat seat layer => [.use seat, .create layer]
  | .bind _ object => [.create object]
  | .destroy object => [.destroy object]

/-- What a list of requests does to objects. -/
def deeds (rs : List Request) : List Deed :=
  rs.flatMap Request.deeds

theorem deeds_append (rs rs' : List Request) : deeds (rs ++ rs') = deeds rs ++ deeds rs' :=
  List.flatMap_append

theorem deeds_flatMap {α : Type} (g : α → List Request) (l : List α) :
    deeds (l.flatMap g) = l.flatMap fun a => deeds (g a) :=
  List.flatMap_assoc

/-- Destroying objects, one after the other. -/
theorem deeds_destroy (xs : List ObjectId) : deeds (xs.map .destroy) = xs.map .destroy := by
  unfold deeds
  rw [List.flatMap_map]
  exact List.flatMap_pure_eq_map Deed.destroy xs

/-- Requests that concern no object do nothing to objects. -/
theorem deeds_free {rs : List Request} (h : ∀ r ∈ rs, r.Free = true) : deeds rs = [] := by
  refine List.flatMap_eq_nil_iff.mpr fun r hr => ?_
  have hfree := h r hr
  cases r <;> first | rfl | cases hfree

/-! ## Holdings -/

/-- The objects held for a window. -/
def WindowEntry.objects (e : WindowEntry) : Multiset ObjectId :=
  e.proxy ::ₘ ↑e.node.toList

/-- The objects held for an output. -/
def OutputEntry.objects (e : OutputEntry) : Multiset ObjectId :=
  e.proxy ::ₘ ↑(e.layer.toList ++ e.wlOutput.toList)

/-- The objects held for a seat. -/
def SeatEntry.objects (e : SeatEntry) : Multiset ObjectId :=
  e.proxy ::ₘ ↑(e.layer.toList ++ (e.cursorShape.toList ++ e.pointer.toList))

/-- The objects of windows, outputs and seats. -/
def Ledger.objects (l : Ledger) : Multiset ObjectId :=
  (l.windows.map WindowEntry.objects).sum +
    ((l.outputs.map OutputEntry.objects).sum + (l.seats.map SeatEntry.objects).sum)

/-- The objects of the bindings. -/
def AppData.bindingObjects (d : AppData) : Multiset ObjectId :=
  ↑(d.bindings.map (·.1)) + ↑(d.pointerBindings.map (·.1))

/-- The objects the window manager holds. -/
def AppData.objects (d : AppData) : Multiset ObjectId :=
  d.state.ledger.objects + d.bindingObjects

/-- The request uses objects of `H`, and nothing else. -/
def Request.Uses (H : Multiset ObjectId) (r : Request) : Prop :=
  ∀ e ∈ r.deeds, ∃ x ∈ H, e = .use x

/-- More objects may be held. -/
theorem Request.Uses.mono {H H' : Multiset ObjectId} (hle : H ≤ H') {r : Request} (h : r.Uses H) :
    r.Uses H' := fun e he => by
  obtain ⟨x, hx, heq⟩ := h e he
  exact ⟨x, Multiset.mem_of_le hle hx, heq⟩

theorem uses_of_mem {H : Multiset ObjectId} {r : Request} {x : ObjectId} (hr : r.deeds = [.use x])
    (hx : x ∈ H) : r.Uses H := fun e he => by
  rw [hr, List.mem_singleton] at he
  exact ⟨x, hx, he⟩

theorem uses_of_mem₂ {H : Multiset ObjectId} {r : Request} {x y : ObjectId}
    (hr : r.deeds = [.use x, .use y]) (hx : x ∈ H) (hy : y ∈ H) : r.Uses H := fun e he => by
  rw [hr, List.mem_cons, List.mem_singleton] at he
  exact he.elim (fun h => ⟨x, hx, h⟩) fun h => ⟨y, hy, h⟩

/-- Requests that only use what is held are in order and change no holding. -/
theorem triple_uses {base n : ℕ} {H : Multiset ObjectId} {rs : List Request}
    (h : ∀ r ∈ rs, r.Uses H) : Triple base n H (deeds rs) n H := by
  refine Triple.uses fun e he => ?_
  obtain ⟨r, hr, he⟩ := List.mem_flatMap.mp he
  exact h r hr e he

namespace Window

/-- A step on a window asks about it, and about the output it goes fullscreen on. -/
def Asks (target : Option ObjectId) (w : Window) (p : Window × List Request) : Prop :=
  p.1.proxy = w.proxy ∧ ∀ r ∈ p.2, r.deeds = [.use w.proxy] ∨
    ∃ output, target = some output ∧ r.deeds = [.use w.proxy, .use output]

variable {target : Option ObjectId} {w : Window}

theorem asks_nil : Asks target w (w, []) :=
  ⟨rfl, by simp⟩

/-- One update of a window after another. -/
theorem Asks.trans {v u : Window} {rs rs' : List Request} (h : Asks target w (v, rs))
    (h' : Asks target v (u, rs')) : Asks target w (u, rs ++ rs') := by
  refine ⟨h'.1.trans h.1, fun r hr => ?_⟩
  rcases List.mem_append.mp hr with hr | hr
  · exact h.2 r hr
  · have hproxy : v.proxy = w.proxy := h.1
    rw [← hproxy]
    exact h'.2 r hr

theorem asks_singleton {v : Window} {r : Request} (hproxy : v.proxy = w.proxy)
    (hr : r.deeds = [.use w.proxy]) : Asks target w (v, [r]) :=
  ⟨hproxy, List.forall_mem_singleton.mpr (Or.inl hr)⟩

theorem asks_dropLostFullscreen (untagged outputsEmpty : Bool) (w : Window) :
    Asks target w (w.dropLostFullscreen untagged outputsEmpty) := by
  unfold dropLostFullscreen
  split_ifs
  · exact asks_singleton rfl rfl
  · exact asks_nil

theorem asks_setCaps (w : Window) : Asks target w w.setCaps := by
  unfold setCaps
  split_ifs
  · exact asks_nil
  · exact asks_singleton rfl rfl

theorem asks_setDecorations (useSsd : Bool) (w : Window) :
    Asks target w (w.setDecorations useSsd) := by
  unfold setDecorations
  by_cases happlied : w.ssdApplied ≠ some useSsd
  · rw [if_pos happlied]
    exact asks_singleton rfl (by cases useSsd <;> rfl)
  · rw [if_neg happlied]
    exact asks_nil

theorem asks_syncFullscreen (w : Window) : Asks target w (w.syncFullscreen target) := by
  unfold syncFullscreen
  split_ifs
  · cases target with
    | none => exact asks_nil
    | some output =>
      refine ⟨rfl, fun r hr => ?_⟩
      simp only [List.mem_cons, List.not_mem_nil, or_false] at hr
      rcases hr with rfl | rfl
      · exact Or.inr ⟨output, rfl, rfl⟩
      · exact Or.inl rfl
  · refine ⟨rfl, fun r hr => ?_⟩
    simp only [List.mem_cons, List.not_mem_nil, or_false] at hr
    rcases hr with rfl | rfl <;> exact Or.inl rfl
  · exact asks_nil

/-- The fullscreen block asks about the window and its target only. -/
theorem asks_manage (useSsd : Bool) (target : Option ObjectId) (untagged outputsEmpty : Bool)
    (w : Window) : Asks target w (w.manage useSsd target untagged outputsEmpty) :=
  (((w.asks_dropLostFullscreen untagged outputsEmpty).trans (asks_setCaps _)).trans
    (asks_setDecorations useSsd _)).trans (asks_syncFullscreen _)

end Window

namespace State

variable {s s' : State} {w : Window}

theorem window_mem_objects (hw : w ∈ s.windows) {x : ObjectId} (hx : x ∈ w.entry.objects) :
    x ∈ s.ledger.objects :=
  Multiset.mem_add.mpr (Or.inl (mem_sum_map.mpr ⟨w.entry, List.mem_map_of_mem hw, hx⟩))

theorem output_mem_objects {o : Output} (ho : o ∈ s.outputs) {x : ObjectId}
    (hx : x ∈ o.entry.objects) : x ∈ s.ledger.objects :=
  Multiset.mem_add.mpr (Or.inr (Multiset.mem_add.mpr
    (Or.inl (mem_sum_map.mpr ⟨o.entry, List.mem_map_of_mem ho, hx⟩))))

theorem seat_mem_objects {t : Seat} (ht : t ∈ s.seats) {x : ObjectId}
    (hx : x ∈ t.entry.objects) : x ∈ s.ledger.objects :=
  Multiset.mem_add.mpr (Or.inr (Multiset.mem_add.mpr
    (Or.inr (mem_sum_map.mpr ⟨t.entry, List.mem_map_of_mem ht, hx⟩))))

theorem proxy_mem_objects (hw : w ∈ s.windows) : w.proxy ∈ s.ledger.objects :=
  window_mem_objects hw (Multiset.mem_cons_self _ _)

theorem seatProxy_mem_objects {t : Seat} (ht : t ∈ s.seats) : t.proxy ∈ s.ledger.objects :=
  seat_mem_objects ht (Multiset.mem_cons_self _ _)

/-- The objects of a state are read off those of its windows. -/
theorem objects_of_windows {ws : List Window}
    (hw : ws.map (·.entry.objects) = s.windows.map (·.entry.objects)) :
    ({ s with windows := ws } : State).ledger.objects = s.ledger.objects := by
  have hentries : (ws.map Window.entry).map WindowEntry.objects =
      (s.windows.map Window.entry).map WindowEntry.objects := by
    rw [List.map_map, List.map_map]
    exact hw
  unfold Ledger.objects ledger
  exact congrArg (fun os : List (Multiset ObjectId) => os.sum + _) hentries

/-- Refocusing the outputs moves no object. -/
theorem objects_refocused (s : State) : s.refocused.ledger.objects = s.ledger.objects := by
  have hbooks := loop_keeps books (fun _ _ _ => books_refocusOutput) s.refocusAll_eq.1
  exact congrArg (·.1.objects) hbooks

/-- The fullscreen block changes no object. -/
theorem objects_managed (s : State) (config : Config) :
    (s.managed config).ledger.objects = s.ledger.objects := by
  refine objects_of_windows ?_
  rw [List.map_map]
  refine List.map_congr_left fun w _ => ?_
  obtain ⟨_, _, _, _, hw, -⟩ := managed_manageWindow s config w
  rw [Function.comp_apply, hw]
  rfl

/-- The tiled edges change no object. -/
theorem objects_tiled (s : State) : s.tiled.ledger.objects = s.ledger.objects := by
  refine objects_of_windows ?_
  rw [List.map_map]
  refine List.map_congr_left fun w _ => ?_
  obtain ⟨_, hw, -⟩ := w.setTiled_spec
  rw [Function.comp_apply, hw]
  rfl

/-! ## What a manage sequence uses -/

/-- The cursor is set through the device of a seat that is there. -/
theorem uses_cursorRequests (s : State) (seat : ObjectId) (shape : CursorShape) :
    ∀ r ∈ s.cursorRequests seat shape, r.Uses s.ledger.objects := by
  intro r hr
  obtain ⟨t, ht, hr⟩ := Option.bind_eq_some_iff.mp (Option.mem_toList.mp hr)
  obtain ⟨pointer, hpointer, rfl⟩ := Option.map_eq_some_iff.mp hr
  have hmem := List.mem_of_find?_eq_some ht
  cases hshape : t.cursorShape with
  | some device =>
    refine uses_of_mem rfl (seat_mem_objects hmem ?_)
    simp [SeatEntry.objects, Seat.entry, hshape]
  | none =>
    refine uses_of_mem rfl (seat_mem_objects hmem ?_)
    simp [SeatEntry.objects, Seat.entry, hpointer]

theorem uses_windows {f : ObjectId → Request} (hf : ∀ w, (f w).deeds = [.use w]) (s : State) :
    ∀ r ∈ s.windows.map fun w => f w.proxy, r.Uses s.ledger.objects :=
  List.forall_mem_map.mpr fun _ hw => uses_of_mem (hf _) (proxy_mem_objects hw)

theorem uses_seats {f : ObjectId → Request} (hf : ∀ t, (f t).deeds = [.use t]) (s : State) :
    ∀ r ∈ s.seats.map fun t => f t.proxy, r.Uses s.ledger.objects :=
  List.forall_mem_map.mpr fun _ ht => uses_of_mem (hf _) (seatProxy_mem_objects ht)

/-- Where the fullscreen block sends a window is an output of the list. -/
theorem fullscreenTarget_mem_objects {output : ObjectId} (h : s.fullscreenTarget w = some output) :
    output ∈ s.ledger.objects := by
  obtain ⟨i, -, hi⟩ := Option.bind_eq_some_iff.mp h
  obtain ⟨o, ho, rfl⟩ := Option.map_eq_some_iff.mp hi
  exact output_mem_objects (List.mem_of_getElem? ho) (Multiset.mem_cons_self _ _)

/-- The output a window is fullscreen on is there. -/
theorem uses_manageWindow (config : Config) (hw : w ∈ s.windows) :
    ∀ r ∈ (s.manageWindow config w).2, r.Uses s.ledger.objects := by
  intro r hr
  obtain ⟨-, hasks⟩ := w.asks_manage config.useSsd (s.fullscreenTarget w)
    (s.tagOwner w.tag).isNone s.outputs.isEmpty
  rcases hasks r hr with hdeeds | ⟨output, htarget, hdeeds⟩
  · exact uses_of_mem hdeeds (proxy_mem_objects hw)
  · exact uses_of_mem₂ hdeeds (proxy_mem_objects hw) (fullscreenTarget_mem_objects htarget)

/-- The focus goes to a window that is there. -/
theorem uses_focusRequests {routed : Option Window} (hrouted : s.routedWindow = some routed) :
    ∀ r ∈ s.focusRequests routed, r.Uses s.ledger.objects := by
  intro r hr
  obtain ⟨t, ht, rfl⟩ := List.mem_map.mp hr
  cases routed with
  | none => exact uses_of_mem rfl (seatProxy_mem_objects ht)
  | some w =>
    refine uses_of_mem₂ rfl (seatProxy_mem_objects ht) (proxy_mem_objects ?_)
    unfold routedWindow at hrouted
    split at hrouted
    · cases hrouted
    · obtain ⟨o, -, hrouted⟩ := Option.bind_eq_some_iff.mp hrouted
      obtain ⟨fid, -, hfid⟩ := Option.bind_eq_some_iff.mp (Option.some.inj hrouted)
      exact (mem_of_findWindow hfid).1

/-- Sizes are proposed to windows that are there. -/
theorem uses_proposals (s : State) (gs : List (ℕ × Geometry)) :
    ∀ r ∈ gs.flatMap s.proposeCell ++ s.proposeFloats, r.Uses s.ledger.objects := by
  intro r hr
  rcases List.mem_append.mp hr with hr | hr
  · obtain ⟨p, -, hp⟩ := List.mem_flatMap.mp hr
    unfold proposeCell at hp
    split_ifs at hp
    · cases hp
    · split at hp
      · cases hp
      · next w hw =>
        have hmem := proxy_mem_objects (mem_of_findWindow hw).1
        split_ifs at hp
        · rw [List.mem_singleton.mp hp]
          exact uses_of_mem rfl hmem
        · simp only [List.mem_cons, List.not_mem_nil, or_false] at hp
          rcases hp with rfl | rfl <;> exact uses_of_mem rfl hmem
  · obtain ⟨w, hw, hr⟩ := List.mem_flatMap.mp hr
    split_ifs at hr
    · rw [List.mem_singleton.mp hr]
      exact uses_of_mem rfl (proxy_mem_objects (List.mem_of_mem_filter hw))
    · cases hr

theorem uses_setTiled (hw : w ∈ s.windows) : ∀ r ∈ w.setTiled.2, r.Uses s.ledger.objects := by
  intro r hr
  obtain ⟨_, -, hspec⟩ := w.setTiled_spec
  obtain ⟨edges, rfl⟩ := hspec r hr
  exact uses_of_mem rfl (proxy_mem_objects hw)

theorem uses_warpRequests (s : State) (target : ℕ) :
    ∀ r ∈ s.warpRequests target, r.Uses s.ledger.objects := by
  unfold warpRequests
  split
  · simp
  · next o _ =>
    exact s.uses_seats (f := fun t => Request.pointerWarp t (o.x + (o.width / 2 : ℕ))
      (o.y + (o.height / 2 : ℕ))) fun _ => rfl

end State

namespace AppData

variable {d d' : AppData} (base : ℕ) {n : ℕ}

/-- The pointer operations are driven by seats that are there. -/
def OpsHeld (d : AppData) : Prop :=
  ∀ op, d.pendingOp = some op ∨ d.pointerOp = some op → op.seat ∈ d.state.seats.map (·.proxy)

/-- Operations are started and ended on seats that are there. -/
theorem uses_pointerRequests (hops : d.OpsHeld) :
    ∀ r ∈ d.pointerRequests, r.Uses d.state.ledger.objects := by
  have hseat : ∀ op, d.pendingOp = some op ∨ d.pointerOp = some op →
      op.seat ∈ d.state.ledger.objects := by
    intro op hop
    obtain ⟨t, ht, hproxy⟩ := List.mem_map.mp (hops op hop)
    exact hproxy ▸ State.seatProxy_mem_objects ht
  intro r hr
  unfold pointerRequests at hr
  rcases List.mem_append.mp hr with hr | hr
  · cases hop : d.pendingOp with
    | none => simp [hop] at hr
    | some op =>
      rw [hop, Option.map_some, Option.getD_some, List.mem_append, List.mem_singleton] at hr
      rcases hr with hr | rfl
      · exact State.uses_cursorRequests _ _ _ r hr
      · exact uses_of_mem rfl (hseat op (Or.inl hop))
  · split_ifs at hr
    · cases hop : d.stagedOp with
      | none => simp [hop] at hr
      | some op =>
        rw [hop, Option.map_some, Option.getD_some, List.mem_cons] at hr
        rcases hr with rfl | hr
        · have hstaged : d.pendingOp = some op ∨ d.pointerOp = some op := by
            cases hpending : d.pendingOp with
            | none => exact Or.inr (by rwa [stagedOp, hpending, Option.none_or] at hop)
            | some op' => exact Or.inl (by rwa [stagedOp, hpending, Option.some_or] at hop)
          exact uses_of_mem rfl (hseat op hstaged)
        · exact State.uses_cursorRequests _ _ _ r hr
    · cases hr

theorem uses_bindingRequests (d : AppData) : ∀ r ∈ d.bindingRequests, r.Uses d.bindingObjects := by
  intro r hr
  unfold bindingRequests at hr
  rcases List.mem_append.mp hr with hr | hr
  · obtain ⟨b, hb, rfl⟩ := List.mem_map.mp hr
    have hmem : b.1 ∈ d.bindingObjects :=
      Multiset.mem_add.mpr (Or.inl (Multiset.mem_coe.mpr (List.mem_map_of_mem hb)))
    split_ifs <;> exact uses_of_mem rfl hmem
  · obtain ⟨b, hb, rfl⟩ := List.mem_map.mp hr
    exact uses_of_mem rfl
      (Multiset.mem_add.mpr (Or.inr (Multiset.mem_coe.mpr (List.mem_map_of_mem hb))))

/-- A manage sequence uses what is held, and nothing else. -/
theorem uses_manageRequests (hops : d.OpsHeld) {routed : Option Window} {gs : List (ℕ × Geometry)}
    (hrouted : d.settled.routedWindow = some routed) :
    ∀ r ∈ d.manageRequests routed gs, r.Uses d.objects := by
  have hrefocused := d.state.objects_refocused
  have hsettled : d.settled.ledger.objects = d.state.ledger.objects :=
    (State.objects_managed _ _).trans hrefocused
  have hstate : d.state.ledger.objects ≤ d.objects := Multiset.le_add_right _ _
  intro r hr
  simp only [manageRequests, List.mem_append, or_assoc] at hr
  rcases hr with hr | hr | hr | hr | hr | hr | hr | hr | hr | hr | hr
  · exact (uses_pointerRequests hops r hr).mono hstate
  · exact (State.uses_windows (f := Request.hide) (fun _ => rfl) _ r hr).mono hstate
  · obtain ⟨fid, -, hr⟩ := List.mem_flatMap.mp hr
    obtain ⟨w, hw, rfl⟩ := Option.map_eq_some_iff.mp (Option.mem_toList.mp hr)
    exact (uses_of_mem rfl (State.proxy_mem_objects (State.mem_of_findWindow hw).1)).mono hstate
  · obtain ⟨w, hw, hr⟩ := List.mem_flatMap.mp hr
    exact (State.uses_manageWindow (s := d.state.refocused) d.config hw r hr).mono
      (hrefocused ▸ hstate)
  · unfold layerRequests at hr
    split_ifs at hr
    · cases hr
    · obtain ⟨layer, hlayer, rfl⟩ := Option.map_eq_some_iff.mp (Option.mem_toList.mp hr)
      obtain ⟨o, ho, hlayer⟩ := Option.bind_eq_some_iff.mp hlayer
      refine (uses_of_mem rfl (State.output_mem_objects (List.mem_of_mem_head? ho) ?_)).mono hstate
      simp [OutputEntry.objects, Output.entry, hlayer]
  · exact (State.uses_focusRequests hrouted r hr).mono (hsettled ▸ hstate)
  · exact (State.uses_proposals _ gs r (List.mem_append_left _ hr)).mono (hsettled ▸ hstate)
  · exact (State.uses_proposals _ gs r (List.mem_append_right _ hr)).mono (hsettled ▸ hstate)
  · obtain ⟨w, hw, hr⟩ := List.mem_flatMap.mp hr
    exact (State.uses_setTiled hw r hr).mono (hsettled ▸ hstate)
  · exact (uses_bindingRequests d r hr).mono (Multiset.le_add_left _ _)
  · cases hwarp : d.pendingPointerWarp with
    | none => simp [hwarp] at hr
    | some target =>
      rw [hwarp, Option.elim_some] at hr
      exact (State.uses_warpRequests _ target r hr).mono (hsettled ▸ hstate)

/-- A manage sequence changes no holding. -/
theorem triple_onManageStart (hops : d.OpsHeld) (h : d.onManageStart = some d') :
    ∃ rs, d'.sent = d.sent ++ rs ∧
      Triple base d.nextObject d.objects (deeds rs) d'.nextObject d'.objects := by
  obtain ⟨routed, gs, hrouted, -, rfl⟩ := onManageStart_eq h
  refine ⟨_, rfl, ?_⟩
  have hobjects : d.settled.tiled.ledger.objects + d.bindingObjects = d.objects := by
    rw [State.objects_tiled, settled, State.objects_managed, State.objects_refocused]
    rfl
  change Triple base d.nextObject d.objects _ d.nextObject
    (d.settled.tiled.ledger.objects + d.bindingObjects)
  rw [hobjects]
  refine triple_uses fun r hr => ?_
  rcases List.mem_append.mp hr with hr | hr
  · exact uses_manageRequests hops hrouted r hr
  · rw [List.mem_singleton.mp hr]
    exact fun e he => by cases he

/-! ## What a render sequence destroys, creates and uses -/

/-- A hidden window gives its node back. -/
theorem triple_releaseNode (active : List ℕ) (w : Window) :
    Triple base n w.entry.objects (deeds (w.releaseNode active).2) n
      (w.releaseNode active).1.entry.objects := by
  unfold Window.releaseNode
  split_ifs
  · exact Triple.nil
  · have hobjects : w.entry.objects = ↑w.node.toList + {w.proxy} := by
      rw [add_comm, Multiset.singleton_add]
      rfl
    have hdeeds : deeds (w.node.map Request.destroyNode).toList = w.node.toList.map .destroy := by
      cases w.node <;> rfl
    rw [hobjects, hdeeds]
    exact Triple.destroyAll w.node.toList

/-- The objects held for anything but windows. -/
def otherObjects (d : AppData) : Multiset ObjectId :=
  (d.state.ledger.outputs.map OutputEntry.objects).sum +
    (d.state.ledger.seats.map SeatEntry.objects).sum + d.bindingObjects

theorem objects_eq (d : AppData) :
    d.objects = (d.state.windows.map (·.entry.objects)).sum + d.otherObjects := by
  have hwindows : d.state.ledger.windows.map WindowEntry.objects =
      d.state.windows.map (·.entry.objects) := List.map_map
  unfold objects Ledger.objects otherObjects
  rw [hwindows, add_assoc]

/-- Destroying the nodes of windows out of sight. -/
theorem triple_releaseHiddenNodes (d : AppData) : ∃ rs,
    d.releaseHiddenNodes.sent = d.sent ++ rs ∧
      Triple base d.nextObject d.objects (deeds rs) d.nextObject d.releaseHiddenNodes.objects := by
  refine ⟨_, rfl, ?_⟩
  have hafter : d.releaseHiddenNodes.objects = (d.state.windows.map fun w =>
      (w.releaseNode (d.state.outputs.map (·.activeTag))).1.entry.objects).sum +
        d.otherObjects := by
    rw [objects_eq, releaseHiddenNodes, updateWindows, List.map_map]
    rfl
  rw [deeds_flatMap, objects_eq d, hafter]
  exact (Triple.flatMap fun w _ => triple_releaseNode base _ w).frame d.otherObjects

/-- A shown window without a node gets one. -/
theorem triple_takeNode (k : ℕ) (visible : Bool) (w : Window) :
    Triple base k w.entry.objects (deeds (w.takeNode k visible).2) (k + 1)
      (w.takeNode k visible).1.entry.objects := by
  unfold Window.takeNode
  by_cases hcreate : (w.node.isNone && visible) = true
  · rw [if_pos hcreate]
    have hnode : w.node = none := Option.isNone_iff_eq_none.mp (Bool.and_eq_true_iff.mp hcreate).1
    have hobjects : w.entry.objects = {w.proxy} := by
      unfold Window.entry WindowEntry.objects
      rw [hnode]
      rfl
    have hafter : ({ w with node := some k } : Window).entry.objects = k ::ₘ {w.proxy} :=
      Multiset.pair_comm w.proxy k
    rw [hobjects, hafter]
    exact Triple.createFor (Multiset.mem_singleton_self w.proxy)
  · rw [if_neg hcreate]
    exact Triple.skip (Nat.le_succ k)

/-- Creating the nodes of windows in sight, which are numbered one after the other. -/
theorem triple_createNodes (d : AppData) : ∃ rs, d.createNodes.sent = d.sent ++ rs ∧
    Triple base d.nextObject d.objects (deeds rs) d.createNodes.nextObject
      d.createNodes.objects := by
  refine ⟨_, rfl, ?_⟩
  have hnumbers : d.state.windows.zipIdx d.nextObject =
      d.state.windows.zipIdx.map fun p => (p.1, d.nextObject + p.2) := by
    rw [← Nat.add_zero d.nextObject, ← List.map_snd_add_zipIdx_eq_zipIdx]
    exact List.map_congr_left fun p _ => Prod.ext rfl (Nat.add_comm p.2 d.nextObject)
  have hafter : d.createNodes.objects = ((d.state.windows.zipIdx d.nextObject).map fun p =>
      (p.1.takeNode p.2 (d.state.windowIsVisible p.1)).1.entry.objects).sum + d.otherObjects := by
    rw [objects_eq, hnumbers, List.map_map, createNodes]
    simp only [List.map_map]
    rfl
  have hdeeds : deeds ((d.state.windows.zipIdx.map fun p => p.1.takeNode (d.nextObject + p.2)
      (d.state.windowIsVisible p.1)).flatMap (·.2)) =
        (d.state.windows.zipIdx d.nextObject).flatMap fun p =>
          deeds (p.1.takeNode p.2 (d.state.windowIsVisible p.1)).2 := by
    rw [deeds_flatMap, List.flatMap_map, hnumbers, List.flatMap_map]
  rw [hdeeds, objects_eq d, hafter]
  exact (Triple.zipIdx (n := d.nextObject) (l := d.state.windows)
    fun w _ k => triple_takeNode base k (d.state.windowIsVisible w) w).frame d.otherObjects

/-- What drawing a window uses. -/
theorem uses_draw {config : Config} {focused : Option ℕ} {place : Placement} {w : Window} :
    ∀ r ∈ (w.draw config focused place).2, r.Uses w.entry.objects := by
  have hproxy : w.proxy ∈ w.entry.objects := Multiset.mem_cons_self _ _
  intro r hr
  unfold Window.draw at hr
  by_cases hp : place = .hidden
  · rw [if_pos hp, List.mem_singleton] at hr
    exact hr ▸ uses_of_mem rfl hproxy
  rw [if_neg hp, List.mem_append, List.mem_append, List.mem_singleton] at hr
  rcases hr with (hr | hr) | rfl
  · unfold Window.raiseRequests at hr
    cases hnode : w.node with
    | none => simp [hnode] at hr
    | some node =>
      have hmem : node ∈ w.entry.objects := by simp [WindowEntry.objects, Window.entry, hnode]
      simp only [hnode, Option.map_some, Option.getD_some, List.mem_cons, List.not_mem_nil,
        or_false] at hr
      rcases hr with rfl | rfl <;> exact uses_of_mem rfl hmem
  · split_ifs at hr
    · rw [List.mem_singleton.mp hr]
      exact uses_of_mem rfl hproxy
    · cases hr
  · exact uses_of_mem rfl hproxy

/-- The nodes are settled before anything is drawn. -/
theorem triple_beginRender (d : AppData) : ∃ rs, d.beginRender.sent = d.sent ++ rs ∧
    Triple base d.nextObject d.objects (deeds rs) d.beginRender.nextObject
      d.beginRender.objects := by
  obtain ⟨rs₁, hrs₁, h₁⟩ := triple_releaseHiddenNodes base d
  obtain ⟨rs₂, hrs₂, h₂⟩ := triple_createNodes base d.releaseHiddenNodes
  obtain ⟨rs₃, hrs₃, h₃⟩ :=
    triple_releaseHiddenNodes base d.releaseHiddenNodes.createNodes
  refine ⟨rs₁ ++ (rs₂ ++ rs₃), by
    rw [beginRender, hrs₃, hrs₂, hrs₁, List.append_assoc, List.append_assoc], ?_⟩
  rw [deeds_append, deeds_append]
  exact h₁.seq (h₂.seq h₃)

/-- A render sequence destroys nodes, creates nodes and uses what it then holds. -/
theorem triple_onRenderStart (hids : (d.state.windows.map (·.id)).Nodup) {hasClients : Bool}
    (h : d.onRenderStart hasClients = some d') : ∃ rs, d'.sent = d.sent ++ rs ∧
      Triple base d.nextObject d.objects (deeds rs) d'.nextObject d'.objects := by
  obtain ⟨focused, gs, published, -, -, rfl⟩ := onRenderStart_eq hids h
  obtain ⟨rs, hrs, hnodes⟩ := triple_beginRender base d
  refine ⟨rs ++ _, by rw [hrs, List.append_assoc], ?_⟩
  rw [deeds_append]
  refine hnodes.seq ?_
  have hdrawn : (d.beginRender.state.windows.map fun w =>
      (w.draw d.config focused (d.state.placement gs w)).1).map (·.entry.objects) =
        d.beginRender.state.windows.map (·.entry.objects) := by
    rw [List.map_map]
    refine List.map_congr_left fun w _ => ?_
    rw [Function.comp_apply, Window.draw]
    split_ifs <;> rfl
  have hafter (sent : List Request) : ({ d.beginRender with
      state := { d.state with
        windows := d.beginRender.state.windows.map fun w =>
          (w.draw d.config focused (d.state.placement gs w)).1 }
      published
      sent } : AppData).objects = d.beginRender.objects := by
    rw [objects_eq, objects_eq d.beginRender]
    exact congrArg (fun os : List (Multiset ObjectId) => os.sum + d.otherObjects) hdrawn
  rw [hafter]
  refine triple_uses fun r hr => ?_
  rcases List.mem_append.mp hr with hr | hr
  · obtain ⟨w, hw, hr⟩ := List.mem_flatMap.mp hr
    have hmem := (State.perm_blocks (s := d.beginRender.state) (d.state.placement gs)).mem_iff.mp hw
    intro e he
    obtain ⟨x, hx, heq⟩ := uses_draw r hr e he
    refine ⟨x, ?_, heq⟩
    rw [objects_eq]
    exact Multiset.mem_add.mpr (Or.inl (mem_sum_map.mpr ⟨w, hmem, hx⟩))
  · rw [List.mem_singleton.mp hr]
    exact fun e he => by cases he

end AppData

end Streamwm
