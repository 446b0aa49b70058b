import Streamwm.Subscribe

/-!
# The order of delivery

`trail` is what the client was sent, what it holds and what waits for it. An access of the
client's thread only ever cuts it (`ClientStep.trail_prefix`). The window manager's thread puts a
snapshot at its end that is newer than all it has built before; `edge` is the moment after
all those. `Ordered` is the invariant, and `written_sorted` what it says about the client.
-/

namespace Streamwm

open Transition Mailbox

variable {σ α : Type*}

namespace WmPc

/-- The snapshot that is built and not yet delivered. -/
def held : WmPc α → Option (Snap α)
  | .built snap | .storing snap | .replying snap => some snap
  | _ => none

end WmPc

namespace ClientPc

/-- The snapshot that is not yet written. -/
def held : ClientPc α → List (Snap α)
  | .initial snap | .draining snap | .greeting snap | .writing snap => [snap]
  | _ => []

/-- The thread streams, or will. -/
def live : ClientPc α → Bool
  | .leaving | .gone => false
  | _ => true

end ClientPc

namespace Feed

variable {build : σ → Option α} {f f' : Feed σ α} {snap : Snap α}

/-- What the client was sent and what it holds. -/
def passed (f : Feed σ α) : List (Snap α) :=
  f.written ++ f.client.held

/-- What waits for the client : the reply, and once that is there and the slot cleared, the
slot. -/
def pending (f : Feed σ α) : Option (Snap α) :=
  match f.client with
  | .start | .registered | .requested | .poked => f.reply
  | .draining _ | .greeting _ | .waiting | .woken | .writing _ => f.box.latest
  | _ => none

/-- What the client was sent, what it holds and what waits for it. -/
def trail (f : Feed σ α) : List (Snap α) :=
  Mailbox.trail f.passed f.pending

/-- All that was delivered was built before. -/
def edge (f : Feed σ α) : ℕ :=
  (f.wm.held.map (·.stamp)).getD f.clock

variable {access : ClientAccess} {wmAccess : WmAccess σ}

/-! ## The client's thread -/

theorem ClientStep.wm (h : f.ClientStep access f') :
    f'.wm = f.wm ∧ f'.clock = f.clock ∧ f'.published = f.published := by
  cases h <;> exact ⟨rfl, rfl, rfl⟩

/-- The client's thread leaves the trail as it is, up to the point where it gives up. -/
theorem ClientStep.trail (h : f.ClientStep access f') :
    f.client.live = true ∧ f'.trail = f.trail ∨ f'.client.live = false ∧ f'.trail <+: f.trail := by
  have hleave : ∀ client : ClientPc α, client.held = [] → client.live = false →
      ({ f with client } : Feed σ α).trail <+: f.trail := fun client hheld hlive => by
    have hpend : ({ f with client } : Feed σ α).pending = none := by
      cases client <;> first | rfl | simp [ClientPc.live] at hlive
    rw [Feed.trail, hpend, trail_none, passed, hheld, List.append_nil]
    exact (List.prefix_append _ _).trans (prefix_trail _)
  cases h with
  | timeout => exact Or.inr ⟨rfl, hleave _ rfl rfl⟩
  | fail => exact Or.inr ⟨rfl, hleave _ rfl rfl⟩
  | unregister => exact Or.inr ⟨rfl, hleave _ rfl rfl⟩
  | _ =>
    refine Or.inl ⟨?_, ?_⟩
    · simp_all [ClientPc.live]
    · simp_all [Feed.trail, passed, pending, ClientPc.held, Mailbox.trail]

theorem ClientStep.trail_prefix (h : f.ClientStep access f') : f'.trail <+: f.trail := by
  rcases h.trail with ⟨-, heq⟩ | ⟨-, hcut⟩
  · exact heq ▸ List.prefix_refl _
  · exact hcut

theorem edge_eq (hheld : f.wm.held = some snap) : f.edge = snap.stamp := by
  rw [edge, hheld]
  rfl

theorem edge_eq_clock (hheld : f.wm.held = none) : f.edge = f.clock := by
  rw [edge, hheld]
  rfl

/-! ## The window manager's thread -/

/-- What the window manager's thread does to the trail : nothing, or it puts the snapshot
it has built at the end of what the client has passed. -/
theorem WmStep.trail (h : f.WmStep build wmAccess f') : f'.passed = f.passed ∧
    (f'.pending = f.pending ∨
      ∃ snap, f.wm.held = some snap ∧ f'.wm.held = none ∧ f'.pending = some snap) := by
  cases h with
  | @store snap hwm =>
    refine ⟨rfl, ?_⟩
    unfold pending Feed.store
    dsimp only
    -- Only a client that has cleared its slot looks at the slot.
    split <;> first
      | exact Or.inl rfl
      | exact Or.inr ⟨snap, by rw [hwm]; rfl, rfl, rfl⟩
  | @reply snap hwm hask =>
    refine ⟨rfl, Or.inr ⟨snap, by rw [hwm]; rfl, rfl, ?_⟩⟩
    cases hc : f.client with
    | requested => simp [pending]
    | poked => simp [pending]
    | _ => simp [hc, ClientPc.asking] at hask
  | _ => exact ⟨rfl, Or.inl rfl⟩

/-- The edge never moves back, and moves on when a snapshot is handed over. -/
theorem WmStep.edge (h : f.WmStep build wmAccess f')
    (hheld : ∀ snap ∈ f.wm.held, snap.stamp < f.clock) :
    f.edge ≤ f'.edge ∧ f.clock ≤ f'.clock ∧ ∀ snap ∈ f'.wm.held, snap.stamp < f'.clock := by
  cases h <;> simp_all [Feed.edge, WmPc.held, Feed.store]
  all_goals omega

/-! ## The order -/

/-- What the client has got, and what waits for it, is in the order it was built. -/
structure Ordered (f : Feed σ α) : Prop where
  sorted : f.trail.Pairwise fun s t => s.stamp < t.stamp
  lt_edge : ∀ snap ∈ f.trail, snap.stamp < f.edge
  held_lt : ∀ snap ∈ f.wm.held, snap.stamp < f.clock

theorem ordered_new (s : σ) : (new s : Feed σ α).Ordered where
  sorted := List.Pairwise.nil
  lt_edge := by simp [trail, passed, pending, new, ClientPc.held]
  held_lt := by simp [new, WmPc.held]

theorem Ordered.clientStep (hf : f.Ordered) (h : f.ClientStep access f') : f'.Ordered := by
  obtain ⟨hwm, hclock, -⟩ := h.wm
  have hsub := h.trail_prefix
  have hedge : f'.edge = f.edge := by rw [edge, edge, hwm, hclock]
  exact ⟨hf.sorted.sublist hsub.sublist,
    fun snap hsnap => hedge ▸ hf.lt_edge snap (hsub.subset hsnap), hwm ▸ hclock ▸ hf.held_lt⟩

theorem Ordered.wmStep (hf : f.Ordered) (h : f.WmStep build wmAccess f') : f'.Ordered := by
  obtain ⟨hedge, hclock, hheld'⟩ := h.edge hf.held_lt
  obtain ⟨hpassed, hpend | ⟨snap, hheld, hnone, hpend⟩⟩ := h.trail
  · have htrail : f'.trail = f.trail := by rw [trail, trail, hpassed, hpend]
    exact ⟨htrail ▸ hf.sorted, fun t ht => (hf.lt_edge t (htrail ▸ ht)).trans_le hedge, hheld'⟩
  · have hpre : f.passed <+: f.trail := prefix_trail _
    have hlt : ∀ t ∈ f.passed, t.stamp < snap.stamp := fun t ht =>
      edge_eq hheld ▸ hf.lt_edge t (hpre.subset ht)
    have hsnap : snap.stamp < f'.edge := by
      rw [edge_eq_clock hnone]
      exact (hf.held_lt snap hheld).trans_le hclock
    refine ⟨?_, fun t ht => ?_, hheld'⟩
    · rw [trail, hpassed, hpend]
      exact pairwise_trail_some (hf.sorted.sublist hpre.sublist) hlt
    · rw [trail, hpassed, hpend, trail_some, List.mem_append, List.mem_singleton] at ht
      rcases ht with ht | rfl
      · exact (hlt t ht).trans hsnap
      · exact hsnap

theorem Ordered.step {access : Access σ} (hf : f.Ordered) (h : f.Step build access f') :
    f'.Ordered := by
  cases access with
  | wm access => exact hf.wmStep (wmStep_of_next h)
  | client access => exact hf.clientStep (clientStep_of_next h)

theorem ordered_of_reachable {s : σ} (h : Reachable (Step build) (new s) f) : f.Ordered :=
  h.invariant (fun _ _ _ hf hstep => hf.step hstep) (ordered_new s)

/-- Whatever the two threads do, the client is sent snapshots in the order in which they
were built, and none twice. -/
theorem written_sorted {s : σ} (h : Reachable (Step build) (new s) f) :
    f.written.Pairwise fun s t => s.stamp < t.stamp :=
  (ordered_of_reachable h).sorted.sublist
    ((List.prefix_append _ _).trans (prefix_trail _)).sublist

/-- The initial snapshot and a change. -/
theorem written_sorted_two : ∃ f : Feed State StatusSnapshot,
    Reachable (Step State.buildSnapshot) (new (State.new 0)) f ∧ f.written.length = 2 ∧
      f.written.Pairwise fun s t => s.stamp < t.stamp := by
  have hreach : ∃ f : Feed State StatusSnapshot,
      Reachable (Step State.buildSnapshot) (new (State.new 0)) f ∧ f.written.length = 2 :=
    ⟨_, reachable_of_foldlM [.client .register, .client .request, .client .poke, .wm .takeRequest,
      .wm .build, .wm .reply, .client .receive, .client .clear, .client .drain, .client .write,
      .wm (.change { State.new 0 with resizeMode := true }), .wm (.check false), .wm .build,
        .wm .lock,
      .wm .store, .wm .prod, .client .recv, .client .take, .client .write] rfl, rfl⟩
  obtain ⟨f, hf, hlen⟩ := hreach
  exact ⟨f, hf, hlen, written_sorted hf⟩

end Feed

end Streamwm
