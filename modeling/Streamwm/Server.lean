import Mathlib.Data.Finset.Card
import Mathlib.Data.Finset.Dedup
import Streamwm.Feeds

/-!
# The socket server

`start_on` of `src/status.rs` : one thread accepts clients and counts them in `ACTIVE_CLIENTS`; a
client that makes too many is refused, every other one gets a thread, whose guard counts it off
when `handle_client` has returned. Adding to the counter, taking it back and the guard's
subtraction are accesses of their own, on a counter that wraps around.

The counter counts the threads and the client being decided on (`Door.Counts`), so there are never
more than `maxStatusClients` threads, and a client is refused only when there are that many. A
`Server` is the door and the hub; since only a thread can be registered, publishing takes a bounded
number of accesses (`clients_bounded`).
-/

namespace Streamwm

open Transition

variable {ι σ α : Type*}

/-- `MAX_STATUS_CLIENTS`. -/
def maxStatusClients : ℕ := 16

/-- `fetch_add(1)` on an `AtomicUsize`. -/
def fetchAdd (n : ℕ) : ℕ := if n = 2 ^ 64 - 1 then 0 else n + 1

/-- `fetch_sub(1)` on an `AtomicUsize`. -/
def fetchSub (n : ℕ) : ℕ := if n = 0 then 2 ^ 64 - 1 else n - 1

/-- Where the thread that accepts clients is. -/
inductive ListenerPc (ι : Type*)
  | accepting
  /-- The client is counted, and its thread about to be spawned. -/
  | admitting (i : ι)
  /-- The client is counted, and about to be taken back. -/
  | refusing (i : ι)

/-- The client the listener has counted and not decided on. -/
def ListenerPc.deciding : ListenerPc ι → Finset ι
  | .accepting => ∅
  | .admitting i | .refusing i => {i}

/-- The accesses to the counter, and what comes between them. -/
inductive DoorAccess (ι : Type*)
  | accept (i : ι)
  | spawn
  | refuse
  /-- `handle_client` returns. -/
  | done (i : ι)
  /-- The guard of a thread is dropped. -/
  | drop (i : ι)

/-- The counter and the threads. -/
structure Door (ι : Type*) where
  /-- `ACTIVE_CLIENTS`. -/
  active : ℕ
  listener : ListenerPc ι
  /-- The threads in `handle_client`. -/
  serving : Finset ι
  /-- The threads whose guard is still to be dropped. -/
  leaving : Finset ι
  /-- The clients that have been accepted. -/
  seen : Finset ι

namespace Door

def new : Door ι :=
  { active := 0, listener := .accepting, serving := ∅, leaving := ∅, seen := ∅ }

variable [DecidableEq ι] (v : Door ι)

/-- One access. -/
def next (access : DoorAccess ι) : Option (Door ι) :=
  match access, v.listener with
  | .accept i, .accepting =>
    if i ∈ v.seen then none
    else some { v with
      active := fetchAdd v.active, seen := insert i v.seen
      listener := if v.active ≥ maxStatusClients then .refusing i else .admitting i }
  | .spawn, .admitting i => some { v with serving := insert i v.serving, listener := .accepting }
  | .refuse, .refusing _ => some { v with active := fetchSub v.active, listener := .accepting }
  | .done i, _ =>
    if i ∈ v.serving then
      some { v with serving := v.serving.erase i, leaving := insert i v.leaving }
    else none
  | .drop i, _ =>
    if i ∈ v.leaving then
      some { v with active := fetchSub v.active, leaving := v.leaving.erase i }
    else none
  | _, _ => none

/-- One access as a relation. -/
def Step (v : Door ι) (access : DoorAccess ι) (v' : Door ι) : Prop :=
  v.next access = some v'

/-- The threads. -/
def threads : Finset ι :=
  v.serving ∪ v.leaving

/-- The counter counts the threads and the client being decided on; a client is let in only while
there are fewer than `maxStatusClients` threads. -/
structure Counts (v : Door ι) : Prop where
  active : v.active = v.threads.card + v.listener.deciding.card
  disjoint : Disjoint v.serving v.leaving
  seen : v.threads ⊆ v.seen
  undecided : ∀ i ∈ v.listener.deciding, i ∈ v.seen ∧ i ∉ v.threads
  bounded : v.threads.card ≤ maxStatusClients
  room : ∀ i, v.listener = .admitting i → v.threads.card < maxStatusClients

theorem counts_new : (new : Door ι).Counts where
  active := rfl
  disjoint := Finset.disjoint_empty_left _
  seen := Finset.empty_subset _
  undecided _ hi := absurd hi (Finset.notMem_empty _)
  bounded := Nat.zero_le _
  room _ h := by cases h

variable {v} {v' : Door ι}

theorem fetchAdd_of_le {n : ℕ} (hn : n ≤ 17) : fetchAdd n = n + 1 := by
  rw [fetchAdd, if_neg (by omega)]

theorem fetchSub_succ (n : ℕ) : fetchSub (n + 1) = n := by
  rw [fetchSub, if_neg (Nat.succ_ne_zero n), Nat.add_sub_cancel]

/-- The thread of an admitted client is spawned. -/
theorem Counts.spawn (hv : v.Counts) {i : ι} (hi : v.listener = .admitting i) :
    ({ v with serving := insert i v.serving, listener := .accepting } : Door ι).Counts := by
  obtain ⟨hseen, hnew⟩ := hv.undecided i (by rw [hi]; exact Finset.mem_singleton_self i)
  have hthreads : insert i v.serving ∪ v.leaving = insert i v.threads := Finset.insert_union ..
  have hcard : (insert i v.serving ∪ v.leaving).card = v.threads.card + 1 := by
    rw [hthreads, Finset.card_insert_of_notMem hnew]
  refine ⟨?_, ?_, ?_, fun j hj => absurd hj (Finset.notMem_empty j), ?_, fun j hj => by cases hj⟩
  · change v.active = (insert i v.serving ∪ v.leaving).card + 0
    rw [hcard, hv.active, hi]
    rfl
  · refine Finset.disjoint_insert_left.mpr ⟨fun hmem => hnew ?_, hv.disjoint⟩
    exact Finset.mem_union_right _ hmem
  · change insert i v.serving ∪ v.leaving ⊆ v.seen
    rw [hthreads]
    exact Finset.insert_subset hseen hv.seen
  · change (insert i v.serving ∪ v.leaving).card ≤ maxStatusClients
    rw [hcard]
    exact hv.room i hi

/-- A client is counted, and let in if there is room. -/
theorem Counts.accept (hv : v.Counts) {i : ι} (hlistener : v.listener = .accepting)
    (hi : i ∉ v.seen) : ({ v with
      active := fetchAdd v.active, seen := insert i v.seen
      listener := if v.active ≥ maxStatusClients then .refusing i else .admitting i } :
        Door ι).Counts := by
  have hactive : v.active = v.threads.card := by
    rw [hv.active, hlistener]
    rfl
  have hbound : v.active ≤ 17 := hactive.trans_le (hv.bounded.trans (by decide))
  have hdecide : (if v.active ≥ maxStatusClients then .refusing i else .admitting i :
      ListenerPc ι).deciding = {i} := by
    split_ifs <;> rfl
  refine ⟨?_, hv.disjoint, hv.seen.trans (Finset.subset_insert _ _), fun j hj => ?_, hv.bounded,
    fun j hj => ?_⟩
  · change fetchAdd v.active = v.threads.card + (ListenerPc.deciding _).card
    rw [fetchAdd_of_le hbound, hdecide, Finset.card_singleton, hactive]
  · rw [hdecide, Finset.mem_singleton] at hj
    subst hj
    exact ⟨Finset.mem_insert_self j _, fun hmem => hi (hv.seen hmem)⟩
  · dsimp only at hj
    split_ifs at hj with hfull
    change v.threads.card < maxStatusClients
    omega

/-- The client that is too many is taken back. -/
theorem Counts.refuse (hv : v.Counts) {i : ι} (hi : v.listener = .refusing i) :
    ({ v with active := fetchSub v.active, listener := .accepting } : Door ι).Counts := by
  refine ⟨?_, hv.disjoint, hv.seen, fun j hj => absurd hj (Finset.notMem_empty j), hv.bounded,
    fun j hj => by cases hj⟩
  change fetchSub v.active = v.threads.card + 0
  have hactive : v.active = v.threads.card + 1 := by
    rw [hv.active, hi]
    rfl
  rw [hactive, fetchSub_succ]
  rfl

theorem Counts.done (hv : v.Counts) {i : ι} (hi : i ∈ v.serving) :
    ({ v with serving := v.serving.erase i, leaving := insert i v.leaving } : Door ι).Counts := by
  have hthreads : v.serving.erase i ∪ insert i v.leaving = v.threads := by
    rw [Finset.union_insert, ← Finset.insert_union, Finset.insert_erase hi]
    rfl
  refine ⟨?_, ?_, ?_, fun j hj => ?_, ?_, fun j hj => ?_⟩
  · change v.active = (v.serving.erase i ∪ insert i v.leaving).card + _
    rw [hthreads]
    exact hv.active
  · refine Finset.disjoint_insert_right.mpr ⟨Finset.notMem_erase i _, ?_⟩
    exact hv.disjoint.mono_left (Finset.erase_subset i _)
  · change v.serving.erase i ∪ insert i v.leaving ⊆ v.seen
    rw [hthreads]
    exact hv.seen
  · change j ∈ v.seen ∧ j ∉ v.serving.erase i ∪ insert i v.leaving
    rw [hthreads]
    exact hv.undecided j hj
  · change (v.serving.erase i ∪ insert i v.leaving).card ≤ maxStatusClients
    rw [hthreads]
    exact hv.bounded
  · change (v.serving.erase i ∪ insert i v.leaving).card < maxStatusClients
    rw [hthreads]
    exact hv.room j hj

/-- The guard of a thread counts it off. -/
theorem Counts.drop (hv : v.Counts) {i : ι} (hi : i ∈ v.leaving) :
    ({ v with active := fetchSub v.active, leaving := v.leaving.erase i } : Door ι).Counts := by
  have hnot : i ∉ v.serving := fun hmem => Finset.disjoint_left.mp hv.disjoint hmem hi
  have hthreads : v.serving ∪ v.leaving.erase i = v.threads.erase i := by
    rw [threads, Finset.erase_union_distrib, Finset.erase_eq_of_notMem hnot]
  have hmem : i ∈ v.threads := Finset.mem_union_right _ hi
  have hcard : (v.serving ∪ v.leaving.erase i).card + 1 = v.threads.card := by
    rw [hthreads, Finset.card_erase_add_one hmem]
  have hbounded := hv.bounded
  have hsub : v.serving ∪ v.leaving.erase i ⊆ v.threads := hthreads ▸ Finset.erase_subset i _
  refine ⟨?_, ?_, hsub.trans hv.seen, fun j hj => ⟨(hv.undecided j hj).1, fun h =>
    (hv.undecided j hj).2 (hsub h)⟩, ?_, fun j hj => ?_⟩
  · change fetchSub v.active = (v.serving ∪ v.leaving.erase i).card + v.listener.deciding.card
    have hactive : v.active = (v.serving ∪ v.leaving.erase i).card +
        v.listener.deciding.card + 1 := by
      rw [hv.active]
      omega
    rw [hactive, fetchSub_succ]
  · exact hv.disjoint.mono_right (Finset.erase_subset i _)
  · change (v.serving ∪ v.leaving.erase i).card ≤ maxStatusClients
    omega
  · have hroom := hv.room j hj
    change (v.serving ∪ v.leaving.erase i).card < maxStatusClients
    omega

theorem Counts.step (hv : v.Counts) {access : DoorAccess ι} (hstep : v.Step access v') :
    v'.Counts := by
  unfold Step next at hstep
  split at hstep
  · next i hlistener =>
    by_cases hi : i ∈ v.seen
    · rw [if_pos hi] at hstep
      cases hstep
    · rw [if_neg hi] at hstep
      exact Option.some.inj hstep ▸ hv.accept hlistener hi
  · exact Option.some.inj hstep ▸ hv.spawn ‹_›
  · exact Option.some.inj hstep ▸ hv.refuse ‹_›
  · split_ifs at hstep with hi
    exact Option.some.inj hstep ▸ hv.done hi
  · split_ifs at hstep with hi
    exact Option.some.inj hstep ▸ hv.drop hi
  · cases hstep

end Door

/-! ## The server -/

/-- The door, and the subscribers behind it. -/
structure Server (ι σ α : Type*) where
  door : Door ι
  hub : Hub ι σ α

/-- The accesses of all threads. -/
inductive ServerAccess (ι σ : Type*)
  | door (access : DoorAccess ι)
  | hub (access : HubAccess ι σ)

namespace Server

variable [DecidableEq ι] {build : σ → Option α}

def new (state : σ) : Server ι σ α :=
  { door := Door.new, hub := Hub.new state }

/-- The thread that makes the access to the hub is there. -/
def allows (v : Server ι σ α) : HubAccess ι σ → Bool
  | .client i _ => decide (i ∈ v.door.serving)
  | .ask => decide v.door.serving.Nonempty
  | _ => true

/-- `handle_client` may return : the thread does not stream, or not any more. -/
def returns (v : Server ι σ α) : DoorAccess ι → Bool
  | .done i => !(v.hub.lines i).client.enrolled
  | _ => true

/-- One access. -/
def next (build : σ → Option α) (v : Server ι σ α) : ServerAccess ι σ → Option (Server ι σ α)
  | .door access =>
    if v.returns access then (v.door.next access).map fun door => { v with door } else none
  | .hub access =>
    if v.allows access then (v.hub.next build access).map fun hub => { v with hub } else none

/-- One access as a relation. -/
def Step (build : σ → Option α) (v : Server ι σ α) (access : ServerAccess ι σ) (v' : Server ι σ α) :
    Prop :=
  v.next build access = some v'

/-- What every reached server keeps. -/
structure Invariant (v : Server ι σ α) : Prop where
  counts : v.door.Counts
  sound : v.hub.Sound
  /-- Who is registered has a thread. -/
  enrolled : ∀ i, (v.hub.lines i).client.enrolled = true → i ∈ v.door.serving

variable {v v' : Server ι σ α}

theorem mem_serving_of_step {d d' : Door ι} {access : DoorAccess ι} (hstep : d.Step access d')
    {i : ι} (hi : i ∈ d.serving) (hdone : access ≠ .done i) : i ∈ d'.serving := by
  unfold Door.Step Door.next at hstep
  split at hstep
  · split_ifs at hstep
    all_goals exact Option.some.inj hstep ▸ hi
  · exact Option.some.inj hstep ▸ Finset.mem_insert_of_mem hi
  · exact Option.some.inj hstep ▸ hi
  · next _ _ j =>
    split_ifs at hstep
    have hij : i ≠ j := fun heq => hdone (heq ▸ rfl)
    exact Option.some.inj hstep ▸ Finset.mem_erase.mpr ⟨hij, hi⟩
  · split_ifs at hstep
    exact Option.some.inj hstep ▸ hi
  · cases hstep

theorem Invariant.step (hv : v.Invariant) {access : ServerAccess ι σ}
    (hstep : v.Step build access v') : v'.Invariant := by
  unfold Step next at hstep
  cases access with
  | door access =>
    dsimp only at hstep
    split_ifs at hstep with hreturns
    obtain ⟨door, hdoor, rfl⟩ := Option.map_eq_some_iff.mp hstep
    refine ⟨hv.counts.step hdoor, hv.sound, fun i hi => ?_⟩
    refine mem_serving_of_step hdoor (hv.enrolled i hi) ?_
    rintro rfl
    rw [returns, show (v.hub.lines i).client.enrolled = true from hi] at hreturns
    cases hreturns
  | hub access =>
    dsimp only at hstep
    split_ifs at hstep with hallows
    obtain ⟨hub, hhub, rfl⟩ := Option.map_eq_some_iff.mp hstep
    refine ⟨hv.counts, hv.sound.step hhub, fun i hi => ?_⟩
    by_cases hown : ∃ a, access = .client i a
    · obtain ⟨a, rfl⟩ := hown
      exact of_decide_eq_true hallows
    · have hsame := Hub.client_of_moves (Hub.moves_of_next hhub) fun a ha => hown ⟨a, ha⟩
      exact hv.enrolled i (hsame ▸ hi)

theorem invariant_new (s : σ) : (new s : Server ι σ α).Invariant where
  counts := Door.counts_new
  sound := Hub.sound_new s
  enrolled _ hi := by cases hi

/-- However many clients connect, `ACTIVE_CLIENTS` is the number of their threads and of the client
being decided on, there are never more than `maxStatusClients` threads, so never more entries to
publish to, and a client is refused only when there are that many. -/
theorem clients_bounded {s : σ} (hreach : Reachable (Step build) (new s) v) :
    v.door.active = v.door.threads.card + v.door.listener.deciding.card ∧
      v.door.threads.card ≤ maxStatusClients ∧ v.hub.registry.length ≤ v.door.threads.card ∧
      ∀ i v', v.Step build (.door (.accept i)) v' →
        (v'.door.listener = .refusing i ↔ v.door.threads.card = maxStatusClients) := by
  have hv : v.Invariant := hreach.invariant (fun _ _ _ hv hstep => hv.step hstep) (invariant_new s)
  refine ⟨hv.counts.active, hv.counts.bounded, ?_, fun i v' hstep => ?_⟩
  · have hnodup : (v.hub.registry.map (·.2)).Nodup :=
      List.Nodup.map_on (fun e he e' he' => hv.sound.eq_of_owner he he') hv.sound.ids.of_map
    rw [← List.length_map (·.2), ← List.toFinset_card_of_nodup hnodup]
    refine Finset.card_le_card fun i hi => Finset.mem_union_left _ (hv.enrolled i ?_)
    obtain ⟨e, he, heq⟩ := List.mem_map.mp (List.mem_toFinset.mp hi)
    rw [← hv.sound.listed, Hub.listed_iff]
    exact ⟨e, he, heq⟩
  · unfold Step next at hstep
    dsimp only at hstep
    rw [if_pos (by rfl)] at hstep
    obtain ⟨door, hdoor, rfl⟩ := Option.map_eq_some_iff.mp hstep
    have hbounded := hv.counts.bounded
    have hactive := hv.counts.active
    unfold Door.next at hdoor
    cases hlistener : v.door.listener with
    | accepting =>
      rw [hlistener] at hdoor hactive
      dsimp only at hdoor
      by_cases hi : i ∈ v.door.seen
      · rw [if_pos hi] at hdoor
        cases hdoor
      · rw [if_neg hi] at hdoor
        obtain rfl := Option.some.inj hdoor
        have hcard : v.door.active = v.door.threads.card := hactive
        change (if v.door.active ≥ maxStatusClients then ListenerPc.refusing i else .admitting i) =
          .refusing i ↔ _
        rw [hcard]
        split_ifs with hfull
        · exact iff_of_true rfl (le_antisymm hbounded hfull)
        · exact iff_of_false (by simp) fun heq => hfull heq.ge
    | admitting j => simp [hlistener] at hdoor
    | refusing j => simp [hlistener] at hdoor

/-- Sixteen clients are let in, one of them subscribes; the seventeenth is refused. -/
theorem clients_bounded_full : ∃ v v' : Server ℕ State StatusSnapshot,
    v.Step State.buildSnapshot (.door (.accept 16)) v' ∧ v'.door.listener = .refusing 16 ∧
      v.door.threads.card = maxStatusClients ∧ v.hub.registry.length ≤ v.door.threads.card := by
  have hreach : ∃ v v' : Server ℕ State StatusSnapshot,
      Reachable (Step State.buildSnapshot) (new (State.new 0)) v ∧
        v.Step State.buildSnapshot (.door (.accept 16)) v' ∧ v'.door.listener = .refusing 16 :=
    ⟨_, _, reachable_of_foldlM (((List.range 16).flatMap fun i =>
      [.door (.accept i), .door .spawn]) ++ [.hub (.client 0 .register)]) (by rfl), by rfl, by rfl⟩
  obtain ⟨v, v', hv, hstep, hrefused⟩ := hreach
  obtain ⟨_, _, hregistered, hfull⟩ := clients_bounded hv
  exact ⟨v, v', hstep, hrefused, (hfull 16 v' hstep).mp hrefused, hregistered⟩

end Server

end Streamwm
