import Mathlib.Data.List.Nodup
import Mathlib.Logic.Function.Basic
import Streamwm.EventLoop
import Streamwm.Library.Channel
import Streamwm.Library.Transition

/-!
# The main loop and the socket clients

`run` of `src/connection.rs` and any number of socket client threads (`handle_client` and
`request_snapshot` of `src/status.rs`), interleaved access by access. A client sends one
command or one status request and then writes to the eventfd; these are two steps. The
main loop receives one message at a time from each channel, at the top of the loop and
after it was woken; it blocks in `poll`, which returns when the Wayland connection or the
eventfd is readable; it reads the eventfd until that is zero.

`MainLoop.Awake` is the invariant against a lost wake-up : a message whose client has
written to the eventfd waits only while the eventfd is not zero, or while the loop is
between its reset and the drain after it. `MainLoop.no_lost_wakeup` says what that means
for a loop blocked in `poll`.
-/

set_option linter.unusedSectionVars false

namespace Streamwm

open Transition

/-- How far a client thread is. -/
inductive ClientPhase
  | idle
  /-- Its message is sent, the eventfd not yet written. -/
  | sent
  | woke
  deriving DecidableEq

/-- The statement the main loop executes next. -/
inductive LoopPc
  /-- `dispatch_pending`, at the top of the loop. -/
  | dispatch
  /-- `service_control_commands` at the top. -/
  | commands
  /-- `service_status_requests` at the top. -/
  | statuses
  /-- `flush_pending`, the test for `quit`, `conn.flush` and `prepare_read`. -/
  | flush
  | poll
  /-- `read_guard.read`, with what `poll` found. -/
  | read (wakeReady : Bool)
  /-- `while wake.read().is_ok() {}` -/
  | reset
  /-- `service_control_commands` after a wake-up. -/
  | wakeCommands
  /-- `service_status_requests` after a wake-up. -/
  | wakeStatuses
  | exited
  deriving DecidableEq

/-- The largest value an eventfd holds. -/
def eventFdMax : ℕ := 2 ^ 64 - 2

/-- `wake.write(1)` : the eventfd is non-blocking, and a write that would overflow fails. -/
def eventFdWrite (wake : ℕ) : ℕ := if wake + 1 ≤ eventFdMax then wake + 1 else wake

/-- The main loop, the clients and what they share. -/
structure MainLoop (ι : Type*) where
  data : AppData
  pc : LoopPc
  clients : ι → ClientPhase
  commands : Channel (ι × Command)
  statusRequests : Channel ι
  /-- The counter of the eventfd. -/
  wake : ℕ

/-- The accesses of the threads. -/
inductive LoopAccess (ι : Type*)
  -- a client
  | sendCommand (client : ι) (cmd : Command)
  | sendRequest (client : ι)
  | write (client : ι)
  -- the main loop
  | dispatch (event : Event)
  | receive
  | flush (prepared : Bool)
  | poll (waylandReady : Bool)
  | readWake
  /-- To the next statement. -/
  | next
  /-- One of the calls on the connection fails, and `run` returns. -/
  | fail

/-- An access of the main loop that nothing from outside takes part in. -/
def LoopAccess.quiet {ι : Type*} : LoopAccess ι → Bool
  | .receive | .readWake | .next => true
  | .flush prepared => prepared
  | .poll waylandReady => !waylandReady
  | _ => false

/-- River sends this event. -/
def Event.fromRiver : Event → Bool
  | .command _ | .statusRequest | .flushPending => false
  | _ => true

/-- The calls of `run` that return an error on the connection. -/
def LoopPc.fallible : LoopPc → Bool
  | .dispatch | .flush | .poll | .read _ => true
  | _ => false

/-- The loop is between its reset and the end of the drain of commands after it. -/
def LoopPc.drainsCommands : LoopPc → Bool
  | .reset | .wakeCommands => true
  | _ => false

/-- The loop is between its reset and the end of the drain of status requests after it. -/
def LoopPc.drainsStatuses : LoopPc → Bool
  | .reset | .wakeCommands | .wakeStatuses => true
  | _ => false

namespace MainLoop

variable {ι : Type*} [DecidableEq ι]

/-- `run`, once the globals are bound and the socket is open. -/
def new (data : AppData) : MainLoop ι :=
  { data, pc := .dispatch, clients := fun _ => .idle, commands := .empty,
    statusRequests := .empty, wake := 0 }

/-- One access. -/
inductive Step : MainLoop ι → LoopAccess ι → MainLoop ι → Prop
  -- `tx.send(cmd)` in `handle_client`
  | sendCommand {m : MainLoop ι} {i : ι} {cmd : Command} (hi : m.clients i = .idle) :
      Step m (.sendCommand i cmd)
        { m with
          clients := Function.update m.clients i .sent, commands := m.commands.send (i, cmd) }
  -- `status_tx.send(resp_tx)` in `request_snapshot`
  | sendRequest {m : MainLoop ι} {i : ι} (hi : m.clients i = .idle) :
      Step m (.sendRequest i)
        { m with
          clients := Function.update m.clients i .sent
          statusRequests := m.statusRequests.send i }
  -- `wake.write(1)` in both
  | write {m : MainLoop ι} {i : ι} (hi : m.clients i = .sent) :
      Step m (.write i)
        { m with clients := Function.update m.clients i .woke, wake := eventFdWrite m.wake }
  | dispatch {m : MainLoop ι} {event : Event} {data : AppData} (hpc : m.pc = .dispatch)
      (hriver : event.fromRiver = true) (h : m.data.handle event = some data) :
      Step m (.dispatch event) { m with data }
  | dispatched {m : MainLoop ι} (hpc : m.pc = .dispatch) : Step m .next { m with pc := .commands }
  -- `service_control_commands` and `service_status_requests`, in both places
  | command {m : MainLoop ι} {i : ι} {cmd : Command} {commands : Channel (ι × Command)}
      {data : AppData} (hpc : m.pc = .commands ∨ m.pc = .wakeCommands)
      (hrecv : m.commands.tryRecv = some ((i, cmd), commands))
      (h : m.data.handle (.command cmd) = some data) :
      Step m .receive { m with data, commands }
  | status {m : MainLoop ι} {i : ι} {statusRequests : Channel ι} {data : AppData}
      (hpc : m.pc = .statuses ∨ m.pc = .wakeStatuses)
      (hrecv : m.statusRequests.tryRecv = some (i, statusRequests))
      (h : m.data.handle .statusRequest = some data) :
      Step m .receive { m with data, statusRequests }
  | commandsDrained {m : MainLoop ι} (hpc : m.pc = .commands)
      (hrecv : m.commands.tryRecv = none) : Step m .next { m with pc := .statuses }
  | statusesDrained {m : MainLoop ι} (hpc : m.pc = .statuses)
      (hrecv : m.statusRequests.tryRecv = none) : Step m .next { m with pc := .flush }
  | quit {m : MainLoop ι} {data : AppData} {prepared : Bool} (hpc : m.pc = .flush)
      (h : m.data.handle .flushPending = some data) (hquit : data.quit = true) :
      Step m (.flush prepared) { m with data, pc := .exited }
  -- `prepare_read` gives no guard while events are queued, and the loop continues
  | flush {m : MainLoop ι} {data : AppData} {prepared : Bool} (hpc : m.pc = .flush)
      (h : m.data.handle .flushPending = some data) (hquit : data.quit = false) :
      Step m (.flush prepared) { m with data, pc := if prepared then .poll else .dispatch }
  -- `poll` returns once one of the two is readable
  | poll {m : MainLoop ι} {waylandReady : Bool} (hpc : m.pc = .poll)
      (hready : waylandReady = true ∨ 0 < m.wake) :
      Step m (.poll waylandReady) { m with pc := .read (decide (0 < m.wake)) }
  | read {m : MainLoop ι} {wakeReady : Bool} (hpc : m.pc = .read wakeReady) :
      Step m .next { m with pc := if wakeReady then .reset else .dispatch }
  | readWake {m : MainLoop ι} (hpc : m.pc = .reset) (hwake : 0 < m.wake) :
      Step m .readWake { m with wake := 0 }
  -- `EAGAIN`
  | wakeEmpty {m : MainLoop ι} (hpc : m.pc = .reset) (hwake : m.wake = 0) :
      Step m .next { m with pc := .wakeCommands }
  | wakeCommandsDrained {m : MainLoop ι} (hpc : m.pc = .wakeCommands)
      (hrecv : m.commands.tryRecv = none) : Step m .next { m with pc := .wakeStatuses }
  | wakeStatusesDrained {m : MainLoop ι} (hpc : m.pc = .wakeStatuses)
      (hrecv : m.statusRequests.tryRecv = none) : Step m .next { m with pc := .dispatch }
  | fail {m : MainLoop ι} (hpc : m.pc.fallible = true) : Step m .fail { m with pc := .exited }

/-! ## The event loop inside -/

/-- An access handles at most one event of the event loop. -/
theorem Step.data_reachable {m m' : MainLoop ι} {a : LoopAccess ι} (h : Step m a m') :
    Reachable AppData.Step m.data m'.data := by
  cases h with
  | dispatch _ _ h | command _ _ h | status _ _ h | quit _ h _ | flush _ h _ =>
    exact Reachable.refl.tail h
  | _ => exact Reachable.refl

/-- What the main loop reaches, the event loop reaches. -/
theorem data_reachable {m m' : MainLoop ι} (h : Reachable Step m m') :
    Reachable AppData.Step m.data m'.data := by
  induction h with
  | refl => exact Reachable.refl
  | tail _ hst ih =>
    obtain ⟨a, ha⟩ := hst
    exact ih.trans ha.data_reachable

/-! ## Who has sent -/

/-- The clients that have sent their message. -/
def senders (m : MainLoop ι) : List ι :=
  m.commands.sent.map Prod.fst ++ m.statusRequests.sent

/-- The clients whose message waits. -/
def waiting (m : MainLoop ι) : List ι :=
  m.commands.queue.map Prod.fst ++ m.statusRequests.queue

/-- The clients whose message is handled. -/
def handled (m : MainLoop ι) : List ι :=
  m.commands.received.map Prod.fst ++ m.statusRequests.received

/-- Every client sends at most once, and `idle` are those that have not. -/
structure Senders (m : MainLoop ι) : Prop where
  nodup : m.senders.Nodup
  idle_iff : ∀ i, m.clients i = .idle ↔ i ∉ m.senders

theorem senders_new (data : AppData) : Senders (new data : MainLoop ι) := by
  refine ⟨?_, fun i => ?_⟩ <;> simp [senders, new]

/-- A further sender. -/
theorem Senders.send {m m' : MainLoop ι} {i : ι} (hs : Senders m) (hi : m.clients i = .idle)
    (hperm : m'.senders.Perm (i :: m.senders))
    (hclients : m'.clients = Function.update m.clients i .sent) : Senders m' := by
  have hnew : i ∉ m.senders := (hs.idle_iff i).mp hi
  refine ⟨hperm.nodup_iff.mpr (List.nodup_cons.mpr ⟨hnew, hs.nodup⟩), fun j => ?_⟩
  rw [hclients, hperm.mem_iff, List.mem_cons, not_or]
  rcases eq_or_ne j i with rfl | hji
  · simp
  · rw [Function.update_of_ne hji, hs.idle_iff]
    exact (and_iff_right hji).symm

/-- A step that sends nothing. -/
theorem Senders.congr {m m' : MainLoop ι} (hs : Senders m) (hsenders : m'.senders = m.senders)
    (hclients : ∀ i, m'.clients i = .idle ↔ m.clients i = .idle) : Senders m' :=
  ⟨hsenders ▸ hs.nodup, fun i => by rw [hclients, hs.idle_iff, hsenders]⟩

theorem Senders.step {m m' : MainLoop ι} {a : LoopAccess ι} (hs : Senders m)
    (h : Step m a m') : Senders m' := by
  cases h with
  | sendCommand hi =>
    refine hs.send hi ?_ rfl
    simp only [senders, Channel.sent_send, List.map_append, List.map_cons, List.map_nil,
      List.append_assoc, List.singleton_append]
    exact List.perm_middle
  | sendRequest hi =>
    refine hs.send hi ?_ rfl
    simp only [senders, Channel.sent_send, ← List.append_assoc]
    exact List.perm_append_singleton _ _
  | write hi =>
    rename_i i
    refine hs.congr rfl fun j => ?_
    dsimp only
    rcases eq_or_ne j i with rfl | hji
    · simp [hi]
    · rw [Function.update_of_ne hji]
  | command _ hrecv _ =>
    refine hs.congr ?_ fun _ => Iff.rfl
    simp only [senders, (Channel.tryRecv_eq_some hrecv).2.2]
  | status _ hrecv _ =>
    refine hs.congr ?_ fun _ => Iff.rfl
    simp only [senders, (Channel.tryRecv_eq_some hrecv).2.2]
  | _ => exact hs.congr rfl fun _ => Iff.rfl

/-- The messages of the senders are handled, or wait. -/
theorem senders_perm (m : MainLoop ι) : m.senders.Perm (m.handled ++ m.waiting) := by
  rw [senders, handled, waiting, m.commands.inOrder, m.statusRequests.inOrder, List.map_append,
    List.append_assoc, List.append_assoc]
  refine List.Perm.append_left _ ?_
  rw [← List.append_assoc, ← List.append_assoc]
  exact List.Perm.append_right _ List.perm_append_comm

/-! ## No lost wake-up -/

theorem eventFdWrite_pos (wake : ℕ) : 0 < eventFdWrite wake := by
  have hmax : 0 < eventFdMax := by decide
  unfold eventFdWrite
  split <;> omega

/-- No wake-up is lost : the message of a client that has written to the eventfd waits
only while the loop will see it. -/
structure Awake (m : MainLoop ι) : Prop where
  commands : ∀ x ∈ m.commands.queue, m.clients x.1 = .woke →
    0 < m.wake ∨ m.pc.drainsCommands = true
  statuses : ∀ i ∈ m.statusRequests.queue, m.clients i = .woke →
    0 < m.wake ∨ m.pc.drainsStatuses = true

theorem awake_new (data : AppData) : Awake (new data : MainLoop ι) := by
  constructor <;> simp [new]

/-- A step after which every message that waits, its client awake, waited before, and
that leaves the loop as attentive as it was. -/
theorem Awake.mono {m m' : MainLoop ι} (hm : Awake m)
    (hcommands : ∀ x ∈ m'.commands.queue, m'.clients x.1 = .woke →
      x ∈ m.commands.queue ∧ m.clients x.1 = .woke ∧
        (0 < m.wake ∨ m.pc.drainsCommands = true → 0 < m'.wake ∨ m'.pc.drainsCommands = true))
    (hstatuses : ∀ i ∈ m'.statusRequests.queue, m'.clients i = .woke →
      i ∈ m.statusRequests.queue ∧ m.clients i = .woke ∧
        (0 < m.wake ∨ m.pc.drainsStatuses = true → 0 < m'.wake ∨ m'.pc.drainsStatuses = true)) :
    Awake m' := by
  refine ⟨fun x hx hw => ?_, fun i hi hw => ?_⟩
  · obtain ⟨hx', hw', hkeep⟩ := hcommands x hx hw
    exact hkeep (hm.commands x hx' hw')
  · obtain ⟨hi', hw', hkeep⟩ := hstatuses i hi hw
    exact hkeep (hm.statuses i hi' hw')

/-- A step of the loop that receives nothing. -/
theorem Awake.next {m m' : MainLoop ι} (hm : Awake m) (hclients : m'.clients = m.clients)
    (hcommands : m'.commands = m.commands) (hstatuses : m'.statusRequests = m.statusRequests)
    (hcpc : m.commands.queue ≠ [] → 0 < m.wake ∨ m.pc.drainsCommands = true →
      0 < m'.wake ∨ m'.pc.drainsCommands = true)
    (hspc : m.statusRequests.queue ≠ [] → 0 < m.wake ∨ m.pc.drainsStatuses = true →
      0 < m'.wake ∨ m'.pc.drainsStatuses = true) : Awake m' := by
  refine hm.mono (fun x hx hw => ?_) fun i hi hw => ?_
  · rw [hcommands] at hx
    rw [hclients] at hw
    exact ⟨hx, hw, hcpc (List.ne_nil_of_mem hx)⟩
  · rw [hstatuses] at hi
    rw [hclients] at hw
    exact ⟨hi, hw, hspc (List.ne_nil_of_mem hi)⟩

/-- A client that has just sent has not written to the eventfd. -/
theorem woke_of_update {clients : ι → ClientPhase} {i j : ι}
    (h : Function.update clients i .sent j = .woke) : j ≠ i ∧ clients j = .woke := by
  rcases eq_or_ne j i with rfl | hji
  · simp at h
  · rw [Function.update_of_ne hji] at h
    exact ⟨hji, h⟩

theorem Awake.step {m m' : MainLoop ι} {a : LoopAccess ι} (hm : Awake m)
    (h : Step m a m') : Awake m' := by
  cases h with
  | sendCommand hi =>
    refine hm.mono (fun x hx hw => ?_) fun j hj hw => ⟨hj, (woke_of_update hw).2, id⟩
    obtain ⟨hne, hw⟩ := woke_of_update hw
    rcases List.mem_append.mp hx with hx | hx
    · exact ⟨hx, hw, id⟩
    · exact absurd (congrArg Prod.fst (List.mem_singleton.mp hx)) hne
  | sendRequest hi =>
    refine hm.mono (fun x hx hw => ⟨hx, (woke_of_update hw).2, id⟩) fun j hj hw => ?_
    obtain ⟨hne, hw⟩ := woke_of_update hw
    rcases List.mem_append.mp hj with hj | hj
    · exact ⟨hj, hw, id⟩
    · exact absurd (List.mem_singleton.mp hj) hne
  | write hi =>
    have hpos := eventFdWrite_pos m.wake
    exact ⟨fun _ _ _ => .inl hpos, fun _ _ _ => .inl hpos⟩
  | command hpc hrecv _ =>
    obtain ⟨hqueue, -, -⟩ := Channel.tryRecv_eq_some hrecv
    refine hm.mono (fun x hx hw => ⟨?_, hw, id⟩) fun j hj hw => ⟨hj, hw, id⟩
    rw [hqueue]
    exact List.mem_cons_of_mem _ hx
  | status hpc hrecv _ =>
    obtain ⟨hqueue, -, -⟩ := Channel.tryRecv_eq_some hrecv
    refine hm.mono (fun x hx hw => ⟨hx, hw, id⟩) fun j hj hw => ⟨?_, hw, id⟩
    rw [hqueue]
    exact List.mem_cons_of_mem _ hj
  | dispatch => exact hm.next rfl rfl rfl (fun _ => id) fun _ => id
  | readWake hpc hwake =>
    exact hm.next rfl rfl rfl (fun _ _ => .inr (by simp [hpc, LoopPc.drainsCommands]))
      fun _ _ => .inr (by simp [hpc, LoopPc.drainsStatuses])
  | wakeEmpty hpc hwake =>
    exact hm.next rfl rfl rfl (fun _ _ => .inr rfl) fun _ _ => .inr rfl
  | wakeCommandsDrained hpc hrecv =>
    exact hm.next rfl rfl rfl (fun hne => absurd (Channel.tryRecv_eq_none.mp hrecv) hne)
      fun _ _ => .inr rfl
  | wakeStatusesDrained hpc hrecv =>
    exact hm.next rfl rfl rfl (fun _ => by simp [hpc, LoopPc.drainsCommands])
      fun hne => absurd (Channel.tryRecv_eq_none.mp hrecv) hne
  | fail hpc =>
    refine hm.next rfl rfl rfl (fun _ hatt => ?_) fun _ hatt => ?_ <;>
      revert hpc hatt <;> cases m.pc <;>
      simp [LoopPc.fallible, LoopPc.drainsCommands, LoopPc.drainsStatuses]
  | dispatched hpc | commandsDrained hpc _ | statusesDrained hpc _ | quit hpc _ _
  | flush hpc _ _ | poll hpc _ | read hpc =>
    -- the loop is not draining after a reset : the eventfd is not zero
    refine hm.next rfl rfl rfl (fun _ hatt => .inl ?_) fun _ hatt => .inl ?_ <;>
      simpa [hpc, LoopPc.drainsCommands, LoopPc.drainsStatuses] using hatt

/-! ## The main loop -/

theorem invariant_of_reachable {data : AppData} {m : MainLoop ι}
    (h : Reachable Step (new data) m) : Senders m ∧ Awake m :=
  h.invariant (I := fun m => Senders m ∧ Awake m)
    (fun _ _ _ hi hs => ⟨hi.1.step hs, hi.2.step hs⟩) ⟨senders_new data, awake_new data⟩

/-- In `poll` with the eventfd at zero, who waits has not yet written. -/
theorem Awake.blocked {m : MainLoop ι} (hm : Awake m) (hs : Senders m) (hpc : m.pc = .poll)
    (hwake : m.wake = 0) {i : ι} (hi : i ∈ m.waiting) : m.clients i = .sent := by
  have hsent : m.clients i ≠ .idle := by
    rw [Ne, hs.idle_iff, not_not]
    exact m.senders_perm.mem_iff.mpr (List.mem_append_right _ hi)
  have hwoke : m.clients i ≠ .woke := by
    intro hw
    rcases List.mem_append.mp hi with hi | hi
    · obtain ⟨x, hx, rfl⟩ := List.mem_map.mp hi
      simpa [hpc, hwake, LoopPc.drainsCommands] using hm.commands x hx hw
    · simpa [hpc, hwake, LoopPc.drainsStatuses] using hm.statuses i hi hw
  cases hc : m.clients i
  · exact absurd hc hsent
  · rfl
  · exact absurd hc hwoke

/-! ## A pass of the loop -/

/-- How far the loop is from blocking, but for the messages that wait. The loop drains in
its order; a wake-up sends it round once more. -/
def pcRank (wake : ℕ) : LoopPc → ℕ
  | .read true => if wake = 0 then 10 else 1
  | .reset => if wake = 0 then 9 else 0
  | .wakeCommands => 8
  | .wakeStatuses | .read false => 7
  | .dispatch => 6
  | .commands => 5
  | .statuses => 4
  | .flush => 3
  | .poll => 2
  | .exited => 0

/-- A bound on the steps the loop takes when it is left alone. -/
def rank (m : MainLoop ι) : ℕ :=
  m.commands.queue.length + m.statusRequests.queue.length + (if m.wake = 0 then 0 else 11) +
    pcRank m.wake m.pc

/-- A step of the loop while the clients and the connection are quiet. -/
def Quiet (m : MainLoop ι) (a : LoopAccess ι) (m' : MainLoop ι) : Prop :=
  a.quiet = true ∧ Step m a m'

theorem Quiet.rank_lt {m m' : MainLoop ι} {a : LoopAccess ι} (h : Quiet m a m') :
    m'.rank < m.rank := by
  obtain ⟨hq, h⟩ := h
  cases h with
  | sendCommand | sendRequest | write | dispatch | fail => cases hq
  | command _ hrecv _ | status _ hrecv _ =>
    obtain ⟨hqueue, -, -⟩ := Channel.tryRecv_eq_some hrecv
    simp only [rank, hqueue, List.length_cons]
    omega
  | quit hpc _ _ => simp [rank, hpc, pcRank]
  | flush hpc _ _ =>
    rename_i data prepared _ _
    obtain rfl : prepared = true := hq
    simp [rank, hpc, pcRank]
  | poll hpc hready =>
    have hpos : 0 < m.wake := hready.resolve_left (by simpa [LoopAccess.quiet] using hq)
    simp [rank, hpc, pcRank, hpos, hpos.ne']
  | read hpc =>
    rename_i wakeReady
    cases wakeReady <;> simp only [rank, hpc, pcRank] <;> split <;> simp
  | readWake hpc hwake => simp [rank, hpc, pcRank, hwake.ne']
  | wakeEmpty hpc hwake => simp [rank, hpc, pcRank, hwake]
  | dispatched hpc | commandsDrained hpc _ | statusesDrained hpc _ | wakeCommandsDrained hpc _
  | wakeStatusesDrained hpc _ => simp [rank, hpc, pcRank]

/-- Left alone, the loop stops within `rank` steps. -/
theorem length_le_rank {m : MainLoop ι} {τs : List (Transition.Step (MainLoop ι) (LoopAccess ι))}
    (h : IsRun Quiet m τs) : τs.length ≤ m.rank := by
  induction h with
  | nil => exact Nat.zero_le _
  | cons hst _ ih => exact Nat.succ_le_of_lt (ih.trans_lt hst.rank_lt)

/-- The handler of what the loop works on next panics. -/
def Panics (m : MainLoop ι) : Prop :=
  (∃ x ∈ m.commands.queue, m.data.handle (.command x.2) = none) ∨
    m.data.handle .statusRequest = none

/-- A loop that stops has returned, is blocked with the eventfd at zero, or a handler
panicked. -/
theorem stopped_cases {m : MainLoop ι} (h : ∀ a m', ¬Quiet m a m') :
    m.pc = .exited ∨ (m.pc = .poll ∧ m.wake = 0) ∨ m.Panics := by
  have hcommands (hpc : m.pc = .commands ∨ m.pc = .wakeCommands)
      (hne : m.commands.tryRecv ≠ none) : m.Panics := by
    obtain ⟨⟨⟨i, cmd⟩, rest⟩, hrecv⟩ := Option.ne_none_iff_exists'.mp hne
    refine .inl ⟨(i, cmd), ?_, Option.eq_none_iff_forall_ne_some.mpr fun data hdata =>
      h _ _ ⟨rfl, .command hpc hrecv hdata⟩⟩
    rw [(Channel.tryRecv_eq_some hrecv).1]
    exact List.mem_cons_self
  have hstatuses (hpc : m.pc = .statuses ∨ m.pc = .wakeStatuses)
      (hne : m.statusRequests.tryRecv ≠ none) : m.Panics := by
    obtain ⟨⟨i, rest⟩, hrecv⟩ := Option.ne_none_iff_exists'.mp hne
    exact .inr (Option.eq_none_iff_forall_ne_some.mpr fun data hdata =>
      h _ _ ⟨rfl, .status hpc hrecv hdata⟩)
  cases hpc : m.pc with
  | exited => exact .inl rfl
  | dispatch => exact absurd ⟨rfl, .dispatched hpc⟩ (h .next _)
  | commands =>
    exact .inr (.inr (hcommands (.inl hpc) fun hrecv =>
      h .next _ ⟨rfl, .commandsDrained hpc hrecv⟩))
  | statuses =>
    exact .inr (.inr (hstatuses (.inl hpc) fun hrecv =>
      h .next _ ⟨rfl, .statusesDrained hpc hrecv⟩))
  | wakeCommands =>
    exact .inr (.inr (hcommands (.inr hpc) fun hrecv =>
      h .next _ ⟨rfl, .wakeCommandsDrained hpc hrecv⟩))
  | wakeStatuses =>
    exact .inr (.inr (hstatuses (.inr hpc) fun hrecv =>
      h .next _ ⟨rfl, .wakeStatusesDrained hpc hrecv⟩))
  | flush =>
    have hflush : m.data.handle .flushPending = some m.data.flushPending := rfl
    cases hquit : m.data.flushPending.quit with
    | true => exact absurd ⟨rfl, .quit hpc hflush hquit⟩ (h (.flush true) _)
    | false => exact absurd ⟨rfl, .flush hpc hflush hquit⟩ (h (.flush true) _)
  | poll =>
    refine .inr (.inl ⟨rfl, ?_⟩)
    by_contra hwake
    exact h (.poll false) _ ⟨rfl, .poll hpc (.inr (Nat.pos_of_ne_zero hwake))⟩
  | read => exact absurd ⟨rfl, .read hpc⟩ (h .next _)
  | reset =>
    rcases Nat.eq_zero_or_pos m.wake with hwake | hwake
    · exact absurd ⟨rfl, .wakeEmpty hpc hwake⟩ (h .next _)
    · exact absurd ⟨rfl, .readWake hpc hwake⟩ (h .readWake _)

/-- No lost wake-up, over every interleaving of the main loop and its clients. Left alone,
the loop stops within a bound, and then it has returned, is blocked or panicked. -/
theorem no_lost_wakeup (data : AppData) {m : MainLoop ι} (h : Reachable Step (new data) m) :
    (m.pc = .poll → m.wake = 0 → ∀ i ∈ m.waiting, m.clients i = .sent) ∧
    m.commands.sent = m.commands.received ++ m.commands.queue ∧
    m.statusRequests.sent = m.statusRequests.received ++ m.statusRequests.queue ∧
    m.handled.Nodup ∧
    (m.pc = .poll → m.wake = 0 → ∀ i, m.clients i = .woke → m.handled.count i = 1) ∧
    (∀ τs, IsRun Quiet m τs → τs.length ≤ m.rank) ∧
    ((∀ a m', ¬Quiet m a m') → m.pc = .exited ∨ (m.pc = .poll ∧ m.wake = 0) ∨ m.Panics) := by
  obtain ⟨hs, hm⟩ := invariant_of_reachable h
  have hnodup : m.handled.Nodup :=
    (List.nodup_append.mp (m.senders_perm.nodup_iff.mp hs.nodup)).1
  refine ⟨fun hpc hwake i hi => hm.blocked hs hpc hwake hi, m.commands.inOrder,
    m.statusRequests.inOrder, hnodup, fun hpc hwake i hi => ?_, fun _ => length_le_rank,
    stopped_cases⟩
  have hsent : i ∈ m.senders := by
    by_contra hnot
    rw [(hs.idle_iff i).mpr hnot] at hi
    exact ClientPhase.noConfusion hi
  rcases List.mem_append.mp (m.senders_perm.mem_iff.mp hsent) with hmem | hwait
  · exact List.count_eq_one_of_mem hnodup hmem
  · rw [hm.blocked hs hpc hwake hwait] at hi
    exact ClientPhase.noConfusion hi

/-- A client sends after the drains, before it writes to the eventfd, and the loop blocks. -/
theorem no_lost_wakeup_between :
    ∃ m : MainLoop ℕ, Reachable Step (new (AppData.new .default false false false)) m ∧
      m.pc = .poll ∧ m.wake = 0 ∧ m.waiting = [0] ∧ m.clients 0 = .sent := by
  let start : MainLoop ℕ := new (AppData.new .default false false false)
  have h0 : Reachable Step start start := .refl
  have h1 := ((h0.tail (.dispatched rfl)).tail (.commandsDrained rfl rfl)).tail
    (.statusesDrained rfl rfl)
  have h2 := h1.tail (@Step.sendCommand _ _ _ 0 .refresh rfl)
  have h3 := h2.tail (@Step.flush _ _ _ _ true rfl rfl rfl)
  have hsent := (no_lost_wakeup _ h3).1 rfl rfl 0
  exact ⟨_, h3, rfl, rfl, rfl, hsent (by simp [waiting])⟩

end MainLoop

end Streamwm
