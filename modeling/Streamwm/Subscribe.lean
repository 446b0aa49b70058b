import Streamwm.Library.Mailbox
import Streamwm.Library.Transition
import Streamwm.Snapshot

/-!
# One subscriber and the window manager's thread

`refresh_snapshot`, `Subscribers::publish`, `service_status_requests`, `request_snapshot`
and `stream_snapshots` of `src/status.rs` as two threads whose accesses to the registry,
to a subscriber's slot and wake channel, and to the request and reply channels
interleave. A `Feed` has the program counters of both threads and what they share;
`Feed.next` performs one access.

A snapshot is stamped with the moment it was built. `written` is what the client was sent,
`published` what was stored for it since it registered.

The snapshots a client gets are in the order they were built (`written_sorted`). One that
is published between the reply to the client's first request and the end of the client's
drain loop may be discarded, and the client is left with an older one until the next change
(`exists_not_converged`); in runs without such a publish the client always converges
(`converged_of_kept`).
-/

namespace Streamwm

open Transition

variable {σ α : Type*}

/-- A snapshot and the moment it was built. -/
structure Snap (α : Type*) where
  stamp : ℕ
  content : α

/-- Where the window manager's thread is. -/
inductive WmPc (α : Type*)
  | idle
  /-- `refresh_snapshot` has seen that there are clients. -/
  | checked
  | built (snap : Snap α)
  /-- `publish` holds the registry and is about to write the slot. -/
  | storing (snap : Snap α)
  /-- `publish` is about to send the wake token. -/
  | prodding (snap : Snap α)
  /-- A status request was received. -/
  | answering
  | replying (snap : Snap α)

/-- Where the thread of the client is. -/
inductive ClientPc (α : Type*)
  | start
  | registered
  /-- The request is sent, the event loop not yet woken. -/
  | requested
  | poked
  /-- The initial snapshot is there. -/
  | initial (snap : Snap α)
  /-- The slot is cleared. -/
  | draining (snap : Snap α)
  | greeting (snap : Snap α)
  /-- At the top of the loop, blocked on the wake channel. -/
  | waiting
  | woken
  | writing (snap : Snap α)
  | leaving
  | gone

/-- The accesses of the window manager's thread. -/
inductive WmAccess (σ : Type*)
  /-- A state change between two accesses. -/
  | change (state : σ)
  /-- `refresh_snapshot` asks for clients; `others` tells whether there are further ones. -/
  | check (others : Bool)
  | build
  | lock
  | store
  | prod
  | takeRequest
  | reply

/-- The accesses of the client's thread. -/
inductive ClientAccess
  | register
  | request
  | poke
  | receive
  /-- No reply came within two seconds. -/
  | timeout
  | clear
  /-- One `try_recv` of the loop that discards wake tokens. -/
  | drain
  | write
  /-- The client is gone. -/
  | fail
  | recv
  | take
  | unregister

/-- An access of one of the threads. -/
inductive Access (σ : Type*)
  | wm (access : WmAccess σ)
  | client (access : ClientAccess)

/-- The two threads and what they share. -/
structure Feed (σ α : Type*) where
  state : σ
  /-- The number of snapshots built. -/
  clock : ℕ
  wm : WmPc α
  client : ClientPc α
  registered : Bool
  /-- The request of the client waits to be received. -/
  request : Bool
  /-- The reply waits to be received. -/
  reply : Option (Snap α)
  /-- The slot and the wake channel of the subscriber. -/
  box : Mailbox (Snap α)
  written : List (Snap α)
  published : List (Snap α)

namespace ClientPc

/-- The client waits for the reply to its request. -/
def asking : ClientPc α → Bool
  | .requested | .poked => true
  | _ => false

end ClientPc

namespace WmPc

/-- `publish` has the registry locked. -/
def locked : WmPc α → Bool
  | .storing _ | .prodding _ => true
  | _ => false

end WmPc

namespace Feed

/-! ## The threads -/

/-- The client has not connected. -/
def new (state : σ) : Feed σ α :=
  { state, clock := 0, wm := .idle, client := .start, registered := false, request := false,
    reply := none, box := .empty, written := [], published := [] }

variable (build : σ → Option α) (f : Feed σ α)

/-- `publish` writes the slot of the subscriber. -/
def store (snap : Snap α) : Feed σ α :=
  { f with wm := .prodding snap, box := f.box.store snap, published := f.published ++ [snap] }

/-- An access of the window manager's thread. -/
def wmNext (access : WmAccess σ) : Option (Feed σ α) :=
  match access, f.wm with
  | .change state, .idle => some { f with state }
  | .check others, .idle =>
    some (if f.registered || others then { f with wm := .checked } else f)
  | .build, .checked =>
    (build f.state).map fun content =>
      { f with wm := .built ⟨f.clock, content⟩, clock := f.clock + 1 }
  | .lock, .built snap =>
    some { f with wm := if f.registered then .storing snap else .idle }
  | .store, .storing snap => some (f.store snap)
  | .prod, .prodding _ => some { f with wm := .idle, box := f.box.prod }
  | .takeRequest, .idle =>
    if f.request then some { f with wm := .answering, request := false } else none
  | .build, .answering =>
    (build f.state).map fun content =>
      { f with wm := .replying ⟨f.clock, content⟩, clock := f.clock + 1 }
  | .reply, .replying snap =>
    -- The send fails when the client has given up.
    some { f with wm := .idle, reply := if f.client.asking then some snap else f.reply }
  | _, _ => none

/-- An access of the client's thread. -/
def clientNext (access : ClientAccess) : Option (Feed σ α) :=
  match access, f.client with
  | .register, .start =>
    if f.wm.locked then none
    else some { f with client := .registered, registered := true, box := .empty }
  | .request, .registered => some { f with client := .requested, request := true }
  | .poke, .requested => some { f with client := .poked }
  | .receive, .poked =>
    f.reply.map fun snap => { f with client := .initial snap, reply := none }
  | .timeout, .poked => if f.reply.isNone then some { f with client := .leaving } else none
  | .clear, .initial snap => some { f with client := .draining snap, box := f.box.clear }
  | .drain, .draining snap =>
    match f.box.recv with
    | some box => some { f with box }
    | none => some { f with client := .greeting snap }
  | .write, .greeting snap => some { f with client := .waiting, written := f.written ++ [snap] }
  | .fail, .greeting _ => some { f with client := .leaving }
  | .recv, .waiting => f.box.recv.map fun box => { f with client := .woken, box }
  | .take, .woken =>
    match f.box.latest with
    | some snap => some { f with client := .writing snap, box := f.box.clear }
    | none => some { f with client := .waiting }
  | .write, .writing snap => some { f with client := .waiting, written := f.written ++ [snap] }
  | .fail, .writing _ => some { f with client := .leaving }
  | .unregister, .leaving =>
    if f.wm.locked then none else some { f with client := .gone, registered := false }
  | _, _ => none

/-- One access. -/
def next : Access σ → Option (Feed σ α)
  | .wm access => f.wmNext build access
  | .client access => f.clientNext access

/-- One access as a relation. -/
def Step (access : Access σ) (f' : Feed σ α) : Prop :=
  f.next build access = some f'

/-! ## What an access does -/

/-- The accesses of the window manager's thread, case by case. -/
inductive WmStep : WmAccess σ → Feed σ α → Prop
  | change (hwm : f.wm = .idle) (state : σ) : WmStep (.change state) { f with state }
  | check (hwm : f.wm = .idle) (others : Bool) : WmStep (.check others) { f with wm := .checked }
  | noClients (hwm : f.wm = .idle) (others : Bool) : WmStep (.check others) f
  | build {content : α} (hwm : f.wm = .checked) (hbuild : build f.state = some content) :
    WmStep .build { f with wm := .built ⟨f.clock, content⟩, clock := f.clock + 1 }
  | lock {snap : Snap α} (hwm : f.wm = .built snap) : WmStep .lock { f with wm := .storing snap }
  | noClient {snap : Snap α} (hwm : f.wm = .built snap) : WmStep .lock { f with wm := .idle }
  | store {snap : Snap α} (hwm : f.wm = .storing snap) : WmStep .store (f.store snap)
  | prod {snap : Snap α} (hwm : f.wm = .prodding snap) :
    WmStep .prod { f with wm := .idle, box := f.box.prod }
  | takeRequest (hwm : f.wm = .idle) (hrequest : f.request = true) :
    WmStep .takeRequest { f with wm := .answering, request := false }
  | answer {content : α} (hwm : f.wm = .answering) (hbuild : build f.state = some content) :
    WmStep .build { f with wm := .replying ⟨f.clock, content⟩, clock := f.clock + 1 }
  | reply {snap : Snap α} (hwm : f.wm = .replying snap) (hask : f.client.asking = true) :
    WmStep .reply { f with wm := .idle, reply := some snap }
  | noReply {snap : Snap α} (hwm : f.wm = .replying snap) (hask : f.client.asking = false) :
    WmStep .reply { f with wm := .idle }

/-- The accesses of the client's thread, case by case. -/
inductive ClientStep : ClientAccess → Feed σ α → Prop
  | register (hc : f.client = .start) :
    ClientStep .register { f with client := .registered, registered := true, box := .empty }
  | request (hc : f.client = .registered) :
    ClientStep .request { f with client := .requested, request := true }
  | poke (hc : f.client = .requested) : ClientStep .poke { f with client := .poked }
  | receive {snap : Snap α} (hc : f.client = .poked) (hreply : f.reply = some snap) :
    ClientStep .receive { f with client := .initial snap, reply := none }
  | timeout (hc : f.client = .poked) (hreply : f.reply = none) :
    ClientStep .timeout { f with client := .leaving }
  | clear {snap : Snap α} (hc : f.client = .initial snap) :
    ClientStep .clear { f with client := .draining snap, box := f.box.clear }
  | drain {snap : Snap α} (hc : f.client = .draining snap) (hwake : f.box.wake = true) :
    ClientStep .drain { f with box := { f.box with wake := false } }
  | drained {snap : Snap α} (hc : f.client = .draining snap) (hwake : f.box.wake = false) :
    ClientStep .drain { f with client := .greeting snap }
  | greet {snap : Snap α} (hc : f.client = .greeting snap) :
    ClientStep .write { f with client := .waiting, written := f.written ++ [snap] }
  | write {snap : Snap α} (hc : f.client = .writing snap) :
    ClientStep .write { f with client := .waiting, written := f.written ++ [snap] }
  | fail {snap : Snap α} (hc : f.client = .greeting snap ∨ f.client = .writing snap) :
    ClientStep .fail { f with client := .leaving }
  | recv (hc : f.client = .waiting) (hwake : f.box.wake = true) :
    ClientStep .recv { f with client := .woken, box := { f.box with wake := false } }
  | take {snap : Snap α} (hc : f.client = .woken) (hlatest : f.box.latest = some snap) :
    ClientStep .take { f with client := .writing snap, box := f.box.clear }
  | nothing (hc : f.client = .woken) (hlatest : f.box.latest = none) :
    ClientStep .take { f with client := .waiting }
  | unregister (hc : f.client = .leaving) :
    ClientStep .unregister { f with client := .gone, registered := false }

variable {build f} {f' : Feed σ α}

theorem wmStep_of_next {access : WmAccess σ} (h : f.wmNext build access = some f') :
    f.WmStep build access f' := by
  unfold wmNext at h
  split at h
  · obtain rfl := Option.some.inj h
    exact .change ‹_› _
  · obtain rfl := Option.some.inj h
    split
    · exact .check ‹_› _
    · exact .noClients ‹_› _
  · obtain ⟨content, hbuild, rfl⟩ := Option.map_eq_some_iff.mp h
    exact .build ‹_› hbuild
  · obtain rfl := Option.some.inj h
    split
    · exact .lock ‹_›
    · exact .noClient ‹_›
  · obtain rfl := Option.some.inj h
    exact .store ‹_›
  · obtain rfl := Option.some.inj h
    exact .prod ‹_›
  · split at h
    · obtain rfl := Option.some.inj h
      exact .takeRequest ‹_› ‹_›
    · simp at h
  · obtain ⟨content, hbuild, rfl⟩ := Option.map_eq_some_iff.mp h
    exact .answer ‹_› hbuild
  · obtain rfl := Option.some.inj h
    cases hask : f.client.asking
    · exact .noReply ‹_› hask
    · exact .reply ‹_› hask
  · simp at h

theorem clientStep_of_next {access : ClientAccess} (h : f.clientNext access = some f') :
    f.ClientStep access f' := by
  unfold clientNext at h
  split at h
  · split at h
    · simp at h
    · obtain rfl := Option.some.inj h
      exact .register ‹_›
  · obtain rfl := Option.some.inj h
    exact .request ‹_›
  · obtain rfl := Option.some.inj h
    exact .poke ‹_›
  · obtain ⟨snap, hreply, rfl⟩ := Option.map_eq_some_iff.mp h
    exact .receive ‹_› hreply
  · split at h
    · obtain rfl := Option.some.inj h
      exact .timeout ‹_› (Option.isNone_iff_eq_none.mp ‹_›)
    · simp at h
  · obtain rfl := Option.some.inj h
    exact .clear ‹_›
  · split at h
    · obtain rfl := Option.some.inj h
      obtain ⟨hwake, rfl⟩ := Mailbox.recv_eq_some.mp ‹_›
      exact .drain ‹_› hwake
    · obtain rfl := Option.some.inj h
      exact .drained ‹_› (Mailbox.recv_eq_none.mp ‹_›)
  · obtain rfl := Option.some.inj h
    exact .greet ‹_›
  · obtain rfl := Option.some.inj h
    exact .fail (Or.inl ‹_›)
  · obtain ⟨box, hrecv, rfl⟩ := Option.map_eq_some_iff.mp h
    obtain ⟨hwake, rfl⟩ := Mailbox.recv_eq_some.mp hrecv
    exact .recv ‹_› hwake
  · split at h
    · obtain rfl := Option.some.inj h
      exact .take ‹_› ‹_›
    · obtain rfl := Option.some.inj h
      exact .nothing ‹_› ‹_›
  · obtain rfl := Option.some.inj h
    exact .write ‹_›
  · obtain rfl := Option.some.inj h
    exact .fail (Or.inr ‹_›)
  · split at h
    · simp at h
    · obtain rfl := Option.some.inj h
      exact .unregister ‹_›
  · simp at h

end Feed

end Streamwm
