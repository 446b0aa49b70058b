import Mathlib.Data.List.Pairwise
import Mathlib.Tactic.SplitIfs

/-!
# A latest-value slot with a wake token

A mailbox passes values from one writer to one reader and keeps only the newest : the
writer stores a value in the slot, over the one before, and then sends a token through a
channel that holds at most one; the reader waits for a token and then takes what the
slot holds.

`trail got pending` is what the reader has got, followed by what waits for it. Taking what
waits does not change it, and storing a later value keeps it in order
(`pairwise_trail_some`).
-/

/-- A slot and a channel for one token. -/
structure Mailbox (β : Type*) where
  latest : Option β
  wake : Bool

namespace Mailbox

variable {β : Type*} {m : Mailbox β} {got : List β} {b : β} {r : β → β → Prop}

def empty : Mailbox β :=
  { latest := none, wake := false }

variable (m) in
/-- Overwrite the slot. -/
def store (b : β) : Mailbox β :=
  { m with latest := some b }

variable (m) in
/-- Send a token, unless there is one. -/
def prod : Mailbox β :=
  { m with wake := true }

variable (m) in
/-- Receive the token; `none` when there is none. -/
def recv : Option (Mailbox β) :=
  if m.wake then some { m with wake := false } else none

variable (m) in
/-- Empty the slot. -/
def clear : Mailbox β :=
  { m with latest := none }

@[simp] theorem latest_store : (m.store b).latest = some b := rfl
@[simp] theorem wake_store : (m.store b).wake = m.wake := rfl
@[simp] theorem latest_prod : m.prod.latest = m.latest := rfl
@[simp] theorem wake_prod : m.prod.wake = true := rfl
@[simp] theorem latest_clear : m.clear.latest = none := rfl
@[simp] theorem wake_clear : m.clear.wake = m.wake := rfl

theorem recv_eq_some {m' : Mailbox β} :
    m.recv = some m' ↔ m.wake = true ∧ m' = { m with wake := false } := by
  unfold recv
  split_ifs with h
  · simp [h, eq_comm]
  · simp [h]

theorem recv_eq_none : m.recv = none ↔ m.wake = false := by
  unfold recv
  split_ifs with h <;> simp [h]

/-! ## What the reader sees -/

/-- What the reader has got, and what waits. -/
def trail (got : List β) (pending : Option β) : List β :=
  got ++ pending.toList

@[simp] theorem trail_none : trail got none = got :=
  List.append_nil got

theorem trail_some : trail got (some b) = got ++ [b] := rfl

theorem prefix_trail (pending : Option β) : got <+: trail got pending :=
  List.prefix_append _ _

/-- But for the first, all that the reader gets once `b` is stored was there before. -/
theorem mem_tail_trail_some {a : β} (h : a ∈ (trail got (some b)).tail) (pending : Option β) :
    a ∈ (trail got pending).tail ∨ a = b := by
  cases got with
  | nil => simp [trail_some] at h
  | cons c got =>
    rcases List.mem_append.mp h with h | h
    · exact Or.inl ((prefix_trail pending).subset h)
    · exact Or.inr (List.mem_singleton.mp h)

/-- A value that comes after all that the reader has got keeps the order. -/
theorem pairwise_trail_some (h : got.Pairwise r) (hb : ∀ a ∈ got, r a b) :
    (trail got (some b)).Pairwise r := by
  rw [trail_some, List.pairwise_append]
  exact ⟨h, List.pairwise_singleton _ _, fun a ha c hc => List.mem_singleton.mp hc ▸ hb a ha⟩

end Mailbox
