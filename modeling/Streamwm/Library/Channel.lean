import Mathlib.Data.List.Basic

/-!
# A queue with its history

An unbounded first-in first-out channel with any number of senders and one receiver. What
was sent and what was received are kept beside the queue; that they are in the channel's
order, and that nothing is lost or received twice, is the field `inOrder`.
-/

structure Channel (β : Type*) where
  /-- Everything sent, oldest first. -/
  sent : List β
  /-- Everything received, oldest first. -/
  received : List β
  /-- What waits to be received, oldest first. -/
  queue : List β
  inOrder : sent = received ++ queue

namespace Channel

variable {β : Type*} {ch ch' : Channel β} {a b : β}

/-- Nothing has been sent. -/
def empty : Channel β :=
  { sent := [], received := [], queue := [], inOrder := rfl }

variable (ch) in
def send (b : β) : Channel β where
  sent := ch.sent ++ [b]
  received := ch.received
  queue := ch.queue ++ [b]
  inOrder := by rw [ch.inOrder, List.append_assoc]

variable (ch) in
/-- Receive the oldest message; `none` when there is none. -/
def tryRecv : Option (β × Channel β) :=
  match h : ch.queue with
  | [] => none
  | b :: rest =>
    some (b,
      { sent := ch.sent
        received := ch.received ++ [b]
        queue := rest
        inOrder := by rw [ch.inOrder, h, List.append_assoc, List.singleton_append] })

@[simp] theorem queue_empty : (empty : Channel β).queue = [] := rfl
@[simp] theorem sent_empty : (empty : Channel β).sent = [] := rfl
@[simp] theorem queue_send : (ch.send b).queue = ch.queue ++ [b] := rfl
@[simp] theorem sent_send : (ch.send b).sent = ch.sent ++ [b] := rfl
@[simp] theorem received_send : (ch.send b).received = ch.received := rfl

theorem tryRecv_eq_none : ch.tryRecv = none ↔ ch.queue = [] := by
  unfold tryRecv
  split <;> simp_all

/-- What a receipt changes. -/
theorem tryRecv_eq_some (h : ch.tryRecv = some (b, ch')) :
    ch.queue = b :: ch'.queue ∧ ch'.received = ch.received ++ [b] ∧ ch'.sent = ch.sent := by
  unfold tryRecv at h
  split at h
  · cases h
  · rename_i c rest hq
    obtain ⟨rfl, rfl⟩ := Prod.mk.inj (Option.some.inj h)
    exact ⟨hq, rfl, rfl⟩

end Channel
