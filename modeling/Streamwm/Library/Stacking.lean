import Mathlib.Data.List.Basic

/-!
# A stacking order

The items of a stack, from the bottom to the top, and the request that puts one of them on
top. Whatever the order was, after a series of such requests an item that was raised lies
above every item of the stack that was not (`above_raiseAll`).
-/

namespace Stacking

variable {α : Type*} [DecidableEq α] {order : List α} {as : List α} {a b c : α}

/-- Put an item on top. -/
def raise (order : List α) (a : α) : List α :=
  order.filter (· ≠ a) ++ [a]

/-- Put items on top, one after the other. -/
def raiseAll (order as : List α) : List α :=
  as.foldl raise order

/-- `a` lies above `b` : the order has a lower part with `b` and without `a`, and an upper
part with `a` and without `b`. -/
def Above (order : List α) (a b : α) : Prop :=
  ∃ lower upper, order = lower ++ upper ∧ b ∈ lower ∧ a ∉ lower ∧ a ∈ upper ∧ b ∉ upper

theorem mem_raise : b ∈ raise order a ↔ b ∈ order ∨ b = a := by
  by_cases h : b = a <;> simp [raise, h]

theorem raiseAll_append (as' : List α) :
    raiseAll order (as ++ as') = raiseAll (raiseAll order as) as' :=
  List.foldl_append

theorem mem_raiseAll : ∀ {as order : List α}, b ∈ raiseAll order as ↔ b ∈ order ∨ b ∈ as
  | [], _ => by simp [raiseAll]
  | a :: as, order => by
    change b ∈ raiseAll (raise order a) as ↔ _
    rw [mem_raiseAll, mem_raise, List.mem_cons, or_assoc]

theorem above_raise_self (hb : b ∈ order) (hne : b ≠ a) : Above (raise order a) a b := by
  refine ⟨order.filter (· ≠ a), [a], rfl, ?_, ?_, List.mem_singleton_self a, ?_⟩
  · simpa using ⟨hb, hne⟩
  · simp
  · simpa using hne

/-- What lies above `b` stays there until `b` is raised. -/
theorem Above.raise (h : Above order a b) (hne : c ≠ b) : Above (raise order c) a b := by
  obtain ⟨lower, upper, rfl, hb, ha, ha', hb'⟩ := h
  refine ⟨lower.filter (· ≠ c), upper.filter (· ≠ c) ++ [c], ?_, ?_, ?_, ?_, ?_⟩
  · rw [Stacking.raise, List.filter_append, List.append_assoc]
  · simpa using ⟨hb, hne.symm⟩
  · exact fun hmem => ha (List.mem_of_mem_filter hmem)
  · by_cases hac : a = c
    · simp [hac]
    · simp [ha', hac]
  · simp [hb', hne.symm]

theorem Above.raiseAll : ∀ {as order : List α}, Above order a b → b ∉ as →
    Above (raiseAll order as) a b
  | [], _, h, _ => h
  | c :: as, order, h, hb => by
    rw [List.mem_cons, not_or] at hb
    change Above (Stacking.raiseAll (Stacking.raise order c) as) a b
    exact (h.raise (Ne.symm hb.1)).raiseAll hb.2

/-- An item that is raised ends above every item of the stack that is not. -/
theorem above_raiseAll : ∀ {as order : List α}, b ∈ order → b ∉ as → a ∈ as →
    Above (raiseAll order as) a b
  | c :: as, order, hb, hnot, ha => by
    rw [List.mem_cons, not_or] at hnot
    change Above (raiseAll (raise order c) as) a b
    rcases List.mem_cons.mp ha with rfl | ha
    · exact (above_raise_self hb hnot.1).raiseAll hnot.2
    · exact above_raiseAll (mem_raise.mpr (Or.inl hb)) hnot.2 ha

end Stacking
