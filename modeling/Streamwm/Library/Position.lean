import Mathlib.Data.List.Nodup

/-!
# Positions in a list that changes

Elements are taken out of a list and new ones are appended to it (`Evolved`). A position
remembered from before still names the same element iff nothing before it was taken out
(`Evolved.getElem?_eq_iff`). Where the element itself was taken out, the position names another
one unless the list has become too short (`Evolved.names_iff`).
-/

namespace Position

variable {α : Type*} {l l' : List α} {x : α} {k : ℕ}

/-- What is left of `l`, in order, and then elements `l` does not have. -/
def Evolved (l l' : List α) : Prop :=
  ∃ (p : α → Bool) (added : List α), l' = l.filter p ++ added ∧ ∀ a ∈ added, a ∉ l

/-- The position names the element, or nothing if the element is gone. -/
def Names (l : List α) (k : ℕ) (x : α) : Prop :=
  (x ∈ l → l[k]? = some x) ∧ (x ∉ l → l[k]? = none)

theorem Evolved.refl (l : List α) : Evolved l l :=
  ⟨fun _ => true, [], by simp, by simp⟩

theorem Evolved.append (h : Evolved l l') {a : α} (ha : a ∉ l) : Evolved l (l' ++ [a]) := by
  obtain ⟨p, added, rfl, hnew⟩ := h
  refine ⟨p, added ++ [a], List.append_assoc .., fun b hb => ?_⟩
  rcases List.mem_append.mp hb with hb | hb
  · exact hnew b hb
  · exact List.mem_singleton.mp hb ▸ ha

theorem Evolved.filter (h : Evolved l l') (q : α → Bool) : Evolved l (l'.filter q) := by
  obtain ⟨p, added, rfl, hnew⟩ := h
  refine ⟨fun a => q a && p a, added.filter q, ?_, fun a ha => hnew a (List.mem_of_mem_filter ha)⟩
  rw [List.filter_append, List.filter_filter]

/-- Without repetitions, an element after a prefix has the length of the prefix as position. -/
theorem getElem?_eq_some_iff_of_append {pre post : List α} (hnodup : (pre ++ x :: post).Nodup) :
    (pre ++ x :: post)[k]? = some x ↔ k = pre.length := by
  have hpos : (pre ++ x :: post)[pre.length]? = some x := by simp
  constructor
  · intro hk
    obtain ⟨hlt, hget⟩ := List.getElem?_eq_some_iff.mp hk
    obtain ⟨hlt', hget'⟩ := List.getElem?_eq_some_iff.mp hpos
    exact hnodup.getElem_inj_iff.mp (hget.trans hget'.symm)
  · rintro rfl
    exact hpos

/-- A position stays with its element iff everything before it stays : the position of an
element that is left is the number of elements left before it. -/
theorem Evolved.getElem?_eq_iff (h : Evolved l l') (hnodup' : l'.Nodup) (hk : l[k]? = some x)
    (hx : x ∈ l') : l'[k]? = some x ↔ ∀ y ∈ l.take k, y ∈ l' := by
  obtain ⟨p, added, rfl, hnew⟩ := h
  obtain ⟨hlt, hget⟩ := List.getElem?_eq_some_iff.mp hk
  have hleft : ∀ y ∈ l, (y ∈ l.filter p ++ added ↔ p y = true) := fun y hy => by
    rw [List.mem_append, or_iff_left fun hadd => hnew y hadd hy, List.mem_filter,
      and_iff_right hy]
  have hsplit : l = l.take k ++ x :: l.drop (k + 1) := by
    rw [← hget, ← List.drop_eq_getElem_cons hlt, List.take_append_drop]
  have hpx : p x = true := (hleft x (hget ▸ List.getElem_mem hlt)).mp hx
  have hpos : l.filter p ++ added =
      (l.take k).filter p ++ x :: ((l.drop (k + 1)).filter p ++ added) := by
    conv_lhs => rw [hsplit]
    rw [List.filter_append, List.filter_cons_of_pos hpx, List.append_assoc, List.cons_append]
  have hlen : (l.take k).length = k := List.length_take_of_le (Nat.le_of_lt hlt)
  calc (l.filter p ++ added)[k]? = some x
    _ ↔ k = ((l.take k).filter p).length := by
      rw [hpos] at hnodup' ⊢
      exact getElem?_eq_some_iff_of_append hnodup'
    _ ↔ ((l.take k).filter p).length = (l.take k).length := by rw [hlen, eq_comm]
    _ ↔ ∀ y ∈ l.take k, p y = true := List.length_filter_eq_length_iff
    _ ↔ ∀ y ∈ l.take k, y ∈ l.filter p ++ added :=
      forall₂_congr fun y hy => (hleft y (List.mem_of_mem_take hy)).symm

/-- A remembered position is right iff everything up to it stays, or its element is gone and
nothing has come to the position. -/
theorem Evolved.names_iff (h : Evolved l l') (hnodup' : l'.Nodup)
    (hk : l[k]? = some x) : Names l' k x ↔
      (∀ y ∈ l.take (k + 1), y ∈ l') ∨ (x ∉ l' ∧ l'.length ≤ k) := by
  have htake : l.take (k + 1) = l.take k ++ [x] := by
    rw [List.take_add_one, hk, Option.toList_some]
  unfold Names
  by_cases hx : x ∈ l'
  · simp only [htake, List.forall_mem_append, List.forall_mem_singleton, hx, not_true, false_and,
      or_false, and_true, forall_const, false_imp_iff]
    exact h.getElem?_eq_iff hnodup' hk hx
  · simp only [htake, List.forall_mem_append, List.forall_mem_singleton, hx, false_imp_iff,
      and_false, false_or, not_false_eq_true, true_and, forall_const, List.getElem?_eq_none_iff]

end Position
