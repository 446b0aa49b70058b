import Mathlib.Data.List.Sort

/-!
# Rolling windows over an ordered list

A list of instants is kept in order and its expired entries are dropped from the front
only. `dropWhile_eq_filter` : where an entry that is expired makes every earlier one
expired, that leaves exactly the entries that are not expired. `countP_le_of_spaced` :
where every entry lies a window after the one `n` places before it, no window holds
more than `n` entries.
-/

namespace RollingWindow

variable {α : Type*}

/-- Every entry of `l` is at least `shift` of the entry `n` places before it. -/
def Spaced [LE α] (shift : α → α) (n : ℕ) (l : List α) : Prop :=
  ∀ j x y, l[j]? = some x → l[j + n]? = some y → shift x ≤ y

variable [LinearOrder α] {shift : α → α} {n : ℕ} {l : List α}

/-- On an ordered list, dropping expired entries from the front drops all of them. -/
theorem dropWhile_eq_filter {p : α → Bool} (hp : ∀ a b, a ≤ b → p b = true → p a = true) :
    ∀ {l : List α}, l.Pairwise (· ≤ ·) → l.dropWhile p = l.filter (fun a => !p a)
  | [], _ => by simp
  | a :: l, h => by
    obtain ⟨hal, hl⟩ := List.pairwise_cons.mp h
    by_cases ha : p a = true
    · rw [List.dropWhile_cons_of_pos ha, dropWhile_eq_filter hp hl,
        List.filter_cons_of_neg (by simp [ha])]
    · rw [List.dropWhile_cons_of_neg ha, List.filter_eq_self.mpr]
      intro b hb
      rcases List.mem_cons.mp hb with rfl | hb
      · simpa using ha
      · have := mt (hp a b (hal b hb)) ha
        simpa using this

/-- More than `n` entries are not expired exactly when the `n`-th newest one is not. -/
theorem lt_length_filter_iff {p : α → Bool} (hp : ∀ a b, a ≤ b → p b = true → p a = true)
    (hl : l.Pairwise (· ≤ ·)) (n : ℕ) :
    n < (l.filter fun a => !p a).length ↔
      n < l.length ∧ ∃ a, l[l.length - 1 - n]? = some a ∧ p a = false := by
  rw [← dropWhile_eq_filter hp hl]
  have hlen : (l.takeWhile p).length + (l.dropWhile p).length = l.length := by
    rw [← List.length_append, List.takeWhile_append_dropWhile]
  have hget (i : ℕ) : l[i]? = (l.takeWhile p ++ l.dropWhile p)[i]? := by
    rw [List.takeWhile_append_dropWhile]
  constructor
  · intro hn
    have hlt : l.length - 1 - n < l.length := by omega
    refine ⟨by omega, _, List.getElem?_eq_getElem hlt, ?_⟩
    have hmem : l[l.length - 1 - n] ∈ l.dropWhile p := by
      have h := hget (l.length - 1 - n)
      rw [List.getElem?_append_right (by omega), List.getElem?_eq_getElem hlt] at h
      exact List.mem_of_getElem? h.symm
    rw [dropWhile_eq_filter hp hl] at hmem
    simpa using (List.mem_filter.mp hmem).2
  · rintro ⟨hn, a, ha, hpa⟩
    by_contra hge
    rw [hget, List.getElem?_append_left (by omega)] at ha
    have hall := List.all_eq_true.mp (List.all_takeWhile (p := p) (l := l)) a
      (List.mem_of_getElem? ha)
    rw [hpa] at hall
    exact Bool.false_ne_true hall

theorem Spaced.of_cons {a : α} (h : Spaced shift n (a :: l)) : Spaced shift n l := by
  intro j x y hx hy
  refine h (j + 1) x y (by simpa using hx) ?_
  rw [show j + 1 + n = (j + n) + 1 by omega]
  simpa using hy

/-- A window `a ≤ · < shift a` holds at most `n` entries of a list spaced by `n`. -/
theorem countP_le_of_spaced (hshift : Monotone shift) (a : α) :
    ∀ {l : List α}, l.Pairwise (· ≤ ·) → Spaced shift n l →
      l.countP (fun r => decide (a ≤ r ∧ r < shift a)) ≤ n
  | [], _, _ => by simp
  | x :: l, hl, hs => by
    by_cases hx : a ≤ x ∧ x < shift a
    · -- the entries from place `n` on are past the window that starts at `x`
      rw [← List.take_append_drop n (x :: l), List.countP_append]
      have hdrop : ((x :: l).drop n).countP (fun r => decide (a ≤ r ∧ r < shift a)) = 0 := by
        rw [List.countP_eq_zero]
        intro r hr
        obtain ⟨j, hj⟩ := List.mem_iff_getElem?.mp hr
        rw [List.getElem?_drop] at hj
        obtain ⟨hlen, hget⟩ := List.getElem?_eq_some_iff.mp hj
        have hxn : shift x ≤ (x :: l)[n] :=
          hs 0 x _ (by simp) (by rw [Nat.zero_add]; exact List.getElem?_eq_getElem (by omega))
        have hnr : (x :: l)[n] ≤ r := by
          rw [← hget]
          rcases Nat.eq_zero_or_pos j with rfl | hpos
          · simp
          · exact List.pairwise_iff_getElem.mp hl n (n + j) (by omega) hlen (by omega)
        have hpast : shift a ≤ r := (hshift hx.1).trans (hxn.trans hnr)
        simp [not_lt.mpr hpast]
      rw [hdrop, Nat.add_zero]
      exact List.countP_le_length.trans (List.length_take_le n _)
    · rw [List.countP_cons_of_neg (by simpa using hx)]
      exact countP_le_of_spaced hshift a (List.pairwise_cons.mp hl).2 hs.of_cons

end RollingWindow
