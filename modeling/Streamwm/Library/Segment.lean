import Mathlib.Algebra.Order.Group.Basic
import Mathlib.Algebra.Order.Group.MinMax

/-!
# A segment slid into another one

The segment of length `w` at `x` against the segment of length `n` at `a`, in any linearly
ordered group. `slide` is the position nearest to `x` at which it lies inside, or `a` when it
is too long. A segment is at rest (`Rests`) exactly where sliding leaves it. `inside_slide_iff`
says when another length, measured from the position found for `w`, stays inside.
-/

namespace Segment

variable {α : Type*} [AddCommGroup α] [LinearOrder α] {x w v a n : α}

/-- The segment of length `w` at `x` is part of the one of length `n` at `a`. -/
def Inside (x w a n : α) : Prop :=
  a ≤ x ∧ x + w ≤ a + n

/-- Inside if it fits, else with the same origin. -/
def Rests (x w a n : α) : Prop :=
  (w ≤ n → Inside x w a n) ∧ (n < w → x = a)

/-- Slide a segment inside, as far as that is possible. -/
def slide (x w a n : α) : α :=
  max a (min x (a + (n - min w n)))

theorem le_slide : a ≤ slide x w a n :=
  le_max_left _ _

theorem slide_of_fits (h : w ≤ n) : slide x w a n = max a (min x (a + n - w)) := by
  rw [slide, min_eq_left h, add_sub_assoc]

theorem slide_of_lt (h : n < w) : slide x w a n = a := by
  rw [slide, min_eq_right h.le, sub_self, add_zero]
  exact max_eq_left (min_le_right x a)

variable [IsOrderedAddMonoid α]

theorem inside_slide (h : w ≤ n) : Inside (slide x w a n) w a n := by
  have ha : a ≤ a + n - w := le_sub_iff_add_le.mpr (by gcongr)
  refine ⟨le_slide, le_sub_iff_add_le.mp ?_⟩
  rw [slide_of_fits h]
  exact max_le ha (min_le_right _ _)

theorem rests_slide : Rests (slide x w a n) w a n :=
  ⟨inside_slide, slide_of_lt⟩

/-- What is at rest stays. -/
theorem slide_of_rests (h : Rests x w a n) : slide x w a n = x := by
  rcases le_or_gt w n with hw | hw
  · obtain ⟨ha, hx⟩ := h.1 hw
    rw [slide_of_fits hw, min_eq_left (le_sub_iff_add_le.mpr hx), max_eq_right ha]
  · rw [slide_of_lt hw, h.2 hw]

theorem slide_slide : slide (slide x w a n) w a n = slide x w a n :=
  slide_of_rests rests_slide

/-- A length that fits stays inside at the position found for another one iff it is no
longer than this one, or did not reach out in the first place. -/
theorem inside_slide_iff (hv : v ≤ n) :
    Inside (slide x w a n) v a n ↔ v ≤ w ∨ x + v ≤ a + n := by
  have hav : a ≤ a + n - v := le_sub_iff_add_le.mpr (by gcongr)
  constructor
  · rintro ⟨-, hin⟩
    by_contra hnot
    push Not at hnot
    obtain ⟨hwv, hx⟩ := hnot
    -- the position found is past the last one at which `v` fits
    have hlast : a + n - v < min x (a + n - w) :=
      lt_min (sub_lt_iff_lt_add.mpr hx) (by gcongr)
    rw [slide_of_fits (hwv.le.trans hv), ← le_sub_iff_add_le] at hin
    exact absurd ((le_max_right _ _).trans hin) (not_le.mpr hlast)
  · intro h
    refine ⟨le_slide, le_sub_iff_add_le.mp (max_le hav ?_)⟩
    rcases h with hvw | hx
    · refine (min_le_right _ _).trans ?_
      rw [add_sub_assoc]
      have hmin : v ≤ min w n := le_min hvw hv
      gcongr
    · exact (min_le_left _ _).trans (le_sub_iff_add_le.mpr hx)

end Segment
