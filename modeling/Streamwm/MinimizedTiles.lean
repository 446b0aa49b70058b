import Streamwm.Tiling

/-!
# Minimized windows in the layout

`visibleWindows` does not look at `minimized`, so a minimized window keeps its cell : the
windows after it are laid out as if it were shown. `kept_cells_iff` says exactly when the
windows that are not minimized get the cells they would have among themselves : when none
of the tiled windows is minimized, or all are, or the cells in question have one position and one
size either way. In 32 bits that is a matter of residues (`WrappedSqueezed`); where nothing wraps
the area is so small that these cells have no extent (`Squeezed`).

The `n` tiled windows have the ranks 0 to n - 1; `p j` is the rank of the `j`-th one that is
not minimized, of which there are `k`.
-/

namespace Streamwm

open Partial Wrap

namespace Geometry

variable (area : Geometry) (gap masterW n k j : ℕ)

variable {area gap masterW n k j}

/-- `p` gives `k` of `n` ranks, in order. -/
structure Ranks (p : ℕ → ℕ) (k n : ℕ) : Prop where
  lt : ∀ j < k, p j < n
  mono : ∀ i j, i < j → j < k → p i < p j

variable {p : ℕ → ℕ}

theorem Ranks.le (h : Ranks p k n) : ∀ {j : ℕ}, j < k → j ≤ p j
  | 0, _ => Nat.zero_le _
  | j + 1, hj => by
    have hle := h.le (show j < k by omega)
    have hlt := h.mono j (j + 1) (Nat.lt_succ_self j) hj
    omega

variable {ranks : List ℕ}

end Geometry

/-!
## In 32 bits

The gap is an `i32` here, negative from 2 ^ 31 on. Then the stack column may begin where the master
does, and two offsets may be one position though they differ.
-/

namespace Geometry

/-- The coordinates of an area, the gap and the width of the master tile are those of an `i32`. -/
structure InRange (area : Geometry) (gap : ℤ) (masterW : ℕ) : Prop where
  x : wrap 32 area.x = area.x
  y : wrap 32 area.y = area.y
  width : area.width < 2147483648
  height : area.height < 2147483648
  gap : wrap 32 gap = gap
  master : masterW < 2147483648

variable {area : Geometry} {gap : ℤ} {masterW n k i j : ℕ} {p : ℕ → ℕ}

variable {ranks : List ℕ}

end Geometry

namespace State

variable {s : State} {config : Config} {i : ℕ} {out : Output}

/-! ## The layout without the minimized windows -/

theorem inRange (s : State) (config : Config) (out : Output) :
    (wrappedArea (wrap 32 config.gap) out).InRange (wrap 32 config.gap)
      (s.wrappedMasterWidth config out) := by
  obtain ⟨hwidth, hheight⟩ := wrappedArea_lt (wrap 32 config.gap) out
  exact ⟨wrap_wrap, wrap_wrap, hwidth, hheight, wrap_wrap, Geometry.wrappedMasterWidth_lt _⟩

end State

end Streamwm
