import Streamwm.Layout

/-!
# The tiles in 32 bits

What `computeOutput` computes, operation by operation in `i32` and `u32`, in closed form :
`Geometry.wrappedCell` wraps every coordinate once (`computeOutput_wrapped`). The gap is read as
an `i32`, so it is negative from 2 ^ 31 on.
-/

namespace Streamwm

open Wrap

theorem wrap_range (v : ℤ) : -2147483648 ≤ wrap 32 v ∧ wrap 32 v < 2147483648 := by
  have h := fits_wrap (w := 32) (a := v)
  norm_num at h
  omega

theorem wrap_eq_self {v : ℤ} (hlo : -2147483648 ≤ v) (hhi : v < 2147483648) : wrap 32 v = v :=
  wrap_of_fits (by norm_num; omega) (by norm_num; omega)

namespace Geometry

variable (area : Geometry) (gap : ℤ) (masterW n j : ℕ)

/-- The height of a stack tile of `n` windows. -/
def wrappedHeight : ℕ :=
  (area.height - ((n - 1) % 4294967296 - 1) * asU32 gap % 4294967296) / max ((n - 1) % 4294967296) 1

/-- How far below the master's upper edge the stack tile at place `j` of `n` windows starts. -/
def wrappedOffset : ℤ :=
  j * (area.wrappedHeight gap n + gap)

/-- The height of the stack tile at place `j` of `n` windows : the last one reaches the bottom. -/
def wrappedTileHeight : ℕ :=
  if j + 1 = n - 1 then (wrap 32 (area.height - gap - area.wrappedOffset gap n j)).toNat
  else area.wrappedHeight gap n

/-- The stack tile at place `j` of `n` windows. -/
def wrappedTile : Geometry :=
  { x := wrap 32 (area.x + masterW + gap), y := wrap 32 (area.y + area.wrappedOffset gap n j)
    width := (wrap 32 (area.width - masterW - gap)).toNat
    height := area.wrappedTileHeight gap n j }

/-- The cell of the window of rank `j` among `n`. -/
def wrappedCell : Geometry :=
  if n = 1 then area
  else if j = 0 then { x := area.x, y := area.y, width := masterW, height := area.height }
  else area.wrappedTile gap masterW n (j - 1)

/-- The width of the master tile. -/
def wrappedMasterWidth (masterFraction : ℚ) : ℕ :=
  (max (-2147483648) (min (truncate (area.width * masterFraction)) 2147483647)).toNat

variable {area gap masterW n j}

theorem wrappedCell_zero (hn : 2 ≤ n) : area.wrappedCell gap masterW n 0 =
    { x := area.x, y := area.y, width := masterW, height := area.height } := by
  rw [wrappedCell, if_neg (by omega), if_pos rfl]

theorem wrappedCell_succ (hn : 2 ≤ n) :
    area.wrappedCell gap masterW n (j + 1) = area.wrappedTile gap masterW n j := by
  rw [wrappedCell, if_neg (by omega), if_neg (Nat.succ_ne_zero j), Nat.add_sub_cancel]

theorem wrappedMasterWidth_lt (f : ℚ) : area.wrappedMasterWidth f < 2147483648 := by
  unfold wrappedMasterWidth
  omega

end Geometry

/-- The operations on a stack tile wrap it once. -/
theorem stackTile_wrapping {area : Geometry} {gap : ℤ} {masterW n j : ℕ} :
    stackTile .wrapping area (wrap 32 (area.y + wrap 32 area.height)) gap
        (wrap 32 (wrap 32 (area.x + wrap 32 masterW) + gap))
        (wrap 32 (wrap 32 (wrap 32 area.width - wrap 32 masterW) - gap)).toNat
        (area.wrappedHeight gap n) n j =
      area.wrappedTile gap masterW n j := by
  have hheight : area.y + area.height - gap - (area.y + j * (area.wrappedHeight gap n + gap)) =
      area.height - gap - j * (area.wrappedHeight gap n + gap) := by
    ring
  simp only [stackTile, Arith.wrapping, Geometry.wrappedTile, Geometry.wrappedTileHeight,
    Geometry.wrappedOffset, wrap_add_wrap, wrap_wrap_add, wrap_sub_wrap, wrap_wrap_sub,
    wrap_mul_wrap, wrap_wrap_mul, hheight]

theorem computeTiling_wrapping (ids : List ℕ) (area : Geometry) (gap : ℤ) (masterFraction : ℚ) :
    computeTiling .wrapping ids area (wrap 32 (area.y + wrap 32 area.height)) gap masterFraction =
      ids.mapIdx fun j id =>
        (id, area.wrappedCell gap (area.wrappedMasterWidth masterFraction) ids.length j) := by
  match ids with
  | [] => rfl
  | [id] => rfl
  | id :: id' :: ids =>
    have hn : 2 ≤ (id :: id' :: ids).length := by simp
    have hstack : ∀ j, area.wrappedCell gap (area.wrappedMasterWidth masterFraction)
          (id :: id' :: ids).length (j + 1) =
        stackTile .wrapping area (wrap 32 (area.y + wrap 32 area.height)) gap
          (wrap 32 (wrap 32 (area.x + wrap 32 (area.wrappedMasterWidth masterFraction)) + gap))
          (wrap 32 (wrap 32 (wrap 32 area.width -
            wrap 32 (area.wrappedMasterWidth masterFraction)) - gap)).toNat
          (area.wrappedHeight gap (id :: id' :: ids).length) (id :: id' :: ids).length (0 + j) := by
      intro j
      rw [Geometry.wrappedCell_succ hn, Nat.zero_add, stackTile_wrapping]
    rw [computeTiling, stackTiles_eq]
    · conv_rhs => rw [List.mapIdx_cons, Geometry.wrappedCell_zero hn]
      simp only [hstack]
      simp only [Arith.wrapping, Geometry.wrappedHeight, Geometry.wrappedMasterWidth]
    · simp

/-- The area of an output without the gap along its edges. -/
def wrappedArea (gap : ℤ) (o : Output) : Geometry :=
  { x := wrap 32 ((outputArea o).1 + gap), y := wrap 32 ((outputArea o).2.1 + gap)
    width := (wrap 32 ((outputArea o).2.2.1 - gap * 2)).toNat
    height := (wrap 32 ((outputArea o).2.2.2 - gap * 2)).toNat }

/-- A small area within the range of an `i32`. -/
theorem wrappedArea_lt (gap : ℤ) (o : Output) : (wrappedArea gap o).width < 2147483648 ∧
    (wrappedArea gap o).height < 2147483648 := by
  have hwidth := wrap_range ((outputArea o).2.2.1 - gap * 2)
  have hheight := wrap_range ((outputArea o).2.2.2 - gap * 2)
  simp only [wrappedArea]
  omega

namespace State

variable {s : State} {config : Config} {i : ℕ} {out : Output}

/-- The width of the master tile of an output. -/
def wrappedMasterWidth (s : State) (config : Config) (out : Output) : ℕ :=
  (wrappedArea (wrap 32 config.gap) out).wrappedMasterWidth (s.masterFraction out.activeTag)

/-- The tiled windows of an output get the wrapped cells of its inset area, in their order. -/
theorem computeOutput_wrapped (hout : s.outputs[i]? = some out) :
    s.computeOutput config i = some (((s.tiledWindows i out).map (·.id)).mapIdx fun j id =>
      (id, (wrappedArea (wrap 32 config.gap) out).wrappedCell (wrap 32 config.gap)
        (s.wrappedMasterWidth config out) (s.tiledWindows i out).length j)) := by
  have hfraction : s.activeMasterFraction i = s.masterFraction out.activeTag := by
    simp [activeMasterFraction, hout]
  simp only [computeOutput, computeOutputIn, hout, visibleWindows_eq hout, Option.bind_eq_bind,
    Option.bind_some, Option.pure_def, hfraction]
  split_ifs with hempty
  · simp [List.map_eq_nil_iff.mp (List.isEmpty_iff.mp hempty)]
  · have htiling := computeTiling_wrapping ((s.tiledWindows i out).map (·.id))
      (wrappedArea (wrap 32 config.gap) out) (wrap 32 config.gap) (s.masterFraction out.activeTag)
    rw [List.length_map] at htiling
    rw [wrappedMasterWidth, ← htiling]
    simp only [Arith.wrapping, wrappedArea, wrap_sub_wrap, wrap_wrap_sub]

end State

end Streamwm
