import Mathlib.Data.List.Range
import Streamwm.WrappedTiles

/-!
# The tiles of an output

With integers taken exactly, `computeOutputIn` insets the area of the output by the gap and
hands the window of rank `j` among `n` the cell `Geometry.cell` (`computeOutput_cells`) : the
master on the left, the stack in one column on the right.

The inset is taken twice off the bottom of the stack : `computeTiling` ends the last tile
one gap above the edge it is passed, which is the edge of the inset area already. So the
stack ends where the master does iff there is no gap, or the gaps between the stack tiles
leave them no height (`stack_ends_with_master_iff`). All tiles lie in the area of the output
iff the gaps alone fit in it (`tiles_inside_iff`).

On an output that is not too large for its gaps and its windows (`Fits`) nothing wraps around, and
these are the tiles in 32 bits as well (`computeOutput_of_fits`).
-/

namespace Streamwm

open Partial Wrap

section

variable {area : Geometry} {areaBottom gap stackX : ℤ} {stackW stackH n : ℕ}

theorem stackTile_exact {k : ℕ} : stackTile .exact area areaBottom gap stackX stackW stackH n k =
    { x := stackX, y := area.y + k * (stackH + gap), width := stackW
      height := if k + 1 = n - 1 then (areaBottom - gap - (area.y + k * (stackH + gap))).toNat
        else stackH } :=
  rfl

end

namespace Geometry

variable (area : Geometry)

/-- The lower edge. -/
def bottom : ℤ :=
  area.y + area.height

/-- The rectangle lies in an area. -/
def Inside (a : ℤ × ℤ × ℕ × ℕ) : Prop :=
  a.1 ≤ area.x ∧ area.x + area.width ≤ a.1 + a.2.2.1 ∧
    a.2.1 ≤ area.y ∧ area.y + area.height ≤ a.2.1 + a.2.2.2

instance (a : ℤ × ℤ × ℕ × ℕ) : Decidable (area.Inside a) :=
  inferInstanceAs (Decidable (_ ∧ _ ∧ _ ∧ _))

/-- The width of the master tile. -/
def masterWidth (masterFraction : ℚ) : ℕ :=
  (truncate (area.width * masterFraction)).toNat

/-- The height of a stack tile of `n` windows. -/
def stackHeight (gap n : ℕ) : ℕ :=
  (area.height - (n - 2) * gap) / (n - 1)

/-- The cell of the window of rank `j` among `n`. -/
def cell (gap masterW n j : ℕ) : Geometry :=
  if n = 1 then area
  else if j = 0 then { x := area.x, y := area.y, width := masterW, height := area.height }
  else stackTile .exact area area.bottom gap (area.x + masterW + gap) (area.width - masterW - gap)
    (area.stackHeight gap n) n (j - 1)

end Geometry

/-- The stack starts and ends where the master does, the gap above `limit`; its tiles are a gap
apart. -/
structure Aligned (gap : ℕ) (limit : ℤ) (master : Geometry) (stack : List Geometry) : Prop where
  top : ∀ g, stack.head? = some g → g.y = master.y
  spaced : ∀ (j : ℕ) (g h : Geometry), stack[j]? = some g → stack[j + 1]? = some h →
    h.y = g.bottom + gap
  ends : ∀ g, stack.getLast? = some g → g.bottom = master.bottom
  inset : master.bottom + gap = limit

namespace Geometry

variable {area : Geometry} {gap masterW n k : ℕ}

theorem cell_zero (hn : 2 ≤ n) : area.cell gap masterW n 0 =
    { x := area.x, y := area.y, width := masterW, height := area.height } := by
  rw [cell, if_neg (by omega), if_pos rfl]

theorem cell_succ (hn : 2 ≤ n) : area.cell gap masterW n (k + 1) =
    stackTile .exact area area.bottom gap (area.x + masterW + gap) (area.width - masterW - gap)
      (area.stackHeight gap n) n k := by
  rw [cell, if_neg (by omega), if_neg (Nat.succ_ne_zero k), Nat.add_sub_cancel]

theorem bottom_zero (hn : 2 ≤ n) : (area.cell gap masterW n 0).bottom = area.bottom := by
  rw [cell_zero hn]
  rfl

variable (area gap) in
/-- The stack tiles with their gaps fit in the area, if the gaps do. -/
theorem stackHeight_le (hn : 2 ≤ n) (hfit : (n - 2) * gap ≤ area.height) :
    (n - 2) * area.stackHeight gap n + area.stackHeight gap n + (n - 2) * gap ≤ area.height := by
  have hle : area.stackHeight gap n * (n - 1) ≤ area.height - (n - 2) * gap := Nat.div_mul_le_self ..
  have hsplit : area.stackHeight gap n * (n - 1) =
      (n - 2) * area.stackHeight gap n + area.stackHeight gap n := by
    rw [show n - 1 = n - 2 + 1 by omega, Nat.mul_succ, Nat.mul_comm]
  omega

/-- The upper edge of the last stack tile. -/
theorem y_last (hn : 2 ≤ n) : (area.cell gap masterW n (n - 1)).y =
    area.y + ((n - 2) * area.stackHeight gap n + (n - 2) * gap : ℕ) := by
  rw [show n - 1 = n - 2 + 1 by omega, cell_succ hn]
  simp only [stackTile_exact]
  push_cast
  ring

variable (area gap masterW) in
theorem height_last (hn : 2 ≤ n) : (area.cell gap masterW n (n - 1)).height =
    (area.bottom - gap - (area.cell gap masterW n (n - 1)).y).toNat := by
  rw [show n - 1 = n - 2 + 1 by omega, cell_succ hn]
  simp only [stackTile_exact]
  rw [if_pos (by omega)]

theorem height_of_lt (hn : 2 ≤ n) (hk : k + 2 < n) :
    (area.cell gap masterW n (k + 1)).height = area.stackHeight gap n := by
  rw [cell_succ hn]
  simp only [stackTile_exact]
  rw [if_neg (by omega)]

theorem y_succ (hn : 2 ≤ n) : (area.cell gap masterW n (k + 1)).y =
    area.y + k * (area.stackHeight gap n + gap) := by
  rw [cell_succ hn]
  rfl

/-- The stack ends where the master does iff there is no gap, or the gaps between its tiles
take all its height. -/
theorem aligned_iff (masterW : ℕ) (hn : 2 ≤ n) (hfit : (n - 2) * gap ≤ area.height) :
    Aligned gap (area.bottom + gap) (area.cell gap masterW n 0)
        ((List.range (n - 1)).map fun k => area.cell gap masterW n (k + 1)) ↔
      gap = 0 ∨ (n - 2) * gap = area.height := by
  have hlast : ((List.range (n - 1)).map fun k => area.cell gap masterW n (k + 1)).getLast? =
      some (area.cell gap masterW n (n - 1)) := by
    rw [List.getLast?_map, List.getLast?_range, if_neg (by omega), Option.map_some]
    rw [show n - 1 - 1 + 1 = n - 1 by omega]
  have hends : (area.cell gap masterW n (n - 1)).bottom = (area.cell gap masterW n 0).bottom ↔
      gap = 0 ∨ (n - 2) * gap = area.height := by
    have hle := stackHeight_le _ _ hn hfit
    rw [bottom_zero hn, bottom, height_last _ _ _ hn, y_last hn, bottom]
    have hnil : area.stackHeight gap n = 0 → (n - 2) * area.stackHeight gap n = 0 := fun h => by
      rw [h, Nat.mul_zero]
    omega
  constructor
  · rintro ⟨-, -, hend, -⟩
    exact hends.mp (hend _ hlast)
  · intro h
    refine ⟨fun g hg => ?_, fun j g h hg hh => ?_, fun g hg => ?_, ?_⟩
    · rw [List.head?_map, List.head?_range, if_neg (by omega), Option.map_some] at hg
      obtain rfl := Option.some.inj hg
      rw [y_succ hn, cell_zero hn]
      simp
    · rw [List.getElem?_map, Option.map_eq_some_iff] at hg hh
      obtain ⟨k, hk, rfl⟩ := hg
      obtain ⟨k', hk', rfl⟩ := hh
      obtain ⟨-, rfl⟩ := List.getElem?_eq_some_iff.mp hk
      obtain ⟨hlt, rfl⟩ := List.getElem?_eq_some_iff.mp hk'
      simp only [List.getElem_range]
      rw [List.length_range] at hlt
      rw [bottom, y_succ hn, y_succ hn, height_of_lt hn (by omega)]
      push_cast
      ring
    · rw [hlast] at hg
      obtain rfl := Option.some.inj hg
      exact hends.mpr h
    · rw [bottom_zero hn]

end Geometry

/-- The gaps of `n` windows fit in an area : along its edges, and between the tiles. -/
def GapsFit (gap n width height : ℕ) : Prop :=
  n = 0 ∨ min n 2 * gap ≤ width ∧ max (n - 1) 1 * gap ≤ height

instance (gap n width height : ℕ) : Decidable (GapsFit gap n width height) :=
  inferInstanceAs (Decidable (_ ∨ _))

/-- The area of an output without the gap along its edges. -/
def insetArea (gap : ℕ) (o : Output) : Geometry :=
  { x := (outputArea o).1 + gap, y := (outputArea o).2.1 + gap
    width := (outputArea o).2.2.1 - 2 * gap, height := (outputArea o).2.2.2 - 2 * gap }

theorem insetArea_fields (gap : ℕ) (out : Output) :
    (insetArea gap out).x = (outputArea out).1 + gap ∧
      (insetArea gap out).y = (outputArea out).2.1 + gap ∧
      (insetArea gap out).width = (outputArea out).2.2.1 - 2 * gap ∧
      (insetArea gap out).height = (outputArea out).2.2.2 - 2 * gap :=
  ⟨rfl, rfl, rfl, rfl⟩

theorem computeTiling_eq (ids : List ℕ) (area : Geometry) {gap : ℕ} (masterFraction : ℚ)
    (hgap : gap < 2 ^ 32) : computeTiling .exact ids area area.bottom gap masterFraction =
      ids.mapIdx fun j id => (id, area.cell gap (area.masterWidth masterFraction) ids.length j) := by
  have hcast : asU32 gap = gap := by
    unfold asU32
    omega
  match ids with
  | [] => rfl
  | [id] => rfl
  | id :: id' :: ids =>
    have hn : (id :: id' :: ids).length ≠ 1 := by simp
    have hw : ∀ w m : ℕ, ((w : ℤ) - m - gap).toNat = w - m - gap := fun w m => by omega
    rw [computeTiling, stackTiles_eq, List.mapIdx_cons]
    · simp only [Geometry.cell, Arith.exact, if_neg hn, Nat.zero_add, hcast, hw]
      simp [Geometry.stackHeight, Geometry.masterWidth]
    · simp

/-! ## Nothing wraps -/

/-- No coordinate of the tiles of `n` windows of an output wraps around : the output lies within
the range of an `i32`, and so does what its gaps and its windows take. -/
structure Fits (gap n : ℕ) (out : Output) : Prop where
  count : n < 2147483648
  left : -2147483648 ≤ (outputArea out).1
  right : (outputArea out).1 + (outputArea out).2.2.1 + 2 * gap < 2147483648
  upper : -2147483648 ≤ (outputArea out).2.1
  lower : (outputArea out).2.1 + (outputArea out).2.2.2 + ((n + 2) * gap : ℕ) < 2147483648
  width : (outputArea out).2.2.1 + 2 * gap < 2147483648
  height : (outputArea out).2.2.2 + (n + 2) * gap < 2147483648

namespace Fits

variable {gap n k : ℕ} {out : Output}

/-- Fewer windows fit as well. -/
theorem mono (h : Fits gap n out) (hk : k ≤ n) : Fits gap k out := by
  have hgaps : (k + 2) * gap ≤ (n + 2) * gap := Nat.mul_le_mul_right gap (by omega)
  obtain ⟨hcount, hleft, hright, hupper, hlower, hwidth, hheight⟩ := h
  exact ⟨by omega, hleft, hright, hupper, by omega, hwidth, by omega⟩

theorem wrap_gap (h : Fits gap n out) : wrap 32 (gap : ℤ) = gap := by
  have hwidth := h.width
  exact wrap_eq_self (by omega) (by omega)

theorem wrappedArea_eq (h : Fits gap n out) : wrappedArea gap out = insetArea gap out := by
  have hgaps : 2 * gap ≤ (n + 2) * gap := Nat.mul_le_mul_right gap (by omega)
  obtain ⟨-, hleft, hright, hupper, hlower, hwidth, hheight⟩ := h
  rw [wrappedArea, wrap_eq_self (by omega) (by omega), wrap_eq_self (by omega) (by omega),
    wrap_eq_self (by omega) (by omega), wrap_eq_self (by omega) (by omega), insetArea]
  simp only [Geometry.mk.injEq, true_and]
  omega

variable (gap) in
/-- The stack tiles of an area take no more than its height and their gaps. -/
theorem offset_le (area : Geometry) {j : ℕ} (hj : j + 2 ≤ n) :
    j * area.stackHeight gap n + area.stackHeight gap n ≤ area.height ∧ j * gap ≤ (n - 2) * gap := by
  have hle : area.stackHeight gap n * (n - 1) ≤ area.height - (n - 2) * gap := Nat.div_mul_le_self ..
  have hmono : (j + 1) * area.stackHeight gap n ≤ (n - 1) * area.stackHeight gap n :=
    Nat.mul_le_mul_right _ (by omega)
  rw [Nat.succ_mul, Nat.mul_comm (n - 1)] at hmono
  exact ⟨by omega, Nat.mul_le_mul_right gap (by omega)⟩

theorem wrappedHeight_eq (h : Fits gap n out) (hn : 2 ≤ n) (area : Geometry) :
    area.wrappedHeight gap n = area.stackHeight gap n := by
  have hcount := h.count
  have hheight := h.height
  have hgaps : (n - 2) * gap ≤ (n + 2) * gap := Nat.mul_le_mul_right gap (by omega)
  have hone : gap ≤ (n + 2) * gap := Nat.le_mul_of_pos_left gap (by omega)
  have hcast : asU32 gap = gap := by
    unfold asU32
    omega
  have hmod : (n - 1) % 4294967296 = n - 1 := Nat.mod_eq_of_lt (by omega)
  have hmod' : (n - 2) * gap % 4294967296 = (n - 2) * gap := Nat.mod_eq_of_lt (by omega)
  rw [Geometry.wrappedHeight, Geometry.stackHeight, hcast, hmod, show n - 1 - 1 = n - 2 by omega,
    hmod', max_eq_left (by omega)]

/-- The stack tiles are those of exact integers. -/
theorem wrappedTile_eq (h : Fits gap n out) {masterW j : ℕ}
    (hm : masterW ≤ (insetArea gap out).width) (hj : j + 2 ≤ n) :
    (insetArea gap out).wrappedTile gap masterW n j =
      (insetArea gap out).cell gap masterW n (j + 1) := by
  have hn : 2 ≤ n := by omega
  have hoffset : (j : ℤ) * ((insetArea gap out).stackHeight gap n + gap) =
      (j * (insetArea gap out).stackHeight gap n : ℕ) + (j * gap : ℕ) := by
    push_cast
    ring
  have hgaps : (n + 2) * gap = (n - 2) * gap + 4 * gap := by
    rw [← Nat.add_mul, show n - 2 + 4 = n + 2 by omega]
  obtain ⟨hstack, hbelow⟩ := offset_le gap (insetArea gap out) hj
  obtain ⟨hx, hy, hwidth, hheight⟩ := insetArea_fields gap out
  rw [Geometry.cell_succ hn, stackTile_exact, Geometry.wrappedTile,
    Geometry.wrappedTileHeight, Geometry.wrappedOffset, h.wrappedHeight_eq hn, hoffset]
  obtain ⟨-, hleft, hright, hupper, hlower, hw, hh⟩ := h
  generalize j * (insetArea gap out).stackHeight gap n = high at *
  rw [wrap_eq_self (by omega) (by omega), wrap_eq_self (by omega) (by omega),
    wrap_eq_self (by omega) (by omega), wrap_eq_self (by omega) (by omega)]
  simp only [Geometry.mk.injEq, true_and, Geometry.bottom]
  split_ifs <;> omega

/-- The cells are those of exact integers. -/
theorem wrappedCell_eq (h : Fits gap n out) {masterW j : ℕ}
    (hm : masterW ≤ (insetArea gap out).width) (hj : j < n) :
    (insetArea gap out).wrappedCell gap masterW n j = (insetArea gap out).cell gap masterW n j := by
  cases j with
  | zero => rfl
  | succ j => rw [Geometry.wrappedCell_succ (by omega), h.wrappedTile_eq hm (by omega)]

theorem wrappedMasterWidth_eq (h : Fits gap n out) {f : ℚ}
    (hm : (insetArea gap out).masterWidth f ≤ (insetArea gap out).width) :
    (insetArea gap out).wrappedMasterWidth f = (insetArea gap out).masterWidth f := by
  have hwidth := h.width
  obtain ⟨-, -, hinset, -⟩ := insetArea_fields gap out
  simp only [Geometry.wrappedMasterWidth, Geometry.masterWidth] at hm ⊢
  omega

end Fits

namespace Geometry

variable {out : Output} {gap masterW n k : ℕ}

variable (out gap masterW) in
/-- The last stack tile starts in the area iff the gaps above it fit. -/
theorem y_last_le_iff (hn : 2 ≤ n) :
    ((insetArea gap out).cell gap masterW n (n - 1)).y ≤
        (outputArea out).2.1 + (outputArea out).2.2.2 ↔ (n - 1) * gap ≤ (outputArea out).2.2.2 := by
  have hsplit : (n - 1) * gap = (n - 2) * gap + gap := by
    rw [show n - 1 = n - 2 + 1 by omega, Nat.succ_mul]
  obtain ⟨-, hy, -, hheight⟩ := insetArea_fields gap out
  rw [y_last hn, hsplit, hy]
  rcases le_or_gt ((n - 2) * gap) (insetArea gap out).height with hfit | hfit
  · have hle := stackHeight_le _ _ hn hfit
    omega
  · have hzero : (insetArea gap out).stackHeight gap n = 0 := by
      rw [stackHeight, Nat.sub_eq_zero_of_le hfit.le, Nat.zero_div]
    rw [hzero, Nat.mul_zero]
    omega

theorem y_le_last (hn : 2 ≤ n) (hk : k + 2 ≤ n) {area : Geometry} :
    (area.cell gap masterW n (k + 1)).y ≤ (area.cell gap masterW n (n - 1)).y := by
  rw [show n - 1 = n - 2 + 1 by omega, y_succ hn, y_succ hn]
  have hmono : (k : ℤ) * (area.stackHeight gap n + gap) ≤
      (n - 2 : ℕ) * (area.stackHeight gap n + gap) :=
    mul_le_mul_of_nonneg_right (by omega) (by omega)
  omega

/-- A stack tile before the last ends above it. -/
theorem bottom_le_last (hn : 2 ≤ n) (hk : k + 2 < n) {area : Geometry} :
    (area.cell gap masterW n (k + 1)).bottom ≤ (area.cell gap masterW n (n - 1)).y := by
  have hnext : (area.cell gap masterW n (k + 1 + 1)).y ≤ (area.cell gap masterW n (n - 1)).y :=
    y_le_last hn (by omega)
  rw [y_succ hn] at hnext
  rw [bottom, y_succ hn, height_of_lt hn hk]
  push_cast at hnext
  linarith

/-- A window that has the inset area for itself. -/
theorem insetArea_inside_iff : (insetArea gap out).Inside (outputArea out) ↔
    gap ≤ (outputArea out).2.2.1 ∧ gap ≤ (outputArea out).2.2.2 := by
  obtain ⟨hx, hy, hw, hh⟩ := insetArea_fields gap out
  rw [Inside]
  omega

theorem master_inside (hn : 2 ≤ n) (hm : masterW ≤ (insetArea gap out).width)
    (hwidth : 2 * gap ≤ (outputArea out).2.2.1) (hheight : gap ≤ (outputArea out).2.2.2) :
    ((insetArea gap out).cell gap masterW n 0).Inside (outputArea out) := by
  obtain ⟨hx, hy, hw, hh⟩ := insetArea_fields gap out
  rw [cell_zero hn, Inside]
  dsimp only
  omega

/-- Every stack tile ends in the area when the gaps above the last one fit. -/
theorem bottom_le_area (hn : 2 ≤ n) (hk : k + 2 ≤ n)
    (hgaps : (n - 1) * gap ≤ (outputArea out).2.2.2) :
    ((insetArea gap out).cell gap masterW n (k + 1)).bottom ≤
      (outputArea out).2.1 + (outputArea out).2.2.2 := by
  have hend := (y_last_le_iff out gap masterW hn).mpr hgaps
  rcases Nat.lt_or_ge (k + 2) n with hlt | hge
  · exact (bottom_le_last hn hlt).trans hend
  · have hheight := height_last (insetArea gap out) gap masterW hn
    have hone : gap ≤ (n - 1) * gap := Nat.le_mul_of_pos_left gap (by omega)
    obtain ⟨-, hy, -, hh⟩ := insetArea_fields gap out
    rw [bottom, hy] at hheight
    rw [show k + 1 = n - 1 by omega, bottom, hheight]
    omega

theorem stack_tile_inside (hn : 2 ≤ n) (hk : k + 2 ≤ n)
    (hm : masterW ≤ (insetArea gap out).width) (hwidth : 2 * gap ≤ (outputArea out).2.2.1)
    (hgaps : (n - 1) * gap ≤ (outputArea out).2.2.2) :
    ((insetArea gap out).cell gap masterW n (k + 1)).Inside (outputArea out) := by
  obtain ⟨hx, hy, hw, -⟩ := insetArea_fields gap out
  have htop : (insetArea gap out).y ≤ ((insetArea gap out).cell gap masterW n (k + 1)).y := by
    rw [y_succ hn]
    have hnonneg : 0 ≤ (k : ℤ) * ((insetArea gap out).stackHeight gap n + gap) :=
      mul_nonneg (by omega) (by omega)
    omega
  refine ⟨?_, ?_, by omega, bottom_le_area hn hk hgaps⟩
  · rw [cell_succ hn]
    simp only [stackTile_exact]
    omega
  · rw [cell_succ hn]
    simp only [stackTile_exact]
    omega

/-- The stack column starts two gaps inside the area, its last tile below all gaps. -/
theorem gaps_of_last_inside (hn : 2 ≤ n)
    (h : ((insetArea gap out).cell gap masterW n (n - 1)).Inside (outputArea out)) :
    2 * gap ≤ (outputArea out).2.2.1 ∧ (n - 1) * gap ≤ (outputArea out).2.2.2 := by
  obtain ⟨hx, -⟩ := insetArea_fields gap out
  obtain ⟨-, hright, -, hlower⟩ := h
  have hcol : ((insetArea gap out).cell gap masterW n (n - 1)).x =
      (insetArea gap out).x + masterW + gap := by
    rw [show n - 1 = n - 2 + 1 by omega, cell_succ hn]
    rfl
  rw [hcol] at hright
  exact ⟨by omega, (y_last_le_iff out gap masterW hn).mp (by omega)⟩

/-- All tiles lie in the area of the output iff the gaps fit. -/
theorem cells_inside_iff (hm : masterW ≤ (insetArea gap out).width) :
    (∀ j < n, ((insetArea gap out).cell gap masterW n j).Inside (outputArea out)) ↔
      GapsFit gap n (outputArea out).2.2.1 (outputArea out).2.2.2 := by
  unfold GapsFit
  match n with
  | 0 => simp
  | 1 =>
    have hone : (insetArea gap out).cell gap masterW 1 0 = insetArea gap out := by
      rw [cell, if_pos rfl]
    rw [show max (1 - 1) 1 = 1 by rfl, show min 1 2 = 1 by rfl, one_mul, ← insetArea_inside_iff]
    constructor
    · exact fun hall => Or.inr (hone ▸ hall 0 Nat.one_pos)
    · rintro (hzero | hinside) j hj
      · omega
      · rwa [Nat.lt_one_iff.mp hj, hone]
  | n + 2 =>
    have hn : 2 ≤ n + 2 := by omega
    have hone : gap ≤ (n + 2 - 1) * gap := Nat.le_mul_of_pos_left gap (by omega)
    rw [show max (n + 2 - 1) 1 = n + 2 - 1 by omega, show min (n + 2) 2 = 2 by omega]
    constructor
    · exact fun hall => Or.inr (gaps_of_last_inside hn (hall (n + 1) (by omega)))
    · rintro (hzero | ⟨hwidth, hgaps⟩) j hj
      · omega
      cases j with
      | zero => exact master_inside hn hm hwidth (hone.trans hgaps)
      | succ k => exact stack_tile_inside hn (by omega) hm hwidth hgaps

end Geometry

namespace State

variable {s : State} {config : Config} {i : ℕ} {out : Output}

/-- The width of the master tile of an output. -/
def masterWidth (s : State) (config : Config) (out : Output) : ℕ :=
  (insetArea config.gap out).masterWidth (s.masterFraction out.activeTag)

theorem masterFraction_new {f : ℚ} {t : ℕ} : (State.new f).masterFraction t = f := by
  by_cases ht : t < numTags <;> simp [masterFraction, State.new, Tag.unassigned, ht]

theorem masterFraction_setTagOutput {t u : ℕ} :
    (s.setTagOutput t i).masterFraction u = s.masterFraction u := by
  simp only [masterFraction, setTagOutput, List.getElem?_modify]
  cases s.tags[u]? with
  | none => rfl
  | some tag => split_ifs <;> rfl

variable (config) in
theorem masterWidth_le (hf : s.masterFraction out.activeTag ≤ 9 / 10) :
    s.masterWidth config out ≤ (insetArea config.gap out).width := by
  have hle : ((insetArea config.gap out).width : ℚ) * s.masterFraction out.activeTag ≤
      ((insetArea config.gap out).width : ℤ) := by
    have hnonneg : (0 : ℚ) ≤ ((insetArea config.gap out).width : ℚ) := Nat.cast_nonneg _
    push_cast
    nlinarith
  unfold masterWidth Geometry.masterWidth truncate
  split_ifs
  · have hfloor := Int.floor_le_floor hle
    rw [Int.floor_intCast] at hfloor
    omega
  · have hceil := Int.ceil_le.mpr hle
    omega

/-- The tiled windows of an output get the cells of its inset area, in their order. -/
theorem computeOutput_eq (hout : s.outputs[i]? = some out) (hgap : config.gap < 2 ^ 32) :
    s.computeOutputIn config .exact i = some (((s.tiledWindows i out).map (·.id)).mapIdx fun j id =>
      (id, (insetArea config.gap out).cell config.gap (s.masterWidth config out)
        (s.tiledWindows i out).length j)) := by
  have hfraction : s.activeMasterFraction i = s.masterFraction out.activeTag := by
    simp [activeMasterFraction, hout]
  have hinset : ∀ w : ℕ, ((w : ℤ) - config.gap * 2).toNat = w - 2 * config.gap := fun w => by omega
  simp only [computeOutputIn, Arith.exact, hout, visibleWindows_eq hout, Option.bind_eq_bind,
    Option.bind_some, Option.pure_def, hfraction, hinset]
  split_ifs with hempty
  · simp [List.map_eq_nil_iff.mp (List.isEmpty_iff.mp hempty)]
  · have htiling := computeTiling_eq ((s.tiledWindows i out).map (·.id)) (insetArea config.gap out)
      (s.masterFraction out.activeTag) hgap
    rw [List.length_map] at htiling
    exact congrArg some htiling

/-- Where nothing wraps, integers may be taken exactly. -/
theorem computeOutput_of_fits (hout : s.outputs[i]? = some out)
    (hfits : Fits config.gap (s.tiledWindows i out).length out)
    (hf : s.masterFraction out.activeTag ≤ 9 / 10) :
    s.computeOutput config i = s.computeOutputIn config .exact i := by
  have hgap : config.gap < 2 ^ 32 := by
    have hwidth := hfits.width
    omega
  have hwidth := hfits.wrappedMasterWidth_eq (masterWidth_le config hf)
  rw [computeOutput_eq hout hgap, computeOutput_wrapped hout, wrappedMasterWidth, hfits.wrap_gap,
    hfits.wrappedArea_eq, hwidth]
  refine congrArg some (List.ext_getElem (by simp) fun j hj _ => ?_)
  have hlt : j < (s.tiledWindows i out).length := by simpa using hj
  simp only [List.getElem_mapIdx]
  exact congrArg (Prod.mk _) (hfits.wrappedCell_eq (masterWidth_le config hf) hlt)

theorem computeAll_of_fits
    (hfits : ∀ i out, s.outputs[i]? = some out → Fits config.gap (s.tiledWindows i out).length out)
    (hf : ∀ t, s.masterFraction t ≤ 9 / 10) : s.computeAll config = s.computeAllIn config .exact := by
  have hsame : (List.range s.outputs.length).mapM (s.computeOutput config) =
      (List.range s.outputs.length).mapM (s.computeOutputIn config .exact) := by
    refine mapM_congr _ fun i hi => ?_
    have hout := List.getElem?_eq_getElem (List.mem_range.mp hi)
    exact computeOutput_of_fits hout (hfits i _ hout) (hf _)
  rw [computeAll_eq, hsame]
  rfl

/-- The geometries of an output are the cells in order. -/
theorem computeOutput_cells (hout : s.outputs[i]? = some out) (hgap : config.gap < 2 ^ 32) :
    ∃ gs, s.computeOutputIn config .exact i = some gs ∧
      gs.map (·.1) = (s.tiledWindows i out).map (·.id) ∧
      gs.map (·.2) = (List.range (s.tiledWindows i out).length).map
        ((insetArea config.gap out).cell config.gap (s.masterWidth config out)
          (s.tiledWindows i out).length) := by
  refine ⟨_, computeOutput_eq hout hgap, ?_, ?_⟩
  · refine List.ext_getElem (by simp) fun j hj _ => ?_
    simp
  · refine List.ext_getElem (by simp) fun j hj _ => ?_
    simp

theorem forall_cells_iff {gs : List (ℕ × Geometry)} {n : ℕ} {cell : ℕ → Geometry}
    {P : Geometry → Prop} (h : gs.map (·.2) = (List.range n).map cell) :
    (∀ p ∈ gs, P p.2) ↔ ∀ j < n, P (cell j) := by
  constructor
  · intro hall j hj
    have hmem : cell j ∈ gs.map (·.2) := h ▸ List.mem_map_of_mem (List.mem_range.mpr hj)
    obtain ⟨p, hp, heq⟩ := List.mem_map.mp hmem
    exact heq ▸ hall p hp
  · intro hall p hp
    have hmem : p.2 ∈ gs.map (·.2) := List.mem_map_of_mem hp
    rw [h] at hmem
    obtain ⟨j, hj, heq⟩ := List.mem_map.mp hmem
    exact heq ▸ hall j (List.mem_range.mp hj)

/-! ## The stack ends where the master does -/

/-- Integers taken exactly, as they may be where nothing wraps : in an area of at least twice the
gap, the stack of an output ends where the master does iff there is no gap, or the gaps between its
tiles take all the height of the inset area. -/
theorem stack_ends_with_master_iff (hout : s.outputs[i]? = some out) (hgap : config.gap < 2 ^ 32)
    (hn : 2 ≤ (s.tiledWindows i out).length) (harea : 2 * config.gap ≤ (outputArea out).2.2.2)
    (hfit : ((s.tiledWindows i out).length - 2) * config.gap ≤
      (outputArea out).2.2.2 - 2 * config.gap) :
    ∃ gs master stack, s.computeOutputIn config .exact i = some gs ∧
      (Fits config.gap (s.tiledWindows i out).length out →
        s.masterFraction out.activeTag ≤ 9 / 10 → s.computeOutput config i = some gs) ∧
      gs.map (·.1) = (s.tiledWindows i out).map (·.id) ∧ gs.map (·.2) = master :: stack ∧
      (Aligned config.gap ((outputArea out).2.1 + (outputArea out).2.2.2) master stack ↔
        config.gap = 0 ∨ ((s.tiledWindows i out).length - 2) * config.gap =
          (outputArea out).2.2.2 - 2 * config.gap) := by
  obtain ⟨gs, hgs, hids, hcells⟩ := computeOutput_cells hout hgap
  have hlimit : (insetArea config.gap out).bottom + config.gap =
      (outputArea out).2.1 + (outputArea out).2.2.2 := by
    simp only [Geometry.bottom, insetArea]
    omega
  have hiff := Geometry.aligned_iff (s.masterWidth config out) hn
    (show _ ≤ (insetArea config.gap out).height from hfit)
  rw [hlimit] at hiff
  have hwraps := fun hfits hf => (computeOutput_of_fits hout hfits hf).trans hgs
  refine ⟨gs, _, _, hgs, hwraps, hids, hcells.trans ?_, hiff⟩
  obtain ⟨n, hlen⟩ : ∃ n, (s.tiledWindows i out).length = n + 1 :=
    ⟨(s.tiledWindows i out).length - 1, by omega⟩
  rw [hlen, Nat.add_sub_cancel, List.range_succ_eq_map, List.map_cons, List.map_map]
  rfl

/-- Without gaps the stack ends where the master does. -/
theorem stack_ends_with_master_iff_gapless : ∃ (s : State) (config : Config) (out : Output)
    (gs : List (ℕ × Geometry)) (master : Geometry) (stack : List Geometry),
    s.computeOutput config 0 = some gs ∧ gs.map (·.2) = master :: stack ∧ stack.length = 1 ∧
      Aligned 0 ((outputArea out).2.1 + (outputArea out).2.2.2) master stack := by
  let out : Output := { Output.new 1 with width := 1000, height := 600 }
  let s : State := { (State.new (11 / 20)).setTagOutput 0 0 with
    outputs := [out], windows := [Window.new 1 2 0, Window.new 2 3 0] }
  let config : Config := { Config.default with gap := 0 }
  have hout : s.outputs[0]? = some out := rfl
  have hgap : config.gap < 2 ^ 32 := by decide
  have hn : (s.tiledWindows 0 out).length = 2 := rfl
  have hfits : Fits config.gap (s.tiledWindows 0 out).length out := by
    constructor <;> decide
  have hf : s.masterFraction out.activeTag = 11 / 20 := rfl
  obtain ⟨gs, master, stack, hgs, hwraps, -, hcells, hiff⟩ :=
    stack_ends_with_master_iff hout hgap hn.ge (by decide) (by decide)
  have hcompute := hwraps hfits (by rw [hf]; norm_num)
  refine ⟨s, config, out, gs, master, stack, hcompute, hcells, ?_, hiff.mpr (Or.inl rfl)⟩
  obtain ⟨gs', hgs', -, hcells'⟩ := computeOutput_cells hout hgap
  obtain rfl := Option.some.inj (hgs.symm.trans hgs')
  have hlen := congrArg List.length (hcells.symm.trans hcells')
  simpa [hn] using hlen

/-- The default gap and two windows : the stack ends one gap above the master. -/
theorem stack_ends_short : ¬∀ (s : State) (config : Config) (i : ℕ) (out : Output)
    (gs : List (ℕ × Geometry)) (master : Geometry) (stack : List Geometry),
    s.outputs[i]? = some out → 1 / 10 ≤ s.masterFraction out.activeTag →
    s.masterFraction out.activeTag ≤ 9 / 10 → config.gap < 2 ^ 32 →
    2 ≤ (s.tiledWindows i out).length → 2 * config.gap ≤ (outputArea out).2.2.1 →
    2 * config.gap ≤ (outputArea out).2.2.2 →
    ((s.tiledWindows i out).length - 2) * config.gap ≤ (outputArea out).2.2.2 - 2 * config.gap →
    s.computeOutput config i = some gs → gs.map (·.2) = master :: stack →
    Aligned config.gap ((outputArea out).2.1 + (outputArea out).2.2.2) master stack := by
  intro hall
  let out : Output := { Output.new 1 with width := 1000, height := 600 }
  let s : State := { (State.new (11 / 20)).setTagOutput 0 0 with
    outputs := [out], windows := [Window.new 1 2 0, Window.new 2 3 0] }
  have hn : (s.tiledWindows 0 out).length = 2 := rfl
  have hf : s.masterFraction out.activeTag = 11 / 20 := rfl
  obtain ⟨gs, hgs, -, hcells⟩ := computeOutput_cells (show s.outputs[0]? = some out from rfl)
    (show Config.default.gap < 2 ^ 32 by decide)
  have hfits : Fits Config.default.gap (s.tiledWindows 0 out).length out := by
    constructor <;> decide
  have hcompute := (computeOutput_of_fits rfl hfits (by rw [hf]; norm_num)).trans hgs
  have haligned := hall s .default 0 out gs _ _ rfl (by rw [hf]; norm_num) (by rw [hf]; norm_num)
    (by decide) hn.ge (by decide) (by decide) (by decide) hcompute hcells
  have hiff := Geometry.aligned_iff (s.masterWidth .default out) le_rfl
    (show (2 - 2) * 8 ≤ (insetArea 8 out).height from Nat.zero_le _)
  have hzero := hiff.mp haligned
  revert hzero
  decide

/-! ## Tiles lie in the area of their output -/

/-- Integers taken exactly, as they may be where nothing wraps : in a layout of all outputs, the
tiles of an output lie in its area iff their gaps fit. -/
theorem tiles_inside_iff (s : State) (config : Config) (hgap : config.gap < 2 ^ 32)
    (hf : ∀ t, 1 / 10 ≤ s.masterFraction t ∧ s.masterFraction t ≤ 9 / 10) :
    ∃ gss : List (List (ℕ × Geometry)), s.computeAllIn config .exact = some gss.flatten ∧
      ((∀ i out, s.outputs[i]? = some out → Fits config.gap (s.tiledWindows i out).length out) →
        s.computeAll config = some gss.flatten) ∧
      gss.length = s.outputs.length ∧
      ∀ i out, s.outputs[i]? = some out → ∃ gs, gss[i]? = some gs ∧
        gs.map (·.1) = (s.tiledWindows i out).map (·.id) ∧
        ((∀ p ∈ gs, p.2.Inside (outputArea out)) ↔
          GapsFit config.gap (s.tiledWindows i out).length (outputArea out).2.2.1
            (outputArea out).2.2.2) := by
  obtain ⟨gss, hgss, hlen, hget⟩ := exists_mapM_range (f := s.computeOutputIn config .exact)
    (n := s.outputs.length) fun i hi => exists_computeOutputIn config .exact hi
  have hcompute : s.computeAllIn config .exact = some gss.flatten := by simp [computeAllIn, hgss]
  refine ⟨gss, hcompute, fun hfits => ?_, hlen, fun i out hout => ?_⟩
  · exact (computeAll_of_fits hfits fun t => (hf t).2).trans hcompute
  obtain ⟨gs, hgs, hids, hcells⟩ := computeOutput_cells hout hgap
  have hi : i < s.outputs.length := (List.getElem?_eq_some_iff.mp hout).1
  refine ⟨gs, (hget i hi).trans hgs, hids, ?_⟩
  rw [← Geometry.cells_inside_iff (masterWidth_le config (hf out.activeTag).2)]
  exact forall_cells_iff (P := fun g => g.Inside (outputArea out)) hcells

/-- Two windows and the default gap on a screen. -/
theorem tiles_inside_iff_two : ∃ (s : State) (out : Output) (gs : List (ℕ × Geometry)),
    s.outputs = [out] ∧ s.computeAll .default = some gs ∧ gs.length = 2 ∧
      ∀ p ∈ gs, p.2.Inside (outputArea out) := by
  let out : Output := { Output.new 1 with width := 1000, height := 600 }
  let s : State := { (State.new (11 / 20)).setTagOutput 0 0 with
    outputs := [out], windows := [Window.new 1 2 0, Window.new 2 3 0] }
  have hf : ∀ t, s.masterFraction t = 11 / 20 := fun t => by
    have hset := masterFraction_setTagOutput (s := State.new (11 / 20)) (i := 0) (t := 0) (u := t)
    exact hset.trans masterFraction_new
  have hfits : ∀ i o, s.outputs[i]? = some o →
      Fits Config.default.gap (s.tiledWindows i o).length o := by
    intro i o ho
    have hi : i < s.outputs.length := (List.getElem?_eq_some_iff.mp ho).1
    obtain rfl : i = 0 := Nat.lt_one_iff.mp hi
    obtain rfl : out = o := Option.some.inj ho
    constructor <;> decide
  obtain ⟨gss, -, hwraps, hlen, hget⟩ := tiles_inside_iff s .default (by decide) fun t => by
    rw [hf]
    norm_num
  have hgss := hwraps hfits
  obtain ⟨gs, hgs, hids, hiff⟩ := hget 0 out rfl
  obtain ⟨gs', rfl⟩ := List.length_eq_one_iff.mp hlen
  obtain rfl : gs' = gs := Option.some.inj hgs
  refine ⟨s, out, gs', rfl, by simpa using hgss, ?_, hiff.mpr (by decide)⟩
  have hcount : gs'.length = (s.tiledWindows 0 out).length := by
    simpa using congrArg List.length hids
  exact hcount

/-- With the default gap and 77 windows, the last stack tile lies below the output. -/
theorem tile_below_output : ¬∀ (s : State) (config : Config) (out : Output)
    (gs : List (ℕ × Geometry)), (∀ t, 1 / 10 ≤ s.masterFraction t ∧ s.masterFraction t ≤ 9 / 10) →
    config.gap < 2 ^ 32 → s.outputs = [out] → s.computeAll config = some gs →
    ∀ p ∈ gs, p.2.Inside (outputArea out) := by
  intro hall
  let out : Output := { Output.new 1 with width := 1000, height := 600 }
  let s : State := { (State.new (11 / 20)).setTagOutput 0 0 with
    outputs := [out], windows := (List.range 77).map fun k => Window.new (k + 1) (k + 2) 0 }
  have hf : ∀ t, s.masterFraction t = 11 / 20 := fun t => by
    have hset := masterFraction_setTagOutput (s := State.new (11 / 20)) (i := 0) (t := 0) (u := t)
    exact hset.trans masterFraction_new
  have hn : (s.tiledWindows 0 out).length = 77 := by
    have hall : s.tiledWindows 0 out = s.windows := List.filter_eq_self.mpr fun w hw => by
      obtain ⟨k, -, rfl⟩ := List.mem_map.mp hw
      rfl
    rw [hall, List.length_map, List.length_range]
  obtain ⟨gs, hgs, -, hcells⟩ := computeOutput_cells (show s.outputs[0]? = some out from rfl)
    (show Config.default.gap < 2 ^ 32 by decide)
  have hfits : Fits Config.default.gap (s.tiledWindows 0 out).length out := by
    rw [hn]
    constructor <;> decide
  have hcompute : s.computeAll .default = some gs := by
    have hone : (List.range s.outputs.length).mapM (s.computeOutput .default) = some [gs] := by
      rw [show s.outputs.length = 1 by rfl, List.range_one, List.mapM_cons,
        computeOutput_of_fits rfl hfits (by rw [hf]; norm_num), hgs]
      rfl
    simp [computeAll_eq, hone]
  have hinside := hall s .default out gs (fun t => by rw [hf]; norm_num) (by decide) rfl hcompute
  have hwidth : s.masterWidth .default out ≤ (insetArea 8 out).width :=
    masterWidth_le .default (by rw [hf]; norm_num)
  have hfit := (Geometry.cells_inside_iff (n := 77) hwidth).mp
    ((forall_cells_iff (P := fun g => g.Inside (outputArea out)) (hn ▸ hcells)).mp hinside)
  revert hfit
  decide

end State

end Streamwm
