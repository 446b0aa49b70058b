import Mathlib.Data.Int.ConditionallyCompleteOrder
import Mathlib.Order.CompletePartialOrder
import Mathlib.Order.Interval.Set.Disjoint
import Mathlib.Tactic.Ring
import Streamwm.Tiling

/-!
# Tiles do not overlap

`computeTiling` offsets the tile at place `k` of the stack by `k` times a height and a gap,
and gives it that height, or, at the last place, what is left above the bottom edge. So a
tile ends no lower than the next one begins, whatever the height is (`Above`), and the
column starts at or beyond the right edge of the master. Nothing is asked of the area or of
its bottom edge : where they leave no room the tiles are empty.
-/

namespace Streamwm

namespace Geometry

/-- The pixels of a rectangle. -/
def pixels (g : Geometry) : Set (ℤ × ℤ) :=
  Set.Ico g.x (g.x + g.width) ×ˢ Set.Ico g.y g.bottom

/-- A rectangle ends where another begins, or above. -/
def Above (g h : Geometry) : Prop :=
  g.y ≤ h.y ∧ g.bottom ≤ h.y

/-- A rectangle ends where another begins, or to the left. -/
def LeftOf (g h : Geometry) : Prop :=
  g.x + g.width ≤ h.x

/-- Two rectangles in one column. -/
def SameColumn (g h : Geometry) : Prop :=
  g.x = h.x ∧ g.width = h.width

variable {g h : Geometry}

theorem disjoint_of_above (habove : g.Above h) : Disjoint g.pixels h.pixels := by
  refine Set.disjoint_prod.mpr (Or.inr (Set.Ico_disjoint_Ico.mpr ?_))
  exact (min_le_left ..).trans (habove.2.trans (le_max_right ..))

theorem disjoint_of_leftOf (hleft : g.LeftOf h) : Disjoint g.pixels h.pixels := by
  refine Set.disjoint_prod.mpr (Or.inl (Set.Ico_disjoint_Ico.mpr ?_))
  exact (min_le_left ..).trans (hleft.trans (le_max_right ..))

end Geometry

/-! ## The stack -/

section

variable {area : Geometry} {areaBottom gap stackX : ℤ} {stackW stackH n : ℕ}

/-- The tiles from the `i`-th on lie in the column, at or below the `i`-th offset. -/
theorem mem_stackTiles (hgap : 0 ≤ gap) {t : ℕ × Geometry} : ∀ {ids : List ℕ} {i : ℕ},
    t ∈ stackTiles .exact area areaBottom gap stackX stackW stackH n ids i →
      t.2.x = stackX ∧ t.2.width = stackW ∧ area.y + i * (stackH + gap) ≤ t.2.y
  | [], i, h => absurd h List.not_mem_nil
  | id :: ids, i, h => by
    rw [stackTiles, List.mem_cons] at h
    rcases h with rfl | h
    · exact ⟨rfl, rfl, le_rfl⟩
    · obtain ⟨hx, hw, hy⟩ := mem_stackTiles hgap h
      have hstep : (i : ℤ) * (stackH + gap) ≤ (i + 1 : ℕ) * (stackH + gap) :=
        mul_le_mul_of_nonneg_right (by omega) (by omega)
      exact ⟨hx, hw, by omega⟩

/-- Every tile of the stack ends no lower than a later one begins. Only the last of all gets
a height of its own, so the list from `i` on has to end with it. -/
theorem stackTiles_above (hgap : 0 ≤ gap) : ∀ (ids : List ℕ) (i : ℕ), i + ids.length + 1 = n →
    (stackTiles .exact area areaBottom gap stackX stackW stackH n ids i).Pairwise fun s t =>
      s.2.Above t.2
  | [], _, _ => List.Pairwise.nil
  | id :: ids, i, hlen => by
    rw [List.length_cons] at hlen
    refine List.Pairwise.cons (fun t ht => ?_) (stackTiles_above hgap ids (i + 1) (by omega))
    obtain ⟨-, -, hy⟩ := mem_stackTiles hgap ht
    have hpos : 0 < ids.length := by
      rcases ids with _ | ⟨id', ids⟩
      · exact absurd ht List.not_mem_nil
      · simp
    have hlast : i + 1 ≠ n - 1 := by omega
    have hstep : ((i + 1 : ℕ) : ℤ) * (stackH + gap) = i * (stackH + gap) + (stackH + gap) := by
      push_cast
      ring
    simp only [Geometry.Above, Geometry.bottom, Arith.exact, if_neg hlast]
    omega

end

/-! ## The tiling -/

variable {ids : List ℕ} {area : Geometry} {areaBottom gap : ℤ} {masterFraction : ℚ}

/-- The master and the stack column beside it. -/
theorem computeTiling_cons (hgap : 0 ≤ gap) {master : ℕ × Geometry}
    {stack : List (ℕ × Geometry)}
    (h : computeTiling .exact ids area areaBottom gap masterFraction = master :: stack) :
    (∀ t ∈ stack, master.2.LeftOf t.2) ∧ (stack.Pairwise fun s t => s.2.Above t.2) ∧
      ∀ s ∈ stack, ∀ t ∈ stack, s.2.SameColumn t.2 := by
  match ids with
  | [] => cases h
  | [id] =>
    cases h
    simp
  | id :: id' :: ids =>
    rw [computeTiling] at h
    · obtain ⟨rfl, rfl⟩ := List.cons.inj h
      refine ⟨fun t ht => ?_, stackTiles_above hgap _ _ (by simp), fun s hs t ht => ?_⟩
      · obtain ⟨hx, -, -⟩ := mem_stackTiles hgap ht
        simp only [Geometry.LeftOf, Arith.exact, hx]
        omega
      · obtain ⟨hsx, hsw, -⟩ := mem_stackTiles hgap hs
        obtain ⟨htx, htw, -⟩ := mem_stackTiles hgap ht
        exact ⟨hsx.trans htx.symm, hsw.trans htw.symm⟩
    · simp

variable (ids area areaBottom masterFraction) in
/-- No two tiles share a pixel. -/
theorem computeTiling_disjoint (hgap : 0 ≤ gap) :
    (computeTiling .exact ids area areaBottom gap masterFraction).Pairwise fun s t =>
      Disjoint s.2.pixels t.2.pixels := by
  match h : computeTiling .exact ids area areaBottom gap masterFraction with
  | [] => exact List.Pairwise.nil
  | master :: stack =>
    obtain ⟨hleft, habove, -⟩ := computeTiling_cons hgap h
    exact List.Pairwise.cons (fun t ht => Geometry.disjoint_of_leftOf (hleft t ht))
      (habove.imp Geometry.disjoint_of_above)

/-- A tiling has one geometry for every id, in order; no two share a pixel; the stack is one
column beside the master, in which every tile begins and ends above the next. -/
theorem tiles_do_not_overlap (ids : List ℕ) (area : Geometry) (areaBottom gap : ℤ)
    (masterFraction : ℚ) (hgap : 0 ≤ gap) :
    let tiles := computeTiling .exact ids area areaBottom gap masterFraction
    tiles.map (·.1) = ids ∧
      (tiles.Pairwise fun s t => Disjoint s.2.pixels t.2.pixels) ∧
      ∀ master stack, tiles = master :: stack →
        (∀ s ∈ stack, ∀ t ∈ stack, s.2.x = t.2.x ∧ s.2.width = t.2.width) ∧
        (∀ t ∈ stack, master.2.x + master.2.width ≤ t.2.x) ∧
        stack.Pairwise fun s t => s.2.y ≤ t.2.y ∧ s.2.bottom ≤ t.2.y := by
  refine ⟨map_fst_computeTiling .., computeTiling_disjoint _ _ _ _ hgap, ?_⟩
  intro master stack h
  obtain ⟨hleft, habove, hcolumn⟩ := computeTiling_cons hgap h
  exact ⟨hcolumn, hleft, habove⟩

/-- Three tiles in an area lower than its gaps. -/
theorem tiles_do_not_overlap_three :
    (computeTiling .exact [1, 2, 3] ⟨8, 8, 100, 10⟩ 18 16 (11 / 20)).map (·.1) = [1, 2, 3] ∧
      (computeTiling .exact [1, 2, 3] ⟨8, 8, 100, 10⟩ 18 16 (11 / 20)).Pairwise fun s t =>
        Disjoint s.2.pixels t.2.pixels := by
  obtain ⟨hids, hdisjoint, -⟩ :=
    tiles_do_not_overlap [1, 2, 3] ⟨8, 8, 100, 10⟩ 18 16 (11 / 20) (by decide)
  exact ⟨hids, hdisjoint⟩

end Streamwm
