import Mathlib.Data.List.Forall2
import Mathlib.Data.Rat.Floor
import Streamwm.Library.Wrap
import Streamwm.Op

/-!
# Layout and placement

`src/wm/layout.rs` and the fields of `src/config.rs` that the window manager reads after
start : the master+stack geometry of every output and the placement of every window. An
index expression on outputs may panic, so the functions are partial; `computeAll` and
`placements` are total on every state, as `exists_computeAll` and `exists_placements`
say, since they only index with positions of the vector itself.

The tiles are computed in `i32` and `u32`. The functions that do so take the arithmetic as a
parameter (`Arith`) : `Arith.wrapping` is that of a release build, which `computeOutput` and
`computeAll` use; `Arith.exact` takes the integers exactly. The width product
`width as f64 * master_fraction` is exact in both; its cast to `i32` truncates toward zero.
-/

namespace Streamwm

open Partial

/-- A keybinding of the configuration. -/
structure Binding where
  keysym : String
  modifiers : String
  action : String
  arg : Option String

/-- The configuration. -/
structure Config where
  modifier : String
  terminal : String
  launcher : String
  /-- Gaps between windows and screen edges. -/
  gap : ℕ
  borderWidth : ℕ
  borderColor : String
  focusedBorderColor : String
  focusFollowsMouse : Bool
  useSsd : Bool
  bindings : List Binding
  allowSpawn : Bool
  /-- App ids of windows that are never tiled. -/
  floatingAppIds : List String
  /-- The split at the start, a finite number : a `nan` passes `f64::clamp`, and is left out. -/
  masterFraction : ℚ
  /-- How far a resize binding moves a split, a finite number as well. -/
  resizeStep : ℚ

/-- The default configuration. -/
def Config.default : Config :=
  { modifier := "super", terminal := "alacritty", launcher := "alacritty"
    gap := 8, borderWidth := 2, borderColor := "4c4c4c", focusedBorderColor := "5294e2"
    focusFollowsMouse := true, useSsd := false, bindings := [], allowSpawn := false
    floatingAppIds := [], masterFraction := 11 / 20, resizeStep := 1 / 20 }

/-- Whether a window with this app id floats. -/
def Config.isFloatingApp (config : Config) (appId : String) : Bool :=
  config.floatingAppIds.any (· == appId)

/-- A rectangle in global coordinates. -/
structure Geometry where
  x : ℤ
  y : ℤ
  width : ℕ
  height : ℕ
  deriving DecidableEq

/-- `q as i32` of an `f64`. -/
def truncate (q : ℚ) : ℤ :=
  if 0 ≤ q then ⌊q⌋ else ⌈q⌉

/-! ## Arithmetic -/

/-- The integer arithmetic of the layout : what becomes of the result of an operation or a cast. -/
structure Arith where
  i32 : ℤ → ℤ
  u32 : ℕ → ℕ
  /-- The cast of a truncated `f64` to `i32`. -/
  saturate : ℤ → ℤ

namespace Arith

/-- Integers are taken exactly. -/
def exact : Arith :=
  { i32 := fun v => v, u32 := fun v => v, saturate := fun v => v }

/-- Integers wrap around, as in a release build; the cast of an `f64` saturates. -/
def wrapping : Arith :=
  { i32 := Wrap.wrap 32, u32 := fun v => v % 4294967296
    saturate := fun v => max (-2147483648) (min v 2147483647) }

end Arith

/-! ## Tiles -/

/-- The stack tiles, from the `i`-th of `n - 1` on : they share the column, the last one
reaches the bottom. -/
def stackTiles (arith : Arith) (area : Geometry) (areaBottom gap stackX : ℤ)
    (stackW stackH n : ℕ) : List ℕ → ℕ → List (ℕ × Geometry)
  | [], _ => []
  | id :: ids, i =>
    let y := arith.i32 (area.y + arith.i32 (arith.i32 i * arith.i32 (arith.i32 stackH + gap)))
    let h := if i + 1 = n - 1 then (arith.i32 (arith.i32 (areaBottom - gap) - y)).toNat else stackH
    (id, { x := stackX, y, width := stackW, height := h }) ::
      stackTiles arith area areaBottom gap stackX stackW stackH n ids (i + 1)

/-- Master and stack. -/
def computeTiling (arith : Arith) (ids : List ℕ) (area : Geometry) (areaBottom gap : ℤ)
    (masterFraction : ℚ) : List (ℕ × Geometry) :=
  match ids with
  | [] => []
  | [id] => [(id, area)]
  | id :: stack =>
    let n := ids.length
    let masterW := (arith.saturate (truncate (area.width * masterFraction))).toNat
    let stackX := arith.i32 (arith.i32 (area.x + arith.i32 masterW) + gap)
    let stackW := (arith.i32 (arith.i32 (arith.i32 area.width - arith.i32 masterW) - gap)).toNat
    let stackN := arith.u32 (n - 1)
    let stackH := (area.height - arith.u32 ((stackN - 1) * asU32 gap)) / max stackN 1
    (id, { x := area.x, y := area.y, width := masterW, height := area.height }) ::
      stackTiles arith area areaBottom gap stackX stackW stackH n stack 0

/-! ### The tiles as a list -/

section

variable {arith : Arith} {area : Geometry} {areaBottom gap stackX : ℤ} {stackW stackH n : ℕ}

theorem map_fst_stackTiles : ∀ (ids : List ℕ) (i : ℕ),
    (stackTiles arith area areaBottom gap stackX stackW stackH n ids i).map (·.1) = ids
  | [], _ => rfl
  | id :: ids, i => congrArg (id :: ·) (map_fst_stackTiles ids (i + 1))

/-- A tiling has one cell for each window. -/
theorem map_fst_computeTiling {f : ℚ} : ∀ ids : List ℕ,
    (computeTiling arith ids area areaBottom gap f).map (·.1) = ids
  | [] => rfl
  | [_] => rfl
  | id :: id' :: ids => congrArg (id :: ·) (map_fst_stackTiles (id' :: ids) 0)

/-- The stack tile at place `k`. -/
def stackTile (arith : Arith) (area : Geometry) (areaBottom gap stackX : ℤ)
    (stackW stackH n k : ℕ) : Geometry :=
  let y := arith.i32 (area.y + arith.i32 (arith.i32 k * arith.i32 (arith.i32 stackH + gap)))
  { x := stackX, y, width := stackW
    height := if k + 1 = n - 1 then (arith.i32 (arith.i32 (areaBottom - gap) - y)).toNat
      else stackH }

theorem stackTiles_eq : ∀ (ids : List ℕ) (i : ℕ),
    stackTiles arith area areaBottom gap stackX stackW stackH n ids i =
      ids.mapIdx fun j id => (id, stackTile arith area areaBottom gap stackX stackW stackH n (i + j))
  | [], _ => rfl
  | id :: ids, i => by
    rw [stackTiles, stackTiles_eq ids (i + 1), List.mapIdx_cons]
    simp only [Nat.add_assoc, Nat.add_comm 1]
    rfl

end

namespace State

variable (s : State) (config : Config)

/-- The tiled windows on the active tag of an output, master first. -/
def visibleWindows (outputIdx : ℕ) : Option (List ℕ) := do
  let out ← s.outputs[outputIdx]?
  return (s.windows.filter fun w => s.onActiveTag outputIdx out.activeTag w && !w.floating).map
    (·.id)

/-- The geometry of every tiled window of an output, in the given arithmetic. -/
def computeOutputIn (arith : Arith) (outputIdx : ℕ) : Option (List (ℕ × Geometry)) := do
  let output ← s.outputs[outputIdx]?
  let ids ← s.visibleWindows outputIdx
  if ids.isEmpty then return []
  let gap := arith.i32 config.gap
  let (baseX, baseY, baseW, baseH) := outputArea output
  let areaX := arith.i32 (baseX + gap)
  let areaY := arith.i32 (baseY + gap)
  let areaW := (arith.i32 (arith.i32 baseW - arith.i32 (gap * 2))).toNat
  let areaH := (arith.i32 (arith.i32 baseH - arith.i32 (gap * 2))).toNat
  let masterFraction := s.activeMasterFraction outputIdx
  -- the bottom of the usable area, not of the output
  let bottom := arith.i32 (areaY + arith.i32 areaH)
  return computeTiling arith ids { x := areaX, y := areaY, width := areaW, height := areaH } bottom
    gap masterFraction

/-- The geometry of every tiled window of an output. -/
def computeOutput (outputIdx : ℕ) : Option (List (ℕ × Geometry)) :=
  s.computeOutputIn config .wrapping outputIdx

/-- The geometry of every visible tiled window, in the given arithmetic. -/
def computeAllIn (arith : Arith) : Option (List (ℕ × Geometry)) := do
  return (← (List.range s.outputs.length).mapM (s.computeOutputIn config arith)).flatten

/-- The geometry of every visible tiled window. -/
def computeAll : Option (List (ℕ × Geometry)) :=
  s.computeAllIn config .wrapping

/-- The tiled windows on the active tag of an output. -/
def tiledWindows (i : ℕ) (out : Output) : List Window :=
  s.windows.filter fun w => s.onActiveTag i out.activeTag w && !w.floating

end State

/-- Which render request a window belongs in. -/
inductive Placement
  /-- Not shown : minimised, or on an inactive tag. -/
  | hidden
  /-- River positions it. -/
  | fullscreen
  | at (geometry : Geometry)
  deriving DecidableEq

namespace State

variable (s : State) (config : Config)

/-- The placement of a window, given the tiled geometries. -/
def placement (tiled : List (ℕ × Geometry)) (w : Window) : Placement :=
  if w.minimized || !s.windowIsVisible w then .hidden
  else if w.fullscreen then .fullscreen
  else
    match (tiled.find? fun p => p.1 == w.id).map (·.2) with
    | some g => .at g
    | none => .at { x := w.floatX, y := w.floatY, width := w.floatW, height := w.floatH }

/-- The placement of every window, in the order they are placed : hidden, tiled,
floating. -/
def placements : Option (List (ℕ × Placement)) := do
  let tiled ← s.computeAll config
  let placed := s.windows.map fun w => (w, s.placement tiled w)
  let hidden := placed.filter fun p => p.2 = .hidden
  let tiledOut := placed.filter fun p => p.2 ≠ .hidden && !p.1.floating
  let floats := placed.filter fun p => p.2 ≠ .hidden && p.1.floating
  return (hidden ++ tiledOut ++ floats).map fun p => (p.1.id, p.2)

variable {s : State} {i : ℕ} {w : Window}

theorem visibleWindows_eq {out : Output} (hout : s.outputs[i]? = some out) :
    s.visibleWindows i = some ((s.tiledWindows i out).map (·.id)) := by
  simp [visibleWindows, hout, tiledWindows]

theorem computeOutput_of_none (hout : s.outputs[i]? = none) : s.computeOutput config i = none := by
  unfold computeOutput computeOutputIn
  rw [hout]
  rfl

/-! ## No index is out of range -/

theorem exists_computeOutputIn (arith : Arith) (hi : i < s.outputs.length) :
    ∃ gs, s.computeOutputIn config arith i = some gs := by
  have hout := List.getElem?_eq_getElem hi
  simp only [computeOutputIn, visibleWindows, hout, Option.bind_eq_bind, Option.bind_some,
    Option.pure_def]
  split_ifs <;> exact ⟨_, rfl⟩

theorem exists_computeOutput (hi : i < s.outputs.length) :
    ∃ gs, s.computeOutput config i = some gs :=
  exists_computeOutputIn config .wrapping hi

theorem computeAll_eq (s : State) (config : Config) : s.computeAll config = do
    return (← (List.range s.outputs.length).mapM (s.computeOutput config)).flatten :=
  rfl

/-- Computing all geometries never indexes out of range. -/
theorem exists_computeAll (s : State) (config : Config) : ∃ gs, s.computeAll config = some gs := by
  obtain ⟨gss, h, -, -⟩ := exists_mapM_range (f := s.computeOutput config) fun i hi =>
    exists_computeOutput config hi
  exact ⟨gss.flatten, by simp [computeAll_eq, h]⟩

/-- Computing all placements never indexes out of range. -/
theorem exists_placements (s : State) (config : Config) :
    ∃ ps, s.placements config = some ps := by
  obtain ⟨gs, h⟩ := exists_computeAll s config
  exact ⟨_, by rw [placements, h]; rfl⟩

/-! ## Hidden windows -/

theorem placement_eq_hidden_iff {tiled : List (ℕ × Geometry)} :
    s.placement tiled w = .hidden ↔ w.minimized = true ∨ s.windowIsVisible w = false := by
  unfold placement
  split_ifs with h hfull
  · simpa using h
  · simpa using h
  · have hne : ∀ o : Option Geometry, (match o with
        | some g => Placement.at g
        | none => .at { x := w.floatX, y := w.floatY, width := w.floatW, height := w.floatH }) ≠
        .hidden := by
      rintro (_ | _) <;> simp
    simpa [hne] using h

/-- A window is placed as the placement function says. -/
theorem mem_placements {ps : List (ℕ × Placement)} {p : ℕ × Placement}
    (h : s.placements config = some ps) : p ∈ ps ↔
      ∃ gs, s.computeAll config = some gs ∧ ∃ w ∈ s.windows, p = (w.id, s.placement gs w) := by
  obtain ⟨gs, hgs⟩ := exists_computeAll s config
  simp only [placements, hgs, Option.bind_eq_bind, Option.bind_some, Option.pure_def,
    Option.some.injEq] at h
  rw [← h]
  simp only [List.map_append, List.mem_append, List.mem_map, List.mem_filter]
  constructor
  · rintro ((⟨⟨v, q⟩, ⟨⟨w, hw, hp⟩, -⟩, rfl⟩ | ⟨⟨v, q⟩, ⟨⟨w, hw, hp⟩, -⟩, rfl⟩) |
      ⟨⟨v, q⟩, ⟨⟨w, hw, hp⟩, -⟩, rfl⟩) <;>
    · cases hp
      exact ⟨gs, hgs, _, hw, rfl⟩
  · rintro ⟨gs', hgs', w, hw, rfl⟩
    obtain rfl := Option.some.inj (hgs.symm.trans hgs')
    by_cases hhid : s.placement gs w = .hidden
    · exact Or.inl (Or.inl ⟨(w, s.placement gs w), ⟨⟨w, hw, rfl⟩, by simp [hhid]⟩, rfl⟩)
    · cases hfl : w.floating with
      | false =>
        exact Or.inl (Or.inr ⟨(w, s.placement gs w), ⟨⟨w, hw, rfl⟩, by simp [hhid, hfl]⟩, rfl⟩)
      | true =>
        exact Or.inr ⟨(w, s.placement gs w), ⟨⟨w, hw, rfl⟩, by simp [hhid, hfl]⟩, rfl⟩

end State

end Streamwm
