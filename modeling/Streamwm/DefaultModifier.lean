import Mathlib.Data.List.TakeWhile
import Streamwm.Bindings

/-!
# The default modifier

`parseModifiers` reads a modifier list in two ways. A part of the list, between commas and
plus signs, names a modifier by any of its names, in any letter case
(`namedModifiers_eq`). A list that names none gets the configured modifier, and that is
looked for as a substring, in lower case, by some of the names, one modifier at most.

So a configured modifier that names a modifier is not always the one that empty fields get :
it is iff the substring test picks the only modifier it names (`default_modifier_iff`).
Otherwise the default bindings require another modifier, or none.
-/

namespace Streamwm

/-- The parts of a modifier list. -/
def modifierParts (s : String) : List (List Char) :=
  splitOn (fun c => c == ',' || c == '+') s.toList

/-- A part as it is compared. -/
def partWord (part : List Char) : String :=
  String.ofList (toAsciiLowercase (trim part))

/-- The modifiers a list names through its own parts. -/
def namedModifiers (s : String) : Modifiers :=
  (modifierParts s).foldl Modifiers.add .empty

/-- Every name of a modifier. -/
def modifierNames : List String :=
  ["shift", "ctrl", "control", "alt", "mod1", "super", "mod4", "logo", "mod3", "mod5"]

/-- A part of the list is one of the names. -/
def names (s : String) (words : List String) : Bool :=
  (modifierParts s).any fun part => words.contains (partWord part)

/-- The list names no modifier but by these names. -/
def NamesOnly (s : String) (words : List String) : Prop :=
  ∀ part ∈ modifierParts s, partWord part ∈ modifierNames → partWord part ∈ words

instance (s : String) (words : List String) : Decidable (NamesOnly s words) :=
  inferInstanceAs (Decidable (∀ part ∈ modifierParts s, _ → _))

/-- The first of the names the substring test looks for is a name of the only modifier the
list names. -/
def PicksNamed (s : String) : Prop :=
  if contains "super".toList s.toList || contains "mod4".toList s.toList then
    NamesOnly s ["super", "mod4", "logo"]
  else if contains "alt".toList s.toList || contains "mod1".toList s.toList then
    NamesOnly s ["alt", "mod1"]
  else contains "ctrl".toList s.toList = true ∧ NamesOnly s ["ctrl", "control"]

instance (s : String) : Decidable (PicksNamed s) :=
  inferInstanceAs (Decidable (ite _ _ (ite _ _ _)))

/-- The modifiers of a list that names none, by the configured modifier. -/
def defaultModifiers (s : String) : Modifiers :=
  if contains "super".toList s.toList || contains "mod4".toList s.toList then
    { Modifiers.empty with mod4 := true }
  else if contains "alt".toList s.toList || contains "mod1".toList s.toList then
    { Modifiers.empty with mod1 := true }
  else if contains "ctrl".toList s.toList then { Modifiers.empty with ctrl := true }
  else .empty

/-! ## What the parts name -/

theorem add_eq (m : Modifiers) (part : List Char) : m.add part =
    { shift := m.shift || ["shift"].contains (partWord part)
      ctrl := m.ctrl || ["ctrl", "control"].contains (partWord part)
      mod1 := m.mod1 || ["alt", "mod1"].contains (partWord part)
      mod3 := m.mod3 || ["mod3"].contains (partWord part)
      mod4 := m.mod4 || ["super", "mod4", "logo"].contains (partWord part)
      mod5 := m.mod5 || ["mod5"].contains (partWord part) } := by
  unfold Modifiers.add partWord
  generalize String.ofList (toAsciiLowercase (trim part)) = word
  split <;> simp_all

theorem foldl_add (parts : List (List Char)) : ∀ m : Modifiers, parts.foldl Modifiers.add m =
    { shift := m.shift || parts.any fun part => ["shift"].contains (partWord part)
      ctrl := m.ctrl || parts.any fun part => ["ctrl", "control"].contains (partWord part)
      mod1 := m.mod1 || parts.any fun part => ["alt", "mod1"].contains (partWord part)
      mod3 := m.mod3 || parts.any fun part => ["mod3"].contains (partWord part)
      mod4 := m.mod4 || parts.any fun part => ["super", "mod4", "logo"].contains (partWord part)
      mod5 := m.mod5 || parts.any fun part => ["mod5"].contains (partWord part) } := by
  induction parts with
  | nil => simp
  | cons part parts ih =>
    intro m
    rw [List.foldl_cons, ih, add_eq]
    simp only [List.any_cons, Bool.or_assoc]

/-- A list has the modifiers its parts name. -/
theorem namedModifiers_eq (s : String) : namedModifiers s =
    { shift := names s ["shift"], ctrl := names s ["ctrl", "control"]
      mod1 := names s ["alt", "mod1"], mod3 := names s ["mod3"]
      mod4 := names s ["super", "mod4", "logo"], mod5 := names s ["mod5"] } := by
  rw [namedModifiers, foldl_add]
  simp only [Modifiers.empty, Bool.false_or]
  rfl

/-! ## A list that is not `none` -/

theorem mem_or_isWhitespace {s : List Char} {c : Char} (hc : c ∈ s) :
    isWhitespace c = true ∨ c ∈ trim s := by
  have hdrop : ∀ {l : List Char}, c ∈ l → isWhitespace c = true ∨ c ∈ l.dropWhile isWhitespace := by
    intro l hc
    rw [← List.takeWhile_append_dropWhile (p := isWhitespace) (l := l), List.mem_append] at hc
    exact hc.imp_left List.mem_takeWhile_imp
  rcases hdrop hc with h | h
  · exact Or.inl h
  · rcases hdrop (List.mem_reverse.mpr h) with h | h
    · exact Or.inl h
    · exact Or.inr (List.mem_reverse.mpr h)

theorem splitOn_eq_singleton {p : Char → Bool} : ∀ {s : List Char}, (∀ c ∈ s, p c = false) →
    splitOn p s = [s]
  | [], _ => rfl
  | c :: cs, h => by
    rw [splitOn, h c List.mem_cons_self, splitOn_eq_singleton fun d hd => h d (List.mem_cons_of_mem c hd)]
    rfl

/-- `none` is one part and names no modifier. -/
theorem namedModifiers_none {s : String} (h : toAsciiLowercase (trim s.toList) = "none".toList) :
    namedModifiers s = .empty := by
  have hparts : modifierParts s = [s.toList] := by
    refine splitOn_eq_singleton fun c hc => ?_
    have hne : ∀ sep, toAsciiLowercase [sep] = [sep] → isWhitespace sep = false →
        sep ∉ "none".toList → c ≠ sep := by
      rintro sep hlower hspace hnot rfl
      rcases mem_or_isWhitespace hc with hblank | hmem
      · simp [hspace] at hblank
      · refine hnot (h ▸ List.mem_map.mpr ⟨c, hmem, ?_⟩)
        exact List.head_eq_of_cons_eq hlower
    have hcomma := hne ',' (by decide) (by decide) (by decide)
    have hplus := hne '+' (by decide) (by decide) (by decide)
    simp [hcomma, hplus]
  have hword : partWord s.toList = "none" := by
    rw [partWord, h]
    rfl
  rw [namedModifiers, hparts, List.foldl_cons, List.foldl_nil, add_eq, hword]
  decide

/-- A list that names a modifier has the modifiers it names. -/
theorem parseModifiers_of_named {s : String} (h : namedModifiers s ≠ .empty)
    (configModifier : String) : parseModifiers s configModifier = namedModifiers s := by
  have hnone : toAsciiLowercase (trim s.toList) ≠ "none".toList :=
    fun hnone => h (namedModifiers_none hnone)
  unfold parseModifiers
  rw [if_neg hnone]
  exact if_neg h

/-- An empty field has the configured modifier. -/
theorem parseModifiers_empty (configModifier : String) :
    parseModifiers "" configModifier = defaultModifiers configModifier := by
  unfold parseModifiers
  rw [if_neg (by decide)]
  exact if_pos (by decide)

/-! ## The two ways agree -/

theorem names_append (s : String) (a b : List String) :
    names s (a ++ b) = (names s a || names s b) := by
  rw [Bool.eq_iff_iff]
  simp only [names, List.any_eq_true, List.contains_iff_mem, List.mem_append, Bool.or_eq_true]
  constructor
  · rintro ⟨part, hpart, ha | hb⟩
    · exact Or.inl ⟨part, hpart, ha⟩
    · exact Or.inr ⟨part, hpart, hb⟩
  · rintro (⟨part, hpart, ha⟩ | ⟨part, hpart, hb⟩)
    · exact ⟨part, hpart, Or.inl ha⟩
    · exact ⟨part, hpart, Or.inr hb⟩

theorem namesOnly_iff {s : String} {words : List String} :
    NamesOnly s words ↔ names s (modifierNames.filter fun name => name ∉ words) = false := by
  rw [← Bool.not_eq_true]
  simp only [NamesOnly, names, List.any_eq_true, List.contains_iff_mem, List.mem_filter,
    decide_eq_true_eq, not_exists, not_and, not_not]

/-- The configured modifier is the one named iff it picks the only one named. -/
theorem defaultModifiers_eq_named_iff {s : String} (h : namedModifiers s ≠ .empty) :
    defaultModifiers s = namedModifiers s ↔ PicksNamed s := by
  have hsuper : NamesOnly s ["super", "mod4", "logo"] ↔ names s (["shift"] ++ (["ctrl", "control"] ++
      (["alt", "mod1"] ++ (["mod3"] ++ ["mod5"])))) = false := namesOnly_iff
  have halt : NamesOnly s ["alt", "mod1"] ↔ names s (["shift"] ++ (["ctrl", "control"] ++
      (["super", "mod4", "logo"] ++ (["mod3"] ++ ["mod5"])))) = false := namesOnly_iff
  have hctrl : NamesOnly s ["ctrl", "control"] ↔ names s (["shift"] ++ (["alt", "mod1"] ++
      (["super", "mod4", "logo"] ++ (["mod3"] ++ ["mod5"])))) = false := namesOnly_iff
  unfold defaultModifiers PicksNamed
  rw [hsuper, halt, hctrl]
  simp only [names_append]
  rw [namedModifiers_eq] at h ⊢
  revert h
  generalize (contains "super".toList s.toList || contains "mod4".toList s.toList) = isSuper
  generalize (contains "alt".toList s.toList || contains "mod1".toList s.toList) = isAlt
  generalize contains "ctrl".toList s.toList = isCtrl
  generalize names s ["shift"] = shift
  generalize names s ["ctrl", "control"] = ctrl
  generalize names s ["alt", "mod1"] = mod1
  generalize names s ["mod3"] = mod3
  generalize names s ["super", "mod4", "logo"] = mod4
  generalize names s ["mod5"] = mod5
  revert isSuper isAlt isCtrl shift ctrl mod1 mod3 mod4 mod5
  decide +kernel

/-- A configured modifier that names a modifier is the one that empty fields get, of default
bindings and pointer bindings, iff the substring test picks the only modifier it names. -/
theorem default_modifier_iff (config : Config) (h : namedModifiers config.modifier ≠ .empty) :
    (parseModifiers "" config.modifier = parseModifiers config.modifier config.modifier ∧
        parseModifiers "" config.modifier ≠ .empty ∧
        ∀ b ∈ defaultBindings config, b.2.1 = "" →
          parseModifiers b.2.1 config.modifier =
            parseModifiers config.modifier config.modifier) ↔
      PicksNamed config.modifier := by
  rw [parseModifiers_of_named h, ← defaultModifiers_eq_named_iff h, ← parseModifiers_empty]
  constructor
  · exact fun hsame => hsame.1
  · intro hsame
    exact ⟨hsame, hsame ▸ h, fun b _ hb => hb ▸ hsame⟩

/-- Both names of the first modifier, in two cases. -/
theorem default_modifier_iff_super :
    parseModifiers "" " LOGO ,super" = parseModifiers " LOGO ,super" " LOGO ,super" := by
  have hiff := default_modifier_iff { Config.default with modifier := " LOGO ,super" } (by decide)
  exact (hiff.mpr (by decide)).1

/-- A capital letter : the default bindings grab bare keys. -/
theorem default_modifier_capital : ¬∀ config : Config,
    namedModifiers config.modifier ≠ .empty →
    parseModifiers "" config.modifier = parseModifiers config.modifier config.modifier ∧
      parseModifiers "" config.modifier ≠ .empty := by
  intro hall
  exact (hall { Config.default with modifier := "Super" } (by decide)).2 (by decide)

end Streamwm
