import Streamwm.Op

/-!
# Adding, removing and moving outputs

The three operations that end in `normalizeOutputs`. `dropOutput` takes an output out of
the vector and remaps every index; the lemmas about it say where an index of the new
state was in the old one (`oldIndex`). `removeOutput_spec`, `addOutput_spec` and
`outputGeometry_spec` give the outcome of each operation on a well-formed state as a run
of the normalization loop from an explicit state.
-/

namespace Streamwm

open Partial

namespace State

variable {s s' r : State} {i j t : ℕ}

/-! ## Clamping floating windows -/

/-- A clamped window is moved and nothing else. -/
theorem clampFloatingWindow_fields (s : State) (w : Window) :
    (s.clampFloatingWindow w).proxy = w.proxy ∧ (s.clampFloatingWindow w).id = w.id ∧
      (s.clampFloatingWindow w).tag = w.tag ∧
      (s.clampFloatingWindow w).fullscreen = w.fullscreen := by
  unfold clampFloatingWindow
  split_ifs
  · split
    · simp
    · split_ifs <;> simp
  · simp

/-- Clamping changes no tag, output or focus. -/
theorem quiet_clampFloatingWindows (s : State) : s.Quiet s.clampFloatingWindows := by
  unfold clampFloatingWindows
  split_ifs
  · exact ⟨rfl, rfl, List.forall₂_same.mpr fun _ _ => ⟨rfl, rfl, rfl, id⟩, rfl, rfl⟩
  · refine ⟨rfl, rfl, ?_, rfl, rfl⟩
    rw [List.forall₂_map_right_iff]
    refine List.forall₂_same.mpr fun w _ => ?_
    obtain ⟨h1, h2, h3, h4⟩ := s.clampFloatingWindow_fields w
    exact ⟨h1, h2, h3, fun h => h4 ▸ h⟩

/-- Clamping changes no fullscreen state. -/
theorem sameApplied_clampFloatingWindows (s : State) : s.SameApplied s.clampFloatingWindows := by
  unfold clampFloatingWindows
  split_ifs
  · exact SameApplied.refl s
  · refine List.forall₂_map_right_iff.mpr (List.forall₂_same.mpr fun w _ => ?_)
    unfold clampFloatingWindow
    split_ifs
    · split
      · rfl
      · split_ifs <;> rfl
    · rfl

/-! ## Valid focus -/

/-- A focus that is in range stays. -/
theorem validFocus_eq {f : ℕ} (h : s.focusedOutput = some f) (hf : f < s.outputs.length) :
    s.validFocus = s := by
  simp [validFocus, h, hf]

/-- With an output, the focus is on one. -/
theorem validFocus_spec (s : State) (hne : s.outputs ≠ []) : Same s s.validFocus ∧
    ∃ f, s.validFocus.focusedOutput = some f ∧ f < s.outputs.length := by
  have hpos : 0 < s.outputs.length := List.length_pos_iff.mpr hne
  unfold validFocus
  split
  · next f hf =>
    split_ifs with hle
    · exact ⟨same_setFocusedOutput hpos, 0, rfl, hpos⟩
    · exact ⟨Same.refl s, f, hf, not_le.mp hle⟩
  · exact ⟨same_setFocusedOutput hpos, 0, rfl, hpos⟩

/-! ## Taking an output out -/

/-- Where the output `j` of the state without output `i` was. -/
def oldIndex (i j : ℕ) : ℕ :=
  if j < i then j else j + 1

/-- Where the output `j` is once output `i` is gone. -/
def newIndex (i j : ℕ) : ℕ :=
  if j > i then j - 1 else j

theorem oldIndex_ne : oldIndex i j ≠ i := by
  unfold oldIndex
  split_ifs <;> omega

theorem oldIndex_newIndex (h : j ≠ i) : oldIndex i (newIndex i j) = j := by
  unfold oldIndex newIndex
  split_ifs <;> omega

theorem newIndex_oldIndex : newIndex i (oldIndex i j) = j := by
  unfold oldIndex newIndex
  split_ifs <;> omega

/-- What was in range is in range of what is left. -/
theorem lt_of_oldIndex_lt {n : ℕ} (hi : i < n) (h : oldIndex i j < n) : j < n - 1 := by
  unfold oldIndex at h
  split_ifs at h <;> omega

/-- The outputs after the one taken out move down. -/
theorem getElem?_outputs_dropOutput (s : State) :
    (s.dropOutput i).outputs[j]? = s.outputs[oldIndex i j]? := by
  simp only [dropOutput, List.getElem?_eraseIdx, oldIndex]
  split_ifs <;> rfl

theorem shown_dropOutput : (s.dropOutput i).shown j = s.shown (oldIndex i j) := by
  rw [shown, getElem?_outputs_dropOutput, ← shown]

theorem outputProxy_dropOutput :
    (s.dropOutput i).outputProxy j = s.outputProxy (oldIndex i j) := by
  rw [outputProxy, getElem?_outputs_dropOutput, ← outputProxy]

theorem length_outputs_dropOutput (hi : i < s.outputs.length) :
    (s.dropOutput i).outputs.length = s.outputs.length - 1 := by
  simp [dropOutput, List.length_eraseIdx, hi]

theorem tags_dropOutput : (s.dropOutput i).tags = s.tags.map fun t =>
    { t with output := remapOwner i (s.outputs.eraseIdx i).length t.output } := by
  simp only [dropOutput, remapTagOwners, List.map_map, List.zipWith_map_right, List.zipWith_self]
  rfl

@[simp] theorem length_tags_dropOutput : (s.dropOutput i).tags.length = s.tags.length := by
  simp [tags_dropOutput]

@[simp] theorem windows_dropOutput : (s.dropOutput i).windows = s.windows := rfl

/-- The owners move down with their outputs. -/
theorem tagOwner_dropOutput (hi : i < s.outputs.length) :
    (s.dropOutput i).tagOwner t = remapOwner i (s.outputs.length - 1) (s.tagOwner t) := by
  have hlen : (s.outputs.eraseIdx i).length = s.outputs.length - 1 := by
    simp [List.length_eraseIdx, hi]
  rw [tagOwner, tags_dropOutput, List.getElem?_map, hlen, tagOwner]
  cases s.tags[t]? <;> rfl

/-- With outputs left, tags of other outputs follow them. -/
theorem tagOwner_dropOutput_of_ne (hi : i < s.outputs.length) (hlen : 1 < s.outputs.length)
    (hj : j ≠ i) (h : s.tagOwner t = some j) :
    (s.dropOutput i).tagOwner t = some (newIndex i j) := by
  have hpos : s.outputs.length - 1 ≠ 0 := by omega
  rw [tagOwner_dropOutput hi, h]
  simp only [remapOwner, newIndex, if_neg hpos, if_neg hj]
  split_ifs <;> rfl

/-- With outputs left, tags of the removed output go to the first one. -/
theorem tagOwner_dropOutput_self (hi : i < s.outputs.length) (hlen : 1 < s.outputs.length)
    (h : s.tagOwner t = some i) : (s.dropOutput i).tagOwner t = some 0 := by
  have hpos : s.outputs.length - 1 ≠ 0 := by omega
  rw [tagOwner_dropOutput hi, h]
  simp only [remapOwner, if_neg hpos, if_true]

/-- An owner in the new state was the owner at its old place, or inherited from the
removed output. -/
theorem tagOwner_of_dropOutput (hi : i < s.outputs.length)
    (h : (s.dropOutput i).tagOwner t = some j) :
    s.tagOwner t = some (oldIndex i j) ∨ s.tagOwner t = some i ∧ j = 0 := by
  rw [tagOwner_dropOutput hi] at h
  cases ho : s.tagOwner t with
  | none => simp [ho, remapOwner] at h
  | some o =>
    simp only [ho, remapOwner] at h
    unfold oldIndex
    split_ifs at h with _ hoi _ <;> obtain rfl := Option.some.inj h
    · exact Or.inr ⟨by rw [hoi], rfl⟩
    · refine Or.inl (congrArg some ?_)
      split_ifs <;> omega
    · refine Or.inl (congrArg some ?_)
      split_ifs <;> omega

/-- Without outputs left no tag has an owner. -/
theorem tagOwner_dropOutput_last (hlen : s.outputs.length = 1) (hi : i < s.outputs.length) :
    (s.dropOutput i).tagOwner t = none := by
  rw [tagOwner_dropOutput hi, hlen]
  cases s.tagOwner t <;> rfl

theorem focusedOutput_dropOutput : (s.dropOutput i).focusedOutput =
    remapFocus s.focusedOutput i (s.outputs.eraseIdx i).length := rfl

/-- With outputs left, focus stays on an output. -/
theorem validFocus_dropOutput (hs : s.WellFormed) (hi : i < s.outputs.length)
    (hlen : 1 < s.outputs.length) : (s.dropOutput i).validFocus = s.dropOutput i := by
  have hlen' : (s.outputs.eraseIdx i).length = s.outputs.length - 1 := by
    simp [List.length_eraseIdx, hi]
  have hne : s.focusedOutput ≠ none := by
    rw [Ne, hs.focus]
    rintro h
    simp [h] at hi
  obtain ⟨f, hf⟩ := Option.ne_none_iff_exists'.mp hne
  have hlt := hs.focused f hf
  have hval : ∃ f', remapFocus (some f) i (s.outputs.length - 1) = some f' ∧
      f' < s.outputs.length - 1 := by
    unfold remapFocus
    simp only [Option.some.injEq, Option.map_some]
    split_ifs <;> first | omega | exact ⟨_, rfl, by omega⟩
  obtain ⟨f', hf', hlt'⟩ := hval
  refine validFocus_eq (f := f') ?_ (by rw [length_outputs_dropOutput hi]; exact hlt')
  rw [focusedOutput_dropOutput, hlen', hf, hf']

/-- Removing an output of several : the tags are remapped, the rest is normalized, the
floating windows are clamped. -/
theorem removeOutput_spec (hs : s.WellFormed) (hi : i < s.outputs.length)
    (hlen : 1 < s.outputs.length) : ∃ r, s.removeOutput i = some r.clampFloatingWindows ∧
      Normalizing (s.dropOutput i).outputs.length (s.dropOutput i) r := by
  have hne : (s.dropOutput i).outputs ≠ [] := by
    rw [← List.length_pos_iff, length_outputs_dropOutput hi]
    omega
  obtain ⟨r, hr, hn⟩ := normalizeOutputs_spec (s := s.dropOutput i) hs.window_lt
    (by rw [length_tags_dropOutput]; exact hs.tags_le) hne
  rw [validFocus_dropOutput hs hi hlen] at hn
  exact ⟨r, by simp [removeOutput, not_le.mpr hi, hr], hn⟩

/-- Removing the last output. -/
theorem removeOutput_last (hi : i < s.outputs.length) (hlen : s.outputs.length = 1) :
    s.removeOutput i = some { s.dropOutput i with focusedOutput := none } := by
  have hnil : (s.dropOutput i).outputs = [] := by
    rw [← List.length_eq_zero_iff, length_outputs_dropOutput hi]
    omega
  simp [removeOutput, not_le.mpr hi, normalizeOutputs, hnil, clampFloatingWindows]

/-! ## Adding an output -/

/-- The state with a new output at the end, before it gets a tag. -/
def pushOutput (s : State) (proxy : ObjectId) : State :=
  { s with outputs := s.outputs ++ [Output.new proxy] }

variable {proxy : ObjectId}

theorem getElem?_outputs_pushOutput (h : j ≠ s.outputs.length) :
    (s.pushOutput proxy).outputs[j]? = s.outputs[j]? := by
  rcases Nat.lt_or_gt_of_ne h with h | h
  · simp [pushOutput, List.getElem?_append_left h]
  · rw [List.getElem?_eq_none (by simp [pushOutput]; omega), List.getElem?_eq_none h.le]

theorem getElem?_outputs_pushOutput_self :
    (s.pushOutput proxy).outputs[s.outputs.length]? = some (Output.new proxy) := by
  simp [pushOutput]

@[simp] theorem length_outputs_pushOutput :
    (s.pushOutput proxy).outputs.length = s.outputs.length + 1 := by
  simp [pushOutput]

@[simp] theorem tagOwner_pushOutput : (s.pushOutput proxy).tagOwner t = s.tagOwner t := rfl
@[simp] theorem tags_pushOutput : (s.pushOutput proxy).tags = s.tags := rfl
@[simp] theorem windows_pushOutput : (s.pushOutput proxy).windows = s.windows := rfl

/-- The state a new output is normalized in : it has the first free tag, if there is
one. -/
def withNewOutput (s : State) (proxy : ObjectId) : State :=
  match s.firstFreeTag with
  | some t => ((s.pushOutput proxy).setTagOutput t s.outputs.length).setActiveTag
      s.outputs.length t
  | none => s.pushOutput proxy

@[simp] theorem length_outputs_withNewOutput :
    (s.withNewOutput proxy).outputs.length = s.outputs.length + 1 := by
  unfold withNewOutput
  split <;> simp

@[simp] theorem length_tags_withNewOutput :
    (s.withNewOutput proxy).tags.length = s.tags.length := by
  unfold withNewOutput
  split <;> simp

@[simp] theorem windows_withNewOutput : (s.withNewOutput proxy).windows = s.windows := by
  unfold withNewOutput
  split <;> simp

theorem getElem?_outputs_withNewOutput (h : j ≠ s.outputs.length) :
    (s.withNewOutput proxy).outputs[j]? = s.outputs[j]? := by
  unfold withNewOutput
  split <;> simp [getElem?_outputs_setActiveTag, getElem?_outputs_pushOutput h, h.symm]

theorem shown_withNewOutput (h : j ≠ s.outputs.length) :
    (s.withNewOutput proxy).shown j = s.shown j := by
  rw [shown, getElem?_outputs_withNewOutput h, ← shown]

/-- The new output shows the first free tag. -/
theorem shown_withNewOutput_self (h : s.firstFreeTag = some t) :
    (s.withNewOutput proxy).shown s.outputs.length = some t := by
  have hself : (s.pushOutput proxy).shown s.outputs.length = some 0 := by
    rw [shown, getElem?_outputs_pushOutput_self]
    rfl
  have hdef :
      s.withNewOutput proxy = ((s.pushOutput proxy).setTagOutput t s.outputs.length).setActiveTag
      s.outputs.length t := by simp only [withNewOutput, h]
  rw [hdef, shown_setActiveTag, shown_setTagOutput, hself, Option.map_some, if_pos rfl]

theorem shown_withNewOutput_of_none (h : s.firstFreeTag = none) :
    (s.withNewOutput proxy).shown s.outputs.length = some 0 := by
  have hdef : s.withNewOutput proxy = s.pushOutput proxy := by simp only [withNewOutput, h]
  rw [hdef, shown, getElem?_outputs_pushOutput_self]
  rfl

/-- The new output owns the first free tag; nothing else changes owner. -/
theorem tagOwner_withNewOutput : (s.withNewOutput proxy).tagOwner t =
    if s.firstFreeTag = some t then some s.outputs.length else s.tagOwner t := by
  unfold withNewOutput
  split
  · next u hu =>
    have hlt : u < (s.pushOutput proxy).tags.length := (firstFreeTag_eq_some hu).1
    rw [tagOwner_setActiveTag, tagOwner_setTagOutput hlt]
    simp [hu, eq_comm]
  · next hnone => simp [hnone]

/-- Adding an output : it takes the first free tag, the rest is normalized, focus is on
some output. -/
theorem addOutput_spec (hs : s.WellFormed) (proxy : ObjectId) : ∃ r, s.addOutput proxy = some r ∧
    Normalizing (s.outputs.length + 1) (s.withNewOutput proxy).validFocus r := by
  have hnone : (s.tags.any fun t => t.output == some s.outputs.length) = false := by
    rw [List.any_eq_false]
    intro tag htag hout
    obtain ⟨k, hk, rfl⟩ := List.getElem_of_mem htag
    have hown : s.tagOwner k = some s.outputs.length := by simpa [tagOwner, hk] using hout
    exact absurd (hs.owner k _ hown) (lt_irrefl _)
  have hne : (s.withNewOutput proxy).outputs ≠ [] := by
    rw [← List.length_pos_iff, length_outputs_withNewOutput]
    omega
  obtain ⟨r, hr, hn⟩ := normalizeOutputs_spec (s := s.withNewOutput proxy)
    (by rw [windows_withNewOutput]; exact hs.window_lt)
    (by rw [length_tags_withNewOutput]; exact hs.tags_le) hne
  rw [length_outputs_withNewOutput] at hn
  have hfocus : r.focusedOutput.isNone = false := by
    obtain ⟨-, f, hf, -⟩ := validFocus_spec _ hne
    rw [hn.focusedOutput, hf]
    rfl
  have hinit : (s.pushOutput proxy).assignInitialTag s.outputs.length = some r := by
    have hfree : (s.pushOutput proxy).firstFreeTag = s.firstFreeTag := rfl
    rw [assignInitialTag, tags_pushOutput, hnone, if_neg Bool.false_ne_true, hfree, ← hr]
    unfold withNewOutput
    cases s.firstFreeTag <;> rfl
  refine ⟨r, ?_, hn⟩
  change ((s.pushOutput proxy).assignInitialTag s.outputs.length).bind _ = _
  rw [hinit, Option.bind_some, hfocus]
  rfl

/-! ## Geometry -/

theorem sight_setGeometry (o : Output) (g : GeometryEvent) : (o.setGeometry g).sight = o.sight := by
  cases g <;> rfl

/-- Geometry is neither tag nor focus. -/
theorem quiet_setGeometry (s : State) (i : ℕ) (g : GeometryEvent) :
    s.Quiet (s.setGeometry i g) :=
  ⟨rfl, map_modify Output.sight (fun o => sight_setGeometry o g) s.outputs i,
    List.forall₂_same.mpr fun _ _ => ⟨rfl, rfl, rfl, id⟩, rfl, rfl⟩

/-- A geometry event : normalize and clamp, with the focus where it was. -/
theorem outputGeometry_spec (hs : s.WellFormed) (g : GeometryEvent) :
    ∃ r, (s.setGeometry i g).repairOutputs = some r.clampFloatingWindows ∧
      (s.outputs = [] ∧ r = { s.setGeometry i g with focusedOutput := none } ∨
        s.outputs ≠ [] ∧ Normalizing s.outputs.length (s.setGeometry i g) r) := by
  have hlen : (s.setGeometry i g).outputs.length = s.outputs.length := by simp [setGeometry]
  rcases eq_or_ne s.outputs [] with hnil | hne
  · have hnil' : (s.setGeometry i g).outputs = [] := by
      rw [← List.length_eq_zero_iff, hlen, hnil, List.length_nil]
    exact ⟨_, by simp [repairOutputs, normalizeOutputs, hnil'], Or.inl ⟨hnil, rfl⟩⟩
  · have hne' : (s.setGeometry i g).outputs ≠ [] := by
      rw [← List.length_pos_iff, hlen, List.length_pos_iff]
      exact hne
    obtain ⟨r, hr, hn⟩ := normalizeOutputs_spec (s := s.setGeometry i g) hs.window_lt hs.tags_le
      hne'
    obtain ⟨f, hf⟩ := Option.ne_none_iff_exists'.mp (mt hs.focus.mp hne)
    rw [validFocus_eq (s := s.setGeometry i g) hf (by rw [hlen]; exact hs.focused f hf), hlen] at hn
    exact ⟨r, by simp [repairOutputs, hr], Or.inr ⟨hne, hn⟩⟩

end State

end Streamwm
