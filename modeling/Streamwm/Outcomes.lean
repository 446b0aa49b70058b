import Mathlib.Data.Nat.Bitwise
import Streamwm.StateOps

/-!
# What the small operations do

The reasoning about tags reads a state through three functions : `tagOwner`, the tag
each output shows (`shown`) and the object of each output (`outputProxy`). This file
says what each assignment does to them, and gives the value of each operation that
indexes once (`refocusOutput_eq`, `activateTag_eq`, `switchActiveTag_eq`), so that no
later proof unfolds one.

`bestTagForOutput_spec` is the specification of the tag choice : it returns a tag the
output owns whenever there is one, and the lowest occupied one if any is occupied.
-/

namespace Streamwm

namespace State

variable {s : State} {i j t u : ℕ}

/-- The tag an output shows. -/
def shown (s : State) (i : ℕ) : Option ℕ :=
  s.outputs[i]?.map (·.activeTag)

/-- The object of an output. -/
def outputProxy (s : State) (i : ℕ) : Option ObjectId :=
  s.outputs[i]?.map (·.proxy)

/-- Some window is on the tag. -/
def Occupied (s : State) (t : ℕ) : Prop :=
  ∃ w ∈ s.windows, w.tag = t

@[simp] theorem shown_markDirty : s.markDirty.shown j = s.shown j := rfl
@[simp] theorem shown_setTagOutput : (s.setTagOutput t i).shown j = s.shown j := rfl
@[simp] theorem shown_setFocusedOutput : (s.setFocusedOutput i).shown j = s.shown j := rfl
@[simp] theorem shown_clearFullscreenOnTag : (s.clearFullscreenOnTag t).shown j = s.shown j := rfl
@[simp] theorem shown_modifyWindow {f : Window → Window} :
    (s.modifyWindow i f).shown j = s.shown j := rfl

@[simp] theorem shown_setFocusedWindow {w : Option ℕ} :
    (s.setFocusedWindow i w).shown j = s.shown j := by
  rw [shown, getElem?_outputs_setFocusedWindow, Option.map_map, shown]
  congr 1
  funext o
  simp only [Function.comp]
  split_ifs <;> rfl

/-- One output shows another tag. -/
theorem shown_setActiveTag :
    (s.setActiveTag i t).shown j = (s.shown j).map fun a => if i = j then t else a := by
  rw [shown, getElem?_outputs_setActiveTag, Option.map_map, shown, Option.map_map]
  congr 1
  funext o
  simp only [Function.comp]
  split_ifs <;> rfl

@[simp] theorem outputProxy_markDirty : s.markDirty.outputProxy j = s.outputProxy j := rfl
@[simp] theorem outputProxy_setTagOutput :
    (s.setTagOutput t i).outputProxy j = s.outputProxy j := rfl
@[simp] theorem outputProxy_setFocusedOutput :
    (s.setFocusedOutput i).outputProxy j = s.outputProxy j := rfl
@[simp] theorem outputProxy_clearFullscreenOnTag :
    (s.clearFullscreenOnTag t).outputProxy j = s.outputProxy j := rfl
@[simp] theorem outputProxy_modifyWindow {f : Window → Window} :
    (s.modifyWindow i f).outputProxy j = s.outputProxy j := rfl

@[simp] theorem outputProxy_setFocusedWindow {w : Option ℕ} :
    (s.setFocusedWindow i w).outputProxy j = s.outputProxy j := by
  rw [outputProxy, getElem?_outputs_setFocusedWindow, Option.map_map, outputProxy]
  congr 1
  funext o
  simp only [Function.comp]
  split_ifs <;> rfl

@[simp] theorem outputProxy_setActiveTag :
    (s.setActiveTag i t).outputProxy j = s.outputProxy j := by
  rw [outputProxy, getElem?_outputs_setActiveTag, Option.map_map, outputProxy]
  congr 1
  funext o
  simp only [Function.comp]
  split_ifs <;> rfl

theorem shown_isSome : (s.shown i).isSome ↔ i < s.outputs.length := by
  simp [shown]

theorem lt_of_shown (h : s.shown i = some t) : i < s.outputs.length :=
  shown_isSome.mp (by simp [h])

/-- A window is visible iff the owner of its tag shows that tag. -/
theorem windowIsVisible_iff {w : Window} : s.windowIsVisible w = true ↔
    ∃ i, s.tagOwner w.tag = some i ∧ s.shown i = some w.tag := by
  unfold windowIsVisible shown
  cases h : s.tagOwner w.tag with
  | none => simp
  | some i => cases h' : s.outputs[i]? <;> simp [h']

/-- A window is on the tag an output shows and owns. -/
theorem onActiveTag_iff {w : Window} :
    s.onActiveTag i t w = true ↔ s.tagOwner w.tag = some i ∧ w.tag = t := by
  simp [onActiveTag]

/-! ## Finding windows -/

theorem mem_of_findWindow {id : ℕ} {w : Window} (h : s.findWindow id = some w) :
    w ∈ s.windows ∧ w.id = id :=
  ⟨List.mem_of_find?_eq_some h, by simpa using List.find?_some h⟩

theorem exists_findWindow_id {w : Window} (hw : w ∈ s.windows) :
    ∃ v, s.findWindow w.id = some v := by
  refine Option.isSome_iff_exists.mp ?_
  exact List.find?_isSome.mpr ⟨w, hw, beq_self_eq_true w.id⟩

/-- A window is found again after a change that keeps the ids. -/
theorem findWindow_of_forall₂ {R : Window → Window → Prop} {s' : State} {id : ℕ} {w : Window}
    (hid : ∀ w w', R w w' → w'.id = w.id) (h : List.Forall₂ R s.windows s'.windows)
    (hw : s.findWindow id = some w) : ∃ w', s'.findWindow id = some w' ∧ R w w' :=
  Partial.find?_of_forall₂ (fun w w' hR => congrArg (· == id) (hid w w' hR)) h hw

/-! ## Focus on an output -/

/-- The focus of an output goes to its target. -/
theorem refocusOutput_eq {out : Output} (h : s.outputs[i]? = some out) :
    s.refocusOutput i = some (s.setFocusedWindow i (s.refocusTarget i out)) := by
  simp [refocusOutput, h]

/-- The chosen window exists and is on the output's active tag. -/
theorem refocusTarget_mem {out : Output} {f : ℕ} (h : s.refocusTarget i out = some f) :
    ∃ w ∈ s.windows, w.id = f ∧ s.tagOwner w.tag = some i ∧ w.tag = out.activeTag := by
  dsimp only [refocusTarget] at h
  split_ifs at h with hkeep
  · rw [h, Option.bind_some] at hkeep
    cases hf : s.findWindow f with
    | none => simp [hf] at hkeep
    | some w =>
      obtain ⟨hw, hid⟩ := mem_of_findWindow hf
      exact ⟨w, hw, hid, onActiveTag_iff.mp (by simpa [hf] using hkeep)⟩
  · obtain ⟨w, hw, hid⟩ := Option.map_eq_some_iff.mp h
    exact ⟨w, List.mem_of_find?_eq_some hw, hid, onActiveTag_iff.mp (List.find?_some hw)⟩

/-- A focused window that is on the output's active tag stays focused. -/
theorem refocusTarget_keep {out : Output} {f : ℕ} {w : Window} (hf : out.focusedWindow = some f)
    (hw : s.findWindow f = some w) (ho : s.tagOwner w.tag = some i) (ht : w.tag = out.activeTag) :
    s.refocusTarget i out = some f := by
  have hon : s.onActiveTag i out.activeTag w = true := onActiveTag_iff.mpr ⟨ho, ht⟩
  simp [refocusTarget, hf, hw, hon]

/-! ## Activating a tag -/

theorem activateTag_eq {out : Output} (h : s.outputs[i]? = some out) :
    ∃ x, s.activateTag i t =
      some (((s.setActiveTag i t).clearFullscreenOnTag out.activeTag).setFocusedWindow i x) := by
  have h' : ((s.setActiveTag i t).clearFullscreenOnTag out.activeTag).outputs[i]? =
      some { out with activeTag := t } := by
    simp [getElem?_outputs_setActiveTag, h]
  exact ⟨_, by rw [activateTag, h, Option.bind_eq_bind, Option.bind_some, refocusOutput_eq h']⟩

theorem switchActiveTag_eq {out : Output} (h : s.outputs[i]? = some out) :
    s.switchActiveTag i t = some
      ((if out.activeTag ≠ t then (s.setActiveTag i t).clearFullscreenOnTag out.activeTag
        else s.setActiveTag i t).setFocusedWindow i
        ((if out.activeTag ≠ t then (s.setActiveTag i t).clearFullscreenOnTag out.activeTag
          else s.setActiveTag i t).refocusTarget i { out with activeTag := t })) := by
  have h' : (s.setActiveTag i t).outputs[i]? = some { out with activeTag := t } := by
    simp [getElem?_outputs_setActiveTag, h]
  rw [switchActiveTag, h]
  dsimp only
  split_ifs with hne
  · exact refocusOutput_eq (s := (s.setActiveTag i t).clearFullscreenOnTag out.activeTag) h'
  · exact refocusOutput_eq h'

/-! ## The choice of a tag -/

/-- In range the shift is defined. -/
theorem shl1_eq (h : t < 32) : shl1 t = some (1 <<< t) :=
  if_pos h

/-- The mask has the bits of the tags with windows. -/
theorem occupiedMask_spec : ∀ (ws : List Window) (acc : ℕ), (∀ w ∈ ws, w.tag < 32) →
    ∃ mask, occupiedMask ws acc = some mask ∧
      ∀ t, mask.testBit t = true ↔ acc.testBit t = true ∨ ∃ w ∈ ws, w.tag = t
  | [], acc, _ => ⟨acc, rfl, by simp⟩
  | w :: ws, acc, h => by
    obtain ⟨mask, hm, hbit⟩ := occupiedMask_spec ws (acc ||| 1 <<< w.tag)
      fun v hv => h v (List.mem_cons_of_mem _ hv)
    refine ⟨mask, by simp [occupiedMask, shl1_eq (h w (by simp)), hm], fun t => ?_⟩
    have hone : (1 <<< w.tag).testBit t = true ↔ w.tag = t := by
      rw [Nat.one_shiftLeft, Nat.testBit_two_pow]
      simp
    rw [hbit, Nat.testBit_or, Bool.or_eq_true, hone]
    simp [or_assoc]

theorem and_one_shiftLeft_ne_zero {mask : ℕ} : mask &&& 1 <<< t ≠ 0 ↔ mask.testBit t = true := by
  rw [Nat.one_shiftLeft, Nat.and_two_pow]
  cases mask.testBit t <;> simp

/-- The search returns the first tag from `k` on that the output owns and the mask
contains. -/
theorem findOccupied_spec (mask : ℕ) : ∀ (ts : List Tag) (k : ℕ), k + ts.length ≤ 32 →
    ∃ r, findOccupied i mask ts k = some r ∧
      (∀ t, r = some t → ∃ n, t = k + n ∧ (ts[n]?.bind (·.output)) = some i ∧
        mask.testBit t = true) ∧
      ∀ n, (ts[n]?.bind (·.output)) = some i → mask.testBit (k + n) = true →
        ∃ t, r = some t ∧ t ≤ k + n
  | [], k, _ => ⟨none, rfl, by simp, by simp⟩
  | tag :: ts, k, hk => by
    simp only [List.length_cons] at hk
    obtain ⟨r, hr, hsound, hleast⟩ := findOccupied_spec mask ts (k + 1) (by omega)
    have hsound' : ∀ t, r = some t → ∃ n, t = k + n ∧
        ((tag :: ts)[n]?.bind (·.output)) = some i ∧ mask.testBit t = true := by
      intro t ht
      obtain ⟨n, rfl, hn⟩ := hsound t ht
      exact ⟨n + 1, by omega, hn⟩
    have hleast' : ∀ n, ((tag :: ts)[n + 1]?.bind (·.output)) = some i →
        mask.testBit (k + (n + 1)) = true → ∃ t, r = some t ∧ t ≤ k + (n + 1) := by
      intro n hn hb
      obtain ⟨t, ht, hle⟩ := hleast n hn (by rwa [Nat.add_assoc, Nat.add_comm 1 n])
      exact ⟨t, ht, by omega⟩
    by_cases hi : tag.output = some i
    · by_cases hb : mask.testBit k = true
      · refine ⟨some k, ?_, ?_, fun n _ _ => ⟨k, rfl, by omega⟩⟩
        · have hne := and_one_shiftLeft_ne_zero.mpr hb
          simp [findOccupied, hi, shl1_eq (show k < 32 by omega), hne]
        · rintro t ht
          obtain rfl := Option.some.inj ht
          exact ⟨0, by simp, by simpa using hi, hb⟩
      · refine ⟨r, ?_, hsound', fun n hn hbn => ?_⟩
        · have heq : mask &&& 1 <<< k = 0 := by
            by_contra hne
            exact hb (and_one_shiftLeft_ne_zero.mp hne)
          simp [findOccupied, hi, shl1_eq (show k < 32 by omega), heq, hr]
        · cases n with
          | zero => exact absurd hbn hb
          | succ n => exact hleast' n hn hbn
    · refine ⟨r, by simp [findOccupied, hi, hr], hsound', fun n hn hbn => ?_⟩
      cases n with
      | zero => exact absurd (by simpa using hn) hi
      | succ n => exact hleast' n hn hbn

/-- `t` is the tag an output should switch to : one it owns, and the lowest occupied one
of these if any is occupied. -/
structure BestTag (s : State) (i t : ℕ) : Prop where
  owned : s.tagOwner t = some i
  first : ∀ u, s.tagOwner u = some i → s.Occupied u → s.Occupied t ∧ t ≤ u

/-- The choice of a tag for an output that does not own its active tag. -/
theorem bestTagForOutput_spec (hw : ∀ w ∈ s.windows, w.tag < 32) (ht : s.tags.length ≤ 32)
    {out : Output} (ho : s.outputs[i]? = some out) (hn : s.tagOwner out.activeTag ≠ some i) :
    ∃ r, s.bestTagForOutput i = some r ∧ (∀ t, r = some t → s.BestTag i t) ∧
      (r = none → ∀ t, s.tagOwner t ≠ some i) := by
  obtain ⟨mask, hmask, hbit⟩ := occupiedMask_spec s.windows 0 hw
  have hocc : ∀ t, mask.testBit t = true ↔ s.Occupied t := fun t => by simp [hbit, Occupied]
  obtain ⟨r, hr, hsound, hleast⟩ := findOccupied_spec (i := i) mask s.tags 0 (by simpa)
  have hdef : ∀ n, (s.tags[n]?.bind (·.output)) = s.tagOwner n := fun _ => rfl
  simp only [Nat.zero_add, hdef] at hsound hleast
  cases r with
  | some t =>
    refine ⟨some t, by simp [bestTagForOutput, ho, hn, hmask, hr], ?_, by simp⟩
    rintro t' ht'
    obtain rfl := Option.some.inj ht'
    obtain ⟨n, rfl, hown, hb⟩ := hsound t rfl
    refine ⟨hown, fun u hu hou => ⟨(hocc _).mp hb, ?_⟩⟩
    obtain ⟨t', ht', hle⟩ := hleast u hu ((hocc u).mpr hou)
    exact (Option.some.inj ht') ▸ hle
  | none =>
    have hunocc : ∀ u, s.tagOwner u = some i → ¬s.Occupied u := by
      intro u hu hou
      obtain ⟨t, h, -⟩ := hleast u hu ((hocc u).mpr hou)
      cases h
    refine ⟨s.tags.findIdx? fun t => t.output == some i,
      by simp [bestTagForOutput, ho, hn, hmask, hr], fun t h => ?_, fun h t hown => ?_⟩
    · obtain ⟨hlt, hout, -⟩ := List.findIdx?_eq_some_iff_getElem.mp h
      exact ⟨by simpa [tagOwner, hlt] using hout, fun u hu hou => absurd hou (hunocc u hu)⟩
    · have hlt : t < s.tags.length := by
        by_contra hge
        rw [tagOwner_eq_none_of_length_le (not_lt.mp hge)] at hown
        cases hown
      have hne := List.findIdx?_eq_none_iff.mp h s.tags[t] (List.getElem_mem hlt)
      simp [tagOwner, hlt] at hown
      simp [hown] at hne

end State

end Streamwm
