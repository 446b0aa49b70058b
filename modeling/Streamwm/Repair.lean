import Mathlib.Algebra.Order.Group.Int
import Mathlib.Data.List.Find
import Streamwm.Library.Segment
import Streamwm.OutputOps

/-!
# Repairing the outputs

`repairOutputs` normalizes the outputs and clamps the floating windows against the owners
this leaves. A second repair finds every output settled and focused as it would be again
(`RestsBelow`, kept by the iterations for later outputs, which only claim tags nobody owned),
and every floating box at rest in the area of its output (`Window.Rests`), so it changes
nothing.
-/

namespace Streamwm

open Partial

/-- A window's float box is inside an area on each axis on which it fits, and at the
area's origin on the others. -/
def Window.Rests (w : Window) (area : ℤ × ℤ × ℕ × ℕ) : Prop :=
  Segment.Rests w.floatX w.floatW area.1 area.2.2.1 ∧
    Segment.Rests w.floatY w.floatH area.2.1 area.2.2.2

namespace State

variable {s s' s₁ : State} {i j k t : ℕ} {out : Output} {w : Window}

/-! ## Focus that stays -/

theorem refocusTarget_map {f : Window → Window} (hid : ∀ w, (f w).id = w.id)
    (hwin : s'.windows = s.windows.map f) (hon : ∀ w ∈ s.windows,
      s'.onActiveTag i out.activeTag (f w) = s.onActiveTag i out.activeTag w) :
    s'.refocusTarget i out = s.refocusTarget i out := by
  have hfind (id : ℕ) : s'.findWindow id = (s.findWindow id).map f := by
    have hcomp : (fun w : Window => w.id == id) ∘ f = fun w => w.id == id :=
      funext fun w => by rw [Function.comp_apply, hid]
    rw [findWindow, hwin, List.find?_map, hcomp]
    rfl
  have hkeep : ((out.focusedWindow.bind s'.findWindow).map (s'.onActiveTag i out.activeTag)).getD
      false = ((out.focusedWindow.bind s.findWindow).map (s.onActiveTag i out.activeTag)).getD
      false := by
    cases out.focusedWindow with
    | none => rfl
    | some id =>
      rw [Option.bind_some, Option.bind_some, hfind]
      cases hw : s.findWindow id with
      | none => rfl
      | some w => exact hon w (mem_of_findWindow hw).1
  have hfirst : (s'.windows.find? (s'.onActiveTag i out.activeTag)).map (·.id) =
      (s.windows.find? (s.onActiveTag i out.activeTag)).map (·.id) := by
    have hsame : s.windows.find? (s'.onActiveTag i out.activeTag ∘ f) =
        s.windows.find? (s.onActiveTag i out.activeTag) := List.find?_congr hon
    rw [hwin, List.find?_map, Option.map_map, hsame, Function.comp_def]
    simp only [hid]
  rw [refocusTarget, refocusTarget, hkeep, hfirst]

/-- A focus that was recomputed is not changed by recomputing it. -/
theorem refocusTarget_idem :
    s.refocusTarget i { out with focusedWindow := s.refocusTarget i out } =
      s.refocusTarget i out := by
  generalize hx : s.refocusTarget i out = x
  have hfirst : x = out.focusedWindow ∨
      x = (s.windows.find? (s.onActiveTag i out.activeTag)).map (·.id) := by
    rw [← hx, refocusTarget]
    split_ifs
    · exact Or.inl rfl
    · exact Or.inr rfl
  rcases hfirst with rfl | hfirst
  · exact hx
  · rw [refocusTarget]
    split_ifs
    · rfl
    · exact hfirst.symm

/-- Nobody below `k` would focus another window. -/
def RestsBelow (k : ℕ) (s : State) : Prop :=
  ∀ j < k, ∀ out, s.outputs[j]? = some out → s.refocusTarget j out = out.focusedWindow

theorem setFocusedWindow_self (hout : s.outputs[i]? = some out) :
    s.setFocusedWindow i out.focusedWindow = s :=
  congrArg (fun os => { s with outputs := os }) (modify_of_fixed hout rfl)

/-- Choosing a tag for one output changes nobody else's focus. -/
theorem Chosen.refocusTarget_ne (h : Chosen s i out t s₁) (hne : i ≠ j) (o : Output) :
    s₁.refocusTarget j o = s.refocusTarget j o := by
  refine refocusTarget_map (f := id) (fun _ => rfl) (by rw [h.windows, List.map_id]) fun w _ => ?_
  rw [id, Bool.eq_iff_iff, onActiveTag_iff, onActiveTag_iff]
  refine and_congr_left fun _ => ⟨fun hown => ?_, h.owner⟩
  rcases h.claimed hown with hown | ⟨-, rfl, -⟩
  · exact hown
  · exact absurd rfl hne

/-- Choosing a tag changes no tag that has an owner. -/
theorem Chosen.tag_of_owned (h : Chosen s i out t s₁) {u : ℕ} {tag : Tag}
    (hu : s.tags[u]? = some tag) (hown : tag.output ≠ none) : s₁.tags[u]? = some tag := by
  cases h with
  | keep _ => exact hu
  | best _ _ => exact hu
  | fresh _ hfree =>
    rcases eq_or_ne t u with rfl | hne
    · have hnone := (firstFreeTag_eq_some hfree).2
      rw [tagOwner, hu] at hnone
      exact absurd hnone hown
    · change (s.tags.modify t _)[u]? = some tag
      rw [List.getElem?_modify, hu]
      simp [hne]
  | left _ _ => exact hu

theorem restsBelow_succ (h : RestsBelow i s) (hout : s.outputs[i]? = some out)
    (hc : Chosen s i out t s₁) : RestsBelow (i + 1)
      (s₁.setFocusedWindow i (s₁.refocusTarget i { out with activeTag := t })) := by
  intro j hj o ho
  have hsame : ∀ o, (s₁.setFocusedWindow i
      (s₁.refocusTarget i { out with activeTag := t })).refocusTarget j o = s₁.refocusTarget j o :=
    fun _ => rfl
  rw [getElem?_outputs_setFocusedWindow] at ho
  rw [hsame]
  rcases eq_or_ne i j with rfl | hne
  · rw [hc.output hout] at ho
    obtain rfl : _ = o := by simpa using ho
    exact refocusTarget_idem
  · have ho' : s.outputs[j]? = some o := by
      rw [← hc.output_ne hne]
      simpa [hne] using ho
    rw [hc.refocusTarget_ne hne]
    exact h j (by omega) o ho'

theorem validFocus_frame (s : State) : ∃ f, s.validFocus = { s with focusedOutput := f } := by
  unfold validFocus
  split
  · split_ifs
    · exact ⟨_, rfl⟩
    · exact ⟨s.focusedOutput, rfl⟩
  · exact ⟨_, rfl⟩

/-- The tags of `s` that have an owner are those of `s'`. -/
def KeepsOwned (s s' : State) : Prop :=
  ∀ (u : ℕ) (tag : Tag), s.tags[u]? = some tag → tag.output ≠ none → s'.tags[u]? = some tag

/-- Normalizing leaves every output focused as it would be again, and owned tags alone. -/
theorem restsBelow_normalizeOutputs {n : State} (hw : ∀ w ∈ s.windows, w.tag < 32)
    (ht : s.tags.length ≤ 32) (hne : s.outputs ≠ []) (h : s.normalizeOutputs = some n) :
    RestsBelow s.outputs.length n ∧ s.KeepsOwned n := by
  obtain ⟨f, hv⟩ := s.validFocus_frame
  have hstep : ∀ i r, i < s.outputs.length →
      Normalizing i s.validFocus r ∧ RestsBelow i r ∧ s.KeepsOwned r →
      ∃ r', normalizeOutput i r = some r' ∧
        Normalizing (i + 1) s.validFocus r' ∧ RestsBelow (i + 1) r' ∧ s.KeepsOwned r' := by
    intro i r hi hr
    rw [hv] at hr ⊢
    obtain ⟨r', hr', hnorm⟩ := hr.1.step hi hw ht
    have hout : r.outputs[i]? = some (s.outputs[i]) :=
      (hr.1.later i le_rfl).trans (List.getElem?_eq_getElem hi)
    obtain ⟨t, s₁, hc, heq⟩ := normalizeOutput_eq (by rwa [hr.1.windows]) (by rwa [hr.1.tags]) hout
    obtain rfl := Option.some.inj (heq.symm.trans hr')
    exact ⟨_, heq, hnorm, restsBelow_succ hr.2.1 hout hc,
      fun u tag hu hown => hc.tag_of_owned (hr.2.2 u tag hu hown) hown⟩
  have hstart : s.KeepsOwned s.validFocus := by
    rw [hv]
    exact fun _ _ hu _ => hu
  obtain ⟨n', hn', -, hrests⟩ := exists_loop _ hstep s.outputs.length 0 s.validFocus
    (Nat.zero_add _) ⟨Normalizing.start _, fun j hj => absurd hj (Nat.not_lt_zero j), hstart⟩
  have hsame : s.normalizeOutputs = some n' := by
    simp [normalizeOutputs, hne, hn']
  exact Option.some.inj (hsame.symm.trans h) ▸ hrests

/-- An output that is settled and focused is left alone. -/
theorem normalizeOutput_of_settled (hw : ∀ w ∈ s.windows, w.tag < 32) (ht : s.tags.length ≤ 32)
    (hout : s.outputs[i]? = some out) (hset : s.Settled i)
    (hrest : s.refocusTarget i out = out.focusedWindow) : normalizeOutput i s = some s := by
  obtain ⟨t, s₁, hc, heq⟩ := normalizeOutput_eq hw ht hout
  have hown := hset _ (Normalizing.shown_eq hout)
  cases hc with
  | keep _ => rw [heq, hrest, setFocusedWindow_self hout]
  | best hn hb =>
    rcases hown with hown | ⟨hno, -⟩
    · exact absurd hown hn
    · exact absurd hb.owned (hno t)
  | fresh hno hfree =>
    rcases hown with hown | ⟨-, hnone⟩
    · exact absurd hown (hno _)
    · cases hfree.symm.trans hnone
  | left _ _ => rw [heq, hrest, setFocusedWindow_self hout]

theorem normalizeOutputs_of_settled (hw : ∀ w ∈ s.windows, w.tag < 32) (ht : s.tags.length ≤ 32)
    (hfoc : ∃ f, s.focusedOutput = some f ∧ f < s.outputs.length)
    (hset : ∀ i < s.outputs.length, s.Settled i) (hrest : RestsBelow s.outputs.length s) :
    s.normalizeOutputs = some s := by
  obtain ⟨f, hf, hlt⟩ := hfoc
  have hne : s.outputs ≠ [] := List.ne_nil_of_length_pos (Nat.zero_lt_of_lt hlt)
  have hstep : ∀ i r, i < s.outputs.length → r = s → ∃ r', normalizeOutput i r = some r' ∧ r' = s := by
    rintro i r hi rfl
    have hout := List.getElem?_eq_getElem hi
    exact ⟨r, normalizeOutput_of_settled hw ht hout (hset i hi) (hrest i hi _ hout), rfl⟩
  obtain ⟨r, hr, rfl⟩ :=
    exists_loop (fun _ r => r = s) hstep s.outputs.length 0 s (Nat.zero_add _) rfl
  simp [normalizeOutputs, validFocus_eq hf hlt, hr, hne]

/-! ## Floating boxes -/

end State

/-- The window with its box slid into an area. -/
def Window.slideInto (w : Window) (area : ℤ × ℤ × ℕ × ℕ) : Window :=
  { w with
    floatX := Segment.slide w.floatX w.floatW area.1 area.2.2.1
    floatY := Segment.slide w.floatY w.floatH area.2.1 area.2.2.2 }

theorem clampInt_eq {v lo hi : ℤ} (h : lo ≤ hi) : clampInt v lo hi = max lo (min v hi) := by
  unfold clampInt
  split_ifs <;> omega

theorem clampRectToArea_eq {x y areaX areaY : ℤ} {width height areaWidth areaHeight : ℕ}
    (hw : areaWidth ≠ 0) (hh : areaHeight ≠ 0) :
    clampRectToArea x y width height areaX areaY areaWidth areaHeight =
      (Segment.slide x width areaX areaWidth, Segment.slide y height areaY areaHeight) := by
  have hslide (v a : ℤ) (n m : ℕ) : clampInt v a (a + (m - min n m : ℕ)) =
      Segment.slide v n a m := by
    rw [clampInt_eq (by omega), Segment.slide]
    omega
  rw [clampRectToArea, if_neg (by omega), hslide, hslide]

namespace State

variable {s : State} {out : Output} {w : Window}

theorem clampOutput_eq {i : ℕ} (h : (s.tagOwner w.tag).or s.focusedOutput = some i) :
    s.clampOutput w = i := by
  rw [clampOutput, h]
  rfl

/-- A floating window on an output with an area is slid into it; any other is left alone. -/
theorem clampFloatingWindow_cases (s : State) (w : Window) :
    s.clampFloatingWindow w = w ∧ (w.floating = true → ∀ out,
      s.outputs[s.clampOutput w]? = some out →
        (outputArea out).2.2.1 = 0 ∨ (outputArea out).2.2.2 = 0) ∨
    w.floating = true ∧ ∃ out, s.outputs[s.clampOutput w]? = some out ∧
      (outputArea out).2.2.1 ≠ 0 ∧ (outputArea out).2.2.2 ≠ 0 ∧
      s.clampFloatingWindow w = w.slideInto (outputArea out) := by
  unfold clampFloatingWindow
  split_ifs with hfl
  · cases hout : s.outputs[s.clampOutput w]? with
    | none => exact Or.inl ⟨rfl, fun _ _ h => by cases h⟩
    | some out =>
      simp only [Option.map_some]
      split_ifs with hempty
      · refine Or.inl ⟨rfl, fun _ _ h => ?_⟩
        obtain rfl := Option.some.inj h
        exact hempty
      · rw [not_or] at hempty
        refine Or.inr ⟨hfl, out, rfl, hempty.1, hempty.2, ?_⟩
        rw [clampRectToArea_eq hempty.1 hempty.2]
        rfl
  · exact Or.inl ⟨rfl, fun h => absurd h hfl⟩

theorem clampFloatingWindow_idem (s : State) (w : Window) :
    s.clampFloatingWindow (s.clampFloatingWindow w) = s.clampFloatingWindow w := by
  rcases s.clampFloatingWindow_cases w with ⟨heq, -⟩ | ⟨hfl, out, hout, hwidth, hheight, heq⟩
  · rw [heq, heq]
  · rw [heq]
    rcases s.clampFloatingWindow_cases (w.slideInto (outputArea out)) with
      ⟨heq', -⟩ | ⟨-, out', hout', -, -, heq'⟩
    · exact heq'
    · obtain rfl : out = out' := Option.some.inj (hout.symm.trans hout')
      rw [heq', Window.slideInto, Window.slideInto, Segment.slide_slide, Segment.slide_slide]

theorem clampFloatingWindows_eq (s : State) :
    s.clampFloatingWindows = { s with windows := s.windows.map s.clampFloatingWindow } := by
  unfold clampFloatingWindows
  split_ifs with hempty
  · have hid : s.windows.map s.clampFloatingWindow = s.windows := by
      refine List.map_id'' (fun w => ?_) _
      simp [clampFloatingWindow, List.isEmpty_iff.mp hempty]
    rw [hid]
  · rfl

/-! ## Repair -/

/-- A state that was normalized and clamped is repaired already. -/
theorem repairOutputs_of_settled (hw : ∀ w ∈ s.windows, w.tag < 32) (ht : s.tags.length ≤ 32)
    (hfoc : ∃ f, s.focusedOutput = some f ∧ f < s.outputs.length)
    (hset : ∀ i < s.outputs.length, s.Settled i) (hrest : RestsBelow s.outputs.length s) :
    s.clampFloatingWindows.repairOutputs = some s.clampFloatingWindows := by
  have hwin : s.clampFloatingWindows.windows = s.windows.map s.clampFloatingWindow := by
    rw [clampFloatingWindows_eq]
  have htarget (i : ℕ) (out : Output) :
      s.clampFloatingWindows.refocusTarget i out = s.refocusTarget i out := by
    refine refocusTarget_map (fun w => (s.clampFloatingWindow_fields w).2.1) hwin fun w _ => ?_
    rw [clampFloatingWindows_eq, onActiveTag, onActiveTag, (s.clampFloatingWindow_fields w).2.2.1]
    rfl
  have hnorm : s.clampFloatingWindows.normalizeOutputs = some s.clampFloatingWindows := by
    have hframe := s.clampFloatingWindows_eq
    refine normalizeOutputs_of_settled ?_ ?_ ?_ ?_ ?_
    · rw [hwin]
      intro w hw'
      obtain ⟨v, hv, rfl⟩ := List.mem_map.mp hw'
      rw [(s.clampFloatingWindow_fields v).2.2.1]
      exact hw v hv
    · rw [hframe]
      exact ht
    · rw [hframe]
      exact hfoc
    · rw [hframe]
      exact hset
    · intro i hi out hout
      rw [htarget]
      rw [hframe] at hi hout
      exact hrest i hi out hout
  have hclamp : s.clampFloatingWindows.clampFloatingWindows = s.clampFloatingWindows := by
    rw [clampFloatingWindows_eq s, clampFloatingWindows_eq, List.map_map]
    exact congrArg (fun ws => { s with windows := ws })
      (List.map_congr_left fun w _ => s.clampFloatingWindow_idem w)
  simp only [repairOutputs, hnorm, hclamp, Option.bind_eq_bind, Option.bind_some, Option.pure_def]

/-- Repairing is normalizing and clamping. -/
theorem repairOutputs_spec (hw : ∀ w ∈ s.windows, w.tag < 32) (ht : s.tags.length ≤ 32) :
    ∃ n, s.repairOutputs = some n.clampFloatingWindows ∧ n.windows = s.windows ∧
      n.clampFloatingWindows.repairOutputs = some n.clampFloatingWindows ∧ s.KeepsOwned n := by
  by_cases hempty : s.outputs = []
  · have hnorm (r : State) (h : r.outputs = []) :
        r.repairOutputs = some { r with focusedOutput := none } := by
      simp [repairOutputs, normalizeOutputs, clampFloatingWindows, h]
    refine ⟨{ s with focusedOutput := none }, ?_, rfl, ?_, fun _ _ h _ => h⟩
    · rw [hnorm s hempty]
      simp [clampFloatingWindows, hempty]
    · have hclamp : ({ s with focusedOutput := none } : State).clampFloatingWindows =
          { s with focusedOutput := none } := by
        simp [clampFloatingWindows, hempty]
      rw [hclamp]
      exact hnorm { s with focusedOutput := none } hempty
  · obtain ⟨n, hn, hnorm⟩ := normalizeOutputs_spec hw ht hempty
    obtain ⟨hrests, hkeeps⟩ := restsBelow_normalizeOutputs hw ht hempty hn
    obtain ⟨f, hv⟩ := s.validFocus_frame
    have hwin : n.windows = s.windows := by
      rw [hnorm.windows, hv]
    have hlen : n.outputs.length = s.outputs.length := by
      rw [hnorm.length, hv]
    have htags : n.tags.length = s.tags.length := by
      rw [hnorm.tags, hv]
    obtain ⟨f', hf', hlt⟩ := (validFocus_spec s hempty).2
    refine ⟨n, by simp only [repairOutputs, hn, Option.bind_eq_bind, Option.bind_some,
      Option.pure_def], hwin, repairOutputs_of_settled (by rwa [hwin]) (by rwa [htags])
      ⟨f', hnorm.focusedOutput.trans hf', by rwa [hlen]⟩ ?_ (by rwa [hlen]), hkeeps⟩
    rw [hlen]
    exact hnorm.settled

/-- Repairing twice is repairing once. After it every floating window whose output has an
area rests in it, having kept its position on each axis on which it did so before; nothing
else of a window changes, and no owned tag does. -/
theorem repairOutputs_rests (hw : ∀ w ∈ s.windows, w.tag < numTags) (ht : s.tags.length = numTags) :
    ∃ r, s.repairOutputs = some r ∧ r.repairOutputs = some r ∧
      (∀ (t : ℕ) (tag : Tag), s.tags[t]? = some tag → tag.output ≠ none →
        r.tags[t]? = some tag) ∧
      List.Forall₂ (fun w w' => (∃ x y, w' = { w with floatX := x, floatY := y }) ∧
        (w.floating = false → w' = w) ∧
        (w.floating = true → ∀ i out, (r.tagOwner w.tag).or r.focusedOutput = some i →
          r.outputs[i]? = some out →
          (outputArea out).2.2.1 ≠ 0 → (outputArea out).2.2.2 ≠ 0 →
            w'.Rests (outputArea out) ∧
            (Segment.Rests w.floatX w.floatW (outputArea out).1 (outputArea out).2.2.1 →
              w'.floatX = w.floatX) ∧
            (Segment.Rests w.floatY w.floatH (outputArea out).2.1 (outputArea out).2.2.2 →
              w'.floatY = w.floatY))) s.windows r.windows := by
  obtain ⟨n, hr, hwin, hidem, hkeeps⟩ := repairOutputs_spec (s := s)
    (fun w h => (hw w h).trans (by decide)) (by rw [ht]; decide)
  refine ⟨_, hr, hidem, ?_, ?_⟩
  · rw [clampFloatingWindows_eq]
    exact hkeeps
  rw [clampFloatingWindows_eq, ← hwin, List.forall₂_map_right_iff]
  refine List.forall₂_same.mpr fun w _ => ?_
  rcases n.clampFloatingWindow_cases w with ⟨heq, hnone⟩ | ⟨hfl, out, hout, -, -, heq⟩
  · rw [heq]
    refine ⟨⟨w.floatX, w.floatY, rfl⟩, fun _ => rfl, fun hfl i out hi hout hwidth hheight => ?_⟩
    have hclamp : n.clampOutput w = i := clampOutput_eq (s := n) hi
    rcases hnone hfl out (hclamp ▸ hout) with h | h
    · exact absurd h hwidth
    · exact absurd h hheight
  · rw [heq]
    refine ⟨⟨_, _, rfl⟩, fun hnot => absurd (hnot.symm.trans hfl) (by simp),
      fun _ i out' hi hout' _ _ => ?_⟩
    have hclamp : n.clampOutput w = i := clampOutput_eq (s := n) hi
    obtain rfl : out = out' := Option.some.inj ((hclamp ▸ hout).symm.trans hout')
    exact ⟨⟨Segment.rests_slide, Segment.rests_slide⟩, Segment.slide_of_rests,
      Segment.slide_of_rests⟩

/-- A window half off its output is moved in. -/
theorem repairOutputs_rests_moved : ∃ (s r : State) (w w' : Window), s.windows = [w] ∧
    s.repairOutputs = some r ∧ r.windows = [w'] ∧ w.floatX = 800 ∧ w.floatW = 400 ∧
      Segment.Inside w'.floatX 400 0 1000 := by
  let s : State := { (State.new (11 / 20)).setTagOutput 0 0 with
    outputs := [{ Output.new 1 with width := 1000, height := 600 }]
    windows := [{ Window.new 1 2 0 with floating := true, floatX := 800, floatW := 400 }]
    focusedOutput := some 0 }
  let out : Output := { Output.new 1 with width := 1000, height := 600, focusedWindow := some 1 }
  have houtputs : s.repairOutputs.map (·.outputs) = some [out] := rfl
  obtain ⟨r, hr, -, htags, hall⟩ := repairOutputs_rests (s := s) (by decide) rfl
  rw [hr] at houtputs
  have hout : r.outputs = [out] := Option.some.inj houtputs
  have hown : (r.tagOwner 0).or r.focusedOutput = some 0 := by
    rw [tagOwner, htags 0 _ rfl (by decide)]
    rfl
  obtain ⟨w', hwin⟩ := List.length_eq_one_iff.mp hall.length_eq.symm
  rw [hwin] at hall
  obtain ⟨⟨⟨x, y, hw'⟩, -, hrests⟩, -⟩ := List.forall₂_cons.mp hall
  have hrests := hrests rfl 0 out hown (by rw [hout]; rfl) (by decide) (by decide)
  have hwidth : w'.floatW = 400 := congrArg Window.floatW hw'
  have hinside := hrests.1.1.1 (by rw [hwidth]; decide)
  rw [hwidth] at hinside
  exact ⟨s, r, _, w', rfl, hr, hwin, rfl, rfl, hinside⟩

end State

end Streamwm
