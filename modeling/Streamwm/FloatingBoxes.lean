import Streamwm.EventLoop
import Streamwm.PlacementOrder
import Streamwm.Repair
import Streamwm.Tiling

/-!
# Where floating windows end up

Two things move the box of a floating window away from its output. The repair of the outputs
clamps the box with the stored size, a manage sequence proposes the size its hints allow
(`Window.hintedSize`), and a larger one can reach out (`repairOutputs_hinted_iff`). Sending a
window to a tag of another output leaves its box where it is (`sendFocusedToTag_inside_iff`).
-/

namespace Streamwm

open Partial Transition

/-- The size a manage sequence proposes to a floating window. -/
def Window.hintedSize (w : Window) : ℕ × ℕ :=
  clampToHints w.floatW w.floatH w.minWidth w.minHeight w.maxWidth w.maxHeight

/-- The box of a window at the size proposed to it. -/
def Window.hintedBox (w : Window) : Geometry :=
  { x := w.floatX, y := w.floatY, width := w.hintedSize.1, height := w.hintedSize.2 }

namespace State

variable {s r n : State} {w : Window} {out : Output} {i o p t : ℕ}

/-! ## The proposed size -/

theorem mem_proposeFloats (hw : w ∈ s.windows) (hfl : w.floating = true) (hwidth : 0 < w.floatW)
    (hheight : 0 < w.floatH) :
    .proposeDimensions w.proxy w.hintedSize.1 w.hintedSize.2 ∈ s.proposeFloats := by
  refine List.mem_flatMap.mpr ⟨w, List.mem_filter.mpr ⟨hw, hfl⟩, ?_⟩
  rw [if_pos ⟨hwidth, hheight⟩]
  exact List.mem_singleton_self _

theorem hintedSize_pos (hwidth : 0 < w.floatW) (hheight : 0 < w.floatH) :
    0 < w.hintedSize.1 ∧ 0 < w.hintedSize.2 := by
  unfold Window.hintedSize clampToHints
  dsimp only
  constructor <;> split_ifs <;> omega

/-- The windows, and the areas of the outputs. -/
def windowsAndAreas (s : State) : List Window × List (ℤ × ℤ × ℕ × ℕ) :=
  (s.windows, s.outputs.map outputArea)

theorem windowsAndAreas_setActiveTag : (s.setActiveTag i t).windowsAndAreas = s.windowsAndAreas :=
  Prod.ext rfl (map_modify (f := fun o : Output => { o with activeTag := t }) outputArea
    (fun _ => rfl) _ i)

theorem windowsAndAreas_refocusOutput (h : s.refocusOutput i = some r) :
    r.windowsAndAreas = s.windowsAndAreas := by
  obtain ⟨out, -, hr⟩ := Option.bind_eq_some_iff.mp h
  rw [← Option.some.inj hr]
  exact Prod.ext rfl (map_modify
    (f := fun o : Output => { o with focusedWindow := s.refocusTarget i out }) outputArea
    (fun _ => rfl) _ i)

theorem windowsAndAreas_normalizeOutput (h : normalizeOutput i s = some r) :
    r.windowsAndAreas = s.windowsAndAreas := by
  obtain ⟨out, -, h⟩ := Option.bind_eq_some_iff.mp h
  split_ifs at h
  · obtain ⟨best, -, h⟩ := Option.bind_eq_some_iff.mp h
    split at h
    · exact (windowsAndAreas_refocusOutput h).trans windowsAndAreas_setActiveTag
    · split at h
      · exact (windowsAndAreas_refocusOutput h).trans windowsAndAreas_setActiveTag
      · exact windowsAndAreas_refocusOutput h
  · exact windowsAndAreas_refocusOutput h

theorem windowsAndAreas_normalizeOutputs (h : s.normalizeOutputs = some r) :
    r.windowsAndAreas = s.windowsAndAreas := by
  unfold normalizeOutputs at h
  split_ifs at h
  · rw [← Option.some.inj h]
    rfl
  · obtain ⟨f, hv⟩ := s.validFocus_frame
    rw [loop_keeps windowsAndAreas (fun _ _ _ => windowsAndAreas_normalizeOutput) h, hv]
    rfl

/-! ## Repaired boxes -/

theorem clampOutput_of_windowOutput (hi : s.windowOutput w = some i) (hout : s.outputs[i]? = some out) :
    s.clampOutput w = i := by
  have hne : s.outputs ≠ [] := by
    rintro hnil
    simp [hnil] at hout
  unfold windowOutput activeOutput at hi
  unfold clampOutput
  cases hown : s.tagOwner w.tag <;> cases hf : s.focusedOutput <;> simp [hown, hf, hne] at hi ⊢ <;>
    exact hi

/-- A window that a repair clamped is inside at the proposed size iff this is no larger than
the stored one, or the box of this size did not reach out in the first place. -/
theorem clampFloatingWindow_hinted_iff (hfl : w.floating = true) (hwidth : 0 < w.floatW)
    (hheight : 0 < w.floatH) (hi : s.windowOutput w = some i) (hout : s.outputs[i]? = some out)
    (hfit : w.hintedSize.1 ≤ (outputArea out).2.2.1 ∧ w.hintedSize.2 ≤ (outputArea out).2.2.2) :
    (s.clampFloatingWindow w).hintedBox.Inside (outputArea out) ↔
      (w.hintedSize.1 ≤ w.floatW ∨
        w.floatX + w.hintedSize.1 ≤ (outputArea out).1 + (outputArea out).2.2.1) ∧
      (w.hintedSize.2 ≤ w.floatH ∨
        w.floatY + w.hintedSize.2 ≤ (outputArea out).2.1 + (outputArea out).2.2.2) := by
  have hpos := hintedSize_pos hwidth hheight
  have hclamp := clampOutput_of_windowOutput hi hout
  rcases s.clampFloatingWindow_cases w with ⟨-, hempty⟩ | ⟨-, out', hout', -, -, heq⟩
  · have := hempty hfl out (hclamp.symm ▸ hout)
    omega
  · obtain rfl : out = out' := Option.some.inj (hout.symm.trans (hclamp ▸ hout'))
    have hx := Segment.inside_slide_iff (x := w.floatX) (w := (w.floatW : ℤ))
      (a := (outputArea out).1) (Nat.cast_le.mpr hfit.1)
    have hy := Segment.inside_slide_iff (x := w.floatY) (w := (w.floatH : ℤ))
      (a := (outputArea out).2.1) (Nat.cast_le.mpr hfit.2)
    rw [Nat.cast_le] at hx hy
    rw [heq, ← hx, ← hy]
    exact and_assoc.symm

theorem clampFloatingWindow_moves (s : State) (w : Window) :
    ∃ x y, s.clampFloatingWindow w = { w with floatX := x, floatY := y } := by
  rcases s.clampFloatingWindow_cases w with ⟨heq, -⟩ | ⟨-, out, -, -, -, heq⟩
  · exact ⟨w.floatX, w.floatY, heq⟩
  · exact ⟨_, _, heq⟩

/-- After a repair a floating window whose proposed size fits lies inside the area of the
output it is shown on iff, on each axis, this size is no larger than the stored one or the box
of this size did not reach out before. -/
theorem repairOutputs_hinted_iff (h : s.repairOutputs = some r) {k : ℕ}
    (hw : s.windows[k]? = some w) (hfl : w.floating = true) (hwidth : 0 < w.floatW)
    (hheight : 0 < w.floatH) : ∃ w', r.windows[k]? = some w' ∧ w'.id = w.id ∧
      .proposeDimensions w'.proxy w'.hintedSize.1 w'.hintedSize.2 ∈ r.proposeFloats ∧
      ∀ i out, r.windowOutput w' = some i → s.outputs[i]? = some out → ∃ out',
        r.outputs[i]? = some out' ∧ outputArea out' = outputArea out ∧
        ((w'.hintedSize.1 ≤ (outputArea out').2.2.1 → w'.hintedSize.2 ≤ (outputArea out').2.2.2 →
            w'.hintedBox.Inside (outputArea out')) ↔
          (w.hintedSize.1 ≤ (outputArea out).2.2.1 → w.hintedSize.2 ≤ (outputArea out).2.2.2 →
            (w.hintedSize.1 ≤ w.floatW ∨
              w.floatX + w.hintedSize.1 ≤ (outputArea out).1 + (outputArea out).2.2.1) ∧
            (w.hintedSize.2 ≤ w.floatH ∨
              w.floatY + w.hintedSize.2 ≤ (outputArea out).2.1 + (outputArea out).2.2.2))) := by
  obtain ⟨n, hn, hr⟩ := Option.bind_eq_some_iff.mp h
  obtain rfl := Option.some.inj hr
  obtain ⟨hwindows, hareas⟩ := Prod.mk.inj (windowsAndAreas_normalizeOutputs hn)
  rw [clampFloatingWindows_eq]
  obtain ⟨x, y, hbox⟩ := n.clampFloatingWindow_moves w
  have hget : (n.windows.map n.clampFloatingWindow)[k]? = some (n.clampFloatingWindow w) := by
    rw [List.getElem?_map, hwindows, hw]
    rfl
  have hsize : (n.clampFloatingWindow w).hintedSize = w.hintedSize := by
    rw [hbox]
    rfl
  refine ⟨_, hget, (n.clampFloatingWindow_fields w).2.1, ?_, fun i out hi hout => ?_⟩
  · refine mem_proposeFloats (List.mem_of_getElem? hget) ?_ ?_ ?_ <;> rw [hbox]
    · exact hfl
    · exact hwidth
    · exact hheight
  · have hi' : n.windowOutput w = some i := by
      rw [hbox] at hi
      exact hi
    obtain ⟨out', hout', harea⟩ : ∃ out', n.outputs[i]? = some out' ∧
        outputArea out' = outputArea out := by
      refine Option.map_eq_some_iff.mp ?_
      rw [← List.getElem?_map, hareas, List.getElem?_map, hout]
      rfl
    refine ⟨out', hout', harea, ?_⟩
    rw [hsize, harea]
    refine forall_congr' fun hfit => forall_congr' fun hfit' => ?_
    rw [← harea] at hfit hfit' ⊢
    exact clampFloatingWindow_hinted_iff hfl hwidth hheight hi' hout' ⟨hfit, hfit'⟩

/-- A window whose hints allow the stored size. -/
theorem repairOutputs_hinted_iff_unhinted : ∃ (s r : State) (w w' : Window),
    s.windows = [w] ∧ s.repairOutputs = some r ∧ r.windows = [w'] ∧ w.floatX = 800 ∧
      w'.hintedBox.Inside (0, 0, 1000, 600) := by
  let w : Window := { Window.new 1 2 0 with
    floating := true, floatX := 800, floatW := 400, floatH := 300 }
  let out : Output := { Output.new 1 with width := 1000, height := 600, focusedWindow := some 1 }
  let s : State := { (State.new (11 / 20)).setTagOutput 0 0 with
    outputs := [out], windows := [w], focusedOutput := some 0 }
  obtain ⟨r, hr⟩ : ∃ r, s.repairOutputs = some r := ⟨_, rfl⟩
  have hout : s.repairOutputs.map (·.outputs) = some [out] := rfl
  have hdata : s.repairOutputs.map (fun r => r.windows.map fun v => (v.hintedSize, r.windowOutput v)) =
      some [((400, 300), some 0)] := by decide
  rw [hr, Option.map_some, Option.some.injEq] at hout hdata
  obtain ⟨w', hwindows, hdata⟩ := List.map_eq_singleton_iff.mp hdata
  obtain ⟨hsize, hown⟩ := Prod.mk.inj hdata
  obtain ⟨v, hv, -, -, hiff⟩ :=
    repairOutputs_hinted_iff (k := 0) (w := w) hr rfl rfl (by decide) (by decide)
  obtain rfl : w' = v := by
    rw [hwindows] at hv
    exact Option.some.inj hv
  obtain ⟨out', -, harea, hiff⟩ := hiff 0 out hown rfl
  rw [harea] at hiff
  refine ⟨s, r, w, w', rfl, hr, hwindows, rfl, hiff.mpr ?_ ?_ ?_⟩
  · exact fun _ _ => ⟨Or.inl (by decide), Or.inl (by decide)⟩
  · rw [hsize]
    decide
  · rw [hsize]
    decide

/-- A window of stored width 400 at the right edge asks for 700. -/
theorem hinted_box_outside : ¬∀ (s r : State) (k i : ℕ) (w : Window) (out : Output),
    s.repairOutputs = some r → r.windows[k]? = some w → w.floating = true → 0 < w.floatW →
    0 < w.floatH → r.windowOutput w = some i → r.outputs[i]? = some out →
    w.hintedSize.1 ≤ (outputArea out).2.2.1 → w.hintedSize.2 ≤ (outputArea out).2.2.2 →
      w.hintedBox.Inside (outputArea out) := by
  intro hall
  let w : Window := { Window.new 1 2 0 with
    floating := true, floatX := 600, floatW := 400, floatH := 300, minWidth := 700 }
  let out : Output := { Output.new 1 with width := 1000, height := 600, focusedWindow := some 1 }
  let s : State := { (State.new (11 / 20)).setTagOutput 0 0 with
    outputs := [out], windows := [w], focusedOutput := some 0 }
  obtain ⟨r, hr⟩ : ∃ r, s.repairOutputs = some r := ⟨_, rfl⟩
  have hout : s.repairOutputs.map (·.outputs) = some [out] := rfl
  have hdata : (s.repairOutputs.bind fun r => r.windows[0]?.map fun v =>
      (v.floating, v.floatW, v.floatH, v.hintedBox, r.windowOutput v)) =
      some (true, 400, 300, { x := 600, y := 0, width := 700, height := 300 }, some 0) := by
    decide
  rw [hr, Option.map_some, Option.some.injEq] at hout
  rw [hr, Option.bind_some] at hdata
  obtain ⟨w', hw', hdata⟩ := Option.map_eq_some_iff.mp hdata
  simp only [Prod.mk.injEq] at hdata
  obtain ⟨hfl, hwidth, hheight, hbox, hown⟩ := hdata
  have hinside := hall s r 0 0 w' out hr hw' hfl (by rw [hwidth]; decide)
    (by rw [hheight]; decide) hown (by rw [hout]; rfl)
    (by rw [show w'.hintedSize.1 = 700 from congrArg Geometry.width hbox]; decide)
    (by rw [show w'.hintedSize.2 = 300 from congrArg Geometry.height hbox]; decide)
  rw [hbox] at hinside
  exact absurd hinside.2.1 (by decide)

/-! ## Sent boxes -/

/-- Sending a window to an owned tag changes the window's tag and somebody's focus. -/
theorem sendFocusedToTag_spec (hw : s.sentWindow o t = some w) (ht : s.tagOwner t = some p)
    (hout : s.outputs[p]? = some out) : ∃ s', s.sendFocusedToTag o t = some s' ∧
      s'.findWindow w.id = some { w with tag := t } ∧ s'.tagOwner t = some p ∧
      s'.outputs[p]?.map outputArea = some (outputArea out) := by
  obtain ⟨x, hx⟩ := sendFocusedToTag_of_some hw
  obtain ⟨-, -, -, hfind, -⟩ := sentWindow_spec hw
  have hsome : (s.tagOwner t).isNone = false := by
    rw [ht]
    rfl
  simp only [hsome, Bool.false_eq_true, if_false] at hx
  refine ⟨_, hx, ?_, ht, ?_⟩
  · have hmod := find?_modifyFirst (p := fun v : Window => v.id == w.id)
      (f := fun v => { v with tag := t }) (fun _ h => h) s.windows
    rw [show s.windows.find? (fun v => v.id == w.id) = some w from hfind] at hmod
    exact hmod
  · change ((s.modifyWindow w.id fun w => { w with tag := t }).setFocusedWindow o x).outputs[p]?.map
      outputArea = _
    rw [getElem?_outputs_setFocusedWindow, outputs_modifyWindow, hout]
    split_ifs <;> rfl

/-- A window sent to a tag of another output is inside the area of this output iff it was
before. -/
theorem sendFocusedToTag_inside_iff (hw : s.sentWindow o t = some w) (ht : s.tagOwner t = some p)
    (hout : s.outputs[p]? = some out) : ∃ s' w' out', s.sendFocusedToTag o t = some s' ∧
      s'.findWindow w.id = some w' ∧ s'.windowOutput w' = some p ∧ s'.outputs[p]? = some out' ∧
      outputArea out' = outputArea out ∧
      (w'.box.Inside (outputArea out') ↔ w.box.Inside (outputArea out)) := by
  obtain ⟨s', hs', hfind, hown, harea⟩ := sendFocusedToTag_spec hw ht hout
  obtain ⟨out', hout', harea'⟩ := Option.map_eq_some_iff.mp harea
  refine ⟨s', _, out', hs', hfind, ?_, hout', harea', by rw [harea']; rfl⟩
  rw [windowOutput, hown]
  rfl

/-- The outputs overlap : both are at the origin. -/
theorem sendFocusedToTag_inside_iff_mirrored : ∃ (s s' : State) (w' : Window),
    s.sendFocusedToTag 0 1 = some s' ∧ s'.findWindow 1 = some w' ∧ s'.windowOutput w' = some 1 ∧
      w'.box.Inside (0, 0, 1000, 600) := by
  let w : Window := { Window.new 1 3 0 with floating := true, floatW := 400, floatH := 300 }
  let out : Output := { Output.new 1 with width := 1000, height := 600, focusedWindow := some 1 }
  let s : State := { ((State.new (11 / 20)).setTagOutput 0 0).setTagOutput 1 1 with
    outputs := [out, { out with activeTag := 1, focusedWindow := none }]
    windows := [w], focusedOutput := some 0 }
  obtain ⟨s', w', out', hs', hw', hown, -, harea, hiff⟩ :=
    sendFocusedToTag_inside_iff (s := s) (o := 0) (t := 1) (p := 1) (w := w) rfl rfl rfl
  rw [harea] at hiff
  exact ⟨s, s', w', hs', hw', hown, hiff.mpr (by decide)⟩

/-- Of two outputs side by side the first has a window, in its middle, and the second owns
tag 1. -/
theorem sent_box_outside : ¬∀ (config : Config) (d : AppData) (o t p : ℕ) (w : Window)
    (outO outP : Output), Reachable AppData.Step (.new config false false false) d → o ≠ p →
    d.state.tagOwner t = some p → d.state.outputs[o]? = some outO →
    d.state.outputs[p]? = some outP → d.state.sentWindow o t = some w → w.floating = true →
    w.box.Inside (outputArea outO) → w.floatW ≤ (outputArea outP).2.2.1 →
    w.floatH ≤ (outputArea outP).2.2.2 → ∃ s' w', d.state.sendFocusedToTag o t = some s' ∧
      s'.findWindow w.id = some w' ∧ w'.box.Inside (outputArea outP) := by
  intro hall
  let config : Config := { Config.default with floatingAppIds := ["f"] }
  let es : List Event := [.newOutput 1, .output 1 (.dimensions 1000 600), .newOutput 2,
    .output 2 (.position 1000 0), .output 2 (.dimensions 1000 600), .newWindow 3,
    .window 3 (.appId (some "f"))]
  let reached := es.foldlM AppData.handle (AppData.new config false false false)
  obtain ⟨d, hd⟩ : ∃ d, reached = some d := Option.isSome_iff_exists.mp (by decide +kernel)
  have hown : reached.map (fun d => d.state.tagOwner 1) = some (some 1) := by decide +kernel
  have hfirst : reached.bind (fun d => d.state.outputs[0]?.map outputArea) =
      some (0, 0, 1000, 600) := by decide +kernel
  have hsecond : reached.bind (fun d => d.state.outputs[1]?.map outputArea) =
      some (1000, 0, 1000, 600) := by decide +kernel
  have hwindow : reached.bind (fun d => (d.state.sentWindow 0 1).map fun w => (w.floating, w.box)) =
      some (true, { x := 300, y := 150, width := 400, height := 300 }) := by decide +kernel
  rw [hd, Option.map_some, Option.some.injEq] at hown
  rw [hd, Option.bind_some] at hfirst hsecond hwindow
  obtain ⟨w, hw, hdata⟩ := Option.map_eq_some_iff.mp hwindow
  obtain ⟨hfl, hbox⟩ := Prod.mk.inj hdata
  obtain ⟨outO, hO, hareaO⟩ := Option.map_eq_some_iff.mp hfirst
  obtain ⟨outP, hP, hareaP⟩ := Option.map_eq_some_iff.mp hsecond
  obtain ⟨s', hs', hfind, -⟩ := sendFocusedToTag_spec hw hown hP
  obtain ⟨r, w', hr, hw', hinside⟩ := hall config d 0 1 1 w outO outP (reachable_of_foldlM es hd)
    (by decide) hown hO hP hw hfl (by rw [hbox, hareaO]; decide)
    (by rw [hareaP, show w.floatW = 400 from congrArg Geometry.width hbox]; decide)
    (by rw [hareaP, show w.floatH = 300 from congrArg Geometry.height hbox]; decide)
  obtain rfl := Option.some.inj (hs'.symm.trans hr)
  obtain rfl := Option.some.inj (hfind.symm.trans hw')
  rw [hareaP] at hinside
  have hleft : (1000 : ℤ) ≤ w.box.x := hinside.1
  rw [hbox] at hleft
  exact absurd hleft (by decide)

end State

end Streamwm
