import Streamwm.EventLoop
import Streamwm.Repair

/-!
# Two ways to activate a tag

`activateTag` and `switchActiveTag` are near-copies. Both make the tag active and refocus the
output the same way (`activated`); the first un-fullscreens the windows of the tag that was
active before, the second does so only if this is another tag. So activating the tag that is
active already takes windows out of fullscreen on one of the two paths, and activating a tag
twice on that path does (`focusTag_agrees_iff`).
-/

namespace Streamwm

open Transition

namespace State

variable {s : State} {o t u : ℕ} {out : Output}

/-- The tag is active on the output, which focuses a window of it. -/
def activated (s : State) (o t : ℕ) (out : Output) : State :=
  (s.setActiveTag o t).setFocusedWindow o
    ((s.setActiveTag o t).refocusTarget o { out with activeTag := t })

/-- No window on the tag is fullscreen. -/
def NoFullscreenOn (s : State) (t : ℕ) : Prop :=
  ∀ w ∈ s.windows, w.tag = t → w.fullscreen = false

/-- The states have the same active tags, focused windows and fullscreen flags. -/
structure Agrees (s s' : State) : Prop where
  active : s'.outputs.map (·.activeTag) = s.outputs.map (·.activeTag)
  focused : s'.outputs.map (·.focusedWindow) = s.outputs.map (·.focusedWindow)
  fullscreen : s'.windows.map (·.fullscreen) = s.windows.map (·.fullscreen)

/-! ## What the two paths do -/

theorem refocusTarget_clearFullscreenOnTag :
    (s.clearFullscreenOnTag u).refocusTarget o out = s.refocusTarget o out := by
  refine refocusTarget_map (f := fun w => if w.tag == u then { w with fullscreen := false } else w)
    (fun w => ?_) rfl fun w _ => ?_
  · split_ifs <;> rfl
  · rw [onActiveTag, onActiveTag]
    split_ifs <;> rfl

theorem activateTag_eq_activated (hout : s.outputs[o]? = some out) : s.activateTag o t =
    some ((s.activated o t out).clearFullscreenOnTag out.activeTag) := by
  have hout' : ((s.setActiveTag o t).clearFullscreenOnTag out.activeTag).outputs[o]? =
      some { out with activeTag := t } := by
    simp [getElem?_outputs_setActiveTag, hout]
  rw [activateTag, hout, Option.bind_eq_bind, Option.bind_some, refocusOutput_eq hout',
    refocusTarget_clearFullscreenOnTag]
  rfl

theorem activated_of_activateTag (h : s.activateTag o t = some s') : ∃ out,
    s.outputs[o]? = some out ∧ s' = (s.activated o t out).clearFullscreenOnTag out.activeTag := by
  cases hout : s.outputs[o]? with
  | none => simp [activateTag, hout] at h
  | some out => exact ⟨out, rfl, Option.some.inj (h.symm.trans (activateTag_eq_activated hout))⟩

theorem switchActiveTag_eq_activated (hout : s.outputs[o]? = some out) : s.switchActiveTag o t =
    some (if out.activeTag ≠ t then (s.activated o t out).clearFullscreenOnTag out.activeTag
      else s.activated o t out) := by
  rw [switchActiveTag_eq hout]
  split_ifs
  · rw [refocusTarget_clearFullscreenOnTag]
    rfl
  · rfl

theorem focusTag_eq_activated (hown : s.tagOwner t = some o) (hout : s.outputs[o]? = some out) :
    s.focusTag o t =
      some ((s.activated o t out).clearFullscreenOnTag out.activeTag).markDirty := by
  have htags : ¬s.tags.length ≤ t := by
    intro hle
    rw [tagOwner_eq_none_of_length_le hle] at hown
    cases hown
  have hlt : ¬s.outputs.length ≤ o := not_le.mpr (List.getElem?_eq_some_iff.mp hout).1
  simp [focusTag, htags, hlt, hown, activateTag_eq_activated hout]

/-! ## Fullscreen flags -/

theorem windows_clearFullscreenOnTag_eq_iff :
    (s.clearFullscreenOnTag t).windows = s.windows ↔ s.NoFullscreenOn t := by
  constructor
  · intro h w hw htag
    have hmem := List.mem_map_of_mem (f := fun w : Window =>
      if w.tag == t then { w with fullscreen := false } else w) hw
    have hsame := List.map_inj_left.mp (h.trans (List.map_id _).symm) w hw
    simp only [htag, beq_self_eq_true, if_true, id] at hsame
    exact (congrArg Window.fullscreen hsame).symm
  · intro h
    refine (List.map_congr_left fun w hw => ?_).trans (List.map_id _)
    split_ifs with htag
    · have hoff := h w hw (beq_iff_eq.mp htag)
      cases w
      cases hoff
      rfl
    · rfl

theorem flags_clearFullscreenOnTag_eq_iff : (s.clearFullscreenOnTag t).windows.map (·.fullscreen) =
    s.windows.map (·.fullscreen) ↔ s.NoFullscreenOn t := by
  change (s.windows.map _).map _ = _ ↔ _
  rw [List.map_map, List.map_inj_left]
  refine forall₂_congr fun w _ => ?_
  by_cases htag : w.tag = t
  · simp only [Function.comp_apply, htag, beq_self_eq_true, if_true, forall_const]
    exact eq_comm
  · simp [htag]

/-- Clearing another tag leaves the flags on this one. -/
theorem noFullscreenOn_clearFullscreenOnTag (hne : u ≠ t) :
    (s.clearFullscreenOnTag u).NoFullscreenOn t ↔ s.NoFullscreenOn t := by
  unfold NoFullscreenOn
  change (∀ w ∈ s.windows.map _, _) ↔ _
  rw [List.forall_mem_map]
  refine forall₂_congr fun w _ => ?_
  by_cases htag : w.tag = u
  · simp [htag, hne]
  · simp [htag]

/-! ## When they agree -/

/-- Of a tag and its owner : the two ways to activate the tag agree, activating it when it is
active changes no fullscreen flag, and activating it twice no window, iff no window on it is
fullscreen. -/
theorem focusTag_agrees_iff (hown : s.tagOwner t = some o) (ho : o < s.outputs.length) :
    ∃ f g f', s.focusTag o t = some f ∧ s.switchActiveTag o t = some g ∧
      f.focusTag o t = some f' ∧
      (g.Agrees f ∧ (s.shown o = some t →
          f.windows.map (·.fullscreen) = s.windows.map (·.fullscreen)) ∧
        f'.windows = f.windows ↔ s.NoFullscreenOn t) := by
  obtain ⟨out, hout⟩ : ∃ out, s.outputs[o]? = some out := ⟨_, List.getElem?_eq_getElem ho⟩
  have hactive : ((s.activated o t out).clearFullscreenOnTag out.activeTag).markDirty.outputs[o]? =
      some { out with activeTag := t, focusedWindow :=
        (s.setActiveTag o t).refocusTarget o { out with activeTag := t } } := by
    change ((s.setActiveTag o t).setFocusedWindow o _).outputs[o]? = _
    simp [getElem?_outputs_setFocusedWindow, getElem?_outputs_setActiveTag, hout]
  refine ⟨_, _, _, focusTag_eq_activated hown hout, switchActiveTag_eq_activated hout,
    focusTag_eq_activated hown hactive, ?_⟩
  have hshown : s.shown o = some out.activeTag := Normalizing.shown_eq hout
  by_cases hsame : out.activeTag = t
  · subst hsame
    rw [if_neg (not_not.mpr rfl)]
    constructor
    · exact fun h => flags_clearFullscreenOnTag_eq_iff.mp h.1.fullscreen
    · intro hnone
      have hflags := flags_clearFullscreenOnTag_eq_iff.mpr hnone
      refine ⟨⟨rfl, rfl, hflags⟩, fun _ => hflags, windows_clearFullscreenOnTag_eq_iff.mpr ?_⟩
      change ∀ w ∈ (s.clearFullscreenOnTag out.activeTag).windows, _
      rw [windows_clearFullscreenOnTag_eq_iff.mpr hnone]
      exact hnone
  · rw [if_pos hsame, ← noFullscreenOn_clearFullscreenOnTag hsame]
    have htwice := windows_clearFullscreenOnTag_eq_iff (t := t)
      (s := (s.activated o t out).clearFullscreenOnTag out.activeTag)
    constructor
    · exact fun h => htwice.mp h.2.2
    · exact fun hnone => ⟨⟨rfl, rfl, rfl⟩,
        fun h => absurd (Option.some.inj (hshown.symm.trans h)) hsame, htwice.mpr hnone⟩

/-- A tag with a window that is not fullscreen. -/
theorem focusTag_agrees_iff_window : ∃ (s f g f' : State), s.windows.length = 1 ∧
    s.focusTag 0 0 = some f ∧ s.switchActiveTag 0 0 = some g ∧ f.focusTag 0 0 = some f' ∧
      g.Agrees f ∧ f'.windows = f.windows := by
  let s : State := { (State.new (11 / 20)).setTagOutput 0 0 with
    outputs := [Output.new 1], windows := [Window.new 1 2 0], focusedOutput := some 0 }
  obtain ⟨f, g, f', hf, hg, hf', hiff⟩ :=
    focusTag_agrees_iff (s := s) (o := 0) (t := 0) rfl (by decide)
  have hnone : s.NoFullscreenOn 0 := by
    intro w hw _
    obtain rfl := List.mem_singleton.mp hw
    rfl
  obtain ⟨hagrees, -, hwindows⟩ := hiff.mpr hnone
  exact ⟨s, f, g, f', rfl, hf, hg, hf', hagrees, hwindows⟩

/-- The only window, on the active tag, asked for fullscreen. -/
theorem focusTag_disagrees : ¬∀ (d : AppData) (o t : ℕ),
    Reachable AppData.Step (.new .default false false false) d → o < d.state.outputs.length →
    d.state.tagOwner t = some o → ∃ f g, d.state.focusTag o t = some f ∧
      d.state.switchActiveTag o t = some g ∧ g.Agrees f := by
  intro hall
  let es : List Event := [.newOutput 1, .newWindow 2, .window 2 .fullscreenRequested]
  let reached := es.foldlM AppData.handle (AppData.new .default false false false)
  obtain ⟨d, hd⟩ : ∃ d, reached = some d := Option.isSome_iff_exists.mp (by decide +kernel)
  have hown : reached.map (fun d => d.state.tagOwner 0) = some (some 0) := by decide +kernel
  have hshown : reached.map (fun d => d.state.shown 0) = some (some 0) := by decide +kernel
  have hwindows : reached.map (fun d => d.state.windows.map fun w => (w.tag, w.fullscreen)) =
      some [(0, true)] := by decide +kernel
  rw [hd, Option.map_some, Option.some.injEq] at hown hshown hwindows
  obtain ⟨w, hw, hdata⟩ := List.map_eq_singleton_iff.mp hwindows
  obtain ⟨htag, hfull⟩ := Prod.mk.inj hdata
  obtain ⟨out, hout, hact⟩ := Option.map_eq_some_iff.mp hshown
  obtain ⟨f, g, hf, hg, hagrees⟩ :=
    hall d 0 0 (reachable_of_foldlM es hd) (List.getElem?_eq_some_iff.mp hout).1 hown
  rw [focusTag_eq_activated hown hout] at hf
  rw [switchActiveTag_eq_activated hout, if_neg (not_not.mpr hact)] at hg
  obtain rfl := Option.some.inj hf
  obtain rfl := Option.some.inj hg
  have hnone := flags_clearFullscreenOnTag_eq_iff.mp hagrees.fullscreen
  have hoff := hnone w (by rw [show (d.state.activated 0 0 out).windows = [w] from hw]; simp)
    (htag.trans hact.symm)
  rw [hfull] at hoff
  cases hoff

end State

end Streamwm
