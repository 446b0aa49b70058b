import Streamwm.Ownership

/-!
# Fullscreen windows and shown tags

A fullscreen window is drawn over everything, so it should be on a tag that is shown.
The operations that make another tag active clear the flag on the tag they leave; three
changes do not : a request for fullscreen by a hidden window, sending a fullscreen
window to a hidden tag, and removing the output it is on.

`SafeFullscreen` is the condition on a step, `fullscreen_shown_iff` says that it is
exact : all states of a run have every fullscreen window on a shown tag iff every step
meets it. For a removed output the condition is `Inherits` : the first remaining output
takes the tags over, and shows the tag in question only if it owned none itself.
-/

namespace Streamwm

open Partial Transition

namespace State

variable {s s' r : State} {i o t old u : ℕ} {op : Op} {w : Window} {proxy : ObjectId}

/-- Every fullscreen window is on a shown tag. -/
def FullscreenShown (s : State) : Prop :=
  ∀ w ∈ s.windows, w.fullscreen = true → s.windowIsVisible w = true

/-- The owner of the tag shows it. -/
def Showing (s : State) (t : ℕ) : Prop :=
  ∃ i, s.tagOwner t = some i ∧ s.shown i = some t

/-- Once output `i` is gone, the first remaining output shows `t`, one of the tags it
takes over : it did not own the tag `a` it shows, and `a` is `t`, or `a` is not taken
over and `t` is the lowest occupied tag that is. -/
def Inherits (s : State) (i t : ℕ) : Prop :=
  1 < s.outputs.length ∧ ∃ a, s.shown (oldIndex i 0) = some a ∧
    s.tagOwner a ≠ some (oldIndex i 0) ∧ (a = t ∨ s.tagOwner a ≠ some i ∧
      ∀ u, s.tagOwner u = some i → s.Occupied u → t ≤ u)

/-- The condition under which a step keeps fullscreen windows on shown tags. -/
def SafeFullscreen (s : State) : Op → Prop
  | .fullscreen wid => ∀ w, s.findWindow wid = some w → s.windowIsVisible w = true
  | .sendFocusedToTag o t => ∀ w, s.sentWindow o t = some w → w.fullscreen = true → s.Showing t
  | .removeOutput i => ∀ w ∈ s.windows, w.fullscreen = true → s.tagOwner w.tag = some i →
    s.Inherits i w.tag
  | _ => True

theorem windowIsVisible_iff_showing : s.windowIsVisible w = true ↔ s.Showing w.tag :=
  windowIsVisible_iff

/-! ## Steps that keep shown tags shown -/

theorem Still.showing (h : Still s s') (ht : s.Showing t) : s'.Showing t := by
  obtain ⟨i, hown, hshown⟩ := ht
  exact ⟨i, by rw [h.owner, hown], by rw [h.shown, hshown]⟩

theorem Normalizing.showing {k : ℕ} (h : Normalizing k s r) (ht : s.Showing t) : r.Showing t := by
  obtain ⟨i, hown, hshown⟩ := ht
  exact ⟨i, h.owner t i hown, h.kept i t hshown hown⟩

theorem showing_withNewOutput (ht : s.Showing t) : (s.withNewOutput proxy).Showing t := by
  obtain ⟨i, hown, hshown⟩ := ht
  have hne := Nat.ne_of_lt (lt_of_shown hshown)
  exact ⟨i, grows_withNewOutput.owner t i hown, by rw [shown_withNewOutput hne, hshown]⟩

theorem FullscreenShown.of_windows (hs : s.FullscreenShown)
    (hw : ∀ w' ∈ s'.windows, w'.fullscreen = true →
      ∃ w ∈ s.windows, w.fullscreen = true ∧ w'.tag = w.tag)
    (hshow : ∀ t, s.Showing t → s'.Showing t) : s'.FullscreenShown := by
  intro w' hw' hfull
  obtain ⟨w, hmem, hf, htag⟩ := hw w' hw' hfull
  rw [windowIsVisible_iff_showing, htag]
  exact hshow _ (windowIsVisible_iff_showing.mp (hs w hmem hf))

theorem Quiet.fullscreen_mem (h : Quiet s s') : ∀ w' ∈ s'.windows, w'.fullscreen = true →
    ∃ w ∈ s.windows, w.fullscreen = true ∧ w'.tag = w.tag := by
  intro w' hw' hfull
  obtain ⟨w, hw, -, -, htag, hf⟩ := exists_of_forall₂ h.windows hw'
  exact ⟨w, hw, hf hfull, htag⟩

theorem Quiet.fullscreenShown (h : Quiet s s') (hs : s.FullscreenShown) : s'.FullscreenShown :=
  hs.of_windows h.fullscreen_mem fun _ => h.still.showing

/-- Showing another tag clears fullscreen on the tag left. -/
theorem Shows.fullscreenShown (h : Shows i t old s s') (hs : s.FullscreenShown) :
    s'.FullscreenShown := by
  have hkeep : ∀ w ∈ s.windows, w.fullscreen = true → w.tag ≠ old ∨ t = old →
      s'.Showing w.tag := by
    intro w hw hfull hold
    obtain ⟨j, hown, hshown⟩ := windowIsVisible_iff_showing.mp (hs w hw hfull)
    refine ⟨j, h.grows.owner _ j hown, ?_⟩
    rw [h.shown, hshown, Option.map_some]
    split_ifs with hij
    · -- the window was on the tag left
      subst hij
      have hwold : w.tag = old := Option.some.inj (hshown.symm.trans h.was)
      rcases hold with hne | hto
      · exact absurd hwold hne
      · rw [hto, hwold]
    · rfl
  intro w' hw' hfull
  rw [windowIsVisible_iff_showing]
  rcases h.windows with hcleared | ⟨hto, hsame⟩
  · rw [hcleared] at hw'
    obtain ⟨w, hw, rfl⟩ := List.mem_map.mp hw'
    split_ifs at hfull ⊢ with htag
    exact hkeep w hw hfull (Or.inl (by simpa using htag))
  · exact hkeep w' (hsame ▸ hw') hfull (Or.inr hto)

/-! ## Steps that may not -/

/-- Sending a window shows nothing : a claimed tag was shown by nobody. -/
theorem Sends.showing_iff (h : Sends o t w s s') (hs : s.SettledAll) :
    s'.Showing u ↔ s.Showing u := by
  constructor
  · rintro ⟨i, hown, hshown⟩
    rw [h.owner] at hown
    rw [h.shown] at hshown
    split_ifs at hown with hu
    · obtain ⟨rfl, hnone⟩ := hu
      rcases hs i u hshown with hi | ⟨-, hfree⟩
      · rw [hnone] at hi
        cases hi
      · exact absurd hnone (tagOwner_ne_none hfree (sentWindow_spec h.sent).1)
    · exact ⟨i, hown, hshown⟩
  · rintro ⟨i, hown, hshown⟩
    exact ⟨i, h.grows.owner u i hown, by rw [h.shown, hshown]⟩

theorem Sends.fullscreenShown_iff (h : Sends o t w s s') (hset : s.SettledAll)
    (hs : s.FullscreenShown) : s'.FullscreenShown ↔ s.SafeFullscreen (.sendFocusedToTag o t) := by
  have hfind : s.windows.find? (fun v => v.id == w.id) = some w := (sentWindow_spec h.sent).2.2.2.1
  have hsplit := fun b => mem_modifyFirst_of_find? (f := fun v => { v with tag := t })
    (b := b) hfind
  constructor
  · intro hs' v hv hfull
    obtain rfl : w = v := Option.some.inj (h.sent.symm.trans hv)
    have hmem : { w with tag := t } ∈ s'.windows := h.windows ▸ (hsplit w).2
    have hvis := windowIsVisible_iff_showing.mp (hs' _ hmem hfull)
    exact (h.showing_iff hset).mp hvis
  · intro hsafe v hv hfull
    rw [windowIsVisible_iff_showing, h.showing_iff hset]
    rw [h.windows] at hv
    rcases (hsplit v).1 hv with hv | rfl
    · exact windowIsVisible_iff_showing.mp (hs v hv hfull)
    · exact hsafe w h.sent hfull

theorem fullscreenShown_fullscreen_iff {wid : ℕ} (hs : s.FullscreenShown) :
    (s.modifyWindow wid fun w => { w with fullscreen := true }).FullscreenShown ↔
      s.SafeFullscreen (.fullscreen wid) := by
  cases hfind : s.findWindow wid with
  | none =>
    have hsame : (s.modifyWindow wid fun w => { w with fullscreen := true }).windows = s.windows :=
      modifyFirst_eq_self hfind
    refine ⟨fun _ w hw => ?_, fun _ w hw => ?_⟩
    · rw [hfind] at hw
      cases hw
    · exact hs w (hsame ▸ hw)
  | some w =>
    have hsplit := fun b =>
      mem_modifyFirst_of_find? (f := fun v : Window => { v with fullscreen := true }) (b := b) hfind
    constructor
    · intro hs' v hv
      obtain rfl : w = v := Option.some.inj (hfind.symm.trans hv)
      exact hs' { w with fullscreen := true } (hsplit w).2 rfl
    · intro hsafe v hv hfull
      rcases (hsplit v).1 hv with hv | rfl
      · exact hs v hv hfull
      · exact hsafe w hfind

/-- Which of the tags taken over from output `i` the first remaining output shows. -/
theorem showing_inherited_iff (hset : s.SettledAll) (hi : i < s.outputs.length)
    (hlen : 1 < s.outputs.length) (ht : s.tagOwner t = some i) (hocc : s.Occupied t)
    (h : Normalizing (s.dropOutput i).outputs.length (s.dropOutput i) r) :
    r.Showing t ↔ s.Inherits i t := by
  have hf : oldIndex i 0 < s.outputs.length := by
    unfold oldIndex
    split_ifs <;> omega
  obtain ⟨a, ha⟩ := Option.isSome_iff_exists.mp (shown_isSome.mpr hf)
  have ha' : (s.dropOutput i).shown 0 = some a := by rw [shown_dropOutput, ha]
  have hdt : (s.dropOutput i).tagOwner t = some 0 := tagOwner_dropOutput_self hi hlen ht
  have hnew : newIndex i (oldIndex i 0) = 0 := newIndex_oldIndex
  have hrt : r.Showing t ↔ r.shown 0 = some t :=
    ⟨fun ⟨j, hj, hshown⟩ => Option.some.inj ((h.owner t 0 hdt).symm.trans hj) ▸ hshown,
      fun hshown => ⟨0, h.owner t 0 hdt, hshown⟩⟩
  have hinh : s.Inherits i t ↔ s.tagOwner a ≠ some (oldIndex i 0) ∧ (a = t ∨
      s.tagOwner a ≠ some i ∧ ∀ u, s.tagOwner u = some i → s.Occupied u → t ≤ u) := by
    constructor
    · rintro ⟨-, b, hb, hrest⟩
      rwa [Option.some.inj (ha.symm.trans hb)]
    · exact fun hrest => ⟨hlen, a, ha, hrest⟩
  rw [hrt, hinh]
  by_cases hown : (s.dropOutput i).tagOwner a = some 0
  · -- the active tag of the first remaining output stays
    rw [h.kept 0 a ha' hown, Option.some.injEq]
    constructor
    · rintro rfl
      exact ⟨by rw [ht]; simpa using oldIndex_ne.symm, Or.inl rfl⟩
    · rintro ⟨hne, hat | ⟨hni, -⟩⟩
      · exact hat
      · rcases tagOwner_of_dropOutput hi hown with hold | ⟨hold, -⟩
        · exact absurd hold hne
        · exact absurd hold hni
  · have hnf : s.tagOwner a ≠ some (oldIndex i 0) := fun hold =>
      hown (hnew ▸ tagOwner_dropOutput_of_ne hi hlen oldIndex_ne hold)
    have hni : s.tagOwner a ≠ some i := fun hold => hown (tagOwner_dropOutput_self hi hlen hold)
    have hnone : ∀ u, s.tagOwner u ≠ some (oldIndex i 0) :=
      ((hset _ a ha).resolve_left hnf).1
    have hiff : ∀ u, (s.dropOutput i).tagOwner u = some 0 ↔ s.tagOwner u = some i := fun u =>
      ⟨fun hu => ((tagOwner_of_dropOutput hi hu).resolve_left (hnone u)).1,
        tagOwner_dropOutput_self hi hlen⟩
    have hpos : 0 < (s.dropOutput i).outputs.length := by
      rw [length_outputs_dropOutput hi]
      omega
    obtain ⟨b, hb, hbest⟩ := h.best 0 a t hpos ha' hown hdt
    have hfirst := hbest.first
    rw [hb, Option.some.injEq]
    constructor
    · rintro rfl
      exact ⟨hnf, Or.inr ⟨hni, fun u hu hou => (hfirst u ((hiff u).mpr hu) hou).2⟩⟩
    · rintro ⟨-, rfl | ⟨-, hle⟩⟩
      · exact absurd ht hni
      · obtain ⟨hob, hbt⟩ := hfirst t hdt hocc
        exact le_antisymm hbt (hle b ((hiff b).mp hbest.owned) hob)

theorem mem_clampFloatingWindows (hw : w ∈ r.windows) : ∃ w' ∈ r.clampFloatingWindows.windows,
    w'.tag = w.tag ∧ w'.fullscreen = w.fullscreen := by
  unfold clampFloatingWindows
  split_ifs
  · exact ⟨w, hw, rfl, rfl⟩
  · obtain ⟨-, -, htag, hfull⟩ := r.clampFloatingWindow_fields w
    exact ⟨_, List.mem_map_of_mem hw, htag, hfull⟩

theorem fullscreenShown_remove_iff (hset : s.SettledAll) (hi : i < s.outputs.length)
    (hlen : 1 < s.outputs.length) (hs : s.FullscreenShown)
    (h : Normalizing (s.dropOutput i).outputs.length (s.dropOutput i) r) :
    r.clampFloatingWindows.FullscreenShown ↔ s.SafeFullscreen (.removeOutput i) := by
  have hc := quiet_clampFloatingWindows r
  have hwin : r.windows = s.windows := h.windows
  have hiff : ∀ w ∈ s.windows, s.tagOwner w.tag = some i →
      (r.Showing w.tag ↔ s.Inherits i w.tag) := fun w hw hown =>
    showing_inherited_iff hset hi hlen hown ⟨w, hw, rfl⟩ h
  constructor
  · intro hs' w hw hfull hown
    obtain ⟨w', hw', htag, hf⟩ := mem_clampFloatingWindows (r := r) (hwin ▸ hw)
    obtain ⟨j, hj, hshown⟩ := windowIsVisible_iff_showing.mp (hs' w' hw' (hf.trans hfull))
    refine (hiff w hw hown).mp ⟨j, ?_, ?_⟩
    · rw [← htag, ← hc.still.owner, hj]
    · rw [← htag, ← hc.still.shown, hshown]
  · intro hsafe
    refine hc.fullscreenShown fun w hw hfull => ?_
    rw [hwin] at hw
    rw [windowIsVisible_iff_showing]
    obtain ⟨j, hown, hshown⟩ := windowIsVisible_iff_showing.mp (hs w hw hfull)
    rcases eq_or_ne j i with rfl | hij
    · exact (hiff w hw hown).mpr (hsafe w hw hfull hown)
    · refine h.showing ⟨newIndex i j, tagOwner_dropOutput_of_ne hi hlen hij hown, ?_⟩
      rw [shown_dropOutput, oldIndex_newIndex hij, hshown]

/-- From a state whose fullscreen windows are on shown tags, a step leads to such a state
iff it is safe. -/
theorem Change.fullscreenShown_iff (hwf : s.WellFormed) (hset : s.SettledAll)
    (hs : s.FullscreenShown) (h : Change s op s') : s'.FullscreenShown ↔ s.SafeFullscreen op := by
  have hkeep : s.SafeFullscreen op → s'.FullscreenShown →
      (s'.FullscreenShown ↔ s.SafeFullscreen op) := fun h1 h2 => ⟨fun _ => h1, fun _ => h2⟩
  have hfocus : op.Focuses → s.SafeFullscreen op := by
    cases op <;> simp [Op.Focuses, SafeFullscreen]
  cases h with
  | same hop h =>
    refine hkeep (hfocus hop) (hs.of_windows (fun w hw hf => ⟨w, h.windows ▸ hw, hf, rfl⟩) ?_)
    exact fun _ => h.toStill.showing
  | shows hop h => exact hkeep (hfocus hop) (h.fullscreenShown hs)
  | sendNone hnone =>
    refine hkeep (fun w hw => ?_) hs
    rw [hnone] at hw
    cases hw
  | send h => exact h.fullscreenShown_iff hset hs
  | create proxy =>
    refine hkeep trivial (hs.of_windows (fun w hw hf => ?_) fun _ =>
      (still_createWindow proxy).showing)
    rcases List.mem_append.mp hw with hw | hw
    · exact ⟨w, hw, hf, rfl⟩
    · rw [List.mem_singleton.mp hw] at hf
      cases hf
  | close proxy =>
    exact hkeep trivial (hs.of_windows
      (fun w hw hf => ⟨w, List.mem_of_mem_filter hw, hf, rfl⟩)
      fun _ => (still_closeWindow proxy).showing)
  | fullscreen wid => exact fullscreenShown_fullscreen_iff hs
  | applyFullscreen h => exact hkeep trivial (h.fullscreenShown hs)
  | quiet h _ => exact hkeep trivial (h.fullscreenShown hs)
  | @add proxy _ h =>
    have hsame := (validFocus_spec (s.withNewOutput proxy) (by simp [← List.length_pos_iff])).1
    refine hkeep trivial (hs.of_windows (fun w hw hf => ⟨w, ?_, hf, rfl⟩) fun _ ht =>
      h.showing (hsame.toStill.showing (showing_withNewOutput ht)))
    rwa [h.windows, hsame.windows, windows_withNewOutput] at hw
  | removeNone hle =>
    refine hkeep (fun w _ _ hown => ?_) hs
    exact absurd (hwf.owner _ _ hown) (not_lt.mpr hle)
  | @removeLast i hlen hi =>
    constructor
    · intro hs' w hw hfull _
      obtain ⟨j, hown, -⟩ := windowIsVisible_iff_showing.mp (hs' w hw hfull)
      exact absurd ((tagOwner_dropOutput_last hlen hi).symm.trans hown) (by simp)
    · intro hsafe w hw hfull
      obtain ⟨j, hown, -⟩ := windowIsVisible_iff_showing.mp (hs w hw hfull)
      have hj := hwf.owner _ j hown
      obtain rfl : j = i := by omega
      exact absurd (hsafe w hw hfull hown).1 (by omega)
  | remove hi hlen h => exact fullscreenShown_remove_iff hset hi hlen hs h
  | geometryNone _ h _ _ => exact hkeep trivial (h.fullscreenShown hs)
  | @geometry i g r _ h =>
    have hg := quiet_setGeometry s i g
    have hgs := hg.fullscreenShown hs
    refine hkeep trivial ((quiet_clampFloatingWindows r).fullscreenShown ?_)
    exact hgs.of_windows (fun w hw hf => ⟨w, h.windows ▸ hw, hf, rfl⟩) fun _ => h.showing

end State

open State

/-- All states of a run have every fullscreen window on a shown tag iff every step is
safe. -/
theorem fullscreen_shown_iff {f : ℚ} {τs : List (Step State Op)}
    (h : IsRun Op.Step (State.new f) τs) :
    (∀ τ ∈ τs, τ.post.FullscreenShown) ↔ ∀ τ ∈ τs, τ.pre.SafeFullscreen τ.event := by
  refine h.forall_post_iff (J := fun s => s.WellFormed ∧ s.SettledAll) (P := FullscreenShown)
    (C := SafeFullscreen) ?_ ?_ ⟨wellFormed_new f, settledAll_new f⟩
      (by simp [FullscreenShown, State.new])
  · rintro s op s' ⟨hwf, hset⟩ hstep
    have hc := change_of_step hwf hstep
    exact ⟨hc.wellFormed hwf, hc.settledAll hset⟩
  · rintro s op s' ⟨hwf, hset⟩ hs hstep
    exact (change_of_step hwf hstep).fullscreenShown_iff hwf hset hs

/-- A fullscreen window is sent to a hidden tag and keeps its flag. -/
theorem hidden_of_sent : ∃ τ ∈ trace State.next (State.new 0) [.addOutput 1, .createWindow 2,
    .fullscreen 1, .sendFocusedToTag 0 1], ∃ w ∈ τ.post.windows, w.fullscreen = true ∧
      τ.post.windowIsVisible w = false := by decide

/-- Focusing a tag is safe, sending a fullscreen window to a hidden tag is not. -/
theorem fullscreen_shown_iff_focusTag_send :
    (∀ τ ∈ trace State.next (State.new 0) [.addOutput 1, .createWindow 2, .focusTag 0 1],
        τ.post.FullscreenShown) ∧
      ¬∀ τ ∈ trace State.next (State.new 0) [.addOutput 1, .createWindow 2, .fullscreen 1,
        .sendFocusedToTag 0 1], τ.pre.SafeFullscreen τ.event := by
  constructor
  · refine (fullscreen_shown_iff (isRun_next 0 _)).mpr (forall_mem_trace ?_)
    simp [SafeFullscreen]
  · rw [← fullscreen_shown_iff (isRun_next 0 _)]
    intro h
    obtain ⟨τ, hτ, w, hw, hfull, hhidden⟩ := hidden_of_sent
    rw [h τ hτ w hw hfull] at hhidden
    cases hhidden

theorem exists_fullscreen_hidden : ¬∀ (f : ℚ) (τs : List (Step State Op)),
    IsRun Op.Step (State.new f) τs → ∀ τ ∈ τs, τ.post.FullscreenShown := by
  intro h
  obtain ⟨τ, hτ, w, hw, hfull, hhidden⟩ := hidden_of_sent
  rw [h 0 _ (isRun_next 0 _) τ hτ w hw hfull] at hhidden
  cases hhidden

end Streamwm
