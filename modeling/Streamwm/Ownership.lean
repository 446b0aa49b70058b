import Streamwm.Change

/-!
# Tag ownership over runs

Nine tags are shared by all outputs. This file says what a run of operations can do to
their owners.

`active_tags_owned` : after every step each output shows a tag it owns, unless it owns
no tag at all and none is free; and no state of a run has an output of the second kind
iff every output that was added found a free tag. With as many outputs as that, no two
show the same tag, and a new window is placed on a tag its output owns and shows.

-/

namespace Streamwm

open Partial Transition

namespace State

variable {s s' r : State} {i j k o t old u : ℕ} {op : Op} {w : Window} {proxy : ObjectId}

/-- Every output is settled. -/
def SettledAll (s : State) : Prop :=
  ∀ i, s.Settled i

/-- The active tag of every output is owned by that output. -/
def ActiveOwned (s : State) : Prop :=
  ∀ i t, s.shown i = some t → s.tagOwner t = some i

/-- Every output owns a tag. -/
def Served (s : State) : Prop :=
  ∀ i, i < s.outputs.length → ∃ t, s.tagOwner t = some i

/-- No two outputs show the same tag. -/
def ShownOnce (s : State) : Prop :=
  ∀ i j t, s.shown i = some t → s.shown j = some t → i = j

/-! ## Ownership grows -/

/-- A tag that is shown is owned, as it was or newly. -/
theorem Shows.grows (h : Shows i t old s s') : Grows s s' where
  tags := h.tags
  owner u j hu := by
    rw [h.owner]
    split_ifs with hut
    · rcases h.before with hown | hnone
      · rw [← hown, ← hut, hu]
      · rw [← hut, hu] at hnone
        cases hnone
    · exact hu
  proxy j p hp := by rw [h.proxy, hp]

/-- A tag that is sent to keeps its owner, or gets one. -/
theorem Sends.grows (h : Sends o t w s s') : Grows s s' where
  tags := h.tags
  owner u j hu := by
    rw [h.owner, if_neg, hu]
    rintro ⟨rfl, hnone⟩
    rw [hu] at hnone
    cases hnone
  proxy j p hp := by rw [h.proxy, hp]

theorem grows_withNewOutput : Grows s (s.withNewOutput proxy) where
  tags := length_tags_withNewOutput
  owner u j hu := by
    rw [tagOwner_withNewOutput, if_neg, hu]
    intro hfree
    rw [(firstFreeTag_eq_some hfree).2] at hu
    cases hu
  proxy j p hp := by
    have hne : j ≠ s.outputs.length := by
      rintro rfl
      simp [outputProxy] at hp
    rw [outputProxy, getElem?_outputs_withNewOutput hne]
    exact hp

/-- A new output takes no tag from the others. -/
theorem grows_of_added
    (h : Normalizing (s.outputs.length + 1) (s.withNewOutput proxy).validFocus r) : Grows s r := by
  have hne : (s.withNewOutput proxy).outputs ≠ [] := by
    rw [← List.length_pos_iff, length_outputs_withNewOutput]
    omega
  exact grows_withNewOutput.trans ((validFocus_spec _ hne).1.toStill.grows.trans h.grows)

/-- Every operation but the removal of an output leaves owned tags alone. -/
theorem Change.grows (h : Change s op s') (hop : ∀ i, i < s.outputs.length → op ≠ .removeOutput i) :
    Grows s s' := by
  cases h with
  | same _ h => exact h.toStill.grows
  | shows _ h => exact h.grows
  | sendNone _ => exact Grows.refl s
  | send h => exact h.grows
  | create proxy => exact (still_createWindow proxy).grows
  | close proxy => exact (still_closeWindow proxy).grows
  | fullscreen wid => exact (still_modifyWindow wid _).grows
  | applyFullscreen h => exact h.still.grows
  | quiet h _ => exact h.still.grows
  | add h => exact grows_of_added h
  | removeNone _ => exact Grows.refl s
  | removeLast _ hi => exact absurd rfl (hop _ hi)
  | remove hi _ _ => exact absurd rfl (hop _ hi)
  | geometryNone _ h _ _ => exact h.still.grows
  | geometry _ h =>
    exact (quiet_setGeometry s _ _).still.grows.trans
      (h.grows.trans (quiet_clampFloatingWindows _).still.grows)

/-! ## Settled outputs -/

theorem Still.settledAll (h : Still s s') (hs : s.SettledAll) : s'.SettledAll := by
  intro i t ht
  rw [h.shown] at ht
  rw [h.owner, firstFreeTag_congr h.tags h.owner]
  simpa only [h.owner] using hs i t ht

theorem Normalizing.settledAll (h : Normalizing k s r) (hk : k = s.outputs.length) :
    r.SettledAll := by
  intro i t ht
  exact h.settled i (by rw [hk, ← h.length]; exact lt_of_shown ht) t ht

/-- An output that is left without a tag stays settled when no owner changes. -/
theorem Settled.of_owner (h : s.Settled j) {a : ℕ} (ha : s.shown j = some a)
    (hgrow : Grows s s') (hsame : s.firstFreeTag = none → ∀ u, s'.tagOwner u = s.tagOwner u) :
    s'.tagOwner a = some j ∨ (∀ u, s'.tagOwner u ≠ some j) ∧ s'.firstFreeTag = none := by
  rcases h a ha with hown | ⟨hno, hfree⟩
  · exact Or.inl (hgrow.owner a j hown)
  · have heq := hsame hfree
    exact Or.inr ⟨fun u => heq u ▸ hno u, (firstFreeTag_congr hgrow.tags heq).mpr hfree⟩

theorem Shows.settledAll (h : Shows i t old s s') (hs : s.SettledAll) : s'.SettledAll := by
  intro j a ha
  rw [h.shown] at ha
  obtain ⟨b, hb, rfl⟩ := Option.map_eq_some_iff.mp ha
  rcases eq_or_ne i j with rfl | hij
  · rw [if_pos rfl, h.owner, if_pos rfl]
    exact Or.inl rfl
  · rw [if_neg hij]
    refine (hs j).of_owner hb h.grows fun hfree u => ?_
    rw [h.owner]
    split_ifs with hu
    · rw [hu]
      exact (h.before.resolve_right (tagOwner_ne_none hfree h.lt)).symm
    · rfl

theorem Sends.settledAll (h : Sends o t w s s') (hs : s.SettledAll) : s'.SettledAll := by
  intro j a ha
  refine (hs j).of_owner (h.shown j ▸ ha) h.grows fun hfree u => ?_
  rw [h.owner, if_neg]
  exact fun hu => tagOwner_ne_none hfree (sentWindow_spec h.sent).1 hu.2

/-- Every operation leaves all outputs settled. -/
theorem Change.settledAll (hs : s.SettledAll) (h : Change s op s') : s'.SettledAll := by
  cases h with
  | same _ h => exact h.toStill.settledAll hs
  | shows _ h => exact h.settledAll hs
  | sendNone _ => exact hs
  | send h => exact h.settledAll hs
  | create proxy => exact (still_createWindow proxy).settledAll hs
  | close proxy => exact (still_closeWindow proxy).settledAll hs
  | fullscreen wid => exact (still_modifyWindow wid _).settledAll hs
  | applyFullscreen h => exact h.still.settledAll hs
  | quiet h _ => exact h.still.settledAll hs
  | add h =>
    refine h.settledAll ?_
    rw [(validFocus_spec _ (by simp [← List.length_pos_iff])).1.length,
      length_outputs_withNewOutput]
  | removeNone _ => exact hs
  | removeLast hlen hi =>
    intro j t ht
    have hlt := lt_of_shown ht
    have hlen' := length_outputs_dropOutput (s := s) hi
    exact absurd (hlt.trans_eq hlen') (by omega)
  | remove hi _ h => exact (quiet_clampFloatingWindows _).still.settledAll (h.settledAll rfl)
  | geometryNone _ h _ _ => exact h.still.settledAll hs
  | geometry _ h =>
    exact (quiet_clampFloatingWindows _).still.settledAll
      (h.settledAll (quiet_setGeometry s _ _).still.length.symm)

/-! ## Outputs with a tag -/

theorem Grows.served (h : Grows s s') (hlen : s'.outputs.length = s.outputs.length)
    (hs : s.Served) : s'.Served := by
  intro i hi
  obtain ⟨t, ht⟩ := hs i (hlen ▸ hi)
  exact ⟨t, h.owner t i ht⟩

theorem SettledAll.activeOwned_iff (hs : s.SettledAll) : s.ActiveOwned ↔ s.Served := by
  constructor
  · intro h i hi
    obtain ⟨t, ht⟩ := Option.isSome_iff_exists.mp (shown_isSome.mpr hi)
    exact ⟨t, h i t ht⟩
  · intro h i t ht
    refine (hs i t ht).resolve_right ?_
    rintro ⟨hno, -⟩
    obtain ⟨u, hu⟩ := h i (lt_of_shown ht)
    exact hno u hu

/-- Without a free tag the loop changes no owner. -/
theorem Normalizing.owner_eq (h : Normalizing k s r) (hfree : s.firstFreeTag = none) (t : ℕ) :
    r.tagOwner t = s.tagOwner t := by
  cases hs : s.tagOwner t with
  | some j => exact h.owner t j hs
  | none =>
    have hle : r.tags.length ≤ t := by
      rw [h.tags]
      by_contra hlt
      exact tagOwner_ne_none hfree (not_le.mp hlt) hs
    exact tagOwner_eq_none_of_length_le hle

/-- The new output owns a tag iff one was free. -/
theorem exists_owner_of_added_iff (hs : s.WellFormed)
    (h : Normalizing (s.outputs.length + 1) (s.withNewOutput proxy).validFocus r) :
    (∃ t, r.tagOwner t = some s.outputs.length) ↔ s.firstFreeTag ≠ none := by
  have hne : (s.withNewOutput proxy).outputs ≠ [] := by
    rw [← List.length_pos_iff, length_outputs_withNewOutput]
    omega
  have hsame := (validFocus_spec _ hne).1.toStill
  constructor
  · rintro ⟨t, ht⟩ hfree
    have hfree' : (s.withNewOutput proxy).validFocus.firstFreeTag = none := by
      refine (firstFreeTag_congr (hsame.tags.trans length_tags_withNewOutput) fun u => ?_).mpr hfree
      rw [hsame.owner, tagOwner_withNewOutput, if_neg (by simp [hfree])]
    rw [h.owner_eq hfree', hsame.owner, tagOwner_withNewOutput, if_neg (by simp [hfree])] at ht
    exact absurd (hs.owner t _ ht) (lt_irrefl _)
  · intro hfree
    obtain ⟨t, ht⟩ := Option.ne_none_iff_exists'.mp hfree
    refine ⟨t, h.owner t _ ?_⟩
    rw [hsame.owner, tagOwner_withNewOutput, if_pos ht]

/-- What adding an output needs for every output to own a tag. -/
def FindsFreeTag (s : State) (op : Op) : Prop :=
  ∀ proxy, op = .addOutput proxy → s.firstFreeTag ≠ none

/-- A new output gets a tag if one is free. -/
theorem served_of_added (hs : s.WellFormed) (hserved : s.Served)
    (h : Normalizing (s.outputs.length + 1) (s.withNewOutput proxy).validFocus r) :
    r.Served ↔ s.firstFreeTag ≠ none := by
  have hlen : r.outputs.length = s.outputs.length + 1 := by
    rw [h.length, (validFocus_spec _ (by simp [← List.length_pos_iff])).1.length,
      length_outputs_withNewOutput]
  rw [← exists_owner_of_added_iff hs h]
  constructor
  · intro hr
    exact hr _ (by omega)
  · rintro hnew i hi
    rcases (show i < s.outputs.length ∨ i = s.outputs.length by omega) with hlt | rfl
    · obtain ⟨t, ht⟩ := hserved i hlt
      exact ⟨t, (grows_of_added h).owner t i ht⟩
    · exact hnew

/-- The outputs that stay keep their tags. -/
theorem served_dropOutput (hi : i < s.outputs.length) (hlen : 1 < s.outputs.length)
    (hs : s.Served) : (s.dropOutput i).Served := by
  intro j hj
  rw [length_outputs_dropOutput hi] at hj
  obtain ⟨t, ht⟩ := hs (oldIndex i j) (by unfold oldIndex; split_ifs <;> omega)
  refine ⟨t, ?_⟩
  rw [tagOwner_dropOutput_of_ne hi hlen oldIndex_ne ht, newIndex_oldIndex]

/-- From a state whose outputs all own a tag, a step leads to such a state iff an output
it adds finds a free tag. -/
theorem Change.served_iff (hs : s.WellFormed) (hserved : s.Served) (h : Change s op s') :
    s'.Served ↔ s.FindsFreeTag op := by
  have hother : (∀ proxy, op ≠ .addOutput proxy) → s'.Served → (s'.Served ↔ s.FindsFreeTag op) :=
    fun hop h' => ⟨fun _ proxy hadd => absurd hadd (hop proxy), fun _ => h'⟩
  have hgrow : (∀ proxy, op ≠ .addOutput proxy) → Grows s s' →
      s'.outputs.length = s.outputs.length → (s'.Served ↔ s.FindsFreeTag op) :=
    fun hop hg hlen => hother hop (hg.served hlen hserved)
  cases h with
  | same hop h =>
    refine hgrow ?_ h.toStill.grows h.length
    rintro proxy rfl
    exact hop
  | shows hop h =>
    refine hgrow ?_ h.grows h.length
    rintro proxy rfl
    exact hop
  | sendNone _ => exact hother (by simp) hserved
  | send h => exact hgrow (by simp) h.grows h.length
  | create proxy =>
    exact hgrow (by simp) (still_createWindow proxy).grows (still_createWindow proxy).length
  | close proxy => exact hgrow (by simp) (still_closeWindow proxy).grows rfl
  | fullscreen wid => exact hgrow (by simp) (still_modifyWindow wid _).grows rfl
  | applyFullscreen h => exact hgrow (by simp) h.still.grows h.still.length
  | quiet h _ => exact hgrow (by simp) h.still.grows h.still.length
  | add h =>
    rw [served_of_added hs hserved h]
    exact ⟨fun hf _ _ => hf, fun hf => hf _ rfl⟩
  | removeNone _ => exact hother (by simp) hserved
  | removeLast hlen hi =>
    refine hother (by simp) fun j hj => ?_
    have hlen' := length_outputs_dropOutput (s := s) hi
    exact absurd (hj.trans_eq hlen') (by omega)
  | remove hi hlen h =>
    refine hother (by simp) ?_
    have hr := h.grows.served h.length (served_dropOutput hi hlen hserved)
    exact (quiet_clampFloatingWindows _).still.grows.served
      (quiet_clampFloatingWindows _).still.length hr
  | geometryNone _ h _ _ => exact hgrow (by simp) h.still.grows h.still.length
  | @geometry i g r _ h =>
    have hg := (quiet_setGeometry s i g).still
    have hc := (quiet_clampFloatingWindows r).still
    refine hgrow (by simp) (hg.grows.trans (h.grows.trans hc.grows)) ?_
    rw [hc.length, h.length, hg.length]

theorem ActiveOwned.shownOnce (h : s.ActiveOwned) : s.ShownOnce := by
  intro i j t hi hj
  exact Option.some.inj ((h i t hi).symm.trans (h j t hj))

/-- A new window is placed on the tag its output shows. -/
theorem exists_mem_createWindow (h : s.activeOutput = some i) (hi : i < s.outputs.length) :
    ∃ w ∈ (s.createWindow proxy).windows, w.id = s.nextWindowId ∧ w.proxy = proxy ∧
      (s.createWindow proxy).shown i = some w.tag := by
  have hout := List.getElem?_eq_getElem hi
  refine ⟨Window.new s.nextWindowId proxy s.outputs[i].activeTag, ?_, rfl, rfl, ?_⟩
  · refine List.mem_append.mpr (Or.inr ?_)
    simp [h, hout]
  · rw [(still_createWindow proxy).shown, shown, hout]
    rfl

theorem settledAll_new (f : ℚ) : (State.new f).SettledAll := by
  intro i t h
  simp [shown, State.new] at h

theorem served_new (f : ℚ) : (State.new f).Served := by
  intro i h
  simp [State.new] at h

end State

open State

variable {f : ℚ} {τs : List (Step State Op)}

/-- A run keeps all indices in range and all outputs settled. -/
theorem wellFormed_settledAll (h : IsRun Op.Step (State.new f) τs) : ∀ τ ∈ τs,
    (τ.pre.WellFormed ∧ τ.pre.SettledAll) ∧ τ.post.WellFormed ∧ τ.post.SettledAll := by
  refine h.invariant (I := fun s => s.WellFormed ∧ s.SettledAll) ?_
    ⟨wellFormed_new f, settledAll_new f⟩
  rintro s op s' ⟨hw, hs⟩ hstep
  have hc := change_of_step hw hstep
  exact ⟨hc.wellFormed hw, hc.settledAll hs⟩

/-- After every step of a run each output shows a tag it owns, or owns none while none is
free. All active tags are owned throughout the run iff every added output found a free
tag; then no two outputs show the same tag, and a new window is on a tag that the focused
output owns and shows. -/
theorem active_tags_owned (h : IsRun Op.Step (State.new f) τs) :
    (∀ τ ∈ τs, τ.post.SettledAll) ∧
      ((∀ τ ∈ τs, τ.post.ActiveOwned) ↔ ∀ τ ∈ τs, τ.pre.FindsFreeTag τ.event) ∧
      ((∀ τ ∈ τs, τ.pre.FindsFreeTag τ.event) → ∀ τ ∈ τs, τ.post.ShownOnce ∧
        ∀ proxy i, τ.event = .createWindow proxy → τ.pre.activeOutput = some i →
          ∃ w ∈ τ.post.windows, w.id = τ.pre.nextWindowId ∧ w.proxy = proxy ∧
            τ.post.shown i = some w.tag ∧ τ.post.tagOwner w.tag = some i) := by
  have hinv := wellFormed_settledAll h
  have hserved : (∀ τ ∈ τs, τ.post.Served) ↔ ∀ τ ∈ τs, τ.pre.FindsFreeTag τ.event := by
    refine h.forall_post_iff (J := State.WellFormed) (P := State.Served) (C := FindsFreeTag)
      (fun s e t hw hstep => hstep.wellFormed hw) ?_ (wellFormed_new f) (served_new f)
    intro s op s' hw hs hstep
    exact (change_of_step hw hstep).served_iff hw hs
  have hiff : (∀ τ ∈ τs, τ.post.ActiveOwned) ↔ ∀ τ ∈ τs, τ.pre.FindsFreeTag τ.event := by
    rw [← hserved]
    exact forall₂_congr fun τ hτ => (hinv τ hτ).2.2.activeOwned_iff
  refine ⟨fun τ hτ => (hinv τ hτ).2.2, hiff, fun hfree τ hτ => ?_⟩
  have hown := hiff.mpr hfree τ hτ
  refine ⟨hown.shownOnce, fun proxy i hev hact => ?_⟩
  have hstep := h.step_of_mem hτ
  obtain ⟨s, op, s'⟩ := τ
  obtain rfl : op = .createWindow proxy := hev
  obtain rfl : s.createWindow proxy = s' := hstep
  obtain ⟨w, hw, hid, hproxy, hshown⟩ :=
    exists_mem_createWindow hact ((hinv _ hτ).1.1.activeOutput_lt hact)
  exact ⟨w, hw, hid, hproxy, hshown, hown i w.tag hshown⟩

theorem isRun_next (f : ℚ) (ops : List Op) :
    IsRun Op.Step (State.new f) (trace State.next (State.new f) ops) :=
  (isRun_trace _ ops _).mono fun _ _ _ => Op.step_of_next

/-- Two outputs and a window on the second. -/
theorem active_tags_owned_two_outputs :
    (∀ τ ∈ trace State.next (State.new 0)
        [.addOutput 1, .addOutput 2, .focusOutput 1, .createWindow 3], τ.post.ActiveOwned) ∧
      (trace State.next (State.new 0)
        [.addOutput 1, .addOutput 2, .focusOutput 1, .createWindow 3]).length = 4 := by
  have h := active_tags_owned
    (isRun_next 0 [.addOutput 1, .addOutput 2, .focusOutput 1, .createWindow 3])
  refine ⟨h.2.1.mpr fun τ hτ proxy _ => ?_, by decide⟩
  have hfree : ∀ τ ∈ trace State.next (State.new 0)
      [.addOutput 1, .addOutput 2, .focusOutput 1, .createWindow 3],
      τ.pre.firstFreeTag ≠ none := by decide
  exact hfree τ hτ

/-- The first output takes all nine tags, the second finds none left : both show the
first tag. -/
theorem exists_active_tag_not_owned : ¬∀ (f : ℚ) (τs : List (Step State Op)),
    IsRun Op.Step (State.new f) τs → ∀ τ ∈ τs, τ.post.ActiveOwned := by
  intro h
  have hrun := h 0 _ (isRun_next 0 [.addOutput 1, .focusTag 0 1, .focusTag 0 2, .focusTag 0 3,
    .focusTag 0 4, .focusTag 0 5, .focusTag 0 6, .focusTag 0 7, .focusTag 0 8, .addOutput 2])
  have hbad : ∃ τ ∈ trace State.next (State.new 0)
      [.addOutput 1, .focusTag 0 1, .focusTag 0 2, .focusTag 0 3, .focusTag 0 4, .focusTag 0 5,
        .focusTag 0 6, .focusTag 0 7, .focusTag 0 8, .addOutput 2],
      τ.post.shown 1 = some 0 ∧ τ.post.tagOwner 0 = some 0 := by decide
  obtain ⟨τ, hτ, hshown, howner⟩ := hbad
  rw [hrun τ hτ 1 0 hshown] at howner
  cases howner

end Streamwm
