import Streamwm.Bindings
import Streamwm.Ownership
import Streamwm.Snapshot

/-!
# Windows on tags without an owner

A window keeps its tag whatever happens to the outputs. While outputs remain, the tags of
a removed one go to another; when the last one goes, all tags lose their owner, and an
output that comes back only takes the first tag. The windows on other tags stay without
an output until somebody focuses their tag.

`none_stranded_iff` : in every state of a run that has an output all windows are on owned
tags iff every output added to a state without one finds all windows on the first tag. A
window on an owned tag is listed in the snapshot and can be focused from the socket.
-/

namespace Streamwm

open Partial Transition

namespace State

variable {s s' r : State} {i o t u : ℕ} {op : Op} {w : Window} {proxy : ObjectId}

/-- With an output present, the tag of every window is owned by an output. -/
def NoneStranded (s : State) : Prop :=
  s.outputs ≠ [] → ∀ w ∈ s.windows, ∃ i, i < s.outputs.length ∧ s.tagOwner w.tag = some i

/-- An output added to a state without one finds all windows on the first tag. -/
def SafePlug (s : State) (op : Op) : Prop :=
  ∀ proxy, op = .addOutput proxy → s.outputs = [] → ∀ w ∈ s.windows, w.tag = 0

theorem noneStranded_iff (hs : s.WellFormed) : s.NoneStranded ↔
    (s.outputs ≠ [] → ∀ w ∈ s.windows, s.tagOwner w.tag ≠ none) := by
  refine imp_congr_right fun _ => forall₂_congr fun w _ => ?_
  rw [Option.ne_none_iff_exists']
  exact ⟨fun ⟨i, _, h⟩ => ⟨i, h⟩, fun ⟨i, h⟩ => ⟨i, hs.owner _ i h, h⟩⟩

/-! ## Steps -/

/-- Windows stay on owned tags while owned tags stay owned. -/
theorem NoneStranded.of_windows (hs : s.NoneStranded) (hwf : s'.WellFormed)
    (hout : s'.outputs ≠ [] → s.outputs ≠ [])
    (hw : ∀ w' ∈ s'.windows, ∃ w ∈ s.windows, w'.tag = w.tag)
    (hown : ∀ t i, s.tagOwner t = some i → s'.tagOwner t ≠ none) : s'.NoneStranded := by
  rw [noneStranded_iff hwf]
  intro hne w' hw'
  obtain ⟨w, hmem, htag⟩ := hw w' hw'
  obtain ⟨i, -, hi⟩ := hs (hout hne) w hmem
  rw [htag]
  exact hown w.tag i hi

theorem Grows.ne_none (h : Grows s s') (hi : s.tagOwner t = some i) : s'.tagOwner t ≠ none := by
  simp [h.owner t i hi]

theorem outputs_ne_nil_of_length (h : s'.outputs.length = s.outputs.length)
    (hne : s'.outputs ≠ []) : s.outputs ≠ [] := by
  rw [← List.length_pos_iff] at hne ⊢
  omega

theorem Still.noneStranded (h : Still s s') (hwf : s'.WellFormed) (hs : s.NoneStranded)
    (hw : ∀ w' ∈ s'.windows, ∃ w ∈ s.windows, w'.tag = w.tag) : s'.NoneStranded :=
  hs.of_windows hwf (outputs_ne_nil_of_length h.length) hw fun _ _ => h.grows.ne_none

theorem Quiet.tag_mem (h : Quiet s s') : ∀ w' ∈ s'.windows, ∃ w ∈ s.windows, w'.tag = w.tag := by
  intro w' hw'
  obtain ⟨w, hw, -, -, htag, -⟩ := exists_of_forall₂ h.windows hw'
  exact ⟨w, hw, htag⟩

theorem Quiet.noneStranded (h : Quiet s s') (hwf : s'.WellFormed) (hs : s.NoneStranded) :
    s'.NoneStranded :=
  h.still.noneStranded hwf hs h.tag_mem

/-- The tag a new window is placed on is owned. -/
theorem noneStranded_createWindow (hs : s.NoneStranded) (hwf : s.WellFormed) (hset : s.SettledAll)
    (hwf' : (s.createWindow proxy).WellFormed) : (s.createWindow proxy).NoneStranded := by
  have hstill := still_createWindow (s := s) proxy
  rw [noneStranded_iff hwf']
  intro hne w hw
  have hne' := outputs_ne_nil_of_length hstill.length hne
  rw [hstill.owner]
  rcases List.mem_append.mp hw with hw | hw
  · obtain ⟨i, -, hi⟩ := hs hne' w hw
    simp [hi]
  · obtain ⟨o, ho⟩ := Option.ne_none_iff_exists'.mp (mt hwf.activeOutput_eq_none.mp hne')
    have hlt := hwf.activeOutput_lt ho
    rw [List.mem_singleton.mp hw]
    change s.tagOwner ((s.outputs[s.activeOutput.getD 0]?.map (·.activeTag)).getD 0) ≠ none
    rw [ho, Option.getD_some, List.getElem?_eq_getElem hlt, Option.map_some, Option.getD_some]
    have hshown : s.shown o = some s.outputs[o].activeTag :=
      Normalizing.shown_eq (List.getElem?_eq_getElem hlt)
    rcases hset o _ hshown with hown | ⟨-, hfree⟩
    · simp [hown]
    · exact tagOwner_ne_none hfree (hwf.tags ▸ hwf.active o _ hshown)

theorem Sends.noneStranded (h : Sends o t w s s') (hwf : s'.WellFormed) (hs : s.NoneStranded) :
    s'.NoneStranded := by
  rw [noneStranded_iff hwf]
  intro hne v hv
  have hne' := outputs_ne_nil_of_length h.length hne
  rw [h.windows] at hv
  rcases mem_modifyFirst hv with hv | ⟨v', -, -, rfl⟩
  · obtain ⟨i, -, hi⟩ := hs hne' v hv
    exact h.grows.ne_none hi
  · -- the target tag has an owner already or is claimed
    cases hown : s.tagOwner t with
    | some i => exact h.grows.ne_none hown
    | none =>
      change s'.tagOwner t ≠ none
      simp [h.owner, hown]

/-- Without outputs no tag has an owner. -/
theorem WellFormed.tagOwner_eq_none (hs : s.WellFormed) (hnil : s.outputs = []) (t : ℕ) :
    s.tagOwner t = none := by
  cases hown : s.tagOwner t with
  | none => rfl
  | some i =>
    have hlt := hs.owner t i hown
    simp [hnil] at hlt

/-- The first output owns the first tag and no other. -/
theorem tagOwner_of_first (hs : s.WellFormed) (hnil : s.outputs = [])
    (h : Normalizing (s.outputs.length + 1) (s.withNewOutput proxy).validFocus r) :
    r.tagOwner t ≠ none ↔ t = 0 := by
  have hsame := (validFocus_spec (s.withNewOutput proxy) (by simp [← List.length_pos_iff])).1
  have hfree : s.firstFreeTag = some 0 := by
    cases hf : s.firstFreeTag with
    | none =>
      have hlt : 0 < s.tags.length := by
        rw [hs.tags]
        decide
      exact absurd (hs.tagOwner_eq_none hnil 0) (tagOwner_ne_none hf hlt)
    | some u =>
      obtain ⟨hu, -, hmin⟩ := List.findIdx?_eq_some_iff_getElem.mp hf
      rcases Nat.eq_zero_or_pos u with rfl | hpos
      · rfl
      · have hzero := hs.tagOwner_eq_none hnil 0
        have hlt : 0 < s.tags.length := hpos.trans hu
        have hfirst := hmin 0 hpos
        rw [tagOwner, List.getElem?_eq_getElem hlt, Option.bind_some] at hzero
        simp [hzero] at hfirst
  have hbefore :
      ∀ u, (s.withNewOutput proxy).validFocus.tagOwner u = if 0 = u then some 0 else none := by
    intro u
    rw [hsame.owner, tagOwner_withNewOutput, hfree, hs.tagOwner_eq_none hnil u, hnil]
    simp
  constructor
  · intro hne
    obtain ⟨j, hj⟩ := Option.ne_none_iff_exists'.mp hne
    rcases h.claimed t j hj with hold | ⟨hlt, hno⟩
    · rw [hbefore] at hold
      split_ifs at hold with h0
      exact h0.symm
    · -- the only output already owns the first tag
      rw [hsame.length, length_outputs_withNewOutput, hnil] at hlt
      have hj0 : j = 0 := by simpa using hlt
      exact absurd (by rw [hbefore, if_pos rfl, hj0]) (hno 0)
  · rintro rfl
    simp [h.owner 0 0 (by rw [hbefore, if_pos rfl])]

theorem noneStranded_added (hs : s.WellFormed) (hns : s.NoneStranded) (hwf : r.WellFormed)
    (h : Normalizing (s.outputs.length + 1) (s.withNewOutput proxy).validFocus r) :
    r.NoneStranded ↔ s.SafePlug (.addOutput proxy) := by
  have hsame := (validFocus_spec (s.withNewOutput proxy) (by simp [← List.length_pos_iff])).1
  have hwin : r.windows = s.windows := by
    rw [h.windows, hsame.windows, windows_withNewOutput]
  have hne : r.outputs ≠ [] := by
    rw [← List.length_pos_iff, h.length, hsame.length, length_outputs_withNewOutput]
    omega
  by_cases hnil : s.outputs = []
  · rw [noneStranded_iff hwf, hwin]
    simp only [tagOwner_of_first hs hnil h]
    exact ⟨fun hr _ _ _ => hr hne, fun hsafe _ => hsafe proxy rfl hnil⟩
  · refine ⟨fun _ _ _ hnil' => absurd hnil' hnil, fun _ => ?_⟩
    refine hns.of_windows hwf (fun _ => hnil) (fun w hw => ⟨w, hwin ▸ hw, rfl⟩) fun _ _ => ?_
    exact (grows_of_added h).ne_none

/-- From a state without stranded windows a step leads to such a state iff it is safe. -/
theorem Change.noneStranded_iff (hs : s.WellFormed) (hset : s.SettledAll) (hns : s.NoneStranded)
    (h : Change s op s') : s'.NoneStranded ↔ s.SafePlug op := by
  have hwf := h.wellFormed hs
  have hother : (∀ proxy, op ≠ .addOutput proxy) → s'.NoneStranded →
      (s'.NoneStranded ↔ s.SafePlug op) :=
    fun hop h' => ⟨fun _ proxy hadd => absurd hadd (hop proxy), fun _ => h'⟩
  have hfocus : op.Focuses → ∀ proxy, op ≠ .addOutput proxy := by
    rintro hop proxy rfl
    exact hop
  cases h with
  | same hop h =>
    exact hother (hfocus hop) (h.toStill.noneStranded hwf hns fun w hw => ⟨w, h.windows ▸ hw, rfl⟩)
  | @shows _ _ _ old _ hop h =>
    refine hother (hfocus hop) (hns.of_windows hwf (outputs_ne_nil_of_length h.length) ?_ fun _ _ =>
      h.grows.ne_none)
    intro w' hw'
    rcases h.windows with hw | ⟨-, hw⟩
    · rw [hw] at hw'
      obtain ⟨w, hw, rfl⟩ := List.mem_map.mp hw'
      exact ⟨w, hw, by split_ifs <;> rfl⟩
    · exact ⟨w', hw ▸ hw', rfl⟩
  | sendNone _ => exact hother (by simp) hns
  | send h => exact hother (by simp) (h.noneStranded hwf hns)
  | create proxy => exact hother (by simp) (noneStranded_createWindow hns hs hset hwf)
  | close proxy =>
    exact hother (by simp) ((still_closeWindow proxy).noneStranded hwf hns fun w hw =>
      ⟨w, List.mem_of_mem_filter hw, rfl⟩)
  | fullscreen wid =>
    refine hother (by simp) ((still_modifyWindow wid _).noneStranded hwf hns fun w hw => ?_)
    rcases mem_modifyFirst hw with hw | ⟨v, hv, -, rfl⟩
    · exact ⟨w, hw, rfl⟩
    · exact ⟨v, hv, rfl⟩
  | applyFullscreen h => exact hother (by simp) (h.noneStranded hwf hns)
  | quiet h _ => exact hother (by simp) (h.noneStranded hwf hns)
  | add h => exact noneStranded_added hs hns hwf h
  | removeNone _ => exact hother (by simp) hns
  | removeLast hlen hi =>
    refine hother (by simp) fun hne => absurd ?_ hne
    have hzero := length_outputs_dropOutput (s := s) hi
    exact List.length_eq_zero_iff.mp (hzero.trans (by omega))
  | @remove i r hi hlen h =>
    have hc := quiet_clampFloatingWindows r
    refine hother (by simp) (hns.of_windows hwf (fun _ hnil =>
      by simp [hnil] at hi) ?_ fun t j hj => ?_)
    · intro w' hw'
      obtain ⟨w, hw, htag⟩ := hc.tag_mem w' hw'
      exact ⟨w, h.windows ▸ hw, htag⟩
    · -- an owned tag follows its owner or goes to the first output
      rw [hc.still.owner]
      rcases eq_or_ne j i with rfl | hji
      · exact h.grows.ne_none (tagOwner_dropOutput_self hi hlen hj)
      · exact h.grows.ne_none (tagOwner_dropOutput_of_ne hi hlen hji hj)
  | geometryNone _ h _ _ => exact hother (by simp) (h.noneStranded hwf hns)
  | @geometry i g r hne h =>
    have hg := quiet_setGeometry s i g
    have hc := quiet_clampFloatingWindows r
    refine hother (by simp) (hns.of_windows hwf (fun _ => hne) ?_ fun _ _ =>
      (hg.still.grows.trans (h.grows.trans hc.still.grows)).ne_none)
    intro w' hw'
    obtain ⟨w, hw, htag⟩ := hc.tag_mem w' hw'
    exact ⟨w, h.windows ▸ hw, htag⟩

/-! ## What a window on an owned tag can do -/

/-- The snapshot lists a window at the owner of its tag. -/
theorem mem_buildSnapshot (hs : s.WellFormed) (hw : w ∈ s.windows)
    (hown : s.tagOwner w.tag = some i) : ∃ snap o, s.buildSnapshot = some snap ∧
      snap.outputs[i]? = some o ∧ snapOf w ∈ o.windows := by
  obtain ⟨snap, hsnap, -, hall⟩ := buildSnapshot_spec hs.inRange
  obtain ⟨o, ho, hsees⟩ := hall i (hs.owner _ i hown)
  refine ⟨snap, o, hsnap, ho, ?_⟩
  rw [hsees.windows]
  exact List.mem_map_of_mem (List.mem_filter.mpr ⟨hw, by simp [ownedBy, hown]⟩)

/-- The socket can focus a window whose tag has an owner : that output shows the tag, has
the focus and focuses the window. -/
theorem commandFocusWindow_of_owner (hs : s.WellFormed) (hown : s.tagOwner t = some i) (wid : ℕ) :
    ∃ s', s.commandFocusWindow wid t = some s' ∧ s'.tagOwner t = some i ∧ s'.shown i = some t ∧
      s'.focusedOutput = some i ∧ s'.activeFocusedWindow = some (some wid) := by
  have hlt := hs.owner t i hown
  obtain ⟨r, hr, ha⟩ := switchActiveTag_spec (s := s.setFocusedOutput i) (i := i) (t := t)
    (List.getElem?_eq_getElem hlt) hown
  have hlen : i < r.outputs.length := by
    rw [ha.length]
    exact hlt
  have hfocus : (r.setFocusedWindow i (some wid)).focusedOutput = some i := ha.focused
  refine ⟨r.setFocusedWindow i (some wid), ?_, (ha.owner t).trans hown, ?_, hfocus, ?_⟩
  · simp [commandFocusWindow, hown, Option.filter_some, hlt, hr, hlen]
  · rw [shown_setFocusedWindow, ha.shown]
    simp [shown, hlt]
  · have hactive : (r.setFocusedWindow i (some wid)).activeOutput = some i := by
      rw [activeOutput, hfocus]
      rfl
    simp only [activeFocusedWindow, hactive, getElem?_outputs_setFocusedWindow,
      List.getElem?_eq_getElem hlen]
    simp

/-- What a window can count on when its tag has an owner. -/
structure Attended (s : State) (w : Window) : Prop where
  /-- It is listed in the status. -/
  listed : ∃ snap o, s.buildSnapshot = some snap ∧ o ∈ snap.outputs ∧ snapOf w ∈ o.windows
  /-- The socket command that names it shows and focuses it. -/
  focusable : ∃ s', s.commandFocusWindow w.id w.tag = some s' ∧ s'.windowIsVisible w = true ∧
    s'.activeFocusedWindow = some (some w.id)

theorem attended (hs : s.WellFormed) (hw : w ∈ s.windows) (hown : s.tagOwner w.tag = some i) :
    s.Attended w := by
  obtain ⟨snap, o, hsnap, ho, hmem⟩ := mem_buildSnapshot hs hw hown
  obtain ⟨s', hs', hown', hshown, -, hfocus⟩ := commandFocusWindow_of_owner hs hown w.id
  exact ⟨⟨snap, o, hsnap, List.mem_of_getElem? ho, hmem⟩,
    ⟨s', hs', windowIsVisible_iff.mpr ⟨i, hown', hshown⟩, hfocus⟩⟩

end State

open State

/-- All windows of all states with an output are on owned tags iff every output added to
a state without one finds all windows on the first tag. Then every window is listed and
can be focused. -/
theorem none_stranded_iff {f : ℚ} {τs : List (Step State Op)} (h : IsRun Op.Step (State.new f) τs) :
    ((∀ τ ∈ τs, τ.post.NoneStranded) ↔ ∀ τ ∈ τs, τ.pre.SafePlug τ.event) ∧
      ((∀ τ ∈ τs, τ.pre.SafePlug τ.event) →
        ∀ τ ∈ τs, τ.post.outputs ≠ [] → ∀ w ∈ τ.post.windows, τ.post.Attended w) := by
  have hiff : (∀ τ ∈ τs, τ.post.NoneStranded) ↔ ∀ τ ∈ τs, τ.pre.SafePlug τ.event := by
    refine h.forall_post_iff (J := fun s => s.WellFormed ∧ s.SettledAll) (P := NoneStranded)
      (C := SafePlug) ?_ ?_ ⟨wellFormed_new f, settledAll_new f⟩ (by simp [NoneStranded, State.new])
    · rintro s op s' ⟨hwf, hset⟩ hstep
      have hc := change_of_step hwf hstep
      exact ⟨hc.wellFormed hwf, hc.settledAll hset⟩
    · rintro s op s' ⟨hwf, hset⟩ hns hstep
      exact (change_of_step hwf hstep).noneStranded_iff hwf hset hns
  refine ⟨hiff, fun hsafe τ hτ hne w hw => ?_⟩
  obtain ⟨i, -, hown⟩ := hiff.mpr hsafe τ hτ hne w hw
  exact attended (wellFormed_settledAll h τ hτ).2.1 hw hown

/-- The only output is unplugged and plugged in again, with a window on the first tag. -/
theorem none_stranded_iff_replug : ∃ τs, IsRun Op.Step (State.new 0) τs ∧ τs.length = 4 ∧
    ∀ τ ∈ τs, τ.post.NoneStranded := by
  have hrun := isRun_next 0 [.addOutput 1, .createWindow 2, .removeOutput 0, .addOutput 3]
  have hzero : ∀ τ ∈ trace State.next (State.new 0)
      [.addOutput 1, .createWindow 2, .removeOutput 0, .addOutput 3], ∀ w ∈ τ.pre.windows,
        w.tag = 0 := by
    decide
  exact ⟨_, hrun, rfl, (none_stranded_iff hrun).1.mpr fun τ hτ _ _ _ => hzero τ hτ⟩

/-- The same with the window on the second tag. -/
theorem exists_stranded : ¬∀ (f : ℚ) (τs : List (Step State Op)),
    IsRun Op.Step (State.new f) τs → ∀ τ ∈ τs, τ.post.NoneStranded := by
  intro h
  have hrun := h 0 _ (isRun_next 0 [.addOutput 1, .focusTag 0 1, .createWindow 2, .removeOutput 0,
    .addOutput 3])
  have hbad : ∃ τ ∈ trace State.next (State.new 0)
      [.addOutput 1, .focusTag 0 1, .createWindow 2, .removeOutput 0, .addOutput 3],
      τ.post.outputs.length ≠ 0 ∧ ∃ w ∈ τ.post.windows, τ.post.tagOwner w.tag = none := by decide
  obtain ⟨τ, hτ, hne, w, hw, hnone⟩ := hbad
  obtain ⟨i, -, hi⟩ := hrun τ hτ (by rintro hnil; simp [hnil] at hne) w hw
  rw [hnone] at hi
  cases hi

end Streamwm
