import Streamwm.OutputOps

/-!
# What a step can change

`Change s op s'` says once, for a well-formed state, everything an operation can do;
`Op.Step.change` derives it from the operations. The invariants of the later files are
case splits on it, and none of them unfolds an operation.

Focus operations leave everything in place (`Same`) or make one output show another tag,
possibly claiming it first (`Shows`). Sending a window moves that one window, claiming
the target tag if it was free (`Sends`). The operations on outputs are runs of the
normalization loop from an explicit state.

The first use is `WellFormed.step` : every operation keeps all indices in range.
-/

namespace Streamwm

open Partial Transition

/-- The operations that only move focus and active tags. -/
def Op.Focuses : Op → Prop
  | .focusTag _ _ | .focusOutput _ | .focusWindow _ | .commandFocusWindow _ _ | .cycleFocus _
  | .refocus _ => True
  | _ => False

namespace State

variable {s s' r : State} {i o t old u : ℕ} {op : Op} {w : Window}

/-- The output `i` shows `t` instead of `old`, whose windows lose fullscreen; a tag
without an owner is claimed first. -/
structure Shows (i t old : ℕ) (s s' : State) : Prop where
  lt : t < s.tags.length
  before : s.tagOwner t = some i ∨ s.tagOwner t = none
  was : s.shown i = some old
  tags : s'.tags.length = s.tags.length
  owner : ∀ u, s'.tagOwner u = if u = t then some i else s.tagOwner u
  length : s'.outputs.length = s.outputs.length
  shown : ∀ j, s'.shown j = (s.shown j).map fun a => if i = j then t else a
  proxy : ∀ i, s'.outputProxy i = s.outputProxy i
  windows : s'.windows = (s.clearFullscreenOnTag old).windows ∨ t = old ∧ s'.windows = s.windows
  seats : s'.seats = s.seats
  nextWindowId : s'.nextWindowId = s.nextWindowId
  focused : s'.focusedOutput = s.focusedOutput ∨
    ∃ i, i < s.outputs.length ∧ s'.focusedOutput = some i

/-- The window `w`, focused on output `o`, moves to tag `t`, which `o` claims if it was
free. -/
structure Sends (o t : ℕ) (w : Window) (s s' : State) : Prop where
  sent : s.sentWindow o t = some w
  tags : s'.tags.length = s.tags.length
  owner : ∀ u, s'.tagOwner u = if u = t ∧ s.tagOwner t = none then some o else s.tagOwner u
  length : s'.outputs.length = s.outputs.length
  shown : ∀ i, s'.shown i = s.shown i
  proxy : ∀ i, s'.outputProxy i = s.outputProxy i
  windows :
    s'.windows = modifyFirst (fun v => v.id == w.id) (fun v => { v with tag := t }) s.windows
  seats : s'.seats = s.seats
  nextWindowId : s'.nextWindowId = s.nextWindowId
  focused : s'.focusedOutput = s.focusedOutput

/-- The result of an operation on a well-formed state. -/
inductive Change (s : State) : Op → State → Prop
  | same {op : Op} {s' : State} : op.Focuses → Same s s' → Change s op s'
  | shows {op : Op} {i t old : ℕ} {s' : State} : op.Focuses → Shows i t old s s' → Change s op s'
  | sendNone {o t : ℕ} : s.sentWindow o t = none → Change s (.sendFocusedToTag o t) s
  | send {o t : ℕ} {w : Window} {s' : State} : Sends o t w s s' →
      Change s (.sendFocusedToTag o t) s'
  | create (proxy : ObjectId) : Change s (.createWindow proxy) (s.createWindow proxy)
  | close (proxy : ObjectId) : Change s (.closeWindow proxy) (s.closeWindow proxy)
  | fullscreen (wid : ℕ) : Change s (.fullscreen wid)
      (s.modifyWindow wid fun w => { w with fullscreen := true })
  | applyFullscreen {s' : State} : s.Quiet s' → Change s .applyFullscreen s'
  | quiet {s' : State} : s.Quiet s' → s.SameApplied s' → Change s .quiet s'
  | add {proxy : ObjectId} {s' : State} :
      Normalizing (s.outputs.length + 1) (s.withNewOutput proxy).validFocus s' →
      Change s (.addOutput proxy) s'
  | removeNone {i : ℕ} : s.outputs.length ≤ i → Change s (.removeOutput i) s
  | removeLast {i : ℕ} : s.outputs.length = 1 → i < s.outputs.length →
      Change s (.removeOutput i) { s.dropOutput i with focusedOutput := none }
  | remove {i : ℕ} {r : State} : i < s.outputs.length → 1 < s.outputs.length →
      Normalizing (s.dropOutput i).outputs.length (s.dropOutput i) r →
      Change s (.removeOutput i) r.clampFloatingWindows
  | geometryNone {i : ℕ} {g : GeometryEvent} {s' : State} : s.outputs = [] → s.Quiet s' →
      s.SameApplied s' → s'.seats = s.seats → Change s (.outputGeometry i g) s'
  | geometry {i : ℕ} {g : GeometryEvent} {r : State} : s.outputs ≠ [] →
      Normalizing s.outputs.length (s.setGeometry i g) r →
      Change s (.outputGeometry i g) r.clampFloatingWindows

/-! ## The operations make these changes -/

/-- An activation, of a tag the output owns or has just claimed. -/
theorem shows_of_activation (h : Activation i t old r s') (hr : Same s r ∨
    r = s.setTagOutput t i ∧ t < s.tags.length ∧ s.tagOwner t = none) : Shows i t old s s' := by
  rcases hr with hr | ⟨rfl, hlt, hnone⟩
  · have hown : s.tagOwner t = some i := by rw [← hr.owner, h.owned]
    refine ⟨?_, Or.inl hown, ?_, ?_, ?_, ?_, ?_, ?_, ?_, ?_, ?_, ?_⟩
    · by_contra hge
      rw [tagOwner_eq_none_of_length_le (not_lt.mp hge)] at hown
      cases hown
    · rw [← hr.shown, h.was]
    · rw [h.tags, hr.tags]
    · intro u
      rw [h.owner, hr.owner]
      split_ifs with hu
      · rw [hu, hown]
      · rfl
    · rw [h.length, hr.length]
    · intro j
      rw [h.shown, hr.shown]
    · intro j
      rw [h.proxy, hr.proxy]
    · simpa only [clearFullscreenOnTag, hr.windows] using h.windows
    · rw [h.seats, hr.seats]
    · rw [h.nextWindowId, hr.nextWindowId]
    · rw [h.focused]
      exact hr.focused
  · refine ⟨hlt, Or.inr hnone, h.was, ?_, ?_, h.length, h.shown, h.proxy, h.windows, h.seats,
      h.nextWindowId, Or.inl h.focused⟩
    · rw [h.tags, length_tags_setTagOutput]
    · intro u
      rw [h.owner, tagOwner_setTagOutput hlt]

/-- What is sent arrives. -/
theorem sends_of_sentWindow (h : s.sentWindow o t = some w) : ∃ s',
    s.sendFocusedToTag o t = some s' ∧ Sends o t w s s' := by
  obtain ⟨x, hx⟩ := sendFocusedToTag_of_some h
  have ht := (sentWindow_spec h).1
  refine ⟨_, hx, ?_⟩
  by_cases hn : s.tagOwner t = none
  · rw [if_pos (by simp [hn])]
    refine ⟨h, by simp, fun u => ?_, by simp, fun i => by simp, fun i => by simp, rfl, rfl,
      rfl, rfl⟩
    rw [tagOwner_markDirty, tagOwner_setFocusedWindow, tagOwner_modifyWindow,
      tagOwner_setTagOutput ht]
    simp [hn]
  · rw [if_neg (by simpa using hn)]
    exact ⟨h, rfl, fun u => by simp [hn], by simp, fun i => by simp, fun i => by simp, rfl, rfl,
      rfl, rfl⟩

/-- A window is sent, if there is one to send. -/
theorem change_sendFocusedToTag : ∃ s', s.sendFocusedToTag o t = some s' ∧
    Change s (.sendFocusedToTag o t) s' := by
  cases h : s.sentWindow o t with
  | none => exact ⟨s, sendFocusedToTag_of_none h, .sendNone h⟩
  | some w =>
    obtain ⟨s', hs', hsend⟩ := sends_of_sentWindow h
    exact ⟨s', hs', .send hsend⟩

/-- The tag is shown by its owner, or claimed by the output it is focused on. -/
theorem change_focusTag (hs : s.WellFormed) : ∃ s', s.focusTag o t = some s' ∧
    Change s (.focusTag o t) s' := by
  obtain ⟨s', hs', rfl | ⟨i, old, r, ha, hr⟩⟩ := focusTag_cases hs (o := o) (t := t)
  · exact ⟨s', hs', .same trivial (Same.refl s')⟩
  · exact ⟨s', hs', .shows trivial (shows_of_activation ha hr)⟩

/-- The window is focused, with its tag shown. -/
theorem change_focusWindow (wid : ℕ) : ∃ s' changed,
    s.focusWindowOnOutput wid = some (s', changed) ∧ Change s (.focusWindow wid) s' := by
  obtain ⟨s', changed, hs', rfl | ⟨o, t, old, r, ha, hr⟩⟩ :=
    focusWindowOnOutput_cases (s := s) (i := wid)
  · exact ⟨s', changed, hs', .same trivial (Same.refl s')⟩
  · exact ⟨s', changed, hs', .shows trivial (shows_of_activation ha (Or.inl hr))⟩

theorem change_commandFocusWindow (wid : ℕ) : ∃ s', s.commandFocusWindow wid t = some s' ∧
    Change s (.commandFocusWindow wid t) s' := by
  obtain ⟨s', hs', rfl | ⟨o, old, r, ha, hr⟩⟩ := commandFocusWindow_cases (s := s) (i := wid)
    (t := t)
  · exact ⟨s', hs', .same trivial (Same.refl s')⟩
  · exact ⟨s', hs', .shows trivial (shows_of_activation ha (Or.inl hr))⟩

theorem change_cycleFocus (hs : s.WellFormed) (next : Bool) : ∃ s' changed,
    s.cycleFocus next = some (s', changed) ∧ Change s (.cycleFocus next) s' := by
  obtain ⟨s', changed, hs', h⟩ := cycleFocus_cases hs next
  exact ⟨s', changed, hs', .same trivial h⟩

theorem change_refocus (hi : i < s.outputs.length) : ∃ s', s.refocusOutput i = some s' ∧
    Change s (.refocus i) s' := by
  obtain ⟨s', hs', h⟩ := refocusOutput_spec hi
  exact ⟨s', hs', .same trivial h⟩

theorem change_addOutput (hs : s.WellFormed) (proxy : ObjectId) : ∃ s',
    s.addOutput proxy = some s' ∧ Change s (.addOutput proxy) s' := by
  obtain ⟨s', hs', h⟩ := addOutput_spec hs proxy
  exact ⟨s', hs', .add h⟩

/-- No output goes, or the only one, or one of several. -/
theorem change_removeOutput (hs : s.WellFormed) (i : ℕ) : ∃ s',
    s.removeOutput i = some s' ∧ Change s (.removeOutput i) s' := by
  by_cases hi : s.outputs.length ≤ i
  · exact ⟨s, by simp [removeOutput, hi], .removeNone hi⟩
  rw [not_le] at hi
  rcases (show s.outputs.length = 1 ∨ 1 < s.outputs.length by omega) with hlen | hlen
  · exact ⟨_, removeOutput_last hi hlen, .removeLast hlen hi⟩
  · obtain ⟨r, hr, hn⟩ := removeOutput_spec hs hi hlen
    exact ⟨_, hr, .remove hi hlen hn⟩

/-- Without an output nothing is repaired; otherwise all are normalized. -/
theorem change_outputGeometry (hs : s.WellFormed) (i : ℕ) (g : GeometryEvent) : ∃ s',
    (s.setGeometry i g).repairOutputs = some s' ∧ Change s (.outputGeometry i g) s' := by
  obtain ⟨r, hr, ⟨hnil, rfl⟩ | ⟨hne, hn⟩⟩ := outputGeometry_spec hs (i := i) g
  · have hnil' : (s.setGeometry i g).outputs = [] := by simp [setGeometry, hnil]
    have hclamp : ({ s.setGeometry i g with focusedOutput := none } : State).clampFloatingWindows =
        { s.setGeometry i g with focusedOutput := none } := by
      simp [clampFloatingWindows, hnil']
    obtain ⟨h1, h2, h3, -, h5⟩ := quiet_setGeometry s i g
    refine ⟨_, hr, .geometryNone hnil ?_ ?_ ?_⟩ <;> rw [hclamp]
    · exact ⟨h1, h2, h3, (hs.focus.mpr hnil).symm, h5⟩
    · exact SameApplied.refl s
    · rfl
  · exact ⟨_, hr, .geometry hne hn⟩

/-- A step from a well-formed state is one of the changes. -/
theorem change_of_step (hs : s.WellFormed) (h : Op.Step s op s') : Change s op s' := by
  have inj : ∀ {x : Option State} {op : Op} {r : State}, x = some r → x = some s' →
      Change s op r → Change s op s' := by
    rintro x op r hr hs' hc
    obtain rfl := Option.some.inj (hr.symm.trans hs')
    exact hc
  have inj' : ∀ {x : Option (State × Bool)} {op : Op} {r : State} {b c : Bool},
      x = some (r, b) → x = some (s', c) → Change s op r → Change s op s' := by
    rintro x op r b c hr hs' hc
    obtain rfl := congrArg Prod.fst (Option.some.inj (hr.symm.trans hs'))
    exact hc
  cases op with
  | addOutput proxy =>
    obtain ⟨r, hr, hc⟩ := change_addOutput hs proxy
    exact inj hr h hc
  | removeOutput i =>
    obtain ⟨r, hr, hc⟩ := change_removeOutput hs i
    exact inj hr h hc
  | outputGeometry i g =>
    obtain ⟨r, hr, hc⟩ := change_outputGeometry hs i g
    exact inj hr h hc
  | createWindow proxy =>
    obtain rfl : _ = s' := h
    exact .create proxy
  | closeWindow proxy =>
    obtain rfl : _ = s' := h
    exact .close proxy
  | focusTag o t =>
    obtain ⟨r, hr, hc⟩ := change_focusTag hs (o := o) (t := t)
    exact inj hr h hc
  | sendFocusedToTag o t =>
    obtain ⟨r, hr, hc⟩ := change_sendFocusedToTag (s := s) (o := o) (t := t)
    exact inj hr h hc
  | focusOutput i =>
    obtain ⟨hi, rfl⟩ := h
    exact .same trivial (same_setFocusedOutput hi)
  | focusWindow wid =>
    obtain ⟨c, h⟩ := h
    obtain ⟨r, b, hr, hc⟩ := change_focusWindow (s := s) wid
    exact inj' hr h hc
  | commandFocusWindow wid t =>
    obtain ⟨r, hr, hc⟩ := change_commandFocusWindow (s := s) (t := t) wid
    exact inj hr h hc
  | cycleFocus next =>
    obtain ⟨c, h⟩ := h
    obtain ⟨r, b, hr, hc⟩ := change_cycleFocus hs next
    exact inj' hr h hc
  | refocus i =>
    have hi : i < s.outputs.length := by
      by_contra hge
      have hnone : s.refocusOutput i = none := by
        simp [refocusOutput, List.getElem?_eq_none (not_lt.mp hge)]
      rw [show Op.Step s (.refocus i) s' ↔ s.refocusOutput i = some s' from Iff.rfl, hnone] at h
      cases h
    obtain ⟨r, hr, hc⟩ := change_refocus hi
    exact inj hr h hc
  | fullscreen wid =>
    obtain rfl : _ = s' := h
    exact .fullscreen wid
  | applyFullscreen => exact .applyFullscreen h
  | quiet => exact .quiet h.1 h.2

/-! ## Well-formedness is kept -/

/-- An operation on windows keeps all indices in range if it keeps those of their tags. -/
theorem Still.wellFormed (hs : s.WellFormed) (h : Still s s')
    (hw : ∀ w ∈ s'.windows, w.tag < numTags)
    (hf : s'.focusedOutput = s.focusedOutput ∨
      ∃ i, i < s.outputs.length ∧ s'.focusedOutput = some i) : s'.WellFormed where
  tags := h.tags.trans hs.tags
  owner t i hi := h.length ▸ hs.owner t i (h.owner t ▸ hi)
  window := hw
  active i t hi := hs.active i t (h.shown i ▸ hi)
  focus := by
    rw [← List.length_eq_zero_iff, h.length, List.length_eq_zero_iff]
    rcases hf with hf | ⟨i, hi, hf⟩
    · rw [hf, hs.focus]
    · rw [hf]
      simp [List.ne_nil_of_length_pos (Nat.zero_lt_of_lt hi)]
  focused i hi := by
    rw [h.length]
    rcases hf with hf | ⟨j, hj, hf⟩
    · exact hs.focused i (hf ▸ hi)
    · rw [hf] at hi
      exact Option.some.inj hi ▸ hj

theorem Quiet.tags_lt (h : Quiet s s') {n : ℕ} (hw : ∀ w ∈ s.windows, w.tag < n) :
    ∀ w ∈ s'.windows, w.tag < n := by
  intro w hmem
  obtain ⟨v, hv, -, -, htag, -⟩ := exists_of_forall₂ h.windows hmem
  rw [htag]
  exact hw v hv

/-- A step that leaves tags, outputs and focus alone. -/
theorem Quiet.wellFormed (hs : s.WellFormed) (h : Quiet s s') : s'.WellFormed :=
  h.still.wellFormed hs (h.tags_lt hs.window) (Or.inl h.focusedOutput)

/-- The loop makes a state well-formed that has valid owners, active tags and focus. -/
theorem Normalizing.wellFormed {k : ℕ} (h : Normalizing k s r) (htags : s.tags.length = numTags)
    (howner : ∀ t i, s.tagOwner t = some i → i < s.outputs.length)
    (hwindow : ∀ w ∈ s.windows, w.tag < numTags)
    (hactive : ∀ i t, s.shown i = some t → t < numTags)
    (hfocus : ∃ f, s.focusedOutput = some f ∧ f < s.outputs.length) : r.WellFormed := by
  obtain ⟨f, hf, hlt⟩ := hfocus
  have htags' : r.tags.length = numTags := h.tags.trans htags
  refine ⟨htags', fun t i hi => ?_, by rwa [h.windows], fun i t hi => ?_, ?_, fun i hi => ?_⟩
  · rw [h.length]
    rcases h.claimed t i hi with hold | ⟨hlt', -⟩
    · exact howner t i hold
    · exact hlt'
  · rcases h.active i t hi with hold | hown
    · exact hactive i t hold
    · by_contra hge
      rw [tagOwner_eq_none_of_length_le (htags' ▸ not_lt.mp hge)] at hown
      cases hown
  · rw [h.focusedOutput, hf, ← List.length_eq_zero_iff, h.length]
    simp [Nat.ne_of_gt (Nat.zero_lt_of_lt hlt)]
  · rw [h.focusedOutput, hf] at hi
    rw [h.length, ← Option.some.inj hi]
    exact hlt

/-- The new output is normalized with the others. -/
theorem wellFormed_of_added {proxy : ObjectId} (hs : s.WellFormed)
    (h : Normalizing (s.outputs.length + 1) (s.withNewOutput proxy).validFocus r) :
    r.WellFormed := by
  have hne : (s.withNewOutput proxy).outputs ≠ [] := by
    rw [← List.length_pos_iff, length_outputs_withNewOutput]
    omega
  obtain ⟨hsame, hfocus⟩ := validFocus_spec _ hne
  rw [← hsame.length] at hfocus
  have hlen : (s.withNewOutput proxy).outputs.length = s.outputs.length + 1 :=
    length_outputs_withNewOutput
  refine h.wellFormed ?_ (fun t i hi => ?_) ?_ (fun i t hi => ?_) hfocus
  · rw [hsame.tags, length_tags_withNewOutput, hs.tags]
  · rw [hsame.length, hlen]
    rw [hsame.owner, tagOwner_withNewOutput] at hi
    split_ifs at hi
    · rw [← Option.some.inj hi]
      omega
    · have := hs.owner t i hi
      omega
  · rw [hsame.windows, windows_withNewOutput]
    exact hs.window
  · rw [hsame.shown] at hi
    rcases eq_or_ne i s.outputs.length with rfl | hne'
    · cases hfree : s.firstFreeTag with
      | none =>
        rw [shown_withNewOutput_of_none hfree] at hi
        rw [← Option.some.inj hi]
        decide
      | some u =>
        rw [shown_withNewOutput_self hfree] at hi
        rw [← Option.some.inj hi, ← hs.tags]
        exact (firstFreeTag_eq_some hfree).1
    · rw [shown_withNewOutput hne'] at hi
      exact hs.active i t hi

/-- The outputs left are normalized, and the tags of the one gone are dealt out. -/
theorem wellFormed_of_removed (hs : s.WellFormed) (hi : i < s.outputs.length)
    (hlen : 1 < s.outputs.length)
    (h : Normalizing (s.dropOutput i).outputs.length (s.dropOutput i) r) : r.WellFormed := by
  have hlen' := length_outputs_dropOutput (s := s) hi
  refine h.wellFormed ?_ (fun t j hj => ?_) hs.window (fun j t hj => ?_) ?_
  · rw [length_tags_dropOutput, hs.tags]
  · rw [hlen']
    rcases tagOwner_of_dropOutput hi hj with hold | ⟨-, rfl⟩
    · exact lt_of_oldIndex_lt hi (hs.owner t _ hold)
    · omega
  · rw [shown_dropOutput] at hj
    exact hs.active _ t hj
  · have hne : (s.dropOutput i).outputs ≠ [] := by
      rw [← List.length_pos_iff, hlen']
      omega
    have hfocus := (validFocus_spec _ hne).2
    rwa [validFocus_dropOutput hs hi hlen] at hfocus

/-- Without an output no tag has an owner. -/
theorem wellFormed_of_removedLast (hs : s.WellFormed) (hlen : s.outputs.length = 1)
    (hi : i < s.outputs.length) :
    ({ s.dropOutput i with focusedOutput := none } : State).WellFormed := by
  have hnil : (s.dropOutput i).outputs = [] := by
    rw [← List.length_eq_zero_iff, length_outputs_dropOutput hi]
    omega
  refine ⟨length_tags_dropOutput.trans hs.tags, fun t j hj => ?_, hs.window, fun j t hj => ?_,
    by simp [hnil], fun j hj => by simp at hj⟩
  · have hnone := tagOwner_dropOutput_last (t := t) hlen hi
    exact absurd (hnone.symm.trans hj) (by simp)
  · simp [shown, hnil] at hj

/-- The tag shown is owned by the output that shows it. -/
theorem Shows.wellFormed (hs : s.WellFormed) (h : Shows i t old s s') : s'.WellFormed := by
  have htags : ∀ w ∈ s'.windows, w.tag < numTags := by
    rcases h.windows with hw | ⟨-, hw⟩
    · rw [hw]
      intro w hmem
      obtain ⟨v, hv, rfl⟩ := List.mem_map.mp hmem
      split_ifs <;> exact hs.window v hv
    · rw [hw]
      exact hs.window
  refine ⟨h.tags.trans hs.tags, fun u j hj => ?_, htags, fun j a ha => ?_, ?_, fun j hj => ?_⟩
  · rw [h.length]
    rw [h.owner] at hj
    split_ifs at hj
    · rw [← Option.some.inj hj]
      exact lt_of_shown h.was
    · exact hs.owner u j hj
  · rw [h.shown] at ha
    obtain ⟨b, hb, rfl⟩ := Option.map_eq_some_iff.mp ha
    split_ifs
    · exact hs.tags ▸ h.lt
    · exact hs.active j b hb
  · have hpos : s.outputs ≠ [] := List.ne_nil_of_length_pos (Nat.zero_lt_of_lt (lt_of_shown h.was))
    rw [← List.length_eq_zero_iff, h.length, List.length_eq_zero_iff]
    rcases h.focused with hf | ⟨k, -, hf⟩
    · rw [hf, hs.focus]
    · simp [hf, hpos]
  · rw [h.length]
    rcases h.focused with hf | ⟨k, hk, hf⟩
    · exact hs.focused j (hf ▸ hj)
    · rw [hf] at hj
      exact Option.some.inj hj ▸ hk

/-- The tag sent to is a tag. -/
theorem Sends.wellFormed (hs : s.WellFormed) (h : Sends o t w s s') : s'.WellFormed := by
  obtain ⟨ht, ⟨out, ho, -⟩, -, -, -⟩ := sentWindow_spec h.sent
  refine ⟨h.tags.trans hs.tags, fun u j hj => ?_, fun v hv => ?_, fun j a ha => ?_, ?_,
    fun j hj => ?_⟩
  · rw [h.length]
    rw [h.owner] at hj
    split_ifs at hj
    · rw [← Option.some.inj hj]
      exact (List.getElem?_eq_some_iff.mp ho).1
    · exact hs.owner u j hj
  · rw [h.windows] at hv
    rcases mem_modifyFirst hv with hv | ⟨v', -, -, rfl⟩
    · exact hs.window v hv
    · exact hs.tags ▸ ht
  · exact hs.active j a (h.shown j ▸ ha)
  · rw [← List.length_eq_zero_iff, h.length, List.length_eq_zero_iff, h.focused, hs.focus]
  · rw [h.length]
    exact hs.focused j (h.focused ▸ hj)

/-- A new window is on a tag that is shown, or on the first. -/
theorem createWindow_tag_lt (hs : s.WellFormed) (proxy : ObjectId) :
    ∀ w ∈ (s.createWindow proxy).windows, w.tag < numTags := by
  intro w hw
  rcases List.mem_append.mp hw with hw | hw
  · exact hs.window w hw
  · rw [List.mem_singleton.mp hw]
    change ((s.outputs[s.activeOutput.getD 0]?.map (·.activeTag)).getD 0) < numTags
    cases h : s.outputs[s.activeOutput.getD 0]? with
    | none => decide
    | some out => exact hs.active _ out.activeTag (by rw [shown, h]; rfl)

theorem still_createWindow (proxy : ObjectId) : Still s (s.createWindow proxy) :=
  ⟨rfl, fun _ => rfl, length_outputs_setFocusedWindow, fun _ => shown_setFocusedWindow,
    fun _ => outputProxy_setFocusedWindow⟩

theorem still_closeWindow (proxy : ObjectId) : Still s (s.closeWindow proxy) :=
  ⟨rfl, fun _ => rfl, rfl, fun _ => rfl, fun _ => rfl⟩

theorem still_modifyWindow (wid : ℕ) (f : Window → Window) : Still s (s.modifyWindow wid f) :=
  ⟨rfl, fun _ => rfl, rfl, fun _ => rfl, fun _ => rfl⟩

/-- Every operation keeps all indices in range. -/
theorem Change.wellFormed (hs : s.WellFormed) (h : Change s op s') : s'.WellFormed := by
  cases h with
  | same _ h => exact h.toStill.wellFormed hs (by rw [h.windows]; exact hs.window) h.focused
  | shows _ h => exact h.wellFormed hs
  | sendNone _ => exact hs
  | send h => exact h.wellFormed hs
  | create proxy =>
    exact (still_createWindow proxy).wellFormed hs (createWindow_tag_lt hs proxy) (Or.inl rfl)
  | close proxy =>
    exact (still_closeWindow proxy).wellFormed hs
      (fun w hw => hs.window w (List.mem_of_mem_filter hw)) (Or.inl rfl)
  | fullscreen wid =>
    refine (still_modifyWindow wid _).wellFormed hs (fun w hw => ?_) (Or.inl rfl)
    rcases mem_modifyFirst hw with hw | ⟨v, hv, -, rfl⟩
    · exact hs.window w hw
    · exact hs.window v hv
  | applyFullscreen h => exact h.wellFormed hs
  | quiet h _ => exact h.wellFormed hs
  | add h => exact wellFormed_of_added hs h
  | removeNone _ => exact hs
  | removeLast hlen hi => exact wellFormed_of_removedLast hs hlen hi
  | remove hi hlen h =>
    exact (quiet_clampFloatingWindows _).wellFormed (wellFormed_of_removed hs hi hlen h)
  | geometryNone _ h _ _ => exact h.wellFormed hs
  | @geometry i g r hne h =>
    have hg := (quiet_setGeometry s i g).wellFormed hs
    obtain ⟨f, hf⟩ := Option.ne_none_iff_exists'.mp (mt hs.focus.mp hne)
    exact (quiet_clampFloatingWindows r).wellFormed
      (h.wellFormed hg.tags hg.owner hg.window hg.active ⟨f, hf, hg.focused f hf⟩)

/-! ## Seats and the window counter -/

/-- Normalization is about tags only. -/
theorem Normalizing.seats {k : ℕ} (h : Normalizing k s r) : r.seats = s.seats := by
  have hseats := congrArg State.seats h.frame
  exact hseats

theorem Normalizing.nextWindowId {k : ℕ} (h : Normalizing k s r) :
    r.nextWindowId = s.nextWindowId := by
  have hnext := congrArg State.nextWindowId h.frame
  exact hnext

theorem seats_clampFloatingWindows (s : State) : s.clampFloatingWindows.seats = s.seats := by
  unfold clampFloatingWindows
  split_ifs <;> rfl

theorem seats_withNewOutput (proxy : ObjectId) : (s.withNewOutput proxy).seats = s.seats ∧
    (s.withNewOutput proxy).nextWindowId = s.nextWindowId := by
  unfold withNewOutput
  split <;> exact ⟨rfl, rfl⟩

/-- No operation changes the seats. -/
theorem Change.seats (h : Change s op s') (h₁ : op ≠ .quiet) (h₂ : op ≠ .applyFullscreen) :
    s'.seats = s.seats := by
  cases h with
  | same _ h => exact h.seats
  | shows _ h => exact h.seats
  | sendNone _ => rfl
  | send h => exact h.seats
  | create proxy => rfl
  | close proxy => rfl
  | fullscreen wid => rfl
  | applyFullscreen _ => exact absurd rfl h₂
  | quiet _ _ => exact absurd rfl h₁
  | @add proxy _ h =>
    have hsame := (validFocus_spec (s.withNewOutput proxy) (by simp [← List.length_pos_iff])).1
    rw [h.seats, hsame.seats, (seats_withNewOutput proxy).1]
  | removeNone _ => rfl
  | removeLast _ _ => rfl
  | remove _ _ h =>
    rw [seats_clampFloatingWindows, h.seats]
    rfl
  | geometryNone _ _ _ h => exact h
  | geometry _ h =>
    rw [seats_clampFloatingWindows, h.seats]
    rfl

end State

/-- Every step keeps all indices in range. -/
theorem Op.Step.wellFormed {s s' : State} {op : Op} (hs : s.WellFormed) (h : Op.Step s op s') :
    s'.WellFormed :=
  (State.change_of_step hs h).wellFormed hs

end Streamwm
