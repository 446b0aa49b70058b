import Streamwm.FocusRouting

/-!
# The focused window of a snapshot

A snapshot copies every output's `focused_window`, and lists the windows on the tags the
output owns. The copied id is real when the output's focus is (`reportsFocus_iff`).

Of every output an operation either leaves alone what the focus rests on (`Leaves`), or gives
the output a focus that is there. Two events do neither. A closed window is forgotten and its
output not refocused before the next manage sequence, and a new window is focused on the
active output, which may show a tag of another. `focus_reported_iff` : in every run the
reported windows are there iff no event does this.
-/

namespace Streamwm

open Partial Transition

/-- The operations on the list of outputs. -/
def Op.OfOutputs : Op → Prop
  | .addOutput _ | .removeOutput _ | .outputGeometry _ _ => True
  | _ => False

namespace State

variable {s s' r : State} {i j t : ℕ} {w : Window}

/-! ## The focus of one output -/

/-- Of every output the focus is left alone, or it is there afterwards. -/
def Refocuses (s s' : State) : Prop :=
  ∀ j, Leaves j s s' ∨ s'.FocusedOn j

theorem Leaves.trans (h : Leaves j s r) (h' : Leaves j r s') : Leaves j s s' := by
  refine ⟨h'.output.trans h.output, fun t ht => h'.owner t (h.owner t ht), fun w hw hown => ?_⟩
  obtain ⟨v, hv, hid, htag⟩ := h.window w hw hown
  obtain ⟨u, hu, hid', htag'⟩ := h'.window v hv (htag ▸ h.owner w.tag hown)
  exact ⟨u, hu, hid'.trans hid, htag'.trans htag⟩

theorem Refocuses.focused (h : Refocuses s s') (hf : s.Focused) : s'.Focused :=
  fun j => (h j).elim (fun hleaves => hleaves.focusedOn (hf j)) id

/-- A change after which nothing is refocused. -/
theorem Refocuses.leaves (h : Refocuses s r) (h' : ∀ j, Leaves j r s') : Refocuses s s' :=
  fun j => (h j).imp (fun hleaves => hleaves.trans (h' j)) (h' j).focusedOn

/-! ## Assignments -/

theorem leaves_refl (s : State) (j : ℕ) : Leaves j s s :=
  ⟨rfl, fun _ hown => hown, fun w hw _ => ⟨w, hw, rfl, rfl⟩⟩

theorem leaves_markDirty (s : State) (j : ℕ) : Leaves j s s.markDirty :=
  ⟨rfl, fun _ hown => hown, fun w hw _ => ⟨w, hw, rfl, rfl⟩⟩

theorem leaves_setFocusedOutput (i : ℕ) (s : State) (j : ℕ) : Leaves j s (s.setFocusedOutput i) :=
  ⟨rfl, fun _ hown => hown, fun w hw _ => ⟨w, hw, rfl, rfl⟩⟩

theorem refocuses_refl (s : State) : Refocuses s s :=
  fun j => Or.inl (leaves_refl s j)

theorem leaves_setActiveTag (h : i ≠ j) (s : State) : Leaves j s (s.setActiveTag i t) :=
  ⟨by simp [getElem?_outputs_setActiveTag, h], fun _ hown => hown, fun w hw _ => ⟨w, hw, rfl, rfl⟩⟩

theorem leaves_setFocusedWindow (h : i ≠ j) (x : Option ℕ) (s : State) :
    Leaves j s (s.setFocusedWindow i x) :=
  ⟨by simp [getElem?_outputs_setFocusedWindow, h], fun _ hown => hown,
    fun w hw _ => ⟨w, hw, rfl, rfl⟩⟩

/-- A tag without an owner is claimed. -/
theorem leaves_setTagOutput (ht : t < s.tags.length) (h : s.tagOwner t = none) (j : ℕ) :
    Leaves j s (s.setTagOutput t i) := by
  refine ⟨rfl, fun u hu => ?_, fun w hw _ => ⟨w, hw, rfl, rfl⟩⟩
  rw [tagOwner_setTagOutput ht, if_neg, hu]
  rintro rfl
  rw [h] at hu
  cases hu

theorem leaves_of_windows (hw : List.Forall₂ (fun w w' : Window => w'.id = w.id ∧ w'.tag = w.tag)
    s.windows s'.windows) (ho : s'.outputs = s.outputs) (ht : s'.tags = s.tags) (j : ℕ) :
    Leaves j s s' := by
  refine ⟨by rw [ho], fun t h => ?_, fun w hmem _ => ?_⟩
  · rw [tagOwner, ht]
    exact h
  · obtain ⟨w', hw', heq⟩ := exists_of_forall₂ hw.flip hmem
    exact ⟨w', hw', heq⟩

theorem leaves_clearFullscreenOnTag (t : ℕ) (s : State) (j : ℕ) :
    Leaves j s (s.clearFullscreenOnTag t) := by
  have hwindows : List.Forall₂ (fun w w' : Window => w'.id = w.id ∧ w'.tag = w.tag) s.windows
      (s.clearFullscreenOnTag t).windows := by
    refine List.forall₂_map_right_iff.mpr (List.forall₂_same.mpr fun w _ => ?_)
    split_ifs <;> exact ⟨rfl, rfl⟩
  exact leaves_of_windows hwindows rfl rfl j

theorem leaves_fullscreen (id : ℕ) (s : State) (j : ℕ) :
    Leaves j s (s.modifyWindow id fun w => { w with fullscreen := true }) := by
  have hwindows : List.Forall₂ (fun w w' : Window => w'.id = w.id ∧ w'.tag = w.tag) s.windows
      (s.modifyWindow id fun w => { w with fullscreen := true }).windows :=
    forall₂_modifyFirst (fun _ => ⟨rfl, rfl⟩) (fun _ _ => ⟨rfl, rfl⟩) s.windows
  exact leaves_of_windows hwindows rfl rfl j

/-- An update of a window that is on no tag of the output. -/
theorem leaves_modifyWindow {id : ℕ} (f : Window → Window)
    (h : ∀ w ∈ s.windows, w.id = id → s.tagOwner w.tag ≠ some j) :
    Leaves j s (s.modifyWindow id f) := by
  refine ⟨rfl, fun _ hown => hown, fun w hw hown => ⟨w, ?_, rfl, rfl⟩⟩
  have hne : (w.id == id) = false := beq_eq_false_iff_ne.mpr fun hid => h w hw hid hown
  exact mem_modifyFirst_of_neg (p := fun v : Window => v.id == id) hne hw

/-! ## Operations -/

/-- Refocusing an output after a change that concerns no other. -/
theorem refocuses_refocusOutput (h : ∀ j, i ≠ j → Leaves j s r)
    (hr : r.refocusOutput i = some s') : Refocuses s s' := by
  obtain ⟨out, hout, heq⟩ := Option.bind_eq_some_iff.mp hr
  obtain rfl := Option.some.inj heq
  intro j
  by_cases hij : i = j
  · subst hij
    refine Or.inr fun out' f hout' hf => ?_
    rw [getElem?_outputs_setFocusedWindow, hout, Option.map_some, if_pos rfl] at hout'
    obtain rfl := Option.some.inj hout'
    have hmem := refocusTarget_mem hf
    exact hmem
  · exact Or.inl ((h j hij).trans (leaves_setFocusedWindow hij _ r))

theorem refocuses_activateTag (h : ∀ j, i ≠ j → Leaves j s r)
    (hr : r.activateTag i t = some s') : Refocuses s s' := by
  obtain ⟨out, -, hr⟩ := Option.bind_eq_some_iff.mp hr
  exact refocuses_refocusOutput (fun j hij => ((h j hij).trans (leaves_setActiveTag hij r)).trans
    (leaves_clearFullscreenOnTag out.activeTag _ j)) hr

theorem refocuses_switchActiveTag (h : ∀ j, i ≠ j → Leaves j s r)
    (hr : r.switchActiveTag i t = some s') : Refocuses s s' := by
  unfold switchActiveTag at hr
  split at hr
  · next hnone =>
    obtain rfl := Option.some.inj hr
    intro j
    by_cases hij : i = j
    · subst hij
      refine Or.inr fun out f hout _ => ?_
      rw [hnone] at hout
      cases hout
    · exact Or.inl (h j hij)
  · refine refocuses_refocusOutput (fun j hij => (h j hij).trans ?_) hr
    split_ifs
    · exact (leaves_setActiveTag hij r).trans (leaves_clearFullscreenOnTag _ _ j)
    · exact leaves_setActiveTag hij r

theorem refocuses_focusTag (h : s.focusTag i t = some s') : Refocuses s s' := by
  unfold focusTag at h
  split_ifs at h with hrange
  · obtain rfl := Option.some.inj h
    exact refocuses_refl s
  simp only [not_or, not_le] at hrange
  have key : ∀ {r : State} {o : ℕ}, (∀ j, Leaves j s r) →
      (do return (← r.activateTag o t).markDirty) = some s' → Refocuses s s' := by
    intro r o hleaves h
    obtain ⟨r', hr', h⟩ := Option.bind_eq_some_iff.mp h
    obtain rfl := Option.some.inj h
    exact (refocuses_activateTag (fun j _ => hleaves j) hr').leaves (leaves_markDirty r')
  split at h
  · next hnone => exact key (leaves_setTagOutput hrange.1 hnone) h
  · split_ifs at h
    · exact key (leaves_refl s) h
    · exact key (leaves_setFocusedOutput _ s) h

theorem refocuses_focusWindowOnOutput {wid : ℕ} {changed : Bool}
    (h : s.focusWindowOnOutput wid = some (s', changed)) : Refocuses s s' := by
  unfold focusWindowOnOutput at h
  split at h
  · cases h
    exact refocuses_refl s
  split at h
  · cases h
    exact refocuses_refl s
  next w _ _ o _ =>
  obtain ⟨out, -, h⟩ := Option.bind_eq_some_iff.mp h
  split_ifs at h
  · cases h
    exact refocuses_refl s
  obtain ⟨r, hr, h⟩ := Option.bind_eq_some_iff.mp h
  cases h
  exact refocuses_switchActiveTag (fun j hij => (leaves_setFocusedOutput o s j).trans
    (leaves_setFocusedWindow hij (some wid) _)) hr

/-- The next window is one of the active tag. -/
theorem refocuses_cycleFocus {next changed : Bool} (h : s.cycleFocus next = some (s', changed)) :
    Refocuses s s' := by
  unfold cycleFocus at h
  split at h
  · cases h
    exact refocuses_refl s
  next o _ =>
  obtain ⟨out, hout, h⟩ := Option.bind_eq_some_iff.mp h
  by_cases hempty : ((s.windows.filter (s.onActiveTag o out.activeTag)).map (·.id)).isEmpty = true
  · rw [if_pos hempty] at h
    cases h
    exact refocuses_refl s
  rw [if_neg hempty] at h
  obtain ⟨f, hf, h⟩ := Option.bind_eq_some_iff.mp h
  cases h
  obtain ⟨w, hw, rfl⟩ := List.mem_map.mp (List.mem_of_getElem? hf)
  obtain ⟨hmem, hactive⟩ := List.mem_filter.mp hw
  intro j
  by_cases hoj : o = j
  · subst hoj
    refine Or.inr fun out' f hout' hf' => ?_
    rw [getElem?_outputs_setFocusedWindow, hout, Option.map_some, if_pos rfl] at hout'
    obtain rfl := Option.some.inj hout'
    obtain rfl := Option.some.inj hf'
    exact ⟨w, hmem, rfl, onActiveTag_iff.mp hactive⟩
  · exact Or.inl (leaves_setFocusedWindow hoj _ s)

/-- The window sent is on a tag of the output it is focused on. -/
theorem refocuses_sendFocusedToTag (hf : s.Focused) (hids : s.FreshIds)
    (h : s.sendFocusedToTag i t = some s') : Refocuses s s' := by
  unfold sendFocusedToTag at h
  by_cases ht : s.tags.length ≤ t
  · rw [if_pos ht] at h
    obtain rfl := Option.some.inj h
    exact refocuses_refl s
  rw [if_neg ht] at h
  split at h
  · obtain rfl := Option.some.inj h
    exact refocuses_refl s
  next out hout =>
  split at h
  · obtain rfl := Option.some.inj h
    exact refocuses_refl s
  next fid hfid =>
  obtain ⟨r', hr', h⟩ := Option.bind_eq_some_iff.mp h
  obtain rfl := Option.some.inj h
  obtain ⟨w, hw, rfl, hown, -⟩ := hf i out fid hout (Option.filter_eq_some_iff.mp hfid).1
  -- the target tag is claimed before the window moves
  have hclaim : ∀ j, Leaves j s (if (s.tagOwner t).isNone then s.setTagOutput t i else s) := by
    intro j
    split_ifs with hfree
    · exact leaves_setTagOutput (not_le.mp ht) (Option.isNone_iff_eq_none.mp hfree) j
    · exact leaves_refl s j
  have hwindows : (if (s.tagOwner t).isNone then s.setTagOutput t i else s).windows =
      s.windows := by
    split_ifs <;> rfl
  revert hclaim hwindows hr'
  generalize (if (s.tagOwner t).isNone then s.setTagOutput t i else s) = r
  intro hr' hclaim hwindows
  refine (refocuses_refocusOutput (fun j hij => ?_) hr').leaves (leaves_markDirty r')
  refine (hclaim j).trans (leaves_modifyWindow _ fun v hv hid hj => hij ?_)
  rw [hwindows] at hv
  rw [hids.eq_of_id hv hw hid, (hclaim i).owner w.tag hown] at hj
  exact Option.some.inj hj

/-- The command names a window and its tag. -/
theorem refocuses_commandFocusWindow (hw : w ∈ s.windows)
    (h : s.commandFocusWindow w.id w.tag = some s') : Refocuses s s' := by
  unfold commandFocusWindow at h
  split at h
  · obtain rfl := Option.some.inj h
    exact refocuses_refl s
  next o ho =>
  obtain ⟨r, hr, h⟩ := Option.bind_eq_some_iff.mp h
  split_ifs at h
  obtain rfl := Option.some.inj h
  obtain ⟨hown, hlt⟩ := Option.filter_eq_some_iff.mp ho
  obtain ⟨r', hr', ha⟩ := switchActiveTag_spec (s := s.setFocusedOutput o) (i := o) (t := w.tag)
    (List.getElem?_eq_getElem (of_decide_eq_true hlt)) hown
  obtain rfl := Option.some.inj (hr'.symm.trans hr)
  have hrefocus := refocuses_switchActiveTag (fun j _ => leaves_setFocusedOutput o s j) hr
  intro j
  by_cases hoj : o = j
  · subst hoj
    obtain ⟨v, hv, hid, htag⟩ : ∃ v ∈ r'.windows, v.id = w.id ∧ v.tag = w.tag := by
      rcases ha.windows with hcleared | ⟨-, hsame⟩
      · rw [hcleared]
        exact (leaves_clearFullscreenOnTag _ (s.setFocusedOutput o) o).window w hw hown
      · rw [hsame]
        exact ⟨w, hw, rfl, rfl⟩
    refine Or.inr fun out f hout hf => ⟨v, hv, ?_⟩
    rw [getElem?_outputs_setFocusedWindow] at hout
    obtain ⟨out', hout', heq⟩ := Option.map_eq_some_iff.mp hout
    rw [if_pos rfl] at heq
    obtain rfl := heq
    obtain rfl := Option.some.inj hf
    have hshown := ha.shown o
    rw [Normalizing.shown_eq hout', ha.was, Option.map_some, if_pos rfl] at hshown
    refine ⟨hid, ?_, htag.trans (Option.some.inj hshown).symm⟩
    rw [htag]
    exact (ha.owner w.tag).trans hown
  · have hleaves := leaves_setFocusedWindow hoj (some w.id) r'
    exact (hrefocus j).imp (fun h => h.trans hleaves) hleaves.focusedOn

theorem Normalizing.focused {k : ℕ} (h : Normalizing k s r) (hk : s.outputs.length ≤ k) :
    r.Focused := by
  intro j out f hout hf
  have hlt := (List.getElem?_eq_some_iff.mp hout).1
  rw [h.length] at hlt
  exact h.focus j (by omega) out f hout hf

/-- A new window and where it is focused. -/
theorem createWindow_eq {out : Output} (hactive : s.activeOutput = some i)
    (hout : s.outputs[i]? = some out) (proxy : ObjectId) :
    (s.createWindow proxy).windows = s.windows ++ [Window.new s.nextWindowId proxy out.activeTag] ∧
      ∀ j, (s.createWindow proxy).outputs[j]? = (s.outputs[j]?).map fun o =>
        if i = j then { o with focusedWindow := some s.nextWindowId } else o := by
  simp only [createWindow, hactive, Option.getD_some, hout, Option.map_some]
  exact ⟨rfl, fun j => getElem?_outputs_setFocusedWindow⟩

/-- A new window is focused on the active output, which has to own the tag it shows. -/
theorem focused_createWindow_iff (hs : s.WellFormed) (hf : s.Focused)
    (proxy : ObjectId) : (s.createWindow proxy).Focused ↔
      ∀ i t, s.activeOutput = some i → s.shown i = some t → s.tagOwner t = some i := by
  cases hactive : s.activeOutput with
  | none =>
    have hnone (j : ℕ) : (s.createWindow proxy).outputs[j]? = none := by
      rw [createWindow, getElem?_outputs_setFocusedWindow]
      simp [hs.activeOutput_eq_none.mp hactive]
    simp only [Focused, hnone]
    simp
  | some i =>
    have hout := List.getElem?_eq_getElem (hs.activeOutput_lt hactive)
    obtain ⟨hwindows, houtputs⟩ := createWindow_eq hactive hout proxy
    have hshown := Normalizing.shown_eq hout
    constructor
    · intro h k t hk ht
      obtain rfl := Option.some.inj hk
      obtain rfl := Option.some.inj (hshown.symm.trans ht)
      obtain ⟨w, hw, hid, hown, htag⟩ := h i _ s.nextWindowId
        (by rw [houtputs, hout, Option.map_some, if_pos rfl]) rfl
      rw [← htag]
      exact hown
    · intro h j out f hj hfocus
      rw [houtputs] at hj
      obtain ⟨out', hout', heq⟩ := Option.map_eq_some_iff.mp hj
      rw [hwindows]
      by_cases hij : i = j
      · subst hij
        rw [if_pos rfl] at heq
        obtain rfl := heq
        obtain rfl := Option.some.inj hfocus
        obtain rfl := Option.some.inj (hout.symm.trans hout')
        exact ⟨_, List.mem_append_right _ (List.mem_singleton.mpr rfl), rfl, h i _ rfl hshown, rfl⟩
      · rw [if_neg hij] at heq
        obtain rfl := heq
        obtain ⟨w, hw, hid, hown, htag⟩ := hf j _ f hout' hfocus
        exact ⟨w, List.mem_append_left _ hw, hid, hown, htag⟩

/-- A window that is gone is focused on no output. -/
theorem focused_closeWindow_iff (hids : s.FreshIds) (hf : s.Focused) (proxy : ObjectId) :
    (s.closeWindow proxy).Focused ↔
      ∀ w ∈ s.windows, w.proxy = proxy → ∀ out ∈ s.outputs, out.focusedWindow ≠ some w.id := by
  constructor
  · intro h w hw hproxy out hout hfocus
    obtain ⟨i, hi⟩ := List.getElem?_of_mem hout
    obtain ⟨v, hv, hid, -⟩ := h i out w.id hi hfocus
    obtain ⟨hmem, hne⟩ := List.mem_filter.mp hv
    rw [hids.eq_of_id hmem hw hid] at hne
    exact absurd hproxy (of_decide_eq_true hne)
  · intro h i out f hout hfocus
    obtain ⟨w, hw, rfl, hown, htag⟩ := hf i out f hout hfocus
    refine ⟨w, List.mem_filter.mpr ⟨hw, ?_⟩, rfl, hown, htag⟩
    exact decide_eq_true fun hproxy => h w hw hproxy out (List.mem_of_getElem? hout) hfocus

/-- Adding, removing and moving outputs ends in a round of refocusing. -/
theorem Change.focused_of_outputs {op : Op} (hf : s.Focused) (h : Change s op s')
    (hop : op.OfOutputs) : s'.Focused := by
  cases h with
  | @add proxy _ h =>
    have hsame := (validFocus_spec (s.withNewOutput proxy) (by simp [← List.length_pos_iff])).1
    refine h.focused ?_
    rw [hsame.length, length_outputs_withNewOutput]
  | removeNone _ => exact hf
  | @removeLast i hlen hi =>
    intro j out f hout _
    have hlt := (List.getElem?_eq_some_iff.mp hout).1
    change j < (s.dropOutput i).outputs.length at hlt
    rw [length_outputs_dropOutput hi] at hlt
    omega
  | remove _ _ h => exact (quiet_clampFloatingWindows _).focused (h.focused (le_refl _))
  | geometryNone _ h _ _ => exact h.focused hf
  | @geometry i g r _ h =>
    refine (quiet_clampFloatingWindows _).focused (h.focused ?_)
    rw [(quiet_setGeometry s i g).still.length]
  | same hfocus _ | shows hfocus _ =>
    cases op <;> first | exact hop.elim | exact hfocus.elim
  | sendNone _ | send _ | create _ | close _ | fullscreen _ | applyFullscreen _ | quiet _ _ =>
    exact hop.elim

/-- Local operations keep every focus. -/
theorem LocalStep.focused {op : Op} (hs : s.WellFormed) (hids : s.FreshIds) (hf : s.Focused)
    (h : LocalStep s op s') : s'.Focused := by
  obtain ⟨hlocal, hstep⟩ := h
  cases op with
  | addOutput _ | removeOutput _ | createWindow _ | closeWindow _ | applyFullscreen =>
    exact hlocal.elim
  | outputGeometry i g =>
    exact (change_of_step hs hstep).focused_of_outputs hf trivial
  | focusTag o t => exact (refocuses_focusTag hstep).focused hf
  | sendFocusedToTag o t => exact (refocuses_sendFocusedToTag hf hids hstep).focused hf
  | focusOutput i =>
    obtain ⟨-, rfl⟩ := hstep
    exact fun j => (leaves_setFocusedOutput i s j).focusedOn (hf j)
  | focusWindow wid =>
    obtain ⟨changed, hstep⟩ := hstep
    exact (refocuses_focusWindowOnOutput hstep).focused hf
  | commandFocusWindow wid t =>
    obtain ⟨w, hw, rfl, rfl⟩ := hlocal
    exact (refocuses_commandFocusWindow hw hstep).focused hf
  | cycleFocus next =>
    obtain ⟨changed, hstep⟩ := hstep
    exact (refocuses_cycleFocus hstep).focused hf
  | refocus i => exact (refocuses_refocusOutput (fun j _ => leaves_refl s j) hstep).focused hf
  | fullscreen wid =>
    obtain rfl := hstep
    exact fun j => (leaves_fullscreen wid s j).focusedOn (hf j)
  | quiet => exact hstep.1.focused hf

/-- What local operations keep, and what they need for it. -/
structure FocusSound (s : State) : Prop where
  wellFormed : s.WellFormed
  freshIds : s.FreshIds
  focused : s.Focused

theorem FocusSound.of_quiet (hs : s.FocusSound) (h : Quiet s s') : s'.FocusSound :=
  have hc := Change.applyFullscreen h
  ⟨hc.wellFormed hs.wellFormed, hc.freshIds hs.freshIds, h.focused hs.focused⟩

theorem FocusSound.of_reachable (hs : s.FocusSound) (h : Reachable LocalStep s s') :
    s'.FocusSound :=
  h.invariant (fun _ _ _ hs hstep =>
    have hc := change_of_step hs.wellFormed hstep.2
    ⟨hc.wellFormed hs.wellFormed, hc.freshIds hs.freshIds,
      hstep.focused hs.wellFormed hs.freshIds hs.focused⟩) hs

end State

/-! ## Snapshots -/

/-- The focused window of an output, if there is one, is listed there and is on the active
tag. -/
def OutputSnap.FocusReal (o : OutputSnap) : Prop :=
  ∀ f, o.focusedWindow = some f → ∃ w ∈ o.windows, w.id = f ∧ o.activeMask = 1 <<< w.tag

namespace State

variable {s s' : State} {i : ℕ} {o : OutputSnap}

theorem Snaps.activeMask_eq_iff (h : s.Snaps i o) {t : ℕ} :
    o.activeMask = 1 <<< t ↔ s.shown i = some t := by
  rw [← h.active]
  refine ⟨fun heq => heq ▸ testBit_one_shiftLeft.mpr rfl, fun ht => Nat.eq_of_testBit_eq fun u => ?_⟩
  rw [Bool.eq_iff_iff, testBit_one_shiftLeft, h.active, (h.active t).mp ht, Option.some.injEq]
  exact eq_comm

theorem Snaps.focusReal_iff (h : s.Snaps i o) : o.FocusReal ↔ s.FocusedOn i := by
  obtain ⟨out, hout, hfocus⟩ := Option.map_eq_some_iff.mp h.focusedWindow
  have hshown := Normalizing.shown_eq hout
  constructor
  · intro hreal out' f hout' hf
    obtain rfl := Option.some.inj (hout.symm.trans hout')
    obtain ⟨v, hv, hid, hmask⟩ := hreal f (hfocus.symm.trans hf)
    rw [h.windows] at hv
    obtain ⟨w, hw, rfl⟩ := List.mem_map.mp hv
    obtain ⟨hmem, hown⟩ := List.mem_filter.mp hw
    rw [h.activeMask_eq_iff, hshown] at hmask
    exact ⟨w, hmem, hid, beq_iff_eq.mp hown, (Option.some.inj hmask).symm⟩
  · intro hfocused f hf
    obtain ⟨w, hw, hid, hown, htag⟩ := hfocused out f hout (hfocus.trans hf)
    refine ⟨snapOf w, ?_, hid, ?_⟩
    · rw [h.windows]
      exact List.mem_map_of_mem (List.mem_filter.mpr ⟨hw, beq_iff_eq.mpr hown⟩)
    · rw [h.activeMask_eq_iff, hshown, ← htag]
      rfl

end State

namespace AppData

open State

variable {d d' : AppData} {event : Event}

/-- A status request served now reports focused windows that are there. -/
def ReportsFocus (d : AppData) : Prop :=
  ∀ snap, d.state.buildSnapshot = some snap → ∀ o ∈ snap.outputs, o.FocusReal

/-- No focused window is closed, and no window is opened on a tag that the active output
shows without owning it. -/
def SparesFocus (d : AppData) : Event → Prop
  | .window window .closed => ∀ w ∈ d.state.windows, w.proxy = window →
    ∀ out ∈ d.state.outputs, out.focusedWindow ≠ some w.id
  | .newWindow _ => ∀ i t, d.state.activeOutput = some i → d.state.shown i = some t →
    d.state.tagOwner t = some i
  | _ => True

theorem reportsFocus_iff (hs : d.state.WellFormed) : d.ReportsFocus ↔ d.state.Focused := by
  obtain ⟨snap, hsnap, hlen, hsnaps⟩ := buildSnapshot_spec hs.inRange
  constructor
  · intro h i out f hout
    have hlt := (List.getElem?_eq_some_iff.mp hout).1
    obtain ⟨o, ho, hi⟩ := hsnaps i hlt
    exact hi.focusReal_iff.mp (h snap hsnap o (List.mem_of_getElem? ho)) out f hout
  · intro h snap' hsnap' o ho
    obtain rfl := Option.some.inj (hsnap.symm.trans hsnap')
    obtain ⟨i, hi⟩ := List.getElem?_of_mem ho
    have hlt := (List.getElem?_eq_some_iff.mp hi).1
    obtain ⟨o', ho', hi'⟩ := hsnaps i (hlen ▸ hlt)
    obtain rfl := Option.some.inj (ho'.symm.trans hi)
    exact hi'.focusReal_iff.mpr (h i)

/-- A window that closes is forgotten, whether it is known or not. -/
theorem state_windowEvent_closed (window : ObjectId) (h : d.windowEvent window .closed = some d') :
    d'.state = d.state.closeWindow window := by
  cases hid : d.state.findWindowByProxy window with
  | none =>
    have hsame : d.windowEvent window .closed = some d := by simp [windowEvent, hid]
    obtain rfl := Option.some.inj (hsame.symm.trans h)
    have hall : d.state.windows.filter (fun w => w.proxy ≠ window) = d.state.windows := by
      refine List.filter_eq_self.mpr fun w hw => decide_eq_true fun hproxy => ?_
      have hnone := List.find?_eq_none.mp (Option.map_eq_none_iff.mp hid) w hw
      exact hnone (beq_iff_eq.mpr hproxy)
    rw [closeWindow, hall]
  | some id =>
    simp only [windowEvent, hid] at h
    split at h <;>
    · obtain rfl := Option.some.inj h
      rfl

/-- The focus stays real exactly if the event spares it. -/
theorem Step.focused_iff (hs : d.state.FocusSound) (h : Step d event d') :
    d'.state.Focused ↔ d.SparesFocus event := by
  have local_iff : ∀ {d₁ : AppData}, d.handle event = some d₁ →
      (d₁.state.Focused ∧ d.SparesFocus event) → (d'.state.Focused ↔ d.SparesFocus event) := by
    rintro d₁ hd₁ ⟨hfocused, hspares⟩
    obtain rfl := Option.some.inj (hd₁.symm.trans h)
    exact iff_of_true hfocused hspares
  cases hevent : event.OfObjects with
  | false =>
    obtain ⟨d₁, hd₁, hd⟩ := handled_handle hs.wellFormed hevent
    refine local_iff hd₁ ⟨(hs.of_reachable hd.steps).focused, ?_⟩
    unfold SparesFocus
    split <;> trivial
  | true =>
    unfold Event.OfObjects at hevent
    split at hevent
    · next window =>
      obtain rfl := Option.some.inj h
      exact focused_createWindow_iff hs.wellFormed hs.focused window
    · next output =>
      obtain ⟨d₁, s, hd₁, hadd, -, hlayer, -⟩ := apart_newOutput hs.wellFormed output
      have hstep : Op.Step d.state (.addOutput output) s := hadd
      have hc := change_of_step hs.wellFormed hstep
      have hsound : s.FocusSound := ⟨hc.wellFormed hs.wellFormed, hc.freshIds hs.freshIds,
        hc.focused_of_outputs hs.focused trivial⟩
      exact local_iff hd₁ ⟨(hsound.of_reachable hlayer).focused, trivial⟩
    · obtain ⟨d₁, d₂, hd₂, -, hinert, hinert', -⟩ := onManageStart_spec hs.wellFormed
      have hbegin := hinert.steps
      rw [(pointerPass d).state] at hbegin
      have hsound := (hs.of_reachable hbegin).of_quiet quiet_applyFullscreen
      exact local_iff hd₂ ⟨(hsound.of_reachable hinert'.steps).focused, trivial⟩
    · next window =>
      rw [state_windowEvent_closed window h]
      exact focused_closeWindow_iff hs.freshIds hs.focused window
    · next output =>
      obtain ⟨d₁, hd₁, -, hidle | ⟨-, -, idx, -, hremove⟩⟩ :=
        outputEvent_spec hs.wellFormed output .removed
      · exact local_iff hd₁ ⟨(hs.of_reachable hidle.steps).focused, trivial⟩
      · have hstep : Op.Step d.state (.removeOutput idx) d₁.state := hremove
        have hc := change_of_step hs.wellFormed hstep
        exact local_iff hd₁ ⟨hc.focused_of_outputs hs.focused trivial, trivial⟩
    · simp at hevent

/-- In every run the focused windows reported after each event are there iff no focused window
is closed and no window is opened on a tag its output shows without owning it. -/
theorem focus_reported_iff {config : Config} {xkb layerShell cursorShapeManager : Bool}
    {τs : List (Transition.Step AppData Event)}
    (h : IsRun Step (AppData.new config xkb layerShell cursorShapeManager) τs) :
    (∀ τ ∈ τs, τ.post.ReportsFocus) ↔ ∀ τ ∈ τs, τ.pre.SparesFocus τ.event := by
  refine h.forall_post_iff (J := fun d => d.state.WellFormed ∧ d.state.FreshIds)
    (P := ReportsFocus) (C := SparesFocus) (fun d event d' hd hst => ?_)
    (fun d event d' hd hreports hst => ?_) ⟨wellFormed_new _, freshIds_new _⟩ ?_
  · obtain ⟨hwf, hreach⟩ := Step.wellFormed hd.1 hst
    exact ⟨hwf, hd.2.of_reachable hd.1 hreach⟩
  · rw [reportsFocus_iff (Step.wellFormed hd.1 hst).1]
    exact Step.focused_iff ⟨hd.1, hd.2, (reportsFocus_iff hd.1).mp hreports⟩ hst
  · rw [reportsFocus_iff (wellFormed_new _)]
    intro i out f hout
    cases hout

/-- Two windows; the one without focus is closed. -/
theorem focus_reported_iff_unfocused :
    ∃ τs, IsRun Step (AppData.new .default false false false) τs ∧
      τs.map (·.post.state.windows.length) = [0, 1, 2, 1] ∧ ∀ τ ∈ τs, τ.post.ReportsFocus := by
  have hrun := isRun_trace handle [.newOutput 1, .newWindow 2, .newWindow 3, .window 2 .closed]
    (AppData.new .default false false false)
  refine ⟨_, hrun, rfl, (focus_reported_iff hrun).mpr ?_⟩
  have hopen : ∀ (d : AppData) (window : ObjectId), d.state.activeOutput = some 0 →
      d.state.shown 0 = some 0 → d.state.tagOwner 0 = some 0 → d.SparesFocus (.newWindow window) := by
    intro d window hactive hshown hown i t hi ht
    obtain rfl := Option.some.inj (hactive.symm.trans hi)
    obtain rfl := Option.some.inj (hshown.symm.trans ht)
    exact hown
  have hclose : ∃ d, (trace handle (AppData.new .default false false false) [.newOutput 1,
      .newWindow 2, .newWindow 3, .window 2 .closed])[3]?.map (·.pre) = some d ∧
        ∀ w ∈ d.state.windows, w.proxy = 2 → ∀ out ∈ d.state.outputs,
          out.focusedWindow ≠ some w.id := ⟨_, rfl, by decide⟩
  obtain ⟨d, hd, hclose⟩ := hclose
  refine List.forall_mem_cons.mpr ⟨trivial, List.forall_mem_cons.mpr ⟨hopen _ 2 rfl rfl rfl,
    List.forall_mem_cons.mpr ⟨hopen _ 3 rfl rfl rfl, List.forall_mem_singleton.mpr ?_⟩⟩⟩
  obtain rfl := Option.some.inj hd
  exact hclose

/-- The focused window is closed : until the next manage sequence the snapshot names it. -/
theorem exists_focus_gone : ¬∀ (config : Config) (xkb layerShell cursorShapeManager : Bool)
    (τs : List (Transition.Step AppData Event)),
    IsRun Step (AppData.new config xkb layerShell cursorShapeManager) τs →
    ∀ τ ∈ τs, τ.post.ReportsFocus := by
  intro hall
  have hrun := isRun_trace handle [.newOutput 1, .newWindow 2, .window 2 .closed]
    (AppData.new .default false false false)
  obtain ⟨τ, hget, snap, hsnap, o, ho, hwindows, f, hfocus⟩ : ∃ τ : Transition.Step AppData Event,
      (trace handle (AppData.new .default false false false)
        [.newOutput 1, .newWindow 2, .window 2 .closed])[2]? = some τ ∧
      ∃ snap, τ.post.state.buildSnapshot = some snap ∧ ∃ o, snap.outputs[0]? = some o ∧
        o.windows = [] ∧ ∃ f, o.focusedWindow = some f := ⟨_, rfl, _, rfl, _, rfl, rfl, _, rfl⟩
  obtain ⟨w, hw, -⟩ := hall _ _ _ _ _ hrun τ (List.mem_of_getElem? hget) snap hsnap o
    (List.mem_of_getElem? ho) f hfocus
  rw [hwindows] at hw
  cases hw

end AppData

end Streamwm
