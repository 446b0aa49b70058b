import Streamwm.Library.Transition
import Streamwm.Normalize

/-!
# The state machine of tags, outputs and windows

`Op` lists the ways the window manager changes tags, outputs, windows, focus and
fullscreen flags : the methods of `State` with any arguments, and the assignments their
callers make next to them. `Op.Step s op s'` holds when `op` takes `s` to `s'` without a
panic. A `quiet` step stands for the changes of everything else; it may also clear
fullscreen flags. Only the step `applyFullscreen`, the fullscreen block of a manage
sequence, changes which fullscreen states count as applied.

`WellFormed` says that all indices are in range. The outcome lemmas
(`focusTag_cases`, `cycleFocus_cases`, …) say, for a well-formed state, that the
operation does not panic and what it changes, in terms of three shapes : `Grows` (owned
tags keep their owner, outputs stay where they are), `Activation` (one output shows
another tag) and `Same` (only focus moves).
-/

namespace Streamwm

open Partial

/-- A geometry event of an output. -/
inductive GeometryEvent
  | position (x y : ℤ)
  | dimensions (width height : ℤ)
  /-- The area left after panels. -/
  | nonExclusiveArea (x y width height : ℤ)

/-- Store a geometry event. -/
def Output.setGeometry (o : Output) : GeometryEvent → Output
  | .position x y => { o with x, y }
  | .dimensions width height => { o with width := asU32 width, height := asU32 height }
  | .nonExclusiveArea x y width height =>
    { o with usableX := x, usableY := y
             usableWidth := width.toNat, usableHeight := height.toNat }

/-- The fields of an output that the tag logic reads. -/
def Output.sight (o : Output) : ObjectId × ℕ × Option ℕ :=
  (o.proxy, o.activeTag, o.focusedWindow)

namespace State

/-- Store a geometry event of an output. -/
def setGeometry (s : State) (i : ℕ) (g : GeometryEvent) : State :=
  { s with outputs := s.outputs.modify i fun o => o.setGeometry g }

/-- What a change of windows, outputs and tags may leave open when it concerns none of
ownership, active tags and focus : fullscreen flags may be cleared, every other field of
a window but its object, id and tag may change. -/
structure Quiet (s s' : State) : Prop where
  tags : s'.tags.map (·.output) = s.tags.map (·.output)
  outputs : s'.outputs.map Output.sight = s.outputs.map Output.sight
  windows : List.Forall₂ (fun w w' : Window => w'.proxy = w.proxy ∧ w'.id = w.id ∧ w'.tag = w.tag ∧
    (w'.fullscreen = true → w.fullscreen = true)) s.windows s'.windows
  focusedOutput : s'.focusedOutput = s.focusedOutput
  nextWindowId : s'.nextWindowId = s.nextWindowId

/-- The applied fullscreen states are the same, window by window. -/
def SameApplied (s s' : State) : Prop :=
  List.Forall₂ (fun w w' : Window => w'.fullscreenApplied = w.fullscreenApplied) s.windows
    s'.windows

end State

/-- A change of the state. -/
inductive Op
  /-- A new output : pushed, given a tag, focused if it is the only one. -/
  | addOutput (proxy : ObjectId)
  | removeOutput (idx : ℕ)
  /-- A geometry event of an output, then `repair_outputs`. -/
  | outputGeometry (idx : ℕ) (g : GeometryEvent)
  | createWindow (proxy : ObjectId)
  | closeWindow (proxy : ObjectId)
  | focusTag (outputIdx tag : ℕ)
  | sendFocusedToTag (outputIdx tag : ℕ)
  /-- `focused_output = Some(idx)`, by a focus command or by the pointer position. -/
  | focusOutput (idx : ℕ)
  /-- Focus a window under the pointer. -/
  | focusWindow (wid : ℕ)
  /-- Focus a window from the socket. -/
  | commandFocusWindow (wid tag : ℕ)
  | cycleFocus (next : Bool)
  | refocus (idx : ℕ)
  /-- Set a window's fullscreen flag. -/
  | fullscreen (wid : ℕ)
  | applyFullscreen
  | quiet

/-- `op` takes `s` to `s'`. -/
def Op.Step (s : State) (op : Op) (s' : State) : Prop :=
  match op with
  | .addOutput proxy => s.addOutput proxy = some s'
  | .removeOutput idx => s.removeOutput idx = some s'
  | .outputGeometry idx g => (s.setGeometry idx g).repairOutputs = some s'
  | .createWindow proxy => s.createWindow proxy = s'
  | .closeWindow proxy => s.closeWindow proxy = s'
  | .focusTag outputIdx tag => s.focusTag outputIdx tag = some s'
  | .sendFocusedToTag outputIdx tag => s.sendFocusedToTag outputIdx tag = some s'
  | .focusOutput idx => idx < s.outputs.length ∧ s.setFocusedOutput idx = s'
  | .focusWindow wid => ∃ changed, s.focusWindowOnOutput wid = some (s', changed)
  | .commandFocusWindow wid tag => s.commandFocusWindow wid tag = some s'
  | .cycleFocus next => ∃ changed, s.cycleFocus next = some (s', changed)
  | .refocus idx => s.refocusOutput idx = some s'
  | .fullscreen wid => s.modifyWindow wid (fun w => { w with fullscreen := true }) = s'
  | .applyFullscreen => s.Quiet s'
  | .quiet => s.Quiet s' ∧ s.SameApplied s'

/-- The state `op` leads to; the last two kinds of step change nothing here. -/
def State.next (s : State) : Op → Option State
  | .addOutput proxy => s.addOutput proxy
  | .removeOutput idx => s.removeOutput idx
  | .outputGeometry idx g => (s.setGeometry idx g).repairOutputs
  | .createWindow proxy => some (s.createWindow proxy)
  | .closeWindow proxy => some (s.closeWindow proxy)
  | .focusTag outputIdx tag => s.focusTag outputIdx tag
  | .sendFocusedToTag outputIdx tag => s.sendFocusedToTag outputIdx tag
  | .focusOutput idx => if idx < s.outputs.length then some (s.setFocusedOutput idx) else none
  | .focusWindow wid => (s.focusWindowOnOutput wid).map (·.1)
  | .commandFocusWindow wid tag => s.commandFocusWindow wid tag
  | .cycleFocus next => (s.cycleFocus next).map (·.1)
  | .refocus idx => s.refocusOutput idx
  | .fullscreen wid => some (s.modifyWindow wid fun w => { w with fullscreen := true })
  | .applyFullscreen => some s
  | .quiet => some s

namespace State

variable {s s' r : State} {i j o t u : ℕ} {w : Window}

theorem Quiet.refl (s : State) : Quiet s s :=
  ⟨rfl, rfl, List.forall₂_same.mpr fun _ _ => ⟨rfl, rfl, rfl, id⟩, rfl, rfl⟩

theorem SameApplied.refl (s : State) : SameApplied s s :=
  List.forall₂_same.mpr fun _ _ => rfl

/-- Every index is in range. -/
structure WellFormed (s : State) : Prop where
  tags : s.tags.length = numTags
  owner : ∀ t i, s.tagOwner t = some i → i < s.outputs.length
  window : ∀ w ∈ s.windows, w.tag < numTags
  active : ∀ i t, s.shown i = some t → t < numTags
  focus : s.focusedOutput = none ↔ s.outputs = []
  focused : ∀ i, s.focusedOutput = some i → i < s.outputs.length

/-- At the start there is nothing out of range. -/
theorem wellFormed_new (f : ℚ) : (State.new f).WellFormed where
  tags := by simp [State.new]
  owner t i h := by
    by_cases ht : t < numTags <;> simp [tagOwner, State.new, Tag.unassigned, ht] at h
  window := by simp [State.new]
  active i t h := by simp [shown, State.new] at h
  focus := by simp [State.new]
  focused i h := by simp [State.new] at h

/-! ## Shapes of changes -/

/-- Owned tags keep their owner and outputs their place. -/
structure Grows (s s' : State) : Prop where
  tags : s'.tags.length = s.tags.length
  owner : ∀ t i, s.tagOwner t = some i → s'.tagOwner t = some i
  proxy : ∀ i p, s.outputProxy i = some p → s'.outputProxy i = some p

theorem Grows.refl (s : State) : Grows s s where
  tags := rfl
  owner _ _ h := h
  proxy _ _ h := h

theorem Grows.trans (h : Grows s r) (h' : Grows r s') : Grows s s' where
  tags := h'.tags.trans h.tags
  owner t i hi := h'.owner t i (h.owner t i hi)
  proxy i p hp := h'.proxy i p (h.proxy i p hp)

/-- Tag ownership and what the outputs show are the same. -/
structure Still (s s' : State) : Prop where
  tags : s'.tags.length = s.tags.length
  owner : ∀ t, s'.tagOwner t = s.tagOwner t
  length : s'.outputs.length = s.outputs.length
  shown : ∀ i, s'.shown i = s.shown i
  proxy : ∀ i, s'.outputProxy i = s.outputProxy i

/-- Only focus may differ. -/
structure Same (s s' : State) : Prop extends Still s s' where
  windows : s'.windows = s.windows
  seats : s'.seats = s.seats
  nextWindowId : s'.nextWindowId = s.nextWindowId
  focused : s'.focusedOutput = s.focusedOutput ∨
    ∃ i, i < s.outputs.length ∧ s'.focusedOutput = some i

theorem Still.refl (s : State) : Still s s :=
  ⟨rfl, fun _ => rfl, rfl, fun _ => rfl, fun _ => rfl⟩

theorem Same.refl (s : State) : Same s s where
  toStill := Still.refl s
  windows := rfl
  seats := rfl
  nextWindowId := rfl
  focused := Or.inl rfl

theorem still_setFocusedWindow {x : Option ℕ} : Still s (s.setFocusedWindow i x) :=
  ⟨rfl, fun _ => rfl, by simp, fun _ => by simp, fun _ => by simp⟩

theorem same_setFocusedWindow {x : Option ℕ} : Same s (s.setFocusedWindow i x) where
  toStill := still_setFocusedWindow
  windows := rfl
  seats := rfl
  nextWindowId := rfl
  focused := Or.inl rfl

theorem same_setFocusedOutput (h : i < s.outputs.length) : Same s (s.setFocusedOutput i) where
  toStill := ⟨rfl, fun _ => rfl, rfl, fun _ => rfl, fun _ => rfl⟩
  windows := rfl
  seats := rfl
  nextWindowId := rfl
  focused := Or.inr ⟨i, h, rfl⟩

theorem Quiet.still (h : Quiet s s') : Still s s' := by
  have hlen := congrArg List.length h.outputs
  have hproj : ∀ {β : Type} (g : ObjectId × ℕ × Option ℕ → β) (i : ℕ),
      s'.outputs[i]?.map (g ∘ Output.sight) = s.outputs[i]?.map (g ∘ Output.sight) := by
    intro β g i
    rw [← Option.map_map, ← List.getElem?_map, h.outputs, List.getElem?_map, Option.map_map]
  refine ⟨by simpa using congrArg List.length h.tags, fun t => ?_, by simpa using hlen,
    fun i => hproj (fun p => p.2.1) i, fun i => hproj (fun p => p.1) i⟩
  have ht : (s'.tags.map (·.output))[t]? = (s.tags.map (·.output))[t]? := by rw [h.tags]
  simp only [List.getElem?_map] at ht
  have hbind := congrArg (fun x => Option.bind x id) ht
  simpa [tagOwner, Option.bind_map] using hbind

/-- The output `i` shows `t`, which it owns, instead of `old`, whose windows lose
fullscreen. -/
structure Activation (i t old : ℕ) (s s' : State) : Prop where
  owned : s.tagOwner t = some i
  was : s.shown i = some old
  tags : s'.tags.length = s.tags.length
  owner : ∀ t, s'.tagOwner t = s.tagOwner t
  length : s'.outputs.length = s.outputs.length
  shown : ∀ j, s'.shown j = (s.shown j).map fun a => if i = j then t else a
  proxy : ∀ i, s'.outputProxy i = s.outputProxy i
  windows : s'.windows = (s.clearFullscreenOnTag old).windows ∨ t = old ∧ s'.windows = s.windows
  seats : s'.seats = s.seats
  nextWindowId : s'.nextWindowId = s.nextWindowId
  focused : s'.focusedOutput = s.focusedOutput

theorem Activation.setFocusedWindow {old : ℕ} {x : Option ℕ} (h : Activation i t old s s') :
    Activation i t old s (s'.setFocusedWindow j x) where
  owned := h.owned
  was := h.was
  tags := h.tags
  owner := h.owner
  length := by simpa using h.length
  shown _ := by simpa using h.shown _
  proxy _ := by simpa using h.proxy _
  windows := h.windows
  seats := h.seats
  nextWindowId := h.nextWindowId
  focused := h.focused

theorem Activation.markDirty {old : ℕ} (h : Activation i t old s s') :
    Activation i t old s s'.markDirty where
  owned := h.owned
  was := h.was
  tags := h.tags
  owner := h.owner
  length := h.length
  shown := h.shown
  proxy := h.proxy
  windows := h.windows
  seats := h.seats
  nextWindowId := h.nextWindowId
  focused := h.focused

/-- Setting the active tag, with or without clearing the tag left. -/
theorem activation_setActiveTag {out : Output} (ho : s.outputs[i]? = some out)
    (ht : s.tagOwner t = some i) :
    Activation i t out.activeTag s ((s.setActiveTag i t).clearFullscreenOnTag out.activeTag) ∧
      (t = out.activeTag → Activation i t out.activeTag s (s.setActiveTag i t)) := by
  have hshown :
      ∀ j, (s.setActiveTag i t).shown j = (s.shown j).map fun a => if i = j then t else a :=
    fun j => shown_setActiveTag
  exact ⟨⟨ht, Normalizing.shown_eq ho, rfl, fun _ => rfl, by simp, fun j => by simpa using hshown j,
      fun j => by simp, Or.inl rfl, rfl, rfl, rfl⟩,
    fun h => ⟨ht, Normalizing.shown_eq ho, rfl, fun _ => rfl, by simp, hshown,
      fun j => by simp, Or.inr ⟨h, rfl⟩, rfl, rfl, rfl⟩⟩

/-- An output shows a tag it owns. -/
theorem activateTag_spec {out : Output} (ho : s.outputs[i]? = some out)
    (ht : s.tagOwner t = some i) :
    ∃ s', s.activateTag i t = some s' ∧ Activation i t out.activeTag s s' := by
  obtain ⟨x, hx⟩ := activateTag_eq (t := t) ho
  exact ⟨_, hx, (activation_setActiveTag ho ht).1.setFocusedWindow⟩

/-- An output switches to a tag it owns. -/
theorem switchActiveTag_spec {out : Output} (ho : s.outputs[i]? = some out)
    (ht : s.tagOwner t = some i) :
    ∃ s', s.switchActiveTag i t = some s' ∧ Activation i t out.activeTag s s' := by
  refine ⟨_, switchActiveTag_eq ho, Activation.setFocusedWindow ?_⟩
  obtain ⟨h1, h2⟩ := activation_setActiveTag ho ht
  split_ifs with hne
  · exact h1
  · exact h2 (not_not.mp hne).symm

theorem Still.grows (h : Still s s') : Grows s s' where
  tags := h.tags
  owner t i hi := by rw [h.owner, hi]
  proxy i p hp := by rw [h.proxy, hp]

theorem Normalizing.grows {k : ℕ} (h : Normalizing k s s') : Grows s s' where
  tags := h.tags
  owner := h.owner
  proxy i p hp := by
    obtain ⟨out, ho, rfl⟩ := Option.map_eq_some_iff.mp hp
    obtain ⟨a, x, hx⟩ := h.output i out ho
    simp [outputProxy, hx]

/-! ## Outcomes -/

namespace WellFormed

theorem window_lt (hs : s.WellFormed) : ∀ w ∈ s.windows, w.tag < 32 := by
  intro w hw
  have := hs.window w hw
  unfold numTags at this
  omega

theorem tags_le (hs : s.WellFormed) : s.tags.length ≤ 32 := by
  rw [hs.tags]
  decide

theorem exists_output (hs : s.WellFormed) (h : s.tagOwner t = some i) :
    ∃ out, s.outputs[i]? = some out :=
  ⟨_, List.getElem?_eq_getElem (hs.owner t i h)⟩

/-- The active output exists. -/
theorem activeOutput_lt (hs : s.WellFormed) (h : s.activeOutput = some i) :
    i < s.outputs.length := by
  unfold activeOutput at h
  cases hf : s.focusedOutput with
  | none =>
    have hnil := hs.focus.mp hf
    simp [hf, hnil] at h
  | some f =>
    have hfi : f = i := by simpa [hf] using h
    exact hfi ▸ hs.focused f hf

theorem activeOutput_eq_none (hs : s.WellFormed) : s.activeOutput = none ↔ s.outputs = [] := by
  rw [← hs.focus]
  unfold activeOutput
  cases hf : s.focusedOutput with
  | none => simp [hs.focus.mp hf]
  | some f => simp

end WellFormed

/-- To focus again on an output moves nothing else. -/
theorem refocusOutput_spec (hi : i < s.outputs.length) :
    ∃ s', s.refocusOutput i = some s' ∧ Same s s' :=
  ⟨_, refocusOutput_eq (List.getElem?_eq_getElem hi), same_setFocusedWindow⟩

/-- The tag is out of range, or shown where it is owned, or claimed and shown. -/
theorem focusTag_cases (hs : s.WellFormed) : ∃ s', s.focusTag o t = some s' ∧
    (s' = s ∨ ∃ i old r, Activation i t old r s' ∧
      (Same s r ∨ r = s.setTagOutput t i ∧ t < s.tags.length ∧ s.tagOwner t = none)) := by
  unfold focusTag
  split_ifs with hrange
  · exact ⟨s, rfl, Or.inl rfl⟩
  simp only [not_or, not_le] at hrange
  split
  · next hnone =>
    have hown : (s.setTagOutput t o).tagOwner t = some o := by
      rw [tagOwner_setTagOutput hrange.1, if_pos rfl]
    obtain ⟨s', hs', ha⟩ := activateTag_spec (s := s.setTagOutput t o)
      (List.getElem?_eq_getElem hrange.2) hown
    exact ⟨s'.markDirty, by simp [hs'],
      Or.inr ⟨o, _, _, ha.markDirty, Or.inr ⟨rfl, hrange.1, hnone⟩⟩⟩
  · next i hi =>
    obtain ⟨out, ho⟩ := hs.exists_output hi
    split_ifs with hio
    · subst hio
      obtain ⟨s', hs', ha⟩ := activateTag_spec ho hi
      exact ⟨s'.markDirty, by simp [hs'], Or.inr ⟨i, _, _, ha.markDirty, Or.inl (Same.refl s)⟩⟩
    · obtain ⟨s', hs', ha⟩ := activateTag_spec (s := s.setFocusedOutput i) ho hi
      exact ⟨s'.markDirty, by simp [hs'], Or.inr ⟨i, _, _, ha.markDirty,
        Or.inl (same_setFocusedOutput (hs.owner t i hi))⟩⟩

/-- Nothing happens, or the tag of the window is shown where it is owned. -/
theorem focusWindowOnOutput_cases : ∃ s' changed,
    s.focusWindowOnOutput i = some (s', changed) ∧
      (s' = s ∨ ∃ o t old r, Activation o t old r s' ∧ Same s r) := by
  unfold focusWindowOnOutput
  split
  · exact ⟨s, false, rfl, Or.inl rfl⟩
  next w hw =>
  split
  · exact ⟨s, false, rfl, Or.inl rfl⟩
  next o ho =>
  obtain ⟨hown, hlt⟩ := Option.filter_eq_some_iff.mp ho
  have hlt : o < s.outputs.length := by simpa using hlt
  have hout := List.getElem?_eq_getElem hlt
  simp only [hout, Option.bind_eq_bind, Option.bind_some]
  split_ifs
  · exact ⟨s, false, rfl, Or.inl rfl⟩
  have hsame : Same s ((s.setFocusedOutput o).setFocusedWindow o (some i)) :=
    { toStill := ⟨rfl, fun _ => rfl, by simp, fun _ => by simp, fun _ => by simp⟩
      windows := rfl
      seats := rfl
      nextWindowId := rfl
      focused := Or.inr ⟨o, hlt, rfl⟩ }
  obtain ⟨s', hs', ha⟩ := switchActiveTag_spec (i := o) (t := w.tag)
    (s := (s.setFocusedOutput o).setFocusedWindow o (some i))
    (List.getElem?_eq_getElem (by simpa using hlt)) hown
  exact ⟨s', true, by simp [hs'], Or.inr ⟨o, _, _, _, ha, hsame⟩⟩

theorem commandFocusWindow_cases : ∃ s', s.commandFocusWindow i t = some s' ∧
    (s' = s ∨ ∃ o old r, Activation o t old r s' ∧ Same s r) := by
  unfold commandFocusWindow
  split
  · exact ⟨s, rfl, Or.inl rfl⟩
  next o ho =>
  obtain ⟨hown, hlt⟩ := Option.filter_eq_some_iff.mp ho
  have hlt : o < s.outputs.length := by simpa using hlt
  obtain ⟨s', hs', ha⟩ := switchActiveTag_spec (s := s.setFocusedOutput o)
    (List.getElem?_eq_getElem hlt) hown
  have hlen : o < s'.outputs.length := by rw [ha.length]; exact hlt
  exact ⟨s'.setFocusedWindow o (some i), by simp [hs', hlen],
    Or.inr ⟨o, _, _, ha.setFocusedWindow, same_setFocusedOutput hlt⟩⟩

theorem cycleFocus_cases (hs : s.WellFormed) (next : Bool) : ∃ s' changed,
    s.cycleFocus next = some (s', changed) ∧ Same s s' := by
  unfold cycleFocus
  split
  · exact ⟨s, false, rfl, Same.refl s⟩
  next o ho =>
  have hlt := hs.activeOutput_lt ho
  simp only [List.getElem?_eq_getElem hlt, Option.bind_eq_bind, Option.bind_some]
  generalize (s.windows.filter _).map (·.id) = ids
  by_cases hempty : ids.isEmpty = true
  · exact ⟨s, false, by simp [hempty], Same.refl s⟩
  have hpos : 0 < ids.length := by
    cases ids with
    | nil => simp at hempty
    | cons _ _ => simp
  have hmod : ∀ n, ∃ x, ids[n % ids.length]? = some x := fun n =>
    ⟨_, List.getElem?_eq_getElem (Nat.mod_lt n hpos)⟩
  simp only [hempty, Bool.false_eq_true, if_false]
  generalize ((s.outputs[o]).focusedWindow.bind fun f => ids.findIdx? (· == f)).getD 0 = idx
  cases next with
  | true =>
    obtain ⟨x, hx⟩ := hmod (idx + 1)
    exact ⟨s.setFocusedWindow o (some x), true, by simp [hx], same_setFocusedWindow⟩
  | false =>
    obtain ⟨x, hx⟩ := hmod (idx + ids.length - 1)
    exact ⟨s.setFocusedWindow o (some x), true, by simp [hx], same_setFocusedWindow⟩

/-! ## Sending a window to a tag -/

/-- The window `sendFocusedToTag` moves. -/
def sentWindow (s : State) (outputIdx tag : ℕ) : Option Window :=
  if s.tags.length ≤ tag then none
  else ((s.outputs[outputIdx]?.bind (·.focusedWindow)).bind s.findWindow).filter fun w =>
    w.tag ≠ tag

theorem sentWindow_spec (h : s.sentWindow o t = some w) : t < s.tags.length ∧
    (∃ out, s.outputs[o]? = some out ∧ out.focusedWindow = some w.id) ∧ w ∈ s.windows ∧
      s.findWindow w.id = some w ∧ w.tag ≠ t := by
  unfold sentWindow at h
  split_ifs at h with ht
  obtain ⟨hw, hne⟩ := Option.filter_eq_some_iff.mp h
  obtain ⟨fid, hfid, hfind⟩ := Option.bind_eq_some_iff.mp hw
  obtain ⟨out, ho, hf⟩ := Option.bind_eq_some_iff.mp hfid
  obtain ⟨hmem, rfl⟩ := mem_of_findWindow hfind
  exact ⟨not_le.mp ht, ⟨out, ho, hf⟩, hmem, hfind, by simpa using hne⟩

/-- Without a window to send nothing happens. -/
theorem sendFocusedToTag_of_none (h : s.sentWindow o t = none) :
    s.sendFocusedToTag o t = some s := by
  unfold sendFocusedToTag
  by_cases ht : s.tags.length ≤ t
  · rw [if_pos ht]
  rw [if_neg ht]
  cases ho : s.outputs[o]? with
  | none => rfl
  | some out =>
    have hnone : (out.focusedWindow.filter fun fid =>
        (s.findWindow fid).any fun w => w.tag ≠ t) = none := by
      cases hf : out.focusedWindow with
      | none => rfl
      | some fid =>
        cases hw : s.findWindow fid <;> simp_all [sentWindow]
    simp only [hnone]

theorem sendFocusedToTag_of_some (h : s.sentWindow o t = some w) : ∃ x, s.sendFocusedToTag o t =
    some (((((if (s.tagOwner t).isNone then s.setTagOutput t o else s).modifyWindow w.id
      fun w => { w with tag := t }).setFocusedWindow o x)).markDirty) := by
  obtain ⟨ht, ⟨out, ho, hf⟩, -, hfind, hne⟩ := sentWindow_spec h
  have hsome : (out.focusedWindow.filter fun fid =>
      (s.findWindow fid).any fun w => w.tag ≠ t) = some w.id := by
    simp [hf, hfind, hne]
  generalize hr : (if (s.tagOwner t).isNone then s.setTagOutput t o else s) = r
  have hout : r.outputs[o]? = some out := by
    rw [← hr]
    split_ifs <;> exact ho
  refine ⟨(r.modifyWindow w.id fun w => { w with tag := t }).refocusTarget o out, ?_⟩
  simp only [sendFocusedToTag, not_le.mpr ht, if_false, ho, hsome, hr]
  rw [refocusOutput_eq (s := r.modifyWindow w.id fun w => { w with tag := t }) hout]
  rfl

end State

theorem Op.step_of_next {s s' : State} {op : Op} (h : s.next op = some s') : Op.Step s op s' := by
  cases op with
  | createWindow _ => exact Option.some.inj h
  | closeWindow _ => exact Option.some.inj h
  | fullscreen _ => exact Option.some.inj h
  | focusOutput i =>
    simp only [State.next] at h
    split_ifs at h with hi
    exact ⟨hi, Option.some.inj h⟩
  | focusWindow wid =>
    obtain ⟨⟨r, changed⟩, hr, rfl⟩ := Option.map_eq_some_iff.mp h
    exact ⟨changed, hr⟩
  | cycleFocus next =>
    obtain ⟨⟨r, changed⟩, hr, rfl⟩ := Option.map_eq_some_iff.mp h
    exact ⟨changed, hr⟩
  | applyFullscreen =>
    obtain rfl := Option.some.inj h
    exact State.Quiet.refl s
  | quiet =>
    obtain rfl := Option.some.inj h
    exact ⟨State.Quiet.refl s, State.SameApplied.refl s⟩
  | _ => exact h

end Streamwm
