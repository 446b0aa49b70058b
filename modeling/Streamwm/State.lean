import Mathlib.Data.Rat.Defs
import Mathlib.Data.List.Basic
import Mathlib.Algebra.Order.Ring.Rat
import Streamwm.Library.Partial

/-!
# The data model

`src/state.rs` : outputs, windows, seats, the global tag table and focus.

Protocol objects are their object ids (`ObjectId`). A window keeps its object and its
streamwm id apart, as the source does, since river's events name the object and everything
else names the id. The process-wide counter `NEXT_WINDOW_ID` is the field `nextWindowId`, unbounded
here.

`i32` values are integers and `u32` values natural numbers, without wrap-around, except
where the source casts a signed value that may be negative (`asU32`). The `f64` master
fractions are rationals.

A field assignment behind a checked or an unchecked index is a total update here
(`setActiveTag`, `setTagOutput`); the functions of `Streamwm.StateOps` guard each
unchecked one with the index that panics.
-/

namespace Streamwm

open Partial

/-- The id of a Wayland object. -/
abbrev ObjectId := ℕ

/-- The fixed number of global tags, shown to users as tags 1 to 9. -/
def numTags : ℕ := 9

/-- The cast `v as u32` of an `i32`. -/
def asU32 (v : ℤ) : ℕ :=
  (v % 4294967296).toNat

/-- A global tag, owned by at most one output. -/
structure Tag where
  /-- The index of the output owning this tag. -/
  output : Option ℕ
  label : Option String
  /-- Master fraction of this tag's layout. -/
  masterFraction : ℚ

/-- A new tag without an owner. -/
def Tag.unassigned (masterFraction : ℚ) : Tag :=
  { output := none, label := none, masterFraction }

/-- A managed client window. -/
structure Window where
  /-- The `river_window_v1` object. -/
  proxy : ObjectId
  /-- The streamwm id of the status socket. -/
  id : ℕ
  /-- The global tag this window is on. -/
  tag : ℕ
  parent : Option ℕ
  appId : Option String
  title : Option String
  floating : Bool
  floatX : ℤ
  floatY : ℤ
  floatW : ℕ
  floatH : ℕ
  width : ℕ
  height : ℕ
  minWidth : ℕ
  minHeight : ℕ
  maxWidth : ℕ
  maxHeight : ℕ
  /-- The desired fullscreen state. -/
  fullscreen : Bool
  /-- The fullscreen request has been sent to river. -/
  fullscreenApplied : Bool
  minimized : Bool
  ssdApplied : Option Bool
  capsSet : Bool
  tiledApplied : Option Bool
  /-- The last border configuration sent : focused, width, red, green, blue. -/
  borderApplied : Option (Bool × ℕ × ℕ × ℕ × ℕ)
  /-- The render node, once created. -/
  node : Option ObjectId

/-- A new window on a tag. -/
def Window.new (id : ℕ) (proxy : ObjectId) (tag : ℕ) : Window :=
  { proxy, id, tag
    parent := none, appId := none, title := none
    floating := false, floatX := 0, floatY := 0, floatW := 400, floatH := 300
    width := 0, height := 0
    minWidth := 0, minHeight := 0, maxWidth := 0, maxHeight := 0
    fullscreen := false, fullscreenApplied := false, minimized := false
    ssdApplied := none, capsSet := false, tiledApplied := none, borderApplied := none
    node := none }

/-- A monitor. -/
structure Output where
  /-- The `river_output_v1` object. -/
  proxy : ObjectId
  name : Option String
  /-- The registry name of its `wl_output`. -/
  wlGlobal : Option ℕ
  /-- The `wl_output` object, once bound. -/
  wlOutput : Option ObjectId
  x : ℤ
  y : ℤ
  width : ℕ
  height : ℕ
  /-- The area left after panels, all zero until river reports one. -/
  usableX : ℤ
  usableY : ℤ
  usableWidth : ℕ
  usableHeight : ℕ
  /-- The global tag shown on this output. -/
  activeTag : ℕ
  /-- The streamwm id of the window focused on this output. -/
  focusedWindow : Option ℕ
  /-- The layer-shell object of this output. -/
  layer : Option ObjectId

/-- A new output, before it gets a tag. -/
def Output.new (proxy : ObjectId) : Output :=
  { proxy, name := none, wlGlobal := none, wlOutput := none
    x := 0, y := 0, width := 0, height := 0
    usableX := 0, usableY := 0, usableWidth := 0, usableHeight := 0
    activeTag := 0, focusedWindow := none, layer := none }

/-- An input seat. -/
structure Seat where
  /-- The `river_seat_v1` object. -/
  proxy : ObjectId
  pointerX : ℤ
  pointerY : ℤ
  /-- The window under the pointer. -/
  pointerWindow : Option ℕ
  /-- The layer-shell object of this seat. -/
  layer : Option ObjectId
  /-- The `wl_pointer` of this seat, once bound. -/
  pointer : Option ObjectId
  /-- The cursor-shape device of that pointer. -/
  cursorShape : Option ObjectId

/-- A new seat. -/
def Seat.new (proxy : ObjectId) : Seat :=
  { proxy, pointerX := 0, pointerY := 0, pointerWindow := none
    layer := none, pointer := none, cursorShape := none }

/-- The state of the window manager. -/
structure State where
  outputs : List Output
  seats : List Seat
  windows : List Window
  /-- The global tags, shared across outputs. -/
  tags : List Tag
  /-- The output with seat focus. -/
  focusedOutput : Option ℕ
  defaultMasterFraction : ℚ
  resizeMode : Bool
  /-- A change the compositor must apply. -/
  pendingApply : Bool
  /-- `NEXT_WINDOW_ID`. -/
  nextWindowId : ℕ

/-- The state at start. -/
def State.new (defaultMasterFraction : ℚ) : State :=
  { outputs := [], seats := [], windows := []
    tags := List.replicate numTags (Tag.unassigned defaultMasterFraction)
    focusedOutput := none, defaultMasterFraction, resizeMode := false, pendingApply := false
    nextWindowId := 1 }

namespace State

variable (s : State)

/-! ## Lookups -/

/-- Mark the state as needing a manage sequence. -/
def markDirty : State :=
  { s with pendingApply := true }

/-- Master fraction of a tag's layout. -/
def masterFraction (tag : ℕ) : ℚ :=
  (s.tags[tag]?.map (·.masterFraction)).getD s.defaultMasterFraction

/-- Set a tag's master fraction, a number, clamped to the legal range. -/
def setMasterFraction (tag : ℕ) (fraction : ℚ) : State :=
  { s with tags := s.tags.modify tag fun t =>
      { t with masterFraction := max (1 / 10) (min fraction (9 / 10)) } }

/-- Master fraction of the active tag of an output. -/
def activeMasterFraction (outputIdx : ℕ) : ℚ :=
  (s.outputs[outputIdx]?.map fun o => s.masterFraction o.activeTag).getD s.defaultMasterFraction

def findWindow (id : ℕ) : Option Window :=
  s.windows.find? fun w => w.id == id

def findWindowByProxy (proxy : ObjectId) : Option ℕ :=
  (s.windows.find? fun w => w.proxy == proxy).map (·.id)

/-- Output index by name. -/
def findOutputByName (name : String) : Option ℕ :=
  s.outputs.findIdx? fun o => o.name == some name

/-- The focused output, or the first as fallback. -/
def activeOutput : Option ℕ :=
  s.focusedOutput.or (if s.outputs.isEmpty then none else some 0)

/-- The output owning a tag. -/
def tagOwner (tag : ℕ) : Option ℕ :=
  s.tags[tag]?.bind (·.output)

/-- The output a window is displayed on. -/
def windowOutput (w : Window) : Option ℕ :=
  (s.tagOwner w.tag).or s.activeOutput

/-- A window is visible if its tag is active on the tag's owner. -/
def windowIsVisible (w : Window) : Bool :=
  (((s.tagOwner w.tag).bind fun o => s.outputs[o]?).map fun o => o.activeTag == w.tag).getD false

/-- The windows on the active tag of an output are those whose tag it owns and shows. -/
def onActiveTag (outputIdx active : ℕ) (w : Window) : Bool :=
  s.tagOwner w.tag == some outputIdx && w.tag == active

/-- The index of the first tag without an owner. -/
def firstFreeTag : Option ℕ :=
  s.tags.findIdx? fun t => t.output.isNone

/-! ## Assignments -/

/-- `self.outputs[i].active_tag = tag`. -/
def setActiveTag (i tag : ℕ) : State :=
  { s with outputs := s.outputs.modify i fun o => { o with activeTag := tag } }

/-- `self.outputs[i].focused_window = wid`. -/
def setFocusedWindow (i : ℕ) (wid : Option ℕ) : State :=
  { s with outputs := s.outputs.modify i fun o => { o with focusedWindow := wid } }

/-- `self.tags[tag].output = Some(i)`. -/
def setTagOutput (tag i : ℕ) : State :=
  { s with tags := s.tags.modify tag fun t => { t with output := some i } }

/-- `self.focused_output = Some(i)`. -/
def setFocusedOutput (i : ℕ) : State :=
  { s with focusedOutput := some i }

/-- An update through `find_window_mut(id)`. -/
def modifyWindow (id : ℕ) (f : Window → Window) : State :=
  { s with windows := modifyFirst (fun w => w.id == id) f s.windows }

/-- Un-fullscreen every window on `tag`. -/
def clearFullscreenOnTag (tag : ℕ) : State :=
  { s with windows := s.windows.map fun w =>
      if w.tag == tag then { w with fullscreen := false } else w }

end State

/-- The area windows are laid out in : the usable area, or the whole output before
river reports one. -/
def outputArea (o : Output) : ℤ × ℤ × ℕ × ℕ :=
  if o.usableWidth > 0 ∨ o.usableHeight > 0 then
    (o.usableX, o.usableY, o.usableWidth, o.usableHeight)
  else (o.x, o.y, o.width, o.height)

/-- `v.clamp(lo, hi)`. -/
def clampInt (v lo hi : ℤ) : ℤ :=
  if v < lo then lo else if hi < v then hi else v

/-- Move a rectangle into an area, per axis; the origin where it does not fit. -/
def clampRectToArea (x y : ℤ) (width height : ℕ) (areaX areaY : ℤ) (areaWidth areaHeight : ℕ) :
    ℤ × ℤ :=
  if areaWidth = 0 ∨ areaHeight = 0 then (areaX, areaY)
  else
    (clampInt x areaX (areaX + (areaWidth - min width areaWidth : ℕ)),
      clampInt y areaY (areaY + (areaHeight - min height areaHeight : ℕ)))

/-- The size of a child window that overlays its parent : at most 3/5 of the parent's,
within the child's hints. -/
def fitBesideParent (parent req : ℕ × ℕ) (hints : ℕ × ℕ × ℕ × ℕ) : ℕ × ℕ :=
  let cap := fun requested area lo hi : ℕ =>
    let maxSide := if area > 0 then area * 3 / 5 else requested
    let out := max (min requested maxSide) lo
    if hi > 0 then min out hi else out
  (cap req.1 parent.1 hints.1 hints.2.2.1, cap req.2 parent.2 hints.2.1 hints.2.2.2)

/-- Centre a child over a rectangle, inside an area. -/
def placeOverParent (childW childH : ℕ) (x y : ℤ) (width height : ℕ) (area : ℤ × ℤ × ℕ × ℕ) :
    ℤ × ℤ :=
  clampRectToArea (x + (width / 2 : ℕ) - (childW / 2 : ℕ)) (y + (height / 2 : ℕ) - (childH / 2 : ℕ))
    childW childH area.1 area.2.1 area.2.2.1 area.2.2.2

namespace State

variable {s : State} {i j t u : ℕ}

/-! ## What the assignments change -/

@[simp] theorem outputs_markDirty : s.markDirty.outputs = s.outputs := rfl
@[simp] theorem windows_markDirty : s.markDirty.windows = s.windows := rfl
@[simp] theorem tagOwner_markDirty : s.markDirty.tagOwner t = s.tagOwner t := rfl
@[simp] theorem tags_markDirty : s.markDirty.tags = s.tags := rfl
@[simp] theorem focusedOutput_markDirty : s.markDirty.focusedOutput = s.focusedOutput := rfl

@[simp] theorem outputs_setTagOutput : (s.setTagOutput t i).outputs = s.outputs := rfl
@[simp] theorem windows_setTagOutput : (s.setTagOutput t i).windows = s.windows := rfl
@[simp] theorem focusedOutput_setTagOutput :
    (s.setTagOutput t i).focusedOutput = s.focusedOutput := rfl

@[simp] theorem length_tags_setTagOutput : (s.setTagOutput t i).tags.length = s.tags.length := by
  simp [setTagOutput]

theorem tagOwner_setTagOutput (ht : t < s.tags.length) :
    (s.setTagOutput t i).tagOwner u = if u = t then some i else s.tagOwner u := by
  unfold tagOwner setTagOutput
  simp only [List.getElem?_modify]
  split_ifs with h1 h2 h2
  · subst h1
    simp [List.getElem?_eq_getElem ht]
  · exact absurd h1.symm h2
  · exact absurd h2.symm h1
  · simp

@[simp] theorem tags_setActiveTag : (s.setActiveTag i t).tags = s.tags := rfl
@[simp] theorem windows_setActiveTag : (s.setActiveTag i t).windows = s.windows := rfl
@[simp] theorem tagOwner_setActiveTag : (s.setActiveTag i t).tagOwner u = s.tagOwner u := rfl
@[simp] theorem focusedOutput_setActiveTag :
    (s.setActiveTag i t).focusedOutput = s.focusedOutput := rfl

theorem getElem?_outputs_setActiveTag : (s.setActiveTag i t).outputs[j]? =
    (s.outputs[j]?).map fun o => if i = j then { o with activeTag := t } else o := by
  simp only [setActiveTag, List.getElem?_modify]
  split_ifs <;> simp

@[simp] theorem length_outputs_setActiveTag :
    (s.setActiveTag i t).outputs.length = s.outputs.length := by
  simp [setActiveTag]

@[simp] theorem tags_setFocusedWindow {w : Option ℕ} : (s.setFocusedWindow i w).tags = s.tags := rfl
@[simp] theorem windows_setFocusedWindow {w : Option ℕ} :
    (s.setFocusedWindow i w).windows = s.windows := rfl
@[simp] theorem tagOwner_setFocusedWindow {w : Option ℕ} :
    (s.setFocusedWindow i w).tagOwner u = s.tagOwner u := rfl
@[simp] theorem focusedOutput_setFocusedWindow {w : Option ℕ} :
    (s.setFocusedWindow i w).focusedOutput = s.focusedOutput := rfl

theorem getElem?_outputs_setFocusedWindow {w : Option ℕ} : (s.setFocusedWindow i w).outputs[j]? =
    (s.outputs[j]?).map fun o => if i = j then { o with focusedWindow := w } else o := by
  simp only [setFocusedWindow, List.getElem?_modify]
  split_ifs <;> simp

@[simp] theorem length_outputs_setFocusedWindow {w : Option ℕ} :
    (s.setFocusedWindow i w).outputs.length = s.outputs.length := by
  simp [setFocusedWindow]

@[simp] theorem outputs_setFocusedOutput : (s.setFocusedOutput i).outputs = s.outputs := rfl
@[simp] theorem tags_setFocusedOutput : (s.setFocusedOutput i).tags = s.tags := rfl
@[simp] theorem windows_setFocusedOutput : (s.setFocusedOutput i).windows = s.windows := rfl
@[simp] theorem tagOwner_setFocusedOutput : (s.setFocusedOutput i).tagOwner u = s.tagOwner u := rfl
@[simp] theorem focusedOutput_setFocusedOutput :
    (s.setFocusedOutput i).focusedOutput = some i := rfl

@[simp] theorem outputs_clearFullscreenOnTag : (s.clearFullscreenOnTag t).outputs = s.outputs := rfl
@[simp] theorem tags_clearFullscreenOnTag : (s.clearFullscreenOnTag t).tags = s.tags := rfl
@[simp] theorem tagOwner_clearFullscreenOnTag :
    (s.clearFullscreenOnTag t).tagOwner u = s.tagOwner u := rfl
@[simp] theorem focusedOutput_clearFullscreenOnTag :
    (s.clearFullscreenOnTag t).focusedOutput = s.focusedOutput := rfl

@[simp] theorem outputs_modifyWindow {f : Window → Window} :
    (s.modifyWindow i f).outputs = s.outputs := rfl
@[simp] theorem tags_modifyWindow {f : Window → Window} : (s.modifyWindow i f).tags = s.tags := rfl
@[simp] theorem tagOwner_modifyWindow {f : Window → Window} :
    (s.modifyWindow i f).tagOwner u = s.tagOwner u := rfl
@[simp] theorem focusedOutput_modifyWindow {f : Window → Window} :
    (s.modifyWindow i f).focusedOutput = s.focusedOutput := rfl

theorem tagOwner_eq_none_of_length_le (h : s.tags.length ≤ t) : s.tagOwner t = none := by
  simp [tagOwner, List.getElem?_eq_none h]

/-- The first free tag is a tag without an owner. -/
theorem firstFreeTag_eq_some (h : s.firstFreeTag = some t) :
    t < s.tags.length ∧ s.tagOwner t = none := by
  obtain ⟨hlt, hnone, -⟩ := List.findIdx?_eq_some_iff_getElem.mp h
  exact ⟨hlt, by simpa [tagOwner, hlt] using hnone⟩

/-- Without a free tag every tag has an owner. -/
theorem tagOwner_ne_none (h : s.firstFreeTag = none) (ht : t < s.tags.length) :
    s.tagOwner t ≠ none := by
  have hall := List.findIdx?_eq_none_iff.mp h s.tags[t] (List.getElem_mem ht)
  simpa [tagOwner, ht, ← Option.isSome_iff_ne_none] using hall

end State

end Streamwm
