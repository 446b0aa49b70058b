import Streamwm.State

/-!
# Operations on the state

The methods of `State` that move tags, outputs and focus, and the two focus paths that
live next to their callers (`focus_window_on_output` in `src/events.rs`, the
`FocusWindow` arm of `src/status.rs`). A result `none` is a panic : an index out of
range, or a shift of a `u32` by 32 or more.

`normalizeOutputs` is the loop that revalidates the active tag and the focus of every
output after a change of outputs; `Op` lists the ways the window manager changes tags,
outputs, focus and fullscreen flags, and `Op.Step` is the transition system they form.
-/

namespace Streamwm

open Partial

/-- `1u32 << n`. -/
def shl1 (n : ℕ) : Option ℕ :=
  if n < 32 then some (1 <<< n) else none

/-- The owner of a tag after the output `removed` is gone. -/
def remapOwner (removed remaining : ℕ) : Option ℕ → Option ℕ
  | none => none
  | some o =>
    if remaining = 0 then none
    else if o = removed then some 0
    else if o > removed then some (o - 1)
    else some o

/-- Reassign tag ownership after the output `removed` is gone : its tags go to the first
of the `remaining` outputs, owners above it shift down. -/
def remapTagOwners (owners : List (Option ℕ)) (removed remaining : ℕ) : List (Option ℕ) :=
  owners.map (remapOwner removed remaining)

namespace State

/-- The window an output should focus : the focused one if it is still on the output's
active tag, else the first window there. -/
def refocusTarget (s : State) (outputIdx : ℕ) (out : Output) : Option ℕ :=
  let onActive := s.onActiveTag outputIdx out.activeTag
  if ((out.focusedWindow.bind s.findWindow).map onActive).getD false then out.focusedWindow
  else (s.windows.find? onActive).map (·.id)

/-- Recompute the focused window of an output. -/
def refocusOutput (s : State) (outputIdx : ℕ) : Option State := do
  let out ← s.outputs[outputIdx]?
  return s.setFocusedWindow outputIdx (s.refocusTarget outputIdx out)

/-- `fold(0u32, |acc, w| acc | (1u32 << w.tag))`. -/
def occupiedMask : List Window → ℕ → Option ℕ
  | [], acc => some acc
  | w :: ws, acc => do occupiedMask ws (acc ||| (← shl1 w.tag))

/-- The first tag from index `tag` on that `outputIdx` owns and the mask contains. -/
def findOccupied (outputIdx mask : ℕ) : List Tag → ℕ → Option (Option ℕ)
  | [], _ => some none
  | t :: ts, tag =>
    if t.output = some outputIdx then do
      if mask &&& (← shl1 tag) ≠ 0 then return some tag
      findOccupied outputIdx mask ts (tag + 1)
    else findOccupied outputIdx mask ts (tag + 1)

/-- The tag an output should show : the current one if it owns it, else an owned tag
with windows, else any owned tag. -/
def bestTagForOutput (s : State) (outputIdx : ℕ) : Option (Option ℕ) :=
  match s.outputs[outputIdx]? with
  | none => some none
  | some out =>
    if s.tagOwner out.activeTag = some outputIdx then some (some out.activeTag)
    else do
      let mask ← occupiedMask s.windows 0
      match ← findOccupied outputIdx mask s.tags 0 with
      | some tag => return some tag
      | none => return s.tags.findIdx? fun t => t.output == some outputIdx

/-- One iteration of `normalizeOutputs`. -/
def normalizeOutput (outputIdx : ℕ) (s : State) : Option State := do
  let out ← s.outputs[outputIdx]?
  if s.tagOwner out.activeTag ≠ some outputIdx then
    match ← s.bestTagForOutput outputIdx with
    | some tag => (s.setActiveTag outputIdx tag).refocusOutput outputIdx
    | none =>
      match s.firstFreeTag with
      | some tag =>
        ((s.setTagOutput tag outputIdx).setActiveTag outputIdx tag).refocusOutput outputIdx
      | none => s.refocusOutput outputIdx
  else s.refocusOutput outputIdx

/-- `focused_output` made valid : the first output when it is unset or out of range. -/
def validFocus (s : State) : State :=
  match s.focusedOutput with
  | some f => if s.outputs.length ≤ f then s.setFocusedOutput 0 else s
  | none => s.setFocusedOutput 0

/-- Give every output an active tag it owns, if there is one for it, and refocus it. -/
def normalizeOutputs (s : State) : Option State :=
  if s.outputs.isEmpty then some { s with focusedOutput := none }
  else loop normalizeOutput 0 s.outputs.length s.validFocus

/-- Assign the first unassigned tag to an output that has none. -/
def assignInitialTag (s : State) (outputIdx : ℕ) : Option State :=
  if s.tags.any fun t => t.output == some outputIdx then some s
  else
    match s.firstFreeTag with
    | some tag => ((s.setTagOutput tag outputIdx).setActiveTag outputIdx tag).normalizeOutputs
    | none => s.normalizeOutputs

/-- The output whose area a floating window is clamped to. -/
def clampOutput (s : State) (w : Window) : ℕ :=
  ((s.tagOwner w.tag).or s.focusedOutput).getD 0

/-- Move a floating window into the area of its output. -/
def clampFloatingWindow (s : State) (w : Window) : Window :=
  if w.floating then
    match s.outputs[s.clampOutput w]?.map outputArea with
    | none => w
    | some (x, y, width, height) =>
      if width = 0 ∨ height = 0 then w
      else
        let p := clampRectToArea w.floatX w.floatY w.floatW w.floatH x y width height
        { w with floatX := p.1, floatY := p.2 }
  else w

/-- Move every floating window into the area of its output. -/
def clampFloatingWindows (s : State) : State :=
  if s.outputs.isEmpty then s
  else { s with windows := s.windows.map s.clampFloatingWindow }

/-- Revalidate active tags, focus and floating positions. -/
def repairOutputs (s : State) : Option State := do
  return (← s.normalizeOutputs).clampFloatingWindows

/-- `focused_output` after the output `idx` is gone. -/
def remapFocus (focused : Option ℕ) (idx remaining : ℕ) : Option ℕ :=
  if focused = some idx then (if remaining = 0 then none else some 0)
  else focused.map fun f => if f > idx then f - 1 else f

/-- The state with the output `idx` taken out and every index remapped, before the
remaining outputs are normalized. -/
def dropOutput (s : State) (idx : ℕ) : State :=
  let outputs := s.outputs.eraseIdx idx
  let owners := remapTagOwners (s.tags.map (·.output)) idx outputs.length
  { s with
    outputs
    tags := List.zipWith (fun t o => { t with output := o }) s.tags owners
    focusedOutput := remapFocus s.focusedOutput idx outputs.length }

/-- Remove an output and migrate its tags to the first remaining output. -/
def removeOutput (s : State) (idx : ℕ) : Option State :=
  if s.outputs.length ≤ idx then some s
  else do return (← (s.dropOutput idx).normalizeOutputs).clampFloatingWindows

/-- Make `tag` the active tag of an output and un-fullscreen the tag left. -/
def activateTag (s : State) (outputIdx tag : ℕ) : Option State := do
  let out ← s.outputs[outputIdx]?
  ((s.setActiveTag outputIdx tag).clearFullscreenOnTag out.activeTag).refocusOutput outputIdx

/-- Focus a global tag from an output. -/
def focusTag (s : State) (outputIdx tag : ℕ) : Option State :=
  if s.tags.length ≤ tag ∨ s.outputs.length ≤ outputIdx then some s
  else
    match s.tagOwner tag with
    | none => do return (← (s.setTagOutput tag outputIdx).activateTag outputIdx tag).markDirty
    | some owner =>
      if owner = outputIdx then do return (← s.activateTag outputIdx tag).markDirty
      else do return (← (s.setFocusedOutput owner).activateTag owner tag).markDirty

/-- Make `tag` the active tag of an output, for pointer-driven focus. -/
def switchActiveTag (s : State) (outputIdx tag : ℕ) : Option State :=
  match s.outputs[outputIdx]? with
  | none => some s
  | some out =>
    let s := s.setActiveTag outputIdx tag
    let s := if out.activeTag ≠ tag then s.clearFullscreenOnTag out.activeTag else s
    s.refocusOutput outputIdx

/-- Move the focused window of an output to a tag. -/
def sendFocusedToTag (s : State) (outputIdx tag : ℕ) : Option State :=
  if s.tags.length ≤ tag then some s
  else
    match s.outputs[outputIdx]? with
    | none => some s
    | some out =>
      match out.focusedWindow.filter fun fid => (s.findWindow fid).any fun w => w.tag ≠ tag with
      | none => some s
      | some fid => do
        let s := if (s.tagOwner tag).isNone then s.setTagOutput tag outputIdx else s
        return (← (s.modifyWindow fid fun w => { w with tag }).refocusOutput outputIdx).markDirty

/-- Focus a window and the tag and output it lives on, unless it is already there. The
flag says whether anything changed. -/
def focusWindowOnOutput (s : State) (wid : ℕ) : Option (State × Bool) :=
  match s.findWindow wid with
  | none => some (s, false)
  | some w =>
    match (s.tagOwner w.tag).filter fun o => o < s.outputs.length with
    | none => some (s, false)
    | some output => do
      let out ← s.outputs[output]?
      if s.focusedOutput = some output ∧ out.activeTag = w.tag ∧ out.focusedWindow = some wid then
        return (s, false)
      let s := (s.setFocusedOutput output).setFocusedWindow output (some wid)
      return (← s.switchActiveTag output w.tag, true)

/-- The `FocusWindow` command on the window it found. -/
def commandFocusWindow (s : State) (wid tag : ℕ) : Option State :=
  match (s.tagOwner tag).filter fun o => o < s.outputs.length with
  | none => some s
  | some output => do
    let s ← (s.setFocusedOutput output).switchActiveTag output tag
    -- `s.outputs[output].focused_window = Some(wid)`
    if s.outputs.length ≤ output then none else return s.setFocusedWindow output (some wid)

/-- Step the focus of the active output through the windows of its active tag. -/
def cycleFocus (s : State) (next : Bool) : Option (State × Bool) :=
  match s.activeOutput with
  | none => some (s, false)
  | some o => do
    let out ← s.outputs[o]?
    let ids := (s.windows.filter (s.onActiveTag o out.activeTag)).map (·.id)
    if ids.isEmpty then return (s, false)
    let idx := (out.focusedWindow.bind fun f => ids.findIdx? (· == f)).getD 0
    let target := if next then (idx + 1) % ids.length else (idx + ids.length - 1) % ids.length
    return (s.setFocusedWindow o (some (← ids[target]?)), true)

/-- A new output : push it, give it a tag, focus it if it is the first. -/
def addOutput (s : State) (proxy : ObjectId) : Option State := do
  let idx := s.outputs.length
  let s ← { s with outputs := s.outputs ++ [Output.new proxy] }.assignInitialTag idx
  return if s.focusedOutput.isNone then s.setFocusedOutput idx else s

/-- A new window on the active tag of the active output, focused there. -/
def createWindow (s : State) (proxy : ObjectId) : State :=
  let output := s.activeOutput.getD 0
  let tag := (s.outputs[output]?.map (·.activeTag)).getD 0
  let wid := s.nextWindowId
  { s with windows := s.windows ++ [Window.new wid proxy tag], nextWindowId := wid + 1 }
    |>.setFocusedWindow output (some wid)

/-- A window is gone. -/
def closeWindow (s : State) (proxy : ObjectId) : State :=
  { s with windows := s.windows.filter fun w => w.proxy ≠ proxy }

end State

end Streamwm
