import Streamwm.AppData

/-!
# Snapshots and socket commands

The window manager's side of `src/status.rs` : `buildSnapshot`, the commands of the
control socket after parsing, the publication of snapshots and the flush of pending
changes. The shifts and the indexing of the output list may panic; `buildSnapshot_spec`
says that on a well-formed state they do not.
-/

namespace Streamwm

/-- A control command. Tags are `u32` values. -/
inductive Command
  | focusTag (tag : ℕ) (output : Option String)
  | sendToTag (tag : ℕ)
  | focusOutput (name : String)
  | focusWindow (appId : String) (title : Option String)
  | spawn (command : String)
  | quit
  | refresh

namespace State

variable (s : State)

/-- The snapshot of one output, without its masks and windows. -/
def outputSnap (i : ℕ) : Option OutputSnap := do
  let output ← s.outputs[i]?
  let name := output.name.getD ("output-" ++ toString i)
  let activeMask ← shl1 output.activeTag
  return {
    name, focused := decide (s.activeOutput = some i), activeMask, ownedMask := 0, occupiedMask := 0
    tags := (List.range numTags).map fun t => { id := t, label := s.tags[t]?.bind (·.label) }
    windows := [], focusedWindow := output.focusedWindow }

/-- `output_snaps[owner]`, updated. -/
def updateSnap (snaps : List OutputSnap) (owner : ℕ) (f : OutputSnap → OutputSnap) :
    Option (List OutputSnap) := do
  let snap ← snaps[owner]?
  return snaps.set owner (f snap)

/-- Set the bit of tag `t` at its owner. -/
def ownTag (numOutputs : ℕ) (tag : Tag) (t : ℕ) (snaps : List OutputSnap) :
    Option (List OutputSnap) :=
  match tag.output with
  | some owner =>
    if owner < numOutputs then do
      let bit ← shl1 t
      updateSnap snaps owner fun o => { o with ownedMask := o.ownedMask ||| bit }
    else some snaps
  | none => some snaps

/-- Set the owned masks, from tag `t` on. -/
def ownedMasks (numOutputs : ℕ) : List Tag → ℕ → List OutputSnap → Option (List OutputSnap)
  | [], _, snaps => some snaps
  | tag :: tags, t, snaps => do
    ownedMasks numOutputs tags (t + 1) (← ownTag numOutputs tag t snaps)

/-- Add a window at the owner of its tag. -/
def addWindow (numOutputs : ℕ) (w : Window) (snaps : List OutputSnap) : Option (List OutputSnap) :=
  match s.tagOwner w.tag with
  | some owner =>
    if owner < numOutputs then do
      let bit ← shl1 w.tag
      updateSnap snaps owner fun o =>
        { o with
          occupiedMask := o.occupiedMask ||| bit
          windows := o.windows ++ [{ id := w.id, appId := w.appId, title := w.title, tag := w.tag }] }
    else some snaps
  | none => some snaps

/-- Add the windows and the occupied masks. -/
def windowSnaps (numOutputs : ℕ) : List Window → List OutputSnap → Option (List OutputSnap)
  | [], snaps => some snaps
  | w :: ws, snaps => do windowSnaps numOutputs ws (← s.addWindow numOutputs w snaps)

/-- The status of all outputs. -/
def buildSnapshot : Option StatusSnapshot := do
  let numOutputs := s.outputs.length
  let snaps ← (List.range numOutputs).mapM s.outputSnap
  let focusedOutput := (snaps.find? (·.focused)).map (·.name)
  let snaps ← ownedMasks numOutputs s.tags 0 snaps
  let snaps ← s.windowSnaps numOutputs s.windows snaps
  return { focusedOutput, resizeMode := s.resizeMode, outputs := snaps }

/-- The window a `FocusWindow` command names : the first with the app id and, if one is
given, the title. -/
def commandTarget (appId : String) (title : Option String) : Option Window :=
  s.windows.find? fun w => w.appId == some appId && title.all fun t => w.title == some t

end State

namespace AppData

variable (data : AppData)

/-- The state change of a command. -/
def commandState (cmd : Command) : Option State :=
  let s := data.state
  match cmd with
  | .focusTag tag output =>
    let o := match output with
      | some name => s.findOutputByName name
      | none => s.activeOutput
    match o.filter fun o => tag < s.tags.length && o < s.outputs.length with
    | some o => s.focusTag o tag
    | none => some s
  | .sendToTag tag =>
    match s.activeOutput with
    | some o => s.sendFocusedToTag o tag
    | none => some s
  | .focusOutput name =>
    match s.findOutputByName name with
    | some idx => some (s.setFocusedOutput idx)
    | none => some s
  | .focusWindow appId title =>
    match s.commandTarget appId title with
    | some w => s.commandFocusWindow w.id w.tag
    | none => some s
  | .spawn _ | .quit | .refresh => some s

/-- Apply a control command and ask for a manage sequence. -/
def applyCommand (cmd : Command) : Option AppData := do
  let data := { data with state := ← data.commandState cmd }
  let data := match cmd with
    | .spawn command => if data.config.allowSpawn then data.send (.spawn command) else data
    | .quit => { data with quit := true }
    | _ => data
  return data.manageDirty

/-- Publish the current state, if somebody subscribed. -/
def refreshSnapshot (hasClients : Bool) : Option AppData := do
  if !hasClients then return data
  return { data with published := data.published ++ [← data.state.buildSnapshot] }

/-- Ask for a manage sequence if a change is pending. -/
def flushPending : AppData :=
  if data.state.pendingApply then
    (data.modifyState fun s => { s with pendingApply := false }).manageDirty
  else data

/-- Answer one status request. -/
def serviceStatusRequest : Option AppData := do
  return { data with answers := data.answers ++ [← data.state.buildSnapshot] }

end AppData

end Streamwm
