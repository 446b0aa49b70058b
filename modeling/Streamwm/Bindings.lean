import Streamwm.AppData

/-!
# Keybindings and actions

The keyboard half of `src/bindings.rs` : the keysym and modifier names, the default
bindings, the registration of a seat's bindings, and `runAction`, which a pressed binding
dispatches to. An action is a string, a name with an optional argument after `:`;
`ActionName.ofString` is the list of names `run_action` matches on.

Strings are taken apart as lists of characters. `parseUsize` reads a `usize` of 64 bits.
-/

namespace Streamwm

/-! ## Text -/

/-- The characters of the Unicode property `White_Space`. -/
def isWhitespace (c : Char) : Bool :=
  let n := c.toNat
  (9 ≤ n && n ≤ 13) || n == 0x20 || n == 0x85 || n == 0xA0 || n == 0x1680 ||
    (0x2000 ≤ n && n ≤ 0x200A) || n == 0x2028 || n == 0x2029 || n == 0x202F || n == 0x205F ||
    n == 0x3000

/-- `s.trim()`. -/
def trim (s : List Char) : List Char :=
  ((s.dropWhile isWhitespace).reverse.dropWhile isWhitespace).reverse

/-- `s.split(p)` : the parts between the separators, at least one. -/
def splitOn (p : Char → Bool) : List Char → List (List Char)
  | [] => [[]]
  | c :: cs =>
    if p c then [] :: splitOn p cs
    else
      match splitOn p cs with
      | [] => [[c]]
      | part :: parts => (c :: part) :: parts

/-- `s.split_once(sep)`. -/
def splitOnce (sep : Char) : List Char → Option (List Char × List Char)
  | [] => none
  | c :: cs => if c = sep then some ([], cs) else (splitOnce sep cs).map fun p => (c :: p.1, p.2)

def toAsciiLowercase (s : List Char) : List Char :=
  s.map fun c => if 'A' ≤ c ∧ c ≤ 'Z' then Char.ofNat (c.toNat + 32) else c

/-- `s.contains(part)`. -/
def contains (part s : List Char) : Bool :=
  s.tails.any fun t => part.isPrefixOf t

/-- `s.parse::<usize>()`. -/
def parseUsize (s : List Char) : Option ℕ :=
  let digits := if s.head? = some '+' then s.tail else s
  if digits.isEmpty || !digits.all Char.isDigit then none
  else
    let v := digits.foldl (fun acc c => acc * 10 + (c.toNat - 48)) 0
    if v < 2 ^ 64 then some v else none

/-! ## Keysyms and modifiers -/

/-- The keysym of a key name. -/
def parseKeysym (name : String) : Option ℕ :=
  let named := match name with
    | "Return" => some 0xff0d
    | "space" => some 0x20
    | "Escape" => some 0xff1b
    | "Tab" => some 0xff09
    | "BackSpace" => some 0xff08
    | "Left" => some 0xff51
    | "Up" => some 0xff52
    | "Right" => some 0xff53
    | "Down" => some 0xff54
    | "F1" => some 0xffbe
    | "F2" => some 0xffbf
    | "F3" => some 0xffc0
    | "F4" => some 0xffc1
    | "F5" => some 0xffc2
    | "F6" => some 0xffc3
    | "F7" => some 0xffc4
    | "F8" => some 0xffc5
    | "F9" => some 0xffc6
    | "F10" => some 0xffc7
    | "F11" => some 0xffc8
    | "F12" => some 0xffc9
    | "XF86AudioRaiseVolume" => some 269025043
    | "XF86AudioLowerVolume" => some 269025041
    | "XF86AudioMute" => some 269025042
    | "XF86AudioMicMute" => some 269025202
    | "XF86MonBrightnessUp" => some 269025026
    | "XF86MonBrightnessDown" => some 269025027
    | _ => none
  match name.toList with
  | [c] => if c.isAlphanum then some c.toNat else named
  | _ => named

def Modifiers.empty : Modifiers :=
  { shift := false, ctrl := false, mod1 := false, mod3 := false, mod4 := false, mod5 := false }

/-- Add the modifier a part names, if any. -/
def Modifiers.add (m : Modifiers) (part : List Char) : Modifiers :=
  match String.ofList (toAsciiLowercase (trim part)) with
  | "shift" => { m with shift := true }
  | "ctrl" | "control" => { m with ctrl := true }
  | "alt" | "mod1" => { m with mod1 := true }
  | "super" | "mod4" | "logo" => { m with mod4 := true }
  | "mod3" => { m with mod3 := true }
  | "mod5" => { m with mod5 := true }
  | _ => m

/-- The modifiers a list names, or the configured one where it names none. -/
def parseModifiers (s configModifier : String) : Modifiers :=
  if toAsciiLowercase (trim s.toList) = "none".toList then .empty
  else
    let m := (splitOn (fun c => c == ',' || c == '+') s.toList).foldl Modifiers.add .empty
    if m = .empty then
      let config := configModifier.toList
      if contains "super".toList config || contains "mod4".toList config then
        { m with mod4 := true }
      else if contains "alt".toList config || contains "mod1".toList config then
        { m with mod1 := true }
      else if contains "ctrl".toList config then { m with ctrl := true }
      else m
    else m

/-- The bindings as keysym name, modifiers and action. -/
def defaultBindings (config : Config) : List (String × String × String) :=
  let modifiedShift := config.modifier ++ "+shift"
  let fixed := [
    ("Return", "", "spawn_terminal"), ("d", "", "spawn_launcher"), ("q", "", "close"),
    ("E", config.modifier, "quit"), ("f", "", "fullscreen"), ("v", "", "fullscreen"),
    ("v", modifiedShift, "float"), ("j", "", "focus_next"), ("k", "", "focus_prev"),
    ("Tab", "", "focus_next"), ("Tab", modifiedShift, "focus_prev"),
    ("h", "", "focus_prev_output"), ("l", "", "focus_next_output"),
    ("space", "", "cycle_layout"), ("r", "", "enter_resize_mode"),
    ("Left", "none", "resize_step_left"), ("Right", "none", "resize_step_right"),
    ("h", "none", "resize_step_left"), ("l", "none", "resize_step_right"),
    ("Escape", "none", "exit_resize_mode")]
  let tags := (List.range 9).flatMap fun tag =>
    let key := toString (tag + 1)
    [(key, "", "focus_tag:" ++ toString tag),
      (key, modifiedShift, "send_to_tag:" ++ toString tag)]
  let configured := config.bindings.map fun b =>
    let action := match b.arg with
      | some arg =>
        if !arg.isEmpty && !b.action.toList.contains ':' then b.action ++ ":" ++ arg else b.action
      | none => b.action
    (b.keysym, b.modifiers, action)
  fixed ++ tags ++ configured

namespace AppData

/-- Register one binding, unless its keysym is unknown. -/
def bindKey (seat : ObjectId) (data : AppData) (bind : String × String × String) : AppData :=
  match parseKeysym bind.1 with
  | none => data
  | some ks =>
    let m := parseModifiers bind.2.1 data.config.modifier
    let (binding, data) := data.allocate
    let data := data.send (.getXkbBinding seat ks m binding)
    { data with bindings := data.bindings ++ [(binding, bind.2.2, seat)] }

/-- Bind all configured bindings for a seat. -/
def bindForSeat (data : AppData) (seat : ObjectId) : AppData :=
  (defaultBindings data.config).foldl (bindKey seat) data

/-- Register one pointer binding. -/
def bindPointer (seat : ObjectId) (button : ℕ) (action : String) (data : AppData) : AppData :=
  let m := parseModifiers "" data.config.modifier
  let (binding, data) := data.allocate
  let data := data.send (.getPointerBinding seat button m binding)
  { data with pointerBindings := data.pointerBindings ++ [(binding, action, seat)] }

/-- Bind the move and resize drags for a seat : `BTN_LEFT` and `BTN_RIGHT`. -/
def bindPointerForSeat (data : AppData) (seat : ObjectId) : AppData :=
  (data.bindPointer seat 0x110 "move").bindPointer seat 0x111 "resize"

end AppData

/-! ## Actions -/

/-- The actions `run_action` knows. -/
inductive ActionName
  | spawnTerminal | spawnLauncher | spawn | close | focusNext | focusPrev | focusTag | sendToTag
  | fullscreen | float | focusNextOutput | focusPrevOutput | cycleLayout | enterResizeMode
  | exitResizeMode | resizeStepLeft | resizeStepRight | quit | unhandled
  deriving DecidableEq

def ActionName.ofString : String → ActionName
  | "spawn_terminal" => .spawnTerminal
  | "spawn_launcher" => .spawnLauncher
  | "spawn" => .spawn
  | "close" => .close
  | "focus_next" => .focusNext
  | "focus_prev" => .focusPrev
  | "focus_tag" => .focusTag
  | "send_to_tag" => .sendToTag
  | "fullscreen" => .fullscreen
  | "float" => .float
  | "focus_next_output" => .focusNextOutput
  | "focus_prev_output" => .focusPrevOutput
  | "cycle_layout" => .cycleLayout
  | "enter_resize_mode" => .enterResizeMode
  | "exit_resize_mode" => .exitResizeMode
  | "resize_step_left" => .resizeStepLeft
  | "resize_step_right" => .resizeStepRight
  | "quit" => .quit
  | _ => .unhandled

/-- An action with its argument. -/
def splitAction (action : String) : ActionName × Option (List Char) :=
  match splitOnce ':' action.toList with
  | some (name, arg) => (.ofString (String.ofList name), some arg)
  | none => (.ofString action, none)

/-- Whether an action belongs to resize mode only. -/
def isResizeBinding (action : String) : Bool :=
  match action with
  | "resize_step_left" | "resize_step_right" | "exit_resize_mode" => true
  | _ => false

namespace State

/-- The focused window of the active output. -/
def activeFocusedWindow (s : State) : Option (Option ℕ) :=
  match s.activeOutput with
  | none => some none
  | some o => do return (← s.outputs[o]?).focusedWindow

/-- Seed the floating geometry of a window from its tiling cell and float it. -/
def floatFrom (s : State) (config : Config) (fid : ℕ) : Option State := do
  let geom := ((← s.computeAll config).find? fun p => p.1 == fid).map (·.2)
  return s.modifyWindow fid fun w =>
    match geom with
    | some g =>
      { w with floatX := g.x, floatY := g.y, floatW := g.width, floatH := g.height
               floating := true }
    | none => { w with floating := true }

/-- The output a focus step leads to, with its focus. -/
def focusStepOutput (s : State) (next : Bool) : State × Option ℕ :=
  let n := s.outputs.length
  if n > 1 then
    let cur := s.focusedOutput.getD 0
    let next := if next then (cur + 1) % n else (cur + n - 1) % n
    (s.setFocusedOutput next, some next)
  else (s, none)

def toggleResizeMode (s : State) : State :=
  { s with resizeMode := !s.resizeMode }

/-- Change the split of the active tag, in resize mode. -/
def resizeStep (s : State) (delta : ℚ) : Option State :=
  if s.resizeMode then
    match s.activeOutput with
    | some o => do
      let activeTag := (← s.outputs[o]?).activeTag
      let cur := s.masterFraction activeTag
      return (s.setMasterFraction activeTag (cur + delta)).clearFullscreenOnTag activeTag
    | none => some s
  else some s

end State

namespace AppData

variable (data : AppData)

/-- `data.wm.manage_dirty()` where the action needs a manage sequence. -/
def requestManageIf (needsManage : Bool) : AppData :=
  if needsManage then data.manageDirty else data

/-- Step the focus through the windows of the active tag. -/
def actionFocusStep (next : Bool) : Option AppData := do
  let (s, changed) ← data.state.cycleFocus next
  return { data with state := s }.requestManageIf changed

def actionFocusTag (arg : Option (List Char)) : Option AppData :=
  match arg.bind parseUsize with
  | none => some data
  | some tag =>
    -- the output a tag lives on gets the pointer too
    let target := data.state.activeOutput.bind fun o =>
      (data.state.tagOwner tag).filter fun owner => owner ≠ o
    match data.state.activeOutput with
    | some o => do
      let data := ({ data with state := ← data.state.focusTag o tag } : AppData).manageDirty
      return { data with pendingPointerWarp := target }
    | none => some { data with pendingPointerWarp := target }

def actionSendToTag (arg : Option (List Char)) : Option AppData :=
  match arg.bind parseUsize with
  | none => some data
  | some tag =>
    match data.state.activeOutput with
    | some o => do
      return ({ data with state := ← data.state.sendFocusedToTag o tag } : AppData).manageDirty
    | none => some data

def actionClose : Option AppData := do
  match ← data.state.activeFocusedWindow with
  | some fid => return { data with pendingClose := data.pendingClose ++ [fid] }.manageDirty
  | none => return data

def actionFullscreen : Option AppData := do
  match (← data.state.activeFocusedWindow).bind fun fid => data.state.findWindow fid with
  | some w =>
    return (data.modifyState fun s =>
      s.modifyWindow w.id fun w => { w with fullscreen := !w.fullscreen }).manageDirty
  | none => return data

def actionFloat : Option AppData := do
  match ← data.state.activeFocusedWindow with
  | none => return data
  | some fid =>
    let turningOn := ((data.state.findWindow fid).map fun w => !w.floating).getD false
    if turningOn then return (← data.modifyStateM fun s => s.floatFrom data.config fid).manageDirty
    else return (data.modifyState fun s =>
      s.modifyWindow fid fun w => { w with floating := false }).manageDirty

/-- Move seat focus to the next or previous output. -/
def actionFocusStepOutput (next : Bool) : AppData :=
  match data.state.focusStepOutput next with
  | (s, some target) => { data with state := s, pendingPointerWarp := some target }.manageDirty
  | (s, none) => { data with state := s }

def actionResizeStep (delta : ℚ) : Option AppData := do
  return (← data.modifyStateM fun s => s.resizeStep delta).manageDirty

/-- Run the action of a pressed binding. -/
def runAction (action : String) : Option AppData :=
  let (name, arg) := splitAction action
  match name with
  | .spawnTerminal => some (data.send (.spawn data.config.terminal))
  | .spawnLauncher => some (data.send (.spawn data.config.launcher))
  | .spawn => some (data.sendAll (arg.map fun cmd => Request.spawn (String.ofList cmd)).toList)
  | .close => data.actionClose
  | .focusNext => data.actionFocusStep true
  | .focusPrev => data.actionFocusStep false
  | .focusTag => data.actionFocusTag arg
  | .sendToTag => data.actionSendToTag arg
  | .fullscreen => data.actionFullscreen
  | .float => data.actionFloat
  | .focusNextOutput => some (data.actionFocusStepOutput true)
  | .focusPrevOutput => some (data.actionFocusStepOutput false)
  | .cycleLayout => some data
  | .enterResizeMode => some (data.modifyState State.toggleResizeMode).manageDirty
  | .exitResizeMode => some (data.modifyState fun s => { s with resizeMode := false }).manageDirty
  | .resizeStepLeft => data.actionResizeStep (-data.config.resizeStep)
  | .resizeStepRight => data.actionResizeStep data.config.resizeStep
  | .quit => some { data with quit := true }
  | .unhandled => some data

/-- Dispatch a triggered binding to its action. -/
def dispatchAction (triggered : ObjectId) : Option AppData :=
  match (data.bindings.find? fun b => b.1 == triggered).map (·.2.1) with
  | some action => data.runAction action
  | none => some data

end AppData

end Streamwm
