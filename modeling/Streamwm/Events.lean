import Streamwm.PointerOps

/-!
# Events of windows, outputs and seats

`src/events.rs` and the object-creating events of `src/connection.rs`. Each handler finds
its window, output or seat by object id and does nothing when it is unknown. The events
of `river_output_v1` that change geometry, and the exclusive area of a layer-shell
surface, are one operation with the stored value as a parameter (`outputGeometry`).
-/

namespace Streamwm

open Partial

/-- The events of a window. -/
inductive WindowEvent
  | closed
  | appId (appId : Option String)
  | title (title : Option String)
  | dimensions (width height : ℤ)
  | dimensionsHint (minWidth minHeight maxWidth maxHeight : ℤ)
  | parent (parent : Option ObjectId)
  | pointerMoveRequested (seat : ObjectId)
  /-- `none` for edge bits outside the protocol. -/
  | pointerResizeRequested (seat : ObjectId) (edges : Option Edges)
  | fullscreenRequested
  | exitFullscreenRequested
  | maximizeRequested
  | unmaximizeRequested
  | minimizeRequested

/-- The events of an output. -/
inductive OutputEvent
  | position (x y : ℤ)
  | dimensions (width height : ℤ)
  | wlOutput (name : ℕ)
  | removed

/-- The events of a seat. -/
inductive SeatEvent
  | removed
  | wlSeat (name : ℕ)
  | pointerEnter (window : ObjectId)
  | pointerLeave
  | windowInteraction (window : ObjectId)
  | opDelta (dx dy : ℤ)
  | opRelease
  | pointerPosition (x y : ℤ)

namespace State

variable (s : State)

/-- An update of the seat found by its object. -/
def modifySeat (seat : ObjectId) (f : Seat → Seat) : State :=
  { s with seats := modifyFirst (fun t => t.proxy == seat) f s.seats }

/-- An update of the first output found by a search. -/
def modifyOutput (p : Output → Bool) (f : Output → Output) : State :=
  { s with outputs := modifyFirst p f s.outputs }

def findOutputByProxy (output : ObjectId) : Option ℕ :=
  s.outputs.findIdx? fun o => o.proxy == output

def findOutputByLayer (layer : ObjectId) : Option ℕ :=
  s.outputs.findIdx? fun o => o.layer == some layer

/-- The area of the output a window is displayed on. -/
def windowArea (w : Window) : Option (ℤ × ℤ × ℕ × ℕ) :=
  ((s.windowOutput w).bind fun o => s.outputs[o]?).map outputArea

/-- The output containing a pointer position. -/
def outputAt (x y : ℤ) : Option ℕ :=
  s.outputs.findIdx? fun o => o.x ≤ x && x < o.x + o.width && o.y ≤ y && y < o.y + o.height

end State

/-- Store the app id, floating a window whose app is never tiled. -/
def Window.setAppId (w : Window) (appId : Option String) (shouldFloat : Bool)
    (area : Option (ℤ × ℤ × ℕ × ℕ)) : Window :=
  let w :=
    if shouldFloat && !w.floating then
      match area with
      | some (ax, ay, aw, ah) =>
        let size := fitBesideParent (aw, ah) (w.floatW, w.floatH)
          (w.minWidth, w.minHeight, w.maxWidth, w.maxHeight)
        let p := placeOverParent size.1 size.2 ax ay aw ah (ax, ay, aw, ah)
        { w with floating := true, floatW := size.1, floatH := size.2, floatX := p.1, floatY := p.2 }
      | none => { w with floating := true }
    else w
  { w with appId }

/-- Store the parent, floating the window over a floating parent. -/
def Window.setParent (w parent : Window) (area : ℤ × ℤ × ℕ × ℕ) : Window :=
  let w := { w with parent := some parent.id }
  if parent.floating && !w.floating then
    let size := fitBesideParent (parent.floatW, parent.floatH) (w.floatW, w.floatH)
      (w.minWidth, w.minHeight, w.maxWidth, w.maxHeight)
    let p := placeOverParent size.1 size.2 parent.floatX parent.floatY parent.floatW parent.floatH
      area
    { w with floating := true, floatW := size.1, floatH := size.2, floatX := p.1, floatY := p.2 }
  else w

namespace AppData

variable (data : AppData)

/-! ## Windows -/

/-- A window is gone : release its objects and forget it. -/
def windowClosed (window : ObjectId) (w : Window) : AppData :=
  ((data.sendAll (w.node.map Request.destroyNode).toList).send (.destroy w.proxy)).modifyState
    fun s => s.closeWindow window

def windowAppId (id : ℕ) (appId : Option String) : AppData :=
  let shouldFloat := appId.any data.config.isFloatingApp
  let area := if shouldFloat then (data.state.findWindow id).bind data.state.windowArea else none
  data.modifyState fun s =>
    (s.modifyWindow id fun w => w.setAppId appId shouldFloat area).markDirty

def windowParent (id : ℕ) (parent : Option ObjectId) : AppData :=
  match parent.bind fun p => data.state.windows.find? fun w => w.proxy == p with
  | some p =>
    let area := (data.state.windowArea p).getD (p.floatX, p.floatY, p.floatW, p.floatH)
    data.modifyState fun s => (s.modifyWindow id fun w => w.setParent p area).markDirty
  | none => data.modifyState State.markDirty

/-- An event of a window. -/
def windowEvent (window : ObjectId) (event : WindowEvent) : Option AppData :=
  match data.state.findWindowByProxy window with
  | none => some data
  | some id =>
    match event with
    | .closed =>
      match data.state.findWindow id with
      | some w => some (data.windowClosed window w)
      | none => some (data.modifyState fun s => s.closeWindow window)
    | .appId appId => some (data.windowAppId id appId)
    | .title title => some (data.modifyState fun s => s.modifyWindow id fun w => { w with title })
    | .dimensions width height => some (data.modifyState fun s => s.modifyWindow id fun w =>
        { w with width := asU32 width, height := asU32 height })
    | .dimensionsHint minWidth minHeight maxWidth maxHeight =>
      some (data.modifyState fun s => s.modifyWindow id fun w =>
        { w with minWidth := minWidth.toNat, minHeight := minHeight.toNat
                 maxWidth := maxWidth.toNat, maxHeight := maxHeight.toNat })
    | .parent parent => some (data.windowParent id parent)
    | .pointerMoveRequested seat => data.startInteractiveOp id seat .move .empty
    | .pointerResizeRequested seat edges =>
      data.startInteractiveOp id seat .resize (edges.getD .empty)
    | .fullscreenRequested => some (data.modifyState fun s => s.modifyWindow id fun w =>
        { w with fullscreen := true }).manageDirty
    | .exitFullscreenRequested => some (data.modifyState fun s => s.modifyWindow id fun w =>
        { w with fullscreen := false }).manageDirty
    | .maximizeRequested | .unmaximizeRequested => some data
    | .minimizeRequested => some (data.modifyState fun s => s.modifyWindow id fun w =>
        { w with minimized := true }).manageDirty

/-! ## Outputs -/

/-- A geometry change of output `idx`. -/
def outputGeometry (idx : ℕ) (g : GeometryEvent) : Option AppData := do
  return (← data.modifyStateM fun s => (s.setGeometry idx g).repairOutputs).manageDirty

/-- Remove output `idx` and release its objects. -/
def outputRemoved (idx : ℕ) (o : Output) : Option AppData := do
  let data := data.sendAll
    ((o.layer.map Request.destroy).toList ++ (o.wlOutput.map Request.destroy).toList ++
      [.destroy o.proxy])
  let data ← data.modifyStateM fun s => s.removeOutput idx
  return { data with layerDefaultSet := false }.manageDirty

/-- Bind the `wl_output` of an output, for its name. -/
def bindWlOutput (output : ObjectId) (name : ℕ) : AppData :=
  let (object, data) := data.allocate
  (data.send (.bind name object)).modifyState fun s => s.modifyOutput (fun o => o.proxy == output)
    fun o => { o with wlGlobal := some name, wlOutput := some object }

/-- An event of an output. -/
def outputEvent (output : ObjectId) (event : OutputEvent) : Option AppData :=
  match event with
  | .wlOutput name => some (data.bindWlOutput output name)
  | .position x y =>
    match data.state.findOutputByProxy output with
    | some idx => data.outputGeometry idx (.position x y)
    | none => some data
  | .dimensions width height =>
    match data.state.findOutputByProxy output with
    | some idx => data.outputGeometry idx (.dimensions width height)
    | none => some data
  | .removed =>
    match data.state.findOutputByProxy output with
    | some idx => do data.outputRemoved idx (← data.state.outputs[idx]?)
    | none => some data

/-- The exclusive area of a layer-shell surface. -/
def nonExclusiveArea (layer : ObjectId) (x y width height : ℤ) : Option AppData :=
  match data.state.findOutputByLayer layer with
  | some idx => data.outputGeometry idx (.nonExclusiveArea x y width height)
  | none => some data

/-- The name of a `wl_output`. -/
def wlOutputName (global : ℕ) (name : String) : AppData :=
  data.modifyState fun s => s.modifyOutput (fun o => o.wlGlobal == some global)
    fun o => { o with name := some name }

/-! ## Seats -/

/-- Destroy the bindings of a seat. -/
def dropBindings (seat : ObjectId) : AppData :=
  let own := fun b : ObjectId × String × ObjectId => b.2.2 == seat
  let keep := fun b : ObjectId × String × ObjectId => !(b.2.2 == seat)
  let data := data.sendAll ((data.bindings.filter own).map fun b => Request.destroy b.1)
  let data := data.sendAll ((data.pointerBindings.filter own).map fun b => Request.destroy b.1)
  { data with bindings := data.bindings.filter keep
              pointerBindings := data.pointerBindings.filter keep }

/-- Forget the operations a seat drives. -/
def forgetOps (seat : ObjectId) : AppData :=
  let drives := fun op : PointerOp => op.seat == seat
  let data := if data.pointerOp.any drives then
    { data with pointerOp := none, opEndRequested := false } else data
  if data.pendingOp.any drives then { data with pendingOp := none } else data

/-- Release the objects of a seat and forget it; dropping it releases its cursor device
and pointer. -/
def releaseSeat (seat : ObjectId) : AppData :=
  let removed := data.state.seats.filter fun s => s.proxy == seat
  let objects := (removed.head?.map fun s => s.layer.toList ++ [s.proxy]).getD [] ++
    removed.flatMap fun s => s.cursorShape.toList ++ s.pointer.toList
  (data.sendAll (objects.map Request.destroy)).modifyState fun s =>
    { s with seats := s.seats.filter fun t => !(t.proxy == seat) }

/-- A seat is gone. -/
def seatRemoved (seat : ObjectId) : AppData :=
  ((data.dropBindings seat).forgetOps seat).releaseSeat seat

/-- Bind the `wl_seat` of a seat, for its pointer and cursor. -/
def bindWlSeat (seat : ObjectId) (name : ℕ) : AppData :=
  let (wlSeat, data) := data.allocate
  let (pointer, data) := data.allocate
  let (device, data) := data.allocate
  let shape := if data.cursorShapeManager then some device else none
  (data.sendAll ([.bind name wlSeat, .bind name pointer] ++
    (shape.map fun d => Request.bind name d).toList)).modifyState fun s =>
      s.modifySeat seat fun t => { t with pointer := some pointer, cursorShape := shape }

/-- The pointer enters a window. -/
def pointerEnter (seat window : ObjectId) : Option AppData :=
  match data.state.findWindowByProxy window with
  | none => some data
  | some wid => do
    let data := data.modifyState fun s =>
      s.modifySeat seat fun t => { t with pointerWindow := some wid }
    if data.config.focusFollowsMouse then do
      let (s, changed) ← data.state.focusWindowOnOutput wid
      return { data with state := s }.requestManageIf changed
    else return data

/-- A button press on a window. -/
def windowInteraction (window : ObjectId) : Option AppData :=
  match data.state.findWindowByProxy window with
  | none => some data
  | some wid => do
    let data := data.modifyState fun s =>
      s.modifyWindow wid fun w => { w with minimized := false }
    let (s, _) ← data.state.focusWindowOnOutput wid
    return { data with state := s }

/-- The pointer moved; without a window under it the output still gets focus. -/
def pointerPosition (seat : ObjectId) (x y : ℤ) : AppData :=
  let data := data.modifyState fun s =>
    s.modifySeat seat fun t => { t with pointerX := x, pointerY := y }
  if data.config.focusFollowsMouse then
    match data.state.outputAt x y with
    | some newOut =>
      if data.state.focusedOutput ≠ some newOut then
        (data.modifyState fun s => s.setFocusedOutput newOut).manageDirty
      else data
    | none => data
  else data

/-- An event of a seat. -/
def seatEvent (seat : ObjectId) (event : SeatEvent) : Option AppData :=
  match event with
  | .removed => some (data.seatRemoved seat)
  | .opDelta dx dy => some (data.applyPointerDelta dx dy)
  | .opRelease => some data.endPointerOp
  | .wlSeat name => some (data.bindWlSeat seat name)
  | .pointerEnter window => data.pointerEnter seat window
  | .pointerLeave => some (data.modifyState fun s =>
      s.modifySeat seat fun t => { t with pointerWindow := none })
  | .windowInteraction window => data.windowInteraction window
  | .pointerPosition x y => some (data.pointerPosition seat x y)

/-! ## New objects -/

/-- A new window. -/
def newWindow (window : ObjectId) : AppData :=
  data.modifyState fun s => s.createWindow window

/-- A new output. -/
def newOutput (output : ObjectId) : Option AppData := do
  let data ← data.modifyStateM fun s => s.addOutput output
  if data.layerShell then
    match data.state.outputs.getLast? with
    | some out =>
      if out.layer.isNone then
        let (layer, data) := data.allocate
        return (data.send (.layerGetOutput out.proxy layer)).modifyState fun s =>
          { s with outputs := s.outputs.modify (s.outputs.length - 1) fun o =>
              { o with layer := some layer } }
      else return data
    | none => return data
  else return data

/-- A new seat. -/
def newSeat (seat : ObjectId) : AppData :=
  let data := data.modifyState fun s => { s with seats := s.seats ++ [Seat.new seat] }
  let data := if data.xkb then data.bindForSeat seat else data
  let data := data.bindPointerForSeat seat
  if data.layerShell then
    match data.state.seats.getLast? with
    | some t =>
      if t.layer.isNone then
        let (layer, data) := data.allocate
        (data.send (.layerGetSeat seat layer)).modifyState fun s =>
          { s with seats := s.seats.modify (s.seats.length - 1) fun t =>
              { t with layer := some layer } }
      else data
    | none => data
  else data

end AppData

end Streamwm
