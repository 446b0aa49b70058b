import Streamwm.Layout

/-!
# The dispatch context

`AppData` is the context of the single-threaded event loop (`src/connection.rs`) : the
state, the configuration, the registered bindings and the queues a manage sequence works
off. The globals are bound before the loop starts; of the optional ones only their
presence matters.

What the window manager asks of river is the list `sent` of requests, oldest first. An
object the window manager creates itself is named by the counter `nextObject`. The
status snapshots it hands out are the lists `published` and `answers`.
-/

namespace Streamwm

/-- The bits of `river_window_v1.edges`. -/
structure Edges where
  top : Bool
  bottom : Bool
  left : Bool
  right : Bool
  deriving DecidableEq

def Edges.empty : Edges :=
  { top := false, bottom := false, left := false, right := false }

def Edges.all : Edges :=
  { top := true, bottom := true, left := true, right := true }

/-- An interactive pointer operation. -/
inductive OpKind
  | move
  | resize
  deriving DecidableEq

/-- An interactive pointer operation on a floating window. -/
structure PointerOp where
  window : ℕ
  kind : OpKind
  /-- The pointer position at the start. -/
  startX : ℤ
  startY : ℤ
  startFloatX : ℤ
  startFloatY : ℤ
  startW : ℕ
  startH : ℕ
  /-- The edges being resized. -/
  edges : Edges
  /-- The seat driving the operation. -/
  seat : ObjectId
  deriving DecidableEq

/-- The cursors of a pointer operation. -/
inductive CursorShape
  | default | move | allResize | ewResize | nsResize | nwseResize | neswResize
  | wResize | eResize | nResize | sResize
  deriving DecidableEq

/-- The bits of `river_seat_v1.modifiers` that a binding can name. -/
structure Modifiers where
  shift : Bool
  ctrl : Bool
  mod1 : Bool
  mod3 : Bool
  mod4 : Bool
  mod5 : Bool
  deriving DecidableEq

/-- One window of a status snapshot. -/
structure WindowSnap where
  id : ℕ
  appId : Option String
  title : Option String
  tag : ℕ

/-- One tag of a status snapshot. -/
structure TagSnap where
  id : ℕ
  label : Option String

/-- One output of a status snapshot. -/
structure OutputSnap where
  name : String
  focused : Bool
  activeMask : ℕ
  ownedMask : ℕ
  occupiedMask : ℕ
  tags : List TagSnap
  windows : List WindowSnap
  focusedWindow : Option ℕ

/-- The answer to a status request. -/
structure StatusSnapshot where
  focusedOutput : Option String
  resizeMode : Bool
  outputs : List OutputSnap

/-- A request to the compositor, by the object it is made on. -/
inductive Request
  | manageDirty
  | manageFinish
  | renderFinish
  -- `river_window_v1`
  | hide (window : ObjectId)
  | show (window : ObjectId)
  | close (window : ObjectId)
  | fullscreen (window output : ObjectId)
  | exitFullscreen (window : ObjectId)
  | informFullscreen (window : ObjectId)
  | informNotFullscreen (window : ObjectId)
  | setCapabilities (window : ObjectId)
  | useSsd (window : ObjectId)
  | useCsd (window : ObjectId)
  | setDimensionBounds (window : ObjectId) (width height : ℕ)
  | proposeDimensions (window : ObjectId) (width height : ℕ)
  | setTiled (window : ObjectId) (edges : Edges)
  | setBorders (window : ObjectId) (edges : Edges) (width r g b a : ℕ)
  | getNode (window node : ObjectId)
  -- `river_node_v1`
  | setPosition (node : ObjectId) (x y : ℤ)
  | placeTop (node : ObjectId)
  | destroyNode (node : ObjectId)
  -- `river_seat_v1`
  | focusWindow (seat window : ObjectId)
  | clearFocus (seat : ObjectId)
  /-- The request names the seat only; `window` records the operation it is sent for. -/
  | opStartPointer (seat : ObjectId) (window : ℕ)
  | opEnd (seat : ObjectId)
  | pointerWarp (seat : ObjectId) (x y : ℤ)
  | setCursorShape (device : ObjectId) (shape : CursorShape)
  | setDefaultCursor (pointer : ObjectId)
  -- bindings
  | getXkbBinding (seat : ObjectId) (keysym : ℕ) (modifiers : Modifiers) (binding : ObjectId)
  | getPointerBinding (seat : ObjectId) (button : ℕ) (modifiers : Modifiers) (binding : ObjectId)
  | enable (binding : ObjectId)
  | disable (binding : ObjectId)
  -- other objects
  | layerSetDefault (layer : ObjectId)
  | layerGetOutput (output layer : ObjectId)
  | layerGetSeat (seat layer : ObjectId)
  | bind (name : ℕ) (object : ObjectId)
  | destroy (object : ObjectId)
  /-- Not a request to river : a process started. -/
  | spawn (command : String)
  deriving DecidableEq

/-- The dispatch context. -/
structure AppData where
  state : State
  config : Config
  /-- `river_xkb_bindings_v1` is bound. -/
  xkb : Bool
  /-- `river_layer_shell_v1` is bound. -/
  layerShell : Bool
  /-- `wp_cursor_shape_manager_v1` is bound. -/
  cursorShapeManager : Bool
  quit : Bool
  /-- Keybinding objects with their action and seat. -/
  bindings : List (ObjectId × String × ObjectId)
  layerDefaultSet : Bool
  /-- Windows to close in the next manage sequence. -/
  pendingClose : List ℕ
  /-- Pointer binding objects with their action and seat. -/
  pointerBindings : List (ObjectId × String × ObjectId)
  /-- The running pointer operation. -/
  pointerOp : Option PointerOp
  /-- The pointer operation the next manage sequence starts. -/
  pendingOp : Option PointerOp
  opEndRequested : Bool
  /-- The output the next manage sequence warps the pointer to. -/
  pendingPointerWarp : Option ℕ
  nextObject : ObjectId
  sent : List Request
  published : List StatusSnapshot
  answers : List StatusSnapshot

/-- The context when the event loop starts. -/
def AppData.new (config : Config) (xkb layerShell cursorShapeManager : Bool) : AppData :=
  { state := State.new (max (1 / 10) (min config.masterFraction (9 / 10)))
    config, xkb, layerShell, cursorShapeManager
    quit := false, bindings := [], layerDefaultSet := false, pendingClose := []
    pointerBindings := [], pointerOp := none, pendingOp := none, opEndRequested := false
    pendingPointerWarp := none, nextObject := 0, sent := [], published := [], answers := [] }

namespace AppData

variable (data : AppData)

def send (r : Request) : AppData :=
  { data with sent := data.sent ++ [r] }

def sendAll (rs : List Request) : AppData :=
  { data with sent := data.sent ++ rs }

/-- `data.wm.manage_dirty()`. -/
def manageDirty : AppData :=
  data.send .manageDirty

/-- A new object of the window manager. -/
def allocate : ObjectId × AppData :=
  (data.nextObject, { data with nextObject := data.nextObject + 1 })

def modifyState (f : State → State) : AppData :=
  { data with state := f data.state }

/-- An operation on the state that may panic. -/
def modifyStateM (f : State → Option State) : Option AppData := do
  return { data with state := ← f data.state }

end AppData

end Streamwm
