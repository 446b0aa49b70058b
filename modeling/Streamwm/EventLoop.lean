import Streamwm.Manage

/-!
# The event loop

`Event` is what the single-threaded loop of `src/connection.rs` reacts to : the events
river can send, the commands and status requests of the socket, and the flush of pending
changes. `AppData.handle` dispatches one; `none` is a panic.
-/

namespace Streamwm

/-- What the event loop reacts to. -/
inductive Event
  -- `river_window_manager_v1`
  | unavailable
  | finished
  | newWindow (window : ObjectId)
  | newOutput (output : ObjectId)
  | newSeat (seat : ObjectId)
  | manageStart
  | renderStart (hasClients : Bool)
  -- other objects
  | window (window : ObjectId) (event : WindowEvent)
  | output (output : ObjectId) (event : OutputEvent)
  | nonExclusiveArea (layer : ObjectId) (x y width height : ℤ)
  | seat (seat : ObjectId) (event : SeatEvent)
  | wlOutputName (global : ℕ) (name : String)
  | bindingPressed (binding : ObjectId)
  | pointerBindingPressed (binding : ObjectId)
  | pointerBindingReleased (binding : ObjectId)
  -- the status socket
  | command (cmd : Command)
  | statusRequest
  | flushPending

namespace AppData

/-- Handle one event. -/
def handle (data : AppData) : Event → Option AppData
  | .unavailable | .finished => some { data with quit := true }
  | .newWindow window => some (data.newWindow window)
  | .newOutput output => data.newOutput output
  | .newSeat seat => some (data.newSeat seat)
  | .manageStart => data.onManageStart
  | .renderStart hasClients => data.onRenderStart hasClients
  | .window window event => data.windowEvent window event
  | .output output event => data.outputEvent output event
  | .nonExclusiveArea layer x y width height => data.nonExclusiveArea layer x y width height
  | .seat seat event => data.seatEvent seat event
  | .wlOutputName global name => some (data.wlOutputName global name)
  | .bindingPressed binding => data.dispatchAction binding
  | .pointerBindingPressed binding => some (data.startPointerOp binding)
  | .pointerBindingReleased _ => some data.endPointerOp
  | .command cmd => data.applyCommand cmd
  | .statusRequest => data.serviceStatusRequest
  | .flushPending => some data.flushPending

/-- One event is handled. -/
def Step (data : AppData) (event : Event) (data' : AppData) : Prop :=
  data.handle event = some data'

end AppData

end Streamwm
