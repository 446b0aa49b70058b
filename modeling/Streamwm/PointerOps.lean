import Streamwm.Bindings

/-!
# Interactive pointer operations

The pointer half of `src/bindings.rs`. A press on a pointer binding or a request of a
client stages an operation in `pendingOp`; the next manage sequence starts it
(`processPointerOps`), after which every `op_delta` moves or resizes its window; a release
sets `opEndRequested`, which the next manage sequence answers with `op_end`.
-/

namespace Streamwm

/-- The cursor shown while an operation runs. -/
def cursorShape (kind : OpKind) (edges : Edges) : CursorShape :=
  match kind with
  | .move => .move
  | .resize =>
    match edges.left, edges.right, edges.top, edges.bottom with
    | true, true, true, true => .allResize
    | true, true, _, _ => .ewResize
    | _, _, true, true => .nsResize
    | true, false, true, false => .nwseResize
    | true, false, false, true => .neswResize
    | false, true, true, false => .neswResize
    | false, true, false, true => .nwseResize
    | true, false, _, _ => .wResize
    | false, true, _, _ => .eResize
    | false, false, true, false => .nResize
    | false, false, false, true => .sResize
    | _, _, _, _ => .allResize

/-- The geometry an operation gives its window for the delta `(dx, dy)`. -/
def PointerOp.drag (op : PointerOp) (dx dy : ℤ) (w : Window) : Window :=
  match op.kind with
  | .move =>
    { w with floatX := op.startFloatX + (dx - op.startX)
             floatY := op.startFloatY + (dy - op.startY) }
  | .resize =>
    let edx := dx - op.startX
    let edy := dy - op.startY
    -- dragging a top or left edge moves the origin too
    let nx := if op.edges.left then op.startFloatX + edx else op.startFloatX
    let nw : ℤ := if op.edges.left then op.startW - edx else op.startW + edx
    let ny := if op.edges.top then op.startFloatY + edy else op.startFloatY
    let nh : ℤ := if op.edges.top then op.startH - edy else op.startH + edy
    { w with floatX := nx, floatY := ny
             floatW := (max nw 50).toNat, floatH := (max nh 50).toNat }

namespace AppData

variable (data : AppData)

/-- The seat whose pointer is over a window, if that is a floating window. -/
def pointedWindow : Option (Seat × Window) :=
  match data.state.seats.findSome? fun s => s.pointerWindow.map fun w => (s, w) with
  | none => none
  | some (seat, wid) => ((data.state.findWindow wid).filter (·.floating)).map fun w => (seat, w)

/-- Start an operation on the floating window under the pointer. -/
def startPointerOp (binding : ObjectId) : AppData :=
  match (data.pointerBindings.find? fun b => b.1 == binding).map (·.2.1) with
  | none => data
  | some action =>
    match data.pointedWindow with
    | none => data
    | some (seat, w) =>
      let kind := if action = "move" then OpKind.move else OpKind.resize
      let edges := if kind = .resize then { Edges.empty with bottom := true, right := true }
        else Edges.empty
      { data with
        pendingOp := some
          { window := w.id, kind, startX := seat.pointerX, startY := seat.pointerY
            startFloatX := w.floatX, startFloatY := w.floatY
            startW := w.floatW, startH := w.floatH, edges, seat := seat.proxy } }.manageDirty

/-- Float a window for an operation it asks for itself. -/
def floatForOp (wid : ℕ) : Option AppData := do
  let geom := ((← data.state.computeAll data.config).find? fun p => p.1 == wid).map (·.2)
  return data.modifyState fun s => s.modifyWindow wid fun w =>
    if w.floating then w
    else
      match geom with
      | some g =>
        { w with floatX := g.x, floatY := g.y, floatW := g.width, floatH := g.height
                 floating := true }
      | none => { w with floating := true }

/-- Start an operation requested by the window itself. -/
def startInteractiveOp (wid : ℕ) (seat : ObjectId) (kind : OpKind) (edges : Edges) :
    Option AppData := do
  let data ← data.floatForOp wid
  let pos := ((data.state.seats.find? fun s => s.proxy == seat).map fun s =>
    (s.pointerX, s.pointerY)).getD (0, 0)
  match data.state.findWindow wid with
  | none => return data
  | some w =>
    return { data with
      pendingOp := some
        { window := wid, kind, startX := pos.1, startY := pos.2
          startFloatX := w.floatX, startFloatY := w.floatY
          startW := w.floatW, startH := w.floatH, edges, seat } }.manageDirty

/-- Apply a cumulative pointer delta to the active operation. -/
def applyPointerDelta (dx dy : ℤ) : AppData :=
  match data.pointerOp with
  | none => data
  | some op => data.modifyState fun s => s.modifyWindow op.window (op.drag dx dy)

/-- Ask for the end of the operation. -/
def endPointerOp : AppData :=
  if data.pointerOp.isSome || data.pendingOp.isSome then
    { data with opEndRequested := true }.manageDirty
  else data

/-- Set the cursor of a seat. -/
def setSeatCursor (seat : ObjectId) (shape : CursorShape) : AppData :=
  match data.state.seats.find? fun s => s.proxy == seat with
  | none => data
  | some s =>
    match s.pointer with
    | none => data
    | some pointer =>
      match s.cursorShape with
      | some device => data.send (.setCursorShape device shape)
      | none => data.send (.setDefaultCursor pointer)

/-- Start the pending operation. -/
def startPendingOp : AppData :=
  match data.pendingOp with
  | none => data
  | some op =>
    let data := { data with pendingOp := none }.setSeatCursor op.seat (cursorShape op.kind op.edges)
    { data.send (.opStartPointer op.seat op.window) with pointerOp := some op }

/-- End the active operation, if that is requested. -/
def endRequestedOp : AppData :=
  if data.opEndRequested then
    let data := { data with opEndRequested := false }
    match data.pointerOp with
    | none => data
    | some op =>
      (({ data with pointerOp := none } : AppData).send (.opEnd op.seat)).setSeatCursor op.seat
        .default
  else data

/-- Start and end operations, in a manage sequence. -/
def processPointerOps : AppData :=
  data.startPendingOp.endRequestedOp

end AppData

end Streamwm
