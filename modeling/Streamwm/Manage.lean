import Streamwm.Events
import Streamwm.Status

/-!
# Manage and render sequences

`src/wm/mod.rs` and the rendering half of `src/wm/layout.rs`. A manage sequence starts
and ends pointer operations, refocuses every output, and sends the window management
requests; its fullscreen block (`Window.manage`) is the one place where the desired and
the applied fullscreen state of a window meet. A render sequence places the windows.

The requests of a step that changes no window are a function of the state; a step that
does is a function on one window that also returns its requests.
-/

namespace Streamwm

open Partial

/-- Clamp a proposal to an app's hints, zero meaning no preference. -/
def clampToHints (width height minWidth minHeight maxWidth maxHeight : ℕ) : ℕ × ℕ :=
  let clampDim := fun v lo hi : ℕ =>
    let out := if lo > 0 then max v lo else v
    if hi > 0 then min out hi else out
  (clampDim width minWidth maxWidth, clampDim height minHeight maxHeight)

namespace Window

/-- A window whose tag lost its owner lost fullscreen too. -/
def dropLostFullscreen (untagged outputsEmpty : Bool) (w : Window) : Window × List Request :=
  if w.fullscreenApplied && untagged && !outputsEmpty then
    ({ w with fullscreen := false, fullscreenApplied := false }, [.informNotFullscreen w.proxy])
  else (w, [])

/-- Advertise the capabilities, once. -/
def setCaps (w : Window) : Window × List Request :=
  if w.capsSet then (w, []) else ({ w with capsSet := true }, [.setCapabilities w.proxy])

/-- Ask for server-side or client-side decorations, when that changes. -/
def setDecorations (useSsd : Bool) (w : Window) : Window × List Request :=
  if w.ssdApplied ≠ some useSsd then
    ({ w with ssdApplied := some useSsd }, [if useSsd then .useSsd w.proxy else .useCsd w.proxy])
  else (w, [])

/-- Bring river's fullscreen state to the desired one. -/
def syncFullscreen (target : Option ObjectId) (w : Window) : Window × List Request :=
  if w.fullscreen ≠ w.fullscreenApplied then
    if w.fullscreen then
      match target with
      | some output =>
        ({ w with fullscreenApplied := true },
          [.fullscreen w.proxy output, .informFullscreen w.proxy])
      | none => (w, [])
    else
      ({ w with fullscreenApplied := false }, [.exitFullscreen w.proxy, .informNotFullscreen w.proxy])
  else (w, [])

/-- The fullscreen block for one window. -/
def manage (useSsd : Bool) (target : Option ObjectId) (untagged outputsEmpty : Bool) (w : Window) :
    Window × List Request :=
  let (w, r₁) := w.dropLostFullscreen untagged outputsEmpty
  let (w, r₂) := w.setCaps
  let (w, r₃) := w.setDecorations useSsd
  let (w, r₄) := w.syncFullscreen target
  (w, r₁ ++ r₂ ++ r₃ ++ r₄)

/-- Tell a window its tiled edges, when they change. -/
def setTiled (w : Window) : Window × List Request :=
  let isTiled := !w.floating && !w.fullscreen
  if w.tiledApplied = some isTiled then (w, [])
  else ({ w with tiledApplied := some isTiled },
    [.setTiled w.proxy (if isTiled then .all else .empty)])

/-- Give a visible window its render node. -/
def takeNode (node : ObjectId) (visible : Bool) (w : Window) : Window × List Request :=
  if w.node.isNone && visible then ({ w with node := some node }, [.getNode w.proxy node])
  else (w, [])

/-- Destroy the render node of a window whose tag is on no output. -/
def releaseNode (active : List ℕ) (w : Window) : Window × List Request :=
  if active.contains w.tag then (w, [])
  else ({ w with node := none }, (w.node.map Request.destroyNode).toList)

end Window

namespace State

variable (s : State) (config : Config)

/-- The output a window's fullscreen request names. -/
def fullscreenTarget (w : Window) : Option ObjectId :=
  (s.windowOutput w).bind s.outputProxy

/-- The fullscreen block of the manage sequence for one window. -/
def manageWindow (w : Window) : Window × List Request :=
  w.manage config.useSsd (s.fullscreenTarget w) (s.tagOwner w.tag).isNone s.outputs.isEmpty

/-- The window the manage sequence routes keyboard focus to. -/
def routedWindow : Option (Option Window) :=
  match s.activeOutput with
  | none => some none
  | some o => do return (← s.outputs[o]?).focusedWindow.bind s.findWindow

/-- Route keyboard focus. -/
def focusRequests (routed : Option Window) : List Request :=
  s.seats.map fun seat =>
    match routed with
    | some w => .focusWindow seat.proxy w.proxy
    | none => .clearFocus seat.proxy

/-- Propose its cell to a tiled window. -/
def proposeCell (p : ℕ × Geometry) : List Request :=
  if p.2.width = 0 ∨ p.2.height = 0 then []
  else
    match s.findWindow p.1 with
    | none => []
    | some w =>
      -- river sizes a fullscreen window
      if w.fullscreen then [.setDimensionBounds w.proxy 0 0]
      else [.setDimensionBounds w.proxy p.2.width p.2.height,
        .proposeDimensions w.proxy p.2.width p.2.height]

/-- Propose their size to the floating windows. -/
def proposeFloats : List Request :=
  (s.windows.filter (·.floating)).flatMap fun (w : Window) =>
    if w.floatW > 0 ∧ w.floatH > 0 then
      let p := clampToHints w.floatW w.floatH w.minWidth w.minHeight w.maxWidth w.maxHeight
      [.proposeDimensions w.proxy p.1 p.2]
    else []

/-- Warp every seat's pointer to the centre of an output. -/
def warpRequests (target : ℕ) : List Request :=
  match s.outputs[target]? with
  | none => []
  | some o => s.seats.map fun seat =>
      .pointerWarp seat.proxy (o.x + (o.width / 2 : ℕ)) (o.y + (o.height / 2 : ℕ))

/-- `for i in 0..n { refocus_output(i) }`. -/
def refocusAll : Option State :=
  loop (fun i s => s.refocusOutput i) 0 s.outputs.length s

end State

namespace AppData

variable (data : AppData)

/-- Update every window and send what the updates ask for. -/
def updateWindows (f : Window → Window × List Request) : AppData :=
  { data with
    state := { data.state with windows := data.state.windows.map fun w => (f w).1 }
    sent := data.sent ++ data.state.windows.flatMap fun w => (f w).2 }

/-- Apply deferred close requests. -/
def applyPendingClose : AppData :=
  { data with pendingClose := [] }.sendAll (data.pendingClose.flatMap fun fid =>
    ((data.state.findWindow fid).map fun (w : Window) => Request.close w.proxy).toList)

/-- Apply pending fullscreen state changes. -/
def applyFullscreen : AppData :=
  data.updateWindows (data.state.manageWindow data.config)

/-- Set the default layer-shell output, once. -/
def setLayerDefault : AppData :=
  if data.layerDefaultSet then data
  else
    match data.state.outputs.head?.bind (·.layer) with
    | some layer => { data.send (.layerSetDefault layer) with layerDefaultSet := true }
    | none => data

/-- Propose dimensions to tiled and floating windows. -/
def proposeAll (geometries : List (ℕ × Geometry)) : AppData :=
  data.sendAll (geometries.flatMap data.state.proposeCell ++ data.state.proposeFloats)

/-- Enable the bindings; those of resize mode only while it is active. -/
def enableBindings : AppData :=
  data.sendAll ((data.bindings.map fun b =>
      if isResizeBinding b.2.1 then
        if data.state.resizeMode then .enable b.1 else .disable b.1
      else .enable b.1) ++
    data.pointerBindings.map fun b => .enable b.1)

/-- Warp the pointer after a keyboard-driven output switch. -/
def applyPointerWarp : AppData :=
  match data.pendingPointerWarp with
  | none => data
  | some target => { data with pendingPointerWarp := none }.sendAll (data.state.warpRequests target)

/-- A manage sequence, up to the refocusing of the outputs. -/
def beginManage : Option AppData :=
  data.processPointerOps.modifyStateM State.refocusAll

/-- A manage sequence, from there to the routing of keyboard focus. -/
def manageWindows : AppData :=
  ((data.sendAll (data.state.windows.map fun w => Request.hide w.proxy)).applyPendingClose.applyFullscreen
    ).setLayerDefault

/-- The rest of a manage sequence. -/
def finishManage : Option AppData := do
  let data := data.sendAll (data.state.focusRequests (← data.state.routedWindow))
  let geometries ← data.state.computeAll data.config
  return ((((data.proposeAll geometries).updateWindows Window.setTiled).enableBindings
    ).applyPointerWarp).send .manageFinish

/-- A manage sequence. -/
def onManageStart : Option AppData := do
  (← data.beginManage).manageWindows.finishManage

/-! ## Rendering -/

/-- The value of a hexadecimal digit. -/
def hexDigit (c : Char) : Option ℕ :=
  if '0' ≤ c ∧ c ≤ '9' then some (c.toNat - 48)
  else if 'a' ≤ c ∧ c ≤ 'f' then some (c.toNat - 87)
  else if 'A' ≤ c ∧ c ≤ 'F' then some (c.toNat - 55)
  else none

/-- `u32::from_str_radix(s, 16)`. -/
def parseHex (s : List Char) : Option ℕ := do
  let digits := if s.head? = some '+' then s.tail else s
  if digits.isEmpty then none
  let v := (← digits.mapM hexDigit).foldl (fun acc d => acc * 16 + d) 0
  if v < 2 ^ 32 then some v else none

/-- Red, green and blue of a hex colour, black when it does not parse. -/
def color (hex : String) : ℕ × ℕ × ℕ :=
  let v := (parseHex (hex.toList.dropWhile (· == '#'))).getD 0
  (v / 65536 % 256, v / 256 % 256, v % 256)

/-- An 8-bit component as a 32-bit one. -/
def to32bit (v : ℕ) : ℕ :=
  v * 0xFFFFFFFF / 255

/-- Place one window. -/
def renderWindow (config : Config) (focused : Option ℕ) (p : ℕ × Placement) (data : AppData) :
    AppData :=
  match data.state.findWindow p.1 with
  | none => data
  | some w =>
    if p.2 = .hidden then data.send (.hide w.proxy)
    else
      let position := match p.2 with
        | .at g => (g.x, g.y)
        | _ => (0, 0)
      let data := data.sendAll ((w.node.map fun node =>
        [Request.setPosition node position.1 position.2, .placeTop node]).getD [])
      let isFocused := focused = some p.1
      let (r, g, b) := if isFocused then color config.focusedBorderColor else color config.borderColor
      let borderState := (decide isFocused, config.borderWidth, r, g, b)
      let data := if w.borderApplied ≠ some borderState then
          (data.send (.setBorders w.proxy .all config.borderWidth (to32bit r) (to32bit g) (to32bit b)
            (to32bit 0xff))).modifyState fun s =>
              s.modifyWindow p.1 fun w => { w with borderApplied := some borderState }
        else data
      data.send (.show w.proxy)

/-- Drop the render nodes of windows that are on no active tag. -/
def releaseHiddenNodes : AppData :=
  data.updateWindows (Window.releaseNode (data.state.outputs.map (·.activeTag)))

/-- Create the render nodes of visible windows; the new nodes are numbered by position. -/
def createNodes : AppData :=
  let s := data.state
  let nodes := s.windows.zipIdx.map fun p =>
    p.1.takeNode (data.nextObject + p.2) (s.windowIsVisible p.1)
  { data with
    state := { s with windows := nodes.map (·.1) }
    nextObject := data.nextObject + s.windows.length
    sent := data.sent ++ nodes.flatMap (·.2) }

/-- Apply the placements. -/
def renderAllRun (focused : Option ℕ) : Option AppData := do
  let data := data.releaseHiddenNodes
  let ps ← data.state.placements data.config
  return ps.foldl (fun data p => data.renderWindow data.config focused p) data

/-- A render sequence; `hasClients` says whether somebody subscribed to snapshots. -/
def onRenderStart (hasClients : Bool) : Option AppData := do
  let data := data.releaseHiddenNodes.createNodes
  let data ← data.renderAllRun (← data.state.activeFocusedWindow)
  (data.send .renderFinish).refreshSnapshot hasClients

end AppData

end Streamwm
