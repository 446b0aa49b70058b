import Streamwm.Library.Handles
import Streamwm.Refinement

/-!
# Render nodes

River keeps at most one live node for a window. `get_node` creates it, a second one is a
fatal error while it lives, and the node's `destroy` frees it : the handles of
`Handles.Table`, with windows for owners. `Scene` adds which nodes were given a position and
raised since the render sequence began. `Scene.Admits` says of a request that it is no error
at that moment, and of `show` that the window has a live node, positioned and raised in this
render sequence.

A `Stage` is the window manager and river's nodes side by side; the only thing asked of
river is that it announces a window under an object that no window has.
-/

namespace Streamwm

open Handles

/-- What river keeps about nodes. -/
structure Scene where
  /-- The live node of a window. -/
  nodes : Table ObjectId
  /-- The nodes given a position in this render sequence. -/
  positioned : List ObjectId
  /-- The nodes placed on top in this render sequence. -/
  raised : List ObjectId

namespace Scene

/-- River before it sends anything. -/
def new : Scene :=
  { nodes := fun _ => none, positioned := [], raised := [] }

variable (v : Scene)

/-- A render sequence begins. -/
def observe : Event → Scene
  | .renderStart _ => { v with positioned := [], raised := [] }
  | _ => v

/-- River carries out a request. -/
def request : Request → Scene
  | .getNode window node => { v with nodes := v.nodes.call (.acquire window node) }
  | .destroyNode node => { v with nodes := v.nodes.call (.release node) }
  | .setPosition node _ _ => { v with positioned := node :: v.positioned }
  | .placeTop node => { v with raised := node :: v.raised }
  | _ => v

def requests (rs : List Request) : Scene :=
  rs.foldl request v

/-- A request that is in order at this moment. -/
def Admits : Request → Prop
  | .getNode window node => v.nodes.Allows (.acquire window node)
  | .destroyNode node => v.nodes.Allows (.release node)
  | .setPosition node _ _ => ∃ window, v.nodes window = some node
  | .placeTop node => ∃ window, v.nodes window = some node
  | .show window => ∃ node, v.nodes window = some node ∧ node ∈ v.positioned ∧ node ∈ v.raised
  | _ => True

/-- One request after the other. -/
def AdmitsAll : Scene → List Request → Prop
  | _, [] => True
  | v, r :: rs => v.Admits r ∧ AdmitsAll (v.request r) rs

end Scene

/-- The window manager and river's nodes. -/
structure Stage where
  data : AppData
  scene : Scene

namespace Stage

/-- The stage when the event loop starts. -/
def new (config : Config) (xkb layerShell cursorShapeManager : Bool) : Stage :=
  { data := AppData.new config xkb layerShell cursorShapeManager, scene := Scene.new }

/-- River may send the event : a window it announces has an object of its own. -/
def sends (p : Stage) : Event → Bool
  | .newWindow window => !p.data.state.windows.any fun w => w.proxy == window
  | _ => true

/-- One event; `none` when river does not send it or its handler panics. -/
def next (p : Stage) (event : Event) : Option Stage :=
  if p.sends event then do
    let data ← p.data.handle event
    return ⟨data, (p.scene.observe event).requests (data.sent.drop p.data.sent.length)⟩
  else none

def Step (p : Stage) (event : Event) (p' : Stage) : Prop :=
  p.next event = some p'

end Stage

/-! ## Requests -/

/-- A call on the nodes as a request. -/
def nodeRequest : Call ObjectId → Request
  | .acquire window node => .getNode window node
  | .release node => .destroyNode node

namespace Scene

variable {v : Scene} {rs : List Request}

theorem requests_append (rs rs' : List Request) :
    v.requests (rs ++ rs') = (v.requests rs).requests rs' :=
  List.foldl_append

theorem admitsAll_append : ∀ {rs rs' : List Request} {v : Scene},
    v.AdmitsAll (rs ++ rs') ↔ v.AdmitsAll rs ∧ (v.requests rs).AdmitsAll rs'
  | [], _, _ => (iff_of_eq (true_and _)).symm
  | _ :: _, _, _ =>
    (and_congr_right fun _ => admitsAll_append).trans and_assoc.symm

/-- Requests about other things. -/
theorem admitsAll_of_not : ∀ {rs : List Request} {v : Scene},
    (∀ r ∈ rs, r.OfNodes = false) → v.AdmitsAll rs ∧ v.requests rs = v
  | [], _, _ => ⟨trivial, rfl⟩
  | r :: rs, v, h => by
    have hr := h r List.mem_cons_self
    have hadmits : v.Admits r ∧ v.request r = v := by
      cases r <;> first | exact ⟨trivial, rfl⟩ | cases hr
    obtain ⟨hrs, hv⟩ := admitsAll_of_not (v := v) fun r' hr' => h r' (List.mem_cons_of_mem _ hr')
    refine ⟨⟨hadmits.1, hadmits.2.symm ▸ hrs⟩, ?_⟩
    change (v.request r).requests rs = v
    rw [hadmits.2, hv]

/-- Calls on the nodes. -/
theorem admitsAll_calls : ∀ (cs : List (Call ObjectId)) (v : Scene),
    (v.AdmitsAll (cs.map nodeRequest) ↔ v.nodes.AllowsAll cs) ∧
      v.requests (cs.map nodeRequest) = { v with nodes := v.nodes.calls cs }
  | [], _ => ⟨Iff.rfl, rfl⟩
  | .acquire window node :: cs, v => by
    have h := admitsAll_calls cs (v.request (.getNode window node))
    exact ⟨and_congr Iff.rfl h.1, h.2⟩
  | .release node :: cs, v => by
    have h := admitsAll_calls cs (v.request (.destroyNode node))
    exact ⟨and_congr Iff.rfl h.1, h.2⟩

end Scene

end Streamwm
