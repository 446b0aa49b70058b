import Streamwm.Nodes
import Streamwm.Render
import Streamwm.WindowFrame

/-!
# The render node protocol

`Orderly` says that a handler's requests are in order from every scene that has the window
manager's nodes, and lead to such a scene. Most handlers concern no node (`Untouched`). A new
window is a new owner without a node, a closed one has its node destroyed and is forgotten,
and a render sequence is three passes over the windows (`NodePass`) : release, create,
release. After the second release every window that is placed and not hidden still has its
node, for what its tag's owner shows is on an active tag. So each `show` follows a position
and a raise of a live node.

`node_protocol` : in every run of the event loop every request is in order, and the window
manager knows which nodes are live.
-/

namespace Streamwm

open Handles Partial Transition

/-! ## Passes over the windows -/

/-- What a pass over the windows does about their nodes. -/
structure NodePass (d d' : AppData) : Prop where
  moves : ∃ cs, d'.sent = d.sent ++ cs.map nodeRequest ∧
    Moves d.nextObject d'.nextObject (d.state.windows.map Window.held)
      (d'.state.windows.map Window.held) cs

namespace Window

/-- A window's node is released, if it has one. -/
theorem move_releaseNode (active : List ℕ) (w : Window) (n : ℕ) :
    ∃ cs, (w.releaseNode active).2 = cs.map nodeRequest ∧
      Move n n w.held (w.releaseNode active).1.held cs := by
  unfold releaseNode
  split_ifs
  · exact ⟨[], rfl, .keep w.held (le_refl n)⟩
  · cases hnode : w.node with
    | none =>
      have hheld : ({ w with node := none } : Window).held = w.held := Prod.ext rfl hnode.symm
      exact ⟨[], rfl, hheld ▸ .keep w.held (le_refl n)⟩
    | some node =>
      have hheld : w.held = (w.proxy, some node) := Prod.ext rfl hnode
      exact ⟨[.release node], rfl, hheld ▸ .release w.proxy node (le_refl n)⟩

/-- A visible window without a node gets the next one. -/
theorem move_takeNode (visible : Bool) (w : Window) (n : ℕ) :
    ∃ cs, (w.takeNode n visible).2 = cs.map nodeRequest ∧
      Move n (n + 1) w.held (w.takeNode n visible).1.held cs := by
  unfold takeNode
  split_ifs with h
  · have hnone : w.node = none := by simpa using (Bool.and_eq_true_iff.mp h).1
    have hheld : w.held = (w.proxy, none) := Prod.ext rfl hnone
    exact ⟨[.acquire w.proxy n], rfl, hheld ▸ .acquire w.proxy (Nat.lt_succ_self n)⟩
  · exact ⟨[], rfl, .keep w.held (Nat.le_succ n)⟩

end Window

theorem moves_releaseNode (active : List ℕ) (n : ℕ) : ∀ ws : List Window,
    ∃ cs, ws.flatMap (fun w => (w.releaseNode active).2) = cs.map nodeRequest ∧
      Moves n n (ws.map Window.held) (ws.map fun w => (w.releaseNode active).1.held) cs
  | [] => ⟨[], rfl, .nil n⟩
  | w :: ws => by
    obtain ⟨cs, hcs, hmove⟩ := w.move_releaseNode active n
    obtain ⟨ds, hds, hmoves⟩ := moves_releaseNode active n ws
    exact ⟨cs ++ ds, by rw [List.flatMap_cons, hcs, hds, List.map_append], .cons hmove hmoves⟩

theorem moves_takeNode (visible : Window → Bool) (n : ℕ) : ∀ (ws : List Window) (i : ℕ),
    ∃ cs, (ws.zipIdx i).flatMap (fun p => (p.1.takeNode (n + p.2) (visible p.1)).2) =
        cs.map nodeRequest ∧
      Moves (n + i) (n + i + ws.length) (ws.map Window.held)
        ((ws.zipIdx i).map fun p => (p.1.takeNode (n + p.2) (visible p.1)).1.held) cs
  | [], i => ⟨[], rfl, .nil (n + i)⟩
  | w :: ws, i => by
    obtain ⟨cs, hcs, hmove⟩ := w.move_takeNode (visible w) (n + i)
    obtain ⟨ds, hds, hmoves⟩ := moves_takeNode visible n ws (i + 1)
    rw [List.zipIdx_cons]
    refine ⟨cs ++ ds, by rw [List.flatMap_cons, hcs, hds, List.map_append], .cons hmove ?_⟩
    rw [List.length_cons, show n + i + (ws.length + 1) = n + (i + 1) + ws.length by omega]
    exact hmoves

namespace AppData

variable {d d' d'' : AppData}

theorem nodePass_releaseHiddenNodes (d : AppData) : NodePass d d.releaseHiddenNodes := by
  obtain ⟨cs, hcs, hmoves⟩ := moves_releaseNode (d.state.outputs.map (·.activeTag)) d.nextObject
    d.state.windows
  refine ⟨cs, congrArg (d.sent ++ ·) hcs, ?_⟩
  change Moves _ _ _ ((d.state.windows.map _).map _) cs
  rw [List.map_map]
  exact hmoves

theorem nodePass_createNodes (d : AppData) : NodePass d d.createNodes := by
  obtain ⟨cs, hcs, hmoves⟩ := moves_takeNode d.state.windowIsVisible d.nextObject d.state.windows 0
  refine ⟨cs, ?_, ?_⟩
  · rw [← hcs]
    exact congrArg (d.sent ++ ·) (List.flatMap_map _ _ _)
  · change Moves _ _ _ (((d.state.windows.zipIdx.map _).map _).map _) cs
    rw [List.map_map, List.map_map]
    exact hmoves

end AppData

/-! ## Handlers in order -/

/-- The nodes of a scene are those of the window manager. -/
def AppData.TracksNodes (d : AppData) (v : Scene) : Prop :=
  Tracks v.nodes d.nextObject (d.state.windows.map Window.held)

/-- From a scene that has the window manager's nodes, the requests are in order and lead to
such a scene. -/
def Orderly (d d' : AppData) : Prop :=
  ∃ rs, d'.sent = d.sent ++ rs ∧
    ∀ v : Scene, d.TracksNodes v → v.AdmitsAll rs ∧ d'.TracksNodes (v.requests rs)

section

variable {d d' d'' : AppData}

theorem Orderly.trans (h : Orderly d d') (h' : Orderly d' d'') : Orderly d d'' := by
  obtain ⟨rs, hrs, hv⟩ := h
  obtain ⟨rs', hrs', hv'⟩ := h'
  refine ⟨rs ++ rs', by rw [hrs', hrs, List.append_assoc], fun v htracks => ?_⟩
  obtain ⟨hadmits, htracks⟩ := hv v htracks
  rw [Scene.admitsAll_append, Scene.requests_append]
  exact ⟨⟨hadmits, (hv' _ htracks).1⟩, (hv' _ htracks).2⟩

theorem Untouched.orderly (h : Untouched d d') : Orderly d d' := by
  obtain ⟨rs, hrs, hm⟩ := h.noNodes
  refine ⟨rs, hrs, fun v htracks => ?_⟩
  obtain ⟨hadmits, heq⟩ := Scene.admitsAll_of_not (v := v) hm
  rw [heq, AppData.TracksNodes, h.held]
  exact ⟨hadmits, htracks.mono h.nextObject⟩

theorem NodePass.orderly (h : NodePass d d') : Orderly d d' := by
  obtain ⟨cs, hcs, hmoves⟩ := h.moves
  refine ⟨cs.map nodeRequest, hcs, fun v htracks => ?_⟩
  obtain ⟨hiff, hrequests⟩ := Scene.admitsAll_calls cs v
  have hheld : Tracks v.nodes d.nextObject ([] ++ d.state.windows.map Window.held) := htracks
  obtain ⟨hallows, htracks'⟩ := hheld.moves hmoves
  rw [hiff, hrequests]
  exact ⟨hallows, htracks'⟩

/-! ### Showing windows -/

/-- A window with a node that is not hidden is positioned, raised and shown. -/
theorem renderWindow_eq {config : Config} {focused : Option ℕ} {p : ℕ × Placement} {w : Window}
    {node : ObjectId} (hw : d.state.findWindow p.1 = some w) (hnode : w.node = some node)
    (hp : p.2 ≠ .hidden) : ∃ x y d₁,
      Untouched (d.sendAll [.setPosition node x y, .placeTop node]) d₁ ∧
        d.renderWindow config focused p = d₁.send (.show w.proxy) := by
  have hborder (d₀ : AppData) (r : Request) (hr : r.OfNodes = false) (b : Bool × ℕ × ℕ × ℕ × ℕ) :
      Untouched d₀ (if w.borderApplied ≠ some b then (d₀.send r).modifyState fun s =>
        s.modifyWindow p.1 fun w => { w with borderApplied := some b } else d₀) := by
    split_ifs
    · refine ((Untouched.refl d₀).send hr).trans ⟨?_, le_refl _, [], (List.append_nil _).symm, by simp⟩
      exact State.held_modifyWindow p.1 (fun _ => by rfl) (d₀.send r).state
    · exact Untouched.refl d₀
  unfold AppData.renderWindow
  rw [hw]
  simp only [hp, if_false, hnode, Option.map_some, Option.getD_some]
  refine ⟨_, _, _, hborder _ _ ?_ _, rfl⟩
  rfl

theorem orderly_renderWindow (config : Config) (focused : Option ℕ) (p : ℕ × Placement)
    (hnode : p.2 ≠ .hidden → ∀ w, d.state.findWindow p.1 = some w → w.node.isSome = true) :
    Orderly d (d.renderWindow config focused p) := by
  cases hw : d.state.findWindow p.1 with
  | none =>
    have hsame : d.renderWindow config focused p = d := by
      unfold AppData.renderWindow
      rw [hw]
    exact hsame.symm ▸ (Untouched.refl d).orderly
  | some w =>
    by_cases hp : p.2 = .hidden
    · have hhide : d.renderWindow config focused p = d.send (.hide w.proxy) := by
        unfold AppData.renderWindow
        rw [hw]
        simp only [hp, if_true]
      exact hhide.symm ▸ ((Untouched.refl d).send rfl).orderly
    obtain ⟨node, hsome⟩ := Option.isSome_iff_exists.mp (hnode hp w hw)
    obtain ⟨x, y, d₁, hborders, heq⟩ := renderWindow_eq hw hsome hp
    obtain ⟨rs, hrs, hm⟩ := hborders.noNodes
    rw [heq]
    refine ⟨[.setPosition node x y, .placeTop node] ++ rs ++ [.show w.proxy],
      by simp [AppData.send, AppData.sendAll, hrs], fun v htracks => ?_⟩
    have hlive : v.nodes w.proxy = some node := by
      have hknown := htracks.known w.held (List.mem_map_of_mem (State.mem_of_findWindow hw).1)
      exact hknown.trans hsome
    obtain ⟨hadmits, hv⟩ := Scene.admitsAll_of_not
      (v := v.requests [.setPosition node x y, .placeTop node]) hm
    have hall : v.requests ([.setPosition node x y, .placeTop node] ++ rs) =
        v.requests [.setPosition node x y, .placeTop node] :=
      (Scene.requests_append _ rs).trans hv
    rw [Scene.admitsAll_append, Scene.admitsAll_append, Scene.requests_append _ [_], hall]
    refine ⟨⟨⟨⟨⟨w.proxy, hlive⟩, ⟨w.proxy, hlive⟩, trivial⟩, hadmits⟩,
      ⟨⟨node, hlive, List.mem_cons_self, List.mem_cons_self⟩, trivial⟩⟩, ?_⟩
    have hheld := hborders.held
    change Tracks v.nodes d₁.nextObject (d₁.state.windows.map Window.held)
    rw [hheld]
    exact htracks.mono hborders.nextObject

/-- Over all placements. -/
theorem orderly_renderWindows (focused : Option ℕ) : ∀ (ps : List (ℕ × Placement)) {d : AppData},
    (∀ p ∈ ps, p.2 ≠ .hidden → ∀ w, d.state.findWindow p.1 = some w → w.node.isSome = true) →
      Orderly d (d.renderWindows focused ps)
  | [], d, _ => (Untouched.refl d).orderly
  | p :: ps, d, hnode => by
    refine (orderly_renderWindow d.config focused p (hnode p List.mem_cons_self)).trans
      (orderly_renderWindows focused ps fun q hq hhidden w' hw' => ?_)
    have hdrawn := (AppData.drawn_renderWindow d.config focused p d).flip
    obtain ⟨w, hw, border, rfl⟩ := State.findWindow_of_forall₂ (fun _ _ h => by
      obtain ⟨border, rfl⟩ := h
      rfl) hdrawn hw'
    exact hnode q (List.mem_cons_of_mem _ hq) hhidden w hw

/-! ### Render sequences -/

/-- A visible window keeps its node : what its tag's owner shows is on an active tag. -/
theorem mem_of_mem_releaseHiddenNodes {w : Window} (hw : w ∈ d.releaseHiddenNodes.state.windows)
    (hvis : d.state.windowIsVisible w = true) : w ∈ d.state.windows := by
  obtain ⟨v, hv, rfl⟩ := List.mem_map.mp hw
  by_cases hactive : (d.state.outputs.map (·.activeTag)).contains v.tag = true
  · rw [Window.releaseNode, if_pos hactive]
    exact hv
  · rw [Window.releaseNode, if_neg hactive] at hvis
    obtain ⟨i, -, hshown⟩ := State.windowIsVisible_iff.mp hvis
    have hmem : v.tag ∈ d.state.outputs.map (·.activeTag) :=
      List.mem_of_getElem? ((List.getElem?_map ..).trans hshown)
    exact absurd (List.contains_iff_mem.mpr hmem) hactive

/-- A visible window gets a node. -/
theorem isSome_node_createNodes {w : Window} (hw : w ∈ d.createNodes.state.windows)
    (hvis : d.state.windowIsVisible w = true) : w.node.isSome = true := by
  obtain ⟨q, hq, rfl⟩ := List.mem_map.mp hw
  obtain ⟨p, -, rfl⟩ := List.mem_map.mp hq
  obtain ⟨border, node, hrendered⟩ :=
    Window.rendered_takeNode (d.nextObject + p.2) (d.state.windowIsVisible p.1) p.1
  have hsame : d.state.windowIsVisible p.1 = true := by
    rw [hrendered] at hvis
    exact hvis
  unfold Window.takeNode
  rw [hsame]
  cases hnode : p.1.node with
  | none => rfl
  | some node => simp [hnode]

theorem isSome_node_beginRender {w : Window} (hw : w ∈ d.beginRender.state.windows)
    (hvis : d.beginRender.state.windowIsVisible w = true) : w.node.isSome = true :=
  isSome_node_createNodes (mem_of_mem_releaseHiddenNodes hw hvis) hvis

theorem orderly_beginRender (d : AppData) : Orderly d d.beginRender :=
  ((AppData.nodePass_releaseHiddenNodes d).orderly.trans
    (AppData.nodePass_createNodes _).orderly).trans (AppData.nodePass_releaseHiddenNodes _).orderly

/-- In a render sequence every window that is shown has a live node. -/
theorem orderly_onRenderStart (hs : d.state.WellFormed) (hids : d.state.FreshIds)
    (hasClients : Bool) : ∃ d', d.onRenderStart hasClients = some d' ∧ Orderly d d' := by
  obtain ⟨d', ps, focused, hd', hps, -, -, hinert⟩ := AppData.onRenderStart_spec hs hasClients
  have hfresh : d.beginRender.state.FreshIds :=
    hids.of_reachable hs (AppData.idle_beginRender.steps.mono fun _ _ _ h => h.2)
  refine ⟨d', hd', ((orderly_beginRender d).trans
    (orderly_renderWindows focused ps fun p hp hhidden w hw => ?_)).trans hinert.toUntouched.orderly⟩
  obtain ⟨gs, -, v, hv, rfl⟩ := (State.mem_placements _ hps).mp hp
  obtain ⟨hmem, hid⟩ := State.mem_of_findWindow hw
  obtain rfl := hfresh.eq_of_id hmem hv hid
  refine isSome_node_beginRender hmem ?_
  rw [Ne, State.placement_eq_hidden_iff, not_or, Bool.not_eq_false] at hhidden
  exact hhidden.2

/-! ### Windows come and go -/

/-- A new window is a new owner without a node. -/
theorem orderly_newWindow {window : ObjectId}
    (hnew : window ∉ d.state.windows.map (·.proxy)) : Orderly d (d.newWindow window) := by
  refine ⟨[], (List.append_nil _).symm, fun v htracks => ⟨trivial, ?_⟩⟩
  have hfst : (d.state.windows.map Window.held).map Prod.fst = d.state.windows.map (·.proxy) := by
    rw [List.map_map]
    rfl
  change Tracks v.nodes d.nextObject (List.map Window.held (d.state.windows ++ [_]))
  rw [List.map_append]
  exact (htracks.push (hfst ▸ hnew)).perm (List.perm_append_singleton _ _).symm

/-- A closed window's node is destroyed, and the window forgotten. -/
theorem orderly_windowClosed {w : Window} (hw : w ∈ d.state.windows) :
    Orderly d (d.windowClosed w.proxy w) := by
  have hcalls : (w.node.map Request.destroyNode).toList =
      ((w.node.map Call.release).toList).map nodeRequest := by
    cases w.node <;> rfl
  have hsent : (d.windowClosed w.proxy w).sent =
      d.sent ++ ((w.node.map Request.destroyNode).toList ++ [.destroy w.proxy]) :=
    List.append_assoc ..
  refine ⟨_, hsent, fun v htracks => ?_⟩
  obtain ⟨hallows, hgone⟩ := htracks.remove (List.mem_map_of_mem hw)
  obtain ⟨hiff, hrequests⟩ := Scene.admitsAll_calls (w.node.map Call.release).toList v
  rw [hcalls, Scene.admitsAll_append, Scene.requests_append, hiff, hrequests]
  refine ⟨⟨hallows, trivial, trivial⟩, ?_⟩
  change Tracks _ d.nextObject ((d.state.windows.filter _).map Window.held)
  rw [List.filter_map] at hgone
  exact hgone

theorem orderly_closed (hids : d.state.FreshIds) (window : ObjectId) :
    ∃ d', d.windowEvent window .closed = some d' ∧ Orderly d d' := by
  cases hid : d.state.findWindowByProxy window with
  | none => exact ⟨d, by simp [AppData.windowEvent, hid], (Untouched.refl d).orderly⟩
  | some id =>
    obtain ⟨w, hw, rfl⟩ := Option.map_eq_some_iff.mp hid
    have hmem := List.mem_of_find?_eq_some hw
    have hproxy : w.proxy = window := by simpa using List.find?_some hw
    exact ⟨d.windowClosed window w, by simp [AppData.windowEvent, hid, hids.findWindow hmem],
      hproxy ▸ orderly_windowClosed hmem⟩

/-! ### All events -/

/-- Every event is handled in order; a window is announced under a new object. -/
theorem orderly_handle (hs : d.state.WellFormed) (hids : d.state.FreshIds) (event : Event)
    (hnew : ∀ window, event = .newWindow window → window ∉ d.state.windows.map (·.proxy)) :
    ∃ d', d.handle event = some d' ∧ Orderly d d' := by
  by_cases hrender : ∃ hasClients, event = .renderStart hasClients
  · obtain ⟨hasClients, rfl⟩ := hrender
    exact orderly_onRenderStart hs hids hasClients
  cases hevent : event.OfObjects with
  | false =>
    obtain ⟨d', hd', hsteady⟩ := AppData.steady_handle hs hevent fun c hc => hrender ⟨c, hc⟩
    exact ⟨d', hd', hsteady.toUntouched.orderly⟩
  | true =>
    unfold Event.OfObjects at hevent
    split at hevent
    · next window => exact ⟨_, rfl, orderly_newWindow (hnew window rfl)⟩
    · next output =>
      obtain ⟨d', s, hd', -, -, -, hnodes⟩ := AppData.apart_newOutput hs output
      exact ⟨d', hd', hnodes.orderly⟩
    · obtain ⟨d', hd', hnodes⟩ := AppData.untouched_onManageStart hs
      exact ⟨d', hd', hnodes.orderly⟩
    · next window => exact orderly_closed hids window
    · next output =>
      obtain ⟨d', hd', hnodes, -⟩ := AppData.outputEvent_spec hs output .removed
      exact ⟨d', hd', hnodes.orderly⟩
    · simp at hevent

end

/-! ## Runs -/

namespace Stage

variable {p p' : Stage} {event : Event}

/-- Every window's node is the one river keeps for it, and river keeps no other. -/
def Agrees (p : Stage) : Prop :=
  (∀ w ∈ p.data.state.windows, w.node = p.scene.nodes w.proxy) ∧
    ∀ window, (p.scene.nodes window).isSome = true →
      ∃ w ∈ p.data.state.windows, w.proxy = window

/-- What holds around every event. -/
structure Invariant (p : Stage) : Prop where
  wellFormed : p.data.state.WellFormed
  freshIds : p.data.state.FreshIds
  tracks : p.data.TracksNodes p.scene

theorem Invariant.agrees (hp : p.Invariant) : p.Agrees := by
  refine ⟨fun w hw => (hp.tracks.known w.held (List.mem_map_of_mem hw)).symm, fun window hlive => ?_⟩
  by_contra hnone
  have hunknown : window ∉ (p.data.state.windows.map Window.held).map Prod.fst := by
    rw [List.map_map]
    intro hmem
    obtain ⟨w, hw, hproxy⟩ := List.mem_map.mp hmem
    exact hnone ⟨w, hw, hproxy⟩
  rw [hp.tracks.unknown window hunknown] at hlive
  cases hlive

theorem invariant_new (config : Config) (xkb layerShell cursorShapeManager : Bool) :
    (new config xkb layerShell cursorShapeManager).Invariant :=
  ⟨State.wellFormed_new _, State.freshIds_new _, Tracks.nil⟩

/-- A sequence begins with the nodes of the last. -/
theorem tracksNodes_observe {d : AppData} {v : Scene} (h : d.TracksNodes v) :
    d.TracksNodes (v.observe event) := by
  unfold Scene.observe
  split
  · exact h
  · exact h

/-- One event is handled in order. -/
theorem Invariant.step (hp : p.Invariant) (h : Step p event p') : p'.Invariant ∧
    (p.scene.observe event).AdmitsAll (p'.data.sent.drop p.data.sent.length) := by
  unfold Step next at h
  split_ifs at h with hsends
  obtain ⟨d', hd', h⟩ := Option.bind_eq_some_iff.mp h
  obtain rfl := Option.some.inj h
  have hnew : ∀ window, event = .newWindow window →
      window ∉ p.data.state.windows.map (·.proxy) := by
    rintro window rfl hmem
    obtain ⟨w, hw, hproxy⟩ := List.mem_map.mp hmem
    have hany : p.data.state.windows.any (fun w => w.proxy == window) = true :=
      List.any_eq_true.mpr ⟨w, hw, beq_iff_eq.mpr hproxy⟩
    rw [sends, hany] at hsends
    cases hsends
  obtain ⟨d₁, hd₁, rs, hsent, horderly⟩ := orderly_handle hp.wellFormed hp.freshIds event hnew
  obtain rfl := Option.some.inj (hd₁.symm.trans hd')
  obtain ⟨hadmits, htracks⟩ := horderly _ (tracksNodes_observe hp.tracks)
  obtain ⟨hwf, hreach⟩ := AppData.Step.wellFormed hp.wellFormed hd'
  have hdrop : d₁.sent.drop p.data.sent.length = rs := by
    rw [hsent, List.drop_left]
  refine ⟨⟨hwf, hp.freshIds.of_reachable hp.wellFormed hreach, ?_⟩, ?_⟩
  · change d₁.TracksNodes ((p.scene.observe event).requests (d₁.sent.drop p.data.sent.length))
    rw [hdrop]
    exact htracks
  · change (p.scene.observe event).AdmitsAll (d₁.sent.drop p.data.sent.length)
    rw [hdrop]
    exact hadmits

/-- In every run every request about nodes is in order : no window gets a second node while
its first is live, no node is destroyed that is not live, and a window that is shown has a
live node that this render sequence positioned and raised. After every event the window
manager knows which nodes are live. -/
theorem node_protocol {config : Config} {xkb layerShell cursorShapeManager : Bool}
    {τs : List (Transition.Step Stage Event)}
    (h : IsRun Step (new config xkb layerShell cursorShapeManager) τs) :
    ∀ τ ∈ τs, (τ.pre.scene.observe τ.event).AdmitsAll
        (τ.post.data.sent.drop τ.pre.data.sent.length) ∧ τ.post.Agrees := by
  have hinv := h.invariant (I := Invariant) (fun _ _ _ hp hst => (hp.step hst).1)
    (invariant_new config xkb layerShell cursorShapeManager)
  intro τ hτ
  obtain ⟨hpre, hpost⟩ := hinv τ hτ
  exact ⟨(hpre.step (h.step_of_mem hτ)).2, hpost.agrees⟩

/-- A window is shown, sent to another tag, brought back and closed. -/
theorem node_protocol_closed : ∃ τs,
    IsRun Step (new .default false false false) τs ∧ τs.length = 8 ∧
      ∀ τ ∈ τs, (τ.pre.scene.observe τ.event).AdmitsAll
        (τ.post.data.sent.drop τ.pre.data.sent.length) ∧ τ.post.Agrees := by
  have hrun := isRun_trace next [.newOutput 1, .newWindow 2, .renderStart false,
    .command (.focusTag 1 none), .renderStart false, .command (.focusTag 0 none),
    .renderStart false, .window 2 .closed] (new .default false false false)
  exact ⟨_, hrun, rfl, node_protocol hrun⟩

end Stage

end Streamwm
