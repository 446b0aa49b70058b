import Streamwm.Library.Stacking
import Streamwm.NodeProtocol
import Streamwm.Tiling

/-!
# Placement and stacking

`placements` lists the windows in three blocks : hidden, tiled, floating (`placements_eq`).
The two tests for visibility agree : a window that is shown and does not float has a cell
in the layout of the output that owns its tag, and no other window has a cell
(`mem_computeOutput_iff`). A pass over the placements raises the nodes of the shown windows in
that order (`raises_renderWindows`), so the floating windows end on top, whatever the order
was before. Different windows hold different nodes in every run (`Stage.Invariant.nodesApart`).
-/

namespace Streamwm

open Partial Stacking

/-- The box of a window that floats. -/
def Window.box (w : Window) : Geometry :=
  { x := w.floatX, y := w.floatY, width := w.floatW, height := w.floatH }

/-- The node a request puts on top. -/
def Request.raised : Request → Option ObjectId
  | .placeTop node => some node
  | _ => none

namespace State

variable {s : State} {config : Config} {i : ℕ} {gs : List (ℕ × Geometry)} {w v : Window}

/-! ## Cells -/

/-- The windows with a cell are those on the output's active tag that do not float. -/
theorem map_fst_computeOutput (hgs : s.computeOutput config i = some gs) :
    ∃ out, s.outputs[i]? = some out ∧ gs.map (·.1) = (s.windows.filter fun w =>
      s.onActiveTag i out.activeTag w && !w.floating).map (·.id) := by
  cases hout : s.outputs[i]? with
  | none =>
    rw [computeOutput_of_none config hout] at hgs
    cases hgs
  | some out =>
    refine ⟨out, rfl, ?_⟩
    simp only [computeOutput, computeOutputIn, visibleWindows, hout, Option.bind_eq_bind,
      Option.bind_some, Option.pure_def] at hgs
    split_ifs at hgs with hempty
    · rw [← Option.some.inj hgs, List.isEmpty_iff.mp hempty]
      rfl
    · rw [← Option.some.inj hgs]
      exact map_fst_computeTiling _

theorem mem_computeOutput_iff (hgs : s.computeOutput config i = some gs) {id : ℕ} :
    (∃ g, (id, g) ∈ gs) ↔ ∃ w ∈ s.windows, w.id = id ∧ s.tagOwner w.tag = some i ∧
      s.shown i = some w.tag ∧ w.floating = false := by
  obtain ⟨out, hout, hkeys⟩ := map_fst_computeOutput hgs
  have hmem : (∃ g, (id, g) ∈ gs) ↔ id ∈ gs.map (·.1) := by simp
  rw [hmem, hkeys, List.mem_map]
  refine exists_congr fun w => ?_
  simp only [List.mem_filter, Bool.and_eq_true, onActiveTag_iff, Bool.not_eq_true', shown, hout,
    Option.map_some, Option.some.injEq]
  constructor
  · rintro ⟨⟨hw, ⟨hown, htag⟩, hfl⟩, hid⟩
    exact ⟨hw, hid, hown, htag.symm, hfl⟩
  · rintro ⟨hw, hid, hown, htag, hfl⟩
    exact ⟨⟨hw, ⟨hown, htag.symm⟩, hfl⟩, hid⟩

/-- A window has one cell. -/
theorem cell_unique (hids : (s.windows.map (·.id)).Nodup) (hgs : s.computeOutput config i = some gs)
    {id : ℕ} {g g' : Geometry} (h : (id, g) ∈ gs) (h' : (id, g') ∈ gs) : g = g' := by
  obtain ⟨out, -, hkeys⟩ := map_fst_computeOutput hgs
  have hnodup : (gs.map (·.1)).Nodup := by
    rw [hkeys]
    exact hids.sublist (List.filter_sublist.map _)
  exact congrArg Prod.snd (List.inj_on_of_nodup_map hnodup h h' rfl)

/-- The cells of all outputs are those of one of them. -/
theorem mem_computeAll_iff (hgs : s.computeAll config = some gs) {p : ℕ × Geometry} : p ∈ gs ↔
    ∃ i cells, s.computeOutput config i = some cells ∧ p ∈ cells := by
  obtain ⟨gss, hgss, hlen, hget⟩ := exists_mapM_range (f := s.computeOutput config)
    (n := s.outputs.length) fun i hi => exists_computeOutput config hi
  obtain rfl : gss.flatten = gs := by simpa [computeAll_eq, hgss] using hgs
  rw [List.mem_flatten]
  constructor
  · rintro ⟨cells, hcells, hp⟩
    obtain ⟨i, hi, hcell⟩ := List.mem_iff_getElem.mp hcells
    refine ⟨i, cells, ?_, hp⟩
    rw [← hget i (hlen ▸ hi), List.getElem?_eq_getElem hi, hcell]
  · rintro ⟨i, cells, hcells, hp⟩
    have hi : i < s.outputs.length := by
      by_contra hle
      have hnone : s.outputs[i]? = none := List.getElem?_eq_none (not_lt.mp hle)
      rw [computeOutput_of_none config hnone] at hcells
      cases hcells
    exact ⟨cells, List.mem_of_getElem? ((hget i hi).trans hcells), hp⟩

/-! ## Placements -/

/-- The blocks of the placements, with the windows they place. -/
def blocks (s : State) (place : Window → Placement) : List Window :=
  s.windows.filter (fun w => place w = .hidden) ++
    s.windows.filter (fun w => place w ≠ .hidden && !w.floating) ++
    s.windows.filter fun w => place w ≠ .hidden && w.floating

theorem placements_eq (hgs : s.computeAll config = some gs) : s.placements config =
    some ((s.blocks (s.placement gs)).map fun w => (w.id, s.placement gs w)) := by
  simp only [placements, hgs, Option.bind_eq_bind, Option.bind_some, Option.pure_def, blocks,
    List.filter_map, ← List.map_append, List.map_map]
  rfl

/-- Every window is in one block. -/
theorem perm_blocks (place : Window → Placement) : (s.blocks place).Perm s.windows := by
  have hshown : (s.windows.filter (fun w => place w ≠ .hidden && !w.floating) ++
      s.windows.filter fun w => place w ≠ .hidden && w.floating).Perm
      (s.windows.filter fun w => !decide (place w = .hidden)) := by
    have hsplit := List.filter_append_perm (·.floating)
      (s.windows.filter fun w => !decide (place w = .hidden))
    rw [List.filter_filter, List.filter_filter] at hsplit
    refine (List.perm_append_comm.trans (List.Perm.of_eq ?_)).trans hsplit
    congr 1 <;> refine List.filter_congr fun w _ => ?_ <;> simp [Bool.and_comm]
  rw [blocks, List.append_assoc]
  exact (hshown.append_left _).trans (List.filter_append_perm _ _)

theorem visible_of_shown (hw : s.placement gs w ≠ .hidden) :
    ∃ i, s.tagOwner w.tag = some i ∧ s.shown i = some w.tag := by
  rw [Ne, placement_eq_hidden_iff, not_or, Bool.not_eq_false] at hw
  exact windowIsVisible_iff.mp hw.2

/-- A window without a cell anywhere is placed at its box. -/
theorem placement_of_shown (hw : s.placement gs w ≠ .hidden) (hfull : w.fullscreen = false) :
    (∃ g, (w.id, g) ∈ gs ∧ s.placement gs w = .at g) ∨
      (∀ g, (w.id, g) ∉ gs) ∧ s.placement gs w = .at w.box := by
  have hshow : (w.minimized || !s.windowIsVisible w) = false := by
    rw [Ne, placement_eq_hidden_iff] at hw
    simpa using hw
  cases hfind : gs.find? fun p => p.1 == w.id with
  | none =>
    refine Or.inr ⟨fun g hmem => ?_, ?_⟩
    · simpa using List.find?_eq_none.mp hfind _ hmem
    · simp [placement, hshow, hfull, hfind, Window.box]
  | some p =>
    have hid : p.1 = w.id := by simpa using List.find?_some hfind
    refine Or.inl ⟨p.2, hid ▸ List.mem_of_find?_eq_some hfind, ?_⟩
    simp [placement, hshow, hfull, hfind]

/-- A window on a shown tag has a cell at the output that shows it iff it does not float. -/
theorem exists_cell_iff (hids : (s.windows.map (·.id)).Nodup) (hw : w ∈ s.windows)
    (hown : s.tagOwner w.tag = some i) (hshown : s.shown i = some w.tag)
    (hcells : s.computeOutput config i = some cells) :
    (∃ g, (w.id, g) ∈ cells) ↔ w.floating = false := by
  rw [mem_computeOutput_iff hcells]
  constructor
  · rintro ⟨v, hv, hid, -, -, hfl⟩
    rwa [List.inj_on_of_nodup_map hids hv hw hid] at hfl
  · exact fun hfl => ⟨w, hw, rfl, hown, hshown, hfl⟩

/-- It has no cell at another output. -/
theorem mem_computeAll_iff_of_owner {g : Geometry} (hids : (s.windows.map (·.id)).Nodup)
    (hgs : s.computeAll config = some gs) (hw : w ∈ s.windows) (hown : s.tagOwner w.tag = some i)
    (hcells : s.computeOutput config i = some cells) : (w.id, g) ∈ gs ↔ (w.id, g) ∈ cells := by
  rw [mem_computeAll_iff hgs]
  refine ⟨fun ⟨j, cells', hcells', hmem⟩ => ?_, fun hmem => ⟨i, cells, hcells, hmem⟩⟩
  obtain ⟨v, hv, hid, hown', -⟩ := (mem_computeOutput_iff hcells').mp ⟨g, hmem⟩
  rw [List.inj_on_of_nodup_map hids hv hw hid, hown] at hown'
  obtain rfl := Option.some.inj hown'
  exact (Option.some.inj (hcells.symm.trans hcells')) ▸ hmem

/-- A window that is shown and not fullscreen is placed in its cell when it has one, and it
has one when it does not float. -/
theorem placement_iff_floating (hids : (s.windows.map (·.id)).Nodup)
    (hgs : s.computeAll config = some gs) (hw : w ∈ s.windows) (hshow : s.placement gs w ≠ .hidden)
    (hfull : w.fullscreen = false) : ∃ i cells, s.tagOwner w.tag = some i ∧
      s.computeOutput config i = some cells ∧
      ((∃ g, (∀ g', (w.id, g') ∈ cells ↔ g' = g) ∧ s.placement gs w = .at g) ↔
        w.floating = false) ∧
      ((∀ g, (w.id, g) ∉ cells) ∧ s.placement gs w = .at w.box ↔ w.floating = true) := by
  obtain ⟨i, hown, hshown⟩ := visible_of_shown hshow
  obtain ⟨cells, hcells⟩ := exists_computeOutput config (lt_of_shown hshown)
  have hcell := exists_cell_iff hids hw hown hshown hcells
  have hgs_iff (g : Geometry) : (w.id, g) ∈ gs ↔ (w.id, g) ∈ cells :=
    mem_computeAll_iff_of_owner hids hgs hw hown hcells
  refine ⟨i, cells, hown, hcells, ?_⟩
  rcases placement_of_shown hshow hfull with ⟨g, hmem, hplace⟩ | ⟨hnone, hplace⟩
  · rw [hgs_iff] at hmem
    have hfl : w.floating = false := hcell.mp ⟨g, hmem⟩
    refine ⟨iff_of_true ⟨g, fun g' => ⟨fun hmem' => cell_unique hids hcells hmem' hmem, ?_⟩, hplace⟩
      hfl, iff_of_false (fun h => h.1 g hmem) (by simp [hfl])⟩
    rintro rfl
    exact hmem
  · simp only [hgs_iff] at hnone
    have hfl : w.floating = true := by
      rw [← Bool.not_eq_false, ← hcell]
      exact fun ⟨g, hmem⟩ => hnone g hmem
    refine ⟨iff_of_false ?_ (by simp [hfl]), iff_of_true ⟨hnone, hplace⟩ hfl⟩
    exact fun ⟨g, hmem, _⟩ => hnone g ((hmem g).mpr rfl)

/-! ## Raising the nodes -/

/-- The node that applying a placement raises. -/
def raisedNode (s : State) (p : ℕ × Placement) : Option ObjectId :=
  if p.2 = .hidden then none else (s.findWindow p.1).bind (·.node)

theorem raisedNode_of_drawn {s' : State} (h : List.Forall₂ Window.Drawn s.windows s'.windows)
    (p : ℕ × Placement) : s'.raisedNode p = s.raisedNode p := by
  have hsame : s'.windows.map (fun w => (w.id, w.node)) = s.windows.map fun w => (w.id, w.node) := by
    refine map_eq_of_forall₂ (fun w w' hdrawn => ?_) h
    obtain ⟨border, rfl⟩ := hdrawn
    rfl
  have hfind (s : State) : (s.findWindow p.1).bind (·.node) =
      ((s.windows.map fun w => (w.id, w.node)).find? fun q => q.1 == p.1).bind (·.2) := by
    rw [List.find?_map, Option.bind_map]
    rfl
  rw [raisedNode, raisedNode, hfind, hfind, hsame]

theorem raisedNode_of_mem (hids : (s.windows.map (·.id)).Nodup) (hw : w ∈ s.windows)
    (place : Placement) : s.raisedNode (w.id, place) = if place = .hidden then none else w.node := by
  obtain ⟨v, hv⟩ := exists_findWindow_id hw
  obtain ⟨hmem, hid⟩ := mem_of_findWindow hv
  obtain rfl := List.inj_on_of_nodup_map hids hmem hw hid
  rw [raisedNode, hv]
  rfl

end State

/-- No two windows hold the same node. -/
def State.NodesApart (s : State) : Prop :=
  ∀ w ∈ s.windows, ∀ v ∈ s.windows, ∀ node, w.node = some node → v.node = some node → w = v

namespace AppData

variable {d : AppData}

/-- Applying a placement raises the window's node and no other. -/
theorem raises_renderWindow (config : Config) (focused : Option ℕ) (p : ℕ × Placement)
    (d : AppData) : ∃ rs, (d.renderWindow config focused p).sent = d.sent ++ rs ∧
      rs.filterMap Request.raised = (d.state.raisedNode p).toList := by
  unfold renderWindow State.raisedNode
  cases hw : d.state.findWindow p.1 with
  | none => exact ⟨[], (List.append_nil _).symm, by simp⟩
  | some w =>
    by_cases hp : p.2 = .hidden
    · exact ⟨[.hide w.proxy], by simp [hp, send], by simp [hp, Request.raised]⟩
    · simp only [hp, if_false, Option.bind_some]
      cases w.node <;> split_ifs
      all_goals
        simp only [send, sendAll, modifyState, Option.map_none, Option.map_some,
          Option.getD_none, Option.getD_some, List.append_assoc]
        exact ⟨_, rfl, rfl⟩

/-- Applying the placements raises the nodes in the order of the placements. -/
theorem raises_renderWindows (focused : Option ℕ) : ∀ (ps : List (ℕ × Placement)) (d : AppData),
    ∃ rs, (d.renderWindows focused ps).sent = d.sent ++ rs ∧
      rs.filterMap Request.raised = ps.filterMap d.state.raisedNode
  | [], d => ⟨[], (List.append_nil _).symm, rfl⟩
  | p :: ps, d => by
    obtain ⟨rs, hrs, hraised⟩ := raises_renderWindow d.config focused p d
    obtain ⟨rs', hrs', hraised'⟩ :=
      raises_renderWindows focused ps (d.renderWindow d.config focused p)
    refine ⟨rs ++ rs', hrs'.trans (by rw [hrs, List.append_assoc]), ?_⟩
    rw [List.filterMap_append, hraised, hraised', List.filterMap_cons,
      List.filterMap_congr fun q _ => State.raisedNode_of_drawn (drawn_renderWindow ..) q]
    cases d.state.raisedNode p <;> rfl

/-- Of the windows that are placed the floating ones end above the others. -/
theorem above_renderWindows (hids : (d.state.windows.map (·.id)).Nodup)
    (place : Window → Placement) (focused : Option ℕ) : ∃ rs,
      (d.renderWindows focused ((d.state.blocks place).map fun w => (w.id, place w))).sent =
        d.sent ++ rs ∧
      (d.state.NodesApart → ∀ order, ∀ w ∈ d.state.windows, ∀ v ∈ d.state.windows, ∀ n m,
        place w ≠ .hidden → w.floating = true → w.node = some n →
        place v ≠ .hidden → v.floating = false → v.node = some m →
          Above (raiseAll order (rs.filterMap Request.raised)) n m) := by
  obtain ⟨rs, hrs, hraised⟩ := raises_renderWindows focused
    ((d.state.blocks place).map fun w => (w.id, place w)) d
  refine ⟨rs, hrs, fun hnodes order w hw v hv n m hshow hfl hn hshow' hfl' hm => ?_⟩
  have hmem (ws : List Window) (hws : ∀ u ∈ ws, u ∈ d.state.windows) (k : ObjectId) :
      k ∈ (ws.map fun w => (w.id, place w)).filterMap d.state.raisedNode ↔
        ∃ u ∈ ws, place u ≠ .hidden ∧ u.node = some k := by
    rw [List.mem_filterMap]
    simp only [List.mem_map, exists_exists_and_eq_and]
    refine exists_congr fun u => and_congr_right fun hu => ?_
    rw [State.raisedNode_of_mem hids (hws u hu)]
    split_ifs with hhid <;> simp [hhid]
  have hfloats : ∀ u ∈ d.state.windows.filter fun w => place w ≠ .hidden && w.floating,
      u ∈ d.state.windows := fun u hu => List.mem_of_mem_filter hu
  have htiled : ∀ u ∈ d.state.windows.filter (fun w => place w = .hidden) ++
      d.state.windows.filter (fun w => place w ≠ .hidden && !w.floating), u ∈ d.state.windows := by
    intro u hu
    rcases List.mem_append.mp hu with hu | hu <;> exact List.mem_of_mem_filter hu
  rw [hraised, State.blocks, List.map_append, List.filterMap_append, raiseAll_append]
  refine above_raiseAll (mem_raiseAll.mpr (Or.inr ((hmem _ htiled m).mpr ⟨v, ?_, hshow', hm⟩)))
    (fun hmem' => ?_) ((hmem _ hfloats n).mpr ⟨w, ?_, hshow, hn⟩)
  · simp [hv, hshow', hfl']
  · obtain ⟨u, hu, -, hnode⟩ := (hmem _ hfloats m).mp hmem'
    obtain rfl := hnodes u (hfloats u hu) v hv m hnode hm
    simp [hfl'] at hu
  · simp [hw, hshow, hfl]

/-! ### Releasing nodes first -/

/-- A visible window keeps its node. -/
theorem mem_releaseHiddenNodes {w : Window} (hw : w ∈ d.state.windows)
    (hvis : d.state.windowIsVisible w = true) : w ∈ d.releaseHiddenNodes.state.windows := by
  obtain ⟨i, -, hshown⟩ := State.windowIsVisible_iff.mp hvis
  have hmem : w.tag ∈ d.state.outputs.map (·.activeTag) :=
    List.mem_of_getElem? ((List.getElem?_map ..).trans hshown)
  refine List.mem_map.mpr ⟨w, hw, ?_⟩
  rw [Window.releaseNode, if_pos (List.contains_iff_mem.mpr hmem)]

theorem ids_releaseHiddenNodes (d : AppData) :
    d.releaseHiddenNodes.state.windows.map (·.id) = d.state.windows.map (·.id) := by
  refine map_eq_of_forall₂ (fun w w' h => ?_) (rendered_releaseHiddenNodes d)
  obtain ⟨border, node, rfl⟩ := h
  rfl

theorem nodesApart_releaseHiddenNodes (h : d.state.NodesApart) :
    d.releaseHiddenNodes.state.NodesApart := by
  have hkeep : ∀ w ∈ d.releaseHiddenNodes.state.windows, ∀ node, w.node = some node →
      w ∈ d.state.windows := by
    intro w hw node hnode
    obtain ⟨v, hv, rfl⟩ := List.mem_map.mp hw
    unfold Window.releaseNode at hnode ⊢
    split_ifs at hnode ⊢
    exact hv
  exact fun w hw v hv node hn hn' => h w (hkeep w hw node hn) v (hkeep v hv node hn') node hn hn'

theorem renderAllRun_eq {gs : List (ℕ × Geometry)} (focused : Option ℕ)
    (hgs : d.releaseHiddenNodes.state.computeAll d.releaseHiddenNodes.config = some gs) :
    d.renderAllRun focused = some (d.releaseHiddenNodes.renderWindows focused
      ((d.releaseHiddenNodes.state.blocks (d.releaseHiddenNodes.state.placement gs)).map fun w =>
        (w.id, d.releaseHiddenNodes.state.placement gs w))) := by
  unfold renderAllRun
  dsimp only
  rw [State.placements_eq hgs]
  rfl

/-- Rendering puts the floating windows that are shown above the others that are. -/
theorem above_renderAllRun (hids : (d.state.windows.map (·.id)).Nodup) (focused : Option ℕ) :
    ∃ d' rs, d.renderAllRun focused = some d' ∧ d'.sent = d.sent ++ rs ∧
      (d.state.NodesApart → ∀ order, ∀ w ∈ d.state.windows, ∀ v ∈ d.state.windows, ∀ n m,
        w.minimized = false → d.state.windowIsVisible w = true →
          w.floating = true → w.node = some n →
        v.minimized = false → d.state.windowIsVisible v = true →
          v.floating = false → v.node = some m →
            Above (raiseAll order (rs.filterMap Request.raised)) n m) := by
  obtain ⟨gs, hgs⟩ :=
    State.exists_computeAll d.releaseHiddenNodes.state d.releaseHiddenNodes.config
  have hshown {w : Window} (hmin : w.minimized = false) (hvis : d.state.windowIsVisible w = true) :
      d.releaseHiddenNodes.state.placement gs w ≠ .hidden := by
    have hsame : d.releaseHiddenNodes.state.windowIsVisible w = true := hvis
    rw [Ne, State.placement_eq_hidden_iff, hmin, hsame]
    simp
  obtain ⟨cs, hcs, -⟩ := (nodePass_releaseHiddenNodes d).moves
  obtain ⟨rs, hrs, habove⟩ := above_renderWindows (d := d.releaseHiddenNodes)
    (by rwa [ids_releaseHiddenNodes]) (d.releaseHiddenNodes.state.placement gs) focused
  refine ⟨_, cs.map nodeRequest ++ rs, renderAllRun_eq focused hgs, ?_, ?_⟩
  · rw [hrs, hcs, List.append_assoc]
  · intro hnodes order w hw v hv n m hmin hvis hfl hn hmin' hvis' hfl' hm
    rw [List.filterMap_append, raiseAll_append]
    exact habove (nodesApart_releaseHiddenNodes hnodes) _ w (mem_releaseHiddenNodes hw hvis) v
      (mem_releaseHiddenNodes hv hvis') n m (hshown hmin hvis) hfl hn (hshown hmin' hvis') hfl' hm

end AppData

/-- In every run no two windows hold the same node. -/
theorem Stage.Invariant.nodesApart {p : Stage} (hp : p.Invariant) : p.data.state.NodesApart := by
  intro w hw v hv node hn hn'
  have hheld : ∀ u ∈ p.data.state.windows, u.node = some node →
      p.scene.nodes u.proxy = some node := fun u hu hnode =>
    (hp.tracks.known u.held (List.mem_map_of_mem hu)).trans hnode
  have hproxy : w.proxy = v.proxy := hp.tracks.inj _ _ node (hheld w hw hn) (hheld v hv hn')
  have hnodup : (p.data.state.windows.map (·.proxy)).Nodup := by
    have h := hp.tracks.nodup
    rwa [List.map_map] at h
  exact List.inj_on_of_nodup_map hnodup hw hv hproxy

/-! ## The whole placement -/

namespace State

/-- `placements` lists every window once, in three blocks with the windows in their order;
hidden are those that are minimized or on a tag its owner does not show, and of the others
those that do not float are in the cell of the output that owns their tag. Applying the
placements puts the floating windows above the others, whatever the order was. -/
theorem placements_stacked (d : AppData) (focused : Option ℕ)
    (hids : (d.state.windows.map (·.id)).Nodup) : ∃ place : Window → Placement,
      (∃ ps, d.state.placements d.config = some ps ∧
        ps = (d.state.blocks place).map (fun w => (w.id, place w)) ∧
        (ps.map (·.1)).Perm (d.state.windows.map (·.id))) ∧
      (∀ w ∈ d.state.windows, (place w = .hidden ↔ w.minimized = true ∨
        ¬∃ i, d.state.tagOwner w.tag = some i ∧ d.state.shown i = some w.tag)) ∧
      (∀ w ∈ d.state.windows, place w ≠ .hidden → w.fullscreen = false →
        ∃ i cells, d.state.tagOwner w.tag = some i ∧
          d.state.computeOutput d.config i = some cells ∧
          ((∃ g, (∀ g', (w.id, g') ∈ cells ↔ g' = g) ∧ place w = .at g) ↔ w.floating = false) ∧
          ((∀ g, (w.id, g) ∉ cells) ∧ place w = .at w.box ↔ w.floating = true)) ∧
      ∃ d' rs, d.renderAllRun focused = some d' ∧ d'.sent = d.sent ++ rs ∧
        (d.state.NodesApart → ∀ order, ∀ w ∈ d.state.windows, ∀ v ∈ d.state.windows, ∀ n m,
          place w ≠ .hidden → w.floating = true → w.node = some n →
          place v ≠ .hidden → v.floating = false → v.node = some m →
            Above (raiseAll order (rs.filterMap Request.raised)) n m) := by
  obtain ⟨gs, hgs⟩ := exists_computeAll d.state d.config
  refine ⟨d.state.placement gs, ⟨_, placements_eq hgs, rfl, ?_⟩, fun w hw => ?_,
    fun w hw hshow hfull => placement_iff_floating hids hgs hw hshow hfull, ?_⟩
  · rw [List.map_map]
    exact (perm_blocks _).map _
  · rw [placement_eq_hidden_iff, ← windowIsVisible_iff, Bool.not_eq_true]
  have hvisible {w : Window} (hshow : d.state.placement gs w ≠ .hidden) :
      w.minimized = false ∧ d.state.windowIsVisible w = true := by
    rwa [Ne, placement_eq_hidden_iff, not_or, Bool.not_eq_true, Bool.not_eq_false] at hshow
  obtain ⟨d', rs, hd', hrs, habove⟩ := AppData.above_renderAllRun hids focused
  refine ⟨d', rs, hd', hrs, fun hnodes order w hw v hv n m hshow hfl hn hshow' hfl' hm => ?_⟩
  exact habove hnodes order w hw v hv n m (hvisible hshow).1 (hvisible hshow).2 hfl hn
    (hvisible hshow').1 (hvisible hshow').2 hfl' hm

/-- The floating window of two is older, and below the other one. -/
theorem placements_stacked_float : ∃ (d d' : AppData) (rs : List Request),
    d.renderAllRun none = some d' ∧ d'.sent = d.sent ++ rs ∧
      Above (raiseAll [4, 5] (rs.filterMap Request.raised)) 4 5 := by
  let s : State := { (State.new (11 / 20)).setTagOutput 0 0 with
    outputs := [{ Output.new 1 with width := 1000, height := 600 }]
    windows := [{ Window.new 1 2 0 with floating := true, node := some 4 },
      { Window.new 2 3 0 with node := some 5 }] }
  let d : AppData := { AppData.new .default false false false with state := s }
  have hwindows : ∀ w ∈ s.windows, w.minimized = false ∧ w.tag = 0 := by decide
  obtain ⟨place, -, hhidden, -, d', rs, hd', hrs, habove⟩ :=
    placements_stacked d none (by decide)
  have hshow : ∀ w ∈ s.windows, place w ≠ .hidden := by
    intro w hw hhid
    obtain ⟨hmin, htag⟩ := hwindows w hw
    rcases (hhidden w hw).mp hhid with h | hnot
    · simp [hmin] at h
    · exact hnot ⟨0, by rw [htag]; rfl, by rw [htag]; rfl⟩
  have hapart : s.NodesApart := by
    intro w hw v hv node hn hn'
    simp only [s, List.mem_cons, List.not_mem_nil, or_false] at hw hv
    rcases hw with rfl | rfl <;> rcases hv with rfl | rfl
    · rfl
    · exact absurd (hn.trans hn'.symm) (by decide)
    · exact absurd (hn.trans hn'.symm) (by decide)
    · rfl
  exact ⟨d, d', rs, hd', hrs, habove hapart [4, 5] _ List.mem_cons_self _
    (List.mem_cons_of_mem _ List.mem_cons_self) 4 5 (hshow _ List.mem_cons_self) rfl rfl
    (hshow _ (List.mem_cons_of_mem _ List.mem_cons_self)) rfl rfl⟩

end State

end Streamwm
