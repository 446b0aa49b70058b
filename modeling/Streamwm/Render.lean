import Streamwm.Refinement

/-!
# The windows of a render sequence

A render sequence changes of a window the border and the node, and nothing else
(`Window.Rendered`). Applying the placements leaves the nodes alone too (`Window.Drawn`).
-/

namespace Streamwm

open Partial Transition

namespace Window

/-- The window with another border or another node. -/
def Rendered (w w' : Window) : Prop :=
  ∃ borderApplied node, w' = { w with borderApplied, node }

/-- The window with another border. -/
def Drawn (w w' : Window) : Prop :=
  ∃ borderApplied, w' = { w with borderApplied }

variable {w w' w'' : Window}

theorem Rendered.trans (h : Rendered w w') (h' : Rendered w' w'') : Rendered w w'' := by
  obtain ⟨border, node, rfl⟩ := h
  obtain ⟨border', node', rfl⟩ := h'
  exact ⟨border', node', rfl⟩

theorem Drawn.refl (w : Window) : Drawn w w :=
  ⟨w.borderApplied, rfl⟩

theorem Drawn.trans (h : Drawn w w') (h' : Drawn w' w'') : Drawn w w'' := by
  obtain ⟨border, rfl⟩ := h
  obtain ⟨border', rfl⟩ := h'
  exact ⟨border', rfl⟩

theorem Drawn.rendered (h : Drawn w w') : Rendered w w' := by
  obtain ⟨border, rfl⟩ := h
  exact ⟨border, w.node, rfl⟩

/-- A hidden window gives its node back. -/
theorem rendered_releaseNode (active : List ℕ) (w : Window) :
    Rendered w (w.releaseNode active).1 := by
  unfold releaseNode
  split_ifs
  · exact (Drawn.refl w).rendered
  · exact ⟨w.borderApplied, none, rfl⟩

/-- A shown window without a node gets one. -/
theorem rendered_takeNode (node : ObjectId) (visible : Bool) (w : Window) :
    Rendered w (w.takeNode node visible).1 := by
  unfold takeNode
  split_ifs
  · exact ⟨w.borderApplied, some node, rfl⟩
  · exact (Drawn.refl w).rendered

end Window

namespace AppData

variable {d d' : AppData}

theorem rendered_releaseHiddenNodes (d : AppData) :
    List.Forall₂ Window.Rendered d.state.windows d.releaseHiddenNodes.state.windows := by
  change List.Forall₂ _ d.state.windows (d.state.windows.map _)
  rw [List.forall₂_map_right_iff]
  exact List.forall₂_same.mpr fun w _ => Window.rendered_releaseNode _ w

theorem rendered_createNodes (d : AppData) :
    List.Forall₂ Window.Rendered d.state.windows d.createNodes.state.windows := by
  change List.Forall₂ _ d.state.windows ((d.state.windows.zipIdx.map _).map _)
  rw [List.map_map, List.forall₂_map_right_iff]
  nth_rewrite 1 [← List.zipIdx_map_fst 0 d.state.windows]
  rw [List.forall₂_map_left_iff]
  exact List.forall₂_same.mpr fun p _ => Window.rendered_takeNode _ _ p.1

/-- A placement changes the border of its window at most. -/
theorem drawn_renderWindow (config : Config) (focused : Option ℕ) (p : ℕ × Placement)
    (d : AppData) :
    List.Forall₂ Window.Drawn d.state.windows (d.renderWindow config focused p).state.windows := by
  have hsame : List.Forall₂ Window.Drawn d.state.windows d.state.windows :=
    List.forall₂_same.mpr fun w _ => Window.Drawn.refl w
  unfold renderWindow
  split
  · exact hsame
  · split_ifs
    · exact hsame
    · dsimp only
      split
      all_goals
        split_ifs
        · exact forall₂_modifyFirst Window.Drawn.refl (fun w _ => ⟨_, rfl⟩) d.state.windows
        · exact hsame

/-- Applying the placements changes nothing but borders. -/
theorem drawn_renderWindows (focused : Option ℕ) : ∀ (ps : List (ℕ × Placement)) (d : AppData),
    List.Forall₂ Window.Drawn d.state.windows (d.renderWindows focused ps).state.windows
  | [], _ => List.forall₂_same.mpr fun w _ => Window.Drawn.refl w
  | p :: ps, d => forall₂_trans (fun _ _ _ h h' => h.trans h')
      (drawn_renderWindow d.config focused p d)
      (drawn_renderWindows focused ps (d.renderWindow d.config focused p))

/-- A render sequence changes nothing but borders and nodes. -/
theorem rendered_onRenderStart (hs : d.state.WellFormed) {hasClients : Bool}
    (h : d.onRenderStart hasClients = some d') :
    List.Forall₂ Window.Rendered d.state.windows d'.state.windows := by
  obtain ⟨d'', ps, focused, hd'', -, hstate, -, -⟩ := onRenderStart_spec hs hasClients
  obtain rfl := Option.some.inj (hd''.symm.trans h)
  have htrans : ∀ w v u : Window, w.Rendered v → v.Rendered u → w.Rendered u :=
    fun _ _ _ h h' => h.trans h'
  have hbegin : List.Forall₂ Window.Rendered d.state.windows d.beginRender.state.windows :=
    forall₂_trans htrans
      (forall₂_trans htrans (rendered_releaseHiddenNodes d) (rendered_createNodes _))
      (rendered_releaseHiddenNodes _)
  rw [hstate]
  exact forall₂_trans htrans hbegin
    ((drawn_renderWindows focused ps d.beginRender).imp fun _ _ => Window.Drawn.rendered)

end AppData

end Streamwm
