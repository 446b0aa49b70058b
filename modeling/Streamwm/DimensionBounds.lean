import Streamwm.FloatedBy
import Streamwm.ManagePass
import Streamwm.PlacementOrder
import Streamwm.Tracking

/-!
# Dimension bounds

River keeps the dimension bounds of a window until others are sent (`boundsOf`). A manage
sequence sends every tiled window that is shown the bounds of its cell, and none to a fullscreen
one (`bounds_onManageStart`); a window without a cell it sends nothing. So the bounds are right
after every manage sequence as long as no event floats a window that has any (`bounds_right_iff`).
-/

namespace Streamwm

open Partial Transition

/-- The bounds of a window after a request. -/
def boundsAfter (proxy : ObjectId) (b : Option (ℕ × ℕ)) : Request → Option (ℕ × ℕ)
  | .setDimensionBounds window width height =>
    if window = proxy then (if width = 0 ∧ height = 0 then none else some (width, height)) else b
  | _ => b

/-- The bounds in force for a window : those sent last, none if none were or they were zero. -/
def boundsOf (sent : List Request) (proxy : ObjectId) : Option (ℕ × ℕ) :=
  sent.foldl (boundsAfter proxy) none

section

variable {proxy : ObjectId} {rs : List Request} {b : Option (ℕ × ℕ)}

/-- Only manage sequences send bounds. -/
theorem boundsAfter_of_not {r : Request} (h : r.OfPass = false) : boundsAfter proxy b r = b := by
  cases r <;> first | rfl | cases h

theorem foldl_boundsAfter_filter : ∀ (rs : List Request) (b : Option (ℕ × ℕ)),
    rs.foldl (boundsAfter proxy) b = (rs.filter Request.OfPass).foldl (boundsAfter proxy) b
  | [], _ => rfl
  | r :: rs, b => by
    cases hr : r.OfPass with
    | true =>
      rw [List.filter_cons_of_pos hr]
      exact foldl_boundsAfter_filter rs _
    | false =>
      rw [List.filter_cons_of_neg (by simp [hr]), List.foldl_cons, boundsAfter_of_not hr]
      exact foldl_boundsAfter_filter rs b

theorem foldl_boundsAfter_same : ∀ {rs : List Request} (b : Option (ℕ × ℕ)),
    (∀ r ∈ rs, ∀ b, boundsAfter proxy b r = b) → rs.foldl (boundsAfter proxy) b = b
  | [], _, _ => rfl
  | r :: rs, b, h => by
    rw [List.foldl_cons, h r List.mem_cons_self]
    exact foldl_boundsAfter_same b fun r' hr' => h r' (List.mem_cons_of_mem r hr')

end

namespace State

variable {s : State} {config : Config} {w : Window} {g : Geometry} {gs : List (ℕ × Geometry)}

/-! ## The bounds the proposals send -/

/-- A cell of another window. -/
theorem foldl_proposeCell_other (hproxies : (s.windows.map (·.proxy)).Nodup) (hw : w ∈ s.windows)
    {p : ℕ × Geometry} (hp : p.1 ≠ w.id) (b : Option (ℕ × ℕ)) :
    (s.proposeCell p).foldl (boundsAfter w.proxy) b = b := by
  refine foldl_boundsAfter_same b fun r hr b => ?_
  have hother : ∀ v, s.findWindow p.1 = some v → v.proxy ≠ w.proxy := fun v hv heq => by
    obtain ⟨hmem, hid⟩ := mem_of_findWindow hv
    rw [List.inj_on_of_nodup_map hproxies hmem hw heq] at hid
    exact hp hid.symm
  unfold proposeCell at hr
  split_ifs at hr
  · cases hr
  · split at hr
    · cases hr
    · next v hv =>
      split_ifs at hr
      · rw [List.mem_singleton.mp hr, boundsAfter, if_neg (hother v hv)]
      · simp only [List.mem_cons, List.not_mem_nil, or_false] at hr
        rcases hr with rfl | rfl
        · rw [boundsAfter, if_neg (hother v hv)]
        · rfl

/-- The window's own cell. -/
theorem foldl_proposeCell_self (hids : (s.windows.map (·.id)).Nodup) (hw : w ∈ s.windows)
    (hwidth : g.width ≠ 0) (hheight : g.height ≠ 0) (b : Option (ℕ × ℕ)) :
    (s.proposeCell (w.id, g)).foldl (boundsAfter w.proxy) b =
      if w.fullscreen then none else some (g.width, g.height) := by
  have hfind : s.findWindow w.id = some w := by
    obtain ⟨v, hv⟩ := exists_findWindow_id hw
    obtain ⟨hmem, hid⟩ := mem_of_findWindow hv
    rw [hv, List.inj_on_of_nodup_map hids hmem hw hid]
  have hcell : ¬((w.id, g).2.width = 0 ∨ (w.id, g).2.height = 0) := not_or.mpr ⟨hwidth, hheight⟩
  rw [proposeCell, if_neg hcell, hfind]
  dsimp only
  split_ifs
  · simp [boundsAfter]
  · simp [boundsAfter, hwidth]

theorem foldl_proposeCells_other (hproxies : (s.windows.map (·.proxy)).Nodup) (hw : w ∈ s.windows) :
    ∀ {gs : List (ℕ × Geometry)} (b : Option (ℕ × ℕ)), (∀ g, (w.id, g) ∉ gs) →
      (gs.flatMap s.proposeCell).foldl (boundsAfter w.proxy) b = b
  | [], _, _ => rfl
  | p :: gs, b, h => by
    have hp : p.1 ≠ w.id := fun heq => h p.2 (heq ▸ List.mem_cons_self)
    rw [List.flatMap_cons, List.foldl_append, foldl_proposeCell_other hproxies hw hp]
    exact foldl_proposeCells_other hproxies hw b fun g hg => h g (List.mem_cons_of_mem p hg)

/-- The last word on a window is its cell. -/
theorem foldl_proposeCells_self (hids : (s.windows.map (·.id)).Nodup)
    (hproxies : (s.windows.map (·.proxy)).Nodup) (hw : w ∈ s.windows) (hwidth : g.width ≠ 0)
    (hheight : g.height ≠ 0) : ∀ {gs : List (ℕ × Geometry)} (b : Option (ℕ × ℕ)),
      (∀ g', (w.id, g') ∈ gs → g' = g) → (w.id, g) ∈ gs →
        (gs.flatMap s.proposeCell).foldl (boundsAfter w.proxy) b =
          if w.fullscreen then none else some (g.width, g.height)
  | [], _, _, hmem => absurd hmem List.not_mem_nil
  | p :: gs, b, hone, hmem => by
    rw [List.flatMap_cons, List.foldl_append]
    by_cases hlater : (w.id, g) ∈ gs
    · exact foldl_proposeCells_self hids hproxies hw hwidth hheight _
        (fun g' hg' => hone g' (List.mem_cons_of_mem p hg')) hlater
    · obtain rfl : (w.id, g) = p := (List.mem_cons.mp hmem).resolve_right hlater
      rw [foldl_proposeCells_other hproxies hw, foldl_proposeCell_self hids hw hwidth hheight]
      intro g' hg'
      exact hlater (hone g' (List.mem_cons_of_mem _ hg') ▸ hg')

/-! ## Cells -/

/-- A shown window that does not float has one cell. -/
theorem exists_unique_cell (hids : (s.windows.map (·.id)).Nodup) (hgs : s.computeAll config = some gs)
    (hw : w ∈ s.windows) (hfl : w.floating = false) (hvisible : s.windowIsVisible w = true) :
    ∃ g, ∀ g', (w.id, g') ∈ gs ↔ g' = g := by
  obtain ⟨i, hown, hshown⟩ := windowIsVisible_iff.mp hvisible
  obtain ⟨cells, hcells⟩ := exists_computeOutput config (lt_of_shown hshown)
  obtain ⟨g, hg⟩ := (exists_cell_iff hids hw hown hshown hcells).mpr hfl
  refine ⟨g, fun g' => ?_⟩
  rw [mem_computeAll_iff_of_owner hids hgs hw hown hcells]
  exact ⟨fun hg' => cell_unique hids hcells hg' hg, fun heq => heq ▸ hg⟩

/-- A floating window has none. -/
theorem not_mem_computeAll (hids : (s.windows.map (·.id)).Nodup) (hgs : s.computeAll config = some gs)
    (hw : w ∈ s.windows) (hfl : w.floating = true) (g : Geometry) : (w.id, g) ∉ gs := by
  intro hmem
  obtain ⟨i, cells, hcells, hcell⟩ := (mem_computeAll_iff hgs).mp hmem
  obtain ⟨v, hv, hid, -, -, hvfl⟩ := (mem_computeOutput_iff hcells).mp ⟨g, hcell⟩
  rw [List.inj_on_of_nodup_map hids hv hw hid, hfl] at hvfl
  cases hvfl

/-- The tiled edges do not matter to the layout. -/
theorem computeAll_tiled (s : State) (config : Config) :
    s.tiled.computeAll config = s.computeAll config := by
  have hvisible : ∀ i, s.tiled.visibleWindows i = s.visibleWindows i := by
    intro i
    have hkeep : ∀ out : Output,
        (s.tiled.windows.filter fun w => s.tiled.onActiveTag i out.activeTag w && !w.floating).map
            (·.id) =
          (s.windows.filter fun w => s.onActiveTag i out.activeTag w && !w.floating).map (·.id) := by
      intro out
      rw [tiled, List.filter_map, List.map_map]
      have hid : ∀ w : Window, w.setTiled.1.id = w.id ∧ w.setTiled.1.tag = w.tag ∧
          w.setTiled.1.floating = w.floating := fun w => by
        obtain ⟨t, ht, -⟩ := w.setTiled_spec
        rw [ht]
        exact ⟨rfl, rfl, rfl⟩
      refine congrArg₂ List.map (funext fun w => (hid w).1) (List.filter_congr fun w _ => ?_)
      simp only [Function.comp_apply, onActiveTag, (hid w).2.1, (hid w).2.2]
      rfl
    simp only [visibleWindows, hkeep]
    rfl
  have houtput : ∀ i, s.tiled.computeOutput config i = s.computeOutput config i := by
    intro i
    simp only [computeOutput, computeOutputIn, hvisible]
    rfl
  simp only [computeAll_eq, funext houtput]
  rfl

theorem proposeCell_tiled (s : State) (p : ℕ × Geometry) :
    s.tiled.proposeCell p = s.proposeCell p := by
  have hfind : s.tiled.findWindow p.1 = (s.findWindow p.1).map fun w => w.setTiled.1 := by
    have hid : (fun w : Window => w.id == p.1) ∘ (fun w : Window => w.setTiled.1) =
        fun w : Window => w.id == p.1 := by
      funext w
      obtain ⟨t, ht, -⟩ := w.setTiled_spec
      simp only [Function.comp_apply, ht]
    simp only [findWindow, tiled, List.find?_map, hid]
  unfold proposeCell
  rw [hfind]
  cases s.findWindow p.1 with
  | none => rfl
  | some w =>
    obtain ⟨t, ht, -⟩ := w.setTiled_spec
    rw [Option.map_some, ht]

end State

namespace AppData

open State

variable {d d' : AppData} {proxy : ObjectId} {ps : List Request}

/-- No window that floats has bounds in force. -/
def FloatingUnbound (d : AppData) : Prop :=
  ∀ w ∈ d.state.windows, w.floating = true → boundsOf d.sent w.proxy = none

/-- The bounds in force of a shown window that does not float are none when it is fullscreen,
and the size of its cell otherwise, unless that is empty. -/
def TiledBound (d : AppData) : Prop :=
  ∀ gs, d.state.computeAll d.config = some gs → ∀ w ∈ d.state.windows, w.floating = false →
    d.state.windowIsVisible w = true → ∃ g, (∀ g', (w.id, g') ∈ gs ↔ g' = g) ∧
      (g.width ≠ 0 → g.height ≠ 0 → boundsOf d.sent w.proxy =
        if w.fullscreen then none else some (g.width, g.height))

/-- The event floats no window that has bounds in force. -/
def FloatsUnbound (d : AppData) (event : Event) : Prop :=
  ∀ w ∈ d.state.windows, w.floating = false → d.floatedBy event = some w.id →
    boundsOf d.sent w.proxy = none

theorem boundsOf_of_emits (h : Emits d d' ps) :
    boundsOf d'.sent proxy = ps.foldl (boundsAfter proxy) (boundsOf d.sent proxy) := by
  obtain ⟨rs, hrs, rfl⟩ := h
  rw [boundsOf, hrs, List.foldl_append, foldl_boundsAfter_filter rs]
  rfl

theorem boundsOf_of_plain (h : Plain d d') : boundsOf d'.sent proxy = boundsOf d.sent proxy :=
  boundsOf_of_emits h.emits

/-- A manage sequence sends the bounds of the cells, those of the layout afterwards. -/
theorem boundsOf_onManageStart (h : d.onManageStart = some d') : ∃ gs,
    d'.state.computeAll d.config = some gs ∧ ∀ proxy, boundsOf d'.sent proxy =
      (gs.flatMap d'.state.proposeCell).foldl (boundsAfter proxy) (boundsOf d.sent proxy) := by
  obtain ⟨gs, hgs, hstate, -, hemits⟩ := onManageStart_pass h
  have hwarps : ∀ (proxy : ObjectId) (b : Option (ℕ × ℕ)),
      (d.pendingPointerWarp.elim [] d.state.warpRequests).foldl (boundsAfter proxy) b = b := by
    refine fun proxy b => foldl_boundsAfter_same b fun r hr b => ?_
    cases hwarp : d.pendingPointerWarp with
    | none => simp [hwarp] at hr
    | some target =>
      rw [hwarp, Option.elim_some] at hr
      obtain ⟨seat, x, y, rfl⟩ := mem_warpRequests hr
      rfl
  refine ⟨gs, by rw [hstate, computeAll_tiled, hgs], fun proxy => ?_⟩
  rw [boundsOf_of_emits hemits, List.foldl_append, hwarps, ← foldl_boundsAfter_filter, hstate,
    funext (proposeCell_tiled _)]

/-- Which windows float stays as it is in a manage sequence. -/
theorem floating_onManageStart (h : d.onManageStart = some d') :
    d'.state.windows.map (fun w => (w.proxy, w.floating)) =
      d.state.windows.map fun w => (w.proxy, w.floating) := by
  obtain ⟨gs, -, hstate, -, -⟩ := onManageStart_pass h
  rw [hstate, tiled, managed, List.map_map, List.map_map]
  refine List.map_congr_left fun w _ => ?_
  obtain ⟨_, _, _, _, hw, -⟩ := managed_manageWindow d.state.refocused d.config w
  rw [Function.comp_apply, Function.comp_apply, hw]
  obtain ⟨t, ht, -⟩ := Window.setTiled_spec _
  rw [ht]

theorem floatingUnbound_iff : d.FloatingUnbound ↔
    ∀ p ∈ d.state.windows.map (fun w => (w.proxy, w.floating)), p.2 = true →
      boundsOf d.sent p.1 = none := by
  rw [List.forall_mem_map]
  rfl

/-- A manage sequence sends a floating window no bounds. -/
theorem boundsOf_floating (hids : (d'.state.windows.map (·.id)).Nodup)
    (hproxies : (d'.state.windows.map (·.proxy)).Nodup) (h : d.onManageStart = some d') {w : Window}
    (hw : w ∈ d'.state.windows) (hfl : w.floating = true) :
    boundsOf d'.sent w.proxy = boundsOf d.sent w.proxy := by
  obtain ⟨gs, hgs, hbounds⟩ := boundsOf_onManageStart h
  rw [hbounds]
  exact foldl_proposeCells_other hproxies hw _ (not_mem_computeAll hids hgs hw hfl)

theorem floatingUnbound_onManageStart (hids : (d'.state.windows.map (·.id)).Nodup)
    (hproxies : (d'.state.windows.map (·.proxy)).Nodup) (h : d.onManageStart = some d') :
    d'.FloatingUnbound ↔ d.FloatingUnbound := by
  have hsame : d'.FloatingUnbound ↔
      ∀ w ∈ d'.state.windows, w.floating = true → boundsOf d.sent w.proxy = none :=
    forall₃_congr fun w hw hfl => by rw [boundsOf_floating hids hproxies h hw hfl]
  rw [hsame, floatingUnbound_iff, ← floating_onManageStart h, List.forall_mem_map]

/-- After a manage sequence the tiled windows have the bounds of their cells. -/
theorem tiledBound_onManageStart (hids : (d'.state.windows.map (·.id)).Nodup)
    (hproxies : (d'.state.windows.map (·.proxy)).Nodup) (h : d.onManageStart = some d') (hconfig : d'.config = d.config) :
    d'.TiledBound := by
  obtain ⟨gs', hgs', hbounds⟩ := boundsOf_onManageStart h
  intro gs hgs w hw hfl hvisible
  obtain rfl := Option.some.inj (hgs'.symm.trans (hconfig ▸ hgs))
  obtain ⟨g, hg⟩ := exists_unique_cell hids hgs' hw hfl hvisible
  refine ⟨g, hg, fun hwidth hheight => ?_⟩
  rw [hbounds]
  exact foldl_proposeCells_self hids hproxies hw hwidth hheight _ (fun g' => (hg g').mp)
    ((hg g).mpr rfl)

/-- The configuration stays. -/
theorem config_onManageStart (hs : d.state.WellFormed) (h : d.onManageStart = some d') :
    d'.config = d.config := by
  obtain ⟨d₁, d₂, h₂, -, hbegin, hfinish, -⟩ := onManageStart_spec hs
  obtain rfl := Option.some.inj (h₂.symm.trans h)
  calc d₂.config
    _ = d₁.applyFullscreen.config := hfinish.toHandled.config
    _ = d.processPointerOps.config := hbegin.toHandled.config
    _ = d.config := (pointerPass d).config

/-- Outside manage sequences a window comes to float with bounds in force only by an event that
floats one that has any. -/
theorem FloatingUnbound.step (hd : d.FloatingUnbound) (hs : d.state.WellFormed) {event : Event}
    (hevent : event ≠ .manageStart) (hfloats : d.FloatsUnbound event)
    (h : d.handle event = some d') : d'.FloatingUnbound := by
  intro w' hw' hfl'
  obtain ⟨w, hw, hproxy, -, hfl⟩ := floatsOnly_handle hs hevent h w' hw' hfl'
  rw [← hproxy, boundsOf_of_plain (plain_handle hevent h)]
  cases hbefore : w.floating with
  | true => exact hd w hw hbefore
  | false => exact hfloats w hw hbefore (hfl.resolve_left (by simp [hbefore]))

end AppData

namespace Session

variable {p p' : Session} {event : Event}

/-- What the bounds rest on : objects and ids name one window each. -/
structure Named (p : Session) : Prop extends p.Tracks where
  freshIds : p.data.state.FreshIds

theorem named_new (config : Config) (xkb layerShell cursorShapeManager : Bool) :
    (Session.new config xkb layerShell cursorShapeManager).Named :=
  ⟨tracks_new config xkb layerShell cursorShapeManager, State.freshIds_new _⟩

theorem Named.step (hp : p.Named) (h : Step p event p') : p'.Named :=
  ⟨hp.toTracks.step h, hp.freshIds.of_reachable hp.wellFormed
    (AppData.Step.wellFormed hp.wellFormed (step_iff.mp h).2.1).2⟩

/-- In a run in which no event floats a window that has bounds in force, they are right after every
manage pass : none for floating windows and shown fullscreen ones, those of the cell for shown tiled
ones. In any run they are so iff no floating window has bounds in force before one. -/
theorem bounds_right_iff {config : Config} {xkb layerShell cursorShapeManager : Bool}
    {τs : List (Transition.Step Session Event)}
    (h : IsRun Step (Session.new config xkb layerShell cursorShapeManager) τs) :
    ((∀ τ ∈ τs, τ.pre.data.FloatsUnbound τ.event) →
      ∀ τ ∈ τs, τ.event = .manageStart →
        τ.post.data.FloatingUnbound ∧ τ.post.data.TiledBound) ∧
    ((∀ τ ∈ τs, τ.event = .manageStart →
        τ.post.data.FloatingUnbound ∧ τ.post.data.TiledBound) ↔
      ∀ τ ∈ τs, τ.event = .manageStart → τ.pre.data.FloatingUnbound) := by
  have hpass : ∀ {p p' : Session}, p.Named → Step p .manageStart p' →
      (p'.data.FloatingUnbound ↔ p.data.FloatingUnbound) ∧ p'.data.TiledBound := by
    intro p p' hp hst
    have hp' := hp.step hst
    have hhandle := (step_iff.mp hst).2.1
    exact ⟨AppData.floatingUnbound_onManageStart hp'.freshIds.nodup hp'.windowsNodup hhandle,
      AppData.tiledBound_onManageStart hp'.freshIds.nodup hp'.windowsNodup hhandle
        (AppData.config_onManageStart hp.wellFormed hhandle)⟩
  have hiff : (∀ τ ∈ τs, τ.event = .manageStart →
      τ.post.data.FloatingUnbound ∧ τ.post.data.TiledBound) ↔
        ∀ τ ∈ τs, τ.event = .manageStart → τ.pre.data.FloatingUnbound := by
    refine h.forall_iff (I := Named)
      (P := fun _ e t => e = .manageStart → t.data.FloatingUnbound ∧ t.data.TiledBound)
      (C := fun s e => e = .manageStart → s.data.FloatingUnbound) ?_ ?_
      (named_new config xkb layerShell cursorShapeManager)
    · intro p event p' hp hst
      refine forall_congr' fun hevent => ?_
      subst hevent
      obtain ⟨hfloating, htiled⟩ := hpass hp hst
      rw [hfloating, and_iff_left htiled]
    · exact fun p event p' hp hst _ => hp.step hst
  refine ⟨fun hfloats => hiff.mpr fun τ hτ _ => ?_, hiff⟩
  have hrun := h.invariant_of_cond (I := fun p => p.Named ∧ p.data.FloatingUnbound)
    (C := fun p e => p.data.FloatsUnbound e) ?_
    ⟨named_new config xkb layerShell cursorShapeManager, fun w hw => absurd hw List.not_mem_nil⟩
    hfloats
  · exact (hrun τ hτ).1.2
  · rintro p event p' ⟨hp, hunbound⟩ hcond hst
    refine ⟨hp.step hst, ?_⟩
    by_cases hevent : event = .manageStart
    · subst hevent
      exact (hpass hp hst).1.mpr hunbound
    · exact hunbound.step hp.wellFormed hevent hcond (step_iff.mp hst).2.1

/-- A window is floated before it has bounds, another one is tiled beside it. -/
theorem bounds_right_iff_early : ∃ τs,
    IsRun Step (Session.new .default false false false) τs ∧ τs.length = 8 ∧
      ∀ τ ∈ τs, τ.event = .manageStart →
        τ.post.data.FloatingUnbound ∧ τ.post.data.TiledBound := by
  let es : List Event := [.newOutput 1, .output 1 (.dimensions 800 600), .newSeat 10, .newWindow 2,
    .window 2 (.pointerMoveRequested 10), .manageStart, .newWindow 3, .manageStart]
  have hrun := isRun_trace next es (Session.new .default false false false)
  have hfloats : ∀ τ ∈ trace next (Session.new .default false false false) es,
      ∀ w ∈ τ.pre.data.state.windows, w.floating = false →
        τ.pre.data.floatedBy τ.event = some w.id → boundsOf τ.pre.data.sent w.proxy = none := by
    decide +kernel
  exact ⟨_, hrun, by decide +kernel, (bounds_right_iff hrun).1 hfloats⟩

/-- A window that a manage pass gave bounds is floated and keeps them in the next one. -/
theorem exists_stale_bounds : ¬∀ τs : List (Transition.Step Session Event),
    IsRun Step (Session.new .default false false false) τs →
    ∀ τ ∈ τs, τ.event = .manageStart → τ.post.data.FloatingUnbound ∧ τ.post.data.TiledBound := by
  intro hall
  let es : List Event := [.newOutput 1, .output 1 (.dimensions 800 600), .newSeat 10, .newWindow 2,
    .manageStart, .window 2 (.pointerMoveRequested 10), .manageStart]
  let run := trace next (Session.new .default false false false) es
  have hrun : IsRun Step (Session.new .default false false false) run := isRun_trace next es _
  obtain ⟨τ, hτ⟩ : ∃ τ, run[6]? = some τ := Option.isSome_iff_exists.mp (by decide +kernel)
  have hevent : es[6]? = some τ.event := event_of_getElem?_trace hτ
  have hstale : (run[6]?.bind fun τ => τ.post.data.state.windows[0]?.map fun w =>
      (w.floating, boundsOf τ.post.data.sent w.proxy)) = some (true, some (784, 584)) := by
    decide +kernel
  rw [hτ, Option.bind_some, Option.map_eq_some_iff] at hstale
  obtain ⟨w, hw, hdata⟩ := hstale
  obtain ⟨hfl, hbounds⟩ := Prod.mk.inj hdata
  have hnone := (hall run hrun τ (List.mem_of_getElem? hτ) (Option.some.inj hevent).symm).1 w (List.mem_of_getElem? hw) hfl
  rw [hbounds] at hnone
  cases hnone

end Session

end Streamwm
