import Streamwm.Arrivals

/-!
# Manage and render sequences in order

`river-window-management-v1.xml` divides the requests in two : those that modify window
management state belong in a manage sequence, those that modify rendering state in a manage or
a render sequence, and anything else is a protocol error. A sequence begins with `manage_start`
or `render_start` and ends with the finish request of the same kind. `SequenceState` is the sequence
river is in and `SequenceState.Admits` the rule.

No handler but the two of the start events sends a request that depends on the phase
(`outside_handle`), so all requests of every run are in order (`sequences_in_order`).
-/

namespace Streamwm

open Partial Transition

/-- The sequence river is in. -/
inductive SequenceState
  | idle
  | managing
  | rendering
  deriving DecidableEq

/-- Where a request is allowed. -/
inductive Scope
  | anywhere
  /-- It modifies window management state. -/
  | management
  /-- It modifies rendering state. -/
  | rendering
  | manageEnd
  | renderEnd
  deriving DecidableEq

def Request.scope : Request → Scope
  | .manageFinish => .manageEnd
  | .renderFinish => .renderEnd
  | .close _ | .fullscreen _ _ | .exitFullscreen _ | .informFullscreen _ | .informNotFullscreen _
  | .setCapabilities _ | .useSsd _ | .useCsd _ | .setDimensionBounds _ _ _
  | .proposeDimensions _ _ _ | .setTiled _ _ | .focusWindow _ _ | .clearFocus _
  | .opStartPointer _ _ | .opEnd _ | .pointerWarp _ _ _ | .enable _ | .disable _
  | .layerSetDefault _ => .management
  | .hide _ | .show _ | .setBorders _ _ _ _ _ _ _ | .setPosition _ _ _ | .placeTop _ => .rendering
  | _ => .anywhere

/-- The request ends a sequence. -/
def Request.Ends (r : Request) : Bool :=
  match r.scope with
  | .manageEnd | .renderEnd => true
  | _ => false

namespace SequenceState

/-- River starts a sequence. -/
def observe (p : SequenceState) : Event → SequenceState
  | .manageStart => .managing
  | .renderStart _ => .rendering
  | _ => p

/-- A sequence ends with its finish request. -/
def request (p : SequenceState) (r : Request) : SequenceState :=
  if r.Ends then .idle else p

def requests (p : SequenceState) (rs : List Request) : SequenceState :=
  rs.foldl request p

/-- The request is in order in this phase. -/
def Admits (p : SequenceState) (r : Request) : Prop :=
  match r.scope with
  | .anywhere => True
  | .management => p = .managing
  | .rendering => p ≠ .idle
  | .manageEnd => p = .managing
  | .renderEnd => p = .rendering

/-- One request after the other. -/
def AdmitsAll : SequenceState → List Request → Prop
  | _, [] => True
  | p, r :: rs => p.Admits r ∧ AdmitsAll (p.request r) rs

/-- The request is in order and ends no sequence. -/
def Keeps (p : SequenceState) (r : Request) : Prop :=
  p.Admits r ∧ p.request r = p

theorem keeps_anywhere {p : SequenceState} {r : Request} (h : r.scope = .anywhere) : p.Keeps r := by
  unfold Keeps Admits request Request.Ends
  rw [h]
  exact ⟨trivial, rfl⟩

theorem keeps_management {r : Request} (h : r.scope = .management) : managing.Keeps r := by
  unfold Keeps Admits request Request.Ends
  rw [h]
  exact ⟨rfl, rfl⟩

theorem keeps_rendering {p : SequenceState} {r : Request} (hp : p ≠ .idle) (h : r.scope = .rendering) :
    p.Keeps r := by
  unfold Keeps Admits request Request.Ends
  rw [h]
  exact ⟨hp, rfl⟩

theorem Keeps.ends {p : SequenceState} {r : Request} (h : p.Keeps r) : r.Ends = false := by
  obtain ⟨hadmits, hsame⟩ := h
  by_contra hends
  have hidle : p = .idle := by
    rw [request, if_pos (by simpa using hends)] at hsame
    exact hsame.symm
  subst hidle
  unfold Admits at hadmits
  unfold Request.Ends at hends
  split at hadmits
  · next hscope => simp [hscope] at hends
  · cases hadmits
  · exact hadmits rfl
  · cases hadmits
  · cases hadmits

/-- Requests that are in order and end no sequence, and then others. -/
theorem admitsAll_append {p : SequenceState} {l : List Request} : ∀ {rs : List Request},
    (∀ r ∈ rs, p.Keeps r) →
      (p.AdmitsAll (rs ++ l) ↔ p.AdmitsAll l) ∧ p.requests (rs ++ l) = p.requests l
  | [], _ => ⟨Iff.rfl, rfl⟩
  | r :: rs, h => by
    obtain ⟨hadmits, hsame⟩ := h r List.mem_cons_self
    obtain ⟨hiff, heq⟩ := admitsAll_append (l := l) fun r' hr' => h r' (List.mem_cons_of_mem r hr')
    refine ⟨?_, ?_⟩
    · change p.Admits r ∧ (p.request r).AdmitsAll (rs ++ l) ↔ _
      rw [hsame, hiff]
      exact and_iff_right hadmits
    · change (p.request r).requests (rs ++ l) = _
      rw [hsame, heq]

end SequenceState

/-! ## Outside the sequences -/

namespace AppData

variable {d d' : AppData}

/-- The requests made are allowed at any time. -/
def Outside (d d' : AppData) : Prop :=
  ∃ rs, d'.sent = d.sent ++ rs ∧ ∀ r ∈ rs, r.scope = .anywhere

/-- No handler but those of the start events sends a request that belongs in a sequence. -/
theorem outside_handle (hids : (d.state.windows.map (·.id)).Nodup) {event : Event}
    (hevent : event.Starts = false) (h : d.handle event = some d') : Outside d d' := by
  obtain ⟨rs, hrs, hr⟩ := occasional_handle hids hevent h
  refine ⟨rs, hrs, fun r hmem => ?_⟩
  have hkind := hr r hmem
  cases r <;> first | rfl | cases hkind

end AppData

/-! ## Inside the sequences -/

/-- The parts of a manage sequence. -/
inductive Part
  | pointer
  | windows
  | layer
  | focus
  | sizes
  | bindings
  | warp
  deriving DecidableEq

/-- The part of a manage sequence that makes a request. -/
def Request.part : Request → Option Part
  | .opStartPointer _ _ | .opEnd _ | .setCursorShape _ _ | .setDefaultCursor _ => some .pointer
  | .hide _ | .close _ | .fullscreen _ _ | .exitFullscreen _ | .informFullscreen _
  | .informNotFullscreen _ | .setCapabilities _ | .useSsd _ | .useCsd _ | .setTiled _ _ =>
    some .windows
  | .layerSetDefault _ => some .layer
  | .focusWindow _ _ | .clearFocus _ => some .focus
  | .setDimensionBounds _ _ _ | .proposeDimensions _ _ _ => some .sizes
  | .enable _ | .disable _ => some .bindings
  | .pointerWarp _ _ _ => some .warp
  | _ => none

/-- What a render sequence asks for. -/
def Request.Rendering : Request → Bool
  | .getNode _ _ | .destroyNode _ | .hide _ | .show _ | .setPosition _ _ _ | .placeTop _
  | .setBorders _ _ _ _ _ _ _ => true
  | _ => false

namespace AppData

variable {d d' : AppData}

theorem part_map {α : Type} {f : α → Request} {c : Part} (hf : ∀ a, (f a).part = some c)
    (l : List α) : ∀ r ∈ l.map f, r.part = some c :=
  List.forall_mem_map.mpr fun a _ => hf a

theorem part_cursorRequests (s : State) (seat : ObjectId) (shape : CursorShape) :
    ∀ r ∈ s.cursorRequests seat shape, r.part = some .pointer := by
  intro r hr
  obtain ⟨t, -, hr⟩ := Option.bind_eq_some_iff.mp (Option.mem_toList.mp hr)
  obtain ⟨pointer, -, rfl⟩ := Option.map_eq_some_iff.mp hr
  cases t.cursorShape <;> rfl

theorem part_pointerRequests (d : AppData) : ∀ r ∈ d.pointerRequests, r.part = some .pointer := by
  intro r hr
  unfold pointerRequests at hr
  rcases List.mem_append.mp hr with hr | hr
  · cases hop : d.pendingOp with
    | none => simp [hop] at hr
    | some op =>
      rw [hop, Option.map_some, Option.getD_some, List.mem_append, List.mem_singleton] at hr
      rcases hr with hr | rfl
      · exact part_cursorRequests _ _ _ r hr
      · rfl
  · split_ifs at hr
    · cases hop : d.stagedOp with
      | none => simp [hop] at hr
      | some op =>
        rw [hop, Option.map_some, Option.getD_some, List.mem_cons] at hr
        rcases hr with rfl | hr
        · rfl
        · exact part_cursorRequests _ _ _ r hr
    · cases hr

theorem part_proposals (s : State) (gs : List (ℕ × Geometry)) :
    ∀ r ∈ gs.flatMap s.proposeCell ++ s.proposeFloats, r.part = some .sizes := by
  intro r hr
  rcases List.mem_append.mp hr with hr | hr
  · obtain ⟨p, -, hp⟩ := List.mem_flatMap.mp hr
    unfold State.proposeCell at hp
    split_ifs at hp
    · cases hp
    · split at hp
      · cases hp
      · split_ifs at hp
        · rw [List.mem_singleton.mp hp]
          rfl
        · simp only [List.mem_cons, List.not_mem_nil, or_false] at hp
          rcases hp with rfl | rfl <;> rfl
  · obtain ⟨w, -, hw⟩ := List.mem_flatMap.mp hr
    split_ifs at hw
    · rw [List.mem_singleton.mp hw]
      rfl
    · cases hw

/-- The requests of a part that are not about windows or the pointer. -/
def partRequests (d : AppData) (routed : Option Window) (gs : List (ℕ × Geometry)) :
    Part → List Request
  | .layer => d.layerRequests
  | .focus => d.settled.focusRequests routed
  | .sizes => gs.flatMap d.settled.proposeCell ++ d.settled.proposeFloats
  | .bindings => d.bindingRequests
  | _ => d.manageRequests routed gs

/-- A manage sequence makes the requests of its parts, each part in one place. -/
theorem part_manageRequests {routed : Option Window} {gs : List (ℕ × Geometry)} {r : Request}
    (hr : r ∈ d.manageRequests routed gs) :
    ∃ c, r.part = some c ∧ r ∈ d.partRequests routed gs c := by
  have hmem := hr
  simp only [manageRequests, List.mem_append, or_assoc] at hr
  rcases hr with hr | hr | hr | hr | hr | hr | hr | hr | hr | hr | hr
  · exact ⟨.pointer, part_pointerRequests d r hr, hmem⟩
  · exact ⟨.windows, part_map (fun _ => rfl) _ r hr, hmem⟩
  · obtain ⟨fid, -, hr⟩ := List.mem_flatMap.mp hr
    obtain ⟨w, -, rfl⟩ := Option.map_eq_some_iff.mp (Option.mem_toList.mp hr)
    exact ⟨.windows, rfl, hmem⟩
  · obtain ⟨w, -, hr⟩ := List.mem_flatMap.mp hr
    have hkind := w.ofManage_manage _ _ _ _ r hr
    refine ⟨.windows, ?_, hmem⟩
    cases r <;> first | rfl | cases hkind
  · refine ⟨.layer, ?_, hr⟩
    unfold layerRequests at hr
    split_ifs at hr
    · cases hr
    · obtain ⟨layer, -, rfl⟩ := Option.map_eq_some_iff.mp (Option.mem_toList.mp hr)
      rfl
  · refine ⟨.focus, part_map (fun seat => ?_) _ r hr, hr⟩
    cases routed <;> rfl
  · exact ⟨.sizes, part_proposals d.settled gs r (List.mem_append_left _ hr),
      List.mem_append_left _ hr⟩
  · exact ⟨.sizes, part_proposals d.settled gs r (List.mem_append_right _ hr),
      List.mem_append_right _ hr⟩
  · obtain ⟨w, -, hr⟩ := List.mem_flatMap.mp hr
    obtain ⟨t, -, hedges⟩ := w.setTiled_spec
    obtain ⟨edges, rfl⟩ := hedges r hr
    exact ⟨.windows, rfl, hmem⟩
  · refine ⟨.bindings, ?_, hr⟩
    rcases List.mem_append.mp hr with hr | hr
    · obtain ⟨b, -, rfl⟩ := List.mem_map.mp hr
      split_ifs <;> rfl
    · exact part_map (fun _ => rfl) _ r hr
  · refine ⟨.warp, ?_, hmem⟩
    cases hwarp : d.pendingPointerWarp with
    | none => simp [hwarp] at hr
    | some target =>
      rw [hwarp, Option.elim_some] at hr
      obtain ⟨seat, x, y, rfl⟩ := mem_warpRequests hr
      rfl

theorem keeps_manageRequests (routed : Option Window) (gs : List (ℕ × Geometry)) :
    ∀ r ∈ d.manageRequests routed gs, SequenceState.managing.Keeps r := by
  intro r hr
  obtain ⟨c, hpart, -⟩ := part_manageRequests hr
  cases r <;> first
    | exact SequenceState.keeps_management rfl
    | exact SequenceState.keeps_rendering (by simp) rfl
    | exact SequenceState.keeps_anywhere rfl
    | cases hpart

/-- The requests that draw a window. -/
theorem rendering_draw (config : Config) (focused : Option ℕ) (place : Placement) (w : Window) :
    ∀ r ∈ (w.draw config focused place).2, r.Rendering = true := by
  intro r hr
  unfold Window.draw at hr
  by_cases hp : place = .hidden
  · rw [if_pos hp, List.mem_singleton] at hr
    exact hr ▸ rfl
  rw [if_neg hp, List.mem_append, List.mem_append, List.mem_singleton] at hr
  rcases hr with (hr | hr) | rfl
  · unfold Window.raiseRequests at hr
    cases hnode : w.node with
    | none => simp [hnode] at hr
    | some node =>
      simp only [hnode, Option.map_some, Option.getD_some, List.mem_cons, List.not_mem_nil,
        or_false] at hr
      rcases hr with rfl | rfl <;> rfl
  · split_ifs at hr
    · exact List.mem_singleton.mp hr ▸ rfl
    · cases hr
  · rfl

/-- A render sequence begins with requests for nodes. -/
theorem requests_beginRender (d : AppData) :
    ∃ cs : List (Handles.Call ObjectId), d.beginRender.sent = d.sent ++ cs.map nodeRequest := by
  obtain ⟨cs₁, h₁, -⟩ := (nodePass_releaseHiddenNodes d).moves
  obtain ⟨cs₂, h₂, -⟩ := (nodePass_createNodes d.releaseHiddenNodes).moves
  obtain ⟨cs₃, h₃, -⟩ := (nodePass_releaseHiddenNodes d.releaseHiddenNodes.createNodes).moves
  exact ⟨cs₁ ++ cs₂ ++ cs₃, by simp only [beginRender, h₃, h₂, h₁, List.map_append,
    List.append_assoc]⟩

/-- The requests of a render sequence, up to its end. -/
theorem rendering_onRenderStart (hids : (d.state.windows.map (·.id)).Nodup) {hasClients : Bool}
    (h : d.onRenderStart hasClients = some d') : ∃ rs,
    d'.sent = d.sent ++ (rs ++ [.renderFinish]) ∧ ∀ r ∈ rs, r.Rendering = true := by
  obtain ⟨focused, gs, published, -, -, rfl⟩ := onRenderStart_eq hids h
  obtain ⟨cs, hcs⟩ := requests_beginRender d
  refine ⟨cs.map nodeRequest ++ (d.beginRender.state.blocks (d.state.placement gs)).flatMap fun w =>
    (w.draw d.config focused (d.state.placement gs w)).2, by simp [hcs],
    List.forall_mem_append.mpr ⟨List.forall_mem_map.mpr fun c _ => ?_, fun r hr => ?_⟩⟩
  · cases c <;> rfl
  · obtain ⟨w, -, hr⟩ := List.mem_flatMap.mp hr
    exact rendering_draw d.config focused _ w r hr

/-- A manage sequence is in order, and ends. -/
theorem sequence_onManageStart (h : d.onManageStart = some d') : ∃ rs,
    d'.sent = d.sent ++ (rs ++ [.manageFinish]) ∧ ∀ r ∈ rs, SequenceState.managing.Keeps r := by
  obtain ⟨routed, gs, -, -, rfl⟩ := onManageStart_eq h
  exact ⟨_, rfl, keeps_manageRequests routed gs⟩

/-- A render sequence is in order, and ends. -/
theorem sequence_onRenderStart (hids : (d.state.windows.map (·.id)).Nodup) {hasClients : Bool}
    (h : d.onRenderStart hasClients = some d') : ∃ rs,
    d'.sent = d.sent ++ (rs ++ [.renderFinish]) ∧ ∀ r ∈ rs, SequenceState.rendering.Keeps r := by
  obtain ⟨rs, hrs, hr⟩ := rendering_onRenderStart hids h
  refine ⟨rs, hrs, fun r hmem => ?_⟩
  have hkind := hr r hmem
  cases r <;> first
    | exact SequenceState.keeps_rendering (by simp) rfl
    | exact SequenceState.keeps_anywhere rfl
    | cases hkind

end AppData

/-! ## Runs -/

/-- The window manager and the sequence river is in. -/
structure Sequencing where
  data : AppData
  phase : SequenceState

namespace Sequencing

/-- The exchange when the event loop starts. -/
def new (config : Config) (xkb layerShell cursorShapeManager : Bool) : Sequencing :=
  { data := AppData.new config xkb layerShell cursorShapeManager, phase := .idle }

/-- One event; `none` when its handler panics. -/
def next (p : Sequencing) (event : Event) : Option Sequencing := do
  let data ← p.data.handle event
  return ⟨data, (p.phase.observe event).requests (data.sent.drop p.data.sent.length)⟩

def Step (p : Sequencing) (event : Event) (p' : Sequencing) : Prop :=
  p.next event = some p'

variable {p p' : Sequencing} {event : Event}

/-- What holds around every event. -/
structure Invariant (p : Sequencing) : Prop where
  wellFormed : p.data.state.WellFormed
  freshIds : p.data.state.FreshIds
  phase : p.phase = .idle

/-- The finish request that ends the sequence an event starts. -/
def ending : Event → List Request
  | .manageStart => [.manageFinish]
  | .renderStart _ => [.renderFinish]
  | _ => []

/-- The requests of a handler are in order, and end what its event started. -/
theorem inOrder_handle {d d' : AppData} (hids : d.state.FreshIds) (h : d.handle event = some d') :
    ∃ rs, d'.sent = d.sent ++ (rs ++ ending event) ∧
      ∀ r ∈ rs, (SequenceState.idle.observe event).Keeps r := by
  cases hevent : event.Starts with
  | false =>
    obtain ⟨rs, hrs, hr⟩ := AppData.outside_handle hids.nodup hevent h
    have hending : ending event = [] := by
      cases event <;> first | rfl | cases hevent
    exact ⟨rs, by rw [hrs, hending, List.append_nil], fun r hmem => SequenceState.keeps_anywhere (hr r hmem)⟩
  | true =>
    cases event with
    | manageStart => exact AppData.sequence_onManageStart h
    | renderStart hasClients => exact AppData.sequence_onRenderStart hids.nodup h
    | _ => cases hevent

theorem Invariant.step (hp : p.Invariant) (h : Step p event p') : p'.Invariant ∧
    ∃ rs, p'.data.sent = p.data.sent ++ (rs ++ ending event) ∧
      ∀ r ∈ rs, (p.phase.observe event).Keeps r := by
  obtain ⟨d', hd', h⟩ := Option.bind_eq_some_iff.mp h
  obtain rfl := Option.some.inj h
  obtain ⟨rs, hrs, hr⟩ := inOrder_handle hp.freshIds hd'
  obtain ⟨hwf, hreach⟩ := AppData.Step.wellFormed hp.wellFormed hd'
  rw [hp.phase]
  refine ⟨⟨hwf, hp.freshIds.of_reachable hp.wellFormed hreach, ?_⟩, rs, hrs, hr⟩
  change (SequenceState.idle.observe event).requests (d'.sent.drop p.data.sent.length) = .idle
  rw [hrs, List.drop_left, (SequenceState.admitsAll_append hr).2]
  cases event <;> rfl

theorem invariant_new (config : Config) (xkb layerShell cursorShapeManager : Bool) :
    (new config xkb layerShell cursorShapeManager).Invariant :=
  ⟨State.wellFormed_new _, State.freshIds_new _, rfl⟩

/-- In every run every request is in order in the phase it is made in : no window management
state is modified outside a manage sequence and no rendering state outside both. A sequence is
ended by the handler of its start, with one finish request, its last; no other event is
answered by one. -/
theorem sequences_in_order {config : Config} {xkb layerShell cursorShapeManager : Bool}
    {τs : List (Transition.Step Sequencing Event)}
    (h : IsRun Step (new config xkb layerShell cursorShapeManager) τs) :
    ∀ τ ∈ τs, τ.post.phase = .idle ∧ ∃ rs,
      τ.post.data.sent = τ.pre.data.sent ++ (rs ++ ending τ.event) ∧
      (∀ r ∈ rs, r.Ends = false) ∧
      (τ.pre.phase.observe τ.event).AdmitsAll (rs ++ ending τ.event) := by
  have hinv := h.invariant (I := Invariant) (fun _ _ _ hp hst => (hp.step hst).1)
    (invariant_new config xkb layerShell cursorShapeManager)
  intro τ hτ
  obtain ⟨hpre, hpost⟩ := hinv τ hτ
  obtain ⟨-, rs, hrs, hr⟩ := hpre.step (h.step_of_mem hτ)
  refine ⟨hpost.phase, rs, hrs, fun r hmem => (hr r hmem).ends, ?_⟩
  rw [(SequenceState.admitsAll_append hr).1]
  cases τ.event <;> simp [ending, SequenceState.AdmitsAll, SequenceState.Admits, SequenceState.observe, Request.scope]

/-- A window is announced, managed, shown and closed. -/
theorem sequences_in_order_shown : ∃ τs, IsRun Step (new .default true true true) τs ∧
    τs.length = 6 ∧ ∀ τ ∈ τs, τ.post.phase = .idle ∧ ∃ rs,
      τ.post.data.sent = τ.pre.data.sent ++ (rs ++ ending τ.event) ∧
      (∀ r ∈ rs, r.Ends = false) ∧
      (τ.pre.phase.observe τ.event).AdmitsAll (rs ++ ending τ.event) := by
  have hrun := isRun_trace next [.newOutput 1, .newSeat 2, .newWindow 3, .manageStart,
    .renderStart false, .window 3 .closed] (new .default true true true)
  exact ⟨_, hrun, by decide +kernel, sequences_in_order hrun⟩

end Sequencing

end Streamwm
