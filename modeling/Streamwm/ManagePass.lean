import Streamwm.PassRequests
import Streamwm.Refinement

/-!
# A manage sequence, request by request

`onManageStart_pass` : what a manage sequence sends about dimension bounds and the pointer are
the proposals to the cells of the layout, and then the warp that was pending. Both are read off
the state after the fullscreen block; the rest of the sequence sends no such request.
-/

namespace Streamwm

namespace State

/-- The state after the fullscreen block. -/
def managed (s : State) (config : Config) : State :=
  { s with windows := s.windows.map fun w => (s.manageWindow config w).1 }

/-- The state after the windows are told their tiled edges. -/
def tiled (s : State) : State :=
  { s with windows := s.windows.map fun w => w.setTiled.1 }

variable {s : State}

/-- The fullscreen block does to a window what its case says. -/
theorem managed_manageWindow (s : State) (config : Config) (w : Window) :
    Window.Managed w (s.manageWindow config w).1 :=
  w.managed_manage _ _ _ _

end State

namespace AppData

variable {d d' d'' : AppData} {rs ps ps' : List Request}

/-- The requests of a manage sequence made from `d` to `d'`. -/
def Emits (d d' : AppData) (ps : List Request) : Prop :=
  ∃ rs, d'.sent = d.sent ++ rs ∧ rs.filter Request.OfPass = ps

/-- A step that leaves the pass its work adds nothing to it. -/
theorem Plain.emits (h : Plain d d') : Emits d d' [] := by
  obtain ⟨rs, hrs, hr⟩ := h
  exact ⟨rs, hrs, List.filter_eq_nil_iff.mpr fun r hmem => by simp [hr r hmem]⟩

/-- Steps one after the other. -/
theorem Emits.trans (h : Emits d d' ps) (h' : Emits d' d'' ps') : Emits d d'' (ps ++ ps') := by
  obtain ⟨rs, hrs, rfl⟩ := h
  obtain ⟨rs', hrs', rfl⟩ := h'
  exact ⟨rs ++ rs', by rw [hrs', hrs, List.append_assoc], List.filter_append ..⟩

theorem Emits.plain (h : Emits d d' ps) (h' : Plain d' d'') : Emits d d'' ps := by
  simpa using h.trans h'.emits

theorem Plain.then (h : Plain d d') (h' : Emits d' d'' ps) : Emits d d'' ps :=
  h.emits.trans h'

/-! ## Before the proposals -/

/-- The cursor of a seat is set through its device. -/
theorem calm_setSeatCursor (seat : ObjectId) (shape : CursorShape) :
    Calm d (d.setSeatCursor seat shape) := by
  unfold setSeatCursor
  split
  · exact Calm.refl d
  · split
    · exact Calm.refl d
    · split <;> exact calm_send rfl

/-- The operation that was staged is started with its cursor. -/
theorem calm_startPendingOp : Calm d d.startPendingOp := by
  unfold startPendingOp
  split
  · exact Calm.refl d
  · next op _ =>
    have hclear : Calm d { d with pendingOp := none } := calm_of_eq rfl rfl
    have hcursor := hclear.trans (calm_setSeatCursor op.seat (cursorShape op.kind op.edges))
    exact hcursor.trans ((calm_send rfl).trans (calm_of_eq rfl rfl))

/-- The operation that was to end is ended, and the cursor set back. -/
theorem calm_endRequestedOp : Calm d d.endRequestedOp := by
  unfold endRequestedOp
  split_ifs
  · dsimp only
    split
    · exact calm_of_eq rfl rfl
    · next op _ =>
      have hclear : Calm d { d with opEndRequested := false, pointerOp := none } :=
        calm_of_eq rfl rfl
      exact hclear.trans ((calm_send rfl).trans (calm_setSeatCursor op.seat .default))
  · exact Calm.refl d

theorem calm_processPointerOps : Calm d d.processPointerOps :=
  calm_startPendingOp.trans calm_endRequestedOp

/-- The windows to be closed are asked to close. -/
theorem calm_applyPendingClose : Calm d d.applyPendingClose := by
  have hclear : Calm d { d with pendingClose := [] } := calm_of_eq rfl rfl
  refine hclear.trans (calm_sendAll fun r hr => ?_)
  obtain ⟨fid, -, hr⟩ := List.mem_flatMap.mp hr
  exact calm_map_toList (fun _ => rfl) _ r hr

/-- The fullscreen block sends no bounds of its own. -/
theorem calm_applyFullscreen : Calm d d.applyFullscreen := by
  refine calm_updateWindows fun w r hr => ?_
  have hkind := w.ofManage_manage _ _ _ _ r hr
  cases r <;> first
    | rfl
    | cases hkind

/-- The default layer is set at most. -/
theorem calm_setLayerDefault : Calm d d.setLayerDefault := by
  unfold setLayerDefault
  split_ifs
  · exact Calm.refl d
  · split
    · exact (calm_send rfl).trans (calm_of_eq rfl rfl)
    · exact Calm.refl d

theorem calm_manageWindows : Calm d d.manageWindows := by
  have hhide : Calm d (d.sendAll (d.state.windows.map fun w => Request.hide w.proxy)) :=
    calm_sendAll (ofPass_map (fun _ => rfl) _)
  exact ((hhide.trans calm_applyPendingClose).trans calm_applyFullscreen).trans calm_setLayerDefault

theorem config_setLayerDefault : d.setLayerDefault.config = d.config := by
  unfold setLayerDefault
  split_ifs
  · rfl
  · split <;> rfl

/-- What the steps around the fullscreen block come to. -/
theorem manageWindows_eq (d : AppData) :
    d.manageWindows.state = d.state.managed d.config ∧ d.manageWindows.config = d.config :=
  ⟨inert_setLayerDefault.2, config_setLayerDefault⟩

/-! ## The proposals and the warp -/

/-- Bounds go with the cells, and with no floating window. -/
theorem emits_proposeAll (d : AppData) (gs : List (ℕ × Geometry)) :
    Emits d (d.proposeAll gs) ((gs.flatMap d.state.proposeCell).filter Request.OfPass) := by
  have hfloats : d.state.proposeFloats.filter Request.OfPass = [] := by
    refine List.filter_eq_nil_iff.mpr fun r hr => ?_
    obtain ⟨w, -, hw⟩ := List.mem_flatMap.mp hr
    split_ifs at hw
    · simp [List.mem_singleton.mp hw, Request.OfPass]
    · simp at hw
  exact ⟨_, rfl, by rw [List.filter_append, hfloats, List.append_nil]⟩

theorem calm_setTiled : Calm d (d.updateWindows Window.setTiled) := by
  refine calm_updateWindows fun w r hr => ?_
  obtain ⟨t, -, hrs⟩ := w.setTiled_spec
  obtain ⟨edges, rfl⟩ := hrs r hr
  rfl

theorem calm_enableBindings : Calm d d.enableBindings := by
  obtain ⟨rs, hrs, hkind⟩ := exists_enableBindings d
  rw [hrs]
  refine calm_sendAll fun r hr => ?_
  obtain ⟨b, rfl | rfl⟩ := hkind r hr <;> rfl

/-- A warp is all work of the pass. -/
theorem filter_warpRequests (s : State) (target : ℕ) :
    (s.warpRequests target).filter Request.OfPass = s.warpRequests target := by
  refine List.filter_eq_self.mpr fun r hr => ?_
  obtain ⟨seat, x, y, rfl⟩ := mem_warpRequests hr
  rfl

/-- A pending warp is made and forgotten. -/
theorem emits_applyPointerWarp (d : AppData) :
    Emits d d.applyPointerWarp (d.pendingPointerWarp.elim [] d.state.warpRequests) ∧
      d.applyPointerWarp.pendingPointerWarp = none := by
  unfold applyPointerWarp
  split
  · next hnone =>
    rw [hnone]
    exact ⟨(Calm.refl d).plain.emits, rfl⟩
  · next target htarget =>
    rw [htarget]
    exact ⟨⟨_, rfl, filter_warpRequests d.state target⟩, rfl⟩

/-- What the rest of a manage sequence does. -/
theorem finishManage_pass (h : d.finishManage = some d') : ∃ gs,
    d.state.computeAll d.config = some gs ∧ d'.state = d.state.tiled ∧
      d'.pendingPointerWarp = none ∧
        Emits d d' ((gs.flatMap d.state.proposeCell).filter Request.OfPass ++
          d.pendingPointerWarp.elim [] d.state.warpRequests) := by
  obtain ⟨routed, -, h⟩ := Option.bind_eq_some_iff.mp h
  obtain ⟨gs, hgs, h⟩ := Option.bind_eq_some_iff.mp h
  obtain rfl := Option.some.inj h
  have hfocus : Calm d (d.sendAll (d.state.focusRequests routed)) := by
    refine calm_sendAll (ofPass_map (fun seat => ?_) _)
    cases routed <;> rfl
  generalize hd₁ : d.sendAll (d.state.focusRequests routed) = d₁ at hgs hfocus ⊢
  have hstate : d₁.state = d.state := by rw [← hd₁]; rfl
  have hconfig : d₁.config = d.config := by rw [← hd₁]; rfl
  rw [hstate, hconfig] at hgs
  have hpropose := hfocus.plain.then (emits_proposeAll d₁ gs)
  rw [hstate] at hpropose
  have htell : Calm (d₁.proposeAll gs)
      ((d₁.proposeAll gs).updateWindows Window.setTiled).enableBindings :=
    calm_setTiled.trans calm_enableBindings
  obtain ⟨hwarp, hnone⟩ := emits_applyPointerWarp
    ((d₁.proposeAll gs).updateWindows Window.setTiled).enableBindings
  have hpending : ((d₁.proposeAll gs).updateWindows Window.setTiled).enableBindings.pendingPointerWarp =
      d.pendingPointerWarp := htell.warp.trans hfocus.warp
  have hafter : ((d₁.proposeAll gs).updateWindows Window.setTiled).enableBindings.state =
      d.state.tiled := congrArg State.tiled hstate
  have hrequests : d.state.tiled.warpRequests = d.state.warpRequests := rfl
  rw [hpending, hafter, hrequests] at hwarp
  refine ⟨gs, hgs, inert_applyPointerWarp.2.trans hafter, hnone, ?_⟩
  exact ((hpropose.plain htell.plain).trans hwarp).plain (calm_send rfl).plain

/-- What a manage sequence does, the fullscreen block taken as done. -/
theorem onManageStart_pass (h : d.onManageStart = some d') : ∃ gs,
    (d.state.refocused.managed d.config).computeAll d.config = some gs ∧
      d'.state = (d.state.refocused.managed d.config).tiled ∧ d'.pendingPointerWarp = none ∧
        Emits d d' ((gs.flatMap (d.state.refocused.managed d.config).proposeCell).filter
          Request.OfPass ++ d.pendingPointerWarp.elim [] d.state.warpRequests) := by
  obtain ⟨d₁, hbegin, h⟩ := Option.bind_eq_some_iff.mp h
  have hpass := pointerPass d
  have hd₁ : d₁ = { d.processPointerOps with state := d.state.refocused } := by
    rw [beginManage, modifyStateM, hpass.state, d.state.refocusAll_eq.1] at hbegin
    exact (Option.some.inj hbegin).symm
  have hcalm : Calm d d₁.manageWindows := by
    rw [hd₁]
    exact (calm_processPointerOps.trans calm_state).trans calm_manageWindows
  obtain ⟨hstate, hconfig⟩ := manageWindows_eq d₁
  have hconfig₁ : d₁.config = d.config := by rw [hd₁]; exact hpass.config
  have hstate₁ : d₁.state = d.state.refocused := by rw [hd₁]
  rw [hstate₁, hconfig₁] at hstate
  rw [hconfig₁] at hconfig
  obtain ⟨gs, hgs, hfinish, hnone, hemits⟩ := finishManage_pass h
  rw [hstate, hconfig] at hgs
  rw [hstate] at hfinish
  refine ⟨gs, hgs, hfinish, hnone, ?_⟩
  have hwarp : ∀ target, (d.state.refocused.managed d.config).warpRequests target =
      d.state.warpRequests target := by
    intro target
    simp only [State.warpRequests, State.managed, State.refocused, List.getElem?_mapIdx]
    cases d.state.outputs[target]? <;> rfl
  rw [hstate, hcalm.warp, funext hwarp] at hemits
  exact hcalm.plain.then hemits

end AppData

end Streamwm
