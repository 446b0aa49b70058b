import Streamwm.Library.Position
import Streamwm.ManagePass
import Streamwm.PointerWarp
import Streamwm.Tracking

/-!
# The output of a pending warp

A pending warp names its output by its index. Until the next manage sequence outputs can be
removed and added, and nothing corrects the index then, although `remove_output` corrects the
index of the focused output and those of the owners of tags. So the sequence warps the pointer
to the output chosen iff no output up to that one was removed; where the one chosen was
removed itself, it warps to another one unless too few are left (`warp_keeps_output_iff`).
-/

namespace Streamwm

open Position Transition

/-- The requests that move the pointer. -/
def Request.OfWarp : Request → Bool
  | .pointerWarp _ _ _ => true
  | _ => false

namespace State

variable {s : State}

/-- Every seat's pointer at the centre of an output, if there is one. -/
def warpsTo (s : State) (o : Option Output) : List Request :=
  o.elim [] fun o => s.seats.map fun seat =>
    .pointerWarp seat.proxy (o.x + (o.width / 2 : ℕ)) (o.y + (o.height / 2 : ℕ))

theorem warpRequests_eq (s : State) (target : ℕ) :
    s.warpRequests target = s.warpsTo s.outputs[target]? := by
  unfold warpRequests warpsTo
  cases s.outputs[target]? <;> rfl

/-- The proposals move no pointer. -/
theorem proposeCell_ofWarp (s : State) (p : ℕ × Geometry) :
    ∀ r ∈ s.proposeCell p, r.OfWarp = false := by
  intro r hr
  unfold proposeCell at hr
  split_ifs at hr
  · cases hr
  · split at hr
    · cases hr
    · split_ifs at hr
      · rw [List.mem_singleton.mp hr]
        rfl
      · simp only [List.mem_cons, List.not_mem_nil, or_false] at hr
        rcases hr with rfl | rfl <;> rfl

end State

namespace AppData

variable {d d' : AppData} {action : String} {binding : ObjectId} {k : ℕ}

/-- The output the next manage sequence warps the pointer to. -/
def warpOutput (d : AppData) : Option Output :=
  d.pendingPointerWarp.bind fun target => d.state.outputs[target]?

/-- What an action makes of the pending warp, if it sets it. -/
def actionWarp (d : AppData) (action : String) : Option (Option ℕ) :=
  match splitAction action with
  | (.focusTag, arg) => (arg.bind parseUsize).map fun tag =>
    d.state.activeOutput.bind fun o => d.state.tagTarget o tag
  | (.focusNextOutput, _) => (d.state.focusStepOutput true).2.map some
  | (.focusPrevOutput, _) => (d.state.focusStepOutput false).2.map some
  | _ => none

/-- What a pressed binding makes of the pending warp, if it sets it. -/
def bindingWarp (d : AppData) (binding : ObjectId) : Option (Option ℕ) :=
  ((d.bindings.find? fun b => b.1 == binding).map (·.2.1)).bind d.actionWarp

theorem pendingPointerWarp_actionFocusStepOutput (d : AppData) (next : Bool) :
    (d.actionFocusStepOutput next).pendingPointerWarp =
      ((d.state.focusStepOutput next).2.map some).getD d.pendingPointerWarp := by
  unfold actionFocusStepOutput
  split
  · next s target h => rw [h]; rfl
  · next s h => rw [h]; rfl

theorem pendingPointerWarp_runAction (h : d.runAction action = some d') :
    d'.pendingPointerWarp = (d.actionWarp action).getD d.pendingPointerWarp := by
  unfold runAction at h
  unfold actionWarp
  generalize splitAction action = p at h
  obtain ⟨name, arg⟩ := p
  cases name with
  | focusTag =>
    cases harg : arg.bind parseUsize with
    | none =>
      simp only [actionFocusTag, harg, Option.some.injEq] at h
      simp [harg, h]
    | some tag =>
      obtain ⟨arg, rfl, htag⟩ := Option.bind_eq_some_iff.mp harg
      simpa [htag] using pendingPointerWarp_actionFocusTag htag h
  | focusNextOutput =>
    exact Option.some.inj h ▸ pendingPointerWarp_actionFocusStepOutput d true
  | focusPrevOutput =>
    exact Option.some.inj h ▸ pendingPointerWarp_actionFocusStepOutput d false
  | spawnTerminal | spawnLauncher | quit | cycleLayout | unhandled => exact Option.some.inj h ▸ rfl
  | spawn =>
    obtain rfl := Option.some.inj h
    rfl
  | close => exact (calm_actionClose h).warp
  | focusNext | focusPrev => exact (calm_actionFocusStep h).warp
  | sendToTag => exact (calm_actionSendToTag h).warp
  | fullscreen => exact (calm_actionFullscreen h).warp
  | float => exact (calm_actionFloat h).warp
  | enterResizeMode | exitResizeMode => exact Option.some.inj h ▸ rfl
  | resizeStepLeft | resizeStepRight => exact (calm_actionResizeStep h).warp

theorem pendingPointerWarp_dispatchAction (h : d.dispatchAction binding = some d') :
    d'.pendingPointerWarp = (d.bindingWarp binding).getD d.pendingPointerWarp := by
  unfold dispatchAction at h
  unfold bindingWarp
  split at h
  · next action haction =>
    rw [haction]
    exact pendingPointerWarp_runAction h
  · next hnone =>
    rw [hnone, ← Option.some.inj h]
    rfl

/-- An action warps to an output there is. -/
theorem lt_of_bindingWarp (hs : d.state.WellFormed) (h : d.bindingWarp binding = some (some k)) :
    k < d.state.outputs.length := by
  have hstep : ∀ next, (d.state.focusStepOutput next).2.map some = some (some k) →
      k < d.state.outputs.length := by
    intro next hnext
    by_cases hmany : d.state.outputs.length > 1
    · simp only [State.focusStepOutput, if_pos hmany, Option.map_some, Option.some.injEq] at hnext
      rw [← hnext]
      split_ifs <;> exact Nat.mod_lt _ (by omega)
    · simp [State.focusStepOutput, if_neg hmany] at hnext
  obtain ⟨action, -, h⟩ := Option.bind_eq_some_iff.mp h
  unfold actionWarp at h
  split at h
  · obtain ⟨tag, -, h⟩ := Option.map_eq_some_iff.mp h
    obtain ⟨o, -, h⟩ := Option.bind_eq_some_iff.mp h
    exact hs.owner tag k (Option.filter_eq_some_iff.mp h).1
  · exact hstep true h
  · exact hstep false h
  · cases h

/-- The warp of a manage sequence. -/
theorem warps_onManageStart (h : d.onManageStart = some d') : ∃ rs,
    d'.sent = d.sent ++ rs ∧ rs.filter Request.OfWarp = d.state.warpsTo d.warpOutput := by
  obtain ⟨gs, -, -, -, rs, hrs, hpass⟩ := onManageStart_pass h
  refine ⟨rs, hrs, ?_⟩
  have hsub : rs.filter Request.OfWarp = (rs.filter Request.OfPass).filter Request.OfWarp := by
    rw [List.filter_filter]
    refine List.filter_congr fun r _ => ?_
    cases r <;> rfl
  have hcells : ∀ s : State,
      ((gs.flatMap s.proposeCell).filter Request.OfPass).filter Request.OfWarp = [] := by
    refine fun s => List.filter_eq_nil_iff.mpr fun r hr => ?_
    obtain ⟨p, -, hr⟩ := List.mem_flatMap.mp (List.mem_of_mem_filter hr)
    simp [s.proposeCell_ofWarp p r hr]
  rw [hsub, hpass, List.filter_append, hcells, List.nil_append]
  unfold warpOutput
  cases d.pendingPointerWarp with
  | none => rfl
  | some target =>
    rw [Option.elim_some, Option.bind_some, ← State.warpRequests_eq]
    refine List.filter_eq_self.mpr fun r hr => ?_
    obtain ⟨seat, x, y, rfl⟩ := mem_warpRequests hr
    rfl

end AppData

namespace Session

variable {p p' p₀ p₁ p₂ p₃ : Session} {event : Event} {k : ℕ}

/-- A step that lets the pending warp wait : no manage sequence, and no binding that sets it. -/
def Waits (p : Session) (event : Event) (p' : Session) : Prop :=
  Step p event p' ∧ event ≠ .manageStart ∧
    ∀ binding, event = .bindingPressed binding → p.data.bindingWarp binding = none

/-- A warp that waits since the outputs were `known`. -/
structure Waiting (known : List ObjectId) (k : ℕ) (p : Session) : Prop where
  tracks : p.Tracks
  used : ∀ output ∈ known, output ∈ p.river.used
  pending : p.data.pendingPointerWarp = some k
  evolved : Evolved known p.data.state.outputProxies

theorem Waiting.step {known : List ObjectId} (hp : p.Waiting known k) (h : Waits p event p') :
    p'.Waiting known k := by
  obtain ⟨hstep, hpass, hbinding⟩ := h
  obtain ⟨hsends, hhandle, -⟩ := step_iff.mp hstep
  obtain ⟨hout, -⟩ := AppData.objects_handle hp.tracks.wellFormed
    (hp.tracks.outputs ▸ hp.tracks.outputsNodup) hhandle
  refine ⟨hp.tracks.step hstep, fun x hx => ?_, ?_, ?_⟩
  · rw [hstep.known.2]
    exact used_observe p.river event (hp.used x hx)
  · cases event with
    | manageStart => exact absurd rfl hpass
    | bindingPressed binding =>
      rw [AppData.pendingPointerWarp_dispatchAction hhandle, hbinding binding rfl]
      exact hp.pending
    | _ => exact (AppData.calm_handle hhandle trivial).warp.trans hp.pending
  · rw [hout]
    unfold Event.outputs
    split
    · next output =>
      have hfresh : output ∉ p.river.used := by simpa [River.sends] using hsends
      exact hp.evolved.append fun hmem => hfresh (hp.used output hmem)
    · exact hp.evolved.filter _
    · exact hp.evolved

/-- A pending warp goes to the output its action chose, or nowhere where that was removed, iff
no output up to the chosen one was removed, or the chosen one was and its index is out of range. -/
theorem warp_keeps_output_iff {config : Config} {xkb layerShell cursorShapeManager : Bool}
    {binding : ObjectId} (h : Reachable Step (Session.new config xkb layerShell cursorShapeManager) p₀)
    (hpress : Step p₀ (.bindingPressed binding) p₁)
    (hwarp : p₀.data.bindingWarp binding = some (some k))
    (hwait : Reachable Waits p₁ p₂) (hpass : Step p₂ .manageStart p₃) :
    ∃ chosen, p₀.data.state.outputProxies[k]? = some chosen ∧
      (∃ rs, p₃.data.sent = p₂.data.sent ++ rs ∧
        rs.filter Request.OfWarp = p₂.data.state.warpsTo p₂.data.warpOutput) ∧
      (((chosen ∈ p₂.data.state.outputProxies →
            p₂.data.warpOutput.map (·.proxy) = some chosen) ∧
          (chosen ∉ p₂.data.state.outputProxies → p₂.data.warpOutput = none)) ↔
        (∀ output ∈ p₀.data.state.outputProxies.take (k + 1),
            output ∈ p₂.data.state.outputProxies) ∨
          (chosen ∉ p₂.data.state.outputProxies ∧ p₂.data.state.outputs.length ≤ k)) := by
  have hp₀ := reachable_tracks h
  have hlt := AppData.lt_of_bindingWarp hp₀.wellFormed hwarp
  obtain ⟨-, hhandle, -⟩ := step_iff.mp hpress
  have hout := (AppData.objects_handle hp₀.wellFormed (hp₀.outputs ▸ hp₀.outputsNodup) hhandle).1
  have hstart : p₁.Waiting p₀.data.state.outputProxies k := by
    refine ⟨hp₀.step hpress, fun x hx => ?_, ?_, ?_⟩
    · rw [hpress.known.2]
      exact used_observe p₀.river _ (hp₀.usedOutputs x (hp₀.outputs ▸ hx))
    · rw [AppData.pendingPointerWarp_dispatchAction hhandle, hwarp]
      rfl
    · rw [hout]
      exact Evolved.refl _
  have hp₂ : p₂.Waiting p₀.data.state.outputProxies k :=
    hwait.invariant (fun _ _ _ hp hstep => hp.step hstep) hstart
  have hchosen : p₀.data.state.outputProxies[k]? = some p₀.data.state.outputs[k].proxy := by
    rw [State.getElem?_outputProxies, State.outputProxy, List.getElem?_eq_getElem hlt]
    rfl
  refine ⟨_, hchosen, AppData.warps_onManageStart (step_iff.mp hpass).2.1, ?_⟩
  have hnodup : p₂.data.state.outputProxies.Nodup := hp₂.tracks.outputs ▸ hp₂.tracks.outputsNodup
  have hnames := hp₂.evolved.names_iff hnodup hchosen
  have hwarped : p₂.data.warpOutput.map (·.proxy) = p₂.data.state.outputProxies[k]? := by
    rw [State.getElem?_outputProxies, AppData.warpOutput, hp₂.pending]
    rfl
  have hnone : p₂.data.warpOutput = none ↔ p₂.data.state.outputProxies[k]? = none := by
    rw [← hwarped, Option.map_eq_none_iff]
  have hlength : p₂.data.state.outputProxies.length = p₂.data.state.outputs.length := by
    simp [State.outputProxies]
  rw [hlength] at hnames
  rw [hwarped, hnone]
  exact hnames

/-- Three outputs and a seat, whose bindings include one for the next output. -/
def threeOutputs : Option Session :=
  [Event.newOutput 1, .newOutput 2, .newOutput 3, .newSeat 10].foldlM next
    (Session.new .default true false false)

/-- The second of them chosen, and an output removed. -/
def chosenThenRemoved (output : ObjectId) : Option Session :=
  (threeOutputs.bind fun p => p.next (.bindingPressed 12)).bind
    fun p => p.next (.output output .removed)

/-- The run with the outputs and the output to warp to when the pass starts. -/
theorem exists_removed {output : ObjectId} {after : List ObjectId × Option ObjectId}
    (hpass : ((chosenThenRemoved output).bind fun p => p.next .manageStart).isSome = true)
    (hafter : (chosenThenRemoved output).map (fun p =>
      (p.data.state.outputProxies, p.data.warpOutput.map (·.proxy))) = some after) :
    ∃ p₀ p₁ p₂ p₃ : Session, Reachable Step (Session.new .default true false false) p₀ ∧
      Step p₀ (.bindingPressed 12) p₁ ∧ p₀.data.bindingWarp 12 = some (some 1) ∧
      p₀.data.state.outputProxies = [1, 2, 3] ∧ Step p₁ (.output output .removed) p₂ ∧
      Step p₂ .manageStart p₃ ∧
      (p₂.data.state.outputProxies, p₂.data.warpOutput.map (·.proxy)) = after := by
  obtain ⟨p₃, hp₃⟩ := Option.isSome_iff_exists.mp hpass
  obtain ⟨p₂, hp₂, hpass⟩ := Option.bind_eq_some_iff.mp hp₃
  obtain ⟨p₁, hp₁, hremove⟩ := Option.bind_eq_some_iff.mp hp₂
  obtain ⟨p₀, hp₀, hpress⟩ := Option.bind_eq_some_iff.mp hp₁
  have hbefore : threeOutputs.map (fun p => (p.data.bindingWarp 12, p.data.state.outputProxies)) =
      some (some (some 1), [1, 2, 3]) := by
    decide +kernel
  rw [hp₀, Option.map_some, Option.some.injEq] at hbefore
  rw [hp₂, Option.map_some, Option.some.injEq] at hafter
  obtain ⟨hwarp, hout⟩ := Prod.mk.inj hbefore
  exact ⟨p₀, p₁, p₂, p₃, reachable_of_foldlM _ hp₀, hpress, hwarp, hout, hremove, hpass, hafter⟩

/-- Three outputs, the second chosen, the third removed : the pointer goes to the second. -/
theorem warp_keeps_output_iff_later : ∃ p₀ p₁ p₂ p₃ : Session,
    Step p₀ (.bindingPressed 12) p₁ ∧ Step p₁ (.output 3 .removed) p₂ ∧ Step p₂ .manageStart p₃ ∧
      p₂.data.warpOutput.map (·.proxy) = some 2 := by
  have hrun : (chosenThenRemoved 3).map (fun p => (p.data.state.outputProxies,
      p.data.warpOutput.map (·.proxy))) = some ([1, 2], some 2) := by
    decide +kernel
  obtain ⟨p₀, p₁, p₂, p₃, hreach, hpress, hwarp, hout, hremove, hpass, hafter⟩ :=
    exists_removed (by decide +kernel) hrun
  obtain ⟨hout', -⟩ := Prod.mk.inj hafter
  have hwait : Waits p₁ (.output 3 .removed) p₂ := ⟨hremove, by simp, by simp⟩
  obtain ⟨chosen, hchosen, -, hiff⟩ :=
    warp_keeps_output_iff hreach hpress hwarp (Reachable.refl.tail hwait) hpass
  rw [hout] at hchosen hiff
  obtain rfl : 2 = chosen := Option.some.inj hchosen
  rw [hout'] at hiff
  exact ⟨p₀, p₁, p₂, p₃, hpress, hremove, hpass,
    (hiff.mpr (Or.inl (by decide))).1 (by decide)⟩

/-- Three outputs, the second chosen, the first removed : the pointer goes to the third. -/
theorem exists_warp_elsewhere : ¬∀ (p₀ p₁ p₂ p₃ : Session) (binding k chosen : ℕ),
    Reachable Step (Session.new .default true false false) p₀ →
    Step p₀ (.bindingPressed binding) p₁ → p₀.data.bindingWarp binding = some (some k) →
    p₀.data.state.outputProxies[k]? = some chosen → Reachable Waits p₁ p₂ →
    Step p₂ .manageStart p₃ →
    (chosen ∈ p₂.data.state.outputProxies → p₂.data.warpOutput.map (·.proxy) = some chosen) ∧
      (chosen ∉ p₂.data.state.outputProxies → p₂.data.warpOutput = none) := by
  intro hall
  have hrun : (chosenThenRemoved 1).map (fun p => (p.data.state.outputProxies,
      p.data.warpOutput.map (·.proxy))) = some ([2, 3], some 3) := by
    decide +kernel
  obtain ⟨p₀, p₁, p₂, p₃, hreach, hpress, hwarp, hout, hremove, hpass, hafter⟩ :=
    exists_removed (by decide +kernel) hrun
  obtain ⟨hout', hwarped⟩ := Prod.mk.inj hafter
  have hwait : Waits p₁ (.output 1 .removed) p₂ := ⟨hremove, by simp, by simp⟩
  have hgoes := (hall p₀ p₁ p₂ p₃ 12 1 2 hreach hpress hwarp (by rw [hout]; rfl)
    (Reachable.refl.tail hwait) hpass).1 (by rw [hout']; decide)
  rw [hwarped] at hgoes
  cases hgoes

end Session

end Streamwm
