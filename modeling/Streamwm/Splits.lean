import Streamwm.Arrivals

/-!
# Splits

The split of a tag is the share of an output that its master column takes. One kind of event
changes a split : the press of a resize binding in resize mode, and then that of the tag on the
focused output (`splits_runAction`). A split is clamped when it is set, and at the start, so
all splits are legal in every run (`splits_resized`).

The configured fractions are finite numbers here. The configuration is not checked for that : a
`nan`, as a split or as a step, passes `f64::clamp` and becomes a split.
-/

namespace Streamwm

open Partial Transition

namespace State

variable {s r : State} {delta : ℚ}

/-- A split as it is set : `f64::clamp` of a number. -/
def clampSplit (fraction : ℚ) : ℚ :=
  max (1 / 10) (min fraction (9 / 10))

/-- The split of the tag on the focused output has moved by `delta`. -/
def Resized (s : State) (delta : ℚ) (r : State) : Prop :=
  ∃ o out, s.activeOutput = some o ∧ s.outputs[o]? = some out ∧ r.splits =
    (s.splits.1.set out.activeTag (clampSplit (s.masterFraction out.activeTag + delta)), s.splits.2)

theorem splits_setMasterFraction (s : State) (t : ℕ) (fraction : ℚ) :
    (s.setMasterFraction t fraction).splits = (s.splits.1.set t (clampSplit fraction), s.splits.2) :=
  Prod.ext (map_modify_const (f := fun t : Tag => { t with masterFraction := clampSplit fraction })
    (g := (·.masterFraction)) (fun _ => rfl) s.tags t) rfl

theorem splits_resizeStep (h : s.resizeStep delta = some r) :
    r.splits = s.splits ∨ (s.resizeMode = true ∧ s.Resized delta r) := by
  unfold resizeStep at h
  by_cases hmode : s.resizeMode = true
  · rw [if_pos hmode] at h
    cases ho : s.activeOutput with
    | none =>
      rw [ho] at h
      exact Or.inl (Option.some.inj h ▸ rfl)
    | some o =>
      rw [ho] at h
      obtain ⟨out, hout, h⟩ := Option.bind_eq_some_iff.mp h
      refine Or.inr ⟨hmode, o, out, ho, hout, ?_⟩
      rw [← Option.some.inj h, ← splits_setMasterFraction]
      exact congrArg Prod.snd books_clearFullscreenOnTag
  · rw [if_neg hmode] at h
    exact Or.inl (Option.some.inj h ▸ rfl)

end State

namespace AppData

variable {d d' : AppData}

theorem splits_actionResizeStep {delta : ℚ} (h : d.actionResizeStep delta = some d') :
    d'.state.splits = d.state.splits ∨
      (d.state.resizeMode = true ∧ d.state.Resized delta d'.state) := by
  obtain ⟨d₁, h₁, h⟩ := Option.bind_eq_some_iff.mp h
  obtain ⟨s, hs, h₁⟩ := Option.bind_eq_some_iff.mp h₁
  obtain rfl := Option.some.inj h₁
  obtain rfl := Option.some.inj h
  exact State.splits_resizeStep hs

/-- An action moves one split, in resize mode, or turns that mode and asks for a manage sequence,
or leaves the splits alone. -/
theorem splits_runAction {action : String} (h : d.runAction action = some d') :
    d'.state.splits = d.state.splits ∨
      (∃ mode, d'.state.splits = (d.state.splits.1, d.state.splits.2.1, mode) ∧
        d'.sent = d.sent ++ [.manageDirty]) ∨
      (d.state.resizeMode = true ∧ (d.state.Resized d.config.resizeStep d'.state ∨
        d.state.Resized (-d.config.resizeStep) d'.state)) := by
  by_cases hname : (splitAction action).1.Resizes
  · unfold runAction at h
    generalize splitAction action = p at h hname
    obtain ⟨name, arg⟩ := p
    cases name with
    | enterResizeMode | exitResizeMode =>
      obtain rfl := Option.some.inj h
      exact Or.inr (Or.inl ⟨_, rfl, rfl⟩)
    | resizeStepLeft =>
      exact (splits_actionResizeStep h).imp_right fun hr => Or.inr (hr.imp_right Or.inr)
    | resizeStepRight =>
      exact (splits_actionResizeStep h).imp_right fun hr => Or.inr (hr.imp_right Or.inl)
    | _ => exact hname.elim
  · exact Or.inl (congrArg Prod.snd (routine_runAction h hname).state)

/-- The press of a binding runs its action. -/
theorem splits_bindingPressed {binding : ObjectId} (h : d.dispatchAction binding = some d') :
    d'.state.splits = d.state.splits ∨ ∃ action, d.runAction action = some d' := by
  unfold dispatchAction at h
  split at h
  · next action _ => exact Or.inr ⟨action, h⟩
  · exact Or.inl (Option.some.inj h ▸ rfl)

/-- Whoever turns resize mode asks for a manage sequence. -/
theorem resizeMode_handle (hids : (d.state.windows.map (·.id)).Nodup) {event : Event}
    (h : d.handle event = some d') : d'.state.resizeMode = d.state.resizeMode ∨
      d'.sent = d.sent ++ [.manageDirty] := by
  by_cases hpress : ∃ binding, event = .bindingPressed binding
  · obtain ⟨binding, rfl⟩ := hpress
    rcases splits_bindingPressed h with hsplits | ⟨action, haction⟩
    · exact Or.inl (congrArg (·.2.2) hsplits)
    · rcases splits_runAction haction with hsplits | ⟨mode, -, hsent⟩ | ⟨-, hresized⟩
      · exact Or.inl (congrArg (·.2.2) hsplits)
      · exact Or.inr hsent
      · rcases hresized with ⟨o, out, -, -, hsplits⟩ | ⟨o, out, -, -, hsplits⟩
        · exact Or.inl (congrArg (·.2.2) hsplits)
        · exact Or.inl (congrArg (·.2.2) hsplits)
  · exact Or.inl (congrArg (·.2.2) (splits_handle hids (fun b hb => hpress ⟨b, hb⟩) h))

end AppData

end Streamwm
