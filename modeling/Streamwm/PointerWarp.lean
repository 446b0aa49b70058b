import Streamwm.TagActivation

/-!
# The pointer follows the focus

A keybinding that moves the focus to another output leaves that output in
`pendingPointerWarp`, and the next manage sequence warps the pointer to it, so that
focus-follows-mouse does not take the focus back. The socket commands that move the focus
are written a second time and never set it (`pendingPointerWarp_applyCommand`). So a command
brings the pointer along iff it moves the focus to no other output, or a warp to that very
output was pending before (`focus_brings_pointer_iff`).
-/

namespace Streamwm

open Transition

/-- The actions that move the focus to another output. -/
def ActionName.OfFocus : ActionName → Bool
  | .focusTag | .focusNextOutput | .focusPrevOutput => true
  | _ => false

/-- The commands that move the focus. -/
def Command.OfFocus : Command → Bool
  | .focusTag _ _ | .focusOutput _ | .focusWindow _ _ => true
  | _ => false

namespace State

variable {s s' : State} {o t : ℕ}

/-- The output a tag moves the focus to : its owner, unless that is `o`. -/
def tagTarget (s : State) (o t : ℕ) : Option ℕ :=
  (s.tagOwner t).filter fun owner => owner ≠ o

/-- The output a command to focus a tag starts from. -/
def commandStart (s : State) (tag : ℕ) (output : Option String) : Option ℕ :=
  (output.elim s.activeOutput s.findOutputByName).filter fun o =>
    tag < s.tags.length && o < s.outputs.length

/-- The output a command gives the focus to. -/
def commandOutput (s : State) : Command → Option ℕ
  | .focusTag tag output => (s.commandStart tag output).bind fun o => s.tagTarget o tag
  | .focusOutput name => s.findOutputByName name
  | .focusWindow appId title => (s.commandTarget appId title).bind fun w =>
    (s.tagOwner w.tag).filter fun o => o < s.outputs.length
  | _ => none

/-! ## Which output gets the focus -/

theorem focusedOutput_activateTag (h : s.activateTag o t = some s') :
    s'.focusedOutput = s.focusedOutput := by
  obtain ⟨out, -, rfl⟩ := activated_of_activateTag h
  rfl

theorem focusedOutput_focusTag (ht : t < s.tags.length) (ho : o < s.outputs.length)
    (h : s.focusTag o t = some s') :
    s'.focusedOutput = (s.tagTarget o t).or s.focusedOutput := by
  rw [focusTag, if_neg (by omega)] at h
  unfold tagTarget
  cases hown : s.tagOwner t with
  | none =>
    simp only [hown, Option.bind_eq_bind, Option.bind_eq_some_iff, Option.pure_def] at h
    obtain ⟨r, hr, h⟩ := h
    obtain rfl := Option.some.inj h
    rw [focusedOutput_markDirty, focusedOutput_activateTag hr]
    rfl
  | some owner =>
    simp only [hown, Option.bind_eq_bind, Option.pure_def] at h
    split_ifs at h with hsame <;>
    · obtain ⟨r, hr, h⟩ := Option.bind_eq_some_iff.mp h
      obtain rfl := Option.some.inj h
      rw [focusedOutput_markDirty, focusedOutput_activateTag hr]
      simp [hsame, Option.filter_some]

theorem focusedOutput_switchActiveTag (h : s.switchActiveTag o t = some s') :
    s'.focusedOutput = s.focusedOutput := by
  cases hout : s.outputs[o]? with
  | none =>
    simp only [switchActiveTag, hout, Option.some.injEq] at h
    rw [h]
  | some out =>
    obtain rfl := Option.some.inj ((switchActiveTag_eq_activated hout).symm.trans h)
    split_ifs <;> rfl

theorem focusedOutput_commandFocusWindow {wid : ℕ} (h : s.commandFocusWindow wid t = some s') :
    s'.focusedOutput =
      ((s.tagOwner t).filter fun o => o < s.outputs.length).or s.focusedOutput := by
  rw [commandFocusWindow] at h
  cases hown : (s.tagOwner t).filter fun o => o < s.outputs.length with
  | none =>
    rw [hown] at h
    exact congrArg State.focusedOutput (Option.some.inj h).symm
  | some output =>
    simp only [hown, Option.bind_eq_bind, Option.bind_eq_some_iff, Option.pure_def] at h
    obtain ⟨r, hr, h⟩ := h
    split_ifs at h
    obtain rfl := Option.some.inj h
    exact focusedOutput_switchActiveTag hr

end State

namespace AppData

variable {d d' : AppData} {cmd : Command} {action : String}

theorem commandState_focusTag (d : AppData) (tag : ℕ) (output : Option String) :
    d.commandState (.focusTag tag output) =
      (d.state.commandStart tag output).elim (some d.state) fun o => d.state.focusTag o tag := by
  rcases output with _ | name <;>
  · simp only [commandState, State.commandStart, Option.elim_none, Option.elim_some]
    split <;> simp [*]

theorem focusedOutput_commandState {s : State} (hcmd : cmd.OfFocus = true)
    (h : d.commandState cmd = some s) :
    s.focusedOutput = (d.state.commandOutput cmd).or d.state.focusedOutput := by
  cases cmd with
  | focusTag tag output =>
    rw [State.commandOutput]
    cases ho : d.state.commandStart tag output with
    | none =>
      rw [commandState_focusTag, ho] at h
      exact congrArg State.focusedOutput (Option.some.inj h).symm
    | some o =>
      rw [commandState_focusTag, ho] at h
      have hrange := (Option.filter_eq_some_iff.mp ho).2
      simp only [Bool.and_eq_true, decide_eq_true_eq] at hrange
      exact State.focusedOutput_focusTag hrange.1 hrange.2 h
  | focusOutput name =>
    simp only [commandState, State.commandOutput] at h ⊢
    cases ho : d.state.findOutputByName name with
    | none =>
      rw [ho] at h
      exact congrArg State.focusedOutput (Option.some.inj h).symm
    | some o =>
      rw [ho] at h
      exact congrArg State.focusedOutput (Option.some.inj h).symm
  | focusWindow appId title =>
    simp only [commandState, State.commandOutput] at h ⊢
    cases hw : d.state.commandTarget appId title with
    | none =>
      rw [hw] at h
      exact congrArg State.focusedOutput (Option.some.inj h).symm
    | some w =>
      rw [hw] at h
      exact State.focusedOutput_commandFocusWindow h
  | _ => simp [Command.OfFocus] at hcmd

theorem map_state_applyCommand (d : AppData) (cmd : Command) :
    (d.applyCommand cmd).map (·.state) = d.commandState cmd := by
  cases hstate : d.commandState cmd with
  | none => simp [applyCommand, hstate]
  | some s =>
    cases cmd with
    | spawn command =>
      simp only [applyCommand, hstate, Option.bind_eq_bind, Option.bind_some, Option.pure_def]
      split_ifs <;> rfl
    | _ => simp only [applyCommand, hstate]; rfl

theorem state_applyCommand (h : d.applyCommand cmd = some d') :
    d.commandState cmd = some d'.state ∧ d'.pendingPointerWarp = d.pendingPointerWarp := by
  rw [applyCommand, Option.bind_eq_bind, Option.bind_eq_some_iff] at h
  obtain ⟨s, hs, h⟩ := h
  obtain rfl := Option.some.inj h
  cases cmd with
  | spawn command =>
    dsimp only
    split_ifs <;> exact ⟨hs, rfl⟩
  | _ => exact ⟨hs, rfl⟩

/-- Where the focus moves to another output, the pointer is going to follow. -/
def BringsPointer (d d' : AppData) : Prop :=
  ∀ p, d'.state.focusedOutput = some p → d.state.focusedOutput ≠ some p →
    d'.pendingPointerWarp = some p

/-! ## Keybindings -/

theorem splitOnce_append {sep : Char} : ∀ {name : List Char} (arg : List Char), sep ∉ name →
    splitOnce sep (name ++ sep :: arg) = some (name, arg)
  | [], arg, _ => by simp [splitOnce]
  | c :: name, arg, h => by
    rw [List.mem_cons, not_or] at h
    rw [List.cons_append, splitOnce, if_neg (Ne.symm h.1), splitOnce_append arg h.2]
    rfl

theorem runAction_focusTag (d : AppData) (arg : String) :
    d.runAction ("focus_tag:" ++ arg) = d.actionFocusTag (some arg.toList) := by
  have hname : ':' ∉ "focus_tag".toList := by decide
  have hsplit : splitOnce ':' ("focus_tag:" ++ arg).toList =
      some ("focus_tag".toList, arg.toList) := by
    rw [String.toList_append]
    exact splitOnce_append arg.toList hname
  simp only [runAction, splitAction, hsplit]
  rfl

/-- What `focus_tag` does to the state. -/
theorem state_actionFocusTag {arg : List Char} {tag : ℕ} (harg : parseUsize arg = some tag) :
    (d.actionFocusTag (some arg)).map (·.state) =
      d.state.activeOutput.elim (some d.state) fun o => d.state.focusTag o tag := by
  simp only [actionFocusTag, Option.bind_some, harg]
  cases d.state.activeOutput with
  | none => rfl
  | some o =>
    dsimp only [Option.elim_some]
    cases d.state.focusTag o tag <;> rfl

/-- What `focus_tag` does to the pending warp. -/
theorem pendingPointerWarp_actionFocusTag {arg : List Char} {tag : ℕ}
    (harg : parseUsize arg = some tag) (h : d.actionFocusTag (some arg) = some d') :
    d'.pendingPointerWarp = d.state.activeOutput.bind fun o => d.state.tagTarget o tag := by
  simp only [actionFocusTag, Option.bind_some, harg] at h
  cases ho : d.state.activeOutput with
  | none =>
    rw [ho] at h
    obtain rfl := Option.some.inj h
    rfl
  | some o =>
    simp only [ho, Option.bind_eq_bind, Option.pure_def] at h
    obtain ⟨s, -, h⟩ := Option.bind_eq_some_iff.mp h
    obtain rfl := Option.some.inj h
    rfl

theorem bringsPointer_actionFocusTag {arg : Option (List Char)}
    (h : d.actionFocusTag arg = some d') : BringsPointer d d' := by
  cases hparse : arg.bind parseUsize with
  | none =>
    rw [actionFocusTag, hparse] at h
    obtain rfl := Option.some.inj h
    exact fun p hp hne => absurd hp hne
  | some tag =>
    obtain ⟨arg, rfl, htag⟩ := Option.bind_eq_some_iff.mp hparse
    have hstate := state_actionFocusTag (d := d) htag
    rw [h, Option.map_some] at hstate
    intro p hp hne
    rw [pendingPointerWarp_actionFocusTag htag h]
    cases ho : d.state.activeOutput with
    | none =>
      rw [ho, Option.elim_none, Option.some.injEq] at hstate
      rw [hstate] at hp
      exact absurd hp hne
    | some o =>
      rw [ho, Option.elim_some] at hstate
      by_cases hrange : tag < d.state.tags.length ∧ o < d.state.outputs.length
      · rw [State.focusedOutput_focusTag hrange.1 hrange.2 hstate.symm] at hp
        cases htarget : d.state.tagTarget o tag with
        | none =>
          rw [htarget, Option.none_or] at hp
          exact absurd hp hne
        | some owner =>
          rw [htarget, Option.some_or] at hp
          exact htarget.trans hp
      · rw [State.focusTag, if_pos (by omega), Option.some.injEq] at hstate
        rw [hstate] at hp
        exact absurd hp hne

theorem bringsPointer_actionFocusStepOutput (next : Bool) :
    BringsPointer d (d.actionFocusStepOutput next) := by
  intro p hp hne
  by_cases hmany : d.state.outputs.length > 1
  · simp only [actionFocusStepOutput, State.focusStepOutput, if_pos hmany] at hp ⊢
    exact hp
  · simp only [actionFocusStepOutput, State.focusStepOutput, if_neg hmany] at hp
    exact absurd hp hne

/-- An action of a binding brings the pointer along. -/
theorem bringsPointer_runAction (hname : (splitAction action).1.OfFocus = true)
    (h : d.runAction action = some d') : BringsPointer d d' := by
  unfold runAction at h
  generalize splitAction action = p at h hname
  obtain ⟨name, arg⟩ := p
  cases name with
  | focusTag => exact bringsPointer_actionFocusTag h
  | focusNextOutput => exact Option.some.inj h ▸ bringsPointer_actionFocusStepOutput true
  | focusPrevOutput => exact Option.some.inj h ▸ bringsPointer_actionFocusStepOutput false
  | _ => simp [ActionName.OfFocus] at hname

/-! ## Commands -/

/-- A command leaves the pending warp, so the pointer follows where it was going anyway. -/
theorem bringsPointer_applyCommand_iff (hcmd : cmd.OfFocus = true)
    (h : d.applyCommand cmd = some d') : BringsPointer d d' ↔
      ∀ p, d.state.commandOutput cmd = some p →
        d.state.focusedOutput = some p ∨ d.pendingPointerWarp = some p := by
  obtain ⟨hstate, hwarp⟩ := state_applyCommand h
  have hfocus := focusedOutput_commandState hcmd hstate
  constructor
  · intro hbrings p hp
    rw [hp, Option.some_or] at hfocus
    by_cases hsame : d.state.focusedOutput = some p
    · exact Or.inl hsame
    · exact Or.inr (hwarp ▸ hbrings p hfocus hsame)
  · intro hcond p hp hne
    rw [hfocus] at hp
    cases htarget : d.state.commandOutput cmd with
    | none =>
      rw [htarget, Option.none_or] at hp
      exact absurd hp hne
    | some q =>
      rw [htarget, Option.some_or] at hp
      obtain rfl := Option.some.inj hp
      exact hwarp ▸ (hcond q htarget).resolve_left hne

/-- `focus_tag` as an action and as a command. -/
theorem focusTag_twice {arg : String} {tag : ℕ} (harg : parseUsize arg.toList = some tag) :
    (d.runAction ("focus_tag:" ++ arg)).map (·.state) =
      (d.applyCommand (.focusTag tag none)).map (·.state) := by
  rw [runAction_focusTag, state_actionFocusTag harg, map_state_applyCommand, commandState_focusTag,
    State.commandStart, Option.elim_none]
  cases d.state.activeOutput with
  | none => rfl
  | some o =>
    by_cases hrange : tag < d.state.tags.length ∧ o < d.state.outputs.length
    · simp [Option.filter_some, hrange]
    · rw [Option.filter_some, if_neg (by simpa using hrange), Option.elim_none, Option.elim_some,
        State.focusTag, if_pos (by omega)]

/-- The actions of bindings bring the pointer along. The commands of the socket do iff they
give the focus to no other output, or a warp to that output is pending already. The action and
the command that focus a tag lead to the same state, and to the same pending warp iff the
warp the action asks for is the one pending before. -/
theorem focus_brings_pointer_iff (d : AppData) :
    (∀ action d', (splitAction action).1.OfFocus = true → d.runAction action = some d' →
      BringsPointer d d') ∧
    (∀ cmd d', cmd.OfFocus = true → d.applyCommand cmd = some d' → (BringsPointer d d' ↔
      ∀ p, d.state.commandOutput cmd = some p →
        d.state.focusedOutput = some p ∨ d.pendingPointerWarp = some p)) ∧
    ∀ tag < 9,
      (d.runAction ("focus_tag:" ++ toString tag)).map (·.state) =
        (d.applyCommand (.focusTag tag none)).map (·.state) ∧
      ∀ d₁ d₂, d.runAction ("focus_tag:" ++ toString tag) = some d₁ →
        d.applyCommand (.focusTag tag none) = some d₂ →
        (d₁.pendingPointerWarp = d₂.pendingPointerWarp ↔
          d.pendingPointerWarp = d.state.activeOutput.bind fun o => d.state.tagTarget o tag) := by
  refine ⟨fun action d' hname h => bringsPointer_runAction hname h,
    fun cmd d' hcmd h => bringsPointer_applyCommand_iff hcmd h, fun tag htag => ?_⟩
  have hparse : ∀ tag < 9, parseUsize (toString tag).toList = some tag := by decide
  refine ⟨focusTag_twice (hparse tag htag), fun d₁ d₂ h₁ h₂ => ?_⟩
  rw [runAction_focusTag] at h₁
  rw [pendingPointerWarp_actionFocusTag (hparse tag htag) h₁, (state_applyCommand h₂).2]
  exact eq_comm

/-- Two outputs : the key for the tag of the second brings the pointer there. -/
theorem focus_brings_pointer_iff_key : ∃ d d' : AppData,
    Reachable Step (AppData.new .default false false false) d ∧
      d.runAction "focus_tag:1" = some d' ∧ d.state.focusedOutput = some 0 ∧
        d'.state.focusedOutput = some 1 ∧ d'.pendingPointerWarp = some 1 := by
  let es : List Event := [.newOutput 1, .newOutput 2]
  let reached := es.foldlM AppData.handle (AppData.new .default false false false)
  obtain ⟨d, hd⟩ : ∃ d, reached = some d := Option.isSome_iff_exists.mp (by decide +kernel)
  have hbefore : reached.map (·.state.focusedOutput) = some (some 0) := by decide +kernel
  have hafter : (reached.bind fun d => d.runAction "focus_tag:1").map (·.state.focusedOutput) =
      some (some 1) := by
    decide +kernel
  rw [hd, Option.map_some, Option.some.injEq] at hbefore
  rw [hd, Option.bind_some] at hafter
  obtain ⟨d', hd', hfocus⟩ := Option.map_eq_some_iff.mp hafter
  have hbrings := (focus_brings_pointer_iff d).1 "focus_tag:1" d' (by decide +kernel) hd'
  exact ⟨d, d', reachable_of_foldlM es hd, hd', hbefore, hfocus,
    hbrings 1 hfocus (by rw [hbefore]; decide)⟩

/-- Two outputs : the command for the tag of the second leaves the pointer behind. -/
theorem command_leaves_pointer : ¬∀ (d d' : AppData) (cmd : Command),
    Reachable Step (AppData.new .default false false false) d → cmd.OfFocus = true →
    d.applyCommand cmd = some d' → BringsPointer d d' := by
  intro hall
  let es : List Event := [.newOutput 1, .newOutput 2]
  let reached := es.foldlM AppData.handle (AppData.new .default false false false)
  obtain ⟨d, hd⟩ : ∃ d, reached = some d := Option.isSome_iff_exists.mp (by decide +kernel)
  have hbefore : reached.map (·.state.focusedOutput) = some (some 0) := by decide +kernel
  have hafter : (reached.bind fun d => d.applyCommand (.focusTag 1 none)).map
      (fun d' => (d'.state.focusedOutput, d'.pendingPointerWarp)) = some (some 1, none) := by
    decide +kernel
  rw [hd, Option.map_some, Option.some.injEq] at hbefore
  rw [hd, Option.bind_some] at hafter
  obtain ⟨d', hd', hdata⟩ := Option.map_eq_some_iff.mp hafter
  obtain ⟨hfocus, hwarp⟩ := Prod.mk.inj hdata
  have hbrings := hall d d' _ (reachable_of_foldlM es hd) rfl hd' 1 hfocus (by rw [hbefore]; decide)
  rw [hwarp] at hbrings
  cases hbrings

end AppData

end Streamwm
