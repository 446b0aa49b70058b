import Mathlib.Data.List.Rotate
import Streamwm.CommandFocus

/-!
# Cycling the focus

`focus_next` and `focus_prev` look the focused window up among the windows of the active tag
and step its position modulo their number. As ids are unique the position found is the one
the last step went to, and a manage sequence keeps a focused window that is on the tag
(`Cycling.onManageStart`), so the windows focused in turn are the windows of the tag rotated
(`cycleRun_focus`), each once, the one that had the focus last.
-/

namespace Streamwm

open Transition

/-- The position a focus step leads to. -/
def cycleIndex (next : Bool) (i n : ℕ) : ℕ :=
  if next then (i + 1) % n else (i + n - 1) % n

theorem cycleIndex_lt {next : Bool} {i n : ℕ} (h : i < n) : cycleIndex next i n < n := by
  unfold cycleIndex
  split_ifs <;> exact Nat.mod_lt _ (by omega)

/-- A step and the opposite one. -/
theorem cycleIndex_not {next : Bool} {i n : ℕ} (h : i < n) :
    cycleIndex (!next) (cycleIndex next i n) n = i := by
  have hpred : ∀ j, 0 < j → j < n → (j + n - 1) % n = j - 1 := fun j hpos hj => by
    rw [show j + n - 1 = j - 1 + n by omega, Nat.add_mod_right, Nat.mod_eq_of_lt (by omega)]
  cases next with
  | true =>
    simp only [cycleIndex, Bool.not_true, if_true, Bool.false_eq_true, if_false]
    rcases Nat.lt_or_ge (i + 1) n with hlt | hge
    · rw [Nat.mod_eq_of_lt hlt, hpred _ (by omega) hlt, Nat.add_sub_cancel]
    · rw [show i + 1 = n by omega, Nat.mod_self, Nat.zero_add, Nat.mod_eq_of_lt (by omega)]
      omega
  | false =>
    simp only [cycleIndex, Bool.not_false, if_true, Bool.false_eq_true, if_false]
    rcases Nat.eq_zero_or_pos i with rfl | hpos
    · rw [Nat.zero_add, Nat.mod_eq_of_lt (a := n - 1) (by omega), Nat.sub_add_cancel (by omega),
        Nat.mod_self]
    · rw [hpred i hpos h, Nat.sub_add_cancel hpos, Nat.mod_eq_of_lt h]

namespace State

variable {s s' : State} {o i tag : ℕ} {out : Output} {next : Bool} {ids : List ℕ} {x : Option ℕ}

/-- The windows on a tag. -/
def windowsOnTag (s : State) (tag : ℕ) : List ℕ :=
  (s.windows.filter fun w => w.tag == tag).map (·.id)

/-- The window focused on an output. -/
def focusedOn (s : State) (o : ℕ) : Option ℕ :=
  s.outputs[o]?.bind (·.focusedWindow)

/-- Only the focus of one output may differ : no window, no tag, no active tag and no other
output does. -/
structure OnlyFocus (o : ℕ) (s s' : State) : Prop where
  windows : s'.windows = s.windows
  tags : s'.tags = s.tags
  focusedOutput : s'.focusedOutput = s.focusedOutput
  others : ∀ j, j ≠ o → s'.outputs[j]? = s.outputs[j]?
  shown : ∀ j, s'.shown j = s.shown j

/-- The focus cycles through `ids`, the windows of a tag its output shows and owns, and is at
position `i`. -/
structure Cycling (o tag : ℕ) (ids : List ℕ) (i : ℕ) (s : State) : Prop where
  wellFormed : s.WellFormed
  freshIds : s.FreshIds
  active : s.activeOutput = some o
  shown : s.shown o = some tag
  owner : s.tagOwner tag = some o
  onTag : s.windowsOnTag tag = ids
  lt : i < ids.length
  focus : s.focusedOn o = ids[i]?

/-! ## One action -/

theorem onlyFocus_setFocusedWindow : OnlyFocus o s (s.setFocusedWindow o x) where
  windows := rfl
  tags := rfl
  focusedOutput := rfl
  others j hj := by
    rw [getElem?_outputs_setFocusedWindow]
    simp [hj.symm]
  shown := still_setFocusedWindow.shown

theorem focusedOn_setFocusedWindow (ho : o < s.outputs.length) :
    (s.setFocusedWindow o x).focusedOn o = x := by
  rw [focusedOn, getElem?_outputs_setFocusedWindow, List.getElem?_eq_getElem ho]
  simp

theorem activeOutput_congr (hlen : s'.outputs.length = s.outputs.length)
    (hfocused : s'.focusedOutput = s.focusedOutput) : s'.activeOutput = s.activeOutput := by
  have hempty : s'.outputs.isEmpty = s.outputs.isEmpty := by
    rw [Bool.eq_iff_iff, List.isEmpty_iff_length_eq_zero, List.isEmpty_iff_length_eq_zero, hlen]
  rw [activeOutput, activeOutput, hempty, hfocused]

/-- Setting the focus back. -/
theorem setFocusedWindow_setFocusedWindow (hfocus : s.focusedOn o = x) {y : Option ℕ} :
    (s.setFocusedWindow o y).setFocusedWindow o x = s := by
  have hout : (s.setFocusedWindow o y |>.setFocusedWindow o x).outputs = s.outputs := by
    refine List.ext_getElem? fun j => ?_
    rw [getElem?_outputs_setFocusedWindow, getElem?_outputs_setFocusedWindow, Option.map_map]
    rcases eq_or_ne o j with rfl | hj
    · rw [focusedOn] at hfocus
      cases hout : s.outputs[o]? with
      | none => rfl
      | some out =>
        rw [hout, Option.bind_some] at hfocus
        simp [← hfocus]
    · rw [show (fun p : Output => if o = j then { p with focusedWindow := x } else p) = id by
          simp [hj, Function.id_def],
        show (fun p : Output => if o = j then { p with focusedWindow := y } else p) = id by
          simp [hj, Function.id_def], Function.comp_id, Option.map_id]
      rfl
  exact congrArg (fun outputs => { s with outputs }) hout

/-- Unique ids are found where they are. -/
theorem findIdx?_of_nodup {f : ℕ} (hnodup : ids.Nodup) (hi : ids[i]? = some f) :
    ids.findIdx? (· == f) = some i := by
  obtain ⟨hlt, rfl⟩ := List.getElem?_eq_some_iff.mp hi
  refine List.findIdx?_eq_some_iff_getElem.mpr ⟨hlt, by simp, fun j hj => ?_⟩
  have hlt' : j < ids.length := hj.trans hlt
  have hne : ids[j] ≠ ids[i] := fun heq => hj.ne (hnodup.getElem_inj_iff.mp heq)
  simpa using hne

theorem FreshIds.windowsOnTag_nodup (hids : s.FreshIds) (tag : ℕ) :
    (s.windowsOnTag tag).Nodup :=
  hids.nodup.sublist (List.filter_sublist.map _)

/-- The output the focus cycles on, and the focused window. -/
theorem Cycling.output (h : Cycling o tag ids i s) : ∃ out f, s.outputs[o]? = some out ∧
    out.activeTag = tag ∧ ids[i]? = some f ∧ out.focusedWindow = some f := by
  obtain ⟨out, hout, hact⟩ := Option.map_eq_some_iff.mp h.shown
  have hfocus := h.focus
  rw [focusedOn, hout, Option.bind_some, List.getElem?_eq_getElem h.lt] at hfocus
  exact ⟨out, _, hout, hact, List.getElem?_eq_getElem h.lt, hfocus⟩

/-- A step goes to the neighbouring window of the tag. -/
theorem Cycling.cycleFocus (h : Cycling o tag ids i s) (next : Bool) :
    s.cycleFocus next =
      some (s.setFocusedWindow o ids[cycleIndex next i ids.length]?, true) := by
  obtain ⟨out, f, hout, hact, hf, hfocus⟩ := h.output
  have hlist : (s.windows.filter (s.onActiveTag o out.activeTag)).map (·.id) = ids := by
    rw [← h.onTag, windowsOnTag]
    congr 1
    refine List.filter_congr fun w _ => ?_
    rw [Bool.eq_iff_iff, onActiveTag_iff, beq_iff_eq, hact]
    exact and_iff_right_of_imp fun htag => htag ▸ h.owner
  have hne : ids.isEmpty = false := by
    rw [Bool.eq_false_iff, Ne, List.isEmpty_iff_length_eq_zero]
    exact Nat.ne_of_gt (Nat.zero_lt_of_lt h.lt)
  have hidx := findIdx?_of_nodup (h.onTag ▸ h.freshIds.windowsOnTag_nodup tag) hf
  have hlt : cycleIndex next i ids.length < ids.length := cycleIndex_lt h.lt
  simp only [State.cycleFocus, h.active, hout, hlist, hne, hfocus, hidx, Option.bind_eq_bind,
    Option.bind_some, Option.getD_some, Option.pure_def, Bool.false_eq_true, if_false]
  change ids[cycleIndex next i ids.length]?.bind _ = _
  rw [List.getElem?_eq_getElem hlt]
  rfl

/-- A step changes nothing else, wherever it goes. -/
theorem onlyFocus_cycleFocus {changed : Bool} (ho : s.activeOutput = some o)
    (h : s.cycleFocus next = some (s', changed)) : OnlyFocus o s s' := by
  simp only [State.cycleFocus, ho, Option.bind_eq_bind, Option.bind_eq_some_iff,
    Option.pure_def] at h
  obtain ⟨out, -, h⟩ := h
  generalize (s.windows.filter (s.onActiveTag o out.activeTag)).map (·.id) = ids at h
  cases hempty : ids.isEmpty with
  | true =>
    rw [hempty, if_pos rfl] at h
    obtain ⟨rfl, -⟩ := Prod.mk.inj (Option.some.inj h)
    exact ⟨rfl, rfl, rfl, fun _ _ => rfl, fun _ => rfl⟩
  | false =>
    rw [hempty, if_neg Bool.false_ne_true, Option.bind_eq_some_iff] at h
    obtain ⟨f, -, h⟩ := h
    obtain ⟨rfl, -⟩ := Prod.mk.inj (Option.some.inj h)
    exact onlyFocus_setFocusedWindow

/-- Between two states that agree on what the cycle is about. -/
theorem Cycling.move {j : ℕ} (h : Cycling o tag ids i s) (hwf : s'.WellFormed)
    (hids : s'.FreshIds) (hactive : s'.activeOutput = s.activeOutput)
    (hshown : s'.shown o = s.shown o) (howner : s'.tagOwner tag = s.tagOwner tag)
    (hwindows : s'.windowsOnTag tag = s.windowsOnTag tag) (hlt : j < ids.length)
    (hfocus : s'.focusedOn o = ids[j]?) : Cycling o tag ids j s' where
  wellFormed := hwf
  freshIds := hids
  active := hactive.trans h.active
  shown := hshown.trans h.shown
  owner := howner.trans h.owner
  onTag := hwindows.trans h.onTag
  lt := hlt
  focus := hfocus

end State

open State

namespace AppData

variable {d d' : AppData} {o i tag : ℕ} {ids : List ℕ} {next : Bool}

/-- The action that steps the focus. -/
def cycleAction (next : Bool) : String :=
  if next then "focus_next" else "focus_prev"

theorem runAction_cycleAction : d.runAction (cycleAction next) = d.actionFocusStep next := by
  cases next <;> rfl

theorem onlyFocus_runAction (ho : d.state.activeOutput = some o)
    (h : d.runAction (cycleAction next) = some d') : OnlyFocus o d.state d'.state := by
  rw [runAction_cycleAction] at h
  simp only [actionFocusStep, Option.bind_eq_bind, Option.bind_eq_some_iff, Option.pure_def,
    Option.some.injEq] at h
  obtain ⟨⟨s, changed⟩, hcycle, rfl⟩ := h
  have hstate : (({ d with state := s } : AppData).requestManageIf changed).state = s := by
    cases changed <;> rfl
  rw [hstate]
  exact onlyFocus_cycleFocus ho hcycle

theorem cycling_runAction (h : Cycling o tag ids i d.state) (next : Bool) :
    ∃ d', d.runAction (cycleAction next) = some d' ∧
      d'.state = d.state.setFocusedWindow o ids[cycleIndex next i ids.length]? ∧
      Cycling o tag ids (cycleIndex next i ids.length) d'.state := by
  obtain ⟨d', hd', hinert⟩ := inert_runAction h.wellFormed (cycleAction next)
  have hstate : d'.state = d.state.setFocusedWindow o ids[cycleIndex next i ids.length]? := by
    rw [runAction_cycleAction, actionFocusStep, Cycling.cycleFocus h next] at hd'
    obtain rfl := Option.some.inj hd'
    rfl
  have ho := h.wellFormed.activeOutput_lt h.active
  have hreach := hinert.toHandled.reachable
  refine ⟨d', hd', hstate, h.move (wellFormed_of_reachable hinert.toHandled.steps h.wellFormed)
    (h.freshIds.of_reachable h.wellFormed hreach) ?_ ?_ ?_ ?_ (cycleIndex_lt h.lt) ?_⟩
  · rw [hstate]
    exact activeOutput_congr (by simp) rfl
  · rw [hstate]
    exact onlyFocus_setFocusedWindow.shown o
  · rw [hstate]
    rfl
  · rw [hstate]
    rfl
  · rw [hstate, focusedOn_setFocusedWindow ho]

/-! ## A manage sequence between two actions -/

/-- The focused window is on the tag, so refocusing keeps it. -/
theorem Cycling.onManageStart (h : Cycling o tag ids i d.state) :
    ∃ d', d.onManageStart = some d' ∧ Cycling o tag ids i d'.state := by
  obtain ⟨d', hd', hafter⟩ := afterManage_onManageStart h.wellFormed
  obtain ⟨hwf, hreach⟩ := Step.wellFormed h.wellFormed (show Step d .manageStart d' from hd')
  obtain ⟨out, f, hout, hact, hf, hfocus⟩ := h.output
  have hget : d'.state.outputs[o]? =
      some { out with focusedWindow := d.state.refocusTarget o out } := by
    simp [hafter.outputs, refocused, List.getElem?_mapIdx, hout]
  obtain ⟨w, hw, hid⟩ : ∃ w ∈ d.state.windows.filter fun w => w.tag == tag, w.id = f := by
    have hmem : f ∈ d.state.windowsOnTag tag := h.onTag ▸ List.mem_of_getElem? hf
    exact List.mem_map.mp hmem
  obtain ⟨hw, htag⟩ := List.mem_filter.mp hw
  rw [beq_iff_eq] at htag
  have hkeep : d.state.refocusTarget o out = some f := by
    refine refocusTarget_keep hfocus (w := w) ?_ (htag ▸ h.owner) (htag.trans hact.symm)
    rw [← hid]
    exact h.freshIds.findWindow hw
  have hspots : ∀ s : State, s.windowsOnTag tag =
      ((s.windows.map Window.spot).filter fun p => p.2.1 == tag).map (·.1) := fun s => by
    rw [List.filter_map, List.map_map]
    rfl
  refine ⟨d', hd', h.move hwf (h.freshIds.of_reachable h.wellFormed hreach) ?_ ?_
    (hafter.tagOwner tag) ?_ h.lt ?_⟩
  · exact activeOutput_congr (by simp [hafter.outputs, refocused]) hafter.focusedOutput
  · rw [State.shown, State.shown, hget, hout]
    rfl
  · rw [hspots, hspots, hafter.spots]
  · rw [focusedOn, hget, Option.bind_some, hf]
    exact hkeep

/-! ## A run of actions -/

/-- A `focus_next` action, and what is between it and the next one. -/
structure CycleStep where
  start : AppData
  acted : AppData
  next : AppData

/-- A manage sequence, or nothing. -/
def manageIf (data : AppData) (pass : Bool) : Option AppData :=
  if pass then data.onManageStart else some data

/-- One `focus_next` action for every entry, with a manage sequence after it where the entry
says so. -/
def cycleRun : AppData → List Bool → Option (List CycleStep)
  | _, [] => some []
  | start, pass :: passes => do
    let acted ← start.runAction "focus_next"
    let next ← acted.manageIf pass
    return { start, acted, next } :: (← cycleRun next passes)

theorem cycling_manageIf (h : Cycling o tag ids i d.state) (pass : Bool) :
    ∃ d', d.manageIf pass = some d' ∧ Cycling o tag ids i d'.state := by
  cases pass with
  | true => exact Cycling.onManageStart h
  | false => exact ⟨d, rfl, h⟩

/-- The `j`-th action focuses the window `j + 1` places on, and the focus stays there. -/
theorem exists_cycleRun : ∀ (passes : List Bool) {d : AppData} {i : ℕ},
    Cycling o tag ids i d.state → ∃ run, d.cycleRun passes = some run ∧
      (run.map fun step => step.acted.state.focusedOn o) =
        (List.range passes.length).map (fun j => ids[(i + 1 + j) % ids.length]?) ∧
      ∀ step ∈ run, step.next.state.focusedOn o = step.acted.state.focusedOn o ∧
        OnlyFocus o step.start.state step.acted.state
  | [], d, i, _ => ⟨[], rfl, rfl, by simp⟩
  | pass :: passes, d, i, h => by
    obtain ⟨acted, hacted, -, hcycle⟩ := cycling_runAction h true
    obtain ⟨next, hnext, hcycle'⟩ := cycling_manageIf hcycle pass
    obtain ⟨run, hrun, hfocus, hsteps⟩ := exists_cycleRun passes hcycle'
    refine ⟨{ start := d, acted, next } :: run, ?_, ?_, ?_⟩
    · have hacted : d.runAction "focus_next" = some acted := hacted
      simp only [cycleRun, hacted, hnext, hrun, Option.bind_eq_bind, Option.bind_some,
        Option.pure_def]
    · rw [List.map_cons, hfocus, hcycle.focus, List.length_cons, List.range_succ_eq_map,
        List.map_cons, List.map_map]
      refine congrArg _ (List.map_congr_left fun j _ => ?_)
      simp only [cycleIndex, if_true, Function.comp_apply]
      rw [Nat.add_assoc, Nat.mod_add_mod, Nat.succ_eq_add_one]
      congr 2
      omega
    · intro step hstep
      rcases List.mem_cons.mp hstep with rfl | hstep
      · exact ⟨hcycle'.focus.trans hcycle.focus.symm, onlyFocus_runAction h.active hacted⟩
      · exact hsteps step hstep

/-- As many actions as there are windows focus the windows in rotation. -/
theorem rotation (hi : i < ids.length) : ((List.range ids.length).map fun j =>
    ids[(i + 1 + j) % ids.length]?) = (ids.rotate (i + 1)).map some := by
  refine List.ext_getElem (by simp) fun j hj _ => ?_
  have hlt : (j + (i + 1)) % ids.length < ids.length := Nat.mod_lt _ (by omega)
  simp only [List.getElem_map, List.getElem_range, List.getElem_rotate]
  rw [Nat.add_comm (i + 1) j, List.getElem?_eq_getElem hlt]

theorem getLast?_rotation (hi : i < ids.length) : (ids.rotate (i + 1)).getLast? = ids[i]? := by
  rw [List.rotate_eq_drop_append_take hi, List.take_add_one, List.getElem?_eq_getElem hi,
    Option.toList_some, ← List.append_assoc, List.getLast?_concat]

theorem cycling_of_reachable {config : Config} {xkb layerShell cursorShapeManager : Bool}
    {f : ℕ} (h : Reachable Step (AppData.new config xkb layerShell cursorShapeManager) d)
    (ho : d.state.activeOutput = some o) (htag : d.state.shown o = some tag)
    (hown : d.state.tagOwner tag = some o) (hfocus : d.state.focusedOn o = some f)
    (hmem : f ∈ d.state.windowsOnTag tag) :
    ∃ i, Cycling o tag (d.state.windowsOnTag tag) i d.state := by
  obtain ⟨hwf, hops⟩ := reachable_state h
  obtain ⟨i, hi, rfl⟩ := List.mem_iff_getElem.mp hmem
  exact ⟨i, hwf, reachable_freshIds hops, ho, htag, hown, rfl, hi,
    hfocus.trans (List.getElem?_eq_getElem hi).symm⟩

/-- `focus_next` and `focus_prev` undo each other, and as many `focus_next` actions as the tag
has windows, with manage sequences between them or not, focus each window once and the one
that had the focus last; the actions change nothing but the focus of the active output. -/
theorem focus_cycles {config : Config} {xkb layerShell cursorShapeManager : Bool} {f : ℕ}
    (h : Reachable Step (AppData.new config xkb layerShell cursorShapeManager) d)
    (ho : d.state.activeOutput = some o) (htag : d.state.shown o = some tag)
    (hown : d.state.tagOwner tag = some o) (hfocus : d.state.focusedOn o = some f)
    (hmem : f ∈ d.state.windowsOnTag tag) :
    (∀ next, ∃ d₁ d₂, d.runAction (cycleAction next) = some d₁ ∧
      d₁.runAction (cycleAction (!next)) = some d₂ ∧ d₂.state = d.state ∧
      OnlyFocus o d.state d₁.state) ∧
    ∀ passes : List Bool, passes.length = (d.state.windowsOnTag tag).length →
      ∃ run, d.cycleRun passes = some run ∧
        (run.map fun step => step.acted.state.focusedOn o).Perm
          ((d.state.windowsOnTag tag).map some) ∧
        run.getLast?.map (fun step => step.next.state.focusedOn o) = some (some f) ∧
        ∀ step ∈ run, step.next.state.focusedOn o = step.acted.state.focusedOn o ∧
          OnlyFocus o step.start.state step.acted.state := by
  obtain ⟨i, hcycle⟩ := cycling_of_reachable h ho htag hown hfocus hmem
  constructor
  · intro next
    obtain ⟨d₁, hd₁, hstate₁, hcycle₁⟩ := cycling_runAction hcycle next
    obtain ⟨d₂, hd₂, hstate₂, -⟩ := cycling_runAction hcycle₁ (!next)
    refine ⟨d₁, d₂, hd₁, hd₂, ?_, onlyFocus_runAction ho hd₁⟩
    rw [hstate₂, hstate₁, cycleIndex_not hcycle.lt]
    exact setFocusedWindow_setFocusedWindow hcycle.focus
  · intro passes hlen
    obtain ⟨run, hrun, htrace, hsteps⟩ := exists_cycleRun passes hcycle
    rw [hlen, rotation hcycle.lt] at htrace
    refine ⟨run, hrun, htrace ▸ (List.rotate_perm _ _).map some, ?_, hsteps⟩
    have hlast : (run.map fun step => step.next.state.focusedOn o).getLast? = some (some f) := by
      rw [List.map_congr_left fun step hstep => (hsteps step hstep).1, htrace, List.getLast?_map,
        getLast?_rotation hcycle.lt, ← hcycle.focus, hfocus]
      rfl
    rw [← List.getLast?_map]
    exact hlast

/-- Three windows of a tag with a window of another tag between them. -/
theorem focus_cycles_three : ∃ (d d₁ : AppData) (run : List CycleStep),
    Reachable Step (AppData.new .default false false false) d ∧
      d.runAction "focus_prev" = some d₁ ∧ OnlyFocus 0 d.state d₁.state ∧
      d.cycleRun [true, false, true] = some run ∧
      (run.map fun step => step.acted.state.focusedOn 0).Perm [some 1, some 2, some 4] := by
  let es : List Event := [.newOutput 1, .newWindow 2, .newWindow 3, .command (.focusTag 1 none),
    .newWindow 4, .command (.focusTag 0 none), .newWindow 5]
  let reached := es.foldlM AppData.handle (AppData.new .default false false false)
  obtain ⟨d, hd⟩ : ∃ d, reached = some d := Option.isSome_iff_exists.mp (by decide +kernel)
  have hdata : reached.map (fun d => (d.state.activeOutput, d.state.shown 0, d.state.tagOwner 0,
      d.state.focusedOn 0, d.state.windowsOnTag 0)) =
        some (some 0, some 0, some 0, some 4, [1, 2, 4]) := by
    decide +kernel
  rw [hd, Option.map_some, Option.some.injEq] at hdata
  simp only [Prod.mk.injEq] at hdata
  obtain ⟨hactive, hshown, hown, hfocus, hwindows⟩ := hdata
  have hreach := reachable_of_foldlM es hd
  obtain ⟨hinverse, hrun⟩ :=
    focus_cycles hreach hactive hshown hown hfocus (by rw [hwindows]; decide)
  obtain ⟨d₁, -, hd₁, -, -, honly⟩ := hinverse false
  obtain ⟨run, hrun, hperm, -⟩ := hrun [true, false, true] (by rw [hwindows]; rfl)
  rw [hwindows] at hperm
  exact ⟨d, d₁, run, hreach, hd₁, honly, hrun, hperm⟩

end AppData

end Streamwm
