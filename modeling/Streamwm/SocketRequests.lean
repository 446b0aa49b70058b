import Streamwm.CommandFocus
import Streamwm.Library.Json
import Streamwm.PointerWarp

/-!
# Tags in socket requests

A request names a tag by an unsigned integer of 64 bits, a command has one of 32 bits, and the
range is checked only when the command is applied. `parseCommandValue` keeps the low 32 bits,
so the request for a tag `n` is carried out for the tag `n % 2 ^ 32`. That is the tag asked
for, or out of range like it, unless the low bits name a tag and the high bits are not zero;
then the request must be ignored, and it is iff the tag of the low bits has nothing to change
(`tag_request_iff`).
-/

namespace Streamwm

open Partial Transition

/-- The command a request asks for. -/
def parseCommandValue (cmd : Json) : Option Command :=
  match ((cmd.get "cmd").bind Json.asStr).getD "" with
  | "focus_tag" => do
    let tag ← (cmd.get "tag").bind Json.asU64
    return .focusTag tag.toUInt32.toNat ((cmd.get "output").bind Json.asStr)
  | "send_to_tag" => ((cmd.get "tag").bind Json.asU64).map fun t => .sendToTag t.toUInt32.toNat
  | "focus_output" => ((cmd.get "output").bind Json.asStr).map .focusOutput
  | "focus_window" => do
    let appId ← (cmd.get "app_id").bind Json.asStr
    return .focusWindow appId ((cmd.get "title").bind Json.asStr)
  | "spawn" => ((cmd.get "command").bind Json.asStr).map .spawn
  | "quit" => some .quit
  | _ => none

/-- The commands about a tag. -/
inductive TagCommand
  | focusTag (output : Option String)
  | sendToTag

/-- The command for one tag. -/
def TagCommand.on : TagCommand → ℕ → Command
  | focusTag output, tag => .focusTag tag output
  | sendToTag, tag => .sendToTag tag

/-- The request is for this command with tag `n`. -/
def Requests (cmd : Json) (n : UInt64) : TagCommand → Prop
  | .focusTag output => (cmd.get "cmd").bind Json.asStr = some "focus_tag" ∧
      (cmd.get "tag").bind Json.asU64 = some n ∧ (cmd.get "output").bind Json.asStr = output
  | .sendToTag => (cmd.get "cmd").bind Json.asStr = some "send_to_tag" ∧
      (cmd.get "tag").bind Json.asU64 = some n

theorem parseCommandValue_eq {cmd : Json} {n : UInt64} {c : TagCommand} (h : Requests cmd n c) :
    parseCommandValue cmd = some (c.on (n.toNat % 2 ^ 32)) := by
  cases c with
  | focusTag output =>
    obtain ⟨hname, htag, rfl⟩ := h
    simp only [parseCommandValue, hname, htag]
    rfl
  | sendToTag =>
    obtain ⟨hname, htag⟩ := h
    simp only [parseCommandValue, hname, htag]
    rfl

namespace State

variable {s s' : State} {i o t : ℕ} {out : Output}

/-- Tags, outputs, windows and focus are unchanged. -/
structure Unchanged (s s' : State) : Prop where
  tags : s'.tags = s.tags
  outputs : s'.outputs = s.outputs
  windows : s'.windows = s.windows
  focusedOutput : s'.focusedOutput = s.focusedOutput

/-- The output shows the tag, no window on the tag is fullscreen, and the output has the focus
it should : on a window of the tag if there is one. -/
structure Displays (s : State) (i t : ℕ) : Prop where
  shown : s.shown i = some t
  fullscreen : s.NoFullscreenOn t
  focused : s.FocusedOn i
  unfocused : ∀ out, s.outputs[i]? = some out → out.focusedWindow = none →
    ∀ w ∈ s.windows, w.tag ≠ t

/-- The command has nothing to change : no output to focus the tag from, or the tag is on
display, on that output or on one that has the focus; no focused window that is on another
tag. -/
def NothingToDo (s : State) : TagCommand → ℕ → Prop
  | .focusTag output, t => s.commandStart t output = none ∨
      ∃ i, s.tagOwner t = some i ∧ s.Displays i t ∧
        (s.commandStart t output = some i ∨ s.focusedOutput = some i)
  | .sendToTag, t => s.activeOutput.bind (fun o => s.sentWindow o t) = none

/-! ## What leaves the state unchanged -/

theorem Unchanged.refl (s : State) : Unchanged s s :=
  ⟨rfl, rfl, rfl, rfl⟩

/-- The focus of an output that shows a tag of its own is the one recomputing it finds iff it is
on a window of the tag, or there is none. -/
theorem refocusTarget_eq_focusedWindow_iff (hids : s.FreshIds)
    (hout : s.outputs[i]? = some out) (hown : s.tagOwner out.activeTag = some i) :
    s.refocusTarget i out = out.focusedWindow ↔ s.FocusedOn i ∧
      (out.focusedWindow = none → ∀ w ∈ s.windows, w.tag ≠ out.activeTag) := by
  constructor
  · intro hsame
    refine ⟨fun out' f hout' hf => ?_, fun hnone w hw htag => ?_⟩
    · obtain rfl := Option.some.inj (hout.symm.trans hout')
      exact refocusTarget_mem (hsame.trans hf)
    · have hfind : s.windows.find? (s.onActiveTag i out.activeTag) = none := by
        simpa [refocusTarget, hnone] using hsame
      have hon : s.onActiveTag i out.activeTag w = true := onActiveTag_iff.mpr ⟨htag ▸ hown, htag⟩
      exact List.find?_eq_none.mp hfind w hw hon
  · rintro ⟨hfocused, hnone⟩
    cases hf : out.focusedWindow with
    | some f =>
      obtain ⟨w, hw, rfl, ho, htag⟩ := hfocused out f hout hf
      exact refocusTarget_keep hf (hids.findWindow hw) ho htag
    | none =>
      have hfind : s.windows.find? (s.onActiveTag i out.activeTag) = none :=
        List.find?_eq_none.mpr fun w hw hon => hnone hf w hw (onActiveTag_iff.mp hon).2
      simp [refocusTarget, hf, hfind]

theorem setActiveTag_self (hout : s.outputs[i]? = some out) :
    s.setActiveTag i out.activeTag = s :=
  congrArg (fun os => { s with outputs := os }) (modify_of_fixed hout rfl)

/-- Activating a tag on its owner. -/
theorem unchanged_activateTag_iff (hids : s.FreshIds) (hown : s.tagOwner t = some i)
    (h : s.activateTag i t = some s') : Unchanged s s' ↔ s.Displays i t := by
  obtain ⟨out, hout, rfl⟩ := activated_of_activateTag h
  have hshown : s.shown i = some out.activeTag := Normalizing.shown_eq hout
  constructor
  · intro hsame
    have hactive : (s.activated i t out).outputs[i]? = some { out with
        activeTag := t, focusedWindow :=
          (s.setActiveTag i t).refocusTarget i { out with activeTag := t } } := by
      simp [activated, getElem?_outputs_setFocusedWindow, getElem?_outputs_setActiveTag, hout]
    have heq : some out = (s.activated i t out).outputs[i]? := by
      rw [← hout, ← show (s.activated i t out).outputs = s.outputs from hsame.outputs]
    have hfields := Option.some.inj (heq.trans hactive)
    have htag : out.activeTag = t := congrArg Output.activeTag hfields
    subst htag
    have hfocus := congrArg Output.focusedWindow hfields
    obtain ⟨hfocused, hunfocused⟩ :=
      (refocusTarget_eq_focusedWindow_iff hids hout hown).mp hfocus.symm
    refine ⟨hshown, windows_clearFullscreenOnTag_eq_iff.mp hsame.windows, hfocused, ?_⟩
    intro out' hout' hnone
    obtain rfl := Option.some.inj (hout.symm.trans hout')
    exact hunfocused hnone
  · intro hdisp
    have htag : out.activeTag = t := Option.some.inj (hshown.symm.trans hdisp.shown)
    subst htag
    have hfocus := (refocusTarget_eq_focusedWindow_iff hids hout hown).mpr
      ⟨hdisp.focused, hdisp.unfocused out hout⟩
    have hself : s.activated i out.activeTag out = s := by
      rw [activated, setActiveTag_self hout, hfocus, setFocusedWindow_self hout]
    rw [hself]
    exact ⟨rfl, rfl, windows_clearFullscreenOnTag_eq_iff.mpr hdisp.fullscreen, rfl⟩

theorem setFocusedOutput_self (h : s.focusedOutput = some i) : s.setFocusedOutput i = s := by
  rw [setFocusedOutput, ← h]

theorem unchanged_markDirty_iff : Unchanged s s'.markDirty ↔ Unchanged s s' :=
  ⟨fun h => ⟨h.tags, h.outputs, h.windows, h.focusedOutput⟩,
    fun h => ⟨h.tags, h.outputs, h.windows, h.focusedOutput⟩⟩

theorem tags_activateTag (h : s.activateTag i t = some s') : s'.tags = s.tags := by
  obtain ⟨out, -, rfl⟩ := activated_of_activateTag h
  rfl

/-- Focusing a tag from an output. -/
theorem unchanged_focusTag_iff (hids : s.FreshIds) (ht : t < s.tags.length)
    (ho : o < s.outputs.length) (h : s.focusTag o t = some s') : Unchanged s s' ↔
      ∃ i, s.tagOwner t = some i ∧ s.Displays i t ∧ (o = i ∨ s.focusedOutput = some i) := by
  rw [focusTag, if_neg (by omega)] at h
  cases hown : s.tagOwner t with
  | none =>
    -- the tag gets an owner
    simp only [hown, Option.bind_eq_bind, Option.bind_eq_some_iff, Option.pure_def] at h
    obtain ⟨r, hr, h⟩ := h
    obtain rfl := Option.some.inj h
    refine iff_of_false (fun hsame => ?_) (by simp)
    have htags : (s.setTagOutput t o).tags = s.tags := (tags_activateTag hr).symm.trans hsame.tags
    have howner : (s.setTagOutput t o).tagOwner t = some o := by
      rw [tagOwner_setTagOutput ht, if_pos rfl]
    rw [tagOwner, htags] at howner
    rw [tagOwner, howner] at hown
    cases hown
  | some owner =>
    simp only [hown, Option.bind_eq_bind, Option.pure_def] at h
    simp only [Option.some.injEq, exists_eq_left']
    split_ifs at h with hsame
    · obtain ⟨r, hr, h⟩ := Option.bind_eq_some_iff.mp h
      obtain rfl := Option.some.inj h
      subst hsame
      rw [unchanged_markDirty_iff, unchanged_activateTag_iff hids hown hr]
      simp
    · obtain ⟨r, hr, h⟩ := Option.bind_eq_some_iff.mp h
      obtain rfl := Option.some.inj h
      rw [unchanged_markDirty_iff]
      constructor
      · intro hkept
        have hfocus : s.focusedOutput = some owner :=
          hkept.focusedOutput.symm.trans (focusedOutput_activateTag hr)
        rw [setFocusedOutput_self hfocus] at hr
        exact ⟨(unchanged_activateTag_iff hids hown hr).mp hkept, Or.inr hfocus⟩
      · rintro ⟨hdisp, hfocus⟩
        have hfocus := hfocus.resolve_left (Ne.symm hsame)
        rw [setFocusedOutput_self hfocus] at hr
        exact (unchanged_activateTag_iff hids hown hr).mpr hdisp

/-- Sending the focused window of an output to a tag. -/
theorem unchanged_sendFocusedToTag_iff (h : s.sendFocusedToTag o t = some s') :
    Unchanged s s' ↔ s.sentWindow o t = none := by
  cases hw : s.sentWindow o t with
  | none =>
    obtain rfl := Option.some.inj ((sendFocusedToTag_of_none hw).symm.trans h)
    exact iff_of_true (Unchanged.refl s) rfl
  | some w =>
    obtain ⟨x, hx⟩ := sendFocusedToTag_of_some hw
    obtain rfl := Option.some.inj (hx.symm.trans h)
    refine iff_of_false (fun hsame => ?_) (by simp)
    obtain ⟨-, -, -, hfind, hne⟩ := sentWindow_spec hw
    -- the window is moved to the tag
    have hmoved := find?_modifyFirst (p := fun v => v.id == w.id)
      (f := fun v : Window => { v with tag := t }) (fun _ hv => hv) s.windows
    have hwindows : modifyFirst (fun v => v.id == w.id) (fun v : Window => { v with tag := t })
        s.windows = s.windows := by
      refine Eq.trans ?_ hsame.windows
      split_ifs <;> rfl
    rw [hwindows, show s.windows.find? (fun v => v.id == w.id) = some w from hfind] at hmoved
    exact hne (congrArg Window.tag (Option.some.inj hmoved))

end State

namespace AppData

variable {d d' : AppData} {c : TagCommand} {t : ℕ}

/-- A request for tag `n` is carried out for that tag, or ignored where there is none. -/
def ReadsTag (d d' : AppData) (c : TagCommand) (n : UInt64) : Prop :=
  if n.toNat < numTags then d.applyCommand (c.on n.toNat) = some d'
  else d.state.Unchanged d'.state

/-- What a command does with a tag it knows or does not know. -/
theorem unchanged_applyCommand_iff (hs : d.state.WellFormed) (hids : d.state.FreshIds)
    (h : d.applyCommand (c.on t) = some d') :
    d.state.Unchanged d'.state ↔ numTags ≤ t ∨ d.state.NothingToDo c t := by
  have hstate := (state_applyCommand h).1
  cases c with
  | focusTag output =>
    rw [TagCommand.on, commandState_focusTag] at hstate
    cases hstart : d.state.commandStart t output with
    | none =>
      rw [hstart, Option.elim_none] at hstate
      rw [← Option.some.inj hstate]
      exact iff_of_true (.refl _) (Or.inr (Or.inl hstart))
    | some o =>
      have hrange := (Option.filter_eq_some_iff.mp hstart).2
      simp only [Bool.and_eq_true, decide_eq_true_eq] at hrange
      rw [hstart, Option.elim_some] at hstate
      rw [State.unchanged_focusTag_iff hids hrange.1 hrange.2 hstate, ← hs.tags]
      simp [State.NothingToDo, hstart, not_le.mpr hrange.1]
  | sendToTag =>
    rw [TagCommand.on, commandState] at hstate
    cases ho : d.state.activeOutput with
    | none =>
      rw [ho] at hstate
      rw [← Option.some.inj hstate]
      exact iff_of_true (.refl _) (Or.inr (by simp [State.NothingToDo, ho]))
    | some o =>
      rw [ho] at hstate
      rw [State.unchanged_sendFocusedToTag_iff hstate]
      have hnone : numTags ≤ t → d.state.sentWindow o t = none := fun hle => by
        rw [State.sentWindow, if_pos (hs.tags ▸ hle)]
      simpa [State.NothingToDo, ho] using hnone

/-- A request for a tag is read right iff there is such a tag, or none in its low 32 bits either,
or nothing to do for the tag in its low 32 bits. -/
theorem tag_request_iff {config : Config} {xkb layerShell cursorShapeManager : Bool}
    (hd : Reachable Step (AppData.new config xkb layerShell cursorShapeManager) d)
    {cmd : Json} {n : UInt64} (hcmd : Requests cmd n c) :
    ∃ d', (parseCommandValue cmd).bind d.applyCommand = some d' ∧
      (d.ReadsTag d' c n ↔ n.toNat < numTags ∨ numTags ≤ n.toNat % 2 ^ 32 ∨
        d.state.NothingToDo c (n.toNat % 2 ^ 32)) := by
  obtain ⟨hs, hops⟩ := reachable_state hd
  rw [parseCommandValue_eq hcmd, Option.bind_some]
  obtain ⟨d', happly, -⟩ := inert_applyCommand hs (c.on (n.toNat % 2 ^ 32))
  refine ⟨d', happly, ?_⟩
  unfold ReadsTag
  split_ifs with hlt
  · have hmod : n.toNat % 2 ^ 32 = n.toNat := Nat.mod_eq_of_lt (hlt.trans (by decide))
    rw [hmod] at happly
    exact iff_of_true happly (Or.inl hlt)
  · rw [unchanged_applyCommand_iff hs (State.reachable_freshIds hops) happly]
    exact (or_iff_right hlt).symm

/-- A tag no output has. -/
theorem tag_request_iff_ninetyNine : ∃ d d' : AppData,
    Reachable Step (AppData.new .default false false false) d ∧ d.state.outputs.length = 1 ∧
      (parseCommandValue
        (.object [("cmd", .string "focus_tag"), ("tag", .number (.posInt 99))])).bind
          d.applyCommand = some d' ∧ d.state.Unchanged d'.state := by
  let es : List Event := [.newOutput 1]
  let reached := es.foldlM AppData.handle (AppData.new .default false false false)
  obtain ⟨d, hd⟩ : ∃ d, reached = some d := Option.isSome_iff_exists.mp (by decide +kernel)
  have houtputs : reached.map (fun d => d.state.outputs.length) = some 1 := by decide +kernel
  rw [hd, Option.map_some, Option.some.injEq] at houtputs
  have hcmd : Requests (.object [("cmd", .string "focus_tag"), ("tag", .number (.posInt 99))]) 99
    (.focusTag none) := ⟨rfl, rfl, rfl⟩
  obtain ⟨d', happly, hiff⟩ := tag_request_iff (reachable_of_foldlM es hd) hcmd
  have hreads := hiff.mpr (Or.inr (Or.inl (by decide)))
  rw [ReadsTag, if_neg (by decide)] at hreads
  exact ⟨d, d', reachable_of_foldlM es hd, houtputs, happly, hreads⟩

/-- The low 32 bits are tag 1. -/
theorem tag_request_wraps : ¬∀ (d : AppData) (cmd : Json) (n : UInt64) (c : TagCommand),
    Reachable Step (AppData.new .default false false false) d → Requests cmd n c →
      ∃ d', (parseCommandValue cmd).bind d.applyCommand = some d' ∧ d.ReadsTag d' c n := by
  intro hall
  let cmd : Json := .object [("cmd", .string "focus_tag"), ("tag", .number (.posInt 4294967297))]
  let es : List Event := [.newOutput 1]
  let reached := es.foldlM AppData.handle (AppData.new .default false false false)
  obtain ⟨d, hd⟩ : ∃ d, reached = some d := Option.isSome_iff_exists.mp (by decide +kernel)
  have hbefore : reached.map (fun d => d.state.tagOwner 1) = some none := by decide +kernel
  have hafter : reached.bind (fun d => ((parseCommandValue cmd).bind d.applyCommand).map
      fun d' => d'.state.tagOwner 1) = some (some 0) := by decide +kernel
  rw [hd, Option.map_some, Option.some.injEq] at hbefore
  obtain ⟨d', happly, hreads⟩ := hall d cmd 4294967297 (.focusTag none)
    (reachable_of_foldlM es hd) ⟨rfl, rfl, rfl⟩
  rw [ReadsTag, if_neg (by decide)] at hreads
  rw [hd, Option.bind_some, happly, Option.map_some, Option.some.injEq, State.tagOwner,
    hreads.tags] at hafter
  rw [State.tagOwner, hafter] at hbefore
  cases hbefore

end AppData

end Streamwm
