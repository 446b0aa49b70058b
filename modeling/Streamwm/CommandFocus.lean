import Streamwm.EventLoop
import Streamwm.FocusRouting
import Streamwm.Stranded

/-!
# The focus command

The socket can ask for a window by its app id and title. The command gives the focus to the
output that owns the window's tag, makes the tag active there and the window the focused
one; the next manage sequence keeps it so, since the window is on the tag it looks at. The
command does nothing for a window whose tag no output owns, and it leaves a minimized window
minimized, so that window has the focus and is hidden (`focusWindow_hasFocus_iff`).
-/

namespace Streamwm

open Transition

/-- What decides whether a window is hidden, once its tag is shown. -/
def Window.spot (w : Window) : ℕ × ℕ × Bool :=
  (w.id, w.tag, w.minimized)

namespace State

variable {s s' : State} {w : Window} {i wid t : ℕ} {config : Config}

/-- The window is the focused one of the focused output, which shows the window's tag. -/
def HasFocus (s : State) (w : Window) : Prop :=
  ∃ i out, s.focusedOutput = some i ∧ s.outputs[i]? = some out ∧
    out.focusedWindow = some w.id ∧ out.activeTag = w.tag

/-- The window of this id has a placement that is not `hidden`. -/
def Placed (s : State) (config : Config) (id : ℕ) : Prop :=
  ∃ ps p, s.placements config = some ps ∧ (id, p) ∈ ps ∧ p ≠ .hidden

/-! ## Windows that are placed -/

/-- Exactly the windows on shown tags that are not minimized are. -/
theorem placed_iff (hids : s.FreshIds) (hw : w ∈ s.windows) :
    s.Placed config w.id ↔ w.minimized = false ∧ s.windowIsVisible w = true := by
  have hplace : ∀ gs, s.placement gs w ≠ .hidden ↔
      w.minimized = false ∧ s.windowIsVisible w = true := fun gs => by
    rw [Ne, placement_eq_hidden_iff, not_or, Bool.not_eq_true, Bool.not_eq_false]
  constructor
  · rintro ⟨ps, p, hps, hmem, hne⟩
    obtain ⟨gs, -, v, hv, heq⟩ := (mem_placements config hps).mp hmem
    obtain ⟨hid, rfl⟩ := Prod.mk.inj heq
    obtain rfl := hids.eq_of_id hw hv hid
    exact (hplace gs).mp hne
  · intro hshown
    obtain ⟨ps, hps⟩ := s.exists_placements config
    obtain ⟨gs, hgs⟩ := s.exists_computeAll config
    exact ⟨ps, s.placement gs w, hps, (mem_placements config hps).mpr ⟨gs, hgs, w, hw, rfl⟩,
      (hplace gs).mpr hshown⟩

theorem HasFocus.visible (h : s.HasFocus w) (hown : s.tagOwner w.tag = s.focusedOutput) :
    s.windowIsVisible w = true := by
  obtain ⟨i, out, hi, hout, -, htag⟩ := h
  refine windowIsVisible_iff.mpr ⟨i, hown.trans hi, ?_⟩
  rw [Normalizing.shown_eq hout, htag]

/-! ## The command -/

theorem spots_clearFullscreenOnTag :
    (s.clearFullscreenOnTag t).windows.map Window.spot = s.windows.map Window.spot := by
  change (s.windows.map _).map _ = _
  rw [List.map_map]
  refine List.map_congr_left fun w _ => ?_
  dsimp only [Function.comp_apply]
  split_ifs <;> rfl

/-- The command moves no window, and leaves tag ownership alone. -/
theorem commandFocusWindow_keeps (h : s.commandFocusWindow wid t = some s') :
    s'.windows.map Window.spot = s.windows.map Window.spot ∧
      ∀ u, s'.tagOwner u = s.tagOwner u := by
  obtain ⟨s₁, hs₁, rfl | ⟨o, old, r, ha, hsame⟩⟩ := commandFocusWindow_cases (s := s) (i := wid)
    (t := t)
  · obtain rfl := Option.some.inj (hs₁.symm.trans h)
    exact ⟨rfl, fun _ => rfl⟩
  · obtain rfl := Option.some.inj (hs₁.symm.trans h)
    refine ⟨?_, fun u => (ha.owner u).trans (hsame.owner u)⟩
    rcases ha.windows with hcleared | ⟨-, hkept⟩
    · rw [hcleared, spots_clearFullscreenOnTag, hsame.windows]
    · rw [hkept, hsame.windows]

theorem commandFocusWindow_hasFocus (hs : s.WellFormed) (hown : s.tagOwner w.tag = some i)
    (h : s.commandFocusWindow w.id w.tag = some s') :
    s'.HasFocus w ∧ s'.tagOwner w.tag = s'.focusedOutput := by
  obtain ⟨s₁, hs₁, hown₁, hshown, hfocus, hwindow⟩ := commandFocusWindow_of_owner hs hown w.id
  obtain rfl := Option.some.inj (hs₁.symm.trans h)
  obtain ⟨out, hout, htag⟩ := Option.map_eq_some_iff.mp hshown
  refine ⟨⟨i, out, hfocus, hout, ?_, htag⟩, hown₁.trans hfocus.symm⟩
  simpa [activeFocusedWindow, activeOutput, hfocus, hout] using hwindow

/-! ## The manage sequence after it -/

theorem exists_of_spot_mem (h : w.spot ∈ s.windows.map Window.spot) :
    ∃ v ∈ s.windows, v.id = w.id ∧ v.tag = w.tag ∧ v.minimized = w.minimized := by
  obtain ⟨v, hv, hspot⟩ := List.mem_map.mp h
  exact ⟨v, hv, by simpa [Window.spot] using hspot⟩

/-- The state is the other one refocused, up to what a manage sequence keeps of a window. -/
structure AfterManage (s s' : State) : Prop where
  outputs : s'.outputs = s.refocused.outputs
  focusedOutput : s'.focusedOutput = s.focusedOutput
  tags : s'.tags = s.tags
  spots : s'.windows.map Window.spot = s.windows.map Window.spot

theorem AfterManage.tagOwner (h : AfterManage s s') (t : ℕ) : s'.tagOwner t = s.tagOwner t := by
  rw [State.tagOwner, h.tags]
  rfl

/-- A window on a tag its output owns keeps the focus. -/
theorem AfterManage.hasFocus (h : AfterManage s s') (hids : s.FreshIds)
    (hw : w.spot ∈ s.windows.map Window.spot) (hown : s.tagOwner w.tag = s.focusedOutput)
    (hfocus : s.HasFocus w) : s'.HasFocus w := by
  obtain ⟨v, hv, hid, htag, -⟩ := exists_of_spot_mem hw
  obtain ⟨i, out, hi, hout, hf, hact⟩ := hfocus
  have hkeep : s.refocusTarget i out = some w.id := by
    refine refocusTarget_keep hf (w := v) ?_ ?_ (htag.trans hact.symm)
    · rw [← hid]
      exact hids.findWindow hv
    · rw [htag, hown, hi]
  refine ⟨i, { out with focusedWindow := s.refocusTarget i out }, h.focusedOutput.trans hi, ?_,
    hkeep, hact⟩
  simp [h.outputs, refocused, List.getElem?_mapIdx, hout]

/-- A window that has the focus then is on a tag its output owns. -/
theorem AfterManage.owner (h : AfterManage s s') (hfocus : s'.HasFocus w) :
    s'.tagOwner w.tag = s'.focusedOutput := by
  obtain ⟨i, out, hi, hout, hf, htag⟩ := hfocus
  obtain ⟨v, -, -, hown, hv⟩ := focused_refocused s i out w.id (h.outputs ▸ hout) hf
  rw [h.tagOwner, hi, ← htag, ← hv]
  exact hown

end State

open State

namespace AppData

variable {d d' : AppData} {w : Window} {i : ℕ}

theorem spot_managed (useSsd : Bool) (target : Option ObjectId) (untagged outputsEmpty : Bool)
    (w : Window) : (w.manage useSsd target untagged outputsEmpty).1.setTiled.1.spot = w.spot := by
  obtain ⟨_, _, _, _, hw, -⟩ := w.managed_manage useSsd target untagged outputsEmpty
  rw [hw]
  obtain ⟨t, ht, -⟩ := Window.setTiled_spec _
  rw [ht]
  rfl

theorem afterManage_onManageStart (hs : d.state.WellFormed) :
    ∃ d', d.onManageStart = some d' ∧ AfterManage d.state d'.state := by
  obtain ⟨d₁, d', hd', hd₁, -, -, hstate⟩ := onManageStart_spec hs
  have houtputs : d'.state.outputs = d₁.state.outputs := by rw [hstate]; rfl
  have hfocused : d'.state.focusedOutput = d₁.state.focusedOutput := by rw [hstate]; rfl
  have htags : d'.state.tags = d₁.state.tags := by rw [hstate]; rfl
  refine ⟨d', hd', houtputs.trans (by rw [hd₁]), hfocused.trans (by rw [hd₁]; rfl),
    htags.trans (by rw [hd₁]; rfl), ?_⟩
  rw [hstate]
  change ((d₁.state.windows.map _).map _).map _ = _
  rw [hd₁, List.map_map, List.map_map]
  exact List.map_congr_left fun w _ => spot_managed _ _ _ _ w

theorem applyCommand_focusWindow {appId : String} {title : Option String}
    (htarget : d.state.commandTarget appId title = some w) :
    ∃ d', d.applyCommand (.focusWindow appId title) = some d' ∧
      d.state.commandFocusWindow w.id w.tag = some d'.state := by
  obtain ⟨s, hs, -⟩ := change_commandFocusWindow (s := d.state) (t := w.tag) w.id
  exact ⟨_, by simp only [applyCommand, commandState, htarget, hs]; rfl, hs⟩

/-- The command and a manage sequence after it give a window the focus iff its tag has an
owner, and then it is placed iff it is not minimized. Without an owner nothing happens. -/
theorem focusWindow_hasFocus_iff {config : Config} {xkb layerShell cursorShapeManager : Bool}
    {appId : String} {title : Option String}
    (h : Reachable Step (AppData.new config xkb layerShell cursorShapeManager) d)
    (htarget : d.state.commandTarget appId title = some w) :
    ∃ d₁ d₂, d.applyCommand (.focusWindow appId title) = some d₁ ∧ d₁.onManageStart = some d₂ ∧
      (d₂.state.HasFocus w ↔ d.state.tagOwner w.tag ≠ none) ∧
      (d.state.tagOwner w.tag ≠ none →
        (d₂.state.Placed d₂.config w.id ↔ w.minimized = false)) ∧
      (d.state.tagOwner w.tag = none → d₁.state = d.state) := by
  have hs := (reachable_state h).1
  obtain ⟨d₁, hd₁, hs₁⟩ := applyCommand_focusWindow htarget
  have h₁ := h.tail (show Step d (.command (.focusWindow appId title)) d₁ from hd₁)
  obtain ⟨hwf₁, hops₁⟩ := reachable_state h₁
  obtain ⟨d₂, hd₂, hafter⟩ := afterManage_onManageStart hwf₁
  have h₂ := h₁.tail (show Step d₁ .manageStart d₂ from hd₂)
  have hids₂ := reachable_freshIds (reachable_state h₂).2
  obtain ⟨hspots, howner⟩ := commandFocusWindow_keeps hs₁
  have hmem : w.spot ∈ d₁.state.windows.map Window.spot := by
    rw [hspots]
    exact List.mem_map_of_mem (List.mem_of_find?_eq_some htarget)
  have hfocus₂ : d.state.tagOwner w.tag ≠ none → d₂.state.HasFocus w := by
    intro hown
    obtain ⟨i, hi⟩ := Option.ne_none_iff_exists'.mp hown
    obtain ⟨hfocus, hown₁⟩ := commandFocusWindow_hasFocus hs hi hs₁
    exact hafter.hasFocus (reachable_freshIds hops₁) hmem hown₁ hfocus
  refine ⟨d₁, d₂, hd₁, hd₂, ⟨fun hfocus => ?_, hfocus₂⟩, fun hown => ?_, fun hnone => ?_⟩
  · obtain ⟨i, -, hi, -⟩ := id hfocus
    rw [← howner, ← hafter.tagOwner, hafter.owner hfocus, hi]
    exact Option.some_ne_none i
  · -- the window as the manage sequence leaves it
    obtain ⟨v, hv, hid, htag, hmin⟩ := exists_of_spot_mem (hafter.spots.symm ▸ hmem)
    have hfocus : d₂.state.HasFocus v := by
      rw [HasFocus, hid, htag]
      exact hfocus₂ hown
    rw [← hid, ← hmin, placed_iff hids₂ hv]
    exact and_iff_left (hfocus.visible (hafter.owner hfocus))
  · have hsame : d.state.commandFocusWindow w.id w.tag = some d.state := by
      rw [commandFocusWindow, hnone]
      rfl
    exact Option.some.inj (hs₁.symm.trans hsame)

/-- The only window, asked for while its output shows another tag. -/
theorem focusWindow_hasFocus_iff_other_tag : ∃ (d d₁ d₂ : AppData) (w : Window),
    d.state.commandTarget "f" none = some w ∧ d.state.windowIsVisible w = false ∧
      d.applyCommand (.focusWindow "f" none) = some d₁ ∧ d₁.onManageStart = some d₂ ∧
        d₂.state.HasFocus w ∧ d₂.state.Placed d₂.config w.id := by
  let es : List Event := [.newOutput 1, .newWindow 2, .window 2 (.appId (some "f")),
    .command (.focusTag 1 none)]
  let reached := es.foldlM AppData.handle (AppData.new .default false false false)
  obtain ⟨d, hd⟩ : ∃ d, reached = some d := Option.isSome_iff_exists.mp (by decide +kernel)
  have htarget : reached.bind (fun d => (d.state.commandTarget "f" none).map fun w =>
      (w.tag, w.minimized, d.state.windowIsVisible w)) = some (0, false, false) := by decide +kernel
  have hown : reached.map (fun d => d.state.tagOwner 0) = some (some 0) := by decide +kernel
  rw [hd, Option.bind_some] at htarget
  rw [hd, Option.map_some, Option.some.injEq] at hown
  obtain ⟨w, hw, hdata⟩ := Option.map_eq_some_iff.mp htarget
  simp only [Prod.mk.injEq] at hdata
  obtain ⟨htag, hmin, hvisible⟩ := hdata
  have hne : d.state.tagOwner w.tag ≠ none := by
    rw [htag, hown]
    exact Option.some_ne_none 0
  obtain ⟨d₁, d₂, hd₁, hd₂, hfocus, hplaced, -⟩ :=
    focusWindow_hasFocus_iff (reachable_of_foldlM es hd) hw
  exact ⟨d, d₁, d₂, w, hw, hvisible, hd₁, hd₂, hfocus.mpr hne, (hplaced hne).mpr hmin⟩

/-- The only output is unplugged and plugged in again, with the window on the second tag. -/
theorem focusWindow_leaves_focus : ¬∀ (d : AppData) (appId : String) (title : Option String)
    (w : Window), Reachable Step (AppData.new .default false false false) d →
    d.state.outputs ≠ [] → d.state.commandTarget appId title = some w →
    ∃ d₁ d₂, d.applyCommand (.focusWindow appId title) = some d₁ ∧ d₁.onManageStart = some d₂ ∧
      d₂.state.HasFocus w ∧ d₂.state.Placed d₂.config w.id := by
  intro hall
  let es : List Event := [.newOutput 1, .command (.focusTag 1 none), .newWindow 2,
    .window 2 (.appId (some "f")), .output 1 .removed, .newOutput 3]
  let reached := es.foldlM AppData.handle (AppData.new .default false false false)
  obtain ⟨d, hd⟩ : ∃ d, reached = some d := Option.isSome_iff_exists.mp (by decide +kernel)
  have houtputs : reached.map (fun d => d.state.outputs.length) = some 1 := by decide +kernel
  have htarget : reached.bind (fun d => (d.state.commandTarget "f" none).map (·.tag)) =
      some 1 := by
    decide +kernel
  have hshown : (reached.bind fun d => d.applyCommand (.focusWindow "f" none)).bind
      (fun d₁ => d₁.onManageStart.map fun d₂ => d₂.state.outputs.map (·.activeTag)) =
        some [0] := by
    decide +kernel
  rw [hd, Option.map_some, Option.some.injEq] at houtputs
  rw [hd, Option.bind_some] at htarget hshown
  obtain ⟨w, hw, htag⟩ := Option.map_eq_some_iff.mp htarget
  obtain ⟨d₁, d₂, hd₁, hd₂, ⟨i, out, -, hout, -, hact⟩, -⟩ :=
    hall d "f" none w (reachable_of_foldlM es hd) (by rintro hnil; simp [hnil] at houtputs) hw
  rw [hd₁, Option.bind_some, hd₂, Option.map_some, Option.some.injEq] at hshown
  have hmem := List.mem_map_of_mem (f := (·.activeTag)) (List.mem_of_getElem? hout)
  rw [hshown, List.mem_singleton, hact, htag] at hmem
  cases hmem

end AppData

end Streamwm
