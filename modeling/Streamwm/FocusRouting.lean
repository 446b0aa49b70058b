import Streamwm.Refinement
import Streamwm.WindowFrame

/-!
# Keyboard focus in a manage sequence

A manage sequence refocuses every output and then routes keyboard focus to the focused
window of the focused output. That window exists and is on the tag the output shows
(`Focused`); a change that leaves alone what an output's focus rests on (`Leaves`) keeps it
so. Minimizing a window does not take focus from it : it stays routed, and is hidden exactly
when it is minimized (`routed_hidden_iff_minimized`).
-/

namespace Streamwm

open Partial Transition

namespace State

variable {s s' : State} {w : Window} {j : ℕ}

/-- The focused window of every output is on the tag the output owns and shows. -/
def Focused (s : State) : Prop :=
  ∀ i out f, s.outputs[i]? = some out → out.focusedWindow = some f →
    ∃ w ∈ s.windows, w.id = f ∧ s.tagOwner w.tag = some i ∧ w.tag = out.activeTag

/-- The focused window of output `j` is on the tag the output owns and shows. -/
def FocusedOn (s : State) (j : ℕ) : Prop :=
  ∀ out f, s.outputs[j]? = some out → out.focusedWindow = some f →
    ∃ w ∈ s.windows, w.id = f ∧ s.tagOwner w.tag = some j ∧ w.tag = out.activeTag

/-- What the focus of output `j` rests on is left alone. -/
structure Leaves (j : ℕ) (s s' : State) : Prop where
  output : (s'.outputs[j]?).map Output.sight = (s.outputs[j]?).map Output.sight
  owner : ∀ t, s.tagOwner t = some j → s'.tagOwner t = some j
  window : ∀ w ∈ s.windows, s.tagOwner w.tag = some j →
    ∃ w' ∈ s'.windows, w'.id = w.id ∧ w'.tag = w.tag

theorem focused_refocused (s : State) : s.refocused.Focused := by
  intro i out f hout hf
  simp only [refocused, List.getElem?_mapIdx, Option.map_eq_some_iff] at hout
  obtain ⟨out₀, -, rfl⟩ := hout
  have hmem := refocusTarget_mem (show s.refocusTarget i out₀ = some f from hf)
  exact hmem

theorem Leaves.focusedOn (h : Leaves j s s') (hf : s.FocusedOn j) : s'.FocusedOn j := by
  intro out f hout hfocus
  have hsight := h.output
  rw [hout, Option.map_some] at hsight
  obtain ⟨out₀, hout₀, heq⟩ := Option.map_eq_some_iff.mp hsight.symm
  simp only [Output.sight, Prod.mk.injEq] at heq
  obtain ⟨-, hact, hfoc⟩ := heq
  obtain ⟨w, hw, hid, hown, htag⟩ := hf out₀ f hout₀ (hfoc.trans hfocus)
  obtain ⟨w', hw', hid', htag'⟩ := h.window w hw hown
  refine ⟨w', hw', hid'.trans hid, ?_, ?_⟩
  · rw [htag']
    exact h.owner w.tag hown
  · rw [htag', htag, hact]

theorem Quiet.leaves (h : Quiet s s') (j : ℕ) : Leaves j s s' := by
  refine ⟨?_, fun t ht => (h.still.owner t).trans ht, fun w hw _ => ?_⟩
  · rw [← List.getElem?_map, ← List.getElem?_map, h.outputs]
  · obtain ⟨w', hw', -, hid, htag, -⟩ := exists_of_forall₂ h.windows.flip hw
    exact ⟨w', hw', hid, htag⟩

theorem Quiet.focused (h : Quiet s s') (hs : s.Focused) : s'.Focused :=
  fun j => (h.leaves j).focusedOn (hs j)

/-- A routed window is on the active tag of the focused output, and hidden iff it is
minimized. -/
theorem Focused.routed (hs : s.Focused) (hids : s.FreshIds) (hwf : s.WellFormed)
    (h : s.routedWindow = some (some w)) : w ∈ s.windows ∧
      (∃ i, s.focusedOutput = some i ∧ s.tagOwner w.tag = some i ∧ s.shown i = some w.tag) ∧
      ∀ config ps, s.placements config = some ps →
        ((w.id, Placement.hidden) ∈ ps ↔ w.minimized = true) := by
  unfold routedWindow at h
  split at h
  · simp at h
  next i hi =>
  obtain ⟨out, hout, hw⟩ := Option.bind_eq_some_iff.mp h
  obtain ⟨f, hf, hfind⟩ := Option.bind_eq_some_iff.mp (Option.some.inj hw)
  obtain ⟨hmem, rfl⟩ := mem_of_findWindow hfind
  obtain ⟨v, hv, hid, hown, htag⟩ := hs i out w.id hout hf
  obtain rfl := hids.eq_of_id hmem hv hid.symm
  have hshown : s.shown i = some w.tag := by
    rw [htag]
    exact Normalizing.shown_eq hout
  have hfocus : s.focusedOutput = some i := by
    cases hfo : s.focusedOutput with
    | none =>
      have hnil := hwf.focus.mp hfo
      simp [hnil] at hout
    | some j =>
      simpa [activeOutput, hfo] using hi
  refine ⟨hmem, ⟨i, hfocus, hown, hshown⟩, fun config ps hps => ?_⟩
  have hvis : s.windowIsVisible w = true := windowIsVisible_iff.mpr ⟨i, hown, hshown⟩
  have hhidden : ∀ gs, s.placement gs w = .hidden ↔ w.minimized = true := fun gs => by
    rw [placement_eq_hidden_iff, hvis]
    simp
  rw [mem_placements config hps]
  constructor
  · rintro ⟨gs, -, u, hu, heq⟩
    obtain ⟨huid, hplace⟩ := Prod.mk.inj heq
    obtain rfl := hids.eq_of_id hmem hu huid
    exact (hhidden gs).mp hplace.symm
  · intro hmin
    obtain ⟨gs, hgs⟩ := s.exists_computeAll config
    exact ⟨gs, hgs, w, hmem, by rw [(hhidden gs).mpr hmin]⟩

end State

open State

namespace AppData

variable {d d₁ : AppData} {w : Window}

/-- The state in which a manage sequence routes keyboard focus. -/
theorem focused_manageWindows (hs : d.state.WellFormed) (hids : d.state.FreshIds)
    (h : d.beginManage = some d₁) : d₁.manageWindows.state.Focused ∧
      d₁.manageWindows.state.FreshIds ∧ d₁.manageWindows.state.WellFormed := by
  obtain ⟨d₀, hd₀, hstate, hidle⟩ := beginManage_spec d
  obtain rfl := Option.some.inj (hd₀.symm.trans h)
  obtain ⟨d₂, hd₂, -, -, hmanage⟩ := manageWindows_spec d₀
  have hquiet := quiet_applyFullscreen (d := d₂)
  have hwf : d₂.state.WellFormed := by
    rw [hd₂]
    exact hidle.wellFormed ((pointerPass d).state.symm ▸ hs)
  rw [hmanage]
  refine ⟨hquiet.focused ?_, ?_, hquiet.wellFormed hwf⟩
  · rw [hd₂, hstate]
    exact focused_refocused d.state
  · have hfresh : d₂.state.FreshIds := by
      rw [hd₂, hstate]
      exact ⟨hids.nodup, hids.lt⟩
    exact (Change.applyFullscreen hquiet).freshIds hfresh

/-- The window a manage sequence routes keyboard focus to exists and is on the active
tag of the focused output; it is hidden iff it is minimized. -/
theorem routed_hidden_iff_minimized {config : Config} {xkb layerShell cursorShapeManager : Bool}
    (h : Reachable Step (AppData.new config xkb layerShell cursorShapeManager) d)
    (hbegin : d.beginManage = some d₁)
    (hroute : d₁.manageWindows.state.routedWindow = some (some w)) :
    w ∈ d₁.manageWindows.state.windows ∧
      (∃ i, d₁.manageWindows.state.focusedOutput = some i ∧
        d₁.manageWindows.state.tagOwner w.tag = some i ∧
        d₁.manageWindows.state.shown i = some w.tag) ∧
      ∀ config ps, d₁.manageWindows.state.placements config = some ps →
        ((w.id, Placement.hidden) ∈ ps ↔ w.minimized = true) := by
  obtain ⟨hs, hreach⟩ := reachable_state h
  obtain ⟨hfocused, hids, hwf⟩ := focused_manageWindows hs (reachable_freshIds hreach) hbegin
  exact hfocused.routed hids hwf hroute

/-- A new window gets keyboard focus and is not hidden. -/
theorem routed_hidden_iff_minimized_new : ∃ (d d₁ : AppData) (w : Window), d.beginManage = some d₁ ∧
    d₁.manageWindows.state.routedWindow = some (some w) ∧
      ∀ ps, d₁.manageWindows.state.placements d₁.config = some ps →
        (w.id, Placement.hidden) ∉ ps := by
  obtain ⟨d, d₁, w, hreach, hbegin, hroute, hmin⟩ : ∃ (d d₁ : AppData) (w : Window),
      Reachable Step (AppData.new .default false false false) d ∧ d.beginManage = some d₁ ∧
        d₁.manageWindows.state.routedWindow = some (some w) ∧ w.minimized = false :=
    ⟨_, _, _, (Reachable.refl.tail (e := .newOutput 1) (by exact rfl)).tail (e := .newWindow 2)
      (by exact rfl), rfl, rfl, rfl⟩
  refine ⟨d, d₁, w, hbegin, hroute, fun ps hps => ?_⟩
  rw [(routed_hidden_iff_minimized hreach hbegin hroute).2.2 d₁.config ps hps, hmin]
  decide

/-- Minimizing the focused window : it keeps keyboard focus and is hidden. -/
theorem exists_routed_hidden : ¬∀ (config : Config) (xkb layerShell cursorShapeManager : Bool)
    (d d₁ : AppData) (w : Window),
    Reachable Step (AppData.new config xkb layerShell cursorShapeManager) d →
    d.beginManage = some d₁ → d₁.manageWindows.state.routedWindow = some (some w) →
    ∀ ps, d₁.manageWindows.state.placements config = some ps → (w.id, Placement.hidden) ∉ ps := by
  intro hall
  obtain ⟨d, d₁, w, hreach, hbegin, hroute, hmin⟩ : ∃ (d d₁ : AppData) (w : Window),
      Reachable Step (AppData.new .default false false false) d ∧ d.beginManage = some d₁ ∧
        d₁.manageWindows.state.routedWindow = some (some w) ∧ w.minimized = true :=
    ⟨_, _, _, ((Reachable.refl.tail (e := .newOutput 1) (by exact rfl)).tail (e := .newWindow 2)
      (by exact rfl)).tail (e := .window 2 .minimizeRequested) (by exact rfl), rfl, rfl, rfl⟩
  obtain ⟨hs, hops⟩ := reachable_state hreach
  obtain ⟨hfocused, hids, hwf⟩ := focused_manageWindows hs (reachable_freshIds hops) hbegin
  obtain ⟨ps, hps⟩ := exists_placements d₁.manageWindows.state .default
  exact hall _ _ _ _ d d₁ w hreach hbegin hroute ps hps
    (((hfocused.routed hids hwf hroute).2.2 _ ps hps).mpr hmin)

end AppData

end Streamwm
