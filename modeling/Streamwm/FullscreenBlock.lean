import Streamwm.Removal
import Streamwm.River
import Streamwm.WindowFrame

/-!
# The fullscreen block

What a step keeps that matters to fullscreen states (`State.Keeps`), what the fullscreen
block of a manage sequence does with one window (`State.fullscreenStep`), and when that
leaves river and the window manager in step : `matches_fullscreenStep_iff` says that it
does iff the window is in place (`InPlace`).
-/

namespace Streamwm

open Partial Transition

namespace State

variable {s s' r : State} {i t : ℕ} {op : Op} {w : Window}

/-! ## The outputs a step keeps -/

/-- The objects of the outputs. -/
def outputProxies (s : State) : List ObjectId :=
  s.outputs.map (·.proxy)

theorem getElem?_outputProxies (s : State) (i : ℕ) : s.outputProxies[i]? = s.outputProxy i := by
  rw [outputProxies, List.getElem?_map, outputProxy]

theorem outputProxies_of_proxy (h : ∀ i, s'.outputProxy i = s.outputProxy i) :
    s'.outputProxies = s.outputProxies :=
  List.ext_getElem? fun i => by rw [getElem?_outputProxies, getElem?_outputProxies, h]

theorem Grows.outputProxies (h : Grows s s') (hlen : s'.outputs.length = s.outputs.length) :
    s'.outputProxies = s.outputProxies := by
  refine outputProxies_of_proxy fun i => ?_
  cases hp : s.outputProxy i with
  | some p => exact h.proxy i p hp
  | none =>
    have hge : s.outputs.length ≤ i := by simpa [outputProxy] using hp
    rw [← hlen] at hge
    simp [outputProxy, hge]

/-- A step that neither adds nor removes an output keeps them all. -/
theorem Change.outputProxies (h : Change s op s') (h₁ : ∀ proxy, op ≠ .addOutput proxy)
    (h₂ : ∀ i, op ≠ .removeOutput i) : s'.outputProxies = s.outputProxies := by
  refine (h.grows fun i _ => h₂ i).outputProxies ?_
  cases h with
  | same _ h => exact h.length
  | shows _ h => exact h.length
  | sendNone _ => rfl
  | send h => exact h.length
  | create proxy => exact (still_createWindow proxy).length
  | close proxy => rfl
  | fullscreen wid => rfl
  | applyFullscreen h => exact h.still.length
  | quiet h _ => exact h.still.length
  | add _ => exact absurd rfl (h₁ _)
  | removeNone _ => rfl
  | removeLast _ _ => exact absurd rfl (h₂ _)
  | remove _ _ _ => exact absurd rfl (h₂ _)
  | geometryNone _ h _ _ => exact h.still.length
  | geometry _ h =>
    rw [(quiet_clampFloatingWindows _).still.length, h.length,
      (quiet_setGeometry s _ _).still.length]

theorem outputProxies_withNewOutput (proxy : ObjectId) :
    (s.withNewOutput proxy).outputProxies = s.outputProxies ++ [proxy] := by
  have hpush : (s.pushOutput proxy).outputProxies = s.outputProxies ++ [proxy] :=
    List.map_append
  unfold withNewOutput
  split
  · exact (outputProxies_of_proxy fun i => by simp).trans hpush
  · exact hpush

/-- A new output comes last. -/
theorem Change.outputProxies_add {proxy : ObjectId} (h : Change s (.addOutput proxy) s') :
    s'.outputProxies = s.outputProxies ++ [proxy] := by
  cases h with
  | @add _ _ h =>
    have hsame := (validFocus_spec (s.withNewOutput proxy) (by simp [← List.length_pos_iff])).1
    have hlen : s'.outputs.length = (s.withNewOutput proxy).validFocus.outputs.length := h.length
    rw [h.grows.outputProxies hlen, outputProxies_of_proxy hsame.proxy, outputProxies_withNewOutput]
  | same hop _ | shows hop _ => exact hop.elim

theorem Removal.outputProxies (h : Removal i s s') :
    s'.outputProxies = s.outputProxies.eraseIdx i := by
  refine List.ext_getElem? fun j => ?_
  rw [getElem?_outputProxies, h.proxy, List.getElem?_eraseIdx, oldIndex]
  split_ifs <;> rw [getElem?_outputProxies]

/-! ## The windows a step keeps -/

/-- Every window was there before, with the same applied fullscreen state, and is on an
owned tag if it was on one. -/
structure Keeps (s s' : State) : Prop where
  proxies : (s'.windows.map (·.proxy)).Sublist (s.windows.map (·.proxy))
  windows : ∀ w' ∈ s'.windows, ∃ w ∈ s.windows, w'.proxy = w.proxy ∧
    w'.fullscreenApplied = w.fullscreenApplied ∧
      (s.tagOwner w.tag ≠ none → s'.tagOwner w'.tag ≠ none)

theorem Keeps.refl (s : State) : Keeps s s :=
  ⟨List.Sublist.refl _, fun w hw => ⟨w, hw, rfl, rfl, fun h => h⟩⟩

theorem Keeps.trans (h : Keeps s r) (h' : Keeps r s') : Keeps s s' := by
  refine ⟨h'.proxies.trans h.proxies, fun w' hw' => ?_⟩
  obtain ⟨v, hv, hp', ha', ho'⟩ := h'.windows w' hw'
  obtain ⟨w, hw, hp, ha, ho⟩ := h.windows v hv
  exact ⟨w, hw, hp'.trans hp, ha'.trans ha, fun h => ho' (ho h)⟩

/-- Only the removal of the last output takes owned tags their owner. -/
theorem Change.owned (h : Change s op s')
    (hlast : ∀ i, op = .removeOutput i → i < s.outputs.length → 1 < s.outputs.length)
    (hown : s.tagOwner t ≠ none) : s'.tagOwner t ≠ none := by
  obtain ⟨j, hj⟩ := Option.ne_none_iff_exists'.mp hown
  by_cases hop : ∃ i, i < s.outputs.length ∧ op = .removeOutput i
  · obtain ⟨i, hi, rfl⟩ := hop
    have hlen := hlast i rfl hi
    cases h with
    | removeNone hge => exact absurd hi (not_lt.mpr hge)
    | removeLast h1 _ => omega
    | remove _ _ h =>
      have hrem := removal_of_normalizing hi hlen h
      rcases eq_or_ne j i with rfl | hij
      · simp [hrem.inherited hlen t hj]
      · simp [hrem.owner hlen t j hij hj]
    | same hop _ | shows hop _ => exact hop.elim
  · have hgrows := h.grows fun i hi hop' => hop ⟨i, hi, hop'⟩
    simp [hgrows.owner t j hj]

theorem Change.keeps (h : Change s op s')
    (hlast : ∀ i, op = .removeOutput i → i < s.outputs.length → 1 < s.outputs.length)
    (h₁ : ∀ proxy, op ≠ .createWindow proxy) (h₂ : ∀ proxy, op ≠ .closeWindow proxy)
    (h₃ : op ≠ .applyFullscreen) : Keeps s s' := by
  have hw := h.follows h₁ h₂ h₃
  refine ⟨by rw [map_eq_of_forall₂ (fun _ _ h => h.proxy) hw], fun w' hw' => ?_⟩
  obtain ⟨w, hmem, hf⟩ := exists_of_forall₂ hw hw'
  refine ⟨w, hmem, hf.proxy, hf.applied, fun hown => ?_⟩
  rcases hf.tag with htag | htag
  · rw [htag]
    exact h.owned hlast hown
  · exact htag

theorem keeps_closeWindow (proxy : ObjectId) : Keeps s (s.closeWindow proxy) :=
  ⟨List.filter_sublist.map _, fun w hw => ⟨w, List.mem_of_mem_filter hw, rfl, rfl, fun h => h⟩⟩

/-- Local operations keep windows and outputs. -/
theorem keeps_of_reachable (hs : s.WellFormed) (h : Reachable LocalStep s s') :
    Keeps s s' ∧ s'.outputProxies = s.outputProxies := by
  have hinv := h.invariant
    (I := fun r => r.WellFormed ∧ Keeps s r ∧ r.outputProxies = s.outputProxies)
    (fun r op r' ⟨hwf, hkeep, hout⟩ ⟨hlocal, hstep⟩ => by
      have hc := change_of_step hwf hstep
      have hne : (∀ p, op ≠ .addOutput p) ∧ (∀ i, op ≠ .removeOutput i) ∧
          (∀ p, op ≠ .createWindow p) ∧ (∀ p, op ≠ .closeWindow p) ∧ op ≠ .applyFullscreen := by
        refine ⟨?_, ?_, ?_, ?_, fun hop => ?_⟩
        · rintro p rfl
          exact hlocal
        · rintro i rfl
          exact hlocal
        · rintro p rfl
          exact hlocal
        · rintro p rfl
          exact hlocal
        · subst hop
          exact hlocal
      exact ⟨hc.wellFormed hwf,
        hkeep.trans (hc.keeps (fun i hi => absurd hi (hne.2.1 i)) hne.2.2.1 hne.2.2.2.1
          hne.2.2.2.2),
        (hc.outputProxies hne.1 hne.2.1).trans hout⟩) ⟨hs, Keeps.refl s, rfl⟩
  exact hinv.2

end State

/-! ## The fullscreen block -/

/-- The fullscreen half of the fullscreen block : whether the state then counts as
applied, and the requests made. -/
def Window.fullscreenStep (target : Option ObjectId) (untagged outputsEmpty : Bool) (w : Window) :
    Bool × List Request :=
  if w.fullscreenApplied && untagged && !outputsEmpty then (false, [])
  else if w.fullscreen = w.fullscreenApplied then (w.fullscreenApplied, [])
  else if w.fullscreen then
    match target with
    | some output => (true, [.fullscreen w.proxy output])
    | none => (false, [])
  else (false, [.exitFullscreen w.proxy])

namespace Window

/-- The window has the same fullscreen states, and no request is about fullscreen. -/
def KeepsFullscreen (w : Window) (p : Window × List Request) : Prop :=
  p.1.fullscreen = w.fullscreen ∧ p.1.fullscreenApplied = w.fullscreenApplied ∧
    p.1.proxy = w.proxy ∧ p.2.filter Request.OfFullscreen = []

theorem keepsFullscreen_setCaps (w : Window) : w.KeepsFullscreen w.setCaps := by
  unfold KeepsFullscreen setCaps
  split_ifs <;> simp [Request.OfFullscreen]

theorem keepsFullscreen_setDecorations (useSsd : Bool) (w : Window) :
    w.KeepsFullscreen (w.setDecorations useSsd) := by
  unfold KeepsFullscreen setDecorations
  split_ifs <;> simp [Request.OfFullscreen]

theorem filter_dropLostFullscreen (untagged outputsEmpty : Bool) (w : Window) :
    (w.dropLostFullscreen untagged outputsEmpty).2.filter Request.OfFullscreen = [] := by
  unfold dropLostFullscreen
  split_ifs <;> simp [Request.OfFullscreen]

/-- Once lost fullscreen is dropped, the step is the synchronisation. -/
theorem syncFullscreen_eq (target : Option ObjectId) (outputsEmpty : Bool) (w : Window) :
    ((w.syncFullscreen target).1.fullscreenApplied,
      (w.syncFullscreen target).2.filter Request.OfFullscreen) =
        w.fullscreenStep target false outputsEmpty := by
  unfold syncFullscreen fullscreenStep
  rw [if_neg (by simp : ¬(w.fullscreenApplied && false && !outputsEmpty) = true)]
  by_cases heq : w.fullscreen = w.fullscreenApplied
  · simp [heq]
  rw [if_pos heq, if_neg heq]
  cases hf : w.fullscreen with
  | false => rfl
  | true =>
    cases target with
    | some output => rfl
    | none =>
      have ha : w.fullscreenApplied = false := by simpa [hf] using heq
      simp [ha]

/-- Capabilities and decorations come in between. -/
theorem syncFullscreen_setDecorations_setCaps (useSsd : Bool) (target : Option ObjectId)
    (outputsEmpty : Bool) (w : Window) :
    (((w.setCaps.1.setDecorations useSsd).1.syncFullscreen target).1.fullscreenApplied,
      (w.setCaps.2 ++ (w.setCaps.1.setDecorations useSsd).2 ++
        ((w.setCaps.1.setDecorations useSsd).1.syncFullscreen target).2).filter
          Request.OfFullscreen) = w.fullscreenStep target false outputsEmpty := by
  obtain ⟨c₁, c₂, c₃, c₄⟩ := w.keepsFullscreen_setCaps
  obtain ⟨e₁, e₂, e₃, e₄⟩ := w.setCaps.1.keepsFullscreen_setDecorations useSsd
  rw [List.filter_append, List.filter_append, c₄, e₄, List.nil_append, List.nil_append,
    syncFullscreen_eq target outputsEmpty]
  unfold fullscreenStep
  rw [e₁, e₂, e₃, c₁, c₂, c₃]

/-- The rest of the block touches neither. -/
theorem manage_fullscreen (useSsd : Bool) (target : Option ObjectId)
    (untagged outputsEmpty : Bool) (w : Window) :
    ((w.manage useSsd target untagged outputsEmpty).1.fullscreenApplied,
      (w.manage useSsd target untagged outputsEmpty).2.filter Request.OfFullscreen) =
        w.fullscreenStep target untagged outputsEmpty := by
  have hmanage : ((w.manage useSsd target untagged outputsEmpty).1.fullscreenApplied,
      (w.manage useSsd target untagged outputsEmpty).2.filter Request.OfFullscreen) =
        (w.dropLostFullscreen untagged outputsEmpty).1.fullscreenStep target false
          outputsEmpty := by
    rw [← syncFullscreen_setDecorations_setCaps useSsd]
    unfold manage
    dsimp only
    rw [List.append_assoc, List.append_assoc, List.filter_append, filter_dropLostFullscreen,
      List.nil_append, List.append_assoc]
  rw [hmanage]
  unfold dropLostFullscreen fullscreenStep
  split_ifs <;> simp_all

end Window

/-- The requests are about the window itself. -/
theorem Window.foldl_fullscreenStep_of_ne {target : Option ObjectId} {untagged outputsEmpty : Bool}
    {w : Window} {x : ObjectId} (h : w.proxy ≠ x) (m : Option ObjectId × Option ObjectId) :
    (w.fullscreenStep target untagged outputsEmpty).2.foldl (River.setModes x) m = m := by
  unfold fullscreenStep
  split_ifs
  · rfl
  · rfl
  · cases target with
    | none => rfl
    | some output => simp [River.setModes, h]
  · simp [River.setModes, h]

namespace State

variable {s : State} {w : Window} {x : ObjectId} {m : Option ObjectId × Option ObjectId}

/-- The fullscreen half of the block for one window. -/
def fullscreenStep (s : State) (w : Window) : Bool × List Request :=
  w.fullscreenStep (s.fullscreenTarget w) (s.tagOwner w.tag).isNone s.outputs.isEmpty

theorem foldl_manageWindow (s : State) (config : Config) (w : Window) (x : ObjectId)
    (m : Option ObjectId × Option ObjectId) :
    (s.manageWindow config w).2.foldl (River.setModes x) m =
      (s.fullscreenStep w).2.foldl (River.setModes x) m := by
  have hmanage := w.manage_fullscreen config.useSsd (s.fullscreenTarget w) (s.tagOwner w.tag).isNone
    s.outputs.isEmpty
  rw [River.foldl_setModes_filter]
  exact congrArg (fun p : Bool × List Request => p.2.foldl (River.setModes x) m) hmanage

theorem foldl_manage_of_not_mem (config : Config) : ∀ {ws : List Window}
    {m : Option ObjectId × Option ObjectId}, x ∉ ws.map (·.proxy) →
    (ws.flatMap fun w => (s.manageWindow config w).2).foldl (River.setModes x) m = m
  | [], _, _ => rfl
  | w :: ws, m, h => by
    rw [List.map_cons, List.mem_cons, not_or] at h
    rw [List.flatMap_cons, List.foldl_append, foldl_manageWindow, fullscreenStep,
      Window.foldl_fullscreenStep_of_ne (Ne.symm h.1), foldl_manage_of_not_mem config h.2]

/-- With different objects, every window is treated on its own. -/
theorem foldl_manage_of_mem (config : Config) : ∀ {ws : List Window}
    {m : Option ObjectId × Option ObjectId}, (ws.map (·.proxy)).Nodup → w ∈ ws →
    (ws.flatMap fun w => (s.manageWindow config w).2).foldl (River.setModes w.proxy) m =
      (s.fullscreenStep w).2.foldl (River.setModes w.proxy) m
  | [], _, _, h => by simp at h
  | u :: ws, m, hnodup, h => by
    rw [List.map_cons, List.nodup_cons] at hnodup
    rw [List.flatMap_cons, List.foldl_append, foldl_manageWindow]
    rcases List.mem_cons.mp h with rfl | h
    · rw [foldl_manage_of_not_mem config hnodup.1]
    · have hne : u.proxy ≠ w.proxy := fun heq => hnodup.1 (heq ▸ List.mem_map_of_mem h)
      rw [fullscreenStep, Window.foldl_fullscreenStep_of_ne hne,
        foldl_manage_of_mem config hnodup.2 h]

end State

/-! ## One window in a manage sequence -/

/-- River holds the window fullscreen where it was last asked to, if it is fullscreen and
that output still exists, and then the window is on an owned tag. -/
structure Mirrored (v : River) (s : State) (w : Window) : Prop where
  off : w.fullscreenApplied = false → v.held w.proxy = none
  on : w.fullscreenApplied = true → v.held w.proxy = (v.asked w.proxy).filter v.outputs.contains
  owned : v.held w.proxy ≠ none → s.tagOwner w.tag ≠ none

/-- The window counts as fullscreen iff river holds it fullscreen, and then on the output
that owns its tag. -/
def Matches (held : Option ObjectId) (s : State) (w : Window) (applied : Bool) : Prop :=
  (applied = true ↔ held ≠ none) ∧ ∀ output, held = some output → s.ownerProxy w.tag = some output

/-- A fullscreen window is on an owned tag if it is about to be made fullscreen, and on
one of the output it was made fullscreen on if it stays so. -/
def InPlace (asked : Option ObjectId) (s : State) (w : Window) : Prop :=
  w.fullscreen = true → (w.fullscreenApplied = false → s.tagOwner w.tag ≠ none) ∧
    (w.fullscreenApplied = true → s.tagOwner w.tag ≠ none → asked = s.ownerProxy w.tag)

namespace State

variable {s : State} {w : Window} {v : River}

theorem fullscreenTarget_of_owned (h : s.tagOwner w.tag ≠ none) :
    s.fullscreenTarget w = s.ownerProxy w.tag := by
  obtain ⟨i, hi⟩ := Option.ne_none_iff_exists'.mp h
  rw [fullscreenTarget, windowOutput, hi, ownerProxy_eq hi]
  rfl

theorem exists_ownerProxy (hs : s.WellFormed) (h : s.tagOwner w.tag ≠ none) :
    ∃ output, s.ownerProxy w.tag = some output ∧ output ∈ s.outputProxies := by
  obtain ⟨i, hi⟩ := Option.ne_none_iff_exists'.mp h
  have hlt := hs.owner _ _ hi
  have hproxy : s.outputProxy i = some s.outputs[i].proxy := by
    rw [outputProxy, List.getElem?_eq_getElem hlt]
    rfl
  exact ⟨_, (ownerProxy_eq hi).trans hproxy, List.mem_map_of_mem (List.getElem_mem hlt)⟩

/-- With an output present there is one to make a window fullscreen on. -/
theorem exists_fullscreenTarget (hs : s.WellFormed) (hne : s.outputs ≠ []) :
    ∃ output, s.fullscreenTarget w = some output ∧ output ∈ s.outputProxies := by
  by_cases hown : s.tagOwner w.tag = none
  · obtain ⟨i, hi⟩ := Option.ne_none_iff_exists'.mp (mt hs.activeOutput_eq_none.mp hne)
    have hlt := hs.activeOutput_lt hi
    refine ⟨s.outputs[i].proxy, ?_, List.mem_map_of_mem (List.getElem_mem hlt)⟩
    rw [fullscreenTarget, windowOutput, hown, Option.none_or, hi, Option.bind_some, outputProxy,
      List.getElem?_eq_getElem hlt]
    rfl
  · rw [fullscreenTarget_of_owned hown]
    exact exists_ownerProxy hs hown

theorem fullscreenStep_lost (hne : s.outputs ≠ []) (hown : s.tagOwner w.tag = none)
    (ha : w.fullscreenApplied = true) : s.fullscreenStep w = (false, []) := by
  simp [fullscreenStep, Window.fullscreenStep, hown, ha, hne]

theorem fullscreenStep_of_eq (hown : s.tagOwner w.tag ≠ none ∨ w.fullscreenApplied = false)
    (heq : w.fullscreen = w.fullscreenApplied) :
    s.fullscreenStep w = (w.fullscreenApplied, []) := by
  have hlost :
      (w.fullscreenApplied && (s.tagOwner w.tag).isNone && !s.outputs.isEmpty) = false := by
    rcases hown with hown | ha
    · simp [Option.isNone_eq_false_iff.mpr (Option.isSome_iff_ne_none.mpr hown)]
    · simp [ha]
  unfold fullscreenStep Window.fullscreenStep
  rw [hlost, if_neg (by simp), if_pos heq]

theorem fullscreenStep_enter {output : ObjectId} (ha : w.fullscreenApplied = false)
    (hf : w.fullscreen = true) (htarget : s.fullscreenTarget w = some output) :
    s.fullscreenStep w = (true, [.fullscreen w.proxy output]) := by
  simp [fullscreenStep, Window.fullscreenStep, ha, hf, htarget]

theorem fullscreenStep_exit (hown : s.tagOwner w.tag ≠ none ∨ s.outputs = [])
    (ha : w.fullscreenApplied = true) (hf : w.fullscreen = false) :
    s.fullscreenStep w = (false, [.exitFullscreen w.proxy]) := by
  have hlost :
      (w.fullscreenApplied && (s.tagOwner w.tag).isNone && !s.outputs.isEmpty) = false := by
    rcases hown with hown | hnil
    · simp [Option.isNone_eq_false_iff.mpr (Option.isSome_iff_ne_none.mpr hown)]
    · simp [hnil]
  unfold fullscreenStep Window.fullscreenStep
  rw [hlost, if_neg (by simp), if_neg (by simp [hf, ha]), hf, if_neg (by simp)]

/-- The window is on a tag without an owner. -/
theorem matches_fullscreenStep_iff_unowned (hs : s.WellFormed) (hne : s.outputs ≠ [])
    (h : Mirrored v s w) (hown : s.tagOwner w.tag = none) :
    Matches ((s.fullscreenStep w).2.foldl (River.setModes w.proxy) (v.modes w.proxy)).1 s w
      (s.fullscreenStep w).1 ↔ InPlace (v.asked w.proxy) s w := by
  have hheld : v.held w.proxy = none := by
    by_contra hheld
    exact h.owned hheld hown
  have howner : s.ownerProxy w.tag = none := by
    rw [ownerProxy, hown]
    rfl
  cases ha : w.fullscreenApplied with
  | true =>
    rw [fullscreenStep_lost hne hown ha]
    refine iff_of_true ?_ fun _ => ⟨fun h => by simp [ha] at h, fun _ h => absurd hown h⟩
    simp [Matches, River.modes, hheld]
  | false =>
    cases hf : w.fullscreen with
    | true =>
      obtain ⟨output, htarget, -⟩ := exists_fullscreenTarget (w := w) hs hne
      rw [fullscreenStep_enter ha hf htarget]
      refine iff_of_false (fun hm => ?_) fun hin => (hin hf).1 ha hown
      have hout := hm.2 output (by simp [River.setModes])
      simp [howner] at hout
    | false =>
      rw [fullscreenStep_of_eq (Or.inr ha) (hf.trans ha.symm), ha]
      refine iff_of_true ?_ fun h => by simp [hf] at h
      simp [Matches, River.modes, hheld]

/-- The window is fullscreen, and was when its tag got the owner it has. -/
theorem matches_fullscreenStep_iff_applied (hs : s.WellFormed) (hv : s.outputProxies = v.outputs)
    (h : Mirrored v s w) (hown : s.tagOwner w.tag ≠ none) (hf : w.fullscreen = true)
    (ha : w.fullscreenApplied = true) :
    Matches ((s.fullscreenStep w).2.foldl (River.setModes w.proxy) (v.modes w.proxy)).1 s w
      (s.fullscreenStep w).1 ↔ InPlace (v.asked w.proxy) s w := by
  obtain ⟨output, howner, hmem⟩ := exists_ownerProxy hs hown
  rw [fullscreenStep_of_eq (Or.inl hown) (hf.trans ha.symm), ha]
  have hlive : v.outputs.contains output = true := by
    rw [← hv]
    exact List.contains_iff_mem.mpr hmem
  simp only [Matches, InPlace, List.foldl_nil, River.modes, h.on ha, howner, true_iff]
  constructor
  · rintro ⟨hsome, hout⟩
    obtain ⟨o, ho⟩ := Option.ne_none_iff_exists'.mp hsome
    obtain rfl := Option.some.inj (hout o ho)
    exact fun _ =>
      ⟨fun h => by simp [ha] at h, fun _ _ => (Option.filter_eq_some_iff.mp ho).1⟩
  · intro hin
    have hasked := (hin hf).2 ha hown
    rw [hasked, Option.filter_some, if_pos hlive]
    exact ⟨by simp, fun o ho => ho⟩

/-- The block keeps river and the window manager in step iff the window is in place. -/
theorem matches_fullscreenStep_iff (hs : s.WellFormed) (hne : s.outputs ≠ [])
    (hv : s.outputProxies = v.outputs) (h : Mirrored v s w) :
    Matches ((s.fullscreenStep w).2.foldl (River.setModes w.proxy) (v.modes w.proxy)).1 s w
      (s.fullscreenStep w).1 ↔ InPlace (v.asked w.proxy) s w := by
  by_cases hown : s.tagOwner w.tag = none
  · exact matches_fullscreenStep_iff_unowned hs hne h hown
  cases ha : w.fullscreenApplied with
  | true =>
    cases hf : w.fullscreen with
    | true => exact matches_fullscreenStep_iff_applied hs hv h hown hf ha
    | false =>
      rw [fullscreenStep_exit (Or.inl hown) ha hf]
      refine iff_of_true ?_ fun h => by simp [hf] at h
      simp [Matches, River.setModes]
  | false =>
    cases hf : w.fullscreen with
    | true =>
      obtain ⟨output, howner, -⟩ := exists_ownerProxy hs hown
      rw [fullscreenStep_enter ha hf ((fullscreenTarget_of_owned hown).trans howner)]
      refine iff_of_true ?_ fun _ => ⟨fun _ => hown, fun h => by simp [ha] at h⟩
      simp [Matches, River.setModes, howner]
    | false =>
      rw [fullscreenStep_of_eq (Or.inr ha) (hf.trans ha.symm), ha]
      refine iff_of_true ?_ fun h => by simp [hf] at h
      simp [Matches, River.modes, h.off ha]

/-- Whether or not it is, river holds the window where it was last asked to. -/
theorem mirrored_fullscreenStep (hv : s.outputProxies = v.outputs)
    (h : Mirrored v s w) {m : Option ObjectId × Option ObjectId}
    (hm : (s.fullscreenStep w).2.foldl (River.setModes w.proxy) (v.modes w.proxy) = m) :
    ((s.fullscreenStep w).1 = false → m.1 = none) ∧
      ((s.fullscreenStep w).1 = true → m.1 = m.2.filter v.outputs.contains) ∧
      ∀ output, m.2 = some output → output ∈ v.outputs ∨ v.asked w.proxy = some output := by
  subst hm
  cases ha : w.fullscreenApplied with
  | true =>
    by_cases hlost : s.tagOwner w.tag = none ∧ s.outputs ≠ []
    · rw [fullscreenStep_lost hlost.2 hlost.1 ha]
      have hheld : v.held w.proxy = none := by
        by_contra hheld
        exact h.owned hheld hlost.1
      exact ⟨fun _ => hheld, fun h => by simp at h, fun o ho => Or.inr ho⟩
    · have hown : s.tagOwner w.tag ≠ none ∨ s.outputs = [] := by
        by_cases hown : s.tagOwner w.tag = none
        · exact Or.inr (by_contra fun hne => hlost ⟨hown, hne⟩)
        · exact Or.inl hown
      cases hf : w.fullscreen with
      | true =>
        have hstep : s.fullscreenStep w = (true, []) := by
          rcases hown with hown | hnil
          · rw [fullscreenStep_of_eq (Or.inl hown) (hf.trans ha.symm), ha]
          · simp [fullscreenStep, Window.fullscreenStep, ha, hf, hnil]
        rw [hstep]
        exact ⟨fun h => by simp at h, fun _ => h.on ha, fun o ho => Or.inr ho⟩
      | false =>
        rw [fullscreenStep_exit hown ha hf]
        exact ⟨fun _ => by simp [River.setModes], fun h => by simp at h,
          fun o ho => Or.inr (by simpa [River.setModes, River.modes] using ho)⟩
  | false =>
    cases hf : w.fullscreen with
    | true =>
      cases htarget : s.fullscreenTarget w with
      | none =>
        have hstep : s.fullscreenStep w = (false, []) := by
          simp [fullscreenStep, Window.fullscreenStep, ha, hf, htarget]
        rw [hstep]
        exact ⟨fun _ => h.off ha, fun h => by simp at h, fun o ho => Or.inr ho⟩
      | some output =>
        have hmem : output ∈ v.outputs := by
          obtain ⟨i, -, hi⟩ := Option.bind_eq_some_iff.mp htarget
          rw [← hv]
          exact List.mem_of_getElem? ((s.getElem?_outputProxies i).trans hi)
        rw [fullscreenStep_enter ha hf htarget]
        refine ⟨fun h => by simp at h, fun _ => ?_, fun o ho => Or.inl ?_⟩
        · simp [River.setModes, Option.filter_some, hmem]
        · simp only [List.foldl_cons, List.foldl_nil, River.setModes, if_true,
            Option.some.injEq] at ho
          exact ho ▸ hmem
    | false =>
      rw [fullscreenStep_of_eq (Or.inr ha) (hf.trans ha.symm), ha]
      exact ⟨fun _ => h.off ha, fun h => by simp at h, fun o ho => Or.inr ho⟩

theorem fullscreenStep_refocused (s : State) (w : Window) :
    s.refocused.fullscreenStep w = s.fullscreenStep w := by
  have hsame := same_refocused s
  have hempty : s.refocused.outputs.isEmpty = s.outputs.isEmpty := by
    rw [Bool.eq_iff_iff, List.isEmpty_iff_length_eq_zero, List.isEmpty_iff_length_eq_zero,
      hsame.length]
  have hactive : s.refocused.activeOutput = s.activeOutput := by
    rw [activeOutput, hempty]
    rfl
  have htarget : s.refocused.fullscreenTarget w = s.fullscreenTarget w := by
    rw [fullscreenTarget, windowOutput, hactive, funext hsame.proxy]
    rfl
  rw [fullscreenStep, htarget, hempty]
  rfl

end State

end Streamwm
