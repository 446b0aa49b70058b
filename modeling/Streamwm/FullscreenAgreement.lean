import Streamwm.FullscreenBlock

/-!
# Fullscreen states and the compositor

Whether a window is fullscreen is kept three times : the desired flag, the applied flag
and river's own state (`River.held`). A manage sequence compares the first two only.
Removing an output clears river's state and hands the tags to another output, and a
fullscreen window can be sent to another tag; neither shows in the flags, so the window
manager and river stop agreeing.

`fullscreen_agrees_iff` : over every run they agree after all manage sequences with an
output present (`Session.FullscreenAgrees`) iff every manage sequence finds the
fullscreen windows in place (`InPlace`). Between manage sequences river holds a window
where it was last asked to, as long as that output exists (`Session.Mirrors`).
-/

namespace Streamwm

open Partial Transition

namespace Session

variable {p p' : Session} {event : Event}

/-- What holds of both sides while no manage sequence has left a window out of place. -/
structure Mirrors (p : Session) : Prop where
  wellFormed : p.data.state.WellFormed
  outputs : p.data.state.outputProxies = p.river.outputs
  outputsNodup : p.river.outputs.Nodup
  windowsNodup : (p.data.state.windows.map (·.proxy)).Nodup
  usedOutputs : ∀ output ∈ p.river.outputs, output ∈ p.river.used
  usedWindows : ∀ w ∈ p.data.state.windows, w.proxy ∈ p.river.used
  usedHeld : ∀ x, p.river.held x ≠ none → x ∈ p.river.used
  usedAsked : ∀ x output, p.river.asked x = some output → output ∈ p.river.used
  windows : ∀ w ∈ p.data.state.windows, Mirrored p.river p.data.state w

theorem mirrors_new (config : Config) (xkb layerShell cursorShapeManager : Bool) :
    (Session.new config xkb layerShell cursorShapeManager).Mirrors where
  wellFormed := State.wellFormed_new _
  outputs := rfl
  outputsNodup := List.nodup_nil
  windowsNodup := List.nodup_nil
  usedOutputs _ h := by simp [Session.new, River.new] at h
  usedWindows _ h := by simp [Session.new, AppData.new, State.new] at h
  usedHeld _ h := by simp [Session.new, River.new] at h
  usedAsked _ _ h := by simp [Session.new, River.new] at h
  windows _ h := by simp [Session.new, AppData.new, State.new] at h

/-- River after a step that sends no request about fullscreen states. -/
theorem Step.modes {rs : List Request} (h : Step p event p')
    (hrs : p'.data.sent = p.data.sent ++ rs)
    (hm : ∀ r ∈ rs, r.Modal = false) : p'.river.used = (p.river.observe event).used ∧
      p'.river.outputs = (p.river.observe event).outputs ∧
        ∀ x, p'.river.modes x = (p.river.observe event).modes x := by
  rw [h.river hrs]
  obtain ⟨-, houtputs, hused⟩ := River.requests_seats rs (p.river.observe event)
  exact ⟨hused, houtputs,
    River.modes_requests_of_not fun r hr => (Bool.or_eq_false_iff.mp (hm r hr)).1⟩

/-- A step that makes no window fullscreen. -/
theorem Mirrors.extend (hp : p.Mirrors) (h : AppData.Step p.data event p'.data)
    (hout : p'.data.state.outputProxies = p'.river.outputs) (hnodup : p'.river.outputs.Nodup)
    (hwindows : (p'.data.state.windows.map (·.proxy)).Nodup)
    (hused : ∀ x ∈ p.river.used, x ∈ p'.river.used)
    (hlive : ∀ output ∈ p'.river.outputs, output ∈ p'.river.used)
    (hheld : ∀ x, p'.river.held x ≠ none → p.river.held x ≠ none)
    (hasked : p'.river.asked = p.river.asked)
    (hw : ∀ w ∈ p'.data.state.windows, w.proxy ∈ p'.river.used ∧
      Mirrored p'.river p'.data.state w) : p'.Mirrors where
  wellFormed := (AppData.Step.wellFormed hp.wellFormed h).1
  outputs := hout
  outputsNodup := hnodup
  windowsNodup := hwindows
  usedOutputs := hlive
  usedWindows w hmem := (hw w hmem).1
  usedHeld x hx := hused x (hp.usedHeld x (hheld x hx))
  usedAsked x o ho := hused o (hp.usedAsked x o (hasked ▸ ho))
  windows w hmem := (hw w hmem).2

/-- A step of the window manager that keeps windows and outputs and asks for nothing. -/
theorem Mirrors.of_keeps {rs : List Request} (hp : p.Mirrors) (h : Step p event p')
    (hrs : p'.data.sent = p.data.sent ++ rs) (hm : ∀ r ∈ rs, r.Modal = false)
    (hkeep : p.data.state.Keeps p'.data.state)
    (hout : p'.data.state.outputProxies = p.data.state.outputProxies)
    (hused : (p.river.observe event).used = p.river.used)
    (houtputs : (p.river.observe event).outputs = p.river.outputs)
    (hmodes : ∀ x, (p.river.observe event).modes x = p.river.modes x) : p'.Mirrors := by
  obtain ⟨hused', houtputs', hmodes'⟩ := h.modes hrs hm
  rw [hused] at hused'
  rw [houtputs] at houtputs'
  have hheld : p'.river.held = p.river.held :=
    funext fun x => congrArg Prod.fst ((hmodes' x).trans (hmodes x))
  have hasked : p'.river.asked = p.river.asked :=
    funext fun x => congrArg Prod.snd ((hmodes' x).trans (hmodes x))
  refine hp.extend (step_iff.mp h).2.1 (by rw [hout, hp.outputs, houtputs'])
    (houtputs' ▸ hp.outputsNodup) (hp.windowsNodup.sublist hkeep.proxies)
    (fun x hx => hused' ▸ hx) (by rw [houtputs', hused']; exact hp.usedOutputs)
    (fun x hx => hheld ▸ hx) hasked fun w' hw' => ?_
  obtain ⟨w, hw, hproxy, happlied, hown⟩ := hkeep.windows w' hw'
  obtain ⟨hoff, hon, howned⟩ := hp.windows w hw
  refine ⟨by rw [hproxy, hused']; exact hp.usedWindows w hw, ?_, ?_, ?_⟩
  · rw [happlied, hproxy, hheld]
    exact hoff
  · rw [happlied, hproxy, hheld, hasked, houtputs']
    exact hon
  · rw [hproxy, hheld]
    exact fun h => hown (howned h)

theorem Mirrors.newWindow {window : ObjectId} (hp : p.Mirrors) (h : Step p (.newWindow window) p') :
    p'.Mirrors := by
  obtain ⟨hsends, hhandle, -⟩ := step_iff.mp h
  obtain ⟨hapart, hstate⟩ := AppData.apart_newWindow (d := p.data) window
  obtain hdata : p.data.newWindow window = p'.data := Option.some.inj hhandle
  rw [hdata] at hapart hstate
  obtain ⟨rs, hrs, hm⟩ := hapart.sent
  obtain ⟨hused, houtputs, hmodes⟩ := h.modes hrs hm
  have hheld : p'.river.held = p.river.held := funext fun x => congrArg Prod.fst (hmodes x)
  have hasked : p'.river.asked = p.river.asked := funext fun x => congrArg Prod.snd (hmodes x)
  replace hused : p'.river.used = window :: p.river.used := hused
  replace houtputs : p'.river.outputs = p.river.outputs := houtputs
  have hnew : window ∉ p.river.used := by simpa [River.sends] using hsends
  have hstill := State.still_createWindow (s := p.data.state) window
  refine hp.extend hhandle ?_ (houtputs ▸ hp.outputsNodup) ?_
    (fun x hx => hused ▸ List.mem_cons_of_mem _ hx) (fun o ho => ?_) (fun x hx => hheld ▸ hx) hasked
    fun w hw => ?_
  · rw [hstate, State.outputProxies_of_proxy hstill.proxy, hp.outputs, houtputs]
  · rw [hstate]
    change (List.map _ (p.data.state.windows ++ [_])).Nodup
    rw [List.map_append, List.nodup_append]
    refine ⟨hp.windowsNodup, by simp, fun a ha b hb heq => hnew ?_⟩
    obtain ⟨w, hw, rfl⟩ := List.mem_map.mp ha
    rw [List.map_singleton, List.mem_singleton] at hb
    rw [show window = w.proxy from (heq.trans hb).symm]
    exact hp.usedWindows w hw
  · rw [houtputs] at ho
    rw [hused]
    exact List.mem_cons_of_mem _ (hp.usedOutputs o ho)
  · rw [hstate] at hw
    rcases List.mem_append.mp hw with hw | hw
    · obtain ⟨hoff, hon, hown⟩ := hp.windows w hw
      refine ⟨hused ▸ List.mem_cons_of_mem _ (hp.usedWindows w hw), ?_, ?_, ?_⟩
      · rw [hheld]
        exact hoff
      · rw [hheld, hasked, houtputs]
        exact hon
      · rw [hheld, hstate, hstill.owner]
        exact hown
    · have hfree : p.river.held window = none := by
        by_contra hheld'
        exact hnew (hp.usedHeld window hheld')
      rw [List.mem_singleton.mp hw]
      exact ⟨hused ▸ List.mem_cons_self, fun _ => hheld ▸ hfree,
        fun hon => by simp [Window.new] at hon,
        fun hne => absurd (hheld ▸ hfree) hne⟩

theorem Mirrors.newOutput {output : ObjectId} (hp : p.Mirrors) (h : Step p (.newOutput output) p') :
    p'.Mirrors := by
  obtain ⟨hsends, hhandle, -⟩ := step_iff.mp h
  obtain ⟨d', s, hd', hadd, hapart, hlocal, -⟩ := AppData.apart_newOutput hp.wellFormed output
  obtain rfl : d' = p'.data := Option.some.inj (hd'.symm.trans hhandle)
  obtain ⟨rs, hrs, hm⟩ := hapart.sent
  obtain ⟨hused, houtputs, hmodes⟩ := h.modes hrs hm
  have hheld : p'.river.held = p.river.held := funext fun x => congrArg Prod.fst (hmodes x)
  have hasked : p'.river.asked = p.river.asked := funext fun x => congrArg Prod.snd (hmodes x)
  replace hused : p'.river.used = output :: p.river.used := hused
  replace houtputs : p'.river.outputs = p.river.outputs ++ [output] := houtputs
  have hnew : output ∉ p.river.used := by simpa [River.sends] using hsends
  have hstep : Op.Step p.data.state (.addOutput output) s := hadd
  have hc := State.change_of_step hp.wellFormed hstep
  obtain ⟨hkeep₁, hout₁⟩ := State.keeps_of_reachable (hc.wellFormed hp.wellFormed) hlocal
  have hkeep := (hc.keeps (by simp) (by simp) (by simp) (by simp)).trans hkeep₁
  refine hp.extend hhandle (by rw [hout₁, hc.outputProxies_add, hp.outputs, houtputs]) ?_
    (hp.windowsNodup.sublist hkeep.proxies) (fun x hx => hused ▸ List.mem_cons_of_mem _ hx)
    (fun o ho => ?_) (fun x hx => hheld ▸ hx) hasked fun w' hw' => ?_
  · rw [houtputs, List.nodup_append]
    refine ⟨hp.outputsNodup, by simp, fun a ha b hb heq => hnew ?_⟩
    rw [← List.mem_singleton.mp hb, ← heq]
    exact hp.usedOutputs a ha
  · rw [houtputs] at ho
    rw [hused]
    rcases List.mem_append.mp ho with ho | ho
    · exact List.mem_cons_of_mem _ (hp.usedOutputs o ho)
    · rw [List.mem_singleton.mp ho]
      exact List.mem_cons_self
  · obtain ⟨w, hw, hproxy, happlied, hown⟩ := hkeep.windows w' hw'
    obtain ⟨hoff, hon, howned⟩ := hp.windows w hw
    refine ⟨?_, ?_, fun ha => ?_, ?_⟩
    · rw [hproxy, hused]
      exact List.mem_cons_of_mem _ (hp.usedWindows w hw)
    · rw [happlied, hproxy, hheld]
      exact hoff
    · rw [happlied] at ha
      rw [hproxy, hheld, hasked, hon ha]
      -- the output asked for was announced before the new one
      cases ho : p.river.asked w.proxy with
      | none => rfl
      | some o =>
        have hne : o ≠ output := fun heq => hnew (heq ▸ hp.usedAsked w.proxy o ho)
        simp [Option.filter_some, houtputs, hne]
    · rw [hproxy, hheld]
      exact fun h => hown (howned h)

/-- What the window manager does when an output goes : unless it was the last, its tags go to
another. -/
structure Unplugged (output : ObjectId) (d d' : AppData) : Prop where
  sent : ∃ rs, d'.sent = d.sent ++ rs ∧ ∀ r ∈ rs, r.Modal = false
  outputs : d'.state.outputProxies = d.state.outputProxies.filter (· != output)
  proxies : (d'.state.windows.map (·.proxy)).Sublist (d.state.windows.map (·.proxy))
  windows : ∀ w' ∈ d'.state.windows, ∃ w ∈ d.state.windows, w'.proxy = w.proxy ∧
    w'.fullscreenApplied = w.fullscreenApplied ∧
      ((∃ o ∈ d.state.outputProxies, o ≠ output) → d.state.tagOwner w.tag ≠ none →
        d'.state.tagOwner w'.tag ≠ none)

/-- An output the window manager does not know. -/
theorem unplugged_of_unknown {output : ObjectId} {d : AppData}
    (hidx : d.state.findOutputByProxy output = none) : Unplugged output d d where
  sent := ⟨[], by simp, by simp⟩
  outputs := by
    refine (List.filter_eq_self.mpr fun o ho => ?_).symm
    rw [bne_iff_ne]
    rintro rfl
    obtain ⟨out, hout, rfl⟩ := List.mem_map.mp ho
    simpa using List.findIdx?_eq_none_iff.mp hidx out hout
  proxies := List.Sublist.refl _
  windows w hw := ⟨w, hw, rfl, rfl, fun _ h => h⟩

theorem unplugged_of_known {output : ObjectId} {d d' : AppData} {idx : ℕ}
    (hs : d.state.WellFormed) (hnodup : d.state.outputProxies.Nodup)
    (hidx : d.state.findOutputByProxy output = some idx)
    (h : d.outputEvent output .removed = some d') : Unplugged output d d' := by
  obtain ⟨hlt, hfound, -⟩ := List.findIdx?_eq_some_iff_getElem.mp hidx
  obtain ⟨d₁, hd₁, hapart, hremove, -⟩ := AppData.apart_outputRemoved hs idx d.state.outputs[idx]
  obtain rfl : d₁ = d' := by
    have heq : d.outputEvent output .removed = some d₁ := by
      simp [AppData.outputEvent, hidx, hlt, hd₁]
    exact Option.some.inj (heq.symm.trans h)
  obtain ⟨s', hs', hrem⟩ := State.exists_removal hs hlt
  obtain rfl := Option.some.inj (hs'.symm.trans hremove)
  have hstep : Op.Step d.state (.removeOutput idx) d₁.state := hremove
  have hc := State.change_of_step hs hstep
  have hfollows := hc.follows (by simp) (by simp) (by simp)
  have hself : d.state.outputs[idx].proxy = output := by simpa using hfound
  refine ⟨hapart.sent, ?_, by rw [map_eq_of_forall₂ (fun _ _ h => h.proxy) hfollows],
    fun w' hw' => ?_⟩
  · have hlen : idx < d.state.outputProxies.length := by simpa [State.outputProxies] using hlt
    have hget : d.state.outputProxies[idx] = output := by simpa [State.outputProxies] using hself
    rw [hrem.outputProxies, ← hnodup.erase_getElem idx hlen, hget, hnodup.erase_eq_filter]
  · obtain ⟨w, hw, hf⟩ := exists_of_forall₂ hfollows hw'
    refine ⟨w, hw, hf.proxy, hf.applied, fun hother hown => ?_⟩
    obtain ⟨o, ho, hne⟩ := hother
    rcases hf.tag with htag | htag
    · rw [htag]
      refine hc.owned (fun i _ _ => ?_) hown
      -- another output means the one that goes is not the last
      obtain ⟨out, hout, rfl⟩ := List.mem_map.mp ho
      obtain ⟨j, hj, rfl⟩ := List.getElem_of_mem hout
      by_contra hle
      obtain rfl : j = idx := by omega
      exact hne hself
    · exact htag

theorem unplugged {output : ObjectId} {d d' : AppData} (hs : d.state.WellFormed)
    (hnodup : d.state.outputProxies.Nodup) (h : d.outputEvent output .removed = some d') :
    Unplugged output d d' := by
  cases hidx : d.state.findOutputByProxy output with
  | none =>
    have hsame : d.outputEvent output .removed = some d := by simp [AppData.outputEvent, hidx]
    exact Option.some.inj (hsame.symm.trans h) ▸ unplugged_of_unknown hidx
  | some idx => exact unplugged_of_known hs hnodup hidx h

/-- An output goes, with the fullscreen states on it. -/
theorem Mirrors.outputRemoved {output : ObjectId} (hp : p.Mirrors)
    (h : Step p (.output output .removed) p') : p'.Mirrors := by
  have hhandle := (step_iff.mp h).2.1
  obtain ⟨⟨rs, hrs, hm⟩, hout, hsub, hwindows⟩ := unplugged hp.wellFormed
    (hp.outputs ▸ hp.outputsNodup) hhandle
  rw [hp.outputs] at hout hwindows
  obtain ⟨hused, houtputs, hmodes⟩ := h.modes hrs hm
  have hheld : ∀ x, p'.river.held x = (p.river.held x).filter (· != output) := fun x =>
    congrArg Prod.fst (hmodes x)
  have hasked : p'.river.asked = p.river.asked := funext fun x => congrArg Prod.snd (hmodes x)
  replace hused : p'.river.used = p.river.used := hused
  replace houtputs : p'.river.outputs = p.river.outputs.filter (· != output) := houtputs
  refine hp.extend hhandle (hout.trans houtputs.symm) ?_ (hp.windowsNodup.sublist hsub)
    (fun x hx => hused ▸ hx) (fun o ho => ?_) (fun x hx hnone => ?_) hasked fun w' hw' => ?_
  · rw [houtputs]
    exact hp.outputsNodup.filter _
  · rw [houtputs] at ho
    rw [hused]
    exact hp.usedOutputs o (List.mem_of_mem_filter ho)
  · rw [hheld, hnone] at hx
    exact hx rfl
  · obtain ⟨w, hw, hproxy, happlied, hown⟩ := hwindows w' hw'
    obtain ⟨hoff, hon, howned⟩ := hp.windows w hw
    refine ⟨?_, fun ha => ?_, fun ha => ?_, fun hne => ?_⟩
    · rw [hproxy, hused]
      exact hp.usedWindows w hw
    · rw [happlied] at ha
      rw [hproxy, hheld, hoff ha]
      rfl
    · rw [happlied] at ha
      rw [hproxy, hheld, hasked, hon ha, houtputs, Option.filter_filter]
      congr 1
      funext o
      rw [Bool.eq_iff_iff]
      simp [and_comm]
    · rw [hproxy, hheld] at hne
      obtain ⟨o, ho⟩ := Option.ne_none_iff_exists'.mp hne
      obtain ⟨ho, hother⟩ := Option.filter_eq_some_iff.mp ho
      have ha : w.fullscreenApplied = true := by
        by_contra ha
        rw [hoff (by simpa using ha)] at ho
        cases ho
      have hlive : o ∈ p.river.outputs := by
        rw [hon ha] at ho
        exact List.contains_iff_mem.mp (Option.filter_eq_some_iff.mp ho).2
      exact hown ⟨o, hlive, by simpa using hother⟩ (howned (by simp [ho]))

/-- Every event but a manage sequence keeps the two sides mirrored. -/
theorem Mirrors.step (hp : p.Mirrors) (h : Step p event p') (hevent : event ≠ .manageStart) :
    p'.Mirrors := by
  have hhandle := (step_iff.mp h).2.1
  have hhandled : ∀ {d'}, p.data.handle event = some d' → Handled p.data d' →
      (p.river.observe event).used = p.river.used →
      (p.river.observe event).outputs = p.river.outputs →
      (∀ x, (p.river.observe event).modes x = p.river.modes x) → p'.Mirrors := by
    rintro d' hd' hd hused houtputs hmodes
    obtain rfl := Option.some.inj (hd'.symm.trans hhandle)
    obtain ⟨rs, hrs, hm⟩ := hd.sent
    obtain ⟨hkeep, hout⟩ := State.keeps_of_reachable hp.wellFormed hd.steps
    exact hp.of_keeps h hrs hm hkeep hout hused houtputs hmodes
  cases hobj : event.OfObjects with
  | false =>
    obtain ⟨d', hd', hd⟩ := AppData.handled_handle hp.wellFormed hobj
    have hsame : (p.river.observe event).used = p.river.used ∧
        (p.river.observe event).outputs = p.river.outputs ∧
          ∀ x, (p.river.observe event).modes x = p.river.modes x := by
      unfold River.observe
      split <;> first | exact ⟨rfl, rfl, fun _ => rfl⟩ | simp [Event.OfObjects] at hobj
    exact hhandled hd' hd hsame.1 hsame.2.1 hsame.2.2
  | true =>
    unfold Event.OfObjects at hobj
    split at hobj
    · exact hp.newWindow h
    · exact hp.newOutput h
    · exact absurd rfl hevent
    · next window =>
      obtain ⟨d', hd', hd | ⟨-, hapart, hstate⟩⟩ := AppData.windowEvent_spec
        (d := p.data) window .closed
      · exact hhandled hd' hd.toHandled rfl rfl fun _ => rfl
      · obtain rfl : d' = p'.data := Option.some.inj (hd'.symm.trans hhandle)
        obtain ⟨rs, hrs, hm⟩ := hapart.sent
        refine hp.of_keeps h hrs hm ?_ ?_ rfl rfl fun _ => rfl
        · rw [hstate]
          exact State.keeps_closeWindow window
        · rw [hstate]
          rfl
    · exact hp.outputRemoved h
    · simp at hobj

/-! ## Manage sequences -/

theorem setTiled_fields (w : Window) : w.setTiled.1.proxy = w.proxy ∧ w.setTiled.1.tag = w.tag ∧
    w.setTiled.1.fullscreenApplied = w.fullscreenApplied := by
  obtain ⟨t, ht, -⟩ := w.setTiled_spec
  rw [ht]
  exact ⟨rfl, rfl, rfl⟩

/-- A manage sequence runs the fullscreen block on every window and moves no tag or output. -/
theorem onManageStart_windows {d d' : AppData} (hs : d.state.WellFormed)
    (h : d.onManageStart = some d') :
    (∀ t, d'.state.tagOwner t = d.state.tagOwner t) ∧
      (∀ i, d'.state.outputProxy i = d.state.outputProxy i) ∧
      List.Forall₂ (fun w w' : Window => w'.proxy = w.proxy ∧ w'.tag = w.tag ∧
        w'.fullscreenApplied = (d.state.fullscreenStep w).1) d.state.windows d'.state.windows := by
  obtain ⟨d₁, d₂, hd₂, hd₁, -, -, hstate⟩ := AppData.onManageStart_spec hs
  obtain rfl := Option.some.inj (hd₂.symm.trans h)
  have hsame := State.same_refocused d.state
  refine ⟨fun t => ?_, fun i => ?_, ?_⟩
  · rw [hstate]
    change d₁.state.tagOwner t = _
    rw [hd₁, hsame.owner]
  · rw [hstate]
    change d₁.state.outputProxy i = _
    rw [hd₁, hsame.proxy]
  · rw [hstate]
    change List.Forall₂ _ _ ((d₁.state.windows.map _).map _)
    rw [hd₁, List.map_map, List.forall₂_map_right_iff]
    refine List.forall₂_same.mpr fun w _ => ?_
    obtain ⟨h₁, h₂, h₃⟩ := setTiled_fields (d.state.refocused.manageWindow d₁.config w).1
    have hmanaged := w.managed_manage d₁.config.useSsd
      (d.state.refocused.fullscreenTarget w) (d.state.refocused.tagOwner w.tag).isNone
      d.state.refocused.outputs.isEmpty
    have k₃ := congrArg Prod.fst (w.manage_fullscreen d₁.config.useSsd
      (d.state.refocused.fullscreenTarget w) (d.state.refocused.tagOwner w.tag).isNone
      d.state.refocused.outputs.isEmpty)
    refine ⟨h₁.trans hmanaged.proxy, h₂.trans hmanaged.tag, (h₃.trans k₃).trans ?_⟩
    exact congrArg Prod.fst (d.state.fullscreenStep_refocused w)

/-- Of its requests, those of the fullscreen blocks are all that change a fullscreen state. -/
theorem onManageStart_modes {d d' : AppData} (hs : d.state.WellFormed)
    (h : d.onManageStart = some d') : ∃ rs config, d'.sent = d.sent ++ rs ∧
      ∀ (v : River) (x : ObjectId), (v.requests rs).modes x = (d.state.windows.flatMap fun w =>
        (d.state.refocused.manageWindow config w).2).foldl (River.setModes x) (v.modes x) := by
  obtain ⟨d₁, d₂, hd₂, hd₁, hidle, hidle', -⟩ := AppData.onManageStart_spec hs
  obtain rfl := Option.some.inj (hd₂.symm.trans h)
  obtain ⟨rs₀, hrs₀, hm₀, -⟩ := (AppData.pointerPass d).sent
  obtain ⟨rs₁, hrs₁, hm₁⟩ := hidle.toHandled.sent
  obtain ⟨rs₂, hrs₂, hm₂⟩ := hidle'.toHandled.sent
  have hwindows : d₁.state.windows = d.state.windows := by
    rw [hd₁]
    rfl
  refine ⟨rs₀ ++ (rs₁ ++ ((d.state.windows.flatMap fun w =>
    (d.state.refocused.manageWindow d₁.config w).2) ++ rs₂)), d₁.config, ?_, fun v x => ?_⟩
  · rw [hrs₂, AppData.applyFullscreen, AppData.updateWindows, hrs₁, hrs₀, hwindows, hd₁,
      List.append_assoc, List.append_assoc, List.append_assoc]
  · rw [River.requests_append, River.requests_append, River.requests_append,
      River.modes_requests_of_not fun r hr => (Bool.or_eq_false_iff.mp (hm₂ r hr)).1,
      River.modes_requests, River.modes_requests_of_not fun r hr =>
        (Bool.or_eq_false_iff.mp (hm₁ r hr)).1,
      River.modes_requests_of_not hm₀]

/-- What a manage sequence does on both sides. -/
structure Managed (p p' : Session) : Prop where
  ownerProxy : ∀ t, p'.data.state.ownerProxy t = p.data.state.ownerProxy t
  tagOwner : ∀ t, p'.data.state.tagOwner t = p.data.state.tagOwner t
  outputProxies : p'.data.state.outputProxies = p.data.state.outputProxies
  used : p'.river.used = p.river.used
  outputs : p'.river.outputs = p.river.outputs
  windows : List.Forall₂ (fun w w' : Window => w'.proxy = w.proxy ∧ w'.tag = w.tag ∧
    w'.fullscreenApplied = (p.data.state.fullscreenStep w).1) p.data.state.windows
    p'.data.state.windows
  modes : ∀ w ∈ p.data.state.windows, p'.river.modes w.proxy =
    (p.data.state.fullscreenStep w).2.foldl (River.setModes w.proxy) (p.river.modes w.proxy)
  others : ∀ x, x ∉ p.data.state.windows.map (·.proxy) → p'.river.modes x = p.river.modes x

theorem Step.manage (hp : p.Mirrors) (h : Step p .manageStart p') : p.Managed p' := by
  have hhandle := (step_iff.mp h).2.1
  obtain ⟨htags, hproxy, hwindows⟩ := onManageStart_windows hp.wellFormed hhandle
  obtain ⟨rs, config, hsent, hmodes⟩ := onManageStart_modes hp.wellFormed hhandle
  have hriver := h.river hsent
  obtain ⟨-, houtputs, hused⟩ := River.requests_seats rs (p.river.observe .manageStart)
  refine ⟨fun t => ?_, htags, State.outputProxies_of_proxy hproxy, ?_, ?_, hwindows,
    fun w hw => ?_, fun x hx => ?_⟩
  · rw [State.ownerProxy, State.ownerProxy, htags, funext hproxy]
  · rw [hriver]
    exact hused
  · rw [hriver]
    exact houtputs
  · rw [hriver, hmodes, State.foldl_manage_of_mem config hp.windowsNodup hw,
      State.fullscreenStep_refocused]
    rfl
  · rw [hriver, hmodes, State.foldl_manage_of_not_mem config hx]
    rfl

/-- For every window the window manager counts as fullscreen what river holds
fullscreen, and river holds it on the output that owns its tag. -/
def FullscreenAgrees (p : Session) : Prop :=
  ∀ w ∈ p.data.state.windows,
    Matches (p.river.held w.proxy) p.data.state w w.fullscreenApplied

/-- Every fullscreen window is in place. -/
def AllInPlace (p : Session) : Prop :=
  ∀ w ∈ p.data.state.windows, InPlace (p.river.asked w.proxy) p.data.state w

theorem Step.manage_agrees_iff (hp : p.Mirrors) (h : Step p .manageStart p')
    (hne : p.data.state.outputs ≠ []) : p'.FullscreenAgrees ↔ p.AllInPlace := by
  obtain ⟨howner, -, -, -, -, hwindows, hmodes, -⟩ := h.manage hp
  have hone : ∀ w ∈ p.data.state.windows, ∀ w', w'.proxy = w.proxy → w'.tag = w.tag →
      w'.fullscreenApplied = (p.data.state.fullscreenStep w).1 →
      (Matches (p'.river.held w'.proxy) p'.data.state w' w'.fullscreenApplied ↔
        InPlace (p.river.asked w.proxy) p.data.state w) := by
    intro w hw w' hproxy htag happlied
    rw [← State.matches_fullscreenStep_iff hp.wellFormed hne hp.outputs (hp.windows w hw),
      ← hmodes w hw, happlied, hproxy]
    unfold Matches
    rw [htag, howner]
    rfl
  constructor
  · intro hall w hw
    obtain ⟨w', hw', hproxy, htag, happlied⟩ := exists_of_forall₂ hwindows.flip hw
    exact (hone w hw w' hproxy htag happlied).mp (hall w' hw')
  · intro hall w' hw'
    obtain ⟨w, hw, hproxy, htag, happlied⟩ := exists_of_forall₂ hwindows hw'
    exact (hone w hw w' hproxy htag happlied).mpr (hall w hw)

theorem Mirrors.manage (hp : p.Mirrors) (h : Step p .manageStart p')
    (hagree : p'.data.state.outputs ≠ [] → p'.FullscreenAgrees) : p'.Mirrors := by
  obtain ⟨howner, htags, hout, hused, houtputs, hwindows, hmodes, hothers⟩ := h.manage hp
  have hmap : p'.data.state.windows.map (·.proxy) = p.data.state.windows.map (·.proxy) :=
    map_eq_of_forall₂ (fun _ _ h => h.1) hwindows
  have hlive : p'.data.state.outputProxies = p'.river.outputs := by
    rw [hout, hp.outputs, houtputs]
  refine ⟨(AppData.Step.wellFormed hp.wellFormed (step_iff.mp h).2.1).1, hlive,
    houtputs ▸ hp.outputsNodup, hmap ▸ hp.windowsNodup,
      by rw [houtputs, hused]; exact hp.usedOutputs,
    fun w' hw' => ?_, fun x hx => ?_, fun x o ho => ?_, fun w' hw' => ?_⟩
  · obtain ⟨w, hw, hproxy, -⟩ := exists_of_forall₂ hwindows hw'
    rw [hproxy, hused]
    exact hp.usedWindows w hw
  · rw [hused]
    by_cases hmem : x ∈ p.data.state.windows.map (·.proxy)
    · obtain ⟨w, hw, rfl⟩ := List.mem_map.mp hmem
      exact hp.usedWindows w hw
    · rw [show p'.river.held x = p.river.held x from congrArg Prod.fst (hothers x hmem)] at hx
      exact hp.usedHeld x hx
  · rw [hused]
    by_cases hmem : x ∈ p.data.state.windows.map (·.proxy)
    · obtain ⟨w, hw, rfl⟩ := List.mem_map.mp hmem
      obtain ⟨-, -, hasked⟩ :=
        State.mirrored_fullscreenStep hp.outputs (hp.windows w hw) (hmodes w hw).symm
      exact (hasked o ho).elim (hp.usedOutputs o) (hp.usedAsked w.proxy o)
    · rw [show p'.river.asked x = p.river.asked x from congrArg Prod.snd (hothers x hmem)] at ho
      exact hp.usedAsked x o ho
  · obtain ⟨w, hw, hproxy, htag, happlied⟩ := exists_of_forall₂ hwindows hw'
    obtain ⟨hoff, hon, -⟩ :=
      State.mirrored_fullscreenStep hp.outputs (hp.windows w hw) (hmodes w hw).symm
    rw [← happlied, ← hproxy] at hoff hon
    rw [← houtputs] at hon
    refine ⟨hoff, hon, fun hne => ?_⟩
    by_cases hnil : p'.data.state.outputs = []
    · -- nothing is held without outputs
      have hempty : p'.river.outputs = [] := by
        rw [← hlive, State.outputProxies, hnil]
        rfl
      cases ha : w'.fullscreenApplied with
      | false => exact absurd (hoff ha) hne
      | true =>
        have hheld := hon ha
        rw [hempty] at hheld
        refine absurd (hheld.trans ?_) hne
        cases (p'.river.modes w'.proxy).2 <;> rfl
    · obtain ⟨o, ho⟩ := Option.ne_none_iff_exists'.mp hne
      have hown := (hagree hnil w' hw').2 o ho
      intro hnone
      rw [State.ownerProxy, hnone] at hown
      cases hown

/-- In every run the two sides agree after all manage sequences with an output present
iff, before each of them, every fullscreen window is in place : on an owned tag if it is
about to be made fullscreen, and on a tag of the output it was made fullscreen on if it
stays so. -/
theorem fullscreen_agrees_iff {config : Config} {xkb layerShell cursorShapeManager : Bool}
    {τs : List (Transition.Step Session Event)}
    (h : IsRun Step (Session.new config xkb layerShell cursorShapeManager) τs) :
    (∀ τ ∈ τs, τ.event = .manageStart → τ.post.data.state.outputs ≠ [] → τ.post.FullscreenAgrees) ↔
      ∀ τ ∈ τs, τ.event = .manageStart → τ.pre.data.state.outputs ≠ [] → τ.pre.AllInPlace := by
  refine h.forall_iff (I := Mirrors)
    (P := fun _ e t => e = .manageStart → t.data.state.outputs ≠ [] → t.FullscreenAgrees)
    (C := fun s e => e = .manageStart → s.data.state.outputs ≠ [] → s.AllInPlace) ?_ ?_
    (mirrors_new config xkb layerShell cursorShapeManager)
  · intro p event p' hp hst
    refine forall_congr' fun hevent => ?_
    subst hevent
    have hnil : p'.data.state.outputs ≠ [] ↔ p.data.state.outputs ≠ [] := by
      have hout := congrArg List.length (hst.manage hp).outputProxies
      simp only [State.outputProxies, List.length_map] at hout
      rw [← List.length_pos_iff, ← List.length_pos_iff, hout]
    rw [hnil]
    exact forall_congr' fun hne => hst.manage_agrees_iff hp hne
  · intro p event p' hp hst hP
    by_cases hevent : event = .manageStart
    · subst hevent
      exact hp.manage hst (hP rfl)
    · exact hp.step hst hevent

/-- With two outputs, a window is made fullscreen and leaves it again. -/
theorem fullscreen_agrees_iff_toggle :
    ∃ τs, IsRun Step (Session.new .default false false false) τs ∧
    τs.length = 7 ∧ ∀ τ ∈ τs, τ.event = .manageStart → τ.post.data.state.outputs ≠ [] →
      τ.post.FullscreenAgrees := by
  have hrun := isRun_trace next [.newOutput 1, .newOutput 3, .newWindow 2,
    .window 2 .fullscreenRequested, .manageStart, .window 2 .exitFullscreenRequested, .manageStart]
    (Session.new .default false false false)
  have hplace : ∀ τ ∈ trace next (Session.new .default false false false) [.newOutput 1,
      .newOutput 3, .newWindow 2, .window 2 .fullscreenRequested, .manageStart,
      .window 2 .exitFullscreenRequested, .manageStart],
      ∀ w ∈ τ.pre.data.state.windows, w.fullscreen = true →
        (w.fullscreenApplied = false → τ.pre.data.state.tagOwner w.tag ≠ none) ∧
          (w.fullscreenApplied = true → τ.pre.data.state.tagOwner w.tag ≠ none →
            τ.pre.river.asked w.proxy = τ.pre.data.state.ownerProxy w.tag) := by decide
  exact ⟨_, hrun, rfl, (fullscreen_agrees_iff hrun).mpr fun τ hτ _ _ => hplace τ hτ⟩

/-- With two outputs, the one a window is fullscreen on is removed : its tag goes to the
other, and the window still counts as fullscreen. -/
theorem exists_fullscreen_disagrees : ¬∀ (config : Config)
    (xkb layerShell cursorShapeManager : Bool) (τs : List (Transition.Step Session Event)),
    IsRun Step (Session.new config xkb layerShell cursorShapeManager) τs →
    ∀ τ ∈ τs, τ.event = .manageStart → τ.post.data.state.outputs ≠ [] →
      τ.post.FullscreenAgrees := by
  intro hall
  have hrun := isRun_trace next [.newOutput 1, .newOutput 3, .newWindow 2,
    .window 2 .fullscreenRequested, .manageStart, .output 1 .removed, .manageStart]
    (Session.new .default false false false)
  obtain ⟨τ, hget, hevent, hlen, w, hw, happlied, hheld⟩ : ∃ τ : Transition.Step Session Event,
      (trace next (Session.new .default false false false) [.newOutput 1, .newOutput 3,
        .newWindow 2,
        .window 2 .fullscreenRequested, .manageStart, .output 1 .removed, .manageStart])[6]? =
        some τ ∧ τ.event = .manageStart ∧ τ.post.data.state.outputs.length = 1 ∧
      ∃ w, τ.post.data.state.windows[0]? = some w ∧ w.fullscreenApplied = true ∧
        τ.post.river.held w.proxy = none := ⟨_, rfl, rfl, rfl, _, rfl, rfl, rfl⟩
  have hne : τ.post.data.state.outputs ≠ [] := List.ne_nil_of_length_pos (by omega)
  have hmatch := hall _ _ _ _ _ hrun τ (List.mem_of_getElem? hget) hevent hne w
    (List.mem_of_getElem? hw)
  exact hmatch.1.mp happlied hheld

end Session

end Streamwm
