import Streamwm.FullscreenAgreement

/-!
# The objects both sides know

Outside the fullscreen states, the window manager follows river's announcements exactly : its
list of outputs is river's, in the order of their arrival (`outputProxies_handle`), and it
has no window twice. As river announces no object twice, an output or a window keeps its
identity as long as it exists (`Session.Tracks`). This holds on every run, with no condition
on the fullscreen states.
-/

namespace Streamwm

open Partial Transition

/-- The outputs there are after an event. -/
def Event.outputs (known : List ObjectId) : Event → List ObjectId
  | .newOutput new => known ++ [new]
  | .output gone .removed => known.filter (· != gone)
  | _ => known

/-- The windows there can be after an event. -/
def Event.windows (known : List ObjectId) : Event → List ObjectId
  | .newWindow new => known ++ [new]
  | _ => known

namespace AppData

variable {d d' : AppData} {event : Event}

/-- The output and window objects an event leaves. -/
theorem objects_handle (hs : d.state.WellFormed) (hnodup : d.state.outputProxies.Nodup)
    (h : d.handle event = some d') :
    d'.state.outputProxies = event.outputs d.state.outputProxies ∧
      (d'.state.windows.map (·.proxy)).Sublist (event.windows (d.state.windows.map (·.proxy))) := by
  have hlocal : ∀ {d''}, d.handle event = some d'' → Handled d d'' →
      event.outputs d.state.outputProxies = d.state.outputProxies →
      event.windows (d.state.windows.map (·.proxy)) = d.state.windows.map (·.proxy) →
      d'.state.outputProxies = event.outputs d.state.outputProxies ∧
        (d'.state.windows.map (·.proxy)).Sublist
          (event.windows (d.state.windows.map (·.proxy))) := by
    intro d'' hd'' hd houtputs hwindows
    obtain rfl := Option.some.inj (hd''.symm.trans h)
    obtain ⟨hkeep, hout⟩ := State.keeps_of_reachable hs hd.steps
    rw [houtputs, hwindows]
    exact ⟨hout, hkeep.proxies⟩
  cases hobj : event.OfObjects with
  | false =>
    obtain ⟨d'', hd'', hd⟩ := handled_handle hs hobj
    have hsame : event.outputs d.state.outputProxies = d.state.outputProxies ∧
        event.windows (d.state.windows.map (·.proxy)) = d.state.windows.map (·.proxy) := by
      unfold Event.outputs Event.windows
      unfold Event.OfObjects at hobj
      split at hobj <;> simp_all
    exact hlocal hd'' hd hsame.1 hsame.2
  | true =>
    unfold Event.OfObjects at hobj
    split at hobj
    · next window =>
      obtain rfl := Option.some.inj h
      refine ⟨State.outputProxies_of_proxy (State.still_createWindow window).proxy, ?_⟩
      change (List.map (·.proxy) (d.state.windows ++ [_])).Sublist _
      rw [List.map_append]
      exact List.Sublist.refl _
    · next output =>
      obtain ⟨d'', s, hd'', hadd, -, hreach, -⟩ := apart_newOutput hs output
      obtain rfl := Option.some.inj (hd''.symm.trans h)
      have hstep : Op.Step d.state (.addOutput output) s := hadd
      have hc := State.change_of_step hs hstep
      obtain ⟨hkeep, hout⟩ := State.keeps_of_reachable (hc.wellFormed hs) hreach
      exact ⟨hout.trans hc.outputProxies_add,
        hkeep.proxies.trans (hc.keeps (by simp) (by simp) (by simp) (by simp)).proxies⟩
    · obtain ⟨-, hproxy, hwindows⟩ := Session.onManageStart_windows hs h
      refine ⟨State.outputProxies_of_proxy hproxy, ?_⟩
      rw [map_eq_of_forall₂ (fun _ _ h => h.1) hwindows]
      exact List.Sublist.refl _
    · next window =>
      obtain ⟨d'', hd'', hd | ⟨-, -, hstate⟩⟩ := windowEvent_spec (d := d) window .closed
      · exact hlocal hd'' hd.toHandled rfl rfl
      · obtain rfl := Option.some.inj (hd''.symm.trans h)
        refine ⟨?_, ?_⟩
        · rw [hstate]
          rfl
        · rw [hstate]
          exact List.filter_sublist.map _
    · next output =>
      have hunplug := Session.unplugged hs hnodup h
      exact ⟨hunplug.outputs, hunplug.proxies⟩
    · simp at hobj

end AppData

namespace Session

variable {p p' : Session} {event : Event}

/-- Both sides know the same outputs, and no object is there twice. -/
structure Tracks (p : Session) : Prop where
  wellFormed : p.data.state.WellFormed
  outputs : p.data.state.outputProxies = p.river.outputs
  outputsNodup : p.river.outputs.Nodup
  windowsNodup : (p.data.state.windows.map (·.proxy)).Nodup
  usedOutputs : ∀ output ∈ p.river.outputs, output ∈ p.river.used
  usedWindows : ∀ window ∈ p.data.state.windows.map (·.proxy), window ∈ p.river.used

theorem tracks_new (config : Config) (xkb layerShell cursorShapeManager : Bool) :
    (Session.new config xkb layerShell cursorShapeManager).Tracks where
  wellFormed := State.wellFormed_new _
  outputs := rfl
  outputsNodup := List.nodup_nil
  windowsNodup := List.nodup_nil
  usedOutputs _ h := by simp [Session.new, River.new] at h
  usedWindows _ h := by simp [Session.new, AppData.new, State.new] at h

/-- What river knows after a step. -/
theorem Step.known (h : Step p event p') : p'.river.outputs = event.outputs p.river.outputs ∧
    p'.river.used = (p.river.observe event).used := by
  obtain ⟨-, houtputs, hused⟩ := River.requests_seats
    (p'.data.sent.drop p.data.sent.length) (p.river.observe event)
  rw [(step_iff.mp h).2.2]
  refine ⟨houtputs.trans ?_, hused⟩
  unfold River.observe Event.outputs
  split <;> first | rfl | simp_all

theorem used_observe {x : ObjectId} (v : River) (event : Event) (hx : x ∈ v.used) :
    x ∈ (v.observe event).used := by
  unfold River.observe
  split
  all_goals first | exact List.mem_cons_of_mem _ hx | exact hx

/-- The objects that stay were known before, the new ones are announced now. -/
theorem Tracks.step (hp : p.Tracks) (h : Step p event p') : p'.Tracks := by
  obtain ⟨hsends, hhandle, -⟩ := step_iff.mp h
  obtain ⟨hout, hsub⟩ := AppData.objects_handle hp.wellFormed (hp.outputs ▸ hp.outputsNodup) hhandle
  obtain ⟨houtputs, hused⟩ := h.known
  have hold : ∀ x ∈ p.river.used, x ∈ p'.river.used := fun x hx =>
    hused ▸ used_observe p.river event hx
  have hnewOutput : ∀ output, event = .newOutput output → output ∉ p.river.used := by
    rintro output rfl
    simpa [River.sends] using hsends
  have hnewWindow : ∀ window, event = .newWindow window → window ∉ p.river.used := by
    rintro window rfl
    simpa [River.sends] using hsends
  refine ⟨(AppData.Step.wellFormed hp.wellFormed hhandle).1, ?_, ?_, ?_, ?_, ?_⟩
  · rw [hout, houtputs, hp.outputs]
  · rw [houtputs]
    unfold Event.outputs
    split
    · next output =>
      refine List.nodup_append.mpr ⟨hp.outputsNodup, by simp, fun a ha b hb heq => ?_⟩
      refine hnewOutput output rfl ?_
      rw [← List.mem_singleton.mp hb, ← heq]
      exact hp.usedOutputs a ha
    · exact hp.outputsNodup.filter _
    · exact hp.outputsNodup
  · refine List.Nodup.sublist hsub ?_
    unfold Event.windows
    split
    · next window =>
      refine List.nodup_append.mpr ⟨hp.windowsNodup, by simp, fun a ha b hb heq => ?_⟩
      refine hnewWindow window rfl ?_
      rw [← List.mem_singleton.mp hb, ← heq]
      exact hp.usedWindows a ha
    · exact hp.windowsNodup
  · rw [houtputs]
    intro x hx
    unfold Event.outputs at hx
    split at hx
    · next output =>
      rcases List.mem_append.mp hx with hx | hx
      · exact hold x (hp.usedOutputs x hx)
      · rw [hused, List.mem_singleton.mp hx]
        exact List.mem_cons_self
    · exact hold x (hp.usedOutputs x (List.mem_of_mem_filter hx))
    · exact hold x (hp.usedOutputs x hx)
  · intro x hx
    replace hx := hsub.mem hx
    unfold Event.windows at hx
    split at hx
    · next window =>
      rcases List.mem_append.mp hx with hx | hx
      · exact hold x (hp.usedWindows x hx)
      · rw [hused, List.mem_singleton.mp hx]
        exact List.mem_cons_self
    · exact hold x (hp.usedWindows x hx)

theorem reachable_tracks {config : Config} {xkb layerShell cursorShapeManager : Bool}
    (h : Reachable Step (Session.new config xkb layerShell cursorShapeManager) p) : p.Tracks :=
  h.invariant (fun _ _ _ hp hstep => hp.step hstep) (tracks_new config xkb layerShell _)

end Session

end Streamwm
