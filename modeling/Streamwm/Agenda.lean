import Streamwm.Orders

/-!
# What is still to be settled

Whoever changes what a manage sequence settles leaves one owed. River lets one follow most of its
events (`Event.Announced`); for the others the window manager asks for one, or they concern
nothing that is settled (`plan_handle`). So the focus and the sizes are settled after every manage
sequence, and whenever none is owed (`settled_unless_owed`).
-/

namespace Streamwm

open Partial Transition

/-! ## What is settled from -/

/-- A window, without what no order is read off. -/
def Window.plan (w : Window) : Window :=
  { w with width := 0, height := 0, node := none, borderApplied := none }

/-- An output, without its name. -/
def Output.plan (o : Output) : Output :=
  { o with name := none, wlGlobal := none, wlOutput := none }

namespace State

variable {s s' : State} {config : Config} {w : Window}

/-- The windows and outputs that the orders are read off. -/
def plan (s : State) : State :=
  { s with windows := s.windows.map Window.plan, outputs := s.outputs.map Output.plan
           seats := [], pendingApply := false }

theorem computeAll_plan (s : State) (config : Config) :
    s.plan.computeAll config = s.computeAll config := by
  have hwindows : (s.windows.map Window.plan).map (fun w => (w.id, w.tag, w.floating)) =
      s.windows.map fun w => (w.id, w.tag, w.floating) := by
    rw [List.map_map]
    rfl
  have houtput : ∀ i, s.plan.computeOutput config i =
      ({ s with windows := s.windows.map Window.plan } : State).computeOutput config i := by
    intro i
    simp only [computeOutput, computeOutputIn, visibleWindows, activeMasterFraction, plan,
      List.getElem?_map]
    cases s.outputs[i]? <;> rfl
  rw [← AppData.computeAll_of_windows hwindows config]
  simp only [computeAll_eq, funext houtput]
  rw [plan, List.length_map]

theorem activeOutput_plan (s : State) : s.plan.activeOutput = s.activeOutput := by
  unfold activeOutput plan
  rw [List.isEmpty_map]

theorem routedWindow_plan (s : State) :
    s.plan.routedWindow = s.routedWindow.map (Option.map Window.plan) := by
  have hfind : s.plan.findWindow = fun id => (s.findWindow id).map Window.plan := by
    funext id
    exact List.find?_map
  have houtputs : s.plan.outputs = s.outputs.map Output.plan := rfl
  unfold routedWindow
  rw [activeOutput_plan, hfind, houtputs]
  cases s.activeOutput with
  | none => rfl
  | some o =>
    cases ho : s.outputs[o]? with
    | none => simp [ho]
    | some out => cases hf : out.focusedWindow <;> simp [ho, hf, Output.plan]

theorem windowIsVisible_plan (s : State) (w : Window) :
    s.plan.windowIsVisible w.plan = s.windowIsVisible w := by
  unfold windowIsVisible
  change (((s.tagOwner w.tag).bind fun o => (s.outputs.map Output.plan)[o]?).map
    fun o => o.activeTag == w.tag).getD false = _
  cases s.tagOwner w.tag with
  | none => rfl
  | some o =>
    rw [Option.bind_some, Option.bind_some, List.getElem?_map]
    cases s.outputs[o]? <;> rfl

end State

namespace AppData

variable {d d' : AppData}

/-- What is settled depends on the plan, the seats and what has been sent. -/
theorem Settles.congr (hd : d.Settles) (hplan : d'.state.plan = d.state.plan)
    (hconfig : d'.config = d.config)
    (hseats : d'.state.seats.map (·.proxy) = d.state.seats.map (·.proxy))
    (hsent : ∀ x, proposedTo d'.sent x = proposedTo d.sent x ∧ focusOf d'.sent x = focusOf d.sent x) :
    d'.Settles := by
  obtain ⟨routed, gs, hrouted, hgs, hfocus, hsizes⟩ := hd
  have hrouted' : d'.state.routedWindow.map (Option.map Window.plan) =
      some (routed.map Window.plan) := by
    rw [← State.routedWindow_plan, hplan, State.routedWindow_plan, hrouted, Option.map_some]
  have hgs' : d'.state.computeAll d'.config = some gs := by
    rw [← State.computeAll_plan, hplan, State.computeAll_plan, hconfig, hgs]
  obtain ⟨routed', hrouted', heq⟩ := Option.map_eq_some_iff.mp hrouted'
  refine ⟨routed', gs, hrouted', hgs', fun t ht => ?_, fun w' hw' => ?_⟩
  · have hmem : t.proxy ∈ d.state.seats.map (·.proxy) := hseats ▸ List.mem_map_of_mem ht
    obtain ⟨t₀, ht₀, hproxy⟩ := List.mem_map.mp hmem
    rw [(hsent t.proxy).2, ← hproxy, hfocus t₀ ht₀]
    have hproxies := congrArg (Option.map fun w : Window => w.proxy) heq
    rw [Option.map_map, Option.map_map] at hproxies
    exact hproxies.symm
  · have hmem : w'.plan ∈ d.state.windows.map Window.plan := by
      have hwindows : d'.state.windows.map Window.plan = d.state.windows.map Window.plan :=
        congrArg State.windows hplan
      exact hwindows ▸ List.mem_map_of_mem hw'
    obtain ⟨w, hw, hww'⟩ := List.mem_map.mp hmem
    have hvisible : d.state.windowIsVisible w = d'.state.windowIsVisible w' := by
      rw [← State.windowIsVisible_plan, hww', ← hplan, State.windowIsVisible_plan]
    have hread {β : Type} (f : Window → β) (hf : ∀ v, f v.plan = f v) : f w = f w' := by
      rw [← hf w, hww', hf]
    have hproxy : w.proxy = w'.proxy := hread _ fun _ => rfl
    have hid : w.id = w'.id := hread _ fun _ => rfl
    have hfloating : w.floating = w'.floating := hread _ fun _ => rfl
    have hfullscreen : w.fullscreen = w'.fullscreen := hread _ fun _ => rfl
    have hwidth : w.floatW = w'.floatW := hread _ fun _ => rfl
    have hheight : w.floatH = w'.floatH := hread _ fun _ => rfl
    have hhinted : w.hintedSize = w'.hintedSize := hread _ fun _ => rfl
    obtain ⟨hfloat, htile⟩ := hsizes w hw
    rw [hfloating, hwidth, hheight, hproxy, hhinted] at hfloat
    rw [hfloating, hvisible, hfullscreen, hproxy, hid] at htile
    rw [(hsent w'.proxy).1]
    exact ⟨hfloat, htile⟩

end AppData

/-! ## Events -/

/-- River lets a manage sequence follow the event. -/
def Event.Announced : Event → Bool
  | .newWindow _ | .newOutput _ | .newSeat _ | .nonExclusiveArea _ _ _ _ _ | .bindingPressed _
  | .pointerBindingPressed _ | .pointerBindingReleased _ => true
  | .window _ (.dimensions _ _) => false
  | .window _ _ => true
  | .output _ (.wlOutput _) => false
  | .output _ _ => true
  | .seat _ (.wlSeat _) | .seat _ (.pointerPosition _ _) => false
  | .seat _ _ => true
  | _ => false

namespace AppData

variable {d d' : AppData}

/-- Nothing that is settled changes. -/
structure Planned (d d' : AppData) : Prop where
  plan : d'.state.plan = d.state.plan
  config : d'.config = d.config
  seats : d'.state.seats.map (·.proxy) = d.state.seats.map (·.proxy)

theorem planned_window {id : ℕ} {f : Window → Window}
    (hstate : d'.state = d.state.modifyWindow id f) (hconfig : d'.config = d.config)
    (hf : ∀ w, (f w).plan = w.plan) : Planned d d' where
  plan := by
    rw [hstate]
    exact congrArg (fun ws => ({ d.state.plan with windows := ws } : State))
      (map_modifyFirst Window.plan hf d.state.windows)
  config := hconfig
  seats := by
    rw [hstate]
    rfl

theorem planned_output {p : Output → Bool} {f : Output → Output}
    (hstate : d'.state = d.state.modifyOutput p f) (hconfig : d'.config = d.config)
    (hf : ∀ o, (f o).plan = o.plan) : Planned d d' where
  plan := by
    rw [hstate]
    exact congrArg (fun os => ({ d.state.plan with outputs := os } : State))
      (map_modifyFirst Output.plan hf d.state.outputs)
  config := hconfig
  seats := by
    rw [hstate]
    rfl

theorem planned_seat {seat : ObjectId} {f : Seat → Seat}
    (hstate : d'.state = d.state.modifySeat seat f) (hconfig : d'.config = d.config)
    (hf : ∀ t, (f t).proxy = t.proxy) : Planned d d' where
  plan := by
    rw [hstate]
    rfl
  config := hconfig
  seats := by
    rw [hstate]
    exact map_modifyFirst Seat.proxy hf d.state.seats

theorem planned_onRenderStart (hids : (d.state.windows.map (·.id)).Nodup) {hasClients : Bool}
    (h : d.onRenderStart hasClients = some d') : Planned d d' := by
  obtain ⟨focused, gs, published, -, -, rfl⟩ := onRenderStart_eq hids h
  refine ⟨congrArg (fun ws => ({ d.state.plan with windows := ws } : State)) ?_, rfl, rfl⟩
  rw [List.map_map, ← map_beginRender Window.plan (fun _ _ _ => rfl) d]
  refine List.map_congr_left fun w _ => ?_
  rw [Function.comp_apply, Window.draw]
  split_ifs <;> rfl

/-- An event that river lets no manage sequence follow concerns nothing that is settled, or the
window manager asks for one. -/
theorem plan_handle (hids : (d.state.windows.map (·.id)).Nodup) {event : Event}
    (hevent : event.Announced = false) (hmanage : event ≠ .manageStart)
    (h : d.handle event = some d') :
    Planned d d' ∨ ∃ rs, d'.sent = d.sent ++ rs ∧ Request.manageDirty ∈ rs := by
  cases event with
  | manageStart => exact absurd rfl hmanage
  | newWindow _ | newOutput _ | newSeat _ | nonExclusiveArea _ _ _ _ _ | bindingPressed _
  | pointerBindingPressed _ | pointerBindingReleased _ => cases hevent
  | unavailable | finished =>
    obtain rfl := Option.some.inj h
    exact Or.inl ⟨rfl, rfl, rfl⟩
  | renderStart hasClients => exact Or.inl (planned_onRenderStart hids h)
  | window window event =>
    cases event with
    | dimensions width height =>
      refine Or.inl ?_
      unfold handle windowEvent at h
      dsimp only at h
      split at h
      · obtain rfl := Option.some.inj h
        exact ⟨rfl, rfl, rfl⟩
      · obtain rfl := Option.some.inj h
        exact planned_window rfl rfl fun _ => rfl
    | _ => cases hevent
  | output output event =>
    cases event with
    | wlOutput name =>
      obtain rfl := Option.some.inj h
      exact Or.inl (planned_output rfl rfl fun _ => rfl)
    | _ => cases hevent
  | seat seat event =>
    cases event with
    | wlSeat name =>
      obtain rfl := Option.some.inj h
      exact Or.inl (planned_seat rfl rfl fun _ => rfl)
    | pointerPosition x y =>
      obtain rfl := Option.some.inj h
      have hmoved : Planned d (d.modifyState fun s =>
          s.modifySeat seat fun t => { t with pointerX := x, pointerY := y }) :=
        planned_seat rfl rfl fun _ => rfl
      unfold pointerPosition
      dsimp only
      split_ifs
      · split
        · split_ifs
          · exact Or.inr ⟨[.manageDirty], rfl, List.mem_singleton_self _⟩
          · exact Or.inl hmoved
        · exact Or.inl hmoved
      · exact Or.inl hmoved
    | _ => cases hevent
  | wlOutputName global name =>
    obtain rfl := Option.some.inj h
    exact Or.inl (planned_output rfl rfl fun _ => rfl)
  | command cmd =>
    refine Or.inr ?_
    obtain ⟨s, hs, h⟩ := Option.bind_eq_some_iff.mp h
    obtain rfl := Option.some.inj h
    cases cmd with
    | spawn command =>
      by_cases hallow : d.config.allowSpawn = true
      · exact ⟨[.spawn command, .manageDirty], by simp [manageDirty, send, hallow], by simp⟩
      · exact ⟨[.manageDirty], by simp [manageDirty, send, hallow], by simp⟩
    | _ => exact ⟨[.manageDirty], rfl, List.mem_singleton_self _⟩
  | statusRequest =>
    obtain ⟨snap, -, h⟩ := Option.bind_eq_some_iff.mp h
    obtain rfl := Option.some.inj h
    exact Or.inl ⟨rfl, rfl, rfl⟩
  | flushPending =>
    obtain rfl := Option.some.inj h
    unfold flushPending
    split_ifs
    · exact Or.inr ⟨[.manageDirty], rfl, List.mem_singleton_self _⟩
    · exact Or.inl ⟨rfl, rfl, rfl⟩

end AppData

/-! ## Runs -/

/-- The exchange, and whether a manage sequence is to come. -/
structure Agenda where
  session : Session
  /-- River lets one follow an event since the last one, or was asked for one. -/
  owed : Bool

namespace Agenda

def new (config : Config) (xkb layerShell cursorShapeManager : Bool) : Agenda :=
  { session := Session.new config xkb layerShell cursorShapeManager, owed := false }

/-- Whether a manage sequence is to come after an event and its requests. -/
def owes (owed : Bool) (event : Event) (rs : List Request) : Bool :=
  match event with
  | .manageStart => rs.contains .manageDirty
  | event => owed || event.Announced || rs.contains .manageDirty

/-- One event; `none` when river does not send it or its handler panics. -/
def next (p : Agenda) (event : Event) : Option Agenda := do
  let session ← p.session.next event
  let rs := session.data.sent.drop p.session.data.sent.length
  return { session, owed := owes p.owed event rs }

def Step (p : Agenda) (event : Event) (p' : Agenda) : Prop :=
  p.next event = some p'

/-- What every reached agenda keeps. -/
structure Invariant (p : Agenda) : Prop where
  named : p.session.Named
  settled : p.owed = false → p.session.data.Settles

variable {p p' : Agenda} {event : Event}

theorem step_iff : Step p event p' ↔ Session.Step p.session event p'.session ∧
    p' = { session := p'.session
           owed := owes p.owed event
             (p'.session.data.sent.drop p.session.data.sent.length) } := by
  unfold Step next
  rw [Option.bind_eq_bind, Option.bind_eq_some_iff]
  constructor
  · rintro ⟨v, hv, heq⟩
    obtain rfl := Option.some.inj heq
    exact ⟨hv, rfl⟩
  · rintro ⟨hv, hp⟩
    exact ⟨p'.session, hv, congrArg some hp.symm⟩

/-- A step keeps the invariant, and a manage sequence settles everything. -/
theorem Invariant.step (hp : p.Invariant) (h : Step p event p') :
    p'.Invariant ∧ (event = .manageStart → p'.session.data.Settles) := by
  obtain ⟨hsession, hp'⟩ := step_iff.mp h
  have hnamed := hp.named.step hsession
  have hhandle := (Session.step_iff.mp hsession).2.1
  have hids := hp.named.freshIds.nodup
  by_cases hmanage : event = .manageStart
  · rw [hmanage] at hhandle
    have hsettles := AppData.settles_onManageStart hnamed.freshIds.nodup hnamed.windowsNodup hhandle
    exact ⟨⟨hnamed, fun _ => hsettles⟩, fun _ => hsettles⟩
  · refine ⟨⟨hnamed, fun hnone => ?_⟩, fun hevent => absurd hevent hmanage⟩
    have hquiet : (p.owed = false ∧ event.Announced = false) ∧
        (p'.session.data.sent.drop p.session.data.sent.length).contains .manageDirty = false := by
      rw [hp'] at hnone
      dsimp only [owes] at hnone
      split at hnone
      · exact absurd rfl hmanage
      · rwa [Bool.or_eq_false_iff, Bool.or_eq_false_iff] at hnone
    obtain ⟨⟨hbefore, hannounced⟩, hasked⟩ := hquiet
    rcases AppData.plan_handle hids hannounced hmanage hhandle with hplanned | ⟨rs, hrs, hdirty⟩
    · exact (hp.settled hbefore).congr hplanned.plan hplanned.config hplanned.seats
        fun x => AppData.settles_handle hids hmanage hhandle x
    · rw [hrs, List.drop_left] at hasked
      exact absurd (List.contains_iff_mem.mpr hdirty) (by rw [hasked]; exact Bool.false_ne_true)

theorem invariant_new (config : Config) (xkb layerShell cursorShapeManager : Bool) :
    (new config xkb layerShell cursorShapeManager).Invariant where
  named := Session.named_new config xkb layerShell cursorShapeManager
  settled _ := ⟨none, [], rfl, rfl, fun _ ht => absurd ht List.not_mem_nil,
    fun _ hw => absurd hw List.not_mem_nil⟩

end Agenda

end Streamwm
