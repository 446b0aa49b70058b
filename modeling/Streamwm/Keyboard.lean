import Streamwm.Grabs
import Streamwm.Splits

/-!
# The keyboard

A handler that brings a seat, or turns resize mode, leaves a manage sequence owed; otherwise
every binding is enabled as it is to be (`table_handle`). So after a manage sequence, and
whenever none is owed, river grabs the chords that are wanted and no others (`grabs_wanted`), and
the press of one runs an action configured for it (`press_runs`).
-/

namespace Streamwm

open Custody Inbox Partial Transition

namespace AppData

variable {d d' : AppData} {grabs : ObjectId → Option Grab}

/-! ## What is grabbed -/

/-- The chord is to be grabbed : some seat has a binding for it that is one for now. -/
def Wanted (d : AppData) (c : Chord) : Prop :=
  ∃ seat ∈ d.seatIds, ∃ action,
    (c, action) ∈ d.seatChords seat ++ d.seatButtons seat ∧ d.armed action = true

/-- The chord is grabbed. -/
def Grabbed (grabs : ObjectId → Option Grab) (c : Chord) : Prop :=
  ∃ x, grabs x = some { chord := c, enabled := true }

theorem armed_button {seat : ObjectId} {c : Chord × String} (hc : c ∈ d.seatButtons seat) :
    d.armed c.2 = true := by
  simp only [seatButtons, List.mem_cons, List.not_mem_nil, or_false] at hc
  rcases hc with rfl | rfl <;> rfl

theorem Table.grabbed_iff (htable : d.Table grabs) (harmed : d.Armed grabs) (c : Chord) :
    Grabbed grabs c ↔ d.Wanted c := by
  constructor
  · rintro ⟨x, hx⟩
    rcases Multiset.mem_add.mp (htable.only x (by simp [hx])) with hmem | hmem
    · obtain ⟨b, hb, rfl⟩ := List.mem_map.mp (Multiset.mem_coe.mp hmem)
      obtain ⟨hseat, g, hg, haction⟩ := exists_grab htable.keys hb
      obtain rfl := Option.some.inj (hx.symm.trans hg)
      have hon := harmed.keys b hb
      rw [hx] at hon
      exact ⟨b.2.2, hseat, b.2.1, List.mem_append_left _ haction, (Option.some.inj hon).symm⟩
    · obtain ⟨p, hp, rfl⟩ := List.mem_map.mp (Multiset.mem_coe.mp hmem)
      obtain ⟨hseat, g, hg, haction⟩ := exists_grab htable.buttons hp
      obtain rfl := Option.some.inj (hx.symm.trans hg)
      exact ⟨p.2.2, hseat, p.2.1, List.mem_append_right _ haction, armed_button haction⟩
  · rintro ⟨seat, hseat, action, hmem, hon⟩
    rcases List.mem_append.mp hmem with hmem | hmem
    · obtain ⟨b, hb, rfl, g, hg, rfl⟩ := exists_binding htable.keys hseat hmem
      have henabled := harmed.keys b hb
      rw [hg, hon] at henabled
      exact ⟨b.1, hg.trans (congrArg (fun e => some (Grab.mk g.chord e)) (Option.some.inj henabled))⟩
    · obtain ⟨p, hp, rfl, g, hg, rfl⟩ := exists_binding htable.buttons hseat hmem
      have henabled := harmed.buttons p hp
      rw [hg] at henabled
      exact ⟨p.1, hg.trans (congrArg (fun e => some (Grab.mk g.chord e)) (Option.some.inj henabled))⟩

/-- Handlers that change neither the bindings nor resize mode leave everything enabled as it is. -/
theorem Armed.congr {grabs' : ObjectId → Option Grab} (harmed : d.Armed grabs)
    (hmode : d'.state.resizeMode = d.state.resizeMode)
    (hkeys : ∀ b ∈ d'.bindings, b ∈ d.bindings ∧ grabs' b.1 = grabs b.1)
    (hbuttons : ∀ b ∈ d'.pointerBindings, b ∈ d.pointerBindings ∧ grabs' b.1 = grabs b.1) :
    d'.Armed grabs' := by
  refine ⟨fun b hb => ?_, fun p hp => ?_⟩
  · rw [(hkeys b hb).2, harmed.keys b (hkeys b hb).1, armed, armed, hmode]
  · rw [(hbuttons p hp).2, harmed.buttons p (hbuttons p hp).1]

end AppData

namespace AppData

variable {d : AppData} {grabs : ObjectId → Option Grab}

/-- The action run for a key that river has a binding for is one configured for that key. -/
theorem dispatchAction_key (htable : d.Table grabs) (hnodup : d.objects.Nodup) {x : ObjectId}
    {g : Grab} (hg : grabs x = some g) {seat : ObjectId} {keysym : ℕ} {m : Modifiers}
    (hchord : g.chord = .key seat keysym m) : ∃ action, (keysym, m, action) ∈ d.seatKeys ∧
      d.dispatchAction x = d.runAction action := by
  rcases Multiset.mem_add.mp (htable.only x (by simp [hg])) with hmem | hmem
  · obtain ⟨b, hb, rfl⟩ := List.mem_map.mp (Multiset.mem_coe.mp hmem)
    obtain ⟨-, g', hg', haction⟩ := exists_grab htable.keys hb
    obtain rfl := Option.some.inj (hg.symm.trans hg')
    obtain ⟨k, hk, heq⟩ := List.mem_map.mp haction
    obtain ⟨hkey, hact⟩ := Prod.mk.inj heq
    obtain ⟨-, rfl, rfl⟩ := Chord.key.inj (hkey.trans hchord)
    refine ⟨k.2.2, hk, ?_⟩
    rw [dispatchAction, find_key (nodup_bindings hnodup).1 hb, Option.map_some, ← hact]
  · obtain ⟨p, hp, rfl⟩ := List.mem_map.mp (Multiset.mem_coe.mp hmem)
    obtain ⟨-, g', hg', haction⟩ := exists_grab htable.buttons hp
    obtain rfl := Option.some.inj (hg.symm.trans hg')
    simp [seatButtons, hchord] at haction

end AppData

/-! ## Runs -/

/-- The window manager, the objects and the bindings of river. -/
structure Keyboard where
  registry : Registry
  grabs : ObjectId → Option Grab
  /-- A manage sequence is to come, for a seat that is new or because it was asked for. -/
  owed : Bool

namespace Keyboard

def new (config : Config) (xkb layerShell cursorShapeManager : Bool) : Keyboard :=
  { registry := Registry.new config xkb layerShell cursorShapeManager
    grabs := fun _ => none, owed := false }

/-- Whether a manage sequence is to come after an event and its requests. -/
def owes (owed : Bool) (event : Event) (rs : List Request) : Bool :=
  match event with
  | .manageStart => rs.contains .manageDirty
  | .newSeat _ => true
  | _ => owed || rs.contains .manageDirty

/-- One event; `none` when river does not send it or its handler panics. -/
def next (base : ℕ) (p : Keyboard) (event : Event) : Option Keyboard := do
  let registry ← p.registry.next base event
  let rs := registry.data.sent.drop p.registry.data.sent.length
  return { registry, grabs := Grab.after p.grabs rs, owed := owes p.owed event rs }

def Step (base : ℕ) (p : Keyboard) (event : Event) (p' : Keyboard) : Prop :=
  p.next base event = some p'

/-- What every reached keyboard keeps. -/
structure Invariant (base : ℕ) (p : Keyboard) : Prop where
  registry : p.registry.Invariant base
  table : p.registry.data.nextObject ≤ base → p.registry.data.Table p.grabs
  armed : p.registry.data.nextObject ≤ base → p.owed = false → p.registry.data.Armed p.grabs

variable {base : ℕ} {p p' : Keyboard} {event : Event}

theorem step_iff : Step base p event p' ↔ Registry.Step base p.registry event p'.registry ∧
    p' = { registry := p'.registry
           grabs := Grab.after p.grabs
             (p'.registry.data.sent.drop p.registry.data.sent.length)
           owed := owes p.owed event
             (p'.registry.data.sent.drop p.registry.data.sent.length) } := by
  unfold Step next
  rw [Option.bind_eq_bind, Option.bind_eq_some_iff]
  constructor
  · rintro ⟨v, hv, heq⟩
    obtain rfl := Option.some.inj heq
    exact ⟨hv, rfl⟩
  · rintro ⟨hv, hp⟩
    exact ⟨p'.registry, hv, congrArg some hp.symm⟩

/-- What a handler does about the bindings : the table stays one, and they are enabled as they
are to be unless a manage sequence is owed. -/
theorem table_handle {d d' : AppData} {grabs : ObjectId → Option Grab} {owed : Bool}
    (hids : (d.state.windows.map (·.id)).Nodup) (htable : d.Table grabs)
    (harmed : owed = false → d.Armed grabs) (hnodup : d.objects.Nodup)
    (hfresh : ∀ x ∈ d.bindingObjects, x < d.nextObject ∨ d'.nextObject ≤ x)
    (h : d.handle event = some d') : ∃ rs, d'.sent = d.sent ++ rs ∧
      d'.Table (Grab.after grabs rs) ∧
      (event = .manageStart ∨ owes owed event rs = false → d'.Armed (Grab.after grabs rs)) := by
  cases hevent : event.Rebinds with
  | false =>
    obtain ⟨rs, hrs, hforeign, hkeyed, hseats⟩ := AppData.foreign_handle hids hevent h
    have hsame := AppData.after_foreign htable.only hnodup hforeign
    refine ⟨rs, hrs, htable.congr hkeyed hseats fun x => by rw [hsame], fun howed => ?_⟩
    have hquiet : owed = false ∧ rs.contains .manageDirty = false := by
      rcases howed with rfl | howed
      · cases hevent
      · cases event <;> first | exact Bool.or_eq_false_iff.mp howed | cases hevent
    have hkeys : d'.bindings = d.bindings := congrArg (·.2.2.1) hkeyed
    have hbuttons : d'.pointerBindings = d.pointerBindings := congrArg (·.2.2.2) hkeyed
    have hmode : d'.state.resizeMode = d.state.resizeMode := by
      refine (AppData.resizeMode_handle hids h).resolve_right fun hdirty => ?_
      rw [List.append_cancel_left (hrs.symm.trans hdirty)] at hquiet
      exact absurd hquiet.2 (by decide)
    rw [hsame]
    refine (harmed hquiet.1).congr hmode (fun b hb => ⟨hkeys ▸ hb, rfl⟩) fun b hb => ⟨hbuttons ▸ hb, rfl⟩
  | true =>
    cases event with
    | newSeat seat =>
      obtain rfl := Option.some.inj h
      obtain ⟨rs, hrs, ht⟩ := AppData.table_newSeat htable seat hfresh
      refine ⟨rs, hrs, ht, fun howed => ?_⟩
      rcases howed with howed | howed <;> cases howed
    | manageStart =>
      obtain ⟨rs, hrs, ht, ha⟩ := AppData.armed_onManageStart htable hnodup h
      exact ⟨rs, hrs, ht, fun _ => ha⟩
    | seat seat event =>
      cases event with
      | removed =>
        have hmode : d'.state.resizeMode = d.state.resizeMode :=
          congrArg (·.2.2) (AppData.splits_handle hids (by simp) h)
        obtain rfl := Option.some.inj h
        obtain ⟨rs, hrs, ht, hkeys, hbuttons⟩ := AppData.table_seatRemoved htable hnodup seat
        refine ⟨rs, hrs, ht, fun howed => ?_⟩
        have hquiet := howed.resolve_left (by simp)
        exact (harmed (Bool.or_eq_false_iff.mp hquiet).1).congr hmode hkeys hbuttons
      | _ => cases hevent
    | _ => cases hevent

/-- A step keeps the invariant; a manage sequence leaves everything enabled as it is to be. -/
theorem Invariant.step (hp : p.Invariant base) (h : Step base p event p') : p'.Invariant base ∧
    (p'.registry.data.nextObject ≤ base → event = .manageStart →
      p'.registry.data.Armed p'.grabs) := by
  obtain ⟨hv, hp'⟩ := step_iff.mp h
  obtain ⟨-, hd', -⟩ := Registry.step_iff.mp hv
  have hids := hp.registry.freshIds.nodup
  have hle := AppData.nextObject_handle hids hd'
  have hstep (hbase : p'.registry.data.nextObject ≤ base) :
      p'.registry.data.Table p'.grabs ∧ (event = .manageStart ∨ p'.owed = false →
        p'.registry.data.Armed p'.grabs) := by
    obtain ⟨hF, -⟩ := hp.registry.holds (hle.trans hbase)
    have hfresh : ∀ x ∈ p.registry.data.bindingObjects, x < p.registry.data.nextObject ∨
        p'.registry.data.nextObject ≤ x := fun x hx =>
      (hF.free x (hF.mem (Multiset.mem_add.mpr (Or.inr hx)))).imp_right hbase.trans
    obtain ⟨rs, hrs, ht, ha⟩ := table_handle hids (hp.table (hle.trans hbase))
      (hp.armed (hle.trans hbase)) hF.nodup hfresh hd'
    rw [hp', hrs, List.drop_left]
    exact ⟨ht, ha⟩
  exact ⟨⟨(hp.registry.step hv).1, fun hbase => (hstep hbase).1,
    fun hbase howed => (hstep hbase).2 (Or.inr howed)⟩,
    fun hbase hevent => (hstep hbase).2 (Or.inl hevent)⟩

theorem invariant_new (config : Config) (xkb layerShell cursorShapeManager : Bool) :
    (new config xkb layerShell cursorShapeManager).Invariant base where
  registry := Registry.invariant_new config xkb layerShell cursorShapeManager
  table _ := ⟨rfl, rfl, fun _ hx => absurd rfl hx⟩
  armed _ _ := ⟨fun _ hb => (by cases hb), fun _ hb => (by cases hb)⟩

/-- In every run, after a manage sequence and whenever none is owed, river grabs the chords that
are wanted and no others. -/
theorem grabs_wanted {config : Config} {xkb layerShell cursorShapeManager : Bool}
    {τs : List (Transition.Step Keyboard Event)}
    (h : IsRun (Step base) (new config xkb layerShell cursorShapeManager) τs)
    (hbase : ∀ τ ∈ τs, τ.post.registry.data.nextObject ≤ base) :
    ∀ τ ∈ τs, τ.event = .manageStart ∨ τ.post.owed = false →
      ∀ c, AppData.Grabbed τ.post.grabs c ↔ τ.post.registry.data.Wanted c := by
  have hinv := h.invariant (I := Invariant base) (fun _ _ _ hp hst => (hp.step hst).1)
    (invariant_new config xkb layerShell cursorShapeManager)
  intro τ hτ hevent
  obtain ⟨hpre, hpost⟩ := hinv τ hτ
  refine (hpost.table (hbase τ hτ)).grabbed_iff ?_
  rcases hevent with hevent | howed
  · exact (hpre.step (h.step_of_mem hτ)).2 (hbase τ hτ) hevent
  · exact hpost.armed (hbase τ hτ) howed

/-- Resize mode is entered, and Escape is grabbed after the manage sequence. -/
theorem grabs_wanted_escape : ∃ τs, IsRun (Step 1000) (new .default true false false) τs ∧
    (∃ τ ∈ τs, τ.post.owed = false ∧ (τ.post.grabs 19).map (·.enabled) = some true) ∧
    ∀ τ ∈ τs, τ.event = .manageStart ∨ τ.post.owed = false →
      ∀ c, AppData.Grabbed τ.post.grabs c ↔ τ.post.registry.data.Wanted c := by
  have hrun := isRun_trace (next 1000) [.newOutput 1001, .newSeat 1002, .manageStart,
    .bindingPressed 14, .manageStart] (new .default true false false)
  exact ⟨_, hrun, by decide +kernel, grabs_wanted hrun (by decide +kernel)⟩

/-- In every run, the press of a key that river has a binding for runs an action configured for
that key. -/
theorem press_runs {config : Config} {xkb layerShell cursorShapeManager : Bool}
    {τs : List (Transition.Step Keyboard Event)}
    (h : IsRun (Step base) (new config xkb layerShell cursorShapeManager) τs)
    (hbase : ∀ τ ∈ τs, τ.post.registry.data.nextObject ≤ base) :
    ∀ τ ∈ τs, ∀ x g seat keysym m, τ.event = .bindingPressed x → τ.pre.grabs x = some g →
      g.chord = .key seat keysym m → ∃ action,
        (keysym, m, action) ∈ τ.pre.registry.data.seatKeys ∧
        τ.pre.registry.data.runAction action = some τ.post.registry.data := by
  have hinv := h.invariant (I := Invariant base) (fun _ _ _ hp hst => (hp.step hst).1)
    (invariant_new config xkb layerShell cursorShapeManager)
  intro τ hτ x g seat keysym m hevent hg hchord
  obtain ⟨hpre, -⟩ := hinv τ hτ
  obtain ⟨-, hd', -⟩ := Registry.step_iff.mp (step_iff.mp (h.step_of_mem hτ)).1
  have hle := (AppData.nextObject_handle hpre.registry.freshIds.nodup hd').trans (hbase τ hτ)
  obtain ⟨hF, -⟩ := hpre.registry.holds hle
  obtain ⟨action, hmem, hrun⟩ :=
    AppData.dispatchAction_key (hpre.table hle) hF.nodup hg hchord
  rw [hevent] at hd'
  exact ⟨action, hmem, hrun ▸ hd'⟩

theorem press_runs_once : ∃ τs, IsRun (Step 1000) (new .default true false false) τs ∧
    τs.length = 4 ∧
    ∀ τ ∈ τs, ∀ x g seat keysym m, τ.event = .bindingPressed x → τ.pre.grabs x = some g →
      g.chord = .key seat keysym m → ∃ action,
        (keysym, m, action) ∈ τ.pre.registry.data.seatKeys ∧
        τ.pre.registry.data.runAction action = some τ.post.registry.data := by
  have hrun := isRun_trace (next 1000) [.newOutput 1001, .newSeat 1002, .manageStart,
    .bindingPressed 14] (new .default true false false)
  exact ⟨_, hrun, by decide +kernel, press_runs hrun (by decide +kernel)⟩

end Keyboard

end Streamwm
