import Streamwm.Lid

/-!
# Retries and profiles of the lid listener

Two properties of every run of the listener, each as a predicate on the state after a
turn. `Listener.Retried` : with the lid open and only the internal panel connected, a
recovery that failed has a retry scheduled. `Listener.Followed` : the profile setting tried
last is the one for the lid state and the topology the turn observed.

Neither holds of every run. A turn breaks the first exactly when it is `Unretried`
(`retried_turn_iff`) : the very first turn, or a lid that opens over an unchanged topology;
both leave the timers cleared whatever their recovery reported. A turn breaks the second
exactly when it is `Strayed` (`followed_turn_iff`) : a lid that opens chooses its profile by
the topology after its last sleep, but it is the topology from before the sleeps that
`prev_topology` remembers.
-/

namespace Streamwm

namespace Lid

open Transition

namespace Listener

variable {s : Listener} {config : LidConfig} {tick : Tick}

/-! ## The variables of the loop -/

/-- What every turn leaves in the variables. -/
structure Known (s : Listener) : Prop where
  both : s.prevLidClosed = none ↔ s.prevTopology = none
  /-- Retries are scheduled only with the lid open. -/
  cleared : s.prevLidClosed ≠ some false → s.undockedRetry = none ∧ s.recoveryRetry = none

theorem known_new : Known new :=
  ⟨iff_of_true rfl rfl, fun _ => ⟨rfl, rfl⟩⟩

/-- With the lid closed the timers are cleared. -/
theorem reactToTopology_closed (topology : DisplayTopology) (initialState topologyChanged : Bool) :
    (s.reactToTopology config tick true topology initialState topologyChanged).undockedRetry =
        none ∧
      (s.reactToTopology config tick true topology initialState topologyChanged).recoveryRetry =
        none := by
  unfold reactToTopology
  rw [if_neg (by simp)]
  split <;> exact ⟨rfl, rfl⟩

theorem Known.turn (config : LidConfig) (tick : Tick) : Known (s.turn config tick) := by
  refine ⟨iff_of_false (Option.some_ne_none _) (Option.some_ne_none _), fun hne => ?_⟩
  have hclosed : s.observedClosed tick = true := by
    cases h : s.observedClosed tick
    · exact absurd (congrArg some h) hne
    · rfl
  simp only [Listener.turn, hclosed]
  exact reactToTopology_closed _ _ _

variable (tick) in
/-- A timer that is not set is not due. -/
theorem Known.retryDue_eq_false (hk : Known s) (hne : s.prevLidClosed ≠ some false) :
    s.retryDue tick = false := by
  obtain ⟨hu, hr⟩ := hk.cleared hne
  simp [retryDue, hu, hr]

/-! ## The topology's reaction -/

theorem shouldRecoverUndocked_open (topology : DisplayTopology) (topologyChanged due : Bool) :
    shouldRecoverUndocked false topology topologyChanged due =
      (topology.internalOnly && (topologyChanged || due)) := rfl

variable {topology : DisplayTopology} {topologyChanged : Bool}

variable (s config tick topologyChanged) in
/-- An open lid over the internal panel alone, and a recovery that is called for. -/
theorem reactToTopology_recovers (hint : topology.internalOnly = true)
    (hdue : topologyChanged = true ∨ s.retryDue tick = true) :
    (s.reactToTopology config tick false topology false topologyChanged).shell =
        (s.shell.recoverUndocked config tick.topologyOutcomes).2 ∧
      (s.reactToTopology config tick false topology false topologyChanged).recoveryRetry =
        if tick.topologyOutcomes.recovers config then none
        else some (tick.recoveredAt + recoveryRetryInterval) := by
  have hrec : shouldRecoverUndocked false topology topologyChanged (s.retryDue tick) = true := by
    rw [shouldRecoverUndocked_open, hint, Bool.true_and, Bool.or_eq_true]
    exact hdue
  rw [← s.shell.recoverUndocked_fst config tick.topologyOutcomes]
  unfold reactToTopology
  rw [if_pos (by simp), if_pos hrec]
  exact ⟨rfl, rfl⟩

/-- An open lid over the internal panel alone, and nothing that is called for. -/
theorem reactToTopology_waits (hint : topology.internalOnly = true)
    (hdue : s.retryDue tick = false) :
    s.reactToTopology config tick false topology false false = s := by
  have hrec : ¬shouldRecoverUndocked false topology false (s.retryDue tick) = true := by
    simp [shouldRecoverUndocked_open, hdue]
  obtain ⟨hi, he⟩ : topology.internalConnected = true ∧ topology.externalConnected = false := by
    simpa [DisplayTopology.internalOnly] using hint
  unfold reactToTopology
  rw [if_pos (by simp), if_neg hrec, if_neg (by simp), if_neg (by simp [hi, he])]

/-- The topology is the one before, and no recovery is called for. -/
theorem shell_reactToTopology_idle {closed : Bool}
    (hidle : closed = true ∨ (topology.internalOnly && s.retryDue tick) = false) :
    (s.reactToTopology config tick closed topology false false).shell = s.shell := by
  unfold reactToTopology
  cases closed with
  | true => rw [if_neg (by simp), if_neg (by simp)]; rfl
  | false =>
    have hrec : ¬shouldRecoverUndocked false topology false (s.retryDue tick) = true := by
      rw [shouldRecoverUndocked_open, Bool.false_or, hidle.resolve_left Bool.false_ne_true]
      exact Bool.false_ne_true
    rw [if_pos (by simp), if_neg hrec, if_neg (by simp)]
    split <;> rfl

/-- The very first turn leaves it to the lid's reaction. -/
theorem reactToTopology_initial (closed : Bool) :
    s.reactToTopology config tick closed topology true topologyChanged = s.clearRetries := by
  unfold reactToTopology
  rw [if_neg (by simp), if_neg (by simp)]

/-- A topology that changed is met by the profile for it, if there is one. -/
theorem switched_reactToTopology_changed {closed : Bool}
    (hconn : closed = true ∨ topology.internalConnected = true ∨ topology.externalConnected = true) :
    (s.reactToTopology config tick closed topology false true).shell.switched =
      s.shell.switched ++ [config.currentSetting closed topology] := by
  cases closed with
  | true =>
    unfold reactToTopology
    rw [if_neg (by simp), if_pos (by simp)]
    exact Shell.switched_applyClosedProfile _ _ _ _
  | false =>
    cases hint : topology.internalOnly with
    | true =>
      rw [(reactToTopology_recovers _ _ _ _ hint (.inl rfl)).1, Shell.switched_recoverUndocked]
      simp [LidConfig.currentSetting, LidConfig.openSetting, hint]
    | false =>
      have hrec : ¬shouldRecoverUndocked false topology true (s.retryDue tick) = true := by
        simp [shouldRecoverUndocked_open, hint]
      have hext : topology.externalConnected = true := by
        rcases hconn with hconn | hconn | hconn
        · exact absurd hconn Bool.false_ne_true
        · simpa [DisplayTopology.internalOnly, hconn] using hint
        · exact hconn
      unfold reactToTopology
      rw [if_pos (by simp), if_neg hrec, if_pos (by simp [hext])]
      simp [LidConfig.currentSetting, LidConfig.openSetting, hint]

/-! ## The lid's reaction -/

variable (config tick) in
/-- The listener between the two halves of a turn. -/
def afterLid (s : Listener) : Listener :=
  { s with shell := s.reactToLid config tick (s.observedClosed tick) (tick.topology config) }

theorem turn_eq : s.turn config tick =
    { (s.afterLid config tick).reactToTopology config tick (s.observedClosed tick)
        (tick.topology config) s.prevTopology.isNone
        (s.prevTopology != some (tick.topology config)) with
      prevLidClosed := some (s.observedClosed tick)
      prevTopology := some (tick.topology config) } := rfl

theorem afterLid_initial (hlid : s.prevLidClosed = none) :
    (s.afterLid config tick).shell = (s.shell.applyCurrentProfile config tick.lidOutcomes
      (s.observedClosed tick) (tick.topology config)).2 := by
  simp [afterLid, reactToLid, hlid]

theorem afterLid_same (hlid : s.prevLidClosed = some (s.observedClosed tick)) :
    (s.afterLid config tick).shell = s.shell := by
  simp [afterLid, reactToLid, hlid]

theorem afterLid_closes (hlid : s.prevLidClosed = some false) (hc : s.observedClosed tick = true) :
    (s.afterLid config tick).shell =
      (s.shell.applyClosedProfile config tick.lidOutcomes (tick.topology config)).2 := by
  simp [afterLid, reactToLid, hlid, hc]

theorem afterLid_opens (hlid : s.prevLidClosed = some true) (ho : s.observedClosed tick = false) :
    (s.afterLid config tick).shell =
      ((s.shell.recoverOpenOutputs config tick.lidOutcomes
        (tick.debouncedTopology config)).2.recoverOpenOutputs config tick.retriedOutcomes
          (tick.retriedTopology config)).2 := by
  simp [afterLid, reactToLid, hlid, ho]

/-! ## Retries -/

/-- With the lid open and only the internal panel connected, a retry is scheduled if the
most recent recovery reported failure. -/
def Retried (s : Listener) : Prop :=
  ∀ topology, s.prevLidClosed = some false → s.prevTopology = some topology →
    topology.internalOnly = true → s.shell.recoveries.getLast? = some false →
      s.undockedRetry.isSome = true ∨ s.recoveryRetry.isSome = true

variable (s config tick) in
/-- The report of the most recent recovery, once a lid that opens has been reacted to. -/
def openReport : Option Bool :=
  if (tick.retriedTopology config).internalOnly then some (tick.retriedOutcomes.recovers config)
  else if (tick.debouncedTopology config).internalOnly then some (tick.lidOutcomes.recovers config)
  else s.shell.recoveries.getLast?

variable (s config tick) in
/-- A turn that observes the lid open and only the internal panel, and that is either the
first one and its recovery fails, or sees the lid open over the topology of the turn
before, the most recent recovery having failed. -/
def Unretried : Prop :=
  s.observedClosed tick = false ∧ (tick.topology config).internalOnly = true ∧
    ((s.prevLidClosed = none ∧ tick.lidOutcomes.recovers config = false) ∨
      (s.prevLidClosed = some true ∧ s.prevTopology = some (tick.topology config) ∧
        s.openReport config tick = some false))

instance : Decidable (s.Unretried config tick) := inferInstanceAs (Decidable (_ ∧ _ ∧ (_ ∨ _)))

theorem retried_new : Retried new := by
  intro _ hlid
  cases hlid

theorem getLast?_recoveries_opens (hlid : s.prevLidClosed = some true)
    (ho : s.observedClosed tick = false) :
    (s.afterLid config tick).shell.recoveries.getLast? = s.openReport config tick := by
  rw [afterLid_opens hlid ho, Shell.recoveries_recoverOpenOutputs,
    Shell.recoveries_recoverOpenOutputs, openReport]
  split
  · exact List.getLast?_concat
  · split
    · exact List.getLast?_concat
    · rfl

/-- What `Retried` says after a turn over the internal panel alone. -/
theorem retried_turn (ho : s.observedClosed tick = false)
    (hint : (tick.topology config).internalOnly = true) :
    Retried (s.turn config tick) ↔
      ((s.turn config tick).shell.recoveries.getLast? = some false →
        (s.turn config tick).undockedRetry.isSome = true ∨
          (s.turn config tick).recoveryRetry.isSome = true) := by
  constructor
  · intro h
    exact h (tick.topology config) (congrArg some ho) rfl hint
  · intro h _ _ _ _
    exact h

/-- The very first turn. -/
theorem retried_turn_initial (hlid : s.prevLidClosed = none) (htop : s.prevTopology = none)
    (ho : s.observedClosed tick = false) (hint : (tick.topology config).internalOnly = true) :
    Retried (s.turn config tick) ↔ tick.lidOutcomes.recovers config = true := by
  have hturn : s.turn config tick = { (s.afterLid config tick).clearRetries with
      prevLidClosed := some (s.observedClosed tick)
      prevTopology := some (tick.topology config) } := by
    rw [turn_eq, htop]
    simp only [Option.isNone_none, reactToTopology_initial]
  have hrec : (s.afterLid config tick).shell.recoveries.getLast? =
      some (tick.lidOutcomes.recovers config) := by
    rw [afterLid_initial hlid, ho]
    simp [Shell.applyCurrentProfile, hint]
  rw [retried_turn ho hint, hturn]
  simp only [clearRetries, hrec]
  simp

/-- A recovery in the second half schedules its own retry. -/
theorem retried_turn_recovers (htop : s.prevTopology.isNone = false)
    (ho : s.observedClosed tick = false) (hint : (tick.topology config).internalOnly = true)
    (hdue : (s.prevTopology != some (tick.topology config)) = true ∨ s.retryDue tick = true) :
    Retried (s.turn config tick) := by
  obtain ⟨hshell, hretry⟩ := reactToTopology_recovers (s.afterLid config tick) config tick _ hint hdue
  rw [retried_turn ho hint, turn_eq, ho, htop]
  dsimp only
  rw [hshell, hretry, Shell.recoveries_recoverUndocked, List.getLast?_concat]
  intro hfail
  rw [Option.some.inj hfail]
  exact .inr rfl

/-- Without a recovery in the second half, the timers are those of before. -/
theorem retried_turn_waits (htop : s.prevTopology = some (tick.topology config))
    (ho : s.observedClosed tick = false) (hint : (tick.topology config).internalOnly = true)
    (hdue : s.retryDue tick = false) :
    Retried (s.turn config tick) ↔
      ((s.afterLid config tick).shell.recoveries.getLast? = some false →
        s.undockedRetry.isSome = true ∨ s.recoveryRetry.isSome = true) := by
  have hwait : (s.afterLid config tick).reactToTopology config tick false (tick.topology config)
      false false = s.afterLid config tick := reactToTopology_waits hint hdue
  rw [retried_turn ho hint, turn_eq, ho, htop]
  simp only [Option.isNone_some, bne_self_eq_false, hwait]
  rfl

/-- A turn is followed by a scheduled retry, where one is needed, exactly when it is not
`Unretried`. -/
theorem retried_turn_iff (hk : Known s) (hr : Retried s) :
    Retried (s.turn config tick) ↔ ¬s.Unretried config tick := by
  cases ho : s.observedClosed tick with
  | true =>
    refine iff_of_true (fun _ hlid => ?_) fun hun => Bool.false_ne_true (hun.1.symm.trans ho)
    exact Bool.noConfusion (Option.some.inj hlid |>.symm.trans ho)
  | false =>
    cases hint : (tick.topology config).internalOnly with
    | false =>
      refine iff_of_true (fun topology _ htop htrue => ?_) fun hun =>
        Bool.false_ne_true (hint.symm.trans hun.2.1)
      rw [← Option.some.inj htop, hint] at htrue
      exact absurd htrue Bool.false_ne_true
    | true =>
      cases hlid : s.prevLidClosed with
      | none =>
        rw [retried_turn_initial hlid (hk.both.mp hlid) ho hint]
        simp [Unretried, ho, hint, hlid]
      | some prev =>
        have hknown : s.prevTopology ≠ none := fun h => by simp [hk.both.mpr h] at hlid
        by_cases hcall : (s.prevTopology != some (tick.topology config)) = true ∨
            s.retryDue tick = true
        · refine iff_of_true (retried_turn_recovers (Option.isNone_eq_false_iff.mpr
            (Option.isSome_iff_ne_none.mpr hknown)) ho hint hcall) ?_
          rintro ⟨-, -, ⟨hnone, -⟩ | ⟨htrue, hsame, -⟩⟩
          · simp [hlid] at hnone
          · have hdue := hcall.resolve_left (by simp [hsame])
            rw [hk.retryDue_eq_false _ (by simp [htrue])] at hdue
            exact Bool.false_ne_true hdue
        · obtain ⟨hsame, hdue⟩ := not_or.mp hcall
          have htop : s.prevTopology = some (tick.topology config) := by simpa using hsame
          rw [retried_turn_waits htop ho hint (by simpa using hdue)]
          cases prev with
          | false =>
            rw [afterLid_same (hlid.trans (congrArg some ho.symm))]
            exact iff_of_true (hr _ hlid htop hint) fun hun => by simp [Unretried, hlid] at hun
          | true =>
            obtain ⟨hu, hre⟩ := hk.cleared (by simp [hlid])
            rw [getLast?_recoveries_opens hlid ho, hu, hre]
            simp [Unretried, ho, hint, hlid, htop]

/-- A retry that is due is made by a turn that observes what the turn before did. -/
theorem retry_when_due (hlid : s.prevLidClosed = some false)
    (htop : s.prevTopology = some (tick.topology config)) (ho : s.observedClosed tick = false)
    (hint : (tick.topology config).internalOnly = true) (hdue : s.retryDue tick = true) :
    (s.turn config tick).shell.recoveries =
      s.shell.recoveries ++ [tick.topologyOutcomes.recovers config] := by
  have hshell := (reactToTopology_recovers (s.afterLid config tick) config tick false hint
    (.inr hdue)).1
  rw [turn_eq, ho, htop]
  simp only [Option.isNone_some, bne_self_eq_false]
  rw [hshell, Shell.recoveries_recoverUndocked, afterLid_same (hlid.trans (congrArg some ho.symm))]

/-- A laptop with its panel on `eDP-1`. -/
def laptop : LidConfig :=
  { closeProfile := "closed", openProfile := "open", undockedProfile := "undocked"
    internalOutput := "eDP-1" }

/-- Only the panel is connected. -/
def panelOnly : Listing := some [⟨some "card1-eDP-1", some "connected\n"⟩]

/-- The panel and a dock are connected. -/
def docked : Listing :=
  some [⟨some "card1-eDP-1", some "connected\n"⟩, ⟨some "card1-DP-2", some "connected\n"⟩]

/-- A turn with the listings given, every command with the outcome `ok`. -/
def plainTick (events : List Bool) (listing debounced retried : Listing) (ok : Bool) : Tick :=
  { events, listing, debounced, retried, undockedNow := 0, recoveryNow := 0, recoveredAt := 0
    lidOutcomes := fun _ => ok, retriedOutcomes := fun _ => ok, topologyOutcomes := fun _ => ok }

/-- In every run, the retry that a failed recovery needs is scheduled after every turn exactly
when no turn is `Unretried`; and a retry that is due is made. -/
theorem failed_recovery_retried (config : LidConfig)
    {τs : List (Transition.Step Listener Tick)} (h : IsRun (Step config) new τs) :
    ((∀ τ ∈ τs, Retried τ.post) ↔ ∀ τ ∈ τs, ¬τ.pre.Unretried config τ.event) ∧
    ∀ τ ∈ τs, τ.pre.prevLidClosed = some false →
      τ.pre.prevTopology = some (τ.event.topology config) →
      τ.pre.observedClosed τ.event = false → (τ.event.topology config).internalOnly = true →
      τ.pre.retryDue τ.event = true →
        τ.post.shell.recoveries =
          τ.pre.shell.recoveries ++ [τ.event.topologyOutcomes.recovers config] := by
  constructor
  · refine h.forall_post_iff (J := Known) (C := fun s tick => ¬s.Unretried config tick) ?_ ?_
      known_new retried_new
    · rintro s tick _ - rfl
      exact Known.turn config tick
    · rintro s tick _ hk hr rfl
      exact retried_turn_iff hk hr
  · intro τ hτ hlid htop ho hint hdue
    have hpost : τ.pre.turn config τ.event = τ.post := h.step_of_mem hτ
    rw [← hpost]
    exact retry_when_due hlid htop ho hint hdue

/-- A dock is unplugged with the lid open, and kanshi fails : the retry is scheduled. -/
theorem failed_recovery_retried_undock :
    ∃ τs, IsRun (Step laptop) new τs ∧ τs.length = 2 ∧ ∀ τ ∈ τs, Retried τ.post := by
  have hrun : IsRun (Step laptop) new _ :=
    .cons (e := plainTick [false] docked none none true) rfl
      (.cons (e := plainTick [] panelOnly none none false) rfl (.nil _))
  refine ⟨_, hrun, rfl, (failed_recovery_retried laptop hrun).1.mpr ?_⟩
  simp only [List.forall_mem_cons, List.not_mem_nil, false_implies, implies_true, and_true]
  exact ⟨by decide, by decide⟩

/-- kanshi is not up when the listener starts : the recovery of the first turn fails, and no
retry is scheduled. -/
theorem failed_recovery_not_retried :
    ∃ τs, IsRun (Step laptop) new τs ∧ ∃ τ ∈ τs, ¬Retried τ.post := by
  refine ⟨_, .cons (e := plainTick [false] panelOnly none none false) rfl (.nil _), _,
    List.mem_singleton_self _, fun h => ?_⟩
  have hretry := h { internalConnected := true, externalConnected := false } rfl rfl rfl rfl
  exact absurd hretry (by decide)

/-! ## Profiles -/

/-- The setting for a lid state and a topology; none for an open lid over nothing. -/
def target (config : LidConfig) (closed : Bool) (topology : DisplayTopology) : Option String :=
  match closed, topology.internalConnected, topology.externalConnected with
  | true, _, true => some config.closeProfile
  | true, _, false => some config.undockedProfile
  | false, true, false => some config.undockedProfile
  | false, _, true => some config.openProfile
  | false, false, false => none

/-- The code's choice is the target, where there is one. -/
theorem target_eq (closed : Bool) (topology : DisplayTopology) :
    target config closed topology =
      if closed = true ∨ topology.internalConnected = true ∨ topology.externalConnected = true then
        some (config.currentSetting closed topology)
      else none := by
  obtain ⟨internal, external⟩ := topology
  cases closed <;> cases internal <;> cases external <;>
    simp [target, LidConfig.currentSetting, LidConfig.closedSetting, LidConfig.openSetting,
      DisplayTopology.clamshellAvailable, DisplayTopology.internalOnly]

/-- The setting tried last is the target of the lid state and topology remembered. -/
def Followed (config : LidConfig) (s : Listener) : Prop :=
  ∀ closed topology setting, s.prevLidClosed = some closed → s.prevTopology = some topology →
    target config closed topology = some setting → s.shell.switched.getLast? = some setting

variable (s config tick) in
/-- The lid opens over the topology of the turn before, which has a target, and the
topology after the last sleep asks for another setting. -/
def Strayed : Prop :=
  s.observedClosed tick = false ∧ s.prevLidClosed = some true ∧
    s.prevTopology = some (tick.topology config) ∧
    (target config false (tick.topology config)).isSome = true ∧
    config.openSetting (tick.retriedTopology config) ≠ config.openSetting (tick.topology config)

instance : Decidable (s.Strayed config tick) := inferInstanceAs (Decidable (_ ∧ _ ∧ _ ∧ _ ∧ _ ≠ _))

theorem followed_new : Followed config new := by
  intro _ _ _ hlid
  cases hlid

/-- What `Followed` says after a turn. -/
theorem followed_turn : Followed config (s.turn config tick) ↔
    ∀ setting, target config (s.observedClosed tick) (tick.topology config) = some setting →
      (s.turn config tick).shell.switched.getLast? = some setting := by
  constructor
  · intro h setting hset
    exact h _ _ setting rfl rfl hset
  · intro h closed topology setting hlid htop hset
    obtain rfl := Option.some.inj hlid
    obtain rfl := Option.some.inj htop
    exact h setting hset

/-- Trying the setting the code chooses is enough. -/
theorem followed_turn_of_current (settings : List String)
    (hcur : (s.turn config tick).shell.switched =
      settings ++ [config.currentSetting (s.observedClosed tick) (tick.topology config)]) :
    Followed config (s.turn config tick) := by
  rw [followed_turn, hcur, List.getLast?_concat]
  intro setting hset
  rw [target_eq] at hset
  split at hset
  · exact hset
  · exact absurd hset.symm (Option.some_ne_none _)

theorem followed_turn_of_initial (hk : Known s) (hlid : s.prevLidClosed = none) :
    Followed config (s.turn config tick) := by
  refine followed_turn_of_current s.shell.switched ?_
  rw [turn_eq, hk.both.mp hlid]
  simp only [Option.isNone_none, reactToTopology_initial, clearRetries]
  rw [afterLid_initial hlid, Shell.switched_applyCurrentProfile]

theorem followed_turn_of_changed (htop : s.prevTopology.isNone = false)
    (hchanged : (s.prevTopology != some (tick.topology config)) = true) :
    Followed config (s.turn config tick) := by
  by_cases hconn : s.observedClosed tick = true ∨
      (tick.topology config).internalConnected = true ∨
      (tick.topology config).externalConnected = true
  · refine followed_turn_of_current (s.afterLid config tick).shell.switched ?_
    rw [turn_eq, htop, hchanged]
    exact switched_reactToTopology_changed hconn
  · rw [followed_turn]
    intro setting hset
    rw [target_eq, if_neg hconn] at hset
    exact absurd hset.symm (Option.some_ne_none _)

/-- An idle turn tries what the lid's reaction tries. -/
theorem shell_turn_idle (htop : s.prevTopology = some (tick.topology config))
    (hidle : s.observedClosed tick = true ∨
      ((tick.topology config).internalOnly && s.retryDue tick) = false) :
    (s.turn config tick).shell = (s.afterLid config tick).shell := by
  rw [turn_eq, htop]
  simp only [Option.isNone_some, bne_self_eq_false]
  exact shell_reactToTopology_idle hidle

/-- With the outputs unchanged and the lid closed, only a lid that has just closed is acted on. -/
theorem followed_turn_of_closed {prev : Bool} (hf : Followed config s)
    (hlid : s.prevLidClosed = some prev) (htop : s.prevTopology = some (tick.topology config))
    (hc : s.observedClosed tick = true) : Followed config (s.turn config tick) := by
  have hshell := shell_turn_idle htop (.inl hc)
  cases prev with
  | true =>
    rw [followed_turn, hshell, afterLid_same (hlid.trans (congrArg some hc.symm)), hc]
    exact fun setting => hf _ _ setting hlid htop
  | false =>
    refine followed_turn_of_current s.shell.switched ?_
    rw [hshell, afterLid_closes hlid hc, Shell.switched_applyClosedProfile, hc]
    rfl

/-- A lid that opens switches to the open profile. -/
theorem followed_turn_opens_iff (hk : Known s) (hlid : s.prevLidClosed = some true)
    (htop : s.prevTopology = some (tick.topology config)) (hc : s.observedClosed tick = false) :
    Followed config (s.turn config tick) ↔ ¬s.Strayed config tick := by
  have hdue := hk.retryDue_eq_false tick (by simp [hlid])
  have hshell := shell_turn_idle htop (.inr (by rw [hdue, Bool.and_false]))
  rw [followed_turn, hshell, afterLid_opens hlid hc, Shell.switched_recoverOpenOutputs,
    List.getLast?_concat, hc, target_eq]
  simp only [Strayed, hc, hlid, htop, target_eq, true_and]
  split
  · simp [LidConfig.currentSetting]
  · simp

/-- While the lid stays open, a retry that is due tries the target again. -/
theorem followed_turn_of_open (hf : Followed config s) (hlid : s.prevLidClosed = some false)
    (htop : s.prevTopology = some (tick.topology config)) (hc : s.observedClosed tick = false) :
    Followed config (s.turn config tick) := by
  have hsame : (s.afterLid config tick).shell = s.shell :=
    afterLid_same (hlid.trans (congrArg some hc.symm))
  cases hcall : (tick.topology config).internalOnly && s.retryDue tick with
  | true =>
    obtain ⟨hint, hdue⟩ := Bool.and_eq_true_iff.mp hcall
    refine followed_turn_of_current s.shell.switched ?_
    have hrec := (reactToTopology_recovers (s.afterLid config tick) config tick false hint
      (.inr hdue)).1
    rw [turn_eq, htop, hc]
    simp only [Option.isNone_some, bne_self_eq_false]
    rw [hrec, Shell.switched_recoverUndocked, hsame]
    simp [LidConfig.currentSetting, LidConfig.openSetting, hint]
  | false =>
    rw [followed_turn, shell_turn_idle htop (.inr hcall), hsame, hc]
    exact fun setting => hf _ _ setting hlid htop

/-- A turn leaves the setting tried last as the target exactly when it is not `Strayed`. -/
theorem followed_turn_iff (hk : Known s) (hf : Followed config s) :
    Followed config (s.turn config tick) ↔ ¬s.Strayed config tick := by
  cases hlid : s.prevLidClosed with
  | none =>
    exact iff_of_true (followed_turn_of_initial hk hlid) fun hst => by simp [Strayed, hlid] at hst
  | some prev =>
    have hknown : s.prevTopology.isNone = false := by
      rw [Option.isNone_eq_false_iff, Option.isSome_iff_ne_none]
      exact fun h => by simp [hk.both.mpr h] at hlid
    by_cases hchanged : (s.prevTopology != some (tick.topology config)) = true
    · exact iff_of_true (followed_turn_of_changed hknown hchanged) fun hst => by
        simp [hst.2.2.1] at hchanged
    have htop : s.prevTopology = some (tick.topology config) := by simpa using hchanged
    cases hc : s.observedClosed tick with
    | true =>
      exact iff_of_true (followed_turn_of_closed hf hlid htop hc) fun hst =>
        Bool.false_ne_true (hst.1.symm.trans hc)
    | false =>
      cases prev with
      | true => exact followed_turn_opens_iff hk hlid htop hc
      | false =>
        exact iff_of_true (followed_turn_of_open hf hlid htop hc) fun hst => by
          simp [Strayed, hlid] at hst

variable (s config tick) in
/-- A turn observes the lid state and the topology of the turn before. -/
def Unmoved : Prop :=
  s.prevLidClosed = some (s.observedClosed tick) ∧ s.prevTopology = some (tick.topology config)

variable (s config tick) in
/-- The setting tried last, after the turn, is the target of what it observes. -/
def Shows : Prop :=
  ∀ setting, target config (s.observedClosed tick) (tick.topology config) = some setting →
    (s.turn config tick).shell.switched.getLast? = some setting

/-- Timers that are not set stay so over an unchanged topology. -/
theorem retries_reactToTopology_idle (hu : s.undockedRetry = none) (hr : s.recoveryRetry = none) :
    (s.reactToTopology config tick false topology false false).undockedRetry = none ∧
      (s.reactToTopology config tick false topology false false).recoveryRetry = none := by
  have hrec : ¬shouldRecoverUndocked false topology false (s.retryDue tick) = true := by
    simp [shouldRecoverUndocked_open, retryDue, hu, hr]
  unfold reactToTopology
  rw [if_pos (by simp), if_neg hrec, if_neg (by simp)]
  split
  · exact ⟨rfl, rfl⟩
  · exact ⟨hu, hr⟩

/-- After a strayed turn, a turn that observes the same tries nothing. -/
theorem Strayed.not_shows (hk : Known s) (hst : s.Strayed config tick) {next : Tick}
    (hnext : (s.turn config tick).Unmoved config next) : ¬(s.turn config tick).Shows config next := by
  obtain ⟨ho, hlid, htop, hsome, hne⟩ := hst
  obtain ⟨hu, hr⟩ := hk.cleared (by simp [hlid])
  have hdue := hk.retryDue_eq_false tick (by simp [hlid])
  have hshell := shell_turn_idle htop (.inr (by rw [hdue, Bool.and_false]))
  -- the timers are not set, so that the next turn is idle
  have hcleared : (s.turn config tick).undockedRetry = none ∧
      (s.turn config tick).recoveryRetry = none := by
    rw [turn_eq, ho, htop]
    simp only [Option.isNone_some, bne_self_eq_false]
    exact retries_reactToTopology_idle hu hr
  have hdue' : (s.turn config tick).retryDue next = false := by
    simp [retryDue, hcleared.1, hcleared.2]
  obtain ⟨hlid', htop'⟩ := hnext
  have hc' : (s.turn config tick).observedClosed next = false :=
    (Option.some.inj hlid').symm.trans ho
  have hsame : next.topology config = tick.topology config := (Option.some.inj htop').symm
  have hshell' := shell_turn_idle htop' (.inr (by rw [hdue', Bool.and_false]))
  obtain ⟨setting, hset⟩ := Option.isSome_iff_exists.mp hsome
  intro hshows
  have hlast := hshows setting (by rw [hc', hsame]; exact hset)
  rw [hshell', afterLid_same hlid', hshell, afterLid_opens hlid ho,
    Shell.switched_recoverOpenOutputs, List.getLast?_concat, Option.some.injEq] at hlast
  rw [target_eq] at hset
  split at hset
  · exact hne (hlast.trans (Option.some.inj hset).symm)
  · exact Option.some_ne_none _ hset.symm

/-- In every run, the setting tried last is the target after every turn exactly when no
turn is `Strayed`; then every turn that observes what the one before did shows it. After a
strayed turn, no such turn does. -/
theorem profile_follows (config : LidConfig) {τs : List (Transition.Step Listener Tick)}
    (h : IsRun (Step config) new τs) :
    ((∀ τ ∈ τs, Followed config τ.post) ↔ ∀ τ ∈ τs, ¬τ.pre.Strayed config τ.event) ∧
    ((∀ τ ∈ τs, ¬τ.pre.Strayed config τ.event) →
      ∀ τ ∈ τs, τ.pre.Unmoved config τ.event → τ.pre.Shows config τ.event) ∧
    ∀ τ ∈ τs, τ.pre.Strayed config τ.event →
      ∀ next, τ.post.Unmoved config next → ¬τ.post.Shows config next := by
  have hiff : (∀ τ ∈ τs, Followed config τ.post) ↔ ∀ τ ∈ τs, ¬τ.pre.Strayed config τ.event := by
    refine h.forall_post_iff (J := Known) (P := Followed config)
      (C := fun s tick => ¬s.Strayed config tick) ?_ ?_ known_new followed_new
    · rintro s tick _ - rfl
      exact Known.turn config tick
    · rintro s tick _ hk hf rfl
      exact followed_turn_iff hk hf
  have hknown : ∀ τ ∈ τs, Known τ.pre ∧ Known τ.post := by
    refine h.invariant ?_ known_new
    rintro s tick _ - rfl
    exact Known.turn config tick
  refine ⟨hiff, fun hall τ hτ _ => ?_, fun τ hτ hst next hnext => ?_⟩
  · have hfollowed := hiff.mpr hall τ hτ
    rw [← h.step_of_mem hτ] at hfollowed
    exact followed_turn.mp hfollowed
  · have hpost : τ.pre.turn config τ.event = τ.post := h.step_of_mem hτ
    rw [← hpost] at hnext ⊢
    exact hst.not_shows (hknown τ hτ).1 hnext

/-- The listener starts with the lid closed, it opens, and then nothing moves. -/
def opening (first retried : Listing) : List Tick :=
  [plainTick [true] first none none true, plainTick [false] first first retried true,
    plainTick [] first none none true]

theorem opening_run (first retried : Listing) :
    IsRun (Step laptop) new
      (trace (fun s tick => some (s.turn laptop tick)) new (opening first retried)) := by
  refine (isRun_trace _ _ _).mono fun s tick s' hs => ?_
  exact Option.some.inj hs

/-- The panel alone all the way : every turn shows its target. -/
theorem profile_follows_opening :
    ∃ τs, IsRun (Step laptop) new τs ∧ τs.length = 3 ∧
      ∀ τ ∈ τs, τ.pre.Unmoved laptop τ.event → τ.pre.Shows laptop τ.event :=
  ⟨_, opening_run panelOnly panelOnly, rfl,
    (profile_follows laptop (opening_run panelOnly panelOnly)).2.1 (by decide)⟩

/-- The panel drops out for the last reading after the lid opens. The next turn observes the
panel again, as the turn before did, and the open profile stays. -/
theorem profile_not_followed :
    ∃ τs, IsRun (Step laptop) new τs ∧
      ∃ τ ∈ τs, τ.pre.Unmoved laptop τ.event ∧ ¬τ.pre.Shows laptop τ.event := by
  refine ⟨_, opening_run panelOnly none, _, List.mem_of_getElem? (i := 2) rfl, ⟨rfl, rfl⟩,
    fun hshows => ?_⟩
  exact absurd (hshows "undocked" rfl) (by decide)

end Listener

end Lid

end Streamwm
