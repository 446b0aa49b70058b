import Streamwm.Bindings
import Streamwm.Library.Transition

/-!
# The lid listener

`run` of `src/lid.rs` : a loop that polls the connectors in `/sys/class/drm`, takes the
lid events logind sent, and switches kanshi's profile and the internal panel by external
commands. `Listener.tick` is one turn of the loop.

What a turn meets is its `Tick` : the events that wait, the listing each call of
`display_topology` finds, the readings of the clock, and for each place that runs commands
the outcome of the `k`-th one there. `Shell` records what was run : the commands, the
profile settings handed to `switch_kanshi_profile`, and the reports of
`recover_undocked`. Nothing reads that record but the theorems. Instants are nanoseconds.
-/

namespace Streamwm

namespace Lid

open Transition

/-! ## Connectors -/

/-- An entry of `/sys/class/drm`. -/
structure DrmEntry where
  /-- The file name, unless it is not UTF-8. -/
  name : Option String
  /-- What its `status` file holds, if it can be read. -/
  status : Option String

/-- What `read_dir` finds; `none` when it fails. -/
abbrev Listing := Option (List DrmEntry)

/-- State representation of connected display outputs. -/
structure DisplayTopology where
  internalConnected : Bool
  externalConnected : Bool
  deriving DecidableEq

def drmOutputName (cardName : String) : Option String :=
  (splitOnce '-' cardName.toList).map fun parts => String.ofList parts.2

def DrmEntry.isConnected (entry : DrmEntry) : Bool :=
  match entry.status with
  | some status => trim status.toList == "connected".toList
  | none => false

/-- One entry of the listing. -/
def DisplayTopology.add (internalOutput : String) (topology : DisplayTopology) (entry : DrmEntry) :
    DisplayTopology :=
  match entry.name.bind drmOutputName with
  | none => topology
  | some output =>
    if entry.isConnected then
      if output = internalOutput then { topology with internalConnected := true }
      else { topology with externalConnected := true }
    else topology

/-- Read DRM connector state. -/
def displayTopology (internalOutput : String) (listing : Listing) : DisplayTopology :=
  (listing.getD []).foldl (DisplayTopology.add internalOutput)
    { internalConnected := false, externalConnected := false }

namespace DisplayTopology

variable (topology : DisplayTopology)

/-- Only the internal panel is connected. -/
def internalOnly : Bool := topology.internalConnected && !topology.externalConnected

/-- `clamshell_available` -/
def clamshellAvailable : Bool := topology.externalConnected

end DisplayTopology

/-! ## Commands -/

/-- The `[lid]` section of the configuration. -/
structure LidConfig where
  closeProfile : String
  openProfile : String
  undockedProfile : String
  internalOutput : String

/-- What was run so far, oldest first. -/
structure Shell where
  /-- Programs with their arguments. -/
  commands : List (String × List String)
  /-- The settings `switch_kanshi_profile` was called with. -/
  switched : List String
  /-- What `recover_undocked` reported. -/
  recoveries : List Bool

/-- The outcome of the `k`-th command run at one place. -/
abbrev Outcomes := ℕ → Bool

/-- The outcomes after the first `n`. -/
def Outcomes.after (outcomes : Outcomes) (n : ℕ) : Outcomes := fun k => outcomes (n + k)

/-- Split a comma-separated list into profile names. -/
def profileCandidates (profile : String) : List String :=
  ((splitOn (· == ',') profile.toList).map trim).filter (· ≠ []) |>.map String.ofList

namespace Shell

variable (sh : Shell)

/-- `run_command`; the outcome is the caller's. -/
def runCommand (program : String) (args : List String) : Shell :=
  { sh with commands := sh.commands ++ [(program, args)] }

/-- Try each candidate until one succeeds. -/
def tryProfiles (sh : Shell) : Outcomes → List String → Bool × Shell
  | _, [] => (false, sh)
  | outcomes, profile :: rest =>
    let sh := sh.runCommand "kanshictl" ["switch", profile]
    if outcomes 0 then (true, sh) else tryProfiles sh (outcomes.after 1) rest

/-- `switch_kanshi_profile`, and `apply_profile` but for its log line. -/
def switchKanshiProfile (outcomes : Outcomes) (profile : String) : Bool × Shell :=
  tryProfiles { sh with switched := sh.switched ++ [profile] } outcomes (profileCandidates profile)

/-- Re-enable the internal panel and switch to the undocked profile. -/
def recoverUndocked (config : LidConfig) (outcomes : Outcomes) : Bool × Shell :=
  let sh := sh.runCommand "wlr-randr" ["--output", config.internalOutput, "--on", "--preferred"]
  let outputOk := outcomes 0
  let (profileOk, sh) := sh.switchKanshiProfile (outcomes.after 1) config.undockedProfile
  (outputOk && profileOk, { sh with recoveries := sh.recoveries ++ [outputOk && profileOk] })

/-- Apply clamshell only when an external display is available. -/
def applyClosedProfile (config : LidConfig) (outcomes : Outcomes) (topology : DisplayTopology) :
    Bool × Shell :=
  if topology.clamshellAvailable then sh.switchKanshiProfile outcomes config.closeProfile
  else sh.recoverUndocked config outcomes

/-- Recover outputs for an open lid. -/
def recoverOpenOutputs (config : LidConfig) (outcomes : Outcomes) (topology : DisplayTopology) :
    Bool × Shell :=
  if topology.internalOnly then sh.recoverUndocked config outcomes
  else sh.switchKanshiProfile outcomes config.openProfile

/-- Apply the profile matching the current lid state and connector topology. -/
def applyCurrentProfile (config : LidConfig) (outcomes : Outcomes) (closed : Bool)
    (topology : DisplayTopology) : Bool × Shell :=
  if closed then sh.applyClosedProfile config outcomes topology
  else if topology.internalOnly then sh.recoverUndocked config outcomes
  else sh.switchKanshiProfile outcomes config.openProfile

end Shell

/-! ### What they leave behind -/

/-- One of the first `n` commands succeeds. -/
def Outcomes.anyOf (outcomes : Outcomes) (n : ℕ) : Bool := (List.range n).any outcomes

/-- Some candidate of the profile setting is switched to. -/
def Outcomes.switches (outcomes : Outcomes) (profile : String) : Bool :=
  outcomes.anyOf (profileCandidates profile).length

/-- Both commands of a recovery succeed. -/
def Outcomes.recovers (outcomes : Outcomes) (config : LidConfig) : Bool :=
  outcomes 0 && (outcomes.after 1).switches config.undockedProfile

theorem Outcomes.anyOf_succ (outcomes : Outcomes) (n : ℕ) :
    outcomes.anyOf (n + 1) = (outcomes 0 || (outcomes.after 1).anyOf n) := by
  rw [anyOf, anyOf, List.range_succ_eq_map, List.any_cons, List.any_map]
  congr 2
  funext k
  exact congrArg outcomes (Nat.add_comm k 1)

namespace LidConfig

variable (config : LidConfig)

/-- The setting `apply_closed_profile` chooses. -/
def closedSetting (topology : DisplayTopology) : String :=
  if topology.clamshellAvailable then config.closeProfile else config.undockedProfile

/-- The setting `recover_open_outputs` chooses. -/
def openSetting (topology : DisplayTopology) : String :=
  if topology.internalOnly then config.undockedProfile else config.openProfile

/-- The setting `apply_current_profile` chooses. -/
def currentSetting (closed : Bool) (topology : DisplayTopology) : String :=
  if closed then config.closedSetting topology else config.openSetting topology

end LidConfig

namespace Shell

variable (sh : Shell) (config : LidConfig) (outcomes : Outcomes) (topology : DisplayTopology)

theorem tryProfiles_spec : ∀ (profiles : List String) (sh : Shell) (outcomes : Outcomes),
    (sh.tryProfiles outcomes profiles).1 = outcomes.anyOf profiles.length ∧
      (sh.tryProfiles outcomes profiles).2.switched = sh.switched ∧
      (sh.tryProfiles outcomes profiles).2.recoveries = sh.recoveries
  | [], _, _ => ⟨rfl, rfl, rfl⟩
  | profile :: rest, sh, outcomes => by
    obtain ⟨hfst, hsw, hrec⟩ :=
      tryProfiles_spec rest (sh.runCommand "kanshictl" ["switch", profile]) (outcomes.after 1)
    rw [tryProfiles, List.length_cons, Outcomes.anyOf_succ]
    cases h : outcomes 0
    · simp only [Bool.false_eq_true, if_false, Bool.false_or]
      exact ⟨hfst, hsw, hrec⟩
    · simp [runCommand]

@[simp] theorem switchKanshiProfile_fst (profile : String) :
    (sh.switchKanshiProfile outcomes profile).1 = outcomes.switches profile :=
  (tryProfiles_spec _ _ _).1

@[simp] theorem switched_switchKanshiProfile (profile : String) :
    (sh.switchKanshiProfile outcomes profile).2.switched = sh.switched ++ [profile] :=
  (tryProfiles_spec _ _ _).2.1

@[simp] theorem recoveries_switchKanshiProfile (profile : String) :
    (sh.switchKanshiProfile outcomes profile).2.recoveries = sh.recoveries :=
  (tryProfiles_spec _ _ _).2.2

@[simp] theorem recoverUndocked_fst :
    (sh.recoverUndocked config outcomes).1 = outcomes.recovers config := by
  simp [recoverUndocked, Outcomes.recovers]

@[simp] theorem switched_recoverUndocked :
    (sh.recoverUndocked config outcomes).2.switched = sh.switched ++ [config.undockedProfile] := by
  simp [recoverUndocked, runCommand]

@[simp] theorem recoveries_recoverUndocked :
    (sh.recoverUndocked config outcomes).2.recoveries =
      sh.recoveries ++ [outcomes.recovers config] := by
  simp [recoverUndocked, runCommand, Outcomes.recovers]

@[simp] theorem switched_applyClosedProfile :
    (sh.applyClosedProfile config outcomes topology).2.switched =
      sh.switched ++ [config.closedSetting topology] := by
  unfold applyClosedProfile LidConfig.closedSetting
  split <;> simp

@[simp] theorem switched_recoverOpenOutputs :
    (sh.recoverOpenOutputs config outcomes topology).2.switched =
      sh.switched ++ [config.openSetting topology] := by
  unfold recoverOpenOutputs LidConfig.openSetting
  split <;> simp

@[simp] theorem recoveries_recoverOpenOutputs :
    (sh.recoverOpenOutputs config outcomes topology).2.recoveries =
      if topology.internalOnly then sh.recoveries ++ [outcomes.recovers config]
      else sh.recoveries := by
  unfold recoverOpenOutputs
  split <;> simp

@[simp] theorem switched_applyCurrentProfile (closed : Bool) :
    (sh.applyCurrentProfile config outcomes closed topology).2.switched =
      sh.switched ++ [config.currentSetting closed topology] := by
  cases closed
  · exact sh.switched_recoverOpenOutputs config outcomes topology
  · exact sh.switched_applyClosedProfile config outcomes topology

end Shell

/-! ## The loop -/

/-- What one turn of the loop meets. -/
structure Tick where
  /-- The lid events that wait, each the `LidClosed` property. -/
  events : List Bool
  /-- The listing at the top of the turn. -/
  listing : Listing
  /-- The listings after the two sleeps of a lid that opens. -/
  debounced : Listing
  retried : Listing
  /-- The clock, where the two retry timers are tested and at a recovery. -/
  undockedNow : ℕ
  recoveryNow : ℕ
  recoveredAt : ℕ
  /-- Outcomes of the commands of the lid's reaction, and of the one after the second sleep. -/
  lidOutcomes : Outcomes
  retriedOutcomes : Outcomes
  /-- Outcomes of the commands of the topology's reaction. -/
  topologyOutcomes : Outcomes

namespace Tick

variable (tick : Tick) (config : LidConfig)

/-- The topology a turn observes. -/
def topology : DisplayTopology := displayTopology config.internalOutput tick.listing

/-- The topologies read after the two sleeps. -/
def debouncedTopology : DisplayTopology := displayTopology config.internalOutput tick.debounced

def retriedTopology : DisplayTopology := displayTopology config.internalOutput tick.retried

end Tick

/-- The variables of `run`. -/
structure Listener where
  prevLidClosed : Option Bool
  prevTopology : Option DisplayTopology
  undockedRetry : Option (ℕ × ℕ)
  recoveryRetry : Option ℕ
  shell : Shell

def recoveryRetryInterval : ℕ := 30 * 1000000000

def undockedRetryDelays : List ℕ := [2 * 1000000000, 5 * 1000000000]

/-- Consume all pending lid events and return the final state. -/
def latestLidEvent (events : List Bool) : Option Bool := events.getLast?

def shouldRecoverUndocked (closed : Bool) (topology : DisplayTopology)
    (topologyChanged retryDue : Bool) : Bool :=
  !closed && topology.internalConnected && !topology.externalConnected &&
    (topologyChanged || retryDue)

namespace Listener

/-- The variables before the loop. -/
def new : Listener :=
  { prevLidClosed := none, prevTopology := none, undockedRetry := none, recoveryRetry := none
    shell := { commands := [], switched := [], recoveries := [] } }

variable (s : Listener) (config : LidConfig) (tick : Tick)

/-- The lid state a turn observes. -/
def observedClosed : Bool :=
  match latestLidEvent tick.events with
  | some closed => closed
  | none => s.prevLidClosed.getD false

/-- The profile switches for a lid that moved, or whose state was not known. -/
def reactToLid (closed : Bool) (topology : DisplayTopology) : Shell :=
  match s.prevLidClosed with
  | none => (s.shell.applyCurrentProfile config tick.lidOutcomes closed topology).2
  | some prev =>
    if closed != prev then
      if closed then (s.shell.applyClosedProfile config tick.lidOutcomes topology).2
      else
        let sh := (s.shell.recoverOpenOutputs config tick.lidOutcomes
          (tick.debouncedTopology config)).2
        (sh.recoverOpenOutputs config tick.retriedOutcomes (tick.retriedTopology config)).2
    else s.shell

/-- One of the two retry timers has run out. -/
def retryDue : Bool :=
  s.undockedRetry.any (fun retry => retry.2 ≤ tick.undockedNow) ||
    s.recoveryRetry.any (fun due => due ≤ tick.recoveryNow)

/-- `undocked_retry` after a recovery. -/
def nextUndockedRetry (topologyChanged : Bool) : Option (ℕ × ℕ) :=
  if topologyChanged then undockedRetryDelays[0]?.map fun delay => (0, tick.recoveredAt + delay)
  else
    match s.undockedRetry with
    | some (retry, _) =>
      undockedRetryDelays[retry + 1]?.map fun delay => (retry + 1, tick.recoveredAt + delay)
    | none => none

/-- No retry is scheduled. -/
def clearRetries : Listener := { s with undockedRetry := none, recoveryRetry := none }

/-- The second half of a turn : the topology's reaction and the retry timers. -/
def reactToTopology (closed : Bool) (topology : DisplayTopology)
    (initialState topologyChanged : Bool) : Listener :=
  if !closed && !initialState then
    if shouldRecoverUndocked closed topology topologyChanged (s.retryDue tick) then
      let (recovered, shell) := s.shell.recoverUndocked config tick.topologyOutcomes
      { s with
        recoveryRetry := if recovered then none else some (tick.recoveredAt + recoveryRetryInterval)
        undockedRetry := s.nextUndockedRetry tick topologyChanged
        shell }
    else if topologyChanged && topology.externalConnected then
      { s.clearRetries with
        shell := (s.shell.switchKanshiProfile tick.topologyOutcomes config.openProfile).2 }
    else if !topology.internalConnected || topology.externalConnected then s.clearRetries
    else s
  else if !initialState && topologyChanged then
    { s.clearRetries with
      shell := (s.shell.applyClosedProfile config tick.topologyOutcomes topology).2 }
  else s.clearRetries

/-- One turn of the loop. -/
def turn : Listener :=
  let closed := s.observedClosed tick
  let topology := tick.topology config
  let initialState := s.prevTopology.isNone
  let topologyChanged := s.prevTopology != some topology
  let s := { s with shell := s.reactToLid config tick closed topology }
  let s := s.reactToTopology config tick closed topology initialState topologyChanged
  { s with prevLidClosed := some closed, prevTopology := some topology }

/-- One turn of the loop, as a step. -/
def Step (config : LidConfig) (s : Listener) (tick : Tick) (s' : Listener) : Prop :=
  s.turn config tick = s'

end Listener

end Lid

end Streamwm
