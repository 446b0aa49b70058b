import Streamwm.Library.RollingWindow
import Streamwm.Library.Transition

/-!
# The supervisor's restart limit

`main.rs` runs the window manager as a child process. Each time that worker fails, the
supervisor drops the failures older than `RESTART_WINDOW` from the front of its queue,
adds the new one, and either gives up (more than `MAX_RESTARTS_IN_WINDOW` entries) or
starts the worker again after `restart_delay`. Instants are nanoseconds of the monotonic
clock.

`Watch` puts the whole history beside the supervisor : every failure and every restart so
far. `Watch.Exhausted` says that a failure is the last of six within less than the
window. The queue is the part of the history that lies in the window
(`Watch.Inv.failures`), so the supervisor's test is `Exhausted`. Restarts are shifted from
the failures by delays that depend on the queue's length; two restarts five apart are
still a window apart (`Watch.Inv.spaced`) : either the later delay is the longest one, or
the queue has already lost a failure that the earlier restart precedes.
-/

namespace Streamwm

open Transition

/-! ## The supervisor -/

/-- Rolling time window (60 seconds) within which worker crash restarts are counted. -/
def restartWindow : ℕ := 60 * 1000000000

/-- Maximum allowed crash restarts within `restartWindow`. -/
def maxRestartsInWindow : ℕ := 5

/-- Initial delay (250ms) before restarting a crashed worker. -/
def initialRestartDelay : ℕ := 250 * 1000000

/-- Maximum capped delay (4s) between supervisor restarts. -/
def maxRestartDelay : ℕ := 4 * 1000000000

/-- Exponential backoff based on recent failure count. -/
def restartDelay (recentFailures : ℕ) : ℕ :=
  let exponent := min (recentFailures - 1) 4
  min (initialRestartDelay * 1 <<< exponent) maxRestartDelay

/-- A failure that has left the window at `now`. -/
def expired (now failedAt : ℕ) : Bool := decide (restartWindow ≤ now - failedAt)

/-- What the supervisor is doing. -/
inductive Phase where
  /-- The worker runs since `started`, or is about to be started then. -/
  | running (started : ℕ)
  /-- It returned `ExitCode::FAILURE`. -/
  | gaveUp
  /-- It returned `ExitCode::SUCCESS`. -/
  | succeeded
deriving Repr, DecidableEq

structure Supervisor where
  failures : List ℕ
  phase : Phase
deriving Repr, DecidableEq

namespace Supervisor

/-- `supervise`, up to the first start of the worker. -/
def new (started : ℕ) : Supervisor := { failures := [], phase := .running started }

/-- One turn of `supervise`'s loop, for a worker that fails at `now`. -/
def workerFailed (s : Supervisor) (now : ℕ) : Supervisor :=
  let failures := s.failures.dropWhile (expired now) ++ [now]
  if failures.length > maxRestartsInWindow then { failures, phase := .gaveUp }
  else { failures, phase := .running (now + restartDelay failures.length) }

end Supervisor

/-- How a worker ends. -/
inductive WorkerExit where
  | failure (now : ℕ)
  | success
deriving Repr, DecidableEq

/-- The supervisor with every failure and every restart so far. -/
structure Watch where
  supervisor : Supervisor
  failed : List ℕ
  restarted : List ℕ
deriving Repr, DecidableEq

/-! ## Runs -/

namespace Watch

def new (started : ℕ) : Watch :=
  { supervisor := Supervisor.new started, failed := [], restarted := [] }

/-- The restart that a phase announces. -/
def restartOf : Phase → List ℕ
  | .running started => [started]
  | _ => []

/-- A worker that runs since `started` fails no earlier than that, or succeeds. -/
inductive Step : Watch → WorkerExit → Watch → Prop
  | failure {w : Watch} {started now : ℕ} (hrun : w.supervisor.phase = .running started)
      (hnow : started ≤ now) :
      Step w (.failure now)
        { supervisor := w.supervisor.workerFailed now, failed := w.failed ++ [now],
          restarted := w.restarted ++ restartOf (w.supervisor.workerFailed now).phase }
  | success {w : Watch} {started : ℕ} (hrun : w.supervisor.phase = .running started) :
      Step w .success { w with supervisor := { w.supervisor with phase := .succeeded } }

/-- Failure `k` and the five before it lie within less than the window. -/
def Exhausted (failed : List ℕ) (k : ℕ) : Prop :=
  maxRestartsInWindow ≤ k ∧ ∃ f g, failed[k - maxRestartsInWindow]? = some f ∧
    failed[k]? = some g ∧ g < f + restartWindow

/-- The failures of the window that ends at `now`. -/
def recent (now : ℕ) (failed : List ℕ) : List ℕ :=
  failed.filter fun f => decide (now < f + restartWindow)

end Watch

/-! ## Delays -/

theorem restartDelay_le (n : ℕ) : restartDelay n ≤ maxRestartDelay := min_le_right _ _

theorem restartDelay_max : restartDelay maxRestartsInWindow = maxRestartDelay := by decide

theorem not_expired_eq (now f : ℕ) :
    (!expired now f) = decide (now < f + restartWindow) := by
  have hpos : 0 < restartWindow := by decide
  rw [expired, ← decide_not, decide_eq_decide, not_le]
  constructor <;> intro h <;> omega

theorem expired_of_le {now : ℕ} (a b : ℕ) (hab : a ≤ b) (hb : expired now b = true) :
    expired now a = true := by
  simp only [expired, decide_eq_true_eq] at hb ⊢
  omega

namespace Watch

variable {failed : List ℕ} {now : ℕ}

/-! ## The window -/

/-- Dropping what has expired from the front leaves the window. -/
theorem dropWhile_expired (h : failed.Pairwise (· ≤ ·)) :
    failed.dropWhile (expired now) = recent now failed := by
  rw [RollingWindow.dropWhile_eq_filter expired_of_le h, recent]
  simp only [not_expired_eq]

/-- The window of a later instant is taken from the window of an earlier one. -/
theorem recent_recent {last : ℕ} (h : last ≤ now) :
    recent now (recent last failed) = recent now failed := by
  rw [recent, recent, recent, List.filter_filter]
  refine List.filter_congr fun f _ => ?_
  rw [← Bool.decide_and, decide_eq_decide]
  omega

theorem recent_concat : recent now (failed ++ [now]) = recent now failed ++ [now] := by
  have hpos : 0 < restartWindow := by decide
  rw [recent, List.filter_append, List.filter_singleton]
  simp [recent, hpos]

theorem recent_pairwise (h : failed.Pairwise (· ≤ ·)) : (recent now failed).Pairwise (· ≤ ·) :=
  h.filter _

/-- The window holds more than `n` failures exactly when the `n`-th newest lies in it. -/
theorem lt_length_recent_iff (h : failed.Pairwise (· ≤ ·)) (n : ℕ) :
    n < (recent now failed).length ↔
      n < failed.length ∧
        ∃ f, failed[failed.length - 1 - n]? = some f ∧ now < f + restartWindow := by
  have hwin := RollingWindow.lt_length_filter_iff (@expired_of_le now) h n
  have hnot (f : ℕ) : expired now f = false ↔ now < f + restartWindow := by
    rw [← decide_eq_true_iff (p := now < _), ← not_expired_eq, Bool.not_eq_true']
  simpa only [recent, not_expired_eq, hnot] using hwin

/-- The supervisor's test, on the history. -/
theorem exhausted_concat_iff (h : (failed ++ [now]).Pairwise (· ≤ ·)) :
    maxRestartsInWindow < (recent now (failed ++ [now])).length ↔
      Exhausted (failed ++ [now]) failed.length := by
  have hnow : (failed ++ [now])[failed.length]? = some now := by simp
  rw [lt_length_recent_iff h, Exhausted, List.length_append, List.length_singleton,
    Nat.add_sub_cancel, Nat.lt_succ_iff]
  refine and_congr_right fun _ => exists_congr fun f => ⟨?_, ?_⟩
  · rintro ⟨hf, hlt⟩
    exact ⟨now, hf, hnow, hlt⟩
  · rintro ⟨g, hf, hg, hlt⟩
    obtain rfl : g = now := Option.some.inj (hg.symm.trans hnow)
    exact ⟨hf, hlt⟩

theorem exhausted_append_iff {more : List ℕ} {k : ℕ} (hk : k < failed.length) :
    Exhausted (failed ++ more) k ↔ Exhausted failed k := by
  rw [Exhausted, Exhausted, List.getElem?_append_left hk,
    List.getElem?_append_left (by omega : k - maxRestartsInWindow < failed.length)]

/-! ## The history of a run -/

/-- The failures of the window that ends at the newest one. -/
def lastWindow (failed : List ℕ) : List ℕ :=
  match failed.getLast? with
  | some now => recent now failed
  | none => []

/-- What the history says about the supervisor and the restarts. -/
structure Inv (w : Watch) : Prop where
  /-- Failures are in order. -/
  ordered : w.failed.Pairwise (· ≤ ·)
  /-- The queue holds the failures of the window that ends at the newest one. -/
  failures : w.supervisor.failures = lastWindow w.failed
  /-- It gave up at the newest failure, or not at all. -/
  gaveUp : w.supervisor.phase = .gaveUp ↔ Exhausted w.failed (w.failed.length - 1)
  /-- Every failure but one it gave up at is followed by a restart. -/
  length_le : w.restarted.length ≤ w.failed.length
  le_length : w.failed.length ≤ w.restarted.length + 1
  /-- It did not give up at a failure that is followed by a restart. -/
  quiet : ∀ k < w.restarted.length, ¬Exhausted w.failed k
  /-- A restart comes `restart_delay` after its failure. -/
  delayed : ∀ k r, w.restarted[k]? = some r → ∃ f, w.failed[k]? = some f ∧
    r = f + restartDelay (recent f (w.failed.take (k + 1))).length
  /-- The next failure is no earlier than the restart. -/
  next : ∀ k r g, w.restarted[k]? = some r → w.failed[k + 1]? = some g → r ≤ g
  /-- The worker that runs is the one of the newest restart. -/
  running : ∀ started, w.supervisor.phase = .running started →
    w.restarted.length = w.failed.length ∧ (∀ f ∈ w.failed, f ≤ started) ∧
      ∀ r ∈ w.restarted.getLast?, r = started

theorem inv_new (started : ℕ) : Inv (new started) := by
  refine ⟨List.Pairwise.nil, rfl, ?_, le_rfl, Nat.zero_le _, ?_, ?_, ?_, ?_⟩
  · simp [new, Supervisor.new, Exhausted, maxRestartsInWindow]
  · intro k hk
    exact absurd hk (Nat.not_lt_zero k)
  · simp [new]
  · simp [new]
  · simp [new]

theorem lastWindow_concat (failed : List ℕ) (now : ℕ) :
    lastWindow (failed ++ [now]) = recent now (failed ++ [now]) := by
  rw [lastWindow, List.getLast?_concat]

/-- Pushing a failure on the queue. -/
theorem dropWhile_lastWindow (h : failed.Pairwise (· ≤ ·)) (hnow : ∀ f ∈ failed, f ≤ now) :
    (lastWindow failed).dropWhile (expired now) ++ [now] = lastWindow (failed ++ [now]) := by
  rw [lastWindow_concat, recent_concat, lastWindow]
  split
  · rename_i last hlast
    rw [dropWhile_expired (recent_pairwise h),
      recent_recent (hnow last (List.mem_of_getLast? hlast))]
  · rename_i hnone
    rw [List.getLast?_eq_none_iff.mp hnone]
    rfl

/-- The supervisor gives up at a failure that is the last of six within the window. At any
other it starts the worker again. -/
theorem workerFailed_cases {s : Supervisor} (hq : s.failures = lastWindow failed)
    (h : (failed ++ [now]).Pairwise (· ≤ ·)) :
    (Exhausted (failed ++ [now]) failed.length ∧
      s.workerFailed now = { failures := lastWindow (failed ++ [now]), phase := .gaveUp }) ∨
    (¬Exhausted (failed ++ [now]) failed.length ∧
      s.workerFailed now =
        { failures := lastWindow (failed ++ [now]),
          phase := .running (now + restartDelay (lastWindow (failed ++ [now])).length) }) := by
  obtain ⟨hfailed, -, hnow⟩ := List.pairwise_append.mp h
  have hdrop := dropWhile_lastWindow hfailed fun f hf => hnow f hf now (by simp)
  have htest := exhausted_concat_iff h
  rw [← lastWindow_concat] at htest
  simp only [Supervisor.workerFailed, hq, hdrop, gt_iff_lt]
  by_cases hex : maxRestartsInWindow < (lastWindow (failed ++ [now])).length
  · exact .inl ⟨htest.mp hex, if_pos hex⟩
  · exact .inr ⟨mt htest.mpr hex, if_neg hex⟩

/-- The history once a worker failed at `now`, before the supervisor reacts. -/
structure Failed (w : Watch) (now : ℕ) : Prop where
  length : w.restarted.length = w.failed.length
  past : ∀ f ∈ w.failed, f ≤ now
  ordered : (w.failed ++ [now]).Pairwise (· ≤ ·)
  quiet : ∀ k < w.failed.length, ¬Exhausted (w.failed ++ [now]) k
  delayed : ∀ k r, w.restarted[k]? = some r → ∃ f, (w.failed ++ [now])[k]? = some f ∧
    r = f + restartDelay (recent f ((w.failed ++ [now]).take (k + 1))).length
  next : ∀ k r g, w.restarted[k]? = some r → (w.failed ++ [now])[k + 1]? = some g → r ≤ g

section

variable {w w' : Watch} {e : WorkerExit}

theorem Inv.fails {started : ℕ} (hi : Inv w) (hrun : w.supervisor.phase = .running started)
    (hnow : started ≤ now) : Failed w now := by
  obtain ⟨hlen, hle, hlast⟩ := hi.running _ hrun
  have hpast : ∀ f ∈ w.failed, f ≤ now := fun f hf => (hle f hf).trans hnow
  refine ⟨hlen, hpast, ?_, fun k hk => ?_, fun k r hr => ?_, fun k r g hr hg => ?_⟩
  · refine List.pairwise_append.mpr ⟨hi.ordered, List.pairwise_singleton _ _, ?_⟩
    simpa using hpast
  · rw [exhausted_append_iff hk]
    exact hi.quiet k (by omega)
  · obtain ⟨f, hf, hrf⟩ := hi.delayed k r hr
    have hk := (List.getElem?_eq_some_iff.mp hf).1
    rw [List.getElem?_append_left hk, List.take_append_of_le_length hk]
    exact ⟨f, hf, hrf⟩
  · have hk := (List.getElem?_eq_some_iff.mp hr).1
    rcases Nat.lt_or_ge (k + 1) w.failed.length with hk1 | hk1
    · rw [List.getElem?_append_left hk1] at hg
      exact hi.next k r g hr hg
    · -- the newest restart is the start of the worker that has just failed
      have hkl : k = w.restarted.length - 1 := by omega
      rw [hkl, ← List.getLast?_eq_getElem?] at hr
      have hg' : k + 1 - w.failed.length = 0 := by omega
      rw [List.getElem?_append_right hk1, hg'] at hg
      have hgn : now = g := by simpa using hg
      exact hgn ▸ (hlast r hr).le.trans hnow

/-- The supervisor gives up at the new failure. -/
theorem Failed.gaveUp (h : Failed w now) (hex : Exhausted (w.failed ++ [now]) w.failed.length) :
    Inv { supervisor := { failures := lastWindow (w.failed ++ [now]), phase := .gaveUp },
          failed := w.failed ++ [now], restarted := w.restarted } := by
  have hidx : (w.failed ++ [now]).length - 1 = w.failed.length := by simp
  refine ⟨h.ordered, rfl, ?_, ?_, ?_, ?_, h.delayed, h.next, ?_⟩
  · exact iff_of_true rfl (hidx ▸ hex)
  · simp [h.length]
  · simp [h.length]
  · exact fun k hk => h.quiet k (h.length ▸ hk)
  · intro _ hph
    exact Phase.noConfusion hph

/-- The supervisor starts the worker again after the delay. -/
theorem Failed.restarted (h : Failed w now)
    (hex : ¬Exhausted (w.failed ++ [now]) w.failed.length) {delay : ℕ}
    (hdelay : delay = restartDelay (lastWindow (w.failed ++ [now])).length) :
    Inv { supervisor := { failures := lastWindow (w.failed ++ [now]),
                          phase := .running (now + delay) },
          failed := w.failed ++ [now], restarted := w.restarted ++ [now + delay] } := by
  have hlen := h.length
  have hidx : (w.failed ++ [now]).length - 1 = w.failed.length := by simp
  refine ⟨h.ordered, rfl, ?_, ?_, ?_, fun k hk => ?_, fun k r hr => ?_, fun k r g hr hg => ?_,
    fun started' hph => ?_⟩
  · exact iff_of_false Phase.noConfusion (hidx ▸ hex)
  · simp [hlen]
  · simp [hlen]
  · rcases Nat.lt_or_ge k w.failed.length with hk' | hk'
    · exact h.quiet k hk'
    · have hkl : k = w.failed.length := by
        simp only [List.length_append, List.length_singleton] at hk
        omega
      exact hkl ▸ hex
  · rw [List.getElem?_append] at hr
    split at hr
    · exact h.delayed k r hr
    · rename_i hk
      have hk0 : k = w.restarted.length := by
        have := (List.getElem?_eq_some_iff.mp hr).1
        simp only [List.length_singleton] at this
        omega
      subst hk0
      have htake : (w.failed ++ [now]).take (w.restarted.length + 1) = w.failed ++ [now] :=
        List.take_of_length_le (by simp [hlen])
      rw [Nat.sub_self, List.getElem?_cons_zero, Option.some.injEq] at hr
      refine ⟨now, by simp [hlen], ?_⟩
      rw [htake, ← lastWindow_concat, ← hdelay]
      exact hr.symm
  · have hk := (List.getElem?_eq_some_iff.mp hg).1
    simp only [List.length_append, List.length_singleton] at hk
    rw [List.getElem?_append_left (by omega)] at hr
    exact h.next k r g hr hg
  · obtain rfl := Phase.running.inj hph
    refine ⟨by simp [hlen], fun f hf => ?_, by simp⟩
    have hfn : f ≤ now := by
      rcases List.mem_append.mp hf with hf | hf
      · exact h.past f hf
      · exact (List.mem_singleton.mp hf).le
    exact hfn.trans (Nat.le_add_right _ _)

/-- A worker that succeeds is not started again. -/
theorem Inv.succeeded {started : ℕ} (hi : Inv w) (hrun : w.supervisor.phase = .running started) :
    Inv { w with supervisor := { w.supervisor with phase := .succeeded } } := by
  refine { hi with gaveUp := ?_, running := ?_ }
  · have hnot : ¬Exhausted w.failed (w.failed.length - 1) := by
      rw [← hi.gaveUp, hrun]
      exact Phase.noConfusion
    exact iff_of_false Phase.noConfusion hnot
  · intro _ hph
    exact Phase.noConfusion hph

/-- Every step keeps the history. -/
theorem Inv.step (hi : Inv w) (h : Step w e w') : Inv w' := by
  cases h with
  | success hrun => exact hi.succeeded hrun
  | failure hrun hnow =>
    have hfailed := hi.fails hrun hnow
    rcases workerFailed_cases hi.failures hfailed.ordered with ⟨hex, heq⟩ | ⟨hex, heq⟩
    · rw [heq]
      simp only [restartOf, List.append_nil]
      exact hfailed.gaveUp hex
    · rw [heq]
      simp only [restartOf]
      exact hfailed.restarted hex rfl

end

theorem inv_of_reachable {started : ℕ} {w : Watch} (h : Reachable Step (new started) w) : Inv w :=
  h.invariant (fun _ _ _ hi hs => hi.step hs) (inv_new started)

/-! ## Restarts -/

section

variable {w : Watch}

/-- At a failure that is followed by a restart, the failure five before it has left the
window. -/
theorem Inv.window_le (hi : Inv w) {k : ℕ} {f g : ℕ} (hk : k + 5 < w.restarted.length)
    (hf : w.failed[k]? = some f) (hg : w.failed[k + 5]? = some g) : f + restartWindow ≤ g := by
  by_contra hlt
  exact hi.quiet (k + 5) hk ⟨Nat.le_add_left _ _, f, g, hf, hg, by omega⟩

/-- The window of failure `k + 5` that holds at most four failures has lost failure
`k + 1`. -/
theorem Inv.window_le_of_short (hi : Inv w) {k : ℕ} {f g : ℕ}
    (hf : w.failed[k + 1]? = some f) (hg : w.failed[k + 5]? = some g)
    (hshort : (recent g (w.failed.take (k + 6))).length ≤ 4) : f + restartWindow ≤ g := by
  by_contra hlt
  have hlen := (List.getElem?_eq_some_iff.mp hg).1
  have htake : (w.failed.take (k + 6)).length = k + 6 := List.length_take_of_le (by omega)
  refine absurd ((lt_length_recent_iff (hi.ordered.sublist (List.take_sublist _ _)) 4).mpr ?_)
    (Nat.not_lt.mpr hshort)
  have hplace : (w.failed.take (k + 6)).length - 1 - 4 = k + 1 := by omega
  refine ⟨by omega, f, ?_, by omega⟩
  rw [hplace, List.getElem?_take_of_lt (by omega)]
  exact hf

/-- The queue holds at most five failures when a worker is started again. -/
theorem Inv.length_window_le (hi : Inv w) {k : ℕ} {g : ℕ} (hk : k < w.restarted.length)
    (hg : w.failed[k]? = some g) : (recent g (w.failed.take (k + 1))).length ≤ 5 := by
  by_contra hlt
  have hlen := (List.getElem?_eq_some_iff.mp hg).1
  have htake : w.failed.take (k + 1) = w.failed.take k ++ [g] := by
    rw [List.take_add_one, hg]
    rfl
  have hord : (w.failed.take k ++ [g]).Pairwise (· ≤ ·) :=
    htake ▸ hi.ordered.sublist (List.take_sublist _ _)
  have hex := (exhausted_concat_iff hord).mp (by rw [← htake]; exact Nat.lt_of_not_le hlt)
  rw [← htake, List.length_take_of_le hlen.le] at hex
  refine hi.quiet k hk ?_
  rw [← List.take_append_drop (k + 1) w.failed]
  refine (exhausted_append_iff ?_).mpr hex
  rw [List.length_take_of_le hlen]
  exact Nat.lt_succ_self k

/-- A restart and the fifth one after it are a window apart. -/
theorem Inv.spaced (hi : Inv w) :
    RollingWindow.Spaced (· + restartWindow) maxRestartsInWindow w.restarted := by
  intro k r q hr hq
  rw [maxRestartsInWindow] at hq
  have hk := (List.getElem?_eq_some_iff.mp hq).1
  obtain ⟨f, hf, rfl⟩ := hi.delayed k r hr
  obtain ⟨g, hg, rfl⟩ := hi.delayed (k + 5) q hq
  rcases Nat.lt_or_ge 4 (recent g (w.failed.take (k + 5 + 1))).length with hlong | hshort
  · -- the later delay is the longest one
    have hfive : (recent g (w.failed.take (k + 5 + 1))).length = maxRestartsInWindow :=
      Nat.le_antisymm (hi.length_window_le hk hg) hlong
    rw [hfive, restartDelay_max]
    have hfg := hi.window_le hk hf hg
    have hdelay := restartDelay_le (recent f (w.failed.take (k + 1))).length
    dsimp only
    omega
  · -- the restart precedes a failure that has left the window
    have hlen := hi.length_le
    obtain ⟨m, hm⟩ : ∃ m, w.failed[k + 1]? = some m :=
      ⟨_, List.getElem?_eq_getElem (by omega)⟩
    have hmg := hi.window_le_of_short hm hg hshort
    have hrm := hi.next k _ m hr hm
    dsimp only
    omega

theorem Inv.restarted_pairwise (hi : Inv w) : w.restarted.Pairwise (· ≤ ·) := by
  rw [List.pairwise_iff_getElem]
  intro i j hi' hj hij
  have hlen := hi.length_le
  have hr := List.getElem?_eq_getElem hi'
  obtain ⟨f, hf, hfr⟩ := hi.delayed j _ (List.getElem?_eq_getElem hj)
  have hnext := hi.next i _ _ hr (List.getElem?_eq_getElem (by omega))
  obtain ⟨hj', rfl⟩ := List.getElem?_eq_some_iff.mp hf
  have hord : w.failed[i + 1] ≤ w.failed[j] := by
    rcases Nat.eq_or_lt_of_le hij with rfl | hlt
    · exact le_rfl
    · exact List.pairwise_iff_getElem.mp hi.ordered _ _ _ _ hlt
  omega

/-- A queue of seven would have made the supervisor give up one failure earlier. -/
theorem Inv.length_lastWindow_le (hi : Inv w) :
    (lastWindow w.failed).length ≤ maxRestartsInWindow + 1 := by
  rw [lastWindow]
  split
  · rename_i now hnow
    by_contra hlong
    obtain ⟨hlen, f, hf, hlt⟩ :=
      (lt_length_recent_iff hi.ordered (maxRestartsInWindow + 1)).mp (Nat.lt_of_not_le hlong)
    rw [maxRestartsInWindow] at hlen hf
    have hle := hi.le_length
    rw [List.getLast?_eq_getElem?] at hnow
    obtain ⟨hlast, rfl⟩ := List.getElem?_eq_some_iff.mp hnow
    have hprev : w.failed[w.failed.length - 2] ≤ w.failed[w.failed.length - 1] :=
      List.pairwise_iff_getElem.mp hi.ordered _ _ _ _ (by omega)
    refine hi.quiet (w.failed.length - 2) (by omega) ⟨?_, f, _, ?_, ?_, hprev.trans_lt hlt⟩
    · rw [maxRestartsInWindow]
      omega
    · rw [maxRestartsInWindow, show w.failed.length - 2 - 5 = w.failed.length - 1 - (5 + 1) by omega]
      exact hf
    · exact List.getElem?_eq_getElem _
  · exact Nat.zero_le _

end

/-- The restart limit, over every sequence of failures. -/
theorem restart_rate_limit (started : ℕ) {w : Watch} (h : Reachable Step (new started) w) :
    (w.supervisor.phase = .gaveUp ↔ Exhausted w.failed (w.failed.length - 1)) ∧
    (∀ k, k + 1 < w.failed.length → ¬Exhausted w.failed k) ∧
    (∀ a, w.restarted.countP (fun r => decide (a ≤ r ∧ r < a + restartWindow)) ≤
      maxRestartsInWindow) ∧
    w.supervisor.failures = lastWindow w.failed ∧
    w.supervisor.failures.length ≤ maxRestartsInWindow + 1 := by
  have hi := inv_of_reachable h
  have hmono : Monotone (· + restartWindow) := fun a b hab => Nat.add_le_add_right hab _
  refine ⟨hi.gaveUp, fun k hk => hi.quiet k ?_, fun a => ?_, hi.failures, ?_⟩
  · have := hi.le_length
    omega
  · exact RollingWindow.countP_le_of_spaced hmono a hi.restarted_pairwise hi.spaced
  · rw [hi.failures]
    exact hi.length_lastWindow_le

/-- A worker that fails as soon as it is started is given up at its sixth failure. -/
theorem restart_rate_limit_crash_loop :
    ∃ w, Reachable Step (new 0) w ∧ w.failed.length = 6 ∧ w.supervisor.phase = .gaveUp ∧
      Exhausted w.failed 5 := by
  have h0 : Reachable Step (new 0) (new 0) := .refl
  have h1 := h0.tail (@Step.failure _ _ 0 rfl (by decide))
  have h2 := h1.tail (@Step.failure _ _ 250000000 rfl (by decide))
  have h3 := h2.tail (@Step.failure _ _ 750000000 rfl (by decide))
  have h4 := h3.tail (@Step.failure _ _ 1750000000 rfl (by decide))
  have h5 := h4.tail (@Step.failure _ _ 3750000000 rfl (by decide))
  have h6 := h5.tail (@Step.failure _ _ 7750000000 rfl (by decide))
  exact ⟨_, h6, rfl, rfl, (restart_rate_limit 0 h6).1.mp rfl⟩

end Watch

end Streamwm
