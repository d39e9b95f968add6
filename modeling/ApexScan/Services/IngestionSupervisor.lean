import Mathlib.Tactic.Linarith
import Mathlib.Tactic.Positivity
import ApexScan.Engine.Session
import ApexScan.Lib.Machine
import ApexScan.Lib.Rounding

/-!
# The supervised live ingestion (`app/services/market_runtime.py`)

`LiveMarketRuntime._supervise_ingestion` consumes one provider stream at a time.  A stream that ends,
by returning or by an exception, is followed by a wait for a session that expects live data and a
backoff that grows with the runs in a row that received nothing.  The wait runs outside the `try` that
heals the stream's errors, so what it raises ends the supervisor.

* `IngestionRecoveryPolicy.delayForFailure` — the backoff; floats are rationals, and an integer too
  large for a float raises.
* `Supervisor`, `Op`, `step` — the task from one suspension to the next: a stream is being consumed,
  a session is being waited for, or a backoff is being slept off.
* `delay_bounded_iff` — the backoff is defined and lies within its bounds up to 1024 failures in a
  row, and at no larger number.
* `supervision_survives_iff` — a run ends the supervisor other than by cancellation iff some recovery
  starts after more failures than that, or its time is no representable datetime.

The provider's stream, the clock, the session phase and the random value are inputs of a step.
-/

set_option autoImplicit false

namespace ApexScan.IngestionSupervisor

open Lib

/-! ## The backoff -/

/-- The `OverflowError`s that a recovery can raise. -/
inductive OverflowError where
  | intTooLargeToConvertToFloat
  | timedeltaMagnitude
  | dateValueOutOfRange
  deriving DecidableEq, Repr

/-- `IngestionRecoveryPolicy`, with its `__post_init__` checks. -/
structure IngestionRecoveryPolicy where
  initialDelaySeconds : ℚ
  maximumDelaySeconds : ℚ
  jitterRatio : ℚ
  sessionPollSeconds : ℚ
  initial_nonneg : 0 ≤ initialDelaySeconds
  ordered : initialDelaySeconds ≤ maximumDelaySeconds
  jitter_nonneg : 0 ≤ jitterRatio
  jitter_le_one : jitterRatio ≤ 1
  poll_pos : 0 < sessionPollSeconds

/-- A value of `random.random()`. -/
structure RandomValue where
  value : ℚ
  nonneg : 0 ≤ value
  lt_one : value < 1

/-- The float of an integer, which exists below `2 ^ 1024`. -/
def floatOfInt (n : ℕ) : Except OverflowError ℚ :=
  if n < 2 ^ 1024 then .ok n else .error .intTooLargeToConvertToFloat

namespace IngestionRecoveryPolicy

/-- `delay_for_failure`; `max(0, consecutive_failures - 1)` is the subtraction of naturals. -/
def delayForFailure (p : IngestionRecoveryPolicy) (consecutiveFailures : ℕ) (randomValue : ℚ) :
    Except OverflowError ℚ := do
  let exponent := consecutiveFailures - 1
  let power ← floatOfInt (2 ^ exponent)
  let base := min p.maximumDelaySeconds (p.initialDelaySeconds * power)
  return base * (1 - p.jitterRatio + p.jitterRatio * randomValue)

/-- The capped exponential. -/
def base (p : IngestionRecoveryPolicy) (consecutiveFailures : ℕ) : ℚ :=
  min p.maximumDelaySeconds (p.initialDelaySeconds * 2 ^ (consecutiveFailures - 1))

/-- The capped exponential with its jitter. -/
def jittered (p : IngestionRecoveryPolicy) (consecutiveFailures : ℕ) (randomValue : ℚ) : ℚ :=
  p.base consecutiveFailures * (1 - p.jitterRatio + p.jitterRatio * randomValue)

theorem floatOfInt_pow (n : ℕ) : floatOfInt (2 ^ (n - 1)) =
    if n ≤ 1024 then .ok (2 ^ (n - 1)) else .error .intTooLargeToConvertToFloat := by
  have hpow : 2 ^ (n - 1) < 2 ^ 1024 ↔ n ≤ 1024 := by
    rw [Nat.pow_lt_pow_iff_right Nat.one_lt_two]
    omega
  unfold floatOfInt
  by_cases h : n ≤ 1024
  · rw [if_pos (hpow.mpr h), if_pos h]
    push_cast
    rfl
  · rw [if_neg (fun hlt => h (hpow.mp hlt)), if_neg h]

theorem delayForFailure_eq (p : IngestionRecoveryPolicy) (n : ℕ) (r : ℚ) :
    p.delayForFailure n r =
      if n ≤ 1024 then .ok (p.jittered n r) else .error .intTooLargeToConvertToFloat := by
  show (floatOfInt (2 ^ (n - 1)) >>= fun power =>
    pure (min p.maximumDelaySeconds (p.initialDelaySeconds * power) *
      (1 - p.jitterRatio + p.jitterRatio * r))) = _
  rw [floatOfInt_pow]
  split <;> rfl

theorem delayForFailure_eq_ok_iff {p : IngestionRecoveryPolicy} {n : ℕ} {r d : ℚ} :
    p.delayForFailure n r = .ok d ↔ n ≤ 1024 ∧ p.jittered n r = d := by
  rw [delayForFailure_eq]
  split
  · rename_i h
    constructor
    · intro hd
      exact ⟨h, Except.ok.inj hd⟩
    · rintro ⟨-, rfl⟩
      rfl
  · rename_i h
    constructor
    · intro hd
      cases hd
    · rintro ⟨hle, -⟩
      exact absurd hle h

theorem base_nonneg (p : IngestionRecoveryPolicy) (n : ℕ) : 0 ≤ p.base n := by
  have hmax := p.initial_nonneg.trans p.ordered
  have hpow : 0 ≤ p.initialDelaySeconds * 2 ^ (n - 1) := mul_nonneg p.initial_nonneg (by positivity)
  exact le_min hmax hpow

/-- The jitter takes off at most its ratio of the capped exponential. -/
theorem jittered_bounds (p : IngestionRecoveryPolicy) (n : ℕ) (r : RandomValue) :
    p.base n * (1 - p.jitterRatio) ≤ p.jittered n r.value ∧ p.jittered n r.value ≤ p.base n := by
  have hbase := p.base_nonneg n
  have hlow : 0 ≤ p.jitterRatio * r.value := mul_nonneg p.jitter_nonneg r.nonneg
  have hhigh : p.jitterRatio * r.value ≤ p.jitterRatio :=
    mul_le_of_le_one_right p.jitter_nonneg r.lt_one.le
  unfold jittered
  constructor
  · apply mul_le_mul_of_nonneg_left _ hbase
    linarith
  · apply mul_le_of_le_one_right hbase
    linarith

/-- The backoff is defined and lies between the least jittered and the capped exponential, below the
    policy's maximum. -/
def DelayBounded (p : IngestionRecoveryPolicy) (n : ℕ) (r : RandomValue) : Prop :=
  ∃ d, p.delayForFailure n r.value = .ok d ∧
    p.base n * (1 - p.jitterRatio) ≤ d ∧ d ≤ p.base n ∧ p.base n ≤ p.maximumDelaySeconds

theorem delay_bounded_iff (p : IngestionRecoveryPolicy) (n : ℕ) (r : RandomValue) :
    p.DelayBounded n r ↔ n ≤ 1024 := by
  constructor
  · rintro ⟨d, hd, -⟩
    exact (delayForFailure_eq_ok_iff.mp hd).1
  · intro h
    have hbounds := p.jittered_bounds n r
    exact ⟨p.jittered n r.value, delayForFailure_eq_ok_iff.mpr ⟨h, rfl⟩, hbounds.1, hbounds.2,
      min_le_left _ _⟩

end IngestionRecoveryPolicy

/-! ## Python's instants -/

/-- `datetime.min` and `datetime.max` (years 1 and 9999) in microseconds from 1970. -/
def minimumDatetime : Int := -62135596800 * second

def maximumDatetime : Int := 253402300800 * second - 1

/-- `timedelta(seconds=seconds)` of a non-negative float: microseconds, half to even, of at most
    999999999 days and a fraction. -/
def timedeltaSeconds (seconds : ℚ) : Except OverflowError Int :=
  let microseconds := roundHalfEven (seconds * 1000000).num.toNat (seconds * 1000000).den
  if microseconds < 1000000000 * day then .ok microseconds else .error .timedeltaMagnitude

/-- `moment + delta`. -/
def addTimedelta (moment delta : Int) : Except OverflowError Int :=
  if minimumDatetime ≤ moment + delta ∧ moment + delta ≤ maximumDatetime then .ok (moment + delta)
  else .error .dateValueOutOfRange

/-- `moment + timedelta(seconds=seconds)`. -/
def addSeconds (moment : Int) (seconds : ℚ) : Except OverflowError Int :=
  timedeltaSeconds seconds >>= addTimedelta moment

/-- The duration is a timedelta and the instant that much later a datetime. -/
def Representable (moment : Int) (seconds : ℚ) : Prop :=
  ∃ later, addSeconds moment seconds = .ok later

/-! ## The supervisor -/

/-- `IngestionState`. -/
inductive IngestionState where
  | stopped
  | starting
  | running
  | recovering
  | waitingForSession
  deriving DecidableEq, Repr

/-- The phases in which a live provider connection is expected. -/
def ingestionActiveStates : List MarketState :=
  [.preOpen, .openingAuction, .liveSession, .closingSession]

/-- `_session_expects_ingestion`; `none` is a runtime without a classifier. -/
def sessionExpectsIngestion : Option MarketState → Bool
  | none => true
  | some phase => decide (phase ∈ ingestionActiveStates)

/-- How the supervisor task ended. -/
inductive Ending where
  | cancelled
  | raised (error : OverflowError)
  deriving DecidableEq, Repr

/-- Where the supervisor task is suspended. -/
inductive Point where
  | created
  | streaming
  | waitingForSession (delay : ℚ)
  | recovering (delay : ℚ)
  | ended (ending : Ending)
  deriving DecidableEq

/-- The supervisor's fields of `LiveMarketRuntime`, and where its task is. -/
structure Supervisor where
  point : Point := .created
  ingestionState : IngestionState := .starting
  ingestionError : Option String := none
  ingestionFailed : Bool := false
  lastRxAt : Option Int := none
  rxSinceStart : Bool := false
  lastFailureAt : Option Int := none
  lastFailureType : Option String := none
  recoveryAttempts : ℕ := 0
  successfulRecoveries : ℕ := 0
  consecutiveFailures : ℕ := 0
  lastRecoveryAttemptAt : Option Int := none
  nextRecoveryNotBefore : Option Int := none

/-- What the task reads when it goes on: the classified phase, the random value and the clock. -/
structure Observation where
  phase : Option MarketState
  random : RandomValue
  now : Int

/-- What can happen to the task. -/
inductive Op where
  /-- The task runs for the first time. -/
  | scheduled
  /-- The stream yields a datum. -/
  | received (now : Int)
  /-- The stream ends: by returning (`none`) or by an exception of the type named. -/
  | streamEnded (error : Option String) (endedAt : Int) (then_ : Observation)
  /-- The sleep is over. -/
  | woke (then_ : Observation)
  | cancelled

namespace Supervisor

/-- An exception leaves `_supervise_ingestion`: its `finally` and the task's done callback. -/
def raise (s : Supervisor) (error : OverflowError) : Supervisor :=
  { s with
    point := .ended (.raised error), ingestionState := .stopped,
    ingestionError := some "OverflowError", ingestionFailed := true }

/-- A new run of the stream. -/
def startRun (s : Supervisor) : Supervisor :=
  { s with point := .streaming, ingestionState := .running, rxSinceStart := false }

/-- `_record_ingestion_end`. -/
def recordIngestionEnd (s : Supervisor) (error : Option String) (now : Int) : Supervisor :=
  let s := { s with
    ingestionError := error, lastFailureAt := some now,
    lastFailureType := some (error.getD "returned") }
  if s.rxSinceStart then
    { s with successfulRecoveries := s.successfulRecoveries + 1, consecutiveFailures := 0 }
  else
    { s with consecutiveFailures := s.consecutiveFailures + 1 }

/-- The end of `_wait_before_recovery`: `_next_recovery_not_before` and the sleep. -/
def sleepOff (s : Supervisor) (delay : ℚ) : Except OverflowError Int → Supervisor
  | .error error => s.raise error
  | .ok later => { s with nextRecoveryNotBefore := some later, point := .recovering delay }

/-- `_wait_before_recovery` from the computed delay on. -/
def backOff (s : Supervisor) (o : Observation) : Except OverflowError ℚ → Supervisor
  | .error error => s.raise error
  | .ok delay =>
    let s := { s with
      recoveryAttempts := s.recoveryAttempts + 1, lastRecoveryAttemptAt := some o.now }
    s.sleepOff delay (addSeconds o.now delay)

/-- `_wait_before_recovery`, up to its next suspension. -/
def waitBeforeRecovery (p : IngestionRecoveryPolicy) (s : Supervisor) (o : Observation) :
    Supervisor :=
  if sessionExpectsIngestion o.phase then
    { s with ingestionState := .recovering }.backOff o
      (p.delayForFailure s.consecutiveFailures o.random.value)
  else
    { s with
      point := .waitingForSession p.sessionPollSeconds, ingestionState := .waitingForSession }

/-- One step of the task.  What does not concern it where it is suspended changes nothing. -/
def next (p : IngestionRecoveryPolicy) (s : Supervisor) (op : Op) : Supervisor :=
  match s.point, op with
  | .created, .scheduled => s.startRun
  -- a task cancelled before it first runs never enters its `try`
  | .created, .cancelled => { s with point := .ended .cancelled }
  | .streaming, .received now => { s with lastRxAt := some now, rxSinceStart := true }
  | .streaming, .streamEnded error endedAt o =>
    (s.recordIngestionEnd error endedAt).waitBeforeRecovery p o
  | .waitingForSession _, .woke o => s.waitBeforeRecovery p o
  | .recovering _, .woke _ => s.startRun
  | .streaming, .cancelled | .waitingForSession _, .cancelled | .recovering _, .cancelled =>
    { s with point := .ended .cancelled, ingestionState := .stopped }
  | _, _ => s

/-- The step, with the state that the diagnostics show. -/
def step (p : IngestionRecoveryPolicy) (s : Supervisor) (op : Op) : Supervisor × IngestionState :=
  (next p s op, (next p s op).ingestionState)

/-- The task ended by an exception. -/
def Died (s : Supervisor) : Prop := ∃ error, s.point = .ended (.raised error)

/-- The failures in a row once the stream consumed now has ended. -/
def failuresAfter (s : Supervisor) : ℕ :=
  if s.rxSinceStart then 0 else s.consecutiveFailures + 1

/-- A recovery after so many failures is within what floats and datetimes can say. -/
def Recoverable (p : IngestionRecoveryPolicy) (failures : ℕ) (o : Observation) : Prop :=
  sessionExpectsIngestion o.phase = true →
    failures ≤ 1024 ∧ Representable o.now (p.jittered failures o.random.value)

/-- A step that starts a recovery starts one that is `Recoverable`. -/
def RecoverableStep (p : IngestionRecoveryPolicy) (s : Supervisor) (op : Op) : Prop :=
  match s.point, op with
  | .streaming, .streamEnded _ _ o => Recoverable p s.failuresAfter o
  | .waitingForSession _, .woke o => Recoverable p s.consecutiveFailures o
  | _, _ => True

/-! ## What one step can do -/

theorem recordIngestionEnd_failures (s : Supervisor) (error : Option String) (now : Int) :
    (s.recordIngestionEnd error now).consecutiveFailures = s.failuresAfter := by
  unfold recordIngestionEnd failuresAfter
  simp only
  split <;> rfl

theorem raise_died (s : Supervisor) (error : OverflowError) : (s.raise error).Died := ⟨error, rfl⟩

theorem not_died_of_point {s : Supervisor} {point : Point} (h : s.point = point)
    (hne : ∀ error, point ≠ .ended (.raised error)) : ¬ s.Died := by
  rintro ⟨error, herror⟩
  exact hne error (h.symm.trans herror)

theorem sleepOff_survives_iff (s : Supervisor) (delay : ℚ) (instant : Except OverflowError Int) :
    ¬ (s.sleepOff delay instant).Died ↔ ∃ later, instant = .ok later := by
  cases instant with
  | error error =>
    refine iff_of_false (fun h => h (raise_died s error)) ?_
    rintro ⟨later, hlater⟩
    cases hlater
  | ok later =>
    exact iff_of_true (not_died_of_point rfl fun error h => by cases h) ⟨later, rfl⟩

theorem backOff_survives_iff (s : Supervisor) (o : Observation) (delay : Except OverflowError ℚ) :
    ¬ (s.backOff o delay).Died ↔ ∃ seconds, delay = .ok seconds ∧ Representable o.now seconds := by
  cases delay with
  | error error =>
    refine iff_of_false (fun h => h (raise_died s error)) ?_
    rintro ⟨seconds, hseconds, -⟩
    cases hseconds
  | ok seconds =>
    unfold backOff
    rw [sleepOff_survives_iff]
    constructor
    · intro h
      exact ⟨seconds, rfl, h⟩
    · rintro ⟨other, hother, h⟩
      cases hother
      exact h

/-- A wait for recovery raises unless the recovery is within what floats and datetimes can say. -/
theorem waitBeforeRecovery_survives_iff (p : IngestionRecoveryPolicy) (s : Supervisor)
    (o : Observation) :
    ¬ (s.waitBeforeRecovery p o).Died ↔ Recoverable p s.consecutiveFailures o := by
  unfold waitBeforeRecovery Recoverable
  split
  · rename_i hactive
    rw [backOff_survives_iff]
    constructor
    · rintro ⟨seconds, hseconds, h⟩ _
      obtain ⟨hfailures, rfl⟩ := IngestionRecoveryPolicy.delayForFailure_eq_ok_iff.mp hseconds
      exact ⟨hfailures, h⟩
    · intro h
      obtain ⟨hfailures, hlater⟩ := h hactive
      exact ⟨_, IngestionRecoveryPolicy.delayForFailure_eq_ok_iff.mpr ⟨hfailures, rfl⟩, hlater⟩
  · rename_i hinactive
    refine iff_of_true (not_died_of_point rfl fun error h => by cases h) ?_
    intro hactive
    exact absurd hactive hinactive

theorem died_absorbs (p : IngestionRecoveryPolicy) (s : Supervisor) (op : Op) (h : s.Died) :
    (step p s op).1.Died := by
  obtain ⟨error, herror⟩ := h
  have hstays : next p s op = s := by
    unfold next
    rw [herror]
  show (next p s op).Died
  rw [hstays]
  exact ⟨error, herror⟩

/-- **A step kills the supervisor iff it starts a recovery that is not `Recoverable`.** -/
theorem step_survives_iff (p : IngestionRecoveryPolicy) (s : Supervisor) (op : Op)
    (h : ¬ s.Died) : ¬ (step p s op).1.Died ↔ RecoverableStep p s op := by
  show ¬ (next p s op).Died ↔ _
  unfold next RecoverableStep
  cases hpoint : s.point with
  | created =>
    cases op <;> simp only [iff_true]
    case scheduled => exact not_died_of_point rfl (fun error h => by cases h)
    case cancelled => exact not_died_of_point rfl (fun error h => by cases h)
    all_goals exact h
  | streaming =>
    cases op <;> simp only [iff_true]
    case received now => exact not_died_of_point rfl (fun error h => by cases h)
    case streamEnded error endedAt o =>
      rw [waitBeforeRecovery_survives_iff, recordIngestionEnd_failures]
    case cancelled => exact not_died_of_point rfl (fun error h => by cases h)
    all_goals exact h
  | waitingForSession delay =>
    cases op <;> simp only [iff_true]
    case woke o => exact waitBeforeRecovery_survives_iff p s o
    case cancelled => exact not_died_of_point rfl (fun error h => by cases h)
    all_goals exact h
  | recovering delay =>
    cases op <;> simp only [iff_true]
    case woke o => exact not_died_of_point rfl (fun error h => by cases h)
    case cancelled => exact not_died_of_point rfl (fun error h => by cases h)
    all_goals exact h
  | ended ending =>
    cases op <;> simp only [iff_true] <;> exact h

/-- A run ends the supervisor other than by cancellation iff one of its recoveries is not
    `Recoverable`. -/
theorem supervision_survives_iff (p : IngestionRecoveryPolicy) (ops : List Op) :
    ¬ (Lib.run (step p) {} ops).Died ↔ Along (step p) (RecoverableStep p) {} ops :=
  avoids_iff_along (died_absorbs p) (step_survives_iff p) ops
    (not_died_of_point rfl (fun error h => by cases h))

/-- **The supervisor recovers exactly within 1024 failures in a row**: the backoff is defined and
    bounded up to that number and at no larger one, and a run ends the task only by cancellation iff
    each of its recoveries starts within that number and at a representable time. -/
theorem ingestion_recovers_iff (p : IngestionRecoveryPolicy) :
    (∀ (failures : ℕ) (r : RandomValue), p.DelayBounded failures r ↔ failures ≤ 1024) ∧
      ∀ ops : List Op,
        (∀ ending, (Lib.run (step p) {} ops).point = .ended ending → ending = .cancelled) ↔
          Along (step p) (RecoverableStep p) {} ops := by
  refine ⟨p.delay_bounded_iff, ?_⟩
  intro ops
  rw [← supervision_survives_iff]
  constructor
  · rintro h ⟨error, herror⟩
    cases h _ herror
  · intro h ending hending
    cases ending with
    | cancelled => rfl
    | raised error => exact absurd ⟨error, hending⟩ h

end Supervisor

/-! ## A thousand failures -/

/-- A delay of up to `bound` seconds is representable where the calendar goes on for longer. -/
theorem representable_of_le {moment : Int} {seconds : ℚ} (bound : ℕ) (hle : seconds ≤ bound)
    (hmin : minimumDatetime ≤ moment) (hmax : moment + (bound + 1) * second ≤ maximumDatetime) :
    Representable moment seconds := by
  have hfloor : (seconds * 1000000).num.toNat / (seconds * 1000000).den ≤ bound * 1000000 := by
    have hscaled : seconds * 1000000 ≤ ((bound * 1000000 : ℕ) : ℚ) := by
      push_cast
      linarith
    have hnum : (seconds * 1000000).num ≤ (bound * 1000000 : ℕ) * (seconds * 1000000).den := by
      rw [Rat.le_iff, Rat.num_natCast, Rat.den_natCast] at hscaled
      simpa only [Nat.cast_one, mul_one] using hscaled
    apply Nat.div_le_of_le_mul
    rw [Nat.mul_comm]
    exact Int.toNat_le.mpr (by exact_mod_cast hnum)
  have hround := roundHalfEven_le (seconds * 1000000).num.toNat (seconds * 1000000).den
  unfold Representable addSeconds timedeltaSeconds
  unfold minimumDatetime at hmin
  unfold maximumDatetime second at hmax
  simp only
  rw [if_pos (by unfold day second at *; omega)]
  show ∃ later, addTimedelta moment _ = .ok later
  unfold addTimedelta
  rw [if_pos (by unfold minimumDatetime maximumDatetime second at *; omega)]
  exact ⟨_, rfl⟩

/-- The policy of the default arguments. -/
def defaultPolicy : IngestionRecoveryPolicy where
  initialDelaySeconds := 1
  maximumDelaySeconds := 30
  jitterRatio := 1 / 5
  sessionPollSeconds := 30
  initial_nonneg := by norm_num
  ordered := by norm_num
  jitter_nonneg := by norm_num
  jitter_le_one := by norm_num
  poll_pos := by norm_num

/-- A live session on the first of January 1970. -/
def liveObservation : Observation := ⟨some .liveSession, ⟨1 / 2, by norm_num, by norm_num⟩, 0⟩

/-- Runs in a row that end before their first event, each slept off. -/
def failedRuns : ℕ → List Op
  | 0 => [.scheduled]
  | n + 1 => failedRuns n ++
    [.streamEnded (some "ProviderUnavailableError") 0 liveObservation, .woke liveObservation]

namespace Supervisor

theorem defaultPolicy_recoverable {n : ℕ} (h : n ≤ 1024) :
    Recoverable defaultPolicy n liveObservation := by
  intro _
  refine ⟨h, representable_of_le 30 ?_ (by decide) (by decide)⟩
  have hbounds := (defaultPolicy.jittered_bounds n liveObservation.random).2
  exact hbounds.trans (min_le_left _ _)

theorem sleepOff_ok {s : Supervisor} {delay : ℚ} {instant : Except OverflowError Int}
    (h : ∃ later, instant = .ok later) : (s.sleepOff delay instant).point = .recovering delay ∧
      (s.sleepOff delay instant).consecutiveFailures = s.consecutiveFailures := by
  obtain ⟨later, rfl⟩ := h
  exact ⟨rfl, rfl⟩

theorem backOff_ok {s : Supervisor} {o : Observation} {delay : ℚ} (h : Representable o.now delay) :
    (s.backOff o (.ok delay)).point = .recovering delay ∧
      (s.backOff o (.ok delay)).consecutiveFailures = s.consecutiveFailures := by
  unfold backOff
  exact sleepOff_ok h

theorem next_woke {p : IngestionRecoveryPolicy} {s : Supervisor} {o : Observation} {delay : ℚ}
    (h : s.point = .recovering delay) : next p s (.woke o) = s.startRun := by
  unfold next
  rw [h]

theorem waitBeforeRecovery_ok {p : IngestionRecoveryPolicy} {s : Supervisor} {o : Observation}
    (hactive : sessionExpectsIngestion o.phase = true) (h : Recoverable p s.consecutiveFailures o) :
    (∃ delay, (s.waitBeforeRecovery p o).point = .recovering delay) ∧
      (s.waitBeforeRecovery p o).consecutiveFailures = s.consecutiveFailures := by
  obtain ⟨hfailures, hlater⟩ := h hactive
  have hdelay : p.delayForFailure s.consecutiveFailures o.random.value =
      .ok (p.jittered s.consecutiveFailures o.random.value) :=
    IngestionRecoveryPolicy.delayForFailure_eq_ok_iff.mpr ⟨hfailures, rfl⟩
  have hwait : s.waitBeforeRecovery p o = backOff { s with ingestionState := .recovering } o
      (.ok (p.jittered s.consecutiveFailures o.random.value)) := by
    unfold waitBeforeRecovery
    rw [if_pos hactive, hdelay]
  rw [hwait]
  have hbackOff := backOff_ok (s := { s with ingestionState := .recovering }) hlater
  exact ⟨⟨_, hbackOff.1⟩, hbackOff.2⟩

theorem failedRuns_streaming {n : ℕ} (h : n ≤ 1024) :
    let s := Lib.run (step defaultPolicy) {} (failedRuns n)
    s.point = .streaming ∧ s.rxSinceStart = false ∧ s.consecutiveFailures = n := by
  induction n with
  | zero => exact ⟨rfl, rfl, rfl⟩
  | succ n ih =>
    obtain ⟨hpoint, hrx, hfailures⟩ := ih (by omega)
    unfold failedRuns
    simp only [run_append]
    generalize Lib.run (step defaultPolicy) {} (failedRuns n) = s at hpoint hrx hfailures
    have hcount : (s.recordIngestionEnd (some "ProviderUnavailableError") 0).consecutiveFailures =
        n + 1 := by
      rw [recordIngestionEnd_failures]
      unfold failuresAfter
      rw [hrx, hfailures]
      rfl
    have hended : next defaultPolicy s
        (.streamEnded (some "ProviderUnavailableError") 0 liveObservation) =
        (s.recordIngestionEnd (some "ProviderUnavailableError") 0).waitBeforeRecovery defaultPolicy
          liveObservation := by
      unfold next
      rw [hpoint]
    obtain ⟨⟨delay, hwaiting⟩, hkept⟩ := waitBeforeRecovery_ok (p := defaultPolicy)
      (o := liveObservation) (s := s.recordIngestionEnd (some "ProviderUnavailableError") 0) rfl
      (by rw [hcount]; exact defaultPolicy_recoverable h)
    rw [← hended] at hwaiting hkept
    have hwoken := next_woke (p := defaultPolicy) (o := liveObservation) hwaiting
    rw [show Lib.run (step defaultPolicy) s
        [.streamEnded (some "ProviderUnavailableError") 0 liveObservation, .woke liveObservation] =
      next defaultPolicy (next defaultPolicy s
        (.streamEnded (some "ProviderUnavailableError") 0 liveObservation)) (.woke liveObservation)
      from rfl, hwoken]
    exact ⟨rfl, rfl, hkept.trans hcount⟩

theorem failedRuns_die {n : ℕ} (h : n = 1024) :
    (Lib.run (step defaultPolicy) {} (failedRuns n ++
      [.streamEnded (some "ProviderUnavailableError") 0 liveObservation])).Died := by
  obtain ⟨hpoint, hrx, hfailures⟩ := failedRuns_streaming h.le
  rw [run_concat]
  generalize Lib.run (step defaultPolicy) {} (failedRuns n) = s at hpoint hrx hfailures
  have halive : ¬ s.Died := not_died_of_point hpoint (fun error h => by cases h)
  by_contra hsurvives
  have hrecoverable := (step_survives_iff defaultPolicy s _ halive).mp hsurvives
  unfold RecoverableStep failuresAfter at hrecoverable
  rw [hpoint, hrx, hfailures] at hrecoverable
  have hle : n + 1 ≤ 1024 := (hrecoverable rfl).1
  omega

/-- After 1025 runs that receive nothing the backoff raises and the supervisor is dead. -/
theorem thousand_failures_kill :
    (∀ r : RandomValue, ¬ defaultPolicy.DelayBounded 1025 r) ∧
      ∃ error, (Lib.run (step defaultPolicy) {} (failedRuns 1024 ++
        [.streamEnded (some "ProviderUnavailableError") 0 liveObservation])).point =
          .ended (.raised error) := by
  refine ⟨fun r h => ?_, failedRuns_die rfl⟩
  have hle := (defaultPolicy.delay_bounded_iff 1025 r).mp h
  omega

end Supervisor

end ApexScan.IngestionSupervisor
