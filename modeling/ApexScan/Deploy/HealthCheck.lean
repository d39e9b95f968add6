import ApexScan.Deploy.References
import ApexScan.Lib.Dict
import ApexScan.Lib.Interaction
import Mathlib.Data.Rat.Defs

/-!
# Release verification (`deploy/health_check.py`)

The deployed application is probed a bounded number of times, until all stages pass or the attempts are
used up.

* `Request`, `Answer` — what a deployment asks of its environment: remote commands, HTTP requests,
  sleeping, the version probe and the clock.  Every answer is possible, also one that raises.
* `getJson`, `probeEndpoints`, `verifyRelease`.
* `Escapes` — the answers whose exception nothing catches.
* `Verified` — the last attempt of a verification passes all stages with the expected build.

`verifyRelease_raisesBy` says when a verification returns, and `verifyRelease_success` when its result
is a success.
-/

set_option autoImplicit false

namespace ApexScan.Deploy

open Lib

/-! ## Requests and answers -/

/-- The exceptions that requests raise, or the code itself. -/
inductive PyError where
  | osError
  | valueError
  | overflowError
  | recursionError
  | httpException
  | assertionError
  deriving DecidableEq

/-- The result of a remote command. -/
structure ExecResult where
  returncode : Int
  stdout : String
  stderr : String

def ExecResult.ok (r : ExecResult) : Bool := r.returncode == 0

/-- The members of a JSON object, each value by its `str()`. -/
abbrev Members := Dict String String

/-- A parsed body: an object, or something else. -/
inductive JsonBody where
  | object (members : Members)
  | other

/-- A response; reading, decoding or parsing the body may raise. -/
structure HttpResponse where
  status : Int
  body : Except PyError JsonBody

inductive Request where
  | run (command : List String)
  | get (url : String) (timeout : ℚ)
  | sleep (seconds : ℚ)
  | probeVersion
  | now

/-- `time.sleep` raises for a duration that is negative or too long. -/
def Answer : Request → Type
  | .run _ => ExecResult
  | .get _ _ => Except PyError HttpResponse
  | .sleep _ => Except PyError Unit
  | .probeVersion => Except PyError (Bool × Option String)
  | .now => ℚ

abbrev Action (α : Type) := Interaction Request Answer PyError α

abbrev Event := Exchange Request Answer

/-- `executor.run`. -/
def executorRun (command : List String) : Action ExecResult :=
  Interaction.request (Request.run command)

/-- `time.sleep`. -/
def sleep (seconds : ℚ) : Action Unit := do
  let slept ← Interaction.request (Request.sleep seconds)
  Interaction.ofExcept slept

/-! ## Probes -/

/-- `except (OSError, ValueError)`. -/
def caught : PyError → Bool
  | .osError | .valueError => true
  | _ => false

/-- The value of `_get_json` for an answer; `.error` is an exception that it does not catch. -/
def jsonOf : Except PyError HttpResponse → Except PyError (Option (Members))
  | .error e => if caught e then .ok none else .error e
  | .ok response =>
    if response.status ≠ 200 then .ok none
    else
      match response.body with
      | .error e => if caught e then .ok none else .error e
      | .ok (.object members) => .ok (some members)
      | .ok .other => .ok none

/-- `_get_json`. -/
def getJson (url : String) (timeout : ℚ) : Action (Option (Members)) := do
  let answer ← Interaction.request (Request.get url timeout)
  Interaction.ofExcept (jsonOf answer)

/-- One observation of the deployed application. -/
structure ProbeResult where
  startupOk : Bool
  healthOk : Bool
  readyOk : Bool
  versionSha : Option String

def startupUrl (root : String) : String := root ++ "/api/v1/health/startup"
def healthUrl (root : String) : String := root ++ "/api/v1/health"
def readyUrl (root : String) : String := root ++ "/api/v1/health/ready"
def versionUrl (root : String) : String := root ++ "/api/v1/version"

/-- What the four bodies show. -/
def observed (startup health ready version : Option (Members)) : ProbeResult where
  startupOk := startup.isSome
  healthOk := health.isSome
  readyOk := ready.isSome
  versionSha := version.bind fun members => members.get "build_sha"

/-- `probe_endpoints`. -/
def probeEndpoints (root : String) (timeout : ℚ) : Action ProbeResult := do
  let startup ← getJson (startupUrl root) timeout
  let health ← getJson (healthUrl root) timeout
  let ready ← getJson (readyUrl root) timeout
  let version ← getJson (versionUrl root) timeout
  return observed startup health ready version

/-! ## Verification -/

inductive VerifyOutcome where
  | success
  | wrongSha
  | startupFailed
  | healthFailed
  | readinessFailed
  | timeout
  deriving DecidableEq

def VerifyOutcome.value : VerifyOutcome → String
  | success => "success"
  | wrongSha => "wrong_sha"
  | startupFailed => "startup_failed"
  | healthFailed => "health_failed"
  | readinessFailed => "readiness_failed"
  | timeout => "timeout"

structure VerifyResult where
  outcome : VerifyOutcome
  attempts : ℕ
  observedSha : Option String

/-- `_stage_failure`. -/
def stageFailure (probe : ProbeResult) : Option VerifyOutcome :=
  if !probe.startupOk then some .startupFailed
  else if !probe.healthOk then some .healthFailed
  else if !probe.readyOk then some .readinessFailed
  else none

variable (u : UnicodeData)

/-- The build that an attempt observed is the expected one. -/
def matchesSha (expected : String) (probe : ProbeResult) : Bool :=
  u.lower (strip (probe.versionSha.getD "")) == expected

/-- The loop of `verify_release`, with the attempts that are left, whether the application has ever
    started, and the last observation. -/
def verifyLoop (probe : Action ProbeResult) (expected : String) (maxAttempts : ℕ)
    (pause : Action Unit) : ℕ → Bool → ProbeResult → Action VerifyResult
  | 0, everStarted, last =>
    let outcome := (stageFailure last).getD .timeout
    return ⟨if everStarted then outcome else .timeout, maxAttempts, last.versionSha⟩
  | left + 1, everStarted, _ => do
    let last ← probe
    match stageFailure last with
    | none =>
      let outcome := if matchesSha u expected last then VerifyOutcome.success else .wrongSha
      return ⟨outcome, maxAttempts - left, last.versionSha⟩
    | some _ =>
      (if 0 < left then pause else pure ()) >>= fun _ =>
        verifyLoop probe expected maxAttempts pause left (everStarted || last.startupOk) last

/-- `verify_release`. -/
def verifyRelease (probe : Action ProbeResult) (expectedSha : String) (maxAttempts : Int)
    (pause : Action Unit) : Action VerifyResult :=
  if maxAttempts < 1 then Interaction.raise .valueError
  else verifyLoop u probe (u.lower (strip expectedSha)) maxAttempts.toNat pause maxAttempts.toNat
    false ⟨false, false, false, none⟩

/-! ## Answers that nothing catches -/

/-- An exception leaves the code: of an HTTP request, of the body of a response that is read, or of
    sleeping. -/
def Escapes : Event → Prop
  | ⟨.get _ _, .error e⟩ => caught e = false
  | ⟨.get _ _, .ok response⟩ => response.status = 200 ∧ ∃ e, response.body = .error e ∧ caught e = false
  | ⟨.sleep _, answer⟩ => ∃ e, answer = .error e
  | _ => False

theorem jsonOf_ok_iff {url : String} {timeout : ℚ} (answer : Except PyError HttpResponse) :
    (∃ found, jsonOf answer = .ok found) ↔ ¬ Escapes ⟨.get url timeout, answer⟩ := by
  unfold jsonOf
  cases answer with
  | error e => cases hcaught : caught e <;> simp [Escapes, hcaught]
  | ok response =>
    by_cases hstatus : response.status = 200
    · cases hbody : response.body with
      | error e => cases hcaught : caught e <;> simp [Escapes, hstatus, hbody, hcaught]
      | ok body => cases body <;> simp [Escapes, hstatus, hbody]
    · simp [Escapes, hstatus]

theorem getJson_raisesBy (url : String) (timeout : ℚ) :
    Interaction.RaisesBy Escapes (getJson url timeout) :=
  Interaction.raisesBy_ofExcept jsonOf_ok_iff

theorem sleep_raisesBy (seconds : ℚ) : Interaction.RaisesBy Escapes (sleep seconds) := by
  refine Interaction.raisesBy_ofExcept ?_
  intro answer
  cases answer with
  | error e =>
    refine ⟨?_, fun h => absurd ⟨e, rfl⟩ h⟩
    rintro ⟨_, h⟩
    cases h
  | ok _ =>
    refine ⟨?_, fun _ => ⟨(), rfl⟩⟩
    rintro - ⟨_, h⟩
    cases h

theorem probeEndpoints_raisesBy (root : String) (timeout : ℚ) :
    Interaction.RaisesBy Escapes (probeEndpoints root timeout) := by
  refine Interaction.raisesBy_bind (getJson_raisesBy _ _) fun startup => ?_
  refine Interaction.raisesBy_bind (getJson_raisesBy _ _) fun health => ?_
  refine Interaction.raisesBy_bind (getJson_raisesBy _ _) fun ready => ?_
  refine Interaction.raisesBy_bind (getJson_raisesBy _ _) fun version => ?_
  exact Interaction.raisesBy_pure _

variable {u}

theorem verifyLoop_raisesBy (root : String) (timeout interval : ℚ) (expected : String)
    (maxAttempts left : ℕ) (everStarted : Bool) (last : ProbeResult) :
    Interaction.RaisesBy Escapes (verifyLoop u (probeEndpoints root timeout) expected maxAttempts
      (sleep interval) left everStarted last) := by
  induction left generalizing everStarted last with
  | zero => exact Interaction.raisesBy_pure _
  | succ left ih =>
    rw [verifyLoop]
    refine Interaction.raisesBy_bind (probeEndpoints_raisesBy _ _) fun probe => ?_
    split
    · exact Interaction.raisesBy_pure _
    · refine Interaction.raisesBy_bind ?_ fun _ => ih _ _
      split
      · exact sleep_raisesBy _
      · exact Interaction.raisesBy_pure _

/-- A verification of at least one attempt returns, unless an exception escapes. -/
theorem verifyRelease_raisesBy (root : String) (timeout interval : ℚ) (sha : String)
    {maxAttempts : Int} (h : 1 ≤ maxAttempts) :
    Interaction.RaisesBy Escapes (verifyRelease u (probeEndpoints root timeout) sha maxAttempts
      (sleep interval)) := by
  rw [verifyRelease, if_neg (by omega)]
  exact verifyLoop_raisesBy _ _ _ _ _ _ _ _

/-! ## What a verification asks -/

/-- A request of the verification. -/
def Request.isProbe : Request → Bool
  | .get _ _ | .sleep _ => true
  | _ => false

theorem getJson_asks (url : String) (timeout : ℚ) :
    Interaction.Asks (fun q => q.isProbe = true) (getJson url timeout) :=
  Interaction.asks_bind (Interaction.asks_request rfl) fun _ => Interaction.asks_done _

theorem probeEndpoints_asks (root : String) (timeout : ℚ) :
    Interaction.Asks (fun q => q.isProbe = true) (probeEndpoints root timeout) := by
  refine Interaction.asks_bind (getJson_asks _ _) fun startup => ?_
  refine Interaction.asks_bind (getJson_asks _ _) fun health => ?_
  refine Interaction.asks_bind (getJson_asks _ _) fun ready => ?_
  refine Interaction.asks_bind (getJson_asks _ _) fun version => ?_
  exact Interaction.asks_done _

theorem verifyLoop_asks (root : String) (timeout interval : ℚ) (expected : String)
    (maxAttempts left : ℕ) (everStarted : Bool) (last : ProbeResult) :
    Interaction.Asks (fun q => q.isProbe = true) (verifyLoop u (probeEndpoints root timeout) expected
      maxAttempts (sleep interval) left everStarted last) := by
  induction left generalizing everStarted last with
  | zero => exact Interaction.asks_done _
  | succ left ih =>
    rw [verifyLoop]
    refine Interaction.asks_bind (probeEndpoints_asks _ _) fun probe => ?_
    split
    · exact Interaction.asks_done _
    · refine Interaction.asks_bind ?_ fun _ => ih _ _
      split
      · exact Interaction.asks_bind (Interaction.asks_request rfl) fun _ => Interaction.asks_done _
      · exact Interaction.asks_done _

theorem verifyRelease_asks (root : String) (timeout interval : ℚ) (sha : String)
    (maxAttempts : Int) :
    Interaction.Asks (fun q => q.isProbe = true) (verifyRelease u (probeEndpoints root timeout) sha
      maxAttempts (sleep interval)) := by
  rw [verifyRelease]
  split
  · exact Interaction.asks_done _
  · exact verifyLoop_asks _ _ _ _ _ _ _ _

/-! ## When a verification is a success -/

/-- The four requests of an attempt, with their answers. -/
def attemptEvents (root : String) (timeout : ℚ)
    (startup health ready version : Except PyError HttpResponse) : List Event :=
  [⟨.get (startupUrl root) timeout, startup⟩, ⟨.get (healthUrl root) timeout, health⟩,
    ⟨.get (readyUrl root) timeout, ready⟩, ⟨.get (versionUrl root) timeout, version⟩]

/-- The requests end with an attempt in which startup, health and readiness answer with an object,
    and the version answers with the expected build. -/
def Verified (u : UnicodeData) (root : String) (timeout : ℚ) (expectedSha : String)
    (trace : List Event) : Prop :=
  ∃ earlier startup health ready version build,
    trace = earlier ++ attemptEvents root timeout startup health ready version ∧
      (∃ members, jsonOf startup = .ok (some members)) ∧
      (∃ members, jsonOf health = .ok (some members)) ∧
      (∃ members, jsonOf ready = .ok (some members)) ∧ jsonOf version = .ok build ∧
      u.lower (strip ((build.bind fun members => members.get "build_sha").getD "")) =
        u.lower (strip expectedSha)

theorem runs_getJson {url : String} {timeout : ℚ} {trace : List Event} {found : Option Members}
    (h : Interaction.Runs (getJson url timeout) trace (.ok found)) :
    ∃ answer, trace = [⟨.get url timeout, answer⟩] ∧ jsonOf answer = .ok found := by
  obtain ⟨answer, rest, hrest, rfl⟩ := Interaction.runs_bind_request.mp h
  obtain ⟨rfl, hfound⟩ := Interaction.runs_ofExcept.mp hrest
  exact ⟨answer, rfl, hfound.symm⟩

/-- The requests of an observation. -/
theorem runs_probeEndpoints {root : String} {timeout : ℚ} {trace : List Event} {probe : ProbeResult}
    (h : Interaction.Runs (probeEndpoints root timeout) trace (.ok probe)) :
    ∃ a b c d startup health ready version, trace = attemptEvents root timeout a b c d ∧
      jsonOf a = .ok startup ∧ jsonOf b = .ok health ∧ jsonOf c = .ok ready ∧
      jsonOf d = .ok version ∧ probe = observed startup health ready version := by
  obtain ⟨startup, first, rest₁, hstartup, h₁, rfl⟩ := Interaction.runs_bind_ok.mp h
  obtain ⟨health, second, rest₂, hhealth, h₂, rfl⟩ := Interaction.runs_bind_ok.mp h₁
  obtain ⟨ready, third, rest₃, hready, h₃, rfl⟩ := Interaction.runs_bind_ok.mp h₂
  obtain ⟨version, fourth, rest₄, hversion, h₄, rfl⟩ := Interaction.runs_bind_ok.mp h₃
  obtain ⟨rfl, hprobe⟩ := Interaction.runs_pure.mp h₄
  obtain ⟨a, rfl, ha⟩ := runs_getJson hstartup
  obtain ⟨b, rfl, hb⟩ := runs_getJson hhealth
  obtain ⟨c, rfl, hc⟩ := runs_getJson hready
  obtain ⟨d, rfl, hd⟩ := runs_getJson hversion
  exact ⟨a, b, c, d, startup, health, ready, version, rfl, ha, hb, hc, hd, Except.ok.inj hprobe⟩

theorem stageFailure_observed {startup health ready version : Option Members} :
    stageFailure (observed startup health ready version) = none ↔
      startup.isSome = true ∧ health.isSome = true ∧ ready.isSome = true := by
  cases startup <;> cases health <;> cases ready <;> simp [stageFailure, observed]

theorem stageFailure_ne_success {probe : ProbeResult} {outcome : VerifyOutcome}
    (h : stageFailure probe = some outcome) : outcome ≠ .success := by
  unfold stageFailure at h
  split at h
  · cases h
    decide
  · split at h
    · cases h
      decide
    · split at h
      · cases h
        decide
      · cases h

/-- An observation ends a verified run iff its stages pass and its build matches. -/
theorem verified_append_probe {root : String} {timeout : ℚ} {expectedSha : String}
    {front trace : List Event} {probe : ProbeResult}
    (h : Interaction.Runs (probeEndpoints root timeout) trace (.ok probe)) :
    Verified u root timeout expectedSha (front ++ trace) ↔
      stageFailure probe = none ∧ matchesSha u (u.lower (strip expectedSha)) probe = true := by
  obtain ⟨a, b, c, d, startup, health, ready, version, rfl, ha, hb, hc, hd, rfl⟩ :=
    runs_probeEndpoints h
  rw [stageFailure_observed, matchesSha, beq_iff_eq]
  constructor
  · rintro ⟨earlier, a', b', c', d', build, htrace, ⟨s, hs⟩, ⟨t, ht⟩, ⟨r, hr⟩, hv, hmatch⟩
    obtain ⟨-, hsame⟩ := List.append_inj' htrace rfl
    cases hsame
    rw [hs] at ha
    rw [ht] at hb
    rw [hr] at hc
    rw [hv] at hd
    cases ha
    cases hb
    cases hc
    cases hd
    exact ⟨⟨rfl, rfl, rfl⟩, hmatch⟩
  · rintro ⟨⟨hs, hh, hr⟩, hmatch⟩
    obtain ⟨s, rfl⟩ := Option.isSome_iff_exists.mp hs
    obtain ⟨t, rfl⟩ := Option.isSome_iff_exists.mp hh
    obtain ⟨r, rfl⟩ := Option.isSome_iff_exists.mp hr
    exact ⟨front, a, b, c, d, version, rfl, ⟨s, ha⟩, ⟨t, hb⟩, ⟨r, hc⟩, hd, hmatch⟩

/-- The loop succeeds iff the requests, its own after those before, end with a verified attempt. -/
theorem verifyLoop_success {root : String} {timeout interval : ℚ} {sha : String}
    {maxAttempts left : ℕ} {everStarted : Bool} {last : ProbeResult} {front trace : List Event}
    {result : VerifyResult}
    (h : Interaction.Runs (verifyLoop u (probeEndpoints root timeout) (u.lower (strip sha))
      maxAttempts (sleep interval) left everStarted last) trace (.ok result))
    (hfront : left = 0 → ¬ Verified u root timeout sha front) :
    result.outcome = .success ↔ Verified u root timeout sha (front ++ trace) := by
  induction left generalizing everStarted last front trace with
  | zero =>
    obtain ⟨rfl, hresult⟩ := Interaction.runs_pure.mp h
    cases hresult
    rw [List.append_nil]
    constructor
    · intro hsuccess
      exfalso
      simp only at hsuccess
      split at hsuccess
      · cases hstage : stageFailure last with
        | none =>
          rw [hstage] at hsuccess
          cases hsuccess
        | some outcome =>
          rw [hstage] at hsuccess
          exact stageFailure_ne_success hstage hsuccess
      · cases hsuccess
    · intro hverified
      exact absurd hverified (hfront rfl)
  | succ left ih =>
    rw [verifyLoop] at h
    obtain ⟨probe, attempt, rest, hprobe, hrest, rfl⟩ := Interaction.runs_bind_ok.mp h
    cases hstage : stageFailure probe with
    | none =>
      rw [hstage] at hrest
      obtain ⟨rfl, hresult⟩ := Interaction.runs_pure.mp hrest
      cases hresult
      rw [List.append_nil, verified_append_probe hprobe]
      cases hmatch : matchesSha u (u.lower (strip sha)) probe <;> simp [hstage]
    | some failure =>
      rw [hstage] at hrest
      obtain ⟨_, paused, rest', hpause, hloop, rfl⟩ := Interaction.runs_bind_ok.mp hrest
      rw [← List.append_assoc, ← List.append_assoc]
      refine ih hloop ?_
      rintro rfl
      -- after the last attempt there is no pause, and it has failed
      rw [if_neg (by omega)] at hpause
      obtain ⟨rfl, -⟩ := Interaction.runs_pure.mp hpause
      rw [List.append_nil, verified_append_probe hprobe, hstage]
      rintro ⟨habsurd, -⟩
      cases habsurd

/-- A verification succeeds iff its requests end with a verified attempt. -/
theorem verifyRelease_success {root : String} {timeout interval : ℚ} {sha : String}
    {maxAttempts : Int} {trace : List Event} {result : VerifyResult}
    (h : Interaction.Runs (verifyRelease u (probeEndpoints root timeout) sha maxAttempts
      (sleep interval)) trace (.ok result)) :
    result.outcome = .success ↔ Verified u root timeout sha trace := by
  rw [verifyRelease] at h
  split at h
  · obtain ⟨-, hraised⟩ := Interaction.runs_raise.mp h
    cases hraised
  · have hloop : result.outcome = .success ↔ Verified u root timeout sha ([] ++ trace) :=
      verifyLoop_success h (by omega)
    rwa [List.nil_append] at hloop

end ApexScan.Deploy
