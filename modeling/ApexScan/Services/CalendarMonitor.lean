import ApexScan.Lib.Machine
import ApexScan.Services.CalendarComparison

/-!
# The calendar monitor and its driver (`app/services/calendar_monitor.py`)

The driver polls a clock and runs the monitor once an exchange-local day; the monitor fetches and parses
the secondary calendar, compares it with the authoritative dataset, keeps a bounded state, and logs at
INFO when the signature of what differs has changed.

* `CalendarMonitorService`, `CalendarMonitorDriver` — the two states; `check`, `maybeCheck`.
* `MonitorTask.step` — one turn of the driver's loop.  An exception that the monitor does not catch ends
  the loop.
* `Verdict` — what a check found; `verdictOf`.
* `reportOf` — what the state says of the checks of a run.

Main results: `checks_once_a_day`, `monitor_reports`.
-/

set_option autoImplicit false

namespace ApexScan.CalendarMonitor

open Lib Dhan.Calendar Deploy

/-! ## The service -/

/-- `CalendarMonitorParseStatus`. -/
inductive MonitorParseStatus where
  | ok
  | parseFailure
  | notAttempted
  deriving DecidableEq, Repr

structure CalendarMonitorState where
  lastAttemptAt : Option Int := none
  lastSuccessAt : Option Int := none
  source : Option String := none
  sourceYear : Option ℕ := none
  status : Option CalendarComparisonStatus := none
  differenceCount : ℕ := 0
  parseStatus : MonitorParseStatus := .notAttempted
  signature : Option String := none
  deriving DecidableEq

/-- How `fetch` ends: with a page, with a `ProviderBoundaryError`, or with another exception. -/
inductive Fetched where
  | page (events : List HtmlEvent)
  | boundaryError
  | otherError

/-- An exception that leaves `check`. -/
inductive Uncaught where
  | fetch
  | parser (error : CalendarError)
  deriving DecidableEq

inductive LogLevel where
  | debug
  | info
  deriving DecidableEq, Repr

/-- `_OBSERVATION_SOURCE`. -/
def observationSource : String := "dhan_market_holiday"

structure CalendarMonitorService where
  dataset : Option TradingCalendarDataset
  state : CalendarMonitorState := {}

namespace CalendarMonitorService

/-- `_fetch_failure_state`. -/
def fetchFailureState (s : CalendarMonitorService) (reference : Int) : CalendarMonitorState where
  lastAttemptAt := some reference
  lastSuccessAt := s.state.lastSuccessAt
  source := s.state.source
  sourceYear := s.state.sourceYear
  status := some .dhanFetchFailure
  differenceCount := 0
  parseStatus := .notAttempted
  signature := some (signature .dhanFetchFailure [])

/-- `_success_state`. -/
def successState (reference : Int) (observation : Observation) (comparison : CalendarComparison) :
    CalendarMonitorState where
  lastAttemptAt := some reference
  lastSuccessAt := some reference
  source := some observation.source
  sourceYear := observation.sourceYear
  status := some comparison.overallStatus
  differenceCount := comparison.differenceCount
  parseStatus := if observation.parseStatus = .ok then .ok else .parseFailure
  signature := some comparison.signature

/-- `_evaluate`. -/
def evaluate (u : UnicodeData) (s : CalendarMonitorService) (reference : Int) :
    Fetched → Except Uncaught CalendarMonitorState
  | .boundaryError => .ok (s.fetchFailureState reference)
  | .otherError => .error .fetch
  | .page events =>
    match parse u observationSource events with
    | .error e => .error (.parser e)
    | .ok observation => .ok (successState reference observation (compare observation s.dataset))

/-- The level of `_log`. -/
def logLevel (state : CalendarMonitorState) (previousSignature : Option String) : LogLevel :=
  if state.signature ≠ previousSignature then .info else .debug

/-- `check`: the service after it, and the level of its log line. -/
def check (u : UnicodeData) (s : CalendarMonitorService) (reference : Int) (fetched : Fetched) :
    Except Uncaught (CalendarMonitorService × LogLevel) :=
  match s.evaluate u reference fetched with
  | .error e => .error e
  | .ok state => .ok ({ s with state }, logLevel state s.state.signature)

end CalendarMonitorService

/-! ## The driver -/

structure CalendarMonitorDriver where
  monitor : CalendarMonitorService
  timezone : ZoneInfo
  runTime : Int
  lastRunDate : Option Int := none

/-- One turn of the loop: the instant of the clock, and how a fetch would end. -/
structure Poll where
  now : Int
  fetched : Fetched

/-- A check that ran, and the level it logged at unless it raised. -/
structure Check where
  reference : Int
  fetched : Fetched
  result : Except Uncaught LogLevel

namespace CalendarMonitorDriver

/-- The exchange-local date of an instant. -/
def localDate (d : CalendarMonitorDriver) (now : Int) : Int := wallDate (d.timezone.toLocal now)

/-- The exchange-local time is at or after the run time. -/
def atRunTime (d : CalendarMonitorDriver) (now : Int) : Bool :=
  d.runTime ≤ wallTime (d.timezone.toLocal now)

/-- `_maybe_check`: the driver after it and the check, if one ran. -/
def maybeCheck (u : UnicodeData) (d : CalendarMonitorDriver) (p : Poll) :
    CalendarMonitorDriver × Option Check :=
  if some (d.localDate p.now) ≠ d.lastRunDate ∧ d.atRunTime p.now then
    match d.monitor.check u p.now p.fetched with
    | .error e => (d, some ⟨p.now, p.fetched, .error e⟩)
    | .ok (monitor, level) =>
      ({ d with monitor, lastRunDate := some (d.localDate p.now) },
        some ⟨p.now, p.fetched, .ok level⟩)
  else (d, none)

end CalendarMonitorDriver

/-- Whether the check raised. -/
def Check.raised (c : Check) : Bool :=
  match c.result with
  | .error _ => true
  | .ok _ => false

/-- The task that runs the driver. -/
structure MonitorTask where
  driver : CalendarMonitorDriver
  ended : Bool := false

namespace MonitorTask

/-- One turn of `run`; a check that raises ends the loop. -/
def step (u : UnicodeData) (t : MonitorTask) (p : Poll) : MonitorTask × Option Check :=
  if t.ended then (t, none)
  else
    let (driver, checked) := t.driver.maybeCheck u p
    ({ driver, ended := checked.any Check.raised }, checked)

/-- A driver that has not polled yet. -/
def start (dataset : Option TradingCalendarDataset) (timezone : ZoneInfo) (runTime : Int) : MonitorTask where
  driver := { monitor := { dataset }, timezone, runTime }

end MonitorTask

/-! ## What a check finds -/

/-- What a check that completed obtained. -/
inductive Outcome where
  | fetchFailure
  | parsed (observation : Observation)

def outcomeOf (u : UnicodeData) : Fetched → Except Uncaught Outcome
  | .boundaryError => .ok .fetchFailure
  | .otherError => .error .fetch
  | .page events =>
    match parse u observationSource events with
    | .error e => .error (.parser e)
    | .ok observation => .ok (.parsed observation)

/-- Nothing could be compared, or these dates differ, and how. -/
inductive Verdict where
  | failed (status : CalendarComparisonStatus)
  | found (findings : List (GregorianDate × CalendarComparisonStatus))

/-- The verdicts say the same; the order of the findings does not matter. -/
def Verdict.Same : Verdict → Verdict → Prop
  | .failed s, .failed t => s = t
  | .found xs, .found ys => xs.Perm ys
  | _, _ => False

section Dataset

variable (dataset : Option TradingCalendarDataset)

def verdictOf : Outcome → Verdict
  | .fetchFailure => .failed .dhanFetchFailure
  | .parsed observation =>
    if observation.parseStatus = .parseFailure then .failed .dhanParseFailure
    else
      match dataset with
      | none => .failed .authoritativeCoverageMissing
      | some dataset => .found (findings dataset observation)

/-- The canonical text of what a check found. -/
def textOf : Outcome → String
  | .fetchFailure => canonical .dhanFetchFailure []
  | .parsed observation =>
    if observation.parseStatus = .parseFailure then canonical .dhanParseFailure []
    else
      match dataset with
      | none => canonical .authoritativeCoverageMissing []
      | some dataset => canonicalOf dataset observation

def signatureOf : Outcome → String
  | .fetchFailure => signature .dhanFetchFailure []
  | .parsed observation => (compare observation dataset).signature

/-- The texts of the two outcomes do not collide under the digest. -/
def NoClash (a b : Outcome) : Prop :=
  digest (textOf dataset a) = digest (textOf dataset b) → textOf dataset a = textOf dataset b

end Dataset

/-- A check that completed. -/
structure Completed where
  reference : Int
  outcome : Outcome
  level : LogLevel

def Check.completed (u : UnicodeData) (c : Check) : Option Completed :=
  match c.result, outcomeOf u c.fetched with
  | .ok level, .ok outcome => some ⟨c.reference, outcome, level⟩
  | _, _ => none

/-- The checks of a run that completed, in order. -/
def completedOf (u : UnicodeData) (checks : List (Option Check)) : List Completed :=
  checks.filterMap fun checked => checked.bind (Check.completed u)

/-- A completed check that obtained a page: its reference and the observation. -/
def Completed.success (c : Completed) : Option (Int × Observation) :=
  match c.outcome with
  | .fetchFailure => none
  | .parsed observation => some (c.reference, observation)

/-- What the state says of the completed checks: the last of them, and the last that obtained a page. -/
def reportOf (dataset : Option TradingCalendarDataset) (done : List Completed) : CalendarMonitorState :=
  let last := done.getLast?
  let success := (done.filterMap Completed.success).getLast?
  { lastAttemptAt := last.map (·.reference)
    lastSuccessAt := success.map (·.1)
    source := success.map (·.2.source)
    sourceYear := success.bind (·.2.sourceYear)
    status := last.map fun c =>
      match c.outcome with
      | .fetchFailure => .dhanFetchFailure
      | .parsed observation => (compare observation dataset).overallStatus
    differenceCount := (last.map fun c =>
      match c.outcome with
      | .fetchFailure => 0
      | .parsed observation => (compare observation dataset).differenceCount).getD 0
    parseStatus := (last.map fun c =>
      match c.outcome with
      | .fetchFailure => .notAttempted
      | .parsed observation =>
        if observation.parseStatus = .ok then .ok else .parseFailure).getD .notAttempted
    signature := last.map fun c => signatureOf dataset c.outcome }

variable {u : UnicodeData} {dataset : Option TradingCalendarDataset}

/-! ## Signatures and verdicts -/

/-- A failure and findings have different canonical texts. -/
theorem canonicalOf_ne_canonical {d : TradingCalendarDataset} {a : Observation}
    (h : findings d a ≠ []) (status : CalendarComparisonStatus) :
    canonicalOf d a ≠ canonical status [] := by
  intro heq
  have hsplit := splitOn_canonicalOf h
  have hfailed : (canonical status []).toList.splitOn '|' = [status.value.toList, []] := by
    cases status <;> decide
  rw [heq, hfailed, List.cons.injEq] at hsplit
  obtain ⟨-, hrest⟩ := hsplit
  -- a finding has a text, and there is one for each part
  cases hresults : nonMatch (resultsOf d a) with
  | nil =>
    rw [hresults] at hrest
    cases hrest
  | cons result results =>
    rw [hresults, List.map_cons, List.cons.injEq] at hrest
    have hempty := hrest.1
    simp [finding] at hempty

theorem canonical_nil_inj {s t : CalendarComparisonStatus} (h : canonical s [] = canonical t []) :
    s = t := by
  revert h
  cases s <;> cases t <;> decide

/-- What a check found either failed or is a list of findings, and its text and signature follow. -/
theorem outcome_cases (dataset : Option TradingCalendarDataset) (o : Outcome) :
    (∃ status, verdictOf dataset o = .failed status ∧ textOf dataset o = canonical status [] ∧
      signatureOf dataset o = digest (canonical status [])) ∨
    ∃ d a, verdictOf dataset o = .found (findings d a) ∧ textOf dataset o = canonicalOf d a ∧
      signatureOf dataset o = signature (overallStatus (resultsOf d a)) (resultsOf d a) ∧
      dataset = some d := by
  cases o with
  | fetchFailure => exact .inl ⟨.dhanFetchFailure, rfl, rfl, rfl⟩
  | parsed observation =>
    by_cases hparse : observation.parseStatus = .parseFailure
    · refine .inl ⟨.dhanParseFailure, if_pos hparse, if_pos hparse, ?_⟩
      show (compare observation dataset).signature = _
      unfold compare
      rw [if_pos hparse]
      rfl
    · cases dataset with
      | none =>
        refine .inl ⟨.authoritativeCoverageMissing, if_neg hparse, if_neg hparse, ?_⟩
        show (compare observation none).signature = _
        unfold compare
        rw [if_neg hparse]
        rfl
      | some d =>
        have hok : observation.parseStatus = .ok := by
          cases h : observation.parseStatus with
          | ok => rfl
          | parseFailure => exact absurd h hparse
        refine .inr ⟨d, observation, if_neg hparse, if_neg hparse, ?_, rfl⟩
        show (compare observation (some d)).signature = _
        rw [compare_some hok]

/-- The signature of findings is not that of a failure, where the digest has no collision. -/
theorem signature_ne_failed {d : TradingCalendarDataset} {a : Observation}
    {status : CalendarComparisonStatus}
    (hdigest : digest (canonicalOf d a) = digest (canonical status []) →
      canonicalOf d a = canonical status []) :
    signature (overallStatus (resultsOf d a)) (resultsOf d a) ≠ digest (canonical status []) := by
  intro h
  by_cases hnone : findings d a = []
  · rw [(signature_eq_match_iff a).mpr hnone] at h
    exact digest_ne_match _ h.symm
  · unfold signature at h
    rw [if_neg (mt (overallStatus_eq_matched_iff a).mp hnone)] at h
    exact canonicalOf_ne_canonical hnone status (hdigest h)

/-- **Equal signatures are equal verdicts**, where the digest has no collision. -/
theorem signatureOf_eq_iff {a b : Outcome} (hdigest : NoClash dataset a b) :
    signatureOf dataset a = signatureOf dataset b ↔
      (verdictOf dataset a).Same (verdictOf dataset b) := by
  unfold NoClash at hdigest
  rcases outcome_cases dataset a with ⟨s, hva, hta, hsa⟩ | ⟨d, oa, hva, hta, hsa, hd⟩ <;>
    rcases outcome_cases dataset b with ⟨t, hvb, htb, hsb⟩ | ⟨d', ob, hvb, htb, hsb, hd'⟩ <;>
    rw [hta, htb] at hdigest <;> rw [hva, hvb, hsa, hsb]
  · exact ⟨fun h => canonical_nil_inj (hdigest h), fun h => by rw [show s = t from h]⟩
  · refine iff_of_false (fun h => ?_) id
    exact signature_ne_failed (fun heq => (hdigest heq.symm).symm) h.symm
  · exact iff_of_false (signature_ne_failed hdigest) id
  · rw [hd] at hd'
    cases hd'
    exact signature_eq_iff hdigest

/-! ## One turn -/

/-- The level at which a check logs an outcome after the checks before it. -/
def levelAfter (dataset : Option TradingCalendarDataset) (done : List Completed) (o : Outcome) : LogLevel :=
  if some (signatureOf dataset o) ≠ done.getLast?.map (fun c => signatureOf dataset c.outcome) then .info
  else .debug

namespace CalendarMonitorService

variable {s : CalendarMonitorService} {done : List Completed} {reference : Int} {fetched : Fetched}

theorem check_of_error {e : Uncaught} (h : outcomeOf u fetched = .error e) :
    s.check u reference fetched = .error e := by
  cases fetched with
  | boundaryError => cases h
  | otherError =>
    cases h
    rfl
  | page events =>
    simp only [outcomeOf] at h
    cases hparse : parse u observationSource events with
    | error e' =>
      rw [hparse] at h
      cases h
      simp only [check, evaluate, hparse]
    | ok observation =>
      rw [hparse] at h
      cases h

/-- A check that completes adds itself to what the state reports. -/
theorem evaluate_of_ok {o : Outcome} (h : outcomeOf u fetched = .ok o)
    (hs : s.state = reportOf s.dataset done) (level : LogLevel) :
    s.evaluate u reference fetched =
      .ok (reportOf s.dataset (done ++ [⟨reference, o, level⟩])) := by
  cases fetched with
  | boundaryError =>
    cases h
    simp only [evaluate, fetchFailureState, hs, reportOf, List.getLast?_concat, List.filterMap_append]
    rw [show [(⟨reference, .fetchFailure, level⟩ : Completed)].filterMap Completed.success = [] from rfl,
      List.append_nil]
    rfl
  | otherError => cases h
  | page events =>
    simp only [outcomeOf] at h
    cases hparse : parse u observationSource events with
    | error e =>
      rw [hparse] at h
      cases h
    | ok observation =>
      rw [hparse] at h
      cases h
      simp only [evaluate, hparse, successState, reportOf, List.getLast?_concat, List.filterMap_append]
      rw [show [(⟨reference, .parsed observation, level⟩ : Completed)].filterMap Completed.success =
        [(reference, observation)] from rfl, List.getLast?_concat]
      rfl

theorem check_of_ok {o : Outcome} (h : outcomeOf u fetched = .ok o)
    (hs : s.state = reportOf s.dataset done) :
    s.check u reference fetched =
      .ok ({ s with state := reportOf s.dataset (done ++ [⟨reference, o, levelAfter s.dataset done o⟩]) },
        levelAfter s.dataset done o) := by
  unfold check
  rw [evaluate_of_ok h hs (levelAfter s.dataset done o)]
  simp only [logLevel, hs, reportOf, List.getLast?_concat, Option.map_some, levelAfter]

end CalendarMonitorService

namespace MonitorTask

/-- A turn whose check is due. -/
def Due (t : MonitorTask) (p : Poll) : Prop :=
  some (t.driver.localDate p.now) ≠ t.driver.lastRunDate ∧ t.driver.atRunTime p.now = true

/-- The task after a check that completed. -/
def after (t : MonitorTask) (now : Int) (done : List Completed) : MonitorTask where
  driver :=
    { t.driver with
      monitor := { t.driver.monitor with state := reportOf t.driver.monitor.dataset done }
      lastRunDate := some (t.driver.localDate now) }
  ended := false

/-- **What a turn does**: nothing, or a check that raises and ends the loop, or a check that completes. -/
theorem step_cases {t : MonitorTask} (p : Poll) {done : List Completed}
    (hs : t.driver.monitor.state = reportOf t.driver.monitor.dataset done) :
    ((t.ended = true ∨ ¬ t.Due p) ∧ step u t p = (t, none)) ∨
    ((t.ended = false ∧ t.Due p) ∧
      ((∃ e, outcomeOf u p.fetched = .error e ∧
        step u t p = ({ t with ended := true }, some ⟨p.now, p.fetched, .error e⟩)) ∨
      ∃ o, outcomeOf u p.fetched = .ok o ∧
        step u t p =
          (t.after p.now (done ++ [⟨p.now, o, levelAfter t.driver.monitor.dataset done o⟩]),
            some ⟨p.now, p.fetched, .ok (levelAfter t.driver.monitor.dataset done o)⟩))) := by
  cases hended : t.ended with
  | true =>
    refine .inl ⟨.inl rfl, ?_⟩
    unfold step
    rw [if_pos hended]
  | false =>
    have hlive : ¬ t.ended = true := by simp [hended]
    by_cases hdue : t.Due p
    · refine .inr ⟨⟨rfl, hdue⟩, ?_⟩
      unfold step CalendarMonitorDriver.maybeCheck
      unfold Due at hdue
      rw [if_neg hlive, if_pos hdue]
      cases ho : outcomeOf u p.fetched with
      | error e =>
        rw [CalendarMonitorService.check_of_error ho]
        exact .inl ⟨e, rfl, rfl⟩
      | ok o =>
        rw [CalendarMonitorService.check_of_ok ho hs]
        exact .inr ⟨o, rfl, rfl⟩
    · refine .inl ⟨.inr hdue, ?_⟩
      unfold step CalendarMonitorDriver.maybeCheck
      unfold Due at hdue
      rw [if_neg hlive, if_neg hdue]
      show ((⟨t.driver, false⟩ : MonitorTask), (none : Option Check)) = (t, none)
      rw [← hended]

end MonitorTask

/-! ## Runs -/

section Runs

variable {timezone : ZoneInfo} {runTime : Int} {polls : List Poll}

/-- The exchange-local date of a poll. -/
def dateOf (timezone : ZoneInfo) (p : Poll) : Int := wallDate (timezone.toLocal p.now)

/-- The exchange-local time of a poll is at or after the run time. -/
def DueTime (timezone : ZoneInfo) (runTime : Int) (p : Poll) : Prop :=
  runTime ≤ wallTime (timezone.toLocal p.now)

/-- What holds of the task after the polls: it has its settings, its state reports the checks that
    completed, and it has ended iff one of them raised. -/
structure Reached (u : UnicodeData) (dataset : Option TradingCalendarDataset) (timezone : ZoneInfo)
    (runTime : Int) (checks : List (Option Check)) (t : MonitorTask) : Prop where
  sameDataset : t.driver.monitor.dataset = dataset
  sameTimezone : t.driver.timezone = timezone
  sameRunTime : t.driver.runTime = runTime
  state : t.driver.monitor.state = reportOf dataset (completedOf u checks)
  ended : t.ended = true ↔ ∃ c, some c ∈ checks ∧ c.raised = true

theorem completedOf_concat (checks : List (Option Check)) (checked : Option Check) :
    completedOf u (checks ++ [checked]) =
      completedOf u checks ++ (checked.bind (Check.completed u)).toList := by
  unfold completedOf
  rw [List.filterMap_append]
  cases hc : checked.bind (Check.completed u) with
  | none => simp [hc]
  | some c => simp [hc]

/-- The state in the terms of the task's own dataset. -/
theorem Reached.reports {checks : List (Option Check)} {t : MonitorTask}
    (h : Reached u dataset timezone runTime checks t) :
    t.driver.monitor.state = reportOf t.driver.monitor.dataset (completedOf u checks) := by
  rw [h.sameDataset]
  exact h.state

theorem Reached.step {checks : List (Option Check)} {t : MonitorTask}
    (h : Reached u dataset timezone runTime checks t) (p : Poll) :
    Reached u dataset timezone runTime (checks ++ [(MonitorTask.step u t p).2])
      (MonitorTask.step u t p).1 := by
  rcases MonitorTask.step_cases (u := u) p h.reports with
    ⟨-, hstep⟩ | ⟨⟨hlive, -⟩, ⟨e, ho, hstep⟩ | ⟨o, ho, hstep⟩⟩ <;> rw [hstep]
  · refine ⟨h.sameDataset, h.sameTimezone, h.sameRunTime, ?_, ?_⟩
    · rw [completedOf_concat]
      simpa using h.state
    · rw [h.ended]
      simp
  · refine ⟨h.sameDataset, h.sameTimezone, h.sameRunTime, ?_, ?_⟩
    · rw [completedOf_concat]
      simpa [Check.completed] using h.state
    · simp [Check.raised]
  · refine ⟨h.sameDataset, h.sameTimezone, h.sameRunTime, ?_, ?_⟩
    · rw [completedOf_concat, h.sameDataset]
      simp [Check.completed, ho, MonitorTask.after, h.sameDataset]
    · have hnone : ¬ ∃ c, some c ∈ checks ∧ c.raised = true := by
        rw [← h.ended, hlive]
        simp
      refine iff_of_false (by simp [MonitorTask.after]) ?_
      rintro ⟨c, hc, hraised⟩
      rcases List.mem_append.mp hc with hc | hc
      · exact hnone ⟨c, hc, hraised⟩
      · cases List.mem_singleton.mp hc
        cases hraised

/-- The task and the outputs after the polls. -/
theorem reached (polls : List Poll) :
    Reached u dataset timezone runTime
      (outs (MonitorTask.step u) (MonitorTask.start dataset timezone runTime) polls)
      (run (MonitorTask.step u) (MonitorTask.start dataset timezone runTime) polls) := by
  induction polls using List.reverseRecOn with
  | nil => exact ⟨rfl, rfl, rfl, rfl, by simp [MonitorTask.start]⟩
  | append_singleton polls p ih =>
    rw [run_concat, outs_concat]
    exact ih.step p

/-- A due turn of a run, in terms of its poll. -/
theorem Reached.due_iff {checks : List (Option Check)} {t : MonitorTask}
    (h : Reached u dataset timezone runTime checks t) (p : Poll) :
    t.Due p ↔ some (dateOf timezone p) ≠ t.driver.lastRunDate ∧ DueTime timezone runTime p := by
  unfold MonitorTask.Due CalendarMonitorDriver.localDate CalendarMonitorDriver.atRunTime dateOf DueTime
  rw [h.sameTimezone, h.sameRunTime, decide_eq_true_iff]

/-- What is due is checked, while no check has raised. -/
theorem Reached.checked_iff {checks : List (Option Check)} {t : MonitorTask}
    (h : Reached u dataset timezone runTime checks t) (p : Poll) :
    (MonitorTask.step u t p).2.isSome ↔ t.ended = false ∧ t.Due p := by
  rcases MonitorTask.step_cases (u := u) p h.reports with
    ⟨hidle, hstep⟩ | ⟨hdue, ⟨e, -, hstep⟩ | ⟨o, -, hstep⟩⟩ <;> rw [hstep]
  · refine iff_of_false (by simp) ?_
    rintro ⟨hlive, hdue⟩
    rcases hidle with hended | hnot
    · rw [hended] at hlive
      cases hlive
    · exact hnot hdue
  · exact iff_of_true rfl hdue
  · exact iff_of_true rfl hdue

/-- While the loop goes on, the date of the last run is that of the last poll at its run time. -/
structure Visited (timezone : ZoneInfo) (runTime : Int) (polls : List Poll) (last : Option Int) :
    Prop where
  covers : ∀ q ∈ polls, DueTime timezone runTime q → ∃ d, last = some d ∧ dateOf timezone q ≤ d
  visited : ∀ d, last = some d → ∃ q ∈ polls, DueTime timezone runTime q ∧ dateOf timezone q = d

/-- The next poll finds its date visited iff an earlier poll at its run time had it. -/
theorem Visited.ne_iff {last : Option Int} {p : Poll} (h : Visited timezone runTime polls last)
    (hle : ∀ q ∈ polls, dateOf timezone q ≤ dateOf timezone p) :
    some (dateOf timezone p) ≠ last ↔
      ∀ q ∈ polls, DueTime timezone runTime q → dateOf timezone q ≠ dateOf timezone p := by
  constructor
  · intro hne q hq hdue heq
    obtain ⟨d, hlast, hqd⟩ := h.covers q hq hdue
    obtain ⟨r, hr, -, hrd⟩ := h.visited d hlast
    have hrp := hle r hr
    apply hne
    rw [hlast, Option.some.injEq]
    omega
  · rintro hfirst rfl
    obtain ⟨q, hq, hdue, hqd⟩ := h.visited _ rfl
    exact hfirst q hq hdue hqd

/-- A poll at its run time is the last visited one. -/
theorem visited_concat {p : Poll}
    (hle : ∀ q ∈ polls, dateOf timezone q ≤ dateOf timezone p) (hdue : DueTime timezone runTime p) :
    Visited timezone runTime (polls ++ [p]) (some (dateOf timezone p)) := by
  constructor
  · intro q hq _
    refine ⟨_, rfl, ?_⟩
    rcases List.mem_append.mp hq with hq | hq
    · exact hle q hq
    · rw [List.mem_singleton.mp hq]
  · intro d hd
    cases hd
    exact ⟨p, List.mem_append_right _ (List.mem_singleton_self p), hdue, rfl⟩

theorem Visited.idle {last : Option Int} {p : Poll} (h : Visited timezone runTime polls last)
    (hidle : DueTime timezone runTime p → last = some (dateOf timezone p)) :
    Visited timezone runTime (polls ++ [p]) last := by
  constructor
  · intro q hq hdue
    rcases List.mem_append.mp hq with hq | hq
    · exact h.covers q hq hdue
    · cases List.mem_singleton.mp hq
      exact ⟨_, hidle hdue, le_refl _⟩
  · intro d hd
    obtain ⟨q, hq, hdue, hqd⟩ := h.visited d hd
    exact ⟨q, List.mem_append_left _ hq, hdue, hqd⟩

theorem visited_run (u : UnicodeData) (dataset : Option TradingCalendarDataset)
    (hdates : polls.Pairwise fun p q => dateOf timezone p ≤ dateOf timezone q)
    (hlive : (run (MonitorTask.step u) (MonitorTask.start dataset timezone runTime) polls).ended = false) :
    Visited timezone runTime polls
      (run (MonitorTask.step u) (MonitorTask.start dataset timezone runTime) polls).driver.lastRunDate := by
  induction polls using List.reverseRecOn with
  | nil => exact ⟨fun q hq => (by cases hq), fun d hd => (by cases hd)⟩
  | append_singleton polls p ih =>
    rw [List.pairwise_append] at hdates
    obtain ⟨hbefore, -, hle⟩ := hdates
    replace hle : ∀ q ∈ polls, dateOf timezone q ≤ dateOf timezone p :=
      fun q hq => hle q hq p (List.mem_singleton_self p)
    have hreached := @reached u dataset timezone runTime polls
    rw [run_concat] at hlive ⊢
    generalize run (MonitorTask.step u) (MonitorTask.start dataset timezone runTime) polls = t at *
    rcases MonitorTask.step_cases (u := u) p hreached.reports with
      ⟨hidle, hstep⟩ | ⟨⟨hlive', hdue⟩, ⟨e, -, hstep⟩ | ⟨o, -, hstep⟩⟩ <;> rw [hstep] at hlive ⊢
    · refine (ih hbefore hlive).idle fun hdue => ?_
      rcases hidle with hended | hnot
      · rw [hended] at hlive
        cases hlive
      · by_contra hne
        exact hnot ((hreached.due_iff p).mpr ⟨fun h => hne h.symm, hdue⟩)
    · cases hlive
    · have hvisit := visited_concat hle ((hreached.due_iff p).mp hdue).2
      show Visited timezone runTime (polls ++ [p]) (some (t.driver.localDate p.now))
      unfold CalendarMonitorDriver.localDate
      rw [hreached.sameTimezone]
      exact hvisit

/-- **One check a day.**  While the exchange-local dates of the polls do not decrease, a poll runs a check
exactly when no check has raised before it, its local time is at or after the run time, and it is the
first such poll of its date. -/
theorem checks_once_a_day (u : UnicodeData) (dataset : Option TradingCalendarDataset)
    (timezone : ZoneInfo) (runTime : Int) (polls : List Poll)
    (hdates : polls.Pairwise fun p q => dateOf timezone p ≤ dateOf timezone q) :
    ∀ before p rest, polls = before ++ p :: rest →
      ((MonitorTask.step u
          (run (MonitorTask.step u) (MonitorTask.start dataset timezone runTime) before) p).2.isSome ↔
        (∀ c, some c ∈ outs (MonitorTask.step u) (MonitorTask.start dataset timezone runTime) before →
          c.raised = false) ∧
        DueTime timezone runTime p ∧
        ∀ q ∈ before, DueTime timezone runTime q → dateOf timezone q ≠ dateOf timezone p) := by
  rintro before p rest rfl
  rw [List.pairwise_append] at hdates
  obtain ⟨hbefore, -, hle⟩ := hdates
  replace hle : ∀ q ∈ before, dateOf timezone q ≤ dateOf timezone p :=
    fun q hq => hle q hq p List.mem_cons_self
  have hreached := @reached u dataset timezone runTime before
  have hraised : (∀ c, some c ∈ outs (MonitorTask.step u) (MonitorTask.start dataset timezone runTime) before →
      c.raised = false) ↔
        (run (MonitorTask.step u) (MonitorTask.start dataset timezone runTime) before).ended = false := by
    rw [← Bool.not_eq_true, hreached.ended]
    simp
  rw [hreached.checked_iff, hraised, hreached.due_iff]
  refine and_congr_right fun hlive => ?_
  rw [(visited_run u dataset hbefore hlive).ne_iff hle]
  exact and_comm

variable (u dataset timezone runTime) in
/-- The checks that the polls complete. -/
def doneOf (polls : List Poll) : List Completed :=
  completedOf u (outs (MonitorTask.step u) (MonitorTask.start dataset timezone runTime) polls)

/-- Every completed check logs at the level that the checks before it give it. -/
theorem levels {before after : List Completed} {c : Completed}
    (h : doneOf u dataset timezone runTime polls = before ++ c :: after) :
    c.level = levelAfter dataset before c.outcome := by
  induction polls using List.reverseRecOn generalizing after with
  | nil => simp [doneOf, completedOf] at h
  | append_singleton polls p ih =>
    have hreached := @reached u dataset timezone runTime polls
    unfold doneOf at h ih
    rw [outs_concat, completedOf_concat] at h
    rcases MonitorTask.step_cases (u := u) p hreached.reports with
      ⟨-, hstep⟩ | ⟨-, ⟨e, -, hstep⟩ | ⟨o, ho, hstep⟩⟩ <;> rw [hstep] at h
    · exact ih (by simpa using h)
    · exact ih (by simpa [Check.completed] using h)
    · rw [hreached.sameDataset] at h
      simp only [Option.bind_some, Check.completed, ho, Option.toList_some] at h
      -- the last check is this one or one from before
      rcases List.eq_nil_or_concat after with rfl | ⟨front, last, rfl⟩
      · obtain ⟨rfl, hc⟩ := List.append_inj' h rfl
        cases hc
        rfl
      · rw [List.concat_eq_append, ← List.cons_append, ← List.append_assoc] at h
        exact ih (List.append_inj' h rfl).1

/-- The signature of an outcome is that of another iff what they found is the same. -/
theorem levelAfter_eq_info_iff {done : List Completed} {prior : Completed} {o : Outcome}
    (hlast : done.getLast? = some prior) (hdigest : NoClash dataset prior.outcome o) :
    levelAfter dataset done o = .info ↔
      ¬ (verdictOf dataset prior.outcome).Same (verdictOf dataset o) := by
  rw [← signatureOf_eq_iff hdigest, levelAfter, hlast, Option.map_some]
  split
  · rename_i hne
    exact iff_of_true rfl fun h => hne (by rw [h])
  · rename_i heq
    exact iff_of_false (by simp) fun hne => heq fun h => hne (Option.some.inj h).symm

/-- **What the monitor reports.**  After any polls the state is that of the last completed check, with the
time and the source of the last one that obtained a page; the first completed check is logged at INFO, and
another one exactly when it found other dates or other statuses of them than the check before it, where
the digest has no collision among what the run found. -/
theorem monitor_reports (u : UnicodeData) (dataset : Option TradingCalendarDataset) (timezone : ZoneInfo)
    (runTime : Int) (polls : List Poll)
    (hdigest : ∀ a ∈ doneOf u dataset timezone runTime polls,
      ∀ b ∈ doneOf u dataset timezone runTime polls, NoClash dataset a.outcome b.outcome) :
    (run (MonitorTask.step u) (MonitorTask.start dataset timezone runTime) polls).driver.monitor.state =
      reportOf dataset (doneOf u dataset timezone runTime polls) ∧
    (∀ c, (doneOf u dataset timezone runTime polls).head? = some c → c.level = .info) ∧
    (doneOf u dataset timezone runTime polls).IsChain fun prior c => c.level = .info ↔
      ¬ (verdictOf dataset prior.outcome).Same (verdictOf dataset c.outcome) := by
  refine ⟨(reached polls).state, ?_, ?_⟩
  · intro c hc
    obtain ⟨after, hsplit⟩ := List.head?_eq_some_iff.mp hc
    rw [@levels u dataset timezone runTime polls [] after c hsplit]
    rfl
  · rw [List.isChain_iff_forall_rel_of_append_cons_cons]
    intro prior c before after hsplit
    have hprior : prior ∈ doneOf u dataset timezone runTime polls := by simp [hsplit]
    have hc : c ∈ doneOf u dataset timezone runTime polls := by simp [hsplit]
    have hafter : doneOf u dataset timezone runTime polls = (before ++ [prior]) ++ c :: after := by
      simp [hsplit]
    rw [levels hafter]
    exact levelAfter_eq_info_iff (by simp) (hdigest prior hprior c hc)

end Runs

/-! ## Three days of 2026 -/

/-- An instant by its exchange-local day and minute. -/
def localInstant (date moment : Int) : Int := date * day + moment * minute - 330 * minute

/-- On the first day there is no page; the second and the third have one, and it is the same. -/
def threeDays : List Poll :=
  [⟨localInstant 20454 500, .page droppedHoliday⟩, ⟨localInstant 20454 510, .boundaryError⟩,
   ⟨localInstant 20454 511, .page droppedHoliday⟩, ⟨localInstant 20455 600, .page droppedHoliday⟩,
   ⟨localInstant 20456 510, .page droppedHoliday⟩]

theorem threeDays_ordered :
    threeDays.Pairwise fun p q => dateOf kolkata p ≤ dateOf kolkata q := by decide

theorem threeDays_checked : threeDays.length = 5 ∧
    (∀ before p rest, threeDays = before ++ p :: rest →
      ((MonitorTask.step asciiData (run (MonitorTask.step asciiData)
          (MonitorTask.start (some openSunday) kolkata (510 * minute)) before) p).2.isSome ↔
        (∀ c, some c ∈ outs (MonitorTask.step asciiData)
            (MonitorTask.start (some openSunday) kolkata (510 * minute)) before → c.raised = false) ∧
        DueTime kolkata (510 * minute) p ∧
        ∀ q ∈ before, DueTime kolkata (510 * minute) q → dateOf kolkata q ≠ dateOf kolkata p)) :=
  ⟨rfl, checks_once_a_day asciiData (some openSunday) kolkata (510 * minute) threeDays threeDays_ordered⟩

/-- The monitor of the three days, due at half past eight. -/
def threeDaysDone : List Completed :=
  doneOf asciiData (some openSunday) kolkata (510 * minute) threeDays

theorem failure_digest_ne_holiday : digest "dhan_fetch_failure|" ≠
    digest "dhan_new_closed_date|2026-03-03:dhan_new_closed_date" := by
  decide +kernel

theorem threeDays_texts : threeDaysDone.map (fun c => textOf (some openSunday) c.outcome) =
    ["dhan_fetch_failure|", "dhan_new_closed_date|2026-03-03:dhan_new_closed_date",
     "dhan_new_closed_date|2026-03-03:dhan_new_closed_date"] := by
  decide +kernel

theorem threeDays_noClash : ∀ a ∈ threeDaysDone, ∀ b ∈ threeDaysDone,
    NoClash (some openSunday) a.outcome b.outcome := by
  intro a ha b hb hdigest
  have htext (c : Completed) (hc : c ∈ threeDaysDone) :
      textOf (some openSunday) c.outcome = "dhan_fetch_failure|" ∨
        textOf (some openSunday) c.outcome =
          "dhan_new_closed_date|2026-03-03:dhan_new_closed_date" := by
    have hmem := List.mem_map_of_mem (f := fun c => textOf (some openSunday) c.outcome) hc
    rw [threeDays_texts] at hmem
    simpa using hmem
  rcases htext a ha with hta | hta <;> rcases htext b hb with htb | htb <;> rw [hta, htb] at hdigest ⊢
  · exact absurd hdigest failure_digest_ne_holiday
  · exact absurd hdigest.symm failure_digest_ne_holiday

/-- The failure and the page that follows it are logged at INFO, the page of the last day is not. -/
theorem threeDays_reported : threeDaysDone.map (·.level) = [.info, .info, .debug] ∧
    (run (MonitorTask.step asciiData) (MonitorTask.start (some openSunday) kolkata (510 * minute))
      threeDays).driver.monitor.state = reportOf (some openSunday) threeDaysDone ∧
    (∀ c, threeDaysDone.head? = some c → c.level = .info) ∧
    threeDaysDone.IsChain fun prior c => c.level = .info ↔
      ¬ (verdictOf (some openSunday) prior.outcome).Same (verdictOf (some openSunday) c.outcome) :=
  ⟨by decide +kernel,
    monitor_reports asciiData (some openSunday) kolkata (510 * minute) threeDays threeDays_noClash⟩

end ApexScan.CalendarMonitor
