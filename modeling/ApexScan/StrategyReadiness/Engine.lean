import ApexScan.MarketHistory.Coverage

/-!
# Readiness of an instrument for a strategy (`app/strategy_readiness`)

A strategy may consider an instrument once every input that it declares is there.  The engine reads
the universe, the stored history and the live state through three narrow views and gives one status
by a fixed precedence, with one reason for every status but READY.

* `UniverseView`, `HistoricalCoverageView`, `LiveReadinessState` — the views; a lookup of history may
  raise.
* `StrategyReadinessEngine.classify`, `evaluate`, `evaluateBatch` — the engine and its counters.
* `Admitted` — the inputs on which the status is READY.
* `InOrder` — every declared input is there, current and not in the future.

Main results: `classify_ready_iff`, `evaluate_ready`, `evaluateBatch_totals`,
`evaluateBatch_readyPairs`.  `ready_not_inOrder` has two inputs on which READY and `InOrder` differ.

The message of a reason, which the engine never sets, and the frozen copy of the counters are left out.
-/

set_option autoImplicit false

namespace ApexScan.StrategyReadiness

open MarketHistory

/-! ## Requirements -/

/-- `PriceAdjustment`. -/
inductive PriceAdjustment
  | raw | adjusted
  deriving DecidableEq, Repr

/-- The value of the enumeration, which is also its `str`. -/
def PriceAdjustment.text : PriceAdjustment → String
  | raw => "raw"
  | adjusted => "adjusted"

/-- `HistoricalNeed`. -/
structure HistoricalNeed where
  tradingDays : ℕ
  adjustment : PriceAdjustment := .raw
  tradingDays_pos : 1 ≤ tradingDays

/-- `ReadinessRequirement`; an age is in microseconds. -/
structure ReadinessRequirement where
  historical : Option HistoricalNeed := none
  needsPreviousDayOhlc : Bool := false
  needsPreviousClose : Bool := false
  needsSessionOpen : Bool := false
  needsLastPrice : Bool := false
  maxLiveAge : Option Int := none
  maxLiveAge_pos : ∀ age ∈ maxLiveAge, 0 < age := by simp

/-- `requires_live`. -/
def ReadinessRequirement.requiresLive (r : ReadinessRequirement) : Bool :=
  r.needsSessionOpen || r.needsLastPrice

/-! ## Results -/

/-- `StrategyReadinessStatus`. -/
inductive StrategyReadinessStatus
  | ready | warmingUp | missingHistory | missingReference | missingLiveData | universeMismatch
  | removed | stale
  deriving DecidableEq, Repr

/-- `ReadinessReasonCode`. -/
inductive ReadinessReasonCode
  | removedFromUniverse | universeVersionMismatch | insufficientHistory | previousDayMissing
  | adjustedHistoryUnavailable | missingPreviousClose | missingSessionOpen | missingLastPrice
  | liveDataStale | awaitingFirstObservation
  deriving DecidableEq, Repr

structure ReadinessReason where
  code : ReadinessReasonCode
  field : String
  required : Option String := none
  available : Option String := none
  deriving DecidableEq, Repr

structure StrategyReadinessResult where
  instrumentIdentity : String
  strategyId : String
  universeVersion : Int
  tradingDate : Int
  status : StrategyReadinessStatus
  reasons : List ReadinessReason
  evaluatedAt : Int
  deriving DecidableEq, Repr

/-- `is_ready`. -/
def StrategyReadinessResult.isReady (r : StrategyReadinessResult) : Bool :=
  decide (r.status = .ready)

structure StrategyReadinessSnapshot where
  tradingDate : Int
  universeVersion : Int
  results : List StrategyReadinessResult
  deriving DecidableEq, Repr

namespace StrategyReadinessSnapshot

/-- `totals_by_status`. -/
def totalsByStatus (s : StrategyReadinessSnapshot) (status : StrategyReadinessStatus) : ℕ :=
  s.results.countP fun r => decide (r.status = status)

/-- `ready_pairs`. -/
def readyPairs (s : StrategyReadinessSnapshot) : List (String × String) :=
  (s.results.filter (·.isReady)).map fun r => (r.instrumentIdentity, r.strategyId)

end StrategyReadinessSnapshot

/-! ## Counters -/

/-- `ReadinessMetrics`. -/
structure ReadinessMetrics where
  evaluationsTotal : ℕ := 0
  readyTotal : ℕ := 0
  warmingUpTotal : ℕ := 0
  missingHistoryTotal : ℕ := 0
  missingReferenceTotal : ℕ := 0
  missingLiveDataTotal : ℕ := 0
  universeMismatchTotal : ℕ := 0
  removedTotal : ℕ := 0
  staleTotal : ℕ := 0
  lastEvaluationAt : Option Int := none
  deriving DecidableEq, Repr

namespace ReadinessMetrics

/-- The counter that `_STATUS_FIELD` names. -/
def total (m : ReadinessMetrics) : StrategyReadinessStatus → ℕ
  | .ready => m.readyTotal
  | .warmingUp => m.warmingUpTotal
  | .missingHistory => m.missingHistoryTotal
  | .missingReference => m.missingReferenceTotal
  | .missingLiveData => m.missingLiveDataTotal
  | .universeMismatch => m.universeMismatchTotal
  | .removed => m.removedTotal
  | .stale => m.staleTotal

/-- The `setattr` of `record`. -/
def bump (m : ReadinessMetrics) : StrategyReadinessStatus → ReadinessMetrics
  | .ready => { m with readyTotal := m.readyTotal + 1 }
  | .warmingUp => { m with warmingUpTotal := m.warmingUpTotal + 1 }
  | .missingHistory => { m with missingHistoryTotal := m.missingHistoryTotal + 1 }
  | .missingReference => { m with missingReferenceTotal := m.missingReferenceTotal + 1 }
  | .missingLiveData => { m with missingLiveDataTotal := m.missingLiveDataTotal + 1 }
  | .universeMismatch => { m with universeMismatchTotal := m.universeMismatchTotal + 1 }
  | .removed => { m with removedTotal := m.removedTotal + 1 }
  | .stale => { m with staleTotal := m.staleTotal + 1 }

/-- `record`. -/
def record (m : ReadinessMetrics) (status : StrategyReadinessStatus) (now : Int) :
    ReadinessMetrics :=
  { m.bump status with evaluationsTotal := m.evaluationsTotal + 1, lastEvaluationAt := some now }

theorem total_record (m : ReadinessMetrics) (status counted : StrategyReadinessStatus) (now : Int) :
    (m.record status now).total counted =
      m.total counted + if status = counted then 1 else 0 := by
  cases status <;> cases counted <;> rfl

@[simp] theorem evaluationsTotal_record (m : ReadinessMetrics) (status : StrategyReadinessStatus)
    (now : Int) : (m.record status now).evaluationsTotal = m.evaluationsTotal + 1 := rfl

end ReadinessMetrics

/-! ## The engine -/

/-- What a lookup of history may raise. -/
inductive LookupError
  | adjustedDataUnavailable | other
  deriving DecidableEq, Repr

structure UniverseView where
  isMember : String → Bool
  currentUniverseVersion : Int

structure HistoricalCoverageView where
  coverage : String → ℕ → PriceAdjustment → Int → Except LookupError HistoricalCoverage
  hasPreviousTradingBar : String → Int → Except LookupError Bool

structure LiveReadinessState where
  previousClose : String → Option ℚ
  sessionOpen : String → Option ℚ
  lastPrice : String → Option ℚ
  observedAt : String → Option Int
  dataUniverseVersion : String → Option Int

/-- The views of the engine, which do not change while it evaluates. -/
structure StrategyReadinessEngine where
  universeView : UniverseView
  coverage : HistoricalCoverageView
  live : LiveReadinessState

/-- What the clock says at the three places where an evaluation asks it. -/
structure Readings where
  staleness : Int
  evaluated : Int
  recorded : Int

/-- Two digits of `%02d`, for a value below sixty. -/
def twoDigits (n : Int) : String :=
  if n < 10 then "0" ++ toString n else toString n

/-- Six digits of `%06d`. -/
def sixDigits (n : Int) : String :=
  let digits := toString n
  "".pushn '0' (6 - digits.length) ++ digits

/-- `str` of a `timedelta`: the days may be negative, the rest of the day is not. -/
def timedeltaText (microseconds : Int) : String :=
  let days := microseconds / 86400000000
  let seconds := microseconds % 86400000000 / 1000000
  let rest := microseconds % 1000000
  (if days = 0 then ""
    else toString days ++ " day" ++ (if days.natAbs = 1 then "" else "s") ++ ", ") ++
    toString (seconds / 3600) ++ ":" ++ twoDigits (seconds / 60 % 60) ++ ":" ++
    twoDigits (seconds % 60) ++ (if rest = 0 then "" else "." ++ sixDigits rest)

namespace StrategyReadinessEngine

variable (e : StrategyReadinessEngine)

/-- `_universe_mismatch`. -/
def universeMismatch (identity : String) : Option ReadinessReason :=
  match e.live.dataUniverseVersion identity with
  | none => none
  | some dataVersion =>
    if dataVersion ≠ e.universeView.currentUniverseVersion then
      some {
        code := .universeVersionMismatch, field := "universe_version",
        required := some (toString e.universeView.currentUniverseVersion),
        available := some (toString dataVersion) }
    else none

/-- The part of `_history_problem` on the declared need of history. -/
def coverageProblem (identity : String) (asOf : Int) :
    Option HistoricalNeed → Except LookupError (Option ReadinessReason)
  | none => .ok none
  | some need =>
    match e.coverage.coverage identity need.tradingDays need.adjustment asOf with
    | .error .adjustedDataUnavailable => .ok (some {
        code := .adjustedHistoryUnavailable, field := "historical.adjustment",
        required := some need.adjustment.text })
    | .error .other => .error .other
    | .ok coverage =>
      if coverage.isComplete then .ok none
      else .ok (some {
        code := .insufficientHistory, field := "historical.trading_days",
        required := some (toString need.tradingDays),
        available := some (toString coverage.availableCount) })

/-- `_history_problem`. -/
def historyProblem (identity : String) (requirement : ReadinessRequirement) (asOf : Int) :
    Except LookupError (Option ReadinessReason) := do
  match ← e.coverageProblem identity asOf requirement.historical with
  | some reason => return some reason
  | none =>
    if requirement.needsPreviousDayOhlc then
      if ← e.coverage.hasPreviousTradingBar identity asOf then return none
      else return some { code := .previousDayMissing, field := "previous_day_ohlc" }
    else return none

/-- `_staleness`, at the instant that it reads. -/
def staleness (now observedAt : Int) (requirement : ReadinessRequirement) :
    Option ReadinessReason :=
  match requirement.maxLiveAge with
  | none => none
  | some maxLiveAge =>
    if now - observedAt > maxLiveAge then
      some {
        code := .liveDataStale, field := "observed_at",
        required := some (timedeltaText maxLiveAge),
        available := some (timedeltaText (now - observedAt)) }
    else none

/-- `_live_status`. -/
def liveStatus (now : Int) (identity : String) (requirement : ReadinessRequirement) :
    StrategyReadinessStatus × List ReadinessReason :=
  if !requirement.requiresLive then (.ready, [])
  else
    match e.live.observedAt identity with
    | none => (.warmingUp, [{ code := .awaitingFirstObservation, field := "observed_at" }])
    | some observedAt =>
      if requirement.needsSessionOpen && (e.live.sessionOpen identity).isNone then
        (.missingLiveData, [{ code := .missingSessionOpen, field := "session_open" }])
      else if requirement.needsLastPrice && (e.live.lastPrice identity).isNone then
        (.missingLiveData, [{ code := .missingLastPrice, field := "last_price" }])
      else
        match staleness now observedAt requirement with
        | some stale => (.stale, [stale])
        | none => (.ready, [])

/-- `_classify`. -/
def classify (now : Int) (identity : String) (requirement : ReadinessRequirement) (asOf : Int) :
    Except LookupError (StrategyReadinessStatus × List ReadinessReason) :=
  if !e.universeView.isMember identity then
    .ok (.removed, [{ code := .removedFromUniverse, field := "universe" }])
  else
    match e.universeMismatch identity with
    | some mismatch => .ok (.universeMismatch, [mismatch])
    | none =>
      match e.historyProblem identity requirement asOf with
      | .error error => .error error
      | .ok (some historyProblem) => .ok (.missingHistory, [historyProblem])
      | .ok none =>
        if requirement.needsPreviousClose && (e.live.previousClose identity).isNone then
          .ok (.missingReference, [{ code := .missingPreviousClose, field := "previous_close" }])
        else .ok (e.liveStatus now identity requirement)

/-- `evaluate`, with the counters after it. -/
def evaluate (clock : Readings) (metrics : ReadinessMetrics) (instrumentIdentity strategyId : String)
    (requirement : ReadinessRequirement) (tradingDate : Int) :
    Except LookupError StrategyReadinessResult × ReadinessMetrics :=
  match e.classify clock.staleness instrumentIdentity requirement tradingDate with
  | .error error => (.error error, metrics)
  | .ok (status, reasons) =>
    (.ok {
      instrumentIdentity := instrumentIdentity
      strategyId := strategyId
      universeVersion := e.universeView.currentUniverseVersion
      tradingDate := tradingDate
      status := status
      reasons := reasons
      evaluatedAt := clock.evaluated }, metrics.record status clock.recorded)

/-- The generator of `evaluate_batch`, from its evaluation `turn`; `clock` is what each of them
    reads. -/
def evaluateAll (clock : ℕ → Readings) (tradingDate : Int) : ℕ → ReadinessMetrics →
    List (String × String × ReadinessRequirement) →
      Except LookupError (List StrategyReadinessResult) × ReadinessMetrics
  | _, metrics, [] => (.ok [], metrics)
  | turn, metrics, (identity, strategyId, requirement) :: pairs =>
    match e.evaluate (clock turn) metrics identity strategyId requirement tradingDate with
    | (.error error, metrics) => (.error error, metrics)
    | (.ok result, metrics) =>
      match evaluateAll clock tradingDate (turn + 1) metrics pairs with
      | (.error error, metrics) => (.error error, metrics)
      | (.ok results, metrics) => (.ok (result :: results), metrics)

/-- `evaluate_batch`, with the items of the mapping in their order. -/
def evaluateBatch (clock : ℕ → Readings) (metrics : ReadinessMetrics)
    (instrumentIdentities : List String)
    (strategyRequirements : List (String × ReadinessRequirement)) (tradingDate : Int) :
    Except LookupError StrategyReadinessSnapshot × ReadinessMetrics :=
  let pairs := instrumentIdentities.flatMap fun identity =>
    strategyRequirements.map fun item => (identity, item.1, item.2)
  match e.evaluateAll clock tradingDate 0 metrics pairs with
  | (.error error, metrics) => (.error error, metrics)
  | (.ok results, metrics) =>
    (.ok {
      tradingDate := tradingDate
      universeVersion := e.universeView.currentUniverseVersion
      results := results }, metrics)

/-! ## When the status is READY -/

/-- The declared inputs apart from the live observation are there. -/
structure Declared (identity : String) (requirement : ReadinessRequirement) (asOf : Int) : Prop where
  member : e.universeView.isMember identity = true
  history : ∀ need, requirement.historical = some need →
    ∃ coverage, e.coverage.coverage identity need.tradingDays need.adjustment asOf = .ok coverage ∧
      coverage.isComplete = true
  previousDay : requirement.needsPreviousDayOhlc = true →
    e.coverage.hasPreviousTradingBar identity asOf = .ok true
  previousClose : requirement.needsPreviousClose = true → (e.live.previousClose identity).isSome
  sessionOpen : requirement.needsSessionOpen = true → (e.live.sessionOpen identity).isSome
  lastPrice : requirement.needsLastPrice = true → (e.live.lastPrice identity).isSome

/-- The inputs on which the status is READY: a version that is known is the current one, and what is
    required of the live data has been observed and is no older than declared. -/
structure Admitted (now : Int) (identity : String) (requirement : ReadinessRequirement)
    (asOf : Int) : Prop extends Declared e identity requirement asOf where
  version : ∀ version, e.live.dataUniverseVersion identity = some version →
    version = e.universeView.currentUniverseVersion
  observed : requirement.requiresLive = true →
    ∃ observedAt, e.live.observedAt identity = some observedAt ∧
      ∀ maxLiveAge, requirement.maxLiveAge = some maxLiveAge → now - observedAt ≤ maxLiveAge

/-- Every declared input is there, of the current version and of an age that is neither negative nor
    above the declared one. -/
structure InOrder (now : Int) (identity : String) (requirement : ReadinessRequirement)
    (asOf : Int) : Prop extends Declared e identity requirement asOf where
  version : requirement.requiresLive = true →
    e.live.dataUniverseVersion identity = some e.universeView.currentUniverseVersion
  age : ∀ maxLiveAge, requirement.maxLiveAge = some maxLiveAge →
    ∃ observedAt, e.live.observedAt identity = some observedAt ∧ 0 ≤ now - observedAt ∧
      now - observedAt ≤ maxLiveAge

variable {e}
variable {now asOf tradingDate : Int} {identity strategyId : String}
  {requirement : ReadinessRequirement}

theorem universeMismatch_eq_none_iff :
    e.universeMismatch identity = none ↔
      ∀ version, e.live.dataUniverseVersion identity = some version →
        version = e.universeView.currentUniverseVersion := by
  unfold universeMismatch
  cases e.live.dataUniverseVersion identity with
  | none => simp
  | some version => simp

theorem coverageProblem_eq_none_iff (historical : Option HistoricalNeed) :
    e.coverageProblem identity asOf historical = .ok none ↔
      ∀ need, historical = some need →
        ∃ coverage,
          e.coverage.coverage identity need.tradingDays need.adjustment asOf = .ok coverage ∧
            coverage.isComplete = true := by
  cases historical with
  | none => simp [coverageProblem]
  | some need =>
    simp only [coverageProblem, Option.some.injEq, forall_eq']
    cases e.coverage.coverage identity need.tradingDays need.adjustment asOf with
    | error error => cases error <;> simp
    | ok coverage => cases hcomplete : coverage.isComplete <;> simp [hcomplete]

theorem historyProblem_eq_none_iff :
    e.historyProblem identity requirement asOf = .ok none ↔
      e.coverageProblem identity asOf requirement.historical = .ok none ∧
        (requirement.needsPreviousDayOhlc = true →
          e.coverage.hasPreviousTradingBar identity asOf = .ok true) := by
  unfold historyProblem
  cases hcoverage : e.coverageProblem identity asOf requirement.historical with
  | error error => simp [bind, Except.bind]
  | ok problem =>
    cases problem with
    | some reason => simp [bind, Except.bind, pure, Except.pure]
    | none =>
      simp only [bind, Except.bind, pure, Except.pure, true_and]
      cases hneeds : requirement.needsPreviousDayOhlc with
      | false => simp
      | true =>
        cases e.coverage.hasPreviousTradingBar identity asOf with
        | error error => simp
        | ok stored => cases stored <;> simp

theorem staleness_eq_none_iff {observedAt : Int} :
    staleness now observedAt requirement = none ↔
      ∀ maxLiveAge, requirement.maxLiveAge = some maxLiveAge → now - observedAt ≤ maxLiveAge := by
  unfold staleness
  cases requirement.maxLiveAge with
  | none => simp
  | some maxLiveAge => simp

/-- No declared input is missing: either it is not declared or it is there. -/
theorem present_iff {α : Type} {needs : Bool} {value : Option α} :
    (needs && value.isNone) = false ↔ (needs = true → value.isSome = true) := by
  cases needs <;> cases value <;> simp

/-- The live part is READY where nothing live is declared, or all of it is there and not too old. -/
theorem liveStatus_ready_iff :
    (e.liveStatus now identity requirement).1 = .ready ↔
      (requirement.needsSessionOpen = true → (e.live.sessionOpen identity).isSome) ∧
        (requirement.needsLastPrice = true → (e.live.lastPrice identity).isSome) ∧
        (requirement.requiresLive = true →
          ∃ observedAt, e.live.observedAt identity = some observedAt ∧
            staleness now observedAt requirement = none) := by
  unfold liveStatus
  cases hlive : requirement.requiresLive with
  | false =>
    have hnone := Bool.or_eq_false_iff.mp hlive
    simp [hnone.1, hnone.2]
  | true =>
    cases e.live.observedAt identity with
    | none => simp
    | some observedAt =>
      cases hopen : requirement.needsSessionOpen && (e.live.sessionOpen identity).isNone with
      | true =>
        obtain ⟨hneeds, hnone⟩ := Bool.and_eq_true_iff.mp hopen
        simp [hneeds, Option.isNone_iff_eq_none.mp hnone]
      | false =>
        cases hlast : requirement.needsLastPrice && (e.live.lastPrice identity).isNone with
        | true =>
          obtain ⟨hneeds, hnone⟩ := Bool.and_eq_true_iff.mp hlast
          simp [hneeds, Option.isNone_iff_eq_none.mp hnone]
        | false =>
          have hthere := And.intro (present_iff.mp hopen) (present_iff.mp hlast)
          cases hstale : staleness now observedAt requirement with
          | none => simpa [hstale] using hthere
          | some reason => simp [hstale]

/-- The live part has a reason unless it is READY. -/
theorem liveStatus_reasons :
    (e.liveStatus now identity requirement).2 = [] ↔
      (e.liveStatus now identity requirement).1 = .ready := by
  unfold liveStatus
  split
  · simp
  · split
    · simp
    · split
      · simp
      · split
        · simp
        · split <;> simp

/-- The admitted inputs, by the checks in order. -/
theorem admitted_iff : Admitted e now identity requirement asOf ↔
    e.universeView.isMember identity = true ∧ e.universeMismatch identity = none ∧
      e.historyProblem identity requirement asOf = .ok none ∧
      (requirement.needsPreviousClose = true → (e.live.previousClose identity).isSome) ∧
      (e.liveStatus now identity requirement).1 = .ready := by
  rw [universeMismatch_eq_none_iff, historyProblem_eq_none_iff, coverageProblem_eq_none_iff,
    liveStatus_ready_iff]
  simp only [staleness_eq_none_iff]
  constructor
  · intro h
    exact ⟨h.member, h.version, ⟨h.history, h.previousDay⟩, h.previousClose, h.sessionOpen,
      h.lastPrice, h.observed⟩
  · rintro ⟨hmember, hversion, ⟨hhistory, hprevious⟩, hclose, hopen, hlast, hobserved⟩
    exact ⟨⟨hmember, hhistory, hprevious, hclose, hopen, hlast⟩, hversion, hobserved⟩

/-- READY is given exactly on the admitted inputs. -/
theorem classify_ready_iff :
    (∃ reasons, e.classify now identity requirement asOf = .ok (.ready, reasons)) ↔
      Admitted e now identity requirement asOf := by
  rw [admitted_iff]
  unfold classify
  cases hmember : e.universeView.isMember identity with
  | false => simp
  | true =>
    cases hmismatch : e.universeMismatch identity with
    | some mismatch => simp
    | none =>
      cases hhistory : e.historyProblem identity requirement asOf with
      | error error => simp
      | ok problem =>
        cases problem with
        | some reason => simp
        | none =>
          cases hclose : requirement.needsPreviousClose && (e.live.previousClose identity).isNone with
          | true =>
            obtain ⟨hneeds, hnone⟩ := Bool.and_eq_true_iff.mp hclose
            simp [hneeds, Option.isNone_iff_eq_none.mp hnone]
          | false =>
            have hthere := present_iff.mp hclose
            cases hlive : e.liveStatus now identity requirement with
            | mk status reasons => simpa using fun _ => hthere

/-- A status other than READY comes with a reason, and READY with none. -/
theorem classify_reasons {status : StrategyReadinessStatus} {reasons : List ReadinessReason}
    (h : e.classify now identity requirement asOf = .ok (status, reasons)) :
    reasons = [] ↔ status = .ready := by
  unfold classify at h
  split at h
  · cases h
    simp
  · split at h
    · cases h
      simp
    · split at h
      · cases h
      · cases h
        simp
      · split at h
        · cases h
          simp
        · have hlive := @liveStatus_reasons e now identity requirement
          rw [Except.ok.inj h] at hlive
          exact hlive

variable {reading : Readings} {metrics metrics' : ReadinessMetrics}

/-- What an evaluation gives is what `classify` says, and it is counted once. -/
theorem evaluate_ok {result : StrategyReadinessResult}
    (h : e.evaluate reading metrics identity strategyId requirement tradingDate =
      (.ok result, metrics')) :
    e.classify reading.staleness identity requirement tradingDate =
        .ok (result.status, result.reasons) ∧
      result.instrumentIdentity = identity ∧ result.strategyId = strategyId ∧
      metrics' = metrics.record result.status reading.recorded := by
  unfold evaluate at h
  split at h
  · cases h
  · rename_i status reasons hclassify
    cases h
    exact ⟨hclassify, rfl, rfl, rfl⟩

/-- READY is given only on admitted inputs; and it is given on those whose observation, where an age
    is declared for it, is not in the future. -/
theorem evaluate_ready (e : StrategyReadinessEngine) (clock : Readings) (metrics : ReadinessMetrics)
    (identity strategyId : String) (requirement : ReadinessRequirement) (tradingDate : Int) :
    (∀ result, (e.evaluate clock metrics identity strategyId requirement tradingDate).1 = .ok result →
        result.status = .ready →
        Admitted e clock.staleness identity requirement tradingDate) ∧
      (Admitted e clock.staleness identity requirement tradingDate ∧
          (requirement.requiresLive = true → ∀ maxLiveAge, requirement.maxLiveAge = some maxLiveAge →
            ∀ observedAt, e.live.observedAt identity = some observedAt →
              0 ≤ clock.staleness - observedAt) →
        ∃ result, (e.evaluate clock metrics identity strategyId requirement tradingDate).1 =
          .ok result ∧ result.status = .ready ∧ result.reasons = []) := by
  constructor
  · intro result hresult hready
    obtain ⟨hclassify, -, -, -⟩ := evaluate_ok (Prod.ext hresult rfl)
    rw [hready] at hclassify
    exact classify_ready_iff.mp ⟨_, hclassify⟩
  · rintro ⟨hadmitted, -⟩
    obtain ⟨reasons, hclassify⟩ := classify_ready_iff.mpr hadmitted
    unfold evaluate
    rw [hclassify]
    exact ⟨_, rfl, rfl, (classify_reasons hclassify).mpr rfl⟩

/-! ## Where READY and the inputs in order differ -/

/-- An engine over one member, without history, at version 10. -/
def sampleEngine (dataVersion observedAt : Option Int) : StrategyReadinessEngine where
  universeView := { isMember := fun identity => identity == "NSE:TCS", currentUniverseVersion := 10 }
  coverage := {
    coverage := fun _ _ _ _ => .error .adjustedDataUnavailable
    hasPreviousTradingBar := fun _ _ => .ok false }
  live := {
    previousClose := fun _ => none
    sessionOpen := fun _ => none
    lastPrice := fun _ => some 102
    observedAt := fun _ => observedAt
    dataUniverseVersion := fun _ => dataVersion }

def noClock : Readings := ⟨0, 0, 0⟩

/-- Data of another version are refused also where no live data are required; data without a version
    are taken also where they are. -/
theorem ready_not_inOrder :
    (InOrder (sampleEngine (some 9) none) 0 "NSE:TCS" {} 0 ∧
      ((sampleEngine (some 9) none).evaluate noClock {} "NSE:TCS" "strat" {} 0).1.map (·.status) =
        .ok .universeMismatch) ∧
      (((sampleEngine none (some 0)).evaluate noClock {} "NSE:TCS" "strat"
          { needsLastPrice := true } 0).1.map (·.status) = .ok .ready ∧
        ¬ InOrder (sampleEngine none (some 0)) 0 "NSE:TCS" { needsLastPrice := true } 0) := by
  refine ⟨⟨?_, rfl⟩, rfl, ?_⟩
  · exact ⟨⟨rfl, nofun, nofun, nofun, nofun, nofun⟩, nofun, nofun⟩
  · intro h
    cases h.version rfl

/-! ## Batches -/

variable {clock : ℕ → Readings} {turn : ℕ}
  {pairs : List (String × String × ReadinessRequirement)} {results : List StrategyReadinessResult}

/-- Every counter goes up by the number of results with its status. -/
theorem evaluateAll_totals
    (h : e.evaluateAll clock tradingDate turn metrics pairs = (.ok results, metrics'))
    (status : StrategyReadinessStatus) :
    metrics'.total status =
        metrics.total status + results.countP (fun r => decide (r.status = status)) ∧
      metrics'.evaluationsTotal = metrics.evaluationsTotal + results.length := by
  induction pairs generalizing turn metrics results with
  | nil =>
    cases h
    simp
  | cons pair pairs ih =>
    obtain ⟨identity, strategyId, requirement⟩ := pair
    simp only [evaluateAll] at h
    split at h
    · cases h
    · rename_i result between hevaluate
      split at h
      · cases h
      · rename_i rest after hrest
        cases h
        obtain ⟨-, -, -, rfl⟩ := evaluate_ok hevaluate
        obtain ⟨htotal, hevaluations⟩ := ih hrest
        rw [htotal, hevaluations, ReadinessMetrics.total_record,
          ReadinessMetrics.evaluationsTotal_record, List.countP_cons, List.length_cons]
        simp only [decide_eq_true_eq]
        omega

/-- Every ready result is about one of the pairs, whose inputs were admitted in its turn. -/
theorem evaluateAll_ready
    (h : e.evaluateAll clock tradingDate turn metrics pairs = (.ok results, metrics')) :
    ∀ result ∈ results, result.isReady = true →
      ∃ requirement turn',
        (result.instrumentIdentity, result.strategyId, requirement) ∈ pairs ∧
          Admitted e (clock turn').staleness result.instrumentIdentity requirement tradingDate := by
  induction pairs generalizing turn metrics results with
  | nil =>
    cases h
    simp
  | cons pair pairs ih =>
    obtain ⟨identity, strategyId, requirement⟩ := pair
    simp only [evaluateAll] at h
    split at h
    · cases h
    · rename_i first between hevaluate
      split at h
      · cases h
      · rename_i rest after hrest
        cases h
        intro result hresult hready
        rcases List.mem_cons.mp hresult with rfl | hresult
        · obtain ⟨hclassify, rfl, rfl, -⟩ := evaluate_ok hevaluate
          rw [of_decide_eq_true hready] at hclassify
          exact ⟨requirement, turn, List.mem_cons_self,
            classify_ready_iff.mp ⟨_, hclassify⟩⟩
        · obtain ⟨requirement', turn', hmem, hadmitted⟩ := ih hrest result hresult hready
          exact ⟨requirement', turn', List.mem_cons_of_mem _ hmem, hadmitted⟩

variable {identities : List String} {requirements : List (String × ReadinessRequirement)}
  {snapshot : StrategyReadinessSnapshot}

/-- A batch that does not raise has evaluated every pair, in the order of the snapshot's results. -/
theorem evaluateBatch_ok
    (h : e.evaluateBatch clock metrics identities requirements tradingDate =
      (.ok snapshot, metrics')) :
    e.evaluateAll clock tradingDate 0 metrics
      (identities.flatMap fun identity => requirements.map fun item => (identity, item.1, item.2)) =
        (.ok snapshot.results, metrics') := by
  unfold evaluateBatch at h
  simp only at h
  split at h
  · cases h
  · rename_i results after hall
    cases h
    exact hall

/-- The counters and the totals of the snapshots tell the same. -/
theorem evaluateBatch_totals
    (h : e.evaluateBatch clock metrics identities requirements tradingDate =
      (.ok snapshot, metrics')) (status : StrategyReadinessStatus) :
    metrics'.total status = metrics.total status + snapshot.totalsByStatus status :=
  (evaluateAll_totals (evaluateBatch_ok h) status).1

/-- A ready pair of a snapshot is an identity and a strategy of the batch, with admitted inputs. -/
theorem evaluateBatch_readyPairs
    (h : e.evaluateBatch clock metrics identities requirements tradingDate =
      (.ok snapshot, metrics')) {identity strategyId : String}
    (hready : (identity, strategyId) ∈ snapshot.readyPairs) :
    identity ∈ identities ∧ ∃ requirement turn, (strategyId, requirement) ∈ requirements ∧
      Admitted e (clock turn).staleness identity requirement tradingDate := by
  obtain ⟨result, hresult, hpair⟩ := List.mem_map.mp hready
  obtain ⟨hmem, hisReady⟩ := List.mem_filter.mp hresult
  obtain ⟨rfl, rfl⟩ := Prod.mk.inj hpair
  obtain ⟨requirement, turn, hpairs, hadmitted⟩ :=
    evaluateAll_ready (evaluateBatch_ok h) result hmem hisReady
  obtain ⟨identity, hidentity, hitems⟩ := List.mem_flatMap.mp hpairs
  obtain ⟨item, hitem, heq⟩ := List.mem_map.mp hitems
  obtain ⟨rfl, hrest⟩ := Prod.mk.inj heq
  obtain ⟨hstrategy, hrequirement⟩ := Prod.mk.inj hrest
  refine ⟨hidentity, requirement, turn, ?_, hadmitted⟩
  rw [← hstrategy, ← hrequirement]
  exact hitem

end StrategyReadinessEngine

end ApexScan.StrategyReadiness
