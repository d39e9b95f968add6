import Mathlib.Data.String.Basic
import ApexScan.Engine.TickEngine
import ApexScan.Lib.Sorting
import ApexScan.Strategy.EmissionDedup
import ApexScan.Strategy.Lifecycle
import ApexScan.Strategy.Requirements

/-!
# The strategy manager

Models `app/strategy_manager/manager.py` with `triggers.py`, `readiness.py`, `records.py`,
`promotion.py` and `ranking.py`, and the registry and contracts of `app/strategies`.

* `isTriggered`, `assessReadiness` — whether a running strategy is evaluated on a context.
* `beginStart`, `finishStart` — `start` up to and after its `await` on the warmup; the warmup may return,
  raise, or the call may be cancelled there.  `start` is the two halves over a warmup port.
* `stop`, `forceStop`, `pause`, `resume` — the other commands.
* `handle` — one context: the running strategies in id order, isolated from each other, then emission,
  ranking and publication.  What a strategy's `evaluate` does is an input.
* `System.step` — every interleaving of commands, suspended starts and contexts.

A manager without a `RequirementsCoordinator` is left out: it refuses `start`, so there is nothing to stop.
-/

set_option autoImplicit false

namespace ApexScan

open Lib

/-! ## Strategies -/

/-- The pattern of `StrategyId`: a lower-case letter, then lower-case letters, digits and `_`. -/
def strategyIdPattern (s : String) : Bool :=
  match s.toList with
  | [] => false
  | c :: cs => c.isLower && cs.all fun c => c.isLower || c.isDigit || c == '_'

/-- The fields of a `StrategyDescriptor` that the manager reads. -/
structure StrategyDescriptor where
  strategyId : String
  emissionPolicy : EmissionPolicy
  minContextVersion : ℕ := 1
  maxContextVersion : Option ℕ := none
  strategyId_pattern : strategyIdPattern strategyId = true := by decide
  minContextVersion_pos : 1 ≤ minContextVersion := by decide
  min_le_max : ∀ v ∈ maxContextVersion, minContextVersion ≤ v := by decide

/-- A configuration: its version, and the names of its class and of the bases of it. -/
structure StrategyConfiguration where
  configVersion : String
  classes : List String

/-- `isinstance(configuration, configuration_type)`. -/
def StrategyConfiguration.isInstance (c : StrategyConfiguration) (configurationType : String) : Bool :=
  decide (configurationType ∈ c.classes)

/-- The static part of the `Strategy` protocol. -/
structure Strategy where
  descriptor : StrategyDescriptor
  requirements : StrategyRequirements
  configurationType : String

/-- `StrategyRegistry`: strategies under the ids of their descriptors. -/
structure StrategyRegistry where
  strategies : Dict String Strategy
  keyed : ∀ kv ∈ strategies, kv.2.descriptor.strategyId = kv.1
  nodup : (strategies.map (·.1)).Nodup

namespace StrategyRegistry

def get (r : StrategyRegistry) (strategyId : String) : Option Strategy := r.strategies.get strategyId

/-- `identifiers`, in ascending order. -/
def identifiers (r : StrategyRegistry) : List String :=
  (r.strategies.map (·.1)).insertionSort (· ≤ ·)

end StrategyRegistry

/-! ## Triggers -/

/-- `_finalized_identities`. -/
def finalizedIdentities (context : MarketContext) : List (String × Int × Int) :=
  context.candleSets.flatMap fun candles =>
    candles.finalized.map fun c => (candles.timeframe.label, c.startTimestamp, c.endTimestamp)

/-- `_has_new_finalized`. -/
def hasNewFinalized (previous : Option MarketContext) (current : MarketContext) : Bool :=
  (finalizedIdentities current).any fun identity =>
    decide (identity ∉ previous.elim [] finalizedIdentities)

/-- `_session_changed`. -/
def sessionChanged (previous : Option MarketContext) (current : MarketContext) : Bool :=
  match previous.bind (·.session), current.session with
  | some before, some now => decide (before.marketState ≠ now.marketState)
  | _, _ => false

/-- `_historical_became_ready`. -/
def historicalBecameReady (previous : Option MarketContext) (current : MarketContext) : Bool :=
  current.historical.isSome && (previous.bind (·.historical)).isNone

/-- `is_triggered`. -/
def isTriggered (trigger : StrategyTrigger) (previous : Option MarketContext)
    (current : MarketContext) : Bool :=
  match trigger with
  | .onContext => true
  | .onTick => current.latestTick.isSome &&
      (previous.elim true fun p => decide (current.latestTick ≠ p.latestTick))
  | .onQuote => current.latestQuote.isSome &&
      (previous.elim true fun p => decide (current.latestQuote ≠ p.latestQuote))
  | .onCandleFinalized => hasNewFinalized previous current
  | .onSessionTransition => sessionChanged previous current
  | .onHistoricalReady => historicalBecameReady previous current

/-! ## Readiness -/

inductive Readiness where
  | ready
  | missingFacts
  | missingHistorical
  | missingLiveTimeframe
  | incompatibleContext
  | missingConfiguration
  | missingSessionStatistics
  | sessionStatisticsNotAuthoritative
  | sessionStatisticsStale
  deriving DecidableEq, Repr

/-- `_version_compatible`. -/
def versionCompatible (descriptor : StrategyDescriptor) (requirements : StrategyRequirements)
    (context : MarketContext) : Bool :=
  if context.version < max descriptor.minContextVersion requirements.minContextVersion then false
  else descriptor.maxContextVersion.elim true fun v => decide (context.version ≤ v)

/-- `_fact_available`; session statistics have a gate of their own and count as a previous session
    here, as in the source's last line. -/
def factAvailable (need : FactNeed) (context : MarketContext) : Bool :=
  match need with
  | .latestTick => context.latestTick.isSome
  | .latestQuote => context.latestQuote.isSome
  | .session => context.session.isSome
  | .previousSession | .sessionStatistics => (context.historical.bind (·.previousSession)).isSome

/-- `_facts_ready`. -/
def factsReady (factNeeds : List FactNeed) (context : MarketContext) : Bool :=
  (factNeeds.filter fun need => need ≠ .sessionStatistics).all fun need => factAvailable need context

/-- `_historical_ready`. -/
def historicalReady (requirements : StrategyRequirements) (context : MarketContext) : Bool :=
  if requirements.historical.isEmpty then true
  else
    match context.historical with
    | none => false
    | some historical => requirements.historical.all fun req =>
        (historical.series.find? fun s => s.timeframe = req.timeframe).elim false fun s =>
          decide (req.lookback ≤ s.candles.length)

/-- `_live_ready`. -/
def liveReady (requirements : StrategyRequirements) (context : MarketContext) : Bool :=
  requirements.liveTimeframes.all fun timeframe =>
    -- a later set of the same timeframe replaces an earlier one in `by_timeframe`
    (context.candleSets.reverse.find? fun candles => candles.timeframe = timeframe).elim false
      fun candles => !(decide (requirements.candleCompleteness = .authoritativeOnly) &&
        candles.finalized.isEmpty)

/-- `_session_statistics_verdict`. -/
def sessionStatisticsVerdict (requirements : StrategyRequirements) (context : MarketContext) :
    Option Readiness :=
  if .sessionStatistics ∉ requirements.factNeeds then none
  else
    match context.session, context.sessionStatistics with
    | some session, some statistics =>
      if statistics.tradingDate ≠ session.tradingDate then some .missingSessionStatistics
      else if statistics.quality ≠ .authoritative then some .sessionStatisticsNotAuthoritative
      else
        match requirements.freshnessFor .sessionStatistics with
        | none => some .sessionStatisticsStale
        | some maxAge =>
          let age := context.observedAt - statistics.asOf
          if age < 0 ∨ maxAge < age then some .sessionStatisticsStale else none
    | _, _ => some .missingSessionStatistics

/-- `assess_readiness`. -/
def assessReadiness (strategy : Strategy) (configuration : Option StrategyConfiguration)
    (context : MarketContext) : Readiness :=
  if versionCompatible strategy.descriptor strategy.requirements context = false then
    .incompatibleContext
  else if (configuration.elim false (·.isInstance strategy.configurationType)) = false then
    .missingConfiguration
  else if factsReady strategy.requirements.factNeeds context = false then .missingFacts
  else if historicalReady strategy.requirements context = false then .missingHistorical
  else if liveReady strategy.requirements context = false then .missingLiveTimeframe
  else (sessionStatisticsVerdict strategy.requirements context).getD .ready

/-! ## Evaluations -/

/-- `_validate_metrics` of metrics with distinct names. -/
def validateMetrics (metrics : List MetricEntry) : List MetricEntry := sortBy (·.name) metrics

/-- Distinct names, in order. -/
def MetricsSorted (metrics : List MetricEntry) : Prop := metrics.Pairwise fun a b => a.name < b.name

theorem metricsSorted_nil : MetricsSorted [] := List.Pairwise.nil

theorem metricsSorted_singleton (name : String) (value : MetricValue) : MetricsSorted [⟨name, value⟩] :=
  List.pairwise_singleton _ _

theorem metricsSorted_validate {metrics : List MetricEntry} (h : (metrics.map (·.name)).Nodup) :
    MetricsSorted (validateMetrics metrics) := by
  have hne : (validateMetrics metrics).Pairwise fun a b => a.name ≠ b.name :=
    List.pairwise_map.mp ((sortBy_perm.map _).nodup_iff.mpr h)
  exact (pairwise_sortBy.and hne).imp fun hab => lt_of_le_of_ne hab.1 hab.2

/-- `StrategyEvaluation`. -/
structure StrategyEvaluation where
  instrument : Instrument
  contextVersion : ℕ
  status : EvaluationStatus
  score : Option ℚ := none
  confidence : Option ℚ := none
  reasonCodes : List String := []
  metrics : List MetricEntry := []
  diagnostics : List (String × String) := []
  reasons_nodup : reasonCodes.Nodup := by exact List.nodup_nil
  metrics_sorted : MetricsSorted metrics := by exact metricsSorted_nil
  matched_reasons : status = .matched → reasonCodes ≠ [] := by decide

/-- `StrategyEvaluationRecord`. -/
structure StrategyEvaluationRecord where
  strategyId : String
  trigger : StrategyTrigger
  readiness : Readiness
  evaluation : StrategyEvaluation

/-- `_skipped`. -/
def skippedEvaluation (context : MarketContext) : StrategyEvaluation where
  instrument := context.instrument
  contextVersion := context.version
  status := .skipped

/-- `_error`. -/
def errorEvaluation (context : MarketContext) : StrategyEvaluation where
  instrument := context.instrument
  contextVersion := context.version
  status := .error
  diagnostics := [("error", "evaluation_failed")]

/-- `_require_consistent`. -/
def consistentEvaluation (evaluation : StrategyEvaluation) (context : MarketContext) : Bool :=
  decide (evaluation.instrument = context.instrument ∧ evaluation.contextVersion = context.version)

/-- The body of the `try` of `_run`: what `evaluate` returned, `none` when it raised or returned an
    evaluation of another context. -/
def checkedEvaluation (outcome : Option StrategyEvaluation) (context : MarketContext) :
    Option StrategyEvaluation :=
  outcome.filter fun evaluation => consistentEvaluation evaluation context

/-- `promote_evaluation`, the fields a `StrategyResult` has here; its metrics are in order already. -/
def promoteEvaluation (evaluation : StrategyEvaluation) (descriptor : StrategyDescriptor) :
    StrategyResult where
  strategyId := descriptor.strategyId
  instrument := evaluation.instrument
  status := evaluation.status
  score := evaluation.score
  confidence := evaluation.confidence
  reasonCodes := evaluation.reasonCodes
  metrics := evaluation.metrics
  matched_reasons := evaluation.matched_reasons

/-- `rank_results`: the matches with a score, by falling score and then by id; the rank is the position
    from 1. -/
def rankResults (results : List StrategyResult) : List (ℕ × StrategyResult) :=
  let rankable := results.filterMap fun r =>
    if r.status = .matched then r.score.map fun score => (score, r) else none
  let ordered := rankable.insertionSort fun a b =>
    b.1 < a.1 ∨ a.1 = b.1 ∧ a.2.strategyId ≤ b.2.strategyId
  ordered.zipIdx.map fun (item, index) => (index + 1, item.2)

/-- `StrategyResultsPublished`. -/
structure StrategyResultsPublished where
  instrument : Instrument
  contextVersion : ℕ
  results : List StrategyResult
  ranked : List (ℕ × StrategyResult)
  tradingDate : Option Int

/-! ## The manager -/

/-- The exceptions of a lifecycle command; `cancelled` is `asyncio.CancelledError`, which is not an
    `Exception`. -/
inductive StrategyError where
  | lifecycle (error : StrategyLifecycleError)
  | notFound (strategyId : String)
  | noValidConfiguration (strategyId : String)
  | emptyConsumerKey
  | timeframeNotShorter
  | cancelled
  deriving DecidableEq, Repr

/-- `StrategyManager`. -/
structure StrategyManager where
  registry : StrategyRegistry
  configurations : String → Option StrategyConfiguration
  errorThreshold : ℕ
  errorThreshold_pos : 1 ≤ errorThreshold
  lifecycle : StrategyLifecycle
  requirements : RequirementsCoordinator
  previous : Dict Instrument MarketContext := []
  latest : Dict Instrument (List StrategyEvaluationRecord) := []
  errorCounts : Dict String ℕ := []
  dedup : EmissionDeduplicator := []

namespace StrategyManager

/-- What a command returns or raises. -/
abbrev Result := Except StrategyError StrategyLifecycleState

/-- A lifecycle command on the manager's state machine. -/
def command (m : StrategyManager) (strategyId : String) (c : LifecycleCommand) :
    StrategyManager × Result :=
  match m.lifecycle.apply strategyId c with
  | .error e => (m, .error (.lifecycle e))
  | .ok lifecycle => ({ m with lifecycle }, .ok (commandTransitions c).2)

/-- `_require_valid_configuration`. -/
def validConfiguration (m : StrategyManager) (strategyId : String) (strategy : Strategy) : Bool :=
  (m.configurations strategyId).elim false (·.isInstance strategy.configurationType)

/-- The body of the `try` of `start` before its `await`.  An exception keeps what was written before
    it: the requirements stay registered when the live union is refused. -/
def prepare (m : StrategyManager) (strategyId : String) :
    StrategyManager × Except StrategyError StrategyRequirements :=
  match m.registry.get strategyId with
  | none => (m, .error (.notFound strategyId))
  | some strategy =>
    if m.validConfiguration strategyId strategy = false then
      (m, .error (.noValidConfiguration strategyId))
    else
      match m.requirements.register strategyId strategy.requirements with
      | none => (m, .error .emptyConsumerKey)
      | some registered =>
        match registered.applyLiveUnion with
        | none => ({ m with requirements := registered }, .error .timeframeNotShorter)
        | some requirements => ({ m with requirements }, .ok strategy.requirements)

/-- How far a `start` got: it returned or raised, or it awaits the warmup of these requirements. -/
inductive StartProgress where
  | finished (result : Result)
  | awaiting (effective : List HistoricalRequirement)

/-- `start` up to its `await`. -/
def beginStart (m : StrategyManager) (strategyId : String) : StrategyManager × StartProgress :=
  match m.command strategyId .start with
  | (m, .error e) => (m, .finished (.error e))
  | (m, .ok _) =>
    match m.prepare strategyId with
    | (m, .error _) =>
      let failed := m.command strategyId .markError
      (failed.1, .finished failed.2)
    | (m, .ok requirements) =>
      match m.requirements.warmPlan requirements with
      | some effective => (m, .awaiting effective)
      | none =>
        let started := m.command strategyId .markRunning
        (started.1, .finished started.2)

/-- How an awaited warmup ends. -/
inductive WarmupOutcome where
  | returned
  | raised
  | cancelled
  deriving DecidableEq, Repr

/-- `start` after its `await`; a cancellation passes the `except Exception` by. -/
def finishStart (m : StrategyManager) (strategyId : String) :
    WarmupOutcome → StrategyManager × Result
  | .returned => m.command strategyId .markRunning
  | .raised => m.command strategyId .markError
  | .cancelled => (m, .error .cancelled)

/-- `HistoricalWarmupPort.warmup` as a function of what it is called with. -/
abbrev WarmupPort := List Instrument → List HistoricalRequirement → Int → WarmupOutcome

/-- `start`. -/
def start (warmup : WarmupPort) (m : StrategyManager) (strategyId : String) (reference : Int) :
    StrategyManager × Result :=
  match m.beginStart strategyId with
  | (m, .finished result) => (m, result)
  | (m, .awaiting effective) =>
    m.finishStart strategyId (warmup m.requirements.instruments effective reference)

def pause (m : StrategyManager) (strategyId : String) : StrategyManager × Result :=
  m.command strategyId .pause

def resume (m : StrategyManager) (strategyId : String) : StrategyManager × Result :=
  m.command strategyId .resume

/-- The common body of `stop` and `force_stop`: where the release raises, the strategy is stopped and
    its emission state is kept. -/
def stopBy (m : StrategyManager) (strategyId : String) (c : LifecycleCommand) :
    StrategyManager × Result :=
  match m.command strategyId c with
  | (m, .error e) => (m, .error e)
  | (m, .ok state) =>
    match m.requirements.release strategyId with
    | (requirements, false) => ({ m with requirements }, .error .timeframeNotShorter)
    | (requirements, true) =>
      ({ m with requirements, dedup := EmissionDeduplicator.resetStrategy m.dedup strategyId },
        .ok state)

def stop (m : StrategyManager) (strategyId : String) : StrategyManager × Result :=
  m.stopBy strategyId .stop

/-- `force_stop`, without `clean_cancellable`. -/
def forceStop (m : StrategyManager) (strategyId : String) : StrategyManager × Result :=
  m.stopBy strategyId .forceStop

/-! ### Contexts -/

/-- `_running_ids`. -/
def runningIds (m : StrategyManager) : List String :=
  m.registry.identifiers.filter fun strategyId => m.lifecycle.stateOf strategyId = some .running

/-- `_fail`; the strategy is running, so `mark_error` is permitted. -/
def fail (m : StrategyManager) (strategyId : String) (trigger : StrategyTrigger)
    (context : MarketContext) : StrategyManager × StrategyEvaluationRecord :=
  let count := (m.errorCounts.get strategyId).getD 0 + 1
  let counted := { m with errorCounts := m.errorCounts.set strategyId count }
  let marked := if m.errorThreshold ≤ count then (counted.command strategyId .markError).1 else counted
  (marked, { strategyId, trigger, readiness := .ready, evaluation := errorEvaluation context })

/-- `_run`, with what `evaluate` does. -/
def run (m : StrategyManager) (strategyId : String) (trigger : StrategyTrigger)
    (context : MarketContext) (outcome : Option StrategyEvaluation) :
    StrategyManager × StrategyEvaluationRecord :=
  match checkedEvaluation outcome context with
  | none => m.fail strategyId trigger context
  | some evaluation =>
    ({ m with errorCounts := m.errorCounts.set strategyId 0 },
      { strategyId, trigger, readiness := .ready, evaluation })

/-- `_evaluate_one`. -/
def evaluateOne (m : StrategyManager) (strategy : Strategy) (trigger : StrategyTrigger)
    (context : MarketContext) (outcome : Option StrategyEvaluation) :
    StrategyManager × StrategyEvaluationRecord :=
  let strategyId := strategy.descriptor.strategyId
  let readiness := assessReadiness strategy (m.configurations strategyId) context
  if readiness ≠ .ready ∨ m.configurations strategyId = none then
    (m, { strategyId, trigger, readiness, evaluation := skippedEvaluation context })
  else m.run strategyId trigger context outcome

/-- The loop of `_records_for` over the running strategies. -/
def recordsFor (context : MarketContext) (previous : Option MarketContext)
    (evaluate : String → Option StrategyEvaluation) :
    List String → StrategyManager → StrategyManager × List StrategyEvaluationRecord
  | [], m => (m, [])
  | strategyId :: ids, m =>
    match m.registry.get strategyId with
    | none => recordsFor context previous evaluate ids m
    | some strategy =>
      if isTriggered strategy.requirements.trigger previous context = false then
        recordsFor context previous evaluate ids m
      else
        let one := m.evaluateOne strategy strategy.requirements.trigger context (evaluate strategyId)
        let rest := recordsFor context previous evaluate ids one.1
        (rest.1, one.2 :: rest.2)

/-- `_emit_candidate`. -/
def emitCandidate (m : StrategyManager) (record : StrategyEvaluationRecord)
    (tradingDate : Option Int) : StrategyManager × Option StrategyResult :=
  if record.evaluation.status ≠ .matched ∧ record.evaluation.status ≠ .noMatch then (m, none)
  else
    match m.configurations record.strategyId, m.registry.get record.strategyId with
    | some _, some strategy =>
      let result := promoteEvaluation record.evaluation strategy.descriptor
      let emitted := EmissionDeduplicator.shouldEmit m.dedup result strategy.descriptor.emissionPolicy
        tradingDate
      ({ m with dedup := emitted.1 }, if emitted.2 then some result else none)
    | _, _ => (m, none)

/-- The results of `_publish_results`, record by record. -/
def emitAll (tradingDate : Option Int) :
    List StrategyEvaluationRecord → StrategyManager → StrategyManager × List StrategyResult
  | [], m => (m, [])
  | record :: records, m =>
    let one := m.emitCandidate record tradingDate
    let rest := emitAll tradingDate records one.1
    (rest.1, one.2.toList ++ rest.2)

/-- `_publish_results`. -/
def publishResults (m : StrategyManager) (context : MarketContext)
    (records : List StrategyEvaluationRecord) : StrategyManager × Option StrategyResultsPublished :=
  let tradingDate := context.session.map (·.tradingDate)
  let emitted := emitAll tradingDate records m
  (emitted.1,
    if emitted.2.isEmpty then none
    else some
      { instrument := context.instrument
        contextVersion := context.version
        results := emitted.2
        ranked := rankResults emitted.2
        tradingDate })

/-- A context that is not newer than the last one of its instrument. -/
def isStale (m : StrategyManager) (context : MarketContext) : Bool :=
  (m.previous.get context.instrument).elim false fun previous =>
    decide (context.version ≤ previous.version)

/-- The context and its records become the last ones of the instrument. -/
def store (m : StrategyManager) (context : MarketContext) (records : List StrategyEvaluationRecord) :
    StrategyManager :=
  { m with
    previous := m.previous.set context.instrument context
    latest := m.latest.set context.instrument records }

/-- `_handle`, with what each strategy's `evaluate` does on the context. -/
def handle (m : StrategyManager) (context : MarketContext)
    (evaluate : String → Option StrategyEvaluation) :
    StrategyManager × List StrategyEvaluationRecord × Option StrategyResultsPublished :=
  if m.isStale context then (m, [], none)
  else
    let evaluated := recordsFor context (m.previous.get context.instrument) evaluate m.runningIds m
    let published := (evaluated.1.store context evaluated.2).publishResults context evaluated.2
    (published.1, evaluated.2, published.2)

/-- A manager as the runtime builds it: every registered strategy is tracked, nothing is required and
    the engine has no timeframes. -/
def create (registry : StrategyRegistry) (configurations : String → Option StrategyConfiguration)
    (errorThreshold : ℕ) (errorThreshold_pos : 1 ≤ errorThreshold) (instruments : List Instrument)
    (engine : CandleEngine) (refreshControl : Bool) : StrategyManager where
  registry := registry
  configurations := configurations
  errorThreshold := errorThreshold
  errorThreshold_pos := errorThreshold_pos
  lifecycle := ⟨registry.strategies.map fun kv => (kv.1, .registered)⟩
  requirements :=
    { instruments
      engine := { engine with timeframes := [], timeframes_nodup := List.nodup_nil }
      refreshControl := if refreshControl then some none else none }

/-! ### What the commands do -/

section Commands

variable (m : StrategyManager) (strategyId : String)

theorem command_of_permits {m : StrategyManager} {strategyId : String} {c : LifecycleCommand}
    (h : m.lifecycle.Permits strategyId c) :
    m.command strategyId c =
      ({ m with lifecycle := m.lifecycle.put strategyId (commandTransitions c).2 },
        .ok (commandTransitions c).2) := by
  unfold command
  rw [StrategyLifecycle.apply_of_permits h]

/-- A strategy that is starting may go on to `running` or to `error`. -/
theorem command_of_starting {m : StrategyManager} {strategyId : String} {c : LifecycleCommand}
    (hstate : m.lifecycle.stateOf strategyId = some .starting)
    (hc : .starting ∈ (commandTransitions c).1) :
    m.command strategyId c =
      ({ m with lifecycle := m.lifecycle.put strategyId (commandTransitions c).2 },
        .ok (commandTransitions c).2) :=
  command_of_permits ⟨.starting, hc, hstate⟩

theorem finishStart_returned {m : StrategyManager} {strategyId : String}
    (hstate : m.lifecycle.stateOf strategyId = some .starting) :
    m.finishStart strategyId .returned =
      ({ m with lifecycle := m.lifecycle.put strategyId .running }, .ok .running) :=
  @command_of_starting _ _ .markRunning hstate (by decide)

theorem finishStart_raised {m : StrategyManager} {strategyId : String}
    (hstate : m.lifecycle.stateOf strategyId = some .starting) :
    m.finishStart strategyId .raised =
      ({ m with lifecycle := m.lifecycle.put strategyId .error }, .ok .error) :=
  @command_of_starting _ _ .markError hstate (by decide)

theorem command_of_not_permits {m : StrategyManager} {strategyId : String} {c : LifecycleCommand}
    (h : ¬ m.lifecycle.Permits strategyId c) :
    m.command strategyId c =
      (m, .error (.lifecycle
        (StrategyLifecycle.refusal strategyId c (m.lifecycle.stateOf strategyId)))) := by
  unfold command
  rw [StrategyLifecycle.apply_of_not_permits h]

/-- A registered strategy has a key that is not blank. -/
theorem blankKey_of_get {r : StrategyRegistry} {strategy : Strategy}
    (h : r.get strategyId = some strategy) : blankKey strategyId = false := by
  have hmem : (strategyId, strategy) ∈ r.strategies := (Dict.mem_iff_get r.nodup _ _).mpr h
  have hid : strategy.descriptor.strategyId = strategyId := r.keyed _ hmem
  have hpattern := strategy.descriptor.strategyId_pattern
  rw [hid] at hpattern
  unfold strategyIdPattern at hpattern
  unfold blankKey
  split at hpattern
  · cases hpattern
  · rename_i c cs hlist
    rw [hlist, List.all_cons]
    have hlower : (decide (c ≥ 'a') && decide (c ≤ 'z')) = true :=
      (Bool.and_eq_true_iff.mp hpattern).1
    simp only [Bool.and_eq_true, decide_eq_true_eq] at hlower
    have hspace : HistoricalRequirementRegistry.isSpace c = false := by
      have hlow : 97 ≤ c.toNat := UInt32.le_iff_toNat_le.mp hlower.1
      have hhigh : c.toNat ≤ 122 := UInt32.le_iff_toNat_le.mp hlower.2
      unfold HistoricalRequirementRegistry.isSpace
      simp
      omega
    rw [hspace]
    rfl

/-- The strategy that a `start` gets as far as registering. -/
def Startable (m : StrategyManager) (strategyId : String) (strategy : Strategy) : Prop :=
  m.registry.get strategyId = some strategy ∧ m.validConfiguration strategyId strategy = true

/-- `prepare` stops before registering, at the live union, or not at all. -/
theorem prepare_cases :
    ((∀ strategy, ¬ m.Startable strategyId strategy) ∧
      ∃ e, m.prepare strategyId = (m, .error e)) ∨
    ∃ strategy registered, m.Startable strategyId strategy ∧
      m.requirements.register strategyId strategy.requirements = some registered ∧
      ((registered.applyLiveUnion = none ∧
        m.prepare strategyId = ({ m with requirements := registered }, .error .timeframeNotShorter)) ∨
      ∃ applied, registered.applyLiveUnion = some applied ∧
        m.prepare strategyId = ({ m with requirements := applied }, .ok strategy.requirements)) := by
  unfold prepare
  cases hget : m.registry.get strategyId with
  | none =>
    left
    refine ⟨?_, _, rfl⟩
    rintro strategy ⟨h, -⟩
    rw [hget] at h
    cases h
  | some strategy =>
    simp only
    by_cases hvalid : m.validConfiguration strategyId strategy = false
    · left
      rw [if_pos hvalid]
      refine ⟨?_, _, rfl⟩
      rintro strategy' ⟨h, h'⟩
      rw [hget] at h
      cases h
      rw [hvalid] at h'
      cases h'
    · right
      rw [if_neg hvalid]
      rw [Bool.not_eq_false] at hvalid
      cases hregister : m.requirements.register strategyId strategy.requirements with
      | none =>
        rw [RequirementsCoordinator.register_eq, blankKey_of_get strategyId hget] at hregister
        cases hregister
      | some registered =>
        refine ⟨strategy, registered, ⟨hget, hvalid⟩, hregister, ?_⟩
        simp only
        cases hunion : registered.applyLiveUnion with
        | none => exact Or.inl ⟨rfl, rfl⟩
        | some applied => exact Or.inr ⟨applied, rfl, rfl⟩

/-- A start goes on to its next state, whatever it has registered. -/
theorem command_put_starting (r : RequirementsCoordinator) {c : LifecycleCommand}
    (hc : .starting ∈ (commandTransitions c).1) :
    ({ m with
        lifecycle := m.lifecycle.put strategyId .starting
        requirements := r } : StrategyManager).command strategyId c =
      ({ m with
          lifecycle := m.lifecycle.put strategyId (commandTransitions c).2
          requirements := r }, .ok (commandTransitions c).2) := by
  rw [command_of_starting (by simp) hc]
  simp

/-- `start` up to its `await`: refused, failed before or at the live union, done without a warmup, or
    suspended. -/
theorem beginStart_cases :
    (¬ m.lifecycle.Permits strategyId .start ∧
      m.beginStart strategyId = (m, .finished (.error (.lifecycle
        (StrategyLifecycle.refusal strategyId .start (m.lifecycle.stateOf strategyId)))))) ∨
    (m.lifecycle.Permits strategyId .start ∧
      (((∀ strategy, ¬ m.Startable strategyId strategy) ∧ m.beginStart strategyId =
        ({ m with lifecycle := m.lifecycle.put strategyId .error }, .finished (.ok .error))) ∨
      ∃ strategy registered, m.Startable strategyId strategy ∧
        m.requirements.register strategyId strategy.requirements = some registered ∧
        ((registered.applyLiveUnion = none ∧ m.beginStart strategyId =
          ({ m with lifecycle := m.lifecycle.put strategyId .error, requirements := registered },
            .finished (.ok .error))) ∨
        ∃ applied, registered.applyLiveUnion = some applied ∧
          ((applied.warmPlan strategy.requirements = none ∧ m.beginStart strategyId =
            ({ m with lifecycle := m.lifecycle.put strategyId .running, requirements := applied },
              .finished (.ok .running))) ∨
          ∃ effective, applied.warmPlan strategy.requirements = some effective ∧
            m.beginStart strategyId =
              ({ m with
                lifecycle := m.lifecycle.put strategyId .starting
                requirements := applied }, .awaiting effective))))) := by
  by_cases hpermits : m.lifecycle.Permits strategyId .start
  · right
    refine ⟨hpermits, ?_⟩
    unfold beginStart
    rw [command_of_permits hpermits]
    simp only [commandTransitions]
    set m' : StrategyManager := { m with lifecycle := m.lifecycle.put strategyId .starting }
    rcases m'.prepare_cases strategyId with ⟨hnone, e, hprepare⟩ |
        ⟨strategy, registered, hstart, hregister, ⟨hunion, hprepare⟩ | ⟨applied, hunion, hprepare⟩⟩
    · left
      refine ⟨hnone, ?_⟩
      rw [hprepare]
      simp only
      rw [m.command_put_starting strategyId m.requirements (by decide)]
      rfl
    · right
      refine ⟨strategy, registered, hstart, hregister, Or.inl ⟨hunion, ?_⟩⟩
      rw [hprepare]
      simp only
      rw [m.command_put_starting strategyId registered (by decide)]
      rfl
    · right
      refine ⟨strategy, registered, hstart, hregister, Or.inr ⟨applied, hunion, ?_⟩⟩
      rw [hprepare]
      simp only
      cases hplan : applied.warmPlan strategy.requirements with
      | none =>
        left
        refine ⟨rfl, ?_⟩
        simp only
        rw [m.command_put_starting strategyId applied (by decide)]
        rfl
      | some effective => exact Or.inr ⟨effective, rfl, rfl⟩
  · left
    refine ⟨hpermits, ?_⟩
    unfold beginStart
    rw [command_of_not_permits hpermits]

/-- `stop` and `force_stop`: refused, stopped with a raising release, or done. -/
theorem stopBy_cases {c : LifecycleCommand} (hc : (commandTransitions c).2 = .stopped) :
    (¬ m.lifecycle.Permits strategyId c ∧
      m.stopBy strategyId c = (m, .error (.lifecycle
        (StrategyLifecycle.refusal strategyId c (m.lifecycle.stateOf strategyId))))) ∨
    (m.lifecycle.Permits strategyId c ∧
      (((m.requirements.deregister strategyId).unionAccepted = false ∧ m.stopBy strategyId c =
        ({ m with
          lifecycle := m.lifecycle.put strategyId .stopped
          requirements := m.requirements.deregister strategyId }, .error .timeframeNotShorter)) ∨
      ((m.requirements.deregister strategyId).unionAccepted = true ∧ ∃ released,
        (m.requirements.deregister strategyId).applyLiveUnion = some released ∧
        m.stopBy strategyId c =
          ({ m with
            lifecycle := m.lifecycle.put strategyId .stopped
            requirements := released.applySessionStatistics
            dedup := EmissionDeduplicator.resetStrategy m.dedup strategyId }, .ok .stopped)))) := by
  by_cases hpermits : m.lifecycle.Permits strategyId c
  · right
    refine ⟨hpermits, ?_⟩
    unfold stopBy
    rw [command_of_permits hpermits, hc]
    rcases m.requirements.release_cases strategyId with
      ⟨hrefused, hrelease⟩ | ⟨haccepted, released, hunion, hrelease⟩
    · exact Or.inl ⟨hrefused, by simp [hrelease]⟩
    · exact Or.inr ⟨haccepted, released, hunion, by simp [hrelease]⟩
  · left
    refine ⟨hpermits, ?_⟩
    unfold stopBy
    rw [command_of_not_permits hpermits]

end Commands

/-! ### What a context does -/

/-- What contexts leave as it is. -/
structure SameSetup (m m' : StrategyManager) : Prop where
  registry : m'.registry = m.registry
  configurations : m'.configurations = m.configurations
  errorThreshold : m'.errorThreshold = m.errorThreshold
  requirements : m'.requirements = m.requirements

theorem SameSetup.refl (m : StrategyManager) : SameSetup m m := ⟨rfl, rfl, rfl, rfl⟩

theorem SameSetup.trans {m m' m'' : StrategyManager} (h : SameSetup m m') (h' : SameSetup m' m'') :
    SameSetup m m'' :=
  ⟨h'.registry.trans h.registry, h'.configurations.trans h.configurations,
    h'.errorThreshold.trans h.errorThreshold, h'.requirements.trans h.requirements⟩

/-- The consecutive failures counted for a strategy, and its state. -/
def account (m : StrategyManager) (strategyId : String) : ℕ × Option StrategyLifecycleState :=
  ((m.errorCounts.get strategyId).getD 0, m.lifecycle.stateOf strategyId)

/-- Whether a running strategy is evaluated on the context and, if so, whether that succeeds. -/
def verdict (m : StrategyManager) (context : MarketContext)
    (evaluate : String → Option StrategyEvaluation) (strategyId : String) : Option Bool :=
  match m.registry.get strategyId with
  | none => none
  | some strategy =>
    if isTriggered strategy.requirements.trigger (m.previous.get context.instrument) context &&
        decide (assessReadiness strategy (m.configurations strategyId) context = .ready) then
      some (checkedEvaluation (evaluate strategyId) context).isSome
    else none

/-- The account after an evaluation. -/
def settle (errorThreshold : ℕ) (account : ℕ × Option StrategyLifecycleState) :
    Option Bool → ℕ × Option StrategyLifecycleState
  | none => account
  | some true => (0, account.2)
  | some false =>
    (account.1 + 1, if errorThreshold ≤ account.1 + 1 then some .error else account.2)

section Contexts

theorem configured_of_ready {strategy : Strategy} {configuration : Option StrategyConfiguration}
    {context : MarketContext} (h : assessReadiness strategy configuration context = .ready) :
    configuration ≠ none := by
  rintro rfl
  unfold assessReadiness at h
  split at h
  · cases h
  · simp at h

theorem fail_spec (m : StrategyManager) (context : MarketContext) {strategyId : String}
    (trigger : StrategyTrigger) (hrunning : m.lifecycle.stateOf strategyId = some .running) :
    SameSetup m (m.fail strategyId trigger context).1 ∧
      (m.fail strategyId trigger context).1.previous = m.previous ∧
      ∀ other, (m.fail strategyId trigger context).1.account other =
        if strategyId = other then settle m.errorThreshold (m.account other) (some false)
        else m.account other := by
  unfold fail
  simp only
  by_cases hcount : m.errorThreshold ≤ (m.errorCounts.get strategyId).getD 0 + 1
  · have hpermits : ({ m with
        errorCounts := m.errorCounts.set strategyId ((m.errorCounts.get strategyId).getD 0 + 1) } :
        StrategyManager).lifecycle.Permits strategyId .markError :=
      ⟨.running, by simp [commandTransitions], hrunning⟩
    rw [if_pos hcount, command_of_permits hpermits]
    refine ⟨⟨rfl, rfl, rfl, rfl⟩, rfl, fun other => ?_⟩
    by_cases hid : strategyId = other
    · subst hid
      simp [account, settle, hcount, commandTransitions]
    · simp [account, hid, Dict.get_set]
  · rw [if_neg hcount]
    refine ⟨⟨rfl, rfl, rfl, rfl⟩, rfl, fun other => ?_⟩
    by_cases hid : strategyId = other
    · subst hid
      simp [account, settle, hcount]
    · simp [account, hid, Dict.get_set]

theorem run_spec (m : StrategyManager) (context : MarketContext) {strategyId : String}
    (trigger : StrategyTrigger) (outcome : Option StrategyEvaluation)
    (hrunning : m.lifecycle.stateOf strategyId = some .running) :
    SameSetup m (m.run strategyId trigger context outcome).1 ∧
      (m.run strategyId trigger context outcome).1.previous = m.previous ∧
      ∀ other, (m.run strategyId trigger context outcome).1.account other =
        if strategyId = other then
          settle m.errorThreshold (m.account other) (some (checkedEvaluation outcome context).isSome)
        else m.account other := by
  unfold run
  cases hchecked : checkedEvaluation outcome context with
  | none => exact m.fail_spec context trigger hrunning
  | some evaluation =>
    refine ⟨⟨rfl, rfl, rfl, rfl⟩, rfl, fun other => ?_⟩
    by_cases hid : strategyId = other
    · subst hid
      simp [account, settle]
    · simp [account, hid, Dict.get_set]

/-- One pass of the loop: it skips a strategy without a verdict, and runs one with a verdict. -/
theorem recordsFor_cons (context : MarketContext) (evaluate : String → Option StrategyEvaluation)
    (id : String) (ids : List String) (m : StrategyManager) :
    (m.verdict context evaluate id = none ∧
      (recordsFor context (m.previous.get context.instrument) evaluate (id :: ids) m).1 =
        (recordsFor context (m.previous.get context.instrument) evaluate ids m).1) ∨
    ∃ trigger, m.verdict context evaluate id =
        some (checkedEvaluation (evaluate id) context).isSome ∧
      (recordsFor context (m.previous.get context.instrument) evaluate (id :: ids) m).1 =
        (recordsFor context (m.previous.get context.instrument) evaluate ids
          (m.run id trigger context (evaluate id)).1).1 := by
  rw [recordsFor]
  cases hget : m.registry.get id with
  | none =>
    left
    exact ⟨by simp [verdict, hget], rfl⟩
  | some strategy =>
    have hid : strategy.descriptor.strategyId = id :=
      m.registry.keyed _ ((Dict.mem_iff_get m.registry.nodup _ _).mpr hget)
    simp only
    by_cases htrigger : isTriggered strategy.requirements.trigger
        (m.previous.get context.instrument) context = false
    · left
      rw [if_pos htrigger]
      exact ⟨by simp [verdict, hget, htrigger], rfl⟩
    · rw [if_neg htrigger]
      rw [Bool.not_eq_false] at htrigger
      unfold evaluateOne
      simp only [hid]
      by_cases hready : assessReadiness strategy (m.configurations id) context = .ready
      · right
        have hconfigured := configured_of_ready hready
        refine ⟨strategy.requirements.trigger, ?_, ?_⟩
        · simp [verdict, hget, htrigger, hready]
        · rw [if_neg (by simp [hready, hconfigured])]
      · left
        rw [if_pos (Or.inl hready)]
        exact ⟨by simp [verdict, hget, hready], rfl⟩

/-- The loop settles the account of every strategy it visits, and no other. -/
theorem recordsFor_spec (context : MarketContext) (evaluate : String → Option StrategyEvaluation)
    {ids : List String} {m : StrategyManager} (hnodup : ids.Nodup)
    (hrunning : ∀ id ∈ ids, m.lifecycle.stateOf id = some .running) :
    SameSetup m (recordsFor context (m.previous.get context.instrument) evaluate ids m).1 ∧
      ∀ other, (recordsFor context (m.previous.get context.instrument) evaluate ids m).1.account other =
        if other ∈ ids then
          settle m.errorThreshold (m.account other) (m.verdict context evaluate other)
        else m.account other := by
  induction ids generalizing m with
  | nil => exact ⟨SameSetup.refl m, fun _ => by simp [recordsFor]⟩
  | cons id ids ih =>
    obtain ⟨hnot, hnodup⟩ := List.nodup_cons.mp hnodup
    rcases recordsFor_cons context evaluate id ids m with
      ⟨hverdict, hloop⟩ | ⟨trigger, hverdict, hloop⟩
    · obtain ⟨hsame, hothers⟩ := ih hnodup fun id hid => hrunning id (List.mem_cons_of_mem _ hid)
      rw [hloop]
      refine ⟨hsame, fun other => ?_⟩
      rw [hothers]
      by_cases hother : other = id
      · subst hother
        simp [hnot, hverdict, settle]
      · simp [hother]
    · obtain ⟨hsame, hprev, hone⟩ := m.run_spec context trigger (evaluate id)
        (hrunning id List.mem_cons_self)
      rw [hloop]
      set m' := (m.run id trigger context (evaluate id)).1 with hm'
      have hrunning' : ∀ other ∈ ids, m'.lifecycle.stateOf other = some .running := by
        intro other hother
        have hne : id ≠ other := fun h => hnot (h ▸ hother)
        have := congrArg Prod.snd (hone other)
        rw [if_neg hne] at this
        exact this.trans (hrunning other (List.mem_cons_of_mem _ hother))
      have hsameVerdict : ∀ other,
          m'.verdict context evaluate other = m.verdict context evaluate other := by
        intro other
        unfold verdict
        rw [hsame.registry, hsame.configurations, hprev]
      obtain ⟨hsame', hothers⟩ := ih hnodup hrunning'
      rw [hprev] at hsame' hothers
      refine ⟨hsame.trans hsame', fun other => ?_⟩
      rw [hothers, hone, hsame.errorThreshold, hsameVerdict]
      by_cases hother : id = other
      · subst hother
        simp [hnot, hverdict]
      · simp [hother, Ne.symm hother]

theorem emitAll_spec (tradingDate : Option Int) (records : List StrategyEvaluationRecord)
    (m : StrategyManager) :
    SameSetup m (emitAll tradingDate records m).1 ∧
      ∀ id, (emitAll tradingDate records m).1.account id = m.account id := by
  induction records generalizing m with
  | nil => exact ⟨SameSetup.refl m, fun _ => rfl⟩
  | cons record records ih =>
    have hone : SameSetup m (m.emitCandidate record tradingDate).1 ∧
        ∀ id, (m.emitCandidate record tradingDate).1.account id = m.account id := by
      unfold emitCandidate
      split
      · exact ⟨SameSetup.refl m, fun _ => rfl⟩
      · split <;> exact ⟨⟨rfl, rfl, rfl, rfl⟩, fun _ => rfl⟩
    obtain ⟨hsame, hrest⟩ := ih (m.emitCandidate record tradingDate).1
    refine ⟨hone.1.trans hsame, fun id => ?_⟩
    unfold emitAll
    rw [hrest, hone.2]

/-- A strategy is evaluated on the context: the context is not stale and the strategy runs. -/
def considers (m : StrategyManager) (context : MarketContext) (strategyId : String) : Bool :=
  !m.isStale context && decide (m.lifecycle.stateOf strategyId = some .running)

/-- **A context settles the account of every running strategy that it evaluates**, and changes nothing
    else of the accounts and the setup. -/
theorem handle_spec (m : StrategyManager) (context : MarketContext)
    (evaluate : String → Option StrategyEvaluation) :
    SameSetup m (m.handle context evaluate).1 ∧
      ∀ id, (m.handle context evaluate).1.account id =
        if m.considers context id then
          settle m.errorThreshold (m.account id) (m.verdict context evaluate id)
        else m.account id := by
  unfold handle considers
  by_cases hstale : m.isStale context = true
  · rw [if_pos hstale]
    exact ⟨SameSetup.refl m, fun id => by simp [hstale]⟩
  · rw [if_neg hstale]
    simp only
    have hnodup : m.runningIds.Nodup :=
      ((List.perm_insertionSort _ _).nodup_iff.mpr m.registry.nodup).filter _
    have hrunning : ∀ id ∈ m.runningIds, m.lifecycle.stateOf id = some .running := by
      intro id hid
      exact of_decide_eq_true (List.mem_filter.mp hid).2
    obtain ⟨hsame, haccount⟩ := recordsFor_spec context evaluate hnodup hrunning
    set evaluated := recordsFor context (m.previous.get context.instrument) evaluate m.runningIds m
    have hstore : SameSetup evaluated.1 (evaluated.1.store context evaluated.2) :=
      ⟨rfl, rfl, rfl, rfl⟩
    obtain ⟨hsame', haccount'⟩ := emitAll_spec (context.session.map (·.tradingDate)) evaluated.2
      (evaluated.1.store context evaluated.2)
    refine ⟨(hsame.trans hstore).trans hsame', fun id => ?_⟩
    refine ((haccount' id).trans (haccount id)).trans ?_
    by_cases hid : id ∈ m.runningIds
    · rw [if_pos hid, if_pos (by simp [hstale, hrunning id hid])]
    · rw [if_neg hid]
      split
      · rename_i hconsidered
        -- a strategy that runs and is not visited is not registered
        have hstate : m.lifecycle.stateOf id = some .running := by
          simp only [Bool.and_eq_true, decide_eq_true_eq] at hconsidered
          exact hconsidered.2
        have hget : m.registry.get id = none := by
          rw [← Option.not_isSome_iff_eq_none]
          intro hsome
          refine hid (List.mem_filter.mpr ⟨?_, by simp [hstate]⟩)
          unfold StrategyRegistry.identifiers
          rw [List.mem_insertionSort, Dict.mem_keys_iff]
          exact hsome
        simp [verdict, hget, settle]
      · rfl

end Contexts

end StrategyManager

/-! ## Interleavings -/

/-- A manager and the strategies whose `start` awaits its warmup, in the order of the calls. -/
structure System where
  manager : StrategyManager
  suspended : List String := []

namespace System

inductive Op where
  | start (strategyId : String)
  /-- The `start` of the strategy goes on after its `await`. -/
  | resumeStart (strategyId : String) (outcome : StrategyManager.WarmupOutcome)
  | stop (strategyId : String)
  | forceStop (strategyId : String)
  | pause (strategyId : String)
  | resume (strategyId : String)
  | context (context : MarketContext) (evaluate : String → Option StrategyEvaluation)

/-- What a call lets its caller see; `none` while a `start` is suspended. -/
abbrev Out := Option StrategyManager.Result

/-- One step of some call; calls take turns at the `await` of `start` only. -/
def step (s : System) : Op → System × Out
  | .start strategyId =>
    match s.manager.beginStart strategyId with
    | (m, .finished result) => ({ s with manager := m }, some result)
    | (m, .awaiting _) => ({ manager := m, suspended := s.suspended ++ [strategyId] }, none)
  | .resumeStart strategyId outcome =>
    if strategyId ∈ s.suspended then
      let finished := s.manager.finishStart strategyId outcome
      ({ manager := finished.1, suspended := s.suspended.erase strategyId }, some finished.2)
    else (s, none)
  | .stop strategyId =>
    ({ s with manager := (s.manager.stop strategyId).1 }, some (s.manager.stop strategyId).2)
  | .forceStop strategyId =>
    ({ s with manager := (s.manager.forceStop strategyId).1 }, some (s.manager.forceStop strategyId).2)
  | .pause strategyId =>
    ({ s with manager := (s.manager.pause strategyId).1 }, some (s.manager.pause strategyId).2)
  | .resume strategyId =>
    ({ s with manager := (s.manager.resume strategyId).1 }, some (s.manager.resume strategyId).2)
  | .context context evaluate => ({ s with manager := (s.manager.handle context evaluate).1 }, none)

end System

/-! ## Sample strategies -/

theorem no_greatest_version : ∀ v ∈ (none : Option ℕ), 1 ≤ v := by
  intro v hv
  cases hv

/-- A strategy that is evaluated on every context. -/
def sampleStrategy (strategyId : String) (h : strategyIdPattern strategyId = true)
    (liveTimeframes : List Timeframe) (historical : List HistoricalRequirement) : Strategy where
  descriptor :=
    { strategyId, emissionPolicy := .continuous, strategyId_pattern := h
      minContextVersion_pos := Nat.one_pos }
  requirements :=
    { historical, liveTimeframes, trigger := .onContext, candleCompleteness := .authoritativeOnly
      minContextVersion_pos := Nat.one_pos }
  configurationType := "StrategyConfiguration"

/-- `alpha` needs the previous session, `beta` a candle longer than the session of 375 minutes, `gamma`
    five-minute candles and `delta` nothing. -/
def sampleRegistry : StrategyRegistry where
  strategies :=
    [("alpha", sampleStrategy "alpha" (by decide) [] [⟨.session, 1, Nat.one_pos⟩]),
     ("beta", sampleStrategy "beta" (by decide) [Timeframe.minutes 400 (by decide)] []),
     ("gamma", sampleStrategy "gamma" (by decide) [Timeframe.minutes 5 (by decide)] []),
     ("delta", sampleStrategy "delta" (by decide) [] [])]
  keyed := by decide
  nodup := by decide

/-- Every strategy has a configuration of its type. -/
def sampleConfigurations : String → Option StrategyConfiguration :=
  fun _ => some ⟨"1.0.0", ["StrategyConfiguration"]⟩

theorem sampleThreshold_pos : 1 ≤ 3 := by decide

theorem sampleWindow_pos : 0 < 4 := by decide

/-- A candle engine of the default settings without timeframes. -/
def sampleEngine : CandleEngine where
  schedule := nseSchedule
  timezone := kolkata
  finalizedWindow := 4
  finalizedWindow_pos := sampleWindow_pos
  timeframes := []
  timeframes_nodup := List.nodup_nil

end ApexScan
