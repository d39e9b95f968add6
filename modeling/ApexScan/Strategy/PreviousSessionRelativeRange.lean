import ApexScan.Historical.WarmupSpec
import ApexScan.Lib.DecimalContext
import ApexScan.Lib.IsoDate
import ApexScan.Lib.Raising
import ApexScan.Strategy.Manager
import Mathlib.Data.List.DropRight

/-!
# The Previous Session Relative Range strategy

Models `strategy.py` and `calculator.py` of
`app/strategies/implementations/previous_session_relative_range`: the range of the previous session
against the median range of the twenty sessions before it.

* `rangePercent`, `median`, `compute` — the calculator; every operation is rounded to 28 digits.
* `evaluate` — the strategy on a context.
* `previousSessionRelativeRange` — what it declares: 21 sessions and the previous-session fact.
* `Misses`, `verdict` — the skip for missing history, and what the claim of an evaluation is about.

Readiness and the warmup count at least the declared lookback, since consumers share one series at the
greatest lookback; `evaluate` counts exactly 21.  Main result: `evaluates_alike_iff`, what the
difference comes to; `shared_lookback_skips` is a context where it shows.
-/

set_option autoImplicit false

namespace ApexScan.RelativeRange

open Lib

/-! ## The calculator -/

/-- What a calculation raises; `input` is `PreviousSessionRelativeRangeInputError` and
    `degenerate` is `DegenerateBaselineError`. -/
inductive CalculatorError where
  | input
  | degenerate
  | overflow
  deriving DecidableEq

/-- `localcontext()` with `_PRECISION`. -/
def calculation : DecimalContext := { DecimalContext.default with prec := 28 }

/-- The result of one decimal operation. -/
def rounded (exact : ℚ) : Except CalculatorError ℚ :=
  match calculation.round exact with
  | some value => .ok value
  | none => .error .overflow

/-- `PreviousSessionRelativeRangeResult`. -/
structure RelativeRangeResult where
  relativeRangeRatio : ℚ
  previousRangePct : ℚ
  baselineRangePct : ℚ
  deriving DecidableEq

/-- `range_percent`. -/
def rangePercent (openPrice high low : ℚ) : Except CalculatorError ℚ := do
  if openPrice ≤ 0 then .error .input
  else
    let range ← rounded (high - low)
    let ratio ← rounded (range / openPrice)
    rounded (ratio * 100)

def median (values : List ℚ) : Except CalculatorError ℚ := do
  let ordered := values.insertionSort (· ≤ ·)
  let count := ordered.length
  let mid := count / 2
  if count = 0 then .error .input
  else if count % 2 = 1 then .ok (ordered.getD mid 0)
  else
    let sum ← rounded (ordered.getD (mid - 1) 0 + ordered.getD mid 0)
    rounded (sum / 2)

/-- `compute_previous_session_relative_range`. -/
def compute (subject : ℚ × ℚ × ℚ) (baseline : List (ℚ × ℚ × ℚ)) :
    Except CalculatorError RelativeRangeResult := do
  let previousRangePct ← rangePercent subject.1 subject.2.1 subject.2.2
  let percents ← baseline.mapM fun ohl => rangePercent ohl.1 ohl.2.1 ohl.2.2
  let baselineRangePct ← median percents
  if baselineRangePct = 0 then .error .degenerate
  else
    let relativeRangeRatio ← rounded (previousRangePct / baselineRangePct)
    return ⟨relativeRangeRatio, previousRangePct, baselineRangePct⟩

/-! ## The strategy -/

def baselineSessions : ℕ := 20

def requiredSessions : ℕ := 21

def reasonValid : String := "PREVIOUS_SESSION_RELATIVE_RANGE_VALID"

def reasonNoHistory : String := "PREVIOUS_SESSION_RELATIVE_RANGE_NO_HISTORY"

def reasonDegenerate : String := "PREVIOUS_SESSION_RELATIVE_RANGE_DEGENERATE_BASELINE"

theorem requiredSessions_pos : 1 ≤ requiredSessions := by decide

/-- The declared history. -/
def sessionRequirement : HistoricalRequirement := ⟨.session, requiredSessions, requiredSessions_pos⟩

/-- `_DESCRIPTOR` and `_REQUIREMENTS`. -/
def previousSessionRelativeRange : Strategy where
  descriptor :=
    { strategyId := "previous_session_relative_range"
      emissionPolicy := .oneShotPerSession
      minContextVersion_pos := Nat.one_pos
      min_le_max := no_greatest_version }
  requirements :=
    { historical := [sessionRequirement]
      factNeeds := [.previousSession]
      trigger := .onHistoricalReady
      candleCompleteness := .authoritativeOnly
      freshness := []
      minContextVersion_pos := Nat.one_pos
      freshness_nodup := List.nodup_nil }
  configurationType := "PreviousSessionRelativeRangeConfiguration"

/-- What `evaluate` raises: a `TypeError` for a foreign configuration, or an error of the calculator
    that it does not catch. -/
inductive EvaluateError where
  | configuration
  | calculator (error : CalculatorError)
  deriving DecidableEq

/-- `_session_series`. -/
def sessionSeries (context : MarketContext) : Option HistoricalSeries :=
  context.historical.bind fun historical => historical.series.find? (·.timeframe.isSession)

def previousSession (context : MarketContext) : Option PreviousSessionFacts :=
  context.historical.bind (·.previousSession)

/-- The open, high and low of a candle. -/
def ohl (c : Candle) : ℚ × ℚ × ℚ := (c.openPrice, c.highPrice, c.lowPrice)

/-- `_metrics`. -/
def metricsOf (result : RelativeRangeResult) (previous : PreviousSessionFacts) : List MetricEntry :=
  [⟨"relative_range_ratio", .number result.relativeRangeRatio⟩,
    ⟨"previous_range_pct", .number result.previousRangePct⟩,
    ⟨"baseline_range_pct", .number result.baselineRangePct⟩,
    ⟨"baseline_sessions", .number baselineSessions⟩,
    ⟨"source_session_date", .text (isoformat previous.tradingDate)⟩]

theorem metricsOf_nodup (result : RelativeRangeResult) (previous : PreviousSessionFacts) :
    ((metricsOf result previous).map (·.name)).Nodup := by
  simp [metricsOf]

/-- The evaluation of a context with one reason code. -/
def evaluation (context : MarketContext) (status : EvaluationStatus) (reason : String)
    (metrics : List MetricEntry) (h : (metrics.map (·.name)).Nodup) : StrategyEvaluation where
  instrument := context.instrument
  contextVersion := context.version
  status := status
  reasonCodes := [reason]
  metrics := validateMetrics metrics
  reasons_nodup := List.nodup_singleton reason
  metrics_sorted := metricsSorted_validate h
  matched_reasons := fun _ => List.cons_ne_nil _ _

/-- `evaluate`. -/
def evaluate (context : MarketContext) (configuration : StrategyConfiguration) :
    Except EvaluateError StrategyEvaluation :=
  if configuration.isInstance previousSessionRelativeRange.configurationType = false then
    .error .configuration
  else
    match sessionSeries context, previousSession context with
    | some series, some previous =>
      if series.candles.length ≠ requiredSessions then
        .ok (evaluation context .skipped reasonNoHistory [] List.nodup_nil)
      else
        let subject := series.candles.getLast series.ne_nil
        let baseline := series.candles.dropLast
        match compute (ohl subject) (baseline.map ohl) with
        | .ok result =>
          .ok (evaluation context .matched reasonValid (metricsOf result previous)
            (metricsOf_nodup result previous))
        | .error .degenerate => .ok (evaluation context .skipped reasonDegenerate [] List.nodup_nil)
        | .error error => .error (.calculator error)
    | _, _ => .ok (evaluation context .skipped reasonNoHistory [] List.nodup_nil)

/-! ## What an evaluation depends on -/

/-- The evaluation was skipped for missing history. -/
def Misses (outcome : Except EvaluateError StrategyEvaluation) : Prop :=
  ∃ e, outcome = .ok e ∧ e.status = .skipped ∧ reasonNoHistory ∈ e.reasonCodes

/-- The status and the metrics, or what was raised. -/
def verdict (outcome : Except EvaluateError StrategyEvaluation) :
    Except EvaluateError (EvaluationStatus × List MetricEntry) :=
  outcome.map fun e => (e.status, e.metrics)

def sessionCandles (context : MarketContext) : List Candle :=
  (sessionSeries context).elim [] (·.candles)

/-- The newest 21 candles of the session series. -/
def newestSessions (context : MarketContext) : List Candle :=
  (sessionCandles context).rtake requiredSessions

theorem newestSessions_of_length {context : MarketContext}
    (h : (sessionCandles context).length = requiredSessions) :
    newestSessions context = sessionCandles context := by
  rw [newestSessions, List.rtake, h, Nat.sub_self, List.drop_zero]

section Evaluate

variable {context : MarketContext} {configuration : StrategyConfiguration}

/-- A ready context has a previous session and at least the declared history. -/
theorem sessions_of_ready
    (h : assessReadiness previousSessionRelativeRange (some configuration) context = .ready) :
    configuration.isInstance previousSessionRelativeRange.configurationType = true ∧
      ∃ series previous, sessionSeries context = some series ∧
        previousSession context = some previous ∧ requiredSessions ≤ series.candles.length := by
  unfold assessReadiness at h
  split at h
  · cases h
  · split at h
    · cases h
    · rename_i hconfiguration
      split at h
      · cases h
      · rename_i hfacts
        split at h
        · cases h
        · rename_i hhistorical
          rw [Bool.not_eq_false] at hconfiguration hfacts hhistorical
          refine ⟨hconfiguration, ?_⟩
          have hprevious : (previousSession context).isSome = true := by
            unfold previousSession
            simpa [factsReady, previousSessionRelativeRange, factAvailable] using hfacts
          obtain ⟨previous, hprevious⟩ := Option.isSome_iff_exists.mp hprevious
          cases hcontext : context.historical with
          | none =>
            rw [previousSession, hcontext] at hprevious
            cases hprevious
          | some historical =>
            have hsame : (fun s : HistoricalSeries => decide (s.timeframe = .session)) =
                fun s => s.timeframe.isSession := by
              funext s
              cases s.timeframe <;> rfl
            simp only [historicalReady, previousSessionRelativeRange, hcontext, sessionRequirement,
              List.isEmpty_cons, Bool.false_eq_true, if_false, List.all_cons, List.all_nil,
              Bool.and_true, hsame] at hhistorical
            cases hseries : historical.series.find? fun s => s.timeframe.isSession with
            | none =>
              rw [hseries] at hhistorical
              cases hhistorical
            | some series =>
              rw [hseries, Option.elim_some, decide_eq_true_eq] at hhistorical
              refine ⟨series, previous, ?_, hprevious, hhistorical⟩
              rw [sessionSeries, hcontext, Option.bind_some, hseries]

/-- **A ready context is evaluated iff its session series has exactly 21 candles.** -/
theorem misses_iff
    (h : assessReadiness previousSessionRelativeRange (some configuration) context = .ready) :
    ¬ Misses (evaluate context configuration) ↔
      (sessionCandles context).length = requiredSessions := by
  obtain ⟨hconfiguration, series, previous, hseries, hprevious, _⟩ := sessions_of_ready h
  have hcandles : sessionCandles context = series.candles := by
    rw [sessionCandles, hseries, Option.elim_some]
  rw [hcandles]
  unfold evaluate
  simp only [hconfiguration, Bool.true_eq_false, if_false, hseries, hprevious]
  by_cases hlength : series.candles.length = requiredSessions
  · rw [if_neg (not_not.mpr hlength)]
    refine iff_of_true ?_ hlength
    rintro ⟨e, he, hstatus, hreason⟩
    split at he
    · cases he
      cases hstatus
    · cases he
      exact absurd (List.mem_singleton.mp hreason) (by decide)
    · cases he
  · rw [if_pos hlength]
    refine iff_of_false (not_not.mpr ?_) hlength
    exact ⟨_, rfl, rfl, List.mem_singleton_self _⟩

/-- What `evaluate` reads of a context with exactly 21 sessions. -/
theorem verdict_congr {context' : MarketContext}
    (hcandles : sessionCandles context = sessionCandles context')
    (hlength : (sessionCandles context).length = requiredSessions)
    (hprevious : previousSession context = previousSession context') :
    verdict (evaluate context configuration) = verdict (evaluate context' configuration) := by
  have hsome {c : MarketContext} (hc : (sessionCandles c).length = requiredSessions) :
      ∃ series, sessionSeries c = some series ∧ series.candles = sessionCandles c := by
    unfold sessionCandles at hc ⊢
    cases hseries : sessionSeries c with
    | none =>
      rw [hseries] at hc
      cases hc
    | some series => exact ⟨series, rfl, rfl⟩
  obtain ⟨series, hseries, hsame⟩ := hsome hlength
  obtain ⟨series', hseries', hsame'⟩ := hsome (hcandles ▸ hlength)
  have heq : series.candles = series'.candles := by rw [hsame, hsame', hcandles]
  unfold evaluate
  rw [hseries, hseries', ← hprevious]
  split
  · rfl
  · cases previousSession context with
    | none => rfl
    | some previous =>
      simp only [heq]
      split
      · rfl
      · cases compute (ohl (series'.candles.getLast series'.ne_nil))
            (series'.candles.dropLast.map ohl) with
        | ok result => rfl
        | error error => cases error <;> rfl

end Evaluate

/-- **Ready contexts that agree on the newest 21 sessions and the previous session are evaluated
    alike, and not skipped for missing history, iff both have exactly 21 sessions.**  Where the warmup
    has built the session series for the union of the requirements, this is the case iff no consumer
    asks for more than 21 sessions. -/
theorem evaluates_alike_iff (configuration : StrategyConfiguration) (context context' : MarketContext)
    (hready : assessReadiness previousSessionRelativeRange (some configuration) context = .ready)
    (hready' : assessReadiness previousSessionRelativeRange (some configuration) context' = .ready)
    (hnewest : newestSessions context = newestSessions context')
    (hprevious : previousSession context = previousSession context') :
    ((¬ Misses (evaluate context configuration) ∧ ¬ Misses (evaluate context' configuration) ∧
        verdict (evaluate context configuration) = verdict (evaluate context' configuration)) ↔
      (sessionCandles context).length = requiredSessions ∧
        (sessionCandles context').length = requiredSessions) ∧
    ∀ (registry : HistoricalRequirementRegistry) (w : WarmupService) (reference : Int)
      (r : HistoricalRequirement) (series : HistoricalSeries),
      sessionRequirement ∈ registry.requirements → r ∈ registry.effectiveRequirements →
      r.timeframe = .session → w.seriesFor reference context.instrument r = .ok (some series) →
      sessionSeries context = some series →
        (¬ Misses (evaluate context configuration) ↔
          ∀ r' ∈ registry.requirements, r'.timeframe = .session →
            r'.lookback ≤ requiredSessions) := by
  constructor
  · constructor
    · rintro ⟨hmisses, hmisses', _⟩
      exact ⟨(misses_iff hready).mp hmisses, (misses_iff hready').mp hmisses'⟩
    · rintro ⟨hlength, hlength'⟩
      refine ⟨(misses_iff hready).mpr hlength, (misses_iff hready').mpr hlength', ?_⟩
      apply verdict_congr _ hlength hprevious
      rw [← newestSessions_of_length hlength, ← newestSessions_of_length hlength', hnewest]
  · intro registry w reference r series hown heffective htimeframe hbuilt hseries
    obtain ⟨hmem, hmax⟩ := (registry.mem_effectiveRequirements r).mp heffective
    have hlookback : (sessionCandles context).length = r.lookback := by
      rw [sessionCandles, hseries, Option.elim_some, (WarmupService.seriesFor_eq_some hbuilt).2]
    have hatLeast : requiredSessions ≤ r.lookback := hmax _ hown htimeframe.symm
    rw [misses_iff hready, hlookback]
    constructor
    · intro heq r' hr' htimeframe'
      rw [← heq]
      exact hmax r' hr' (htimeframe'.trans htimeframe.symm)
    · intro hall
      exact le_antisymm (hall r hmem htimeframe) hatLeast

/-! ## A larger lookback of another consumer -/

theorem daily_prices : rupees 90 ≤ rupees 100 ∧ rupees 100 ≤ rupees 110 := by decide

/-- A session of day `n` that opens and closes at 100, between 90 and 110. -/
def dailyCandle (n : ℕ) : Candle where
  instrument := reliance
  startTimestamp := n * day
  endTimestamp := n * day + second
  openPrice := rupees 100
  highPrice := rupees 110
  lowPrice := rupees 90
  closePrice := rupees 100
  tradedQuantity := 0
  start_lt_end := by
    unfold second
    omega
  low_le_high := daily_prices.1.trans daily_prices.2
  open_within := daily_prices
  close_within := daily_prices

theorem dailyCandle_separate {m n : ℕ} (h : m < n) : Separate (dailyCandle m) (dailyCandle n) := by
  unfold Separate dailyCandle day second
  simp only
  omega

/-- The sessions of the days before day 22, the last `n` of them. -/
def dailySeries (n : ℕ) (hn : 0 < n) : HistoricalSeries where
  timeframe := .session
  candles := (List.range' (22 - n) n).map dailyCandle
  ne_nil := by
    rw [ne_eq, List.map_eq_nil_iff, List.range'_eq_nil_iff]
    omega
  oneInstrument := by
    intro a ha b hb
    obtain ⟨_, _, rfl⟩ := List.mem_map.mp ha
    obtain ⟨_, _, rfl⟩ := List.mem_map.mp hb
    rfl
  separate := by
    rw [List.isChain_map]
    exact (List.pairwise_lt_range' _).isChain.imp fun _ _ h => dailyCandle_separate h

theorem dailySeries_instrument (n : ℕ) (hn : 0 < n) : (dailySeries n hn).instrument = reliance := by
  have hmem := List.head_mem (dailySeries n hn).ne_nil
  obtain ⟨_, _, hcandle⟩ := List.mem_map.mp hmem
  rw [HistoricalSeries.instrument, ← hcandle]
  rfl

/-- The first context of `reliance` with that history. -/
def sessionsContext (n : ℕ) (hn : 0 < n) : MarketContext :=
  .initial reliance
    { sequence := 1
      eventTimestamp := 22 * day
      observedAt := 22 * day
      historical := some
        { instrument := reliance
          previousSession := some ⟨20490, dailyCandle 21⟩
          series := [dailySeries n hn]
          timeframes_nodup := List.nodup_singleton _
          series_instrument := by
            intro s hs
            rw [List.mem_singleton.mp hs, dailySeries_instrument]
          previous_instrument := by
            rintro _ ⟨⟩
            rfl } }

theorem sessions_pos : 0 < 21 ∧ 0 < 22 := by decide

/-- The history for this strategy alone, and with a consumer that asks for one session more. -/
def ownSessions : MarketContext := sessionsContext 21 sessions_pos.1

def sharedSessions : MarketContext := sessionsContext 22 sessions_pos.2

def relativeRangeConfiguration : StrategyConfiguration where
  configVersion := "1.0.0"
  classes := ["PreviousSessionRelativeRangeConfiguration", "StrategyConfiguration"]

/-- Both contexts are ready and agree on the newest 21 sessions; one is a match, the other is skipped
    for missing history. -/
theorem shared_lookback_skips :
    assessReadiness previousSessionRelativeRange (some relativeRangeConfiguration) ownSessions =
        .ready ∧
      assessReadiness previousSessionRelativeRange (some relativeRangeConfiguration)
        sharedSessions = .ready ∧
      newestSessions ownSessions = newestSessions sharedSessions ∧
      previousSession ownSessions = previousSession sharedSessions ∧
      verdict (evaluate ownSessions relativeRangeConfiguration) =
        .ok (.matched, validateMetrics (metricsOf ⟨1, 20, 20⟩ ⟨20490, dailyCandle 21⟩)) ∧
      Misses (evaluate sharedSessions relativeRangeConfiguration) := by
  refine ⟨by decide +kernel, by decide +kernel, by decide +kernel, rfl, by decide +kernel, ?_⟩
  exact ⟨_, rfl, rfl, List.mem_singleton_self _⟩

theorem evaluates_alike_sample :
    ¬ (¬ Misses (evaluate ownSessions relativeRangeConfiguration) ∧
      ¬ Misses (evaluate sharedSessions relativeRangeConfiguration) ∧
      verdict (evaluate ownSessions relativeRangeConfiguration) =
        verdict (evaluate sharedSessions relativeRangeConfiguration)) := by
  rw [(evaluates_alike_iff relativeRangeConfiguration ownSessions sharedSessions (by decide +kernel)
    (by decide +kernel) (by decide +kernel) rfl).1]
  decide

end ApexScan.RelativeRange
