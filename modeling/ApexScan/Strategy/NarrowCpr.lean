import ApexScan.Lib.DecimalContext
import ApexScan.Lib.IsoDate
import ApexScan.Strategy.Manager

/-!
# The Narrow CPR strategy

Models `strategy.py` and `calculator.py` of `app/strategies/implementations/narrow_cpr`: the width of the
central pivot range of the previous session.

* `computeCpr` — the calculator; every operation is rounded to 28 digits.
* `narrowCpr` — what the strategy declares; `evaluate` — the strategy on a context.
* `evaluate_metrics` — an evaluation that matches, or does not, names the date of the previous session it
  was given.

The threshold of a `NarrowCprConfiguration` is a parameter of `evaluate`.
-/

set_option autoImplicit false

namespace ApexScan.NarrowCpr

open Lib

/-! ## The calculator -/

inductive CalculatorError where
  | input
  | overflow
  deriving DecidableEq

/-- `localcontext()` with `_PRECISION`. -/
def calculation : DecimalContext := { DecimalContext.default with prec := 28 }

/-- The result of one decimal operation. -/
def rounded (exact : ℚ) : Except CalculatorError ℚ :=
  match calculation.round exact with
  | some value => .ok value
  | none => .error .overflow

/-- `CprResult`. -/
structure CprResult where
  pivot : ℚ
  bc : ℚ
  tc : ℚ
  cprBottom : ℚ
  cprTop : ℚ
  cprWidth : ℚ
  cprWidthPct : ℚ
  deriving DecidableEq

/-- `_validate`. -/
def validate (high low close : ℚ) : Except CalculatorError Unit :=
  if high ≤ 0 ∨ low ≤ 0 ∨ close ≤ 0 then .error .input
  else if high < low then .error .input
  else if ¬ (low ≤ close ∧ close ≤ high) then .error .input
  else .ok ()

/-- `compute_cpr`. -/
def computeCpr (high low close : ℚ) : Except CalculatorError CprResult := do
  validate high low close
  let highLow ← rounded (high + low)
  let sum ← rounded (highLow + close)
  let pivot ← rounded (sum / 3)
  let bc ← rounded (highLow / 2)
  let doubled ← rounded (2 * pivot)
  let tc ← rounded (doubled - bc)
  let cprBottom := min bc tc
  let cprTop := max bc tc
  let cprWidth ← rounded (cprTop - cprBottom)
  let ratio ← rounded (cprWidth / pivot)
  let cprWidthPct ← rounded (ratio * 100)
  return { pivot, bc, tc, cprBottom, cprTop, cprWidth, cprWidthPct }

/-! ## The strategy -/

def strategyId : String := "narrow_cpr"

def reasonValid : String := "NARROW_CPR_VALID"

def reasonWithin : String := "NARROW_CPR_WITHIN_THRESHOLD"

def reasonAbove : String := "NARROW_CPR_ABOVE_THRESHOLD"

def reasonNoPrevious : String := "NARROW_CPR_NO_PREVIOUS_SESSION"

theorem strategyId_pattern : strategyIdPattern strategyId = true := by decide

theorem no_freshness : ∀ entry ∈ ([] : List FactFreshnessRequirement),
    entry.fact ∈ [FactNeed.previousSession] := by
  intro entry h
  cases h

/-- `_DESCRIPTOR` and `_REQUIREMENTS`. -/
def narrowCpr : Strategy where
  descriptor :=
    { strategyId := strategyId
      emissionPolicy := .oneShotPerSession
      strategyId_pattern := strategyId_pattern
      minContextVersion_pos := Nat.one_pos
      min_le_max := no_greatest_version }
  requirements :=
    { historical := [⟨.session, 1, Nat.one_pos⟩]
      factNeeds := [.previousSession]
      trigger := .onHistoricalReady
      candleCompleteness := .authoritativeOnly
      freshness := []
      minContextVersion_pos := Nat.one_pos
      freshness_nodup := List.nodup_nil
      freshness_declared := no_freshness }
  configurationType := "NarrowCprConfiguration"

/-- What `evaluate` raises: a `TypeError` for a foreign configuration, or an error of the calculator. -/
inductive EvaluateError where
  | configuration
  | calculator (error : CalculatorError)
  deriving DecidableEq

/-- `_previous_session`. -/
def previousSession (context : MarketContext) : Option PreviousSessionFacts :=
  context.historical.bind (·.previousSession)

/-- `_classify`. -/
def classifyWidth (result : CprResult) (threshold : Option ℚ) : EvaluationStatus × String :=
  match threshold with
  | none => (.matched, reasonValid)
  | some threshold =>
    if result.cprWidthPct ≤ threshold then (.matched, reasonWithin) else (.noMatch, reasonAbove)

def sourceSessionDate (date : Int) : MetricEntry := ⟨"source_session_date", .text (isoformat date)⟩

/-- `_metrics`. -/
def metricsOf (result : CprResult) (previous : PreviousSessionFacts) : List MetricEntry :=
  [⟨"cpr_width_pct", .number result.cprWidthPct⟩,
    ⟨"pivot", .number result.pivot⟩,
    ⟨"bc", .number result.bc⟩,
    ⟨"tc", .number result.tc⟩,
    ⟨"cpr_top", .number result.cprTop⟩,
    ⟨"cpr_bottom", .number result.cprBottom⟩,
    ⟨"cpr_width", .number result.cprWidth⟩,
    ⟨"previous_high", .number previous.candle.highPrice⟩,
    ⟨"previous_low", .number previous.candle.lowPrice⟩,
    ⟨"previous_close", .number previous.candle.closePrice⟩,
    sourceSessionDate previous.tradingDate]

theorem reason_given (status : EvaluationStatus) (reason : String) : status = .matched → [reason] ≠ [] :=
  fun _ => List.cons_ne_nil _ _

theorem metricsOf_nodup (result : CprResult) (previous : PreviousSessionFacts) :
    ((metricsOf result previous).map (·.name)).Nodup := by
  simp [metricsOf, sourceSessionDate]

/-- The evaluation of a context with one reason code. -/
def evaluation (context : MarketContext) (status : EvaluationStatus) (reason : String)
    (metrics : List MetricEntry) (h : (metrics.map (·.name)).Nodup) : StrategyEvaluation where
  instrument := context.instrument
  contextVersion := context.version
  status := status
  reasonCodes := [reason]
  metrics := validateMetrics metrics
  reasons_nodup := List.nodup_singleton reason
  metrics_sorted := metricsSorted_validate h
  matched_reasons := reason_given status reason

/-- `evaluate`, with the configured `narrow_cpr_max_width_pct`. -/
def evaluate (threshold : Option ℚ) (context : MarketContext) (configuration : StrategyConfiguration) :
    Except EvaluateError StrategyEvaluation :=
  match previousSession context with
  | none => .ok (evaluation context .skipped reasonNoPrevious [] List.nodup_nil)
  | some previous =>
    if configuration.isInstance narrowCpr.configurationType = false then .error .configuration
    else
      match computeCpr previous.candle.highPrice previous.candle.lowPrice previous.candle.closePrice with
      | .error error => .error (.calculator error)
      | .ok result =>
        let (status, reason) := classifyWidth result threshold
        .ok (evaluation context status reason (metricsOf result previous)
          (metricsOf_nodup result previous))

/-- What the evaluation says of the previous session: it is skipped without one, and otherwise names the
    date it was given. -/
theorem evaluate_metrics {threshold : Option ℚ} {context : MarketContext}
    {configuration : StrategyConfiguration} {e : StrategyEvaluation}
    (h : evaluate threshold context configuration = .ok e) :
    (previousSession context = none ∧ e.status = .skipped) ∨
      ∃ previous, previousSession context = some previous ∧
        sourceSessionDate previous.tradingDate ∈ e.metrics := by
  unfold evaluate at h
  split at h
  · rename_i hnone
    cases h
    exact Or.inl ⟨hnone, rfl⟩
  · rename_i previous hprevious
    right
    split at h
    · cases h
    · split at h
      · cases h
      · cases h
        refine ⟨previous, hprevious, ?_⟩
        simp only [evaluation, validateMetrics, mem_sortBy]
        simp [metricsOf]

end ApexScan.NarrowCpr
