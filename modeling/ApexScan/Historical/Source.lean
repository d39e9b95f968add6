import ApexScan.Historical.Requirements

/-!
# Fetch plans and the verification of source results (`app/market_engine/historical/source.py`)

* `HistoricalFetchPlan` with its `key` and its `request`, which is refused for an empty window.
* `verifySourceCandles` — the candles of a result in order, or a data-quality error.
* `verifySourceCandles_perm` — verification reorders and drops nothing.
-/

set_option autoImplicit false

namespace ApexScan

/-- `interval_for_timeframe`. -/
def intervalForTimeframe (timeframe : Timeframe) : Int := timeframe.duration.getD day

/-- The identity of one unit of historical work. -/
structure HistoricalRequestKey where
  instrument : Instrument
  timeframe : Timeframe
  start : Int
  stop : Int
  deriving DecidableEq

/-- A plan to fetch the window of one requirement. -/
structure HistoricalFetchPlan where
  instrument : Instrument
  requirement : HistoricalRequirement
  start : Int
  stop : Int
  interval : Int
  deriving DecidableEq

namespace HistoricalFetchPlan

def timeframe (p : HistoricalFetchPlan) : Timeframe := p.requirement.timeframe

def key (p : HistoricalFetchPlan) : HistoricalRequestKey :=
  ⟨p.instrument, p.timeframe, p.start, p.stop⟩

/-- `request`; the schema refuses an empty window and an interval that is not positive. -/
def request (p : HistoricalFetchPlan) : Option HistoricalRequest :=
  if h : p.start < p.stop ∧ 0 < p.interval then
    some ⟨p.instrument, p.start, p.stop, p.interval, h.1, h.2⟩
  else none

end HistoricalFetchPlan

/-- The failures of a fetch: of the source, of its data, or of the request itself. -/
inductive FetchError where
  | source
  | dataQuality
  | invalidRequest
  deriving DecidableEq, Repr

/-- `verify_source_candles`; `none` is `HistoricalDataQualityError`. -/
def verifySourceCandles (plan : HistoricalFetchPlan) (candles : List Candle) :
    Option (List Candle) :=
  if candles.any (fun c => c.instrument ≠ plan.instrument) then none
  else if candles.isEmpty then some []
  else
    match HistoricalSeries.create plan.timeframe candles with
    | none => none
    | some series =>
      if !plan.timeframe.isSession &&
          series.candles.any (fun c => c.endTimestamp - c.startTimestamp ≠ plan.interval) then none
      else some series.candles

theorem HistoricalSeries.create_candles {timeframe : Timeframe} {candles : List Candle}
    {series : HistoricalSeries} (h : create timeframe candles = some series) :
    series.timeframe = timeframe ∧ series.candles = sortedByInterval candles := by
  unfold create at h
  simp only at h
  split at h
  · cases h
    exact ⟨rfl, rfl⟩
  · cases h

/-- Verification reorders and drops nothing. -/
theorem verifySourceCandles_perm {plan : HistoricalFetchPlan} {candles verified : List Candle}
    (h : verifySourceCandles plan candles = some verified) : verified.Perm candles := by
  unfold verifySourceCandles at h
  split at h
  · cases h
  · split at h
    · rename_i hempty
      cases h
      rw [List.isEmpty_iff.mp hempty]
    · split at h
      · cases h
      · rename_i series hseries
        split at h
        · cases h
        · cases h
          rw [(HistoricalSeries.create_candles hseries).2]
          exact List.perm_insertionSort _ _

end ApexScan
