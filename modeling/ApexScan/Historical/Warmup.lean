import ApexScan.Engine.TickEngine
import ApexScan.Historical.Coordinator
import ApexScan.Historical.Planner
import ApexScan.Historical.Resampling
import Mathlib.Data.String.Basic

/-!
# Historical warmup (`HistoricalWarmupService` of `app/market_engine/historical/service.py`)

Every requirement of every instrument is planned, fetched, trimmed to its lookback and installed as
one snapshot for each instrument.

* `HistoricalSource` — what a source supports directly and what it loads.
* `fetchOnce` — the outcome of one fetch.  All plans of a warmup look into the cache before any of
  their loads ends, so each outcome depends on the cache at the start alone; `run_fetchOnce` is the
  same outcome from the coordinator's steps.
* `Descriptor`, `classify` — how a requirement will be met.
* `barsFor`, `cutSeries` — the bars found for a requirement, and their last `lookback`.
* `warmup` — statuses, installed snapshots and the retained timeframes, also when it raises.
* `seriesFor`, `warmup_installs` — what a warmup that returns has installed, requirement by
  requirement.
-/

set_option autoImplicit false

namespace ApexScan

open Lib

/-! ## Fetching -/

/-- `HistoricalSource`; `load` is `none` on `HistoricalSourceError`. -/
structure HistoricalSource where
  directTimeframes : List Timeframe
  load : HistoricalRequest → Option (List Candle)

/-- The outcome of a load. -/
def HistoricalSource.loadVerified (source : HistoricalSource) (plan : HistoricalFetchPlan) :
    Except FetchError (List Candle) :=
  match plan.request with
  | none => .error .invalidRequest
  | some request =>
    match source.load request with
    | none => .error .source
    | some candles =>
      match verifySourceCandles plan candles with
      | none => .error .dataQuality
      | some verified => .ok verified

/-- The outcome of a fetch that shares its load with none. -/
def fetchOnce (cache : HistoricalCache) (source : HistoricalSource) (plan : HistoricalFetchPlan) :
    Except FetchError (List Candle) :=
  match cache.lookup plan.key with
  | some candles => .ok candles
  | none => source.loadVerified plan

/-! ## Descriptors -/

/-- The exceptions that leave a warmup. -/
inductive WarmupError where
  | outsideCalendarCoverage
  | validation
  deriving DecidableEq, Repr

/-- How one requirement will be met. -/
inductive Descriptor where
  | direct (requirement : HistoricalRequirement) (plan : HistoricalFetchPlan)
  | reconstruct (requirement : HistoricalRequirement) (plan : HistoricalFetchPlan) (base : Timeframe)
  | pending (requirement : HistoricalRequirement)
  | failed (requirement : HistoricalRequirement)

namespace Descriptor

def requirement : Descriptor → HistoricalRequirement
  | direct r _ | reconstruct r _ _ | pending r | failed r => r

def plan? : Descriptor → Option HistoricalFetchPlan
  | direct _ plan | reconstruct _ plan _ => some plan
  | _ => none

end Descriptor

/-- `_fetch_plan`. -/
def fetchPlan (planner : HistoricalRangePlanner) (reference : Int) (instrument : Instrument)
    (requirement : HistoricalRequirement) (fetchTimeframe : Timeframe) :
    Except ResolveError HistoricalFetchPlan := do
  let (start, stop) ← planner.resolve requirement reference
  return { instrument,
           requirement := ⟨fetchTimeframe, requirement.lookback, requirement.lookback_pos⟩,
           start, stop, interval := intervalForTimeframe fetchTimeframe }

/-- `_planned`: missing session timing fails the requirement, leaving the coverage is raised. -/
def planned (planner : HistoricalRangePlanner) (reference : Int) (instrument : Instrument)
    (requirement : HistoricalRequirement) (fetchTimeframe : Timeframe)
    (describe : HistoricalFetchPlan → Descriptor) : Except WarmupError Descriptor :=
  match fetchPlan planner reference instrument requirement fetchTimeframe with
  | .ok plan => .ok (describe plan)
  | .error .missingSessionTiming => .ok (.failed requirement)
  | .error .outsideCalendarCoverage => .error .outsideCalendarCoverage

/-- `_classify`. -/
def classifyRequirement (planner : HistoricalRangePlanner) (direct : List Timeframe)
    (reference : Int) (instrument : Instrument) (requirement : HistoricalRequirement) :
    Except WarmupError Descriptor :=
  if requirement.timeframe ∈ direct then
    planned planner reference instrument requirement requirement.timeframe (.direct requirement)
  else
    match selectBase requirement.timeframe direct with
    | none => .ok (.pending requirement)
    | some base =>
      planned planner reference instrument requirement base (.reconstruct requirement · base)

/-! ## Series -/

/-- A constructor that raises a validation error. -/
def orInvalid {α : Type} : Option α → Except WarmupError α
  | some a => .ok a
  | none => .error .validation

/-- `_prepare_candles`. -/
def prepareCandles (planner : HistoricalRangePlanner) (timeframe : Timeframe)
    (candles : List Candle) : Except WarmupError (List Candle) := do
  let candles ← if timeframe.isSession then
      orInvalid (canonicalSessionSeries planner.effective planner.calendar planner.timezone candles)
    else .ok candles
  return sortedByStart candles

/-- The bars found for a requirement, before they are counted: the prepared candles, or the
    reconstructed ones. -/
def barsFor (planner : HistoricalRangePlanner) (d : Descriptor) (fetched : Option (List Candle)) :
    Except WarmupError (Option (List Candle)) :=
  match d, fetched with
  | .direct r _, some candles => some <$> prepareCandles planner r.timeframe candles
  | .reconstruct r _ base, some candles =>
    if candles.isEmpty then .ok none
    else
      match HistoricalSeries.create base candles with
      | none => .ok none
      | some source =>
        (Option.map (·.candles)) <$> orInvalid (reconstructSeries source r.timeframe
          planner.effective planner.calendar planner.timezone)
  | _, _ => .ok none

/-- `candles[-lookback:]` as a series; withheld when there are fewer. -/
def cutSeries (r : HistoricalRequirement) (bars : List Candle) :
    Except WarmupError (Option HistoricalSeries) :=
  if bars.length < r.lookback then .ok none
  else some <$> orInvalid (HistoricalSeries.create r.timeframe (bars.drop (bars.length - r.lookback)))

/-- `_build_series`, with `_direct_series` and `_reconstructed_series`. -/
def buildSeries (planner : HistoricalRangePlanner) (d : Descriptor)
    (fetched : Option (List Candle)) : Except WarmupError (Option HistoricalSeries) := do
  match ← barsFor planner d fetched with
  | none => return none
  | some bars => cutSeries d.requirement bars

/-! ## Assembly -/

inductive WarmupState where
  | notStarted
  | warming
  | satisfied
  | partially
  | failed
  deriving DecidableEq, Repr

structure InstrumentWarmupStatus where
  instrument : Instrument
  state : WarmupState
  satisfied : List Timeframe := []
  unresolved : List Timeframe := []
  pendingReconstruction : List Timeframe := []

/-- `_terminal_status`. -/
def terminalStatus (instrument : Instrument) (satisfied unresolved pending : List Timeframe) :
    InstrumentWarmupStatus where
  instrument := instrument
  state := if unresolved ≠ [] ∧ satisfied ≠ [] then .partially
    else if unresolved ≠ [] then .failed else .satisfied
  satisfied := satisfied
  unresolved := unresolved
  pendingReconstruction := pending

/-- The lists that `_assemble` builds. -/
structure Assembly where
  series : List HistoricalSeries := []
  satisfied : List Timeframe := []
  unresolved : List Timeframe := []
  pending : List Timeframe := []
  previous : Option PreviousSessionFacts := none

/-- Raises leaving the coverage; a missing timing is not possible here. -/
def orOutside {α : Type} : Except ResolveError α → Except WarmupError α
  | .ok a => .ok a
  | .error _ => .error .outsideCalendarCoverage

/-- `_previous_session`. -/
def previousSession (planner : HistoricalRangePlanner) (reference : Int)
    (series : HistoricalSeries) : Except WarmupError PreviousSessionFacts := do
  let tradingDate ← orOutside (planner.newestCompletedSession reference)
  return { tradingDate, candle := series.candles.getLast series.ne_nil }

/-- What the loop of `_assemble` records of a series that was built or withheld. -/
def record (planner : HistoricalRangePlanner) (reference : Int) (a : Assembly)
    (timeframe : Timeframe) (built : Option HistoricalSeries) : Except WarmupError Assembly :=
  match built with
  | none => .ok { a with unresolved := a.unresolved ++ [timeframe] }
  | some built =>
    (if timeframe.isSession then some <$> previousSession planner reference built
      else .ok a.previous) >>= fun previous =>
    .ok { a with series := a.series ++ [built], satisfied := a.satisfied ++ [timeframe], previous }

/-- One descriptor in the loop of `_assemble`. -/
def assembleOne (planner : HistoricalRangePlanner) (reference : Int)
    (fetch : HistoricalRequestKey → Option (List Candle)) (a : Assembly) (d : Descriptor) :
    Except WarmupError Assembly :=
  let timeframe := d.requirement.timeframe
  match d with
  | .pending _ => .ok { a with pending := a.pending ++ [timeframe] }
  | .failed _ => .ok { a with unresolved := a.unresolved ++ [timeframe] }
  | .direct _ plan | .reconstruct _ plan _ =>
    buildSeries planner d (fetch plan.key) >>= record planner reference a timeframe

/-- `_assemble`, up to the installation. -/
def assemble (planner : HistoricalRangePlanner) (reference : Int)
    (fetch : HistoricalRequestKey → Option (List Candle)) (instrument : Instrument)
    (ds : List Descriptor) : Except WarmupError (HistoricalContext × InstrumentWarmupStatus) := do
  let a ← ds.foldlM (assembleOne planner reference fetch) {}
  let context ← orInvalid (HistoricalContext.create instrument a.previous a.series)
  return (context, terminalStatus instrument a.satisfied a.unresolved a.pending)

/-! ## The service -/

/-- `HistoricalWarmupService` with what it reads and writes: `retained` are the timeframes of the
    last `retain_timeframes` call. -/
structure WarmupService where
  planner : HistoricalRangePlanner
  source : HistoricalSource
  cache : HistoricalCache := []
  registry : InstrumentStateRegistry
  status : Dict Instrument InstrumentWarmupStatus := []
  retained : Option (List Timeframe) := none

namespace WarmupService

/-- `_sorted_instruments`. -/
def sortedInstruments (instruments : List Instrument) : List Instrument :=
  instruments.insertionSort fun a b => toLex (a.exchange, a.symbol) ≤ toLex (b.exchange, b.symbol)

/-- `_sorted_requirements`. -/
def sortedRequirements (requirements : List HistoricalRequirement) : List HistoricalRequirement :=
  requirements.insertionSort fun a b => a.timeframe.orderingKey ≤ b.timeframe.orderingKey

/-- `status_for`. -/
def statusFor (w : WarmupService) (instrument : Instrument) : InstrumentWarmupStatus :=
  (w.status.get instrument).getD { instrument, state := .notStarted }

/-- The descriptors of one instrument. -/
def describe (w : WarmupService) (requirements : List HistoricalRequirement) (reference : Int)
    (instrument : Instrument) : Except WarmupError (List Descriptor) :=
  requirements.mapM
    (classifyRequirement w.planner w.source.directTimeframes reference instrument)

/-- The planning loop of `warmup`. -/
def planAll (requirements : List HistoricalRequirement) (reference : Int) :
    List Instrument → WarmupService →
      WarmupService × Except WarmupError (List (Instrument × List Descriptor))
  | [], w => (w, .ok [])
  | i :: instruments, w =>
    let w := { w with status := w.status.set i { instrument := i, state := .warming } }
    match w.describe requirements reference i with
    | .error e => (w, .error e)
    | .ok ds =>
      match planAll requirements reference instruments w with
      | (w, .error e) => (w, .error e)
      | (w, .ok described) => (w, .ok ((i, ds) :: described))

/-- The plans, one for each key. -/
def plansOf (described : List (Instrument × List Descriptor)) :
    Dict HistoricalRequestKey HistoricalFetchPlan :=
  (described.flatMap fun d => d.2.filterMap (·.plan?)).foldl (fun plans p => plans.set p.key p) []

/-- `_safe_fetch`: failures of the source and of its data are isolated. -/
def safeFetch (w : WarmupService) (plan : HistoricalFetchPlan) :
    Except WarmupError (Option (List Candle)) :=
  match fetchOnce w.cache w.source plan with
  | .ok candles => .ok (some candles)
  | .error .invalidRequest => .error .validation
  | .error _ => .ok none

/-- `_fetch_all`. -/
def fetchAll (w : WarmupService) (plans : Dict HistoricalRequestKey HistoricalFetchPlan) :
    Except WarmupError (Dict HistoricalRequestKey (Option (List Candle))) :=
  plans.mapM fun (key, plan) => do return (key, ← w.safeFetch plan)

/-- The assembly loop of `warmup`. -/
def assembleAll (reference : Int) (fetch : HistoricalRequestKey → Option (List Candle)) :
    List (Instrument × List Descriptor) → WarmupService → WarmupService × Except WarmupError Unit
  | [], w => (w, .ok ())
  | (i, ds) :: described, w =>
    match assemble w.planner reference fetch i ds with
    | .error e => (w, .error e)
    | .ok (context, status) =>
      assembleAll reference fetch described
        { w with registry := w.registry.installHistorical i context,
                 status := w.status.set i status }

/-- `warmup`. -/
def warmup (w : WarmupService) (instruments : List Instrument)
    (requirements : List HistoricalRequirement) (reference : Int) :
    WarmupService × Except WarmupError Unit :=
  match planAll (sortedRequirements requirements) reference (sortedInstruments instruments) w with
  | (w, .error e) => (w, .error e)
  | (w, .ok described) =>
    let plans := plansOf described
    match w.fetchAll plans with
    | .error e => (w, .error e)
    | .ok fetched =>
      match assembleAll reference (fun key => (fetched.get key).join) described w with
      | (w, .error e) => (w, .error e)
      | (w, .ok ()) =>
        ({ w with retained := some ((plans.map fun p => p.2.timeframe).dedup) }, .ok ())

/-! ## One requirement at a time -/

/-- The bars found for a requirement of an instrument. -/
def barsOf (w : WarmupService) (reference : Int) (instrument : Instrument)
    (requirement : HistoricalRequirement) : Except WarmupError (Option (List Candle)) := do
  let d ← classifyRequirement w.planner w.source.directTimeframes reference instrument requirement
  match d.plan? with
  | none => return none
  | some plan => barsFor w.planner d (← w.safeFetch plan)

/-- The series built for a requirement of an instrument. -/
def seriesFor (w : WarmupService) (reference : Int) (instrument : Instrument)
    (requirement : HistoricalRequirement) : Except WarmupError (Option HistoricalSeries) := do
  match ← w.barsOf reference instrument requirement with
  | none => return none
  | some bars => cutSeries requirement bars

/-- The installed series of an instrument at a timeframe. -/
def installedSeries (w : WarmupService) (instrument : Instrument) (timeframe : Timeframe) :
    Option HistoricalSeries :=
  (w.registry.stateFor instrument).historical.bind fun h =>
    h.series.find? fun s => s.timeframe = timeframe

end WarmupService

end ApexScan
