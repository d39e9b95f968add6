import Mathlib.Data.Prod.Lex
import Mathlib.Data.Finset.Dedup
import Mathlib.Data.String.Basic
import ApexScan.Historical.Requirements
import ApexScan.Lib.DecimalContext
import ApexScan.Lib.Ranking
import ApexScan.Strategy.EmissionDedup

/-!
# The cross-instrument scanner (`app/services/cross_instrument_scanner.py`)

The scanner subscribes to the published strategy results and keeps, for each strategy, one record
per instrument of its universe for one trading date.  A read ranks the records by the metric of the
strategy's ranking policy.

* `CrossInstrumentStrategyScanner.ingest`, `resolveState`, `store` — what one result does.
* `rank`, `snapshot` — the read.  A descending policy sorts by `-value`, a decimal operation, which
  the decimal context rounds and can refuse with `Overflow`.
* `seen` — the results of a strategy that a list of events brings to the scanner.
* `Retained` — what the state of a strategy has kept of the results seen; `ingestAll_retained` is
  the run lemma.
-/

set_option autoImplicit false

namespace ApexScan.Scanner

open Lib

inductive ScannerOrdering where
  | ascending
  | descending
  deriving DecidableEq, Repr

inductive ScannerSnapshotCompleteness where
  | partial_
  | complete
  deriving DecidableEq, Repr

/-- `Decimal | int | str | bool`. -/
inductive MetricValue where
  | decimal (value : ℚ)
  | int (value : ℤ)
  | str (value : String)
  | bool (value : Bool)
  deriving DecidableEq

structure MetricEntry where
  name : String
  value : MetricValue
  deriving DecidableEq

/-- The fields of a `StrategyResult` that the scanner reads. -/
structure StrategyResult where
  strategyId : String
  strategyVersion : String
  configVersion : String
  instrument : Instrument
  contextVersion : ℕ
  status : EvaluationStatus
  metrics : List MetricEntry := []
  deriving DecidableEq

/-- The fields of a `StrategyResultsPublished` that the scanner reads. -/
structure StrategyResultsPublished where
  results : List StrategyResult
  tradingDate : Option Int

/-- `not text.strip()`. -/
def blank (text : String) : Bool := text.toList.all HistoricalRequirementRegistry.isSpace

structure ScannerRankingPolicy where
  strategyId : String
  metricName : String
  ordering : ScannerOrdering
  strategyId_ne : blank strategyId = false
  metricName_ne : blank metricName = false
  deriving DecidableEq

/-- `ScannerRankingPolicyRegistry._policies`. -/
abbrev ScannerRankingPolicyRegistry := Dict String ScannerRankingPolicy

/-- `ScannerRankingPolicyRegistry.register`; `none` is a `ScannerPolicyConflictError`. -/
def ScannerRankingPolicyRegistry.register (policies : ScannerRankingPolicyRegistry)
    (policy : ScannerRankingPolicy) : Option ScannerRankingPolicyRegistry :=
  match Dict.get policies policy.strategyId with
  | some existing =>
    if existing ≠ policy then none else some (Dict.set policies policy.strategyId policy)
  | none => some (Dict.set policies policy.strategyId policy)

structure ScannerCandidate where
  instrument : Instrument
  strategyId : String
  strategyVersion : String
  configVersion : String
  status : EvaluationStatus
  rankingMetricName : String
  rankingMetricValue : ℚ
  rank : ℕ
  deriving DecidableEq

structure ScannerSnapshot where
  strategyId : String
  strategyVersion : String
  configVersion : String
  tradingDate : Int
  expectedCount : ℕ
  evaluatedCount : ℕ
  eligibleCount : ℕ
  completeness : ScannerSnapshotCompleteness
  candidates : List ScannerCandidate
  deriving DecidableEq

/-- `_CandidateRecord`. -/
structure CandidateRecord where
  instrument : Instrument
  status : EvaluationStatus
  metricValue : Option ℚ
  contextVersion : ℕ
  deriving DecidableEq

/-- `_CandidateRecord.eligible`. -/
def CandidateRecord.eligible (record : CandidateRecord) : Bool :=
  decide (record.status = .matched) && record.metricValue.isSome

/-- `_SnapshotState`. -/
structure SnapshotState where
  tradingDate : Int
  strategyVersion : String
  configVersion : String
  records : Dict Instrument CandidateRecord := []

/-- `_metric_value`. -/
def metricValue (result : StrategyResult) (metricName : String) : Option ℚ :=
  match result.metrics.find? fun entry => entry.name = metricName with
  | some ⟨_, .decimal value⟩ => some value
  | _ => none

/-- `_instrument_key`. -/
def instrumentKey (instrument : Instrument) : String ×ₗ String :=
  toLex (instrument.exchange, instrument.symbol)

/-- The scanner with its universe, in which an instrument is once. -/
structure CrossInstrumentStrategyScanner where
  instruments : Finset Instrument
  policies : ScannerRankingPolicyRegistry
  snapshots : Dict String SnapshotState := []

/-- What a read can raise: `decimal.Overflow`, or the error of `_require_value`. -/
inductive SnapshotError where
  | overflow
  | missingMetric
  deriving DecidableEq

/-- `_require_value`. -/
def requireValue : Option ℚ → Except SnapshotError ℚ
  | some value => .ok value
  | none => .error .missingMetric

/-- `-value`: negation is a decimal operation, so the context rounds its result. -/
def negated (value : ℚ) : Except SnapshotError ℚ :=
  match DecimalContext.default.round (-value) with
  | some value => .ok value
  | none => .error .overflow

/-- `-value if descending else value`. -/
def sortMetric (ordering : ScannerOrdering) (value : ℚ) : Except SnapshotError ℚ :=
  if ordering = .descending then negated value else .ok value

/-- `_key`, nested in `_rank`. -/
def sortKey (policy : ScannerRankingPolicy) (record : CandidateRecord) :
    Except SnapshotError (ℚ ×ₗ String ×ₗ String) := do
  let value ← requireValue record.metricValue
  let metric ← sortMetric policy.ordering value
  return toLex (metric, instrumentKey record.instrument)

/-- `_rank`. -/
def rank (records : List CandidateRecord) (policy : ScannerRankingPolicy) :
    Except SnapshotError (List CandidateRecord) :=
  sortedOn (sortKey policy) records

/-- The candidate of a ranked record. -/
def candidate (strategyId : String) (state : SnapshotState) (policy : ScannerRankingPolicy)
    (ranked : CandidateRecord × ℕ) : Except SnapshotError ScannerCandidate := do
  let value ← requireValue ranked.1.metricValue
  return {
    instrument := ranked.1.instrument
    strategyId := strategyId
    strategyVersion := state.strategyVersion
    configVersion := state.configVersion
    status := .matched
    rankingMetricName := policy.metricName
    rankingMetricValue := value
    rank := ranked.2 + 1 }

/-- `_store`, on the records of the state. -/
def store (records : Dict Instrument CandidateRecord) (result : StrategyResult) (value : Option ℚ) :
    Dict Instrument CandidateRecord :=
  let record : CandidateRecord := ⟨result.instrument, result.status, value, result.contextVersion⟩
  match records.get result.instrument with
  | none => records.set result.instrument record
  | some existing =>
    if result.contextVersion < existing.contextVersion then records
    -- an identical delivery and a conflict of one version both keep the first record
    else if result.contextVersion = existing.contextVersion then records
    else records.set result.instrument record

/-- `_resolve_state`; `none` drops the result. -/
def resolveState (current : Option SnapshotState) (result : StrategyResult) (tradingDate : Int) :
    Option SnapshotState :=
  let fresh : SnapshotState :=
    { tradingDate := tradingDate
      strategyVersion := result.strategyVersion
      configVersion := result.configVersion }
  match current with
  | none => some fresh
  | some current =>
    if current.tradingDate < tradingDate then some fresh
    else if tradingDate < current.tradingDate then none
    else if (result.strategyVersion, result.configVersion) ≠
        (current.strategyVersion, current.configVersion) then none
    else some current

namespace CrossInstrumentStrategyScanner

/-- `__init__`; `_expected_count` is the number of elements of the universe. -/
def init (instruments : List Instrument) (policies : ScannerRankingPolicyRegistry) :
    CrossInstrumentStrategyScanner :=
  { instruments := instruments.toFinset, policies := policies }

def expectedCount (scanner : CrossInstrumentStrategyScanner) : ℕ := scanner.instruments.card

/-- `_ingest`. -/
def ingest (scanner : CrossInstrumentStrategyScanner) (result : StrategyResult) (tradingDate : Int) :
    CrossInstrumentStrategyScanner :=
  match scanner.policies.get result.strategyId with
  | none => scanner
  | some policy =>
    if result.instrument ∉ scanner.instruments then scanner
    else if ¬ (result.status = .matched ∨ result.status = .noMatch) then scanner
    else
      match resolveState (scanner.snapshots.get result.strategyId) result tradingDate with
      | none => scanner
      | some state =>
        let value :=
          if result.status = .matched then metricValue result policy.metricName else none
        { scanner with
          snapshots := scanner.snapshots.set result.strategyId
            { state with records := store state.records result value } }

/-- `_handle`. -/
def handle (scanner : CrossInstrumentStrategyScanner) (event : StrategyResultsPublished) :
    CrossInstrumentStrategyScanner :=
  match event.tradingDate with
  | none => scanner
  | some tradingDate =>
    event.results.foldl (fun scanner result => scanner.ingest result tradingDate) scanner

/-- The scanner after a list of events, from the bus in order. -/
def handleAll (scanner : CrossInstrumentStrategyScanner) (events : List StrategyResultsPublished) :
    CrossInstrumentStrategyScanner :=
  events.foldl handle scanner

/-- `snapshot`. -/
def snapshot (scanner : CrossInstrumentStrategyScanner) (strategyId : String) :
    Except SnapshotError (Option ScannerSnapshot) :=
  match scanner.snapshots.get strategyId, scanner.policies.get strategyId with
  | some state, some policy => do
    let eligible := (state.records.map (·.2)).filter (·.eligible)
    let ranked ← rank eligible policy
    let candidates ← ranked.zipIdx.mapM (candidate strategyId state policy)
    let evaluated := state.records.length
    return some {
      strategyId := strategyId
      strategyVersion := state.strategyVersion
      configVersion := state.configVersion
      tradingDate := state.tradingDate
      expectedCount := scanner.expectedCount
      evaluatedCount := evaluated
      eligibleCount := candidates.length
      completeness := if evaluated = scanner.expectedCount then .complete else .partial_
      candidates := candidates }
  | _, _ => return none

end CrossInstrumentStrategyScanner

/-! ## What the scanner has seen -/

def StrategyResult.versions (result : StrategyResult) : String × String :=
  (result.strategyVersion, result.configVersion)

/-- The results of a list of events, each with the trading date of its event, in order. -/
def published (events : List StrategyResultsPublished) : List (Int × StrategyResult) :=
  events.flatMap fun event =>
    match event.tradingDate with
    | none => []
    | some tradingDate => event.results.map fun result => (tradingDate, result)

/-- A result of the strategy, with an evaluation, for an instrument of the universe. -/
def evaluates (instruments : Finset Instrument) (strategyId : String) (result : StrategyResult) :
    Bool :=
  decide (result.strategyId = strategyId ∧ result.instrument ∈ instruments ∧
    (result.status = .matched ∨ result.status = .noMatch))

/-- The evaluations of a strategy that a list of events brings. -/
def seen (instruments : Finset Instrument) (strategyId : String)
    (events : List StrategyResultsPublished) : List (Int × StrategyResult) :=
  (published events).filter fun dated => evaluates instruments strategyId dated.2

/-- The order of dates, by the instance that computes. -/
local instance (priority := high) datePreorder : Preorder ℤ := Int.instLinearOrder.toPreorder

/-- The first result seen for the greatest trading date seen. -/
def current (seen : List (Int × StrategyResult)) : Option (Int × StrategyResult) :=
  seen.argmax (·.1)

/-- The results for an instrument with the trading date and the versions of `first`. -/
def comparable (first : Int × StrategyResult) (seen : List (Int × StrategyResult))
    (instrument : Instrument) : List (Int × StrategyResult) :=
  seen.filter fun dated =>
    dated.1 = first.1 ∧ dated.2.versions = first.2.versions ∧ dated.2.instrument = instrument

/-- The result of greatest context version among them, the first one on equal versions. -/
def newest (first : Int × StrategyResult) (seen : List (Int × StrategyResult))
    (instrument : Instrument) : Option StrategyResult :=
  ((comparable first seen instrument).argmax (·.2.contextVersion)).map (·.2)

/-- The record of a result. -/
def recordOf (policy : ScannerRankingPolicy) (result : StrategyResult) : CandidateRecord where
  instrument := result.instrument
  status := result.status
  metricValue := if result.status = .matched then metricValue result policy.metricName else none
  contextVersion := result.contextVersion

/-- The state is for the date and the versions of `first` and has, for every instrument, the record
    of its newest result. -/
structure RetainedFrom (policy : ScannerRankingPolicy) (seen : List (Int × StrategyResult))
    (first : Int × StrategyResult) (state : SnapshotState) : Prop where
  tradingDate : state.tradingDate = first.1
  versions : (state.strategyVersion, state.configVersion) = first.2.versions
  nodup : (state.records.map (·.1)).Nodup
  records : ∀ instrument,
    state.records.get instrument = (newest first seen instrument).map (recordOf policy)

/-- What the state of a strategy has kept of the results seen. -/
def Retained (policy : ScannerRankingPolicy) (seen : List (Int × StrategyResult))
    (state : Option SnapshotState) : Prop :=
  Option.Rel (RetainedFrom policy seen) (current seen) state

/-! ## One result -/

section Step

variable {policy : ScannerRankingPolicy} {first : Int × StrategyResult}
  {results : List (Int × StrategyResult)} {dated : Int × StrategyResult}

/-- The state of a strategy after a result that passes the guards of `_ingest`. -/
def absorb (policy : ScannerRankingPolicy) (state : Option SnapshotState)
    (dated : Int × StrategyResult) : Option SnapshotState :=
  match resolveState state dated.2 dated.1 with
  | none => state
  | some state => some { state with
      records := store state.records dated.2 (recordOf policy dated.2).metricValue }

theorem ingest_get (scanner : CrossInstrumentStrategyScanner) {strategyId : String}
    (hpolicy : scanner.policies.get strategyId = some policy) (dated : Int × StrategyResult) :
    (scanner.ingest dated.2 dated.1).snapshots.get strategyId =
      if evaluates scanner.instruments strategyId dated.2 then
        absorb policy (scanner.snapshots.get strategyId) dated
      else scanner.snapshots.get strategyId := by
  by_cases hid : dated.2.strategyId = strategyId
  · subst hid
    unfold CrossInstrumentStrategyScanner.ingest evaluates absorb
    rw [hpolicy]
    by_cases hin : dated.2.instrument ∈ scanner.instruments
    · by_cases hstatus : dated.2.status = .matched ∨ dated.2.status = .noMatch
      · simp only [hin, hstatus, not_true_eq_false, if_false, and_self, decide_true, if_true]
        cases resolveState (scanner.snapshots.get dated.2.strategyId) dated.2 dated.1 with
        | none => rfl
        | some state => exact Dict.get_set_self _ _ _
      · simp [hin, hstatus]
    · simp [hin]
  · have hnot : evaluates scanner.instruments strategyId dated.2 = false := by
      simp [evaluates, hid]
    rw [hnot, if_neg (by decide)]
    unfold CrossInstrumentStrategyScanner.ingest
    split
    · rfl
    · split
      · rfl
      · split
        · rfl
        · split
          · rfl
          · exact Dict.get_set_ne _ _ hid

theorem ingest_keeps (scanner : CrossInstrumentStrategyScanner) (result : StrategyResult)
    (tradingDate : Int) :
    (scanner.ingest result tradingDate).instruments = scanner.instruments ∧
      (scanner.ingest result tradingDate).policies = scanner.policies := by
  unfold CrossInstrumentStrategyScanner.ingest
  split
  · exact ⟨rfl, rfl⟩
  · split
    · exact ⟨rfl, rfl⟩
    · split
      · exact ⟨rfl, rfl⟩
      · split <;> exact ⟨rfl, rfl⟩

/-- The record kept for an instrument is the one of greater context version, the present one on
    equal versions. -/
theorem store_get (records : Dict Instrument CandidateRecord) (policy : ScannerRankingPolicy)
    (result : StrategyResult) (instrument : Instrument) :
    (store records result (recordOf policy result).metricValue).get instrument =
      if result.instrument = instrument then
        match records.get instrument with
        | none => some (recordOf policy result)
        | some existing =>
          if existing.contextVersion < result.contextVersion then some (recordOf policy result)
          else some existing
      else records.get instrument := by
  unfold store
  by_cases hin : result.instrument = instrument
  · subst hin
    rw [if_pos rfl]
    cases hget : records.get result.instrument with
    | none => exact Dict.get_set_self _ _ _
    | some existing =>
      rcases lt_trichotomy result.contextVersion existing.contextVersion with hlt | heq | hgt
      · simp [hlt, hlt.le, hget]
      · simp [heq, hget]
      · simp only [not_lt_of_gt hgt, hgt.ne', if_false, hgt, if_true]
        exact Dict.get_set_self _ _ _
  · rw [if_neg hin]
    split
    · exact Dict.get_set_ne _ _ hin
    · split
      · rfl
      · split
        · rfl
        · exact Dict.get_set_ne _ _ hin

theorem store_nodup (records : Dict Instrument CandidateRecord)
    (h : (records.map (·.1)).Nodup) (result : StrategyResult) (value : Option ℚ) :
    ((store records result value).map (·.1)).Nodup := by
  unfold store
  split
  · exact Dict.nodup_keys_set h _ _
  · split
    · exact h
    · split
      · exact h
      · exact Dict.nodup_keys_set h _ _

/-- A result of another date or of other versions is not compared. -/
theorem newest_concat_of_ne (hne : ¬ (dated.1 = first.1 ∧ dated.2.versions = first.2.versions))
    (instrument : Instrument) :
    newest first (results ++ [dated]) instrument = newest first results instrument := by
  have hfilter : comparable first (results ++ [dated]) instrument =
      comparable first results instrument := by
    unfold comparable
    rw [List.filter_append, List.filter_singleton, Bool.cond_eq_ite, if_neg, List.append_nil]
    rw [decide_eq_true_eq]
    exact fun h => hne ⟨h.1, h.2.1⟩
  unfold newest
  rw [hfilter]

/-- A comparable result replaces the newest one if its context version is greater. -/
theorem newest_concat (hdate : dated.1 = first.1) (hversions : dated.2.versions = first.2.versions)
    (instrument : Instrument) :
    newest first (results ++ [dated]) instrument =
      if dated.2.instrument = instrument then
        match newest first results instrument with
        | none => some dated.2
        | some existing =>
          if existing.contextVersion < dated.2.contextVersion then some dated.2 else some existing
      else newest first results instrument := by
  have hfilter : comparable first (results ++ [dated]) instrument =
      comparable first results instrument ++
        if dated.2.instrument = instrument then [dated] else [] := by
    unfold comparable
    rw [List.filter_append, List.filter_singleton, Bool.cond_eq_ite]
    simp only [hdate, hversions, true_and, decide_eq_true_eq]
  unfold newest
  rw [hfilter]
  split
  · rw [List.argmax_concat]
    cases (comparable first results instrument).argmax (·.2.contextVersion) with
    | none => rfl
    | some existing =>
      dsimp only [Option.map_some]
      split <;> rfl
  · rw [List.append_nil]

theorem current_concat (hfirst : current results = some first) (dated : Int × StrategyResult) :
    current (results ++ [dated]) = if first.1 < dated.1 then some dated else some first := by
  unfold current at hfirst ⊢
  rw [List.argmax_concat, hfirst]

/-- A result of a later date starts the records again. -/
theorem fresh_retained (hlater : ∀ earlier ∈ results, earlier.1 < dated.1) :
    RetainedFrom policy (results ++ [dated]) dated
      { tradingDate := dated.1
        strategyVersion := dated.2.strategyVersion
        configVersion := dated.2.configVersion
        records := store [] dated.2 (recordOf policy dated.2).metricValue } where
  tradingDate := rfl
  versions := rfl
  nodup := store_nodup [] List.nodup_nil _ _
  records instrument := by
    have hnone : newest dated results instrument = none := by
      have hnil : comparable dated results instrument = [] := by
        unfold comparable
        rw [List.filter_eq_nil_iff]
        intro earlier hmem
        have := hlater earlier hmem
        simp [this.ne]
      unfold newest
      rw [hnil]
      rfl
    rw [store_get, newest_concat rfl rfl, hnone]
    split <;> rfl

/-- A result of the date and the versions of the state is compared with the record it has. -/
theorem store_retained {state : SnapshotState} (h : RetainedFrom policy results first state)
    (hdate : dated.1 = first.1) (hversions : dated.2.versions = first.2.versions) :
    RetainedFrom policy (results ++ [dated]) first
      { state with records := store state.records dated.2 (recordOf policy dated.2).metricValue } where
  tradingDate := h.tradingDate
  versions := h.versions
  nodup := store_nodup _ h.nodup _ _
  records instrument := by
    rw [store_get, newest_concat hdate hversions, h.records]
    split
    · cases newest first results instrument with
      | none => rfl
      | some existing =>
        have hversion : (recordOf policy existing).contextVersion = existing.contextVersion := rfl
        simp only [Option.map_some, hversion]
        split <;> rfl
    · rfl

/-- **A result takes the state from what was seen before it to what was seen with it.** -/
theorem absorb_retained {state : Option SnapshotState} (h : Retained policy results state)
    (dated : Int × StrategyResult) :
    Retained policy (results ++ [dated]) (absorb policy state dated) := by
  unfold Retained at h ⊢
  cases hcurrent : current results with
  | none =>
    rw [hcurrent] at h
    cases h
    have hnil : results = [] := List.argmax_eq_none.mp hcurrent
    subst hnil
    exact .some (fresh_retained (by simp))
  | some first =>
    rw [hcurrent] at h
    obtain ⟨hretained⟩ := h
    rename_i state
    rw [current_concat hcurrent]
    have hle : ∀ earlier ∈ results, earlier.1 ≤ first.1 := fun earlier hmem =>
      List.le_of_mem_argmax hmem hcurrent
    unfold absorb resolveState
    simp only [hretained.tradingDate]
    have hunchanged (hne : ¬ (dated.1 = first.1 ∧ dated.2.versions = first.2.versions)) :
        RetainedFrom policy (results ++ [dated]) first state :=
      ⟨hretained.tradingDate, hretained.versions, hretained.nodup, fun instrument => by
        rw [newest_concat_of_ne hne, hretained.records]⟩
    by_cases hlater : first.1 < dated.1
    · simp only [hlater, if_true]
      exact .some (fresh_retained fun earlier hmem => (hle earlier hmem).trans_lt hlater)
    · simp only [hlater, if_false]
      by_cases hearlier : dated.1 < first.1
      · simp only [hearlier, if_true]
        exact .some (hunchanged fun heq => hearlier.ne heq.1)
      · have hdate : dated.1 = first.1 := le_antisymm (not_lt.mp hlater) (not_lt.mp hearlier)
        simp only [hearlier, if_false, hretained.versions]
        by_cases hversions : dated.2.versions = first.2.versions
        · have hversions' : (dated.2.strategyVersion, dated.2.configVersion) = first.2.versions :=
            hversions
          rw [if_neg (not_not.mpr hversions')]
          exact .some (store_retained hretained hdate hversions)
        · have hversions' : (dated.2.strategyVersion, dated.2.configVersion) ≠ first.2.versions :=
            hversions
          rw [if_pos hversions']
          exact .some (hunchanged fun heq => hversions heq.2)

end Step

/-! ## Runs -/

theorem handleAll_eq_foldl (scanner : CrossInstrumentStrategyScanner)
    (events : List StrategyResultsPublished) :
    scanner.handleAll events =
      (published events).foldl (fun scanner dated => scanner.ingest dated.2 dated.1) scanner := by
  unfold CrossInstrumentStrategyScanner.handleAll published
  induction events generalizing scanner with
  | nil => rfl
  | cons event events ih =>
    rw [List.foldl_cons, ih, List.flatMap_cons, List.foldl_append]
    congr 1
    unfold CrossInstrumentStrategyScanner.handle
    cases event.tradingDate with
    | none => rfl
    | some tradingDate => rw [List.foldl_map]

theorem foldl_ingest_keeps (scanner : CrossInstrumentStrategyScanner)
    (results : List (Int × StrategyResult)) :
    (results.foldl (fun scanner dated => scanner.ingest dated.2 dated.1) scanner).instruments =
        scanner.instruments ∧
      (results.foldl (fun scanner dated => scanner.ingest dated.2 dated.1) scanner).policies =
        scanner.policies := by
  induction results generalizing scanner with
  | nil => exact ⟨rfl, rfl⟩
  | cons dated results ih =>
    obtain ⟨hinstruments, hpolicies⟩ := ingest_keeps scanner dated.2 dated.1
    rw [List.foldl_cons, ← hinstruments, ← hpolicies]
    exact ih _

/-- **The state of a strategy is what the results seen leave of it**, for every list of events. -/
theorem handleAll_retained (instruments : List Instrument) (policies : ScannerRankingPolicyRegistry)
    {strategyId : String} {policy : ScannerRankingPolicy}
    (hpolicy : policies.get strategyId = some policy) (events : List StrategyResultsPublished) :
    Retained policy (seen instruments.toFinset strategyId events)
      (((CrossInstrumentStrategyScanner.init instruments policies).handleAll events).snapshots.get
        strategyId) := by
  rw [handleAll_eq_foldl]
  unfold seen
  -- by induction on the results delivered, the last one first
  induction published events using List.reverseRecOn with
  | nil => exact .none
  | append_singleton results dated ih =>
    obtain ⟨hinstruments, hpolicies⟩ := foldl_ingest_keeps
      (CrossInstrumentStrategyScanner.init instruments policies) results
    have huniverse :
        (CrossInstrumentStrategyScanner.init instruments policies).instruments =
          instruments.toFinset := rfl
    rw [List.foldl_concat, ingest_get _ (by rw [hpolicies]; exact hpolicy), hinstruments, huniverse,
      List.filter_append, List.filter_singleton]
    cases evaluates instruments.toFinset strategyId dated.2 with
    | true => exact absorb_retained ih dated
    | false =>
      rw [cond_false, List.append_nil]
      exact ih

end ApexScan.Scanner
