import ApexScan.Services.CrossInstrumentScanner

/-!
# What a scanner snapshot says

A snapshot ranks the eligible records of a strategy's state.  With the run lemma of the scanner it
is described by the results that were published alone.

* `snapshotAfter` — the snapshot of a strategy after a list of events.
* `Ranked` — an instrument is ranked with a metric: its newest comparable result is a match that
  has the metric of the policy as a `Decimal`.
* `Precedes` — the order of the candidates.
* `Describes` — what a snapshot says about the results seen.
* `snapshotAfter_of_perm` — the order of the events does not matter.

Main result: `snapshot_of_publications`.  `published_results_not_ranked` shows what it cannot say: a
result that is neither a match nor a non-match is dropped by `_ingest`, and a descending policy ranks
by `-value`, which is rounded to 28 digits.
-/

set_option autoImplicit false

namespace ApexScan.Scanner

open Lib CrossInstrumentStrategyScanner

/-- The snapshot of a strategy after a list of events. -/
def snapshotAfter (instruments : List Instrument) (policies : ScannerRankingPolicyRegistry)
    (strategyId : String) (events : List StrategyResultsPublished) :
    Except SnapshotError (Option ScannerSnapshot) :=
  ((init instruments policies).handleAll events).snapshot strategyId

/-- The instrument is ranked with this metric. -/
def Ranked (policy : ScannerRankingPolicy) (first : Int × StrategyResult)
    (seen : List (Int × StrategyResult)) (instrument : Instrument) (value : ℚ) : Prop :=
  ∃ result, newest first seen instrument = some result ∧ result.status = .matched ∧
    metricValue result policy.metricName = some value

/-- The better metric is first, and of equal metrics the smaller exchange and symbol. -/
def Precedes (ordering : ScannerOrdering) (a b : ScannerCandidate) : Prop :=
  (match ordering with
    | .ascending => a.rankingMetricValue < b.rankingMetricValue
    | .descending => b.rankingMetricValue < a.rankingMetricValue) ∨
  a.rankingMetricValue = b.rankingMetricValue ∧
    instrumentKey a.instrument < instrumentKey b.instrument

/-- What a snapshot says about the results seen, `first` being the first one of the greatest date. -/
structure Describes (instruments : List Instrument) (policy : ScannerRankingPolicy)
    (first : Int × StrategyResult) (seen : List (Int × StrategyResult)) (snap : ScannerSnapshot) :
    Prop where
  tradingDate : snap.tradingDate = first.1
  versions : (snap.strategyVersion, snap.configVersion) = first.2.versions
  /-- Exactly the matches with a metric are candidates, each instrument once. -/
  ranked : ∀ instrument value,
    (∃ c ∈ snap.candidates, c.instrument = instrument ∧ c.rankingMetricValue = value) ↔
      Ranked policy first seen instrument value
  once : (snap.candidates.map (·.instrument)).Nodup
  ranks : snap.candidates.map (·.rank) = List.range' 1 snap.eligibleCount
  eligible : snap.eligibleCount = snap.candidates.length
  expected : snap.expectedCount = instruments.toFinset.card
  evaluated : snap.evaluatedCount =
    (instruments.toFinset.filter fun instrument => (newest first seen instrument).isSome).card
  evaluated_le : snap.evaluatedCount ≤ snap.expectedCount
  complete_iff : snap.completeness = .complete ↔
    ∀ instrument ∈ instruments, (newest first seen instrument).isSome

/-! ## The read -/

section Read

variable {policy : ScannerRankingPolicy} {state : SnapshotState} {record : CandidateRecord}

/-- The records that rank. -/
def eligibleRecords (state : SnapshotState) : List CandidateRecord :=
  (state.records.map (·.2)).filter (·.eligible)

/-- The candidate of a record that has a metric. -/
def candidateOf (strategyId : String) (state : SnapshotState) (policy : ScannerRankingPolicy)
    (ranked : CandidateRecord × ℕ) : ScannerCandidate where
  instrument := ranked.1.instrument
  strategyId := strategyId
  strategyVersion := state.strategyVersion
  configVersion := state.configVersion
  status := .matched
  rankingMetricName := policy.metricName
  rankingMetricValue := ranked.1.metricValue.getD 0
  rank := ranked.2 + 1

/-- The snapshot that a ranking gives. -/
def snapshotOf (expected : ℕ) (strategyId : String) (state : SnapshotState)
    (policy : ScannerRankingPolicy) (ranked : List CandidateRecord) : ScannerSnapshot where
  strategyId := strategyId
  strategyVersion := state.strategyVersion
  configVersion := state.configVersion
  tradingDate := state.tradingDate
  expectedCount := expected
  evaluatedCount := state.records.length
  eligibleCount := ranked.length
  completeness := if state.records.length = expected then .complete else .partial_
  candidates := ranked.zipIdx.map (candidateOf strategyId state policy)

theorem mem_eligibleRecords : record ∈ eligibleRecords state ↔
    (∃ instrument, (instrument, record) ∈ state.records) ∧ record.status = .matched ∧
      ∃ value, record.metricValue = some value := by
  unfold eligibleRecords CandidateRecord.eligible
  rw [List.mem_filter, Bool.and_eq_true, decide_eq_true_eq, Option.isSome_iff_exists]
  simp

theorem eligibleRecords_of_perm {state' : SnapshotState} (h : state.records.Perm state'.records) :
    (eligibleRecords state).Perm (eligibleRecords state') := by
  unfold eligibleRecords
  exact (h.map _).filter _

/-- Besides the ranking, a snapshot shows the identity of the state and the number of its records. -/
theorem snapshotOf_congr {state' : SnapshotState} (expected : ℕ) (strategyId : String)
    (policy : ScannerRankingPolicy) (hdate : state'.tradingDate = state.tradingDate)
    (hversions : (state'.strategyVersion, state'.configVersion) =
      (state.strategyVersion, state.configVersion))
    (hlength : state'.records.length = state.records.length) :
    snapshotOf expected strategyId state' policy = snapshotOf expected strategyId state policy := by
  obtain ⟨hstrategy, hconfig⟩ := Prod.mk.injEq .. ▸ hversions
  have hcandidate : candidateOf strategyId state' policy = candidateOf strategyId state policy := by
    funext indexed
    unfold candidateOf
    rw [hstrategy, hconfig]
  funext ranked
  unfold snapshotOf
  rw [hcandidate, hstrategy, hconfig, hdate, hlength]

/-- A read fails only in the sort. -/
theorem snapshot_eq {scanner : CrossInstrumentStrategyScanner} {strategyId : String}
    (hstate : scanner.snapshots.get strategyId = some state)
    (hpolicy : scanner.policies.get strategyId = some policy) :
    scanner.snapshot strategyId = (rank (eligibleRecords state) policy).map fun ranked =>
      some (snapshotOf scanner.expectedCount strategyId state policy ranked) := by
  unfold snapshot
  rw [hstate, hpolicy]
  have hfold : (state.records.map (·.2)).filter (·.eligible) = eligibleRecords state := rfl
  simp only [hfold]
  cases hrank : rank (eligibleRecords state) policy with
  | error e => rfl
  | ok ranked =>
    have hcandidates : ranked.zipIdx.mapM (candidate strategyId state policy) =
        .ok (ranked.zipIdx.map (candidateOf strategyId state policy)) := by
      apply mapM_eq_map
      intro indexed hmem
      have hin : indexed.1 ∈ ranked := List.fst_mem_of_mem_zipIdx hmem
      obtain ⟨_, _, value, hvalue⟩ :=
        mem_eligibleRecords.mp ((sortedOn_spec hrank).1.mem_iff.mp hin)
      unfold candidate candidateOf
      rw [hvalue]
      rfl
    rw [ok_bind, hcandidates, ok_bind, List.length_map, List.length_zipIdx]
    rfl

theorem candidates_instruments (strategyId : String) (ranked : List CandidateRecord) :
    (ranked.zipIdx.map (candidateOf strategyId state policy)).map (·.instrument) =
      ranked.map (·.instrument) := by
  have hsplit : (ranked.zipIdx.map (candidateOf strategyId state policy)).map (·.instrument) =
      (ranked.zipIdx.map (·.1)).map (·.instrument) := by
    rw [List.map_map, List.map_map]
    rfl
  rw [hsplit, List.zipIdx_map_fst]

/-- The ranks are the positions from 1. -/
theorem candidates_ranks {strategyId : String} (ranked : List CandidateRecord) :
    (ranked.zipIdx.map (candidateOf strategyId state policy)).map (·.rank) =
      List.range' 1 ranked.length := by
  have hsplit : (ranked.zipIdx.map (candidateOf strategyId state policy)).map (·.rank) =
      (ranked.zipIdx.map (·.2)).map (1 + ·) := by
    rw [List.map_map, List.map_map]
    apply List.map_congr_left
    intro indexed _
    exact Nat.add_comm _ _
  rw [hsplit, List.zipIdx_map_snd, List.map_add_range']

/-- The sort key of a metric. -/
def orient : ScannerOrdering → ℚ → ℚ
  | .ascending, value => value
  | .descending, value => -value

theorem sortKey_of_represents {value : ℚ} (hvalue : record.metricValue = some value)
    (hexact : policy.ordering = .descending → DecimalContext.default.Represents value) :
    sortKey policy record =
      .ok (toLex (orient policy.ordering value, instrumentKey record.instrument)) := by
  unfold sortKey
  rw [hvalue]
  cases hordering : policy.ordering with
  | ascending => rfl
  | descending =>
    have hround := DecimalContext.round_eq_self (hexact hordering).neg
    have hmetric : sortMetric .descending value = .ok (-value) := by
      unfold sortMetric negated
      rw [if_pos rfl, hround]
    unfold requireValue
    rw [ok_bind, hmetric]
    rfl

/-- Candidates of different keys, in the order of their sort keys. -/
theorem precedes_of_key_le {ordering : ScannerOrdering} {a b : ScannerCandidate}
    (hle : toLex (orient ordering a.rankingMetricValue, instrumentKey a.instrument) ≤
      toLex (orient ordering b.rankingMetricValue, instrumentKey b.instrument))
    (hne : instrumentKey a.instrument ≠ instrumentKey b.instrument) : Precedes ordering a b := by
  rw [Prod.Lex.toLex_le_toLex] at hle
  unfold Precedes
  rcases hle with hlt | ⟨heq, hle⟩
  · left
    cases ordering with
    | ascending => exact hlt
    | descending => exact neg_lt_neg_iff.mp hlt
  · right
    refine ⟨?_, lt_of_le_of_ne hle hne⟩
    cases ordering with
    | ascending => exact heq
    | descending => exact neg_inj.mp heq

/-- A key ends in the exchange and the symbol of its record. -/
theorem sortKey_eq_ok {key : ℚ ×ₗ String ×ₗ String} (h : sortKey policy record = .ok key) :
    (ofLex key).2 = instrumentKey record.instrument := by
  obtain ⟨value, _, h⟩ := bind_eq_ok.mp h
  obtain ⟨metric, _, h⟩ := bind_eq_ok.mp h
  cases h
  rfl

/-- The key of a record that has a metric raises nothing but `Overflow`. -/
theorem sortKey_eq_error {value : ℚ} (hvalue : record.metricValue = some value) {e : SnapshotError}
    (h : sortKey policy record = .error e) : e = .overflow := by
  unfold sortKey at h
  rw [hvalue] at h
  unfold requireValue at h
  rw [ok_bind] at h
  cases hmetric : sortMetric policy.ordering value with
  | ok metric =>
    rw [hmetric] at h
    cases h
  | error e' =>
    rw [hmetric] at h
    cases h
    unfold sortMetric negated at hmetric
    split at hmetric
    · split at hmetric
      · cases hmetric
      · cases hmetric
        rfl
    · cases hmetric

/-- A descending policy ranks by `-value`, which has to be in the range of the default context. -/
theorem sortKey_returns_iff {value : ℚ} (hvalue : record.metricValue = some value) :
    (∃ key, sortKey policy record = .ok key) ↔
      (policy.ordering = .descending → (DecimalContext.default.round (-value)).isSome) := by
  unfold sortKey sortMetric negated
  rw [hvalue]
  unfold requireValue
  rw [ok_bind]
  cases policy.ordering with
  | ascending => exact iff_of_true ⟨_, rfl⟩ fun h => nomatch h
  | descending =>
    rw [if_pos rfl]
    cases DecimalContext.default.round (-value) with
    | none =>
      refine iff_of_false (fun h => ?_) fun h => absurd (h rfl) (by decide)
      obtain ⟨_, h⟩ := h
      cases h
    | some rounded => exact iff_of_true ⟨_, rfl⟩ fun _ => rfl

end Read

/-! ## The snapshot of a retained state -/

section Retained

variable {instruments : List Instrument} {strategyId : String} {policy : ScannerRankingPolicy}
  {first : Int × StrategyResult} {results : List (Int × StrategyResult)} {state : SnapshotState}

theorem mem_of_newest {instrument : Instrument} {result : StrategyResult}
    (h : newest first results instrument = some result) :
    ∃ dated ∈ results, dated.2 = result ∧ dated.2.instrument = instrument ∧
      dated.1 = first.1 ∧ dated.2.versions = first.2.versions := by
  obtain ⟨dated, hdated, rfl⟩ := Option.map_eq_some_iff.mp h
  obtain ⟨hmem, hcond⟩ := List.mem_filter.mp (List.argmax_mem hdated)
  rw [decide_eq_true_eq] at hcond
  exact ⟨dated, hmem, rfl, hcond.2.2, hcond.1, hcond.2.1⟩

theorem newest_of_record (h : RetainedFrom policy results first state) {instrument : Instrument}
    {record : CandidateRecord} (hmem : (instrument, record) ∈ state.records) :
    ∃ result, newest first results instrument = some result ∧ record = recordOf policy result ∧
      record.instrument = instrument := by
  have hget := (Dict.mem_iff_get h.nodup instrument record).mp hmem
  rw [h.records] at hget
  obtain ⟨result, hresult, rfl⟩ := Option.map_eq_some_iff.mp hget
  obtain ⟨dated, _, rfl, hinstrument, _⟩ := mem_of_newest hresult
  exact ⟨dated.2, hresult, rfl, hinstrument⟩

/-- The records are those of the ranked instruments. -/
theorem mem_eligible_iff (h : RetainedFrom policy results first state) {record : CandidateRecord} :
    record ∈ eligibleRecords state ↔ ∃ result value,
      newest first results record.instrument = some result ∧ result.status = .matched ∧
        metricValue result policy.metricName = some value ∧ record = recordOf policy result := by
  rw [mem_eligibleRecords]
  constructor
  · rintro ⟨⟨instrument, hmem⟩, hstatus, value, hvalue⟩
    obtain ⟨result, hresult, rfl, hinstrument⟩ := newest_of_record h hmem
    have hmatched : result.status = .matched := hstatus
    unfold recordOf at hvalue
    rw [if_pos hmatched] at hvalue
    exact ⟨result, value, hinstrument ▸ hresult, hmatched, hvalue, rfl⟩
  · rintro ⟨result, value, hresult, hmatched, hvalue, rfl⟩
    refine ⟨⟨(recordOf policy result).instrument, ?_⟩, hmatched, value, ?_⟩
    · rw [Dict.mem_iff_get h.nodup, h.records, hresult]
      rfl
    · unfold recordOf
      rw [if_pos hmatched, hvalue]

theorem ranked_of_eligible (h : RetainedFrom policy results first state) {record : CandidateRecord}
    (hmem : record ∈ eligibleRecords state) :
    ∃ value, record.metricValue = some value ∧
      Ranked policy first results record.instrument value := by
  obtain ⟨result, value, hresult, hmatched, hvalue, hrecord⟩ := (mem_eligible_iff h).mp hmem
  refine ⟨value, ?_, result, hresult, hmatched, hvalue⟩
  rw [hrecord, recordOf, if_pos hmatched, hvalue]

/-- A ranked instrument has a record with its metric. -/
theorem eligible_of_ranked (h : RetainedFrom policy results first state) {instrument : Instrument}
    {value : ℚ} (hranked : Ranked policy first results instrument value) :
    ∃ record ∈ eligibleRecords state, record.instrument = instrument ∧
      record.metricValue = some value := by
  obtain ⟨result, hresult, hmatched, hvalue⟩ := hranked
  obtain ⟨dated, _, rfl, hinstrument, _⟩ := mem_of_newest hresult
  refine ⟨recordOf policy dated.2, ?_, hinstrument, ?_⟩
  · exact (mem_eligible_iff h).mpr
      ⟨dated.2, value, (congrArg _ hinstrument).trans hresult, hmatched, hvalue, rfl⟩
  · rw [recordOf, if_pos hmatched, hvalue]

/-- The sort returns unless it overflows at a ranked metric. -/
theorem rank_returns_iff (h : RetainedFrom policy results first state) :
    (∃ ranked, rank (eligibleRecords state) policy = .ok ranked) ↔
      (policy.ordering = .descending → ∀ instrument value,
        Ranked policy first results instrument value →
          (DecimalContext.default.round (-value)).isSome) := by
  constructor
  · rintro ⟨ranked, hranked⟩ hdescending instrument value hvalue
    obtain ⟨record, hmem, -, hmetric⟩ := eligible_of_ranked h hvalue
    exact (sortKey_returns_iff hmetric).mp (sortedOn_keys hranked record hmem) hdescending
  · intro hrounds
    apply sortedOn_returns
    intro record hmem
    obtain ⟨value, hvalue, hranked⟩ := ranked_of_eligible h hmem
    exact (sortKey_returns_iff hvalue).mpr fun hdescending => hrounds hdescending _ value hranked

/-- An instrument has one record. -/
theorem eligible_nodup (h : RetainedFrom policy results first state) :
    ((eligibleRecords state).map (·.instrument)).Nodup := by
  have hkeys : (state.records.map (·.2)).map (·.instrument) = state.records.map (·.1) := by
    rw [List.map_map]
    apply List.map_congr_left
    rintro ⟨instrument, record⟩ hmem
    obtain ⟨_, _, _, hinstrument⟩ := newest_of_record h hmem
    exact hinstrument
  apply List.Nodup.sublist (List.filter_sublist.map _)
  rw [hkeys]
  exact h.nodup

theorem eligible_ext (h : RetainedFrom policy results first state) {a b : CandidateRecord}
    (ha : a ∈ eligibleRecords state) (hb : b ∈ eligibleRecords state)
    (hab : a.instrument = b.instrument) : a = b := by
  obtain ⟨result, _, hresult, _, _, rfl⟩ := (mem_eligible_iff h).mp ha
  obtain ⟨result', _, hresult', _, _, rfl⟩ := (mem_eligible_iff h).mp hb
  rw [hab, hresult'] at hresult
  cases hresult
  rfl

/-- The candidates are the ranked instruments with their metrics. -/
theorem mem_candidates_iff (h : RetainedFrom policy results first state)
    {ranked : List CandidateRecord} (hperm : ranked.Perm (eligibleRecords state))
    (instrument : Instrument) (value : ℚ) :
    (∃ c ∈ ranked.zipIdx.map (candidateOf strategyId state policy),
      c.instrument = instrument ∧ c.rankingMetricValue = value) ↔
      Ranked policy first results instrument value := by
  constructor
  · rintro ⟨c, hc, rfl, rfl⟩
    obtain ⟨⟨record, index⟩, hindexed, rfl⟩ := List.mem_map.mp hc
    have hmem := hperm.mem_iff.mp (List.fst_mem_of_mem_zipIdx hindexed)
    obtain ⟨value, hvalue, hranked⟩ := ranked_of_eligible h hmem
    unfold candidateOf
    rw [hvalue]
    exact hranked
  · intro hranked
    obtain ⟨record, hmem, rfl, hvalue⟩ := eligible_of_ranked h hranked
    have hin : record ∈ ranked.zipIdx.map (·.1) := by
      rw [List.zipIdx_map_fst]
      exact hperm.mem_iff.mpr hmem
    obtain ⟨indexed, hindexed, rfl⟩ := List.mem_map.mp hin
    refine ⟨_, List.mem_map.mpr ⟨indexed, hindexed, rfl⟩, rfl, ?_⟩
    rw [candidateOf, hvalue]
    rfl

variable (hin : ∀ dated ∈ results, dated.2.instrument ∈ instruments)
  (hkeys : Set.InjOn instrumentKey {instrument | instrument ∈ instruments})
include hin

theorem mem_instruments_of_eligible (h : RetainedFrom policy results first state)
    {record : CandidateRecord} (hmem : record ∈ eligibleRecords state) :
    record.instrument ∈ instruments := by
  obtain ⟨result, _, hresult, _⟩ := (mem_eligible_iff h).mp hmem
  obtain ⟨dated, hdated, _, hinstrument, _⟩ := mem_of_newest hresult
  rw [← hinstrument]
  exact hin dated hdated

/-- The instruments with a record are those with a comparable result. -/
theorem records_card (h : RetainedFrom policy results first state) :
    state.records.length = (instruments.toFinset.filter fun instrument =>
      (newest first results instrument).isSome).card := by
  have hkeys : (state.records.map (·.1)).toFinset =
      instruments.toFinset.filter fun instrument => (newest first results instrument).isSome := by
    ext instrument
    rw [List.mem_toFinset, Dict.mem_keys_iff, h.records, Option.isSome_map, Finset.mem_filter,
      List.mem_toFinset]
    constructor
    · intro hsome
      obtain ⟨result, hresult⟩ := Option.isSome_iff_exists.mp hsome
      obtain ⟨dated, hdated, _, hinstrument, _⟩ := mem_of_newest hresult
      exact ⟨hinstrument ▸ hin dated hdated, hsome⟩
    · exact fun hand => hand.2
  rw [← hkeys, List.toFinset_card_of_nodup h.nodup, List.length_map]

theorem complete_iff (h : RetainedFrom policy results first state) :
    state.records.length = instruments.toFinset.card ↔
      ∀ instrument ∈ instruments, (newest first results instrument).isSome := by
  rw [records_card hin h, Finset.card_filter_eq_iff]
  simp only [List.mem_toFinset]

theorem snapshotOf_describes (h : RetainedFrom policy results first state)
    {ranked : List CandidateRecord} (hrank : rank (eligibleRecords state) policy = .ok ranked) :
    Describes instruments policy first results
      (snapshotOf instruments.toFinset.card strategyId state policy ranked) where
  tradingDate := h.tradingDate
  versions := h.versions
  ranked := mem_candidates_iff h (sortedOn_spec hrank).1
  once := by
    rw [snapshotOf, candidates_instruments]
    exact ((sortedOn_spec hrank).1.map _).nodup_iff.mpr (eligible_nodup h)
  ranks := candidates_ranks ranked
  eligible := by rw [snapshotOf, List.length_map, List.length_zipIdx]
  expected := rfl
  evaluated := records_card hin h
  evaluated_le := by
    have hle := Finset.card_filter_le instruments.toFinset
      fun instrument => (newest first results instrument).isSome
    rw [← records_card hin h] at hle
    exact hle
  complete_iff := by
    rw [← complete_iff hin h, snapshotOf]
    split
    · rename_i heq
      exact iff_of_true rfl heq
    · rename_i hne
      exact iff_of_false (fun hpartial => nomatch hpartial) hne

include hkeys

/-- No two records of the state have one exchange and symbol. -/
theorem eligible_key_injective (h : RetainedFrom policy results first state) {a b : CandidateRecord}
    (ha : a ∈ eligibleRecords state) (hb : b ∈ eligibleRecords state)
    (hab : instrumentKey a.instrument = instrumentKey b.instrument) : a = b := by
  apply eligible_ext h ha hb
  exact hkeys (mem_instruments_of_eligible hin h ha) (mem_instruments_of_eligible hin h hb) hab

/-- The candidates stand in the order of the policy, where its metrics are representable. -/
theorem rank_precedes (h : RetainedFrom policy results first state) {ranked : List CandidateRecord}
    (hrank : rank (eligibleRecords state) policy = .ok ranked)
    (hexact : policy.ordering = .descending → ∀ instrument value,
      Ranked policy first results instrument value → DecimalContext.default.Represents value) :
    (ranked.zipIdx.map (candidateOf strategyId state policy)).Pairwise
      (Precedes policy.ordering) := by
  obtain ⟨hperm, hsorted⟩ := sortedOn_spec hrank
  have hdistinct : ranked.Pairwise fun a b => a.instrument ≠ b.instrument := by
    have hnodup := (hperm.map (·.instrument)).nodup_iff.mpr (eligible_nodup h)
    rwa [List.Nodup, List.pairwise_map] at hnodup
  have hranked : ranked.Pairwise fun a b => ∀ i j,
      Precedes policy.ordering (candidateOf strategyId state policy (a, i))
        (candidateOf strategyId state policy (b, j)) := by
    apply (hsorted.and hdistinct).imp_of_mem
    rintro a b ha hb ⟨⟨k, l, hk, hl, hkl⟩, hne⟩ i j
    have ha' := hperm.mem_iff.mp ha
    have hb' := hperm.mem_iff.mp hb
    obtain ⟨v, hv, hrankedv⟩ := ranked_of_eligible h ha'
    obtain ⟨w, hw, hrankedw⟩ := ranked_of_eligible h hb'
    rw [sortKey_of_represents hv fun hdesc => hexact hdesc _ v hrankedv] at hk
    rw [sortKey_of_represents hw fun hdesc => hexact hdesc _ w hrankedw] at hl
    cases hk
    cases hl
    have hkey : instrumentKey a.instrument ≠ instrumentKey b.instrument := fun heq =>
      hne (congrArg CandidateRecord.instrument (eligible_key_injective hin hkeys h ha' hb' heq))
    apply precedes_of_key_le _ hkey
    · rw [candidateOf, candidateOf, hv, hw]
      exact hkl
  -- the positions play no part in the order
  have hfst : (ranked.zipIdx.map (·.1)).Pairwise fun a b => ∀ i j,
      Precedes policy.ordering (candidateOf strategyId state policy (a, i))
        (candidateOf strategyId state policy (b, j)) := by
    rw [List.zipIdx_map_fst]
    exact hranked
  rw [List.pairwise_map] at hfst ⊢
  exact hfst.imp fun h => h _ _

/-- A sort of the records in another order raises or gives the same ranking. -/
theorem rank_of_perm (h : RetainedFrom policy results first state) {records : List CandidateRecord}
    (hperm : (eligibleRecords state).Perm records) :
    rank records policy = rank (eligibleRecords state) policy := by
  have hinj {xs : List CandidateRecord} (hxs : xs.Perm (eligibleRecords state)) :
      ∀ a ∈ xs, ∀ b ∈ xs, ∀ k, sortKey policy a = .ok k → sortKey policy b = .ok k → a = b := by
    intro a ha b hb k hka hkb
    exact eligible_key_injective hin hkeys h (hxs.mem_iff.mp ha) (hxs.mem_iff.mp hb)
      ((sortKey_eq_ok hka).symm.trans (sortKey_eq_ok hkb))
  have hoverflow {xs : List CandidateRecord} (hxs : xs.Perm (eligibleRecords state))
      {e : SnapshotError} (herror : rank xs policy = .error e) : e = .overflow := by
    obtain ⟨record, hrecord, hkey⟩ := sortedOn_error herror
    obtain ⟨value, hvalue, _⟩ := ranked_of_eligible h (hxs.mem_iff.mp hrecord)
    exact sortKey_eq_error hvalue hkey
  cases hrank : rank (eligibleRecords state) policy with
  | ok ranked => exact sortedOn_of_perm hperm (hinj (List.Perm.refl _)) hrank
  | error e =>
    cases hrank' : rank records policy with
    | ok ranked =>
      have := sortedOn_of_perm hperm.symm (hinj hperm.symm) hrank'
      rw [rank, this] at hrank
      cases hrank
    | error e' => rw [hoverflow (List.Perm.refl _) hrank, hoverflow hperm.symm hrank']

end Retained

/-! ## The order of delivery -/

section Order

variable {instruments : List Instrument} {strategyId : String} {policy : ScannerRankingPolicy}
  {results results' : List (Int × StrategyResult)} {first first' : Int × StrategyResult}
  {state state' : SnapshotState}

/-- The newest result of an instrument is the same in every order. -/
theorem newest_of_perm (hperm : results.Perm results') (hdate : first.1 = first'.1)
    (hversions : first.2.versions = first'.2.versions)
    (hone : ∀ a ∈ results, ∀ b ∈ results, a.2.instrument = b.2.instrument → a.1 = b.1 →
      a.2.contextVersion = b.2.contextVersion → a.2 = b.2) (instrument : Instrument) :
    newest first results instrument = newest first' results' instrument := by
  have hcomparable :
      (comparable first results instrument).Perm (comparable first' results' instrument) := by
    unfold comparable
    rw [hdate, hversions]
    exact hperm.filter _
  unfold newest
  rw [argmax_of_perm hcomparable]
  rintro ⟨d, a⟩ ha ⟨d', b⟩ hb hversion
  obtain ⟨hmema, hconda⟩ := List.mem_filter.mp ha
  obtain ⟨hmemb, hcondb⟩ := List.mem_filter.mp hb
  rw [decide_eq_true_eq] at hconda hcondb
  have hdates : d = d' := hconda.1.trans hcondb.1.symm
  have hinstruments := hconda.2.2.trans hcondb.2.2.symm
  exact Prod.ext hdates (hone _ hmema _ hmemb hinstruments hdates hversion)

/-- The greatest date is the same in every order. -/
theorem current_of_perm (hperm : results.Perm results') (hfirst : current results = some first) :
    ∃ first', current results' = some first' ∧ first'.1 = first.1 ∧ first' ∈ results := by
  have hmem : first ∈ results := List.argmax_mem hfirst
  cases hfirst' : current results' with
  | none =>
    have hnil : results' = [] := List.argmax_eq_none.mp hfirst'
    rw [hnil] at hperm
    rw [hperm.eq_nil] at hmem
    cases hmem
  | some first' =>
    have hmem' : first' ∈ results := hperm.mem_iff.mpr (List.argmax_mem hfirst')
    have hle : first'.1 ≤ first.1 := List.le_of_mem_argmax hmem' hfirst
    have hge : first.1 ≤ first'.1 := List.le_of_mem_argmax (hperm.mem_iff.mp hmem) hfirst'
    exact ⟨first', rfl, le_antisymm hle hge, hmem'⟩

theorem published_of_perm {events events' : List StrategyResultsPublished}
    (h : events.Perm events') : (published events).Perm (published events') :=
  h.flatMap_right _

theorem seen_of_perm {events events' : List StrategyResultsPublished} (h : events.Perm events') :
    (seen instruments.toFinset strategyId events).Perm
      (seen instruments.toFinset strategyId events') :=
  (published_of_perm h).filter _

theorem instrument_of_seen {events : List StrategyResultsPublished} :
    ∀ dated ∈ seen instruments.toFinset strategyId events, dated.2.instrument ∈ instruments := by
  intro dated hmem
  have hevaluates := (List.mem_filter.mp hmem).2
  unfold evaluates at hevaluates
  rw [decide_eq_true_eq] at hevaluates
  exact List.mem_toFinset.mp hevaluates.2.1

end Order

/-! ## The snapshot after a list of events -/

section Snapshot

variable {instruments : List Instrument} {policies : ScannerRankingPolicyRegistry}
  {strategyId : String} {policy : ScannerRankingPolicy}
  (hpolicy : policies.get strategyId = some policy)
include hpolicy

theorem snapshotAfter_none {events : List StrategyResultsPublished}
    (hseen : seen instruments.toFinset strategyId events = []) :
    snapshotAfter instruments policies strategyId events = .ok none := by
  have hretained := handleAll_retained instruments policies hpolicy events
  rw [hseen] at hretained
  cases hstate : ((init instruments policies).handleAll events).snapshots.get strategyId with
  | none =>
    unfold snapshotAfter snapshot
    rw [hstate]
    rfl
  | some state =>
    rw [hstate] at hretained
    cases hretained

theorem snapshotAfter_some {events : List StrategyResultsPublished} {first : Int × StrategyResult}
    (hfirst : current (seen instruments.toFinset strategyId events) = some first) :
    ∃ state, ((init instruments policies).handleAll events).snapshots.get strategyId = some state ∧
      RetainedFrom policy (seen instruments.toFinset strategyId events) first state ∧
      snapshotAfter instruments policies strategyId events =
        (rank (eligibleRecords state) policy).map fun ranked =>
          some (snapshotOf instruments.toFinset.card strategyId state policy ranked) := by
  have hretained := handleAll_retained instruments policies hpolicy events
  obtain ⟨hinstruments, hpolicies⟩ := foldl_ingest_keeps (init instruments policies)
    (published events)
  rw [← handleAll_eq_foldl] at hinstruments hpolicies
  unfold Retained at hretained
  rw [hfirst] at hretained
  cases hstate : ((init instruments policies).handleAll events).snapshots.get strategyId with
  | none =>
    rw [hstate] at hretained
    cases hretained
  | some state =>
    rw [hstate] at hretained
    obtain ⟨hstateRetained⟩ := hretained
    refine ⟨state, rfl, hstateRetained, ?_⟩
    have hexpected : ((init instruments policies).handleAll events).expectedCount =
        instruments.toFinset.card := congrArg Finset.card hinstruments
    have hget : ((init instruments policies).handleAll events).policies.get strategyId =
        some policy := by
      rw [hpolicies]
      exact hpolicy
    unfold snapshotAfter
    rw [snapshot_eq hstate hget, hexpected]

/-- **Events in another order give the same snapshot**, where the results seen carry one version
    pair and no two different ones are for one instrument, date and context version. -/
theorem snapshotAfter_of_perm (hkeys : Set.InjOn instrumentKey {i | i ∈ instruments})
    {events events' : List StrategyResultsPublished} (h : events.Perm events')
    (hversions : ∀ a ∈ seen instruments.toFinset strategyId events,
      ∀ b ∈ seen instruments.toFinset strategyId events, a.2.versions = b.2.versions)
    (hone : ∀ a ∈ seen instruments.toFinset strategyId events,
      ∀ b ∈ seen instruments.toFinset strategyId events, a.2.instrument = b.2.instrument →
        a.1 = b.1 → a.2.contextVersion = b.2.contextVersion → a.2 = b.2) :
    snapshotAfter instruments policies strategyId events' =
      snapshotAfter instruments policies strategyId events := by
  have hseen : (seen instruments.toFinset strategyId events).Perm
      (seen instruments.toFinset strategyId events') := seen_of_perm h
  cases hfirst : current (seen instruments.toFinset strategyId events) with
  | none =>
    have hnil : seen instruments.toFinset strategyId events = [] := List.argmax_eq_none.mp hfirst
    have hnil' : seen instruments.toFinset strategyId events' = [] := by
      rw [hnil] at hseen
      exact hseen.nil_eq.symm
    rw [snapshotAfter_none hpolicy hnil, snapshotAfter_none hpolicy hnil']
  | some first =>
    obtain ⟨first', hfirst', hdate, hmem'⟩ := current_of_perm hseen hfirst
    have hversion := hversions first' hmem' first (List.argmax_mem hfirst)
    obtain ⟨state, _, hretained, hsnapshot⟩ := snapshotAfter_some hpolicy hfirst
    obtain ⟨state', _, hretained', hsnapshot'⟩ := snapshotAfter_some hpolicy hfirst'
    have hrecords : state.records.Perm state'.records := by
      apply Dict.perm_of_get_eq hretained.nodup hretained'.nodup
      intro instrument
      rw [hretained.records, hretained'.records,
        newest_of_perm hseen hdate.symm hversion.symm hone instrument]
    have hranked :=
      rank_of_perm instrument_of_seen hkeys hretained (eligibleRecords_of_perm hrecords)
    have hsame := snapshotOf_congr instruments.toFinset.card strategyId policy
      (hretained'.tradingDate.trans (hdate.trans hretained.tradingDate.symm))
      (hretained'.versions.trans (hversion.trans hretained.versions.symm)) hrecords.length_eq.symm
    rw [hsnapshot', hsnapshot, hsame, hranked]

end Snapshot

/-! ## Main result -/

/-- **A snapshot says what was published.**  The scanner has, for the greatest trading date seen and
    the versions of the first result seen for it, the record of the newest result of each
    instrument; the snapshot describes them, is in the order of the policy where the metrics it ranks
    are decimals of the default context (for a descending policy), and does not depend on the order
    of the events. -/
theorem snapshot_of_publications (instruments : List Instrument)
    (hkeys : Set.InjOn instrumentKey {i | i ∈ instruments})
    (policies : ScannerRankingPolicyRegistry) (strategyId : String) (policy : ScannerRankingPolicy)
    (hpolicy : policies.get strategyId = some policy) (events : List StrategyResultsPublished) :
    (seen instruments.toFinset strategyId events = [] →
      snapshotAfter instruments policies strategyId events = .ok none) ∧
    (seen instruments.toFinset strategyId events ≠ [] →
      ∃ first state,
        (∀ dated ∈ seen instruments.toFinset strategyId events, dated.1 ≤ first.1) ∧
        (seen instruments.toFinset strategyId events).find? (fun dated => dated.1 = first.1) =
          some first ∧
        ((init instruments policies).handleAll events).snapshots.get strategyId = some state ∧
        (∀ instrument, state.records.get instrument =
          (newest first (seen instruments.toFinset strategyId events) instrument).map
            (recordOf policy)) ∧
        (∀ snap, snapshotAfter instruments policies strategyId events = .ok (some snap) →
          Describes instruments policy first (seen instruments.toFinset strategyId events) snap) ∧
        ((policy.ordering = .descending → ∀ instrument value,
            Ranked policy first (seen instruments.toFinset strategyId events) instrument value →
              DecimalContext.default.Represents value) →
          ∃ snap, snapshotAfter instruments policies strategyId events = .ok (some snap) ∧
            snap.candidates.Pairwise (Precedes policy.ordering))) ∧
    ∀ events', events.Perm events' →
      (∀ a ∈ seen instruments.toFinset strategyId events,
        ∀ b ∈ seen instruments.toFinset strategyId events, a.2.versions = b.2.versions) →
      (∀ a ∈ seen instruments.toFinset strategyId events,
        ∀ b ∈ seen instruments.toFinset strategyId events, a.2.instrument = b.2.instrument →
          a.1 = b.1 → a.2.contextVersion = b.2.contextVersion → a.2 = b.2) →
      snapshotAfter instruments policies strategyId events' =
        snapshotAfter instruments policies strategyId events := by
  refine ⟨snapshotAfter_none hpolicy, ?_, fun events' h hversions hone =>
    snapshotAfter_of_perm hpolicy hkeys h hversions hone⟩
  intro hseen
  cases hfirst : current (seen instruments.toFinset strategyId events) with
  | none => exact absurd (List.argmax_eq_none.mp hfirst) hseen
  | some first =>
    obtain ⟨state, hstate, hretained, hsnapshot⟩ := snapshotAfter_some hpolicy hfirst
    refine ⟨first, state, fun dated hmem => List.le_of_mem_argmax hmem hfirst,
      find?_of_argmax hfirst, hstate, hretained.records, ?_, ?_⟩
    · intro snap hsnap
      rw [hsnapshot] at hsnap
      obtain ⟨ranked, hranked, hsome⟩ := map_eq_ok.mp hsnap
      cases hsome
      exact snapshotOf_describes instrument_of_seen hretained hranked
    · intro hexact
      have hreturns : ∃ ranked, rank (eligibleRecords state) policy = .ok ranked := by
        apply sortedOn_returns
        intro record hrecord
        obtain ⟨value, hvalue, hranked⟩ := ranked_of_eligible hretained hrecord
        exact ⟨_, sortKey_of_represents hvalue fun hdesc => hexact hdesc _ value hranked⟩
      obtain ⟨ranked, hranked⟩ := hreturns
      refine ⟨_, hsnapshot.trans (congrArg _ hranked),
        rank_precedes instrument_of_seen hkeys hretained hranked hexact⟩

/-! ## Samples -/

theorem tcs_ne : "TCS" ≠ "" := by decide

def tcs : Instrument := { reliance with symbol := "TCS", symbol_ne := tcs_ne }

theorem momentum_ne : blank "momentum" = false := by decide

theorem strength_ne : blank "strength" = false := by decide

/-- A strategy whose greatest metric ranks first. -/
def momentum : ScannerRankingPolicy :=
  ⟨"momentum", "strength", .descending, momentum_ne, strength_ne⟩

def samplePolicies : ScannerRankingPolicyRegistry := [("momentum", momentum)]

example : ScannerRankingPolicyRegistry.register [] momentum = some samplePolicies := rfl

/-- One published result of the strategy. -/
def strength (instrument : Instrument) (contextVersion : ℕ) (status : EvaluationStatus) (value : ℚ) :
    StrategyResultsPublished where
  results := [⟨"momentum", "1.0.0", "1.0.0", instrument, contextVersion, status,
    [⟨"strength", .decimal value⟩]⟩]
  tradingDate := some 20000

def sampleEvents : List StrategyResultsPublished :=
  [strength reliance 1 .matched (1 : ℕ), strength tcs 1 .matched (2 : ℕ),
    strength reliance 2 .matched (3 : ℕ)]

theorem sampleEvents_metrics : ∀ dated ∈ seen [reliance, tcs].toFinset "momentum" sampleEvents,
    ∃ n : ℕ, n < 10 ^ DecimalContext.default.prec ∧
      metricValue dated.2 "strength" = some (n : ℚ) := by
  intro dated hmem
  have hmem' := (List.mem_filter.mp hmem).1
  simp only [published, sampleEvents, strength, List.flatMap_cons, List.flatMap_nil, List.map_cons,
    List.map_nil, List.append_nil, List.cons_append, List.nil_append, List.mem_cons,
    List.not_mem_nil, or_false] at hmem'
  rcases hmem' with rfl | rfl | rfl
  · exact ⟨1, by decide, rfl⟩
  · exact ⟨2, by decide, rfl⟩
  · exact ⟨3, by decide, rfl⟩

theorem snapshot_of_publications_sample :
    (∃ snap, snapshotAfter [reliance, tcs] samplePolicies "momentum" sampleEvents = .ok (some snap) ∧
      snap.candidates.Pairwise (Precedes .descending)) ∧
    snapshotAfter [reliance, tcs] samplePolicies "momentum" sampleEvents.reverse =
      snapshotAfter [reliance, tcs] samplePolicies "momentum" sampleEvents := by
  have hkeys : Set.InjOn instrumentKey {i | i ∈ [reliance, tcs]} := by
    intro a ha b hb hab
    simp only [Set.mem_ofPred_eq, List.mem_cons, List.not_mem_nil, or_false] at ha hb
    rcases ha with rfl | rfl <;> rcases hb with rfl | rfl
    · rfl
    · exact absurd hab (by decide)
    · exact absurd hab (by decide)
    · rfl
  obtain ⟨_, hsome, horder⟩ := snapshot_of_publications [reliance, tcs] hkeys samplePolicies
    "momentum" momentum rfl sampleEvents
  constructor
  · obtain ⟨first, state, _, _, _, _, _, hsorted⟩ := hsome (by decide)
    apply hsorted
    rintro _ instrument value ⟨result, hresult, _, hvalue⟩
    obtain ⟨dated, hdated, rfl, _⟩ := mem_of_newest hresult
    obtain ⟨n, hn, hmetric⟩ := sampleEvents_metrics dated hdated
    have hvalue' : some value = some (n : ℚ) := hvalue.symm.trans hmetric
    cases hvalue'
    exact DecimalContext.represents_natCast (by decide) (by decide) (by decide) hn
  · apply horder sampleEvents.reverse (List.reverse_perm _).symm
    · decide
    · decide

/-- The instruments and the metrics of the candidates, in order. -/
def ranking (snapshot : Except SnapshotError (Option ScannerSnapshot)) :
    Option (List (Instrument × ℚ)) :=
  match snapshot with
  | .ok (some snap) => some (snap.candidates.map fun c => (c.instrument, c.rankingMetricValue))
  | _ => none

/-- A skipped result of the greatest context version leaves the earlier match ranked; of two metrics
    that differ beyond 28 digits, the smaller one is first under a descending policy. -/
theorem published_results_not_ranked :
    ranking (snapshotAfter [reliance] samplePolicies "momentum"
      [strength reliance 1 .matched 1, strength reliance 2 .skipped 2]) = some [(reliance, 1)] ∧
    ranking (snapshotAfter [reliance, tcs] samplePolicies "momentum"
      [strength reliance 1 .matched 1, strength tcs 1 .matched (1 + 1 / 10 ^ 30)]) =
        some [(reliance, 1), (tcs, 1 + 1 / 10 ^ 30)] := by
  decide +kernel

end ApexScan.Scanner
