import ApexScan.Lib.Interleaving
import ApexScan.MarketHistory.Coverage
import ApexScan.MarketHistory.SharedFiles

/-!
# The historical service (`app/market_history/service.py`)

Every call of the service on one store, in any interleaving: a backfill gives way where it awaits the
source, every other call is one step.

* `HistoricalService.program` — the machine of all interleavings; `Fetched` is what the source answers.
* `size` — the number of bars in the files.
* `batch_spec` — what a batch of upserts does to the files, whatever their names collide on.
* `Found` — the dates that the file of an instrument has.
* `Supplies` — a source that answers with a bar for every missing date.

Main results: `backfills_only_add`, `supplied_backfills_complete`.

The identity that the service makes of an instrument is any admitted one.
-/

set_option autoImplicit false

namespace ApexScan.MarketHistory

open Lib FileHistoricalBarStore

namespace HistoricalService

/-! ## Calls and their results -/

/-- `HistoryMetrics`. -/
structure HistoryMetrics where
  fetchAttempts : ℕ := 0
  fetchSuccesses : ℕ := 0
  fetchFailures : ℕ := 0
  barsReceived : ℕ := 0
  barsInserted : ℕ := 0
  barsUnchanged : ℕ := 0
  barConflicts : ℕ := 0
  coverageChecks : ℕ := 0
  completeInstruments : ℕ := 0
  incompleteInstruments : ℕ := 0
  missingTradingDays : ℕ := 0
  lastFetchAt : Option Int := none
  lastSuccessAt : Option Int := none
  lastFailureAt : Option Int := none

inductive PreviousCloseComparison where
  | agree
  | disagree
  | unavailable
  deriving DecidableEq

structure InstrumentBackfillResult where
  instrumentIdentity : InstrumentIdentity
  missingBefore : List Int
  inserted : ℕ
  unchanged : ℕ
  conflicts : ℕ
  fetchOk : Bool
  completeAfter : Bool

/-- `BackfillReport.complete_count`. -/
def completeCount (results : List InstrumentBackfillResult) : ℕ := results.countP (·.completeAfter)

/-- What a call raises: `AdjustedDataUnavailableError`, the `ValueError` of a calendar without trading
    days, a refused series, or what the source raises besides `HistoricalSourceError`. -/
inductive ServiceError where
  | adjustedDataUnavailable
  | noTradingDay
  | refusedSeries (error : SeriesError)
  | source

/-- What `fetch_daily_bars` answers: bars, a `HistoricalSourceError`, or any other exception, a
    cancellation among them. -/
inductive Fetched where
  | bars (bars : List HistoricalDailyBar)
  | sourceError
  | raises

/-- The bars of an answer. -/
def Fetched.received : Fetched → List HistoricalDailyBar
  | .bars received => received
  | _ => []

inductive Request where
  | coverage (identity : InstrumentIdentity) (requirement : HistoryRequirement) (asOf : Int)
      (adjustment : PriceAdjustment)
  | previousTradingBar (identity : InstrumentIdentity) (asOf : Int) (adjustment : PriceAdjustment)
  | planMissing (identities : List InstrumentIdentity) (requirement : HistoryRequirement) (asOf : Int)
      (adjustment : PriceAdjustment)
  | backfill (identities : List InstrumentIdentity) (requirement : HistoryRequirement) (asOf : Int)
      (adjustment : PriceAdjustment)
  | comparePreviousClose (identity : InstrumentIdentity) (asOf : Int)
      (referencePreviousClose : Option ℚ)

inductive Finished where
  | covered (coverage : HistoricalCoverage)
  | previousBar (bar : Option HistoricalDailyBar)
  | planned (plan : Dict InstrumentIdentity (List Int))
  | report (required : List Int) (adjustment : PriceAdjustment)
      (results : List InstrumentBackfillResult)
  | compared (comparison : PreviousCloseComparison)
  | raised (error : ServiceError)

/-- A backfill that awaits the source for the missing dates of an instrument. -/
structure Fetching where
  required : List Int
  adjustment : PriceAdjustment
  identity : InstrumentIdentity
  missing : List Int
  pending : List InstrumentIdentity
  results : List InstrumentBackfillResult

inductive Task where
  | called (request : Request)
  | fetching (fetch : Fetching)

/-- What the world contributes to a step: the answer of the source, and the two readings of the clock,
    at its end and at the next fetch. -/
structure Occasion where
  answer : Fetched
  settledAt : Int
  fetchedAt : Int

structure State where
  files : Files
  metrics : HistoryMetrics := {}

end HistoricalService

open HistoricalService

/-- `HistoricalService`, over the file store. -/
structure HistoricalService where
  isalnum : Char → Bool
  calendar : TradingCalendar
  corporateActionAuthority : Bool := false

namespace HistoricalService

variable (service : HistoricalService)

/-- `_guard_adjustment`. -/
def guardAdjustment (adjustment : PriceAdjustment) : Except ServiceError Unit :=
  if adjustment = .adjusted ∧ service.corporateActionAuthority = false then
    .error .adjustedDataUnavailable
  else .ok ()

/-- `compute_coverage` of what the store has. -/
def coverageOf (files : Files) (required : List Int) (identity : InstrumentIdentity)
    (adjustment : PriceAdjustment) : HistoricalCoverage :=
  computeCoverage identity.text required (availableDates service.isalnum files identity adjustment)

/-- `coverage`, with the counters it keeps. -/
def coverage (s : State) (identity : InstrumentIdentity) (requirement : HistoryRequirement)
    (asOf : Int) (adjustment : PriceAdjustment) : State × Finished :=
  match service.guardAdjustment adjustment with
  | .error error => (s, .raised error)
  | .ok _ =>
    let coverage := service.coverageOf s.files
      (requiredTradingDates service.calendar asOf requirement.tradingDays) identity adjustment
    let checked := { s.metrics with
      coverageChecks := s.metrics.coverageChecks + 1
      missingTradingDays := s.metrics.missingTradingDays + coverage.missingDates.length }
    ({ s with
        metrics :=
          if coverage.isComplete then
            { checked with completeInstruments := checked.completeInstruments + 1 }
          else { checked with incompleteInstruments := checked.incompleteInstruments + 1 } },
      .covered coverage)

/-- `previous_trading_bar`. -/
def previousTradingBar (files : Files) (identity : InstrumentIdentity) (asOf : Int)
    (adjustment : PriceAdjustment) : Except ServiceError (Option HistoricalDailyBar) := do
  service.guardAdjustment adjustment
  match previousTradingDate service.calendar asOf with
  | none => .error .noTradingDay
  | some previous =>
    match readRange service.isalnum files identity previous previous adjustment with
    | .error error => .error (.refusedSeries error)
    | .ok series => .ok series.bars.getLast?

/-- `plan_missing`. -/
def planMissing (files : Files) (identities : List InstrumentIdentity)
    (requirement : HistoryRequirement) (asOf : Int) (adjustment : PriceAdjustment) :
    Except ServiceError (Dict InstrumentIdentity (List Int)) := do
  service.guardAdjustment adjustment
  let required := requiredTradingDates service.calendar asOf requirement.tradingDays
  return identities.foldl (fun plan identity =>
    plan.set identity (service.coverageOf files required identity adjustment).missingDates) []

/-- `compare_previous_close`. -/
def comparePreviousClose (files : Files) (identity : InstrumentIdentity) (asOf : Int) :
    Option ℚ → Except ServiceError PreviousCloseComparison
  | none => .ok .unavailable
  | some reference => do
    match ← service.previousTradingBar files identity asOf .raw with
    | none => return .unavailable
    | some bar => return if bar.close = reference then .agree else .disagree

/-- The loop of `backfill` over the instruments, up to the next `await` of the source. -/
def proceed (fetchedAt : Int) (required : List Int) (adjustment : PriceAdjustment) :
    List InstrumentIdentity → List InstrumentBackfillResult → State → State × Progress Task Finished
  | [], results, s => (s, .finished (.report required adjustment results))
  | identity :: pending, results, s =>
    let coverage := service.coverageOf s.files required identity adjustment
    if coverage.missingDates = [] then
      proceed fetchedAt required adjustment pending
        (results ++ [⟨identity, [], 0, 0, 0, true, coverage.isComplete⟩]) s
    else
      ({ s with metrics := { s.metrics with
          fetchAttempts := s.metrics.fetchAttempts + 1, lastFetchAt := some fetchedAt } },
        .running (.fetching
          ⟨required, adjustment, identity, coverage.missingDates, pending, results⟩))

/-- The bars of an answer that `_fetch_and_store` hands to the store. -/
def wanted (fetch : Fetching) (bars : List HistoricalDailyBar) : List HistoricalDailyBar :=
  bars.filter fun bar => bar.tradingDate ∈ fetch.missing ∧ bar.adjustment = fetch.adjustment

/-- `_fetch_and_store` once the source has answered, `_backfill_instrument` after it, and on. -/
def fetched (occasion : Occasion) (fetch : Fetching) (s : State) : State × Progress Task Finished :=
  match occasion.answer with
  | .raises => (s, .finished (.raised .source))
  | .sourceError =>
    let complete := (service.coverageOf s.files fetch.required fetch.identity
      fetch.adjustment).isComplete
    service.proceed occasion.fetchedAt fetch.required fetch.adjustment fetch.pending
      (fetch.results ++ [⟨fetch.identity, fetch.missing, 0, 0, 0, false, complete⟩])
      { s with metrics := { s.metrics with
          fetchFailures := s.metrics.fetchFailures + 1
          lastFailureAt := some occasion.settledAt } }
  | .bars bars =>
    let (files, counts) := upsertMany service.isalnum s.files (wanted fetch bars)
    let complete := (service.coverageOf files fetch.required fetch.identity
      fetch.adjustment).isComplete
    service.proceed occasion.fetchedAt fetch.required fetch.adjustment fetch.pending
      (fetch.results ++ [⟨fetch.identity, fetch.missing, counts.inserted, counts.unchanged,
        counts.conflict, true, complete⟩])
      { files, metrics := { s.metrics with
          fetchSuccesses := s.metrics.fetchSuccesses + 1
          lastSuccessAt := some occasion.settledAt
          barsReceived := s.metrics.barsReceived + bars.length
          barsInserted := s.metrics.barsInserted + counts.inserted
          barsUnchanged := s.metrics.barsUnchanged + counts.unchanged
          barConflicts := s.metrics.barConflicts + counts.conflict } }

/-- The end of a call that only reads. -/
def answered {α : Type} (result : Except ServiceError α) (finish : α → Finished) : Finished :=
  match result with
  | .error error => .raised error
  | .ok a => finish a

/-- One step of a call. -/
def advance (occasion : Occasion) (t : Task) (s : State) : State × Progress Task Finished :=
  match t with
  | .called (.coverage identity requirement asOf adjustment) =>
    let (s', result) := service.coverage s identity requirement asOf adjustment
    (s', .finished result)
  | .called (.previousTradingBar identity asOf adjustment) =>
    (s, .finished (answered (service.previousTradingBar s.files identity asOf adjustment)
      .previousBar))
  | .called (.planMissing identities requirement asOf adjustment) =>
    (s, .finished (answered (service.planMissing s.files identities requirement asOf adjustment)
      .planned))
  | .called (.comparePreviousClose identity asOf reference) =>
    (s, .finished (answered (service.comparePreviousClose s.files identity asOf reference) .compared))
  | .called (.backfill identities requirement asOf adjustment) =>
    match service.guardAdjustment adjustment with
    | .error error => (s, .finished (.raised error))
    | .ok _ =>
      service.proceed occasion.fetchedAt
        (requiredTradingDates service.calendar asOf requirement.tradingDays) adjustment identities [] s
  | .fetching fetch => service.fetched occasion fetch s

/-- Every interleaving of calls of the service. -/
def program : Program State Task Finished Request Occasion where
  start request _ := .running (.called request)
  advance := service.advance

/-- A service before its first call, on the files that an earlier process has left. -/
def opened (files : Files) : Pool State Task := ⟨{ files }, []⟩

end HistoricalService

/-! ## What a batch does to the files -/

/-- The number of bars in the files. -/
def size (files : Files) : ℕ := (files.map fun file => file.2.length).sum

/-- The number of bars in the file of that name. -/
def sizeOf (files : Files) (name : String) : ℕ := ((files.get name).getD []).length

theorem size_set (files : Files) (name : String) (bars : List HistoricalDailyBar) :
    size (files.set name bars) + sizeOf files name = size files + bars.length := by
  unfold size sizeOf
  induction files with
  | nil => simp [Dict.set]
  | cons file files ih =>
    rw [Dict.get_cons]
    by_cases hname : file.1 = name
    · simp only [Dict.set, hname, if_true, List.map_cons, List.sum_cons, Option.getD_some]
      omega
    · simp only [Dict.set, hname, if_false, List.map_cons, List.sum_cons]
      omega

theorem length_ordered {d : Dict Int HistoricalDailyBar} : (ordered d).length = d.length := by
  unfold ordered
  have hlength : (sortBy id (d.map (·.1))).length = d.length := by
    rw [sortBy_perm.length_eq, List.length_map]
  rw [← hlength, List.filterMap_length_eq_length]
  intro date hdate
  rw [mem_sortBy, Dict.mem_keys_iff] at hdate
  exact hdate

section Batch

variable {isalnum : Char → Bool} {files : Files}

/-- An upsert counts the bar that it adds. -/
theorem size_upsert (hfiles : FilesAscending files) (bar : HistoricalDailyBar) :
    size (upsert isalnum files bar).1 =
      size files + if (upsert isalnum files bar).2 = .inserted then 1 else 0 := by
  have hload := ascending_load isalnum hfiles bar.instrumentIdentity bar.adjustment
  have hlength : (byDate (load isalnum files bar.instrumentIdentity bar.adjustment)).length =
      sizeOf files (path isalnum bar.instrumentIdentity bar.adjustment) := by
    rw [← length_ordered, ordered_byDate hload]
    unfold load sizeOf
    cases files.get (path isalnum bar.instrumentIdentity bar.adjustment) with
    | none => rfl
    | some bars => exact sortBy_perm.length_eq
  cases hprior : (byDate (load isalnum files bar.instrumentIdentity bar.adjustment)).get
      bar.tradingDate with
  | some prior =>
    have heq : upsert isalnum files bar = (files, storedOutcome prior bar) := by
      simp only [upsert, hprior]
    have hout : storedOutcome prior bar ≠ .inserted := by
      unfold storedOutcome
      split <;> decide
    rw [heq, if_neg hout, Nat.add_zero]
  | none =>
    have heq : upsert isalnum files bar = (write isalnum files bar.instrumentIdentity bar.adjustment
        ((byDate (load isalnum files bar.instrumentIdentity bar.adjustment)).set bar.tradingDate bar),
        .inserted) := by
      simp only [upsert, hprior]
    have hset := size_set files (path isalnum bar.instrumentIdentity bar.adjustment)
      (ordered ((byDate (load isalnum files bar.instrumentIdentity bar.adjustment)).set
        bar.tradingDate bar))
    rw [length_ordered, Dict.set_of_get_eq_none hprior, List.length_append, hlength,
      List.length_singleton, ← Dict.set_of_get_eq_none hprior bar] at hset
    rw [heq, if_pos rfl]
    dsimp only [write]
    omega

/-- What a sequence of upserts does: no bar is lost, none comes from elsewhere, every date asked for is
    taken in its file, and the counts are the growth. -/
structure Grown (isalnum : Char → Bool) (files files' : Files) (bars : List HistoricalDailyBar)
    (inserted : ℕ) : Prop where
  ascending : FilesAscending files'
  kept : ∀ name b, Stored files name b → Stored files' name b
  origin : ∀ name b, Stored files' name b → Stored files name b ∨ b ∈ bars ∧ name = pathOf isalnum b
  taken : ∀ bar ∈ bars, ∃ b, Stored files' (pathOf isalnum bar) b ∧ b.tradingDate = bar.tradingDate
  size_eq : size files' = size files + inserted

theorem run_grown (isalnum : Char → Bool) (hfiles : FilesAscending files) (bars : List HistoricalDailyBar) :
    Grown isalnum files (run (upsert isalnum) files bars) bars
      ((outs (upsert isalnum) files bars).count .inserted) := by
  induction bars generalizing files with
  | nil =>
    exact ⟨hfiles, fun _ _ h => h, fun _ _ h => .inl h, fun _ h => (by cases h), rfl⟩
  | cons bar bars ih =>
    have hnext := ih (@filesAscending_upsert isalnum files hfiles bar)
    have hkept : ∀ name b, Stored files name b → Stored (upsert isalnum files bar).1 name b := by
      intro name b hb
      rcases upsert_spec isalnum hfiles bar with ⟨prior, -, -, heq⟩ | ⟨-, -, -, hstored⟩
      · rw [heq]
        exact hb
      · exact (hstored name b).mpr (.inl hb)
    have htaken : ∃ b, Stored (upsert isalnum files bar).1 (pathOf isalnum bar) b ∧
        b.tradingDate = bar.tradingDate := by
      rcases upsert_spec isalnum hfiles bar with ⟨prior, hprior, hdate, heq⟩ | ⟨-, -, -, hstored⟩
      · rw [heq]
        exact ⟨prior, hprior, hdate⟩
      · exact ⟨bar, (hstored _ bar).mpr (.inr ⟨rfl, rfl⟩), rfl⟩
    refine ⟨hnext.ascending, fun name b hb => hnext.kept name b (hkept name b hb), ?_, ?_, ?_⟩
    · intro name b hb
      rcases hnext.origin name b hb with hb | ⟨hmem, hname⟩
      · rcases upsert_spec isalnum hfiles bar with ⟨prior, -, -, heq⟩ | ⟨-, -, -, hstored⟩
        · rw [heq] at hb
          exact .inl hb
        · rcases (hstored name b).mp hb with hb | ⟨hname, rfl⟩
          · exact .inl hb
          · exact .inr ⟨List.mem_cons_self, hname⟩
      · exact .inr ⟨List.mem_cons_of_mem _ hmem, hname⟩
    · intro bar' hbar'
      rcases List.mem_cons.mp hbar' with rfl | hbar'
      · obtain ⟨b, hb, hdate⟩ := htaken
        exact ⟨b, hnext.kept _ b hb, hdate⟩
      · exact hnext.taken bar' hbar'
    · rw [run_cons, hnext.size_eq, size_upsert hfiles, outs_cons, List.count_cons]
      simp only [beq_iff_eq]
      omega

/-- **A batch** grows the files by what it counts as inserted, and counts every bar once. -/
theorem batch_spec (isalnum : Char → Bool) (hfiles : FilesAscending files) (bars : List HistoricalDailyBar) :
    Grown isalnum files (upsertMany isalnum files bars).1 bars
        (upsertMany isalnum files bars).2.inserted ∧
      (upsertMany isalnum files bars).2.inserted + (upsertMany isalnum files bars).2.unchanged +
        (upsertMany isalnum files bars).2.conflict = bars.length := by
  have hperm : ((groupedBy groupKey bars).flatMap (·.2)).Perm bars := flatMap_groupedBy_perm bars
  have hfold : upsertMany isalnum files bars =
      (run (upsert isalnum) files ((groupedBy groupKey bars).flatMap (·.2)),
        (outs (upsert isalnum) files ((groupedBy groupKey bars).flatMap (·.2))).foldl Counts.add {}) := by
    rw [upsertMany_eq hfiles]
    exact foldl_counted (upsert isalnum) _ (files, {})
  obtain ⟨hascending, hkept, horigin, htaken, hsize⟩ :=
    run_grown isalnum hfiles ((groupedBy groupKey bars).flatMap (·.2))
  have htotal (outcomes : List UpsertOutcome) (counts : Counts) :
      (outcomes.foldl Counts.add counts).inserted + (outcomes.foldl Counts.add counts).unchanged +
        (outcomes.foldl Counts.add counts).conflict =
        counts.inserted + counts.unchanged + counts.conflict + outcomes.length := by
    induction outcomes generalizing counts with
    | nil => rfl
    | cons o outcomes ih =>
      rw [List.foldl_cons, ih, List.length_cons]
      cases o <;> simp only [Counts.add] <;> omega
  rw [hfold]
  refine ⟨⟨hascending, hkept, ?_, ?_, ?_⟩, ?_⟩
  · intro name b hb
    exact (horigin name b hb).imp_right fun h => ⟨hperm.mem_iff.mp h.1, h.2⟩
  · intro bar hbar
    exact htaken bar (hperm.mem_iff.mpr hbar)
  · rw [inserted_foldl_add]
    simpa using hsize
  · rw [htotal, outs_length, hperm.length_eq]
    simp

end Batch

namespace HistoricalService

variable {service : HistoricalService}

/-! ## What the files have -/

/-- The file of an instrument has a bar of the date. -/
def Found (service : HistoricalService) (files : Files) (adjustment : PriceAdjustment)
    (identity : InstrumentIdentity) (date : Int) : Prop :=
  ∃ bar, Stored files (path service.isalnum identity adjustment) bar ∧ bar.tradingDate = date

/-- No bar is lost. -/
def Grows (files files' : Files) : Prop := ∀ name bar, Stored files name bar → Stored files' name bar

theorem Found.grows {files files' : Files} (h : Grows files files') {adjustment : PriceAdjustment}
    {identity : InstrumentIdentity} {date : Int} (hfound : Found service files adjustment identity date) :
    Found service files' adjustment identity date := by
  obtain ⟨bar, hstored, hdate⟩ := hfound
  exact ⟨bar, h _ bar hstored, hdate⟩

section Coverage

variable {files : Files} {required : List Int} {identity : InstrumentIdentity}
  {adjustment : PriceAdjustment}

theorem mem_availableDates {date : Int} :
    date ∈ availableDates service.isalnum files identity adjustment ↔
      Found service files adjustment identity date := by
  unfold availableDates Found
  rw [List.mem_map]
  exact exists_congr fun bar => and_congr_left fun _ => mem_load

theorem coverageOf_isComplete :
    (service.coverageOf files required identity adjustment).isComplete = true ↔
      ∀ d ∈ required, Found service files adjustment identity d := by
  unfold coverageOf
  rw [isComplete_iff]
  exact forall₂_congr fun d _ => mem_availableDates

theorem mem_missingDates {d : Int} :
    d ∈ (service.coverageOf files required identity adjustment).missingDates ↔
      d ∈ required ∧ ¬ Found service files adjustment identity d := by
  unfold coverageOf HistoricalCoverage.missingDates computeCoverage
  rw [List.mem_filter]
  simp [mem_availableDates]

end Coverage

/-! ## What a step of a backfill does -/

/-- The results of a backfill are right about the files: one that is complete has every date. -/
def Right (service : HistoricalService) (files : Files) (required : List Int)
    (adjustment : PriceAdjustment) (results : List InstrumentBackfillResult) : Prop :=
  ∀ r ∈ results, r.completeAfter = true →
    ∀ d ∈ required, Found service files adjustment r.instrumentIdentity d

/-- Every instrument was fetched, if it had to be, and is complete. -/
def AllComplete (results : List InstrumentBackfillResult) : Prop :=
  ∀ r ∈ results, r.fetchOk = true ∧ r.completeAfter = true

/-- The counters of the bars are the same. -/
def SameBars (m m' : HistoryMetrics) : Prop :=
  m'.barsReceived = m.barsReceived ∧ m'.barsInserted = m.barsInserted ∧
    m'.barsUnchanged = m.barsUnchanged ∧ m'.barConflicts = m.barConflicts

/-- Where the loop over the instruments has come to. -/
structure Reached (service : HistoricalService) (required : List Int) (adjustment : PriceAdjustment)
    (results : List InstrumentBackfillResult) (s s' : State) (progress : Progress Task Finished) :
    Prop where
  files : s'.files = s.files
  bars : SameBars s.metrics s'.metrics
  ended : ∀ r, progress = .finished r → ∃ new, r = .report required adjustment (results ++ new) ∧
    AllComplete new ∧ Right service s.files required adjustment new
  awaits : ∀ t, progress = .running t → ∃ f new, t = .fetching f ∧ f.required = required ∧
    f.adjustment = adjustment ∧ f.results = results ++ new ∧ AllComplete new ∧
    Right service s.files required adjustment new ∧
    ∀ d ∈ required, d ∈ f.missing ∨ Found service s.files adjustment f.identity d

theorem proceed_reached (service : HistoricalService) (fetchedAt : Int) (required : List Int)
    (adjustment : PriceAdjustment) (pending : List InstrumentIdentity)
    (results : List InstrumentBackfillResult) (s : State) :
    Reached service required adjustment results s
      (service.proceed fetchedAt required adjustment pending results s).1
      (service.proceed fetchedAt required adjustment pending results s).2 := by
  induction pending generalizing results with
  | nil =>
    refine ⟨rfl, ⟨rfl, rfl, rfl, rfl⟩, ?_, fun t ht => by cases ht⟩
    intro r hr
    cases hr
    exact ⟨[], by rw [List.append_nil], fun r hr => (by cases hr), fun r hr => by cases hr⟩
  | cons identity pending ih =>
    simp only [proceed]
    split
    · rename_i hmissing
      have hcomplete : (service.coverageOf s.files required identity adjustment).isComplete =
          true := by
        rw [HistoricalCoverage.isComplete, hmissing]
        rfl
      have hfound := coverageOf_isComplete.mp hcomplete
      have hstep (new : List InstrumentBackfillResult) (hall : AllComplete new)
          (hright : Right service s.files required adjustment new) :
          AllComplete (⟨identity, [], 0, 0, 0, true,
            (service.coverageOf s.files required identity adjustment).isComplete⟩ :: new) ∧
          Right service s.files required adjustment (⟨identity, [], 0, 0, 0, true,
            (service.coverageOf s.files required identity adjustment).isComplete⟩ :: new) := by
        refine ⟨?_, ?_⟩
        · intro r hr
          rcases List.mem_cons.mp hr with rfl | hr
          · exact ⟨rfl, hcomplete⟩
          · exact hall r hr
        · intro r hr
          rcases List.mem_cons.mp hr with rfl | hr
          · exact fun _ => hfound
          · exact hright r hr
      obtain ⟨hfiles, hbars, hended, hawaits⟩ := ih (results ++ [⟨identity, [], 0, 0, 0, true,
        (service.coverageOf s.files required identity adjustment).isComplete⟩])
      refine ⟨hfiles, hbars, ?_, ?_⟩
      · intro r hr
        obtain ⟨new, rfl, hall, hright⟩ := hended r hr
        exact ⟨_ :: new, by rw [List.append_assoc]; rfl, hstep new hall hright⟩
      · intro t ht
        obtain ⟨f, new, rfl, hrequired, hadjustment, hresults, hall, hright, hmissing'⟩ := hawaits t ht
        obtain ⟨hall', hright'⟩ := hstep new hall hright
        exact ⟨f, _ :: new, rfl, hrequired, hadjustment, by rw [hresults, List.append_assoc]; rfl,
          hall', hright', hmissing'⟩
    · refine ⟨rfl, ⟨rfl, rfl, rfl, rfl⟩, fun r hr => (by cases hr), ?_⟩
      intro t ht
      cases ht
      refine ⟨_, [], rfl, rfl, rfl, by rw [List.append_nil], fun r hr => (by cases hr),
        fun r hr => (by cases hr), ?_⟩
      intro d hd
      by_cases hfound : Found service s.files adjustment identity d
      · exact .inr hfound
      · exact .inl (mem_missingDates.mpr ⟨hd, hfound⟩)

/-- The source answers with a bar of the instrument for every missing date. -/
def Supplies (fetch : Fetching) (answer : Fetched) : Prop :=
  ∃ bars, answer = .bars bars ∧ ∀ d ∈ fetch.missing, ∃ bar ∈ bars,
    bar.instrumentIdentity = fetch.identity ∧ bar.adjustment = fetch.adjustment ∧ bar.tradingDate = d

/-! ## Any interleaving -/

/-- What is asserted of the files, from those that the service was opened on: `P` is known of the bars
    of every answer, and where the source supplies all that is missing, the results are complete. -/
def adding (service : HistoricalService) (initial : Files) (P : HistoricalDailyBar → Prop)
    (supplied : Prop) : Assertions Files State Task Finished where
  grows := Grows
  shared files s := s.files = files ∧ FilesAscending files ∧ Grows initial files ∧
    (∀ name bar, Stored files name bar →
      Stored initial name bar ∨ P bar ∧ name = pathOf service.isalnum bar) ∧
    size files = size initial + s.metrics.barsInserted ∧
    s.metrics.barsInserted + s.metrics.barsUnchanged + s.metrics.barConflicts ≤ s.metrics.barsReceived
  task files _ t :=
    match t with
    | .called _ => True
    | .fetching f => Right service files f.required f.adjustment f.results ∧
      (supplied → AllComplete f.results) ∧
      ∀ d ∈ f.required, d ∈ f.missing ∨ Found service files f.adjustment f.identity d
  apart _ _ := True
  result files r :=
    match r with
    | .report required adjustment results =>
      Right service files required adjustment results ∧ (supplied → AllComplete results)
    | _ => True
  symm := fun _ _ _ => trivial
  refl := fun _ _ _ h => h
  trans := fun _ _ _ h h' name bar hbar => h' name bar (h name bar hbar)
  result_grows := by
    intro files files' r hgrows h
    cases r with
    | report required adjustment results =>
      exact ⟨fun r hr hcomplete d hd => (h.1 r hr hcomplete d hd).grows hgrows, h.2⟩
    | _ => trivial

/-- A turn whose answer has bars of `P` only, and supplies what is missing. -/
def Answers (P : HistoricalDailyBar → Prop) (supplied : Prop) (pool : Pool State Task) :
    Turn Request Occasion → Prop
  | .start _ _ => True
  | .advance process occasion => (∀ bar ∈ occasion.answer.received, P bar) ∧
    (supplied → ∀ f, pool.tasks.get process = some (.fetching f) → Supplies f occasion.answer)

section Interleaving

variable {initial files : Files} {P : HistoricalDailyBar → Prop} {supplied : Prop}
  {pool : Pool State Task} {process : ℕ}

/-- What the other calls know survives the growth of the files. -/
theorem task_grows {files' : Files} {s s' : State} (hgrows : Grows files files') {t : Task}
    (h : (adding service initial P supplied).task files s t) :
    (adding service initial P supplied).task files' s' t := by
  cases t with
  | called request => trivial
  | fetching f =>
    obtain ⟨hright, hall, hmissing⟩ := h
    exact ⟨fun r hr hcomplete d hd => (hright r hr hcomplete d hd).grows hgrows, hall,
      fun d hd => (hmissing d hd).imp_right (Found.grows hgrows)⟩

/-- The loop goes on from results that are right about the files. -/
theorem kept_reached {s s' : State} {progress : Progress Task Finished} {required : List Int}
    {adjustment : PriceAdjustment} {results : List InstrumentBackfillResult} {files' : Files}
    (h : (adding service initial P supplied).Hold files pool) (hgrows : Grows files files')
    (hshared : (adding service initial P supplied).shared files' s)
    (hright : Right service files' required adjustment results)
    (hall : supplied → AllComplete results)
    (hreached : Reached service required adjustment results s s' progress) :
    (adding service initial P supplied).Kept pool files' process s' progress := by
  obtain ⟨hfiles, hascending, hinitial, horigin, hsize, hreceived⟩ := hshared
  obtain ⟨hsame, ⟨hrec, hins, hunc, hconf⟩, hended, hawaits⟩ := hreached
  have happend {new : List InstrumentBackfillResult} (hnew : AllComplete new)
      (hrightnew : Right service s.files required adjustment new) :
      Right service files' required adjustment (results ++ new) ∧
        (supplied → AllComplete (results ++ new)) := by
    rw [hfiles] at hrightnew
    refine ⟨fun r hr => ?_, fun hsupplied r hr => ?_⟩
    · rcases List.mem_append.mp hr with hr | hr
      · exact hright r hr
      · exact hrightnew r hr
    · rcases List.mem_append.mp hr with hr | hr
      · exact hall hsupplied r hr
      · exact hnew r hr
  refine ⟨⟨hsame.trans hfiles, hascending, hinitial, horigin, by rw [hins]; exact hsize,
    by rw [hins, hunc, hconf, hrec]; exact hreceived⟩, ?_, ?_, ?_⟩
  · intro q u _ hu
    exact task_grows hgrows (h.task q u hu)
  · intro t ht
    obtain ⟨f, new, rfl, rfl, rfl, hresults, hnew, hrightnew, hmissing⟩ := hawaits t ht
    obtain ⟨hright', hall'⟩ := happend hnew hrightnew
    rw [hfiles] at hmissing
    refine ⟨⟨?_, ?_, hmissing⟩, fun _ _ _ _ => trivial⟩
    · rw [hresults]
      exact hright'
    · rw [hresults]
      exact hall'
  · intro r hr
    obtain ⟨new, rfl, hnew, hrightnew⟩ := hended r hr
    exact happend hnew hrightnew

/-- A step that leaves the files and the counters of the bars alone, and ends a call with anything but
    a report. -/
theorem kept_read (h : (adding service initial P supplied).Hold files pool) {s' : State}
    (hfiles : s'.files = pool.shared.files) (hbars : SameBars pool.shared.metrics s'.metrics)
    {r : Finished} (hresult : ∀ files, (adding service initial P supplied).result files r) :
    (adding service initial P supplied).Kept pool files process s' (.finished r : Progress Task _) := by
  obtain ⟨hshared, hascending, hinitial, horigin, hsize, hreceived⟩ := h.memory
  obtain ⟨hrec, hins, hunc, hconf⟩ := hbars
  refine ⟨⟨hfiles.trans hshared, hascending, hinitial, horigin, by rw [hins]; exact hsize,
    by rw [hins, hunc, hconf, hrec]; exact hreceived⟩, ?_, fun t ht => (by cases ht), ?_⟩
  · exact fun q u _ hu => h.task q u hu
  · intro f hf
    cases hf
    exact hresult files

theorem answered_result {α : Type} (result : Except ServiceError α) (finish : α → Finished)
    (hfinish : ∀ a files, (adding service initial P supplied).result files (finish a))
    (files : Files) :
    (adding service initial P supplied).result files (answered result finish) := by
  cases result with
  | error error => trivial
  | ok a => exact hfinish a files

/-- A fetch that is answered: the files grow by the bars of the answer, and the new result is right
    about them. -/
theorem kept_fetched (h : (adding service initial P supplied).Hold files pool) {f : Fetching}
    (hf : pool.tasks.get process = some (.fetching f)) {occasion : Occasion}
    (hanswers : Answers P supplied pool (.advance process occasion)) :
    ∃ files', Grows files files' ∧ (adding service initial P supplied).Kept pool files' process
      (service.fetched occasion f pool.shared).1 (service.fetched occasion f pool.shared).2 := by
  obtain ⟨hP, hsupplies⟩ := hanswers
  obtain ⟨hright, hall, hmissing⟩ := h.task process _ hf
  have hmemory := h.memory
  obtain ⟨hshared, hascending, hinitial, horigin, hsize, hreceived⟩ := hmemory
  subst hshared
  unfold fetched
  cases hanswer : occasion.answer with
  | raises =>
    exact ⟨_, fun _ _ h => h, kept_read h rfl ⟨rfl, rfl, rfl, rfl⟩ fun _ => trivial⟩
  | sourceError =>
    refine ⟨_, fun _ _ h => h, kept_reached h (fun _ _ h => h) ?_ ?_ ?_
      (proceed_reached service _ _ _ _ _ _)⟩
    · exact ⟨rfl, hascending, hinitial, horigin, hsize, hreceived⟩
    · intro r hr hcomplete
      rcases List.mem_append.mp hr with hr | hr
      · exact hright r hr hcomplete
      · cases List.mem_singleton.mp hr
        exact coverageOf_isComplete.mp hcomplete
    · intro hsupplied
      obtain ⟨bars, hbars, -⟩ := hsupplies hsupplied f hf
      rw [hanswer] at hbars
      cases hbars
  | bars bars =>
    obtain ⟨hgrown, hcounts⟩ := batch_spec service.isalnum hascending (wanted f bars)
    dsimp only
    generalize upsertMany service.isalnum pool.shared.files (wanted f bars) = batch at hgrown hcounts ⊢
    obtain ⟨files', counts⟩ := batch
    have hgrows : Grows pool.shared.files files' := hgrown.kept
    have hcomplete : supplied → ∀ d ∈ f.required,
        Found service files' f.adjustment f.identity d := by
      intro hsupplied d hd
      rcases hmissing d hd with hd' | hfound
      · obtain ⟨bars', hbars', hsupply⟩ := hsupplies hsupplied f hf
        rw [hanswer] at hbars'
        cases hbars'
        obtain ⟨bar, hbar, hidentity, hadjustment, hdate⟩ := hsupply d hd'
        obtain ⟨b, hb, hbdate⟩ := hgrown.taken bar (by
          rw [wanted, List.mem_filter]
          exact ⟨hbar, by simp [hdate, hd', hadjustment]⟩)
        refine ⟨b, ?_, hbdate.trans hdate⟩
        rw [pathOf, hidentity, hadjustment] at hb
        exact hb
      · exact hfound.grows hgrows
    refine ⟨_, hgrows, kept_reached h hgrows ?_ ?_ ?_
      (proceed_reached service _ _ _ _ _ _)⟩
    · refine ⟨rfl, hgrown.ascending, fun name bar hbar => hgrows name bar (hinitial name bar hbar),
        ?_, ?_, ?_⟩
      · intro name bar hbar
        rcases hgrown.origin name bar hbar with hold | ⟨hmem, hname⟩
        · exact horigin name bar hold
        · refine .inr ⟨hP bar ?_, hname⟩
          rw [hanswer]
          exact (List.mem_filter.mp hmem).1
      · have hsize' := hgrown.size_eq
        dsimp only at hsize' ⊢
        omega
      · have hle : (wanted f bars).length ≤ bars.length := List.length_filter_le _ _
        dsimp only at hcounts ⊢
        omega
    · intro r hr hrcomplete
      rcases List.mem_append.mp hr with hr | hr
      · exact fun d hd => (hright r hr hrcomplete d hd).grows hgrows
      · cases List.mem_singleton.mp hr
        exact coverageOf_isComplete.mp hrcomplete
    · intro hsupplied r hr
      rcases List.mem_append.mp hr with hr | hr
      · exact hall hsupplied r hr
      · cases List.mem_singleton.mp hr
        exact ⟨rfl, coverageOf_isComplete.mpr (hcomplete hsupplied)⟩

theorem adding_respected (service : HistoricalService) (initial : Files)
    (P : HistoricalDailyBar → Prop) (supplied : Prop) :
    (adding service initial P supplied).Respected service.program (Answers P supplied) where
  start := by
    intro files pool process request h _
    refine ⟨h.memory, fun q u _ hu => h.task q u hu, ?_, fun r hr => by cases hr⟩
    intro t ht
    cases ht
    exact ⟨trivial, fun _ _ _ _ => trivial⟩
  advance := by
    intro files pool process occasion t h ht hanswers
    cases t with
    | fetching f => exact kept_fetched h ht hanswers
    | called request =>
      refine ⟨files, fun _ _ h => h, ?_⟩
      cases request with
      | coverage identity requirement asOf adjustment =>
        simp only [program, advance, coverage]
        cases service.guardAdjustment adjustment with
        | error error => exact kept_read h rfl ⟨rfl, rfl, rfl, rfl⟩ fun _ => trivial
        | ok u =>
          refine kept_read h ?_ ?_ fun _ => trivial
          · rfl
          dsimp only
          split <;> exact ⟨rfl, rfl, rfl, rfl⟩
      | previousTradingBar identity asOf adjustment =>
        exact kept_read h rfl ⟨rfl, rfl, rfl, rfl⟩ (answered_result _ _ fun _ _ => trivial)
      | planMissing identities requirement asOf adjustment =>
        exact kept_read h rfl ⟨rfl, rfl, rfl, rfl⟩ (answered_result _ _ fun _ _ => trivial)
      | comparePreviousClose identity asOf reference =>
        exact kept_read h rfl ⟨rfl, rfl, rfl, rfl⟩ (answered_result _ _ fun _ _ => trivial)
      | backfill identities requirement asOf adjustment =>
        simp only [program, advance]
        cases service.guardAdjustment adjustment with
        | error error => exact kept_read h rfl ⟨rfl, rfl, rfl, rfl⟩ fun _ => trivial
        | ok u =>
          have hshared := h.memory.1
          subst hshared
          exact kept_reached h (fun _ _ h => h) h.memory (fun r hr => (by cases hr))
            (fun _ r hr => (by cases hr)) (proceed_reached service _ _ _ _ _ _)

theorem adding_opened (service : HistoricalService) {initial : Files} (hfiles : FilesAscending initial)
    (P : HistoricalDailyBar → Prop) (supplied : Prop) :
    (adding service initial P supplied).Hold initial (opened initial) where
  memory := ⟨rfl, hfiles, fun _ _ h => h, fun _ _ h => .inl h, rfl, Nat.le_refl 0⟩
  task := fun p t ht => by cases ht
  apart := fun p q t u _ ht => by cases ht

theorem filesAscending_step (isalnum : Char → Bool) (files : Files) (call : Call)
    (hfiles : FilesAscending files) : FilesAscending (step isalnum files call).1 := by
  cases call with
  | upsert bar => exact filesAscending_upsert hfiles bar
  | upsertMany bars => exact (batch_spec isalnum hfiles bars).1.ascending
  | _ => exact hfiles

/-- The files that any calls of the store leave are in order. -/
theorem filesAscending_run (isalnum : Char → Bool) (calls : List Call) :
    FilesAscending (run (step isalnum) [] calls) :=
  run_invariant (filesAscending_step isalnum) calls fun name bars h => by cases h

end Interleaving

/-- **Backfills only add**, on files that any earlier calls of the store have left, in every
    interleaving of the calls of a service, whatever the source answers, refuses or raises.  No stored
    bar is lost or replaced; every other one came in an answer of the source, into its own file; the
    bars are as many more as the service has counted as inserted, and none is counted twice.  An
    instrument that a report calls complete has all of its required dates, then and ever after. -/
theorem backfills_only_add (service : HistoricalService) (earlier : List Call)
    (turns : List (Turn Request Occasion)) :
    let initial := run (step service.isalnum) [] earlier
    let s := (run service.program.step (opened initial) turns).shared
    (∀ name bar, Stored initial name bar → Stored s.files name bar) ∧
      (∀ name bar, Stored s.files name bar → Stored initial name bar ∨
        name = pathOf service.isalnum bar ∧
          ∃ p occasion, Turn.advance p occasion ∈ turns ∧ bar ∈ occasion.answer.received) ∧
      size s.files = size initial + s.metrics.barsInserted ∧
      s.metrics.barsInserted + s.metrics.barsUnchanged + s.metrics.barConflicts ≤
        s.metrics.barsReceived ∧
      ∀ p required adjustment results,
        some (p, .report required adjustment results) ∈
          outs service.program.step (opened initial) turns →
        ∀ r ∈ results, r.completeAfter = true → ∀ d ∈ required,
          d ∈ availableDates service.isalnum s.files r.instrumentIdentity adjustment := by
  intro initial s
  have hturns : Along service.program.step (Answers (fun bar => ∃ p occasion,
      Turn.advance p occasion ∈ turns ∧ bar ∈ occasion.answer.received) False) (opened initial)
      turns := by
    rw [along_iff_forall]
    rintro pre turn post rfl
    cases turn with
    | start process request => trivial
    | advance process occasion =>
      exact ⟨fun bar hbar => ⟨process, occasion, by simp, hbar⟩, fun h => h.elim⟩
  obtain ⟨files, -, hold, hresults⟩ := (adding_respected service initial _ False).run hturns
    (adding_opened service (filesAscending_run service.isalnum earlier) _ _)
  obtain ⟨hfiles, -, hkept, horigin, hsize, hcounts⟩ := hold.memory
  rw [← hfiles] at hkept horigin hsize
  refine ⟨hkept, ?_, hsize, hcounts, ?_⟩
  · intro name bar hbar
    exact (horigin name bar hbar).imp_right fun h => ⟨h.2, h.1⟩
  · intro p required adjustment results hreport r hr hcomplete d hd
    have hfound := (hresults p _ hreport).1 r hr hcomplete d hd
    rw [← hfiles] at hfound
    exact mem_availableDates.mpr hfound

/-- **A source that supplies what is missing makes every instrument complete**, in every
    interleaving: no report has a failed fetch or an incomplete instrument. -/
theorem supplied_backfills_complete (service : HistoricalService) (earlier : List Call)
    (turns : List (Turn Request Occasion)) :
    let initial := run (step service.isalnum) [] earlier
    Along service.program.step (Answers (fun _ => True) True) (opened initial) turns →
    ∀ p required adjustment results,
      some (p, .report required adjustment results) ∈
        outs service.program.step (opened initial) turns →
      completeCount results = results.length ∧ ∀ r ∈ results, r.fetchOk = true := by
  intro initial hturns p required adjustment results hreport
  obtain ⟨files, -, -, hresults⟩ := (adding_respected service initial _ True).run hturns
    (adding_opened service (filesAscending_run service.isalnum earlier) _ _)
  have hall := (hresults p _ hreport).2 trivial
  refine ⟨List.countP_eq_length.mpr fun r hr => (hall r hr).2, fun r hr => (hall r hr).1⟩

section TwoBackfills

def nseService : HistoricalService := ⟨Char.isAlphanum, nseClassifier.calendar, false⟩

def nseMm : InstrumentIdentity := ⟨"NSE:M&M", mm_length.1, mm_length.2⟩

theorem tcs_length : 1 ≤ "NSE:TCS".length ∧ "NSE:TCS".length ≤ 128 := by decide

def nseTcs : InstrumentIdentity := ⟨"NSE:TCS", tcs_length.1, tcs_length.2⟩

/-- A backfill of two instruments for two days and one of the second instrument for one day, which ends
    while the first awaits the same bar. -/
def twoBackfills : List (Turn Request Occasion) :=
  [.start 0 (.backfill [nseMm, nseTcs] ⟨2, Nat.succ_pos 1⟩ 20001 .raw),
    .start 1 (.backfill [nseTcs] ⟨1, Nat.one_pos⟩ 20001 .raw),
    .advance 0 ⟨.bars [], 0, 10⟩,
    .advance 1 ⟨.bars [], 0, 20⟩,
    .advance 0 ⟨.bars [flatBar nseMm 20000, flatBar nseMm 19999], 30, 30⟩,
    .advance 1 ⟨.bars [flatBar nseTcs 20000], 40, 40⟩,
    .advance 0 ⟨.bars [flatBar nseTcs 19999, flatBar nseTcs 20000], 50, 50⟩]

/-- Bars of these dates are what is missing. -/
theorem supplies_flatBars {fetch : Fetching} (dates : List Int) (hadjustment : fetch.adjustment = .raw)
    (hdates : ∀ d ∈ fetch.missing, d ∈ dates) :
    Supplies fetch (.bars (dates.map (flatBar fetch.identity))) := by
  refine ⟨_, rfl, fun d hd => ⟨flatBar fetch.identity d, ?_, rfl, hadjustment.symm, rfl⟩⟩
  exact List.mem_map_of_mem (hdates d hd)

theorem twoBackfills_answered :
    Along nseService.program.step (Answers (fun _ => True) True) (opened []) twoBackfills := by
  -- the calls only start, then each answer has a bar for every date its call awaits
  refine ⟨trivial, trivial, ⟨fun _ _ => trivial, fun _ f hf => by cases hf⟩,
    ⟨fun _ _ => trivial, fun _ f hf => by cases hf⟩, ⟨fun _ _ => trivial, fun _ f hf => ?_⟩,
    ⟨fun _ _ => trivial, fun _ f hf => ?_⟩, ⟨fun _ _ => trivial, fun _ f hf => ?_⟩, trivial⟩
  · cases hf
    have hmissing : ∀ d ∈ [(19999 : Int), 20000], d ∈ [(20000 : Int), 19999] := by decide
    exact supplies_flatBars [20000, 19999] rfl hmissing
  · cases hf
    exact supplies_flatBars [20000] rfl fun d hd => hd
  · cases hf
    exact supplies_flatBars [19999, 20000] rfl fun d hd => hd

end TwoBackfills

/-- Both calls end with a report, of two instruments and of one, and no instrument is incomplete. -/
theorem two_backfills_complete :
    let outputs := outs nseService.program.step (opened []) twoBackfills
    (∃ mm tcs, some (0, .report [19999, 20000] .raw [mm, tcs]) ∈ outputs) ∧
      (∃ tcs, some (1, .report [20000] .raw [tcs]) ∈ outputs) ∧
      ∀ p required adjustment results, some (p, .report required adjustment results) ∈ outputs →
        completeCount results = results.length ∧ ∀ r ∈ results, r.fetchOk = true := by
  intro outputs
  have houtputs : ∃ mm tcs tcs', outputs = [none, none, none, none, none,
      some (1, .report [20000] .raw [tcs]), some (0, .report [19999, 20000] .raw [mm, tcs'])] :=
    ⟨_, _, _, rfl⟩
  refine ⟨?_, ?_, supplied_backfills_complete nseService [] twoBackfills twoBackfills_answered⟩
  · obtain ⟨mm, _, tcs, houtputs⟩ := houtputs
    exact ⟨mm, tcs, by simp [houtputs]⟩
  · obtain ⟨_, tcs, _, houtputs⟩ := houtputs
    exact ⟨tcs, by simp [houtputs]⟩

end HistoricalService

end ApexScan.MarketHistory
