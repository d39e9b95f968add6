import ApexScan.Adapters.Dhan.CalendarTables
import ApexScan.Engine.Session
import ApexScan.Lib.Dict
import ApexScan.Lib.Sha256
import ApexScan.Lib.Sorting
import Mathlib.Data.List.Find
import Mathlib.Data.Prod.Lex
import Mathlib.Data.String.Basic

/-!
# Comparison of the secondary calendar (`app/services/calendar_monitor.py`)

An observation of the exchange calendar is compared with the authoritative dataset
(`app/market_engine/calendar_data/dataset.py`) date by date, and what differs is summed up in a
signature, by which an alert is raised once.

* `TradingCalendarDataset` — the dataset, valid by construction.
* `compareDate` — one observed date; `compare` — the observation.
* `canonical` — the text that is hashed; `canonical_inj` — it says which dates differ, and how.
* `Disagreement`, `disagreements` — what an observation says against the dataset: the date, what
  differs, and the observed intervals where it is the timing.
* `signature_identifies_iff` — when equal signatures mean equal disagreements.

A day is its number; a time of day is in the units of a session.
-/

set_option autoImplicit false

namespace ApexScan.CalendarMonitor

open Lib Dhan.Calendar

/-! ## The dataset -/

/-- `TradingCalendarDataset`; provenance is left out. -/
structure TradingCalendarDataset where
  coverage : CalendarCoverage
  closedDates : List Int
  openSessions : List Int
  sessionOverrides : List TradingSessionOverride
  uniqueClosed : closedDates.Nodup
  uniqueOpen : openSessions.Nodup
  uniqueOverrides : (sessionOverrides.map (·.tradingDate)).Nodup
  withinCoverage : ∀ d ∈ closedDates ++ openSessions, coverage.contains d = true
  overridesOpen : ∀ o ∈ sessionOverrides, o.tradingDate ∈ openSessions
  disjoint : ∀ d ∈ closedDates, d ∉ openSessions

namespace TradingCalendarDataset

/-- `trading_calendar`. -/
def tradingCalendar (dataset : TradingCalendarDataset) : TradingCalendar where
  closedDates := dataset.closedDates
  openSessions := dataset.openSessions
  disjoint := dataset.disjoint

end TradingCalendarDataset

/-! ## The comparison -/

/-- `CalendarComparisonStatus`; `matched` is its `MATCH`. -/
inductive CalendarComparisonStatus where
  | matched
  | dhanNewClosedDate
  | dhanNewOpenDate
  | dhanDateStatusConflict
  | dhanSessionTimingChange
  | dhanParseFailure
  | dhanFetchFailure
  | authoritativeCoverageMissing
  deriving DecidableEq, Repr

/-- The value of the enumeration. -/
def CalendarComparisonStatus.value : CalendarComparisonStatus → String
  | .matched => "match"
  | .dhanNewClosedDate => "dhan_new_closed_date"
  | .dhanNewOpenDate => "dhan_new_open_date"
  | .dhanDateStatusConflict => "dhan_date_status_conflict"
  | .dhanSessionTimingChange => "dhan_session_timing_change"
  | .dhanParseFailure => "dhan_parse_failure"
  | .dhanFetchFailure => "dhan_fetch_failure"
  | .authoritativeCoverageMissing => "authoritative_coverage_missing"

/-- `_SEVERITY_ORDER`. -/
def severityOrder : List CalendarComparisonStatus :=
  [.dhanDateStatusConflict, .dhanNewOpenDate, .dhanNewClosedDate, .dhanSessionTimingChange,
   .authoritativeCoverageMissing]

/-- `_IntervalPairs`. -/
abbrev IntervalPairs := List (Int × Int)

/-- `_AuthorityView`. -/
structure AuthorityView where
  coverage : CalendarCoverage
  calendar : TradingCalendar
  openSet : List Int
  closedSet : List Int
  overrides : Dict Int IntervalPairs

/-- `_DateFacts`. -/
structure DateFacts where
  day : GregorianDate
  openExplicit : Bool
  closedExplicit : Bool
  trading : Bool

structure DateComparison where
  observedDate : GregorianDate
  status : CalendarComparisonStatus
  deriving DecidableEq

structure CalendarComparison where
  overallStatus : CalendarComparisonStatus
  dateResults : List DateComparison
  differenceCount : ℕ
  signature : String
  deriving DecidableEq

/-- `_override_pairs`. -/
def overridePairs (dataset : TradingCalendarDataset) : Dict Int IntervalPairs :=
  dataset.sessionOverrides.map fun spec =>
    (spec.tradingDate, spec.liveIntervals.map fun interval => (interval.start, interval.stop))

/-- `_overall_status`. -/
def overallStatus (results : List DateComparison) : CalendarComparisonStatus :=
  (severityOrder.find? fun status => (results.map (·.status)).contains status).getD .matched

/-- The text of one date of a discrepancy. -/
def finding (result : String × String) : String := result.1 ++ ":" ++ result.2

/-- The sorted texts of what does not match. -/
def nonMatch (results : List DateComparison) : List (String × String) :=
  sortBy toLex
    ((results.filter fun result => result.status ≠ .matched).map fun result =>
      (result.observedDate.text, result.status.value))

/-- The text that a signature is the digest of. -/
def canonical (overall : CalendarComparisonStatus) (results : List DateComparison) : String :=
  overall.value ++ "|" ++ "|".intercalate ((nonMatch results).map finding)

/-- `hashlib.sha256(text.encode("utf-8")).hexdigest()`. -/
def digest (text : String) : String :=
  Sha256.hexdigest (text.toList.flatMap fun c => (String.utf8EncodeChar c).map UInt8.toNat)

/-- `_signature`. -/
def signature (overall : CalendarComparisonStatus) (results : List DateComparison) : String :=
  if overall = .matched then "match" else digest (canonical overall results)

/-- `_failure_comparison`. -/
def failureComparison (status : CalendarComparisonStatus) : CalendarComparison where
  overallStatus := status
  dateResults := []
  differenceCount := 0
  signature := signature status []

/-- `_compare_closed`. -/
def compareClosed (facts : DateFacts) : DateComparison :=
  if facts.openExplicit then ⟨facts.day, .dhanDateStatusConflict⟩
  else if !facts.trading then ⟨facts.day, .matched⟩
  else ⟨facts.day, .dhanNewClosedDate⟩

/-- `_compare_open_timing`. -/
def compareOpenTiming (entry : ObservedCalendarDate) (day : GregorianDate)
    (overrides : Dict Int IntervalPairs) : DateComparison :=
  if entry.intervals.isEmpty then ⟨day, .matched⟩
  else
    let observed := entry.intervals.map fun interval =>
      ((interval.start : Int) * minute, (interval.stop : Int) * minute)
    if overrides.get day.dayNumber = some observed then ⟨day, .matched⟩
    else ⟨day, .dhanSessionTimingChange⟩

/-- `_compare_open`. -/
def compareOpen (entry : ObservedCalendarDate) (facts : DateFacts)
    (overrides : Dict Int IntervalPairs) : DateComparison :=
  if facts.closedExplicit then ⟨facts.day, .dhanDateStatusConflict⟩
  else if facts.openExplicit then compareOpenTiming entry facts.day overrides
  else if !facts.trading then ⟨facts.day, .dhanNewOpenDate⟩
  else ⟨facts.day, .matched⟩

/-- `_compare_date`. -/
def compareDate (entry : ObservedCalendarDate) (authority : AuthorityView) : DateComparison :=
  let day := entry.observedDate
  if !authority.coverage.contains day.dayNumber then ⟨day, .authoritativeCoverageMissing⟩
  else
    let facts : DateFacts :=
      { day
        openExplicit := authority.openSet.contains day.dayNumber
        closedExplicit := authority.closedSet.contains day.dayNumber
        trading := authority.calendar.isTradingDay day.dayNumber }
    match entry.status with
    | .closed => compareClosed facts
    | .opened => compareOpen entry facts authority.overrides

/-- The `_AuthorityView` of a dataset. -/
def authorityView (dataset : TradingCalendarDataset) : AuthorityView where
  coverage := dataset.coverage
  calendar := dataset.tradingCalendar
  openSet := dataset.openSessions
  closedSet := dataset.closedDates
  overrides := overridePairs dataset

/-- `compare`. -/
def compare (observation : Observation) (dataset : Option TradingCalendarDataset) :
    CalendarComparison :=
  if observation.parseStatus = .parseFailure then failureComparison .dhanParseFailure
  else
    match dataset with
    | none => failureComparison .authoritativeCoverageMissing
    | some dataset =>
      let authority := authorityView dataset
      let results := observation.dates.map fun entry => compareDate entry authority
      let overall := overallStatus results
      { overallStatus := overall
        dateResults := results
        differenceCount := results.countP fun result => result.status ≠ .matched
        signature := signature overall results }

/-! ## What differs -/

/-- What an observation says against the dataset about a date. -/
structure Disagreement where
  date : GregorianDate
  status : CalendarComparisonStatus
  intervals : List ObservedInterval
  deriving DecidableEq

/-- The date that differs, and how. -/
def Disagreement.key (d : Disagreement) : GregorianDate × CalendarComparisonStatus := (d.date, d.status)

section Disagreements

variable (dataset : TradingCalendarDataset)

/-- How an entry compares with the dataset. -/
def statusOf (entry : ObservedCalendarDate) : CalendarComparisonStatus :=
  (compareDate entry (authorityView dataset)).status

/-- The observed intervals are part of a disagreement about the timing. -/
def disagreementOf (entry : ObservedCalendarDate) : Option Disagreement :=
  if statusOf dataset entry = .matched then none
  else
    some
      { date := entry.observedDate
        status := statusOf dataset entry
        intervals := if statusOf dataset entry = .dhanSessionTimingChange then entry.intervals else [] }

def disagreements (observation : Observation) : List Disagreement :=
  observation.dates.filterMap (disagreementOf dataset)

/-- The dates that differ, and how, without the observed intervals. -/
def findings (observation : Observation) : List (GregorianDate × CalendarComparisonStatus) :=
  (disagreements dataset observation).map Disagreement.key

/-- The open dates whose timing differs, with the observed intervals. -/
def timingChanges (observation : Observation) : List Disagreement :=
  (disagreements dataset observation).filter fun d => d.status = .dhanSessionTimingChange

/-- The results of a comparison. -/
def resultsOf (observation : Observation) : List DateComparison :=
  observation.dates.map fun entry => compareDate entry (authorityView dataset)

/-- The text that is hashed for an observation. -/
def canonicalOf (observation : Observation) : String :=
  canonical (overallStatus (resultsOf dataset observation)) (resultsOf dataset observation)

end Disagreements

variable {dataset : TradingCalendarDataset} {a b : Observation}

theorem compareDate_observedDate (entry : ObservedCalendarDate) (authority : AuthorityView) :
    (compareDate entry authority).observedDate = entry.observedDate := by
  simp only [compareDate, compareClosed, compareOpen, compareOpenTiming]
  repeat' split
  all_goals rfl

/-- A date that does not match has one of the statuses by severity. -/
theorem statusOf_mem (entry : ObservedCalendarDate) :
    statusOf dataset entry = .matched ∨ statusOf dataset entry ∈ severityOrder := by
  unfold statusOf
  simp only [compareDate, compareClosed, compareOpen, compareOpenTiming]
  repeat' split
  all_goals simp [severityOrder]

theorem matched_notMem_severityOrder : CalendarComparisonStatus.matched ∉ severityOrder := by decide

theorem compareClosed_ne_timing (facts : DateFacts) :
    (compareClosed facts).status ≠ .dhanSessionTimingChange := by
  unfold compareClosed
  split
  · simp
  · split <;> simp

theorem compareOpenTiming_eq_timing_iff (entry : ObservedCalendarDate) (day : GregorianDate)
    (overrides : Dict Int IntervalPairs) :
    (compareOpenTiming entry day overrides).status = .dhanSessionTimingChange ↔
      entry.intervals ≠ [] ∧ overrides.get day.dayNumber ≠ some (entry.intervals.map fun interval =>
        ((interval.start : Int) * minute, (interval.stop : Int) * minute)) := by
  unfold compareOpenTiming
  split
  · rename_i hempty
    simp [List.isEmpty_iff.mp hempty]
  · rename_i hintervals
    rw [List.isEmpty_iff] at hintervals
    simp only
    split
    · rename_i hsame
      simp [hsame]
    · rename_i hother
      simp [hintervals, hother]

theorem compareOpen_eq_timing_iff (entry : ObservedCalendarDate) (facts : DateFacts)
    (overrides : Dict Int IntervalPairs) :
    (compareOpen entry facts overrides).status = .dhanSessionTimingChange ↔
      facts.closedExplicit = false ∧ facts.openExplicit = true ∧
        (compareOpenTiming entry facts.day overrides).status = .dhanSessionTimingChange := by
  unfold compareOpen
  split
  · rename_i hclosed
    simp [hclosed]
  · rename_i hclosed
    split
    · rename_i hopen
      simp [hclosed, hopen]
    · rename_i hopen
      split <;> simp [hopen]

/-- **When the timing differs**: an explicit open session is reported open, with intervals other than those
    that the dataset has for it. -/
theorem statusOf_eq_timing_iff (entry : ObservedCalendarDate) :
    statusOf dataset entry = .dhanSessionTimingChange ↔
      entry.status = .opened ∧ entry.observedDate.dayNumber ∈ dataset.openSessions ∧
        entry.intervals ≠ [] ∧ (overridePairs dataset).get entry.observedDate.dayNumber ≠
          some (entry.intervals.map fun interval =>
            ((interval.start : Int) * minute, (interval.stop : Int) * minute)) := by
  unfold statusOf compareDate
  simp only
  split
  · rename_i houtside
    refine iff_of_false (by simp) ?_
    rintro ⟨_, hopen, _⟩
    -- an open session is covered
    have hcovered := dataset.withinCoverage _ (List.mem_append_right dataset.closedDates hopen)
    rw [show (authorityView dataset).coverage = dataset.coverage from rfl, hcovered] at houtside
    cases houtside
  · cases hstatus : entry.status with
    | closed => exact iff_of_false (compareClosed_ne_timing _) (fun h => by cases h.1)
    | opened =>
      have hdisjoint := dataset.disjoint entry.observedDate.dayNumber
      refine (compareOpen_eq_timing_iff entry _ _).trans ?_
      rw [compareOpenTiming_eq_timing_iff]
      simp only [authorityView, List.contains_iff_mem, true_and]
      constructor
      · rintro ⟨_, hopen, htiming⟩
        exact ⟨hopen, htiming⟩
      · rintro ⟨hopen, htiming⟩
        have hclosed : entry.observedDate.dayNumber ∉ dataset.closedDates := fun h => hdisjoint h hopen
        exact ⟨by simpa using hclosed, hopen, htiming⟩

/-- The results that do not match are the findings. -/
theorem filter_resultsOf (observation : Observation) :
    ((resultsOf dataset observation).filter fun result => result.status ≠ .matched).map
      (fun result => (result.observedDate, result.status)) = findings dataset observation := by
  unfold resultsOf findings disagreements
  induction observation.dates with
  | nil => rfl
  | cons entry dates ih =>
    rw [List.map_cons, List.filterMap_cons]
    by_cases hmatched : statusOf dataset entry = .matched
    · rw [List.filter_cons_of_neg (by simpa [statusOf] using hmatched), ih, disagreementOf,
        if_pos hmatched]
    · rw [List.filter_cons_of_pos (by simpa [statusOf] using hmatched), List.map_cons, ih,
        disagreementOf, if_neg hmatched, compareDate_observedDate]
      rfl

/-! ## The canonical text -/

/-- The texts of a finding. -/
def texts (found : GregorianDate × CalendarComparisonStatus) : String × String :=
  (found.1.text, found.2.value)

theorem value_injective : Function.Injective CalendarComparisonStatus.value := by
  intro s t h
  cases s <;> cases t <;> first | rfl | exact absurd h (by decide)

theorem texts_injective : Function.Injective texts := by
  intro f g h
  have hdate := GregorianDate.text_injective (congrArg Prod.fst h)
  have hstatus := value_injective (congrArg Prod.snd h)
  exact Prod.ext hdate hstatus

theorem nonMatch_resultsOf (observation : Observation) :
    nonMatch (resultsOf dataset observation) =
      sortBy toLex ((findings dataset observation).map texts) := by
  rw [← filter_resultsOf, List.map_map]
  rfl

/-- The same findings in any order have the same sorted texts. -/
theorem nonMatch_eq_iff : nonMatch (resultsOf dataset a) = nonMatch (resultsOf dataset b) ↔
    (findings dataset a).Perm (findings dataset b) := by
  rw [nonMatch_resultsOf, nonMatch_resultsOf]
  constructor
  · intro h
    have hsorted := @sortBy_perm _ _ _ toLex ((findings dataset a).map texts)
    rw [h] at hsorted
    have hperm : ((findings dataset a).map texts).Perm ((findings dataset b).map texts) :=
      hsorted.symm.trans sortBy_perm
    exact (List.map_perm_map_iff texts_injective).mp hperm
  · intro h
    exact sortBy_of_perm (h.map texts) fun _ _ _ _ hkey => toLex.injective hkey

theorem bar_notMem_value (status : CalendarComparisonStatus) : '|' ∉ status.value.toList := by
  cases status <;> decide

theorem bar_notMem_text (d : GregorianDate) : '|' ∉ d.text.toList := by
  intro h
  rcases GregorianDate.mem_text h with h | h
  · exact absurd h (by decide)
  · exact absurd h (by decide)

/-- A finding read back from its text; a date has ten characters. -/
def readFinding (text : List Char) : String × String :=
  (String.ofList (text.take 10), String.ofList (text.drop 11))

theorem readFinding_finding (found : GregorianDate × CalendarComparisonStatus) :
    readFinding (finding (texts found)).toList = texts found := by
  have hlength : found.1.text.toList.length = 10 := found.1.length_text
  have hsplit : (finding (texts found)).toList = found.1.text.toList ++ ':' :: found.2.value.toList := by
    simp [finding, texts]
  unfold readFinding
  rw [hsplit, List.take_append_of_le_length (by omega), List.take_of_length_le (by omega),
    List.drop_append, List.drop_of_length_le (by omega), hlength]
  simp [texts]

/-- A joined text is read back by its separator. -/
theorem splitOn_canonicalOf (h : findings dataset a ≠ []) :
    (canonicalOf dataset a).toList.splitOn '|' =
      (overallStatus (resultsOf dataset a)).value.toList ::
        ((nonMatch (resultsOf dataset a)).map fun result => (finding result).toList) := by
  have hne : nonMatch (resultsOf dataset a) ≠ [] := by
    rw [nonMatch_resultsOf]
    intro hnil
    have hlength := (@sortBy_perm _ _ _ toLex ((findings dataset a).map texts)).length_eq
    rw [hnil, List.length_map] at hlength
    exact h (List.length_eq_zero_iff.mp hlength.symm)
  have hjoin : (canonicalOf dataset a).toList = ['|'].intercalate
      ((overallStatus (resultsOf dataset a)).value.toList ::
        ((nonMatch (resultsOf dataset a)).map fun result => (finding result).toList)) := by
    rw [List.intercalate_cons_of_ne_nil (by simpa using hne)]
    simp [canonicalOf, canonical, String.toList_intercalate, Function.comp_def]
  rw [hjoin]
  apply List.splitOn_intercalate
  · intro part hpart
    rcases List.mem_cons.mp hpart with rfl | hpart
    · exact bar_notMem_value _
    · obtain ⟨result, hresult, rfl⟩ := List.mem_map.mp hpart
      rw [nonMatch_resultsOf, mem_sortBy] at hresult
      obtain ⟨found, _, rfl⟩ := List.mem_map.mp hresult
      have hdate := bar_notMem_text found.1
      have hstatus := bar_notMem_value found.2
      simp [finding, texts, hdate, hstatus]
  · exact List.cons_ne_nil _ _

/-- **The canonical text says which dates differ, and how.** -/
theorem nonMatch_of_canonicalOf (ha : findings dataset a ≠ []) (hb : findings dataset b ≠ [])
    (h : canonicalOf dataset a = canonicalOf dataset b) :
    nonMatch (resultsOf dataset a) = nonMatch (resultsOf dataset b) := by
  have hread (c : Observation) : ((nonMatch (resultsOf dataset c)).map
      fun result => (finding result).toList).map readFinding = nonMatch (resultsOf dataset c) := by
    rw [List.map_map]
    refine (List.map_congr_left fun result hresult => ?_).trans (List.map_id _)
    rw [nonMatch_resultsOf, mem_sortBy] at hresult
    obtain ⟨found, _, rfl⟩ := List.mem_map.mp hresult
    exact readFinding_finding found
  have hsplit := splitOn_canonicalOf ha
  rw [h, splitOn_canonicalOf hb] at hsplit
  rw [← hread a, ← hread b, (List.cons.inj hsplit).2]

/-! ## The status and the signature -/

theorem mem_statuses_iff {observation : Observation} {status : CalendarComparisonStatus}
    (h : status ≠ .matched) : status ∈ (resultsOf dataset observation).map (·.status) ↔
      status ∈ (findings dataset observation).map (·.2) := by
  rw [← filter_resultsOf, List.map_map]
  simp only [List.mem_map, List.mem_filter, Function.comp_apply]
  constructor
  · rintro ⟨result, hresult, rfl⟩
    exact ⟨result, ⟨hresult, by simpa using h⟩, rfl⟩
  · rintro ⟨result, ⟨hresult, _⟩, rfl⟩
    exact ⟨result, hresult, rfl⟩

/-- The overall status is the most severe of the findings. -/
theorem overallStatus_resultsOf (observation : Observation) :
    overallStatus (resultsOf dataset observation) =
      (severityOrder.find? fun status =>
        ((findings dataset observation).map (·.2)).contains status).getD .matched := by
  unfold overallStatus
  congr 1
  apply List.find?_congr
  intro status hstatus
  have hne : status ≠ .matched := by
    rintro rfl
    exact matched_notMem_severityOrder hstatus
  rw [Bool.eq_iff_iff, List.contains_iff_mem, List.contains_iff_mem]
  exact mem_statuses_iff hne

/-- A finding has one of the statuses by severity. -/
theorem mem_findings {observation : Observation} {found : GregorianDate × CalendarComparisonStatus}
    (h : found ∈ findings dataset observation) : found.2 ∈ severityOrder := by
  obtain ⟨d, hd, rfl⟩ := List.mem_map.mp h
  obtain ⟨entry, _, hentry⟩ := List.mem_filterMap.mp hd
  unfold disagreementOf at hentry
  split at hentry
  · cases hentry
  · rename_i hne
    cases hentry
    exact statusOf_mem entry |>.resolve_left hne

theorem overallStatus_eq_matched_iff (observation : Observation) :
    overallStatus (resultsOf dataset observation) = .matched ↔ findings dataset observation = [] := by
  rw [overallStatus_resultsOf]
  constructor
  · intro h
    apply List.eq_nil_iff_forall_not_mem.mpr
    intro found hfound
    cases hfind : severityOrder.find? fun status =>
        ((findings dataset observation).map (·.2)).contains status with
    | none =>
      have hnone := List.find?_eq_none.mp hfind found.2 (mem_findings hfound)
      exact hnone (List.contains_iff_mem.mpr (List.mem_map_of_mem hfound))
    | some status =>
      rw [hfind] at h
      cases h
      exact matched_notMem_severityOrder (List.mem_of_find?_eq_some hfind)
  · intro h
    rw [h]
    rfl

/-- The same findings in any order have the same status. -/
theorem overallStatus_of_perm (h : (findings dataset a).Perm (findings dataset b)) :
    overallStatus (resultsOf dataset a) = overallStatus (resultsOf dataset b) := by
  rw [overallStatus_resultsOf, overallStatus_resultsOf]
  congr 1
  apply List.find?_congr
  intro status _
  rw [Bool.eq_iff_iff, List.contains_iff_mem, List.contains_iff_mem]
  exact (h.map _).mem_iff

/-- The comparison of an observation with a dataset. -/
theorem compare_some (h : a.parseStatus = .ok) : compare a (some dataset) =
    { overallStatus := overallStatus (resultsOf dataset a)
      dateResults := resultsOf dataset a
      differenceCount := (findings dataset a).length
      signature := signature (overallStatus (resultsOf dataset a)) (resultsOf dataset a) } := by
  have hcount : (resultsOf dataset a).countP (fun result => result.status ≠ .matched) =
      (findings dataset a).length := by
    rw [← filter_resultsOf, List.length_map, List.countP_eq_length_filter]
  unfold compare
  rw [if_neg (by rw [h]; decide), ← hcount]
  rfl

theorem digest_ne_match (text : String) : digest text ≠ "match" := by
  intro h
  have hlength := Sha256.length_hexdigest (text.toList.flatMap fun c =>
    (String.utf8EncodeChar c).map UInt8.toNat)
  rw [show Sha256.hexdigest _ = "match" from h] at hlength
  exact absurd hlength (by decide)

theorem signature_eq_match_iff (observation : Observation) :
    signature (overallStatus (resultsOf dataset observation)) (resultsOf dataset observation) =
      "match" ↔ findings dataset observation = [] := by
  rw [← overallStatus_eq_matched_iff]
  unfold signature
  split
  · rename_i hmatched
    exact iff_of_true rfl hmatched
  · rename_i hne
    exact iff_of_false (digest_ne_match _) hne

/-- The same findings in any order have the same signature. -/
theorem signature_of_perm (h : (findings dataset a).Perm (findings dataset b)) :
    signature (overallStatus (resultsOf dataset a)) (resultsOf dataset a) =
      signature (overallStatus (resultsOf dataset b)) (resultsOf dataset b) := by
  unfold signature canonical
  rw [overallStatus_of_perm h, nonMatch_eq_iff.mpr h]

/-- The two texts do not collide under the digest. -/
def NoCollision (dataset : TradingCalendarDataset) (a b : Observation) : Prop :=
  digest (canonicalOf dataset a) = digest (canonicalOf dataset b) →
    canonicalOf dataset a = canonicalOf dataset b

/-- **A signature says which dates differ, and how**, where the digest has no collision. -/
theorem signature_eq_iff (hdigest : NoCollision dataset a b) :
    signature (overallStatus (resultsOf dataset a)) (resultsOf dataset a) =
        signature (overallStatus (resultsOf dataset b)) (resultsOf dataset b) ↔
      (findings dataset a).Perm (findings dataset b) := by
  refine ⟨fun h => ?_, signature_of_perm⟩
  by_cases ha : findings dataset a = []
  · rw [(signature_eq_match_iff a).mpr ha] at h
    rw [ha, (signature_eq_match_iff b).mp h.symm]
  · have hb : findings dataset b ≠ [] := by
      intro hb
      rw [(signature_eq_match_iff b).mpr hb] at h
      exact ha ((signature_eq_match_iff a).mp h)
    unfold signature at h
    rw [if_neg (mt (overallStatus_eq_matched_iff a).mp ha),
      if_neg (mt (overallStatus_eq_matched_iff b).mp hb)] at h
    exact nonMatch_eq_iff.mp (nonMatch_of_canonicalOf ha hb (hdigest h))

/-! ## The disagreement -/

/-- The two observations say the same against the dataset. -/
def SameDisagreement (dataset : TradingCalendarDataset) (a b : Observation) : Prop :=
  (disagreements dataset a).Perm (disagreements dataset b)

/-- The two observations report the same intervals on the open dates whose timing differs. -/
def SameTimings (dataset : TradingCalendarDataset) (a b : Observation) : Prop :=
  (timingChanges dataset a).Perm (timingChanges dataset b)

/-- No date is observed twice. -/
def Distinct (observation : Observation) : Prop := (observation.dates.map (·.observedDate)).Nodup

/-- Without intervals, a disagreement is its date and status. -/
theorem intervals_of_status {observation : Observation} {d : Disagreement}
    (h : d ∈ disagreements dataset observation) (hstatus : d.status ≠ .dhanSessionTimingChange) :
    d.intervals = [] := by
  obtain ⟨entry, _, hentry⟩ := List.mem_filterMap.mp h
  unfold disagreementOf at hentry
  split at hentry
  · cases hentry
  · cases hentry
    exact if_neg hstatus

/-- The disagreement of a finding that is not about the timing. -/
def bare (found : GregorianDate × CalendarComparisonStatus) : Disagreement := ⟨found.1, found.2, []⟩

/-- Disagreements are those about the timing, and the other findings. -/
theorem disagreements_perm (observation : Observation) :
    (disagreements dataset observation).Perm
      (timingChanges dataset observation ++
        ((findings dataset observation).filter
          fun found => found.2 ≠ .dhanSessionTimingChange).map bare) := by
  have hothers : ((findings dataset observation).filter
      fun found => found.2 ≠ .dhanSessionTimingChange).map bare =
        (disagreements dataset observation).filter fun d => d.status ≠ .dhanSessionTimingChange := by
    unfold findings
    rw [List.filter_map, List.map_map]
    refine (List.map_congr_left fun d hd => ?_).trans (List.map_id _)
    obtain ⟨hmem, hstatus⟩ := List.mem_filter.mp hd
    have hintervals := intervals_of_status hmem (of_decide_eq_true hstatus)
    show Disagreement.mk d.date d.status [] = d
    rw [← hintervals]
  rw [hothers]
  unfold timingChanges
  simpa using (List.filter_append_perm (fun d => decide (d.status = .dhanSessionTimingChange))
    (disagreements dataset observation)).symm

/-- The same disagreement is the same findings and the same timings. -/
theorem sameDisagreement_iff : SameDisagreement dataset a b ↔
    (findings dataset a).Perm (findings dataset b) ∧ SameTimings dataset a b := by
  constructor
  · intro h
    exact ⟨h.map _, h.filter _⟩
  · rintro ⟨hfindings, htimings⟩
    have hothers := (hfindings.filter fun found => found.2 ≠ .dhanSessionTimingChange).map bare
    exact (disagreements_perm a).trans ((htimings.append hothers).trans (disagreements_perm b).symm)

/-- Distinct dates have distinct disagreements. -/
theorem Distinct.nodup (h : Distinct a) : (disagreements dataset a).Nodup := by
  have hdates : ((disagreements dataset a).map (·.date)).Sublist (a.dates.map (·.observedDate)) := by
    unfold disagreements
    induction a.dates with
    | nil => exact List.Sublist.slnil
    | cons entry dates ih =>
      rw [List.filterMap_cons, List.map_cons]
      cases hentry : disagreementOf dataset entry with
      | none => exact ih.cons _
      | some d =>
        have hdate : d.date = entry.observedDate := by
          unfold disagreementOf at hentry
          split at hentry
          · cases hentry
          · cases hentry
            rfl
        rw [List.map_cons, hdate]
        exact ih.cons_cons _
  exact (h.sublist hdates).of_map

/-- Of dates that are each observed once, the disagreements are a set. -/
theorem sameDisagreement_iff_mem (ha : Distinct a) (hb : Distinct b) : SameDisagreement dataset a b ↔
    ∀ d, d ∈ disagreements dataset a ↔ d ∈ disagreements dataset b :=
  List.perm_ext_iff_of_nodup ha.nodup hb.nodup

/-- What the parser reads has no date twice. -/
theorem distinct_of_parse {u : Deploy.UnicodeData} {source : String} {events : List HtmlEvent}
    (h : parse u source events = .ok a) : Distinct a := by
  have hextract (tables : List (List CollectedRow)) (dates : List ObservedCalendarDate)
      (h : extractNseEquityDates u tables = .ok dates) : (dates.map (·.observedDate)).Nodup := by
    induction tables with
    | nil => cases h
    | cons table tables ih =>
      unfold extractNseEquityDates at h
      split at h
      · exact ih h
      · obtain ⟨_, _, _, hdistinct⟩ := rowsToDates_eq_ok.mp h
        exact hdistinct
  unfold parse at h
  split at h
  · rename_i dates hdates
    cases h
    exact hextract _ _ hdates
  · cases h
    exact List.nodup_nil
  · cases h

/-- The order of the observed dates does not matter. -/
theorem findings_of_perm (h : a.dates.Perm b.dates) :
    (findings dataset a).Perm (findings dataset b) := (h.filterMap _).map _

/-- **Signatures and disagreements**: equal signatures mean equal disagreements exactly when two
    observations of the same findings report the same intervals where the timing differs.  Of dates that
    are each observed once the disagreements are a set; their order does not matter, and the signature is
    that of a match when nothing differs. -/
theorem signature_identifies_iff (dataset : TradingCalendarDataset) (a b : Observation)
    (ha : a.parseStatus = .ok) (hb : b.parseStatus = .ok) (hdigest : NoCollision dataset a b) :
    (((compare a (some dataset)).signature = (compare b (some dataset)).signature ↔
        SameDisagreement dataset a b) ↔
      ((findings dataset a).Perm (findings dataset b) → SameTimings dataset a b)) ∧
    (Distinct a → Distinct b → (SameDisagreement dataset a b ↔
      ∀ d, d ∈ disagreements dataset a ↔ d ∈ disagreements dataset b)) ∧
    (∀ c : Observation, c.parseStatus = .ok → c.dates.Perm a.dates →
      (compare c (some dataset)).signature = (compare a (some dataset)).signature ∧
      (compare c (some dataset)).overallStatus = (compare a (some dataset)).overallStatus) ∧
    ((compare a (some dataset)).signature = "match" ↔
      (compare a (some dataset)).differenceCount = 0) := by
  refine ⟨?_, sameDisagreement_iff_mem, ?_, ?_⟩
  · rw [compare_some ha, compare_some hb, sameDisagreement_iff]
    simp only [signature_eq_iff hdigest]
    exact ⟨fun h hfindings => (h.mp hfindings).2, fun h => ⟨fun hf => ⟨hf, h hf⟩, And.left⟩⟩
  · intro c hc hperm
    rw [compare_some hc, compare_some ha]
    have hfindings := @findings_of_perm dataset c a hperm
    exact ⟨signature_of_perm hfindings, overallStatus_of_perm hfindings⟩
  · rw [compare_some ha]
    exact (signature_eq_match_iff a).trans List.length_eq_zero_iff.symm

/-- Without exceptional open sessions, equal signatures mean equal disagreements. -/
theorem identified_of_openSessions_eq_nil (hopen : dataset.openSessions = [])
    (ha : a.parseStatus = .ok) (hb : b.parseStatus = .ok) (hdigest : NoCollision dataset a b) :
    (compare a (some dataset)).signature = (compare b (some dataset)).signature ↔
      SameDisagreement dataset a b := by
  have hnone (c : Observation) : timingChanges dataset c = [] := by
    apply List.filter_eq_nil_iff.mpr
    intro d hd hstatus
    obtain ⟨entry, _, hentry⟩ := List.mem_filterMap.mp hd
    unfold disagreementOf at hentry
    split at hentry
    · cases hentry
    · cases hentry
      have hmem := (statusOf_eq_timing_iff entry).mp (of_decide_eq_true hstatus)
      rw [hopen] at hmem
      cases hmem.2.1
  have htimings : SameTimings dataset a b := by
    unfold SameTimings
    rw [hnone, hnone]
  rw [compare_some ha, compare_some hb, sameDisagreement_iff, and_iff_left htimings]
  exact signature_eq_iff hdigest

/-! ## A Sunday that is open -/

theorem sunday_valid : ValidDate 2026 2 1 := by decide

/-- 2026-02-01. -/
def sunday : GregorianDate := ⟨2026, 2, 1, sunday_valid⟩

theorem year_ordered : (20454 : Int) ≤ 20818 := by decide

/-- 2026 with one exceptional session, whose hours are not set. -/
def openSunday : TradingCalendarDataset where
  coverage := ⟨20454, 20818, year_ordered⟩
  closedDates := []
  openSessions := [sunday.dayNumber]
  sessionOverrides := []
  uniqueClosed := List.nodup_nil
  uniqueOpen := List.nodup_singleton _
  uniqueOverrides := List.nodup_nil
  withinCoverage := by decide
  overridesOpen := List.forall_mem_nil _
  disjoint := List.forall_mem_nil _

theorem evening_ordered : 1080 < 1140 := by decide

theorem longEvening_ordered : 1080 < 1200 := by decide

/-- 18:00 to 19:00. -/
def evening : ObservedInterval := ⟨1080, 1140, evening_ordered⟩

/-- 18:00 to 20:00. -/
def longEvening : ObservedInterval := ⟨1080, 1200, longEvening_ordered⟩

/-- The observation that the Sunday is open for an interval. -/
def openAt (interval : ObservedInterval) : Observation where
  source := "dhan_market_holiday"
  sourceYear := some 2026
  parseStatus := .ok
  dates := [⟨sunday, .opened, [interval]⟩]

theorem evening_results :
    resultsOf openSunday (openAt evening) = resultsOf openSunday (openAt longEvening) := by
  decide

theorem evening_noCollision : NoCollision openSunday (openAt evening) (openAt longEvening) := by
  intro _
  rw [canonicalOf, canonicalOf, evening_results]

/-- An evening of one hour and one of two hours have the same signature. -/
theorem longer_evening_unnoticed : ¬ ∀ (dataset : TradingCalendarDataset) (a b : Observation),
    a.parseStatus = .ok → b.parseStatus = .ok → NoCollision dataset a b →
      ((compare a (some dataset)).signature = (compare b (some dataset)).signature ↔
        SameDisagreement dataset a b) := by
  intro h
  have hsignature : (compare (openAt evening) (some openSunday)).signature =
      (compare (openAt longEvening) (some openSunday)).signature := by
    rw [compare_some rfl, compare_some rfl, evening_results]
  have hsame := (h _ _ _ rfl rfl evening_noCollision).mp hsignature
  have hmem := hsame.mem_iff (a := ⟨sunday, .dhanSessionTimingChange, [evening]⟩)
  exact absurd (hmem.mp (by decide)) (by decide)

/-- The two evenings have the same findings and not the same timings. -/
theorem evenings_not_identified : ¬ ((compare (openAt evening) (some openSunday)).signature =
    (compare (openAt longEvening) (some openSunday)).signature ↔
      SameDisagreement openSunday (openAt evening) (openAt longEvening)) := by
  intro h
  have htimings : SameTimings openSunday (openAt evening) (openAt longEvening) :=
    (signature_identifies_iff openSunday (openAt evening) (openAt longEvening) rfl rfl
      evening_noCollision).1.mp h (by decide)
  revert htimings
  unfold SameTimings
  decide

end ApexScan.CalendarMonitor
