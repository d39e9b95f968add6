import ApexScan.Engine.Session
import ApexScan.Lib.Latest
import Mathlib.Data.Finset.Sort
import Mathlib.Data.List.Sort

/-!
# Coverage of stored history (`app/market_history/coverage.py`, `HistoricalService.coverage`)

The stored dates of an instrument are compared with the latest trading dates of the calendar, which are
found by a walk back that ends after a fixed number of calendar days.

* `requiredTradingDates`, `previousTradingDate` — the two walks; the second one raises at its end, the
  first one returns what it has.
* `HistoricalCoverage`, `computeCoverage`, `coverage`.
* `windowDates` — the trading dates that the walk can reach.
* `HistoryStored` — what a complete coverage is to say.

Main result: `complete_coverage_iff`.  `complete_without_history` is a requirement that the walk cuts short.

Dates are day numbers without the bounds of a `date`; the store and the metrics of the service are left
out.
-/

set_option autoImplicit false

namespace ApexScan.MarketHistory

open Lib

/-! ## The walks -/

/-- `_MAX_CALENDAR_LOOKBACK_DAYS`. -/
def maxCalendarLookbackDays : ℕ := 3660

/-- The loop of `required_trading_dates`, with the days that it may still take. -/
def collectTradingDates (calendar : TradingCalendar) (tradingDays : ℕ) :
    ℕ → List Int → Int → List Int
  | 0, collected, _ => collected
  | budget + 1, collected, cursor =>
    if tradingDays ≤ collected.length then collected
    else
      let collected := if calendar.isTradingDay cursor then collected ++ [cursor] else collected
      collectTradingDates calendar tradingDays budget collected (cursor - 1)

/-- `required_trading_dates`, for a count that is not negative. -/
def requiredTradingDates (calendar : TradingCalendar) (asOf : Int) (tradingDays : ℕ) : List Int :=
  (collectTradingDates calendar tradingDays maxCalendarLookbackDays [] asOf).insertionSort (· ≤ ·)

/-- The loop of `previous_trading_date`; `none` is its `ValueError`. -/
def searchTradingDate (calendar : TradingCalendar) : ℕ → Int → Option Int
  | 0, _ => none
  | budget + 1, cursor =>
    if calendar.isTradingDay cursor then some cursor
    else searchTradingDate calendar budget (cursor - 1)

/-- `previous_trading_date`. -/
def previousTradingDate (calendar : TradingCalendar) (before : Int) : Option Int :=
  searchTradingDate calendar maxCalendarLookbackDays (before - 1)

/-! ## Coverage -/

/-- `HistoryRequirement`. -/
structure HistoryRequirement where
  tradingDays : ℕ
  tradingDays_pos : 1 ≤ tradingDays

structure HistoricalCoverage where
  instrumentIdentity : String
  requiredDates : List Int
  availableDates : List Int

namespace HistoricalCoverage

/-- `missing_dates`. -/
def missingDates (c : HistoricalCoverage) : List Int :=
  c.requiredDates.filter fun d => d ∉ c.availableDates

/-- `is_complete`. -/
def isComplete (c : HistoricalCoverage) : Bool := c.missingDates.isEmpty

/-- `required_count`. -/
def requiredCount (c : HistoricalCoverage) : ℕ := c.requiredDates.length

/-- `available_count`. -/
def availableCount (c : HistoricalCoverage) : ℕ := c.requiredCount - c.missingDates.length

/-- `earliest_available`. -/
def earliestAvailable (c : HistoricalCoverage) : Option Int :=
  (c.requiredDates.filter fun d => d ∈ c.availableDates).head?

/-- `latest_available`. -/
def latestAvailable (c : HistoricalCoverage) : Option Int :=
  (c.requiredDates.filter fun d => d ∈ c.availableDates).getLast?

end HistoricalCoverage

/-- `compute_coverage`. -/
def computeCoverage (instrumentIdentity : String) (requiredDates storedDates : List Int) :
    HistoricalCoverage where
  instrumentIdentity := instrumentIdentity
  requiredDates := requiredDates
  availableDates := storedDates.dedup.insertionSort (· ≤ ·)

/-- `HistoricalService.coverage`, with the dates that the store has. -/
def coverage (calendar : TradingCalendar) (instrumentIdentity : String)
    (requirement : HistoryRequirement) (asOf : Int) (storedDates : List Int) : HistoricalCoverage :=
  computeCoverage instrumentIdentity
    (requiredTradingDates calendar asOf requirement.tradingDays) storedDates

theorem isComplete_iff (identity : String) (required stored : List Int) :
    (computeCoverage identity required stored).isComplete = true ↔ ∀ d ∈ required, d ∈ stored := by
  unfold HistoricalCoverage.isComplete HistoricalCoverage.missingDates computeCoverage
  rw [List.isEmpty_iff, List.filter_eq_nil_iff]
  simp

/-- The two counts of a coverage agree exactly when it is complete. -/
theorem availableCount_eq_iff (c : HistoricalCoverage) :
    c.availableCount = c.requiredCount ↔ c.isComplete = true := by
  have hle : c.missingDates.length ≤ c.requiredCount := List.length_filter_le _ _
  unfold HistoricalCoverage.availableCount HistoricalCoverage.isComplete
  rw [List.isEmpty_iff_length_eq_zero]
  have hpos : c.requiredCount = 0 → c.missingDates.length = 0 := by omega
  omega

/-! ## What the walk finds -/

/-- A trading date of the calendar that is not after `asOf`. -/
def TradingUpTo (calendar : TradingCalendar) (asOf date : Int) : Prop :=
  calendar.isTradingDay date = true ∧ date ≤ asOf

/-- The trading dates among the last calendar days that the walk may take. -/
def windowDates (calendar : TradingCalendar) (asOf : Int) : Finset Int :=
  (((List.range maxCalendarLookbackDays).map fun back : ℕ => asOf - back).filter
    calendar.isTradingDay).toFinset

theorem mem_windowDates {calendar : TradingCalendar} {asOf d : Int} :
    d ∈ windowDates calendar asOf ↔
      TradingUpTo calendar asOf d ∧ asOf - maxCalendarLookbackDays < d := by
  simp only [windowDates, List.mem_toFinset, List.mem_filter, List.mem_map, List.mem_range, TradingUpTo]
  constructor
  · rintro ⟨⟨back, hback, rfl⟩, htrading⟩
    exact ⟨⟨htrading, by omega⟩, by omega⟩
  · rintro ⟨⟨htrading, hle⟩, hlt⟩
    exact ⟨⟨(asOf - d).toNat, by omega, by omega⟩, htrading⟩

theorem card_windowDates_le (calendar : TradingCalendar) (asOf : Int) :
    (windowDates calendar asOf).card ≤ maxCalendarLookbackDays := by
  unfold windowDates
  refine (List.toFinset_card_le _).trans ((List.length_filter_le _ _).trans ?_)
  rw [List.length_map, List.length_range]

variable {calendar : TradingCalendar} {asOf : Int} {tradingDays : ℕ}

/-- What the walk has collected: the trading dates above the cursor. -/
structure Collected (calendar : TradingCalendar) (asOf : Int) (tradingDays : ℕ)
    (collected : List Int) (cursor : Int) : Prop where
  dates : DownTo (TradingUpTo calendar asOf) (cursor + 1) collected
  length_le : collected.length ≤ tradingDays

/-- One day of the walk. -/
theorem Collected.day {collected : List Int} {cursor : Int}
    (h : Collected calendar asOf tradingDays collected cursor) (hcursor : cursor ≤ asOf)
    (hless : collected.length < tradingDays) :
    Collected calendar asOf tradingDays
      (if calendar.isTradingDay cursor then collected ++ [cursor] else collected) (cursor - 1) := by
  by_cases htrading : calendar.isTradingDay cursor = true
  · rw [if_pos htrading]
    refine ⟨?_, ?_⟩
    · rw [sub_add_cancel]
      exact h.dates.concat ⟨htrading, hcursor⟩ (by omega) fun x _ hlt => by omega
    · rw [List.length_append, List.length_singleton]
      omega
  · rw [if_neg htrading]
    refine ⟨h.dates.lower (by omega) ?_, h.length_le⟩
    intro d hd hle
    have hne : d ≠ cursor := by
      rintro rfl
      exact htrading hd.1
    omega

/-- The walk ends with the count that is asked for, or with every trading date it could reach. -/
theorem collectTradingDates_spec {budget : ℕ} {collected : List Int} {cursor : Int}
    (h : Collected calendar asOf tradingDays collected cursor) (hcursor : cursor ≤ asOf) :
    ∃ last, cursor - budget ≤ last ∧
      Collected calendar asOf tradingDays
        (collectTradingDates calendar tradingDays budget collected cursor) last ∧
      ((collectTradingDates calendar tradingDays budget collected cursor).length = tradingDays ∨
        last = cursor - budget) := by
  induction budget generalizing collected cursor with
  | zero => exact ⟨cursor, by simp, h, Or.inr (by simp)⟩
  | succ budget ih =>
    unfold collectTradingDates
    split
    · rename_i henough
      exact ⟨cursor, by omega, h, Or.inl (le_antisymm h.length_le henough)⟩
    · rename_i hless
      obtain ⟨last, hle, hcollected, hend⟩ := ih (h.day hcursor (by omega)) (by omega)
      refine ⟨last, by omega, hcollected, ?_⟩
      rcases hend with hend | hend
      · exact Or.inl hend
      · exact Or.inr (by omega)

theorem collected_nil (calendar : TradingCalendar) (asOf : Int) (tradingDays : ℕ) :
    Collected calendar asOf tradingDays [] asOf := by
  refine ⟨DownTo.nil ?_, Nat.zero_le _⟩
  intro d hd
  have := hd.2
  omega

/-- The walk collects the latest dates, and as many as required where its window has them. -/
theorem required_latest (calendar : TradingCalendar) (asOf : Int) (tradingDays : ℕ) :
    ∃ ds, LatestOf (TradingUpTo calendar asOf) ds ∧
      (requiredTradingDates calendar asOf tradingDays).Perm ds ∧ ds.length ≤ tradingDays ∧
      (ds.length = tradingDays ↔ tradingDays ≤ (windowDates calendar asOf).card) := by
  obtain ⟨last, hle, hcollected, hend⟩ := @collectTradingDates_spec calendar asOf tradingDays
    maxCalendarLookbackDays [] asOf (collected_nil calendar asOf tradingDays) (le_refl asOf)
  have hwindow : ∀ d ∈ collectTradingDates calendar tradingDays maxCalendarLookbackDays [] asOf,
      d ∈ windowDates calendar asOf := by
    intro d hd
    obtain ⟨htrading, habove⟩ := (hcollected.dates.mem_iff d).mp hd
    exact mem_windowDates.mpr ⟨htrading, by omega⟩
  have hlatest := hcollected.dates.latestOf
  refine ⟨_, hlatest, List.perm_insertionSort _ _, hcollected.length_le, ?_⟩
  have hnodup := hlatest.nodup
  constructor
  · intro hlength
    rw [← hlength, ← List.toFinset_card_of_nodup hnodup]
    exact Finset.card_le_card fun d hd => hwindow d (List.mem_toFinset.mp hd)
  · intro hcount
    rcases hend with hend | hend
    · exact hend
    · have hsub : windowDates calendar asOf ⊆
          (collectTradingDates calendar tradingDays maxCalendarLookbackDays [] asOf).toFinset := by
        intro d hd
        obtain ⟨htrading, hlt⟩ := mem_windowDates.mp hd
        exact List.mem_toFinset.mpr ((hcollected.dates.mem_iff d).mpr ⟨htrading, by omega⟩)
      have hcard := Finset.card_le_card hsub
      rw [List.toFinset_card_of_nodup hnodup] at hcard
      have := hcollected.length_le
      omega

/-! ## What a complete coverage says -/

/-- The latest trading dates up to `asOf`, as many as required, exist and are stored. -/
def HistoryStored (calendar : TradingCalendar) (requirement : HistoryRequirement) (asOf : Int)
    (storedDates : List Int) : Prop :=
  ∃ ds, ds.length = requirement.tradingDays ∧ LatestOf (TradingUpTo calendar asOf) ds ∧
    ∀ d ∈ ds, d ∈ storedDates

/-- **A complete coverage means that the required history is stored, whatever is stored, exactly when the
    window of the walk has as many trading dates as are required.** -/
theorem complete_coverage_iff (calendar : TradingCalendar) (identity : String)
    (requirement : HistoryRequirement) (asOf : Int) :
    (∀ storedDates, (coverage calendar identity requirement asOf storedDates).isComplete = true →
      HistoryStored calendar requirement asOf storedDates) ↔
    requirement.tradingDays ≤ (windowDates calendar asOf).card := by
  obtain ⟨required, hlatest, hperm, hle, hlength⟩ :=
    required_latest calendar asOf requirement.tradingDays
  have hcomplete (storedDates : List Int) :
      (coverage calendar identity requirement asOf storedDates).isComplete = true ↔
        ∀ d ∈ required, d ∈ storedDates := by
    unfold coverage
    rw [isComplete_iff]
    exact ⟨fun h d hd => h d (hperm.mem_iff.mpr hd), fun h d hd => h d (hperm.mem_iff.mp hd)⟩
  constructor
  · intro hsound
    -- a store that has the dates of the walk and no others
    obtain ⟨ds, hcount, hds, hstored⟩ := hsound required ((hcomplete required).mpr fun _ hd => hd)
    have hmost : ds.length ≤ required.length := (List.subperm_of_subset hds.nodup hstored).length_le
    exact hlength.mp (by omega)
  · intro hcount storedDates hstored
    exact ⟨required, hlength.mpr hcount, hlatest, (hcomplete storedDates).mp hstored⟩

/-- More trading dates than the walk has days. -/
def longRequirement : HistoryRequirement := ⟨maxCalendarLookbackDays + 1, Nat.succ_pos _⟩

/-- On the default calendar the coverage of a long requirement is complete with the dates of the walk
    alone, which are too few. -/
theorem complete_without_history :
    ∃ storedDates : List Int,
      (coverage nseClassifier.calendar "NSE:RELIANCE" longRequirement 20000 storedDates).isComplete =
        true ∧
      storedDates.dedup.length < longRequirement.tradingDays ∧
      ¬ HistoryStored nseClassifier.calendar longRequirement 20000 storedDates := by
  obtain ⟨required, hlatest, hperm, hle, hlength⟩ :=
    required_latest nseClassifier.calendar 20000 longRequirement.tradingDays
  have hcard := card_windowDates_le nseClassifier.calendar 20000
  have hfew : required.length < longRequirement.tradingDays := by
    have hshort : longRequirement.tradingDays = maxCalendarLookbackDays + 1 := rfl
    refine lt_of_le_of_ne hle fun heq => ?_
    have := hlength.mp heq
    omega
  refine ⟨required, ?_, ?_, ?_⟩
  · unfold coverage
    rw [isComplete_iff]
    exact fun d hd => hperm.mem_iff.mp hd
  · rwa [hlatest.nodup.dedup]
  · rintro ⟨ds, hcount, hds, hstored⟩
    have := (List.subperm_of_subset hds.nodup hstored).length_le
    omega

end ApexScan.MarketHistory
