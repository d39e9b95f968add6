import ApexScan.Engine.BucketTiling
import ApexScan.Historical.PreviousSession
import ApexScan.Lib.Latest
import Mathlib.Algebra.Order.BigOperators.Group.List

/-!
# What a resolved window covers

`HistoricalRangePlanner.resolve` takes the trading days before the reference date, as many as the
requirement needs: by division over the default session, or, where that meets an open session of its
own hours, day by day over the capacities of the days.

* `Window` — what a resolved window is to be: the latest trading days before the reference date, inside
  the coverage, with enough buckets for the requirement.
* `candleCount_fits` — a capacity is not more than the buckets of its interval, roundings of the
  durations to doubles included.
* `Walked` — what the searches back have collected, for each of the three loops.

Main result: `resolved_window_sufficient`.
-/

set_option autoImplicit false

namespace ApexScan.SufficientWindow

open Lib HistoricalCalendarWindow HistoricalRangePlanner BucketTiling

/-! ## What is to hold -/

/-- A trading day before the anchor. -/
def TradingBefore (calendar : TradingCalendar) (anchor date : Int) : Prop :=
  TradingDay calendar date ∧ date < anchor

section Statement

variable (p : HistoricalRangePlanner)

/-- The live buckets of a date. -/
def bucketsOn (timeframe : Timeframe) (date : Int) : List (Int × Int × Int) :=
  dayBuckets date timeframe (p.effective.intervalsFor date) p.timezone

/-- The hours of a date that a window starts or ends with. -/
def windowHours (timeframe : Timeframe) (date : Int) : TradingInterval :=
  if timeframe.isSession then p.schedule.bounds else p.effective.envelopeFor date

/-- `bounds` are the hours of the latest trading days before the anchor, all in the coverage: as many
    days as a session requirement looks back, or days with as many buckets as an intraday one does. -/
structure Window (r : HistoricalRequirement) (anchor : Int) (dates : List Int) (bounds : Int × Int) :
    Prop where
  latest : LatestOf (TradingBefore p.calendar anchor) dates.reverse
  covered : ∀ d ∈ dates, p.window.coverage.contains d = true
  sessions : r.timeframe.isSession = true → dates.length = r.lookback
  buckets : r.timeframe.isSession = false →
    r.lookback ≤ (dates.flatMap (bucketsOn p r.timeframe)).length
  hours : ∃ first last, dates.head? = some first ∧ dates.getLast? = some last ∧
    bounds = (p.localize first (windowHours p r.timeframe first).start,
      p.localize last (windowHours p r.timeframe last).stop)

end Statement

/-! ## The capacity of an interval -/

/-- The second last of the candles that are counted in a span still starts inside it. -/
theorem candleCount_fits {span width : Int} (hspan : 0 < span) (hday : span < day) (hwidth : 0 < width) :
    ((candleCount span width : Int) - 1) * width < span := by
  set k := ⌊totalSeconds span / totalSeconds width⌋.toNat with hk
  by_cases hone : k ≤ 1
  · have hcount : candleCount span width = 1 := max_eq_right hone
    rw [hcount]
    simpa using hspan
  · have hcount : candleCount span width = k := max_eq_left (by omega)
    rw [hcount]
    have hsecond : (0 : ℚ) < (second.toNat : ℕ) := Nat.cast_pos.mpr (by decide)
    have hspanNear := quotientDouble_near (n := span.toNat) (d := second.toNat) (by omega) (by decide)
    have hwidthNear := quotientDouble_near (n := width.toNat) (d := second.toNat) (by omega) (by decide)
    change |totalSeconds span - _| * 2 ^ 52 ≤ _ at hspanNear
    change |totalSeconds width - _| * 2 ^ 52 ≤ _ at hwidthNear
    set s : ℚ := (span.toNat : ℚ) / second.toNat with hs
    set w : ℚ := (width.toNat : ℚ) / second.toNat with hw
    have hwpos : 0 < w := div_pos (Nat.cast_pos.mpr (by omega)) hsecond
    have hspanLe : totalSeconds span * 2 ^ 52 ≤ s * (2 ^ 52 + 1) := by
      have := le_abs_self (totalSeconds span - s)
      linarith
    have hwidthGe : w * (2 ^ 52 - 1) ≤ totalSeconds width * 2 ^ 52 := by
      have := neg_abs_le (totalSeconds width - w)
      linarith
    have hwidthPos : 0 < totalSeconds width := by
      have : 0 < w * (2 ^ 52 - 1) := mul_pos hwpos (by norm_num)
      linarith
    have hfloor : (k : ℚ) * totalSeconds width ≤ totalSeconds span := by
      rw [← le_div_iff₀ hwidthPos]
      have hnonneg : 0 ≤ ⌊totalSeconds span / totalSeconds width⌋ := by omega
      have hcast : ((k : ℤ) : ℚ) ≤ totalSeconds span / totalSeconds width := by
        rw [hk, Int.toNat_of_nonneg hnonneg]
        exact Int.floor_le _
      exact_mod_cast hcast
    -- the two roundings together, back in microseconds
    have hrounded : (k : ℚ) * w * (2 ^ 52 - 1) ≤ s * (2 ^ 52 + 1) := by
      have := mul_le_mul_of_nonneg_left hwidthGe (Nat.cast_nonneg (α := ℚ) k)
      linarith
    have hmicros : (k : ℚ) * width.toNat * (2 ^ 52 - 1) ≤ span.toNat * (2 ^ 52 + 1) := by
      have hspanEq : (span.toNat : ℚ) = s * second.toNat := (div_mul_cancel₀ _ hsecond.ne').symm
      have hwidthEq : (width.toNat : ℚ) = w * second.toNat := (div_mul_cancel₀ _ hsecond.ne').symm
      rw [hspanEq, hwidthEq]
      have := mul_le_mul_of_nonneg_right hrounded hsecond.le
      linarith
    have hint : (k : Int) * width * (2 ^ 52 - 1) ≤ span * (2 ^ 52 + 1) := by
      have hspanCast : ((span.toNat : Int) : ℚ) = (span : ℚ) := by rw [Int.toNat_of_nonneg hspan.le]
      have hwidthCast : ((width.toNat : Int) : ℚ) = (width : ℚ) := by
        rw [Int.toNat_of_nonneg hwidth.le]
      have hcast : (k : ℚ) * (width : ℚ) * (2 ^ 52 - 1) ≤ (span : ℚ) * (2 ^ 52 + 1) := by
        rw [← hspanCast, ← hwidthCast]
        exact_mod_cast hmicros
      exact_mod_cast hcast
    rw [sub_mul, one_mul]
    unfold day second at hday
    omega

/-- The loop of `session_buckets` makes a bucket for each start inside the interval. -/
theorem le_sessionBucketsLoop_length {z : ZoneInfo} {width close : Int} (hwidth : 0 < width)
    {fuel n : ℕ} (index cursor : Int) (hfuel : n ≤ fuel)
    (hstart : n = 0 ∨ cursor + ((n : Int) - 1) * width < close) :
    n ≤ (sessionBucketsLoop z width close fuel index cursor).length := by
  induction fuel generalizing n index cursor with
  | zero => exact hfuel
  | succ fuel ih =>
    cases n with
    | zero => exact Nat.zero_le _
    | succ n =>
      have hlast : cursor + n * width < close := by
        rcases hstart with hzero | hlast
        · cases hzero
        · simpa using hlast
      have hnonneg := Int.mul_nonneg (Int.natCast_nonneg n) hwidth.le
      unfold sessionBucketsLoop
      rw [if_pos (by omega), List.length_cons]
      refine Nat.succ_le_succ (ih (index + 1) (cursor + width) (by omega) ?_)
      by_cases hn : n = 0
      · exact Or.inl hn
      · right
        rw [sub_mul, one_mul]
        linarith

/-- An interval has as many buckets as its capacity says. -/
theorem candleCount_le_sessionBuckets (d : Int) (interval : TradingInterval) (z : ZoneInfo)
    {width : Int} (hwidth : 0 < width) :
    candleCount (intervalSpan interval) width ≤
      (sessionBuckets d (.intraday width hwidth) interval z).length := by
  have hlt := interval.start_lt_stop
  have hnonneg := interval.nonneg
  have hday := interval.stop_lt
  have hfits := @candleCount_fits (intervalSpan interval) width
    (by unfold intervalSpan; omega) (by unfold intervalSpan; omega) hwidth
  have hspan : combine d interval.stop - combine d interval.start = intervalSpan interval := by
    unfold combine intervalSpan
    omega
  unfold sessionBuckets
  simp only [Timeframe.duration]
  apply le_sessionBucketsLoop_length hwidth
  · have hle : (candleCount (intervalSpan interval) width : Int) - 1 ≤
        intervalSpan interval / width := Int.le_ediv_of_mul_le hwidth hfits.le
    rw [hspan]
    omega
  · right
    omega

theorem candleCount_pos (span width : Int) : 1 ≤ candleCount span width := le_max_right _ _

variable {p : HistoricalRangePlanner}

/-- A date has as many buckets as its capacity says. -/
theorem capacityFor_le_bucketsOn (date : Int) {width : Int} (hwidth : 0 < width) :
    p.capacityFor date width ≤ (bucketsOn p (.intraday width hwidth) date).length := by
  unfold bucketsOn capacityFor
  rw [dayBuckets_eq, numberFrom_length, List.length_map, List.length_flatMap]
  exact List.sum_le_sum fun interval _ => candleCount_le_sessionBuckets date interval _ hwidth

theorem intervalsFor_ne_nil (e : EffectiveSchedule) (date : Int) : e.intervalsFor date ≠ [] := by
  unfold EffectiveSchedule.intervalsFor
  split
  · exact List.cons_ne_nil _ _
  · exact List.cons_ne_nil _ _

/-- Every date has capacity, so the capacity loop advances. -/
theorem capacityFor_pos (date width : Int) : 1 ≤ p.capacityFor date width := by
  obtain ⟨interval, rest, hintervals⟩ :=
    List.exists_cons_of_ne_nil (intervalsFor_ne_nil p.effective date)
  unfold capacityFor
  rw [hintervals, List.map_cons, List.sum_cons]
  have := candleCount_pos (intervalSpan interval) width
  omega

/-! ## The searches back -/

/-- The search ends on one of the days that were left in the coverage. -/
theorem searchBack_bounds {w : HistoricalCalendarWindow} {days : ℕ} {cursor d : Int}
    (h : w.searchBack days cursor = some d) : cursor - days < d ∧ d ≤ cursor := by
  induction days generalizing cursor with
  | zero => cases h
  | succ days ih =>
    rw [searchBack] at h
    split at h
    · obtain rfl := Option.some.inj h
      omega
    · have := ih h
      omega

theorem previousTradingDay_covered {w : HistoricalCalendarWindow} {reference d : Int}
    (h : w.previousTradingDay reference = .ok d) : w.coverage.contains d = true := by
  unfold previousTradingDay at h
  simp only at h
  split at h
  · rename_i date hsearch
    cases h
    obtain ⟨hlow, hhigh⟩ := searchBack_bounds hsearch
    split at hlow
    · rename_i hcontains
      unfold CalendarCoverage.contains at hcontains ⊢
      rw [decide_eq_true_eq] at hcontains ⊢
      omega
    · exact absurd hhigh (by omega)
  · cases h

theorem previousTradingDay_error {w : HistoricalCalendarWindow} {reference : Int} {e : ResolveError}
    (h : w.previousTradingDay reference = .error e) : e = .outsideCalendarCoverage := by
  unfold previousTradingDay at h
  simp only at h
  split at h
  · cases h
  · cases h
    rfl

/-- What a search back from the anchor has collected: the trading days down to the cursor. -/
structure Walked (p : HistoricalRangePlanner) (anchor : Int) (dates : List Int) (cursor : Int) :
    Prop where
  latest : DownTo (TradingBefore p.calendar anchor) cursor dates
  covered : ∀ d ∈ dates, p.window.coverage.contains d = true
  cursor_le : cursor ≤ anchor

variable {anchor : Int} {dates : List Int} {cursor : Int}

theorem walked_nil (p : HistoricalRangePlanner) (anchor : Int) : Walked p anchor [] anchor := by
  refine ⟨DownTo.nil fun d hd => hd.2, ?_, le_refl _⟩
  intro d hd
  cases hd

/-- One day back. -/
theorem Walked.back (h : Walked p anchor dates cursor) {date : Int}
    (hdate : p.window.previousTradingDay cursor = .ok date) :
    Walked p anchor (dates ++ [date]) date := by
  have hlatest := p.window.previousTradingDay_latest hdate
  have hbefore := hlatest.before
  have hle := h.cursor_le
  refine ⟨?_, ?_, by omega⟩
  · exact h.latest.concat ⟨hlatest.holds, by omega⟩ hbefore fun x hx hlt => hlatest.latest x hx.1 hlt
  · intro d hd
    rcases List.mem_append.mp hd with hd | hd
    · exact h.covered d hd
    · rw [List.mem_singleton.mp hd]
      exact previousTradingDay_covered hdate

/-- The loop of `previous_trading_days`. -/
theorem Walked.collectBack (h : Walked p anchor dates cursor) {count : ℕ} {earlier : List Int}
    (hearlier : p.window.collectBack count cursor = .ok earlier) :
    Walked p anchor (dates ++ earlier) (earlier.getLastD cursor) ∧ earlier.length = count := by
  induction count generalizing dates cursor earlier with
  | zero =>
    cases hearlier
    rw [List.append_nil]
    exact ⟨h, rfl⟩
  | succ count ih =>
    obtain ⟨date, hdate, hlater⟩ := bind_eq_ok.mp hearlier
    obtain ⟨rest, hrest, hpure⟩ := bind_eq_ok.mp hlater
    cases hpure
    obtain ⟨hwalked, hlength⟩ := ih (h.back hdate) hrest
    rw [List.append_cons, List.getLastD_cons]
    exact ⟨hwalked, congrArg (· + 1) hlength⟩

theorem guardedPrevious_ok {date : Int} (h : p.guardedPrevious cursor = .ok date) :
    p.window.previousTradingDay cursor = .ok date := by
  obtain ⟨d, hd, h⟩ := bind_eq_ok.mp h
  obtain ⟨_, -, hpure⟩ := bind_eq_ok.mp h
  cases hpure
  exact hd

/-- The margin loop. -/
theorem Walked.collectMargin (h : Walked p anchor dates cursor) {count : ℕ} {earlier : List Int}
    (hearlier : p.collectMargin count cursor = .ok earlier) :
    Walked p anchor (dates ++ earlier) (earlier.getLastD cursor) := by
  induction count generalizing dates cursor earlier with
  | zero =>
    cases hearlier
    rw [List.append_nil]
    exact h
  | succ count ih =>
    obtain ⟨date, hdate, hlater⟩ := bind_eq_ok.mp hearlier
    obtain ⟨rest, hrest, hpure⟩ := bind_eq_ok.mp hlater
    cases hpure
    rw [List.append_cons, List.getLastD_cons]
    exact ih (h.back (guardedPrevious_ok hdate)) hrest

/-- The capacity loop: with as many steps as candles are needed it ends with enough capacity. -/
theorem Walked.collectCapacity (h : Walked p anchor dates cursor) {width : Int} {fuel needed : ℕ}
    {earlier : List Int} (hfuel : needed ≤ fuel)
    (hearlier : p.collectCapacity width fuel needed cursor = .ok earlier) :
    Walked p anchor (dates ++ earlier) (earlier.getLastD cursor) ∧
      needed ≤ (earlier.map fun d => p.capacityFor d width).sum := by
  induction fuel generalizing dates cursor needed earlier with
  | zero =>
    obtain rfl : needed = 0 := Nat.le_zero.mp hfuel
    cases hearlier
    rw [List.append_nil]
    exact ⟨h, Nat.zero_le _⟩
  | succ fuel ih =>
    cases needed with
    | zero =>
      cases hearlier
      rw [List.append_nil]
      exact ⟨h, Nat.zero_le _⟩
    | succ needed =>
      obtain ⟨date, hdate, hlater⟩ := bind_eq_ok.mp hearlier
      obtain ⟨rest, hrest, hpure⟩ := bind_eq_ok.mp hlater
      cases hpure
      have hcapacity := capacityFor_pos (p := p) date width
      obtain ⟨hwalked, henough⟩ := ih (h.back (guardedPrevious_ok hdate)) (by omega) hrest
      rw [List.append_cons, List.getLastD_cons, List.map_cons, List.sum_cons]
      exact ⟨hwalked, by omega⟩

/-! ## The errors -/

theorem collectBack_error {w : HistoricalCalendarWindow} {count : ℕ} {e : ResolveError}
    (h : w.collectBack count cursor = .error e) : e = .outsideCalendarCoverage := by
  induction count generalizing cursor with
  | zero => cases h
  | succ count ih =>
    unfold HistoricalCalendarWindow.collectBack at h
    cases hdate : w.previousTradingDay cursor with
    | error e' =>
      rw [hdate] at h
      cases h
      exact previousTradingDay_error hdate
    | ok date =>
      cases hrest : w.collectBack count date with
      | error e' =>
        rw [hdate] at h
        simp only [hrest, bind, Except.bind] at h
        cases h
        exact ih hrest
      | ok rest =>
        rw [hdate] at h
        simp only [hrest, bind, Except.bind] at h
        cases h

/-- A requirement of sessions does not need the hours of a day. -/
theorem resolve_error {r : HistoricalRequirement} {reference : Int} {e : ResolveError}
    (h : p.resolve r reference = .error e) :
    e = .outsideCalendarCoverage ∨ e = .missingSessionTiming ∧ r.timeframe.isSession = false := by
  cases e with
  | outsideCalendarCoverage => exact Or.inl rfl
  | missingSessionTiming =>
    refine Or.inr ⟨rfl, ?_⟩
    by_contra hsession
    rw [Bool.not_eq_false] at hsession
    unfold resolve previousTradingDays at h
    simp only at h
    cases hdates : p.window.collectBack (p.sessionsNeeded r) (p.localDate reference) with
    | error e =>
      rw [hdates, collectBack_error hdates] at h
      cases h
    | ok dates =>
      rw [hdates] at h
      simp only [hsession, true_or, if_true] at h
      cases h

/-! ## The two ways to resolve -/

/-- Collected days in order, with their hours, make a window where they suffice. -/
theorem Walked.window {r : HistoricalRequirement} {collected : List Int}
    (h : Walked p anchor collected cursor)
    (hsessions : r.timeframe.isSession = true → collected.length = r.lookback)
    (hbuckets : r.timeframe.isSession = false →
      r.lookback ≤ (collected.flatMap (bucketsOn p r.timeframe)).length) :
    Window p r anchor collected.reverse
      (p.localize (collected.reverse.headD 0)
          (windowHours p r.timeframe (collected.reverse.headD 0)).start,
        p.localize (collected.reverse.getLastD 0)
          (windowHours p r.timeframe (collected.reverse.getLastD 0)).stop) := by
  have hpos := r.lookback_pos
  have hne : collected.reverse ≠ [] := by
    intro hnil
    rw [List.reverse_eq_nil_iff] at hnil
    subst hnil
    cases hsession : r.timeframe.isSession with
    | true =>
      have := hsessions hsession
      simp only [List.length_nil] at this
      omega
    | false =>
      have := hbuckets hsession
      simp only [List.flatMap_nil, List.length_nil] at this
      omega
  refine ⟨?_, ?_, ?_, ?_, ?_⟩
  · rw [List.reverse_reverse]
    exact h.latest.latestOf
  · intro d hd
    exact h.covered d (List.mem_reverse.mp hd)
  · intro hsession
    rw [List.length_reverse]
    exact hsessions hsession
  · intro hintraday
    rw [((List.reverse_perm collected).flatMap_right _).length_eq]
    exact hbuckets hintraday
  · refine ⟨collected.reverse.head hne, collected.reverse.getLast hne, List.head?_eq_some_head hne,
      List.getLast?_eq_some_getLast hne, ?_⟩
    rw [List.headD_eq_head?_getD, List.head?_eq_some_head hne, List.getLastD_eq_getLast?,
      List.getLast?_eq_some_getLast hne]
    rfl

/-- The days of the division over the default session suffice where none has hours of its own. -/
theorem sessionsNeeded_sufficient {r : HistoricalRequirement} {collected : List Int}
    (hlength : collected.length = p.sessionsNeeded r)
    (hordinary : ∀ d ∈ collected, p.effective.override? d = none)
    (hintraday : r.timeframe.isSession = false) :
    r.lookback ≤ (collected.flatMap (bucketsOn p r.timeframe)).length := by
  set perSession := p.candlesPerSession r.timeframe with hper
  have hpos : 1 ≤ perSession := candleCount_pos _ _
  have hdays : ∀ d ∈ collected, perSession ≤ (bucketsOn p r.timeframe d).length := by
    intro d hd
    cases hframe : r.timeframe with
    | session =>
      rw [hframe] at hintraday
      cases hintraday
    | intraday width pos =>
      refine le_trans (le_of_eq ?_) (capacityFor_le_bucketsOn d pos)
      unfold capacityFor EffectiveSchedule.intervalsFor
      rw [hordinary d hd, hper, hframe]
      exact (Nat.add_zero _).symm
  have hneeded : r.lookback ≤ collected.length * perSession := by
    rw [hlength, sessionsNeeded, hintraday]
    simp only [Bool.false_eq_true, if_false]
    have hceil : r.lookback ≤ (r.lookback + perSession - 1) / perSession * perSession := by
      have := Nat.lt_div_mul_add (a := r.lookback + perSession - 1) hpos
      omega
    exact hceil.trans (Nat.mul_le_mul_right _ (Nat.le_add_right _ _))
  refine hneeded.trans ?_
  rw [List.length_flatMap]
  have hsum := List.card_nsmul_le_sum (collected.map fun d => (bucketsOn p r.timeframe d).length)
    perSession (by
      intro n hn
      obtain ⟨d, hd, rfl⟩ := List.mem_map.mp hn
      exact hdays d hd)
  rwa [List.length_map, nsmul_eq_mul, Nat.cast_id] at hsum

/-- The days of the capacity loop suffice, and more days do not hurt. -/
theorem capacity_sufficient {r : HistoricalRequirement} {met : List Int} (extra : List Int)
    (henough : r.lookback ≤
      (met.map fun d => p.capacityFor d (intervalForTimeframe r.timeframe)).sum)
    (hintraday : r.timeframe.isSession = false) :
    r.lookback ≤ ((met ++ extra).flatMap (bucketsOn p r.timeframe)).length := by
  cases hframe : r.timeframe with
  | session =>
    rw [hframe] at hintraday
    cases hintraday
  | intraday width pos =>
    rw [hframe] at henough
    have hdays : (met.map fun d => p.capacityFor d width).sum ≤
        (met.flatMap (bucketsOn p (.intraday width pos))).length := by
      rw [List.length_flatMap]
      exact List.sum_le_sum fun d _ => capacityFor_le_bucketsOn d pos
    rw [List.flatMap_append, List.length_append]
    exact henough.trans (hdays.trans (Nat.le_add_right _ _))

/-- An ordinary date has the default hours. -/
theorem override?_eq_none {e : EffectiveSchedule} {calendar : TradingCalendar}
    (hoverrides : ∀ o ∈ e.overrides, o.tradingDate ∈ calendar.openSessions) {date : Int}
    (hdate : date ∉ calendar.openSessions) : e.override? date = none := by
  unfold EffectiveSchedule.override?
  rw [List.find?_eq_none]
  intro o ho heq
  exact hdate (beq_iff_eq.mp heq ▸ hoverrides o ho)

/-- The resolution over the default session. -/
theorem default_window {r : HistoricalRequirement} {collected : List Int}
    (hoverrides : ∀ o ∈ p.effective.overrides, o.tradingDate ∈ p.calendar.openSessions)
    (hcollected : p.window.collectBack (p.sessionsNeeded r) anchor = .ok collected)
    (hdefault : r.timeframe.isSession = true ∨
      collected.reverse.filter (· ∈ p.calendar.openSessions) = []) :
    Window p r anchor collected.reverse (p.localizeDefault collected.reverse) := by
  obtain ⟨hwalked, hlength⟩ := (walked_nil p anchor).collectBack hcollected
  rw [List.nil_append] at hwalked
  cases hsession : r.timeframe.isSession with
  | true =>
    have hneeded : p.sessionsNeeded r = r.lookback := by
      unfold sessionsNeeded
      rw [hsession, if_pos rfl]
    have hwindow := hwalked.window (r := r) (fun _ => hlength.trans hneeded) fun h => by
      rw [hsession] at h
      cases h
    simp only [windowHours, hsession, if_true] at hwindow
    exact hwindow
  | false =>
    have hspecial : ∀ d ∈ collected, d ∉ p.calendar.openSessions := by
      rw [hsession] at hdefault
      intro d hd hopen
      have hnil := hdefault.resolve_left Bool.false_ne_true
      exact List.filter_eq_nil_iff.mp hnil d (List.mem_reverse.mpr hd) (decide_eq_true hopen)
    have hordinary : ∀ d ∈ collected, p.effective.override? d = none :=
      fun d hd => override?_eq_none hoverrides (hspecial d hd)
    have hwindow := hwalked.window (r := r) (fun h => by
      rw [hsession] at h
      cases h) (sessionsNeeded_sufficient hlength hordinary)
    obtain ⟨first, last, hfirst, hlast, -⟩ := hwindow.hours
    have hhours : ∀ d ∈ collected.reverse, windowHours p r.timeframe d = p.schedule.bounds := by
      intro d hd
      unfold windowHours EffectiveSchedule.envelopeFor
      rw [hsession, hordinary d (List.mem_reverse.mp hd)]
      rfl
    have hfirstHours := hhours first (List.mem_of_mem_head? hfirst)
    have hlastHours := hhours last (List.mem_of_mem_getLast? hlast)
    have hhead : collected.reverse.headD 0 = first := by rw [List.headD_eq_head?_getD, hfirst]; rfl
    have hlastD : collected.reverse.getLastD 0 = last := by
      rw [List.getLastD_eq_getLast?, hlast]
      rfl
    rw [hhead, hlastD, hfirstHours, hlastHours] at hwindow
    unfold localizeDefault
    rw [hhead, hlastD]
    exact hwindow

/-- The resolution over the hours of the days. -/
theorem special_window {r : HistoricalRequirement} {bounds : Int × Int}
    (hintraday : r.timeframe.isSession = false)
    (h : p.resolveIntradayOverSpecial r anchor = .ok bounds) :
    ∃ dates, Window p r anchor dates bounds := by
  obtain ⟨met, hmet, h⟩ := bind_eq_ok.mp h
  obtain ⟨extra, hextra, h⟩ := bind_eq_ok.mp h
  cases h
  obtain ⟨hwalked, henough⟩ := (walked_nil p anchor).collectCapacity (le_refl _) hmet
  rw [List.nil_append] at hwalked
  have hwindow := (hwalked.collectMargin hextra).window (r := r) (fun hs => by
    rw [hintraday] at hs
    cases hs) (capacity_sufficient extra henough)
  simp only [windowHours, hintraday, Bool.false_eq_true, if_false] at hwindow
  exact ⟨_, hwindow⟩

/-- **A resolved window is sufficient and ends before the reference date**, where overrides belong to
    open sessions; the calendar's coverage and, for an intraday requirement, missing hours of a day are
    the only reasons not to resolve. -/
theorem resolved_window_sufficient (p : HistoricalRangePlanner)
    (hoverrides : ∀ o ∈ p.effective.overrides, o.tradingDate ∈ p.calendar.openSessions)
    (r : HistoricalRequirement) (reference : Int) :
    (∀ bounds, p.resolve r reference = .ok bounds →
      ∃ dates, Window p r (p.localDate reference) dates bounds) ∧
    ∀ error, p.resolve r reference = .error error → error = .outsideCalendarCoverage ∨
      error = .missingSessionTiming ∧ r.timeframe.isSession = false := by
  refine ⟨?_, fun error => resolve_error⟩
  intro bounds h
  unfold resolve previousTradingDays at h
  obtain ⟨dates, hdates, h⟩ := bind_eq_ok.mp h
  obtain ⟨collected, hcollected, rfl⟩ := map_eq_ok.mp hdates
  simp only at h
  split at h
  · rename_i hdefault
    cases h
    exact ⟨_, default_window hoverrides hcollected hdefault⟩
  · rename_i hspecial
    obtain ⟨_, -, h⟩ := bind_eq_ok.mp h
    exact special_window (Bool.eq_false_iff.mpr fun hsession => hspecial (Or.inl hsession)) h

/-- A session of an hour on the evening of Saturday 2026-01-03. -/
def eveningSession : TradingSessionOverride where
  tradingDate := 20456
  first := { start := 1080 * minute, stop := 1140 * minute, nonneg := by decide,
             start_lt_stop := by decide, stop_lt := by decide }
  rest := []
  gapped := trivial

/-- The coverage of the calendar is not empty. -/
theorem covered_days : (20454 : Int) ≤ 20818 := by decide

/-- The default planner with that session. -/
def eveningPlanner : HistoricalRangePlanner where
  effective := { default := nseSchedule, overrides := [eveningSession],
                 distinct := List.nodup_singleton _ }
  timezoneName := "Asia/Kolkata"
  timezone := kolkata
  window := { calendar := { closedDates := [], openSessions := [20456], disjoint := by simp }
              coverage := ⟨20454, 20818, covered_days⟩ }

/-- Twenty candles of five minutes, as of Monday 10:00: the evening has twelve of them. -/
theorem resolved_window_sample :
    let r : HistoricalRequirement := ⟨Timeframe.minutes 5 (by decide), 20, by decide⟩
    let reference := kolkata.toUtc (combine 20458 (600 * minute))
    ∃ bounds dates, eveningPlanner.resolve r reference = .ok bounds ∧
      Window eveningPlanner r (eveningPlanner.localDate reference) dates bounds := by
  intro r reference
  have hresolved : eveningPlanner.resolve r reference =
      .ok (kolkata.toUtc (combine 20454 (555 * minute)), kolkata.toUtc (combine 20456 (1140 * minute))) := by
    decide +kernel
  obtain ⟨dates, hwindow⟩ :=
    (resolved_window_sufficient eveningPlanner (by decide) r reference).1 _ hresolved
  exact ⟨_, dates, hresolved, hwindow⟩

end ApexScan.SufficientWindow
