import ApexScan.Historical.Source
import ApexScan.Lib.Rounding
import Mathlib.Data.Rat.Floor

/-!
# Trading-day windows (`historical/calendar_window.py`, `HistoricalRangePlanner` of `service.py`)

* `HistoricalCalendarWindow` — previous trading days inside the authoritative coverage.
* `HistoricalRangePlanner.resolve` — the fetch window of a requirement over completed sessions.

The searches of the source go back day by day; they are written by recursion on the days that are
left in the coverage, and on the lookback that is still to be met.
-/

set_option autoImplicit false

namespace ApexScan

open Lib

/-- Why a window cannot be resolved. -/
inductive ResolveError where
  | outsideCalendarCoverage
  | missingSessionTiming
  deriving DecidableEq, Repr

/-! ## Previous trading days -/

structure HistoricalCalendarWindow where
  calendar : TradingCalendar
  coverage : CalendarCoverage

namespace HistoricalCalendarWindow

/-- The loop of `previous_trading_day`, over the `days` of coverage that end at `cursor`. -/
def searchBack (w : HistoricalCalendarWindow) : ℕ → Int → Option Int
  | 0, _ => none
  | days + 1, cursor =>
    if w.calendar.isTradingDay cursor then some cursor else w.searchBack days (cursor - 1)

/-- `previous_trading_day`. -/
def previousTradingDay (w : HistoricalCalendarWindow) (reference : Int) :
    Except ResolveError Int :=
  let cursor := reference - 1
  let days := if w.coverage.contains cursor then (cursor - w.coverage.startDate + 1).toNat else 0
  match w.searchBack days cursor with
  | some date => .ok date
  | none => .error .outsideCalendarCoverage

/-- The loop of `previous_trading_days`, newest first. -/
def collectBack (w : HistoricalCalendarWindow) : ℕ → Int → Except ResolveError (List Int)
  | 0, _ => .ok []
  | count + 1, cursor => do
    let date ← w.previousTradingDay cursor
    let earlier ← w.collectBack count date
    return date :: earlier

/-- `previous_trading_days`, oldest first, for a positive count. -/
def previousTradingDays (w : HistoricalCalendarWindow) (reference : Int) (count : ℕ) :
    Except ResolveError (List Int) :=
  List.reverse <$> w.collectBack count reference

end HistoricalCalendarWindow

/-! ## The planner -/

/-- `total_seconds()` of a positive duration, as a double. -/
def totalSeconds (duration : Int) : ℚ := quotientDouble duration.toNat second.toNat

/-- How many candles of a width fit, at least one. -/
def candleCount (span width : Int) : ℕ := max ⌊totalSeconds span / totalSeconds width⌋.toNat 1

structure HistoricalRangePlanner where
  effective : EffectiveSchedule
  timezoneName : String
  timezone : ZoneInfo
  window : HistoricalCalendarWindow
  margin : ℕ := 1

namespace HistoricalRangePlanner

variable (p : HistoricalRangePlanner)

def schedule : SessionSchedule := p.effective.default

def calendar : TradingCalendar := p.window.calendar

/-- `anchor_date`, `local_date`. -/
def localDate (instant : Int) : Int := wallDate (p.timezone.toLocal instant)

/-- `_localize`. -/
def localize (date moment : Int) : Int := p.timezone.toUtc (combine date moment)

/-- `newest_completed_session`. -/
def newestCompletedSession (reference : Int) : Except ResolveError Int :=
  p.window.previousTradingDay (p.localDate reference)

/-- `_interval_seconds`, still in microseconds. -/
def intervalSpan (interval : TradingInterval) : Int := interval.stop - interval.start

/-- `_candles_per_session`. -/
def candlesPerSession (timeframe : Timeframe) : ℕ :=
  candleCount (intervalSpan p.schedule.bounds) (intervalForTimeframe timeframe)

/-- `_sessions_needed`. -/
def sessionsNeeded (r : HistoricalRequirement) : ℕ :=
  if r.timeframe.isSession then r.lookback
  else
    let perSession := p.candlesPerSession r.timeframe
    (r.lookback + perSession - 1) / perSession + p.margin

/-- `_capacity_for`. -/
def capacityFor (date : Int) (width : Int) : ℕ :=
  ((p.effective.intervalsFor date).map fun interval => candleCount (intervalSpan interval) width).sum

/-- `_guard_special`. -/
def guardSpecial (date : Int) : Except ResolveError Unit :=
  if date ∈ p.calendar.openSessions ∧ p.effective.hasOverride date = false then
    .error .missingSessionTiming
  else .ok ()

/-- One step back in `_resolve_intraday_over_special`. -/
def guardedPrevious (cursor : Int) : Except ResolveError Int := do
  let date ← p.window.previousTradingDay cursor
  p.guardSpecial date
  return date

/-- The capacity loop, newest first.  Each date has capacity, so `fuel = needed` steps are enough. -/
def collectCapacity (width : Int) : ℕ → ℕ → Int → Except ResolveError (List Int)
  | _, 0, _ => .ok []
  | 0, _, _ => .ok []
  | fuel + 1, needed, cursor => do
    let date ← p.guardedPrevious cursor
    let earlier ← collectCapacity width fuel (needed - p.capacityFor date width) date
    return date :: earlier

/-- The margin loop, newest first. -/
def collectMargin : ℕ → Int → Except ResolveError (List Int)
  | 0, _ => .ok []
  | count + 1, cursor => do
    let date ← p.guardedPrevious cursor
    let earlier ← collectMargin count date
    return date :: earlier

/-- `_localize_default`, for a list that is not empty. -/
def localizeDefault (dates : List Int) : Int × Int :=
  (p.localize (dates.headD 0) p.schedule.regularOpen,
   p.localize (dates.getLastD 0) p.schedule.regularClose)

/-- `_resolve_intraday_over_special`. -/
def resolveIntradayOverSpecial (r : HistoricalRequirement) (anchor : Int) :
    Except ResolveError (Int × Int) := do
  let met ← p.collectCapacity (intervalForTimeframe r.timeframe) r.lookback r.lookback anchor
  let extra ← p.collectMargin p.margin (met.getLastD anchor)
  let dates := (met ++ extra).reverse
  let first := dates.headD 0
  let last := dates.getLastD 0
  return (p.localize first (p.effective.envelopeFor first).start,
    p.localize last (p.effective.envelopeFor last).stop)

/-- `resolve`. -/
def resolve (r : HistoricalRequirement) (reference : Int) : Except ResolveError (Int × Int) := do
  let anchor := p.localDate reference
  let dates ← p.window.previousTradingDays anchor (p.sessionsNeeded r)
  let special := dates.filter (· ∈ p.calendar.openSessions)
  if r.timeframe.isSession ∨ special = [] then
    return p.localizeDefault dates
  else
    special.forM p.guardSpecial
    p.resolveIntradayOverSpecial r anchor

end HistoricalRangePlanner

end ApexScan
