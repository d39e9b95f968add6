import ApexScan.Schemas.MarketData

/-!
# Timeframes, exchange sessions and the trading calendar

Models `app/market_engine/timeframe.py`, `app/market_engine/session.py` and
`CalendarCoverage` of `app/market_engine/historical/calendar_window.py`.

* `Timeframe` — an intraday duration (strictly positive) or the whole session.
* `ZoneInfo` — an exchange timezone as its two offset functions; `ZoneInfo.fixed` is a zone
  with one offset.  Arithmetic between two datetimes of one zone is wall-clock arithmetic in
  Python, so local times are plain integers here and only `toUtc` / `toLocal` consult the zone.
* `SessionSchedule`, `TradingSessionOverride`, `EffectiveSchedule`, `TradingCalendar`,
  `MarketSessionClassifier` — validated data and the classification of an instant.

`nseSchedule`, `kolkata` and `nseClassifier` are what `MarketSessionClassifier.from_settings` builds
from the default settings; the parsing of other settings is left out.
-/

set_option autoImplicit false

namespace ApexScan

/-! ## Timeframes -/

/-- `Timeframe`: an intraday bucket width or the whole regular session. -/
inductive Timeframe where
  | intraday (width : Int) (pos : 0 < width)
  | session

namespace Timeframe

def duration : Timeframe → Option Int
  | intraday w _ => some w
  | session => none

theorem duration_inj {a b : Timeframe} : a.duration = b.duration ↔ a = b := by
  cases a <;> cases b <;> simp [duration]

instance : DecidableEq Timeframe := fun _ _ => decidable_of_iff _ duration_inj

def isSession : Timeframe → Bool
  | intraday _ _ => false
  | session => true

/-- `Timeframe.minutes`, for a positive count. -/
def minutes (count : ℕ) (h : 0 < count) : Timeframe :=
  intraday (count * minute) (Int.mul_pos (by exact_mod_cast h) (by decide))

/-- `f"{int(total_seconds)}s"`, or `"session"`. -/
def label : Timeframe → String
  | intraday w _ => toString (w / second) ++ "s"
  | session => "session"

end Timeframe

/-! ## Exchange timezones -/

/-- An IANA zone: the UTC offset in force at an instant, and the offset `fold=0` gives to a
    wall-clock time. -/
structure ZoneInfo where
  utcoffset : Int → Int
  wallOffset : Int → Int
  utcoffset_lt : ∀ t, -day < utcoffset t ∧ utcoffset t < day
  wallOffset_lt : ∀ t, -day < wallOffset t ∧ wallOffset t < day

namespace ZoneInfo

/-- `instant.astimezone(zone)` as a wall-clock time. -/
def toLocal (z : ZoneInfo) (t : Int) : Int := t + z.utcoffset t

/-- `local.astimezone(UTC)`. -/
def toUtc (z : ZoneInfo) (wall : Int) : Int := wall - z.wallOffset wall

/-- A zone with one constant offset. -/
def fixed (offset : Int) (h : -day < offset ∧ offset < day) : ZoneInfo :=
  ⟨fun _ => offset, fun _ => offset, fun _ => h, fun _ => h⟩

end ZoneInfo

/-- `.date()` of a wall-clock time. -/
def wallDate (wall : Int) : Int := wall / day

/-- `.time()` of a wall-clock time. -/
def wallTime (wall : Int) : Int := wall % day

/-- `datetime.combine(date, time)`. -/
def combine (date : Int) (moment : Int) : Int := date * day + moment

/-! ## Session hours -/

/-- One exchange-local `[start, stop)` live interval of a day. -/
@[ext]
structure TradingInterval where
  start : Int
  stop : Int
  nonneg : 0 ≤ start
  start_lt_stop : start < stop
  stop_lt : stop < day

instance : DecidableEq TradingInterval :=
  fun _ _ => decidable_of_iff _ TradingInterval.ext_iff.symm

/-- The explicit market phases of `app/market_engine/context.py`. -/
inductive MarketState where
  | preOpen
  | openingAuction
  | liveSession
  | closingSession
  | marketClosed
  | holiday
  | emergencyHalt
  | calendarUnavailable
  deriving DecidableEq, Repr

/-- Session facts stamped on a context. -/
structure SessionContext where
  tradingDate : Int
  marketState : MarketState
  exchangeTimezone : String
  deriving DecidableEq

/-- Exchange-local session boundaries, strictly increasing. -/
structure SessionSchedule where
  preOpenStart : Int
  openingAuctionStart : Int
  regularOpen : Int
  regularClose : Int
  closingEnd : Int
  nonneg : 0 ≤ preOpenStart
  increasing : preOpenStart < openingAuctionStart ∧ openingAuctionStart < regularOpen ∧
    regularOpen < regularClose ∧ regularClose < closingEnd
  closingEnd_lt : closingEnd < day

namespace SessionSchedule

/-- `phase_for`: the phase of an exchange-local time on a trading day. -/
def phaseFor (s : SessionSchedule) (moment : Int) : MarketState :=
  if moment < s.preOpenStart then .marketClosed
  else if moment < s.openingAuctionStart then .preOpen
  else if moment < s.regularOpen then .openingAuction
  else if moment < s.regularClose then .liveSession
  else if moment < s.closingEnd then .closingSession
  else .marketClosed

/-- `[regular_open, regular_close)`. -/
def bounds (s : SessionSchedule) : TradingInterval where
  start := s.regularOpen
  stop := s.regularClose
  nonneg := by have := s.nonneg; have := s.increasing; omega
  start_lt_stop := s.increasing.2.2.1
  stop_lt := by have := s.closingEnd_lt; have := s.increasing; omega

end SessionSchedule

/-- Live intervals are ordered and separated by a strictly positive gap. -/
def Gapped : List TradingInterval → Prop
  | a :: b :: rest => a.stop < b.start ∧ Gapped (b :: rest)
  | _ => True

/-- In a gapped list an interval ends before every later one starts. -/
theorem gapped_pairwise {intervals : List TradingInterval} (h : Gapped intervals) :
    intervals.Pairwise fun a b => a.stop < b.start := by
  induction intervals with
  | nil => exact List.Pairwise.nil
  | cons a rest ih =>
    cases rest with
    | nil => exact List.pairwise_singleton _ _
    | cons b rest =>
      have hrest := ih h.2
      refine List.Pairwise.cons ?_ hrest
      intro c hc
      rcases List.mem_cons.mp hc with rfl | hc
      · exact h.1
      · have hbc := (List.pairwise_cons.mp hrest).1 c hc
        have := h.1
        have := b.start_lt_stop
        omega

/-- Per-date live intervals of an exceptional open session. -/
structure TradingSessionOverride where
  tradingDate : Int
  first : TradingInterval
  rest : List TradingInterval
  gapped : Gapped (first :: rest)

namespace TradingSessionOverride

def liveIntervals (o : TradingSessionOverride) : List TradingInterval := o.first :: o.rest

end TradingSessionOverride

/-- The default schedule plus per-date overrides, at most one for each date. -/
structure EffectiveSchedule where
  default : SessionSchedule
  overrides : List TradingSessionOverride
  distinct : (overrides.map (·.tradingDate)).Nodup

namespace EffectiveSchedule

def override? (e : EffectiveSchedule) (date : Int) : Option TradingSessionOverride :=
  e.overrides.find? (fun o => o.tradingDate == date)

def hasOverride (e : EffectiveSchedule) (date : Int) : Bool := (e.override? date).isSome

/-- `intervals_for`: the override's live intervals, else the default bounds alone. -/
def intervalsFor (e : EffectiveSchedule) (date : Int) : List TradingInterval :=
  match e.override? date with
  | some o => o.liveIntervals
  | none => [e.default.bounds]

end EffectiveSchedule

/-- In a gapped list the last interval ends after the first one starts. -/
theorem first_start_lt_last_stop (a : TradingInterval) (rest : List TradingInterval)
    (h : Gapped (a :: rest)) :
    a.start < ((a :: rest).getLast (List.cons_ne_nil _ _)).stop := by
  induction rest generalizing a with
  | nil => exact a.start_lt_stop
  | cons b rest ih =>
    have hb := ih b h.2
    have := h.1
    have := a.start_lt_stop
    have := b.start_lt_stop
    rw [List.getLast_cons (List.cons_ne_nil _ _)]
    omega

/-- `envelope_for`: first start to last end of the date's live intervals. -/
def EffectiveSchedule.envelopeFor (e : EffectiveSchedule) (date : Int) : TradingInterval :=
  match e.override? date with
  | none => e.default.bounds
  | some o =>
    { start := o.first.start
      stop := (o.first :: o.rest).getLast (List.cons_ne_nil _ _) |>.stop
      nonneg := o.first.nonneg
      start_lt_stop := first_start_lt_last_stop _ _ o.gapped
      stop_lt := ((o.first :: o.rest).getLast (List.cons_ne_nil _ _)).stop_lt }

/-! ## Calendar and classification -/

/-- `date.weekday()`: Monday is 0; day 0 (1970-01-01) is a Thursday. -/
def weekday (date : Int) : Int := (date + 3) % 7

/-- Weekends and closed dates are non-trading; explicit open sessions take precedence. -/
structure TradingCalendar where
  closedDates : List Int
  openSessions : List Int
  weekendDays : List Int := [5, 6]
  disjoint : ∀ d ∈ closedDates, d ∉ openSessions

namespace TradingCalendar

def isTradingDay (c : TradingCalendar) (date : Int) : Bool :=
  if date ∈ c.openSessions then true
  else if weekday date ∈ c.weekendDays then false
  else decide (date ∉ c.closedDates)

end TradingCalendar

/-- The inclusive date range the calendar is authoritative over. -/
structure CalendarCoverage where
  startDate : Int
  endDate : Int
  start_le_end : startDate ≤ endDate

def CalendarCoverage.contains (c : CalendarCoverage) (d : Int) : Bool :=
  decide (c.startDate ≤ d ∧ d ≤ c.endDate)

/-- `MarketSessionClassifier`. -/
structure MarketSessionClassifier where
  schedule : SessionSchedule
  calendar : TradingCalendar
  timezoneName : String
  timezone : ZoneInfo
  coverage : Option CalendarCoverage := none

namespace MarketSessionClassifier

/-- `_state_for`. -/
def stateFor (c : MarketSessionClassifier) (date : Int) (moment : Int) (haltActive : Bool) :
    MarketState :=
  if (c.coverage.map (·.contains date)).getD true = false then .calendarUnavailable
  else if !c.calendar.isTradingDay date then .holiday
  else if haltActive then .emergencyHalt
  else c.schedule.phaseFor moment

/-- `classify`: the session facts of an instant. -/
def classify (c : MarketSessionClassifier) (instant : Int) (haltActive : Bool) :
    SessionContext where
  tradingDate := wallDate (c.timezone.toLocal instant)
  marketState := c.stateFor (wallDate (c.timezone.toLocal instant))
    (wallTime (c.timezone.toLocal instant)) haltActive
  exchangeTimezone := c.timezoneName

end MarketSessionClassifier

/-! ## The default settings (`app/core/config/settings.py`) -/

/-- Pre-open 09:00, auction 09:08, regular session 09:15 to 15:30, closing session to 15:40. -/
def nseSchedule : SessionSchedule where
  preOpenStart := 540 * minute
  openingAuctionStart := 548 * minute
  regularOpen := 555 * minute
  regularClose := 930 * minute
  closingEnd := 940 * minute
  nonneg := by decide
  increasing := by decide
  closingEnd_lt := by decide

/-- `Asia/Kolkata`, which has kept one offset since 1945. -/
def kolkata : ZoneInfo := ZoneInfo.fixed (330 * minute) (by decide)

/-- The classifier of the default settings, which list no holiday. -/
def nseClassifier : MarketSessionClassifier where
  schedule := nseSchedule
  calendar := { closedDates := [], openSessions := [], disjoint := by simp }
  timezoneName := "Asia/Kolkata"
  timezone := kolkata

end ApexScan
