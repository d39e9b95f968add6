import ApexScan.Engine.Buckets
import ApexScan.Historical.Source
import Mathlib.Algebra.GroupWithZero.Nat

/-!
# Session candles and exact reconstruction

Models `app/market_engine/historical/session_candles.py` and
`app/market_engine/historical/resampling.py`.

* `canonicalSessionSeries` — daily bars re-stamped to the session of their trading date.
* `selectBase`, `reconstructSeries` — larger candles from the smaller ones that tile them exactly.

A constructor of the source that can raise a validation error is an `Option` here; the outer one of
`reconstructSeries` and `canonicalSessionSeries` is that error.
-/

set_option autoImplicit false

namespace ApexScan

/-! ## Session candles -/

/-- The candle with other timestamps. -/
def Candle.restamp (c : Candle) (start stop : Int) (h : start < stop) : Candle :=
  { c with startTimestamp := start, endTimestamp := stop, start_lt_end := h }

/-- `canonicalize_session_candle`: `some none` withholds the bar of a day without trading. -/
def canonicalizeSessionCandle (effective : EffectiveSchedule) (calendar : TradingCalendar)
    (timezone : ZoneInfo) (c : Candle) : Option (Option Candle) :=
  let tradingDate := wallDate (timezone.toLocal c.startTimestamp)
  if calendar.isTradingDay tradingDate = false then some none
  else
    let bounds := bucketBounds c.startTimestamp tradingDate .session
      (effective.envelopeFor tradingDate) timezone
    if h : bounds.2.1 < bounds.2.2 then some (some (c.restamp bounds.2.1 bounds.2.2 h)) else none

/-- The loop of `canonical_session_series`; an identity that was seen is skipped. -/
def canonicalSessionLoop (canonicalize : Candle → Option (Option Candle)) :
    List (Int × Int) → List Candle → Option (List Candle)
  | _, [] => some []
  | seen, c :: candles => do
    match ← canonicalize c with
    | none => canonicalSessionLoop canonicalize seen candles
    | some session =>
      let identity := (session.startTimestamp, session.endTimestamp)
      if identity ∈ seen then canonicalSessionLoop canonicalize seen candles
      else
        let rest ← canonicalSessionLoop canonicalize (identity :: seen) candles
        return session :: rest

/-- `canonical_session_series`. -/
def canonicalSessionSeries (effective : EffectiveSchedule) (calendar : TradingCalendar)
    (timezone : ZoneInfo) (candles : List Candle) : Option (List Candle) :=
  canonicalSessionLoop (canonicalizeSessionCandle effective calendar timezone) [] candles

/-! ## The base timeframe -/

/-- `divides_exactly`. -/
def dividesExactly (target base : Timeframe) : Bool :=
  match target.duration, base.duration with
  | some targetWidth, some baseWidth => decide (baseWidth < targetWidth ∧ targetWidth % baseWidth = 0)
  | _, _ => false

/-- `select_base`: the largest direct timeframe that builds the target. -/
def selectBase (target : Timeframe) (direct : List Timeframe) : Option Timeframe :=
  (direct.filter (dividesExactly target)).maxOn? fun base => base.duration.getD 0

/-! ## Reconstruction -/

/-- `sorted(candles, key=lambda candle: candle.start_timestamp)`. -/
def sortedByStart (candles : List Candle) : List Candle :=
  candles.insertionSort fun a b => a.startTimestamp ≤ b.startTimestamp

/-- `_contiguous_and_sized`. -/
def contiguousAndSized (sourceDuration sessionClose : Int) : List Candle → Bool
  | [] => true
  | c :: candles =>
    (c.endTimestamp - c.startTimestamp == sourceDuration || c.endTimestamp == sessionClose) &&
      (match candles with
        | [] => true
        | next :: _ => next.startTimestamp == c.endTimestamp) &&
      contiguousAndSized sourceDuration sessionClose candles

/-- The greatest high of a run of candles. -/
def highest (first : Candle) (rest : List Candle) : Price :=
  rest.foldl (fun price c => max price c.highPrice) first.highPrice

/-- The least low of a run of candles. -/
def lowest (first : Candle) (rest : List Candle) : Price :=
  rest.foldl (fun price c => min price c.lowPrice) first.lowPrice

theorem le_foldl_max (rest : List Candle) (price : Price) :
    price ≤ rest.foldl (fun price c => max price c.highPrice) price ∧
      ∀ c ∈ rest, c.highPrice ≤ rest.foldl (fun price c => max price c.highPrice) price := by
  induction rest generalizing price with
  | nil => simp
  | cons c rest ih =>
    obtain ⟨hacc, hrest⟩ := ih (max price c.highPrice)
    refine ⟨(le_max_left _ _).trans hacc, ?_⟩
    intro c' hc'
    rcases List.mem_cons.mp hc' with rfl | hc'
    · exact (le_max_right _ _).trans hacc
    · exact hrest c' hc'

theorem foldl_min_le (rest : List Candle) (price : Price) :
    rest.foldl (fun price c => min price c.lowPrice) price ≤ price ∧
      ∀ c ∈ rest, rest.foldl (fun price c => min price c.lowPrice) price ≤ c.lowPrice := by
  induction rest generalizing price with
  | nil => simp
  | cons c rest ih =>
    obtain ⟨hacc, hrest⟩ := ih (min price c.lowPrice)
    refine ⟨hacc.trans (min_le_left _ _), ?_⟩
    intro c' hc'
    rcases List.mem_cons.mp hc' with rfl | hc'
    · exact hacc.trans (min_le_right _ _)
    · exact hrest c' hc'

theorem le_highest {first : Candle} {rest : List Candle} {c : Candle} (h : c ∈ first :: rest) :
    c.highPrice ≤ highest first rest := by
  obtain ⟨hfirst, hrest⟩ := le_foldl_max rest first.highPrice
  rcases List.mem_cons.mp h with rfl | h
  · exact hfirst
  · exact hrest c h

theorem lowest_le {first : Candle} {rest : List Candle} {c : Candle} (h : c ∈ first :: rest) :
    lowest first rest ≤ c.lowPrice := by
  obtain ⟨hfirst, hrest⟩ := foldl_min_le rest first.lowPrice
  rcases List.mem_cons.mp h with rfl | h
  · exact hfirst
  · exact hrest c h

/-- The candle of a bucket from its constituents, oldest first. -/
def aggregate (first : Candle) (rest : List Candle) (start stop : Int) (h : start < stop) :
    Candle where
  instrument := first.instrument
  startTimestamp := start
  endTimestamp := stop
  openPrice := first.openPrice
  highPrice := highest first rest
  lowPrice := lowest first rest
  closePrice := ((first :: rest).getLast (List.cons_ne_nil _ _)).closePrice
  tradedQuantity := ((first :: rest).map (·.tradedQuantity)).sum
  start_lt_end := h
  low_le_high := (lowest_le List.mem_cons_self).trans
    (first.low_le_high.trans (le_highest List.mem_cons_self))
  open_within := ⟨(lowest_le List.mem_cons_self).trans first.open_within.1,
    first.open_within.2.trans (le_highest List.mem_cons_self)⟩
  close_within :=
    ⟨(lowest_le (List.getLast_mem _)).trans (Candle.close_within _).1,
     (Candle.close_within _).2.trans (le_highest (List.getLast_mem _))⟩

/-- `_prove_and_aggregate`. -/
def proveAndAggregate (constituents : List Candle) (start stop sourceDuration sessionClose : Int) :
    Option Candle :=
  match sortedByStart constituents with
  | [] => none
  | first :: rest =>
    let last := (first :: rest).getLast (List.cons_ne_nil _ _)
    if first.startTimestamp ≠ start ∨ last.endTimestamp ≠ stop then none
    else if contiguousAndSized sourceDuration sessionClose (first :: rest) = false then none
    -- contiguous candles from `start` to `stop` give `start < stop`
    else if h : start < stop then some (aggregate first rest start stop h)
    else none

/-- `_reconstruct_interval`.  The bucket that holds the interval's end is cut off there, so that end
    is `interval_close`. -/
def reconstructInterval (tradingDate : Int) (dayCandles : List Candle) (target : Timeframe)
    (sourceDuration : Int) (interval : TradingInterval) (timezone : ZoneInfo) : List Candle :=
  let intervalClose := timezone.toUtc (combine tradingDate interval.stop)
  (sessionBuckets tradingDate target interval timezone).filterMap fun (index, start, stop) =>
    proveAndAggregate
      (dayCandles.filter fun c =>
        (bucketBounds c.startTimestamp tradingDate target interval timezone).1 = index)
      start stop sourceDuration intervalClose

/-- The trading dates of some candles, ascending. -/
def tradingDates (timezone : ZoneInfo) (candles : List Candle) : List Int :=
  ((candles.map fun c => wallDate (timezone.toLocal c.startTimestamp)).dedup).insertionSort (· ≤ ·)

/-- The candles `reconstruct_series` emits. -/
def reconstructCandles (source : HistoricalSeries) (sourceDuration : Int) (target : Timeframe)
    (effective : EffectiveSchedule) (calendar : TradingCalendar) (timezone : ZoneInfo) :
    List Candle :=
  (tradingDates timezone source.candles).flatMap fun tradingDate =>
    if calendar.isTradingDay tradingDate = false then []
    else if tradingDate ∈ calendar.openSessions ∧ effective.hasOverride tradingDate = false then []
    else
      (effective.intervalsFor tradingDate).flatMap fun interval =>
        reconstructInterval tradingDate
          (source.candles.filter fun c => wallDate (timezone.toLocal c.startTimestamp) = tradingDate)
          target sourceDuration interval timezone

/-- `reconstruct_series`: `some none` when no bucket can be proven; `none` when it raises. -/
def reconstructSeries (source : HistoricalSeries) (target : Timeframe)
    (effective : EffectiveSchedule) (calendar : TradingCalendar) (timezone : ZoneInfo) :
    Option (Option HistoricalSeries) :=
  match dividesExactly target source.timeframe, source.timeframe.duration with
  | true, some sourceDuration =>
    let candles := reconstructCandles source sourceDuration target effective calendar timezone
    if candles.isEmpty then some none else some <$> HistoricalSeries.create target candles
  | true, none => some none
  | false, _ => none

end ApexScan
