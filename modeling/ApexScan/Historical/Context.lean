import Mathlib.Data.List.Sort
import Mathlib.Data.Prod.Lex
import ApexScan.Engine.Session

/-!
# Historical snapshots (`app/market_engine/historical/context.py`)

Authoritative candles of one instrument, per timeframe.  The validators of the source sort their
input and reject what is malformed; here the structures carry what the validators check, and
`create` is the constructor with its validators (`none` where pydantic raises).

* `intervalLe` — the `(start, end)` order of candles; `Separate` — neither duplicate nor overlapping.
* `HistoricalSeries`, `PreviousSessionFacts`, `HistoricalContext`.
-/

set_option autoImplicit false

namespace ApexScan

/-- `timeframe_ordering_key`: intraday by duration, then the session. -/
def Timeframe.orderingKey (tf : Timeframe) : Bool ×ₗ Int := toLex (tf.isSession, tf.duration.getD 0)

/-- The key `(start_timestamp, end_timestamp)`. -/
def Candle.interval (c : Candle) : Int ×ₗ Int := toLex (c.startTimestamp, c.endTimestamp)

/-- `sorted(candles, key=lambda c: (c.start_timestamp, c.end_timestamp))`. -/
def sortedByInterval (candles : List Candle) : List Candle :=
  candles.insertionSort (fun a b => a.interval ≤ b.interval)

/-- The check on adjacent candles: not the same interval, and no overlap. -/
def Separate (previous current : Candle) : Prop :=
  ¬ (current.startTimestamp = previous.startTimestamp ∧
      current.endTimestamp = previous.endTimestamp) ∧
    ¬ current.startTimestamp < previous.endTimestamp

instance : DecidableRel Separate := fun _ _ => inferInstanceAs (Decidable (_ ∧ _))

/-- A chronological run of candles of one instrument at one timeframe. -/
structure HistoricalSeries where
  timeframe : Timeframe
  candles : List Candle
  ne_nil : candles ≠ []
  oneInstrument : ∀ a ∈ candles, ∀ b ∈ candles, a.instrument = b.instrument
  separate : candles.IsChain Separate

namespace HistoricalSeries

/-- `HistoricalSeries(timeframe=..., candles=...)`. -/
def create (timeframe : Timeframe) (candles : List Candle) : Option HistoricalSeries :=
  let ordered := sortedByInterval candles
  if h : ordered ≠ [] ∧ (∀ a ∈ ordered, ∀ b ∈ ordered, a.instrument = b.instrument) ∧
      ordered.IsChain Separate then
    some ⟨timeframe, ordered, h.1, h.2.1, h.2.2⟩
  else none

def instrument (s : HistoricalSeries) : Instrument := (s.candles.head s.ne_nil).instrument

end HistoricalSeries

/-- The previous trading session's daily candle. -/
structure PreviousSessionFacts where
  tradingDate : Int
  candle : Candle
  deriving DecidableEq

/-- One historical snapshot of one instrument: at most one series for each timeframe. -/
structure HistoricalContext where
  instrument : Instrument
  previousSession : Option PreviousSessionFacts := none
  series : List HistoricalSeries := []
  timeframes_nodup : (series.map (·.timeframe)).Nodup
  series_instrument : ∀ s ∈ series, s.instrument = instrument
  previous_instrument : ∀ p ∈ previousSession, p.candle.instrument = instrument

namespace HistoricalContext

/-- `HistoricalContext(...)`, with the series in `timeframe_ordering_key` order. -/
def create (instrument : Instrument) (previousSession : Option PreviousSessionFacts)
    (series : List HistoricalSeries) : Option HistoricalContext :=
  let ordered := series.insertionSort (fun a b => a.timeframe.orderingKey ≤ b.timeframe.orderingKey)
  if h : (ordered.map (·.timeframe)).Nodup ∧ (∀ s ∈ ordered, s.instrument = instrument) ∧
      ∀ p ∈ previousSession, p.candle.instrument = instrument then
    some ⟨instrument, previousSession, ordered, h.1, h.2.1, h.2.2⟩
  else none

end HistoricalContext

end ApexScan
