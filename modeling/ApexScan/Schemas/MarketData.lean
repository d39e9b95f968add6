import Mathlib.Algebra.Order.Ring.Rat
import Mathlib.Data.Finset.Basic

/-!
# Canonical market data (`app/schemas/market_data.py`)

The broker-neutral values that cross the Data Provider boundary.  The models of the source
validate at construction and are frozen; here each is a structure whose fields state what the
validators check, so that a value that the source would reject cannot be written down.

Time is integral throughout the development: an aware timestamp is the number of microseconds
since the epoch in UTC (`second`, `minute`, `day` are the units of a `timedelta`), a calendar
date is a day number (day 0 is 1970-01-01).  `Price` is a `Decimal` with `gt=0`, as an exact
positive rational.

`ProviderHealth` and `HistoricalResult` are read by no function modelled so far and are left out.
-/

set_option autoImplicit false

namespace ApexScan

/-- `Decimal = Field(gt=0)`. -/
abbrev Price := {q : ℚ // 0 < q}

/-- The larger price, by the order of the amounts. -/
instance : Max Price := inferInstance

/-- The smaller price. -/
instance : Min Price := inferInstance

/-- A whole price of at least one rupee. -/
def rupees (n : ℕ) : Price := ⟨(max 1 n : ℕ), by exact_mod_cast Nat.le_max_left 1 n⟩

theorem rupees_le_add (m n : ℕ) : rupees m ≤ rupees (m + n) := by
  unfold rupees
  rw [Subtype.mk_le_mk]
  exact_mod_cast max_le_max_left 1 (Nat.le_add_right m n)

def second : Int := 1000000

def minute : Int := 60 * second

def day : Int := 86400 * second

theorem day_pos : 0 < day := by decide

inductive MarketSegment where
  | equity
  | derivatives
  | currency
  | commodity
  | index
  deriving DecidableEq, Repr

inductive InstrumentClass where
  | cash
  | future
  | option
  | other
  deriving DecidableEq, Repr

inductive OptionType where
  | call
  | put
  deriving DecidableEq, Repr

/-- Economic underlying of a derivative contract. -/
structure UnderlyingInstrument where
  exchange : String
  symbol : String
  exchange_ne : exchange ≠ ""
  symbol_ne : symbol ≠ ""
  deriving DecidableEq

/-- `Instrument._validate_contract_identity`: each class carries its own distinguishing
    fields and none of the others. -/
def contractIdentity (instrumentClass : InstrumentClass) (underlying expiry strikePrice
    optionType : Bool) : Bool :=
  match instrumentClass with
  | .future => underlying && expiry && !strikePrice && !optionType
  | .option => underlying && expiry && strikePrice && optionType
  | _ => !underlying && !expiry && !strikePrice && !optionType

/-- Provider-neutral identity of one listing or contract. -/
structure Instrument where
  exchange : String
  marketSegment : MarketSegment := .equity
  symbol : String
  instrumentClass : InstrumentClass := .cash
  underlying : Option UnderlyingInstrument := none
  displayName : Option String := none
  listingType : Option String := none
  series : Option String := none
  expiry : Option Int := none
  strikePrice : Option Price := none
  optionType : Option OptionType := none
  exchange_ne : exchange ≠ "" := by decide
  symbol_ne : symbol ≠ "" := by decide
  optional_ne : displayName ≠ some "" ∧ listingType ≠ some "" ∧ series ≠ some "" := by decide
  contract : contractIdentity instrumentClass underlying.isSome expiry.isSome
    strikePrice.isSome optionType.isSome = true := by decide
  deriving DecidableEq

/-- A cash equity listing. -/
def reliance : Instrument := { exchange := "NSE", symbol := "RELIANCE" }

theorem reliance_ne_nil : [reliance] ≠ [] := List.cons_ne_nil _ _

/-- The live data kinds a consumer may request. -/
inductive MarketDataKind where
  | tick
  | quote
  | depth
  | candle
  deriving DecidableEq, Repr

/-- The four live-feed continuity facts. -/
inductive FeedContinuity where
  | connected
  | disconnected
  | reconnected
  | continuityLost
  deriving DecidableEq, Repr

structure FeedContinuityEvent where
  status : FeedContinuity
  observedAt : Int
  deriving DecidableEq

/-- A provider-supplied session-to-date OHLC aggregate; structurally coherent by
    `_validate_ohlc_structure`. -/
structure ProviderSessionOhlc where
  openPrice : Price
  highPrice : Price
  lowPrice : Price
  closePrice : Price
  low_le_high : lowPrice ≤ highPrice
  open_within : lowPrice ≤ openPrice ∧ openPrice ≤ highPrice
  close_within : lowPrice ≤ closePrice ∧ closePrice ≤ highPrice
  deriving DecidableEq

/-- A provider-side session snapshot that became known at `observedAt` for `tradingDate`. -/
structure SessionStatisticsObservation where
  instrument : Instrument
  tradingDate : Int
  observedAt : Int
  sessionOhlc : ProviderSessionOhlc
  deriving DecidableEq

/-- One event-time last-traded price. -/
structure Tick where
  instrument : Instrument
  eventTimestamp : Int
  lastPrice : Price
  tradedQuantity : Option ℕ := none
  sessionCumulativeVolume : Option ℕ := none
  sessionOhlc : Option ProviderSessionOhlc := none
  deriving DecidableEq

/-- One event-time best bid/ask quote. -/
structure Quote where
  instrument : Instrument
  eventTimestamp : Int
  bidPrice : Price
  askPrice : Price
  bidQuantity : ℕ
  askQuantity : ℕ
  bid_le_ask : bidPrice ≤ askPrice
  deriving DecidableEq

/-- One price level. -/
structure DepthLevel where
  price : Price
  quantity : ℕ
  deriving DecidableEq

/-- An event-time order-book snapshot. -/
structure DepthSnapshot where
  instrument : Instrument
  eventTimestamp : Int
  bids : List DepthLevel
  asks : List DepthLevel
  bids_ne : bids ≠ []
  asks_ne : asks ≠ []
  deriving DecidableEq

/-- OHLCV over a closed event-time interval. -/
structure Candle where
  instrument : Instrument
  startTimestamp : Int
  endTimestamp : Int
  openPrice : Price
  highPrice : Price
  lowPrice : Price
  closePrice : Price
  tradedQuantity : ℕ
  start_lt_end : startTimestamp < endTimestamp
  low_le_high : lowPrice ≤ highPrice
  open_within : lowPrice ≤ openPrice ∧ openPrice ≤ highPrice
  close_within : lowPrice ≤ closePrice ∧ closePrice ≤ highPrice
  deriving DecidableEq

/-- A session reference price (previous close); it carries no timestamp of its own. -/
structure MarketReference where
  instrument : Instrument
  previousClose : Price
  deriving DecidableEq

/-- A request for canonical candles over an explicit interval. -/
structure HistoricalRequest where
  instrument : Instrument
  startTimestamp : Int
  endTimestamp : Int
  interval : Int
  start_lt_end : startTimestamp < endTimestamp
  interval_pos : 0 < interval
  deriving DecidableEq

/-- A consumer's live-data subscription intent. -/
structure SubscriptionRequest where
  instruments : List Instrument
  dataTypes : Finset MarketDataKind
  instruments_ne : instruments ≠ []
  instruments_nodup : instruments.Nodup
  dataTypes_ne : dataTypes.Nonempty

/-- `Tick | Quote | DepthSnapshot | Candle | MarketReference`. -/
inductive MarketData where
  | tick (t : Tick)
  | quote (q : Quote)
  | depth (d : DepthSnapshot)
  | candle (c : Candle)
  | reference (r : MarketReference)
  deriving DecidableEq

end ApexScan
