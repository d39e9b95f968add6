import Mathlib.Data.Rat.Defs
import Mathlib.Algebra.Order.Ring.Rat
import Mathlib.Data.List.Basic

/-!
# Historical daily bars (`app/market_history/models.py`)

* `InstrumentIdentity`, `HistoricalDailyBar` — a value carries what its validator checks.
* `HistoricalSeries` — bars of one instrument and adjustment in the order of their dates;
  `validateSeries` is the validator, with its four errors.
* `validateSeries_eq_ok`, `validateSeries_foreign` — when it accepts, and that it never accepts a bar of
  another instrument.

The white space that a bar's identity is stripped of is not modelled: identities are any strings of the
admitted length.
-/

set_option autoImplicit false

namespace ApexScan.MarketHistory

inductive PriceAdjustment where
  | raw
  | adjusted
  deriving DecidableEq, Repr

/-- The text of an adjustment. -/
def PriceAdjustment.value : PriceAdjustment → String
  | .raw => "raw"
  | .adjusted => "adjusted"

/-- `Field(min_length=1, max_length=128)`. -/
structure InstrumentIdentity where
  text : String
  min_length : 1 ≤ text.length
  max_length : text.length ≤ 128
  deriving DecidableEq

structure HistoricalDailyBar where
  instrumentIdentity : InstrumentIdentity
  tradingDate : Int
  openPrice : ℚ
  high : ℚ
  low : ℚ
  close : ℚ
  volume : ℕ
  adjustment : PriceAdjustment := .raw
  source : String
  sourceVersion : Option String := none
  ingestedAt : Int
  low_pos : 0 < low
  high_ge_low : low ≤ high
  open_within : low ≤ openPrice ∧ openPrice ≤ high
  close_within : low ≤ close ∧ close ≤ high
  deriving DecidableEq

/-- `has_same_values`: provenance is ignored. -/
def HistoricalDailyBar.hasSameValues (self other : HistoricalDailyBar) : Bool :=
  self.openPrice = other.openPrice ∧ self.high = other.high ∧ self.low = other.low ∧
    self.close = other.close ∧ self.volume = other.volume ∧ self.adjustment = other.adjustment

structure HistoricalSeries where
  instrumentIdentity : InstrumentIdentity
  adjustment : PriceAdjustment
  bars : List HistoricalDailyBar
  ascending : bars.Pairwise fun a b => a.tradingDate < b.tradingDate
  shared_identity : ∀ bar ∈ bars, bar.instrumentIdentity = instrumentIdentity
  shared_adjustment : ∀ bar ∈ bars, bar.adjustment = adjustment
  deriving DecidableEq

inductive SeriesError where
  | notAscending
  | duplicateDates
  | foreignIdentity
  | mixedAdjustment
  deriving DecidableEq, Repr

section Validation

variable (instrumentIdentity : InstrumentIdentity) (adjustment : PriceAdjustment)

/-- What the loop over the bars finds first. -/
def firstForeign (bars : List HistoricalDailyBar) : Option SeriesError :=
  bars.findSome? fun bar =>
    if bar.instrumentIdentity ≠ instrumentIdentity then some .foreignIdentity
    else if bar.adjustment ≠ adjustment then some .mixedAdjustment
    else none

theorem firstForeign_eq_none_iff (bars : List HistoricalDailyBar) :
    firstForeign instrumentIdentity adjustment bars = none ↔
      ∀ bar ∈ bars, bar.instrumentIdentity = instrumentIdentity ∧ bar.adjustment = adjustment := by
  unfold firstForeign
  rw [List.findSome?_eq_none_iff]
  refine forall₂_congr fun bar _ => ?_
  grind

theorem ascending_of {bars : List HistoricalDailyBar}
    (hsorted : bars.Pairwise fun a b => a.tradingDate ≤ b.tradingDate)
    (hnodup : (bars.map (·.tradingDate)).Nodup) :
    bars.Pairwise fun a b => a.tradingDate < b.tradingDate := by
  rw [List.Nodup, List.pairwise_map] at hnodup
  exact (hsorted.and hnodup).imp fun h => lt_of_le_of_ne h.1 h.2

/-- The validator of `HistoricalSeries`. -/
def validateSeries (bars : List HistoricalDailyBar) : Except SeriesError HistoricalSeries :=
  if hsorted : bars.Pairwise fun a b => a.tradingDate ≤ b.tradingDate then
    if hnodup : (bars.map (·.tradingDate)).Nodup then
      match hforeign : firstForeign instrumentIdentity adjustment bars with
      | some e => .error e
      | none =>
        .ok
          { instrumentIdentity
            adjustment
            bars
            ascending := ascending_of hsorted hnodup
            shared_identity := fun bar hbar =>
              ((firstForeign_eq_none_iff _ _ _).mp hforeign bar hbar).1
            shared_adjustment := fun bar hbar =>
              ((firstForeign_eq_none_iff _ _ _).mp hforeign bar hbar).2 }
    else .error .duplicateDates
  else .error .notAscending

variable {instrumentIdentity adjustment} {bars : List HistoricalDailyBar}

/-- The validator accepts exactly the bars of the instrument and adjustment in strict order. -/
theorem validateSeries_eq_ok (hascending : bars.Pairwise fun a b => a.tradingDate < b.tradingDate)
    (hbars : ∀ bar ∈ bars, bar.instrumentIdentity = instrumentIdentity ∧ bar.adjustment = adjustment) :
    ∃ series, validateSeries instrumentIdentity adjustment bars = .ok series ∧ series.bars = bars := by
  have hsorted : bars.Pairwise fun a b => a.tradingDate ≤ b.tradingDate := hascending.imp le_of_lt
  have hnodup : (bars.map (·.tradingDate)).Nodup := by
    rw [List.Nodup, List.pairwise_map]
    exact hascending.imp ne_of_lt
  unfold validateSeries
  rw [dif_pos hsorted, dif_pos hnodup]
  split
  next e he => 
    rw [(firstForeign_eq_none_iff _ _ _).mpr hbars] at he
    cases he
  next => exact ⟨_, rfl, rfl⟩

theorem bars_of_validateSeries {series : HistoricalSeries}
    (h : validateSeries instrumentIdentity adjustment bars = .ok series) : series.bars = bars := by
  unfold validateSeries at h
  split at h
  · split at h
    · split at h
      · cases h
      · cases h
        rfl
    · cases h
  · cases h

theorem validateSeries_foreign {bar : HistoricalDailyBar} (hmem : bar ∈ bars)
    (hforeign : bar.instrumentIdentity ≠ instrumentIdentity) :
    ∃ e, validateSeries instrumentIdentity adjustment bars = .error e := by
  cases h : validateSeries instrumentIdentity adjustment bars with
  | error e => exact ⟨e, rfl⟩
  | ok series =>
    exfalso
    unfold validateSeries at h
    split at h
    · split at h
      · split at h
        · cases h
        next hnone => exact hforeign ((firstForeign_eq_none_iff _ _ _).mp hnone bar hmem).1
      · cases h
    · cases h

end Validation

end ApexScan.MarketHistory
