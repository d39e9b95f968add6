import Mathlib.Data.Rat.Defs

/-!
# Evidence records (`app/tools/session_ohlc_evidence/models.py`)

What the collector of session statistics writes down: the raw observations of an instrument, the
comparisons with the oracle, the captures of a late start and of a reconnect, and the verdict.

A price is any `Decimal`; the classification of a comparison is stored, not computed here.
-/

set_option autoImplicit false

namespace ApexScan.Evidence

inductive Classification where
  | matching
  | protocolEquivalent
  | drift
  | indeterminate
  | mismatch
  deriving DecidableEq, Repr

inductive VerdictOutcome where
  | accepted
  | rejected
  | inconclusive
  deriving DecidableEq, Repr

inductive LateStartKind where
  | providerLateSubscription
  | observerLateAttach
  deriving DecidableEq, Repr

structure OhlcObservation where
  source : String
  window : String
  observedAt : Int
  tradingDate : Option Int := none
  openPrice : Option ℚ := none
  highPrice : Option ℚ := none
  lowPrice : Option ℚ := none
  deriving DecidableEq

structure OracleComparison where
  window : String
  field : String
  wsValue : Option ℚ
  restValue : Option ℚ
  tickSize : Option ℚ
  classification : Classification
  deriving DecidableEq

/-- The price that a violation is about. -/
inductive Extremum where
  | open
  | high
  | low
  deriving DecidableEq, Repr

/-- `"<field> changed/regressed <previous>-><price> at <window>"`. -/
structure Violation where
  field : Extremum
  previous : ℚ
  price : ℚ
  window : String
  deriving DecidableEq

structure MonotonicityResult where
  openStable : Bool
  highNonDecreasing : Bool
  lowNonIncreasing : Bool
  violations : List Violation := []
  deriving DecidableEq

structure InstrumentEvidence where
  exchange : String
  symbol : String
  securityId : String
  tradingDate : Int
  wsObservations : List OhlcObservation := []
  restObservations : List OhlcObservation := []
  oracleComparisons : List OracleComparison := []
  monotonicity : Option MonotonicityResult := none
  deriving DecidableEq

/-- `EXCHANGE:SYMBOL`. -/
def InstrumentEvidence.identity (i : InstrumentEvidence) : String := i.exchange ++ ":" ++ i.symbol

structure LateStartEvidence where
  observed : Bool
  kind : LateStartKind := .providerLateSubscription
  observerAttachTimestamp : Option Int := none
  priorObservedAt : Option Int := none
  priorOpen : Option ℚ := none
  priorHigh : Option ℚ := none
  priorLow : Option ℚ := none
  firstObservedAt : Option Int := none
  firstOpen : Option ℚ := none
  firstHigh : Option ℚ := none
  firstLow : Option ℚ := none
  detail : String := ""
  deriving DecidableEq

structure ReconnectEvidence where
  observed : Bool
  pre : Option OhlcObservation := none
  post : Option OhlcObservation := none
  detail : String := ""
  deriving DecidableEq

structure EvidenceRecord where
  schemaVersion : String := "2.2.0"
  collectorVersion : String
  sourceSha : String
  productionImage : Option String := none
  provider : String
  oracleSource : String := "dhan_rest_marketfeed_ohlc"
  oracleIndependent : Bool := false
  tradingDate : Int
  sessionIdentity : String
  collectionStart : Int
  collectionEnd : Int
  expectedInstruments : List String
  pendingInstruments : List String := []
  requiredWindows : List String := ["early", "mid", "late"]
  sampleWindows : List String
  instruments : List InstrumentEvidence
  lateStart : Option LateStartEvidence := none
  reconnect : Option ReconnectEvidence := none
  csoa16Required : Bool := true
  oracleAvailable : Bool := true
  deriving DecidableEq

/-- Why a record is not accepted; a count or the missing windows are part of the text. -/
inductive Reason where
  | openMismatches (count : ℕ)
  | monotonicityViolations (count : ℕ)
  | highLowMismatches (count : ℕ)
  | lateStartLost (lost : List Extremum)
  | reconnectNewSession
  | reconnectLost (lost : List Extremum)
  | oracleUnavailable
  | noInstruments
  | duplicateInstruments
  | notObserved (count : ℕ)
  | unexpected (count : ℕ)
  | missingWindows (windows : List String)
  | noReconnectEvidence
  | reconnectIncomplete
  | noLateStartEvidence
  | lateStartIncomplete
  | lateStartNotProven
  | highLowIndeterminate (count : ℕ)
  | allSatisfied
  deriving DecidableEq

structure Verdict where
  outcome : VerdictOutcome
  reasons : List Reason
  openMismatches : ℕ := 0
  monotonicityViolations : ℕ := 0
  protocolEquivalent : ℕ := 0
  highLowDrift : ℕ := 0
  highLowIndeterminate : ℕ := 0
  highLowMismatch : ℕ := 0
  deriving DecidableEq

end ApexScan.Evidence
