import ApexScan.Lib.DecimalContext
import ApexScan.Sector.Membership
import ApexScan.Sector.Participation
import ApexScan.Services.SectorObservations

/-!
# The sector shadow runtime

Models `app/services/sector_intelligence/runtime.py`: the periodic evaluation of what the observer has
recorded.

* `expectedUniverse`, `initialState` — the universe that the constructor gives to the state.
* `buildSnapshot` — `_build_snapshot`, for observations copied earlier and the date the state has now.
* `evaluateOnce` — an evaluation that copies the observations after one run and builds the snapshot after
  a longer one.

The decimal arithmetic is a parameter; the diagnostic counters of a snapshot are left out.
-/

set_option autoImplicit false

namespace ApexScan.SectorIntelligence

open Lib Sector

/-! ## Snapshots -/

/-- `SectorShadowSnapshot` without its diagnostics. -/
structure SectorShadowSnapshot where
  schemaVersion : String := "sector-shadow-1"
  tradingDate : Option Int
  evaluationTimestamp : Int
  expectedUniverseCount : ℕ
  observedCount : ℕ
  completeCount : ℕ
  freshCount : ℕ
  staleCount : Int
  missingPreviousCloseCount : ℕ
  missingSessionOpenCount : ℕ
  missingLastPriceCount : ℕ
  otherIncompleteCount : ℕ
  universeProxy : Option UniverseProxyMetrics
  sectorMetrics : List SectorMetrics
  stockRankings : List SectorStockRanking

/-- What `_build_snapshot` raises. -/
inductive EvaluationError where
  | constituent
  | metrics (error : SectorMetricsError)
  | ranking (error : StockRankingError)

/-- `is_complete`. -/
def LatestObservation.isComplete (o : LatestObservation) : Bool :=
  o.tradingDate.isSome && o.lastPrice.isSome && o.previousClose.isSome && o.sessionOpen.isSome

/-- `_other_incomplete`. -/
def otherIncomplete (observations : List LatestObservation) (tradingDate : Option Int) : ℕ :=
  observations.countP fun o =>
    o.lastPrice.isSome && o.previousClose.isSome && o.sessionOpen.isSome &&
      !(o.tradingDate.isSome && o.tradingDate = tradingDate)

/-- The complete observations of the current date, by identity. -/
def completeOf (observations : List LatestObservation) (tradingDate : Option Int) :
    List LatestObservation :=
  sortBy (·.identity) (observations.filter fun o => o.isComplete && o.tradingDate = tradingDate)

/-- `ConstituentObservation(..)`, which validates its fields. -/
def constituentOf (tradingDate : Int) (o : LatestObservation) (sectorId : String) :
    Except EvaluationError ConstituentObservation :=
  match o.lastPrice, o.previousClose, o.sessionOpen with
  | some lastPrice, some previousClose, some sessionOpen =>
    if h : o.identity ≠ "" ∧ sectorId ≠ "" then
      .ok {
        identity := o.identity
        sectorId
        tradingDate
        observationTimestamp := o.observationTimestamp
        lastPrice
        previousClose
        sessionOpen
        identity_ne := h.1
        sectorId_ne := h.2 }
    else .error .constituent
  | _, _, _ => .error .constituent

section Runtime

variable (arith : Arithmetic) (resolver : MembershipResolver) (policy : CalculationPolicy)

/-- `expected` of the constructor: the members at the start of the dataset. -/
def expectedUniverse : List String := (resolver.membersOn none).dedup

def initialState : ObservationState := { expected := expectedUniverse resolver }

/-- The constituents of a date; an observation whose identity has no primary sector is skipped. -/
def constituentsOn (tradingDate : Int) (complete : List LatestObservation) :
    Except EvaluationError (List ConstituentObservation) :=
  (complete.filterMap fun o =>
    (resolver.resolvePrimary o.identity (some tradingDate)).map fun sectorId => (o, sectorId)).mapM
    fun item => constituentOf tradingDate item.1 item.2

/-- `by_sector.get(sector_id, [])`. -/
def observationsOf (constituents : List ConstituentObservation) (sectorId : String) :
    List ConstituentObservation :=
  ((groupedBy (·.sectorId) constituents).get sectorId).getD []

/-- The identities that are expected of a sector on a date. -/
def expectedOf (tradingDate : Int) (sectorId : String) : Finset String :=
  (resolver.membersOfPrimarySector sectorId (some tradingDate)).toFinset

/-- One sector of the loop: its metrics and its ranking. -/
def evaluateSector (tradingDate evaluationTime : Int) (constituents : List ConstituentObservation)
    (proxy : UniverseProxyMetrics) (sectorId : String) :
    Except EvaluationError (SectorMetrics × SectorStockRanking) := do
  let observations := observationsOf constituents sectorId
  let metrics ← (calculateSectorMetrics arith sectorId (expectedOf resolver tradingDate sectorId)
    observations policy tradingDate evaluationTime (some proxy)).mapError .metrics
  let ranking ← (rankSectorConstituents arith metrics observations policy).mapError .ranking
  return (metrics, ranking)

/-- A snapshot with the counts that are taken from the observations themselves. -/
def snapshotOf (tradingDate : Option Int) (evaluationTime : Int) (observations : List LatestObservation)
    (proxy : Option UniverseProxyMetrics) (evaluated : List (SectorMetrics × SectorStockRanking)) :
    SectorShadowSnapshot :=
  let complete := completeOf observations tradingDate
  let freshCount := (proxy.map (·.validCount)).getD 0
  { tradingDate
    evaluationTimestamp := evaluationTime
    expectedUniverseCount := (expectedUniverse resolver).length
    observedCount := observations.length
    completeCount := complete.length
    freshCount
    staleCount := (complete.length : Int) - freshCount
    missingPreviousCloseCount := observations.countP (·.previousClose.isNone)
    missingSessionOpenCount := observations.countP (·.sessionOpen.isNone)
    missingLastPriceCount := observations.countP (·.lastPrice.isNone)
    otherIncompleteCount := otherIncomplete observations tradingDate
    universeProxy := proxy
    sectorMetrics := evaluated.map (·.1)
    stockRankings := evaluated.map (·.2) }

/-- `_build_snapshot`. -/
def buildSnapshot (observations : List LatestObservation) (tradingDate : Option Int)
    (evaluationTime : Int) : Except EvaluationError SectorShadowSnapshot :=
  match tradingDate with
  | none => .ok (snapshotOf resolver none evaluationTime observations none [])
  | some date => do
    let constituents ← constituentsOn resolver date (completeOf observations (some date))
    let proxy ← (calculateUniverseProxy arith constituents policy date evaluationTime).mapError .metrics
    let evaluated ← resolver.allPrimarySectors.mapM
      (evaluateSector arith resolver policy date evaluationTime constituents proxy)
    return snapshotOf resolver (some date) evaluationTime observations (some proxy) evaluated

/-- The state after a sequence of observations. -/
def stateAfter (observations : List LatestObservation) : ObservationState :=
  run ObservationState.record (initialState resolver) observations

/-- `coherent_copy`. -/
def coherentCopy (state : ObservationState) : List LatestObservation := state.latest.map (·.2)

/-- An evaluation that copies the observations after `before`; `during` are the observations until the
    snapshot is built. -/
def evaluateOnce (evaluationTime : Int) (before during : List LatestObservation) :
    Except EvaluationError SectorShadowSnapshot :=
  buildSnapshot arith resolver policy (coherentCopy (stateAfter resolver before))
    (stateAfter resolver (before ++ during)).tradingDate evaluationTime

end Runtime

end ApexScan.SectorIntelligence
