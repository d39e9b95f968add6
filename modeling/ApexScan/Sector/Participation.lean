import ApexScan.Sector.Metrics
import Mathlib.Data.Prod.Lex

/-!
# Stock participation

Models `app/market_intelligence/sector/participation`: the stocks of a sector ranked within it.

* `baseMetrics` — a stock relative to its sector and to the universe proxy.
* `applyRanking` — the competition ranks and the order of the output.
* `validateRanking` — the checks of the observations; `rankSectorConstituents` — the ranking.

The decimal arithmetic is a parameter, as for the metrics.  Result: `validateRanking_eq_ok` — what passes
the checks.
-/

set_option autoImplicit false

namespace ApexScan.Sector

open Lib

inductive StockSectorAlignment where
  | aligned
  | opposed
  | neutral
  | mixedContext
  | insufficientData
  deriving DecidableEq, Repr

inductive StockExclusionReason where
  | stale
  deriving DecidableEq, Repr

structure StockSectorMetrics where
  identity : String
  sectorId : String
  tradingDate : Int
  evaluationTimestamp : Int
  stockIntradayReturn : ℚ
  stockOvernightReturn : ℚ
  stockTotalReturn : ℚ
  stockDirection : ConstituentDirection
  sectorRawDirection : RawSectorDirection
  sectorMedianIntradayReturn : Option ℚ
  universeProxyIntradayReturn : Option ℚ
  stockVsSector : Option ℚ
  stockVsUniverse : Option ℚ
  sectorAlignment : StockSectorAlignment
  directionalStrength : Option ℚ
  robustRelativeMagnitude : Option ℚ
  withinSectorRank : Option ℕ
  withinSectorPercentile : Option ℚ
  eligible : Bool
  exclusionReason : Option StockExclusionReason

structure SectorStockRanking where
  sectorId : String
  tradingDate : Int
  evaluationTimestamp : Int
  sectorRawDirection : RawSectorDirection
  directionalRankingAvailable : Bool
  eligibleCount : ℕ
  rankedStocks : List StockSectorMetrics
  excludedStocks : List StockSectorMetrics

/-- The errors of the ranking with their messages, and an overflow of the decimal context. -/
inductive StockRankingError where
  | duplicateRankedConstituent (message : String)
  | contextMismatch (message : String)
  | overflow
  deriving DecidableEq, Repr

/-- `_DIRECTIONAL`. -/
def directionalStates : List RawSectorDirection := [.bullish, .bearish]

/-- `_alignment`. -/
def alignment (stockDirection : ConstituentDirection) (sectorDirection : RawSectorDirection) :
    StockSectorAlignment :=
  match sectorDirection with
  | .mixed => .mixedContext
  | .insufficientData => .insufficientData
  | .neutral => .neutral
  | sectorDirection =>
    if stockDirection = .unchanged then .neutral
    else if (stockDirection = .advancing) = (sectorDirection = .bullish) then .aligned
    else .opposed

section Ranking

variable (arith : Arithmetic)

/-- `_directional_strength`. -/
def directionalStrength (intradayReturn : ℚ) (sectorDirection : RawSectorDirection) :
    Option (Option ℚ) :=
  match sectorDirection with
  | .bullish => some (some intradayReturn)
  | .bearish => do
    let negated ← arith (-intradayReturn)
    return some negated
  | _ => some none

/-- `_robust_relative_magnitude`. -/
def robustRelativeMagnitude (intradayReturn : ℚ) (sectorMedian madReturn : Option ℚ) :
    Option (Option ℚ) :=
  match sectorMedian, madReturn with
  | some sectorMedian, some madReturn =>
    if madReturn = 0 then some none
    else do
      let deviation ← arith (intradayReturn - sectorMedian)
      let magnitude ← arith (deviation / madReturn)
      return some magnitude
  | _, _ => some none

/-- `_relative`. -/
def relativeTo (value : ℚ) (benchmark : Option ℚ) : Option (Option ℚ) :=
  match benchmark with
  | none => some none
  | some benchmark => do
    let difference ← arith (value - benchmark)
    return some difference

/-- `_validate`: one observation after the other. -/
def validateRanking (sectorMetrics : SectorMetrics) :
    List String → List ConstituentObservation → Except StockRankingError Unit
  | _, [] => .ok ()
  | seen, observation :: rest =>
    if observation.identity ∈ seen then
      .error (.duplicateRankedConstituent ("duplicate ranked identity: " ++ observation.identity))
    else if observation.sectorId ≠ sectorMetrics.sectorId then
      .error (.contextMismatch
        (observation.identity ++ " sector " ++ observation.sectorId ++ " != " ++ sectorMetrics.sectorId))
    else if observation.tradingDate ≠ sectorMetrics.tradingDate then
      .error (.contextMismatch
        (observation.identity ++ " trading_date != " ++ isoformat sectorMetrics.tradingDate))
    else validateRanking sectorMetrics (observation.identity :: seen) rest

/-- `_base_metrics`. -/
def baseMetrics (observation : ConstituentObservation) (sectorMetrics : SectorMetrics)
    (policy : CalculationPolicy) (eligible : Bool) : Option StockSectorMetrics := do
  let cm ← calculateConstituentMetrics arith observation policy.directionEpsilon
  let sectorMedian := sectorMetrics.medianIntradayReturn
  let proxy := sectorMetrics.universeProxyIntradayReturn
  let direction := sectorMetrics.rawDirection
  return {
    identity := cm.identity
    sectorId := sectorMetrics.sectorId
    tradingDate := sectorMetrics.tradingDate
    evaluationTimestamp := sectorMetrics.evaluationTimestamp
    stockIntradayReturn := cm.intradayReturn
    stockOvernightReturn := cm.overnightReturn
    stockTotalReturn := cm.totalReturn
    stockDirection := cm.direction
    sectorRawDirection := direction
    sectorMedianIntradayReturn := sectorMedian
    universeProxyIntradayReturn := proxy
    stockVsSector := ← relativeTo arith cm.intradayReturn sectorMedian
    stockVsUniverse := ← relativeTo arith cm.intradayReturn proxy
    sectorAlignment := alignment cm.direction direction
    directionalStrength := ← directionalStrength arith cm.intradayReturn direction
    robustRelativeMagnitude := ← robustRelativeMagnitude arith cm.intradayReturn sectorMedian
      sectorMetrics.dispersion.madIntradayReturn
    withinSectorRank := none
    withinSectorPercentile := none
    eligible
    exclusionReason := if eligible then none else some .stale }

/-- One more than the number of stronger stocks. -/
def rankOf (strengths : List (Option ℚ)) (strength : Option ℚ) : ℕ :=
  1 + strengths.countP fun other => ∃ q ∈ other, ∃ p ∈ strength, p < q

/-- From 1 for the strongest to 0 for the weakest; none for a single stock. -/
def percentileOf (rank count : ℕ) : Option (Option ℚ) :=
  if count < 2 then some none
  else do
    let quotient ← arith (((count : ℚ) - rank) / ((count : ℚ) - 1))
    return some quotient

/-- Rank and percentile of one stock. -/
def rankOne (strengths : List (Option ℚ)) (stock : StockSectorMetrics) : Option StockSectorMetrics := do
  let rank := rankOf strengths stock.directionalStrength
  let percentile ← percentileOf arith rank strengths.length
  return { stock with withinSectorRank := some rank, withinSectorPercentile := percentile }

/-- The key of the output order: the stronger first, equal ones by identity.  A strength is a rounded
    value, so that its negation is exact. -/
def rankingKey (stock : StockSectorMetrics) : ℚ ×ₗ String :=
  toLex (-(stock.directionalStrength.getD 0), stock.identity)

/-- `_apply_ranking`. -/
def applyRanking (eligible : List StockSectorMetrics) : Option (List StockSectorMetrics) := do
  let ranked ← eligible.mapM (rankOne arith (eligible.map (·.directionalStrength)))
  return sortBy rankingKey ranked

/-- What `rank_sector_constituents` calculates once the observations are valid. -/
def rankingEvidence (sectorMetrics : SectorMetrics) (observations : List ConstituentObservation)
    (policy : CalculationPolicy) : Option SectorStockRanking := do
  let fresh := isFresh sectorMetrics.evaluationTimestamp policy.freshnessLimit
  let excluded ← (observations.filter fun o => !fresh o).mapM fun o =>
    baseMetrics arith o sectorMetrics policy false
  let eligible ← (observations.filter fresh).mapM fun o =>
    baseMetrics arith o sectorMetrics policy true
  let directional := decide (sectorMetrics.rawDirection ∈ directionalStates)
  let ranked ←
    if directional then applyRanking arith eligible
    else some (sortBy (·.identity) eligible)
  return {
    sectorId := sectorMetrics.sectorId
    tradingDate := sectorMetrics.tradingDate
    evaluationTimestamp := sectorMetrics.evaluationTimestamp
    sectorRawDirection := sectorMetrics.rawDirection
    directionalRankingAvailable := directional
    eligibleCount := eligible.length
    rankedStocks := ranked
    excludedStocks := sortBy (·.identity) excluded }

/-- `rank_sector_constituents`. -/
def rankSectorConstituents (sectorMetrics : SectorMetrics)
    (observations : List ConstituentObservation) (policy : CalculationPolicy) :
    Except StockRankingError SectorStockRanking := do
  validateRanking sectorMetrics [] observations
  match rankingEvidence arith sectorMetrics observations policy with
  | some ranking => .ok ranking
  | none => .error .overflow

end Ranking

/-- What the checks of a ranking accept: distinct stocks of the sector, of the date. -/
theorem validateRanking_eq_ok {sectorMetrics : SectorMetrics} {seen : List String}
    {observations : List ConstituentObservation} :
    validateRanking sectorMetrics seen observations = .ok () ↔
      rejectDuplicates seen observations = .ok () ∧
        ∀ o ∈ observations, o.sectorId = sectorMetrics.sectorId ∧
          o.tradingDate = sectorMetrics.tradingDate := by
  induction observations generalizing seen with
  | nil => simp [validateRanking, rejectDuplicates]
  | cons head rest ih =>
    rw [validateRanking, rejectDuplicates, List.forall_mem_cons]
    split
    · simp
    · split
      · simp_all
      · split
        · simp_all
        · rename_i hsector hdate
          rw [ih, not_not.mp hsector, not_not.mp hdate]
          simp

theorem rankSectorConstituents_eq_ok {arith : Arithmetic} {sectorMetrics : SectorMetrics}
    {observations : List ConstituentObservation} {policy : CalculationPolicy}
    {ranking : SectorStockRanking} :
    rankSectorConstituents arith sectorMetrics observations policy = .ok ranking ↔
      validateRanking sectorMetrics [] observations = .ok () ∧
        rankingEvidence arith sectorMetrics observations policy = some ranking := by
  unfold rankSectorConstituents
  rw [check_eq_ok]
  cases rankingEvidence arith sectorMetrics observations policy <;> simp

end ApexScan.Sector
