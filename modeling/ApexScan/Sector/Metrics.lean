import ApexScan.Lib.IsoDate
import ApexScan.Lib.Raising
import ApexScan.Lib.Sorting
import ApexScan.Schemas.MarketData
import Mathlib.Data.Finset.Card
import Mathlib.Data.String.Basic

/-!
# Sector metrics

Models `models.py`, `statistics.py` and `engine.py` of `app/market_intelligence/sector/metrics`.

* `median`, `mad`, `iqr` — the order statistics.
* `calculateConstituentMetrics` — the returns of one observation and its direction.
* `validateScope` — the checks of a sector's observations; `sectorEvidence` — what is calculated from
  them; `calculateSectorMetrics` — the one after the other.
* `calculateUniverseProxy` — the median return of all fresh observations.

The decimal arithmetic is a parameter: the rounding of the active context, or `some`, which is exact.
Results: `validateScope_eq_ok`, `rejectDuplicates_eq_ok` — the observations that pass, and
`sectorEvidence_counts` — the counts of what is calculated.
-/

set_option autoImplicit false

namespace ApexScan.Sector

open Lib

/-- What a decimal operation gives for its exact value; `none` is an overflow. -/
abbrev Arithmetic := ℚ → Option ℚ

section Calculations

variable (arith : Arithmetic)

/-! ## Order statistics -/

/-- `median`: of the sorted values the middle one, or the mean of the two in the middle. -/
def median (values : List ℚ) : Option (Option ℚ) :=
  let ordered := sortBy id values
  let mid := values.length / 2
  if values.length = 0 then some none
  else if values.length % 2 = 1 then some (some (ordered.getD mid 0))
  else do
    let sum ← arith (ordered.getD (mid - 1) 0 + ordered.getD mid 0)
    let mean ← arith (sum / 2)
    return some mean

/-- `mad`: the median deviation from the median. -/
def mad (values : List ℚ) : Option (Option ℚ) := do
  match ← median arith values with
  | none => return none
  | some center =>
    let deviations ← values.mapM fun value => do
      let deviation ← arith (value - center)
      arith |deviation|
    median arith deviations

/-- `iqr`: between the medians of the two halves, without the middle value of an odd number. -/
def iqr (values : List ℚ) : Option (Option ℚ) :=
  if values.length < 2 then some none
  else do
    let ordered := sortBy id values
    let half := ordered.length / 2
    match ← median arith (ordered.take half), ← median arith (ordered.drop (ordered.length - half)) with
    | some q1, some q3 =>
      let range ← arith (q3 - q1)
      return some range
    | _, _ => return none

/-! ## Inputs and outputs -/

inductive ConstituentDirection where
  | advancing
  | unchanged
  | declining
  deriving DecidableEq, Repr

inductive RawSectorDirection where
  | bullish
  | bearish
  | neutral
  | mixed
  | insufficientData
  deriving DecidableEq, Repr

structure CalculationPolicy where
  directionEpsilon : ℚ
  freshnessLimit : Int
  minimumValidCount : ℕ := 1
  minimumCoverageRatio : Option ℚ := none
  directionEpsilon_nonneg : 0 ≤ directionEpsilon
  freshnessLimit_pos : 0 < freshnessLimit
  minimumValidCount_pos : 1 ≤ minimumValidCount := by decide
  minimumCoverageRatio_mem : ∀ q ∈ minimumCoverageRatio, 0 ≤ q ∧ q ≤ 1 := by simp

/-- One constituent of a sector since the open. -/
structure ConstituentObservation where
  identity : String
  sectorId : String
  tradingDate : Int
  observationTimestamp : Int
  lastPrice : Price
  previousClose : Price
  sessionOpen : Price
  identity_ne : identity ≠ ""
  sectorId_ne : sectorId ≠ ""

structure ConstituentMetrics where
  identity : String
  sectorId : String
  overnightReturn : ℚ
  intradayReturn : ℚ
  totalReturn : ℚ
  direction : ConstituentDirection

structure SectorBreadth where
  validCount : ℕ
  advanceCount : ℕ
  declineCount : ℕ
  unchangedCount : ℕ
  advanceRatio : Option ℚ
  declineRatio : Option ℚ
  unchangedRatio : Option ℚ
  netBreadth : Option ℚ

structure SectorDispersion where
  madIntradayReturn : Option ℚ
  iqrIntradayReturn : Option ℚ

structure UniverseProxyMetrics where
  validCount : ℕ
  medianIntradayReturn : Option ℚ

structure SectorMetrics where
  sectorId : String
  tradingDate : Int
  evaluationTimestamp : Int
  expectedCount : ℕ
  validCount : ℕ
  staleCount : ℕ
  missingCount : Int
  invalidCount : ℕ
  coverageRatio : ℚ
  breadth : SectorBreadth
  medianOvernightReturn : Option ℚ
  medianIntradayReturn : Option ℚ
  medianTotalReturn : Option ℚ
  dispersion : SectorDispersion
  directionalAgreement : Option ℚ
  directionalParticipantCount : ℕ
  directionalParticipationRatio : Option ℚ
  rawDirection : RawSectorDirection
  universeProxyIntradayReturn : Option ℚ
  relativeStrength : Option ℚ
  constituents : List ConstituentMetrics

/-- The errors of the engine with their messages, and an overflow of the decimal context. -/
inductive SectorMetricsError where
  | duplicateConstituent (message : String)
  | mixedTradingDate (message : String)
  | membershipMismatch (message : String)
  | overflow
  deriving DecidableEq, Repr

/-! ## The calculations -/

inductive Tilt where
  | bull
  | neutral
  | bear
  deriving DecidableEq, Repr

/-- `_tilt`; the negation is an operation of its own. -/
def tilt (value : Option ℚ) (epsilon : ℚ) : Option Tilt :=
  match value with
  | none => some .neutral
  | some value =>
    if epsilon < value then some .bull
    else do
      let negated ← arith (-epsilon)
      return if value < negated then .bear else .neutral

/-- `_ratio`. -/
def ratio (numerator : Int) (denominator : ℕ) : Option (Option ℚ) :=
  if denominator = 0 then some none
  else do
    let quotient ← arith (numerator / denominator)
    return some quotient

def Tilt.direction : Tilt → ConstituentDirection
  | .bull => .advancing
  | .bear => .declining
  | .neutral => .unchanged

/-- `calculate_constituent_metrics`. -/
def calculateConstituentMetrics (observation : ConstituentObservation) (directionEpsilon : ℚ) :
    Option ConstituentMetrics := do
  let overnightChange ← arith (observation.sessionOpen.1 - observation.previousClose.1)
  let overnight ← arith (overnightChange / observation.previousClose.1)
  let intradayChange ← arith (observation.lastPrice.1 - observation.sessionOpen.1)
  let intraday ← arith (intradayChange / observation.sessionOpen.1)
  let totalChange ← arith (observation.lastPrice.1 - observation.previousClose.1)
  let total ← arith (totalChange / observation.previousClose.1)
  let tilt ← tilt arith (some intraday) directionEpsilon
  return {
    identity := observation.identity
    sectorId := observation.sectorId
    overnightReturn := overnight
    intradayReturn := intraday
    totalReturn := total
    direction := tilt.direction }

/-- `_is_fresh`. -/
def isFresh (evaluationTime limit : Int) (observation : ConstituentObservation) : Bool :=
  let age := evaluationTime - observation.observationTimestamp
  decide (0 ≤ age ∧ age ≤ limit)

/-- `_breadth`. -/
def breadthOf (constituents : List ConstituentMetrics) : Option SectorBreadth := do
  let valid := constituents.length
  let advancing := constituents.countP fun c => c.direction = .advancing
  let declining := constituents.countP fun c => c.direction = .declining
  let unchanged := valid - advancing - declining
  return {
    validCount := valid
    advanceCount := advancing
    declineCount := declining
    unchangedCount := unchanged
    advanceRatio := ← ratio arith advancing valid
    declineRatio := ← ratio arith declining valid
    unchangedRatio := ← ratio arith unchanged valid
    netBreadth := ← ratio arith ((advancing : Int) - declining) valid }

/-- `_agreement`. -/
def agreement (medianTilt : Tilt) (breadth : SectorBreadth) : Option ℚ :=
  match medianTilt with
  | .bull => breadth.advanceRatio
  | .bear => breadth.declineRatio
  | .neutral => breadth.unchangedRatio

/-- The count of `_participation`. -/
def participantCount (medianTilt : Tilt) (constituents : List ConstituentMetrics) (epsilon : ℚ) :
    Option ℕ :=
  match medianTilt with
  | .bull => some (constituents.countP fun c => epsilon < c.intradayReturn)
  | .bear => do
    let negated ← arith (-epsilon)
    return constituents.countP fun c => c.intradayReturn < negated
  | .neutral => some 0

/-- `_participation`. -/
def participation (medianTilt : Tilt) (constituents : List ConstituentMetrics) (epsilon : ℚ) :
    Option (ℕ × Option ℚ) := do
  let count ← participantCount arith medianTilt constituents epsilon
  let ratio ← ratio arith count constituents.length
  return (count, ratio)

/-- `_raw_direction`. -/
def rawDirectionOf (medianTilt breadthTilt : Tilt) (validCount : ℕ) (coverageRatio : ℚ)
    (policy : CalculationPolicy) : RawSectorDirection :=
  if validCount = 0 ∨ validCount < policy.minimumValidCount then .insufficientData
  else if ∃ minimum ∈ policy.minimumCoverageRatio, coverageRatio < minimum then .insufficientData
  else if medianTilt = .bull ∧ breadthTilt = .bull then .bullish
  else if medianTilt = .bear ∧ breadthTilt = .bear then .bearish
  else if medianTilt = .neutral ∧ breadthTilt = .neutral then .neutral
  else .mixed

/-- `_reject_duplicates`. -/
def rejectDuplicates : List String → List ConstituentObservation → Except SectorMetricsError Unit
  | _, [] => .ok ()
  | seen, observation :: rest =>
    if observation.identity ∈ seen then
      .error (.duplicateConstituent ("duplicate constituent identity: " ++ observation.identity))
    else rejectDuplicates (observation.identity :: seen) rest

/-- The date check of `_validate_scope` and of `calculate_universe_proxy`. -/
def validateDate (tradingDate : Int) (observation : ConstituentObservation) :
    Except SectorMetricsError Unit :=
  if observation.tradingDate ≠ tradingDate then
    .error (.mixedTradingDate
      (observation.identity ++ " trading_date != " ++ isoformat tradingDate))
  else .ok ()

/-- One observation of `_validate_scope`. -/
def validateObservation (sectorId : String) (expected : Finset String) (tradingDate : Int)
    (observation : ConstituentObservation) : Except SectorMetricsError Unit :=
  if observation.sectorId ≠ sectorId then
    .error (.membershipMismatch
      (observation.identity ++ " is " ++ observation.sectorId ++ ", not " ++ sectorId))
  else if observation.identity ∉ expected then
    .error (.membershipMismatch
      (observation.identity ++ " not in " ++ sectorId ++ " membership"))
  else validateDate tradingDate observation

/-- `_validate_scope`. -/
def validateScope (sectorId : String) (expected : Finset String)
    (observations : List ConstituentObservation) (tradingDate : Int) :
    Except SectorMetricsError Unit := do
  rejectDuplicates [] observations
  observations.forM (validateObservation sectorId expected tradingDate)

/-- The result of a calculation, or the overflow it raises. -/
def orOverflow {α : Type} (result : Option α) : Except SectorMetricsError α :=
  match result with
  | some value => .ok value
  | none => .error .overflow

/-- What `calculate_universe_proxy` calculates. -/
def proxyEvidence (observations : List ConstituentObservation) (policy : CalculationPolicy)
    (evaluationTime : Int) : Option UniverseProxyMetrics := do
  let fresh := observations.filter (isFresh evaluationTime policy.freshnessLimit)
  let constituents ← fresh.mapM fun o => calculateConstituentMetrics arith o policy.directionEpsilon
  let medianIntraday ← median arith (constituents.map (·.intradayReturn))
  return { validCount := fresh.length, medianIntradayReturn := medianIntraday }

/-- `calculate_universe_proxy`. -/
def calculateUniverseProxy (observations : List ConstituentObservation) (policy : CalculationPolicy)
    (tradingDate evaluationTime : Int) : Except SectorMetricsError UniverseProxyMetrics := do
  rejectDuplicates [] observations
  observations.forM (validateDate tradingDate)
  orOverflow (proxyEvidence arith observations policy evaluationTime)

/-- `calculate_relative_strength`. -/
def calculateRelativeStrength (sectorMedianIntraday universeProxyIntraday : Option ℚ) :
    Option (Option ℚ) :=
  match sectorMedianIntraday, universeProxyIntraday with
  | some sector, some proxy => do
    let strength ← arith (sector - proxy)
    return some strength
  | _, _ => some none

/-- What `calculate_sector_metrics` calculates once the scope is valid. -/
def sectorEvidence (sectorId : String) (expected : Finset String)
    (observations : List ConstituentObservation) (policy : CalculationPolicy)
    (tradingDate evaluationTime : Int) (universeProxy : Option UniverseProxyMetrics) :
    Option SectorMetrics := do
  let fresh := observations.filter (isFresh evaluationTime policy.freshnessLimit)
  let constituents ← fresh.mapM fun o => calculateConstituentMetrics arith o policy.directionEpsilon
  let coverage ← ratio arith fresh.length expected.card
  let breadth ← breadthOf arith constituents
  let medianIntraday ← median arith (constituents.map (·.intradayReturn))
  let medianOvernight ← median arith (constituents.map (·.overnightReturn))
  let medianTotal ← median arith (constituents.map (·.totalReturn))
  let medianTilt ← tilt arith medianIntraday policy.directionEpsilon
  let breadthTilt ← tilt arith breadth.netBreadth 0
  let participants ← participation arith medianTilt constituents policy.directionEpsilon
  let proxyValue := universeProxy.bind (·.medianIntradayReturn)
  let madIntraday ← mad arith (constituents.map (·.intradayReturn))
  let iqrIntraday ← iqr arith (constituents.map (·.intradayReturn))
  let relativeStrength ← calculateRelativeStrength arith medianIntraday proxyValue
  return {
    sectorId
    tradingDate
    evaluationTimestamp := evaluationTime
    expectedCount := expected.card
    validCount := fresh.length
    staleCount := observations.length - fresh.length
    missingCount := (expected.card : Int) - observations.length
    invalidCount := 0
    coverageRatio := coverage.getD 0
    breadth
    medianOvernightReturn := medianOvernight
    medianIntradayReturn := medianIntraday
    medianTotalReturn := medianTotal
    dispersion := { madIntradayReturn := madIntraday, iqrIntradayReturn := iqrIntraday }
    directionalAgreement := if fresh.length = 0 then none else agreement medianTilt breadth
    directionalParticipantCount := participants.1
    directionalParticipationRatio := participants.2
    rawDirection :=
      rawDirectionOf medianTilt breadthTilt fresh.length (coverage.getD 0) policy
    universeProxyIntradayReturn := proxyValue
    relativeStrength
    constituents }

/-- `calculate_sector_metrics`. -/
def calculateSectorMetrics (sectorId : String) (expected : Finset String)
    (observations : List ConstituentObservation) (policy : CalculationPolicy)
    (tradingDate evaluationTime : Int) (universeProxy : Option UniverseProxyMetrics) :
    Except SectorMetricsError SectorMetrics := do
  validateScope sectorId expected observations tradingDate
  orOverflow
    (sectorEvidence arith sectorId expected observations policy tradingDate evaluationTime universeProxy)

end Calculations

/-! ## What passes the checks -/

theorem rejectDuplicates_eq_ok {seen : List String} {observations : List ConstituentObservation} :
    rejectDuplicates seen observations = .ok () ↔
      (observations.map (·.identity)).Nodup ∧ ∀ o ∈ observations, o.identity ∉ seen := by
  induction observations generalizing seen with
  | nil => simp [rejectDuplicates]
  | cons head rest ih =>
    rw [rejectDuplicates, List.map_cons, List.nodup_cons, List.forall_mem_cons]
    split
    · rename_i hseen
      simp [hseen]
    · rename_i hseen
      rw [ih]
      constructor
      · rintro ⟨hnodup, hfresh⟩
        refine ⟨⟨?_, hnodup⟩, hseen, fun o ho => fun h => hfresh o ho (List.mem_cons_of_mem _ h)⟩
        intro hmem
        obtain ⟨o, ho, heq⟩ := List.mem_map.mp hmem
        exact hfresh o ho (heq ▸ List.mem_cons_self)
      · rintro ⟨⟨hnew, hnodup⟩, -, hfresh⟩
        refine ⟨hnodup, fun o ho hmem => ?_⟩
        rcases List.mem_cons.mp hmem with heq | hmem
        · exact hnew (heq ▸ List.mem_map_of_mem ho)
        · exact hfresh o ho hmem

theorem validateDate_eq_ok {tradingDate : Int} {o : ConstituentObservation} :
    validateDate tradingDate o = .ok () ↔ o.tradingDate = tradingDate := by
  unfold validateDate
  split <;> simp_all

theorem validateObservation_eq_ok {sectorId : String} {expected : Finset String} {tradingDate : Int}
    {o : ConstituentObservation} :
    validateObservation sectorId expected tradingDate o = .ok () ↔
      o.sectorId = sectorId ∧ o.identity ∈ expected ∧ o.tradingDate = tradingDate := by
  unfold validateObservation
  rw [← validateDate_eq_ok]
  split
  · simp_all
  · split <;> simp_all

/-- **What `_validate_scope` accepts**: distinct members of the sector, of the date. -/
theorem validateScope_eq_ok {sectorId : String} {expected : Finset String}
    {observations : List ConstituentObservation} {tradingDate : Int} :
    validateScope sectorId expected observations tradingDate = .ok () ↔
      (observations.map (·.identity)).Nodup ∧
        ∀ o ∈ observations, o.sectorId = sectorId ∧ o.identity ∈ expected ∧
          o.tradingDate = tradingDate := by
  unfold validateScope
  rw [check_eq_ok, rejectDuplicates_eq_ok, forM_eq_ok]
  simp only [validateObservation_eq_ok, List.not_mem_nil, not_false_eq_true, implies_true, and_true]

theorem orOverflow_eq_ok {α : Type} {result : Option α} {value : α} :
    orOverflow result = .ok value ↔ result = some value := by
  unfold orOverflow
  cases result <;> simp

/-! ## The counts -/

theorem proxyEvidence_validCount {arith : Arithmetic} {observations : List ConstituentObservation}
    {policy : CalculationPolicy} {evaluationTime : Int} {proxy : UniverseProxyMetrics}
    (h : proxyEvidence arith observations policy evaluationTime = some proxy) :
    proxy.validCount = (observations.filter (isFresh evaluationTime policy.freshnessLimit)).length := by
  obtain ⟨constituents, -, h⟩ := Option.bind_eq_some_iff.mp h
  obtain ⟨medianIntraday, -, h⟩ := Option.bind_eq_some_iff.mp h
  cases h
  rfl

/-- The counts of a sector are those of its expected identities and of its observations. -/
theorem sectorEvidence_counts {arith : Arithmetic} {sectorId : String} {expected : Finset String}
    {observations : List ConstituentObservation} {policy : CalculationPolicy}
    {tradingDate evaluationTime : Int} {universeProxy : Option UniverseProxyMetrics} {m : SectorMetrics}
    (h : sectorEvidence arith sectorId expected observations policy tradingDate evaluationTime
      universeProxy = some m) :
    m.sectorId = sectorId ∧ m.tradingDate = tradingDate ∧ m.expectedCount = expected.card ∧
      m.validCount = (observations.filter (isFresh evaluationTime policy.freshnessLimit)).length ∧
      m.validCount + m.staleCount = observations.length := by
  unfold sectorEvidence at h
  simp only [Option.bind_eq_bind, Option.bind_eq_some_iff, Option.pure_def, Option.some.injEq] at h
  obtain ⟨_, -, _, -, _, -, _, -, _, -, _, -, _, -, _, -, _, -, _, -, _, -, _, -, rfl⟩ := h
  refine ⟨rfl, rfl, rfl, rfl, ?_⟩
  have := List.length_filter_le (isFresh evaluationTime policy.freshnessLimit) observations
  exact Nat.add_sub_cancel' this

end ApexScan.Sector
