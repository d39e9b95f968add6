import ApexScan.Lib.Median
import ApexScan.Sector.Metrics

/-!
# The metrics of a sector over exact numbers

Over exact numbers no operation overflows, and the metrics of a sector are a function of its fresh
constituents.

* `medianOf`, `exactTilt`, `exactRatio`, `exactConstituent`, `exactBreadth`, `exactMetrics` — what the
  calculations give; `sectorEvidence_exact` — that they do.
* `Coherent` — what the counts, the breadth and the order statistics of one result have to do with one
  another; `SameButOrder` — the same result up to the order of the constituents.

Main result: `metrics_coherent`, with `six_shares_coherent` for an instance.
-/

set_option autoImplicit false

namespace ApexScan.Sector

open Lib

/-! ## The calculations -/

theorem mapM_exact {α β : Type} {f : α → Option β} {g : α → β} (h : ∀ a, f a = some (g a))
    (xs : List α) : xs.mapM f = some (xs.map g) := by
  rw [funext h]
  exact List.mapM_pure

/-- The median, where there is a value. -/
def medianOf (values : List ℚ) : Option ℚ := if values = [] then none else some (middle values)

theorem median_exact (values : List ℚ) : median some values = some (medianOf values) := by
  unfold median medianOf
  by_cases hnil : values = []
  · simp [hnil]
  · have hpos := List.length_pos_iff.mpr hnil
    rw [if_neg hnil, if_neg (by omega)]
    by_cases hodd : values.length % 2 = 1
    · have hsame : (values.length - 1) / 2 = values.length / 2 := by omega
      rw [if_pos hodd]
      unfold middle lowerMiddle upperMiddle
      rw [hsame, add_self_div_two]
    · have hbefore : (values.length - 1) / 2 = values.length / 2 - 1 := by omega
      rw [if_neg hodd]
      unfold middle lowerMiddle upperMiddle
      rw [hbefore]
      rfl

/-- The deviations from the median. -/
def deviations (values : List ℚ) : List ℚ := values.map fun value => |value - middle values|

theorem mad_exact (values : List ℚ) : mad some values = some (medianOf (deviations values)) := by
  unfold mad
  rw [median_exact]
  unfold medianOf deviations
  by_cases hnil : values = []
  · simp [hnil]
  · simp only [hnil, if_false, Option.bind_eq_bind, Option.bind_some]
    rw [mapM_exact fun value => rfl]
    exact median_exact _

/-- The lower and the upper half of the sorted values, without the middle one of an odd number. -/
def halves (values : List ℚ) : List ℚ × List ℚ :=
  let ordered := sortBy id values
  (ordered.take (ordered.length / 2), ordered.drop (ordered.length - ordered.length / 2))

def iqrOf (values : List ℚ) : Option ℚ :=
  if values.length < 2 then none else some (middle (halves values).2 - middle (halves values).1)

theorem halves_ne_nil {values : List ℚ} (h : ¬ values.length < 2) :
    (halves values).1 ≠ [] ∧ (halves values).2 ≠ [] := by
  have hlength : (sortBy id values).length = values.length := length_sortBy
  unfold halves
  rw [← List.length_pos_iff, ← List.length_pos_iff, List.length_take, List.length_drop]
  omega

theorem iqr_exact (values : List ℚ) : iqr some values = some (iqrOf values) := by
  unfold iqr iqrOf
  by_cases hshort : values.length < 2
  · rw [if_pos hshort, if_pos hshort]
  · obtain ⟨hlower, hupper⟩ := halves_ne_nil hshort
    unfold halves at hlower hupper ⊢
    rw [if_neg hshort, if_neg hshort]
    simp only [median_exact, medianOf, hlower, hupper, if_false, Option.bind_eq_bind, Option.bind_some]
    rfl

def exactTilt (value epsilon : ℚ) : Tilt :=
  if epsilon < value then .bull else if value < -epsilon then .bear else .neutral

theorem tilt_exact (value : Option ℚ) (epsilon : ℚ) :
    tilt some value epsilon = some ((value.map fun value => exactTilt value epsilon).getD .neutral) := by
  cases value with
  | none => rfl
  | some value =>
    unfold tilt exactTilt
    simp only [Option.map_some, Option.getD_some]
    split
    · rfl
    · rfl

def exactRatio (numerator : Int) (denominator : ℕ) : Option ℚ :=
  if denominator = 0 then none else some (numerator / denominator)

theorem ratio_exact (numerator : Int) (denominator : ℕ) :
    ratio some numerator denominator = some (exactRatio numerator denominator) := by
  unfold ratio exactRatio
  split
  · rfl
  · rfl

/-- The returns of an observation and its direction. -/
def exactConstituent (epsilon : ℚ) (o : ConstituentObservation) : ConstituentMetrics where
  identity := o.identity
  sectorId := o.sectorId
  overnightReturn := (o.sessionOpen.1 - o.previousClose.1) / o.previousClose.1
  intradayReturn := (o.lastPrice.1 - o.sessionOpen.1) / o.sessionOpen.1
  totalReturn := (o.lastPrice.1 - o.previousClose.1) / o.previousClose.1
  direction := (exactTilt ((o.lastPrice.1 - o.sessionOpen.1) / o.sessionOpen.1) epsilon).direction

theorem calculateConstituentMetrics_exact (epsilon : ℚ) (o : ConstituentObservation) :
    calculateConstituentMetrics some o epsilon = some (exactConstituent epsilon o) := by
  unfold calculateConstituentMetrics
  simp only [Option.bind_eq_bind, Option.bind_some, tilt_exact, Option.map_some, Option.getD_some]
  rfl

def exactBreadth (constituents : List ConstituentMetrics) : SectorBreadth :=
  let valid := constituents.length
  let advancing := constituents.countP fun c => c.direction = .advancing
  let declining := constituents.countP fun c => c.direction = .declining
  let unchanged := valid - advancing - declining
  { validCount := valid, advanceCount := advancing, declineCount := declining
    unchangedCount := unchanged
    advanceRatio := exactRatio advancing valid
    declineRatio := exactRatio declining valid
    unchangedRatio := exactRatio unchanged valid
    netBreadth := exactRatio ((advancing : Int) - declining) valid }

theorem breadthOf_exact (constituents : List ConstituentMetrics) :
    breadthOf some constituents = some (exactBreadth constituents) := by
  unfold breadthOf
  simp only [ratio_exact, Option.bind_eq_bind, Option.bind_some]
  rfl

def exactParticipants (medianTilt : Tilt) (constituents : List ConstituentMetrics) (epsilon : ℚ) : ℕ :=
  match medianTilt with
  | .bull => constituents.countP fun c => epsilon < c.intradayReturn
  | .bear => constituents.countP fun c => c.intradayReturn < -epsilon
  | .neutral => 0

theorem participation_exact (medianTilt : Tilt) (constituents : List ConstituentMetrics) (epsilon : ℚ) :
    participation some medianTilt constituents epsilon =
      some (exactParticipants medianTilt constituents epsilon,
        exactRatio (exactParticipants medianTilt constituents epsilon) constituents.length) := by
  unfold participation
  cases medianTilt with
  | bull =>
    simp only [participantCount, ratio_exact, Option.bind_eq_bind, Option.bind_some]
    rfl
  | bear =>
    simp only [participantCount, ratio_exact, Option.bind_eq_bind, Option.bind_some]
    rfl
  | neutral =>
    simp only [participantCount, ratio_exact, Option.bind_eq_bind, Option.bind_some]
    rfl

def exactStrength (median proxy : Option ℚ) : Option ℚ :=
  median.bind fun median => proxy.map fun proxy => median - proxy

theorem calculateRelativeStrength_exact (median proxy : Option ℚ) :
    calculateRelativeStrength some median proxy = some (exactStrength median proxy) := by
  cases median <;> cases proxy <;> rfl

section Metrics

variable (sectorId : String) (expected : Finset String) (policy : CalculationPolicy)
  (tradingDate evaluationTime : Int) (universeProxy : Option UniverseProxyMetrics)

/-- The metrics of a sector as a function of its fresh constituents and of the number of its
    observations. -/
def exactMetrics (observed : ℕ) (constituents : List ConstituentMetrics) : SectorMetrics :=
  let epsilon := policy.directionEpsilon
  let coverage := (exactRatio constituents.length expected.card).getD 0
  let breadth := exactBreadth constituents
  let intraday := constituents.map (·.intradayReturn)
  let medianTilt := ((medianOf intraday).map fun value => exactTilt value epsilon).getD .neutral
  let breadthTilt := (breadth.netBreadth.map fun value => exactTilt value 0).getD .neutral
  let participants := exactParticipants medianTilt constituents epsilon
  let proxyValue := universeProxy.bind (·.medianIntradayReturn)
  { sectorId, tradingDate, evaluationTimestamp := evaluationTime
    expectedCount := expected.card
    validCount := constituents.length
    staleCount := observed - constituents.length
    missingCount := (expected.card : Int) - observed
    invalidCount := 0
    coverageRatio := coverage
    breadth
    medianOvernightReturn := medianOf (constituents.map (·.overnightReturn))
    medianIntradayReturn := medianOf intraday
    medianTotalReturn := medianOf (constituents.map (·.totalReturn))
    dispersion :=
      { madIntradayReturn := medianOf (deviations intraday), iqrIntradayReturn := iqrOf intraday }
    directionalAgreement := if constituents.length = 0 then none else agreement medianTilt breadth
    directionalParticipantCount := participants
    directionalParticipationRatio := exactRatio participants constituents.length
    rawDirection := rawDirectionOf medianTilt breadthTilt constituents.length coverage policy
    universeProxyIntradayReturn := proxyValue
    relativeStrength := exactStrength (medianOf intraday) proxyValue
    constituents }

/-- The fresh observations. -/
def freshOf (observations : List ConstituentObservation) : List ConstituentObservation :=
  observations.filter (isFresh evaluationTime policy.freshnessLimit)

/-- **Over exact numbers the metrics are a function of the fresh constituents.** -/
theorem sectorEvidence_exact (observations : List ConstituentObservation) :
    sectorEvidence some sectorId expected observations policy tradingDate evaluationTime universeProxy =
      some (exactMetrics sectorId expected policy tradingDate evaluationTime universeProxy
        observations.length
        ((freshOf policy evaluationTime observations).map (exactConstituent policy.directionEpsilon))) := by
  have hconstituents := mapM_exact (calculateConstituentMetrics_exact policy.directionEpsilon)
  unfold sectorEvidence
  simp only [hconstituents, ratio_exact, breadthOf_exact, median_exact, tilt_exact,
    participation_exact, mad_exact, iqr_exact, calculateRelativeStrength_exact, Option.bind_eq_bind,
    Option.bind_some]
  unfold exactMetrics freshOf
  simp only [List.length_map]
  rfl

end Metrics

/-! ## The directions of the constituents -/

variable {epsilon : ℚ} {constituents : List ConstituentMetrics}

/-- The direction of each constituent is that of its intraday return. -/
def Directed (epsilon : ℚ) (constituents : List ConstituentMetrics) : Prop :=
  ∀ c ∈ constituents, c.direction = (exactTilt c.intradayReturn epsilon).direction

theorem directed_map (observations : List ConstituentObservation) :
    Directed epsilon (observations.map (exactConstituent epsilon)) := by
  intro c hc
  obtain ⟨o, _, rfl⟩ := List.mem_map.mp hc
  rfl

theorem exactTilt_bull_iff {value : ℚ} : exactTilt value epsilon = .bull ↔ epsilon < value := by
  unfold exactTilt
  split
  · simp_all
  · split <;> simp_all

theorem exactTilt_bear_iff {value : ℚ} (hepsilon : 0 ≤ epsilon) :
    exactTilt value epsilon = .bear ↔ value < -epsilon := by
  unfold exactTilt
  split
  · next hbull =>
    simp only [reduceCtorEq, false_iff, not_lt]
    linarith
  · split <;> simp_all

theorem direction_advancing_iff {t : Tilt} : t.direction = .advancing ↔ t = .bull := by
  cases t <;> simp [Tilt.direction]

theorem direction_declining_iff {t : Tilt} : t.direction = .declining ↔ t = .bear := by
  cases t <;> simp [Tilt.direction]

theorem countP_advancing (h : Directed epsilon constituents) :
    (constituents.countP fun c => c.direction = .advancing) =
      constituents.countP fun c => epsilon < c.intradayReturn := by
  refine List.countP_congr fun c hc => ?_
  rw [decide_eq_true_eq, decide_eq_true_eq, h c hc, direction_advancing_iff, exactTilt_bull_iff]

theorem countP_declining (hepsilon : 0 ≤ epsilon) (h : Directed epsilon constituents) :
    (constituents.countP fun c => c.direction = .declining) =
      constituents.countP fun c => c.intradayReturn < -epsilon := by
  refine List.countP_congr fun c hc => ?_
  rw [decide_eq_true_eq, decide_eq_true_eq, h c hc, direction_declining_iff,
    exactTilt_bear_iff hepsilon]

/-- Each constituent has one direction. -/
theorem countP_directions (constituents : List ConstituentMetrics) :
    (constituents.countP fun c => c.direction = .advancing) +
        (constituents.countP fun c => c.direction = .declining) +
        (constituents.countP fun c => c.direction = .unchanged) = constituents.length := by
  induction constituents with
  | nil => rfl
  | cons c constituents ih =>
    simp only [List.countP_cons, List.length_cons]
    cases c.direction <;> simp <;> omega

/-- A count of at least half is a ratio of at least a half. -/
theorem half_le_ratio {count total : ℕ} (hpos : 0 < total) (h : total ≤ 2 * count) :
    exactRatio count total = some ((count : ℚ) / total) ∧ (1 : ℚ) / 2 ≤ (count : ℚ) / total := by
  refine ⟨if_neg hpos.ne', ?_⟩
  have htotal : (0 : ℚ) < total := by exact_mod_cast hpos
  have hcast : (total : ℚ) ≤ 2 * count := by exact_mod_cast h
  rw [le_div_iff₀ htotal]
  linarith

/-- The sign of the returns of a tilt. -/
def Tilt.sign : Tilt → ℚ
  | .bull => 1
  | .neutral => 0
  | .bear => -1

theorem netBreadth_eq (hpos : 0 < constituents.length) :
    (exactBreadth constituents).netBreadth =
      some ((((constituents.countP fun c => c.direction = .advancing : ℕ) : ℚ) -
        (constituents.countP fun c => c.direction = .declining : ℕ)) / constituents.length) := by
  unfold exactBreadth exactRatio
  simp only [if_neg hpos.ne']
  push_cast
  rfl

/-! ## Coherence -/

/-- The constituents of the direction lead the sector; the sign is that of their returns. -/
structure Leads (m : SectorMetrics) (direction : ConstituentDirection) (sign : ℚ) : Prop where
  half : m.validCount ≤ 2 * m.constituents.countP fun c => c.direction = direction
  breadth : ∃ net ∈ m.breadth.netBreadth, 0 ≤ sign * net
  agreement : ∃ q, m.directionalAgreement = some q ∧ m.directionalParticipationRatio = some q ∧ 1 / 2 ≤ q

/-- The median deviation is not negative, and at least half of the returns are as near to the median. -/
structure Dispersed (m : SectorMetrics) (median mad : ℚ) : Prop where
  nonneg : 0 ≤ mad
  half : m.validCount ≤ 2 * m.constituents.countP fun c => |c.intradayReturn - median| ≤ mad

/-- What the parts of one result have to do with one another. -/
structure Coherent (m : SectorMetrics) (epsilon : ℚ) : Prop where
  counted : (m.validCount : Int) + m.staleCount + m.missingCount = m.expectedCount ∧ 0 ≤ m.missingCount
  valid : m.constituents.length = m.validCount ∧ m.breadth.validCount = m.validCount
  directions : m.breadth.advanceCount + m.breadth.declineCount + m.breadth.unchangedCount = m.validCount
  bullish : ∀ median ∈ m.medianIntradayReturn, epsilon < median → Leads m .advancing 1
  bearish : ∀ median ∈ m.medianIntradayReturn, median < -epsilon → Leads m .declining (-1)
  dispersed : 0 < m.validCount → ∃ median ∈ m.medianIntradayReturn,
    ∃ mad ∈ m.dispersion.madIntradayReturn, Dispersed m median mad
  undefined : m.validCount = 0 → m.medianIntradayReturn = none ∧ m.dispersion.madIntradayReturn = none
  range : ∀ iqr ∈ m.dispersion.iqrIntradayReturn, 0 ≤ iqr

theorem medianOf_eq_some {values : List ℚ} {r : ℚ} :
    medianOf values = some r ↔ values ≠ [] ∧ middle values = r := by
  unfold medianOf
  split
  · next hnil => simp [hnil]
  · next hnil => simp [hnil]

/-- The values of the upper half are at least those of the lower half. -/
theorem iqrOf_nonneg {values : List ℚ} {q : ℚ} (h : iqrOf values = some q) : 0 ≤ q := by
  unfold iqrOf at h
  split at h
  · cases h
  · next hlong =>
    obtain rfl := Option.some.inj h
    obtain ⟨hlower, hupper⟩ := halves_ne_nil hlong
    refine sub_nonneg.mpr (middle_mono hlower hupper fun x hx y hy => ?_)
    -- The sorted values are the lower half, what is between the halves, and the upper half.
    have hsorted : (sortBy id values).Pairwise fun a b => id a ≤ id b := pairwise_sortBy
    rw [← List.take_append_drop ((sortBy id values).length / 2) (sortBy id values),
      List.pairwise_append] at hsorted
    refine hsorted.2.2 x hx y ?_
    unfold halves at hy
    refine (List.drop_subset_drop_left _ ?_) hy
    omega

/-- At least half of the values are as near to the median as the median deviation. -/
theorem half_within_mad {values : List ℚ} (h : values ≠ []) :
    values.length ≤ 2 * values.countP fun value => |value - middle values| ≤ middle (deviations values) := by
  have hne : deviations values ≠ [] := by simpa [deviations] using h
  have hhalf := length_le_countP_le hne
  unfold deviations at hhalf ⊢
  rw [List.length_map, List.countP_map] at hhalf
  exact hhalf

section Result

variable {sectorId : String} {expected : Finset String} {policy : CalculationPolicy}
  {tradingDate evaluationTime : Int} {universeProxy : Option UniverseProxyMetrics} {observed : ℕ}

theorem exactParticipants_eq (hdirected : Directed policy.directionEpsilon constituents) {t : Tilt}
    (ht : t ≠ .neutral) :
    exactParticipants t constituents policy.directionEpsilon =
      constituents.countP fun c => c.direction = t.direction := by
  cases t with
  | bull => exact (countP_advancing hdirected).symm
  | neutral => exact absurd rfl ht
  | bear => exact (countP_declining policy.directionEpsilon_nonneg hdirected).symm

theorem agreement_eq {t : Tilt} (ht : t ≠ .neutral) :
    agreement t (exactBreadth constituents) =
      exactRatio (constituents.countP fun c => c.direction = t.direction) constituents.length := by
  cases t with
  | bull => rfl
  | neutral => exact absurd rfl ht
  | bear => rfl

/-- At least half of the constituents have the direction of a median that has one. -/
theorem half_of_tilt (hdirected : Directed policy.directionEpsilon constituents) {t : Tilt}
    (hne : constituents.map (·.intradayReturn) ≠ [])
    (htilt : exactTilt (middle (constituents.map (·.intradayReturn))) policy.directionEpsilon = t)
    (ht : t ≠ .neutral) :
    constituents.length ≤ 2 * constituents.countP fun c => c.direction = t.direction := by
  rw [← exactParticipants_eq hdirected ht]
  cases t with
  | bull =>
    have hhalf := length_le_countP_gt hne (exactTilt_bull_iff.mp htilt)
    rwa [List.length_map, List.countP_map] at hhalf
  | neutral => exact absurd rfl ht
  | bear =>
    have hhalf := length_le_countP_lt hne ((exactTilt_bear_iff policy.directionEpsilon_nonneg).mp htilt)
    rwa [List.length_map, List.countP_map] at hhalf

/-- The breadth does not lean against the direction of at least half of the constituents. -/
theorem netBreadth_of_half {t : Tilt} (hpos : 0 < constituents.length)
    (hhalf : constituents.length ≤ 2 * constituents.countP fun c => c.direction = t.direction)
    (ht : t ≠ .neutral) :
    ∃ net ∈ (exactBreadth constituents).netBreadth, 0 ≤ t.sign * net := by
  have hsum := countP_directions constituents
  refine ⟨_, netBreadth_eq hpos, ?_⟩
  rw [← mul_div_assoc]
  refine div_nonneg ?_ (Nat.cast_nonneg _)
  cases t with
  | bull =>
    have hle : (constituents.countP fun c => c.direction = .declining) ≤
        constituents.countP fun c => c.direction = .advancing := by
      rw [Tilt.direction] at hhalf
      omega
    rw [Tilt.sign, one_mul, sub_nonneg]
    exact_mod_cast hle
  | neutral => exact absurd rfl ht
  | bear =>
    have hle : (constituents.countP fun c => c.direction = .advancing) ≤
        constituents.countP fun c => c.direction = .declining := by
      rw [Tilt.direction] at hhalf
      omega
    rw [Tilt.sign, neg_one_mul, neg_sub, sub_nonneg]
    exact_mod_cast hle

/-- **The direction of the median leads.** -/
theorem exactMetrics_leads (hdirected : Directed policy.directionEpsilon constituents) {r : ℚ} {t : Tilt}
    (hmedian : medianOf (constituents.map (·.intradayReturn)) = some r)
    (htilt : exactTilt r policy.directionEpsilon = t) (ht : t ≠ .neutral) :
    Leads (exactMetrics sectorId expected policy tradingDate evaluationTime universeProxy observed
      constituents) t.direction t.sign := by
  obtain ⟨hne, rfl⟩ := medianOf_eq_some.mp hmedian
  have hpos : 0 < constituents.length := by
    rw [List.length_pos_iff]
    exact fun hnil => hne (by rw [hnil]; rfl)
  have hhalf := half_of_tilt hdirected hne htilt ht
  obtain ⟨hratio, hle⟩ := half_le_ratio hpos hhalf
  refine ⟨hhalf, netBreadth_of_half hpos hhalf ht, _, ?_, ?_, hle⟩
  · simp only [exactMetrics, hmedian, Option.map_some, Option.getD_some, htilt, if_neg hpos.ne',
      agreement_eq ht]
    exact hratio
  · simp only [exactMetrics, hmedian, Option.map_some, Option.getD_some, htilt,
      exactParticipants_eq hdirected ht]
    exact hratio

theorem exactMetrics_coherent (hdirected : Directed policy.directionEpsilon constituents)
    (hobserved : constituents.length ≤ observed) (hexpected : observed ≤ expected.card) :
    Coherent (exactMetrics sectorId expected policy tradingDate evaluationTime universeProxy observed
      constituents) policy.directionEpsilon where
  counted := by
    simp only [exactMetrics]
    omega
  valid := ⟨rfl, rfl⟩
  directions := by
    have hsum := countP_directions constituents
    simp only [exactMetrics, exactBreadth]
    omega
  bullish r hr hlt := exactMetrics_leads hdirected hr (exactTilt_bull_iff.mpr hlt) (by simp)
  bearish r hr hlt :=
    exactMetrics_leads hdirected hr
      ((exactTilt_bear_iff policy.directionEpsilon_nonneg).mpr hlt) (by simp)
  dispersed := by
    intro hpos
    have hne : constituents.map (·.intradayReturn) ≠ [] := by
      rw [← List.length_pos_iff, List.length_map]
      exact hpos
    have hdeviations : deviations (constituents.map (·.intradayReturn)) ≠ [] := by
      simpa [deviations] using hne
    refine ⟨_, medianOf_eq_some.mpr ⟨hne, rfl⟩, _, medianOf_eq_some.mpr ⟨hdeviations, rfl⟩, ?_, ?_⟩
    · refine middle_nonneg hdeviations fun d hd => ?_
      obtain ⟨value, _, rfl⟩ := List.mem_map.mp hd
      exact abs_nonneg _
    · have hhalf := half_within_mad hne
      rw [List.length_map, List.countP_map] at hhalf
      exact hhalf
  undefined := by
    intro hzero
    obtain rfl := List.length_eq_zero_iff.mp hzero
    exact ⟨rfl, rfl⟩
  range _ h := iqrOf_nonneg h

end Result

/-! ## The order of the observations -/

theorem medianOf_of_perm {xs ys : List ℚ} (h : xs.Perm ys) : medianOf xs = medianOf ys := by
  have hnil : xs = [] ↔ ys = [] := by rw [← List.length_eq_zero_iff, h.length_eq, List.length_eq_zero_iff]
  unfold medianOf
  simp only [hnil, middle_of_perm h]

theorem deviations_of_perm {xs ys : List ℚ} (h : xs.Perm ys) : (deviations xs).Perm (deviations ys) := by
  unfold deviations
  rw [middle_of_perm h]
  exact h.map _

theorem iqrOf_of_perm {xs ys : List ℚ} (h : xs.Perm ys) : iqrOf xs = iqrOf ys := by
  have hsorted : sortBy id xs = sortBy id ys := sortBy_of_perm h fun _ _ _ _ => id
  unfold iqrOf halves
  rw [h.length_eq, hsorted]

theorem exactBreadth_of_perm {cs cs' : List ConstituentMetrics} (h : cs.Perm cs') :
    exactBreadth cs = exactBreadth cs' := by
  unfold exactBreadth
  simp only [h.length_eq, h.countP_eq]

theorem exactParticipants_of_perm {cs cs' : List ConstituentMetrics} (h : cs.Perm cs') (t : Tilt) :
    exactParticipants t cs epsilon = exactParticipants t cs' epsilon := by
  cases t with
  | bull => exact h.countP_eq _
  | neutral => rfl
  | bear => exact h.countP_eq _

/-- The same result up to the order of the constituents. -/
structure SameButOrder (m m' : SectorMetrics) : Prop where
  fields : { m with constituents := [] } = { m' with constituents := [] }
  constituents : m.constituents.Perm m'.constituents

theorem exactMetrics_of_perm {cs cs' : List ConstituentMetrics} (h : cs.Perm cs') (sectorId : String)
    (expected : Finset String) (policy : CalculationPolicy) (tradingDate evaluationTime : Int)
    (universeProxy : Option UniverseProxyMetrics) (observed : ℕ) :
    SameButOrder
      (exactMetrics sectorId expected policy tradingDate evaluationTime universeProxy observed cs)
      (exactMetrics sectorId expected policy tradingDate evaluationTime universeProxy observed cs') := by
  refine ⟨?_, h⟩
  have hintraday := h.map (·.intradayReturn)
  simp only [exactMetrics, h.length_eq, exactBreadth_of_perm h, exactParticipants_of_perm h,
    medianOf_of_perm hintraday, medianOf_of_perm (deviations_of_perm hintraday), iqrOf_of_perm hintraday,
    medianOf_of_perm (h.map (·.overnightReturn)), medianOf_of_perm (h.map (·.totalReturn))]

theorem validateScope_of_perm {sectorId : String} {expected : Finset String}
    {observations observations' : List ConstituentObservation} {tradingDate : Int}
    (hperm : observations.Perm observations')
    (h : validateScope sectorId expected observations tradingDate = .ok ()) :
    validateScope sectorId expected observations' tradingDate = .ok () := by
  rw [validateScope_eq_ok] at h ⊢
  refine ⟨(hperm.map _).nodup_iff.mp h.1, fun o ho => h.2 o (hperm.mem_iff.mpr ho)⟩

/-- An accepted scope has no more observations than expected identities. -/
theorem length_le_card {sectorId : String} {expected : Finset String}
    {observations : List ConstituentObservation} {tradingDate : Int}
    (h : validateScope sectorId expected observations tradingDate = .ok ()) :
    observations.length ≤ expected.card := by
  obtain ⟨hnodup, hmember⟩ := validateScope_eq_ok.mp h
  have hsubset : (observations.map (·.identity)).toFinset ⊆ expected := by
    intro identity hidentity
    obtain ⟨o, ho, rfl⟩ := List.mem_map.mp (List.mem_toFinset.mp hidentity)
    exact (hmember o ho).2.1
  calc observations.length = (observations.map (·.identity)).length := by rw [List.length_map]
    _ = (observations.map (·.identity)).toFinset.card := (List.toFinset_card_of_nodup hnodup).symm
    _ ≤ expected.card := Finset.card_le_card hsubset

theorem calculateSectorMetrics_exact {sectorId : String} {expected : Finset String}
    {observations : List ConstituentObservation} {policy : CalculationPolicy}
    {tradingDate evaluationTime : Int} {universeProxy : Option UniverseProxyMetrics}
    (h : validateScope sectorId expected observations tradingDate = .ok ()) :
    calculateSectorMetrics some sectorId expected observations policy tradingDate evaluationTime
        universeProxy =
      .ok (exactMetrics sectorId expected policy tradingDate evaluationTime universeProxy
        observations.length
        ((freshOf policy evaluationTime observations).map (exactConstituent policy.directionEpsilon))) := by
  unfold calculateSectorMetrics
  rw [h, sectorEvidence_exact]
  rfl

/-- **Sector metrics are coherent.**  Over exact numbers the observations that the scope accepts have a
    result; its counts, its breadth and its order statistics agree, and every order of the observations
    has the same result up to the order of the constituents. -/
theorem metrics_coherent {sectorId : String} {expected : Finset String}
    {observations : List ConstituentObservation} (policy : CalculationPolicy)
    {tradingDate : Int} (evaluationTime : Int) (universeProxy : Option UniverseProxyMetrics)
    (h : validateScope sectorId expected observations tradingDate = .ok ()) :
    ∃ m, calculateSectorMetrics some sectorId expected observations policy tradingDate evaluationTime
        universeProxy = .ok m ∧
      m.constituents =
        (freshOf policy evaluationTime observations).map (exactConstituent policy.directionEpsilon) ∧
      m.validCount + m.staleCount = observations.length ∧ Coherent m policy.directionEpsilon ∧
      ∀ observations' : List ConstituentObservation, observations.Perm observations' →
        ∃ m', calculateSectorMetrics some sectorId expected observations' policy tradingDate
          evaluationTime universeProxy = .ok m' ∧ SameButOrder m m' := by
  have hfresh : ((freshOf policy evaluationTime observations).map
      (exactConstituent policy.directionEpsilon)).length ≤ observations.length := by
    rw [List.length_map]
    exact List.length_filter_le _ _
  refine ⟨_, calculateSectorMetrics_exact h, rfl, Nat.add_sub_cancel' hfresh,
    exactMetrics_coherent (directed_map _) hfresh (length_le_card h), fun observations' hperm => ?_⟩
  refine ⟨_, calculateSectorMetrics_exact (validateScope_of_perm hperm h), ?_⟩
  rw [← hperm.length_eq]
  exact exactMetrics_of_perm ((hperm.filter _).map _) _ _ _ _ _ _ _

/-! ## Samples -/

theorem nse_ne (symbol : String) : "NSE:" ++ symbol ≠ "" := by simp

theorem energy_ne : "ENERGY" ≠ "" := by decide

/-- A share of the sector that opened at 100. -/
def energyShare (symbol : String) (lastPrice : ℕ) (observedAt : Int) : ConstituentObservation where
  identity := "NSE:" ++ symbol
  sectorId := "ENERGY"
  tradingDate := 20026
  observationTimestamp := observedAt
  lastPrice := rupees lastPrice
  previousClose := rupees 99
  sessionOpen := rupees 100
  identity_ne := nse_ne symbol
  sectorId_ne := energy_ne

theorem one_percent_nonneg : (0 : ℚ) ≤ 1 / 100 := by norm_num

theorem one_minute_pos : 0 < minute := by decide

theorem no_minimum_coverage : ∀ q ∈ (none : Option ℚ), 0 ≤ q ∧ q ≤ 1 := by simp

theorem one_share_le : 1 ≤ 1 := le_refl 1

/-- A policy that calls a move of more than one percent a direction. -/
def onePercentPolicy : CalculationPolicy where
  directionEpsilon := 1 / 100
  freshnessLimit := minute
  minimumValidCount := 1
  directionEpsilon_nonneg := one_percent_nonneg
  freshnessLimit_pos := one_minute_pos
  minimumValidCount_pos := one_share_le
  minimumCoverageRatio_mem := no_minimum_coverage

/-- Six shares: two with the same return, one whose return is just the one percent of the policy, and
    two whose observations are older. -/
def energyObservations : List ConstituentObservation :=
  [energyShare "RELIANCE" 103 (90 * second), energyShare "ONGC" 101 (90 * second),
    energyShare "BPCL" 98 (90 * second), energyShare "PETRONET" 102 (90 * second),
    energyShare "GAIL" 102 (60 * second), energyShare "IOC" 104 0]

/-- The six shares and one that was not observed. -/
def energyShares : Finset String :=
  {"NSE:RELIANCE", "NSE:ONGC", "NSE:BPCL", "NSE:PETRONET", "NSE:GAIL", "NSE:IOC", "NSE:NTPC"}

theorem energy_in_scope : validateScope "ENERGY" energyShares energyObservations 20026 = .ok () := by
  refine validateScope_eq_ok.mpr ⟨?_, ?_⟩
  · decide +kernel
  · decide +kernel

/-- The metrics of the sector at a time. -/
def energyMetrics (evaluationTime : Int) : SectorMetrics :=
  exactMetrics "ENERGY" energyShares onePercentPolicy 20026 evaluationTime none 6
    ((freshOf onePercentPolicy evaluationTime energyObservations).map (exactConstituent (1 / 100)))

theorem energyMetrics_calculated (evaluationTime : Int) :
    calculateSectorMetrics some "ENERGY" energyShares energyObservations onePercentPolicy 20026
      evaluationTime none = .ok (energyMetrics evaluationTime) :=
  calculateSectorMetrics_exact energy_in_scope

/-- The counts, the median and the direction of a result. -/
def summary (m : SectorMetrics) : ℕ × ℕ × Int × Option ℚ × RawSectorDirection :=
  (m.validCount, m.staleCount, m.missingCount, m.medianIntradayReturn, m.rawDirection)

/-- Five fresh shares with the median in the middle, and half a minute later four, with the median
    between two of them; the other order of the observations gives the same. -/
theorem six_shares_coherent :
    (∃ m, calculateSectorMetrics some "ENERGY" energyShares energyObservations onePercentPolicy 20026
        (100 * second) none = .ok m ∧ Coherent m (1 / 100) ∧
      summary m = (5, 1, 1, some (1 / 50), .bullish) ∧
      ∃ m', calculateSectorMetrics some "ENERGY" energyShares energyObservations.reverse
        onePercentPolicy 20026 (100 * second) none = .ok m' ∧ SameButOrder m m') ∧
    ∃ m, calculateSectorMetrics some "ENERGY" energyShares energyObservations onePercentPolicy 20026
        (130 * second) none = .ok m ∧ Coherent m (1 / 100) ∧
      summary m = (4, 2, 1, some (3 / 200), .bullish) := by
  constructor
  · obtain ⟨m, hm, -, -, hcoherent, hperm⟩ :=
      metrics_coherent onePercentPolicy (100 * second) none energy_in_scope
    have heq := Except.ok.inj (hm.symm.trans (energyMetrics_calculated _))
    refine ⟨m, hm, hcoherent, ?_, hperm _ (List.reverse_perm _).symm⟩
    rw [heq]
    decide +kernel
  · obtain ⟨m, hm, -, -, hcoherent, -⟩ :=
      metrics_coherent onePercentPolicy (130 * second) none energy_in_scope
    have heq := Except.ok.inj (hm.symm.trans (energyMetrics_calculated _))
    refine ⟨m, hm, hcoherent, ?_⟩
    rw [heq]
    decide +kernel

end ApexScan.Sector
