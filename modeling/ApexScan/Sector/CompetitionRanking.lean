import ApexScan.Lib.CompetitionRank
import ApexScan.Sector.Coherence
import ApexScan.Sector.Participation

/-!
# The ranking of a sector over exact numbers

The ranking decides the freshness of the observations again, and computes ranks, percentiles and the
order of its output by rules of their own.

* `exactStock`, `exactRank`, `exactRanking` — what the calculations give; `rankingEvidence_exact` — that
  they do.
* `Splits` — the ranked and the excluded stocks are the fresh and the stale observations.
* `CompetitionRanking` — how ranks, percentiles and the order belong together.
* `exactRanking_of_perm` — the order of the observations does not matter.

Main result: `competition_ranking`, with `six_stocks_ranked` for an instance.
-/

set_option autoImplicit false

namespace ApexScan.Sector

open Lib

/-! ## The calculations -/

/-- The return in the direction of the sector. -/
def strengthOf (intradayReturn : ℚ) (direction : RawSectorDirection) : Option ℚ :=
  match direction with
  | .bullish => some intradayReturn
  | .bearish => some (-intradayReturn)
  | _ => none

theorem directionalStrength_exact (intradayReturn : ℚ) (direction : RawSectorDirection) :
    directionalStrength some intradayReturn direction = some (strengthOf intradayReturn direction) := by
  cases direction <;> rfl

def magnitudeOf (intradayReturn : ℚ) (sectorMedian madReturn : Option ℚ) : Option ℚ :=
  sectorMedian.bind fun sectorMedian => madReturn.bind fun madReturn =>
    if madReturn = 0 then none else some ((intradayReturn - sectorMedian) / madReturn)

theorem robustRelativeMagnitude_exact (intradayReturn : ℚ) (sectorMedian madReturn : Option ℚ) :
    robustRelativeMagnitude some intradayReturn sectorMedian madReturn =
      some (magnitudeOf intradayReturn sectorMedian madReturn) := by
  unfold robustRelativeMagnitude magnitudeOf
  cases sectorMedian with
  | none => rfl
  | some sectorMedian =>
    cases madReturn with
    | none => rfl
    | some madReturn =>
      simp only [Option.bind_some]
      split
      · rfl
      · rfl

theorem relativeTo_exact (value : ℚ) (benchmark : Option ℚ) :
    relativeTo some value benchmark = some (benchmark.map fun benchmark => value - benchmark) := by
  cases benchmark <;> rfl

section Stocks

variable (m : SectorMetrics) (policy : CalculationPolicy)

/-- A stock before it is ranked. -/
def exactStock (eligible : Bool) (o : ConstituentObservation) : StockSectorMetrics :=
  let cm := exactConstituent policy.directionEpsilon o
  { identity := cm.identity
    sectorId := m.sectorId
    tradingDate := m.tradingDate
    evaluationTimestamp := m.evaluationTimestamp
    stockIntradayReturn := cm.intradayReturn
    stockOvernightReturn := cm.overnightReturn
    stockTotalReturn := cm.totalReturn
    stockDirection := cm.direction
    sectorRawDirection := m.rawDirection
    sectorMedianIntradayReturn := m.medianIntradayReturn
    universeProxyIntradayReturn := m.universeProxyIntradayReturn
    stockVsSector := m.medianIntradayReturn.map fun benchmark => cm.intradayReturn - benchmark
    stockVsUniverse := m.universeProxyIntradayReturn.map fun benchmark => cm.intradayReturn - benchmark
    sectorAlignment := alignment cm.direction m.rawDirection
    directionalStrength := strengthOf cm.intradayReturn m.rawDirection
    robustRelativeMagnitude :=
      magnitudeOf cm.intradayReturn m.medianIntradayReturn m.dispersion.madIntradayReturn
    withinSectorRank := none
    withinSectorPercentile := none
    eligible
    exclusionReason := if eligible then none else some .stale }

theorem baseMetrics_exact (eligible : Bool) (o : ConstituentObservation) :
    baseMetrics some o m policy eligible = some (exactStock m policy eligible o) := by
  unfold baseMetrics
  simp only [calculateConstituentMetrics_exact, relativeTo_exact, directionalStrength_exact,
    robustRelativeMagnitude_exact, Option.bind_eq_bind, Option.bind_some]
  rfl

def exactPercentile (rank count : ℕ) : Option ℚ := if count < 2 then none else some (rankQuantile count rank)

/-- A stock with its rank among the strengths. -/
def exactRank (strengths : List (Option ℚ)) (stock : StockSectorMetrics) : StockSectorMetrics :=
  { stock with
    withinSectorRank := some (rankOf strengths stock.directionalStrength)
    withinSectorPercentile :=
      exactPercentile (rankOf strengths stock.directionalStrength) strengths.length }

theorem rankOne_exact (strengths : List (Option ℚ)) (stock : StockSectorMetrics) :
    rankOne some strengths stock = some (exactRank strengths stock) := by
  unfold rankOne percentileOf exactRank exactPercentile rankQuantile
  by_cases hfew : strengths.length < 2
  · simp only [if_pos hfew, Option.bind_eq_bind, Option.bind_some]
    rfl
  · simp only [if_neg hfew, Option.bind_eq_bind, Option.bind_some]
    rfl

/-- The ranked stocks of a direction. -/
def exactRanked (eligible : List StockSectorMetrics) : List StockSectorMetrics :=
  sortBy rankingKey (eligible.map (exactRank (eligible.map (·.directionalStrength))))

theorem applyRanking_exact (eligible : List StockSectorMetrics) :
    applyRanking some eligible = some (exactRanked eligible) := by
  unfold applyRanking
  rw [mapM_exact (rankOne_exact _)]
  rfl

/-- The stale observations. -/
def staleOf (evaluationTime : Int) (observations : List ConstituentObservation) :
    List ConstituentObservation :=
  observations.filter fun o => !isFresh evaluationTime policy.freshnessLimit o

/-- The ranking as a function of the fresh and of the stale observations. -/
def exactRanking (observations : List ConstituentObservation) : SectorStockRanking :=
  let eligible := (freshOf policy m.evaluationTimestamp observations).map (exactStock m policy true)
  let excluded := (staleOf policy m.evaluationTimestamp observations).map (exactStock m policy false)
  { sectorId := m.sectorId
    tradingDate := m.tradingDate
    evaluationTimestamp := m.evaluationTimestamp
    sectorRawDirection := m.rawDirection
    directionalRankingAvailable := decide (m.rawDirection ∈ directionalStates)
    eligibleCount := eligible.length
    rankedStocks :=
      if m.rawDirection ∈ directionalStates then exactRanked eligible else sortBy (·.identity) eligible
    excludedStocks := sortBy (·.identity) excluded }

theorem rankingEvidence_exact (observations : List ConstituentObservation) :
    rankingEvidence some m observations policy = some (exactRanking m policy observations) := by
  have hstocks (eligible : Bool) := mapM_exact (baseMetrics_exact m policy eligible)
  unfold rankingEvidence
  simp only [hstocks, applyRanking_exact, Option.bind_eq_bind, Option.bind_some]
  by_cases hdirectional : m.rawDirection ∈ directionalStates
  · simp [exactRanking, freshOf, staleOf, hdirectional]
  · simp [exactRanking, freshOf, staleOf, hdirectional]

end Stocks

/-! ## Ranks -/

/-- The strength of the first stock is the greater one. -/
def Stronger (a b : StockSectorMetrics) : Prop :=
  ∃ p ∈ a.directionalStrength, ∃ q ∈ b.directionalStrength, q < p

instance (a b : StockSectorMetrics) : Decidable (Stronger a b) :=
  inferInstanceAs (Decidable (∃ p ∈ a.directionalStrength, ∃ q ∈ b.directionalStrength, q < p))

/-- Ranks and percentiles by strength, and the stronger first, equal ones by identity. -/
structure CompetitionRanking (stocks : List StockSectorMetrics) : Prop where
  measured : ∀ s ∈ stocks, ∃ q ∈ s.directionalStrength,
    strengthOf s.stockIntradayReturn s.sectorRawDirection = some q
  ordered : stocks.Pairwise fun a b =>
    Stronger a b ∨ a.directionalStrength = b.directionalStrength ∧ a.identity < b.identity
  ranks : ∀ s ∈ stocks, s.withinSectorRank = some (1 + stocks.countP fun other => Stronger other s)
  nondecreasing : stocks.Pairwise fun a b =>
    ∃ r ∈ a.withinSectorRank, ∃ r' ∈ b.withinSectorRank, r ≤ r'
  ties : ∀ a ∈ stocks, ∀ b ∈ stocks, a.directionalStrength = b.directionalStrength →
    a.withinSectorRank = b.withinSectorRank ∧ a.withinSectorPercentile = b.withinSectorPercentile
  bounds : ∀ s ∈ stocks, ∀ p ∈ s.withinSectorPercentile, 0 ≤ p ∧ p ≤ 1
  strict : ∀ a ∈ stocks, ∀ b ∈ stocks, ∀ r ∈ a.withinSectorRank, ∀ r' ∈ b.withinSectorRank, r < r' →
    ∃ p ∈ a.withinSectorPercentile, ∃ p' ∈ b.withinSectorPercentile, p' < p

section Ranked

variable {eligible : List StockSectorMetrics}

/-- The strengths as numbers. -/
def strengthsOf (eligible : List StockSectorMetrics) : List ℚ :=
  eligible.map fun s => s.directionalStrength.getD 0

/-- Each stock has a strength. -/
def Measured (eligible : List StockSectorMetrics) : Prop :=
  ∀ s ∈ eligible, ∃ q ∈ s.directionalStrength,
    strengthOf s.stockIntradayReturn s.sectorRawDirection = some q

theorem map_directionalStrength (h : Measured eligible) :
    eligible.map (·.directionalStrength) = (strengthsOf eligible).map some := by
  unfold strengthsOf
  rw [List.map_map]
  refine List.map_congr_left fun s hs => ?_
  obtain ⟨q, hq, -⟩ := h s hs
  simp [Option.mem_def.mp hq]

theorem rankOf_some (values : List ℚ) (value : ℚ) :
    rankOf (values.map some) (some value) = competitionRank values value := by
  unfold rankOf competitionRank
  rw [List.countP_map]
  congr 1
  refine List.countP_congr fun other _ => ?_
  simp

/-- What a ranked stock is: one of the eligible ones with the rank of its strength. -/
theorem mem_exactRanked (h : Measured eligible) {s : StockSectorMetrics} (hs : s ∈ exactRanked eligible) :
    ∃ stock ∈ eligible, ∃ q ∈ strengthsOf eligible,
      stock.directionalStrength = some q ∧
      s = { stock with
        withinSectorRank := some (competitionRank (strengthsOf eligible) q)
        withinSectorPercentile :=
          exactPercentile (competitionRank (strengthsOf eligible) q) (strengthsOf eligible).length } := by
  obtain ⟨stock, hstock, rfl⟩ := List.mem_map.mp (mem_sortBy.mp hs)
  obtain ⟨q, hq, -⟩ := h stock hstock
  have hmem : q ∈ strengthsOf eligible := List.mem_map.mpr ⟨stock, hstock, by simp [Option.mem_def.mp hq]⟩
  refine ⟨stock, hstock, q, hmem, hq, ?_⟩
  unfold exactRank
  rw [map_directionalStrength h, Option.mem_def.mp hq, rankOf_some, List.length_map]

theorem exactRanked_perm (eligible : List StockSectorMetrics) :
    (exactRanked eligible).Perm (eligible.map (exactRank (eligible.map (·.directionalStrength)))) :=
  sortBy_perm

theorem map_identity_exactRanked (eligible : List StockSectorMetrics) :
    ((exactRanked eligible).map (·.identity)).Perm (eligible.map (·.identity)) := by
  have hperm := (exactRanked_perm eligible).map (·.identity)
  rwa [List.map_map] at hperm

/-- The number of stronger stocks in the output is the number of greater strengths. -/
theorem countP_stronger (h : Measured eligible) {s : StockSectorMetrics} {q : ℚ}
    (hq : s.directionalStrength = some q) :
    1 + ((exactRanked eligible).countP fun other => Stronger other s) =
      competitionRank (strengthsOf eligible) q := by
  unfold competitionRank strengthsOf
  rw [(exactRanked_perm eligible).countP_eq, List.countP_map, List.countP_map]
  congr 1
  refine List.countP_congr fun other hother => ?_
  obtain ⟨p, hp, -⟩ := h other hother
  simp [Stronger, exactRank, Option.mem_def.mp hp, hq]

theorem nodup_of_map_identity {stocks : List StockSectorMetrics} (h : (stocks.map (·.identity)).Nodup) :
    stocks.Nodup ∧ ∀ a ∈ stocks, ∀ b ∈ stocks, a.identity = b.identity → a = b :=
  ⟨h.of_map _, fun _ ha _ hb hab => List.inj_on_of_nodup_map h ha hb hab⟩

/-- The key of the output order is one to one on distinct identities. -/
theorem rankingKey_inj {a b : StockSectorMetrics} (h : rankingKey a = rankingKey b) :
    a.identity = b.identity := (Prod.mk.inj (toLex.injective h)).2

/-- The output is in the order of its keys. -/
theorem exactRanked_ordered (h : Measured eligible) (hnodup : (eligible.map (·.identity)).Nodup) :
    (exactRanked eligible).Pairwise fun a b =>
      Stronger a b ∨ a.directionalStrength = b.directionalStrength ∧ a.identity < b.identity := by
  have hidentities := (map_identity_exactRanked eligible).nodup_iff.mpr hnodup
  have hranked := nodup_of_map_identity
    (((exactRanked_perm eligible).map (·.identity)).nodup_iff.mp hidentities)
  have hsorted : (exactRanked eligible).Pairwise fun a b => rankingKey a < rankingKey b :=
    pairwise_lt_sortBy hranked.1 fun a ha b hb hkey => hranked.2 a ha b hb (rankingKey_inj hkey)
  refine hsorted.imp_of_mem fun {a b} ha hb hlt => ?_
  obtain ⟨_, _, p, _, hp, rfl⟩ := mem_exactRanked h ha
  obtain ⟨_, _, q, _, hq, rfl⟩ := mem_exactRanked h hb
  rcases Prod.Lex.toLex_lt_toLex.mp hlt with hlt | ⟨heq, hlt⟩
  · left
    simp only [hp, hq, Option.getD_some, neg_lt_neg_iff] at hlt
    exact ⟨p, hp, q, hq, hlt⟩
  · right
    simp only [hp, hq, Option.getD_some, neg_inj] at heq
    exact ⟨by simp only [hp, hq, heq], hlt⟩

theorem exactPercentile_mem {rank count : ℕ} {p : ℚ} (hpos : 1 ≤ rank) (hle : rank ≤ count)
    (h : exactPercentile rank count = some p) : 0 ≤ p ∧ p ≤ 1 := by
  unfold exactPercentile at h
  split at h
  · cases h
  · obtain rfl := Option.some.inj h
    exact rankQuantile_mem (by omega) hpos hle

theorem exactRanked_ranking (h : Measured eligible) (hnodup : (eligible.map (·.identity)).Nodup) :
    CompetitionRanking (exactRanked eligible) where
  measured s hs := by
    obtain ⟨stock, hstock, _, _, _, rfl⟩ := mem_exactRanked h hs
    exact h stock hstock
  ordered := exactRanked_ordered h hnodup
  ranks s hs := by
    obtain ⟨stock, _, q, _, hq, heq⟩ := mem_exactRanked h hs
    have hstrength : s.directionalStrength = some q := by rw [heq, ← hq]
    rw [countP_stronger h hstrength, heq]
  nondecreasing := by
    refine (exactRanked_ordered h hnodup).imp_of_mem fun {a b} ha hb hab => ?_
    obtain ⟨_, _, p, hp, hpa, rfl⟩ := mem_exactRanked h ha
    obtain ⟨_, _, q, hq, hqb, rfl⟩ := mem_exactRanked h hb
    refine ⟨_, rfl, _, rfl, competitionRank_le hp ?_⟩
    rcases hab with ⟨p', hp', q', hq', hlt⟩ | ⟨heq, -⟩
    · simp only [hpa, hqb, Option.mem_def, Option.some.injEq] at hp' hq'
      rw [hp', hq']
      exact hlt.le
    · simp only [hpa, hqb, Option.some.injEq] at heq
      exact heq.ge
  ties a ha b hb heq := by
    obtain ⟨_, _, p, _, hp, rfl⟩ := mem_exactRanked h ha
    obtain ⟨_, _, q, _, hq, rfl⟩ := mem_exactRanked h hb
    simp only [hp, hq, Option.some.injEq] at heq
    subst heq
    exact ⟨rfl, rfl⟩
  bounds s hs p hp := by
    obtain ⟨_, _, q, hq, _, rfl⟩ := mem_exactRanked h hs
    exact exactPercentile_mem one_le_competitionRank (competitionRank_le_length hq) hp
  strict a ha b hb r hr r' hr' hlt := by
    obtain ⟨_, _, p, _, _, rfl⟩ := mem_exactRanked h ha
    obtain ⟨_, _, q, hq, _, rfl⟩ := mem_exactRanked h hb
    obtain rfl := Option.some.inj hr
    obtain rfl := Option.some.inj hr'
    have hle := competitionRank_le_length hq
    have hpos := @one_le_competitionRank _ _ (strengthsOf eligible) p
    have hmany : 2 ≤ (strengthsOf eligible).length := by omega
    exact ⟨_, if_neg (by omega), _, if_neg (by omega), rankQuantile_lt hmany hlt⟩

/-- The order of the eligible stocks does not matter. -/
theorem exactRanked_of_perm {eligible' : List StockSectorMetrics} (hperm : eligible.Perm eligible')
    (hnodup : (eligible.map (·.identity)).Nodup) : exactRanked eligible = exactRanked eligible' := by
  have hstrengths := hperm.map (·.directionalStrength)
  have hrank : exactRank (eligible.map (·.directionalStrength)) =
      exactRank (eligible'.map (·.directionalStrength)) := by
    funext stock
    unfold exactRank rankOf
    rw [hstrengths.countP_eq, hstrengths.length_eq]
  have hidentities : ((eligible.map (exactRank (eligible.map (·.directionalStrength)))).map
      (·.identity)).Nodup := by
    rw [List.map_map]
    exact hnodup
  unfold exactRanked
  rw [← hrank]
  exact sortBy_of_perm (hperm.map _) fun a ha b hb hkey =>
    (nodup_of_map_identity hidentities).2 a ha b hb (rankingKey_inj hkey)

end Ranked

/-! ## The ranking -/

/-- The ranked stocks are the fresh observations and the excluded ones the stale ones. -/
structure Splits (m : SectorMetrics) (policy : CalculationPolicy)
    (observations : List ConstituentObservation) (ranking : SectorStockRanking) : Prop where
  ranked : (ranking.rankedStocks.map (·.identity)).Perm
    ((freshOf policy m.evaluationTimestamp observations).map (·.identity))
  excluded : (ranking.excludedStocks.map (·.identity)).Perm
    ((staleOf policy m.evaluationTimestamp observations).map (·.identity))
  parts : ((ranking.rankedStocks ++ ranking.excludedStocks).map (·.identity)).Perm
    (observations.map (·.identity))
  sizes : ranking.rankedStocks.length = m.validCount ∧ ranking.excludedStocks.length = m.staleCount
  flags : (∀ s ∈ ranking.rankedStocks, s.eligible = true) ∧
    ∀ s ∈ ranking.excludedStocks, s.eligible = false ∧ s.exclusionReason = some .stale

section Result

variable {m : SectorMetrics} {policy : CalculationPolicy} {observations : List ConstituentObservation}

/-- The identities of the ranked stocks of a direction or of none. -/
theorem rankedStocks_perm (m : SectorMetrics) (policy : CalculationPolicy)
    (observations : List ConstituentObservation) :
    ((exactRanking m policy observations).rankedStocks.map (·.identity)).Perm
      ((freshOf policy m.evaluationTimestamp observations).map (·.identity)) := by
  have hidentities : ((freshOf policy m.evaluationTimestamp observations).map
      (exactStock m policy true)).map (·.identity) =
        (freshOf policy m.evaluationTimestamp observations).map (·.identity) := by
    rw [List.map_map]
    rfl
  rw [← hidentities]
  simp only [exactRanking]
  split
  · exact map_identity_exactRanked _
  · exact sortBy_perm.map _

theorem excludedStocks_perm (m : SectorMetrics) (policy : CalculationPolicy)
    (observations : List ConstituentObservation) :
    ((exactRanking m policy observations).excludedStocks.map (·.identity)).Perm
      ((staleOf policy m.evaluationTimestamp observations).map (·.identity)) := by
  have hperm := (@sortBy_perm _ _ _ (·.identity) ((staleOf policy m.evaluationTimestamp observations).map
    (exactStock m policy false))).map (·.identity)
  rwa [List.map_map] at hperm

theorem fresh_append_stale_perm (policy : CalculationPolicy) (evaluationTime : Int)
    (observations : List ConstituentObservation) :
    (freshOf policy evaluationTime observations ++ staleOf policy evaluationTime observations).Perm
      observations :=
  List.filter_append_perm _ _

theorem exactRanking_splits
    (hvalid : m.validCount = (freshOf policy m.evaluationTimestamp observations).length)
    (hstale : m.validCount + m.staleCount = observations.length) :
    Splits m policy observations (exactRanking m policy observations) := by
  have hranked := rankedStocks_perm m policy observations
  have hexcluded := excludedStocks_perm m policy observations
  have hboth := fresh_append_stale_perm policy m.evaluationTimestamp observations
  have hlengths := hboth.length_eq
  have hsizes := hranked.length_eq
  have hsizes' := hexcluded.length_eq
  simp only [List.length_map, List.length_append] at hlengths hsizes hsizes'
  refine ⟨hranked, hexcluded, ?_, ⟨by omega, by omega⟩, fun s hs => ?_, fun s hs => ?_⟩
  · rw [List.map_append]
    refine (hranked.append hexcluded).trans ?_
    rw [← List.map_append]
    exact hboth.map _
  · simp only [exactRanking] at hs
    split at hs
    · obtain ⟨stock, hstock, rfl⟩ := List.mem_map.mp (mem_sortBy.mp hs)
      obtain ⟨o, _, rfl⟩ := List.mem_map.mp hstock
      rfl
    · obtain ⟨o, _, rfl⟩ := List.mem_map.mp (mem_sortBy.mp hs)
      rfl
  · obtain ⟨o, _, rfl⟩ := List.mem_map.mp (mem_sortBy.mp hs)
    exact ⟨rfl, rfl⟩

theorem nodup_map_exactStock {eligible : Bool} {selected : List ConstituentObservation}
    (h : (selected.map (·.identity)).Nodup) :
    ((selected.map (exactStock m policy eligible)).map (·.identity)).Nodup := by
  rw [List.map_map]
  exact h

theorem nodup_filter {p : ConstituentObservation → Bool} (h : (observations.map (·.identity)).Nodup) :
    ((observations.filter p).map (·.identity)).Nodup :=
  h.sublist (List.filter_sublist.map _)

/-- In a directional sector the ranked stocks are a competition ranking. -/
theorem exactRanking_competition (hnodup : (observations.map (·.identity)).Nodup)
    (hdirection : m.rawDirection = .bullish ∨ m.rawDirection = .bearish) :
    CompetitionRanking (exactRanking m policy observations).rankedStocks := by
  have hdirectional : m.rawDirection ∈ directionalStates := by
    rcases hdirection with h | h
    · rw [h]
      exact List.mem_cons_self
    · rw [h]
      exact List.mem_cons_of_mem _ List.mem_cons_self
  simp only [exactRanking, if_pos hdirectional]
  refine exactRanked_ranking (fun s hs => ?_) (nodup_map_exactStock (nodup_filter hnodup))
  obtain ⟨o, _, rfl⟩ := List.mem_map.mp hs
  rcases hdirection with h | h
  · exact ⟨_, by simp only [exactStock, h, strengthOf]; rfl, by simp only [exactStock, h, strengthOf]⟩
  · exact ⟨_, by simp only [exactStock, h, strengthOf]; rfl, by simp only [exactStock, h, strengthOf]⟩

/-- **The order of the observations does not matter to the ranking.** -/
theorem exactRanking_of_perm {observations' : List ConstituentObservation}
    (hperm : observations.Perm observations') (hnodup : (observations.map (·.identity)).Nodup) :
    exactRanking m policy observations = exactRanking m policy observations' := by
  have hfresh : (freshOf policy m.evaluationTimestamp observations).Perm
      (freshOf policy m.evaluationTimestamp observations') := hperm.filter _
  have hstale : (staleOf policy m.evaluationTimestamp observations).Perm
      (staleOf policy m.evaluationTimestamp observations') := hperm.filter _
  have hdistinct (eligible : Bool) (p : ConstituentObservation → Bool) :=
    nodup_of_map_identity (@nodup_map_exactStock m policy eligible _ (@nodup_filter observations p hnodup))
  have hranked := exactRanked_of_perm (hfresh.map (exactStock m policy true))
    (nodup_map_exactStock (nodup_filter hnodup))
  have hsorted : sortBy (·.identity) ((freshOf policy m.evaluationTimestamp observations).map
      (exactStock m policy true)) = sortBy (·.identity) ((freshOf policy m.evaluationTimestamp
        observations').map (exactStock m policy true)) :=
    sortBy_of_perm (hfresh.map _) (hdistinct true _).2
  have hexcluded : sortBy (·.identity) ((staleOf policy m.evaluationTimestamp observations).map
      (exactStock m policy false)) = sortBy (·.identity) ((staleOf policy m.evaluationTimestamp
        observations').map (exactStock m policy false)) :=
    sortBy_of_perm (hstale.map _) (hdistinct false _).2
  simp only [exactRanking, hranked, hsorted, hexcluded, List.length_map, hfresh.length_eq]

/-- The ranking of observations that the checks accept. -/
theorem rankSectorConstituents_exact (hnodup : (observations.map (·.identity)).Nodup)
    (hsame : ∀ o ∈ observations, o.sectorId = m.sectorId ∧ o.tradingDate = m.tradingDate) :
    rankSectorConstituents some m observations policy = .ok (exactRanking m policy observations) := by
  refine rankSectorConstituents_eq_ok.mpr ⟨?_, rankingEvidence_exact m policy observations⟩
  refine validateRanking_eq_ok.mpr ⟨?_, hsame⟩
  exact rejectDuplicates_eq_ok.mpr ⟨hnodup, fun _ _ => List.not_mem_nil⟩

/-- The ranking reads no constituents of the metrics. -/
theorem exactRanking_congr {m' : SectorMetrics} (h : SameButOrder m m') :
    exactRanking m policy observations = exactRanking m' policy observations := by
  have hfields : exactRanking { m with constituents := [] } policy observations =
      exactRanking { m' with constituents := [] } policy observations := by rw [h.fields]
  exact hfields

end Result

/-- **Stock ranking is a competition ranking.**  Over exact numbers the ranking of the observations that
    the metrics were calculated from never raises; it splits them into the valid and the stale ones, ranks
    the valid ones of a directional sector by their strengths, and does not depend on their order. -/
theorem competition_ranking {sectorId : String} {expected : Finset String}
    {observations : List ConstituentObservation} {policy : CalculationPolicy}
    {tradingDate evaluationTime : Int} {universeProxy : Option UniverseProxyMetrics} {m : SectorMetrics}
    (h : calculateSectorMetrics some sectorId expected observations policy tradingDate evaluationTime
      universeProxy = .ok m) :
    ∃ ranking, rankSectorConstituents some m observations policy = .ok ranking ∧
      Splits m policy observations ranking ∧
      (m.rawDirection = .bullish ∨ m.rawDirection = .bearish →
        CompetitionRanking ranking.rankedStocks) ∧
      ∀ observations' : List ConstituentObservation, observations.Perm observations' →
        rankSectorConstituents some m observations' policy = .ok ranking ∧
        ∃ m', calculateSectorMetrics some sectorId expected observations' policy tradingDate
            evaluationTime universeProxy = .ok m' ∧
          rankSectorConstituents some m' observations' policy = .ok ranking := by
  have hscope := (check_eq_ok.mp h).1
  rw [calculateSectorMetrics_exact hscope] at h
  obtain rfl := Except.ok.inj h
  obtain ⟨hnodup, hmember⟩ := validateScope_eq_ok.mp hscope
  have hfresh : ((freshOf policy evaluationTime observations).map
      (exactConstituent policy.directionEpsilon)).length ≤ observations.length := by
    rw [List.length_map]
    exact List.length_filter_le _ _
  refine ⟨_, rankSectorConstituents_exact hnodup fun o ho => ⟨(hmember o ho).1, (hmember o ho).2.2⟩,
    exactRanking_splits (List.length_map _) (Nat.add_sub_cancel' hfresh), exactRanking_competition hnodup,
    fun observations' hperm => ?_⟩
  have hnodup' := (hperm.map (·.identity)).nodup_iff.mp hnodup
  have hmember' : ∀ o ∈ observations', o.sectorId = sectorId ∧ o.tradingDate = tradingDate :=
    fun o ho => ⟨(hmember o (hperm.mem_iff.mpr ho)).1, (hmember o (hperm.mem_iff.mpr ho)).2.2⟩
  refine ⟨?_, _, calculateSectorMetrics_exact (validateScope_of_perm hperm hscope), ?_⟩
  · rw [exactRanking_of_perm hperm hnodup]
    exact rankSectorConstituents_exact hnodup' hmember'
  · have hfresh' : (freshOf policy evaluationTime observations).Perm
        (freshOf policy evaluationTime observations') := hperm.filter _
    have hsame := exactMetrics_of_perm (hfresh'.map (exactConstituent policy.directionEpsilon)) sectorId
      expected policy tradingDate evaluationTime universeProxy observations.length
    rw [exactRanking_of_perm hperm hnodup, exactRanking_congr hsame, hperm.length_eq]
    exact rankSectorConstituents_exact hnodup' hmember'

/-- The table of a ranking: the rank and the percentile of each ranked stock. -/
def table (ranking : SectorStockRanking) : List (String × Option ℕ × Option ℚ) :=
  ranking.rankedStocks.map fun s => (s.identity, s.withinSectorRank, s.withinSectorPercentile)

/-- Six shares of a bullish sector, in either order: two of the five fresh ones tie, and the stale one is
    excluded. -/
theorem six_stocks_ranked :
    ∃ ranking, rankSectorConstituents some (energyMetrics (100 * second)) energyObservations
        onePercentPolicy = .ok ranking ∧
      Splits (energyMetrics (100 * second)) onePercentPolicy energyObservations ranking ∧
      CompetitionRanking ranking.rankedStocks ∧
      table ranking = [("NSE:RELIANCE", some 1, some 1), ("NSE:GAIL", some 2, some (3 / 4)),
        ("NSE:PETRONET", some 2, some (3 / 4)), ("NSE:ONGC", some 4, some (1 / 4)),
        ("NSE:BPCL", some 5, some 0)] ∧
      ranking.excludedStocks.map (·.identity) = ["NSE:IOC"] ∧
      rankSectorConstituents some (energyMetrics (100 * second)) energyObservations.reverse
        onePercentPolicy = .ok ranking := by
  obtain ⟨ranking, hranking, hsplits, hcompetition, hperm⟩ :=
    competition_ranking (energyMetrics_calculated (100 * second))
  obtain ⟨hreverse, -⟩ := hperm _ (List.reverse_perm _).symm
  have hbullish : (energyMetrics (100 * second)).rawDirection = .bullish := by decide +kernel
  obtain ⟨hnodup, hmember⟩ := validateScope_eq_ok.mp energy_in_scope
  have hexact : rankSectorConstituents some (energyMetrics (100 * second)) energyObservations
      onePercentPolicy = .ok (exactRanking (energyMetrics (100 * second)) onePercentPolicy
        energyObservations) :=
    rankSectorConstituents_exact hnodup fun o ho => ⟨(hmember o ho).1, (hmember o ho).2.2⟩
  have heq := Except.ok.inj (hranking.symm.trans hexact)
  refine ⟨ranking, hranking, hsplits, hcompetition (Or.inl hbullish), ?_, ?_, hreverse⟩
  · rw [heq]
    decide +kernel
  · rw [heq]
    decide +kernel

end ApexScan.Sector
