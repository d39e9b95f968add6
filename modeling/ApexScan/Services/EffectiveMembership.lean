import ApexScan.Services.SectorShadowRuntime

/-!
# The sector runtime and effective-dated membership

The universe of the runtime is that of the dataset's first day; its sectors are those of the trading date.

* `Constituents` — what the constituents of an evaluation are; `constituentsOn_returns` — there always are
  some list of them.
* `DecimalsFit` — no decimal result of an evaluation overflows; `buildSnapshot_returns_iff` — nothing else
  makes an evaluation raise.
* `Counted` — the counts of a snapshot are the sums over its sectors; `buildSnapshot_counts` — the sums.

Result: `follows_membership_iff` — for a date, a run of observations and an evaluation, the runtime follows
the membership exactly when nobody who was observed has joined, as many identities as at the start have a
sector, and nobody who is held complete has left.
-/

set_option autoImplicit false

namespace ApexScan.SectorIntelligence

open Lib Sector

/-! ## The state -/

/-- Observations are held under their own identity, one for each. -/
def Keyed (s : ObservationState) : Prop :=
  (∀ kv ∈ s.latest, kv.2.identity = kv.1) ∧ (s.latest.map (·.1)).Nodup

theorem record_keyed {s : ObservationState} (o : LatestObservation) (h : Keyed s) :
    Keyed (s.record o).1 := by
  unfold Keyed
  rw [(s.record_held o).2.2]
  rcases (s.record o).2.held_cases s.latest o.identity o with heq | heq | heq <;> rw [heq]
  · exact h
  · simp
  · refine ⟨?_, Dict.nodup_keys_set h.2 _ _⟩
    intro kv hkv
    rcases Dict.mem_set hkv with rfl | hkv
    · rfl
    · exact h.1 kv hkv

theorem keyed_stateAfter (r : MembershipResolver) (os : List LatestObservation) :
    Keyed (stateAfter r os) :=
  run_invariant (fun _ o => record_keyed o) os ⟨by simp [initialState], List.nodup_nil⟩

/-- Each identity is held once. -/
theorem nodup_coherentCopy {s : ObservationState} (h : Keyed s) :
    ((coherentCopy s).map (·.identity)).Nodup := by
  have hkeys : (coherentCopy s).map (·.identity) = s.latest.map (·.1) := by
    unfold coherentCopy
    rw [List.map_map]
    exact List.map_congr_left fun kv hkv => h.1 kv hkv
  rw [hkeys]
  exact h.2

theorem mem_completeOf {observations : List LatestObservation} {tradingDate : Option Int}
    {o : LatestObservation} :
    o ∈ completeOf observations tradingDate ↔
      o ∈ observations ∧ o.isComplete = true ∧ o.tradingDate = tradingDate := by
  unfold completeOf
  rw [mem_sortBy, List.mem_filter, Bool.and_eq_true, decide_eq_true_eq]

theorem nodup_completeOf {observations : List LatestObservation} {tradingDate : Option Int}
    (h : (observations.map (·.identity)).Nodup) :
    ((completeOf observations tradingDate).map (·.identity)).Nodup := by
  unfold completeOf
  have hsub := h.sublist ((List.filter_sublist
    (p := fun o : LatestObservation => o.isComplete && o.tradingDate = tradingDate)).map (·.identity))
  exact (sortBy_perm.map _).nodup_iff.mpr hsub

/-! ## The constituents -/

variable {arith : Arithmetic} {r : MembershipResolver} {policy : CalculationPolicy}
variable {date evaluationTime : Int}

/-- The constituents of a date: the observations with a sector, each with its sector. -/
structure Constituents (r : MembershipResolver) (date : Int) (complete : List LatestObservation)
    (cs : List ConstituentObservation) : Prop where
  identities : cs.map (·.identity) =
    (complete.filter fun o => (r.resolvePrimary o.identity (some date)).isSome).map (·.identity)
  sectors : ∀ c ∈ cs, r.resolvePrimary c.identity (some date) = some c.sectorId
  dates : ∀ c ∈ cs, c.tradingDate = date

/-- A constituent has the values of its observation. -/
theorem constituentOf_eq_ok {o : LatestObservation} {sectorId : String} {c : ConstituentObservation}
    (h : constituentOf date o sectorId = .ok c) :
    c.identity = o.identity ∧ c.sectorId = sectorId ∧ c.tradingDate = date ∧
      c.observationTimestamp = o.observationTimestamp ∧ o.lastPrice = some c.lastPrice ∧
      o.sessionOpen = some c.sessionOpen := by
  unfold constituentOf at h
  split at h
  · rename_i lastPrice previousClose sessionOpen hlast hclose hopen
    split at h
    · cases h
      exact ⟨rfl, rfl, rfl, rfl, hlast, hopen⟩
    · cases h
  · cases h

/-- A complete observation of an identity with a sector is a constituent. -/
theorem constituentOf_returns (date : Int) {o : LatestObservation} {sectorId : String} (h : o.isComplete = true)
    (hidentity : o.identity ≠ "") (hsector : sectorId ≠ "") :
    ∃ c, constituentOf date o sectorId = .ok c := by
  unfold LatestObservation.isComplete at h
  unfold constituentOf
  cases hlast : o.lastPrice with
  | none => simp [hlast] at h
  | some lastPrice =>
    cases hclose : o.previousClose with
    | none => simp [hclose] at h
    | some previousClose =>
      cases hopen : o.sessionOpen with
      | none => simp [hopen] at h
      | some sessionOpen =>
        simp only [dif_pos (And.intro hidentity hsector)]
        exact ⟨_, rfl⟩

/-- **The constituents of a date can always be built.** -/
theorem constituentsOn_returns {complete : List LatestObservation}
    (h : ∀ o ∈ complete, o.isComplete = true) :
    ∃ cs, constituentsOn r date complete = .ok cs ∧ Constituents r date complete cs := by
  induction complete with
  | nil => exact ⟨[], rfl, rfl, by simp, by simp⟩
  | cons o complete ih =>
    obtain ⟨ho, hrest⟩ := List.forall_mem_cons.mp h
    obtain ⟨cs, hcs, hspec⟩ := ih hrest
    cases hresolve : r.resolvePrimary o.identity (some date) with
    | none =>
      refine ⟨cs, ?_, ?_, hspec.sectors, hspec.dates⟩
      · unfold constituentsOn at hcs ⊢
        rw [List.filterMap_cons_none (by simp [hresolve])]
        exact hcs
      · rw [List.filter_cons_of_neg (by simp [hresolve])]
        exact hspec.identities
    | some sectorId =>
      have hne := (MembershipResolver.resolvePrimary_eq_some.mp hresolve).ne_empty
      obtain ⟨c, hc⟩ := constituentOf_returns date ho hne.1 hne.2
      obtain ⟨hidentity, hsector, hdate, -⟩ := constituentOf_eq_ok hc
      refine ⟨c :: cs, ?_, ?_, ?_, ?_⟩
      · unfold constituentsOn at hcs ⊢
        rw [List.filterMap_cons_some (by rw [hresolve]; rfl), List.mapM_cons, hc, ok_bind, hcs]
        rfl
      · rw [List.filter_cons_of_pos (by simp [hresolve]), List.map_cons, List.map_cons, hidentity,
          hspec.identities]
      · rw [List.forall_mem_cons, hidentity, hsector]
        exact ⟨hresolve, hspec.sectors⟩
      · exact List.forall_mem_cons.mpr ⟨hdate, hspec.dates⟩

theorem observationsOf_eq (cs : List ConstituentObservation) (sectorId : String) :
    observationsOf cs sectorId = cs.filter fun c => c.sectorId = sectorId := get_groupedBy _ _

namespace Constituents

variable {complete : List LatestObservation} {cs : List ConstituentObservation}

theorem length_eq (h : Constituents r date complete cs) :
    cs.length = (complete.filter fun o => (r.resolvePrimary o.identity (some date)).isSome).length := by
  have := congrArg List.length h.identities
  rwa [List.length_map, List.length_map] at this

theorem nodup (h : Constituents r date complete cs) (hcomplete : (complete.map (·.identity)).Nodup) :
    (cs.map (·.identity)).Nodup := by
  rw [h.identities]
  exact hcomplete.sublist (List.filter_sublist.map _)

theorem sector_mem (h : Constituents r date complete cs) {c : ConstituentObservation} (hc : c ∈ cs) :
    c.sectorId ∈ r.allPrimarySectors :=
  MembershipResolver.mem_allPrimarySectors
    (MembershipResolver.resolvePrimary_eq_some.mp (h.sectors c hc))

/-- The observations of a sector pass its checks. -/
theorem validateScope_eq (h : Constituents r date complete cs)
    (hcomplete : (complete.map (·.identity)).Nodup) (sectorId : String) :
    validateScope sectorId (expectedOf r date sectorId) (observationsOf cs sectorId) date = .ok () := by
  rw [validateScope_eq_ok, observationsOf_eq]
  refine ⟨(h.nodup hcomplete).sublist (List.filter_sublist.map _), ?_⟩
  intro c hc
  obtain ⟨hc, hsector⟩ := List.mem_filter.mp hc
  have hsector := of_decide_eq_true hsector
  refine ⟨hsector, ?_, h.dates c hc⟩
  have hprimary := MembershipResolver.resolvePrimary_eq_some.mp (h.sectors c hc)
  rw [hsector] at hprimary
  exact List.mem_toFinset.mpr (MembershipResolver.mem_membersOfPrimarySector.mpr hprimary)

/-- The observations of all sectors are the constituents. -/
theorem sum_observationsOf (h : Constituents r date complete cs) :
    (r.allPrimarySectors.map fun sectorId => (observationsOf cs sectorId).length).sum = cs.length := by
  simp only [observationsOf_eq]
  exact sum_length_filter_key MembershipResolver.nodup_allPrimarySectors fun c hc => h.sector_mem hc

/-- The fresh observations of all sectors are the fresh constituents. -/
theorem sum_fresh (h : Constituents r date complete cs) (fresh : ConstituentObservation → Bool) :
    (r.allPrimarySectors.map fun sectorId => ((observationsOf cs sectorId).filter fresh).length).sum =
      (cs.filter fresh).length := by
  have hswap : ∀ sectorId, (observationsOf cs sectorId).filter fresh =
      (cs.filter fresh).filter fun c => c.sectorId = sectorId := by
    intro sectorId
    rw [observationsOf_eq, List.filter_filter, List.filter_filter]
    simp only [Bool.and_comm]
  simp only [hswap]
  exact sum_length_filter_key MembershipResolver.nodup_allPrimarySectors
    fun c hc => h.sector_mem (List.mem_filter.mp hc).1

end Constituents

/-! ## What an evaluation raises -/

/-- No decimal result of an evaluation of these constituents is beyond the range of the context: neither
    the returns, medians and deviations of the universe and of each sector, nor what each stock is compared
    with. -/
def DecimalsFit (arith : Arithmetic) (r : MembershipResolver) (policy : CalculationPolicy)
    (date evaluationTime : Int) (cs : List ConstituentObservation) : Prop :=
  ∃ proxy, proxyEvidence arith cs policy evaluationTime = some proxy ∧
    ∀ sectorId ∈ r.allPrimarySectors, ∃ m,
      sectorEvidence arith sectorId (expectedOf r date sectorId) (observationsOf cs sectorId) policy date
        evaluationTime (some proxy) = some m ∧
      (rankingEvidence arith m (observationsOf cs sectorId) policy).isSome

section Evaluation

variable {complete : List LatestObservation} {cs : List ConstituentObservation}
variable {proxy : UniverseProxyMetrics}

theorem calculateUniverseProxy_eq_ok (h : Constituents r date complete cs)
    (hcomplete : (complete.map (·.identity)).Nodup) :
    calculateUniverseProxy arith cs policy date evaluationTime = .ok proxy ↔
      proxyEvidence arith cs policy evaluationTime = some proxy := by
  unfold calculateUniverseProxy
  rw [check_eq_ok, check_eq_ok, orOverflow_eq_ok, rejectDuplicates_eq_ok, forM_eq_ok]
  simp only [validateDate_eq_ok]
  constructor
  · rintro ⟨-, -, hproxy⟩
    exact hproxy
  · intro hproxy
    exact ⟨⟨h.nodup hcomplete, fun _ _ => List.not_mem_nil⟩, h.dates, hproxy⟩

/-- A sector of an evaluation is evaluated exactly when its decimals fit. -/
theorem evaluateSector_eq_ok (h : Constituents r date complete cs)
    (hcomplete : (complete.map (·.identity)).Nodup) {sectorId : String} {m : SectorMetrics}
    {ranking : SectorStockRanking} :
    evaluateSector arith r policy date evaluationTime cs proxy sectorId = .ok (m, ranking) ↔
      sectorEvidence arith sectorId (expectedOf r date sectorId) (observationsOf cs sectorId) policy date
          evaluationTime (some proxy) = some m ∧
        rankingEvidence arith m (observationsOf cs sectorId) policy = some ranking := by
  have hscope := h.validateScope_eq hcomplete sectorId
  have hchecks : ∀ {m : SectorMetrics}, sectorEvidence arith sectorId (expectedOf r date sectorId)
      (observationsOf cs sectorId) policy date evaluationTime (some proxy) = some m →
      validateRanking m [] (observationsOf cs sectorId) = .ok () := by
    intro m hm
    obtain ⟨hsector, hdate, -⟩ := sectorEvidence_counts hm
    obtain ⟨hnodup, hall⟩ := validateScope_eq_ok.mp hscope
    rw [validateRanking_eq_ok, rejectDuplicates_eq_ok, hsector, hdate]
    exact ⟨⟨hnodup, fun _ _ => List.not_mem_nil⟩, fun o ho => ⟨(hall o ho).1, (hall o ho).2.2⟩⟩
  unfold evaluateSector calculateSectorMetrics
  simp only [bind_eq_ok, mapError_eq_ok, orOverflow_eq_ok, rankSectorConstituents_eq_ok]
  constructor
  · rintro ⟨m', ⟨_, -, hm⟩, ranking', ⟨-, hranking⟩, hpair⟩
    cases hpair
    exact ⟨hm, hranking⟩
  · rintro ⟨hm, hranking⟩
    exact ⟨m, ⟨(), hscope, hm⟩, ranking, ⟨hchecks hm, hranking⟩, rfl⟩

/-- **Only an overflow makes an evaluation raise.** -/
theorem evaluated_iff (h : Constituents r date complete cs)
    (hcomplete : (complete.map (·.identity)).Nodup) :
    DecimalsFit arith r policy date evaluationTime cs ↔
      ∃ proxy evaluated, calculateUniverseProxy arith cs policy date evaluationTime = .ok proxy ∧
        r.allPrimarySectors.mapM (evaluateSector arith r policy date evaluationTime cs proxy) =
          .ok evaluated := by
  constructor
  · rintro ⟨proxy, hproxy, hsectors⟩
    obtain ⟨evaluated, hevaluated⟩ := mapM_returns fun sectorId hsectorId => by
      obtain ⟨m, hm, hranking⟩ := hsectors sectorId hsectorId
      obtain ⟨ranking, hranking⟩ := Option.isSome_iff_exists.mp hranking
      exact ⟨_, (evaluateSector_eq_ok h hcomplete).mpr ⟨hm, hranking⟩⟩
    exact ⟨proxy, evaluated, (calculateUniverseProxy_eq_ok h hcomplete).mpr hproxy, hevaluated⟩
  · rintro ⟨proxy, evaluated, hproxy, hevaluated⟩
    refine ⟨proxy, (calculateUniverseProxy_eq_ok h hcomplete).mp hproxy, ?_⟩
    intro sectorId hsectorId
    obtain ⟨⟨m, ranking⟩, -, hone⟩ := exists_mem_of_mapM_eq_ok hevaluated hsectorId
    obtain ⟨hm, hranking⟩ := (evaluateSector_eq_ok h hcomplete).mp hone
    exact ⟨m, hm, Option.isSome_iff_exists.mpr ⟨ranking, hranking⟩⟩

/-! ## The counts -/

/-- The sums over the sectors of an evaluation. -/
theorem evaluated_counts (h : Constituents r date complete cs)
    (hcomplete : (complete.map (·.identity)).Nodup)
    {evaluated : List (SectorMetrics × SectorStockRanking)}
    (hproxy : calculateUniverseProxy arith cs policy date evaluationTime = .ok proxy)
    (hevaluated : r.allPrimarySectors.mapM
      (evaluateSector arith r policy date evaluationTime cs proxy) = .ok evaluated) :
    (evaluated.map fun e => e.1.expectedCount).sum = (r.membersOn (some date)).length ∧
      (evaluated.map fun e => e.1.validCount + e.1.staleCount).sum = cs.length ∧
      (evaluated.map fun e => e.1.validCount).sum = proxy.validCount := by
  have hone : ∀ {sectorId : String} {e : SectorMetrics × SectorStockRanking},
      evaluateSector arith r policy date evaluationTime cs proxy sectorId = .ok e →
      e.1.expectedCount = (r.membersOfPrimarySector sectorId (some date)).length ∧
        e.1.validCount =
          ((observationsOf cs sectorId).filter (isFresh evaluationTime policy.freshnessLimit)).length ∧
        e.1.validCount + e.1.staleCount = (observationsOf cs sectorId).length := by
    intro sectorId e he
    obtain ⟨-, -, hexpected, hvalid, hboth⟩ :=
      sectorEvidence_counts ((evaluateSector_eq_ok h hcomplete).mp he).1
    refine ⟨?_, hvalid, hboth⟩
    rw [hexpected, expectedOf, List.toFinset_card_of_nodup MembershipResolver.nodup_membersOfPrimarySector]
  refine ⟨?_, ?_, ?_⟩
  · rw [MembershipResolver.length_membersOn]
    exact congrArg List.sum (map_eq_of_mapM_eq_ok hevaluated fun _ _ _ he => (hone he).1)
  · rw [← h.sum_observationsOf]
    exact congrArg List.sum (map_eq_of_mapM_eq_ok hevaluated fun _ _ _ he => (hone he).2.2)
  · rw [proxyEvidence_validCount ((calculateUniverseProxy_eq_ok h hcomplete).mp hproxy), ← h.sum_fresh]
    exact congrArg List.sum (map_eq_of_mapM_eq_ok hevaluated fun _ _ _ he => (hone he).2.1)

end Evaluation

/-- The counts of a snapshot are the sums over its sectors. -/
structure Counted (s : SectorShadowSnapshot) : Prop where
  expected : s.expectedUniverseCount = (s.sectorMetrics.map (·.expectedCount)).sum
  complete : s.completeCount = (s.sectorMetrics.map fun m => m.validCount + m.staleCount).sum
  fresh : s.freshCount = (s.sectorMetrics.map (·.validCount)).sum

theorem length_expectedUniverse (r : MembershipResolver) :
    (expectedUniverse r).length = (r.membersOn none).length := by
  unfold expectedUniverse
  rw [List.Nodup.dedup MembershipResolver.nodup_membersOn]

/-- **The counts of a snapshot**: they are the sums exactly when the universe has the size that it has on
    the date, and every complete observation has a sector on it. -/
theorem counted_snapshotOf {observations : List LatestObservation} {cs : List ConstituentObservation}
    {proxy : UniverseProxyMetrics} {evaluated : List (SectorMetrics × SectorStockRanking)}
    (hobservations : (observations.map (·.identity)).Nodup)
    (h : Constituents r date (completeOf observations (some date)) cs)
    (hproxy : calculateUniverseProxy arith cs policy date evaluationTime = .ok proxy)
    (hevaluated : r.allPrimarySectors.mapM
      (evaluateSector arith r policy date evaluationTime cs proxy) = .ok evaluated) :
    Counted (snapshotOf r (some date) evaluationTime observations (some proxy) evaluated) ↔
      (r.membersOn (some date)).length = (r.membersOn none).length ∧
        ∀ o ∈ observations, o.isComplete = true → o.tradingDate = some date →
          (r.resolvePrimary o.identity (some date)).isSome := by
  obtain ⟨hexpected, hboth, hvalid⟩ :=
    evaluated_counts h (nodup_completeOf hobservations) hproxy hevaluated
  have hmaps : ∀ f : SectorMetrics → ℕ,
      ((snapshotOf r (some date) evaluationTime observations (some proxy) evaluated).sectorMetrics.map
        f).sum = (evaluated.map fun e => f e.1).sum := by
    intro f
    simp [snapshotOf, Function.comp_def]
  have hsectors : cs.length = (completeOf observations (some date)).length ↔
      ∀ o ∈ observations, o.isComplete = true → o.tradingDate = some date →
        (r.resolvePrimary o.identity (some date)).isSome := by
    rw [h.length_eq, List.length_filter_eq_length_iff]
    simp only [mem_completeOf]
    exact ⟨fun hall o ho hcomplete hdate => hall o ⟨ho, hcomplete, hdate⟩,
      fun hall o ho => hall o ho.1 ho.2.1 ho.2.2⟩
  rw [← hsectors]
  constructor
  · rintro ⟨hcountE, hcountC, -⟩
    rw [hmaps, hexpected] at hcountE
    rw [hmaps, hboth] at hcountC
    rw [← length_expectedUniverse]
    exact ⟨hcountE.symm, hcountC.symm⟩
  · rintro ⟨hsize, hlength⟩
    refine ⟨?_, ?_, ?_⟩
    · rw [hmaps, hexpected, hsize]
      exact length_expectedUniverse r
    · rw [hmaps, hboth, hlength]
      rfl
    · rw [hmaps, hvalid]
      rfl

/-! ## The runtime -/

/-- The claim of the runtime for a date: in a run of observations, nobody with a sector on the date is
    refused as unknown, and the evaluation returns a snapshot that, for this date, counts its sectors. -/
structure FollowsMembership (c : DecimalContext) (r : MembershipResolver) (policy : CalculationPolicy)
    (date evaluationTime : Int) (before during : List LatestObservation) : Prop where
  known : Along ObservationState.record
    (fun s o => (r.resolvePrimary o.identity (some date)).isSome → (s.record o).2 ≠ .rejectedUnknown)
    (initialState r) (before ++ during)
  counted : ∃ snapshot, evaluateOnce c.round r policy evaluationTime before during = .ok snapshot ∧
    (snapshot.tradingDate = some date → Counted snapshot)

/-- What it takes: nobody who was observed has joined; the decimals of the evaluation fit; and for the date,
    as many identities have a sector as at the start of the dataset, and nobody held complete has left. -/
structure SteadyMembership (c : DecimalContext) (r : MembershipResolver) (policy : CalculationPolicy)
    (date evaluationTime : Int) (before during : List LatestObservation) : Prop where
  noneJoined : ∀ o ∈ before ++ during, (r.resolvePrimary o.identity (some date)).isSome →
    (r.resolvePrimary o.identity none).isSome
  decimals : ∀ current, (stateAfter r (before ++ during)).tradingDate = some current →
    ∀ cs, constituentsOn r current
        (completeOf (coherentCopy (stateAfter r before)) (some current)) = .ok cs →
      DecimalsFit c.round r policy current evaluationTime cs
  noneLeft : (stateAfter r (before ++ during)).tradingDate = some date →
    (r.membersOn (some date)).length = (r.membersOn none).length ∧
      ∀ o ∈ coherentCopy (stateAfter r before), o.isComplete = true → o.tradingDate = some date →
        (r.resolvePrimary o.identity (some date)).isSome

theorem known_iff (r : MembershipResolver) (date : Int) (os : List LatestObservation) :
    Along ObservationState.record
        (fun s o => (r.resolvePrimary o.identity (some date)).isSome → (s.record o).2 ≠ .rejectedUnknown)
        (initialState r) os ↔
      ∀ o ∈ os, (r.resolvePrimary o.identity (some date)).isSome →
        (r.resolvePrimary o.identity none).isSome := by
  have hstep : ∀ (s : ObservationState) (o : LatestObservation), s.expected = expectedUniverse r →
      ((s.record o).2 ≠ .rejectedUnknown ↔ (r.resolvePrimary o.identity none).isSome) := by
    intro s o hs
    rw [Ne, (s.record_held o).2.1, not_not, hs, expectedUniverse, List.mem_dedup,
      MembershipResolver.isSome_resolvePrimary]
  suffices ∀ s : ObservationState, s.expected = expectedUniverse r →
      (Along ObservationState.record (fun s o => (r.resolvePrimary o.identity (some date)).isSome →
        (s.record o).2 ≠ .rejectedUnknown) s os ↔
      ∀ o ∈ os, (r.resolvePrimary o.identity (some date)).isSome →
        (r.resolvePrimary o.identity none).isSome) from this _ rfl
  induction os with
  | nil => simp
  | cons o os ih =>
    intro s hs
    rw [along_cons, List.forall_mem_cons, hstep s o hs,
      ih _ ((s.record_held o).1.trans hs)]

/-- **Exactly when the runtime follows effective-dated membership.** -/
theorem follows_membership_iff (c : DecimalContext) (r : MembershipResolver) (policy : CalculationPolicy)
    (date evaluationTime : Int) (before during : List LatestObservation) :
    FollowsMembership c r policy date evaluationTime before during ↔
      SteadyMembership c r policy date evaluationTime before during := by
  have hnodup := nodup_coherentCopy (keyed_stateAfter r before)
  let held := coherentCopy (stateAfter r before)
  have hheld : (held.map (·.identity)).Nodup := hnodup
  have hcs (current : Int) : ∃ cs, constituentsOn r current (completeOf held (some current)) = .ok cs ∧
      Constituents r current (completeOf held (some current)) cs :=
    constituentsOn_returns fun o ho => (mem_completeOf.mp ho).2.1
  constructor
  · rintro ⟨hknown, snapshot, hsnapshot, hcounted⟩
    refine ⟨(known_iff r date _).mp hknown, ?_, ?_⟩
    · intro current hcurrent cs hok
      obtain ⟨cs', hok', hspec⟩ := hcs current
      cases hok.symm.trans hok'
      refine (evaluated_iff hspec (nodup_completeOf hheld)).mpr ?_
      unfold evaluateOnce at hsnapshot
      rw [hcurrent] at hsnapshot
      obtain ⟨cs', hok', hrest⟩ := bind_eq_ok.mp hsnapshot
      cases hok.symm.trans hok'
      obtain ⟨proxy, hproxy, hrest⟩ := bind_eq_ok.mp hrest
      obtain ⟨evaluated, hevaluated, -⟩ := bind_eq_ok.mp hrest
      exact ⟨proxy, evaluated, mapError_eq_ok.mp hproxy, hevaluated⟩
    · intro hcurrent
      obtain ⟨cs, hok, hspec⟩ := hcs date
      unfold evaluateOnce at hsnapshot
      rw [hcurrent] at hsnapshot
      obtain ⟨cs', hok', hrest⟩ := bind_eq_ok.mp hsnapshot
      cases hok.symm.trans hok'
      obtain ⟨proxy, hproxy, hrest⟩ := bind_eq_ok.mp hrest
      obtain ⟨evaluated, hevaluated, hrest⟩ := bind_eq_ok.mp hrest
      cases hrest
      exact (counted_snapshotOf hheld hspec (mapError_eq_ok.mp hproxy) hevaluated).mp (hcounted rfl)
  · rintro ⟨hjoined, hdecimals, hleft⟩
    refine ⟨(known_iff r date _).mpr hjoined, ?_⟩
    cases hcurrent : (stateAfter r (before ++ during)).tradingDate with
    | none =>
      refine ⟨snapshotOf r none evaluationTime held none [], ?_, ?_⟩
      · unfold evaluateOnce
        rw [hcurrent]
        rfl
      · intro hdate
        cases hdate
    | some current =>
      obtain ⟨cs, hok, hspec⟩ := hcs current
      obtain ⟨proxy, evaluated, hproxy, hevaluated⟩ :=
        (evaluated_iff hspec (nodup_completeOf hheld)).mp (hdecimals current hcurrent cs hok)
      refine ⟨snapshotOf r (some current) evaluationTime held (some proxy) evaluated, ?_, ?_⟩
      · unfold evaluateOnce
        rw [hcurrent]
        exact bind_eq_ok.mpr ⟨cs, hok, bind_eq_ok.mpr ⟨proxy, mapError_eq_ok.mpr hproxy,
          bind_eq_ok.mpr ⟨evaluated, hevaluated, rfl⟩⟩⟩
      · intro hdate
        cases hdate
        exact (counted_snapshotOf hheld hspec hproxy hevaluated).mpr (hleft hcurrent)

/-! ## A joiner -/

/-- A dataset from day 0 on whose only member joins on day 10. -/
def joinedLater : SectorMembershipDataset where
  metadata := { effectiveFrom := 0 }
  sectorDefinitions := [{ sectorId := "IT", kind := .primarySector }]
  indexDefinitions := []
  memberships := [{ identity := "NSE:TCS", sectorId := "IT", primary := true, effectiveFrom := 10 }]

theorem joinedLater_accepted : validate joinedLater = .ok () := rfl

theorem shadow_epsilon_nonneg : (0 : ℚ) ≤ 1 / 1000 := by norm_num

theorem shadow_count_pos : 1 ≤ 1 := le_refl 1

theorem shadow_limit_pos : 0 < 5 * minute := by decide

/-- `SHADOW_VALIDATION_POLICY`. -/
def shadowValidationPolicy : CalculationPolicy where
  directionEpsilon := 1 / 1000
  freshnessLimit := 5 * minute
  directionEpsilon_nonneg := shadow_epsilon_nonneg
  freshnessLimit_pos := shadow_limit_pos
  minimumValidCount_pos := shadow_count_pos

/-- An observation of the member on the day it joins. -/
def joinerObservation : LatestObservation where
  identity := "NSE:TCS"
  tradingDate := some 10
  observationTimestamp := 10 * day
  lastPrice := some (rupees 102)
  previousClose := some (rupees 100)
  sessionOpen := some (rupees 101)
  version := 1

/-- The member of the day is not in the universe. -/
theorem joiner_refused :
    ¬ FollowsMembership .default ⟨joinedLater, joinedLater_accepted⟩ shadowValidationPolicy 10 (10 * day)
      [joinerObservation] [] := by
  rintro ⟨hknown, -⟩
  exact hknown.1 (by decide) (by decide)

end ApexScan.SectorIntelligence
