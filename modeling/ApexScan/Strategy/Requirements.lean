import ApexScan.Engine.CandleEngine
import ApexScan.Historical.Requirements

/-!
# Declared requirements and their provisioning

Models `app/strategies/requirements.py`, the registries `live_timeframes.py` and
`fact_requirements.py` of `app/strategy_manager`, and `requirements_bridge.py`.

* `StrategyRequirements` — what a strategy declares, with its validation as fields.
* `LiveTimeframeRequirementRegistry`, `FactRequirementRegistry` — beside the historical registry.
* `RequirementsCoordinator` — the three registries over one candle engine; `register`, `release`,
  `applyLiveUnion` and `warmPlan`, the part of `warm` before its `await`.
* `register_eq`, `applyLiveUnion_eq_some`, `release_cases` — what each does.

The order in which `_normalize` puts the collections of a declaration is read by nothing here and is left
out.  The historical warmup itself is the port of a `start`.
-/

set_option autoImplicit false

namespace ApexScan

open Lib

/-! ## Declarations -/

inductive FactNeed where
  | latestTick
  | latestQuote
  | session
  | previousSession
  | sessionStatistics
  deriving DecidableEq, Repr

inductive StrategyTrigger where
  | onContext
  | onTick
  | onQuote
  | onCandleFinalized
  | onSessionTransition
  | onHistoricalReady
  deriving DecidableEq, Repr

inductive CandleCompleteness where
  | authoritativeOnly
  | partialAllowed
  deriving DecidableEq, Repr

/-- A positive maximum age for a declared fact. -/
@[ext] structure FactFreshnessRequirement where
  fact : FactNeed
  maxAge : Int
  maxAge_pos : 0 < maxAge

instance : DecidableEq FactFreshnessRequirement :=
  fun _ _ => decidable_of_iff _ FactFreshnessRequirement.ext_iff.symm

/-- `StrategyRequirements`, with `_validate_freshness`. -/
structure StrategyRequirements where
  historical : List HistoricalRequirement := []
  liveTimeframes : List Timeframe := []
  factNeeds : List FactNeed := []
  trigger : StrategyTrigger
  candleCompleteness : CandleCompleteness
  minContextVersion : ℕ := 1
  freshness : List FactFreshnessRequirement := []
  minContextVersion_pos : 1 ≤ minContextVersion := by decide
  freshness_nodup : (freshness.map (·.fact)).Nodup := by decide
  freshness_declared : ∀ entry ∈ freshness, entry.fact ∈ factNeeds := by decide

/-- `_freshness_for`: the declared bound of a fact. -/
def StrategyRequirements.freshnessFor (r : StrategyRequirements) (fact : FactNeed) : Option Int :=
  (r.freshness.find? fun entry => entry.fact = fact).map (·.maxAge)

/-- `_session_statistics_max_age`. -/
def StrategyRequirements.sessionStatisticsMaxAge (r : StrategyRequirements) : Option Int :=
  if .sessionStatistics ∈ r.factNeeds then r.freshnessFor .sessionStatistics else none

/-! ## Registries -/

/-- `not consumer_key.strip()`. -/
def blankKey (consumerKey : String) : Bool :=
  consumerKey.toList.all HistoricalRequirementRegistry.isSpace

/-- `LiveTimeframeRequirementRegistry`. -/
structure LiveTimeframeRequirementRegistry where
  byConsumer : Dict String (List Timeframe) := []

namespace LiveTimeframeRequirementRegistry

def register (r : LiveTimeframeRequirementRegistry) (consumerKey : String)
    (timeframes : List Timeframe) : Option LiveTimeframeRequirementRegistry :=
  if blankKey consumerKey then none
  else some ⟨r.byConsumer.set consumerKey timeframes.dedup⟩

def deregister (r : LiveTimeframeRequirementRegistry) (consumerKey : String) :
    LiveTimeframeRequirementRegistry :=
  ⟨r.byConsumer.restrict (· ≠ consumerKey)⟩

/-- `effective_timeframes`. -/
def effectiveTimeframes (r : LiveTimeframeRequirementRegistry) : List Timeframe :=
  (r.byConsumer.flatMap (·.2)).dedup

end LiveTimeframeRequirementRegistry

/-- `FactRequirementRegistry`: the session-statistics bound of each consumer that has one. -/
structure FactRequirementRegistry where
  byConsumer : Dict String Int := []

namespace FactRequirementRegistry

/-- `register`; a consumer without a bound is removed. -/
def register (r : FactRequirementRegistry) (consumerKey : String)
    (sessionStatisticsMaxAge : Option Int) : Option FactRequirementRegistry :=
  if blankKey consumerKey then none
  else
    match sessionStatisticsMaxAge with
    | none => some ⟨r.byConsumer.restrict (· ≠ consumerKey)⟩
    | some maxAge => some ⟨r.byConsumer.set consumerKey maxAge⟩

def deregister (r : FactRequirementRegistry) (consumerKey : String) : FactRequirementRegistry :=
  ⟨r.byConsumer.restrict (· ≠ consumerKey)⟩

/-- `effective_session_statistics_max_age`. -/
def effectiveSessionStatisticsMaxAge (r : FactRequirementRegistry) : Option Int :=
  (r.byConsumer.map (·.2)).min?

end FactRequirementRegistry

/-! ## The coordinator -/

/-- `RequirementsCoordinator` over a `CandleEngineTimeframeSink`; `refreshControl` is the demand last
    configured, where there is such a control. -/
structure RequirementsCoordinator where
  instruments : List Instrument
  historical : HistoricalRequirementRegistry := {}
  live : LiveTimeframeRequirementRegistry := {}
  facts : FactRequirementRegistry := {}
  engine : CandleEngine
  refreshControl : Option (Option Int) := none

namespace RequirementsCoordinator

/-- `_apply_session_statistics`. -/
def applySessionStatistics (c : RequirementsCoordinator) : RequirementsCoordinator :=
  { c with refreshControl := c.refreshControl.map fun _ => c.facts.effectiveSessionStatisticsMaxAge }

/-- `register`; `none` when it raises, which the first registry does before anything is written. -/
def register (c : RequirementsCoordinator) (strategyId : String) (requirements : StrategyRequirements) :
    Option RequirementsCoordinator := do
  let historical ← c.historical.register strategyId requirements.historical
  let live ← c.live.register strategyId requirements.liveTimeframes
  let facts ← c.facts.register strategyId requirements.sessionStatisticsMaxAge
  return { c with historical, live, facts }.applySessionStatistics

/-- `apply_live_union`; `none` when the engine refuses the union. -/
def applyLiveUnion (c : RequirementsCoordinator) : Option RequirementsCoordinator :=
  (c.engine.setRequiredTimeframes c.live.effectiveTimeframes).map fun engine => { c with engine }

/-- The three removals of `release`. -/
def deregister (c : RequirementsCoordinator) (strategyId : String) : RequirementsCoordinator :=
  { c with
    historical := c.historical.deregister strategyId
    live := c.live.deregister strategyId
    facts := c.facts.deregister strategyId }

/-- `release`, with whether it completes: where the union is refused it raises, with the removals
    made and the session-statistics demand as it was. -/
def release (c : RequirementsCoordinator) (strategyId : String) : RequirementsCoordinator × Bool :=
  match (c.deregister strategyId).applyLiveUnion with
  | none => (c.deregister strategyId, false)
  | some released => (released.applySessionStatistics, true)

/-- `warm` up to its `await`: the requirements to warm, `none` when there is nothing to wait for. -/
def warmPlan (c : RequirementsCoordinator) (requirements : StrategyRequirements) :
    Option (List HistoricalRequirement) :=
  if c.historical.effectiveRequirements.isEmpty then none
  else if requirements.historical.isEmpty then none
  else some c.historical.effectiveRequirements

/-- Whether the engine accepts the union of the registered live timeframes. -/
def unionAccepted (c : RequirementsCoordinator) : Bool :=
  CandleEngine.validated c.engine.schedule c.live.effectiveTimeframes

/-- The three entries of a consumer. -/
def entry (c : RequirementsCoordinator) (strategyId : String) :
    Option (List HistoricalRequirement) × Option (List Timeframe) × Option Int :=
  (c.historical.byConsumer.get strategyId, c.live.byConsumer.get strategyId,
    c.facts.byConsumer.get strategyId)

/-! ## What the operations do -/

section Operations

variable {c c' : RequirementsCoordinator} {strategyId : String} {requirements : StrategyRequirements}

/-- What `register` writes for a consumer. -/
def written (requirements : StrategyRequirements) :
    Option (List HistoricalRequirement) × Option (List Timeframe) × Option Int :=
  (some requirements.historical.dedup, some requirements.liveTimeframes.dedup,
    requirements.sessionStatisticsMaxAge)

/-- The registries after `register`. -/
def enter (c : RequirementsCoordinator) (strategyId : String) (requirements : StrategyRequirements) :
    RequirementsCoordinator :=
  { c with
    historical := ⟨c.historical.byConsumer.set strategyId requirements.historical.dedup⟩
    live := ⟨c.live.byConsumer.set strategyId requirements.liveTimeframes.dedup⟩
    facts := ⟨match requirements.sessionStatisticsMaxAge with
      | none => c.facts.byConsumer.restrict (· ≠ strategyId)
      | some maxAge => c.facts.byConsumer.set strategyId maxAge⟩ }

/-- `register` raises exactly for a blank key. -/
theorem register_eq (c : RequirementsCoordinator) (strategyId : String)
    (requirements : StrategyRequirements) :
    c.register strategyId requirements =
      if blankKey strategyId then none
      else some (c.enter strategyId requirements).applySessionStatistics := by
  have hkey : strategyId.toList.all HistoricalRequirementRegistry.isSpace = blankKey strategyId := rfl
  unfold register HistoricalRequirementRegistry.register LiveTimeframeRequirementRegistry.register
    FactRequirementRegistry.register enter
  rw [hkey]
  cases blankKey strategyId with
  | true => rfl
  | false => cases requirements.sessionStatisticsMaxAge <;> rfl

theorem eq_enter_of_register (h : c.register strategyId requirements = some c') :
    c' = (c.enter strategyId requirements).applySessionStatistics := by
  rw [register_eq] at h
  split at h
  · cases h
  · exact (Option.some.inj h).symm

/-- Registering writes the entries of its consumer and leaves the engine and the other entries. -/
theorem entry_register (h : c.register strategyId requirements = some c') (other : String) :
    c'.entry other = if strategyId = other then written requirements else c.entry other := by
  rw [eq_enter_of_register h]
  show (c.enter strategyId requirements).entry other = _
  unfold enter entry written
  cases requirements.sessionStatisticsMaxAge with
  | none =>
    by_cases hid : strategyId = other
    · subst hid
      simp [Dict.get_restrict]
    · simp [Dict.get_restrict, Dict.get_set, hid, Ne.symm hid]
  | some maxAge =>
    by_cases hid : strategyId = other
    · subst hid
      simp
    · simp [Dict.get_set, hid]

/-- Removing a consumer removes its entries and no others. -/
theorem entry_deregister (c : RequirementsCoordinator) (strategyId other : String) :
    (c.deregister strategyId).entry other =
      if strategyId = other then (none, none, none) else c.entry other := by
  by_cases h : strategyId = other
  · subst h
    simp [entry, deregister, HistoricalRequirementRegistry.deregister,
      LiveTimeframeRequirementRegistry.deregister, FactRequirementRegistry.deregister,
      Dict.get_restrict]
  · simp [entry, deregister, HistoricalRequirementRegistry.deregister,
      LiveTimeframeRequirementRegistry.deregister, FactRequirementRegistry.deregister,
      Dict.get_restrict, h, Ne.symm h]

/-- The union is applied exactly when the engine accepts it; only the engine changes. -/
theorem applyLiveUnion_eq_some : c.applyLiveUnion = some c' ↔
    c.unionAccepted = true ∧ ∃ engine, c.engine.setRequiredTimeframes c.live.effectiveTimeframes =
      some engine ∧ c' = { c with engine } := by
  unfold applyLiveUnion unionAccepted
  constructor
  · intro h
    obtain ⟨engine, hengine, rfl⟩ := Option.map_eq_some_iff.mp h
    refine ⟨?_, engine, hengine, rfl⟩
    unfold CandleEngine.setRequiredTimeframes at hengine
    split at hengine
    · rename_i hvalid
      exact hvalid
    · cases hengine
  · rintro ⟨-, engine, hengine, rfl⟩
    rw [hengine]
    rfl

theorem applyLiveUnion_eq_none : c.applyLiveUnion = none ↔ c.unionAccepted = false := by
  unfold applyLiveUnion unionAccepted CandleEngine.setRequiredTimeframes
  cases CandleEngine.validated c.engine.schedule c.live.effectiveTimeframes <;> simp

/-- The engine keeps its schedule, so an applied union is still accepted. -/
theorem unionAccepted_of_applyLiveUnion (h : c.applyLiveUnion = some c') :
    c'.unionAccepted = true := by
  obtain ⟨hvalid, engine, hengine, rfl⟩ := applyLiveUnion_eq_some.mp h
  unfold unionAccepted at hvalid ⊢
  unfold CandleEngine.setRequiredTimeframes at hengine
  rw [if_pos hvalid] at hengine
  cases hengine
  exact hvalid

/-- An accepted union becomes the active timeframes of the engine. -/
theorem timeframes_of_applyLiveUnion (h : c.applyLiveUnion = some c') (tf : Timeframe) :
    tf ∈ c'.engine.timeframes ↔ tf ∈ c'.live.effectiveTimeframes := by
  obtain ⟨hvalid, engine, hengine, rfl⟩ := applyLiveUnion_eq_some.mp h
  unfold unionAccepted at hvalid
  unfold CandleEngine.setRequiredTimeframes at hengine
  rw [if_pos hvalid] at hengine
  cases hengine
  exact CandleEngine.mem_ordered

/-- The union is accepted iff every consumer's timeframes are. -/
theorem unionAccepted_iff : c.unionAccepted = true ↔
    ∀ kv ∈ c.live.byConsumer, CandleEngine.validated c.engine.schedule kv.2 = true := by
  unfold unionAccepted LiveTimeframeRequirementRegistry.effectiveTimeframes CandleEngine.validated
  simp only [List.all_eq_true, List.mem_dedup, List.mem_flatMap]
  constructor
  · intro h kv hkv tf htf
    exact h tf ⟨kv, hkv, htf⟩
  · rintro h tf ⟨kv, hkv, htf⟩
    exact h kv hkv tf htf

/-- Registering accepted timeframes keeps the union accepted. -/
theorem unionAccepted_register (h : c.register strategyId requirements = some c')
    (hc : c.unionAccepted = true)
    (hvalid : CandleEngine.validated c.engine.schedule requirements.liveTimeframes = true) :
    c'.unionAccepted = true := by
  rw [eq_enter_of_register h]
  rw [unionAccepted_iff] at hc ⊢
  intro kv hkv
  rcases Dict.mem_set hkv with rfl | hkv
  · unfold CandleEngine.validated at hvalid ⊢
    rw [List.all_eq_true] at hvalid ⊢
    exact fun tf htf => hvalid tf (List.mem_dedup.mp htf)
  · exact hc kv hkv

/-- Fewer consumers have no more timeframes. -/
theorem unionAccepted_deregister (strategyId : String) (hc : c.unionAccepted = true) :
    (c.deregister strategyId).unionAccepted = true := by
  rw [unionAccepted_iff] at hc ⊢
  exact fun kv hkv => hc kv (List.mem_filter.mp hkv).1

/-- `release` completes exactly when the remaining union is accepted; the entries are removed
    either way. -/
theorem release_cases (c : RequirementsCoordinator) (strategyId : String) :
    ((c.deregister strategyId).unionAccepted = false ∧
      c.release strategyId = (c.deregister strategyId, false)) ∨
    ((c.deregister strategyId).unionAccepted = true ∧
      ∃ released, (c.deregister strategyId).applyLiveUnion = some released ∧
        c.release strategyId = (released.applySessionStatistics, true)) := by
  unfold release
  cases h : (c.deregister strategyId).applyLiveUnion with
  | none => exact Or.inl ⟨applyLiveUnion_eq_none.mp h, rfl⟩
  | some released => exact Or.inr ⟨(applyLiveUnion_eq_some.mp h).1, released, rfl, rfl⟩

end Operations

end RequirementsCoordinator

end ApexScan
