import ApexScan.Engine.ContextVersions
import ApexScan.Historical.PreviousSession
import ApexScan.Historical.Sharing
import ApexScan.Strategy.NarrowCpr
import ApexScan.Strategy.PublishedResults

/-!
# The previous session of a published result

The previous-session facts are dated when a warmup runs, from the instant of its `start`, and stay in the
registry until the next warmup.  A result is published under the date of its own context, and nothing
compares the two dates.

* `LiveMarketRuntime` — the engine, the warmup and the manager over one registry and one bus.
* `published_historical`, `step_historical` — a context carries the snapshot in force; a snapshot is
  replaced by a warmup only.
* `InForce` — the reference of the warmup whose snapshot an instrument has.

Main result: `previous_session_date_iff`, over every run and every publication;
`evening_start_is_stale` is a start on a Friday evening.
-/

set_option autoImplicit false

namespace ApexScan

open Lib

/-! ## Snapshots in the engine -/

namespace TickEngine

variable {e : TickEngine} {op : Op}

/-- Without an installation, a call keeps the snapshot of every instrument. -/
theorem step_keeps_historical (hop : ∀ i h, op ≠ .installHistorical i h) (i : Instrument) :
    ((step e op).1.stateOf i).historical = (e.stateOf i).historical := by
  have hput : ∀ (j : Instrument) (s : InstrumentState),
      s.historical = (e.registry.stateFor j).historical →
      ((e.registry.put j s).stateFor i).historical = (e.registry.stateFor i).historical := by
    intro j s hs
    rw [InstrumentStateRegistry.stateFor_put]
    split
    · rename_i hji
      rw [hs, hji]
    · rfl
  cases op with
  | process event now observedAt bus =>
    cases hp : pending e (.process event now observedAt bus) with
    | none =>
      cases event with
      | reference r =>
        simp only [pending, ite_eq_right_iff, reduceCtorEq, imp_false] at hp
        simp only [step, process, hp, if_false, Bool.false_eq_true]
        rfl
      | datum d =>
        simp only [pending, ite_eq_right_iff, reduceCtorEq, imp_false] at hp
        simp only [step, process, hp, if_false]
        rfl
    | some jp =>
      obtain ⟨j, p⟩ := jp
      have hsame : p.state.historical = (e.stateOf j).historical := by
        rcases pending_cases hp with ⟨r, _, _, _, -, rfl, -, rfl⟩ | ⟨d, _, _, _, -, rfl, -, rfl⟩ <;> rfl
      rcases (step_pending hp).2.2 with ⟨_, -, -, -, hkeep⟩ | ⟨-, -, -, hstore⟩
      · rw [hkeep i]
      · rw [hstore i]
        split
        · rename_i hji
          rw [hsame, hji]
        · rfl
  | installHistorical j h => exact absurd rfl (hop j h)
  | stageSessionStatistics j o =>
    simp only [step, stateOf, InstrumentStateRegistry.stageSessionStatisticsObservation]
    split
    · rfl
    · split
      · exact hput j _ rfl
      · split
        · rw [InstrumentStateRegistry.stateFor_ensure]
        · split
          · rw [InstrumentStateRegistry.stateFor_ensure]
          · exact hput j _ rfl
  | _ => rfl

/-- A context is published with the snapshot its instrument has. -/
theorem published_historical (hown : OwnContexts e) {context : MarketContext}
    (h : publishedContext (step e op).2 = some context) :
    context.historical = (e.stateOf context.instrument).historical := by
  cases hp : pending e op with
  | none =>
    rw [publishedContext_silent hp] at h
    cases h
  | some ip =>
    obtain ⟨i, p⟩ := ip
    rw [publishedContext_pending hp] at h
    cases h
    rw [pending_instrument hown hp]
    have hfields : ∀ (prior : Option MarketContext) (fields : ContextFields),
        (contextEvent i prior fields).context.historical = fields.historical := by
      intro prior fields
      cases prior <;> rfl
    rcases pending_cases hp with ⟨r, now, _, _, -, rfl, -, rfl⟩ | ⟨d, _, observedAt, _, -, rfl, -, rfl⟩
    · refine (hfields _ (e.referenceFields r now)).trans ?_
      unfold referenceFields
      dsimp only
      split <;> rfl
    · exact hfields _ (e.datumFields d observedAt)

end TickEngine

/-! ## The runtime -/

/-- `LiveMarketRuntime`: the warmup installs into the registry of the engine, and the manager is subscribed
    to the bus of the engine; `maxWidthPct` is configured for `narrow_cpr`. -/
structure LiveMarketRuntime where
  engine : TickEngine
  planner : HistoricalRangePlanner
  system : System
  maxWidthPct : Option ℚ := none

namespace LiveMarketRuntime

/-- What `evaluate` of a strategy does; of the other strategies it is given. -/
def evaluate (r : LiveMarketRuntime) (others : String → Option StrategyEvaluation)
    (context : MarketContext) (strategyId : String) : Option StrategyEvaluation :=
  if strategyId = NarrowCpr.strategyId then
    (r.system.manager.configurations strategyId).bind fun configuration =>
      (NarrowCpr.evaluate r.maxWidthPct context configuration).toOption
  else others strategyId

inductive Op where
  /-- A call of the engine; `delivered` when no subscriber raises before the manager is called. -/
  | engine (op : TickEngine.Op) (delivered : Bool) (others : String → Option StrategyEvaluation)
  /-- A warmup ends, with what the source and the cache held for it. -/
  | warmup (source : HistoricalSource) (cache : HistoricalCache) (instruments : List Instrument)
      (requirements : List HistoricalRequirement) (reference : Int)
  /-- A lifecycle command. -/
  | manager (op : System.Op)

/-- The warmup service over the registry of the engine, at one call. -/
def warmupService (r : LiveMarketRuntime) (source : HistoricalSource) (cache : HistoricalCache) :
    WarmupService where
  planner := r.planner
  source := source
  cache := cache
  registry := r.engine.registry

/-- The context of a call of the engine, on the manager. -/
def handle (r : LiveMarketRuntime) (others : String → Option StrategyEvaluation)
    (context : MarketContext) : LiveMarketRuntime × Option StrategyResultsPublished :=
  let handled := r.system.manager.handle context (r.evaluate others context)
  ({ r with system := { r.system with manager := handled.1 } }, handled.2.2)

/-- One call, with the publication of the manager; snapshots are installed by warmups, and contexts come
    from the engine. -/
def step (r : LiveMarketRuntime) : Op → LiveMarketRuntime × Option StrategyResultsPublished
  | .engine (.installHistorical _ _) _ _ => (r, none)
  | .engine op delivered others =>
    let stepped := r.engine.step op
    match TickEngine.publishedContext stepped.2, delivered with
    | some context, true => { r with engine := stepped.1 }.handle others context
    | _, _ => ({ r with engine := stepped.1 }, none)
  | .warmup source cache instruments requirements reference =>
    let warmed := (r.warmupService source cache).warmup instruments requirements reference
    ({ r with engine := { r.engine with registry := warmed.1.registry } }, none)
  | .manager (.context _ _) => (r, none)
  | .manager op => ({ r with system := (r.system.step op).1 }, none)

/-- A runtime before its first call, with any strategies. -/
def create (known : List Instrument) (session : Option MarketSessionClassifier)
    (candles : Option CandleEngine) (authority : SessionStatisticsAuthority)
    (planner : HistoricalRangePlanner) (manager : StrategyManager) (maxWidthPct : Option ℚ) :
    LiveMarketRuntime where
  engine := TickEngine.create known session candles authority
  planner := planner
  system := { manager }
  maxWidthPct := maxWidthPct

/-! ## What a step does -/

/-- What an engine call other than an installation does to the runtime. -/
theorem step_engine (r : LiveMarketRuntime) (op : TickEngine.Op) (delivered : Bool)
    (others : String → Option StrategyEvaluation) :
    ((r.step (.engine op delivered others)).1.engine = r.engine ∧
      (r.step (.engine op delivered others)).2 = none) ∨
    ((∀ i h, op ≠ .installHistorical i h) ∧
      (r.step (.engine op delivered others)).1.engine = (r.engine.step op).1 ∧
      ∀ published, (r.step (.engine op delivered others)).2 = some published →
        ∃ context, TickEngine.publishedContext (r.engine.step op).2 = some context ∧
          (r.system.manager.handle context (r.evaluate others context)).2.2 = some published) := by
  cases hinstall : op with
  | installHistorical i h => exact Or.inl ⟨rfl, rfl⟩
  | _ =>
    right
    refine ⟨by simp, ?_⟩
    simp only [step]
    split
    · rename_i context hcontext
      exact ⟨rfl, fun published h => ⟨context, hcontext, h⟩⟩
    · exact ⟨rfl, fun published h => by cases h⟩

theorem step_planner (r : LiveMarketRuntime) (op : Op) : (r.step op).1.planner = r.planner := by
  cases op with
  | engine op delivered others =>
    cases op with
    | installHistorical i h => rfl
    | _ =>
      simp only [step]
      split <;> rfl
  | warmup source cache instruments requirements reference => rfl
  | manager op => cases op <;> rfl

theorem step_manager (r : LiveMarketRuntime) (op : System.Op) :
    (r.step (.manager op)).1.engine = r.engine ∧ (r.step (.manager op)).2 = none := by
  cases op <;> exact ⟨rfl, rfl⟩

theorem step_ownContexts (r : LiveMarketRuntime) (op : Op) (h : TickEngine.OwnContexts r.engine) :
    TickEngine.OwnContexts (r.step op).1.engine := by
  cases op with
  | engine op delivered others =>
    rcases r.step_engine op delivered others with ⟨hsame, -⟩ | ⟨-, hstepped, -⟩
    · rwa [hsame]
    · rw [hstepped]
      exact TickEngine.step_ownContexts h op
  | warmup source cache instruments requirements reference =>
    intro i c hc
    have hcontext : ((r.step (.warmup source cache instruments requirements reference)).1.engine.stateOf
        i).context = (r.engine.stateOf i).context := by
      rcases (r.warmupService source cache).warmup_dates instruments requirements reference i with
        hsame | ⟨_, hnew, -⟩
      · exact congrArg (·.context) hsame
      · exact congrArg (·.context) hnew
    exact h i c (hcontext ▸ hc)
  | manager op => rwa [(r.step_manager op).1]

/-- A snapshot after a call was there before, or the call is a warmup that dates it. -/
theorem step_historical (r : LiveMarketRuntime) (op : Op) (i : Instrument) (h : HistoricalContext)
    (hafter : ((r.step op).1.engine.stateOf i).historical = some h) :
    (r.engine.stateOf i).historical = some h ∨
      ∃ source cache instruments requirements reference,
        op = .warmup source cache instruments requirements reference ∧ DatedBy r.planner reference h := by
  cases op with
  | engine op delivered others =>
    left
    rcases r.step_engine op delivered others with ⟨hsame, -⟩ | ⟨hop, hstepped, -⟩
    · rwa [hsame] at hafter
    · rwa [hstepped, TickEngine.step_keeps_historical hop] at hafter
  | warmup source cache instruments requirements reference =>
    rcases (r.warmupService source cache).warmup_dates instruments requirements reference i with
      hsame | ⟨h', hnew, hdated⟩
    · left
      exact (congrArg (·.historical) hsame).symm.trans hafter
    · right
      have hsnapshot : some h' = some h := (congrArg (·.historical) hnew).symm.trans hafter
      cases hsnapshot
      exact ⟨source, cache, instruments, requirements, reference, rfl, hdated⟩
  | manager op =>
    left
    rwa [(r.step_manager op).1] at hafter

/-! ## Runs -/

/-- The instrument has the snapshot of a warmup at the reference, and has had it since. -/
def InForce (r : LiveMarketRuntime) (ops : List Op) (i : Instrument) (reference : Int)
    (h : HistoricalContext) : Prop :=
  ∃ before source cache instruments requirements after,
    ops = before ++ .warmup source cache instruments requirements reference :: after ∧
    DatedBy r.planner reference h ∧
    ∀ mid rest, after = mid ++ rest →
      ((run step r (before ++ .warmup source cache instruments requirements reference :: mid)).engine.stateOf
        i).historical = some h

theorem run_planner (r : LiveMarketRuntime) (ops : List Op) : (run step r ops).planner = r.planner :=
  run_invariant (I := fun r' : LiveMarketRuntime => r'.planner = r.planner)
    (fun r' op h => (r'.step_planner op).trans h) ops rfl

/-- Every snapshot that an instrument has during a run is in force. -/
theorem inForce_of_historical {r : LiveMarketRuntime} (hr : ∀ i, (r.engine.stateOf i).historical = none)
    {ops : List Op} {i : Instrument} {h : HistoricalContext}
    (hend : ((run step r ops).engine.stateOf i).historical = some h) :
    ∃ reference, r.InForce ops i reference h := by
  obtain ⟨before, op, after, rfl, ⟨source, cache, instruments, requirements, reference, rfl, hdated⟩,
      hsince⟩ :=
    run_origin_kept (fun r : LiveMarketRuntime => (r.engine.stateOf i).historical)
      (fun r op h => ∃ source cache instruments requirements reference,
        op = .warmup source cache instruments requirements reference ∧ DatedBy r.planner reference h)
      (fun r op h => r.step_historical op i h) (hr i) ops hend
  rw [run_planner] at hdated
  exact ⟨reference, before, source, cache, instruments, requirements, after, rfl, hdated, hsince⟩

/-- The same trading days lie before the two dates. -/
def SameDaysBefore (calendar : TradingCalendar) (a b : Int) : Prop :=
  ∀ x, TradingDay calendar x → (x < a ↔ x < b)

/-- A trading day differs in this from every other date after it. -/
theorem not_sameDaysBefore {calendar : TradingCalendar} {a b : Int} (ha : TradingDay calendar a)
    (h : a < b) : ¬ SameDaysBefore calendar a b := fun hsame =>
  lt_irrefl a ((hsame a ha).mpr h)

/-- **A published `narrow_cpr` result names the session before the date of the `start`**, and this is the
    latest trading day before the date of the publication exactly when the same trading days lie before
    both dates: in every run, with any strategies, warmups, ticks and subscribers, and for every
    publication of it. -/
theorem previous_session_date_iff (known : List Instrument) (session : Option MarketSessionClassifier)
    (candles : Option CandleEngine) (authority : SessionStatisticsAuthority)
    (planner : HistoricalRangePlanner) (manager : StrategyManager) (maxWidthPct : Option ℚ)
    (pre : List Op) (op : Op) :
    let start := create known session candles authority planner manager maxWidthPct
    ∀ published ∈ ((run step start pre).step op).2, ∀ T ∈ published.tradingDate,
    ∀ result ∈ published.results, result.strategyId = NarrowCpr.strategyId →
      ∃ reference h d, start.InForce pre published.instrument reference h ∧
        planner.newestCompletedSession reference = .ok d ∧
        NarrowCpr.sourceSessionDate d ∈ result.metrics ∧
        (LatestBefore (TradingDay planner.calendar) T d ↔
          SameDaysBefore planner.calendar (planner.localDate reference) T) := by
  intro start published hpublished T _ result hresult hid
  have hown : TickEngine.OwnContexts (run step start pre).engine :=
    run_invariant (I := fun r : LiveMarketRuntime => TickEngine.OwnContexts r.engine)
      (fun r op h => r.step_ownContexts op h) pre (fun i c hc => by cases hc)
  -- the publication comes from a context of the engine
  obtain ⟨engineOp, others, context, hcontext, hhandled⟩ : ∃ engineOp others context,
      TickEngine.publishedContext ((run step start pre).engine.step engineOp).2 = some context ∧
      ((run step start pre).system.manager.handle context
        ((run step start pre).evaluate others context)).2.2 = some published := by
    cases op with
    | engine op delivered others =>
      rcases (run step start pre).step_engine op delivered others with ⟨-, hnone⟩ | ⟨-, -, hemits⟩
      · rw [hnone] at hpublished
        cases hpublished
      · obtain ⟨context, hcontext, hhandled⟩ := hemits published hpublished
        exact ⟨op, others, context, hcontext, hhandled⟩
    | warmup => cases hpublished
    | manager op =>
      rw [((run step start pre).step_manager op).2] at hpublished
      cases hpublished
  obtain ⟨hinstrument, -, -⟩ := StrategyManager.published_context hhandled
  obtain ⟨evaluation, descriptor, hevaluated, hstatus, rfl⟩ :=
    StrategyManager.published_result hhandled hresult
  -- the strategy was given the snapshot in force
  rw [hid, evaluate, if_pos rfl, Option.bind_eq_some_iff] at hevaluated
  obtain ⟨configuration, -, hevaluated⟩ := hevaluated
  have hok : NarrowCpr.evaluate (run step start pre).maxWidthPct context configuration =
      .ok evaluation := by
    cases heval : NarrowCpr.evaluate (run step start pre).maxWidthPct context configuration with
    | error e =>
      rw [heval] at hevaluated
      cases hevaluated
    | ok e =>
      rw [heval] at hevaluated
      cases hevaluated
      rfl
  rcases NarrowCpr.evaluate_metrics hok with ⟨-, hskipped⟩ | ⟨previous, hprevious, hmetric⟩
  · rw [hskipped] at hstatus
    rcases hstatus with h | h <;> cases h
  · obtain ⟨h, hhistorical, hfacts⟩ := Option.bind_eq_some_iff.mp hprevious
    rw [TickEngine.published_historical hown hcontext] at hhistorical
    obtain ⟨reference, hforce⟩ := inForce_of_historical (fun i => rfl) hhistorical
    obtain ⟨_, _, _, _, _, _, -, hdated, -⟩ := id hforce
    have hdate := hdated previous hfacts
    refine ⟨reference, h, previous.tradingDate, hinstrument ▸ hforce, hdate, hmetric, ?_⟩
    exact (planner.window.previousTradingDay_latest hdate).iff

/-! ## A start in the evening and one in the morning -/

theorem narrowRegistry_keyed : ∀ kv ∈ [(NarrowCpr.strategyId, NarrowCpr.narrowCpr)],
    kv.2.descriptor.strategyId = kv.1 := by decide

def narrowRegistry : StrategyRegistry where
  strategies := [(NarrowCpr.strategyId, NarrowCpr.narrowCpr)]
  keyed := narrowRegistry_keyed
  nodup := List.nodup_singleton _

def narrowManager : StrategyManager :=
  StrategyManager.create narrowRegistry (fun _ => some ⟨"1.0.0", ["NarrowCprConfiguration"]⟩) 3
    sampleThreshold_pos [reliance] sampleEngine false

/-- A runtime with `narrow_cpr` alone and the default calendar, which lists no holiday. -/
def narrowRuntime : LiveMarketRuntime :=
  create [reliance] (some nseClassifier) none {} WarmupService.nsePlanner narrowManager none

/-- A `start` at the reference, with the session bars that the source holds. -/
def startAt (bars : List Candle) (reference : Int) : List Op :=
  [.manager (.start NarrowCpr.strategyId),
    .warmup (WarmupService.holding bars) [] [reliance] [WarmupService.sessions 1] reference,
    .manager (.resumeStart NarrowCpr.strategyId .returned)]

/-- The tick of an instant, processed at once. -/
def tickOf (instant : Int) : Op :=
  .engine (.process (.datum (.tick
    { instrument := reliance, eventTimestamp := instant, lastPrice := rupees 100 })) instant instant {})
    true fun _ => none

/-- Half past six in the evening of Friday, 2026-08-07. -/
def fridayEvening : Int := WarmupService.nsePlanner.localize 20672 (1110 * minute)

/-- Eight and twenty past nine in the morning of Monday, 2026-08-10. -/
def mondayMorning : Int := WarmupService.nsePlanner.localize 20675 (480 * minute)

def mondayOpening : Int := WarmupService.nsePlanner.localize 20675 (560 * minute)

theorem latestBefore_monday :
    LatestBefore (TradingDay WarmupService.nsePlanner.calendar) 20675 20672 := by
  refine ⟨by decide, by decide, ?_⟩
  intro x hx hlt
  by_contra hlate
  have hweekend : x = 20673 ∨ x = 20674 := by omega
  rcases hweekend with rfl | rfl <;> exact absurd hx (by decide)

/-- The start on Friday evening is given the bar of Thursday, which its plan asks for; the first tick on
    Monday is published with Thursday's date, and Friday was a trading day. -/
theorem evening_start_is_stale :
    (∃ published ∈ ((run step narrowRuntime
        (startAt [WarmupService.sessionBar 20671] fridayEvening)).step (tickOf mondayOpening)).2,
      published.tradingDate = some 20675 ∧
        ∃ result ∈ published.results, result.strategyId = NarrowCpr.strategyId ∧
          NarrowCpr.sourceSessionDate 20671 ∈ result.metrics ∧
          NarrowCpr.sourceSessionDate 20672 ∉ result.metrics) ∧
      LatestBefore (TradingDay WarmupService.nsePlanner.calendar) 20675 20672 :=
  ⟨by decide +kernel, latestBefore_monday⟩

/-- A start on Monday morning is followed by a publication, whose date and reference the theorem relates. -/
theorem morning_start_is_current :
    let pre := startAt [WarmupService.sessionBar 20672] mondayMorning
    ∃ published ∈ ((run step narrowRuntime pre).step (tickOf mondayOpening)).2,
    ∃ T ∈ published.tradingDate, ∃ result ∈ published.results, result.strategyId = NarrowCpr.strategyId ∧
      ∃ reference h d, narrowRuntime.InForce pre published.instrument reference h ∧
        WarmupService.nsePlanner.newestCompletedSession reference = .ok d ∧
        NarrowCpr.sourceSessionDate d ∈ result.metrics ∧
        (LatestBefore (TradingDay WarmupService.nsePlanner.calendar) T d ↔
          SameDaysBefore WarmupService.nsePlanner.calendar
            (WarmupService.nsePlanner.localDate reference) T) := by
  intro pre
  have hrun : ∃ published ∈ ((run step narrowRuntime pre).step (tickOf mondayOpening)).2,
      published.tradingDate = some 20675 ∧
        ∃ result ∈ published.results, result.strategyId = NarrowCpr.strategyId := by
    decide +kernel
  obtain ⟨published, hpublished, hdate, result, hresult, hid⟩ := hrun
  exact ⟨published, hpublished, 20675, hdate, result, hresult, hid,
    previous_session_date_iff [reliance] (some nseClassifier) none {} WarmupService.nsePlanner
      narrowManager none pre (tickOf mondayOpening) published hpublished 20675 hdate result hresult hid⟩

end LiveMarketRuntime

end ApexScan
