import ApexScan.Lib.Purge
import ApexScan.Strategy.Manager

/-!
# What one strategy's commands do to another

A strategy whose `start` ended in ERROR keeps its requirements registered, and every later `start`, `stop`
and `force_stop` of another strategy applies the union of all registered timeframes and warms the union of
all registered lookbacks.

* `Command`, `commandStep` — a lifecycle command, with what its caller can see: the result, the state, the
  registered requirements and the emission state of its strategy afterwards.
* `provisioned` — how the union and the warmup of a `start` end, as a function of the registered requirements.
* `Isolated` — provisioning ends the same over the requirements of all strategies as over those of all but
  `a`, and so does the union of a release.
* `Apart` — two managers that differ in what concerns `a` only, the second without requirements of `a`.

Main result: `commands_isolated_iff`, a two-run property over all command sequences.
`retained_timeframe_blocks` is a strategy that cannot start beside a failed one.
-/

set_option autoImplicit false

namespace ApexScan

open Lib

/-! ## The registries -/

namespace RequirementsCoordinator

/-- Two coordinators with the same registered requirements over engines with the same schedule. -/
structure SameRegistries (c d : RequirementsCoordinator) : Prop where
  instruments : d.instruments = c.instruments
  historical : d.historical = c.historical
  live : d.live = c.live
  facts : d.facts = c.facts
  schedule : d.engine.schedule = c.engine.schedule

namespace SameRegistries

variable {c d e : RequirementsCoordinator}

theorem refl (c : RequirementsCoordinator) : SameRegistries c c := ⟨rfl, rfl, rfl, rfl, rfl⟩

theorem symm (h : SameRegistries c d) : SameRegistries d c :=
  ⟨h.instruments.symm, h.historical.symm, h.live.symm, h.facts.symm, h.schedule.symm⟩

theorem trans (h : SameRegistries c d) (h' : SameRegistries d e) : SameRegistries c e :=
  ⟨h'.instruments.trans h.instruments, h'.historical.trans h.historical, h'.live.trans h.live,
    h'.facts.trans h.facts, h'.schedule.trans h.schedule⟩

theorem deregister (h : SameRegistries c d) (id : String) :
    SameRegistries (c.deregister id) (d.deregister id) := by
  refine ⟨h.instruments, ?_, ?_, ?_, h.schedule⟩ <;> unfold RequirementsCoordinator.deregister
  · simp only [h.historical]
  · simp only [h.live]
  · simp only [h.facts]

theorem enter (h : SameRegistries c d) (id : String) (requirements : StrategyRequirements) :
    SameRegistries (c.enter id requirements) (d.enter id requirements) := by
  refine ⟨h.instruments, ?_, ?_, ?_, h.schedule⟩ <;> unfold RequirementsCoordinator.enter
  · simp only [h.historical]
  · simp only [h.live]
  · simp only [h.facts]

theorem applySessionStatistics (c : RequirementsCoordinator) :
    SameRegistries c c.applySessionStatistics := ⟨rfl, rfl, rfl, rfl, rfl⟩

theorem applyLiveUnion (h : c.applyLiveUnion = some d) : SameRegistries c d := by
  obtain ⟨hvalid, engine, hengine, rfl⟩ := applyLiveUnion_eq_some.mp h
  refine ⟨rfl, rfl, rfl, rfl, ?_⟩
  unfold unionAccepted at hvalid
  unfold CandleEngine.setRequiredTimeframes at hengine
  rw [if_pos hvalid] at hengine
  cases hengine
  rfl

theorem unionAccepted (h : SameRegistries c d) : d.unionAccepted = c.unionAccepted := by
  unfold RequirementsCoordinator.unionAccepted
  rw [h.live, h.schedule]

theorem warmPlan (h : SameRegistries c d) (requirements : StrategyRequirements) :
    d.warmPlan requirements = c.warmPlan requirements := by
  unfold RequirementsCoordinator.warmPlan
  rw [h.historical]

theorem entry (h : SameRegistries c d) (id : String) : d.entry id = c.entry id := by
  unfold RequirementsCoordinator.entry
  rw [h.historical, h.live, h.facts]

/-- Registering one strategy and removing another commute. -/
theorem enter_deregister (c : RequirementsCoordinator) {a b : String} (hab : b ≠ a)
    (requirements : StrategyRequirements) :
    SameRegistries ((c.enter b requirements).deregister a) ((c.deregister a).enter b requirements) := by
  refine ⟨rfl, ?_, ?_, ?_, rfl⟩
  · show (⟨Dict.set _ b _⟩ : HistoricalRequirementRegistry) = ⟨Dict.restrict (Dict.set _ b _) _⟩
    rw [Dict.drop_set_of_ne _ hab]
    rfl
  · show (⟨Dict.set _ b _⟩ : LiveTimeframeRequirementRegistry) = ⟨Dict.restrict (Dict.set _ b _) _⟩
    rw [Dict.drop_set_of_ne _ hab]
    rfl
  · unfold RequirementsCoordinator.enter RequirementsCoordinator.deregister
      FactRequirementRegistry.deregister
    cases requirements.sessionStatisticsMaxAge with
    | none =>
      simp only
      rw [Dict.drop_comm]
    | some maxAge =>
      simp only
      rw [Dict.drop_set_of_ne _ hab]

/-- What is registered for a strategy does not matter once it is removed. -/
theorem deregister_enter (c : RequirementsCoordinator) (a : String)
    (requirements : StrategyRequirements) :
    SameRegistries (c.deregister a) ((c.enter a requirements).deregister a) := by
  refine ⟨rfl, ?_, ?_, ?_, rfl⟩
  · show (⟨Dict.restrict (Dict.set _ a _) _⟩ : HistoricalRequirementRegistry) = ⟨Dict.restrict _ _⟩
    rw [Dict.drop_set_self]
  · show (⟨Dict.restrict (Dict.set _ a _) _⟩ : LiveTimeframeRequirementRegistry) = ⟨Dict.restrict _ _⟩
    rw [Dict.drop_set_self]
  · unfold RequirementsCoordinator.enter RequirementsCoordinator.deregister
      FactRequirementRegistry.deregister
    cases requirements.sessionStatisticsMaxAge with
    | none =>
      simp only
      rw [Dict.drop_drop]
    | some maxAge =>
      simp only
      rw [Dict.drop_set_self]

theorem deregister_comm (c : RequirementsCoordinator) (a b : String) :
    SameRegistries ((c.deregister b).deregister a) ((c.deregister a).deregister b) := by
  refine ⟨rfl, ?_, ?_, ?_, rfl⟩
  · exact congrArg HistoricalRequirementRegistry.mk (Dict.drop_comm c.historical.byConsumer a b)
  · exact congrArg LiveTimeframeRequirementRegistry.mk (Dict.drop_comm c.live.byConsumer a b)
  · exact congrArg FactRequirementRegistry.mk (Dict.drop_comm c.facts.byConsumer a b)

theorem deregister_deregister (c : RequirementsCoordinator) (a : String) :
    SameRegistries (c.deregister a) ((c.deregister a).deregister a) := by
  refine ⟨rfl, ?_, ?_, ?_, rfl⟩
  · exact congrArg HistoricalRequirementRegistry.mk (Dict.drop_drop c.historical.byConsumer a)
  · exact congrArg LiveTimeframeRequirementRegistry.mk (Dict.drop_drop c.live.byConsumer a)
  · exact congrArg FactRequirementRegistry.mk (Dict.drop_drop c.facts.byConsumer a)

end SameRegistries

end RequirementsCoordinator

namespace Isolation

open StrategyManager RequirementsCoordinator

/-! ## Commands -/

inductive Command where
  | start (strategyId : String) (reference : Int)
  | stop (strategyId : String)
  | forceStop (strategyId : String)
  | pause (strategyId : String)
  | resume (strategyId : String)

def Command.strategyId : Command → String
  | .start id _ | .stop id | .forceStop id | .pause id | .resume id => id

/-- What a command returns or raises, and its strategy afterwards: the state, the registered
    requirements, and what is left of its emission state. -/
structure Outcome where
  result : Result
  state : Option StrategyLifecycleState
  entry : Option (List HistoricalRequirement) × Option (List Timeframe) × Option Int
  emissions : EmissionDeduplicator

/-- The emission state of one strategy. -/
def emissionsOf (m : StrategyManager) (id : String) : EmissionDeduplicator :=
  Dict.restrict m.dedup fun key => key.1 = id

/-- The command on the manager. -/
def execute (warmup : WarmupPort) (m : StrategyManager) : Command → StrategyManager × Result
  | .start id reference => m.start warmup id reference
  | .stop id => m.stop id
  | .forceStop id => m.forceStop id
  | .pause id => m.pause id
  | .resume id => m.resume id

def commandStep (warmup : WarmupPort) (m : StrategyManager) (c : Command) :
    StrategyManager × Outcome :=
  let executed := execute warmup m c
  (executed.1,
    { result := executed.2
      state := executed.1.lifecycle.stateOf c.strategyId
      entry := executed.1.requirements.entry c.strategyId
      emissions := emissionsOf executed.1 c.strategyId })

/-- How the live union and the warmup of a `start` end over the registered requirements. -/
def provisioned (warmup : WarmupPort) (c : RequirementsCoordinator)
    (requirements : StrategyRequirements) (reference : Int) : WarmupOutcome :=
  if c.unionAccepted then
    match c.warmPlan requirements with
    | none => .returned
    | some effective => warmup c.instruments effective reference
  else .raised

/-- The command is not affected by the requirements that `a` has registered. -/
def Isolated (warmup : WarmupPort) (a : String) (m : StrategyManager) : Command → Prop
  | .start b reference => b ≠ a → m.lifecycle.Permits b .start → ∀ strategy registered,
      m.Startable b strategy → m.requirements.register b strategy.requirements = some registered →
      provisioned warmup registered strategy.requirements reference =
        provisioned warmup (registered.deregister a) strategy.requirements reference
  | .stop b => b ≠ a → m.lifecycle.Permits b .stop →
      (m.requirements.deregister b).unionAccepted =
        ((m.requirements.deregister b).deregister a).unionAccepted
  | .forceStop b => b ≠ a → m.lifecycle.Permits b .forceStop →
      (m.requirements.deregister b).unionAccepted =
        ((m.requirements.deregister b).deregister a).unionAccepted
  | _ => True

/-! ## What a start does -/

/-- The state a `start` ends in, and its result. -/
def landing : WarmupOutcome → StrategyLifecycleState × Result
  | .returned => (.running, .ok .running)
  | .raised => (.error, .ok .error)
  | .cancelled => (.starting, .error .cancelled)

theorem landing_injective {x y : WarmupOutcome} (h : (landing x).2 = (landing y).2) : x = y := by
  cases x <;> cases y <;> simp [landing] at h ⊢

section Start

variable (warmup : WarmupPort) (m : StrategyManager) (b : String) (reference : Int)

/-- The end of a warmup that was awaited. -/
theorem finishStart_landing (applied : RequirementsCoordinator) (outcome : WarmupOutcome) :
    finishStart { m with lifecycle := m.lifecycle.put b .starting, requirements := applied } b outcome =
      ({ m with lifecycle := m.lifecycle.put b (landing outcome).1, requirements := applied },
        (landing outcome).2) := by
  cases outcome with
  | returned => exact command_put_starting m b applied (by decide)
  | raised => exact command_put_starting m b applied (by decide)
  | cancelled => rfl

/-- `start`: refused, failed before registering, or decided by the provisioning. -/
theorem start_cases :
    (¬ m.lifecycle.Permits b .start ∧ m.start warmup b reference = (m, .error (.lifecycle
      (StrategyLifecycle.refusal b .start (m.lifecycle.stateOf b))))) ∨
    (m.lifecycle.Permits b .start ∧
      (((∀ strategy, ¬ m.Startable b strategy) ∧ m.start warmup b reference =
        ({ m with lifecycle := m.lifecycle.put b .error }, .ok .error)) ∨
      ∃ strategy registered requirements, m.Startable b strategy ∧
        m.requirements.register b strategy.requirements = some registered ∧
        SameRegistries registered requirements ∧ m.start warmup b reference =
          ({ m with
            lifecycle := m.lifecycle.put b
              (landing (provisioned warmup registered strategy.requirements reference)).1
            requirements },
          (landing (provisioned warmup registered strategy.requirements reference)).2))) := by
  rcases m.beginStart_cases b with ⟨hpermits, hbegin⟩ | ⟨hpermits, hcases⟩
  · left
    refine ⟨hpermits, ?_⟩
    unfold start
    rw [hbegin]
  · right
    refine ⟨hpermits, ?_⟩
    unfold start
    rcases hcases with ⟨hnone, hbegin⟩ | ⟨strategy, registered, hstart, hregister, hcases⟩
    · left
      refine ⟨hnone, ?_⟩
      rw [hbegin]
    · right
      rcases hcases with ⟨hunion, hbegin⟩ | ⟨applied, hunion, hcases⟩
      · refine ⟨strategy, registered, registered, hstart, hregister, SameRegistries.refl _, ?_⟩
        rw [hbegin]
        simp [provisioned, applyLiveUnion_eq_none.mp hunion, landing]
      · have hsame := SameRegistries.applyLiveUnion hunion
        have haccepted := (applyLiveUnion_eq_some.mp hunion).1
        refine ⟨strategy, registered, applied, hstart, hregister, hsame, ?_⟩
        rcases hcases with ⟨hplan, hbegin⟩ | ⟨effective, hplan, hbegin⟩
        · rw [hsame.warmPlan] at hplan
          rw [hbegin]
          simp [provisioned, haccepted, hplan, landing]
        · rw [hsame.warmPlan] at hplan
          have hprovisioned : provisioned warmup registered strategy.requirements reference =
              warmup applied.instruments effective reference := by
            simp [provisioned, haccepted, hplan, hsame.instruments]
          rw [hbegin, hprovisioned]
          exact finishStart_landing m b applied _

end Start

/-! ## Two managers -/

/-- The managers differ in what concerns `a` only, and the second has no requirements of `a`. -/
structure Apart (a : String) (m n : StrategyManager) : Prop where
  registry : n.registry = m.registry
  configurations : n.configurations = m.configurations
  states : ∀ b, b ≠ a → n.lifecycle.stateOf b = m.lifecycle.stateOf b
  requirements : SameRegistries (m.requirements.deregister a) n.requirements
  emissions : ∀ b, b ≠ a → emissionsOf n b = emissionsOf m b

section Apart

variable {a b : String} {m n : StrategyManager}

theorem Apart.permits (h : Apart a m n) (hb : b ≠ a) (c : LifecycleCommand) :
    n.lifecycle.Permits b c ↔ m.lifecycle.Permits b c :=
  StrategyLifecycle.Permits.congr (h.states b hb)

theorem Apart.startable (h : Apart a m n) (b : String) (strategy : Strategy) :
    n.Startable b strategy ↔ m.Startable b strategy := by
  unfold Startable validConfiguration
  rw [h.registry, h.configurations]

theorem emissionsOf_reset_of_ne (m : StrategyManager) {b c : String} (h : c ≠ b) :
    Dict.restrict (EmissionDeduplicator.resetStrategy m.dedup b) (fun key => key.1 = c) =
      emissionsOf m c := by
  unfold EmissionDeduplicator.resetStrategy emissionsOf Dict.restrict
  rw [List.filter_filter]
  refine List.filter_congr ?_
  intro kv _
  by_cases hkey : kv.1.1 = c
  · simp [hkey, h]
  · simp [hkey]

theorem emissionsOf_reset_self (m : StrategyManager) (b : String) :
    Dict.restrict (EmissionDeduplicator.resetStrategy m.dedup b) (fun key => key.1 = b) = [] := by
  unfold EmissionDeduplicator.resetStrategy Dict.restrict
  rw [List.filter_filter, List.filter_eq_nil_iff]
  intro kv _
  simp

/-- The managers stay apart when both are moved the same way in what concerns `b`. -/
theorem Apart.put (h : Apart a m n) (b : String) (state : StrategyLifecycleState)
    {r q : RequirementsCoordinator} (hr : SameRegistries (r.deregister a) q) :
    Apart a { m with lifecycle := m.lifecycle.put b state, requirements := r }
      { n with lifecycle := n.lifecycle.put b state, requirements := q } := by
  refine ⟨h.registry, h.configurations, ?_, hr, h.emissions⟩
  intro c hc
  show (n.lifecycle.put b state).stateOf c = (m.lifecycle.put b state).stateOf c
  rw [StrategyLifecycle.stateOf_put, StrategyLifecycle.stateOf_put, h.states c hc]

/-- The managers stay apart when the first is moved in what concerns `a`. -/
theorem Apart.put_hidden (h : Apart a m n) (state : StrategyLifecycleState)
    {r : RequirementsCoordinator}
    (hr : SameRegistries (m.requirements.deregister a) (r.deregister a)) :
    Apart a { m with lifecycle := m.lifecycle.put a state, requirements := r } n := by
  refine ⟨h.registry, h.configurations, ?_, hr.symm.trans h.requirements, h.emissions⟩
  intro c hc
  show n.lifecycle.stateOf c = (m.lifecycle.put a state).stateOf c
  rw [StrategyLifecycle.stateOf_put, if_neg (Ne.symm hc), h.states c hc]

theorem Apart.reset (h : Apart a m n) (b : String) :
    Apart a { m with dedup := EmissionDeduplicator.resetStrategy m.dedup b }
      { n with dedup := EmissionDeduplicator.resetStrategy n.dedup b } := by
  refine ⟨h.registry, h.configurations, h.states, h.requirements, ?_⟩
  intro c hc
  by_cases hcb : c = b
  · subst hcb
    exact (emissionsOf_reset_self n c).trans (emissionsOf_reset_self m c).symm
  · exact ((emissionsOf_reset_of_ne n hcb).trans (h.emissions c hc)).trans
      (emissionsOf_reset_of_ne m hcb).symm

theorem Apart.reset_hidden (h : Apart a m n) :
    Apart a { m with dedup := EmissionDeduplicator.resetStrategy m.dedup a } n := by
  refine ⟨h.registry, h.configurations, h.states, h.requirements, ?_⟩
  intro c hc
  exact (h.emissions c hc).trans (emissionsOf_reset_of_ne m hc).symm

/-- Registering `b` in both managers keeps the registries apart. -/
theorem Apart.register (h : Apart a m n) (hb : b ≠ a) {requirements : StrategyRequirements}
    {registered registered' : RequirementsCoordinator}
    (hm : m.requirements.register b requirements = some registered)
    (hn : n.requirements.register b requirements = some registered') :
    SameRegistries (registered.deregister a) registered' := by
  rw [eq_enter_of_register hm, eq_enter_of_register hn]
  refine SameRegistries.trans ?_ (SameRegistries.applySessionStatistics _)
  refine SameRegistries.trans ?_ (h.requirements.enter b requirements)
  exact ((SameRegistries.applySessionStatistics _).deregister a).symm.trans
    (SameRegistries.enter_deregister _ hb requirements)

theorem Apart.deregister (h : Apart a m n) (b : String) :
    SameRegistries ((m.requirements.deregister b).deregister a) (n.requirements.deregister b) :=
  (SameRegistries.deregister_comm m.requirements a b).trans (h.requirements.deregister b)

/-- Provisioning looks at the registries only. -/
theorem provisioned_congr {c d : RequirementsCoordinator} (h : SameRegistries c d)
    (warmup : WarmupPort) (requirements : StrategyRequirements) (reference : Int) :
    provisioned warmup d requirements reference = provisioned warmup c requirements reference := by
  unfold provisioned
  rw [h.unionAccepted, h.warmPlan, h.instruments]

/-- Where the managers stay apart and the results agree, so does all a caller sees. -/
theorem Apart.outcome_eq {warmup : WarmupPort} {c : Command} (hc : c.strategyId ≠ a)
    (h : Apart a (execute warmup m c).1 (execute warmup n c).1)
    (hresult : (execute warmup m c).2 = (execute warmup n c).2) :
    (commandStep warmup m c).2 = (commandStep warmup n c).2 := by
  have hentry : (execute warmup n c).1.requirements.entry c.strategyId =
      (execute warmup m c).1.requirements.entry c.strategyId := by
    rw [h.requirements.entry, entry_deregister, if_neg (Ne.symm hc)]
  unfold commandStep
  simp only
  rw [hresult, h.states _ hc, hentry, h.emissions _ hc]

end Apart

/-! ## One step in both managers -/

section Steps

variable {warmup : WarmupPort} {a b : String} {m n : StrategyManager}

/-- What is proved of each visible command: its results agree exactly under the condition, and then the
    managers stay apart. -/
def Agrees (warmup : WarmupPort) (a : String) (m n : StrategyManager) (c : Command) : Prop :=
  ((execute warmup m c).2 = (execute warmup n c).2 ↔ Isolated warmup a m c) ∧
    (Isolated warmup a m c → Apart a (execute warmup m c).1 (execute warmup n c).1)

theorem start_agrees (h : Apart a m n) (hb : b ≠ a) (reference : Int) :
    Agrees warmup a m n (.start b reference) := by
  simp only [Agrees, Isolated, execute]
  rcases start_cases warmup m b reference with ⟨hrefused, hm⟩ | ⟨hpermits, hm⟩
  · rcases start_cases warmup n b reference with ⟨-, hn⟩ | ⟨hn, -⟩
    · rw [hm, hn, h.states b hb]
      exact ⟨⟨fun _ _ hpermits => absurd hpermits hrefused, fun _ => rfl⟩, fun _ => h⟩
    · exact absurd ((h.permits hb .start).mp hn) hrefused
  · rcases start_cases warmup n b reference with ⟨hn, -⟩ | ⟨-, hn⟩
    · exact absurd ((h.permits hb .start).mpr hpermits) hn
    · rcases hm with ⟨hnone, hm⟩ | ⟨strategy, registered, r, hstart, hregister, hr, hm⟩
      · rcases hn with ⟨-, hn⟩ | ⟨strategy, _, _, hstart, -⟩
        · rw [hm, hn]
          refine ⟨⟨fun _ _ _ strategy _ hstart => absurd hstart (hnone strategy), fun _ => rfl⟩, ?_⟩
          exact fun _ => h.put b .error h.requirements
        · exact absurd ((h.startable b strategy).mp hstart) (hnone strategy)
      · rcases hn with ⟨hnone, -⟩ | ⟨strategy', registered', r', hstart', hregister', hr', hn⟩
        · exact absurd ((h.startable b strategy).mpr hstart) (hnone strategy)
        · obtain rfl : strategy' = strategy :=
            Option.some.inj (((h.startable b strategy').mp hstart').1.symm.trans hstart.1)
          have hsame := h.register hb hregister hregister'
          have hprovisioned := provisioned_congr hsame warmup strategy'.requirements reference
          rw [hm, hn, hprovisioned]
          -- the condition speaks of this strategy and this registration only
          have hiff : (b ≠ a → m.lifecycle.Permits b .start → ∀ strategy registered,
              m.Startable b strategy →
              m.requirements.register b strategy.requirements = some registered →
              provisioned warmup registered strategy.requirements reference =
                provisioned warmup (registered.deregister a) strategy.requirements reference) ↔
              provisioned warmup registered strategy'.requirements reference =
                provisioned warmup (registered.deregister a) strategy'.requirements reference := by
            constructor
            · exact fun hall => hall hb hpermits strategy' registered hstart hregister
            · intro heq _ _ other registered'' hother hregister''
              obtain rfl : other = strategy' :=
                Option.some.inj (hother.1.symm.trans hstart.1)
              obtain rfl : registered'' = registered :=
                Option.some.inj (hregister''.symm.trans hregister)
              exact heq
          rw [hiff]
          refine ⟨⟨landing_injective, fun heq => by rw [heq]⟩, fun heq => ?_⟩
          rw [heq]
          exact h.put b _ ((hr.deregister a).symm.trans (hsame.trans hr'))

theorem stopBy_agrees (h : Apart a m n) (hb : b ≠ a) {c : LifecycleCommand}
    (hc : (commandTransitions c).2 = .stopped) :
    ((m.stopBy b c).2 = (n.stopBy b c).2 ↔ (b ≠ a → m.lifecycle.Permits b c →
        (m.requirements.deregister b).unionAccepted =
          ((m.requirements.deregister b).deregister a).unionAccepted)) ∧
      ((b ≠ a → m.lifecycle.Permits b c →
        (m.requirements.deregister b).unionAccepted =
          ((m.requirements.deregister b).deregister a).unionAccepted) →
        Apart a (m.stopBy b c).1 (n.stopBy b c).1) := by
  have hsame := h.deregister b
  have hunion := hsame.unionAccepted
  rcases m.stopBy_cases b hc with ⟨hrefused, hm⟩ | ⟨hpermits, hm⟩
  · rcases n.stopBy_cases b hc with ⟨-, hn⟩ | ⟨hn, -⟩
    · rw [hm, hn, h.states b hb]
      exact ⟨⟨fun _ _ hpermits => absurd hpermits hrefused, fun _ => rfl⟩, fun _ => h⟩
    · exact absurd ((h.permits hb c).mp hn) hrefused
  · have hiff : (b ≠ a → m.lifecycle.Permits b c → (m.requirements.deregister b).unionAccepted =
        ((m.requirements.deregister b).deregister a).unionAccepted) ↔
        (m.requirements.deregister b).unionAccepted = (n.requirements.deregister b).unionAccepted := by
      rw [hunion]
      exact ⟨fun hall => hall hb hpermits, fun heq _ _ => heq⟩
    rw [hiff]
    rcases n.stopBy_cases b hc with ⟨hn, -⟩ | ⟨-, hn⟩
    · exact absurd ((h.permits hb c).mpr hpermits) hn
    · rcases hm with ⟨hrefused, hm⟩ | ⟨haccepted, r, hr, hm⟩
      · rcases hn with ⟨hrefused', hn⟩ | ⟨haccepted', r', hr', hn⟩
        · rw [hm, hn, hrefused, hrefused']
          exact ⟨⟨fun _ => rfl, fun _ => rfl⟩, fun _ => h.put b .stopped hsame⟩
        · rw [hm, hn, hrefused, haccepted']
          simp
      · rcases hn with ⟨hrefused', hn⟩ | ⟨haccepted', r', hr', hn⟩
        · rw [hm, hn, haccepted, hrefused']
          simp
        · rw [hm, hn, haccepted, haccepted']
          refine ⟨⟨fun _ => rfl, fun _ => rfl⟩, fun _ => ?_⟩
          have hreleased : SameRegistries (r.applySessionStatistics.deregister a)
              r'.applySessionStatistics := by
            refine SameRegistries.trans ?_ (SameRegistries.applySessionStatistics r')
            refine SameRegistries.trans ?_ (SameRegistries.applyLiveUnion hr')
            refine SameRegistries.trans ?_ hsame
            exact (((SameRegistries.applyLiveUnion hr).trans
              (SameRegistries.applySessionStatistics r)).deregister a).symm
          exact (h.put b .stopped hreleased).reset b

theorem command_agrees (h : Apart a m n) (hb : b ≠ a) (c : LifecycleCommand) :
    (m.command b c).2 = (n.command b c).2 ∧ Apart a (m.command b c).1 (n.command b c).1 := by
  by_cases hpermits : m.lifecycle.Permits b c
  · rw [command_of_permits hpermits, command_of_permits ((h.permits hb c).mpr hpermits)]
    exact ⟨rfl, h.put b _ h.requirements⟩
  · rw [command_of_not_permits hpermits,
      command_of_not_permits (fun hn => hpermits ((h.permits hb c).mp hn)), h.states b hb]
    exact ⟨rfl, h⟩

/-- **A command of another strategy shows the same in both managers exactly when it is isolated.** -/
theorem execute_agrees (warmup : WarmupPort) (h : Apart a m n) (c : Command) (hc : c.strategyId ≠ a) :
    Agrees warmup a m n c := by
  cases c with
  | start b reference => exact start_agrees h hc reference
  | stop b => exact stopBy_agrees h hc rfl
  | forceStop b => exact stopBy_agrees h hc rfl
  | pause b =>
    obtain ⟨hresult, hapart⟩ := command_agrees h hc .pause
    exact ⟨⟨fun _ => trivial, fun _ => hresult⟩, fun _ => hapart⟩
  | resume b =>
    obtain ⟨hresult, hapart⟩ := command_agrees h hc .resume
    exact ⟨⟨fun _ => trivial, fun _ => hresult⟩, fun _ => hapart⟩

theorem command_hidden (h : Apart a m n) (c : LifecycleCommand) : Apart a (m.command a c).1 n := by
  by_cases hpermits : m.lifecycle.Permits a c
  · rw [command_of_permits hpermits]
    exact h.put_hidden _ (SameRegistries.refl _)
  · rw [command_of_not_permits hpermits]
    exact h

theorem stopBy_hidden (h : Apart a m n) {c : LifecycleCommand}
    (hc : (commandTransitions c).2 = .stopped) : Apart a (m.stopBy a c).1 n := by
  rcases m.stopBy_cases a hc with ⟨-, hm⟩ | ⟨-, ⟨-, hm⟩ | ⟨-, r, hr, hm⟩⟩
  · rw [hm]
    exact h
  · rw [hm]
    exact h.put_hidden .stopped (SameRegistries.deregister_deregister _ a)
  · rw [hm]
    refine Apart.reset_hidden (h.put_hidden .stopped ?_)
    refine (SameRegistries.deregister_deregister _ a).trans ?_
    exact ((SameRegistries.applyLiveUnion hr).trans
      (SameRegistries.applySessionStatistics r)).deregister a

/-- A command of `a` leaves the managers apart. -/
theorem execute_hidden (h : Apart a m n) (c : Command) (hc : c.strategyId = a) :
    Apart a (execute warmup m c).1 n := by
  subst hc
  cases c with
  | start b reference =>
    simp only [execute]
    rcases start_cases warmup m b reference with
      ⟨-, hm⟩ | ⟨-, ⟨-, hm⟩ | ⟨strategy, registered, r, -, hregister, hr, hm⟩⟩
    · rw [hm]
      exact h
    · rw [hm]
      exact h.put_hidden .error (SameRegistries.refl _)
    · rw [hm]
      refine h.put_hidden _ ?_
      refine SameRegistries.trans ?_ (hr.deregister b)
      rw [eq_enter_of_register hregister]
      exact (SameRegistries.deregister_enter _ b strategy.requirements).trans
        ((SameRegistries.applySessionStatistics _).deregister b)
  | stop b => exact stopBy_hidden h rfl
  | forceStop b => exact stopBy_hidden h rfl
  | pause b => exact command_hidden h .pause
  | resume b => exact command_hidden h .resume

end Steps

/-! ## Two runs -/

/-- The command is for another strategy than `a`. -/
def forOthers (a : String) (c : Command) : Bool := decide (c.strategyId ≠ a)

/-- A manager in which `a` has nothing registered is apart from itself. -/
theorem apart_self {a : String} {m : StrategyManager}
    (hfresh : m.requirements.entry a = (none, none, none)) : Apart a m m := by
  unfold RequirementsCoordinator.entry at hfresh
  simp only [Prod.mk.injEq] at hfresh
  obtain ⟨hhistorical, hlive, hfacts⟩ := hfresh
  refine ⟨rfl, rfl, fun _ _ => rfl, ⟨rfl, ?_, ?_, ?_, rfl⟩, fun _ _ => rfl⟩
  · exact congrArg HistoricalRequirementRegistry.mk (Dict.drop_of_get_eq_none hhistorical).symm
  · exact congrArg LiveTimeframeRequirementRegistry.mk (Dict.drop_of_get_eq_none hlive).symm
  · exact congrArg FactRequirementRegistry.mk (Dict.drop_of_get_eq_none hfacts).symm

/-- **The commands of all other strategies show the same with and without the commands of `a` if and only
    if each of them is isolated from what `a` has registered**, for every manager in which `a` has nothing
    registered, every sequence of commands, every warmup port, and every `a`, in particular one whose
    `start` ends in ERROR. -/
theorem commands_isolated_iff (warmup : WarmupPort) (a : String) (m : StrategyManager)
    (hfresh : m.requirements.entry a = (none, none, none)) (commands : List Command) :
    observed (commandStep warmup) (forOthers a) m commands =
        outs (commandStep warmup) m (commands.filter (forOthers a)) ↔
      Along (commandStep warmup) (Isolated warmup a) m commands := by
  refine observed_eq_iff ?_ ?_ ?_ commands (apart_self hfresh)
  · intro s t c hc h
    have hid : c.strategyId = a := by simpa [forOthers] using hc
    refine ⟨?_, execute_hidden h c hid⟩
    cases c <;> first | trivial | exact fun hne => absurd hid hne
  · intro s t c hc h
    have hid : c.strategyId ≠ a := by simpa [forOthers] using hc
    obtain ⟨hresult, hapart⟩ := execute_agrees warmup h c hid
    constructor
    · intro heq
      exact hresult.mp (congrArg Outcome.result heq)
    · intro hisolated
      exact Apart.outcome_eq hid (hapart hisolated) (hresult.mpr hisolated)
  · intro s t c hc h hisolated
    have hid : c.strategyId ≠ a := by simpa [forOthers] using hc
    exact (execute_agrees warmup h c hid).2 hisolated

/-- A manager of the sample strategies. -/
def sampleManager : StrategyManager :=
  StrategyManager.create sampleRegistry sampleConfigurations 3 sampleThreshold_pos [] sampleEngine true

/-- A warmup that raises at reference 0. -/
def samplePort : WarmupPort := fun _ _ reference => if reference = 0 then .raised else .returned

/-- `alpha` fails in its warmup, which `gamma` does not need. -/
theorem commands_isolated_sample :
    (sampleManager.start samplePort "alpha" 0).2 = .ok .error ∧
      observed (commandStep samplePort) (forOthers "alpha") sampleManager
          [.start "alpha" 0, .start "gamma" 1, .stop "gamma"] =
        outs (commandStep samplePort) sampleManager [.start "gamma" 1, .stop "gamma"] := by
  refine ⟨by decide, ?_⟩
  refine (commands_isolated_iff samplePort "alpha" sampleManager rfl
    [.start "alpha" 0, .start "gamma" 1, .stop "gamma"]).mpr ⟨?_, ?_, ?_, trivial⟩
  · exact fun hne => absurd rfl hne
  · rintro - - strategy registered ⟨hget, -⟩ hregister
    obtain rfl := Option.some.inj hget
    obtain rfl := Option.some.inj hregister
    decide
  · intro _ _
    decide

/-- `beta` fails and keeps its timeframe registered; then the stop of `gamma` raises, and `gamma` cannot be
    started again. -/
theorem retained_timeframe_blocks :
    (sampleManager.start samplePort "beta" 1).2 = .ok .error ∧
      observed (commandStep samplePort) (forOthers "beta") sampleManager
          [.start "gamma" 1, .start "beta" 1, .stop "gamma", .start "gamma" 1] ≠
        outs (commandStep samplePort) sampleManager [.start "gamma" 1, .stop "gamma", .start "gamma" 1] := by
  refine ⟨by decide, ?_⟩
  intro heq
  have hresults := congrArg (List.map Outcome.result) heq
  have hwith : (observed (commandStep samplePort) (forOthers "beta") sampleManager
      [.start "gamma" 1, .start "beta" 1, .stop "gamma", .start "gamma" 1]).map Outcome.result =
      [.ok .running, .error .timeframeNotShorter, .ok .error] := by decide
  have hwithout : (outs (commandStep samplePort) sampleManager
      [.start "gamma" 1, .stop "gamma", .start "gamma" 1]).map Outcome.result =
      [.ok .running, .ok .stopped, .ok .running] := by decide
  rw [hwith, hwithout] at hresults
  exact absurd hresults (by decide)

end Isolation

end ApexScan
