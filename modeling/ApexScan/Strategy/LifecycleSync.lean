import ApexScan.Lib.Machine
import ApexScan.Strategy.Manager

/-!
# Lifecycle states and registered requirements

`start` changes the state of a strategy, then the registries, then awaits the warmup, and then changes the
state again; `stop` and `force_stop` change the state and then the registries.  Commands of other
strategies, and other commands of the same one, run while a `start` is suspended.

* `InStep` — what is to hold between commands: nothing is left STARTING, active strategies hold their
  requirements, inactive ones hold none, and the engine has the union of what is held.
* `CleanStart` — a `start` that gets as far as registering declares timeframes the engine accepts, and no
  suspended `start` is cancelled.
* `Invariant` — the inductive form, with the suspended starts.

Main result: `lifecycle_in_step`, over every interleaving with clean starts.  `cancelled_start_stays` and
`long_timeframe_out_of_step` are runs without.
-/

set_option autoImplicit false

namespace ApexScan.LifecycleSync

open Lib StrategyManager

/-- The entries of a consumer that holds nothing. -/
def unheld : Option (List HistoricalRequirement) × Option (List Timeframe) × Option Int :=
  (none, none, none)

/-- The strategy holds all that it declares: an entry in the historical and the live registry, and in the
    fact registry where it declares a bounded need of session statistics. -/
def Holds (m : StrategyManager) (strategyId : String) : Prop :=
  (m.requirements.historical.byConsumer.get strategyId).isSome ∧
    (m.requirements.live.byConsumer.get strategyId).isSome ∧
    ∀ strategy, m.registry.get strategyId = some strategy →
      strategy.requirements.sessionStatisticsMaxAge.isSome →
      (m.requirements.facts.byConsumer.get strategyId).isSome

/-- The engine's active timeframes are the union of the registered ones. -/
def UnionApplied (m : StrategyManager) : Prop :=
  ∀ tf, tf ∈ m.requirements.engine.timeframes ↔ tf ∈ m.requirements.live.effectiveTimeframes

/-- Lifecycle and requirements are in step. -/
structure InStep (s : System) : Prop where
  noneStarting : s.suspended = [] → ∀ id, s.manager.lifecycle.stateOf id ≠ some .starting
  active : ∀ id, s.manager.lifecycle.stateOf id = some .running ∨
    s.manager.lifecycle.stateOf id = some .paused → Holds s.manager id
  inactive : ∀ id, s.manager.lifecycle.stateOf id = some .registered ∨
    s.manager.lifecycle.stateOf id = some .stopped → s.manager.requirements.entry id = unheld
  union : UnionApplied s.manager

/-- The step starts no strategy with a timeframe the engine refuses, and cancels no `start`. -/
def CleanStart (s : System) : System.Op → Prop
  | .start id => s.manager.lifecycle.Permits id .start → ∀ strategy, s.manager.Startable id strategy →
      CandleEngine.validated s.manager.requirements.engine.schedule
        strategy.requirements.liveTimeframes = true
  | .resumeStart id outcome => id ∈ s.suspended → outcome ≠ .cancelled
  | _ => True

/-! ## The invariant -/

/-- What a strategy in the given state holds; in ERROR it may hold anything. -/
def HoldsIn (m : StrategyManager) (id : String) : Option StrategyLifecycleState → Prop
  | some .starting | some .running | some .paused => ∃ strategy, m.registry.get id = some strategy ∧
      m.requirements.entry id = RequirementsCoordinator.written strategy.requirements
  | some .registered | some .stopped => m.requirements.entry id = unheld
  | _ => True

structure Invariant (s : System) : Prop where
  suspended : ∀ id, id ∈ s.suspended ↔ s.manager.lifecycle.stateOf id = some .starting
  nodup : s.suspended.Nodup
  holds : ∀ id, HoldsIn s.manager id (s.manager.lifecycle.stateOf id)
  accepted : s.manager.requirements.unionAccepted = true
  union : UnionApplied s.manager

theorem Invariant.inStep {s : System} (h : Invariant s) : InStep s := by
  refine ⟨?_, ?_, ?_, h.union⟩
  · intro hnone id hstate
    have := (h.suspended id).mpr hstate
    rw [hnone] at this
    cases this
  · intro id hstate
    have hheld := h.holds id
    have hentry : ∃ strategy, s.manager.registry.get id = some strategy ∧
        s.manager.requirements.entry id = RequirementsCoordinator.written strategy.requirements := by
      rcases hstate with hstate | hstate <;> rw [hstate] at hheld <;> exact hheld
    obtain ⟨strategy, hget, hentry⟩ := hentry
    unfold RequirementsCoordinator.entry RequirementsCoordinator.written at hentry
    simp only [Prod.mk.injEq] at hentry
    obtain ⟨hhistorical, hlive, hfacts⟩ := hentry
    refine ⟨by rw [hhistorical]; rfl, by rw [hlive]; rfl, ?_⟩
    intro strategy' hget' hsome
    rw [hget] at hget'
    cases hget'
    rwa [hfacts]
  · intro id hstate
    have hheld := h.holds id
    rcases hstate with hstate | hstate <;> rw [hstate] at hheld <;> exact hheld

/-- A step on one strategy keeps what the others hold. -/
theorem holdsIn_congr {m m' : StrategyManager} {id : String} (hregistry : m'.registry = m.registry)
    (hentry : m'.requirements.entry id = m.requirements.entry id)
    (hstate : m'.lifecycle.stateOf id = m.lifecycle.stateOf id)
    (h : HoldsIn m id (m.lifecycle.stateOf id)) : HoldsIn m' id (m'.lifecycle.stateOf id) := by
  rw [hstate]
  unfold HoldsIn at *
  rw [hregistry, hentry]
  exact h

section Steps

variable {s : System} {id : String}

/-- The manager after a step that moves one strategy and may change what that strategy holds. -/
structure Moved (m m' : StrategyManager) (id : String) (state : StrategyLifecycleState) : Prop where
  registry : m'.registry = m.registry
  stateOf : ∀ other, m'.lifecycle.stateOf other =
    if id = other then some state else m.lifecycle.stateOf other
  entry : ∀ other, id ≠ other → m'.requirements.entry other = m.requirements.entry other
  holds : HoldsIn m' id (some state)
  accepted : m'.requirements.unionAccepted = true
  union : UnionApplied m'

/-- A step that moves a strategy, with the suspended starts it leaves, keeps the invariant. -/
theorem Invariant.moved (h : Invariant s) {m' : StrategyManager} {state : StrategyLifecycleState}
    {suspended : List String} (hmoved : Moved s.manager m' id state) (hnodup : suspended.Nodup)
    (hself : id ∈ suspended ↔ state = .starting)
    (hothers : ∀ other, id ≠ other → (other ∈ suspended ↔ other ∈ s.suspended)) :
    Invariant ⟨m', suspended⟩ := by
  refine ⟨?_, hnodup, ?_, hmoved.accepted, hmoved.union⟩
  · intro other
    show other ∈ suspended ↔ m'.lifecycle.stateOf other = some .starting
    rw [hmoved.stateOf]
    by_cases hid : id = other
    · subst hid
      rw [if_pos rfl, hself, Option.some.injEq]
    · rw [if_neg hid, hothers other hid, h.suspended other]
  · intro other
    by_cases hid : id = other
    · subst hid
      have hstate := hmoved.stateOf id
      rw [if_pos rfl] at hstate
      show HoldsIn m' id (m'.lifecycle.stateOf id)
      rw [hstate]
      exact hmoved.holds
    · have hstate := hmoved.stateOf other
      rw [if_neg hid] at hstate
      exact holdsIn_congr hmoved.registry (hmoved.entry other hid) hstate (h.holds other)

/-- A command of the state machine that keeps the requirements of its strategy. -/
theorem Invariant.put (h : Invariant s) {state : StrategyLifecycleState}
    (hholds : HoldsIn s.manager id (some state)) :
    Moved s.manager { s.manager with lifecycle := s.manager.lifecycle.put id state } id state :=
  ⟨rfl, fun other => s.manager.lifecycle.stateOf_put id other state, fun _ _ => rfl, hholds,
    h.accepted, h.union⟩

/-- A strategy that is not STARTING before and after leaves the suspended starts as they are. -/
theorem Invariant.settled (h : Invariant s) {m' : StrategyManager} {state : StrategyLifecycleState}
    (hmoved : Moved s.manager m' id state) (hbefore : s.manager.lifecycle.stateOf id ≠ some .starting)
    (hafter : state ≠ .starting) : Invariant ⟨m', s.suspended⟩ := by
  refine h.moved hmoved h.nodup ?_ (fun _ _ => Iff.rfl)
  rw [h.suspended id]
  exact ⟨fun hstate => absurd hstate hbefore, fun hstate => absurd hstate hafter⟩

/-- What a strategy is registered with, and that the union with it was applied. -/
theorem entered {strategy : Strategy} {registered applied : RequirementsCoordinator}
    {state : StrategyLifecycleState} (hstart : s.manager.Startable id strategy)
    (hregister : s.manager.requirements.register id strategy.requirements = some registered)
    (hunion : registered.applyLiveUnion = some applied)
    (hholding : state = .starting ∨ state = .running) :
    Moved s.manager
      { s.manager with lifecycle := s.manager.lifecycle.put id state, requirements := applied }
      id state := by
  obtain ⟨-, engine, -, rfl⟩ := RequirementsCoordinator.applyLiveUnion_eq_some.mp hunion
  have hentry := RequirementsCoordinator.entry_register hregister
  have hentry' : ∀ other, ({ registered with engine } : RequirementsCoordinator).entry other =
      registered.entry other := fun _ => rfl
  refine ⟨rfl, fun other => s.manager.lifecycle.stateOf_put id other state, ?_, ?_, ?_, ?_⟩
  · intro other hother
    show ({ registered with engine } : RequirementsCoordinator).entry other = _
    rw [hentry', hentry, if_neg hother]
  · have hheld : ∃ strategy, s.manager.registry.get id = some strategy ∧
        ({ registered with engine } : RequirementsCoordinator).entry id =
          RequirementsCoordinator.written strategy.requirements := by
      refine ⟨strategy, hstart.1, ?_⟩
      rw [hentry', hentry, if_pos rfl]
    rcases hholding with rfl | rfl <;> exact hheld
  · exact RequirementsCoordinator.unionAccepted_of_applyLiveUnion hunion
  · exact RequirementsCoordinator.timeframes_of_applyLiveUnion hunion

theorem not_starting_of_permits {l : StrategyLifecycle} {c : LifecycleCommand} (h : l.Permits id c)
    (hc : .starting ∉ (commandTransitions c).1) : l.stateOf id ≠ some .starting := by
  obtain ⟨current, hmem, hstate⟩ := h
  intro hstarting
  rw [hstate] at hstarting
  cases hstarting
  exact hc hmem

theorem start_invariant (h : Invariant s) (hclean : CleanStart s (.start id)) :
    Invariant (System.step s (.start id)).1 := by
  simp only [System.step]
  rcases s.manager.beginStart_cases id with ⟨-, hbegin⟩ | ⟨hpermits, hcases⟩
  · rw [hbegin]
    exact h
  · have hbefore : s.manager.lifecycle.stateOf id ≠ some .starting :=
      not_starting_of_permits hpermits (by decide)
    rcases hcases with ⟨-, hbegin⟩ | ⟨strategy, registered, hstart, hregister, hcases⟩
    · rw [hbegin]
      exact h.settled (h.put trivial) hbefore (by decide)
    · have haccepted := RequirementsCoordinator.unionAccepted_register hregister h.accepted
        (hclean hpermits strategy hstart)
      rcases hcases with ⟨hunion, -⟩ | ⟨applied, hunion, hcases⟩
      · rw [RequirementsCoordinator.applyLiveUnion_eq_none, haccepted] at hunion
        cases hunion
      · rcases hcases with ⟨-, hbegin⟩ | ⟨effective, -, hbegin⟩
        · rw [hbegin]
          exact h.settled (entered hstart hregister hunion (Or.inr rfl)) hbefore (by decide)
        · rw [hbegin]
          have hnot : id ∉ s.suspended := fun hmem => hbefore ((h.suspended id).mp hmem)
          refine h.moved (entered hstart hregister hunion (Or.inl rfl)) ?_ (by simp) ?_
          · exact List.nodup_append.mpr ⟨h.nodup, List.nodup_singleton _, by
              intro a ha b hb hab
              exact hnot (List.mem_singleton.mp hb ▸ hab ▸ ha)⟩
          · intro other hother
            rw [List.mem_append, List.mem_singleton]
            exact or_iff_left (Ne.symm hother)

theorem resumeStart_invariant (h : Invariant s) {outcome : WarmupOutcome}
    (hclean : CleanStart s (.resumeStart id outcome)) :
    Invariant (System.step s (.resumeStart id outcome)).1 := by
  simp only [System.step]
  by_cases hmem : id ∈ s.suspended
  · rw [if_pos hmem]
    have hstate := (h.suspended id).mp hmem
    have hheld := h.holds id
    rw [hstate] at hheld
    have hleft : ∀ {state : StrategyLifecycleState}, state ≠ .starting →
        HoldsIn s.manager id (some state) →
        Invariant ⟨{ s.manager with lifecycle := s.manager.lifecycle.put id state },
          s.suspended.erase id⟩ := by
      intro state hne hholds
      refine h.moved (h.put hholds) (h.nodup.erase id) ?_ ?_
      · exact ⟨fun hin => absurd hin h.nodup.not_mem_erase, fun heq => absurd heq hne⟩
      · exact fun other hother => List.mem_erase_of_ne (Ne.symm hother)
    cases outcome with
    | returned =>
      simp only [finishStart_returned hstate]
      exact hleft (by decide) hheld
    | raised =>
      simp only [finishStart_raised hstate]
      exact hleft (by decide) trivial
    | cancelled => exact absurd rfl (hclean hmem)
  · rw [if_neg hmem]
    exact h

theorem stopBy_invariant (h : Invariant s) {c : LifecycleCommand}
    (hc : (commandTransitions c).2 = .stopped) (hsources : .starting ∉ (commandTransitions c).1) :
    Invariant { s with manager := (s.manager.stopBy id c).1 } := by
  rcases s.manager.stopBy_cases id hc with ⟨-, hstop⟩ | ⟨hpermits, hcases⟩
  · rw [hstop]
    exact h
  · have haccepted := RequirementsCoordinator.unionAccepted_deregister id h.accepted
    rcases hcases with ⟨hrefused, -⟩ | ⟨-, released, hunion, hstop⟩
    · rw [haccepted] at hrefused
      cases hrefused
    · rw [hstop]
      refine h.settled (?_ : Moved s.manager _ id .stopped)
        (not_starting_of_permits hpermits hsources) (by decide)
      obtain ⟨-, engine, -, rfl⟩ := RequirementsCoordinator.applyLiveUnion_eq_some.mp hunion
      have hentry : ∀ other, (RequirementsCoordinator.applySessionStatistics
          { s.manager.requirements.deregister id with engine }).entry other =
          (s.manager.requirements.deregister id).entry other := fun _ => rfl
      refine ⟨rfl, fun other => s.manager.lifecycle.stateOf_put id other .stopped, ?_, ?_, ?_, ?_⟩
      · intro other hother
        show (RequirementsCoordinator.applySessionStatistics _).entry other = _
        rw [hentry, RequirementsCoordinator.entry_deregister, if_neg hother]
      · show (RequirementsCoordinator.applySessionStatistics _).entry id = _
        rw [hentry, RequirementsCoordinator.entry_deregister, if_pos rfl]
        rfl
      · have haccepted' := RequirementsCoordinator.unionAccepted_of_applyLiveUnion hunion
        exact haccepted'
      · have hunion' := RequirementsCoordinator.timeframes_of_applyLiveUnion hunion
        exact hunion'

/-- A plain command between states that hold the same. -/
theorem command_invariant (h : Invariant s) {c : LifecycleCommand}
    (hsources : ∀ current ∈ (commandTransitions c).1, current ≠ .starting ∧
      (HoldsIn s.manager id (some current) → HoldsIn s.manager id (some (commandTransitions c).2)))
    (htarget : (commandTransitions c).2 ≠ .starting) :
    Invariant { s with manager := (s.manager.command id c).1 } := by
  by_cases hpermits : s.manager.lifecycle.Permits id c
  · rw [command_of_permits hpermits]
    obtain ⟨current, hmem, hstate⟩ := hpermits
    obtain ⟨hne, hkeep⟩ := hsources current hmem
    have hheld := h.holds id
    rw [hstate] at hheld
    refine h.settled (h.put (hkeep hheld)) ?_ htarget
    rw [hstate]
    exact fun heq => hne (Option.some.inj heq)
  · rw [command_of_not_permits hpermits]
    exact h

/-- After a context every strategy is in the state it was in, or has left RUNNING for ERROR. -/
theorem handle_stateOf (m : StrategyManager) (context : MarketContext)
    (evaluate : String → Option StrategyEvaluation) (id : String) :
    (m.handle context evaluate).1.lifecycle.stateOf id = m.lifecycle.stateOf id ∨
      m.lifecycle.stateOf id = some .running ∧
        (m.handle context evaluate).1.lifecycle.stateOf id = some .error := by
  have haccount : (m.handle context evaluate).1.lifecycle.stateOf id = _ :=
    congrArg Prod.snd ((m.handle_spec context evaluate).2 id)
  rw [haccount]
  split
  · rename_i hconsidered
    have hrunning : m.lifecycle.stateOf id = some .running := by
      unfold considers at hconsidered
      simp only [Bool.and_eq_true, decide_eq_true_eq] at hconsidered
      exact hconsidered.2
    unfold settle
    split
    · exact Or.inl rfl
    · exact Or.inl rfl
    · dsimp only
      split
      · exact Or.inr ⟨hrunning, rfl⟩
      · exact Or.inl rfl
  · exact Or.inl rfl

theorem context_invariant (h : Invariant s) (context : MarketContext)
    (evaluate : String → Option StrategyEvaluation) :
    Invariant { s with manager := (s.manager.handle context evaluate).1 } := by
  obtain ⟨hsame, -⟩ := s.manager.handle_spec context evaluate
  have hstates := handle_stateOf s.manager context evaluate
  refine ⟨?_, h.nodup, ?_, ?_, ?_⟩
  · intro other
    show other ∈ s.suspended ↔
      (s.manager.handle context evaluate).1.lifecycle.stateOf other = some .starting
    rw [h.suspended other]
    rcases hstates other with heq | ⟨hrunning, herror⟩
    · rw [heq]
    · simp [hrunning, herror]
  · intro other
    rcases hstates other with heq | ⟨-, herror⟩
    · exact holdsIn_congr hsame.registry (by rw [hsame.requirements]) heq (h.holds other)
    · show HoldsIn _ other ((s.manager.handle context evaluate).1.lifecycle.stateOf other)
      rw [herror]
      trivial
  · show RequirementsCoordinator.unionAccepted (s.manager.handle context evaluate).1.requirements = true
    rw [hsame.requirements]
    exact h.accepted
  · show UnionApplied (s.manager.handle context evaluate).1
    unfold UnionApplied
    rw [hsame.requirements]
    exact h.union

/-- **Every clean step keeps the invariant.** -/
theorem step_invariant (s : System) (op : System.Op) (hclean : CleanStart s op) (h : Invariant s) :
    Invariant (System.step s op).1 := by
  cases op with
  | start id => exact start_invariant h hclean
  | resumeStart id outcome => exact resumeStart_invariant h hclean
  | stop id => exact stopBy_invariant h rfl (by decide)
  | forceStop id => exact stopBy_invariant h rfl (by decide)
  | pause id =>
    refine command_invariant h ?_ (by decide)
    intro current hmem
    rw [List.mem_singleton.mp hmem]
    exact ⟨by decide, fun hheld => hheld⟩
  | resume id =>
    refine command_invariant h ?_ (by decide)
    intro current hmem
    rw [List.mem_singleton.mp hmem]
    exact ⟨by decide, fun hheld => hheld⟩
  | context context evaluate => exact context_invariant h context evaluate

end Steps

/-! ## Runs -/

section Runs

variable (registry : StrategyRegistry) (configurations : String → Option StrategyConfiguration)
  (errorThreshold : ℕ) (errorThreshold_pos : 1 ≤ errorThreshold) (instruments : List Instrument)
  (engine : CandleEngine) (refreshControl : Bool)

/-- The system the runtime starts from. -/
def initial : System :=
  { manager := StrategyManager.create registry configurations errorThreshold errorThreshold_pos
      instruments engine refreshControl }

theorem initial_invariant :
    Invariant (initial registry configurations errorThreshold errorThreshold_pos instruments engine
      refreshControl) := by
  have hstate : ∀ id state, (initial registry configurations errorThreshold errorThreshold_pos
      instruments engine refreshControl).manager.lifecycle.stateOf id = some state →
      state = .registered := by
    intro id state h
    have hmem : (id, state) ∈ registry.strategies.map
        (fun kv => (kv.1, StrategyLifecycleState.registered)) := by
      refine (Dict.mem_iff_get ?_ id state).mpr h
      rw [List.map_map]
      exact registry.nodup
    obtain ⟨kv, -, heq⟩ := List.mem_map.mp hmem
    exact (congrArg Prod.snd heq).symm
  refine ⟨?_, List.nodup_nil, ?_, rfl, fun tf => Iff.rfl⟩
  · intro id
    constructor
    · intro h
      cases h
    · intro h
      cases hstate id _ h
  · intro id
    cases h : (initial registry configurations errorThreshold errorThreshold_pos instruments engine
      refreshControl).manager.lifecycle.stateOf id with
    | none => trivial
    | some state =>
      rw [hstate id state h]
      rfl

/-- **Lifecycle and requirements stay in step**, and no `start` is left half done, over every interleaving
    of commands, suspended starts and contexts in which no strategy with a refused timeframe is started
    and no suspended `start` is cancelled. -/
theorem lifecycle_in_step (ops : List System.Op)
    (hclean : Along System.step CleanStart (initial registry configurations errorThreshold
      errorThreshold_pos instruments engine refreshControl) ops) :
    InStep (run System.step (initial registry configurations errorThreshold errorThreshold_pos
      instruments engine refreshControl) ops) :=
  (hclean.invariant step_invariant (initial_invariant registry configurations errorThreshold
    errorThreshold_pos instruments engine refreshControl)).inStep

end Runs

/-- The system of the sample strategies. -/
def sampleSystem : System :=
  initial sampleRegistry sampleConfigurations 3 sampleThreshold_pos [] sampleEngine true

/-- `alpha` starts with a warmup, while which `gamma` starts, pauses and stops. -/
def overlappingStart : List System.Op :=
  [.start "alpha", .start "gamma", .pause "gamma", .resumeStart "alpha" .returned, .stop "gamma"]

theorem lifecycle_in_step_sample :
    InStep (run System.step sampleSystem overlappingStart) := by
  refine lifecycle_in_step _ _ _ _ _ _ _ overlappingStart ⟨?_, ?_, trivial, ?_, trivial, trivial⟩
  · rintro - strategy ⟨hget, -⟩
    obtain rfl := Option.some.inj hget
    rfl
  · rintro - strategy ⟨hget, -⟩
    obtain rfl := Option.some.inj hget
    decide
  · intro _
    decide

/-- A `start` that is cancelled during its warmup leaves its strategy STARTING, which no command of the
    manager leaves. -/
theorem cancelled_start_stays :
    ¬ InStep (run System.step sampleSystem [.start "alpha", .resumeStart "alpha" .cancelled]) := by
  intro h
  have hnone : (run System.step sampleSystem
      [.start "alpha", .resumeStart "alpha" .cancelled]).suspended = [] := by decide
  exact h.noneStarting hnone "alpha" (by decide)

/-- A strategy whose timeframe is refused keeps it registered, and the engine does not have it. -/
theorem long_timeframe_out_of_step : ¬ InStep (run System.step sampleSystem [.start "beta"]) := by
  intro h
  have hmem : Timeframe.minutes 400 (by decide) ∈
      (run System.step sampleSystem [.start "beta"]).manager.requirements.live.effectiveTimeframes := by
    decide
  have hnot : Timeframe.minutes 400 (by decide) ∉
      (run System.step sampleSystem [.start "beta"]).manager.requirements.engine.timeframes := by
    decide
  exact hnot ((h.union _).mpr hmem)

end ApexScan.LifecycleSync
