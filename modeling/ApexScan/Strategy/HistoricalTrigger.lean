import ApexScan.Strategy.LifecycleSync
import ApexScan.Strategy.PreviousSessionRelativeRange
import ApexScan.Strategy.PublishedResults

/-!
# Evaluations on the historical edge

A strategy with trigger ON_HISTORICAL_READY is evaluated on the context at which `historical` of an
instrument goes from absent to present.  The edge is one for all strategies and is crossed by an empty
`HistoricalContext` too, while readiness is a matter of one strategy and one context.

* `Handled`, `Event`, `history` — what the contexts of an instrument were for one strategy in a run, and
  where it entered RUNNING through `start`.
* `NoneLost` — every ready context has an evaluation since the last start.
* `FirstReadyAtEdge` — the first ready context since a start is the one of the edge.
* `exists_ready_record_iff` — the records that the loop over the running strategies makes.

Main result: `historical_ready_none_lost_iff`, over every interleaving.  `empty_context_loses_evaluation`
is an instrument whose history arrives with the second warmup.
-/

set_option autoImplicit false

namespace ApexScan.HistoricalTrigger

open Lib StrategyManager

/-! ## Histories -/

/-- A context of the instrument, handled while the strategy runs: whether it is ready, whether it is the
    one at which `historical` appears, and whether the strategy was evaluated on it. -/
structure Handled where
  ready : Bool
  edge : Bool
  evaluated : Bool
  deriving DecidableEq

inductive Event where
  | started
  | handled (context : Handled)
  deriving DecidableEq

def Event.isStarted : Event → Bool
  | .started => true
  | .handled _ => false

def Event.ready : Event → Bool
  | .started => false
  | .handled h => h.ready

def Event.evaluated : Event → Bool
  | .started => false
  | .handled h => h.evaluated

/-- The records of the context have one of an evaluation of the strategy. -/
def evaluatedOn (m : StrategyManager) (context : MarketContext)
    (evaluate : String → Option StrategyEvaluation) (id : String) : Bool :=
  (m.handle context evaluate).2.1.any fun r => decide (r.strategyId = id ∧ r.readiness = .ready)

/-- The event of a strategy and an instrument in a step, if any.  Only strategies with trigger
    ON_HISTORICAL_READY are followed, and stale contexts are not handled. -/
def eventOf (id : String) (i : Instrument) (s : System) (op : System.Op) : Option Event :=
  match op with
  | .start id' | .resumeStart id' _ =>
    if id' = id ∧ (System.step s op).2 = some (.ok .running) then some .started else none
  | .context context evaluate =>
    match s.manager.registry.get id with
    | none => none
    | some strategy =>
      if context.instrument = i ∧ s.manager.considers context id = true ∧
          strategy.requirements.trigger = .onHistoricalReady then
        some (.handled
          { ready := decide
              (assessReadiness strategy (s.manager.configurations id) context = .ready)
            edge := historicalBecameReady (s.manager.previous.get i) context
            evaluated := evaluatedOn s.manager context evaluate id })
      else none
  | _ => none

/-- The events of a strategy and an instrument along a run, oldest first. -/
def history (id : String) (i : Instrument) : System → List System.Op → List Event
  | _, [] => []
  | s, op :: ops => (eventOf id i s op).toList ++ history id i (System.step s op).1 ops

/-- The events since the last start, newest first. -/
def sinceStart (events : List Event) : List Event :=
  events.reverse.takeWhile fun e => !e.isStarted

/-- Every ready context has an evaluation, on it or on an earlier one since the last start. -/
def NoneLost (events : List Event) : Prop :=
  ∀ pre e post, events = pre ++ e :: post → e.ready = true →
    ∃ e' ∈ sinceStart (pre ++ [e]), e'.evaluated = true

/-- A ready context with no ready one since the last start is the one at which `historical` appears. -/
def FirstReadyAtEdge (events : List Event) : Prop :=
  ∀ pre h post, events = pre ++ .handled h :: post → h.ready = true →
    (∀ e ∈ sinceStart pre, e.ready = false) → h.edge = true

/-! ## Evaluations of a history -/

/-- The handled contexts are evaluated exactly when they are ready and on the edge. -/
def Faithful (events : List Event) : Prop :=
  ∀ h, .handled h ∈ events → h.evaluated = (h.ready && h.edge)

theorem sinceStart_concat (events : List Event) (e : Event) :
    sinceStart (events ++ [e]) = if e.isStarted then [] else e :: sinceStart events := by
  unfold sinceStart
  rw [List.reverse_append, List.reverse_singleton, List.singleton_append, List.takeWhile_cons]
  cases e.isStarted <;> simp

theorem mem_of_mem_sinceStart {events : List Event} {e : Event} (h : e ∈ sinceStart events) :
    e ∈ events :=
  List.mem_reverse.mp (List.takeWhile_subset _ h)

/-- An evaluated context is ready. -/
theorem Faithful.ready {events : List Event} (hfaithful : Faithful events) {e : Event}
    (he : e ∈ events) (hevaluated : e.evaluated = true) : e.ready = true := by
  cases e with
  | started => cases hevaluated
  | handled h =>
    have heq := hfaithful h he
    rw [show h.evaluated = true from hevaluated] at heq
    exact (Bool.and_eq_true_iff.mp heq.symm).1

/-- Where the first ready context is on the edge, a ready context since the start comes with an
    evaluation since the start. -/
theorem FirstReadyAtEdge.evaluated {events : List Event} (h : FirstReadyAtEdge events)
    (hfaithful : Faithful events) {pre post : List Event} (hsplit : events = pre ++ post) :
    (∃ e ∈ sinceStart pre, e.ready = true) → ∃ e ∈ sinceStart pre, e.evaluated = true := by
  induction pre using List.reverseRecOn generalizing post with
  | nil =>
    rintro ⟨e, he, -⟩
    cases he
  | append_singleton pre last ih =>
    have hsplit' : events = pre ++ last :: post := by rw [hsplit, List.append_assoc]; rfl
    rw [sinceStart_concat]
    cases last with
    | started =>
      rintro ⟨e, he, -⟩
      cases he
    | handled h' =>
      simp only [Event.isStarted, Bool.false_eq_true, if_false]
      rintro ⟨e, he, hready⟩
      by_cases hearlier : ∃ e ∈ sinceStart pre, e.ready = true
      · obtain ⟨e', he', hevaluated⟩ := ih hsplit' hearlier
        exact ⟨e', List.mem_cons_of_mem _ he', hevaluated⟩
      · -- the last context is the first ready one, so it is on the edge
        have hnone : ∀ e ∈ sinceStart pre, e.ready = false := by
          intro e' he'
          cases hr : e'.ready with
          | false => rfl
          | true => exact absurd ⟨e', he', hr⟩ hearlier
        have hlast : h'.ready = true := by
          rcases List.mem_cons.mp he with rfl | he
          · exact hready
          · rw [hnone e he] at hready
            cases hready
        have hedge := h pre h' post hsplit' hlast hnone
        have hmem : Event.handled h' ∈ events := by rw [hsplit']; simp
        refine ⟨_, List.mem_cons_self, ?_⟩
        show h'.evaluated = true
        rw [hfaithful h' hmem, hlast, hedge]
        rfl

/-- **No evaluation is lost exactly when the first ready context since each start is on the edge.** -/
theorem noneLost_iff {events : List Event} (hfaithful : Faithful events) :
    NoneLost events ↔ FirstReadyAtEdge events := by
  constructor
  · intro h pre h' post hsplit hready hnone
    obtain ⟨e, he, hevaluated⟩ := h pre _ post hsplit hready
    rw [sinceStart_concat] at he
    simp only [Event.isStarted, Bool.false_eq_true, if_false] at he
    rcases List.mem_cons.mp he with rfl | he
    · have heq := hfaithful h' (by rw [hsplit]; simp)
      rw [show h'.evaluated = true from hevaluated] at heq
      exact (Bool.and_eq_true_iff.mp heq.symm).2
    · have hmem : e ∈ events := by
        rw [hsplit]
        exact List.mem_append_left _ (mem_of_mem_sinceStart he)
      have := hfaithful.ready hmem hevaluated
      rw [hnone e he] at this
      cases this
  · intro h pre e post hsplit hready
    have hsplit' : events = (pre ++ [e]) ++ post := by rw [hsplit, List.append_assoc]; rfl
    refine h.evaluated hfaithful hsplit' ⟨e, ?_, hready⟩
    rw [sinceStart_concat]
    cases e with
    | started => cases hready
    | handled h' => exact List.mem_cons_self

/-! ## The records of a context -/

/-- The record of a strategy has its readiness. -/
theorem evaluateOne_readiness (m : StrategyManager) (strategy : Strategy) (trigger : StrategyTrigger)
    (context : MarketContext) (outcome : Option StrategyEvaluation) :
    (m.evaluateOne strategy trigger context outcome).2.readiness =
      assessReadiness strategy (m.configurations strategy.descriptor.strategyId) context := by
  unfold evaluateOne
  simp only
  split
  · rfl
  · rename_i hready
    have hready : assessReadiness strategy (m.configurations strategy.descriptor.strategyId) context =
        .ready := by
      by_contra hnot
      exact hready (Or.inl hnot)
    rw [hready]
    unfold StrategyManager.run
    split <;> rfl

/-- The loop evaluates exactly the visited strategies that are triggered and ready. -/
theorem exists_ready_record_iff (context : MarketContext) (previous : Option MarketContext)
    (evaluate : String → Option StrategyEvaluation) (ids : List String) (m : StrategyManager)
    {id : String} {strategy : Strategy} (hget : m.registry.get id = some strategy) :
    (∃ r ∈ (recordsFor context previous evaluate ids m).2,
        r.strategyId = id ∧ r.readiness = .ready) ↔
      id ∈ ids ∧ isTriggered strategy.requirements.trigger previous context = true ∧
        assessReadiness strategy (m.configurations id) context = .ready := by
  induction ids generalizing m with
  | nil => simp [recordsFor]
  | cons visited ids ih =>
    unfold recordsFor
    cases hvisited : m.registry.get visited with
    | none =>
      have hne : id ≠ visited := by
        rintro rfl
        rw [hget] at hvisited
        cases hvisited
      simp only
      rw [ih m hget, List.mem_cons]
      simp [hne]
    | some strategy' =>
      have hid : strategy'.descriptor.strategyId = visited :=
        m.registry.keyed _ ((Dict.mem_iff_get m.registry.nodup _ _).mpr hvisited)
      simp only
      by_cases htrigger : isTriggered strategy'.requirements.trigger previous context = false
      · rw [if_pos htrigger, ih m hget, List.mem_cons]
        by_cases hne : id = visited
        · subst hne
          rw [hget, Option.some.injEq] at hvisited
          subst hvisited
          simp [htrigger]
        · simp [hne]
      · rw [if_neg htrigger]
        have hname := m.evaluateOne_strategyId strategy' strategy'.requirements.trigger context
          (evaluate visited)
        have hreadiness := evaluateOne_readiness m strategy' strategy'.requirements.trigger context
          (evaluate visited)
        obtain ⟨hregistry, hconfigurations, -, -⟩ := m.evaluateOne_keeps strategy'
          strategy'.requirements.trigger context (evaluate visited)
        rw [hid] at hname hreadiness
        rw [List.exists_mem_cons_iff, ih _ (hregistry ▸ hget), hname, hreadiness, hconfigurations,
          List.mem_cons]
        by_cases hne : id = visited
        · subst hne
          rw [hget, Option.some.injEq] at hvisited
          subst hvisited
          rw [Bool.not_eq_false] at htrigger
          simp only [htrigger, true_and, true_or]
          exact or_iff_left_of_imp And.right
        · simp [hne, Ne.symm hne]

/-- A context evaluates a running strategy exactly when it is triggered and ready. -/
theorem evaluatedOn_eq {m : StrategyManager} {context : MarketContext}
    (evaluate : String → Option StrategyEvaluation) {id : String} {strategy : Strategy}
    (hconsiders : m.considers context id = true) (hget : m.registry.get id = some strategy) :
    evaluatedOn m context evaluate id =
      (decide (assessReadiness strategy (m.configurations id) context = .ready) &&
        isTriggered strategy.requirements.trigger (m.previous.get context.instrument) context) := by
  unfold considers at hconsiders
  simp only [Bool.and_eq_true, Bool.not_eq_true', decide_eq_true_eq] at hconsiders
  obtain ⟨hfresh, hrunning⟩ := hconsiders
  have hid : id ∈ m.runningIds := by
    refine List.mem_filter.mpr ⟨?_, decide_eq_true hrunning⟩
    unfold StrategyRegistry.identifiers
    rw [List.mem_insertionSort, Dict.mem_keys_iff]
    unfold StrategyRegistry.get at hget
    rw [hget]
    rfl
  have hrecords := exists_ready_record_iff context (m.previous.get context.instrument) evaluate
    m.runningIds m hget
  rw [Bool.eq_iff_iff, Bool.and_eq_true, decide_eq_true_eq]
  unfold evaluatedOn handle
  rw [if_neg (by rw [hfresh]; simp), List.any_eq_true]
  simp only [decide_eq_true_eq]
  rw [hrecords]
  constructor
  · rintro ⟨-, htriggered, hready⟩
    exact ⟨hready, htriggered⟩
  · rintro ⟨hready, htriggered⟩
    exact ⟨hid, htriggered, hready⟩

/-! ## Runs -/

theorem eventOf_faithful {id : String} {i : Instrument} {s : System} {op : System.Op} {h : Handled}
    (hevent : eventOf id i s op = some (.handled h)) : h.evaluated = (h.ready && h.edge) := by
  cases op with
  | context context evaluate =>
    simp only [eventOf] at hevent
    cases hget : s.manager.registry.get id with
    | none =>
      rw [hget] at hevent
      cases hevent
    | some strategy =>
      rw [hget] at hevent
      simp only at hevent
      split at hevent
      · rename_i hfollowed
        obtain ⟨hi, hconsiders, htrigger⟩ := hfollowed
        cases hevent
        simp only
        rw [evaluatedOn_eq evaluate hconsiders hget, htrigger, hi]
        rfl
      · cases hevent
  | start id' =>
    simp only [eventOf] at hevent
    split at hevent <;> cases hevent
  | resumeStart id' outcome =>
    simp only [eventOf] at hevent
    split at hevent <;> cases hevent
  | _ => cases hevent

theorem history_faithful (id : String) (i : Instrument) (s : System) (ops : List System.Op) :
    Faithful (history id i s ops) := by
  induction ops generalizing s with
  | nil =>
    intro h hmem
    cases hmem
  | cons op ops ih =>
    intro h hmem
    rw [history, List.mem_append] at hmem
    rcases hmem with hmem | hmem
    · exact eventOf_faithful (Option.mem_toList.mp hmem)
    · exact ih _ h hmem

/-- **A running strategy misses no ready context of an instrument exactly when the first ready one since
    each start is the one at which the history of the instrument appears.**  For every strategy with
    trigger ON_HISTORICAL_READY, every instrument and every interleaving of commands, suspended starts and
    contexts, from any system. -/
theorem historical_ready_none_lost_iff (id : String) (i : Instrument) (s : System)
    (ops : List System.Op) :
    NoneLost (history id i s ops) ↔ FirstReadyAtEdge (history id i s ops) :=
  noneLost_iff (history_faithful id i s ops)

/-! ## A history that arrives late -/

def relativeRangeRegistry : StrategyRegistry where
  strategies := [("previous_session_relative_range", RelativeRange.previousSessionRelativeRange)]
  keyed := by decide
  nodup := by decide

/-- The runtime's system with one strategy. -/
def relativeRangeSystem : System :=
  LifecycleSync.initial relativeRangeRegistry (fun _ => some RelativeRange.relativeRangeConfiguration) 3
    sampleThreshold_pos [reliance] sampleEngine false

theorem empty_nodup : (([] : List HistoricalSeries).map (·.timeframe)).Nodup := List.nodup_nil

theorem empty_instrument : ∀ s ∈ ([] : List HistoricalSeries), s.instrument = reliance := by
  intro s hs
  cases hs

theorem empty_previous :
    ∀ p ∈ (none : Option PreviousSessionFacts), p.candle.instrument = reliance := by
  intro p hp
  cases hp

/-- What a warmup installs for an instrument none of whose requirements is resolved. -/
def emptyHistory : HistoricalContext where
  instrument := reliance
  timeframes_nodup := empty_nodup
  series_instrument := empty_instrument
  previous_instrument := empty_previous

/-- The first context, with the empty history. -/
def emptyContext : MarketContext :=
  .initial reliance
    { sequence := 1, eventTimestamp := 22 * day, observedAt := 22 * day
      historical := some emptyHistory }

/-- The strategy starts; its warmup resolves nothing for `reliance`, and a later one all 21 sessions. -/
def lateHistory : List System.Op :=
  [.start "previous_session_relative_range",
    .resumeStart "previous_session_relative_range" .returned,
    .context emptyContext fun _ => none,
    .context (emptyContext.withUpdate RelativeRange.ownSessions.toContextFields) fun _ => none]

/-- The second context is ready, and the running strategy is not evaluated on it or before. -/
theorem empty_context_loses_evaluation :
    ¬ NoneLost (history "previous_session_relative_range" reliance relativeRangeSystem lateHistory) := by
  have hhistory : history "previous_session_relative_range" reliance relativeRangeSystem lateHistory =
      [.started, .handled ⟨false, true, false⟩, .handled ⟨true, false, false⟩] := by decide +kernel
  intro h
  rw [hhistory] at h
  obtain ⟨e, he, hevaluated⟩ := h [.started, .handled ⟨false, true, false⟩] _ [] rfl rfl
  have hnone : ∀ e ∈ sinceStart ([.started, .handled ⟨false, true, false⟩] ++
      [.handled ⟨true, false, false⟩]), e.evaluated = false := by decide
  rw [hnone e he] at hevaluated
  cases hevaluated

end ApexScan.HistoricalTrigger
