import Mathlib.Data.Option.Basic
import ApexScan.Engine.ContextVersions
import ApexScan.Engine.ContinuityTaint
import ApexScan.Lib.Purge

/-!
# Instruments do not see each other

All instruments share one registry, one candle engine, one clock and one sequence; the halt flag and the
continuity events are global.  What is published for an instrument is compared with the run from which
all calls about other instruments are removed.

* `CandleEngine.SameFor`, `TickEngine.SameFor` — two engines hold the same of one instrument, up to
  sequence numbers.
* `concerns` — the calls about an instrument, with the global ones.
* `step_other`, `step_same` — a call about another instrument keeps the relation, and one about the
  instrument shows the same in related engines.
* `step_rejected` — what a rejected event leaves alone; `Balanced` — the decision counters add up.

Main result: `instruments_isolated`, a two-run property over every list of calls.
-/

set_option autoImplicit false

namespace ApexScan

open Lib

/-! ## The candle engine -/

namespace CandleEngine

/-- Two engines with the same settings hold the same of the instrument. -/
structure SameFor (i : Instrument) (e e' : CandleEngine) : Prop where
  config : SameConfig e e'
  timeframes : e'.timeframes = e.timeframes
  states : ∀ tf, e'.states.get (i, tf) = e.states.get (i, tf)
  broken : i ∈ e'.continuityBroken ↔ i ∈ e.continuityBroken

namespace SameFor

variable {i : Instrument} {e e' e'' : CandleEngine}

theorem refl (i : Instrument) (e : CandleEngine) : SameFor i e e :=
  ⟨SameConfig.refl e, rfl, fun _ => rfl, Iff.rfl⟩

theorem symm (h : SameFor i e e') : SameFor i e' e :=
  ⟨⟨h.config.schedule.symm, h.config.timezone.symm, h.config.finalizedWindow.symm⟩, h.timeframes.symm,
    fun tf => (h.states tf).symm, h.broken.symm⟩

theorem trans (h : SameFor i e e') (h' : SameFor i e' e'') : SameFor i e e'' :=
  ⟨h.config.trans h'.config, h'.timeframes.trans h.timeframes,
    fun tf => (h'.states tf).trans (h.states tf), h'.broken.trans h.broken⟩

/-- The sets stamped into a context of the instrument are the same. -/
theorem candleSetsFor (h : SameFor i e e') : e'.candleSetsFor i = e.candleSetsFor i := by
  unfold CandleEngine.candleSetsFor
  simp only [h.timeframes, h.states]

theorem updateTimeframe {tick : Tick} (h : SameFor i e e') (htick : tick.instrument = i)
    (session : SessionContext) (tf : Timeframe) :
    SameFor i (CandleEngine.updateTimeframe tick session e tf)
      (CandleEngine.updateTimeframe tick session e' tf) := by
  subst htick
  have hstate : e'.stateFor tick.instrument tf = e.stateFor tick.instrument tf := by
    unfold stateFor
    rw [h.states]
  have hbroken : tick.instrument ∈
        (if (e.stateFor tick.instrument tf).tradingDate = some session.tradingDate then
          e'.continuityBroken else e'.continuityBroken.erase tick.instrument) ↔
      tick.instrument ∈
        (if (e.stateFor tick.instrument tf).tradingDate = some session.tradingDate then
          e.continuityBroken else e.continuityBroken.erase tick.instrument) := by
    split
    · exact h.broken
    · simp
  unfold CandleEngine.updateTimeframe
  simp only [hstate]
  refine ⟨⟨h.config.schedule, h.config.timezone, h.config.finalizedWindow⟩,
    h.timeframes, ?_, hbroken⟩
  intro tf'
  simp only [h.config.finalizedWindow, h.config.bucketBounds_eq, hbroken, Dict.get_set, h.states]

/-- A tick of another instrument leaves everything of the instrument. -/
theorem updateTimeframe_other {tick : Tick} (hi : tick.instrument ≠ i) (session : SessionContext)
    (e : CandleEngine) (tf : Timeframe) :
    SameFor i e (CandleEngine.updateTimeframe tick session e tf) := by
  refine ⟨⟨rfl, rfl, rfl⟩, rfl, ?_, ?_⟩
  · intro tf'
    exact updateTimeframe_get_ne e fun heq => hi (Prod.mk.inj heq).1
  · unfold CandleEngine.updateTimeframe
    simp only
    split
    · exact Iff.rfl
    · simp [Finset.mem_erase, Ne.symm hi]

theorem update (h : SameFor i e e') {tick : Tick} (htick : tick.instrument = i)
    (session : SessionContext) : SameFor i (e.update tick session) (e'.update tick session) := by
  have hfold : ∀ (tfs : List Timeframe) {e e' : CandleEngine}, SameFor i e e' →
      SameFor i (tfs.foldl (CandleEngine.updateTimeframe tick session) e)
        (tfs.foldl (CandleEngine.updateTimeframe tick session) e') := by
    intro tfs
    induction tfs with
    | nil => exact fun h => h
    | cons tf tfs ih => exact fun h => ih (h.updateTimeframe htick session tf)
  unfold CandleEngine.update
  rw [h.timeframes]
  split
  · exact hfold e.timeframes h
  · exact h

theorem update_other {tick : Tick} (hi : tick.instrument ≠ i) (session : SessionContext)
    (e : CandleEngine) : SameFor i e (e.update tick session) := by
  have hfold : ∀ (tfs : List Timeframe) (e : CandleEngine),
      SameFor i e (tfs.foldl (CandleEngine.updateTimeframe tick session) e) := by
    intro tfs
    induction tfs with
    | nil => exact refl i
    | cons tf tfs ih => exact fun e => (updateTimeframe_other hi session e tf).trans (ih _)
  unfold CandleEngine.update
  split
  · exact hfold e.timeframes e
  · exact refl i e

/-- A continuity event taints an instrument that has a stream, whatever the other ones have. -/
theorem recordContinuity (h : SameFor i e e') (event : FeedContinuityEvent) :
    SameFor i (e.recordContinuity event) (e'.recordContinuity event) := by
  have hstreams : ∀ e : CandleEngine, i ∈ (e.states.map (·.1.1)).toFinset ↔
      ∃ tf, (e.states.get (i, tf)).isSome := by
    intro e
    rw [List.mem_toFinset, List.mem_map]
    constructor
    · rintro ⟨⟨⟨j, tf⟩, st⟩, hmem, rfl⟩
      exact ⟨tf, (Dict.mem_keys_iff _ _).mp (List.mem_map_of_mem hmem)⟩
    · rintro ⟨tf, hsome⟩
      obtain ⟨kv, hmem, hkey⟩ := List.mem_map.mp ((Dict.mem_keys_iff _ _).mpr hsome)
      exact ⟨kv, hmem, by rw [hkey]⟩
  unfold CandleEngine.recordContinuity
  split
  · refine ⟨⟨h.config.schedule, h.config.timezone, h.config.finalizedWindow⟩,
      h.timeframes, ?_, ?_⟩
    · intro tf
      simp only [Dict.get_mapItems, h.states]
    · simp only [Finset.mem_union, hstreams, h.broken, h.states]
  · exact h

theorem flush (h : SameFor i e e') (atTime : Int) : SameFor i (e.flush atTime) (e'.flush atTime) := by
  refine ⟨⟨h.config.schedule, h.config.timezone, h.config.finalizedWindow⟩,
    h.timeframes, ?_, h.broken⟩
  intro tf
  unfold CandleEngine.flush
  simp only [Dict.get_mapItems, h.states, h.config.finalizedWindow]

theorem reconcile (h : SameFor i e e') {authoritative : Candle} (hi : authoritative.instrument = i)
    (tf : Timeframe) :
    SameFor i (e.reconcile authoritative tf).1 (e'.reconcile authoritative tf).1 := by
  subst hi
  unfold CandleEngine.reconcile
  simp only [h.states]
  split
  · exact h
  · split
    · refine ⟨⟨h.config.schedule, h.config.timezone, h.config.finalizedWindow⟩,
        h.timeframes, ?_, h.broken⟩
      intro tf'
      simp only [Dict.get_set, h.states, h.config.finalizedWindow]
    · split <;> exact h
    · exact h
    · exact h

theorem reconcile_other {authoritative : Candle} (hi : authoritative.instrument ≠ i) (tf : Timeframe)
    (e : CandleEngine) : SameFor i e (e.reconcile authoritative tf).1 := by
  unfold CandleEngine.reconcile
  simp only
  split
  · exact refl i e
  · split
    · refine ⟨⟨rfl, rfl, rfl⟩, rfl, ?_, Iff.rfl⟩
      intro tf'
      exact Dict.get_set_ne _ _ fun heq => hi (Prod.mk.inj heq).1
    · split <;> exact refl i e
    · exact refl i e
    · exact refl i e

theorem setRequiredTimeframes (h : SameFor i e e') (timeframes : List Timeframe) :
    SameFor i ((e.setRequiredTimeframes timeframes).getD e)
      ((e'.setRequiredTimeframes timeframes).getD e') := by
  have hvalidated : validated e'.schedule timeframes = validated e.schedule timeframes := by
    rw [h.config.schedule]
  unfold CandleEngine.setRequiredTimeframes
  rw [hvalidated]
  split
  · refine ⟨⟨h.config.schedule, h.config.timezone, h.config.finalizedWindow⟩, rfl, ?_,
      h.broken⟩
    intro tf
    simp only [Option.getD_some, Dict.get_restrict, h.states, h.timeframes]
  · exact h

end SameFor

/-- The operation is about the instrument, or about all. -/
def concerns (i : Instrument) : Op → Bool
  | .update tick _ => decide (tick.instrument = i)
  | .reconcile authoritative _ => decide (authoritative.instrument = i)
  | _ => true

/-- One operation about the instrument, on two engines that hold the same of it. -/
theorem SameFor.step {i : Instrument} {e e' : CandleEngine} (h : SameFor i e e') {op : Op}
    (hop : concerns i op = true) : SameFor i (e.step op).1 (e'.step op).1 := by
  cases op with
  | update tick session => exact h.update (of_decide_eq_true hop) session
  | recordContinuity event => exact h.recordContinuity event
  | flush atTime => exact h.flush atTime
  | reconcile authoritative tf => exact h.reconcile (of_decide_eq_true hop) tf
  | setRequiredTimeframes timeframes => exact h.setRequiredTimeframes timeframes

theorem SameFor.step_other {i : Instrument} (e : CandleEngine) {op : Op}
    (hop : concerns i op = false) : SameFor i e (e.step op).1 := by
  cases op with
  | update tick session => exact SameFor.update_other (of_decide_eq_false hop) session e
  | reconcile authoritative tf => exact SameFor.reconcile_other (of_decide_eq_false hop) tf e
  | _ => cases hop

end CandleEngine

/-! ## States up to sequence numbers -/

/-- A context without the number that the engine's sequence gave it. -/
def MarketContext.withoutSequence (c : MarketContext) : MarketContext := { c with sequence := 0 }

namespace InstrumentState

/-- Two states of an instrument, up to sequence numbers. -/
structure Same (s s' : InstrumentState) : Prop where
  latestTick : s'.latestTick = s.latestTick
  latestQuote : s'.latestQuote = s.latestQuote
  lastEventTimestamp : s'.lastEventTimestamp = s.lastEventTimestamp
  context : s'.context.map (·.withoutSequence) = s.context.map (·.withoutSequence)
  historical : s'.historical = s.historical
  sessionStatistics : s'.sessionStatistics = s.sessionStatistics
  staged : s'.stagedSessionStatisticsObservation = s.stagedSessionStatisticsObservation

namespace Same

variable {s s' : InstrumentState}

theorem refl (s : InstrumentState) : Same s s := ⟨rfl, rfl, rfl, rfl, rfl, rfl, rfl⟩

/-- The stored contexts are both missing, or agree on all but the sequence. -/
theorem context_cases (h : Same s s') :
    (s.context = none ∧ s'.context = none) ∨
      ∃ c c', s.context = some c ∧ s'.context = some c' ∧ c'.withoutSequence = c.withoutSequence := by
  have hcontext := h.context
  cases hc : s.context with
  | none =>
    left
    rw [hc, Option.map_none, Option.map_eq_none_iff] at hcontext
    exact ⟨rfl, hcontext⟩
  | some c =>
    right
    rw [hc, Option.map_some, Option.map_eq_some_iff] at hcontext
    obtain ⟨c', hc', heq⟩ := hcontext
    exact ⟨c, c', rfl, hc', heq⟩

end Same

end InstrumentState

/-- Contexts made from the same fields, up to the sequence, are the same up to the sequence. -/
theorem contextEvent_same {i : Instrument} {s s' : InstrumentState} (h : InstrumentState.Same s s')
    {fields fields' : ContextFields}
    (hfields : { fields' with sequence := 0 } = { fields with sequence := 0 }) :
    (contextEvent i s'.context fields').context.withoutSequence =
      (contextEvent i s.context fields).context.withoutSequence := by
  rcases h.context_cases with ⟨hc, hc'⟩ | ⟨c, c', hc, hc', heq⟩
  · rw [hc, hc']
    exact congrArg (fun f => MarketContext.initial i f) hfields
  · rw [hc, hc']
    have hversion : c'.version = c.version := congrArg (·.version) heq
    have hinstrument : c'.instrument = c.instrument := congrArg (·.instrument) heq
    show MarketContext.mk { fields' with sequence := 0 } c'.instrument (c'.version + 1) _ =
      MarketContext.mk { fields with sequence := 0 } c.instrument (c.version + 1) _
    simp only [hfields, hversion, hinstrument]

namespace TickEngine

/-- Two engines hold the same of the instrument, up to sequence numbers. -/
structure SameFor (i : Instrument) (e e' : TickEngine) : Prop where
  session : e'.session = e.session
  authority : e'.authority = e.authority
  haltActive : e'.haltActive = e.haltActive
  known : e'.registry.isKnown i = e.registry.isKnown i
  state : InstrumentState.Same (e.stateOf i) (e'.stateOf i)
  candles : Option.Rel (CandleEngine.SameFor i) e.candles e'.candles

/-- Two events about to be published are the same, up to sequence numbers. -/
structure SamePending (i : Instrument) (p p' : Pending) : Prop where
  candles : Option.Rel (CandleEngine.SameFor i) p.candles p'.candles
  context : p'.event.context.withoutSequence = p.event.context.withoutSequence
  state : InstrumentState.Same p.state p'.state

/-! ## What related engines accept -/

section Related

variable {i : Instrument} {e e' : TickEngine}

theorem rel_map {R : CandleEngine → CandleEngine → Prop} {f : CandleEngine → CandleEngine}
    (hf : ∀ c c', R c c' → R (f c) (f c')) {candles candles' : Option CandleEngine}
    (h : Option.Rel R candles candles') : Option.Rel R (candles.map f) (candles'.map f) := by
  cases h with
  | some h => exact Option.Rel.some (hf _ _ h)
  | none => exact Option.Rel.none

/-- The same where only one of the two candle engines changes, and not for the instrument. -/
theorem rel_map_left {f : CandleEngine → CandleEngine} (hf : ∀ c, CandleEngine.SameFor i c (f c))
    {candles candles' : Option CandleEngine}
    (h : Option.Rel (CandleEngine.SameFor i) candles candles') :
    Option.Rel (CandleEngine.SameFor i) (candles.map f) candles' := by
  cases h with
  | some h => exact Option.Rel.some ((hf _).symm.trans h)
  | none => exact Option.Rel.none

theorem candleSets_same {candles candles' : Option CandleEngine}
    (h : Option.Rel (CandleEngine.SameFor i) candles candles') :
    candleSets candles' i = candleSets candles i := by
  cases h with
  | some h => exact h.candleSetsFor
  | none => rfl

/-- Validation sees of a state the latest data only; a missing state is an empty one. -/
theorem classify_stateFor (r : InstrumentStateRegistry) (d : Datum) (known : Bool) (now : Int) :
    classify d known (r.get d.instrument) now =
      classify d known (some (r.stateFor d.instrument)) now := by
  unfold InstrumentStateRegistry.stateFor
  cases hget : r.get d.instrument with
  | some state => rfl
  | none => cases d <;> simp [classify, Datum.isDuplicate]

theorem classify_same {s s' : InstrumentState} (h : InstrumentState.Same s s') (d : Datum)
    (known : Bool) (now : Int) :
    classify d known (some s') now = classify d known (some s) now := by
  have hduplicate : d.isDuplicate s' = d.isDuplicate s := by
    cases d with
    | tick t => simp only [Datum.isDuplicate, h.latestTick]
    | quote q => simp only [Datum.isDuplicate, h.latestQuote]
  unfold classify
  simp only [hduplicate, h.lastEventTimestamp]

theorem merge_same {s s' : InstrumentState} (h : InstrumentState.Same s s') (d : Datum) :
    merge d s' = merge d s := by
  cases d with
  | tick t => simp only [merge, h.latestQuote]
  | quote q => simp only [merge, h.latestTick]

/-- The previous close that a datum carries over. -/
theorem carried_same {s s' : InstrumentState} (h : InstrumentState.Same s s')
    (session : Option SessionContext) :
    s'.context.bind (carriedPreviousClose · session) =
      s.context.bind (carriedPreviousClose · session) := by
  rcases h.context_cases with ⟨hc, hc'⟩ | ⟨c, c', hc, hc', heq⟩
  · rw [hc, hc']
  · rw [hc, hc']
    have hsession : c'.session = c.session := congrArg (·.session) heq
    have hclose : c'.previousClose = c.previousClose := congrArg (·.previousClose) heq
    simp only [Option.bind_some, carriedPreviousClose, hsession, hclose]

theorem sessionAt_same (h : SameFor i e e') (instant : Int) :
    e'.sessionAt instant = e.sessionAt instant := by
  unfold sessionAt
  rw [h.session, h.haltActive]

theorem candlesAfter_same (h : SameFor i e e') {d : Datum} (hd : d.instrument = i)
    (session : Option SessionContext) :
    Option.Rel (CandleEngine.SameFor i) (e.candlesAfter d session) (e'.candlesAfter d session) := by
  unfold candlesAfter
  split
  · rename_i t session
    exact rel_map (fun _ _ hc => hc.update hd session) h.candles
  · exact h.candles

theorem statistics_same (h : SameFor i e e') {d : Datum} (hd : d.instrument = i) :
    e'.sessionStatisticsFor d = e.sessionStatisticsFor d := by
  subst hd
  have hstate := h.state
  unfold stateOf at hstate
  unfold sessionStatisticsFor
  simp only [sessionAt_same h, h.authority, hstate.staged, hstate.sessionStatistics]

/-- Related engines are about to publish and store the same for a datum of the instrument. -/
theorem accepting_same (h : SameFor i e e') {d : Datum} (hd : d.instrument = i) (observedAt : Int) :
    SamePending i (e.accepting d observedAt) (e'.accepting d observedAt) := by
  subst hd
  have hstate : InstrumentState.Same (e.registry.stateFor d.instrument)
      (e'.registry.stateFor d.instrument) := h.state
  have hcandles := candlesAfter_same h rfl (e.sessionAt d.eventTimestamp)
  have hfields : { e'.datumFields d observedAt with sequence := 0 } =
      { e.datumFields d observedAt with sequence := 0 } := by
    unfold datumFields
    simp only [merge_same hstate, sessionAt_same h, candleSets_same hcandles, hstate.historical,
      statistics_same h rfl, carried_same hstate]
  have hcontext := contextEvent_same (i := d.instrument) hstate hfields
  refine ⟨?_, hcontext, ?_⟩
  · show Option.Rel _ (e.candlesAfter d (e.sessionAt d.eventTimestamp))
      (e'.candlesAfter d (e'.sessionAt d.eventTimestamp))
    rw [sessionAt_same h]
    exact hcandles
  · refine ⟨?_, ?_, rfl, congrArg some hcontext, hstate.historical, ?_, ?_⟩
    · exact congrArg Prod.fst (merge_same hstate d)
    · exact congrArg Prod.snd (merge_same hstate d)
    · exact congrArg Prod.fst (statistics_same h rfl)
    · exact congrArg Prod.snd (statistics_same h rfl)

/-- The same for a reference of the instrument. -/
theorem acceptingReference_same (h : SameFor i e e') {r : MarketReference} (hr : r.instrument = i)
    (now : Int) : SamePending i (e.acceptingReference r now) (e'.acceptingReference r now) := by
  subst hr
  have hstate : InstrumentState.Same (e.registry.stateFor r.instrument)
      (e'.registry.stateFor r.instrument) := h.state
  have hfields : { e'.referenceFields r now with sequence := 0 } =
      { e.referenceFields r now with sequence := 0 } := by
    unfold referenceFields
    rcases hstate.context_cases with ⟨hc, hc'⟩ | ⟨c, c', hc, hc', heq⟩
    · simp only [hc, hc', sessionAt_same h, hstate.historical]
    · have hsession : c'.session = c.session := congrArg (·.session) heq
      have hsets : c'.candleSets = c.candleSets := congrArg (·.candleSets) heq
      simp only [hc, hc', sessionAt_same h, hstate.historical, hstate.latestTick, hstate.latestQuote,
        hstate.sessionStatistics, hsession, hsets]
  have hcontext := contextEvent_same (i := r.instrument) hstate hfields
  exact ⟨h.candles, hcontext, hstate.latestTick, hstate.latestQuote, hstate.lastEventTimestamp,
    congrArg some hcontext, hstate.historical, hstate.sessionStatistics, hstate.staged⟩

end Related

/-! ## One call -/

/-- The call is about the instrument, or about all. -/
def concerns (i : Instrument) : Op → Bool
  | .process (.datum d) _ _ _ => decide (d.instrument = i)
  | .process (.reference r) _ _ _ => decide (r.instrument = i)
  | .installHistorical j _ => decide (j = i)
  | .stageSessionStatistics j _ => decide (j = i)
  | .candles op => CandleEngine.concerns i op
  | .setHalt _ | .onFeedContinuity _ => true

/-- The subscribers of the moment raise on no event. -/
def NonRaising (op : Op) : Prop := ∀ event, (busOf op).publish event = .ok ()

/-- The context of the instrument that the call publishes, without its sequence number. -/
def contextFor (i : Instrument) (o : Option Emitted) : Option MarketContext :=
  (publishedFor i o).map (·.withoutSequence)

section Calls

variable {i : Instrument} {e e' : TickEngine} {op : Op}

/-- What only `set_halt` changes. -/
structure SameSettings (e e' : TickEngine) : Prop where
  session : e'.session = e.session
  authority : e'.authority = e.authority
  haltActive : e'.haltActive = e.haltActive
  known : ∀ i, e'.registry.isKnown i = e.registry.isKnown i

theorem SameSettings.refl (e : TickEngine) : SameSettings e e := ⟨rfl, rfl, rfl, fun _ => rfl⟩

theorem step_sameSettings (e : TickEngine) (hop : ∀ active, op ≠ .setHalt active) :
    SameSettings e (step e op).1 := by
  obtain ⟨hsession, hauthority, hhalt⟩ := step_settings e op
  refine ⟨hsession, hauthority, ?_, ?_⟩
  · rw [hhalt]
    split
    · rename_i active
      exact absurd rfl (hop active)
    · rfl
  · intro i
    unfold InstrumentStateRegistry.isKnown
    rw [(step_config e op).2]

/-- The candle engine after an event: the one that the accepted event has updated. -/
theorem process_candles (e : TickEngine) (event : CanonicalEvent) (now observedAt : Int) (bus : EventBus) :
    (step e (.process event now observedAt bus)).1.candles =
      (pending e (.process event now observedAt bus)).elim e.candles fun ip => ip.2.candles := by
  cases event with
  | reference r =>
    simp only [step, process, commit, pending]
    split
    · cases bus.publish (e.acceptingReference r now).event <;> rfl
    · rfl
  | datum d =>
    simp only [step, process, commit, pending]
    split
    · split <;> rfl
    · rfl

/-- An event that is not accepted leaves the registry. -/
theorem process_registry {event : CanonicalEvent} {now observedAt : Int} {bus : EventBus}
    (h : pending e (.process event now observedAt bus) = none) :
    (step e (.process event now observedAt bus)).1.registry = e.registry := by
  cases event with
  | reference r =>
    simp only [pending, ite_eq_right_iff, reduceCtorEq, imp_false] at h
    simp only [step, process, h, if_false, Bool.false_eq_true]
  | datum d =>
    simp only [pending, ite_eq_right_iff, reduceCtorEq, imp_false] at h
    simp only [step, process, h, if_false]

/-- Two engines with the settings of related ones, on the state and the candles of the instrument. -/
theorem SameFor.of_settings (h : SameFor i e e') {f f' : TickEngine} (hf : SameSettings e f)
    (hf' : SameSettings e' f') (hstate : InstrumentState.Same (f.stateOf i) (f'.stateOf i))
    (hcandles : Option.Rel (CandleEngine.SameFor i) f.candles f'.candles) : SameFor i f f' := by
  refine ⟨?_, ?_, ?_, ?_, hstate, hcandles⟩
  · rw [hf.session, hf'.session, h.session]
  · rw [hf.authority, hf'.authority, h.authority]
  · rw [hf.haltActive, hf'.haltActive, h.haltActive]
  · rw [hf.known, hf'.known, h.known]

/-- Related engines accept the same events of the instrument. -/
theorem pending_same (h : SameFor i e e') {event : CanonicalEvent} {now observedAt : Int}
    {bus : EventBus} (hop : concerns i (.process event now observedAt bus) = true) :
    (pending e (.process event now observedAt bus) = none ∧
      pending e' (.process event now observedAt bus) = none) ∨
    ∃ p p', pending e (.process event now observedAt bus) = some (i, p) ∧
      pending e' (.process event now observedAt bus) = some (i, p') ∧ SamePending i p p' := by
  cases event with
  | reference r =>
    have hr : r.instrument = i := of_decide_eq_true hop
    simp only [pending]
    rw [show e'.registry.isKnown r.instrument = e.registry.isKnown r.instrument by rw [hr, h.known]]
    split
    · exact Or.inr ⟨_, _, by rw [hr], by rw [hr], acceptingReference_same h hr now⟩
    · exact Or.inl ⟨rfl, rfl⟩
  | datum d =>
    have hd : d.instrument = i := of_decide_eq_true hop
    have hclassify : classify d (e'.registry.isKnown d.instrument) (e'.registry.get d.instrument) now =
        classify d (e.registry.isKnown d.instrument) (e.registry.get d.instrument) now := by
      have hstate : InstrumentState.Same (e.registry.stateFor d.instrument)
          (e'.registry.stateFor d.instrument) := hd ▸ h.state
      rw [classify_stateFor, classify_stateFor, hd, h.known, ← hd, classify_same hstate]
    simp only [pending]
    rw [hclassify]
    split
    · exact Or.inr ⟨_, _, by rw [hd], by rw [hd], accepting_same h hd observedAt⟩
    · exact Or.inl ⟨rfl, rfl⟩

theorem installHistorical_same {r r' : InstrumentStateRegistry}
    (h : InstrumentState.Same (r.stateFor i) (r'.stateFor i)) (historical : HistoricalContext) :
    InstrumentState.Same ((r.installHistorical i historical).stateFor i)
      ((r'.installHistorical i historical).stateFor i) := by
  unfold InstrumentStateRegistry.installHistorical
  split
  · exact h
  · rw [InstrumentStateRegistry.stateFor_put, InstrumentStateRegistry.stateFor_put, if_pos rfl,
      if_pos rfl]
    exact ⟨h.latestTick, h.latestQuote, h.lastEventTimestamp, h.context, rfl, h.sessionStatistics,
      h.staged⟩

theorem stage_same {r r' : InstrumentStateRegistry}
    (h : InstrumentState.Same (r.stateFor i) (r'.stateFor i))
    (observation : SessionStatisticsObservation) :
    InstrumentState.Same ((r.stageSessionStatisticsObservation i observation).stateFor i)
      ((r'.stageSessionStatisticsObservation i observation).stateFor i) := by
  have hstaged : InstrumentState.Same
      ((r.put i { r.stateFor i with
        stagedSessionStatisticsObservation := some observation }).stateFor i)
      ((r'.put i { r'.stateFor i with
        stagedSessionStatisticsObservation := some observation }).stateFor i) := by
    rw [InstrumentStateRegistry.stateFor_put, InstrumentStateRegistry.stateFor_put, if_pos rfl,
      if_pos rfl]
    exact ⟨h.latestTick, h.latestQuote, h.lastEventTimestamp, h.context, h.historical,
      h.sessionStatistics, rfl⟩
  have hensured : InstrumentState.Same ((r.ensure i).stateFor i) ((r'.ensure i).stateFor i) := by
    rwa [InstrumentStateRegistry.stateFor_ensure, InstrumentStateRegistry.stateFor_ensure]
  unfold InstrumentStateRegistry.stageSessionStatisticsObservation
  split
  · exact h
  · simp only [h.staged]
    split
    · exact hstaged
    · split
      · exact hensured
      · split
        · exact hensured
        · exact hstaged

theorem installHistorical_other {r : InstrumentStateRegistry} {j : Instrument} (hj : j ≠ i)
    (historical : HistoricalContext) :
    (r.installHistorical j historical).stateFor i = r.stateFor i := by
  unfold InstrumentStateRegistry.installHistorical
  split
  · rfl
  · rw [InstrumentStateRegistry.stateFor_put, if_neg hj]

theorem stage_other {r : InstrumentStateRegistry} {j : Instrument} (hj : j ≠ i)
    (observation : SessionStatisticsObservation) :
    (r.stageSessionStatisticsObservation j observation).stateFor i = r.stateFor i := by
  have hput : ∀ s, (r.put j s).stateFor i = r.stateFor i := by
    intro s
    rw [InstrumentStateRegistry.stateFor_put, if_neg hj]
  unfold InstrumentStateRegistry.stageSessionStatisticsObservation
  split
  · rfl
  · split
    · exact hput _
    · split
      · exact InstrumentStateRegistry.stateFor_ensure _ _ _
      · split
        · exact InstrumentStateRegistry.stateFor_ensure _ _ _
        · exact hput _

/-- **A call about the instrument shows the same in related engines**, and keeps them related. -/
theorem step_same (h : SameFor i e e') (hop : concerns i op = true) (hbus : NonRaising op) :
    contextFor i (step e op).2 = contextFor i (step e' op).2 ∧
      SameFor i (step e op).1 (step e' op).1 := by
  cases op with
  | process event now observedAt bus =>
    have hcandles := process_candles e event now observedAt bus
    have hcandles' := process_candles e' event now observedAt bus
    rcases pending_same h hop with ⟨hp, hp'⟩ | ⟨p, p', hp, hp', hsame⟩
    · rw [hp] at hcandles
      rw [hp'] at hcandles'
      refine ⟨?_, h.of_settings (step_sameSettings e (by simp)) (step_sameSettings e' (by simp)) ?_ ?_⟩
      · simp only [contextFor, publishedFor, publishedContext_silent hp, publishedContext_silent hp']
      · unfold stateOf
        rw [process_registry hp, process_registry hp']
        exact h.state
      · rw [hcandles, hcandles']
        exact h.candles
    · rw [hp] at hcandles
      rw [hp'] at hcandles'
      have hinstrument : p'.event.context.instrument = p.event.context.instrument :=
        congrArg (·.instrument) hsame.context
      refine ⟨?_, h.of_settings (step_sameSettings e (by simp)) (step_sameSettings e' (by simp)) ?_ ?_⟩
      · simp only [contextFor, publishedFor, publishedContext_pending hp, publishedContext_pending hp',
          Option.filter_some, hinstrument]
        split
        · exact congrArg some hsame.context.symm
        · rfl
      · -- no subscriber raises, so both states are stored
        rcases (step_pending hp).2.2 with ⟨_, hraise, -⟩ | ⟨-, -, -, hstore⟩
        · rw [hbus] at hraise
          cases hraise
        · rcases (step_pending hp').2.2 with ⟨_, hraise, -⟩ | ⟨-, -, -, hstore'⟩
          · rw [hbus] at hraise
            cases hraise
          · rw [hstore, hstore', if_pos rfl, if_pos rfl]
            exact hsame.state
      · rw [hcandles, hcandles']
        exact hsame.candles
  | setHalt active =>
    exact ⟨rfl, h.session, h.authority, rfl, h.known, h.state, h.candles⟩
  | onFeedContinuity event =>
    exact ⟨rfl, h.session, h.authority, h.haltActive, h.known, h.state,
      rel_map (fun _ _ hc => hc.recordContinuity event) h.candles⟩
  | installHistorical j historical =>
    obtain rfl : j = i := of_decide_eq_true hop
    exact ⟨rfl, h.of_settings (step_sameSettings e (by simp)) (step_sameSettings e' (by simp))
      (installHistorical_same h.state historical) h.candles⟩
  | stageSessionStatistics j observation =>
    obtain rfl : j = i := of_decide_eq_true hop
    exact ⟨rfl, h.of_settings (step_sameSettings e (by simp)) (step_sameSettings e' (by simp))
      (stage_same h.state observation) h.candles⟩
  | candles op =>
    exact ⟨rfl, h.session, h.authority, h.haltActive, h.known, h.state,
      rel_map (fun _ _ hc => hc.step hop) h.candles⟩

/-- An event of another instrument publishes nothing for the instrument and leaves its state and candles. -/
theorem process_other (h : SameFor i e e') (hown : OwnContexts e) {event : CanonicalEvent}
    {now observedAt : Int} {bus : EventBus}
    (hop : concerns i (.process event now observedAt bus) = false) :
    contextFor i (step e (.process event now observedAt bus)).2 = none ∧
      SameFor i (step e (.process event now observedAt bus)).1 e' := by
  have hcandles := process_candles e event now observedAt bus
  cases hp : pending e (.process event now observedAt bus) with
  | none =>
    rw [hp] at hcandles
    refine ⟨?_, h.of_settings (step_sameSettings e (by simp)) (SameSettings.refl e') ?_ ?_⟩
    · rw [contextFor, publishedFor, publishedContext_silent hp]
      rfl
    · unfold stateOf
      rw [process_registry hp]
      exact h.state
    · rw [hcandles]
      exact h.candles
  | some jp =>
    obtain ⟨j, p⟩ := jp
    rw [hp] at hcandles
    have hj : j ≠ i ∧ Option.Rel (CandleEngine.SameFor i) p.candles e'.candles := by
      rcases pending_cases hp with ⟨r, _, _, _, heq, rfl, -, rfl⟩ | ⟨d, _, _, _, heq, rfl, -, rfl⟩
      · cases heq
        exact ⟨of_decide_eq_false hop, h.candles⟩
      · cases heq
        have hd : d.instrument ≠ i := of_decide_eq_false hop
        refine ⟨hd, ?_⟩
        show Option.Rel _ (e.candlesAfter d (e.sessionAt d.eventTimestamp)) _
        unfold candlesAfter
        split
        · rename_i t session _
          exact rel_map_left (CandleEngine.SameFor.update_other hd session) h.candles
        · exact h.candles
    refine ⟨?_, h.of_settings (step_sameSettings e (by simp)) (SameSettings.refl e') ?_ ?_⟩
    · rw [contextFor, publishedFor, publishedContext_pending hp, Option.filter_some,
        pending_instrument hown hp]
      simp [hj.1]
    · rcases (step_pending hp).2.2 with ⟨_, -, -, -, hkeep⟩ | ⟨-, -, -, hstore⟩
      · rw [hkeep]
        exact h.state
      · rw [hstore, if_neg hj.1]
        exact h.state
    · rw [hcandles]
      exact hj.2

/-- **A call about another instrument** publishes nothing for the instrument and leaves what the engine
    holds of it. -/
theorem step_other (h : SameFor i e e') (hown : OwnContexts e) (hop : concerns i op = false) :
    contextFor i (step e op).2 = none ∧ SameFor i (step e op).1 e' := by
  cases op with
  | process event now observedAt bus =>
    exact process_other h hown hop
  | setHalt active => cases hop
  | onFeedContinuity event => cases hop
  | installHistorical j historical =>
    have hj : j ≠ i := of_decide_eq_false hop
    refine ⟨rfl, h.of_settings (step_sameSettings e (by simp)) (SameSettings.refl e') ?_ h.candles⟩
    show InstrumentState.Same ((e.registry.installHistorical j historical).stateFor i) _
    rw [installHistorical_other hj]
    exact h.state
  | stageSessionStatistics j observation =>
    have hj : j ≠ i := of_decide_eq_false hop
    refine ⟨rfl, h.of_settings (step_sameSettings e (by simp)) (SameSettings.refl e') ?_ h.candles⟩
    show InstrumentState.Same ((e.registry.stageSessionStatisticsObservation j observation).stateFor i) _
    rw [stage_other hj]
    exact h.state
  | candles op =>
    exact ⟨rfl, h.session, h.authority, h.haltActive, h.known, h.state,
      rel_map_left (fun c => CandleEngine.SameFor.step_other c hop) h.candles⟩

/-- **A rejected event** leaves the registry and the candle engine, and publishes nothing. -/
theorem step_rejected {emitted : Emitted} {result : ProcessResult} (h : (step e op).2 = some emitted)
    (hresult : emitted.result = .ok result) (hrejected : result.outcome ≠ .accept) :
    (step e op).1.registry = e.registry ∧ (step e op).1.candles = e.candles ∧
      emitted.published = none ∧ result.context = none := by
  cases op with
  | process event now observedAt bus =>
    cases event with
    | reference r =>
      simp only [step, process, commit] at h ⊢
      split at h
      · rename_i hknown
        cases hp : bus.publish (e.acceptingReference r now).event with
        | error raised =>
          rw [hp] at h
          cases h
          cases hresult
        | ok _ =>
          rw [hp] at h
          cases h
          cases hresult
          exact absurd rfl hrejected
      · rename_i hunknown
        rw [if_neg hunknown]
        cases h
        cases hresult
        exact ⟨rfl, rfl, rfl, rfl⟩
    | datum d =>
      simp only [step, process, commit] at h ⊢
      split at h
      · split at h
        · cases h
          cases hresult
        · cases h
          cases hresult
          exact absurd rfl hrejected
      · rename_i hreject
        rw [if_neg hreject]
        cases h
        cases hresult
        exact ⟨rfl, rfl, rfl, rfl⟩
  | _ => cases h

end Calls

/-! ## The decision counters -/

/-- What was received was accepted or rejected for one of the reasons. -/
structure Balanced (c : TickEngineDecisionCounters) : Prop where
  ticks : c.ticksReceived =
    c.ticksAccepted + (c.byReason .invalid + c.byReason .duplicate + c.byReason .stale)
  references : c.referencesReceived = c.referencesAccepted + c.referencesRejected

theorem Balanced.recordTick {c : TickEngineDecisionCounters} (h : Balanced c)
    (outcome : ValidationOutcome) (eventTimestamp now : Int) :
    Balanced (c.recordTick outcome eventTimestamp now) := by
  have hticks := h.ticks
  refine ⟨?_, ?_⟩
  · cases outcome <;> simp [TickEngineDecisionCounters.recordTick] <;> omega
  · unfold TickEngineDecisionCounters.recordTick
    split <;> exact h.references

theorem Balanced.recordReference {c : TickEngineDecisionCounters} (h : Balanced c)
    (outcome : ValidationOutcome) : Balanced (c.recordReference outcome) := by
  have hreferences := h.references
  unfold TickEngineDecisionCounters.recordReference
  split
  · exact ⟨h.ticks, by simp only; omega⟩
  · exact ⟨h.ticks, by simp only; omega⟩

/-- Every call keeps the counters balanced, also one that raises. -/
theorem step_balanced (e : TickEngine) (op : Op) (h : Balanced e.diagnostics) :
    Balanced (step e op).1.diagnostics := by
  cases op with
  | process event now observedAt bus =>
    cases event with
    | reference r =>
      simp only [step, process, commit]
      split
      · cases bus.publish (e.acceptingReference r now).event with
        | error raised => exact h
        | ok _ => exact h.recordReference .accept
      · exact h.recordReference .invalid
    | datum d =>
      simp only [step, process, commit]
      split
      · split <;> exact h.recordTick _ _ _
      · exact h.recordTick _ _ _
  | _ => exact h

/-! ## Runs -/

/-- **Instruments are isolated.**  For every new engine and every list of calls: where no subscriber
    raises, the contexts published for an instrument are, without their sequence numbers, those of the run
    of the calls that concern it; a rejected event leaves the registry and the candle engine and publishes
    nothing; and the decision counters always add up. -/
theorem instruments_isolated (known : List Instrument) (session : Option MarketSessionClassifier)
    (candles : Option CandleEngine) (authority : SessionStatisticsAuthority) (ops : List Op) :
    let e₀ := create known session candles authority
    ((∀ op ∈ ops, NonRaising op) → ∀ i,
      (outs step e₀ ops).filterMap (contextFor i) =
        (outs step e₀ (ops.filter (concerns i))).filterMap (contextFor i)) ∧
    (∀ pre op post, ops = pre ++ op :: post → ∀ emitted result,
      (step (run step e₀ pre) op).2 = some emitted → emitted.result = .ok result →
      result.outcome ≠ .accept →
        (run step e₀ (pre ++ [op])).registry = (run step e₀ pre).registry ∧
        (run step e₀ (pre ++ [op])).candles = (run step e₀ pre).candles ∧
        emitted.published = none) ∧
    Balanced (run step e₀ ops).diagnostics := by
  intro e₀
  have hown : OwnContexts e₀ := fun i c hc => by cases hc
  refine ⟨?_, ?_, ?_⟩
  · intro hops i
    have hsame : SameFor i e₀ e₀ := by
      refine ⟨rfl, rfl, rfl, rfl, InstrumentState.Same.refl _, ?_⟩
      show Option.Rel _ candles candles
      cases candles with
      | none => exact Option.Rel.none
      | some c => exact Option.Rel.some (CandleEngine.SameFor.refl i c)
    refine filterMap_outs_purged (R := fun e e' => OwnContexts e ∧ SameFor i e e') (V := NonRaising)
      (contextFor i) ?_ ?_ hops ⟨hown, hsame⟩
    · rintro e e' op hop ⟨hown, hsame⟩
      obtain ⟨hnone, hsame'⟩ := step_other hsame hown hop
      exact ⟨hnone, step_ownContexts hown op, hsame'⟩
    · rintro e e' op hop hbus ⟨hown, hsame⟩
      obtain ⟨hview, hsame'⟩ := step_same hsame hop hbus
      exact ⟨hview, step_ownContexts hown op, hsame'⟩
  · intro pre op post _ emitted result hemitted hresult hrejected
    obtain ⟨hregistry, hcandles, hpublished, -⟩ := step_rejected hemitted hresult hrejected
    rw [run_concat]
    exact ⟨hregistry, hcandles, hpublished⟩
  · exact run_invariant (I := fun e : TickEngine => Balanced e.diagnostics)
      (fun e op h => step_balanced e op h) ops ⟨rfl, rfl⟩

theorem infosys_ne : "INFY" ≠ "" := by decide

def infosys : Instrument := { reliance with symbol := "INFY", symbol_ne := infosys_ne }

/-- A tick of `infosys` at `m` minutes past midnight of 2024-10-04, processed at once. -/
def infosysTick (m : Int) : Op :=
  .process (.datum (.tick { (sampleTick m (rupees 100)).1 with instrument := infosys }))
    (20000 * day + (m - 330) * minute) (20000 * day + (m - 330) * minute) acceptingBus

/-- Ticks of two instruments with a loss of the feed between them; the fourth tick of `reliance` repeats
    the third one. -/
def twoInstruments : List Op :=
  [tickAt 555 acceptingBus, infosysTick 555, .onFeedContinuity ⟨.continuityLost, 20000 * day⟩,
    tickAt 556 acceptingBus, infosysTick 557, tickAt 557 acceptingBus, tickAt 557 acceptingBus,
    infosysTick 558]

/-- A new engine for both, with candles of a minute and of the session. -/
def isolationEngine : TickEngine :=
  create [reliance, infosys] (some nseClassifier)
    (some (ContinuityTaint.newEngine ContinuityTaint.minuteAndSession)) {}

/-- The version of a context, and how many buckets its candle sets have closed. -/
def candleCounts (c : MarketContext) : ℕ × List ℕ :=
  (c.version, c.candleSets.map fun t => t.incomplete.length)

/-- The repeated tick. -/
def repeatedTick : Option Emitted :=
  (step (run step isolationEngine (twoInstruments.take 6)) (tickAt 557 acceptingBus)).2

theorem twoInstruments_nonRaising : ∀ op ∈ twoInstruments, NonRaising op := by
  simp only [twoInstruments, List.forall_mem_cons, List.not_mem_nil, false_imp_iff, implies_true,
    and_true]
  refine ⟨?_, ?_, ?_, ?_, ?_, ?_, ?_, ?_⟩ <;> rintro (_ | _) <;> rfl

theorem repeatedTick_rejected :
    (repeatedTick.bind fun emitted => emitted.result.toOption.map (·.outcome)) = some .duplicate := by
  decide +kernel

/-- The contexts of `reliance` have the same candles with the ticks of `infosys` in between and without
    them; the repeated tick is rejected and publishes nothing. -/
theorem instruments_isolated_sample :
    let contexts := (outs step isolationEngine twoInstruments).filterMap (contextFor reliance)
    contexts.map candleCounts = [(1, [0, 0]), (2, [1, 0]), (3, [2, 0])] ∧
    contexts = (outs step isolationEngine (twoInstruments.filter (concerns reliance))).filterMap
      (contextFor reliance) ∧
    (repeatedTick.bind fun emitted => emitted.result.toOption.map (·.outcome)) = some .duplicate ∧
    repeatedTick.bind (·.published) = none := by
  intro contexts
  obtain ⟨hisolated, hrejected, -⟩ := instruments_isolated [reliance, infosys] (some nseClassifier)
    (some (ContinuityTaint.newEngine ContinuityTaint.minuteAndSession)) {} twoInstruments
  refine ⟨by decide +kernel, hisolated twoInstruments_nonRaising reliance, repeatedTick_rejected, ?_⟩
  have hduplicate := repeatedTick_rejected
  cases hemitted : repeatedTick with
  | none => rfl
  | some emitted =>
    rw [hemitted] at hduplicate
    cases hresult : emitted.result with
    | error e =>
      rw [Option.bind_some, hresult] at hduplicate
      cases hduplicate
    | ok result =>
      rw [Option.bind_some, hresult] at hduplicate
      have houtcome : result.outcome = .duplicate := Option.some.inj hduplicate
      exact (hrejected (twoInstruments.take 6) (tickAt 557 acceptingBus) [infosysTick 558] rfl emitted
        result hemitted hresult (by rw [houtcome]; decide)).2.2

end TickEngine

end ApexScan
