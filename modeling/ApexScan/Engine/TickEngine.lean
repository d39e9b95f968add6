import ApexScan.Engine.CandleEngine
import ApexScan.Engine.SessionStatistics
import ApexScan.Historical.Context

/-!
# Event routing and `MarketContext` progression

Models `app/market_engine/tick_engine.py` with the parts it drives: the context and its versions
(`context.py`), front-door validation (`validation.py`), per-instrument state (`state.py`), the
synchronous bus (`app/events/bus.py`) and the decision counters (`tick_diagnostics.py`).

* `Pending` — what an accepted event is about to publish and then store.  The source builds it
  field by field in `_accept` and `_accept_reference`; `accepting` and `acceptingReference` are the
  two bodies up to the publication.
* `commit` — the publication and the writes after it.  A subscriber that raises leaves the
  sequence, the counters and the candle engine advanced and the instrument's state unwritten.
* `TickEngine.step` — every call that reaches the engine, its registry or its candle engine.  The
  clock readings and the subscribers of the moment are part of the operation.

Principal results: `step_silent`, `step_pending` — what a step does to the instrument states, the
sequence and the bus, without and with an accepted event.  `latest_candle`, `facts`, `metadata` and
`is_valid` of a context are never set by the engine and are left out.
-/

set_option autoImplicit false

namespace ApexScan

open Lib

/-! ## Contexts -/

/-- The keyword arguments shared by `MarketContext.initial` and `MarketContext.with_update`. -/
structure ContextFields where
  sequence : ℕ
  eventTimestamp : Int
  observedAt : Int
  latestTick : Option Tick := none
  latestQuote : Option Quote := none
  candleSets : List TimeframeCandles := []
  session : Option SessionContext := none
  historical : Option HistoricalContext := none
  sessionStatistics : Option SessionStatistics := none
  previousClose : Option Price := none

/-- An immutable, versioned snapshot of one instrument. -/
structure MarketContext extends ContextFields where
  instrument : Instrument
  version : ℕ
  version_pos : 1 ≤ version

namespace MarketContext

/-- `MarketContext.initial`. -/
def initial (instrument : Instrument) (fields : ContextFields) : MarketContext :=
  { fields with instrument, version := 1, version_pos := Nat.le_refl 1 }

/-- `MarketContext.with_update`. -/
def withUpdate (c : MarketContext) (fields : ContextFields) : MarketContext :=
  { fields with instrument := c.instrument, version := c.version + 1, version_pos := by omega }

end MarketContext

/-! ## The bus -/

/-- `MarketContextCreated` and `MarketContextUpdated`. -/
inductive ContextEvent where
  | created (context : MarketContext)
  | updated (context : MarketContext) (previousVersion : ℕ)

def ContextEvent.context : ContextEvent → MarketContext
  | created c => c
  | updated c _ => c

/-- A subscriber; `error` is an exception. -/
abbrev Handler := ContextEvent → Except String Unit

/-- The subscribers of the two context events, in subscription order. -/
structure EventBus where
  onCreated : List Handler := []
  onUpdated : List Handler := []

/-- `EventBus.publish`: the subscribers of the event's type in order; an exception propagates. -/
def EventBus.publish (bus : EventBus) (event : ContextEvent) : Except String Unit :=
  (match event with
    | .created _ => bus.onCreated
    | .updated _ _ => bus.onUpdated).forM fun handler => handler event

/-! ## Instrument state -/

/-- `InstrumentState`. -/
structure InstrumentState where
  instrument : Instrument
  latestTick : Option Tick := none
  latestQuote : Option Quote := none
  lastEventTimestamp : Option Int := none
  lastSequence : Option ℕ := none
  context : Option MarketContext := none
  historical : Option HistoricalContext := none
  sessionStatistics : Option SessionStatistics := none
  stagedSessionStatisticsObservation : Option SessionStatisticsObservation := none

/-- `InstrumentStateRegistry`. -/
structure InstrumentStateRegistry where
  known : List Instrument
  states : Dict Instrument InstrumentState := []

namespace InstrumentStateRegistry

def isKnown (r : InstrumentStateRegistry) (i : Instrument) : Bool := decide (i ∈ r.known)

def get (r : InstrumentStateRegistry) (i : Instrument) : Option InstrumentState := r.states.get i

/-- The instrument's state as `ensure` returns it: empty on first use. -/
def stateFor (r : InstrumentStateRegistry) (i : Instrument) : InstrumentState :=
  (r.get i).getD { instrument := i }

def put (r : InstrumentStateRegistry) (i : Instrument) (state : InstrumentState) :
    InstrumentStateRegistry :=
  { r with states := r.states.set i state }

/-- The effect of `ensure`. -/
def ensure (r : InstrumentStateRegistry) (i : Instrument) : InstrumentStateRegistry :=
  r.put i (r.stateFor i)

theorem stateFor_put (r : InstrumentStateRegistry) (i j : Instrument) (s : InstrumentState) :
    (r.put i s).stateFor j = if i = j then s else r.stateFor j := by
  unfold stateFor put get
  rw [Dict.get_set]
  split <;> rfl

@[simp] theorem stateFor_ensure (r : InstrumentStateRegistry) (i j : Instrument) :
    (r.ensure i).stateFor j = r.stateFor j := by
  unfold ensure
  rw [stateFor_put]
  split
  · rename_i h
    rw [h]
  · rfl

/-- `install_historical`; nothing changes when it raises `ValueError`. -/
def installHistorical (r : InstrumentStateRegistry) (i : Instrument) (h : HistoricalContext) :
    InstrumentStateRegistry :=
  if h.instrument ≠ i then r else r.put i { r.stateFor i with historical := some h }

/-- `stage_session_statistics_observation`: an older observation is ignored, a different one at the
    same instant raises `ValueError` (the empty state made by `ensure` stays). -/
def stageSessionStatisticsObservation (r : InstrumentStateRegistry) (i : Instrument)
    (observation : SessionStatisticsObservation) : InstrumentStateRegistry :=
  if observation.instrument ≠ i then r
  else
    let staged := r.put i
      { r.stateFor i with stagedSessionStatisticsObservation := some observation }
    match (r.stateFor i).stagedSessionStatisticsObservation with
    | none => staged
    | some current =>
      if observation.observedAt < current.observedAt then r.ensure i
      else if observation.observedAt = current.observedAt ∧ observation ≠ current then r.ensure i
      else staged

end InstrumentStateRegistry

/-! ## Validation -/

inductive ValidationOutcome where
  | accept
  | duplicate
  | stale
  | invalid
  deriving DecidableEq, Repr

/-- `Tick | Quote`. -/
inductive Datum where
  | tick (t : Tick)
  | quote (q : Quote)
  deriving DecidableEq

namespace Datum

def instrument : Datum → Instrument
  | tick t => t.instrument
  | quote q => q.instrument

def eventTimestamp : Datum → Int
  | tick t => t.eventTimestamp
  | quote q => q.eventTimestamp

/-- The session aggregate of the datum; only a tick carries one. -/
def sessionOhlc : Datum → Option ProviderSessionOhlc
  | tick t => t.sessionOhlc
  | quote _ => none

/-- `_is_duplicate`. -/
def isDuplicate (d : Datum) (state : InstrumentState) : Bool :=
  match d with
  | tick t => decide (some t = state.latestTick)
  | quote q => decide (some q = state.latestQuote)

end Datum

/-- `_MAX_FUTURE_SKEW`. -/
def maxFutureSkew : Int := minute

/-- `classify`. -/
def classify (event : Datum) (known : Bool) (state : Option InstrumentState) (now : Int) :
    ValidationOutcome :=
  if !known then .invalid
  else if event.eventTimestamp > now + maxFutureSkew then .invalid
  else
    match state with
    | none => .accept
    | some state =>
      if event.isDuplicate state then .duplicate
      else
        match state.lastEventTimestamp with
        | none => .accept
        | some last => if event.eventTimestamp < last then .stale else .accept

/-! ## Decision counters -/

/-- `TickEngineDecisionCounters`; the clock delta is kept in microseconds. -/
structure TickEngineDecisionCounters where
  ticksReceived : ℕ := 0
  ticksAccepted : ℕ := 0
  byReason : ValidationOutcome → ℕ := fun _ => 0
  referencesReceived : ℕ := 0
  referencesAccepted : ℕ := 0
  referencesRejected : ℕ := 0
  lastAcceptedEventTimestamp : Option Int := none
  lastRejectedReason : Option ValidationOutcome := none
  lastRejectedEventTimestamp : Option Int := none
  lastRejectionObservedAt : Option Int := none
  lastRejectedDelta : Option Int := none

namespace TickEngineDecisionCounters

/-- `record_tick`. -/
def recordTick (c : TickEngineDecisionCounters) (outcome : ValidationOutcome)
    (eventTimestamp now : Int) : TickEngineDecisionCounters :=
  let c := { c with ticksReceived := c.ticksReceived + 1 }
  if outcome = .accept then
    { c with
      ticksAccepted := c.ticksAccepted + 1
      lastAcceptedEventTimestamp := some eventTimestamp }
  else
    { c with
      byReason := fun r => if r = outcome then c.byReason r + 1 else c.byReason r
      lastRejectedReason := some outcome
      lastRejectedEventTimestamp := some eventTimestamp
      lastRejectionObservedAt := some now
      lastRejectedDelta := some (eventTimestamp - now) }

/-- `record_reference`. -/
def recordReference (c : TickEngineDecisionCounters) (outcome : ValidationOutcome) :
    TickEngineDecisionCounters :=
  let c := { c with referencesReceived := c.referencesReceived + 1 }
  if outcome = .accept then { c with referencesAccepted := c.referencesAccepted + 1 }
  else { c with referencesRejected := c.referencesRejected + 1 }

end TickEngineDecisionCounters

/-! ## The engine -/

/-- `TickEngine`, with a `MonotonicSequence`. -/
structure TickEngine where
  registry : InstrumentStateRegistry
  session : Option MarketSessionClassifier := none
  authority : SessionStatisticsAuthority := {}
  sequence : ℕ := 0
  candles : Option CandleEngine := none
  haltActive : Bool := false
  diagnostics : TickEngineDecisionCounters := {}

/-- `Tick | Quote | MarketReference`. -/
inductive CanonicalEvent where
  | datum (d : Datum)
  | reference (r : MarketReference)

structure ProcessResult where
  outcome : ValidationOutcome
  context : Option MarketContext

/-- What an observer sees of a call: the event handed to the bus and the result; `error` when the
    call raised. -/
structure Emitted where
  published : Option ContextEvent := none
  result : Except String ProcessResult

/-- An accepted event just before its publication: the candle engine it has already updated, the
    event to publish and the state to store afterwards. -/
structure Pending where
  candles : Option CandleEngine
  event : ContextEvent
  state : InstrumentState

/-- `_merge`. -/
def merge (event : Datum) (state : InstrumentState) : Option Tick × Option Quote :=
  match event with
  | .tick t => (some t, state.latestQuote)
  | .quote q => (state.latestTick, some q)

/-- `_carried_previous_close`. -/
def carriedPreviousClose (prior : MarketContext) (newSession : Option SessionContext) :
    Option Price :=
  match newSession, prior.session with
  | some new, some old => if new.tradingDate ≠ old.tradingDate then none else prior.previousClose
  | _, _ => prior.previousClose

/-- The event of a new context: created without a prior context, updated with one. -/
def contextEvent (instrument : Instrument) (prior : Option MarketContext) (fields : ContextFields) :
    ContextEvent :=
  match prior with
  | none => .created (MarketContext.initial instrument fields)
  | some prior => .updated (prior.withUpdate fields) prior.version

namespace TickEngine

/-- `_session_for`, at the instant a context is stamped with. -/
def sessionAt (e : TickEngine) (instant : Int) : Option SessionContext :=
  e.session.map (·.classify instant e.haltActive)

/-- The candle engine after `_candle_sets_for`: only a trade tick with a session updates it. -/
def candlesAfter (e : TickEngine) (event : Datum) (session : Option SessionContext) :
    Option CandleEngine :=
  match event, session with
  | .tick t, some session => e.candles.map (·.update t session)
  | _, _ => e.candles

/-- The sets `_candle_sets_for` returns. -/
def candleSets (candles : Option CandleEngine) (i : Instrument) : List TimeframeCandles :=
  match candles with
  | none => []
  | some candles => candles.candleSetsFor i

/-- `_session_statistics_for`. -/
def sessionStatisticsFor (e : TickEngine) (event : Datum) :
    Option SessionStatistics × Option SessionStatisticsObservation :=
  let state := e.registry.stateFor event.instrument
  resolveSessionStatistics event.sessionOhlc event.eventTimestamp
    state.stagedSessionStatisticsObservation (e.sessionAt event.eventTimestamp)
    state.sessionStatistics e.authority

/-- The arguments `_accept` gives to the new context. -/
def datumFields (e : TickEngine) (event : Datum) (observedAt : Int) : ContextFields :=
  let state := e.registry.stateFor event.instrument
  let session := e.sessionAt event.eventTimestamp
  { sequence := e.sequence + 1
    eventTimestamp := event.eventTimestamp
    observedAt := observedAt
    latestTick := (merge event state).1
    latestQuote := (merge event state).2
    candleSets := candleSets (e.candlesAfter event session) event.instrument
    session := session
    historical := state.historical
    sessionStatistics := (e.sessionStatisticsFor event).1
    previousClose := state.context.bind (carriedPreviousClose · session) }

/-- `_accept`, up to the publication. -/
def accepting (e : TickEngine) (event : Datum) (observedAt : Int) : Pending :=
  let state := e.registry.stateFor event.instrument
  let published := contextEvent event.instrument state.context (e.datumFields event observedAt)
  { candles := e.candlesAfter event (e.sessionAt event.eventTimestamp)
    event := published
    state := { state with
      latestTick := (merge event state).1
      latestQuote := (merge event state).2
      lastEventTimestamp := some event.eventTimestamp
      lastSequence := some (e.sequence + 1)
      context := some published.context
      sessionStatistics := (e.sessionStatisticsFor event).1
      stagedSessionStatisticsObservation := (e.sessionStatisticsFor event).2 } }

/-- The arguments `_accept_reference` gives to the new context: stamped with the clock; tick, quote,
    candles and statistics are carried over from an existing context. -/
def referenceFields (e : TickEngine) (event : MarketReference) (now : Int) : ContextFields :=
  let state := e.registry.stateFor event.instrument
  let session := e.sessionAt now
  match state.context with
  | none =>
    { sequence := e.sequence + 1
      eventTimestamp := now
      observedAt := now
      session := session
      historical := state.historical
      previousClose := some event.previousClose }
  | some prior =>
    { sequence := e.sequence + 1
      eventTimestamp := now
      observedAt := now
      latestTick := state.latestTick
      latestQuote := state.latestQuote
      candleSets := prior.candleSets
      session := session.or prior.session
      historical := state.historical
      sessionStatistics := state.sessionStatistics
      previousClose := some event.previousClose }

/-- `_accept_reference` of a known instrument, up to the publication. -/
def acceptingReference (e : TickEngine) (event : MarketReference) (now : Int) : Pending :=
  let state := e.registry.stateFor event.instrument
  let published := contextEvent event.instrument state.context (e.referenceFields event now)
  { candles := e.candles
    event := published
    state := { state with
      lastSequence := some (e.sequence + 1)
      context := some published.context } }

/-- Publication and the writes that follow it. -/
def commit (e : TickEngine) (i : Instrument) (p : Pending) (bus : EventBus) : TickEngine × Emitted :=
  let advanced := { e with
    registry := e.registry.ensure i, sequence := e.sequence + 1, candles := p.candles }
  match bus.publish p.event with
  | .error raised => (advanced, { published := some p.event, result := .error raised })
  | .ok _ =>
    ({ advanced with registry := e.registry.put i p.state },
     { published := some p.event,
       result := .ok { outcome := .accept, context := some p.event.context } })

/-- `process`.  `now` and `observedAt` are the two clock readings of an accepted tick or quote; a
    reference reads the clock once. -/
def process (e : TickEngine) (event : CanonicalEvent) (now observedAt : Int) (bus : EventBus) :
    TickEngine × Emitted :=
  match event with
  | .reference r =>
    if e.registry.isKnown r.instrument then
      let (e', emitted) := e.commit r.instrument (e.acceptingReference r now) bus
      match emitted.result with
      -- a raising publication leaves `process` before the reference is counted
      | .error _ => (e', emitted)
      | .ok _ => ({ e' with diagnostics := e'.diagnostics.recordReference .accept }, emitted)
    else
      ({ e with diagnostics := e.diagnostics.recordReference .invalid },
       { result := .ok { outcome := .invalid, context := none } })
  | .datum d =>
    let outcome := classify d (e.registry.isKnown d.instrument) (e.registry.get d.instrument) now
    let counted := { e with
      diagnostics := e.diagnostics.recordTick outcome d.eventTimestamp now }
    if outcome = .accept then counted.commit d.instrument (counted.accepting d observedAt) bus
    else (counted, { result := .ok { outcome, context := none } })

/-- `on_feed_continuity`. -/
def onFeedContinuity (e : TickEngine) (event : FeedContinuityEvent) : TickEngine :=
  { e with candles := e.candles.map (·.recordContinuity event) }

/-- Every call that reaches the engine, its registry or its candle engine. -/
inductive Op where
  | process (event : CanonicalEvent) (now observedAt : Int) (bus : EventBus)
  | setHalt (active : Bool)
  | onFeedContinuity (event : FeedContinuityEvent)
  | installHistorical (instrument : Instrument) (historical : HistoricalContext)
  | stageSessionStatistics (instrument : Instrument) (observation : SessionStatisticsObservation)
  | candles (op : CandleEngine.Op)

/-- One call. -/
def step (e : TickEngine) : Op → TickEngine × Option Emitted
  | .process event now observedAt bus =>
    let (e', emitted) := e.process event now observedAt bus
    (e', some emitted)
  | .setHalt active => ({ e with haltActive := active }, none)
  | .onFeedContinuity event => (e.onFeedContinuity event, none)
  | .installHistorical i h => ({ e with registry := e.registry.installHistorical i h }, none)
  | .stageSessionStatistics i o =>
    ({ e with registry := e.registry.stageSessionStatisticsObservation i o }, none)
  | .candles op => ({ e with candles := e.candles.map fun c => (c.step op).1 }, none)

/-- `TickEngine(...)` over a fresh registry. -/
def create (known : List Instrument) (session : Option MarketSessionClassifier)
    (candles : Option CandleEngine) (authority : SessionStatisticsAuthority) : TickEngine where
  registry := { known }
  session := session
  authority := authority
  candles := candles

/-! ## What a step does -/

/-- The state of an instrument, empty before its first use. -/
def stateOf (e : TickEngine) (i : Instrument) : InstrumentState := e.registry.stateFor i

/-- The event that the call accepts, with its instrument. -/
def pending (e : TickEngine) : Op → Option (Instrument × Pending)
  | .process (.reference r) now _ _ =>
    if e.registry.isKnown r.instrument then some (r.instrument, e.acceptingReference r now)
    else none
  | .process (.datum d) now observedAt _ =>
    if classify d (e.registry.isKnown d.instrument) (e.registry.get d.instrument) now = .accept then
      some (d.instrument, e.accepting d observedAt)
    else none
  | _ => none

/-- The subscribers at the time of the call. -/
def busOf : Op → EventBus
  | .process _ _ _ bus => bus
  | _ => {}

/-- The event the call hands to the bus. -/
def publishedBy (o : Option Emitted) : Option ContextEvent := o.bind (·.published)

/-- The context the call returns, when it accepts and does not raise. -/
def acceptedBy (o : Option Emitted) : Option MarketContext :=
  o.bind fun emitted => match emitted.result with
    | .ok result => result.context
    | .error _ => none

/-- Whether the call raised. -/
def raisedBy (o : Option Emitted) : Bool :=
  match o with
  | some { result := .error _, .. } => true
  | _ => false

variable {e : TickEngine} {op : Op}

theorem step_config (e : TickEngine) (op : Op) :
    (step e op).1.session = e.session ∧ (step e op).1.registry.known = e.registry.known := by
  cases op with
  | process event now observedAt bus =>
    cases event with
    | reference r =>
      simp only [step, process, commit]
      split
      · cases bus.publish (e.acceptingReference r now).event <;> exact ⟨rfl, rfl⟩
      · exact ⟨rfl, rfl⟩
    | datum d =>
      simp only [step, process, commit]
      split
      · split <;> exact ⟨rfl, rfl⟩
      · exact ⟨rfl, rfl⟩
  | installHistorical i h =>
    simp only [step, InstrumentStateRegistry.installHistorical]
    split <;> exact ⟨trivial, rfl⟩
  | stageSessionStatistics i o =>
    simp only [step, InstrumentStateRegistry.stageSessionStatisticsObservation]
    split
    · exact ⟨trivial, rfl⟩
    · split
      · exact ⟨trivial, rfl⟩
      · split
        · exact ⟨trivial, rfl⟩
        · split <;> exact ⟨trivial, rfl⟩
  | _ => exact ⟨rfl, rfl⟩

/-- The part of the configuration that resolutions read: only the halt ever changes. -/
theorem step_settings (e : TickEngine) (op : Op) :
    (step e op).1.session = e.session ∧ (step e op).1.authority = e.authority ∧
      (step e op).1.haltActive =
        match op with
        | .setHalt active => active
        | _ => e.haltActive := by
  cases op with
  | process event now observedAt bus =>
    cases event with
    | reference r =>
      simp only [step, process, commit]
      split
      · cases bus.publish (e.acceptingReference r now).event <;> exact ⟨rfl, rfl, rfl⟩
      · exact ⟨rfl, rfl, rfl⟩
    | datum d =>
      simp only [step, process, commit]
      split
      · split <;> exact ⟨rfl, rfl, rfl⟩
      · exact ⟨rfl, rfl, rfl⟩
  | _ => exact ⟨rfl, rfl, rfl⟩

/-- A call that accepts nothing keeps whatever an instrument's state holds besides the historical
    snapshot and the staging slot. -/
theorem step_silent_keeps {δ : Type} {f : InstrumentState → δ}
    (hhistorical : ∀ s h, f { s with historical := h } = f s)
    (hstaged : ∀ s o, f { s with stagedSessionStatisticsObservation := o } = f s)
    (h : pending e op = none) (i : Instrument) :
    f ((step e op).1.stateOf i) = f (e.stateOf i) := by
  have hput : ∀ (j : Instrument) (s : InstrumentState), f s = f (e.registry.stateFor j) →
      f ((e.registry.put j s).stateFor i) = f (e.registry.stateFor i) := by
    intro j s hs
    rw [InstrumentStateRegistry.stateFor_put]
    split
    · rename_i hji
      rw [hs, hji]
    · rfl
  cases op with
  | process event now observedAt bus =>
    cases event with
    | reference r =>
      simp only [pending, ite_eq_right_iff, reduceCtorEq, imp_false] at h
      simp only [step, process, h, if_false, Bool.false_eq_true]
      rfl
    | datum d =>
      simp only [pending, ite_eq_right_iff, reduceCtorEq, imp_false] at h
      simp only [step, process, h, if_false]
      rfl
  | installHistorical j hist =>
    simp only [step, stateOf, InstrumentStateRegistry.installHistorical]
    split
    · rfl
    · exact hput j _ (hhistorical _ _)
  | stageSessionStatistics j o =>
    simp only [step, stateOf, InstrumentStateRegistry.stageSessionStatisticsObservation]
    split
    · rfl
    · split
      · exact hput j _ (hstaged _ _)
      · split
        · rw [InstrumentStateRegistry.stateFor_ensure]
        · split
          · rw [InstrumentStateRegistry.stateFor_ensure]
          · exact hput j _ (hstaged _ _)
  | _ => rfl

/-- A call that accepts nothing publishes nothing and leaves contexts and statistics alone. -/
theorem step_silent (h : pending e op = none) :
    publishedBy (step e op).2 = none ∧ acceptedBy (step e op).2 = none ∧
      raisedBy (step e op).2 = false ∧ (step e op).1.sequence = e.sequence ∧
      ∀ i, ((step e op).1.stateOf i).context = (e.stateOf i).context ∧
        ((step e op).1.stateOf i).sessionStatistics = (e.stateOf i).sessionStatistics := by
  have hkeep : ∀ i, ((step e op).1.stateOf i).context = (e.stateOf i).context ∧
      ((step e op).1.stateOf i).sessionStatistics = (e.stateOf i).sessionStatistics := fun i =>
    ⟨step_silent_keeps (f := (·.context)) (fun _ _ => rfl) (fun _ _ => rfl) h i,
      step_silent_keeps (f := (·.sessionStatistics)) (fun _ _ => rfl) (fun _ _ => rfl) h i⟩
  cases op with
  | process event now observedAt bus =>
    cases event with
    | reference r =>
      simp only [pending, ite_eq_right_iff, reduceCtorEq, imp_false] at h
      refine ⟨?_, ?_, ?_, ?_, hkeep⟩ <;>
        simp [step, process, h, publishedBy, acceptedBy, raisedBy]
    | datum d =>
      simp only [pending, ite_eq_right_iff, reduceCtorEq, imp_false] at h
      refine ⟨?_, ?_, ?_, ?_, hkeep⟩ <;>
        simp [step, process, h, publishedBy, acceptedBy, raisedBy]
  | _ => exact ⟨rfl, rfl, rfl, rfl, hkeep⟩

/-- An accepted event is a reference of a known instrument or a datum that validation accepts. -/
theorem pending_cases {i : Instrument} {p : Pending} (h : pending e op = some (i, p)) :
    (∃ r now observedAt bus, op = .process (.reference r) now observedAt bus ∧ r.instrument = i ∧
      e.registry.isKnown r.instrument = true ∧ p = e.acceptingReference r now) ∨
    (∃ d now observedAt bus, op = .process (.datum d) now observedAt bus ∧ d.instrument = i ∧
      classify d (e.registry.isKnown d.instrument) (e.registry.get d.instrument) now = .accept ∧
      p = e.accepting d observedAt) := by
  cases op with
  | process event now observedAt bus =>
    cases event with
    | reference r =>
      simp only [pending, Option.ite_none_right_eq_some, Option.some.injEq, Prod.mk.injEq] at h
      exact Or.inl ⟨r, now, observedAt, bus, rfl, h.2.1, h.1, h.2.2.symm⟩
    | datum d =>
      simp only [pending, Option.ite_none_right_eq_some, Option.some.injEq, Prod.mk.injEq] at h
      exact Or.inr ⟨d, now, observedAt, bus, rfl, h.2.1, h.1, h.2.2.symm⟩
  | _ => cases h

/-- **A call that accepts an event**: the event is handed to the bus; a raising subscriber leaves
    every instrument state as it was, otherwise the new state is stored. -/
theorem step_pending {i : Instrument} {p : Pending} (h : pending e op = some (i, p)) :
    publishedBy (step e op).2 = some p.event ∧ (step e op).1.sequence = e.sequence + 1 ∧
      ((∃ raised, (busOf op).publish p.event = .error raised ∧ raisedBy (step e op).2 = true ∧
          acceptedBy (step e op).2 = none ∧ ∀ j, (step e op).1.stateOf j = e.stateOf j) ∨
        ((busOf op).publish p.event = .ok () ∧ raisedBy (step e op).2 = false ∧
          acceptedBy (step e op).2 = some p.event.context ∧
          ∀ j, (step e op).1.stateOf j = if i = j then p.state else e.stateOf j)) := by
  rcases pending_cases h with
    ⟨r, now, observedAt, bus, rfl, rfl, hknown, rfl⟩ | ⟨d, now, observedAt, bus, rfl, rfl, haccept, rfl⟩
  · simp only [step, process, hknown, if_true, commit, busOf]
    cases hp : bus.publish (e.acceptingReference r now).event with
    | error raised =>
      refine ⟨rfl, rfl, Or.inl ⟨raised, rfl, rfl, rfl, fun j => ?_⟩⟩
      exact InstrumentStateRegistry.stateFor_ensure _ _ _
    | ok _ =>
      refine ⟨rfl, rfl, Or.inr ⟨rfl, rfl, rfl, fun j => ?_⟩⟩
      exact InstrumentStateRegistry.stateFor_put _ _ _ _
  · simp only [step, process, haccept, if_true, commit, busOf]
    have hsame : ({ e with
        diagnostics := e.diagnostics.recordTick .accept d.eventTimestamp now } :
        TickEngine).accepting d observedAt = e.accepting d observedAt := rfl
    rw [hsame]
    cases hp : bus.publish (e.accepting d observedAt).event with
    | error raised =>
      refine ⟨rfl, rfl, Or.inl ⟨raised, rfl, rfl, rfl, fun j => ?_⟩⟩
      exact InstrumentStateRegistry.stateFor_ensure _ _ _
    | ok _ =>
      refine ⟨rfl, rfl, Or.inr ⟨rfl, rfl, rfl, fun j => ?_⟩⟩
      exact InstrumentStateRegistry.stateFor_put _ _ _ _

/-- The version a context is published with: one more than the stored one. -/
def versionOf (context : Option MarketContext) : ℕ := (context.map (·.version)).getD 0

theorem contextEvent_context (i : Instrument) (prior : Option MarketContext) (fields : ContextFields) :
    (contextEvent i prior fields).context.toContextFields = fields ∧
      (contextEvent i prior fields).context.version = versionOf prior + 1 ∧
      (contextEvent i prior fields).context.instrument = (prior.map (·.instrument)).getD i := by
  cases prior <;> exact ⟨rfl, rfl, rfl⟩

/-- What every accepted event publishes and stores. -/
theorem pending_spec {i : Instrument} {p : Pending} (h : pending e op = some (i, p)) :
    p.event.context.version = versionOf (e.stateOf i).context + 1 ∧
      p.event.context.instrument = ((e.stateOf i).context.map (·.instrument)).getD i ∧
      p.event.context.sequence = e.sequence + 1 ∧ p.state.context = some p.event.context := by
  have hevent : ∃ fields : ContextFields, fields.sequence = e.sequence + 1 ∧
      p.event = contextEvent i (e.stateOf i).context fields ∧
      p.state.context = some p.event.context := by
    rcases pending_cases h with ⟨r, now, _, _, -, rfl, -, rfl⟩ | ⟨d, _, observedAt, _, -, rfl, -, rfl⟩
    · refine ⟨e.referenceFields r now, ?_, rfl, rfl⟩
      simp only [referenceFields]
      split <;> rfl
    · exact ⟨e.datumFields d observedAt, rfl, rfl, rfl⟩
  obtain ⟨fields, hseq, hev, hctx⟩ := hevent
  obtain ⟨hfields, hversion, hinstrument⟩ := contextEvent_context i (e.stateOf i).context fields
  rw [← hev] at hfields hversion hinstrument
  exact ⟨hversion, hinstrument, by rw [hfields, hseq], hctx⟩

end TickEngine

end ApexScan
