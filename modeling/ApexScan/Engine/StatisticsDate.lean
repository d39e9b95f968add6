import ApexScan.Engine.ContextVersions

/-!
# The trading date of published session statistics

Ticks and quotes resolve the instrument's statistics against their own session, so a new date
starts clean.  A reference is stamped with the clock and carries the stored statistics over as they
are, so a rollover that a reference observes first publishes the previous day's statistics under
the new date.

* `SameDate` — a published context with session and statistics has them of one date.
* `ReferenceCurrent` — a reference onto an existing context finds statistics of the clock's date.

Main result: `published_statistics_date_iff`, over whole runs, raising subscribers included.
`reference_leaks_statistics` is a run in which a reference does not.
-/

set_option autoImplicit false

namespace ApexScan.TickEngine

open Lib

/-- The context published by a call has session and statistics of one date. -/
def SameDate (o : Option Emitted) : Prop :=
  ∀ c session statistics, publishedContext o = some c → c.session = some session →
    c.sessionStatistics = some statistics → statistics.tradingDate = session.tradingDate

/-- A reference onto an existing context finds no statistics, or those of the date that the
    classifier gives to the clock. -/
def ReferenceCurrent (e : TickEngine) : Op → Prop
  | .process (.reference r) now _ _ =>
    e.registry.isKnown r.instrument = true → (e.stateOf r.instrument).context.isSome = true →
      ∀ session statistics, e.sessionAt now = some session →
        (e.stateOf r.instrument).sessionStatistics = some statistics →
        statistics.tradingDate = session.tradingDate
  | _ => True

/-- Without a classifier no stored context has a session. -/
def Unclassified (e : TickEngine) : Prop :=
  e.session = none → ∀ i c, (e.stateOf i).context = some c → c.session = none

variable {e : TickEngine} {op : Op}

/-! ## The fields of an accepted context -/

theorem accepting_fields (e : TickEngine) (d : Datum) (observedAt : Int) :
    (e.accepting d observedAt).event.context.toContextFields = e.datumFields d observedAt :=
  (contextEvent_context _ _ _).1

theorem acceptingReference_fields (e : TickEngine) (r : MarketReference) (now : Int) :
    (e.acceptingReference r now).event.context.toContextFields = e.referenceFields r now :=
  (contextEvent_context _ _ _).1

/-- A tick or quote publishes statistics of its own session. -/
theorem datum_sameDate {d : Datum} {observedAt : Int} {session : SessionContext}
    {statistics : SessionStatistics} (hs : (e.datumFields d observedAt).session = some session)
    (hst : (e.datumFields d observedAt).sessionStatistics = some statistics) :
    statistics.tradingDate = session.tradingDate := by
  simp only [datumFields, sessionStatisticsFor] at hs hst
  rw [hs] at hst
  exact resolve_tradingDate hst

theorem sessionAt_eq_none {instant : Int} (h : e.sessionAt instant = none) : e.session = none := by
  simpa [sessionAt] using h

/-- A reference publishes one date iff the statistics it carries over are current. -/
theorem reference_sameDate_iff (h : Unclassified e) (r : MarketReference) (now : Int) :
    (∀ session statistics, (e.referenceFields r now).session = some session →
      (e.referenceFields r now).sessionStatistics = some statistics →
      statistics.tradingDate = session.tradingDate) ↔
    ((e.stateOf r.instrument).context.isSome = true →
      ∀ session statistics, e.sessionAt now = some session →
        (e.stateOf r.instrument).sessionStatistics = some statistics →
        statistics.tradingDate = session.tradingDate) := by
  unfold stateOf
  cases hc : (e.registry.stateFor r.instrument).context with
  | none => simp [referenceFields, hc]
  | some prior =>
    have hfields : (e.referenceFields r now).session = (e.sessionAt now).or prior.session ∧
        (e.referenceFields r now).sessionStatistics =
          (e.registry.stateFor r.instrument).sessionStatistics := by
      simp only [referenceFields, hc]
      exact ⟨trivial, trivial⟩
    rw [hfields.1, hfields.2]
    cases hs : e.sessionAt now with
    | none =>
      have hprior : prior.session = none := h (sessionAt_eq_none hs) r.instrument prior hc
      simp [hprior]
    | some session => simp

/-! ## Steps and runs -/

theorem sameDate_pending {i : Instrument} {p : Pending} (hp : pending e op = some (i, p)) :
    SameDate (step e op).2 ↔
      ∀ session statistics, p.event.context.session = some session →
        p.event.context.sessionStatistics = some statistics →
        statistics.tradingDate = session.tradingDate := by
  unfold SameDate
  rw [publishedContext_pending hp]
  constructor
  · intro h session statistics
    exact h _ session statistics rfl
  · intro h c session statistics hc
    rw [← Option.some.inj hc]
    exact h session statistics

/-- **The condition of a step decides the property of its output.** -/
theorem step_sameDate_iff (h : Unclassified e) (op : Op) :
    SameDate (step e op).2 ↔ ReferenceCurrent e op := by
  have hsilent : pending e op = none → SameDate (step e op).2 := by
    intro hp c _ _ hc
    rw [publishedContext_silent hp] at hc
    cases hc
  cases op with
  | process event now observedAt bus =>
    cases event with
    | reference r =>
      by_cases hknown : e.registry.isKnown r.instrument = true
      · have hp : pending e (.process (.reference r) now observedAt bus) =
            some (r.instrument, e.acceptingReference r now) := by
          simp [pending, hknown]
        rw [sameDate_pending hp, acceptingReference_fields, reference_sameDate_iff h]
        simp only [ReferenceCurrent, hknown, forall_const]
      · refine ⟨fun _ hk => absurd hk hknown, fun _ => hsilent ?_⟩
        simp [pending, hknown]
    | datum d =>
      refine ⟨fun _ => trivial, fun _ => ?_⟩
      by_cases hacc : classify d (e.registry.isKnown d.instrument) (e.registry.get d.instrument)
          now = .accept
      · have hp : pending e (.process (.datum d) now observedAt bus) =
            some (d.instrument, e.accepting d observedAt) := by
          simp [pending, hacc]
        rw [sameDate_pending hp, accepting_fields]
        exact fun session statistics => datum_sameDate
      · exact hsilent (by simp [pending, hacc])
  | _ => exact ⟨fun _ => trivial, fun _ => hsilent rfl⟩

theorem pending_unclassified (h : Unclassified e) (hnone : e.session = none) {i : Instrument}
    {p : Pending} (hp : pending e op = some (i, p)) : p.event.context.session = none := by
  have hat : ∀ t, e.sessionAt t = none := fun t => by simp [sessionAt, hnone]
  rcases pending_cases hp with ⟨r, now, _, _, -, rfl, -, rfl⟩ | ⟨d, _, observedAt, _, -, rfl, -, rfl⟩
  · rw [acceptingReference_fields]
    simp only [referenceFields]
    split
    · exact hat now
    · rename_i prior hprior
      simp [hat, h hnone r.instrument prior hprior]
  · rw [accepting_fields]
    exact hat d.eventTimestamp

theorem step_unclassified (h : Unclassified e) (op : Op) : Unclassified (step e op).1 := by
  intro hnone i c hc
  rw [(step_config e op).1] at hnone
  cases hp : pending e op with
  | none =>
    rw [((step_silent hp).2.2.2.2 i).1] at hc
    exact h hnone i c hc
  | some jp =>
    obtain ⟨j, p⟩ := jp
    rcases (step_pending hp).2.2 with ⟨_, -, -, -, hkeep⟩ | ⟨-, -, -, hstore⟩
    · rw [hkeep i] at hc
      exact h hnone i c hc
    · rw [hstore i] at hc
      split at hc
      · rw [(pending_spec hp).2.2.2] at hc
        rw [← Option.some.inj hc]
        exact pending_unclassified h hnone hp
      · exact h hnone i c hc

/-- **No previous-day statistics, exactly when references are current.**  In every run of a new
    engine, with any staging, authority and subscribers, all published contexts have session and
    statistics of one date iff every reference accepted onto an existing context finds no stored
    statistics of another date than the clock's. -/
theorem published_statistics_date_iff (known : List Instrument)
    (session : Option MarketSessionClassifier) (candles : Option CandleEngine)
    (authority : SessionStatisticsAuthority) (ops : List Op) :
    (∀ o ∈ outs step (create known session candles authority) ops, SameDate o) ↔
      Along step ReferenceCurrent (create known session candles authority) ops := by
  have hinit : Unclassified (create known session candles authority) := by
    intro _ i c hc
    cases hc
  exact outs_forall_iff (fun _ op h => step_unclassified h op)
    (fun _ op h => step_sameDate_iff h op) ops hinit

/-- The aggregate of a session that traded at one price. -/
def flatAggregate (price : Price) : ProviderSessionOhlc where
  openPrice := price
  highPrice := price
  lowPrice := price
  closePrice := price
  low_le_high := le_rfl
  open_within := ⟨le_rfl, le_rfl⟩
  close_within := ⟨le_rfl, le_rfl⟩

/-- A tick that carries a verified session aggregate on 2024-10-04. -/
def aggregateTick : Op :=
  .process (.datum (.tick { (sampleTick 555 (rupees 100)).1 with
      sessionOhlc := some (flatAggregate (rupees 100)) }))
    (20000 * day + 225 * minute) (20000 * day + 225 * minute) acceptingBus

/-- A reference of `reliance` received at 09:00 exchange time of a date. -/
def referenceOn (date : Int) (close : Price) : Op :=
  .process (.reference ⟨reliance, close⟩) (date * day + 210 * minute) (date * day + 210 * minute)
    acceptingBus

/-- A reference on 2024-10-07 republishes the statistics of 2024-10-04. -/
theorem reference_leaks_statistics :
    let e₀ := create [reliance] (some nseClassifier) none { tickAggregateVerified := true }
    ∃ c session statistics,
      publishedContext (step (step e₀ aggregateTick).1 (referenceOn 20003 (rupees 100))).2 =
        some c ∧ c.session = some session ∧ c.sessionStatistics = some statistics ∧
      statistics.tradingDate = 20000 ∧ session.tradingDate = 20003 := by
  exact ⟨_, _, _, rfl, rfl, rfl, rfl, rfl⟩

end ApexScan.TickEngine
