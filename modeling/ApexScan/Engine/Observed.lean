import ApexScan.Engine.StatisticsDate

/-!
# A passive observer on the bus of the engine

An observer subscribes to both context events and never raises.  It stands somewhere in the order of the
subscribers: an exception of one before it keeps the event from it, one of a later subscriber does not.

* `withObserver` — a call of the engine with the observer among the subscribers; `handed` — the context
  the observer is handed, with the event that it was published for.
* `exchangeDate` — the exchange-local date of an instant.

Result: `handed_stamped` — a context handed over for a tick carries this tick, its timestamp and the date
of it.
-/

set_option autoImplicit false

namespace ApexScan.TickEngine

open Lib

/-- A context as an observer is handed it, with the event that it was published for. -/
structure Handed where
  event : CanonicalEvent
  context : MarketContext

/-- The subscribers of one bus, and then those of another one. -/
def busThen (bus later : EventBus) : EventBus where
  onCreated := bus.onCreated ++ later.onCreated
  onUpdated := bus.onUpdated ++ later.onUpdated

/-- The observer alone: it never raises. -/
def observerBus : EventBus where
  onCreated := [fun _ => .ok ()]
  onUpdated := [fun _ => .ok ()]

/-- A call whose bus has the subscribers before the observer, with the observer, when it is attached, and
    the later ones put behind them. -/
def withObserver (attached : Bool) (later : EventBus) : Op → Op
  | .process event now observedAt earlier =>
    .process event now observedAt
      (busThen earlier (if attached then busThen observerBus later else later))
  | op => op

/-- What the observer is handed of a published event. -/
def handed (attached : Bool) (op : Op) (published : Option ContextEvent) : Option Handed :=
  match op with
  | .process event _ _ earlier =>
    published.bind fun p =>
      match attached, earlier.publish p with
      | true, .ok _ => some ⟨event, p.context⟩
      | _, _ => none
  | _ => none

/-- The exchange-local date of an instant, with a classifier. -/
def exchangeDate (session : Option MarketSessionClassifier) (instant : Int) : Option Int :=
  session.map fun c => wallDate (c.timezone.toLocal instant)

variable {e : TickEngine} {op : Op} {attached : Bool} {later : EventBus}

/-- Who subscribes does not change what is accepted. -/
theorem pending_withObserver : pending e (withObserver attached later op) = pending e op := by
  cases op with
  | process event now observedAt bus => cases event <;> rfl
  | _ => rfl

theorem sessionAt_exchangeDate (e : TickEngine) (instant : Int) :
    (e.sessionAt instant).map (·.tradingDate) = exchangeDate e.session instant := by
  unfold sessionAt exchangeDate
  cases e.session <;> rfl

/-- **What an observer is handed** is what an accepted event publishes. -/
theorem handed_cases {h : Handed}
    (hh : handed attached op (publishedBy (step e (withObserver attached later op)).2) = some h) :
    attached = true ∧ ∃ i p now observedAt bus, op = .process h.event now observedAt bus ∧
      pending e op = some (i, p) ∧ h.context = p.event.context := by
  cases op with
  | process event now observedAt earlier =>
    obtain ⟨published, hpublished, hh⟩ := Option.bind_eq_some_iff.mp hh
    split at hh
    · cases hh
      cases hpending : pending e (.process event now observedAt earlier) with
      | none =>
        rw [← @pending_withObserver e _ true later] at hpending
        rw [(step_silent hpending).1] at hpublished
        cases hpublished
      | some accepted =>
        obtain ⟨i, p⟩ := accepted
        have hwith := hpending
        rw [← @pending_withObserver e _ true later] at hwith
        rw [(step_pending hwith).1] at hpublished
        cases hpublished
        exact ⟨rfl, i, p, now, observedAt, earlier, rfl, rfl, rfl⟩
    · cases hh
  | _ => cases hh

/-- The session of the context is that of its timestamp, and the context of a tick carries the tick and its
    timestamp. -/
def Handed.Stamped (session : Option MarketSessionClassifier) (h : Handed) : Prop :=
  h.context.session.map (·.tradingDate) = exchangeDate session h.context.eventTimestamp ∧
    ∀ t, h.event = .datum (.tick t) →
      h.context.latestTick = some t ∧ h.context.eventTimestamp = t.eventTimestamp

/-- **Every context that is handed over** has the date of its timestamp, and the tick it is for. -/
theorem handed_stamped (hun : Unclassified e) {h : Handed}
    (hh : handed attached op (publishedBy (step e (withObserver attached later op)).2) = some h) :
    h.Stamped e.session := by
  obtain ⟨-, i, p, now', observedAt, bus, hop, hp, hcontext⟩ := handed_cases hh
  unfold Handed.Stamped
  rw [hcontext]
  rcases pending_cases hp with ⟨r, now, _, _, hop', -, -, rfl⟩ | ⟨d, _, at', _, hop', -, -, rfl⟩
  · obtain ⟨hevent, rfl, -, -⟩ := Op.process.inj (hop'.symm.trans hop)
    refine ⟨?_, by rw [← hevent]; simp⟩
    cases hs : e.session with
    | none =>
      rw [pending_unclassified hun hs hp]
      rfl
    | some c =>
      rw [acceptingReference_fields, ← hs, ← sessionAt_exchangeDate]
      have hat : ∃ session, e.sessionAt now = some session := by
        simp [sessionAt, hs]
      obtain ⟨session, hat⟩ := hat
      unfold referenceFields
      simp only [hat]
      split
      · rw [hat]
      · rw [hat]
        rfl
  · obtain ⟨hevent, -, -, -⟩ := Op.process.inj (hop'.symm.trans hop)
    rw [accepting_fields]
    refine ⟨sessionAt_exchangeDate e d.eventTimestamp, ?_⟩
    intro t ht
    cases hevent.trans ht
    exact ⟨rfl, rfl⟩

end ApexScan.TickEngine
