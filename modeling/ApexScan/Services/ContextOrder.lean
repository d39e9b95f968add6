import ApexScan.Engine.PreviousClose
import ApexScan.Engine.StatisticsRun
import ApexScan.Services.SectorObservations

/-!
# Context time and consumers that order by it

Ticks and quotes are stamped with their event time and checked against the last tick or quote;
references are stamped with the clock and neither checked nor remembered.  Context time can therefore
go back only between a reference and a tick or quote.

* `readings` — the clock readings of a call.
* `TimeInv` — what the engine has stored, in terms of the accepted calls.
* `InOrder` — neither the event time nor the date goes back from one context to a later one.

Main result: `context_time_iff`.  `older_tick_after_reference` is a run in which the sector state
rejects the context of an accepted tick.
-/

set_option autoImplicit false

namespace ApexScan.TickEngine

open Lib SectorIntelligence

/-- The clock readings of a call. -/
def readings : Op → List Int
  | .process (.reference _) now _ _ => [now]
  | .process (.datum _) now observedAt _ => [now, observedAt]
  | _ => []

/-- A reference, as opposed to a tick or a quote. -/
def Accepted.isReference (a : Accepted) : Bool := a.reference.isSome

/-- A later context of the instrument: newer, and neither its event time nor its date goes back. -/
def InOrder (c c' : MarketContext) : Prop :=
  c.version < c'.version ∧ c.eventTimestamp ≤ c'.eventTimestamp ∧
    ∀ d d', dateOf c = some d → dateOf c' = some d' → d ≤ d'

variable {e : TickEngine} {op : Op} {i : Instrument} {calls : List Accepted}

/-- What is stored for an instrument after its accepted calls, newest first. -/
structure TimeInv (i : Instrument) (calls : List Accepted) (e : TickEngine) : Prop where
  own : OwnContexts e
  stored : (e.stateOf i).context = calls.head?.map (·.context)
  last : (e.stateOf i).lastEventTimestamp =
    ((calls.filter fun a => !a.isReference).head?).map (·.stamp)
  instrument : ∀ a ∈ calls, a.context.instrument = i
  stamped : ∀ a ∈ calls, a.context.eventTimestamp = a.stamp
  dated : ∀ a ∈ calls, dateOf a.context = e.localDate a.stamp
  versions : calls.Pairwise fun a b => b.context.version < a.context.version
  data : (calls.filter fun a => !a.isReference).Pairwise fun a b => b.stamp ≤ a.stamp

/-- The context of an accepted event carries the stamp of the call. -/
theorem pending_stamp {p : Pending} (hp : pending e op = some (i, p)) :
    p.event.context.eventTimestamp = stampOf op := by
  rcases pending_cases hp with ⟨r, now, _, _, rfl, rfl, -, rfl⟩ | ⟨d, _, observedAt, _, rfl, rfl, -, rfl⟩
  · rw [acceptingReference_fields]
    simp only [referenceFields]
    split <;> rfl
  · rw [accepting_fields]
    rfl

/-- The context of an accepted event carries the exchange-local date of the stamp. -/
theorem pending_dateOf (h : TimeInv i calls e) {p : Pending} (hp : pending e op = some (i, p)) :
    dateOf p.event.context = e.localDate (stampOf op) := by
  rcases pending_cases hp with ⟨r, now, _, _, rfl, rfl, -, rfl⟩ | ⟨d, _, observedAt, _, rfl, rfl, -, rfl⟩
  · rw [dateOf, acceptingReference_fields, stampOf, localDate_eq]
    simp only [referenceFields]
    split
    · rfl
    · rename_i prior hprior
      cases hs : e.sessionAt now with
      | some session => rfl
      | none =>
        -- without a classifier the prior context has no session to fall back on
        have hstored := h.stored
        rw [show (e.stateOf r.instrument).context = some prior from hprior] at hstored
        obtain ⟨a, ha, hcontext⟩ := Option.map_eq_some_iff.mp hstored.symm
        have hdate := h.dated a (List.mem_of_mem_head? ha)
        rw [hcontext, localDate, sessionAt_eq_none hs] at hdate
        exact hdate
  · rw [dateOf, accepting_fields, stampOf, localDate_eq]
    rfl

/-- A call that stores nothing of the instrument keeps the invariant. -/
theorem TimeInv.keep (h : TimeInv i calls e)
    (hentry : entryFor i (op, (step e op).2) = none)
    (hcontext : ((step e op).1.stateOf i).context = (e.stateOf i).context)
    (hlast : ((step e op).1.stateOf i).lastEventTimestamp = (e.stateOf i).lastEventTimestamp) :
    TimeInv i ((entryFor i (op, (step e op).2)).toList ++ calls) (step e op).1 := by
  rw [hentry]
  refine ⟨step_ownContexts h.own op, ?_, ?_, h.instrument, h.stamped, ?_, h.versions, h.data⟩
  · rw [hcontext]
    exact h.stored
  · rw [hlast]
    exact h.last
  · intro a ha
    rw [step_localDate]
    exact h.dated a ha

/-- A new accepted context is newer than those before it. -/
theorem TimeInv.newer (h : TimeInv i calls e) {p : Pending} (hp : pending e op = some (i, p)) :
    ∀ a ∈ calls, a.context.version < p.event.context.version := by
  intro a ha
  rw [(pending_spec hp).1, h.stored]
  cases calls with
  | nil => cases ha
  | cons b older =>
    have hle : a.context.version ≤ b.context.version := by
      rcases List.mem_cons.mp ha with rfl | ha
      · exact le_rfl
      · exact ((List.pairwise_cons.mp h.versions).1 a ha).le
    simp only [List.head?_cons, Option.map_some, versionOf, Option.getD_some]
    omega

/-- An accepted datum is not earlier than the accepted data before it. -/
theorem TimeInv.later {d : Datum} {now : Int} (h : TimeInv d.instrument calls e)
    (hclass : classify d (e.registry.isKnown d.instrument) (e.registry.get d.instrument) now =
      .accept) : ∀ a ∈ calls.filter fun a => !a.isReference, a.stamp ≤ d.eventTimestamp := by
  intro a ha
  have hdata := h.data
  have hlast := h.last
  cases hcalls : calls.filter fun a => !a.isReference with
  | nil =>
    rw [hcalls] at ha
    cases ha
  | cons b older =>
    rw [hcalls] at ha hdata hlast
    have hb : b.stamp ≤ d.eventTimestamp := accepted_later hclass hlast
    rcases List.mem_cons.mp ha with rfl | ha
    · exact hb
    · exact ((List.pairwise_cons.mp hdata).1 a ha).trans hb

/-- A call that stores an accepted context of the instrument extends its calls. -/
theorem TimeInv.extend (h : TimeInv i calls e) {p : Pending} (hp : pending e op = some (i, p))
    (hentry : entryFor i (op, (step e op).2) =
      some ⟨stampOf op, referenceOf op, p.event.context⟩)
    (hstate : (step e op).1.stateOf i = p.state) :
    TimeInv i ((entryFor i (op, (step e op).2)).toList ++ calls) (step e op).1 := by
  have hinstrument := pending_instrument h.own hp
  rw [hentry, Option.toList_some, List.singleton_append]
  refine ⟨step_ownContexts h.own op, ?_, ?_, ?_, ?_, ?_, ?_, ?_⟩
  · rw [hstate, (pending_spec hp).2.2.2]
    rfl
  · rw [hstate]
    rcases pending_cases hp with ⟨r, _, _, _, rfl, rfl, -, rfl⟩ | ⟨d, _, _, _, rfl, rfl, -, rfl⟩
    · exact h.last
    · rfl
  · intro a ha
    rcases List.mem_cons.mp ha with rfl | ha
    · exact hinstrument
    · exact h.instrument a ha
  · intro a ha
    rcases List.mem_cons.mp ha with rfl | ha
    · exact pending_stamp hp
    · exact h.stamped a ha
  · intro a ha
    rw [step_localDate]
    rcases List.mem_cons.mp ha with rfl | ha
    · exact pending_dateOf h hp
    · exact h.dated a ha
  · exact List.Pairwise.cons (h.newer hp) h.versions
  · rcases pending_cases hp with ⟨r, _, _, _, rfl, rfl, -, rfl⟩ | ⟨d, _, _, _, rfl, rfl, hclass, rfl⟩
    · exact h.data
    · exact List.Pairwise.cons (h.later hclass) h.data

theorem step_time (h : TimeInv i calls e) (op : Op) :
    TimeInv i ((entryFor i (op, (step e op).2)).toList ++ calls) (step e op).1 := by
  rcases entry_cases i h.own op with ⟨hentry, hcontext, hlast⟩ | ⟨p, hp, hstate, hentry⟩
  · exact h.keep hentry hcontext hlast
  · exact h.extend hp hentry hstate

theorem run_time (h : TimeInv i [] e) (ops : List Op) :
    TimeInv i (history i e ops) (run step e ops) := by
  induction ops using List.reverseRecOn with
  | nil => exact h
  | append_singleton ops op ih =>
    rw [history_concat, run_concat]
    exact step_time ih op

/-! ## Accepted references and the clock -/

/-- The stamp of an accepted reference is a clock reading of its call. -/
theorem entryFor_reading {o : Option Emitted} {a : Accepted} (h : entryFor i (op, o) = some a)
    (href : a.isReference = true) : a.stamp ∈ readings op := by
  obtain ⟨c, -, rfl⟩ := Option.map_eq_some_iff.mp h
  cases op with
  | process event now observedAt bus =>
    cases event with
    | reference r => exact List.mem_singleton.mpr rfl
    | datum d => cases href
  | _ => cases href

theorem history_readings {ops : List Op} {a : Accepted} (ha : a ∈ history i e ops)
    (href : a.isReference = true) : a.stamp ∈ ops.flatMap readings := by
  induction ops using List.reverseRecOn with
  | nil => cases ha
  | append_singleton ops op ih =>
    rw [history_concat] at ha
    rw [List.flatMap_append, List.mem_append]
    rcases List.mem_append.mp ha with hnew | hold
    · refine Or.inr (List.mem_flatMap.mpr ⟨op, List.mem_singleton.mpr rfl, ?_⟩)
      exact entryFor_reading (Option.mem_toList.mp hnew) href
    · exact Or.inl (ih hold)

/-- Under a clock that does not go back, accepted references are stamped in order. -/
theorem references_in_order {ops : List Op} (hclock : (ops.flatMap readings).Pairwise (· ≤ ·)) :
    ((history i e ops).filter (·.isReference)).Pairwise fun a b => b.stamp ≤ a.stamp := by
  induction ops using List.reverseRecOn with
  | nil => exact List.Pairwise.nil
  | append_singleton ops op ih =>
    rw [List.flatMap_append, List.pairwise_append] at hclock
    obtain ⟨hbefore, -, hcross⟩ := hclock
    rw [history_concat]
    cases hentry : entryFor i (op, (step (run step e ops) op).2) with
    | none => exact ih hbefore
    | some a =>
      rw [Option.toList_some, List.singleton_append, List.filter_cons]
      split
      · rename_i href
        refine List.Pairwise.cons ?_ (ih hbefore)
        intro b hb
        obtain ⟨hb, hbref⟩ := List.mem_filter.mp hb
        apply hcross _ (history_readings hb hbref)
        rw [List.flatMap_singleton]
        exact entryFor_reading hentry href
      · exact ih hbefore

/-! ## The condition -/

/-- The accepted calls of one kind are stamped in order, so all are once the two kinds are. -/
theorem stamps_in_order {ops : List Op} (hclock : (ops.flatMap readings).Pairwise (· ≤ ·))
    (hinv : TimeInv i (history i e ops) (run step e ops))
    (hmixed : (history i e ops).reverse.Pairwise fun a b =>
      a.isReference ≠ b.isReference → a.stamp ≤ b.stamp) :
    (history i e ops).reverse.Pairwise fun a b => a.stamp ≤ b.stamp := by
  have hdata := List.pairwise_filter.mp hinv.data
  have href := List.pairwise_filter.mp (references_in_order (i := i) (e := e) hclock)
  rw [List.pairwise_reverse] at hmixed ⊢
  refine ((hdata.and href).and hmixed).imp ?_
  intro a b ⟨⟨hd, hr⟩, hm⟩
  cases ha : a.isReference with
  | true =>
    cases hb : b.isReference with
    | true => exact hr ha hb
    | false => exact hm (by simp [ha, hb])
  | false =>
    cases hb : b.isReference with
    | true => exact hm (by simp [ha, hb])
    | false => exact hd (by simp [ha]) (by simp [hb])

/-- Contexts in order make observations in order, which the sector state does not reject. -/
theorem in_order_never_rejected {contexts : List MarketContext}
    (hinstrument : ∀ c ∈ contexts, c.instrument = i) (h : contexts.Pairwise InOrder)
    {expected : List String} (hexpected : instrumentIdentity i ∈ expected) :
    ∀ outcome ∈ outs ObservationState.record { expected } (contexts.map observationOf),
      outcome.rejected = false := by
  refine ObservationState.ordered_never_rejected (instrumentIdentity i) ?_ hexpected ?_ ?_
  · intro o ho
    obtain ⟨c, hc, rfl⟩ := List.mem_map.mp ho
    rw [observationOf, hinstrument c hc]
  · intro o _
    exact ⟨fun d d' hd => (by cases hd), fun x hx => (by cases hx)⟩
  · rw [List.pairwise_map]
    exact h.imp fun hcc => ⟨hcc.2.1, hcc.2.2⟩

/-- **When context time never runs backwards.**  In every run of a new engine under a clock that
    does not go back, with any subscribers: the accepted contexts of an instrument are in order
    (versions grow, neither event time nor date goes back) and a sector state that is offered them
    rejects none as out of order or late, exactly when every accepted tick or quote is on the right
    side of every accepted reference (not before an earlier one, not after a later one), and the
    exchange zone does not take the date back between two accepted calls. -/
theorem context_time_iff (known : List Instrument) (session : Option MarketSessionClassifier)
    (candles : Option CandleEngine) (authority : SessionStatisticsAuthority) (i : Instrument)
    (ops : List Op) (hclock : (ops.flatMap readings).Pairwise (· ≤ ·)) :
    let e₀ := create known session candles authority
    let calls := (history i e₀ ops).reverse
    ((calls.map (·.context)).Pairwise InOrder ∧
      ∀ expected, instrumentIdentity i ∈ expected →
        ∀ outcome ∈ outs ObservationState.record { expected }
          (calls.map fun a => observationOf a.context), outcome.rejected = false) ↔
    (calls.Pairwise fun a b => a.isReference ≠ b.isReference → a.stamp ≤ b.stamp) ∧
      calls.Pairwise fun a b => a.stamp ≤ b.stamp →
        ∀ d d', e₀.localDate a.stamp = some d → e₀.localDate b.stamp = some d' → d ≤ d' := by
  intro e₀ calls
  have hinit : TimeInv i [] e₀ :=
    ⟨fun _ _ hc => (by cases hc), rfl, rfl, fun _ ha => (by cases ha), fun _ ha => (by cases ha),
      fun _ ha => (by cases ha), List.Pairwise.nil, List.Pairwise.nil⟩
  have hinv := run_time hinit ops
  have hmem : ∀ a ∈ calls, a ∈ history i e₀ ops := fun a ha => List.mem_reverse.mp ha
  have hdated : ∀ a ∈ calls, dateOf a.context = e₀.localDate a.stamp := by
    intro a ha
    rw [hinv.dated a (hmem a ha), localDate, run_session]
    rfl
  constructor
  · rintro ⟨horder, -⟩
    rw [List.pairwise_map] at horder
    refine ⟨horder.imp_of_mem ?_, horder.imp_of_mem ?_⟩
    · intro a b ha hb hab _
      rw [← hinv.stamped a (hmem a ha), ← hinv.stamped b (hmem b hb)]
      exact hab.2.1
    · intro a b ha hb hab _
      rw [← hdated a ha, ← hdated b hb]
      exact hab.2.2
  · rintro ⟨hmixed, hdates⟩
    have hstamps : calls.Pairwise fun a b => a.stamp ≤ b.stamp :=
      stamps_in_order hclock hinv hmixed
    have hversions : calls.Pairwise fun a b => a.context.version < b.context.version :=
      List.pairwise_reverse.mpr hinv.versions
    have horder : (calls.map (·.context)).Pairwise InOrder := by
      rw [List.pairwise_map]
      refine (hversions.and (hstamps.and hdates)).imp_of_mem ?_
      rintro a b ha hb ⟨hversion, hstamp, hdate⟩
      refine ⟨hversion, ?_, ?_⟩
      · rw [hinv.stamped a (hmem a ha), hinv.stamped b (hmem b hb)]
        exact hstamp
      · rw [hdated a ha, hdated b hb]
        exact hdate hstamp
    refine ⟨horder, ?_⟩
    intro expected hexpected
    have hinstrument : ∀ c ∈ calls.map (·.context), c.instrument = i := by
      intro c hc
      obtain ⟨a, ha, rfl⟩ := List.mem_map.mp hc
      exact hinv.instrument a (hmem a ha)
    have hnever := in_order_never_rejected hinstrument horder hexpected
    rw [List.map_map] at hnever
    exact hnever

/-- A reference of `reliance` at `m` minutes past midnight of 2024-10-04. -/
def referenceAt (m : Int) : Op :=
  .process (.reference ⟨reliance, rupees 90⟩) (20000 * day + (m - 330) * minute)
    (20000 * day + (m - 330) * minute) acceptingBus

/-- A tick of minute `m` received at minute `received`. -/
def tickReceived (m received : Int) : Op :=
  .process (.datum (.tick (sampleTick m (rupees 100)).1)) (20000 * day + (received - 330) * minute)
    (20000 * day + (received - 330) * minute) acceptingBus

/-- A tick of 09:15, a reference at 09:16 and a tick of 09:17. -/
theorem context_time_sample :
    let e₀ := create [reliance] (some nseClassifier) none {}
    let calls := (history reliance e₀ [tickReceived 555 555, referenceAt 556,
      tickReceived 557 557]).reverse
    (calls.map (·.context)).Pairwise InOrder := by
  intro e₀ calls
  have hcalls : calls.map (·.stamp) = [20000 * day + 225 * minute, 20000 * day + 226 * minute,
      20000 * day + 227 * minute] := rfl
  have hsorted : (calls.map (·.stamp)).Pairwise (· ≤ ·) := by
    rw [hcalls]
    decide
  have hstamps : calls.Pairwise fun a b => a.stamp ≤ b.stamp := List.pairwise_map.mp hsorted
  have hmixed : calls.Pairwise fun a b => a.isReference ≠ b.isReference → a.stamp ≤ b.stamp := by
    apply hstamps.imp
    intro a b hle _
    exact hle
  have hdates : calls.Pairwise fun a b => a.stamp ≤ b.stamp →
      ∀ d d', e₀.localDate a.stamp = some d → e₀.localDate b.stamp = some d' → d ≤ d' := by
    apply hstamps.imp
    intro a b hle _ d d' hd hd'
    rw [← Option.some.inj hd, ← Option.some.inj hd']
    exact kolkata_forward hle
  exact ((context_time_iff [reliance] (some nseClassifier) none {} reliance
    [tickReceived 555 555, referenceAt 556, tickReceived 557 557] (by decide)).mpr
      ⟨hmixed, hdates⟩).1

/-- A reference at 09:16, then a tick of 09:15 (received at 09:16): the tick is accepted, its context
    is dated before the reference's, and the sector state rejects it and keeps no price. -/
theorem older_tick_after_reference :
    let e₀ := create [reliance] (some nseClassifier) none {}
    let ops := [referenceAt 556, tickReceived 555 556]
    let contexts := (history reliance e₀ ops).reverse.map (·.context)
    (ops.flatMap readings).Pairwise (· ≤ ·) ∧
      (contexts.map (·.version) = [1, 2]) ∧
      (contexts.map (·.eventTimestamp) =
        [20000 * day + 226 * minute, 20000 * day + 225 * minute]) ∧
      outs ObservationState.record { expected := ["NSE:RELIANCE"] } (contexts.map observationOf) =
        [.accepted, .rejectedOutOfOrder] := by
  refine ⟨by decide, rfl, rfl, rfl⟩

end ApexScan.TickEngine
