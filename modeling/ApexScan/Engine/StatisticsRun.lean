import ApexScan.Engine.StatisticsDate
import ApexScan.Engine.StatisticsProgress
import ApexScan.Lib.Groups

/-!
# Session statistics over whole runs

The statistics of one instrument along a run in which every tick and quote of the instrument is
accepted, with staging calls, halts and the traffic of other instruments in between.

* `Accepts` — the calls of such a run.
* `Supplies` — an accepted datum supplies the one aggregate that a snapshot is made of.
* `AlikeOp` — two calls that differ at most in the prices of an aggregate of an unverified source.

`accepts_cases` says what a call publishes for the instrument and leaves of its state; `step_stored`,
`published_source` and `step_alike` are derived from it.  Main result:
`statistics_evolve_coherently`.
-/

set_option autoImplicit false

namespace ApexScan

open Lib

namespace TickEngine

/-! ## The run and what a call does to the instrument -/

/-- The instrument sees accepted ticks and quotes only: no datum of it is rejected, no subscriber
    raises on it and no reference of it arrives.  Every other call is unconstrained. -/
def Accepts (i : Instrument) (e : TickEngine) : Op → Prop
  | .process (.datum d) now observedAt bus =>
    d.instrument = i →
      (acceptedBy (step e (.process (.datum d) now observedAt bus)).2).isSome = true
  | .process (.reference r) _ _ _ => r.instrument ≠ i
  | _ => True

/-- The staging slot after an observation: a later one replaces the slot's. -/
def slotAfter (current : Option SessionStatisticsObservation) (o : SessionStatisticsObservation) :
    Option SessionStatisticsObservation :=
  match current with
  | none => some o
  | some current => if current.observedAt < o.observedAt then some o else some current

variable {e : TickEngine} {op : Op} {i : Instrument}

/-- The slot of an instrument after a staging call. -/
theorem stage_slot (r : InstrumentStateRegistry) (i j : Instrument)
    (o : SessionStatisticsObservation) :
    ((r.stageSessionStatisticsObservation j o).stateFor i).stagedSessionStatisticsObservation =
      if j = i ∧ o.instrument = j then
        slotAfter (r.stateFor i).stagedSessionStatisticsObservation o
      else (r.stateFor i).stagedSessionStatisticsObservation := by
  unfold InstrumentStateRegistry.stageSessionStatisticsObservation
  by_cases hj : o.instrument = j
  · simp only [hj, ne_eq, not_true_eq_false, if_false, and_true]
    by_cases hji : j = i
    · subst hji
      simp only [if_true]
      cases hc : (r.stateFor j).stagedSessionStatisticsObservation with
      | none => simp [slotAfter, InstrumentStateRegistry.stateFor_put]
      | some current =>
        simp only [slotAfter]
        rcases lt_trichotomy o.observedAt current.observedAt with hlt | heq | hgt
        · simp [hlt, hlt.le, hc]
        · by_cases hsame : o = current
          · simp [hsame, InstrumentStateRegistry.stateFor_put]
          · simp [heq, hsame, hc]
        · simp [hgt, hgt.not_gt, hgt.ne', InstrumentStateRegistry.stateFor_put]
    · have hput : ∀ s, (r.put j s).stateFor i = r.stateFor i := by
        intro s
        rw [InstrumentStateRegistry.stateFor_put, if_neg hji]
      simp only [hji, if_false]
      split
      · rw [hput]
      · split
        · rw [InstrumentStateRegistry.stateFor_ensure]
        · split
          · rw [InstrumentStateRegistry.stateFor_ensure]
          · rw [hput]
  · simp [hj]

/-- The staging slot of an instrument after a call that accepts no datum of it. -/
def slotAfterCall (i : Instrument) (current : Option SessionStatisticsObservation) :
    Op → Option SessionStatisticsObservation
  | .stageSessionStatistics j o => if j = i ∧ o.instrument = j then slotAfter current o else current
  | _ => current

theorem step_silent_slot (h : pending e op = none) (i : Instrument) :
    ((step e op).1.stateOf i).stagedSessionStatisticsObservation =
      slotAfterCall i (e.stateOf i).stagedSessionStatisticsObservation op := by
  cases op with
  | process event now observedAt bus =>
    cases event with
    | reference r =>
      simp only [pending, ite_eq_right_iff, reduceCtorEq, imp_false] at h
      simp only [step, process, h, if_false, Bool.false_eq_true]
      rfl
    | datum d =>
      simp only [pending, ite_eq_right_iff, reduceCtorEq, imp_false] at h
      simp only [step, process, h, if_false]
      rfl
  | installHistorical j hist =>
    simp only [step, stateOf, InstrumentStateRegistry.installHistorical, slotAfterCall]
    split
    · rfl
    · rw [InstrumentStateRegistry.stateFor_put]
      split
      · rename_i hji
        rw [← hji]
      · rfl
  | stageSessionStatistics j o => exact stage_slot e.registry i j o
  | _ => rfl

/-- A datum that the call accepts has passed validation, and its new state is stored. -/
theorem accepted_datum {d : Datum} {now observedAt : Int} {bus : EventBus}
    (h : (acceptedBy (step e (.process (.datum d) now observedAt bus)).2).isSome = true) :
    classify d (e.registry.isKnown d.instrument) (e.registry.get d.instrument) now = .accept ∧
      pending e (.process (.datum d) now observedAt bus) =
        some (d.instrument, e.accepting d observedAt) ∧
      (step e (.process (.datum d) now observedAt bus)).1.stateOf d.instrument =
        (e.accepting d observedAt).state := by
  cases hp : pending e (.process (.datum d) now observedAt bus) with
  | none =>
    rw [(step_silent hp).2.1] at h
    cases h
  | some jp =>
    obtain ⟨j, p⟩ := jp
    rcases pending_cases hp with ⟨_, _, _, _, hop, -⟩ | ⟨_, _, _, _, hop, rfl, hclass, rfl⟩
    · cases hop
    · cases hop
      refine ⟨hclass, rfl, ?_⟩
      rcases (step_pending hp).2.2 with ⟨_, -, -, hrejected, -⟩ | ⟨-, -, -, hstore⟩
      · rw [hrejected] at h
        cases h
      · rw [hstore, if_pos rfl]

/-- **An accepted datum, or nothing**: what a call of such a run publishes for the instrument and
    leaves of its state. -/
theorem accepts_cases (hown : OwnContexts e) (h : Accepts i e op) :
    (∃ d now observedAt bus, op = .process (.datum d) now observedAt bus ∧ d.instrument = i ∧
      classify d (e.registry.isKnown d.instrument) (e.registry.get d.instrument) now = .accept ∧
      publishedFor i (step e op).2 = some (e.accepting d observedAt).event.context ∧
      (step e op).1.stateOf i = (e.accepting d observedAt).state) ∨
    (publishedFor i (step e op).2 = none ∧
      ((step e op).1.stateOf i).context = (e.stateOf i).context ∧
      ((step e op).1.stateOf i).lastEventTimestamp = (e.stateOf i).lastEventTimestamp ∧
      ((step e op).1.stateOf i).sessionStatistics = (e.stateOf i).sessionStatistics ∧
      ((step e op).1.stateOf i).stagedSessionStatisticsObservation =
        slotAfterCall i (e.stateOf i).stagedSessionStatisticsObservation op ∧
      ∀ d now observedAt bus, op = .process (.datum d) now observedAt bus → d.instrument ≠ i) := by
  cases hp : pending e op with
  | none =>
    refine Or.inr ⟨?_, (step_silent hp).2.2.2.2 i |>.1, ?_, (step_silent hp).2.2.2.2 i |>.2,
      step_silent_slot hp i, ?_⟩
    · rw [publishedFor, publishedContext_silent hp, Option.filter_none]
    · exact step_silent_keeps (f := (·.lastEventTimestamp)) (fun _ _ => rfl) (fun _ _ => rfl) hp i
    · rintro d now observedAt bus rfl hd
      have haccepted := h hd
      rw [(step_silent hp).2.1] at haccepted
      cases haccepted
  | some jp =>
    obtain ⟨j, p⟩ := jp
    have hinstrument := pending_instrument hown hp
    by_cases hji : j = i
    · subst hji
      rcases pending_cases hp with
        ⟨r, now, observedAt, bus, rfl, hr, -, -⟩ |
        ⟨d, now, observedAt, bus, rfl, hd, hclass, rfl⟩
      · exact absurd hr h
      · refine Or.inl ⟨d, now, observedAt, bus, rfl, hd, hclass, ?_, ?_⟩
        · rw [publishedFor, publishedContext_pending hp]
          simp [hinstrument]
        · rw [← hd]
          exact (accepted_datum (h hd)).2.2
    · have hkeep : (step e op).1.stateOf i = e.stateOf i := by
        rcases (step_pending hp).2.2 with ⟨_, -, -, -, hkeep⟩ | ⟨-, -, -, hstore⟩
        · exact hkeep i
        · rw [hstore i, if_neg hji]
      refine Or.inr ⟨?_, by rw [hkeep], by rw [hkeep], by rw [hkeep], ?_, ?_⟩
      · rw [publishedFor, publishedContext_pending hp]
        simp [hinstrument, hji]
      · rw [hkeep]
        cases op with
        | process => rfl
        | _ => cases hp
      · rintro d now observedAt bus rfl hd
        rcases pending_cases hp with ⟨_, _, _, _, hop, -⟩ | ⟨_, _, _, _, hop, hd', -⟩
        · cases hop
        · cases hop
          exact hji (hd'.symm.trans hd)

/-! ## Evolution -/

/-- The trading date a context is stamped with. -/
def dateOf (c : MarketContext) : Option Int := c.session.map (·.tradingDate)

/-- The exchange-local date of an instant, where there is a classifier. -/
def localDate (e : TickEngine) (t : Int) : Option Int :=
  e.session.map fun classifier => wallDate (classifier.timezone.toLocal t)

theorem localDate_eq (e : TickEngine) (t : Int) :
    e.localDate t = (e.sessionAt t).map (·.tradingDate) := by
  unfold localDate sessionAt
  rw [Option.map_map]
  rfl

theorem step_localDate (e : TickEngine) (op : Op) (t : Int) :
    (step e op).1.localDate t = e.localDate t := by
  unfold localDate
  rw [(step_settings e op).1]

/-- What is stored for an instrument: its last published context with that context's instant and
    statistics, which are authoritative and of the context's date; none without a classifier. -/
structure Stored (session : Option MarketSessionClassifier) (state : InstrumentState) : Prop where
  timestamp : ∀ c, state.context = some c → state.lastEventTimestamp = some c.eventTimestamp
  statistics : ∀ c, state.context = some c → state.sessionStatistics = c.sessionStatistics
  dated : ∀ c s, state.context = some c → c.sessionStatistics = some s →
    dateOf c = some s.tradingDate
  authoritative : ∀ s, state.sessionStatistics = some s → s.quality = .authoritative
  classified : session = none → state.sessionStatistics = none

theorem Stored.congr {session : Option MarketSessionClassifier} {state state' : InstrumentState}
    (h : Stored session state) (hcontext : state'.context = state.context)
    (hlast : state'.lastEventTimestamp = state.lastEventTimestamp)
    (hstatistics : state'.sessionStatistics = state.sessionStatistics) : Stored session state' := by
  obtain ⟨h₁, h₂, h₃, h₄, h₅⟩ := h
  rw [← hcontext] at h₁ h₂ h₃
  rw [← hlast] at h₁
  rw [← hstatistics] at h₂ h₄ h₅
  exact ⟨h₁, h₂, h₃, h₄, h₅⟩

/-- The next context of an instrument: not earlier, and on the same date with evolved statistics. -/
def Follows (c c' : MarketContext) : Prop :=
  c.eventTimestamp ≤ c'.eventTimestamp ∧
    ∀ date, dateOf c = some date → dateOf c' = some date →
      Evolves c.sessionStatistics c'.sessionStatistics

/-- The statistics an accepted datum resolves, with the previous ones. -/
theorem datumFields_statistics (e : TickEngine) (d : Datum) (observedAt : Int) :
    (e.datumFields d observedAt).sessionStatistics =
      (resolveSessionStatistics d.sessionOhlc d.eventTimestamp
        (e.stateOf d.instrument).stagedSessionStatisticsObservation
        (e.sessionAt d.eventTimestamp) (e.stateOf d.instrument).sessionStatistics e.authority).1 :=
  rfl

/-- The candidate of one aggregate that an accepted datum of the instrument supplies in the live
    session: its own where ticks are verified, or the staged one of the date where staged
    observations are. -/
def Supplies (i : Instrument) (e : TickEngine) (op : Op) (s : SessionStatistics) : Prop :=
  ∃ d now observedAt bus session aggregate asOf,
    op = .process (.datum d) now observedAt bus ∧ d.instrument = i ∧
    e.sessionAt d.eventTimestamp = some session ∧ session.marketState = .liveSession ∧
    s = candidateOf aggregate asOf session.tradingDate ∧
    ((e.authority.tickAggregateVerified = true ∧ d.sessionOhlc = some aggregate ∧
        asOf = d.eventTimestamp) ∨
      (e.authority.stagedObservationVerified = true ∧
        ∃ o, (e.stateOf i).stagedSessionStatisticsObservation = some o ∧
          o.tradingDate = session.tradingDate ∧ aggregate = o.sessionOhlc ∧ asOf = o.observedAt))

theorem Supplies.authoritative {s : SessionStatistics} (h : Supplies i e op s) :
    s.quality = .authoritative := by
  obtain ⟨_, _, _, _, _, _, _, -, -, -, -, rfl, -⟩ := h
  rfl

/-- The statistics of an accepted datum are the stored ones or supplied by it. -/
theorem datum_source {d : Datum} {observedAt : Int} {s : SessionStatistics} (now : Int)
    (bus : EventBus) (h : (e.datumFields d observedAt).sessionStatistics = some s) :
    (e.stateOf d.instrument).sessionStatistics = some s ∨
      Supplies d.instrument e (.process (.datum d) now observedAt bus) s := by
  rw [datumFields_statistics] at h
  cases hs : e.sessionAt d.eventTimestamp with
  | none =>
    rw [hs] at h
    exact Or.inl h
  | some session =>
    rw [hs] at h
    rcases resolve_source h with hprev | ⟨hlive, hsource⟩
    · exact Or.inl hprev
    · refine Or.inr ?_
      rcases hsource with ⟨hverified, a, ha, hcandidate⟩ | ⟨hverified, o, ho, hdate, hcandidate⟩
      · exact ⟨d, now, observedAt, bus, session, a, d.eventTimestamp, rfl, rfl, hs, hlive,
          hcandidate, Or.inl ⟨hverified, ha, rfl⟩⟩
      · exact ⟨d, now, observedAt, bus, session, o.sessionOhlc, o.observedAt, rfl, rfl, hs, hlive,
          hcandidate, Or.inr ⟨hverified, o, ho, hdate, rfl, rfl⟩⟩

/-- An accepted datum is not earlier than the one before it. -/
theorem classify_accept {d : Datum} {known : Bool} {state : InstrumentState} {now last : Int}
    (h : classify d known (some state) now = .accept) (hlast : state.lastEventTimestamp = some last) :
    last ≤ d.eventTimestamp := by
  unfold classify at h
  simp only [hlast] at h
  split at h
  · cases h
  · split at h
    · cases h
    · split at h
      · cases h
      · split at h
        · cases h
        · omega

/-- An instrument for which something is stored has an entry in the registry. -/
theorem get_of_stored {δ : Type} {f : InstrumentState → Option δ}
    (hempty : f { instrument := i } = none) {r : InstrumentStateRegistry} {x : δ}
    (h : f (r.stateFor i) = some x) : r.get i = some (r.stateFor i) := by
  unfold InstrumentStateRegistry.stateFor at h ⊢
  cases hget : r.get i with
  | none =>
    rw [hget] at h
    exact absurd (hempty.symm.trans h) (by simp)
  | some state => rfl

/-- An accepted datum is not earlier than the last one of its instrument. -/
theorem accepted_later {d : Datum} {now last : Int}
    (hclass : classify d (e.registry.isKnown d.instrument) (e.registry.get d.instrument) now =
      .accept) (hlast : (e.stateOf d.instrument).lastEventTimestamp = some last) :
    last ≤ d.eventTimestamp := by
  rw [get_of_stored (f := (·.lastEventTimestamp)) rfl hlast] at hclass
  exact classify_accept hclass hlast

/-- The previous statistics of an accepted datum evolve into those it publishes. -/
theorem datum_follows {d : Datum} (hI : Stored e.session (e.stateOf d.instrument)) {now : Int}
    (observedAt : Int)
    (hclass : classify d (e.registry.isKnown d.instrument) (e.registry.get d.instrument) now =
      .accept) {p : MarketContext} (hp : (e.stateOf d.instrument).context = some p) :
    Follows p (e.accepting d observedAt).event.context := by
  have hfields := accepting_fields e d observedAt
  refine ⟨?_, ?_⟩
  · have hat : (e.accepting d observedAt).event.context.eventTimestamp = d.eventTimestamp := by
      rw [hfields]
      rfl
    rw [hat]
    exact accepted_later hclass (hI.timestamp p hp)
  · intro date hdate hdate'
    have hsession : (e.accepting d observedAt).event.context.session =
        e.sessionAt d.eventTimestamp := by
      rw [hfields]
      rfl
    rw [dateOf, hsession] at hdate'
    rw [hfields, datumFields_statistics, ← hI.statistics p hp]
    cases hs : e.sessionAt d.eventTimestamp with
    | none =>
      rw [hs] at hdate'
      cases hdate'
    | some session =>
      rw [hs] at hdate'
      apply resolve_evolves
      · intro s hprev
        have hpdate := hI.dated p s hp (by rw [← hI.statistics p hp, hprev])
        rw [hdate] at hpdate
        rw [← Option.some.inj hpdate]
        exact (Option.some.inj hdate').symm
      · exact hI.authoritative

/-- An accepted datum stores what it publishes. -/
theorem accepting_stored {d : Datum} (hI : Stored e.session (e.stateOf d.instrument))
    (observedAt : Int) : Stored e.session (e.accepting d observedAt).state := by
  have hfields := accepting_fields e d observedAt
  have hcontext : (e.accepting d observedAt).state.context =
      some (e.accepting d observedAt).event.context := rfl
  have hstatistics : (e.accepting d observedAt).state.sessionStatistics =
      (e.datumFields d observedAt).sessionStatistics := rfl
  have hunclassified : e.sessionAt d.eventTimestamp = none →
      (e.datumFields d observedAt).sessionStatistics = none := by
    intro hnone
    rw [datumFields_statistics, hnone]
    exact hI.classified (sessionAt_eq_none hnone)
  refine ⟨?_, ?_, ?_, ?_, ?_⟩
  · intro c hc
    rw [hcontext] at hc
    rw [← Option.some.inj hc, hfields]
    rfl
  · intro c hc
    rw [hcontext] at hc
    rw [← Option.some.inj hc, hstatistics, hfields]
  · intro c s hc hs
    rw [hcontext] at hc
    rw [← Option.some.inj hc, hfields] at hs
    rw [← Option.some.inj hc, dateOf, hfields]
    have hat : (e.datumFields d observedAt).session = e.sessionAt d.eventTimestamp := rfl
    cases hsession : e.sessionAt d.eventTimestamp with
    | none =>
      rw [hunclassified hsession] at hs
      cases hs
    | some session =>
      rw [hsession] at hat
      rw [hat, datum_sameDate hat hs]
      rfl
  · intro s hs
    rw [hstatistics] at hs
    rcases datum_source 0 {} hs with hprev | hsource
    · exact hI.authoritative s hprev
    · exact hsource.authoritative
  · intro hnone
    rw [hstatistics]
    exact hunclassified (by simp [sessionAt, hnone])

/-- **One call keeps what is stored for the instrument**, and what it publishes for it follows the
    stored context and is stored in its place. -/
theorem step_stored (hown : OwnContexts e) (hI : Stored e.session (e.stateOf i))
    (h : Accepts i e op) :
    Stored (step e op).1.session ((step e op).1.stateOf i) ∧
      ((step e op).1.stateOf i).context =
        (publishedFor i (step e op).2).or (e.stateOf i).context ∧
      ∀ p c, (e.stateOf i).context = some p → publishedFor i (step e op).2 = some c →
        Follows p c := by
  rw [(step_settings e op).1]
  rcases accepts_cases hown h with
    ⟨d, now, observedAt, bus, rfl, rfl, hclass, hpub, hstate⟩ | ⟨hpub, hcontext, hlast, hstat, -, -⟩
  · rw [hstate, hpub]
    refine ⟨accepting_stored hI observedAt, rfl, ?_⟩
    intro p c hp hc
    rw [← Option.some.inj hc]
    exact datum_follows hI observedAt hclass hp
  · refine ⟨hI.congr hcontext hlast hstat, ?_, ?_⟩
    · rw [hpub, Option.none_or, hcontext]
    · intro p c _ hc
      rw [hpub] at hc
      cases hc

/-! ## Provenance -/

/-- A reference publishes stored statistics. -/
theorem referenceFields_statistics {r : MarketReference} {now : Int} {s : SessionStatistics}
    (h : (e.referenceFields r now).sessionStatistics = some s) :
    (e.stateOf r.instrument).sessionStatistics = some s := by
  unfold referenceFields at h
  simp only at h
  split at h
  · cases h
  · exact h

/-- What an accepted event stores and publishes was stored before, or supplied by it. -/
theorem pending_source {p : Pending} (hp : pending e op = some (i, p)) :
    (∀ s, p.state.sessionStatistics = some s →
      (e.stateOf i).sessionStatistics = some s ∨ Supplies i e op s) ∧
    (∀ s, p.event.context.sessionStatistics = some s →
      (e.stateOf i).sessionStatistics = some s ∨ Supplies i e op s) ∧
    ∀ o, p.state.stagedSessionStatisticsObservation = some o →
      (e.stateOf i).stagedSessionStatisticsObservation = some o := by
  rcases pending_cases hp with
    ⟨r, now, observedAt, bus, rfl, rfl, -, rfl⟩ | ⟨d, now, observedAt, bus, rfl, rfl, -, rfl⟩
  · refine ⟨fun s hs => Or.inl hs, ?_, fun o ho => ho⟩
    intro s hs
    rw [acceptingReference_fields] at hs
    exact Or.inl (referenceFields_statistics hs)
  · refine ⟨fun s hs => datum_source now bus hs, ?_, fun o ho => resolve_staged ho⟩
    intro s hs
    rw [accepting_fields] at hs
    exact datum_source now bus hs

/-- Statistics of an instrument are the ones it had or supplied by the call. -/
theorem step_statistics_source {s : SessionStatistics}
    (h : ((step e op).1.stateOf i).sessionStatistics = some s) :
    (e.stateOf i).sessionStatistics = some s ∨ Supplies i e op s := by
  cases hp : pending e op with
  | none =>
    rw [((step_silent hp).2.2.2.2 i).2] at h
    exact Or.inl h
  | some jp =>
    obtain ⟨j, p⟩ := jp
    rcases (step_pending hp).2.2 with ⟨_, -, -, -, hkeep⟩ | ⟨-, -, -, hstore⟩
    · rw [hkeep i] at h
      exact Or.inl h
    · rw [hstore i] at h
      split at h
      · rename_i hji
        subst hji
        exact (pending_source hp).1 s h
      · exact Or.inl h

/-- A staged observation of an instrument was staged before or is staged by the call. -/
theorem step_slot_source {o : SessionStatisticsObservation}
    (h : ((step e op).1.stateOf i).stagedSessionStatisticsObservation = some o) :
    (e.stateOf i).stagedSessionStatisticsObservation = some o ∨
      op = .stageSessionStatistics i o := by
  cases hp : pending e op with
  | none =>
    rw [step_silent_slot hp i] at h
    unfold slotAfterCall at h
    split at h
    · rename_i j o'
      split at h
      · rename_i hj
        unfold slotAfter at h
        split at h
        · rw [← Option.some.inj h, hj.1]
          exact Or.inr rfl
        · rename_i current hcurrent
          split at h
          · rw [← Option.some.inj h, hj.1]
            exact Or.inr rfl
          · rw [hcurrent]
            exact Or.inl h
      · exact Or.inl h
    · exact Or.inl h
  | some jp =>
    obtain ⟨j, p⟩ := jp
    rcases (step_pending hp).2.2 with ⟨_, -, -, -, hkeep⟩ | ⟨-, -, -, hstore⟩
    · rw [hkeep i] at h
      exact Or.inl h
    · rw [hstore i] at h
      split at h
      · rename_i hji
        subst hji
        exact Or.inl ((pending_source hp).2.2 o h)
      · exact Or.inl h

/-- Some call of the run supplied the aggregate of the snapshot; a staged observation that it
    consumed had been staged by an earlier call of the run. -/
def SuppliedAlong (i : Instrument) (e : TickEngine) (ops : List Op) (s : SessionStatistics) :
    Prop :=
  ∃ pre op post, ops = pre ++ op :: post ∧ Supplies i (run step e pre) op s ∧
    ∀ o, ((run step e pre).stateOf i).stagedSessionStatisticsObservation = some o →
      Op.stageSessionStatistics i o ∈ pre

/-- **Published statistics come from one supplied aggregate**, in every run of an engine that has
    nothing stored for the instrument. -/
theorem published_source (hstatistics : (e.stateOf i).sessionStatistics = none)
    (hslot : (e.stateOf i).stagedSessionStatisticsObservation = none) {pre : List Op} {op : Op}
    {p : Pending} (hp : pending (run step e pre) op = some (i, p)) {s : SessionStatistics}
    (hs : p.event.context.sessionStatistics = some s) : SuppliedAlong i e (pre ++ [op]) s := by
  have hstaged : ∀ (pre : List Op) o,
      ((run step e pre).stateOf i).stagedSessionStatisticsObservation = some o →
      Op.stageSessionStatistics i o ∈ pre := by
    intro pre o ho
    obtain ⟨before, op, after, rfl, rfl⟩ :=
      run_origin (fun e : TickEngine => (e.stateOf i).stagedSessionStatisticsObservation)
        (fun _ op o => op = .stageSessionStatistics i o) (fun e op o h => step_slot_source h) hslot
        pre ho
    simp
  rcases (pending_source hp).2.1 s hs with hstored | hsupplied
  · obtain ⟨before, op', after, rfl, hsource⟩ :=
      run_origin (fun e : TickEngine => (e.stateOf i).sessionStatistics) (Supplies i)
        (fun e op s h => step_statistics_source h) hstatistics pre hstored
    exact ⟨before, op', after ++ [op], by simp, hsource, hstaged before⟩
  · exact ⟨pre, op, [], rfl, hsupplied, hstaged pre⟩

/-! ## Runs that differ in unverified prices -/

/-- Two ticks or quotes that are equal, or, where tick aggregates are not verified, two ticks that
    differ in the contents of the aggregate both carry. -/
def AlikeDatum (authority : SessionStatisticsAuthority) : Datum → Datum → Prop
  | .tick t, .tick t' =>
    t' = { t with sessionOhlc := t'.sessionOhlc } ∧
      t'.sessionOhlc.isSome = t.sessionOhlc.isSome ∧
      (authority.tickAggregateVerified = true → t' = t)
  | .quote q, .quote q' => q' = q
  | _, _ => False

/-- Two calls that differ at most in the prices of an aggregate of an unverified source. -/
def AlikeOp (authority : SessionStatisticsAuthority) : Op → Op → Prop
  | .process (.datum d) now observedAt bus, .process (.datum d') now' observedAt' bus' =>
    AlikeDatum authority d d' ∧ now' = now ∧ observedAt' = observedAt ∧ bus' = bus
  | .stageSessionStatistics i o, .stageSessionStatistics i' o' =>
    i' = i ∧ AlikeObservation authority o o'
  | op, op' => op' = op

theorem AlikeDatum.fields {authority : SessionStatisticsAuthority} {d d' : Datum}
    (h : AlikeDatum authority d d') : d'.instrument = d.instrument ∧
      d'.eventTimestamp = d.eventTimestamp ∧
      (authority.tickAggregateVerified = true → d'.sessionOhlc = d.sessionOhlc) := by
  cases d with
  | tick t =>
    cases d' with
    | tick t' =>
      obtain ⟨hsame, -, hverified⟩ := h
      refine ⟨?_, ?_, fun hv => by rw [hverified hv]⟩
      · show t'.instrument = t.instrument
        rw [hsame]
      · show t'.eventTimestamp = t.eventTimestamp
        rw [hsame]
    | quote q' => exact h.elim
  | quote q =>
    cases d' with
    | tick t' => exact h.elim
    | quote q' =>
      have hq : q' = q := h
      rw [hq]
      exact ⟨rfl, rfl, fun _ => rfl⟩

/-- Two engines that agree on whatever the statistics of an instrument depend on. -/
structure Alike (authority : SessionStatisticsAuthority) (i : Instrument) (e e' : TickEngine) :
    Prop where
  own : OwnContexts e ∧ OwnContexts e'
  session : e'.session = e.session
  haltActive : e'.haltActive = e.haltActive
  verified : e.authority = authority ∧ e'.authority = authority
  statistics : (e'.stateOf i).sessionStatistics = (e.stateOf i).sessionStatistics
  staged : AlikeStaged authority (e.stateOf i).stagedSessionStatisticsObservation
    (e'.stateOf i).stagedSessionStatisticsObservation

/-- Alike observations reach alike slots alike. -/
theorem slotAfter_alike {authority : SessionStatisticsAuthority}
    {current current' : Option SessionStatisticsObservation} {o o' : SessionStatisticsObservation}
    (h : AlikeStaged authority current current') (ho : AlikeObservation authority o o') :
    AlikeStaged authority (slotAfter current o) (slotAfter current' o') := by
  cases current with
  | none =>
    cases current' with
    | none => exact ho
    | some c' => exact h.elim
  | some c =>
    cases current' with
    | none => exact h.elim
    | some c' =>
      unfold slotAfter
      simp only [ho.2.2.1, h.2.2.1]
      split
      · exact ho
      · exact h

theorem slotAfterCall_alike {authority : SessionStatisticsAuthority} {i : Instrument}
    {current current' : Option SessionStatisticsObservation} {op op' : Op}
    (h : AlikeStaged authority current current') (hop : AlikeOp authority op op') :
    AlikeStaged authority (slotAfterCall i current op) (slotAfterCall i current' op') := by
  cases op with
  | stageSessionStatistics j o =>
    cases op' with
    | stageSessionStatistics j' o' =>
      obtain ⟨rfl, ho⟩ := hop
      simp only [slotAfterCall, ho.1]
      split
      · exact slotAfter_alike h ho
      · exact h
    | _ => cases hop
  | process event now observedAt bus =>
    cases op' with
    | process => exact h
    | _ => cases event <;> cases hop
  | _ => cases op' <;> first | exact h | cases hop

theorem alike_haltActive {authority : SessionStatisticsAuthority} {e e' : TickEngine} {op op' : Op}
    (h : e'.haltActive = e.haltActive) (hop : AlikeOp authority op op') :
    (step e' op').1.haltActive = (step e op).1.haltActive := by
  rw [(step_settings e op).2.2, (step_settings e' op').2.2]
  cases op with
  | setHalt active =>
    cases op' with
    | setHalt active' =>
      cases hop
      rfl
    | _ => cases hop
  | process event => cases op' <;> first | exact h | (cases event <;> cases hop)
  | _ => cases op' <;> first | exact h | cases hop

/-- Alike data resolve to the same statistics in alike engines. -/
theorem datum_alike {authority : SessionStatisticsAuthority} {e e' : TickEngine} {d d' : Datum}
    (hJ : Alike authority d.instrument e e') (hd : AlikeDatum authority d d') :
    (e'.sessionStatisticsFor d').1 = (e.sessionStatisticsFor d).1 ∧
      AlikeStaged authority (e.sessionStatisticsFor d).2 (e'.sessionStatisticsFor d').2 := by
  obtain ⟨hinstrument, hinstant, haggregate⟩ := hd.fields
  have hat : e'.sessionAt d.eventTimestamp = e.sessionAt d.eventTimestamp := by
    unfold sessionAt
    rw [hJ.session, hJ.haltActive]
  have hstatistics : (e'.registry.stateFor d.instrument).sessionStatistics =
      (e.registry.stateFor d.instrument).sessionStatistics := hJ.statistics
  unfold sessionStatisticsFor
  simp only [hinstrument, hinstant, hat, hstatistics, hJ.verified.1, hJ.verified.2]
  exact resolve_alike _ haggregate hJ.staged

/-- **One pair of alike calls**: the engines stay alike and publish the same statistics. -/
theorem step_alike {authority : SessionStatisticsAuthority} {e e' : TickEngine} {op op' : Op}
    (hJ : Alike authority i e e') (hop : AlikeOp authority op op') (h : Accepts i e op)
    (h' : Accepts i e' op') :
    Alike authority i (step e op).1 (step e' op').1 ∧
      (publishedFor i (step e op).2).map (·.sessionStatistics) =
        (publishedFor i (step e' op').2).map (·.sessionStatistics) := by
  have hown := And.intro (step_ownContexts hJ.own.1 op) (step_ownContexts hJ.own.2 op')
  have hsession : (step e' op').1.session = (step e op).1.session := by
    rw [(step_settings e op).1, (step_settings e' op').1, hJ.session]
  have hhalt := alike_haltActive hJ.haltActive hop
  have hverified : (step e op).1.authority = authority ∧
      (step e' op').1.authority = authority := by
    rw [(step_settings e op).2.1, (step_settings e' op').2.1]
    exact hJ.verified
  rcases accepts_cases hJ.own.1 h with
    ⟨d, now, observedAt, bus, rfl, hd, -, hpub, hstate⟩ | ⟨hpub, -, -, hstat, hslot, hother⟩
  · rcases accepts_cases hJ.own.2 h' with
      ⟨d', now', observedAt', bus', rfl, hd', -, hpub', hstate'⟩ | ⟨-, -, -, -, -, hother'⟩
    · subst hd
      obtain ⟨hstatistics, hstaged⟩ := datum_alike hJ hop.1
      rw [hpub, hpub', Option.map_some, Option.map_some, accepting_fields, accepting_fields]
      refine ⟨⟨hown, hsession, hhalt, hverified, ?_, ?_⟩, congrArg some hstatistics.symm⟩
      · rw [hstate, hstate']
        exact hstatistics
      · rw [hstate, hstate']
        exact hstaged
    · -- the related call is a datum of the same instrument
      cases op' with
      | process event' now' observedAt' bus' =>
        cases event' with
        | reference r => cases hop
        | datum d' => exact absurd (hop.1.fields.1.trans hd) (hother' d' now' observedAt' bus' rfl)
      | _ => cases hop
  · rcases accepts_cases hJ.own.2 h' with
      ⟨d', now', observedAt', bus', rfl, hd', -⟩ | ⟨hpub', -, -, hstat', hslot', -⟩
    · cases op with
      | process event now observedAt bus =>
        cases event with
        | reference r => cases hop
        | datum d =>
          exact absurd (hop.1.fields.1.symm.trans hd') (hother d now observedAt bus rfl)
      | _ => cases hop
    · rw [hpub, hpub']
      refine ⟨⟨hown, hsession, hhalt, hverified, ?_, ?_⟩, rfl⟩
      · rw [hstat, hstat', hJ.statistics]
      · rw [hslot, hslot']
        exact slotAfterCall_alike hJ.staged hop

/-! ## The run -/

/-- What holds of an instrument before and after every call of such a run. -/
def Invariant (i : Instrument) (e : TickEngine) : Prop :=
  OwnContexts e ∧ Stored e.session (e.stateOf i)

theorem step_invariant (hI : Invariant i e) (h : Accepts i e op) : Invariant i (step e op).1 :=
  ⟨step_ownContexts hI.1 op, (step_stored hI.1 hI.2 h).1⟩

theorem create_invariant (known : List Instrument) (session : Option MarketSessionClassifier)
    (candles : Option CandleEngine) (authority : SessionStatisticsAuthority) (i : Instrument) :
    Invariant i (create known session candles authority) := by
  refine ⟨fun j c hc => ?_, ⟨?_, ?_, ?_, ?_, fun _ => rfl⟩⟩
  · cases hc
  · intro c hc
    cases hc
  · intro c hc
    cases hc
  · intro c s hc
    cases hc
  · intro s hs
    cases hs

/-- The contexts published for the instrument follow one another. -/
theorem published_isChain {ops : List Op} (hI : Invariant i e)
    (h : Along step (Accepts i) e ops) :
    ((e.stateOf i).context.toList ++ (outs step e ops).filterMap (publishedFor i)).IsChain
      Follows := by
  refine outs_isChain (fun e : TickEngine => (e.stateOf i).context) (publishedFor i) ?_ ops hI h
  intro e op hI h
  exact ⟨step_invariant hI h, (step_stored hI.1 hI.2 h).2⟩

/-- A published context is that of an accepted datum. -/
theorem published_datum (hown : OwnContexts e) (h : Accepts i e op) {c : MarketContext}
    (hc : publishedFor i (step e op).2 = some c) :
    ∃ d observedAt, d.instrument = i ∧ pending e op = some (i, e.accepting d observedAt) ∧
      c = (e.accepting d observedAt).event.context := by
  rcases accepts_cases hown h with
    ⟨d, now, observedAt, bus, rfl, hd, hclass, hpub, -⟩ | ⟨hpub, -⟩
  · subst hd
    rw [hpub] at hc
    exact ⟨d, observedAt, rfl, by simp [pending, hclass], (Option.some.inj hc).symm⟩
  · rw [hpub] at hc
    cases hc

theorem run_session (e : TickEngine) (ops : List Op) : (run step e ops).session = e.session :=
  run_invariant (I := fun s : TickEngine => s.session = e.session)
    (fun s op h => (step_settings s op).1.trans h) ops rfl

/-- The date of a published context is the exchange-local date of its instant. -/
theorem published_dateOf {ops : List Op} (hI : Invariant i e) (h : Along step (Accepts i) e ops)
    {c : MarketContext} (hc : c ∈ (outs step e ops).filterMap (publishedFor i)) :
    dateOf c = e.localDate c.eventTimestamp := by
  obtain ⟨o, ho, hoc⟩ := List.mem_filterMap.mp hc
  obtain ⟨pre, op, post, rfl, rfl⟩ := exists_of_mem_outs ho
  rw [along_append] at h
  have hown := (h.1.invariant (fun _ _ hop hI => step_invariant hI hop) hI).1
  obtain ⟨d, observedAt, -, -, rfl⟩ := published_datum hown h.2.1 hoc
  rw [dateOf, accepting_fields]
  show ((run step e pre).sessionAt d.eventTimestamp).map (·.tradingDate) = _
  rw [← localDate_eq, localDate, run_session]
  rfl

theorem evolves_of_isChain {cs : List MarketContext} (date : Int) (h : cs.IsChain Follows)
    (hdate : ∀ c ∈ cs, dateOf c = some date) :
    (cs.map (·.sessionStatistics)).Pairwise Evolves := by
  have hchain : cs.IsChain fun c c' => Evolves c.sessionStatistics c'.sessionStatistics :=
    h.imp_of_mem_imp fun c c' hc hc' hf => hf.2 date (hdate c hc) (hdate c' hc')
  exact ((List.isChain_map _).mpr hchain).pairwise

theorem published_follow {ops : List Op} (hI : Invariant i e) (h : Along step (Accepts i) e ops) :
    ((outs step e ops).filterMap (publishedFor i)).IsChain Follows :=
  (published_isChain hI h).right_of_append

theorem published_instants {ops : List Op} (hI : Invariant i e) (h : Along step (Accepts i) e ops) :
    (((outs step e ops).filterMap (publishedFor i)).map (·.eventTimestamp)).Pairwise (· ≤ ·) := by
  have hle : ((outs step e ops).filterMap (publishedFor i)).IsChain
      fun c c' => c.eventTimestamp ≤ c'.eventTimestamp :=
    (published_follow hI h).imp fun _ _ hf => hf.1
  exact ((List.isChain_map _).mpr hle).pairwise

/-- Where the exchange clock never returns to an earlier date, the contexts of a date follow each
    other. -/
theorem published_on_date {ops : List Op} (hI : Invariant i e) (h : Along step (Accepts i) e ops)
    (hclock : ∀ classifier, e.session = some classifier → ∀ t t', t ≤ t' →
      wallDate (classifier.timezone.toLocal t) ≤ wallDate (classifier.timezone.toLocal t'))
    (date : Int) :
    ((((outs step e ops).filterMap (publishedFor i)).filter (dateOf · = some date)).map
      (·.sessionStatistics)).Pairwise Evolves := by
  cases hsession : e.session with
  | none =>
    have hnone :
        ((outs step e ops).filterMap (publishedFor i)).filter (dateOf · = some date) = [] := by
      rw [List.filter_eq_nil_iff]
      intro c hc
      rw [published_dateOf hI h hc, localDate, hsession]
      simp
    rw [hnone]
    exact List.Pairwise.nil
  | some classifier =>
    have hdates : ((outs step e ops).filterMap (publishedFor i)).filter (dateOf · = some date) =
        ((outs step e ops).filterMap (publishedFor i)).filter
          fun c => wallDate (classifier.timezone.toLocal c.eventTimestamp) = date := by
      apply List.filter_congr
      intro c hc
      rw [published_dateOf hI h hc, localDate, hsession]
      simp
    have hsorted : ((outs step e ops).filterMap (publishedFor i)).Pairwise fun c c' =>
        wallDate (classifier.timezone.toLocal c.eventTimestamp) ≤
          wallDate (classifier.timezone.toLocal c'.eventTimestamp) := by
      apply (List.pairwise_map.mp (published_instants hI h)).imp
      intro c c' hle
      exact hclock classifier hsession _ _ hle
    refine evolves_of_isChain date ?_ ?_
    · rw [hdates]
      exact List.IsChain.infix (published_follow hI h) (isInfix_filter_key hsorted date)
    · intro c hc
      simpa using (List.mem_filter.mp hc).2

/-- Alike runs publish the same statistics: their engines stay alike in lockstep. -/
theorem published_alike {authority : SessionStatisticsAuthority} (hJ : Alike authority i e e)
    {ops ops' : List Op} (hops : List.Forall₂ (AlikeOp authority) ops ops')
    (h : Along step (Accepts i) e ops) (h' : Along step (Accepts i) e ops') :
    ((outs step e ops').filterMap (publishedFor i)).map (·.sessionStatistics) =
      ((outs step e ops).filterMap (publishedFor i)).map (·.sessionStatistics) := by
  have hstep : ∀ e e' op op', Alike authority i e e' → AlikeOp authority op op' →
      Accepts i e op → Accepts i e' op' → Alike authority i (step e op).1 (step e' op').1 ∧
        (publishedFor i (step e op).2).map (·.sessionStatistics) =
          (publishedFor i (step e' op').2).map (·.sessionStatistics) :=
    fun _ _ _ _ hJ hop h h' => step_alike hJ hop h h'
  have hobs := outs_lockstep (fun o => (publishedFor i o).map (·.sessionStatistics)) hstep hops hJ
    h h'
  have hfold : ∀ os : List (Option Emitted),
      (os.filterMap (publishedFor i)).map (·.sessionStatistics) =
        (os.map fun o => (publishedFor i o).map (·.sessionStatistics)).filterMap id := by
    intro os
    rw [List.map_filterMap, List.filterMap_map]
    rfl
  rw [hfold, ← hobs, ← hfold]

/-- **Session statistics evolve coherently.**  Take any run of a new engine in which every tick and
    quote of an instrument is accepted, with any staging calls, halts, authority bits and other
    instruments.  The contexts published for the instrument have non-decreasing instants.  Over
    successive contexts of one date the statistics evolve, and so they do over all contexts of the
    date where the exchange clock never returns to an earlier date.  Every snapshot belongs to the
    date of its context and is the candidate of one aggregate that a verified source supplied in
    the live session of that date.  A run that differs at most in the prices of aggregates from an
    unverified source publishes the same statistics. -/
theorem statistics_evolve_coherently (known : List Instrument)
    (session : Option MarketSessionClassifier) (candles : Option CandleEngine)
    (authority : SessionStatisticsAuthority) (i : Instrument) (ops : List Op) :
    let e₀ := create known session candles authority
    let published := (outs step e₀ ops).filterMap (publishedFor i)
    Along step (Accepts i) e₀ ops →
      (published.map (·.eventTimestamp)).Pairwise (· ≤ ·) ∧
      (∀ date cs, cs <:+: published → (∀ c ∈ cs, dateOf c = some date) →
        (cs.map (·.sessionStatistics)).Pairwise Evolves) ∧
      ((∀ classifier, session = some classifier → ∀ t t', t ≤ t' →
          wallDate (classifier.timezone.toLocal t) ≤ wallDate (classifier.timezone.toLocal t')) →
        ∀ date, ((published.filter (dateOf · = some date)).map (·.sessionStatistics)).Pairwise
          Evolves) ∧
      (∀ pre op post c s, ops = pre ++ op :: post →
        publishedFor i (step (run step e₀ pre) op).2 = some c → c.sessionStatistics = some s →
        dateOf c = some s.tradingDate ∧ SuppliedAlong i e₀ (pre ++ [op]) s) ∧
      ∀ ops', List.Forall₂ (AlikeOp authority) ops ops' → Along step (Accepts i) e₀ ops' →
        ((outs step e₀ ops').filterMap (publishedFor i)).map (·.sessionStatistics) =
          published.map (·.sessionStatistics) := by
  intro e₀ published h
  have hI : Invariant i e₀ := create_invariant known session candles authority i
  refine ⟨published_instants hI h, ?_, published_on_date hI h, ?_, ?_⟩
  · intro date cs hcs hdate
    have hrun := List.IsChain.infix (published_follow hI h) hcs
    exact evolves_of_isChain date hrun hdate
  · intro pre op post c s hops hc hs
    rw [hops, along_append] at h
    have hpre := h.1.invariant (fun _ _ hop hI => step_invariant hI hop) hI
    obtain ⟨hstored, hcontext, -⟩ := step_stored hpre.1 hpre.2 h.2.1
    rw [hc, Option.some_or] at hcontext
    refine ⟨hstored.dated c s hcontext hs, ?_⟩
    obtain ⟨d, observedAt, -, hpending, rfl⟩ := published_datum hpre.1 h.2.1 hc
    exact published_source rfl rfl hpending hs
  · intro ops' hops h'
    have hJ : Alike authority i e₀ e₀ := ⟨⟨hI.1, hI.1⟩, rfl, rfl, ⟨rfl, rfl⟩, rfl, trivial⟩
    exact published_alike hJ hops h h'

/-- The aggregate of a session that rose from its open to its high. -/
def risenAggregate (low high : Price) (h : low ≤ high) : ProviderSessionOhlc where
  openPrice := low
  highPrice := high
  lowPrice := low
  closePrice := high
  low_le_high := h
  open_within := ⟨le_rfl, h⟩
  close_within := ⟨h, le_rfl⟩

theorem hundred_le : rupees 100 ≤ rupees 110 := by decide

/-- A tick at 09:16 whose session aggregate has a new high. -/
def risingTick : Op :=
  .process (.datum (.tick { (sampleTick 556 (rupees 110)).1 with
      sessionOhlc := some (risenAggregate (rupees 100) (rupees 110) hundred_le) }))
    (20000 * day + 226 * minute) (20000 * day + 226 * minute) acceptingBus

/-- The clock of `Asia/Kolkata` never returns to an earlier date. -/
theorem kolkata_forward {t t' : Int} (h : t ≤ t') :
    wallDate (kolkata.toLocal t) ≤ wallDate (kolkata.toLocal t') := by
  have hle : kolkata.toLocal t ≤ kolkata.toLocal t' := by
    simp only [kolkata, ZoneInfo.fixed, ZoneInfo.toLocal]
    omega
  exact Int.ediv_le_ediv day_pos hle

/-- Two ticks of one morning, the second with a new high. -/
theorem statistics_sample :
    let e₀ := create [reliance] (some nseClassifier) none { tickAggregateVerified := true }
    let published := (outs step e₀ [aggregateTick, risingTick]).filterMap (publishedFor reliance)
    Along step (Accepts reliance) e₀ [aggregateTick, risingTick] ∧
      ((published.filter (dateOf · = some 20000)).map (·.sessionStatistics)).Pairwise Evolves := by
  intro e₀ published
  have hrun : Along step (Accepts reliance) e₀ [aggregateTick, risingTick] :=
    ⟨fun _ => rfl, fun _ => rfl, trivial⟩
  refine ⟨hrun, ?_⟩
  apply (statistics_evolve_coherently [reliance] (some nseClassifier) none
    { tickAggregateVerified := true } reliance _ hrun).2.2.1
  intro classifier hclassifier t t' hle
  cases hclassifier
  exact kolkata_forward hle

end TickEngine

end ApexScan
