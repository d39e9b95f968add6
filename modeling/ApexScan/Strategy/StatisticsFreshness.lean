import ApexScan.Engine.StatisticsRun
import ApexScan.Strategy.Manager

/-!
# Freshness of consumed session statistics

The readiness gate measures freshness from the `asOf` of the snapshot in force.  A consumed
observation that moves an extreme becomes that snapshot; one that only confirms it is dropped in
favour of the prior snapshot, so freshness goes on counting from the prior `asOf`.

* `Consumes` — an accepted live datum consumes a staged observation that progresses the prior
  snapshot.
* `asOfAfter` — the instant from which freshness counts after that.
* `NoReturn` — the instrument's data do not come back to a date they have left.
* `Held` — the invariant: while the data are on the date, a snapshot of the date is in force that
  is not older.

Main result: `consumed_snapshot_fresh`.  `confirmed_snapshot_is_stale` is a run in which a confirmed
snapshot is judged stale one minute after its confirmation.
-/

set_option autoImplicit false

namespace ApexScan

open Lib

/-! ## The verdict -/

section Verdict

variable {strategy : Strategy} {configuration : Option StrategyConfiguration}
  {context : MarketContext}

theorem assessReadiness_stale
    (h : assessReadiness strategy configuration context = .sessionStatisticsStale) :
    sessionStatisticsVerdict strategy.requirements context = some .sessionStatisticsStale := by
  unfold assessReadiness at h
  split at h
  · cases h
  · split at h
    · cases h
    · split at h
      · cases h
      · split at h
        · cases h
        · split at h
          · cases h
          · cases hv : sessionStatisticsVerdict strategy.requirements context with
            | none =>
              rw [hv] at h
              cases h
            | some verdict =>
              rw [hv] at h
              exact congrArg some h

/-- A stale verdict is about statistics of the context's date whose age is negative or exceeds the
    declared bound. -/
theorem stale_cases {maxAge : Int}
    (hfresh : strategy.requirements.freshnessFor .sessionStatistics = some maxAge)
    (h : assessReadiness strategy configuration context = .sessionStatisticsStale) :
    ∃ session statistics, context.session = some session ∧
      context.sessionStatistics = some statistics ∧
      statistics.tradingDate = session.tradingDate ∧
      (context.observedAt < statistics.asOf ∨ statistics.asOf + maxAge < context.observedAt) := by
  have hverdict := assessReadiness_stale h
  unfold sessionStatisticsVerdict at hverdict
  split at hverdict
  · cases hverdict
  · split at hverdict
    · rename_i session statistics hsession hstatistics
      split at hverdict
      · cases hverdict
      · rename_i hdate
        split at hverdict
        · cases hverdict
        · rw [hfresh] at hverdict
          simp only at hverdict
          split at hverdict
          · rename_i hage
            refine ⟨session, statistics, hsession, hstatistics, not_not.mp hdate, ?_⟩
            omega
          · cases hverdict
    · cases hverdict

end Verdict

namespace TickEngine

/-! ## Consumption -/

/-- An accepted datum of the instrument consumes, in the live session, the staged observation of its
    date, which is verified and a coherent progression of the date's prior snapshot. -/
structure Consumes (i : Instrument) (e : TickEngine) (op : Op) (o : SessionStatisticsObservation) :
    Prop where
  accepted : (acceptedBy (step e op).2).isSome = true
  live : ∃ d now observedAt bus session, op = .process (.datum d) now observedAt bus ∧
    d.instrument = i ∧ e.sessionAt d.eventTimestamp = some session ∧
    session.marketState = .liveSession ∧ session.tradingDate = o.tradingDate
  staged : (e.stateOf i).stagedSessionStatisticsObservation = some o
  verified : e.authority.stagedObservationVerified = true
  progression : ∀ p, (e.stateOf i).sessionStatistics = some p → p.tradingDate = o.tradingDate →
    p.openPrice = some o.sessionOhlc.openPrice ∧
      (∃ h ∈ p.highPrice, h ≤ o.sessionOhlc.highPrice) ∧
      (∃ l ∈ p.lowPrice, o.sessionOhlc.lowPrice ≤ l) ∧ p.asOf ≤ o.observedAt

/-- The `asOf` of the snapshot in force after the observation is consumed: the observation's instant
    where it moves an extreme or is the first of its date, else the prior snapshot's. -/
def asOfAfter (previous : Option SessionStatistics) (o : SessionStatisticsObservation) : Int :=
  match previous.filter fun p => p.tradingDate = o.tradingDate with
  | none => o.observedAt
  | some p =>
    if p.highPrice = some o.sessionOhlc.highPrice ∧ p.lowPrice = some o.sessionOhlc.lowPrice then
      p.asOf
    else o.observedAt

variable {e : TickEngine} {op : Op} {i : Instrument}

/-- What a coherent progression of the prior snapshot reconciles to. -/
theorem reconciled_progression {o : SessionStatisticsObservation} {p : SessionStatistics}
    (hopen : p.openPrice = some o.sessionOhlc.openPrice)
    (hhigh : ∃ h ∈ p.highPrice, h ≤ o.sessionOhlc.highPrice)
    (hlow : ∃ l ∈ p.lowPrice, o.sessionOhlc.lowPrice ≤ l) (hasOf : p.asOf ≤ o.observedAt) :
    reconciled (candidateOf o.sessionOhlc o.observedAt o.tradingDate) p o.observedAt =
      if p.highPrice = some o.sessionOhlc.highPrice ∧ p.lowPrice = some o.sessionOhlc.lowPrice then p
      else candidateOf o.sessionOhlc o.observedAt o.tradingDate := by
  obtain ⟨h, hh, hle⟩ := hhigh
  obtain ⟨l, hl, hge⟩ := hlow
  have hcoherent : ¬ (o.sessionOhlc.highPrice < h ∨ l < o.sessionOhlc.lowPrice) := by
    rw [not_or, not_lt, not_lt]
    exact ⟨hle, hge⟩
  unfold reconciled
  rw [if_neg (not_lt.mpr hasOf), hopen, hh, hl]
  simp only [candidateOf, ne_eq, not_true_eq_false, if_false, if_neg hcoherent, Option.some.injEq,
    eq_comm]

/-- Only an authoritative snapshot has an open. -/
theorem authoritative_of_open {p : SessionStatistics} {price : Price}
    (h : p.openPrice = some price) : p.quality = .authoritative := by
  have hc := p.consistent
  rw [h] at hc
  cases hq : p.quality with
  | authoritative => rfl
  | unavailable =>
    rw [hq] at hc
    simp [qualityConsistent] at hc

/-- **The snapshot in force after a consumption.** -/
theorem consumed_statistics {session : SessionContext} {o : SessionStatisticsObservation}
    {previous : Option SessionStatistics} {authority : SessionStatisticsAuthority}
    (aggregate : Option ProviderSessionOhlc) (asOf : Int)
    (hlive : session.marketState = .liveSession) (hdate : session.tradingDate = o.tradingDate)
    (hverified : authority.stagedObservationVerified = true)
    (hprogression : ∀ p, previous = some p → p.tradingDate = o.tradingDate →
      p.openPrice = some o.sessionOhlc.openPrice ∧
        (∃ h ∈ p.highPrice, h ≤ o.sessionOhlc.highPrice) ∧
        (∃ l ∈ p.lowPrice, o.sessionOhlc.lowPrice ≤ l) ∧ p.asOf ≤ o.observedAt) :
    ∃ s, (resolveSessionStatistics aggregate asOf (some o) (some session) previous authority).1 =
      some s ∧ s.tradingDate = o.tradingDate ∧ s.quality = .authoritative ∧
      s.asOf = asOfAfter previous o := by
  have hsession : sameSessionPrior previous session =
      previous.filter fun p => p.tradingDate = o.tradingDate := by
    unfold sameSessionPrior
    rw [hdate]
  unfold resolveSessionStatistics applySessionOhlc asOfAfter
  simp only [hdate, hlive, hverified, lt_self_iff_false, and_self, if_true, if_false, ne_eq,
    not_true_eq_false, hsession]
  cases hprior : previous.filter fun p => p.tradingDate = o.tradingDate with
  | none => exact ⟨_, rfl, rfl, rfl, rfl⟩
  | some p =>
    obtain ⟨hprevious, hpdate⟩ := Option.filter_eq_some_iff.mp hprior
    obtain ⟨hopen, hhigh, hlow, hasOf⟩ := hprogression p hprevious (by simpa using hpdate)
    simp only [reconciled_progression hopen hhigh hlow hasOf]
    split
    · exact ⟨p, rfl, by simpa using hpdate, authoritative_of_open hopen, rfl⟩
    · exact ⟨_, rfl, rfl, rfl, rfl⟩

/-! ## While the data stay on the date -/

/-- An accepted datum of the instrument is on the date only if the one before it was. -/
def NoReturn (i : Instrument) (date : Int) (e : TickEngine) (op : Op) : Prop :=
  ∀ d now observedAt bus, op = .process (.datum d) now observedAt bus → d.instrument = i →
    (pending e op).isSome = true → e.localDate d.eventTimestamp = some date →
    ∀ last, (e.stateOf i).lastEventTimestamp = some last → e.localDate last = some date

/-- While the instrument's data are on the date, a snapshot of the date is in force that is not
    older than `asOf`; once they have left it, no statistics of the date are stored. -/
def Held (i : Instrument) (date asOf : Int) (e : TickEngine) : Prop :=
  ∃ last, (e.stateOf i).lastEventTimestamp = some last ∧
    (e.localDate last = some date → ∃ s, (e.stateOf i).sessionStatistics = some s ∧
      s.tradingDate = date ∧ s.quality = .authoritative ∧ asOf ≤ s.asOf) ∧
    (e.localDate last ≠ some date → ∀ s, (e.stateOf i).sessionStatistics = some s →
      s.tradingDate ≠ date)

/-- The statistics of an accepted datum, whether on the date or not. -/
theorem datum_held {date asOf : Int} {d : Datum} {now observedAt : Int} {bus : EventBus}
    (h : Held d.instrument date asOf e)
    (hreturn : NoReturn d.instrument date e (.process (.datum d) now observedAt bus))
    (haccept : (pending e (.process (.datum d) now observedAt bus)).isSome = true) :
    (e.localDate d.eventTimestamp = some date →
      ∃ s, (e.datumFields d observedAt).sessionStatistics = some s ∧ s.tradingDate = date ∧
        s.quality = .authoritative ∧ asOf ≤ s.asOf) ∧
    (e.localDate d.eventTimestamp ≠ some date →
      ∀ s, (e.datumFields d observedAt).sessionStatistics = some s → s.tradingDate ≠ date) := by
  obtain ⟨last, hlast, hon, hoff⟩ := h
  have hsession : (e.datumFields d observedAt).session = e.sessionAt d.eventTimestamp := rfl
  rw [localDate_eq]
  cases hs : e.sessionAt d.eventTimestamp with
  | none =>
    refine ⟨fun hdate => (by cases hdate), ?_⟩
    intro _ s hstat
    rw [datumFields_statistics, hs] at hstat
    have hnone : e.localDate last ≠ some date := by
      unfold localDate
      rw [sessionAt_eq_none hs]
      simp
    exact hoff hnone s hstat
  | some session =>
    rw [hs] at hsession
    rw [Option.map_some, ne_eq, Option.some.injEq]
    refine ⟨?_, ?_⟩
    · intro hdate
      have hlastdate : e.localDate last = some date := by
        apply hreturn d now observedAt bus rfl rfl haccept _ last hlast
        rw [localDate_eq, hs, Option.map_some, hdate]
      obtain ⟨s, hstat, hsdate, hquality, hasOf⟩ := hon hlastdate
      have hevolves : Evolves (e.stateOf d.instrument).sessionStatistics
          (e.datumFields d observedAt).sessionStatistics := by
        rw [datumFields_statistics, hs]
        apply resolve_evolves
        · intro p hp
          rw [hstat] at hp
          rw [← Option.some.inj hp, hsdate, hdate]
        · intro p hp
          rw [hstat] at hp
          rw [← Option.some.inj hp]
          exact hquality
      rw [hstat] at hevolves
      cases hnew : (e.datumFields d observedAt).sessionStatistics with
      | none =>
        rw [hnew] at hevolves
        exact hevolves.elim
      | some s' =>
        rw [hnew] at hevolves
        obtain ⟨-, hquality', -, -, -, hle⟩ := hevolves
        exact ⟨s', rfl, (datum_sameDate hsession hnew).trans hdate, hquality', hasOf.trans hle⟩
    · intro hdate s hstat
      rw [datum_sameDate hsession hstat]
      exact hdate

/-- A call that keeps the instrument's instant and statistics keeps the invariant. -/
theorem Held.congr {date asOf : Int} {e' : TickEngine} (h : Held i date asOf e)
    (hsession : e'.session = e.session)
    (hlast : (e'.stateOf i).lastEventTimestamp = (e.stateOf i).lastEventTimestamp)
    (hstatistics : (e'.stateOf i).sessionStatistics = (e.stateOf i).sessionStatistics) :
    Held i date asOf e' := by
  unfold Held localDate at h ⊢
  rw [hsession, hlast, hstatistics]
  exact h

/-- **One call keeps the invariant**, whatever it is and whether it raises or not. -/
theorem step_held {date asOf : Int} (h : Held i date asOf e) (hreturn : NoReturn i date e op) :
    Held i date asOf (step e op).1 := by
  have hsession := (step_settings e op).1
  cases hp : pending e op with
  | none =>
    exact h.congr hsession
      (step_silent_keeps (f := (·.lastEventTimestamp)) (fun _ _ => rfl) (fun _ _ => rfl) hp i)
      ((step_silent hp).2.2.2.2 i).2
  | some jp =>
    obtain ⟨j, p⟩ := jp
    rcases (step_pending hp).2.2 with ⟨_, -, -, -, hkeep⟩ | ⟨-, -, -, hstore⟩
    · exact h.congr hsession (by rw [hkeep i]) (by rw [hkeep i])
    · by_cases hji : j = i
      · subst hji
        have haccept : (pending e op).isSome = true := by rw [hp]; rfl
        have hstate := hstore j
        rw [if_pos rfl] at hstate
        rcases pending_cases hp with
          ⟨r, now, observedAt, bus, rfl, rfl, -, rfl⟩ | ⟨d, now, observedAt, bus, rfl, rfl, -, rfl⟩
        · exact h.congr hsession (by rw [hstate]; rfl) (by rw [hstate]; rfl)
        · obtain ⟨hon, hoff⟩ := datum_held h hreturn haccept
          refine ⟨d.eventTimestamp, by rw [hstate]; rfl, ?_, ?_⟩
          · rw [step_localDate, hstate]
            exact hon
          · rw [step_localDate, hstate]
            exact hoff
      · have hkeep : (step e op).1.stateOf i = e.stateOf i := by rw [hstore i, if_neg hji]
        exact h.congr hsession (by rw [hkeep]) (by rw [hkeep])

/-- Statistics of the date that a call publishes on the date are not older. -/
theorem published_held {date asOf : Int} (hown : OwnContexts e) (h : Held i date asOf e)
    (hreturn : NoReturn i date e op) {c : MarketContext} {s : SessionStatistics}
    (hc : publishedFor i (step e op).2 = some c) (hdate : dateOf c = some date)
    (hs : c.sessionStatistics = some s) (hsdate : s.tradingDate = date) : asOf ≤ s.asOf := by
  cases hp : pending e op with
  | none =>
    rw [publishedFor, publishedContext_silent hp] at hc
    cases hc
  | some jp =>
    obtain ⟨j, p⟩ := jp
    have haccept : (pending e op).isSome = true := by rw [hp]; rfl
    have hinstrument := pending_instrument hown hp
    rw [publishedFor, publishedContext_pending hp, Option.filter_eq_some_iff] at hc
    obtain ⟨hcontext, hci⟩ := hc
    obtain rfl := Option.some.inj hcontext
    have hji : j = i := by
      rw [← hinstrument]
      simpa using hci
    subst hji
    rcases pending_cases hp with
      ⟨r, now, observedAt, bus, rfl, rfl, -, rfl⟩ | ⟨d, now, observedAt, bus, rfl, rfl, -, rfl⟩
    · rw [acceptingReference_fields] at hs
      have hstored := referenceFields_statistics hs
      obtain ⟨last, -, hon, hoff⟩ := h
      by_cases hlast : e.localDate last = some date
      · obtain ⟨s', hs', -, -, hasOf⟩ := hon hlast
        rw [hstored] at hs'
        rw [Option.some.inj hs']
        exact hasOf
      · exact absurd hsdate (hoff hlast s hstored)
    · obtain ⟨hon, -⟩ := datum_held h hreturn haccept
      rw [accepting_fields] at hs
      rw [dateOf, accepting_fields] at hdate
      have hlocal : e.localDate d.eventTimestamp = some date := by
        rw [localDate_eq]
        exact hdate
      obtain ⟨s', hs', -, -, hasOf⟩ := hon hlocal
      rw [hs] at hs'
      rw [Option.some.inj hs']
      exact hasOf

/-! ## From the consumption on -/

/-- After a consumption the snapshot in force counts from `asOfAfter`. -/
theorem Consumes.held {o : SessionStatisticsObservation} (h : Consumes i e op o) :
    Held i o.tradingDate (asOfAfter (e.stateOf i).sessionStatistics o) (step e op).1 := by
  obtain ⟨haccepted, ⟨d, now, observedAt, bus, session, rfl, rfl, hsession, hlive, hdate⟩, hstaged,
    hverified, hprogression⟩ := h
  obtain ⟨-, -, hstate⟩ := accepted_datum haccepted
  obtain ⟨s, hs, hsdate, hquality, hasOf⟩ := consumed_statistics d.sessionOhlc d.eventTimestamp
    hlive hdate hverified hprogression
  rw [← hstaged, ← hsession, ← datumFields_statistics e d observedAt] at hs
  have hlocal : e.localDate d.eventTimestamp = some o.tradingDate := by
    rw [localDate_eq, hsession, Option.map_some, hdate]
  refine ⟨d.eventTimestamp, by rw [hstate]; rfl, ?_, ?_⟩
  · intro _
    exact ⟨s, by rw [hstate]; exact hs, hsdate, hquality, hasOf.ge⟩
  · intro hoff
    rw [step_localDate] at hoff
    exact absurd hlocal hoff

/-- The instrument's last datum is not earlier than an instant. -/
def LastFrom (i : Instrument) (t : Int) (e : TickEngine) : Prop :=
  ∃ last, (e.stateOf i).lastEventTimestamp = some last ∧ t ≤ last

theorem step_lastFrom {t : Int} (h : LastFrom i t e) (op : Op) : LastFrom i t (step e op).1 := by
  obtain ⟨last, hlast, hle⟩ := h
  have hkept : ((step e op).1.stateOf i).lastEventTimestamp = (e.stateOf i).lastEventTimestamp →
      LastFrom i t (step e op).1 := fun hsame => ⟨last, hsame.trans hlast, hle⟩
  cases hp : pending e op with
  | none =>
    exact hkept (step_silent_keeps (f := (·.lastEventTimestamp)) (fun _ _ => rfl) (fun _ _ => rfl)
      hp i)
  | some jp =>
    obtain ⟨j, p⟩ := jp
    rcases (step_pending hp).2.2 with ⟨_, -, -, -, hkeep⟩ | ⟨-, -, -, hstore⟩
    · exact hkept (by rw [hkeep i])
    · by_cases hji : j = i
      · subst hji
        have hstate := hstore j
        rw [if_pos rfl] at hstate
        rcases pending_cases hp with
          ⟨r, _, _, _, rfl, rfl, -, rfl⟩ | ⟨d, _, _, _, rfl, rfl, hclass, rfl⟩
        · exact hkept (by rw [hstate]; rfl)
        · exact ⟨d.eventTimestamp, by rw [hstate]; rfl, hle.trans (accepted_later hclass hlast)⟩
      · exact hkept (by rw [hstore i, if_neg hji])

/-- Where the exchange clock never goes back to an earlier date, no datum returns to the date of an
    earlier one. -/
theorem forward_noReturn {classifier : MarketSessionClassifier} {t date : Int}
    (hsession : e.session = some classifier)
    (hclock : ∀ t t', t ≤ t' →
      wallDate (classifier.timezone.toLocal t) ≤ wallDate (classifier.timezone.toLocal t'))
    (hdate : wallDate (classifier.timezone.toLocal t) = date) (h : LastFrom i t e) (op : Op) :
    NoReturn i date e op := by
  rintro d now observedAt bus rfl rfl haccept hlocal last hlast
  obtain ⟨⟨j, p⟩, hp⟩ := Option.isSome_iff_exists.mp haccept
  rcases pending_cases hp with ⟨_, _, _, _, hop, -⟩ | ⟨_, _, _, _, hop, rfl, hclass, -⟩
  · cases hop
  · cases hop
    obtain ⟨last', hlast', hle⟩ := h
    rw [hlast] at hlast'
    obtain rfl := Option.some.inj hlast'
    unfold localDate at hlocal ⊢
    rw [hsession, Option.map_some, Option.some.injEq] at hlocal ⊢
    have hbefore := hclock t last hle
    have hafter := hclock last d.eventTimestamp (accepted_later hclass hlast)
    omega

theorem Consumes.lastFrom {o : SessionStatisticsObservation} (h : Consumes i e op o) :
    ∃ t, e.localDate t = some o.tradingDate ∧ LastFrom i t (step e op).1 := by
  obtain ⟨d, _, _, _, session, rfl, rfl, hsession, -, hdate⟩ := h.live
  refine ⟨d.eventTimestamp, by rw [localDate_eq, hsession, Option.map_some, hdate], ?_⟩
  obtain ⟨-, -, hstate⟩ := accepted_datum h.accepted
  exact ⟨d.eventTimestamp, by rw [hstate]; rfl, le_rfl⟩

theorem run_ownContexts (h : OwnContexts e) (ops : List Op) : OwnContexts (run step e ops) :=
  run_invariant (I := OwnContexts) (fun _ op h => step_ownContexts h op) ops h

/-- **A consumed snapshot is fresh for `max_age` from its `asOf`.**  In every run of a new engine in
    which staged observations are verified, take a call that consumes a staged observation with
    instant `t` which progresses the date's prior snapshot.  No later context of the date that is
    observed from `t` on, and at most `max_age` after `asOfAfter`, is judged stale by the readiness
    gate of a strategy with that bound, while no snapshot of a later instant is in force.  The
    instrument's data must not come back to the date after leaving it, which they never do where the
    exchange clock does not go back to an earlier date. -/
theorem consumed_snapshot_fresh (known : List Instrument)
    (session : Option MarketSessionClassifier) (candles : Option CandleEngine)
    (authority : SessionStatisticsAuthority) (i : Instrument) (pre : List Op) (op : Op)
    (o : SessionStatisticsObservation) :
    let e := run step (create known session candles authority) pre
    Consumes i e op o →
      (∀ mid later c maxAge strategy configuration,
        Along step (NoReturn i o.tradingDate) (step e op).1 (mid ++ [later]) →
        publishedFor i (step (run step (step e op).1 mid) later).2 = some c →
        dateOf c = some o.tradingDate →
        (∀ s, c.sessionStatistics = some s → s.asOf ≤ o.observedAt) →
        strategy.requirements.freshnessFor .sessionStatistics = some maxAge →
        o.observedAt ≤ c.observedAt →
        c.observedAt ≤ asOfAfter (e.stateOf i).sessionStatistics o + maxAge →
        assessReadiness strategy configuration c ≠ .sessionStatisticsStale) ∧
      ((∀ classifier, session = some classifier → ∀ t t', t ≤ t' →
          wallDate (classifier.timezone.toLocal t) ≤ wallDate (classifier.timezone.toLocal t')) →
        ∀ ops, Along step (NoReturn i o.tradingDate) (step e op).1 ops) := by
  intro e h
  have hown : OwnContexts e :=
    run_ownContexts (create_invariant known session candles authority i).1 pre
  refine ⟨?_, ?_⟩
  · intro mid later c maxAge strategy configuration halong hc hdate hreplaced hfresh hfrom hto hstale
    rw [along_append] at halong
    have hheld := halong.1.invariant (fun _ _ hop hI => step_held hI hop) h.held
    have hown' : OwnContexts (run step (step e op).1 mid) :=
      run_ownContexts (step_ownContexts hown op) mid
    obtain ⟨session', s, hsession', hs, hsdate, hage⟩ := stale_cases hfresh hstale
    have hsdate' : s.tradingDate = o.tradingDate := by
      rw [dateOf, hsession', Option.map_some] at hdate
      rw [hsdate]
      exact Option.some.inj hdate
    have hlower := published_held hown' hheld halong.2.1 hc hdate hs hsdate'
    have hupper := hreplaced s hs
    omega
  · intro hclock ops
    obtain ⟨t, ht, hlast⟩ := h.lastFrom
    have hsession : e.session = session := run_session _ _
    cases hcls : session with
    | none =>
      rw [localDate, hsession, hcls] at ht
      cases ht
    | some classifier =>
      rw [localDate, hsession, hcls, Option.map_some, Option.some.injEq] at ht
      have hnext : (step e op).1.session = some classifier := by
        rw [(step_settings e op).1, hsession, hcls]
      refine along_of_invariant (I := fun s => s.session = some classifier ∧ LastFrom i t s) ?_ ?_
        ops ⟨hnext, hlast⟩
      · intro s op hI
        exact ⟨(step_settings s op).1.trans hI.1, step_lastFrom hI.2 op⟩
      · intro s op hI
        exact forward_noReturn hI.1 (hclock classifier hcls) ht hI.2 op

theorem two_minutes_pos : 0 < 2 * minute := by decide

/-- Open = High: current-session statistics of at most two minutes. -/
def openHigh : Strategy where
  descriptor :=
    { strategyId := "open_high"
      emissionPolicy := .edgeTriggered
      minContextVersion_pos := Nat.one_pos
      min_le_max := no_greatest_version }
  requirements :=
    { factNeeds := [.session, .sessionStatistics]
      trigger := .onTick
      candleCompleteness := .authoritativeOnly
      freshness := [⟨.sessionStatistics, 2 * minute, two_minutes_pos⟩]
      minContextVersion_pos := Nat.one_pos }
  configurationType := "OpenExtremeConfiguration"

/-- The configuration that `openHigh` needs. -/
def openExtreme : StrategyConfiguration :=
  { configVersion := "1.0.0", classes := ["OpenExtremeConfiguration", "StrategyConfiguration"] }

/-- An observation of `reliance` at `m` minutes past midnight of 2024-10-04, at one price. -/
def observationAt (m : Int) (price : Price) : SessionStatisticsObservation where
  instrument := reliance
  tradingDate := 20000
  observedAt := 20000 * day + (m - 330) * minute
  sessionOhlc := flatAggregate price

/-- The engine of the default settings with verified staged observations. -/
def stagedEngine : TickEngine :=
  create [reliance] (some nseClassifier) none { stagedObservationVerified := true }

/-- An observation is consumed at 09:15, and staged again at 09:17 with the same prices. -/
def confirmingRun : List Op :=
  [.stageSessionStatistics reliance (observationAt 555 (rupees 100)), tickAt 555 acceptingBus,
    .stageSessionStatistics reliance (observationAt 557 (rupees 100))]

/-- The observation of 09:17 is consumed and confirms the snapshot of 09:15, which is judged stale at
    09:18 under a bound of two minutes. -/
theorem confirmed_snapshot_is_stale :
    let e := run step stagedEngine confirmingRun
    let o := observationAt 557 (rupees 100)
    Consumes reliance e (tickAt 557 acceptingBus) o ∧
      ∃ c, publishedFor reliance
          (step (step e (tickAt 557 acceptingBus)).1 (tickAt 558 acceptingBus)).2 = some c ∧
        dateOf c = some o.tradingDate ∧
        (∀ s, c.sessionStatistics = some s → s.asOf ≤ o.observedAt) ∧
        openHigh.requirements.freshnessFor .sessionStatistics = some (2 * minute) ∧
        o.observedAt ≤ c.observedAt ∧ c.observedAt ≤ o.observedAt + 2 * minute ∧
        assessReadiness openHigh (some openExtreme) c = .sessionStatisticsStale := by
  intro e o
  have hprior : (e.stateOf reliance).sessionStatistics =
      some (candidateOf (flatAggregate (rupees 100)) (observationAt 555 (rupees 100)).observedAt
        20000) := rfl
  have hlater : (observationAt 555 (rupees 100)).observedAt ≤ o.observedAt := by decide
  refine ⟨⟨rfl, ⟨_, _, _, _, _, rfl, rfl, rfl, rfl, rfl⟩, rfl, rfl, ?_⟩, _, rfl, rfl, ?_, rfl, ?_,
    ?_, rfl⟩
  · intro p hp _
    rw [hprior] at hp
    obtain rfl := Option.some.inj hp
    exact ⟨rfl, ⟨_, rfl, le_rfl⟩, ⟨_, rfl, le_rfl⟩, hlater⟩
  · intro s hs
    obtain rfl := Option.some.inj hs
    exact hlater
  · decide
  · decide

/-- An observation with a new price is consumed at 09:16 after one at 09:15. -/
def movingRun : List Op :=
  [.stageSessionStatistics reliance (observationAt 555 (rupees 100)), tickAt 555 acceptingBus,
    .stageSessionStatistics reliance
      { observationAt 556 (rupees 100) with
        sessionOhlc := risenAggregate (rupees 100) (rupees 110) hundred_le }]

/-- The context of 09:17 is not stale after the new high of 09:16. -/
theorem consumed_snapshot_fresh_sample :
    ∃ c, publishedFor reliance (step (step (run step stagedEngine movingRun)
        (tickAt 556 acceptingBus)).1 (tickAt 557 acceptingBus)).2 = some c ∧
      assessReadiness openHigh (some openExtreme) c ≠ .sessionStatisticsStale := by
  have hprior : ((run step stagedEngine movingRun).stateOf reliance).sessionStatistics =
      some (candidateOf (flatAggregate (rupees 100)) (observationAt 555 (rupees 100)).observedAt
        20000) := rfl
  have hearlier : (observationAt 555 (rupees 100)).observedAt ≤
      (observationAt 556 (rupees 100)).observedAt := by decide
  have hconsumes : Consumes reliance (run step stagedEngine movingRun) (tickAt 556 acceptingBus)
      { observationAt 556 (rupees 100) with
        sessionOhlc := risenAggregate (rupees 100) (rupees 110) hundred_le } := by
    refine ⟨rfl, ⟨_, _, _, _, _, rfl, rfl, rfl, rfl, rfl⟩, rfl, rfl, ?_⟩
    intro p hp _
    rw [hprior] at hp
    obtain rfl := Option.some.inj hp
    exact ⟨rfl, ⟨_, rfl, hundred_le⟩, ⟨_, rfl, le_rfl⟩, hearlier⟩
  obtain ⟨hfresh, hforward⟩ := consumed_snapshot_fresh [reliance] (some nseClassifier) none
    { stagedObservationVerified := true } reliance movingRun (tickAt 556 acceptingBus) _ hconsumes
  refine ⟨_, rfl, hfresh [] (tickAt 557 acceptingBus) _ (2 * minute) openHigh (some openExtreme) ?_
    rfl rfl ?_ rfl ?_ ?_⟩
  · apply hforward
    intro classifier hclassifier t t' hle
    cases hclassifier
    exact kolkata_forward hle
  · intro s hs
    obtain rfl := Option.some.inj hs
    exact le_rfl
  · decide
  · decide

end TickEngine

end ApexScan
