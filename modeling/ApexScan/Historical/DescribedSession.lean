import ApexScan.Historical.PreviousSession
import ApexScan.Historical.Sharing
import Mathlib.Order.Bounds.Basic

/-!
# The session that the previous-session facts describe

The date of the facts comes from the calendar, and their candle is the last one of the session series.
That series is cut by count from whatever the source has answered: bars are stamped with the opening of
their date, bars of closed days and repeated days are left out, and the last `lookback` stay.

* `barDates` — the trading days of which an answer has a bar; `canonicalSessionSeries_spec` says that
  the stamped bars are one for each of them.
* `OrderedOpenings` — the timezone keeps the dates of the openings, and their order.
* `installs` — the contexts a warmup installs, also when it raises later on; `warmup_registry`.
* `Described` — what is to hold of the facts.

Main result: `facts_described_iff`: it does exactly when the newest trading day with a bar is the latest
one before the reference.  `older_bar_is_dated_later` is an answer that ends one session early.
-/

set_option autoImplicit false

namespace ApexScan

open Lib

/-! ## Openings -/

namespace HistoricalRangePlanner

variable (p : HistoricalRangePlanner)

/-- The opening of the session of a date. -/
def opening (date : Int) : Int := p.localize date (p.effective.envelopeFor date).start

/-- The close of the session of a date. -/
def closing (date : Int) : Int := p.localize date (p.effective.envelopeFor date).stop

/-- The trading days of which there is a bar. -/
def barDates (candles : List Candle) : List Int :=
  ((candles.map fun c => p.localDate c.startTimestamp).filter p.calendar.isTradingDay).dedup

/-- The opening of the date of an instant is on that date, and openings are in the order of their
    dates: the clock changes of the timezone stay out of the sessions. -/
structure OrderedOpenings : Prop where
  localDate_opening : ∀ t, p.localDate (p.opening (p.localDate t)) = p.localDate t
  opening_lt : ∀ t t', p.localDate t < p.localDate t' →
    p.opening (p.localDate t) < p.opening (p.localDate t')

variable {p}

/-- A zone with one offset has no clock changes. -/
theorem orderedOpenings_fixed {offset : Int} {h : -day < offset ∧ offset < day}
    (hzone : p.timezone = ZoneInfo.fixed offset h) : p.OrderedOpenings := by
  have hday : day = 86400000000 := rfl
  have hopening : ∀ date, p.opening date =
      date * day + (p.effective.envelopeFor date).start - offset := by
    intro date
    simp only [opening, localize, hzone, ZoneInfo.toUtc, ZoneInfo.fixed, combine]
  have hbounds : ∀ date, 0 ≤ (p.effective.envelopeFor date).start ∧
      (p.effective.envelopeFor date).start < day := by
    intro date
    have hstop := (p.effective.envelopeFor date).stop_lt
    have hstart := (p.effective.envelopeFor date).start_lt_stop
    exact ⟨(p.effective.envelopeFor date).nonneg, hstart.trans hstop⟩
  refine ⟨?_, ?_⟩
  · intro t
    obtain ⟨hnonneg, hlt⟩ := hbounds (p.localDate t)
    have hlocal : p.localDate (p.opening (p.localDate t)) =
        wallDate (combine (p.localDate t) (p.effective.envelopeFor (p.localDate t)).start) := by
      rw [localDate, hopening, hzone]
      simp only [ZoneInfo.toLocal, ZoneInfo.fixed, combine, sub_add_cancel]
    rw [hlocal, wallDate, combine]
    rw [hday] at hlt ⊢
    omega
  · intro t t' hlt
    have hfirst := hbounds (p.localDate t)
    have hsecond := hbounds (p.localDate t')
    rw [hopening, hopening]
    rw [hday] at hfirst hsecond ⊢
    omega

/-! ## Session bars -/

theorem mem_barDates {candles : List Candle} {date : Int} :
    date ∈ p.barDates candles ↔
      TradingDay p.calendar date ∧ ∃ c ∈ candles, p.localDate c.startTimestamp = date := by
  simp only [barDates, List.mem_dedup, List.mem_filter, List.mem_map, TradingDay, and_comm]

/-- A bar is stamped with the session of its date; the bar of a closed day is withheld. -/
theorem canonicalizeSessionCandle_eq_some {c : Candle} {o : Option Candle}
    (h : canonicalizeSessionCandle p.effective p.calendar p.timezone c = some o) :
    (¬ TradingDay p.calendar (p.localDate c.startTimestamp) ∧ o = none) ∨
      TradingDay p.calendar (p.localDate c.startTimestamp) ∧
        ∃ session, o = some session ∧
          session.startTimestamp = p.opening (p.localDate c.startTimestamp) ∧
          session.endTimestamp = p.closing (p.localDate c.startTimestamp) := by
  unfold canonicalizeSessionCandle at h
  simp only at h
  split at h
  · rename_i hclosed
    cases h
    refine Or.inl ⟨?_, rfl⟩
    unfold TradingDay localDate
    rw [hclosed]
    exact Bool.false_ne_true
  · rename_i hopen
    split at h
    · cases h
      exact Or.inr ⟨Bool.eq_true_of_not_eq_false hopen, _, rfl, rfl, rfl⟩
    · cases h

end HistoricalRangePlanner

/-- The identity by which session candles are told apart. -/
def Candle.identity (c : Candle) : Int × Int := (c.startTimestamp, c.endTimestamp)

/-- What the loop returns: one candle for each new identity. -/
structure SessionsCollected (canonicalize : Candle → Option (Option Candle)) (seen : List (Int × Int))
    (candles sessions : List Candle) : Prop where
  distinct : (sessions.map Candle.identity).Nodup
  new : ∀ session ∈ sessions, session.identity ∉ seen ∧
    ∃ c ∈ candles, canonicalize c = some (some session)
  covered : ∀ c ∈ candles, ∃ o, canonicalize c = some o ∧ ∀ session ∈ o,
    session.identity ∈ seen ∨ session.identity ∈ sessions.map Candle.identity

section SessionsCollected

variable {canonicalize : Candle → Option (Option Candle)} {candles sessions : List Candle}
  {seen : List (Int × Int)} {c : Candle}

/-- A candle that adds nothing leaves the loop over the rest. -/
theorem SessionsCollected.skip {o : Option Candle} (h : SessionsCollected canonicalize seen candles sessions)
    (hc : canonicalize c = some o) (ho : ∀ session ∈ o, session.identity ∈ seen) :
    SessionsCollected canonicalize seen (c :: candles) sessions := by
  refine ⟨h.distinct, ?_, ?_⟩
  · intro session hsession
    obtain ⟨hnew, c', hc', heq⟩ := h.new session hsession
    exact ⟨hnew, c', List.mem_cons_of_mem _ hc', heq⟩
  · intro c' hc'
    rcases List.mem_cons.mp hc' with rfl | hc'
    · exact ⟨o, hc, fun session hsession => Or.inl (ho session hsession)⟩
    · exact h.covered c' hc'

/-- A candle of a new identity comes before those of the rest. -/
theorem SessionsCollected.keep {session : Candle}
    (h : SessionsCollected canonicalize (session.identity :: seen) candles sessions)
    (hc : canonicalize c = some (some session)) (hseen : session.identity ∉ seen) :
    SessionsCollected canonicalize seen (c :: candles) (session :: sessions) := by
  refine ⟨?_, ?_, ?_⟩
  · rw [List.map_cons, List.nodup_cons]
    refine ⟨?_, h.distinct⟩
    intro hmem
    obtain ⟨other, hother, heq⟩ := List.mem_map.mp hmem
    refine (h.new other hother).1 ?_
    rw [heq]
    exact List.mem_cons_self
  · intro other hother
    rcases List.mem_cons.mp hother with rfl | hother
    · exact ⟨hseen, c, List.mem_cons_self, hc⟩
    · obtain ⟨hnew, c', hc', heq⟩ := h.new other hother
      exact ⟨fun hmem => hnew (List.mem_cons_of_mem _ hmem), c', List.mem_cons_of_mem _ hc', heq⟩
  · intro c' hc'
    rw [List.map_cons]
    rcases List.mem_cons.mp hc' with rfl | hc'
    · refine ⟨_, hc, ?_⟩
      rintro _ ⟨⟩
      exact Or.inr List.mem_cons_self
    · obtain ⟨o, ho, hmem⟩ := h.covered c' hc'
      refine ⟨o, ho, ?_⟩
      intro other hother
      rcases hmem other hother with hmem | hmem
      · rcases List.mem_cons.mp hmem with heq | hmem
        · rw [heq]
          exact Or.inr List.mem_cons_self
        · exact Or.inl hmem
      · exact Or.inr (List.mem_cons_of_mem _ hmem)

theorem canonicalSessionLoop_spec (h : canonicalSessionLoop canonicalize seen candles = some sessions) :
    SessionsCollected canonicalize seen candles sessions := by
  induction candles generalizing seen sessions with
  | nil =>
    cases h
    exact ⟨List.nodup_nil, by simp, by simp⟩
  | cons c candles ih =>
    rw [canonicalSessionLoop] at h
    cases hc : canonicalize c with
    | none =>
      rw [hc] at h
      cases h
    | some o =>
      rw [hc] at h
      cases o with
      | none => exact (ih h).skip hc (by rintro _ ⟨⟩)
      | some session =>
        simp only [Option.bind_eq_bind, Option.bind_some] at h
        by_cases hseen : (session.startTimestamp, session.endTimestamp) ∈ seen
        · rw [if_pos hseen] at h
          refine (ih h).skip hc ?_
          rintro _ ⟨⟩
          exact hseen
        · rw [if_neg hseen] at h
          obtain ⟨rest, hrest, h⟩ := Option.bind_eq_some_iff.mp h
          cases h
          exact (ih hrest).keep hc hseen

end SessionsCollected

namespace HistoricalRangePlanner

variable {p : HistoricalRangePlanner}

/-- The stamped bars are one for each trading day with a bar, at its opening. -/
theorem canonicalSessionSeries_spec (hzone : p.OrderedOpenings) {candles sessions : List Candle}
    (h : canonicalSessionSeries p.effective p.calendar p.timezone candles = some sessions) :
    (sessions.map fun c => p.localDate c.startTimestamp).Perm (p.barDates candles) ∧
      ∀ c ∈ sessions, c.startTimestamp = p.opening (p.localDate c.startTimestamp) := by
  obtain ⟨hnodup, hfrom, hall⟩ := canonicalSessionLoop_spec h
  have hstamped : ∀ c ∈ sessions, p.localDate c.startTimestamp ∈ p.barDates candles ∧
      c.identity = (p.opening (p.localDate c.startTimestamp), p.closing (p.localDate c.startTimestamp)) := by
    intro c hc
    obtain ⟨-, bar, hbar, heq⟩ := hfrom c hc
    rcases canonicalizeSessionCandle_eq_some heq with ⟨-, hnone⟩ | ⟨htrading, session, hsome, hstart, hend⟩
    · cases hnone
    · cases hsome
      have hdate : p.localDate c.startTimestamp = p.localDate bar.startTimestamp := by
        rw [hstart, hzone.localDate_opening]
      refine ⟨mem_barDates.mpr ⟨hdate ▸ htrading, bar, hbar, hdate.symm⟩, ?_⟩
      rw [Candle.identity, hdate, ← hstart, ← hend]
  refine ⟨?_, ?_⟩
  · refine (List.perm_ext_iff_of_nodup ?_ (List.nodup_dedup _)).mpr ?_
    · -- candles of one date have one identity
      refine List.Nodup.map_on ?_ hnodup.of_map
      intro c hc c' hc' hdate
      refine List.inj_on_of_nodup_map hnodup hc hc' ?_
      rw [(hstamped c hc).2, (hstamped c' hc').2, hdate]
    · intro date
      constructor
      · intro hmem
        obtain ⟨c, hc, rfl⟩ := List.mem_map.mp hmem
        exact (hstamped c hc).1
      · intro hmem
        obtain ⟨htrading, bar, hbar, rfl⟩ := mem_barDates.mp hmem
        obtain ⟨o, heq, hin⟩ := hall bar hbar
        rcases canonicalizeSessionCandle_eq_some heq with ⟨hclosed, -⟩ | ⟨-, session, rfl, hstart, -⟩
        · exact absurd htrading hclosed
        · rcases hin session rfl with hnil | hin
          · cases hnil
          · obtain ⟨c, hc, hidentity⟩ := List.mem_map.mp hin
            refine List.mem_map.mpr ⟨c, hc, ?_⟩
            have hsame : c.startTimestamp = session.startTimestamp := congrArg Prod.fst hidentity
            rw [hsame, hstart, hzone.localDate_opening]
  · intro c hc
    exact congrArg Prod.fst (hstamped c hc).2

/-- Of stamped bars, a later one is of a later date. -/
theorem localDate_le_of_start_le (hzone : p.OrderedOpenings) {c c' : Candle}
    (hc : c.startTimestamp = p.opening (p.localDate c.startTimestamp))
    (hc' : c'.startTimestamp = p.opening (p.localDate c'.startTimestamp))
    (hle : c.startTimestamp ≤ c'.startTimestamp) :
    p.localDate c.startTimestamp ≤ p.localDate c'.startTimestamp := by
  by_contra hlt
  have hopening := hzone.opening_lt _ _ (not_le.mp hlt)
  rw [← hc, ← hc'] at hopening
  exact absurd hle (not_le.mpr hopening)

end HistoricalRangePlanner

/-! ## The series of a session requirement -/

namespace WarmupService

variable {w : WarmupService} {reference : Int} {i : Instrument}

/-- No timeframe divides the session. -/
theorem selectBase_session (direct : List Timeframe) : selectBase .session direct = none := by
  have hnone : direct.filter (dividesExactly .session) = [] :=
    List.filter_eq_nil_iff.mpr fun base _ => by simp [dividesExactly, Timeframe.duration]
  rw [selectBase, hnone]
  rfl

/-- A session requirement that is planned is fetched directly. -/
theorem classify_session {planner : HistoricalRangePlanner} {direct : List Timeframe}
    {r : HistoricalRequirement} {d : Descriptor} {plan : HistoricalFetchPlan}
    (hsession : r.timeframe = .session)
    (h : classifyRequirement planner direct reference i r = .ok d) (hplan : d.plan? = some plan) :
    d = .direct r plan := by
  unfold classifyRequirement at h
  split at h
  · unfold planned at h
    split at h
    · cases h
      cases hplan
      rfl
    · cases h
      cases hplan
    · cases h
  · rw [hsession, selectBase_session] at h
    cases h
    cases hplan

theorem prepareCandles_session {planner : HistoricalRangePlanner} {candles prepared : List Candle}
    (h : prepareCandles planner .session candles = .ok prepared) :
    ∃ sessions, canonicalSessionSeries planner.effective planner.calendar planner.timezone candles =
        some sessions ∧ prepared = sortedByStart sessions := by
  simp only [prepareCandles, Timeframe.isSession, if_true] at h
  cases hcanonical : canonicalSessionSeries planner.effective planner.calendar planner.timezone
      candles with
  | none =>
    rw [hcanonical] at h
    cases h
  | some sessions =>
    rw [hcanonical] at h
    cases h
    exact ⟨sessions, rfl, rfl⟩

/-- The bars found for a session requirement are the stamped bars of the answer. -/
theorem barsOf_session {r : HistoricalRequirement} (hsession : r.timeframe = .session)
    {bars : List Candle} (h : w.barsOf reference i r = .ok (some bars)) :
    ∃ plan candles sessions,
      classifyRequirement w.planner w.source.directTimeframes reference i r = .ok (.direct r plan) ∧
      w.safeFetch plan = .ok (some candles) ∧
      canonicalSessionSeries w.planner.effective w.planner.calendar w.planner.timezone candles =
        some sessions ∧ bars = sortedByStart sessions := by
  obtain ⟨d, hd, h⟩ := bind_eq_ok.mp h
  cases hplan : d.plan? with
  | none =>
    rw [hplan] at h
    cases h
  | some plan =>
    rw [hplan] at h
    obtain ⟨fetched, hfetched, h⟩ := bind_eq_ok.mp h
    obtain rfl := classify_session hsession hd hplan
    cases fetched with
    | none => cases h
    | some candles =>
      obtain ⟨prepared, hprepared, heq⟩ := map_eq_ok.mp h
      cases heq
      rw [hsession] at hprepared
      obtain ⟨sessions, hcanonical, rfl⟩ := prepareCandles_session hprepared
      exact ⟨plan, candles, sessions, hd, hfetched, hcanonical, rfl⟩

/-- The requirement has an answer that is long enough for it. -/
structure Answered (w : WarmupService) (reference : Int) (i : Instrument) (r : HistoricalRequirement)
    (candles : List Candle) : Prop where
  fetched : ∃ plan,
    classifyRequirement w.planner w.source.directTimeframes reference i r = .ok (.direct r plan) ∧
      w.safeFetch plan = .ok (some candles)
  enough : r.lookback ≤ (w.planner.barDates candles).length

/-- No candle of a series starts after its last one. -/
theorem start_le_getLast {timeframe : Timeframe} {candles : List Candle} {s : HistoricalSeries}
    (h : HistoricalSeries.create timeframe candles = some s) {c : Candle} (hc : c ∈ s.candles) :
    c.startTimestamp ≤ (s.candles.getLast s.ne_nil).startTimestamp := by
  have hsorted : s.candles.Pairwise fun a b => a.interval ≤ b.interval := by
    rw [(HistoricalSeries.create_candles h).2]
    exact List.pairwise_insertionSort _ _
  have : Std.Refl fun a b : Candle => a.interval ≤ b.interval := ⟨fun a => le_refl a.interval⟩
  have hle := hsorted.rel_getLast hc
  rcases (Prod.Lex.le_iff).mp hle with hlt | ⟨heq, -⟩
  · exact le_of_lt hlt
  · exact le_of_eq heq

/-- A session series is built from an answer, and ends with the newest trading day that has a bar. -/
theorem seriesFor_session (hzone : w.planner.OrderedOpenings) {r : HistoricalRequirement}
    (hsession : r.timeframe = .session) {s : HistoricalSeries}
    (h : w.seriesFor reference i r = .ok (some s)) :
    ∃ candles, w.Answered reference i r candles ∧
      IsGreatest {date | date ∈ w.planner.barDates candles}
        (w.planner.localDate (s.candles.getLast s.ne_nil).startTimestamp) ∧
      ∀ c ∈ s.candles, w.planner.localDate c.startTimestamp ∈ w.planner.barDates candles := by
  obtain ⟨found, hfound, h⟩ := bind_eq_ok.mp h
  cases found with
  | none => cases h
  | some bars =>
    obtain ⟨plan, candles, sessions, hclassify, hfetched, hcanonical, rfl⟩ :=
      barsOf_session hsession hfound
    obtain ⟨hdates, hstamped⟩ :=
      HistoricalRangePlanner.canonicalSessionSeries_spec hzone hcanonical
    have hperm : (sortedByStart sessions).Perm sessions := List.perm_insertionSort _ _
    have hlength : (sortedByStart sessions).length = (w.planner.barDates candles).length := by
      rw [hperm.length_eq, ← hdates.length_eq, List.length_map]
    simp only [cutSeries] at h
    split at h
    · cases h
    rename_i henough
    obtain ⟨built, hbuilt, heq⟩ := map_eq_ok.mp h
    cases heq
    set kept := (sortedByStart sessions).drop ((sortedByStart sessions).length - r.lookback) with hkept
    have hcreate := orInvalid_eq_ok hbuilt
    have hmem : ∀ c, c ∈ s.candles ↔ c ∈ kept := fun c => by
      rw [(HistoricalSeries.create_candles hcreate).2, sortedByInterval, List.mem_insertionSort]
    have hsub : ∀ c ∈ s.candles, c ∈ sessions := by
      intro c hc
      exact hperm.subset (List.mem_of_mem_drop ((hmem c).mp hc))
    have hmember : ∀ c ∈ s.candles,
        w.planner.localDate c.startTimestamp ∈ w.planner.barDates candles := by
      intro c hc
      exact hdates.subset (List.mem_map_of_mem (hsub c hc))
    refine ⟨candles, ⟨⟨plan, hclassify, hfetched⟩, by omega⟩, ⟨hmember _ (List.getLast_mem _), ?_⟩,
      hmember⟩
    -- every stamped bar starts at or before the last one of the series
    have hlast : ∀ c ∈ sessions,
        c.startTimestamp ≤ (s.candles.getLast s.ne_nil).startTimestamp := by
      intro c hc
      have hsorted : (sortedByStart sessions).Pairwise fun a b =>
          a.startTimestamp ≤ b.startTimestamp := List.pairwise_insertionSort _ _
      rw [← List.take_append_drop ((sortedByStart sessions).length - r.lookback)
        (sortedByStart sessions), List.pairwise_append] at hsorted
      have hsplit : c ∈ (sortedByStart sessions).take ((sortedByStart sessions).length - r.lookback) ∨
          c ∈ kept := by
        rw [hkept, ← List.mem_append, List.take_append_drop]
        exact hperm.mem_iff.mpr hc
      rcases hsplit with hdropped | hkeep
      · exact hsorted.2.2 c hdropped _ ((hmem _).mp (List.getLast_mem _))
      · exact start_le_getLast hcreate ((hmem c).mpr hkeep)
    intro date hdate
    obtain ⟨c, hc, rfl⟩ := List.mem_map.mp (hdates.mem_iff.mpr hdate)
    exact HistoricalRangePlanner.localDate_le_of_start_le hzone (hstamped c hc)
      (hstamped _ (hsub _ (List.getLast_mem _))) (hlast c hc)

/-- Where nothing is raised, an answer that is long enough gives a series. -/
theorem exists_seriesFor (hzone : w.planner.OrderedOpenings) {r : HistoricalRequirement}
    (hsession : r.timeframe = .session) {candles : List Candle}
    (hanswered : w.Answered reference i r candles) {o : Option HistoricalSeries}
    (h : w.seriesFor reference i r = .ok o) : ∃ s, o = some s := by
  obtain ⟨⟨plan, hclassify, hfetched⟩, henough⟩ := hanswered
  refine Option.isSome_iff_exists.mp ((seriesFor_isSome_iff h).mpr ?_)
  obtain ⟨found, hfound, -⟩ := bind_eq_ok.mp h
  cases found with
  | none =>
    simp only [barsOf, hclassify, ok_bind, Descriptor.plan?, hfetched, barsFor] at hfound
    obtain ⟨_, -, hnone⟩ := map_eq_ok.mp hfound
    cases hnone
  | some bars =>
    refine ⟨bars, hfound, ?_⟩
    obtain ⟨plan', candles', sessions, hclassify', hfetched', hcanonical, rfl⟩ :=
      barsOf_session hsession hfound
    rw [hclassify] at hclassify'
    cases hclassify'
    rw [hfetched] at hfetched'
    cases hfetched'
    have hdates := (HistoricalRangePlanner.canonicalSessionSeries_spec hzone hcanonical).1
    rw [sortedByStart, List.length_insertionSort]
    rw [← hdates.length_eq, List.length_map] at henough
    exact henough

/-! ## The installed contexts -/

/-- The contexts that the assembly loop installs, in order. -/
def assembled (planner : HistoricalRangePlanner) (reference : Int)
    (fetch : HistoricalRequestKey → Option (List Candle)) :
    List (Instrument × List Descriptor) → List (Instrument × HistoricalContext)
  | [] => []
  | (i, ds) :: described =>
    match assemble planner reference fetch i ds with
    | .error _ => []
    | .ok (context, _) => (i, context) :: assembled planner reference fetch described

/-- The contexts that a warmup installs, in order, whether it returns or raises. -/
def installs (w : WarmupService) (instruments : List Instrument)
    (requirements : List HistoricalRequirement) (reference : Int) :
    List (Instrument × HistoricalContext) :=
  match planAll (sortedRequirements requirements) reference (sortedInstruments instruments) w with
  | (_, .error _) => []
  | (w, .ok described) =>
    match w.fetchAll (plansOf described) with
    | .error _ => []
    | .ok fetched => assembled w.planner reference (fun key => (fetched.get key).join) described

/-- The registry with the contexts. -/
def installAll (r : InstrumentStateRegistry) (contexts : List (Instrument × HistoricalContext)) :
    InstrumentStateRegistry :=
  contexts.foldl (fun r c => r.installHistorical c.1 c.2) r

theorem assembleAll_registry (reference : Int) (fetch : HistoricalRequestKey → Option (List Candle))
    (described : List (Instrument × List Descriptor)) (w : WarmupService) :
    (assembleAll reference fetch described w).1.registry =
      installAll w.registry (assembled w.planner reference fetch described) := by
  induction described generalizing w with
  | nil => rfl
  | cons d described ih =>
    obtain ⟨i, ds⟩ := d
    rw [assembleAll, assembled]
    cases hassemble : assemble w.planner reference fetch i ds with
    | error e => rfl
    | ok result =>
      dsimp only
      rw [ih]
      rfl

/-- All that a warmup does to the registry is to install the contexts. -/
theorem warmup_registry (w : WarmupService) (instruments : List Instrument)
    (rs : List HistoricalRequirement) :
    (w.warmup instruments rs reference).1.registry =
      installAll w.registry (w.installs instruments rs reference) := by
  have hplanned := (planAll_registry (sortedRequirements rs) reference
    (sortedInstruments instruments) w).1
  unfold warmup installs
  rcases hplan : planAll (sortedRequirements rs) reference (sortedInstruments instruments) w with
    ⟨w₁, _ | described⟩
  · rw [hplan] at hplanned
    exact hplanned
  · rw [hplan] at hplanned
    dsimp only at hplanned ⊢
    cases hfetched : w₁.fetchAll (plansOf described) with
    | error e => exact hplanned
    | ok fetched =>
      have hassembled := assembleAll_registry reference
        (fun key => (fetched.get key).join) described w₁
      dsimp only
      rw [hplanned] at hassembled
      rw [← hassembled]
      split
      · rename_i heq
        rw [heq]
      · rename_i heq
        rw [heq]

theorem mem_assembled {planner : HistoricalRangePlanner}
    {fetch : HistoricalRequestKey → Option (List Candle)}
    {described : List (Instrument × List Descriptor)} {context : HistoricalContext}
    (h : (i, context) ∈ assembled planner reference fetch described) :
    ∃ ds status, (i, ds) ∈ described ∧
      assemble planner reference fetch i ds = .ok (context, status) := by
  induction described with
  | nil => cases h
  | cons d described ih =>
    obtain ⟨j, ds⟩ := d
    rw [assembled] at h
    split at h
    · cases h
    · rename_i first status hassemble
      rcases List.mem_cons.mp h with heq | h
      · cases heq
        exact ⟨ds, status, List.mem_cons_self, hassemble⟩
      · obtain ⟨ds', status', hmem, hassemble'⟩ := ih h
        exact ⟨ds', status', List.mem_cons_of_mem _ hmem, hassemble'⟩

/-! ## The facts of an assembly -/

/-- The facts hold the last candle of a session series that is there. -/
def FromSession (previous : Option PreviousSessionFacts) (series : List HistoricalSeries) : Prop :=
  ∀ p ∈ previous, ∃ s ∈ series, s.timeframe = .session ∧ p.candle = s.candles.getLast s.ne_nil

theorem record_fromSession {planner : HistoricalRangePlanner} {a a' : Assembly}
    {timeframe : Timeframe} {built : Option HistoricalSeries}
    (htimeframe : ∀ s ∈ built, s.timeframe = timeframe) (ha : FromSession a.previous a.series)
    (h : record planner reference a timeframe built = .ok a') :
    FromSession a'.previous a'.series := by
  cases built with
  | none =>
    cases h
    exact ha
  | some s =>
    obtain ⟨previous, hprevious, h⟩ := bind_eq_ok.mp h
    cases h
    split at hprevious
    · rename_i hsession
      obtain ⟨p, hp, rfl⟩ := map_eq_ok.mp hprevious
      obtain ⟨date, -, hp⟩ := bind_eq_ok.mp hp
      cases hp
      rintro _ ⟨⟩
      refine ⟨s, by simp, ?_, rfl⟩
      rw [htimeframe s rfl]
      cases timeframe with
      | session => rfl
      | intraday width pos => cases hsession
    · cases hprevious
      intro p hp
      obtain ⟨s', hs', hspec⟩ := ha p hp
      exact ⟨s', List.mem_append_left _ hs', hspec⟩

theorem buildSeries_timeframe {planner : HistoricalRangePlanner} {d : Descriptor}
    {fetched : Option (List Candle)} {s : HistoricalSeries}
    (h : buildSeries planner d fetched = .ok (some s)) : s.timeframe = d.requirement.timeframe := by
  obtain ⟨found, -, h⟩ := bind_eq_ok.mp h
  cases found with
  | none => cases h
  | some bars => exact (cutSeries_eq_some h).1

theorem assembleOne_fromSession {planner : HistoricalRangePlanner}
    {fetch : HistoricalRequestKey → Option (List Candle)} {a a' : Assembly} {d : Descriptor}
    (ha : FromSession a.previous a.series)
    (h : assembleOne planner reference fetch a d = .ok a') : FromSession a'.previous a'.series := by
  have hbuilt : ∀ fetched, buildSeries planner d fetched >>=
      record planner reference a d.requirement.timeframe = .ok a' →
      FromSession a'.previous a'.series := by
    intro fetched h
    obtain ⟨built, hbuilt, h⟩ := bind_eq_ok.mp h
    refine record_fromSession ?_ ha h
    rintro s rfl
    exact buildSeries_timeframe hbuilt
  cases d with
  | pending r =>
    cases h
    exact ha
  | failed r =>
    cases h
    exact ha
  | direct r plan => exact hbuilt _ h
  | reconstruct r plan base => exact hbuilt _ h

theorem assemble_fromSession {planner : HistoricalRangePlanner}
    {fetch : HistoricalRequestKey → Option (List Candle)} {ds : List Descriptor}
    {context : HistoricalContext} {status : InstrumentWarmupStatus}
    (h : assemble planner reference fetch i ds = .ok (context, status)) :
    FromSession context.previousSession context.series := by
  obtain ⟨a, ha, h⟩ := bind_eq_ok.mp h
  obtain ⟨context', hcontext, h⟩ := bind_eq_ok.mp h
  cases h
  have hfrom := foldlM_invariant (P := fun a : Assembly => FromSession a.previous a.series)
    (fun _ _ _ ha h => assembleOne_fromSession ha h) (by rintro _ ⟨⟩) ha
  have hcreate := orInvalid_eq_ok hcontext
  unfold HistoricalContext.create at hcreate
  simp only at hcreate
  split at hcreate
  · cases hcreate
    intro p hp
    obtain ⟨s, hs, hspec⟩ := hfrom p hp
    exact ⟨s, (List.mem_insertionSort _).mpr hs, hspec⟩
  · cases hcreate

/-! ## The facts of an installed context -/

/-- What an installed context is made of. -/
theorem installs_spec {instruments : List Instrument} {rs : List HistoricalRequirement}
    {context : HistoricalContext} (h : (i, context) ∈ w.installs instruments rs reference) :
    (∀ r ∈ rs, ∃ o, w.seriesFor reference i r = .ok o) ∧
      (∀ s, s ∈ context.series ↔ ∃ r ∈ rs, w.seriesFor reference i r = .ok (some s)) ∧
      DatedBy w.planner reference context ∧ FromSession context.previousSession context.series := by
  unfold installs at h
  rcases hplan : planAll (sortedRequirements rs) reference (sortedInstruments instruments) w with
    ⟨w₁, _ | described⟩
  · rw [hplan] at h
    cases h
  · rw [hplan] at h
    dsimp only at h
    cases hfetched : w₁.fetchAll (plansOf described) with
    | error e =>
      rw [hfetched] at h
      cases h
    | ok fetched =>
      rw [hfetched] at h
      obtain ⟨ds, status, hmem, hassemble⟩ := mem_assembled h
      obtain ⟨hclassified, hfetch⟩ := planned_and_fetched hplan hfetched _ hmem
      obtain ⟨⟨status', rfl⟩, -, -⟩ := planAll_ok hplan
      obtain ⟨-, hreturns, hseries⟩ := assemble_series hclassified hfetch hassemble
      have hsorted : ∀ r, r ∈ sortedRequirements rs ↔ r ∈ rs := fun r => by
        rw [sortedRequirements, List.mem_insertionSort]
      simp only [hsorted] at hreturns hseries
      exact ⟨hreturns, hseries, assemble_dated hassemble, assemble_fromSession hassemble⟩

/-- The answer to a requirement is one. -/
theorem Answered.unique {r : HistoricalRequirement} {candles candles' : List Candle}
    (h : w.Answered reference i r candles) (h' : w.Answered reference i r candles') :
    candles = candles' := by
  obtain ⟨⟨plan, hclassify, hfetched⟩, -⟩ := h
  obtain ⟨⟨plan', hclassify', hfetched'⟩, -⟩ := h'
  rw [hclassify] at hclassify'
  cases hclassify'
  rw [hfetched] at hfetched'
  cases hfetched'
  rfl

/-- The facts describe the session they are dated by, and every candle of the session series is of a
    trading day before the date of the reference. -/
structure Described (planner : HistoricalRangePlanner) (reference : Int) (context : HistoricalContext)
    (p : PreviousSessionFacts) : Prop where
  dated : planner.localDate p.candle.startTimestamp = p.tradingDate
  completed : ∀ s ∈ context.series, s.timeframe = .session → ∀ c ∈ s.candles,
    TradingDay planner.calendar (planner.localDate c.startTimestamp) ∧
      planner.localDate c.startTimestamp < planner.localDate reference

/-- Every session answer that is long enough ends with the newest completed session: it has a bar of
    the latest trading day before the date of the reference, and none of a later trading day. -/
def AnsweredToNewest (w : WarmupService) (rs : List HistoricalRequirement) (reference : Int)
    (i : Instrument) : Prop :=
  ∀ r ∈ rs, r.timeframe = .session → ∀ candles, w.Answered reference i r candles →
    ∃ newest, LatestBefore (TradingDay w.planner.calendar) (w.planner.localDate reference) newest ∧
      IsGreatest {date | date ∈ w.planner.barDates candles} newest

/-- **Previous-session facts describe their session exactly when the answer ends with it.**  For every
    service with a source of any answers, instruments, requirements and reference, also where the warmup
    raises after it has installed the context. -/
theorem facts_described_iff (hzone : w.planner.OrderedOpenings) {instruments : List Instrument}
    {rs : List HistoricalRequirement} {context : HistoricalContext}
    (h : (i, context) ∈ w.installs instruments rs reference) {p : PreviousSessionFacts}
    (hp : p ∈ context.previousSession) :
    Described w.planner reference context p ↔ w.AnsweredToNewest rs reference i := by
  obtain ⟨hreturns, hseries, hdated, hfrom⟩ := installs_spec h
  have hlatest := w.planner.window.previousTradingDay_latest (hdated p hp)
  obtain ⟨s, hs, hsession, hcandle⟩ := hfrom p hp
  -- a context has one series for each timeframe
  have hone : ∀ s' ∈ context.series, s'.timeframe = .session → s' = s := by
    intro s' hs' hsession'
    exact List.inj_on_of_nodup_map context.timeframes_nodup hs' hs (hsession'.trans hsession.symm)
  constructor
  · intro hdescribed r hr hrsession candles hanswered
    obtain ⟨o, ho⟩ := hreturns r hr
    obtain ⟨s', rfl⟩ := exists_seriesFor hzone hrsession hanswered ho
    obtain rfl := hone s' ((hseries s').mpr ⟨r, hr, ho⟩) ((seriesFor_eq_some ho).1.trans hrsession)
    obtain ⟨candles', hanswered', hgreatest, -⟩ := seriesFor_session hzone hrsession ho
    obtain rfl := hanswered.unique hanswered'
    rw [← hcandle, hdescribed.dated] at hgreatest
    exact ⟨p.tradingDate, hlatest, hgreatest⟩
  · intro hanswers
    obtain ⟨r, hr, hbuilt⟩ := (hseries s).mp hs
    have hrsession : r.timeframe = .session := (seriesFor_eq_some hbuilt).1.symm.trans hsession
    obtain ⟨candles, hanswered, hgreatest, hmember⟩ := seriesFor_session hzone hrsession hbuilt
    obtain ⟨newest, hnewest, hlast⟩ := hanswers r hr hrsession candles hanswered
    have hdate : newest = p.tradingDate :=
      le_antisymm (hlatest.latest newest hnewest.holds hnewest.before)
        (hnewest.latest p.tradingDate hlatest.holds hlatest.before)
    refine ⟨?_, ?_⟩
    · rw [hcandle, ← hdate]
      exact hgreatest.unique hlast
    · intro s' hs' hsession' c hc
      obtain rfl := hone s' hs' hsession'
      have hbar := hmember c hc
      exact ⟨(HistoricalRangePlanner.mem_barDates.mp hbar).1, (hlast.2 hbar).trans_lt hnewest.before⟩

/-! ## Samples -/

theorem nsePlanner_openings : nsePlanner.OrderedOpenings :=
  HistoricalRangePlanner.orderedOpenings_fixed rfl

/-- Two sessions of history that end on the Thursday before `fridayNoon`. -/
theorem facts_described_sample :
    let w := serviceHolding [sessionBar 20670, sessionBar 20671]
    ∃ context, ∃ p ∈ context.previousSession,
      w.installs [reliance] [sessions 2] fridayNoon = [(reliance, context)] ∧
      p.tradingDate = 20671 ∧ (Described w.planner fridayNoon context p ↔
        w.AnsweredToNewest [sessions 2] fridayNoon reliance) := by
  intro w
  refine ⟨_, _, rfl, rfl, by rfl, ?_⟩
  have hmem : ∀ context, w.installs [reliance] [sessions 2] fridayNoon = [(reliance, context)] →
      (reliance, context) ∈ w.installs [reliance] [sessions 2] fridayNoon := by
    intro context heq
    rw [heq]
    exact List.mem_singleton_self _
  exact facts_described_iff nsePlanner_openings (hmem _ rfl) rfl

/-- A source that answers every request with the same bars. -/
def answering (bars : List Candle) : HistoricalSource where
  directTimeframes := [.session]
  load _ := some bars

def serviceAnswering (bars : List Candle) : WarmupService :=
  { serviceHolding [] with source := answering bars }

/-- An answer that ends on Wednesday: at Friday noon its candle is dated Thursday.  An answer with the
    bar of the running Friday: this candle is dated Thursday as well. -/
theorem older_bar_is_dated_later :
    (∃ context, ∃ p ∈ context.previousSession,
      (serviceAnswering [sessionBar 20670]).installs [reliance] [sessions 1] fridayNoon =
        [(reliance, context)] ∧
      p.tradingDate = 20671 ∧ nsePlanner.localDate p.candle.startTimestamp = 20670) ∧
    ∃ context, ∃ p ∈ context.previousSession,
      (serviceAnswering [sessionBar 20671, sessionBar 20672]).installs [reliance] [sessions 1]
        fridayNoon = [(reliance, context)] ∧
      p.tradingDate = 20671 ∧ nsePlanner.localDate p.candle.startTimestamp = 20672 ∧
      nsePlanner.localDate fridayNoon = 20672 := by
  refine ⟨⟨_, _, rfl, rfl, by rfl, by rfl⟩, _, _, rfl, rfl, by rfl, by rfl, by rfl⟩

end WarmupService

end ApexScan
