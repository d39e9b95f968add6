import ApexScan.Services.SectorObservations
import Mathlib.Data.Finset.Card

/-!
# Runs of the observation state (`app/services/sector_intelligence/state.py`)

Observations of several instruments are offered in any order, dated or not.

* `Recorded` — what one offer does to the state; `record_recorded` — it is all that `record` does.
* `sessionOffers` — the offers since the last rollover that were not rejected, the rollover's included.
* `SoundAfter` — what is expected of the state after a run: bounded by the universe, of one date, with the
  last of the newest observations of each identity, and left alone by a rejection.
* `soundAfter_iff` — when that holds of every state reached.

The docstring of `record` says that rejections never mutate state.  An observation that brings the first
trading date is read before its instant is compared, so its date stays when it is rejected.
-/

set_option autoImplicit false

namespace ApexScan.SectorIntelligence

open Lib

/-- The three outcomes that reject an observation. -/
def RecordOutcome.isRejection : RecordOutcome → Bool
  | .accepted | .rolled | .duplicate => false
  | .rejectedUnknown | .rejectedOutOfOrder | .rejectedLateDate => true

namespace ObservationState

variable {s s' : ObservationState} {o : LatestObservation} {outcome : RecordOutcome}

/-! ## One offer -/

/-- The trading dates of the state and the observation do not differ. -/
def Joins (s : ObservationState) (o : LatestObservation) : Prop :=
  ∀ current date, s.tradingDate = some current → o.tradingDate = some date → date = current

/-- The trading date that an observation of the same session leaves. -/
def adoptedDate (s : ObservationState) (o : LatestObservation) : Option Int :=
  s.tradingDate.or o.tradingDate

/-- What one offer does: the state it leaves and its outcome. -/
inductive Recorded (s : ObservationState) (o : LatestObservation) :
    ObservationState → RecordOutcome → Prop where
  | unknown : o.identity ∉ s.expected → Recorded s o s .rejectedUnknown
  | rolled {current date : Int} : o.identity ∈ s.expected → s.tradingDate = some current →
      o.tradingDate = some date → current < date →
      Recorded s o { s with latest := [(o.identity, o)], tradingDate := some date } .rolled
  | late {current date : Int} : o.identity ∈ s.expected → s.tradingDate = some current →
      o.tradingDate = some date → date < current → Recorded s o s .rejectedLateDate
  | outOfOrder {x : LatestObservation} : o.identity ∈ s.expected → s.Joins o →
      s.latest.get o.identity = some x → o.observationTimestamp < x.observationTimestamp →
      Recorded s o { s with tradingDate := s.adoptedDate o } .rejectedOutOfOrder
  | stored {outcome : RecordOutcome} : o.identity ∈ s.expected → s.Joins o →
      (∀ x, s.latest.get o.identity = some x → x.observationTimestamp ≤ o.observationTimestamp) →
      outcome = .accepted ∨ outcome = .duplicate →
      Recorded s o { s with latest := s.latest.set o.identity o, tradingDate := s.adoptedDate o } outcome

theorem applyTradingDate_spec (s : ObservationState) (o : LatestObservation) :
    (s.applyTradingDate o = ({ s with tradingDate := s.adoptedDate o }, none) ∧ s.Joins o) ∨
      ∃ current date, s.tradingDate = some current ∧ o.tradingDate = some date ∧
        (current < date ∧ s.applyTradingDate o =
            ({ s with latest := [(o.identity, o)], tradingDate := some date }, some .rolled) ∨
          date < current ∧ s.applyTradingDate o = (s, some .rejectedLateDate)) := by
  unfold applyTradingDate adoptedDate Joins
  cases hdate : o.tradingDate with
  | none => exact Or.inl ⟨by simp, by simp⟩
  | some date =>
    cases hcurrent : s.tradingDate with
    | none => exact Or.inl ⟨rfl, by simp⟩
    | some current =>
      simp only
      rcases lt_trichotomy current date with hforward | hsame | hbackward
      · exact Or.inr ⟨current, date, rfl, rfl, Or.inl ⟨hforward, if_pos hforward⟩⟩
      · subst hsame
        refine Or.inl ⟨by simp [← hcurrent], ?_⟩
        intro _ _ hc hd
        cases hc
        cases hd
        rfl
      · refine Or.inr ⟨current, date, rfl, rfl, Or.inr ⟨hbackward, ?_⟩⟩
        rw [if_neg (by omega), if_pos hbackward]

theorem applyOrder_spec (s : ObservationState) (o : LatestObservation) :
    (∃ x, s.latest.get o.identity = some x ∧ o.observationTimestamp < x.observationTimestamp ∧
        s.applyOrder o = (s, .rejectedOutOfOrder)) ∨
      (∀ x, s.latest.get o.identity = some x → x.observationTimestamp ≤ o.observationTimestamp) ∧
        ∃ outcome, (outcome = .accepted ∨ outcome = .duplicate) ∧
          s.applyOrder o = ({ s with latest := s.latest.set o.identity o }, outcome) := by
  unfold applyOrder
  cases hget : s.latest.get o.identity with
  | none => exact Or.inr ⟨by simp, .accepted, Or.inl rfl, rfl⟩
  | some x =>
    simp only
    rcases lt_trichotomy o.observationTimestamp x.observationTimestamp with hbefore | hsame | hafter
    · exact Or.inl ⟨x, rfl, hbefore, if_pos hbefore⟩
    · refine Or.inr ⟨?_, .duplicate, Or.inr rfl, ?_⟩
      · intro y hy
        cases hy
        omega
      · rw [if_neg (by omega), if_pos hsame]
    · refine Or.inr ⟨?_, .accepted, Or.inl rfl, ?_⟩
      · intro y hy
        cases hy
        omega
      · rw [if_neg (by omega), if_neg (by omega)]

/-- **What `record` does.** -/
theorem record_recorded (s : ObservationState) (o : LatestObservation) :
    Recorded s o (s.record o).1 (s.record o).2 := by
  unfold record
  split
  · rename_i hunknown
    exact .unknown hunknown
  · rename_i hknown
    rw [not_not] at hknown
    rcases s.applyTradingDate_spec o with
      ⟨hdate, hjoins⟩ | ⟨current, date, hcurrent, hdate, ⟨hforward, hroll⟩ | ⟨hbackward, hlate⟩⟩
    · rw [hdate]
      rcases applyOrder_spec { s with tradingDate := s.adoptedDate o } o with
        ⟨x, hx, hbefore, horder⟩ | ⟨hnot, outcome, houtcome, horder⟩
      · simp only [horder]
        exact .outOfOrder hknown hjoins hx hbefore
      · simp only [horder]
        exact .stored hknown hjoins hnot houtcome
    · rw [hroll]
      exact .rolled hknown hcurrent hdate hforward
    · rw [hlate]
      exact .late hknown hcurrent hdate hbackward

/-! ## What an offer keeps -/

theorem Recorded.expected (h : Recorded s o s' outcome) : s'.expected = s.expected := by
  cases h <;> rfl

/-- A trading date is never unset and never goes back. -/
theorem Recorded.tradingDate (h : Recorded s o s' outcome) {d : Int} (hd : s.tradingDate = some d) :
    ∃ d', s'.tradingDate = some d' ∧ d ≤ d' := by
  cases h with
  | unknown => exact ⟨d, hd, le_rfl⟩
  | rolled _ hcurrent _ hforward =>
    rw [hd] at hcurrent
    cases hcurrent
    exact ⟨_, rfl, by omega⟩
  | late => exact ⟨d, hd, le_rfl⟩
  | outOfOrder => exact ⟨d, by simp [adoptedDate, hd], le_rfl⟩
  | stored => exact ⟨d, by simp [adoptedDate, hd], le_rfl⟩

/-- Only identities of the universe are held, each once. -/
structure Bounded (s : ObservationState) : Prop where
  nodup : (s.latest.map (·.1)).Nodup
  members : ∀ identity ∈ s.latest.map (·.1), identity ∈ s.expected

theorem Recorded.bounded (h : Recorded s o s' outcome) (hs : Bounded s) : Bounded s' := by
  cases h with
  | unknown => exact hs
  | rolled hknown => exact ⟨by simp, by simpa using hknown⟩
  | late => exact hs
  | outOfOrder => exact ⟨hs.nodup, hs.members⟩
  | stored hknown =>
    refine ⟨Dict.nodup_keys_set hs.nodup _ _, ?_⟩
    intro identity hmem
    rw [Dict.mem_keys_iff, Dict.get_set] at hmem
    split at hmem
    · rename_i heq
      exact heq ▸ hknown
    · exact hs.members identity ((Dict.mem_keys_iff _ _).mpr hmem)

/-- The number of identities held is at most that of the universe. -/
theorem Bounded.length_le (h : Bounded s) : s.latest.length ≤ s.expected.toFinset.card := by
  have hsub : (s.latest.map (·.1)).toFinset ⊆ s.expected.toFinset := by
    intro identity hmem
    rw [List.mem_toFinset] at hmem ⊢
    exact h.members identity hmem
  have hcard := Finset.card_le_card hsub
  rwa [List.toFinset_card_of_nodup h.nodup, List.length_map] at hcard

/-- What is held is of the current trading date or of none. -/
def Dated (s : ObservationState) : Prop :=
  ∀ identity x, s.latest.get identity = some x → x.tradingDate = none ∨ x.tradingDate = s.tradingDate

theorem adoptedDate_of_joins (h : s.Joins o) : o.tradingDate = none ∨ o.tradingDate = s.adoptedDate o := by
  unfold adoptedDate
  cases hcurrent : s.tradingDate with
  | none => exact Or.inr rfl
  | some current =>
    cases hdate : o.tradingDate with
    | none => exact Or.inl rfl
    | some date => exact Or.inr (congrArg some (h current date hcurrent hdate))

/-- Adopting a date keeps the observations of the session, dated or not. -/
theorem Dated.adopt (h : Dated s) {identity : String} {x : LatestObservation}
    (hx : s.latest.get identity = some x) : x.tradingDate = none ∨ x.tradingDate = s.adoptedDate o := by
  rcases h identity x hx with hnone | hsame
  · exact Or.inl hnone
  · cases hdate : x.tradingDate with
    | none => exact Or.inl rfl
    | some date =>
      rw [adoptedDate, ← hsame, hdate]
      exact Or.inr rfl

theorem Recorded.dated (h : Recorded s o s' outcome) (hs : Dated s) : Dated s' := by
  intro identity x hx
  cases h with
  | unknown => exact hs identity x hx
  | rolled _ _ hdate =>
    rw [show x = o from ?_]
    · exact Or.inr hdate
    · simp only [Dict.get_cons, Dict.get_nil] at hx
      split at hx
      · exact (Option.some.inj hx).symm
      · cases hx
  | late => exact hs identity x hx
  | outOfOrder => exact hs.adopt hx
  | stored _ hjoins =>
    rw [Dict.get_set] at hx
    split at hx
    · rw [← Option.some.inj hx]
      exact adoptedDate_of_joins hjoins
    · exact hs.adopt hx

/-- Without a rollover, what is held of an identity is replaced by observations as new only. -/
theorem Recorded.timestamp (h : Recorded s o s' outcome) (hroll : outcome ≠ .rolled) {identity : String}
    {x : LatestObservation} (hx : s.latest.get identity = some x) :
    ∃ y, s'.latest.get identity = some y ∧ x.observationTimestamp ≤ y.observationTimestamp := by
  cases h with
  | unknown => exact ⟨x, hx, le_rfl⟩
  | rolled => exact absurd rfl hroll
  | late => exact ⟨x, hx, le_rfl⟩
  | outOfOrder => exact ⟨x, hx, le_rfl⟩
  | stored _ _ hnew =>
    by_cases heq : o.identity = identity
    · subst heq
      exact ⟨o, Dict.get_set_self _ _ _, hnew x hx⟩
    · exact ⟨x, by rw [Dict.get_set_ne _ _ heq, hx], le_rfl⟩

/-! ## The offers of a session -/

/-- The observations of the session after one more offer: a rollover starts a session, a rejected
    observation is in none. -/
def countOffer (session : List LatestObservation) (offer : LatestObservation × RecordOutcome) :
    List LatestObservation :=
  match offer.2 with
  | .rolled => [offer.1]
  | .accepted | .duplicate => session ++ [offer.1]
  | .rejectedUnknown | .rejectedOutOfOrder | .rejectedLateDate => session

/-- The state before any observation. -/
def initial (expected : List String) : ObservationState := { expected }

/-- The state after a sequence of offers. -/
def after (expected : List String) (os : List LatestObservation) : ObservationState :=
  run record (initial expected) os

/-- The offers since the last rollover, its own included, that were not rejected. -/
def sessionOffers (expected : List String) (os : List LatestObservation) : List LatestObservation :=
  (os.zip (outs record (initial expected) os)).foldl countOffer []

theorem sessionOffers_concat (expected : List String) (os : List LatestObservation)
    (o : LatestObservation) :
    sessionOffers expected (os ++ [o]) =
      countOffer (sessionOffers expected os) (o, (record (after expected os) o).2) := by
  unfold sessionOffers after
  rw [outs_concat, List.zip_append (by simp), List.foldl_append]
  rfl

/-- The last of the observations with the greatest timestamp. -/
def LastOfGreatest (os : List LatestObservation) (x : LatestObservation) : Prop :=
  ∃ before since, os = before ++ x :: since ∧
    (∀ y ∈ before, y.observationTimestamp ≤ x.observationTimestamp) ∧
    ∀ y ∈ since, y.observationTimestamp < x.observationTimestamp

/-- Not before the other observation. -/
def NotBefore (a b : LatestObservation) : Prop := a.observationTimestamp ≤ b.observationTimestamp

/-- Of observations in order, the last of the greatest timestamp is the last. -/
theorem lastOfGreatest_iff {os : List LatestObservation} (h : os.Pairwise NotBefore)
    (x : LatestObservation) : LastOfGreatest os x ↔ os.getLast? = some x := by
  constructor
  · rintro ⟨before, since, rfl, _, hsince⟩
    have hempty : since = [] := by
      apply List.eq_nil_iff_forall_not_mem.mpr
      intro y hy
      have hle : x.observationTimestamp ≤ y.observationTimestamp :=
        List.rel_of_pairwise_cons (List.pairwise_append.mp h).2.1 hy
      have := hsince y hy
      omega
    rw [hempty, List.getLast?_concat]
  · intro hlast
    obtain ⟨before, rfl⟩ := List.getLast?_eq_some_iff.mp hlast
    refine ⟨before, [], rfl, ?_, by simp⟩
    intro y hy
    exact (List.pairwise_append.mp h).2.2 y hy x (List.mem_singleton_self x)

/-- The offers of one identity. -/
def offersOf (identity : String) (session : List LatestObservation) : List LatestObservation :=
  session.filter (·.identity = identity)

theorem offersOf_append_self (session : List LatestObservation) (o : LatestObservation) :
    offersOf o.identity (session ++ [o]) = offersOf o.identity session ++ [o] := by
  simp [offersOf]

theorem offersOf_append_ne {identity : String} (session : List LatestObservation)
    (h : o.identity ≠ identity) : offersOf identity (session ++ [o]) = offersOf identity session := by
  simp [offersOf, h]

/-- What is held of each identity is its last offer of the session, and its offers are in order. -/
structure Tracks (s : ObservationState) (session : List LatestObservation) : Prop where
  last : ∀ identity, s.latest.get identity = (offersOf identity session).getLast?
  ordered : ∀ identity, (offersOf identity session).Pairwise NotBefore

theorem Recorded.tracks (h : Recorded s o s' outcome) {session : List LatestObservation}
    (hs : Tracks s session) : Tracks s' (countOffer session (o, outcome)) := by
  cases h with
  | unknown => exact hs
  | rolled =>
    constructor
    · intro identity
      by_cases heq : o.identity = identity <;> simp [countOffer, offersOf, Dict.get_cons, heq]
    · intro identity
      exact (List.pairwise_singleton _ _).sublist List.filter_sublist
  | late => exact hs
  | outOfOrder => exact ⟨hs.last, hs.ordered⟩
  | stored _ _ hnew houtcome =>
    have hcount : countOffer session (o, outcome) = session ++ [o] := by
      rcases houtcome with rfl | rfl <;> rfl
    rw [hcount]
    constructor
    · intro identity
      by_cases heq : o.identity = identity
      · subst heq
        simp [offersOf_append_self]
      · rw [offersOf_append_ne session heq]
        exact (Dict.get_set_ne _ _ heq).trans (hs.last identity)
    · intro identity
      by_cases heq : o.identity = identity
      · subst heq
        rw [offersOf_append_self]
        refine List.pairwise_append.mpr ⟨hs.ordered _, List.pairwise_singleton _ _, ?_⟩
        intro y hy x hx
        cases List.mem_singleton.mp hx
        -- the last offer of the session is held, and the others are not after it
        obtain ⟨z, hz⟩ := Option.isSome_iff_exists.mp (List.getLast?_isSome.mpr (List.ne_nil_of_mem hy))
        have hzo := hnew z ((hs.last _).trans hz)
        have horder := hs.ordered o.identity
        obtain ⟨before, hsplit⟩ := List.getLast?_eq_some_iff.mp hz
        rw [hsplit] at hy horder
        rcases List.mem_append.mp hy with hy | hy
        · have hyz : y.observationTimestamp ≤ z.observationTimestamp :=
            (List.pairwise_append.mp horder).2.2 y hy z (List.mem_singleton_self z)
          exact hyz.trans hzo
        · cases List.mem_singleton.mp hy
          exact hzo
      · rw [offersOf_append_ne session heq]
        exact hs.ordered identity

/-! ## Rejections -/

/-- An observation that brings the first trading date is not before what is held of its identity. -/
def DatesInOrder (s : ObservationState) (o : LatestObservation) : Prop :=
  s.tradingDate = none → o.tradingDate ≠ none → ∀ x, s.latest.get o.identity = some x →
    x.observationTimestamp ≤ o.observationTimestamp

/-- An offer that is rejected leaves the state alone iff it does not bring the first date out of order. -/
theorem Recorded.unchanged_iff (h : Recorded s o s' outcome) (hs : Bounded s) :
    (outcome.isRejection = true → s' = s) ↔ DatesInOrder s o := by
  cases h with
  | unknown hunknown =>
    refine iff_of_true (fun _ => rfl) ?_
    intro _ _ x hx
    have hheld : o.identity ∈ s.latest.map (·.1) := by
      rw [Dict.mem_keys_iff, hx]
      rfl
    exact absurd (hs.members _ hheld) hunknown
  | rolled _ hcurrent =>
    refine iff_of_true (fun h => by cases h) ?_
    intro hnone
    rw [hnone] at hcurrent
    cases hcurrent
  | late _ hcurrent =>
    refine iff_of_true (fun _ => rfl) ?_
    intro hnone
    rw [hnone] at hcurrent
    cases hcurrent
  | outOfOrder _ _ hx hbefore =>
    constructor
    · intro hsame hnone hdate
      have hadopted : s.adoptedDate o = s.tradingDate :=
        congrArg ObservationState.tradingDate (hsame rfl)
      rw [adoptedDate, hnone, Option.none_or] at hadopted
      exact absurd hadopted hdate
    · intro horder _
      have hadopted : s.adoptedDate o = s.tradingDate := by
        unfold adoptedDate
        cases hcurrent : s.tradingDate with
        | some current => rfl
        | none =>
          by_contra hdate
          have := horder hcurrent hdate _ hx
          omega
      rw [hadopted]
  | stored _ _ hnew houtcome =>
    refine iff_of_true ?_ (fun _ _ => hnew)
    intro hrejected
    rcases houtcome with rfl | rfl <;> cases hrejected

/-! ## Runs -/

theorem after_append (expected : List String) (earlier later : List LatestObservation) :
    after expected (earlier ++ later) = run record (after expected earlier) later :=
  run_append _ _ _

theorem after_expected (expected : List String) (os : List LatestObservation) :
    (after expected os).expected = expected :=
  run_invariant (I := fun s => s.expected = expected)
    (fun s o h => (record_recorded s o).expected.trans h) os rfl

theorem bounded_after (expected : List String) (os : List LatestObservation) :
    Bounded (after expected os) :=
  run_invariant (fun s o => (record_recorded s o).bounded) os ⟨List.nodup_nil, by simp [initial]⟩

theorem dated_after (expected : List String) (os : List LatestObservation) :
    Dated (after expected os) :=
  run_invariant (fun s o => (record_recorded s o).dated) os (fun identity x hx => by cases hx)

theorem tracks_after (expected : List String) (os : List LatestObservation) :
    Tracks (after expected os) (sessionOffers expected os) := by
  induction os using List.reverseRecOn with
  | nil => exact ⟨fun identity => rfl, fun identity => List.Pairwise.nil⟩
  | append_singleton os o ih =>
    rw [sessionOffers_concat, after_append]
    exact (record_recorded (after expected os) o).tracks ih

/-- The trading date of a run never goes back. -/
theorem run_tradingDate (os : List LatestObservation) {d : Int} (hd : s.tradingDate = some d) :
    ∃ d', (run record s os).tradingDate = some d' ∧ d ≤ d' := by
  refine run_invariant (I := fun s : ObservationState => ∃ d', s.tradingDate = some d' ∧ d ≤ d') ?_
    os ⟨d, hd, le_rfl⟩
  rintro s o ⟨d', hd', hle⟩
  obtain ⟨d'', hd'', hle'⟩ := (record_recorded s o).tradingDate hd'
  exact ⟨d'', hd'', hle.trans hle'⟩

/-- Between two rollovers nothing older replaces what is held. -/
theorem run_timestamp {os : List LatestObservation} (hroll : .rolled ∉ outs record s os)
    {identity : String} {x : LatestObservation} (hx : s.latest.get identity = some x) :
    ∃ y, (run record s os).latest.get identity = some y ∧
      x.observationTimestamp ≤ y.observationTimestamp := by
  induction os generalizing s x with
  | nil => exact ⟨x, hx, le_rfl⟩
  | cons o os ih =>
    rw [outs_cons, List.mem_cons, not_or] at hroll
    obtain ⟨y, hy, hle⟩ := (record_recorded s o).timestamp (Ne.symm hroll.1) hx
    obtain ⟨z, hz, hle'⟩ := ih hroll.2 hy
    exact ⟨z, hz, hle.trans hle'⟩

/-- What is expected of the state after a run. -/
structure SoundAfter (expected : List String) (os : List LatestObservation) : Prop where
  count : (after expected os).latest.length ≤ expected.toFinset.card
  members : ∀ identity ∈ (after expected os).latest.map (·.1), identity ∈ expected
  dated : ∀ identity x, (after expected os).latest.get identity = some x →
    x.tradingDate = none ∨ x.tradingDate = (after expected os).tradingDate
  tradingDate : ∀ earlier later, os = earlier ++ later → ∀ d,
    (after expected earlier).tradingDate = some d →
    ∃ d', (after expected os).tradingDate = some d' ∧ d ≤ d'
  timestamps : ∀ earlier later, os = earlier ++ later →
    .rolled ∉ outs record (after expected earlier) later → ∀ identity x,
    (after expected earlier).latest.get identity = some x →
    ∃ y, (after expected os).latest.get identity = some y ∧
      x.observationTimestamp ≤ y.observationTimestamp
  newest : ∀ identity x, (after expected os).latest.get identity = some x ↔
    LastOfGreatest (offersOf identity (sessionOffers expected os)) x
  rejections : ∀ earlier o later, os = earlier ++ o :: later →
    (record (after expected earlier) o).2.isRejection = true →
    (record (after expected earlier) o).1 = after expected earlier

/-- Everything but the rejections holds after every run; these leave the state alone iff no first date
    comes out of order. -/
theorem soundAfter_iff_along (expected : List String) (os : List LatestObservation) :
    SoundAfter expected os ↔ Along record DatesInOrder (initial expected) os := by
  rw [along_iff_forall]
  constructor
  · intro h earlier o later hos
    exact ((record_recorded _ o).unchanged_iff (bounded_after expected earlier)).mp
      (h.rejections earlier o later hos)
  · intro h
    have hcount := (bounded_after expected os).length_le
    have hmembers := (bounded_after expected os).members
    rw [after_expected] at hcount hmembers
    constructor
    · exact hcount
    · exact hmembers
    · exact dated_after expected os
    · rintro earlier later rfl d hd
      rw [after_append]
      exact run_tradingDate later hd
    · rintro earlier later rfl hroll identity x hx
      rw [after_append]
      exact run_timestamp hroll hx
    · intro identity x
      have htracks := tracks_after expected os
      rw [lastOfGreatest_iff (htracks.ordered identity), htracks.last]
    · intro earlier o later hos
      exact ((record_recorded _ o).unchanged_iff (bounded_after expected earlier)).mpr
        (h earlier o later hos)

/-- **The invariant holds in every state that a run reaches iff** no observation of the run brings the
    first trading date before the instant of what is held of its identity. -/
theorem soundAfter_iff (expected : List String) (os : List LatestObservation) :
    (∀ reached, reached <+: os → SoundAfter expected reached) ↔
      Along record DatesInOrder (initial expected) os := by
  constructor
  · intro h
    exact (soundAfter_iff_along expected os).mp (h os (List.prefix_refl os))
  · rintro h reached ⟨later, rfl⟩
    rw [along_append] at h
    exact (soundAfter_iff_along expected reached).mpr h.1

/-- An undated observation, and one of an earlier instant that brings the first date. -/
def firstDateOutOfOrder : List LatestObservation :=
  [{ identity := "NSE:A", tradingDate := none, observationTimestamp := 2, lastPrice := none,
     previousClose := none, sessionOpen := none, version := 1 },
   { identity := "NSE:A", tradingDate := some 20000, observationTimestamp := 1, lastPrice := none,
     previousClose := none, sessionOpen := none, version := 2 }]

/-- The second observation is rejected and its date stays. -/
theorem rejected_date_stays : ¬ ∀ expected os, SoundAfter expected os := by
  intro h
  have hdate := (soundAfter_iff_along ["NSE:A"] firstDateOutOfOrder).mp (h _ _)
  have horder := hdate.2.1 rfl (by decide) _ rfl
  exact absurd horder (by decide)

end ObservationState

end ApexScan.SectorIntelligence
