import ApexScan.Engine.TickEngine
import ApexScan.Lib.Machine

/-!
# Latest observations of the sector shadow runtime

Models `app/services/sector_intelligence/state.py` and what `observer.py` takes from a context.

* `ObservationState.record` — one observation offered to the state: roll-over, late dates, order.
* `observationOf` — the observation of a published context.
* `ObservationState.record_held` — what is held after an offer, by its outcome.

Result: `ordered_never_rejected` — observations of one instrument whose instants and dates do not go
back are never rejected as out of order or late.  The diagnostic counters are left out.
-/

set_option autoImplicit false

namespace ApexScan.SectorIntelligence

open Lib

/-- `instrument_identity`. -/
def instrumentIdentity (i : Instrument) : String := i.exchange ++ ":" ++ i.symbol

/-- The values copied off a context. -/
structure LatestObservation where
  identity : String
  tradingDate : Option Int
  observationTimestamp : Int
  lastPrice : Option Price
  previousClose : Option Price
  sessionOpen : Option Price
  version : ℕ

inductive RecordOutcome where
  | accepted
  | rolled
  | duplicate
  | rejectedUnknown
  | rejectedOutOfOrder
  | rejectedLateDate
  deriving DecidableEq, Repr

/-- One latest observation for each instrument of the expected universe. -/
structure ObservationState where
  expected : List String
  latest : Dict String LatestObservation := []
  tradingDate : Option Int := none

namespace ObservationState

/-- `_apply_trading_date`; no outcome means that the ordering checks follow. -/
def applyTradingDate (s : ObservationState) (o : LatestObservation) :
    ObservationState × Option RecordOutcome :=
  match o.tradingDate, s.tradingDate with
  | none, _ => (s, none)
  | some date, none => ({ s with tradingDate := some date }, none)
  | some date, some current =>
    if current < date then
      -- `clear`, then the observation of the new day alone
      ({ s with latest := [(o.identity, o)], tradingDate := some date }, some .rolled)
    else if date < current then (s, some .rejectedLateDate)
    else (s, none)

/-- The ordering checks of `record` and the write they lead to. -/
def applyOrder (s : ObservationState) (o : LatestObservation) : ObservationState × RecordOutcome :=
  let stored := { s with latest := s.latest.set o.identity o }
  match s.latest.get o.identity with
  | none => (stored, .accepted)
  | some existing =>
    if o.observationTimestamp < existing.observationTimestamp then (s, .rejectedOutOfOrder)
    else if o.observationTimestamp = existing.observationTimestamp then (stored, .duplicate)
    else (stored, .accepted)

/-- `record`. -/
def record (s : ObservationState) (o : LatestObservation) : ObservationState × RecordOutcome :=
  if o.identity ∉ s.expected then (s, .rejectedUnknown)
  else
    match s.applyTradingDate o with
    | (s, some outcome) => (s, outcome)
    | (s, none) => s.applyOrder o

end ObservationState

/-! ## What an observation does to what is held -/

/-- What is held after an offer, by its outcome: the new value in its place, alone, or not at all. -/
def RecordOutcome.held {ν : Type} (outcome : RecordOutcome) (d : Dict String ν) (identity : String)
    (v : ν) : Dict String ν :=
  match outcome with
  | .accepted | .duplicate => d.set identity v
  | .rolled => [(identity, v)]
  | _ => d

theorem RecordOutcome.held_cases {ν : Type} (outcome : RecordOutcome) (d : Dict String ν)
    (identity : String) (v : ν) :
    outcome.held d identity v = d ∨ outcome.held d identity v = [(identity, v)] ∨
      outcome.held d identity v = d.set identity v := by
  cases outcome <;> simp [held]

namespace ObservationState

theorem applyTradingDate_cases (s : ObservationState) (o : LatestObservation) :
    (s.applyTradingDate o).1.expected = s.expected ∧
      ((s.applyTradingDate o).2 = none ∧ (s.applyTradingDate o).1.latest = s.latest ∨
        (s.applyTradingDate o).2 = some .rolled ∧
          (s.applyTradingDate o).1.latest = [(o.identity, o)] ∨
        (s.applyTradingDate o).2 = some .rejectedLateDate ∧
          (s.applyTradingDate o).1.latest = s.latest) := by
  unfold applyTradingDate
  split
  · exact ⟨rfl, Or.inl ⟨rfl, rfl⟩⟩
  · exact ⟨rfl, Or.inl ⟨rfl, rfl⟩⟩
  · split
    · exact ⟨rfl, Or.inr (Or.inl ⟨rfl, rfl⟩)⟩
    · split
      · exact ⟨rfl, Or.inr (Or.inr ⟨rfl, rfl⟩)⟩
      · exact ⟨rfl, Or.inl ⟨rfl, rfl⟩⟩

theorem applyOrder_held (s : ObservationState) (o : LatestObservation) :
    (s.applyOrder o).1.expected = s.expected ∧ (s.applyOrder o).2 ≠ .rejectedUnknown ∧
      (s.applyOrder o).1.latest = (s.applyOrder o).2.held s.latest o.identity o := by
  unfold applyOrder
  simp only
  split
  · exact ⟨rfl, by simp, rfl⟩
  · split
    · exact ⟨rfl, by simp, rfl⟩
    · split
      · exact ⟨rfl, by simp, rfl⟩
      · exact ⟨rfl, by simp, rfl⟩

/-- **What is held after an offer** is decided by its outcome, and only an identity outside the universe is
    refused as unknown. -/
theorem record_held (s : ObservationState) (o : LatestObservation) :
    (s.record o).1.expected = s.expected ∧
      ((s.record o).2 = .rejectedUnknown ↔ o.identity ∉ s.expected) ∧
      (s.record o).1.latest = (s.record o).2.held s.latest o.identity o := by
  unfold record
  split
  · rename_i hunknown
    exact ⟨rfl, iff_of_true rfl hunknown, rfl⟩
  · rename_i hknown
    obtain ⟨hexpected, hcases⟩ := s.applyTradingDate_cases o
    split
    · rename_i s₁ outcome hdate
      rw [hdate] at hexpected hcases
      rcases hcases with ⟨hnone, -⟩ | ⟨hout, hlatest⟩ | ⟨hout, hlatest⟩
      · cases hnone
      · cases hout
        exact ⟨hexpected, iff_of_false (by simp) hknown, hlatest⟩
      · cases hout
        exact ⟨hexpected, iff_of_false (by simp) hknown, hlatest⟩
    · rename_i s₁ hdate
      rw [hdate] at hexpected hcases
      rcases hcases with ⟨-, hlatest⟩ | ⟨hout, -⟩ | ⟨hout, -⟩
      · obtain ⟨hexpected', hnot, hheld⟩ := s₁.applyOrder_held o
        rw [← hexpected, ← (show s₁.latest = s.latest from hlatest)]
        exact ⟨hexpected', iff_of_false hnot (hexpected ▸ hknown), hheld⟩
      · cases hout
      · cases hout

end ObservationState

/-- The observation of `SectorShadowObserver._record`. -/
def observationOf (context : MarketContext) : LatestObservation where
  identity := instrumentIdentity context.instrument
  tradingDate := context.session.map (·.tradingDate)
  observationTimestamp := context.eventTimestamp
  lastPrice := context.latestTick.map (·.lastPrice)
  previousClose := context.previousClose
  sessionOpen := (context.latestTick.bind (·.sessionOhlc)).map (·.openPrice)
  version := context.version

/-! ## Observations in order -/

/-- Neither the instant nor the date goes back from one observation to a later one. -/
def Precedes (a b : LatestObservation) : Prop :=
  a.observationTimestamp ≤ b.observationTimestamp ∧
    ∀ d d', a.tradingDate = some d → b.tradingDate = some d' → d ≤ d'

/-- Refused for its instant or its date. -/
def RecordOutcome.rejected (outcome : RecordOutcome) : Bool :=
  decide (outcome = .rejectedOutOfOrder ∨ outcome = .rejectedLateDate)

namespace ObservationState

/-- Nothing the state holds of an instrument is after an observation to come. -/
def Behind (identity : String) (s : ObservationState) (o : LatestObservation) : Prop :=
  (∀ d d', s.tradingDate = some d → o.tradingDate = some d' → d ≤ d') ∧
    ∀ x, s.latest.get identity = some x → x.observationTimestamp ≤ o.observationTimestamp

variable {s : ObservationState} {o : LatestObservation}

theorem applyTradingDate_behind {identity : String} (hid : o.identity = identity)
    (h : Behind identity s o) :
    (s.applyTradingDate o).2 ≠ some .rejectedLateDate ∧
      (s.applyTradingDate o).2 ≠ some .rejectedOutOfOrder ∧
      (s.applyTradingDate o).1.expected = s.expected ∧
      (∀ d, (s.applyTradingDate o).1.tradingDate = some d →
        s.tradingDate = some d ∨ o.tradingDate = some d) ∧
      ∀ x, (s.applyTradingDate o).1.latest.get identity = some x →
        s.latest.get identity = some x ∨ x = o := by
  unfold applyTradingDate
  split
  · exact ⟨by simp, by simp, rfl, fun d hd => Or.inl hd, fun x hx => Or.inl hx⟩
  · rename_i date hdate _
    refine ⟨by simp, by simp, rfl, fun d hd => Or.inr ?_, fun x hx => Or.inl hx⟩
    rw [hdate]
    exact hd
  · rename_i date current hdate hcurrent
    split
    · refine ⟨by simp, by simp, rfl, fun d hd => Or.inr ?_, fun x hx => Or.inr ?_⟩
      · rw [hdate]
        exact hd
      · simp [Dict.get, hid] at hx
        exact hx.symm
    · split
      · have := h.1 current date hcurrent hdate
        omega
      · exact ⟨by simp, by simp, rfl, fun d hd => Or.inl hd, fun x hx => Or.inl hx⟩

theorem applyOrder_behind {identity : String} (hid : o.identity = identity)
    (h : ∀ x, s.latest.get identity = some x →
      x.observationTimestamp ≤ o.observationTimestamp) :
    (s.applyOrder o).2.rejected = false ∧ (s.applyOrder o).1.expected = s.expected ∧
      (s.applyOrder o).1.tradingDate = s.tradingDate ∧
      ∀ x, (s.applyOrder o).1.latest.get identity = some x → x = o := by
  have hset : ∀ x, (s.latest.set o.identity o).get identity = some x → x = o := by
    intro x hx
    rw [hid, Dict.get_set_self] at hx
    exact (Option.some.inj hx).symm
  unfold applyOrder
  simp only
  split
  · exact ⟨rfl, rfl, rfl, hset⟩
  · rename_i existing hexisting
    rw [hid] at hexisting
    have hle := h existing hexisting
    split
    · omega
    · split
      · exact ⟨rfl, rfl, rfl, hset⟩
      · exact ⟨rfl, rfl, rfl, hset⟩

/-- **One observation in order** is not rejected, and leaves the state behind every observation that
    it precedes. -/
theorem record_behind {identity : String} (hid : o.identity = identity)
    (hexpected : identity ∈ s.expected) (h : Behind identity s o) :
    (s.record o).2.rejected = false ∧ (s.record o).1.expected = s.expected ∧
      ∀ o', Precedes o o' → Behind identity s o' → Behind identity (s.record o).1 o' := by
  have hknown : ¬ o.identity ∉ s.expected := by
    rw [hid]
    exact not_not.mpr hexpected
  obtain ⟨hlate, horder, hexp, hdate, hlatest⟩ := applyTradingDate_behind hid h
  have hnext : ∀ (s' : ObservationState), (∀ d, s'.tradingDate = some d →
      s.tradingDate = some d ∨ o.tradingDate = some d) →
      (∀ x, s'.latest.get identity = some x → s.latest.get identity = some x ∨ x = o) →
      ∀ o', Precedes o o' → Behind identity s o' → Behind identity s' o' := by
    intro s' hdates hlatest o' hprec hbehind
    refine ⟨?_, ?_⟩
    · intro d d' hd hd'
      rcases hdates d hd with hold | hnew
      · exact hbehind.1 d d' hold hd'
      · exact hprec.2 d d' hnew hd'
    · intro x hx
      rcases hlatest x hx with hold | rfl
      · exact hbehind.2 x hold
      · exact hprec.1
  unfold record
  rw [if_neg hknown]
  cases hstep : s.applyTradingDate o with
  | mk s₁ outcome =>
    rw [hstep] at hlate horder hexp hdate hlatest
    cases outcome with
    | some outcome =>
      refine ⟨?_, hexp, hnext s₁ hdate hlatest⟩
      unfold RecordOutcome.rejected
      rw [decide_eq_false_iff_not]
      rintro (rfl | rfl)
      · exact horder rfl
      · exact hlate rfl
    | none =>
      have hbefore : ∀ x, s₁.latest.get identity = some x →
          x.observationTimestamp ≤ o.observationTimestamp := by
        intro x hx
        rcases hlatest x hx with hold | rfl
        · exact h.2 x hold
        · exact le_rfl
      obtain ⟨hout, hexp', hdate', hlatest'⟩ := applyOrder_behind hid hbefore
      refine ⟨hout, hexp'.trans hexp, hnext _ ?_ fun x hx => Or.inr (hlatest' x hx)⟩
      intro d hd
      rw [hdate'] at hd
      exact hdate d hd

/-- **Observations of one instrument in order are never rejected** as out of order or late. -/
theorem ordered_never_rejected (identity : String) {os : List LatestObservation}
    (hid : ∀ o ∈ os, o.identity = identity) (hexpected : identity ∈ s.expected)
    (hs : ∀ o ∈ os, Behind identity s o) (h : os.Pairwise Precedes) :
    ∀ outcome ∈ outs record s os, outcome.rejected = false := by
  induction os generalizing s with
  | nil => simp
  | cons o os ih =>
    obtain ⟨hprec, hrest⟩ := List.pairwise_cons.mp h
    obtain ⟨hout, hexp, hnext⟩ := record_behind (hid o List.mem_cons_self) hexpected
      (hs o List.mem_cons_self)
    intro outcome houtcome
    rcases List.mem_cons.mp houtcome with rfl | houtcome
    · exact hout
    · refine ih (fun o' ho' => hid o' (List.mem_cons_of_mem _ ho')) (hexp ▸ hexpected) ?_ hrest
        outcome houtcome
      intro o' ho'
      exact hnext o' (hprec o' ho') (hs o' (List.mem_cons_of_mem _ ho'))

end ObservationState

end ApexScan.SectorIntelligence
