import ApexScan.Historical.WarmupSpec

/-!
# The session a warmup dates its facts by

A warmup dates the previous-session facts by the latest trading day before the date of its reference, and
installs them with the snapshot of the instrument.

* `LatestBefore` — the latest member of a set before a point, in any linear order; `latestBefore_iff` says
  for which points it is the same.
* `previousTradingDay_latest` — what the search of the calendar window returns.
* `DatedBy`, `warmup_dates` — every snapshot that a warmup leaves behind was there before, or is dated by
  the reference of the warmup; also when the warmup raises.
-/

set_option autoImplicit false

namespace ApexScan

open Lib

/-! ## The latest day before a date -/

/-- `d` is the latest point with `P` before `t`. -/
structure LatestBefore {α : Type} [LinearOrder α] (P : α → Prop) (t d : α) : Prop where
  holds : P d
  before : d < t
  latest : ∀ x, P x → x < t → x ≤ d

/-- The latest point before `t` is the latest one before `u` iff no point with `P` lies between them. -/
theorem LatestBefore.iff {α : Type} [LinearOrder α] {P : α → Prop} {t u d : α}
    (h : LatestBefore P t d) : LatestBefore P u d ↔ ∀ x, P x → (x < t ↔ x < u) := by
  constructor
  · intro h' x hx
    constructor
    · intro hlt
      exact (h.latest x hx hlt).trans_lt h'.before
    · intro hlt
      exact (h'.latest x hx hlt).trans_lt h.before
  · intro hsame
    refine ⟨h.holds, (hsame d h.holds).mp h.before, ?_⟩
    intro x hx hlt
    exact h.latest x hx ((hsame x hx).mpr hlt)

/-- A trading day of the calendar. -/
def TradingDay (calendar : TradingCalendar) (date : Int) : Prop := calendar.isTradingDay date = true

instance (calendar : TradingCalendar) (date : Int) : Decidable (TradingDay calendar date) :=
  inferInstanceAs (Decidable (calendar.isTradingDay date = true))

namespace HistoricalCalendarWindow

variable (w : HistoricalCalendarWindow)

/-- The search goes back over days that are no trading days. -/
theorem searchBack_latest {days : ℕ} {cursor d : Int} (h : w.searchBack days cursor = some d) :
    LatestBefore (TradingDay w.calendar) (cursor + 1) d := by
  induction days generalizing cursor with
  | zero => cases h
  | succ days ih =>
    rw [searchBack] at h
    split at h
    · rename_i htrading
      cases h
      exact ⟨htrading, by omega, fun x _ hlt => by omega⟩
    · rename_i hclosed
      have hearlier := ih h
      rw [sub_add_cancel] at hearlier
      refine ⟨hearlier.holds, by have := hearlier.before; omega, ?_⟩
      intro x hx hlt
      refine hearlier.latest x hx ?_
      have hne : x ≠ cursor := by
        rintro rfl
        exact hclosed hx
      omega

theorem previousTradingDay_latest {reference d : Int} (h : w.previousTradingDay reference = .ok d) :
    LatestBefore (TradingDay w.calendar) reference d := by
  unfold previousTradingDay at h
  simp only at h
  split at h
  · rename_i date hsearch
    cases h
    have hlatest := w.searchBack_latest hsearch
    rwa [sub_add_cancel] at hlatest
  · cases h

end HistoricalCalendarWindow

/-! ## The dates of a warmup -/

/-- The previous-session facts of a snapshot are dated by the newest session completed at the reference. -/
def DatedBy (planner : HistoricalRangePlanner) (reference : Int) (h : HistoricalContext) : Prop :=
  ∀ p ∈ h.previousSession, planner.newestCompletedSession reference = .ok p.tradingDate

namespace WarmupService

theorem orOutside_eq_ok {α : Type} {x : Except ResolveError α} {a : α} (h : orOutside x = .ok a) :
    x = .ok a := by
  cases x with
  | ok b =>
    cases h
    rfl
  | error e => cases h

theorem record_dated {planner : HistoricalRangePlanner} {reference : Int} {a a' : Assembly}
    {timeframe : Timeframe} {built : Option HistoricalSeries}
    (ha : ∀ p ∈ a.previous, planner.newestCompletedSession reference = .ok p.tradingDate)
    (h : record planner reference a timeframe built = .ok a') :
    ∀ p ∈ a'.previous, planner.newestCompletedSession reference = .ok p.tradingDate := by
  cases built with
  | none =>
    cases h
    exact ha
  | some series =>
    obtain ⟨previous, hprevious, h⟩ := bind_eq_ok.mp h
    cases h
    split at hprevious
    · obtain ⟨p, hp, rfl⟩ := map_eq_ok.mp hprevious
      obtain ⟨date, hdate, hp⟩ := bind_eq_ok.mp hp
      cases hp
      rintro _ ⟨⟩
      exact orOutside_eq_ok hdate
    · cases hprevious
      exact ha

theorem assembleOne_dated {planner : HistoricalRangePlanner} {reference : Int}
    {fetch : HistoricalRequestKey → Option (List Candle)} {a a' : Assembly} {d : Descriptor}
    (ha : ∀ p ∈ a.previous, planner.newestCompletedSession reference = .ok p.tradingDate)
    (h : assembleOne planner reference fetch a d = .ok a') :
    ∀ p ∈ a'.previous, planner.newestCompletedSession reference = .ok p.tradingDate := by
  cases d with
  | pending r =>
    cases h
    exact ha
  | failed r =>
    cases h
    exact ha
  | direct r plan =>
    obtain ⟨built, -, h⟩ := bind_eq_ok.mp h
    exact record_dated ha h
  | reconstruct r plan base =>
    obtain ⟨built, -, h⟩ := bind_eq_ok.mp h
    exact record_dated ha h

theorem assemble_dated {planner : HistoricalRangePlanner} {reference : Int}
    {fetch : HistoricalRequestKey → Option (List Candle)} {i : Instrument} {ds : List Descriptor}
    {context : HistoricalContext} {status : InstrumentWarmupStatus}
    (h : assemble planner reference fetch i ds = .ok (context, status)) :
    DatedBy planner reference context := by
  obtain ⟨a, ha, h⟩ := bind_eq_ok.mp h
  obtain ⟨context', hcontext, h⟩ := bind_eq_ok.mp h
  cases h
  have hdated := foldlM_invariant (P := fun a : Assembly =>
    ∀ p ∈ a.previous, planner.newestCompletedSession reference = .ok p.tradingDate)
    (fun _ _ _ ha h => assembleOne_dated ha h) (by rintro _ ⟨⟩) ha
  have hcreate := orInvalid_eq_ok hcontext
  unfold HistoricalContext.create at hcreate
  simp only at hcreate
  split at hcreate
  · cases hcreate
    exact hdated
  · cases hcreate

/-- Planning leaves the registry and the planner. -/
theorem planAll_registry (rs : List HistoricalRequirement) (reference : Int)
    (instruments : List Instrument) (w : WarmupService) :
    (planAll rs reference instruments w).1.registry = w.registry ∧
      (planAll rs reference instruments w).1.planner = w.planner := by
  induction instruments generalizing w with
  | nil => exact ⟨rfl, rfl⟩
  | cons i instruments ih =>
    simp only [planAll]
    split
    · exact ⟨rfl, rfl⟩
    · obtain ⟨hregistry, hplanner⟩ :=
        ih { w with status := w.status.set i { instrument := i, state := .warming } }
      split
      · rename_i heq
        rw [heq] at hregistry hplanner
        exact ⟨hregistry, hplanner⟩
      · rename_i heq
        rw [heq] at hregistry hplanner
        exact ⟨hregistry, hplanner⟩

/-- An installation changes at most the snapshot of a state. -/
theorem installHistorical_cases (r : InstrumentStateRegistry) (j i : Instrument)
    (h : HistoricalContext) :
    (r.installHistorical j h).stateFor i = r.stateFor i ∨
      (r.installHistorical j h).stateFor i = { r.stateFor i with historical := some h } := by
  unfold InstrumentStateRegistry.installHistorical
  split
  · exact Or.inl rfl
  · rw [InstrumentStateRegistry.stateFor_put]
    split
    · rename_i hij
      subst hij
      exact Or.inr rfl
    · exact Or.inl rfl

/-- What a warmup at the reference may do to the states of a registry. -/
def Dates (planner : HistoricalRangePlanner) (reference : Int) (r r' : InstrumentStateRegistry) : Prop :=
  ∀ i, r'.stateFor i = r.stateFor i ∨
    ∃ h, r'.stateFor i = { r.stateFor i with historical := some h } ∧ DatedBy planner reference h

theorem assembleAll_dates (reference : Int) (fetch : HistoricalRequestKey → Option (List Candle))
    (described : List (Instrument × List Descriptor)) (w : WarmupService) :
    Dates w.planner reference w.registry (assembleAll reference fetch described w).1.registry := by
  induction described generalizing w with
  | nil => exact fun i => Or.inl rfl
  | cons d described ih =>
    obtain ⟨j, ds⟩ := d
    simp only [assembleAll]
    split
    · exact fun i => Or.inl rfl
    · rename_i context status hassemble
      intro i
      have hone := installHistorical_cases w.registry j i context
      rcases ih { w with
        registry := w.registry.installHistorical j context, status := w.status.set j status } i with
          hsame | ⟨h, hnew, hdated⟩
      · rcases hone with hold | hcontext
        · exact Or.inl (hsame.trans hold)
        · exact Or.inr ⟨context, hsame.trans hcontext, assemble_dated hassemble⟩
      · refine Or.inr ⟨h, hnew.trans ?_, hdated⟩
        rcases hone with hone | hone <;>
          exact congrArg (fun s : InstrumentState => { s with historical := some h }) hone

/-- **Every snapshot after a warmup is an old one, or is dated by the reference of the warmup**, for all
    instruments and requirements, whether the warmup returns or raises; nothing else of a state changes. -/
theorem warmup_dates (w : WarmupService) (instruments : List Instrument)
    (requirements : List HistoricalRequirement) (reference : Int) :
    Dates w.planner reference w.registry
      (w.warmup instruments requirements reference).1.registry := by
  obtain ⟨hregistry, hplanner⟩ := planAll_registry (sortedRequirements requirements) reference
    (sortedInstruments instruments) w
  unfold warmup
  split
  · rename_i heq
    rw [heq] at hregistry
    exact fun i => Or.inl (by rw [hregistry])
  · rename_i w₁ described heq
    rw [heq] at hregistry hplanner
    dsimp only at hregistry hplanner ⊢
    split
    · exact fun i => Or.inl (by rw [hregistry])
    · rename_i fetched _
      have hdates := assembleAll_dates reference (fun key => (fetched.get key).join) described w₁
      rw [hplanner, hregistry] at hdates
      split
      · rename_i heq'
        rw [heq'] at hdates
        exact hdates
      · rename_i heq'
        rw [heq'] at hdates
        exact hdates

end WarmupService

end ApexScan
