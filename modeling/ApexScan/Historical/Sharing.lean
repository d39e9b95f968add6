import ApexScan.Historical.WarmupSpec

/-!
# Requirements of several consumers

The registry folds the requirements of all consumers into one lookback for each timeframe, and a
warmup withholds a series that is shorter than that lookback.  A consumer that is satisfied alone
can therefore lose its series when another one asks for more than the history holds; it keeps it
where the history is long enough for the larger lookback, and where nobody raises the lookback.

* `Satisfies` — the installed series has at least the candles a requirement asks for, as
  `_historical_ready` of `app/strategy_manager/readiness.py` tests it.

Main result: `shared_warmup_satisfies_iff`.  `short_history_is_withheld` is an instrument with one
session of history.
-/

set_option autoImplicit false

namespace ApexScan

open HistoricalRequirementRegistry

namespace WarmupService

/-- The instrument has a series that meets the requirement. -/
def Satisfies (w : WarmupService) (i : Instrument) (r : HistoricalRequirement) : Prop :=
  ∃ s, w.installedSeries i r.timeframe = some s ∧ r.lookback ≤ s.candles.length

variable {w : WarmupService} {reference : Int} {i : Instrument} {instruments : List Instrument}

/-- An effective requirement is the only one at its timeframe. -/
theorem effective_unique {reg : HistoricalRequirementRegistry} {r r' : HistoricalRequirement}
    (hr : r ∈ reg.effectiveRequirements) (hr' : r' ∈ reg.effectiveRequirements)
    (htf : r'.timeframe = r.timeframe) : r' = r := by
  obtain ⟨hmem, hmax⟩ := (mem_effectiveRequirements reg r).mp hr
  obtain ⟨hmem', hmax'⟩ := (mem_effectiveRequirements reg r').mp hr'
  have hle := hmax r' hmem' htf
  have hge := hmax' r hmem htf.symm
  cases r
  cases r'
  simp only [HistoricalRequirement.mk.injEq] at htf hle hge ⊢
  exact ⟨htf, by omega⟩

/-- After a warmup of the effective requirements, the installed series at a timeframe is the one
    built for its effective requirement. -/
theorem installedSeries_effective {reg : HistoricalRequirementRegistry} {w' : WarmupService}
    (h : w.warmup instruments reg.effectiveRequirements reference = (w', .ok ()))
    (hi : i ∈ instruments) {r : HistoricalRequirement} (hr : r ∈ reg.effectiveRequirements) :
    w.seriesFor reference i r = .ok (w'.installedSeries i r.timeframe) :=
  installedSeries_eq h hi hr fun _ hr' htf => effective_unique hr hr' htf

/-- **Sharing keeps a consumer satisfied exactly when the history is long enough for all.**  For
    every service, instruments, reference and two registries of which the second has all
    requirements of the first: where both warmups return, a requirement of the first is met after
    the second iff the bars found for the effective requirement reach its lookback; and where the
    second registry does not raise the lookback at a timeframe, the same series is installed. -/
theorem shared_warmup_satisfies_iff {reg₁ reg₂ : HistoricalRequirementRegistry}
    (hsub : ∀ r ∈ reg₁.requirements, r ∈ reg₂.requirements) {w₁ w₂ : WarmupService}
    (h₁ : w.warmup instruments reg₁.effectiveRequirements reference = (w₁, .ok ()))
    (h₂ : w.warmup instruments reg₂.effectiveRequirements reference = (w₂, .ok ()))
    (hi : i ∈ instruments) {r : HistoricalRequirement} (hr : r ∈ reg₁.requirements) :
    ∃ e ∈ reg₂.effectiveRequirements, e.timeframe = r.timeframe ∧
      (w₂.Satisfies i r ↔
        ∃ bars, w.barsOf reference i e = .ok (some bars) ∧ e.lookback ≤ bars.length) ∧
      ((∃ r' ∈ reg₁.requirements, r'.timeframe = r.timeframe ∧ e.lookback ≤ r'.lookback) →
        w₂.installedSeries i r.timeframe = w₁.installedSeries i r.timeframe) := by
  obtain ⟨e, he, htf, hle⟩ := exists_effective reg₂ (hsub r hr)
  have hbuilt := installedSeries_effective h₂ hi he
  refine ⟨e, he, htf, ?_, ?_⟩
  · rw [← seriesFor_isSome_iff hbuilt, Satisfies, ← htf, Option.isSome_iff_exists]
    constructor
    · rintro ⟨s, hs, -⟩
      exact ⟨s, hs⟩
    · rintro ⟨s, hs⟩
      rw [hs] at hbuilt
      obtain ⟨-, hlength⟩ := seriesFor_eq_some hbuilt
      exact ⟨s, hs, hlength ▸ hle⟩
  · rintro ⟨r', hr', htf', hle'⟩
    -- the effective requirements of the two registries at this timeframe are the same
    obtain ⟨e₁, he₁, htf₁, hle₁⟩ := exists_effective reg₁ hr'
    have hmax : e₁.lookback ≤ e.lookback :=
      ((mem_effectiveRequirements reg₂ e).mp he).2 e₁
        (hsub e₁ ((mem_effectiveRequirements reg₁ e₁).mp he₁).1)
        (htf₁.trans (htf'.trans htf.symm))
    have hsame : e₁ = e := by
      cases e₁
      cases e
      simp only [HistoricalRequirement.mk.injEq] at htf htf₁ hle₁ hle' hmax ⊢
      exact ⟨htf₁.trans (htf'.trans htf.symm), by omega⟩
    subst hsame
    have hbuilt₁ := installedSeries_effective h₁ hi he₁
    rw [hbuilt] at hbuilt₁
    rw [← htf]
    exact Except.ok.inj hbuilt₁

/-! ## A short history -/

/-- A planner over the default schedule with a calendar for the year 2026. -/
def nsePlanner : HistoricalRangePlanner where
  effective := { default := nseSchedule, overrides := [], distinct := by simp }
  timezoneName := "Asia/Kolkata"
  timezone := kolkata
  window := { calendar := nseClassifier.calendar, coverage := ⟨20454, 20818, by decide⟩ }

/-- A source that returns the session bars it holds inside the requested window. -/
def holding (bars : List Candle) : HistoricalSource where
  directTimeframes := [.session]
  load request := some (bars.filter fun c =>
    request.startTimestamp ≤ c.startTimestamp ∧ c.startTimestamp < request.endTimestamp)

def serviceHolding (bars : List Candle) : WarmupService where
  planner := nsePlanner
  source := holding bars
  registry := { known := [reliance] }

/-- The bar of a session, stamped at its open. -/
def sessionBar (date : Int) : Candle :=
  Coordinator.dailyBar (nsePlanner.localize date nseSchedule.regularOpen)

/-- Noon of 2026-08-07, a Friday. -/
def fridayNoon : Int := nsePlanner.localize 20672 (720 * minute)

def sessions (lookback : ℕ) : HistoricalRequirement :=
  ⟨.session, max 1 lookback, Nat.le_max_left 1 lookback⟩

def oneConsumer : HistoricalRequirementRegistry := ⟨[("narrow_cpr", [sessions 1])]⟩

def twoConsumers : HistoricalRequirementRegistry :=
  ⟨[("narrow_cpr", [sessions 1]), ("previous_session_relative_range", [sessions 2])]⟩

theorem oneConsumer_subset : ∀ r ∈ oneConsumer.requirements, r ∈ twoConsumers.requirements := by
  decide

/-- An instrument with one session of history is satisfied alone, and is not once another consumer
    asks for two sessions. -/
theorem short_history_is_withheld :
    let service := serviceHolding [sessionBar 20671]
    let alone := service.warmup [reliance] oneConsumer.effectiveRequirements fridayNoon
    let shared := service.warmup [reliance] twoConsumers.effectiveRequirements fridayNoon
    (∀ r ∈ oneConsumer.requirements, r ∈ twoConsumers.requirements) ∧
      sessions 1 ∈ oneConsumer.requirements ∧
      alone.2 = .ok () ∧ alone.1.Satisfies reliance (sessions 1) ∧
      shared.2 = .ok () ∧ ¬ shared.1.Satisfies reliance (sessions 1) := by
  intro service alone shared
  have hnone : shared.1.installedSeries reliance .session = none := by rfl
  refine ⟨oneConsumer_subset, by decide, by rfl, ⟨_, rfl, by decide⟩, by rfl, ?_⟩
  rintro ⟨s, hs, -⟩
  rw [show (sessions 1).timeframe = .session from rfl, hnone] at hs
  cases hs

/-- With two sessions of history the requirement stays met. -/
theorem shared_warmup_satisfies_two_sessions :
    let service := serviceHolding [sessionBar 20670, sessionBar 20671]
    let shared := service.warmup [reliance] twoConsumers.effectiveRequirements fridayNoon
    shared.1.Satisfies reliance (sessions 1) := by
  intro service shared
  have halone : service.warmup [reliance] oneConsumer.effectiveRequirements fridayNoon =
      ((service.warmup [reliance] oneConsumer.effectiveRequirements fridayNoon).1, .ok ()) :=
    Prod.ext rfl (by rfl)
  have hshared : service.warmup [reliance] twoConsumers.effectiveRequirements fridayNoon =
      (shared.1, .ok ()) := Prod.ext rfl (by rfl)
  obtain ⟨e, he, -, hiff, -⟩ := shared_warmup_satisfies_iff (r := sessions 1) oneConsumer_subset
    halone hshared (List.mem_singleton_self reliance) (by decide)
  have hmax : e = sessions 2 := by
    have heffective : twoConsumers.effectiveRequirements = [sessions 2] := by decide
    rw [heffective] at he
    exact List.mem_singleton.mp he
  refine hiff.mpr ?_
  rw [hmax]
  exact ⟨_, rfl, by decide⟩

end WarmupService

end ApexScan
