import ApexScan.Historical.Context
import ApexScan.Lib.Dict
import Mathlib.Data.List.Induction

/-!
# Historical requirements and their union (`app/market_engine/historical/requirements.py`)

Consumers register what they need; the registry folds it into one requirement for each timeframe.

* `HistoricalRequirement`, `HistoricalRequirementRegistry` with `register` and `deregister`.
* `effectiveRequirements` — for each timeframe the maximum lookback, in timeframe order.
* `mem_effectiveRequirements` — membership: some consumer asks for it and none for more.
-/

set_option autoImplicit false

namespace ApexScan

open Lib

/-- A timeframe and a positive number of candles. -/
structure HistoricalRequirement where
  timeframe : Timeframe
  lookback : ℕ
  lookback_pos : 1 ≤ lookback
  deriving DecidableEq

/-- The requirements of each consumer. -/
structure HistoricalRequirementRegistry where
  byConsumer : Dict String (List HistoricalRequirement) := []

namespace HistoricalRequirementRegistry

/-- `str.isspace` of one character. -/
def isSpace (c : Char) : Bool :=
  let n := c.toNat
  (9 ≤ n && n ≤ 13) || (28 ≤ n && n ≤ 32) || n == 0x85 || n == 0xA0 || n == 0x1680 ||
    (0x2000 ≤ n && n ≤ 0x200A) || n == 0x2028 || n == 0x2029 || n == 0x202F || n == 0x205F ||
    n == 0x3000

/-- `register`; a blank key is refused. -/
def register (r : HistoricalRequirementRegistry) (consumerKey : String)
    (requirements : List HistoricalRequirement) : Option HistoricalRequirementRegistry :=
  if consumerKey.toList.all isSpace then none
  else some ⟨r.byConsumer.set consumerKey requirements.dedup⟩

def deregister (r : HistoricalRequirementRegistry) (consumerKey : String) :
    HistoricalRequirementRegistry :=
  ⟨r.byConsumer.restrict (· ≠ consumerKey)⟩

/-- All registered requirements, consumer by consumer. -/
def requirements (r : HistoricalRequirementRegistry) : List HistoricalRequirement :=
  r.byConsumer.flatMap (·.2)

/-- One step of the loop of `effective_requirements`; the lookback is kept with its timeframe. -/
def raiseLookback (maxLookback : Dict Timeframe HistoricalRequirement)
    (requirement : HistoricalRequirement) : Dict Timeframe HistoricalRequirement :=
  match maxLookback.get requirement.timeframe with
  | none => maxLookback.set requirement.timeframe requirement
  | some current =>
    if current.lookback < requirement.lookback then
      maxLookback.set requirement.timeframe requirement
    else maxLookback

/-- `effective_requirements`. -/
def effectiveRequirements (r : HistoricalRequirementRegistry) : List HistoricalRequirement :=
  ((r.requirements.foldl raiseLookback []).map (·.2)).insertionSort
    (fun a b => a.timeframe.orderingKey ≤ b.timeframe.orderingKey)

/-! ## The union -/

/-- What the fold holds after a list of requirements. -/
structure MaxLookback (rs : List HistoricalRequirement)
    (d : Dict Timeframe HistoricalRequirement) : Prop where
  nodup : (d.map (·.1)).Nodup
  bound : ∀ tf r, d.get tf = some r → r ∈ rs ∧ r.timeframe = tf
  max : ∀ r ∈ rs, ∃ r', d.get r.timeframe = some r' ∧ r.lookback ≤ r'.lookback

theorem MaxLookback.set {rs : List HistoricalRequirement} {d : Dict Timeframe HistoricalRequirement}
    (h : MaxLookback rs d) (r : HistoricalRequirement)
    (hmax : ∀ r', d.get r.timeframe = some r' → r'.lookback ≤ r.lookback) :
    MaxLookback (rs ++ [r]) (d.set r.timeframe r) := by
  refine ⟨Dict.nodup_keys_set h.nodup _ _, ?_, ?_⟩
  · intro tf r' hget
    rw [Dict.get_set] at hget
    split at hget
    · rename_i htf
      cases hget
      exact ⟨by simp, htf⟩
    · obtain ⟨hmem, htf⟩ := h.bound tf r' hget
      exact ⟨List.mem_append_left _ hmem, htf⟩
  · intro r' hr'
    rw [Dict.get_set]
    rcases List.mem_append.mp hr' with hr' | hr'
    · obtain ⟨m, hm, hle⟩ := h.max r' hr'
      by_cases htf : r.timeframe = r'.timeframe
      · rw [if_pos htf]
        rw [← htf] at hm
        exact ⟨r, rfl, hle.trans (hmax m hm)⟩
      · rw [if_neg htf]
        exact ⟨m, hm, hle⟩
    · rw [List.mem_singleton.mp hr', if_pos rfl]
      exact ⟨r, rfl, le_rfl⟩

theorem maxLookback_foldl (rs : List HistoricalRequirement) :
    MaxLookback rs (rs.foldl raiseLookback []) := by
  induction rs using List.reverseRecOn with
  | nil => exact ⟨by simp, by simp, by simp⟩
  | append_singleton rs r ih =>
    rw [List.foldl_append, List.foldl_cons, List.foldl_nil, raiseLookback]
    split
    · rename_i hget
      exact ih.set r (by simp [hget])
    · rename_i current hget
      split
      · rename_i hlt
        refine ih.set r fun r' hr' => ?_
        rw [hget] at hr'
        cases hr'
        exact hlt.le
      · rename_i hle
        refine ⟨ih.nodup, ?_, ?_⟩
        · intro tf r' hr'
          obtain ⟨hmem, htf⟩ := ih.bound tf r' hr'
          exact ⟨List.mem_append_left _ hmem, htf⟩
        · intro r' hr'
          rcases List.mem_append.mp hr' with hr' | hr'
          · exact ih.max r' hr'
          · rw [List.mem_singleton.mp hr']
            exact ⟨current, hget, not_lt.mp hle⟩

theorem mem_effective_iff_get (reg : HistoricalRequirementRegistry) (r : HistoricalRequirement) :
    r ∈ reg.effectiveRequirements ↔
      (reg.requirements.foldl raiseLookback []).get r.timeframe = some r := by
  have h := maxLookback_foldl reg.requirements
  rw [effectiveRequirements, List.mem_insertionSort, List.mem_map]
  constructor
  · rintro ⟨⟨tf, r'⟩, hmem, rfl⟩
    have hget := (Dict.mem_iff_get h.nodup tf r').mp hmem
    rwa [(h.bound tf r' hget).2]
  · intro hget
    exact ⟨_, (Dict.mem_iff_get h.nodup _ _).mpr hget, rfl⟩

/-- A requirement is effective iff it is registered and no longer lookback is at its timeframe. -/
theorem mem_effectiveRequirements (reg : HistoricalRequirementRegistry)
    (r : HistoricalRequirement) :
    r ∈ reg.effectiveRequirements ↔ r ∈ reg.requirements ∧
      ∀ r' ∈ reg.requirements, r'.timeframe = r.timeframe → r'.lookback ≤ r.lookback := by
  have h := maxLookback_foldl reg.requirements
  rw [mem_effective_iff_get]
  constructor
  · intro hget
    refine ⟨(h.bound _ _ hget).1, fun r' hr' htf => ?_⟩
    obtain ⟨m, hm, hle⟩ := h.max r' hr'
    rw [htf, hget] at hm
    cases hm
    exact hle
  · rintro ⟨hmem, hmax⟩
    obtain ⟨m, hm, hle⟩ := h.max r hmem
    obtain ⟨hm', htf⟩ := h.bound _ _ hm
    have heq : m = r := by
      have := hmax m hm' htf
      cases m
      cases r
      simp only [HistoricalRequirement.mk.injEq] at htf hle this ⊢
      exact ⟨htf, by omega⟩
    rw [hm, heq]

/-- Every registered timeframe has an effective requirement, with at least the same lookback. -/
theorem exists_effective (reg : HistoricalRequirementRegistry) {r : HistoricalRequirement}
    (h : r ∈ reg.requirements) : ∃ r' ∈ reg.effectiveRequirements,
      r'.timeframe = r.timeframe ∧ r.lookback ≤ r'.lookback := by
  obtain ⟨m, hm, hle⟩ := (maxLookback_foldl reg.requirements).max r h
  obtain ⟨-, htf⟩ := (maxLookback_foldl reg.requirements).bound _ _ hm
  rw [← htf] at hm
  exact ⟨m, (mem_effective_iff_get reg m).mpr hm, htf, hle⟩

end HistoricalRequirementRegistry

end ApexScan
