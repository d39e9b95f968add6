import ApexScan.Lib.Dict
import Mathlib.Data.List.Perm.Basic

/-!
# Reference counts in a dictionary

A dictionary that holds, for every key in use, how often it is used.

* `retain`, `release` — one use more, one use less; a key released to zero is dropped, and a key that
  is not there stays away.
* `Tallies d xs` — the counts are those of the list of uses, and no key is bound to zero.
* `Tallies.retain`, `Tallies.release`, `Tallies.release_absent` — what the two operations keep.
* `Tallies.not_release` — a key in use that is released without its use going away spoils the counts.
-/

set_option autoImplicit false

namespace ApexScan.Lib

variable {κ : Type} [DecidableEq κ]

namespace Dict

/-- `d[k] = d.get(k, 0) + 1`. -/
def retain (d : Dict κ ℕ) (k : κ) : Dict κ ℕ := d.set k ((d.get k).getD 0 + 1)

/-- One count less; at most one left drops the key. -/
def release (d : Dict κ ℕ) (k : κ) : Dict κ ℕ :=
  let count := (d.get k).getD 0
  if count ≤ 1 then d.restrict (· ≠ k) else d.set k (count - 1)

end Dict

/-- The dictionary counts the occurrences of every key in the list. -/
def Tallies (d : Dict κ ℕ) (xs : List κ) : Prop :=
  ∀ k, d.get k = if k ∈ xs then some (xs.count k) else none

namespace Tallies

variable {d : Dict κ ℕ} {xs ys : List κ} {k : κ}

theorem perm (h : Tallies d xs) (hperm : xs.Perm ys) : Tallies d ys := by
  intro k
  rw [h k]
  simp only [hperm.mem_iff, hperm.count_eq]

theorem getD (h : Tallies d xs) (k : κ) : (d.get k).getD 0 = xs.count k := by
  rw [h k]
  split
  · rfl
  · rename_i hnot
    exact (List.count_eq_zero_of_not_mem hnot).symm

theorem isSome_iff (h : Tallies d xs) (k : κ) : (d.get k).isSome ↔ k ∈ xs := by
  rw [h k]
  split <;> simp [*]

theorem mem_keys_iff (h : Tallies d xs) (k : κ) : k ∈ d.map (·.1) ↔ k ∈ xs := by
  rw [Dict.mem_keys_iff, h.isSome_iff]

theorem eq_nil_iff (h : Tallies d xs) : d = [] ↔ xs = [] := by
  constructor
  · rintro rfl
    rw [List.eq_nil_iff_forall_not_mem]
    intro k hk
    exact absurd ((h.mem_keys_iff k).mpr hk) (by simp)
  · rintro rfl
    rw [List.eq_nil_iff_forall_not_mem]
    intro kv hkv
    have hkey := (h.mem_keys_iff kv.1).mp (List.mem_map_of_mem hkv)
    cases hkey

theorem nil : Tallies ([] : Dict κ ℕ) [] := fun k => by simp

theorem retain (h : Tallies d xs) (k : κ) : Tallies (Dict.retain d k) (k :: xs) := by
  intro k'
  unfold Dict.retain
  rw [Dict.get_set, h.getD]
  by_cases hk : k = k'
  · subst hk
    simp
  · rw [if_neg hk, h k']
    simp [hk, Ne.symm hk]

/-- Releasing a use that goes away. -/
theorem release (h : Tallies d (k :: xs)) : Tallies (Dict.release d k) xs := by
  intro k'
  have hcount : (d.get k).getD 0 = xs.count k + 1 := by
    rw [h.getD, List.count_cons_self]
  unfold Dict.release
  simp only [hcount]
  split
  · rename_i hle
    have hnot : k ∉ xs := List.count_eq_zero.mp (by omega)
    rw [Dict.get_restrict, h k']
    by_cases hk : k' = k
    · subst hk
      simp [hnot]
    · simp [hk, Ne.symm hk]
  · rename_i hlt
    have hmem : k ∈ xs := List.count_pos_iff.mp (by omega)
    rw [Dict.get_set, h k']
    by_cases hk : k = k'
    · subst hk
      simp [hmem]
    · simp [hk, Ne.symm hk]

/-- Releasing a key that is not in use does nothing. -/
theorem release_absent (h : Tallies d xs) (hk : k ∉ xs) : Tallies (Dict.release d k) xs := by
  have hnone : d.get k = none := by rw [h k, if_neg hk]
  unfold Dict.release
  simp only [hnone, Option.getD_none]
  rw [if_pos (Nat.zero_le 1), Dict.drop_of_get_eq_none hnone]
  exact h

/-- A key in use that is released while its uses stay is counted wrong. -/
theorem not_release (h : Tallies d xs) (hk : k ∈ xs) : ¬ Tallies (Dict.release d k) xs := by
  intro hrelease
  have hpos : 0 < xs.count k := List.count_pos_iff.mpr hk
  have hget := hrelease k
  rw [if_pos hk] at hget
  unfold Dict.release at hget
  simp only [h.getD] at hget
  split at hget
  · rw [Dict.get_restrict] at hget
    simp at hget
  · rw [Dict.get_set_self, Option.some.injEq] at hget
    omega

end Tallies

end ApexScan.Lib
