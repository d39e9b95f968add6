import Mathlib.Algebra.Order.Field.Basic
import Mathlib.Tactic.Linarith
import Mathlib.Tactic.Positivity

/-!
# Competition ranks

The rank of a value is one more than the number of greater values: equal values share a rank, and the next
one is as much later as there are of them.

* `competitionRank` — the rank; `competitionRank_lt` — it decreases strictly with the value.
* `competitionRank_le_length` — its bound.
* `rankQuantile` — from 1 for the first of several ranks down to 0; `rankQuantile_mem`,
  `rankQuantile_lt`.
-/

set_option autoImplicit false

namespace ApexScan.Lib

section Rank

variable {κ : Type} [LinearOrder κ] {values : List κ} {a b : κ}

/-- One more than the number of greater values. -/
def competitionRank (values : List κ) (value : κ) : ℕ := 1 + values.countP fun other => value < other

/-- The values equal to one and the greater ones are among those that satisfy what they all do. -/
theorem countP_lt_add_count {p : κ → Bool} (h : ∀ x, a ≤ x → p x = true) :
    (values.countP fun x => a < x) + values.count a ≤ values.countP p := by
  induction values with
  | nil => simp
  | cons x xs ih =>
    rw [List.countP_cons, List.countP_cons, List.count_cons]
    rcases lt_trichotomy a x with hlt | rfl | hgt
    · simp only [hlt, decide_true, if_true, h x hlt.le, beq_iff_eq, hlt.ne', if_false]
      omega
    · simp only [lt_irrefl, decide_false, Bool.false_eq_true, if_false, h a le_rfl, if_true, beq_self_eq_true]
      omega
    · simp only [hgt.not_gt, decide_false, Bool.false_eq_true, if_false, beq_iff_eq, hgt.ne]
      omega

/-- The greater one of two values has the smaller rank. -/
theorem competitionRank_lt (ha : a ∈ values) (hlt : b < a) :
    competitionRank values a < competitionRank values b := by
  have hcount : 0 < values.count a := List.count_pos_iff.mpr ha
  have hle := @countP_lt_add_count κ _ values a (fun x => b < x) fun x hx => decide_eq_true (hlt.trans_le hx)
  unfold competitionRank
  omega

theorem competitionRank_le (ha : a ∈ values) (hle : b ≤ a) :
    competitionRank values a ≤ competitionRank values b := by
  rcases hle.lt_or_eq with hlt | rfl
  · exact (competitionRank_lt ha hlt).le
  · exact le_rfl

theorem one_le_competitionRank : 1 ≤ competitionRank values a := Nat.le_add_right _ _

/-- The rank of one of the values is at most their number. -/
theorem competitionRank_le_length (ha : a ∈ values) : competitionRank values a ≤ values.length := by
  have hcount : 0 < values.count a := List.count_pos_iff.mpr ha
  have hle := @countP_lt_add_count κ _ values a (fun _ => true) fun _ _ => rfl
  have hall : (values.countP fun _ => true) = values.length := by simp
  unfold competitionRank
  omega

end Rank

section Quantile

variable {α : Type} [Field α] [LinearOrder α] [IsStrictOrderedRing α] {count rank other : ℕ}

/-- From 1 for rank 1 to 0 for the last of the ranks. -/
def rankQuantile (count rank : ℕ) : α := ((count : α) - rank) / ((count : α) - 1)

theorem rankQuantile_mem (hcount : 2 ≤ count) (hpos : 1 ≤ rank) (hle : rank ≤ count) :
    0 ≤ (rankQuantile count rank : α) ∧ (rankQuantile count rank : α) ≤ 1 := by
  have htwo : (2 : α) ≤ count := by exact_mod_cast hcount
  have hone : (1 : α) ≤ rank := by exact_mod_cast hpos
  have hrank : (rank : α) ≤ count := by exact_mod_cast hle
  unfold rankQuantile
  refine ⟨div_nonneg (by linarith) (by linarith), ?_⟩
  rw [div_le_one (by linarith)]
  linarith

theorem rankQuantile_lt (hcount : 2 ≤ count) (hlt : rank < other) :
    (rankQuantile count other : α) < rankQuantile count rank := by
  have htwo : (2 : α) ≤ count := by exact_mod_cast hcount
  have hrank : (rank : α) < other := by exact_mod_cast hlt
  unfold rankQuantile
  exact div_lt_div_of_pos_right (by linarith) (by linarith)

end Quantile

end ApexScan.Lib
