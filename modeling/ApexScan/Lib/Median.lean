import ApexScan.Lib.Sorting
import Mathlib.Algebra.Order.Field.Basic
import Mathlib.Data.List.GetD
import Mathlib.Tactic.Linarith

/-!
# Medians

The median of a list that is not empty is between two of its elements, which are one and the same where
the length is odd.

* `lowerMiddle`, `upperMiddle`, `middle` — the two elements, and the median.
* `length_le_countP_lower`, `length_le_countP_upper` — at least half of the elements are on each side.
* `length_le_countP_gt`, `length_le_countP_lt` — what the median exceeds or is below.
* `middle_nonneg`, `middle_mono` — its bounds; `middle_of_perm` — the order of the list does not matter.
-/

set_option autoImplicit false

namespace ApexScan.Lib

section Order

variable {α : Type} [LinearOrder α] {xs ys : List α}

/-- In a sorted list what stands up to an index is at most the element there. -/
theorem countP_le_getElem (h : xs.Pairwise (· ≤ ·)) {i : ℕ} (hi : i < xs.length) :
    i + 1 ≤ xs.countP fun x => x ≤ xs[i] := by
  have hall : ∀ x ∈ xs.take (i + 1), decide (x ≤ xs[i]) = true := by
    intro x hx
    obtain ⟨j, hj, rfl⟩ := List.mem_take_iff_getElem.mp hx
    have hji : j ≤ i := by omega
    rcases Nat.lt_or_eq_of_le hji with hlt | rfl
    · exact decide_eq_true (List.pairwise_iff_getElem.mp h j i (by omega) hi hlt)
    · simp
  have htake : (xs.take (i + 1)).length = i + 1 := by
    rw [List.length_take]
    omega
  rw [← htake, ← List.countP_eq_length.mpr hall]
  exact (List.take_sublist _ _).countP_le

/-- In a sorted list what stands from an index on is at least the element there. -/
theorem countP_getElem_le (h : xs.Pairwise (· ≤ ·)) {i : ℕ} (hi : i < xs.length) :
    xs.length - i ≤ xs.countP fun x => xs[i] ≤ x := by
  have hall : ∀ x ∈ xs.drop i, decide (xs[i] ≤ x) = true := by
    intro x hx
    obtain ⟨j, hj, rfl⟩ := List.mem_drop_iff_getElem.mp hx
    rcases Nat.eq_zero_or_pos j with rfl | hpos
    · simp
    · exact decide_eq_true (List.pairwise_iff_getElem.mp h i (i + j) hi (by omega) (by omega))
  rw [← List.length_drop, ← List.countP_eq_length.mpr hall]
  exact (List.drop_sublist _ _).countP_le

theorem length_sortBy : (sortBy id xs).length = xs.length := sortBy_perm.length_eq

variable [Zero α]

/-- The last element of the lower half of the sorted list, with the one in the middle. -/
def lowerMiddle (xs : List α) : α := (sortBy id xs).getD ((xs.length - 1) / 2) 0

/-- The first element of the upper half of the sorted list, with the one in the middle. -/
def upperMiddle (xs : List α) : α := (sortBy id xs).getD (xs.length / 2) 0

theorem exists_lowerMiddle (h : xs ≠ []) :
    ∃ hi : (xs.length - 1) / 2 < (sortBy id xs).length,
      lowerMiddle xs = (sortBy id xs)[(xs.length - 1) / 2] := by
  have hpos := List.length_pos_iff.mpr h
  have hi : (xs.length - 1) / 2 < (sortBy id xs).length := by rw [length_sortBy]; omega
  exact ⟨hi, List.getD_eq_getElem _ _ hi⟩

theorem exists_upperMiddle (h : xs ≠ []) :
    ∃ hi : xs.length / 2 < (sortBy id xs).length,
      upperMiddle xs = (sortBy id xs)[xs.length / 2] := by
  have hpos := List.length_pos_iff.mpr h
  have hi : xs.length / 2 < (sortBy id xs).length := by rw [length_sortBy]; omega
  exact ⟨hi, List.getD_eq_getElem _ _ hi⟩

theorem lowerMiddle_mem (h : xs ≠ []) : lowerMiddle xs ∈ xs := by
  obtain ⟨hi, heq⟩ := exists_lowerMiddle h
  rw [heq]
  exact mem_sortBy.mp (List.getElem_mem hi)

theorem upperMiddle_mem (h : xs ≠ []) : upperMiddle xs ∈ xs := by
  obtain ⟨hi, heq⟩ := exists_upperMiddle h
  rw [heq]
  exact mem_sortBy.mp (List.getElem_mem hi)

theorem lowerMiddle_le_upperMiddle (h : xs ≠ []) : lowerMiddle xs ≤ upperMiddle xs := by
  obtain ⟨hi, heq⟩ := exists_lowerMiddle h
  obtain ⟨hi', heq'⟩ := exists_upperMiddle h
  rw [heq, heq']
  have hle : (xs.length - 1) / 2 ≤ xs.length / 2 := by omega
  rcases Nat.lt_or_eq_of_le hle with hlt | hsame
  · exact List.pairwise_iff_getElem.mp (@pairwise_sortBy α α _ id xs) _ _ hi hi' hlt
  · simp only [hsame, le_refl]

/-- At least half of the elements are up to the lower middle. -/
theorem length_le_countP_lower (h : xs ≠ []) :
    xs.length ≤ 2 * xs.countP fun x => x ≤ lowerMiddle xs := by
  obtain ⟨hi, heq⟩ := exists_lowerMiddle h
  have hcount := countP_le_getElem (@pairwise_sortBy α α _ id xs) hi
  rw [← heq, (@sortBy_perm α α _ id xs).countP_eq] at hcount
  omega

/-- At least half of the elements are from the upper middle on. -/
theorem length_le_countP_upper (h : xs ≠ []) :
    xs.length ≤ 2 * xs.countP fun x => upperMiddle xs ≤ x := by
  obtain ⟨hi, heq⟩ := exists_upperMiddle h
  have hcount := countP_getElem_le (@pairwise_sortBy α α _ id xs) hi
  rw [← heq, (@sortBy_perm α α _ id xs).countP_eq, length_sortBy] at hcount
  omega

end Order

section Median

variable {α : Type} [Field α] [LinearOrder α] [IsStrictOrderedRing α] {xs ys : List α}

/-- The median of a list that is not empty. -/
def middle (xs : List α) : α := (lowerMiddle xs + upperMiddle xs) / 2

theorem lowerMiddle_le_middle (h : xs ≠ []) : lowerMiddle xs ≤ middle xs := by
  have hle := lowerMiddle_le_upperMiddle h
  unfold middle
  linarith

theorem middle_le_upperMiddle (h : xs ≠ []) : middle xs ≤ upperMiddle xs := by
  have hle := lowerMiddle_le_upperMiddle h
  unfold middle
  linarith

/-- **Half of the elements exceed what the median exceeds.** -/
theorem length_le_countP_gt (h : xs ≠ []) {t : α} (ht : t < middle xs) :
    xs.length ≤ 2 * xs.countP fun x => t < x := by
  have hupper := length_le_countP_upper h
  have hmono : (xs.countP fun x => upperMiddle xs ≤ x) ≤ xs.countP fun x => t < x := by
    refine List.countP_mono_left fun x _ hx => ?_
    exact decide_eq_true ((ht.trans_le (middle_le_upperMiddle h)).trans_le (of_decide_eq_true hx))
  omega

/-- **Half of the elements are below what the median is below.** -/
theorem length_le_countP_lt (h : xs ≠ []) {t : α} (ht : middle xs < t) :
    xs.length ≤ 2 * xs.countP fun x => x < t := by
  have hlower := length_le_countP_lower h
  have hmono : (xs.countP fun x => x ≤ lowerMiddle xs) ≤ xs.countP fun x => x < t := by
    refine List.countP_mono_left fun x _ hx => ?_
    exact decide_eq_true ((of_decide_eq_true hx).trans_lt ((lowerMiddle_le_middle h).trans_lt ht))
  omega

/-- Half of the elements are up to the median. -/
theorem length_le_countP_le (h : xs ≠ []) : xs.length ≤ 2 * xs.countP fun x => x ≤ middle xs := by
  have hlower := length_le_countP_lower h
  have hmono : (xs.countP fun x => x ≤ lowerMiddle xs) ≤ xs.countP fun x => x ≤ middle xs := by
    refine List.countP_mono_left fun x _ hx => ?_
    exact decide_eq_true ((of_decide_eq_true hx).trans (lowerMiddle_le_middle h))
  omega

/-- The median of a list below another one is at most the median of the other one. -/
theorem middle_mono (hxs : xs ≠ []) (hys : ys ≠ []) (h : ∀ x ∈ xs, ∀ y ∈ ys, x ≤ y) :
    middle xs ≤ middle ys :=
  (middle_le_upperMiddle hxs).trans
    ((h _ (upperMiddle_mem hxs) _ (lowerMiddle_mem hys)).trans (lowerMiddle_le_middle hys))

theorem middle_nonneg (hxs : xs ≠ []) (h : ∀ x ∈ xs, 0 ≤ x) : 0 ≤ middle xs :=
  (h _ (lowerMiddle_mem hxs)).trans (lowerMiddle_le_middle hxs)

omit [IsStrictOrderedRing α] in
theorem middle_of_perm (h : xs.Perm ys) : middle xs = middle ys := by
  have hsorted : sortBy id xs = sortBy id ys := sortBy_of_perm h fun _ _ _ _ => id
  unfold middle lowerMiddle upperMiddle
  rw [hsorted, h.length_eq]

end Median

end ApexScan.Lib
