import Mathlib.Data.List.Dedup
import Mathlib.Data.List.DropRight
import Mathlib.Data.List.Perm.Subperm
import ApexScan.Lib.History

/-!
# Bounded windows

`deque(maxlen=n)` and the slice `xs[-n:]`, both as `List.rtake`: appending to a full window drops
its oldest entries, so a window fed entry by entry holds the last `n` of everything appended.

* `pushBounded_rtake` — the window after one more entry.
* `Novel n xs` — no entry was among the `n` before it, as in a list of what a recency window of `n`
  entries let through; `Novel.repeated` says what lies between two occurrences of one entry.
-/

set_option autoImplicit false

namespace ApexScan.Lib

variable {α β : Type}

/-- `append` on a `deque(maxlen=n)`. -/
def pushBounded (n : ℕ) (xs : List α) (x : α) : List α := (xs ++ [x]).rtake n

theorem rtake_append_singleton (n : ℕ) (xs : List α) (x : α) :
    (xs ++ [x]).rtake (n + 1) = xs.rtake n ++ [x] := by
  unfold List.rtake
  rw [List.drop_append_of_le_length (by simp)]
  simp

theorem rtake_rtake (m n : ℕ) (xs : List α) (h : m ≤ n) : (xs.rtake n).rtake m = xs.rtake m := by
  unfold List.rtake
  rw [List.drop_drop, List.length_drop]
  congr 1
  omega

/-- What was appended last is at the end. -/
theorem getLast?_pushBounded {n : ℕ} (h : 0 < n) (xs : List α) (x : α) :
    (pushBounded n xs x).getLast? = some x := by
  obtain ⟨m, rfl⟩ := Nat.exists_eq_add_one_of_ne_zero h.ne'
  rw [pushBounded, rtake_append_singleton, List.getLast?_concat]

/-- A window of the last `n` entries, pushed once more, is the window of the longer list. -/
theorem pushBounded_rtake (n : ℕ) (xs : List α) (x : α) :
    pushBounded n (xs.rtake n) x = (xs ++ [x]).rtake n := by
  unfold pushBounded
  rw [← rtake_append_singleton, rtake_rtake _ _ _ (Nat.le_succ n)]

theorem map_rtake (f : α → β) (n : ℕ) (xs : List α) :
    (xs.rtake n).map f = (xs.map f).rtake n := by
  simp [List.rtake]

theorem map_pushBounded (f : α → β) (n : ℕ) (xs : List α) (x : α) :
    (pushBounded n xs x).map f = pushBounded n (xs.map f) (f x) := by
  simp [pushBounded, map_rtake]

theorem rtake_length_le (n : ℕ) (xs : List α) : (xs.rtake n).length ≤ n := by
  unfold List.rtake
  rw [List.length_drop]
  omega

theorem rtake_length_of_le {n : ℕ} {xs : List α} (h : n ≤ xs.length) : (xs.rtake n).length = n := by
  unfold List.rtake
  rw [List.length_drop]
  omega

theorem rtake_sublist (n : ℕ) (xs : List α) : (xs.rtake n).Sublist xs :=
  List.drop_sublist _ _

/-- A window that fits into the end of a list sees nothing of its beginning. -/
theorem rtake_append_of_le {n : ℕ} {ys : List α} (xs : List α) (h : n ≤ ys.length) :
    (xs ++ ys).rtake n = ys.rtake n := by
  unfold List.rtake
  rw [List.length_append, Nat.add_sub_assoc h, List.drop_append]
  simp

/-- A window longer than the end of a list contains it. -/
theorem mem_rtake_append {n : ℕ} {ys : List α} (xs : List α) (h : ys.length ≤ n) {y : α}
    (hy : y ∈ ys) : y ∈ (xs ++ ys).rtake n := by
  unfold List.rtake
  rw [List.length_append, List.drop_append]
  have hdrop : xs.length + ys.length - n - xs.length = 0 := by omega
  rw [hdrop, List.drop_zero]
  exact List.mem_append_right _ hy

/-- No entry of the list was among the `n` entries before it. -/
def Novel (n : ℕ) (xs : List α) : Prop := ∀ pre x post, xs = pre ++ x :: post → x ∉ pre.rtake n

theorem novel_nil (n : ℕ) : Novel n ([] : List α) := by
  intro pre x post h
  cases pre <;> cases h

theorem novel_concat {n : ℕ} {xs : List α} {x : α} :
    Novel n (xs ++ [x]) ↔ Novel n xs ∧ x ∉ xs.rtake n :=
  forall_split_concat xs x

/-- The last `n` entries are distinct. -/
theorem Novel.nodup {n : ℕ} {xs : List α} (h : Novel n xs) : (xs.rtake n).Nodup := by
  induction xs using List.reverseRecOn with
  | nil => simp
  | append_singleton xs x ih =>
    rw [novel_concat] at h
    cases n with
    | zero => simp [List.rtake]
    | succ n =>
      have hsub : (xs.rtake n).Sublist (xs.rtake (n + 1)) := by
        rw [← rtake_rtake n (n + 1) xs (Nat.le_succ n)]
        exact rtake_sublist _ _
      rw [rtake_append_singleton, List.nodup_append]
      refine ⟨(ih h.1).sublist hsub, List.nodup_singleton x, ?_⟩
      intro a ha b hb heq
      rw [List.mem_singleton.mp hb] at heq
      exact h.2 (hsub.subset (heq ▸ ha))

/-- Between two occurrences of one entry there are at least `n` distinct others. -/
theorem Novel.repeated [DecidableEq α] {n : ℕ} {pre mid post : List α} {x : α}
    (h : Novel n (pre ++ x :: mid ++ x :: post)) :
    n ≤ (mid.filter (· ≠ x)).dedup.length := by
  have hfresh : x ∉ (pre ++ x :: mid).rtake n := h (pre ++ x :: mid) x post rfl
  have hlen : n ≤ mid.length := by
    by_contra hshort
    exact hfresh (mem_rtake_append pre (by rw [List.length_cons]; omega) List.mem_cons_self)
  have hwindow : (pre ++ x :: mid).rtake n = mid.rtake n := by
    rw [List.append_cons]
    exact rtake_append_of_le _ hlen
  rw [hwindow] at hfresh
  have hprefix : Novel n (pre ++ x :: mid) := by
    intro pre' y post' hsplit
    refine h pre' y (post' ++ x :: post) ?_
    rw [hsplit, List.append_assoc, List.cons_append]
  have hnodup : (mid.rtake n).Nodup := by
    rw [← hwindow]
    exact hprefix.nodup
  have hsubset : mid.rtake n ⊆ (mid.filter (· ≠ x)).dedup := by
    intro y hy
    rw [List.mem_dedup, List.mem_filter]
    refine ⟨(rtake_sublist n mid).subset hy, ?_⟩
    rw [decide_eq_true_eq]
    rintro rfl
    exact hfresh hy
  calc n = (mid.rtake n).length := (rtake_length_of_le hlen).symm
    _ ≤ (mid.filter (· ≠ x)).dedup.length := (List.subperm_of_subset hnodup hsubset).length_le

end ApexScan.Lib
