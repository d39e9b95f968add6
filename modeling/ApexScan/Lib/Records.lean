import Mathlib.Data.List.Induction
import Mathlib.Order.Lattice

/-!
# Left-to-right maxima

The records of a sequence are the elements whose key exceeds every key before them.  Whoever keeps
only what is newer than all it has seen keeps exactly the records.

* `records key xs` — the records, in order.
* `mem_records_iff` — what it means to be one.
* `records_concat` — how one more element changes the records.
* `records_pairwise`, `exists_record_ge` — their keys increase strictly and reach the maximum.
* `latest f xs` — the last value of `f` along a sequence, and its characterisation along records.
-/

set_option autoImplicit false

namespace ApexScan.Lib

variable {α β κ : Type} [LinearOrder κ]

/-- Keeps `x` when its key exceeds all keys kept so far. -/
def keepNewer (key : α → κ) (rs : List α) (x : α) : List α :=
  if ∀ y ∈ rs, key y < key x then rs ++ [x] else rs

/-- The left-to-right maxima. -/
def records (key : α → κ) (xs : List α) : List α := xs.foldl (keepNewer key) []

variable (key : α → κ)

@[simp] theorem records_nil : records key [] = [] := rfl

theorem records_concat (xs : List α) (x : α) :
    records key (xs ++ [x]) = keepNewer key (records key xs) x := by
  simp [records]

theorem records_subset {xs : List α} {r : α} (h : r ∈ records key xs) : r ∈ xs := by
  induction xs using List.reverseRecOn with
  | nil => cases h
  | append_singleton xs x ih =>
    rw [records_concat, keepNewer] at h
    split at h
    · rcases List.mem_append.mp h with h | h
      · exact List.mem_append_left _ (ih h)
      · exact List.mem_append_right _ h
    · exact List.mem_append_left _ (ih h)

/-- Every element is at most as new as some record. -/
theorem exists_record_ge {xs : List α} {y : α} (h : y ∈ xs) :
    ∃ r ∈ records key xs, key y ≤ key r := by
  induction xs using List.reverseRecOn with
  | nil => cases h
  | append_singleton xs x ih =>
    rw [records_concat, keepNewer]
    split
    · rcases List.mem_append.mp h with h | h
      · obtain ⟨r, hr, hle⟩ := ih h
        exact ⟨r, List.mem_append_left _ hr, hle⟩
      · rw [List.mem_singleton.mp h]
        exact ⟨x, by simp, le_rfl⟩
    · rename_i hold
      rcases List.mem_append.mp h with h | h
      · exact ih h
      · rw [List.mem_singleton.mp h]
        push Not at hold
        exact hold

theorem records_pairwise (xs : List α) : (records key xs).Pairwise (key · < key ·) := by
  induction xs using List.reverseRecOn with
  | nil => simp
  | append_singleton xs x ih =>
    rw [records_concat, keepNewer]
    split
    · rename_i hnew
      refine List.pairwise_append.mpr ⟨ih, by simp, ?_⟩
      intro y hy z hz
      rw [List.mem_singleton.mp hz]
      exact hnew y hy
    · exact ih

/-- Being newer than the records is being newer than everything. -/
theorem forall_records_lt_iff (xs : List α) (x : α) :
    (∀ y ∈ records key xs, key y < key x) ↔ ∀ y ∈ xs, key y < key x := by
  constructor
  · intro h y hy
    obtain ⟨r, hr, hle⟩ := exists_record_ge key hy
    exact lt_of_le_of_lt hle (h r hr)
  · intro h y hy
    exact h y (records_subset key hy)

/-- A record is an element that is newer than all before it. -/
theorem mem_records_iff (xs : List α) (r : α) :
    r ∈ records key xs ↔ ∃ before after, xs = before ++ r :: after ∧
      ∀ y ∈ before, key y < key r := by
  induction xs using List.reverseRecOn with
  | nil => simp
  | append_singleton xs x ih =>
    have hsplit : (∃ before after, xs ++ [x] = before ++ r :: after ∧
          ∀ y ∈ before, key y < key r) ↔
        (∃ before after, xs = before ++ r :: after ∧ ∀ y ∈ before, key y < key r) ∨
          (r = x ∧ ∀ y ∈ xs, key y < key x) := by
      constructor
      · rintro ⟨before, after, heq, hnew⟩
        rcases List.eq_nil_or_concat after with rfl | ⟨after, last, rfl⟩
        · obtain ⟨rfl, hx⟩ := List.append_inj' heq rfl
          cases hx
          exact Or.inr ⟨rfl, hnew⟩
        · rw [List.concat_eq_append, ← List.cons_append, ← List.append_assoc] at heq
          exact Or.inl ⟨before, after, (List.append_inj' heq rfl).1, hnew⟩
      · rintro (⟨before, after, rfl, hnew⟩ | ⟨rfl, hnew⟩)
        · exact ⟨before, after ++ [x], by simp, hnew⟩
        · exact ⟨xs, [], rfl, hnew⟩
    rw [hsplit, ← ih, records_concat, keepNewer]
    have hnewer := forall_records_lt_iff key xs x
    split
    · rename_i hnew
      rw [List.mem_append, List.mem_singleton, and_iff_left (hnewer.mp hnew)]
    · rename_i hold
      rw [or_iff_left fun h => hold (hnewer.mpr h.2)]

theorem records_eq_self {xs : List α} (h : xs.Pairwise (key · < key ·)) : records key xs = xs := by
  induction xs using List.reverseRecOn with
  | nil => rfl
  | append_singleton xs x ih =>
    obtain ⟨hxs, -, hlast⟩ := List.pairwise_append.mp h
    rw [records_concat, ih hxs, keepNewer, if_pos fun y hy => hlast y hy x (by simp)]

/-! ## The last value -/

/-- The last value of `f` along a sequence. -/
def latest (f : α → Option β) (xs : List α) : Option β := xs.reverse.findSome? f

@[simp] theorem latest_nil (f : α → Option β) : latest f [] = none := rfl

@[simp] theorem latest_concat (f : α → Option β) (xs : List α) (x : α) :
    latest f (xs ++ [x]) = (f x).or (latest f xs) := by
  cases h : f x <;> simp [latest, h]

/-- Along increasing keys, the last value is that of the greatest key with a value. -/
theorem latest_eq_some_iff (f : α → Option β) {xs : List α} (h : xs.Pairwise (key · < key ·))
    (v : β) : latest f xs = some v ↔
      ∃ x ∈ xs, f x = some v ∧ ∀ y ∈ xs, (f y).isSome = true → key y ≤ key x := by
  induction xs using List.reverseRecOn with
  | nil => simp
  | append_singleton xs x ih =>
    obtain ⟨hxs, -, hlast⟩ := List.pairwise_append.mp h
    have hlt : ∀ y ∈ xs, key y < key x := fun y hy => hlast y hy x (by simp)
    rw [latest_concat]
    cases hx : f x with
    | some w =>
      simp only [Option.some_or, Option.some.injEq]
      constructor
      · rintro rfl
        refine ⟨x, by simp, hx, ?_⟩
        intro y hy _
        rcases List.mem_append.mp hy with hy | hy
        · exact (hlt y hy).le
        · rw [List.mem_singleton.mp hy]
      · rintro ⟨y, hy, hv, hmax⟩
        rcases List.mem_append.mp hy with hy | hy
        · exact absurd (hmax x (by simp) (by rw [hx]; rfl)) (not_le.mpr (hlt y hy))
        · rw [List.mem_singleton.mp hy, hx] at hv
          exact Option.some.inj hv
    | none =>
      rw [Option.none_or, ih hxs]
      constructor
      · rintro ⟨y, hy, hv, hmax⟩
        refine ⟨y, List.mem_append_left _ hy, hv, ?_⟩
        intro z hz hsome
        rcases List.mem_append.mp hz with hz | hz
        · exact hmax z hz hsome
        · rw [List.mem_singleton.mp hz, hx] at hsome
          cases hsome
      · rintro ⟨y, hy, hv, hmax⟩
        rcases List.mem_append.mp hy with hy | hy
        · exact ⟨y, hy, hv, fun z hz => hmax z (List.mem_append_left _ hz)⟩
        · rw [List.mem_singleton.mp hy, hx] at hv
          cases hv

end ApexScan.Lib
