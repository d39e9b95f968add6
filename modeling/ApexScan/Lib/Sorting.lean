import ApexScan.Lib.Dict
import ApexScan.Lib.Window
import Mathlib.Algebra.GroupWithZero.Nat
import Mathlib.Data.List.MinMax
import Mathlib.Data.List.Sort

/-!
# Stable sorting and grouping by a key

* `sortBy` — a stable sort by a key, with `sortBy_append_of_lt`: a sort of two groups, one of which
  has the smaller keys, is the sort of the one and then of the other.
* `sortBy_of_perm` — where equal keys mean equal elements, the sort is the same for every order.
* `sublist_sortBy` — what a list has in order stays in order.
* `mem_rtake_sortBy_concat` — when the end of the sorted list has the element that was added last.
* `minBy`, `maxBy` — the first element of least and of greatest key.
* `groupedBy` — the elements of each key, as `setdefault(key, []).append` collects them;
  `flatMap_groupedBy_perm`, `filter_flatMap_groupedBy` say what the groups in a row are,
  `pairwise_groupedBy_iff` what holds in each of them, and `sum_length_filter_key` that their sizes add
  up.
-/

set_option autoImplicit false

namespace ApexScan.Lib

section Sorting

variable {α κ : Type} [LinearOrder κ] (key : α → κ)

/-- `sorted(xs, key=key)`. -/
def sortBy (xs : List α) : List α := xs.insertionSort fun a b => key a ≤ key b

/-- `min(xs, key=key)`: the first element of least key. -/
def minBy (xs : List α) : Option α := xs.argmin key

/-- `max(xs, key=key)`: the first element of greatest key. -/
def maxBy (xs : List α) : Option α := xs.argmax key

variable {key} {xs ys : List α}

@[simp] theorem mem_sortBy {a : α} : a ∈ sortBy key xs ↔ a ∈ xs := List.mem_insertionSort _

theorem sortBy_perm : (sortBy key xs).Perm xs := List.perm_insertionSort _ _

theorem pairwise_sortBy : (sortBy key xs).Pairwise fun a b => key a ≤ key b :=
  List.pairwise_insertionSort _ xs

theorem sortBy_cons (a : α) :
    sortBy key (a :: xs) = (sortBy key xs).orderedInsert (fun a b => key a ≤ key b) a := rfl

theorem orderedInsert_append_left {a : α} (h : ∀ b ∈ ys, key a ≤ key b) :
    (xs ++ ys).orderedInsert (fun a b => key a ≤ key b) a =
      xs.orderedInsert (fun a b => key a ≤ key b) a ++ ys := by
  induction xs with
  | nil =>
    cases ys with
    | nil => rfl
    | cons b ys =>
      rw [List.nil_append, List.orderedInsert_cons, if_pos (h b List.mem_cons_self)]
      rfl
  | cons x xs ih =>
    rw [List.cons_append, List.orderedInsert_cons, List.orderedInsert_cons]
    split
    · rfl
    · rw [ih, List.cons_append]

theorem orderedInsert_append_right {a : α} (h : ∀ b ∈ xs, key b < key a) :
    (xs ++ ys).orderedInsert (fun a b => key a ≤ key b) a =
      xs ++ ys.orderedInsert (fun a b => key a ≤ key b) a := by
  induction xs with
  | nil => rfl
  | cons x xs ih =>
    have hx : ¬ key a ≤ key x := not_le.mpr (h x List.mem_cons_self)
    rw [List.cons_append, List.orderedInsert_cons, if_neg hx,
      ih fun b hb => h b (List.mem_cons_of_mem _ hb), List.cons_append]

/-- Where the elements in `p` have smaller keys than the others, they are sorted before them. -/
theorem sortBy_append_of_lt {p : α → Bool}
    (h : ∀ a ∈ xs, ∀ b ∈ xs, p a = true → p b = false → key a < key b) :
    sortBy key xs = sortBy key (xs.filter p) ++ sortBy key (xs.filter fun a => !p a) := by
  induction xs with
  | nil => rfl
  | cons a xs ih =>
    have htail := ih fun b hb c hc =>
      h b (List.mem_cons_of_mem _ hb) c (List.mem_cons_of_mem _ hc)
    rw [sortBy_cons, htail]
    cases hp : p a with
    | true =>
      rw [List.filter_cons_of_pos hp, List.filter_cons_of_neg (by simp [hp]), sortBy_cons]
      apply orderedInsert_append_left
      intro b hb
      rw [mem_sortBy, List.mem_filter] at hb
      exact (h a List.mem_cons_self b (List.mem_cons_of_mem _ hb.1) hp (by simpa using hb.2)).le
    | false =>
      rw [List.filter_cons_of_neg (by simp [hp]), List.filter_cons_of_pos (by simp [hp]), sortBy_cons]
      apply orderedInsert_append_right
      intro b hb
      rw [mem_sortBy, List.mem_filter] at hb
      exact h b (List.mem_cons_of_mem _ hb.1) a List.mem_cons_self hb.2 hp

/-- An element that no key exceeds is sorted to the end. -/
theorem sortBy_concat {a : α} (h : ∀ b ∈ xs, key b ≤ key a) :
    sortBy key (xs ++ [a]) = sortBy key xs ++ [a] := by
  induction xs with
  | nil => rfl
  | cons x xs ih =>
    rw [List.cons_append, sortBy_cons, sortBy_cons, ih fun b hb => h b (List.mem_cons_of_mem _ hb)]
    apply orderedInsert_append_left
    intro b hb
    rw [List.mem_singleton.mp hb]
    exact h x List.mem_cons_self

/-- The last `n` of the sorted elements have the one that was added last exactly when fewer than `n`
    have greater keys. -/
theorem mem_rtake_sortBy_concat {a : α} {n : ℕ} :
    a ∈ (sortBy key (xs ++ [a])).rtake n ↔ (xs.filter fun b => key a < key b).length < n := by
  have hsplit : sortBy key (xs ++ [a]) =
      sortBy key (xs.filter fun b => key b ≤ key a) ++
        a :: sortBy key (xs.filter fun b => key a < key b) := by
    rw [@sortBy_append_of_lt α κ _ key (xs ++ [a]) fun b => key b ≤ key a]
    · simp only [List.filter_append, List.filter_cons, le_refl, decide_true, if_true, Bool.not_true,
        List.filter_nil, List.append_nil, Bool.false_eq_true, if_false]
      rw [sortBy_concat fun b hb => of_decide_eq_true (List.mem_filter.mp hb).2, List.append_assoc,
        List.singleton_append]
      simp only [← decide_not, not_le]
    · intro b _ c _ hb hc
      exact lt_of_le_of_lt (of_decide_eq_true hb) (not_le.mp (of_decide_eq_false hc))
  have hlength := (@sortBy_perm α κ _ key (xs.filter fun b => key a < key b)).length_eq
  rw [hsplit, ← hlength]
  constructor
  · intro hmem
    by_contra hle
    rw [List.append_cons, rtake_append_of_le _ (not_lt.mp hle)] at hmem
    have hgreater := mem_sortBy.mp ((rtake_sublist _ _).subset hmem)
    exact lt_irrefl _ (of_decide_eq_true (List.mem_filter.mp hgreater).2)
  · intro hlt
    exact mem_rtake_append _ (by rw [List.length_cons]; exact hlt) List.mem_cons_self

theorem sortBy_eq_self (h : xs.Pairwise fun a b => key a ≤ key b) : sortBy key xs = xs :=
  h.insertionSort_eq

/-- Distinct elements of distinct keys are sorted strictly. -/
theorem pairwise_lt_sortBy (hnodup : xs.Nodup) (hinj : ∀ a ∈ xs, ∀ b ∈ xs, key a = key b → a = b) :
    (sortBy key xs).Pairwise fun a b => key a < key b := by
  have hne : (sortBy key xs).Pairwise (· ≠ ·) := sortBy_perm.nodup_iff.mpr hnodup
  refine (hne.and pairwise_sortBy).imp_of_mem fun ha hb hab => lt_of_le_of_ne hab.2 fun hkey => ?_
  exact hab.1 (hinj _ (mem_sortBy.mp ha) _ (mem_sortBy.mp hb) hkey)

/-- Two lists of the same elements in strict order are equal. -/
theorem eq_of_pairwise_lt (hx : xs.Pairwise fun a b => key a < key b)
    (hy : ys.Pairwise fun a b => key a < key b) (h : ∀ a, a ∈ xs ↔ a ∈ ys) : xs = ys := by
  have : Std.Irrefl fun a b : α => key a < key b := ⟨fun _ => lt_irrefl _⟩
  have : Std.Antisymm fun a b : α => key a < key b := ⟨fun _ _ h h' => absurd h' (lt_asymm h)⟩
  exact hx.eq_of_mem_iff hy h

/-- In a strictly increasing list the index of an element is the number of smaller ones. -/
theorem idxOf_eq_countP {xs : List κ} (h : xs.Pairwise (· < ·)) {a : κ} (ha : a ∈ xs) :
    xs.idxOf a = xs.countP (· < a) := by
  induction xs with
  | nil => cases ha
  | cons x xs ih =>
    obtain ⟨hx, hrest⟩ := List.pairwise_cons.mp h
    rcases List.mem_cons.mp ha with rfl | hmem
    · have hnone : xs.countP (· < a) = 0 :=
        List.countP_eq_zero.mpr fun y hy => by simpa using (hx y hy).le
      rw [List.idxOf_cons_self, List.countP_cons_of_neg (by simp), hnone]
    · have hlt := hx a hmem
      rw [List.idxOf_cons_ne _ hlt.ne, ih hrest hmem, List.countP_cons_of_pos (by simpa using hlt)]

/-- Another key sorts alike where it agrees with the first one on each pair in the order of the list. -/
theorem sortBy_eq_of_pairwise {μ : Type} [LinearOrder μ] {other : α → μ}
    (h : xs.Pairwise fun a b => key a ≤ key b ↔ other a ≤ other b) :
    sortBy key xs = sortBy other xs := by
  have hinsert (a : α) (ys : List α) (hys : ∀ b ∈ ys, key a ≤ key b ↔ other a ≤ other b) :
      ys.orderedInsert (fun a b => key a ≤ key b) a =
        ys.orderedInsert (fun a b => other a ≤ other b) a := by
    induction ys with
    | nil => rfl
    | cons b ys ih =>
      rw [List.orderedInsert_cons, List.orderedInsert_cons,
        ih fun c hc => hys c (List.mem_cons_of_mem _ hc)]
      exact if_congr (hys b List.mem_cons_self) rfl rfl
  induction h with
  | nil => rfl
  | @cons a xs hall _ ih =>
    rw [sortBy_cons, sortBy_cons, ← ih]
    exact hinsert a _ fun b hb => hall b (mem_sortBy.mp hb)

/-- A sort by another key that orders the elements alike. -/
theorem sortBy_congr {μ : Type} [LinearOrder μ] {other : α → μ}
    (h : ∀ a ∈ xs, ∀ b ∈ xs, key a ≤ key b ↔ other a ≤ other b) : sortBy key xs = sortBy other xs :=
  sortBy_eq_of_pairwise (List.pairwise_of_forall_mem_list h)

/-- Where equal keys mean equal elements, every order is sorted alike. -/
theorem sortBy_of_perm (h : xs.Perm ys) (hinj : ∀ a ∈ xs, ∀ b ∈ xs, key a = key b → a = b) :
    sortBy key xs = sortBy key ys := by
  refine List.Perm.eq_of_pairwise ?_ pairwise_sortBy pairwise_sortBy
    (sortBy_perm.trans (h.trans sortBy_perm.symm))
  intro a b ha hb hab hba
  exact hinj a (mem_sortBy.mp ha) b (h.mem_iff.mpr (mem_sortBy.mp hb)) (le_antisymm hab hba)

/-- Where elements of equal keys are related, the sorted list is pairwise related exactly when an
    element of a smaller key is related to one of a greater key. -/
theorem pairwise_sortBy_iff {r : α → α → Prop} (hties : ∀ a ∈ xs, ∀ b ∈ xs, key a = key b → r a b) :
    (sortBy key xs).Pairwise r ↔ ∀ a ∈ xs, ∀ b ∈ xs, key a < key b → r a b := by
  constructor
  · intro h a ha b hb hlt
    obtain ⟨i, hi, rfl⟩ := List.getElem_of_mem (mem_sortBy.mpr ha : a ∈ sortBy key xs)
    obtain ⟨j, hj, rfl⟩ := List.getElem_of_mem (mem_sortBy.mpr hb : b ∈ sortBy key xs)
    have hsorted := List.pairwise_iff_getElem.mp (@pairwise_sortBy α κ _ key xs)
    rcases Nat.lt_trichotomy i j with hij | rfl | hji
    · exact List.pairwise_iff_getElem.mp h i j hi hj hij
    · exact absurd hlt (lt_irrefl _)
    · exact absurd (hsorted j i hj hi hji) (not_le.mpr hlt)
  · intro h
    apply (@pairwise_sortBy α κ _ key xs).imp_of_mem
    intro a b ha hb hle
    rw [mem_sortBy] at ha hb
    rcases hle.lt_or_eq with hlt | heq
    · exact h a ha b hb hlt
    · exact hties a ha b hb heq

/-- What a list has in the order of the keys is in the sorted list in this order. -/
theorem sublist_sortBy (h : ys.Pairwise fun a b => key a ≤ key b) (hsub : ys.Sublist xs) :
    ys.Sublist (sortBy key xs) := List.sublist_insertionSort h hsub

theorem minBy_eq_none_iff : minBy key xs = none ↔ xs = [] := List.argmin_eq_none

theorem maxBy_eq_none_iff : maxBy key xs = none ↔ xs = [] := List.argmax_eq_none

theorem minBy_mem {a : α} (h : minBy key xs = some a) : a ∈ xs := List.argmin_mem h

theorem maxBy_mem {a : α} (h : maxBy key xs = some a) : a ∈ xs := List.argmax_mem h

theorem minBy_le {a b : α} (h : minBy key xs = some a) (hb : b ∈ xs) : key a ≤ key b :=
  List.le_of_mem_argmin hb h

theorem le_maxBy {a b : α} (h : maxBy key xs = some a) (hb : b ∈ xs) : key b ≤ key a :=
  List.le_of_mem_argmax hb h

end Sorting

/-! ## Grouping -/

section Grouping

variable {α κ : Type} [DecidableEq κ] {key : α → κ}

/-- `grouped.setdefault(key(x), []).append(x)`. -/
def groupOne (key : α → κ) (grouped : Dict κ (List α)) (x : α) : Dict κ (List α) :=
  grouped.set (key x) ((grouped.get (key x)).getD [] ++ [x])

/-- The elements of each key, the keys in the order of their first elements. -/
def groupedBy (key : α → κ) (xs : List α) : Dict κ (List α) := xs.foldl (groupOne key) []

theorem get_groupedBy (xs : List α) (k : κ) :
    ((groupedBy key xs).get k).getD [] = xs.filter fun x => key x = k := by
  unfold groupedBy
  induction xs using List.reverseRecOn with
  | nil => rfl
  | append_singleton xs x ih =>
    rw [List.foldl_concat, List.filter_append, groupOne, Dict.get_set]
    by_cases hk : key x = k
    · subst hk
      rw [if_pos rfl, Option.getD_some, ih]
      simp
    · rw [if_neg hk, ih]
      simp [hk]

theorem nodup_groupedBy (xs : List α) : ((groupedBy key xs).map (·.1)).Nodup := by
  unfold groupedBy
  induction xs using List.reverseRecOn with
  | nil => exact List.nodup_nil
  | append_singleton xs x ih =>
    rw [List.foldl_concat]
    exact Dict.nodup_keys_set ih _ _

theorem mem_keys_groupedBy (xs : List α) (k : κ) :
    k ∈ (groupedBy key xs).map (·.1) ↔ ∃ x ∈ xs, key x = k := by
  unfold groupedBy
  induction xs using List.reverseRecOn with
  | nil => simp
  | append_singleton xs x ih =>
    rw [List.foldl_concat, groupOne, Dict.mem_keys_iff, Dict.get_set]
    rw [Dict.mem_keys_iff] at ih
    by_cases hk : key x = k
    · simp [hk]
    · rw [if_neg hk, ih]
      simp [hk]

/-- A group is the elements of its key, in order. -/
theorem mem_groupedBy_iff (xs : List α) (k : κ) (group : List α) :
    (k, group) ∈ groupedBy key xs ↔ (∃ x ∈ xs, key x = k) ∧ group = xs.filter fun x => key x = k := by
  rw [Dict.mem_iff_get (nodup_groupedBy xs), ← @mem_keys_groupedBy α κ _ key, Dict.mem_keys_iff,
    ← get_groupedBy]
  cases (groupedBy key xs).get k with
  | none => simp
  | some g => simp [eq_comm]

/-- The groups one after the other have the elements of each key in the order of the list. -/
theorem filter_flatMap_groupedBy (xs : List α) (k : κ) :
    ((groupedBy key xs).flatMap (·.2)).filter (fun x => key x = k) = xs.filter fun x => key x = k := by
  have hkeys : ∀ kv ∈ groupedBy key xs, ∀ x ∈ kv.2, key x = kv.1 := by
    rintro ⟨k', group⟩ hmem x hx
    rw [((mem_groupedBy_iff _ _ _).mp hmem).2, List.mem_filter] at hx
    simpa using hx.2
  have hfold (d : Dict κ (List α)) (hd : (d.map (·.1)).Nodup) (h : ∀ kv ∈ d, ∀ x ∈ kv.2, key x = kv.1) :
      (d.flatMap (·.2)).filter (fun x => key x = k) = (d.get k).getD [] := by
    induction d with
    | nil => rfl
    | cons kv d ih =>
      obtain ⟨hnot, hd'⟩ := List.nodup_cons.mp hd
      have hrest := ih hd' fun kv' hkv' => h kv' (List.mem_cons_of_mem _ hkv')
      rw [List.flatMap_cons, List.filter_append, hrest, Dict.get_cons]
      have hhead := h kv List.mem_cons_self
      by_cases hk : kv.1 = k
      · have hnone : Dict.get d k = none := by
          rw [← hk]
          simpa [Dict.mem_keys_iff] using hnot
        rw [if_pos hk, hnone, List.filter_eq_self.mpr fun x hx => by simp [hhead x hx, hk]]
        simp
      · rw [if_neg hk, List.filter_eq_nil_iff.mpr fun x hx => by simp [hhead x hx, hk], List.nil_append]
  rw [hfold _ (nodup_groupedBy xs) hkeys, get_groupedBy]

/-- The groups one after the other are a rearrangement of the list. -/
theorem flatMap_groupedBy_perm (xs : List α) : ((groupedBy key xs).flatMap (·.2)).Perm xs := by
  classical
  rw [List.perm_iff_count]
  intro a
  have hcount (ys : List α) : ys.count a = (ys.filter fun x => key x = key a).count a :=
    (List.count_filter (by simp)).symm
  rw [hcount, filter_flatMap_groupedBy, ← hcount]

/-- The sizes of the groups add up to the size of the list. -/
theorem sum_length_filter_key {xs : List α} {ks : List κ} (hks : ks.Nodup) (h : ∀ x ∈ xs, key x ∈ ks) :
    (ks.map fun k => (xs.filter fun x => key x = k).length).sum = xs.length := by
  induction ks generalizing xs with
  | nil =>
    cases xs with
    | nil => rfl
    | cons x xs => exact (List.not_mem_nil (h x List.mem_cons_self)).elim
  | cons k ks ih =>
    obtain ⟨hnot, hks⟩ := List.nodup_cons.mp hks
    let others := xs.filter fun x => ! decide (key x = k)
    have hothers : ∀ x ∈ others, key x ∈ ks := by
      intro x hx
      obtain ⟨hx, hne⟩ := List.mem_filter.mp hx
      exact (List.mem_cons.mp (h x hx)).resolve_left (by simpa using hne)
    have hsame : ∀ k' ∈ ks, (xs.filter fun x => key x = k') = others.filter fun x => key x = k' := by
      intro k' hk'
      rw [List.filter_filter]
      apply List.filter_congr
      intro x _
      by_cases hx : key x = k'
      · have hne : key x ≠ k := fun heq => hnot (heq ▸ hx ▸ hk')
        simp [hx, hx ▸ hne]
      · simp [hx]
    have hrest : (ks.map fun k' => (xs.filter fun x => key x = k').length).sum = others.length := by
      rw [← ih hks hothers]
      exact congrArg List.sum (List.map_congr_left fun k' hk' => by rw [hsame k' hk'])
    rw [List.map_cons, List.sum_cons, hrest]
    exact (List.length_eq_length_filter_add fun x => decide (key x = k)).symm

end Grouping

end ApexScan.Lib
