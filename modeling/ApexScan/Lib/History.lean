import Mathlib.Data.List.Basic

/-!
# Lists as histories

* `forall_split_concat` — a property of each entry and the entries before it, for a history with one
  more entry at its end.
* `head?_takeWhile_eq_iff` — in a history that lists its entries newest first, some of them in `p`
  and some carrying a value `f`: a carrier that forgets whenever an entry outside `p` intervenes sees
  the newest value of the leading run of `p`, and this says when that is the newest value of all
  entries in `p`.
-/

set_option autoImplicit false

namespace ApexScan.Lib

variable {α β : Type}

theorem forall_split_concat {P : List α → α → Prop} (xs : List α) (x : α) :
    (∀ pre c post, xs ++ [x] = pre ++ c :: post → P pre c) ↔
      (∀ pre c post, xs = pre ++ c :: post → P pre c) ∧ P xs x := by
  constructor
  · intro h
    refine ⟨fun pre c post hxs => h pre c (post ++ [x]) (by simp [hxs]), h xs x [] rfl⟩
  · rintro ⟨h, hx⟩ pre c post hsplit
    rcases List.eq_nil_or_concat post with rfl | ⟨post', y, rfl⟩
    · obtain ⟨rfl, hc⟩ := List.append_inj' hsplit rfl
      rw [List.cons.injEq] at hc
      exact hc.1 ▸ hx
    · rw [List.concat_eq_append, ← List.cons_append, ← List.append_assoc] at hsplit
      exact h pre c post' (List.append_inj' hsplit rfl).1

variable (p : α → Bool) (f : α → Option β)

theorem head?_filterMap_filter_eq_none (xs : List α) :
    ((xs.filter p).filterMap f).head? = none ↔ ¬ ∃ x ∈ xs, p x = true ∧ (f x).isSome = true := by
  rw [List.head?_eq_none_iff, List.filterMap_eq_nil_iff]
  constructor
  · rintro h ⟨x, hx, hp, hf⟩
    rw [h x (List.mem_filter.mpr ⟨hx, hp⟩)] at hf
    cases hf
  · intro h x hx
    obtain ⟨hx, hp⟩ := List.mem_filter.mp hx
    cases hf : f x with
    | none => rfl
    | some v => exact absurd ⟨x, hx, hp, by rw [hf]; rfl⟩ h

/-- The newest value of the leading run of `p` is the newest value of all entries in `p` iff no
    entry in `p` carries a value, or all entries since the newest one that does are in `p`. -/
theorem head?_takeWhile_eq_iff (xs : List α) :
    ((xs.takeWhile p).filterMap f).head? = ((xs.filter p).filterMap f).head? ↔
      ((∃ x ∈ xs, p x = true ∧ (f x).isSome = true) →
        ∀ x ∈ xs.takeWhile (fun x => !(p x && (f x).isSome)), p x = true) := by
  induction xs with
  | nil => simp
  | cons x xs ih =>
    by_cases hp : p x = true
    · cases hf : f x with
      | some v => simp [hp, hf]
      | none =>
        simp only [hp, hf, List.takeWhile_cons, List.filter_cons, if_true, List.filterMap_cons, ih,
          Option.isSome_none, Bool.and_false, Bool.not_false, List.mem_cons, exists_eq_or_imp,
          forall_eq_or_imp, Bool.false_eq_true, and_false, false_or, true_and]
    · -- the run is broken at once, so the newest value must be absent
      have hnone := head?_filterMap_filter_eq_none p f xs
      simp only [hp, List.takeWhile_cons, List.filter_cons, Bool.false_eq_true, if_false,
        List.filterMap_nil, List.head?_nil, Bool.false_and, Bool.not_false, if_true, List.mem_cons,
        exists_eq_or_imp, forall_eq_or_imp, false_and, false_or, imp_false]
      exact eq_comm.trans hnone

end ApexScan.Lib
