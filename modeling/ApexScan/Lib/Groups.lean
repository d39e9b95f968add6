import Mathlib.Data.List.SplitBy
import Mathlib.Order.Lattice

/-!
# Grouping a list into maximal runs of one key

`groupsBy key xs` cuts `xs` wherever the key changes (`itertools.groupby`).

* `groupsBy_concat_same`, `groupsBy_concat_new` — how one more element changes the groups; these
  are the two steps of any automaton that groups a stream.
* `key_eq_of_mem_groupsBy` — a group has one key.
* `groupsBy_increasing` — where the key never decreases along the list, the groups have strictly
  increasing keys, so each key has one group.
* `isInfix_filter_key` — the elements of one key stand together in a list sorted by it.
-/

set_option autoImplicit false

namespace ApexScan.Lib

variable {α κ : Type} [DecidableEq κ] {key : α → κ}

/-- Maximal runs of elements with one key. -/
def groupsBy (key : α → κ) (xs : List α) : List (List α) := xs.splitBy (fun a b => key a == key b)

@[simp] theorem groupsBy_nil : groupsBy key [] = [] := rfl

theorem groupsBy_eq_iff {xs : List α} {gs : List (List α)} :
    groupsBy key xs = gs ↔ xs = gs.flatten ∧ [] ∉ gs ∧
      (∀ g ∈ gs, g.IsChain fun a b => key a = key b) ∧
      gs.IsChain fun g g' => ∃ h h', key (g.getLast h) ≠ key (g'.head h') := by
  unfold groupsBy
  rw [List.splitBy_eq_iff]
  simp only [beq_iff_eq, beq_eq_false_iff_ne]

theorem ne_nil_of_mem_groupsBy {xs g : List α} (h : g ∈ groupsBy key xs) : g ≠ [] :=
  List.ne_nil_of_mem_splitBy h

omit [DecidableEq κ] in
/-- The elements of a chain of equal keys have one key. -/
theorem key_eq_of_isChain {g : List α} (h : g.IsChain fun a b => key a = key b) :
    ∀ a ∈ g, ∀ b ∈ g, key a = key b := by
  have : IsTrans α (fun a b => key a = key b) := ⟨fun _ _ _ h h' => h.trans h'⟩
  have : Std.Symm (fun a b => key a = key b) := ⟨fun _ _ h => h.symm⟩
  intro a ha b hb
  exact List.Pairwise.forall_of_forall (R := fun a b => key a = key b) (fun _ _ => rfl) h.pairwise
    ha hb

/-- A group has one key. -/
theorem key_eq_of_mem_groupsBy {xs g : List α} (hg : g ∈ groupsBy key xs) :
    ∀ a ∈ g, ∀ b ∈ g, key a = key b :=
  key_eq_of_isChain ((groupsBy_eq_iff.mp rfl).2.2.1 g hg)

/-- An element with the key of the last group joins it. -/
theorem groupsBy_concat_same {xs : List α} {gs : List (List α)} {g : List α} {x : α}
    (h : groupsBy key xs = gs ++ [g]) (hx : ∀ a ∈ g, key a = key x) :
    groupsBy key (xs ++ [x]) = gs ++ [g ++ [x]] := by
  obtain ⟨hf, hn, hc, hb⟩ := groupsBy_eq_iff.mp h
  have hg : g ≠ [] := fun e => hn (by simp [e])
  rw [groupsBy_eq_iff]
  refine ⟨by rw [hf]; simp, ?_, ?_, ?_⟩
  · intro hm
    rcases List.mem_append.mp hm with hm | hm
    · exact hn (List.mem_append_left _ hm)
    · simp at hm
  · intro g' hg'
    rcases List.mem_append.mp hg' with hg' | hg'
    · exact hc g' (List.mem_append_left _ hg')
    · rw [List.mem_singleton] at hg'
      subst hg'
      rw [List.isChain_append]
      refine ⟨hc g (by simp), by simp, ?_⟩
      intro a ha b hb
      simp only [List.head?_cons, Option.mem_def, Option.some.injEq] at hb
      subst hb
      exact hx a (List.mem_of_mem_getLast? ha)
  · rw [List.isChain_append] at hb ⊢
    refine ⟨hb.1, by simp, ?_⟩
    intro p hp q hq
    simp only [List.head?_cons, Option.mem_def, Option.some.injEq] at hq
    subst hq
    obtain ⟨h₁, h₂, hne⟩ := hb.2.2 p hp g (by simp)
    exact ⟨h₁, by simp, by rwa [List.head_append_of_ne_nil]⟩

/-- An element with another key than the last group starts a new one. -/
theorem groupsBy_concat_new {xs : List α} {x : α}
    (hx : ∀ g ∈ (groupsBy key xs).getLast?, ∀ a ∈ g, key a ≠ key x) :
    groupsBy key (xs ++ [x]) = groupsBy key xs ++ [[x]] := by
  unfold groupsBy at hx ⊢
  rw [List.splitBy_append_cons [] ?_]
  · rfl
  · intro a ha
    have hne : xs ≠ [] := fun e => by simp [e] at ha
    have hlast := List.getLast_getLast_splitBy (fun a b => key a == key b) hne
    have hk := hx _ (List.getLast_mem_getLast? _) (xs.getLast hne)
      (by rw [← hlast]; exact List.getLast_mem _)
    rw [List.getLast_of_mem_getLast? ha] at hk
    simpa using hk

/-- Where the key does not decrease along the list, the groups have strictly increasing keys. -/
theorem groupsBy_increasing {κ : Type} [LinearOrder κ] {key : α → κ} {xs : List α}
    (h : xs.Pairwise fun a b => key a ≤ key b) :
    (groupsBy key xs).Pairwise fun g g' => ∀ a ∈ g, ∀ b ∈ g', key a < key b := by
  obtain ⟨hf, hn, hc, hb⟩ := groupsBy_eq_iff.mp (rfl : groupsBy key xs = groupsBy key xs)
  generalize groupsBy key xs = gs at hf hn hc hb
  subst hf
  induction gs with
  | nil => exact List.Pairwise.nil
  | cons g gs ih =>
    rw [List.flatten_cons, List.pairwise_append] at h
    have hn' : [] ∉ gs := fun e => hn (List.mem_cons_of_mem _ e)
    refine List.Pairwise.cons ?_ (ih hn' (fun g' hg' => hc g' (List.mem_cons_of_mem _ hg'))
      hb.tail h.2.1)
    intro g' hg' a ha b hb'
    refine lt_of_le_of_ne (h.2.2 a ha b (List.mem_flatten.mpr ⟨g', hg', hb'⟩)) ?_
    -- equal keys here would force the head of the next group to share them as well
    cases gs with
    | nil => simp at hg'
    | cons g₁ gs =>
      rw [List.isChain_cons_cons] at hb
      obtain ⟨h₁, h₂, hne⟩ := hb.1
      intro heq
      have hag := key_eq_of_isChain (hc g (by simp)) a ha _ (List.getLast_mem h₁)
      have hle := h.2.2 _ (List.getLast_mem h₁) _
        (List.mem_flatten.mpr ⟨g₁, by simp, List.head_mem h₂⟩)
      have hle' : key (g₁.head h₂) ≤ key b := by
        rcases List.mem_cons.mp hg' with rfl | hg''
        · exact (key_eq_of_isChain (hc g' (by simp)) _ (List.head_mem h₂) b hb').le
        · have := h.2.1
          rw [List.flatten_cons, List.pairwise_append] at this
          exact this.2.2 _ (List.head_mem h₂) b (List.mem_flatten.mpr ⟨g', hg'', hb'⟩)
      exact hne (le_antisymm hle (by rw [← hag, heq]; exact hle'))

/-- A list sorted by a key is its elements below a bound, those at it and those above it. -/
theorem filter_key_append [LinearOrder κ] {xs : List α}
    (h : xs.Pairwise fun a b => key a ≤ key b) (k : κ) :
    (xs.filter fun a => key a < k) ++ (xs.filter fun a => key a = k) ++
      (xs.filter fun a => k < key a) = xs := by
  induction xs with
  | nil => rfl
  | cons a xs ih =>
    obtain ⟨ha, hxs⟩ := List.pairwise_cons.mp h
    have hrest := ih hxs
    rcases lt_trichotomy (key a) k with hlt | heq | hgt
    · rw [List.filter_cons_of_pos (by simpa), List.filter_cons_of_neg (by simpa using hlt.ne),
        List.filter_cons_of_neg (by simpa using hlt.le), List.cons_append, List.cons_append, hrest]
    · have hnone : (xs.filter fun b => key b < k) = [] := by
        rw [List.filter_eq_nil_iff]
        intro b hb
        simpa [← heq] using ha b hb
      rw [hnone, List.nil_append] at hrest
      rw [List.filter_cons_of_neg (by simp [heq]), hnone, List.filter_cons_of_pos (by simpa),
        List.filter_cons_of_neg (by simp [heq]), List.nil_append, List.cons_append, hrest]
    · have hbelow : (xs.filter fun b => key b < k) = [] := by
        rw [List.filter_eq_nil_iff]
        intro b hb
        simpa using (hgt.trans_le (ha b hb)).le
      have hat : (xs.filter fun b => key b = k) = [] := by
        rw [List.filter_eq_nil_iff]
        intro b hb
        simpa using (hgt.trans_le (ha b hb)).ne'
      rw [hbelow, hat, List.nil_append, List.nil_append] at hrest
      rw [List.filter_cons_of_neg (by simpa using hgt.le), hbelow,
        List.filter_cons_of_neg (by simpa using hgt.ne'), hat, List.nil_append, List.nil_append,
        List.filter_cons_of_pos (by simpa), hrest]

/-- The elements of one key stand together in a list sorted by it. -/
theorem isInfix_filter_key [LinearOrder κ] {xs : List α}
    (h : xs.Pairwise fun a b => key a ≤ key b) (k : κ) :
    (xs.filter fun a => key a = k) <:+: xs := by
  exact ⟨_, _, filter_key_append h k⟩

end ApexScan.Lib
