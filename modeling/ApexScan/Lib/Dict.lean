import Mathlib.Data.List.Basic

/-!
# Insertion-ordered dictionaries

A dictionary is the list of its items in insertion order.  Writing a present key keeps its
position, writing an absent key appends, as in Python.  Every lemma reads a dictionary through
`get`, so no proof depends on the order of the items.
-/

set_option autoImplicit false

namespace ApexScan.Lib

/-- Items in insertion order. -/
abbrev Dict (κ ν : Type) := List (κ × ν)

namespace Dict

variable {κ ν : Type} [DecidableEq κ]

/-- `d.get(k)`. -/
def get (d : Dict κ ν) (k : κ) : Option ν := (d.find? (fun kv => kv.1 = k)).map (·.2)

/-- `d[k] = v`. -/
def set : Dict κ ν → κ → ν → Dict κ ν
  | [], k, v => [(k, v)]
  | kv :: d, k, v => if kv.1 = k then (k, v) :: d else kv :: set d k v

/-- `{k: f(k, v) for k, v in d.items()}`. -/
def mapItems (d : Dict κ ν) (f : κ → ν → ν) : Dict κ ν := d.map (fun kv => (kv.1, f kv.1 kv.2))

/-- `{k: v for k, v in d.items() if p(k)}`. -/
def restrict (d : Dict κ ν) (p : κ → Bool) : Dict κ ν := d.filter (fun kv => p kv.1)

@[simp] theorem get_nil (k : κ) : get ([] : Dict κ ν) k = none := rfl

theorem get_cons (kv : κ × ν) (d : Dict κ ν) (k : κ) :
    get (kv :: d) k = if kv.1 = k then some kv.2 else get d k := by
  by_cases h : kv.1 = k <;> simp [get, h]

theorem get_set (d : Dict κ ν) (k k' : κ) (v : ν) :
    (d.set k v).get k' = if k = k' then some v else d.get k' := by
  induction d with
  | nil => simp [set, get_cons]
  | cons kv d ih =>
    by_cases h : kv.1 = k
    · by_cases h' : k = k' <;> simp [set, get_cons, h, h']
    · rw [set, if_neg h, get_cons, get_cons, ih]
      by_cases h' : kv.1 = k'
      · have : k ≠ k' := fun e => h (h'.trans e.symm)
        simp [h', this]
      · simp [h']

@[simp] theorem get_set_self (d : Dict κ ν) (k : κ) (v : ν) : (d.set k v).get k = some v := by
  simp [get_set]

theorem get_set_ne (d : Dict κ ν) {k k' : κ} (v : ν) (h : k ≠ k') :
    (d.set k v).get k' = d.get k' := by
  simp [get_set, h]

theorem set_set (d : Dict κ ν) (k : κ) (v w : ν) : (d.set k v).set k w = d.set k w := by
  induction d with
  | nil => simp [set]
  | cons kv d ih =>
    by_cases h : kv.1 = k
    · simp [set, h]
    · simp [set, h, ih]

theorem mem_set {d : Dict κ ν} {k : κ} {v : ν} {kv : κ × ν} (h : kv ∈ d.set k v) :
    kv = (k, v) ∨ kv ∈ d := by
  induction d with
  | nil => exact Or.inl (List.mem_singleton.mp h)
  | cons head d ih =>
    rw [set] at h
    split at h
    · rcases List.mem_cons.mp h with h | h
      · exact Or.inl h
      · exact Or.inr (List.mem_cons_of_mem _ h)
    · rcases List.mem_cons.mp h with h | h
      · exact Or.inr (h ▸ List.mem_cons_self)
      · exact (ih h).imp_right (List.mem_cons_of_mem _)

/-- Writing commutes with a map of the values. -/
theorem map_set {μ : Type} (f : ν → μ) (d : Dict κ ν) (k : κ) (v : ν) :
    (d.set k v).map (fun kv => (kv.1, f kv.2)) = (Dict.set (d.map fun kv => (kv.1, f kv.2)) k (f v)) := by
  induction d with
  | nil => rfl
  | cons kv d ih =>
    by_cases hk : kv.1 = k
    · simp [set, hk]
    · simp [set, hk, ih]

/-- Writing a key that is then dropped does nothing. -/
theorem drop_set_self (d : Dict κ ν) (k : κ) (v : ν) :
    (d.set k v).restrict (· ≠ k) = d.restrict (· ≠ k) := by
  unfold restrict
  induction d with
  | nil => simp [set]
  | cons kv d ih =>
    by_cases hk : kv.1 = k
    · simp [set, hk]
    · rw [set, if_neg hk, List.filter_cons, List.filter_cons, ih]

/-- Writing a key and dropping another commute. -/
theorem drop_set_of_ne (d : Dict κ ν) {k k' : κ} (h : k' ≠ k) (v : ν) :
    (d.set k' v).restrict (· ≠ k) = (d.restrict (· ≠ k)).set k' v := by
  unfold restrict
  induction d with
  | nil => simp [set, h]
  | cons kv d ih =>
    by_cases hk : kv.1 = k'
    · simp [set, hk, h]
    · rw [set, if_neg hk, List.filter_cons, List.filter_cons, ih]
      split
      · rw [set, if_neg hk]
      · rfl

theorem drop_comm (d : Dict κ ν) (k k' : κ) :
    (d.restrict (· ≠ k)).restrict (· ≠ k') = (d.restrict (· ≠ k')).restrict (· ≠ k) := by
  unfold restrict
  rw [List.filter_filter, List.filter_filter]
  simp only [Bool.and_comm]

theorem drop_drop (d : Dict κ ν) (k : κ) :
    (d.restrict (· ≠ k)).restrict (· ≠ k) = d.restrict (· ≠ k) := by
  unfold restrict
  rw [List.filter_filter]
  simp only [Bool.and_self]

theorem get_mapItems (d : Dict κ ν) (f : κ → ν → ν) (k : κ) :
    (d.mapItems f).get k = (d.get k).map (f k) := by
  induction d with
  | nil => rfl
  | cons kv d ih =>
    unfold mapItems at ih ⊢
    rw [List.map_cons, get_cons, get_cons, ih]
    split
    · rename_i h; simp only [← h, Option.map_some]
    · rfl

omit [DecidableEq κ] in
theorem mapItems_eq_self_iff (d : Dict κ ν) (f : κ → ν → ν) :
    d.mapItems f = d ↔ ∀ kv ∈ d, f kv.1 kv.2 = kv.2 := by
  unfold mapItems
  induction d with
  | nil => simp
  | cons kv d ih =>
    rw [List.map_cons, List.cons.injEq, ih, List.forall_mem_cons]
    exact and_congr_left' ⟨fun h => congrArg Prod.snd h, fun h => Prod.ext rfl h⟩

theorem get_restrict (d : Dict κ ν) (p : κ → Bool) (k : κ) :
    (d.restrict p).get k = if p k then d.get k else none := by
  induction d with
  | nil => simp [restrict]
  | cons kv d ih =>
    unfold restrict at ih ⊢
    rw [List.filter_cons, get_cons]
    split <;> rename_i hp
    · rw [get_cons, ih]
      by_cases h : kv.1 = k
      · rw [← h]; simp [hp]
      · simp [h]
    · rw [ih]
      by_cases h : kv.1 = k
      · rw [← h]; simp [hp]
      · simp [h]

/-- A key occurs among the items iff it is bound. -/
theorem mem_keys_iff (d : Dict κ ν) (k : κ) : k ∈ d.map (·.1) ↔ (d.get k).isSome := by
  induction d with
  | nil => simp
  | cons kv d ih =>
    rw [List.map_cons, List.mem_cons, get_cons, ih]
    by_cases h : kv.1 = k
    · simp [h]
    · simp [h, Ne.symm h]

/-- Dropping a key that is not bound does nothing. -/
theorem drop_of_get_eq_none {d : Dict κ ν} {k : κ} (h : d.get k = none) :
    d.restrict (· ≠ k) = d := by
  unfold restrict
  rw [List.filter_eq_self]
  intro kv hkv
  refine decide_eq_true fun hk => ?_
  have hmem : k ∈ d.map (·.1) := List.mem_map.mpr ⟨kv, hkv, hk⟩
  rw [mem_keys_iff, h] at hmem
  cases hmem

/-- Writing keeps the keys distinct. -/
theorem nodup_keys_set {d : Dict κ ν} (h : (d.map (·.1)).Nodup) (k : κ) (v : ν) :
    ((d.set k v).map (·.1)).Nodup := by
  induction d with
  | nil => simp [set]
  | cons kv d ih =>
    obtain ⟨hnot, hd⟩ := List.nodup_cons.mp h
    by_cases hk : kv.1 = k
    · rw [set, if_pos hk, List.map_cons, List.nodup_cons]
      exact ⟨hk ▸ hnot, hd⟩
    · rw [set, if_neg hk, List.map_cons, List.nodup_cons, mem_keys_iff, get_set, if_neg (Ne.symm hk),
        ← mem_keys_iff]
      exact ⟨hnot, ih hd⟩

/-- With distinct keys, the items are the bindings. -/
theorem mem_iff_get {d : Dict κ ν} (h : (d.map (·.1)).Nodup) (k : κ) (v : ν) :
    (k, v) ∈ d ↔ d.get k = some v := by
  induction d with
  | nil => simp
  | cons kv d ih =>
    obtain ⟨hnot, hd⟩ := List.nodup_cons.mp h
    rw [List.mem_cons, get_cons, ih hd]
    by_cases hk : kv.1 = k
    · have hnone : get d k = none := by
        rw [← hk]
        simpa [mem_keys_iff] using hnot
      rw [if_pos hk, hnone]
      constructor
      · rintro (h | h)
        · rw [← h]
        · cases h
      · intro h
        exact Or.inl (Prod.ext hk.symm (Option.some.inj h).symm)
    · rw [if_neg hk]
      constructor
      · rintro (h | h)
        · exact absurd (congrArg Prod.fst h).symm hk
        · exact h
      · exact Or.inr

omit [DecidableEq κ] in
theorem nodup_keys_restrict {d : Dict κ ν} (h : (d.map (·.1)).Nodup) (p : κ → Bool) :
    ((d.restrict p).map (·.1)).Nodup :=
  h.sublist (List.filter_sublist.map _)

theorem set_ne_nil (d : Dict κ ν) (k : κ) (v : ν) : d.set k v ≠ [] := by
  intro h
  have hget := get_set_self d k v
  rw [h] at hget
  cases hget

/-- An absent key is written at the end. -/
theorem set_of_get_eq_none {d : Dict κ ν} {k : κ} (h : d.get k = none) (v : ν) :
    d.set k v = d ++ [(k, v)] := by
  induction d with
  | nil => rfl
  | cons kv d ih =>
    rw [get_cons] at h
    split at h
    · cases h
    · rename_i hk
      rw [set, if_neg hk, ih h, List.cons_append]

/-- A bound key can be taken out of the items. -/
theorem perm_cons_restrict {d : Dict κ ν} (hnodup : (d.map (·.1)).Nodup) {k : κ} {v : ν}
    (h : d.get k = some v) : d.Perm ((k, v) :: d.restrict (· ≠ k)) := by
  induction d with
  | nil => cases h
  | cons kv d ih =>
    obtain ⟨hnot, hd⟩ := List.nodup_cons.mp hnodup
    unfold restrict at ih ⊢
    rw [get_cons] at h
    by_cases hk : kv.1 = k
    · rw [if_pos hk, Option.some.injEq] at h
      have hhead : kv = (k, v) := Prod.ext hk h
      have hnone : get d k = none := by
        rw [← hk]
        simpa [mem_keys_iff] using hnot
      have hrest := drop_of_get_eq_none hnone
      unfold restrict at hrest
      rw [List.filter_cons_of_neg (by simp [hk]), hrest, hhead]
    · rw [if_neg hk] at h
      rw [List.filter_cons_of_pos (by simp [hk])]
      exact ((ih hd h).cons kv).trans (List.Perm.swap _ _ _)

end Dict

end ApexScan.Lib
