import ApexScan.Lib.Dict
import ApexScan.Lib.Raising
import Mathlib.Data.List.MinMax
import Mathlib.Data.List.Sort

/-!
# Choosing and sorting by a key

What a choice and a sort depend on besides the order in which the elements arrive.

* `argmax_of_mem_iff`, `argmax_of_perm` — the first element of greatest key depends on the elements
  alone, where equal keys mean equal elements.
* `sortedOn` — a stable sort by a key whose evaluation may raise.
* `sortedOn_spec`, `sortedOn_returns`, `sortedOn_error` — what it gives, when it returns and what it
  raises.
* `sortedOn_of_perm` — sorting by distinct keys gives one list for every order.
* `Dict.perm_of_get_eq` — dictionaries with the same bindings have the same items.
-/

set_option autoImplicit false

namespace ApexScan.Lib

/-- The element of greatest key depends on the elements alone. -/
theorem argmax_of_mem_iff {α κ : Type} [LinearOrder κ] {f : α → κ} {xs ys : List α}
    (h : ∀ a, a ∈ xs ↔ a ∈ ys) (hinj : ∀ a ∈ xs, ∀ b ∈ xs, f a = f b → a = b) :
    xs.argmax f = ys.argmax f := by
  cases hx : xs.argmax f with
  | none =>
    have hnil := List.argmax_eq_none.mp hx
    have hnil' : ys = [] := by
      rw [List.eq_nil_iff_forall_not_mem]
      intro a ha
      rw [← h a, hnil] at ha
      cases ha
    rw [hnil', List.argmax_nil]
  | some a =>
    have ha : a ∈ xs := List.argmax_mem hx
    cases hy : ys.argmax f with
    | none =>
      rw [h a, List.argmax_eq_none.mp hy] at ha
      cases ha
    | some b =>
      have hb : b ∈ xs := (h b).mpr (List.argmax_mem hy)
      have hle : f a ≤ f b := List.le_of_mem_argmax ((h a).mp ha) hy
      have hge : f b ≤ f a := List.le_of_mem_argmax hb hx
      rw [hinj a ha b hb (le_antisymm hle hge)]

/-- The element of greatest key is the same in every order. -/
theorem argmax_of_perm {α κ : Type} [LinearOrder κ] {f : α → κ} {xs ys : List α} (h : xs.Perm ys)
    (hinj : ∀ a ∈ xs, ∀ b ∈ xs, f a = f b → a = b) : xs.argmax f = ys.argmax f :=
  argmax_of_mem_iff (fun _ => h.mem_iff) hinj

/-- The element of greatest key is the first one that has this key. -/
theorem find?_of_argmax {α κ : Type} [LinearOrder κ] {f : α → κ} {xs : List α} {a : α}
    (h : xs.argmax f = some a) : xs.find? (fun b => f b = f a) = some a := by
  induction xs using List.reverseRecOn with
  | nil => cases h
  | append_singleton xs b ih =>
    rw [List.argmax_concat] at h
    cases hx : xs.argmax f with
    | none =>
      rw [hx] at h
      cases h
      simp [List.argmax_eq_none.mp hx]
    | some c =>
      simp only [hx] at h
      split at h
      · rename_i hlt
        cases h
        have hnone : xs.find? (fun d => f d = f a) = none := by
          rw [List.find?_eq_none]
          intro d hd
          have : f d ≤ f c := List.le_of_mem_argmax hd hx
          simpa using (this.trans_lt hlt).ne
        simp [hnone]
      · cases h
        rw [List.find?_append, ih hx]
        rfl

section Sorting

variable {ε α κ : Type} [LinearOrder κ]

/-- `sorted(xs, key=key)`, where the key may raise. -/
def sortedOn (key : α → Except ε κ) (xs : List α) : Except ε (List α) := do
  let keyed ← xs.mapM fun x => do return (← key x, x)
  return (keyed.insertionSort fun a b => a.1 ≤ b.1).map (·.2)

omit [LinearOrder κ] in
theorem keyed_eq_ok {key : α → Except ε κ} {x : α} {kx : κ × α} :
    (do return (← key x, x) : Except ε (κ × α)) = .ok kx ↔ key x = .ok kx.1 ∧ x = kx.2 := by
  rw [bind_eq_ok]
  constructor
  · rintro ⟨k, hk, h⟩
    cases h
    exact ⟨hk, rfl⟩
  · rintro ⟨hk, rfl⟩
    exact ⟨_, hk, rfl⟩

omit [LinearOrder κ] in
/-- The keyed elements are the elements with their keys. -/
theorem keyed_spec {key : α → Except ε κ} {xs : List α} {keyed : List (κ × α)}
    (h : (xs.mapM fun x => do return (← key x, x)) = Except.ok keyed) :
    keyed.map (·.2) = xs ∧ ∀ kx ∈ keyed, key kx.2 = .ok kx.1 := by
  constructor
  · have hall := mapM_eq_ok.mp h
    clear h
    induction hall with
    | nil => rfl
    | cons hx _ ih => rw [List.map_cons, ih, (keyed_eq_ok.mp hx).2]
  · intro kx hkx
    obtain ⟨x, _, hx⟩ := exists_of_mapM_eq_ok h hkx
    obtain ⟨hkey, rfl⟩ := keyed_eq_ok.mp hx
    exact hkey

/-- The result is the elements in the order of their keys. -/
theorem sortedOn_spec {key : α → Except ε κ} {xs ys : List α} (h : sortedOn key xs = .ok ys) :
    ys.Perm xs ∧ ys.Pairwise fun a b => ∃ k l, key a = .ok k ∧ key b = .ok l ∧ k ≤ l := by
  obtain ⟨keyed, hkeyed, hsorted⟩ := bind_eq_ok.mp h
  obtain ⟨hmap, hkeys⟩ := keyed_spec hkeyed
  cases hsorted
  constructor
  · rw [← hmap]
    exact (List.perm_insertionSort _ _).map _
  · rw [List.pairwise_map]
    have hle := List.pairwise_insertionSort (fun a b : κ × α => a.1 ≤ b.1) keyed
    apply hle.imp_of_mem
    intro a b ha hb hab
    exact ⟨a.1, b.1, hkeys a ((List.mem_insertionSort _).mp ha),
      hkeys b ((List.mem_insertionSort _).mp hb), hab⟩

theorem sortedOn_returns {key : α → Except ε κ} {xs : List α} (h : ∀ x ∈ xs, ∃ k, key x = .ok k) :
    ∃ ys, sortedOn key xs = .ok ys := by
  obtain ⟨keyed, hkeyed⟩ := mapM_returns (f := fun x => do return (← key x, x)) fun x hx => by
    obtain ⟨k, hk⟩ := h x hx
    exact ⟨(k, x), keyed_eq_ok.mpr ⟨hk, rfl⟩⟩
  exact ⟨_, bind_eq_ok.mpr ⟨keyed, hkeyed, rfl⟩⟩

/-- A sort that returns has computed the key of every element. -/
theorem sortedOn_keys {key : α → Except ε κ} {xs ys : List α} (h : sortedOn key xs = .ok ys) :
    ∀ x ∈ xs, ∃ k, key x = .ok k := by
  intro x hx
  obtain ⟨keyed, hkeyed, -⟩ := bind_eq_ok.mp h
  obtain ⟨hmap, hkeys⟩ := keyed_spec hkeyed
  rw [← hmap] at hx
  obtain ⟨kx, hkx, rfl⟩ := List.mem_map.mp hx
  exact ⟨kx.1, hkeys kx hkx⟩

/-- What a sort raises, the key of an element raised. -/
theorem sortedOn_error {key : α → Except ε κ} {xs : List α} {e : ε} (h : sortedOn key xs = .error e) :
    ∃ x ∈ xs, key x = .error e := by
  unfold sortedOn at h
  cases hkeyed : xs.mapM fun x => do return (← key x, x) with
  | ok keyed =>
    rw [hkeyed] at h
    cases h
  | error e' =>
    rw [hkeyed] at h
    cases h
    obtain ⟨x, hx, hf⟩ := exists_of_mapM_eq_error hkeyed
    refine ⟨x, hx, ?_⟩
    cases hkey : key x with
    | ok k =>
      rw [hkey] at hf
      cases hf
    | error e' =>
      rw [hkey] at hf
      cases hf
      rfl

/-- **Sorting by distinct keys gives one list for every order of the elements.** -/
theorem sortedOn_of_perm {key : α → Except ε κ} {xs xs' ys : List α} (h : xs.Perm xs')
    (hinj : ∀ a ∈ xs, ∀ b ∈ xs, ∀ k, key a = .ok k → key b = .ok k → a = b)
    (hys : sortedOn key xs = .ok ys) : sortedOn key xs' = .ok ys := by
  obtain ⟨hperm, hsorted⟩ := sortedOn_spec hys
  have hkey : ∀ x ∈ xs', ∃ k, key x = .ok k := by
    intro x hx
    obtain ⟨keyed, hkeyed, _⟩ := bind_eq_ok.mp hys
    obtain ⟨hmap, hkeys⟩ := keyed_spec hkeyed
    have hmem := h.mem_iff.mpr hx
    rw [← hmap] at hmem
    obtain ⟨kx, hkx, rfl⟩ := List.mem_map.mp hmem
    exact ⟨kx.1, hkeys kx hkx⟩
  obtain ⟨zs, hzs⟩ := sortedOn_returns hkey
  obtain ⟨hperm', hsorted'⟩ := sortedOn_spec hzs
  rw [hzs]
  have hzy : zs.Perm ys := hperm'.trans (h.symm.trans hperm.symm)
  refine congrArg _ (hzy.eq_of_pairwise ?_ hsorted' hsorted)
  rintro a b ha hb ⟨k, l, hka, hlb, hkl⟩ ⟨l', k', hlb', hka', hlk⟩
  cases hka.symm.trans hka'
  cases hlb.symm.trans hlb'
  obtain rfl := le_antisymm hkl hlk
  have hax := h.mem_iff.mpr (hperm'.mem_iff.mp ha)
  exact hinj a hax b (hperm.mem_iff.mp hb) k hka hlb

end Sorting

/-- Dictionaries with the same bindings have the same items. -/
theorem Dict.perm_of_get_eq {κ ν : Type} [DecidableEq κ] {d d' : Dict κ ν}
    (hd : (d.map (·.1)).Nodup) (hd' : (d'.map (·.1)).Nodup) (h : ∀ k, d.get k = d'.get k) :
    d.Perm d' := by
  apply (List.perm_ext_iff_of_nodup hd.of_map hd'.of_map).mpr
  rintro ⟨k, v⟩
  rw [Dict.mem_iff_get hd, Dict.mem_iff_get hd', h k]

end ApexScan.Lib
