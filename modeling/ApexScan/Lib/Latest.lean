import Mathlib.Data.Finset.Card
import Mathlib.Order.Defs.LinearOrder

/-!
# The latest members of a set

* `LatestOf P ds` — the list holds the greatest points with `P`, in decreasing order: with each of its
  points it has every greater one.
* `DownTo P c ds` — it holds all of them from `c` on.  A search that goes down finds them one by one
  (`DownTo.concat`), and may pass over what is not in the set (`DownTo.lower`).
-/

set_option autoImplicit false

namespace ApexScan.Lib

variable {α : Type} [LinearOrder α] {P : α → Prop} {ds : List α} {c : α}

/-- The greatest points with `P`, in decreasing order. -/
structure LatestOf (P : α → Prop) (ds : List α) : Prop where
  decreasing : ds.Pairwise fun a b => b < a
  holds : ∀ d ∈ ds, P d
  closed : ∀ d ∈ ds, ∀ x, P x → d < x → x ∈ ds

theorem LatestOf.nodup (h : LatestOf P ds) : ds.Nodup := h.decreasing.imp fun hlt => hlt.ne'

/-- The points with `P` that are not below `c`, in decreasing order. -/
structure DownTo (P : α → Prop) (c : α) (ds : List α) : Prop where
  decreasing : ds.Pairwise fun a b => b < a
  mem_iff : ∀ x, x ∈ ds ↔ P x ∧ c ≤ x

theorem DownTo.latestOf (h : DownTo P c ds) : LatestOf P ds := by
  refine ⟨h.decreasing, ?_, ?_⟩
  · intro d hd
    exact ((h.mem_iff d).mp hd).1
  · intro d hd x hx hlt
    exact (h.mem_iff x).mpr ⟨hx, ((h.mem_iff d).mp hd).2.trans hlt.le⟩

theorem DownTo.nil (h : ∀ x, P x → x < c) : DownTo P c [] := by
  refine ⟨List.Pairwise.nil, ?_⟩
  intro x
  constructor
  · intro hx
    cases hx
  · rintro ⟨hx, hle⟩
    exact absurd (h x hx) (not_lt.mpr hle)

/-- The next one down: no point with `P` lies between it and the ones that are there. -/
theorem DownTo.concat (h : DownTo P c ds) {d : α} (hd : P d) (hlt : d < c)
    (hnext : ∀ x, P x → x < c → x ≤ d) : DownTo P d (ds ++ [d]) := by
  refine ⟨?_, ?_⟩
  · refine List.pairwise_append.mpr ⟨h.decreasing, List.pairwise_singleton _ _, ?_⟩
    intro a ha b hb
    rw [List.mem_singleton.mp hb]
    exact hlt.trans_le ((h.mem_iff a).mp ha).2
  · intro x
    rw [List.mem_append, List.mem_singleton, h.mem_iff]
    constructor
    · rintro (⟨hx, hle⟩ | rfl)
      · exact ⟨hx, hlt.le.trans hle⟩
      · exact ⟨hd, le_refl _⟩
    · rintro ⟨hx, hle⟩
      rcases lt_or_ge x c with hbelow | habove
      · exact Or.inr (le_antisymm (hnext x hx hbelow) hle)
      · exact Or.inl ⟨hx, habove⟩

/-- The search passes over points without `P`. -/
theorem DownTo.lower (h : DownTo P c ds) {c' : α} (hle : c' ≤ c) (hnone : ∀ x, P x → c' ≤ x → c ≤ x) :
    DownTo P c' ds := by
  refine ⟨h.decreasing, ?_⟩
  intro x
  rw [h.mem_iff]
  constructor
  · rintro ⟨hx, habove⟩
    exact ⟨hx, hle.trans habove⟩
  · rintro ⟨hx, habove⟩
    exact ⟨hx, hnone x hx habove⟩

end ApexScan.Lib
