import Mathlib.Data.List.Pairwise
import Mathlib.Order.Lattice
import Mathlib.Order.Monotone.Defs

/-!
# Tilings of a half-open interval by half-open intervals

`Tiles a spans b` says that the spans, in their order, cover `[a, b)` without gap or overlap and
that none of them is empty.

* `Tiles.bounds`, `Tiles.pairwise` — every span lies within `[a, b)`, and each ends no later than
  the next one starts.
* `Tiles.mem_iff` — a point is in `[a, b)` iff it is in one of the spans.
* `Tiles.flatMap_filter` — of a list in order, the parts in the spans make up the part in `[a, b)`.
-/

set_option autoImplicit false

namespace ApexScan.Lib

section Tiling

variable {α : Type} [LinearOrder α]

/-- The spans cover `[a, b)` from left to right, each starting where the one before it ends. -/
def Tiles : α → List (α × α) → α → Prop
  | a, [], b => a = b
  | a, span :: rest, b => span.1 = a ∧ span.1 < span.2 ∧ Tiles span.2 rest b

namespace Tiles

variable {a b : α} {spans : List (α × α)}

theorem le (h : Tiles a spans b) : a ≤ b := by
  induction spans generalizing a with
  | nil => exact (show a = b from h).le
  | cons span rest ih =>
    obtain ⟨rfl, hlt, hrest⟩ := h
    exact hlt.le.trans (ih hrest)

/-- A span lies within what is tiled and is not empty. -/
theorem bounds (h : Tiles a spans b) : ∀ s ∈ spans, a ≤ s.1 ∧ s.1 < s.2 ∧ s.2 ≤ b := by
  induction spans generalizing a with
  | nil =>
    intro s hs
    cases hs
  | cons span rest ih =>
    obtain ⟨rfl, hlt, hrest⟩ := h
    intro s hs
    rcases List.mem_cons.mp hs with rfl | hs
    · exact ⟨le_rfl, hlt, hrest.le⟩
    · have hs := ih hrest s hs
      exact ⟨hlt.le.trans hs.1, hs.2⟩

/-- A span ends no later than each later one starts. -/
theorem pairwise (h : Tiles a spans b) : spans.Pairwise fun s t => s.2 ≤ t.1 := by
  induction spans generalizing a with
  | nil => exact List.Pairwise.nil
  | cons span rest ih =>
    obtain ⟨rfl, -, hrest⟩ := h
    refine List.Pairwise.cons ?_ (ih hrest)
    intro t ht
    exact (hrest.bounds t ht).1

/-- The points of the tiled interval are the points of its spans. -/
theorem mem_iff (h : Tiles a spans b) {x : α} :
    (a ≤ x ∧ x < b) ↔ ∃ s ∈ spans, s.1 ≤ x ∧ x < s.2 := by
  constructor
  · rintro ⟨hax, hxb⟩
    induction spans generalizing a with
    | nil => exact absurd (hax.trans_lt hxb) (by rw [show a = b from h]; exact lt_irrefl b)
    | cons span rest ih =>
      obtain ⟨rfl, -, hrest⟩ := h
      rcases lt_or_ge x span.2 with hx | hx
      · exact ⟨span, List.mem_cons_self, hax, hx⟩
      · obtain ⟨s, hs, hsx⟩ := ih hrest hx
        exact ⟨s, List.mem_cons_of_mem _ hs, hsx⟩
  · rintro ⟨s, hs, hsx, hxs⟩
    have hbounds := h.bounds s hs
    exact ⟨hbounds.1.trans hsx, hxs.trans_le hbounds.2.2⟩

/-- Of a list in order, the part below a point and the part from it on. -/
theorem filter_append_filter {β : Type} {f : β → α} {within : α → α → β → Bool}
    (hwithin : ∀ s t x, within s t x = true ↔ s ≤ f x ∧ f x < t) {m : α} (ham : a ≤ m) (hmb : m ≤ b)
    {xs : List β} (hxs : xs.Pairwise fun x y => f x ≤ f y) :
    xs.filter (within a m) ++ xs.filter (within m b) = xs.filter (within a b) := by
  induction xs with
  | nil => rfl
  | cons x xs ih =>
    obtain ⟨hx, hrest⟩ := List.pairwise_cons.mp hxs
    have hparts := ih hrest
    rcases lt_or_ge (f x) m with hlow | hhigh
    · have hnot : ¬ within m b x = true := fun h => absurd ((hwithin m b x).mp h).1 (not_le.mpr hlow)
      have hsame : within a m x = within a b x := by
        rw [Bool.eq_iff_iff, hwithin, hwithin]
        exact and_congr_right fun _ => iff_of_true hlow (hlow.trans_le hmb)
      rw [List.filter_cons_of_neg hnot, List.filter_cons, List.filter_cons, ← hsame, ← hparts]
      split <;> rfl
    · -- nothing after `x` is below the point
      have hnone (y : β) (hy : y ∈ x :: xs) : ¬ within a m y = true := by
        intro h
        have hmy : m ≤ f y := by
          rcases List.mem_cons.mp hy with rfl | hy
          · exact hhigh
          · exact hhigh.trans (hx y hy)
        exact absurd ((hwithin a m y).mp h).2 (not_lt.mpr hmy)
      have hempty : xs.filter (within a m) = [] :=
        List.filter_eq_nil_iff.mpr fun y hy => hnone y (List.mem_cons_of_mem x hy)
      have hsame : within m b x = within a b x := by
        rw [Bool.eq_iff_iff, hwithin, hwithin]
        exact and_congr_left fun _ => iff_of_true hhigh (ham.trans hhigh)
      rw [hempty, List.nil_append] at hparts
      rw [List.filter_cons_of_neg (hnone x List.mem_cons_self), hempty, List.nil_append,
        List.filter_cons, List.filter_cons, hsame, hparts]

theorem flatMap_filter {β : Type} {f : β → α} {within : α → α → β → Bool}
    (hwithin : ∀ s t x, within s t x = true ↔ s ≤ f x ∧ f x < t) (h : Tiles a spans b)
    {xs : List β} (hxs : xs.Pairwise fun x y => f x ≤ f y) :
    spans.flatMap (fun s => xs.filter (within s.1 s.2)) = xs.filter (within a b) := by
  induction spans generalizing a with
  | nil =>
    have hab : a = b := h
    symm
    apply List.filter_eq_nil_iff.mpr
    intro x _ hx
    obtain ⟨hax, hxb⟩ := (hwithin a b x).mp hx
    rw [hab] at hax
    exact absurd hxb (not_lt.mpr hax)
  | cons span rest ih =>
    obtain ⟨rfl, hlt, hrest⟩ := h
    rw [List.flatMap_cons, ih hrest]
    exact filter_append_filter hwithin hlt.le hrest.le hxs

end Tiles

end Tiling

end ApexScan.Lib
