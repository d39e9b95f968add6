import ApexScan.Lib.Machine

/-!
# Two runs: with and without some operations

Some operations of a machine are visible and the others hidden.  A run is compared with the run of its
visible operations alone, the purged run, by what the visible operations let an observer see.

* `observed` — the outputs of the visible operations along a run.
* `observed_eq_iff` — the two runs show the same iff every step meets a condition, where the condition
  decides whether a visible step shows the same in related states, and keeps them related.
* `filterMap_outs_purged` — the two runs show the same of a part of their outputs that hidden operations
  never show.
-/

set_option autoImplicit false

namespace ApexScan.Lib

variable {σ α β : Type} (step : σ → α → σ × β) (visible : α → Bool)

/-- The outputs of the visible operations along a run, in order. -/
def observed : σ → List α → List β
  | _, [] => []
  | s, a :: ops =>
    if visible a then (step s a).2 :: observed (step s a).1 ops else observed (step s a).1 ops

variable {step visible} {R : σ → σ → Prop} {C : σ → α → Prop}

theorem observed_eq_iff
    (hhidden : ∀ s t a, visible a = false → R s t → C s a ∧ R (step s a).1 t)
    (hshown : ∀ s t a, visible a = true → R s t → ((step s a).2 = (step t a).2 ↔ C s a))
    (hkept : ∀ s t a, visible a = true → R s t → C s a → R (step s a).1 (step t a).1)
    (ops : List α) {s t : σ} (hR : R s t) :
    observed step visible s ops = outs step t (ops.filter visible) ↔ Along step C s ops := by
  induction ops generalizing s t with
  | nil => simp [observed]
  | cons a ops ih =>
    rw [along_cons]
    unfold observed
    cases ha : visible a with
    | false =>
      obtain ⟨hC, hR'⟩ := hhidden s t a ha hR
      rw [List.filter_cons_of_neg (by simp [ha]), if_neg (by simp), ih hR']
      exact (and_iff_right hC).symm
    | true =>
      rw [List.filter_cons_of_pos ha, if_pos rfl, outs_cons, List.cons.injEq, hshown s t a ha hR]
      exact and_congr_right fun hC => ih (hkept s t a ha hR hC)

/-- Where hidden operations show nothing and keep the runs related, and visible ones show the same in
    related states and keep them related, a run shows what its purged run shows. -/
theorem filterMap_outs_purged {γ : Type} {V : α → Prop} (view : β → Option γ)
    (hhidden : ∀ s t a, visible a = false → R s t → view (step s a).2 = none ∧ R (step s a).1 t)
    (hshown : ∀ s t a, visible a = true → V a → R s t →
      view (step s a).2 = view (step t a).2 ∧ R (step s a).1 (step t a).1)
    {ops : List α} (hops : ∀ a ∈ ops, V a) {s t : σ} (hR : R s t) :
    (outs step s ops).filterMap view = (outs step t (ops.filter visible)).filterMap view := by
  induction ops generalizing s t with
  | nil => rfl
  | cons a ops ih =>
    have hrest : ∀ b ∈ ops, V b := fun b hb => hops b (List.mem_cons_of_mem _ hb)
    rw [outs_cons, List.filterMap_cons]
    cases ha : visible a with
    | false =>
      obtain ⟨hnone, hR'⟩ := hhidden s t a ha hR
      rw [hnone, List.filter_cons_of_neg (by simp [ha])]
      exact ih hrest hR'
    | true =>
      obtain ⟨hview, hR'⟩ := hshown s t a ha (hops a List.mem_cons_self) hR
      rw [List.filter_cons_of_pos ha, outs_cons, List.filterMap_cons, hview, ih hrest hR']

end ApexScan.Lib
