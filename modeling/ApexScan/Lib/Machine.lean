import Mathlib.Data.List.Basic
import Mathlib.Data.List.Chain

/-!
# Machines with outputs: runs, traces and step conditions

A machine is a function `step : σ → α → σ × β`: from a state and an operation it gives the
next state and what the operation lets an observer see.  A run is a list of operations.

* `run` / `outs` — the state after a run and the outputs along it, in order.
* `Along step C s ops` — every step of the run meets `C` in the state it is taken in.
* `run_invariant`, `Along.invariant` — a property kept by every (conforming) step holds after
  every (conforming) run.
* `along_iff_forall` — a run conforms iff each of its steps does.
* `along_iff` — conditions that agree in the states of an invariant are met by the same runs.
* `avoids_iff_along` — a state that absorbs is avoided by a run iff every step meets the condition
  that avoids it.
* `outs_forall_iff` — a property of the outputs that a step condition decides holds of all
  outputs of a run iff the run meets the condition at every step.
* `run_origin_kept`, `run_origin` — what a run has stored was written by one of its steps, and kept since.
* `outs_isChain` — where the state remembers the last emission, a relation between the remembered
  and the next emission chains all emissions of a run.
* `outs_lockstep` — two runs whose steps agree pairwise on what is observed are observed alike.
* `Along.related` — a relation between two machines that conforming steps keep holds after every
  conforming run.
* `outs_eq_iff_along` — where a step condition decides whether a machine answers as its abstraction
  does, a run is answered alike iff every step meets the condition.
-/

set_option autoImplicit false

namespace ApexScan.Lib

variable {σ α β : Type}

/-- The state after a list of operations. -/
def run (step : σ → α → σ × β) (s : σ) (ops : List α) : σ :=
  ops.foldl (fun s a => (step s a).1) s

/-- The outputs along a list of operations, in order. -/
def outs (step : σ → α → σ × β) : σ → List α → List β
  | _, [] => []
  | s, a :: ops => (step s a).2 :: outs step (step s a).1 ops

/-- Every step of the run meets the condition `C` in the state it is taken in. -/
def Along (step : σ → α → σ × β) (C : σ → α → Prop) : σ → List α → Prop
  | _, [] => True
  | s, a :: ops => C s a ∧ Along step C (step s a).1 ops

variable {step : σ → α → σ × β} {C : σ → α → Prop}

instance decidableAlong [∀ s a, Decidable (C s a)] : ∀ s ops, Decidable (Along step C s ops)
  | _, [] => isTrue trivial
  | s, a :: ops => @instDecidableAnd _ _ inferInstance (decidableAlong (step s a).1 ops)

@[simp] theorem run_nil (s : σ) : run step s [] = s := rfl

@[simp] theorem run_cons (s : σ) (a : α) (ops : List α) :
    run step s (a :: ops) = run step (step s a).1 ops := rfl

theorem run_append (s : σ) (xs ys : List α) :
    run step s (xs ++ ys) = run step (run step s xs) ys := by
  simp [run, List.foldl_append]

theorem run_concat (s : σ) (xs : List α) (a : α) :
    run step s (xs ++ [a]) = (step (run step s xs) a).1 := by
  simp [run_append]

@[simp] theorem outs_nil (s : σ) : outs step s [] = [] := rfl

@[simp] theorem outs_cons (s : σ) (a : α) (ops : List α) :
    outs step s (a :: ops) = (step s a).2 :: outs step (step s a).1 ops := rfl

theorem outs_append (s : σ) (xs ys : List α) :
    outs step s (xs ++ ys) = outs step s xs ++ outs step (run step s xs) ys := by
  induction xs generalizing s with
  | nil => rfl
  | cons a xs ih => simp [ih]

theorem outs_concat (s : σ) (xs : List α) (a : α) :
    outs step s (xs ++ [a]) = outs step s xs ++ [(step (run step s xs) a).2] := by
  simp [outs_append]

@[simp] theorem outs_length (s : σ) (xs : List α) : (outs step s xs).length = xs.length := by
  induction xs generalizing s with
  | nil => rfl
  | cons a xs ih => simp [ih]

/-- An output of a run is the output of one of its steps. -/
theorem exists_of_mem_outs {o : β} {ops : List α} {s : σ} (h : o ∈ outs step s ops) :
    ∃ pre a post, ops = pre ++ a :: post ∧ o = (step (run step s pre) a).2 := by
  induction ops generalizing s with
  | nil => cases h
  | cons a ops ih =>
    rcases List.mem_cons.mp h with rfl | h
    · exact ⟨[], a, ops, rfl, rfl⟩
    · obtain ⟨pre, b, post, rfl, ho⟩ := ih h
      exact ⟨a :: pre, b, post, rfl, ho⟩

@[simp] theorem along_nil (s : σ) : Along step C s [] := trivial

@[simp] theorem along_cons (s : σ) (a : α) (ops : List α) :
    Along step C s (a :: ops) ↔ C s a ∧ Along step C (step s a).1 ops := Iff.rfl

theorem along_append (s : σ) (xs ys : List α) :
    Along step C s (xs ++ ys) ↔ Along step C s xs ∧ Along step C (run step s xs) ys := by
  induction xs generalizing s with
  | nil => simp
  | cons a xs ih => simp [ih, and_assoc]

/-- A run conforms iff each of its steps does, in the state that the steps before it lead to. -/
theorem along_iff_forall {s : σ} {ops : List α} :
    Along step C s ops ↔ ∀ pre a post, ops = pre ++ a :: post → C (run step s pre) a := by
  constructor
  · rintro h pre a post rfl
    rw [along_append] at h
    exact h.2.1
  · intro h
    induction ops generalizing s with
    | nil => trivial
    | cons a ops ih =>
      refine ⟨h [] a ops rfl, ih fun pre b post hops => ?_⟩
      rw [hops] at h
      exact h (a :: pre) b post rfl

/-- An invariant kept by every step that meets `C` holds after every run that does. -/
theorem Along.invariant {I : σ → Prop} (hstep : ∀ s a, C s a → I s → I (step s a).1) :
    ∀ {ops : List α} {s : σ}, Along step C s ops → I s → I (run step s ops) := by
  intro ops
  induction ops with
  | nil => intro s _ hI; exact hI
  | cons a ops ih =>
    intro s h hI
    exact ih h.2 (hstep s a h.1 hI)

/-- An invariant kept by every step holds after every run. -/
theorem run_invariant {I : σ → Prop} (hstep : ∀ s a, I s → I (step s a).1)
    (ops : List α) {s : σ} (hI : I s) : I (run step s ops) := by
  induction ops generalizing s with
  | nil => exact hI
  | cons a ops ih => exact ih (hstep s a hI)

/-- A condition that an invariant of every step implies is met by every run. -/
theorem along_of_invariant {I : σ → Prop} (hstep : ∀ s a, I s → I (step s a).1)
    (hmeets : ∀ s a, I s → C s a) (ops : List α) {s : σ} (hI : I s) : Along step C s ops := by
  induction ops generalizing s with
  | nil => trivial
  | cons a ops ih => exact ⟨hmeets s a hI, ih (hstep s a hI)⟩

/-- Two conditions agree along a run where they agree in the states of an invariant that the first
    one keeps. -/
theorem along_iff {I : σ → Prop} {D : σ → α → Prop}
    (hkeep : ∀ s a, I s → C s a → I (step s a).1) (hiff : ∀ s a, I s → (C s a ↔ D s a))
    (ops : List α) {s : σ} (hI : I s) : Along step C s ops ↔ Along step D s ops := by
  induction ops generalizing s with
  | nil => simp
  | cons a ops ih =>
    rw [along_cons, along_cons, ← hiff s a hI]
    exact and_congr_right fun h => ih (hkeep s a hI h)

/-- Where a bad state stays bad and the condition of a step decides whether it is entered, a run
    avoids it iff every step meets the condition. -/
theorem avoids_iff_along {Bad : σ → Prop} (habsorbs : ∀ s a, Bad s → Bad (step s a).1)
    (hiff : ∀ s a, ¬ Bad s → (¬ Bad (step s a).1 ↔ C s a)) (ops : List α) {s : σ} (hs : ¬ Bad s) :
    ¬ Bad (run step s ops) ↔ Along step C s ops := by
  induction ops generalizing s with
  | nil => simp [hs]
  | cons a ops ih =>
    rw [run_cons, along_cons, ← hiff s a hs]
    by_cases hnext : Bad (step s a).1
    · have hend : Bad (run step (step s a).1 ops) := run_invariant habsorbs ops hnext
      simp [hnext, hend]
    · rw [ih hnext]
      simp [hnext]

/-- Where the condition of a step decides a property of its output, in the states of an
    invariant, the property holds of every output of a run iff every step meets the
    condition. -/
theorem outs_forall_iff {I : σ → Prop} {P : β → Prop} (hstep : ∀ s a, I s → I (step s a).1)
    (hiff : ∀ s a, I s → (P (step s a).2 ↔ C s a)) (ops : List α) {s : σ} (hI : I s) :
    (∀ o ∈ outs step s ops, P o) ↔ Along step C s ops := by
  induction ops generalizing s with
  | nil => simp
  | cons a ops ih =>
    rw [along_cons, ← ih (hstep s a hI), ← hiff s a hI]
    simp

/-- A value that a run has stored was written by one of its steps, and has been stored since. -/
theorem run_origin_kept {ν : Type} (get : σ → Option ν) (Source : σ → α → ν → Prop)
    (hstep : ∀ s a v, get (step s a).1 = some v → get s = some v ∨ Source s a v)
    {s : σ} (hs : get s = none) (ops : List α) {v : ν} (hv : get (run step s ops) = some v) :
    ∃ pre a post, ops = pre ++ a :: post ∧ Source (run step s pre) a v ∧
      ∀ mid rest, post = mid ++ rest → get (run step s (pre ++ a :: mid)) = some v := by
  induction ops using List.reverseRecOn with
  | nil =>
    rw [run_nil, hs] at hv
    cases hv
  | append_singleton ops last ih =>
    have hlast := hv
    rw [run_concat] at hv
    rcases hstep (run step s ops) last v hv with hkept | hwritten
    · obtain ⟨pre, a, post, rfl, hsource, hsince⟩ := ih hkept
      refine ⟨pre, a, post ++ [last], by simp, hsource, ?_⟩
      intro mid rest hsplit
      rcases List.append_eq_append_iff.mp hsplit with ⟨tail, rfl, htail⟩ | ⟨tail, rfl, -⟩
      · -- the cut is at the last operation or after it
        cases tail with
        | nil =>
          rw [List.append_nil]
          exact hkept
        | cons b tail =>
          rw [List.cons_append, List.cons.injEq, List.nil_eq, List.append_eq_nil_iff] at htail
          obtain ⟨rfl, rfl, rfl⟩ := htail
          rw [← List.cons_append, ← List.append_assoc]
          exact hlast
      · exact hsince mid tail rfl
    · refine ⟨ops, last, [], rfl, hwritten, ?_⟩
      intro mid rest hsplit
      obtain ⟨rfl, rfl⟩ := List.append_eq_nil_iff.mp hsplit.symm
      exact hlast

/-- A value that a run has stored was written by one of its steps. -/
theorem run_origin {ν : Type} (get : σ → Option ν) (Source : σ → α → ν → Prop)
    (hstep : ∀ s a v, get (step s a).1 = some v → get s = some v ∨ Source s a v)
    {s : σ} (hs : get s = none) (ops : List α) {v : ν} (hv : get (run step s ops) = some v) :
    ∃ pre a post, ops = pre ++ a :: post ∧ Source (run step s pre) a v := by
  obtain ⟨pre, a, post, hops, hsource, -⟩ := run_origin_kept get Source hstep hs ops hv
  exact ⟨pre, a, post, hops, hsource⟩

/-- Where the state remembers the last emission, and the remembered emission is in relation to
    whatever a conforming step emits next, the emissions of a conforming run form a chain. -/
theorem outs_isChain {γ : Type} {I : σ → Prop} (last : σ → Option γ) (emit : β → Option γ)
    {R : γ → γ → Prop}
    (hstep : ∀ s a, I s → C s a → I (step s a).1 ∧
      last (step s a).1 = (emit (step s a).2).or (last s) ∧
      ∀ p c, last s = some p → emit (step s a).2 = some c → R p c)
    (ops : List α) {s : σ} (hI : I s) (h : Along step C s ops) :
    ((last s).toList ++ (outs step s ops).filterMap emit).IsChain R := by
  induction ops generalizing s with
  | nil => cases last s <;> simp
  | cons a ops ih =>
    obtain ⟨hI', hlast, hR⟩ := hstep s a hI h.1
    have hrest := ih hI' h.2
    rw [hlast] at hrest
    rw [outs_cons, List.filterMap_cons]
    cases hemit : emit (step s a).2 with
    | none =>
      rw [hemit, Option.none_or] at hrest
      exact hrest
    | some c =>
      rw [hemit, Option.some_or] at hrest
      cases hp : last s with
      | none => exact hrest
      | some p => exact List.IsChain.cons_cons (hR p c hp hemit) hrest

/-- Two conforming runs, whose steps are related pairwise and keep a relation between the states in
    which they are observed alike, are observed alike. -/
theorem outs_lockstep {γ : Type} {J : σ → σ → Prop} {R : α → α → Prop} (obs : β → γ)
    (hstep : ∀ s s' a a', J s s' → R a a' → C s a → C s' a' →
      J (step s a).1 (step s' a').1 ∧ obs (step s a).2 = obs (step s' a').2)
    {ops ops' : List α} (hops : List.Forall₂ R ops ops') {s s' : σ} (hJ : J s s')
    (h : Along step C s ops) (h' : Along step C s' ops') :
    (outs step s ops).map obs = (outs step s' ops').map obs := by
  induction hops generalizing s s' with
  | nil => rfl
  | cons ha _ ih =>
    obtain ⟨hJ', hobs⟩ := hstep _ _ _ _ hJ ha h.1 h'.1
    rw [outs_cons, outs_cons, List.map_cons, List.map_cons, hobs, ih hJ' h.2 h'.2]

/-- A relation between two machines that every conforming step of the first one keeps holds after every
    conforming run. -/
theorem Along.related {τ : Type} {abstractStep : τ → α → τ × β} {R : σ → τ → Prop}
    (hstep : ∀ s t a, R s t → C s a → R (step s a).1 (abstractStep t a).1) {ops : List α} {s : σ} {t : τ}
    (h : Along step C s ops) (hR : R s t) : R (run step s ops) (run abstractStep t ops) := by
  induction ops generalizing s t with
  | nil => exact hR
  | cons a ops ih => exact ih h.2 (hstep s t a hR h.1)

/-- Where related states answer alike and stay related on a conforming step, and answer differently on
    any other, a run is answered alike iff every step conforms. -/
theorem outs_eq_iff_along {τ : Type} {abstractStep : τ → α → τ × β} {R : σ → τ → Prop}
    (hconform : ∀ s t a, R s t → C s a →
      R (step s a).1 (abstractStep t a).1 ∧ (step s a).2 = (abstractStep t a).2)
    (hdiffer : ∀ s t a, R s t → ¬ C s a → (step s a).2 ≠ (abstractStep t a).2)
    (ops : List α) {s : σ} {t : τ} (hR : R s t) :
    outs step s ops = outs abstractStep t ops ↔ Along step C s ops := by
  induction ops generalizing s t with
  | nil => simp
  | cons a ops ih =>
    rw [outs_cons, outs_cons, along_cons, List.cons.injEq]
    by_cases hC : C s a
    · obtain ⟨hR', heq⟩ := hconform s t a hR hC
      rw [ih hR']
      simp [hC, heq]
    · simp [hC, hdiffer s t a hR hC]

end ApexScan.Lib
