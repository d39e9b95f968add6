import ApexScan.Lib.Interleaving

/-!
# A lock among processes that share a memory

A program with a lock: `locked` reads it from the shared memory, and `holds` tells the tasks that hold
it.

* `LockStep` — what a step of a task may do with the lock: leave it, take it while it is free, or give
  it back.
* `Guarded` — a program whose tasks do nothing else.
* `Exclusive.run` — the lock is held when, and only when, one task holds it.
-/

set_option autoImplicit false

namespace ApexScan.Lib

variable {σ τ ρ η ω : Type}

/-- What a step does with a lock, by the lock and the task before it and after it. -/
inductive LockStep (locked locked' holds holds' : Bool) : Prop where
  | kept (hlocked : locked' = locked) (hholds : holds' = holds)
  | taken (hfree : locked = false) (hlocked : locked' = true) (hidle : holds = false) (hholds : holds' = true)
  | released (hheld : holds = true) (hfree : locked' = false) (hidle : holds' = false)

/-- Whether a task goes on with the lock. -/
def Progress.holding (holds : τ → Bool) : Progress τ ρ → Bool
  | .running t => holds t
  | .finished _ => false

/-- A task starts without the lock, and each of its steps leaves, takes or releases it. -/
structure Guarded (program : Program σ τ ρ η ω) (locked : σ → Bool) (holds : τ → Bool) : Prop where
  start : ∀ request shared, (program.start request shared).holding holds = false
  advance : ∀ choice t shared, LockStep (locked shared) (locked (program.advance choice t shared).1)
    (holds t) ((program.advance choice t shared).2.holding holds)

/-- The lock is held if and only if a task holds it, and no two do. -/
structure Exclusive (locked : σ → Bool) (holds : τ → Bool) (pool : Pool σ τ) : Prop where
  held_iff : locked pool.shared = true ↔ ∃ p t, pool.tasks.get p = some t ∧ holds t = true
  unique : ∀ p q t u, pool.tasks.get p = some t → pool.tasks.get q = some u → holds t = true →
    holds u = true → p = q

variable {program : Program σ τ ρ η ω} {locked : σ → Bool} {holds : τ → Bool} {pool : Pool σ τ}

/-- A pool without tasks, in which the lock is free. -/
theorem Exclusive.idle {shared : σ} (hfree : locked shared = false) :
    Exclusive locked holds ⟨shared, []⟩ where
  held_iff := by
    constructor
    · intro hheld
      rw [hfree] at hheld
      cases hheld
    · rintro ⟨p, t, ht, -⟩
      cases ht
  unique := fun p q t u ht => by cases ht

/-- While a task has the lock, no other does. -/
theorem Exclusive.others (h : Exclusive locked holds pool) {process : ℕ} {t : τ}
    (ht : pool.tasks.get process = some t) (hholds : holds t = true) {q : ℕ} {u : τ} (hq : q ≠ process)
    (hu : pool.tasks.get q = some u) : holds u = false := by
  cases hother : holds u with
  | false => rfl
  | true => exact absurd (h.unique q process u t hu ht hother hholds) hq

/-- While the lock is free, no task has it. -/
theorem Exclusive.free (h : Exclusive locked holds pool) (hfree : locked pool.shared = false) {q : ℕ}
    {u : τ} (hu : pool.tasks.get q = some u) : holds u = false := by
  cases hother : holds u with
  | false => rfl
  | true =>
    have hheld := h.held_iff.mpr ⟨q, u, hu, hother⟩
    rw [hfree] at hheld
    cases hheld

/-- A task of a settled pool is the one that went on, or one of the others. -/
theorem settle_get_cases {process : ℕ} {shared : σ} {progress : Progress τ ρ} {q : ℕ} {u : τ}
    (hu : (pool.settle process shared progress).1.tasks.get q = some u) :
    q = process ∧ progress = .running u ∨ q ≠ process ∧ pool.tasks.get q = some u := by
  by_cases hq : q = process
  · subst hq
    refine .inl ⟨rfl, ?_⟩
    cases progress with
    | running t =>
      have hself : (pool.settle q shared (.running t : Progress τ ρ)).1.tasks.get q = some t :=
        Dict.get_set_self _ _ _
      rw [hself] at hu
      cases hu
      rfl
    | finished r =>
      unfold Pool.settle at hu
      simp [Dict.get_restrict] at hu
  · rw [settle_get_of_ne (Ne.symm hq)] at hu
    exact .inr ⟨hq, hu⟩

/-- The holders after a step are its own task, if it goes on with the lock, and the others. -/
theorem holder_settle {process : ℕ} {shared : σ} {progress : Progress τ ρ} :
    (∃ q u, (pool.settle process shared progress).1.tasks.get q = some u ∧ holds u = true) ↔
      progress.holding holds = true ∨
        ∃ q u, q ≠ process ∧ pool.tasks.get q = some u ∧ holds u = true := by
  constructor
  · rintro ⟨q, u, hu, hholds⟩
    rcases settle_get_cases hu with ⟨rfl, rfl⟩ | ⟨hq, hu⟩
    · exact .inl hholds
    · exact .inr ⟨q, u, hq, hu, hholds⟩
  · rintro (hholds | ⟨q, u, hq, hu, hholds⟩)
    · cases progress with
      | running t => exact ⟨process, t, Dict.get_set_self _ _ _, hholds⟩
      | finished r => cases hholds
    · exact ⟨q, u, by rw [settle_get_of_ne hq.symm, hu], hholds⟩

/-- A step that leaves no other holder beside its own. -/
theorem Exclusive.settle (h : Exclusive locked holds pool) {process : ℕ} {shared : σ}
    {progress : Progress τ ρ}
    (hown : progress.holding holds = true →
      ∀ q u, q ≠ process → pool.tasks.get q = some u → holds u = false)
    (hlocked : locked shared = true ↔ progress.holding holds = true ∨
      ∃ q u, q ≠ process ∧ pool.tasks.get q = some u ∧ holds u = true) :
    Exclusive locked holds (pool.settle process shared progress).1 where
  held_iff := by rw [settle_shared, hlocked, holder_settle]
  unique := by
    intro p q t u ht hu hp hq
    rcases settle_get_cases ht with ⟨hself, hrunning⟩ | ⟨hne, hold⟩
    · rcases settle_get_cases hu with ⟨hself', -⟩ | ⟨hne', hold'⟩
      · exact hself.trans hself'.symm
      · have hnone := hown (by rw [hrunning]; exact hp) q u hne' hold'
        rw [hnone] at hq
        cases hq
    · rcases settle_get_cases hu with ⟨-, hrunning⟩ | ⟨-, hold'⟩
      · have hnone := hown (by rw [hrunning]; exact hq) p t hne hold
        rw [hnone] at hp
        cases hp
      · exact h.unique p q t u hold hold' hp hq

/-- The step of a task that was in the pool. -/
theorem Exclusive.advance (h : Exclusive locked holds pool) {process : ℕ} {t : τ}
    (ht : pool.tasks.get process = some t) {shared : σ} {progress : Progress τ ρ}
    (hstep : LockStep (locked pool.shared) (locked shared) (holds t) (progress.holding holds)) :
    Exclusive locked holds (pool.settle process shared progress).1 := by
  cases hstep with
  | kept hlocked hholds =>
    apply h.settle
    · intro hown q u hq hu
      exact h.others ht (hholds.symm.trans hown) hq hu
    · rw [hlocked, hholds, h.held_iff]
      constructor
      · rintro ⟨q, u, hu, hother⟩
        by_cases hq : q = process
        · subst hq
          rw [ht] at hu
          cases hu
          exact .inl hother
        · exact .inr ⟨q, u, hq, hu, hother⟩
      · rintro (hown | ⟨q, u, -, hu, hother⟩)
        · exact ⟨process, t, ht, hown⟩
        · exact ⟨q, u, hu, hother⟩
  | taken hfree hlocked hidle hholds =>
    apply h.settle
    · intro _ q u _ hu
      exact h.free hfree hu
    · exact ⟨fun _ => .inl hholds, fun _ => hlocked⟩
  | released hheld hfree hidle =>
    have hothers (q : ℕ) (u : τ) (hq : q ≠ process) (hu : pool.tasks.get q = some u) :
        holds u = false := h.others ht hheld hq hu
    apply h.settle
    · exact fun _ => hothers
    · rw [hfree, hidle]
      constructor
      · intro habsurd
        cases habsurd
      · rintro (habsurd | ⟨q, u, hq, hu, hother⟩)
        · cases habsurd
        · rw [hothers q u hq hu] at hother
          cases hother

/-- **One turn** keeps the lock exclusive. -/
theorem Guarded.step (hguarded : Guarded program locked holds) (pool : Pool σ τ) (turn : Turn η ω)
    (h : Exclusive locked holds pool) : Exclusive locked holds (program.step pool turn).1 := by
  cases turn with
  | start process request =>
    cases hget : pool.tasks.get process with
    | some t =>
      simp only [Program.step, hget]
      exact h
    | none =>
      simp only [Program.step, hget]
      have hidle := hguarded.start request pool.shared
      apply h.settle
      · intro hown
        rw [hidle] at hown
        cases hown
      · rw [h.held_iff, hidle]
        constructor
        · rintro ⟨q, u, hu, hother⟩
          refine .inr ⟨q, u, ?_, hu, hother⟩
          rintro rfl
          rw [hget] at hu
          cases hu
        · rintro (habsurd | ⟨q, u, -, hu, hother⟩)
          · cases habsurd
          · exact ⟨q, u, hu, hother⟩
  | advance process choice =>
    cases hget : pool.tasks.get process with
    | none =>
      simp only [Program.step, hget]
      exact h
    | some t =>
      simp only [Program.step, hget]
      exact h.advance hget (hguarded.advance choice t pool.shared)

/-- **Mutual exclusion**, after every interleaving. -/
theorem Exclusive.run (hguarded : Guarded program locked holds) (turns : List (Turn η ω))
    (h : Exclusive locked holds pool) : Exclusive locked holds (Lib.run program.step pool turns) :=
  run_invariant hguarded.step turns h

end ApexScan.Lib
