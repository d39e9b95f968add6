import ApexScan.Lib.Dict
import ApexScan.Lib.Machine

/-!
# Processes that share a memory

Each process works at one task at a time, in steps that are atomic on the shared memory.  A turn of a
process starts a task or takes the next step of the one it has, so a list of turns is an interleaving
of the processes, and a process that gets no more turns has stopped for ever.

* `Program`, `Pool`, `Turn`, `Program.step` — the machine of all interleavings.
* `alone` — the steps of one task that nothing comes between.
* `Assertions`, `Respected.run` — what each task knows holds in every interleaving, if no step of a
  task breaks what the others know.
* `Logged.run` — the same where the ghost value is the log of what the results emit, so that what is
  asserted speaks of the results of the run.
* `Recorded.run` — what the memory, the tasks and the results know of the turns before them.
* `finishes` — a task whose steps decrease a measure ends when its process has had that many turns.
-/

set_option autoImplicit false

namespace ApexScan.Lib

/-- What a step leaves of a task. -/
inductive Progress (τ ρ : Type) where
  | running (task : τ)
  | finished (result : ρ)

/-- The shared memory, and the task of each busy process. -/
structure Pool (σ τ : Type) where
  shared : σ
  tasks : Dict ℕ τ

inductive Turn (η ω : Type) where
  | start (process : ℕ) (request : η)
  | advance (process : ℕ) (choice : ω)

/-- What a request starts, and what one step of a task does. -/
structure Program (σ τ ρ η ω : Type) where
  start : η → σ → Progress τ ρ
  advance : ω → τ → σ → σ × Progress τ ρ

variable {σ τ ρ η ω : Type}

/-- The pool after a step of a process. -/
def Pool.settle (pool : Pool σ τ) (process : ℕ) (shared : σ) :
    Progress τ ρ → Pool σ τ × Option (ℕ × ρ)
  | .running task => (⟨shared, pool.tasks.set process task⟩, none)
  | .finished result =>
    (⟨shared, pool.tasks.restrict (· ≠ process)⟩, some (process, result))

/-- One turn; a busy process starts nothing, and an idle one has no step to take. -/
def Program.step (program : Program σ τ ρ η ω) (pool : Pool σ τ) :
    Turn η ω → Pool σ τ × Option (ℕ × ρ)
  | .start process request =>
    match pool.tasks.get process with
    | some _ => (pool, none)
    | none => pool.settle process pool.shared (program.start request pool.shared)
  | .advance process choice =>
    match pool.tasks.get process with
    | none => (pool, none)
    | some task =>
      let (shared, progress) := program.advance choice task pool.shared
      pool.settle process shared progress

/-- Whether a turn is a step of the process. -/
def Turn.advances (process : ℕ) : Turn η ω → Bool
  | .start _ _ => false
  | .advance p _ => p = process

/-- The steps of one task, as far as the fuel lasts. -/
def Program.alone (program : Program σ τ ρ η ω) (choose : τ → ω) :
    ℕ → τ → σ → σ × Progress τ ρ
  | 0, task, shared => (shared, .running task)
  | fuel + 1, task, shared =>
    match program.advance (choose task) task shared with
    | (shared', .running task') => program.alone choose fuel task' shared'
    | (shared', .finished result) => (shared', .finished result)

variable {program : Program σ τ ρ η ω} {pool : Pool σ τ}

/-! ## What a turn changes -/

theorem settle_get_of_ne {process other : ℕ} (hne : process ≠ other) (shared : σ)
    (progress : Progress τ ρ) :
    (pool.settle process shared progress).1.tasks.get other = pool.tasks.get other := by
  cases progress with
  | running task => exact Dict.get_set_ne _ _ hne
  | finished result =>
    unfold Pool.settle
    simp [Dict.get_restrict, hne.symm]

theorem settle_shared (process : ℕ) (shared : σ) (progress : Progress τ ρ) :
    (pool.settle process shared progress).1.shared = shared := by
  cases progress <;> rfl

/-- The shared memory changes only by the step of a task. -/
theorem step_shared (turn : Turn η ω) :
    (program.step pool turn).1.shared = pool.shared ∨
      ∃ process choice task, turn = .advance process choice ∧ pool.tasks.get process = some task ∧
        (program.step pool turn).1.shared = (program.advance choice task pool.shared).1 := by
  cases turn with
  | start process request =>
    simp only [Program.step]
    split
    · exact .inl rfl
    · exact .inl (settle_shared _ _ _)
  | advance process choice =>
    simp only [Program.step]
    split
    · exact .inl rfl
    · rename_i task htask
      exact .inr ⟨process, choice, task, rfl, htask, settle_shared _ _ _⟩

/-- A task in the pool was there before, or was started, or is what a step of its process left. -/
theorem step_get {turn : Turn η ω} {process : ℕ} {t : τ}
    (h : (program.step pool turn).1.tasks.get process = some t) :
    pool.tasks.get process = some t ∧ turn.advances process = false ∨
      (∃ request, program.start request pool.shared = .running t) ∨
      ∃ choice u, turn = .advance process choice ∧ pool.tasks.get process = some u ∧
        (program.advance choice u pool.shared).2 = .running t := by
  have hsettled {shared : σ} {progress : Progress τ ρ}
      (h : (pool.settle process shared progress).1.tasks.get process = some t) :
      progress = .running t := by
    cases progress with
    | running u =>
      have hself : (pool.settle process shared (.running u : Progress τ ρ)).1.tasks.get process =
          some u := Dict.get_set_self _ _ _
      rw [hself] at h
      cases h
      rfl
    | finished r =>
      unfold Pool.settle at h
      simp [Dict.get_restrict] at h
  cases turn with
  | start p request =>
    simp only [Program.step] at h
    split at h
    · exact .inl ⟨h, rfl⟩
    · by_cases hp : p = process
      · subst hp
        exact .inr (.inl ⟨request, hsettled h⟩)
      · rw [settle_get_of_ne hp] at h
        exact .inl ⟨h, rfl⟩
  | advance p choice =>
    simp only [Program.step] at h
    split at h
    · rename_i hnone
      refine .inl ⟨h, decide_eq_false fun hp => ?_⟩
      rw [hp, h] at hnone
      cases hnone
    · rename_i u hu
      by_cases hp : p = process
      · subst hp
        exact .inr (.inr ⟨choice, u, rfl, hu, hsettled h⟩)
      · rw [settle_get_of_ne hp] at h
        exact .inl ⟨h, decide_eq_false hp⟩

/-! ## Noninterference -/

/-- What is asserted of a pool, in terms of a ghost value that only grows: of the shared memory, of the
    shared memory as each task knows it, of two tasks at once, and of the results. -/
structure Assertions (γ σ τ ρ : Type) where
  grows : γ → γ → Prop
  shared : γ → σ → Prop
  task : γ → σ → τ → Prop
  apart : τ → τ → Prop
  result : γ → ρ → Prop
  symm : ∀ t u, apart t u → apart u t
  refl : ∀ g, grows g g
  trans : ∀ g g' g'', grows g g' → grows g' g'' → grows g g''
  result_grows : ∀ g g' r, grows g g' → result g r → result g' r

namespace Assertions

variable {γ : Type} {A : Assertions γ σ τ ρ} {g : γ}

/-- The assertions hold of a pool. -/
structure Hold (A : Assertions γ σ τ ρ) (g : γ) (pool : Pool σ τ) : Prop where
  memory : A.shared g pool.shared
  task : ∀ p t, pool.tasks.get p = some t → A.task g pool.shared t
  apart : ∀ p q t u, p ≠ q → pool.tasks.get p = some t → pool.tasks.get q = some u → A.apart t u

/-- What is left to show of a step: the shared memory, the other tasks, and the task itself. -/
structure Kept (A : Assertions γ σ τ ρ) (pool : Pool σ τ) (g' : γ) (process : ℕ) (shared : σ)
    (progress : Progress τ ρ) : Prop where
  memory : A.shared g' shared
  others : ∀ q u, q ≠ process → pool.tasks.get q = some u → A.task g' shared u
  running : ∀ t, progress = .running t → A.task g' shared t ∧
    ∀ q u, q ≠ process → pool.tasks.get q = some u → A.apart t u
  finished : ∀ r, progress = .finished r → A.result g' r

/-- A task that goes on replaces itself, so the pairs of tasks to check are those with the new one. -/
theorem Hold.settle_running (h : A.Hold g pool) {g' : γ} {process : ℕ} {shared : σ} {t : τ}
    (hkept : A.Kept pool g' process shared (.running t : Progress τ ρ)) :
    A.Hold g' (pool.settle process shared (.running t : Progress τ ρ)).1 := by
  obtain ⟨htask, hapart⟩ := hkept.running t rfl
  have hother (q : ℕ) (hq : q ≠ process) :
      (pool.settle process shared (.running t : Progress τ ρ)).1.tasks.get q = pool.tasks.get q :=
    settle_get_of_ne hq.symm shared _
  have hself : (pool.settle process shared (.running t : Progress τ ρ)).1.tasks.get process =
      some t := Dict.get_set_self _ _ _
  refine ⟨hkept.memory, ?_, ?_⟩
  · intro p u hu
    by_cases hp : p = process
    · subst hp
      rw [hself] at hu
      cases hu
      exact htask
    · rw [hother p hp] at hu
      exact hkept.others p u hp hu
  · intro p q u v hpq hu hv
    by_cases hp : p = process
    · subst hp
      rw [hself] at hu
      cases hu
      rw [hother q hpq.symm] at hv
      exact hapart q v hpq.symm hv
    · rw [hother p hp] at hu
      by_cases hq : q = process
      · subst hq
        rw [hself] at hv
        cases hv
        exact A.symm t u (hapart p u hp hu)
      · rw [hother q hq] at hv
        exact h.apart p q u v hpq hu hv

/-- A task that is done leaves the pool, so only the tasks of the other processes are left. -/
theorem Hold.settle_finished (h : A.Hold g pool) {g' : γ} {process : ℕ} {shared : σ} {r : ρ}
    (hkept : A.Kept pool g' process shared (.finished r : Progress τ ρ)) :
    A.Hold g' (pool.settle process shared (.finished r : Progress τ ρ)).1 := by
  have hleft {p : ℕ} {u : τ}
      (hu : (pool.settle process shared (.finished r : Progress τ ρ)).1.tasks.get p = some u) :
      p ≠ process ∧ pool.tasks.get p = some u := by
    have hp : p ≠ process := by
      rintro rfl
      unfold Pool.settle at hu
      simp [Dict.get_restrict] at hu
    rw [settle_get_of_ne hp.symm] at hu
    exact ⟨hp, hu⟩
  refine ⟨hkept.memory, ?_, ?_⟩
  · intro p u hu
    obtain ⟨hp, hu⟩ := hleft hu
    exact hkept.others p u hp hu
  · intro p q u v hpq hu hv
    exact h.apart p q u v hpq (hleft hu).2 (hleft hv).2

theorem Hold.settle (h : A.Hold g pool) {g' : γ} {process : ℕ} {shared : σ}
    {progress : Progress τ ρ} (hkept : A.Kept pool g' process shared progress) :
    A.Hold g' (pool.settle process shared progress).1 ∧
      ∀ q r, (pool.settle process shared progress).2 = some (q, r) → A.result g' r := by
  cases progress with
  | running t => exact ⟨h.settle_running hkept, fun q r hr => by cases hr⟩
  | finished r =>
    refine ⟨h.settle_finished hkept, ?_⟩
    intro q r' hr
    cases hr
    exact hkept.finished r rfl

/-- Every step of the program, in a pool where its turn meets the condition, keeps what is asserted of
    the memory and what the other tasks know, and leaves its own task with what it has to know next. -/
structure Respected (A : Assertions γ σ τ ρ) (program : Program σ τ ρ η ω)
    (C : Pool σ τ → Turn η ω → Prop) : Prop where
  start : ∀ g pool process request, A.Hold g pool → pool.tasks.get process = none →
    A.Kept pool g process pool.shared (program.start request pool.shared)
  advance : ∀ g pool process choice t, A.Hold g pool → pool.tasks.get process = some t →
    C pool (.advance process choice) → ∃ g', A.grows g g' ∧
      A.Kept pool g' process (program.advance choice t pool.shared).1
        (program.advance choice t pool.shared).2

variable {C : Pool σ τ → Turn η ω → Prop}

theorem Respected.step (h : A.Respected program C) {turn : Turn η ω} (hmeets : C pool turn)
    (hpool : A.Hold g pool) :
    ∃ g', A.grows g g' ∧ A.Hold g' (program.step pool turn).1 ∧
      ∀ q r, (program.step pool turn).2 = some (q, r) → A.result g' r := by
  cases turn with
  | start process request =>
    cases hget : pool.tasks.get process with
    | some t =>
      simp only [Program.step, hget]
      exact ⟨g, A.refl g, hpool, fun q r hr => by cases hr⟩
    | none =>
      simp only [Program.step, hget]
      exact ⟨g, A.refl g, hpool.settle (h.start g pool process request hpool hget)⟩
  | advance process choice =>
    cases hget : pool.tasks.get process with
    | none =>
      simp only [Program.step, hget]
      exact ⟨g, A.refl g, hpool, fun q r hr => by cases hr⟩
    | some t =>
      obtain ⟨g', hgrows, hkept⟩ := h.advance g pool process choice t hpool hget hmeets
      simp only [Program.step, hget]
      exact ⟨g', hgrows, hpool.settle hkept⟩

/-- **Noninterference.**  If every step respects the assertions, they hold after every interleaving
whose turns meet the condition, and its results are as asserted. -/
theorem Respected.run (h : A.Respected program C) {turns : List (Turn η ω)}
    (hturns : Along program.step C pool turns) (hpool : A.Hold g pool) :
    ∃ g', A.grows g g' ∧ A.Hold g' (run program.step pool turns) ∧
      ∀ q r, some (q, r) ∈ outs program.step pool turns → A.result g' r := by
  induction turns generalizing g pool with
  | nil => exact ⟨g, A.refl g, hpool, fun q r hr => by cases hr⟩
  | cons turn turns ih =>
    obtain ⟨g', hgrows, hnext, hresult⟩ := h.step hturns.1 hpool
    obtain ⟨g'', hgrows', hlast, hresults⟩ := ih hturns.2 hnext
    refine ⟨g'', A.trans g g' g'' hgrows hgrows', hlast, fun q r hr => ?_⟩
    rcases List.mem_cons.mp hr with hr | hr
    · exact A.result_grows g' g'' r hgrows' (hresult q r hr.symm)
    · exact hresults q r hr

/-! ## The log of the results -/

variable {ι : Type}

/-- What the end of a task adds to the log. -/
def emitted (emit : ρ → List ι) : Option (ℕ × ρ) → List ι
  | none => []
  | some (_, r) => emit r

variable {L : Assertions (List ι) σ τ ρ} {emit : ρ → List ι} {log : List ι}

/-- Every step keeps what is asserted of the log, extended by what the step emits. -/
structure Logged (L : Assertions (List ι) σ τ ρ) (program : Program σ τ ρ η ω) (emit : ρ → List ι)
    (C : Pool σ τ → Turn η ω → Prop) : Prop where
  grows : ∀ log new, L.grows log (log ++ new)
  start : ∀ log pool process request, L.Hold log pool → pool.tasks.get process = none →
    C pool (.start process request) → L.Kept pool (log ++ emitted emit (pool.settle process pool.shared
      (program.start request pool.shared)).2) process pool.shared (program.start request pool.shared)
  advance : ∀ log pool process choice t, L.Hold log pool → pool.tasks.get process = some t →
    C pool (.advance process choice) →
    L.Kept pool (log ++ emitted emit (pool.settle process (program.advance choice t pool.shared).1
        (program.advance choice t pool.shared).2).2)
      process (program.advance choice t pool.shared).1 (program.advance choice t pool.shared).2

theorem Logged.step (h : L.Logged program emit C) {turn : Turn η ω} (hmeets : C pool turn)
    (hpool : L.Hold log pool) :
    L.Hold (log ++ emitted emit (program.step pool turn).2) (program.step pool turn).1 ∧
      ∀ q r, (program.step pool turn).2 = some (q, r) →
        L.result (log ++ emitted emit (program.step pool turn).2) r := by
  cases turn with
  | start process request =>
    cases hget : pool.tasks.get process with
    | some t =>
      simp only [Program.step, hget, emitted, List.append_nil]
      exact ⟨hpool, fun q r hr => by cases hr⟩
    | none =>
      simp only [Program.step, hget]
      exact hpool.settle (h.start log pool process request hpool hget hmeets)
  | advance process choice =>
    cases hget : pool.tasks.get process with
    | none =>
      simp only [Program.step, hget, emitted, List.append_nil]
      exact ⟨hpool, fun q r hr => by cases hr⟩
    | some t =>
      simp only [Program.step, hget]
      exact hpool.settle (h.advance log pool process choice t hpool hget hmeets)

/-- **The log.**  What is asserted of the log and the pool holds after every interleaving whose turns
meet the condition, for the log of what its results emit. -/
theorem Logged.run (h : L.Logged program emit C) {turns : List (Turn η ω)}
    (hturns : Along program.step C pool turns) (hpool : L.Hold log pool) :
    L.Hold (log ++ (outs program.step pool turns).flatMap (emitted emit))
        (run program.step pool turns) ∧
      ∀ q r, some (q, r) ∈ outs program.step pool turns →
        L.result (log ++ (outs program.step pool turns).flatMap (emitted emit)) r := by
  induction turns generalizing log pool with
  | nil =>
    rw [outs_nil, List.flatMap_nil, List.append_nil]
    exact ⟨hpool, fun q r hr => by cases hr⟩
  | cons turn turns ih =>
    obtain ⟨hnext, hresult⟩ := h.step hturns.1 hpool
    obtain ⟨hlast, hresults⟩ := ih hturns.2 hnext
    rw [outs_cons, List.flatMap_cons, ← List.append_assoc]
    refine ⟨hlast, fun q r hr => ?_⟩
    rcases List.mem_cons.mp hr with hr | hr
    · exact L.result_grows _ _ r (h.grows _ _) (hresult q r hr.symm)
    · exact hresults q r hr

end Assertions

/-! ## What is known of the turns so far -/

/-- What holds of a step's outcome: `T` if the task goes on, `R` if it is done. -/
def Progress.Holds (T : τ → Prop) (R : ρ → Prop) : Progress τ ρ → Prop
  | .running task => T task
  | .finished result => R result

/-- What holds of the shared memory, the tasks and the results, in terms of the turns so far: a longer
    run knows what a shorter one does, and every step leaves its task with what it has to know. -/
structure Recorded (program : Program σ τ ρ η ω) (pool₀ : Pool σ τ) (M : List (Turn η ω) → σ → Prop)
    (T : List (Turn η ω) → τ → Prop) (R : List (Turn η ω) → ρ → Prop) : Prop where
  memory_mono : ∀ turns turn shared, M turns shared → M (turns ++ [turn]) shared
  task_mono : ∀ turns turn t, T turns t → T (turns ++ [turn]) t
  result_mono : ∀ turns turn r, R turns r → R (turns ++ [turn]) r
  start : ∀ turns process request, M turns (run program.step pool₀ turns).shared →
    (program.start request (run program.step pool₀ turns).shared).Holds
      (T (turns ++ [.start process request])) (R (turns ++ [.start process request]))
  advance : ∀ turns process choice t, M turns (run program.step pool₀ turns).shared → T turns t →
    M (turns ++ [.advance process choice])
        (program.advance choice t (run program.step pool₀ turns).shared).1 ∧
      (program.advance choice t (run program.step pool₀ turns).shared).2.Holds
        (T (turns ++ [.advance process choice])) (R (turns ++ [.advance process choice]))

variable {pool₀ : Pool σ τ} {M : List (Turn η ω) → σ → Prop} {T : List (Turn η ω) → τ → Prop}
  {R : List (Turn η ω) → ρ → Prop}

/-- A settled pool holds its own task's progress and the other tasks. -/
theorem settle_holds {P : τ → Prop} {Q : ρ → Prop} (process : ℕ) (shared : σ) {progress : Progress τ ρ}
    (hprogress : progress.Holds P Q) (htasks : ∀ p t, pool.tasks.get p = some t → P t) :
    (∀ p t, (pool.settle process shared progress).1.tasks.get p = some t → P t) ∧
      ∀ q r, (pool.settle process shared progress).2 = some (q, r) → Q r := by
  cases progress with
  | running task =>
    refine ⟨fun p t ht => ?_, fun q r hr => by cases hr⟩
    have hset : (pool.tasks.set process task).get p = some t := ht
    rw [Dict.get_set] at hset
    split at hset
    · cases hset
      exact hprogress
    · exact htasks p t hset
  | finished result =>
    refine ⟨fun p t ht => ?_, fun q r hr => ?_⟩
    · have hget : (pool.tasks.restrict (· ≠ process)).get p = some t := ht
      rw [Dict.get_restrict] at hget
      split at hget
      · exact htasks p t hget
      · cases hget
    · cases hr
      exact hprogress

/-- **What is recorded holds** of the shared memory, the tasks and the results of every interleaving. -/
theorem Recorded.run (h : Recorded program pool₀ M T R) (hmemory : M [] pool₀.shared)
    (htasks : pool₀.tasks = []) (turns : List (Turn η ω)) :
    M turns (run program.step pool₀ turns).shared ∧
      (∀ p t, (Lib.run program.step pool₀ turns).tasks.get p = some t → T turns t) ∧
      ∀ q r, some (q, r) ∈ outs program.step pool₀ turns → R turns r := by
  induction turns using List.reverseRecOn with
  | nil =>
    refine ⟨hmemory, fun p t ht => ?_, fun q r hr => by cases hr⟩
    rw [run_nil, htasks] at ht
    cases ht
  | append_singleton turns turn ih =>
    obtain ⟨hM, hT, hR⟩ := ih
    have hM' := h.memory_mono turns turn _ hM
    have hT' : ∀ p t, (Lib.run program.step pool₀ turns).tasks.get p = some t →
        T (turns ++ [turn]) t := fun p t ht => h.task_mono turns turn t (hT p t ht)
    have hR' : ∀ q r, some (q, r) ∈ outs program.step pool₀ turns → R (turns ++ [turn]) r :=
      fun q r hr => h.result_mono turns turn r (hR q r hr)
    suffices hstep : M (turns ++ [turn]) (program.step (Lib.run program.step pool₀ turns) turn).1.shared ∧
        (∀ p t, (program.step (Lib.run program.step pool₀ turns) turn).1.tasks.get p = some t →
          T (turns ++ [turn]) t) ∧
        ∀ q r, (program.step (Lib.run program.step pool₀ turns) turn).2 = some (q, r) →
          R (turns ++ [turn]) r by
      obtain ⟨hmem, htask, hresult⟩ := hstep
      rw [run_concat, outs_concat]
      refine ⟨hmem, htask, fun q r hr => ?_⟩
      rcases List.mem_append.mp hr with hr | hr
      · exact hR' q r hr
      · exact hresult q r (List.mem_singleton.mp hr).symm
    have hidle : M (turns ++ [turn]) (Lib.run program.step pool₀ turns).shared ∧
        (∀ p t, (Lib.run program.step pool₀ turns).tasks.get p = some t → T (turns ++ [turn]) t) ∧
        ∀ q r, (none : Option (ℕ × ρ)) = some (q, r) → R (turns ++ [turn]) r :=
      ⟨hM', hT', fun q r hr => by cases hr⟩
    cases turn with
    | start process request =>
      simp only [Program.step]
      split
      · exact hidle
      · rw [settle_shared]
        exact ⟨hM', settle_holds process _ (h.start turns process request hM) hT'⟩
    | advance process choice =>
      simp only [Program.step]
      split
      · exact hidle
      · rename_i t ht
        obtain ⟨hmem, hprogress⟩ := h.advance turns process choice t hM (hT process t ht)
        rw [settle_shared]
        exact ⟨hmem, settle_holds process _ hprogress hT'⟩

/-! ## Termination -/

/-- A turn that is no step of the process leaves its task. -/
theorem step_get_of_not_advances {turn : Turn η ω} {process : ℕ} {t : τ}
    (ht : pool.tasks.get process = some t) (hother : turn.advances process = false) :
    (program.step pool turn).1.tasks.get process = some t := by
  cases turn with
  | start p request =>
    cases hget : pool.tasks.get p with
    | some u =>
      simp only [Program.step, hget]
      exact ht
    | none =>
      have hne : p ≠ process := by
        rintro rfl
        rw [ht] at hget
        cases hget
      simp only [Program.step, hget]
      rw [settle_get_of_ne hne, ht]
  | advance p choice =>
    have hne : p ≠ process := of_decide_eq_false hother
    cases hget : pool.tasks.get p with
    | none =>
      simp only [Program.step, hget]
      exact ht
    | some u =>
      simp only [Program.step, hget]
      rw [settle_get_of_ne hne, ht]

/-- **A task ends.**  If each step of a task decreases a measure or ends it, then a process with enough
turns ends its task, whatever the other processes do in between. -/
theorem finishes {measure : τ → ℕ} {Ends : τ → ρ → Prop}
    (hrunning : ∀ choice t σ' t', (program.advance choice t σ').2 = .running t' →
      measure t' < measure t ∧ ∀ r, Ends t' r → Ends t r)
    (hfinished : ∀ choice t σ' r, (program.advance choice t σ').2 = .finished r → Ends t r)
    (turns : List (Turn η ω)) {process : ℕ} {t : τ} (ht : pool.tasks.get process = some t)
    (hcount : measure t < turns.countP (Turn.advances process)) :
    ∃ r, some (process, r) ∈ outs program.step pool turns ∧ Ends t r := by
  induction turns generalizing pool t with
  | nil => cases hcount
  | cons turn turns ih =>
    rw [outs_cons]
    cases hown : turn.advances process with
    | false =>
      rw [List.countP_cons_of_neg (by simp [hown])] at hcount
      obtain ⟨r, hr, hends⟩ := ih (step_get_of_not_advances ht hown) hcount
      exact ⟨r, List.mem_cons_of_mem _ hr, hends⟩
    | true =>
      obtain ⟨choice, rfl⟩ : ∃ choice, turn = .advance process choice := by
        cases turn with
        | start p request => cases hown
        | advance p choice =>
          obtain rfl : p = process := of_decide_eq_true hown
          exact ⟨choice, rfl⟩
      have hstep : program.step pool (.advance process choice) =
          pool.settle process (program.advance choice t pool.shared).1
            (program.advance choice t pool.shared).2 := by
        simp only [Program.step, ht]
      rw [List.countP_cons_of_pos hown] at hcount
      cases hprogress : (program.advance choice t pool.shared).2 with
      | finished r =>
        rw [hprogress] at hstep
        refine ⟨r, ?_, hfinished choice t pool.shared r hprogress⟩
        rw [hstep]
        exact List.mem_cons_self
      | running t' =>
        rw [hprogress] at hstep
        obtain ⟨hless, hends⟩ := hrunning choice t pool.shared t' hprogress
        have hget : (program.step pool (.advance process choice)).1.tasks.get process = some t' := by
          rw [hstep]
          exact Dict.get_set_self _ _ _
        obtain ⟨r, hr, hr'⟩ := ih hget (by omega)
        exact ⟨r, List.mem_cons_of_mem _ hr, hends r hr'⟩

end ApexScan.Lib
