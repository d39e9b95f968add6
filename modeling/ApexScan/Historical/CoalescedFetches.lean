import ApexScan.Historical.Coordinator

/-!
# The loads of the coordinator, in any interleaving (`historical/coordinator.py`)

A load is in the in-flight map from its creation until its done-callback has run, so a key has one
load at a time, and a callback finds its own load in the map.

* `Moved` — everything a step can do to the loads, the map and the pending callbacks.
* `Tracked` — the map holds exactly the loads that are open or whose callback is pending.
* `answers` — what the waiters get along a run.
* `Alike` — two coordinators that differ in the attachment of one waiter only.

Main result: `coalesced_fetches`.  `completed_load_still_inflight` is the moment between the end of a
load and its callback.
-/

set_option autoImplicit false

namespace ApexScan

open Lib

/-- The outcome of a load that has ended. -/
def TaskState.outcome : TaskState → Option (Except FetchError (List Candle))
  | .done outcome => some outcome
  | _ => none

/-- The waiter an operation is about. -/
def CoordinatorOp.waiter : CoordinatorOp → Option ℕ
  | .fetch waiter _ | .resume waiter | .cancel waiter => some waiter
  | _ => none

def CoordinatorOp.cancels (w : ℕ) : CoordinatorOp → Bool
  | .cancel waiter => waiter = w
  | _ => false

/-- What a waiter gets, and the load it awaited. -/
structure FetchAnswer where
  waiter : ℕ
  task : ℕ
  outcome : Except FetchError (List Candle)

namespace Coordinator

/-- The answer that a step gives to a waiter. -/
def answer (c : Coordinator) : CoordinatorOp → Option FetchAnswer
  | .resume waiter =>
    match c.waiters.get waiter, (c.step (.resume waiter)).2 with
    | some task, .returned outcome => some ⟨waiter, task, outcome⟩
    | _, _ => none
  | _ => none

/-- The answers along a run, in order. -/
def answers : Coordinator → List CoordinatorOp → List FetchAnswer
  | _, [] => []
  | c, op :: ops => (c.answer op).toList ++ answers (c.step op).1 ops

/-- `__init__`. -/
def created (maxConcurrency : ℕ) (h : 0 < maxConcurrency) : Coordinator where
  maxConcurrency := maxConcurrency
  maxConcurrency_pos := h

variable {c : Coordinator}

/-! ## What a step can do -/

/-- Everything a step can do to the loads, the in-flight map and the pending callbacks. -/
inductive Moved (c c' : Coordinator) : Prop where
  | same (htasks : c'.tasks = c.tasks) (hinflight : c'.inflight = c.inflight)
      (hcallbacks : c'.callbacks = c.callbacks)
  | began (plan : HistoricalFetchPlan) (habsent : c.inflight.get plan.key = none)
      (htasks : c'.tasks = c.tasks ++ [⟨plan, .queued⟩])
      (hinflight : c'.inflight = c.inflight.set plan.key c.tasks.length)
      (hcallbacks : c'.callbacks = c.callbacks)
  | entered (task : ℕ) (plan : HistoricalFetchPlan) (htask : c.tasks[task]? = some ⟨plan, .queued⟩)
      (hfree : c.running < c.maxConcurrency)
      (htasks : c'.tasks = c.tasks.set task ⟨plan, .loading⟩) (hinflight : c'.inflight = c.inflight)
      (hcallbacks : c'.callbacks = c.callbacks)
  | ended (task : ℕ) (load : FetchTask) (outcome : Except FetchError (List Candle))
      (htask : c.tasks[task]? = some load) (hopen : load.state.outcome = none)
      (htasks : c'.tasks = c.tasks.set task ⟨load.plan, .done outcome⟩)
      (hinflight : c'.inflight = c.inflight) (hcallbacks : c'.callbacks = c.callbacks ++ [task])
  | discarded (task : ℕ) (load : FetchTask) (hpending : task ∈ c.callbacks)
      (htask : c.tasks[task]? = some load) (htasks : c'.tasks = c.tasks)
      (hinflight : c'.inflight = c.inflight.restrict (· ≠ load.plan.key))
      (hcallbacks : c'.callbacks = c.callbacks.erase task)

/-- The end of a load, whatever its result is. -/
theorem finishLoad_eq (c : Coordinator) (task : ℕ) (plan : HistoricalFetchPlan)
    (result : Option (List Candle)) :
    ∃ cache outcome, (c.finishLoad task plan result).1 = { c with cache }.complete task plan outcome := by
  unfold finishLoad
  split
  · exact ⟨c.cache, _, rfl⟩
  · split
    · exact ⟨c.cache, _, rfl⟩
    · exact ⟨_, _, rfl⟩

theorem moved_fetch (c : Coordinator) (waiter : ℕ) (plan : HistoricalFetchPlan) :
    Moved c (c.fetch waiter plan).1 := by
  unfold fetch
  split
  · exact .same rfl rfl rfl
  · split
    · exact .same rfl rfl rfl
    · rename_i habsent
      exact .began plan habsent rfl rfl rfl

theorem step_moved (c : Coordinator) (op : CoordinatorOp) : Moved c (c.step op).1 := by
  cases op with
  | fetch waiter plan => exact moved_fetch c waiter plan
  | start task =>
    simp only [step]
    split
    · rename_i plan htask
      split
      · rename_i hfree
        split
        · exact .entered task plan htask hfree rfl rfl rfl
        · exact .ended task _ (.error .invalidRequest) htask rfl rfl rfl rfl
      · exact .same rfl rfl rfl
    · exact .same rfl rfl rfl
  | finish task result =>
    simp only [step]
    split
    · rename_i plan htask
      obtain ⟨cache, outcome, heq⟩ := finishLoad_eq c task plan result
      rw [heq]
      exact .ended task _ outcome htask rfl rfl rfl rfl
    · exact .same rfl rfl rfl
  | discard task =>
    simp only [step]
    split
    · rename_i hpending
      split
      · rename_i load htask
        exact .discarded task load hpending htask rfl rfl rfl
      · exact .same rfl rfl rfl
    · exact .same rfl rfl rfl
  | resume waiter =>
    simp only [step]
    split <;> exact .same rfl rfl rfl
  | cancel waiter => exact .same rfl rfl rfl
  | retain active => exact .same rfl rfl rfl

theorem step_maxConcurrency (c : Coordinator) (op : CoordinatorOp) :
    (c.step op).1.maxConcurrency = c.maxConcurrency := by
  cases op with
  | fetch waiter plan =>
    simp only [step, fetch]
    split
    · rfl
    · split <;> rfl
  | start task =>
    simp only [step]
    split
    · split
      · split <;> rfl
      · rfl
    · rfl
  | finish task result =>
    simp only [step]
    split
    · rename_i plan _
      obtain ⟨cache, outcome, heq⟩ := finishLoad_eq c task plan result
      rw [heq]
      rfl
    · rfl
  | discard task =>
    simp only [step]
    split
    · split <;> rfl
    · rfl
  | resume waiter =>
    simp only [step]
    split <;> rfl
  | cancel waiter => rfl
  | retain active => rfl

/-! ## The in-flight map -/

/-- The load is open, or its callback has not run. -/
def Held (c : Coordinator) (task : ℕ) (load : FetchTask) : Prop :=
  c.tasks[task]? = some load ∧ (load.state.outcome = none ∨ task ∈ c.callbacks)

/-- The in-flight map holds exactly these loads, under their keys. -/
structure Tracked (c : Coordinator) : Prop where
  inflight : ∀ k t, c.inflight.get k = some t ↔ ∃ load, Held c t load ∧ load.plan.key = k
  callbacks_nodup : c.callbacks.Nodup
  callbacks_done : ∀ t ∈ c.callbacks, ∃ load, c.tasks[t]? = some load ∧ load.state.outcome ≠ none

theorem tracked_created (n : ℕ) (h : 0 < n) : Tracked (created n h) := by
  refine ⟨?_, List.nodup_nil, ?_⟩
  · intro k t
    constructor
    · intro hk
      cases hk
    · rintro ⟨load, ⟨hload, -⟩, -⟩
      cases hload
  · intro t ht
    cases ht

/-- The loads after one of them is replaced. -/
theorem getElem?_set_iff {tasks : List FetchTask} {task t : ℕ} {old new load : FetchTask}
    (htask : tasks[task]? = some old) :
    (tasks.set task new)[t]? = some load ↔
      t = task ∧ load = new ∨ t ≠ task ∧ tasks[t]? = some load := by
  obtain ⟨hlt, -⟩ := List.getElem?_eq_some_iff.mp htask
  by_cases ht : t = task
  · subst ht
    simp [hlt, eq_comm]
  · rw [List.getElem?_set_ne (Ne.symm ht)]
    simp [ht]

/-- A step that changes the state of one load, and holds the loads it held before, keeps the map
    exact. -/
theorem held_set_iff {c' : Coordinator} {task : ℕ} {old new : FetchTask}
    (k : HistoricalRequestKey) (t : ℕ)
    (htask : c.tasks[task]? = some old) (hplan : new.plan = old.plan)
    (htasks : c'.tasks = c.tasks.set task new)
    (hothers : t ≠ task → (t ∈ c'.callbacks ↔ t ∈ c.callbacks))
    (hold : old.state.outcome = none ∨ task ∈ c.callbacks)
    (hnew : new.state.outcome = none ∨ task ∈ c'.callbacks) :
    (∃ load, Held c' t load ∧ load.plan.key = k) ↔ ∃ load, Held c t load ∧ load.plan.key = k := by
  unfold Held
  simp only [htasks, getElem?_set_iff htask]
  by_cases ht : t = task
  · subst ht
    constructor
    · rintro ⟨load, ⟨h, -⟩, hk⟩
      rcases h with ⟨-, rfl⟩ | ⟨h, -⟩
      · exact ⟨old, ⟨htask, hold⟩, hplan ▸ hk⟩
      · exact absurd rfl h
    · rintro ⟨load, ⟨h, -⟩, hk⟩
      rw [htask, Option.some.injEq] at h
      subst h
      exact ⟨new, ⟨Or.inl ⟨rfl, rfl⟩, hnew⟩, hplan.symm ▸ hk⟩
  · simp [ht, hothers ht]

/-- A new load takes a key that holds none. -/
theorem held_append_iff {c' : Coordinator} {plan : HistoricalFetchPlan}
    (htasks : c'.tasks = c.tasks ++ [⟨plan, .queued⟩]) (hcallbacks : c'.callbacks = c.callbacks)
    (t : ℕ) (load : FetchTask) :
    Held c' t load ↔ Held c t load ∨ t = c.tasks.length ∧ load = ⟨plan, .queued⟩ := by
  unfold Held
  rw [htasks, hcallbacks, List.getElem?_append]
  by_cases ht : t < c.tasks.length
  · simp [ht, Nat.ne_of_lt ht]
  · have hout : c.tasks[t]? = none := List.getElem?_eq_none (by omega)
    rw [if_neg ht, List.getElem?_singleton, hout]
    constructor
    · rintro ⟨hload, -⟩
      split at hload
      · cases hload
        exact Or.inr ⟨by omega, rfl⟩
      · cases hload
    · rintro (⟨hload, -⟩ | ⟨rfl, rfl⟩)
      · cases hload
      · simp [TaskState.outcome]

theorem Tracked.began {c' : Coordinator} (h : Tracked c) {plan : HistoricalFetchPlan}
    (habsent : c.inflight.get plan.key = none) (htasks : c'.tasks = c.tasks ++ [⟨plan, .queued⟩])
    (hinflight : c'.inflight = c.inflight.set plan.key c.tasks.length)
    (hcallbacks : c'.callbacks = c.callbacks) : Tracked c' := by
  have hheld := held_append_iff htasks hcallbacks
  constructor
  · intro k t
    rw [hinflight, Dict.get_set]
    split
    · rename_i hk
      subst hk
      constructor
      · intro ht
        cases ht
        exact ⟨_, (hheld _ _).mpr (Or.inr ⟨rfl, rfl⟩), rfl⟩
      · rintro ⟨load, hload, hk⟩
        rcases (hheld t load).mp hload with hold | ⟨rfl, -⟩
        · have hget := (h.inflight plan.key t).mpr ⟨load, hold, hk⟩
          rw [habsent] at hget
          cases hget
        · rfl
    · rename_i hk
      rw [h.inflight k t]
      constructor
      · rintro ⟨load, hload, hkey⟩
        exact ⟨load, (hheld t load).mpr (Or.inl hload), hkey⟩
      · rintro ⟨load, hload, hkey⟩
        rcases (hheld t load).mp hload with hold | ⟨-, rfl⟩
        · exact ⟨load, hold, hkey⟩
        · exact absurd hkey hk
  · rw [hcallbacks]
    exact h.callbacks_nodup
  · intro t ht
    rw [hcallbacks] at ht
    obtain ⟨load, hload, hdone⟩ := h.callbacks_done t ht
    have hlt : t < c.tasks.length := (List.getElem?_eq_some_iff.mp hload).1
    refine ⟨load, ?_, hdone⟩
    rw [htasks, List.getElem?_append_left hlt]
    exact hload

/-- An open load has no pending callback. -/
theorem Tracked.notMem_callbacks (h : Tracked c) {task : ℕ} {load : FetchTask}
    (htask : c.tasks[task]? = some load) (hopen : load.state.outcome = none) : task ∉ c.callbacks := by
  intro hmem
  obtain ⟨load', hload', hdone⟩ := h.callbacks_done task hmem
  rw [htask, Option.some.injEq] at hload'
  exact hdone (hload' ▸ hopen)

theorem Tracked.entered {c' : Coordinator} (h : Tracked c) {task : ℕ} {plan : HistoricalFetchPlan}
    (htask : c.tasks[task]? = some ⟨plan, .queued⟩)
    (htasks : c'.tasks = c.tasks.set task ⟨plan, .loading⟩) (hinflight : c'.inflight = c.inflight)
    (hcallbacks : c'.callbacks = c.callbacks) : Tracked c' := by
  constructor
  · intro k t
    rw [hinflight, h.inflight k t]
    refine (held_set_iff k t htask ?_ htasks ?_ (Or.inl rfl) (Or.inl ?_)).symm
    · rfl
    · intro _
      rw [hcallbacks]
    · rfl
  · rw [hcallbacks]
    exact h.callbacks_nodup
  · intro t ht
    rw [hcallbacks] at ht
    obtain ⟨load, hload, hdone⟩ := h.callbacks_done t ht
    have hne : t ≠ task := by
      rintro rfl
      exact h.notMem_callbacks htask rfl ht
    rw [htasks]
    exact ⟨load, (getElem?_set_iff htask).mpr (Or.inr ⟨hne, hload⟩), hdone⟩

theorem Tracked.ended {c' : Coordinator} (h : Tracked c) {task : ℕ} {load : FetchTask}
    {outcome : Except FetchError (List Candle)} (htask : c.tasks[task]? = some load)
    (hopen : load.state.outcome = none)
    (htasks : c'.tasks = c.tasks.set task ⟨load.plan, .done outcome⟩)
    (hinflight : c'.inflight = c.inflight) (hcallbacks : c'.callbacks = c.callbacks ++ [task]) :
    Tracked c' := by
  have hfresh := h.notMem_callbacks htask hopen
  constructor
  · intro k t
    rw [hinflight, h.inflight k t]
    refine (held_set_iff k t htask ?_ htasks ?_ (Or.inl hopen) (Or.inr ?_)).symm
    · rfl
    · intro ht
      simp [hcallbacks, ht]
    · simp [hcallbacks]
  · rw [hcallbacks, List.nodup_append]
    refine ⟨h.callbacks_nodup, List.nodup_singleton task, ?_⟩
    rintro t ht _ hmem rfl
    exact hfresh (List.mem_singleton.mp hmem ▸ ht)
  · intro t ht
    rw [htasks]
    by_cases heq : t = task
    · exact ⟨_, (getElem?_set_iff htask).mpr (Or.inl ⟨heq, rfl⟩), by simp [TaskState.outcome]⟩
    · have hmem : t ∈ c.callbacks := by
        rw [hcallbacks, List.mem_append, List.mem_singleton] at ht
        exact ht.resolve_right heq
      obtain ⟨load', hload', hdone⟩ := h.callbacks_done t hmem
      exact ⟨load', (getElem?_set_iff htask).mpr (Or.inr ⟨heq, hload'⟩), hdone⟩

theorem Tracked.discarded {c' : Coordinator} (h : Tracked c) {task : ℕ} {load : FetchTask}
    (hpending : task ∈ c.callbacks) (htask : c.tasks[task]? = some load) (htasks : c'.tasks = c.tasks)
    (hinflight : c'.inflight = c.inflight.restrict (· ≠ load.plan.key))
    (hcallbacks : c'.callbacks = c.callbacks.erase task) : Tracked c' := by
  have hown : c.inflight.get load.plan.key = some task :=
    (h.inflight _ _).mpr ⟨load, ⟨htask, Or.inr hpending⟩, rfl⟩
  have hmem : ∀ t, t ∈ c'.callbacks ↔ t ≠ task ∧ t ∈ c.callbacks := by
    intro t
    rw [hcallbacks, h.callbacks_nodup.mem_erase_iff]
  constructor
  · intro k t
    unfold Held
    rw [hinflight, Dict.get_restrict, htasks]
    simp only [hmem]
    by_cases hk : k = load.plan.key
    · subst hk
      rw [if_neg (by simp)]
      constructor
      · intro hget
        cases hget
      · rintro ⟨load', ⟨hload', hheld⟩, hkey⟩
        have hget : c.inflight.get load.plan.key = some t :=
          (h.inflight _ _).mpr ⟨load', ⟨hload', hheld.imp_right And.right⟩, hkey⟩
        rw [hown, Option.some.injEq] at hget
        subst hget
        -- the callback belongs to a load that has ended, and it is not pending any more
        rcases hheld with hopen | ⟨hne, -⟩
        · exact absurd hpending (h.notMem_callbacks hload' hopen)
        · exact absurd rfl hne
    · rw [if_pos (by simpa using hk), h.inflight k t]
      constructor
      · rintro ⟨load', ⟨hload', hheld⟩, hkey⟩
        refine ⟨load', ⟨hload', hheld.imp_right fun hin => ⟨?_, hin⟩⟩, hkey⟩
        rintro rfl
        rw [htask, Option.some.injEq] at hload'
        exact hk (hload' ▸ hkey.symm)
      · rintro ⟨load', ⟨hload', hheld⟩, hkey⟩
        exact ⟨load', ⟨hload', hheld.imp_right And.right⟩, hkey⟩
  · rw [hcallbacks]
    exact h.callbacks_nodup.erase task
  · intro t ht
    rw [htasks]
    exact h.callbacks_done t ((hmem t).mp ht).2

theorem Tracked.step (h : Tracked c) (op : CoordinatorOp) : Tracked (c.step op).1 := by
  cases step_moved c op with
  | same htasks hinflight hcallbacks =>
    refine ⟨fun k t => ?_, ?_, ?_⟩
    · unfold Held
      rw [htasks, hinflight, hcallbacks]
      exact h.inflight k t
    · rw [hcallbacks]
      exact h.callbacks_nodup
    · rw [htasks, hcallbacks]
      exact h.callbacks_done
  | began plan habsent htasks hinflight hcallbacks => exact h.began habsent htasks hinflight hcallbacks
  | entered task plan htask hfree htasks hinflight hcallbacks =>
    exact h.entered htask htasks hinflight hcallbacks
  | ended task load outcome htask hopen htasks hinflight hcallbacks =>
    exact h.ended htask hopen htasks hinflight hcallbacks
  | discarded task load hpending htask htasks hinflight hcallbacks =>
    exact h.discarded hpending htask htasks hinflight hcallbacks

/-- A key has one held load. -/
theorem Tracked.held_unique (h : Tracked c) {t u : ℕ} {load load' : FetchTask} (ht : Held c t load)
    (hu : Held c u load') (hkey : load.plan.key = load'.plan.key) : t = u := by
  have hget := (h.inflight load.plan.key t).mpr ⟨load, ht, rfl⟩
  have hget' := (h.inflight load.plan.key u).mpr ⟨load', hu, hkey.symm⟩
  rw [hget, Option.some.injEq] at hget'
  exact hget'

/-- The callback of a load removes no other load from the map. -/
theorem Tracked.discard_keeps (h : Tracked c) {k : HistoricalRequestKey} {task t : ℕ}
    (hk : c.inflight.get k = some t) (hne : t ≠ task) :
    (c.step (.discard task)).1.inflight.get k = some t := by
  simp only [Coordinator.step]
  split
  · rename_i hpending
    split
    · rename_i load htask
      have hown := (h.inflight load.plan.key task).mpr ⟨load, ⟨htask, Or.inr hpending⟩, rfl⟩
      have hkey : k ≠ load.plan.key := by
        rintro rfl
        rw [hk, Option.some.injEq] at hown
        exact hne hown
      rw [Dict.get_restrict, if_pos (by simpa using hkey)]
      exact hk
    · exact hk
  · exact hk

/-- With no open load and no pending callback the map is empty. -/
theorem Tracked.inflight_eq_nil (h : Tracked c)
    (hdone : ∀ load ∈ c.tasks, load.state.outcome ≠ none) (hcallbacks : c.callbacks = []) :
    c.inflight = [] := by
  refine List.eq_nil_iff_forall_not_mem.mpr ?_
  intro kv hkv
  have hmem : kv.1 ∈ c.inflight.map (·.1) := List.mem_map_of_mem hkv
  obtain ⟨t, ht⟩ := Option.isSome_iff_exists.mp ((Dict.mem_keys_iff _ _).mp hmem)
  obtain ⟨load, ⟨hload, hheld⟩, -⟩ := (h.inflight _ _).mp ht
  rcases hheld with hopen | hpending
  · exact hdone load (List.mem_of_getElem? hload) hopen
  · rw [hcallbacks] at hpending
    cases hpending

/-- A pending callback is of a load in the map. -/
theorem Tracked.callbacks_eq_nil (h : Tracked c) (hinflight : c.inflight = []) : c.callbacks = [] := by
  refine List.eq_nil_iff_forall_not_mem.mpr ?_
  intro t ht
  obtain ⟨load, hload, -⟩ := h.callbacks_done t ht
  have hget := (h.inflight load.plan.key t).mpr ⟨load, ⟨hload, Or.inr ht⟩, rfl⟩
  rw [hinflight] at hget
  cases hget

/-- The pending callbacks, run in order, leave none and keep the loads. -/
theorem Tracked.run_discards (h : Tracked c) :
    (run Coordinator.step c (c.callbacks.map .discard)).callbacks = [] ∧
      (run Coordinator.step c (c.callbacks.map .discard)).tasks = c.tasks := by
  generalize hpending : c.callbacks = pending
  induction pending generalizing c with
  | nil => exact ⟨hpending, rfl⟩
  | cons t pending ih =>
    have ht : t ∈ c.callbacks := hpending ▸ List.mem_cons_self
    obtain ⟨load, hload, -⟩ := h.callbacks_done t ht
    have hstep : (c.step (.discard t)).1.callbacks = pending ∧
        (c.step (.discard t)).1.tasks = c.tasks := by
      simp [Coordinator.step, hload, hpending]
    obtain ⟨hnone, htasks⟩ := ih (h.step (.discard t)) hstep.1
    rw [List.map_cons, run_cons]
    exact ⟨hnone, htasks.trans hstep.2⟩

/-! ## The bound -/

theorem running_entered {task : ℕ} {old : FetchTask} (htask : c.tasks[task]? = some old)
    {plan : HistoricalFetchPlan} {c' : Coordinator}
    (htasks : c'.tasks = c.tasks.set task ⟨plan, .loading⟩) : c'.running ≤ c.running + 1 := by
  obtain ⟨hlt, -⟩ := List.getElem?_eq_some_iff.mp htask
  unfold running
  rw [htasks, List.countP_set hlt]
  exact Nat.add_le_add_right (Nat.sub_le _ _) 1

theorem running_done {task : ℕ} {load : FetchTask} {outcome : Except FetchError (List Candle)}
    (htask : c.tasks[task]? = some load) {c' : Coordinator}
    (htasks : c'.tasks = c.tasks.set task ⟨load.plan, .done outcome⟩) : c'.running ≤ c.running := by
  obtain ⟨hlt, -⟩ := List.getElem?_eq_some_iff.mp htask
  unfold running
  rw [htasks, List.countP_set hlt]
  simp

theorem running_step_le (hle : c.running ≤ c.maxConcurrency) (op : CoordinatorOp) :
    (c.step op).1.running ≤ (c.step op).1.maxConcurrency := by
  rw [step_maxConcurrency]
  cases step_moved c op with
  | same htasks _ _ =>
    unfold running
    rw [htasks]
    exact hle
  | began plan _ htasks _ _ =>
    unfold running
    rw [htasks, List.countP_append]
    exact hle
  | entered task plan htask hfree htasks _ _ =>
    have hle' := running_entered htask htasks
    omega
  | ended task load outcome htask _ htasks _ _ => exact (running_done htask htasks).trans hle
  | discarded task load _ _ htasks _ _ =>
    unfold running
    rw [htasks]
    exact hle

/-! ## Outcomes -/

/-- A load that has ended keeps its outcome. -/
theorem step_keeps_outcome {t : ℕ} {load : FetchTask} {outcome : Except FetchError (List Candle)}
    (hload : c.tasks[t]? = some load) (hdone : load.state.outcome = some outcome)
    (op : CoordinatorOp) : (c.step op).1.tasks[t]? = some load := by
  have hset : ∀ {task : ℕ} {old new : FetchTask}, c.tasks[task]? = some old →
      old.state.outcome = none → (c.tasks.set task new)[t]? = some load := by
    intro task old new htask hopen
    refine (getElem?_set_iff htask).mpr (Or.inr ⟨?_, hload⟩)
    rintro rfl
    rw [hload, Option.some.injEq] at htask
    rw [htask, hopen] at hdone
    cases hdone
  cases step_moved c op with
  | same htasks _ _ => rw [htasks, hload]
  | began plan _ htasks _ _ =>
    rw [htasks, List.getElem?_append_left (List.getElem?_eq_some_iff.mp hload).1]
    exact hload
  | entered task plan htask _ htasks _ _ =>
    rw [htasks]
    exact hset htask rfl
  | ended task old _ htask hopen htasks _ _ =>
    rw [htasks]
    exact hset htask hopen
  | discarded task _ _ _ htasks _ _ => rw [htasks, hload]

theorem run_keeps_outcome {t : ℕ} {load : FetchTask} {outcome : Except FetchError (List Candle)}
    (hload : c.tasks[t]? = some load) (hdone : load.state.outcome = some outcome)
    (ops : List CoordinatorOp) : (run step c ops).tasks[t]? = some load :=
  run_invariant (I := fun c : Coordinator => c.tasks[t]? = some load)
    (fun _ op hload => step_keeps_outcome hload hdone op) ops hload

/-- The task of an `Option` chain that resumes is the one the waiter is attached to. -/
theorem answer_spec {op : CoordinatorOp} {a : FetchAnswer} (h : c.answer op = some a) :
    op = .resume a.waiter ∧ c.waiters.get a.waiter = some a.task ∧
      ∃ load, c.tasks[a.task]? = some load ∧ load.state.outcome = some a.outcome := by
  cases op with
  | resume waiter =>
    simp only [answer, step] at h
    cases hw : c.waiters.get waiter with
    | none => simp [hw] at h
    | some task =>
      rw [hw, Option.bind_some] at h
      split at h
      · rename_i hfirst hsecond
        cases h
        split at hsecond
        · rename_i plan outcome hload
          cases hsecond
          cases hfirst
          exact ⟨rfl, hw, ⟨_, hload, rfl⟩⟩
        · cases hsecond
      · cases h
  | _ => cases h

/-- Every answer of a run is the outcome of the load that was awaited. -/
theorem answers_outcome (ops : List CoordinatorOp) {a : FetchAnswer} (h : a ∈ answers c ops) :
    ∃ load, (run step c ops).tasks[a.task]? = some load ∧ load.state.outcome = some a.outcome := by
  induction ops generalizing c with
  | nil => cases h
  | cons op ops ih =>
    rw [answers, List.mem_append] at h
    rcases h with h | h
    · obtain ⟨-, -, load, hload, hdone⟩ := answer_spec (Option.mem_toList.mp h)
      exact ⟨load, run_keeps_outcome hload hdone (op :: ops), hdone⟩
    · exact ih h

/-- A waiter stays attached until it is cancelled, resumes, or its name is used again. -/
theorem step_waiters_get {op : CoordinatorOp} {w : ℕ} (h : op.waiter ≠ some w) :
    (c.step op).1.waiters.get w = c.waiters.get w := by
  cases op with
  | fetch waiter plan =>
    have hne : waiter ≠ w := fun heq => h (congrArg some heq)
    simp only [step, fetch]
    split
    · rfl
    · split <;> exact Dict.get_set_ne _ _ hne
  | start task =>
    simp only [step]
    split
    · split
      · split <;> rfl
      · rfl
    · rfl
  | finish task result =>
    simp only [step]
    split
    · rename_i plan _
      obtain ⟨cache, outcome, heq⟩ := finishLoad_eq c task plan result
      rw [heq]
      rfl
    · rfl
  | discard task =>
    simp only [step]
    split
    · split <;> rfl
    · rfl
  | resume waiter =>
    have hne : w ≠ waiter := fun heq => h (congrArg some heq.symm)
    simp only [step]
    split
    · rw [Dict.get_restrict, if_pos (by simpa using hne)]
    · rfl
  | cancel waiter =>
    have hne : w ≠ waiter := fun heq => h (congrArg some heq.symm)
    simp only [step]
    rw [Dict.get_restrict, if_pos (by simpa using hne)]
  | retain active => rfl

theorem run_waiters_get {ops : List CoordinatorOp} {w : ℕ} (h : ∀ op ∈ ops, op.waiter ≠ some w) :
    (run step c ops).waiters.get w = c.waiters.get w := by
  induction ops generalizing c with
  | nil => rfl
  | cons op ops ih =>
    rw [run_cons, ih fun op' hop' => h op' (List.mem_cons_of_mem _ hop')]
    exact step_waiters_get (h op List.mem_cons_self)

/-- A waiter that resumes gets the outcome of the load it is attached to. -/
theorem answer_resume {w t : ℕ} {load : FetchTask} {outcome : Except FetchError (List Candle)}
    (hw : c.waiters.get w = some t) (hload : c.tasks[t]? = some load)
    (hdone : load.state.outcome = some outcome) : c.answer (.resume w) = some ⟨w, t, outcome⟩ := by
  have hstate : load = ⟨load.plan, .done outcome⟩ := by
    obtain ⟨plan, state⟩ := load
    cases state with
    | done o =>
      cases hdone
      rfl
    | queued => cases hdone
    | loading => cases hdone
  rw [hstate] at hload
  simp [answer, step, hw, hload]

/-- A waiter that resumes changes the attachments only. -/
theorem resume_attachments (c : Coordinator) (waiter : ℕ) :
    ∃ ws, (c.step (.resume waiter)).1 = { c with waiters := ws } := by
  simp only [Coordinator.step]
  split
  · exact ⟨_, rfl⟩
  · exact ⟨c.waiters, rfl⟩

/-! ## Cancellations -/

/-- The coordinators differ in the attachments only. -/
structure SameLoads (c c' : Coordinator) : Prop where
  maxConcurrency : c'.maxConcurrency = c.maxConcurrency
  cache : c'.cache = c.cache
  tasks : c'.tasks = c.tasks
  inflight : c'.inflight = c.inflight
  callbacks : c'.callbacks = c.callbacks

/-- The coordinators differ in the attachment of waiter `w` only. -/
structure Alike (w : ℕ) (c c' : Coordinator) : Prop extends SameLoads c c' where
  waiters : ∀ v, v ≠ w → c'.waiters.get v = c.waiters.get v

theorem SameLoads.finishLoad {c' : Coordinator} (h : SameLoads c c') (task : ℕ)
    (plan : HistoricalFetchPlan) (result : Option (List Candle)) :
    SameLoads (c.finishLoad task plan result).1 (c'.finishLoad task plan result).1 := by
  simp only [Coordinator.finishLoad, complete, h.cache, h.tasks, h.callbacks]
  split
  · exact ⟨h.maxConcurrency, rfl, rfl, h.inflight, rfl⟩
  · split
    · exact ⟨h.maxConcurrency, rfl, rfl, h.inflight, rfl⟩
    · exact ⟨h.maxConcurrency, rfl, rfl, h.inflight, rfl⟩

/-- What a step does to anything but the attachments does not depend on them. -/
theorem SameLoads.step {c' : Coordinator} (h : SameLoads c c') (op : CoordinatorOp) :
    SameLoads (c.step op).1 (c'.step op).1 := by
  cases op with
  | fetch waiter plan =>
    simp only [Coordinator.step, fetch, h.cache, h.inflight, h.tasks]
    split
    · exact h
    · split
      · exact ⟨h.maxConcurrency, rfl, rfl, rfl, h.callbacks⟩
      · exact ⟨h.maxConcurrency, rfl, rfl, rfl, h.callbacks⟩
  | start task =>
    have hrunning : c'.running = c.running := by
      unfold running
      rw [h.tasks]
    simp only [Coordinator.step, complete, h.tasks, hrunning, h.maxConcurrency, h.callbacks]
    split
    · by_cases hfree : c.running < c.maxConcurrency
      · rw [if_pos hfree, if_pos hfree]
        split
        · exact ⟨rfl, h.cache, rfl, h.inflight, rfl⟩
        · exact ⟨rfl, h.cache, rfl, h.inflight, rfl⟩
      · rw [if_neg hfree, if_neg hfree]
        exact h
    · exact h
  | finish task result =>
    simp only [Coordinator.step, h.tasks]
    split
    · exact h.finishLoad task _ result
    · exact h
  | discard task =>
    simp only [Coordinator.step, h.tasks, h.callbacks, h.inflight]
    split
    · split
      · exact ⟨h.maxConcurrency, h.cache, rfl, rfl, rfl⟩
      · exact h
    · exact h
  | resume waiter =>
    obtain ⟨ws, hc⟩ := resume_attachments c waiter
    obtain ⟨ws', hc'⟩ := resume_attachments c' waiter
    rw [hc, hc']
    exact ⟨h.maxConcurrency, h.cache, h.tasks, h.inflight, h.callbacks⟩
  | cancel waiter => exact ⟨h.maxConcurrency, h.cache, h.tasks, h.inflight, h.callbacks⟩
  | retain active =>
    simp only [Coordinator.step, h.cache]
    exact ⟨h.maxConcurrency, rfl, h.tasks, h.inflight, h.callbacks⟩

/-- What a step does to the attachment of `v` depends on no other attachment. -/
theorem SameLoads.waiters_get {c' : Coordinator} (h : SameLoads c c') {v : ℕ}
    (hv : c'.waiters.get v = c.waiters.get v) (op : CoordinatorOp) :
    (c'.step op).1.waiters.get v = (c.step op).1.waiters.get v := by
  by_cases hop : op.waiter = some v
  · cases op with
    | fetch waiter plan =>
      cases hop
      simp only [Coordinator.step, fetch, h.cache, h.inflight, h.tasks]
      split
      · exact hv
      · split
        · simp [Dict.get_set_self]
        · simp [Dict.get_set_self]
    | resume waiter =>
      cases hop
      simp only [Coordinator.step, hv, h.tasks]
      split
      · simp [Dict.get_restrict]
      · exact hv
    | cancel waiter =>
      cases hop
      simp [Coordinator.step, Dict.get_restrict]
    | _ => cases hop
  · rw [step_waiters_get hop, step_waiters_get hop]
    exact hv

theorem Alike.step {w : ℕ} {c' : Coordinator} (h : Alike w c c') (op : CoordinatorOp) :
    Alike w (c.step op).1 (c'.step op).1 :=
  ⟨h.toSameLoads.step op, fun v hv => h.toSameLoads.waiters_get (h.waiters v hv) op⟩

theorem Alike.refl (w : ℕ) (c : Coordinator) : Alike w c c :=
  ⟨⟨rfl, rfl, rfl, rfl, rfl⟩, fun _ _ => rfl⟩

/-- The cancellation of `w` is seen in its own attachment only. -/
theorem Alike.cancel {w : ℕ} {c' : Coordinator} (h : Alike w c c') {op : CoordinatorOp}
    (hop : op.cancels w = true) : Alike w (c.step op).1 c' := by
  cases op with
  | cancel waiter =>
    have hw : waiter = w := of_decide_eq_true hop
    subst hw
    refine ⟨⟨h.maxConcurrency, h.cache, h.tasks, h.inflight, h.callbacks⟩, ?_⟩
    intro v hv
    simp only [Coordinator.step]
    rw [Dict.get_restrict, if_pos (by simpa using hv)]
    exact h.waiters v hv
  | _ => cases hop

/-- A waiter other than `w` is answered the same in alike coordinators. -/
theorem Alike.answer {w : ℕ} {c' : Coordinator} (h : Alike w c c') (op : CoordinatorOp) :
    (c.answer op).toList.filter (·.waiter ≠ w) = (c'.answer op).toList.filter (·.waiter ≠ w) := by
  cases op with
  | resume waiter =>
    by_cases hw : waiter = w
    · -- an answer to `w` itself is filtered out on both sides
      have hnone : ∀ d : Coordinator,
          (d.answer (.resume waiter)).toList.filter (·.waiter ≠ w) = [] := by
        intro d
        rw [List.filter_eq_nil_iff]
        intro a ha
        obtain ⟨hop, -, -⟩ := answer_spec (Option.mem_toList.mp ha)
        cases hop
        simpa using hw
      rw [hnone, hnone]
    · have hout : (c'.step (.resume waiter)).2 = (c.step (.resume waiter)).2 := by
        simp only [Coordinator.step, h.waiters waiter hw, h.tasks]
        split <;> rfl
      simp only [Coordinator.answer, hout, h.waiters waiter hw]
  | _ => rfl

theorem cancel_changes_nothing {w : ℕ} (ops : List CoordinatorOp) {c' : Coordinator}
    (h : Alike w c c') :
    Alike w (run Coordinator.step c ops)
        (run Coordinator.step c' (ops.filter fun op => !op.cancels w)) ∧
      (answers c ops).filter (·.waiter ≠ w) =
        (answers c' (ops.filter fun op => !op.cancels w)).filter (·.waiter ≠ w) := by
  induction ops generalizing c c' with
  | nil => exact ⟨h, rfl⟩
  | cons op ops ih =>
    cases hop : op.cancels w with
    | true =>
      have hanswer : c.answer op = none := by
        cases op with
        | cancel waiter => rfl
        | _ => cases hop
      rw [List.filter_cons_of_neg (by simp [hop]), answers, hanswer]
      exact ih (h.cancel hop)
    | false =>
      obtain ⟨hrun, hanswers⟩ := ih (h.step op)
      rw [List.filter_cons_of_pos (by simp [hop]), answers, answers, List.filter_append,
        List.filter_append, h.answer op, hanswers]
      exact ⟨hrun, rfl⟩

/-! ## The cache -/

/-- A step that changes an entry ends a load with a verified result that is not empty. -/
theorem step_cache_origin (c : Coordinator) (op : CoordinatorOp) {k : Instrument × Timeframe}
    {e : CacheEntry} (he : Dict.get (c.step op).1.cache k = some e) :
    Dict.get c.cache k = some e ∨
      ∃ task plan candles, op = .finish task (some candles) ∧
        c.tasks[task]? = some ⟨plan, .loading⟩ ∧ verifySourceCandles plan candles = some e.candles ∧
        e.candles ≠ [] ∧ plan.key.entry = k := by
  by_cases hundisturbed : Undisturbed k c op
  · rw [step_cache_get hundisturbed] at he
    exact Or.inl he
  · by_cases hwrites : Writes c op k
    · obtain ⟨task, plan, candles, verified, rfl, htask, hverified, hne, hk⟩ := hwrites
      have hentry := (step_finish htask hverified hne).2
      rw [hk, he, Option.some.injEq] at hentry
      subst hentry
      exact Or.inr ⟨task, plan, candles, rfl, htask, hverified, hne, hk⟩
    · have hevicts : Evicts op k := by
        by_contra hnot
        exact hundisturbed ⟨hwrites, hnot⟩
      obtain ⟨active, rfl, hactive⟩ := hevicts
      simp [step, HistoricalCache.retainTimeframes, Dict.get_restrict, hactive] at he

/-! ## Every interleaving -/

/-- **Fetches share their loads safely, and the in-flight map is empty once the callbacks have run.**
    For every bound, every run and the coordinator it leads to: one load for each key and at most the
    bound in total are in the source; the waiters of one load get one outcome, also those that resume
    later; the cancellations of a waiter change neither the answers of the others nor the cache; what is
    cached is a verified result that is not empty; a callback removes no load but its own; and with all
    loads ended the map is empty exactly when no callback is pending, which is so after the pending ones. -/
theorem coalesced_fetches (n : ℕ) (hn : 0 < n) (ops : List CoordinatorOp) :
    let c : Coordinator := run step (created n hn) ops
    (∀ (t u : ℕ) (p q : HistoricalFetchPlan), c.tasks[t]? = some ⟨p, .loading⟩ →
        c.tasks[u]? = some ⟨q, .loading⟩ → p.key = q.key → t = u) ∧
      c.running ≤ n ∧
      (∀ a ∈ answers (created n hn) ops, ∀ b ∈ answers (created n hn) ops,
        a.task = b.task → a.outcome = b.outcome) ∧
      (∀ w t later load outcome, c.waiters.get w = some t → (∀ op ∈ later, op.waiter ≠ some w) →
        (run step c later).tasks[t]? = some load → load.state.outcome = some outcome →
        (run step c later).answer (.resume w) = some ⟨w, t, outcome⟩) ∧
      (∀ w, let kept := ops.filter fun op => !op.cancels w
        (run step (created n hn) kept).cache = c.cache ∧
          (answers (created n hn) kept).filter (·.waiter ≠ w) =
            (answers (created n hn) ops).filter (·.waiter ≠ w)) ∧
      (∀ k e, Dict.get c.cache k = some e → ∃ pre task plan candles post,
        ops = pre ++ .finish task (some candles) :: post ∧
          (run step (created n hn) pre).tasks[task]? = some ⟨plan, .loading⟩ ∧
          verifySourceCandles plan candles = some e.candles ∧ e.candles ≠ [] ∧ plan.key.entry = k) ∧
      (∀ k task t, c.inflight.get k = some t → t ≠ task →
        (c.step (.discard task)).1.inflight.get k = some t) ∧
      ((∀ load ∈ c.tasks, load.state.outcome ≠ none) →
        (c.inflight = [] ↔ c.callbacks = []) ∧
          (run step c (c.callbacks.map .discard)).inflight = []) := by
  intro c
  have htracked : Tracked c := run_invariant (fun _ op h => h.step op) ops (tracked_created n hn)
  have hbound : c.running ≤ c.maxConcurrency :=
    run_invariant (I := fun c : Coordinator => c.running ≤ c.maxConcurrency)
      (fun _ op hle => running_step_le hle op) ops (Nat.zero_le _)
  have hmax : c.maxConcurrency = n :=
    run_invariant (I := fun c : Coordinator => c.maxConcurrency = n)
      (fun c op h => (step_maxConcurrency c op).trans h) ops rfl
  refine ⟨?_, hmax ▸ hbound, ?_, ?_, ?_, ?_, ?_, ?_⟩
  · intro t u p q ht hu hkey
    exact htracked.held_unique ⟨ht, Or.inl rfl⟩ ⟨hu, Or.inl rfl⟩ hkey
  · intro a ha b hb htask
    obtain ⟨load, hload, houtcome⟩ := answers_outcome ops ha
    obtain ⟨load', hload', houtcome'⟩ := answers_outcome ops hb
    rw [htask, hload', Option.some.injEq] at hload
    rw [← hload, houtcome', Option.some.injEq] at houtcome
    exact houtcome.symm
  · intro w t later load outcome hw hlater hload hdone
    exact answer_resume ((run_waiters_get hlater).trans hw) hload hdone
  · intro w kept
    obtain ⟨hrun, hanswers⟩ := cancel_changes_nothing (w := w) ops (Alike.refl w (created n hn))
    exact ⟨hrun.cache, hanswers.symm⟩
  · intro k e he
    obtain ⟨pre, op, post, hops, task, plan, candles, rfl, hload, hrest⟩ :=
      run_origin (fun c : Coordinator => Dict.get c.cache k)
        (fun c op e => ∃ task plan candles, op = .finish task (some candles) ∧
          c.tasks[task]? = some ⟨plan, .loading⟩ ∧
          verifySourceCandles plan candles = some e.candles ∧ e.candles ≠ [] ∧ plan.key.entry = k)
        (fun c op _ he => step_cache_origin c op he) rfl ops he
    exact ⟨pre, task, plan, candles, post, hops, hload, hrest⟩
  · intro k task t hk hne
    exact htracked.discard_keeps hk hne
  · intro hdone
    obtain ⟨hnone, htasks⟩ := htracked.run_discards
    refine ⟨⟨htracked.callbacks_eq_nil, htracked.inflight_eq_nil hdone⟩, ?_⟩
    have hrun : Tracked (run step c (c.callbacks.map .discard)) :=
      run_invariant (fun _ op h => h.step op) _ htracked
    exact hrun.inflight_eq_nil (htasks.symm ▸ hdone) hnone

/-- Two waiters share a load of a session plan, and one of them is cancelled. -/
theorem coalesced_fetches_sample :
    let ops : List CoordinatorOp := [.fetch 0 (sessionPlan 20672), .fetch 1 (sessionPlan 20672),
      .start 0, .cancel 0, .finish 0 (some [dailyBar (sessionPlan 20672).start]), .resume 1, .discard 0]
    let c : Coordinator := run step (created 8 (by decide)) ops
    c.running ≤ 8 ∧ c.inflight = [] := by
  intro ops c
  obtain ⟨-, hbound, -, -, -, -, -, hempty⟩ := coalesced_fetches 8 (by decide) ops
  refine ⟨hbound, (hempty ?_).1.mpr (by rfl)⟩
  intro load hload
  have htasks : c.tasks =
      [⟨sessionPlan 20672, .done (.ok [dailyBar (sessionPlan 20672).start])⟩] := by rfl
  change load ∈ c.tasks at hload
  rw [htasks, List.mem_singleton] at hload
  rw [hload]
  exact Option.some_ne_none _

/-- Between the end of the only load and its callback, the load is still in the map. -/
theorem completed_load_still_inflight :
    let c : Coordinator := run step (created 8 (by decide))
      [.fetch 0 (sessionPlan 20672), .start 0, .finish 0 (some [])]
    (∀ load ∈ c.tasks, load.state.outcome ≠ none) ∧ c.inflight ≠ [] := by
  intro c
  have htasks : c.tasks = [⟨sessionPlan 20672, .done (.ok [])⟩] := by rfl
  have hinflight : c.inflight = [((sessionPlan 20672).key, 0)] := by rfl
  constructor
  · intro load hload
    rw [htasks, List.mem_singleton] at hload
    rw [hload]
    exact Option.some_ne_none _
  · rw [hinflight]
    exact List.cons_ne_nil _ _

end Coordinator

end ApexScan
