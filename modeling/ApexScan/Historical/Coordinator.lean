import ApexScan.Historical.Source
import ApexScan.Lib.Machine

/-!
# Cached, coalesced fetches (`historical/cache.py`, `historical/coordinator.py`)

A fetch is answered by the cache, joins a load in flight, or starts one.  Tasks run between the
points where they wait, so the coordinator is a machine whose operations are these stretches: a
call of `fetch`, a task that enters the semaphore, a load that ends, a done-callback, a waiter that
resumes or is cancelled, and an eviction.  Any interleaving is a run.

* `HistoricalCache` — one entry for each instrument and timeframe, with its covered window.
* `Coordinator`, `Coordinator.step` — the machine.
* `Writes`, `Evicts`, `Undisturbed` — what changes an entry, and the steps that leave it.

Main result: `cached_fetch_agrees_iff`.  `midnight_bar_dropped_on_hit` is a session plan whose hit
loses the oldest daily bar.
-/

set_option autoImplicit false

namespace ApexScan

open Lib

/-! ## The cache -/

/-- `_Entry`: candles and the window they cover. -/
structure CacheEntry where
  candles : List Candle
  coverageStart : Int
  coverageEnd : Int

def CacheEntry.covers (e : CacheEntry) (start stop : Int) : Bool :=
  decide (e.coverageStart ≤ start ∧ stop ≤ e.coverageEnd)

/-- Entries by instrument and timeframe. -/
abbrev HistoricalCache := Dict (Instrument × Timeframe) CacheEntry

/-- The entry a request belongs to. -/
def HistoricalRequestKey.entry (k : HistoricalRequestKey) : Instrument × Timeframe :=
  (k.instrument, k.timeframe)

/-- The candle starts in the requested window. -/
def HistoricalRequestKey.admits (k : HistoricalRequestKey) (c : Candle) : Bool :=
  decide (k.start ≤ c.startTimestamp ∧ c.startTimestamp < k.stop)

namespace HistoricalCache

def lookup (cache : HistoricalCache) (key : HistoricalRequestKey) : Option (List Candle) :=
  match Dict.get cache key.entry with
  | none => none
  | some e => if e.covers key.start key.stop then some (e.candles.filter key.admits) else none

def put (cache : HistoricalCache) (key : HistoricalRequestKey) (candles : List Candle) :
    HistoricalCache :=
  Dict.set cache key.entry ⟨candles, key.start, key.stop⟩

def retainTimeframes (cache : HistoricalCache) (active : List Timeframe) : HistoricalCache :=
  Dict.restrict cache (fun k => k.2 ∈ active)

end HistoricalCache

/-! ## The coordinator -/

/-- A task of `_run`: waiting for the semaphore, in the source, or done. -/
inductive TaskState where
  | queued
  | loading
  | done (outcome : Except FetchError (List Candle))

structure FetchTask where
  plan : HistoricalFetchPlan
  state : TaskState

/-- `HistoricalCoordinator`.  Tasks are numbered in the order of their creation; `waiters` maps a
    suspended call of `fetch` to the task it awaits, `callbacks` are the done-callbacks to come. -/
structure Coordinator where
  maxConcurrency : ℕ
  maxConcurrency_pos : 0 < maxConcurrency
  cache : HistoricalCache := []
  tasks : List FetchTask := []
  inflight : Dict HistoricalRequestKey ℕ := []
  callbacks : List ℕ := []
  waiters : Dict ℕ ℕ := []

/-- What can happen next. -/
inductive CoordinatorOp where
  | fetch (waiter : ℕ) (plan : HistoricalFetchPlan)
  | start (task : ℕ)
  | finish (task : ℕ) (result : Option (List Candle))
  | discard (task : ℕ)
  | resume (waiter : ℕ)
  | cancel (waiter : ℕ)
  | retain (active : List Timeframe)

/-- What an operation lets its caller see. -/
inductive CoordinatorEvent where
  | hit (candles : List Candle)
  | waiting (task : ℕ)
  | finished (outcome : Except FetchError (List Candle))
  | returned (outcome : Except FetchError (List Candle))
  | silent

namespace Coordinator

/-- The loads that hold the semaphore. -/
def running (c : Coordinator) : ℕ := c.tasks.countP fun t => match t.state with
  | .loading => true
  | _ => false

/-- A task reaches its end: its done-callback is scheduled. -/
def complete (c : Coordinator) (task : ℕ) (plan : HistoricalFetchPlan)
    (outcome : Except FetchError (List Candle)) : Coordinator :=
  { c with tasks := c.tasks.set task ⟨plan, .done outcome⟩, callbacks := c.callbacks ++ [task] }

/-- `_run` after the load: verify, and cache what is not empty. -/
def finishLoad (c : Coordinator) (task : ℕ) (plan : HistoricalFetchPlan)
    (result : Option (List Candle)) : Coordinator × CoordinatorEvent :=
  match result with
  | none => (c.complete task plan (.error .source), .finished (.error .source))
  | some candles =>
    match verifySourceCandles plan candles with
    | none => (c.complete task plan (.error .dataQuality), .finished (.error .dataQuality))
    | some verified =>
      let cache := if verified.isEmpty then c.cache else c.cache.put plan.key verified
      ({ c with cache }.complete task plan (.ok verified), .finished (.ok verified))

/-- `fetch` up to its first suspension. -/
def fetch (c : Coordinator) (waiter : ℕ) (plan : HistoricalFetchPlan) :
    Coordinator × CoordinatorEvent :=
  match c.cache.lookup plan.key with
  | some candles => (c, .hit candles)
  | none =>
    match c.inflight.get plan.key with
    | some task => ({ c with waiters := c.waiters.set waiter task }, .waiting task)
    | none =>
      let task := c.tasks.length
      ({ c with tasks := c.tasks ++ [⟨plan, .queued⟩],
                inflight := c.inflight.set plan.key task,
                waiters := c.waiters.set waiter task }, .waiting task)

/-- The next stretch of execution; an operation that is not possible now changes nothing. -/
def step (c : Coordinator) (op : CoordinatorOp) : Coordinator × CoordinatorEvent :=
  match op with
  | .fetch waiter plan => c.fetch waiter plan
  | .start task =>
    match c.tasks[task]? with
    | some ⟨plan, .queued⟩ =>
      if c.running < c.maxConcurrency then
        match plan.request with
        | some _ => ({ c with tasks := c.tasks.set task ⟨plan, .loading⟩ }, .silent)
        | none =>
          (c.complete task plan (.error .invalidRequest), .finished (.error .invalidRequest))
      else (c, .silent)
    | _ => (c, .silent)
  | .finish task result =>
    match c.tasks[task]? with
    | some ⟨plan, .loading⟩ => c.finishLoad task plan result
    | _ => (c, .silent)
  | .discard task =>
    if task ∈ c.callbacks then
      match c.tasks[task]? with
      | some t => ({ c with callbacks := c.callbacks.erase task,
                            inflight := c.inflight.restrict (· ≠ t.plan.key) }, .silent)
      | none => (c, .silent)
    else (c, .silent)
  | .resume waiter =>
    match (c.waiters.get waiter).bind (c.tasks[·]?) with
    | some ⟨_, .done outcome⟩ =>
      ({ c with waiters := c.waiters.restrict (· ≠ waiter) }, .returned outcome)
    | _ => (c, .silent)
  | .cancel waiter => ({ c with waiters := c.waiters.restrict (· ≠ waiter) }, .silent)
  | .retain active => ({ c with cache := c.cache.retainTimeframes active }, .silent)

/-! ## What changes an entry -/

/-- The operation ends a load whose candles are cached in entry `k`. -/
def Writes (c : Coordinator) (op : CoordinatorOp) (k : Instrument × Timeframe) : Prop :=
  ∃ task plan candles verified, op = .finish task (some candles) ∧
    c.tasks[task]? = some ⟨plan, .loading⟩ ∧ verifySourceCandles plan candles = some verified ∧
    verified ≠ [] ∧ plan.key.entry = k

/-- The operation evicts entry `k`. -/
def Evicts (op : CoordinatorOp) (k : Instrument × Timeframe) : Prop :=
  ∃ active, op = .retain active ∧ k.2 ∉ active

/-- The operation neither writes nor evicts entry `k`. -/
def Undisturbed (k : Instrument × Timeframe) (c : Coordinator) (op : CoordinatorOp) : Prop :=
  ¬ Writes c op k ∧ ¬ Evicts op k

@[simp] theorem complete_cache (c : Coordinator) (task : ℕ) (plan : HistoricalFetchPlan)
    (outcome : Except FetchError (List Candle)) : (c.complete task plan outcome).cache = c.cache :=
  rfl

theorem fetch_cache (c : Coordinator) (waiter : ℕ) (plan : HistoricalFetchPlan) :
    (c.fetch waiter plan).1.cache = c.cache := by
  unfold fetch
  split
  · rfl
  · split <;> rfl

theorem finishLoad_cache_get {c : Coordinator} {task : ℕ} {plan : HistoricalFetchPlan}
    {result : Option (List Candle)} {k : Instrument × Timeframe}
    (htask : c.tasks[task]? = some ⟨plan, .loading⟩) (h : ¬ Writes c (.finish task result) k) :
    Dict.get (c.finishLoad task plan result).1.cache k = Dict.get c.cache k := by
  unfold finishLoad
  split
  · rfl
  · rename_i candles
    split
    · rfl
    · rename_i verified hverified
      simp only [complete_cache]
      split
      · rfl
      · rename_i hne
        have hk : plan.key.entry ≠ k := by
          intro hk
          exact h ⟨task, plan, candles, verified, rfl, htask, hverified, by simpa using hne, hk⟩
        exact Dict.get_set_ne _ _ hk

/-- A step that does not disturb an entry keeps it. -/
theorem step_cache_get {c : Coordinator} {op : CoordinatorOp} {k : Instrument × Timeframe}
    (h : Undisturbed k c op) : Dict.get (c.step op).1.cache k = Dict.get c.cache k := by
  obtain ⟨hwrites, hevicts⟩ := h
  cases op with
  | fetch waiter plan => rw [step, fetch_cache]
  | start task =>
    simp only [step]
    split
    · split
      · split <;> rfl
      · rfl
    · rfl
  | finish task result =>
    simp only [step]
    split
    · rename_i htask
      exact finishLoad_cache_get htask hwrites
    · rfl
  | discard task =>
    simp only [step]
    split
    · split <;> rfl
    · rfl
  | resume waiter =>
    simp only [step]
    split <;> rfl
  | cancel waiter => rfl
  | retain active =>
    have hactive : k.2 ∈ active := by
      by_contra hnot
      exact hevicts ⟨active, rfl, hnot⟩
    simp [step, HistoricalCache.retainTimeframes, Dict.get_restrict, hactive]

/-- An entry survives every run that does not disturb it. -/
theorem run_cache_get {c : Coordinator} {ops : List CoordinatorOp} {k : Instrument × Timeframe}
    {e : CacheEntry} (h : Along step (Undisturbed k) c ops) (he : Dict.get c.cache k = some e) :
    Dict.get (run step c ops).cache k = some e := by
  refine Along.invariant (I := fun c => Dict.get c.cache k = some e) ?_ h he
  intro c op hop he
  rw [step_cache_get hop, he]

/-! ## Hits -/

/-- A load that ends with candles caches them and gives them to its waiters. -/
theorem step_finish {c : Coordinator} {task : ℕ} {plan : HistoricalFetchPlan}
    {candles verified : List Candle} (htask : c.tasks[task]? = some ⟨plan, .loading⟩)
    (hverified : verifySourceCandles plan candles = some verified) (hne : verified ≠ []) :
    (c.step (.finish task (some candles))).2 = .finished (.ok verified) ∧
      Dict.get (c.step (.finish task (some candles))).1.cache plan.key.entry =
        some ⟨verified, plan.start, plan.stop⟩ := by
  have hempty : verified.isEmpty = false := by simpa using hne
  simp only [step, htask, finishLoad, hverified, hempty, complete_cache]
  exact ⟨trivial, Dict.get_set_self _ _ _⟩

theorem step_fetch_hit {c : Coordinator} {plan : HistoricalFetchPlan} {candles : List Candle}
    (waiter : ℕ) (he : Dict.get c.cache plan.key.entry = some ⟨candles, plan.start, plan.stop⟩) :
    (c.step (.fetch waiter plan)).2 = .hit (candles.filter plan.key.admits) := by
  have hcovers : CacheEntry.covers ⟨candles, plan.start, plan.stop⟩ plan.key.start plan.key.stop =
      true := decide_eq_true ⟨le_rfl, le_rfl⟩
  have hlookup : c.cache.lookup plan.key = some (candles.filter plan.key.admits) := by
    rw [HistoricalCache.lookup, he]
    exact if_pos hcovers
  rw [step, fetch, hlookup]

/-- **A hit repeats the fetch that filled the entry exactly when every candle of the source starts
    in the window.**  For every plan, every source result that verification accepts, every waiter
    and every run that neither writes nor evicts the entry. -/
theorem cached_fetch_agrees_iff {c : Coordinator} {task : ℕ} {plan : HistoricalFetchPlan}
    {candles verified : List Candle} (htask : c.tasks[task]? = some ⟨plan, .loading⟩)
    (hverified : verifySourceCandles plan candles = some verified) (hne : verified ≠ [])
    {ops : List CoordinatorOp}
    (hops : Along step (Undisturbed plan.key.entry) (c.step (.finish task (some candles))).1 ops)
    (waiter : ℕ) :
    let later := run step (c.step (.finish task (some candles))).1 ops
    (c.step (.finish task (some candles))).2 = .finished (.ok verified) ∧
      (∃ hit, (later.step (.fetch waiter plan)).2 = .hit hit) ∧
      ((later.step (.fetch waiter plan)).2 = .hit verified ↔
        ∀ candle ∈ candles,
          plan.start ≤ candle.startTimestamp ∧ candle.startTimestamp < plan.stop) := by
  intro later
  obtain ⟨hfinished, hentry⟩ := step_finish htask hverified hne
  have hhit := step_fetch_hit waiter (run_cache_get hops hentry)
  refine ⟨hfinished, ⟨_, hhit⟩, ?_⟩
  rw [hhit, CoordinatorEvent.hit.injEq, List.filter_eq_self]
  constructor
  · intro h candle hc
    exact of_decide_eq_true (h candle ((verifySourceCandles_perm hverified).mem_iff.mpr hc))
  · intro h candle hc
    exact decide_eq_true (h candle ((verifySourceCandles_perm hverified).mem_iff.mp hc))

/-! ## A daily bar stamped at midnight -/

theorem hundred_le : rupees 100 ≤ rupees 100 := le_refl _

theorem hundred_within : rupees 100 ≤ rupees 100 ∧ rupees 100 ≤ rupees 100 := ⟨le_refl _, le_refl _⟩

/-- A daily bar of `reliance` at one price. -/
def dailyBar (start : Int) : Candle where
  instrument := reliance
  startTimestamp := start
  endTimestamp := start + day
  openPrice := rupees 100
  highPrice := rupees 100
  lowPrice := rupees 100
  closePrice := rupees 100
  tradedQuantity := 1000
  start_lt_end := by have := day_pos; omega
  low_le_high := hundred_le
  open_within := hundred_within
  close_within := hundred_within

/-- The session plan of one day: the window is the regular session of that day in `kolkata`. -/
def sessionPlan (date : Int) : HistoricalFetchPlan where
  instrument := reliance
  requirement := ⟨.session, 1, le_rfl⟩
  start := kolkata.toUtc (combine date nseSchedule.regularOpen)
  stop := kolkata.toUtc (combine date nseSchedule.regularClose)
  interval := intervalForTimeframe .session

/-- The bar of a day, stamped at midnight of the exchange. -/
def midnightBar (date : Int) : Candle := dailyBar (kolkata.toUtc (combine date 0))

def defaultHistoricalConcurrency : ℕ := 8

theorem defaultHistoricalConcurrency_pos : 0 < defaultHistoricalConcurrency := by decide

/-- The coordinator after a fetch of the session plan of 2026-08-07, with the load in the source. -/
def loadingSession : Coordinator :=
  run step { maxConcurrency := defaultHistoricalConcurrency,
             maxConcurrency_pos := defaultHistoricalConcurrency_pos }
    [.fetch 0 (sessionPlan 20672), .start 0]

/-- The load gives the day's bar, and the hit right after it gives nothing. -/
theorem midnight_bar_dropped_on_hit :
    let bar := midnightBar 20672
    let load := loadingSession.step (.finish 0 (some [bar]))
    load.2 = .finished (.ok [bar]) ∧
      (load.1.step (.fetch 1 (sessionPlan 20672))).2 = .hit [] ∧
      (load.1.step (.fetch 1 (sessionPlan 20672))).2 ≠ .hit [bar] := by
  intro bar load
  have hhit : (load.1.step (.fetch 1 (sessionPlan 20672))).2 = .hit [] := rfl
  refine ⟨rfl, hhit, ?_⟩
  rw [hhit]
  intro h
  cases h

/-- A bar stamped at the open of its session is repeated by a hit, also after the waiter of the load
    is cancelled and other timeframes are evicted. -/
theorem cached_fetch_agrees_at_open :
    let bar := dailyBar (sessionPlan 20672).start
    let load := loadingSession.step (.finish 0 (some [bar]))
    ((run step load.1 [.cancel 0, .retain [.session]]).step (.fetch 1 (sessionPlan 20672))).2 =
      .hit [bar] := by
  intro bar load
  have hops : Along step (Undisturbed (sessionPlan 20672).key.entry) load.1
      [.cancel 0, .retain [.session]] := by
    refine ⟨⟨?_, ?_⟩, ⟨?_, ?_⟩, trivial⟩
    · rintro ⟨_, _, _, _, h, -⟩; cases h
    · rintro ⟨_, h, -⟩; cases h
    · rintro ⟨_, _, _, _, h, -⟩; cases h
    · rintro ⟨_, h, hnot⟩
      cases h
      exact hnot (by decide)
  have h := @cached_fetch_agrees_iff loadingSession 0 (sessionPlan 20672) [bar] [bar] rfl rfl
    (by simp) _ hops 1
  refine h.2.2.mpr ?_
  intro candle hc
  rw [List.mem_singleton.mp hc]
  decide

end Coordinator

end ApexScan
