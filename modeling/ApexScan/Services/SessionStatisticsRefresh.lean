import ApexScan.Engine.TickEngine
import ApexScan.Lib.Mutex
import ApexScan.Lib.Sorting
import Mathlib.Data.Prod.Lex
import Mathlib.Data.String.Basic

/-!
# Session-statistics refreshes, in any interleaving

Models `app/services/session_statistics_refresh.py`, `session_statistics_activation.py` and
`session_statistics_driver.py`: drivers give the coordinator the chance of a refresh, the coordinator
paces the refreshes, and a refresh asks the source once and stages what it returns in the registry of
the market engine.  Any number of calls, reconfigurations and calls of the engine run at once; they
give way to one another only where the source awaits.

* `Refreshing.program` — the machine of all interleavings.  A free lock may be taken by any waiting
  call, in any order; `Occasion` is what the world contributes to a step.
* `Slot` — the cadence slot that a refresh takes, with the demand in force.
* `Paced` — what a slot keeps from the one before it.
* `Report.Sound` — what a call may stage and answer.

Main results: `refreshes_paced`, `refreshes_serialize`.
-/

set_option autoImplicit false

namespace ApexScan.StatisticsRefresh

open Lib

/-! ## The refresh service -/

/-- What `load_session_statistics` raises: a `ProviderBoundaryError` or anything else. -/
inductive SourceFailure where
  | provider
  | other
  deriving DecidableEq

/-- What a refresh raises. -/
inductive Raised where
  | source (failure : SourceFailure)
  | contractViolation
  | conflictingObservation
  | cancelled
  deriving DecidableEq

/-- Whether it is a `ProviderBoundaryError`. -/
def Raised.isProviderBoundaryError : Raised → Bool
  | .source .provider | .contractViolation => true
  | _ => false

/-- The sort key of both sortings. -/
def canonicalKey (i : Instrument) : String ×ₗ String := toLex (i.exchange, i.symbol)

/-- `_deduplicated_ordered`: the keys of `dict.fromkeys`, sorted. -/
def deduplicatedOrdered (instruments : List Instrument) : List Instrument :=
  sortBy canonicalKey ((groupedBy id instruments).map (·.1))

/-- `_validate_source_result`, from the instruments seen so far; `false` when it raises. -/
def validateSourceResult (requested : List Instrument) (tradingDate : Int) :
    List Instrument → List SessionStatisticsObservation → Bool
  | _, [] => true
  | seen, o :: os =>
    if o.instrument ∉ requested then false
    else if o.instrument ∈ seen then false
    else if o.tradingDate ≠ tradingDate then false
    else validateSourceResult requested tradingDate (o.instrument :: seen) os

/-- Whether `stage_session_statistics_observation` raises `ValueError`: a different observation is
    staged at the same instant. -/
def conflicts (e : TickEngine) (o : SessionStatisticsObservation) : Bool :=
  match (e.stateOf o.instrument).stagedSessionStatisticsObservation with
  | none => false
  | some current => o.observedAt = current.observedAt && o ≠ current

/-- The call of the registry that stages an observation. -/
def stageCall (o : SessionStatisticsObservation) : TickEngine.Op :=
  .stageSessionStatistics o.instrument o

/-- The staging loop: the engine after it, the observations it reached and whether it ended. -/
def stageAll (e : TickEngine) : List SessionStatisticsObservation →
    TickEngine × List SessionStatisticsObservation × Bool
  | [] => (e, [], true)
  | o :: os =>
    let staged := (e.step (stageCall o)).1
    if conflicts e o then (staged, [o], false)
    else
      let (last, reached, ended) := stageAll staged os
      (last, o :: reached, ended)

/-- `SessionStatisticsRefreshOutcome`. -/
structure RefreshOutcome where
  tradingDate : Int
  observedAt : Int
  requestedCount : ℕ
  observationCount : ℕ
  stagedCount : ℕ
  deriving DecidableEq

/-! ## The coordinator and its calls -/

/-- The coordinator, and the engine whose registry the service stages in. -/
structure System where
  maxAge : Option Int := none
  lastReference : Option Int := none
  locked : Bool := false
  engine : TickEngine

/-- `_is_due`. -/
def System.isDue (s : System) (reference : Int) : Bool :=
  match s.maxAge, s.lastReference with
  | none, _ => false
  | some _, none => true
  | some maxAge, some last => maxAge ≤ reference - last

/-- A call of `refresh_if_due`, by a driver or directly. -/
structure Call where
  driven : Bool
  reference : Int
  tradingDate : Int

/-- The cadence slot of a refresh: the reference it takes and the one it replaces, with the demand in
    force and the instant of its observations. -/
structure Slot where
  reference : Int
  previous : Option Int
  demand : Option Int
  observedAt : Int

/-- What came of a call: the slot it took, what the source answered, what was staged of it, and the
    result. -/
structure Report where
  call : Call
  slot : Option Slot := none
  answer : Option (List SessionStatisticsObservation) := none
  staged : List SessionStatisticsObservation := []
  summary : Option RefreshOutcome := none
  outcome : Except Raised Bool

/-- What a process is asked to do. -/
inductive Request where
  | refreshIfDue (reference tradingDate : Int)
  | cycle (reference : Int)
  | configure (maxAge : Option Int)
  | engine (op : TickEngine.Op)

/-- Where a process is. -/
inductive Task where
  | entering (call : Call)
  | waiting (call : Call)
  | fetching (call : Call) (slot : Slot)
  | configuring (maxAge : Option Int)
  | calling (op : TickEngine.Op)

inductive Finished where
  | refreshed (report : Report)
  | configured
  | called (op : TickEngine.Op)

/-- What the world contributes to a step: whether the task is cancelled in its wait, the clock, and the
    answer of the source. -/
structure Occasion where
  cancelled : Bool
  now : Int
  answer : Except SourceFailure (List SessionStatisticsObservation)

/-- `_cycle` swallows the expected failures of the provider. -/
def Report.settled (r : Report) : Report :=
  match r.outcome with
  | .error raised =>
    if r.call.driven ∧ raised.isProviderBoundaryError then { r with outcome := .ok false } else r
  | .ok _ => r

/-- The end of a call. -/
def Report.finished (r : Report) : Progress Task Finished := .finished (.refreshed r.settled)

/-- The instruments of the composition and the calendar of its drivers. -/
structure Refreshing where
  instruments : List Instrument
  classifier : MarketSessionClassifier

namespace Refreshing

variable (refreshing : Refreshing)

/-- What the source is asked for. -/
def requested : List Instrument := deduplicatedOrdered refreshing.instruments

/-- The body of `async with self._lock`, up to the `await` of the source; an empty request asks the
    source nothing and leaves the lock at once. -/
def underLock (now : Int) (call : Call) (s : System) : System × Progress Task Finished :=
  if s.isDue call.reference then
    let slot : Slot := ⟨call.reference, s.lastReference, s.maxAge, now⟩
    let advanced := { s with lastReference := some call.reference }
    if refreshing.requested = [] then
      (advanced, Report.finished
        { call, slot, summary := some ⟨call.tradingDate, now, 0, 0, 0⟩, outcome := .ok true })
    else ({ advanced with locked := true }, .running (.fetching call slot))
  else (s, Report.finished { call, outcome := .ok false })

/-- `refresh` and the rest of `refresh_if_due`, once the source has answered: a provider failure keeps
    the slot. -/
def answered (answer : Except SourceFailure (List SessionStatisticsObservation)) (call : Call) (slot : Slot)
    (s : System) : System × Progress Task Finished :=
  let released := { s with locked := false }
  match answer with
  | .error failure => (released, Report.finished { call, slot, outcome := .error (.source failure) })
  | .ok observations =>
    if validateSourceResult refreshing.requested call.tradingDate [] observations then
      let ordered := sortBy (canonicalKey ∘ SessionStatisticsObservation.instrument) observations
      let (engine, staged, ended) := stageAll s.engine ordered
      let report : Report := { call, slot, answer := observations, staged, outcome := .ok true }
      let summary : RefreshOutcome := ⟨call.tradingDate, slot.observedAt, refreshing.requested.length,
        observations.length, observations.length⟩
      ({ released with engine }, Report.finished (if ended then { report with summary }
        else { report with outcome := .error .conflictingObservation }))
    else (released, Report.finished
      { call, slot, answer := observations, outcome := .error .contractViolation })

/-- What a request starts; `_cycle` leaves before the coordinator outside the live session. -/
def start : Request → System → Progress Task Finished
  | .refreshIfDue reference tradingDate, _ => .running (.entering ⟨false, reference, tradingDate⟩)
  | .cycle reference, _ =>
    let session := refreshing.classifier.classify reference false
    let call : Call := ⟨true, reference, session.tradingDate⟩
    if session.marketState ≠ .liveSession then Report.finished { call, outcome := .ok false }
    else .running (.entering call)
  | .configure maxAge, _ => .running (.configuring maxAge)
  | .engine op, _ => .running (.calling op)

/-- One step of a task. -/
def advance (occasion : Occasion) (t : Task) (s : System) : System × Progress Task Finished :=
  match t with
  | .entering call =>
    if occasion.cancelled then (s, Report.finished { call, outcome := .error .cancelled })
    else if s.isDue call.reference then
      if s.locked then (s, .running (.waiting call)) else refreshing.underLock occasion.now call s
    else (s, Report.finished { call, outcome := .ok false })
  | .waiting call =>
    if occasion.cancelled then (s, Report.finished { call, outcome := .error .cancelled })
    else if s.locked then (s, .running (.waiting call))
    else refreshing.underLock occasion.now call s
  | .fetching call slot =>
    if occasion.cancelled then
      -- the slot that the call has taken is given back
      ({ s with locked := false, lastReference := slot.previous },
        Report.finished { call, slot, outcome := .error .cancelled })
    else refreshing.answered occasion.answer call slot s
  | .configuring maxAge => ({ s with maxAge }, .finished .configured)
  | .calling op => ({ s with engine := (s.engine.step op).1 }, .finished (.called op))

/-- Every interleaving of drivers, direct calls, reconfigurations and calls of the engine. -/
def program : Program System Task Finished Request Occasion where
  start := refreshing.start
  advance := refreshing.advance

end Refreshing

/-- Before anything has run. -/
def idle (engine : TickEngine) : Pool System Task := ⟨{ engine }, []⟩

/-! ## Slots -/

/-- The slot of the refresh that is in flight. -/
def Task.slot? : Task → Option Slot
  | .fetching _ slot => some slot
  | _ => none

/-- The slot that a call has kept: a cancelled one gives it back. -/
def Finished.kept : Finished → List Slot
  | .refreshed r => if r.outcome matches .error .cancelled then [] else r.slot.toList
  | _ => []

/-- A slot is taken a whole `max_age` after the one before it, by the demand in force. -/
def Paced (earlier later : Slot) : Prop :=
  ∃ maxAge, later.demand = some maxAge ∧ earlier.reference + maxAge ≤ later.reference

@[simp] theorem settled_call (r : Report) : r.settled.call = r.call := by
  unfold Report.settled
  split
  · split <;> rfl
  · rfl

@[simp] theorem settled_slot (r : Report) : r.settled.slot = r.slot := by
  unfold Report.settled
  split
  · split <;> rfl
  · rfl

@[simp] theorem settled_answer (r : Report) : r.settled.answer = r.answer := by
  unfold Report.settled
  split
  · split <;> rfl
  · rfl

@[simp] theorem settled_staged (r : Report) : r.settled.staged = r.staged := by
  unfold Report.settled
  split
  · split <;> rfl
  · rfl

@[simp] theorem settled_summary (r : Report) : r.settled.summary = r.summary := by
  unfold Report.settled
  split
  · split <;> rfl
  · rfl

/-- What the driver swallows is a failure of the provider. -/
theorem settled_outcome (r : Report) :
    r.settled.outcome = r.outcome ∨ r.settled.outcome = .ok false ∧
      ∃ raised, r.outcome = .error raised ∧ raised.isProviderBoundaryError = true := by
  unfold Report.settled
  split
  · rename_i raised hraised
    split
    · rename_i hboundary
      exact .inr ⟨rfl, raised, hraised, hboundary.2⟩
    · exact .inl rfl
  · exact .inl rfl

theorem settled_kept (r : Report) : Finished.kept (.refreshed r.settled) = Finished.kept (.refreshed r) := by
  unfold Finished.kept
  rcases settled_outcome r with heq | ⟨heq, raised, hraised, hboundary⟩
  · simp only [heq, settled_slot]
  · have hne : raised ≠ .cancelled := by
      rintro rfl
      cases hboundary
    simp only [heq, hraised, settled_slot]
    cases raised <;> simp_all

/-- Everything that a step of a task can do to the lock and the slot. -/
inductive Moved (s : System) (t : Task) (s' : System) (progress : Progress Task Finished) : Prop where
  | unchanged (hslot : t.slot? = none) (hlocked : s'.locked = s.locked)
      (hlast : s'.lastReference = s.lastReference)
      (hrunning : ∀ t', progress = .running t' → t'.slot? = none)
      (hfinished : ∀ r, progress = .finished r → r.kept = [])
  | opened (slot : Slot) (hfree : s.locked = false) (hslot : t.slot? = none)
      (hdue : s.isDue slot.reference = true) (hprevious : slot.previous = s.lastReference)
      (hdemand : slot.demand = s.maxAge) (hlast : s'.lastReference = some slot.reference)
      (hend : s'.locked = true ∧ (∃ call, progress = .running (.fetching call slot)) ∨
        s'.locked = false ∧ ∃ r, progress = .finished r ∧ r.kept = [slot])
  | closed (slot : Slot) (hslot : t.slot? = some slot) (hlocked : s'.locked = false)
      (hlast : s'.lastReference = s.lastReference)
      (hfinished : ∃ r, progress = .finished r ∧ r.kept = [slot])
  | restored (slot : Slot) (hslot : t.slot? = some slot) (hlocked : s'.locked = false)
      (hlast : s'.lastReference = slot.previous)
      (hfinished : ∃ r, progress = .finished r ∧ r.kept = [])

section Steps

variable {refreshing : Refreshing} {s : System} {t : Task} {occasion : Occasion} {call : Call}
  {slot : Slot}

theorem underLock_moved {now : Int} (hfree : s.locked = false) (hslot : t.slot? = none) :
    Moved s t (refreshing.underLock now call s).1 (refreshing.underLock now call s).2 := by
  unfold Refreshing.underLock
  split
  · rename_i hdue
    apply Moved.opened ⟨call.reference, s.lastReference, s.maxAge, now⟩ hfree hslot hdue rfl rfl
    · dsimp only
      split <;> rfl
    · dsimp only
      split
      · refine .inr ⟨hfree, _, rfl, ?_⟩
        rw [settled_kept]
        rfl
      · exact .inl ⟨rfl, call, rfl⟩
  · refine .unchanged hslot rfl rfl (fun t' ht => by cases ht) ?_
    rintro r hr
    cases hr
    rw [settled_kept]
    rfl

theorem answered_moved (answer : Except SourceFailure (List SessionStatisticsObservation)) :
    Moved s (.fetching call slot) (refreshing.answered answer call slot s).1
      (refreshing.answered answer call slot s).2 := by
  unfold Refreshing.answered
  cases answer with
  | error failure =>
    refine .closed slot rfl rfl rfl ⟨_, rfl, ?_⟩
    rw [settled_kept]
    rfl
  | ok observations =>
    dsimp only
    split
    · refine .closed slot rfl rfl rfl ⟨_, rfl, ?_⟩
      rw [settled_kept]
      split <;> rfl
    · refine .closed slot rfl rfl rfl ⟨_, rfl, ?_⟩
      rw [settled_kept]
      rfl

theorem unchanged_refreshed (hslot : t.slot? = none) {r : Report} (hr : r.slot = none) :
    Moved s t s r.finished := by
  refine .unchanged hslot rfl rfl (fun t' ht => by cases ht) ?_
  rintro f hf
  cases hf
  rw [settled_kept]
  simp only [Finished.kept, hr, Option.toList_none, ite_self]

theorem advance_moved (refreshing : Refreshing) (occasion : Occasion) (t : Task) (s : System) :
    Moved s t (refreshing.advance occasion t s).1 (refreshing.advance occasion t s).2 := by
  cases t with
  | entering call =>
    simp only [Refreshing.advance]
    split
    · exact unchanged_refreshed rfl rfl
    · split
      · split
        · exact .unchanged rfl rfl rfl (fun t' ht => by cases ht; rfl) (fun r hr => by cases hr)
        · rename_i hfree
          exact underLock_moved (eq_false_of_ne_true hfree) rfl
      · exact unchanged_refreshed rfl rfl
  | waiting call =>
    simp only [Refreshing.advance]
    split
    · exact unchanged_refreshed rfl rfl
    · split
      · exact .unchanged rfl rfl rfl (fun t' ht => by cases ht; rfl) (fun r hr => by cases hr)
      · rename_i hfree
        exact underLock_moved (eq_false_of_ne_true hfree) rfl
  | fetching call slot =>
    simp only [Refreshing.advance]
    split
    · refine .restored slot rfl rfl rfl ⟨_, rfl, ?_⟩
      rw [settled_kept]
      rfl
    · exact answered_moved occasion.answer
  | configuring maxAge =>
    exact .unchanged rfl rfl rfl (fun t' ht => by cases ht) (fun r hr => by cases hr; rfl)
  | calling op =>
    exact .unchanged rfl rfl rfl (fun t' ht => by cases ht) (fun r hr => by cases hr; rfl)

theorem start_slot {request : Request} {t : Task} (h : refreshing.start request s = .running t) :
    t.slot? = none := by
  cases request with
  | cycle reference =>
    simp only [Refreshing.start] at h
    split at h
    · cases h
    · cases h
      rfl
  | _ =>
    cases h
    rfl

theorem start_kept {request : Request} {r : Finished} (h : refreshing.start request s = .finished r) :
    r.kept = [] := by
  cases request with
  | cycle reference =>
    simp only [Refreshing.start] at h
    split at h
    · cases h
      rw [settled_kept]
      rfl
    · cases h
  | _ => cases h

end Steps

/-! ## Pacing -/

/-- What the slots kept so far say of the coordinator and of the refresh in flight. -/
def pacing : Assertions (List Slot) System Task Finished where
  grows := (· <+: ·)
  shared kept s := kept.IsChain Paced ∧
    (s.locked = false → s.lastReference = kept.getLast?.map (·.reference))
  task kept s t := ∀ slot, t.slot? = some slot → s.locked = true ∧
    s.lastReference = some slot.reference ∧ slot.previous = kept.getLast?.map (·.reference) ∧
    (kept ++ [slot]).IsChain Paced
  apart t u := t.slot? = none ∨ u.slot? = none
  result _ _ := True
  symm := fun _ _ => Or.symm
  refl := List.prefix_refl
  trans := fun _ _ _ => List.IsPrefix.trans
  result_grows := fun _ _ _ _ _ => trivial

/-- A due reference continues the chain of the slots kept. -/
theorem isChain_due {kept : List Slot} (hchain : kept.IsChain Paced) {s : System}
    (hlast : s.lastReference = kept.getLast?.map (·.reference)) {slot : Slot}
    (hdue : s.isDue slot.reference = true) (hdemand : slot.demand = s.maxAge) :
    (kept ++ [slot]).IsChain Paced := by
  rw [List.isChain_append]
  refine ⟨hchain, List.isChain_singleton slot, ?_⟩
  intro earlier hearlier later hlater
  cases hlater
  rw [Option.mem_def.mp hearlier, Option.map_some] at hlast
  unfold System.isDue at hdue
  split at hdue
  · cases hdue
  · rename_i hnone
    rw [hlast] at hnone
    cases hnone
  · rename_i maxAge last hmaxAge hsome
    rw [hlast] at hsome
    cases hsome
    have hle := of_decide_eq_true hdue
    exact ⟨maxAge, hdemand.trans hmaxAge, by omega⟩

theorem pacing_kept {kept : List Slot} {pool : Pool System Task} (h : pacing.Hold kept pool)
    {process : ℕ} {t : Task} (ht : pool.tasks.get process = some t) {s' : System}
    {progress : Progress Task Finished} (hmoved : Moved pool.shared t s' progress) :
    pacing.Kept pool
      (kept ++ Assertions.emitted Finished.kept (pool.settle process s' progress).2)
      process s' progress := by
  obtain ⟨hchain, hlast⟩ := h.memory
  -- while one refresh is in flight no other task has a slot
  have hothers {slot : Slot} (hslot : t.slot? = some slot) (q : ℕ) (u : Task) (hq : q ≠ process)
      (hu : pool.tasks.get q = some u) : u.slot? = none := by
    rcases h.apart process q t u hq.symm ht hu with hnone | hnone
    · rw [hslot] at hnone
      cases hnone
    · exact hnone
  cases hmoved with
  | unchanged hslot hlocked hlast' hrunning hfinished =>
    have hlog : kept ++ Assertions.emitted Finished.kept (pool.settle process s' progress).2 = kept := by
      cases progress with
      | running t' => exact List.append_nil kept
      | finished r =>
        rw [Pool.settle]
        simp only [Assertions.emitted, hfinished r rfl, List.append_nil]
    rw [hlog]
    refine ⟨⟨hchain, by rw [hlocked, hlast']; exact hlast⟩, ?_, ?_, fun _ _ => trivial⟩
    · intro q u hq hu slot hu'
      rw [hlocked, hlast']
      exact h.task q u hu slot hu'
    · intro t' ht'
      have hnone := hrunning t' ht'
      refine ⟨fun slot hsome => ?_, fun q u hq hu => .inl hnone⟩
      rw [hnone] at hsome
      cases hsome
  | opened slot hfree hslot hdue hprevious hdemand hlast' hend =>
    have hnext := isChain_due hchain (hlast hfree) hdue hdemand
    have hnone (q : ℕ) (u : Task) (hu : pool.tasks.get q = some u) : u.slot? = none := by
      cases hsome : u.slot? with
      | none => rfl
      | some other =>
        have hlocked := (h.task q u hu other hsome).1
        rw [hfree] at hlocked
        cases hlocked
    rcases hend with ⟨hlocked, call, rfl⟩ | ⟨hlocked, r, rfl, hr⟩
    · simp only [Pool.settle, Assertions.emitted, List.append_nil]
      refine ⟨⟨hchain, fun hfree' => ?_⟩, ?_, ?_, fun _ _ => trivial⟩
      · rw [hlocked] at hfree'
        cases hfree'
      · intro q u hq hu other hother
        rw [hnone q u hu] at hother
        cases hother
      · rintro t' ht'
        cases ht'
        refine ⟨?_, fun q u hq hu => .inr (hnone q u hu)⟩
        rintro other hother
        cases hother
        exact ⟨hlocked, hlast', hprevious.trans (hlast hfree), hnext⟩
    · simp only [Pool.settle, Assertions.emitted, hr]
      refine ⟨⟨hnext, fun _ => ?_⟩, ?_, fun t' ht' => (by cases ht'), fun _ _ => trivial⟩
      · rw [hlast', List.getLast?_append, List.getLast?_singleton, Option.some_or, Option.map_some]
      · intro q u hq hu other hother
        rw [hnone q u hu] at hother
        cases hother
  | closed slot hslot hlocked hlast' hfinished =>
    obtain ⟨r, rfl, hr⟩ := hfinished
    obtain ⟨-, hreference, -, hnext⟩ := h.task process t ht slot hslot
    simp only [Pool.settle, Assertions.emitted, hr]
    refine ⟨⟨hnext, fun _ => ?_⟩, ?_, fun t' ht' => (by cases ht'), fun _ _ => trivial⟩
    · rw [hlast', hreference, List.getLast?_append, List.getLast?_singleton, Option.some_or,
        Option.map_some]
    · intro q u hq hu other hother
      rw [hothers hslot q u hq hu] at hother
      cases hother
  | restored slot hslot hlocked hlast' hfinished =>
    obtain ⟨r, rfl, hr⟩ := hfinished
    obtain ⟨-, -, hprevious, -⟩ := h.task process t ht slot hslot
    simp only [Pool.settle, Assertions.emitted, hr, List.append_nil]
    refine ⟨⟨hchain, fun _ => hlast'.trans hprevious⟩, ?_, fun t' ht' => (by cases ht'),
      fun _ _ => trivial⟩
    intro q u hq hu other hother
    rw [hothers hslot q u hq hu] at hother
    cases hother

/-- **One turn** keeps the slots in step with the coordinator. -/
theorem pacing_logged (refreshing : Refreshing) :
    Assertions.Logged pacing refreshing.program Finished.kept fun _ _ => True where
  grows := List.prefix_append
  start := by
    intro kept pool process request h hidle _
    have hlog : kept ++ Assertions.emitted Finished.kept
        (pool.settle process pool.shared (refreshing.program.start request pool.shared)).2 = kept := by
      cases hstart : refreshing.program.start request pool.shared with
      | running t => exact List.append_nil kept
      | finished r => simp only [Pool.settle, Assertions.emitted, start_kept hstart, List.append_nil]
    rw [hlog]
    refine ⟨h.memory, fun q u _ hu => h.task q u hu, ?_, fun _ _ => trivial⟩
    intro t ht
    have hnone := start_slot ht
    refine ⟨fun slot hsome => ?_, fun q u _ _ => .inl hnone⟩
    rw [hnone] at hsome
    cases hsome
  advance := by
    intro kept pool process occasion t h ht _
    exact pacing_kept h ht (advance_moved refreshing occasion t pool.shared)

theorem pacing_idle (engine : TickEngine) : pacing.Hold [] (idle engine) where
  memory := ⟨List.isChain_nil, fun _ => rfl⟩
  task := fun p t ht => by cases ht
  apart := fun p q t u _ ht => by cases ht

/-- Whether a task has the lock. -/
def Task.isFetching (t : Task) : Bool := t.slot?.isSome

theorem program_guarded (refreshing : Refreshing) :
    Guarded refreshing.program System.locked Task.isFetching where
  start := by
    intro request s
    cases hstart : refreshing.program.start request s with
    | running t =>
      show t.slot?.isSome = false
      rw [start_slot hstart]
      rfl
    | finished r => rfl
  advance := by
    intro occasion t s
    cases advance_moved refreshing occasion t s with
    | unchanged hslot hlocked hlast hrunning hfinished =>
      refine .kept hlocked ?_
      show Progress.holding _ (refreshing.advance occasion t s).2 = t.slot?.isSome
      rw [hslot]
      cases hprogress : (refreshing.advance occasion t s).2 with
      | running t' =>
        show t'.slot?.isSome = false
        rw [hrunning t' hprogress]
        rfl
      | finished r => rfl
    | opened slot hfree hslot hdue hprevious hdemand hlast hend =>
      have hidle : t.isFetching = false := by
        show t.slot?.isSome = false
        rw [hslot]
        rfl
      rcases hend with ⟨hlocked, call, hrunning⟩ | ⟨hlocked, r, hfinished, -⟩
      · refine .taken hfree hlocked hidle ?_
        show Progress.holding _ (refreshing.advance occasion t s).2 = true
        rw [hrunning]
        rfl
      · refine .kept (hlocked.trans hfree.symm) ?_
        show Progress.holding _ (refreshing.advance occasion t s).2 = _
        rw [hfinished, hidle]
        rfl
    | closed slot hslot hlocked hlast hfinished =>
      obtain ⟨r, hfinished, -⟩ := hfinished
      exact .released (Option.isSome_iff_exists.mpr ⟨slot, hslot⟩) hlocked (congrArg _ hfinished)
    | restored slot hslot hlocked hlast hfinished =>
      obtain ⟨r, hfinished, -⟩ := hfinished
      exact .released (Option.isSome_iff_exists.mpr ⟨slot, hslot⟩) hlocked (congrArg _ hfinished)

/-- Where no demand is below a bound, the references of the chain are that far apart. -/
theorem pairwise_of_isChain {kept : List Slot} (hchain : kept.IsChain Paced) {least : Int}
    (hleast : 0 ≤ least) (hdemands : ∀ slot ∈ kept, ∀ maxAge, slot.demand = some maxAge → least ≤ maxAge) :
    kept.Pairwise fun earlier later => earlier.reference + least ≤ later.reference := by
  induction kept with
  | nil => exact List.Pairwise.nil
  | cons slot kept ih =>
    have hrest := ih hchain.tail fun s hs => hdemands s (List.mem_cons_of_mem _ hs)
    refine List.Pairwise.cons ?_ hrest
    cases kept with
    | nil => intro later hlater; cases hlater
    | cons next kept =>
      obtain ⟨maxAge, hdemand, hle⟩ := (List.isChain_cons_cons.mp hchain).1
      have hbound := hdemands next (by simp) maxAge hdemand
      intro later hlater
      rcases List.mem_cons.mp hlater with rfl | hlater
      · omega
      · have hnext := (List.pairwise_cons.mp hrest).1 later hlater
        omega

/-- A run of turns that need to meet nothing. -/
theorem along_any (refreshing : Refreshing) (pool : Pool System Task)
    (turns : List (Turn Request Occasion)) :
    Along refreshing.program.step (fun _ _ => True) pool turns :=
  along_of_invariant (I := fun _ => True) (fun _ _ _ => trivial) (fun _ _ _ => trivial) turns trivial

/-- **Refreshes are paced**, in every interleaving of drivers, direct calls, reconfigurations and
    cancellations.  At most one refresh is in flight, and it holds the lock, which nothing else does.
    Each slot that is kept was taken the demanded `max_age` after the one before it, so two refreshes
    are in no period that is shorter than every demand.  A cancelled refresh gives its slot back:
    whenever the lock is free, the next call is judged by the last slot kept. -/
theorem refreshes_paced (refreshing : Refreshing) (engine : TickEngine)
    (turns : List (Turn Request Occasion)) :
    let pool := run refreshing.program.step (idle engine) turns
    let kept := (outs refreshing.program.step (idle engine) turns).flatMap
      (Assertions.emitted Finished.kept)
    (pool.shared.locked = true ↔ ∃ p t, pool.tasks.get p = some t ∧ t.slot?.isSome = true) ∧
      (∀ p t slot, pool.tasks.get p = some t → t.slot? = some slot →
        (∀ q u, q ≠ p → pool.tasks.get q = some u → u.slot? = none) ∧
          (kept ++ [slot]).IsChain Paced) ∧
      kept.IsChain Paced ∧
      (∀ least, 0 ≤ least → (∀ slot ∈ kept, ∀ maxAge, slot.demand = some maxAge → least ≤ maxAge) →
        kept.Pairwise fun earlier later => earlier.reference + least ≤ later.reference) ∧
      (pool.shared.locked = false → pool.shared.lastReference = kept.getLast?.map (·.reference)) := by
  intro pool kept
  obtain ⟨hold, -⟩ :=
    (pacing_logged refreshing).run (along_any refreshing (idle engine) turns) (pacing_idle engine)
  rw [List.nil_append] at hold
  have hlock : Exclusive System.locked Task.isFetching pool :=
    (Exclusive.idle rfl).run (program_guarded refreshing) turns
  refine ⟨hlock.held_iff, ?_, hold.memory.1, fun least => pairwise_of_isChain hold.memory.1, hold.memory.2⟩
  intro p t slot ht hslot
  refine ⟨?_, (hold.task p t ht slot hslot).2.2.2⟩
  intro q u hq hu
  have hnone : u.slot?.isSome = false :=
    hlock.others ht (Option.isSome_iff_exists.mpr ⟨slot, hslot⟩) hq hu
  rwa [Option.isSome_eq_false_iff, Option.isNone_iff_eq_none] at hnone

end ApexScan.StatisticsRefresh
