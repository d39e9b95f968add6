import ApexScan.Engine.StatisticsRun
import ApexScan.Services.SessionStatisticsRefresh

/-!
# What refreshes stage

A refresh touches the engine in the one step that ends it, and only if the source kept its contract.

* `Report.Sound` — what a call may stage and answer.
* `refreshes_serialize` — the engine is where the staged observations and the other calls, one after
  the other in the order they ended, would have taken it.
* `statistics_from_refresh` — the statistics that the engine holds are those of an observation that the
  source returned to one refresh.
-/

set_option autoImplicit false

namespace ApexScan.StatisticsRefresh

open Lib

/-! ## The contract of the source and the staging loop -/

theorem validateSourceResult_iff {requested : List Instrument} {tradingDate : Int}
    {os : List SessionStatisticsObservation} (seen : List Instrument) :
    validateSourceResult requested tradingDate seen os = true ↔
      (∀ o ∈ os, o.instrument ∈ requested ∧ o.instrument ∉ seen ∧ o.tradingDate = tradingDate) ∧
        (os.map (·.instrument)).Nodup := by
  induction os generalizing seen with
  | nil => simp [validateSourceResult]
  | cons o os ih =>
    simp only [validateSourceResult]
    by_cases hrequested : o.instrument ∈ requested
    · by_cases hseen : o.instrument ∈ seen
      · simp [hrequested, hseen]
      · by_cases hdate : o.tradingDate = tradingDate
        · rw [if_neg (not_not.mpr hrequested), if_neg hseen, if_neg (not_not.mpr hdate), ih,
            List.map_cons, List.nodup_cons]
          constructor
          · rintro ⟨hall, hnodup⟩
            refine ⟨?_, fun hmem => ?_, hnodup⟩
            · intro o' ho'
              rcases List.mem_cons.mp ho' with rfl | ho'
              · exact ⟨hrequested, hseen, hdate⟩
              · obtain ⟨hin, hnew, hon⟩ := hall o' ho'
                exact ⟨hin, fun h => hnew (List.mem_cons_of_mem _ h), hon⟩
            · obtain ⟨o', ho', heq⟩ := List.mem_map.mp hmem
              exact (hall o' ho').2.1 (heq ▸ List.mem_cons_self)
          · rintro ⟨hall, hnew, hnodup⟩
            refine ⟨fun o' ho' => ?_, hnodup⟩
            obtain ⟨hin, hold, hon⟩ := hall o' (List.mem_cons_of_mem _ ho')
            refine ⟨hin, fun h => ?_, hon⟩
            rcases List.mem_cons.mp h with heq | h
            · exact hnew (heq ▸ List.mem_map_of_mem ho')
            · exact hold h
        · simp [hrequested, hseen, hdate]
    · simp [hrequested]

/-- **The staging loop** is a run of the engine over the observations it reaches, which are all of
    them unless the last one conflicts. -/
theorem stageAll_spec (os : List SessionStatisticsObservation) (e : TickEngine) :
    (stageAll e os).1 = run TickEngine.step e ((stageAll e os).2.1.map stageCall) ∧
      (stageAll e os).2.1 <+: os ∧
      ((stageAll e os).2.2 = true → (stageAll e os).2.1 = os) ∧
      ((stageAll e os).2.2 = false → ∃ pre o, (stageAll e os).2.1 = pre ++ [o] ∧
        conflicts (run TickEngine.step e (pre.map stageCall)) o = true) := by
  induction os generalizing e with
  | nil => exact ⟨rfl, List.nil_prefix, fun _ => rfl, fun h => by cases h⟩
  | cons o os ih =>
    simp only [stageAll]
    split
    · rename_i hconflict
      refine ⟨rfl, ⟨os, rfl⟩, fun h => (by cases h), fun _ => ⟨[], o, rfl, hconflict⟩⟩
    · obtain ⟨hrun, hprefix, hwhole, hconflict⟩ := ih (e.step (stageCall o)).1
      refine ⟨hrun, List.cons_prefix_cons.mpr ⟨rfl, hprefix⟩, fun h => congrArg _ (hwhole h), ?_⟩
      intro h
      obtain ⟨pre, last, hreached, hlast⟩ := hconflict h
      exact ⟨o :: pre, last, congrArg _ hreached, hlast⟩

theorem mem_deduplicatedOrdered {instruments : List Instrument} {i : Instrument} :
    i ∈ deduplicatedOrdered instruments ↔ i ∈ instruments := by
  unfold deduplicatedOrdered
  rw [mem_sortBy, mem_keys_groupedBy]
  simp

/-! ## Reports -/

/-- What a call may stage and answer. -/
structure Report.Sound (refreshing : Refreshing) (r : Report) : Prop where
  /-- A driver refreshes in the live session only, for its date. -/
  live : r.call.driven = true → r.slot.isSome = true →
    (refreshing.classifier.classify r.call.reference false).marketState = .liveSession ∧
      (refreshing.classifier.classify r.call.reference false).tradingDate = r.call.tradingDate
  /-- A slot is taken at the reference of the call; a call without one has asked for nothing. -/
  slot : ∀ slot ∈ r.slot, slot.reference = r.call.reference
  idle : r.slot = none → r.answer = none ∧ r.staged = [] ∧
    (r.outcome = .ok false ∨ r.outcome = .error .cancelled)
  /-- What is staged was returned, for an instrument of the composition and the date asked for, at
      most one observation for each, in canonical order. -/
  staged : ∀ o ∈ r.staged, o ∈ r.answer.getD [] ∧ o.instrument ∈ refreshing.instruments ∧
    o.tradingDate = r.call.tradingDate
  distinct : (r.staged.map (·.instrument)).Nodup
  ordered : r.staged.Pairwise fun o o' => canonicalKey o.instrument ≤ canonicalKey o'.instrument
  /-- Nothing is staged unless the refresh is done or ends at a conflict in the registry. -/
  nothing : r.outcome ≠ .ok true → r.outcome ≠ .error .conflictingObservation → r.staged = []
  /-- A refresh that is done has staged all that was returned. -/
  whole : r.outcome = .ok true → ∃ slot, r.slot = some slot ∧ r.staged.Perm (r.answer.getD []) ∧
    r.summary = some ⟨r.call.tradingDate, slot.observedAt, refreshing.requested.length,
      r.staged.length, r.staged.length⟩ ∧ r.staged.length ≤ refreshing.requested.length

theorem Report.Sound.settled {refreshing : Refreshing} {r : Report} (h : r.Sound refreshing) :
    r.settled.Sound refreshing := by
  have hok : r.settled.outcome = .ok true → r.outcome = .ok true := by
    intro hsettled
    rcases settled_outcome r with heq | ⟨heq, -⟩
    · rw [← heq, hsettled]
    · rw [heq] at hsettled
      cases hsettled
  constructor
  · simpa using h.live
  · simpa using h.slot
  · intro hnone
    rw [settled_slot] at hnone
    obtain ⟨hanswer, hstaged, hidle⟩ := h.idle hnone
    rw [settled_answer, settled_staged]
    refine ⟨hanswer, hstaged, ?_⟩
    rcases settled_outcome r with heq | ⟨heq, -⟩
    · rw [heq]
      exact hidle
    · exact .inl heq
  · simpa using h.staged
  · simpa using h.distinct
  · simpa using h.ordered
  · intro hdone hconflict
    rw [settled_staged]
    rcases settled_outcome r with heq | ⟨-, raised, hraised, hboundary⟩
    · rw [heq] at hdone hconflict
      exact h.nothing hdone hconflict
    · apply h.nothing
      · rw [hraised]
        exact fun h => by cases h
      · rw [hraised]
        rintro hconflicting
        cases hconflicting
        cases hboundary
  · intro hsettled
    simpa using h.whole (hok hsettled)

section Ends

variable {refreshing : Refreshing} {s : System} {t : Task} {occasion : Occasion} {call : Call}
  {slot : Slot}

/-- A driver's call is made in the live session of its date. -/
def Live (refreshing : Refreshing) (call : Call) : Prop :=
  call.driven = true →
    (refreshing.classifier.classify call.reference false).marketState = .liveSession ∧
      (refreshing.classifier.classify call.reference false).tradingDate = call.tradingDate

/-- A call that takes no slot. -/
theorem sound_idle {outcome : Except Raised Bool}
    (h : outcome = .ok false ∨ outcome = .error .cancelled) :
    Report.Sound refreshing { call, outcome } where
  live := fun _ hsome => by cases hsome
  slot := fun slot hslot => by cases hslot
  idle := fun _ => ⟨rfl, rfl, h⟩
  staged := fun o ho => by cases ho
  distinct := List.nodup_nil
  ordered := List.Pairwise.nil
  nothing := fun _ _ => rfl
  whole := by
    rintro hdone
    rcases h with rfl | rfl <;> cases hdone

/-- A call that has taken its slot and stages nothing, because it fails. -/
theorem sound_failed (hlive : Live refreshing call) (hslot : slot.reference = call.reference)
    (answer : Option (List SessionStatisticsObservation)) (raised : Raised) :
    Report.Sound refreshing { call, slot, answer, outcome := .error raised } where
  live := fun hdriven _ => hlive hdriven
  slot := fun other hother => by cases hother; exact hslot
  idle := fun hnone => by cases hnone
  staged := fun o ho => by cases ho
  distinct := List.nodup_nil
  ordered := List.Pairwise.nil
  nothing := fun _ _ => rfl
  whole := fun hdone => by cases hdone

/-- A batch that the contract admits. -/
theorem sound_staged {observations staged : List SessionStatisticsObservation}
    (hlive : Live refreshing call) (hslot : slot.reference = call.reference)
    (hvalid : validateSourceResult refreshing.requested call.tradingDate [] observations = true)
    (hbatch : staged <+: sortBy (canonicalKey ∘ SessionStatisticsObservation.instrument) observations)
    {summary : Option RefreshOutcome} {outcome : Except Raised Bool}
    (houtcome : outcome = .error .conflictingObservation ∨ outcome = .ok true ∧
      staged = sortBy (canonicalKey ∘ SessionStatisticsObservation.instrument) observations ∧
      summary = some ⟨call.tradingDate, slot.observedAt, refreshing.requested.length,
        observations.length, observations.length⟩) :
    Report.Sound refreshing { call, slot, answer := observations, staged, summary, outcome } := by
  obtain ⟨hall, hnodup⟩ := (validateSourceResult_iff []).mp hvalid
  have hperm : (sortBy (canonicalKey ∘ SessionStatisticsObservation.instrument) observations).Perm
      observations := sortBy_perm
  have hmem {o : SessionStatisticsObservation} (ho : o ∈ staged) : o ∈ observations :=
    hperm.mem_iff.mp (hbatch.subset ho)
  have hsorted : ((sortBy (canonicalKey ∘ SessionStatisticsObservation.instrument)
      observations).map (·.instrument)).Nodup := (hperm.map _).nodup_iff.mpr hnodup
  constructor
  · exact fun hdriven _ => hlive hdriven
  · rintro other hother
    cases hother
    exact hslot
  · intro hnone
    cases hnone
  · intro o ho
    obtain ⟨hrequested, -, hdate⟩ := hall o (hmem ho)
    exact ⟨hmem ho, mem_deduplicatedOrdered.mp hrequested, hdate⟩
  · exact (hbatch.sublist.map _).nodup hsorted
  · have hordered : (sortBy (canonicalKey ∘ SessionStatisticsObservation.instrument)
        observations).Pairwise fun o o' => canonicalKey o.instrument ≤ canonicalKey o'.instrument :=
      pairwise_sortBy
    exact hordered.sublist hbatch.sublist
  · intro hdone hconflict
    rcases houtcome with rfl | ⟨rfl, -, -⟩
    · exact absurd rfl hconflict
    · exact absurd rfl hdone
  · rintro hdone
    rcases houtcome with rfl | ⟨-, hstaged, hsummary⟩
    · cases hdone
    · have hlength : staged.length = observations.length := by
        rw [hstaged]
        exact hperm.length_eq
      refine ⟨slot, rfl, by rw [hstaged]; exact hperm, by rw [hsummary, hlength], ?_⟩
      -- distinct instruments, all of them requested
      have hsubset : observations.map (·.instrument) ⊆ refreshing.requested := by
        intro i hi
        obtain ⟨o, ho, rfl⟩ := List.mem_map.mp hi
        exact (hall o ho).1
      have hle := (hnodup.subperm hsubset).length_le
      rw [List.length_map] at hle
      exact hlength.trans_le hle

end Ends

/-! ## The engine as the calls one after the other -/

/-- The calls of the engine that the end of a task makes. -/
def Finished.calls : Finished → List TickEngine.Op
  | .refreshed r => r.staged.map stageCall
  | .configured => []
  | .called op => [op]

/-- A call of the engine that is not the staging of the service. -/
def Direct (op : TickEngine.Op) : Prop := ∀ i o, op ≠ .stageSessionStatistics i o

/-- What is known of the engine, of a task on its way and of its end, where `P` is known of the calls of
    the engine that are started. -/
def serial (refreshing : Refreshing) (P : TickEngine.Op → Prop) (engine : TickEngine) :
    Assertions (List TickEngine.Op) System Task Finished where
  grows := (· <+: ·)
  shared log s := s.engine = run TickEngine.step engine log
  task _ _ t :=
    match t with
    | .entering call | .waiting call => Live refreshing call
    | .fetching call slot => Live refreshing call ∧ slot.reference = call.reference
    | .configuring _ => True
    | .calling op => P op
  apart _ _ := True
  result _ r :=
    match r with
    | .refreshed report => report.Sound refreshing
    | .configured => True
    | .called op => P op
  symm := fun _ _ _ => trivial
  refl := List.prefix_refl
  trans := fun _ _ _ => List.IsPrefix.trans
  result_grows := fun _ _ _ _ h => h

/-- The calls that a turn starts meet `P`. -/
def Starts (P : TickEngine.Op → Prop) : Turn Request Occasion → Prop
  | .start _ (.engine op) => P op
  | _ => True

section Serial

variable {refreshing : Refreshing} {P : TickEngine.Op → Prop} {engine : TickEngine}
  {log : List TickEngine.Op} {pool : Pool System Task} {process : ℕ} {call : Call} {slot : Slot}

/-- A step that leaves the engine alone and emits no call of it. -/
theorem kept_quiet (h : (serial refreshing P engine).Hold log pool) {s' : System}
    {progress : Progress Task Finished} (hengine : s'.engine = pool.shared.engine)
    (hrunning : ∀ t, progress = .running t → ∀ log s, (serial refreshing P engine).task log s t)
    (hfinished : ∀ r, progress = .finished r → r.calls = [] ∧
      ∀ log, (serial refreshing P engine).result log r) :
    (serial refreshing P engine).Kept pool
      (log ++ Assertions.emitted Finished.calls (pool.settle process s' progress).2)
      process s' progress := by
  have hlog : log ++ Assertions.emitted Finished.calls (pool.settle process s' progress).2 = log := by
    cases progress with
    | running t => exact List.append_nil log
    | finished r =>
      simp only [Pool.settle, Assertions.emitted, (hfinished r rfl).1, List.append_nil]
  rw [hlog]
  exact ⟨hengine.trans h.memory, fun q u _ hu => h.task q u hu,
    fun t ht => ⟨hrunning t ht log s', fun _ _ _ _ => trivial⟩, fun r hr => (hfinished r hr).2 log⟩

/-- A call that ends without having staged anything. -/
theorem kept_unstaged (h : (serial refreshing P engine).Hold log pool) {s' : System}
    (hengine : s'.engine = pool.shared.engine) {r : Report} (hstaged : r.staged = [])
    (hsound : r.Sound refreshing) :
    (serial refreshing P engine).Kept pool
      (log ++ Assertions.emitted Finished.calls (pool.settle process s' r.finished).2)
      process s' r.finished := by
  apply kept_quiet h hengine
  · intro t ht
    cases ht
  · intro f hf
    cases hf
    refine ⟨?_, fun _ => hsound.settled⟩
    simp only [Finished.calls, settled_staged, hstaged, List.map_nil]

theorem kept_underLock (h : (serial refreshing P engine).Hold log pool) (now : Int)
    (hlive : Live refreshing call) :
    (serial refreshing P engine).Kept pool
      (log ++ Assertions.emitted Finished.calls (pool.settle process
        (refreshing.underLock now call pool.shared).1 (refreshing.underLock now call pool.shared).2).2)
      process (refreshing.underLock now call pool.shared).1
      (refreshing.underLock now call pool.shared).2 := by
  unfold Refreshing.underLock
  split
  · dsimp only
    split
    · rename_i hempty
      apply kept_unstaged h
      · rfl
      · rfl
      refine ⟨fun hdriven _ => hlive hdriven, ?_, fun hnone => (by cases hnone),
        fun o ho => (by cases ho), List.nodup_nil, List.Pairwise.nil, fun _ _ => rfl, ?_⟩
      · intro slot hslot
        cases hslot
        rfl
      · intro _
        refine ⟨_, rfl, List.Perm.nil, ?_, Nat.zero_le _⟩
        rw [hempty]
        rfl
    · apply kept_quiet h
      · rfl
      · intro t ht _ _
        cases ht
        exact ⟨hlive, rfl⟩
      · intro r hr
        cases hr
  · exact kept_unstaged h rfl rfl (sound_idle (.inl rfl))

/-- A step that ends a refresh whose batch the contract admits makes the calls that it emits. -/
theorem kept_answered (h : (serial refreshing P engine).Hold log pool)
    (hlive : Live refreshing call) (hslot : slot.reference = call.reference)
    (answer : Except SourceFailure (List SessionStatisticsObservation)) :
    (serial refreshing P engine).Kept pool
      (log ++ Assertions.emitted Finished.calls (pool.settle process
        (refreshing.answered answer call slot pool.shared).1
        (refreshing.answered answer call slot pool.shared).2).2)
      process (refreshing.answered answer call slot pool.shared).1
      (refreshing.answered answer call slot pool.shared).2 := by
  unfold Refreshing.answered
  cases answer with
  | error failure =>
    dsimp only
    exact kept_unstaged h (by rfl) rfl (sound_failed hlive hslot none _)
  | ok observations =>
    dsimp only
    split
    · rename_i hvalid
      obtain ⟨hrun, hprefix, hwhole, -⟩ := stageAll_spec
        (sortBy (canonicalKey ∘ SessionStatisticsObservation.instrument) observations)
        pool.shared.engine
      have hsettled (r : Report) (hstaged : r.staged = (stageAll pool.shared.engine
          (sortBy (canonicalKey ∘ SessionStatisticsObservation.instrument) observations)).2.1)
          (hsound : r.Sound refreshing) (s' : System)
          (hengine : s'.engine = (stageAll pool.shared.engine
            (sortBy (canonicalKey ∘ SessionStatisticsObservation.instrument) observations)).1) :
          (serial refreshing P engine).Kept pool
            (log ++ Assertions.emitted Finished.calls (pool.settle process s' r.finished).2)
            process s' r.finished := by
        simp only [Report.finished, Pool.settle, Assertions.emitted, Finished.calls, settled_staged,
          hstaged]
        refine ⟨?_, fun q u _ hu => h.task q u hu, fun t ht => (by cases ht), ?_⟩
        · change s'.engine = _
          rw [hengine, hrun, run_append, ← h.memory]
        · intro f hf
          cases hf
          exact hsound.settled
      split
      · rename_i hended
        exact hsettled _ rfl (sound_staged hlive hslot hvalid hprefix
          (.inr ⟨rfl, hwhole hended, rfl⟩)) _ rfl
      · exact hsettled _ rfl (sound_staged hlive hslot hvalid hprefix (.inl rfl)) _ rfl
    · exact kept_unstaged h (by rfl) rfl (sound_failed hlive hslot (some observations) _)

theorem serial_logged (refreshing : Refreshing) (P : TickEngine.Op → Prop) (engine : TickEngine) :
    Assertions.Logged (serial refreshing P engine) refreshing.program Finished.calls
      fun _ turn => Starts P turn where
  grows := List.prefix_append
  start := by
    intro log pool process request h _ hstarts
    cases request with
    | refreshIfDue reference tradingDate =>
      apply kept_quiet h rfl
      · intro t ht _ _
        cases ht
        exact fun hdriven => by cases hdriven
      · intro r hr
        cases hr
    | cycle reference =>
      simp only [Refreshing.program, Refreshing.start]
      split
      · exact kept_unstaged h rfl rfl (sound_idle (.inl rfl))
      · rename_i hlive
        apply kept_quiet h rfl
        · intro t ht _ _
          cases ht
          exact fun _ => ⟨not_not.mp hlive, rfl⟩
        · intro r hr
          cases hr
    | configure maxAge =>
      apply kept_quiet h rfl
      · intro t ht _ _
        cases ht
        exact trivial
      · intro r hr
        cases hr
    | engine op =>
      apply kept_quiet h rfl
      · intro t ht _ _
        cases ht
        exact hstarts
      · intro r hr
        cases hr
  advance := by
    intro log pool process occasion t h ht _
    have hknown := h.task process t ht
    cases t with
    | entering call =>
      simp only [Refreshing.program, Refreshing.advance]
      split
      · exact kept_unstaged h rfl rfl (sound_idle (.inr rfl))
      · split
        · split
          · apply kept_quiet h rfl
            · intro t' ht' _ _
              cases ht'
              exact hknown
            · intro r hr
              cases hr
          · exact kept_underLock h occasion.now hknown
        · exact kept_unstaged h rfl rfl (sound_idle (.inl rfl))
    | waiting call =>
      simp only [Refreshing.program, Refreshing.advance]
      split
      · exact kept_unstaged h rfl rfl (sound_idle (.inr rfl))
      · split
        · apply kept_quiet h rfl
          · intro t' ht' _ _
            cases ht'
            exact hknown
          · intro r hr
            cases hr
        · exact kept_underLock h occasion.now hknown
    | fetching call slot =>
      simp only [Refreshing.program, Refreshing.advance]
      split
      · exact kept_unstaged h (by rfl) rfl (sound_failed hknown.1 hknown.2 none .cancelled)
      · exact kept_answered h hknown.1 hknown.2 occasion.answer
    | configuring maxAge =>
      apply kept_quiet h
      · rfl
      · intro t' ht'
        cases ht'
      · intro r hr
        cases hr
        exact ⟨rfl, fun _ => trivial⟩
    | calling op =>
      simp only [Refreshing.program, Refreshing.advance, Pool.settle, Assertions.emitted,
        Finished.calls]
      refine ⟨?_, fun q u _ hu => h.task q u hu, fun t' ht' => (by cases ht'), ?_⟩
      · change (pool.shared.engine.step op).1 = _
        rw [run_concat, ← h.memory]
      · intro r hr
        cases hr
        exact hknown

theorem serial_idle (refreshing : Refreshing) (P : TickEngine.Op → Prop) (engine : TickEngine) :
    (serial refreshing P engine).Hold [] (idle engine) where
  memory := rfl
  task := fun p t ht => by cases ht
  apart := fun p q t u _ ht => by cases ht

end Serial

/-- **Refreshes are atomic on the engine.**  However drivers, direct calls and calls of the engine
    interleave, fail or are cancelled, the engine ends where the calls of the engine and the staged
    batches lead one after the other, in the order in which their tasks ended, and every call of the
    coordinator has staged and answered what a sound one may. -/
theorem refreshes_serialize (refreshing : Refreshing) (engine : TickEngine)
    (turns : List (Turn Request Occasion)) :
    let ended := outs refreshing.program.step (idle engine) turns
    (run refreshing.program.step (idle engine) turns).shared.engine =
        run TickEngine.step engine (ended.flatMap (Assertions.emitted Finished.calls)) ∧
      ∀ p report, some (p, .refreshed report) ∈ ended → report.Sound refreshing := by
  intro ended
  have hturns : Along refreshing.program.step (fun _ turn => Starts (fun _ => True) turn)
      (idle engine) turns := by
    refine along_of_invariant (I := fun _ => True) (fun _ _ _ => trivial) ?_ turns trivial
    intro pool turn _
    unfold Starts
    split <;> trivial
  obtain ⟨hold, hresults⟩ :=
    (serial_logged refreshing (fun _ => True) engine).run hturns (serial_idle refreshing _ engine)
  rw [List.nil_append] at hold hresults
  exact ⟨hold.memory, fun p report hreport => hresults p _ hreport⟩

/-- An observation that is staged in a run whose own calls stage none was staged by a refresh. -/
theorem mem_calls_staged {ended : List (Option (ℕ × Finished))}
    (hdirect : ∀ p op, some (p, .called op) ∈ ended → Direct op) {i : Instrument}
    {o : SessionStatisticsObservation}
    (h : .stageSessionStatistics i o ∈ ended.flatMap (Assertions.emitted Finished.calls)) :
    ∃ p report, some (p, .refreshed report) ∈ ended ∧ o ∈ report.staged ∧ o.instrument = i := by
  obtain ⟨out, hout, hmem⟩ := List.mem_flatMap.mp h
  cases out with
  | none => cases hmem
  | some entry =>
    obtain ⟨p, finished⟩ := entry
    cases finished with
    | refreshed report =>
      obtain ⟨o', ho', heq⟩ := List.mem_map.mp hmem
      cases heq
      exact ⟨p, report, hout, ho', rfl⟩
    | configured => cases hmem
    | called op =>
      cases List.mem_singleton.mp hmem
      exact absurd rfl (hdirect p _ hout i o)

/-- **Statistics come from a refresh.**  In an engine that trusts staged observations and not the
    aggregates of ticks, with nobody staging besides the service, the statistics of an instrument are
    those of one observation of it that the source returned to one refresh, for the date it asked for;
    a driver asked for it in the live session of that date. -/
theorem statistics_from_refresh (refreshing : Refreshing) (known : List Instrument)
    (session : Option MarketSessionClassifier) (candles : Option CandleEngine)
    (authority : SessionStatisticsAuthority) (hticks : authority.tickAggregateVerified = false)
    (turns : List (Turn Request Occasion)) (hturns : ∀ turn ∈ turns, Starts Direct turn)
    {i : Instrument} {s : SessionStatistics} :
    let engine := TickEngine.create known session candles authority
    ((run refreshing.program.step (idle engine) turns).shared.engine.stateOf i).sessionStatistics =
        some s →
      ∃ p report o, some (p, .refreshed report) ∈ outs refreshing.program.step (idle engine) turns ∧
        report.Sound refreshing ∧ o ∈ report.staged ∧ o.instrument = i ∧
        s = candidateOf o.sessionOhlc o.observedAt report.call.tradingDate := by
  intro engine hs
  have halong : Along refreshing.program.step (fun _ turn => Starts Direct turn) (idle engine)
      turns := by
    rw [along_iff_forall]
    rintro pre turn post rfl
    exact hturns turn (by simp)
  obtain ⟨hold, hresults⟩ :=
    (serial_logged refreshing Direct engine).run halong (serial_idle refreshing _ engine)
  rw [List.nil_append] at hold hresults
  rw [hold.memory] at hs
  -- the statistics were supplied by an accepted datum, from the slot of the instrument
  obtain ⟨pre, op, post, hops, hsupplied⟩ :=
    run_origin (fun e : TickEngine => (e.stateOf i).sessionStatistics) (TickEngine.Supplies i)
      (fun e op s h => TickEngine.step_statistics_source h) rfl _ hs
  obtain ⟨d, now, observedAt, bus, classified, aggregate, asOf, -, -, -, -, rfl, hsource⟩ := hsupplied
  have hauthority : (run TickEngine.step engine pre).authority = authority :=
    run_invariant (I := fun e => e.authority = authority)
      (fun e op h => (TickEngine.step_settings e op).2.1.trans h) pre rfl
  rcases hsource with ⟨hverified, -⟩ | ⟨-, o, hslot, hdate, rfl, rfl⟩
  · rw [hauthority, hticks] at hverified
    cases hverified
  · obtain ⟨before, staging, after, rfl, rfl⟩ :=
      run_origin (fun e : TickEngine => (e.stateOf i).stagedSessionStatisticsObservation)
        (fun _ op o => op = .stageSessionStatistics i o)
        (fun e op o h => TickEngine.step_slot_source h) rfl pre hslot
    have hmem : .stageSessionStatistics i o ∈ (outs refreshing.program.step (idle engine)
        turns).flatMap (Assertions.emitted Finished.calls) := by
      rw [hops]
      simp
    obtain ⟨p, report, hreport, ho, hinstrument⟩ :=
      mem_calls_staged (fun p op hop => hresults p (.called op) hop) hmem
    have hsound : report.Sound refreshing := hresults p (.refreshed report) hreport
    refine ⟨p, report, o, hreport, hsound, ho, hinstrument, ?_⟩
    rw [← hdate, (hsound.staged o ho).2.2]

/-- An observation of the morning of 2024-10-04. -/
def morningObservation : SessionStatisticsObservation where
  instrument := reliance
  tradingDate := 20000
  observedAt := 20000 * day + 226 * minute
  sessionOhlc := TickEngine.risenAggregate (rupees 100) (rupees 110) TickEngine.hundred_le

/-- What happens where nothing is cancelled: the clock, and the source's answer. -/
def plain (observations : List SessionStatisticsObservation) : Occasion where
  cancelled := false
  now := 20000 * day + 226 * minute
  answer := .ok observations

/-- A driver's cycle with a demand configured, and a tick after it. -/
def morningTurns : List (Turn Request Occasion) :=
  [.start 0 (.configure (some minute)), .advance 0 (plain []),
    .start 1 (.cycle (20000 * day + 226 * minute)), .advance 1 (plain []),
    .advance 1 (plain [morningObservation]), .start 2 (.engine TickEngine.aggregateTick),
    .advance 2 (plain [])]

theorem morning_statistics_from_refresh :
    let refreshing : Refreshing := ⟨[reliance], nseClassifier⟩
    let engine := TickEngine.create [reliance] (some nseClassifier) none
      { stagedObservationVerified := true }
    ∃ p report o, some (p, .refreshed report) ∈
        outs refreshing.program.step (idle engine) morningTurns ∧
      report.Sound refreshing ∧ o ∈ report.staged ∧ o.instrument = reliance ∧
      candidateOf morningObservation.sessionOhlc morningObservation.observedAt 20000 =
        candidateOf o.sessionOhlc o.observedAt report.call.tradingDate := by
  refine statistics_from_refresh ⟨[reliance], nseClassifier⟩ [reliance] (some nseClassifier) none
    { stagedObservationVerified := true } rfl morningTurns ?_ rfl
  intro turn hturn
  simp only [morningTurns, List.mem_cons, List.not_mem_nil, or_false] at hturn
  rcases hturn with rfl | rfl | rfl | rfl | rfl | rfl | rfl <;> try trivial
  intro i o h
  cases h

end ApexScan.StatisticsRefresh
