import ApexScan.Adapters.Dhan.Bookkeeping
import ApexScan.Adapters.Dhan.Continuity
import ApexScan.Engine.ContinuityTaint

/-!
# Gaps between ingestion runs

`LiveMarketRuntime._supervise_ingestion` consumes one stream of the adapter after another.  Between two of
them the feed is not subscribed, and the candle engine knows of that only what the adapter tells it.

* `Op`, `step` — the supervisor's runs, the other consumers of the adapter and the candle engine, which
  receives every continuity fact.
* `candles_eq`, `outs_numbered`, `later_runs` — the engine has had the operations of the log, and the runs
  that dispatched its ticks are numbered in order.
* `DropsSocket` — a reconnect that starts with an open socket; its exhaustion may end the run.
* `LossTold` — the loss stands in the log between the runs, and marks the candles.

Main result: `dropped_socket_is_told`.  `silent_gap_between_runs` is a run ended by an exception of
`_dispatch`, and one ended by the adapter whose open candle is no feed gap.

The waits of the supervisor are left out: they say when a run begins.
-/

set_option autoImplicit false

namespace ApexScan.FeedGaps

open Lib CandleEngine ContinuityTaint Dhan

/-! ## The runs -/

/-- What ends an ingestion run; its generator is closed, which unregisters the consumer. -/
inductive Ending where
  | returned
  /-- `TickEngine.process` or a subscriber raises. -/
  | dispatchRaised
  /-- The adapter raises without having reconnected. -/
  | adapterRaised
  /-- The adapter raises after a reconnect none of whose attempts succeeded. -/
  | reconnectExhausted (attempts : List Provider)

/-- What can happen between the supervisor, the adapter and the engine. -/
inductive Op where
  /-- A run begins: its stream registers a consumer. -/
  | start (request : SubscriptionRequest) (cashReferences : List DhanInstrumentReference)
      (provider : Provider) (observedAt : Int)
  /-- The run dispatches a tick that the engine accepts. -/
  | dispatch (tick : Tick) (session : SessionContext)
  | finish (ending : Ending) (provider : Provider) (observedAt : Int)
  /-- Another consumer of the adapter. -/
  | feed (op : LiveFeed.Op) (observedAt : Int)
  | flush (atTime : Int)
  | reconcile (authoritative : Candle) (timeframe : Timeframe)
  | setRequiredTimeframes (timeframes : List Timeframe)

/-- The adapter's live state, the candle engine, and the sequence number of the consumer of the run. -/
structure State where
  feed : LiveFeed := {}
  candles : CandleEngine
  run : Option ℕ := none

/-- An operation of the candle engine, with the run that dispatched it. -/
structure Entry where
  run : Option ℕ := none
  op : CandleEngine.Op

/-- The engine is told of a loss. -/
def Entry.isLoss (entry : Entry) : Bool :=
  match entry.op with
  | .recordContinuity event => isContinuityLoss event.status
  | _ => false

/-- The continuity facts, as the sink passes them on. -/
def told (facts : List FeedContinuity) (observedAt : Int) : List Entry :=
  facts.map fun status => { op := .recordContinuity ⟨status, observedAt⟩ }

/-- The consumer of the run is unregistered by its own stream alone. -/
def isOwn (run : Option ℕ) : LiveFeed.Op → Bool
  | .unregister sequence _ => decide (run = some sequence)
  | _ => false

/-- What an operation comes to: the adapter and the run after it, and what the engine is given. -/
def effect (s : State) : Op → LiveFeed × Option ℕ × List Entry
  | .start request cashReferences provider observedAt =>
    match s.run with
    | some _ => (s.feed, s.run, [])
    | none =>
      let register := .register request cashReferences provider
      ((s.feed.step register).1,
        if (s.feed.step register).2 = none then some s.feed.liveConsumerSequence else none,
        told (s.feed.facts register) observedAt)
  | .dispatch tick session =>
    match s.run with
    | some n => (s.feed, some n, [{ run := some n, op := .update tick session }])
    | none => (s.feed, none, [])
  | .finish ending provider observedAt =>
    match s.run, ending with
    | none, _ => (s.feed, none, [])
    | some n, .reconnectExhausted attempts =>
      let reconnected := s.feed.step (.reconnect attempts)
      let facts := told (s.feed.facts (.reconnect attempts)) observedAt
      match reconnected.2 with
      -- an attempt succeeded: the run goes on
      | none => (reconnected.1, some n, facts)
      | some _ => ((reconnected.1.step (.unregister n provider)).1, none, facts)
    | some n, _ => ((s.feed.step (.unregister n provider)).1, none, [])
  | .feed op observedAt =>
    if isOwn s.run op then (s.feed, s.run, [])
    else ((s.feed.step op).1, s.run, told (s.feed.facts op) observedAt)
  | .flush atTime => (s.feed, s.run, [{ op := .flush atTime }])
  | .reconcile authoritative timeframe =>
    (s.feed, s.run, [{ op := .reconcile authoritative timeframe }])
  | .setRequiredTimeframes timeframes =>
    (s.feed, s.run, [{ op := .setRequiredTimeframes timeframes }])

/-- One operation; the engine executes what it is given. -/
def step (s : State) (op : Op) : State × List Entry :=
  ({ feed := (effect s op).1
     run := (effect s op).2.1
     candles := Lib.run CandleEngine.step s.candles ((effect s op).2.2.map (·.op)) },
    (effect s op).2.2)

/-- What the engine is given along a run. -/
def log (s : State) (ops : List Op) : List Entry := (outs step s ops).flatten

theorem log_cons (s : State) (op : Op) (ops : List Op) :
    log s (op :: ops) = (step s op).2 ++ log (step s op).1 ops := rfl

theorem log_append (s : State) (xs ys : List Op) :
    log s (xs ++ ys) = log s xs ++ log (run step s xs) ys := by
  unfold log
  rw [outs_append, List.flatten_append]

/-- The engine has executed the log. -/
theorem candles_eq (s : State) (ops : List Op) :
    (run step s ops).candles = run CandleEngine.step s.candles ((log s ops).map (·.op)) := by
  induction ops generalizing s with
  | nil => rfl
  | cons op ops ih =>
    rw [run_cons, ih, log_cons, List.map_append, run_append]
    rfl

/-! ## Runs in order -/

/-- A registration takes the next sequence number, and nothing else does. -/
theorem step_sequence (s : LiveFeed) (op : LiveFeed.Op) :
    (s.step op).1.liveConsumerSequence =
      match op with
      | .register _ _ _ => s.liveConsumerSequence + 1
      | _ => s.liveConsumerSequence := by
  cases op with
  | register request cashReferences provider =>
    obtain ⟨connection, ⟨plan, -, h⟩ | ⟨old, -, h⟩⟩ :=
      s.register_books request cashReferences provider
    · exact congrArg LiveFeed.liveConsumerSequence h
    · exact congrArg LiveFeed.liveConsumerSequence h
  | unregister sequence provider =>
    simp only [LiveFeed.step]
    split
    · rfl
    · unfold LiveFeed.unregister
      simp only
      split
      · rfl
      · split <;> rfl
  | reconnect attempts => rfl
  | disconnect provider => rfl

/-- What an operation does to the runs: it begins the next one, ends the current one or leaves it, and only
    the current one dispatches. -/
structure Moves (s s' : State) (entries : List Entry) : Prop where
  sequence : s.feed.liveConsumerSequence ≤ s'.feed.liveConsumerSequence
  run : ∀ n ∈ s'.run, s.run = some n ∨
    (n = s.feed.liveConsumerSequence ∧ n < s'.feed.liveConsumerSequence)
  dispatched : ∀ entry ∈ entries, ∀ n ∈ entry.run, s.run = some n

theorem told_run {facts : List FeedContinuity} {observedAt : Int} :
    ∀ entry ∈ told facts observedAt, entry.run = none := by
  intro entry h
  obtain ⟨status, -, rfl⟩ := List.mem_map.mp h
  rfl

section Moves

variable {s s' : State} {entries : List Entry}

/-- The run goes on or ends, and dispatches nothing. -/
theorem Moves.silent (hsequence : s.feed.liveConsumerSequence ≤ s'.feed.liveConsumerSequence)
    (hrun : s'.run = s.run ∨ s'.run = none) (hsilent : ∀ entry ∈ entries, entry.run = none) :
    Moves s s' entries := by
  refine ⟨hsequence, fun n hn => Or.inl ?_, fun entry hentry n hn => ?_⟩
  · rcases hrun with h | h
    · exact h ▸ hn
    · rw [h] at hn
      cases hn
  · rw [hsilent entry hentry] at hn
    cases hn

theorem sequence_le (s : LiveFeed) (op : LiveFeed.Op) :
    s.liveConsumerSequence ≤ (s.step op).1.liveConsumerSequence := by
  rw [step_sequence]
  cases op <;> simp

theorem step_moves (s : State) (op : Op) : Moves s (step s op).1 (step s op).2 := by
  unfold step
  cases op with
  | start request cashReferences provider observedAt =>
    cases hrun : s.run with
    | some n =>
      simp only [effect, hrun]
      exact .silent (Nat.le_refl _) (Or.inl hrun.symm) (by simp)
    | none =>
      simp only [effect, hrun]
      refine ⟨sequence_le _ _, fun n hn => Or.inr ?_, fun entry hentry n hn => ?_⟩
      · simp only [Option.mem_def, Option.ite_none_right_eq_some, Option.some.injEq] at hn
        obtain ⟨-, rfl⟩ := hn
        refine ⟨rfl, ?_⟩
        rw [step_sequence]
        exact Nat.lt_succ_self _
      · rw [told_run entry hentry] at hn
        cases hn
  | dispatch tick session =>
    cases hrun : s.run with
    | none =>
      simp only [effect, hrun]
      exact .silent (Nat.le_refl _) (Or.inr rfl) (by simp)
    | some n =>
      simp only [effect, hrun]
      refine ⟨Nat.le_refl _, fun k hk => Or.inl (hrun.trans hk), fun entry hentry k hk => ?_⟩
      rw [List.mem_singleton.mp hentry] at hk
      exact hrun.trans hk
  | finish ending provider observedAt =>
    cases hrun : s.run with
    | none =>
      simp only [effect, hrun]
      exact .silent (Nat.le_refl _) (Or.inr rfl) (by simp)
    | some n =>
      cases ending with
      | reconnectExhausted attempts =>
        simp only [effect, hrun]
        split
        · exact .silent (sequence_le _ _) (Or.inl hrun.symm) told_run
        · exact .silent ((sequence_le _ _).trans (sequence_le _ _)) (Or.inr rfl) told_run
      | returned | dispatchRaised | adapterRaised =>
        simp only [effect, hrun]
        exact .silent (sequence_le _ _) (Or.inr rfl) (by simp)
  | feed op observedAt =>
    simp only [effect]
    split
    · exact .silent (Nat.le_refl _) (Or.inl rfl) (by simp)
    · exact .silent (sequence_le _ _) (Or.inl rfl) told_run
  | flush atTime => exact .silent (Nat.le_refl _) (Or.inl rfl) (by simp [effect])
  | reconcile authoritative timeframe =>
    exact .silent (Nat.le_refl _) (Or.inl rfl) (by simp [effect])
  | setRequiredTimeframes timeframes =>
    exact .silent (Nat.le_refl _) (Or.inl rfl) (by simp [effect])

end Moves

/-- The run is that of the last consumer registered for one, and no later run has dispatched. -/
structure Numbered (s : State) (entries : List Entry) : Prop where
  current : ∀ n ∈ s.run, n < s.feed.liveConsumerSequence
  past : ∀ entry ∈ entries, ∀ m ∈ entry.run,
    m < s.feed.liveConsumerSequence ∧ ∀ n ∈ s.run, m ≤ n

theorem Numbered.step {s : State} {entries : List Entry} (h : Numbered s entries) (op : Op) :
    Numbered (step s op).1 (entries ++ (FeedGaps.step s op).2) := by
  have hmoves := step_moves s op
  refine ⟨fun n hn => ?_, fun entry hentry m hm => ?_⟩
  · rcases hmoves.run n hn with hrun | ⟨-, hlt⟩
    · exact (h.current n hrun).trans_le hmoves.sequence
    · exact hlt
  · have hpast : m < s.feed.liveConsumerSequence ∧ ∀ n ∈ s.run, m ≤ n := by
      rcases List.mem_append.mp hentry with hmem | hmem
      · exact h.past entry hmem m hm
      · have hrun := hmoves.dispatched entry hmem m hm
        refine ⟨h.current m hrun, fun n hn => ?_⟩
        rw [hrun] at hn
        cases hn
        exact Nat.le_refl _
    refine ⟨hpast.1.trans_le hmoves.sequence, fun n hn => ?_⟩
    rcases hmoves.run n hn with hrun | ⟨rfl, -⟩
    · exact hpast.2 n hrun
    · exact hpast.1.le

/-- **In every run of the system the ingestion runs are numbered in order.** -/
theorem run_numbered (e : CandleEngine) (ops : List Op) :
    Numbered (run step { candles := e } ops) (log { candles := e } ops) := by
  induction ops using List.reverseRecOn with
  | nil =>
    refine ⟨fun n hn => ?_, fun entry hentry => ?_⟩
    · cases hn
    · cases hentry
  | append_singleton ops op ih =>
    rw [run_concat, log_append, log_cons]
    have hnil : log (FeedGaps.step (run FeedGaps.step { candles := e } ops) op).1 [] = [] := rfl
    rw [hnil, List.append_nil]
    exact ih.step op

/-- After a run has ended, later ones alone dispatch. -/
theorem later_runs {s : State} {n : ℕ} (hn : n < s.feed.liveConsumerSequence)
    (hrun : ∀ k ∈ s.run, n < k) (ops : List Op) : ∀ entry ∈ log s ops, ∀ m ∈ entry.run, n < m := by
  induction ops generalizing s with
  | nil => exact fun entry hentry => nomatch hentry
  | cons op ops ih =>
    have hmoves := step_moves s op
    intro entry hentry m hm
    rw [log_cons] at hentry
    rcases List.mem_append.mp hentry with hmem | hmem
    · exact hrun m (hmoves.dispatched entry hmem m hm)
    · refine ih (hn.trans_le hmoves.sequence) (fun k hk => ?_) entry hmem m hm
      rcases hmoves.run k hk with h | ⟨rfl, -⟩
      · exact hrun k h
      · exact hn

/-! ## What a loss does to the candles -/

section Candles

variable {e : CandleEngine} {i : Instrument} {tf : Timeframe} {d : Int}

/-- The stream's bucket has had a loss. -/
def BrokenBucket (st : TimeframeState) : Prop :=
  ∃ b, st.partialBucket = some b ∧ b.ohlcBroken = true

theorem applyTick_ohlcBroken (b : Bucket) (t : Tick) :
    (b.applyTick t).ohlcBroken = b.ohlcBroken := by
  rw [Bucket.applyTick_eq]

theorem keeps_broken {op : CandleEngine.Op} (h : ∃ st, e.states.get (i, tf) = some st ∧ BrokenBucket st)
    (hkeeps : Keeps e i tf op) :
    ∃ st, (CandleEngine.step e op).1.states.get (i, tf) = some st ∧ BrokenBucket st := by
  obtain ⟨st, hst, hbroken⟩ := h
  apply keeps_bucket (fun b t hb => ?_) (fun b _ => rfl) hst hbroken hkeeps
  rw [applyTick_ohlcBroken]
  exact hb

/-- A bucket that has had a loss is finalized with it. -/
theorem closes_broken {op : CandleEngine.Op}
    (h : ∃ st, e.states.get (i, tf) = some st ∧ BrokenBucket st) {c : IncompleteCandle}
    (hc : closes e i tf op = some c) : c.quality = .incompleteOhlc ∨ c.quality = .feedGap := by
  obtain ⟨st, hst, b, hb, hbroken⟩ := h
  have hfor : e.stateFor i tf = st := by simp [stateFor, hst]
  simp only [closes, hfor, hb, Option.ite_none_right_eq_some, Option.some.injEq] at hc
  rw [← hc.2]
  simp only [Bucket.toIncomplete, Bucket.qualityFor, hbroken, if_true]
  cases b.feedGap with
  | true => exact Or.inr rfl
  | false => exact Or.inl rfl

theorem recordContinuity_get (event : FeedContinuityEvent) {st : TimeframeState}
    (hst : e.states.get (i, tf) = some st) :
    (CandleEngine.step e (.recordContinuity event)).1.states.get (i, tf) = some
      (if isContinuityLoss event.status then
        { st with partialBucket := st.partialBucket.map ({ · with ohlcBroken := true }) } else st) := by
  simp only [CandleEngine.step, recordContinuity]
  split
  · rw [Dict.get_mapItems, hst]
    rfl
  · exact hst

/-- A loss breaks the open buckets. -/
theorem loss_breaks {event : FeedContinuityEvent} (hloss : isContinuityLoss event.status = true)
    {st : TimeframeState} (hst : e.states.get (i, tf) = some st) (hopen : st.partialBucket ≠ none) :
    ∃ st', (CandleEngine.step e (.recordContinuity event)).1.states.get (i, tf) = some st' ∧
      BrokenBucket st' := by
  obtain ⟨b, hb⟩ := Option.ne_none_iff_exists'.mp hopen
  refine ⟨_, recordContinuity_get event hst, ?_⟩
  rw [if_pos hloss, hb]
  exact ⟨_, rfl, rfl⟩

/-- Further facts leave the open buckets and the dates. -/
theorem keeps_recordContinuity (event : FeedContinuityEvent)
    (h : (e.states.get (i, tf)).isSome = true) : Keeps e i tf (.recordContinuity event) := by
  obtain ⟨st, hst⟩ := Option.isSome_iff_exists.mp h
  refine ⟨?_, ?_⟩
  · unfold closes
    simp only [opens, Bool.false_eq_true, if_false]
    split <;> rfl
  · rw [recordContinuity_get event hst]
    rfl

theorem settled_recordContinuity (event : FeedContinuityEvent) :
    Settled i d e (.recordContinuity event) := by
  refine ⟨fun d' hd' => ?_, fun hlive => ?_⟩
  · cases hd'
  · cases hlive

theorem told_breaks {observedAt : Int} (facts : List FeedContinuity)
    (h : ∃ st, e.states.get (i, tf) = some st ∧ BrokenBucket st) :
    ∃ st, (run CandleEngine.step e ((told facts observedAt).map (·.op))).states.get (i, tf) =
      some st ∧ BrokenBucket st := by
  induction facts generalizing e with
  | nil => exact h
  | cons status facts ih =>
    apply ih
    apply keeps_broken h
    apply keeps_recordContinuity
    obtain ⟨st, hst, -⟩ := h
    rw [hst]
    rfl

theorem told_tainted {observedAt : Int} (facts : List FeedContinuity) (h : Tainted i d e) :
    Tainted i d (run CandleEngine.step e ((told facts observedAt).map (·.op))) := by
  induction facts generalizing e with
  | nil => exact h
  | cons status facts ih => exact ih (step_tainted h (settled_recordContinuity _))

end Candles

/-! ## Main result -/

/-- The adapter reconnects from an open socket: for a consumer that goes on, or for one that does not and
    whose run the supervisor ends. -/
def DropsSocket (s : State) : Op → Prop
  | .feed (.reconnect _) _ => s.feed.connection.socket = true
  | .finish (.reconnectExhausted _) _ _ =>
    s.run.isSome = true ∧ s.feed.connection.socket = true
  | _ => False

/-- **The engine is told of a loss**: `earlier` is what it was given before the operation, `entries` in it
    and `later` after it. -/
structure LossTold (s s' : State) (earlier entries later : List Entry) : Prop where
  told : ∃ entry ∈ entries, entry.isLoss = true
  /-- Where a run ends, the loss comes after its last tick and before the first one of a later run. -/
  between : ∀ n, s.run = some n → s'.run = none →
    (∀ entry ∈ earlier, ∀ m ∈ entry.run, m ≤ n) ∧ (∀ entry ∈ entries, entry.run = none) ∧
      ∀ entry ∈ later, ∀ m ∈ entry.run, n < m
  /-- Whatever the engine is given later, a candle that is open at the loss is finalized with incomplete
      prices or as a feed gap. -/
  openCandles : ∀ i tf st, s.candles.states.get (i, tf) = some st → st.partialBucket ≠ none →
    ∀ quiet closing c, Along CandleEngine.step (fun e op => Keeps e i tf op) s'.candles quiet →
      closes (run CandleEngine.step s'.candles quiet) i tf closing = some c →
      c.quality = .incompleteOhlc ∨ c.quality = .feedGap
  /-- A candle opened later is a feed gap, while the instrument's live ticks stay on the date and find
      their streams. -/
  laterCandles : ∀ i tf₀ st d, s.candles.states.get (i, tf₀) = some st → st.tradingDate = some d →
    ∀ tf settled opening quiet closing c,
      Along CandleEngine.step (Settled i d) s'.candles (settled ++ [opening]) →
      opens (run CandleEngine.step s'.candles settled) i tf opening = true →
      Along CandleEngine.step (fun e op => Keeps e i tf op)
        (run CandleEngine.step s'.candles (settled ++ [opening])) quiet →
      closes (run CandleEngine.step s'.candles (settled ++ [opening] ++ quiet)) i tf closing = some c →
      c.quality = .feedGap ∧ c.tradedQuantity = none

/-- An operation that drops a socket tells of the loss first. -/
theorem drops_entries {s : State} {op : Op} (h : DropsSocket s op) :
    ∃ facts observedAt, (step s op).2 = told (.continuityLost :: facts) observedAt := by
  cases op with
  | feed op observedAt =>
    cases op with
    | reconnect attempts =>
      obtain ⟨rest, hfacts⟩ := facts_reconnect h attempts
      refine ⟨rest, observedAt, ?_⟩
      simp only [step, effect, isOwn, Bool.false_eq_true, if_false, hfacts]
    | register _ _ _ => cases h
    | unregister _ _ => cases h
    | disconnect _ => cases h
  | finish ending provider observedAt =>
    cases ending with
    | reconnectExhausted attempts =>
      obtain ⟨hrun, hsocket⟩ := h
      obtain ⟨n, hn⟩ := Option.isSome_iff_exists.mp hrun
      obtain ⟨rest, hfacts⟩ := facts_reconnect hsocket attempts
      refine ⟨rest, observedAt, ?_⟩
      simp only [step, effect, hn, hfacts]
      split <;> rfl
    | returned => cases h
    | dispatchRaised => cases h
    | adapterRaised => cases h
  | start _ _ _ _ => cases h
  | dispatch _ _ => cases h
  | flush _ => cases h
  | reconcile _ _ => cases h
  | setRequiredTimeframes _ => cases h

theorem run_agree {schedule : SessionSchedule} {timezone : ZoneInfo} {timeframes : List Timeframe}
    {window : ℕ} {e₀ : CandleEngine} (hcreate : create schedule timezone timeframes window = some e₀)
    (ops : List Op) : StreamsAgree (run step { candles := e₀ } ops).candles := by
  rw [candles_eq]
  exact run_invariant (I := StreamsAgree) (fun _ op h => step_agree h op) _ (create_agree hcreate)

/-- **No feed gap is silent where the adapter drops its socket**, in every run of the supervised
    ingestion over the adapter with any other consumers: a reconnect from an open socket tells the engine
    of a loss, after the last tick of the run that it ends and before the first tick of a later one; the
    candles that are open then, and those opened later on the date, are marked. -/
theorem dropped_socket_is_told {schedule : SessionSchedule} {timezone : ZoneInfo}
    {timeframes : List Timeframe} {window : ℕ} {e₀ : CandleEngine}
    (hcreate : create schedule timezone timeframes window = some e₀) (pre : List Op) (op : Op)
    (post : List Op) (hdrop : DropsSocket (run step { candles := e₀ } pre) op) :
    LossTold (run step { candles := e₀ } pre) (run step { candles := e₀ } (pre ++ [op]))
      (log { candles := e₀ } pre) (step (run step { candles := e₀ } pre) op).2
      (log (run step { candles := e₀ } (pre ++ [op])) post) := by
  have hagree := run_agree hcreate pre
  have hnumbered := run_numbered e₀ pre
  rw [run_concat]
  generalize run step { candles := e₀ } pre = s at hdrop hagree hnumbered ⊢
  generalize log { candles := e₀ } pre = earlier at hnumbered ⊢
  obtain ⟨facts, observedAt, hentries⟩ := drops_entries hdrop
  have hcandles : (step s op).1.candles = run CandleEngine.step
      (CandleEngine.step s.candles (.recordContinuity ⟨.continuityLost, observedAt⟩)).1
      ((told facts observedAt).map (·.op)) := by
    show run CandleEngine.step s.candles ((step s op).2.map (·.op)) = _
    rw [hentries]
    rfl
  have hloss : isContinuityLoss (FeedContinuityEvent.mk .continuityLost observedAt).status = true := rfl
  refine ⟨?_, ?_, ?_, ?_⟩
  · rw [hentries]
    exact ⟨_, List.mem_cons_self, rfl⟩
  · intro n hn hended
    refine ⟨fun entry hentry m hm => (hnumbered.past entry hentry m hm).2 n hn, ?_, ?_⟩
    · rw [hentries]
      exact told_run
    · apply later_runs ((hnumbered.current n hn).trans_le (step_moves s op).sequence)
      intro k hk
      rw [hended] at hk
      cases hk
  · intro i tf st hst hopen quiet closing c hquiet hclose
    have hbroken : ∃ st, (step s op).1.candles.states.get (i, tf) = some st ∧ BrokenBucket st := by
      rw [hcandles]
      exact told_breaks facts (loss_breaks hloss hst hopen)
    have hkept := hquiet.invariant
      (I := fun e => ∃ st, e.states.get (i, tf) = some st ∧ BrokenBucket st)
      (fun _ _ hkeeps h => keeps_broken h hkeeps) hbroken
    exact closes_broken hkept hclose
  · intro i tf₀ st d hst hdate tf settled opening quiet closing c hsettled hopens hquiet hclose
    have htainted : Tainted i d (step s op).1.candles := by
      rw [hcandles]
      exact told_tainted facts (recordContinuity_taints hagree hloss hst hdate)
    obtain ⟨hbefore, hopening, -⟩ := (along_append _ _ _).mp hsettled
    have htaint := hbefore.invariant (fun _ _ hop h => step_tainted h hop) htainted
    have hgap := opens_gap htaint hopening hopens
    rw [← run_concat] at hgap
    have hkept := hquiet.invariant
      (I := fun e => ∃ st, e.states.get (i, tf) = some st ∧ GapBucket st)
      (fun _ _ hk ⟨_, hst, hg⟩ => keeps_gap hst hg hk) hgap
    rw [← run_append] at hkept
    obtain ⟨st', hst', hg⟩ := hkept
    exact closes_gap hst' hg hclose

/-! ## Two runs in one minute -/

theorem one_minute_pos : 0 < 1 := Nat.one_pos

def oneMinute : Timeframe := Timeframe.minutes 1 one_minute_pos

/-- The supervisor begins a run. -/
def begins : Op := .start LiveFeed.relianceTicks [LiveFeed.relianceReference] {} 0

/-- A tick at `m` minutes past midnight is dispatched. -/
def dispatches (m : Int) : Op :=
  .dispatch (sampleTick m (rupees 100)).1 (sampleTick m (rupees 100)).2

/-- The adapter raises after a reconnect with one attempt. -/
def exhausted : Op := .finish (.reconnectExhausted [{ connect := .transportRaises }]) {} 0

/-- A run that ends so after a tick, and a later one with a tick of the same minute. -/
def twoRuns (ending : Op) : List Op := [begins, dispatches 555, ending, begins, dispatches 555]

/-- The candle of the minute, finalized after the second run's tick. -/
def minuteCandle (ending : Op) : Option IncompleteCandle :=
  closes (run step { candles := newEngine [oneMinute] } (twoRuns ending)).candles reliance oneMinute
    (.flush (20000 * day + (556 - 330) * minute))

/-- A run that `_dispatch` ends tells of no loss, and the candle counts as one without a gap; where the
    adapter ends the run the loss is told, and the candle that was open has incomplete prices. -/
theorem silent_gap_between_runs :
    (log { candles := newEngine [oneMinute] } (twoRuns (.finish .dispatchRaised {} 0))).map
        (fun entry => (entry.run, entry.isLoss)) =
      [(none, false), (some 0, false), (some 1, false)] ∧
    (minuteCandle (.finish .dispatchRaised {} 0)).map (·.quality) = some .incompleteVolume ∧
    (log { candles := newEngine [oneMinute] } (twoRuns exhausted)).map
        (fun entry => (entry.run, entry.isLoss)) =
      [(none, false), (some 0, false), (none, true), (none, false), (some 1, false)] ∧
    (minuteCandle exhausted).map (·.quality) = some .incompleteOhlc := by
  decide +kernel

theorem dropped_socket_sample :
    let s := run step { candles := newEngine [oneMinute] } [begins, dispatches 555]
    let s' := run step { candles := newEngine [oneMinute] } ([begins, dispatches 555] ++ [exhausted])
    LossTold s s' (log { candles := newEngine [oneMinute] } [begins, dispatches 555])
      (step s exhausted).2 (log s' [begins, dispatches 555]) := by
  have hcreate : create nseSchedule kolkata [oneMinute] 4 = some (newEngine [oneMinute]) := rfl
  have hdrop : DropsSocket (run step { candles := newEngine [oneMinute] } [begins, dispatches 555])
      exhausted := by
    constructor
    · decide +kernel
    · decide +kernel
  exact dropped_socket_is_told hcreate [begins, dispatches 555] exhausted [begins, dispatches 555] hdrop

end ApexScan.FeedGaps
