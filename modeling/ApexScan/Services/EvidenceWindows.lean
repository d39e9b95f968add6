import ApexScan.Lib.Interleaving
import ApexScan.Services.SessionOhlcEvidenceObserver

/-!
# The windows of the evidence observer (`app/services/session_ohlc_evidence_observer.py`)

A window of a session collects until the universe is covered or its deadline is reached, and is then
finalized: the snapshots are frozen, the REST statistics are awaited, a partial record is written and the
window is marked.  A poll drives this, and `capture_window` finalizes a window at once.

* `SessionOhlcEvidenceObserver` — the state, with `files`, everything that was written, in order.
* `rollSession`, `finalizeStart`, `finalizeEnd`, `finalizeSession`, `closeSession` — its operations.
* `Task`, `advance` — a call, from one REST load to the next; `observing` — the calls as a program.
* `Action`, `act` — a turn of a call, or one of the other operations; `Input`, `step` — with the contexts.
* `Rested`, `advance_cases` — everything that a turn can do to the observer.

The instants that a call is given, the statistics that it loads and whether its writes succeed are those
of the turn (`Environment`).
-/

set_option autoImplicit false

namespace ApexScan.EvidenceObserver

open Lib Evidence

/-! ## The state -/

/-- `_window_phase`; a window without an entry has not started. -/
inductive WindowPhase where
  | collecting
  | finalized
  deriving DecidableEq, Repr

/-- The two files of a combined record. -/
inductive Format where
  | json
  | markdown
  deriving DecidableEq, Repr

/-- The partial record of a window, as it was written. -/
structure WindowArtifact where
  tradingDate : Int
  window : String
  record : EvidenceRecord
  deriving DecidableEq

/-- A file that was written into the directory of a trading date. -/
inductive Artifact where
  | window (artifact : WindowArtifact)
  | combined (format : Format) (tradingDate : Int) (record : EvidenceRecord) (verdict : Verdict)
  deriving DecidableEq

structure SessionOhlcEvidenceObserver extends Observer where
  windowPhase : Dict String WindowPhase := []
  windowDeadline : Dict String Int := []
  sessionTradingDate : Option Int := none
  frozenUniverse : Option (List String) := none
  attachTimestamp : Option Int := none
  subscribed : Bool := false
  finalized : Bool := false
  files : List Artifact := []

/-- What the observer is built with; `instruments` is its `universe`. -/
structure Config where
  instruments : List Instrument
  classify : Int → SessionContext
  sourceSha : String
  productionImage : Option String := none
  exchangeTimezone : ZoneInfo
  sessionIdentity : String := "regular"
  perWindow : Int := 300 * second

/-- What a turn of a call meets: the instant it classifies, the one it goes on with, the result of the load
    it waited for, the instant of its record, and whether the files can be written. -/
structure Environment where
  classifiedAt : Int
  now : Int
  statistics : Option (List SessionStatisticsObservation) := some []
  builtAt : Int
  windowWritten : Bool := true
  combinedWritten : Format → Bool := fun _ => true

inductive EvidenceError where
  | notWritten
  | notCombined (error : CombineError)
  deriving DecidableEq

/-- A finalization that waits for the REST statistics, with the snapshots it has frozen. -/
structure Finalization where
  window : String
  tradingDate : Int
  snapshots : Dict String Snapshot

/-! ## Records -/

/-- `_load_rest`; a load that fails leaves nothing to compare with. -/
def loadRest (statistics : Option (List SessionStatisticsObservation)) : Dict String OhlcObservation :=
  (statistics.getD []).foldl
    (fun rest obs => rest.set (identity obs.instrument)
      { source := "rest"
        window := "rest"
        observedAt := obs.observedAt
        tradingDate := some obs.tradingDate
        openPrice := some obs.sessionOhlc.openPrice.1
        highPrice := some obs.sessionOhlc.highPrice.1
        lowPrice := some obs.sessionOhlc.lowPrice.1 })
    []

/-- `_comparisons`. -/
def comparisons (window : String) (ws : OhlcObservation) : Option OhlcObservation → List OracleComparison
  | none => []
  | some rest =>
    [("open", ws.openPrice, rest.openPrice, true), ("high", ws.highPrice, rest.highPrice, false),
      ("low", ws.lowPrice, rest.lowPrice, false)].map fun (name, wsValue, restValue, exactly) =>
        { window := window
          field := name
          wsValue := wsValue
          restValue := restValue
          tickSize := none
          classification := classifyPrice wsValue restValue none exactly }

/-- The evidence of one snapshot. -/
def instrumentEvidence (window : String) (tradingDate : Int) (rest : Dict String OhlcObservation)
    (key : String) (snapshot : Snapshot) : InstrumentEvidence where
  exchange := snapshot.exchange
  symbol := snapshot.symbol
  securityId := key
  tradingDate := tradingDate
  wsObservations := [toObservation snapshot window]
  restObservations := (rest.get key).toList
  oracleComparisons := comparisons window (toObservation snapshot window) (rest.get key)
  monotonicity := some (evaluateMonotonicity [toObservation snapshot window])

/-- `_WINDOW_CADENCE`. -/
def windowCadence : List (String × Int × Int) :=
  [("early", 560 * minute, 575 * minute), ("mid", 720 * minute, 750 * minute),
    ("late", 900 * minute, 920 * minute)]

/-- `_due_window`. -/
def dueWindow (localTime : Int) : Option String :=
  (windowCadence.find? fun (_, start, stop) => start ≤ localTime ∧ localTime ≤ stop).map (·.1)

namespace SessionOhlcEvidenceObserver

variable (config : Config) (env : Environment)

/-- `_late_start_for`, from the snapshots of this moment. -/
def lateStartFor (o : SessionOhlcEvidenceObserver) (window : String) (rest : Dict String OhlcObservation) :
    Option LateStartEvidence :=
  if window ≠ "early" then none
  else
    match (sortBy id (o.latest.map (·.1))).head?.bind o.latest.get with
    | none =>
      some
        { observed := false
          kind := .observerLateAttach
          observerAttachTimestamp := o.attachTimestamp
          detail := "observer attached; no instrument observed yet at first window" }
    | some first =>
      let prior := rest.get first.identity
      some
        { observed := true
          kind := .observerLateAttach
          observerAttachTimestamp := o.attachTimestamp
          priorObservedAt := prior.map (·.observedAt)
          priorOpen := prior.bind (·.openPrice)
          priorHigh := prior.bind (·.highPrice)
          priorLow := prior.bind (·.lowPrice)
          firstObservedAt := some first.eventTimestamp
          firstOpen := first.openPrice
          firstHigh := first.highPrice
          firstLow := first.lowPrice
          detail := "observer_late_attach: extrema seen at first observation reflect production's " ++
            "long-lived subscription, NOT a provider late-subscription re-send (ADR-015 D7); " ++
            "provider late-start remains inconclusive" }

/-- `_build_partial`. -/
def buildPartial (o : SessionOhlcEvidenceObserver) (f : Finalization) : EvidenceRecord :=
  let rest := loadRest env.statistics
  let expected := o.frozenUniverse.getD []
  { collectorVersion := "3.0.0"
    sourceSha := config.sourceSha
    productionImage := config.productionImage
    provider := "dhan"
    tradingDate := f.tradingDate
    sessionIdentity := config.sessionIdentity
    collectionStart := env.builtAt
    collectionEnd := env.builtAt
    expectedInstruments := expected
    pendingInstruments := expected.filter fun k => k ∉ f.snapshots.map (·.1)
    sampleWindows := [f.window]
    instruments := (sortBy id (f.snapshots.map (·.1))).filterMap fun key =>
      (f.snapshots.get key).map (instrumentEvidence f.window f.tradingDate rest key)
    lateStart := o.lateStartFor f.window rest
    reconnect := none }

/-! ## Operations -/

/-- `_roll_session`. -/
def rollSession (o : SessionOhlcEvidenceObserver) (tradingDate : Int) : SessionOhlcEvidenceObserver :=
  if o.sessionTradingDate = some tradingDate then o
  else
    let opened :=
      { o with
        sessionTradingDate := some tradingDate
        frozenUniverse := some (sortBy id (config.instruments.map identity)) }
    match o.sessionTradingDate with
    | none => opened  -- the snapshots from before the first poll are kept
    | some _ =>
      { opened with
        latest := []
        partials := []
        windowPhase := []
        windowDeadline := []
        preReconnect := none
        reconnect := none
        finalized := false }

/-- `_coverage_complete`. -/
def coverageComplete (o : SessionOhlcEvidenceObserver) : Bool :=
  let frozen := o.frozenUniverse.getD []
  frozen ≠ [] ∧ ∀ key ∈ frozen, (o.latest.get key).isSome

/-- `_begin_collecting`. -/
def beginCollecting (o : SessionOhlcEvidenceObserver) (window : String) (now : Int) :
    SessionOhlcEvidenceObserver :=
  { o with
    windowPhase := o.windowPhase.set window .collecting
    windowDeadline := o.windowDeadline.set window (now + config.perWindow) }

/-- The end of a poll in a live session: the window of the hour begins to collect. -/
def openWindow (o : SessionOhlcEvidenceObserver) (now : Int) : SessionOhlcEvidenceObserver :=
  match dueWindow (wallTime (config.exchangeTimezone.toLocal now)) with
  | none => o
  | some band => if o.windowPhase.get band = none then o.beginCollecting config band now else o

/-- `_finalize_window` up to the REST load. -/
def finalizeStart (o : SessionOhlcEvidenceObserver) (window : String) (tradingDate : Int) :
    Option Finalization :=
  if o.windowPhase.get window = some .finalized then none else some ⟨window, tradingDate, o.latest⟩

/-- The artifact is there: the record is kept and the window marked. -/
def commit (o : SessionOhlcEvidenceObserver) (f : Finalization) : SessionOhlcEvidenceObserver :=
  let record := o.buildPartial config env f
  { o with
    files := o.files ++ [.window ⟨f.tradingDate, f.window, record⟩]
    partials := o.partials ++ [record]
    windowPhase := o.windowPhase.set f.window .finalized }

/-- `_finalize_window` after the REST load. -/
def finalizeEnd (o : SessionOhlcEvidenceObserver) (f : Finalization) :
    Except EvidenceError SessionOhlcEvidenceObserver :=
  if env.windowWritten then .ok (o.commit config env f) else .error .notWritten

/-- `_write_outputs`: the second file is not reached when the first one fails. -/
def writeOutputs (o : SessionOhlcEvidenceObserver) (tradingDate : Int) (record : EvidenceRecord)
    (verdict : Verdict) : SessionOhlcEvidenceObserver × Except EvidenceError Unit :=
  if env.combinedWritten .json then
    let written := { o with files := o.files ++ [.combined .json tradingDate record verdict] }
    if env.combinedWritten .markdown then
      ({ written with files := written.files ++ [.combined .markdown tradingDate record verdict] }, .ok ())
    else (written, .error .notWritten)
  else (o, .error .notWritten)

/-- `finalize_session`. -/
def finalizeSession (o : SessionOhlcEvidenceObserver) :
    SessionOhlcEvidenceObserver × Except EvidenceError Unit :=
  match o.partials, o.sessionTradingDate with
  | [], _ => (o, .ok ())
  | _, none => (o, .ok ())
  | partials, some tradingDate =>
    match combineRecords partials with
    | .error e => (o, .error (.notCombined e))
    | .ok combined =>
      let reconnect := o.reconnect.getD
        { observed := false, detail := "INCONCLUSIVE_NO_NATURAL_RECONNECT" }
      let record := { combined with reconnect := some reconnect }
      o.writeOutputs env tradingDate record (evaluateRecord record)

/-- The end of a poll outside a live session. -/
def closeSession (o : SessionOhlcEvidenceObserver) :
    SessionOhlcEvidenceObserver × Except EvidenceError Unit :=
  if o.windowPhase.any (fun kv => kv.2 = .finalized) ∧ o.finalized = false then
    match o.finalizeSession env with
    | (closed, .ok ()) => ({ closed with finalized := true }, .ok ())
    | (closed, .error e) => (closed, .error e)
  else (o, .ok ())

/-- The windows that collect. -/
def collecting (o : SessionOhlcEvidenceObserver) : List String :=
  (o.windowPhase.filter fun kv => kv.2 = .collecting).map (·.1)

end SessionOhlcEvidenceObserver

/-! ## Calls -/

/-- `WindowResult`. -/
structure WindowResult where
  window : String
  executed : Bool
  reason : String
  observed : ℕ := 0
  pending : ℕ := 0
  deriving DecidableEq

inductive Call where
  | tickOnce
  | captureWindow (window : String)
  deriving DecidableEq

/-- A call that has not run yet, or waits for the REST statistics.  A poll of a live session waits with its
    date and instant, and every poll with the windows that are left. -/
inductive Task where
  | called (call : Call)
  | advancing (f : Finalization) (tradingDate now : Int) (rest : List String)
  | closing (f : Finalization) (rest : List String)
  | capturing (f : Finalization)

inductive CallResult where
  | polled
  | captured (result : WindowResult)
  | raised (error : EvidenceError)

/-- The finalization that a task waits with. -/
def Task.finalization : Task → Option Finalization
  | .called _ => none
  | .advancing f _ _ _ | .closing f _ | .capturing f => some f

namespace SessionOhlcEvidenceObserver

variable (config : Config) (env : Environment)

/-- `_advance_collecting` from a window on, and the rest of the poll. -/
def advanceCollecting (o : SessionOhlcEvidenceObserver) (tradingDate now : Int) :
    List String → SessionOhlcEvidenceObserver × Progress Task CallResult
  | [] => (o.openWindow config now, .finished .polled)
  | window :: rest =>
    if o.coverageComplete ∨ (o.windowDeadline.get window).getD now ≤ now then
      match o.finalizeStart window tradingDate with
      | some f => (o, .running (.advancing f tradingDate now rest))
      | none => o.advanceCollecting tradingDate now rest
    else o.advanceCollecting tradingDate now rest

/-- `_finalize_all_collecting` from a window on, and the rest of the poll. -/
def finalizeAllCollecting (o : SessionOhlcEvidenceObserver) :
    List String → SessionOhlcEvidenceObserver × Progress Task CallResult
  | [] =>
    match o.closeSession env with
    | (closed, .ok ()) => (closed, .finished .polled)
    | (closed, .error e) => (closed, .finished (.raised e))
  | window :: rest =>
    match o.sessionTradingDate with
    | none => o.finalizeAllCollecting rest  -- there is no window without a date
    | some tradingDate =>
      match o.finalizeStart window tradingDate with
      | some f => (o, .running (.closing f rest))
      | none => o.finalizeAllCollecting rest

/-- `_tick_once` up to its first wait. -/
def tickOnce (o : SessionOhlcEvidenceObserver) : SessionOhlcEvidenceObserver × Progress Task CallResult :=
  let session := config.classify env.classifiedAt
  if session.marketState ≠ .liveSession then o.finalizeAllCollecting env o.collecting
  else
    let rolled := o.rollSession config session.tradingDate
    rolled.advanceCollecting config session.tradingDate env.now rolled.collecting

/-- `capture_window` up to its wait. -/
def captureWindow (o : SessionOhlcEvidenceObserver) (window : String) :
    SessionOhlcEvidenceObserver × Progress Task CallResult :=
  let session := config.classify env.classifiedAt
  if session.marketState ≠ .liveSession then
    (o, .finished (.captured ⟨window, false, "not LIVE_SESSION", 0, 0⟩))
  else
    let rolled := o.rollSession config session.tradingDate
    match rolled.finalizeStart window session.tradingDate with
    | none => (rolled, .finished (.captured ⟨window, false, "window already captured", 0, 0⟩))
    | some f => (rolled, .running (.capturing f))

/-- What `capture_window` returns after its wait, of the last partial record. -/
def captured (o : SessionOhlcEvidenceObserver) (window : String) : WindowResult :=
  match o.partials.getLast? with
  | none => ⟨window, true, "captured", 0, 0⟩
  | some record => ⟨window, true, "captured", record.instruments.length, record.pendingInstruments.length⟩

/-- A task up to its next wait. -/
def advance (o : SessionOhlcEvidenceObserver) :
    Task → SessionOhlcEvidenceObserver × Progress Task CallResult
  | .called .tickOnce => o.tickOnce config env
  | .called (.captureWindow window) => o.captureWindow config env window
  | .advancing f tradingDate now rest =>
    match o.finalizeEnd config env f with
    | .error e => (o, .finished (.raised e))
    | .ok committed => committed.advanceCollecting config tradingDate now rest
  | .closing f rest =>
    match o.finalizeEnd config env f with
    | .error e => (o, .finished (.raised e))
    | .ok committed => committed.finalizeAllCollecting env rest
  | .capturing f =>
    match o.finalizeEnd config env f with
    | .error e => (o, .finished (.raised e))
    | .ok committed => (committed, .finished (.captured (committed.captured f.window)))

end SessionOhlcEvidenceObserver

open SessionOhlcEvidenceObserver

/-- The calls as a program over the observer. -/
def observing (config : Config) :
    Program SessionOhlcEvidenceObserver Task CallResult Call Environment where
  start call _ := .running (.called call)
  advance env task o := o.advance config env task

/-! ## The machine -/

/-- The observer with the calls that run. -/
abbrev Observing := Pool SessionOhlcEvidenceObserver Task

/-- What is done to the observer; only the turn of a call can be one of several at a time. -/
inductive Action where
  | turn (turn : Turn Call Environment)
  | subscribe (now : Int)
  | unsubscribe
  | onFeedContinuity (event : FeedContinuityEvent)
  | finalizeSession (env : Environment)

/-- One action; a second `subscribe` does nothing. -/
def act (config : Config) (pool : Observing) : Action → Observing × Option (ℕ × CallResult)
  | .turn turn => (observing config).step pool turn
  | .subscribe now =>
    if pool.shared.subscribed then (pool, none)
    else ({ pool with shared := { pool.shared with subscribed := true, attachTimestamp := some now } }, none)
  | .unsubscribe => ({ pool with shared := { pool.shared with subscribed := false } }, none)
  | .onFeedContinuity event =>
    ({ pool with
       shared := { pool.shared with toObserver := pool.shared.toObserver.onFeedContinuity event } }, none)
  | .finalizeSession env => ({ pool with shared := (pool.shared.finalizeSession env).1 }, none)

/-- `_on_context`. -/
def SessionOhlcEvidenceObserver.onContext (o : SessionOhlcEvidenceObserver) (context : MarketContext) :
    SessionOhlcEvidenceObserver :=
  { o with toObserver := o.toObserver.recordSnapshot context }

/-- A context is published, or the observer acts. -/
inductive Input where
  | context (context : MarketContext)
  | act (action : Action)

/-- One input; a context reaches the observer while it is subscribed. -/
def step (config : Config) (pool : Observing) : Input → Observing × Option (ℕ × CallResult)
  | .context context =>
    if pool.shared.subscribed then ({ pool with shared := pool.shared.onContext context }, none)
    else (pool, none)
  | .act action => EvidenceObserver.act config pool action

/-- The observer as it is built. -/
def idle : Observing := ⟨{}, []⟩

/-! ## The files -/

/-- The artifact of a window that a file is. -/
def Artifact.ofWindow : Artifact → Option WindowArtifact
  | .window artifact => some artifact
  | .combined .. => none

/-- The record of a combined file of a date. -/
def Artifact.ofCombined (format : Format) (tradingDate : Int) : Artifact → Option EvidenceRecord
  | .window _ => none
  | .combined f d record _ => if f = format ∧ d = tradingDate then some record else none

/-- The window artifacts, in the order in which they were written. -/
def windowArtifacts (files : List Artifact) : List WindowArtifact := files.filterMap (·.ofWindow)

/-- The last combined record that was written for a date. -/
def lastCombined (format : Format) (tradingDate : Int) (files : List Artifact) : Option EvidenceRecord :=
  (files.filterMap (·.ofCombined format tradingDate)).getLast?

/-! ## What a turn does -/

variable {config : Config} {env : Environment} {o : SessionOhlcEvidenceObserver}

/-- What a turn does first: it opens the session that it finds, or ends its finalization. -/
inductive Entered (config : Config) (env : Environment) (o : SessionOhlcEvidenceObserver) (task : Task) :
    SessionOhlcEvidenceObserver → Prop where
  | same (h : ∀ f, task.finalization = some f → env.windowWritten = false) : Entered config env o task o
  | rolled (h : task.finalization = none)
      (hlive : (config.classify env.classifiedAt).marketState = .liveSession) :
      Entered config env o task (o.rollSession config (config.classify env.classifiedAt).tradingDate)
  | committed (f : Finalization) (h : task.finalization = some f) (hwritten : env.windowWritten = true) :
      Entered config env o task (o.commit config env f)

/-- What it does before it waits again or ends. -/
inductive Rested (config : Config) (env : Environment) (o : SessionOhlcEvidenceObserver) :
    SessionOhlcEvidenceObserver → Prop where
  | same : Rested config env o o
  | opened (now : Int) : Rested config env o (o.openWindow config now)
  | closed : Rested config env o (o.closeSession env).1

/-- The progress of a task that only waits with the snapshots of this moment. -/
def Frozen (o : SessionOhlcEvidenceObserver) (progress : Progress Task CallResult) : Prop :=
  ∀ task, progress = .running task → ∃ f, task.finalization = some f ∧ f.snapshots = o.latest

theorem finalizeStart_snapshots {window : String} {tradingDate : Int} {f : Finalization}
    (h : o.finalizeStart window tradingDate = some f) : f.snapshots = o.latest := by
  unfold finalizeStart at h
  split at h
  · cases h
  · cases h
    rfl

theorem advanceCollecting_rested (tradingDate now : Int) (windows : List String) :
    Rested config env o (o.advanceCollecting config tradingDate now windows).1 ∧
      Frozen (o.advanceCollecting config tradingDate now windows).1
        (o.advanceCollecting config tradingDate now windows).2 := by
  induction windows with
  | nil => exact ⟨.opened now, fun task htask => by cases htask⟩
  | cons window rest ih =>
    unfold advanceCollecting
    split
    · split
      · rename_i f hf
        refine ⟨.same, ?_⟩
        intro task htask
        cases htask
        exact ⟨f, rfl, finalizeStart_snapshots hf⟩
      · exact ih
    · exact ih

theorem finalizeAllCollecting_rested (windows : List String) :
    Rested config env o (o.finalizeAllCollecting env windows).1 ∧
      Frozen (o.finalizeAllCollecting env windows).1 (o.finalizeAllCollecting env windows).2 := by
  induction windows with
  | nil =>
    have hclosed : Rested config env o (o.closeSession env).1 := .closed
    unfold finalizeAllCollecting
    split
    · rename_i closed heq
      rw [heq] at hclosed
      exact ⟨hclosed, fun task htask => by cases htask⟩
    · rename_i closed e heq
      rw [heq] at hclosed
      exact ⟨hclosed, fun task htask => by cases htask⟩
  | cons window rest ih =>
    unfold finalizeAllCollecting
    split
    · exact ih
    · split
      · rename_i f hf
        refine ⟨.same, ?_⟩
        intro task htask
        cases htask
        exact ⟨f, rfl, finalizeStart_snapshots hf⟩
      · exact ih

/-- A turn that ends a finalization, and then goes on with the rest of its call. -/
theorem resumed_cases {task : Task} {f : Finalization} (htask : task.finalization = some f)
    {go : SessionOhlcEvidenceObserver → SessionOhlcEvidenceObserver × Progress Task CallResult}
    (hgo : Rested config env (o.commit config env f) (go (o.commit config env f)).1 ∧
      Frozen (go (o.commit config env f)).1 (go (o.commit config env f)).2)
    {result : SessionOhlcEvidenceObserver × Progress Task CallResult}
    (hresult : result = match o.finalizeEnd config env f with
      | .error e => (o, .finished (.raised e))
      | .ok committed => go committed) :
    (∃ entered, Entered config env o task entered ∧ Rested config env entered result.1) ∧
      Frozen result.1 result.2 := by
  subst hresult
  unfold finalizeEnd
  by_cases hwritten : env.windowWritten = true
  · rw [if_pos hwritten]
    exact ⟨⟨_, .committed f htask hwritten, hgo.1⟩, hgo.2⟩
  · rw [if_neg hwritten]
    have hfailed : env.windowWritten = false := by simpa using hwritten
    exact ⟨⟨o, .same fun _ _ => hfailed, .same⟩, fun task htask => by cases htask⟩

/-- **A turn of a call**: how it enters, how it goes on, and with what it waits. -/
theorem advance_cases (task : Task) :
    (∃ entered, Entered config env o task entered ∧
      Rested config env entered (o.advance config env task).1) ∧
    Frozen (o.advance config env task).1 (o.advance config env task).2 := by
  have hidle (call : Call) : ∀ f, (Task.called call).finalization = some f → env.windowWritten = false := by
    intro f hf
    cases hf
  cases task with
  | called call =>
    cases call with
    | tickOnce =>
      simp only [advance, tickOnce]
      split
      · have hrested := @finalizeAllCollecting_rested config env o o.collecting
        exact ⟨⟨o, .same (hidle _), hrested.1⟩, hrested.2⟩
      · rename_i hlive
        have hrested := @advanceCollecting_rested config env
          (o.rollSession config (config.classify env.classifiedAt).tradingDate)
          (config.classify env.classifiedAt).tradingDate env.now
          (o.rollSession config (config.classify env.classifiedAt).tradingDate).collecting
        exact ⟨⟨_, .rolled rfl (not_not.mp hlive), hrested.1⟩, hrested.2⟩
    | captureWindow window =>
      simp only [advance, captureWindow]
      split
      · exact ⟨⟨o, .same (hidle _), .same⟩, fun task htask => by cases htask⟩
      · rename_i hlive
        split
        · exact ⟨⟨_, .rolled rfl (not_not.mp hlive), .same⟩, fun task htask => by cases htask⟩
        · rename_i f hf
          refine ⟨⟨_, .rolled rfl (not_not.mp hlive), .same⟩, ?_⟩
          intro task htask
          cases htask
          exact ⟨f, rfl, finalizeStart_snapshots hf⟩
  | advancing f tradingDate now rest =>
    exact @resumed_cases _ _ _ (.advancing f tradingDate now rest) f rfl
      (fun committed => committed.advanceCollecting config tradingDate now rest)
      (advanceCollecting_rested tradingDate now rest) _ rfl
  | closing f rest =>
    exact @resumed_cases _ _ _ (.closing f rest) f rfl
      (fun committed => committed.finalizeAllCollecting env rest)
      (finalizeAllCollecting_rested rest) _ rfl
  | capturing f =>
    exact @resumed_cases _ _ _ (.capturing f) f rfl
      (fun committed => (committed, .finished (.captured (committed.captured f.window))))
      ⟨.same, fun task htask => by cases htask⟩ _ rfl

/-- What writing the combined files does: nothing, or it adds the first one or both. -/
theorem writeOutputs_cases (tradingDate : Int) (record : EvidenceRecord) (verdict : Verdict) :
    ∃ formats : List Format, (o.writeOutputs env tradingDate record verdict).1 =
        { o with files := o.files ++ formats.map fun format => .combined format tradingDate record verdict } ∧
      ∀ format, format ∈ formats ↔ env.combinedWritten .json = true ∧ env.combinedWritten format = true := by
  unfold writeOutputs
  by_cases hjson : env.combinedWritten .json = true
  · by_cases hmarkdown : env.combinedWritten .markdown = true
    · refine ⟨[.json, .markdown], by simp [hjson, hmarkdown], ?_⟩
      intro format
      cases format <;> simp [hjson, hmarkdown]
    · refine ⟨[.json], by simp [hjson, hmarkdown], ?_⟩
      intro format
      cases format <;> simp [hjson, hmarkdown]
  · refine ⟨[], by simp [hjson], ?_⟩
    intro format
    simp [hjson]

/-- `finalize_session` with partial records that combine. -/
theorem finalizeSession_eq {tradingDate : Int} {combined : EvidenceRecord} (hne : o.partials ≠ [])
    (hdate : o.sessionTradingDate = some tradingDate) (hcombined : combineRecords o.partials = .ok combined) :
    ∃ reconnect verdict, o.finalizeSession env =
      o.writeOutputs env tradingDate { combined with reconnect := some reconnect } verdict := by
  unfold finalizeSession
  split
  · rename_i hnil
    exact absurd hnil hne
  · rename_i hnone _
    rw [hdate] at hnone
    cases hnone
  · rename_i date hsome hpartials
    cases hdate.symm.trans hsome
    rw [hcombined]
    exact ⟨_, _, rfl⟩

/-- What `finalize_session` does: nothing, or it writes the combination of the partial records. -/
theorem finalizeSession_cases :
    (o.finalizeSession env).1 = o ∨
      ∃ tradingDate combined, o.partials ≠ [] ∧ o.sessionTradingDate = some tradingDate ∧
        combineRecords o.partials = .ok combined := by
  unfold finalizeSession
  split
  · exact .inl rfl
  · exact .inl rfl
  · rename_i tradingDate hdate hpartials
    split
    · exact .inl rfl
    · rename_i combined hcombined
      exact .inr ⟨tradingDate, combined, hpartials, hdate, hcombined⟩

/-- Closing is `finalize_session`, or nothing, apart from the flag. -/
theorem closeSession_cases :
    (o.closeSession env).1 = o ∨
      ∃ finalized, (o.closeSession env).1 = { (o.finalizeSession env).1 with finalized := finalized } := by
  unfold closeSession
  split
  · split
    · rename_i closed heq
      rw [heq]
      exact .inr ⟨true, rfl⟩
    · rename_i closed e heq
      rw [heq]
      exact .inr ⟨closed.finalized, rfl⟩
  · exact .inl rfl

/-! ## What the operations write -/

theorem windowArtifacts_append (files added : List Artifact) :
    windowArtifacts (files ++ added) = windowArtifacts files ++ windowArtifacts added :=
  List.filterMap_append

/-- The artifact that the end of a finalization writes. -/
def artifactOf (config : Config) (env : Environment) (o : SessionOhlcEvidenceObserver)
    (f : Finalization) : WindowArtifact :=
  ⟨f.tradingDate, f.window, o.buildPartial config env f⟩

theorem commit_windowArtifacts (f : Finalization) :
    windowArtifacts (o.commit config env f).files = windowArtifacts o.files ++ [artifactOf config env o f] := by
  unfold commit
  simp only
  rw [windowArtifacts_append]
  rfl

/-- Opening a session keeps the files. -/
theorem rollSession_files (d : Int) : (o.rollSession config d).files = o.files := by
  unfold rollSession
  split
  · rfl
  · cases o.sessionTradingDate <;> rfl

theorem openWindow_files (now : Int) : (o.openWindow config now).files = o.files := by
  unfold openWindow
  split
  · rfl
  · split <;> rfl

/-- Combined files are no artifacts of windows. -/
theorem windowArtifacts_combined (formats : List Format) (tradingDate : Int) (record : EvidenceRecord)
    (verdict : Verdict) :
    windowArtifacts (formats.map fun format => .combined format tradingDate record verdict) = [] := by
  unfold windowArtifacts
  rw [List.filterMap_map, List.filterMap_eq_nil_iff]
  exact fun format _ => rfl

/-- `finalize_session` changes nothing but the files, and adds no window artifact. -/
theorem finalizeSession_adds : ∃ added, (o.finalizeSession env).1 = { o with files := o.files ++ added } ∧
    windowArtifacts added = [] := by
  rcases @finalizeSession_cases env o with hsame | ⟨tradingDate, combined, hne, hdate, hcombined⟩
  · exact ⟨[], by rw [hsame, List.append_nil], rfl⟩
  · obtain ⟨reconnect, verdict, heq⟩ := @finalizeSession_eq env o _ _ hne hdate hcombined
    obtain ⟨formats, hstate, -⟩ :=
      @writeOutputs_cases env o tradingDate { combined with reconnect := some reconnect } verdict
    exact ⟨_, by rw [heq, hstate], windowArtifacts_combined _ _ _ _⟩

/-- Closing changes nothing but the files and the flag, and adds no window artifact. -/
theorem closeSession_adds : ∃ added finalized, (o.closeSession env).1 =
    { o with files := o.files ++ added, finalized := finalized } ∧ windowArtifacts added = [] := by
  rcases @closeSession_cases env o with hsame | ⟨finalized, heq⟩
  · exact ⟨[], o.finalized, by rw [hsame, List.append_nil], rfl⟩
  · obtain ⟨added, hstate, hnone⟩ := @finalizeSession_adds env o
    exact ⟨added, finalized, by rw [heq, hstate], hnone⟩

/-- A turn writes no window artifact after it has entered. -/
theorem Rested.windowArtifacts {o' : SessionOhlcEvidenceObserver} (h : Rested config env o o') :
    windowArtifacts o'.files = EvidenceObserver.windowArtifacts o.files := by
  cases h with
  | same => rfl
  | opened now => rw [openWindow_files]
  | closed =>
    obtain ⟨added, finalized, hstate, hnone⟩ := @closeSession_adds env o
    rw [hstate, windowArtifacts_append, hnone, List.append_nil]

/-- The turn of a call is a step of its task. -/
theorem act_turn_shared {pool : Observing} {process : ℕ} {task : Task}
    (h : pool.tasks.get process = some task) :
    (act config pool (.turn (.advance process env))).1.shared =
      (pool.shared.advance config env task).1 := by
  simp only [act, Program.step, h]
  exact settle_shared _ _ _

/-! ## Polls -/

/-- What a turn meets at a minute of a date of the exchange, when all goes well. -/
def environmentAt (date m : Int) : Environment where
  classifiedAt := date * day + (m - 330) * minute
  now := date * day + (m - 330) * minute
  builtAt := date * day + (m - 330) * minute

/-- A poll that does not wait. -/
def pollAt (date m : Int) : List Action :=
  [.turn (.start 0 .tickOnce), .turn (.advance 0 (environmentAt date m))]

/-- A poll that waits once. -/
def waitingPollAt (date m : Int) : List Action :=
  pollAt date m ++ [.turn (.advance 0 (environmentAt date m))]

end ApexScan.EvidenceObserver
