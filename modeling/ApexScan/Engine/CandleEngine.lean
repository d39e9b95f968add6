import Mathlib.Data.Finset.Basic
import Mathlib.Data.List.Dedup
import Mathlib.Data.List.Sort
import ApexScan.Engine.Buckets
import ApexScan.Lib.Dict
import ApexScan.Lib.Window
import ApexScan.Lib.Machine

/-!
# Live candle aggregation (`app/market_engine/candle_engine.py`)

The per-`instrument × timeframe` automaton that turns accepted ticks into an in-progress bucket
and a bounded window of finalized, non-authoritative intervals; feed-continuity facts, flushing,
reconciliation and the dynamic timeframe set act on the same state.

* `Bucket`, `TimeframeState`, `CandleEngine` — the mutable records of the source as values.
* `TimeframeState.streamStep` — one live tick on one stream, for a given taint flag.
* `CandleEngine.step` — the five public operations as one machine.

Principal results: `foldl_updateTimeframe_streams` — a live tick is one `streamStep` on every
registered stream of its instrument and touches no other; `foldl_updateTimeframe_get` — with the
engine's own taint flag, as long as that cannot change during the tick; `step_config` — no
operation changes the schedule, the timezone or the window.
-/

set_option autoImplicit false

namespace ApexScan

open Lib

/-! ## Candle facts (`app/market_engine/context.py`) -/

/-- Completeness of a candle interval. -/
inductive CandleQuality where
  | complete
  | incompleteOhlc
  | incompleteVolume
  | feedGap
  deriving DecidableEq, Repr

/-- An in-progress candle. -/
structure PartialCandle where
  startTimestamp : Int
  endTimestamp : Int
  openPrice : Price
  highPrice : Price
  lowPrice : Price
  closePrice : Price
  tradedQuantity : Option ℕ
  quality : CandleQuality
  deriving DecidableEq

/-- A finalized interval that is not authoritative yet. -/
structure IncompleteCandle where
  instrument : Instrument
  timeframe : Timeframe
  startTimestamp : Int
  endTimestamp : Int
  openPrice : Price
  highPrice : Price
  lowPrice : Price
  closePrice : Price
  tradedQuantity : Option ℕ
  quality : CandleQuality
  deriving DecidableEq

/-- The candle state of one stream as it is stamped into a context. -/
structure TimeframeCandles where
  timeframe : Timeframe
  partialCandle : Option PartialCandle
  finalized : List Candle
  incomplete : List IncompleteCandle
  deriving DecidableEq

/-! ## Identity and reconciliation outcomes (`historical/reconciliation.py`) -/

structure CandleIdentity where
  instrument : Instrument
  timeframe : Timeframe
  startTimestamp : Int
  endTimestamp : Int
  deriving DecidableEq

inductive ReconciliationOutcome where
  | reconciled
  | alreadyReconciled
  | noMatch
  | noAuthoritativeCandle
  | conflict
  | outOfWindow
  | currentDayWithheld
  deriving DecidableEq, Repr

structure ReconciliationResult where
  identity : CandleIdentity
  outcome : ReconciliationOutcome
  candle : Option Candle := none
  deriving DecidableEq

def identityOf (candle : Candle) (timeframe : Timeframe) : CandleIdentity :=
  ⟨candle.instrument, timeframe, candle.startTimestamp, candle.endTimestamp⟩

def identityOfIncomplete (candle : IncompleteCandle) : CandleIdentity :=
  ⟨candle.instrument, candle.timeframe, candle.startTimestamp, candle.endTimestamp⟩

/-- `match_outcome`: finalized candles are consulted before incomplete intervals. -/
def matchOutcome (authoritative : Candle) (timeframe : Timeframe)
    (incomplete : List IncompleteCandle) (finalized : List Candle) : ReconciliationOutcome :=
  match finalized.find? (fun c => identityOf c timeframe == identityOf authoritative timeframe) with
  | some c => if c = authoritative then .alreadyReconciled else .conflict
  | none =>
    if incomplete.any (fun c => identityOfIncomplete c == identityOf authoritative timeframe) then
      .reconciled
    else .noMatch

/-! ## Buckets -/

/-- `_Bucket`: in-progress aggregation state. -/
structure Bucket where
  index : Int
  startUtc : Int
  endUtc : Int
  openPrice : Price
  highPrice : Price
  lowPrice : Price
  closePrice : Price
  baseline : Option ℕ
  lastCumulative : Option ℕ
  feedGap : Bool := false
  ohlcBroken : Bool := false
  volumeInvalid : Bool := false
  deriving DecidableEq

namespace Bucket

/-- `_apply_tick`.  A counter below the last accepted one is not adopted. -/
def applyTick (b : Bucket) (tick : Tick) : Bucket :=
  let b := { b with
    highPrice := max b.highPrice tick.lastPrice
    lowPrice := min b.lowPrice tick.lastPrice
    closePrice := tick.lastPrice }
  match tick.sessionCumulativeVolume with
  | none => b
  | some cumulative =>
    match b.lastCumulative with
    | some last =>
      if cumulative < last then { b with volumeInvalid := true }
      else { b with lastCumulative := some cumulative }
    | none => { b with lastCumulative := some cumulative }

/-- A tick moves the prices and the volume counter of its bucket, and nothing else. -/
theorem applyTick_eq (b : Bucket) (tick : Tick) :
    b.applyTick tick = { b with
      highPrice := max b.highPrice tick.lastPrice
      lowPrice := min b.lowPrice tick.lastPrice
      closePrice := tick.lastPrice
      lastCumulative := (b.applyTick tick).lastCumulative
      volumeInvalid := (b.applyTick tick).volumeInvalid } := by
  unfold applyTick
  simp only
  split
  · rfl
  · split
    · split <;> rfl
    · rfl

/-- `_quality_for`. -/
def qualityFor (b : Bucket) : CandleQuality :=
  if b.feedGap then .feedGap else if b.ohlcBroken then .incompleteOhlc else .incompleteVolume

/-- `_interval_volume`. -/
def intervalVolume (b : Bucket) : Option ℕ :=
  if b.volumeInvalid then none
  else
    match b.baseline, b.lastCumulative with
    | some baseline, some last => if last < baseline then none else some (last - baseline)
    | _, _ => none

/-- `_to_incomplete`. -/
def toIncomplete (b : Bucket) (instrument : Instrument) (timeframe : Timeframe) :
    IncompleteCandle where
  instrument := instrument
  timeframe := timeframe
  startTimestamp := b.startUtc
  endTimestamp := b.endUtc
  openPrice := b.openPrice
  highPrice := b.highPrice
  lowPrice := b.lowPrice
  closePrice := b.closePrice
  tradedQuantity := b.intervalVolume
  quality := b.qualityFor

/-- `_partial_view`. -/
def partialView (b : Bucket) : PartialCandle where
  startTimestamp := b.startUtc
  endTimestamp := b.endUtc
  openPrice := b.openPrice
  highPrice := b.highPrice
  lowPrice := b.lowPrice
  closePrice := b.closePrice
  tradedQuantity := b.intervalVolume
  quality := b.qualityFor

end Bucket

/-! ## One stream -/

/-- `_TimeframeState`. -/
structure TimeframeState where
  instrument : Instrument
  timeframe : Timeframe
  finalized : List Candle := []
  incomplete : List IncompleteCandle := []
  tradingDate : Option Int := none
  partialBucket : Option Bucket := none
  previousBucketIndex : Option Int := none
  previousBucketEndCumulative : Option ℕ := none
  deriving DecidableEq

namespace TimeframeState

/-- `_finalize_partial`. -/
def finalizePartial (window : ℕ) (state : TimeframeState) : TimeframeState :=
  match state.partialBucket with
  | none => state
  | some bucket =>
    { state with
      incomplete := pushBounded window state.incomplete
        (bucket.toIncomplete state.instrument state.timeframe)
      previousBucketIndex := some bucket.index
      previousBucketEndCumulative := if bucket.feedGap then none else bucket.lastCumulative
      partialBucket := none }

/-- `_reset_session`, without the engine-wide taint flag (see `CandleEngine.updateTimeframe`). -/
def resetSession (window : ℕ) (state : TimeframeState) (tradingDate : Int) : TimeframeState :=
  { state.finalizePartial window with
    tradingDate := some tradingDate
    partialBucket := none
    previousBucketIndex := none
    previousBucketEndCumulative := none }

/-- `_open_bucket`; `broken` is the instrument's membership in `_continuity_broken`. -/
def openBucket (state : TimeframeState) (broken : Bool) (bounds : Int × Int × Int) (tick : Tick) :
    Bucket :=
  let contiguous := match state.previousBucketIndex with
    | some previous => decide (bounds.1 = previous + 1)
    | none => false
  let feedGap := broken || (state.previousBucketIndex.isSome && !contiguous)
  { index := bounds.1
    startUtc := bounds.2.1
    endUtc := bounds.2.2
    openPrice := tick.lastPrice
    highPrice := tick.lastPrice
    lowPrice := tick.lastPrice
    closePrice := tick.lastPrice
    baseline := if feedGap || !contiguous then none else state.previousBucketEndCumulative
    lastCumulative := tick.sessionCumulativeVolume
    feedGap := feedGap }

/-- The bucket part of `_update_timeframe`: apply to the current bucket, or close it and open
    the next one. -/
def observe (window : ℕ) (state : TimeframeState) (broken : Bool) (bounds : Int × Int × Int)
    (tick : Tick) : TimeframeState :=
  match state.partialBucket with
  | some bucket =>
    if bucket.index = bounds.1 then { state with partialBucket := some (bucket.applyTick tick) }
    else
      let closed := state.finalizePartial window
      { closed with partialBucket := some (closed.openBucket broken bounds tick) }
  | none => { state with partialBucket := some (state.openBucket broken bounds tick) }

/-- The session part of `_update_timeframe`: a stream on another date is reset first. -/
def onDate (window : ℕ) (state : TimeframeState) (tradingDate : Int) : TimeframeState :=
  if state.tradingDate = some tradingDate then state else state.resetSession window tradingDate

/-- One live tick on one stream, for a given taint flag. -/
def streamStep (window : ℕ) (tradingDate : Int) (broken : Bool) (bounds : Int × Int × Int)
    (tick : Tick) (state : TimeframeState) : TimeframeState :=
  (state.onDate window tradingDate).observe window broken bounds tick

end TimeframeState

/-! ## The engine -/

/-- `CandleEngine`.  `states` is the dictionary of streams; `continuityBroken` the tainted
    instruments. -/
structure CandleEngine where
  schedule : SessionSchedule
  timezone : ZoneInfo
  finalizedWindow : ℕ
  finalizedWindow_pos : 0 < finalizedWindow
  timeframes : List Timeframe
  timeframes_nodup : timeframes.Nodup
  states : Dict (Instrument × Timeframe) TimeframeState := []
  continuityBroken : Finset Instrument := ∅

namespace CandleEngine

/-- `_session_length`. -/
def sessionLength (schedule : SessionSchedule) : Int := schedule.regularClose - schedule.regularOpen

/-- The check of `_validated`: an intraday timeframe is shorter than the session. -/
def validated (schedule : SessionSchedule) (timeframes : List Timeframe) : Bool :=
  timeframes.all fun tf => match tf.duration with
    | some width => decide (width < sessionLength schedule)
    | none => true

/-- The sort key of `_ordered`: intraday before session, then by label. -/
def keyLe (a b : Timeframe) : Bool :=
  if a.isSession = b.isSession then decide (¬ b.label < a.label) else !a.isSession

/-- `_ordered` of the set of the given timeframes. -/
def ordered (timeframes : List Timeframe) : List Timeframe :=
  timeframes.dedup.insertionSort (fun a b => keyLe a b = true)

theorem ordered_nodup (timeframes : List Timeframe) : (ordered timeframes).Nodup :=
  (List.perm_insertionSort _ _).nodup_iff.mpr (List.nodup_dedup _)

theorem mem_ordered {tf : Timeframe} {timeframes : List Timeframe} :
    tf ∈ ordered timeframes ↔ tf ∈ timeframes := by
  rw [ordered, (List.perm_insertionSort _ _).mem_iff, List.mem_dedup]

/-- `CandleEngine(...)`; `none` when the constructor raises `ValueError`. -/
def create (schedule : SessionSchedule) (timezone : ZoneInfo) (timeframes : List Timeframe)
    (finalizedWindow : ℕ) : Option CandleEngine :=
  if h : 0 < finalizedWindow then
    if validated schedule timeframes then
      some { schedule, timezone, finalizedWindow, finalizedWindow_pos := h,
             timeframes := ordered timeframes, timeframes_nodup := ordered_nodup _ }
    else none
  else none

/-- `set_required_timeframes`; `none` when it raises `ValueError` (and changes nothing). -/
def setRequiredTimeframes (e : CandleEngine) (timeframes : List Timeframe) : Option CandleEngine :=
  if validated e.schedule timeframes then
    some { e with
      states := e.states.restrict fun key => !(key.2 ∈ e.timeframes && key.2 ∉ timeframes)
      timeframes := ordered timeframes
      timeframes_nodup := ordered_nodup _ }
  else none

/-- `_state_for`: the stream's state, created empty on first use. -/
def stateFor (e : CandleEngine) (instrument : Instrument) (timeframe : Timeframe) :
    TimeframeState :=
  (e.states.get (instrument, timeframe)).getD { instrument, timeframe }

/-- `_bucket_bounds`. -/
def bucketBounds (e : CandleEngine) (eventTimestamp tradingDate : Int) (timeframe : Timeframe) :
    Int × Int × Int :=
  ApexScan.bucketBounds eventTimestamp tradingDate timeframe e.schedule.bounds e.timezone

/-- `_update_timeframe`.  A stream on another date (or a new one) is reset, and the reset clears
    the instrument's taint flag for every stream of the instrument. -/
def updateTimeframe (tick : Tick) (session : SessionContext) (e : CandleEngine)
    (timeframe : Timeframe) : CandleEngine :=
  let state := e.stateFor tick.instrument timeframe
  let broken := if state.tradingDate = some session.tradingDate then e.continuityBroken
    else e.continuityBroken.erase tick.instrument
  { e with
    states := e.states.set (tick.instrument, timeframe)
      (state.streamStep e.finalizedWindow session.tradingDate (tick.instrument ∈ broken)
        (e.bucketBounds tick.eventTimestamp session.tradingDate timeframe) tick)
    continuityBroken := broken }

/-- `update`: a live-session tick goes to every registered timeframe. -/
def update (e : CandleEngine) (tick : Tick) (session : SessionContext) : CandleEngine :=
  if session.marketState = .liveSession then
    e.timeframes.foldl (updateTimeframe tick session) e
  else e

/-- `_CONTINUITY_LOSS`. -/
def isContinuityLoss : FeedContinuity → Bool
  | .disconnected | .continuityLost => true
  | _ => false

/-- `record_continuity`: taint every aggregating instrument and every open bucket. -/
def recordContinuity (e : CandleEngine) (event : FeedContinuityEvent) : CandleEngine :=
  if isContinuityLoss event.status then
    { e with
      states := e.states.mapItems fun _ state =>
        { state with partialBucket := state.partialBucket.map ({ · with ohlcBroken := true }) }
      continuityBroken := e.continuityBroken ∪ (e.states.map (·.1.1)).toFinset }
  else e

/-- Whether `flush(at)` closes the stream's bucket. -/
def closesAt (atTime : Int) (state : TimeframeState) : Bool :=
  match state.partialBucket with
  | some bucket => decide (bucket.endUtc ≤ atTime)
  | none => false

/-- `flush`. -/
def flush (e : CandleEngine) (atTime : Int) : CandleEngine :=
  { e with
    states := e.states.mapItems fun _ state =>
      if closesAt atTime state then state.finalizePartial e.finalizedWindow else state }

/-- `_apply_reconciliation`. -/
def applyReconciliation (window : ℕ) (state : TimeframeState) (authoritative : Candle)
    (timeframe : Timeframe) : TimeframeState :=
  let identity := identityOf authoritative timeframe
  let kept := state.finalized.filter (fun c => identityOf c timeframe != identity)
  { state with
    incomplete := (state.incomplete.filter (fun c => identityOfIncomplete c != identity)).rtake window
    finalized := ((kept ++ [authoritative]).insertionSort
      (fun a b => a.startTimestamp ≤ b.startTimestamp)).rtake window }

/-- `_is_out_of_window`. -/
def isOutOfWindow (state : TimeframeState) (authoritative : Candle) : Bool :=
  let retained := state.incomplete.map (·.startTimestamp) ++ state.finalized.map (·.startTimestamp) ++
    (state.partialBucket.map (·.startUtc)).toList
  !retained.isEmpty && retained.all (fun start => decide (authoritative.startTimestamp < start))

/-- `reconcile`. -/
def reconcile (e : CandleEngine) (authoritative : Candle) (timeframe : Timeframe) :
    CandleEngine × ReconciliationResult :=
  let identity := identityOf authoritative timeframe
  match e.states.get (authoritative.instrument, timeframe) with
  | none => (e, { identity, outcome := .noMatch })
  | some state =>
    match matchOutcome authoritative timeframe state.incomplete state.finalized with
    | .reconciled =>
      let repaired := applyReconciliation e.finalizedWindow state authoritative timeframe
      ({ e with states := e.states.set (authoritative.instrument, timeframe) repaired },
        { identity, outcome := .reconciled, candle := some authoritative })
    | .noMatch =>
      if isOutOfWindow state authoritative then (e, { identity, outcome := .outOfWindow })
      else (e, { identity, outcome := .noMatch })
    | .alreadyReconciled =>
      (e, { identity, outcome := .alreadyReconciled, candle := some authoritative })
    | outcome => (e, { identity, outcome })

/-- `candle_sets_for`. -/
def candleSetsFor (e : CandleEngine) (instrument : Instrument) : List TimeframeCandles :=
  e.timeframes.map fun timeframe =>
    let state := e.states.get (instrument, timeframe)
    { timeframe
      partialCandle := (state.bind (·.partialBucket)).map (·.partialView)
      finalized := (state.map (·.finalized)).getD []
      incomplete := (state.map (·.incomplete)).getD [] }

/-- The public operations of the engine. -/
inductive Op where
  | update (tick : Tick) (session : SessionContext)
  | recordContinuity (event : FeedContinuityEvent)
  | flush (atTime : Int)
  | reconcile (authoritative : Candle) (timeframe : Timeframe)
  | setRequiredTimeframes (timeframes : List Timeframe)

/-- One operation; a raising `set_required_timeframes` leaves the engine as it was. -/
def step (e : CandleEngine) : Op → CandleEngine × Unit
  | .update tick session => (e.update tick session, ())
  | .recordContinuity event => (e.recordContinuity event, ())
  | .flush atTime => (e.flush atTime, ())
  | .reconcile authoritative timeframe => ((e.reconcile authoritative timeframe).1, ())
  | .setRequiredTimeframes timeframes => ((e.setRequiredTimeframes timeframes).getD e, ())

/-! ## What a tick does -/

section Update

variable {tick : Tick} {session : SessionContext}

/-- The settings that no operation changes. -/
structure SameConfig (e e' : CandleEngine) : Prop where
  schedule : e'.schedule = e.schedule
  timezone : e'.timezone = e.timezone
  finalizedWindow : e'.finalizedWindow = e.finalizedWindow

theorem SameConfig.refl (e : CandleEngine) : SameConfig e e := ⟨rfl, rfl, rfl⟩

theorem SameConfig.trans {e e' e'' : CandleEngine} (h : SameConfig e e') (h' : SameConfig e' e'') :
    SameConfig e e'' :=
  ⟨h'.schedule.trans h.schedule, h'.timezone.trans h.timezone,
   h'.finalizedWindow.trans h.finalizedWindow⟩

theorem SameConfig.bucketBounds_eq {e e' : CandleEngine} (h : SameConfig e e') (t d : Int)
    (tf : Timeframe) : e'.bucketBounds t d tf = e.bucketBounds t d tf := by
  unfold CandleEngine.bucketBounds
  rw [h.schedule, h.timezone]

theorem foldl_updateTimeframe_config (tfs : List Timeframe) (e : CandleEngine) :
    SameConfig e (tfs.foldl (updateTimeframe tick session) e) ∧
      (tfs.foldl (updateTimeframe tick session) e).timeframes = e.timeframes := by
  induction tfs generalizing e with
  | nil => exact ⟨SameConfig.refl e, rfl⟩
  | cons tf tfs ih =>
    obtain ⟨h, ht⟩ := ih (updateTimeframe tick session e tf)
    exact ⟨(⟨rfl, rfl, rfl⟩ : SameConfig e (updateTimeframe tick session e tf)).trans h, ht⟩

/-- A tick leaves the taint flag of another instrument alone. -/
theorem foldl_updateTimeframe_broken_other (tfs : List Timeframe) (e : CandleEngine)
    {i : Instrument} (hi : tick.instrument ≠ i) :
    i ∈ (tfs.foldl (updateTimeframe tick session) e).continuityBroken ↔
      i ∈ e.continuityBroken := by
  induction tfs generalizing e with
  | nil => exact Iff.rfl
  | cons tf tfs ih =>
    rw [List.foldl_cons, ih]
    unfold updateTimeframe
    simp only
    split
    · exact Iff.rfl
    · simp [Finset.mem_erase, Ne.symm hi]

theorem updateTimeframe_get_ne (e : CandleEngine) {tf : Timeframe} {key : Instrument × Timeframe}
    (h : (tick.instrument, tf) ≠ key) :
    (updateTimeframe tick session e tf).states.get key = e.states.get key :=
  Dict.get_set_ne _ _ h

/-- A tick is one `streamStep`, for some value of the taint flag, on every listed stream of its
    instrument, and touches no other stream. -/
theorem foldl_updateTimeframe_streams (tfs : List Timeframe) (hnd : tfs.Nodup) (e : CandleEngine)
    (key : Instrument × Timeframe) :
    (key.1 = tick.instrument → key.2 ∈ tfs → ∃ broken,
      (tfs.foldl (updateTimeframe tick session) e).states.get key =
        some ((e.stateFor key.1 key.2).streamStep e.finalizedWindow session.tradingDate broken
          (e.bucketBounds tick.eventTimestamp session.tradingDate key.2) tick)) ∧
    (¬ (key.1 = tick.instrument ∧ key.2 ∈ tfs) →
      (tfs.foldl (updateTimeframe tick session) e).states.get key = e.states.get key) := by
  induction tfs generalizing e with
  | nil => exact ⟨fun _ h => by simp at h, fun _ => rfl⟩
  | cons tf tfs ih =>
    obtain ⟨htf, hnd⟩ := List.nodup_cons.mp hnd
    obtain ⟨hin, hout⟩ := ih hnd (updateTimeframe tick session e tf)
    rw [List.foldl_cons]
    refine ⟨fun hi hmem => ?_, fun hnot => ?_⟩
    · rcases List.mem_cons.mp hmem with heq | hmem
      · have hnot : ¬ (key.1 = tick.instrument ∧ key.2 ∈ tfs) := fun h => htf (heq ▸ h.2)
        have hkey : key = (tick.instrument, tf) := Prod.ext hi heq
        rw [hout hnot, hkey]
        exact ⟨_, Dict.get_set_self _ _ _⟩
      · have hne : (tick.instrument, tf) ≠ key := by
          intro heq
          exact htf (by rw [← heq] at hmem; exact hmem)
        obtain ⟨broken, hget⟩ := hin hi hmem
        refine ⟨broken, ?_⟩
        rw [hget, stateFor, updateTimeframe_get_ne e hne]
        rfl
    · have hne : (tick.instrument, tf) ≠ key := by
        intro heq
        exact hnot (by rw [← heq]; exact ⟨rfl, List.mem_cons_self⟩)
      rw [hout fun h => hnot ⟨h.1, List.mem_cons_of_mem _ h.2⟩, updateTimeframe_get_ne e hne]

/-- The taint flag of `i` cannot change while the listed streams take a tick of `date`: it is
    not set, or none of them is reset. -/
def Steady (e : CandleEngine) (i : Instrument) (date : Int) (tfs : List Timeframe) : Prop :=
  i ∉ e.continuityBroken ∨ ∀ tf ∈ tfs, (e.stateFor i tf).tradingDate = some date

theorem updateTimeframe_broken {e : CandleEngine} {tf : Timeframe}
    (h : Steady e tick.instrument session.tradingDate [tf]) :
    (updateTimeframe tick session e tf).continuityBroken = e.continuityBroken := by
  unfold updateTimeframe
  simp only
  split
  · rfl
  · rename_i hne
    rcases h with h | h
    · exact Finset.erase_eq_of_notMem h
    · exact absurd (h tf (List.mem_singleton.mpr rfl)) hne

/-- The stream that takes the tick. -/
theorem updateTimeframe_get {e : CandleEngine} {tf : Timeframe}
    (h : Steady e tick.instrument session.tradingDate [tf]) (key : Instrument × Timeframe) :
    (updateTimeframe tick session e tf).states.get key =
      if (tick.instrument, tf) = key then
        some ((e.stateFor tick.instrument tf).streamStep e.finalizedWindow session.tradingDate
          (tick.instrument ∈ e.continuityBroken)
          (e.bucketBounds tick.eventTimestamp session.tradingDate tf) tick)
      else e.states.get key := by
  have hb := updateTimeframe_broken h
  unfold updateTimeframe at hb ⊢
  simp only at hb ⊢
  rw [hb, Dict.get_set]

/-- **A live tick is one `streamStep` on every registered stream of its instrument**, as long as
    the taint flag cannot change during the tick. -/
theorem foldl_updateTimeframe_get (tfs : List Timeframe) (hnd : tfs.Nodup) (e : CandleEngine)
    (h : Steady e tick.instrument session.tradingDate tfs) :
    (tfs.foldl (updateTimeframe tick session) e).continuityBroken = e.continuityBroken ∧
      ∀ key, (tfs.foldl (updateTimeframe tick session) e).states.get key =
        if key.1 = tick.instrument ∧ key.2 ∈ tfs then
          some ((e.stateFor key.1 key.2).streamStep e.finalizedWindow session.tradingDate
            (tick.instrument ∈ e.continuityBroken)
            (e.bucketBounds tick.eventTimestamp session.tradingDate key.2) tick)
        else e.states.get key := by
  induction tfs generalizing e with
  | nil => exact ⟨rfl, fun key => by simp⟩
  | cons tf tfs ih =>
    obtain ⟨htf, hnd⟩ := List.nodup_cons.mp hnd
    have h1 : Steady e tick.instrument session.tradingDate [tf] :=
      h.imp id (fun h tf' htf' => h tf' (by simp_all))
    have hget := updateTimeframe_get h1
    have hfor : ∀ tf' ∈ tfs, (updateTimeframe tick session e tf).stateFor tick.instrument tf' =
        e.stateFor tick.instrument tf' := by
      intro tf' htf'
      have hne : (tick.instrument, tf) ≠ (tick.instrument, tf') := by
        intro heq
        exact htf ((Prod.mk.inj heq).2 ▸ htf')
      unfold stateFor
      rw [hget, if_neg hne]
    have h2 : Steady (updateTimeframe tick session e tf) tick.instrument session.tradingDate tfs := by
      rcases h with h | h
      · left; rwa [updateTimeframe_broken h1]
      · right
        intro tf' htf'
        rw [hfor tf' htf']
        exact h tf' (List.mem_cons_of_mem _ htf')
    obtain ⟨hb, hs⟩ := ih hnd (updateTimeframe tick session e tf) h2
    refine ⟨by rw [List.foldl_cons, hb, updateTimeframe_broken h1], ?_⟩
    rintro ⟨i, tf'⟩
    rw [List.foldl_cons, hs, updateTimeframe_broken h1, hget]
    by_cases hi : i = tick.instrument
    · subst hi
      by_cases hm : tf' ∈ tfs
      · rw [if_pos ⟨rfl, hm⟩, if_pos ⟨rfl, List.mem_cons_of_mem _ hm⟩, hfor tf' hm]
        rfl
      · by_cases he : tf' = tf
        · subst he; simp [hm]
        · have : tf ≠ tf' := fun h => he h.symm
          simp [hm, he, this]
    · have : tick.instrument ≠ i := fun h => hi h.symm
      simp [hi, this]

theorem update_config (e : CandleEngine) (tick : Tick) (session : SessionContext) :
    SameConfig e (e.update tick session) ∧ (e.update tick session).timeframes = e.timeframes := by
  unfold update
  split
  · exact foldl_updateTimeframe_config _ _
  · exact ⟨SameConfig.refl e, rfl⟩

end Update

/-- No operation changes the schedule, the timezone or the window. -/
theorem step_config (e : CandleEngine) (op : Op) : SameConfig e (step e op).1 := by
  cases op with
  | update tick session => exact (update_config e tick session).1
  | recordContinuity event =>
    simp only [step, recordContinuity]
    split <;> exact ⟨rfl, rfl, rfl⟩
  | flush atTime => exact ⟨rfl, rfl, rfl⟩
  | reconcile authoritative timeframe =>
    simp only [step, reconcile]
    split
    · exact SameConfig.refl e
    · split <;> first | exact ⟨rfl, rfl, rfl⟩ | (split <;> exact SameConfig.refl e)
  | setRequiredTimeframes timeframes =>
    simp only [step, setRequiredTimeframes]
    split <;> exact ⟨rfl, rfl, rfl⟩

end CandleEngine

/-- A live tick of 2024-10-04 at `m` minutes past midnight, exchange time. -/
def sampleTick (m : Int) (price : Price) : Tick × SessionContext :=
  ({ instrument := reliance, eventTimestamp := 20000 * day + (m - 330) * minute, lastPrice := price },
   { tradingDate := 20000, marketState := .liveSession, exchangeTimezone := "Asia/Kolkata" })

end ApexScan
