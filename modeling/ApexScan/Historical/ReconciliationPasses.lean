import ApexScan.Engine.RepairsKept
import ApexScan.Historical.Warmup
import ApexScan.Lib.Interleaving

/-!
# Reconciling completed intervals (`reconcile_completed` of `app/market_engine/historical/service.py`)

A pass over one instrument reads the incomplete intervals of every timeframe, fetches authoritative
history for those that can be repaired and reconciles them one by one.  It waits at each fetch, and
while it waits ticks, continuity events and other passes go on.

* `ReconciliationService` — `repairState`, `request`, `authoritativeSeries`, `applyRepairs`.
* `Pass`, `proceed`, `resume` — a pass between the points where it waits.
* `passes` — the program of passes and live operations over one candle engine.

Main results: `passes_report_each`, `finalized_is_authoritative` and `passes_leave_live`, over every
interleaving.
-/

set_option autoImplicit false

namespace ApexScan.Reconciliation

open Lib CandleEngine

/-! ## The service -/

/-- How `_repair_state` classifies an incomplete interval. -/
inductive RepairState where
  | repair
  | currentDay
  | skip
  deriving DecidableEq, Repr

/-- What the passes of a `HistoricalWarmupService` read. -/
structure ReconciliationService where
  planner : HistoricalRangePlanner
  directTimeframes : List Timeframe
  supportsCurrentDay : Bool := false

namespace ReconciliationService

variable (s : ReconciliationService)

/-- `_repair_state`. -/
def repairState (anchor : Int) (incomplete : IncompleteCandle) : RepairState :=
  let tradingDate := s.planner.localDate incomplete.startTimestamp
  if s.planner.calendar.isTradingDay tradingDate = false ∨ anchor < tradingDate then .skip
  else if tradingDate = anchor ∧ s.supportsCurrentDay = false then .currentDay
  else .repair

/-- The intervals that `_reconcile_timeframe` withholds. -/
def withheld (anchor : Int) (incomplete : List IncompleteCandle) : List IncompleteCandle :=
  incomplete.filter fun item => s.repairState anchor item = .currentDay

/-- The intervals that `_reconcile_timeframe` tries to repair. -/
def repairable (anchor : Int) (incomplete : List IncompleteCandle) : List IncompleteCandle :=
  incomplete.filter fun item => s.repairState anchor item = .repair

/-- `session_bounds`. -/
def sessionBounds (tradingDate : Int) : Int × Int :=
  (s.planner.localize tradingDate s.planner.schedule.regularOpen,
    s.planner.localize tradingDate s.planner.schedule.regularClose)

/-- The plan of `_safe_candles`. -/
def planOf (instrument : Instrument) (timeframe : Timeframe) (start stop : Int) :
    HistoricalFetchPlan where
  instrument := instrument
  requirement := ⟨timeframe, 1, Nat.one_pos⟩
  start := start
  stop := stop
  interval := intervalForTimeframe timeframe

/-- `_authoritative_series` up to its fetch: the base timeframe, if the target is not direct, and the
    plan over the dates of the items; `none` when there is nothing to fetch. -/
def request (instrument : Instrument) (timeframe : Timeframe) (items : List IncompleteCandle) :
    Option (Option Timeframe × HistoricalFetchPlan) :=
  let dates := sortBy id ((items.map fun item => s.planner.localDate item.startTimestamp).dedup)
  match dates.head?, dates.getLast? with
  | some first, some last =>
    let start := (s.sessionBounds first).1
    let stop := (s.sessionBounds last).2
    if timeframe ∈ s.directTimeframes then some (none, planOf instrument timeframe start stop)
    else (selectBase timeframe s.directTimeframes).map fun base =>
      (some base, planOf instrument base start stop)
  | _, _ => none

/-- `_authoritative_series` after its fetch, with the failures that `_safe_candles` isolates. -/
def authoritativeSeries (timeframe : Timeframe) (base : Option Timeframe)
    (answer : Except FetchError (List Candle)) : Except WarmupError (Option HistoricalSeries) :=
  match answer with
  | .error .invalidRequest => .error .validation
  | .error _ => .ok none
  | .ok candles =>
    if candles.isEmpty then .ok none
    else
      match base with
      | none => do
        let prepared ← prepareCandles s.planner timeframe candles
        if prepared.isEmpty then return none
        some <$> orInvalid (HistoricalSeries.create timeframe prepared)
      | some base => do
        let source ← orInvalid (HistoricalSeries.create base candles)
        orInvalid (reconstructSeries source timeframe s.planner.effective s.planner.calendar
          s.planner.timezone)

end ReconciliationService

/-- The result of an interval that no authoritative candle was found for. -/
def missing (item : IncompleteCandle) : ReconciliationResult where
  identity := identityOfIncomplete item
  outcome := .noAuthoritativeCandle

/-- The result of an interval of the current day. -/
def withheldResult (item : IncompleteCandle) : ReconciliationResult where
  identity := identityOfIncomplete item
  outcome := .currentDayWithheld

/-- `{identity_of(candle, timeframe): candle for candle in series.candles}`. -/
def byIdentity (timeframe : Timeframe) (series : HistoricalSeries) : Dict CandleIdentity Candle :=
  series.candles.foldl (fun d candle => d.set (identityOf candle timeframe) candle) []

/-- `_apply_repairs`. -/
def applyRepairs (timeframe : Timeframe) (series : HistoricalSeries) :
    List IncompleteCandle → CandleEngine → CandleEngine × List ReconciliationResult
  | [], engine => (engine, [])
  | item :: items, engine =>
    match (byIdentity timeframe series).get (identityOfIncomplete item) with
    | none =>
      let rest := applyRepairs timeframe series items engine
      (rest.1, missing item :: rest.2)
    | some authoritative =>
      let repaired := engine.reconcile authoritative timeframe
      let rest := applyRepairs timeframe series items repaired.1
      (rest.1, repaired.2 :: rest.2)

/-! ## A pass -/

/-- The operations of the live path on the candle engine. -/
inductive LiveOp where
  | update (tick : Tick) (session : SessionContext)
  | recordContinuity (event : FeedContinuityEvent)
  | flush (atTime : Int)
  | setRequiredTimeframes (timeframes : List Timeframe)

/-- The operation of the engine. -/
def LiveOp.op : LiveOp → Op
  | .update tick session => .update tick session
  | .recordContinuity event => .recordContinuity event
  | .flush atTime => .flush atTime
  | .setRequiredTimeframes timeframes => .setRequiredTimeframes timeframes

/-- A call of `reconcile_completed`: the candle sets it read, those it has gone through, and the
    results so far. -/
structure Pass where
  instrument : Instrument
  reference : Int
  snapshot : List TimeframeCandles
  passed : List TimeframeCandles := []
  results : List ReconciliationResult := []

/-- A pass that waits for the fetch of one timeframe. -/
structure Awaiting where
  pass : Pass
  current : TimeframeCandles
  left : List TimeframeCandles
  base : Option Timeframe
  plan : HistoricalFetchPlan

inductive Task where
  | live (op : LiveOp)
  | awaiting (a : Awaiting)

/-- What is left of a task: the live operation that was done, or the end of a pass. -/
inductive Report where
  | live (op : LiveOp)
  | summary (instrument : Instrument) (reference : Int) (snapshot : List TimeframeCandles)
      (outcome : Except WarmupError (List ReconciliationResult))

inductive Request where
  | live (op : LiveOp)
  | reconcileCompleted (instrument : Instrument) (reference : Int)

/-- The pass has gone through one more timeframe. -/
def Pass.through (p : Pass) (candles : TimeframeCandles) (results : List ReconciliationResult) : Pass :=
  { p with passed := p.passed ++ [candles], results := p.results ++ results }

section

variable (s : ReconciliationService)

/-- The loop of `reconcile_completed`, up to the next fetch. -/
def proceed (p : Pass) : List TimeframeCandles → Progress Task Report
  | [] => .finished (.summary p.instrument p.reference p.snapshot (.ok p.results))
  | candles :: left =>
    let anchor := s.planner.localDate p.reference
    let withheld := (s.withheld anchor candles.incomplete).map withheldResult
    let repairable := s.repairable anchor candles.incomplete
    if repairable.isEmpty then proceed (p.through candles withheld) left
    else
      match s.request p.instrument candles.timeframe repairable with
      | none => proceed (p.through candles (withheld ++ repairable.map missing)) left
      | some (base, plan) => .running (.awaiting ⟨p, candles, left, base, plan⟩)

/-- The rest of `_reconcile_timeframe` after its fetch, and the loop up to the next one. -/
def resume (answer : Except FetchError (List Candle)) (a : Awaiting) (engine : CandleEngine) :
    CandleEngine × Progress Task Report :=
  let p := a.pass
  let anchor := s.planner.localDate p.reference
  let withheld := (s.withheld anchor a.current.incomplete).map withheldResult
  let repairable := s.repairable anchor a.current.incomplete
  match s.authoritativeSeries a.current.timeframe a.base answer with
  | .error e => (engine, .finished (.summary p.instrument p.reference p.snapshot (.error e)))
  | .ok none => (engine, proceed s (p.through a.current (withheld ++ repairable.map missing)) a.left)
  | .ok (some series) =>
    let repaired := applyRepairs a.current.timeframe series repairable engine
    (repaired.1, proceed s (p.through a.current (withheld ++ repaired.2)) a.left)

/-- The passes and the live path over one engine.  A choice is the answer of the fetch a pass waits
    for; a live operation has none. -/
def passes : Program CandleEngine Task Report Request (Except FetchError (List Candle)) where
  start
    | .live op, _ => .running (.live op)
    | .reconcileCompleted instrument reference, engine =>
      let snapshot := engine.candleSetsFor instrument
      proceed s { instrument, reference, snapshot } snapshot
  advance
    | _, .live op, engine => ((CandleEngine.step engine op.op).1, .finished (.live op))
    | answer, .awaiting a, engine => resume s answer a engine

end

/-! ## What is to hold -/

/-- The result answers for the incomplete interval: it has its identity, is withheld exactly for the
    current day, and a candle in it has the identity too. -/
structure Answers (s : ReconciliationService) (anchor : Int) (item : IncompleteCandle)
    (r : ReconciliationResult) : Prop where
  identity : r.identity = identityOfIncomplete item
  withheld : r.outcome = .currentDayWithheld ↔ s.repairState anchor item = .currentDay
  candle : ∀ c, r.candle = some c → identityOf c item.timeframe = identityOfIncomplete item

/-- The intervals of one timeframe that a pass answers for, in its order. -/
def answerable (s : ReconciliationService) (anchor : Int) (candles : TimeframeCandles) :
    List IncompleteCandle :=
  s.withheld anchor candles.incomplete ++ s.repairable anchor candles.incomplete

/-- The candle is of a trading day that is not after the date of the reference, and before it unless
    the current day is supported. -/
def CompletedAt (s : ReconciliationService) (reference : Int) (c : Candle) : Prop :=
  let date := s.planner.localDate c.startTimestamp
  let anchor := s.planner.localDate reference
  s.planner.calendar.isTradingDay date = true ∧ date ≤ anchor ∧
    (s.supportsCurrentDay = false → date < anchor)

abbrev PassTurn := Turn Request (Except FetchError (List Candle))

/-- The candle was put into its stream by a pass over its instrument, from a series that an answered
    fetch gave, on a completed session of the pass. -/
def Authoritative (s : ReconciliationService) (turns : List PassTurn) (timeframe : Timeframe)
    (c : Candle) : Prop :=
  (∃ process reference, .start process (.reconcileCompleted c.instrument reference) ∈ turns ∧
    CompletedAt s reference c) ∧
  ∃ process candles base series, .advance process (.ok candles) ∈ turns ∧
    s.authoritativeSeries timeframe base (.ok candles) = .ok (some series) ∧ c ∈ series.candles

/-! ## Streams of their own instrument -/

/-- The stream belongs to its key, with all it retains, and its finalized candles satisfy `F`. -/
structure Own (F : Timeframe → Candle → Prop) (i : Instrument) (tf : Timeframe) (st : TimeframeState) :
    Prop where
  instrument : st.instrument = i
  timeframe : st.timeframe = tf
  incomplete : ∀ c ∈ st.incomplete, c.instrument = i ∧ c.timeframe = tf
  finalized : ∀ f ∈ st.finalized, f.instrument = i ∧ F tf f

/-- Every stream of the engine belongs to its key. -/
def OwnStreams (F : Timeframe → Candle → Prop) (e : CandleEngine) : Prop :=
  ∀ i tf st, e.states.get (i, tf) = some st → Own F i tf st

section

variable {F : Timeframe → Candle → Prop} {i : Instrument} {tf : Timeframe} {st : TimeframeState}
  {e : CandleEngine}

theorem Own.mono {G : Timeframe → Candle → Prop} (h : Own F i tf st) (hFG : ∀ tf f, F tf f → G tf f) :
    Own G i tf st :=
  ⟨h.instrument, h.timeframe, h.incomplete,
    fun f hf => ⟨(h.finalized f hf).1, hFG tf f (h.finalized f hf).2⟩⟩

theorem own_new (F : Timeframe → Candle → Prop) (i : Instrument) (tf : Timeframe) :
    Own F i tf { instrument := i, timeframe := tf } :=
  ⟨rfl, rfl, fun _ hc => absurd hc List.not_mem_nil, fun _ hf => absurd hf List.not_mem_nil⟩

theorem Own.finalizePartial (h : Own F i tf st) (window : ℕ) : Own F i tf (st.finalizePartial window) := by
  unfold TimeframeState.finalizePartial
  split
  · exact h
  · rename_i bucket hbucket
    refine ⟨h.instrument, h.timeframe, fun c hc => ?_, h.finalized⟩
    rcases List.mem_append.mp ((rtake_sublist _ _).subset hc) with hc | hc
    · exact h.incomplete c hc
    · rw [List.mem_singleton.mp hc]
      exact ⟨h.instrument, h.timeframe⟩

theorem Own.onDate (h : Own F i tf st) (window : ℕ) (date : Int) :
    Own F i tf (st.onDate window date) := by
  unfold TimeframeState.onDate
  split
  · exact h
  · obtain ⟨hi, htf, hinc, hfin⟩ := h.finalizePartial window
    exact ⟨hi, htf, hinc, hfin⟩

theorem Own.streamStep (h : Own F i tf st) (window : ℕ) (date : Int) (broken : Bool)
    (bounds : Int × Int × Int) (tick : Tick) : Own F i tf (st.streamStep window date broken bounds tick) := by
  have hdate := h.onDate window date
  unfold TimeframeState.streamStep TimeframeState.observe
  split
  · split
    · exact ⟨hdate.instrument, hdate.timeframe, hdate.incomplete, hdate.finalized⟩
    · obtain ⟨hi, htf, hinc, hfin⟩ := hdate.finalizePartial window
      exact ⟨hi, htf, hinc, hfin⟩
  · exact ⟨hdate.instrument, hdate.timeframe, hdate.incomplete, hdate.finalized⟩

/-- A live operation keeps the streams with their keys, and their finalized candles. -/
theorem OwnStreams.live (h : OwnStreams F e) (op : LiveOp) : OwnStreams F (CandleEngine.step e op.op).1 := by
  intro i tf st' hst'
  rcases ContinuityTaint.step_stream hst' with
    ⟨tick, session, broken, -, -, -, rfl⟩ | ⟨-, st, hst, htouched⟩
  · apply Own.streamStep
    unfold CandleEngine.stateFor
    cases hget : e.states.get (i, tf) with
    | none => exact own_new F i tf
    | some st => exact h i tf st hget
  · have hown := h i tf st hst
    generalize hop : op.op = o at htouched
    cases htouched with
    | same => exact hown
    | broken => exact ⟨hown.instrument, hown.timeframe, hown.incomplete, hown.finalized⟩
    | closed _ => exact hown.finalizePartial _
    | repaired inc fin => cases op <;> cases hop

/-- A reconciliation with a candle that satisfies `F` keeps them too. -/
theorem OwnStreams.reconcile (h : OwnStreams F e) {auth : Candle} (hauth : F tf auth) :
    OwnStreams F (e.reconcile auth tf).1 := by
  intro i tf' st' hst'
  rcases RetainedOnce.reconcile_moves hst' with hsame | ⟨st, hst, ⟨c, hc, hidentity⟩, rfl⟩
  · exact h i tf' st' hsame
  · have hown := h i tf' st hst
    have htf : tf = tf' := by
      rw [← (hown.incomplete c hc).2]
      exact congrArg CandleIdentity.timeframe hidentity.symm
    subst htf
    refine ⟨hown.instrument, hown.timeframe, fun c' hc' => ?_, fun f hf => ?_⟩
    · exact hown.incomplete c' (List.mem_filter.mp ((rtake_sublist _ _).subset hc')).1
    · have hmem := (List.mem_insertionSort _).mp ((rtake_sublist _ _).subset hf)
      rcases List.mem_append.mp hmem with hf | hf
      · exact hown.finalized f (List.mem_filter.mp hf).1
      · rw [List.mem_singleton.mp hf, ← (hown.incomplete c hc).1]
        exact ⟨congrArg CandleIdentity.instrument hidentity.symm, hauth⟩

/-- What a pass reads of an engine is of its instrument. -/
theorem OwnStreams.candleSetsFor (h : OwnStreams F e) (i : Instrument) {candles : TimeframeCandles}
    (hcandles : candles ∈ e.candleSetsFor i) : ∀ c ∈ candles.incomplete, c.instrument = i := by
  obtain ⟨tf, -, rfl⟩ := List.mem_map.mp hcandles
  intro c hc
  cases hget : e.states.get (i, tf) with
  | none => simp [hget] at hc
  | some st =>
    simp only [hget, Option.map_some, Option.getD_some] at hc
    exact ((h i tf st hget).incomplete c hc).1

end

/-! ## The repairs of one timeframe -/

section

variable {s : ReconciliationService} {anchor reference : Int} {tf : Timeframe} {series : HistoricalSeries}
  {item : IncompleteCandle} {c : Candle}

/-- What is found under an identity is a candle of the series that has it. -/
theorem byIdentity_get {identity : CandleIdentity} (h : (byIdentity tf series).get identity = some c) :
    c ∈ series.candles ∧ identityOf c tf = identity := by
  unfold byIdentity at h
  generalize series.candles = candles at h ⊢
  induction candles using List.reverseRecOn with
  | nil => cases h
  | append_singleton candles last ih =>
    rw [List.foldl_append, List.foldl_cons, List.foldl_nil, Dict.get_set] at h
    split at h
    · rename_i hidentity
      cases h
      exact ⟨by simp, hidentity⟩
    · obtain ⟨hmem, hidentity⟩ := ih h
      exact ⟨List.mem_append_left _ hmem, hidentity⟩

theorem mem_repairable_iff {items : List IncompleteCandle} :
    item ∈ s.repairable anchor items ↔ item ∈ items ∧ s.repairState anchor item = .repair := by
  simp [ReconciliationService.repairable]

theorem answers_missing (h : s.repairState anchor item = .repair) : Answers s anchor item (missing item) := by
  refine ⟨rfl, ?_, fun c hc => by cases hc⟩
  rw [h]
  constructor <;> (intro heq; cases heq)

theorem answers_withheld (h : s.repairState anchor item = .currentDay) :
    Answers s anchor item (withheldResult item) :=
  ⟨rfl, ⟨fun _ => h, fun _ => rfl⟩, fun c hc => by cases hc⟩

/-- A call of `reconcile` answers under the candle's identity, and withholds nothing. -/
theorem reconcile_result (e : CandleEngine) (auth : Candle) (tf : Timeframe) :
    (e.reconcile auth tf).2.identity = identityOf auth tf ∧
      (e.reconcile auth tf).2.outcome ≠ .currentDayWithheld ∧
      ∀ c, (e.reconcile auth tf).2.candle = some c → c = auth := by
  have hmatch : ∀ incomplete finalized,
      matchOutcome auth tf incomplete finalized ≠ .currentDayWithheld := by
    intro incomplete finalized h
    unfold matchOutcome at h
    split at h
    · split at h <;> cases h
    · split at h <;> cases h
  unfold CandleEngine.reconcile
  simp only
  split
  · exact ⟨rfl, by simp, fun c hc => by cases hc⟩
  · rename_i st _
    have hne := hmatch st.incomplete st.finalized
    split
    · exact ⟨rfl, by simp, fun c hc => (Option.some.inj hc).symm⟩
    · split <;> exact ⟨rfl, by simp, fun c hc => by cases hc⟩
    · exact ⟨rfl, by simp, fun c hc => (Option.some.inj hc).symm⟩
    · exact ⟨rfl, hne, fun c hc => by cases hc⟩

theorem answers_reconcile {e : CandleEngine} (h : s.repairState anchor item = .repair)
    (hidentity : identityOf c tf = identityOfIncomplete item) :
    Answers s anchor item (e.reconcile c tf).2 := by
  obtain ⟨hresult, houtcome, hcandle⟩ := reconcile_result e c tf
  have htf : tf = item.timeframe := congrArg CandleIdentity.timeframe hidentity
  refine ⟨hresult.trans hidentity, ?_, fun c' hc' => ?_⟩
  · rw [h]
    exact ⟨fun heq => absurd heq houtcome, fun heq => by cases heq⟩
  · rw [hcandle c' hc', ← htf]
    exact hidentity

/-- The repairs answer for their items one by one, and keep the streams, if every candle they use
    satisfies `F`. -/
theorem applyRepairs_spec {F : Timeframe → Candle → Prop} {items : List IncompleteCandle}
    {e : CandleEngine} (he : OwnStreams F e) (hitems : ∀ item ∈ items, s.repairState anchor item = .repair)
    (hF : ∀ item ∈ items, ∀ c ∈ series.candles, identityOf c tf = identityOfIncomplete item → F tf c) :
    OwnStreams F (applyRepairs tf series items e).1 ∧
      List.Forall₂ (Answers s anchor) items (applyRepairs tf series items e).2 := by
  induction items generalizing e with
  | nil => exact ⟨he, .nil⟩
  | cons item items ih =>
    have hitem := hitems item (by simp)
    have hrest : ∀ item' ∈ items, s.repairState anchor item' = .repair :=
      fun item' h => hitems item' (List.mem_cons_of_mem _ h)
    have hFrest : ∀ item' ∈ items, ∀ c ∈ series.candles,
        identityOf c tf = identityOfIncomplete item' → F tf c :=
      fun item' h => hF item' (List.mem_cons_of_mem _ h)
    rw [applyRepairs]
    split
    · obtain ⟨hown, hresults⟩ := ih he hrest hFrest
      exact ⟨hown, .cons (answers_missing hitem) hresults⟩
    · rename_i authoritative hget
      obtain ⟨hmem, hidentity⟩ := byIdentity_get hget
      have hauth : F tf authoritative := hF item (by simp) authoritative hmem hidentity
      obtain ⟨hown, hresults⟩ := ih (he.reconcile hauth) hrest hFrest
      exact ⟨hown, .cons (answers_reconcile hitem hidentity) hresults⟩

/-- A candle with the identity of an interval that can be repaired is of a completed session. -/
theorem completedAt_of_repair (h : s.repairState (s.planner.localDate reference) item = .repair)
    (hidentity : identityOf c tf = identityOfIncomplete item) : CompletedAt s reference c := by
  have hstart : c.startTimestamp = item.startTimestamp :=
    congrArg CandleIdentity.startTimestamp hidentity
  unfold ReconciliationService.repairState at h
  unfold CompletedAt
  rw [hstart]
  simp only at h ⊢
  split at h
  · cases h
  · rename_i hskip
    split at h
    · cases h
    · rename_i hcurrent
      push Not at hskip hcurrent
      refine ⟨Bool.eq_true_of_not_eq_false hskip.1, hskip.2, fun hsupports => ?_⟩
      exact lt_of_le_of_ne hskip.2 fun heq => hcurrent heq hsupports

end

/-! ## Passes in any interleaving -/

/-- The candle sets were read after some of the turns. -/
def ReadIn (s : ReconciliationService) (e₀ : CandleEngine) (turns : List PassTurn)
    (instrument : Instrument) (snapshot : List TimeframeCandles) : Prop :=
  ∃ earlier, earlier <+: turns ∧
    snapshot = (run (passes s).step ⟨e₀, []⟩ earlier).shared.candleSetsFor instrument

/-- The results answer for the intervals that were read, one for each and in order. -/
def Reported (s : ReconciliationService) (reference : Int) (candles : List TimeframeCandles)
    (results : List ReconciliationResult) : Prop :=
  List.Forall₂ (Answers s (s.planner.localDate reference))
    (candles.flatMap (answerable s (s.planner.localDate reference))) results

/-- A pass after some turns: it was started, has read its instrument and has answered for the
    timeframes it has gone through. -/
structure Underway (s : ReconciliationService) (e₀ : CandleEngine) (turns : List PassTurn) (p : Pass) :
    Prop where
  started : ∃ process, .start process (.reconcileCompleted p.instrument p.reference) ∈ turns
  read : ReadIn s e₀ turns p.instrument p.snapshot
  own : ∀ candles ∈ p.snapshot, ∀ c ∈ candles.incomplete, c.instrument = p.instrument
  reported : Reported s p.reference p.passed p.results

/-- What a task knows of the turns. -/
def Known (s : ReconciliationService) (e₀ : CandleEngine) (turns : List PassTurn) : Task → Prop
  | .live _ => True
  | .awaiting a => Underway s e₀ turns a.pass ∧ a.pass.snapshot = a.pass.passed ++ a.current :: a.left

/-- What the end of a pass reports. -/
def Ended (s : ReconciliationService) (e₀ : CandleEngine) (turns : List PassTurn) : Report → Prop
  | .live _ => True
  | .summary instrument reference snapshot outcome => ReadIn s e₀ turns instrument snapshot ∧
      ∀ results, outcome = .ok results → Reported s reference snapshot results

section

variable {s : ReconciliationService} {e₀ : CandleEngine} {turns : List PassTurn} {turn : PassTurn}
  {p : Pass}

theorem Authoritative.mono {tf : Timeframe} {c : Candle} (h : Authoritative s turns tf c) :
    Authoritative s (turns ++ [turn]) tf c := by
  obtain ⟨⟨process, reference, hstart, hcompleted⟩, process', candles, base, series, hanswer, hseries⟩ := h
  exact ⟨⟨process, reference, List.mem_append_left _ hstart, hcompleted⟩, process', candles, base,
    series, List.mem_append_left _ hanswer, hseries⟩

theorem ReadIn.mono {instrument : Instrument} {snapshot : List TimeframeCandles}
    (h : ReadIn s e₀ turns instrument snapshot) : ReadIn s e₀ (turns ++ [turn]) instrument snapshot := by
  obtain ⟨earlier, hprefix, hread⟩ := h
  exact ⟨earlier, hprefix.trans (List.prefix_append _ _), hread⟩

theorem Underway.mono (h : Underway s e₀ turns p) : Underway s e₀ (turns ++ [turn]) p := by
  obtain ⟨⟨process, hstart⟩, hread, hown, hreported⟩ := h
  exact ⟨⟨process, List.mem_append_left _ hstart⟩, hread.mono, hown, hreported⟩

/-- A pass that has answered for one more timeframe. -/
theorem Underway.through (h : Underway s e₀ turns p) {candles : TimeframeCandles}
    {results : List ReconciliationResult}
    (hresults : List.Forall₂ (Answers s (s.planner.localDate p.reference))
      (answerable s (s.planner.localDate p.reference) candles) results) :
    Underway s e₀ turns (p.through candles results) := by
  refine ⟨h.started, h.read, h.own, ?_⟩
  unfold Reported Pass.through
  simp only [List.flatMap_append, List.flatMap_cons, List.flatMap_nil, List.append_nil]
  exact List.rel_append h.reported hresults

theorem withheld_answers (s : ReconciliationService) (anchor : Int) (items : List IncompleteCandle) :
    List.Forall₂ (Answers s anchor) (s.withheld anchor items)
      ((s.withheld anchor items).map withheldResult) := by
  rw [List.forall₂_map_right_iff, List.forall₂_same]
  intro item hitem
  exact answers_withheld (of_decide_eq_true (List.mem_filter.mp hitem).2)

theorem missing_answers (s : ReconciliationService) (anchor : Int) (items : List IncompleteCandle) :
    List.Forall₂ (Answers s anchor) (s.repairable anchor items)
      ((s.repairable anchor items).map missing) := by
  rw [List.forall₂_map_right_iff, List.forall₂_same]
  intro item hitem
  exact answers_missing (mem_repairable_iff.mp hitem).2

/-- A pass goes on to its next fetch, or ends with all its intervals answered for. -/
theorem proceed_holds (h : Underway s e₀ turns p) {left : List TimeframeCandles}
    (hsplit : p.snapshot = p.passed ++ left) :
    (proceed s p left).Holds (Known s e₀ turns) (Ended s e₀ turns) := by
  induction left generalizing p with
  | nil =>
    refine ⟨h.read, fun results hresults => ?_⟩
    cases hresults
    have hall : p.snapshot = p.passed := by simpa using hsplit
    rw [hall]
    exact h.reported
  | cons candles left ih =>
    have hnext : ∀ results : List ReconciliationResult,
        (p.through candles results).snapshot = (p.through candles results).passed ++ left := by
      intro results
      show p.snapshot = (p.passed ++ [candles]) ++ left
      rw [hsplit, List.append_assoc, List.singleton_append]
    have hwithheld := withheld_answers s (s.planner.localDate p.reference) candles.incomplete
    rw [proceed]
    split
    · rename_i hempty
      refine ih (h.through ?_) (hnext _)
      unfold answerable
      rw [List.isEmpty_iff.mp hempty, List.append_nil]
      exact hwithheld
    · split
      · exact ih (h.through (List.rel_append hwithheld (missing_answers s _ _))) (hnext _)
      · exact ⟨h, hsplit⟩

/-- A pass that has its answer repairs what it can, and goes on. -/
theorem resume_holds {process : ℕ} {answer : Except FetchError (List Candle)} {a : Awaiting}
    {e : CandleEngine} (ha : Known s e₀ turns (.awaiting a)) (he : OwnStreams (Authoritative s turns) e) :
    OwnStreams (Authoritative s (turns ++ [.advance process answer])) (resume s answer a e).1 ∧
      (resume s answer a e).2.Holds (Known s e₀ (turns ++ [.advance process answer]))
        (Ended s e₀ (turns ++ [.advance process answer])) := by
  obtain ⟨hunderway, hsplit⟩ := ha
  have hp : Underway s e₀ (turns ++ [.advance process answer]) a.pass := hunderway.mono
  have he' : OwnStreams (Authoritative s (turns ++ [.advance process answer])) e :=
    fun i tf st hst => (he i tf st hst).mono fun _ _ h => h.mono
  have hnext : ∀ results : List ReconciliationResult, (a.pass.through a.current results).snapshot =
      (a.pass.through a.current results).passed ++ a.left := by
    intro results
    show a.pass.snapshot = (a.pass.passed ++ [a.current]) ++ a.left
    rw [hsplit, List.append_assoc, List.singleton_append]
  have hwithheld := withheld_answers s (s.planner.localDate a.pass.reference) a.current.incomplete
  unfold resume
  simp only
  split
  · exact ⟨he', hp.read, fun results hresults => by cases hresults⟩
  · exact ⟨he', proceed_holds (hp.through (List.rel_append hwithheld (missing_answers s _ _))) (hnext _)⟩
  · rename_i series hseries
    have hanswer : ∃ candles, answer = .ok candles := by
      cases answer with
      | ok candles => exact ⟨candles, rfl⟩
      | error e => cases e <;> cases hseries
    obtain ⟨candles, rfl⟩ := hanswer
    -- a candle that repairs an interval has its instrument and its start
    have hauthoritative : ∀ item ∈ s.repairable (s.planner.localDate a.pass.reference)
        a.current.incomplete, ∀ c ∈ series.candles,
        identityOf c a.current.timeframe = identityOfIncomplete item →
          Authoritative s (turns ++ [.advance process (.ok candles)]) a.current.timeframe c := by
      intro item hitem c hc hidentity
      obtain ⟨hmem, hrepair⟩ := mem_repairable_iff.mp hitem
      have hinstrument : c.instrument = a.pass.instrument := by
        rw [← hp.own a.current (by rw [hsplit]; simp) item hmem]
        exact congrArg CandleIdentity.instrument hidentity
      obtain ⟨starter, hstarted⟩ := hp.started
      rw [← hinstrument] at hstarted
      exact ⟨⟨starter, _, hstarted, completedAt_of_repair hrepair hidentity⟩, process, candles, a.base,
        series, by simp, hseries, hc⟩
    obtain ⟨hown, hresults⟩ := applyRepairs_spec he'
      (fun item hitem => (mem_repairable_iff.mp hitem).2) hauthoritative
    exact ⟨hown, proceed_holds (hp.through (List.rel_append hwithheld hresults)) (hnext _)⟩

/-- What is recorded of the passes of a run. -/
theorem passes_recorded (s : ReconciliationService) (e₀ : CandleEngine) :
    Recorded (passes s) ⟨e₀, []⟩ (fun turns e => OwnStreams (Authoritative s turns) e)
      (Known s e₀) (Ended s e₀) where
  memory_mono turns turn e h := fun i tf st hst => (h i tf st hst).mono fun _ _ hc => hc.mono
  task_mono turns turn t h := by
    cases t with
    | live op => trivial
    | awaiting a => exact ⟨h.1.mono, h.2⟩
  result_mono turns turn r h := by
    cases r with
    | live op => trivial
    | summary => exact ⟨h.1.mono, h.2⟩
  start turns process request he := by
    cases request with
    | live op => trivial
    | reconcileCompleted instrument reference =>
      let e := (run (passes s).step ⟨e₀, []⟩ turns).shared
      let p : Pass := { instrument, reference, snapshot := e.candleSetsFor instrument }
      have hbegun : Underway s e₀ (turns ++ [.start process (.reconcileCompleted instrument reference)])
          p := by
        refine ⟨⟨process, by simp [p]⟩, ⟨turns, List.prefix_append _ _, rfl⟩, ?_, .nil⟩
        exact fun candles hcandles => he.candleSetsFor instrument hcandles
      exact proceed_holds hbegun rfl
  advance turns process choice t he ht := by
    cases t with
    | live op =>
      refine ⟨?_, trivial⟩
      exact fun i tf st hst => (he.live op i tf st hst).mono fun _ _ hc => hc.mono
    | awaiting a => exact resume_holds ht he

/-- A new engine has no streams. -/
theorem ownStreams_create {F : Timeframe → Candle → Prop} {schedule : SessionSchedule}
    {timezone : ZoneInfo} {timeframes : List Timeframe} {window : ℕ}
    (hcreate : create schedule timezone timeframes window = some e₀) : OwnStreams F e₀ := by
  unfold create at hcreate
  split at hcreate
  · split at hcreate
    · obtain rfl := (Option.some.inj hcreate).symm
      intro i tf st hst
      cases hst
    · cases hcreate
  · cases hcreate

/-- **Every interval is answered for once.**  Whatever ticks, continuity events and other passes come
    between its fetches, and whatever these answer, a pass that ends without raising has one result
    for each interval of the streams it read that is not skipped, under the interval's identity and in
    the order of the pass: timeframe by timeframe, what is withheld first.  The result is withheld
    exactly for the current day, and a candle in it is the interval's. -/
theorem passes_report_each (s : ReconciliationService) {schedule : SessionSchedule}
    {timezone : ZoneInfo} {timeframes : List Timeframe} {window : ℕ}
    (hcreate : create schedule timezone timeframes window = some e₀) (turns : List PassTurn) :
    ∀ process instrument reference snapshot outcome,
      some (process, .summary instrument reference snapshot outcome) ∈
        outs (passes s).step ⟨e₀, []⟩ turns →
      ReadIn s e₀ turns instrument snapshot ∧
        ∀ results, outcome = .ok results → Reported s reference snapshot results := by
  obtain ⟨-, -, hresults⟩ := (passes_recorded s e₀).run (ownStreams_create hcreate) rfl turns
  intro process instrument reference snapshot outcome h
  exact hresults process _ h

/-- **Only authoritative candles are finalized.**  In every interleaving, every finalized candle of a
    stream is of the stream's instrument, comes from a series that an answered fetch gave, and lies on
    a trading day of a pass over the instrument that is past, or is the day of the pass where that is
    supported. -/
theorem finalized_is_authoritative (s : ReconciliationService) {schedule : SessionSchedule}
    {timezone : ZoneInfo} {timeframes : List Timeframe} {window : ℕ}
    (hcreate : create schedule timezone timeframes window = some e₀) (turns : List PassTurn) :
    let e := (run (passes s).step ⟨e₀, []⟩ turns).shared
    ∀ instrument timeframe st, e.states.get (instrument, timeframe) = some st →
      ∀ f ∈ st.finalized, f.instrument = instrument ∧ Authoritative s turns timeframe f := by
  obtain ⟨hown, -, -⟩ := (passes_recorded s e₀).run (ownStreams_create hcreate) rfl turns
  intro e instrument timeframe st hst f hf
  exact (hown instrument timeframe st hst).finalized f hf

end

/-! ## A repaired minute -/

theorem leapYear_ordered : (19723 : Int) ≤ 20088 := by decide

/-- The planner of the regular sessions of 2024, with no holidays. -/
def weekdayPlanner : HistoricalRangePlanner where
  effective := ⟨nseSchedule, [], List.nodup_nil⟩
  timezoneName := "Asia/Kolkata"
  timezone := kolkata
  window := { calendar := nseClassifier.calendar, coverage := ⟨19723, 20088, leapYear_ordered⟩ }

def minuteService : ReconciliationService where
  planner := weekdayPlanner
  directTimeframes := [RetainedOnce.oneMinute]

/-- Two ticks of 2024-10-04, then a pass on the next day whose fetch answers with the first minute. -/
def repairedMinute : List PassTurn :=
  [.start 0 (.live (.update (sampleTick 555 (rupees 100)).1 (sampleTick 555 (rupees 100)).2)),
    .advance 0 (.ok []),
    .start 0 (.live (.update (sampleTick 556 (rupees 100)).1 (sampleTick 556 (rupees 100)).2)),
    .advance 0 (.ok []),
    .start 1 (.reconcileCompleted reliance (20001 * day)),
    .advance 1 (.ok [RepairsKept.minuteCandle 555])]

/-- What the pass reads. -/
def readMinutes : List TimeframeCandles :=
  (run (passes minuteService).step ⟨RepairsKept.narrowEngine, []⟩
    (repairedMinute.take 4)).shared.candleSetsFor reliance

def reconciledMinute : ReconciliationResult where
  identity := identityOf (RepairsKept.minuteCandle 555) RetainedOnce.oneMinute
  outcome := .reconciled
  candle := some (RepairsKept.minuteCandle 555)

theorem repairedMinute_reported :
    create nseSchedule kolkata [RetainedOnce.oneMinute] 2 = some RepairsKept.narrowEngine ∧
      some (1, .summary reliance (20001 * day) readMinutes (.ok [reconciledMinute])) ∈
        outs (passes minuteService).step ⟨RepairsKept.narrowEngine, []⟩ repairedMinute ∧
      Reported minuteService (20001 * day) readMinutes [reconciledMinute] := by
  have hcreate : create nseSchedule kolkata [RetainedOnce.oneMinute] 2 =
      some RepairsKept.narrowEngine := rfl
  have hreport : some (1, Report.summary reliance (20001 * day) readMinutes (.ok [reconciledMinute])) ∈
      outs (passes minuteService).step ⟨RepairsKept.narrowEngine, []⟩ repairedMinute := by
    refine List.mem_of_getLast? ?_
    rfl
  obtain ⟨-, hreported⟩ := passes_report_each minuteService hcreate repairedMinute _ _ _ _ _ hreport
  exact ⟨hcreate, hreport, hreported _ rfl⟩

theorem repairedMinute_finalized :
    create nseSchedule kolkata [RetainedOnce.oneMinute] 2 = some RepairsKept.narrowEngine ∧
      Authoritative minuteService repairedMinute RetainedOnce.oneMinute (RepairsKept.minuteCandle 555) := by
  have hcreate : create nseSchedule kolkata [RetainedOnce.oneMinute] 2 =
      some RepairsKept.narrowEngine := rfl
  refine ⟨hcreate, ?_⟩
  have hstream : ∃ st, (run (passes minuteService).step ⟨RepairsKept.narrowEngine, []⟩
      repairedMinute).shared.states.get (reliance, RetainedOnce.oneMinute) = some st ∧
      RepairsKept.minuteCandle 555 ∈ st.finalized := ⟨_, rfl, by decide +kernel⟩
  obtain ⟨st, hst, hmem⟩ := hstream
  exact (finalized_is_authoritative minuteService hcreate repairedMinute _ _ st hst _ hmem).2

/-! ## The live path -/

/-- A stream without what the passes work on. -/
def liveOf (st : TimeframeState) : TimeframeState := { st with incomplete := [], finalized := [] }

/-- The engines have the same settings, taints and, apart from what the passes work on, streams. -/
structure SameLive (e e' : CandleEngine) : Prop where
  config : SameConfig e e'
  timeframes : e'.timeframes = e.timeframes
  streams : ∀ key, (e'.states.get key).map liveOf = (e.states.get key).map liveOf
  broken : e'.continuityBroken = e.continuityBroken

section

variable {e e' e'' : CandleEngine} {st st' : TimeframeState}

theorem SameLive.refl (e : CandleEngine) : SameLive e e := ⟨SameConfig.refl e, rfl, fun _ => rfl, rfl⟩

theorem SameLive.trans (h : SameLive e e') (h' : SameLive e' e'') : SameLive e e'' :=
  ⟨h.config.trans h'.config, h'.timeframes.trans h.timeframes,
    fun key => (h'.streams key).trans (h.streams key), h'.broken.trans h.broken⟩

theorem liveOf_eq_iff : liveOf st' = liveOf st ↔
    st' = { st with incomplete := st'.incomplete, finalized := st'.finalized } := by
  constructor
  · intro h
    cases st
    cases st'
    simpa [liveOf] using h
  · intro h
    rw [h]
    rfl

theorem liveOf_finalizePartial (window : ℕ) (h : liveOf st' = liveOf st) :
    liveOf (st'.finalizePartial window) = liveOf (st.finalizePartial window) := by
  rw [liveOf_eq_iff.mp h]
  cases st with
  | mk instrument timeframe finalized incomplete tradingDate bucket index cumulative =>
    cases bucket <;> rfl

theorem liveOf_onDate (window : ℕ) (date : Int) (h : liveOf st' = liveOf st) :
    liveOf (st'.onDate window date) = liveOf (st.onDate window date) := by
  have hclosed := liveOf_finalizePartial window h
  rw [liveOf_eq_iff.mp h] at hclosed ⊢
  unfold TimeframeState.onDate
  simp only
  split
  · rfl
  · unfold TimeframeState.resetSession
    rw [liveOf_eq_iff.mp hclosed]
    rfl

theorem liveOf_opened (broken : Bool) (bounds : Int × Int × Int) (tick : Tick)
    (h : liveOf st' = liveOf st) :
    liveOf { st' with partialBucket := some (st'.openBucket broken bounds tick) } =
      liveOf { st with partialBucket := some (st.openBucket broken bounds tick) } := by
  rw [liveOf_eq_iff.mp h]
  rfl

/-- What a tick does to a stream does not depend on the intervals it retains. -/
theorem liveOf_streamStep (window : ℕ) (date : Int) (broken : Bool) (bounds : Int × Int × Int)
    (tick : Tick) (h : liveOf st' = liveOf st) :
    liveOf (st'.streamStep window date broken bounds tick) =
      liveOf (st.streamStep window date broken bounds tick) := by
  have hdate := liveOf_onDate window date h
  unfold TimeframeState.streamStep
  generalize st.onDate window date = t at hdate ⊢
  generalize st'.onDate window date = t' at hdate ⊢
  have hbucket : t'.partialBucket = t.partialBucket :=
    (congrArg TimeframeState.partialBucket hdate :)
  unfold TimeframeState.observe
  rw [hbucket]
  cases hb : t.partialBucket with
  | none => exact liveOf_opened broken bounds tick hdate
  | some bucket =>
    simp only
    split
    · rw [liveOf_eq_iff.mp hdate]
      rfl
    · exact liveOf_opened broken bounds tick (liveOf_finalizePartial window hdate)

theorem SameLive.updateTimeframe (h : SameLive e e') (tick : Tick) (session : SessionContext)
    (tf : Timeframe) :
    SameLive (CandleEngine.updateTimeframe tick session e tf)
      (CandleEngine.updateTimeframe tick session e' tf) := by
  have hstate : liveOf (e'.stateFor tick.instrument tf) = liveOf (e.stateFor tick.instrument tf) := by
    have hstream := h.streams (tick.instrument, tf)
    unfold CandleEngine.stateFor
    cases hget : e.states.get (tick.instrument, tf) with
    | none =>
      rw [hget, Option.map_none, Option.map_eq_none_iff] at hstream
      rw [hstream]
    | some st =>
      rw [hget, Option.map_some, Option.map_eq_some_iff] at hstream
      obtain ⟨st', hst', hlive⟩ := hstream
      rw [hst']
      exact hlive
  have hdate : (e'.stateFor tick.instrument tf).tradingDate =
      (e.stateFor tick.instrument tf).tradingDate :=
    (congrArg TimeframeState.tradingDate hstate :)
  unfold CandleEngine.updateTimeframe
  simp only [hdate, h.broken]
  refine ⟨⟨h.config.schedule, h.config.timezone, h.config.finalizedWindow⟩, h.timeframes, ?_, rfl⟩
  intro key
  rw [Dict.get_set, Dict.get_set]
  split
  · simp only [Option.map_some, h.config.finalizedWindow, h.config.bucketBounds_eq]
    rw [liveOf_streamStep _ _ _ _ _ hstate]
  · exact h.streams key

theorem SameLive.update (h : SameLive e e') (tick : Tick) (session : SessionContext) :
    SameLive (e.update tick session) (e'.update tick session) := by
  have hfold : ∀ (tfs : List Timeframe) {e e' : CandleEngine}, SameLive e e' →
      SameLive (tfs.foldl (CandleEngine.updateTimeframe tick session) e)
        (tfs.foldl (CandleEngine.updateTimeframe tick session) e') := by
    intro tfs
    induction tfs with
    | nil => exact fun h => h
    | cons tf tfs ih => exact fun h => ih (h.updateTimeframe tick session tf)
  unfold CandleEngine.update
  rw [h.timeframes]
  split
  · exact hfold e.timeframes h
  · exact h

theorem SameLive.recordContinuity (h : SameLive e e') (event : FeedContinuityEvent) :
    SameLive (e.recordContinuity event) (e'.recordContinuity event) := by
  have hkeys : ∀ key, key ∈ e'.states.map (·.1) ↔ key ∈ e.states.map (·.1) := by
    intro key
    rw [Dict.mem_keys_iff, Dict.mem_keys_iff, ← Option.isSome_map (f := liveOf), h.streams,
      Option.isSome_map]
  have hinstruments : (e'.states.map (·.1.1)).toFinset = (e.states.map (·.1.1)).toFinset := by
    ext i
    have hproj : ∀ d : Dict (Instrument × Timeframe) TimeframeState,
        i ∈ (d.map (·.1.1)).toFinset ↔ ∃ key ∈ d.map (·.1), key.1 = i := by
      intro d
      simp
    rw [hproj, hproj]
    simp only [hkeys]
  unfold CandleEngine.recordContinuity
  split
  · refine ⟨⟨h.config.schedule, h.config.timezone, h.config.finalizedWindow⟩, h.timeframes, ?_, ?_⟩
    · intro key
      have hstream := h.streams key
      rw [Dict.get_mapItems, Dict.get_mapItems]
      cases hget : e.states.get key with
      | none =>
        rw [hget, Option.map_none, Option.map_eq_none_iff] at hstream
        rw [hstream]
      | some st =>
        rw [hget, Option.map_some, Option.map_eq_some_iff] at hstream
        obtain ⟨st', hst', hlive⟩ := hstream
        rw [hst', liveOf_eq_iff.mp hlive]
        rfl
    · simp only [h.broken, hinstruments]
  · exact h

theorem SameLive.flush (h : SameLive e e') (atTime : Int) :
    SameLive (e.flush atTime) (e'.flush atTime) := by
  refine ⟨⟨h.config.schedule, h.config.timezone, h.config.finalizedWindow⟩, h.timeframes, ?_, h.broken⟩
  intro key
  have hstream := h.streams key
  unfold CandleEngine.flush
  rw [Dict.get_mapItems, Dict.get_mapItems]
  cases hget : e.states.get key with
  | none =>
    rw [hget, Option.map_none, Option.map_eq_none_iff] at hstream
    rw [hstream]
    rfl
  | some st =>
    rw [hget, Option.map_some, Option.map_eq_some_iff] at hstream
    obtain ⟨st', hst', hlive⟩ := hstream
    have hcloses : closesAt atTime st' = closesAt atTime st := by
      rw [liveOf_eq_iff.mp hlive]
      rfl
    rw [hst']
    simp only [Option.map_some, hcloses, h.config.finalizedWindow]
    split
    · rw [liveOf_finalizePartial _ hlive]
    · rw [hlive]

theorem SameLive.setRequiredTimeframes (h : SameLive e e') (timeframes : List Timeframe) :
    SameLive ((e.setRequiredTimeframes timeframes).getD e)
      ((e'.setRequiredTimeframes timeframes).getD e') := by
  have hvalidated : validated e'.schedule timeframes = validated e.schedule timeframes := by
    rw [h.config.schedule]
  unfold CandleEngine.setRequiredTimeframes
  rw [hvalidated]
  split
  · refine ⟨⟨h.config.schedule, h.config.timezone, h.config.finalizedWindow⟩, rfl, ?_, h.broken⟩
    intro key
    simp only [Option.getD_some, Dict.get_restrict, h.timeframes]
    split
    · exact h.streams key
    · rfl
  · exact h

/-- A live operation keeps what the engines have in common. -/
theorem SameLive.live (h : SameLive e e') (op : LiveOp) :
    SameLive (CandleEngine.step e op.op).1 (CandleEngine.step e' op.op).1 := by
  cases op with
  | update tick session => exact h.update tick session
  | recordContinuity event => exact h.recordContinuity event
  | flush atTime => exact h.flush atTime
  | setRequiredTimeframes timeframes => exact h.setRequiredTimeframes timeframes

/-- A reconciliation touches nothing of the live path. -/
theorem sameLive_reconcile (e : CandleEngine) (auth : Candle) (tf : Timeframe) :
    SameLive e (e.reconcile auth tf).1 := by
  by_cases h : (e.reconcile auth tf).2.outcome = .reconciled
  · obtain ⟨st, hst, hmatch⟩ := RepairsKept.exists_match h
    rw [RepairsKept.reconcile_of_match hst hmatch]
    refine ⟨⟨rfl, rfl, rfl⟩, rfl, fun key => ?_, rfl⟩
    simp only [Dict.get_set]
    split
    · rename_i hkey
      rw [← hkey, hst]
      rfl
    · rfl
  · rw [RepairsKept.reconcile_unchanged h]
    exact SameLive.refl e

theorem sameLive_applyRepairs (tf : Timeframe) (series : HistoricalSeries)
    (items : List IncompleteCandle) (e : CandleEngine) :
    SameLive e (applyRepairs tf series items e).1 := by
  induction items generalizing e with
  | nil => exact SameLive.refl e
  | cons item items ih =>
    rw [applyRepairs]
    split
    · exact ih e
    · exact (sameLive_reconcile e _ tf).trans (ih _)

theorem sameLive_resume (s : ReconciliationService) (answer : Except FetchError (List Candle))
    (a : Awaiting) (e : CandleEngine) : SameLive e (resume s answer a e).1 := by
  unfold resume
  simp only
  split
  · exact SameLive.refl e
  · exact SameLive.refl e
  · exact sameLive_applyRepairs _ _ _ e

end

/-- The live operation that a task has done. -/
def liveDone : Report → List LiveOp
  | .live op => [op]
  | .summary .. => []

/-- A pass that goes on or ends has done no live operation. -/
theorem proceed_silent (s : ReconciliationService) (p : Pass) (left : List TimeframeCandles) :
    (proceed s p left).Holds (fun _ => True) (fun r => liveDone r = []) := by
  induction left generalizing p with
  | nil => rfl
  | cons candles left ih =>
    rw [proceed]
    split
    · exact ih _
    · split
      · exact ih _
      · trivial

/-- The engine of a run has in common with one that takes the live operations alone what the passes do
    not work on. -/
def liveAssertions (e₀ : CandleEngine) : Assertions (List LiveOp) CandleEngine Task Report where
  grows _ _ := True
  shared log e := SameLive (run CandleEngine.step e₀ (log.map LiveOp.op)) e
  task _ _ _ := True
  apart _ _ := True
  result _ _ := True
  symm _ _ _ := trivial
  refl _ := trivial
  trans _ _ _ _ _ := trivial
  result_grows _ _ _ _ _ := trivial

/-- A step of a pass emits nothing. -/
theorem emitted_of_silent {pool : Pool CandleEngine Task} {process : ℕ} {shared : CandleEngine}
    {progress : Progress Task Report} (h : progress.Holds (fun _ => True) fun r => liveDone r = []) :
    Assertions.emitted liveDone (pool.settle process shared progress).2 = [] := by
  cases progress with
  | running task => rfl
  | finished result => exact h

/-- Passes leave the live path in step with the log of its operations. -/
theorem live_logged (s : ReconciliationService) (e₀ : CandleEngine) :
    (liveAssertions e₀).Logged (passes s) liveDone fun _ _ => True where
  grows _ _ := trivial
  start log pool process request hpool _ _ := by
    have hsilent : ((passes s).start request pool.shared).Holds (fun _ => True)
        fun r => liveDone r = [] := by
      cases request with
      | live op => trivial
      | reconcileCompleted instrument reference => exact proceed_silent s _ _
    rw [emitted_of_silent hsilent, List.append_nil]
    exact ⟨hpool.memory, fun _ _ _ _ => trivial, fun _ _ => ⟨trivial, fun _ _ _ _ => trivial⟩,
      fun _ _ => trivial⟩
  advance log pool process choice t hpool _ _ := by
    refine ⟨?_, fun _ _ _ _ => trivial, fun _ _ => ⟨trivial, fun _ _ _ _ => trivial⟩,
      fun _ _ => trivial⟩
    cases t with
    | live op =>
      show SameLive (run CandleEngine.step e₀ ((log ++ [op]).map LiveOp.op)) _
      rw [List.map_append, List.map_singleton, run_concat]
      exact hpool.memory.live op
    | awaiting a =>
      have hsilent : ((passes s).advance choice (.awaiting a) pool.shared).2.Holds (fun _ => True)
          fun r => liveDone r = [] := by
        show (resume s choice a pool.shared).2.Holds _ _
        unfold resume
        simp only
        split
        · rfl
        · exact proceed_silent s _ _
        · exact proceed_silent s _ _
      rw [emitted_of_silent hsilent, List.append_nil]
      exact hpool.memory.trans (sameLive_resume s choice a pool.shared)

/-- **Passes leave the live path alone.**  After every interleaving of passes with ticks, continuity
    events, flushes and changes of the timeframes, the open buckets, the baselines, the dates and the
    taints of all streams are those of a run that takes the live operations alone, in the same
    order. -/
theorem passes_leave_live (s : ReconciliationService) (e₀ : CandleEngine) (turns : List PassTurn) :
    let done := (outs (passes s).step ⟨e₀, []⟩ turns).flatMap (Assertions.emitted liveDone)
    SameLive (run CandleEngine.step e₀ (done.map LiveOp.op))
      (run (passes s).step ⟨e₀, []⟩ turns).shared := by
  have hinit : (liveAssertions e₀).Hold [] (⟨e₀, []⟩ : Pool CandleEngine Task) :=
    ⟨SameLive.refl e₀, fun _ _ _ => trivial, fun _ _ _ _ _ _ _ => trivial⟩
  have halong : Along (passes s).step (fun _ _ => True) ⟨e₀, []⟩ turns :=
    along_iff_forall.mpr fun _ _ _ _ => trivial
  obtain ⟨hhold, -⟩ := (live_logged s e₀).run halong hinit
  exact hhold.memory

end ApexScan.Reconciliation
