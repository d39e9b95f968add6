import ApexScan.Engine.CandleEngine

/-!
# How long a continuity loss taints an instrument

A `DISCONNECTED` or `CONTINUITY_LOST` event puts every aggregating instrument into
`_continuity_broken`; a bucket opened while the instrument is there is a feed gap without volume.
The flag is one per instrument, while the reset that clears it runs per stream, for a stream on
another date and also for a stream that did not exist before.

* `opens`, `closes` — the streams' events that a step causes: a bucket opened by a tick, an
  interval finalized.
* `Aggregating` — a live tick of the instrument finds a stream in every registered timeframe.
* `StreamsAgree` — in every reachable state the streams of one instrument have one trading date.

Main results: `continuity_taint_lasts`, for runs whose ticks are all `Aggregating` after the loss, and
`gap_interval_retained`, what its streams keep of their gaps.  `reset_clears` shows that a single tick
that is not clears the taint, and `continuity_taint_fails` is such a run.
-/

set_option autoImplicit false

namespace ApexScan

open Lib CandleEngine

/-! ## Events of a stream -/

/-- A tick of `date` in bucket `index` opens a bucket: the stream is on another date, has no bucket
    or has another one. -/
def TimeframeState.opensAt (st : TimeframeState) (date index : Int) : Bool :=
  match st.partialBucket with
  | some b => !(decide (st.tradingDate = some date) && decide (b.index = index))
  | none => true

namespace ContinuityTaint

variable (e : CandleEngine) (i : Instrument) (tf : Timeframe)

/-- The step opens a bucket in the stream. -/
def opens : Op → Bool
  | .update tick session =>
    decide (session.marketState = .liveSession ∧ tick.instrument = i ∧ tf ∈ e.timeframes) &&
      (e.stateFor i tf).opensAt session.tradingDate
        (e.bucketBounds tick.eventTimestamp session.tradingDate tf).1
  | _ => false

/-- The interval that the step finalizes in the stream. -/
def closes (op : Op) : Option IncompleteCandle :=
  let st := e.stateFor i tf
  match st.partialBucket with
  | none => none
  | some b =>
    if (match op with
      | .flush atTime => decide (b.endUtc ≤ atTime)
      | op => opens e i tf op) then some (b.toIncomplete st.instrument st.timeframe)
    else none

/-- The stream's bucket outlives the step: it is not finalized, and the stream is not dropped with
    its timeframe. -/
def Keeps (op : Op) : Prop :=
  closes e i tf op = none ∧ ((step e op).1.states.get (i, tf)).isSome = true

/-- The trading date of a step that is a live tick of the instrument. -/
def liveDate : Op → Option Int
  | .update tick session =>
    if session.marketState = .liveSession ∧ tick.instrument = i then some session.tradingDate
    else none
  | _ => none

/-- The step is no live tick of the instrument on another date. -/
def OnDate (d : Int) (op : Op) : Prop := ∀ d' ∈ liveDate i op, d' = d

instance (d : Int) (op : Op) : Decidable (OnDate i d op) :=
  inferInstanceAs (Decidable (∀ d' ∈ liveDate i op, d' = d))

/-- A live tick of the instrument finds a stream in every registered timeframe. -/
def Aggregating (op : Op) : Prop :=
  (liveDate i op).isSome = true → ∀ tf ∈ e.timeframes, (e.states.get (i, tf)).isSome = true

/-- The ticks of the instrument stay on `d` and find all their streams. -/
def Settled (d : Int) (e : CandleEngine) (op : Op) : Prop := OnDate i d op ∧ Aggregating e i op

variable {e i tf}

/-! ## Buckets that are feed gaps -/

/-- The stream's bucket is a feed gap without a volume baseline. -/
def GapBucket (st : TimeframeState) : Prop :=
  ∃ b, st.partialBucket = some b ∧ b.feedGap = true ∧ b.baseline = none

theorem applyTick_gap (b : Bucket) (t : Tick) :
    (b.applyTick t).feedGap = b.feedGap ∧ (b.applyTick t).baseline = b.baseline := by
  rw [Bucket.applyTick_eq]
  exact ⟨rfl, rfl⟩

/-- A bucket opened on a tainted stream is a feed gap. -/
theorem openBucket_broken (st : TimeframeState) (bounds : Int × Int × Int) (t : Tick) :
    (st.openBucket true bounds t).feedGap = true ∧ (st.openBucket true bounds t).baseline = none := by
  simp [TimeframeState.openBucket]

/-- A tick that opens no bucket is applied to the one that is there. -/
theorem streamStep_same {st : TimeframeState} {b : Bucket} {window : ℕ} {date : Int} {broken : Bool}
    {bounds : Int × Int × Int} {t : Tick} (hb : st.partialBucket = some b)
    (h : st.opensAt date bounds.1 = false) :
    st.streamStep window date broken bounds t =
      { st with partialBucket := some (b.applyTick t) } := by
  simp only [TimeframeState.opensAt, hb, Bool.not_eq_false', Bool.and_eq_true,
    decide_eq_true_eq] at h
  simp [TimeframeState.streamStep, TimeframeState.onDate, TimeframeState.observe, hb, h.1, h.2]

/-- A tick that opens a bucket on a tainted stream opens a feed gap. -/
theorem streamStep_opens {st : TimeframeState} {window : ℕ} {date : Int}
    {bounds : Int × Int × Int} {t : Tick} (h : st.opensAt date bounds.1 = true) :
    GapBucket (st.streamStep window date true bounds t) := by
  unfold TimeframeState.streamStep TimeframeState.onDate
  split
  · rename_i hdate
    cases hb : st.partialBucket with
    | none =>
      rw [TimeframeState.observe, hb]
      exact ⟨_, rfl, openBucket_broken _ _ _⟩
    | some b =>
      have hi : b.index ≠ bounds.1 := by
        simpa [TimeframeState.opensAt, hb, hdate] using h
      rw [TimeframeState.observe, hb]
      simp only [hi, if_false]
      exact ⟨_, rfl, openBucket_broken _ _ _⟩
  · exact ⟨_, rfl, openBucket_broken _ _ _⟩

theorem streamStep_tradingDate (st : TimeframeState) (window : ℕ) (date : Int) (broken : Bool)
    (bounds : Int × Int × Int) (t : Tick) :
    (st.streamStep window date broken bounds t).tradingDate = some date := by
  have hdate : (st.onDate window date).tradingDate = some date := by
    unfold TimeframeState.onDate
    split
    · assumption
    · rfl
  unfold TimeframeState.streamStep TimeframeState.observe TimeframeState.finalizePartial
  split
  · rename_i b hb
    split
    · exact hdate
    · simp only [hb]
      exact hdate
  · exact hdate

/-! ## What a step does to one stream -/

/-- What an operation other than a tick can do to a stream. -/
inductive Touched (e : CandleEngine) (st : TimeframeState) : Op → TimeframeState → Prop
  | same {op : Op} : Touched e st op st
  | broken {event : FeedContinuityEvent} :
      Touched e st (.recordContinuity event)
        { st with partialBucket := st.partialBucket.map ({ · with ohlcBroken := true }) }
  | closed {atTime : Int} (h : closesAt atTime st = true) :
      Touched e st (.flush atTime) (st.finalizePartial e.finalizedWindow)
  | repaired {candle : Candle} {timeframe : Timeframe} (inc : List IncompleteCandle)
      (fin : List Candle) :
      Touched e st (.reconcile candle timeframe) { st with incomplete := inc, finalized := fin }

/-- After a tick: a stream that took it, or one of another instrument or timeframe. -/
theorem update_stream {tick : Tick} {session : SessionContext} {st' : TimeframeState}
    (h : (e.update tick session).states.get (i, tf) = some st') :
    (∃ broken, session.marketState = .liveSession ∧ tick.instrument = i ∧ tf ∈ e.timeframes ∧
      st' = (e.stateFor i tf).streamStep e.finalizedWindow session.tradingDate broken
        (e.bucketBounds tick.eventTimestamp session.tradingDate tf) tick) ∨
    (¬ (session.marketState = .liveSession ∧ tick.instrument = i ∧ tf ∈ e.timeframes) ∧
      e.states.get (i, tf) = some st') := by
  unfold update at h
  split at h
  · rename_i hlive
    obtain ⟨hin, hout⟩ := @foldl_updateTimeframe_streams tick session e.timeframes
      e.timeframes_nodup e (i, tf)
    by_cases hi : i = tick.instrument ∧ tf ∈ e.timeframes
    · obtain ⟨broken, hget⟩ := hin hi.1 hi.2
      left
      exact ⟨broken, hlive, hi.1.symm, hi.2, Option.some.inj (h.symm.trans hget)⟩
    · right
      refine ⟨?_, (hout hi).symm.trans h⟩
      rintro ⟨-, hinstrument, htf⟩
      exact hi ⟨hinstrument.symm, htf⟩
  · rename_i hlive
    right
    refine ⟨?_, h⟩
    rintro ⟨hl, -⟩
    exact hlive hl

/-- After a reconciliation: a stream that was repaired, or one as it was. -/
theorem reconcile_stream {candle : Candle} {timeframe : Timeframe} {st' : TimeframeState}
    (h : (step e (.reconcile candle timeframe)).1.states.get (i, tf) = some st') :
    ∃ st, e.states.get (i, tf) = some st ∧ Touched e st (.reconcile candle timeframe) st' := by
  simp only [step, reconcile] at h
  split at h
  · exact ⟨st', h, .same⟩
  · rename_i st hst
    split at h
    · simp only [Dict.get_set] at h
      split at h
      · rename_i heq
        simp only [Option.some.injEq] at h
        rw [← heq, ← h]
        exact ⟨st, hst, .repaired _ _⟩
      · exact ⟨st', h, .same⟩
    · split at h <;> exact ⟨st', h, .same⟩
    · exact ⟨st', h, .same⟩
    · exact ⟨st', h, .same⟩

/-- **Where the state of a stream comes from**: a live tick of its instrument at a registered
    timeframe, or an operation that leaves it on its date. -/
theorem step_stream {op : Op} {st' : TimeframeState}
    (h : (step e op).1.states.get (i, tf) = some st') :
    (∃ tick session broken, op = .update tick session ∧ liveDate i op = some session.tradingDate ∧
      tf ∈ e.timeframes ∧ st' = (e.stateFor i tf).streamStep e.finalizedWindow session.tradingDate
        broken (e.bucketBounds tick.eventTimestamp session.tradingDate tf) tick) ∨
    (¬ ((liveDate i op).isSome = true ∧ tf ∈ e.timeframes) ∧
      ∃ st, e.states.get (i, tf) = some st ∧ Touched e st op st') := by
  cases op with
  | update tick session =>
    rcases update_stream h with ⟨broken, hlive, hi, htf, hst'⟩ | ⟨hnot, hst⟩
    · left
      exact ⟨tick, session, broken, rfl, by simp [liveDate, hlive, hi], htf, hst'⟩
    · right
      refine ⟨?_, st', hst, .same⟩
      rintro ⟨hl, htf⟩
      simp only [liveDate, Option.isSome_ite] at hl
      exact hnot ⟨hl.1, hl.2, htf⟩
  | recordContinuity event =>
    right
    refine ⟨by simp [liveDate], ?_⟩
    simp only [step, recordContinuity] at h
    split at h
    · simp only [Dict.get_mapItems, Option.map_eq_some_iff] at h
      obtain ⟨st, hst, rfl⟩ := h
      exact ⟨st, hst, .broken⟩
    · exact ⟨st', h, .same⟩
  | flush atTime =>
    right
    refine ⟨by simp [liveDate], ?_⟩
    simp only [step, flush, Dict.get_mapItems, Option.map_eq_some_iff] at h
    obtain ⟨st, hst, rfl⟩ := h
    refine ⟨st, hst, ?_⟩
    split
    · rename_i hclose
      exact .closed hclose
    · exact .same
  | reconcile candle timeframe =>
    right
    exact ⟨by simp [liveDate], reconcile_stream h⟩
  | setRequiredTimeframes timeframes =>
    right
    refine ⟨by simp [liveDate], ?_⟩
    simp only [step, setRequiredTimeframes] at h
    split at h
    · simp only [Option.getD_some, Dict.get_restrict] at h
      split at h
      · exact ⟨st', h, .same⟩
      · cases h
    · exact ⟨st', h, .same⟩

theorem Touched.tradingDate_eq {op : Op} {st st' : TimeframeState} (h : Touched e st op st') :
    st'.tradingDate = st.tradingDate := by
  cases h with
  | closed h =>
    unfold TimeframeState.finalizePartial
    split <;> rfl
  | _ => rfl

/-! ## A gap bucket stays one until it is finalized -/

/-- What ticks and continuity events leave of a bucket, it keeps as long as it is there. -/
theorem keeps_bucket {P : Bucket → Prop} (htick : ∀ b t, P b → P (b.applyTick t))
    (hbroken : ∀ b, P b → P { b with ohlcBroken := true }) {op : Op} {st : TimeframeState}
    (hst : e.states.get (i, tf) = some st) (hP : ∃ b, st.partialBucket = some b ∧ P b)
    (h : Keeps e i tf op) :
    ∃ st', (step e op).1.states.get (i, tf) = some st' ∧
      ∃ b, st'.partialBucket = some b ∧ P b := by
  obtain ⟨hclose, hsome⟩ := h
  obtain ⟨st', hst'⟩ := Option.isSome_iff_exists.mp hsome
  refine ⟨st', hst', ?_⟩
  obtain ⟨b, hb, hP⟩ := hP
  have hfor : e.stateFor i tf = st := by simp [stateFor, hst]
  rcases step_stream hst' with ⟨tick, session, broken, rfl, hlive, htf, rfl⟩ | ⟨-, st₀, hst₀, ht⟩
  · have hopen : opens e i tf (.update tick session) = false := by
      simpa [closes, hfor, hb] using hclose
    have hat : st.opensAt session.tradingDate
        (e.bucketBounds tick.eventTimestamp session.tradingDate tf).1 = false := by
      simp only [liveDate, Option.ite_none_right_eq_some] at hlive
      simpa [opens, hfor, hlive.1.1, hlive.1.2, htf] using hopen
    rw [hfor, streamStep_same hb hat]
    exact ⟨_, rfl, htick b tick hP⟩
  · obtain rfl : st₀ = st := Option.some.inj (hst₀.symm.trans hst)
    cases ht with
    | same => exact ⟨b, hb, hP⟩
    | broken => exact ⟨{ b with ohlcBroken := true }, by simp [hb], hbroken b hP⟩
    | closed hc =>
      simp only [closesAt, hb] at hc
      simp [closes, hfor, hb, hc] at hclose
    | repaired inc fin => exact ⟨b, hb, hP⟩

theorem keeps_gap {op : Op} {st : TimeframeState} (hst : e.states.get (i, tf) = some st)
    (hgap : GapBucket st) (h : Keeps e i tf op) :
    ∃ st', (step e op).1.states.get (i, tf) = some st' ∧ GapBucket st' := by
  apply keeps_bucket (fun b t hgap => ?_) (fun b hgap => hgap) hst hgap h
  obtain ⟨hfeed, hbase⟩ := hgap
  obtain ⟨hf, hbl⟩ := applyTick_gap b t
  exact ⟨hf.trans hfeed, hbl.trans hbase⟩

/-- A gap bucket is finalized as a feed gap without a quantity. -/
theorem closes_gap {op : Op} {st : TimeframeState} (hst : e.states.get (i, tf) = some st)
    (hgap : GapBucket st) {c : IncompleteCandle} (hc : closes e i tf op = some c) :
    c.quality = .feedGap ∧ c.tradedQuantity = none := by
  obtain ⟨b, hb, hfeed, hbase⟩ := hgap
  have hfor : e.stateFor i tf = st := by simp [stateFor, hst]
  simp only [closes, hfor, hb, Option.ite_none_right_eq_some, Option.some.injEq] at hc
  rw [← hc.2]
  simp [Bucket.toIncomplete, Bucket.qualityFor, Bucket.intervalVolume, hfeed, hbase]

theorem streamStep_incomplete {st : TimeframeState} {b : Bucket} {window : ℕ} {date : Int}
    {broken : Bool} {bounds : Int × Int × Int} {t : Tick} (hb : st.partialBucket = some b)
    (h : st.opensAt date bounds.1 = true) :
    (st.streamStep window date broken bounds t).incomplete =
      pushBounded window st.incomplete (b.toIncomplete st.instrument st.timeframe) := by
  unfold TimeframeState.streamStep TimeframeState.onDate
  split
  · rename_i hdate
    have hi : b.index ≠ bounds.1 := by
      simpa [TimeframeState.opensAt, hb, hdate] using h
    simp [TimeframeState.observe, hb, hi, TimeframeState.finalizePartial]
  · simp [TimeframeState.observe, TimeframeState.resetSession, TimeframeState.finalizePartial, hb]

/-- What `closes` reads off a step is what the step appends to the stream's window. -/
theorem closes_spec {op : Op} {c : IncompleteCandle} (h : closes e i tf op = some c) :
    ∃ st', (step e op).1.states.get (i, tf) = some st' ∧
      st'.incomplete = pushBounded e.finalizedWindow (e.stateFor i tf).incomplete c := by
  unfold closes at h
  simp only at h
  split at h
  · cases h
  · rename_i b hb
    simp only [Option.ite_none_right_eq_some, Option.some.injEq] at h
    obtain ⟨hop, rfl⟩ := h
    cases op with
    | update tick session =>
      simp only [opens, Bool.and_eq_true, decide_eq_true_eq] at hop
      obtain ⟨⟨hlive, hi, htf⟩, hat⟩ := hop
      obtain ⟨broken, hget⟩ := (@foldl_updateTimeframe_streams tick session e.timeframes
        e.timeframes_nodup e (i, tf)).1 hi.symm htf
      have hstep : (step e (.update tick session)).1 =
          e.timeframes.foldl (updateTimeframe tick session) e := if_pos hlive
      rw [hstep]
      exact ⟨_, hget, streamStep_incomplete hb hat⟩
    | flush atTime =>
      cases hst : e.states.get (i, tf) with
      | none => simp [stateFor, hst] at hb
      | some st =>
        have hfor : e.stateFor i tf = st := by simp [stateFor, hst]
        rw [hfor] at hb ⊢
        have hc : closesAt atTime st = true := by simpa [closesAt, hb] using hop
        refine ⟨st.finalizePartial e.finalizedWindow, ?_, ?_⟩
        · simp [step, flush, Dict.get_mapItems, hst, hc]
        · simp [TimeframeState.finalizePartial, hb]
    | _ => cases hop

/-! ## Reachable states -/

/-- Streams exist only for registered timeframes, and those of one instrument have one date. -/
structure StreamsAgree (e : CandleEngine) : Prop where
  registered : ∀ i tf st, e.states.get (i, tf) = some st → tf ∈ e.timeframes
  oneDate : ∀ i tf tf' st st', e.states.get (i, tf) = some st → e.states.get (i, tf') = some st' →
    st.tradingDate = st'.tradingDate

theorem step_timeframes (op : Op) (i : Instrument) (tf : Timeframe) (h : tf ∈ e.timeframes) :
    tf ∈ (step e op).1.timeframes ∨ (step e op).1.states.get (i, tf) = none := by
  cases op with
  | update tick session => left; rw [step, (update_config e tick session).2]; exact h
  | recordContinuity event =>
    left
    simp only [step, recordContinuity]
    split <;> exact h
  | flush atTime => left; exact h
  | reconcile candle timeframe =>
    left
    simp only [step, reconcile]
    split
    · exact h
    · split <;> first | exact h | (split <;> exact h)
  | setRequiredTimeframes timeframes =>
    simp only [step, setRequiredTimeframes]
    split
    · by_cases hm : tf ∈ timeframes
      · left; exact mem_ordered.mpr hm
      · right; simp [Dict.get_restrict, h, hm]
    · left; exact h

/-- A stream after a step is on the date of the tick it took, or on the date it was on. -/
theorem step_date (h : StreamsAgree e) {op : Op} {st' : TimeframeState}
    (hst' : (step e op).1.states.get (i, tf) = some st') :
    tf ∈ e.timeframes ∧
      ((∃ d, liveDate i op = some d ∧ st'.tradingDate = some d) ∨
        (liveDate i op = none ∧ ∃ st, e.states.get (i, tf) = some st ∧
          st'.tradingDate = st.tradingDate)) := by
  rcases step_stream hst' with ⟨tick, session, broken, rfl, hlive, htf, rfl⟩ | ⟨hnot, st, hst, ht⟩
  · exact ⟨htf, Or.inl ⟨_, hlive, streamStep_tradingDate _ _ _ _ _ _⟩⟩
  · have htf := h.registered i tf st hst
    refine ⟨htf, Or.inr ⟨?_, st, hst, ht.tradingDate_eq⟩⟩
    cases hl : liveDate i op with
    | none => rfl
    | some d => exact absurd ⟨by rw [hl]; rfl, htf⟩ hnot

theorem step_agree (h : StreamsAgree e) (op : Op) : StreamsAgree (step e op).1 := by
  refine ⟨?_, ?_⟩
  · intro i tf st' hst'
    rcases step_timeframes op i tf (step_date h hst').1 with hm | hm
    · exact hm
    · rw [hm] at hst'; cases hst'
  · intro i tf tf' st st' hst hst'
    rcases (step_date h hst).2 with ⟨d, hl, hd⟩ | ⟨hl, s, hs, hd⟩
    · rcases (step_date h hst').2 with ⟨d', hl', hd'⟩ | ⟨hl', -⟩
      · rw [hd, hd', ← hl, ← hl']
      · rw [hl] at hl'; cases hl'
    · rcases (step_date h hst').2 with ⟨d', hl', -⟩ | ⟨-, s', hs', hd'⟩
      · rw [hl] at hl'; cases hl'
      · rw [hd, hd', h.oneDate i tf tf' s s' hs hs']

theorem create_agree {schedule : SessionSchedule} {timezone : ZoneInfo}
    {timeframes : List Timeframe} {window : ℕ}
    (h : create schedule timezone timeframes window = some e) : StreamsAgree e := by
  unfold create at h
  split at h
  · split at h
    · cases h
      refine ⟨?_, ?_⟩
      · intro i tf st hst
        cases hst
      · intro i tf tf' st st' hst
        cases hst
    · cases h
  · cases h

/-! ## The taint flag -/

/-- The instrument is tainted and all its streams are on `d`. -/
structure Tainted (i : Instrument) (d : Int) (e : CandleEngine) : Prop where
  agree : StreamsAgree e
  broken : i ∈ e.continuityBroken
  onDate : ∀ tf st, e.states.get (i, tf) = some st → st.tradingDate = some d

variable {d : Int}

/-- The loss taints an instrument that has aggregation state on `d`. -/
theorem recordContinuity_taints (h : StreamsAgree e) {loss : FeedContinuityEvent}
    (hloss : isContinuityLoss loss.status = true) {st : TimeframeState}
    (hst : e.states.get (i, tf) = some st) (hd : st.tradingDate = some d) :
    Tainted i d (step e (.recordContinuity loss)).1 := by
  refine ⟨step_agree h _, ?_, ?_⟩
  · have hkey : (i, tf) ∈ e.states.map (·.1) := (Dict.mem_keys_iff _ _).mpr (by rw [hst]; rfl)
    obtain ⟨kv, hkv, hk⟩ := List.mem_map.mp hkey
    simp only [step, recordContinuity, hloss, if_true, Finset.mem_union, List.mem_toFinset]
    right
    exact List.mem_map.mpr ⟨kv, hkv, by rw [hk]⟩
  · intro tf' st' hst'
    rcases (step_date h hst').2 with ⟨_, hl, -⟩ | ⟨-, s, hs, hs'⟩
    · cases hl
    · rw [hs', h.oneDate i tf' tf s st hs hst, hd]

/-- A settled tick keeps the taint flags of all instruments. -/
theorem Tainted.steady (h : Tainted i d e) {tick : Tick} {session : SessionContext}
    (hi : tick.instrument = i) (hd : session.tradingDate = d)
    (hagg : ∀ tf ∈ e.timeframes, (e.states.get (i, tf)).isSome = true) :
    Steady e tick.instrument session.tradingDate e.timeframes := by
  right
  intro tf htf
  obtain ⟨st, hst⟩ := Option.isSome_iff_exists.mp (hagg tf htf)
  rw [hi, hd]
  simp only [stateFor, hst, Option.getD_some]
  exact h.onDate tf st hst

theorem step_broken (h : Tainted i d e) {op : Op} (hop : Settled i d e op) :
    i ∈ (step e op).1.continuityBroken := by
  cases op with
  | update tick session =>
    simp only [step, update]
    split
    · rename_i hlive
      by_cases hi : tick.instrument = i
      · have hl : liveDate i (.update tick session) = some session.tradingDate := by
          simp [liveDate, hlive, hi]
        have hsteady := h.steady hi (hop.1 _ hl) (hop.2 (by rw [hl]; rfl))
        rw [(foldl_updateTimeframe_get e.timeframes e.timeframes_nodup e hsteady).1]
        exact h.broken
      · exact (foldl_updateTimeframe_broken_other _ _ hi).mpr h.broken
    · exact h.broken
  | recordContinuity event =>
    simp only [step, recordContinuity]
    split
    · exact Finset.mem_union_left _ h.broken
    · exact h.broken
  | flush atTime => exact h.broken
  | reconcile candle timeframe =>
    simp only [step, reconcile]
    split
    · exact h.broken
    · split <;> first | exact h.broken | (split <;> exact h.broken)
  | setRequiredTimeframes timeframes =>
    simp only [step, setRequiredTimeframes]
    split <;> exact h.broken

/-- **The step lemma of the taint.** -/
theorem step_tainted (h : Tainted i d e) {op : Op} (hop : Settled i d e op) :
    Tainted i d (step e op).1 := by
  refine ⟨step_agree h.agree op, step_broken h hop, ?_⟩
  intro tf st' hst'
  rcases (step_date h.agree hst').2 with ⟨d', hl, hd'⟩ | ⟨-, s, hs, hs'⟩
  · rw [hd', hop.1 d' hl]
  · rw [hs', h.onDate tf s hs]

/-- A bucket opened while the taint stands is a gap. -/
theorem opens_gap (h : Tainted i d e) {op : Op} (hop : Settled i d e op)
    (hopen : opens e i tf op = true) :
    ∃ st, (step e op).1.states.get (i, tf) = some st ∧ GapBucket st := by
  cases op with
  | update tick session =>
    simp only [opens, Bool.and_eq_true, decide_eq_true_eq] at hopen
    obtain ⟨⟨hlive, hi, htf⟩, hat⟩ := hopen
    have hl : liveDate i (.update tick session) = some session.tradingDate := by
      simp [liveDate, hlive, hi]
    have hsteady := h.steady hi (hop.1 _ hl) (hop.2 (by rw [hl]; rfl))
    have hget := (foldl_updateTimeframe_get e.timeframes e.timeframes_nodup e hsteady).2 (i, tf)
    rw [if_pos ⟨hi.symm, htf⟩, hi] at hget
    have hstep : (step e (.update tick session)).1 =
        e.timeframes.foldl (updateTimeframe tick session) e := if_pos hlive
    rw [hstep]
    refine ⟨_, hget, ?_⟩
    simp only [h.broken, decide_true]
    exact streamStep_opens hat
  | _ => cases hopen

/-- A live tick that finds some registered stream on another date, or none, clears the taint. -/
theorem reset_clears {tick : Tick} {session : SessionContext} (tfs : List Timeframe)
    (hnd : tfs.Nodup) (e : CandleEngine)
    (h : tick.instrument ∉ e.continuityBroken ∨
      ∃ tf ∈ tfs, (e.stateFor tick.instrument tf).tradingDate ≠ some session.tradingDate) :
    tick.instrument ∉ (tfs.foldl (updateTimeframe tick session) e).continuityBroken := by
  induction tfs generalizing e with
  | nil =>
    rcases h with h | ⟨tf, htf, -⟩
    · exact h
    · cases htf
  | cons tf tfs ih =>
    obtain ⟨htf, hnd⟩ := List.nodup_cons.mp hnd
    refine ih hnd (updateTimeframe tick session e tf) ?_
    by_cases hdate : (e.stateFor tick.instrument tf).tradingDate = some session.tradingDate
    · rcases h with h | ⟨tf', htf', hne⟩
      · left
        simp only [updateTimeframe, hdate, if_true]
        exact h
      · right
        rcases List.mem_cons.mp htf' with rfl | hmem
        · exact absurd hdate hne
        · refine ⟨tf', hmem, ?_⟩
          have hk : (tick.instrument, tf) ≠ (tick.instrument, tf') := fun hk =>
            htf ((Prod.mk.inj hk).2 ▸ hmem)
          rwa [stateFor, updateTimeframe_get_ne e hk]
    · left
      simp [updateTimeframe, hdate]

/-! ## Whole runs -/

section Losses

variable {schedule : SessionSchedule} {timezone : ZoneInfo} {timeframes : List Timeframe} {window : ℕ}
  {e₀ : CandleEngine} {loss : FeedContinuityEvent}

/-- The taint stands after the loss and steps that are settled. -/
theorem tainted_run (hcreate : create schedule timezone timeframes window = some e₀)
    (pre mid : List Op) (hloss : isContinuityLoss loss.status = true)
    (hstate : ∃ tf st, (run step e₀ pre).states.get (i, tf) = some st ∧ st.tradingDate = some d)
    (hmid : Along step (Settled i d) (run step e₀ (pre ++ [.recordContinuity loss])) mid) :
    Tainted i d (run step e₀ (pre ++ .recordContinuity loss :: mid)) := by
  obtain ⟨tf₀, st₀, hst₀, hd₀⟩ := hstate
  have hpre : StreamsAgree (run step e₀ pre) :=
    run_invariant (I := StreamsAgree) (fun _ op h => step_agree h op) pre (create_agree hcreate)
  have htaint : Tainted i d (run step e₀ (pre ++ [.recordContinuity loss])) := by
    rw [run_concat]
    exact recordContinuity_taints hpre hloss hst₀ hd₀
  have hrun := hmid.invariant (fun _ _ hop h => step_tainted h hop) htaint
  rwa [← run_append, List.append_assoc] at hrun

/-- A bucket that is opened while the taint stands is a gap for as long as it is there. -/
theorem Tainted.gap (h : Tainted i d e) {opening : Op} (hop : Settled i d e opening)
    (hopen : opens e i tf opening = true) {quiet : List Op}
    (hquiet : Along step (fun e op => Keeps e i tf op) (step e opening).1 quiet) :
    ∃ st, (run step (step e opening).1 quiet).states.get (i, tf) = some st ∧ GapBucket st :=
  hquiet.invariant (I := fun e => ∃ st, e.states.get (i, tf) = some st ∧ GapBucket st)
    (fun _ _ hk ⟨_, hst, hg⟩ => keeps_gap hst hg hk) (opens_gap h hop hopen)

end Losses

/-- **A continuity loss taints the rest of the session**, in every run whose live ticks of the
    instrument find, after the loss, a stream in every registered timeframe.  After such a
    continuation `mid` on `d` the flag stands; a bucket opened then, in any timeframe, is finalized
    as a feed gap without a quantity, whenever and by whatever it is; the first live tick of another
    date clears the flag, and so does one on `d` that misses a stream. -/
theorem continuity_taint_lasts {schedule : SessionSchedule} {timezone : ZoneInfo}
    {timeframes : List Timeframe} {window : ℕ} {e₀ : CandleEngine}
    (hcreate : create schedule timezone timeframes window = some e₀) (pre mid : List Op)
    {loss : FeedContinuityEvent} (hloss : isContinuityLoss loss.status = true)
    (hstate : ∃ tf st, (run step e₀ pre).states.get (i, tf) = some st ∧ st.tradingDate = some d)
    (hmid : Along step (Settled i d) (run step e₀ (pre ++ [.recordContinuity loss])) mid) :
    let after := run step e₀ (pre ++ .recordContinuity loss :: mid)
    i ∈ after.continuityBroken ∧
    (∀ tf opening quiet closing c, Settled i d after opening → opens after i tf opening = true →
      Along step (fun e op => Keeps e i tf op) (step after opening).1 quiet →
      closes (run step (step after opening).1 quiet) i tf closing = some c →
      c.quality = .feedGap ∧ c.tradedQuantity = none) ∧
    (∀ opening d', liveDate i opening = some d' →
      (d' ≠ d ∧ after.timeframes ≠ []) ∨ ¬ Aggregating after i opening →
      i ∉ (step after opening).1.continuityBroken) := by
  intro after
  have htaint : Tainted i d after := tainted_run hcreate pre mid hloss hstate hmid
  refine ⟨htaint.broken, ?_, ?_⟩
  · intro tf opening quiet closing c hop hopen hquiet hclose
    obtain ⟨st, hst, hg⟩ := htaint.gap hop hopen hquiet
    exact closes_gap hst hg hclose
  · intro opening d' hl hcase
    cases opening with
    | update tick session =>
      simp only [liveDate, Option.ite_none_right_eq_some, Option.some.injEq] at hl
      obtain ⟨⟨hlive, rfl⟩, rfl⟩ := hl
      simp only [step, update, hlive, if_true]
      refine reset_clears _ after.timeframes_nodup after (Or.inr ?_)
      -- a stream on `d` differs from the tick's date, a missing stream has no date
      have hmiss : ∀ tf, after.states.get (tick.instrument, tf) = none →
          (after.stateFor tick.instrument tf).tradingDate ≠ some session.tradingDate := by
        intro tf hnone
        simp [stateFor, hnone]
      rcases hcase with ⟨hne, htfs⟩ | hagg
      · obtain ⟨tf, htf⟩ := List.exists_mem_of_ne_nil _ htfs
        refine ⟨tf, htf, ?_⟩
        cases hst : after.states.get (tick.instrument, tf) with
        | none => exact hmiss tf hst
        | some st =>
          simp only [stateFor, hst, Option.getD_some, htaint.onDate tf st hst]
          exact fun h => hne (Option.some.inj h).symm
      · simp only [Aggregating, Classical.not_imp, not_forall] at hagg
        obtain ⟨-, tf, htf, hnone⟩ := hagg
        exact ⟨tf, htf, hmiss tf (by simpa using hnone)⟩
    | _ => cases hl

def minuteAndSession : List Timeframe := [Timeframe.minutes 1 (by decide), .session]

/-- An update with a live tick at `m` minutes past midnight. -/
def tickOp (m : Int) : Op := .update (sampleTick m (rupees 100)).1 (sampleTick m (rupees 100)).2

def lossOp : Op := .recordContinuity ⟨.continuityLost, 20000 * day⟩

/-- A new engine of the default settings. -/
def newEngine (timeframes : List Timeframe) : CandleEngine where
  schedule := nseSchedule
  timezone := kolkata
  finalizedWindow := 4
  finalizedWindow_pos := by decide
  timeframes := ordered timeframes
  timeframes_nodup := ordered_nodup timeframes

theorem continuity_taint_sample :
    create nseSchedule kolkata minuteAndSession 4 = some (newEngine minuteAndSession) ∧
      (∃ tf st, (run step (newEngine minuteAndSession) [tickOp 555]).states.get (reliance, tf) =
        some st ∧ st.tradingDate = some 20000) ∧
      Along step (Settled reliance 20000)
        (run step (newEngine minuteAndSession) ([tickOp 555] ++ [lossOp])) [tickOp 556] ∧
      reliance ∈ (run step (newEngine minuteAndSession)
        ([tickOp 555] ++ lossOp :: [tickOp 556])).continuityBroken := by
  have hstate : ∃ tf st, (run step (newEngine minuteAndSession) [tickOp 555]).states.get
      (reliance, tf) = some st ∧ st.tradingDate = some 20000 := ⟨.session, _, rfl, rfl⟩
  have hmid : Along step (Settled reliance 20000)
      (run step (newEngine minuteAndSession) ([tickOp 555] ++ [lossOp])) [tickOp 556] := by
    refine ⟨⟨?_, ?_⟩, trivial⟩
    · decide
    · intro _
      decide
  have hcreate : create nseSchedule kolkata minuteAndSession 4 =
      some (newEngine minuteAndSession) := rfl
  exact ⟨hcreate, hstate, hmid,
    (continuity_taint_lasts hcreate [tickOp 555] _ rfl hstate hmid).1⟩

/-- A timeframe registered after the loss: the next tick creates its stream, which clears the
    taint, and the bucket after it is finalized on the same date as a regular one. -/
theorem continuity_taint_fails :
    let oneMinute := Timeframe.minutes 1 (by decide)
    let e₀ := newEngine [oneMinute]
    let mid := [.setRequiredTimeframes minuteAndSession, tickOp 556]
    let after := run step e₀ ([tickOp 555] ++ lossOp :: mid)
    create nseSchedule kolkata [oneMinute] 4 = some e₀ ∧
      (∃ st, (run step e₀ [tickOp 555]).states.get (reliance, oneMinute) = some st ∧
        st.tradingDate = some 20000) ∧
      (∀ op ∈ mid ++ [tickOp 557, tickOp 558], OnDate reliance 20000 op) ∧
      opens after reliance oneMinute (tickOp 557) = true ∧
      ∃ c, closes (step after (tickOp 557)).1 reliance oneMinute (tickOp 558) = some c ∧
        c.quality ≠ .feedGap := by
  refine ⟨rfl, ⟨_, rfl, rfl⟩, ?_, ?_, _, rfl, ?_⟩
  · decide
  · decide
  · decide

/-- **What is finalized of a gap is retained as one**: after the step that finalizes it, the interval is
    the last of its stream's incomplete ones, a feed gap without a quantity. -/
theorem gap_interval_retained {schedule : SessionSchedule} {timezone : ZoneInfo}
    {timeframes : List Timeframe} {window : ℕ} {e₀ : CandleEngine}
    (hcreate : create schedule timezone timeframes window = some e₀) (pre mid : List Op)
    {loss : FeedContinuityEvent} (hloss : isContinuityLoss loss.status = true)
    (hstate : ∃ tf st, (run step e₀ pre).states.get (i, tf) = some st ∧ st.tradingDate = some d)
    (hmid : Along step (Settled i d) (run step e₀ (pre ++ [.recordContinuity loss])) mid) :
    let after := run step e₀ (pre ++ .recordContinuity loss :: mid)
    ∀ tf opening quiet closing c, Settled i d after opening → opens after i tf opening = true →
      Along step (fun e op => Keeps e i tf op) (step after opening).1 quiet →
      let held := run step (step after opening).1 quiet
      closes held i tf closing = some c →
      ∃ st, (step held closing).1.states.get (i, tf) = some st ∧
        st.incomplete.getLast? = some c ∧ c.quality = .feedGap ∧ c.tradedQuantity = none := by
  intro after tf opening quiet closing c hop hopen hquiet held hclose
  have htaint : Tainted i d after := tainted_run hcreate pre mid hloss hstate hmid
  obtain ⟨st, hst, hg⟩ := htaint.gap hop hopen hquiet
  obtain ⟨st', hst', hincomplete⟩ := closes_spec hclose
  refine ⟨st', hst', ?_, closes_gap hst hg hclose⟩
  rw [hincomplete]
  exact getLast?_pushBounded held.finalizedWindow_pos _ c

/-- A minute that opens after the loss, takes two ticks and is finalized by the next minute's. -/
theorem gap_interval_retained_sample :
    let after := run step (newEngine minuteAndSession) ([tickOp 555] ++ lossOp :: [tickOp 556])
    let opened := run step (step after (tickOp 557)).1 [tickOp 557]
    ∃ c st, closes opened reliance (Timeframe.minutes 1 (by decide)) (tickOp 558) = some c ∧
      (step opened (tickOp 558)).1.states.get (reliance, Timeframe.minutes 1 (by decide)) = some st ∧
      st.incomplete.getLast? = some c ∧ c.quality = .feedGap ∧ c.tradedQuantity = none := by
  intro after opened
  have hmid : Along step (Settled reliance 20000)
      (run step (newEngine minuteAndSession) ([tickOp 555] ++ [lossOp])) [tickOp 556] := by
    refine ⟨⟨?_, fun _ => ?_⟩, trivial⟩ <;> decide
  have hsettled : Settled reliance 20000 after (tickOp 557) := by
    refine ⟨?_, fun _ => ?_⟩ <;> decide
  have hkeeps : Keeps (step after (tickOp 557)).1 reliance (Timeframe.minutes 1 (by decide))
      (tickOp 557) := by
    refine ⟨?_, ?_⟩ <;> decide
  have hcreate : create nseSchedule kolkata minuteAndSession 4 =
      some (newEngine minuteAndSession) := rfl
  obtain ⟨st, hst⟩ := gap_interval_retained hcreate [tickOp 555] [tickOp 556] rfl
    ⟨.session, _, rfl, rfl⟩ hmid (Timeframe.minutes 1 (by decide)) (tickOp 557) [tickOp 557]
    (tickOp 558) _ hsettled (by decide) ⟨hkeeps, trivial⟩ rfl
  exact ⟨_, st, rfl, hst⟩

end ContinuityTaint

end ApexScan
