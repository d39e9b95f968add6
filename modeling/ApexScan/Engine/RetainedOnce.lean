import Mathlib.Tactic.Linarith
import ApexScan.Engine.ContinuityTaint

/-!
# Every interval is retained once

A stream finalizes a bucket when a later tick opens the next one, when a new date resets it and when
`flush` passes its end; `reconcile` moves a finalized interval from one window to the other.  A flush
may run ahead of the ticks, and a tick of a bucket that was flushed opens it again.

* `Classified`, `LiveFeed` — ticks stamped by a classifier of the engine's schedule and timezone,
  with event timestamps that do not decrease for an instrument.
* `OrderedHours` — the timezone's clock changes stay out of the live hours.
* `Reopens` — the tick belongs to the bucket its stream closed last.
* `DistinctIntervals` — what is to hold of a stream.
* `Ordered`, `Frontier` — the invariant: the starts of the retained intervals are in order, and none
  lies beyond the bucket of the last tick.

Main result: `interval_retained_once`, for runs in which no tick reopens a bucket.  `flushed_bucket_reopens`
is a run in which one does.
-/

set_option autoImplicit false

namespace ApexScan.RetainedOnce

open Lib CandleEngine ContinuityTaint

/-! ## Buckets by wall-clock time -/

section Wall

variable (s : SessionSchedule) (tf : Timeframe)

/-- A wall-clock time inside the live hours of its date. -/
def InHours (wall : Int) : Prop := s.regularOpen ≤ wallTime wall ∧ wallTime wall < s.regularClose

/-- The opening of the live session of the date of `wall`. -/
def openAt (wall : Int) : Int := combine (wallDate wall) s.regularOpen

/-- The index of the bucket that holds `wall`. -/
def indexAt (wall : Int) : Int :=
  match tf.duration with
  | none => 0
  | some width => (wall - openAt s wall) / width

/-- The wall-clock start of the bucket that holds `wall`. -/
def startAt (wall : Int) : Int :=
  match tf.duration with
  | none => openAt s wall
  | some width => openAt s wall + indexAt s tf wall * width

variable {s tf}

theorem bucketBounds_index (t : Int) (z : ZoneInfo) :
    (bucketBounds t (wallDate (z.toLocal t)) tf s.bounds z).1 = indexAt s tf (z.toLocal t) := by
  cases tf <;> rfl

theorem bucketBounds_start (t : Int) (z : ZoneInfo) :
    (bucketBounds t (wallDate (z.toLocal t)) tf s.bounds z).2.1 =
      z.toUtc (startAt s tf (z.toLocal t)) := by
  cases tf <;> rfl

theorem wall_split (wall : Int) : wall = wallDate wall * day + wallTime wall := by
  have := Int.mul_ediv_add_emod wall day
  unfold wallDate wallTime
  linarith

theorem wallDate_mono {w w' : Int} (h : w ≤ w') : wallDate w ≤ wallDate w' :=
  Int.ediv_le_ediv day_pos h

theorem wallDate_combine (date moment : Int) (h : 0 ≤ moment) (h' : moment < day) :
    wallDate (combine date moment) = date ∧ wallTime (combine date moment) = moment := by
  unfold wallDate wallTime combine
  refine ⟨?_, ?_⟩
  · rw [Int.add_comm, Int.add_mul_ediv_right _ _ day_pos.ne', Int.ediv_eq_zero_of_lt h h',
      Int.zero_add]
  · rw [Int.add_comm, Int.add_mul_emod_self_right, Int.emod_eq_of_lt h h']

/-- The start of a bucket lies between the opening and the times of the bucket. -/
theorem startAt_bounds (tf : Timeframe) {wall : Int} (h : InHours s wall) :
    openAt s wall ≤ startAt s tf wall ∧ startAt s tf wall ≤ wall := by
  have hopen : openAt s wall ≤ wall := by
    have hsplit := wall_split wall
    have hle := h.1
    unfold openAt combine
    omega
  cases tf with
  | session => exact ⟨le_refl _, hopen⟩
  | intraday width pos =>
    have hnonneg : 0 ≤ (wall - openAt s wall) / width * width :=
      Int.mul_nonneg (Int.ediv_nonneg (by omega) pos.le) pos.le
    have hle : (wall - openAt s wall) / width * width ≤ wall - openAt s wall :=
      Int.ediv_mul_le _ pos.ne'
    simp only [startAt, indexAt, Timeframe.duration]
    omega

/-- A bucket starts in the live hours of the date of its times. -/
theorem startAt_inHours (tf : Timeframe) {wall : Int} (h : InHours s wall) :
    wallDate (startAt s tf wall) = wallDate wall ∧ InHours s (startAt s tf wall) := by
  obtain ⟨hlo, hhi⟩ := startAt_bounds tf h
  obtain ⟨moment, hmoment⟩ : ∃ m, startAt s tf wall = combine (wallDate wall) m :=
    ⟨startAt s tf wall - wallDate wall * day, by unfold combine; omega⟩
  have hsplit := wall_split wall
  have hopen := s.bounds.nonneg
  have hclose := s.bounds.stop_lt
  have hstart : s.bounds.start = s.regularOpen := rfl
  have hstop : s.bounds.stop = s.regularClose := rfl
  have hle : s.regularOpen ≤ moment := by
    rw [hmoment] at hlo
    unfold openAt combine at hlo
    omega
  have hlt : moment < s.regularClose := by
    have := h.2
    rw [hmoment] at hhi
    unfold combine at hhi
    omega
  obtain ⟨hdate, htime⟩ := wallDate_combine (wallDate wall) moment
    (by omega) (by omega)
  rw [hmoment]
  refine ⟨hdate, ?_, ?_⟩
  · rw [htime]; exact hle
  · rw [htime]; exact hlt

/-- A later time of another bucket belongs to a bucket that starts later. -/
theorem startAt_lt {w w' : Int} (h : InHours s w) (h' : InHours s w') (hle : w ≤ w')
    (hne : ¬ (wallDate w = wallDate w' ∧ indexAt s tf w = indexAt s tf w')) :
    startAt s tf w < startAt s tf w' := by
  have hdates := wallDate_mono hle
  by_cases hdate : wallDate w = wallDate w'
  · have hopen : openAt s w = openAt s w' := by
      unfold openAt
      rw [hdate]
    have hindex : indexAt s tf w ≠ indexAt s tf w' := fun h => hne ⟨hdate, h⟩
    cases tf with
    | session => exact absurd rfl hindex
    | intraday width pos =>
      have hmono : indexAt s (.intraday width pos) w ≤ indexAt s (.intraday width pos) w' := by
        simp only [indexAt, Timeframe.duration, hopen]
        exact Int.ediv_le_ediv pos (by omega)
      have hlt : indexAt s (.intraday width pos) w * width <
          indexAt s (.intraday width pos) w' * width :=
        Int.mul_lt_mul_of_pos_right (by omega) pos
      simp only [startAt, Timeframe.duration, hopen]
      omega
  · have hstart := (startAt_inHours tf h).1
    have hstart' := (startAt_inHours tf h').1
    by_contra hge
    have := wallDate_mono (not_lt.mp hge)
    omega

end Wall

/-! ## The runs -/

/-- The timezone keeps the order of the times in the live hours: its clock changes fall outside. -/
structure OrderedHours (z : ZoneInfo) (s : SessionSchedule) : Prop where
  toLocal_mono : ∀ t t', t ≤ t' → InHours s (z.toLocal t) → InHours s (z.toLocal t') →
    z.toLocal t ≤ z.toLocal t'
  toUtc_strictMono : ∀ w w', w < w' → InHours s w → InHours s w' → z.toUtc w < z.toUtc w'

/-- A zone with one offset has no clock changes. -/
theorem orderedHours_fixed (offset : Int) (h : -day < offset ∧ offset < day) (s : SessionSchedule) :
    OrderedHours (ZoneInfo.fixed offset h) s := by
  refine ⟨?_, ?_⟩
  · intro t t' hle _ _
    show t + offset ≤ t' + offset
    omega
  · intro w w' hlt _ _
    show w - offset < w' - offset
    omega

/-- The session facts are those of a classifier with this schedule and timezone. -/
def Classified (s : SessionSchedule) (z : ZoneInfo) (tick : Tick) (session : SessionContext) :
    Prop :=
  ∃ c : MarketSessionClassifier, c.schedule = s ∧ c.timezone = z ∧
    ∃ haltActive, session = c.classify tick.eventTimestamp haltActive

/-- The ticks of an instrument, in order. -/
def ticksOf (i : Instrument) (ops : List Op) : List Tick :=
  ops.filterMap fun
    | .update tick _ => if tick.instrument = i then some tick else none
    | _ => none

/-- Every tick is classified with the engine's schedule and timezone, and the event timestamps of
    an instrument do not decrease. -/
structure LiveFeed (s : SessionSchedule) (z : ZoneInfo) (ops : List Op) : Prop where
  classified : ∀ tick session, .update tick session ∈ ops → Classified s z tick session
  ordered : ∀ i, (ticksOf i ops).Pairwise (·.eventTimestamp ≤ ·.eventTimestamp)

/-- The step is a live tick of the bucket that a stream closed last: the stream is on the tick's
    date and has no bucket, and the tick has the index of the previous one. -/
def Reopens (e : CandleEngine) : Op → Prop
  | .update tick session => session.marketState = .liveSession ∧ ∃ tf ∈ e.timeframes,
      (e.stateFor tick.instrument tf).tradingDate = some session.tradingDate ∧
      (e.stateFor tick.instrument tf).partialBucket = none ∧
      (e.stateFor tick.instrument tf).previousBucketIndex =
        some (e.bucketBounds tick.eventTimestamp session.tradingDate tf).1
  | _ => False

instance (e : CandleEngine) (op : Op) : Decidable (Reopens e op) :=
  match op with
  | .update _ _ => inferInstanceAs (Decidable (_ ∧ ∃ tf ∈ e.timeframes, _ ∧ _ ∧ _))
  | .recordContinuity _ | .flush _ | .reconcile _ _ | .setRequiredTimeframes _ => isFalse id

/-- A live classification lies in the live hours of its trading date. -/
theorem Classified.inHours {s : SessionSchedule} {z : ZoneInfo} {tick : Tick}
    {session : SessionContext} (h : Classified s z tick session)
    (hlive : session.marketState = .liveSession) :
    session.tradingDate = wallDate (z.toLocal tick.eventTimestamp) ∧
      InHours s (z.toLocal tick.eventTimestamp) := by
  obtain ⟨c, rfl, rfl, haltActive, rfl⟩ := h
  refine ⟨rfl, ?_⟩
  simp only [MarketSessionClassifier.classify, MarketSessionClassifier.stateFor] at hlive
  split at hlive
  · cases hlive
  · split at hlive
    · cases hlive
    · split at hlive
      · cases hlive
      · unfold SessionSchedule.phaseFor at hlive
        have hincreasing := c.schedule.increasing
        split at hlive
        · cases hlive
        · split at hlive
          · cases hlive
          · split at hlive
            · cases hlive
            · rename_i hopen
              split at hlive
              · rename_i hclose
                exact ⟨not_lt.mp hopen, hclose⟩
              · split at hlive <;> cases hlive

/-! ## What is to hold of a stream -/

/-- The identity of an open bucket. -/
def partialIdentity (st : TimeframeState) (b : Bucket) : CandleIdentity :=
  ⟨st.instrument, st.timeframe, b.startUtc, b.endUtc⟩

/-- The retained intervals of a stream are in order, pairwise distinct, none is both incomplete and
    finalized or still open, and the windows are bounded. -/
structure DistinctIntervals (window : ℕ) (st : TimeframeState) : Prop where
  incomplete_increasing : st.incomplete.Pairwise (·.startTimestamp < ·.startTimestamp)
  incomplete_nodup : (st.incomplete.map identityOfIncomplete).Nodup
  finalized_increasing : st.finalized.Pairwise (·.startTimestamp < ·.startTimestamp)
  disjoint : ∀ c ∈ st.incomplete, ∀ f ∈ st.finalized,
    identityOfIncomplete c ≠ identityOf f st.timeframe
  partial_fresh : ∀ b ∈ st.partialBucket,
    (∀ c ∈ st.incomplete, identityOfIncomplete c ≠ partialIdentity st b) ∧
      ∀ f ∈ st.finalized, identityOf f st.timeframe ≠ partialIdentity st b
  incomplete_le : st.incomplete.length ≤ window
  finalized_le : st.finalized.length ≤ window

/-! ## The order of the starts -/

/-- Every retained interval starts before `bound`. -/
def Before (bound : Int) (st : TimeframeState) : Prop :=
  (∀ c ∈ st.incomplete, c.startTimestamp < bound) ∧ ∀ f ∈ st.finalized, f.startTimestamp < bound

/-- The retained intervals have distinct starts, in order, all before the open bucket. -/
structure Ordered (window : ℕ) (st : TimeframeState) : Prop where
  incomplete : st.incomplete.Pairwise (·.startTimestamp < ·.startTimestamp)
  finalized : st.finalized.Pairwise (·.startTimestamp < ·.startTimestamp)
  apart : ∀ c ∈ st.incomplete, ∀ f ∈ st.finalized, c.startTimestamp ≠ f.startTimestamp
  ahead : ∀ b ∈ st.partialBucket, Before b.startUtc st
  incomplete_le : st.incomplete.length ≤ window
  finalized_le : st.finalized.length ≤ window

variable {window : ℕ} {st : TimeframeState}

theorem Ordered.distinctIntervals (h : Ordered window st) : DistinctIntervals window st := by
  refine ⟨h.incomplete, ?_, h.finalized, ?_, ?_, h.incomplete_le, h.finalized_le⟩
  · rw [List.Nodup, List.pairwise_map]
    refine h.incomplete.imp fun {a b} hlt heq => ?_
    exact hlt.ne (congrArg CandleIdentity.startTimestamp heq)
  · intro c hc f hf heq
    exact h.apart c hc f hf (congrArg CandleIdentity.startTimestamp heq)
  · intro b hb
    obtain ⟨hinc, hfin⟩ := h.ahead b hb
    refine ⟨?_, ?_⟩
    · intro c hc heq
      exact (hinc c hc).ne (congrArg CandleIdentity.startTimestamp heq)
    · intro f hf heq
      exact (hfin f hf).ne (congrArg CandleIdentity.startTimestamp heq)

theorem ordered_new (instrument : Instrument) (timeframe : Timeframe) :
    Ordered window { instrument, timeframe } := by
  refine ⟨List.Pairwise.nil, List.Pairwise.nil, ?_, ?_, Nat.zero_le _, Nat.zero_le _⟩
  · intro c hc
    cases hc
  · intro b hb
    cases hb

theorem mem_finalizePartial {c : IncompleteCandle}
    (h : c ∈ (st.finalizePartial window).incomplete) :
    c ∈ st.incomplete ∨ ∃ b ∈ st.partialBucket, c.startTimestamp = b.startUtc := by
  unfold TimeframeState.finalizePartial at h
  split at h
  · exact Or.inl h
  · rename_i b hb
    rcases List.mem_append.mp ((rtake_sublist _ _).subset h) with h | h
    · exact Or.inl h
    · right
      rw [List.mem_singleton.mp h]
      exact ⟨b, hb, rfl⟩

theorem finalizePartial_finalized (window : ℕ) (st : TimeframeState) :
    (st.finalizePartial window).finalized = st.finalized := by
  unfold TimeframeState.finalizePartial
  split <;> rfl

theorem finalizePartial_partialBucket : (st.finalizePartial window).partialBucket = none := by
  unfold TimeframeState.finalizePartial
  split
  · assumption
  · rfl

/-- Closing the bucket keeps the order. -/
theorem Ordered.finalizePartial (h : Ordered window st) :
    Ordered window (st.finalizePartial window) := by
  cases hb : st.partialBucket with
  | none =>
    have hsame : st.finalizePartial window = st := by
      unfold TimeframeState.finalizePartial
      rw [hb]
    rw [hsame]
    exact h
  | some b =>
    obtain ⟨hinc, hfin⟩ := h.ahead b hb
    refine ⟨?_, ?_, ?_, ?_, ?_, ?_⟩
    · have hpush : (st.finalizePartial window).incomplete =
          (st.incomplete ++ [b.toIncomplete st.instrument st.timeframe]).rtake window := by
        unfold TimeframeState.finalizePartial pushBounded
        rw [hb]
      rw [hpush]
      refine List.Pairwise.sublist (rtake_sublist _ _) (List.pairwise_append.mpr
        ⟨h.incomplete, List.pairwise_singleton _ _, ?_⟩)
      intro c hc d hd
      rw [List.mem_singleton.mp hd]
      exact hinc c hc
    · rw [finalizePartial_finalized]
      exact h.finalized
    · intro c hc f hf
      rw [finalizePartial_finalized] at hf
      rcases mem_finalizePartial hc with hc | ⟨b', hb', hstart⟩
      · exact h.apart c hc f hf
      · rw [hb, Option.mem_some] at hb'
        rw [hstart, ← hb']
        exact (hfin f hf).ne'
    · intro b' hb'
      rw [finalizePartial_partialBucket] at hb'
      cases hb'
    · unfold TimeframeState.finalizePartial pushBounded
      rw [hb]
      exact rtake_length_le _ _
    · rw [finalizePartial_finalized]
      exact h.finalized_le

/-! ## A tick that opens a bucket -/

section Open

variable {date : Int} {broken : Bool} {bounds : Int × Int × Int} {tick : Tick}

/-- A tick that opens a bucket closes the one before and puts its own in place. -/
theorem streamStep_opened (window : ℕ) (broken : Bool) (tick : Tick)
    (h : st.opensAt date bounds.1 = true) :
    (st.streamStep window date broken bounds tick).incomplete =
        (st.finalizePartial window).incomplete ∧
      (st.streamStep window date broken bounds tick).finalized = st.finalized ∧
      ∃ b, (st.streamStep window date broken bounds tick).partialBucket = some b ∧
        b.index = bounds.1 ∧ b.startUtc = bounds.2.1 := by
  unfold TimeframeState.streamStep TimeframeState.onDate
  split
  · rename_i hdate
    cases hb : st.partialBucket with
    | none =>
      have hsame : st.finalizePartial window = st := by
        unfold TimeframeState.finalizePartial
        rw [hb]
      have hstep : st.observe window broken bounds tick =
          { st with partialBucket := some (st.openBucket broken bounds tick) } := by
        unfold TimeframeState.observe
        rw [hb]
      rw [hstep, hsame]
      exact ⟨rfl, rfl, _, rfl, rfl, rfl⟩
    | some b =>
      have hne : b.index ≠ bounds.1 := by
        simpa [TimeframeState.opensAt, hb, hdate] using h
      have hstep : st.observe window broken bounds tick =
          { st.finalizePartial window with
            partialBucket := some ((st.finalizePartial window).openBucket broken bounds tick) } := by
        unfold TimeframeState.observe
        simp only [hb, hne, if_false]
      rw [hstep]
      exact ⟨rfl, finalizePartial_finalized window st, _, rfl, rfl, rfl⟩
  · exact ⟨rfl, finalizePartial_finalized window st, _, rfl, rfl, rfl⟩

/-- A bucket that starts after everything retained keeps the order. -/
theorem Ordered.streamStep (h : Ordered window st) (hopen : st.opensAt date bounds.1 = true)
    (hafter : Before bounds.2.1 (st.finalizePartial window)) :
    Ordered window (st.streamStep window date broken bounds tick) := by
  obtain ⟨hinc, hfin, b, hb, -, hstart⟩ :=
    streamStep_opened window broken tick hopen
  have hclosed := h.finalizePartial
  refine ⟨?_, ?_, ?_, ?_, ?_, ?_⟩
  · rw [hinc]; exact hclosed.incomplete
  · rw [hfin]; exact h.finalized
  · intro c hc f hf
    rw [hinc] at hc
    rw [hfin] at hf
    exact hclosed.apart c hc f (by rw [finalizePartial_finalized]; exact hf)
  · intro b' hb'
    obtain rfl : b = b' := by rw [hb] at hb'; exact Option.some.inj hb'
    rw [hstart]
    unfold Before
    rw [hinc, hfin, ← finalizePartial_finalized window st]
    exact hafter
  · rw [hinc]; exact hclosed.incomplete_le
  · rw [hfin]; exact h.finalized_le

end Open

/-! ## Reconciliation -/

/-- A reconciled candle takes the identity of an incomplete interval. -/
theorem matchOutcome_reconciled {auth : Candle} {tf : Timeframe} {inc : List IncompleteCandle}
    {fin : List Candle} (h : matchOutcome auth tf inc fin = .reconciled) :
    ∃ c ∈ inc, identityOfIncomplete c = identityOf auth tf := by
  unfold matchOutcome at h
  split at h
  · split at h <;> cases h
  · split at h
    · rename_i hany
      obtain ⟨c, hc, heq⟩ := List.any_eq_true.mp hany
      exact ⟨c, hc, beq_iff_eq.mp heq⟩
    · cases h

/-- After a reconciliation a stream is as it was, or a matching interval moved over. -/
theorem reconcile_moves {e : CandleEngine} {i : Instrument} {tf timeframe : Timeframe}
    {auth : Candle} {st' : TimeframeState}
    (h : (e.reconcile auth timeframe).1.states.get (i, tf) = some st') :
    e.states.get (i, tf) = some st' ∨ ∃ st, e.states.get (i, tf) = some st ∧
      (∃ c ∈ st.incomplete, identityOfIncomplete c = identityOf auth timeframe) ∧
      st' = applyReconciliation e.finalizedWindow st auth timeframe := by
  unfold reconcile at h
  simp only at h
  split at h
  · exact Or.inl h
  · rename_i st hst
    split at h
    · rename_i hmatch
      simp only [Dict.get_set] at h
      split at h
      · rename_i heq
        right
        refine ⟨st, by rw [← heq]; exact hst, matchOutcome_reconciled hmatch, ?_⟩
        exact (Option.some.inj h).symm
      · exact Or.inl h
    · split at h <;> exact Or.inl h
    · exact Or.inl h
    · exact Or.inl h

/-- Sorting candles with distinct starts puts the starts in increasing order. -/
theorem insertionSort_increasing {candles : List Candle}
    (h : candles.Pairwise (·.startTimestamp ≠ ·.startTimestamp)) :
    (candles.insertionSort fun a b => a.startTimestamp ≤ b.startTimestamp).Pairwise
      (·.startTimestamp < ·.startTimestamp) := by
  have hle := List.pairwise_insertionSort
    (fun a b : Candle => a.startTimestamp ≤ b.startTimestamp) candles
  have hne : (candles.insertionSort fun a b => a.startTimestamp ≤ b.startTimestamp).Pairwise
      (·.startTimestamp ≠ ·.startTimestamp) :=
    (List.perm_insertionSort _ candles).symm.pairwise h fun hab => hab.symm
  exact (hle.and hne).imp fun hab => lt_of_le_of_ne hab.1 hab.2

/-- Moving a matching interval over keeps the order. -/
theorem Ordered.repaired (h : Ordered window st) {auth : Candle} {tf : Timeframe}
    (hmatch : ∃ c ∈ st.incomplete, identityOfIncomplete c = identityOf auth tf) :
    Ordered window (applyReconciliation window st auth tf) := by
  obtain ⟨c, hc, hid⟩ := hmatch
  have hstart : c.startTimestamp = auth.startTimestamp :=
    congrArg CandleIdentity.startTimestamp hid
  set kept := st.finalized.filter fun f => identityOf f tf != identityOf auth tf
  have hmem : ∀ f ∈ kept ++ [auth], f ∈ st.finalized ∨ f = auth := by
    intro f hf
    rcases List.mem_append.mp hf with hf | hf
    · exact Or.inl (List.mem_filter.mp hf).1
    · exact Or.inr (List.mem_singleton.mp hf)
  have hfin : ∀ f ∈ (applyReconciliation window st auth tf).finalized,
      f ∈ st.finalized ∨ f = auth := by
    intro f hf
    have hf' := (rtake_sublist _ _).subset hf
    rw [List.mem_insertionSort] at hf'
    exact hmem f hf'
  have hinc : ∀ d ∈ (applyReconciliation window st auth tf).incomplete,
      d ∈ st.incomplete ∧ identityOfIncomplete d ≠ identityOf auth tf := by
    intro d hd
    obtain ⟨hd, hne⟩ := List.mem_filter.mp ((rtake_sublist _ _).subset hd)
    exact ⟨hd, bne_iff_ne.mp hne⟩
  refine ⟨?_, ?_, ?_, ?_, rtake_length_le _ _, rtake_length_le _ _⟩
  · exact h.incomplete.sublist ((rtake_sublist _ _).trans List.filter_sublist)
  · have hne : (kept ++ [auth]).Pairwise (·.startTimestamp ≠ ·.startTimestamp) := by
      refine List.pairwise_append.mpr ⟨?_, List.pairwise_singleton _ _, ?_⟩
      · exact (h.finalized.sublist List.filter_sublist).imp fun hlt => hlt.ne
      · intro f hf a ha
        rw [List.mem_singleton.mp ha, ← hstart]
        exact (h.apart c hc f (List.mem_filter.mp hf).1).symm
    exact (insertionSort_increasing hne).sublist (rtake_sublist _ _)
  · intro d hd f hf
    obtain ⟨hdin, hne⟩ := hinc d hd
    rcases hfin f hf with hf | rfl
    · exact h.apart d hdin f hf
    · -- two incomplete intervals with one start are one, and that one moved over
      intro heq
      have hnodup : (st.incomplete.map (·.startTimestamp)).Nodup := by
        rw [List.Nodup, List.pairwise_map]
        exact h.incomplete.imp fun hlt => hlt.ne
      have hdc : d = c := List.inj_on_of_nodup_map hnodup hdin hc (heq.trans hstart.symm)
      exact hne (hdc ▸ hid)
  · intro b hb
    obtain ⟨hbinc, hbfin⟩ := h.ahead b hb
    refine ⟨fun d hd => hbinc d (hinc d hd).1, ?_⟩
    intro f hf
    rcases hfin f hf with hf | rfl
    · exact hbfin f hf
    · rw [← hstart]
      exact hbinc c hc

/-! ## The invariant -/

/-- The bucket of the wall-clock time `wall` is the open bucket of the stream or the one it closed
    last, and nothing retained starts after it. -/
structure FrontierAt (s : SessionSchedule) (z : ZoneInfo) (tf : Timeframe) (wall : Int)
    (st : TimeframeState) : Prop where
  inHours : InHours s wall
  date : st.tradingDate = some (wallDate wall)
  opened : ∀ b ∈ st.partialBucket, b.index = indexAt s tf wall ∧
    b.startUtc = z.toUtc (startAt s tf wall)
  closed : st.partialBucket = none → st.previousBucketIndex = some (indexAt s tf wall)
  incomplete_le : ∀ c ∈ st.incomplete, c.startTimestamp ≤ z.toUtc (startAt s tf wall)
  finalized_le : ∀ f ∈ st.finalized, f.startTimestamp ≤ z.toUtc (startAt s tf wall)

/-- The stream has taken a live tick of the instrument and stands at its bucket. -/
def Frontier (s : SessionSchedule) (z : ZoneInfo) (tf : Timeframe) (seen : List Tick)
    (st : TimeframeState) : Prop :=
  ∃ last ∈ seen, FrontierAt s z tf (z.toLocal last.eventTimestamp) st

section Invariant

variable {s : SessionSchedule} {z : ZoneInfo} {tf : Timeframe} {wall : Int}

theorem finalizePartial_none (hb : st.partialBucket = none) : st.finalizePartial window = st := by
  unfold TimeframeState.finalizePartial
  rw [hb]

/-- Closing the bucket keeps the frontier. -/
theorem FrontierAt.finalizePartial (window : ℕ) (h : FrontierAt s z tf wall st) :
    FrontierAt s z tf wall (st.finalizePartial window) := by
  cases hb : st.partialBucket with
  | none =>
    rw [finalizePartial_none hb]
    exact h
  | some b =>
    obtain ⟨hindex, hstart⟩ := h.opened b hb
    refine ⟨h.inHours, ?_, ?_, ?_, ?_, ?_⟩
    · unfold TimeframeState.finalizePartial
      rw [hb]
      exact h.date
    · intro b' hb'
      rw [finalizePartial_partialBucket] at hb'
      cases hb'
    · intro _
      unfold TimeframeState.finalizePartial
      rw [hb]
      exact congrArg some hindex
    · intro c hc
      rcases mem_finalizePartial hc with hc | ⟨b', hb', hc⟩
      · exact h.incomplete_le c hc
      · rw [hb, Option.mem_some] at hb'
        rw [hc, ← hb', hstart]
    · rw [finalizePartial_finalized]
      exact h.finalized_le

/-- Moving a matching interval over keeps the frontier. -/
theorem FrontierAt.repaired (h : FrontierAt s z tf wall st) {auth : Candle} {timeframe : Timeframe}
    (hmatch : ∃ c ∈ st.incomplete, identityOfIncomplete c = identityOf auth timeframe) :
    FrontierAt s z tf wall (applyReconciliation window st auth timeframe) := by
  obtain ⟨c, hc, hid⟩ := hmatch
  refine ⟨h.inHours, h.date, h.opened, h.closed, ?_, ?_⟩
  · intro d hd
    exact h.incomplete_le d (List.mem_filter.mp ((rtake_sublist _ _).subset hd)).1
  · intro f hf
    have hf' := (rtake_sublist _ _).subset hf
    rw [List.mem_insertionSort] at hf'
    rcases List.mem_append.mp hf' with hf' | hf'
    · exact h.finalized_le f (List.mem_filter.mp hf').1
    · have hstart : c.startTimestamp = auth.startTimestamp :=
        congrArg CandleIdentity.startTimestamp hid
      rw [List.mem_singleton.mp hf', ← hstart]
      exact h.incomplete_le c hc

/-- A later tick that opens a bucket, other than the one closed last, opens it after everything that
    is retained. -/
theorem FrontierAt.before (h : FrontierAt s z tf wall st) (hz : OrderedHours z s) {wall' : Int}
    (hhours : InHours s wall') (hle : wall ≤ wall')
    (hopen : st.opensAt (wallDate wall') (indexAt s tf wall') = true)
    (hfresh : ¬ (st.tradingDate = some (wallDate wall') ∧ st.partialBucket = none ∧
      st.previousBucketIndex = some (indexAt s tf wall'))) :
    Before (z.toUtc (startAt s tf wall')) (st.finalizePartial window) := by
  have hne : ¬ (wallDate wall = wallDate wall' ∧ indexAt s tf wall = indexAt s tf wall') := by
    rintro ⟨hdate, hindex⟩
    have hsame : st.tradingDate = some (wallDate wall') := hdate ▸ h.date
    cases hb : st.partialBucket with
    | none => exact hfresh ⟨hsame, hb, hindex ▸ h.closed hb⟩
    | some b =>
      have hb' : b.index = indexAt s tf wall' := hindex ▸ (h.opened b hb).1
      simp [TimeframeState.opensAt, hb, hsame, hb'] at hopen
  have hlt : z.toUtc (startAt s tf wall) < z.toUtc (startAt s tf wall') :=
    hz.toUtc_strictMono _ _ (startAt_lt h.inHours hhours hle hne)
      (startAt_inHours tf h.inHours).2 (startAt_inHours tf hhours).2
  have hclosed := h.finalizePartial window
  refine ⟨?_, ?_⟩
  · intro c hc
    exact lt_of_le_of_lt (hclosed.incomplete_le c hc) hlt
  · intro f hf
    exact lt_of_le_of_lt (hclosed.finalized_le f hf) hlt

/-- A bucket opened after everything that is retained is the new frontier. -/
theorem FrontierAt.opened_at {date : Int} {broken : Bool} {bounds : Int × Int × Int} {tick : Tick}
    (hhours : InHours s wall) (hdate : date = wallDate wall) (hindex : bounds.1 = indexAt s tf wall)
    (hstart : bounds.2.1 = z.toUtc (startAt s tf wall)) (hopen : st.opensAt date bounds.1 = true)
    (hafter : Before bounds.2.1 (st.finalizePartial window)) :
    FrontierAt s z tf wall (st.streamStep window date broken bounds tick) := by
  obtain ⟨hinc, hfin, b, hb, hbindex, hbstart⟩ :=
    streamStep_opened window broken tick hopen
  refine ⟨hhours, ?_, ?_, ?_, ?_, ?_⟩
  · rw [streamStep_tradingDate, hdate]
  · intro b' hb'
    obtain rfl : b = b' := by rw [hb] at hb'; exact Option.some.inj hb'
    exact ⟨hbindex.trans hindex, hbstart.trans hstart⟩
  · intro hnone
    rw [hb] at hnone
    cases hnone
  · intro c hc
    rw [hinc] at hc
    rw [← hstart]
    exact (hafter.1 c hc).le
  · intro f hf
    rw [hfin, ← finalizePartial_finalized window st] at hf
    rw [← hstart]
    exact (hafter.2 f hf).le

/-- The buckets of a stream marked as broken keep their places. -/
theorem FrontierAt.marked (h : FrontierAt s z tf wall st) :
    FrontierAt s z tf wall
      { st with partialBucket := st.partialBucket.map ({ · with ohlcBroken := true }) } := by
  refine ⟨h.inHours, h.date, ?_, ?_, h.incomplete_le, h.finalized_le⟩
  · intro b hb
    obtain ⟨b₀, hb₀, rfl⟩ := Option.map_eq_some_iff.mp hb
    exact h.opened b₀ hb₀
  · intro hnone
    exact h.closed (Option.map_eq_none_iff.mp hnone)

theorem Ordered.marked (h : Ordered window st) :
    Ordered window
      { st with partialBucket := st.partialBucket.map ({ · with ohlcBroken := true }) } := by
  refine ⟨h.incomplete, h.finalized, h.apart, ?_, h.incomplete_le, h.finalized_le⟩
  intro b hb
  obtain ⟨b₀, hb₀, rfl⟩ := Option.map_eq_some_iff.mp hb
  exact h.ahead b₀ hb₀

/-- The invariant of a stream, after the ticks `seen` of its instrument. -/
def Held (s : SessionSchedule) (z : ZoneInfo) (window : ℕ) (tf : Timeframe) (seen : List Tick)
    (st : TimeframeState) : Prop :=
  Ordered window st ∧ Frontier s z tf seen st

/-- The invariant of the engine after the operations `past`. -/
def AllHeld (s : SessionSchedule) (z : ZoneInfo) (window : ℕ) (past : List Op) (e : CandleEngine) :
    Prop :=
  ∀ i tf st, e.states.get (i, tf) = some st → Held s z window tf (ticksOf i past) st

theorem Held.mono {seen more : List Tick} (h : Held s z window tf seen st) (hsub : seen ⊆ more) :
    Held s z window tf more st := by
  obtain ⟨hordered, last, hlast, hat⟩ := h
  exact ⟨hordered, last, hsub hlast, hat⟩

theorem ticksOf_append (i : Instrument) (past more : List Op) :
    ticksOf i (past ++ more) = ticksOf i past ++ ticksOf i more := by
  unfold ticksOf
  rw [List.filterMap_append]

theorem ticksOf_subset (i : Instrument) (past more : List Op) :
    ticksOf i past ⊆ ticksOf i (past ++ more) := by
  rw [ticksOf_append]
  exact List.subset_append_left _ _

/-- An applied tick leaves its bucket in place. -/
theorem Held.applied {seen : List Tick} {b : Bucket} (h : Held s z window tf seen st)
    (hb : st.partialBucket = some b) (tick : Tick) :
    Held s z window tf seen { st with partialBucket := some (b.applyTick tick) } := by
  obtain ⟨hordered, last, hlast, hat⟩ := h
  have hplace : (b.applyTick tick).index = b.index ∧ (b.applyTick tick).startUtc = b.startUtc := by
    rw [Bucket.applyTick_eq]
    exact ⟨rfl, rfl⟩
  refine ⟨⟨hordered.incomplete, hordered.finalized, hordered.apart, ?_, hordered.incomplete_le,
    hordered.finalized_le⟩, last, hlast, ⟨hat.inHours, hat.date, ?_, ?_, hat.incomplete_le,
    hat.finalized_le⟩⟩
  · intro b' hb'
    obtain rfl := Option.some.inj hb'
    rw [hplace.2]
    exact hordered.ahead b hb
  · intro b' hb'
    obtain rfl := Option.some.inj hb'
    rw [hplace.1, hplace.2]
    exact hat.opened b hb
  · intro hnone
    cases hnone

/-- **A tick keeps the invariant of its stream**, unless it reopens the bucket closed last. -/
theorem Held.streamStep {seen : List Tick} {tick : Tick} {broken : Bool} (hz : OrderedHours z s)
    (h : st = { instrument := tick.instrument, timeframe := tf } ∨ Held s z window tf seen st)
    (hhours : InHours s (z.toLocal tick.eventTimestamp))
    (hlater : ∀ t ∈ seen, t.eventTimestamp ≤ tick.eventTimestamp)
    (hfresh : ¬ (st.tradingDate = some (wallDate (z.toLocal tick.eventTimestamp)) ∧
      st.partialBucket = none ∧
      st.previousBucketIndex = some (indexAt s tf (z.toLocal tick.eventTimestamp)))) :
    Held s z window tf (seen ++ [tick])
      (st.streamStep window (wallDate (z.toLocal tick.eventTimestamp)) broken
        (bucketBounds tick.eventTimestamp (wallDate (z.toLocal tick.eventTimestamp)) tf s.bounds z)
        tick) := by
  set bounds := bucketBounds tick.eventTimestamp (wallDate (z.toLocal tick.eventTimestamp)) tf
    s.bounds z with hbounds
  have hindex : bounds.1 = indexAt s tf (z.toLocal tick.eventTimestamp) := bucketBounds_index _ _
  have hstart : bounds.2.1 = z.toUtc (startAt s tf (z.toLocal tick.eventTimestamp)) :=
    bucketBounds_start _ _
  have hnew : tick ∈ seen ++ [tick] := List.mem_append_right _ (List.mem_singleton.mpr rfl)
  by_cases hopen : st.opensAt (wallDate (z.toLocal tick.eventTimestamp)) bounds.1 = true
  · have hordered : Ordered window st := by
      rcases h with rfl | h
      · exact ordered_new _ _
      · exact h.1
    have hafter : Before bounds.2.1 (st.finalizePartial window) := by
      rcases h with rfl | ⟨-, last, hlast, hat⟩
      · refine ⟨?_, ?_⟩ <;> intro c hc <;> cases hc
      · rw [hstart]
        rw [hindex] at hopen
        exact hat.before hz hhours (hz.toLocal_mono _ _ (hlater last hlast) hat.inHours hhours)
          hopen hfresh
    exact ⟨hordered.streamStep hopen hafter, tick, hnew,
      FrontierAt.opened_at hhours rfl hindex hstart hopen hafter⟩
  · have hsame : st.opensAt (wallDate (z.toLocal tick.eventTimestamp)) bounds.1 = false := by
      simpa using hopen
    rcases h with rfl | h
    · cases hsame
    · cases hb : st.partialBucket with
      | none =>
        unfold TimeframeState.opensAt at hsame
        rw [hb] at hsame
        cases hsame
      | some b =>
        rw [streamStep_same hb hsame]
        exact (h.applied hb tick).mono (List.subset_append_left _ _)

end Invariant

/-! ## Steps and runs -/

section Runs

variable {s : SessionSchedule} {z : ZoneInfo} {e : CandleEngine} {past : List Op} {op : Op}

/-- A live tick comes after every tick of its instrument that the feed brought before. -/
theorem LiveFeed.later {tick : Tick} {session : SessionContext}
    (h : LiveFeed s z (past ++ [.update tick session])) :
    ∀ t ∈ ticksOf tick.instrument past, t.eventTimestamp ≤ tick.eventTimestamp := by
  have hpair := h.ordered tick.instrument
  have hlast : ticksOf tick.instrument [.update tick session] = [tick] := by
    simp [ticksOf]
  rw [ticksOf_append, hlast, List.pairwise_append] at hpair
  intro t ht
  exact hpair.2.2 t ht tick (List.mem_singleton.mpr rfl)

/-- A tick that reopens no bucket keeps the invariant. -/
theorem update_held {tick : Tick} {session : SessionContext} (hz : OrderedHours z s)
    (hschedule : e.schedule = s) (hzone : e.timezone = z)
    (hfeed : LiveFeed s z (past ++ [.update tick session]))
    (hfresh : ¬ Reopens e (.update tick session)) (h : AllHeld s z e.finalizedWindow past e) :
    AllHeld s z e.finalizedWindow (past ++ [.update tick session]) (e.update tick session) := by
  intro i tf st' hst'
  rcases update_stream hst' with ⟨broken, hlive, rfl, htf, rfl⟩ | ⟨-, hst⟩
  · obtain ⟨hdate, hhours⟩ :=
      (hfeed.classified tick session (by simp)).inHours hlive
    have hbounds : e.bucketBounds tick.eventTimestamp session.tradingDate tf =
        bucketBounds tick.eventTimestamp (wallDate (z.toLocal tick.eventTimestamp)) tf s.bounds z := by
      unfold CandleEngine.bucketBounds
      rw [hschedule, hzone, hdate]
    have hold : e.stateFor tick.instrument tf = { instrument := tick.instrument, timeframe := tf } ∨
        Held s z e.finalizedWindow tf (ticksOf tick.instrument past)
          (e.stateFor tick.instrument tf) := by
      unfold stateFor
      cases hst : e.states.get (tick.instrument, tf) with
      | none => exact Or.inl rfl
      | some st => exact Or.inr (h _ _ st hst)
    have hseen : ticksOf tick.instrument (past ++ [.update tick session]) =
        ticksOf tick.instrument past ++ [tick] := by
      rw [ticksOf_append]
      simp [ticksOf]
    rw [hbounds, hdate, hseen]
    refine Held.streamStep hz hold hhours hfeed.later ?_
    rintro ⟨hsame, hnone, hprev⟩
    refine hfresh ⟨hlive, tf, htf, ?_, hnone, ?_⟩
    · rw [hsame, hdate]
    · rw [hprev, hbounds, bucketBounds_index]
  · exact (h i tf st' hst).mono (ticksOf_subset i past _)

/-- **Every operation keeps the invariant**, a tick when it reopens no bucket. -/
theorem step_held (hz : OrderedHours z s) (hschedule : e.schedule = s) (hzone : e.timezone = z)
    (hfeed : LiveFeed s z (past ++ [op])) (hfresh : ¬ Reopens e op)
    (h : AllHeld s z e.finalizedWindow past e) :
    AllHeld s z e.finalizedWindow (past ++ [op]) (step e op).1 := by
  cases op with
  | update tick session => exact update_held hz hschedule hzone hfeed hfresh h
  | reconcile auth timeframe =>
    intro i tf st' hst'
    refine Held.mono ?_ (ticksOf_subset i past _)
    rcases reconcile_moves hst' with hst | ⟨st, hst, hmatch, rfl⟩
    · exact h i tf st' hst
    · obtain ⟨hordered, last, hlast, hat⟩ := h i tf st hst
      exact ⟨hordered.repaired hmatch, last, hlast, hat.repaired hmatch⟩
  | recordContinuity event =>
    intro i tf st' hst'
    refine Held.mono ?_ (ticksOf_subset i past _)
    rcases step_stream hst' with ⟨_, _, _, hop, -⟩ | ⟨-, st, hst, htouched⟩
    · cases hop
    · obtain ⟨hordered, last, hlast, hat⟩ := h i tf st hst
      cases htouched with
      | same => exact ⟨hordered, last, hlast, hat⟩
      | broken => exact ⟨hordered.marked, last, hlast, hat.marked⟩
  | flush atTime =>
    intro i tf st' hst'
    refine Held.mono ?_ (ticksOf_subset i past _)
    rcases step_stream hst' with ⟨_, _, _, hop, -⟩ | ⟨-, st, hst, htouched⟩
    · cases hop
    · obtain ⟨hordered, last, hlast, hat⟩ := h i tf st hst
      cases htouched with
      | same => exact ⟨hordered, last, hlast, hat⟩
      | closed _ => exact ⟨hordered.finalizePartial, last, hlast, hat.finalizePartial _⟩
  | setRequiredTimeframes timeframes =>
    intro i tf st' hst'
    refine Held.mono ?_ (ticksOf_subset i past _)
    rcases step_stream hst' with ⟨_, _, _, hop, -⟩ | ⟨-, st, hst, htouched⟩
    · cases hop
    · cases htouched with
      | same => exact h i tf st' hst

theorem LiveFeed.of_append {more : List Op} (h : LiveFeed s z (past ++ more)) : LiveFeed s z past := by
  refine ⟨?_, ?_⟩
  · intro tick session hmem
    exact h.classified tick session (List.mem_append_left _ hmem)
  · intro i
    have hpair := h.ordered i
    rw [ticksOf_append, List.pairwise_append] at hpair
    exact hpair.1

/-- The invariant holds along every run without reopened buckets. -/
theorem run_held {e₀ : CandleEngine} (hz : OrderedHours z s) (hschedule : e₀.schedule = s)
    (hzone : e₀.timezone = z) (hempty : e₀.states = []) (ops : List Op) (hfeed : LiveFeed s z ops)
    (hfresh : Along step (fun e op => ¬ Reopens e op) e₀ ops) :
    SameConfig e₀ (run step e₀ ops) ∧ AllHeld s z e₀.finalizedWindow ops (run step e₀ ops) := by
  induction ops using List.reverseRecOn with
  | nil =>
    refine ⟨SameConfig.refl e₀, ?_⟩
    intro i tf st hst
    rw [run_nil, hempty] at hst
    cases hst
  | append_singleton past op ih =>
    rw [along_append] at hfresh
    obtain ⟨hconfig, hheld⟩ := ih hfeed.of_append hfresh.1
    rw [run_concat]
    refine ⟨hconfig.trans (step_config _ op), ?_⟩
    have hstep := step_held hz (hconfig.schedule.trans hschedule) (hconfig.timezone.trans hzone)
      hfeed hfresh.2.1 (by rw [hconfig.finalizedWindow]; exact hheld)
    rw [hconfig.finalizedWindow] at hstep
    exact hstep

end Runs

/-- **Every interval is retained once**, in every state of a run in which no live tick reopens the
    bucket its stream closed last, with a timezone that keeps the order of the live hours. -/
theorem interval_retained_once {schedule : SessionSchedule} {timezone : ZoneInfo}
    {timeframes : List Timeframe} {window : ℕ} {e₀ : CandleEngine}
    (hcreate : create schedule timezone timeframes window = some e₀)
    (hzone : OrderedHours timezone schedule) (ops : List Op)
    (hfeed : LiveFeed schedule timezone ops)
    (hfresh : Along step (fun e op => ¬ Reopens e op) e₀ ops) :
    ∀ past future, ops = past ++ future → ∀ i tf st,
      (run step e₀ past).states.get (i, tf) = some st → DistinctIntervals window st := by
  intro past future hops i tf st hst
  subst hops
  rw [along_append] at hfresh
  unfold create at hcreate
  split at hcreate
  · split at hcreate
    · obtain rfl := (Option.some.inj hcreate).symm
      have hheld := (run_held hzone rfl rfl rfl past hfeed.of_append hfresh.1).2
      exact (hheld i tf st hst).1.distinctIntervals
    · cases hcreate
  · cases hcreate

def oneMinute : Timeframe := Timeframe.minutes 1 Nat.one_pos

/-- A flush at `m` minutes past midnight of 2024-10-04, exchange time. -/
def flushOp (m : Int) : Op := .flush (20000 * day + (m - 330) * minute)

theorem sampleTick_classified (m : Int) (h : 555 ≤ m ∧ m < 930) :
    Classified nseSchedule kolkata (sampleTick m (rupees 100)).1 (sampleTick m (rupees 100)).2 := by
  have hwall : kolkata.toLocal (sampleTick m (rupees 100)).1.eventTimestamp =
      combine 20000 (m * minute) := by
    show 20000 * day + (m - 330) * minute + 330 * minute = 20000 * day + m * minute
    unfold day minute second
    omega
  have hrange : 555 * minute ≤ m * minute ∧ m * minute < 930 * minute := by
    unfold minute second
    omega
  have hday : 930 * minute < day := by decide
  have hpos : (0 : Int) ≤ 555 * minute := by decide
  obtain ⟨hdate, htime⟩ := wallDate_combine 20000 (m * minute) (by omega) (by omega)
  have hphase : nseSchedule.phaseFor (m * minute) = .liveSession := by
    have hopen : nseSchedule.regularOpen ≤ m * minute := hrange.1
    have hclose : m * minute < nseSchedule.regularClose := hrange.2
    have hincreasing := nseSchedule.increasing
    unfold SessionSchedule.phaseFor
    rw [if_neg (by omega), if_neg (by omega), if_neg (by omega), if_pos hclose]
  have hstate : nseClassifier.stateFor 20000 (m * minute) false = .liveSession := hphase
  refine ⟨nseClassifier, rfl, rfl, false, ?_⟩
  have hfacts : nseClassifier.classify (sampleTick m (rupees 100)).1.eventTimestamp false =
      { tradingDate := wallDate (combine 20000 (m * minute))
        marketState := nseClassifier.stateFor (wallDate (combine 20000 (m * minute)))
          (wallTime (combine 20000 (m * minute))) false
        exchangeTimezone := "Asia/Kolkata" } := by
    rw [← hwall]
    rfl
  rw [hfacts, hdate, htime, hstate]
  rfl

/-- A tick, a flush at the end of its minute, and two more ticks in order. -/
theorem sample_liveFeed {m n : Int} (hm : 555 ≤ m ∧ m ≤ n) (hn : n < 930) :
    LiveFeed nseSchedule kolkata [tickOp 555, flushOp 556, tickOp m, tickOp n] := by
  refine ⟨?_, ?_⟩
  · intro tick session hmem
    simp only [tickOp, flushOp, List.mem_cons, Op.update.injEq, reduceCtorEq, List.not_mem_nil,
      or_false, false_or] at hmem
    rcases hmem with ⟨rfl, rfl⟩ | ⟨rfl, rfl⟩ | ⟨rfl, rfl⟩
    · exact sampleTick_classified 555 (by omega)
    · exact sampleTick_classified m (by omega)
    · exact sampleTick_classified n (by omega)
  · intro i
    by_cases hi : reliance = i
    · simp only [ticksOf, tickOp, flushOp, sampleTick, List.filterMap_cons, hi, if_true,
        List.filterMap_nil, List.pairwise_cons, List.mem_cons, List.not_mem_nil, or_false,
        forall_eq_or_imp, forall_eq, List.Pairwise.nil, and_true, false_implies, implies_true]
      unfold day minute second
      omega
    · simp [ticksOf, tickOp, flushOp, sampleTick, hi]

theorem interval_retained_once_sample :
    let ops := [tickOp 555, flushOp 556, tickOp 556, tickOp 557]
    create nseSchedule kolkata [oneMinute] 4 = some (newEngine [oneMinute]) ∧
      Along step (fun e op => ¬ Reopens e op) (newEngine [oneMinute]) ops ∧
      ∃ st, (run step (newEngine [oneMinute]) ops).states.get (reliance, oneMinute) = some st ∧
        DistinctIntervals 4 st := by
  intro ops
  have hcreate : create nseSchedule kolkata [oneMinute] 4 = some (newEngine [oneMinute]) := rfl
  have hfresh : Along step (fun e op => ¬ Reopens e op) (newEngine [oneMinute]) ops := by
    refine ⟨?_, ?_, ?_, ?_, trivial⟩
    · show ¬ Reopens _ _
      decide
    · exact id
    · show ¬ Reopens _ _
      decide
    · show ¬ Reopens _ _
      decide
  refine ⟨hcreate, hfresh, _, rfl, ?_⟩
  exact interval_retained_once hcreate (orderedHours_fixed _ _ _) ops
    (sample_liveFeed (by decide) (by decide)) hfresh ops [] (by simp) reliance oneMinute _ rfl

/-- The minute of a tick is flushed, and a tick of that minute follows: the minute is opened again
    and retained twice. -/
theorem flushed_bucket_reopens :
    let ops := [tickOp 555, flushOp 556, tickOp 555, tickOp 556]
    create nseSchedule kolkata [oneMinute] 4 = some (newEngine [oneMinute]) ∧
      OrderedHours kolkata nseSchedule ∧ LiveFeed nseSchedule kolkata ops ∧
      ∃ st, (run step (newEngine [oneMinute]) ops).states.get (reliance, oneMinute) = some st ∧
        ¬ (st.incomplete.map identityOfIncomplete).Nodup := by
  refine ⟨rfl, orderedHours_fixed _ _ _, sample_liveFeed (by decide) (by decide), _, rfl, ?_⟩
  decide

end ApexScan.RetainedOnce
