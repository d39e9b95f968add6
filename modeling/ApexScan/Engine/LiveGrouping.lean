import ApexScan.Engine.CandleEngine
import ApexScan.Lib.Groups

/-!
# Live aggregation is grouping by bucket index

The candle engine is an automaton: open a bucket, apply ticks, finalize into a bounded window, roll
the volume baseline.  The specification is declarative: cut the ticks of one session into maximal
runs of one bucket index and read each candle off its run and the runs before it.

* `IsGroupCandle bounds before g c` — `c` is the candle of the group `g`, with the groups `before`
  it (feed gap and interval volume look at the last of them).
* `GroupCandles` — one candle for each group, in order.
* `StreamInv` — the state of a stream after a list of ticks, in terms of their groups;
  `streamStep_inv` is the step, `feed_inv` the run.

Main result: `live_aggregation_is_grouping`.  Where the wall clock does not go back the groups have
strictly increasing indices, so a maximal run is the set of all ticks with that index.
-/

set_option autoImplicit false

namespace ApexScan.LiveGrouping

open Lib

/-! ## Specification -/

section Spec

variable (bounds : Tick → Int × Int × Int)

/-- Bucket index of a group. -/
def groupIndex (g : List Tick) : Int := (g.head?.map fun t => (bounds t).1).getD 0

/-- The group is not the first and does not continue the one before it. -/
def isFeedGap (before : List (List Tick)) (g : List Tick) : Bool :=
  match before.getLast? with
  | none => false
  | some p => decide (groupIndex bounds g ≠ groupIndex bounds p + 1)

/-- The reported cumulative volumes of a group. -/
def counters (g : List Tick) : List ℕ := g.filterMap (·.sessionCumulativeVolume)

/-- Interval volume: the last counter of the group less the highest of the group before it, where
    that group is adjacent and no feed gap itself and the counters of this one never decrease. -/
def groupQuantity (before : List (List Tick)) (g : List Tick) : Option ℕ :=
  match before.getLast? with
  | none => none
  | some p =>
    if groupIndex bounds g = groupIndex bounds p + 1 ∧ isFeedGap bounds before.dropLast p = false ∧
        (counters g).Pairwise (· ≤ ·) then
      match (counters p).max?, (counters g).getLast? with
      | some start, some stop => if stop < start then none else some (stop - start)
      | _, _ => none
    else none

/-- The candle of a group. -/
structure IsGroupCandle (before : List (List Tick)) (g : List Tick) (c : PartialCandle) : Prop where
  open_eq : g.head?.map (·.lastPrice) = some c.openPrice
  high_eq : (g.map (·.lastPrice)).max? = some c.highPrice
  low_eq : (g.map (·.lastPrice)).min? = some c.lowPrice
  close_eq : g.getLast?.map (·.lastPrice) = some c.closePrice
  bounds_eq : ∀ t ∈ g, bounds t = (groupIndex bounds g, c.startTimestamp, c.endTimestamp)
  quality_eq : c.quality = if isFeedGap bounds before g then .feedGap else .incompleteVolume
  quantity_eq : c.tradedQuantity = groupQuantity bounds before g

/-- One candle for each group, in order. -/
def GroupCandles : List (List Tick) → List (List Tick) → List PartialCandle → Prop
  | _, [], [] => True
  | before, g :: gs, c :: cs => IsGroupCandle bounds before g c ∧ GroupCandles (before ++ [g]) gs cs
  | _, _, _ => False

variable {bounds}

theorem GroupCandles.concat {before gs : List (List Tick)} {cs : List PartialCandle}
    (h : GroupCandles bounds before gs cs) {g : List Tick} {c : PartialCandle}
    (hc : IsGroupCandle bounds (before ++ gs) g c) :
    GroupCandles bounds before (gs ++ [g]) (cs ++ [c]) := by
  induction gs generalizing before cs with
  | nil =>
    cases cs with
    | nil => exact ⟨by simpa using hc, trivial⟩
    | cons _ _ => exact absurd h (by simp [GroupCandles])
  | cons g' gs ih =>
    cases cs with
    | nil => exact absurd h (by simp [GroupCandles])
    | cons c' cs =>
      refine ⟨h.1, ih h.2 ?_⟩
      simpa using hc

@[simp] theorem groupIndex_singleton (t : Tick) : groupIndex bounds [t] = (bounds t).1 := rfl

theorem groupIndex_append {g : List Tick} (hg : g ≠ []) (t : Tick) :
    groupIndex bounds (g ++ [t]) = groupIndex bounds g := by
  cases g with
  | nil => exact absurd rfl hg
  | cons a g => rfl

theorem isFeedGap_append {before : List (List Tick)} {g : List Tick} (hg : g ≠ []) (t : Tick) :
    isFeedGap bounds before (g ++ [t]) = isFeedGap bounds before g := by
  unfold isFeedGap
  rw [groupIndex_append hg]

end Spec

/-! ## Counters -/

theorem counters_append (g : List Tick) (t : Tick) :
    counters (g ++ [t]) = counters g ++ t.sessionCumulativeVolume.toList := by
  cases h : t.sessionCumulativeVolume <;> simp [counters, List.filterMap_append, h]

theorem max?_concat {α : Type} [Max α] (xs : List α) (x : α) :
    (xs ++ [x]).max? = some (match xs.max? with | some m => max m x | none => x) := by
  cases xs with
  | nil => rfl
  | cons a xs => simp [List.max?_cons', List.foldl_append]

theorem min?_concat {α : Type} [Min α] (xs : List α) (x : α) :
    (xs ++ [x]).min? = some (match xs.min? with | some m => min m x | none => x) := by
  cases xs with
  | nil => rfl
  | cons a xs => simp [List.min?_cons', List.foldl_append]

/-- A list that never decreases ends in its maximum. -/
theorem max?_eq_getLast? {xs : List ℕ} (h : xs.Pairwise (· ≤ ·)) : xs.max? = xs.getLast? := by
  rcases List.eq_nil_or_concat xs with rfl | ⟨ys, y, rfl⟩
  · rfl
  · rw [List.concat_eq_append] at h ⊢
    rw [max?_concat, List.getLast?_concat]
    cases hm : ys.max? with
    | none => rfl
    | some m =>
      have hle := (List.pairwise_append.mp h).2.2 m (List.max?_mem hm) y (by simp)
      simp [Nat.max_eq_right hle]

/-- Appending keeps a list sorted iff the new element is not below the maximum. -/
theorem pairwise_concat_iff {xs : List ℕ} (h : xs.Pairwise (· ≤ ·)) (x : ℕ) :
    (xs ++ [x]).Pairwise (· ≤ ·) ↔ ∀ m ∈ xs.max?, m ≤ x := by
  rw [List.pairwise_append]
  constructor
  · intro h m hm
    exact h.2.2 m (List.max?_mem hm) x (by simp)
  · intro hx
    refine ⟨h, by simp, ?_⟩
    intro a ha b hb
    rw [List.mem_singleton] at hb
    subst hb
    cases hm : xs.max? with
    | none => simp [List.max?_eq_none_iff.mp hm] at ha
    | some m => exact ((List.max?_eq_some_iff.mp hm).2 a ha).trans (hx m hm)

/-! ## The bucket of a group -/

section Inv

variable (bounds : Tick → Int × Int × Int)

/-- The volume a group hands to the next one. -/
def carried (before : List (List Tick)) : Option ℕ :=
  match before.getLast? with
  | none => none
  | some p => if isFeedGap bounds before.dropLast p then none else (counters p).max?

/-- `b` is the engine's bucket for the ticks of the group `g`. -/
structure BucketOf (before : List (List Tick)) (g : List Tick) (b : Bucket) : Prop where
  ne_nil : g ≠ []
  index_eq : b.index = groupIndex bounds g
  open_eq : g.head?.map (·.lastPrice) = some b.openPrice
  high_eq : (g.map (·.lastPrice)).max? = some b.highPrice
  low_eq : (g.map (·.lastPrice)).min? = some b.lowPrice
  close_eq : g.getLast?.map (·.lastPrice) = some b.closePrice
  bounds_eq : ∀ t ∈ g, bounds t = (groupIndex bounds g, b.startUtc, b.endUtc)
  gap_eq : b.feedGap = isFeedGap bounds before g
  baseline_eq : b.baseline = if isFeedGap bounds before g then none else carried bounds before
  cumulative_eq : b.lastCumulative = (counters g).max?
  invalid_iff : b.volumeInvalid = false ↔ (counters g).Pairwise (· ≤ ·)
  unbroken : b.ohlcBroken = false

variable {bounds}

/-- The candle read off the bucket is the candle of the group. -/
theorem BucketOf.isGroupCandle {before : List (List Tick)} {g : List Tick} {b : Bucket}
    (h : BucketOf bounds before g b) : IsGroupCandle bounds before g b.partialView where
  open_eq := h.open_eq
  high_eq := h.high_eq
  low_eq := h.low_eq
  close_eq := h.close_eq
  bounds_eq := h.bounds_eq
  quality_eq := by simp [Bucket.partialView, Bucket.qualityFor, h.gap_eq, h.unbroken]
  quantity_eq := by
    simp only [Bucket.partialView, Bucket.intervalVolume, h.baseline_eq, h.cumulative_eq,
      groupQuantity, carried]
    by_cases hs : (counters g).Pairwise (· ≤ ·)
    · rw [if_neg (by simp [h.invalid_iff.mpr hs]), max?_eq_getLast? hs]
      cases hb : before.getLast? with
      | none => simp
      | some p =>
        have hgap : isFeedGap bounds before g =
            decide (groupIndex bounds g ≠ groupIndex bounds p + 1) := by
          rw [isFeedGap, hb]
        rw [hgap]
        by_cases hi : groupIndex bounds g = groupIndex bounds p + 1
        · cases hp : isFeedGap bounds before.dropLast p with
          | false =>
            cases hm : (counters p).max? <;> cases (counters g).getLast? <;>
              simp [hi, hs, hp, hm]
          | true => simp [hi, hp]
        · simp [hi]
    · have hinv : b.volumeInvalid = true := by
        cases hv : b.volumeInvalid with
        | true => rfl
        | false => exact absurd (h.invalid_iff.mp hv) hs
      rw [if_pos hinv]
      cases before.getLast? with
      | none => rfl
      | some p => simp [hs]

/-- The accepted counter of the bucket stays the highest counter of the group. -/
theorem BucketOf.applyTick_cumulative {before : List (List Tick)} {g : List Tick} {b : Bucket}
    (h : BucketOf bounds before g b) (t : Tick) :
    (b.applyTick t).lastCumulative = (counters (g ++ [t])).max? := by
  have hcum := h.cumulative_eq
  rw [counters_append]
  unfold Bucket.applyTick
  cases hv : t.sessionCumulativeVolume with
  | none => simpa using hcum
  | some v =>
    show _ = (counters g ++ [v]).max?
    rw [max?_concat, ← hcum]
    cases hl : b.lastCumulative with
    | none => rfl
    | some last =>
      by_cases hlt : v < last
      · have hmax : max last v = last := Nat.max_eq_left (Nat.le_of_lt hlt)
        simp [hlt, hmax]
      · have hmax : max last v = v := Nat.max_eq_right (Nat.le_of_not_lt hlt)
        simp [hlt, hmax]

/-- The bucket is invalid from the first counter that decreases on. -/
theorem BucketOf.applyTick_invalid {before : List (List Tick)} {g : List Tick} {b : Bucket}
    (h : BucketOf bounds before g b) (t : Tick) :
    (b.applyTick t).volumeInvalid = false ↔ (counters (g ++ [t])).Pairwise (· ≤ ·) := by
  have hcum := h.cumulative_eq
  rw [counters_append]
  unfold Bucket.applyTick
  cases hv : t.sessionCumulativeVolume with
  | none => simpa using h.invalid_iff
  | some v =>
    show _ ↔ (counters g ++ [v]).Pairwise (· ≤ ·)
    have hinit : (counters g ++ [v]).Pairwise (· ≤ ·) → (counters g).Pairwise (· ≤ ·) := by
      intro hs
      exact (List.pairwise_append.mp hs).1
    -- a counter at or above the highest one so far keeps the group's order
    have hkeep : (∀ m ∈ b.lastCumulative, m ≤ v) →
        (b.volumeInvalid = false ↔ (counters g ++ [v]).Pairwise (· ≤ ·)) := by
      intro hle
      rw [h.invalid_iff]
      constructor
      · intro hs
        rw [pairwise_concat_iff hs, ← hcum]
        exact hle
      · exact hinit
    cases hl : b.lastCumulative with
    | none =>
      apply hkeep
      simp [hl]
    | some last =>
      by_cases hlt : v < last
      · simp only [hlt, if_true, Bool.true_eq_false, false_iff]
        intro hs
        have hle : last ≤ v := by
          apply (pairwise_concat_iff (hinit hs) v).mp hs
          rw [← hcum, hl]
          rfl
        omega
      · simp only [hlt, if_false]
        apply hkeep
        intro m hm
        rw [hl, Option.mem_some_iff] at hm
        omega

/-- `applyTick` follows the group. -/
theorem BucketOf.applyTick {before : List (List Tick)} {g : List Tick} {b : Bucket}
    (h : BucketOf bounds before g b) {t : Tick}
    (ht : bounds t = (groupIndex bounds g, b.startUtc, b.endUtc)) :
    BucketOf bounds before (g ++ [t]) (b.applyTick t) := by
  have hidx : groupIndex bounds (g ++ [t]) = groupIndex bounds g := groupIndex_append h.ne_nil t
  have hgap : isFeedGap bounds before (g ++ [t]) = isFeedGap bounds before g :=
    isFeedGap_append h.ne_nil t
  have hhead : (g ++ [t]).head? = g.head? := List.head?_append_of_ne_nil g h.ne_nil
  have hcumulative := h.applyTick_cumulative t
  have hinvalid := h.applyTick_invalid t
  rw [Bucket.applyTick_eq]
  constructor
  case ne_nil => simp
  case index_eq => rw [hidx, h.index_eq]
  case open_eq => rw [hhead, h.open_eq]
  case high_eq => rw [List.map_append, List.map_singleton, max?_concat, h.high_eq]
  case low_eq => rw [List.map_append, List.map_singleton, min?_concat, h.low_eq]
  case close_eq => simp
  case bounds_eq =>
    intro t' ht'
    rw [hidx]
    rcases List.mem_append.mp ht' with ht' | ht'
    · exact h.bounds_eq t' ht'
    · rw [List.mem_singleton] at ht'
      rw [ht', ht]
  case gap_eq => rw [hgap, h.gap_eq]
  case baseline_eq => rw [hgap, h.baseline_eq]
  case cumulative_eq => exact hcumulative
  case invalid_iff => exact hinvalid
  case unbroken => exact h.unbroken

/-- A tick that opens a bucket on an untainted stream starts the bucket of its own group. -/
theorem bucketOf_openBucket {gs : List (List Tick)} {st : TimeframeState} {t : Tick}
    (hindex : st.previousBucketIndex = gs.getLast?.map (groupIndex bounds))
    (hcarried : st.previousBucketEndCumulative = carried bounds gs) :
    BucketOf bounds gs [t] (st.openBucket false (bounds t) t) := by
  have hgap : (st.openBucket false (bounds t) t).feedGap = isFeedGap bounds gs [t] := by
    cases hl : gs.getLast? with
    | none => simp [TimeframeState.openBucket, isFeedGap, hindex, hl]
    | some p =>
      by_cases hi : (bounds t).1 = groupIndex bounds p + 1
      · simp [TimeframeState.openBucket, isFeedGap, hindex, hl, hi]
      · simp [TimeframeState.openBucket, isFeedGap, hindex, hl, hi]
  refine ⟨by simp, rfl, rfl, rfl, rfl, rfl, ?_, hgap, ?_, ?_, ?_, rfl⟩
  · intro t' ht'
    rw [List.mem_singleton] at ht'
    rw [ht']
    rfl
  · cases hl : gs.getLast? with
    | none =>
      have : carried bounds gs = none := by simp [carried, hl]
      simp [TimeframeState.openBucket, hindex, hl, this]
    | some p =>
      by_cases hi : (bounds t).1 = groupIndex bounds p + 1
      · simp [TimeframeState.openBucket, hindex, hl, hi, isFeedGap, hcarried]
      · simp [TimeframeState.openBucket, hindex, hl, hi, isFeedGap]
  · cases hv : t.sessionCumulativeVolume <;> simp [TimeframeState.openBucket, counters, hv]
  · cases hv : t.sessionCumulativeVolume <;> simp [TimeframeState.openBucket, counters, hv]

end Inv

/-! ## The stream after a list of ticks -/

section Stream

variable (bounds : Tick → Int × Int × Int) (window : ℕ) (date : Int)

/-- The facts of a finalized interval, as the partial view has them. -/
def viewOf (c : IncompleteCandle) : PartialCandle :=
  ⟨c.startTimestamp, c.endTimestamp, c.openPrice, c.highPrice, c.lowPrice, c.closePrice,
    c.tradedQuantity, c.quality⟩

/-- A stream of the session `date` whose ticks so far have the groups `gs ++ [g]`. -/
structure Grouped (gs : List (List Tick)) (g : List Tick) (st : TimeframeState) : Prop where
  tradingDate_eq : st.tradingDate = some date
  closed : ∃ cs, GroupCandles bounds [] gs cs ∧ st.incomplete.map viewOf = cs.rtake window
  current : ∃ b, st.partialBucket = some b ∧ BucketOf bounds gs g b
  index_eq : st.previousBucketIndex = gs.getLast?.map (groupIndex bounds)
  carried_eq : st.previousBucketEndCumulative = carried bounds gs

variable {bounds window date}

theorem viewOf_toIncomplete (b : Bucket) (i : Instrument) (tf : Timeframe) :
    viewOf (b.toIncomplete i tf) = b.partialView := rfl

/-- The first tick of a stream is its first group. -/
theorem grouped_first (i : Instrument) (tf : Timeframe) (t : Tick) :
    Grouped bounds window date [] [t]
      (TimeframeState.streamStep window date false (bounds t) t
        { instrument := i, timeframe := tf }) := by
  have hb : BucketOf bounds [] [t]
      (TimeframeState.openBucket
        { instrument := i, timeframe := tf, tradingDate := some date } false (bounds t) t) :=
    bucketOf_openBucket rfl rfl
  exact ⟨rfl, ⟨[], trivial, by simp [List.rtake]; rfl⟩, ⟨_, rfl, hb⟩, rfl, rfl⟩

/-- A tick with the index of the current group joins it. -/
theorem Grouped.join {gs : List (List Tick)} {g : List Tick} {st : TimeframeState} {t : Tick}
    (h : Grouped bounds window date gs g st) (ht : ∀ a ∈ g, bounds a = bounds t) :
    Grouped bounds window date gs (g ++ [t]) (st.streamStep window date false (bounds t) t) := by
  obtain ⟨b, hb, hof⟩ := h.current
  obtain ⟨a, ha⟩ := List.exists_mem_of_ne_nil g hof.ne_nil
  have hbt : bounds t = (groupIndex bounds g, b.startUtc, b.endUtc) := by
    rw [← ht a ha, hof.bounds_eq a ha]
  have hstep : st.streamStep window date false (bounds t) t =
      { st with partialBucket := some (b.applyTick t) } := by
    have hi : b.index = (bounds t).1 := by rw [hof.index_eq, hbt]
    simp [TimeframeState.streamStep, TimeframeState.onDate, h.tradingDate_eq,
      TimeframeState.observe, hb, hi]
  rw [hstep]
  exact ⟨h.tradingDate_eq, h.closed, ⟨_, rfl, hof.applyTick hbt⟩, h.index_eq, h.carried_eq⟩

/-- A tick with another index closes the current group and starts the next. -/
theorem Grouped.next {gs : List (List Tick)} {g : List Tick} {st : TimeframeState} {t : Tick}
    (h : Grouped bounds window date gs g st) (ht : ∀ a ∈ g, (bounds a).1 ≠ (bounds t).1) :
    Grouped bounds window date (gs ++ [g]) [t]
      (st.streamStep window date false (bounds t) t) := by
  obtain ⟨b, hb, hof⟩ := h.current
  obtain ⟨cs, hcs, hinc⟩ := h.closed
  obtain ⟨a, ha⟩ := List.exists_mem_of_ne_nil g hof.ne_nil
  have hi : b.index ≠ (bounds t).1 := by
    rw [hof.index_eq]
    have := ht a ha
    rw [hof.bounds_eq a ha] at this
    exact this
  have hstep : st.streamStep window date false (bounds t) t =
      { st.finalizePartial window with
        partialBucket := some ((st.finalizePartial window).openBucket false (bounds t) t) } := by
    simp [TimeframeState.streamStep, TimeframeState.onDate, h.tradingDate_eq,
      TimeframeState.observe, hb, hi]
  have hindex : (st.finalizePartial window).previousBucketIndex =
      (gs ++ [g]).getLast?.map (groupIndex bounds) := by
    simp [TimeframeState.finalizePartial, hb, hof.index_eq]
  have hcarried : (st.finalizePartial window).previousBucketEndCumulative =
      carried bounds (gs ++ [g]) := by
    simp [TimeframeState.finalizePartial, hb, carried, hof.gap_eq, hof.cumulative_eq]
  rw [hstep]
  refine ⟨?_, ⟨cs ++ [b.partialView], hcs.concat (by simpa using hof.isGroupCandle), ?_⟩,
    ⟨_, rfl, bucketOf_openBucket hindex hcarried⟩, hindex, hcarried⟩
  · simp [TimeframeState.finalizePartial, hb, h.tradingDate_eq]
  · simp only [TimeframeState.finalizePartial, hb]
    rw [map_pushBounded, hinc, viewOf_toIncomplete, pushBounded_rtake]

/-- The stream after `ticks`: empty, or grouped by bucket index. -/
def StreamInv (bounds : Tick → Int × Int × Int) (window : ℕ) (date : Int) (i : Instrument)
    (tf : Timeframe) (ticks : List Tick) (st : TimeframeState) : Prop :=
  (ticks = [] ∧ st = { instrument := i, timeframe := tf }) ∨
    ∃ gs g, groupsBy (fun t => (bounds t).1) ticks = gs ++ [g] ∧ Grouped bounds window date gs g st

theorem streamStep_inv (hbounds : ∀ a b, (bounds a).1 = (bounds b).1 → bounds a = bounds b)
    {i : Instrument} {tf : Timeframe} {ticks : List Tick} {st : TimeframeState}
    (h : StreamInv bounds window date i tf ticks st) (t : Tick) :
    StreamInv bounds window date i tf (ticks ++ [t])
      (st.streamStep window date false (bounds t) t) := by
  right
  rcases h with ⟨rfl, rfl⟩ | ⟨gs, g, hgs, hg⟩
  · exact ⟨[], [t], rfl, grouped_first i tf t⟩
  · have hmem : g ∈ groupsBy (fun t => (bounds t).1) ticks := by rw [hgs]; simp
    obtain ⟨a, ha⟩ := List.exists_mem_of_ne_nil g (ne_nil_of_mem_groupsBy hmem)
    by_cases hat : (bounds a).1 = (bounds t).1
    · have hall : ∀ c ∈ g, (bounds c).1 = (bounds t).1 := fun c hc =>
        (key_eq_of_mem_groupsBy hmem c hc a ha).trans hat
      exact ⟨gs, g ++ [t], groupsBy_concat_same hgs hall,
        hg.join fun c hc => hbounds c t (hall c hc)⟩
    · have hall : ∀ c ∈ g, (bounds c).1 ≠ (bounds t).1 := fun c hc e =>
        hat ((key_eq_of_mem_groupsBy hmem a ha c hc).trans e)
      refine ⟨gs ++ [g], [t], ?_, hg.next hall⟩
      rw [groupsBy_concat_new, hgs]
      intro g' hg'
      rw [hgs, List.getLast?_concat, Option.mem_some] at hg'
      exact hg' ▸ hall

/-- The retained intervals and the current one are the last groups. -/
theorem StreamInv.view {i : Instrument} {tf : Timeframe} {ticks : List Tick} {st : TimeframeState}
    (h : StreamInv bounds window date i tf ticks st) :
    ∃ cs, GroupCandles bounds [] (groupsBy (fun t => (bounds t).1) ticks) cs ∧
      st.incomplete.map viewOf ++ (st.partialBucket.map (·.partialView)).toList =
        cs.rtake (window + 1) := by
  rcases h with ⟨rfl, rfl⟩ | ⟨gs, g, hgs, hg⟩
  · exact ⟨[], trivial, by simp [List.rtake]⟩
  · obtain ⟨cs, hcs, hinc⟩ := hg.closed
    obtain ⟨b, hb, hof⟩ := hg.current
    refine ⟨cs ++ [b.partialView], ?_, ?_⟩
    · rw [hgs]
      exact hcs.concat (by simpa using hof.isGroupCandle)
    · rw [hinc, hb, rtake_append_singleton]
      rfl

end Stream

/-! ## The engine over a feed -/

section Feed

/-- A feed of live-session ticks of one instrument on one trading date, each with the session
    context it was classified with. -/
def LiveFeed (i : Instrument) (date : Int) (feed : List (Tick × SessionContext)) : Prop :=
  ∀ f ∈ feed, f.1.instrument = i ∧ f.2.tradingDate = date ∧ f.2.marketState = .liveSession

/-- `update`, tick after tick. -/
def updateAll (e : CandleEngine) (feed : List (Tick × SessionContext)) : CandleEngine :=
  feed.foldl (fun e f => e.update f.1 f.2) e

/-- Bucket bounds of a tick at one timeframe. -/
def boundsAt (e : CandleEngine) (date : Int) (tf : Timeframe) (t : Tick) : Int × Int × Int :=
  e.bucketBounds t.eventTimestamp date tf

variable {e₀ : CandleEngine} {i : Instrument} {date : Int}

/-- The engine after a feed: no taint, and every registered stream grouped. -/
structure FeedInv (e₀ : CandleEngine) (i : Instrument) (date : Int) (ticks : List Tick)
    (e : CandleEngine) : Prop where
  config : CandleEngine.SameConfig e₀ e
  timeframes_eq : e.timeframes = e₀.timeframes
  untainted : e.continuityBroken = ∅
  streams : ∀ tf ∈ e₀.timeframes,
    StreamInv (boundsAt e₀ date tf) e₀.finalizedWindow date i tf ticks (e.stateFor i tf)

theorem update_inv {ticks : List Tick} {e : CandleEngine} (h : FeedInv e₀ i date ticks e)
    {t : Tick} {session : SessionContext} (hi : t.instrument = i)
    (hdate : session.tradingDate = date) (hlive : session.marketState = .liveSession) :
    FeedInv e₀ i date (ticks ++ [t]) (e.update t session) := by
  obtain ⟨hconfig, htfs⟩ := CandleEngine.update_config e t session
  have hsteady : CandleEngine.Steady e t.instrument session.tradingDate e.timeframes := by
    left
    rw [h.untainted]
    simp
  obtain ⟨hbroken, hget⟩ :=
    CandleEngine.foldl_updateTimeframe_get e.timeframes e.timeframes_nodup e hsteady
  rw [CandleEngine.update, if_pos hlive] at hconfig htfs ⊢
  refine ⟨h.config.trans hconfig, htfs.trans h.timeframes_eq, hbroken.trans h.untainted, ?_⟩
  intro tf htf
  have hstep : StreamInv (boundsAt e₀ date tf) e₀.finalizedWindow date i tf (ticks ++ [t])
      ((e.stateFor i tf).streamStep e₀.finalizedWindow date false (boundsAt e₀ date tf t) t) :=
    streamStep_inv (fun _ _ h => bucketBounds_eq_of_index_eq h) (h.streams tf htf) t
  have hmem : tf ∈ e.timeframes := by rw [h.timeframes_eq]; exact htf
  rw [CandleEngine.stateFor, hget (i, tf), if_pos ⟨hi.symm, hmem⟩, Option.getD_some,
    h.config.finalizedWindow, h.config.bucketBounds_eq, h.untainted, hdate]
  simp only [Finset.notMem_empty, decide_false]
  exact hstep

theorem updateAll_inv (h : FeedInv e₀ i date [] e₀) {feed : List (Tick × SessionContext)}
    (hfeed : LiveFeed i date feed) :
    FeedInv e₀ i date (feed.map (·.1)) (updateAll e₀ feed) := by
  induction feed using List.reverseRecOn with
  | nil => exact h
  | append_singleton feed f ih =>
    have hf := hfeed f (by simp)
    rw [List.map_append, updateAll, List.foldl_append]
    exact update_inv (ih fun g hg => hfeed g (by simp [hg])) hf.1 hf.2.1 hf.2.2

/-- A new engine has empty streams and no taint. -/
theorem create_inv {schedule : SessionSchedule} {timezone : ZoneInfo} {timeframes : List Timeframe}
    {window : ℕ} (h : CandleEngine.create schedule timezone timeframes window = some e₀) :
    e₀.finalizedWindow = window ∧ e₀.timezone = timezone ∧ e₀.schedule = schedule ∧
      e₀.timeframes = CandleEngine.ordered timeframes ∧ FeedInv e₀ i date [] e₀ := by
  unfold CandleEngine.create at h
  split at h
  · split at h
    · cases h
      exact ⟨rfl, rfl, rfl, rfl, ⟨CandleEngine.SameConfig.refl _, rfl, rfl,
        fun tf _ => Or.inl ⟨rfl, rfl⟩⟩⟩
    · cases h
  · cases h

theorem mem_candleSetsFor {e : CandleEngine} {s : TimeframeCandles} (h : s ∈ e.candleSetsFor i) :
    s.timeframe ∈ e.timeframes ∧ s.incomplete = (e.stateFor i s.timeframe).incomplete ∧
      s.partialCandle = (e.stateFor i s.timeframe).partialBucket.map (·.partialView) := by
  obtain ⟨tf, htf, rfl⟩ := List.mem_map.mp h
  refine ⟨htf, ?_⟩
  cases hs : e.states.get (i, tf) <;> simp [CandleEngine.stateFor, hs]

/-- **Live aggregation equals grouping by bucket index.**  After any feed of live-session ticks of
    one instrument on one date, the retained intervals of every registered timeframe followed by
    the partial one are the last `finalized_window + 1` candles of the ticks' groups.  The groups
    are maximal runs of one index; where the wall clock does not go back their indices strictly
    increase, so that a group is all the ticks of its bucket. -/
theorem live_aggregation_is_grouping {schedule : SessionSchedule} {timezone : ZoneInfo}
    {timeframes : List Timeframe} {window : ℕ}
    (hcreate : CandleEngine.create schedule timezone timeframes window = some e₀)
    {feed : List (Tick × SessionContext)} (hfeed : LiveFeed i date feed) :
    ((updateAll e₀ feed).candleSetsFor i).map (·.timeframe) = CandleEngine.ordered timeframes ∧
      ∀ s ∈ (updateAll e₀ feed).candleSetsFor i,
        let bounds := fun t : Tick =>
          bucketBounds t.eventTimestamp date s.timeframe schedule.bounds timezone
        let groups := groupsBy (fun t => (bounds t).1) (feed.map (·.1))
        (∃ cs, GroupCandles bounds [] groups cs ∧
          s.incomplete.map viewOf ++ s.partialCandle.toList = cs.rtake (window + 1)) ∧
        ((feed.map (·.1)).Pairwise (fun a b =>
            timezone.toLocal a.eventTimestamp ≤ timezone.toLocal b.eventTimestamp) →
          groups.Pairwise fun g g' => ∀ a ∈ g, ∀ b ∈ g', (bounds a).1 < (bounds b).1) := by
  obtain ⟨hwindow, hzone, hschedule, htfs, h₀⟩ := create_inv hcreate
  have hinv : FeedInv e₀ i date (feed.map (·.1)) (updateAll e₀ feed) := updateAll_inv h₀ hfeed
  refine ⟨?_, ?_⟩
  · rw [← htfs, ← hinv.timeframes_eq]
    simp [CandleEngine.candleSetsFor, Function.comp_def]
  · intro s hs
    obtain ⟨htf, hinc, hpartial⟩ := mem_candleSetsFor hs
    have hbounds : (fun t : Tick =>
        bucketBounds t.eventTimestamp date s.timeframe schedule.bounds timezone) =
        boundsAt e₀ date s.timeframe := by
      rw [← hschedule, ← hzone]
      rfl
    rw [hinv.timeframes_eq] at htf
    have hview := (hinv.streams s.timeframe htf).view
    rw [hinc, hpartial, hbounds, ← hwindow]
    refine ⟨hview, fun hclock => groupsBy_increasing (hclock.imp fun {a b} hab => ?_)⟩
    rw [← hzone] at hab
    exact bucketBounds_index_mono hab

/-- Three ticks in two five-minute buckets. -/
def sampleFeed : List (Tick × SessionContext) :=
  [sampleTick 555 (rupees 100), sampleTick 556 (rupees 101), sampleTick 561 (rupees 99)]

theorem live_aggregation_sample :
    ∃ e₀, CandleEngine.create nseSchedule kolkata [Timeframe.minutes 5 (by decide)] 1 = some e₀ ∧
      LiveFeed reliance 20000 sampleFeed ∧
      ∀ s ∈ (updateAll e₀ sampleFeed).candleSetsFor reliance, ∃ cs,
        GroupCandles
          (fun t => bucketBounds t.eventTimestamp 20000 s.timeframe nseSchedule.bounds kolkata) []
          (groupsBy (fun t : Tick =>
            (bucketBounds t.eventTimestamp 20000 s.timeframe nseSchedule.bounds kolkata).1)
            (sampleFeed.map (·.1))) cs ∧
        s.incomplete.map viewOf ++ s.partialCandle.toList = cs.rtake 2 := by
  have hfeed : LiveFeed reliance 20000 sampleFeed := by
    simp [LiveFeed, sampleFeed, sampleTick]
  refine ⟨_, rfl, hfeed, fun s hs => ?_⟩
  have hcreate : CandleEngine.create nseSchedule kolkata [Timeframe.minutes 5 (by decide)] 1 =
      some _ := rfl
  exact ((live_aggregation_is_grouping hcreate hfeed).2 s hs).1

end Feed

end ApexScan.LiveGrouping
