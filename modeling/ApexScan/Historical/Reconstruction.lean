import ApexScan.Engine.BucketTiling
import ApexScan.Historical.Resampling
import Mathlib.Tactic.Ring

/-!
# Which buckets a reconstruction emits

`reconstruct_series` groups the source candles of a date by the index of their bucket and emits a
bucket whose group tiles it.  The index arithmetic does not know that the last bucket of a live
interval is cut off at the interval's end, so candles that start just after that end, inside the
untruncated span of the bucket, join its group.

* `IsBucket`, `Eligible` — the live-interval buckets of a date, and the dates that are reconstructed.
* `within`, `Tiled`, `Summary` — the candles that start in a bucket, that they tile it, and the candle
  they add up to.
* `ExactReconstruction` — exactly the tiled buckets are emitted, with their summaries, in order.
* `NoOverhang` — no tiled bucket is followed by a candle inside its untruncated span.

Main result: `reconstruction_exact_iff`, in a timezone with a fixed offset.  `late_candle_withholds` is a
tiled bucket that is not emitted.
-/

set_option autoImplicit false

namespace ApexScan.Reconstruction

/-! ## What is to be emitted -/

section Statement

variable (z : ZoneInfo) (width : Int) (effective : EffectiveSchedule) (calendar : TradingCalendar)

/-- `[s, e)` is a bucket of the live interval on date `d`: `width` long, and cut off at the end. -/
def IsBucket (d : Int) (interval : TradingInterval) (s e : Int) : Prop :=
  ∃ k : ℕ, combine d interval.start + k * width < combine d interval.stop ∧
    s = z.toUtc (combine d interval.start + k * width) ∧
    e = z.toUtc (min (combine d interval.start + k * width + width) (combine d interval.stop))

/-- A trading date, and no open session without an override. -/
def Eligible (d : Int) : Prop :=
  calendar.isTradingDay d = true ∧ (d ∈ calendar.openSessions → effective.hasOverride d = true)

/-- The candles that start in `[s, e)`. -/
def within (candles : List Candle) (s e : Int) : List Candle :=
  candles.filter fun c => s ≤ c.startTimestamp ∧ c.startTimestamp < e

/-- The candles follow each other without gaps from `s` to `e`. -/
def Tiled (s e : Int) (candles : List Candle) : Prop :=
  candles.head?.map (·.startTimestamp) = some s ∧ candles.getLast?.map (·.endTimestamp) = some e ∧
    candles.IsChain fun a b => a.endTimestamp = b.startTimestamp

/-- The candle has the open of the first, the close of the last, the highest high, the lowest low and
    the summed quantity of the candles. -/
structure Summary (candles : List Candle) (c : Candle) : Prop where
  openPrice : candles.head?.map (·.openPrice) = some c.openPrice
  closePrice : candles.getLast?.map (·.closePrice) = some c.closePrice
  highPrice : (∃ x ∈ candles, x.highPrice = c.highPrice) ∧ ∀ x ∈ candles, x.highPrice ≤ c.highPrice
  lowPrice : (∃ x ∈ candles, x.lowPrice = c.lowPrice) ∧ ∀ x ∈ candles, c.lowPrice ≤ x.lowPrice
  quantity : c.tradedQuantity = (candles.map (·.tradedQuantity)).sum

/-- The reconstruction returns, emits exactly the tiled buckets of the live intervals of eligible dates,
    each as the summary of its candles, in chronological order without overlap. -/
def ExactReconstruction (source : HistoricalSeries) (target : Timeframe) : Prop :=
  ∃ out, reconstructSeries source target effective calendar z = some out ∧
    (∀ d interval s e, Eligible effective calendar d → interval ∈ effective.intervalsFor d →
      IsBucket z width d interval s e →
      ((∃ c ∈ out.elim [] (·.candles), c.startTimestamp = s ∧ c.endTimestamp = e) ↔
        Tiled s e (within source.candles s e))) ∧
    (∀ c ∈ out.elim [] (·.candles), ∃ d interval, Eligible effective calendar d ∧
      interval ∈ effective.intervalsFor d ∧
      IsBucket z width d interval c.startTimestamp c.endTimestamp ∧
      Summary (within source.candles c.startTimestamp c.endTimestamp) c) ∧
    (out.elim [] (·.candles)).Pairwise fun a b => a.endTimestamp ≤ b.startTimestamp

/-- No source candle of the date starts after the end of a tiled bucket and within its untruncated
    span. -/
def NoOverhang (source : HistoricalSeries) : Prop :=
  ∀ d interval s e, Eligible effective calendar d → interval ∈ effective.intervalsFor d →
    IsBucket z width d interval s e → Tiled s e (within source.candles s e) →
    ∀ c ∈ source.candles, wallDate (z.toLocal c.startTimestamp) = d →
      ¬ (e ≤ c.startTimestamp ∧ c.startTimestamp < s + width)

end Statement

/-! ## Chronological candles -/

/-- The first candle ends before the second starts. -/
def Precedes (a b : Candle) : Prop := a.endTimestamp ≤ b.startTimestamp

instance : IsTrans Candle Precedes where
  trans a b c hab hbc := by
    have := b.start_lt_end
    unfold Precedes at *
    omega

/-- The candles of a series are in chronological order. -/
theorem series_precedes (s : HistoricalSeries) : s.candles.Pairwise Precedes := by
  rw [← List.isChain_iff_pairwise]
  refine s.separate.imp ?_
  intro a b h
  exact not_lt.mp h.2

theorem Precedes.start_le {a b : Candle} (h : Precedes a b) : a.startTimestamp ≤ b.startTimestamp := by
  have := a.start_lt_end
  unfold Precedes at h
  omega

/-- The last of chronological candles starts last. -/
theorem start_le_getLast {candles : List Candle} (h : candles.Pairwise Precedes) {c : Candle}
    (hc : c ∈ candles) :
    c.startTimestamp ≤ (candles.getLast (List.ne_nil_of_mem hc)).startTimestamp := by
  have hne := List.ne_nil_of_mem hc
  have hsplit := List.dropLast_append_getLast hne
  rw [← hsplit] at h hc
  rcases List.mem_append.mp hc with hc | hc
  · exact ((List.pairwise_append.mp h).2.2 c hc _ (List.mem_singleton.mpr rfl)).start_le
  · exact (congrArg Candle.startTimestamp (List.mem_singleton.mp hc)).le

/-- Sorting by start leaves chronological candles as they are. -/
theorem sortedByStart_eq {candles : List Candle} (h : candles.Pairwise Precedes) :
    sortedByStart candles = candles :=
  List.Pairwise.insertionSort_eq (h.imp Precedes.start_le)

/-- On candles of the source width `_contiguous_and_sized` is contiguity. -/
theorem contiguousAndSized_iff {width : Int} (close : Int) {candles : List Candle}
    (hwidth : ∀ c ∈ candles, c.endTimestamp - c.startTimestamp = width) :
    contiguousAndSized width close candles = true ↔
      candles.IsChain fun a b => a.endTimestamp = b.startTimestamp := by
  induction candles with
  | nil => simp [contiguousAndSized]
  | cons c candles ih =>
    have hc := hwidth c List.mem_cons_self
    have hrest := ih fun x hx => hwidth x (List.mem_cons_of_mem _ hx)
    cases candles with
    | nil => simp [contiguousAndSized, hc]
    | cons next rest =>
      rw [List.isChain_cons_cons, ← hrest]
      rw [contiguousAndSized]
      simp only [hc, beq_self_eq_true, Bool.true_or, Bool.true_and, Bool.and_eq_true, beq_iff_eq]
      exact and_congr_left fun _ => eq_comm

theorem highest_mem (first : Candle) (rest : List Candle) :
    ∃ x ∈ first :: rest, x.highPrice = highest first rest := by
  unfold highest
  suffices h : ∀ price : Price, rest.foldl (fun price c => max price c.highPrice) price = price ∨
      ∃ x ∈ rest, x.highPrice = rest.foldl (fun price c => max price c.highPrice) price by
    rcases h first.highPrice with h | ⟨x, hx, h⟩
    · exact ⟨first, List.mem_cons_self, h.symm⟩
    · exact ⟨x, List.mem_cons_of_mem _ hx, h⟩
  induction rest with
  | nil => exact fun price => Or.inl rfl
  | cons c rest ih =>
    intro price
    rcases ih (max price c.highPrice) with h | ⟨x, hx, h⟩
    · rw [List.foldl_cons, h]
      rcases max_choice price c.highPrice with hmax | hmax
      · exact Or.inl hmax
      · exact Or.inr ⟨c, List.mem_cons_self, hmax.symm⟩
    · exact Or.inr ⟨x, List.mem_cons_of_mem _ hx, h⟩

theorem lowest_mem (first : Candle) (rest : List Candle) :
    ∃ x ∈ first :: rest, x.lowPrice = lowest first rest := by
  unfold lowest
  suffices h : ∀ price : Price, rest.foldl (fun price c => min price c.lowPrice) price = price ∨
      ∃ x ∈ rest, x.lowPrice = rest.foldl (fun price c => min price c.lowPrice) price by
    rcases h first.lowPrice with h | ⟨x, hx, h⟩
    · exact ⟨first, List.mem_cons_self, h.symm⟩
    · exact ⟨x, List.mem_cons_of_mem _ hx, h⟩
  induction rest with
  | nil => exact fun price => Or.inl rfl
  | cons c rest ih =>
    intro price
    rcases ih (min price c.lowPrice) with h | ⟨x, hx, h⟩
    · rw [List.foldl_cons, h]
      rcases min_choice price c.lowPrice with hmin | hmin
      · exact Or.inl hmin
      · exact Or.inr ⟨c, List.mem_cons_self, hmin.symm⟩
    · exact Or.inr ⟨x, List.mem_cons_of_mem _ hx, h⟩

/-- The aggregate of a run is its summary. -/
theorem aggregate_summary (first : Candle) (rest : List Candle) (s e : Int) (h : s < e) :
    Summary (first :: rest) (aggregate first rest s e h) := by
  refine ⟨rfl, ?_, ⟨highest_mem first rest, fun x hx => le_highest hx⟩,
    ⟨lowest_mem first rest, fun x hx => lowest_le hx⟩, rfl⟩
  rw [List.getLast?_eq_some_getLast (List.cons_ne_nil _ _)]
  rfl

theorem Tiled.lt {s e : Int} {candles : List Candle} (h : Tiled s e candles)
    (hsorted : candles.Pairwise Precedes) : s < e := by
  obtain ⟨hfirst, hlast, -⟩ := h
  cases candles with
  | nil => cases hfirst
  | cons first rest =>
    rw [List.getLast?_eq_some_getLast (List.cons_ne_nil _ _), Option.map_some, Option.some.injEq]
      at hlast
    have hs : first.startTimestamp = s := Option.some.inj hfirst
    have hle : first.startTimestamp ≤
        ((first :: rest).getLast (List.cons_ne_nil _ _)).startTimestamp :=
      start_le_getLast hsorted List.mem_cons_self
    have := ((first :: rest).getLast (List.cons_ne_nil _ _)).start_lt_end
    omega

section Prove

variable {candles : List Candle} {width : Int}

/-- `_prove_and_aggregate` on chronological candles of the source width. -/
theorem proveAndAggregate_eq (s e close : Int) (hsorted : candles.Pairwise Precedes)
    (hwidth : ∀ c ∈ candles, c.endTimestamp - c.startTimestamp = width) :
    (Tiled s e candles ∧ ∃ c, proveAndAggregate candles s e width close = some c ∧
      c.startTimestamp = s ∧ c.endTimestamp = e ∧ Summary candles c ∧
      ∃ x ∈ candles, c.instrument = x.instrument) ∨
    (¬ Tiled s e candles ∧ proveAndAggregate candles s e width close = none) := by
  unfold proveAndAggregate
  rw [sortedByStart_eq hsorted]
  cases candles with
  | nil =>
    right
    refine ⟨?_, rfl⟩
    rintro ⟨hfirst, -⟩
    cases hfirst
  | cons first rest =>
    have hlast : ((first :: rest).getLast?).map (·.endTimestamp) =
        some ((first :: rest).getLast (List.cons_ne_nil _ _)).endTimestamp := by
      rw [List.getLast?_eq_some_getLast (List.cons_ne_nil _ _)]
      rfl
    simp only
    by_cases hends : first.startTimestamp ≠ s ∨
        ((first :: rest).getLast (List.cons_ne_nil _ _)).endTimestamp ≠ e
    · right
      refine ⟨?_, if_pos hends⟩
      rintro ⟨hs, he, -⟩
      rw [hlast] at he
      rcases hends with hends | hends
      · exact hends (Option.some.inj hs)
      · exact hends (Option.some.inj he)
    · rw [if_neg hends]
      push Not at hends
      have hchain := contiguousAndSized_iff close hwidth
      by_cases hcontiguous : contiguousAndSized width close (first :: rest) = false
      · right
        refine ⟨?_, if_pos hcontiguous⟩
        rintro ⟨-, -, htiled⟩
        rw [hchain.mpr htiled] at hcontiguous
        cases hcontiguous
      · left
        rw [Bool.not_eq_false] at hcontiguous
        have htiled : Tiled s e (first :: rest) :=
          ⟨congrArg some hends.1, hlast.trans (congrArg some hends.2), hchain.mp hcontiguous⟩
        have hlt := htiled.lt hsorted
        refine ⟨htiled, _, ?_, rfl, rfl, aggregate_summary first rest s e hlt,
          first, List.mem_cons_self, rfl⟩
        rw [if_neg (by rw [hcontiguous]; decide), dif_pos hlt]

end Prove

/-! ## Groups -/

section Groups

variable {offset : Int} {hoff : -day < offset ∧ offset < day} {width d s e : Int}
  {interval : TradingInterval} {candles : List Candle}

/-- The candles of the date that share the index of a bucket: those that start within its untruncated
    span. -/
def group (z : ZoneInfo) (candles : List Candle) (d s width : Int) : List Candle :=
  candles.filter fun c => wallDate (z.toLocal c.startTimestamp) = d ∧
    s ≤ c.startTimestamp ∧ c.startTimestamp < s + width

/-- Grouping by index is grouping by the untruncated span. -/
theorem filter_index_eq_group (pos : 0 < width) (candles : List Candle) (d : Int)
    (interval : TradingInterval) (k : ℕ) :
    (candles.filter fun c =>
        wallDate ((ZoneInfo.fixed offset hoff).toLocal c.startTimestamp) = d).filter
      (fun c => (bucketBounds c.startTimestamp d (.intraday width pos) interval
        (ZoneInfo.fixed offset hoff)).1 = k) =
    group (ZoneInfo.fixed offset hoff) candles d
      ((ZoneInfo.fixed offset hoff).toUtc (combine d interval.start + k * width)) width := by
  unfold group
  rw [List.filter_filter]
  refine List.filter_congr ?_
  intro c _
  rw [Bool.and_comm, ← Bool.decide_and, decide_eq_decide]
  refine and_congr_right fun _ => ?_
  show (c.startTimestamp + offset - combine d interval.start) / width = (k : Int) ↔
    combine d interval.start + k * width - offset ≤ c.startTimestamp ∧
      c.startTimestamp < combine d interval.start + k * width - offset + width
  constructor
  · intro h
    have hdiv := Int.mul_ediv_add_emod (c.startTimestamp + offset - combine d interval.start) width
    have hnonneg := Int.emod_nonneg (c.startTimestamp + offset - combine d interval.start) pos.ne'
    have hlt := Int.emod_lt_of_pos (c.startTimestamp + offset - combine d interval.start) pos
    rw [h, Int.mul_comm] at hdiv
    omega
  · rintro ⟨hle, hlt⟩
    rw [Int.ediv_eq_iff_of_pos pos]
    constructor <;> omega

/-- Times of a bucket are of its date. -/
theorem bucket_date (hbucket : IsBucket (ZoneInfo.fixed offset hoff) width d interval s e)
    (pos : 0 < width) {t : Int} (hs : s ≤ t) (he : t < e) :
    wallDate ((ZoneInfo.fixed offset hoff).toLocal t) = d := by
  obtain ⟨k, hlt, rfl, rfl⟩ := hbucket
  have hnonneg := Int.mul_nonneg (Int.natCast_nonneg k) pos.le
  have hopen := interval.nonneg
  have hclose := interval.stop_lt
  have hs' : combine d interval.start + k * width - offset ≤ t := hs
  have he' : t < min (combine d interval.start + k * width + width) (combine d interval.stop) -
      offset := he
  show (t + offset) / day = d
  unfold combine at hs' he'
  rw [Int.ediv_eq_iff_of_pos day_pos]
  constructor <;> omega

theorem bucket_bounds (hbucket : IsBucket (ZoneInfo.fixed offset hoff) width d interval s e)
    (pos : 0 < width) : s < e ∧ e ≤ s + width := by
  obtain ⟨k, hlt, rfl, rfl⟩ := hbucket
  show combine d interval.start + k * width - offset <
      min (combine d interval.start + k * width + width) (combine d interval.stop) - offset ∧
    min (combine d interval.start + k * width + width) (combine d interval.stop) - offset ≤
      combine d interval.start + k * width - offset + width
  omega

/-- Without candles beyond the end a group is what starts in the bucket. -/
theorem group_eq_within (hbucket : IsBucket (ZoneInfo.fixed offset hoff) width d interval s e)
    (pos : 0 < width) (hover : ∀ c ∈ candles,
      wallDate ((ZoneInfo.fixed offset hoff).toLocal c.startTimestamp) = d →
      ¬ (e ≤ c.startTimestamp ∧ c.startTimestamp < s + width)) :
    group (ZoneInfo.fixed offset hoff) candles d s width = within candles s e := by
  obtain ⟨hlt, hle⟩ := bucket_bounds hbucket pos
  unfold group within
  refine List.filter_congr ?_
  intro c hc
  rw [decide_eq_decide]
  constructor
  · rintro ⟨hdate, hs, hspan⟩
    refine ⟨hs, ?_⟩
    by_contra hge
    exact hover c hc hdate ⟨by omega, hspan⟩
  · rintro ⟨hs, he⟩
    exact ⟨bucket_date hbucket pos hs he, hs, by omega⟩

/-- **A group tiles its bucket exactly when the candles of the bucket do and none overhangs it.** -/
theorem tiled_group_iff (hbucket : IsBucket (ZoneInfo.fixed offset hoff) width d interval s e)
    (pos : 0 < width) (hsorted : candles.Pairwise Precedes) :
    Tiled s e (group (ZoneInfo.fixed offset hoff) candles d s width) ↔
      Tiled s e (within candles s e) ∧ ∀ c ∈ candles,
        wallDate ((ZoneInfo.fixed offset hoff).toLocal c.startTimestamp) = d →
        ¬ (e ≤ c.startTimestamp ∧ c.startTimestamp < s + width) := by
  obtain ⟨hlt, hle⟩ := bucket_bounds hbucket pos
  have hmem : ∀ c, c ∈ group (ZoneInfo.fixed offset hoff) candles d s width ↔ c ∈ candles ∧
      wallDate ((ZoneInfo.fixed offset hoff).toLocal c.startTimestamp) = d ∧
      s ≤ c.startTimestamp ∧ c.startTimestamp < s + width := by
    intro c
    unfold group
    rw [List.mem_filter, decide_eq_true_eq]
  constructor
  · intro htiled
    have hend : ∀ c ∈ group (ZoneInfo.fixed offset hoff) candles d s width, c.startTimestamp < e := by
      intro c hc
      have hne := List.ne_nil_of_mem hc
      have hlast := htiled.2.1
      rw [List.getLast?_eq_some_getLast hne, Option.map_some, Option.some.injEq] at hlast
      have hbefore : c.startTimestamp ≤ (List.getLast _ hne).startTimestamp :=
        start_le_getLast (hsorted.sublist List.filter_sublist) hc
      have := (List.getLast _ hne).start_lt_end
      omega
    have hover : ∀ c ∈ candles,
        wallDate ((ZoneInfo.fixed offset hoff).toLocal c.startTimestamp) = d →
        ¬ (e ≤ c.startTimestamp ∧ c.startTimestamp < s + width) := by
      rintro c hc hdate ⟨hafter, hspan⟩
      have := hend c ((hmem c).mpr ⟨hc, hdate, by omega, hspan⟩)
      omega
    exact ⟨group_eq_within hbucket pos hover ▸ htiled, hover⟩
  · rintro ⟨htiled, hover⟩
    rw [group_eq_within hbucket pos hover]
    exact htiled

end Groups

/-! ## What is emitted -/

section Emitted

variable {offset : Int} {hoff : -day < offset ∧ offset < day} {width : Int} {pos : 0 < width}
  {effective : EffectiveSchedule} {calendar : TradingCalendar} {source : HistoricalSeries}
  {sourceDuration : Int}

theorem mem_tradingDates {z : ZoneInfo} {candles : List Candle} {d : Int} :
    d ∈ tradingDates z candles ↔ ∃ c ∈ candles, wallDate (z.toLocal c.startTimestamp) = d := by
  unfold tradingDates
  rw [List.mem_insertionSort, List.mem_dedup, List.mem_map]

/-- The emitted candles are those of the eligible dates' buckets whose groups are proven. -/
theorem mem_reconstructCandles {c : Candle} :
    c ∈ reconstructCandles source sourceDuration (.intraday width pos) effective calendar
        (ZoneInfo.fixed offset hoff) ↔
      ∃ d interval s e, d ∈ tradingDates (ZoneInfo.fixed offset hoff) source.candles ∧
        Eligible effective calendar d ∧ interval ∈ effective.intervalsFor d ∧
        IsBucket (ZoneInfo.fixed offset hoff) width d interval s e ∧
        proveAndAggregate (group (ZoneInfo.fixed offset hoff) source.candles d s width) s e
          sourceDuration ((ZoneInfo.fixed offset hoff).toUtc (combine d interval.stop)) = some c := by
  unfold reconstructCandles
  rw [List.mem_flatMap]
  refine exists_congr fun d => ?_
  have heligible : (c ∈ if calendar.isTradingDay d = false then []
      else if d ∈ calendar.openSessions ∧ effective.hasOverride d = false then []
      else (effective.intervalsFor d).flatMap fun interval =>
        reconstructInterval d (source.candles.filter fun c =>
          wallDate ((ZoneInfo.fixed offset hoff).toLocal c.startTimestamp) = d)
          (.intraday width pos) sourceDuration interval (ZoneInfo.fixed offset hoff)) ↔
      Eligible effective calendar d ∧ ∃ interval ∈ effective.intervalsFor d,
        c ∈ reconstructInterval d (source.candles.filter fun c =>
          wallDate ((ZoneInfo.fixed offset hoff).toLocal c.startTimestamp) = d)
          (.intraday width pos) sourceDuration interval (ZoneInfo.fixed offset hoff) := by
    unfold Eligible
    split
    · rename_i hday
      simp [hday]
    · rename_i hday
      split
      · rename_i hopen
        simp [hopen.1, hopen.2]
      · rename_i hopen
        rw [List.mem_flatMap]
        refine (and_iff_right ⟨by simpa using hday, fun hmem => ?_⟩).symm
        by_contra hover
        exact hopen ⟨hmem, by simpa using hover⟩
  rw [heligible]
  constructor
  · rintro ⟨hdate, helig, interval, hinterval, hc⟩
    unfold reconstructInterval at hc
    rw [List.mem_filterMap] at hc
    obtain ⟨⟨index, s, e⟩, hmem, hc⟩ := hc
    obtain ⟨k, rfl, hlt, rfl, rfl⟩ := mem_sessionBuckets.mp hmem
    simp only [filter_index_eq_group] at hc
    exact ⟨interval, _, _, hdate, helig, hinterval, ⟨k, hlt, rfl, rfl⟩, hc⟩
  · rintro ⟨interval, s, e, hdate, helig, hinterval, ⟨k, hlt, rfl, rfl⟩, hc⟩
    refine ⟨hdate, helig, interval, hinterval, ?_⟩
    unfold reconstructInterval
    rw [List.mem_filterMap]
    refine ⟨_, mem_sessionBuckets.mpr ⟨k, rfl, hlt, rfl, rfl⟩, ?_⟩
    simp only [filter_index_eq_group]
    exact hc

theorem Tiled.exists_mem {s e : Int} {candles : List Candle} (h : Tiled s e candles) :
    ∃ c, c ∈ candles := by
  cases candles with
  | nil => cases h.1
  | cons c rest => exact ⟨c, List.mem_cons_self⟩

theorem group_width {z : ZoneInfo} {d s : Int}
    (hwidth : ∀ c ∈ source.candles, c.endTimestamp - c.startTimestamp = sourceDuration) :
    ∀ c ∈ group z source.candles d s width, c.endTimestamp - c.startTimestamp = sourceDuration :=
  fun c hc => hwidth c (List.mem_filter.mp hc).1

theorem group_precedes (source : HistoricalSeries) (z : ZoneInfo) (d s width : Int) :
    (group z source.candles d s width).Pairwise Precedes :=
  (series_precedes source).sublist List.filter_sublist

/-- An emitted candle is the summary of the candles of its bucket. -/
theorem emitted_spec (pos : 0 < width)
    (hwidth : ∀ c ∈ source.candles, c.endTimestamp - c.startTimestamp = sourceDuration)
    {d close : Int} {interval : TradingInterval} {s e : Int} {c : Candle}
    (hbucket : IsBucket (ZoneInfo.fixed offset hoff) width d interval s e)
    (hc : proveAndAggregate (group (ZoneInfo.fixed offset hoff) source.candles d s width) s e
      sourceDuration close = some c) :
    c.startTimestamp = s ∧ c.endTimestamp = e ∧ Summary (within source.candles s e) c ∧
      (∃ x ∈ source.candles, c.instrument = x.instrument) ∧
      Tiled s e (within source.candles s e) ∧
      ∀ c ∈ source.candles, wallDate ((ZoneInfo.fixed offset hoff).toLocal c.startTimestamp) = d →
        ¬ (e ≤ c.startTimestamp ∧ c.startTimestamp < s + width) := by
  have hsorted := group_precedes source (ZoneInfo.fixed offset hoff) d s width
  rcases proveAndAggregate_eq s e close hsorted (group_width hwidth) with
    ⟨htiled, c', hc', hs, he, hsummary, x, hx, hinstrument⟩ | ⟨-, hnone⟩
  · obtain rfl : c' = c := Option.some.inj (hc'.symm.trans hc)
    obtain ⟨hwithin, hover⟩ := (tiled_group_iff hbucket pos (series_precedes source)).mp htiled
    have hgroup : group (ZoneInfo.fixed offset hoff) source.candles d s width =
        within source.candles s e := group_eq_within hbucket pos hover
    rw [hgroup] at hsummary
    exact ⟨hs, he, hsummary, ⟨x, (List.mem_filter.mp hx).1, hinstrument⟩, hwithin, hover⟩
  · rw [hnone] at hc
    cases hc

/-- **A bucket is emitted exactly when its candles tile it and none overhangs it.** -/
theorem bucket_emitted_iff
    (hwidth : ∀ c ∈ source.candles, c.endTimestamp - c.startTimestamp = sourceDuration)
    {d : Int} {interval : TradingInterval} {s e : Int} (helig : Eligible effective calendar d)
    (hinterval : interval ∈ effective.intervalsFor d)
    (hbucket : IsBucket (ZoneInfo.fixed offset hoff) width d interval s e) :
    (∃ c ∈ reconstructCandles source sourceDuration (.intraday width pos) effective calendar
        (ZoneInfo.fixed offset hoff), c.startTimestamp = s ∧ c.endTimestamp = e) ↔
      Tiled s e (within source.candles s e) ∧ ∀ c ∈ source.candles,
        wallDate ((ZoneInfo.fixed offset hoff).toLocal c.startTimestamp) = d →
        ¬ (e ≤ c.startTimestamp ∧ c.startTimestamp < s + width) := by
  obtain ⟨hlt, -⟩ := bucket_bounds hbucket pos
  constructor
  · rintro ⟨c, hc, hs, he⟩
    obtain ⟨d', interval', s', e', -, -, -, hbucket', hc⟩ := mem_reconstructCandles.mp hc
    obtain ⟨hs', he', -, -, htiled, hover⟩ := emitted_spec pos hwidth hbucket' hc
    obtain rfl : s' = s := hs'.symm.trans hs
    obtain rfl : e' = e := he'.symm.trans he
    -- a bucket's start is of one date only
    obtain rfl : d = d' := (bucket_date hbucket pos (le_refl _) hlt).symm.trans
      (bucket_date hbucket' pos (le_refl _) hlt)
    exact ⟨htiled, hover⟩
  · intro h
    have htiled := (tiled_group_iff hbucket pos (series_precedes source)).mpr h
    obtain ⟨x, hx⟩ := htiled.exists_mem
    have hx' := (List.mem_filter.mp hx)
    rcases proveAndAggregate_eq s e
        ((ZoneInfo.fixed offset hoff).toUtc (combine d interval.stop))
        (group_precedes source (ZoneInfo.fixed offset hoff) d s width) (group_width hwidth) with
      ⟨-, c, hc, hs, he, -⟩ | ⟨hnot, -⟩
    · refine ⟨c, mem_reconstructCandles.mpr ⟨d, interval, s, e, ?_, helig, hinterval, hbucket, hc⟩,
        hs, he⟩
      rw [mem_tradingDates]
      exact ⟨x, hx'.1, (of_decide_eq_true hx'.2).1⟩
    · exact absurd htiled hnot

end Emitted

/-! ## The order of what is emitted -/

theorem intervalsFor_pairwise (effective : EffectiveSchedule) (d : Int) :
    (effective.intervalsFor d).Pairwise fun a b => a.stop < b.start := by
  unfold EffectiveSchedule.intervalsFor
  split
  · rename_i o _
    exact gapped_pairwise o.gapped
  · exact List.pairwise_singleton _ _

theorem tradingDates_pairwise (z : ZoneInfo) (candles : List Candle) :
    (tradingDates z candles).Pairwise (· < ·) := by
  unfold tradingDates
  have hle := List.pairwise_insertionSort (· ≤ ·)
    ((candles.map fun c => wallDate (z.toLocal c.startTimestamp)).dedup)
  have hne : (((candles.map fun c => wallDate (z.toLocal c.startTimestamp)).dedup).insertionSort
      (· ≤ ·)).Pairwise (· ≠ ·) :=
    (List.perm_insertionSort _ _).nodup_iff.mpr (List.nodup_dedup _)
  exact (hle.and hne).imp fun h => lt_of_le_of_ne h.1 h.2

theorem proveAndAggregate_bounds {candles : List Candle} {s e width close : Int} {c : Candle}
    (h : proveAndAggregate candles s e width close = some c) :
    c.startTimestamp = s ∧ c.endTimestamp = e := by
  unfold proveAndAggregate at h
  split at h
  · cases h
  · simp only at h
    split at h
    · cases h
    · split at h
      · cases h
      · split at h
        · cases h
          exact ⟨rfl, rfl⟩
        · cases h

section Order

variable {offset : Int} {hoff : -day < offset ∧ offset < day} {width : Int} {pos : 0 < width}
  {sourceDuration d : Int} {dayCandles : List Candle} {interval : TradingInterval}

/-- The buckets of an interval are emitted in order. -/
theorem reconstructInterval_precedes :
    (reconstructInterval d dayCandles (.intraday width pos) sourceDuration interval
      (ZoneInfo.fixed offset hoff)).Pairwise Precedes := by
  unfold reconstructInterval
  rw [List.pairwise_filterMap]
  refine (BucketTiling.sessionBuckets_inOrder pos d interval).imp ?_
  rintro ⟨_, s, e⟩ ⟨_, s', e'⟩ ⟨-, -, hle⟩ c hc c' hc'
  show c.endTimestamp ≤ c'.startTimestamp
  rw [(proveAndAggregate_bounds hc).2, (proveAndAggregate_bounds hc').1]
  exact hle

/-- What an interval emits lies in it. -/
theorem reconstructInterval_bounds {c : Candle}
    (hc : c ∈ reconstructInterval d dayCandles (.intraday width pos) sourceDuration interval
      (ZoneInfo.fixed offset hoff)) :
    combine d interval.start - offset ≤ c.startTimestamp ∧
      c.endTimestamp ≤ combine d interval.stop - offset := by
  unfold reconstructInterval at hc
  rw [List.mem_filterMap] at hc
  obtain ⟨⟨index, s, e⟩, hmem, hc⟩ := hc
  obtain ⟨hs, he⟩ := proveAndAggregate_bounds hc
  obtain ⟨k, -, -, rfl, rfl⟩ := mem_sessionBuckets.mp hmem
  have hnonneg := Int.mul_nonneg (Int.natCast_nonneg k) pos.le
  have hs' : c.startTimestamp = combine d interval.start + k * width - offset := hs
  have he' : c.endTimestamp =
      min (combine d interval.start + k * width + width) (combine d interval.stop) - offset := he
  omega

/-- **Emitted candles are in chronological order without overlap.** -/
theorem reconstructCandles_precedes (source : HistoricalSeries) (sourceDuration : Int)
    (pos : 0 < width) (effective : EffectiveSchedule) (calendar : TradingCalendar) :
    (reconstructCandles source sourceDuration (.intraday width pos) effective calendar
      (ZoneInfo.fixed offset hoff)).Pairwise Precedes := by
  unfold reconstructCandles
  rw [List.pairwise_flatMap]
  refine ⟨?_, ?_⟩
  · intro d _
    split
    · exact List.Pairwise.nil
    · split
      · exact List.Pairwise.nil
      · rw [List.pairwise_flatMap]
        refine ⟨fun _ _ => reconstructInterval_precedes, ?_⟩
        refine (intervalsFor_pairwise effective d).imp ?_
        intro a b hab c hc c' hc'
        have hend := (reconstructInterval_bounds hc).2
        have hstart := (reconstructInterval_bounds hc').1
        show c.endTimestamp ≤ c'.startTimestamp
        unfold combine at hend hstart
        omega
  · refine (tradingDates_pairwise _ _).imp ?_
    intro d d' hlt c hc c' hc'
    have hend : c.endTimestamp ≤ (d + 1) * day - offset := by
      split at hc
      · cases hc
      · split at hc
        · cases hc
        · obtain ⟨interval, -, hc⟩ := List.mem_flatMap.mp hc
          have hbound := (reconstructInterval_bounds hc).2
          have := interval.stop_lt
          unfold combine at hbound
          rw [Int.add_mul]
          omega
    have hstart : d' * day - offset ≤ c'.startTimestamp := by
      split at hc'
      · cases hc'
      · split at hc'
        · cases hc'
        · obtain ⟨interval, -, hc'⟩ := List.mem_flatMap.mp hc'
          have hbound := (reconstructInterval_bounds hc').1
          have := interval.nonneg
          unfold combine at hbound
          omega
    have hdays : (d + 1) * day ≤ d' * day := Int.mul_le_mul_of_nonneg_right (by omega) day_pos.le
    show c.endTimestamp ≤ c'.startTimestamp
    omega

end Order

/-- Chronological candles of one instrument are a series as they are. -/
theorem create_of_precedes {timeframe : Timeframe} {candles : List Candle} (hne : candles ≠ [])
    (hone : ∀ a ∈ candles, ∀ b ∈ candles, a.instrument = b.instrument)
    (hsorted : candles.Pairwise Precedes) :
    ∃ series, HistoricalSeries.create timeframe candles = some series ∧ series.candles = candles := by
  have hordered : sortedByInterval candles = candles := by
    refine List.Pairwise.insertionSort_eq (hsorted.imp ?_)
    intro a b hab
    have := a.start_lt_end
    unfold Precedes at hab
    exact (Prod.Lex.toLex_lt_toLex.mpr (Or.inl (by show a.startTimestamp < _; omega))).le
  have hseparate : candles.IsChain Separate := by
    refine List.Pairwise.isChain (hsorted.imp ?_)
    intro a b hab
    have := a.start_lt_end
    unfold Precedes at hab
    refine ⟨?_, by omega⟩
    rintro ⟨heq, -⟩
    omega
  unfold HistoricalSeries.create
  simp only [hordered]
  rw [dif_pos ⟨hne, hone, hseparate⟩]
  exact ⟨_, rfl, rfl⟩

/-- `reconstruct_series` returns a series of what it emits. -/
theorem reconstructSeries_returns (offset : Int) (hoff : -day < offset ∧ offset < day) {width : Int}
    (pos : 0 < width) (effective : EffectiveSchedule) (calendar : TradingCalendar)
    {source : HistoricalSeries} {sourceDuration : Int}
    (hdiv : dividesExactly (.intraday width pos) source.timeframe = true)
    (hduration : source.timeframe.duration = some sourceDuration)
    (hwidth : ∀ c ∈ source.candles, c.endTimestamp - c.startTimestamp = sourceDuration) :
    ∃ out, reconstructSeries source (.intraday width pos) effective calendar
        (ZoneInfo.fixed offset hoff) = some out ∧
      out.elim [] (·.candles) = reconstructCandles source sourceDuration (.intraday width pos)
        effective calendar (ZoneInfo.fixed offset hoff) := by
  set emitted := reconstructCandles source sourceDuration (.intraday width pos) effective calendar
    (ZoneInfo.fixed offset hoff) with hemitted
  have hunfold : reconstructSeries source (.intraday width pos) effective calendar
      (ZoneInfo.fixed offset hoff) =
      if emitted.isEmpty then some none
      else some <$> HistoricalSeries.create (.intraday width pos) emitted := by
    unfold reconstructSeries
    simp only [hdiv, hduration]
    rfl
  rw [hunfold]
  by_cases hempty : emitted.isEmpty = true
  · refine ⟨none, if_pos hempty, ?_⟩
    rw [List.isEmpty_iff.mp hempty]
    rfl
  · rw [if_neg hempty]
    have hne : emitted ≠ [] := fun h => hempty (List.isEmpty_iff.mpr h)
    have hone : ∀ a ∈ emitted, ∀ b ∈ emitted, a.instrument = b.instrument := by
      have hsource : ∀ a ∈ emitted, ∃ x ∈ source.candles, a.instrument = x.instrument := by
        intro a ha
        obtain ⟨d, interval, s, e, -, -, -, hbucket, ha⟩ := mem_reconstructCandles.mp ha
        exact (emitted_spec pos hwidth hbucket ha).2.2.2.1
      intro a ha b hb
      obtain ⟨x, hx, hax⟩ := hsource a ha
      obtain ⟨y, hy, hby⟩ := hsource b hb
      rw [hax, hby]
      exact source.oneInstrument x hx y hy
    obtain ⟨series, hcreate, hcandles⟩ :=
      create_of_precedes hne hone (reconstructCandles_precedes source _ pos effective calendar)
    exact ⟨some series, by rw [hcreate]; rfl, hcandles⟩

/-- **Reconstruction emits exactly the provable buckets if and only if nothing overhangs one**: for every
    schedule with overrides, calendar, source series with candles of its own width, and target that the
    source divides, in a timezone with a fixed offset. -/
theorem reconstruction_exact_iff (offset : Int) (hoff : -day < offset ∧ offset < day)
    (effective : EffectiveSchedule) (calendar : TradingCalendar) (source : HistoricalSeries)
    (target : Timeframe) (hdiv : dividesExactly target source.timeframe = true)
    (hwidth : ∀ c ∈ source.candles,
      source.timeframe.duration = some (c.endTimestamp - c.startTimestamp)) :
    ExactReconstruction (ZoneInfo.fixed offset hoff) (target.duration.getD 0) effective calendar source
        target ↔
      NoOverhang (ZoneInfo.fixed offset hoff) (target.duration.getD 0) effective calendar source := by
  cases target with
  | session => cases hdiv
  | intraday width pos =>
    show ExactReconstruction (ZoneInfo.fixed offset hoff) width effective calendar source
        (.intraday width pos) ↔
      NoOverhang (ZoneInfo.fixed offset hoff) width effective calendar source
    obtain ⟨sourceDuration, hduration⟩ : ∃ w, source.timeframe.duration = some w := by
      cases hd : source.timeframe.duration with
      | none =>
        unfold dividesExactly at hdiv
        simp [hd] at hdiv
      | some w => exact ⟨w, rfl⟩
    have hsized : ∀ c ∈ source.candles, c.endTimestamp - c.startTimestamp = sourceDuration := by
      intro c hc
      exact Option.some.inj ((hwidth c hc).symm.trans hduration)
    obtain ⟨out, hout, hemitted⟩ :=
      reconstructSeries_returns offset hoff pos effective calendar hdiv hduration hsized
    constructor
    · rintro ⟨out', hout', hiff, -⟩ d interval s e helig hinterval hbucket htiled
      obtain rfl : out = out' := Option.some.inj (hout.symm.trans hout')
      have hin := (hiff d interval s e helig hinterval hbucket).mpr htiled
      rw [hemitted] at hin
      exact ((bucket_emitted_iff hsized helig hinterval hbucket).mp hin).2
    · intro hover
      refine ⟨out, hout, ?_, ?_, ?_⟩
      · intro d interval s e helig hinterval hbucket
        rw [hemitted, bucket_emitted_iff hsized helig hinterval hbucket]
        exact ⟨fun h => h.1, fun h => ⟨h, hover d interval s e helig hinterval hbucket h⟩⟩
      · intro c hc
        rw [hemitted] at hc
        obtain ⟨d, interval, s, e, -, helig, hinterval, hbucket, hc⟩ := mem_reconstructCandles.mp hc
        obtain ⟨hs, he, hsummary, -⟩ := emitted_spec pos hsized hbucket hc
        rw [hs, he]
        exact ⟨d, interval, helig, hinterval, hbucket, hsummary⟩
      · rw [hemitted]
        exact reconstructCandles_precedes source sourceDuration pos effective calendar

/-! ## The last minutes of a session -/

/-- The one-minute candle that starts at a minute of day 20000 in Kolkata. -/
def minuteCandle (wallMinute : Int) : Candle where
  instrument :=
    { exchange := "NSE", symbol := "ABC", exchange_ne := reliance.exchange_ne,
      optional_ne := reliance.optional_ne, contract := reliance.contract }
  startTimestamp := kolkata.toUtc (combine 20000 (wallMinute * minute))
  endTimestamp := kolkata.toUtc (combine 20000 (wallMinute * minute)) + minute
  openPrice := rupees 99
  highPrice := rupees 99
  lowPrice := rupees 99
  closePrice := rupees 99
  tradedQuantity := 5
  start_lt_end := by unfold minute second; omega
  low_le_high := le_refl _
  open_within := ⟨le_refl _, le_refl _⟩
  close_within := ⟨le_refl _, le_refl _⟩

/-- The default schedule without overrides. -/
def nseEffective : EffectiveSchedule := ⟨nseSchedule, [], List.nodup_nil⟩

/-- The one-minute candles from 15:27 to the close at 15:30. -/
def lastMinutes : HistoricalSeries where
  timeframe := .intraday minute (by decide)
  candles := [minuteCandle 927, minuteCandle 928, minuteCandle 929]
  ne_nil := List.cons_ne_nil _ _
  oneInstrument := by decide
  separate := by decide

/-- All of the candles start before the close, where the last bucket is cut off. -/
theorem lastMinutes_noOverhang (calendar : TradingCalendar) :
    NoOverhang kolkata (2 * minute) nseEffective calendar lastMinutes := by
  rintro d interval s e - hinterval ⟨k, -, rfl, rfl⟩ - c hc hdate ⟨hafter, hspan⟩
  have hbefore : ∀ c ∈ lastMinutes.candles, wallDate (kolkata.toLocal c.startTimestamp) = 20000 ∧
      c.startTimestamp < kolkata.toUtc (combine 20000 (930 * minute)) := by decide
  obtain ⟨hday, hclose⟩ := hbefore c hc
  obtain rfl : d = 20000 := hdate.symm.trans hday
  obtain rfl : interval = nseSchedule.bounds := List.mem_singleton.mp hinterval
  have hstop : nseSchedule.bounds.stop = 930 * minute := rfl
  rw [hstop] at hafter
  unfold kolkata ZoneInfo.fixed ZoneInfo.toUtc at *
  simp only at hafter hspan hclose
  omega

theorem reconstruction_exact_sample :
    ExactReconstruction kolkata (2 * minute) nseEffective nseClassifier.calendar lastMinutes
      (.intraday (2 * minute) (by decide)) :=
  (reconstruction_exact_iff _ _ nseEffective nseClassifier.calendar lastMinutes
    (.intraday (2 * minute) (by decide)) (by decide) (by decide)).mpr (lastMinutes_noOverhang _)

/-- The one-minute candles of 15:29 and 15:30. -/
def pastClose : HistoricalSeries where
  timeframe := .intraday minute (by decide)
  candles := [minuteCandle 929, minuteCandle 930]
  ne_nil := List.cons_ne_nil _ _
  oneInstrument := by decide
  separate := by decide

/-- The candle of 15:29 tiles the last two-minute bucket of the session, which the close cuts off, but
    the candle of 15:30 has the same index and so nothing is emitted. -/
theorem late_candle_withholds :
    ¬ ExactReconstruction kolkata (2 * minute) nseEffective nseClassifier.calendar pastClose
      (.intraday (2 * minute) (by decide)) := by
  rintro ⟨out, hout, hiff, -⟩
  obtain ⟨out', hout', hemitted⟩ := reconstructSeries_returns (330 * minute) (by decide)
    (by decide : 0 < 2 * minute) nseEffective nseClassifier.calendar
    (by decide : dividesExactly _ pastClose.timeframe = true) rfl (by decide)
  obtain rfl : out = out' := Option.some.inj (hout.symm.trans hout')
  have hnone : reconstructCandles pastClose minute (.intraday (2 * minute) (by decide)) nseEffective
      nseClassifier.calendar kolkata = [] := by decide +kernel
  have hbucket : IsBucket kolkata (2 * minute) 20000 nseSchedule.bounds
      (kolkata.toUtc (combine 20000 (929 * minute)))
      (kolkata.toUtc (combine 20000 (930 * minute))) := ⟨187, by decide, by decide, by decide⟩
  have htiled : Tiled (kolkata.toUtc (combine 20000 (929 * minute)))
      (kolkata.toUtc (combine 20000 (930 * minute)))
      (within pastClose.candles (kolkata.toUtc (combine 20000 (929 * minute)))
        (kolkata.toUtc (combine 20000 (930 * minute)))) :=
    ⟨by decide, by decide, by decide⟩
  obtain ⟨c, hc, -⟩ := (hiff 20000 nseSchedule.bounds _ _ ⟨by decide, by decide⟩
    (List.mem_singleton.mpr rfl) hbucket).mpr htiled
  rw [hemitted] at hc
  rw [show ZoneInfo.fixed (330 * minute) _ = kolkata from rfl, hnone] at hc
  cases hc

end ApexScan.Reconstruction
