import Mathlib.Tactic.Linarith
import ApexScan.Lib.Tiling
import ApexScan.Engine.Buckets

/-!
# Live and historical buckets agree and tile the session

`bucket_bounds` places one instant by floor division, `session_buckets` enumerates the buckets of a
live interval by an accumulating loop, and `day_buckets` concatenates the enumerations of a day.
Everything here is about a zone of one fixed offset.

* `loop_tiles` — the loop of `session_buckets` tiles what is left of the interval.
* `bucketBounds_eq_iff` — inside the interval, the bucket of an instant is the enumerated bucket
  that holds it.
* `TilesSession`, `TilesDay` — what the enumeration of an interval, and of a day, has to be.
* `buckets_tile` — both hold.
-/

set_option autoImplicit false

namespace ApexScan

open Lib

namespace BucketTiling

/-- The half-open bounds of a bucket hold an instant. -/
def Holds (bucket : Int × Int × Int) (t : Int) : Prop := bucket.2.1 ≤ t ∧ t < bucket.2.2

/-- The buckets are numbered 0, 1, 2 and so on. -/
def Numbered (buckets : List (Int × Int × Int)) : Prop :=
  buckets.map (·.1) = (List.range buckets.length).map fun k : ℕ => (k : Int)

/-- `buckets` are what the live interval `[start, stop)` of UTC instants is cut into. -/
structure TilesSession (width start stop : Int) (buckets : List (Int × Int × Int)) : Prop where
  numbered : Numbered buckets
  tiles : Tiles start (buckets.map (·.2)) stop
  partitions : ∀ t, (start ≤ t ∧ t < stop) ↔ ∃! bucket, bucket ∈ buckets ∧ Holds bucket t
  full : ∀ bucket ∈ buckets.dropLast, bucket.2.2 = bucket.2.1 + width
  at_most_full : ∀ bucket ∈ buckets, bucket.2.2 ≤ bucket.2.1 + width

/-- `buckets` are those of the day's live intervals, in order, under one index. -/
structure TilesDay (z : ZoneInfo) (d : Int) (timeframe : Timeframe)
    (intervals : List TradingInterval) (buckets : List (Int × Int × Int)) : Prop where
  numbered : Numbered buckets
  concatenated : buckets.map (·.2) =
    (intervals.flatMap fun interval => sessionBuckets d timeframe interval z).map (·.2)
  no_gap_crossed : ∀ bucket ∈ buckets, ∃ interval ∈ intervals,
    z.toUtc (combine d interval.start) ≤ bucket.2.1 ∧
      bucket.2.2 ≤ z.toUtc (combine d interval.stop)
  nonempty : ∀ bucket ∈ buckets, bucket.2.1 < bucket.2.2
  increasing : buckets.Pairwise fun a b => a.2.1 < b.2.1 ∧ a.2.2 < b.2.2 ∧ a.2.2 ≤ b.2.1

/-! ## Numbering -/

/-- Bounds numbered from `index` on. -/
def numberFrom : Int → List (Int × Int) → List (Int × Int × Int)
  | _, [] => []
  | index, bounds :: rest => (index, bounds) :: numberFrom (index + 1) rest

@[simp] theorem numberFrom_length (index : Int) (bounds : List (Int × Int)) :
    (numberFrom index bounds).length = bounds.length := by
  induction bounds generalizing index with
  | nil => rfl
  | cons b rest ih => simp [numberFrom, ih]

@[simp] theorem numberFrom_bounds (index : Int) (bounds : List (Int × Int)) :
    (numberFrom index bounds).map (·.2) = bounds := by
  induction bounds generalizing index with
  | nil => rfl
  | cons b rest ih => simp [numberFrom, ih]

theorem numberFrom_indices (index : Int) (bounds : List (Int × Int)) :
    (numberFrom index bounds).map (·.1) = (List.range bounds.length).map fun k : ℕ => index + (k : Int) := by
  induction bounds generalizing index with
  | nil => rfl
  | cons b rest ih =>
    unfold numberFrom
    rw [List.map_cons, ih, List.length_cons, List.range_succ_eq_map, List.map_cons, List.map_map]
    congr 1
    · simp
    · apply List.map_congr_left
      intro k _
      simp only [Function.comp_apply, Nat.succ_eq_add_one]
      push_cast
      ring

theorem numbered_numberFrom (bounds : List (Int × Int)) : Numbered (numberFrom 0 bounds) := by
  unfold Numbered
  rw [numberFrom_indices, numberFrom_length]
  simp only [Int.zero_add]

/-- The inner loop of `day_buckets` numbers the buckets of an interval on. -/
theorem foldl_number (buckets acc : List (Int × Int × Int)) (index : Int) :
    buckets.foldl (fun (loop : List (Int × Int × Int) × Int) bucket =>
      (loop.1 ++ [(loop.2, bucket.2)], loop.2 + 1)) (acc, index) =
    (acc ++ numberFrom index (buckets.map (·.2)), index + buckets.length) := by
  induction buckets generalizing acc index with
  | nil => simp [numberFrom]
  | cons b rest ih =>
    rw [List.foldl_cons, ih, List.map_cons, List.length_cons, numberFrom, List.append_assoc,
      List.singleton_append]
    congr 1
    push_cast
    ring

theorem dayBuckets_eq (d : Int) (timeframe : Timeframe) (intervals : List TradingInterval)
    (z : ZoneInfo) :
    dayBuckets d timeframe intervals z = numberFrom 0
      ((intervals.flatMap fun interval => sessionBuckets d timeframe interval z).map (·.2)) := by
  unfold dayBuckets
  rw [← List.foldl_flatMap, foldl_number]
  rfl

/-! ## One interval -/

section Session

variable {offset : Int} {hoff : -day < offset ∧ offset < day} {width : Int}

/-- **The loop tiles what is left of the interval**, where it has the fuel for it. -/
theorem loop_tiles (pos : 0 < width) {close : Int} (fuel : ℕ) (index : Int) {cursor : Int}
    (hfuel : close - cursor ≤ fuel * width) :
    Tiles (min cursor close - offset)
      ((sessionBucketsLoop (ZoneInfo.fixed offset hoff) width close fuel index cursor).map (·.2))
      (close - offset) := by
  induction fuel generalizing index cursor with
  | zero =>
    show min cursor close - offset = close - offset
    omega
  | succ fuel ih =>
    unfold sessionBucketsLoop
    split
    · rename_i hlt
      have hleft : close - (cursor + width) ≤ fuel * width := by
        push_cast at hfuel
        linarith
      have hrest := ih (index + 1) hleft
      rw [min_eq_left hlt.le]
      refine ⟨rfl, ?_, hrest⟩
      show cursor - offset < min (cursor + width) close - offset
      omega
    · show min cursor close - offset = close - offset
      omega

/-- The loop numbers its buckets. -/
theorem loop_numbered (z : ZoneInfo) (close : Int) (fuel : ℕ) (index cursor : Int) :
    sessionBucketsLoop z width close fuel index cursor =
      numberFrom index ((sessionBucketsLoop z width close fuel index cursor).map (·.2)) := by
  induction fuel generalizing index cursor with
  | zero => rfl
  | succ fuel ih =>
    unfold sessionBucketsLoop
    split
    · rw [List.map_cons, numberFrom, ← ih]
    · rfl

/-- Only the last bucket of the loop may be truncated. -/
theorem loop_full (pos : 0 < width) (close : Int) (fuel : ℕ) (index cursor : Int) :
    ∀ bucket ∈ (sessionBucketsLoop (ZoneInfo.fixed offset hoff) width close fuel index
      cursor).dropLast, bucket.2.2 = bucket.2.1 + width := by
  induction fuel generalizing index cursor with
  | zero =>
    intro bucket hmem
    cases hmem
  | succ fuel ih =>
    unfold sessionBucketsLoop
    split
    · intro bucket hmem
      cases hrest : sessionBucketsLoop (ZoneInfo.fixed offset hoff) width close fuel (index + 1)
          (cursor + width) with
      | nil =>
        rw [hrest] at hmem
        cases hmem
      | cons next rest =>
        rw [hrest, List.dropLast_cons_of_ne_nil (List.cons_ne_nil _ _), ← hrest] at hmem
        rcases List.mem_cons.mp hmem with rfl | hmem
        · -- a bucket follows, so this one ends before the close
          have hnext : next ∈ sessionBucketsLoop (ZoneInfo.fixed offset hoff) width close fuel
              (index + 1) (cursor + width) := hrest ▸ List.mem_cons_self
          obtain ⟨k, -, hlt, -⟩ := mem_sessionBucketsLoop hnext
          have hnonneg := Int.mul_nonneg (Int.natCast_nonneg k) pos.le
          show min (cursor + width) close - offset = cursor - offset + width
          omega
        · exact ih (index + 1) (cursor + width) bucket hmem
    · intro bucket hmem
      cases hmem

/-- Inside the interval an enumerated bucket holds an instant iff it is the bucket of the instant. -/
theorem bucketBounds_eq_of_holds (pos : 0 < width) {d t : Int} {interval : TradingInterval}
    {bucket : Int × Int × Int}
    (hmem : bucket ∈ sessionBuckets d (.intraday width pos) interval (ZoneInfo.fixed offset hoff))
    (hholds : Holds bucket t) :
    bucketBounds t d (.intraday width pos) interval (ZoneInfo.fixed offset hoff) = bucket := by
  obtain ⟨index, s, e⟩ := bucket
  obtain ⟨k, rfl, hlt, rfl, rfl⟩ := mem_sessionBuckets.mp hmem
  have hs : combine d interval.start + k * width - offset ≤ t := hholds.1
  have he : t < min (combine d interval.start + k * width + width) (combine d interval.stop) -
      offset := hholds.2
  have hindex : (t + offset - combine d interval.start) / width = k := by
    rw [Int.ediv_eq_iff_of_pos pos]
    constructor <;> omega
  unfold bucketBounds
  show ((t + offset - combine d interval.start) / width, _, _) = _
  rw [show (ZoneInfo.fixed offset hoff).toLocal t = t + offset from rfl, hindex]

/-- **`session_buckets` cuts the live interval up.** -/
theorem sessionBuckets_tiles (pos : 0 < width) (d : Int) (interval : TradingInterval) :
    TilesSession width ((ZoneInfo.fixed offset hoff).toUtc (combine d interval.start))
      ((ZoneInfo.fixed offset hoff).toUtc (combine d interval.stop))
      (sessionBuckets d (.intraday width pos) interval (ZoneInfo.fixed offset hoff)) := by
  have hopen : combine d interval.start ≤ combine d interval.stop := by
    have := interval.start_lt_stop
    unfold combine
    omega
  have hfuel : combine d interval.stop - combine d interval.start ≤
      ((((combine d interval.stop - combine d interval.start) / width).toNat + 1 : ℕ) : Int) *
        width := by
    have hnonneg : 0 ≤ (combine d interval.stop - combine d interval.start) / width :=
      Int.ediv_nonneg (by omega) pos.le
    have hlt := Int.lt_ediv_add_one_mul_self (combine d interval.stop - combine d interval.start) pos
    push_cast
    rw [Int.toNat_of_nonneg hnonneg]
    exact hlt.le
  have htiles := @loop_tiles offset hoff width pos _ _ 0 _ hfuel
  rw [min_eq_left hopen] at htiles
  have hpartition := fun t => htiles.mem_iff (x := t)
  refine ⟨?_, htiles, ?_, loop_full pos _ _ _ _, ?_⟩
  · show Numbered (sessionBucketsLoop _ _ _ _ _ _)
    rw [loop_numbered]
    exact numbered_numberFrom _
  · intro t
    refine Iff.trans (hpartition t) ?_
    constructor
    · rintro ⟨bounds, hspan, ht⟩
      obtain ⟨bucket, hmem, rfl⟩ := List.mem_map.mp hspan
      refine ⟨bucket, ⟨hmem, ht⟩, ?_⟩
      rintro other ⟨hother, hholds⟩
      have h := bucketBounds_eq_of_holds pos hmem ht
      exact (bucketBounds_eq_of_holds pos hother hholds).symm.trans h
    · rintro ⟨bucket, ⟨hmem, ht⟩, -⟩
      exact ⟨bucket.2, List.mem_map_of_mem hmem, ht⟩
  · rintro ⟨index, s, e⟩ hmem
    obtain ⟨k, -, -, rfl, rfl⟩ := mem_sessionBuckets.mp hmem
    show min (combine d interval.start + k * width + width) (combine d interval.stop) - offset ≤
      combine d interval.start + k * width - offset + width
    omega

end Session

/-! ## A day of several intervals -/

section Day

variable {offset : Int} {hoff : -day < offset ∧ offset < day} {width : Int}

/-- The bounds of two buckets in order, neither empty. -/
def InOrder (a b : Int × Int) : Prop := a.1 < b.1 ∧ a.2 < b.2 ∧ a.2 ≤ b.1

theorem sessionBuckets_within (pos : 0 < width) (d : Int) (interval : TradingInterval)
    {bucket : Int × Int × Int}
    (hmem : bucket ∈ sessionBuckets d (.intraday width pos) interval (ZoneInfo.fixed offset hoff)) :
    combine d interval.start - offset ≤ bucket.2.1 ∧ bucket.2.1 < bucket.2.2 ∧
      bucket.2.2 ≤ combine d interval.stop - offset :=
  (@sessionBuckets_tiles offset hoff width pos d interval).tiles.bounds bucket.2
    (List.mem_map_of_mem hmem)

/-- The buckets of one interval are in order. -/
theorem sessionBuckets_inOrder (pos : 0 < width) (d : Int) (interval : TradingInterval) :
    (sessionBuckets d (.intraday width pos) interval (ZoneInfo.fixed offset hoff)).Pairwise
      fun a b => InOrder a.2 b.2 := by
  have hpair := List.pairwise_map.mp
    (@sessionBuckets_tiles offset hoff width pos d interval).tiles.pairwise
  refine hpair.imp_of_mem ?_
  intro a b ha hb hle
  have ha := sessionBuckets_within pos d interval ha
  have hb := sessionBuckets_within pos d interval hb
  refine ⟨?_, ?_, hle⟩ <;> omega

/-- The buckets of gapped intervals are in order. -/
theorem flatMap_inOrder (pos : 0 < width) (d : Int) {intervals : List TradingInterval}
    (hgapped : Gapped intervals) :
    (intervals.flatMap fun interval => sessionBuckets d (.intraday width pos) interval
      (ZoneInfo.fixed offset hoff)).Pairwise fun a b => InOrder a.2 b.2 := by
  rw [List.pairwise_flatMap]
  refine ⟨fun interval _ => sessionBuckets_inOrder pos d interval, ?_⟩
  refine (gapped_pairwise hgapped).imp ?_
  intro first second hlt a ha b hb
  have ha := sessionBuckets_within pos d first ha
  have hb := sessionBuckets_within pos d second hb
  have hgap : combine d first.stop < combine d second.start := by
    unfold combine
    omega
  refine ⟨?_, ?_, ?_⟩ <;> omega

/-- **`day_buckets` concatenates the buckets of the day's intervals.** -/
theorem dayBuckets_tiles (pos : 0 < width) (d : Int) {intervals : List TradingInterval}
    (hgapped : Gapped intervals) :
    TilesDay (ZoneInfo.fixed offset hoff) d (.intraday width pos) intervals
      (dayBuckets d (.intraday width pos) intervals (ZoneInfo.fixed offset hoff)) := by
  have hbounds : (dayBuckets d (.intraday width pos) intervals (ZoneInfo.fixed offset hoff)).map
      (·.2) = (intervals.flatMap fun interval =>
        sessionBuckets d (.intraday width pos) interval (ZoneInfo.fixed offset hoff)).map (·.2) := by
    rw [dayBuckets_eq, numberFrom_bounds]
  have hsource : ∀ bucket ∈ dayBuckets d (.intraday width pos) intervals
      (ZoneInfo.fixed offset hoff), ∃ interval ∈ intervals, ∃ other ∈ sessionBuckets d
        (.intraday width pos) interval (ZoneInfo.fixed offset hoff), other.2 = bucket.2 := by
    intro bucket hmem
    have hmem := List.mem_map_of_mem (f := (·.2)) hmem
    rw [hbounds] at hmem
    obtain ⟨other, hother, heq⟩ := List.mem_map.mp hmem
    obtain ⟨interval, hinterval, hother⟩ := List.mem_flatMap.mp hother
    exact ⟨interval, hinterval, other, hother, heq⟩
  refine ⟨?_, hbounds, ?_, ?_, ?_⟩
  · rw [dayBuckets_eq]
    exact numbered_numberFrom _
  · intro bucket hmem
    obtain ⟨interval, hinterval, other, hother, heq⟩ := hsource bucket hmem
    have hwithin := sessionBuckets_within pos d interval hother
    rw [heq] at hwithin
    exact ⟨interval, hinterval, hwithin.1, hwithin.2.2⟩
  · intro bucket hmem
    obtain ⟨interval, -, other, hother, heq⟩ := hsource bucket hmem
    have hwithin := sessionBuckets_within pos d interval hother
    rw [heq] at hwithin
    exact hwithin.2.1
  · have hpair := List.pairwise_map.mpr (@flatMap_inOrder offset hoff width pos d _ hgapped)
    rw [← hbounds] at hpair
    exact List.pairwise_map.mp hpair

end Day

/-! ## Main result -/

/-- **The two bucketings agree and tile the session**: the enumerated buckets cut a live interval
    up, the bucket of an instant of the interval is the enumerated bucket that holds it, and the
    buckets of a day are those of its intervals under one index. -/
theorem buckets_tile (offset : Int) (hoff : -day < offset ∧ offset < day) (width : Int)
    (pos : 0 < width) (d : Int) :
    let z := ZoneInfo.fixed offset hoff
    let timeframe := Timeframe.intraday width pos
    (∀ interval : TradingInterval,
      let start := z.toUtc (combine d interval.start)
      let stop := z.toUtc (combine d interval.stop)
      let buckets := sessionBuckets d timeframe interval z
      TilesSession width start stop buckets ∧
        ∀ t, start ≤ t → t < stop → ∀ bucket,
          bucketBounds t d timeframe interval z = bucket ↔ bucket ∈ buckets ∧ Holds bucket t) ∧
    ∀ intervals, intervals ≠ [] → Gapped intervals →
      TilesDay z d timeframe intervals (dayBuckets d timeframe intervals z) := by
  intro z timeframe
  refine ⟨?_, fun intervals _ hgapped => dayBuckets_tiles pos d hgapped⟩
  intro interval start stop buckets
  have htiles : TilesSession width start stop buckets := sessionBuckets_tiles pos d interval
  refine ⟨htiles, ?_⟩
  intro t hstart hstop bucket
  obtain ⟨holder, ⟨hmem, hholds⟩, -⟩ := (htiles.partitions t).mp ⟨hstart, hstop⟩
  constructor
  · rintro rfl
    have heq := bucketBounds_eq_of_holds pos hmem hholds
    rw [show bucketBounds t d timeframe interval z = holder from heq]
    exact ⟨hmem, hholds⟩
  · rintro ⟨hmem, hholds⟩
    exact bucketBounds_eq_of_holds pos hmem hholds

/-- Five minutes and an hour and a half of a day in `Asia/Kolkata`, in buckets of seven minutes. -/
theorem buckets_tile_sample :
    ∃ morning afternoon : TradingInterval, Gapped [morning, afternoon] ∧
      TilesDay kolkata 0 (Timeframe.minutes 7 (by decide)) [morning, afternoon]
        (dayBuckets 0 (Timeframe.minutes 7 (by decide)) [morning, afternoon] kolkata) :=
  ⟨⟨555 * minute, 560 * minute, by decide, by decide, by decide⟩,
    ⟨600 * minute, 690 * minute, by decide, by decide, by decide⟩, ⟨by decide, trivial⟩,
    (buckets_tile (330 * minute) (by decide) (7 * minute) (by decide) 0).2 _
      (List.cons_ne_nil _ _) ⟨by decide, trivial⟩⟩

end BucketTiling

end ApexScan
