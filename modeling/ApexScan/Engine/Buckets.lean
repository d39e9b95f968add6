import Mathlib.Tactic.Ring
import ApexScan.Engine.Session

/-!
# Session-relative bucket boundaries (`app/market_engine/buckets.py`)

Both the live candle engine and historical reconstruction place candles with the functions of
this module: buckets are anchored at the start of a live interval, span the timeframe's duration
and are truncated at the interval's end.

* `bucketBounds` — `(index, start_utc, end_utc)` of the bucket that contains an instant.
* `sessionBuckets` — all buckets of one live interval, in order (the `while cursor < close` loop,
  with as much fuel as it can use).
* `dayBuckets` — all buckets of a day of several live intervals, under one index.
* `bucketBounds_eq_of_index_eq` — the bounds are a function of the index.
* `mem_sessionBuckets` — the buckets of an interval, by their indices.
-/

set_option autoImplicit false

namespace ApexScan

/-- `bucket_bounds`. -/
def bucketBounds (eventTimestamp tradingDate : Int) (timeframe : Timeframe)
    (interval : TradingInterval) (timezone : ZoneInfo) : Int × Int × Int :=
  let openLocal := combine tradingDate interval.start
  let closeLocal := combine tradingDate interval.stop
  match timeframe.duration with
  | none => (0, timezone.toUtc openLocal, timezone.toUtc closeLocal)
  | some width =>
    let index := (timezone.toLocal eventTimestamp - openLocal) / width
    let startLocal := openLocal + index * width
    let endLocal := min (startLocal + width) closeLocal
    (index, timezone.toUtc startLocal, timezone.toUtc endLocal)

/-- The loop of `session_buckets`, from bucket `index` at wall-clock time `cursor`. -/
def sessionBucketsLoop (timezone : ZoneInfo) (width closeLocal : Int) :
    ℕ → Int → Int → List (Int × Int × Int)
  | 0, _, _ => []
  | fuel + 1, index, cursor =>
    if cursor < closeLocal then
      (index, timezone.toUtc cursor, timezone.toUtc (min (cursor + width) closeLocal)) ::
        sessionBucketsLoop timezone width closeLocal fuel (index + 1) (cursor + width)
    else []

/-- `session_buckets`.  The loop makes at most `⌊(close - open) / width⌋ + 1` steps. -/
def sessionBuckets (tradingDate : Int) (timeframe : Timeframe) (interval : TradingInterval)
    (timezone : ZoneInfo) : List (Int × Int × Int) :=
  let openLocal := combine tradingDate interval.start
  let closeLocal := combine tradingDate interval.stop
  match timeframe.duration with
  | none => [(0, timezone.toUtc openLocal, timezone.toUtc closeLocal)]
  | some width =>
    sessionBucketsLoop timezone width closeLocal (((closeLocal - openLocal) / width).toNat + 1) 0
      openLocal

/-- `day_buckets`: the two nested loops, with the list built so far and the next global index. -/
def dayBuckets (tradingDate : Int) (timeframe : Timeframe) (intervals : List TradingInterval)
    (timezone : ZoneInfo) : List (Int × Int × Int) :=
  (intervals.foldl (fun loop interval =>
    (sessionBuckets tradingDate timeframe interval timezone).foldl
      (fun loop bucket => (loop.1 ++ [(loop.2, bucket.2)], loop.2 + 1)) loop) ([], 0)).1

/-- Two instants with one bucket index have the same bucket. -/
theorem bucketBounds_eq_of_index_eq {t t' d : Int} {tf : Timeframe} {iv : TradingInterval}
    {z : ZoneInfo} (h : (bucketBounds t d tf iv z).1 = (bucketBounds t' d tf iv z).1) :
    bucketBounds t d tf iv z = bucketBounds t' d tf iv z := by
  cases tf with
  | session => rfl
  | intraday width pos =>
    simp only [bucketBounds, Timeframe.duration] at h ⊢
    rw [h]

/-- Where the wall clock does not go back, neither does the bucket index. -/
theorem bucketBounds_index_mono {t t' d : Int} {tf : Timeframe} {iv : TradingInterval}
    {z : ZoneInfo} (h : z.toLocal t ≤ z.toLocal t') :
    (bucketBounds t d tf iv z).1 ≤ (bucketBounds t' d tf iv z).1 := by
  cases tf with
  | session => exact Int.le_refl _
  | intraday width pos =>
    simp only [bucketBounds, Timeframe.duration]
    exact Int.ediv_le_ediv pos (by omega)

/-! ## The buckets of an interval -/

section Enumeration

variable {z : ZoneInfo} {width close : Int}

/-- The buckets of the loop of `session_buckets`. -/
theorem mem_sessionBucketsLoop {fuel : ℕ} {index cursor : Int} {b : Int × Int × Int} :
    b ∈ sessionBucketsLoop z width close fuel index cursor → ∃ k : ℕ, k < fuel ∧
      cursor + k * width < close ∧ b = (index + k, z.toUtc (cursor + k * width),
        z.toUtc (min (cursor + k * width + width) close)) := by
  induction fuel generalizing index cursor with
  | zero =>
    intro h
    cases h
  | succ fuel ih =>
    intro h
    unfold sessionBucketsLoop at h
    split at h
    · rename_i hlt
      rcases List.mem_cons.mp h with rfl | h
      · refine ⟨0, Nat.succ_pos _, ?_, ?_⟩ <;> simp [hlt]
      · obtain ⟨k, hk, hcursor, rfl⟩ := ih h
        have hmul : cursor + width + (k : Int) * width = cursor + ((k + 1 : ℕ) : Int) * width := by
          push_cast
          ring
        rw [hmul] at hcursor
        refine ⟨k + 1, by omega, hcursor, ?_⟩
        rw [hmul]
        push_cast
        rw [show index + 1 + (k : Int) = index + (k + 1) by ring]
    · cases h

/-- With enough fuel the loop enumerates all buckets. -/
theorem sessionBucketsLoop_mem (hwidth : 0 < width) (index cursor : Int) {fuel k : ℕ}
    (hk : k < fuel) (hlt : cursor + k * width < close) :
    (index + k, z.toUtc (cursor + k * width), z.toUtc (min (cursor + k * width + width) close)) ∈
      sessionBucketsLoop z width close fuel index cursor := by
  induction fuel generalizing index cursor k with
  | zero => omega
  | succ fuel ih =>
    unfold sessionBucketsLoop
    have hcursor : cursor < close := by
      have := Int.mul_nonneg (Int.natCast_nonneg k) hwidth.le
      omega
    rw [if_pos hcursor]
    cases k with
    | zero => simp
    | succ k =>
      have hmul : cursor + width + (k : Int) * width = cursor + ((k + 1 : ℕ) : Int) * width := by
        push_cast
        ring
      have hmem := ih (index + 1) (cursor + width) (k := k) (by omega)
        (by rw [hmul]; exact hlt)
      rw [hmul] at hmem
      have hindex : index + 1 + (k : Int) = index + ((k + 1 : ℕ) : Int) := by
        push_cast
        ring
      rw [hindex] at hmem
      exact List.mem_cons_of_mem _ hmem

/-- `session_buckets` enumerates the buckets of the interval. -/
theorem mem_sessionBuckets {d : Int} {pos : 0 < width} {interval : TradingInterval}
    {index s e : Int} :
    (index, s, e) ∈ sessionBuckets d (.intraday width pos) interval z ↔
      ∃ k : ℕ, index = k ∧ combine d interval.start + k * width < combine d interval.stop ∧
        s = z.toUtc (combine d interval.start + k * width) ∧
        e = z.toUtc (min (combine d interval.start + k * width + width) (combine d interval.stop)) := by
  unfold sessionBuckets
  simp only [Timeframe.duration]
  constructor
  · intro h
    obtain ⟨k, -, hlt, heq⟩ := mem_sessionBucketsLoop h
    simp only [Prod.mk.injEq, Int.zero_add] at heq
    exact ⟨k, heq.1, hlt, heq.2.1, heq.2.2⟩
  · rintro ⟨k, rfl, hlt, rfl, rfl⟩
    have hfuel : k < ((combine d interval.stop - combine d interval.start) / width).toNat + 1 := by
      have hk : (k : Int) ≤ (combine d interval.stop - combine d interval.start) / width :=
        Int.le_ediv_of_mul_le pos (by omega)
      omega
    have := sessionBucketsLoop_mem (z := z) pos 0 (combine d interval.start) hfuel hlt
    rwa [Int.zero_add] at this

end Enumeration

end ApexScan
