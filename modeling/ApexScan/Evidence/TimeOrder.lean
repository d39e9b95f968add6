import ApexScan.Evidence.Combine

/-!
# Monotonicity over combined windows

The windows of a day are `early`, `mid` and `late`.  Their labels compare as
`early < late < mid`, so a combination lists the late observations before the mid ones.

* `sortBy_windows` — a sort by a key that orders three windows is the three windows one by one.
* `sortBy_sortKey`, `timeOrdered_eq` — the order of a combination and the order of time.
* `JudgedInTimeOrder` — a combination reports the violations of its observations in the order of
  time, and never rejects a steady session for monotonicity.

Main result: `judged_in_time_order_iff`.  `rising_high_rejected` is a day whose high only rises and
whose combination is rejected.
-/

set_option autoImplicit false

namespace ApexScan.Evidence

open Lib

/-! ## Windows -/

/-- The windows of a day, in the order of time. -/
def dayWindows : List String := ["early", "mid", "late"]

/-- The record of one window of the day. -/
def SingleWindow (record : EvidenceRecord) : Prop :=
  ∃ w ∈ dayWindows, record.sampleWindows = [w] ∧
    ∀ inst ∈ record.instruments, ∀ o ∈ inst.wsObservations, o.window = w

/-- The windows in the order of time. -/
def EarlierWindow (v w : String) : Prop :=
  v = "early" ∧ (w = "mid" ∨ w = "late") ∨ v = "mid" ∧ w = "late"

/-- Every observation of an earlier window is before every one of a later window. -/
def Chronological (records : List EvidenceRecord) : Prop :=
  ∀ id, ∀ a ∈ observationsOf records id, ∀ id', ∀ b ∈ observationsOf records id',
    EarlierWindow a.window b.window → a.observedAt < b.observedAt

/-- `sorted(observations, key=lambda o: o.observed_at)`. -/
def timeOrdered (observations : List OhlcObservation) : List OhlcObservation :=
  sortBy (·.observedAt) observations

/-- The observations of an instrument in one window, in the order of time. -/
def inWindow (records : List EvidenceRecord) (identity window : String) : List OhlcObservation :=
  timeOrdered ((observationsOf records identity).filter fun o => o.window = window)

theorem mem_inWindow {records : List EvidenceRecord} {identity window : String} {o : OhlcObservation} :
    o ∈ inWindow records identity window ↔ o ∈ observationsOf records identity ∧ o.window = window := by
  simp [inWindow, timeOrdered]

/-- A key that has every observation of window `u` before those of `v` and these before those of `w`
    sorts the three windows one by one. -/
theorem sortBy_windows {κ : Type} [LinearOrder κ] {key : OhlcObservation → κ}
    {obs : List OhlcObservation} (u v w : String) (huv : u ≠ v) (huw : u ≠ w) (hvw : v ≠ w)
    (hcover : ∀ o ∈ obs, o.window = u ∨ o.window = v ∨ o.window = w)
    (hfirst : ∀ a ∈ obs, ∀ b ∈ obs, a.window = u → b.window ≠ u → key a < key b)
    (hsecond : ∀ a ∈ obs, ∀ b ∈ obs, a.window = v → b.window = w → key a < key b) :
    sortBy key obs =
      sortBy key (obs.filter fun o => o.window = u) ++
        (sortBy key (obs.filter fun o => o.window = v) ++
          sortBy key (obs.filter fun o => o.window = w)) := by
  rw [sortBy_append_of_lt (p := fun o => o.window = u)]
  · congr 1
    rw [sortBy_append_of_lt (p := fun o => o.window = v)]
    · rw [List.filter_filter, List.filter_filter]
      congr 2
      · apply List.filter_congr
        intro o _
        by_cases h : o.window = v <;> simp [h, huv.symm]
      · apply List.filter_congr
        intro o ho
        rcases hcover o ho with h | h | h <;> simp [h, huv, huw, hvw, huw.symm, hvw.symm]
    · intro a ha b hb hav hbv
      rw [List.mem_filter] at ha hb
      refine hsecond a ha.1 b hb.1 (by simpa using hav) ?_
      rcases hcover b hb.1 with h | h | h
      · simp [h] at hb
      · simp [h] at hbv
      · exact h
  · intro a ha b hb hau hbu
    exact hfirst a ha b hb (by simpa using hau) (by simpa using hbu)

section Windows

variable {records : List EvidenceRecord}

theorem window_of_mem (hsingle : ∀ r ∈ records, SingleWindow r) {identity : String}
    {o : OhlcObservation} (h : o ∈ observationsOf records identity) :
    o.window = "early" ∨ o.window = "mid" ∨ o.window = "late" := by
  obtain ⟨r, hr, inst, hinst, -, ho⟩ := mem_observationsOf.mp h
  obtain ⟨w, hw, -, hall⟩ := hsingle r hr
  rw [hall inst hinst o ho]
  simpa [dayWindows] using hw

/-- The order of time: the early, the mid and the late observations. -/
theorem timeOrdered_eq (hsingle : ∀ r ∈ records, SingleWindow r) (hchron : Chronological records)
    (identity : String) :
    timeOrdered (observationsOf records identity) =
      inWindow records identity "early" ++
        (inWindow records identity "mid" ++ inWindow records identity "late") := by
  refine sortBy_windows "early" "mid" "late" (by decide) (by decide) (by decide)
    (fun o ho => window_of_mem hsingle ho) ?_ ?_
  · intro a ha b hb hau hbu
    have hb' := window_of_mem hsingle hb
    exact hchron _ a ha _ b hb (.inl ⟨hau, by simpa [hbu] using hb'⟩)
  · intro a ha b hb hav hbw
    exact hchron _ a ha _ b hb (.inr ⟨hav, hbw⟩)

/-- Within a window, label and instant order the observations as the instant does. -/
theorem sortBy_sortKey_window (obs : List OhlcObservation) (window : String) :
    sortBy sortKey (obs.filter fun o => o.window = window) =
      timeOrdered (obs.filter fun o => o.window = window) := by
  apply sortBy_congr
  intro a ha b hb
  have hwindow : a.window = b.window := by
    rw [List.mem_filter] at ha hb
    simp_all
  simp [sortKey, Prod.Lex.toLex_le_toLex, hwindow]

theorem sortKey_lt {a b : OhlcObservation} (h : a.window < b.window) : sortKey a < sortKey b :=
  Prod.Lex.toLex_lt_toLex.mpr (.inl h)

/-- The order of a combination: the early, the late and the mid observations. -/
theorem sortBy_sortKey (hsingle : ∀ r ∈ records, SingleWindow r) (identity : String) :
    sortBy sortKey (observationsOf records identity) =
      inWindow records identity "early" ++
        (inWindow records identity "late" ++ inWindow records identity "mid") := by
  have hcover : ∀ o ∈ observationsOf records identity,
      o.window = "early" ∨ o.window = "late" ∨ o.window = "mid" := fun o ho =>
    (window_of_mem hsingle ho).imp_right Or.symm
  rw [sortBy_windows "early" "late" "mid" (by decide) (by decide) (by decide)
    hcover]
  · simp only [sortBy_sortKey_window]
    rfl
  · intro a ha b hb hau hbu
    apply sortKey_lt
    rw [hau]
    obtain h | h | h := window_of_mem hsingle hb
    · exact absurd h hbu
    · rw [h]
      decide
    · rw [h]
      decide
  · intro a _ b _ hav hbw
    apply sortKey_lt
    rw [hav, hbw]
    decide

theorem filter_inWindow (identity v w : String) :
    (inWindow records identity v).filter (fun o => o.window = w) =
      if v = w then inWindow records identity v else [] := by
  split
  next h =>
    rw [List.filter_eq_self]
    intro o ho
    simp [(mem_inWindow.mp ho).2, h]
  next h =>
    rw [List.filter_eq_nil_iff]
    intro o ho
    simp [(mem_inWindow.mp ho).2, h]

theorem timeOrdered_inWindow (identity w : String) :
    timeOrdered (inWindow records identity w) = inWindow records identity w :=
  List.Pairwise.insertionSort_eq pairwise_sortBy

/-- The observations of a merged instrument in the order of time are those of the records. -/
theorem timeOrdered_merged (hsingle : ∀ r ∈ records, SingleWindow r) (hchron : Chronological records)
    (identity : String) :
    timeOrdered (sortBy sortKey (observationsOf records identity)) =
      timeOrdered (observationsOf records identity) := by
  rw [timeOrdered, sortBy_windows "early" "mid" "late" (by decide) (by decide) (by decide)
    (fun o ho => window_of_mem hsingle (mem_sortBy.mp ho))]
  · rw [timeOrdered_eq hsingle hchron, sortBy_sortKey hsingle]
    simp only [List.filter_append, filter_inWindow]
    simp [← timeOrdered.eq_def, timeOrdered_inWindow]
  · intro a ha b hb hau hbu
    rw [mem_sortBy] at ha hb
    have hb' := window_of_mem hsingle hb
    exact hchron _ a ha _ b hb (.inl ⟨hau, by simpa [hbu] using hb'⟩)
  · intro a ha b hb hav hbw
    rw [mem_sortBy] at ha hb
    exact hchron _ a ha _ b hb (.inr ⟨hav, hbw⟩)

end Windows

/-! ## The judgement -/

/-- A record judges its instruments in the order of time: an instrument carries a violation exactly
    when its observations in the order of time are not steady, and a record of steady instruments is
    not rejected for monotonicity. -/
def JudgedInTimeOrder (record : EvidenceRecord) : Prop :=
  (∀ inst ∈ record.instruments, inst.violations ≠ [] ↔ ¬ Steady (timeOrdered inst.wsObservations)) ∧
    ((∀ inst ∈ record.instruments, Steady (timeOrdered inst.wsObservations)) →
      ∀ n, Reason.monotonicityViolations n ∉ (evaluateRecord record).reasons)

/-- Where the early observations go with the mid ones and with the late ones, the late ones extend the
    mid ones exactly when the mid ones extend the late ones. -/
def LabelsAgree (records : List EvidenceRecord) (identity : String) : Prop :=
  Steady (inWindow records identity "early" ++ inWindow records identity "mid") →
    Steady (inWindow records identity "early" ++ inWindow records identity "late") →
      ((∀ m ∈ inWindow records identity "mid", ∀ l ∈ inWindow records identity "late", Extends m l) ↔
        ∀ m ∈ inWindow records identity "mid", ∀ l ∈ inWindow records identity "late", Extends l m)

/-- Of three groups, the order of the last two matters exactly as `LabelsAgree` says. -/
theorem steady_swap_iff {early mid late : List OhlcObservation} :
    (Steady (early ++ (mid ++ late)) ↔ Steady (early ++ (late ++ mid))) ↔
      (Steady (early ++ mid) → Steady (early ++ late) →
        ((∀ m ∈ mid, ∀ l ∈ late, Extends m l) ↔ ∀ m ∈ mid, ∀ l ∈ late, Extends l m)) := by
  have hcomm : (∀ l ∈ late, ∀ m ∈ mid, Extends l m) ↔ ∀ m ∈ mid, ∀ l ∈ late, Extends l m := by
    grind
  simp only [steady_append, List.mem_append, or_imp, forall_and, hcomm]
  tauto

/-- **A combination judges its instruments in the order of time exactly when, for each instrument, the
    labels agree.** -/
theorem judged_in_time_order_iff (records : List EvidenceRecord) (record : EvidenceRecord)
    (hcombine : combineRecords records = .ok record) (hsingle : ∀ r ∈ records, SingleWindow r)
    (hchron : Chronological records) :
    JudgedInTimeOrder record ↔ ∀ identity, LabelsAgree records identity := by
  obtain ⟨first, -, -, -, rfl⟩ := combineRecords_eq_ok.mp hcombine
  have hinst : ∀ inst ∈ mergedInstruments records,
      ((inst.violations ≠ [] ↔ ¬ Steady (timeOrdered inst.wsObservations)) ↔
        LabelsAgree records inst.identity) := by
    intro inst hmem
    rw [ne_eq, not_iff_not, violations_eq_nil_iff_merged hmem, (merged_spec hmem).1,
      timeOrdered_merged hsingle hchron, timeOrdered_eq hsingle hchron, sortBy_sortKey hsingle,
      LabelsAgree, ← steady_swap_iff]
    exact iff_comm
  constructor
  · rintro ⟨hjudged, -⟩ identity
    by_cases hsome : observationsOf records identity = []
    · -- an instrument without observations
      simp [LabelsAgree, inWindow, hsome, timeOrdered, sortBy]
    · obtain ⟨o, ho⟩ := List.exists_mem_of_ne_nil _ hsome
      obtain ⟨r, hr, inst, hi, hid, -⟩ := mem_observationsOf.mp ho
      obtain ⟨m, hm, hmid⟩ := exists_merged hr hi
      have hagree := (hinst m hm).mp (hjudged m hm)
      rwa [hmid, hid] at hagree
  · intro hagree
    have hjudged : ∀ inst ∈ mergedInstruments records,
        (inst.violations ≠ [] ↔ ¬ Steady (timeOrdered inst.wsObservations)) :=
      fun inst hmem => (hinst inst hmem).mpr (hagree inst.identity)
    refine ⟨hjudged, fun hsteady n hn => ?_⟩
    obtain ⟨inst, hmem, hviol⟩ := (monotonicityViolations_mem_reasons _).mp ⟨n, hn⟩
    exact (hjudged inst hmem).mp hviol (hsteady inst hmem)

/-- One window of a day with a constant open and low. -/
def windowRecord (window : String) (instant : Int) (high : ℚ) : EvidenceRecord :=
  { collectorVersion := "1.0.0"
    sourceSha := "deadbee"
    provider := "dhan"
    tradingDate := 20666
    sessionIdentity := "2026-08-01"
    collectionStart := instant
    collectionEnd := instant
    expectedInstruments := ["NSE:RELIANCE"]
    sampleWindows := [window]
    instruments :=
      [{ exchange := "NSE"
         symbol := "RELIANCE"
         securityId := "2885"
         tradingDate := 20666
         wsObservations :=
           [{ source := "ws"
              window := window
              observedAt := instant
              openPrice := some 100
              highPrice := some high
              lowPrice := some 99 }]
         monotonicity := some ⟨true, true, true, []⟩ }] }

/-- A day of three windows, whose highs are given. -/
def dayRecords (early mid late : ℚ) : List EvidenceRecord :=
  [windowRecord "early" 1 early, windowRecord "mid" 2 mid, windowRecord "late" 3 late]

theorem dayRecords_combine (early mid late : ℚ) :
    combineRecords (dayRecords early mid late) =
      .ok (combined (windowRecord "early" 1 early) (dayRecords early mid late)) := by
  refine combineRecords_eq_ok.mpr ⟨_, rfl, ?_, ?_, rfl⟩
  · simp [dayRecords, windowRecord, EvidenceRecord.key]
  · simp [dayRecords, windowRecord, checkWindows]

theorem dayRecords_single (early mid late : ℚ) : ∀ r ∈ dayRecords early mid late, SingleWindow r := by
  simp [dayRecords, windowRecord, SingleWindow, dayWindows]

theorem dayRecords_chronological (early mid late : ℚ) : Chronological (dayRecords early mid late) := by
  intro id a ha id' b hb hwindows
  rw [mem_observationsOf] at ha hb
  simp only [dayRecords, windowRecord, List.mem_cons, List.not_mem_nil, or_false] at ha hb
  obtain ⟨r, hr, i, hi, -, ha⟩ := ha
  obtain ⟨r', hr', i', hi', -, hb⟩ := hb
  rcases hr with rfl | rfl | rfl <;> rcases hr' with rfl | rfl | rfl <;>
    simp_all [EarlierWindow]

/-- A high that stays where it was is judged as its labels agree. -/
theorem constant_high_judged :
    JudgedInTimeOrder (combined (windowRecord "early" 1 101) (dayRecords 101 102 102)) ↔
      ∀ identity, LabelsAgree (dayRecords 101 102 102) identity :=
  judged_in_time_order_iff _ _ (dayRecords_combine 101 102 102) (dayRecords_single 101 102 102)
    (dayRecords_chronological 101 102 102)

/-- A high that rises from window to window is steady, and its combination is rejected. -/
theorem rising_high_rejected :
    ∃ record, combineRecords (dayRecords 101 102 103) = .ok record ∧
      (∀ r ∈ dayRecords 101 102 103, SingleWindow r) ∧ Chronological (dayRecords 101 102 103) ∧
      (∀ inst ∈ record.instruments, Steady (timeOrdered inst.wsObservations)) ∧
      (evaluateRecord record).reasons = [.monotonicityViolations 1] ∧ ¬ JudgedInTimeOrder record := by
  refine ⟨_, dayRecords_combine 101 102 103, dayRecords_single 101 102 103,
    dayRecords_chronological 101 102 103, by decide +kernel, by decide +kernel, ?_⟩
  rintro ⟨-, hnever⟩
  exact hnever (by decide +kernel) 1 (by decide +kernel)

end ApexScan.Evidence
