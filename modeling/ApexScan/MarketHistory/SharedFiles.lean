import ApexScan.MarketHistory.BarMap
import Mathlib.Tactic.NormNum

/-!
# Instruments that share a file

The name of a file does not tell the instruments apart whose identities differ in replaced characters
alone.  A call is answered as by a map exactly when no bar of such an instrument is in its way.

* `Represents` — the files hold the map.
* `Free`, `Clear` — what must not be in the way of an upsert, and of any call.
* `upsert_free`, `upsert_not_free` — an upsert refines the map's where its date is free; elsewhere it
  refuses what the map inserts.
* `count_inserted_lt` — a batch that is not clear inserts less than the map does.

Main result: `store_is_map_iff`.  `shared_file_read_fails` is a store of two instruments with one file.
-/

set_option autoImplicit false

namespace ApexScan.MarketHistory

open Lib

namespace FileHistoricalBarStore

variable {isalnum : Char → Bool} {files : Files} {m : BarMap} {bar : HistoricalDailyBar}

/-- The files hold the map, each bar in its own file. -/
structure Represents (isalnum : Char → Bool) (files : Files) (m : BarMap) : Prop where
  ascending : FilesAscending files
  placed : ∀ name bar, Stored files name bar → name = pathOf isalnum bar
  keyed : BarMap.Keyed m
  stored_iff : ∀ bar, Stored files (pathOf isalnum bar) bar ↔ m.get (keyOf bar) = some bar

/-- The date of a bar is not taken by another instrument of its file. -/
def Free (isalnum : Char → Bool) (files : Files) (bar : HistoricalDailyBar) : Prop :=
  ∀ b, Stored files (pathOf isalnum bar) b → b.tradingDate = bar.tradingDate →
    b.instrumentIdentity = bar.instrumentIdentity

/-- Two bars do not want the same date of one file for different instruments. -/
def Apart (isalnum : Char → Bool) (a b : HistoricalDailyBar) : Prop :=
  pathOf isalnum a = pathOf isalnum b → a.tradingDate = b.tradingDate →
    a.instrumentIdentity = b.instrumentIdentity

/-- No bar of another instrument is in the way of a call. -/
def Clear (isalnum : Char → Bool) (files : Files) : Call → Prop
  | .upsert bar => Free isalnum files bar
  | .upsertMany bars => (∀ bar ∈ bars, Free isalnum files bar) ∧ bars.Pairwise (Apart isalnum)
  | .readRange instrumentIdentity start stop adjustment =>
    ∀ bar ∈ load isalnum files instrumentIdentity adjustment,
      start ≤ bar.tradingDate → bar.tradingDate ≤ stop → bar.instrumentIdentity = instrumentIdentity
  | .readLastN instrumentIdentity asOf n adjustment =>
    let eligible := (load isalnum files instrumentIdentity adjustment).filter fun bar =>
      bar.tradingDate ≤ asOf
    if 0 < n then ∀ bar ∈ lastN n eligible, bar.instrumentIdentity = instrumentIdentity
    else lastN n eligible ≠ [] → ∀ bar ∈ eligible, bar.instrumentIdentity = instrumentIdentity
  | .availableDates instrumentIdentity adjustment =>
    ∀ bar ∈ load isalnum files instrumentIdentity adjustment,
      bar.instrumentIdentity = instrumentIdentity

theorem stored_unique (hfiles : FilesAscending files) {name : String} {a b : HistoricalDailyBar}
    (ha : Stored files name a) (hb : Stored files name b) (hdate : a.tradingDate = b.tradingDate) :
    a = b := by
  obtain ⟨bars, hbars, ha⟩ := ha
  obtain ⟨bars', hbars', hb⟩ := hb
  rw [hbars, Option.some.injEq] at hbars'
  subst hbars'
  have hascending := hfiles name bars hbars
  have hget : (byDate bars).get b.tradingDate = some a := (get_byDate hascending).mpr ⟨ha, hdate⟩
  have hget' : (byDate bars).get b.tradingDate = some b := (get_byDate hascending).mpr ⟨hb, rfl⟩
  exact Option.some.inj (hget.symm.trans hget')

theorem pathOf_of_keyOf {a b : HistoricalDailyBar} (h : keyOf a = keyOf b) :
    pathOf isalnum a = pathOf isalnum b ∧ a.tradingDate = b.tradingDate := by
  simp only [keyOf, Prod.mk.injEq] at h
  simp [pathOf, h]

theorem Represents.adjustment_eq (h : Represents isalnum files m) {identity : InstrumentIdentity}
    {adjustment : PriceAdjustment} (hstored : Stored files (path isalnum identity adjustment) bar) :
    bar.adjustment = adjustment :=
  (path_eq_iff.mp (h.placed _ bar hstored)).2.symm

/-! ## Upserts -/

/-- Where the date is free an upsert is the map's upsert. -/
theorem upsert_free (h : Represents isalnum files m) (hfree : Free isalnum files bar) :
    Represents isalnum (upsert isalnum files bar).1 (BarMap.upsert m bar).1 ∧
      (upsert isalnum files bar).2 = (BarMap.upsert m bar).2 := by
  obtain ⟨prior, hstored, hdate, heq⟩ | ⟨hnone, hout, hascending, hnext⟩ :=
    upsert_spec isalnum h.ascending bar
  · have hidentity := hfree prior hstored hdate
    have hadjustment : prior.adjustment = bar.adjustment := h.adjustment_eq hstored
    have hkey : keyOf prior = keyOf bar := by simp [keyOf, hidentity, hadjustment, hdate]
    have hget : m.get (keyOf bar) = some prior := by
      rw [← hkey, ← h.stored_iff, (pathOf_of_keyOf hkey).1]
      exact hstored
    simp only [heq, BarMap.upsert, hget]
    exact ⟨h, trivial⟩
  · have hget : m.get (keyOf bar) = none := by
      cases hm : m.get (keyOf bar) with
      | none => rfl
      | some b =>
        have hkey := h.keyed.key_eq _ b hm
        obtain ⟨hpath, hdate⟩ := @pathOf_of_keyOf isalnum _ _ hkey
        refine absurd hdate (hnone b ?_)
        rw [← hpath, h.stored_iff, hkey]
        exact hm
    refine ⟨⟨hascending, fun name b hb => ?_, h.keyed.upsert bar, fun b => ?_⟩, ?_⟩
    · rcases (hnext name b).mp hb with hb | ⟨rfl, rfl⟩
      · exact h.placed name b hb
      · rfl
    · rw [hnext, h.stored_iff, BarMap.get_upsert]
      by_cases hkey : keyOf bar = keyOf b
      · rw [if_pos hkey, ← hkey, hget]
        simp only [reduceCtorEq, false_or, Option.none_or, Option.some.injEq]
        constructor
        · rintro ⟨-, rfl⟩
          rfl
        · rintro rfl
          exact ⟨rfl, rfl⟩
      · rw [if_neg hkey, Option.or_none]
        constructor
        · rintro (hb | ⟨-, rfl⟩)
          · exact hb
          · exact absurd rfl hkey
        · exact .inl
    · rw [hout, BarMap.upsert, hget]

/-- Where it is not free the file refuses what the map inserts. -/
theorem upsert_not_free (h : Represents isalnum files m) (hfree : ¬ Free isalnum files bar) :
    (upsert isalnum files bar).2 ≠ .inserted ∧ (BarMap.upsert m bar).2 = .inserted := by
  simp only [Free, not_forall] at hfree
  obtain ⟨b, hstored, hdate, hforeign⟩ := hfree
  have hget : m.get (keyOf bar) = none := by
    cases hm : m.get (keyOf bar) with
    | none => rfl
    | some prior =>
      have hkey := h.keyed.key_eq _ prior hm
      obtain ⟨hpath, hdate'⟩ := @pathOf_of_keyOf isalnum _ _ hkey
      have hprior : Stored files (pathOf isalnum bar) prior := by
        rw [← hpath, h.stored_iff, hkey]
        exact hm
      have heq := stored_unique h.ascending hstored hprior (hdate.trans hdate'.symm)
      subst heq
      exact absurd (congrArg Prod.fst hkey) hforeign
  refine ⟨?_, by simp [BarMap.upsert, hget]⟩
  obtain ⟨prior, -, -, heq⟩ | ⟨hnone, -⟩ := upsert_spec isalnum h.ascending bar
  · rw [heq]
    simp only [storedOutcome]
    split <;> simp
  · exact absurd hdate (hnone b hstored)

/-! ## Batches -/

/-- Every date that the map has is taken in the file. -/
structure Filled (isalnum : Char → Bool) (files : Files) (m : BarMap) : Prop where
  ascending : FilesAscending files
  taken : ∀ key bar, m.get key = some bar → keyOf bar = key ∧
    ∃ b, Stored files (pathOf isalnum bar) b ∧ b.tradingDate = bar.tradingDate

theorem Represents.filled (h : Represents isalnum files m) : Filled isalnum files m where
  ascending := h.ascending
  taken key bar hm := by
    have hkey := h.keyed.key_eq key bar hm
    exact ⟨hkey, bar, (h.stored_iff bar).mpr (hkey ▸ hm), rfl⟩

/-- What the file inserts the map inserts. -/
theorem Filled.upsert (h : Filled isalnum files m) (bar : HistoricalDailyBar) :
    Filled isalnum (upsert isalnum files bar).1 (BarMap.upsert m bar).1 ∧
      ((FileHistoricalBarStore.upsert isalnum files bar).2 = .inserted →
        (BarMap.upsert m bar).2 = .inserted) := by
  have hmap (key : BarKey) (b : HistoricalDailyBar) (hb : (BarMap.upsert m bar).1.get key = some b) :
      m.get key = some b ∨ keyOf bar = key ∧ bar = b := by
    rw [BarMap.get_upsert] at hb
    cases hm : m.get key with
    | some prior =>
      rw [hm, Option.some_or] at hb
      exact .inl hb
    | none =>
      rw [hm, Option.none_or] at hb
      split at hb
      · exact .inr ⟨by assumption, Option.some.inj hb⟩
      · cases hb
  obtain ⟨prior, hstored, hdate, heq⟩ | ⟨hnone, hout, hascending, hnext⟩ :=
    upsert_spec isalnum h.ascending bar
  · rw [heq]
    refine ⟨⟨h.ascending, fun key b hb => ?_⟩, fun hins => ?_⟩
    · rcases hmap key b hb with hb | ⟨hkey, rfl⟩
      · exact h.taken key b hb
      · exact ⟨hkey, prior, hstored, hdate⟩
    · simp only [storedOutcome] at hins
      split at hins <;> cases hins
  · refine ⟨⟨hascending, fun key b hb => ?_⟩, fun _ => ?_⟩
    · rcases hmap key b hb with hb | ⟨hkey, rfl⟩
      · obtain ⟨hkey, b', hstored, hdate⟩ := h.taken key b hb
        exact ⟨hkey, b', (hnext _ b').mpr (.inl hstored), hdate⟩
      · exact ⟨hkey, bar, (hnext _ bar).mpr (.inr ⟨rfl, rfl⟩), rfl⟩
    · cases hm : m.get (keyOf bar) with
      | none => simp [BarMap.upsert, hm]
      | some b =>
        obtain ⟨hkey, b', hstored, hdate⟩ := h.taken _ b hm
        obtain ⟨hpath, hdate'⟩ := @pathOf_of_keyOf isalnum _ _ hkey
        exact absurd (hdate.trans hdate') (hnone b' (hpath ▸ hstored))

/-- A sequence of upserts inserts no more than the map does. -/
theorem count_inserted_le (h : Filled isalnum files m) (bars : List HistoricalDailyBar) :
    (outs (upsert isalnum) files bars).count .inserted ≤ (outs BarMap.upsert m bars).count .inserted := by
  induction bars generalizing files m with
  | nil => exact Nat.le_refl _
  | cons bar bars ih =>
    obtain ⟨hnext, hins⟩ := h.upsert bar
    have hrest := ih hnext
    rw [outs_cons, outs_cons, List.count_cons, List.count_cons]
    by_cases hout : (upsert isalnum files bar).2 = .inserted
    · simp only [hout, hins hout]
      omega
    · simp only [beq_iff_eq, hout, if_false]
      omega

/-- A sequence with an upsert whose date is not free inserts less. -/
theorem count_inserted_lt (h : Represents isalnum files m) {bars : List HistoricalDailyBar}
    (hfree : ¬ Along (upsert isalnum) (Free isalnum) files bars) :
    (outs (upsert isalnum) files bars).count .inserted < (outs BarMap.upsert m bars).count .inserted := by
  induction bars generalizing files m with
  | nil => exact absurd trivial hfree
  | cons bar bars ih =>
    rw [outs_cons, outs_cons, List.count_cons, List.count_cons]
    by_cases hbar : Free isalnum files bar
    · obtain ⟨hnext, hout⟩ := upsert_free h hbar
      have hrest := ih hnext fun hrest => hfree ⟨hbar, hrest⟩
      rw [hout]
      omega
    · obtain ⟨hout, hout'⟩ := upsert_not_free h hbar
      have hrest := count_inserted_le (h.filled.upsert bar).1 bars
      simp only [beq_iff_eq, hout, hout', if_false, if_true]
      omega

/-- The upserts of a sequence find their dates free exactly when no stored bar and no other bar of the
    sequence takes one of them. -/
theorem along_free_iff (h : Represents isalnum files m) (bars : List HistoricalDailyBar) :
    Along (upsert isalnum) (Free isalnum) files bars ↔
      (∀ bar ∈ bars, Free isalnum files bar) ∧ bars.Pairwise (Apart isalnum) := by
  induction bars generalizing files m with
  | nil => simp
  | cons bar bars ih =>
    rw [along_cons, List.forall_mem_cons, List.pairwise_cons, and_assoc]
    refine and_congr_right fun hbar => ?_
    rw [ih (upsert_free h hbar).1, ← and_assoc]
    refine and_congr_left fun _ => ?_
    rw [← forall₂_and]
    refine forall₂_congr fun b _ => ?_
    obtain ⟨prior, hstored, hdate, heq⟩ | ⟨hnone, -, -, hnext⟩ :=
      upsert_spec isalnum h.ascending bar
    · rw [heq]
      refine ⟨fun hb => ⟨hb, fun hpath hdate' => ?_⟩, fun hb => hb.1⟩
      have hidentity := hbar prior hstored hdate
      have hidentity' := hb prior (hpath ▸ hstored) (hdate.trans hdate')
      exact hidentity.symm.trans hidentity'
    · constructor
      · intro hb
        refine ⟨fun b' hb' => hb b' ((hnext _ _).mpr (.inl hb')), fun hpath hdate => ?_⟩
        exact hb bar ((hnext _ _).mpr (.inr ⟨hpath.symm, rfl⟩)) hdate
      · rintro ⟨hb, hapart⟩ b' hb' hdate
        rcases (hnext _ _).mp hb' with hb' | ⟨hpath, rfl⟩
        · exact hb b' hb' hdate
        · exact hapart hpath.symm hdate

/-- The bars of a batch in the order in which the groups are written. -/
def regrouped (bars : List HistoricalDailyBar) : List HistoricalDailyBar :=
  (groupedBy groupKey bars).flatMap (·.2)

theorem along_regrouped_iff (h : Represents isalnum files m) (bars : List HistoricalDailyBar) :
    Along (upsert isalnum) (Free isalnum) files (regrouped bars) ↔
      Clear isalnum files (.upsertMany bars) := by
  have hperm : (regrouped bars).Perm bars := flatMap_groupedBy_perm bars
  have hsymm {a b : HistoricalDailyBar} (hab : Apart isalnum a b) : Apart isalnum b a :=
    fun hpath hdate => (hab hpath.symm hdate.symm).symm
  rw [along_free_iff h, Clear, hperm.pairwise_iff hsymm]
  simp only [hperm.mem_iff]

theorem upsertMany_counts (h : Represents isalnum files m) (bars : List HistoricalDailyBar) :
    upsertMany isalnum files bars =
        (run (upsert isalnum) files (regrouped bars),
          (outs (upsert isalnum) files (regrouped bars)).foldl Counts.add {}) ∧
      BarMap.upsertMany m (regrouped bars) =
        (run BarMap.upsert m (regrouped bars),
          (outs BarMap.upsert m (regrouped bars)).foldl Counts.add {}) ∧
      (∀ key, (BarMap.upsertMany m bars).1.get key =
        (BarMap.upsertMany m (regrouped bars)).1.get key) ∧
      (BarMap.upsertMany m bars).2 = (BarMap.upsertMany m (regrouped bars)).2 := by
  refine ⟨?_, foldl_counted _ _ _, ?_⟩
  · rw [upsertMany_eq h.ascending]
    exact foldl_counted _ _ _
  · apply BarMap.upsertMany_of_regrouped h.keyed (flatMap_groupedBy_perm bars).symm
    intro key
    exact (filter_flatMap_groupedBy bars key).symm

/-- Upserts that find their dates free are the map's upserts. -/
theorem upserts_free (h : Represents isalnum files m) {bars : List HistoricalDailyBar}
    (hfree : Along (upsert isalnum) (Free isalnum) files bars) :
    Represents isalnum (run (upsert isalnum) files bars) (run BarMap.upsert m bars) ∧
      outs (upsert isalnum) files bars = outs BarMap.upsert m bars := by
  constructor
  · refine Along.related (C := Free isalnum) (R := Represents isalnum) ?_ hfree h
    intro files m bar hrep hbar
    exact (upsert_free hrep hbar).1
  · refine (outs_eq_iff_along (C := Free isalnum) (R := Represents isalnum) ?_ ?_ bars h).mpr hfree
    · intro files m bar hrep hbar
      exact upsert_free hrep hbar
    · intro files m bar hrep hbar heq
      obtain ⟨hout, hout'⟩ := upsert_not_free hrep hbar
      exact hout (heq.trans hout')

/-- A clear batch is the map's batch. -/
theorem upsertMany_clear (h : Represents isalnum files m) {bars : List HistoricalDailyBar}
    (hclear : Clear isalnum files (.upsertMany bars)) :
    Represents isalnum (upsertMany isalnum files bars).1 (BarMap.upsertMany m bars).1 ∧
      (upsertMany isalnum files bars).2 = (BarMap.upsertMany m bars).2 := by
  obtain ⟨hcode, hmap, hget, hcounts⟩ := upsertMany_counts h bars
  obtain ⟨hend, houts⟩ := upserts_free h ((along_regrouped_iff h bars).mpr hclear)
  constructor
  · rw [hcode]
    refine ⟨hend.ascending, hend.placed, BarMap.keyed_upsertMany h.keyed bars, fun bar => ?_⟩
    rw [hget, hmap]
    exact hend.stored_iff bar
  · rw [hcounts, hmap, hcode, houts]

/-- A batch that is not clear inserts less than the map's batch. -/
theorem upsertMany_not_clear (h : Represents isalnum files m) {bars : List HistoricalDailyBar}
    (hclear : ¬ Clear isalnum files (.upsertMany bars)) :
    (upsertMany isalnum files bars).2 ≠ (BarMap.upsertMany m bars).2 := by
  obtain ⟨hcode, hmap, -, hcounts⟩ := upsertMany_counts h bars
  have hlt := count_inserted_lt h (mt (along_regrouped_iff h bars).mp hclear)
  intro heq
  have hinserted := congrArg Counts.inserted heq
  rw [hcounts, hmap, hcode] at hinserted
  simp only [inserted_foldl_add] at hinserted
  omega

/-! ## Reads -/

/-- The bars of an instrument in its file are those of the map. -/
theorem filter_load (h : Represents isalnum files m) (identity : InstrumentIdentity)
    (adjustment : PriceAdjustment) :
    (load isalnum files identity adjustment).filter (fun bar => bar.instrumentIdentity = identity) =
      BarMap.barsOf m identity adjustment := by
  refine eq_of_pairwise_lt ((ascending_load isalnum h.ascending identity adjustment).filter _)
    (h.keyed.ascending_barsOf identity adjustment) fun bar => ?_
  rw [List.mem_filter, mem_load, h.keyed.mem_barsOf, ← h.stored_iff]
  simp only [decide_eq_true_eq, groupKey, Prod.mk.injEq]
  constructor
  · rintro ⟨hstored, rfl⟩
    obtain rfl := h.adjustment_eq hstored
    exact ⟨hstored, rfl, rfl⟩
  · rintro ⟨hstored, rfl, rfl⟩
    exact ⟨hstored, rfl⟩

/-- The validator tells any other list from a series of the map. -/
theorem validateSeries_eq_iff (h : Represents isalnum files m) {identity : InstrumentIdentity}
    {adjustment : PriceAdjustment} {bars own : List HistoricalDailyBar}
    (hsub : own.Sublist (BarMap.barsOf m identity adjustment)) :
    validateSeries identity adjustment bars = validateSeries identity adjustment own ↔ bars = own := by
  constructor
  · intro heq
    obtain ⟨series, hok, hown⟩ := BarMap.validateSeries_of_sublist h.keyed hsub
    rw [← hown, ← bars_of_validateSeries (heq.trans hok)]
  · rintro rfl
    rfl

/-- What a filter leaves of the last elements. -/
theorem lastN_filter_iff {α : Type} {p : α → Bool} {n : Int} {xs : List α} :
    lastN n xs = lastN n (xs.filter p) ↔
      if 0 < n then ∀ x ∈ lastN n xs, p x = true else lastN n xs ≠ [] → ∀ x ∈ xs, p x = true := by
  unfold lastN
  rcases lt_trichotomy n 0 with hn | rfl | hn
  · -- `xs[k:]`
    rw [if_neg hn.ne, if_neg hn.ne, if_neg (not_lt.mpr hn.le), if_neg (not_lt.mpr hn.le),
      if_neg (not_lt.mpr hn.le)]
    constructor
    · intro heq hne
      have hlength := congrArg List.length heq
      have hpos := List.length_pos_of_ne_nil hne
      have hle := List.length_filter_le p xs
      rw [List.length_drop] at hlength hpos
      rw [List.length_drop] at hlength
      exact List.length_filter_eq_length_iff.mp (by omega)
    · intro h
      by_cases hnil : xs.drop (-n).toNat = []
      · have hle := List.length_filter_le p xs
        rw [List.drop_eq_nil_iff] at hnil
        rw [List.drop_eq_nil_of_le hnil, List.drop_eq_nil_of_le (hle.trans hnil)]
      · rw [List.filter_eq_self.mpr (h hnil)]
  · simp
  · -- `xs[-k:]`
    rw [if_neg hn.ne', if_neg hn.ne', if_pos hn, if_pos hn, if_pos hn]
    constructor
    · intro heq x hx
      rw [heq] at hx
      exact (List.mem_filter.mp (List.mem_of_mem_drop hx)).2
    · intro h
      have hsplit : xs.filter p =
          (xs.take (xs.length - n.toNat)).filter p ++ xs.drop (xs.length - n.toNat) := by
        conv_lhs => rw [← List.take_append_drop (xs.length - n.toNat) xs]
        rw [List.filter_append, List.filter_eq_self.mpr h]
      have hlength : ((xs.take (xs.length - n.toNat)).filter p ++
          xs.drop (xs.length - n.toNat)).length - n.toNat =
            ((xs.take (xs.length - n.toNat)).filter p).length := by
        rw [List.length_append, List.length_drop]
        by_cases hshort : xs.length ≤ n.toNat
        · rw [Nat.sub_eq_zero_of_le hshort]
          simp
          omega
        · omega
      rw [hsplit, hlength, List.drop_left]

/-- A read of a range is the map's exactly when it is clear. -/
theorem readRange_iff (h : Represents isalnum files m) (identity : InstrumentIdentity) (start stop : Int)
    (adjustment : PriceAdjustment) :
    (step isalnum files (.readRange identity start stop adjustment)).2 =
        (BarMap.step m (.readRange identity start stop adjustment)).2 ↔
      Clear isalnum files (.readRange identity start stop adjustment) := by
  simp only [step, BarMap.step, readRange, Answer.series.injEq, Clear]
  rw [validateSeries_eq_iff h List.filter_sublist, ← filter_load h, List.filter_filter]
  constructor
  · intro heq bar hbar hstart hstop
    have hmem : bar ∈ (load isalnum files identity adjustment).filter fun bar =>
        start ≤ bar.tradingDate ∧ bar.tradingDate ≤ stop := by simp [hbar, hstart, hstop]
    rw [heq] at hmem
    simp at hmem
    exact hmem.2.2
  · intro hall
    apply List.filter_congr
    intro bar hbar
    by_cases hrange : start ≤ bar.tradingDate ∧ bar.tradingDate ≤ stop
    · simp [hrange, hall bar hbar hrange.1 hrange.2]
    · simp [hrange]

/-- A read of the last bars is the map's exactly when it is clear. -/
theorem readLastN_iff (h : Represents isalnum files m) (identity : InstrumentIdentity) (asOf n : Int)
    (adjustment : PriceAdjustment) :
    (step isalnum files (.readLastN identity asOf n adjustment)).2 =
        (BarMap.step m (.readLastN identity asOf n adjustment)).2 ↔
      Clear isalnum files (.readLastN identity asOf n adjustment) := by
  simp only [step, BarMap.step, readLastN, Answer.series.injEq, Clear]
  rw [validateSeries_eq_iff h ((BarMap.lastN_sublist _ _).trans List.filter_sublist), ← filter_load h,
    List.filter_comm, lastN_filter_iff]
  simp only [decide_eq_true_eq]

/-- The available dates are the map's exactly when the file is the instrument's. -/
theorem availableDates_iff (h : Represents isalnum files m) (identity : InstrumentIdentity)
    (adjustment : PriceAdjustment) :
    (step isalnum files (.availableDates identity adjustment)).2 =
        (BarMap.step m (.availableDates identity adjustment)).2 ↔
      Clear isalnum files (.availableDates identity adjustment) := by
  simp only [step, BarMap.step, availableDates, Answer.dates.injEq, Clear]
  rw [← filter_load h]
  constructor
  · intro heq
    have hlength := congrArg List.length heq
    rw [List.length_map, List.length_map] at hlength
    simpa using List.length_filter_eq_length_iff.mp hlength.symm
  · intro hall
    rw [List.filter_eq_self.mpr (by simpa using hall)]

/-! ## All calls -/

/-- A clear call is answered as by the map, and leaves the map represented. -/
theorem step_clear (h : Represents isalnum files m) {call : Call} (hclear : Clear isalnum files call) :
    Represents isalnum (step isalnum files call).1 (BarMap.step m call).1 ∧
      (step isalnum files call).2 = (BarMap.step m call).2 := by
  cases call with
  | upsert bar =>
    obtain ⟨hnext, hout⟩ := upsert_free h hclear
    exact ⟨hnext, congrArg Answer.outcome hout⟩
  | upsertMany bars =>
    obtain ⟨hnext, hcounts⟩ := upsertMany_clear h hclear
    exact ⟨hnext, congrArg Answer.counts hcounts⟩
  | readRange identity start stop adjustment => exact ⟨h, (readRange_iff h _ _ _ _).mpr hclear⟩
  | readLastN identity asOf n adjustment => exact ⟨h, (readLastN_iff h _ _ _ _).mpr hclear⟩
  | availableDates identity adjustment => exact ⟨h, (availableDates_iff h _ _).mpr hclear⟩

/-- Any other call is answered differently. -/
theorem step_not_clear (h : Represents isalnum files m) {call : Call}
    (hclear : ¬ Clear isalnum files call) :
    (step isalnum files call).2 ≠ (BarMap.step m call).2 := by
  cases call with
  | upsert bar =>
    obtain ⟨hout, hout'⟩ := upsert_not_free h hclear
    intro heq
    exact hout ((Answer.outcome.inj heq).trans hout')
  | upsertMany bars =>
    intro heq
    exact upsertMany_not_clear h hclear (Answer.counts.inj heq)
  | readRange identity start stop adjustment => exact mt (readRange_iff h _ _ _ _).mp hclear
  | readLastN identity asOf n adjustment => exact mt (readLastN_iff h _ _ _ _).mp hclear
  | availableDates identity adjustment => exact mt (availableDates_iff h _ _).mp hclear

theorem represents_empty (isalnum : Char → Bool) : Represents isalnum [] [] where
  ascending _ _ h := by cases h
  placed _ _ h := by
    obtain ⟨_, h, -⟩ := h
    cases h
  keyed := BarMap.keyed_nil
  stored_iff _ := by
    constructor
    · rintro ⟨_, h, -⟩
      cases h
    · intro h
      cases h

/-- **A store answers every call as a map does exactly when every call finds no bar of another instrument
    in its way.** -/
theorem store_is_map_iff (isalnum : Char → Bool) (calls : List Call) :
    outs (step isalnum) [] calls = outs BarMap.step [] calls ↔
      Along (step isalnum) (Clear isalnum) [] calls := by
  refine outs_eq_iff_along (C := Clear isalnum) (R := Represents isalnum) ?_ ?_ calls
    (represents_empty isalnum)
  · intro files m call hrep hclear
    exact step_clear hrep hclear
  · intro files m call hrep hclear
    exact step_not_clear hrep hclear

theorem mm_length : 1 ≤ "NSE:M&M".length ∧ "NSE:M&M".length ≤ 128 := by decide

theorem m_m_length : 1 ≤ "NSE:M_M".length ∧ "NSE:M_M".length ≤ 128 := by decide

theorem flat_prices : (0 : ℚ) < 100 ∧ (100 : ℚ) ≤ 100 ∧ ((100 : ℚ) ≤ 100 ∧ (100 : ℚ) ≤ 100) := by
  norm_num

/-- A day at one price. -/
def flatBar (identity : InstrumentIdentity) (date : Int) : HistoricalDailyBar where
  instrumentIdentity := identity
  tradingDate := date
  openPrice := 100
  high := 100
  low := 100
  close := 100
  volume := 10
  source := "test"
  ingestedAt := 0
  low_pos := flat_prices.1
  high_ge_low := flat_prices.2.1
  open_within := flat_prices.2.2
  close_within := flat_prices.2.2

/-- `NSE:M&M` and `NSE:M_M` share the file `NSE_M_M__raw.json`: a read of the one raises once the other
    has a bar, and its own bar of the same date is not stored. -/
theorem shared_file_read_fails :
    let mm : InstrumentIdentity := ⟨"NSE:M&M", mm_length.1, mm_length.2⟩
    let m_m : InstrumentIdentity := ⟨"NSE:M_M", m_m_length.1, m_m_length.2⟩
    let calls : List Call := [.upsert (flatBar mm 1), .upsert (flatBar m_m 1), .readRange m_m 0 2 .raw]
    outs (step Char.isAlphanum) [] calls =
        [.outcome .inserted, .outcome .unchanged, .series (.error .foreignIdentity)] ∧
      outs (step Char.isAlphanum) [] calls ≠ outs BarMap.step [] calls := by
  decide +kernel

end FileHistoricalBarStore

end ApexScan.MarketHistory
