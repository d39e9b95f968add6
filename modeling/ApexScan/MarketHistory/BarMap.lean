import ApexScan.Lib.Ranking
import ApexScan.MarketHistory.Store

/-!
# The store as a map

What the store of daily bars is for: a map from instrument, adjustment and trading date to the first
bar inserted there.

* `BarMap.step` — the five calls on the map; a batch is its bars upserted one by one.
* `BarMap.upsertMany_of_regrouped` — a batch gives the same counts and the same map for every order
  of its bars that leaves each instrument and adjustment in order.
* `BarMap.step_ok` — a map answers every read with a series.
-/

set_option autoImplicit false

namespace ApexScan.MarketHistory

open Lib FileHistoricalBarStore

/-! ## The map -/

/-- Instrument, adjustment and trading date. -/
abbrev BarKey := InstrumentIdentity × PriceAdjustment × Int

def keyOf (bar : HistoricalDailyBar) : BarKey :=
  (bar.instrumentIdentity, bar.adjustment, bar.tradingDate)

abbrev BarMap := Dict BarKey HistoricalDailyBar

namespace BarMap

/-- The first bar of a key stays. -/
def upsert (m : BarMap) (bar : HistoricalDailyBar) : BarMap × UpsertOutcome :=
  match m.get (keyOf bar) with
  | some prior => (m, storedOutcome prior bar)
  | none => (m.set (keyOf bar) bar, .inserted)

def upsertEach (acc : BarMap × Counts) (bar : HistoricalDailyBar) : BarMap × Counts :=
  ((upsert acc.1 bar).1, acc.2.add (upsert acc.1 bar).2)

/-- The bars one by one. -/
def upsertMany (m : BarMap) (bars : List HistoricalDailyBar) : BarMap × Counts :=
  bars.foldl upsertEach (m, {})

/-- The bars of an instrument and adjustment in the order of their dates. -/
def barsOf (m : BarMap) (instrumentIdentity : InstrumentIdentity) (adjustment : PriceAdjustment) :
    List HistoricalDailyBar :=
  sortBy (·.tradingDate) <|
    (m.map (·.2)).filter fun bar => groupKey bar = (instrumentIdentity, adjustment)

def step (m : BarMap) : Call → BarMap × Answer
  | .upsert bar => ((upsert m bar).1, .outcome (upsert m bar).2)
  | .upsertMany bars => ((upsertMany m bars).1, .counts (upsertMany m bars).2)
  | .readRange instrumentIdentity start stop adjustment =>
    (m, .series <| validateSeries instrumentIdentity adjustment <|
      (barsOf m instrumentIdentity adjustment).filter fun bar =>
        start ≤ bar.tradingDate ∧ bar.tradingDate ≤ stop)
  | .readLastN instrumentIdentity asOf n adjustment =>
    (m, .series <| validateSeries instrumentIdentity adjustment <|
      lastN n <| (barsOf m instrumentIdentity adjustment).filter fun bar => bar.tradingDate ≤ asOf)
  | .availableDates instrumentIdentity adjustment =>
    (m, .dates ((barsOf m instrumentIdentity adjustment).map (·.tradingDate)))

/-- A map that keeps each bar under its key. -/
structure Keyed (m : BarMap) : Prop where
  nodup : (m.map (·.1)).Nodup
  key_eq : ∀ key bar, m.get key = some bar → keyOf bar = key

theorem keyed_nil : Keyed [] where
  nodup := List.nodup_nil
  key_eq _ _ h := by cases h

theorem Keyed.upsert {m : BarMap} (h : Keyed m) (bar : HistoricalDailyBar) : Keyed (upsert m bar).1 := by
  unfold BarMap.upsert
  split
  · exact h
  · refine ⟨Dict.nodup_keys_set h.nodup _ _, fun key b hb => ?_⟩
    rw [Dict.get_set] at hb
    split at hb
    · cases hb
      assumption
    · exact h.key_eq key b hb

theorem keyed_upsertMany {m : BarMap} (h : Keyed m) (bars : List HistoricalDailyBar) :
    Keyed (upsertMany m bars).1 := by
  have hfold (acc : BarMap × Counts) (hacc : Keyed acc.1) : Keyed (bars.foldl upsertEach acc).1 := by
    induction bars generalizing acc with
    | nil => exact hacc
    | cons bar bars ih => exact ih _ (hacc.upsert bar)
  exact hfold _ h

theorem Keyed.mem_values {m : BarMap} (h : Keyed m) {bar : HistoricalDailyBar} :
    bar ∈ m.map (·.2) ↔ m.get (keyOf bar) = some bar := by
  rw [List.mem_map]
  constructor
  · rintro ⟨⟨key, b⟩, hmem, rfl⟩
    have hget := (Dict.mem_iff_get h.nodup key b).mp hmem
    simpa [h.key_eq key b hget] using hget
  · intro hget
    exact ⟨_, (Dict.mem_iff_get h.nodup _ _).mpr hget, rfl⟩

theorem Keyed.nodup_values {m : BarMap} (h : Keyed m) : (m.map (·.2)).Nodup := by
  apply List.Nodup.of_map keyOf
  have hkeys : (m.map (·.2)).map keyOf = m.map (·.1) := by
    rw [List.map_map]
    apply List.map_congr_left
    rintro ⟨key, bar⟩ hmem
    exact h.key_eq key bar ((Dict.mem_iff_get h.nodup key bar).mp hmem)
  rw [hkeys]
  exact h.nodup

theorem Keyed.mem_barsOf {m : BarMap} (h : Keyed m) {identity : InstrumentIdentity}
    {adjustment : PriceAdjustment} {bar : HistoricalDailyBar} :
    bar ∈ barsOf m identity adjustment ↔
      m.get (keyOf bar) = some bar ∧ groupKey bar = (identity, adjustment) := by
  simp [barsOf, ← h.mem_values]

theorem Keyed.ascending_barsOf {m : BarMap} (h : Keyed m) (identity : InstrumentIdentity)
    (adjustment : PriceAdjustment) : Ascending (barsOf m identity adjustment) := by
  apply pairwise_lt_sortBy (h.nodup_values.filter _)
  intro a ha b hb hdate
  rw [List.mem_filter, h.mem_values] at ha hb
  have hgroup : groupKey a = groupKey b := by
    have := ha.2
    have := hb.2
    simp_all
  have hkey : keyOf a = keyOf b := by
    simp only [groupKey, Prod.mk.injEq] at hgroup
    simp [keyOf, hgroup, hdate]
  rw [hkey] at ha
  exact Option.some.inj (ha.1.symm.trans hb.1)

theorem lastN_sublist {α : Type} (n : Int) (xs : List α) : (lastN n xs).Sublist xs := by
  unfold lastN
  split
  · exact List.nil_sublist xs
  · split <;> exact List.drop_sublist _ _

theorem validateSeries_of_sublist {m : BarMap} (h : Keyed m) {identity : InstrumentIdentity}
    {adjustment : PriceAdjustment} {bars : List HistoricalDailyBar}
    (hsub : bars.Sublist (barsOf m identity adjustment)) :
    ∃ series, validateSeries identity adjustment bars = .ok series ∧ series.bars = bars := by
  apply validateSeries_eq_ok ((h.ascending_barsOf identity adjustment).sublist hsub)
  intro bar hbar
  have hgroup := (h.mem_barsOf.mp (hsub.mem hbar)).2
  simpa [groupKey] using hgroup

/-- A map answers every read with a series. -/
theorem step_ok {m : BarMap} (h : Keyed m) (call : Call) (e : SeriesError) :
    (step m call).2 ≠ .series (.error e) := by
  have hvalid (identity : InstrumentIdentity) (adjustment : PriceAdjustment)
      (bars : List HistoricalDailyBar) (hsub : bars.Sublist (barsOf m identity adjustment)) :
      validateSeries identity adjustment bars ≠ .error e := by
    obtain ⟨series, hok, -⟩ := validateSeries_of_sublist h hsub
    simp [hok]
  cases call with
  | upsert bar => simp [step]
  | upsertMany bars => simp [step]
  | readRange identity start stop adjustment =>
    simpa [step] using hvalid _ _ _ List.filter_sublist
  | readLastN identity asOf n adjustment =>
    simpa [step] using hvalid _ _ _ ((lastN_sublist _ _).trans List.filter_sublist)
  | availableDates identity adjustment => simp [step]

/-! ## The order of a batch -/

/-- The bar differs from the one that the map keeps. -/
def conflicts (m : BarMap) (bar : HistoricalDailyBar) : Bool :=
  match m.get (keyOf bar) with
  | some prior => !prior.hasSameValues bar
  | none => false

theorem get_upsert (m : BarMap) (bar : HistoricalDailyBar) (key : BarKey) :
    (upsert m bar).1.get key = (m.get key).or (if keyOf bar = key then some bar else none) := by
  unfold upsert
  by_cases hkey : keyOf bar = key
  · subst hkey
    cases h : m.get (keyOf bar) with
    | some prior => simp [h]
    | none => simp
  · cases h : m.get (keyOf bar) with
    | some prior => simp [hkey]
    | none => simp [hkey, Dict.get_set_ne]

theorem get_foldl (bars : List HistoricalDailyBar) (acc : BarMap × Counts) (key : BarKey) :
    (bars.foldl upsertEach acc).1.get key =
      (acc.1.get key).or (bars.find? fun bar => keyOf bar = key) := by
  induction bars generalizing acc with
  | nil => simp
  | cons bar bars ih =>
    rw [List.foldl_cons, ih, upsertEach, get_upsert, Option.or_assoc, List.find?_cons]
    by_cases hkey : keyOf bar = key <;> simp [hkey]

theorem hasSameValues_self (bar : HistoricalDailyBar) : bar.hasSameValues bar = true := by
  simp [HistoricalDailyBar.hasSameValues]

/-- The counts of a batch in terms of the map after it. -/
theorem counts_foldl (bars : List HistoricalDailyBar) (acc : BarMap × Counts) :
    let result := bars.foldl upsertEach acc
    result.2.inserted + acc.1.length = acc.2.inserted + result.1.length ∧
      result.2.conflict = acc.2.conflict + bars.countP (conflicts result.1) ∧
      result.2.inserted + result.2.unchanged + result.2.conflict =
        acc.2.inserted + acc.2.unchanged + acc.2.conflict + bars.length := by
  induction bars generalizing acc with
  | nil => simp
  | cons bar bars ih =>
    obtain ⟨hins, hconf, htotal⟩ := ih (upsertEach acc bar)
    simp only [List.foldl_cons, List.countP_cons, List.length_cons]
    -- the bar that is kept under the key of `bar` does not change any more
    have hkept : (bars.foldl upsertEach (upsertEach acc bar)).1.get (keyOf bar) =
        some ((acc.1.get (keyOf bar)).getD bar) := by
      rw [get_foldl, upsertEach, get_upsert]
      cases acc.1.get (keyOf bar) <;> simp
    have hconflict : conflicts (bars.foldl upsertEach (upsertEach acc bar)).1 bar =
        !((acc.1.get (keyOf bar)).getD bar).hasSameValues bar := by
      simp [conflicts, hkept]
    have hlength : (upsertEach acc bar).1.length =
        acc.1.length + if (acc.1.get (keyOf bar)).isSome then 0 else 1 := by
      simp only [upsertEach, upsert]
      cases hget : acc.1.get (keyOf bar) with
      | some prior => simp
      | none => simp [Dict.set_of_get_eq_none hget]
    have hcounts : (upsertEach acc bar).2 =
        acc.2.add (match acc.1.get (keyOf bar) with
          | some prior => storedOutcome prior bar
          | none => .inserted) := by
      simp only [upsertEach, upsert]
      cases acc.1.get (keyOf bar) <;> rfl
    rw [hlength, hcounts] at hins
    rw [hcounts] at hconf htotal
    rw [hconflict]
    generalize bars.foldl upsertEach (upsertEach acc bar) = result at hins hconf htotal ⊢
    cases hget : acc.1.get (keyOf bar) with
    | some prior =>
      simp only [hget, storedOutcome, Option.getD_some, Option.isSome_some] at hins hconf htotal ⊢
      obtain hsame | hsame := Bool.eq_false_or_eq_true (prior.hasSameValues bar)
      · simp [hsame, Counts.add] at hins hconf htotal ⊢
        omega
      · simp [hsame, Counts.add] at hins hconf htotal ⊢
        omega
    | none =>
      simp only [hget, Option.getD_none, hasSameValues_self, Option.isSome_none] at hins hconf htotal ⊢
      simp [Counts.add] at hins hconf htotal ⊢
      omega

/-- **A batch gives the same map and counts in every order that keeps each instrument and adjustment in
    order.** -/
theorem upsertMany_of_regrouped {m : BarMap} (hm : Keyed m) {xs ys : List HistoricalDailyBar}
    (hperm : xs.Perm ys)
    (hgroups : ∀ key, (xs.filter fun bar => groupKey bar = key) = ys.filter fun bar => groupKey bar = key) :
    (∀ key, (upsertMany m xs).1.get key = (upsertMany m ys).1.get key) ∧
      (upsertMany m xs).2 = (upsertMany m ys).2 := by
  have hfind (key : BarKey) (bars : List HistoricalDailyBar) :
      (bars.find? fun bar => keyOf bar = key) =
        (bars.filter fun bar => groupKey bar = (key.1, key.2.1)).find? fun bar => keyOf bar = key := by
    rw [List.find?_filter]
    congr 1
    funext bar
    by_cases h : keyOf bar = key
    · subst h
      simp [groupKey, keyOf]
    · simp [h]
  have hget (key : BarKey) : (upsertMany m xs).1.get key = (upsertMany m ys).1.get key := by
    rw [upsertMany, upsertMany, get_foldl, get_foldl, hfind, hfind key ys, hgroups]
  have hlength : (upsertMany m xs).1.length = (upsertMany m ys).1.length :=
    (Dict.perm_of_get_eq (keyed_upsertMany hm xs).nodup (keyed_upsertMany hm ys).nodup hget).length_eq
  have hconflicts : xs.countP (conflicts (upsertMany m xs).1) =
      ys.countP (conflicts (upsertMany m ys).1) := by
    have hsame : conflicts (upsertMany m xs).1 = conflicts (upsertMany m ys).1 := by
      funext bar
      simp [conflicts, hget]
    rw [hsame]
    exact hperm.countP_eq _
  refine ⟨hget, ?_⟩
  obtain ⟨hins, hconf, htotal⟩ := counts_foldl xs (m, {})
  obtain ⟨hins', hconf', htotal'⟩ := counts_foldl ys (m, {})
  have hlen := hperm.length_eq
  simp only [← upsertMany.eq_def] at hins hins' hconf hconf' htotal htotal'
  have hi : (upsertMany m xs).2.inserted = (upsertMany m ys).2.inserted := by omega
  have hc : (upsertMany m xs).2.conflict = (upsertMany m ys).2.conflict := by omega
  have hu : (upsertMany m xs).2.unchanged = (upsertMany m ys).2.unchanged := by omega
  cases h : (upsertMany m xs).2
  cases h' : (upsertMany m ys).2
  simp_all

end BarMap

end ApexScan.MarketHistory
