import ApexScan.Lib.Machine
import ApexScan.Lib.Sorting
import ApexScan.MarketHistory.Models

/-!
# The file store of daily bars (`app/market_history/store.py`)

One JSON file for each instrument and adjustment, under a name in which every character that is not
alphanumeric is replaced.  What is alphanumeric is Python's `str.isalnum`, a parameter here.

* `FileHistoricalBarStore.step` — the five calls of the store on the files.
* `ordered`, `byDate` — the list of a file and the dictionary of a call; each gives the other back.
* `upsert_spec` — what one upsert does, in terms of the bars that the files hold.
* `upsertMany_eq` — a batch is its bars upserted one by one, group by group.

A dump and load of bars is the identity, and the file system takes every name.
-/

set_option autoImplicit false

namespace ApexScan.MarketHistory

open Lib

inductive UpsertOutcome where
  | inserted
  | unchanged
  | conflict
  deriving DecidableEq, Repr

/-- The counts of `upsert_many`, one for each outcome. -/
structure Counts where
  inserted : ℕ := 0
  unchanged : ℕ := 0
  conflict : ℕ := 0
  deriving DecidableEq

def Counts.add (counts : Counts) : UpsertOutcome → Counts
  | .inserted => { counts with inserted := counts.inserted + 1 }
  | .unchanged => { counts with unchanged := counts.unchanged + 1 }
  | .conflict => { counts with conflict := counts.conflict + 1 }

/-- A sequence of upserts on any store, counted. -/
theorem foldl_counted {σ : Type} (upsert : σ → HistoricalDailyBar → σ × UpsertOutcome)
    (bars : List HistoricalDailyBar) (acc : σ × Counts) :
    bars.foldl (fun acc bar => ((upsert acc.1 bar).1, acc.2.add (upsert acc.1 bar).2)) acc =
      (run upsert acc.1 bars, (outs upsert acc.1 bars).foldl Counts.add acc.2) := by
  induction bars generalizing acc with
  | nil => rfl
  | cons bar bars ih => exact ih _

theorem inserted_foldl_add (outcomes : List UpsertOutcome) (counts : Counts) :
    (outcomes.foldl Counts.add counts).inserted = counts.inserted + outcomes.count .inserted := by
  induction outcomes generalizing counts with
  | nil => rfl
  | cons o outcomes ih =>
    rw [List.foldl_cons, ih, List.count_cons]
    cases o <;> simp [Counts.add]
    omega

/-- The outcome for a bar that is already stored. -/
def storedOutcome (prior bar : HistoricalDailyBar) : UpsertOutcome :=
  if prior.hasSameValues bar then .unchanged else .conflict

/-- `xs[-n:] if n else ()`. -/
def lastN {α : Type} (n : Int) (xs : List α) : List α :=
  if n = 0 then []
  else if 0 < n then xs.drop (xs.length - n.toNat)
  else xs.drop (-n).toNat

inductive Call where
  | upsert (bar : HistoricalDailyBar)
  | upsertMany (bars : List HistoricalDailyBar)
  | readRange (instrumentIdentity : InstrumentIdentity) (start stop : Int)
      (adjustment : PriceAdjustment)
  | readLastN (instrumentIdentity : InstrumentIdentity) (asOf : Int) (n : Int)
      (adjustment : PriceAdjustment)
  | availableDates (instrumentIdentity : InstrumentIdentity) (adjustment : PriceAdjustment)

inductive Answer where
  | outcome (o : UpsertOutcome)
  | counts (c : Counts)
  | series (s : Except SeriesError HistoricalSeries)
  | dates (ds : List Int)
  deriving DecidableEq

/-- The JSON files by name. -/
abbrev Files := Dict String (List HistoricalDailyBar)

/-- `{bar.trading_date: bar for bar in bars}`. -/
def byDate (bars : List HistoricalDailyBar) : Dict Int HistoricalDailyBar :=
  bars.foldl (fun d bar => d.set bar.tradingDate bar) []

/-- `[by_date[key] for key in sorted(by_date)]`. -/
def ordered (d : Dict Int HistoricalDailyBar) : List HistoricalDailyBar :=
  (sortBy id (d.map (·.1))).filterMap d.get

namespace FileHistoricalBarStore

variable (isalnum : Char → Bool)

def safe (instrumentIdentity : InstrumentIdentity) : String :=
  String.ofList <| instrumentIdentity.text.toList.map fun c =>
    if isalnum c || c = '.' || c = '_' || c = '-' then c else '_'

/-- `_path`, under the root. -/
def path (instrumentIdentity : InstrumentIdentity) (adjustment : PriceAdjustment) : String :=
  safe isalnum instrumentIdentity ++ "__" ++ adjustment.value ++ ".json"

/-- `_load`. -/
def load (files : Files) (instrumentIdentity : InstrumentIdentity) (adjustment : PriceAdjustment) :
    List HistoricalDailyBar :=
  match files.get (path isalnum instrumentIdentity adjustment) with
  | none => []
  | some bars => sortBy (·.tradingDate) bars

/-- `_write`. -/
def write (files : Files) (instrumentIdentity : InstrumentIdentity) (adjustment : PriceAdjustment)
    (d : Dict Int HistoricalDailyBar) : Files :=
  files.set (path isalnum instrumentIdentity adjustment) (ordered d)

def upsert (files : Files) (bar : HistoricalDailyBar) : Files × UpsertOutcome :=
  let d := byDate (load isalnum files bar.instrumentIdentity bar.adjustment)
  match d.get bar.tradingDate with
  | some prior => (files, storedOutcome prior bar)
  | none =>
    (write isalnum files bar.instrumentIdentity bar.adjustment (d.set bar.tradingDate bar), .inserted)

/-- One bar of a group: `by_date`, `dirty` and the counts. -/
def upsertInGroup (st : Dict Int HistoricalDailyBar × Bool × Counts) (bar : HistoricalDailyBar) :
    Dict Int HistoricalDailyBar × Bool × Counts :=
  match st.1.get bar.tradingDate with
  | none => (st.1.set bar.tradingDate bar, true, st.2.2.add .inserted)
  | some prior => (st.1, st.2.1, st.2.2.add (storedOutcome prior bar))

/-- One group of a batch. -/
def upsertGroup (acc : Files × Counts)
    (group : (InstrumentIdentity × PriceAdjustment) × List HistoricalDailyBar) : Files × Counts :=
  let result := group.2.foldl upsertInGroup
    (byDate (load isalnum acc.1 group.1.1 group.1.2), false, acc.2)
  (if result.2.1 then write isalnum acc.1 group.1.1 group.1.2 result.1 else acc.1, result.2.2)

/-- `(bar.instrument_identity, bar.adjustment)`. -/
def groupKey (bar : HistoricalDailyBar) : InstrumentIdentity × PriceAdjustment :=
  (bar.instrumentIdentity, bar.adjustment)

def upsertMany (files : Files) (bars : List HistoricalDailyBar) : Files × Counts :=
  (groupedBy groupKey bars).foldl (upsertGroup isalnum) (files, {})

def readRange (files : Files) (instrumentIdentity : InstrumentIdentity) (start stop : Int)
    (adjustment : PriceAdjustment) : Except SeriesError HistoricalSeries :=
  validateSeries instrumentIdentity adjustment <|
    (load isalnum files instrumentIdentity adjustment).filter fun bar =>
      start ≤ bar.tradingDate ∧ bar.tradingDate ≤ stop

def readLastN (files : Files) (instrumentIdentity : InstrumentIdentity) (asOf : Int) (n : Int)
    (adjustment : PriceAdjustment) : Except SeriesError HistoricalSeries :=
  let eligible := (load isalnum files instrumentIdentity adjustment).filter fun bar =>
    bar.tradingDate ≤ asOf
  validateSeries instrumentIdentity adjustment (lastN n eligible)

def availableDates (files : Files) (instrumentIdentity : InstrumentIdentity)
    (adjustment : PriceAdjustment) : List Int :=
  (load isalnum files instrumentIdentity adjustment).map (·.tradingDate)

/-- A call and its answer. -/
def step (files : Files) : Call → Files × Answer
  | .upsert bar =>
    let result := upsert isalnum files bar
    (result.1, .outcome result.2)
  | .upsertMany bars =>
    let result := upsertMany isalnum files bars
    (result.1, .counts result.2)
  | .readRange instrumentIdentity start stop adjustment =>
    (files, .series (readRange isalnum files instrumentIdentity start stop adjustment))
  | .readLastN instrumentIdentity asOf n adjustment =>
    (files, .series (readLastN isalnum files instrumentIdentity asOf n adjustment))
  | .availableDates instrumentIdentity adjustment =>
    (files, .dates (availableDates isalnum files instrumentIdentity adjustment))

end FileHistoricalBarStore

/-! ## Files and dictionaries -/

/-- A dictionary that keeps each bar under its date. -/
structure Keyed (d : Dict Int HistoricalDailyBar) : Prop where
  nodup : (d.map (·.1)).Nodup
  date_eq : ∀ date bar, d.get date = some bar → bar.tradingDate = date

/-- The order of the bars in a file. -/
def Ascending (bars : List HistoricalDailyBar) : Prop :=
  bars.Pairwise fun a b => a.tradingDate < b.tradingDate

theorem keyed_nil : Keyed [] where
  nodup := List.nodup_nil
  date_eq _ _ h := by cases h

theorem Keyed.set {d : Dict Int HistoricalDailyBar} (h : Keyed d) (bar : HistoricalDailyBar) :
    Keyed (d.set bar.tradingDate bar) where
  nodup := Dict.nodup_keys_set h.nodup _ _
  date_eq date b hb := by
    rw [Dict.get_set] at hb
    split at hb
    · cases hb
      assumption
    · exact h.date_eq date b hb

theorem keyed_byDate (bars : List HistoricalDailyBar) : Keyed (byDate bars) := by
  unfold byDate
  induction bars using List.reverseRecOn with
  | nil => exact keyed_nil
  | append_singleton bars bar ih =>
    rw [List.foldl_concat]
    exact ih.set bar

theorem mem_ordered {d : Dict Int HistoricalDailyBar} (h : Keyed d) {bar : HistoricalDailyBar} :
    bar ∈ ordered d ↔ d.get bar.tradingDate = some bar := by
  simp only [ordered, List.mem_filterMap, mem_sortBy, Dict.mem_keys_iff]
  constructor
  · rintro ⟨date, -, hget⟩
    rwa [h.date_eq date bar hget]
  · intro hget
    exact ⟨bar.tradingDate, by simp [hget], hget⟩

theorem ascending_ordered {d : Dict Int HistoricalDailyBar} (h : Keyed d) : Ascending (ordered d) := by
  have hdates : (sortBy id (d.map (·.1))).Pairwise fun a b : Int => a < b :=
    pairwise_lt_sortBy h.nodup fun _ _ _ _ hab => hab
  refine List.Pairwise.filterMap _ (fun date date' hlt bar hbar bar' hbar' => ?_) hdates
  rw [h.date_eq date bar hbar, h.date_eq date' bar' hbar']
  exact hlt

/-- Dictionaries of the same entries make the same file. -/
theorem ordered_congr {d d' : Dict Int HistoricalDailyBar} (h : Keyed d) (h' : Keyed d')
    (hget : ∀ date, d.get date = d'.get date) : ordered d = ordered d' := by
  refine eq_of_pairwise_lt (ascending_ordered h) (ascending_ordered h') fun bar => ?_
  rw [mem_ordered h, mem_ordered h', hget]

theorem get_byDate {bars : List HistoricalDailyBar} (h : Ascending bars) {date : Int}
    {bar : HistoricalDailyBar} :
    (byDate bars).get date = some bar ↔ bar ∈ bars ∧ bar.tradingDate = date := by
  unfold byDate
  induction bars using List.reverseRecOn with
  | nil => simp
  | append_singleton bars b ih =>
    obtain ⟨hbars, -, hlt⟩ := List.pairwise_append.mp h
    rw [List.foldl_concat, Dict.get_set]
    by_cases hdate : b.tradingDate = date
    · rw [if_pos hdate, Option.some.injEq, List.mem_append, List.mem_singleton]
      constructor
      · rintro rfl
        exact ⟨.inr rfl, hdate⟩
      · rintro ⟨hmem | hmem, hbar⟩
        · have := hlt bar hmem b List.mem_cons_self
          omega
        · exact hmem.symm
    · rw [if_neg hdate, ih hbars, List.mem_append, List.mem_singleton]
      constructor
      · rintro ⟨hmem, hbar⟩
        exact ⟨.inl hmem, hbar⟩
      · rintro ⟨hmem | hmem, hbar⟩
        · exact ⟨hmem, hbar⟩
        · exact absurd (hmem ▸ hbar) hdate

/-- The dictionary of a written file is the one it was written from. -/
theorem get_byDate_ordered {d : Dict Int HistoricalDailyBar} (h : Keyed d) (date : Int) :
    (byDate (ordered d)).get date = d.get date := by
  have hiff (bar : HistoricalDailyBar) :
      (byDate (ordered d)).get date = some bar ↔ d.get date = some bar := by
    rw [get_byDate (ascending_ordered h), mem_ordered h]
    constructor
    · rintro ⟨hget, rfl⟩
      exact hget
    · intro hget
      rw [h.date_eq date bar hget]
      exact ⟨hget, rfl⟩
  exact Option.ext hiff

theorem ordered_byDate {bars : List HistoricalDailyBar} (h : Ascending bars) :
    ordered (byDate bars) = bars := by
  refine eq_of_pairwise_lt (ascending_ordered (keyed_byDate bars)) h fun bar => ?_
  rw [mem_ordered (keyed_byDate bars), get_byDate h]
  simp

/-- A bar is in the file of that name. -/
def Stored (files : Files) (name : String) (bar : HistoricalDailyBar) : Prop :=
  ∃ bars, files.get name = some bars ∧ bar ∈ bars

/-- Every file is in the order of the dates. -/
def FilesAscending (files : Files) : Prop := ∀ name bars, files.get name = some bars → Ascending bars

namespace FileHistoricalBarStore

variable {isalnum : Char → Bool}

/-- The file of a bar. -/
def pathOf (isalnum : Char → Bool) (bar : HistoricalDailyBar) : String :=
  path isalnum bar.instrumentIdentity bar.adjustment

theorem path_eq_iff {identity identity' : InstrumentIdentity} {adjustment adjustment' : PriceAdjustment} :
    path isalnum identity adjustment = path isalnum identity' adjustment' ↔
      safe isalnum identity = safe isalnum identity' ∧ adjustment = adjustment' := by
  constructor
  · intro h
    have hchars := congrArg String.toList h
    have hadj : adjustment = adjustment' := by
      -- the sixth character from the end
      have hend := congrArg (fun cs => cs.reverse[5]?) hchars
      cases adjustment <;> cases adjustment' <;>
        simp [path, PriceAdjustment.value, String.toList_append] at hend ⊢
    subst hadj
    refine ⟨?_, rfl⟩
    simp only [path, String.toList_append, List.append_assoc, List.append_cancel_right_eq] at hchars
    exact String.toList_inj.mp hchars
  · rintro ⟨hsafe, rfl⟩
    simp [path, hsafe]

theorem mem_load {files : Files} {identity : InstrumentIdentity} {adjustment : PriceAdjustment}
    {bar : HistoricalDailyBar} :
    bar ∈ load isalnum files identity adjustment ↔
      Stored files (path isalnum identity adjustment) bar := by
  unfold load Stored
  cases files.get (path isalnum identity adjustment) with
  | none => simp
  | some bars => simp

theorem ascending_load (isalnum : Char → Bool) {files : Files} (h : FilesAscending files)
    (identity : InstrumentIdentity) (adjustment : PriceAdjustment) :
    Ascending (load isalnum files identity adjustment) := by
  unfold load
  split
  · exact List.Pairwise.nil
  next bars hbars =>
    have hascending := h _ bars hbars
    rw [sortBy_eq_self (hascending.imp le_of_lt)]
    exact hascending

theorem load_write {files : Files} {identity : InstrumentIdentity} {adjustment : PriceAdjustment}
    {d : Dict Int HistoricalDailyBar} (h : Keyed d) :
    load isalnum (write isalnum files identity adjustment d) identity adjustment = ordered d := by
  unfold load write
  rw [Dict.get_set_self]
  exact sortBy_eq_self ((ascending_ordered h).imp le_of_lt)

theorem filesAscending_write {files : Files} (hfiles : FilesAscending files)
    {identity : InstrumentIdentity} {adjustment : PriceAdjustment} {d : Dict Int HistoricalDailyBar}
    (h : Keyed d) : FilesAscending (write isalnum files identity adjustment d) := by
  intro name bars hbars
  rw [write, Dict.get_set] at hbars
  split at hbars
  · cases hbars
    exact ascending_ordered h
  · exact hfiles name bars hbars

/-- One upsert: the bar of its date in its file decides, and only where there is none it is added. -/
theorem upsert_spec (isalnum : Char → Bool) {files : Files} (hfiles : FilesAscending files)
    (bar : HistoricalDailyBar) :
    (∃ prior, Stored files (pathOf isalnum bar) prior ∧ prior.tradingDate = bar.tradingDate ∧
        upsert isalnum files bar = (files, storedOutcome prior bar)) ∨
      (∀ b, Stored files (pathOf isalnum bar) b → b.tradingDate ≠ bar.tradingDate) ∧
        (upsert isalnum files bar).2 = .inserted ∧ FilesAscending (upsert isalnum files bar).1 ∧
        ∀ name b, Stored (upsert isalnum files bar).1 name b ↔
          Stored files name b ∨ name = pathOf isalnum bar ∧ b = bar := by
  have hload := ascending_load isalnum hfiles bar.instrumentIdentity bar.adjustment
  have hkeyed := keyed_byDate (load isalnum files bar.instrumentIdentity bar.adjustment)
  have hget (b : HistoricalDailyBar) :
      (byDate (load isalnum files bar.instrumentIdentity bar.adjustment)).get bar.tradingDate = some b ↔
        Stored files (pathOf isalnum bar) b ∧ b.tradingDate = bar.tradingDate := by
    rw [get_byDate hload, mem_load, pathOf]
  simp only [upsert]
  cases hprior : (byDate (load isalnum files bar.instrumentIdentity bar.adjustment)).get
      bar.tradingDate with
  | some prior =>
    obtain ⟨hstored, hdate⟩ := (hget prior).mp hprior
    exact .inl ⟨prior, hstored, hdate, rfl⟩
  | none =>
    refine .inr ⟨fun b hb hdate => ?_, rfl, filesAscending_write hfiles (hkeyed.set bar), ?_⟩
    · have := (hget b).mpr ⟨hb, hdate⟩
      simp [hprior] at this
    · intro name b
      unfold Stored write
      rw [Dict.get_set]
      by_cases hname : path isalnum bar.instrumentIdentity bar.adjustment = name
      · subst hname
        have hmem : b ∈ ordered (Dict.set
            (byDate (load isalnum files bar.instrumentIdentity bar.adjustment)) bar.tradingDate bar) ↔
            Stored files (pathOf isalnum bar) b ∨ b = bar := by
          rw [mem_ordered (hkeyed.set bar), Dict.get_set]
          by_cases hdate : bar.tradingDate = b.tradingDate
          · rw [if_pos hdate, Option.some.injEq]
            constructor
            · rintro rfl
              exact .inr rfl
            · rintro (hb | rfl)
              · have := (hget b).mpr ⟨hb, hdate.symm⟩
                simp [hprior] at this
              · rfl
          · rw [if_neg hdate, get_byDate hload, mem_load, pathOf]
            constructor
            · rintro ⟨hb, -⟩
              exact .inl hb
            · rintro (hb | rfl)
              · exact ⟨hb, rfl⟩
              · exact absurd rfl hdate
        simpa [pathOf, Stored] using hmem
      · have hname' : name ≠ pathOf isalnum bar := fun h => hname h.symm
        simp [hname, hname']

/-! ## Batches -/

/-- One upsert of a sequence, counted. -/
def upsertEach (isalnum : Char → Bool) (acc : Files × Counts) (bar : HistoricalDailyBar) :
    Files × Counts :=
  ((upsert isalnum acc.1 bar).1, acc.2.add (upsert isalnum acc.1 bar).2)

/-- The loop over a group and the upserts one by one: the dictionary is the file, written or not. -/
structure InStep (isalnum : Char → Bool) (key : InstrumentIdentity × PriceAdjustment) (files : Files)
    (st : Dict Int HistoricalDailyBar × Bool × Counts) (acc : Files × Counts) : Prop where
  keyed : Keyed st.1
  load_eq : load isalnum acc.1 key.1 key.2 = ordered st.1
  files_eq : acc.1 = if st.2.1 then write isalnum files key.1 key.2 st.1 else files
  counts_eq : acc.2 = st.2.2

theorem InStep.next {key : InstrumentIdentity × PriceAdjustment} {files : Files}
    {st : Dict Int HistoricalDailyBar × Bool × Counts} {acc : Files × Counts}
    (h : InStep isalnum key files st acc) {bar : HistoricalDailyBar} (hbar : groupKey bar = key) :
    InStep isalnum key files (upsertInGroup st bar) (upsertEach isalnum acc bar) := by
  subst hbar
  have hload : load isalnum acc.1 bar.instrumentIdentity bar.adjustment = ordered st.1 := h.load_eq
  have hget := get_byDate_ordered h.keyed
  simp only [upsertInGroup, upsertEach, upsert, hload, hget, h.counts_eq]
  cases st.1.get bar.tradingDate with
  | some prior => exact ⟨h.keyed, h.load_eq, h.files_eq, rfl⟩
  | none =>
    have hordered : ordered ((byDate (ordered st.1)).set bar.tradingDate bar) =
        ordered (st.1.set bar.tradingDate bar) := by
      refine ordered_congr ((keyed_byDate _).set bar) (h.keyed.set bar) fun date => ?_
      rw [Dict.get_set, Dict.get_set, hget]
    have hwrite : write isalnum acc.1 bar.instrumentIdentity bar.adjustment
        ((byDate (ordered st.1)).set bar.tradingDate bar) =
          write isalnum files bar.instrumentIdentity bar.adjustment (st.1.set bar.tradingDate bar) := by
      rw [h.files_eq]
      unfold write
      rw [hordered]
      split
      · exact Dict.set_set _ _ _ _
      · rfl
    refine ⟨h.keyed.set bar, ?_, hwrite, rfl⟩
    simp only [hwrite]
    exact load_write (h.keyed.set bar)

/-- A group is its bars upserted one by one. -/
theorem upsertGroup_eq {acc : Files × Counts} (hfiles : FilesAscending acc.1)
    {group : (InstrumentIdentity × PriceAdjustment) × List HistoricalDailyBar}
    (hgroup : ∀ bar ∈ group.2, groupKey bar = group.1) :
    upsertGroup isalnum acc group = group.2.foldl (upsertEach isalnum) acc := by
  have hfold (bars : List HistoricalDailyBar) (hbars : ∀ bar ∈ bars, groupKey bar = group.1) :
      ∀ st acc', InStep isalnum group.1 acc.1 st acc' →
        InStep isalnum group.1 acc.1 (bars.foldl upsertInGroup st)
          (bars.foldl (upsertEach isalnum) acc') := by
    induction bars with
    | nil => exact fun _ _ h => h
    | cons bar bars ih =>
      intro st acc' h
      exact ih (fun b hb => hbars b (List.mem_cons_of_mem _ hb)) _ _
        (h.next (hbars bar List.mem_cons_self))
  have hend := hfold group.2 hgroup
    (byDate (load isalnum acc.1 group.1.1 group.1.2), false, acc.2) acc
    ⟨keyed_byDate _, (ordered_byDate (ascending_load isalnum hfiles _ _)).symm, rfl, rfl⟩
  exact Prod.ext hend.files_eq.symm hend.counts_eq.symm

theorem filesAscending_upsert {files : Files} (hfiles : FilesAscending files) (bar : HistoricalDailyBar) :
    FilesAscending (upsert isalnum files bar).1 := by
  obtain ⟨prior, -, -, heq⟩ | ⟨-, -, hnext, -⟩ := upsert_spec isalnum hfiles bar
  · rw [heq]
    exact hfiles
  · exact hnext

theorem filesAscending_foldl {bars : List HistoricalDailyBar} {acc : Files × Counts}
    (hfiles : FilesAscending acc.1) : FilesAscending (bars.foldl (upsertEach isalnum) acc).1 := by
  induction bars generalizing acc with
  | nil => exact hfiles
  | cons bar bars ih => exact ih (filesAscending_upsert hfiles bar)

/-- **A batch is its bars upserted one by one, group by group.** -/
theorem upsertMany_eq {files : Files} (hfiles : FilesAscending files) (bars : List HistoricalDailyBar) :
    upsertMany isalnum files bars =
      ((groupedBy groupKey bars).flatMap (·.2)).foldl (upsertEach isalnum) (files, {}) := by
  have hgroups : ∀ group ∈ groupedBy groupKey bars, ∀ bar ∈ group.2, groupKey bar = group.1 := by
    rintro ⟨key, group⟩ hmem bar hbar
    rw [((mem_groupedBy_iff _ _ _).mp hmem).2, List.mem_filter] at hbar
    simpa using hbar.2
  have hfold (groups : Dict (InstrumentIdentity × PriceAdjustment) (List HistoricalDailyBar))
      (h : ∀ group ∈ groups, ∀ bar ∈ group.2, groupKey bar = group.1) :
      ∀ acc : Files × Counts, FilesAscending acc.1 →
        groups.foldl (upsertGroup isalnum) acc =
          (groups.flatMap (·.2)).foldl (upsertEach isalnum) acc := by
    induction groups with
    | nil => exact fun _ _ => rfl
    | cons group groups ih =>
      intro acc hacc
      rw [List.foldl_cons, List.flatMap_cons, List.foldl_append,
        upsertGroup_eq hacc (h group List.mem_cons_self)]
      exact ih (fun g hg => h g (List.mem_cons_of_mem _ hg)) _ (filesAscending_foldl hacc)
  exact hfold _ hgroups _ hfiles

end FileHistoricalBarStore

end ApexScan.MarketHistory
