import ApexScan.Evidence.Combine

/-!
# The verdict on a combination

What a combination takes from its records, and what it leaves behind.

* `combined_rejected_iff` — a combination is rejected for a mismatch of any record, for observations
  that are not steady in the merged order, and for the merged late start and the merged reconnect.
* `EarliestCapture`, `Span` — which late start and which reconnect a combination may keep.
* `RejectionKept` — the rejections of a record that its combination keeps.
* `SameFlags`, `NoTies` — where the order of the records decides nothing.

Main result: `combination_verdict`.  `rejection_masked` shows what a combination leaves behind.
-/

set_option autoImplicit false

namespace ApexScan.Evidence

open Lib

/-! ## What a record must show -/

theorem coverageReasons_eq_nil_iff (record : EvidenceRecord) :
    coverageReasons record = [] ↔
      record.instruments ≠ [] ∧ (record.instruments.map (·.identity)).Nodup ∧
        ∀ i, i ∈ record.expectedInstruments ↔ i ∈ record.instruments.map (·.identity) := by
  have hnodup : (record.instruments.map (·.identity)).length =
      (record.instruments.map (·.identity)).dedup.length ↔
        (record.instruments.map (·.identity)).Nodup := by
    constructor
    · intro h
      exact List.dedup_eq_self.mp ((List.dedup_sublist _).eq_of_length h.symm)
    · intro h
      rw [List.dedup_eq_self.mpr h]
  unfold coverageReasons
  split
  next h => simp [h]
  next h =>
    simp only [List.append_eq_nil_iff, ite_eq_right_iff, List.cons_ne_nil, imp_false, not_not,
      List.filter_eq_nil_iff, List.mem_dedup, decide_eq_true_eq, hnodup, ne_eq]
    grind

theorem windowReasons_eq_nil_iff (record : EvidenceRecord) :
    windowReasons record = [] ↔ ∀ w ∈ record.requiredWindows, w ∈ record.sampleWindows := by
  simp [windowReasons, List.filter_eq_nil_iff]

/-- Records that are rejected alike and complete alike have the same outcome. -/
theorem outcome_congr {r s : EvidenceRecord}
    (hrej : (evaluateRecord r).outcome = .rejected ↔ (evaluateRecord s).outcome = .rejected)
    (hinc : inconclusiveReasons r (countSignals r) = [] ↔
      inconclusiveReasons s (countSignals s) = []) :
    (evaluateRecord r).outcome = (evaluateRecord s).outcome := by
  have hr := accepted_iff r
  have hs := accepted_iff s
  cases h : (evaluateRecord r).outcome <;> cases h' : (evaluateRecord s).outcome <;> simp_all

/-! ## What a combination takes from its records -/

section Records

variable {records : List EvidenceRecord} {first : EvidenceRecord}

theorem merge_of_mem_groupedBy {identity : String} {group : List InstrumentEvidence}
    (h : (identity, group) ∈ groupedBy (·.identity) (records.flatMap (·.instruments))) :
    ∃ m, mergeInstrument group = some m ∧ m.identity = identity ∧
      m.oracleComparisons = group.flatMap (·.oracleComparisons) := by
  obtain ⟨⟨i, hi, hid⟩, hgroup⟩ := (mem_groupedBy_iff _ _ _).mp h
  cases hitems : group with
  | nil =>
    have : i ∈ group := by
      rw [hgroup, List.mem_filter]
      exact ⟨hi, by simpa using hid⟩
    simp [hitems] at this
  | cons head others =>
    have hhead : head ∈ group := by simp [hitems]
    rw [hgroup, List.mem_filter] at hhead
    have hhid : head.identity = identity := by simpa using hhead.2
    exact ⟨_, rfl, hhid, rfl⟩

/-- The identities of a combination are those of its records, each once. -/
theorem identities_merged (records : List EvidenceRecord) :
    (mergedInstruments records).map (·.identity) =
      (groupedBy (·.identity) (records.flatMap (·.instruments))).map (·.1) := by
  unfold mergedInstruments
  rw [List.map_filterMap, ← List.filterMap_eq_map]
  apply List.filterMap_congr
  rintro ⟨identity, group⟩ hmem
  obtain ⟨m, hm, hid, -⟩ := merge_of_mem_groupedBy hmem
  simp [hm, hid]

theorem mem_identities_merged {identity : String} :
    identity ∈ (mergedInstruments records).map (·.identity) ↔
      ∃ r ∈ records, ∃ inst ∈ r.instruments, inst.identity = identity := by
  rw [identities_merged, mem_keys_groupedBy]
  simp only [List.mem_flatMap]
  grind

/-- The comparisons of a combination are those of its records. -/
theorem mem_comparisons_combined {c : OracleComparison} :
    c ∈ (combined first records).comparisons ↔ ∃ r ∈ records, c ∈ r.comparisons := by
  have hmerged : c ∈ (mergedInstruments records).flatMap (·.oracleComparisons) ↔
      ∃ i ∈ records.flatMap (·.instruments), c ∈ i.oracleComparisons := by
    constructor
    · intro h
      obtain ⟨m, hm, hc⟩ := List.mem_flatMap.mp h
      obtain ⟨⟨identity, group⟩, hmem, hmerge⟩ := List.mem_filterMap.mp hm
      obtain ⟨m', hm', -, hcomp⟩ := merge_of_mem_groupedBy hmem
      rw [hm', Option.some.injEq] at hmerge
      subst hmerge
      rw [hcomp, List.mem_flatMap] at hc
      obtain ⟨i, hi, hc⟩ := hc
      rw [((mem_groupedBy_iff _ _ _).mp hmem).2, List.mem_filter] at hi
      exact ⟨i, hi.1, hc⟩
    · rintro ⟨i, hi, hc⟩
      have hmem := (@mem_groupedBy_iff _ _ _ InstrumentEvidence.identity
        (records.flatMap (·.instruments)) i.identity _).mpr ⟨⟨i, hi, rfl⟩, rfl⟩
      obtain ⟨m, hm, -, hcomp⟩ := merge_of_mem_groupedBy hmem
      refine List.mem_flatMap.mpr ⟨m, List.mem_filterMap.mpr ⟨_, hmem, hm⟩, ?_⟩
      rw [hcomp, List.mem_flatMap]
      exact ⟨i, List.mem_filter.mpr ⟨hi, by simp⟩, hc⟩
  refine hmerged.trans ?_
  simp only [EvidenceRecord.comparisons, List.mem_flatMap]
  grind

/-- Some merged instrument carries a violation exactly when some instrument's observations are not
    steady in the merged order. -/
theorem violations_combined :
    (∃ inst ∈ (combined first records).instruments, inst.violations ≠ []) ↔
      ∃ identity, ¬ Steady (sortBy sortKey (observationsOf records identity)) := by
  constructor
  · rintro ⟨inst, hmem, hviol⟩
    exact ⟨inst.identity, fun h => hviol ((violations_eq_nil_iff_merged hmem).mpr h)⟩
  · rintro ⟨identity, hsteady⟩
    have hsome : observationsOf records identity ≠ [] := by
      intro h
      apply hsteady
      rw [h]
      exact List.Pairwise.nil
    obtain ⟨o, ho⟩ := List.exists_mem_of_ne_nil _ hsome
    obtain ⟨r, hr, inst, hi, hid, -⟩ := mem_observationsOf.mp ho
    obtain ⟨m, hm, hmid⟩ := exists_merged hr hi
    refine ⟨m, hm, fun h => hsteady ?_⟩
    rw [← hid, ← hmid]
    exact (violations_eq_nil_iff_merged hm).mp h

/-- A combination is rejected for a mismatch in any record, for what its observations show in the
    merged order, and for the merged late start and reconnect. -/
theorem combined_rejected_iff :
    (evaluateRecord (combined first records)).outcome = .rejected ↔
      (∃ r ∈ records, ∃ c ∈ r.comparisons, c.openMismatch ∨ c.highLowMismatch) ∨
        (∃ identity, ¬ Steady (sortBy sortKey (observationsOf records identity))) ∨
        lateStartRejections (mergeLateStart records) ≠ [] ∨
        reconnectRejections (mergeReconnect records) ≠ [] := by
  rw [rejected_iff, violations_combined]
  apply or_congr
  · simp only [mem_comparisons_combined]
    grind
  · rfl

end Records

/-! ## Late starts and reconnects -/

/-- An observed late start before which none was first observed; where none has an instant, any. -/
def EarliestCapture (records : List EvidenceRecord) (ev : LateStartEvidence) : Prop :=
  ev ∈ captures records ∧ ∀ other ∈ captures records, ∀ t, other.firstObservedAt = some t →
    ∃ s ≤ t, ev.firstObservedAt = some s

/-- An earliest observation before a reconnect and a latest one after a reconnect. -/
structure Span (records : List EvidenceRecord) (pre post : OhlcObservation) : Prop where
  pre_mem : pre ∈ pres records
  pre_le : ∀ o ∈ pres records, pre.observedAt ≤ o.observedAt
  post_mem : post ∈ posts records
  le_post : ∀ o ∈ posts records, o.observedAt ≤ post.observedAt

section Merges

variable {records : List EvidenceRecord}

theorem lateStartRejections_ne_nil {ev : Option LateStartEvidence} (h : lateStartRejections ev ≠ []) :
    ∃ e, ev = some e ∧ e.observed = true := by
  cases ev with
  | none => simp [lateStartRejections] at h
  | some e =>
    cases hobs : e.observed with
    | false => simp [lateStartRejections, hobs] at h
    | true => exact ⟨e, rfl, hobs⟩

theorem reconnectRejections_ne_nil {ev : Option ReconnectEvidence} (h : reconnectRejections ev ≠ []) :
    ∃ e pre post, ev = some e ∧ e.observed = true ∧ e.pre = some pre ∧ e.post = some post := by
  cases ev with
  | none => simp [reconnectRejections] at h
  | some e =>
    unfold reconnectRejections at h
    grind

theorem mem_captures {ev : LateStartEvidence} :
    ev ∈ captures records ↔ (∃ r ∈ records, r.lateStart = some ev) ∧ ev.observed = true := by
  simp [captures]

theorem mem_reconnects {ev : ReconnectEvidence} :
    ev ∈ reconnects records ↔ (∃ r ∈ records, r.reconnect = some ev) ∧ ev.observed = true := by
  simp [reconnects]

/-- The merged late start is an earliest capture. -/
theorem mergeLateStart_spec {ev : LateStartEvidence} (h : mergeLateStart records = some ev) :
    EarliestCapture records ev := by
  simp only [mergeLateStart] at h
  split at h
  next hnone =>
    refine ⟨List.mem_of_head? h, fun other hother t ht => ?_⟩
    rw [List.filter_eq_nil_iff] at hnone
    exact absurd (by simp [ht]) (hnone other hother)
  next hsome =>
    have hmem := List.mem_filter.mp (minBy_mem h)
    obtain ⟨s, hs⟩ := Option.isSome_iff_exists.mp hmem.2
    refine ⟨hmem.1, fun other hother t ht => ⟨s, ?_, hs⟩⟩
    have hle := minBy_le h (List.mem_filter.mpr ⟨hother, by simp [ht]⟩)
    simpa [hs, ht] using hle

theorem mergeLateStart_eq_none_iff : mergeLateStart records = none ↔ captures records = [] := by
  simp only [mergeLateStart]
  split
  next h => exact List.head?_eq_none_iff
  next h =>
    rw [minBy_eq_none_iff]
    constructor
    · intro hnil
      exact absurd hnil h
    · intro hnil
      simp [hnil] at h

/-- A reconnect that shows nothing on one side. -/
def OneSided (ev : ReconnectEvidence) : Prop := ev.observed = true ∧ (ev.pre = none ∨ ev.post = none)

/-- The merged reconnect spans the observed ones; where these have no observation before them or none
    after them it is one-sided, and without a reconnect there is none. -/
theorem mergeReconnect_cases (records : List EvidenceRecord) :
    (∃ pre post ev, Span records pre post ∧ mergeReconnect records = some ev ∧ ev.observed = true ∧
        ev.pre = some pre ∧ ev.post = some post) ∨
      (reconnects records ≠ [] ∧ (pres records = [] ∨ posts records = []) ∧
        ∃ ev, mergeReconnect records = some ev ∧ OneSided ev) ∨
      reconnects records = [] ∧ mergeReconnect records = none := by
  have hhead : (pres records = [] ∨ posts records = []) →
      (reconnects records ≠ [] ∧ (pres records = [] ∨ posts records = []) ∧
        ∃ ev, (reconnects records).head? = some ev ∧ OneSided ev) ∨
      reconnects records = [] ∧ (reconnects records).head? = none := by
    intro hnil
    cases hevs : reconnects records with
    | nil => exact .inr ⟨rfl, rfl⟩
    | cons ev others =>
      have hmem : ev ∈ reconnects records := by simp [hevs]
      refine .inl ⟨by simp, hnil, ev, rfl, (mem_reconnects.mp hmem).2, ?_⟩
      apply hnil.imp
      · intro h
        exact List.filterMap_eq_nil_iff.mp h ev hmem
      · intro h
        exact List.filterMap_eq_nil_iff.mp h ev hmem
  unfold mergeReconnect
  cases hpre : minBy (fun o => o.observedAt) (pres records) with
  | none => exact .inr (hhead (.inl (minBy_eq_none_iff.mp hpre)))
  | some pre =>
    cases hpost : maxBy (fun o => o.observedAt) (posts records) with
    | none => exact .inr (hhead (.inr (maxBy_eq_none_iff.mp hpost)))
    | some post =>
      exact .inl ⟨pre, post, _, ⟨minBy_mem hpre, fun o ho => minBy_le hpre ho, maxBy_mem hpost,
        fun o ho => le_maxBy hpost ho⟩, rfl, rfl, rfl, rfl⟩

end Merges

/-! ## What a combination keeps of a rejection -/

/-- A rejection of a record that its combination keeps: a mismatch with the oracle, observations in the
    merged order that are not steady, a lost late start where every earliest one is lost, a lost
    reconnect where every span is lost. -/
def RejectionKept (records : List EvidenceRecord) (r : EvidenceRecord) : Prop :=
  (∃ c ∈ r.comparisons, c.openMismatch ∨ c.highLowMismatch) ∨
    (∃ inst ∈ r.instruments, inst.wsObservations.Pairwise (fun a b => sortKey a ≤ sortKey b) ∧
      ¬ Steady inst.wsObservations) ∨
    (lateStartRejections r.lateStart ≠ [] ∧
      ∀ ev, EarliestCapture records ev → lateStartRejections (some ev) ≠ []) ∨
    (reconnectRejections r.reconnect ≠ [] ∧
      ∀ pre post, Span records pre post → continuityLost pre post ≠ [])

section Kept

variable {records : List EvidenceRecord} {first r : EvidenceRecord}

/-- What one record shows in the merged order is still shown by the combination. -/
theorem not_steady_merged (hr : r ∈ records) {inst : InstrumentEvidence} (hinst : inst ∈ r.instruments)
    (hsorted : inst.wsObservations.Pairwise fun a b => sortKey a ≤ sortKey b)
    (hsteady : ¬ Steady inst.wsObservations) :
    ¬ Steady (sortBy sortKey (observationsOf records inst.identity)) := by
  intro h
  apply hsteady
  refine List.Pairwise.sublist (sublist_sortBy hsorted ?_) h
  have hmem : inst ∈ (records.flatMap (·.instruments)).filter fun i => i.identity = inst.identity := by
    rw [List.mem_filter]
    exact ⟨List.mem_flatMap.mpr ⟨r, hr, hinst⟩, by simp⟩
  obtain ⟨before, after, hsplit⟩ := List.append_of_mem hmem
  rw [observationsOf, hsplit, List.flatMap_append, List.flatMap_cons]
  exact (List.sublist_append_left _ _).trans (List.sublist_append_right _ _)

theorem rejected_of_kept (hr : r ∈ records) (hkept : RejectionKept records r) :
    (evaluateRecord (combined first records)).outcome = .rejected := by
  rw [combined_rejected_iff]
  obtain ⟨c, hc, hmis⟩ | ⟨inst, hi, hsorted, hsteady⟩ | ⟨hlost, hall⟩ | ⟨hlost, hall⟩ := hkept
  · exact .inl ⟨r, hr, c, hc, hmis⟩
  · exact .inr (.inl ⟨_, not_steady_merged hr hi hsorted hsteady⟩)
  · refine .inr (.inr (.inl ?_))
    obtain ⟨ev, hev, hobs⟩ := lateStartRejections_ne_nil hlost
    have hmem : ev ∈ captures records := mem_captures.mpr ⟨⟨r, hr, hev⟩, hobs⟩
    cases hmerge : mergeLateStart records with
    | none =>
      rw [mergeLateStart_eq_none_iff] at hmerge
      simp [hmerge] at hmem
    | some e => exact hall e (mergeLateStart_spec hmerge)
  · refine .inr (.inr (.inr ?_))
    obtain ⟨ev, pre, post, hev, hobs, hpre, hpost⟩ := reconnectRejections_ne_nil hlost
    have hmem : ev ∈ reconnects records := mem_reconnects.mpr ⟨⟨r, hr, hev⟩, hobs⟩
    have hpres : pre ∈ pres records := List.mem_filterMap.mpr ⟨ev, hmem, hpre⟩
    have hposts : post ∈ posts records := List.mem_filterMap.mpr ⟨ev, hmem, hpost⟩
    obtain ⟨pre', post', ev', hspan, hmerge, hobs', hpre', hpost'⟩ | ⟨-, h | h, -⟩ | ⟨h, -⟩ :=
      mergeReconnect_cases records
    · have hlost' := hall pre' post' hspan
      simpa [hmerge, reconnectRejections, hobs', hpre', hpost'] using hlost'
    · simp [h] at hpres
    · simp [h] at hposts
    · simp [h] at hmem

end Kept

/-! ## The order of the records -/

/-- The flags that a combination takes from its first record. -/
structure SameFlags (r s : EvidenceRecord) : Prop where
  oracleAvailable : r.oracleAvailable = s.oracleAvailable
  csoa16Required : r.csoa16Required = s.csoa16Required
  requiredWindows : r.requiredWindows = s.requiredWindows

/-- Where two captures have the same instant they are the same, and two observations of an instrument
    in the same window at the same instant agree. -/
structure NoTies (records : List EvidenceRecord) : Prop where
  lateStart : ∀ a ∈ captures records, ∀ b ∈ captures records,
    a.firstObservedAt = b.firstObservedAt → a = b
  pre : ∀ a ∈ pres records, ∀ b ∈ pres records, a.observedAt = b.observedAt → a = b
  post : ∀ a ∈ posts records, ∀ b ∈ posts records, a.observedAt = b.observedAt → a = b
  observations : ∀ identity, ∀ a ∈ observationsOf records identity,
    ∀ b ∈ observationsOf records identity, sortKey a = sortKey b → Extends a b

theorem checkWindows_eq_ok_iff (seen : List String) (records : List EvidenceRecord) :
    checkWindows seen records = .ok () ↔
      (∀ r ∈ records, r.sampleWindows.Disjoint seen) ∧
        records.Pairwise fun r s => r.sampleWindows.Disjoint s.sampleWindows := by
  induction records generalizing seen with
  | nil => simp [checkWindows]
  | cons record rest ih =>
    have hoverlap : record.sampleWindows.dedup.filter (fun w => decide (w ∈ seen)) = [] ↔
        record.sampleWindows.Disjoint seen := by
      simp [List.filter_eq_nil_iff, List.Disjoint]
    simp only [List.forall_mem_cons, List.pairwise_cons]
    by_cases hdis : record.sampleWindows.Disjoint seen
    · simp only [checkWindows, hoverlap.mpr hdis, ne_eq, not_true_eq_false, if_false, ih,
        List.disjoint_append_right, hdis, true_and]
      constructor
      · rintro ⟨h, hrest⟩
        exact ⟨fun r hr => (h r hr).1, fun r hr => (h r hr).2.symm, hrest⟩
      · rintro ⟨h, h', hrest⟩
        exact ⟨fun r hr => ⟨h r hr, (h' r hr).symm⟩, hrest⟩
    · simp only [checkWindows, ne_eq, mt hoverlap.mp hdis, not_false_eq_true, if_true]
      simp [hdis]

section Order

variable {xs ys : List EvidenceRecord} {first first' : EvidenceRecord}

theorem combineRecords_of_perm (h : xs.Perm ys) {record : EvidenceRecord}
    (hcombine : combineRecords xs = .ok record) :
    ∃ head, ys.head? = some head ∧ combineRecords ys = .ok (combined head ys) := by
  obtain ⟨first, hfirst, hkeys, hwindows, -⟩ := combineRecords_eq_ok.mp hcombine
  rw [checkWindows_eq_ok_iff] at hwindows
  cases ys with
  | nil =>
    rw [h.eq_nil] at hfirst
    simp at hfirst
  | cons head rest =>
    refine ⟨head, rfl, combineRecords_eq_ok.mpr ⟨head, rfl, fun r hr => ?_, ?_, rfl⟩⟩
    · rw [hkeys r (h.mem_iff.mpr hr), hkeys head (h.mem_iff.mpr List.mem_cons_self)]
    · rw [checkWindows_eq_ok_iff]
      exact ⟨fun r hr => List.disjoint_nil_right _,
        (h.pairwise_iff fun hab => hab.symm).mp hwindows.2⟩

theorem mem_observationsOf_of_perm (h : xs.Perm ys) {identity : String} {o : OhlcObservation} :
    o ∈ observationsOf xs identity ↔ o ∈ observationsOf ys identity := by
  simp only [mem_observationsOf, h.mem_iff]

theorem captures_perm (h : xs.Perm ys) : (captures xs).Perm (captures ys) :=
  (h.filterMap _).filter _

theorem reconnects_perm (h : xs.Perm ys) : (reconnects xs).Perm (reconnects ys) :=
  (h.filterMap _).filter _

theorem pres_perm (h : xs.Perm ys) : (pres xs).Perm (pres ys) := (reconnects_perm h).filterMap _

theorem posts_perm (h : xs.Perm ys) : (posts xs).Perm (posts ys) := (reconnects_perm h).filterMap _

theorem noTies_of_perm (h : xs.Perm ys) (hties : NoTies xs) : NoTies ys where
  lateStart a ha b hb := hties.lateStart a ((captures_perm h).mem_iff.mpr ha) b
    ((captures_perm h).mem_iff.mpr hb)
  pre a ha b hb := hties.pre a ((pres_perm h).mem_iff.mpr ha) b ((pres_perm h).mem_iff.mpr hb)
  post a ha b hb := hties.post a ((posts_perm h).mem_iff.mpr ha) b ((posts_perm h).mem_iff.mpr hb)
  observations identity a ha b hb := hties.observations identity a
    ((mem_observationsOf_of_perm h).mpr ha) b ((mem_observationsOf_of_perm h).mpr hb)

theorem steady_of_perm (h : xs.Perm ys) (hties : NoTies xs) (identity : String) :
    Steady (sortBy sortKey (observationsOf xs identity)) ↔
      Steady (sortBy sortKey (observationsOf ys identity)) := by
  unfold Steady
  rw [pairwise_sortBy_iff (hties.observations identity),
    pairwise_sortBy_iff ((noTies_of_perm h hties).observations identity)]
  simp only [mem_observationsOf_of_perm h]

/-- Without ties there is one earliest capture. -/
theorem earliestCapture_unique (hties : NoTies xs) {a b : LateStartEvidence}
    (ha : EarliestCapture xs a) (hb : EarliestCapture xs b) : a = b := by
  apply hties.lateStart a ha.1 b hb.1
  cases hs : a.firstObservedAt with
  | none =>
    cases ht : b.firstObservedAt with
    | none => rfl
    | some t =>
      obtain ⟨s, -, hs'⟩ := ha.2 b hb.1 t ht
      simp [hs] at hs'
  | some s =>
    obtain ⟨t, hts, ht⟩ := hb.2 a ha.1 s hs
    obtain ⟨s', hst, hs'⟩ := ha.2 b hb.1 t ht
    rw [hs, Option.some.injEq] at hs'
    subst hs'
    rw [ht, le_antisymm hst hts]

theorem mergeLateStart_of_perm (h : xs.Perm ys) (hties : NoTies xs) :
    mergeLateStart xs = mergeLateStart ys := by
  cases hx : mergeLateStart xs with
  | none =>
    rw [mergeLateStart_eq_none_iff] at hx
    have hy : captures ys = [] := by
      have := captures_perm h
      rw [hx] at this
      exact this.nil_eq.symm
    exact (mergeLateStart_eq_none_iff.mpr hy).symm
  | some a =>
    have ha := mergeLateStart_spec hx
    cases hy : mergeLateStart ys with
    | none =>
      rw [mergeLateStart_eq_none_iff] at hy
      have := (captures_perm h).mem_iff.mp ha.1
      simp [hy] at this
    | some b =>
      have hb := mergeLateStart_spec hy
      have hb' : EarliestCapture xs b := ⟨(captures_perm h).mem_iff.mpr hb.1,
        fun other ho => hb.2 other ((captures_perm h).mem_iff.mp ho)⟩
      rw [earliestCapture_unique hties ha hb']

/-- Without ties a combination judges the span. -/
theorem reconnect_of_span (hties : NoTies xs) {pre post : OhlcObservation} (h : Span xs pre post) :
    reconnectRejections (mergeReconnect xs) = continuityLost pre post ∧
      reconnectIncomplete (combined first xs) = [] := by
  obtain ⟨pre', post', ev, hspan, hmerge, hobs, hpre, hpost⟩ | ⟨-, hnil | hnil, -⟩ | ⟨hnil, -⟩ :=
    mergeReconnect_cases xs
  · have hpreEq : pre = pre' := hties.pre pre h.pre_mem pre' hspan.pre_mem
      (le_antisymm (h.pre_le pre' hspan.pre_mem) (hspan.pre_le pre h.pre_mem))
    have hpostEq : post = post' := hties.post post h.post_mem post' hspan.post_mem
      (le_antisymm (hspan.le_post post h.post_mem) (h.le_post post' hspan.post_mem))
    subst hpreEq hpostEq
    constructor
    · simp [hmerge, reconnectRejections, hobs, hpre, hpost]
    · simp [reconnectIncomplete, combined, hmerge, hobs, hpre, hpost]
  · have := h.pre_mem
    simp [hnil] at this
  · have := h.post_mem
    simp [hnil] at this
  · have := h.pre_mem
    simp [pres, hnil] at this

/-- Reconnects without an observation on one side leave a combination incomplete. -/
theorem reconnect_of_oneSided (hsome : reconnects xs ≠ []) (hside : pres xs = [] ∨ posts xs = []) :
    reconnectRejections (mergeReconnect xs) = [] ∧
      reconnectIncomplete (combined first xs) = [.reconnectIncomplete] := by
  obtain ⟨pre, post, ev, hspan, -⟩ | ⟨-, -, ev, hmerge, hobs, hpre | hpost⟩ | ⟨hnil, -⟩ :=
    mergeReconnect_cases xs
  · rcases hside with hnil | hnil
    · have := hspan.pre_mem
      simp [hnil] at this
    · have := hspan.post_mem
      simp [hnil] at this
  · simp [hmerge, reconnectRejections, reconnectIncomplete, combined, hobs, hpre]
  · simp [hmerge, reconnectRejections, reconnectIncomplete, combined, hobs, hpost]
  · exact absurd hnil hsome

/-- Without a reconnect there is nothing to judge. -/
theorem reconnect_of_none (hnone : reconnects xs = []) :
    reconnectRejections (mergeReconnect xs) = [] ∧
      reconnectIncomplete (combined first xs) =
        if first.csoa16Required = true then [.noReconnectEvidence] else [] := by
  obtain ⟨pre, post, ev, hspan, -⟩ | ⟨hsome, -⟩ | ⟨-, hmerge⟩ := mergeReconnect_cases xs
  · have := hspan.pre_mem
    simp [pres, hnone] at this
  · exact absurd hnone hsome
  · simp [hmerge, reconnectRejections, reconnectIncomplete, combined]

/-- What a combination says of its reconnects is the same in every order. -/
theorem reconnect_of_perm (h : xs.Perm ys) (hties : NoTies xs) (hflags : SameFlags first first') :
    reconnectRejections (mergeReconnect xs) = reconnectRejections (mergeReconnect ys) ∧
      reconnectIncomplete (combined first xs) = reconnectIncomplete (combined first' ys) := by
  have hpres := pres_perm h
  have hposts := posts_perm h
  obtain ⟨pre, post, ev, hspan, -⟩ | ⟨hsome, hside, -⟩ | ⟨hnone, -⟩ := mergeReconnect_cases xs
  · have hspan' : Span ys pre post :=
      ⟨hpres.mem_iff.mp hspan.pre_mem, fun o ho => hspan.pre_le o (hpres.mem_iff.mpr ho),
        hposts.mem_iff.mp hspan.post_mem, fun o ho => hspan.le_post o (hposts.mem_iff.mpr ho)⟩
    obtain ⟨hrej, hinc⟩ := @reconnect_of_span xs first hties pre post hspan
    obtain ⟨hrej', hinc'⟩ := @reconnect_of_span ys first' (noTies_of_perm h hties) pre post hspan'
    exact ⟨hrej.trans hrej'.symm, hinc.trans hinc'.symm⟩
  · have hsome' : reconnects ys ≠ [] := fun hnil =>
      hsome (List.perm_nil.mp (hnil ▸ reconnects_perm h))
    have hside' : pres ys = [] ∨ posts ys = [] := by
      rcases hside with hnil | hnil
      · exact .inl (List.nil_perm.mp (hnil ▸ hpres))
      · exact .inr (List.nil_perm.mp (hnil ▸ hposts))
    obtain ⟨hrej, hinc⟩ := @reconnect_of_oneSided xs first hsome hside
    obtain ⟨hrej', hinc'⟩ := @reconnect_of_oneSided ys first' hsome' hside'
    exact ⟨hrej.trans hrej'.symm, hinc.trans hinc'.symm⟩
  · have hnone' : reconnects ys = [] := List.nil_perm.mp (hnone ▸ reconnects_perm h)
    obtain ⟨hrej, hinc⟩ := @reconnect_of_none xs first hnone
    obtain ⟨hrej', hinc'⟩ := @reconnect_of_none ys first' hnone'
    rw [hflags.csoa16Required] at hinc
    exact ⟨hrej.trans hrej'.symm, hinc.trans hinc'.symm⟩

/-- The coverage of a combination is complete in every order or in none. -/
theorem coverage_of_perm (h : xs.Perm ys) :
    coverageReasons (combined first xs) = [] ↔ coverageReasons (combined first' ys) = [] := by
  have hids (i : String) : i ∈ (mergedInstruments xs).map (·.identity) ↔
      i ∈ (mergedInstruments ys).map (·.identity) := by
    simp only [mem_identities_merged, h.mem_iff]
  have hnil : mergedInstruments xs = [] ↔ mergedInstruments ys = [] := by
    rw [← List.map_eq_nil_iff (f := InstrumentEvidence.identity),
      ← List.map_eq_nil_iff (f := InstrumentEvidence.identity) (l := mergedInstruments ys)]
    simp only [List.eq_nil_iff_forall_not_mem, hids]
  have hnodup (zs : List EvidenceRecord) : ((mergedInstruments zs).map (·.identity)).Nodup := by
    rw [identities_merged]
    exact nodup_groupedBy _
  have hexpected (i : String) : i ∈ sortBy id (xs.flatMap (·.expectedInstruments)).dedup ↔
      i ∈ sortBy id (ys.flatMap (·.expectedInstruments)).dedup := by
    simp only [mem_sortBy, List.mem_dedup, List.mem_flatMap, h.mem_iff]
  rw [coverageReasons_eq_nil_iff, coverageReasons_eq_nil_iff]
  simp only [combined, ne_eq, hnil, hnodup, hids, hexpected]

/-- **The outcome of a combination is the same for every order of its records.** -/
theorem outcome_of_perm (h : xs.Perm ys) (hties : NoTies xs) (hflags : SameFlags first first') :
    (evaluateRecord (combined first xs)).outcome = (evaluateRecord (combined first' ys)).outcome := by
  obtain ⟨hrejects, hincomplete⟩ := reconnect_of_perm h hties hflags
  have hlate := mergeLateStart_of_perm h hties
  apply outcome_congr
  · simp only [combined_rejected_iff, steady_of_perm h hties, h.mem_iff, hlate, hrejects]
  · have hwindows : windowReasons (combined first xs) = [] ↔ windowReasons (combined first' ys) = [] := by
      rw [windowReasons_eq_nil_iff, windowReasons_eq_nil_iff]
      simp only [combined, hflags.requiredWindows, mem_sortBy, List.mem_dedup, List.mem_flatMap,
        h.mem_iff]
    have hindet : (countSignals (combined first xs)).hlIndeterminate = 0 ↔
        (countSignals (combined first' ys)).hlIndeterminate = 0 := by
      rw [countSignals_hlIndeterminate, countSignals_hlIndeterminate, List.countP_eq_zero,
        List.countP_eq_zero]
      simp only [mem_comparisons_combined, h.mem_iff]
    simp only [inconclusiveReasons, List.append_eq_nil_iff, @coverage_of_perm _ _ first first' h,
      hwindows, hincomplete, ite_eq_right_iff, List.cons_ne_nil, imp_false, hindet, ne_eq, not_not]
    simp only [combined, hflags.oracleAvailable, hlate]

end Order

/-- **What the verdict on a combination keeps of its records.**  It is a rejection where a record shows
    one of the rejections that are kept; it is no acceptance where the first record had no oracle;
    and without ties it is the same for every order of records that begins with the same flags. -/
theorem combination_verdict (records : List EvidenceRecord) (record : EvidenceRecord)
    (hcombine : combineRecords records = .ok record) :
    ((∃ r ∈ records, RejectionKept records r) → (evaluateRecord record).outcome = .rejected) ∧
      ((∀ first ∈ records.head?, first.oracleAvailable = false) →
        (evaluateRecord record).outcome ≠ .accepted) ∧
      ∀ records', records.Perm records' →
        (∀ first ∈ records.head?, ∀ first' ∈ records'.head?, SameFlags first first') →
        NoTies records →
        ∃ record', combineRecords records' = .ok record' ∧
          (evaluateRecord record').outcome = (evaluateRecord record).outcome := by
  obtain ⟨first, hfirst, -, -, rfl⟩ := combineRecords_eq_ok.mp hcombine
  refine ⟨?_, ?_, ?_⟩
  · rintro ⟨r, hr, hkept⟩
    exact rejected_of_kept hr hkept
  · intro horacle hacc
    have hnone : (combined first records).oracleAvailable = false := horacle first hfirst
    have hreasons := ((accepted_iff _).mp hacc).2
    simp [inconclusiveReasons, hnone] at hreasons
  · intro records' hperm hflags hties
    obtain ⟨first', hfirst', hcombine'⟩ := combineRecords_of_perm hperm hcombine
    exact ⟨_, hcombine', (outcome_of_perm hperm hties (hflags first hfirst first' hfirst')).symm⟩

/-- A record of some windows, complete but for the windows: the prices are 100, 102 and 99, and `lost`
    and `retained` are the highs after the late start and after the reconnect. -/
def partRecord (windows : List String) (instant : Int) (lost retained : ℚ) : EvidenceRecord :=
  let observation (moment : Int) (high : ℚ) : OhlcObservation :=
    { source := "ws"
      window := windows.headD ""
      observedAt := moment
      openPrice := some 100
      highPrice := some high
      lowPrice := some 99 }
  { collectorVersion := "1.0.0"
    sourceSha := "deadbee"
    provider := "dhan"
    tradingDate := 20666
    sessionIdentity := "2026-08-01"
    collectionStart := instant
    collectionEnd := instant
    expectedInstruments := ["NSE:RELIANCE"]
    sampleWindows := windows
    instruments :=
      [{ exchange := "NSE"
         symbol := "RELIANCE"
         securityId := "2885"
         tradingDate := 20666
         wsObservations := [observation instant 102] }]
    lateStart :=
      some
        { observed := true
          priorOpen := some 100
          priorHigh := some 102
          priorLow := some 99
          firstObservedAt := some instant
          firstOpen := some 100
          firstHigh := some lost
          firstLow := some 99 }
    reconnect :=
      some
        { observed := true
          pre := some (observation instant 102)
          post := some (observation (instant + 1) retained) } }

/-- The outcome of a combination. -/
def combinedOutcome (records : List EvidenceRecord) : Option VerdictOutcome :=
  match combineRecords records with
  | .ok record => some (evaluateRecord record).outcome
  | .error _ => none

theorem extends_self (o : OhlcObservation) : Extends o o where
  open_eq _ _ hp hq := Option.some.inj (hq.symm.trans hp)
  high_le _ _ hp hq := (Option.some.inj (hp.symm.trans hq)).le
  le_low _ _ hp hq := (Option.some.inj (hq.symm.trans hp)).le

theorem partRecords_noTies :
    NoTies [partRecord ["early", "mid"] 1 101 102, partRecord ["late"] 5 102 102] where
  lateStart := by decide +kernel
  pre := by decide +kernel
  post := by decide +kernel
  observations := by
    intro identity a ha b hb hkey
    rw [mem_observationsOf] at ha hb
    simp only [partRecord, List.mem_cons, List.not_mem_nil, or_false] at ha hb
    obtain ⟨r, rfl | rfl, i, hi, -, ha⟩ := ha <;> obtain ⟨r', rfl | rfl, i', hi', -, hb⟩ := hb
    · simp_all [extends_self]
    · simp_all [sortKey]
    · simp_all [sortKey]
    · simp_all [extends_self]

/-- The first late start is lost: the combination is rejected in both orders. -/
theorem lost_late_start_kept :
    ∃ record', combineRecords [partRecord ["late"] 5 102 102, partRecord ["early", "mid"] 1 101 102] =
        .ok record' ∧ (evaluateRecord record').outcome = .rejected := by
  have hcombine : combineRecords
      [partRecord ["early", "mid"] 1 101 102, partRecord ["late"] 5 102 102] = .ok _ :=
    combineRecords_eq_ok.mpr ⟨_, rfl, by decide +kernel, by decide +kernel, rfl⟩
  obtain ⟨hkept, -, horder⟩ := combination_verdict _ _ hcombine
  obtain ⟨record', hcombine', hsame⟩ := horder _ (List.Perm.swap _ _ _)
    (by rintro _ ⟨⟩ _ ⟨⟩; exact ⟨rfl, rfl, rfl⟩) partRecords_noTies
  refine ⟨record', hcombine', hsame.trans (hkept ⟨_, List.mem_cons_self, .inr (.inr (.inl ⟨?_, ?_⟩))⟩)⟩
  · decide +kernel
  · intro ev hev
    have hmerge : mergeLateStart [partRecord ["early", "mid"] 1 101 102, partRecord ["late"] 5 102 102] =
        (partRecord ["early", "mid"] 1 101 102).lateStart := by decide +kernel
    rw [earliestCapture_unique partRecords_noTies hev (mergeLateStart_spec hmerge)]
    decide +kernel

/-- A lost late start after a good one, a lost reconnect before a good one and a missing oracle after a
    present one all disappear in an accepted combination, and the order of the records decides the
    last; it also decides between two captures of one instant. -/
theorem rejection_masked :
    let early := partRecord ["early", "mid"] 1 102 102
    let late := partRecord ["late"] 5 102 102
    let lateStartLost := partRecord ["late"] 5 101 102
    let reconnectLost := partRecord ["early", "mid"] 1 102 101
    let noOracle := { late with oracleAvailable := false }
    let tied := partRecord ["late"] 1 101 102
    (evaluateRecord lateStartLost).outcome = .rejected ∧
      combinedOutcome [early, lateStartLost] = some .accepted ∧
      (evaluateRecord reconnectLost).outcome = .rejected ∧
      combinedOutcome [reconnectLost, late] = some .accepted ∧
      combinedOutcome [early, noOracle] = some .accepted ∧
      combinedOutcome [noOracle, early] = some .inconclusive ∧
      combinedOutcome [early, tied] = some .accepted ∧
      combinedOutcome [tied, early] = some .rejected := by
  decide +kernel

end ApexScan.Evidence
