import ApexScan.Ipc.Reference

/-!
# The compaction script against the documented merge

The script mirrors `_classify` and `merge_reference`, but it compares doubles and writes numbers with
14 significant digits.  A stored state that `_safe_load` reads is the dump of a state; what the script
does to it agrees with the documented merge exactly when the numbers of the two states survive both.

* `RefinesMerge` — the status is the one `_classify` gives, and what is stored afterwards reads back
  as the documented merge.
* `OlderAsDoubles`, `SameAsDoubles` — the comparisons the script makes.
* `NumbersSurvive` — the condition on the two states.

Main result: `script_refines_merge_iff`.  `large_sequence_unreadable` is an update that leaves a value
no reader accepts.
-/

set_option autoImplicit false

namespace ApexScan.Ipc

open Lib

/-- The status is the one `_classify` gives, and the value stored afterwards reads back as the
    incoming state, the merge, or the existing state. -/
def RefinesMerge (existing : Option CompactedReferenceState) (incoming : CompactedReferenceState) :
    Prop :=
  ∃ value, compactScript (existing.map dump) incoming = some (classify incoming existing, value) ∧
    (value.or (existing.map dump)).bind safeLoad =
      match existing with
      | none => some incoming
      | some ex =>
        some (if ex.ordering < incoming.ordering then mergeReference ex incoming else ex)

/-- The incoming ordering is smaller once epochs and sequences are doubles. -/
def OlderAsDoubles (existing incoming : CompactedReferenceState) : Prop :=
  toDouble incoming.producerEpoch < toDouble existing.producerEpoch ∨
    (toDouble incoming.producerEpoch = toDouble existing.producerEpoch ∧
      toDouble incoming.producerSequence < toDouble existing.producerSequence)

/-- The orderings are equal once epochs and sequences are doubles. -/
def SameAsDoubles (existing incoming : CompactedReferenceState) : Prop :=
  toDouble incoming.producerEpoch = toDouble existing.producerEpoch ∧
    toDouble incoming.producerSequence = toDouble existing.producerSequence

/-- An older update is older as doubles too, and the numbers of a newer one have at most 14 digits. -/
def NumbersSurvive (existing : Option CompactedReferenceState) (incoming : CompactedReferenceState) :
    Prop :=
  ∀ ex ∈ existing,
    (incoming.ordering < ex.ordering → OlderAsDoubles ex incoming) ∧
      (ex.ordering < incoming.ordering → incoming.Exact)

/-! ## Encoded numbers -/

/-- A number that the script writes as an integer literal has at most 14 digits. -/
theorem lt_of_cjsonNumber {n m : ℕ} (h : cjsonNumber (toDouble n) = some (.integer m)) :
    n < 10 ^ 14 := by
  cases hd : toDouble n with
  | top =>
    rw [hd] at h
    cases h
  | coe k =>
    rw [hd] at h
    have hencoded : cjsonNumber (WithTop.some k) =
        some (if k < 10 ^ 14 then .integer k else .exponent (roundSignificant 10 14 k)) := rfl
    by_cases hk : k < 10 ^ 14
    · have hnk : n = k := eq_of_toDouble_eq hd (hk.trans (by decide))
      rw [hnk]
      exact hk
    · rw [if_neg hk] at hencoded
      cases hencoded.symm.trans h

/-- A merge that a reader accepts has an incoming state with exact numbers. -/
theorem exact_of_safeLoad_encodeMerged {existing : StoredReference}
    {incoming s : CompactedReferenceState} {merged : StoredReference}
    (henc : encodeMerged existing incoming = some merged) (hload : safeLoad merged = some s) :
    incoming.Exact := by
  unfold encodeMerged at henc
  simp only [Option.bind_eq_bind, Option.bind_eq_some_iff, Option.pure_def, Option.some.injEq] at henc
  obtain ⟨version, hversion, epoch, hepoch, sequence, hsequence, rfl⟩ := henc
  unfold safeLoad at hload
  split at hload
  · rename_i u e q hu he hq
    simp only at hu he hq
    rw [hu] at hversion
    rw [he] at hepoch
    rw [hq] at hsequence
    exact ⟨lt_of_cjsonNumber hversion, lt_of_cjsonNumber hepoch, lt_of_cjsonNumber hsequence⟩
  · cases hload

/-! ## The three comparisons -/

/-- What the script does with a stored state. -/
theorem compactScript_some (ex incoming : CompactedReferenceState) :
    (OlderAsDoubles ex incoming ∧
      compactScript (some (dump ex)) incoming = some (.staleRejected, none)) ∨
    (¬ OlderAsDoubles ex incoming ∧ SameAsDoubles ex incoming ∧
      compactScript (some (dump ex)) incoming = some (.duplicate, none)) ∨
    (¬ OlderAsDoubles ex incoming ∧ ¬ SameAsDoubles ex incoming ∧
      compactScript (some (dump ex)) incoming =
        (encodeMerged (dump ex) incoming).map fun merged => (.merged, some merged)) := by
  unfold compactScript
  simp only
  by_cases hold : OlderAsDoubles ex incoming
  · left
    exact ⟨hold, if_pos hold⟩
  · right
    by_cases hsame : SameAsDoubles ex incoming
    · left
      exact ⟨hold, hsame, (if_neg hold).trans (if_pos hsame)⟩
    · right
      exact ⟨hold, hsame, (if_neg hold).trans (if_neg hsame)⟩

section Compare

variable {ex incoming : CompactedReferenceState}

/-- Equal orderings are equal as doubles, and not older. -/
theorem sameAsDoubles_of_eq (h : incoming.ordering = ex.ordering) :
    ¬ OlderAsDoubles ex incoming ∧ SameAsDoubles ex incoming := by
  obtain ⟨hepoch, hseq⟩ := (ordering_eq_iff _ _).mp h
  unfold OlderAsDoubles SameAsDoubles
  rw [hepoch, hseq]
  refine ⟨?_, rfl, rfl⟩
  rintro (hlt | ⟨-, hlt⟩)
  · exact lt_irrefl _ hlt
  · exact lt_irrefl _ hlt

/-- A newer ordering with exact numbers is newer as doubles. -/
theorem newerAsDoubles_of_exact (h : ex.ordering < incoming.ordering) (hexact : incoming.Exact) :
    ¬ OlderAsDoubles ex incoming ∧ ¬ SameAsDoubles ex incoming := by
  have hepoch := toDouble_of_exact hexact.producerEpoch
  have hseq := toDouble_of_exact hexact.producerSequence
  have hexepoch : ex.producerEpoch ≤ incoming.producerEpoch := by
    rcases (ordering_lt_iff _ _).mp h with hlt | ⟨heq, -⟩
    · exact hlt.le
    · exact heq.le
  have hexepoch' := toDouble_of_exact (lt_of_le_of_lt hexepoch hexact.producerEpoch)
  unfold OlderAsDoubles SameAsDoubles
  rw [hepoch, hseq, hexepoch', WithTop.coe_lt_coe, WithTop.coe_inj]
  rcases (ordering_lt_iff _ _).mp h with hlt | ⟨heq, hlt⟩
  · -- the sequences do not count
    refine ⟨?_, ?_⟩
    · rintro (hlt' | ⟨heq, -⟩) <;> omega
    · rintro ⟨heq, -⟩
      omega
  · have hexseq := toDouble_of_exact (hlt.trans hexact.producerSequence)
    rw [hexseq, WithTop.coe_lt_coe, WithTop.coe_inj]
    omega

end Compare

/-! ## The condition -/

/-- An older update is rejected exactly when it is older as doubles. -/
theorem refinesMerge_older {ex incoming : CompactedReferenceState}
    (h : incoming.ordering < ex.ordering) :
    RefinesMerge (some ex) incoming ↔ OlderAsDoubles ex incoming := by
  have hclass : classify incoming (some ex) = .staleRejected := by
    unfold classify
    simp only
    rw [if_pos h]
  unfold RefinesMerge
  rw [hclass]
  constructor
  · rintro ⟨value, hscript, -⟩
    rcases compactScript_some ex incoming with
      ⟨hold, -⟩ | ⟨-, -, hdup⟩ | ⟨-, -, hmerged⟩
    · exact hold
    · rw [Option.map_some, hdup] at hscript
      cases hscript
    · rw [Option.map_some, hmerged, Option.map_eq_some_iff] at hscript
      obtain ⟨merged, -, hpair⟩ := hscript
      cases hpair
  · intro hold
    rcases compactScript_some ex incoming with
      ⟨-, hstale⟩ | ⟨hnot, -⟩ | ⟨hnot, -⟩
    · refine ⟨none, hstale, ?_⟩
      simp only
      rw [if_neg (not_lt_of_gt h)]
      rfl
    · exact absurd hold hnot
    · exact absurd hold hnot

/-- An update of the stored ordering is always recognised. -/
theorem refinesMerge_equal {ex incoming : CompactedReferenceState}
    (h : incoming.ordering = ex.ordering) : RefinesMerge (some ex) incoming := by
  have hclass : classify incoming (some ex) = .duplicate := by
    unfold classify
    simp only
    rw [if_neg h.not_lt, if_pos h]
  obtain ⟨hnot, hsame⟩ := sameAsDoubles_of_eq h
  rcases compactScript_some ex incoming with
    ⟨hold, -⟩ | ⟨-, -, hdup⟩ | ⟨-, hdiff, -⟩
  · exact absurd hold hnot
  · refine ⟨none, by rw [hclass]; exact hdup, ?_⟩
    simp only
    rw [if_neg h.symm.not_lt]
    rfl
  · exact absurd hsame hdiff

/-- A newer update is merged, and the result read back, exactly when its numbers have 14 digits. -/
theorem refinesMerge_newer {ex incoming : CompactedReferenceState}
    (h : ex.ordering < incoming.ordering) : RefinesMerge (some ex) incoming ↔ incoming.Exact := by
  have hclass : classify incoming (some ex) = .merged := by
    unfold classify
    simp only
    rw [if_neg (not_lt_of_gt h), if_neg h.ne']
  unfold RefinesMerge
  rw [hclass]
  simp only
  rw [if_pos h]
  constructor
  · rintro ⟨value, hscript, hload⟩
    rcases compactScript_some ex incoming with
      ⟨-, hstale⟩ | ⟨-, -, hdup⟩ | ⟨-, -, hmerged⟩
    · rw [Option.map_some, hstale] at hscript
      cases hscript
    · rw [Option.map_some, hdup] at hscript
      cases hscript
    · rw [Option.map_some, hmerged, Option.map_eq_some_iff] at hscript
      obtain ⟨merged, henc, hpair⟩ := hscript
      obtain rfl := (Prod.mk.inj hpair).2
      exact exact_of_safeLoad_encodeMerged henc hload
  · intro hexact
    obtain ⟨hnot, hdiff⟩ := newerAsDoubles_of_exact h hexact
    rcases compactScript_some ex incoming with
      ⟨hold, -⟩ | ⟨-, hsame, -⟩ | ⟨-, -, hmerged⟩
    · exact absurd hold hnot
    · exact absurd hsame hdiff
    · refine ⟨some (dump (mergeReference ex incoming)), ?_, rfl⟩
      rw [Option.map_some, hmerged, encodeMerged_dump hexact]
      rfl

/-- **The script is the documented merge exactly when the numbers survive it**: for every stored
    state or none and every incoming state. -/
theorem script_refines_merge_iff (existing : Option CompactedReferenceState)
    (incoming : CompactedReferenceState) :
    RefinesMerge existing incoming ↔ NumbersSurvive existing incoming := by
  cases existing with
  | none =>
    refine ⟨?_, ?_⟩
    · intro _ ex hex
      cases hex
    · intro _
      exact ⟨some (dump incoming), rfl, rfl⟩
  | some ex =>
    have hcond : NumbersSurvive (some ex) incoming ↔
        (incoming.ordering < ex.ordering → OlderAsDoubles ex incoming) ∧
          (ex.ordering < incoming.ordering → incoming.Exact) := by
      unfold NumbersSurvive
      simp only [Option.mem_some, forall_eq']
    rw [hcond]
    rcases lt_trichotomy incoming.ordering ex.ordering with h | h | h
    · rw [refinesMerge_older h]
      exact ⟨fun hold => ⟨fun _ => hold, fun h' => absurd h' (not_lt_of_gt h)⟩, fun hc => hc.1 h⟩
    · refine ⟨fun _ => ⟨fun h' => absurd h h'.ne, fun h' => absurd h h'.ne'⟩, ?_⟩
      intro _
      exact refinesMerge_equal h
    · rw [refinesMerge_newer h]
      exact ⟨fun hexact => ⟨fun h' => absurd h' (not_lt_of_gt h), fun _ => hexact⟩, fun hc => hc.2 h⟩

/-- A reference of one producer at a given sequence. -/
def sampleReference (sequence : ℕ) : CompactedReferenceState where
  instrumentIdentity := "NSE_EQ:RELIANCE"
  tradingDate := 20000
  updatedAt := 20000 * day
  universeVersion := 1
  producerId := "ingestion"
  producerEpoch := 1
  producerSequence := sequence
  prices := fun
    | .previousClose => some (rupees 100)
    | _ => none

/-- A newer update whose sequence has 15 digits is merged into a value that no reader accepts. -/
theorem large_sequence_unreadable :
    ¬ RefinesMerge (some (sampleReference 1)) (sampleReference (10 ^ 14)) := by
  rw [refinesMerge_newer (by decide)]
  intro hexact
  exact lt_irrefl _ hexact.producerSequence

end ApexScan.Ipc
