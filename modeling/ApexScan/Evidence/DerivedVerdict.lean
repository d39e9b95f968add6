import ApexScan.Evidence.CombinedVerdict

/-!
# What an accepted verdict rests on

A comparison carries a classification and an instrument's evidence a monotonicity result.  The
evaluation counts these stored conclusions; it does not compute them from the prices beside them.

* `OracleComparison.derived`, `WithinTolerance` — the classification of the recorded prices.
* `Derived` — what the raw values of a record have to show for an acceptance.
* `rawValues` — a record without its stored conclusions.
* `Complete` — the record gives no reason against it besides the stored conclusions, which are
  `StoredClean` where they give none either.

Main result: `derived_verdict_iff` tells on which records the verdict is the one of the raw values.
`accepted_without_values` is an accepted record without any price of its instrument.
-/

set_option autoImplicit false

namespace ApexScan.Evidence

/-! ## Raw values -/

/-- `classify_price` on the recorded prices, exact for the open. -/
def OracleComparison.derived (c : OracleComparison) : Classification :=
  classifyPrice c.wsValue c.restValue c.tickSize (c.field = "open")

/-- The recorded prices agree; a high or a low may drift. -/
def OracleComparison.WithinTolerance (c : OracleComparison) : Prop :=
  c.derived = .matching ∨ c.derived = .protocolEquivalent ∨
    c.derived = .drift ∧ (c.field = "high" ∨ c.field = "low")

/-- The values recorded for an instrument show what its stored conclusions say. -/
structure InstrumentEvidence.Supported (inst : InstrumentEvidence) : Prop where
  observed : inst.wsObservations ≠ []
  compared : ∀ field ∈ ["open", "high", "low"], ∃ c ∈ inst.oracleComparisons, c.field = field
  within : ∀ c ∈ inst.oracleComparisons, c.WithinTolerance
  steady : (evaluateMonotonicity inst.wsObservations).violations = []

/-- The later prices keep what the earlier ones show. -/
structure Retained (before after : Extrema) : Prop where
  open_eq : after.openPrice = before.openPrice
  high_le : before.high ≤ after.high
  le_low : after.low ≤ before.low

/-- Both observations of a reconnect are there with all their prices. -/
def ReconnectEvidence.Filled (ev : ReconnectEvidence) : Prop :=
  ∃ pre post before after, ev.pre = some pre ∧ ev.post = some post ∧
    pre.extrema = some before ∧ post.extrema = some after

namespace EvidenceRecord

/-- What the raw values of a record have to show for an acceptance. -/
structure Derived (r : EvidenceRecord) : Prop where
  identities_nodup : (r.instruments.map (·.identity)).Nodup
  identities : ∀ i, i ∈ r.expectedInstruments ↔ i ∈ r.instruments.map (·.identity)
  supported : ∀ inst ∈ r.instruments, inst.Supported
  lateStart : ∃ ev prior first, r.lateStart = some ev ∧ ev.observed = true ∧
    ev.prior = some prior ∧ ev.first = some first ∧ Retained prior first
  reconnected : r.csoa16Required = true → ∃ ev, r.reconnect = some ev ∧ ev.observed = true
  reconnect : ∀ ev, r.reconnect = some ev → ev.observed = true →
    ∃ pre post before after, ev.pre = some pre ∧ ev.post = some post ∧
      pre.extrema = some before ∧ post.extrema = some after ∧ Retained before after

/-- An instrument's evidence without its stored conclusions. -/
def clearInstrument (inst : InstrumentEvidence) : InstrumentEvidence :=
  { inst with
    oracleComparisons := inst.oracleComparisons.map fun c => { c with classification := .matching }
    monotonicity := none }

/-- The record without its stored conclusions. -/
def rawValues (r : EvidenceRecord) : EvidenceRecord :=
  { r with instruments := r.instruments.map clearInstrument }

/-- There is no reason against the record besides its stored conclusions. -/
structure Complete (r : EvidenceRecord) : Prop where
  oracle : r.oracleAvailable = true
  coverage : coverageReasons r = []
  windows : windowReasons r = []
  reconnect : reconnectIncomplete r = []
  lateStart : lateStartIncomplete r.lateStart = []
  lateStartKept : lateStartRejections r.lateStart = []
  reconnectKept : reconnectRejections r.reconnect = []

/-- No stored conclusion speaks against the record. -/
structure StoredClean (r : EvidenceRecord) : Prop where
  classified : ∀ c ∈ r.comparisons, c.classification ≠ .mismatch ∧ c.classification ≠ .indeterminate
  monotone : ∀ inst ∈ r.instruments, inst.violations = []

/-- Every instrument is supported by its values, and an observed reconnect has all of its prices. -/
structure Supported (r : EvidenceRecord) : Prop where
  instruments : ∀ inst ∈ r.instruments, inst.Supported
  reconnect : ∀ ev, r.reconnect = some ev → ev.observed = true → ev.Filled

end EvidenceRecord

/-! ## What acceptance asks for -/

theorem lost_eq_nil_iff {before after : Extrema} : lost before after = [] ↔ Retained before after := by
  unfold lost
  simp only [List.append_eq_nil_iff, ite_eq_right_iff, List.cons_ne_nil, imp_false, not_not, not_lt,
    gt_iff_lt, ne_eq]
  constructor
  · rintro ⟨⟨hopen, hhigh⟩, hlow⟩
    exact ⟨hopen, hhigh, hlow⟩
  · rintro ⟨hopen, hhigh, hlow⟩
    exact ⟨⟨hopen, hhigh⟩, hlow⟩

variable {r s : EvidenceRecord}

/-- A record is accepted exactly when it is complete and its stored conclusions are clean. -/
theorem accepted_iff_complete :
    (evaluateRecord r).outcome = .accepted ↔ r.Complete ∧ r.StoredClean := by
  rw [accepted_iff, ne_eq, rejected_iff, inconclusiveReasons, countSignals_hlIndeterminate]
  simp only [List.append_eq_nil_iff, ite_eq_right_iff, List.cons_ne_nil, imp_false, not_not,
    Bool.not_eq_false, List.countP_eq_zero, ne_eq, not_or, not_exists, not_and,
    OracleComparison.openMismatch, OracleComparison.highLowMismatch, OracleComparison.indeterminate,
    decide_eq_true_eq]
  constructor
  · rintro ⟨⟨hmismatch, hmono, hlateKept, hreconnectKept⟩,
      ⟨⟨⟨⟨horacle, hcoverage⟩, hwindows⟩, hreconnect⟩, hlate⟩, hindeterminate⟩
    refine ⟨⟨horacle, hcoverage, hwindows, hreconnect, hlate, hlateKept, hreconnectKept⟩, ?_, hmono⟩
    intro c hc
    refine ⟨fun hclass => ?_, hindeterminate c hc⟩
    obtain ⟨hopen, hother⟩ := hmismatch c hc
    exact hother (fun hfield => hopen hfield hclass) hclass
  · rintro ⟨hcomplete, hclean⟩
    refine ⟨⟨?_, hclean.monotone, hcomplete.lateStartKept, hcomplete.reconnectKept⟩,
      ⟨⟨⟨⟨hcomplete.oracle, hcomplete.coverage⟩, hcomplete.windows⟩, hcomplete.reconnect⟩,
        hcomplete.lateStart⟩, fun c hc => (hclean.classified c hc).2⟩
    intro c hc
    exact ⟨fun _ => (hclean.classified c hc).1, fun _ => (hclean.classified c hc).1⟩

/-- A complete record has a late start that kept the prior prices. -/
theorem lateStart_retained (h : r.Complete) :
    ∃ ev prior first, r.lateStart = some ev ∧ ev.observed = true ∧ ev.prior = some prior ∧
      ev.first = some first ∧ Retained prior first := by
  have hincomplete := h.lateStart
  have hkept := h.lateStartKept
  cases hev : r.lateStart with
  | none => simp [lateStartIncomplete, hev] at hincomplete
  | some ev =>
    cases hobserved : ev.observed with
    | false => simp [lateStartIncomplete, hev, hobserved] at hincomplete
    | true =>
      cases hprior : ev.prior with
      | none => simp [lateStartIncomplete, hev, hobserved, hprior] at hincomplete
      | some prior =>
        cases hfirst : ev.first with
        | none => simp [lateStartIncomplete, hev, hobserved, hprior, hfirst] at hincomplete
        | some first =>
          have hlost : lost prior first = [] := by
            simpa [lateStartRejections, hev, hobserved, hprior, hfirst] using hkept
          exact ⟨ev, prior, first, rfl, hobserved, hprior, hfirst, lost_eq_nil_iff.mp hlost⟩

/-- A complete record has an observed reconnect where one is required. -/
theorem reconnected (h : r.Complete) (hrequired : r.csoa16Required = true) :
    ∃ ev, r.reconnect = some ev ∧ ev.observed = true := by
  have hincomplete := h.reconnect
  cases hev : r.reconnect with
  | none => simp [reconnectIncomplete, hev, hrequired] at hincomplete
  | some ev =>
    cases hobserved : ev.observed with
    | false => simp [reconnectIncomplete, hev, hrequired, hobserved] at hincomplete
    | true => exact ⟨ev, rfl, hobserved⟩

/-- A reconnect of a complete record keeps the prices where all of them are there. -/
theorem reconnect_retained (h : r.Complete) {ev : ReconnectEvidence} (hev : r.reconnect = some ev)
    (hobserved : ev.observed = true) {pre post : OhlcObservation} {before after : Extrema}
    (hpre : ev.pre = some pre) (hpost : ev.post = some post) (hbefore : pre.extrema = some before)
    (hafter : post.extrema = some after) : Retained before after := by
  have hkept := h.reconnectKept
  simp only [reconnectRejections, hev, hobserved, hpre, hpost, continuityLost, hbefore, hafter,
    Bool.true_eq_false, if_false] at hkept
  rw [← lost_eq_nil_iff]
  by_contra hlost
  split at hkept
  · simp at hkept
  · simp at hkept

/-- A complete record is derived exactly when its values support it. -/
theorem derived_iff_supported (h : r.Complete) : r.Derived ↔ r.Supported := by
  constructor
  · intro hderived
    refine ⟨hderived.supported, fun ev hev hobserved => ?_⟩
    obtain ⟨pre, post, before, after, hpre, hpost, hbefore, hafter, -⟩ :=
      hderived.reconnect ev hev hobserved
    exact ⟨pre, post, before, after, hpre, hpost, hbefore, hafter⟩
  · intro hsupported
    obtain ⟨-, hnodup, hidentities⟩ := (coverageReasons_eq_nil_iff r).mp h.coverage
    refine ⟨hnodup, hidentities, hsupported.instruments, lateStart_retained h, reconnected h, ?_⟩
    intro ev hev hobserved
    obtain ⟨pre, post, before, after, hpre, hpost, hbefore, hafter⟩ :=
      hsupported.reconnect ev hev hobserved
    exact ⟨pre, post, before, after, hpre, hpost, hbefore, hafter,
      reconnect_retained h hev hobserved hpre hpost hbefore hafter⟩

/-! ## Stored conclusions -/

theorem identities_rawValues :
    r.rawValues.instruments.map (·.identity) = r.instruments.map (·.identity) := by
  show (r.instruments.map EvidenceRecord.clearInstrument).map (·.identity) = _
  rw [List.map_map]
  rfl

theorem coverageReasons_rawValues : coverageReasons r.rawValues = coverageReasons r := by
  have hnil : r.rawValues.instruments = [] ↔ r.instruments = [] := List.map_eq_nil_iff
  unfold coverageReasons
  rw [identities_rawValues]
  simp only [hnil]
  rfl

/-- Completeness does not look at the stored conclusions. -/
theorem complete_rawValues : r.rawValues.Complete ↔ r.Complete := by
  constructor
  · intro h
    exact ⟨h.oracle, coverageReasons_rawValues ▸ h.coverage, h.windows, h.reconnect, h.lateStart,
      h.lateStartKept, h.reconnectKept⟩
  · intro h
    exact ⟨h.oracle, coverageReasons_rawValues.trans h.coverage, h.windows, h.reconnect, h.lateStart,
      h.lateStartKept, h.reconnectKept⟩

/-- The record without stored conclusions has none that speaks against it. -/
theorem storedClean_rawValues : r.rawValues.StoredClean where
  classified c hc := by
    obtain ⟨inst, hinst, hc⟩ := List.mem_flatMap.mp hc
    obtain ⟨original, -, rfl⟩ := List.mem_map.mp hinst
    obtain ⟨compared, -, rfl⟩ := List.mem_map.mp hc
    exact ⟨nofun, nofun⟩
  monotone inst hinst := by
    obtain ⟨original, -, rfl⟩ := List.mem_map.mp hinst
    rfl

/-- **An acceptance is derived from the raw values, and no change of stored conclusions turns the
    verdict into one, exactly on the records that are incomplete for another reason or whose stored
    conclusions are clean and supported by the values.** -/
theorem derived_verdict_iff (r : EvidenceRecord) :
    (((evaluateRecord r).outcome = .accepted → r.Derived) ∧
      ((evaluateRecord r).outcome ≠ .accepted →
        ∀ s : EvidenceRecord, s.rawValues = r.rawValues → (evaluateRecord s).outcome ≠ .accepted)) ↔
      (r.Complete → r.StoredClean ∧ r.Supported) := by
  constructor
  · rintro ⟨hderived, hchange⟩ hcomplete
    have haccepted : (evaluateRecord r).outcome = .accepted := by
      by_contra hnot
      -- without its stored conclusions the record would be accepted
      refine hchange hnot r.rawValues ?_ (accepted_iff_complete.mpr
        ⟨complete_rawValues.mpr hcomplete, storedClean_rawValues⟩)
      simp [EvidenceRecord.rawValues, EvidenceRecord.clearInstrument]
    exact ⟨(accepted_iff_complete.mp haccepted).2,
      (derived_iff_supported hcomplete).mp (hderived haccepted)⟩
  · intro hcondition
    constructor
    · intro haccepted
      obtain ⟨hcomplete, -⟩ := accepted_iff_complete.mp haccepted
      exact (derived_iff_supported hcomplete).mpr (hcondition hcomplete).2
    · intro hnot s hraw haccepted
      obtain ⟨hcomplete, -⟩ := accepted_iff_complete.mp haccepted
      have hr : r.Complete := by
        rw [← complete_rawValues, ← hraw, complete_rawValues]
        exact hcomplete
      exact hnot (accepted_iff_complete.mpr ⟨hr, (hcondition hr).1⟩)

/-- A record of all windows about one instrument, of which only a comparison of the open is stored:
    the feed says 100 and the oracle 200. -/
def assertedRecord (classification : Classification) : EvidenceRecord :=
  { partRecord ["early", "mid", "late"] 1 102 102 with
    instruments :=
      [{ exchange := "NSE"
         symbol := "RELIANCE"
         securityId := "2885"
         tradingDate := 20666
         oracleComparisons :=
           [{ window := "early"
              field := "open"
              wsValue := some 100
              restValue := some 200
              tickSize := none
              classification := classification }] }] }

/-- An instrument without observations, whose one comparison is of prices that differ and is stored as
    a match, is accepted; with the classification that these prices have it is not. -/
theorem accepted_without_values :
    (evaluateRecord (assertedRecord .matching)).outcome = .accepted ∧
      ¬ (assertedRecord .matching).Derived ∧
      (assertedRecord .matching).comparisons.map (·.derived) = [.mismatch] ∧
      (evaluateRecord (assertedRecord .mismatch)).outcome ≠ .accepted ∧
      (assertedRecord .matching).rawValues = (assertedRecord .mismatch).rawValues := by
  refine ⟨by decide +kernel, ?_, by decide +kernel, by decide +kernel, rfl⟩
  intro h
  exact (h.supported _ List.mem_cons_self).observed rfl

end ApexScan.Evidence
