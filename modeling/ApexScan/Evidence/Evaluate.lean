import Mathlib.Algebra.GroupWithZero.Nat
import Mathlib.Algebra.Order.BigOperators.Group.List
import Mathlib.Algebra.Order.Ring.Rat
import Mathlib.Data.String.Basic
import ApexScan.Evidence.Models
import ApexScan.Lib.DecimalContext
import ApexScan.Lib.Packed
import ApexScan.Lib.Sorting

/-!
# Evaluation of an evidence record (`app/tools/session_ohlc_evidence/evaluate.py`, `canonical.py`)

* `classifyPrice` — a price of the feed against the oracle's.
* `regressions` — one scan of the observations in the order given, the three scans of the code
  (`openViolations`, `highViolations`, `lowViolations`) being its instances.
* `Extends`, `Steady` — what a later observation may show after an earlier one.
  `violations_eq_nil_iff`: no scan reports anything exactly when the observations are steady.
* `evaluateRecord` — rejections first, then what is missing.  `rejected_iff` and `accepted_iff` give
  each outcome in terms of the record.
-/

set_option autoImplicit false

namespace ApexScan.Evidence

open Lib

/-! ## Prices against the oracle -/

/-- `is_finite_price`. -/
def isFinitePrice (value : ℚ) : Bool := (doubleOf value).isSome

/-- `float32_hex`: the bits of a float are its sign and its value.  What rounds to zero keeps its sign. -/
def float32Hex (value : ℚ) : Option (Bool × ℚ) :=
  ((doubleOf value).bind singleOf).map fun single => (decide (value < 0), single)

/-- `float32_equivalent`. -/
def float32Equivalent (left right : ℚ) : Bool :=
  (float32Hex left).isSome ∧ float32Hex left = float32Hex right

/-- `abs(ws_value - rest_value)` in the decimal context, which no difference of finite floats overflows. -/
def priceDifference (ws rest : ℚ) : ℚ := |(DecimalContext.default.round (ws - rest)).getD (ws - rest)|

/-- `classify_price`. -/
def classifyPrice (wsValue restValue tickSize : Option ℚ) (exactly : Bool) : Classification :=
  match wsValue, restValue with
  | some ws, some rest =>
    if ¬ (isFinitePrice ws ∧ isFinitePrice rest) then .mismatch
    else if ws = rest then .matching
    else if float32Equivalent ws rest then .protocolEquivalent
    else if float32Hex ws = none ∨ float32Hex rest = none then .mismatch
    else if exactly then .mismatch
    else
      match tickSize with
      | none => .indeterminate
      | some size => if priceDifference ws rest ≤ size then .drift else .mismatch
  | _, _ => .mismatch

/-! ## Monotonicity -/

section Scan

variable (field : Extremum) (price : OhlcObservation → Option ℚ) (worse : ℚ → ℚ → Bool)
  (best : ℚ → ℚ → ℚ)

/-- One scan: `worse p q` reports a price `p` after the price `q` kept so far, `best` keeps one. -/
def regressions : Option ℚ → List OhlcObservation → List Violation
  | _, [] => []
  | previous, obs :: rest =>
    match price obs, previous with
    | none, _ => regressions previous rest
    | some p, none => regressions (some p) rest
    | some p, some q =>
      (if worse p q then [⟨field, q, p, obs.window⟩] else []) ++ regressions (some (best q p)) rest

/-- The price of `b` is no worse than the price of `a`, where both have one. -/
def NoWorse (a b : OhlcObservation) : Prop :=
  ∀ p q, price a = some p → price b = some q → worse q p = false

variable {field price worse best}

theorem regressions_some_eq_nil_iff
    (hbest : ∀ p q r, worse q p = false → (worse r (best p q) = false ↔ worse r p = false ∧ worse r q = false))
    (p : ℚ) (obs : List OhlcObservation) :
    regressions field price worse best (some p) obs = [] ↔
      (∀ o ∈ obs, ∀ q, price o = some q → worse q p = false) ∧ obs.Pairwise (NoWorse price worse) := by
  induction obs generalizing p with
  | nil => simp [regressions]
  | cons o rest ih =>
    unfold regressions
    cases hp : price o with
    | none =>
      simp only [ih, List.forall_mem_cons, List.pairwise_cons, NoWorse, hp]
      simp
    | some q =>
      simp only [List.append_eq_nil_iff, ih, List.forall_mem_cons, List.pairwise_cons, hp,
        Option.some.injEq, forall_eq', NoWorse]
      cases hw : worse q p with
      | true => simp
      | false =>
        -- what is no worse than the kept price is no worse than both prices it was kept from
        have hkept : (∀ a ∈ rest, ∀ r, price a = some r → worse r (best p q) = false) ↔
            (∀ a ∈ rest, ∀ r, price a = some r → worse r p = false) ∧
              ∀ a ∈ rest, ∀ r, price a = some r → worse r q = false := by
          simp only [hbest p q _ hw]
          constructor
          · intro h
            exact ⟨fun a ha r hr => (h a ha r hr).1, fun a ha r hr => (h a ha r hr).2⟩
          · intro h a ha r hr
            exact ⟨h.1 a ha r hr, h.2 a ha r hr⟩
        simp only [hkept, Bool.false_eq_true, if_false, true_and]
        constructor
        · rintro ⟨⟨hp', hq'⟩, hrest⟩
          exact ⟨hp', ⟨fun a ha p' r hp'' hr => hp'' ▸ hq' a ha r hr, hrest⟩⟩
        · rintro ⟨hp', hq', hrest⟩
          exact ⟨⟨hp', fun a ha r hr => hq' a ha q r rfl hr⟩, hrest⟩

/-- A scan reports nothing exactly when no price is worse than one before it. -/
theorem regressions_eq_nil_iff
    (hbest : ∀ p q r, worse q p = false → (worse r (best p q) = false ↔ worse r p = false ∧ worse r q = false))
    (obs : List OhlcObservation) :
    regressions field price worse best none obs = [] ↔ obs.Pairwise (NoWorse price worse) := by
  induction obs with
  | nil => simp [regressions]
  | cons o rest ih =>
    unfold regressions
    cases hp : price o with
    | none =>
      simp only [ih, List.pairwise_cons, NoWorse, hp]
      simp
    | some p =>
      simp only [regressions_some_eq_nil_iff hbest, List.pairwise_cons]
      constructor
      · rintro ⟨h, hrest⟩
        refine ⟨fun a ha p' q hp' hq => ?_, hrest⟩
        rw [hp, Option.some.injEq] at hp'
        exact hp' ▸ h a ha q hq
      · rintro ⟨h, hrest⟩
        exact ⟨fun a ha q hq => h a ha p q hp hq, hrest⟩

end Scan

/-- `_open_violations`: each open against the first one. -/
def openViolations (observations : List OhlcObservation) : List Violation :=
  regressions .open (·.openPrice) (fun p first => p ≠ first) (fun first _ => first) none observations

/-- `_high_violations`: each high against the greatest one so far. -/
def highViolations (observations : List OhlcObservation) : List Violation :=
  regressions .high (·.highPrice) (fun p prev => p < prev) max none observations

/-- `_low_violations`: each low against the least one so far. -/
def lowViolations (observations : List OhlcObservation) : List Violation :=
  regressions .low (·.lowPrice) (fun p prev => p > prev) min none observations

/-- `evaluate_monotonicity`. -/
def evaluateMonotonicity (observations : List OhlcObservation) : MonotonicityResult :=
  let openV := openViolations observations
  let highV := highViolations observations
  let lowV := lowViolations observations
  { openStable := openV.isEmpty
    highNonDecreasing := highV.isEmpty
    lowNonIncreasing := lowV.isEmpty
    violations := openV ++ highV ++ lowV }

/-- After `a`, the observation `b` shows the same open, no lower high and no higher low. -/
structure Extends (a b : OhlcObservation) : Prop where
  open_eq : ∀ p q, a.openPrice = some p → b.openPrice = some q → q = p
  high_le : ∀ p q, a.highPrice = some p → b.highPrice = some q → p ≤ q
  le_low : ∀ p q, a.lowPrice = some p → b.lowPrice = some q → q ≤ p

/-- The open is constant, the high never falls and the low never rises. -/
def Steady (observations : List OhlcObservation) : Prop := observations.Pairwise Extends

theorem openViolations_eq_nil_iff (obs : List OhlcObservation) :
    openViolations obs = [] ↔
      obs.Pairwise fun a b => ∀ p q, a.openPrice = some p → b.openPrice = some q → q = p := by
  unfold openViolations
  rw [regressions_eq_nil_iff]
  · apply List.Pairwise.iff
    simp [NoWorse]
  · intro p q r h
    simp_all

theorem highViolations_eq_nil_iff (obs : List OhlcObservation) :
    highViolations obs = [] ↔
      obs.Pairwise fun a b => ∀ p q, a.highPrice = some p → b.highPrice = some q → p ≤ q := by
  unfold highViolations
  rw [regressions_eq_nil_iff]
  · apply List.Pairwise.iff
    simp [NoWorse]
  · intro p q r _
    simp

theorem lowViolations_eq_nil_iff (obs : List OhlcObservation) :
    lowViolations obs = [] ↔
      obs.Pairwise fun a b => ∀ p q, a.lowPrice = some p → b.lowPrice = some q → q ≤ p := by
  unfold lowViolations
  rw [regressions_eq_nil_iff]
  · apply List.Pairwise.iff
    simp [NoWorse]
  · intro p q r _
    simp

/-- No violation is reported exactly when the observations, in the order given, are steady. -/
theorem violations_eq_nil_iff (obs : List OhlcObservation) :
    (evaluateMonotonicity obs).violations = [] ↔ Steady obs := by
  simp only [evaluateMonotonicity, List.append_eq_nil_iff, openViolations_eq_nil_iff,
    highViolations_eq_nil_iff, lowViolations_eq_nil_iff, Steady]
  rw [← List.pairwise_and_iff, ← List.pairwise_and_iff]
  constructor
  · intro h
    exact h.imp fun hab => ⟨hab.1.1, hab.1.2, hab.2⟩
  · intro h
    exact h.imp fun hab => ⟨⟨hab.open_eq, hab.high_le⟩, hab.le_low⟩

instance (observations : List OhlcObservation) : Decidable (Steady observations) :=
  decidable_of_iff _ (violations_eq_nil_iff observations)

theorem steady_append {xs ys : List OhlcObservation} :
    Steady (xs ++ ys) ↔ Steady xs ∧ Steady ys ∧ ∀ a ∈ xs, ∀ b ∈ ys, Extends a b :=
  List.pairwise_append

/-! ## What is counted -/

/-- The counters of `_count_signals`. -/
structure Signals where
  openMismatch : ℕ := 0
  mono : ℕ := 0
  proto : ℕ := 0
  hlDrift : ℕ := 0
  hlIndeterminate : ℕ := 0
  hlMismatch : ℕ := 0
  deriving DecidableEq

/-- `_tally`. -/
def tally (counts : Signals) (comparison : OracleComparison) : Signals :=
  let cls := comparison.classification
  if cls = .protocolEquivalent then { counts with proto := counts.proto + 1 }
  else if comparison.field = "open" ∧ cls = .mismatch then
    { counts with openMismatch := counts.openMismatch + 1 }
  else if cls = .drift then { counts with hlDrift := counts.hlDrift + 1 }
  else if cls = .indeterminate then { counts with hlIndeterminate := counts.hlIndeterminate + 1 }
  else if comparison.field ≠ "open" ∧ cls = .mismatch then
    { counts with hlMismatch := counts.hlMismatch + 1 }
  else counts

/-- One round of the loop of `_count_signals`. -/
def countInstrument (counts : Signals) (inst : InstrumentEvidence) : Signals :=
  let counts := inst.oracleComparisons.foldl tally counts
  match inst.monotonicity with
  | none => counts
  | some m => { counts with mono := counts.mono + m.violations.length }

/-- `_count_signals`. -/
def countSignals (record : EvidenceRecord) : Signals := record.instruments.foldl countInstrument {}

/-- The violations that an instrument's evidence carries. -/
def InstrumentEvidence.violations (inst : InstrumentEvidence) : List Violation :=
  (inst.monotonicity.map (·.violations)).getD []

/-- The oracle comparisons of a record. -/
def EvidenceRecord.comparisons (record : EvidenceRecord) : List OracleComparison :=
  record.instruments.flatMap (·.oracleComparisons)

section Counters

variable (counter : Signals → ℕ) (p : OracleComparison → Bool)

theorem counter_foldl_tally (h : ∀ counts c, counter (tally counts c) = counter counts + (p c).toNat)
    (cs : List OracleComparison) (counts : Signals) :
    counter (cs.foldl tally counts) = counter counts + cs.countP p := by
  induction cs generalizing counts with
  | nil => rfl
  | cons c cs ih =>
    rw [List.foldl_cons, ih, h, List.countP_cons, Nat.add_right_comm, Nat.add_assoc]
    cases p c <;> rfl

theorem counter_foldl_countInstrument
    (h : ∀ counts c, counter (tally counts c) = counter counts + (p c).toNat)
    (hmono : ∀ (counts : Signals) n, counter { counts with mono := n } = counter counts)
    (insts : List InstrumentEvidence) (counts : Signals) :
    counter (insts.foldl countInstrument counts) =
      counter counts + (insts.flatMap (·.oracleComparisons)).countP p := by
  induction insts generalizing counts with
  | nil => rfl
  | cons inst insts ih =>
    have hone : counter (countInstrument counts inst) =
        counter counts + inst.oracleComparisons.countP p := by
      unfold countInstrument
      cases inst.monotonicity with
      | none => exact counter_foldl_tally counter p h _ _
      | some m => exact (hmono _ _).trans (counter_foldl_tally counter p h _ _)
    rw [List.foldl_cons, ih, hone, List.flatMap_cons, List.countP_append]
    omega

end Counters

/-- An open that is not the oracle's. -/
def OracleComparison.openMismatch (c : OracleComparison) : Bool :=
  c.field = "open" ∧ c.classification = .mismatch

/-- A high or low that is not the oracle's. -/
def OracleComparison.highLowMismatch (c : OracleComparison) : Bool :=
  c.field ≠ "open" ∧ c.classification = .mismatch

/-- A comparison without a tick size. -/
def OracleComparison.indeterminate (c : OracleComparison) : Bool := c.classification = .indeterminate

theorem countSignals_openMismatch (record : EvidenceRecord) :
    (countSignals record).openMismatch = record.comparisons.countP (·.openMismatch) := by
  have h := counter_foldl_countInstrument (·.openMismatch) (·.openMismatch)
    (fun counts c => by unfold tally OracleComparison.openMismatch; grind) (fun _ _ => rfl)
    record.instruments {}
  exact h.trans (Nat.zero_add _)

theorem countSignals_hlMismatch (record : EvidenceRecord) :
    (countSignals record).hlMismatch = record.comparisons.countP (·.highLowMismatch) := by
  have h := counter_foldl_countInstrument (·.hlMismatch) (·.highLowMismatch)
    (fun counts c => by unfold tally OracleComparison.highLowMismatch; grind) (fun _ _ => rfl)
    record.instruments {}
  exact h.trans (Nat.zero_add _)

theorem countSignals_hlIndeterminate (record : EvidenceRecord) :
    (countSignals record).hlIndeterminate = record.comparisons.countP (·.indeterminate) := by
  have h := counter_foldl_countInstrument (·.hlIndeterminate) (·.indeterminate)
    (fun counts c => by unfold tally OracleComparison.indeterminate; grind) (fun _ _ => rfl)
    record.instruments {}
  exact h.trans (Nat.zero_add _)

theorem mono_foldl_tally (cs : List OracleComparison) (counts : Signals) :
    (cs.foldl tally counts).mono = counts.mono := by
  have h := counter_foldl_tally (·.mono) (fun _ => false)
    (fun counts c => by unfold tally; grind) cs counts
  simpa using h

theorem mono_foldl_countInstrument (insts : List InstrumentEvidence) (counts : Signals) :
    (insts.foldl countInstrument counts).mono =
      counts.mono + (insts.map fun i => i.violations.length).sum := by
  induction insts generalizing counts with
  | nil => rfl
  | cons inst insts ih =>
    have hone : (countInstrument counts inst).mono = counts.mono + inst.violations.length := by
      unfold countInstrument InstrumentEvidence.violations
      cases inst.monotonicity with
      | none => exact mono_foldl_tally _ _
      | some m => exact congrArg (· + m.violations.length) (mono_foldl_tally _ _)
    rw [List.foldl_cons, ih, hone, List.map_cons, List.sum_cons]
    omega

/-- Violations are counted exactly when some instrument carries one. -/
theorem countSignals_mono_ne_zero_iff (record : EvidenceRecord) :
    (countSignals record).mono ≠ 0 ↔ ∃ inst ∈ record.instruments, inst.violations ≠ [] := by
  unfold countSignals
  rw [mono_foldl_countInstrument, Nat.zero_add, ne_eq, List.sum_eq_zero_iff]
  simp

/-! ## The verdict -/

/-- Three prices that are all there. -/
structure Extrema where
  openPrice : ℚ
  high : ℚ
  low : ℚ

/-- `_all_present`, and the prices. -/
def allPresent : Option ℚ → Option ℚ → Option ℚ → Option Extrema
  | some openPrice, some high, some low => some ⟨openPrice, high, low⟩
  | _, _, _ => none

def OhlcObservation.extrema (o : OhlcObservation) : Option Extrema :=
  allPresent o.openPrice o.highPrice o.lowPrice

def LateStartEvidence.prior (ev : LateStartEvidence) : Option Extrema :=
  allPresent ev.priorOpen ev.priorHigh ev.priorLow

def LateStartEvidence.first (ev : LateStartEvidence) : Option Extrema :=
  allPresent ev.firstOpen ev.firstHigh ev.firstLow

/-- The extrema that are in `before` and no longer in `after`. -/
def lost (before after : Extrema) : List Extremum :=
  (if after.openPrice ≠ before.openPrice then [.open] else []) ++
    (if after.high < before.high then [.high] else []) ++
    (if after.low > before.low then [.low] else [])

/-- `_late_start_rejections`. -/
def lateStartRejections : Option LateStartEvidence → List Reason
  | none => []
  | some ev =>
    if ev.observed = false then []
    else
      match ev.prior, ev.first with
      | some prior, some first =>
        if lost prior first ≠ [] then [.lateStartLost (lost prior first)] else []
      | _, _ => []

/-- The checks of `_reconnect_rejections` on the two observations. -/
def continuityLost (pre post : OhlcObservation) : List Reason :=
  match pre.extrema, post.extrema with
  | some before, some after =>
    if pre.tradingDate ≠ none ∧ post.tradingDate ≠ pre.tradingDate then [.reconnectNewSession]
    else if lost before after ≠ [] then [.reconnectLost (lost before after)]
    else []
  | _, _ => []

/-- `_reconnect_rejections`. -/
def reconnectRejections : Option ReconnectEvidence → List Reason
  | none => []
  | some ev =>
    if ev.observed = false then []
    else
      match ev.pre, ev.post with
      | some pre, some post => continuityLost pre post
      | _, _ => []

/-- `_rejection_reasons`. -/
def rejectionReasons (record : EvidenceRecord) (counts : Signals) : List Reason :=
  (if counts.openMismatch ≠ 0 then [.openMismatches counts.openMismatch] else []) ++
    (if counts.mono ≠ 0 then [.monotonicityViolations counts.mono] else []) ++
    (if counts.hlMismatch ≠ 0 then [.highLowMismatches counts.hlMismatch] else []) ++
    lateStartRejections record.lateStart ++
    reconnectRejections record.reconnect

/-- `_coverage_reasons`. -/
def coverageReasons (record : EvidenceRecord) : List Reason :=
  if record.instruments = [] then [.noInstruments]
  else
    let observedIds := record.instruments.map (·.identity)
    let observedSet := observedIds.dedup
    let expectedSet := record.expectedInstruments.dedup
    let missing := expectedSet.filter fun i => i ∉ observedSet
    let extra := observedSet.filter fun i => i ∉ expectedSet
    (if observedIds.length ≠ observedSet.length then [.duplicateInstruments] else []) ++
      (if missing ≠ [] then [.notObserved missing.length] else []) ++
      (if extra ≠ [] then [.unexpected extra.length] else [])

/-- `_window_reasons`. -/
def windowReasons (record : EvidenceRecord) : List Reason :=
  let missing := record.requiredWindows.dedup.filter fun w => w ∉ record.sampleWindows
  if missing ≠ [] then [.missingWindows (sortBy id missing)] else []

/-- `_late_start_incomplete`. -/
def lateStartIncomplete : Option LateStartEvidence → List Reason
  | none => [.noLateStartEvidence]
  | some ev =>
    if ev.observed = false then [.noLateStartEvidence]
    else
      match ev.prior, ev.first with
      | some _, some _ => if ev.kind = .observerLateAttach then [.lateStartNotProven] else []
      | _, _ => [.lateStartIncomplete]

/-- `_reconnect_incomplete`. -/
def reconnectIncomplete (record : EvidenceRecord) : List Reason :=
  let observed := (record.reconnect.map (·.observed)).getD false
  if record.csoa16Required = true ∧ observed = false then [.noReconnectEvidence]
  else
    match record.reconnect with
    | some ev =>
      if ev.observed = true ∧ (ev.pre = none ∨ ev.post = none) then [.reconnectIncomplete] else []
    | none => []

/-- `_inconclusive_reasons`. -/
def inconclusiveReasons (record : EvidenceRecord) (counts : Signals) : List Reason :=
  (if record.oracleAvailable = false then [.oracleUnavailable] else []) ++
    coverageReasons record ++ windowReasons record ++ reconnectIncomplete record ++
    lateStartIncomplete record.lateStart ++
    (if counts.hlIndeterminate ≠ 0 then [.highLowIndeterminate counts.hlIndeterminate] else [])

/-- `evaluate_record`. -/
def evaluateRecord (record : EvidenceRecord) : Verdict :=
  let counts := countSignals record
  let rejections := rejectionReasons record counts
  let inconclusive := inconclusiveReasons record counts
  if rejections ≠ [] then
    { outcome := .rejected
      reasons := rejections
      openMismatches := counts.openMismatch
      monotonicityViolations := counts.mono
      protocolEquivalent := counts.proto
      highLowDrift := counts.hlDrift
      highLowIndeterminate := counts.hlIndeterminate
      highLowMismatch := counts.hlMismatch }
  else if inconclusive ≠ [] then
    { outcome := .inconclusive
      reasons := inconclusive
      protocolEquivalent := counts.proto
      highLowDrift := counts.hlDrift
      highLowIndeterminate := counts.hlIndeterminate }
  else
    { outcome := .accepted
      reasons := [.allSatisfied]
      protocolEquivalent := counts.proto
      highLowDrift := counts.hlDrift }

/-- A record is rejected exactly for a mismatch with the oracle, a violation, or a lost extremum. -/
theorem rejected_iff (record : EvidenceRecord) :
    (evaluateRecord record).outcome = .rejected ↔
      (∃ c ∈ record.comparisons, c.openMismatch ∨ c.highLowMismatch) ∨
        (∃ inst ∈ record.instruments, inst.violations ≠ []) ∨
        lateStartRejections record.lateStart ≠ [] ∨ reconnectRejections record.reconnect ≠ [] := by
  have hreasons : (evaluateRecord record).outcome = .rejected ↔
      rejectionReasons record (countSignals record) ≠ [] := by
    unfold evaluateRecord
    grind
  have hmono := countSignals_mono_ne_zero_iff record
  rw [hreasons, rejectionReasons, countSignals_openMismatch, countSignals_hlMismatch]
  simp only [ne_eq, List.append_eq_nil_iff, ite_eq_right_iff, List.cons_ne_nil, imp_false, not_not,
    List.countP_eq_zero]
  grind

/-- A record is accepted exactly when there is no reason for another verdict. -/
theorem accepted_iff (record : EvidenceRecord) :
    (evaluateRecord record).outcome = .accepted ↔
      (evaluateRecord record).outcome ≠ .rejected ∧
        inconclusiveReasons record (countSignals record) = [] := by
  unfold evaluateRecord
  grind

theorem mem_lateStartRejections {ev : Option LateStartEvidence} {r : Reason}
    (h : r ∈ lateStartRejections ev) : ∃ l, r = .lateStartLost l := by
  unfold lateStartRejections at h
  grind

theorem mem_reconnectRejections {ev : Option ReconnectEvidence} {r : Reason}
    (h : r ∈ reconnectRejections ev) : r = .reconnectNewSession ∨ ∃ l, r = .reconnectLost l := by
  have hcont {pre post : OhlcObservation} (h : r ∈ continuityLost pre post) :
      r = .reconnectNewSession ∨ ∃ l, r = .reconnectLost l := by
    unfold continuityLost at h
    grind
  unfold reconnectRejections at h
  grind

/-- The reasons that reject a record; the others leave it inconclusive. -/
def Reason.rejects : Reason → Bool
  | .openMismatches _ | .monotonicityViolations _ | .highLowMismatches _ | .lateStartLost _
  | .reconnectNewSession | .reconnectLost _ => true
  | _ => false

theorem rejects_of_mem_coverageReasons {record : EvidenceRecord} {r : Reason}
    (h : r ∈ coverageReasons record) : r.rejects = false := by
  unfold coverageReasons at h
  grind [Reason.rejects]

theorem rejects_of_mem_reconnectIncomplete {record : EvidenceRecord} {r : Reason}
    (h : r ∈ reconnectIncomplete record) : r.rejects = false := by
  unfold reconnectIncomplete at h
  grind [Reason.rejects]

theorem rejects_of_mem_lateStartIncomplete {ev : Option LateStartEvidence} {r : Reason}
    (h : r ∈ lateStartIncomplete ev) : r.rejects = false := by
  unfold lateStartIncomplete at h
  grind [Reason.rejects]

/-- An inconclusive verdict gives no reason for a rejection. -/
theorem rejects_of_mem_inconclusiveReasons {record : EvidenceRecord} {counts : Signals} {r : Reason}
    (h : r ∈ inconclusiveReasons record counts) : r.rejects = false := by
  simp only [inconclusiveReasons, windowReasons, List.mem_append] at h
  rcases h with ((((h | h) | h) | h) | h) | h
  · grind [Reason.rejects]
  · exact rejects_of_mem_coverageReasons h
  · grind [Reason.rejects]
  · exact rejects_of_mem_reconnectIncomplete h
  · exact rejects_of_mem_lateStartIncomplete h
  · grind [Reason.rejects]

theorem monotonicityViolations_mem_rejectionReasons (record : EvidenceRecord) (counts : Signals) :
    (∃ n, Reason.monotonicityViolations n ∈ rejectionReasons record counts) ↔ counts.mono ≠ 0 := by
  constructor
  · rintro ⟨n, h⟩
    simp only [rejectionReasons, List.mem_append] at h
    rcases h with (((h | h) | h) | h) | h
    · grind
    · grind
    · grind
    · obtain ⟨l, hl⟩ := mem_lateStartRejections h
      cases hl
    · obtain hl | ⟨l, hl⟩ := mem_reconnectRejections h
      · cases hl
      · cases hl
  · intro h
    exact ⟨counts.mono, by simp [rejectionReasons, h]⟩

/-- A verdict names monotonicity exactly when some instrument carries a violation. -/
theorem monotonicityViolations_mem_reasons (record : EvidenceRecord) :
    (∃ n, Reason.monotonicityViolations n ∈ (evaluateRecord record).reasons) ↔
      ∃ inst ∈ record.instruments, inst.violations ≠ [] := by
  rw [← countSignals_mono_ne_zero_iff, ← monotonicityViolations_mem_rejectionReasons record]
  unfold evaluateRecord
  by_cases hrej : rejectionReasons record (countSignals record) = []
  · have hinc : ∀ n, Reason.monotonicityViolations n ∉
        inconclusiveReasons record (countSignals record) := fun n h =>
      absurd (rejects_of_mem_inconclusiveReasons h) (by simp [Reason.rejects])
    grind
  · simp [hrej]

end ApexScan.Evidence
