import ApexScan.Evidence.CollectRuns

/-!
# The verdict on collected records

The records of a day are collected one by one and combined, and the combination is evaluated.

* `SettledInstrument`, `Settled` — a record whose conclusions are those of its own observations.
* `SeenByBoth` — the feed and the oracle have seen the instrument in one window.
* `Day` — what the records of a day have to show, once they are merged.

Main result: `collected_verdict`.
-/

set_option autoImplicit false

namespace ApexScan.Evidence.Collect

open Lib
open Dhan (DhanInstrumentReference)

/-! ## Conclusions from observations -/

/-- Both sources have seen the instrument in one window. -/
def SeenByBoth (inst : InstrumentEvidence) : Prop :=
  ∃ ws ∈ inst.wsObservations, ∃ rest ∈ inst.restObservations, ws.window = rest.window

/-- The conclusions of an instrument's evidence are those of its own observations. -/
structure SettledInstrument (inst : InstrumentEvidence) : Prop where
  classified : ∀ c ∈ inst.oracleComparisons, c.classification = c.derived
  fields : ∀ c ∈ inst.oracleComparisons, c.field ∈ ["open", "high", "low"]
  compared : ∀ field ∈ ["open", "high", "low"],
    (∃ c ∈ inst.oracleComparisons, c.field = field) ↔ SeenByBoth inst

/-- What the evaluation may rely on in a collected record. -/
structure Settled (r : EvidenceRecord) : Prop where
  oracle : r.oracleAvailable = true
  csoa16 : r.csoa16Required = true
  required : r.requiredWindows = ["early", "mid", "late"]
  expected : ∀ inst ∈ r.instruments, inst.identity ∈ r.expectedInstruments
  instruments : ∀ inst ∈ r.instruments, SettledInstrument inst
  lateStart : ∀ ev, r.lateStart = some ev → ev.observed = true →
    ev.kind = .providerLateSubscription ∧ ∃ prior first, ev.prior = some prior ∧ ev.first = some first
  reconnect : ∀ ev, r.reconnect = some ev → ev.observed = true →
    ev.Filled ∧ ∀ pre, ev.pre = some pre → pre.tradingDate = none

/-- The tolerance does not matter where a price has to be exact. -/
theorem classifyPrice_exactly (ws rest tickSize : Option ℚ) :
    classifyPrice ws rest tickSize true = classifyPrice ws rest none true := by
  unfold classifyPrice
  cases ws <;> cases rest <;> simp

theorem comparison_derived {window field : String} {exactly : Bool} {tickSize ws rest : Option ℚ}
    (hfield : exactly = decide (field = "open")) :
    (comparison window field exactly tickSize ws rest).classification =
      (comparison window field exactly tickSize ws rest).derived := by
  show classifyPrice ws rest tickSize exactly =
    classifyPrice ws rest (if exactly then none else tickSize) (decide (field = "open"))
  rw [← hfield]
  cases exactly with
  | true => exact classifyPrice_exactly ws rest tickSize
  | false => rfl

/-- The comparisons of an instrument are those of the windows in which both sources have seen it. -/
theorem mem_oracleComparisons {instrument : Instrument} {securityId : String} {tradingDate : Int}
    {ws rest : Windows} {tickSize : Option ℚ} {c : OracleComparison} :
    c ∈ (buildInstrumentEvidence instrument securityId tradingDate ws rest tickSize).oracleComparisons ↔
      ∃ w wsObs restObs, ws.get w = some wsObs ∧ rest.get w = some restObs ∧
        c ∈ comparisons tickSize w wsObs restObs := by
  simp only [buildInstrumentEvidence, List.mem_flatMap, mem_sortBy, List.mem_filter, decide_eq_true_eq,
    Dict.mem_keys_iff, Option.isSome_iff_exists]
  constructor
  · rintro ⟨w, ⟨⟨wsObs, hws⟩, restObs, hrest⟩, hc⟩
    simp only [comparisonsIn, hws, hrest] at hc
    exact ⟨w, wsObs, restObs, hws, hrest, hc⟩
  · rintro ⟨w, wsObs, restObs, hws, hrest, hc⟩
    refine ⟨w, ⟨⟨wsObs, hws⟩, restObs, hrest⟩, ?_⟩
    simp only [comparisonsIn, hws, hrest]
    exact hc

/-- Every observation is filed under its own window. -/
def Labelled (byWindow : Windows) : Prop := ∀ w o, byWindow.get w = some o → o.window = w

theorem settled_built {instrument : Instrument} {securityId : String} {tradingDate : Int}
    {ws rest : Windows} {tickSize : Option ℚ} (hws : Labelled ws) (hrest : Labelled rest) :
    SettledInstrument (buildInstrumentEvidence instrument securityId tradingDate ws rest tickSize) where
  classified := by
    intro c hc
    obtain ⟨w, wsObs, restObs, -, -, hc⟩ := mem_oracleComparisons.mp hc
    simp only [comparisons, List.mem_cons, List.not_mem_nil, or_false] at hc
    rcases hc with rfl | rfl | rfl
    · exact comparison_derived rfl
    · exact comparison_derived rfl
    · exact comparison_derived rfl
  fields := by
    intro c hc
    obtain ⟨w, wsObs, restObs, -, -, hc⟩ := mem_oracleComparisons.mp hc
    simp only [comparisons, List.mem_cons, List.not_mem_nil, or_false] at hc
    rcases hc with rfl | rfl | rfl <;> simp [comparison]
  compared := by
    intro field hfield
    have hseen : SeenByBoth (buildInstrumentEvidence instrument securityId tradingDate ws rest tickSize) ↔
        ∃ w wsObs restObs, ws.get w = some wsObs ∧ rest.get w = some restObs := by
      constructor
      · rintro ⟨o, ho, o', ho', hsame⟩
        obtain ⟨w, hw⟩ := mem_inWindowOrder.mp ho
        obtain ⟨w', hw'⟩ := mem_inWindowOrder.mp ho'
        rw [hws w o hw, hrest w' o' hw'] at hsame
        exact ⟨w, o, o', hw, hsame ▸ hw'⟩
      · rintro ⟨w, o, o', hw, hw'⟩
        refine ⟨o, mem_inWindowOrder.mpr ⟨w, hw⟩, o', mem_inWindowOrder.mpr ⟨w, hw'⟩, ?_⟩
        rw [hws w o hw, hrest w o' hw']
    rw [hseen]
    constructor
    · rintro ⟨c, hc, -⟩
      obtain ⟨w, wsObs, restObs, hget, hget', -⟩ := mem_oracleComparisons.mp hc
      exact ⟨w, wsObs, restObs, hget, hget'⟩
    · rintro ⟨w, wsObs, restObs, hget, hget'⟩
      simp only [List.mem_cons, List.not_mem_nil, or_false] at hfield
      have hmem {c : OracleComparison} (hc : c ∈ comparisons tickSize w wsObs restObs) :
          c ∈ (buildInstrumentEvidence instrument securityId tradingDate ws rest tickSize).oracleComparisons :=
        mem_oracleComparisons.mpr ⟨w, wsObs, restObs, hget, hget', hc⟩
      rcases hfield with rfl | rfl | rfl
      · exact ⟨_, hmem (List.mem_cons_self), rfl⟩
      · exact ⟨_, hmem (List.mem_cons_of_mem _ List.mem_cons_self), rfl⟩
      · exact ⟨_, hmem (List.mem_cons_of_mem _ (List.mem_cons_of_mem _ List.mem_cons_self)), rfl⟩

theorem labelled_of_holds {P : String → String → OhlcObservation → Prop} {acc : Accumulated}
    (hacc : Holds P acc) (hlabel : ∀ key w o, P key w o → o.window = w) (key : String) :
    Labelled ((acc.get key).getD []) := by
  intro w o hget
  cases hkey : acc.get key with
  | none =>
    rw [hkey] at hget
    cases hget
  | some byWindow =>
    rw [hkey] at hget
    exact hlabel key w o (hacc key byWindow w o hkey hget)

/-- What `run_collect` returns is settled. -/
theorem settled_collect {windows : List String} {session : Session} {tickSize : Option ℚ}
    {trace : List Event} {record : EvidenceRecord}
    (h : Interaction.Runs (runCollect windows session tickSize) trace (.ok record)) : Settled record := by
  obtain ⟨references, rounds, starts, ends, -, -, hsampled, rfl⟩ := runs_runCollect h
  obtain ⟨hws, hrest⟩ := @holds_rounds _ rounds rounds ([], []) hsampled (fun r hr => hr) (holds_nil _)
    (holds_nil _)
  constructor
  · rfl
  · rfl
  · rfl
  · intro inst hinst
    obtain ⟨ref, href, hbuilt⟩ := mem_assemble hinst
    rw [hbuilt]
    exact List.mem_map_of_mem href
  · intro inst hinst
    obtain ⟨ref, href, hbuilt⟩ := mem_assemble hinst
    rw [hbuilt]
    apply settled_built
    · apply labelled_of_holds hws
      rintro key w o ⟨r, -, -, datum, -, hobs⟩
      exact (wsObservation_full hobs).1.window_eq
    · apply labelled_of_holds hrest
      rintro key w o ⟨r, -, -, obs, -, -, rfl⟩
      exact (restObservation_full w obs).window_eq
  · intro ev hev hobserved
    cases hev
    cases hobserved
  · intro ev hev hobserved
    cases hev
    cases hobserved

/-! ## Captures -/

section Captures

variable {trace : List Event} {instrument : Instrument}

/-- What a sample holds of an instrument has all its prices, and the feed tells no trading date. -/
theorem sampled_full {window : String} {expected : ℕ} {streamed : Streamed} {sample : Sample}
    (h : sampled window expected streamed = .ok sample) {key : String} {o : OhlcObservation}
    (hget : sample.get key = some o) : (∃ e, o.extrema = some e) ∧ o.tradingDate = none := by
  obtain ⟨kv, hfind, rfl⟩ := Option.map_eq_some_iff.mp hget
  obtain ⟨datum, -, hobs⟩ := mem_sampled h (List.mem_of_find?_eq_some hfind)
  obtain ⟨hfull, hdate⟩ := wsObservation_full hobs
  exact ⟨hfull.extrema, hdate⟩

theorem restSample_full {window : String} {observations : List SessionStatisticsObservation}
    {key : String} {o : OhlcObservation} (hget : (restSample window observations).get key = some o) :
    ∃ e, o.extrema = some e := by
  obtain ⟨kv, hfind, rfl⟩ := Option.map_eq_some_iff.mp hget
  obtain ⟨obs, -, rfl⟩ := mem_restSample (List.mem_of_find?_eq_some hfind)
  exact (restObservation_full window obs).extrema

/-- A late start that is observed has all its prices. -/
theorem captured_lateStart {tradingDate observedAt : Int} {ev : LateStartEvidence}
    (h : Interaction.Runs (captureLateStart instrument tradingDate observedAt) trace (.ok ev))
    (hobserved : ev.observed = true) : ev.kind = .providerLateSubscription ∧
      ∃ prior first, ev.prior = some prior ∧ ev.first = some first := by
  obtain ⟨rest, t, t', hrest, hlater, rfl⟩ := Interaction.runs_bind_ok.mp h
  obtain ⟨ws, t₁, t₂, hws, hpure, rfl⟩ := Interaction.runs_bind_ok.mp hlater
  obtain ⟨rfl, hev⟩ := Interaction.runs_pure.mp hpure
  cases hev
  obtain ⟨answer, -, hanswer⟩ := runs_fetchRest hrest
  obtain ⟨observations, -, rfl⟩ := hanswer rest rfl
  obtain ⟨streamed, closed, -, hstreamed⟩ := runs_sampleWs hws
  obtain ⟨-, hsampled⟩ := hstreamed ws rfl
  cases hprior : (restSample "prior" observations).get (instrumentKey instrument) with
  | none =>
    rw [hprior] at hobserved
    cases hobserved
  | some prior =>
    cases hfirst : ws.get (instrumentKey instrument) with
    | none =>
      rw [hprior, hfirst] at hobserved
      cases hobserved
    | some first =>
      obtain ⟨before, hbefore⟩ := restSample_full hprior
      obtain ⟨⟨after, hafter⟩, -⟩ := sampled_full hsampled hfirst
      exact ⟨rfl, before, after, hbefore, hafter⟩

/-- A reconnect that is observed has all its prices. -/
theorem captured_reconnect {ev : ReconnectEvidence}
    (h : Interaction.Runs (captureReconnect instrument) trace (.ok ev)) (hobserved : ev.observed = true) :
    ev.Filled ∧ ∀ pre, ev.pre = some pre → pre.tradingDate = none := by
  obtain ⟨preSample, t, t', hpre, hlater, rfl⟩ := Interaction.runs_bind_ok.mp h
  obtain ⟨postSample, t₁, t₂, hpost, hpure, rfl⟩ := Interaction.runs_bind_ok.mp hlater
  obtain ⟨rfl, hev⟩ := Interaction.runs_pure.mp hpure
  cases hev
  obtain ⟨streamed, closed, -, hstreamed⟩ := runs_sampleWs hpre
  obtain ⟨-, hpreSampled⟩ := hstreamed preSample rfl
  obtain ⟨streamed', closed', -, hstreamed'⟩ := runs_sampleWs hpost
  obtain ⟨-, hpostSampled⟩ := hstreamed' postSample rfl
  cases hprice : preSample.get (instrumentKey instrument) with
  | none =>
    rw [hprice] at hobserved
    cases hobserved
  | some pre =>
    cases hprice' : postSample.get (instrumentKey instrument) with
    | none =>
      rw [hprice, hprice'] at hobserved
      cases hobserved
    | some post =>
      obtain ⟨⟨before, hbefore⟩, hdate⟩ := sampled_full hpreSampled hprice
      obtain ⟨⟨after, hafter⟩, -⟩ := sampled_full hpostSampled hprice'
      refine ⟨⟨pre, post, before, after, rfl, rfl, hbefore, hafter⟩, ?_⟩
      intro pre' heq
      cases heq
      exact hdate

/-- A record without instruments is settled by its captures. -/
theorem settled_partial {references : List DhanInstrumentReference} {session : Session}
    {starts ends : Int} {late : Option LateStartEvidence} {reconnect : Option ReconnectEvidence}
    (hlate : ∀ ev, late = some ev → ev.observed = true →
      ev.kind = .providerLateSubscription ∧ ∃ prior first, ev.prior = some prior ∧ ev.first = some first)
    (hreconnect : ∀ ev, reconnect = some ev → ev.observed = true →
      ev.Filled ∧ ∀ pre, ev.pre = some pre → pre.tradingDate = none) :
    Settled (partialRecord references session starts ends late reconnect) where
  oracle := rfl
  csoa16 := rfl
  required := rfl
  expected := fun inst hinst => by cases hinst
  instruments := fun inst hinst => by cases hinst
  lateStart := hlate
  reconnect := hreconnect

end Captures

/-- **Every collected record is settled.** -/
theorem settled_of_collected {record : EvidenceRecord} (h : Collected record) : Settled record := by
  obtain ⟨job, trace, hruns⟩ := h
  cases job with
  | collect windows session tickSize => exact settled_collect hruns
  | lateStart symbol session =>
    obtain ⟨starts, first, result, rest, hbody, hfinish, -⟩ := runs_connected_ok hruns
    obtain ⟨references, t, t', -, hfind, rfl⟩ := Interaction.runs_bind_ok.mp hbody
    obtain ⟨ref, t₁, t₂, -, hnow, rfl⟩ := Interaction.runs_bind_ok.mp hfind
    obtain ⟨observedAt, t₃, hcapture, rfl⟩ := Interaction.runs_bind_request.mp hnow
    obtain ⟨late, t₄, t₅, hlate, hpure, rfl⟩ := Interaction.runs_bind_ok.mp hcapture
    obtain ⟨rfl, hresult⟩ := Interaction.runs_pure.mp hpure
    obtain ⟨ends, t₆, hrecord, rfl⟩ := Interaction.runs_bind_request.mp hfinish
    obtain ⟨rfl, hpartial⟩ := Interaction.runs_pure.mp hrecord
    cases hresult
    cases hpartial
    apply settled_partial
    · intro ev hev hobserved
      cases hev
      exact captured_lateStart hlate hobserved
    · intro ev hev
      cases hev
  | reconnect symbol session =>
    obtain ⟨starts, first, result, rest, hbody, hfinish, -⟩ := runs_connected_ok hruns
    obtain ⟨references, t, t', -, hfind, rfl⟩ := Interaction.runs_bind_ok.mp hbody
    obtain ⟨ref, t₁, t₂, -, hcapture, rfl⟩ := Interaction.runs_bind_ok.mp hfind
    obtain ⟨reconnect, t₃, t₄, hreconnect, hpure, rfl⟩ := Interaction.runs_bind_ok.mp hcapture
    obtain ⟨rfl, hresult⟩ := Interaction.runs_pure.mp hpure
    obtain ⟨ends, t₅, hrecord, rfl⟩ := Interaction.runs_bind_request.mp hfinish
    obtain ⟨rfl, hpartial⟩ := Interaction.runs_pure.mp hrecord
    cases hresult
    cases hpartial
    apply settled_partial
    · intro ev hev
      cases hev
    · intro ev hev hobserved
      cases hev
      exact captured_reconnect hreconnect hobserved

/-! ## Settled conclusions -/

theorem classifyPrice_exactly_ne {ws rest tickSize : Option ℚ} :
    classifyPrice ws rest tickSize true ≠ .drift ∧ classifyPrice ws rest tickSize true ≠ .indeterminate := by
  unfold classifyPrice
  cases ws with
  | none => simp
  | some w =>
    cases rest with
    | none => simp
    | some r =>
      dsimp only
      split_ifs <;> simp_all

/-- A settled comparison speaks against nothing exactly when its prices are within tolerance. -/
theorem withinTolerance_iff {inst : InstrumentEvidence} (h : SettledInstrument inst)
    {c : OracleComparison} (hc : c ∈ inst.oracleComparisons) :
    c.classification ≠ .mismatch ∧ c.classification ≠ .indeterminate ↔ c.WithinTolerance := by
  have hfield := h.fields c hc
  rw [h.classified c hc]
  unfold OracleComparison.WithinTolerance
  by_cases hopen : c.field = "open"
  · have hne : c.derived ≠ .drift ∧ c.derived ≠ .indeterminate := by
      unfold OracleComparison.derived
      rw [decide_eq_true hopen]
      exact classifyPrice_exactly_ne
    cases hderived : c.derived <;> simp_all
  · have hother : c.field = "high" ∨ c.field = "low" := by
      simp only [List.mem_cons, List.not_mem_nil, or_false] at hfield
      exact hfield.resolve_left hopen
    cases hderived : c.derived <;> simp_all

/-! ## The day -/

/-- What the records of a day have to show: every expected instrument and window, prices within
    tolerance wherever both sources have seen an instrument, observations that are steady in the merged
    order, and a late start and a reconnect that kept the extrema. -/
structure Day (records : List EvidenceRecord) : Prop where
  observed : ∃ r ∈ records, r.instruments ≠ []
  covered : ∀ r ∈ records, ∀ i ∈ r.expectedInstruments,
    ∃ r' ∈ records, ∃ inst ∈ r'.instruments, inst.identity = i
  windows : ∀ w ∈ ["early", "mid", "late"], ∃ r ∈ records, w ∈ r.sampleWindows
  within : ∀ r ∈ records, ∀ c ∈ r.comparisons, c.WithinTolerance
  steady : ∀ identity, Steady (sortBy sortKey (observationsOf records identity))
  lateStart : ∃ ev prior first, mergeLateStart records = some ev ∧ ev.prior = some prior ∧
    ev.first = some first ∧ Retained prior first
  reconnect : ∃ ev pre post before after, mergeReconnect records = some ev ∧ ev.pre = some pre ∧
    ev.post = some post ∧ pre.extrema = some before ∧ post.extrema = some after ∧ Retained before after

section Combined

variable {records : List EvidenceRecord} {first : EvidenceRecord}

/-- A combination of settled records covers what is expected exactly when each expected instrument is in
    some record. -/
theorem coverage_combined (hsettled : ∀ r ∈ records, Settled r) :
    coverageReasons (combined first records) = [] ↔
      (∃ r ∈ records, r.instruments ≠ []) ∧
        ∀ r ∈ records, ∀ i ∈ r.expectedInstruments,
          ∃ r' ∈ records, ∃ inst ∈ r'.instruments, inst.identity = i := by
  have hexpected (i : String) : i ∈ (combined first records).expectedInstruments ↔
      ∃ r ∈ records, i ∈ r.expectedInstruments := by
    simp only [combined, mem_sortBy, List.mem_dedup, List.mem_flatMap]
  have hids : ∀ i, i ∈ (combined first records).instruments.map (·.identity) ↔
      ∃ r ∈ records, ∃ inst ∈ r.instruments, inst.identity = i := fun i => mem_identities_merged
  have hnodup : ((combined first records).instruments.map (·.identity)).Nodup := by
    show ((mergedInstruments records).map (·.identity)).Nodup
    rw [identities_merged]
    exact nodup_groupedBy _
  rw [coverageReasons_eq_nil_iff]
  constructor
  · rintro ⟨hne, -, hsame⟩
    constructor
    · obtain ⟨inst, hinst⟩ := List.exists_mem_of_ne_nil _ hne
      obtain ⟨r, hr, inst', hinst', -⟩ := (hids inst.identity).mp (List.mem_map_of_mem hinst)
      exact ⟨r, hr, List.ne_nil_of_mem hinst'⟩
    · intro r hr i hi
      exact (hids i).mp ((hsame i).mp ((hexpected i).mpr ⟨r, hr, hi⟩))
  · rintro ⟨⟨r, hr, hne⟩, hcovered⟩
    obtain ⟨inst, hinst⟩ := List.exists_mem_of_ne_nil _ hne
    obtain ⟨m, hm, -⟩ := exists_merged hr hinst
    refine ⟨List.ne_nil_of_mem hm, hnodup, fun i => ?_⟩
    rw [hexpected, hids]
    constructor
    · rintro ⟨r', hr', hi⟩
      exact hcovered r' hr' i hi
    · rintro ⟨r', hr', inst', hinst', rfl⟩
      exact ⟨r', hr', (hsettled r' hr').expected inst' hinst'⟩

/-- The stored conclusions of a combination are clean exactly when the prices are within tolerance and
    the observations steady. -/
theorem storedClean_combined (hsettled : ∀ r ∈ records, Settled r) :
    (combined first records).StoredClean ↔
      (∀ r ∈ records, ∀ c ∈ r.comparisons, c.WithinTolerance) ∧
        ∀ identity, Steady (sortBy sortKey (observationsOf records identity)) := by
  have hclassified {r : EvidenceRecord} (hr : r ∈ records) {c : OracleComparison}
      (hc : c ∈ r.comparisons) :
      c.classification ≠ .mismatch ∧ c.classification ≠ .indeterminate ↔ c.WithinTolerance := by
    obtain ⟨inst, hinst, hcomparison⟩ := List.mem_flatMap.mp hc
    exact withinTolerance_iff ((hsettled r hr).instruments inst hinst) hcomparison
  have hviolations := @violations_combined records first
  constructor
  · intro h
    constructor
    · intro r hr c hc
      exact (hclassified hr hc).mp (h.classified c (mem_comparisons_combined.mpr ⟨r, hr, hc⟩))
    · intro identity
      by_contra hsteady
      obtain ⟨inst, hinst, hviolation⟩ := hviolations.mpr ⟨identity, hsteady⟩
      exact hviolation (h.monotone inst hinst)
  · rintro ⟨hwithin, hsteady⟩
    constructor
    · intro c hc
      obtain ⟨r, hr, hc⟩ := mem_comparisons_combined.mp hc
      exact (hclassified hr hc).mpr (hwithin r hr c hc)
    · intro inst hinst
      by_contra hviolation
      obtain ⟨identity, hnot⟩ := hviolations.mp ⟨inst, hinst, hviolation⟩
      exact hnot (hsteady identity)

/-- The merged late start is complete and kept exactly when it has all its prices and they are. -/
theorem lateStart_combined (hsettled : ∀ r ∈ records, Settled r) :
    lateStartIncomplete (mergeLateStart records) = [] ∧ lateStartRejections (mergeLateStart records) = [] ↔
      ∃ ev prior first, mergeLateStart records = some ev ∧ ev.prior = some prior ∧
        ev.first = some first ∧ Retained prior first := by
  cases hmerge : mergeLateStart records with
  | none => simp [lateStartIncomplete]
  | some ev =>
    obtain ⟨hmem, -⟩ := mergeLateStart_spec hmerge
    obtain ⟨⟨r, hr, hev⟩, hobserved⟩ := mem_captures.mp hmem
    obtain ⟨hkind, prior, first, hprior, hfirst⟩ := (hsettled r hr).lateStart ev hev hobserved
    have hprovider : ev.kind ≠ .observerLateAttach := by
      rw [hkind]
      decide
    have hcomplete : lateStartIncomplete (some ev) = [] := by
      simp [lateStartIncomplete, hobserved, hprior, hfirst, hprovider]
    have hkept : lateStartRejections (some ev) = [] ↔ Retained prior first := by
      rw [← lost_eq_nil_iff]
      simp [lateStartRejections, hobserved, hprior, hfirst]
    rw [hkept]
    constructor
    · rintro ⟨-, hretained⟩
      exact ⟨ev, prior, first, rfl, hprior, hfirst, hretained⟩
    · rintro ⟨ev', prior', first', heq, hprior', hfirst', hretained⟩
      cases heq
      rw [hprior] at hprior'
      rw [hfirst] at hfirst'
      cases hprior'
      cases hfirst'
      exact ⟨hcomplete, hretained⟩

/-- The merged reconnect of settled records has all its prices, and its first side no trading date. -/
theorem filled_merged (hsettled : ∀ r ∈ records, Settled r) {ev : ReconnectEvidence}
    (hmerge : mergeReconnect records = some ev) :
    ev.observed = true ∧ ev.Filled ∧ ∀ pre, ev.pre = some pre → pre.tradingDate = none := by
  have hside {ev' : ReconnectEvidence} (hev : ev' ∈ reconnects records) :
      ev'.observed = true ∧ ev'.Filled ∧ ∀ pre, ev'.pre = some pre → pre.tradingDate = none := by
    obtain ⟨⟨r, hr, hev'⟩, hobserved⟩ := mem_reconnects.mp hev
    obtain ⟨hfilled, hdate⟩ := (hsettled r hr).reconnect ev' hev' hobserved
    exact ⟨hobserved, hfilled, hdate⟩
  rcases mergeReconnect_cases records with ⟨pre, post, ev', hspan, hev', hobserved, hpre, hpost⟩ |
    ⟨hne, hnone, ev', hev', -⟩ | ⟨-, hnone⟩
  · rw [hmerge] at hev'
    cases hev'
    obtain ⟨evPre, hevPre, hpreMem⟩ := List.mem_filterMap.mp hspan.pre_mem
    obtain ⟨evPost, hevPost, hpostMem⟩ := List.mem_filterMap.mp hspan.post_mem
    obtain ⟨-, ⟨pre', post', before, after, hpre', hpost', hbefore, hafter⟩, hdate⟩ := hside hevPre
    obtain ⟨-, ⟨pre'', post'', before', after', hpre'', hpost'', hbefore', hafter'⟩, -⟩ := hside hevPost
    rw [hpreMem] at hpre'
    rw [hpostMem] at hpost''
    cases hpre'
    cases hpost''
    refine ⟨hobserved, ⟨pre, post, before, after', hpre, hpost, hbefore, hafter'⟩, ?_⟩
    intro p hp
    rw [hpre] at hp
    cases hp
    exact hdate pre hpreMem
  · -- a settled reconnect has both sides, so none of them is missing everywhere
    obtain ⟨other, hother⟩ := List.exists_mem_of_ne_nil _ hne
    obtain ⟨-, ⟨pre, post, -, -, hpre, hpost, -, -⟩, -⟩ := hside hother
    rcases hnone with hnil | hnil
    · have hmem : pre ∈ pres records := List.mem_filterMap.mpr ⟨other, hother, hpre⟩
      rw [hnil] at hmem
      cases hmem
    · have hmem : post ∈ posts records := List.mem_filterMap.mpr ⟨other, hother, hpost⟩
      rw [hnil] at hmem
      cases hmem
  · rw [hmerge] at hnone
    cases hnone

/-- The merged reconnect is complete and kept exactly when it has all its prices and they are. -/
theorem reconnect_combined (hsettled : ∀ r ∈ records, Settled r) (hfirst : first ∈ records) :
    reconnectIncomplete (combined first records) = [] ∧
        reconnectRejections (mergeReconnect records) = [] ↔
      ∃ ev pre post before after, mergeReconnect records = some ev ∧ ev.pre = some pre ∧
        ev.post = some post ∧ pre.extrema = some before ∧ post.extrema = some after ∧
        Retained before after := by
  have hrequired : (combined first records).csoa16Required = true := (hsettled first hfirst).csoa16
  have hsame : (combined first records).reconnect = mergeReconnect records := rfl
  cases hmerge : mergeReconnect records with
  | none => simp [reconnectIncomplete, hsame, hmerge, hrequired]
  | some ev =>
    obtain ⟨hobserved, ⟨pre, post, before, after, hpre, hpost, hbefore, hafter⟩, hdate⟩ :=
      filled_merged hsettled hmerge
    have hcomplete : reconnectIncomplete (combined first records) = [] := by
      simp [reconnectIncomplete, hsame, hmerge, hobserved, hpre, hpost]
    have hkept : reconnectRejections (some ev) = [] ↔ Retained before after := by
      rw [← lost_eq_nil_iff]
      simp [reconnectRejections, hobserved, hpre, hpost, continuityLost, hbefore, hafter,
        hdate pre hpre]
    rw [hkept]
    constructor
    · rintro ⟨-, hretained⟩
      exact ⟨ev, pre, post, before, after, rfl, hpre, hpost, hbefore, hafter, hretained⟩
    · rintro ⟨ev', pre', post', before', after', heq, hpre', hpost', hbefore', hafter', hretained⟩
      cases heq
      rw [hpre] at hpre'
      rw [hpost] at hpost'
      cases hpre'
      cases hpost'
      rw [hbefore] at hbefore'
      rw [hafter] at hafter'
      cases hbefore'
      cases hafter'
      exact ⟨hcomplete, hretained⟩

theorem complete_combined (hsettled : ∀ r ∈ records, Settled r) (hfirst : first ∈ records) :
    (combined first records).Complete ∧ (combined first records).StoredClean ↔ Day records := by
  have hcoverage := @coverage_combined records first hsettled
  have hclean := @storedClean_combined records first hsettled
  have hlate := lateStart_combined hsettled
  have hreconnect := reconnect_combined hsettled hfirst
  have hwindows : windowReasons (combined first records) = [] ↔
      ∀ w ∈ ["early", "mid", "late"], ∃ r ∈ records, w ∈ r.sampleWindows := by
    rw [windowReasons_eq_nil_iff]
    show (∀ w ∈ first.requiredWindows, _) ↔ _
    rw [(hsettled first hfirst).required]
    simp only [combined, mem_sortBy, List.mem_dedup, List.mem_flatMap]
  constructor
  · rintro ⟨hcomplete, hstored⟩
    obtain ⟨hobserved, hcovered⟩ := hcoverage.mp hcomplete.coverage
    obtain ⟨hwithin, hsteady⟩ := hclean.mp hstored
    exact
      { observed := hobserved
        covered := hcovered
        windows := hwindows.mp hcomplete.windows
        within := hwithin
        steady := hsteady
        lateStart := hlate.mp ⟨hcomplete.lateStart, hcomplete.lateStartKept⟩
        reconnect := hreconnect.mp ⟨hcomplete.reconnect, hcomplete.reconnectKept⟩ }
  · intro h
    obtain ⟨hlateComplete, hlateKept⟩ := hlate.mpr h.lateStart
    obtain ⟨hreconnectComplete, hreconnectKept⟩ := hreconnect.mpr h.reconnect
    exact
      ⟨{ oracle := (hsettled first hfirst).oracle
         coverage := hcoverage.mpr ⟨h.observed, h.covered⟩
         windows := hwindows.mpr h.windows
         reconnect := hreconnectComplete
         lateStart := hlateComplete
         lateStartKept := hlateKept
         reconnectKept := hreconnectKept },
        hclean.mpr ⟨h.within, h.steady⟩⟩

/-- A merged instrument carries the comparisons of its identity. -/
theorem mem_comparisons_merged {m : InstrumentEvidence} (hm : m ∈ mergedInstruments records)
    {c : OracleComparison} :
    c ∈ m.oracleComparisons ↔
      ∃ r ∈ records, ∃ inst ∈ r.instruments, inst.identity = m.identity ∧ c ∈ inst.oracleComparisons := by
  obtain ⟨⟨identity, group⟩, hmem, hmerge⟩ := List.mem_filterMap.mp hm
  obtain ⟨m', hm', hid, hcomparisons⟩ := merge_of_mem_groupedBy hmem
  rw [hm', Option.some.injEq] at hmerge
  subst hmerge
  rw [hcomparisons, ((mem_groupedBy_iff _ _ _).mp hmem).2, hid]
  simp only [List.mem_flatMap, List.mem_filter, decide_eq_true_eq]
  constructor
  · rintro ⟨inst, ⟨⟨r, hr, hinst⟩, hsame⟩, hc⟩
    exact ⟨r, hr, inst, hinst, hsame, hc⟩
  · rintro ⟨r, hr, inst, hinst, hsame, hc⟩
    exact ⟨inst, ⟨⟨r, hr, hinst⟩, hsame⟩, hc⟩

/-- A merged instrument of a sound day is supported by its values when both sources have seen it in one
    window of some record. -/
theorem supported_merged (hsettled : ∀ r ∈ records, Settled r) (hday : Day records)
    {m : InstrumentEvidence} (hm : m ∈ mergedInstruments records) :
    m.Supported ↔ ∃ r ∈ records, ∃ inst ∈ r.instruments, inst.identity = m.identity ∧ SeenByBoth inst := by
  obtain ⟨hws, -⟩ := merged_spec hm
  constructor
  · intro h
    obtain ⟨c, hc, hfield⟩ := h.compared "open" List.mem_cons_self
    obtain ⟨r, hr, inst, hinst, hid, hc⟩ := (mem_comparisons_merged hm).mp hc
    exact ⟨r, hr, inst, hinst, hid,
      (((hsettled r hr).instruments inst hinst).compared "open" List.mem_cons_self).mp ⟨c, hc, hfield⟩⟩
  · rintro ⟨r, hr, inst, hinst, hid, hseen⟩
    constructor
    · obtain ⟨o, ho, -⟩ := hseen
      rw [hws]
      apply List.ne_nil_of_mem
      rw [mem_sortBy]
      exact mem_observationsOf.mpr ⟨r, hr, inst, hinst, hid, ho⟩
    · intro field hfield
      obtain ⟨c, hc, hname⟩ := (((hsettled r hr).instruments inst hinst).compared field hfield).mpr hseen
      exact ⟨c, (mem_comparisons_merged hm).mpr ⟨r, hr, inst, hinst, hid, hc⟩, hname⟩
    · intro c hc
      obtain ⟨r', hr', inst', hinst', -, hc⟩ := (mem_comparisons_merged hm).mp hc
      exact hday.within r' hr' c (List.mem_flatMap.mpr ⟨inst', hinst', hc⟩)
    · rw [violations_eq_nil_iff, hws]
      exact hday.steady m.identity

/-- A sound day is derived from its raw values exactly when both sources have seen each expected
    instrument in one window. -/
theorem derived_combined (hsettled : ∀ r ∈ records, Settled r) (hfirst : first ∈ records)
    (hday : Day records) :
    (combined first records).Derived ↔
      ∀ r ∈ records, ∀ i ∈ r.expectedInstruments,
        ∃ r' ∈ records, ∃ inst ∈ r'.instruments, inst.identity = i ∧ SeenByBoth inst := by
  obtain ⟨hcomplete, -⟩ := (complete_combined hsettled hfirst).mpr hday
  rw [derived_iff_supported hcomplete]
  constructor
  · intro h r hr i hi
    obtain ⟨r', hr', inst, hinst, hid⟩ := hday.covered r hr i hi
    obtain ⟨m, hm, hmid⟩ := exists_merged hr' hinst
    obtain ⟨r'', hr'', inst', hinst', hid', hseen⟩ :=
      (supported_merged hsettled hday hm).mp (h.instruments m hm)
    exact ⟨r'', hr'', inst', hinst', hid'.trans (hmid.trans hid), hseen⟩
  · intro h
    constructor
    · intro m hm
      have hid : m.identity ∈ (mergedInstruments records).map (·.identity) := List.mem_map_of_mem hm
      obtain ⟨r, hr, inst, hinst, hsame⟩ := mem_identities_merged.mp hid
      apply (supported_merged hsettled hday hm).mpr
      exact h r hr m.identity (hsame ▸ (hsettled r hr).expected inst hinst)
    · intro ev hev hobserved
      exact (filled_merged hsettled hev).2.1

end Combined

/-- **The verdict on a day of collected records.**  Whatever runs of the collector have made them, if the
    records combine then the combination is accepted exactly when their raw observations, in the order
    of the windows' names and in each window in that of time, show a sound day; and an acceptance rests
    on raw values of both sources exactly when both have seen each expected instrument in one window,
    which the evaluation does not ask for. -/
theorem collected_verdict (records : List EvidenceRecord) (record : EvidenceRecord)
    (hcollected : ∀ r ∈ records, Collected r) (hcombined : combineRecords records = .ok record) :
    ((evaluateRecord record).outcome = .accepted ↔ Day records) ∧
      ((evaluateRecord record).outcome = .accepted →
        (record.Derived ↔ ∀ r ∈ records, ∀ i ∈ r.expectedInstruments,
          ∃ r' ∈ records, ∃ inst ∈ r'.instruments, inst.identity = i ∧ SeenByBoth inst)) := by
  obtain ⟨first, hhead, -, -, rfl⟩ := combineRecords_eq_ok.mp hcombined
  have hsettled : ∀ r ∈ records, Settled r := fun r hr => settled_of_collected (hcollected r hr)
  have hfirst : first ∈ records := List.mem_of_head? hhead
  have hiff := complete_combined hsettled hfirst
  rw [accepted_iff_complete, hiff]
  exact ⟨Iff.rfl, derived_combined hsettled hfirst⟩

/-! ## A quiet day -/

instance (inst : InstrumentEvidence) : Decidable (SeenByBoth inst) :=
  inferInstanceAs (Decidable (∃ ws ∈ inst.wsObservations, ∃ rest ∈ inst.restObservations,
    ws.window = rest.window))

/-- The records of a day on which no price moves: the windows, where the oracle tells of some
    instruments, and the two captures. -/
def quietDay (told : List Instrument) : List EvidenceRecord :=
  [sessionRecord (fun _ => 0) told (.collect ["early", "mid"] quietSession none),
    sessionRecord (fun _ => 0) told (.collect ["late"] quietSession none),
    sessionRecord (fun _ => 0) [reliance] (.lateStart "RELIANCE" quietSession),
    sessionRecord (fun _ => 0) [] (.reconnect "INFY" quietSession)].filterMap id

theorem quietDay_collected (told : List Instrument) :
    ∀ r ∈ quietDay told, Collected r := by
  intro r hr
  obtain ⟨o, ho, hsome⟩ := List.mem_filterMap.mp hr
  simp only [List.mem_cons, List.not_mem_nil, or_false] at ho
  rcases ho with rfl | rfl | rfl | rfl
  all_goals exact collected_of_session hsome

/-- The day is accepted, and its acceptance rests on raw values. -/
theorem quietDay_accepted : ∃ record, combineRecords (quietDay [reliance, infy]) = .ok record ∧
    Day (quietDay [reliance, infy]) ∧ record.Derived := by
  have hkey : ∀ r ∈ quietDay [reliance, infy], r.key = (20666, "2026-08-01", "deadbee") := by
    decide +kernel
  obtain ⟨record, hcombined⟩ := combineRecords_of_nodup hkey (by decide +kernel) (by decide +kernel)
  obtain ⟨hday, hderived⟩ := collected_verdict _ record (quietDay_collected _) hcombined
  have haccepted : (evaluateRecord record).outcome = .accepted := by
    have houtcome : combinedOutcome (quietDay [reliance, infy]) = some .accepted := by decide +kernel
    rw [combinedOutcome, hcombined] at houtcome
    exact Option.some.inj houtcome
  exact ⟨record, hcombined, hday.mp haccepted, (hderived haccepted).mpr (by decide +kernel)⟩

/-- Without a word of the oracle in any window the day is accepted as well. -/
example : combinedOutcome (quietDay []) = some .accepted ∧ ∀ r ∈ quietDay [], r.comparisons = [] := by
  decide +kernel

end ApexScan.Evidence.Collect
