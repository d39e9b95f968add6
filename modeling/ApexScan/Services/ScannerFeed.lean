import ApexScan.Services.ScannerSnapshots
import ApexScan.Strategy.LifecycleSync
import ApexScan.Strategy.PublishedResults

/-!
# From evaluations to scanner snapshots

The manager publishes what its deduplicator finds material, and the scanner keeps the newest published
result of each instrument.  The snapshot is therefore one of the last material evaluations, and not of the
latest ones.

* `KindedEvaluation` — an evaluation whose metric values have their kinds, which the scanner tells apart
  and the deduplicator does not.
* `step` — the manager with what it publishes to a scanner; `history` — the evaluations of a strategy for
  an instrument and the resets of its emission state.
* `Material` — what the policies call material, of the evaluations alone; `track` — the last material
  evaluation and the latest one.
* `Reflects` — the snapshot says what the latest evaluations say.
* `decideEmission_material`, `Followed`, `run_followed` — the entry of the deduplicator and the newest
  result of the scanner follow the history.
* `continuous_sameKey` — the continuous policy drops repetitions only.

Main result: `snapshot_reflects_iff`, for every run on one trading date and every policy.
`unmatched_never_counted` is an instrument that never matches under the other two policies, and one whose
metric changes while it matches.
-/

set_option autoImplicit false

namespace ApexScan.ScannerFeed

open Lib StrategyManager

/-! ## Evaluations with kinds -/

/-- A metric value as `==` sees it. -/
def plainValue : Scanner.MetricValue → MetricValue
  | .decimal value => .number value
  | .int value => .number value
  | .bool value => .number (if value then 1 else 0)
  | .str value => .text value

def plainEntry (entry : Scanner.MetricEntry) : MetricEntry := ⟨entry.name, plainValue entry.value⟩

/-- What `evaluate` returns, with the kinds of its metric values. -/
structure KindedEvaluation where
  evaluation : StrategyEvaluation
  metrics : List Scanner.MetricEntry
  plain : metrics.map plainEntry = evaluation.metrics

/-- The evaluation of a record, with the kinds of its metric values. -/
structure Evaluated where
  strategyId : String
  evaluation : StrategyEvaluation
  metrics : List Scanner.MetricEntry

def Evaluated.status (e : Evaluated) : EvaluationStatus := e.evaluation.status

/-- A record that a result may be made of. -/
def Evaluated.emittable (e : Evaluated) : Bool :=
  decide (e.status = .matched ∨ e.status = .noMatch)

/-- The metrics that `evaluate` of a strategy returned. -/
def metricsOf (evaluate : String → Option KindedEvaluation) (strategyId : String) :
    List Scanner.MetricEntry :=
  ((evaluate strategyId).map (·.metrics)).getD []

def evaluatedOf (evaluate : String → Option KindedEvaluation) (record : StrategyEvaluationRecord) :
    Evaluated :=
  ⟨record.strategyId, record.evaluation, metricsOf evaluate record.strategyId⟩

/-! ## The manager and the scanner -/

inductive Op where
  /-- A lifecycle command. -/
  | command (op : System.Op)
  | context (context : MarketContext) (evaluate : String → Option KindedEvaluation)

/-- What one call lets an observer see: a reset of the emission state, the records of a context and the
    publication. -/
structure Out where
  reset : Option String := none
  evaluated : List Evaluated := []
  published : Option Scanner.StrategyResultsPublished := none

/-- The strategy whose emission state a command has reset. -/
def resetBy (op : System.Op) (result : System.Out) : Option String :=
  match op, result with
  | .stop id, some (.ok _) => some id
  | .forceStop id, some (.ok _) => some id
  | _, _ => none

/-- The version of a strategy's configuration. -/
def configVersionOf (m : StrategyManager) (strategyId : String) : String :=
  ((m.configurations strategyId).map (·.configVersion)).getD ""

/-- The result as the scanner receives it, `strategyVersion` being the version that each strategy's
    descriptor has. -/
def scannerResult (strategyVersion : String → String) (m : StrategyManager)
    (evaluate : String → Option KindedEvaluation) (contextVersion : ℕ) (r : StrategyResult) :
    Scanner.StrategyResult where
  strategyId := r.strategyId
  strategyVersion := strategyVersion r.strategyId
  configVersion := configVersionOf m r.strategyId
  instrument := r.instrument
  contextVersion := contextVersion
  status := r.status
  metrics := metricsOf evaluate r.strategyId

def scannerEvent (strategyVersion : String → String) (m : StrategyManager)
    (evaluate : String → Option KindedEvaluation) (published : StrategyResultsPublished) :
    Scanner.StrategyResultsPublished where
  results := published.results.map (scannerResult strategyVersion m evaluate published.contextVersion)
  tradingDate := published.tradingDate

/-- The evaluations without their kinds. -/
def plainOf (evaluate : String → Option KindedEvaluation) (strategyId : String) :
    Option StrategyEvaluation :=
  (evaluate strategyId).map (·.evaluation)

/-- What a context lets an observer see. -/
def contextOut (strategyVersion : String → String) (m : StrategyManager) (context : MarketContext)
    (evaluate : String → Option KindedEvaluation) : Out where
  evaluated := (m.handle context (plainOf evaluate)).2.1.map (evaluatedOf evaluate)
  published := (m.handle context (plainOf evaluate)).2.2.map (scannerEvent strategyVersion m evaluate)

/-- One call; contexts come with their evaluations. -/
def step (strategyVersion : String → String) (s : System) : Op → System × Out
  | .command (.context _ _) => (s, {})
  | .command op => ((s.step op).1, { reset := resetBy op (s.step op).2 })
  | .context context evaluate =>
    ({ s with manager := (s.manager.handle context (plainOf evaluate)).1 },
      contextOut strategyVersion s.manager context evaluate)

/-- What the scanner receives along a run. -/
def eventsOf (outs : List Out) : List Scanner.StrategyResultsPublished := outs.filterMap (·.published)

/-! ## Histories -/

inductive Event where
  | reset
  | evaluated (e : Evaluated)

/-- What a call does for a strategy and an instrument. -/
def occurs (id : String) (i : Instrument) (o : Out) : List Event :=
  (if o.reset = some id then [.reset] else []) ++
    (o.evaluated.filter fun e => e.strategyId = id ∧ e.evaluation.instrument = i).map .evaluated

/-- The evaluations and resets of a strategy for an instrument, oldest first. -/
def history (id : String) (i : Instrument) (outs : List Out) : List Event := outs.flatMap (occurs id i)

/-- `_material_key` of the result of an evaluation. -/
def keyOf (e : StrategyEvaluation) : MaterialKey :=
  ⟨e.status, e.score, e.confidence, e.reasonCodes, e.metrics⟩

/-- The status before an evaluation: `NO_MATCH` at first. -/
def statusAfter (earlier : List StrategyEvaluation) : EvaluationStatus :=
  (earlier.getLast?.map (·.status)).getD .noMatch

/-- The evaluation is material after earlier ones: it differs from the one before, or in its status, or is
    the first match. -/
def Material (policy : EmissionPolicy) (earlier : List StrategyEvaluation) (e : StrategyEvaluation) :
    Prop :=
  match policy with
  | .continuous => earlier.getLast?.map keyOf ≠ some (keyOf e)
  | .edgeTriggered => e.status ≠ statusAfter earlier
  | .oneShotPerSession => e.status = .matched ∧ ∀ x ∈ earlier, x.status ≠ .matched

instance (policy : EmissionPolicy) (earlier : List StrategyEvaluation) (e : StrategyEvaluation) :
    Decidable (Material policy earlier e) :=
  match policy with
  | .continuous => inferInstanceAs (Decidable (earlier.getLast?.map keyOf ≠ some (keyOf e)))
  | .edgeTriggered => inferInstanceAs (Decidable (e.status ≠ statusAfter earlier))
  | .oneShotPerSession =>
    inferInstanceAs (Decidable (e.status = .matched ∧ ∀ x ∈ earlier, x.status ≠ .matched))

/-- The matches and non-matches since the last reset, the last material evaluation and the latest one. -/
structure Track where
  recent : List StrategyEvaluation := []
  lastMaterial : Option Evaluated := none
  latest : Option Evaluated := none

def Track.next (policy : EmissionPolicy) (t : Track) : Event → Track
  | .reset => { t with recent := [] }
  | .evaluated e =>
    if e.emittable then
      { recent := t.recent ++ [e.evaluation]
        lastMaterial := if Material policy t.recent e.evaluation then some e else t.lastMaterial
        latest := some e }
    else { t with latest := some e }

def track (policy : EmissionPolicy) (events : List Event) : Track :=
  events.foldl (Track.next policy) {}

/-! ## What a snapshot should say -/

/-- The metric that an evaluation ranks with: that of the policy, where the evaluation is a match and the
    metric a `Decimal`. -/
def rankedValue (metricName : String) (e : Evaluated) : Option ℚ :=
  if e.status = .matched then
    match e.metrics.find? fun entry => entry.name = metricName with
    | some ⟨_, .decimal value⟩ => some value
    | _ => none
  else none

/-- **The snapshot reflects the latest evaluations**: it is complete, ranks exactly the instruments of the
    universe whose latest evaluation has a ranking metric, each once and with that metric. -/
structure Reflects (instruments : List Instrument) (metricName : String)
    (latest : Instrument → Option Evaluated) (snap : Scanner.ScannerSnapshot) : Prop where
  complete : snap.completeness = .complete
  ranked : ∀ i value, (∃ c ∈ snap.candidates, c.instrument = i ∧ c.rankingMetricValue = value) ↔
    i ∈ instruments ∧ ∃ e ∈ latest i, rankedValue metricName e = some value
  once : (snap.candidates.map (·.instrument)).Nodup

/-- The ranking metrics of the last material evaluations are those of the latest ones. -/
def SameRanking (metricName : String) (instruments : List Instrument) (t : Instrument → Track) : Prop :=
  ∀ i ∈ instruments, ∀ e ∈ (t i).latest,
    ∃ m ∈ (t i).lastMaterial, rankedValue metricName m = rankedValue metricName e

/-- No ranking metric of the latest evaluations overflows where a descending policy negates it. -/
def Rounds (rankPolicy : Scanner.ScannerRankingPolicy) (instruments : List Instrument)
    (t : Instrument → Track) : Prop :=
  rankPolicy.ordering = .descending → ∀ i ∈ instruments, ∀ e ∈ (t i).latest,
    ∀ value ∈ rankedValue rankPolicy.metricName e, (DecimalContext.default.round (-value)).isSome

theorem sameRanking_iff {metricName : String} {instruments : List Instrument} {t : Instrument → Track}
    (hlatest : ∀ i ∈ instruments, ∃ e, (t i).latest = some e) :
    SameRanking metricName instruments t ↔
      (∀ i ∈ instruments, (t i).lastMaterial.isSome) ∧ ∀ i ∈ instruments, ∀ value,
        ((∃ m ∈ (t i).lastMaterial, rankedValue metricName m = some value) ↔
          ∃ e ∈ (t i).latest, rankedValue metricName e = some value) := by
  constructor
  · intro h
    refine ⟨fun i hi => ?_, fun i hi value => ?_⟩
    · obtain ⟨e, he⟩ := hlatest i hi
      obtain ⟨m, hm, -⟩ := h i hi e he
      exact Option.isSome_of_mem hm
    · obtain ⟨e, he⟩ := hlatest i hi
      obtain ⟨m, hm, heq⟩ := h i hi e he
      simp [he, Option.mem_def.mp hm, heq]
  · rintro ⟨hsome, hvalues⟩ i hi e he
    obtain ⟨m, hm⟩ := Option.isSome_iff_exists.mp (hsome i hi)
    refine ⟨m, hm, Option.ext fun value => ?_⟩
    have := hvalues i hi value
    simpa [hm, Option.mem_def.mp he] using this

/-! ## The deduplicator follows -/

/-- The entry remembers the evaluations since the last reset. -/
def Recalls (policy : EmissionPolicy) (earlier : List StrategyEvaluation) (entry : EntryState) : Prop :=
  match policy with
  | .continuous => entry.lastMaterialKey = earlier.getLast?.map keyOf
  | .edgeTriggered => entry.lastStatus = statusAfter earlier
  | .oneShotPerSession => entry.oneShotEmitted = decide (∃ e ∈ earlier, e.status = .matched)

theorem recalls_fresh (policy : EmissionPolicy) (date : Option Int) :
    Recalls policy [] { tradingDate := date } := by
  cases policy <;> rfl

/-- **The deduplicator emits what is material**, and remembers the evaluation. -/
theorem decideEmission_material {policy : EmissionPolicy} {earlier : List StrategyEvaluation}
    {entry : EntryState} (h : Recalls policy earlier entry) (e : StrategyEvaluation)
    (descriptor : StrategyDescriptor) :
    ((decideEmission policy entry (promoteEvaluation e descriptor)).2 = true ↔
        Material policy earlier e) ∧
      Recalls policy (earlier ++ [e])
        (decideEmission policy entry (promoteEvaluation e descriptor)).1 ∧
      (decideEmission policy entry (promoteEvaluation e descriptor)).1.tradingDate =
        entry.tradingDate := by
  have hkey : materialKey (promoteEvaluation e descriptor) = keyOf e := rfl
  have hstatus : (promoteEvaluation e descriptor).status = e.status := rfl
  cases policy with
  | continuous =>
    simp only [Recalls] at h
    simp only [decideEmission, continuous, Recalls, Material, hkey, h, List.getLast?_concat,
      Option.map_some]
    split
    · rename_i hsame
      exact ⟨by simp [hsame], h.trans hsame, rfl⟩
    · rename_i hne
      exact ⟨by simp [hne], rfl, rfl⟩
  | edgeTriggered =>
    simp only [Recalls] at h
    simp only [decideEmission, edge, Recalls, Material, hstatus, h]
    have hlast : statusAfter (earlier ++ [e]) = e.status := by simp [statusAfter]
    split
    · rename_i hsame
      exact ⟨by simp [hsame], by rw [hlast, h, hsame], rfl⟩
    · rename_i hne
      exact ⟨by simp [hne], hlast.symm, rfl⟩
  | oneShotPerSession =>
    simp only [Recalls] at h
    simp only [decideEmission, oneShot, Recalls, Material, hstatus, h]
    split
    · rename_i hfirst
      refine ⟨?_, ?_, rfl⟩
      · simpa using hfirst
      · simp [hfirst.1]
    · rename_i hnot
      refine ⟨?_, ?_, rfl⟩
      · simpa using hnot
      · rw [h]
        by_cases hm : e.status = .matched
        · simp only [hm, true_and, decide_eq_false_iff_not, not_not] at hnot
          simp [hm, hnot]
        · simp [hm]

theorem entryFor_tradingDate (entries : EmissionDeduplicator) (key : String × Instrument)
    (date : Option Int) : (EmissionDeduplicator.entryFor entries key date).tradingDate = date := by
  unfold EmissionDeduplicator.entryFor
  split
  · split
    · rfl
    · rename_i hdate
      exact not_not.mp hdate
  · rfl

/-- What an emittable record of a configured strategy does: its result is emitted iff its entry decides
    so, and the entry is replaced. -/
theorem emitCandidate_spec {m : StrategyManager} {record : StrategyEvaluationRecord}
    {tradingDate : Option Int} {strategy : Strategy}
    (hget : m.registry.get record.strategyId = some strategy)
    (hconfigured : m.configurations record.strategyId ≠ none)
    (hstatus : record.evaluation.status = .matched ∨ record.evaluation.status = .noMatch) :
    let decided := decideEmission strategy.descriptor.emissionPolicy
      (EmissionDeduplicator.entryFor m.dedup (record.strategyId, record.evaluation.instrument)
        tradingDate) (promoteEvaluation record.evaluation strategy.descriptor)
    (m.emitCandidate record tradingDate).2 =
        (if decided.2 then some (promoteEvaluation record.evaluation strategy.descriptor) else none) ∧
      ∀ i, Dict.get (m.emitCandidate record tradingDate).1.dedup (record.strategyId, i) =
        if record.evaluation.instrument = i then some decided.1
        else Dict.get m.dedup (record.strategyId, i) := by
  intro decided
  obtain ⟨configuration, hconfiguration⟩ := Option.ne_none_iff_exists'.mp hconfigured
  have hid : strategy.descriptor.strategyId = record.strategyId :=
    m.registry.keyed _ ((Dict.mem_iff_get m.registry.nodup _ _).mpr hget)
  unfold emitCandidate
  rw [if_neg (by tauto), hconfiguration, hget]
  simp only [EmissionDeduplicator.shouldEmit, promoteEvaluation, hid]
  refine ⟨rfl, fun i => ?_⟩
  rw [Dict.get_set]
  simp only [Prod.mk.injEq, true_and]
  rfl

/-! ## Commands -/

section Commands

variable {s : System} {op : System.Op}

/-- What commands leave of a manager besides its emission state. -/
structure SameSources (m m' : StrategyManager) : Prop where
  registry : m'.registry = m.registry
  configurations : m'.configurations = m.configurations
  previous : m'.previous = m.previous

theorem SameSources.refl (m : StrategyManager) : SameSources m m := ⟨rfl, rfl, rfl⟩

theorem command_same (m : StrategyManager) (id : String) (c : LifecycleCommand) :
    SameSources m (m.command id c).1 ∧ (m.command id c).1.dedup = m.dedup := by
  obtain ⟨hregistry, hconfigurations, hdedup, hprevious⟩ := command_keeps m id c
  exact ⟨⟨hregistry, hconfigurations, hprevious⟩, hdedup⟩

theorem beginStart_same (m : StrategyManager) (id : String) :
    SameSources m (m.beginStart id).1 ∧ (m.beginStart id).1.dedup = m.dedup := by
  rcases m.beginStart_cases id with ⟨-, h⟩ | ⟨-, ⟨-, h⟩ | ⟨_, _, -, -, ⟨-, h⟩ | ⟨_, -, ⟨-, h⟩ | ⟨_, -, h⟩⟩⟩⟩ <;>
    rw [h] <;> exact ⟨⟨rfl, rfl, rfl⟩, rfl⟩

/-- A stop that returns resets the emission state of its strategy, and one that raises resets none. -/
theorem stopBy_resets (m : StrategyManager) (id : String) {c : LifecycleCommand}
    (hc : (commandTransitions c).2 = .stopped) :
    SameSources m (m.stopBy id c).1 ∧ (m.stopBy id c).1.dedup =
      match (m.stopBy id c).2 with
      | .ok _ => EmissionDeduplicator.resetStrategy m.dedup id
      | .error _ => m.dedup := by
  rcases m.stopBy_cases id hc with ⟨-, h⟩ | ⟨-, ⟨-, h⟩ | ⟨-, _, -, h⟩⟩ <;>
    rw [h] <;> exact ⟨⟨rfl, rfl, rfl⟩, rfl⟩

/-- **A command** resets the emission state of the strategy that it stops, and otherwise leaves it. -/
theorem step_command (hop : ∀ context evaluate, op ≠ .context context evaluate) :
    SameSources s.manager (s.step op).1.manager ∧ (s.step op).1.manager.dedup =
      match resetBy op (s.step op).2 with
      | some id => EmissionDeduplicator.resetStrategy s.manager.dedup id
      | none => s.manager.dedup := by
  cases op with
  | start id =>
    have hsame := beginStart_same s.manager id
    simp only [System.step]
    split
    · rename_i heq
      rw [heq] at hsame
      exact hsame
    · rename_i heq
      rw [heq] at hsame
      exact hsame
  | resumeStart id outcome =>
    simp only [System.step]
    split
    · cases outcome with
      | returned => exact command_same s.manager id .markRunning
      | raised => exact command_same s.manager id .markError
      | cancelled => exact ⟨SameSources.refl _, rfl⟩
    · exact ⟨SameSources.refl _, rfl⟩
  | stop id =>
    obtain ⟨hsame, hdedup⟩ := stopBy_resets s.manager id (c := .stop) rfl
    refine ⟨hsame, ?_⟩
    show (s.manager.stopBy id .stop).1.dedup = _
    rw [hdedup]
    show _ = match resetBy (.stop id) (some (s.manager.stopBy id .stop).2) with
      | some id => EmissionDeduplicator.resetStrategy s.manager.dedup id
      | none => s.manager.dedup
    cases (s.manager.stopBy id .stop).2 <;> rfl
  | forceStop id =>
    obtain ⟨hsame, hdedup⟩ := stopBy_resets s.manager id (c := .forceStop) rfl
    refine ⟨hsame, ?_⟩
    show (s.manager.stopBy id .forceStop).1.dedup = _
    rw [hdedup]
    show _ = match resetBy (.forceStop id) (some (s.manager.stopBy id .forceStop).2) with
      | some id => EmissionDeduplicator.resetStrategy s.manager.dedup id
      | none => s.manager.dedup
    cases (s.manager.stopBy id .forceStop).2 <;> rfl
  | pause id => exact command_same s.manager id .pause
  | resume id => exact command_same s.manager id .resume
  | context context evaluate => exact absurd rfl (hop context evaluate)

theorem entryFor_resetStrategy (entries : EmissionDeduplicator) (reset id : String) (i : Instrument)
    (date : Option Int) :
    EmissionDeduplicator.entryFor (EmissionDeduplicator.resetStrategy entries reset) (id, i) date =
      if reset = id then { tradingDate := date }
      else EmissionDeduplicator.entryFor entries (id, i) date := by
  unfold EmissionDeduplicator.entryFor EmissionDeduplicator.resetStrategy
  rw [Dict.get_restrict]
  by_cases hid : reset = id
  · simp [hid]
  · simp [hid, Ne.symm hid]

end Commands

/-! ## Runs follow the history -/

/-- The result that the scanner receives for an evaluation. -/
def resultOf (strategyVersion : String → String) (m : StrategyManager) (e : Evaluated) :
    Scanner.StrategyResult where
  strategyId := e.strategyId
  strategyVersion := strategyVersion e.strategyId
  configVersion := configVersionOf m e.strategyId
  instrument := e.evaluation.instrument
  contextVersion := e.evaluation.contextVersion
  status := e.status
  metrics := e.metrics

/-- What a strategy's evaluations for an instrument have come to. -/
def trackOf (policy : EmissionPolicy) (id : String) (i : Instrument) (outs : List Out) : Track :=
  track policy (history id i outs)

theorem track_append (policy : EmissionPolicy) (xs ys : List Event) :
    track policy (xs ++ ys) = ys.foldl (Track.next policy) (track policy xs) :=
  List.foldl_append

theorem trackOf_concat (policy : EmissionPolicy) (id : String) (i : Instrument) (outs : List Out)
    (o : Out) : trackOf policy id i (outs ++ [o]) =
      (occurs id i o).foldl (Track.next policy) (trackOf policy id i outs) := by
  unfold trackOf history
  rw [List.flatMap_append, track_append, List.flatMap_singleton]

section Runs

variable (strategyVersion : String → String) (id : String) (policy : EmissionPolicy)
  (instruments : Finset Instrument) (T : Int) (m₀ : StrategyManager)

/-- The results seen of the strategy are dated `T` and have its versions, and of each instrument of the
    universe the newest one is that of the last material evaluation, which no later context has the
    version of; the deduplicator recalls the evaluations since the last reset. -/
structure Followed (s : System) (outs : List Out) : Prop where
  registry : s.manager.registry = m₀.registry
  configurations : s.manager.configurations = m₀.configurations
  recalls : ∀ i, Recalls policy (trackOf policy id i outs).recent
    (EmissionDeduplicator.entryFor s.manager.dedup (id, i) (some T))
  named : ∀ i, ∀ e ∈ (trackOf policy id i outs).lastMaterial, e.strategyId = id
  versions : ∀ i, ∀ e ∈ (trackOf policy id i outs).lastMaterial,
    ∃ previous ∈ s.manager.previous.get i, e.evaluation.contextVersion ≤ previous.version
  dated : ∀ d ∈ Scanner.seen instruments id (eventsOf outs),
    d.1 = T ∧ d.2.versions = (strategyVersion id, configVersionOf m₀ id)
  newest : ∀ first : Int × Scanner.StrategyResult, first.1 = T →
    first.2.versions = (strategyVersion id, configVersionOf m₀ id) → ∀ i ∈ instruments,
      Scanner.newest first (Scanner.seen instruments id (eventsOf outs)) i =
        (trackOf policy id i outs).lastMaterial.map (resultOf strategyVersion m₀)

variable {strategyVersion id policy instruments T m₀} {s : System} {outs : List Out}

theorem eventsOf_concat (outs : List Out) (o : Out) :
    eventsOf (outs ++ [o]) = eventsOf outs ++ o.published.toList := by
  unfold eventsOf
  rw [List.filterMap_append]
  cases h : o.published <;> simp [h]

theorem seen_append (xs ys : List Scanner.StrategyResultsPublished) :
    Scanner.seen instruments id (xs ++ ys) =
      Scanner.seen instruments id xs ++ Scanner.seen instruments id ys := by
  unfold Scanner.seen Scanner.published
  rw [List.flatMap_append, List.filter_append]

/-- A call of which the scanner sees nothing and that leaves the last material evaluations. -/
theorem Followed.unseen (h : Followed strategyVersion id policy instruments T m₀ s outs) {s' : System}
    {o : Out} (hregistry : s'.manager.registry = s.manager.registry)
    (hconfigurations : s'.manager.configurations = s.manager.configurations)
    (hseen : Scanner.seen instruments id (eventsOf (outs ++ [o])) =
      Scanner.seen instruments id (eventsOf outs))
    (hlast : ∀ i, (trackOf policy id i (outs ++ [o])).lastMaterial =
      (trackOf policy id i outs).lastMaterial)
    (hrecalls : ∀ i, Recalls policy (trackOf policy id i (outs ++ [o])).recent
      (EmissionDeduplicator.entryFor s'.manager.dedup (id, i) (some T)))
    (hversions : ∀ i, ∀ e ∈ (trackOf policy id i outs).lastMaterial,
      ∃ previous ∈ s'.manager.previous.get i, e.evaluation.contextVersion ≤ previous.version) :
    Followed strategyVersion id policy instruments T m₀ s' (outs ++ [o]) := by
  refine ⟨hregistry.trans h.registry, hconfigurations.trans h.configurations, hrecalls, ?_, ?_, ?_, ?_⟩
  · intro i
    rw [hlast]
    exact h.named i
  · intro i
    rw [hlast]
    exact hversions i
  · rw [hseen]
    exact h.dated
  · intro first hdate hfirst i hi
    rw [hseen, hlast]
    exact h.newest first hdate hfirst i hi

/-- What is not published is not seen. -/
theorem seen_unpublished (outs : List Out) {o : Out} (h : o.published = none) :
    Scanner.seen instruments id (eventsOf (outs ++ [o])) =
      Scanner.seen instruments id (eventsOf outs) := by
  rw [eventsOf_concat, h]
  congr 1
  exact List.append_nil _

/-- A command is at most a reset of the strategy. -/
theorem Followed.command (h : Followed strategyVersion id policy instruments T m₀ s outs)
    {op : System.Op} (hop : ∀ context evaluate, op ≠ .context context evaluate) :
    Followed strategyVersion id policy instruments T m₀ (s.step op).1
      (outs ++ [{ reset := resetBy op (s.step op).2 }]) := by
  obtain ⟨hsame, hdedup⟩ := step_command (s := s) hop
  set reset := resetBy op (s.step op).2 with hreset
  have htrack : ∀ i, trackOf policy id i (outs ++ [{ reset := reset }]) =
      if reset = some id then { trackOf policy id i outs with recent := [] }
      else trackOf policy id i outs := by
    intro i
    rw [trackOf_concat]
    unfold occurs
    split <;> rfl
  apply h.unseen hsame.registry hsame.configurations (seen_unpublished outs rfl)
  · intro i
    rw [htrack]
    split <;> rfl
  · intro i
    rw [hdedup, htrack]
    cases hr : reset with
    | none =>
      rw [if_neg (by simp)]
      exact h.recalls i
    | some other =>
      simp only [entryFor_resetStrategy, Option.some.injEq]
      split
      · exact recalls_fresh policy (some T)
      · exact h.recalls i
  · rw [hsame.previous]
    exact h.versions

/-- A call that an observer sees nothing of. -/
theorem Followed.idle (h : Followed strategyVersion id policy instruments T m₀ s outs) :
    Followed strategyVersion id policy instruments T m₀ s (outs ++ [({} : Out)]) := by
  have htrack : ∀ i, trackOf policy id i (outs ++ [({} : Out)]) = trackOf policy id i outs := by
    intro i
    rw [trackOf_concat]
    rfl
  apply h.unseen rfl rfl (seen_unpublished outs rfl)
  · intro i
    rw [htrack]
  · intro i
    rw [htrack]
    exact h.recalls i
  · exact h.versions

/-- The strategy has at most one evaluation of a context, for the instrument of the context. -/
theorem occurs_context (m : StrategyManager) (context : MarketContext)
    (evaluate : String → Option KindedEvaluation) (i : Instrument) :
    occurs id i (contextOut strategyVersion m context evaluate) =
      if context.instrument = i then
        ((m.handledRecord context (plainOf evaluate) id).map
          fun r => Event.evaluated (evaluatedOf evaluate r)).toList
      else [] := by
  have hrecords := (m.handle_contributes context (plainOf evaluate) id).1
  have hfilter : ((m.handle context (plainOf evaluate)).2.1.map (evaluatedOf evaluate)).filter
      (fun e => e.strategyId = id ∧ e.evaluation.instrument = i) =
      ((((m.handle context (plainOf evaluate)).2.1.filter (·.strategyId = id)).filter
        fun r => r.evaluation.instrument = i)).map (evaluatedOf evaluate) := by
    rw [List.filter_map, List.filter_filter]
    congr 2
    funext r
    by_cases hid : r.strategyId = id <;> simp [evaluatedOf, hid]
  unfold occurs contextOut
  rw [hfilter, hrecords]
  cases hrecord : m.handledRecord context (plainOf evaluate) id with
  | none => simp
  | some r =>
    obtain ⟨-, -, hinstrument, -⟩ := handledRecord_spec hrecord
    simp only [reduceCtorEq, if_false, List.nil_append, Option.toList_some, Option.map_some,
      List.filter_singleton, hinstrument]
    split <;> simp [*]

/-- The scanner sees of a context the results of the strategy. -/
theorem seen_context (m : StrategyManager) (context : MarketContext)
    (evaluate : String → Option KindedEvaluation)
    (hdate : context.session.map (·.tradingDate) = some T) :
    Scanner.seen instruments id (contextOut strategyVersion m context evaluate).published.toList =
      ((((m.handledRecord context (plainOf evaluate) id).toList.flatMap fun r =>
        (m.emitCandidate r (some T)).2.toList).map fun r =>
          (T, scannerResult strategyVersion m evaluate context.version r)).filter fun d =>
        Scanner.evaluates instruments id d.2) := by
  have hresults := (m.handle_contributes context (plainOf evaluate) id).2.results
  rw [hdate] at hresults
  rw [← hresults]
  unfold contextOut Scanner.seen Scanner.published
  cases hpublished : (m.handle context (plainOf evaluate)).2.2 with
  | none => rfl
  | some published =>
    obtain ⟨-, hversion, htrading⟩ := published_context hpublished
    rw [hdate] at htrading
    simp only [Option.map_some, Option.toList_some, List.flatMap_singleton, scannerEvent, htrading,
      publishedResults, Option.elim_some, List.map_map, hversion]
    rw [List.filter_map, List.filter_map, List.filter_filter]
    congr 1
    apply List.filter_congr
    intro r _
    simp only [Function.comp_apply, Scanner.evaluates, scannerResult]
    by_cases hid : r.strategyId = id <;> simp [hid]

/-- An evaluation of a configured strategy whose emission the deduplicator is asked for. -/
structure Emits (policy : EmissionPolicy) (recent : List StrategyEvaluation)
    (r : StrategyEvaluationRecord) : Prop where
  status : r.evaluation.status = .matched ∨ r.evaluation.status = .noMatch
  material : Material policy recent r.evaluation

instance (policy : EmissionPolicy) (recent : List StrategyEvaluation) (r : StrategyEvaluationRecord) :
    Decidable (Emits policy recent r) :=
  decidable_of_iff
    ((r.evaluation.status = .matched ∨ r.evaluation.status = .noMatch) ∧
      Material policy recent r.evaluation)
    ⟨fun h => ⟨h.1, h.2⟩, fun h => ⟨h.status, h.material⟩⟩

/-- **What a record does where the entry recalls the evaluations**: it is emitted iff it is material, and
    the entry recalls it with the others. -/
theorem Followed.emitCandidate (h : Followed strategyVersion id policy instruments T m₀ s outs)
    {strategy : Strategy} (hget : m₀.registry.get id = some strategy)
    (hpolicy : strategy.descriptor.emissionPolicy = policy) {context : MarketContext}
    {evaluate : String → Option StrategyEvaluation} {r : StrategyEvaluationRecord}
    (hr : s.manager.handledRecord context evaluate id = some r) :
    (s.manager.emitCandidate r (some T)).2 =
        (if Emits policy (trackOf policy id context.instrument outs).recent r then
          some (promoteEvaluation r.evaluation strategy.descriptor) else none) ∧
      ∀ i, Recalls policy
        (if context.instrument = i ∧
            (r.evaluation.status = .matched ∨ r.evaluation.status = .noMatch) then
          (trackOf policy id i outs).recent ++ [r.evaluation] else (trackOf policy id i outs).recent)
        (EmissionDeduplicator.entryFor (s.manager.emitCandidate r (some T)).1.dedup (id, i)
          (some T)) := by
  obtain ⟨-, hid, hinstrument, -, hconfigured⟩ := handledRecord_spec hr
  subst hid
  by_cases hstatus : r.evaluation.status = .matched ∨ r.evaluation.status = .noMatch
  · rw [← h.registry] at hget
    obtain ⟨hemitted, hentries⟩ := @emitCandidate_spec _ _ (some T) _ hget (hconfigured hstatus)
      hstatus
    rw [hinstrument, hpolicy] at hemitted hentries
    obtain ⟨hmaterial, hrecalls, hdate⟩ := decideEmission_material (h.recalls context.instrument)
      r.evaluation strategy.descriptor
    refine ⟨?_, fun i => ?_⟩
    · rw [hemitted]
      by_cases hm : Material policy (trackOf policy r.strategyId context.instrument outs).recent
        r.evaluation
      · rw [if_pos (hmaterial.mpr hm), if_pos ⟨hstatus, hm⟩]
      · rw [if_neg (fun h => hm (hmaterial.mp h)), if_neg (fun h => hm h.material)]
    · unfold EmissionDeduplicator.entryFor
      rw [hentries i]
      by_cases hi : context.instrument = i
      · subst hi
        rw [entryFor_tradingDate] at hdate
        simp only [if_true, hstatus, and_self, hdate, ne_eq, not_true_eq_false, if_false]
        exact hrecalls
      · simp only [hi, if_false, false_and]
        exact h.recalls i
  · have hnone : s.manager.emitCandidate r (some T) = (s.manager, none) := by
      unfold StrategyManager.emitCandidate
      rw [if_pos (by tauto)]
    rw [hnone, if_neg (fun h => hstatus h.status)]
    refine ⟨rfl, fun i => ?_⟩
    simp only [hstatus, and_false, if_false]
    exact h.recalls i

/-- A context that is not stale is newer than the last material evaluation of its instrument. -/
theorem Followed.newer (h : Followed strategyVersion id policy instruments T m₀ s outs)
    {context : MarketContext} (hfresh : s.manager.isStale context = false) :
    ∀ e ∈ (trackOf policy id context.instrument outs).lastMaterial,
      e.evaluation.contextVersion < context.version := by
  intro e he
  obtain ⟨previous, hprevious, hle⟩ := h.versions context.instrument e he
  unfold isStale at hfresh
  rw [hprevious] at hfresh
  simp only [Option.elim_some, decide_eq_false_iff_not, not_le] at hfresh
  omega

/-- What was not later than the last context is not later than it after a context. -/
theorem Followed.kept_versions (h : Followed strategyVersion id policy instruments T m₀ s outs)
    (context : MarketContext) (evaluate : String → Option StrategyEvaluation) (i : Instrument) :
    ∀ e ∈ (trackOf policy id i outs).lastMaterial,
      ∃ previous ∈ (s.manager.handle context evaluate).1.previous.get i,
        e.evaluation.contextVersion ≤ previous.version := by
  intro e he
  rw [handle_previous]
  cases hstale : s.manager.isStale context with
  | true => exact h.versions i e he
  | false =>
    rw [if_neg (by decide), Dict.get_set]
    split
    · rename_i hi
      subst hi
      exact ⟨context, rfl, (h.newer hstale e he).le⟩
    · exact h.versions i e he

/-- What an evaluation does to the track, by whether its record is emitted. -/
theorem next_evaluated (t : Track) (evaluate : String → Option KindedEvaluation)
    (r : StrategyEvaluationRecord) :
    (t.next policy (.evaluated (evaluatedOf evaluate r))).recent =
        (if r.evaluation.status = .matched ∨ r.evaluation.status = .noMatch then
          t.recent ++ [r.evaluation] else t.recent) ∧
      (t.next policy (.evaluated (evaluatedOf evaluate r))).lastMaterial =
        (if Emits policy t.recent r then some (evaluatedOf evaluate r) else t.lastMaterial) := by
  have hemittable : (evaluatedOf evaluate r).emittable =
      decide (r.evaluation.status = .matched ∨ r.evaluation.status = .noMatch) := rfl
  unfold Track.next
  simp only [hemittable, decide_eq_true_eq]
  split
  · rename_i hstatus
    refine ⟨rfl, ?_⟩
    show (if Material policy t.recent r.evaluation then _ else _) = _
    by_cases hm : Material policy t.recent r.evaluation
    · rw [if_pos hm, if_pos ⟨hstatus, hm⟩]
    · rw [if_neg hm, if_neg fun h => hm h.material]
  · rename_i hstatus
    exact ⟨rfl, (if_neg fun h => hstatus h.status).symm⟩

/-- Without a record, a context leaves the history and what the scanner has seen. -/
theorem Followed.without_record (h : Followed strategyVersion id policy instruments T m₀ s outs)
    (context : MarketContext) (evaluate : String → Option KindedEvaluation)
    (hdate : context.session.map (·.tradingDate) = some T)
    (hr : s.manager.handledRecord context (plainOf evaluate) id = none) :
    Followed strategyVersion id policy instruments T m₀
      { s with manager := (s.manager.handle context (plainOf evaluate)).1 }
      (outs ++ [contextOut strategyVersion s.manager context evaluate]) := by
  obtain ⟨hsetup, -⟩ := s.manager.handle_spec context (plainOf evaluate)
  have hentries := (s.manager.handle_contributes context (plainOf evaluate) id).2.entries
  rw [hr] at hentries
  have hseen : Scanner.seen instruments id
      (eventsOf (outs ++ [contextOut strategyVersion s.manager context evaluate])) =
      Scanner.seen instruments id (eventsOf outs) := by
    rw [eventsOf_concat, seen_append, seen_context s.manager context evaluate hdate, hr]
    exact List.append_nil _
  have hsame : ∀ i, trackOf policy id i
      (outs ++ [contextOut strategyVersion s.manager context evaluate]) =
      trackOf policy id i outs := by
    intro i
    rw [trackOf_concat, occurs_context, hr]
    split <;> rfl
  apply h.unseen hsetup.registry hsetup.configurations hseen
  · intro i
    rw [hsame]
  · intro i
    unfold EmissionDeduplicator.entryFor
    rw [hentries i, hsame]
    exact h.recalls i
  · exact h.kept_versions context (plainOf evaluate)

/-- The result of a record that is emitted, as the scanner receives it. -/
theorem scannerResult_eq {m : StrategyManager} (hconfigurations : m.configurations = m₀.configurations)
    {strategy : Strategy} (hid : strategy.descriptor.strategyId = id) {context : MarketContext}
    (evaluate : String → Option KindedEvaluation) {r : StrategyEvaluationRecord}
    (hrid : r.strategyId = id) (hversion : r.evaluation.contextVersion = context.version) :
    scannerResult strategyVersion m evaluate context.version
        (promoteEvaluation r.evaluation strategy.descriptor) =
      resultOf strategyVersion m₀ (evaluatedOf evaluate r) := by
  unfold scannerResult resultOf evaluatedOf promoteEvaluation configVersionOf
  simp only [hid, hrid, hversion, hconfigurations]
  rfl

/-- The scanner sees the result of a record where it is emitted for the universe. -/
theorem Followed.seen_record (h : Followed strategyVersion id policy instruments T m₀ s outs)
    {strategy : Strategy} (hget : m₀.registry.get id = some strategy)
    (hpolicy : strategy.descriptor.emissionPolicy = policy) (context : MarketContext)
    (evaluate : String → Option KindedEvaluation)
    (hdate : context.session.map (·.tradingDate) = some T) {r : StrategyEvaluationRecord}
    (hr : s.manager.handledRecord context (plainOf evaluate) id = some r) :
    Scanner.seen instruments id
        (eventsOf (outs ++ [contextOut strategyVersion s.manager context evaluate])) =
      Scanner.seen instruments id (eventsOf outs) ++
        if Emits policy (trackOf policy id context.instrument outs).recent r ∧
            context.instrument ∈ instruments then
          [(T, resultOf strategyVersion m₀ (evaluatedOf evaluate r))] else [] := by
  obtain ⟨-, hrid, hinstrument, hversion, -⟩ := handledRecord_spec hr
  have hid : strategy.descriptor.strategyId = id :=
    m₀.registry.keyed _ ((Dict.mem_iff_get m₀.registry.nodup _ _).mpr hget)
  obtain ⟨hemitted, -⟩ := h.emitCandidate hget hpolicy hr
  have hresult := @scannerResult_eq strategyVersion id m₀ _ h.configurations _ hid context evaluate
    _ hrid hversion
  rw [eventsOf_concat, seen_append, seen_context s.manager context evaluate hdate, hr]
  congr 1
  simp only [Option.toList_some, List.flatMap_singleton, hemitted]
  by_cases hemits : Emits policy (trackOf policy id context.instrument outs).recent r
  · rw [if_pos hemits, Option.toList_some, List.map_singleton, hresult, List.filter_singleton]
    have hevaluates : Scanner.evaluates instruments id
        (resultOf strategyVersion m₀ (evaluatedOf evaluate r)) =
        decide (context.instrument ∈ instruments) := by
      unfold Scanner.evaluates
      have hstatus : (resultOf strategyVersion m₀ (evaluatedOf evaluate r)).status = .matched ∨
          (resultOf strategyVersion m₀ (evaluatedOf evaluate r)).status = .noMatch := hemits.status
      simp only [hstatus, and_true]
      simp only [resultOf, evaluatedOf, hrid, hinstrument, true_and]
    rw [hevaluates, Bool.cond_eq_ite]
    simp only [hemits, true_and, decide_eq_true_eq]
  · rw [if_neg hemits, if_neg fun h => hemits h.1]
    rfl

/-- A record adds to the track of its instrument. -/
theorem track_record {m : StrategyManager} {context : MarketContext}
    {evaluate : String → Option KindedEvaluation} {r : StrategyEvaluationRecord}
    (hr : m.handledRecord context (plainOf evaluate) id = some r) (outs : List Out) (i : Instrument) :
    (trackOf policy id i (outs ++ [contextOut strategyVersion m context evaluate])).recent =
        (if context.instrument = i ∧
            (r.evaluation.status = .matched ∨ r.evaluation.status = .noMatch) then
          (trackOf policy id i outs).recent ++ [r.evaluation] else (trackOf policy id i outs).recent) ∧
      (trackOf policy id i (outs ++ [contextOut strategyVersion m context evaluate])).lastMaterial =
        (if context.instrument = i ∧ Emits policy (trackOf policy id i outs).recent r then
          some (evaluatedOf evaluate r) else (trackOf policy id i outs).lastMaterial) := by
  rw [trackOf_concat, occurs_context, hr]
  by_cases hi : context.instrument = i
  · simp only [hi, if_true, true_and]
    exact next_evaluated (trackOf policy id i outs) evaluate r
  · simp only [hi, if_false, false_and]
    exact ⟨rfl, rfl⟩

/-- After a record the newest result of every instrument is that of its last material evaluation. -/
theorem Followed.newest_record (h : Followed strategyVersion id policy instruments T m₀ s outs)
    {strategy : Strategy} (hget : m₀.registry.get id = some strategy)
    (hpolicy : strategy.descriptor.emissionPolicy = policy) (context : MarketContext)
    (evaluate : String → Option KindedEvaluation)
    (hdate : context.session.map (·.tradingDate) = some T) {r : StrategyEvaluationRecord}
    (hr : s.manager.handledRecord context (plainOf evaluate) id = some r)
    {first : Int × Scanner.StrategyResult} (hfirst : first.1 = T)
    (hversions : first.2.versions = (strategyVersion id, configVersionOf m₀ id)) {i : Instrument}
    (hi : i ∈ instruments) :
    Scanner.newest first (Scanner.seen instruments id
        (eventsOf (outs ++ [contextOut strategyVersion s.manager context evaluate]))) i =
      (trackOf policy id i
        (outs ++ [contextOut strategyVersion s.manager context evaluate])).lastMaterial.map
          (resultOf strategyVersion m₀) := by
  obtain ⟨hfresh, hrid, hinstrument, hversion, -⟩ := handledRecord_spec hr
  have hbefore := h.newest first hfirst hversions i hi
  have hown : (resultOf strategyVersion m₀ (evaluatedOf evaluate r)).instrument =
      context.instrument := hinstrument
  have hresultVersions : (resultOf strategyVersion m₀ (evaluatedOf evaluate r)).versions =
      first.2.versions := by
    rw [hversions]
    simp only [Scanner.StrategyResult.versions, resultOf, evaluatedOf, hrid]
  rw [h.seen_record hget hpolicy context evaluate hdate hr, (track_record hr outs i).2]
  by_cases hc : context.instrument = i
  · subst hc
    simp only [hi, and_true, true_and]
    split
    · rw [Scanner.newest_concat hfirst.symm hresultVersions, if_pos hown, hbefore]
      -- the last material evaluation is of an earlier context
      cases hlast : (trackOf policy id context.instrument outs).lastMaterial with
      | none => rfl
      | some e =>
        have hlt := h.newer hfresh e hlast
        have hlater : (resultOf strategyVersion m₀ e).contextVersion <
            (resultOf strategyVersion m₀ (evaluatedOf evaluate r)).contextVersion := by
          show e.evaluation.contextVersion < r.evaluation.contextVersion
          omega
        simp only [Option.map_some, hlater, if_true]
    · rw [List.append_nil, hbefore]
  · have hother : (resultOf strategyVersion m₀ (evaluatedOf evaluate r)).instrument ≠ i :=
      fun heq => hc (hown.symm.trans heq)
    simp only [hc, false_and, if_false]
    split
    · rw [Scanner.newest_concat hfirst.symm hresultVersions, if_neg hother, hbefore]
    · rw [List.append_nil, hbefore]

/-- A context of the date `T` keeps the manager and the scanner with the history. -/
theorem Followed.context (h : Followed strategyVersion id policy instruments T m₀ s outs)
    {strategy : Strategy} (hget : m₀.registry.get id = some strategy)
    (hpolicy : strategy.descriptor.emissionPolicy = policy) (context : MarketContext)
    (evaluate : String → Option KindedEvaluation)
    (hdate : context.session.map (·.tradingDate) = some T) :
    Followed strategyVersion id policy instruments T m₀
      { s with manager := (s.manager.handle context (plainOf evaluate)).1 }
      (outs ++ [contextOut strategyVersion s.manager context evaluate]) := by
  cases hr : s.manager.handledRecord context (plainOf evaluate) id with
  | none => exact h.without_record context evaluate hdate hr
  | some r =>
    obtain ⟨hfresh, hrid, -, hversion, -⟩ := handledRecord_spec hr
    obtain ⟨hsetup, -⟩ := s.manager.handle_spec context (plainOf evaluate)
    have hentries := (s.manager.handle_contributes context (plainOf evaluate) id).2.entries
    rw [hdate, hr] at hentries
    obtain ⟨-, hrecalls⟩ := h.emitCandidate hget hpolicy hr
    have htrack := @track_record strategyVersion id policy _ _ _ _ hr outs
    refine ⟨hsetup.registry.trans h.registry, hsetup.configurations.trans h.configurations, ?_, ?_,
      ?_, ?_, ?_⟩
    · intro i
      rw [(htrack i).1]
      have hentry := hrecalls i
      unfold EmissionDeduplicator.entryFor at hentry ⊢
      rw [hentries i]
      exact hentry
    · intro i e he
      rw [(htrack i).2] at he
      split at he
      · cases he
        exact hrid
      · exact h.named i e he
    · intro i e he
      rw [(htrack i).2] at he
      split at he
      · rename_i hemits
        cases he
        refine ⟨context, ?_, hversion.le⟩
        show _ ∈ Dict.get (s.manager.handle context (plainOf evaluate)).1.previous _
        rw [handle_previous, hfresh, if_neg (by decide), Dict.get_set, if_pos hemits.1]
        rfl
      · exact h.kept_versions context (plainOf evaluate) i e he
    · rw [h.seen_record hget hpolicy context evaluate hdate hr]
      intro d hd
      rcases List.mem_append.mp hd with hd | hd
      · exact h.dated d hd
      · split at hd
        · rw [List.mem_singleton.mp hd]
          exact ⟨rfl, by simp only [Scanner.StrategyResult.versions, resultOf, evaluatedOf, hrid]⟩
        · cases hd
    · intro first hfirst hversions i hi
      exact h.newest_record hget hpolicy context evaluate hdate hr hfirst hversions hi

/-- **Every run keeps the manager and the scanner with the history.** -/
theorem run_followed {strategy : Strategy} (hget : s.manager.registry.get id = some strategy)
    (hdedup : s.manager.dedup = []) (ops : List Op)
    (hdate : ∀ context evaluate, Op.context context evaluate ∈ ops →
      context.session.map (·.tradingDate) = some T) :
    Followed strategyVersion id strategy.descriptor.emissionPolicy instruments T s.manager
      (run (step strategyVersion) s ops) (Lib.outs (step strategyVersion) s ops) := by
  induction ops using List.reverseRecOn with
  | nil =>
    refine ⟨rfl, rfl, ?_, ?_, ?_, ?_, ?_⟩
    · intro i
      show Recalls _ [] (EmissionDeduplicator.entryFor s.manager.dedup (id, i) (some T))
      rw [hdedup]
      exact recalls_fresh _ (some T)
    · intro i e he
      cases he
    · intro i e he
      cases he
    · intro d hd
      cases hd
    · intro first hfirst hversions i hi
      rfl
  | append_singleton ops op ih =>
    have h := ih fun context evaluate hmem => hdate context evaluate (List.mem_append_left _ hmem)
    rw [run_concat, outs_concat]
    cases op with
    | command op =>
      cases op with
      | context context evaluate => exact h.idle
      | start _ => exact h.command fun _ _ hop => nomatch hop
      | resumeStart _ _ => exact h.command fun _ _ hop => nomatch hop
      | stop _ => exact h.command fun _ _ hop => nomatch hop
      | forceStop _ => exact h.command fun _ _ hop => nomatch hop
      | pause _ => exact h.command fun _ _ hop => nomatch hop
      | resume _ => exact h.command fun _ _ hop => nomatch hop
    | context context evaluate =>
      exact h.context hget rfl context evaluate (hdate context evaluate (by simp))

/-! ## Snapshots of followed runs -/

theorem recordOf_resultOf (rankPolicy : Scanner.ScannerRankingPolicy) (e : Evaluated) :
    (Scanner.recordOf rankPolicy (resultOf strategyVersion m₀ e)).metricValue =
      rankedValue rankPolicy.metricName e := rfl

/-- The scanner ranks an instrument by the last material evaluation. -/
theorem Followed.ranked_iff {instruments : List Instrument} {rankPolicy : Scanner.ScannerRankingPolicy}
    (h : Followed strategyVersion id policy instruments.toFinset T m₀ s outs)
    {first : Int × Scanner.StrategyResult} (hdate : first.1 = T)
    (hversions : first.2.versions = (strategyVersion id, configVersionOf m₀ id)) (i : Instrument)
    (value : ℚ) :
    Scanner.Ranked rankPolicy first (Scanner.seen instruments.toFinset id (eventsOf outs)) i value ↔
      i ∈ instruments ∧ ∃ e ∈ (trackOf policy id i outs).lastMaterial,
        rankedValue rankPolicy.metricName e = some value := by
  have hvalue : ∀ e : Evaluated, rankedValue rankPolicy.metricName e = some value ↔
      (resultOf strategyVersion m₀ e).status = .matched ∧
        Scanner.metricValue (resultOf strategyVersion m₀ e) rankPolicy.metricName = some value := by
    intro e
    rw [← @recordOf_resultOf strategyVersion m₀ rankPolicy e]
    unfold Scanner.recordOf
    simp only [Option.ite_none_right_eq_some]
  constructor
  · rintro ⟨result, hresult, hmatched, hmetric⟩
    obtain ⟨dated, hdated, hresultEq, hinstrument, -⟩ := Scanner.mem_of_newest hresult
    have hi : i ∈ instruments := hinstrument ▸ Scanner.instrument_of_seen dated hdated
    rw [h.newest first hdate hversions i (List.mem_toFinset.mpr hi), Option.map_eq_some_iff] at hresult
    obtain ⟨e, he, rfl⟩ := hresult
    exact ⟨hi, e, he, (hvalue e).mpr ⟨hmatched, hmetric⟩⟩
  · rintro ⟨hi, e, he, hranked⟩
    obtain ⟨hmatched, hmetric⟩ := (hvalue e).mp hranked
    refine ⟨resultOf strategyVersion m₀ e, ?_, hmatched, hmetric⟩
    rw [h.newest first hdate hversions i (List.mem_toFinset.mpr hi), he]
    rfl

/-- The results seen are of the date and the versions of the run. -/
theorem Followed.current_dated (h : Followed strategyVersion id policy instruments T m₀ s outs)
    {first : Int × Scanner.StrategyResult}
    (hfirst : Scanner.current (Scanner.seen instruments id (eventsOf outs)) = some first) :
    first.1 = T ∧ first.2.versions = (strategyVersion id, configVersionOf m₀ id) :=
  h.dated first (List.argmax_mem hfirst)

/-- A universe none of whose results is seen has no material evaluation. -/
theorem Followed.none_material (h : Followed strategyVersion id policy instruments T m₀ s outs)
    (hseen : Scanner.seen instruments id (eventsOf outs) = []) {i : Instrument} (hi : i ∈ instruments) :
    (trackOf policy id i outs).lastMaterial = none := by
  cases hlast : (trackOf policy id i outs).lastMaterial with
  | none => rfl
  | some e =>
    have hversions : (resultOf strategyVersion m₀ e).versions =
        (strategyVersion id, configVersionOf m₀ id) := by
      have hid := h.named i e hlast
      simp only [Scanner.StrategyResult.versions, resultOf, hid]
    have hnewest := h.newest (T, resultOf strategyVersion m₀ e) rfl hversions i hi
    rw [hseen, hlast] at hnewest
    cases hnewest

/-- The snapshot of a ranking reflects the latest evaluations iff the last material ones rank like them. -/
theorem Followed.snapshotOf_reflects {instruments : List Instrument}
    {rankPolicy : Scanner.ScannerRankingPolicy}
    (h : Followed strategyVersion id policy instruments.toFinset T m₀ s outs)
    (hlatest : ∀ i ∈ instruments, ∃ e, (trackOf policy id i outs).latest = some e)
    {first : Int × Scanner.StrategyResult}
    (hfirst : Scanner.current (Scanner.seen instruments.toFinset id (eventsOf outs)) = some first)
    {state : Scanner.SnapshotState} (hretained : Scanner.RetainedFrom rankPolicy
      (Scanner.seen instruments.toFinset id (eventsOf outs)) first state)
    {ranked : List Scanner.CandidateRecord}
    (hranking : Scanner.rank (Scanner.eligibleRecords state) rankPolicy = .ok ranked) :
    Reflects instruments rankPolicy.metricName (fun i => (trackOf policy id i outs).latest)
        (Scanner.snapshotOf instruments.toFinset.card id state rankPolicy ranked) ↔
      SameRanking rankPolicy.metricName instruments (fun i => trackOf policy id i outs) := by
  obtain ⟨hdate, hversions⟩ := h.current_dated hfirst
  have hdescribes := @Scanner.snapshotOf_describes instruments id rankPolicy first _ state
    Scanner.instrument_of_seen hretained _ hranking
  have hcomplete : (∀ i ∈ instruments, (Scanner.newest first
      (Scanner.seen instruments.toFinset id (eventsOf outs)) i).isSome) ↔
      ∀ i ∈ instruments, (trackOf policy id i outs).lastMaterial.isSome := by
    refine forall₂_congr fun i hi => ?_
    rw [h.newest first hdate hversions i (List.mem_toFinset.mpr hi), Option.isSome_map]
  have hcandidates := fun i value => (hdescribes.ranked i value).trans
    (h.ranked_iff hdate hversions i value)
  rw [sameRanking_iff hlatest, ← hcomplete, ← hdescribes.complete_iff]
  constructor
  · intro hreflects
    refine ⟨hreflects.complete, fun i hi value => ?_⟩
    have hboth := (hcandidates i value).symm.trans (hreflects.ranked i value)
    simpa only [hi, true_and] using hboth
  · rintro ⟨hcomplete, hsame⟩
    refine ⟨hcomplete, fun i value => ?_, hdescribes.once⟩
    rw [hcandidates i value]
    exact and_congr_right fun hi => hsame i hi value

/-- **A followed run**: its snapshot reflects the latest evaluations iff the last material ones rank like
    them, and no metric overflows in the sort. -/
theorem Followed.reflects_iff {instruments : List Instrument}
    {policies : Scanner.ScannerRankingPolicyRegistry} {rankPolicy : Scanner.ScannerRankingPolicy}
    (h : Followed strategyVersion id policy instruments.toFinset T m₀ s outs)
    (hrank : policies.get id = some rankPolicy)
    (hlatest : ∀ i ∈ instruments, ∃ e, (trackOf policy id i outs).latest = some e) :
    (∃ snap, Scanner.snapshotAfter instruments policies id (eventsOf outs) = .ok (some snap) ∧
        Reflects instruments rankPolicy.metricName (fun i => (trackOf policy id i outs).latest) snap) ↔
      instruments ≠ [] ∧
        SameRanking rankPolicy.metricName instruments (fun i => trackOf policy id i outs) ∧
        Rounds rankPolicy instruments (fun i => trackOf policy id i outs) := by
  cases hfirst : Scanner.current (Scanner.seen instruments.toFinset id (eventsOf outs)) with
  | none =>
    -- the scanner has no state of the strategy
    have hseen := List.argmax_eq_none.mp hfirst
    rw [Scanner.snapshotAfter_none hrank hseen]
    refine iff_of_false (fun hsnap => ?_) fun hsame => ?_
    · obtain ⟨snap, hsnap, -⟩ := hsnap
      cases hsnap
    · obtain ⟨i, hi⟩ := List.exists_mem_of_ne_nil _ hsame.1
      obtain ⟨e, he⟩ := hlatest i hi
      obtain ⟨m, hm, -⟩ := hsame.2.1 i hi e he
      rw [h.none_material hseen (List.mem_toFinset.mpr hi)] at hm
      cases hm
  | some first =>
    obtain ⟨hdate, hversions⟩ := h.current_dated hfirst
    obtain ⟨state, -, hretained, hsnapshot⟩ := Scanner.snapshotAfter_some hrank hfirst
    have hne : instruments ≠ [] := by
      rintro rfl
      exact absurd (Scanner.instrument_of_seen first (List.argmax_mem hfirst)) List.not_mem_nil
    -- under the same ranking, the sort returns iff the latest metrics round
    have hsorts (hsame : SameRanking rankPolicy.metricName instruments
        (fun i => trackOf policy id i outs)) :
        (∃ ranked, Scanner.rank (Scanner.eligibleRecords state) rankPolicy = .ok ranked) ↔
          Rounds rankPolicy instruments (fun i => trackOf policy id i outs) := by
      rw [Scanner.rank_returns_iff hretained]
      refine imp_congr_right fun _ => ?_
      have hvalues := ((sameRanking_iff hlatest).mp hsame).2
      constructor
      · intro hrounds i hi e he value hvalue
        exact hrounds i value ((h.ranked_iff hdate hversions i value).mpr
          ⟨hi, (hvalues i hi value).mpr ⟨e, he, hvalue⟩⟩)
      · intro hrounds i value hranked
        obtain ⟨hi, hmaterial⟩ := (h.ranked_iff hdate hversions i value).mp hranked
        obtain ⟨e, he, hvalue⟩ := (hvalues i hi value).mp hmaterial
        exact hrounds i hi e he value hvalue
    constructor
    · rintro ⟨snap, hsnap, hreflects⟩
      rw [hsnapshot] at hsnap
      obtain ⟨ranked, hranking, hsome⟩ := map_eq_ok.mp hsnap
      cases hsome
      have hsame := (h.snapshotOf_reflects hlatest hfirst hretained hranking).mp hreflects
      exact ⟨hne, hsame, (hsorts hsame).mp ⟨ranked, hranking⟩⟩
    · rintro ⟨-, hsame, hrounds⟩
      obtain ⟨ranked, hranking⟩ := (hsorts hsame).mpr hrounds
      exact ⟨_, hsnapshot.trans (congrArg _ hranking),
        (h.snapshotOf_reflects hlatest hfirst hretained hranking).mpr hsame⟩

end Runs

/-! ## What the policies find material -/

/-- Under the continuous policy the last material evaluation has the status, the reasons and, kinds
    aside, the metrics of the latest one. -/
theorem continuous_sameKey (events : List Event) :
    ∀ e ∈ (track .continuous events).latest, e.emittable = true →
      ∃ m ∈ (track .continuous events).lastMaterial, keyOf m.evaluation = keyOf e.evaluation := by
  suffices h : (∀ e ∈ (track .continuous events).recent.getLast?,
      ∃ m ∈ (track .continuous events).lastMaterial, keyOf m.evaluation = keyOf e) ∧
      ∀ e ∈ (track .continuous events).latest, e.emittable = true →
        ∃ m ∈ (track .continuous events).lastMaterial, keyOf m.evaluation = keyOf e.evaluation from h.2
  induction events using List.reverseRecOn with
  | nil =>
    constructor
    · intro e he
      cases he
    · intro e he
      cases he
  | append_singleton events event ih =>
    rw [track_append, List.foldl_cons, List.foldl_nil]
    generalize track .continuous events = t at ih
    obtain ⟨hrecent, hlatest⟩ := ih
    cases event with
    | reset =>
      refine ⟨fun e he => ?_, hlatest⟩
      cases he
    | evaluated e =>
      unfold Track.next
      dsimp only
      split
      · simp only [List.getLast?_concat, Option.mem_def, Option.some.injEq, forall_eq']
        have hown : ∃ m, (if Material .continuous t.recent e.evaluation then some e
            else t.lastMaterial) = some m ∧ keyOf m.evaluation = keyOf e.evaluation := by
          split
          · exact ⟨e, rfl, rfl⟩
          · rename_i hsame
            obtain ⟨last, hlast, hkey⟩ := Option.map_eq_some_iff.mp (not_not.mp hsame)
            obtain ⟨m, hm, hmkey⟩ := hrecent last hlast
            exact ⟨m, hm, hmkey.trans hkey⟩
        exact ⟨hown, fun _ => hown⟩
      · rename_i hemittable
        refine ⟨hrecent, fun latest he hemits => ?_⟩
        cases he
        exact absurd hemits hemittable

/-! ## Main result -/

/-- **The scanner reflects the evaluations exactly where the deduplicator calls material what ranks
    differently**: in every run on one trading date, where every instrument of the universe was last
    evaluated as a match or a non-match, the snapshot of the strategy is complete and ranks the latest
    matches with their metrics iff the universe is not empty, each of its instruments has a material
    evaluation, the last of which ranks like the latest evaluation, and a descending policy can negate the
    metrics. -/
theorem snapshot_reflects_iff (strategyVersion : String → String) (registry : StrategyRegistry)
    (configurations : String → Option StrategyConfiguration) (errorThreshold : ℕ)
    (errorThreshold_pos : 1 ≤ errorThreshold) (engineInstruments : List Instrument)
    (engine : CandleEngine) (refreshControl : Bool) (instruments : List Instrument)
    (policies : Scanner.ScannerRankingPolicyRegistry) (id : String) (strategy : Strategy)
    (hget : registry.get id = some strategy) (rankPolicy : Scanner.ScannerRankingPolicy)
    (hrank : policies.get id = some rankPolicy) (T : Int) (ops : List Op)
    (hdate : ∀ context evaluate, Op.context context evaluate ∈ ops →
      context.session.map (·.tradingDate) = some T) :
    let outs := Lib.outs (step strategyVersion) (LifecycleSync.initial registry configurations
      errorThreshold errorThreshold_pos engineInstruments engine refreshControl) ops
    let t := fun i => trackOf strategy.descriptor.emissionPolicy id i outs
    (∀ i ∈ instruments, ∃ e, (t i).latest = some e ∧ e.emittable = true) →
      ((∃ snap, Scanner.snapshotAfter instruments policies id (eventsOf outs) = .ok (some snap) ∧
          Reflects instruments rankPolicy.metricName (fun i => (t i).latest) snap) ↔
        instruments ≠ [] ∧ SameRanking rankPolicy.metricName instruments t ∧
          Rounds rankPolicy instruments t) := by
  intro outs t hlatest
  have hfollowed := @run_followed strategyVersion id instruments.toFinset T
    (LifecycleSync.initial registry configurations errorThreshold errorThreshold_pos engineInstruments
      engine refreshControl) strategy hget rfl ops hdate
  apply hfollowed.reflects_iff hrank
  intro i hi
  obtain ⟨e, he, -⟩ := hlatest i hi
  exact ⟨e, he⟩

/-! ## Samples -/

theorem openHigh_pattern : strategyIdPattern "open_high" = true := by decide

/-- A strategy of the policy that is evaluated on every context. -/
def openHigh (policy : EmissionPolicy) : Strategy :=
  { sampleStrategy "open_high" openHigh_pattern [] [] with
    descriptor := { (sampleStrategy "open_high" openHigh_pattern [] []).descriptor with
      emissionPolicy := policy } }

theorem openHigh_keyed (policy : EmissionPolicy) :
    ∀ kv ∈ [("open_high", openHigh policy)], kv.2.descriptor.strategyId = kv.1 := by
  intro kv hkv
  rw [List.mem_singleton.mp hkv]
  rfl

def openHighRegistry (policy : EmissionPolicy) : StrategyRegistry where
  strategies := [("open_high", openHigh policy)]
  keyed := openHigh_keyed policy
  nodup := List.nodup_singleton _

theorem openHigh_ne : Scanner.blank "open_high" = false := by decide

theorem sessionRange_ne : Scanner.blank "session_range_pct" = false := by decide

/-- The greatest range ranks first. -/
def sessionRange : Scanner.ScannerRankingPolicy :=
  ⟨"open_high", "session_range_pct", .descending, openHigh_ne, sessionRange_ne⟩

/-- A context of the trading date 20000. -/
def datedContext (instrument : Instrument) (version : ℕ) (h : 1 ≤ version) : MarketContext :=
  { sequence := version, eventTimestamp := version, observedAt := version
    session := some ⟨20000, .liveSession, "Asia/Kolkata"⟩, instrument, version, version_pos := h }

theorem open_reason : ["OPEN"].Nodup := List.nodup_singleton _

theorem extreme_reasons (status : EvaluationStatus) : status = .matched → ["OPEN"] ≠ [] :=
  fun _ => List.cons_ne_nil _ _

/-- A context with the evaluation of the strategy, which has a `Decimal` metric. -/
def scanned (instrument : Instrument) (version : ℕ) (h : 1 ≤ version) (status : EvaluationStatus)
    (value : ℚ) : Op :=
  .context (datedContext instrument version h) fun _ => some
    { evaluation :=
        { instrument, contextVersion := version, status, reasonCodes := ["OPEN"]
          metrics := [⟨"session_range_pct", .number value⟩]
          reasons_nodup := open_reason
          metrics_sorted := metricsSorted_singleton "session_range_pct" (.number value)
          matched_reasons := extreme_reasons status }
      metrics := [⟨"session_range_pct", .decimal value⟩]
      plain := rfl }

/-- What an observer sees of calls of the manager with the strategy alone. -/
def openHighOuts (policy : EmissionPolicy) (ops : List Op) : List Out :=
  Lib.outs (step fun _ => "1.0.0") (LifecycleSync.initial (openHighRegistry policy)
    sampleConfigurations 3 sampleThreshold_pos [] sampleEngine false) ops

theorem two_pos : 1 ≤ 2 := by decide

/-- Two instruments, one of which stops matching and matches again. -/
def matchedAgain : List Op :=
  [.command (.start "open_high"), scanned reliance 1 Nat.one_pos .matched 1,
    scanned Scanner.tcs 1 Nat.one_pos .matched 2, scanned reliance 2 two_pos .noMatch 3,
    scanned reliance 3 sampleThreshold_pos .matched 4]

theorem matchedAgain_dated : ∀ context evaluate, Op.context context evaluate ∈ matchedAgain →
    context.session.map (·.tradingDate) = some 20000 := by
  intro context evaluate h
  simp only [matchedAgain, scanned, List.mem_cons, reduceCtorEq, Op.context.injEq, List.not_mem_nil,
    or_false, false_or] at h
  rcases h with ⟨rfl, -⟩ | ⟨rfl, -⟩ | ⟨rfl, -⟩ | ⟨rfl, -⟩ <;> rfl

theorem snapshot_reflects_sample :
    ∃ snap, Scanner.snapshotAfter [reliance, Scanner.tcs] [("open_high", sessionRange)] "open_high"
        (eventsOf (openHighOuts .edgeTriggered matchedAgain)) = .ok (some snap) ∧
      Reflects [reliance, Scanner.tcs] "session_range_pct"
        (fun i => (trackOf .edgeTriggered "open_high" i
          (openHighOuts .edgeTriggered matchedAgain)).latest) snap := by
  have hlatest : ∀ i ∈ [reliance, Scanner.tcs], ∃ e, (trackOf .edgeTriggered "open_high" i
      (openHighOuts .edgeTriggered matchedAgain)).latest = some e ∧ e.emittable = true := by
    have hmem : ∀ i ∈ [reliance, Scanner.tcs], ∃ e ∈ (trackOf .edgeTriggered "open_high" i
      (openHighOuts .edgeTriggered matchedAgain)).latest, e.emittable = true := by decide +kernel
    exact hmem
  have hsame : SameRanking "session_range_pct" [reliance, Scanner.tcs]
      (fun i => trackOf .edgeTriggered "open_high" i (openHighOuts .edgeTriggered matchedAgain)) := by
    unfold SameRanking
    decide +kernel
  have hrounds : ∀ i ∈ [reliance, Scanner.tcs], ∀ e ∈ (trackOf .edgeTriggered "open_high" i
      (openHighOuts .edgeTriggered matchedAgain)).latest,
      ∀ value ∈ rankedValue "session_range_pct" e,
        (DecimalContext.default.round (-value)).isSome := by
    decide +kernel
  exact (snapshot_reflects_iff (fun _ => "1.0.0") (openHighRegistry .edgeTriggered)
    sampleConfigurations 3 sampleThreshold_pos [] sampleEngine false [reliance, Scanner.tcs]
    [("open_high", sessionRange)] "open_high" (openHigh .edgeTriggered) rfl sessionRange rfl 20000
    matchedAgain matchedAgain_dated hlatest).mpr
    ⟨List.cons_ne_nil _ _, hsame, fun _ => hrounds⟩

/-- The first evaluation of an instrument is a non-match. -/
def unmatched : List Op :=
  [.command (.start "open_high"), scanned reliance 1 Nat.one_pos .noMatch 1]

/-- An instrument keeps matching, with another metric. -/
def rangeGrown : List Op :=
  [.command (.start "open_high"), scanned reliance 1 Nat.one_pos .matched 1,
    scanned reliance 2 two_pos .matched 2]

/-- Under both policies that drop evaluations: an instrument that is only evaluated as a non-match is not
    counted, and one that keeps matching is ranked with its first metric. -/
theorem unmatched_never_counted :
    (∃ e ∈ (trackOf .edgeTriggered "open_high" reliance
        (openHighOuts .edgeTriggered unmatched)).latest, e.status = .noMatch) ∧
    (¬ ∃ snap, Scanner.snapshotAfter [reliance] [("open_high", sessionRange)] "open_high"
        (eventsOf (openHighOuts .edgeTriggered unmatched)) = .ok (some snap)) ∧
    (¬ ∃ snap, Scanner.snapshotAfter [reliance] [("open_high", sessionRange)] "open_high"
        (eventsOf (openHighOuts .oneShotPerSession unmatched)) = .ok (some snap)) ∧
    Scanner.ranking (Scanner.snapshotAfter [reliance] [("open_high", sessionRange)] "open_high"
        (eventsOf (openHighOuts .edgeTriggered rangeGrown))) = some [(reliance, 1)] ∧
    Scanner.ranking (Scanner.snapshotAfter [reliance] [("open_high", sessionRange)] "open_high"
        (eventsOf (openHighOuts .oneShotPerSession rangeGrown))) = some [(reliance, 1)] ∧
    ∃ e ∈ (trackOf .edgeTriggered "open_high" reliance
        (openHighOuts .edgeTriggered rangeGrown)).latest,
      rankedValue "session_range_pct" e = some 2 := by
  have hnone (policy : EmissionPolicy) (h : policy ≠ .continuous) :
      Scanner.ranking (Scanner.snapshotAfter [reliance] [("open_high", sessionRange)] "open_high"
        (eventsOf (openHighOuts policy unmatched))) = none := by
    cases policy with
    | continuous => exact absurd rfl h
    | edgeTriggered => decide +kernel
    | oneShotPerSession => decide +kernel
  refine ⟨by decide +kernel, ?_, ?_, by decide +kernel, by decide +kernel, by decide +kernel⟩
  · rintro ⟨snap, hsnap⟩
    have := hnone .edgeTriggered (by decide)
    rw [hsnap] at this
    cases this
  · rintro ⟨snap, hsnap⟩
    have := hnone .oneShotPerSession (by decide)
    rw [hsnap] at this
    cases this

end ApexScan.ScannerFeed
