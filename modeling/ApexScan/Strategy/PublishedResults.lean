import ApexScan.Strategy.Manager

/-!
# What one strategy contributes to a context

The strategies of a context do not see each other: the record of a strategy depends on its own readiness
and evaluation, and its emission on its own entry in the deduplicator.

* `recordOf` — the record of one strategy on a context, outside the loop.
* `recordsFor_filter`, `emitAll_of_mem`, `emitAll_of_notMem` — one strategy in the two loops.
* `Contributes`, `handle_contributes` — what a handled context does for one strategy: its record, its
  published results and its entries.
* `published_result` — a published result is what the strategy's `evaluate` returned for the context.
-/

set_option autoImplicit false

namespace ApexScan.StrategyManager

open Lib

/-- The record that `_records_for` makes of a strategy, if it considers it. -/
def recordOf (m : StrategyManager) (context : MarketContext)
    (evaluate : String → Option StrategyEvaluation) (id : String) : Option StrategyEvaluationRecord :=
  match m.registry.get id with
  | none => none
  | some strategy =>
    if isTriggered strategy.requirements.trigger (m.previous.get context.instrument) context = true then
      some (m.evaluateOne strategy strategy.requirements.trigger context (evaluate id)).2
    else none

/-! ## The evaluation loop -/

section Evaluation

variable {m m' : StrategyManager} {context : MarketContext}

theorem command_keeps (m : StrategyManager) (id : String) (c : LifecycleCommand) :
    (m.command id c).1.registry = m.registry ∧
      (m.command id c).1.configurations = m.configurations ∧
      (m.command id c).1.dedup = m.dedup ∧ (m.command id c).1.previous = m.previous := by
  unfold command
  split <;> exact ⟨rfl, rfl, rfl, rfl⟩

theorem fail_keeps (m : StrategyManager) (id : String) (trigger : StrategyTrigger)
    (context : MarketContext) :
    (m.fail id trigger context).1.registry = m.registry ∧
      (m.fail id trigger context).1.configurations = m.configurations ∧
      (m.fail id trigger context).1.dedup = m.dedup ∧
      (m.fail id trigger context).1.previous = m.previous := by
  unfold fail
  dsimp only
  split
  · exact command_keeps _ id .markError
  · exact ⟨rfl, rfl, rfl, rfl⟩

/-- An evaluation changes counts and lifecycle only. -/
theorem evaluateOne_keeps (m : StrategyManager) (strategy : Strategy) (trigger : StrategyTrigger)
    (context : MarketContext) (outcome : Option StrategyEvaluation) :
    (m.evaluateOne strategy trigger context outcome).1.registry = m.registry ∧
      (m.evaluateOne strategy trigger context outcome).1.configurations = m.configurations ∧
      (m.evaluateOne strategy trigger context outcome).1.dedup = m.dedup ∧
      (m.evaluateOne strategy trigger context outcome).1.previous = m.previous := by
  unfold evaluateOne
  simp only
  split
  · exact ⟨rfl, rfl, rfl, rfl⟩
  · unfold StrategyManager.run
    split
    · exact fail_keeps m _ trigger context
    · exact ⟨rfl, rfl, rfl, rfl⟩

/-- The record of an evaluation depends on the configuration of the strategy only. -/
theorem evaluateOne_congr {strategy : Strategy} (trigger : StrategyTrigger)
    (outcome : Option StrategyEvaluation) (h : m'.configurations = m.configurations) :
    (m'.evaluateOne strategy trigger context outcome).2 =
      (m.evaluateOne strategy trigger context outcome).2 := by
  unfold evaluateOne
  simp only [h]
  split
  · rfl
  · unfold StrategyManager.run
    split <;> rfl

theorem evaluateOne_strategyId (m : StrategyManager) (strategy : Strategy) (trigger : StrategyTrigger)
    (context : MarketContext) (outcome : Option StrategyEvaluation) :
    (m.evaluateOne strategy trigger context outcome).2.strategyId = strategy.descriptor.strategyId := by
  unfold evaluateOne
  simp only
  split
  · rfl
  · unfold StrategyManager.run
    split <;> rfl

/-- A record that may be emitted has what the strategy's `evaluate` returned, of this context. -/
theorem evaluateOne_emittable {strategy : Strategy} {trigger : StrategyTrigger}
    {outcome : Option StrategyEvaluation}
    (h : (m.evaluateOne strategy trigger context outcome).2.evaluation.status = .matched ∨
      (m.evaluateOne strategy trigger context outcome).2.evaluation.status = .noMatch) :
    outcome = some (m.evaluateOne strategy trigger context outcome).2.evaluation ∧
      (m.evaluateOne strategy trigger context outcome).2.evaluation.instrument =
        context.instrument ∧
      (m.evaluateOne strategy trigger context outcome).2.evaluation.contextVersion =
        context.version := by
  unfold evaluateOne StrategyManager.run at h ⊢
  simp only at h ⊢
  split at h
  · rcases h with h | h <;> cases h
  · rename_i hready
    rw [if_neg hready]
    split at h
    · rcases h with h | h <;> cases h
    · rename_i evaluation hchecked
      unfold checkedEvaluation at hchecked
      rw [Option.filter_eq_some_iff] at hchecked
      obtain ⟨houtcome, hconsistent⟩ := hchecked
      unfold consistentEvaluation at hconsistent
      exact ⟨houtcome, of_decide_eq_true hconsistent⟩

theorem recordsFor_keeps (context : MarketContext) (previous : Option MarketContext)
    (evaluate : String → Option StrategyEvaluation) (ids : List String) (m : StrategyManager) :
    (recordsFor context previous evaluate ids m).1.registry = m.registry ∧
      (recordsFor context previous evaluate ids m).1.configurations = m.configurations ∧
      (recordsFor context previous evaluate ids m).1.dedup = m.dedup ∧
      (recordsFor context previous evaluate ids m).1.previous = m.previous := by
  induction ids generalizing m with
  | nil => exact ⟨rfl, rfl, rfl, rfl⟩
  | cons id ids ih =>
    unfold recordsFor
    split
    · exact ih m
    · rename_i strategy _
      split
      · exact ih m
      · obtain ⟨hregistry, hconfigurations, hdedup, hprevious⟩ := m.evaluateOne_keeps strategy
          strategy.requirements.trigger context (evaluate id)
        have hrest := ih (m.evaluateOne strategy strategy.requirements.trigger context
          (evaluate id)).1
        rw [hregistry, hconfigurations, hdedup, hprevious] at hrest
        exact hrest

/-- The loop has at most one record of a strategy, and it is the one made outside the loop. -/
theorem recordsFor_filter (context : MarketContext) (evaluate : String → Option StrategyEvaluation)
    {ids : List String} (hnodup : ids.Nodup) (m : StrategyManager) (id : String) :
    (recordsFor context (m.previous.get context.instrument) evaluate ids m).2.filter
        (·.strategyId = id) =
      if id ∈ ids then (m.recordOf context evaluate id).toList else [] := by
  induction ids generalizing m with
  | nil => rfl
  | cons visited ids ih =>
    obtain ⟨hnot, hnodup⟩ := List.nodup_cons.mp hnodup
    unfold recordsFor
    cases hget : m.registry.get visited with
    | none =>
      simp only
      rw [ih hnodup m]
      by_cases hid : id = visited
      · subst hid
        simp [hnot, recordOf, hget]
      · simp [hid]
    | some strategy =>
      simp only
      by_cases htrigger : isTriggered strategy.requirements.trigger
          (m.previous.get context.instrument) context = false
      · rw [if_pos htrigger, ih hnodup m]
        by_cases hid : id = visited
        · subst hid
          simp [hnot, recordOf, hget, htrigger]
        · simp [hid]
      · rw [if_neg htrigger]
        rw [Bool.not_eq_false] at htrigger
        have hname : (m.evaluateOne strategy strategy.requirements.trigger context
            (evaluate visited)).2.strategyId = visited := by
          rw [evaluateOne_strategyId]
          exact m.registry.keyed _ ((Dict.mem_iff_get m.registry.nodup _ _).mpr hget)
        obtain ⟨hregistry, hconfigurations, -, hprevious⟩ := m.evaluateOne_keeps strategy
          strategy.requirements.trigger context (evaluate visited)
        have hrest := ih hnodup (m.evaluateOne strategy strategy.requirements.trigger context
          (evaluate visited)).1
        have hsame : (m.evaluateOne strategy strategy.requirements.trigger context
            (evaluate visited)).1.recordOf context evaluate id = m.recordOf context evaluate id := by
          unfold recordOf
          rw [hregistry, hprevious]
          split
          · rfl
          · split
            · rw [evaluateOne_congr _ _ hconfigurations]
            · rfl
        rw [hprevious, hsame] at hrest
        rw [List.filter_cons, hname, hrest]
        by_cases hid : id = visited
        · subst hid
          simp [hnot, recordOf, hget, htrigger]
        · simp [hid, Ne.symm hid]

end Evaluation

/-! ## The emission loop -/

section Emission

variable {m m' : StrategyManager} {tradingDate : Option Int} {record : StrategyEvaluationRecord}

/-- An emission changes the entry of the record's own strategy only. -/
theorem emitCandidate_keeps (m : StrategyManager) (record : StrategyEvaluationRecord)
    (tradingDate : Option Int) :
    (m.emitCandidate record tradingDate).1.registry = m.registry ∧
      (m.emitCandidate record tradingDate).1.configurations = m.configurations ∧
      (m.emitCandidate record tradingDate).1.previous = m.previous ∧
      (m.emitCandidate record tradingDate).1.lifecycle = m.lifecycle ∧
      ∀ id j, id ≠ record.strategyId →
        Dict.get (m.emitCandidate record tradingDate).1.dedup (id, j) = Dict.get m.dedup (id, j) := by
  unfold emitCandidate
  split
  · exact ⟨rfl, rfl, rfl, rfl, fun _ _ _ => rfl⟩
  · split
    · rename_i strategy _ hget
      refine ⟨rfl, rfl, rfl, rfl, ?_⟩
      intro id j hne
      have hkeyed : strategy.descriptor.strategyId = record.strategyId :=
        m.registry.keyed _ ((Dict.mem_iff_get m.registry.nodup _ _).mpr hget)
      refine Dict.get_set_ne _ _ ?_
      intro heq
      exact hne ((Prod.mk.inj heq).1.symm.trans hkeyed)
    · exact ⟨rfl, rfl, rfl, rfl, fun _ _ _ => rfl⟩

/-- A result has the id of its record. -/
theorem emitCandidate_strategyId {r : StrategyResult}
    (h : (m.emitCandidate record tradingDate).2 = some r) : r.strategyId = record.strategyId := by
  unfold emitCandidate at h
  split at h
  · cases h
  · split at h
    · rename_i strategy _ hget
      dsimp only at h
      split at h
      · cases h
        exact m.registry.keyed _ ((Dict.mem_iff_get m.registry.nodup _ _).mpr hget)
      · cases h
    · cases h

/-- What is emitted depends on the setup and on the entries of the record's own strategy. -/
theorem emitCandidate_congr (hregistry : m'.registry = m.registry)
    (hconfigurations : m'.configurations = m.configurations)
    (hdedup : ∀ j, Dict.get m'.dedup (record.strategyId, j) =
      Dict.get m.dedup (record.strategyId, j)) :
    (m'.emitCandidate record tradingDate).2 = (m.emitCandidate record tradingDate).2 ∧
      ∀ j, Dict.get (m'.emitCandidate record tradingDate).1.dedup (record.strategyId, j) =
        Dict.get (m.emitCandidate record tradingDate).1.dedup (record.strategyId, j) := by
  unfold emitCandidate
  rw [hregistry, hconfigurations]
  split
  · exact ⟨rfl, hdedup⟩
  · split
    · rename_i strategy _ hget
      have hkeyed : strategy.descriptor.strategyId = record.strategyId :=
        m.registry.keyed _ ((Dict.mem_iff_get m.registry.nodup _ _).mpr hget)
      have hentry : EmissionDeduplicator.entryFor m'.dedup
          (record.strategyId, record.evaluation.instrument) tradingDate =
          EmissionDeduplicator.entryFor m.dedup (record.strategyId, record.evaluation.instrument)
            tradingDate := by
        unfold EmissionDeduplicator.entryFor
        rw [hdedup]
      simp only [EmissionDeduplicator.shouldEmit, promoteEvaluation, hkeyed, hentry]
      refine ⟨trivial, fun j => ?_⟩
      rw [Dict.get_set, Dict.get_set, hdedup]
    · exact ⟨rfl, hdedup⟩

/-- A strategy without a record has no result, and its entries stay. -/
theorem emitAll_of_notMem (tradingDate : Option Int) {records : List StrategyEvaluationRecord}
    {id : String} (h : ∀ r ∈ records, r.strategyId ≠ id) (m : StrategyManager) :
    (emitAll tradingDate records m).2.filter (·.strategyId = id) = [] ∧
      ∀ j, Dict.get (emitAll tradingDate records m).1.dedup (id, j) = Dict.get m.dedup (id, j) := by
  induction records generalizing m with
  | nil => exact ⟨rfl, fun _ => rfl⟩
  | cons record records ih =>
    have hne := h record List.mem_cons_self
    obtain ⟨-, -, -, -, hentries⟩ := m.emitCandidate_keeps record tradingDate
    obtain ⟨hresults, hrest⟩ := ih (fun r hr => h r (List.mem_cons_of_mem _ hr))
      (m.emitCandidate record tradingDate).1
    unfold emitAll
    refine ⟨?_, fun j => (hrest j).trans (hentries id j hne.symm)⟩
    rw [List.filter_append, hresults, List.append_nil, List.filter_eq_nil_iff]
    intro r hr
    have hid := emitCandidate_strategyId (Option.mem_toList.mp hr)
    simpa [hid] using hne

/-- A strategy with one record has the result and the entries of that record alone. -/
theorem emitAll_of_mem (tradingDate : Option Int) {records : List StrategyEvaluationRecord}
    {record : StrategyEvaluationRecord}
    (h : records.filter (·.strategyId = record.strategyId) = [record]) (m : StrategyManager) :
    (emitAll tradingDate records m).2.filter (·.strategyId = record.strategyId) =
        (m.emitCandidate record tradingDate).2.toList ∧
      ∀ j, Dict.get (emitAll tradingDate records m).1.dedup (record.strategyId, j) =
        Dict.get (m.emitCandidate record tradingDate).1.dedup (record.strategyId, j) := by
  induction records generalizing m with
  | nil => cases h
  | cons head records ih =>
    rw [List.filter_cons] at h
    unfold emitAll
    simp only [List.filter_append]
    by_cases hid : head.strategyId = record.strategyId
    · rw [if_pos (by simpa using hid), List.cons.injEq] at h
      obtain ⟨rfl, hnone⟩ := h
      have hothers : ∀ r ∈ records, r.strategyId ≠ head.strategyId := by
        intro r hr heq
        have hmem : r ∈ records.filter (·.strategyId = head.strategyId) :=
          List.mem_filter.mpr ⟨hr, decide_eq_true heq⟩
        rw [hnone] at hmem
        cases hmem
      obtain ⟨hresults, hentries⟩ := emitAll_of_notMem tradingDate hothers
        (m.emitCandidate head tradingDate).1
      refine ⟨?_, hentries⟩
      rw [hresults, List.append_nil, List.filter_eq_self]
      intro r hr
      exact decide_eq_true (emitCandidate_strategyId (Option.mem_toList.mp hr))
    · rw [if_neg (by simpa using hid)] at h
      obtain ⟨hregistry, hconfigurations, -, -, hkept⟩ := m.emitCandidate_keeps head tradingDate
      obtain ⟨hresults, hentries⟩ := ih h (m.emitCandidate head tradingDate).1
      obtain ⟨hsame, hsameEntries⟩ := @emitCandidate_congr m (m.emitCandidate head tradingDate).1
        tradingDate record hregistry hconfigurations
        fun j => hkept record.strategyId j (Ne.symm hid)
      refine ⟨?_, fun j => (hentries j).trans (hsameEntries j)⟩
      have hnone : (m.emitCandidate head tradingDate).2.toList.filter
          (·.strategyId = record.strategyId) = [] := by
        rw [List.filter_eq_nil_iff]
        intro r hr
        have hname := emitCandidate_strategyId (Option.mem_toList.mp hr)
        simpa [hname] using hid
      rw [hnone, List.nil_append, hresults, hsame]

end Emission

/-! ## One context -/

/-- What a handled context does for one strategy that is registered: without a record nothing, and with
    one what `_emit_candidate` does with it. -/
structure Contributes (m m' : StrategyManager) (tradingDate : Option Int)
    (record : Option StrategyEvaluationRecord) (id : String) (results : List StrategyResult) : Prop where
  results : results.filter (·.strategyId = id) =
    record.toList.flatMap fun r => (m.emitCandidate r tradingDate).2.toList
  entries : ∀ j, Dict.get m'.dedup (id, j) =
    (record.elim m fun r => (m.emitCandidate r tradingDate).1).dedup.get (id, j)

/-- The results of the publication, if there is one. -/
def publishedResults (published : Option StrategyResultsPublished) : List StrategyResult :=
  published.elim [] (·.results)

theorem runningIds_nodup (m : StrategyManager) : m.runningIds.Nodup :=
  ((List.perm_insertionSort _ _).nodup_iff.mpr m.registry.nodup).filter _

theorem mem_runningIds {m : StrategyManager} {id : String} {strategy : Strategy}
    (hget : m.registry.get id = some strategy) :
    id ∈ m.runningIds ↔ m.lifecycle.stateOf id = some .running := by
  unfold runningIds StrategyRegistry.identifiers
  rw [List.mem_filter, List.mem_insertionSort, Dict.mem_keys_iff, decide_eq_true_eq]
  unfold StrategyRegistry.get at hget
  simp [hget]

theorem recordOf_strategyId {m : StrategyManager} {context : MarketContext}
    {evaluate : String → Option StrategyEvaluation} {id : String} {record : StrategyEvaluationRecord}
    (h : m.recordOf context evaluate id = some record) : record.strategyId = id := by
  unfold recordOf at h
  split at h
  · cases h
  · rename_i strategy hget
    split at h
    · cases h
      rw [evaluateOne_strategyId]
      exact m.registry.keyed _ ((Dict.mem_iff_get m.registry.nodup _ _).mpr hget)
    · cases h

/-- The record of a running strategy on a context that is not stale. -/
def handledRecord (m : StrategyManager) (context : MarketContext)
    (evaluate : String → Option StrategyEvaluation) (id : String) : Option StrategyEvaluationRecord :=
  if m.considers context id then m.recordOf context evaluate id else none

/-- The publication has what the emission loop returned. -/
theorem publishedResults_publishResults (m : StrategyManager) (context : MarketContext)
    (records : List StrategyEvaluationRecord) :
    publishedResults (m.publishResults context records).2 =
      (emitAll (context.session.map (·.tradingDate)) records m).2 := by
  unfold publishResults publishedResults
  simp only
  split
  · rename_i hempty
    simpa using (List.isEmpty_iff.mp hempty).symm
  · rfl

/-- What the emission of records does for a strategy that has at most one of them, in a manager that has
    its own setup and entries. -/
theorem publishResults_contributes {m stored : StrategyManager} {context : MarketContext}
    {records : List StrategyEvaluationRecord} {record : Option StrategyEvaluationRecord} {id : String}
    (hregistry : stored.registry = m.registry) (hconfigurations : stored.configurations = m.configurations)
    (hdedup : stored.dedup = m.dedup) (hid : ∀ r ∈ record, r.strategyId = id)
    (hrecords : records.filter (·.strategyId = id) = record.toList) :
    Contributes m (stored.publishResults context records).1 (context.session.map (·.tradingDate)) record
      id (publishedResults (stored.publishResults context records).2) := by
  rw [publishedResults_publishResults]
  cases record with
  | none =>
    have hnone : ∀ r ∈ records, r.strategyId ≠ id := by
      intro r hr heq
      have hmem : r ∈ records.filter (·.strategyId = id) :=
        List.mem_filter.mpr ⟨hr, decide_eq_true heq⟩
      rw [hrecords] at hmem
      cases hmem
    obtain ⟨hresults, hentries⟩ := emitAll_of_notMem (context.session.map (·.tradingDate)) hnone
      stored
    refine ⟨hresults, fun j => (hentries j).trans ?_⟩
    rw [hdedup]
    rfl
  | some record =>
    obtain rfl := hid record rfl
    obtain ⟨hresults, hentries⟩ := emitAll_of_mem (context.session.map (·.tradingDate)) hrecords
      stored
    obtain ⟨hsame, hsameEntries⟩ := @emitCandidate_congr m stored
      (context.session.map (·.tradingDate)) record hregistry hconfigurations
      fun j => congrArg (Dict.get · (record.strategyId, j)) hdedup
    refine ⟨?_, fun j => (hentries j).trans (hsameEntries j)⟩
    rw [hresults, hsame]
    simp

/-- **A context does for a strategy what the strategy's own record asks for**, whatever the other
    strategies are and do. -/
theorem handle_contributes (m : StrategyManager) (context : MarketContext)
    (evaluate : String → Option StrategyEvaluation) (id : String) :
    ((m.handle context evaluate).2.1.filter (·.strategyId = id) =
        (m.handledRecord context evaluate id).toList) ∧
      Contributes m (m.handle context evaluate).1 (context.session.map (·.tradingDate))
        (m.handledRecord context evaluate id) id
        (publishedResults (m.handle context evaluate).2.2) := by
  unfold handledRecord considers handle
  by_cases hstale : m.isStale context = true
  · rw [if_pos hstale]
    simp only [hstale, Bool.not_true, Bool.false_and, Bool.false_eq_true, if_false]
    exact ⟨rfl, rfl, fun _ => rfl⟩
  · rw [if_neg hstale]
    rw [Bool.not_eq_true] at hstale
    simp only [hstale, Bool.not_false, Bool.true_and, decide_eq_true_eq]
    set evaluated := recordsFor context (m.previous.get context.instrument) evaluate m.runningIds m
      with hevaluated
    obtain ⟨hregistry, hconfigurations, hdedup, -⟩ :=
      recordsFor_keeps context (m.previous.get context.instrument) evaluate m.runningIds m
    have hrecords : evaluated.2.filter (·.strategyId = id) =
        (if m.lifecycle.stateOf id = some .running then m.recordOf context evaluate id
          else none).toList := by
      rw [hevaluated, recordsFor_filter context evaluate m.runningIds_nodup m id]
      cases hget : m.registry.get id with
      | none => simp [recordOf, hget]
      | some strategy =>
        simp only [mem_runningIds hget]
        split <;> rfl
    refine ⟨hrecords, ?_⟩
    refine @publishResults_contributes m (evaluated.1.store context evaluated.2) context evaluated.2 _ id
      hregistry hconfigurations hdedup (fun r hr => ?_) hrecords
    split at hr
    · exact recordOf_strategyId hr
    · cases hr

/-- A result is emitted from an emittable record, with the evaluation of the record. -/
theorem emitCandidate_eq_some {m : StrategyManager} {record : StrategyEvaluationRecord}
    {tradingDate : Option Int} {r : StrategyResult}
    (h : (m.emitCandidate record tradingDate).2 = some r) :
    (record.evaluation.status = .matched ∨ record.evaluation.status = .noMatch) ∧
      ∃ descriptor, r = promoteEvaluation record.evaluation descriptor := by
  unfold emitCandidate at h
  split at h
  · cases h
  · rename_i hstatus
    refine ⟨by tauto, ?_⟩
    split at h
    · rename_i strategy _ _
      dsimp only at h
      split at h
      · cases h
        exact ⟨strategy.descriptor, rfl⟩
      · cases h
    · cases h

/-- A published result is what the strategy's `evaluate` returned for the context of the publication. -/
theorem published_result {m : StrategyManager} {context : MarketContext}
    {evaluate : String → Option StrategyEvaluation} {published : StrategyResultsPublished}
    (h : (m.handle context evaluate).2.2 = some published) {result : StrategyResult}
    (hr : result ∈ published.results) :
    ∃ evaluation descriptor, evaluate result.strategyId = some evaluation ∧
      (evaluation.status = .matched ∨ evaluation.status = .noMatch) ∧
      result = promoteEvaluation evaluation descriptor := by
  obtain ⟨-, hcontributes⟩ := m.handle_contributes context evaluate result.strategyId
  rw [h] at hcontributes
  have hmem : result ∈ published.results.filter (·.strategyId = result.strategyId) :=
    List.mem_filter.mpr ⟨hr, decide_eq_true rfl⟩
  rw [show published.results = publishedResults (some published) from rfl, hcontributes.results,
    List.mem_flatMap] at hmem
  obtain ⟨record, hrecord, hresult⟩ := hmem
  rw [Option.mem_toList] at hrecord hresult
  obtain ⟨hstatus, descriptor, hpromoted⟩ := emitCandidate_eq_some hresult
  refine ⟨record.evaluation, descriptor, ?_, hstatus, hpromoted⟩
  unfold handledRecord at hrecord
  split at hrecord
  · unfold recordOf at hrecord
    split at hrecord
    · cases hrecord
    · split at hrecord
      · cases hrecord
        exact (evaluateOne_emittable hstatus).1
      · cases hrecord
  · cases hrecord

/-- A publication is about the instrument, the version and the trading date of its context. -/
theorem published_context {m : StrategyManager} {context : MarketContext}
    {evaluate : String → Option StrategyEvaluation} {published : StrategyResultsPublished}
    (h : (m.handle context evaluate).2.2 = some published) :
    published.instrument = context.instrument ∧ published.contextVersion = context.version ∧
      published.tradingDate = context.session.map (·.tradingDate) := by
  unfold handle publishResults at h
  split at h
  · cases h
  · dsimp only at h
    split at h
    · cases h
    · cases h
      exact ⟨rfl, rfl, rfl⟩

theorem emitAll_previous (tradingDate : Option Int) (records : List StrategyEvaluationRecord)
    (m : StrategyManager) : (emitAll tradingDate records m).1.previous = m.previous := by
  induction records generalizing m with
  | nil => rfl
  | cons record records ih =>
    unfold emitAll
    exact (ih _).trans (m.emitCandidate_keeps record tradingDate).2.2.1

/-- A context that is not stale is remembered as the last one of its instrument. -/
theorem handle_previous (m : StrategyManager) (context : MarketContext)
    (evaluate : String → Option StrategyEvaluation) :
    (m.handle context evaluate).1.previous =
      if m.isStale context then m.previous else m.previous.set context.instrument context := by
  unfold handle
  split
  · rfl
  · unfold publishResults
    simp only [emitAll_previous]
    show Dict.set (recordsFor _ _ _ _ m).1.previous _ _ = _
    rw [(recordsFor_keeps context _ evaluate m.runningIds m).2.2.2]

/-- A record is about its context. -/
theorem evaluateOne_context (m : StrategyManager) (strategy : Strategy) (trigger : StrategyTrigger)
    (context : MarketContext) (outcome : Option StrategyEvaluation) :
    (m.evaluateOne strategy trigger context outcome).2.evaluation.instrument = context.instrument ∧
      (m.evaluateOne strategy trigger context outcome).2.evaluation.contextVersion =
        context.version := by
  unfold evaluateOne
  simp only
  split
  · exact ⟨rfl, rfl⟩
  · unfold StrategyManager.run
    split
    · exact ⟨rfl, rfl⟩
    · rename_i evaluation hchecked
      unfold checkedEvaluation consistentEvaluation at hchecked
      exact of_decide_eq_true (Option.filter_eq_some_iff.mp hchecked).2

/-- The record of a handled context: of a fresh context, of this strategy, and of a configured one where
    it may be emitted. -/
theorem handledRecord_spec {m : StrategyManager} {context : MarketContext}
    {evaluate : String → Option StrategyEvaluation} {id : String} {record : StrategyEvaluationRecord}
    (h : m.handledRecord context evaluate id = some record) :
    m.isStale context = false ∧ record.strategyId = id ∧
      record.evaluation.instrument = context.instrument ∧
      record.evaluation.contextVersion = context.version ∧
      (record.evaluation.status = .matched ∨ record.evaluation.status = .noMatch →
        m.configurations id ≠ none) := by
  unfold handledRecord at h
  split at h
  · rename_i hconsiders
    unfold considers at hconsiders
    simp only [Bool.and_eq_true, Bool.not_eq_true'] at hconsiders
    refine ⟨hconsiders.1, recordOf_strategyId h, ?_⟩
    unfold recordOf at h
    split at h
    · cases h
    · rename_i strategy hget
      have hid : strategy.descriptor.strategyId = id :=
        m.registry.keyed _ ((Dict.mem_iff_get m.registry.nodup _ _).mpr hget)
      split at h
      · cases h
        obtain ⟨hinstrument, hversion⟩ := m.evaluateOne_context strategy
          strategy.requirements.trigger context (evaluate id)
        refine ⟨hinstrument, hversion, ?_⟩
        intro hstatus hnone
        unfold evaluateOne at hstatus
        simp only [hid, hnone, or_true, if_true] at hstatus
        rcases hstatus with h | h <;> cases h
      · cases h
  · cases h

end ApexScan.StrategyManager
