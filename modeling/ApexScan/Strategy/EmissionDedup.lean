import Mathlib.Data.List.Chain
import Mathlib.Data.List.Induction
import ApexScan.Schemas.MarketData
import ApexScan.Lib.Dict
import ApexScan.Lib.History
import ApexScan.Lib.Machine

/-!
# Emission-policy deduplication (`app/strategy_manager/dedup.py`)

The manager asks the deduplicator whether a result is material to emit.  Its state is one entry per
`(strategy_id, instrument)`, replaced whenever the trading date differs from the tracked one.

* `EmissionDeduplicator.shouldEmit`, `resetStrategy` — the code; `step` — both as one machine, for
  a policy per strategy.
* `callsOn` — the calls of a strategy, instrument and date since the last reset of the strategy,
  each with the answer it got.
* `PolicyHolds` — what a policy promises about such a list of calls.
* `NeverReturns` — no strategy and instrument goes back to a date it has left since a reset.

Main result: `emission_policy_holds`, for runs that never return to a date.  `returning_date_emits`
is a run that does.
-/

set_option autoImplicit false

namespace ApexScan

open Lib

inductive EvaluationStatus where
  | matched
  | noMatch
  | skipped
  | error
  deriving DecidableEq, Repr

inductive EmissionPolicy where
  | continuous
  | edgeTriggered
  | oneShotPerSession
  deriving DecidableEq, Repr

/-- `Decimal | int | str | bool` up to Python's `==`, which compares the numeric kinds by value. -/
inductive MetricValue where
  | number (q : ℚ)
  | text (s : String)
  deriving DecidableEq

structure MetricEntry where
  name : String
  value : MetricValue
  deriving DecidableEq

/-- The fields of a `StrategyResult` that deduplication reads; identity stamps, versions, metadata
    and diagnostics are left out. -/
structure StrategyResult where
  strategyId : String
  instrument : Instrument
  status : EvaluationStatus
  score : Option ℚ := none
  confidence : Option ℚ := none
  reasonCodes : List String := []
  metrics : List MetricEntry := []
  matched_reasons : status = .matched → reasonCodes ≠ [] := by decide

/-- `_MaterialKey`. -/
structure MaterialKey where
  status : EvaluationStatus
  score : Option ℚ
  confidence : Option ℚ
  reasonCodes : List String
  metrics : List MetricEntry
  deriving DecidableEq

/-- `_material_key`. -/
def materialKey (r : StrategyResult) : MaterialKey :=
  ⟨r.status, r.score, r.confidence, r.reasonCodes, r.metrics⟩

/-- `_EntryState`. -/
structure EntryState where
  tradingDate : Option Int
  lastMaterialKey : Option MaterialKey := none
  lastStatus : EvaluationStatus := .noMatch
  oneShotEmitted : Bool := false

/-- `_continuous`. -/
def continuous (entry : EntryState) (r : StrategyResult) : EntryState × Bool :=
  if entry.lastMaterialKey = some (materialKey r) then (entry, false)
  else ({ entry with lastMaterialKey := some (materialKey r) }, true)

/-- `_edge`. -/
def edge (entry : EntryState) (r : StrategyResult) : EntryState × Bool :=
  if r.status = entry.lastStatus then (entry, false)
  else ({ entry with lastStatus := r.status }, true)

/-- `_one_shot`. -/
def oneShot (entry : EntryState) (r : StrategyResult) : EntryState × Bool :=
  if r.status = .matched ∧ entry.oneShotEmitted = false then
    ({ entry with oneShotEmitted := true }, true)
  else (entry, false)

/-- The dispatch of `should_emit`. -/
def decideEmission (policy : EmissionPolicy) (entry : EntryState) (r : StrategyResult) :
    EntryState × Bool :=
  match policy with
  | .continuous => continuous entry r
  | .edgeTriggered => edge entry r
  | .oneShotPerSession => oneShot entry r

/-- `EmissionDeduplicator._entries`. -/
abbrev EmissionDeduplicator := Dict (String × Instrument) EntryState

namespace EmissionDeduplicator

/-- The entry of `should_emit`: a new one when there is none or the date differs. -/
def entryFor (entries : EmissionDeduplicator) (key : String × Instrument) (date : Option Int) :
    EntryState :=
  match Dict.get entries key with
  | some entry => if entry.tradingDate ≠ date then { tradingDate := date } else entry
  | none => { tradingDate := date }

/-- `should_emit`. -/
def shouldEmit (entries : EmissionDeduplicator) (r : StrategyResult) (policy : EmissionPolicy)
    (date : Option Int) : EmissionDeduplicator × Bool :=
  let key := (r.strategyId, r.instrument)
  let decided := decideEmission policy (entryFor entries key date) r
  (Dict.set entries key decided.1, decided.2)

/-- `reset_strategy`. -/
def resetStrategy (entries : EmissionDeduplicator) (strategyId : String) : EmissionDeduplicator :=
  Dict.restrict entries fun key => key.1 ≠ strategyId

inductive Op where
  | shouldEmit (r : StrategyResult) (date : Option Int)
  | resetStrategy (strategyId : String)

/-- One call; every strategy has its declared policy. -/
def step (policy : String → EmissionPolicy) (entries : EmissionDeduplicator) :
    Op → EmissionDeduplicator × Option Bool
  | .shouldEmit r date =>
    let answered := shouldEmit entries r (policy r.strategyId) date
    (answered.1, some answered.2)
  | .resetStrategy strategyId => (resetStrategy entries strategyId, none)

/-! ## Calls of a run -/

/-- A call of `should_emit` with its answer. -/
structure Call where
  result : StrategyResult
  date : Option Int
  emitted : Bool

/-- The calls of a strategy and instrument since the strategy's last reset, after one more call. -/
def track (s : String) (i : Instrument) (calls : List Call) (call : Op × Option Bool) : List Call :=
  match call with
  | (.shouldEmit r date, some emitted) =>
    if r.strategyId = s ∧ r.instrument = i then calls ++ [⟨r, date, emitted⟩] else calls
  | (.resetStrategy id, _) => if id = s then [] else calls
  | _ => calls

/-- The calls of a strategy and instrument since the strategy's last reset, oldest first. -/
def callsOf (policy : String → EmissionPolicy) (s : String) (i : Instrument) (ops : List Op) :
    List Call :=
  (ops.zip (outs (step policy) [] ops)).foldl (track s i) []

/-- The calls of one date. -/
def onDate (d : Option Int) (calls : List Call) : List Call := calls.filter fun c => c.date = d

/-- The calls of a strategy, instrument and date since the strategy's last reset. -/
def callsOn (policy : String → EmissionPolicy) (s : String) (i : Instrument) (d : Option Int)
    (ops : List Op) : List Call :=
  onDate d (callsOf policy s i ops)

/-- The dates of a strategy and instrument since the strategy's last reset, after one more call. -/
def trackDates (s : String) (i : Instrument) (dates : List (Option Int)) : Op → List (Option Int)
  | .shouldEmit r date => if r.strategyId = s ∧ r.instrument = i then dates ++ [date] else dates
  | .resetStrategy id => if id = s then [] else dates

/-- The dates on which a strategy and instrument were called since the strategy's last reset. -/
def datesOf (s : String) (i : Instrument) (ops : List Op) : List (Option Int) :=
  ops.foldl (trackDates s i) []

/-- No strategy and instrument is called on a date, then on another, then on the first again, with
    no reset of the strategy between. -/
def NeverReturns (ops : List Op) : Prop :=
  ∀ pre, pre <+: ops → ∀ s i d d', [d, d', d].Sublist (datesOf s i pre) → d' = d

/-! ## What the policies promise -/

/-- The status before a call: `NO_MATCH` at first. -/
def statusBefore (pre : List Call) : EvaluationStatus :=
  (pre.getLast?.map (·.result.status)).getD .noMatch

/-- The calls that were emitted. -/
def emittedOf (calls : List Call) : List Call := calls.filter (·.emitted)

/-- The promise of a policy about the calls of one strategy, instrument and date. -/
def PolicyHolds (policy : EmissionPolicy) (calls : List Call) : Prop :=
  match policy with
  | .oneShotPerSession =>
    emittedOf calls = (calls.filter fun c => c.result.status = .matched).take 1
  | .edgeTriggered =>
    (∀ pre c post, calls = pre ++ c :: post →
      (c.emitted = true ↔ c.result.status ≠ statusBefore pre)) ∧
    ((emittedOf calls).map (·.result.status)).IsChain (· ≠ ·) ∧
    (∀ c ∈ (emittedOf calls).head?, c.result.status ≠ .noMatch) ∧
    ((∀ c ∈ calls, c.result.status = .matched ∨ c.result.status = .noMatch) →
      ∀ c ∈ (emittedOf calls).head?, c.result.status = .matched)
  | .continuous =>
    ∀ pre c post, calls = pre ++ c :: post →
      (c.emitted = true ↔ pre.getLast?.map (materialKey ·.result) ≠ some (materialKey c.result))

/-- What the entry remembers of the calls of its date. -/
def Remembers (policy : EmissionPolicy) (calls : List Call) (entry : EntryState) : Prop :=
  match policy with
  | .oneShotPerSession =>
    entry.oneShotEmitted = calls.any fun c => c.result.status = .matched
  | .edgeTriggered => entry.lastStatus = statusBefore calls
  | .continuous => entry.lastMaterialKey = calls.getLast?.map (materialKey ·.result)

theorem policyHolds_nil (policy : EmissionPolicy) : PolicyHolds policy [] := by
  cases policy with
  | continuous => intro pre c post h; simp at h
  | edgeTriggered =>
    refine ⟨?_, List.IsChain.nil, ?_, ?_⟩
    · intro pre c post h
      simp at h
    · intro c hc
      cases hc
    · intro _ c hc
      cases hc
  | oneShotPerSession => rfl

theorem remembers_fresh (policy : EmissionPolicy) (date : Option Int) :
    Remembers policy [] { tradingDate := date } := by
  cases policy <;> rfl

/-! ## One decision -/

theorem emittedOf_concat (calls : List Call) (c : Call) :
    emittedOf (calls ++ [c]) = emittedOf calls ++ if c.emitted then [c] else [] := by
  unfold emittedOf
  rw [List.filter_append]
  cases hc : c.emitted <;> simp [hc]

theorem statusBefore_concat (calls : List Call) (c : Call) :
    statusBefore (calls ++ [c]) = c.result.status := by
  simp [statusBefore]

/-- Under the edge policy the last emitted status is the last status. -/
theorem statusBefore_emittedOf {calls : List Call}
    (h : ∀ pre c post, calls = pre ++ c :: post →
      (c.emitted = true ↔ c.result.status ≠ statusBefore pre)) :
    statusBefore (emittedOf calls) = statusBefore calls := by
  induction calls using List.reverseRecOn with
  | nil => rfl
  | append_singleton calls c ih =>
    obtain ⟨hcalls, hc⟩ := (forall_split_concat calls c).mp h
    rw [emittedOf_concat, statusBefore_concat]
    by_cases he : c.emitted = true
    · rw [if_pos he, statusBefore_concat]
    · rw [if_neg he, List.append_nil, ih hcalls]
      by_contra hne
      exact he (hc.mpr fun heq => hne heq.symm)

/-- The emitted statuses alternate, and the first one is no `NO_MATCH`. -/
theorem alternates {calls : List Call}
    (h : ∀ pre c post, calls = pre ++ c :: post →
      (c.emitted = true ↔ c.result.status ≠ statusBefore pre)) :
    ((emittedOf calls).map (·.result.status)).IsChain (· ≠ ·) ∧
      ∀ c ∈ (emittedOf calls).head?, c.result.status ≠ .noMatch := by
  induction calls using List.reverseRecOn with
  | nil =>
    refine ⟨List.IsChain.nil, ?_⟩
    intro c hc
    cases hc
  | append_singleton calls c ih =>
    obtain ⟨hcalls, hc⟩ := (forall_split_concat calls c).mp h
    obtain ⟨hchain, hhead⟩ := ih hcalls
    rw [emittedOf_concat]
    by_cases he : c.emitted = true
    · have hne : c.result.status ≠ statusBefore (emittedOf calls) := by
        rw [statusBefore_emittedOf hcalls]
        exact hc.mp he
      rw [if_pos he]
      cases hem : emittedOf calls with
      | nil =>
        rw [hem] at hne
        refine ⟨List.IsChain.singleton _, ?_⟩
        intro b hb
        rw [List.nil_append, List.head?_cons, Option.mem_some_iff] at hb
        rw [← hb]
        exact hne
      | cons first rest =>
        rw [hem] at hchain hhead hne
        refine ⟨?_, by simpa using hhead⟩
        rw [List.map_append, List.isChain_append]
        refine ⟨hchain, List.IsChain.singleton _, ?_⟩
        intro a ha b hb
        have hlast : statusBefore (first :: rest) = a := by
          rw [List.getLast?_map] at ha
          rw [statusBefore, ha]
          rfl
        rw [List.map_singleton, List.head?_cons, Option.mem_some_iff] at hb
        rw [← hb, ← hlast]
        exact hne.symm
    · rw [if_neg he, List.append_nil]
      exact ⟨hchain, hhead⟩

/-- Under the edge policy everything follows from which calls are emitted. -/
theorem policyHolds_edge {calls : List Call}
    (h : ∀ pre c post, calls = pre ++ c :: post →
      (c.emitted = true ↔ c.result.status ≠ statusBefore pre)) :
    PolicyHolds .edgeTriggered calls := by
  obtain ⟨hchain, hhead⟩ := alternates h
  refine ⟨h, hchain, hhead, ?_⟩
  intro hall c hc
  have hmem : c ∈ calls := (List.mem_filter.mp (List.mem_of_mem_head? hc)).1
  exact (hall c hmem).resolve_right (hhead c hc)

section Decision

variable {calls : List Call} {entry : EntryState} (r : StrategyResult) (date : Option Int)

theorem continuous_spec (hrem : Remembers .continuous calls entry)
    (hold : PolicyHolds .continuous calls) :
    (continuous entry r).1.tradingDate = entry.tradingDate ∧
      Remembers .continuous (calls ++ [⟨r, date, (continuous entry r).2⟩]) (continuous entry r).1 ∧
      PolicyHolds .continuous (calls ++ [⟨r, date, (continuous entry r).2⟩]) := by
  simp only [Remembers] at hrem
  simp only [continuous, hrem]
  split
  · rename_i heq
    refine ⟨rfl, ?_, ?_⟩
    · simp [Remembers, hrem, heq]
    · exact (forall_split_concat _ _).mpr ⟨hold, by simp [heq]⟩
  · rename_i hne
    refine ⟨rfl, ?_, ?_⟩
    · simp [Remembers]
    · exact (forall_split_concat _ _).mpr ⟨hold, by simpa using hne⟩

theorem edge_spec (hrem : Remembers .edgeTriggered calls entry)
    (hold : PolicyHolds .edgeTriggered calls) :
    (edge entry r).1.tradingDate = entry.tradingDate ∧
      Remembers .edgeTriggered (calls ++ [⟨r, date, (edge entry r).2⟩]) (edge entry r).1 ∧
      PolicyHolds .edgeTriggered (calls ++ [⟨r, date, (edge entry r).2⟩]) := by
  simp only [Remembers] at hrem
  simp only [edge, hrem]
  split
  · rename_i heq
    refine ⟨rfl, ?_, ?_⟩
    · simp [Remembers, statusBefore_concat, hrem, heq]
    · apply policyHolds_edge
      exact (forall_split_concat _ _).mpr ⟨hold.1, by simp [heq]⟩
  · rename_i hne
    refine ⟨rfl, ?_, ?_⟩
    · simp [Remembers, statusBefore_concat]
    · apply policyHolds_edge
      exact (forall_split_concat _ _).mpr ⟨hold.1, by simp [hne]⟩

/-- Under the one-shot policy the flag stands from the first match on. -/
theorem oneShot_spec (hrem : Remembers .oneShotPerSession calls entry)
    (hold : PolicyHolds .oneShotPerSession calls) :
    (oneShot entry r).1.tradingDate = entry.tradingDate ∧
      Remembers .oneShotPerSession (calls ++ [⟨r, date, (oneShot entry r).2⟩])
        (oneShot entry r).1 ∧
      PolicyHolds .oneShotPerSession (calls ++ [⟨r, date, (oneShot entry r).2⟩]) := by
  simp only [Remembers] at hrem
  simp only [PolicyHolds] at hold ⊢
  rw [emittedOf_concat, hold, List.filter_append]
  unfold oneShot
  by_cases hm : r.status = .matched
  · cases he : entry.oneShotEmitted with
    | false =>
      -- the first match is emitted
      have hnil : calls.filter (fun c => decide (c.result.status = .matched)) = [] := by
        rw [List.filter_eq_nil_iff]
        intro c hc
        rw [he] at hrem
        exact List.any_eq_false.mp hrem.symm c hc
      simp [Remembers, hm, hnil]
    | true =>
      -- a match was emitted before, so one more is not
      rw [he] at hrem
      obtain ⟨c, hc, hcm⟩ := List.any_eq_true.mp hrem.symm
      have hpos : 1 ≤ (calls.filter fun c => decide (c.result.status = .matched)).length :=
        List.length_pos_of_mem (List.mem_filter.mpr ⟨hc, hcm⟩)
      rw [List.take_append_of_le_length hpos]
      simp [Remembers, hm, he]
  · simp [Remembers, hm, hrem]

/-- **One decision follows its policy**, given what the entry remembers of the calls before. -/
theorem decideEmission_spec {policy : EmissionPolicy} (hrem : Remembers policy calls entry)
    (hold : PolicyHolds policy calls) :
    let decided := decideEmission policy entry r
    decided.1.tradingDate = entry.tradingDate ∧
      Remembers policy (calls ++ [⟨r, date, decided.2⟩]) decided.1 ∧
      PolicyHolds policy (calls ++ [⟨r, date, decided.2⟩]) := by
  cases policy with
  | continuous => exact continuous_spec r date hrem hold
  | edgeTriggered => exact edge_spec r date hrem hold
  | oneShotPerSession => exact oneShot_spec r date hrem hold

end Decision

/-! ## Whole runs -/

section Runs

variable {policy : String → EmissionPolicy} {s : String} {i : Instrument}

theorem callsOf_concat (ops : List Op) (op : Op) :
    callsOf policy s i (ops ++ [op]) = track s i (callsOf policy s i ops)
      (op, (step policy (run (step policy) [] ops) op).2) := by
  unfold callsOf
  rw [outs_concat, List.zip_append (by simp), List.foldl_append]
  rfl

theorem datesOf_concat (ops : List Op) (op : Op) :
    datesOf s i (ops ++ [op]) = trackDates s i (datesOf s i ops) op := by
  simp [datesOf, List.foldl_append]

/-- The dates of the calls are those of the operations. -/
theorem callsOf_dates (ops : List Op) :
    (callsOf policy s i ops).map (·.date) = datesOf s i ops := by
  induction ops using List.reverseRecOn with
  | nil => rfl
  | append_singleton ops op ih =>
    rw [callsOf_concat, datesOf_concat, ← ih]
    cases op with
    | shouldEmit r date =>
      simp only [track, step, trackDates]
      split
      · rw [List.map_append]
        rfl
      · rfl
    | resetStrategy id =>
      simp only [track, trackDates]
      split <;> rfl

/-- The entry of a strategy and instrument after its calls since the last reset. -/
structure CallsInv (policy : EmissionPolicy) (calls : List Call) (entry : Option EntryState) :
    Prop where
  tracked : entry.map (·.tradingDate) = calls.getLast?.map (·.date)
  remembers : ∀ e ∈ entry, Remembers policy (onDate e.tradingDate calls) e
  holds : ∀ d, PolicyHolds policy (onDate d calls)

/-- With no return to an earlier date, the entry that `should_emit` uses remembers all the calls of
    the date: a replaced entry had none to remember. -/
theorem entryFor_remembers {entries : EmissionDeduplicator} {calls : List Call} {p : EmissionPolicy}
    (h : CallsInv p calls (Dict.get entries (s, i))) {date : Option Int}
    (hdates : ∀ d d', [d, d', d].Sublist (calls.map (·.date) ++ [date]) → d' = d) :
    (entryFor entries (s, i) date).tradingDate = date ∧
      Remembers p (onDate date calls) (entryFor entries (s, i) date) := by
  unfold entryFor
  cases hget : Dict.get entries (s, i) with
  | none =>
    have hnil : calls = [] := by
      have := h.tracked
      rw [hget] at this
      simpa using this.symm
    subst hnil
    exact ⟨rfl, remembers_fresh p date⟩
  | some entry =>
    simp only
    by_cases hd : entry.tradingDate = date
    · rw [if_neg (by simpa using hd)]
      refine ⟨hd, ?_⟩
      have := h.remembers entry hget
      rwa [hd] at this
    · rw [if_pos hd]
      have hlast := h.tracked
      rw [hget, Option.map_some] at hlast
      rcases List.eq_nil_or_concat calls with rfl | ⟨init, last, rfl⟩
      · cases hlast
      · rw [List.concat_eq_append] at hlast hdates ⊢
        rw [List.getLast?_concat, Option.map_some, Option.some.injEq] at hlast
        have hnone : onDate date (init ++ [last]) = [] := by
          unfold onDate
          rw [List.filter_eq_nil_iff]
          intro c hc hcd
          rw [decide_eq_true_eq] at hcd
          rcases List.mem_append.mp hc with hc | hc
          · refine hd (hlast.trans (hdates date last.date ?_))
            have hin : [date].Sublist (init.map (·.date)) :=
              List.singleton_sublist.mpr (List.mem_map.mpr ⟨c, hc, hcd⟩)
            rw [List.map_append]
            exact (hin.append (List.Sublist.refl [last.date])).append (List.Sublist.refl [date])
          · rw [List.mem_singleton] at hc
            exact hd (hlast.trans (hc ▸ hcd))
        rw [hnone]
        exact ⟨rfl, remembers_fresh p date⟩

/-- One more call on a date changes the calls of that date only. -/
theorem onDate_concat (d : Option Int) (calls : List Call) (c : Call) :
    onDate d (calls ++ [c]) = if c.date = d then onDate d calls ++ [c] else onDate d calls := by
  unfold onDate
  rw [List.filter_append]
  by_cases hd : c.date = d <;> simp [hd]

/-- **The step lemma**: one call, with its answer, keeps the invariant. -/
theorem shouldEmit_inv {entries : EmissionDeduplicator} {calls : List Call} {r : StrategyResult}
    {date : Option Int} {p : EmissionPolicy}
    (h : CallsInv p calls (Dict.get entries (r.strategyId, r.instrument)))
    (hdates : ∀ d d', [d, d', d].Sublist (calls.map (·.date) ++ [date]) → d' = d) :
    CallsInv p (calls ++ [⟨r, date, (shouldEmit entries r p date).2⟩])
      (Dict.get (shouldEmit entries r p date).1 (r.strategyId, r.instrument)) := by
  obtain ⟨hdate, hrem⟩ := entryFor_remembers h hdates
  obtain ⟨hsame, hrem', hholds⟩ := decideEmission_spec r date hrem (h.holds date)
  simp only [shouldEmit, Dict.get_set_self]
  refine ⟨?_, ?_, ?_⟩
  · rw [List.getLast?_concat, Option.map_some, Option.map_some, hsame, hdate]
  · intro e he
    rw [Option.mem_some] at he
    rw [← he, hsame, hdate, onDate_concat, if_pos rfl]
    exact hrem'
  · intro d
    rw [onDate_concat]
    split
    · rename_i hd
      simp only at hd
      rw [← hd]
      exact hholds
    · exact h.holds d

theorem callsInv_nil (p : EmissionPolicy) : CallsInv p [] none :=
  ⟨rfl, fun _ h => (by cases h), fun _ => policyHolds_nil p⟩

theorem NeverReturns.of_concat {ops : List Op} {op : Op} (h : NeverReturns (ops ++ [op])) :
    NeverReturns ops :=
  fun pre hpre => h pre (hpre.trans (List.prefix_append _ _))

theorem run_inv (ops : List Op) (h : NeverReturns ops) (s : String) (i : Instrument) :
    CallsInv (policy s) (callsOf policy s i ops)
      (Dict.get (run (step policy) [] ops) (s, i)) := by
  induction ops using List.reverseRecOn with
  | nil => exact callsInv_nil _
  | append_singleton ops op ih =>
    have ih := ih h.of_concat
    rw [callsOf_concat, run_concat]
    cases op with
    | shouldEmit r date =>
      by_cases hkey : r.strategyId = s ∧ r.instrument = i
      · obtain ⟨rfl, rfl⟩ := hkey
        have hdates := h _ (List.prefix_refl _) r.strategyId r.instrument
        simp only [datesOf_concat, trackDates, and_self, if_true] at hdates
        rw [← @callsOf_dates policy] at hdates
        simp only [track, step, and_self, if_true]
        exact shouldEmit_inv ih hdates
      · have hne : (r.strategyId, r.instrument) ≠ (s, i) := fun heq =>
          hkey ⟨(Prod.mk.inj heq).1, (Prod.mk.inj heq).2⟩
        simp only [track, step, hkey, if_false, shouldEmit]
        rw [Dict.get_set_ne _ _ hne]
        exact ih
    | resetStrategy id =>
      simp only [track, step, resetStrategy, Dict.get_restrict]
      by_cases hid : id = s
      · simp only [hid, if_true, ne_eq, not_true_eq_false, decide_false, Bool.false_eq_true,
          if_false]
        exact callsInv_nil _
      · have hne : s ≠ id := fun heq => hid heq.symm
        simp only [hid, if_false, ne_eq, hne, not_false_eq_true, decide_true, if_true]
        exact ih

end Runs

/-- **Every policy holds in runs that never return to a date.**  For every strategy, instrument and
    date (also `None`), the calls since the strategy's last reset were answered as its policy
    promises. -/
theorem emission_policy_holds (policy : String → EmissionPolicy) (ops : List Op)
    (h : NeverReturns ops) (s : String) (i : Instrument) (d : Option Int) :
    PolicyHolds (policy s) (callsOn policy s i d ops) :=
  (run_inv ops h s i).holds d

/-- A match of the strategy `breakout` on `reliance`. -/
def matchResult : StrategyResult where
  strategyId := "breakout"
  instrument := reliance
  status := .matched
  reasonCodes := ["BREAKOUT"]

/-- A result of the same call that is no match. -/
def noMatchResult : StrategyResult where
  strategyId := "breakout"
  instrument := reliance
  status := .noMatch

/-- The dates of all calls. -/
def calledDates (ops : List Op) : List (Option Int) :=
  ops.filterMap fun
    | .shouldEmit _ date => some date
    | .resetStrategy _ => none

theorem datesOf_sublist (s : String) (i : Instrument) (ops : List Op) :
    (datesOf s i ops).Sublist (calledDates ops) := by
  induction ops using List.reverseRecOn with
  | nil => exact List.Sublist.refl _
  | append_singleton ops op ih =>
    rw [datesOf_concat, calledDates, List.filterMap_append]
    cases op with
    | shouldEmit r date =>
      simp only [trackDates]
      split
      · exact ih.append (List.Sublist.refl _)
      · exact ih.trans (List.sublist_append_left _ _)
    | resetStrategy id =>
      simp only [trackDates]
      split
      · exact List.nil_sublist _
      · exact ih.trans (List.sublist_append_left _ _)

/-- Both dates are known, and the second is not before the first. -/
def inOrder : Option Int → Option Int → Bool
  | some a, some b => a ≤ b
  | _, _ => false

/-- Dates that do not go back never return. -/
theorem neverReturns_of_inOrder {ops : List Op}
    (h : (calledDates ops).Pairwise fun d d' => inOrder d d' = true) : NeverReturns ops := by
  intro pre hpre s i d d' hsub
  have hcalled : (calledDates pre).Sublist (calledDates ops) := hpre.sublist.filterMap _
  have hpairs := (h.sublist hcalled).sublist (hsub.trans (datesOf_sublist s i pre))
  rw [List.pairwise_cons, List.pairwise_cons] at hpairs
  have hforth := hpairs.1 d' List.mem_cons_self
  have hback := hpairs.2.1 d List.mem_cons_self
  cases d with
  | none => cases hforth
  | some a =>
    cases d' with
    | none => cases hforth
    | some b =>
      simp only [inOrder, decide_eq_true_eq] at hforth hback
      rw [le_antisymm hback hforth]

/-- Two days of a strategy that matches, stops matching and matches again; it was started again in the
    morning of the first. -/
def breakoutDays : List Op :=
  [.shouldEmit matchResult (some 20000), .resetStrategy "breakout",
    .shouldEmit matchResult (some 20000), .shouldEmit matchResult (some 20000),
    .shouldEmit noMatchResult (some 20000), .shouldEmit matchResult (some 20000),
    .shouldEmit noMatchResult (some 20003), .shouldEmit matchResult (some 20003),
    .shouldEmit matchResult (some 20003)]

theorem emission_policy_sample :
    let calls := fun date => callsOn (fun _ => .oneShotPerSession) "breakout" reliance date breakoutDays
    NeverReturns breakoutDays ∧
      (calls (some 20000)).map (·.emitted) = [true, false, false, false] ∧
      (calls (some 20003)).map (·.emitted) = [false, true, false] ∧
      PolicyHolds .oneShotPerSession (calls (some 20000)) ∧
      PolicyHolds .oneShotPerSession (calls (some 20003)) := by
  intro calls
  have h : NeverReturns breakoutDays := neverReturns_of_inOrder (by decide)
  exact ⟨h, by decide, by decide,
    emission_policy_holds (fun _ => .oneShotPerSession) breakoutDays h "breakout" reliance (some 20000),
    emission_policy_holds (fun _ => .oneShotPerSession) breakoutDays h "breakout" reliance (some 20003)⟩

/-- The date goes forward and back: a one-shot strategy emits its match twice on the first date. -/
theorem returning_date_emits :
    emittedOf (callsOn (fun _ => .oneShotPerSession) "breakout" reliance (some 20000)
      [.shouldEmit matchResult (some 20000), .shouldEmit matchResult (some 20003),
       .shouldEmit matchResult (some 20000)]) =
      [⟨matchResult, some 20000, true⟩, ⟨matchResult, some 20000, true⟩] := by
  rfl

end EmissionDeduplicator

end ApexScan
