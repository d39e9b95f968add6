import ApexScan.Historical.Sharing

/-!
# A warmup that is left early

A warmup writes WARMING for an instrument before it plans its requirements, and the final status only
once everything is fetched.  Whatever leaves it in between leaves the statuses of the moment behind:
dates outside the calendar's coverage, an invalid request, an exception of the source, a cancellation.

* `Interruption`, `warmupUntil` — a warmup whose wait for the fetches may be cut short;
  `warmupUntil_none` is the one that runs to its end.
* `Untouched` — the statuses, the installed snapshots and the retained timeframes are the ones before.
* `assembledTo` — what is assembled before an instrument whose assembly raises.
* `FoundAsLeft` — what has to hold before the call for an early end to change nothing.

Main result: `warmup_untouched_iff`.  `status_left_warming` is a warmup outside the calendar.
-/

set_option autoImplicit false

namespace ApexScan

open Lib

/-- What cuts the wait for the fetches short: a cancellation, or an exception of the source other than
    those that `_safe_fetch` isolates. -/
inductive Interruption where
  | cancelled
  | sourceRaised
  deriving DecidableEq, Repr

/-- How a warmup ends. -/
inductive WarmupEnd where
  | returned
  | raised (error : WarmupError)
  | interrupted (cause : Interruption)
  deriving DecidableEq, Repr

namespace WarmupService

/-- A wait without plans is over at once, and a source that is not asked does not raise. -/
def interrupts (w : WarmupService) (plans : Dict HistoricalRequestKey HistoricalFetchPlan) :
    Interruption → Bool
  | .cancelled => !plans.isEmpty
  | .sourceRaised => plans.any fun p =>
      (w.cache.lookup p.1).isNone && p.2.request.isSome

/-- `warmup`, with what may cut its wait for the fetches short. -/
def warmupUntil (w : WarmupService) (interruption : Option Interruption)
    (instruments : List Instrument) (requirements : List HistoricalRequirement) (reference : Int) :
    WarmupService × WarmupEnd :=
  match planAll (sortedRequirements requirements) reference (sortedInstruments instruments) w with
  | (w, .error e) => (w, .raised e)
  | (w, .ok described) =>
    let plans := plansOf described
    match interruption.filter (w.interrupts plans) with
    | some cause => (w, .interrupted cause)
    | none =>
      match w.fetchAll plans with
      | .error e => (w, .raised e)
      | .ok fetched =>
        match assembleAll reference (fun key => (fetched.get key).join) described w with
        | (w, .error e) => (w, .raised e)
        | (w, .ok ()) =>
          ({ w with retained := some ((plans.map fun p => p.2.timeframe).dedup) }, .returned)

/-- Nothing that a warmup writes has changed. -/
structure Untouched (w w' : WarmupService) : Prop where
  status : ∀ i, w'.statusFor i = w.statusFor i
  historical : ∀ i, (w'.registry.stateFor i).historical = (w.registry.stateFor i).historical
  retained : w'.retained = w.retained

/-- The instrument has the status that planning writes. -/
def IsWarming (w : WarmupService) (i : Instrument) : Prop :=
  w.statusFor i = { instrument := i, state := .warming }

/-- The assemblies up to the first that raises. -/
def assembledTo (planner : HistoricalRangePlanner) (reference : Int)
    (fetch : HistoricalRequestKey → Option (List Candle)) :
    List (Instrument × List Descriptor) →
      List (Instrument × HistoricalContext × InstrumentWarmupStatus)
  | [] => []
  | (i, ds) :: described =>
    match assemble planner reference fetch i ds with
    | .error _ => []
    | .ok (context, status) =>
      (i, context, status) :: assembledTo planner reference fetch described

/-- The state before the call is the one that an early end leaves; where the call returns, no other
    instrument is warming. -/
def FoundAsLeft (w : WarmupService) (interruption : Option Interruption)
    (instruments : List Instrument) (requirements : List HistoricalRequirement) (reference : Int) :
    Prop :=
  let ordered := sortedInstruments instruments
  match ordered.mapM (fun i => (i, ·) <$> w.describe (sortedRequirements requirements) reference i) with
  | .error _ => ∀ i, ordered.head? = some i → w.IsWarming i
  | .ok described =>
    if (interruption.filter (w.interrupts (plansOf described))).isSome then
      ∀ i ∈ instruments, w.IsWarming i
    else
      match w.fetchAll (plansOf described) with
      | .error _ => ∀ i ∈ instruments, w.IsWarming i
      | .ok fetched =>
        let assembled := assembledTo w.planner reference (fun key => (fetched.get key).join) described
        if assembled.length = described.length then
          ∀ i, i ∉ instruments → (w.statusFor i).state ≠ .warming
        else
          (∀ a ∈ assembled, w.statusFor a.1 = a.2.2 ∧
              (w.registry.stateFor a.1).historical = some a.2.1) ∧
            ∀ i ∈ instruments, i ∉ assembled.map (·.1) → w.IsWarming i

/-- A warmup that nothing cuts short is `warmup`. -/
theorem warmupUntil_none (w : WarmupService) (instruments : List Instrument)
    (requirements : List HistoricalRequirement) (reference : Int) :
    w.warmupUntil none instruments requirements reference =
      ((w.warmup instruments requirements reference).1,
        match (w.warmup instruments requirements reference).2 with
        | .ok () => .returned
        | .error e => .raised e) := by
  unfold warmupUntil warmup
  cases planAll (sortedRequirements requirements) reference (sortedInstruments instruments) w with
  | mk planned result =>
    cases result with
    | error e => rfl
    | ok described =>
      simp only [Option.filter_none]
      cases planned.fetchAll (plansOf described) with
      | error e => rfl
      | ok fetched =>
        simp only
        cases assembleAll reference (fun key => (fetched.get key).join) described planned with
        | mk assembled result =>
          cases result with
          | error e => rfl
          | ok _ => rfl

/-! ## Planning -/

variable {w : WarmupService} {reference : Int} {rs : List HistoricalRequirement}

theorem statusFor_set (w : WarmupService) (i j : Instrument) (status : InstrumentWarmupStatus) :
    WarmupService.statusFor { w with status := w.status.set i status } j =
      if i = j then status else w.statusFor j := by
  unfold statusFor
  rw [Dict.get_set]
  split <;> rfl

/-- Whether a requirement can be planned does not depend on the instrument. -/
theorem classify_error_congr {planner : HistoricalRangePlanner} {direct : List Timeframe}
    {r : HistoricalRequirement} {i j : Instrument} {e : WarmupError}
    (h : classifyRequirement planner direct reference i r = .error e) :
    classifyRequirement planner direct reference j r = .error e := by
  have hplanned : ∀ (timeframe : Timeframe) (describe describe' : HistoricalFetchPlan → Descriptor),
      planned planner reference i r timeframe describe = .error e →
        planned planner reference j r timeframe describe' = .error e := by
    intro timeframe describe describe' hplanned
    unfold planned fetchPlan at hplanned ⊢
    cases hresolve : planner.resolve r reference with
    | ok bounds => simp [hresolve, bind, Except.bind, pure, Except.pure] at hplanned
    | error error =>
      rw [hresolve] at hplanned
      simp only [bind, Except.bind] at hplanned ⊢
      cases error with
      | missingSessionTiming => cases hplanned
      | outsideCalendarCoverage => exact hplanned
  unfold classifyRequirement at h ⊢
  split
  next hdirect =>
    rw [if_pos hdirect] at h
    exact hplanned _ _ _ h
  next hdirect =>
    rw [if_neg hdirect] at h
    cases hbase : selectBase r.timeframe direct with
    | none =>
      rw [hbase] at h
      cases h
    | some base =>
      rw [hbase] at h
      exact hplanned _ _ _ h

theorem describe_error_congr {i j : Instrument} {e : WarmupError}
    (h : w.describe rs reference i = .error e) : ∃ e', w.describe rs reference j = .error e' := by
  cases hj : w.describe rs reference j with
  | error e' => exact ⟨e', rfl⟩
  | ok ds =>
    exfalso
    obtain ⟨r, hr, herror⟩ := exists_of_mapM_eq_error h
    obtain ⟨d, hd⟩ := exists_mem_of_mapM_eq_ok hj hr
    rw [classify_error_congr herror] at hd
    cases hd.2

/-- What planning returns is what the requirements of each instrument give. -/
theorem planAll_result (ordered : List Instrument) (w : WarmupService) :
    (planAll rs reference ordered w).2 =
      ordered.mapM fun i => (i, ·) <$> w.describe rs reference i := by
  induction ordered generalizing w with
  | nil => rfl
  | cons i ordered ih =>
    have hrest := ih { w with status := w.status.set i { instrument := i, state := .warming } }
    rw [List.mapM_cons]
    simp only [planAll]
    show _ = (((i, ·) <$> w.describe rs reference i) >>= _)
    have hsame : WarmupService.describe
        { w with status := w.status.set i { instrument := i, state := .warming } } rs reference i =
          w.describe rs reference i := rfl
    rw [hsame]
    cases w.describe rs reference i with
    | error e => rfl
    | ok ds =>
      show _ = ((ordered.mapM fun i => (i, ·) <$> w.describe rs reference i) >>= _)
      have hrest' : (ordered.mapM fun i => (i, ·) <$> w.describe rs reference i) =
          (planAll rs reference ordered
            { w with status := w.status.set i { instrument := i, state := .warming } }).2 := hrest.symm
      rw [hrest']
      cases planAll rs reference ordered
        { w with status := w.status.set i { instrument := i, state := .warming } } with
      | mk after result =>
        cases result with
        | error e => rfl
        | ok described => rfl

/-- Planning that returns has written WARMING for every instrument. -/
theorem planAll_ok_status {ordered : List Instrument} {w' : WarmupService}
    {described : List (Instrument × List Descriptor)}
    (h : planAll rs reference ordered w = (w', .ok described)) (i : Instrument) :
    w'.statusFor i =
      if i ∈ ordered then { instrument := i, state := .warming } else w.statusFor i := by
  induction ordered generalizing w described with
  | nil =>
    cases h
    rfl
  | cons j ordered ih =>
    simp only [planAll] at h
    split at h
    · cases h
    · split at h
      · cases h
      · rename_i after rest hrest
        cases h
        rw [ih hrest, statusFor_set]
        by_cases hi : i ∈ ordered
        · rw [if_pos hi, if_pos (List.mem_cons_of_mem j hi)]
        · rw [if_neg hi]
          by_cases hj : j = i
          · subst hj
            rw [if_pos rfl, if_pos List.mem_cons_self]
          · rw [if_neg hj, if_neg]
            simp only [List.mem_cons, not_or]
            exact ⟨fun hij => hj hij.symm, hi⟩

/-- Planning that raises does so at the first instrument, whose status is left WARMING. -/
theorem planAll_error {ordered : List Instrument} {w' : WarmupService} {e : WarmupError}
    (h : planAll rs reference ordered w = (w', .error e)) :
    ∃ i, ordered.head? = some i ∧
      w' = { w with status := w.status.set i { instrument := i, state := .warming } } := by
  cases ordered with
  | nil => cases h
  | cons i ordered =>
    refine ⟨i, rfl, ?_⟩
    simp only [planAll] at h
    split at h
    · cases h
      rfl
    · rename_i ds hds
      exfalso
      split at h
      · rename_i after error hrest
        have hresult := @planAll_result reference rs ordered
          { w with status := w.status.set i { instrument := i, state := .warming } }
        rw [hrest] at hresult
        obtain ⟨j, -, hj⟩ := exists_of_mapM_eq_error hresult.symm
        cases hdescribe : w.describe rs reference j with
        | error error' =>
          obtain ⟨error'', hi⟩ := describe_error_congr (j := i) hdescribe
          have hi' : w.describe rs reference i = .ok ds := hds
          rw [hi] at hi'
          cases hi'
        | ok ds' =>
          have hj' : ((j, ·) <$> w.describe rs reference j) = .error error := hj
          rw [hdescribe] at hj'
          cases hj'
      · cases h

/-! ## Assembling -/

/-- What the assembly loop writes for one instrument. -/
def install (w : WarmupService) (a : Instrument × HistoricalContext × InstrumentWarmupStatus) :
    WarmupService :=
  { w with registry := w.registry.installHistorical a.1 a.2.1, status := w.status.set a.1 a.2.2 }

variable {fetch : HistoricalRequestKey → Option (List Candle)}
  {described : List (Instrument × List Descriptor)}

/-- The assembly loop writes what is assembled before the first exception, and raises unless that is
    everything. -/
theorem assembleAll_eq (w : WarmupService) (described : List (Instrument × List Descriptor)) :
    (assembleAll reference fetch described w).1 =
        (assembledTo w.planner reference fetch described).foldl install w ∧
      ((assembleAll reference fetch described w).2 = .ok () ↔
        (assembledTo w.planner reference fetch described).length = described.length) := by
  induction described generalizing w with
  | nil => exact ⟨rfl, by simp [assembleAll, assembledTo]⟩
  | cons d described ih =>
    obtain ⟨i, ds⟩ := d
    simp only [assembleAll, assembledTo]
    cases assemble w.planner reference fetch i ds with
    | error e => exact ⟨rfl, by simp⟩
    | ok assembled =>
      obtain ⟨context, status⟩ := assembled
      obtain ⟨hstate, hreturns⟩ := ih (install w (i, context, status))
      refine ⟨hstate, hreturns.trans ?_⟩
      simp only [List.length_cons, Nat.add_right_cancel_iff]
      rfl

theorem mem_assembledTo {planner : HistoricalRangePlanner}
    {a : Instrument × HistoricalContext × InstrumentWarmupStatus}
    (ha : a ∈ assembledTo planner reference fetch described) :
    ∃ ds, (a.1, ds) ∈ described ∧ assemble planner reference fetch a.1 ds = .ok a.2 := by
  induction described with
  | nil => cases ha
  | cons d described ih =>
    obtain ⟨i, ds⟩ := d
    simp only [assembledTo] at ha
    split at ha
    · cases ha
    · rename_i context status hassemble
      rcases List.mem_cons.mp ha with rfl | ha
      · exact ⟨ds, List.mem_cons_self, hassemble⟩
      · obtain ⟨ds', hmem, hds'⟩ := ih ha
        exact ⟨ds', List.mem_cons_of_mem _ hmem, hds'⟩

/-- Where everything is assembled, every described instrument is. -/
theorem instruments_assembledTo {planner : HistoricalRangePlanner}
    (h : (assembledTo planner reference fetch described).length = described.length) :
    (assembledTo planner reference fetch described).map (·.1) = described.map (·.1) := by
  induction described with
  | nil => rfl
  | cons d described ih =>
    obtain ⟨i, ds⟩ := d
    simp only [assembledTo] at h ⊢
    cases hassemble : assemble planner reference fetch i ds with
    | error e =>
      rw [hassemble] at h
      cases h
    | ok assembled =>
      rw [hassemble] at h
      simp only [List.map_cons, List.cons.injEq, true_and]
      exact ih (Nat.succ.inj h)

/-- An assembly is about its instrument, and its status is a final one. -/
theorem assemble_ok {planner : HistoricalRangePlanner} {i : Instrument} {ds : List Descriptor}
    {context : HistoricalContext} {status : InstrumentWarmupStatus}
    (h : assemble planner reference fetch i ds = .ok (context, status)) :
    context.instrument = i ∧ status.state ≠ .warming := by
  obtain ⟨a, -, h⟩ := bind_eq_ok.mp h
  obtain ⟨context', hcontext, h⟩ := bind_eq_ok.mp h
  cases h
  have hcreate := orInvalid_eq_ok hcontext
  unfold HistoricalContext.create at hcreate
  simp only at hcreate
  split at hcreate
  · cases hcreate
    refine ⟨rfl, ?_⟩
    unfold terminalStatus
    simp only
    split
    · intro hwarming
      cases hwarming
    · split
      · intro hwarming
        cases hwarming
      · intro hwarming
        cases hwarming
  · cases hcreate

theorem historical_install (w : WarmupService)
    (a : Instrument × HistoricalContext × InstrumentWarmupStatus) (ha : a.2.1.instrument = a.1)
    (i : Instrument) :
    ((install w a).registry.stateFor i).historical =
      if a.1 = i then some a.2.1 else (w.registry.stateFor i).historical := by
  show ((w.registry.installHistorical a.1 a.2.1).stateFor i).historical = _
  rw [InstrumentStateRegistry.installHistorical, if_neg (not_not.mpr ha),
    InstrumentStateRegistry.stateFor_put]
  split
  · rfl
  · rfl

/-- Installing leaves the other instruments as they are. -/
theorem installs_other {assembled : List (Instrument × HistoricalContext × InstrumentWarmupStatus)}
    (w : WarmupService) (hcontext : ∀ a ∈ assembled, a.2.1.instrument = a.1) {i : Instrument}
    (hi : i ∉ assembled.map (·.1)) :
    (assembled.foldl install w).statusFor i = w.statusFor i ∧
      ((assembled.foldl install w).registry.stateFor i).historical =
        (w.registry.stateFor i).historical := by
  induction assembled generalizing w with
  | nil => exact ⟨rfl, rfl⟩
  | cons a assembled ih =>
    simp only [List.map_cons, List.mem_cons, not_or] at hi
    have ha : a.1 ≠ i := fun h => hi.1 h.symm
    obtain ⟨hstatus, hhistorical⟩ :=
      ih (install w a) (fun b hb => hcontext b (List.mem_cons_of_mem _ hb)) hi.2
    rw [List.foldl_cons, hstatus, hhistorical, historical_install w a (hcontext a List.mem_cons_self),
      if_neg ha]
    exact ⟨(statusFor_set w a.1 i a.2.2).trans (if_neg ha), rfl⟩

/-- Installing gives an instrument what is assembled for it. -/
theorem installs_self {assembled : List (Instrument × HistoricalContext × InstrumentWarmupStatus)}
    (w : WarmupService) (hcontext : ∀ a ∈ assembled, a.2.1.instrument = a.1)
    (hone : ∀ a ∈ assembled, ∀ b ∈ assembled, a.1 = b.1 → a.2 = b.2)
    {a : Instrument × HistoricalContext × InstrumentWarmupStatus} (ha : a ∈ assembled) :
    (assembled.foldl install w).statusFor a.1 = a.2.2 ∧
      ((assembled.foldl install w).registry.stateFor a.1).historical = some a.2.1 := by
  induction assembled generalizing w a with
  | nil => cases ha
  | cons b assembled ih =>
    have hcontext' : ∀ c ∈ assembled, c.2.1.instrument = c.1 :=
      fun c hc => hcontext c (List.mem_cons_of_mem _ hc)
    rw [List.foldl_cons]
    by_cases hlater : a.1 ∈ assembled.map (·.1)
    · obtain ⟨c, hc, hca⟩ := List.mem_map.mp hlater
      have hsame : a.2 = c.2 := hone a ha c (List.mem_cons_of_mem _ hc) hca.symm
      rw [hsame, ← hca]
      exact ih (install w b) hcontext'
        (fun x hx y hy => hone x (List.mem_cons_of_mem _ hx) y (List.mem_cons_of_mem _ hy)) hc
    · rcases List.mem_cons.mp ha with rfl | ha
      · obtain ⟨hstatus, hhistorical⟩ := installs_other (install w a) hcontext' hlater
        rw [hstatus, hhistorical, historical_install w a (hcontext a List.mem_cons_self), if_pos rfl]
        exact ⟨(statusFor_set w a.1 a.1 a.2.2).trans (if_pos rfl), rfl⟩
      · exact absurd (List.mem_map_of_mem ha) hlater

@[simp] theorem installs_retained (w : WarmupService)
    (assembled : List (Instrument × HistoricalContext × InstrumentWarmupStatus)) :
    (assembled.foldl install w).retained = w.retained := by
  induction assembled generalizing w with
  | nil => rfl
  | cons a assembled ih => exact ih (install w a)

/-! ## The whole warmup -/

theorem mem_sortedInstruments {instruments : List Instrument} {i : Instrument} :
    i ∈ sortedInstruments instruments ↔ i ∈ instruments := by
  rw [sortedInstruments, List.mem_insertionSort]

/-- Planning alone leaves everything as it was exactly where it finds its instruments WARMING. -/
theorem untouched_of_planned {ordered : List Instrument} {w' : WarmupService}
    {described : List (Instrument × List Descriptor)}
    (h : planAll rs reference ordered w = (w', .ok described)) :
    Untouched w w' ↔ ∀ i ∈ ordered, w.IsWarming i := by
  obtain ⟨⟨status, hw'⟩, -, -⟩ := planAll_ok h
  constructor
  · intro hsame i hi
    have hstatus := planAll_ok_status h i
    rw [if_pos hi, hsame.status i] at hstatus
    exact hstatus
  · intro hwarming
    refine ⟨fun i => ?_, fun i => by rw [hw'], by rw [hw']⟩
    rw [planAll_ok_status h i]
    split
    next hi => exact (hwarming i hi).symm
    next => rfl

/-- Planning that raises leaves everything as it was exactly where it finds its first instrument
    WARMING. -/
theorem untouched_of_planning_error {ordered : List Instrument} {w' : WarmupService} {e : WarmupError}
    (h : planAll rs reference ordered w = (w', .error e)) :
    Untouched w w' ↔ ∀ i, ordered.head? = some i → w.IsWarming i := by
  obtain ⟨i, hi, rfl⟩ := planAll_error h
  constructor
  · intro hsame j hj
    obtain rfl : i = j := Option.some.inj (hi.symm.trans hj)
    have hstatus := hsame.status i
    rw [statusFor_set, if_pos rfl] at hstatus
    exact hstatus.symm
  · intro hwarming
    refine ⟨fun j => ?_, fun _ => rfl, rfl⟩
    rw [statusFor_set]
    split
    next hij => exact hij ▸ (hwarming i hi).symm
    next => rfl

variable {ordered : List Instrument} {w₁ : WarmupService}

/-- What is assembled for an instrument is determined by it. -/
theorem assembledTo_unique (h : planAll rs reference ordered w = (w₁, .ok described)) :
    ∀ a ∈ assembledTo w.planner reference fetch described,
      ∀ b ∈ assembledTo w.planner reference fetch described, a.1 = b.1 → a.2 = b.2 := by
  obtain ⟨-, -, hdescribed⟩ := planAll_ok h
  intro a ha b hb hab
  obtain ⟨ds, hds, hassemble⟩ := mem_assembledTo ha
  obtain ⟨ds', hds', hassemble'⟩ := mem_assembledTo hb
  have hdescribe := hdescribed _ hds
  have hdescribe' := hdescribed _ hds'
  simp only at hdescribe hdescribe'
  rw [← hab, hdescribe] at hdescribe'
  rw [← hab, ← Except.ok.inj hdescribe', hassemble] at hassemble'
  exact Except.ok.inj hassemble'

/-- After planning and assembling, an instrument has what is assembled for it, else WARMING where it
    is one of the call, else what it had. -/
theorem assembled_status (h : planAll rs reference ordered w = (w₁, .ok described)) (i : Instrument) :
    (∀ a ∈ assembledTo w.planner reference fetch described, a.1 = i →
      ((assembledTo w.planner reference fetch described).foldl install w₁).statusFor i = a.2.2 ∧
        (((assembledTo w.planner reference fetch described).foldl install w₁).registry.stateFor
          i).historical = some a.2.1) ∧
      (i ∉ (assembledTo w.planner reference fetch described).map (·.1) →
        ((assembledTo w.planner reference fetch described).foldl install w₁).statusFor i =
            (if i ∈ ordered then { instrument := i, state := .warming } else w.statusFor i) ∧
          (((assembledTo w.planner reference fetch described).foldl install w₁).registry.stateFor
            i).historical = (w.registry.stateFor i).historical) := by
  obtain ⟨⟨status, hw₁⟩, -, -⟩ := planAll_ok h
  have hcontext : ∀ a ∈ assembledTo w.planner reference fetch described, a.2.1.instrument = a.1 := by
    intro a ha
    obtain ⟨ds, -, hassemble⟩ := mem_assembledTo ha
    exact (assemble_ok hassemble).1
  constructor
  · rintro a ha rfl
    exact installs_self w₁ hcontext (assembledTo_unique h) ha
  · intro hi
    obtain ⟨hstatus, hhistorical⟩ := installs_other w₁ hcontext hi
    rw [hstatus, hhistorical, planAll_ok_status h i, hw₁]
    exact ⟨rfl, rfl⟩

/-- An assembly that raises leaves everything as it was exactly where it finds the instruments before
    the exception as it leaves them and the others WARMING. -/
theorem untouched_of_assembled (h : planAll rs reference ordered w = (w₁, .ok described)) :
    Untouched w ((assembledTo w.planner reference fetch described).foldl install w₁) ↔
      (∀ a ∈ assembledTo w.planner reference fetch described, w.statusFor a.1 = a.2.2 ∧
          (w.registry.stateFor a.1).historical = some a.2.1) ∧
        ∀ i ∈ ordered, i ∉ (assembledTo w.planner reference fetch described).map (·.1) →
          w.IsWarming i := by
  obtain ⟨⟨status, hw₁⟩, -, -⟩ := planAll_ok h
  constructor
  · intro hsame
    constructor
    · intro a ha
      obtain ⟨hstatus, hhistorical⟩ := (assembled_status h a.1).1 a ha rfl
      exact ⟨(hsame.status a.1).symm.trans hstatus,
        (hsame.historical a.1).symm.trans hhistorical⟩
    · intro i hi hnot
      have hstatus := ((assembled_status h i).2 hnot).1
      rw [if_pos hi, hsame.status i] at hstatus
      exact hstatus
  · rintro ⟨hassembled, hwarming⟩
    have hi : ∀ i, ((assembledTo w.planner reference fetch described).foldl install w₁).statusFor i =
          w.statusFor i ∧
        (((assembledTo w.planner reference fetch described).foldl install w₁).registry.stateFor
          i).historical = (w.registry.stateFor i).historical := by
      intro i
      by_cases hmem : i ∈ (assembledTo w.planner reference fetch described).map (·.1)
      · obtain ⟨a, ha, rfl⟩ := List.mem_map.mp hmem
        obtain ⟨hstatus, hhistorical⟩ := (assembled_status h a.1).1 a ha rfl
        rw [hstatus, hhistorical, (hassembled a ha).1, (hassembled a ha).2]
        exact ⟨rfl, rfl⟩
      · obtain ⟨hstatus, hhistorical⟩ := (assembled_status h i).2 hmem
        rw [hstatus, hhistorical]
        refine ⟨?_, rfl⟩
        split
        next hordered => exact (hwarming i hordered hmem).symm
        next => rfl
    refine ⟨fun i => (hi i).1, fun i => (hi i).2, ?_⟩
    rw [installs_retained, hw₁]

/-- Where everything is assembled, no instrument of the call is WARMING. -/
theorem warming_after_assembled (h : planAll rs reference ordered w = (w₁, .ok described))
    (hall : (assembledTo w.planner reference fetch described).length = described.length) :
    (∀ i, (((assembledTo w.planner reference fetch described).foldl install w₁).statusFor i).state ≠
        .warming) ↔ ∀ i, i ∉ ordered → (w.statusFor i).state ≠ .warming := by
  obtain ⟨-, hordered, -⟩ := planAll_ok h
  have hmem : (assembledTo w.planner reference fetch described).map (·.1) = ordered :=
    (instruments_assembledTo hall).trans hordered
  constructor
  · intro hstates i hi
    have hstatus := ((assembled_status h i).2 (hmem ▸ hi)).1
    rw [if_neg hi] at hstatus
    exact hstatus ▸ hstates i
  · intro hothers i
    by_cases hi : i ∈ ordered
    · obtain ⟨a, ha, rfl⟩ := List.mem_map.mp (hmem ▸ hi)
      rw [((assembled_status h a.1).1 a ha rfl).1]
      obtain ⟨ds, -, hassemble⟩ := mem_assembledTo ha
      exact (assemble_ok hassemble).2
    · rw [((assembled_status h i).2 (hmem ▸ hi)).1, if_neg hi]
      exact hothers i hi

/-- What an assembly loop after the planning finds: its writes where it raises, and no instrument of the
    call where it returns. -/
def AssemblyFound (w : WarmupService) (reference : Int)
    (fetch : HistoricalRequestKey → Option (List Candle)) (ordered : List Instrument)
    (described : List (Instrument × List Descriptor)) : Prop :=
  let assembled := assembledTo w.planner reference fetch described
  if assembled.length = described.length then ∀ i, i ∉ ordered → (w.statusFor i).state ≠ .warming
  else
    (∀ a ∈ assembled, w.statusFor a.1 = a.2.2 ∧
        (w.registry.stateFor a.1).historical = some a.2.1) ∧
      ∀ i ∈ ordered, i ∉ assembled.map (·.1) → w.IsWarming i

/-- What is expected of the assembly loop, by its result. -/
def AssemblyLeft (w after : WarmupService) : Except WarmupError Unit → Prop
  | .ok () => ∀ i, (after.statusFor i).state ≠ .warming
  | .error _ => Untouched w after

theorem assembly_left_iff {after : WarmupService} {result : Except WarmupError Unit}
    (h : planAll rs reference ordered w = (w₁, .ok described))
    (hassembled : assembleAll reference fetch described w₁ = (after, result)) :
    AssemblyLeft w after result ↔ AssemblyFound w reference fetch ordered described := by
  obtain ⟨⟨status, hw₁⟩, -, -⟩ := planAll_ok h
  have hplanner : w₁.planner = w.planner := by rw [hw₁]
  obtain ⟨hstate, hreturns⟩ := @assembleAll_eq reference fetch w₁ described
  rw [hassembled, hplanner] at hstate hreturns
  simp only at hstate hreturns
  unfold AssemblyFound
  simp only
  subst hstate
  cases result with
  | error e =>
    rw [if_neg fun hall => by cases hreturns.mpr hall]
    exact untouched_of_assembled h
  | ok _ =>
    rw [if_pos (hreturns.mp rfl)]
    exact warming_after_assembled h (hreturns.mp rfl)

/-- **A warmup that is left early changes nothing, and one that returns leaves no instrument WARMING,
    exactly where it finds what it leaves.**  For every service, interruption, instruments,
    requirements and reference. -/
theorem warmup_untouched_iff (w : WarmupService) (interruption : Option Interruption)
    (instruments : List Instrument) (requirements : List HistoricalRequirement) (reference : Int) :
    (match w.warmupUntil interruption instruments requirements reference with
      | (w', .returned) => ∀ i, (w'.statusFor i).state ≠ .warming
      | (w', _) => Untouched w w') ↔
      w.FoundAsLeft interruption instruments requirements reference := by
  unfold warmupUntil FoundAsLeft
  simp only
  rw [← planAll_result]
  cases hplan : planAll (sortedRequirements requirements) reference (sortedInstruments instruments) w with
  | mk planned result =>
    cases result with
    | error e => exact untouched_of_planning_error hplan
    | ok described =>
      have hwarming := untouched_of_planned hplan
      simp only [mem_sortedInstruments] at hwarming
      have hplanned := planAll_ok hplan
      obtain ⟨⟨status, rfl⟩, -, -⟩ := hplanned
      have hinterrupts : WarmupService.interrupts { w with status } (plansOf described) =
          w.interrupts (plansOf described) := by
        funext cause
        cases cause <;> rfl
      simp only [hinterrupts]
      cases interruption.filter (w.interrupts (plansOf described)) with
      | some cause => exact hwarming
      | none =>
        have hfetch : WarmupService.fetchAll { w with status } (plansOf described) =
            w.fetchAll (plansOf described) := rfl
        simp only [hfetch, Option.isSome_none, Bool.false_eq_true, if_false]
        cases w.fetchAll (plansOf described) with
        | error e => exact hwarming
        | ok fetched =>
          simp only
          cases hassembled : assembleAll reference (fun key => (fetched.get key).join) described
            { w with status } with
          | mk after result =>
            have hassembly := assembly_left_iff hplan hassembled
            simp only [AssemblyFound, mem_sortedInstruments] at hassembly
            cases result with
            | error e => exact hassembly
            | ok _ => exact hassembly

/-- Noon of the first covered day, before which the calendar has no session. -/
def firstCoveredNoon : Int := nsePlanner.localize 20454 (720 * minute)

/-- A warmup that leaves the coverage, and one that is cancelled, leave an instrument WARMING that was
    not started; a warmup without instruments returns and leaves it so. -/
theorem status_left_warming :
    let w := serviceHolding []
    let outside := w.warmupUntil none [reliance] [sessions 1] firstCoveredNoon
    let cancelled := w.warmupUntil (some .cancelled) [reliance] [sessions 1] fridayNoon
    let later := outside.1.warmupUntil none [] [sessions 1] fridayNoon
    (w.statusFor reliance).state = .notStarted ∧
      outside.2 = .raised .outsideCalendarCoverage ∧
      (outside.1.statusFor reliance).state = .warming ∧
      cancelled.2 = .interrupted .cancelled ∧
      (cancelled.1.statusFor reliance).state = .warming ∧
      later.2 = .returned ∧ (later.1.statusFor reliance).state = .warming := by
  intro w outside cancelled later
  exact ⟨rfl, rfl, rfl, rfl, rfl, rfl, rfl⟩

end WarmupService

end ApexScan
