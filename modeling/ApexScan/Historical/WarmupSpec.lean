import ApexScan.Historical.Warmup
import ApexScan.Lib.Raising

/-!
# What a warmup installs

A warmup plans, fetches and assembles all requirements of all instruments together.  Its result for
one instrument is nevertheless that of each requirement on its own.

* `quietFetch_eq` — `fetchOnce` is what the coordinator's steps give to a fetch that is alone.
* `warmup_installs` — after a warmup that returns, the series of an instrument are those that
  `seriesFor` builds for the requirements.
* `installedSeries_eq` — with one requirement for a timeframe, the installed series at it.
-/

set_option autoImplicit false

namespace ApexScan

open Lib

/-! ## The coordinator's steps -/

/-- What a fetch gives when nothing else runs: a hit, or the load's outcome after its task has
    entered the semaphore and the source has answered. -/
def Coordinator.quietFetch (c : Coordinator) (source : HistoricalSource) (waiter : ℕ)
    (plan : HistoricalFetchPlan) : Option (Except FetchError (List Candle)) :=
  match (c.step (.fetch waiter plan)).2 with
  | .hit candles => some (.ok candles)
  | .waiting task =>
    let ops := [.fetch waiter plan, .start task, .finish task (plan.request.bind source.load)]
    match ((run step c ops).step (.resume waiter)).2 with
    | .returned outcome => some outcome
    | _ => none
  | _ => none

namespace Coordinator

/-- The coordinator after a fetch that started a task, with that task in a later state. -/
def withTask (c : Coordinator) (waiter : ℕ) (plan : HistoricalFetchPlan) (state : TaskState) :
    Coordinator :=
  { c with tasks := c.tasks ++ [⟨plan, state⟩],
           inflight := c.inflight.set plan.key c.tasks.length,
           waiters := c.waiters.set waiter c.tasks.length }

variable {c : Coordinator} {plan : HistoricalFetchPlan} (waiter : ℕ)

theorem withTask_task (state : TaskState) :
    (c.withTask waiter plan state).tasks[c.tasks.length]? = some ⟨plan, state⟩ := by
  simp [withTask]

theorem step_fetch_new (hlookup : c.cache.lookup plan.key = none)
    (hinflight : c.inflight.get plan.key = none) :
    c.step (.fetch waiter plan) =
      (c.withTask waiter plan .queued, .waiting c.tasks.length) := by
  simp only [step, fetch, hlookup, hinflight]
  rfl

theorem step_resume {c' : Coordinator} {task : ℕ} {outcome : Except FetchError (List Candle)}
    (hwaiter : c'.waiters.get waiter = some task)
    (htask : c'.tasks[task]? = some ⟨plan, .done outcome⟩) :
    (c'.step (.resume waiter)).2 = .returned outcome := by
  simp only [step, hwaiter, Option.bind_some, htask]

/-- A load that ends gives its task the outcome of the source. -/
theorem step_finish_task (source : HistoricalSource) {request : HistoricalRequest}
    (hrequest : plan.request = some request) :
    let c' := ((c.withTask waiter plan .loading).step
      (.finish c.tasks.length (source.load request))).1
    c'.waiters.get waiter = some c.tasks.length ∧
      c'.tasks[c.tasks.length]? = some ⟨plan, .done (source.loadVerified plan)⟩ := by
  simp only [step, withTask_task, finishLoad, HistoricalSource.loadVerified, hrequest]
  cases source.load request with
  | none => simp [complete, withTask]
  | some candles =>
    cases hverified : verifySourceCandles plan candles with
    | none => simp [complete, withTask, hverified]
    | some verified => simp [complete, withTask, hverified]

theorem quietFetch_eq (source : HistoricalSource) (hinflight : c.inflight.get plan.key = none)
    (hfree : c.running < c.maxConcurrency) :
    c.quietFetch source waiter plan = some (fetchOnce c.cache source plan) := by
  unfold quietFetch fetchOnce
  cases hlookup : c.cache.lookup plan.key with
  | some candles => simp [step, fetch, hlookup]
  | none =>
    have hrunning : (c.withTask waiter plan .queued).running <
        (c.withTask waiter plan .queued).maxConcurrency := by
      simpa [running, withTask, List.countP_append] using hfree
    have hstart := step_fetch_new waiter hlookup hinflight
    simp only [hstart, run_cons, run_nil]
    cases hrequest : plan.request with
    | none =>
      -- the request is refused inside the semaphore, and there is no load to finish
      have hstarted : ((c.withTask waiter plan .queued).step (.start c.tasks.length)).1 =
          { c.withTask waiter plan (.done (.error .invalidRequest)) with
            callbacks := c.callbacks ++ [c.tasks.length] } := by
        simp only [step, withTask_task, hrunning, if_true, hrequest]
        simp [complete, withTask]
      rw [hstarted]
      simp [step, withTask, HistoricalSource.loadVerified, hrequest]
    | some request =>
      have hstarted : ((c.withTask waiter plan .queued).step (.start c.tasks.length)).1 =
          c.withTask waiter plan .loading := by
        simp only [step, withTask_task, hrunning, if_true, hrequest]
        simp [withTask]
      obtain ⟨hwaiter, htask⟩ := step_finish_task (c := c) waiter source hrequest
      rw [hstarted, Option.bind_some, step_resume waiter hwaiter htask]

end Coordinator

/-! ## Series of one requirement -/

theorem orInvalid_eq_ok {α : Type} {o : Option α} {a : α} (h : orInvalid o = .ok a) : o = some a := by
  cases o with
  | none => cases h
  | some b =>
    cases h
    rfl

/-- A series cut for a requirement is at its timeframe and as long as its lookback. -/
theorem cutSeries_eq_some {r : HistoricalRequirement} {bars : List Candle} {s : HistoricalSeries}
    (h : cutSeries r bars = .ok (some s)) :
    s.timeframe = r.timeframe ∧ s.candles.length = r.lookback := by
  unfold cutSeries at h
  split at h
  · cases h
  · rename_i hlen
    obtain ⟨s', hs', heq⟩ := map_eq_ok.mp h
    cases heq
    obtain ⟨htf, hcandles⟩ := HistoricalSeries.create_candles (orInvalid_eq_ok hs')
    refine ⟨htf, ?_⟩
    rw [hcandles, sortedByInterval, List.length_insertionSort, List.length_drop]
    omega

namespace WarmupService

variable {w : WarmupService} {reference : Int} {i : Instrument}

theorem seriesFor_eq_some {r : HistoricalRequirement} {s : HistoricalSeries}
    (h : w.seriesFor reference i r = .ok (some s)) :
    s.timeframe = r.timeframe ∧ s.candles.length = r.lookback := by
  obtain ⟨bars, -, h⟩ := bind_eq_ok.mp h
  cases bars with
  | none => cases h
  | some bars => exact cutSeries_eq_some h

/-- Where nothing is raised, a series is built iff enough bars are found. -/
theorem seriesFor_isSome_iff {r : HistoricalRequirement} {o : Option HistoricalSeries}
    (h : w.seriesFor reference i r = .ok o) :
    o.isSome = true ↔
      ∃ bars, w.barsOf reference i r = .ok (some bars) ∧ r.lookback ≤ bars.length := by
  obtain ⟨found, hfound, h⟩ := bind_eq_ok.mp h
  rw [hfound]
  cases found with
  | none =>
    cases h
    simp
  | some bars =>
    simp only at h
    unfold cutSeries at h
    split at h
    · rename_i hlen
      cases h
      simp only [Option.isSome_none, Bool.false_eq_true, Except.ok.injEq, Option.some.injEq,
        exists_eq_left', false_iff]
      omega
    · rename_i hlen
      obtain ⟨s, -, rfl⟩ := map_eq_ok.mp h
      simp only [Option.isSome_some, Except.ok.injEq, Option.some.injEq, exists_eq_left', true_iff]
      omega

/-- A plan of a requirement asks for the interval of its timeframe. -/
theorem classify_spec {planner : HistoricalRangePlanner} {direct : List Timeframe}
    {r : HistoricalRequirement} {d : Descriptor}
    (h : classifyRequirement planner direct reference i r = .ok d) :
    d.requirement = r ∧ ∀ plan ∈ d.plan?, plan.interval = intervalForTimeframe plan.timeframe := by
  have hplanned : ∀ (timeframe : Timeframe) (describe : HistoricalFetchPlan → Descriptor),
      (∀ plan, (describe plan).requirement = r ∧ (describe plan).plan? = some plan) →
      planned planner reference i r timeframe describe = .ok d →
      d.requirement = r ∧ ∀ plan ∈ d.plan?, plan.interval = intervalForTimeframe plan.timeframe := by
    intro timeframe describe hdescribe h
    unfold planned at h
    split at h
    · rename_i plan hplan
      cases h
      obtain ⟨window, -, hplan⟩ := bind_eq_ok.mp hplan
      cases hplan
      rw [(hdescribe _).2]
      refine ⟨(hdescribe _).1, ?_⟩
      rintro plan hplan
      cases hplan
      rfl
    · cases h
      exact ⟨rfl, by simp [Descriptor.plan?]⟩
    · cases h
  unfold classifyRequirement at h
  split at h
  · exact hplanned _ _ (fun plan => ⟨rfl, rfl⟩) h
  · split at h
    · cases h
      exact ⟨rfl, by simp [Descriptor.plan?]⟩
    · exact hplanned _ _ (fun plan => ⟨rfl, rfl⟩) h

/-! ## Fetched candles -/

/-- Plans of one key and interval are fetched alike. -/
theorem safeFetch_congr {p q : HistoricalFetchPlan} (hkey : p.key = q.key)
    (hinterval : p.interval = q.interval) : w.safeFetch p = w.safeFetch q := by
  obtain ⟨instrument, ⟨timeframe, _, _⟩, start, stop, interval⟩ := p
  obtain ⟨instrument', ⟨timeframe', _, _⟩, start', stop', interval'⟩ := q
  simp only [HistoricalFetchPlan.key, HistoricalFetchPlan.timeframe,
    HistoricalRequestKey.mk.injEq] at hkey
  obtain ⟨rfl, rfl, rfl, rfl⟩ := hkey
  cases hinterval
  rfl

theorem foldl_set_get (plans : List HistoricalFetchPlan) {p : HistoricalFetchPlan}
    (hp : p ∈ plans) :
    ∃ q ∈ plans, (plans.foldl (fun d q => Dict.set d q.key q) []).get p.key = some q ∧
      q.key = p.key := by
  induction plans using List.reverseRecOn with
  | nil => cases hp
  | append_singleton plans last ih =>
    rw [List.foldl_append, List.foldl_cons, List.foldl_nil, Dict.get_set]
    by_cases hkey : last.key = p.key
    · exact ⟨last, by simp, if_pos hkey, hkey⟩
    · rcases List.mem_append.mp hp with hp | hp
      · obtain ⟨q, hq, hget, hqkey⟩ := ih hp
        exact ⟨q, List.mem_append_left _ hq, by rw [if_neg hkey, hget], hqkey⟩
      · rw [List.mem_singleton.mp hp] at hkey
        exact absurd rfl hkey

theorem fetchAll_get {plans : Dict HistoricalRequestKey HistoricalFetchPlan}
    {fetched : Dict HistoricalRequestKey (Option (List Candle))}
    (h : w.fetchAll plans = .ok fetched) {key : HistoricalRequestKey} {p : HistoricalFetchPlan}
    (hp : plans.get key = some p) :
    ∃ candles, w.safeFetch p = .ok candles ∧ fetched.get key = some candles := by
  have hall := mapM_eq_ok.mp h
  clear h
  induction hall with
  | nil => cases hp
  | @cons kp kf plans fetched hhead _ ih =>
    obtain ⟨candles, hcandles, heq⟩ := bind_eq_ok.mp hhead
    cases heq
    rw [Dict.get_cons] at hp ⊢
    split at hp
    · rename_i hkey
      cases hp
      rw [if_pos hkey]
      exact ⟨candles, hcandles, rfl⟩
    · rename_i hkey
      rw [if_neg hkey]
      exact ih hp

/-- Every planned descriptor finds the candles of its own plan. -/
theorem fetched_of_plan {described : List (Instrument × List Descriptor)}
    {fetched : Dict HistoricalRequestKey (Option (List Candle))}
    (hfetched : w.fetchAll (plansOf described) = .ok fetched)
    (hinterval : ∀ d ∈ described, ∀ e ∈ d.2, ∀ plan ∈ e.plan?,
      plan.interval = intervalForTimeframe plan.timeframe)
    {d : Instrument × List Descriptor} (hd : d ∈ described) {e : Descriptor} (he : e ∈ d.2)
    {plan : HistoricalFetchPlan} (hplan : plan ∈ e.plan?) :
    w.safeFetch plan = .ok (fetched.get plan.key).join := by
  have hmem : ∀ q, q ∈ described.flatMap (fun d => d.2.filterMap (·.plan?)) ↔
      ∃ d ∈ described, ∃ e ∈ d.2, q ∈ e.plan? := by
    intro q
    simp [List.mem_flatMap, List.mem_filterMap]
  obtain ⟨q, hq, hget, hkey⟩ := foldl_set_get _ ((hmem plan).mpr ⟨d, hd, e, he, hplan⟩)
  obtain ⟨d', hd', e', he', hq⟩ := (hmem q).mp hq
  obtain ⟨candles, hcandles, hgot⟩ := fetchAll_get hfetched hget
  have htf : q.timeframe = plan.timeframe := congrArg HistoricalRequestKey.timeframe hkey
  have hsame : q.interval = plan.interval := by
    rw [hinterval d' hd' e' he' q hq, hinterval d hd e he plan hplan, htf]
  rw [← safeFetch_congr hkey hsame, hcandles, hgot]
  rfl

/-! ## Assembly -/

section Assembly

variable {fetch : HistoricalRequestKey → Option (List Candle)}

/-- A planned requirement is built from the candles of its plan. -/
theorem seriesFor_eq_buildSeries {r : HistoricalRequirement} {d : Descriptor}
    {plan : HistoricalFetchPlan}
    (hd : classifyRequirement w.planner w.source.directTimeframes reference i r = .ok d)
    (hplan : d.plan? = some plan) (hfetch : w.safeFetch plan = .ok (fetch plan.key)) :
    w.seriesFor reference i r = buildSeries w.planner d (fetch plan.key) := by
  obtain ⟨hr, -⟩ := classify_spec hd
  have hbars : w.barsOf reference i r = barsFor w.planner d (fetch plan.key) := by
    simp only [barsOf, hd, ok_bind, hplan, hfetch]
  rw [seriesFor, buildSeries, hbars, hr]

theorem record_series {planner : HistoricalRangePlanner} {a a' : Assembly} {timeframe : Timeframe}
    {o : Option HistoricalSeries} (h : record planner reference a timeframe o = .ok a') :
    a'.series = a.series ++ o.toList := by
  cases o with
  | none =>
    cases h
    simp
  | some built =>
    obtain ⟨previous, -, h⟩ := bind_eq_ok.mp h
    cases h
    simp

/-- One step of the assembly adds the series of its requirement. -/
theorem assembleOne_series {a a' : Assembly} {r : HistoricalRequirement} {d : Descriptor}
    (hd : classifyRequirement w.planner w.source.directTimeframes reference i r = .ok d)
    (hfetch : ∀ plan ∈ d.plan?, w.safeFetch plan = .ok (fetch plan.key))
    (h : assembleOne w.planner reference fetch a d = .ok a') :
    ∃ o, w.seriesFor reference i r = .ok o ∧ a'.series = a.series ++ o.toList := by
  have hbuilt : ∀ plan, d.plan? = some plan → ∀ timeframe,
      buildSeries w.planner d (fetch plan.key) >>= record w.planner reference a timeframe = .ok a' →
      ∃ o, w.seriesFor reference i r = .ok o ∧ a'.series = a.series ++ o.toList := by
    intro plan hplan timeframe h
    obtain ⟨o, ho, h⟩ := bind_eq_ok.mp h
    rw [seriesFor_eq_buildSeries hd hplan (hfetch plan hplan)]
    exact ⟨o, ho, record_series h⟩
  have hnone : d.plan? = none → w.seriesFor reference i r = .ok none := by
    intro hplan
    simp only [seriesFor, barsOf, hd, ok_bind, hplan]
    rfl
  cases d with
  | direct r plan => exact hbuilt plan rfl _ h
  | reconstruct r plan base => exact hbuilt plan rfl _ h
  | pending r =>
    cases h
    exact ⟨none, hnone rfl, by simp⟩
  | failed r =>
    cases h
    exact ⟨none, hnone rfl, by simp⟩

/-- The assembly of an instrument has the series of its requirements. -/
theorem foldlM_assembleOne_series {rs : List HistoricalRequirement} {ds : List Descriptor}
    (hds : List.Forall₂ (fun r d => classifyRequirement w.planner w.source.directTimeframes
      reference i r = .ok d) rs ds)
    (hfetch : ∀ d ∈ ds, ∀ plan ∈ d.plan?, w.safeFetch plan = .ok (fetch plan.key))
    {a a' : Assembly} (h : ds.foldlM (assembleOne w.planner reference fetch) a = .ok a') :
    (∀ r ∈ rs, ∃ o, w.seriesFor reference i r = .ok o) ∧
      ∀ s, s ∈ a'.series ↔ s ∈ a.series ∨ ∃ r ∈ rs, w.seriesFor reference i r = .ok (some s) := by
  induction hds generalizing a with
  | nil =>
    cases h
    simp
  | @cons r d rs ds hd _ ih =>
    rw [List.foldlM_cons] at h
    obtain ⟨a₁, h₁, h⟩ := bind_eq_ok.mp h
    obtain ⟨o, ho, hseries⟩ := assembleOne_series hd (hfetch d (by simp)) h₁
    obtain ⟨hreturns, hmem⟩ := ih (fun d hd => hfetch d (List.mem_cons_of_mem _ hd)) h
    refine ⟨?_, ?_⟩
    · intro r' hr'
      rcases List.mem_cons.mp hr' with rfl | hr'
      · exact ⟨o, ho⟩
      · exact hreturns r' hr'
    · intro s
      rw [hmem, hseries, List.mem_append, or_assoc]
      simp [ho, eq_comm]

theorem assemble_series {rs : List HistoricalRequirement} {ds : List Descriptor}
    (hds : List.Forall₂ (fun r d => classifyRequirement w.planner w.source.directTimeframes
      reference i r = .ok d) rs ds)
    (hfetch : ∀ d ∈ ds, ∀ plan ∈ d.plan?, w.safeFetch plan = .ok (fetch plan.key))
    {context : HistoricalContext} {status : InstrumentWarmupStatus}
    (h : assemble w.planner reference fetch i ds = .ok (context, status)) :
    context.instrument = i ∧ (∀ r ∈ rs, ∃ o, w.seriesFor reference i r = .ok o) ∧
      ∀ s, s ∈ context.series ↔ ∃ r ∈ rs, w.seriesFor reference i r = .ok (some s) := by
  obtain ⟨a, ha, h⟩ := bind_eq_ok.mp h
  obtain ⟨context', hcontext, h⟩ := bind_eq_ok.mp h
  cases h
  obtain ⟨hreturns, hmem⟩ := foldlM_assembleOne_series hds hfetch ha
  have hcreate := orInvalid_eq_ok hcontext
  unfold HistoricalContext.create at hcreate
  simp only at hcreate
  split at hcreate
  · cases hcreate
    refine ⟨rfl, hreturns, ?_⟩
    intro s
    rw [List.mem_insertionSort, hmem]
    simp
  · cases hcreate

end Assembly

/-! ## The whole warmup -/

/-- Planning changes statuses only, and describes every instrument. -/
theorem planAll_ok {rs : List HistoricalRequirement} {instruments : List Instrument}
    {w w' : WarmupService} {described : List (Instrument × List Descriptor)}
    (h : planAll rs reference instruments w = (w', .ok described)) :
    (∃ status, w' = { w with status }) ∧ described.map (·.1) = instruments ∧
      ∀ d ∈ described, w.describe rs reference d.1 = .ok d.2 := by
  induction instruments generalizing w described with
  | nil =>
    cases h
    exact ⟨⟨_, rfl⟩, rfl, by simp⟩
  | cons i instruments ih =>
    simp only [planAll] at h
    split at h
    · cases h
    · rename_i ds hds
      split at h
      · cases h
      · rename_i w₁ rest hrest
        cases h
        obtain ⟨⟨status, rfl⟩, hinstruments, hall⟩ := ih hrest
        refine ⟨⟨status, rfl⟩, by rw [List.map_cons, hinstruments], ?_⟩
        intro d hd
        rcases List.mem_cons.mp hd with rfl | hd
        · exact hds
        · exact hall d hd

/-- Assembling installs a context for every described instrument, and the planner, source and cache
    stay. -/
theorem assembleAll_ok {fetch : HistoricalRequestKey → Option (List Candle)}
    {described : List (Instrument × List Descriptor)} {w w' : WarmupService}
    (h : assembleAll reference fetch described w = (w', .ok ()))
    (hinstrument : ∀ d ∈ described, ∀ context status,
      assemble w.planner reference fetch d.1 d.2 = .ok (context, status) → context.instrument = d.1)
    (i : Instrument) :
    (w'.registry.stateFor i).historical = (w.registry.stateFor i).historical ∧
        i ∉ described.map (·.1) ∨
      ∃ ds context status, (i, ds) ∈ described ∧
        assemble w.planner reference fetch i ds = .ok (context, status) ∧
        (w'.registry.stateFor i).historical = some context := by
  induction described generalizing w with
  | nil =>
    cases h
    exact Or.inl ⟨rfl, by simp⟩
  | cons d described ih =>
    obtain ⟨j, ds⟩ := d
    simp only [assembleAll] at h
    split at h
    · cases h
    · rename_i context status hassemble
      have hj := hinstrument (j, ds) (by simp) context status hassemble
      rcases ih h (fun d hd => hinstrument d (List.mem_cons_of_mem _ hd)) with
        ⟨hsame, hnot⟩ | ⟨ds', context', status', hmem, hctx, hhist⟩
      · rw [InstrumentStateRegistry.installHistorical, if_neg (not_not.mpr hj),
          InstrumentStateRegistry.stateFor_put] at hsame
        by_cases hij : j = i
        · rw [if_pos hij] at hsame
          subst hij
          exact Or.inr ⟨ds, context, status, by simp, hassemble, hsame⟩
        · rw [if_neg hij] at hsame
          refine Or.inl ⟨hsame, ?_⟩
          simp only [List.map_cons, List.mem_cons, not_or]
          exact ⟨Ne.symm hij, hnot⟩
      · exact Or.inr ⟨ds', context', status', List.mem_cons_of_mem _ hmem, hctx, hhist⟩

/-- What the planning and the fetches of a warmup give: each instrument has the descriptors of the
    requirements, and each of their plans its own candles. -/
theorem planned_and_fetched {instruments : List Instrument} {rs : List HistoricalRequirement}
    {w₁ : WarmupService} {described : List (Instrument × List Descriptor)}
    (hplan : planAll rs reference instruments w = (w₁, .ok described))
    {fetched : Dict HistoricalRequestKey (Option (List Candle))}
    (hfetched : w₁.fetchAll (plansOf described) = .ok fetched) :
    ∀ d ∈ described,
      List.Forall₂ (fun r e => classifyRequirement w.planner w.source.directTimeframes reference
        d.1 r = .ok e) rs d.2 ∧
      ∀ e ∈ d.2, ∀ plan ∈ e.plan?, w.safeFetch plan = .ok (fetched.get plan.key).join := by
  obtain ⟨⟨status, rfl⟩, -, hdescribed⟩ := planAll_ok hplan
  intro d hd
  refine ⟨mapM_eq_ok.mp (hdescribed d hd), ?_⟩
  intro e he plan hplan
  refine fetched_of_plan (w := w) hfetched ?_ hd he hplan
  intro d hd e he plan hplan
  obtain ⟨r, -, hr⟩ := exists_of_mapM_eq_ok (hdescribed d hd) he
  exact (classify_spec hr).2 plan hplan

/-- **What a warmup installs.**  After a warmup that returns, every warmed instrument has a snapshot
    whose series are those built for the requirements, each on its own. -/
theorem warmup_installs {instruments : List Instrument} {rs : List HistoricalRequirement}
    {w' : WarmupService} (h : w.warmup instruments rs reference = (w', .ok ()))
    (hi : i ∈ instruments) :
    (∀ r ∈ rs, ∃ o, w.seriesFor reference i r = .ok o) ∧
      ∃ context, (w'.registry.stateFor i).historical = some context ∧
        ∀ s, s ∈ context.series ↔ ∃ r ∈ rs, w.seriesFor reference i r = .ok (some s) := by
  unfold warmup at h
  split at h
  · cases h
  rename_i w₁ described hplan
  simp only at h
  split at h
  · cases h
  rename_i fetched hfetched
  split at h
  · cases h
  rename_i w₂ hassembled
  cases h
  have hspec := planned_and_fetched hplan hfetched
  obtain ⟨⟨status, rfl⟩, hinstruments, -⟩ := planAll_ok hplan
  have hmem : i ∈ described.map (·.1) := by
    rw [hinstruments, sortedInstruments, List.mem_insertionSort]
    exact hi
  have hinstalled := assembleAll_ok hassembled
    (fun d hd context status h => (assemble_series (hspec d hd).1 (hspec d hd).2 h).1) i
  rcases hinstalled with ⟨-, hnot⟩ | ⟨ds, context, status, hds, hassemble, hhistorical⟩
  · exact absurd hmem hnot
  · obtain ⟨-, hreturns, hseries⟩ :=
      assemble_series (hspec _ hds).1 (hspec _ hds).2 hassemble
    have hsorted : ∀ r, r ∈ sortedRequirements rs ↔ r ∈ rs := fun r => by
      rw [sortedRequirements, List.mem_insertionSort]
    simp only [hsorted] at hreturns hseries
    exact ⟨hreturns, context, hhistorical, hseries⟩

/-- Where the requirements have one for each timeframe, the installed series at a timeframe is the
    one built for its requirement. -/
theorem installedSeries_eq {instruments : List Instrument} {rs : List HistoricalRequirement}
    {w' : WarmupService} (h : w.warmup instruments rs reference = (w', .ok ()))
    (hi : i ∈ instruments) {r : HistoricalRequirement} (hr : r ∈ rs)
    (hone : ∀ r' ∈ rs, r'.timeframe = r.timeframe → r' = r) :
    w.seriesFor reference i r = .ok (w'.installedSeries i r.timeframe) := by
  obtain ⟨hreturns, context, hhistorical, hseries⟩ := warmup_installs h hi
  obtain ⟨o, ho⟩ := hreturns r hr
  have hinstalled : w'.installedSeries i r.timeframe =
      context.series.find? fun s => s.timeframe = r.timeframe := by
    rw [installedSeries, hhistorical]
    rfl
  rw [ho, hinstalled]
  congr 1
  -- any series at the timeframe was built for this very requirement
  have hbuilt : ∀ s ∈ context.series, s.timeframe = r.timeframe → o = some s := by
    intro s hs htf
    obtain ⟨r', hr', hs'⟩ := (hseries s).mp hs
    have heq := hone r' hr' ((seriesFor_eq_some hs').1.symm.trans htf)
    rw [heq, ho] at hs'
    exact Except.ok.inj hs'
  cases hfind : context.series.find? fun s => s.timeframe = r.timeframe with
  | some s =>
    have htf : s.timeframe = r.timeframe := by simpa using List.find?_some hfind
    exact hbuilt s (List.mem_of_find?_eq_some hfind) htf
  | none =>
    cases o with
    | none => rfl
    | some s =>
      have hnot := List.find?_eq_none.mp hfind s ((hseries s).mpr ⟨r, hr, ho⟩)
      exact absurd (seriesFor_eq_some ho).1 (by simpa using hnot)

end WarmupService

end ApexScan
