import ApexScan.Engine.Observed
import ApexScan.Services.EffectiveMembership

/-!
# Whose prices the sector runtime evaluates

The observer stamps an observation with the timestamp and the date of the context and copies the prices of
the context's latest tick.  The context of a quote or of a reference carries an earlier tick over.

* `ShadowSystem` — the engine, the observer's state and the evaluator in one machine; `sources` records,
  for the statements only, the context that each held observation was taken from.
* `TodaysInputs` — the fresh constituents of an evaluation have the prices of a tick of the date that is
  itself fresh; `CarriedCurrent` — what has to hold of the ticks that were carried over.

Result: `todays_inputs_iff`, over all runs.  `reference_keeps_yesterday` is a run that fails.
-/

set_option autoImplicit false

namespace ApexScan.SectorIntelligence

open Lib Sector TickEngine

/-! ## The system -/

/-- What an evaluation has copied, and what it was taken from. -/
structure Copied where
  observations : List LatestObservation
  sources : Dict String Handed
  evaluationTime : Int

structure ShadowSystem where
  engine : TickEngine
  state : ObservationState
  subscribed : Bool := false
  sources : Dict String Handed := []
  copied : Option Copied := none

/-- A call of the engine, with the subscribers after the observer; the observer's own calls; and the two
    halves of an evaluation. -/
inductive ShadowOp where
  | call (op : TickEngine.Op) (later : EventBus)
  | subscribe
  | unsubscribe
  | copy (evaluationTime : Int)
  | build

/-- The constituents that an evaluation builds, with what it was given. -/
structure Built where
  tradingDate : Int
  copied : Copied
  constituents : Except EvaluationError (List ConstituentObservation)

namespace ShadowSystem

/-- `SectorShadowObserver._record`. -/
def observe (s : ShadowSystem) (h : Handed) : ShadowSystem :=
  let o := observationOf h.context
  { s with
    state := (s.state.record o).1
    sources := (s.state.record o).2.held s.sources o.identity h }

/-- One call; a build shows the constituents. -/
def step (resolver : MembershipResolver) (s : ShadowSystem) : ShadowOp → ShadowSystem × Option Built
  | .call op later =>
    let (engine, emitted) := TickEngine.step s.engine (withObserver s.subscribed later op)
    match handed s.subscribed op (publishedBy emitted) with
    | some h => ({ s with engine }.observe h, none)
    | none => ({ s with engine }, none)
  | .subscribe => ({ s with subscribed := true }, none)
  | .unsubscribe => ({ s with subscribed := false }, none)
  | .copy evaluationTime =>
    ({ s with copied := some ⟨coherentCopy s.state, s.sources, evaluationTime⟩ }, none)
  | .build =>
    match s.copied, s.state.tradingDate with
    | some copied, some date =>
      (s, some ⟨date, copied, constituentsOn resolver date (completeOf copied.observations (some date))⟩)
    | _, _ => (s, none)

/-- A new engine and a runtime over the resolver. -/
def initial (resolver : MembershipResolver) (engine : TickEngine) : ShadowSystem where
  engine := engine
  state := initialState resolver

end ShadowSystem

/-! ## Today's inputs -/

/-- The tick is of the date, and at the evaluation neither older than the limit nor of the future. -/
structure CurrentTick (session : Option MarketSessionClassifier) (limit date evaluationTime : Int)
    (t : Tick) : Prop where
  today : exchangeDate session t.eventTimestamp = some date
  recent : evaluationTime - limit ≤ t.eventTimestamp
  notLater : t.eventTimestamp ≤ evaluationTime

/-- The prices of the constituent are those of the tick. -/
structure TakenFrom (t : Tick) (c : ConstituentObservation) : Prop where
  lastPrice : c.lastPrice = t.lastPrice
  sessionOpen : some c.sessionOpen = t.sessionOhlc.map (·.openPrice)

/-- Every fresh constituent has the prices of the tick that its context carries, and this tick is
    current. -/
def TodaysInputs (session : Option MarketSessionClassifier) (limit : Int) (built : Option Built) : Prop :=
  ∀ b cs, built = some b → b.constituents = .ok cs →
    ∀ c ∈ cs, isFresh b.copied.evaluationTime limit c = true →
      ∃ h t, b.copied.sources.get c.identity = some h ∧ h.context.latestTick = some t ∧ TakenFrom t c ∧
        CurrentTick session limit b.tradingDate b.copied.evaluationTime t

/-- The context is evaluated on the date, and is fresh. -/
structure FreshOn (resolver : MembershipResolver) (limit date evaluationTime : Int)
    (context : MarketContext) : Prop where
  complete : (observationOf context).isComplete = true
  dated : (observationOf context).tradingDate = some date
  sector : (resolver.resolvePrimary (observationOf context).identity (some date)).isSome
  recent : 0 ≤ evaluationTime - context.eventTimestamp ∧ evaluationTime - context.eventTimestamp ≤ limit

/-- At a build, a fresh context of a quote or of a reference carries a tick that is current itself. -/
def CarriedCurrent (resolver : MembershipResolver) (session : Option MarketSessionClassifier)
    (limit : Int) (s : ShadowSystem) : ShadowOp → Prop
  | .build => ∀ copied date, s.copied = some copied → s.state.tradingDate = some date →
      ∀ kv ∈ copied.sources, (∀ t, kv.2.event ≠ .datum (.tick t)) →
        FreshOn resolver limit date copied.evaluationTime kv.2.context →
        ∀ t, kv.2.context.latestTick = some t →
          CurrentTick session limit date copied.evaluationTime t
  | _ => True

/-! ## Where observations come from -/

/-- The observations are those of the sources, one for each identity. -/
structure Linked (session : Option MarketSessionClassifier) (sources : Dict String Handed)
    (latest : Dict String LatestObservation) : Prop where
  taken : latest = sources.map fun kv => (kv.1, observationOf kv.2.context)
  keys : ∀ kv ∈ sources, (observationOf kv.2.context).identity = kv.1
  nodup : (sources.map (·.1)).Nodup
  stamped : ∀ kv ∈ sources, kv.2.Stamped session

variable {session : Option MarketSessionClassifier} {resolver : MembershipResolver} {limit : Int}
variable {sources : Dict String Handed} {latest : Dict String LatestObservation}

namespace Linked

theorem held (h : Linked session sources latest) (outcome : RecordOutcome) {source : Handed}
    (hsource : source.Stamped session) :
    Linked session (outcome.held sources (observationOf source.context).identity source)
      (outcome.held latest (observationOf source.context).identity (observationOf source.context)) := by
  have hset : Linked session (sources.set (observationOf source.context).identity source)
      (latest.set (observationOf source.context).identity (observationOf source.context)) := by
    refine ⟨?_, ?_, Dict.nodup_keys_set h.nodup _ _, ?_⟩
    · rw [h.taken, Dict.map_set (fun source : Handed => observationOf source.context)]
    · intro kv hkv
      rcases Dict.mem_set hkv with rfl | hkv
      · rfl
      · exact h.keys kv hkv
    · intro kv hkv
      rcases Dict.mem_set hkv with rfl | hkv
      · exact hsource
      · exact h.stamped kv hkv
  cases outcome with
  | accepted => exact hset
  | duplicate => exact hset
  | rolled => exact ⟨rfl, by simp [RecordOutcome.held], by simp [RecordOutcome.held],
      by simpa [RecordOutcome.held] using hsource⟩
  | rejectedUnknown => exact h
  | rejectedOutOfOrder => exact h
  | rejectedLateDate => exact h

/-- An observation is taken from one source. -/
theorem exists_source (h : Linked session sources latest) {o : LatestObservation}
    (ho : o ∈ latest.map (·.2)) :
    ∃ source, sources.get o.identity = some source ∧ o = observationOf source.context ∧
      source.Stamped session := by
  rw [h.taken, List.map_map] at ho
  obtain ⟨kv, hkv, rfl⟩ := List.mem_map.mp ho
  refine ⟨kv.2, ?_, rfl, h.stamped kv hkv⟩
  rw [← Dict.mem_iff_get h.nodup]
  simp only [Function.comp_apply]
  rw [h.keys kv hkv]
  exact hkv

theorem observation_mem (h : Linked session sources latest) {kv : String × Handed} (hkv : kv ∈ sources) :
    observationOf kv.2.context ∈ latest.map (·.2) := by
  rw [h.taken, List.map_map]
  exact List.mem_map.mpr ⟨kv, hkv, rfl⟩

end Linked

/-- What holds in every state of a run. -/
structure Sourced (session : Option MarketSessionClassifier) (s : ShadowSystem) : Prop where
  classifier : s.engine.session = session
  unclassified : Unclassified s.engine
  linked : Linked session s.sources s.state.latest
  copied : ∀ copied, s.copied = some copied → ∃ latest, copied.observations = latest.map (·.2) ∧
    Linked session copied.sources latest

theorem step_sourced {s : ShadowSystem} (op : ShadowOp) (h : Sourced session s) :
    Sourced session (s.step resolver op).1 := by
  obtain ⟨hsession, hun, hlinked, hcopied⟩ := h
  cases op with
  | call op later =>
    have hconfig := (step_config s.engine (withObserver s.subscribed later op)).1.trans hsession
    have hun' := step_unclassified hun (withObserver s.subscribed later op)
    simp only [ShadowSystem.step]
    split
    · rename_i source hhanded
      have hstamped := handed_stamped hun hhanded
      rw [hsession] at hstamped
      refine ⟨hconfig, hun', ?_, hcopied⟩
      unfold ShadowSystem.observe
      simp only
      rw [(s.state.record_held _).2.2]
      exact hlinked.held _ hstamped
    · exact ⟨hconfig, hun', hlinked, hcopied⟩
  | subscribe => exact ⟨hsession, hun, hlinked, hcopied⟩
  | unsubscribe => exact ⟨hsession, hun, hlinked, hcopied⟩
  | copy evaluationTime =>
    refine ⟨hsession, hun, hlinked, ?_⟩
    intro copied heq
    cases heq
    exact ⟨_, rfl, hlinked⟩
  | build =>
    have hsame : (s.step resolver .build).1 = s := by
      simp only [ShadowSystem.step]
      split <;> rfl
    rw [hsame]
    exact ⟨hsession, hun, hlinked, hcopied⟩

/-! ## The constituents of an evaluation -/

/-- **One evaluation**: the inputs are today's exactly when the ticks that were carried over are. -/
theorem build_iff (hlinked : Linked session sources latest) (date evaluationTime : Int) :
    (∀ cs, constituentsOn resolver date (completeOf (latest.map (·.2)) (some date)) = .ok cs →
      ∀ c ∈ cs, isFresh evaluationTime limit c = true →
        ∃ h t, sources.get c.identity = some h ∧ h.context.latestTick = some t ∧ TakenFrom t c ∧
          CurrentTick session limit date evaluationTime t) ↔
    ∀ kv ∈ sources, (∀ t, kv.2.event ≠ .datum (.tick t)) →
      FreshOn resolver limit date evaluationTime kv.2.context →
      ∀ t, kv.2.context.latestTick = some t → CurrentTick session limit date evaluationTime t := by
  constructor
  · intro h kv hkv _ hfresh t ht
    obtain ⟨cs, hcs, -⟩ := constituentsOn_returns fun o ho => (mem_completeOf.mp ho).2.1
    obtain ⟨sectorId, hsector⟩ := Option.isSome_iff_exists.mp hfresh.sector
    have hcomplete : observationOf kv.2.context ∈ completeOf (latest.map (·.2)) (some date) :=
      mem_completeOf.mpr ⟨hlinked.observation_mem hkv, hfresh.complete, hfresh.dated⟩
    obtain ⟨c, hc, hbuilt⟩ := exists_mem_of_mapM_eq_ok hcs
      (List.mem_filterMap.mpr ⟨_, hcomplete, by rw [hsector]; rfl⟩)
    obtain ⟨hidentity, -, -, hstamp, -⟩ := constituentOf_eq_ok hbuilt
    have hrecent : isFresh evaluationTime limit c = true := by
      unfold isFresh
      rw [hstamp]
      exact decide_eq_true hfresh.recent
    obtain ⟨source, t', hsource, ht', -, hcurrent⟩ := h cs hcs c hc hrecent
    have hget : sources.get c.identity = some kv.2 := by
      rw [hidentity, hlinked.keys kv hkv, ← Dict.mem_iff_get hlinked.nodup]
      exact hkv
    cases hsource.symm.trans hget
    cases ht.symm.trans ht'
    exact hcurrent
  · intro h cs hcs c hc hrecent
    obtain ⟨item, hitem, hbuilt⟩ := exists_of_mapM_eq_ok hcs hc
    obtain ⟨o, ho, hresolved⟩ := List.mem_filterMap.mp hitem
    obtain ⟨sectorId, hsector, rfl⟩ := Option.map_eq_some_iff.mp hresolved
    obtain ⟨hmem, hcomplete, hdate⟩ := mem_completeOf.mp ho
    obtain ⟨source, hget, rfl, hstamped⟩ := hlinked.exists_source hmem
    obtain ⟨hidentity, -, -, hstamp, hlast, hopen⟩ := constituentOf_eq_ok hbuilt
    obtain ⟨t, ht, hprice⟩ := Option.map_eq_some_iff.mp hlast
    have htaken : TakenFrom t c := by
      refine ⟨hprice.symm, ?_⟩
      have hbind : (source.context.latestTick.bind (·.sessionOhlc)).map (·.openPrice) =
          some c.sessionOpen := hopen
      rw [ht] at hbind
      exact hbind.symm
    have hage : 0 ≤ evaluationTime - source.context.eventTimestamp ∧
        evaluationTime - source.context.eventTimestamp ≤ limit := by
      unfold isFresh at hrecent
      rw [hstamp] at hrecent
      exact of_decide_eq_true hrecent
    refine ⟨source, t, hidentity ▸ hget, ht, htaken, ?_⟩
    by_cases htick : ∃ t', source.event = .datum (.tick t')
    · -- the context of a tick has that tick's timestamp and date
      obtain ⟨t', ht'⟩ := htick
      obtain ⟨hlatest, hsame⟩ := hstamped.2 t' ht'
      cases ht.symm.trans hlatest
      refine ⟨?_, by omega, by omega⟩
      rw [← hsame, ← hstamped.1]
      exact hdate
    · have hkv := (Dict.mem_iff_get hlinked.nodup _ _).mpr hget
      refine h _ hkv (fun t' ht' => htick ⟨t', ht'⟩) ⟨hcomplete, hdate, ?_, hage⟩ t ht
      exact Option.isSome_iff_exists.mpr ⟨sectorId, hsector⟩

theorem step_todaysInputs_iff {s : ShadowSystem} (op : ShadowOp) (h : Sourced session s) :
    TodaysInputs session limit (s.step resolver op).2 ↔ CarriedCurrent resolver session limit s op := by
  have hnothing : TodaysInputs session limit none := by
    intro b cs hb
    cases hb
  cases op with
  | call op later =>
    simp only [ShadowSystem.step]
    split <;> exact iff_of_true hnothing trivial
  | build =>
    unfold CarriedCurrent
    simp only [ShadowSystem.step]
    split
    · rename_i copied date hcopied hdate
      obtain ⟨latest, hobservations, hlinked⟩ := h.copied copied hcopied
      have hiff := @build_iff session resolver limit _ _ hlinked date copied.evaluationTime
      rw [← hobservations] at hiff
      constructor
      · intro hinputs copied' date' hcopied' hdate'
        cases hcopied.symm.trans hcopied'
        cases hdate.symm.trans hdate'
        exact hiff.mp fun cs hcs => hinputs _ cs rfl hcs
      · intro hcarried b cs hb hcs
        cases hb
        exact hiff.mpr (hcarried copied date hcopied hdate) cs hcs
    · rename_i hmissing
      exact iff_of_true hnothing fun copied date hcopied hdate =>
        (hmissing copied date hcopied hdate).elim
  | _ => exact iff_of_true hnothing trivial

/-- **Whose prices are evaluated.**  In every run of a new engine, with any subscribers, the observer
    attached and detached at any time and evaluations at any instants, all fresh constituents have the
    prices of a fresh tick of the date, exactly when at each evaluation the ticks carried over by fresh
    contexts of quotes and references are fresh ticks of the date. -/
theorem todays_inputs_iff (resolver : MembershipResolver) (policy : CalculationPolicy)
    (known : List Instrument) (session : Option MarketSessionClassifier) (candles : Option CandleEngine)
    (authority : SessionStatisticsAuthority) (ops : List ShadowOp) :
    (∀ built ∈ outs (ShadowSystem.step resolver)
        (.initial resolver (create known session candles authority)) ops,
      TodaysInputs session policy.freshnessLimit built) ↔
    Along (ShadowSystem.step resolver) (CarriedCurrent resolver session policy.freshnessLimit)
      (.initial resolver (create known session candles authority)) ops := by
  have hinit : Sourced session (.initial resolver (create known session candles authority)) := by
    refine ⟨rfl, ?_, ⟨rfl, by simp [ShadowSystem.initial], List.nodup_nil,
      by simp [ShadowSystem.initial]⟩, ?_⟩
    · intro _ i c hc
      cases hc
    · intro copied hcopied
      cases hcopied
  exact outs_forall_iff (fun _ op h => step_sourced op h) (fun _ op h => step_todaysInputs_iff op h)
    ops hinit

/-! ## A reference on the next trading date -/

/-- A dataset whose only member has its sector from day 0 on. -/
def steadyMember : SectorMembershipDataset where
  metadata := { effectiveFrom := 0 }
  sectorDefinitions := [{ sectorId := "ENERGY", kind := .primarySector }]
  indexDefinitions := []
  memberships :=
    [{ identity := "NSE:RELIANCE", sectorId := "ENERGY", primary := true, effectiveFrom := 0 }]

theorem steadyMember_accepted : validate steadyMember = .ok () := rfl

def steadyResolver : MembershipResolver := ⟨steadyMember, steadyMember_accepted⟩

/-- A tick on 2024-10-04, a reference at 09:00 of 2024-10-07, and an evaluation at once. -/
def referenceAfterWeekend : List ShadowOp :=
  [.subscribe, .call aggregateTick {}, .call (referenceOn 20003 (rupees 100)) {},
    .copy (20003 * day + 210 * minute), .build]

/-- The date of the tick whose prices a built constituent has. -/
def tickDate (session : Option MarketSessionClassifier) (b : Built) (identity : String) : Option Int :=
  (b.copied.sources.get identity).bind fun h =>
    h.context.latestTick.bind fun t => exchangeDate session t.eventTimestamp

/-- On 2024-10-07 the price of 2024-10-04 is fresh. -/
theorem reference_keeps_yesterday :
    ¬ ∀ built ∈ outs (ShadowSystem.step steadyResolver)
        (.initial steadyResolver (create [reliance] (some nseClassifier) none {})) referenceAfterWeekend,
      TodaysInputs (some nseClassifier) shadowValidationPolicy.freshnessLimit built := by
  intro h
  obtain ⟨b, cs, c, hb, hcs, hc, hfresh, hdate, htick⟩ : ∃ b cs c,
      some b ∈ outs (ShadowSystem.step steadyResolver)
        (.initial steadyResolver (create [reliance] (some nseClassifier) none {}))
        referenceAfterWeekend ∧
      b.constituents = .ok cs ∧ c ∈ cs ∧
      isFresh b.copied.evaluationTime shadowValidationPolicy.freshnessLimit c = true ∧
      b.tradingDate = 20003 ∧ tickDate (some nseClassifier) b c.identity = some 20000 := by
    refine ⟨_, _, _, List.mem_of_getElem? (i := 4) rfl, rfl, List.mem_cons_self, ?_, rfl, ?_⟩
    · rfl
    · rfl
  obtain ⟨source, t, hsource, ht, -, htoday, -, -⟩ := h _ hb b cs rfl hcs c hc hfresh
  unfold tickDate at htick
  rw [hsource, Option.bind_some, ht, Option.bind_some, htoday, hdate] at htick
  cases htick

end ApexScan.SectorIntelligence
