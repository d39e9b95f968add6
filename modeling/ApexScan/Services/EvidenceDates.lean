import ApexScan.Engine.Observed
import ApexScan.Services.EvidenceWindows

/-!
# Whose prices a window artifact has

A snapshot copies the session OHLC of the tick that a context carries, and keeps the timestamp of the
context.  The context of a quote or of a reference carries an earlier tick over, and the snapshots from
before the first poll, or from before the wait of a finalization, may be those of another date.

* `EvidenceSystem` — the engine and the observer with its calls in one machine; `sources` and `frozen`
  record, for the statements only, the contexts that the snapshots were taken from.
* `Dated` — the observations of a window artifact are those of ticks of its date.
* `OfDate` — what has to hold of a context whose snapshot is frozen for a date.

Result: `dated_iff`, over all runs.  `reference_after_roll` is a run that fails.
-/

set_option autoImplicit false

namespace ApexScan.EvidenceObserver

open Lib Evidence TickEngine SessionOhlcEvidenceObserver

/-! ## The system -/

structure EvidenceSystem where
  engine : TickEngine
  pool : Observing := idle
  sources : Dict String Handed := []
  frozen : Dict ℕ (Dict String Handed) := []

/-- A call of the engine, with the subscribers after the observer, or an action of the observer. -/
inductive SystemOp where
  | call (op : TickEngine.Op) (later : EventBus)
  | act (action : Action)

/-- A window artifact that was written, with the contexts of its snapshots. -/
structure Written where
  artifact : WindowArtifact
  sources : Dict String Handed

namespace EvidenceSystem

/-- The observer is handed a context. -/
def onContext (s : EvidenceSystem) (h : Handed) : EvidenceSystem :=
  { s with
    pool := { s.pool with shared := s.pool.shared.onContext h.context }
    sources :=
      match snapshotOf h.context with
      | none => s.sources
      | some snapshot => s.sources.set snapshot.identity h }

/-- One action: the contexts of the snapshots that are left, which a turn that waits has frozen. -/
def act (config : Config) (s : EvidenceSystem) (action : Action) : EvidenceSystem :=
  let pool := (EvidenceObserver.act config s.pool action).1
  let sources := s.sources.restrict fun key => (pool.shared.latest.get key).isSome
  match action with
  | .turn (.advance process _) => { s with pool, sources, frozen := s.frozen.set process sources }
  | _ => { s with pool, sources }

/-- The window artifacts that an action writes. -/
def written (config : Config) (s : EvidenceSystem) : Action → List Written
  | .turn (.advance process env) =>
    let pool := (EvidenceObserver.act config s.pool (.turn (.advance process env))).1
    ((windowArtifacts pool.shared.files).drop (windowArtifacts s.pool.shared.files).length).map
      fun artifact => ⟨artifact, (s.frozen.get process).getD []⟩
  | _ => []

def step (config : Config) (s : EvidenceSystem) : SystemOp → EvidenceSystem × List Written
  | .call op later =>
    let (engine, emitted) := TickEngine.step s.engine (withObserver s.pool.shared.subscribed later op)
    match handed s.pool.shared.subscribed op (publishedBy emitted) with
    | some h => ({ s with engine }.onContext h, [])
    | none => ({ s with engine }, [])
  | .act action => (s.act config action, s.written config action)

end EvidenceSystem

/-! ## Prices of the date -/

/-- The exchange-local date of an instant. -/
def localDateOf (config : Config) (instant : Int) : Int :=
  wallDate (config.exchangeTimezone.toLocal instant)

/-- The observation has the session OHLC of the tick. -/
def Carries (o : OhlcObservation) (t : Tick) : Prop :=
  ∃ ohlc, t.sessionOhlc = some ohlc ∧ o.openPrice = some ohlc.openPrice.1 ∧
    o.highPrice = some ohlc.highPrice.1 ∧ o.lowPrice = some ohlc.lowPrice.1

/-- Every WS observation has the session OHLC of the tick that its context carries, and this tick is of the
    date of the artifact. -/
def Dated (config : Config) (w : Written) : Prop :=
  ∀ inst ∈ w.artifact.record.instruments, ∀ o ∈ inst.wsObservations,
    ∃ h t, w.sources.get inst.securityId = some h ∧ h.context.latestTick = some t ∧ Carries o t ∧
      localDateOf config t.eventTimestamp = w.artifact.tradingDate

/-- The context was handed over for a tick and its timestamp is of the date, or the tick that it carries
    over is of the date. -/
def OfDate (config : Config) (date : Int) (h : Handed) : Prop :=
  match h.event with
  | .datum (.tick _) => localDateOf config h.context.eventTimestamp = date
  | _ => ∀ t, h.context.latestTick = some t → localDateOf config t.eventTimestamp = date

/-- Where a turn writes the artifact of a window, the contexts of the frozen snapshots are of its date. -/
def FrozenOfDate (config : Config) (s : EvidenceSystem) : SystemOp → Prop
  | .act (.turn (.advance process env)) => ∀ task f, s.pool.tasks.get process = some task →
      task.finalization = some f → env.windowWritten = true →
      ∀ key h, ((s.frozen.get process).getD []).get key = some h → OfDate config f.tradingDate h
  | _ => True

/-! ## Where snapshots come from -/

variable {config : Config} {session : Option MarketSessionClassifier}

/-- The snapshots are those of the sources. -/
structure Traced (session : Option MarketSessionClassifier) (sources : Dict String Handed)
    (snapshots : Dict String Snapshot) : Prop where
  taken : ∀ key, snapshots.get key = (sources.get key).bind fun h => snapshotOf h.context
  whole : ∀ key h, sources.get key = some h → (snapshotOf h.context).isSome
  stamped : ∀ key h, sources.get key = some h → h.Stamped session

/-- A snapshot has the session OHLC of the tick that the context carries. -/
theorem snapshotOf_eq_some {context : MarketContext} {snapshot : Snapshot}
    (h : snapshotOf context = some snapshot) (window : String) :
    ∃ t, context.latestTick = some t ∧ Carries (toObservation snapshot window) t := by
  unfold snapshotOf at h
  split at h
  · cases h
  · rename_i ohlc hohlc
    obtain ⟨t, ht, hsession⟩ := Option.bind_eq_some_iff.mp hohlc
    cases h
    exact ⟨t, ht, ohlc, hsession, rfl, rfl, rfl⟩

/-- The tick that a stamped context carries is of the date exactly when the context is. -/
theorem ofDate_iff {h : Handed} (hstamped : h.Stamped session) {t : Tick}
    (ht : h.context.latestTick = some t) (date : Int) :
    OfDate config date h ↔ localDateOf config t.eventTimestamp = date := by
  unfold OfDate
  split
  · rename_i t' hevent
    obtain ⟨hlatest, hstamp⟩ := hstamped.2 t' hevent
    cases ht.symm.trans hlatest
    rw [hstamp]
  · constructor
    · intro hall
      exact hall t ht
    · rintro hdate t' ht'
      cases ht.symm.trans ht'
      exact hdate

namespace Traced

variable {sources : Dict String Handed} {snapshots : Dict String Snapshot}

theorem empty : Traced session [] [] := by
  refine ⟨fun _ => rfl, ?_, ?_⟩
  · intro key source hsource
    cases hsource
  · intro key source hsource
    cases hsource

theorem set (h : Traced session sources snapshots) {source : Handed} {snapshot : Snapshot}
    (hsnapshot : snapshotOf source.context = some snapshot) (hstamped : source.Stamped session) (k : String) :
    Traced session (sources.set k source) (snapshots.set k snapshot) := by
  refine ⟨?_, ?_, ?_⟩
  · intro key
    rw [Dict.get_set, Dict.get_set]
    split
    · exact hsnapshot.symm
    · exact h.taken key
  · intro key other hother
    rw [Dict.get_set] at hother
    split at hother
    · cases hother
      rw [hsnapshot]
      rfl
    · exact h.whole key other hother
  · intro key other hother
    rw [Dict.get_set] at hother
    split at hother
    · cases hother
      exact hstamped
    · exact h.stamped key other hother

/-- What is left of the sources when snapshots are dropped, or all are kept. -/
theorem restrict (h : Traced session sources snapshots) {kept : Dict String Snapshot}
    (hkept : kept = snapshots ∨ kept = []) :
    Traced session (sources.restrict fun key => (kept.get key).isSome) kept := by
  have hsource {key : String} {source : Handed}
      (hget : Dict.get (sources.restrict fun key => (kept.get key).isSome) key = some source) :
      sources.get key = some source := by
    rw [Dict.get_restrict] at hget
    split at hget
    · exact hget
    · cases hget
  refine ⟨?_, fun key source hget => h.whole key source (hsource hget),
    fun key source hget => h.stamped key source (hsource hget)⟩
  intro key
  rw [Dict.get_restrict]
  rcases hkept with rfl | rfl
  · cases hget : kept.get key with
    | none => rfl
    | some snapshot =>
      rw [if_pos Option.isSome_some, ← hget]
      exact h.taken key
  · rfl

/-- **One artifact**: its observations are of its date exactly when the contexts are. -/
theorem artifact_dated_iff {env : Environment} {o : SessionOhlcEvidenceObserver} {f : Finalization}
    (h : Traced session sources f.snapshots) :
    Dated config ⟨artifactOf config env o f, sources⟩ ↔
      ∀ key source, sources.get key = some source → OfDate config f.tradingDate source := by
  constructor
  · intro hdated key source hsource
    obtain ⟨snapshot, hsnapshot⟩ := Option.isSome_iff_exists.mp (h.whole key source hsource)
    have hget : f.snapshots.get key = some snapshot := by
      rw [h.taken key, hsource]
      exact hsnapshot
    have hkey : key ∈ sortBy id (f.snapshots.map (·.1)) := by
      rw [sortBy_perm.mem_iff, Dict.mem_keys_iff, hget]
      rfl
    obtain ⟨source', t, hsource', ht, -, hdate⟩ := hdated
      (instrumentEvidence f.window f.tradingDate (loadRest env.statistics) key snapshot)
      (List.mem_filterMap.mpr ⟨key, hkey, by rw [hget]; rfl⟩) _ List.mem_cons_self
    cases hsource.symm.trans hsource'
    exact (ofDate_iff (h.stamped key source hsource) ht _).mpr hdate
  · intro hall inst hinst obs hobs
    obtain ⟨key, -, hinst⟩ := List.mem_filterMap.mp hinst
    obtain ⟨snapshot, hget, rfl⟩ := Option.map_eq_some_iff.mp hinst
    obtain rfl := List.mem_singleton.mp hobs
    rw [h.taken key] at hget
    obtain ⟨source, hsource, hsnapshot⟩ := Option.bind_eq_some_iff.mp hget
    obtain ⟨t, ht, hcarries⟩ := snapshotOf_eq_some hsnapshot f.window
    exact ⟨source, t, hsource, ht, hcarries,
      (ofDate_iff (h.stamped key source hsource) ht _).mp (hall key source hsource)⟩

end Traced

/-! ## The snapshots that an action leaves -/

section Latest

variable {env : Environment} {o o' : SessionOhlcEvidenceObserver}

theorem rollSession_latest (d : Int) :
    (o.rollSession config d).latest = o.latest ∨ (o.rollSession config d).latest = [] := by
  unfold rollSession
  split
  · exact .inl rfl
  · cases o.sessionTradingDate with
    | none => exact .inl rfl
    | some old => exact .inr rfl

theorem finalizeSession_latest : (o.finalizeSession env).1.latest = o.latest := by
  obtain ⟨added, hstate, -⟩ := @finalizeSession_adds env o
  rw [hstate]

theorem Rested.latest (h : Rested config env o o') : o'.latest = o.latest := by
  cases h with
  | same => rfl
  | opened now =>
    unfold openWindow
    split
    · rfl
    · split <;> rfl
  | closed =>
    obtain ⟨added, finalized, hstate, -⟩ := @closeSession_adds env o
    rw [hstate]

theorem advance_latest (task : Task) : (o.advance config env task).1.latest = o.latest ∨
    (o.advance config env task).1.latest = [] := by
  obtain ⟨⟨entered, hentered, hrested⟩, -⟩ := @advance_cases config env o task
  rw [hrested.latest]
  cases hentered with
  | same => exact .inl rfl
  | rolled => exact rollSession_latest _
  | committed => exact .inl rfl

/-- An action keeps the snapshots, or drops them all. -/
theorem act_latest (pool : Observing) (action : Action) :
    (act config pool action).1.shared.latest = pool.shared.latest ∨
      (act config pool action).1.shared.latest = [] := by
  cases action with
  | turn turn =>
    rcases @step_shared _ _ _ _ _ (observing config) pool turn with heq | ⟨process, env, task, rfl, -, heq⟩
    · exact .inl (congrArg (·.latest) heq)
    · simp only [act]
      rw [heq]
      exact advance_latest task
  | subscribe now =>
    simp only [act]
    split
    · exact .inl rfl
    · exact .inl rfl
  | unsubscribe => exact .inl rfl
  | onFeedContinuity event =>
    refine .inl ?_
    simp only [act, Observer.onFeedContinuity]
    split
    · rfl
    · split
      · unfold Observer.captureReconnect
        simp only
        split <;> rfl
      · rfl
  | finalizeSession env => exact .inl finalizeSession_latest

/-- The artifact that a turn writes is that of its finalization. -/
theorem advance_windowArtifacts (task : Task) :
    windowArtifacts (o.advance config env task).1.files = windowArtifacts o.files ++
      match task.finalization with
      | some f => if env.windowWritten then [artifactOf config env o f] else []
      | none => [] := by
  obtain ⟨⟨entered, hentered, hrested⟩, -⟩ := @advance_cases config env o task
  rw [hrested.windowArtifacts]
  cases hentered with
  | same hfailed =>
    cases hf : task.finalization with
    | none => rw [List.append_nil]
    | some f => simp [hfailed f hf]
  | rolled hnone =>
    rw [hnone, rollSession_files, List.append_nil]
  | committed f hf hwritten =>
    rw [hf, commit_windowArtifacts]
    simp [hwritten]

end Latest

/-! ## Runs -/

/-- What holds in every state of a run. -/
structure Sourced (session : Option MarketSessionClassifier) (s : EvidenceSystem) : Prop where
  classifier : s.engine.session = session
  unclassified : Unclassified s.engine
  latest : Traced session s.sources s.pool.shared.latest
  frozen : ∀ process task f, s.pool.tasks.get process = some task → task.finalization = some f →
    Traced session ((s.frozen.get process).getD []) f.snapshots

theorem act_sourced {s : EvidenceSystem} (action : Action) (h : Sourced session s) :
    Sourced session (s.act config action) := by
  obtain ⟨hsession, hun, hlatest, hfrozen⟩ := h
  have hleft := hlatest.restrict (@act_latest config s.pool action)
  cases action with
  | turn turn =>
    cases turn with
    | start p call =>
      refine ⟨hsession, hun, hleft, ?_⟩
      intro q task f htask hf
      rcases @step_get _ _ _ _ _ (observing config) s.pool (.start p call) q task htask with
        ⟨hbefore, -⟩ | ⟨request, hstarted⟩ | ⟨choice, u, hadvance, -⟩
      · exact hfrozen q task f hbefore hf
      · cases hstarted
        cases hf
      · cases hadvance
    | advance p env =>
      refine ⟨hsession, hun, hleft, ?_⟩
      intro q task f htask hf
      simp only [EvidenceSystem.act]
      rcases @step_get _ _ _ _ _ (observing config) s.pool (.advance p env) q task htask with
        ⟨hbefore, hother⟩ | ⟨request, hstarted⟩ | ⟨choice, u, hadvance, hu, hrunning⟩
      · rw [Dict.get_set_ne _ _ (of_decide_eq_false hother)]
        exact hfrozen q task f hbefore hf
      · cases hstarted
        cases hf
      · cases hadvance
        rw [Dict.get_set_self, Option.getD_some]
        obtain ⟨f', hf', hsnapshots⟩ := (@advance_cases config env s.pool.shared u).2 task hrunning
        cases hf.symm.trans hf'
        rw [hsnapshots, ← act_turn_shared hu]
        exact hleft
  | subscribe now =>
    refine ⟨hsession, hun, hleft, ?_⟩
    simp only [EvidenceSystem.act, EvidenceObserver.act]
    split
    · exact hfrozen
    · exact hfrozen
  | unsubscribe => exact ⟨hsession, hun, hleft, hfrozen⟩
  | onFeedContinuity event => exact ⟨hsession, hun, hleft, hfrozen⟩
  | finalizeSession env => exact ⟨hsession, hun, hleft, hfrozen⟩

theorem onContext_sourced {s : EvidenceSystem} {source : Handed} (hstamped : source.Stamped session)
    (h : Sourced session s) : Sourced session (s.onContext source) := by
  obtain ⟨hsession, hun, hlatest, hfrozen⟩ := h
  refine ⟨hsession, hun, ?_, hfrozen⟩
  unfold EvidenceSystem.onContext SessionOhlcEvidenceObserver.onContext Observer.recordSnapshot
  cases hsnapshot : snapshotOf source.context with
  | none => exact hlatest
  | some snapshot => exact hlatest.set hsnapshot hstamped _

theorem step_sourced {s : EvidenceSystem} (op : SystemOp) (h : Sourced session s) :
    Sourced session (s.step config op).1 := by
  cases op with
  | act action => exact act_sourced action h
  | call op later =>
    obtain ⟨hsession, hun, hlatest, hfrozen⟩ := h
    have hconfig := (step_config s.engine (withObserver s.pool.shared.subscribed later op)).1.trans hsession
    have hun' := step_unclassified hun (withObserver s.pool.shared.subscribed later op)
    simp only [EvidenceSystem.step]
    split
    · rename_i source hhanded
      have hstamped := handed_stamped hun hhanded
      rw [hsession] at hstamped
      exact onContext_sourced hstamped ⟨hconfig, hun', hlatest, hfrozen⟩
    · exact ⟨hconfig, hun', hlatest, hfrozen⟩

theorem step_dated_iff {s : EvidenceSystem} (op : SystemOp) (h : Sourced session s) :
    (∀ w ∈ (s.step config op).2, Dated config w) ↔ FrozenOfDate config s op := by
  have hnothing : ∀ w ∈ ([] : List Written), Dated config w := fun w hw => by cases hw
  cases op with
  | call op later =>
    refine iff_of_true ?_ trivial
    simp only [EvidenceSystem.step]
    split
    · exact hnothing
    · exact hnothing
  | act action =>
    cases action with
    | turn turn =>
      cases turn with
      | start p call => exact iff_of_true hnothing trivial
      | advance p env =>
        simp only [EvidenceSystem.step, EvidenceSystem.written, FrozenOfDate]
        cases htask : s.pool.tasks.get p with
        | none =>
          have hsame : (EvidenceObserver.act config s.pool (.turn (.advance p env))).1 = s.pool := by
            simp only [EvidenceObserver.act, Program.step, htask]
          rw [hsame, List.drop_length]
          exact iff_of_true hnothing fun task f hnone => by cases hnone
        | some task =>
          rw [act_turn_shared htask, advance_windowArtifacts, List.drop_left]
          cases hf : task.finalization with
          | none =>
            refine iff_of_true hnothing ?_
            intro task' f htask' hf'
            cases htask'
            rw [hf] at hf'
            cases hf'
          | some f =>
            by_cases hwritten : env.windowWritten = true
            · simp only [hwritten, if_true]
              rw [List.map_singleton, List.forall_mem_singleton,
                (h.frozen p task f htask hf).artifact_dated_iff]
              constructor
              · intro hall task' f' htask' hf' _
                cases htask'
                cases hf.symm.trans hf'
                exact hall
              · intro hall
                exact hall task f rfl hf trivial
            · simp only [if_neg hwritten]
              exact iff_of_true hnothing fun task' f' _ _ hcase => absurd hcase hwritten
    | _ => exact iff_of_true hnothing trivial

/-- **Whose prices are written.**  In every run of a new engine and a new observer, with ticks, quotes and
    references in any order, any other subscribers, polls and captures in any interleaving, all window
    artifacts have the prices of ticks of their date, exactly when the contexts of their snapshots are of
    the date. -/
theorem dated_iff (config : Config) (known : List Instrument) (session : Option MarketSessionClassifier)
    (candles : Option CandleEngine) (authority : SessionStatisticsAuthority) (ops : List SystemOp) :
    (∀ written ∈ outs (EvidenceSystem.step config) ⟨create known session candles authority, idle, [], []⟩
        ops, ∀ w ∈ written, Dated config w) ↔
      Along (EvidenceSystem.step config) (FrozenOfDate config)
        ⟨create known session candles authority, idle, [], []⟩ ops := by
  refine @outs_forall_iff _ _ _ _ _ (Sourced session) (fun written => ∀ w ∈ written, Dated config w)
    (fun _ op h => step_sourced op h) (fun _ op h => step_dated_iff op h) ops _ ?_
  refine ⟨rfl, ?_, Traced.empty, ?_⟩
  · intro _ i c hc
    cases hc
  · intro process task f htask
    cases htask

/-! ## A reference after the roll -/

def nseConfig : Config where
  instruments := [reliance]
  classify := fun instant => nseClassifier.classify instant false
  sourceSha := "deadbee"
  exchangeTimezone := kolkata

/-- A reference of `reliance` at 09:21 of 2024-10-07. -/
def referenceAfterOpen : TickEngine.Op :=
  .process (.reference ⟨reliance, rupees 100⟩) (20003 * day + 231 * minute) (20003 * day + 231 * minute)
    acceptingBus

/-- A tick and a poll on 2024-10-04; on 2024-10-07 the early window begins, the reference arrives, and the
    universe is covered. -/
def overWeekend : List SystemOp :=
  [.act (.subscribe 0), .call aggregateTick {}] ++ (pollAt 20000 560 ++ pollAt 20003 560).map .act ++
    [.call referenceAfterOpen {}] ++ (waitingPollAt 20003 562).map .act

/-- The date of the tick whose prices an artifact has for a key. -/
def tickDate (config : Config) (w : Written) (key : String) : Option Int :=
  (w.sources.get key).bind fun h => h.context.latestTick.map fun t => localDateOf config t.eventTimestamp

/-- The early artifact of 2024-10-07 has the prices of 2024-10-04. -/
theorem reference_after_roll :
    ¬ ∀ written ∈ outs (EvidenceSystem.step nseConfig)
        ⟨create [reliance] (some nseClassifier) none {}, idle, [], []⟩ overWeekend,
      ∀ w ∈ written, Dated nseConfig w := by
  intro h
  obtain ⟨w, inst, obs, hw, hinst, hobs, hdate, htick⟩ : ∃ w inst obs,
      [w] ∈ outs (EvidenceSystem.step nseConfig)
        ⟨create [reliance] (some nseClassifier) none {}, idle, [], []⟩ overWeekend ∧
      inst ∈ w.artifact.record.instruments ∧ obs ∈ inst.wsObservations ∧
      w.artifact.tradingDate = 20003 ∧ tickDate nseConfig w inst.securityId = some 20000 := by
    refine ⟨_, _, _, List.mem_of_getElem? (i := 9) rfl, List.mem_cons_self, List.mem_cons_self, rfl, ?_⟩
    rfl
  obtain ⟨source, t, hsource, ht, -, htoday⟩ := h [w] hw w List.mem_cons_self inst hinst obs hobs
  unfold tickDate at htick
  rw [hsource, Option.bind_some, ht, Option.map_some, htoday, hdate] at htick
  cases htick

end ApexScan.EvidenceObserver
