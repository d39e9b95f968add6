import ApexScan.Evidence.Collect

/-!
# Runs of the collector

* `Round`, `runs_runCollect` — a run that returns, round by round.
* `Tidy`, `Released` — what a run does between its connect and its disconnect.
* `FromStream`, `FromOracle` — where an observation comes from.

Main results: `collect_releases`, `collect_observed`.
-/

set_option autoImplicit false

namespace ApexScan.Evidence.Collect

open Lib
open Dhan (DhanInstrumentReference)

/-! ## Runs -/

section Runs

variable {α β : Type} {trace : List Event} {instruments : List Instrument} {window : String}

theorem runs_sampleWs {expected : ℕ} {result : Except CollectError Sample}
    (h : Interaction.Runs (sampleWs instruments window expected) trace result) :
    ∃ streamed closed, trace = [⟨.stream instruments, streamed⟩, ⟨.closeStream, closed⟩] ∧
      ∀ sample, result = .ok sample → closed = .ok () ∧ sampled window expected streamed = .ok sample := by
  unfold sampleWs at h
  obtain ⟨streamed, t, hclose, rfl⟩ := Interaction.runs_bind_request.mp h
  obtain ⟨closed, t', hend, rfl⟩ := Interaction.runs_bind_request.mp hclose
  rcases Interaction.runs_bind_ofExcept.mp hend with ⟨e, hclosed, rfl, rfl⟩ | ⟨u, hclosed, hsample⟩
  · exact ⟨streamed, closed, rfl, fun sample hok => by cases hok⟩
  · obtain ⟨rfl, rfl⟩ := Interaction.runs_ofExcept.mp hsample
    exact ⟨streamed, closed, rfl, fun sample hok => ⟨hclosed, hok⟩⟩

theorem runs_fetchRest {tradingDate observedAt : Int} {result : Except CollectError Sample}
    (h : Interaction.Runs (fetchRest instruments window tradingDate observedAt) trace result) :
    ∃ answer, trace = [⟨.sessionStatistics instruments tradingDate observedAt, answer⟩] ∧
      ∀ sample, result = .ok sample →
        ∃ observations, answer = .ok observations ∧ sample = restSample window observations := by
  unfold fetchRest at h
  obtain ⟨answer, t, hend, rfl⟩ := Interaction.runs_bind_request.mp h
  obtain ⟨rfl, rfl⟩ := Interaction.runs_ofExcept.mp hend
  refine ⟨answer, rfl, fun sample hok => ?_⟩
  cases hanswer : (answer : Except CollectError (List SessionStatisticsObservation)) with
  | error e =>
    rw [hanswer] at hok
    cases hok
  | ok observations =>
    rw [hanswer] at hok
    cases hok
    exact ⟨observations, rfl, rfl⟩

/-- A run that does not connect ends there; any other disconnects after its body and goes on only where
    that and the body have succeeded. -/
theorem runs_connected {body : Action α} {finish : Int → α → Action β} {result : Except CollectError β}
    (h : Interaction.Runs (connected body finish) trace result) :
    (∃ e, trace = [⟨.connect, .error e⟩] ∧ result = .error e) ∨
      ∃ starts first outcome disconnected rest, Interaction.Runs body first outcome ∧
        trace = ⟨.connect, .ok ()⟩ :: ⟨.now, starts⟩ :: (first ++ ⟨.disconnect, disconnected⟩ :: rest) ∧
        (rest = [] ∧ (∃ e, result = .error e) ∨
          ∃ a, disconnected = .ok () ∧ outcome = .ok a ∧ Interaction.Runs (finish starts a) rest result) := by
  unfold connected at h
  obtain ⟨answer, t, hconnect, rfl⟩ := Interaction.runs_bind_request.mp h
  rcases Interaction.runs_bind_ofExcept.mp hconnect with ⟨e, rfl, rfl, rfl⟩ | ⟨u, rfl, hstart⟩
  · exact .inl ⟨e, rfl, rfl⟩
  obtain ⟨starts, t', hattempt, rfl⟩ := Interaction.runs_bind_request.mp hstart
  obtain ⟨outcome, first, t'', hbody, hrelease, rfl⟩ := Interaction.runs_bind_attempt.mp hattempt
  obtain ⟨disconnected, rest, hend, rfl⟩ := Interaction.runs_bind_request.mp hrelease
  refine .inr ⟨starts, first, outcome, disconnected, rest, hbody, rfl, ?_⟩
  rcases Interaction.runs_bind_ofExcept.mp hend with ⟨e, rfl, rfl, rfl⟩ | ⟨u', rfl, hresult⟩
  · exact .inl ⟨rfl, e, rfl⟩
  rcases Interaction.runs_bind_ofExcept.mp hresult with ⟨e, rfl, rfl, rfl⟩ | ⟨a, rfl, hfinish⟩
  · exact .inl ⟨rfl, e, rfl⟩
  · exact .inr ⟨a, rfl, rfl, hfinish⟩

/-- What a connected run returns. -/
theorem runs_connected_ok {body : Action α} {finish : Int → α → Action β} {b : β}
    (h : Interaction.Runs (connected body finish) trace (.ok b)) :
    ∃ starts first a rest, Interaction.Runs body first (.ok a) ∧
      Interaction.Runs (finish starts a) rest (.ok b) ∧
      trace = ⟨.connect, .ok ()⟩ :: ⟨.now, starts⟩ :: (first ++ ⟨.disconnect, .ok ()⟩ :: rest) := by
  rcases runs_connected h with ⟨e, -, hresult⟩ |
    ⟨starts, first, outcome, disconnected, rest, hbody, htrace, ⟨-, e, hresult⟩ | ⟨a, rfl, rfl, hfinish⟩⟩
  · cases hresult
  · cases hresult
  · exact ⟨starts, first, a, rest, hbody, hfinish, htrace⟩

/-! ## Rounds -/

/-- A round of `run_collect`: what it was answered, and the sample it took. -/
structure Round where
  window : String
  observedAt : Int
  streamed : Streamed
  ws : Sample
  observations : List SessionStatisticsObservation

/-- The exchanges of a round. -/
def Round.exchanges (instruments : List Instrument) (tradingDate : Int) (r : Round) : List Event :=
  [⟨.now, r.observedAt⟩, ⟨.stream instruments, r.streamed⟩, ⟨.closeStream, .ok ()⟩,
    ⟨.sessionStatistics instruments tradingDate r.observedAt, .ok r.observations⟩]

/-- What a round adds to what is accumulated. -/
def Round.add (acc : Accumulated × Accumulated) (r : Round) : Accumulated × Accumulated :=
  (accumulate r.window acc.1 r.ws, accumulate r.window acc.2 (restSample r.window r.observations))

/-- The sample of a round is that of its stream. -/
def Round.Sampled (instruments : List Instrument) (r : Round) : Prop :=
  sampled r.window instruments.length r.streamed = .ok r.ws

/-- The loop makes one round for each window, in order. -/
theorem runs_collectWindows {tradingDate : Int} {acc acc' : Accumulated × Accumulated}
    {windows : List String}
    (h : Interaction.Runs (collectWindows instruments tradingDate acc windows) trace (.ok acc')) :
    ∃ rounds : List Round, rounds.map (·.window) = windows ∧
      trace = rounds.flatMap (Round.exchanges instruments tradingDate) ∧
      (∀ r ∈ rounds, r.Sampled instruments) ∧ acc' = rounds.foldl Round.add acc := by
  induction windows generalizing acc trace with
  | nil =>
    obtain ⟨rfl, heq⟩ := Interaction.runs_pure.mp h
    cases heq
    exact ⟨[], rfl, rfl, fun r hr => (by cases hr), rfl⟩
  | cons window windows ih =>
    rw [collectWindows] at h
    obtain ⟨observedAt, t, hround, rfl⟩ := Interaction.runs_bind_request.mp h
    obtain ⟨ws, first, t', hws, hsampled, rfl⟩ := Interaction.runs_bind_ok.mp hround
    obtain ⟨rest, second, t'', hrest, hlater, rfl⟩ := Interaction.runs_bind_ok.mp hsampled
    obtain ⟨streamed, closed, rfl, hstreamed⟩ := runs_sampleWs hws
    obtain ⟨rfl, htaken⟩ := hstreamed ws rfl
    obtain ⟨answer, rfl, hanswer⟩ := runs_fetchRest hrest
    obtain ⟨observations, rfl, rfl⟩ := hanswer rest rfl
    obtain ⟨rounds, rfl, rfl, hall, rfl⟩ := ih hlater
    refine ⟨⟨window, observedAt, streamed, ws, observations⟩ :: rounds, rfl, rfl, ?_, rfl⟩
    intro r hr
    rcases List.mem_cons.mp hr with rfl | hr
    · exact htaken
    · exact hall r hr

end Runs

/-! ## The adapter is released -/

/-- Every stream is closed before anything else is asked, and nothing else is. -/
def StreamsClosed : List Query → Prop
  | [] => True
  | .stream _ :: .closeStream :: rest => StreamsClosed rest
  | .stream _ :: _ => False
  | .closeStream :: _ => False
  | _ :: rest => StreamsClosed rest

theorem streamsClosed_append {first second : List Query} (hfirst : StreamsClosed first)
    (hsecond : StreamsClosed second) : StreamsClosed (first ++ second) := by
  fun_induction StreamsClosed first with
  | case1 => exact hsecond
  | case2 instruments rest ih => exact ih hfirst
  | case3 => exact hfirst.elim
  | case4 => exact hfirst.elim
  | case5 q rest hstream hopen hclose ih =>
    rw [List.cons_append, StreamsClosed]
    · exact ih hfirst
    all_goals simp_all

/-- What a run does while it is connected. -/
structure Tidy (trace : List Event) : Prop where
  closed : StreamsClosed (trace.map (·.request))
  inner : ∀ x ∈ trace, x.request ≠ .connect ∧ x.request ≠ .disconnect

theorem tidy_nil : Tidy [] := ⟨trivial, fun x hx => by cases hx⟩

theorem tidy_append (first second : List Event) (hfirst : Tidy first) (hsecond : Tidy second) :
    Tidy (first ++ second) := by
  refine ⟨?_, ?_⟩
  · rw [List.map_append]
    exact streamsClosed_append hfirst.closed hsecond.closed
  · intro x hx
    rcases List.mem_append.mp hx with hx | hx
    · exact hfirst.inner x hx
    · exact hsecond.inner x hx

theorem tidy_bind {α β : Type} {p : Action α} {f : α → Action β} (hp : Interaction.Traces Tidy p)
    (hf : ∀ a, Interaction.Traces Tidy (f a)) : Interaction.Traces Tidy (p >>= f) :=
  Interaction.traces_bind tidy_append hp hf

theorem tidy_ofExcept {α : Type} (outcome : Except CollectError α) :
    Interaction.Traces Tidy (Interaction.ofExcept outcome : Action α) :=
  Interaction.traces_done tidy_nil outcome

theorem tidy_now : Interaction.Traces Tidy (Interaction.request Query.now : Action Int) := by
  intro trace outcome h
  obtain ⟨answer, rfl, -⟩ := Interaction.runs_request.mp h
  refine ⟨trivial, fun x hx => ?_⟩
  rw [List.mem_singleton.mp hx]
  exact ⟨Query.noConfusion, Query.noConfusion⟩

theorem tidy_sampleWs (instruments : List Instrument) (window : String) (expected : ℕ) :
    Interaction.Traces Tidy (sampleWs instruments window expected) := by
  intro trace outcome h
  obtain ⟨streamed, closed, rfl, -⟩ := runs_sampleWs h
  refine ⟨trivial, fun x hx => ?_⟩
  rcases List.mem_cons.mp hx with rfl | hx
  · exact ⟨Query.noConfusion, Query.noConfusion⟩
  · rw [List.mem_singleton.mp hx]
    exact ⟨Query.noConfusion, Query.noConfusion⟩

theorem tidy_fetchRest (instruments : List Instrument) (window : String) (tradingDate observedAt : Int) :
    Interaction.Traces Tidy (fetchRest instruments window tradingDate observedAt) := by
  intro trace outcome h
  obtain ⟨answer, rfl, -⟩ := runs_fetchRest h
  refine ⟨trivial, fun x hx => ?_⟩
  rw [List.mem_singleton.mp hx]
  exact ⟨Query.noConfusion, Query.noConfusion⟩

theorem tidy_collectWindows (instruments : List Instrument) (tradingDate : Int) (windows : List String)
    (acc : Accumulated × Accumulated) :
    Interaction.Traces Tidy (collectWindows instruments tradingDate acc windows) := by
  induction windows generalizing acc with
  | nil => exact tidy_ofExcept (.ok acc)
  | cons window windows ih =>
    apply tidy_bind tidy_now
    intro observedAt
    apply tidy_bind (tidy_sampleWs instruments window instruments.length)
    intro ws
    apply tidy_bind (tidy_fetchRest instruments window tradingDate observedAt)
    intro rest
    exact ih _

theorem tidy_loadUniverse : Interaction.Traces Tidy loadUniverse := by
  apply tidy_bind
  · intro trace outcome h
    obtain ⟨answer, rfl, -⟩ := Interaction.runs_request.mp h
    refine ⟨trivial, fun x hx => ?_⟩
    rw [List.mem_singleton.mp hx]
    exact ⟨Query.noConfusion, Query.noConfusion⟩
  · exact tidy_ofExcept

theorem tidy_captureLateStart (instrument : Instrument) (tradingDate observedAt : Int) :
    Interaction.Traces Tidy (captureLateStart instrument tradingDate observedAt) := by
  apply tidy_bind (tidy_fetchRest [instrument] "prior" tradingDate observedAt)
  intro rest
  apply tidy_bind (tidy_sampleWs [instrument] "first" 1)
  intro ws
  exact tidy_ofExcept (.ok _)

theorem tidy_captureReconnect (instrument : Instrument) :
    Interaction.Traces Tidy (captureReconnect instrument) := by
  apply tidy_bind (tidy_sampleWs [instrument] "pre" 1)
  intro pre
  apply tidy_bind (tidy_sampleWs [instrument] "post" 1)
  intro post
  exact tidy_ofExcept (.ok _)

/-- The adapter is connected once, and where that succeeds it is disconnected once: after all that it is
    asked for, with every stream closed, and before nothing but a look at the clock. -/
def Released (trace : List Event) : Prop :=
  (∃ e, trace = [⟨.connect, .error e⟩]) ∨
    ∃ during disconnected after, trace = ⟨.connect, .ok ()⟩ :: (during ++ ⟨.disconnect, disconnected⟩ :: after) ∧
      Tidy during ∧ ∀ x ∈ after, x.request = .now

theorem released_connected {α β : Type} {body : Action α} {finish : Int → α → Action β}
    (hbody : Interaction.Traces Tidy body)
    (hfinish : ∀ starts a, Interaction.Asks (· = .now) (finish starts a)) :
    Interaction.Traces Released (connected body finish) := by
  intro trace outcome h
  rcases runs_connected h with ⟨e, rfl, -⟩ |
    ⟨starts, first, result, disconnected, rest, hfirst, rfl, hrest⟩
  · exact .inl ⟨e, rfl⟩
  · refine .inr ⟨⟨.now, starts⟩ :: first, disconnected, rest, rfl, ?_, ?_⟩
    · have hstart : Tidy [⟨.now, starts⟩] :=
        tidy_now _ _ (Interaction.runs_request.mpr ⟨starts, rfl, rfl⟩)
      exact tidy_append _ _ hstart (hbody _ _ hfirst)
    · rcases hrest with ⟨rfl, -⟩ | ⟨a, -, -, hlast⟩
      · intro x hx
        cases hx
      · exact hfinish starts a _ _ hlast

/-- A last look at the clock. -/
theorem asks_finish {β : Type} (f : Int → β) :
    Interaction.Asks (· = .now)
      (Interaction.request Query.now >>= fun ends => (pure (f ends) : Action β)) :=
  Interaction.asks_bind (Interaction.asks_request rfl) fun _ => Interaction.asks_done _

/-- **However a run of the collector ends, it has released the adapter.** -/
theorem collect_releases (job : Job) : Interaction.Traces Released job.run := by
  cases job with
  | collect windows session tickSize =>
    apply released_connected
    · apply tidy_bind tidy_loadUniverse
      intro references
      apply tidy_bind (tidy_ofExcept _)
      intro instruments
      apply tidy_bind (tidy_collectWindows instruments session.tradingDate windows _)
      intro acc
      exact tidy_ofExcept (.ok _)
    · intro starts result
      exact asks_finish _
  | lateStart symbol session =>
    apply released_connected
    · apply tidy_bind tidy_loadUniverse
      intro references
      apply tidy_bind (tidy_ofExcept _)
      intro ref
      apply tidy_bind tidy_now
      intro observedAt
      apply tidy_bind (tidy_captureLateStart ref.instrument session.tradingDate observedAt)
      intro late
      exact tidy_ofExcept (.ok _)
    · intro starts result
      exact asks_finish _
  | reconnect symbol session =>
    apply released_connected
    · apply tidy_bind tidy_loadUniverse
      intro references
      apply tidy_bind (tidy_ofExcept _)
      intro ref
      apply tidy_bind (tidy_captureReconnect ref.instrument)
      intro reconnect
      exact tidy_ofExcept (.ok _)
    · intro starts result
      exact asks_finish _

/-! ## Where the observations come from -/

/-- A round whose stream has yielded an observation of its window. -/
def FromStream (rounds : List Round) (key window : String) (o : OhlcObservation) : Prop :=
  ∃ r ∈ rounds, r.window = window ∧ ∃ datum ∈ r.streamed.data, wsObservation window datum = some (key, o)

/-- A round whose oracle has told of an observation. -/
def FromOracle (rounds : List Round) (key window : String) (o : OhlcObservation) : Prop :=
  ∃ r ∈ rounds, r.window = window ∧
    ∃ obs ∈ r.observations, instrumentKey obs.instrument = key ∧ o = restObservation window obs

theorem holds_rounds {instruments : List Instrument} {rounds all : List Round}
    {acc : Accumulated × Accumulated} (hsampled : ∀ r ∈ rounds, r.Sampled instruments)
    (hall : ∀ r ∈ rounds, r ∈ all) (hws : Holds (FromStream all) acc.1)
    (hrest : Holds (FromOracle all) acc.2) :
    Holds (FromStream all) (rounds.foldl Round.add acc).1 ∧
      Holds (FromOracle all) (rounds.foldl Round.add acc).2 := by
  induction rounds generalizing acc with
  | nil => exact ⟨hws, hrest⟩
  | cons r rounds ih =>
    have hr := hall r List.mem_cons_self
    apply ih (fun r' hr' => hsampled r' (List.mem_cons_of_mem _ hr'))
      fun r' hr' => hall r' (List.mem_cons_of_mem _ hr')
    · refine holds_accumulate hws fun kv hkv => ?_
      obtain ⟨datum, hdatum, hobs⟩ := mem_sampled (hsampled r List.mem_cons_self) hkv
      exact ⟨r, hr, rfl, datum, hdatum, hobs⟩
    · refine holds_accumulate hrest fun kv hkv => ?_
      obtain ⟨obs, hobs, rfl⟩ := mem_restSample hkv
      exact ⟨r, hr, rfl, obs, hobs, rfl, rfl⟩

/-- The exchanges of a `run_collect` that returns. -/
def exchangesOf (references : List DhanInstrumentReference) (tradingDate starts ends : Int)
    (rounds : List Round) : List Event :=
  ⟨.connect, .ok ()⟩ :: ⟨.now, starts⟩ :: ⟨.liveUniverse, .ok references⟩ ::
    (rounds.flatMap (Round.exchanges (references.map (·.instrument)) tradingDate) ++
      [⟨.disconnect, .ok ()⟩, ⟨.now, ends⟩])

/-- A `run_collect` that returns has made its rounds, and assembled what they accumulate. -/
theorem runs_runCollect {windows : List String} {session : Session} {tickSize : Option ℚ}
    {trace : List Event} {record : EvidenceRecord}
    (h : Interaction.Runs (runCollect windows session tickSize) trace (.ok record)) :
    ∃ references rounds starts ends, rounds.map (·.window) = windows ∧
      trace = exchangesOf references session.tradingDate starts ends rounds ∧
      (∀ r ∈ rounds, r.Sampled (references.map (·.instrument))) ∧
      record = assemble references (rounds.foldl Round.add ([], [])).1
        (rounds.foldl Round.add ([], [])).2 session tickSize windows starts ends := by
  obtain ⟨starts, first, result, rest, hbody, hfinish, rfl⟩ := runs_connected_ok h
  obtain ⟨references, t, t', huniverse, hrequest, rfl⟩ := Interaction.runs_bind_ok.mp hbody
  obtain ⟨instruments, t₁, t₂, hsubscribe, hwindows, rfl⟩ := Interaction.runs_bind_ok.mp hrequest
  obtain ⟨acc, t₃, t₄, hloop, hpure, rfl⟩ := Interaction.runs_bind_ok.mp hwindows
  obtain ⟨answer, t₅, hanswer, rfl⟩ := Interaction.runs_bind_request.mp huniverse
  obtain ⟨rfl, hreferences⟩ := Interaction.runs_ofExcept.mp hanswer
  obtain ⟨rfl, hinstruments⟩ := Interaction.runs_ofExcept.mp hsubscribe
  obtain ⟨rfl, hresult⟩ := Interaction.runs_pure.mp hpure
  obtain ⟨rounds, hrounds, rfl, hsampled, rfl⟩ := runs_collectWindows hloop
  obtain ⟨ends, t₆, hrecord, rfl⟩ := Interaction.runs_bind_request.mp hfinish
  obtain ⟨rfl, hassembled⟩ := Interaction.runs_pure.mp hrecord
  have hsame : instruments = references.map (·.instrument) := by
    unfold subscription at hinstruments
    split at hinstruments
    · cases hinstruments
      rfl
    · cases hinstruments
  subst hsame
  cases hresult
  cases hreferences
  cases hassembled
  refine ⟨references, rounds, starts, ends, hrounds, ?_, hsampled, rfl⟩
  simp [exchangesOf]

/-- Every observation of an assembled instrument is an accumulated one. -/
theorem mem_assemble {references : List DhanInstrumentReference} {wsAcc restAcc : Accumulated}
    {session : Session} {tickSize : Option ℚ} {windows : List String} {starts ends : Int}
    {inst : InstrumentEvidence}
    (h : inst ∈ (assemble references wsAcc restAcc session tickSize windows starts ends).instruments) :
    ∃ ref ∈ references, inst = buildInstrumentEvidence ref.instrument ref.securityId session.tradingDate
      ((wsAcc.get inst.identity).getD []) ((restAcc.get inst.identity).getD []) tickSize := by
  obtain ⟨ref, href, hinst⟩ := List.mem_filterMap.mp h
  dsimp only at hinst
  split at hinst
  · cases hinst
  · cases hinst
    exact ⟨ref, href, rfl⟩

theorem holds_of_mem {P : String → String → OhlcObservation → Prop} {acc : Accumulated}
    (hacc : Holds P acc) {key : String} {o : OhlcObservation}
    (h : o ∈ inWindowOrder ((acc.get key).getD [])) : ∃ w, P key w o := by
  obtain ⟨w, hw⟩ := mem_inWindowOrder.mp h
  cases hget : acc.get key with
  | none =>
    rw [hget] at hw
    cases hw
  | some byWindow =>
    rw [hget] at hw
    exact ⟨w, hacc key byWindow w o hget hw⟩

/-- **Nothing in a collected record is invented.**  A run that returns has asked for one round in each
    window, in order, and every observation of the record has been yielded in a round of its window: by
    the stream, or by the oracle. -/
theorem collect_observed (windows : List String) (session : Session) (tickSize : Option ℚ) :
    ∀ trace record, Interaction.Runs (runCollect windows session tickSize) trace (.ok record) →
      ∃ references rounds starts ends,
        trace = exchangesOf references session.tradingDate starts ends rounds ∧
        rounds.map (·.window) = windows ∧
        record.expectedInstruments = references.map (fun ref => instrumentKey ref.instrument) ∧
        ∀ inst ∈ record.instruments, inst.identity ∈ record.expectedInstruments ∧
          (∀ o ∈ inst.wsObservations, FromStream rounds inst.identity o.window o) ∧
          ∀ o ∈ inst.restObservations, FromOracle rounds inst.identity o.window o := by
  intro trace record h
  obtain ⟨references, rounds, starts, ends, hrounds, rfl, hsampled, rfl⟩ := runs_runCollect h
  obtain ⟨hws, hrest⟩ := @holds_rounds _ rounds rounds ([], []) hsampled (fun r hr => hr) (holds_nil _)
    (holds_nil _)
  refine ⟨references, rounds, starts, ends, rfl, hrounds, rfl, ?_⟩
  intro inst hinst
  obtain ⟨ref, href, hbuilt⟩ := mem_assemble hinst
  refine ⟨?_, ?_, ?_⟩
  · rw [hbuilt]
    exact List.mem_map_of_mem href
  · intro o ho
    rw [hbuilt] at ho
    obtain ⟨w, hseen⟩ := holds_of_mem hws ho
    obtain ⟨r, hr, hw, datum, hdatum, hobs⟩ := hseen
    have hlabel : o.window = w := (wsObservation_full hobs).1.window_eq
    rw [hlabel]
    exact ⟨r, hr, hw, datum, hdatum, hobs⟩
  · intro o ho
    rw [hbuilt] at ho
    obtain ⟨w, hseen⟩ := holds_of_mem hrest ho
    obtain ⟨r, hr, hw, obs, hobs, hkey, heq⟩ := hseen
    have hlabel : o.window = w := by
      rw [heq]
      rfl
    rw [hlabel]
    exact ⟨r, hr, hw, obs, hobs, hkey, heq⟩

/-! ## A session of two instruments -/

theorem infy_ne : "INFY" ≠ "" := by decide

def infy : Instrument := { reliance with symbol := "INFY", symbol_ne := infy_ne }

/-- Prices that have risen from 100 rupees by `n`. -/
def risenOhlc (n : ℕ) : ProviderSessionOhlc where
  openPrice := rupees 100
  highPrice := rupees (100 + n)
  lowPrice := rupees 100
  closePrice := rupees (100 + n)
  low_le_high := rupees_le_add 100 n
  open_within := ⟨le_rfl, rupees_le_add 100 n⟩
  close_within := ⟨rupees_le_add 100 n, le_rfl⟩

/-- How often a run has looked at the clock. -/
def looks (history : List Event) : ℕ := history.countP fun x => x.request = .now

/-- The time of the session at a look. -/
def timeAt (look : ℕ) : Int := 20666 * day + look * minute

/-- The answers of a session in which each stream shows one tick of each of its instruments: at every
    look the prices have risen by `rise`, and the oracle tells of the instruments in `told`. -/
def sessionAnswer (rise : ℕ → ℕ) (told : List Instrument) (history : List Event) :
    (q : Query) → Answer q
  | .connect => .ok ()
  | .liveUniverse => .ok [⟨reliance, "2885", some "NSE_EQ"⟩, ⟨infy, "1594", some "NSE_EQ"⟩]
  | .now => timeAt (looks history)
  | .stream instruments =>
    ⟨instruments.map fun i => .tick
      { instrument := i
        eventTimestamp := timeAt (looks history)
        lastPrice := rupees (100 + rise (looks history))
        sessionOhlc := some (risenOhlc (rise (looks history))) }, none⟩
  | .closeStream => .ok ()
  | .sessionStatistics instruments tradingDate observedAt =>
    .ok ((instruments.filter (· ∈ told)).map fun i =>
      ⟨i, tradingDate, observedAt, risenOhlc (rise (looks history))⟩)
  | .disconnect => .ok ()

/-- What a job returns with these answers. -/
def sessionRecord (rise : ℕ → ℕ) (told : List Instrument) (job : Job) : Option EvidenceRecord :=
  (Interaction.exec (sessionAnswer rise told) job.run []).2.toOption

def quietSession : Session := ⟨20666, "2026-08-01", "deadbee"⟩

theorem runs_of_sessionRecord {rise : ℕ → ℕ} {told : List Instrument} {job : Job}
    {record : EvidenceRecord} (h : sessionRecord rise told job = some record) :
    ∃ trace, Interaction.Runs job.run trace (.ok record) := by
  have hruns := Interaction.exec_runs (sessionAnswer rise told) job.run []
  unfold sessionRecord at h
  cases hresult : (Interaction.exec (sessionAnswer rise told) job.run []).2 with
  | error e =>
    rw [hresult] at h
    cases h
  | ok r =>
    rw [hresult] at h hruns
    cases h
    exact ⟨_, hruns⟩

theorem collected_of_session {rise : ℕ → ℕ} {told : List Instrument} {job : Job}
    {record : EvidenceRecord} (h : sessionRecord rise told job = some record) : Collected record :=
  ⟨job, runs_of_sessionRecord h⟩

/-- The identity and the highs of an instrument, of the stream and of the oracle. -/
def highsOf (inst : InstrumentEvidence) : String × List (Option ℚ) × List (Option ℚ) :=
  (inst.identity, inst.wsObservations.map (·.highPrice), inst.restObservations.map (·.highPrice))

/-- A rising morning of two instruments, of which the oracle knows one: each high is in the record
    where a round of its window has yielded it. -/
theorem risingMorning_observed :
    ∃ record, sessionRecord id [reliance] (.collect ["early", "mid"] quietSession none) = some record ∧
      record.instruments.map highsOf =
        [("NSE:RELIANCE", [some 102, some 103], [some 102, some 103]),
          ("NSE:INFY", [some 102, some 103], [])] ∧
      ∃ rounds : List Round, rounds.map (·.window) = ["early", "mid"] ∧
        ∀ inst ∈ record.instruments,
          (∀ o ∈ inst.wsObservations, FromStream rounds inst.identity o.window o) ∧
            ∀ o ∈ inst.restObservations, FromOracle rounds inst.identity o.window o := by
  have hhighs : (sessionRecord id [reliance] (.collect ["early", "mid"] quietSession none)).map
      (fun record => record.instruments.map highsOf) =
        some [("NSE:RELIANCE", [some 102, some 103], [some 102, some 103]),
          ("NSE:INFY", [some 102, some 103], [])] := by decide +kernel
  obtain ⟨record, hrecord, hinstruments⟩ := Option.map_eq_some_iff.mp hhighs
  obtain ⟨trace, hruns⟩ := runs_of_sessionRecord hrecord
  obtain ⟨references, rounds, starts, ends, -, hwindows, -, hall⟩ :=
    collect_observed ["early", "mid"] quietSession none trace record hruns
  exact ⟨record, hrecord, hinstruments, rounds, hwindows, fun inst hinst => (hall inst hinst).2⟩

end ApexScan.Evidence.Collect
