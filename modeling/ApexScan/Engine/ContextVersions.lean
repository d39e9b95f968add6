import ApexScan.Engine.TickEngine

/-!
# Versions and sequence numbers of published contexts

A context is published before it is stored.  When a subscriber raises, the sequence number is
consumed and the candle engine has absorbed the tick, but the instrument keeps its old context, so
the next accepted event of the instrument is published with the same version again.

* `publishedFor` — the context of an instrument that a call hands to the bus.
* `Delivers` — the subscribers of the moment accept the event the call publishes.

Main result: `published_versions_gap_free`.  Sequence numbers increase and a raising call keeps all
instrument states in every run; versions are `1, 2, 3, …` in every run whose publications are all
delivered.  `raising_subscriber_repeats_version` is a run that is not.
-/

set_option autoImplicit false

namespace ApexScan.TickEngine

open Lib

/-- The context that the call publishes. -/
def publishedContext (o : Option Emitted) : Option MarketContext :=
  (publishedBy o).map (·.context)

/-- The context of the instrument that the call publishes. -/
def publishedFor (i : Instrument) (o : Option Emitted) : Option MarketContext :=
  (publishedContext o).filter fun c => c.instrument = i

/-- Every subscriber of the moment accepts the event that the call publishes. -/
def Delivers (e : TickEngine) (op : Op) : Prop :=
  ∀ i p, pending e op = some (i, p) → (busOf op).publish p.event = .ok ()

variable {e : TickEngine} {op : Op}

theorem publishedContext_silent (h : pending e op = none) :
    publishedContext (step e op).2 = none := by
  rw [publishedContext, (step_silent h).1, Option.map_none]

theorem publishedContext_pending {i : Instrument} {p : Pending} (h : pending e op = some (i, p)) :
    publishedContext (step e op).2 = some p.event.context := by
  rw [publishedContext, (step_pending h).1, Option.map_some]

/-! ## Sequence numbers -/

/-- Sequence numbers issued along a run lie between the generator's values before and after. -/
theorem sequences_increase (ops : List Op) (e : TickEngine) :
    (((outs step e ops).filterMap publishedContext).map (·.sequence)).Pairwise (· < ·) ∧
      ∀ n ∈ ((outs step e ops).filterMap publishedContext).map (·.sequence), e.sequence < n := by
  induction ops generalizing e with
  | nil => simp
  | cons op ops ih =>
    obtain ⟨hpw, hlt⟩ := ih (step e op).1
    cases hp : pending e op with
    | none =>
      have hseq := (step_silent hp).2.2.2.1
      rw [hseq] at hlt
      simp only [outs_cons, List.filterMap_cons, publishedContext_silent hp]
      exact ⟨hpw, hlt⟩
    | some ip =>
      obtain ⟨i, p⟩ := ip
      have hseq := (step_pending hp).2.1
      have hctx := (pending_spec hp).2.2.1
      rw [hseq] at hlt
      simp only [outs_cons, List.filterMap_cons, publishedContext_pending hp, List.map_cons]
      refine ⟨List.Pairwise.cons ?_ hpw, ?_⟩
      · intro n hn
        rw [hctx]
        exact hlt n hn
      · intro n hn
        rcases List.mem_cons.mp hn with rfl | hn
        · omega
        · have := hlt n hn
          omega

/-! ## A raising call -/

/-- A call that raises leaves every instrument state as it was. -/
theorem raised_keeps_state (h : raisedBy (step e op).2 = true) (i : Instrument) :
    (step e op).1.stateOf i = e.stateOf i := by
  cases hp : pending e op with
  | none =>
    rw [(step_silent hp).2.2.1] at h
    cases h
  | some jp =>
    obtain ⟨j, p⟩ := jp
    rcases (step_pending hp).2.2 with ⟨_, -, -, -, hkeep⟩ | ⟨-, hraised, -⟩
    · exact hkeep i
    · rw [hraised] at h
      cases h

theorem delivers_not_raised (h : Delivers e op) : raisedBy (step e op).2 = false := by
  cases hp : pending e op with
  | none => exact (step_silent hp).2.2.1
  | some jp =>
    obtain ⟨j, p⟩ := jp
    rcases (step_pending hp).2.2 with ⟨_, herr, -⟩ | ⟨-, hraised, -⟩
    · rw [h j p hp] at herr
      cases herr
    · exact hraised

/-! ## Versions -/

/-- Stored contexts are stored under their own instrument. -/
def OwnContexts (e : TickEngine) : Prop :=
  ∀ i c, (e.stateOf i).context = some c → c.instrument = i

theorem pending_instrument (h : OwnContexts e) {i : Instrument} {p : Pending}
    (hp : pending e op = some (i, p)) : p.event.context.instrument = i := by
  rw [(pending_spec hp).2.1]
  cases hc : (e.stateOf i).context with
  | none => rfl
  | some c => exact h i c hc

theorem step_ownContexts (h : OwnContexts e) (op : Op) : OwnContexts (step e op).1 := by
  intro j c hc
  cases hp : pending e op with
  | none =>
    rw [((step_silent hp).2.2.2.2 j).1] at hc
    exact h j c hc
  | some ip =>
    obtain ⟨i, p⟩ := ip
    rcases (step_pending hp).2.2 with ⟨_, -, -, -, hkeep⟩ | ⟨-, -, -, hstore⟩
    · rw [hkeep j] at hc
      exact h j c hc
    · rw [hstore j] at hc
      split at hc
      · rename_i hij
        rw [(pending_spec hp).2.2.2] at hc
        rw [← Option.some.inj hc, pending_instrument h hp, hij]
      · exact h j c hc

/-- **One delivered call**: what it publishes for an instrument has the next version, which is then
    the stored one. -/
theorem step_versions (h : OwnContexts e) (hop : Delivers e op) (i : Instrument) :
    (publishedFor i (step e op).2).toList.map (·.version) =
      List.range' (versionOf (e.stateOf i).context + 1)
        (versionOf ((step e op).1.stateOf i).context - versionOf (e.stateOf i).context) ∧
      versionOf (e.stateOf i).context ≤ versionOf ((step e op).1.stateOf i).context := by
  cases hp : pending e op with
  | none =>
    rw [publishedFor, publishedContext_silent hp, ((step_silent hp).2.2.2.2 i).1]
    simp
  | some jp =>
    obtain ⟨j, p⟩ := jp
    have hown := pending_instrument h hp
    obtain ⟨hversion, -, -, hstored⟩ := pending_spec hp
    rcases (step_pending hp).2.2 with ⟨_, herr, -⟩ | ⟨-, -, -, hstore⟩
    · rw [hop j p hp] at herr
      cases herr
    · rw [publishedFor, publishedContext_pending hp, hstore i]
      by_cases hij : j = i
      · subst hij
        have hnew : versionOf p.state.context = versionOf (e.stateOf j).context + 1 := by
          rw [hstored, ← hversion]
          rfl
        rw [if_pos rfl, hnew]
        simp [hown, hversion]
      · simp [hij, hown]

/-- The versions published for an instrument along a delivered run. -/
theorem run_versions (i : Instrument) (ops : List Op) (e : TickEngine) (h : OwnContexts e)
    (hops : Along step Delivers e ops) :
    ((outs step e ops).filterMap (publishedFor i)).map (·.version) =
      List.range' (versionOf (e.stateOf i).context + 1)
        (versionOf ((run step e ops).stateOf i).context - versionOf (e.stateOf i).context) ∧
      versionOf (e.stateOf i).context ≤ versionOf ((run step e ops).stateOf i).context := by
  induction ops generalizing e with
  | nil => simp
  | cons op ops ih =>
    obtain ⟨hop, hrest⟩ := hops
    obtain ⟨h₁, hle₁⟩ := step_versions h hop i
    obtain ⟨h₂, hle₂⟩ := ih (step e op).1 (step_ownContexts h op) hrest
    have hsplit : (outs step e (op :: ops)).filterMap (publishedFor i) =
        (publishedFor i (step e op).2).toList ++
          (outs step (step e op).1 ops).filterMap (publishedFor i) := by
      rw [outs_cons, List.filterMap_cons]
      cases publishedFor i (step e op).2 <;> rfl
    rw [hsplit, List.map_append, h₁, h₂, run_cons]
    refine ⟨?_, hle₁.trans hle₂⟩
    have hcut : versionOf ((run step (step e op).1 ops).stateOf i).context -
        versionOf (e.stateOf i).context =
        (versionOf ((step e op).1.stateOf i).context - versionOf (e.stateOf i).context) +
        (versionOf ((run step (step e op).1 ops).stateOf i).context -
          versionOf ((step e op).1.stateOf i).context) := by omega
    rw [hcut, ← List.range'_append_1]
    congr 2
    omega

theorem run_not_raised {ops : List Op} {e : TickEngine} (h : Along step Delivers e ops) :
    ∀ o ∈ outs step e ops, raisedBy o = false := by
  induction ops generalizing e with
  | nil => simp
  | cons op ops ih =>
    intro o ho
    rcases List.mem_cons.mp ho with rfl | ho
    · exact delivers_not_raised h.1
    · exact ih h.2 o ho

/-- **Published contexts.**  In every run of a new engine, with any subscribers, sequence numbers
    strictly increase and a raising call keeps every instrument state.  Where every publication is
    delivered, no call raises and the contexts published for each instrument carry the versions
    `1, 2, …, n`, each once and in order. -/
theorem published_versions_gap_free (known : List Instrument)
    (session : Option MarketSessionClassifier) (candles : Option CandleEngine)
    (authority : SessionStatisticsAuthority) (ops : List Op) :
    let e₀ := create known session candles authority
    (((outs step e₀ ops).filterMap publishedContext).map (·.sequence)).Pairwise (· < ·) ∧
    (∀ pre op post, ops = pre ++ op :: post →
      raisedBy (step (run step e₀ pre) op).2 = true →
      ∀ i, (step (run step e₀ pre) op).1.stateOf i = (run step e₀ pre).stateOf i) ∧
    (Along step Delivers e₀ ops →
      (∀ o ∈ outs step e₀ ops, raisedBy o = false) ∧
      ∀ i, ∃ n, ((outs step e₀ ops).filterMap (publishedFor i)).map (·.version) =
        List.range' 1 n) := by
  intro e₀
  refine ⟨(sequences_increase ops e₀).1, ?_, ?_⟩
  · intro pre op post _ hraised i
    exact raised_keeps_state hraised i
  · intro hops
    have hown : OwnContexts e₀ := fun i c hc => by cases hc
    exact ⟨run_not_raised hops, fun i => ⟨_, (run_versions i ops e₀ hown hops).1⟩⟩

/-- A subscriber that accepts every event, and one that raises on every event. -/
def acceptingBus : EventBus := { onCreated := [fun _ => .ok ()], onUpdated := [fun _ => .ok ()] }

def raisingBus : EventBus :=
  { onCreated := [fun _ => .error "subscriber failed"]
    onUpdated := [fun _ => .error "subscriber failed"] }

/-- A tick of `reliance` at `m` minutes past midnight of 2024-10-04, processed at once. -/
def tickAt (m : Int) (bus : EventBus) : Op :=
  .process (.datum (.tick (sampleTick m (rupees 100)).1)) (20000 * day + (m - 330) * minute)
    (20000 * day + (m - 330) * minute) bus

theorem published_versions_sample :
    let e₀ := create [reliance] (some nseClassifier) none {}
    Along step Delivers e₀ [tickAt 555 acceptingBus, tickAt 556 acceptingBus] ∧
      ∃ n, ((outs step e₀ [tickAt 555 acceptingBus, tickAt 556 acceptingBus]).filterMap
        (publishedFor reliance)).map (·.version) = List.range' 1 n := by
  intro e₀
  have hdeliver : ∀ (e : TickEngine) (m : Int), Delivers e (tickAt m acceptingBus) := by
    intro e m i p _
    cases hp : p.event <;> rfl
  have hops : Along step Delivers e₀ [tickAt 555 acceptingBus, tickAt 556 acceptingBus] :=
    ⟨hdeliver _ _, hdeliver _ _, trivial⟩
  exact ⟨hops, ((published_versions_gap_free [reliance] (some nseClassifier) none {} _).2.2 hops).2
    reliance⟩

/-- A subscriber raises on the first tick: the candle engine keeps the tick, and the second tick is
    published as version 1 again. -/
theorem raising_subscriber_repeats_version :
    let candles := CandleEngine.create nseSchedule kolkata [.session] 4
    let e₀ := create [reliance] (some nseClassifier) candles {}
    let ops := [tickAt 555 raisingBus, tickAt 556 acceptingBus]
    ((outs step e₀ ops).filterMap (publishedFor reliance)).map (·.version) = [1, 1] ∧
      raisedBy (step e₀ (tickAt 555 raisingBus)).2 = true ∧
      (candles.map fun c => c.states.length) = some 0 ∧
      ((step e₀ (tickAt 555 raisingBus)).1.candles.map fun c => c.states.length) = some 1 := by
  refine ⟨?_, ?_, ?_, ?_⟩ <;> rfl

end ApexScan.TickEngine
