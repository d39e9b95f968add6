import ApexScan.Engine.StatisticsDate
import ApexScan.Lib.History

/-!
# `previous_close` and the session it was received in

Ticks and quotes are stamped with their event time, references with the clock, and a tick or quote
carries `previous_close` over only from a context of its own date.  The value therefore survives
exactly as long as the accepted contexts of the instrument stay on one date.

* `history` — the accepted calls of an instrument, newest first, with the instant each was stamped
  with and the reference value it brought.
* `latestReference` — the value a context of the date should carry; `sinceReference` — the calls after it.
* `HistoryInv` — what the engine has stored, in terms of the history.

Main result: `previous_close_iff` — an accepted context of date `d` carries the latest reference of
`d` exactly when there is none or every accepted call since it is on `d`.
`older_tick_erases_reference` is a run with an older-dated tick in between.
-/

set_option autoImplicit false

namespace ApexScan.TickEngine

open Lib

/-- An accepted call: the instant its context was stamped with, the reference it brought and the
    context. -/
structure Accepted where
  stamp : Int
  reference : Option Price
  context : MarketContext

/-- Event time for a tick or a quote, the clock for a reference. -/
def stampOf : Op → Int
  | .process (.reference _) now _ _ => now
  | .process (.datum d) _ _ _ => d.eventTimestamp
  | _ => 0

def referenceOf : Op → Option Price
  | .process (.reference r) _ _ _ => some r.previousClose
  | _ => none

/-- The accepted call of the instrument. -/
def entryFor (i : Instrument) (call : Op × Option Emitted) : Option Accepted :=
  ((acceptedBy call.2).filter fun c => c.instrument = i).map fun c =>
    ⟨stampOf call.1, referenceOf call.1, c⟩

/-- The accepted calls of the instrument along a run, newest first. -/
def history (i : Instrument) (e : TickEngine) (ops : List Op) : List Accepted :=
  ((ops.zip (outs step e ops)).filterMap (entryFor i)).reverse

variable (cls : MarketSessionClassifier)

/-- The trading date an accepted call is stamped with. -/
def Accepted.date (a : Accepted) : Int := wallDate (cls.timezone.toLocal a.stamp)

/-- The value of the latest accepted reference of date `d`. -/
def latestReference (d : Int) (calls : List Accepted) : Option Price :=
  ((calls.filter fun a => a.date cls = d).filterMap (·.reference)).head?

/-- The accepted calls after the latest reference of date `d`. -/
def sinceReference (d : Int) (calls : List Accepted) : List Accepted :=
  calls.takeWhile fun a => !(decide (a.date cls = d) && a.reference.isSome)

/-- What the engine carries: the newest reference of the leading run of date `d`. -/
def carriedReference (d : Int) (calls : List Accepted) : Option Price :=
  ((calls.takeWhile fun a => a.date cls = d).filterMap (·.reference)).head?

variable {cls} {e : TickEngine} {i : Instrument}

theorem carriedReference_cons (d : Int) (a : Accepted) (older : List Accepted) :
    carriedReference cls d (a :: older) =
      if a.date cls = d then a.reference.or (carriedReference cls d older) else none := by
  unfold carriedReference
  by_cases hd : a.date cls = d
  · cases hr : a.reference <;> simp [hd, hr]
  · simp [hd]

/-! ## The history of a longer run -/

theorem history_concat (i : Instrument) (e : TickEngine) (ops : List Op) (op : Op) :
    history i e (ops ++ [op]) =
      (entryFor i (op, (step (run step e ops) op).2)).toList ++ history i e ops := by
  unfold history
  rw [outs_concat, List.zip_append (by simp), List.filterMap_append, List.reverse_append]
  congr 1
  cases h : entryFor i (op, (step (run step e ops) op).2) <;> simp [h]

/-- A call keeps the instrument's context and last event time and adds nothing to its history, or
    it stores an accepted event and adds its context. -/
theorem entry_cases (i : Instrument) (hown : OwnContexts e) (op : Op) :
    (entryFor i (op, (step e op).2) = none ∧
      ((step e op).1.stateOf i).context = (e.stateOf i).context ∧
      ((step e op).1.stateOf i).lastEventTimestamp = (e.stateOf i).lastEventTimestamp) ∨
    ∃ p, pending e op = some (i, p) ∧ (step e op).1.stateOf i = p.state ∧
      entryFor i (op, (step e op).2) = some ⟨stampOf op, referenceOf op, p.event.context⟩ := by
  cases hp : pending e op with
  | none =>
    obtain ⟨-, hacc, -, -, hkeep⟩ := step_silent hp
    refine Or.inl ⟨by simp [entryFor, hacc], (hkeep i).1, ?_⟩
    exact step_silent_keeps (f := (·.lastEventTimestamp)) (fun _ _ => rfl) (fun _ _ => rfl) hp i
  | some jp =>
    obtain ⟨j, p⟩ := jp
    have hj := pending_instrument hown hp
    rcases (step_pending hp).2.2 with ⟨_, -, -, hacc, hkeep⟩ | ⟨-, -, hacc, hstore⟩
    · exact Or.inl ⟨by simp [entryFor, hacc], by rw [hkeep i], by rw [hkeep i]⟩
    · by_cases hji : j = i
      · subst hji
        exact Or.inr ⟨p, rfl, by rw [hstore j, if_pos rfl], by simp [entryFor, hacc, hj]⟩
      · refine Or.inl ⟨by simp [entryFor, hacc, hj, hji], ?_, ?_⟩
        · rw [hstore i, if_neg hji]
        · rw [hstore i, if_neg hji]

/-! ## What is stored -/

/-- The engine holds the newest accepted context, each accepted context has the session of its
    stamp, and its `previous_close` is the carried one. -/
structure HistoryInv (cls : MarketSessionClassifier) (i : Instrument) (calls : List Accepted)
    (e : TickEngine) : Prop where
  classifier : e.session = some cls
  own : OwnContexts e
  stored : (e.stateOf i).context = calls.head?.map (·.context)
  session : ∀ a ∈ calls, a.context.session.map (·.tradingDate) = some (a.date cls)
  carried : ∀ a older, (a :: older) <:+ calls →
    a.context.previousClose = carriedReference cls (a.date cls) (a :: older)

variable {calls : List Accepted}

theorem sessionAt_tradingDate (h : e.session = some cls) (t : Int) :
    (e.sessionAt t).map (·.tradingDate) = some (wallDate (cls.timezone.toLocal t)) := by
  simp [sessionAt, h, MarketSessionClassifier.classify]

/-- The context of an accepted call: its session is that of its stamp, and its `previous_close` is
    the reference it brings or the one carried over from the stored context. -/
theorem pending_fields {op : Op} {p : Pending} (h : e.session = some cls)
    (hp : pending e op = some (i, p)) :
    p.event.context.session.map (·.tradingDate) =
        some (wallDate (cls.timezone.toLocal (stampOf op))) ∧
      p.event.context.previousClose =
        (referenceOf op).or ((e.stateOf i).context.bind
          (carriedPreviousClose · (e.sessionAt (stampOf op)))) := by
  rcases pending_cases hp with ⟨r, now, _, _, rfl, rfl, -, rfl⟩ | ⟨d, _, observedAt, _, rfl, rfl, -, rfl⟩
  · rw [acceptingReference_fields, stampOf, ← sessionAt_tradingDate h]
    simp only [referenceFields]
    split
    · exact ⟨rfl, rfl⟩
    · cases hs : e.sessionAt now with
      | none =>
        rw [sessionAt_eq_none hs] at h
        cases h
      | some s => exact ⟨rfl, rfl⟩
  · rw [accepting_fields, stampOf, ← sessionAt_tradingDate h]
    exact ⟨rfl, rfl⟩

/-- The carried value is kept on the same date and dropped on another. -/
theorem carriedPreviousClose_eq (h : HistoryInv cls i calls e) (t : Int) :
    (e.stateOf i).context.bind (carriedPreviousClose · (e.sessionAt t)) =
      carriedReference cls (wallDate (cls.timezone.toLocal t)) calls := by
  rw [h.stored]
  cases hc : calls with
  | nil => rfl
  | cons a older =>
    obtain ⟨new, hnew, hdate⟩ := Option.map_eq_some_iff.mp (sessionAt_tradingDate h.classifier t)
    obtain ⟨old, hold, holdDate⟩ := Option.map_eq_some_iff.mp (h.session a (by simp [hc]))
    have hcarried := h.carried a older (by rw [hc])
    simp only [List.head?_cons, Option.map_some, Option.bind_some, carriedPreviousClose, hnew, hold]
    rw [holdDate]
    by_cases hd : a.date cls = new.tradingDate
    · have hsame : ¬ new.tradingDate ≠ a.date cls := not_not.mpr hd.symm
      rw [if_neg hsame, hcarried, ← hdate, hd]
    · have hother : new.tradingDate ≠ a.date cls := Ne.symm hd
      rw [if_pos hother, carriedReference_cons, ← hdate, if_neg hd]

/-- A call that stores nothing for the instrument keeps the invariant. -/
theorem HistoryInv.keep (h : HistoryInv cls i calls e) {op : Op}
    (hentry : entryFor i (op, (step e op).2) = none)
    (hcontext : ((step e op).1.stateOf i).context = (e.stateOf i).context) :
    HistoryInv cls i ((entryFor i (op, (step e op).2)).toList ++ calls) (step e op).1 := by
  rw [hentry]
  refine ⟨(step_config e op).1.trans h.classifier, step_ownContexts h.own op, ?_, h.session,
    h.carried⟩
  rw [hcontext]
  exact h.stored

/-- A call that stores an accepted context of the instrument extends its history. -/
theorem HistoryInv.extend (h : HistoryInv cls i calls e) {op : Op} {p : Pending}
    (hp : pending e op = some (i, p))
    (hentry : entryFor i (op, (step e op).2) =
      some ⟨stampOf op, referenceOf op, p.event.context⟩)
    (hstored : (step e op).1.stateOf i = p.state) :
    HistoryInv cls i ((entryFor i (op, (step e op).2)).toList ++ calls) (step e op).1 := by
  obtain ⟨hsession, hclose⟩ := pending_fields h.classifier hp
  rw [hentry]
  refine ⟨(step_config e op).1.trans h.classifier, step_ownContexts h.own op, ?_, ?_, ?_⟩
  · rw [hstored, (pending_spec hp).2.2.2]
    rfl
  · intro a ha
    rcases List.mem_cons.mp ha with rfl | ha
    · exact hsession
    · exact h.session a ha
  · intro a older hsuffix
    rcases List.suffix_cons_iff.mp hsuffix with heq | hsuffix
    · obtain ⟨rfl, rfl⟩ := List.cons.inj heq
      rw [carriedReference_cons, if_pos rfl, hclose, carriedPreviousClose_eq h]
      rfl
    · exact h.carried a older hsuffix

theorem step_history (h : HistoryInv cls i calls e) (op : Op) :
    HistoryInv cls i ((entryFor i (op, (step e op).2)).toList ++ calls) (step e op).1 := by
  rcases entry_cases i h.own op with ⟨hentry, hcontext, -⟩ | ⟨p, hp, hstate, hentry⟩
  · exact h.keep hentry hcontext
  · exact h.extend hp hentry hstate

theorem run_history (h : HistoryInv cls i [] e) (ops : List Op) :
    HistoryInv cls i (history i e ops) (run step e ops) := by
  induction ops using List.reverseRecOn with
  | nil => exact h
  | append_singleton ops op ih =>
    rw [history_concat, run_concat]
    exact step_history ih op

/-- **When `previous_close` follows its session.**  In every run of a new engine with a classifier,
    for each accepted context of an instrument: it is stamped with the session of its date `d`, and
    it carries the value of the latest accepted reference stamped `d` (none without one) exactly
    when there is no such reference or every call accepted for the instrument since it is on `d`. -/
theorem previous_close_iff (known : List Instrument) (cls : MarketSessionClassifier)
    (candles : Option CandleEngine) (authority : SessionStatisticsAuthority) (ops : List Op)
    (i : Instrument) (a : Accepted) (older : List Accepted)
    (h : (a :: older) <:+ history i (create known (some cls) candles authority) ops) :
    let d := a.date cls
    a.context.session.map (·.tradingDate) = some d ∧
    (a.context.previousClose = latestReference cls d (a :: older) ↔
      ((∃ r ∈ a :: older, r.date cls = d ∧ r.reference.isSome = true) →
        ∀ b ∈ sinceReference cls d (a :: older), b.date cls = d)) := by
  intro d
  have hinit : HistoryInv cls i [] (create known (some cls) candles authority) :=
    ⟨rfl, fun _ _ hc => (by cases hc), rfl, fun _ ha => (by cases ha),
      fun _ _ hs => (by simp at hs)⟩
  have hinv := run_history hinit ops
  refine ⟨hinv.session a (h.subset List.mem_cons_self), ?_⟩
  rw [hinv.carried a older h]
  have hiff := head?_takeWhile_eq_iff (fun b : Accepted => decide (b.date cls = d))
    (·.reference) (a :: older)
  simp only [decide_eq_true_eq] at hiff
  exact hiff

/-! ## Runs -/

/-- A tick of `reliance` with event time 09:20 of a date, received at the end of 2024-10-07. -/
def lateTick (date : Int) : Op :=
  .process (.datum (.tick
      { (sampleTick 555 (rupees 100)).1 with eventTimestamp := date * day + 230 * minute }))
    (20003 * day + 600 * minute) (20003 * day + 600 * minute) acceptingBus

theorem previous_close_sample :
    let e₀ := create [reliance] (some nseClassifier) none {}
    let ops := [referenceOn 20003 (rupees 90), lateTick 20003]
    ∃ a older, (a :: older) <:+ history reliance e₀ ops ∧
      (a.context.previousClose = latestReference nseClassifier (a.date nseClassifier) (a :: older) ↔
        ((∃ r ∈ a :: older, r.date nseClassifier = a.date nseClassifier ∧
            r.reference.isSome = true) →
          ∀ b ∈ sinceReference nseClassifier (a.date nseClassifier) (a :: older),
            b.date nseClassifier = a.date nseClassifier)) := by
  intro e₀ ops
  have hsuffix : history reliance e₀ ops <:+ history reliance e₀ ops := List.suffix_refl _
  exact ⟨_, _, hsuffix, (previous_close_iff [reliance] nseClassifier none {} ops reliance _ _
    hsuffix).2⟩

/-- A reference of 2024-10-07, a tick with an event time of 2024-10-04, a tick of 2024-10-07: the
    last context has no previous close. -/
theorem older_tick_erases_reference :
    let e₀ := create [reliance] (some nseClassifier) none {}
    let ops := [referenceOn 20003 (rupees 90), lateTick 20000, lateTick 20003]
    ∃ a older, history reliance e₀ ops = a :: older ∧ a.date nseClassifier = 20003 ∧
      latestReference nseClassifier 20003 (a :: older) = some (rupees 90) ∧
      a.context.previousClose = none := by
  exact ⟨_, _, rfl, rfl, rfl, rfl⟩

end ApexScan.TickEngine
