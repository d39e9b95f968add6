import ApexScan.Strategy.LifecycleSync

/-!
# The error threshold

A failed evaluation raises the strategy's count, a successful one sets it to zero, and a count that
reaches the threshold moves the strategy to ERROR.  The count is not touched by `start`.

* `Event`, `history` — what happened to one strategy in a run: entering RUNNING through `start`, failed and
  successful evaluations.
* `streak`, `sinceSuccess` — the failures in a row at the end of a history, and those since the last success
  with starts disregarded.
* `ThresholdHolds` — a failure moves the strategy to ERROR exactly when it is at least the `k`-th in a row
  since the last start.
* `run_tallied` — the count is `sinceSuccess`.

Main result: `error_threshold_iff`, over every interleaving.  `restarted_strategy_fails_early` is a restarted
strategy that tolerates no failure.
-/

set_option autoImplicit false

namespace ApexScan.ErrorThreshold

open Lib StrategyManager LifecycleSync

/-! ## Histories -/

/-- What happens to a strategy. -/
inductive Event where
  | started
  | failed (movedToError : Bool)
  | succeeded
  deriving DecidableEq

def Event.isFailed : Event → Bool
  | .failed _ => true
  | _ => false

@[simp] theorem isFailed_failed (moved : Bool) : (Event.failed moved).isFailed = true := rfl

@[simp] theorem isFailed_started : Event.started.isFailed = false := rfl

/-- The event of one strategy in a step, if any. -/
def eventOf (id : String) (s : System) (op : System.Op) : Option Event :=
  match op with
  | .start id' | .resumeStart id' _ =>
    if id' = id ∧ (System.step s op).2 = some (.ok .running) then some .started else none
  | .context context evaluate =>
    if s.manager.considers context id then
      match s.manager.verdict context evaluate id with
      | none => none
      | some true => some .succeeded
      | some false =>
        some (.failed ((System.step s op).1.manager.lifecycle.stateOf id = some .error))
    else none
  | _ => none

/-- The events of one strategy along a run, oldest first. -/
def history (id : String) : System → List System.Op → List Event
  | _, [] => []
  | s, op :: ops => (eventOf id s op).toList ++ history id (System.step s op).1 ops

theorem history_concat (id : String) (s : System) (ops : List System.Op) (op : System.Op) :
    history id s (ops ++ [op]) =
      history id s ops ++ (eventOf id (Lib.run System.step s ops) op).toList := by
  induction ops generalizing s with
  | nil => simp [history]
  | cons a ops ih => simp [history, ih]

/-- The failures in a row at the end of a history. -/
def streak (events : List Event) : ℕ := (events.reverse.takeWhile Event.isFailed).length

/-- The failures since the last success. -/
def sinceSuccess (events : List Event) : ℕ :=
  (events.reverse.takeWhile (· ≠ .succeeded)).countP Event.isFailed

/-- Every failure of the history moves the strategy to ERROR exactly when it is at least the `k`-th in a
    row since the strategy was last started. -/
def ThresholdHolds (k : ℕ) (events : List Event) : Prop :=
  ∀ pre moved post, events = pre ++ .failed moved :: post → (moved = true ↔ k ≤ streak pre + 1)

/-- No failure reaches the threshold only together with failures from before the last start. -/
def NoCarriedFailures (k : ℕ) (events : List Event) : Prop :=
  ∀ pre moved post, events = pre ++ .failed moved :: post →
    ¬ (streak pre + 1 < k ∧ k ≤ sinceSuccess pre + 1)

theorem streak_le_sinceSuccess (events : List Event) : streak events ≤ sinceSuccess events := by
  unfold streak sinceSuccess
  induction events.reverse with
  | nil => simp
  | cons e es ih =>
    cases e with
    | started => simp
    | failed moved => simpa [List.takeWhile_cons, List.countP_cons] using ih
    | succeeded => simp [Event.isFailed]

@[simp] theorem sinceSuccess_started (events : List Event) :
    sinceSuccess (events ++ [.started]) = sinceSuccess events := by
  simp [sinceSuccess]

@[simp] theorem sinceSuccess_failed (events : List Event) (moved : Bool) :
    sinceSuccess (events ++ [.failed moved]) = sinceSuccess events + 1 := by
  simp [sinceSuccess, List.countP_cons]

@[simp] theorem sinceSuccess_succeeded (events : List Event) :
    sinceSuccess (events ++ [.succeeded]) = 0 := by
  simp [sinceSuccess]

/-! ## The count -/

/-- Every failure moves the strategy exactly when the failures since the last success reach `k`. -/
def Counted (k : ℕ) (events : List Event) : Prop :=
  ∀ pre e post, events = pre ++ e :: post →
    ∀ moved, e = .failed moved → (moved = true ↔ k ≤ sinceSuccess pre + 1)

theorem Counted.concat {k : ℕ} {events : List Event} (h : Counted k events) {e : Event}
    (he : ∀ moved, e = .failed moved → (moved = true ↔ k ≤ sinceSuccess events + 1)) :
    Counted k (events ++ [e]) :=
  (forall_split_concat events e).mpr ⟨h, he⟩

/-- Commands leave the counts and the threshold. -/
theorem command_count (m : StrategyManager) (id : String) (c : LifecycleCommand) :
    (m.command id c).1.errorCounts = m.errorCounts ∧
      (m.command id c).1.errorThreshold = m.errorThreshold := by
  unfold command
  split <;> exact ⟨rfl, rfl⟩

theorem beginStart_count (m : StrategyManager) (id : String) :
    (m.beginStart id).1.errorCounts = m.errorCounts ∧
      (m.beginStart id).1.errorThreshold = m.errorThreshold := by
  rcases m.beginStart_cases id with
    ⟨-, h⟩ | ⟨-, ⟨-, h⟩ | ⟨_, _, -, -, ⟨-, h⟩ | ⟨_, -, ⟨-, h⟩ | ⟨_, -, h⟩⟩⟩⟩ <;>
    rw [h] <;> exact ⟨rfl, rfl⟩

theorem stopBy_count (m : StrategyManager) (id : String) {c : LifecycleCommand}
    (hc : (commandTransitions c).2 = .stopped) :
    (m.stopBy id c).1.errorCounts = m.errorCounts ∧
      (m.stopBy id c).1.errorThreshold = m.errorThreshold := by
  rcases m.stopBy_cases id hc with ⟨-, h⟩ | ⟨-, ⟨-, h⟩ | ⟨-, _, -, h⟩⟩ <;>
    rw [h] <;> exact ⟨rfl, rfl⟩

theorem start_count (s : System) (id : String) :
    (System.step s (.start id)).1.manager.errorCounts = s.manager.errorCounts ∧
      (System.step s (.start id)).1.manager.errorThreshold = s.manager.errorThreshold := by
  have h := beginStart_count s.manager id
  simp only [System.step]
  split
  · rename_i m result heq
    rw [heq] at h
    exact h
  · rename_i m effective heq
    rw [heq] at h
    exact h

theorem resumeStart_count (s : System) (id : String) (outcome : WarmupOutcome) :
    (System.step s (.resumeStart id outcome)).1.manager.errorCounts = s.manager.errorCounts ∧
      (System.step s (.resumeStart id outcome)).1.manager.errorThreshold =
        s.manager.errorThreshold := by
  simp only [System.step]
  split
  · cases outcome with
    | returned => exact command_count s.manager id .markRunning
    | raised => exact command_count s.manager id .markError
    | cancelled => exact ⟨rfl, rfl⟩
  · exact ⟨rfl, rfl⟩

/-- The count of a strategy is its failures since the last success, and every failure so far was judged
    by it. -/
structure Tallied (k : ℕ) (id : String) (s : System) (events : List Event) : Prop where
  threshold : s.manager.errorThreshold = k
  count : (s.manager.account id).1 = sinceSuccess events
  counted : Counted k events

variable {k : ℕ} {id : String} {s : System} {events : List Event}

/-- A step of a command: the counts stay, and a start is the only event. -/
theorem Tallied.command (h : Tallied k id s events) {s' : System} {e : Option Event}
    (hcounts : s'.manager.errorCounts = s.manager.errorCounts ∧
      s'.manager.errorThreshold = s.manager.errorThreshold)
    (he : e = none ∨ e = some .started) : Tallied k id s' (events ++ e.toList) := by
  have hcount : (s'.manager.account id).1 = sinceSuccess events := by
    unfold account
    rw [hcounts.1]
    exact h.count
  rcases he with rfl | rfl
  · rw [Option.toList_none, List.append_nil]
    exact ⟨hcounts.2.trans h.threshold, hcount, h.counted⟩
  · refine ⟨hcounts.2.trans h.threshold, ?_, h.counted.concat ?_⟩
    · rw [Option.toList_some, sinceSuccess_started]
      exact hcount
    · intro moved hmoved
      cases hmoved

/-- A failed evaluation moves the strategy to ERROR once the failures since the last success reach the
    threshold. -/
theorem Tallied.failed_event (h : Tallied k id s events) {context : MarketContext}
    {evaluate : String → Option StrategyEvaluation}
    (hconsidered : s.manager.considers context id = true)
    (hverdict : s.manager.verdict context evaluate id = some false) :
    eventOf id s (.context context evaluate) = some (.failed (k ≤ sinceSuccess events + 1)) := by
  obtain ⟨-, haccount⟩ := s.manager.handle_spec context evaluate
  have haccount' : (System.step s (.context context evaluate)).1.manager.account id = _ := haccount id
  rw [if_pos hconsidered, hverdict] at haccount'
  have hrunning : s.manager.lifecycle.stateOf id = some .running := by
    unfold considers at hconsidered
    simp only [Bool.and_eq_true, decide_eq_true_eq] at hconsidered
    exact hconsidered.2
  have hcount : (s.manager.account id).1 = sinceSuccess events := h.count
  have hstate : (System.step s (.context context evaluate)).1.manager.lifecycle.stateOf id =
      if k ≤ sinceSuccess events + 1 then some .error else some .running := by
    have := congrArg Prod.snd haccount'
    simp only [settle, h.threshold, hcount] at this
    refine this.trans ?_
    split
    · rfl
    · exact hrunning
  unfold eventOf
  simp only [hconsidered, hverdict, if_true, hstate]
  by_cases hreached : k ≤ sinceSuccess events + 1 <;> simp [hreached]

/-- A context settles the account as the history says. -/
theorem Tallied.context (h : Tallied k id s events) (context : MarketContext)
    (evaluate : String → Option StrategyEvaluation) :
    Tallied k id (System.step s (.context context evaluate)).1
      (events ++ (eventOf id s (.context context evaluate)).toList) := by
  obtain ⟨hsame, haccount⟩ := s.manager.handle_spec context evaluate
  have hthreshold : (System.step s (.context context evaluate)).1.manager.errorThreshold = k :=
    hsame.errorThreshold.trans h.threshold
  have haccount' : (System.step s (.context context evaluate)).1.manager.account id = _ := haccount id
  by_cases hconsidered : s.manager.considers context id = true
  · rw [if_pos hconsidered] at haccount'
    cases hverdict : s.manager.verdict context evaluate id with
    | none =>
      have hevent : eventOf id s (.context context evaluate) = none := by
        simp [eventOf, hconsidered, hverdict]
      rw [hevent, Option.toList_none, List.append_nil]
      rw [hverdict] at haccount'
      exact ⟨hthreshold, by rw [haccount']; exact h.count, h.counted⟩
    | some success =>
      rw [hverdict] at haccount'
      cases success with
      | true =>
        have hevent : eventOf id s (.context context evaluate) = some .succeeded := by
          simp [eventOf, hconsidered, hverdict]
        rw [hevent]
        refine ⟨hthreshold, ?_, h.counted.concat ?_⟩
        · rw [Option.toList_some, sinceSuccess_succeeded, haccount']
          rfl
        · intro moved hmoved
          cases hmoved
      | false =>
        rw [h.failed_event hconsidered hverdict]
        refine ⟨hthreshold, ?_, h.counted.concat ?_⟩
        · rw [Option.toList_some, sinceSuccess_failed, haccount']
          show (s.manager.account id).1 + 1 = _
          rw [show (s.manager.account id).1 = sinceSuccess events from h.count]
        · intro moved hmoved
          cases hmoved
          exact decide_eq_true_iff
  · have hevent : eventOf id s (.context context evaluate) = none := by
      simp [eventOf, hconsidered]
    rw [if_neg hconsidered] at haccount'
    rw [hevent, Option.toList_none, List.append_nil]
    exact ⟨hthreshold, by rw [haccount']; exact h.count, h.counted⟩

theorem Tallied.step (h : Tallied k id s events) (op : System.Op) :
    Tallied k id (System.step s op).1 (events ++ (eventOf id s op).toList) := by
  have hstarted : ∀ p : Prop, [Decidable p] →
      (if p then some Event.started else none) = none ∨
        (if p then some Event.started else none) = some .started := by
    intro p _
    split
    · exact Or.inr rfl
    · exact Or.inl rfl
  cases op with
  | start id' => exact h.command (start_count s id') (hstarted _)
  | resumeStart id' outcome => exact h.command (resumeStart_count s id' outcome) (hstarted _)
  | stop id' => exact h.command (stopBy_count s.manager id' rfl) (Or.inl rfl)
  | forceStop id' => exact h.command (stopBy_count s.manager id' rfl) (Or.inl rfl)
  | pause id' => exact h.command (command_count s.manager id' .pause) (Or.inl rfl)
  | resume id' => exact h.command (command_count s.manager id' .resume) (Or.inl rfl)
  | context context evaluate => exact h.context context evaluate

/-! ## Runs -/

section Runs

variable (registry : StrategyRegistry) (configurations : String → Option StrategyConfiguration)
  (errorThreshold : ℕ) (errorThreshold_pos : 1 ≤ errorThreshold) (instruments : List Instrument)
  (engine : CandleEngine) (refreshControl : Bool)

/-- The count of a strategy is its failures since the last success, after every run. -/
theorem run_tallied (id : String) (ops : List System.Op) :
    Tallied errorThreshold id
      (Lib.run System.step (initial registry configurations errorThreshold errorThreshold_pos
        instruments engine refreshControl) ops)
      (history id (initial registry configurations errorThreshold errorThreshold_pos instruments
        engine refreshControl) ops) := by
  induction ops using List.reverseRecOn with
  | nil =>
    refine ⟨rfl, rfl, ?_⟩
    intro pre e post hsplit
    simp [history] at hsplit
  | append_singleton ops op ih =>
    rw [history_concat, run_concat]
    exact ih.step op

/-- **The threshold counts the failures in a row since the last start if and only if no failures from
    before it are carried over**, for every strategy and every interleaving of contexts and commands. -/
theorem error_threshold_iff (id : String) (ops : List System.Op) :
    ThresholdHolds errorThreshold (history id (initial registry configurations errorThreshold
        errorThreshold_pos instruments engine refreshControl) ops) ↔
      NoCarriedFailures errorThreshold (history id (initial registry configurations errorThreshold
        errorThreshold_pos instruments engine refreshControl) ops) := by
  have hcounted := (run_tallied registry configurations errorThreshold errorThreshold_pos instruments
    engine refreshControl id ops).counted
  constructor
  · rintro h pre moved post hsplit ⟨hbelow, hreached⟩
    have hmoved := (hcounted pre _ post hsplit moved rfl).mpr hreached
    have := (h pre moved post hsplit).mp hmoved
    omega
  · intro h pre moved post hsplit
    have hnot := h pre moved post hsplit
    have hle := streak_le_sinceSuccess pre
    rw [hcounted pre _ post hsplit moved rfl]
    constructor <;> intro hreached <;> omega

end Runs

/-- The context of a new instrument, at a version. -/
def contextAt (version : ℕ) (h : 1 ≤ version) : MarketContext :=
  { sequence := version, eventTimestamp := version, observedAt := version, instrument := reliance
    version, version_pos := h }

/-- `delta` starts, fails once, and fails once more after being restarted. -/
def restartedAfterFailure : List System.Op :=
  [.start "delta", .context (contextAt 1 Nat.one_pos) fun _ => none, .stop "delta", .start "delta",
    .context (contextAt 2 (by decide)) fun _ => none]

theorem noMatch_reasons : EvaluationStatus.noMatch = .matched → ([] : List String) ≠ [] := by
  decide

/-- `delta` starts, fails once, succeeds and is restarted before it fails again. -/
def restartedAfterSuccess : List System.Op :=
  [.start "delta", .context (contextAt 1 Nat.one_pos) fun _ => none,
    .context (contextAt 2 (by decide)) fun _ =>
      some
        { instrument := reliance, contextVersion := 2, status := .noMatch
          matched_reasons := noMatch_reasons },
    .stop "delta", .start "delta", .context (contextAt 3 sampleThreshold_pos) fun _ => none]

/-- The system of the sample strategies with a threshold of two failures. -/
def twoFailures : System :=
  initial sampleRegistry sampleConfigurations 2 (by decide) [] sampleEngine false

theorem error_threshold_sample :
    ThresholdHolds 2 (history "delta" twoFailures restartedAfterSuccess) := by
  refine (error_threshold_iff _ _ _ _ _ _ _ _ _).mpr ?_
  have hhistory : history "delta" twoFailures restartedAfterSuccess =
      [.started, .failed false, .succeeded, .started, .failed false] := by decide
  show NoCarriedFailures 2 (history "delta" twoFailures restartedAfterSuccess)
  rw [hhistory]
  -- the two failures stand at the second and the last place
  intro pre moved post hsplit
  rcases pre with _ | ⟨_, _ | ⟨_, _ | ⟨_, _ | ⟨_, _ | ⟨_, rest⟩⟩⟩⟩⟩
  all_goals simp only [List.nil_append, List.cons_append, List.cons.injEq, reduceCtorEq, false_and,
    and_false, List.nil_eq, List.append_eq_nil_iff] at hsplit
  · obtain ⟨rfl, -, -⟩ := hsplit
    decide
  · obtain ⟨rfl, rfl, rfl, rfl, -, -⟩ := hsplit
    decide

/-- One failure of the restarted strategy moves it to ERROR, although two are tolerated. -/
theorem restarted_strategy_fails_early :
    ¬ ThresholdHolds 2 (history "delta" twoFailures restartedAfterFailure) := by
  have hhistory : history "delta" twoFailures restartedAfterFailure =
      [.started, .failed false, .started, .failed true] := by decide
  intro h
  rw [hhistory] at h
  have := (h [.started, .failed false, .started] true [] rfl).mp rfl
  revert this
  decide

end ApexScan.ErrorThreshold
