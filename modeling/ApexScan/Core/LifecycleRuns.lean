import ApexScan.Core.ApplicationLifecycle
import ApexScan.Lib.Machine

/-!
# Lives of the application

Starts, readiness answers and shutdowns in any order, however their calls end.

* `nextState`, `Allowed` — the automaton that the outcomes alone make up, and how an operation may end
  in each of its states.
* `Consistent` — what ties the application to the state of the automaton between two operations.
* `lifecycle_refined` — the application follows the automaton.
* `resources_accounted` — what is open is held by the application or has been abandoned.
* `interrupted_shutdown_final` — after a cancelled shutdown nothing is closed any more.
-/

set_option autoImplicit false

namespace ApexScan.Lifecycle

open Lib Procedure
open ApplicationLifecycle (AllAsked isReady_iff readinessResponse readinessSnapshot_answers
  start_behaves shutdown_behaves)

/-! ## The automaton of the outcomes -/

/-- An operation with its calls and its end. -/
abbrev Performed := Step Call Answer Operation ApplicationError Response

/-- The state that an operation leads to, by how it ends. -/
def nextState (state : LifecycleState) (p : Performed) : LifecycleState :=
  match p.operation, p.ended with
  | .readinessSnapshot, _ => state
  | .start, .returned _ => .started
  | .start, .raised .startupBlocked => state
  | .start, .raised _ => .failed
  | .start, .cancelled => .starting
  | .shutdown, .cancelled => .shuttingDown
  | .shutdown, _ => if state = .shuttingDown then state else .stopped

/-- How an operation may end in a state.  A start ends well exactly if all its calls go well, and so
    does a shutdown; the answer is "ready" exactly if the application is started and all dependencies,
    which have all been asked, do well.  A start is refused while a shutdown is in progress, and the
    operations that have nothing to do ask nothing. -/
def Allowed (providerEnabled : Bool) (state : LifecycleState) (p : Performed) : Prop :=
  match p.operation with
  | .start =>
    if state = .started then p.trace = [] ∧ p.ended = .returned .done
    else if state = .shuttingDown then p.trace = [] ∧ p.ended = .raised .startupBlocked
    else (p.ended.isReturned = true ↔ Clean p.trace) ∧ p.ended ≠ .raised .startupBlocked
  | .readinessSnapshot =>
    if state = .started then
      (p.ended = .cancelled ∧ ¬ Clean p.trace) ∨
        ∃ snapshot, p.ended = .returned (.snapshot snapshot) ∧
          (snapshot.status = "ready" ↔ Clean p.trace) ∧ AllAsked providerEnabled p.trace
    else p.trace = [] ∧ ∃ snapshot, p.ended = .returned (.snapshot snapshot) ∧
      snapshot.status = "not_ready" ∧ snapshot.startup = some state.value
  | .shutdown =>
    if state = .shuttingDown ∨ state = .stopped then p.trace = [] ∧ p.ended = .returned .done
    else p.ended.isReturned = true ↔ Clean p.trace

/-- What holds between two operations, in each state. -/
structure Consistent (providerEnabled : Bool) (state : LifecycleState) (history : List Event)
    (s : ApplicationLifecycle) : Prop where
  state_eq : s.state = state
  provider : s.provider.isSome = providerEnabled
  balanced : ∀ r, balance r history = s.owned r
  sustained : state = .started → s.Sustained
  idle : state ≠ .started → s.Idle
  released : state = .failed ∨ state = .stopped → s.Released

theorem fresh_consistent (providerEnabled : Bool) :
    Consistent providerEnabled .starting [] (fresh providerEnabled) where
  state_eq := rfl
  provider := by cases providerEnabled <;> rfl
  balanced := by
    intro r
    cases providerEnabled <;> cases r <;> rfl
  sustained := fun h => by cases h
  idle := by
    intro _ d hd
    cases providerEnabled with
    | false => cases hd
    | true =>
      cases hd
      rfl
  released := fun h => by rcases h with h | h <;> cases h

section Steps

variable {providerEnabled : Bool} {state : LifecycleState} {history : List Event}
  {s : ApplicationLifecycle}

/-- The automaton, as a machine. -/
def next (state : LifecycleState) (p : Performed) : LifecycleState × Unit := (nextState state p, ())

/-- What one operation has to do. -/
def Follows (providerEnabled : Bool) (state : LifecycleState) (history : List Event)
    (s : ApplicationLifecycle) (operation : Operation) : Prop :=
  wp (perform operation) (fun trace s' e => Allowed providerEnabled state ⟨operation, trace, e⟩ ∧
    Consistent providerEnabled (next state ⟨operation, trace, e⟩).1 (history ++ trace) s') [] s

theorem Consistent.stoppable (h : Consistent providerEnabled state history s) : s.Stoppable := by
  by_cases hstate : state = .started
  · exact (h.sustained hstate).stoppable
  · exact (h.idle hstate).stoppable

/-- The balance after the calls of one more operation. -/
theorem Consistent.balanced_append (h : Consistent providerEnabled state history s) {trace : List Event}
    {s' : ApplicationLifecycle}
    (hbalanced : ∀ r, balance r trace + s.owned r = balance r [] + s'.owned r)
    (r : Resource) : balance r (history ++ trace) = s'.owned r := by
  have hold := h.balanced r
  have hnew := hbalanced r
  rw [balance_nil] at hnew
  rw [balance_append]
  omega

theorem start_follows (h : Consistent providerEnabled state history s) :
    Follows providerEnabled state history s .start := by
  unfold Follows perform
  rw [wp_bind]
  by_cases hstarted : state = .started
  · have hstate : s.state = .started := h.state_eq.trans hstarted
    subst hstarted
    rw [ApplicationLifecycle.start, wp_bind, wp_get, andThen_returned, if_pos hstate, wp_pure,
      andThen_returned, wp_pure, List.append_nil]
    exact ⟨⟨rfl, rfl⟩, h⟩
  by_cases hdown : state = .shuttingDown
  · have hstate : s.state = .shuttingDown := h.state_eq.trans hdown
    subst hdown
    rw [ApplicationLifecycle.start, wp_bind, wp_get, andThen_returned, if_neg (by rw [hstate]; decide),
      if_pos hstate, wp_raise, andThen_raised, List.append_nil]
    exact ⟨⟨rfl, rfl⟩, h⟩
  · refine wp_mono ?_ (start_behaves (h.idle hstarted) (h.state_eq ▸ hstarted)
      (h.state_eq ▸ hdown) [])
    rintro trace s' e ⟨hsound, hends⟩
    have hbalanced := h.balanced_append hsound.balanced
    have hclean : Clean trace ↔ e.isReturned = true := by
      rw [hsound.clean]
      exact and_iff_right clean_nil
    have hprovider (hkept : s'.provider.isSome = s.provider.isSome) :
        s'.provider.isSome = providerEnabled := hkept.trans h.provider
    cases e with
    | returned a =>
      obtain ⟨hstate, hsustained, hkept⟩ := hends
      rw [andThen_returned, wp_pure]
      constructor
      · simp [Allowed, hstarted, hdown, hclean]
      · exact
          { state_eq := hstate
            provider := hprovider hkept
            balanced := hbalanced
            sustained := fun _ => hsustained
            idle := fun hne => absurd rfl hne
            released := fun hor => by rcases hor with hor | hor <;> cases hor }
    | raised x =>
      obtain ⟨hother, hstate, hreleased, hkept⟩ := hends
      have hnext : nextState state ⟨.start, trace, .raised x⟩ = .failed := by
        cases x with
        | startupBlocked => exact absurd rfl hother
        | _ => rfl
      rw [andThen_raised]
      constructor
      · simp [Allowed, hstarted, hdown, hclean, hother]
      · rw [next, hnext]
        exact
          { state_eq := hstate
            provider := hprovider hkept
            balanced := hbalanced
            sustained := fun hfailed => by cases hfailed
            idle := fun _ => hreleased.idle
            released := fun _ => hreleased }
    | cancelled =>
      obtain ⟨hstate, hidle, hkept⟩ := hends
      rw [andThen_cancelled]
      constructor
      · simp [Allowed, hstarted, hdown, hclean]
      · exact
          { state_eq := hstate
            provider := hprovider hkept
            balanced := hbalanced
            sustained := fun hstarting => by cases hstarting
            idle := fun _ => hidle
            released := fun hor => by rcases hor with hor | hor <;> cases hor }

theorem shutdown_follows (h : Consistent providerEnabled state history s) :
    Follows providerEnabled state history s .shutdown := by
  unfold Follows perform
  rw [wp_bind]
  by_cases hdone : state = .shuttingDown ∨ state = .stopped
  · have hstate : s.state = .shuttingDown ∨ s.state = .stopped := h.state_eq ▸ hdone
    rw [ApplicationLifecycle.shutdown, wp_bind, wp_get, andThen_returned, if_pos hstate, wp_pure,
      andThen_returned, wp_pure, List.append_nil]
    constructor
    · simp [Allowed, hdone]
    · rcases hdone with rfl | rfl
      · exact h
      · exact h
  · refine wp_mono ?_ (shutdown_behaves h.stoppable (h.state_eq ▸ hdone) [])
    rintro trace s' e ⟨hsound, hends⟩
    have hbalanced := h.balanced_append hsound.balanced
    have hclean : Clean trace ↔ e.isReturned = true := by
      rw [hsound.clean]
      exact and_iff_right clean_nil
    have hrunning : state ≠ .shuttingDown := fun hstate => hdone (.inl hstate)
    have hstopped (hstate : s'.state = .stopped) (hreleased : s'.Released)
        (hkept : s'.provider.isSome = s.provider.isSome) :
        Consistent providerEnabled .stopped (history ++ trace) s' :=
      { state_eq := hstate
        provider := hkept.trans h.provider
        balanced := hbalanced
        sustained := fun hstarted => by cases hstarted
        idle := fun _ => hreleased.idle
        released := fun _ => hreleased }
    cases e with
    | returned a =>
      obtain ⟨hstate, hreleased, hkept⟩ := hends
      have hnext : nextState state ⟨.shutdown, trace, .returned .done⟩ = .stopped := if_neg hrunning
      rw [andThen_returned, wp_pure]
      constructor
      · simp [Allowed, hdone, hclean]
      · rw [next, hnext]
        exact hstopped hstate hreleased hkept
    | raised x =>
      obtain ⟨hstate, hreleased, hkept⟩ := hends
      have hnext : nextState state ⟨.shutdown, trace, .raised x⟩ = .stopped := if_neg hrunning
      rw [andThen_raised]
      constructor
      · simp [Allowed, hdone, hclean]
      · rw [next, hnext]
        exact hstopped hstate hreleased hkept
    | cancelled =>
      obtain ⟨hstate, hidle, hkept⟩ := hends
      rw [andThen_cancelled]
      constructor
      · simp [Allowed, hdone, hclean]
      · exact
          { state_eq := hstate
            provider := hkept.trans h.provider
            balanced := hbalanced
            sustained := fun hstarted => by cases hstarted
            idle := fun _ => hidle
            released := fun hor => by rcases hor with hor | hor <;> cases hor }

/-- What a readiness answer keeps. -/
theorem Consistent.same (h : Consistent providerEnabled state history s) {trace : List Event}
    {s' : ApplicationLifecycle} (hsame : s.SameHeld s')
    (hbalanced : ∀ r, balance r trace = balance r []) :
    Consistent providerEnabled state (history ++ trace) s' := by
  have howned (r : Resource) : s'.owned r = s.owned r := by
    simp only [ApplicationLifecycle.owned, hsame.database, hsame.redis, hsame.provider]
  refine
    { state_eq := hsame.state.trans h.state_eq
      provider := hsame.provider ▸ h.provider
      balanced := h.balanced_append fun r => by rw [hbalanced r, howned r]
      sustained := fun hstarted => ?_
      idle := fun hother => ?_
      released := fun hdown => ?_ }
  · have hs := h.sustained hstarted
    exact ⟨hsame.database ▸ hs.engine, hsame.redis ▸ hs.pool, hsame.provider ▸ hs.provider⟩
  · have hs := h.idle hother
    intro d hd
    exact hs d (hsame.provider ▸ hd)
  · have hs := h.released hdown
    refine ⟨hsame.database ▸ hs.engine, hsame.redis ▸ hs.pool, ?_⟩
    intro d hd
    exact hs.idle d (hsame.provider ▸ hd)

theorem readinessSnapshot_follows (h : Consistent providerEnabled state history s) :
    Follows providerEnabled state history s .readinessSnapshot := by
  unfold Follows perform
  rw [wp_bind]
  by_cases hstarted : state = .started
  · refine wp_mono ?_ (readinessSnapshot_answers (h.sustained hstarted)
      (h.state_eq.trans hstarted) [])
    rintro trace s' e hanswered
    cases e with
    | raised x => exact absurd hanswered id
    | cancelled =>
      obtain ⟨hbalanced, hsame, hdirty⟩ := hanswered
      rw [andThen_cancelled]
      exact ⟨by simp [Allowed, hstarted, hdirty], h.same hsame hbalanced⟩
    | returned snapshot =>
      obtain ⟨hbalanced, hsame, hasked, hclean⟩ := hanswered
      have hready : snapshot.status = "ready" ↔ Clean trace := by simp [hclean, clean_nil]
      rw [h.provider] at hasked
      rw [andThen_returned, wp_pure]
      exact ⟨by simp [Allowed, hstarted, hready, hasked], h.same hsame hbalanced⟩
  · have hstate : s.state ≠ .started := h.state_eq ▸ hstarted
    rw [ApplicationLifecycle.readinessSnapshot, wp_bind, wp_get, andThen_returned, if_neg hstate,
      wp_pure, andThen_returned, wp_pure, List.append_nil]
    refine ⟨?_, h⟩
    have hready : s.isReady = false := by
      rw [← Bool.not_eq_true, isReady_iff]
      exact fun hready => hstate hready.1
    simp [Allowed, hstarted, readinessResponse, hready, h.state_eq]

/-- **One operation follows the automaton**, and keeps what holds between two operations. -/
theorem perform_follows (h : Consistent providerEnabled state history s) (operation : Operation) :
    Follows providerEnabled state history s operation := by
  cases operation with
  | start => exact start_follows h
  | readinessSnapshot => exact readinessSnapshot_follows h
  | shutdown => exact shutdown_follows h

end Steps

/-! ## Whole lives -/

section Lives

variable {providerEnabled : Bool} {steps : List Performed} {s : ApplicationLifecycle}

theorem lived_consistent (h : Lived perform (fresh providerEnabled) steps s) :
    Along next (Allowed providerEnabled) .starting steps ∧
      Consistent providerEnabled (run next .starting steps) (steps.flatMap Step.trace) s := by
  have hstep (state : LifecycleState) (operation : Operation) (history : List Event)
      (s : ApplicationLifecycle) (hs : Consistent providerEnabled state history s) :
      Follows providerEnabled state history s operation := perform_follows hs operation
  exact h.along (I := Consistent providerEnabled) hstep (fresh_consistent providerEnabled)

/-- **The lifecycle refines the automaton of its outcomes.**  Whatever the operations are and however
    their calls end, the state of the application is the one that the outcomes lead to, and each
    operation ends as the automaton allows in the state before it. -/
theorem lifecycle_refined (h : Lived perform (fresh providerEnabled) steps s) :
    s.state = run next .starting steps ∧ Along next (Allowed providerEnabled) .starting steps := by
  obtain ⟨halong, hconsistent⟩ := lived_consistent h
  exact ⟨hconsistent.state_eq, halong⟩

/-- The world in which all calls go well. -/
def welcoming : (q : Call) → Answer q
  | .immediate _ => .ok ()
  | .awaited _ => .returned ()
  | .logged _ => .returned ()
  | .createClient => ()
  | .ping => .returned true
  | .getHealth => .returned .healthy
  | .runtimeStatus => ⟨true, false, false⟩

/-- The world in which the tasks of a runtime cannot be stopped. -/
def unstoppable (_ : List Event) (q : Call) : Answer q :=
  match q with
  | .immediate .stopTasks => .error .other
  | q => welcoming q

/-- The world in which a shutdown is cancelled while the pool is closed. -/
def interrupting (_ : List Event) (q : Call) : Answer q :=
  match q with
  | .awaited .closePool => .cancelled
  | q => welcoming q

/-- A start, an answer, a shutdown, and a second one. -/
def oneDay : List Operation := [.start, .readinessSnapshot, .shutdown, .shutdown]

/-- The shutdown of that day raises, and the application is stopped. -/
theorem oneDay_refined :
    (live perform unstoppable (fresh true) oneDay).1.map (·.ended.isReturned) =
        [true, true, false, true] ∧
      run next .starting (live perform unstoppable (fresh true) oneDay).1 = .stopped :=
  ⟨by decide +kernel,
    (lifecycle_refined (live_lived unstoppable (fresh true) oneDay)).1.symm.trans (by decide +kernel)⟩

/-- What a started application holds. -/
def needed (providerEnabled : Bool) : Resource → ℤ
  | .engine => 1
  | .pool => 1
  | .client => 0
  | .adapter => if providerEnabled then 1 else 0
  | .runtime => if providerEnabled then 1 else 0

/-- While a shutdown is in progress nothing is asked any more. -/
theorem shuttingDown_final {after : List Performed}
    (h : Along next (Allowed providerEnabled) .shuttingDown after) :
    (∀ q ∈ after, q.trace = [] ∧ (q.operation = .start → q.ended = .raised .startupBlocked)) ∧
      run next .shuttingDown after = .shuttingDown := by
  induction after with
  | nil => exact ⟨fun q hq => (by cases hq), rfl⟩
  | cons q after ih =>
    obtain ⟨hallowed, hrest⟩ := h
    obtain ⟨operation, trace, ended⟩ := q
    have hquiet : trace = [] ∧ (operation = .start → ended = .raised .startupBlocked) ∧
        nextState .shuttingDown ⟨operation, trace, ended⟩ = .shuttingDown := by
      cases operation with
      | start =>
        obtain ⟨htrace, hended⟩ : trace = [] ∧ ended = .raised .startupBlocked := hallowed
        subst hended
        exact ⟨htrace, fun _ => rfl, rfl⟩
      | readinessSnapshot =>
        obtain ⟨htrace, -⟩ : trace = [] ∧ _ := hallowed
        exact ⟨htrace, fun h => (by cases h), rfl⟩
      | shutdown =>
        obtain ⟨htrace, hended⟩ : trace = [] ∧ ended = .returned .done := hallowed
        subst hended
        exact ⟨htrace, fun h => (by cases h), rfl⟩
    obtain ⟨htrace, hrefused, hnext⟩ := hquiet
    rw [next, hnext] at hrest
    obtain ⟨hafter, hend⟩ := ih hrest
    rw [run_cons, next, hnext]
    refine ⟨fun p hp => ?_, hend⟩
    rcases List.mem_cons.mp hp with rfl | hp
    · exact ⟨htrace, hrefused⟩
    · exact hafter p hp

/-- How the operation at a place has ended. -/
def endedAt (steps : List Performed) (i : ℕ) : Option (Operation × Ended ApplicationError Response) :=
  steps[i]?.map fun p => (p.operation, p.ended)

/-- **An interrupted shutdown is final.**  Once a shutdown has been cancelled, no later operation asks
    anything, so that what it had not closed stays open, and every start is refused. -/
theorem interrupted_shutdown_final (h : Lived perform (fresh providerEnabled) steps s) {i : ℕ}
    (hinterrupted : endedAt steps i = some (.shutdown, .cancelled)) :
    (∀ q ∈ steps.drop (i + 1),
      q.trace = [] ∧ (q.operation = .start → q.ended = .raised .startupBlocked)) ∧
      s.state = .shuttingDown := by
  obtain ⟨halong, hconsistent⟩ := lived_consistent h
  have hstate := hconsistent.state_eq
  obtain ⟨p, hp, hends⟩ := Option.map_eq_some_iff.mp hinterrupted
  obtain ⟨hlt, rfl⟩ := List.getElem?_eq_some_iff.mp hp
  have hsteps : steps = steps.take i ++ steps[i] :: steps.drop (i + 1) := by
    rw [← List.drop_eq_getElem_cons hlt, List.take_append_drop]
  have hnext (state : LifecycleState) : nextState state steps[i] = .shuttingDown := by
    obtain ⟨hshutdown, hcancelled⟩ := Prod.mk.inj hends
    simp [nextState, hshutdown, hcancelled]
  rw [hsteps, along_append, along_cons, next, hnext] at halong
  rw [hsteps, run_append, run_cons, next, hnext] at hstate
  obtain ⟨hafter, hend⟩ := shuttingDown_final halong.2.2
  exact ⟨hafter, hstate.trans hend⟩

/-- A start, a shutdown that is interrupted, and a second start. -/
def interruptedDay : List Performed × ApplicationLifecycle :=
  live perform interrupting (fresh true) [.start, .shutdown, .start]

theorem interruptedDay_lived : Lived perform (fresh true) interruptedDay.1 interruptedDay.2 :=
  live_lived interrupting (fresh true) _

/-- The second start is refused, and the engine stays open. -/
theorem interruptedDay_final :
    ((interruptedDay.1.flatMap Step.trace).countP (opens .engine) = 1 ∧
      (interruptedDay.1.flatMap Step.trace).countP (closes .engine) = 0) ∧
    ∀ q ∈ interruptedDay.1.drop (1 + 1),
      q.trace = [] ∧ (q.operation = .start → q.ended = .raised .startupBlocked) :=
  ⟨by decide +kernel, (interrupted_shutdown_final interruptedDay_lived (i := 1) (by decide +kernel)).1⟩

end Lives

end ApexScan.Lifecycle
