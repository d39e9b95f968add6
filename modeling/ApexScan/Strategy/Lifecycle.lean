import ApexScan.Lib.Dict

/-!
# The lifecycle state machine of strategies (`app/strategy_manager/lifecycle.py`)

Every strategy id has a state of its own.  A command is permitted from some states and leads to one;
anything else is refused and changes nothing.

* `commandTransitions` — the transition table; `StrategyLifecycle.apply` — a command.
* `apply_of_permits`, `apply_of_not_permits` — what a command does, and when it is refused.
* `not_permits_shutdown` — nothing leaves SHUTDOWN.
-/

set_option autoImplicit false

namespace ApexScan

open Lib

/-- `StrategyLifecycleState`. -/
inductive StrategyLifecycleState where
  | registered
  | starting
  | running
  | paused
  | stopped
  | error
  | shutdown
  deriving DecidableEq, Repr

inductive LifecycleCommand where
  | start
  | markRunning
  | pause
  | resume
  | stop
  | markError
  | forceStop
  | shutdown
  deriving DecidableEq, Repr

/-- `_COMMAND_TRANSITIONS`, the permitted source states and the target; the rows of `force_stop` and
    `shutdown`, which the source writes out in the commands themselves, are those without extra
    conditions. -/
def commandTransitions : LifecycleCommand → List StrategyLifecycleState × StrategyLifecycleState
  | .start => ([.registered, .stopped, .error], .starting)
  | .markRunning => ([.starting], .running)
  | .pause => ([.running], .paused)
  | .resume => ([.paused], .running)
  | .stop => ([.running, .paused, .error], .stopped)
  | .markError => ([.starting, .running], .error)
  | .forceStop => ([.running, .paused, .error], .stopped)
  | .shutdown => ([.registered, .starting, .running, .paused, .stopped, .error], .shutdown)

/-- The errors of `errors.py`. -/
inductive StrategyLifecycleError where
  | notTracked (strategyId : String)
  | alreadyTracked (strategyId : String)
  | invalidTransition (strategyId : String) (currentState : StrategyLifecycleState)
      (command : LifecycleCommand)
  deriving DecidableEq, Repr

/-- `StrategyLifecycle`. -/
structure StrategyLifecycle where
  states : Dict String StrategyLifecycleState := []

namespace StrategyLifecycle

/-- `state_of`; `none` for an untracked strategy. -/
def stateOf (l : StrategyLifecycle) (strategyId : String) : Option StrategyLifecycleState :=
  l.states.get strategyId

/-- `self._states[strategy_id] = state`. -/
def put (l : StrategyLifecycle) (strategyId : String) (state : StrategyLifecycleState) :
    StrategyLifecycle :=
  ⟨l.states.set strategyId state⟩

/-- `register`. -/
def register (l : StrategyLifecycle) (strategyId : String) :
    Except StrategyLifecycleError StrategyLifecycle :=
  match l.stateOf strategyId with
  | some _ => .error (.alreadyTracked strategyId)
  | none => .ok (l.put strategyId .registered)

/-- `_apply`; the state it returns is the target of the command. -/
def apply (l : StrategyLifecycle) (strategyId : String) (command : LifecycleCommand) :
    Except StrategyLifecycleError StrategyLifecycle :=
  match l.stateOf strategyId with
  | none => .error (.notTracked strategyId)
  | some current =>
    if current ∈ (commandTransitions command).1 then
      .ok (l.put strategyId (commandTransitions command).2)
    else .error (.invalidTransition strategyId current command)

def start (l : StrategyLifecycle) (strategyId : String) := l.apply strategyId .start

def markRunning (l : StrategyLifecycle) (strategyId : String) := l.apply strategyId .markRunning

def pause (l : StrategyLifecycle) (strategyId : String) := l.apply strategyId .pause

def resume (l : StrategyLifecycle) (strategyId : String) := l.apply strategyId .resume

def stop (l : StrategyLifecycle) (strategyId : String) := l.apply strategyId .stop

def markError (l : StrategyLifecycle) (strategyId : String) := l.apply strategyId .markError

def shutdown (l : StrategyLifecycle) (strategyId : String) := l.apply strategyId .shutdown

/-- `force_stop`; with `clean_cancellable` also from STARTING. -/
def forceStop (l : StrategyLifecycle) (strategyId : String) (cleanCancellable : Bool := false) :
    Except StrategyLifecycleError StrategyLifecycle :=
  match l.stateOf strategyId with
  | none => .error (.notTracked strategyId)
  | some current =>
    if current ∈ (commandTransitions .forceStop).1 ∨ current = .starting ∧ cleanCancellable = true then
      .ok (l.put strategyId .stopped)
    else .error (.invalidTransition strategyId current .forceStop)

/-- Without the proof `force_stop` is its row of the table. -/
theorem forceStop_eq_apply (l : StrategyLifecycle) (strategyId : String) :
    l.forceStop strategyId = l.apply strategyId .forceStop := by
  unfold forceStop apply
  cases l.stateOf strategyId with
  | none => rfl
  | some current => simp [commandTransitions]

@[simp] theorem stateOf_put (l : StrategyLifecycle) (strategyId other : String)
    (state : StrategyLifecycleState) :
    (l.put strategyId state).stateOf other =
      if strategyId = other then some state else l.stateOf other :=
  Dict.get_set _ _ _ _

@[simp] theorem put_put (l : StrategyLifecycle) (strategyId : String)
    (state state' : StrategyLifecycleState) :
    (l.put strategyId state).put strategyId state' = l.put strategyId state' := by
  unfold put
  rw [Dict.set_set]

/-- The command is permitted in the state of the strategy. -/
def Permits (l : StrategyLifecycle) (strategyId : String) (command : LifecycleCommand) : Prop :=
  ∃ current ∈ (commandTransitions command).1, l.stateOf strategyId = some current

section Apply

variable {l : StrategyLifecycle} {strategyId : String} {command : LifecycleCommand}

/-- A permitted command sets its strategy to the target and leaves the others. -/
theorem apply_of_permits (h : l.Permits strategyId command) :
    l.apply strategyId command = .ok (l.put strategyId (commandTransitions command).2) := by
  obtain ⟨current, hmem, hstate⟩ := h
  unfold apply
  simp [hstate, hmem]

/-- The error of a command that is not permitted depends on the state of the strategy only. -/
def refusal (strategyId : String) (command : LifecycleCommand) :
    Option StrategyLifecycleState → StrategyLifecycleError
  | none => .notTracked strategyId
  | some current => .invalidTransition strategyId current command

theorem apply_of_not_permits (h : ¬ l.Permits strategyId command) :
    l.apply strategyId command = .error (refusal strategyId command (l.stateOf strategyId)) := by
  unfold apply
  cases hstate : l.stateOf strategyId with
  | none => rfl
  | some current =>
    have hmem : current ∉ (commandTransitions command).1 := fun hmem => h ⟨current, hmem, hstate⟩
    simp [hmem, refusal]

theorem Permits.congr {l' : StrategyLifecycle} (h : l'.stateOf strategyId = l.stateOf strategyId) :
    l'.Permits strategyId command ↔ l.Permits strategyId command := by
  unfold Permits
  rw [h]

/-- Nothing leaves SHUTDOWN. -/
theorem not_permits_shutdown (h : l.stateOf strategyId = some .shutdown) :
    ¬ l.Permits strategyId command := by
  rintro ⟨current, hmem, hstate⟩
  rw [h] at hstate
  cases hstate
  cases command <;> simp [commandTransitions] at hmem

end Apply

end StrategyLifecycle

end ApexScan
