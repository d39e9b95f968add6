import ApexScan.Adapters.Dhan.Subscriptions
import ApexScan.Lib.Procedure

/-!
# What the application starts and stops (`app/database/session.py`, `app/cache/redis_client.py`,
`app/adapters/base/provider_coordinator.py`, `app/services/dhan_runtime_composition.py`)

The dependencies of the application, each an object with a lifecycle.  Every `await` may return, raise
or be cancelled; code that awaits nothing returns or raises.

* `Call`, `Answer` — what the dependencies ask of the world.
* `DatabaseLifecycle`, `RedisLifecycle`, `ProviderCoordinator`, `LiveMarketRuntime`,
  `RuntimeComposition`, `LiveMarketRuntimeDependency` — the objects and their operations.
* `Resource`, `balance` — what is open, without what has been abandoned; `Clean` — every call so far has
  gone well.
* `Behaves` — an operation leaves open what its object owns, and returns exactly if all its calls go
  well.

Left out are the arguments that are only passed on (URLs, timeouts, the settings), an injected adapter,
and a composition without a provider, which the application never starts.
-/

set_option autoImplicit false

namespace ApexScan.Lifecycle

open Lib Procedure
open Dhan (ProviderStatus)

/-! ## The calls -/

/-- An exception of something outside; timeouts are mapped to an error of their own. -/
inductive Fault where
  | timeout
  | other
  deriving DecidableEq, Repr

@[simp] theorem Fault.forall_iff {P : Fault → Prop} : (∀ f, P f) ↔ P .timeout ∧ P .other := by
  constructor
  · intro h
    exact ⟨h .timeout, h .other⟩
  · rintro ⟨htimeout, hother⟩ (_ | _)
    · exact htimeout
    · exact hother

/-- What awaits nothing, or lets no cancellation through. -/
inductive Immediate where
  | createEngine
  | makeSessions
  | createPool
  | createAdapter
  | resolve
  | assemble
  | subscribe
  | startTasks
  | stopTasks
  deriving DecidableEq, Repr

inductive Awaited where
  | selectOne
  | disposeEngine
  | closeClient
  | closePool
  | connect
  | disconnect
  | loadInstruments
  deriving DecidableEq, Repr

/-- What logs its exceptions and goes on. -/
inductive Logged where
  | startStrategies
  | startPublisher
  deriving DecidableEq, Repr

inductive Call where
  | immediate (c : Immediate)
  | awaited (c : Awaited)
  | logged (c : Logged)
  | createClient
  | ping
  | getHealth
  | runtimeStatus
  deriving DecidableEq, Repr

/-- What `verify_health` reads of `RuntimeStatus`. -/
structure RuntimeStatus where
  ingestionRunning : Bool
  fatalIngestionError : Bool
  fatalRefreshDriverError : Bool
  deriving DecidableEq, Repr

def RuntimeStatus.healthy (s : RuntimeStatus) : Bool :=
  s.ingestionRunning && !s.fatalIngestionError && !s.fatalRefreshDriverError

abbrev Answer : Call → Type
  | .immediate _ => Except Fault Unit
  | .awaited _ => Ended Fault Unit
  | .logged _ => Ended Empty Unit
  | .createClient => Unit
  | .ping => Ended Fault Bool
  | .getHealth => Ended Fault ProviderStatus
  | .runtimeStatus => RuntimeStatus

abbrev Event := Exchange Call Answer

/-- The exceptions of the dependencies. -/
inductive DependencyError where
  | databaseNotInitialized
  | databaseInitialization
  | databaseConnectivity
  | databaseCleanup
  | redisNotInitialized
  | redisInitialization
  | redisConnectivity
  | redisCleanup
  | providerLifecycle
  | providerInitialization
  | providerHealthCheck
  | providerOperationTimeout
  | providerCleanup
  | runtimeLifecycle
  | fault (f : Fault)
  deriving DecidableEq, Repr

/-- An operation of an object. -/
abbrev Action (σ α : Type) := Procedure Call Answer σ DependencyError α

section Calls

variable {σ α : Type}

/-- An exception of something outside, as it is. -/
def unmapped : Ended Fault α → Ended DependencyError α
  | .returned a => .returned a
  | .raised f => .raised (.fault f)
  | .cancelled => .cancelled

def immediate (c : Immediate) : Action σ Unit :=
  call (.immediate c) fun answer => match answer with
    | .ok () => .returned ()
    | .error f => .raised (.fault f)

def awaited (c : Awaited) : Action σ Unit := call (.awaited c) unmapped

def logged (c : Logged) : Action σ Unit :=
  call (.logged c) fun answer => match answer with
    | .returned () => .returned ()
    | .cancelled => .cancelled

end Calls

/-! ## PostgreSQL and Redis -/

/-- `DatabaseLifecycle`: whether it has an engine, and with it a session factory. -/
structure DatabaseLifecycle where
  engine : Bool := false
  deriving DecidableEq, Repr

namespace DatabaseLifecycle

/-- `initialize`. -/
def initializeEngine : Action DatabaseLifecycle Unit := do
  let database ← get
  if database.engine then pure ()
  else do
    (immediate .createEngine).catching fun _ => raise .databaseInitialization
    (immediate .makeSessions).catching fun _ => do
      (awaited .disposeEngine).catching fun _ => raise .databaseInitialization
      raise .databaseInitialization
    modify fun _ => { engine := true }

def verifyConnectivity : Action DatabaseLifecycle Unit := do
  let database ← get
  if database.engine then (awaited .selectOne).catching fun _ => raise .databaseConnectivity
  else raise .databaseNotInitialized

/-- `dispose`; the engine is forgotten first. -/
def dispose : Action DatabaseLifecycle Unit := do
  let database ← get
  modify fun _ => { engine := false }
  if database.engine then (awaited .disposeEngine).catching fun _ => raise .databaseCleanup
  else pure ()

end DatabaseLifecycle

/-- `RedisLifecycle`: whether it has a pool. -/
structure RedisLifecycle where
  pool : Bool := false
  deriving DecidableEq, Repr

namespace RedisLifecycle

/-- `initialize`. -/
def initializePool : Action RedisLifecycle Unit := do
  let redis ← get
  if redis.pool then pure ()
  else do
    (immediate .createPool).catching fun _ => raise .redisInitialization
    modify fun _ => { pool := true }

/-- `create_client`. -/
def createClient : Action RedisLifecycle Unit := do
  let redis ← get
  if redis.pool then call .createClient fun _ => .returned () else raise .redisNotInitialized

def ping : Action RedisLifecycle Bool := call .ping unmapped

/-- `verify_connectivity`; the client is closed whatever the ping does. -/
def verifyConnectivity : Action RedisLifecycle Unit := do
  createClient
  let pinged : Action RedisLifecycle Unit := do
    let acknowledged ← ping.catching fun _ => raise .redisConnectivity
    if acknowledged then pure () else raise .redisConnectivity
  pinged.ensuring (awaited .closeClient)

/-- `close`; the pool is forgotten first. -/
def close : Action RedisLifecycle Unit := do
  let redis ← get
  modify fun _ => { pool := false }
  if redis.pool then (awaited .closePool).catching fun _ => raise .redisCleanup
  else pure ()

end RedisLifecycle

/-! ## The provider -/

/-- `ProviderCoordinator`, which has an adapter; whether the timeout has been set. -/
structure ProviderCoordinator where
  timeoutSet : Bool := false
  connectAttempted : Bool := false
  started : Bool := false
  deriving DecidableEq, Repr

namespace ProviderCoordinator

/-- `_run_with_timeout`. -/
def runWithTimeout {α : Type} (operation : Action ProviderCoordinator α) :
    Action ProviderCoordinator α := do
  let coordinator ← get
  if coordinator.timeoutSet then
    operation.catching fun e => match e with
      | .fault .timeout => raise .providerOperationTimeout
      | e => raise e
  else raise .providerLifecycle

/-- The adapter's `get_health`. -/
def getHealth : Action ProviderCoordinator ProviderStatus := call .getHealth unmapped

def verifyHealth : Action ProviderCoordinator ProviderStatus :=
  (runWithTimeout getHealth).catching fun e => match e with
    | .providerOperationTimeout => raise e
    | _ => raise .providerHealthCheck

def start : Action ProviderCoordinator Unit := do
  let coordinator ← get
  if coordinator.started then pure ()
  else do
    modify fun c => { c with timeoutSet := true, connectAttempted := true }
    (runWithTimeout (awaited .connect)).catching fun e => match e with
      | .providerOperationTimeout => raise e
      | _ => raise .providerInitialization
    let status ← verifyHealth.catching fun e => match e with
      | .providerOperationTimeout => raise e
      | _ => raise .providerInitialization
    if status = .healthy then modify fun c => { c with started := true }
    else raise .providerInitialization

def shutdown : Action ProviderCoordinator Unit := do
  let coordinator ← get
  modify fun c => { c with connectAttempted := false, started := false }
  if coordinator.connectAttempted then
    (runWithTimeout (awaited .disconnect)).catching fun _ => raise .providerCleanup
  else pure ()

/-- `_safe_shutdown`. -/
def safeShutdown : Action ProviderCoordinator Unit := shutdown.catching fun _ => pure ()

/-- The `try` of `compose_market_runtime`: the universe, the calendar and the strategies are resolved
    once the instruments are loaded. -/
def prepare : Action ProviderCoordinator Unit :=
  cleaningUp (do start; awaited .loadInstruments; immediate .resolve) safeShutdown

end ProviderCoordinator

/-! ## The runtime -/

inductive RuntimeState where
  | notStarted
  | started
  | shutdown
  deriving DecidableEq, Repr

/-- `LiveMarketRuntime`, of which only the phase matters here. -/
structure LiveMarketRuntime where
  state : RuntimeState := .notStarted
  deriving DecidableEq, Repr

namespace LiveMarketRuntime

def start : Action LiveMarketRuntime Unit := do
  let runtime ← get
  match runtime.state with
  | .shutdown => raise .runtimeLifecycle
  | .started => pure ()
  | .notStarted => do
    immediate .subscribe
    modify fun r => { r with state := .started }
    logged .startStrategies
    logged .startPublisher
    immediate .startTasks

/-- `shutdown`; the cancellation of a task swallows one of the caller, too. -/
def shutdown : Action LiveMarketRuntime Unit := do
  let runtime ← get
  if runtime.state = .shutdown then pure ()
  else do
    modify fun r => { r with state := .shutdown }
    immediate .stopTasks

end LiveMarketRuntime

/-- `RuntimeComposition`. -/
structure RuntimeComposition where
  runtime : LiveMarketRuntime
  coordinator : ProviderCoordinator
  deriving DecidableEq, Repr

namespace RuntimeComposition

def onRuntime {α : Type} (p : Action LiveMarketRuntime α) : Action RuntimeComposition α :=
  p.on (·.runtime) fun r c => { c with runtime := r }

def onCoordinator {α : Type} (p : Action ProviderCoordinator α) : Action RuntimeComposition α :=
  p.on (·.coordinator) fun p c => { c with coordinator := p }

def start : Action RuntimeComposition Unit := onRuntime LiveMarketRuntime.start

/-- `shutdown`; where the runtime raises, the provider is not reached. -/
def shutdown : Action RuntimeComposition Unit := do
  onRuntime LiveMarketRuntime.shutdown
  onCoordinator ProviderCoordinator.shutdown

/-- What `LiveMarketRuntimeDependency.start` does with a new composition. -/
def launch : Action RuntimeComposition Unit := start.cleaningUp shutdown

end RuntimeComposition

/-- `compose_market_runtime`, with the provider enabled. -/
def composeMarketRuntime {σ : Type} : Action σ RuntimeComposition := do
  immediate .createAdapter
  let coordinator ← build {} ProviderCoordinator.prepare
  immediate .assemble
  return { runtime := {}, coordinator }

/-- `LiveMarketRuntimeDependency`. -/
structure LiveMarketRuntimeDependency where
  composition : Option RuntimeComposition := none
  deriving DecidableEq, Repr

namespace LiveMarketRuntimeDependency

def start : Action LiveMarketRuntimeDependency Unit := do
  let dependency ← get
  match dependency.composition with
  | some _ => pure ()
  | none => do
    let composition ← composeMarketRuntime
    let composition ← build composition RuntimeComposition.launch
    modify fun _ => { composition := some composition }

/-- The calls of `verify_health` for a composition. -/
def observe : Action RuntimeComposition ProviderStatus := do
  let status ← RuntimeComposition.onCoordinator ProviderCoordinator.verifyHealth
  let runtime : RuntimeStatus ← call .runtimeStatus .returned
  return if status = .healthy ∧ runtime.healthy = true then .healthy else .down

def verifyHealth : Action LiveMarketRuntimeDependency ProviderStatus := do
  let dependency ← get
  match dependency.composition with
  | none => pure .unknown
  | some composition => observe.on (fun _ => composition) fun c _ => { composition := some c }

/-- `shutdown`; the composition is forgotten first. -/
def shutdown : Action LiveMarketRuntimeDependency Unit := do
  let dependency ← get
  modify fun _ => { composition := none }
  match dependency.composition with
  | none => pure ()
  | some composition => do
    let _ ← build composition RuntimeComposition.shutdown

end LiveMarketRuntimeDependency

/-! ## What is open -/

/-- What has to be closed again: the engine, the pool and the clients of the pool, a connected adapter,
    and the tasks and subscriptions of a runtime. -/
inductive Resource where
  | engine
  | pool
  | client
  | adapter
  | runtime
  deriving DecidableEq, Repr

@[simp] theorem isOk_ok {ε α : Type} (a : α) : (Except.ok a : Except ε α).isOk = true := rfl

@[simp] theorem isOk_error {ε α : Type} (e : ε) : (Except.error e : Except ε α).isOk = false := rfl

/-- Whether a call opens a resource; an adapter has to be disconnected even where it did not connect. -/
@[simp] def opens (r : Resource) : Event → Bool
  | ⟨.immediate .createEngine, answer⟩ => answer.isOk && r == .engine
  | ⟨.immediate .createPool, answer⟩ => answer.isOk && r == .pool
  | ⟨.createClient, _⟩ => r == .client
  | ⟨.awaited .connect, _⟩ => r == .adapter
  | ⟨.immediate .assemble, answer⟩ => answer.isOk && r == .runtime
  | _ => false

/-- Whether a call closes a resource, as well as that can be done. -/
@[simp] def closes (r : Resource) : Event → Bool
  | ⟨.awaited .disposeEngine, _⟩ => r == .engine
  | ⟨.awaited .closePool, _⟩ => r == .pool
  | ⟨.awaited .closeClient, _⟩ => r == .client
  | ⟨.awaited .disconnect, _⟩ => r == .adapter
  | ⟨.immediate .stopTasks, _⟩ => r == .runtime
  | _ => false

/-- Whether the call makes the application forget a connected adapter: the runtime cannot be assembled
    around it, or raises while it is stopped. -/
@[simp] def abandons : Event → Bool
  | ⟨.immediate .assemble, answer⟩ => !answer.isOk
  | ⟨.immediate .stopTasks, answer⟩ => !answer.isOk
  | _ => false

/-- Whether a call has gone well. -/
@[simp] def succeeds : Event → Bool
  | ⟨.immediate _, answer⟩ => answer.isOk
  | ⟨.awaited _, answer⟩ => answer.isReturned
  | ⟨.logged _, answer⟩ => answer.isReturned
  | ⟨.createClient, _⟩ => true
  | ⟨.ping, answer⟩ => answer.returns id
  | ⟨.getHealth, answer⟩ => answer.returns (· == .healthy)
  | ⟨.runtimeStatus, answer⟩ => answer.healthy

/-- What is open and not closed, without the adapters that have been forgotten. -/
def balance (r : Resource) (history : List Event) : ℤ :=
  history.countP (opens r) - history.countP (closes r) -
    if r = .adapter then history.countP abandons else 0

/-- Every call so far has gone well. -/
def Clean (history : List Event) : Prop := ∀ x ∈ history, succeeds x = true

@[simp] theorem clean_nil : Clean [] := fun _ h => by cases h

@[simp] theorem clean_cons {x : Event} {history : List Event} :
    Clean (x :: history) ↔ succeeds x = true ∧ Clean history := by
  simp [Clean]

@[simp] theorem clean_append {history later : List Event} :
    Clean (history ++ later) ↔ Clean history ∧ Clean later := by
  simp [Clean, or_imp, forall_and]

/-- What a call adds to the balance. -/
@[simp] def due (r : Resource) (x : Event) : ℤ :=
  (if opens r x = true then 1 else 0) - (if closes r x = true then 1 else 0) -
    if r = .adapter ∧ abandons x = true then 1 else 0

@[simp] theorem balance_nil (r : Resource) : balance r [] = 0 := by
  simp [balance]

@[simp] theorem balance_cons (r : Resource) (x : Event) (history : List Event) :
    balance r (x :: history) = due r x + balance r history := by
  simp only [balance, due, List.countP_cons]
  push_cast
  split_ifs <;> simp_all <;> omega

@[simp] theorem balance_append (r : Resource) (history later : List Event) :
    balance r (history ++ later) = balance r history + balance r later := by
  simp only [balance, List.countP_append]
  push_cast
  split_ifs <;> omega

/-- An operation leaves open what its object owns, and returns a good value exactly if all its calls go
    well. -/
structure Sound {σ ε α : Type} (owned : Resource → σ → ℤ) (good : α → Bool) (history : List Event)
    (s : σ) (history' : List Event) (s' : σ) (e : Ended ε α) : Prop where
  balanced : ∀ r, balance r history' + owned r s = balance r history + owned r s'
  clean : Clean history' ↔ Clean history ∧ e.returns good = true

theorem sound_iff {σ ε α : Type} {owned : Resource → σ → ℤ} {good : α → Bool}
    {history history' : List Event} {s s' : σ} {e : Ended ε α} :
    Sound owned good history s history' s' e ↔
      (∀ r, balance r history' + owned r s = balance r history + owned r s') ∧
        (Clean history' ↔ Clean history ∧ e.returns good = true) :=
  ⟨fun h => ⟨h.balanced, h.clean⟩, fun h => ⟨h.1, h.2⟩⟩

/-- Any value is good. -/
abbrev any {α : Type} : α → Bool := fun _ => true

/-- Every run of an operation from `s` is sound and ends with `R`. -/
def Behaves {σ ε α : Type} (owned : Resource → σ → ℤ) (good : α → Bool) (R : σ → Ended ε α → Prop)
    (p : Procedure Call Answer σ ε α) (s : σ) : Prop :=
  ∀ history, wp p (fun history' s' e => Sound owned good history s history' s' e ∧ R s' e) history s

section Rules

variable {σ ε ε' α β : Type} {owned : Resource → σ → ℤ} {good : β → Bool}

/-- The first part of a composed operation leaves the rest to the second part. -/
theorem Behaves.bind {p : Procedure Call Answer σ ε α} {f : α → Procedure Call Answer σ ε β} {s : σ}
    {M : σ → Ended ε α → Prop} {R : σ → Ended ε β → Prop} (hp : Behaves owned any M p s)
    (hf : ∀ s' a, M s' (.returned a) → Behaves owned good R (f a) s')
    (hraised : ∀ s' e, M s' (.raised e) → R s' (.raised e))
    (hcancelled : ∀ s', M s' .cancelled → R s' .cancelled) : Behaves owned good R (p >>= f) s := by
  intro history
  rw [wp_bind]
  refine wp_mono ?_ (hp history)
  rintro h s' e ⟨hsound, hM⟩
  cases e with
  | returned a =>
    rw [andThen_returned]
    refine wp_mono ?_ (hf s' a hM h)
    rintro h' s'' e ⟨hrest, hR⟩
    refine ⟨⟨fun r => ?_, ?_⟩, hR⟩
    · have hfirst := hsound.balanced r
      have hsecond := hrest.balanced r
      omega
    · rw [hrest.clean, hsound.clean]
      simp
  | raised e => exact ⟨⟨hsound.balanced, hsound.clean⟩, hraised s' e hM⟩
  | cancelled => exact ⟨⟨hsound.balanced, hsound.clean⟩, hcancelled s' hM⟩

/-- An operation of a part of the state, where the state owns what its parts own. -/
theorem Behaves.on {τ : Type} {part : σ → τ} {put : τ → σ → σ} {ownedPart : Resource → τ → ℤ}
    {p : Procedure Call Answer τ ε β} {s : σ} {M : τ → Ended ε β → Prop} {R : σ → Ended ε β → Prop}
    (hp : Behaves ownedPart good M p (part s))
    (howned : ∀ r t, owned r (put t s) + ownedPart r (part s) = owned r s + ownedPart r t)
    (hR : ∀ t e, M t e → R (put t s) e) : Behaves owned good R (p.on part put) s := by
  intro history
  rw [wp_on]
  refine wp_mono ?_ (hp history)
  rintro h t e ⟨hsound, hM⟩
  refine ⟨⟨fun r => ?_, hsound.clean⟩, hR t e hM⟩
  have hpart := hsound.balanced r
  have hput := howned r t
  omega

theorem Behaves.pure {s : σ} {b : β} {R : σ → Ended ε β → Prop} (hgood : good b = true)
    (hR : R s (.returned b)) : Behaves owned good R (Pure.pure b) s := by
  intro history
  simp [sound_iff, hgood, hR]

theorem Behaves.read {f : σ → Procedure Call Answer σ ε β} {s : σ} {R : σ → Ended ε β → Prop}
    (h : Behaves owned good R (f s) s) : Behaves owned good R (get >>= f) s := by
  intro history
  rw [wp_bind, wp_get]
  exact h history

theorem Behaves.modify {s : σ} {f : σ → σ} {R : σ → Ended ε Unit → Prop}
    (howned : ∀ r, owned r (f s) = owned r s) (hR : R (f s) (.returned ())) :
    Behaves owned any R (Procedure.modify f) s := by
  intro history
  simp [sound_iff, howned, hR]

/-- An end with `G` where it returns, and with `F` where it fails. -/
def Ends (F : σ → Prop) (G : α → σ → Prop) (s : σ) : Ended ε α → Prop
  | .returned a => G a s
  | _ => F s

/-- The next stage, where every stage fails alike. -/
theorem Behaves.next {p : Procedure Call Answer σ ε α} {f : α → Procedure Call Answer σ ε β} {s : σ}
    {F : σ → Prop} {G : α → σ → Prop} {H : β → σ → Prop} (hp : Behaves owned any (Ends F G) p s)
    (hf : ∀ s' a, G a s' → Behaves owned good (Ends F H) (f a) s') :
    Behaves owned good (Ends F H) (p >>= f) s :=
  hp.bind hf (fun _ _ h => h) fun _ h => h

end Rules

/-! ## What the calls do -/

section Calls

variable {σ : Type} {R : Post Call Answer σ DependencyError Unit} {history : List Event} {s : σ}

@[simp] theorem wp_immediate {c : Immediate} :
    wp (immediate c) R history s ↔
      R (history ++ [⟨.immediate c, .ok ()⟩]) s (.returned ()) ∧
        ∀ f, R (history ++ [⟨.immediate c, .error f⟩]) s (.raised (.fault f)) := by
  rw [immediate, wp_call]
  constructor
  · intro h
    exact ⟨h (.ok ()), fun f => h (.error f)⟩
  · rintro ⟨hok, herror⟩ (f | ⟨⟩)
    · exact herror f
    · exact hok

@[simp] theorem wp_awaited {c : Awaited} :
    wp (awaited c) R history s ↔
      (∀ a, R (history ++ [⟨.awaited c, .returned a⟩]) s (.returned a)) ∧
        (∀ f, R (history ++ [⟨.awaited c, .raised f⟩]) s (.raised (.fault f))) ∧
          R (history ++ [⟨.awaited c, .cancelled⟩]) s .cancelled := by
  rw [awaited, wp_call]
  exact Ended.forall_iff

@[simp] theorem wp_logged {c : Logged} :
    wp (logged c) R history s ↔
      (∀ a, R (history ++ [⟨.logged c, .returned a⟩]) s (.returned a)) ∧
        R (history ++ [⟨.logged c, .cancelled⟩]) s .cancelled := by
  rw [logged, wp_call]
  exact Ended.forall_iff.trans (by simp)

@[simp] theorem wp_ping {R : Post Call Answer RedisLifecycle DependencyError Bool}
    {s : RedisLifecycle} :
    wp RedisLifecycle.ping R history s ↔
      (∀ b, R (history ++ [⟨.ping, .returned b⟩]) s (.returned b)) ∧
        (∀ f, R (history ++ [⟨.ping, .raised f⟩]) s (.raised (.fault f))) ∧
          R (history ++ [⟨.ping, .cancelled⟩]) s .cancelled := by
  rw [RedisLifecycle.ping, wp_call]
  exact Ended.forall_iff

@[simp] theorem wp_getHealth {R : Post Call Answer ProviderCoordinator DependencyError ProviderStatus}
    {s : ProviderCoordinator} :
    wp ProviderCoordinator.getHealth R history s ↔
      (∀ status, R (history ++ [⟨.getHealth, .returned status⟩]) s (.returned status)) ∧
        (∀ f, R (history ++ [⟨.getHealth, .raised f⟩]) s (.raised (.fault f))) ∧
          R (history ++ [⟨.getHealth, .cancelled⟩]) s .cancelled := by
  rw [ProviderCoordinator.getHealth, wp_call]
  exact Ended.forall_iff

end Calls

namespace DatabaseLifecycle

def owned (r : Resource) (s : DatabaseLifecycle) : ℤ := if r = .engine ∧ s.engine = true then 1 else 0

theorem initializeEngine_behaves (s : DatabaseLifecycle) :
    Behaves owned any (fun s' e => e.isReturned = true → s'.engine = true) initializeEngine s := by
  intro history
  simp only [initializeEngine, wp_bind, wp_get, andThen_returned]
  split
  · rename_i hengine
    simp [sound_iff, hengine]
  · rename_i hengine
    simp [sound_iff, owned, hengine]

theorem verifyConnectivity_behaves {s : DatabaseLifecycle} (hs : s.engine = true) :
    Behaves owned any (fun s' _ => s' = s) verifyConnectivity s := by
  intro history
  simp [verifyConnectivity, sound_iff, hs]

theorem dispose_behaves (s : DatabaseLifecycle) :
    Behaves owned any (fun s' _ => s'.engine = false) dispose s := by
  intro history
  simp only [dispose, wp_bind, wp_get, andThen_returned, wp_modify]
  split
  · rename_i hengine
    simp [sound_iff, owned, hengine]
  · rename_i hengine
    simp [sound_iff, owned, hengine]

end DatabaseLifecycle

namespace RedisLifecycle

def owned (r : Resource) (s : RedisLifecycle) : ℤ := if r = .pool ∧ s.pool = true then 1 else 0

theorem initializePool_behaves (s : RedisLifecycle) :
    Behaves owned any (fun s' e => e.isReturned = true → s'.pool = true) initializePool s := by
  intro history
  simp only [initializePool, wp_bind, wp_get, andThen_returned]
  split
  · rename_i hpool
    simp [sound_iff, hpool]
  · rename_i hpool
    simp [sound_iff, owned, hpool]

theorem verifyConnectivity_behaves {s : RedisLifecycle} (hs : s.pool = true) :
    Behaves owned any (fun s' _ => s' = s) verifyConnectivity s := by
  intro history
  simp [verifyConnectivity, createClient, sound_iff, hs]

theorem close_behaves (s : RedisLifecycle) :
    Behaves owned any (fun s' _ => s'.pool = false) close s := by
  intro history
  simp only [close, wp_bind, wp_get, andThen_returned, wp_modify]
  split
  · rename_i hpool
    simp [sound_iff, owned, hpool]
  · rename_i hpool
    simp [sound_iff, owned, hpool]

end RedisLifecycle

namespace ProviderCoordinator

def owned (r : Resource) (s : ProviderCoordinator) : ℤ :=
  if r = .adapter ∧ s.connectAttempted = true then 1 else 0

theorem verifyHealth_behaves {s : ProviderCoordinator} (hs : s.timeoutSet = true) :
    Behaves owned (· == .healthy) (fun s' _ => s' = s) verifyHealth s := by
  intro history
  simp [verifyHealth, runWithTimeout, sound_iff, hs]

theorem start_behaves :
    Behaves owned any
      (fun s' e => s'.timeoutSet = true ∧ (e.isReturned = true → s'.connectAttempted = true))
      start {} := by
  intro history
  simp only [start, wp_bind, wp_get, wp_modify, andThen_returned, Bool.false_eq_true, if_false]
  simp [verifyHealth, runWithTimeout, sound_iff, owned]
  intro _ status
  split
  · rename_i hstatus
    simp [hstatus]
  · rename_i hstatus
    simp [hstatus]

theorem shutdown_behaves {s : ProviderCoordinator} (hs : s.timeoutSet = true) :
    Behaves owned any (fun s' _ => s'.connectAttempted = false) shutdown s := by
  intro history
  simp only [shutdown, wp_bind, wp_get, andThen_returned, wp_modify]
  split
  · rename_i hconnect
    simp [runWithTimeout, sound_iff, owned, hs, hconnect]
  · rename_i hconnect
    simp [sound_iff, owned, hconnect]

/-- A coordinator that has an adapter to disconnect. -/
structure Connected (s : ProviderCoordinator) : Prop where
  timeoutSet : s.timeoutSet = true
  connectAttempted : s.connectAttempted = true

/-- What the `try` of a composition does, up to its cleanup. -/
theorem resolve_behaves :
    Behaves owned any (fun s' e => s'.timeoutSet = true ∧ (e.isReturned = true → Connected s'))
      (do start; awaited .loadInstruments; immediate .resolve) {} := by
  refine start_behaves.bind ?_ ?_ ?_
  · rintro s' a ⟨htimeout, hconnect⟩
    intro history
    have hconnected : Connected s' := ⟨htimeout, hconnect rfl⟩
    simp [sound_iff, htimeout, hconnected]
  · rintro s' e ⟨htimeout, -⟩
    exact ⟨htimeout, fun h => by cases h⟩
  · rintro s' ⟨htimeout, -⟩
    exact ⟨htimeout, fun h => by cases h⟩

/-- **A composition that fails before its runtime leaves no adapter.** -/
theorem prepare_behaves :
    Behaves owned any
      (fun s' e => if e.isReturned = true then Connected s' else s'.connectAttempted = false)
      prepare {} := by
  intro history
  rw [prepare, wp_cleaningUp]
  refine wp_mono ?_ (resolve_behaves history)
  rintro h s e ⟨hsound, htimeout, hconnected⟩
  have hcleanup (e' : Ended DependencyError Unit) (hfailed : e'.returns any = false)
      (hdirty : ¬ Clean h) : wp safeShutdown (andThen (fun _ => stop e') fun history' s' e =>
        Sound owned any history {} history' s' e ∧
          if e.isReturned = true then Connected s' else s'.connectAttempted = false) h s := by
    rw [safeShutdown, wp_catching]
    refine wp_mono ?_ (shutdown_behaves htimeout h)
    rintro h' s' r ⟨hdown, hclosed⟩
    have hbalanced (t : Resource) : balance t h' + owned t {} = balance t history + owned t s' := by
      have hbefore := hsound.balanced t
      have hafter := hdown.balanced t
      omega
    have hdirty' : ¬ Clean h' := fun hclean => hdirty (hdown.clean.mp hclean).1
    have hreturned : e'.isReturned = false := hfailed
    cases r <;> simp [sound_iff, hbalanced, hdirty', hfailed, hclosed, hreturned]
  cases e with
  | returned a => exact ⟨hsound, by simpa using hconnected⟩
  | raised x => exact hcleanup (.raised x) rfl (by simp [hsound.clean])
  | cancelled => exact hcleanup .cancelled rfl (by simp [hsound.clean])

end ProviderCoordinator

namespace RuntimeComposition

def owned (r : Resource) (c : RuntimeComposition) : ℤ :=
  c.coordinator.owned r + if r = .runtime ∧ c.runtime.state ≠ .shutdown then 1 else 0

/-- A composition that is to be started. -/
structure Composed (c : RuntimeComposition) : Prop where
  runtime : c.runtime.state = .notStarted
  coordinator : c.coordinator.Connected

/-- A composition that has been started. -/
structure Running (c : RuntimeComposition) : Prop where
  runtime : c.runtime.state = .started
  coordinator : c.coordinator.Connected

/-- A composition that nobody keeps is closed, or what stays open is counted as abandoned. -/
theorem shutdown_closes {c : RuntimeComposition} (hruntime : c.runtime.state ≠ .shutdown)
    (hcoordinator : c.coordinator.Connected) (history : List Event) :
    wp shutdown (fun history' _ e => (∀ r, balance r history' + c.owned r = balance r history) ∧
      (Clean history' ↔ Clean history ∧ e.returns any = true)) history c := by
  have htimeout := hcoordinator.timeoutSet
  have hconnect := hcoordinator.connectAttempted
  simp [shutdown, onRuntime, onCoordinator, LiveMarketRuntime.shutdown, ProviderCoordinator.shutdown,
    ProviderCoordinator.runWithTimeout, hruntime, htimeout, hconnect, owned, ProviderCoordinator.owned]
  refine ⟨fun r => ?_, fun r => ?_⟩
  · ring
  · ring

theorem start_behaves {c : RuntimeComposition} (hc : Composed c) :
    Behaves owned any (fun c' e => c'.coordinator = c.coordinator ∧ c'.runtime.state ≠ .shutdown ∧
      (e.isReturned = true → c'.runtime.state = .started)) start c := by
  intro history
  have hruntime := hc.runtime
  simp [start, onRuntime, LiveMarketRuntime.start, sound_iff, owned, hruntime]

/-- A launched composition runs; one that could not be is closed, but for what is abandoned. -/
theorem launch_behaves {c : RuntimeComposition} (hc : Composed c) (history : List Event) :
    wp launch (fun history' c' e => (Clean history' ↔ Clean history ∧ e.returns any = true) ∧
      if e.isReturned = true then
        Running c' ∧ ∀ r, balance r history' + c.owned r = balance r history + c'.owned r
      else ∀ r, balance r history' + c.owned r = balance r history) history c := by
  rw [launch, wp_cleaningUp]
  refine wp_mono ?_ (start_behaves hc history)
  rintro h c' e ⟨hsound, hcoordinator, hruntime, hstarted⟩
  have hconnected : c'.coordinator.Connected := by
    rw [hcoordinator]
    exact hc.coordinator
  have hcleanup (e' : Ended DependencyError Unit) (hfailed : e'.returns any = false)
      (hdirty : ¬ Clean h) : wp shutdown (andThen (fun _ => stop e') fun history' c' e =>
        (Clean history' ↔ Clean history ∧ e.returns any = true) ∧
          if e.isReturned = true then
            Running c' ∧ ∀ r, balance r history' + c.owned r = balance r history + c'.owned r
          else ∀ r, balance r history' + c.owned r = balance r history) h c' := by
    refine wp_mono ?_ (shutdown_closes hruntime hconnected h)
    rintro h' c'' r ⟨hclosed, hclean⟩
    have hbalanced (t : Resource) : balance t h' + c.owned t = balance t history := by
      have hbefore := hsound.balanced t
      have hafter := hclosed t
      omega
    have hdirty' : ¬ Clean h' := fun h => hdirty (hclean.mp h).1
    have hreturned : e'.isReturned = false := hfailed
    cases r <;> simp [hbalanced, hdirty', hfailed, hreturned]
  cases e with
  | returned a => exact ⟨hsound.clean, ⟨hstarted rfl, hconnected⟩, hsound.balanced⟩
  | raised x => exact hcleanup (.raised x) rfl (by simp [hsound.clean])
  | cancelled => exact hcleanup .cancelled rfl (by simp [hsound.clean])

end RuntimeComposition

/-- What `compose_market_runtime` returns is what is open. -/
theorem composeMarketRuntime_behaves {σ : Type} (history : List Event) (s : σ) :
    wp composeMarketRuntime (fun history' s' e => s' = s ∧
      (Clean history' ↔ Clean history ∧ e.returns any = true) ∧
        match e with
        | .returned c => c.Composed ∧ ∀ r, balance r history' = balance r history + c.owned r
        | _ => ∀ r, balance r history' = balance r history) history s := by
  simp only [composeMarketRuntime, wp_bind, wp_immediate, andThen_returned, andThen_raised, wp_build]
  refine ⟨?_, ?_⟩
  · refine wp_mono ?_ (ProviderCoordinator.prepare_behaves _)
    rintro h p e ⟨hsound, hconnected⟩
    have hbalanced (r : Resource) : balance r h = balance r history + p.owned r := by
      have hprepared := hsound.balanced r
      simpa [ProviderCoordinator.owned] using hprepared
    have hclean : Clean h ↔ Clean history ∧ e.returns any = true := by simpa using hsound.clean
    cases e with
    | returned a =>
      replace hconnected : p.Connected := hconnected
      have hopen (r : Resource) : p.owned r = if r = .adapter then 1 else 0 := by
        simp [ProviderCoordinator.owned, hconnected.connectAttempted]
      have hcomposed : RuntimeComposition.Composed ⟨{}, p⟩ := ⟨rfl, hconnected⟩
      simp [hbalanced, hclean, hopen, hcomposed, RuntimeComposition.owned, add_assoc]
    | raised x =>
      replace hconnected : p.connectAttempted = false := hconnected
      simp [hbalanced, hclean, ProviderCoordinator.owned, hconnected]
    | cancelled =>
      replace hconnected : p.connectAttempted = false := hconnected
      simp [hbalanced, hclean, ProviderCoordinator.owned, hconnected]
  · simp

namespace LiveMarketRuntimeDependency

def owned (r : Resource) (d : LiveMarketRuntimeDependency) : ℤ :=
  (d.composition.map (RuntimeComposition.owned r)).getD 0

/-- Whether there is a composition, and it runs. -/
def Up (d : LiveMarketRuntimeDependency) : Prop := ∃ c, d.composition = some c ∧ c.Running

theorem start_behaves :
    Behaves owned any (fun d e => if e.isReturned = true then Up d else d.composition = none)
      start {} := by
  intro history
  simp only [start, wp_bind, wp_get, andThen_returned]
  refine wp_mono ?_ (composeMarketRuntime_behaves history _)
  rintro h d e ⟨rfl, hclean, hopen⟩
  cases e with
  | raised x => simpa [sound_iff, hclean] using hopen
  | cancelled => simpa [sound_iff, hclean] using hopen
  | returned c =>
    obtain ⟨hcomposed, hbalanced⟩ := hopen
    rw [andThen_returned, wp_bind, wp_build]
    refine wp_mono ?_ (RuntimeComposition.launch_behaves hcomposed h)
    rintro h' c' e ⟨hlaunched, hlaunch⟩
    have hclean' : Clean h' ↔ Clean history ∧ e.returns any = true := by simp [hlaunched, hclean]
    cases e with
    | returned a =>
      obtain ⟨hrunning, hkept⟩ := hlaunch
      have hbalance (r : Resource) : balance r h' = balance r history + c'.owned r := by
        have hbefore := hbalanced r
        have hafter := hkept r
        omega
      have hup : Up ⟨some c'⟩ := ⟨c', rfl, hrunning⟩
      simp [sound_iff, owned, hclean', hbalance, hup]
    | raised x =>
      have hbalance (r : Resource) : balance r h' = balance r history := by
        have hbefore := hbalanced r
        have hafter := hlaunch r
        omega
      simp [sound_iff, hclean', hbalance]
    | cancelled =>
      have hbalance (r : Resource) : balance r h' = balance r history := by
        have hbefore := hbalanced r
        have hafter := hlaunch r
        omega
      simp [sound_iff, hclean', hbalance]

theorem verifyHealth_behaves {d : LiveMarketRuntimeDependency} (hd : Up d) :
    Behaves owned (· == .healthy) (fun d' _ => d' = d) verifyHealth d := by
  obtain ⟨c, hc, hrunning⟩ := hd
  intro history
  simp only [verifyHealth, wp_bind, wp_get, andThen_returned, hc, wp_on, observe,
    RuntimeComposition.onCoordinator]
  refine wp_mono ?_ (ProviderCoordinator.verifyHealth_behaves hrunning.coordinator.timeoutSet history)
  rintro h p e ⟨hsound, rfl⟩
  have hsame : ({ composition := some c } : LiveMarketRuntimeDependency) = d := by rw [← hc]
  have hbalanced (r : Resource) : balance r h = balance r history := by
    have hbefore := hsound.balanced r
    omega
  have hclean := hsound.clean
  cases e with
  | raised x => simpa [sound_iff, hsame, hbalanced] using hclean
  | cancelled => simpa [sound_iff, hsame, hbalanced] using hclean
  | returned status =>
    simp [sound_iff, hsame, hbalanced, hclean, and_assoc]

theorem shutdown_behaves {d : LiveMarketRuntimeDependency}
    (hd : ∀ c, d.composition = some c → c.Running) :
    Behaves owned any (fun d' _ => d'.composition = none) shutdown d := by
  intro history
  simp only [shutdown, wp_bind, wp_get, andThen_returned, wp_modify]
  cases hcomposition : d.composition with
  | none => simp [sound_iff, owned, hcomposition]
  | some c =>
    have hrunning := hd c hcomposition
    have hstate : c.runtime.state ≠ .shutdown := by
      rw [hrunning.runtime]
      decide
    simp only [wp_bind, wp_build]
    refine wp_mono ?_ (RuntimeComposition.shutdown_closes hstate hrunning.coordinator history)
    rintro h c' e ⟨hclosed, hclean⟩
    have hbalanced (r : Resource) : balance r h + owned r d = balance r history := by
      rw [owned, hcomposition]
      exact hclosed r
    have hnone (r : Resource) : owned r {} = 0 := rfl
    cases e <;> simp [sound_iff, hbalanced, hclean, hnone]

end LiveMarketRuntimeDependency

end ApexScan.Lifecycle
