import ApexScan.Core.Dependencies
import ApexScan.Lib.Dict

/-!
# The lifecycle of the application (`app/core/lifecycle.py`)

`ApplicationLifecycle` starts PostgreSQL, Redis and the provider in this order, and releases them in
the other one when a start fails or the application shuts down.  One operation ends before the next
begins, as the lifespan of the application has it; each may raise or be cancelled wherever it waits.

* `start`, `readinessSnapshot`, `shutdown` — the operations; `perform` — any of them.
* `Sustained`, `Idle`, `Released` — an application with all that it needs, without a composition, and
  with nothing.
* `start_behaves`, `shutdown_behaves`, `readinessSnapshot_answers` — all that each operation can do.
-/

set_option autoImplicit false

namespace ApexScan.Lifecycle

open Lib Procedure
open Dhan (ProviderStatus)

inductive LifecycleState where
  | starting
  | started
  | failed
  | shuttingDown
  | stopped
  deriving DecidableEq, Repr

def LifecycleState.value : LifecycleState → String
  | .starting => "starting"
  | .started => "started"
  | .failed => "failed"
  | .shuttingDown => "shutting_down"
  | .stopped => "stopped"

inductive DependencyState where
  | unknown
  | healthy
  | unhealthy
  deriving DecidableEq, Repr

def DependencyState.value : DependencyState → String
  | .unknown => "unknown"
  | .healthy => "healthy"
  | .unhealthy => "unhealthy"

/-- The state of a dependency of a start that has failed. -/
def DependencyState.failing (d : DependencyState) : DependencyState :=
  if d = .healthy then d else .unhealthy

structure HealthSnapshot where
  status : String
  startup : Option String := none
  dependencies : Option (Dict String String) := none
  deriving DecidableEq, Repr

/-- `ApplicationStartupError`, by its text, and `ApplicationShutdownError`. -/
inductive ApplicationError where
  | startupBlocked
  | startupCleanupFailed
  | startupUnavailable
  | shutdownCleanupFailed
  deriving DecidableEq, Repr

def ApplicationError.message : ApplicationError → String
  | .startupBlocked => "Application startup is blocked while shutdown is in progress"
  | .startupCleanupFailed => "Application startup failed and partial dependency cleanup failed"
  | .startupUnavailable =>
    "Application startup is blocked because a mandatory dependency is unavailable"
  | .shutdownCleanupFailed => "Application shutdown dependency cleanup failed"

structure ApplicationLifecycle where
  database : DatabaseLifecycle := {}
  redis : RedisLifecycle := {}
  provider : Option LiveMarketRuntimeDependency := none
  state : LifecycleState := .starting
  databaseState : DependencyState := .unknown
  redisState : DependencyState := .unknown
  providerState : DependencyState := .unknown
  deriving DecidableEq, Repr

namespace ApplicationLifecycle

/-- An operation of the application, with the exceptions of its dependencies. -/
abbrev Work (α : Type) := Action ApplicationLifecycle α

def onDatabase {α : Type} (p : Action DatabaseLifecycle α) : Work α :=
  p.on (·.database) fun d s => { s with database := d }

def onRedis {α : Type} (p : Action RedisLifecycle α) : Work α :=
  p.on (·.redis) fun r s => { s with redis := r }

/-- On the provider, which is there. -/
def onProvider {α : Type} (p : Action LiveMarketRuntimeDependency α) : Work α :=
  p.on (·.provider.getD {}) fun d s => { s with provider := some d }

section Release

variable {ε : Type}

/-- One turn of the loop of `_release_dependencies`, which keeps the first error. -/
def closing (close : Work Unit) (cleanupError : Option DependencyError) :
    Procedure Call Answer ApplicationLifecycle ε (Option DependencyError) :=
  catching (do close; return cleanupError) fun error => pure (some (cleanupError.getD error))

/-- The turn of the provider, which comes first where there is one. -/
def closeProvider : Procedure Call Answer ApplicationLifecycle ε (Option DependencyError) := do
  let s ← get
  if s.provider.isSome then closing (onProvider LiveMarketRuntimeDependency.shutdown) none
  else pure none

/-- `_release_dependencies`. -/
def releaseDependencies : Procedure Call Answer ApplicationLifecycle ε (Option DependencyError) := do
  let cleanupError ← closeProvider
  let cleanupError ← closing (onRedis RedisLifecycle.close) cleanupError
  closing (onDatabase DatabaseLifecycle.dispose) cleanupError

end Release

/-! The `try` of `start`, in three parts. -/

def startDatabase : Work Unit := do
  onDatabase DatabaseLifecycle.initializeEngine
  onDatabase DatabaseLifecycle.verifyConnectivity
  modify fun s => { s with databaseState := .healthy }

def startRedis : Work Unit := do
  onRedis RedisLifecycle.initializePool
  onRedis RedisLifecycle.verifyConnectivity
  modify fun s => { s with redisState := .healthy }

def startProvider : Work Unit := do
  let s ← get
  if s.provider.isSome then do
    onProvider LiveMarketRuntimeDependency.start
    modify fun s => { s with providerState := .healthy }
  else pure ()

def startDependencies : Work Unit := do
  startDatabase
  startRedis
  startProvider

/-- An operation of the application, with the exceptions of its own. -/
abbrev Task (α : Type) := Procedure Call Answer ApplicationLifecycle ApplicationError α

/-- The handler of `start`. -/
def abortStart : Task Unit := do
  modify fun s =>
    { s with
      databaseState := s.databaseState.failing
      redisState := s.redisState.failing
      providerState := if s.provider.isSome then s.providerState.failing else s.providerState }
  let cleanupError ← releaseDependencies
  modify fun s => { s with state := .failed }
  if cleanupError.isSome then raise .startupCleanupFailed else raise .startupUnavailable

def start : Task Unit := do
  let s ← get
  if s.state = .started then pure ()
  else if s.state = .shuttingDown then raise .startupBlocked
  else do
    modify fun s =>
      { s with
        state := .starting
        databaseState := .unknown
        redisState := .unknown
        providerState := .unknown }
    startDependencies.catching fun _ => abortStart
    modify fun s => { s with state := .started }

/-- A probe, which sets the state of its dependency. -/
def probing (verify : Work DependencyState)
    (set : DependencyState → ApplicationLifecycle → ApplicationLifecycle) : Task Unit :=
  catching (do let observed ← verify; modify (set observed)) fun _ => modify (set .unhealthy)

/-- `_probe_database`. -/
def probeDatabase : Task Unit :=
  probing (do onDatabase DatabaseLifecycle.verifyConnectivity; return .healthy)
    fun d s => { s with databaseState := d }

/-- `_probe_redis`. -/
def probeRedis : Task Unit :=
  probing (do onRedis RedisLifecycle.verifyConnectivity; return .healthy)
    fun d s => { s with redisState := d }

/-- `_probe_provider`. -/
def probeProvider : Task Unit :=
  probing
    (do
      let status ← onProvider LiveMarketRuntimeDependency.verifyHealth
      return if status = .healthy then .healthy else .unhealthy)
    fun d s => { s with providerState := d }

/-- Whether `_readiness_response` finds the application ready. -/
def isReady (s : ApplicationLifecycle) : Bool :=
  s.state = .started ∧ s.databaseState = .healthy ∧ s.redisState = .healthy ∧
    (s.provider.isSome = true → s.providerState = .healthy)

/-- `_readiness_response`. -/
def readinessResponse (s : ApplicationLifecycle) : HealthSnapshot where
  status := if s.isReady = true then "ready" else "not_ready"
  startup := some s.state.value
  dependencies :=
    some ([("database", s.databaseState.value), ("redis", s.redisState.value)] ++
      if s.provider.isSome then [("provider", s.providerState.value)] else [])

/-- The probes of `readiness_snapshot`. -/
def probeDependencies : Task Unit := do
  probeDatabase
  probeRedis
  let s ← get
  if s.provider.isSome then probeProvider else pure ()

def readinessSnapshot : Task HealthSnapshot := do
  let s ← get
  if s.state = .started then do
    probeDependencies
    let s ← get
    return s.readinessResponse
  else return s.readinessResponse

def shutdown : Task Unit := do
  let s ← get
  if s.state = .shuttingDown ∨ s.state = .stopped then pure ()
  else do
    modify fun s => { s with state := .shuttingDown }
    let cleanupError ← releaseDependencies
    modify fun s => { s with state := .stopped }
    if cleanupError.isSome then raise .shutdownCleanupFailed else pure ()

end ApplicationLifecycle

inductive Operation where
  | start
  | readinessSnapshot
  | shutdown
  deriving DecidableEq, Repr

inductive Response where
  | done
  | snapshot (h : HealthSnapshot)
  deriving DecidableEq, Repr

def perform : Operation → ApplicationLifecycle.Task Response
  | .start => do ApplicationLifecycle.start; return .done
  | .readinessSnapshot => do return .snapshot (← ApplicationLifecycle.readinessSnapshot)
  | .shutdown => do ApplicationLifecycle.shutdown; return .done

/-- An application that has not been started. -/
def fresh (providerEnabled : Bool) : ApplicationLifecycle where
  provider := if providerEnabled then some {} else none

/-! ## Parts of the application -/

namespace ApplicationLifecycle

def owned (r : Resource) (s : ApplicationLifecycle) : ℤ :=
  s.database.owned r + s.redis.owned r + (s.provider.map (LiveMarketRuntimeDependency.owned r)).getD 0

variable {α : Type} {good : α → Bool} {s : ApplicationLifecycle}
  {R : ApplicationLifecycle → Ended DependencyError α → Prop}

theorem onDatabase_behaves {p : Action DatabaseLifecycle α}
    {M : DatabaseLifecycle → Ended DependencyError α → Prop}
    (hp : Behaves DatabaseLifecycle.owned good M p s.database)
    (hR : ∀ d e, M d e → R { s with database := d } e) : Behaves owned good R (onDatabase p) s := by
  refine hp.on (fun r d => ?_) hR
  simp only [owned]
  omega

theorem onRedis_behaves {p : Action RedisLifecycle α}
    {M : RedisLifecycle → Ended DependencyError α → Prop}
    (hp : Behaves RedisLifecycle.owned good M p s.redis)
    (hR : ∀ d e, M d e → R { s with redis := d } e) : Behaves owned good R (onRedis p) s := by
  refine hp.on (fun r d => ?_) hR
  simp only [owned]
  omega

theorem onProvider_behaves {p : Action LiveMarketRuntimeDependency α}
    {M : LiveMarketRuntimeDependency → Ended DependencyError α → Prop} {d : LiveMarketRuntimeDependency}
    (hprovider : s.provider = some d) (hp : Behaves LiveMarketRuntimeDependency.owned good M p d)
    (hR : ∀ d e, M d e → R { s with provider := some d } e) :
    Behaves owned good R (onProvider p) s := by
  have hpart : Behaves LiveMarketRuntimeDependency.owned good M p (s.provider.getD {}) := by
    rw [hprovider]
    exact hp
  unfold onProvider
  refine Behaves.on (s := s) hpart (fun r d' => ?_) hR
  simp only [owned, hprovider, Option.map_some, Option.getD_some]
  omega

/-! ## Starting and releasing -/

/-- Whether no provider has a composition. -/
def Idle (s : ApplicationLifecycle) : Prop := ∀ d, s.provider = some d → d.composition = none

/-- Whether everything that the application needs is there. -/
structure Sustained (s : ApplicationLifecycle) : Prop where
  engine : s.database.engine = true
  pool : s.redis.pool = true
  provider : ∀ d, s.provider = some d → d.Up

/-- Whether the application holds nothing. -/
structure Released (s : ApplicationLifecycle) : Prop where
  engine : s.database.engine = false
  pool : s.redis.pool = false
  idle : s.Idle

/-- What a start leaves as it is, until the provider is started. -/
structure Idling (s s' : ApplicationLifecycle) : Prop where
  state : s'.state = s.state
  provider : s'.provider.isSome = s.provider.isSome
  idle : s'.Idle

theorem startDatabase_behaves {s : ApplicationLifecycle} (hidle : s.Idle) :
    Behaves owned any (Ends (Idling s) fun _ s' => Idling s s' ∧ s'.database.engine = true)
      startDatabase s := by
  unfold startDatabase
  refine (onDatabase_behaves (DatabaseLifecycle.initializeEngine_behaves s.database) ?_).next
    (G := fun _ s' => Idling s s' ∧ s'.database.engine = true) ?_
  · intro d e hengine
    have hidling : Idling s { s with database := d } := ⟨rfl, rfl, hidle⟩
    cases e with
    | returned a => exact ⟨hidling, hengine rfl⟩
    | raised x => exact hidling
    | cancelled => exact hidling
  rintro s₁ - ⟨h₁, hengine⟩
  refine (onDatabase_behaves (DatabaseLifecycle.verifyConnectivity_behaves hengine) ?_).next
    (G := fun _ s' => s' = s₁) ?_
  · rintro d e rfl
    cases e with
    | returned a => rfl
    | raised x => exact h₁
    | cancelled => exact h₁
  rintro _ - rfl
  exact Behaves.modify (fun _ => rfl) ⟨⟨h₁.state, h₁.provider, h₁.idle⟩, hengine⟩

theorem startRedis_behaves {s₀ s : ApplicationLifecycle} (hs : Idling s₀ s)
    (hengine : s.database.engine = true) :
    Behaves owned any
      (Ends (Idling s₀) fun _ s' => Idling s₀ s' ∧ s'.database.engine = true ∧ s'.redis.pool = true)
      startRedis s := by
  unfold startRedis
  refine (onRedis_behaves (RedisLifecycle.initializePool_behaves s.redis) ?_).next
    (G := fun _ s' => Idling s₀ s' ∧ s'.database.engine = true ∧ s'.redis.pool = true) ?_
  · intro d e hpool
    have hidling : Idling s₀ { s with redis := d } := ⟨hs.state, hs.provider, hs.idle⟩
    cases e with
    | returned a => exact ⟨hidling, hengine, hpool rfl⟩
    | raised x => exact hidling
    | cancelled => exact hidling
  rintro s₁ - ⟨h₁, hengine₁, hpool⟩
  refine (onRedis_behaves (RedisLifecycle.verifyConnectivity_behaves hpool) ?_).next
    (G := fun _ s' => s' = s₁) ?_
  · rintro d e rfl
    cases e with
    | returned a => rfl
    | raised x => exact h₁
    | cancelled => exact h₁
  rintro _ - rfl
  exact Behaves.modify (fun _ => rfl) ⟨⟨h₁.state, h₁.provider, h₁.idle⟩, hengine₁, hpool⟩

/-- What a started application has. -/
structure StartedFrom (s s' : ApplicationLifecycle) : Prop where
  sustained : s'.Sustained
  state : s'.state = s.state
  provider : s'.provider.isSome = s.provider.isSome

theorem startProvider_behaves {s₀ s : ApplicationLifecycle} (hs : Idling s₀ s)
    (hengine : s.database.engine = true) (hpool : s.redis.pool = true) :
    Behaves owned any (Ends (Idling s₀) fun _ s' => StartedFrom s₀ s') startProvider s := by
  unfold startProvider
  apply Behaves.read
  cases hprovider : s.provider with
  | none =>
    refine Behaves.pure rfl ⟨⟨hengine, hpool, ?_⟩, hs.state, hs.provider⟩
    intro d hd
    rw [hprovider] at hd
    cases hd
  | some d =>
    obtain rfl : d = {} := by
      have hnone := hs.idle d hprovider
      cases d
      rw [LiveMarketRuntimeDependency.mk.injEq]
      exact hnone
    have hsome : s₀.provider.isSome = true := by
      rw [← hs.provider, hprovider]
      rfl
    refine (onProvider_behaves hprovider LiveMarketRuntimeDependency.start_behaves ?_).next
      (G := fun _ s' => StartedFrom s₀ s') ?_
    · intro d e hup
      cases e with
      | returned a =>
        exact ⟨⟨hengine, hpool, fun _ h => Option.some.inj h ▸ hup⟩, hs.state, hsome.symm⟩
      | raised x => exact ⟨hs.state, hsome.symm, fun _ h => Option.some.inj h ▸ hup⟩
      | cancelled => exact ⟨hs.state, hsome.symm, fun _ h => Option.some.inj h ▸ hup⟩
    · rintro s₁ - h₁
      have hsustained := h₁.sustained
      exact Behaves.modify (fun _ => rfl)
        ⟨⟨hsustained.engine, hsustained.pool, hsustained.provider⟩, h₁.state, h₁.provider⟩

theorem startDependencies_behaves {s : ApplicationLifecycle} (hidle : s.Idle) :
    Behaves owned any (Ends (Idling s) fun _ s' => StartedFrom s s') startDependencies s := by
  refine (startDatabase_behaves hidle).next ?_
  rintro s₁ - ⟨h₁, hengine⟩
  refine (startRedis_behaves h₁ hengine).next ?_
  rintro s₂ - ⟨h₂, hengine, hpool⟩
  exact startProvider_behaves h₂ hengine hpool

/-! ## Releasing -/

/-- Whether the provider is up, if it has a composition at all. -/
def Stoppable (s : ApplicationLifecycle) : Prop :=
  ∀ d c, s.provider = some d → d.composition = some c → c.Running

section Release

variable {ε : Type}

/-- A turn of the loop keeps the first error, so that none is left exactly if all has gone well. -/
theorem closing_sound {close : Work Unit} {cleanupError : Option DependencyError}
    {history₀ history : List Event} {s₀ s : ApplicationLifecycle} {M : ApplicationLifecycle → Prop}
    (hbefore : Sound owned (·.isNone) history₀ s₀ history s (.returned cleanupError : Ended ε _))
    (hclose : Behaves owned any (fun s' _ => M s') close s) :
    wp (closing close cleanupError) (fun history' s' (e : Ended ε _) =>
      Sound owned (·.isNone) history₀ s₀ history' s' e ∧ M s' ∧ ∀ x, e ≠ .raised x) history s := by
  rw [closing, wp_catching, wp_bind]
  refine wp_mono ?_ (hclose history)
  rintro h s' e ⟨hsound, hM⟩
  have hbalanced (r : Resource) : balance r h + owned r s₀ = balance r history₀ + owned r s' := by
    have hfirst := hbefore.balanced r
    have hsecond := hsound.balanced r
    omega
  have hclean := hsound.clean
  rw [hbefore.clean] at hclean
  cases e with
  | returned a => simp [sound_iff, hbalanced, hclean, hM]
  | raised x => simp [sound_iff, hbalanced, hclean, hM]
  | cancelled => simp [sound_iff, hbalanced, hclean, hM]

/-- What a release leaves as it is. -/
structure Closing (s s' : ApplicationLifecycle) : Prop where
  idle : s'.Idle
  state : s'.state = s.state
  provider : s'.provider.isSome = s.provider.isSome

theorem closeProvider_sound {s : ApplicationLifecycle} (hs : s.Stoppable) (history : List Event) :
    wp closeProvider (fun history' s' (e : Ended ε _) =>
      Sound owned (·.isNone) history s history' s' e ∧ Closing s s' ∧ ∀ x, e ≠ .raised x)
      history s := by
  have hnothing : Sound owned (·.isNone) history s history s
      (.returned none : Ended ε (Option DependencyError)) := by
    simp [sound_iff]
  unfold closeProvider
  rw [wp_bind, wp_get, andThen_returned]
  cases hprovider : s.provider with
  | none =>
    have hclosing : Closing s s := ⟨fun d hd => (by rw [hprovider] at hd; cases hd), rfl, rfl⟩
    exact wp_pure.mpr ⟨hnothing, hclosing, fun x hx => by cases hx⟩
  | some d =>
    refine closing_sound hnothing (onProvider_behaves hprovider
      (LiveMarketRuntimeDependency.shutdown_behaves fun c hc => hs d c hprovider hc) ?_)
    intro d' e hnone
    have hsome : s.provider.isSome = true := by rw [hprovider]; rfl
    exact ⟨fun _ h => Option.some.inj h ▸ hnone, rfl, hsome.symm⟩

/-- How a release ends: nothing is held where it comes to its end, and no composition in any case. -/
def ReleasedFrom (s s' : ApplicationLifecycle) : Ended ε (Option DependencyError) → Prop
  | .returned _ => Released s' ∧ Closing s s'
  | .raised _ => False
  | .cancelled => Closing s s'

theorem releaseDependencies_behaves {s : ApplicationLifecycle} (hs : s.Stoppable) :
    Behaves owned (·.isNone) (ReleasedFrom s) (releaseDependencies (ε := ε)) s := by
  intro history
  rw [releaseDependencies, wp_bind]
  refine wp_mono ?_ (closeProvider_sound hs history)
  rintro h₁ s₁ e₁ ⟨hsound₁, hclosing₁, hnever₁⟩
  cases e₁ with
  | raised x => exact absurd rfl (hnever₁ x)
  | cancelled => exact ⟨hsound₁, hclosing₁⟩
  | returned cleanupError₁ =>
    rw [andThen_returned, wp_bind]
    refine wp_mono ?_ (closing_sound hsound₁ (onRedis_behaves (RedisLifecycle.close_behaves s₁.redis)
      (R := fun s' _ => Closing s s' ∧ s'.redis.pool = false)
      fun d e hpool => ⟨⟨hclosing₁.idle, hclosing₁.state, hclosing₁.provider⟩, hpool⟩))
    rintro h₂ s₂ e₂ ⟨hsound₂, ⟨hclosing₂, hpool⟩, hnever₂⟩
    cases e₂ with
    | raised x => exact absurd rfl (hnever₂ x)
    | cancelled => exact ⟨hsound₂, hclosing₂⟩
    | returned cleanupError₂ =>
      rw [andThen_returned]
      refine wp_mono ?_ (closing_sound hsound₂ (onDatabase_behaves
        (DatabaseLifecycle.dispose_behaves s₂.database) (R := fun s' _ => Closing s s' ∧ Released s')
        fun d e hengine => ⟨⟨hclosing₂.idle, hclosing₂.state, hclosing₂.provider⟩,
          ⟨hengine, hpool, hclosing₂.idle⟩⟩))
      rintro h₃ s₃ e₃ ⟨hsound₃, ⟨hclosing₃, hreleased⟩, hnever₃⟩
      refine ⟨hsound₃, ?_⟩
      cases e₃ with
      | raised x => exact absurd rfl (hnever₃ x)
      | cancelled => exact hclosing₃
      | returned cleanupError₃ => exact ⟨hreleased, hclosing₃⟩

end Release

/-! ## The operations -/

/-- How a start ends that is not refused. -/
def StartedOrNot (s s' : ApplicationLifecycle) : Ended ApplicationError Unit → Prop
  | .returned _ => s'.state = .started ∧ Sustained s' ∧ s'.provider.isSome = s.provider.isSome
  | .raised x =>
    x ≠ .startupBlocked ∧ s'.state = .failed ∧ Released s' ∧ s'.provider.isSome = s.provider.isSome
  | .cancelled => s'.state = .starting ∧ Idle s' ∧ s'.provider.isSome = s.provider.isSome

theorem Idle.stoppable {s : ApplicationLifecycle} (hidle : s.Idle) : s.Stoppable := by
  intro d c hd hc
  rw [hidle d hd] at hc
  cases hc

theorem Sustained.stoppable {s : ApplicationLifecycle} (h : s.Sustained) : s.Stoppable := by
  intro d c hd hc
  obtain ⟨c', hc', hrunning⟩ := h.provider d hd
  rw [hc] at hc'
  cases hc'
  exact hrunning

/-- A start that fails gives back all that it has, but for a cancellation. -/
theorem abortStart_releases {s₀ s : ApplicationLifecycle} {history₀ history : List Event}
    (hbalanced : ∀ r, balance r history + s₀.owned r = balance r history₀ + s.owned r)
    (hdirty : ¬ Clean history) (hidle : s.Idle) (hstate : s.state = .starting)
    (hprovider : s.provider.isSome = s₀.provider.isSome) :
    wp abortStart (fun history' s' e => Sound owned any history₀ s₀ history' s' e ∧
      e.isReturned = false ∧ StartedOrNot s₀ s' e) history s := by
  simp only [abortStart, wp_bind, wp_modify, andThen_returned]
  refine wp_mono ?_ (releaseDependencies_behaves (s := { s with
      databaseState := s.databaseState.failing
      redisState := s.redisState.failing
      providerState := if s.provider.isSome then s.providerState.failing else s.providerState })
    hidle.stoppable history)
  rintro h s' e ⟨hsound, hreleased⟩
  have hdirty' : ¬ Clean h := fun hclean => hdirty (hsound.clean.mp hclean).1
  have hbalanced' (r : Resource) : balance r h + s₀.owned r = balance r history₀ + s'.owned r := by
    have hfirst := hbalanced r
    have hsecond : balance r h + s.owned r = balance r history + s'.owned r := hsound.balanced r
    omega
  cases e with
  | raised x => exact absurd hreleased id
  | cancelled =>
    have hclosing : Closing _ s' := hreleased
    exact ⟨⟨hbalanced', by simp [hdirty']⟩, rfl, hclosing.state.trans hstate, hclosing.idle,
      hclosing.provider.trans hprovider⟩
  | returned cleanupError =>
    obtain ⟨hfree, hclosing⟩ := hreleased
    rw [andThen_returned, wp_bind, wp_modify, andThen_returned]
    have hfailed : Released { s' with state := .failed } := ⟨hfree.engine, hfree.pool, hfree.idle⟩
    have hkept : s'.provider.isSome = s₀.provider.isSome := hclosing.provider.trans hprovider
    split
    · rw [wp_raise]
      exact ⟨⟨hbalanced', by simp [hdirty']⟩, rfl, by decide, rfl, hfailed, hkept⟩
    · rw [wp_raise]
      exact ⟨⟨hbalanced', by simp [hdirty']⟩, rfl, by decide, rfl, hfailed, hkept⟩

theorem start_behaves {s : ApplicationLifecycle} (hidle : s.Idle) (hstarted : s.state ≠ .started)
    (hrunning : s.state ≠ .shuttingDown) : Behaves owned any (StartedOrNot s) start s := by
  unfold start
  apply Behaves.read
  rw [if_neg hstarted, if_neg hrunning]
  intro history
  simp only [wp_bind, wp_modify, andThen_returned, wp_catching]
  refine wp_mono ?_ (startDependencies_behaves (s := { s with
      state := .starting
      databaseState := .unknown
      redisState := .unknown
      providerState := .unknown })
    hidle history)
  rintro h s' e ⟨hsound, hends⟩
  cases e with
  | returned a =>
    have hsustained := hends.sustained
    rw [orHandled_returned, andThen_returned, wp_modify]
    exact ⟨⟨hsound.balanced, hsound.clean⟩, rfl,
      ⟨hsustained.engine, hsustained.pool, hsustained.provider⟩, hends.provider⟩
  | cancelled =>
    have hidling : Idling _ s' := hends
    exact ⟨⟨hsound.balanced, hsound.clean⟩, hidling.state, hidling.idle, hidling.provider⟩
  | raised x =>
    have hidling : Idling _ s' := hends
    rw [orHandled_raised]
    refine wp_mono ?_ (abortStart_releases hsound.balanced (by simp [hsound.clean]) hidling.idle
      hidling.state hidling.provider)
    rintro h' s'' e ⟨habort, hfailed, hstopped⟩
    cases e with
    | returned a => cases hfailed
    | raised x => exact ⟨⟨habort.balanced, habort.clean⟩, hstopped⟩
    | cancelled => exact ⟨⟨habort.balanced, habort.clean⟩, hstopped⟩

/-- How a shutdown ends that has something to do. -/
def StoppedOrNot (s s' : ApplicationLifecycle) : Ended ApplicationError Unit → Prop
  | .cancelled => s'.state = .shuttingDown ∧ Idle s' ∧ s'.provider.isSome = s.provider.isSome
  | _ => s'.state = .stopped ∧ Released s' ∧ s'.provider.isSome = s.provider.isSome

theorem shutdown_behaves {s : ApplicationLifecycle} (hs : s.Stoppable)
    (hrunning : ¬ (s.state = .shuttingDown ∨ s.state = .stopped)) :
    Behaves owned any (StoppedOrNot s) shutdown s := by
  unfold shutdown
  apply Behaves.read
  rw [if_neg hrunning]
  intro history
  simp only [wp_bind, wp_modify, andThen_returned]
  refine wp_mono ?_ (releaseDependencies_behaves (s := { s with state := .shuttingDown }) hs history)
  rintro h s' e ⟨hsound, hreleased⟩
  cases e with
  | raised x => exact absurd hreleased id
  | cancelled =>
    have hclosing : Closing _ s' := hreleased
    exact ⟨⟨hsound.balanced, hsound.clean⟩, hclosing.state, hclosing.idle, hclosing.provider⟩
  | returned cleanupError =>
    obtain ⟨hfree, hclosing⟩ := hreleased
    have hstopped : Released { s' with state := .stopped } := ⟨hfree.engine, hfree.pool, hfree.idle⟩
    have hclean := hsound.clean
    rw [andThen_returned, wp_bind, wp_modify, andThen_returned]
    cases cleanupError with
    | some x =>
      rw [if_pos Option.isSome_some, wp_raise]
      exact ⟨⟨hsound.balanced, by simpa using hclean⟩, rfl, hstopped, hclosing.provider⟩
    | none =>
      rw [if_neg (by decide), wp_pure]
      exact ⟨⟨hsound.balanced, by simpa using hclean⟩, rfl, hstopped, hclosing.provider⟩

/-! ## Readiness -/

/-- A call has been made. -/
def Asked (q : Call) (history : List Event) : Prop := q ∈ history.map Exchange.request

theorem Asked.mono {q : Call} {history history' : List Event} (hextends : history <+: history')
    (h : Asked q history) : Asked q history' :=
  (hextends.map Exchange.request).subset h

@[simp] theorem asked_append {q : Call} {history later : List Event} :
    Asked q (history ++ later) ↔ Asked q history ∨ Asked q later := by
  rw [Asked, List.map_append, List.mem_append]
  rfl

@[simp] theorem asked_cons {q : Call} {x : Event} {history : List Event} :
    Asked q (x :: history) ↔ q = x.request ∨ Asked q history := by
  rw [Asked, List.map_cons, List.mem_cons]
  rfl

/-- How a probe ends: its dependency has been asked, and is healthy exactly if all has gone well. -/
def Probed (q : Call) (set : DependencyState → ApplicationLifecycle → ApplicationLifecycle)
    (history : List Event) (s : ApplicationLifecycle) (history' : List Event)
    (s' : ApplicationLifecycle) : Ended ApplicationError Unit → Prop
  | .returned _ => (∀ r, balance r history' = balance r history) ∧ Asked q history' ∧
      ∃ d, s' = set d s ∧ (Clean history' ↔ Clean history ∧ d = .healthy)
  | .raised _ => False
  | .cancelled => (∀ r, balance r history' = balance r history) ∧ s' = s ∧ ¬ Clean history'

theorem probing_probes {q : Call} {verify : Work DependencyState}
    {set : DependencyState → ApplicationLifecycle → ApplicationLifecycle} {s : ApplicationLifecycle}
    {history : List Event} (hverify : Behaves owned (· == .healthy) (fun s' _ => s' = s) verify s)
    (hasks : wp verify (fun history' _ _ => Asked q history') history s) :
    wp (probing verify set) (Probed q set history s) history s := by
  rw [probing, wp_catching, wp_bind]
  refine wp_mono ?_ (wp_and (hverify history) hasks)
  rintro h s' e ⟨⟨hsound, rfl⟩, hasked⟩
  have hbalanced (r : Resource) : balance r h = balance r history := by
    have hkept := hsound.balanced r
    omega
  have hclean := hsound.clean
  cases e with
  | returned d =>
    rw [andThen_returned, wp_modify]
    exact ⟨hbalanced, hasked, d, rfl, by simpa using hclean⟩
  | raised x =>
    rw [andThen_raised, orHandled_raised, wp_modify]
    exact ⟨hbalanced, hasked, .unhealthy, rfl, by simpa using hclean⟩
  | cancelled => exact ⟨hbalanced, rfl, by simp [hclean]⟩

theorem probeDatabase_probes {s : ApplicationLifecycle} (hs : s.database.engine = true)
    (history : List Event) :
    wp probeDatabase (Probed (.awaited .selectOne) (fun d s => { s with databaseState := d }) history s)
      history s := by
  refine probing_probes ?_ ?_
  · refine (onDatabase_behaves (DatabaseLifecycle.verifyConnectivity_behaves hs)
      (R := fun s' _ => s' = s) ?_).bind ?_ ?_ ?_
    · rintro _ _ rfl
      rfl
    · rintro _ _ rfl
      exact Behaves.pure rfl rfl
    · exact fun _ _ h => h
    · exact fun _ h => h
  · simp [onDatabase, DatabaseLifecycle.verifyConnectivity, hs]

theorem probeRedis_probes {s : ApplicationLifecycle} (hs : s.redis.pool = true) (history : List Event) :
    wp probeRedis (Probed .ping (fun d s => { s with redisState := d }) history s) history s := by
  refine probing_probes ?_ ?_
  · refine (onRedis_behaves (RedisLifecycle.verifyConnectivity_behaves hs)
      (R := fun s' _ => s' = s) ?_).bind ?_ ?_ ?_
    · rintro _ _ rfl
      rfl
    · rintro _ _ rfl
      exact Behaves.pure rfl rfl
    · exact fun _ _ h => h
    · exact fun _ h => h
  · simp [onRedis, RedisLifecycle.verifyConnectivity, RedisLifecycle.createClient, hs]

theorem probeProvider_probes {s : ApplicationLifecycle} {d : LiveMarketRuntimeDependency}
    (hprovider : s.provider = some d) (hup : d.Up) (history : List Event) :
    wp probeProvider (Probed .getHealth (fun d s => { s with providerState := d }) history s)
      history s := by
  have hsame : { s with provider := some d } = s := by
    cases s
    cases hprovider
    rfl
  refine probing_probes ?_ ?_
  · intro history
    rw [wp_bind]
    refine wp_mono ?_ (onProvider_behaves hprovider
      (LiveMarketRuntimeDependency.verifyHealth_behaves hup) (R := fun s' _ => s' = s) ?_ history)
    · rintro h _ e ⟨hsound, rfl⟩
      cases e with
      | returned status =>
        rw [andThen_returned, wp_pure]
        refine ⟨⟨hsound.balanced, ?_⟩, rfl⟩
        rw [hsound.clean]
        cases status <;> simp
      | raised x => exact ⟨⟨hsound.balanced, hsound.clean⟩, rfl⟩
      | cancelled => exact ⟨⟨hsound.balanced, hsound.clean⟩, rfl⟩
    · rintro _ _ rfl
      exact hsame
  · obtain ⟨c, hc, hrunning⟩ := hup
    have htimeout := hrunning.coordinator.timeoutSet
    simp [onProvider, hprovider, LiveMarketRuntimeDependency.verifyHealth, hc,
      LiveMarketRuntimeDependency.observe, RuntimeComposition.onCoordinator,
      ProviderCoordinator.verifyHealth, ProviderCoordinator.runWithTimeout, htimeout]

/-- What a readiness answer leaves as it is. -/
structure SameHeld (s s' : ApplicationLifecycle) : Prop where
  database : s'.database = s.database
  redis : s'.redis = s.redis
  provider : s'.provider = s.provider
  state : s'.state = s.state

/-- Every dependency has been asked. -/
structure AllAsked (providerEnabled : Bool) (history : List Event) : Prop where
  database : Asked (.awaited .selectOne) history
  redis : Asked .ping history
  provider : providerEnabled = true → Asked .getHealth history

/-- How the probes end, where the last state is to be good exactly if all has gone well. -/
def Answered {α : Type} (good : ApplicationLifecycle → α → Prop) (history : List Event)
    (s : ApplicationLifecycle) (history' : List Event) (s' : ApplicationLifecycle) :
    Ended ApplicationError α → Prop
  | .returned a => (∀ r, balance r history' = balance r history) ∧ SameHeld s s' ∧
      AllAsked s.provider.isSome history' ∧ (Clean history' ↔ Clean history ∧ good s' a)
  | .raised _ => False
  | .cancelled => (∀ r, balance r history' = balance r history) ∧ SameHeld s s' ∧ ¬ Clean history'

theorem isReady_iff {s : ApplicationLifecycle} :
    s.isReady = true ↔ s.state = .started ∧ s.databaseState = .healthy ∧ s.redisState = .healthy ∧
      (s.provider.isSome = true → s.providerState = .healthy) :=
  decide_eq_true_iff

theorem probeDependencies_answers {s : ApplicationLifecycle} (hs : s.Sustained)
    (hstarted : s.state = .started) (history : List Event) :
    wp probeDependencies (Answered (fun s' _ => s'.isReady = true) history s) history s := by
  rw [probeDependencies, wp_bind]
  refine wp_mono ?_ (probeDatabase_probes hs.engine history)
  rintro h₁ s₁ e₁ hprobed₁
  cases e₁ with
  | raised x => exact absurd hprobed₁ id
  | cancelled =>
    obtain ⟨hbalanced₁, rfl, hdirty₁⟩ := hprobed₁
    exact ⟨hbalanced₁, ⟨rfl, rfl, rfl, rfl⟩, hdirty₁⟩
  | returned a₁ =>
    obtain ⟨hbalanced₁, hasked₁, d₁, rfl, hclean₁⟩ := hprobed₁
    rw [andThen_returned, wp_bind]
    refine wp_mono ?_ (wp_extends (probeRedis_probes (s := { s with databaseState := d₁ }) hs.pool h₁))
    rintro h₂ s₂ e₂ ⟨hextends₂, hprobed₂⟩
    cases e₂ with
    | raised x => exact absurd hprobed₂ id
    | cancelled =>
      obtain ⟨hbalanced₂, rfl, hdirty₂⟩ := hprobed₂
      exact ⟨fun r => (hbalanced₂ r).trans (hbalanced₁ r), ⟨rfl, rfl, rfl, rfl⟩, hdirty₂⟩
    | returned a₂ =>
      obtain ⟨hbalanced₂, hasked₂, d₂, rfl, hclean₂⟩ := hprobed₂
      rw [andThen_returned, wp_bind, wp_get, andThen_returned]
      show wp (if s.provider.isSome = true then probeProvider else pure ()) _ h₂
        { s with databaseState := d₁, redisState := d₂ }
      by_cases hprovider : s.provider.isSome = true
      · obtain ⟨d, hd⟩ := Option.isSome_iff_exists.mp hprovider
        rw [if_pos hprovider]
        refine wp_mono ?_ (wp_extends (probeProvider_probes
          (s := { s with databaseState := d₁, redisState := d₂ }) hd (hs.provider d hd) h₂))
        rintro h₃ s₃ e₃ ⟨hextends₃, hprobed₃⟩
        cases e₃ with
        | raised x => exact absurd hprobed₃ id
        | cancelled =>
          obtain ⟨hbalanced₃, rfl, hdirty₃⟩ := hprobed₃
          exact ⟨fun r => (hbalanced₃ r).trans ((hbalanced₂ r).trans (hbalanced₁ r)),
            ⟨rfl, rfl, rfl, rfl⟩, hdirty₃⟩
        | returned a₃ =>
          obtain ⟨hbalanced₃, hasked₃, d₃, rfl, hclean₃⟩ := hprobed₃
          refine ⟨fun r => (hbalanced₃ r).trans ((hbalanced₂ r).trans (hbalanced₁ r)),
            ⟨rfl, rfl, rfl, rfl⟩,
            ⟨hasked₁.mono (hextends₂.trans hextends₃), hasked₂.mono hextends₃, fun _ => hasked₃⟩, ?_⟩
          simp [hclean₃, hclean₂, hclean₁, isReady_iff, hstarted, hprovider, and_assoc]
      · rw [if_neg hprovider, wp_pure]
        refine ⟨fun r => (hbalanced₂ r).trans (hbalanced₁ r), ⟨rfl, rfl, rfl, rfl⟩,
          ⟨hasked₁.mono hextends₂, hasked₂, fun h => absurd h hprovider⟩, ?_⟩
        simp [hclean₂, hclean₁, isReady_iff, hstarted, hprovider, and_assoc]

theorem readinessSnapshot_answers {s : ApplicationLifecycle} (hs : s.Sustained)
    (hstarted : s.state = .started) (history : List Event) :
    wp readinessSnapshot (Answered (fun _ snapshot => snapshot.status = "ready") history s)
      history s := by
  rw [readinessSnapshot, wp_bind, wp_get, andThen_returned, if_pos hstarted, wp_bind]
  refine wp_mono ?_ (probeDependencies_answers hs hstarted history)
  rintro h s' e hanswered
  cases e with
  | raised x => exact hanswered
  | cancelled => exact hanswered
  | returned a =>
    obtain ⟨hbalanced, hsame, hasked, hclean⟩ := hanswered
    rw [andThen_returned, wp_bind, wp_get, andThen_returned, wp_pure]
    refine ⟨hbalanced, hsame, hasked, hclean.trans ?_⟩
    simp [readinessResponse]

end ApplicationLifecycle

end ApexScan.Lifecycle
