import ApexScan.Deploy.HealthCheck

/-!
# The deployment of a release (`deploy/transport.py`)

A promotion runs its checks, captures a rollback target, pulls the image, updates the backend, verifies
it and rolls back once if that fails.

* `DeployConfig`, `DeploymentAudit`, `TransportOutcome`.
* `compose`, `updateCommand` — the commands.
* `preflight`, `resolveRollback`, `preMutationGate` — what runs before the first update.
* `rollback`, `deploy` — the update, its verification and the one rollback.
* `buildVerifier`, `buildLegacyVerifier` — the verifications of real deployments.

The SSH executor, the command line and the printed summary are left out.
-/

set_option autoImplicit false

namespace ApexScan.Deploy

open Lib

/-! ## Outcomes -/

/-- The terminal outcome of a deployment. -/
inductive TransportOutcome where
  | success
  | transportNotConfigured
  | migrationsRequiredNotAuthorized
  | targetImageInvalid
  | remotePathInvalid
  | sshHostVerificationFailed
  | sshConnectionFailed
  | dockerUnavailable
  | dockerPrivilegeUnavailable
  | composeUnavailable
  | composeVersionUnsupported
  | composeConfigInvalid
  | rollbackTargetUnavailable
  | legacyRollbackArtifactRequired
  | releasePathInvalid
  | targetImagePullFailed
  | deploymentCommandFailed
  | healthFailed
  | startupFailed
  | readinessFailed
  | wrongBuildSha
  | rolledBack
  | legacyRolledBack
  | rollbackFailed
  | rollbackRequiresOperatorIntervention
  deriving DecidableEq

/-- The text of `_VERIFY_TO_OUTCOME[outcome].value`; there is no entry for a success. -/
def verifyFailure : VerifyOutcome → Option String
  | .success => none
  | .healthFailed | .timeout => some "health_failed"
  | .startupFailed => some "startup_failed"
  | .readinessFailed => some "readiness_failed"
  | .wrongSha => some "wrong_build_sha"

structure DeploymentAudit where
  runId : String
  requestedSha : String
  targetDigest : String
  previousSha : Option String
  previousDigest : Option String
  startedAt : ℚ
  completedAt : ℚ
  verification : String
  rollbackAttempted : Bool
  rollbackResult : Option String
  outcome : TransportOutcome

/-! ## Configuration and commands -/

inductive DockerPrivilege where
  | direct
  | sudoNonInteractive
  deriving DecidableEq

structure DeployConfig where
  targetImage : String
  targetSha : String
  deployRoot : String
  baseUrl : String
  dhanRestartSafe : Bool
  requireMigrations : Bool := false
  runId : String := "local"
  dockerPrivilege : DockerPrivilege := .direct
  projectName : String := "apexscan"
  composeFile : String := "docker-compose.production.yml"
  legacyArtifact : Option LegacyRollbackArtifact := none

/-- `release_path`, which raises `ReleasePathError`. -/
def DeployConfig.releasePath (cfg : DeployConfig) : Except PyError String :=
  match resolveReleasePath cfg.deployRoot cfg.targetSha with
  | some path => .ok path
  | none => .error .valueError

/-- `_PRIVILEGE_PREFIX`. -/
def DockerPrivilege.command : DockerPrivilege → List String
  | direct => []
  | sudoNonInteractive => ["sudo", "-n"]

/-- `_priv`. -/
def priv (cfg : DeployConfig) (args : List String) : List String := cfg.dockerPrivilege.command ++ args

/-- The Compose command of a release directory and an image. -/
def composeIn (cfg : DeployConfig) (path image : String) : List String :=
  priv cfg (["env", "APEXSCAN_IMAGE=" ++ image] ++ ["docker", "compose", "-p", cfg.projectName,
    "-f", path ++ "/" ++ cfg.composeFile, "--project-directory", path])

/-- `_compose`, with an image. -/
def compose (cfg : DeployConfig) (image : String) : Except PyError (List String) := do
  let path ← cfg.releasePath
  return composeIn cfg path image

/-- The arguments of an update. -/
def upArguments : List String := ["up", "-d", "--no-deps", "--no-build", "backend"]

def psArguments : List String := ["ps", "--format", "\x7b\x7b.Image\x7d\x7d", "backend"]

variable (u : UnicodeData)

/-- `_classify_ssh_failure`. -/
def classifySshFailure (result : ExecResult) : TransportOutcome :=
  let text := u.lower result.stderr
  if contains text "host key" || contains text "known_hosts" || contains text "verification failed"
  then .sshHostVerificationFailed
  else .sshConnectionFailed

/-- `int(text)` of decimal digits, which are limited to 4300. -/
def intOf (digits : List ℕ) : Except PyError ℕ :=
  if 4300 < digits.length then .error .valueError
  else .ok (digits.foldl (fun n digit => 10 * n + digit) 0)

/-- `\d+`: the digits at the start, and the rest. -/
def spanDigits (cs : List Char) : List ℕ × List Char :=
  ((cs.takeWhile fun c => (u.digit c).isSome).filterMap u.digit,
    cs.dropWhile fun c => (u.digit c).isSome)

/-- `_compose_version_ok`. -/
def composeVersionOk (raw : String) : Except PyError Bool :=
  let text := (strip raw).toList
  let (major, rest) := spanDigits u (if text.head? = some 'v' then text.tail else text)
  match major, rest with
  | _ :: _, '.' :: rest =>
    match (spanDigits u rest).1 with
    | [] => .ok false
    | minor => do
      let major ← intOf major
      let minor ← intOf minor
      return decide (2 < major ∨ major = 2 ∧ 24 ≤ minor)
  | _, _ => .ok false

/-! ## Before the first update -/

/-- The check of `sudo`, where it is configured. -/
def privilegeOk (cfg : DeployConfig) : Action Bool :=
  match cfg.dockerPrivilege with
  | .direct => return true
  | .sudoNonInteractive => do
    let result ← executorRun ["sudo", "-n", "true"]
    return result.ok

/-- `_preflight`: the first failure. -/
def preflight (cfg : DeployConfig) : Action (Option TransportOutcome) := do
  let reachable ← executorRun ["true"]
  if !reachable.ok then return some (classifySshFailure u reachable) else
  let privileged ← privilegeOk cfg
  if !privileged then return some .dockerPrivilegeUnavailable else
  let path ← Interaction.ofExcept cfg.releasePath
  let directory ← executorRun (priv cfg ["test", "-d", path])
  if !directory.ok then return some .remotePathInvalid else
  let docker ← executorRun (priv cfg ["docker", "info"])
  if !docker.ok then return some .dockerUnavailable else
  let version ← executorRun (priv cfg ["docker", "compose", "version", "--short"])
  if !version.ok then return some .composeUnavailable else
  let supported ← Interaction.ofExcept (composeVersionOk u version.stdout)
  if !supported then return some .composeVersionUnsupported else
  let command ← Interaction.ofExcept (compose cfg cfg.targetImage)
  let config ← executorRun (command ++ ["config", "-q"])
  if !config.ok then return some .composeConfigInvalid else return none

/-- The digest that `docker compose ps` reports. -/
def digestOf (result : ExecResult) : Option String :=
  let digest := if result.ok && strip result.stdout != "" then firstLine (strip result.stdout) else ""
  if digestRef digest then some digest else none

/-- `_running_digest`. -/
def runningDigest (cfg : DeployConfig) : Action (Option String) := do
  let command ← Interaction.ofExcept (compose cfg cfg.targetImage)
  let result ← executorRun (command ++ psArguments)
  return digestOf result

/-- `_resolve_rollback`. -/
def resolveRollback (cfg : DeployConfig) :
    Action (Option TransportOutcome × Option RollbackTarget) := do
  let answer ← Interaction.request Request.probeVersion
  let (responded, buildSha) ← Interaction.ofExcept answer
  if !responded then return (some .rollbackTargetUnavailable, none) else
  let digest ← runningDigest cfg
  match selectRollbackTarget buildSha digest cfg.legacyArtifact true with
  | some target => return (none, some target)
  | none =>
    if buildSha.isNone && cfg.legacyArtifact.isNone then
      return (some .legacyRollbackArtifactRequired, none)
    else return (some .rollbackTargetUnavailable, none)

/-- `_pull`. -/
def pull (cfg : DeployConfig) (image : String) : Action Bool := do
  let result ← executorRun (priv cfg ["docker", "pull", image])
  return result.ok

/-- `_update_backend`. -/
def updateBackend (cfg : DeployConfig) (image : String) : Action Bool := do
  let command ← Interaction.ofExcept (compose cfg image)
  let result ← executorRun (command ++ upArguments)
  return result.ok

/-- `_validate`. -/
def validate (cfg : DeployConfig) : Option TransportOutcome :=
  if cfg.requireMigrations then some .migrationsRequiredNotAuthorized
  else if !digestRef cfg.targetImage then some .targetImageInvalid
  else if !fullSha cfg.targetSha then some .targetImageInvalid
  else if (resolveReleasePath cfg.deployRoot cfg.targetSha).isNone then some .releasePathInvalid
  else none

/-- `_pre_mutation_gate`. -/
def preMutationGate (cfg : DeployConfig) :
    Action (Option TransportOutcome × Option RollbackTarget) :=
  match validate cfg with
  | some invalid => return (some invalid, none)
  | none => do
    match ← preflight u cfg with
    | some failure => return (some failure, none)
    | none =>
      match ← resolveRollback cfg with
      | (some failure, _) => return (some failure, none)
      | (none, target) =>
        let pulled ← pull cfg cfg.targetImage
        if !pulled then return (some .targetImagePullFailed, target) else return (none, target)

/-! ## Update, verification and rollback -/

/-- The closure `audit` of `deploy`. -/
def audit (cfg : DeployConfig) (target : Option RollbackTarget) (startedAt : ℚ)
    (outcome : TransportOutcome) (verification : String) (rollbackAttempted : Bool)
    (rollbackResult : Option String) : Action DeploymentAudit := do
  let completedAt ← Interaction.request Request.now
  return {
    runId := cfg.runId
    requestedSha := cfg.targetSha
    targetDigest := cfg.targetImage
    previousSha := target.map (·.sourceSha)
    previousDigest := target.map (·.imageDigest)
    startedAt, completedAt, verification, rollbackAttempted, rollbackResult, outcome }

/-- `_rollback`. -/
def rollback (cfg : DeployConfig) (target : RollbackTarget) (verify : String → Action VerifyResult)
    (verifyLegacy : String → Action Bool)
    (buildAudit : TransportOutcome → Bool → Option String → Action DeploymentAudit) :
    Action DeploymentAudit :=
  match (planRollback u (some target.imageDigest) true cfg.dhanRestartSafe).decision with
  | .requiresOperatorIntervention =>
    buildAudit .rollbackRequiresOperatorIntervention false (some "dhan_unsafe")
  | .unavailable => buildAudit .rollbackTargetUnavailable false none
  | .ready => do
    let pulled ← pull cfg target.imageDigest
    if !pulled then buildAudit .rollbackFailed true (some "pull_failed") else
    let updated ← updateBackend cfg target.imageDigest
    if !updated then buildAudit .rollbackFailed true (some "update_failed") else
    if target.legacy then
      let verified ← verifyLegacy target.imageDigest
      if verified then buildAudit .legacyRolledBack true (some "legacy_success")
      else buildAudit .rollbackFailed true (some "legacy_verification_failed")
    else
      let verified ← verify target.sourceSha
      if verified.outcome = .success then buildAudit .rolledBack true (some "success")
      else buildAudit .rollbackFailed true (some verified.outcome.value)

/-- What `deploy` does once every check has passed: the update, its verification, the rollback. -/
def promote (cfg : DeployConfig) (target : RollbackTarget) (startedAt : ℚ)
    (verify : String → Action VerifyResult) (verifyLegacy : String → Action Bool) :
    Action DeploymentAudit := do
  let doRollback (reason : String) : Action DeploymentAudit :=
    rollback u cfg target verify verifyLegacy fun outcome attempted result =>
      audit cfg (some target) startedAt outcome reason attempted result
  let updated ← updateBackend cfg cfg.targetImage
  if !updated then doRollback "deployment_command_failed" else
  let result ← verify cfg.targetSha
  if result.outcome = .success then
    audit cfg (some target) startedAt .success "success" false none
  else doRollback ((verifyFailure result.outcome).getD "")

/-- `deploy`. -/
def deploy (cfg : DeployConfig) (verify : String → Action VerifyResult)
    (verifyLegacy : String → Action Bool) : Action DeploymentAudit := do
  let startedAt ← Interaction.request Request.now
  match ← preMutationGate u cfg with
  | (some failure, target) => audit cfg target startedAt failure "not_started" false none
  | (none, none) => Interaction.raise .assertionError
  | (none, some target) => promote u cfg target startedAt verify verifyLegacy

/-- `base_url.rstrip("/")`. -/
def rootOf (baseUrl : String) : String := String.ofList (baseUrl.toList.rdropWhile (· == '/'))

/-- The `verify` of `_build_verifier`. -/
def buildVerifier (baseUrl : String) (attempts : Int) (interval timeout : ℚ) (expectedSha : String) :
    Action VerifyResult :=
  verifyRelease u (probeEndpoints (rootOf baseUrl) timeout) expectedSha attempts (sleep interval)

/-- `_build_legacy_verifier`. -/
def buildLegacyVerifier (cfg : DeployConfig) (timeout : ℚ) (expectedDigest : String) :
    Action Bool := do
  let probe ← probeEndpoints (rootOf cfg.baseUrl) timeout
  let digest ← runningDigest cfg
  return legacyRollbackVerified (digest.getD "") expectedDigest probe.healthOk probe.startupOk
    probe.readyOk

end ApexScan.Deploy
