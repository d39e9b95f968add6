import ApexScan.Deploy.Bundle
import ApexScan.Deploy.Transport

/-!
# Staging a release (`deploy/stage.py`)

A bundle is verified for its commit, and the one file it carries is placed in the release directory of a
host, unless the host has it already.

* `Staging` — programs that ask a host for the results of commands.
* `verifiedCompose`, `preflight`, `place`, `stage` — the stages.
* `runs_stage` — a bundle that is refused, or raises, ends the run before any command.
* `placed_read_back` — a file that is reported as placed was verified, and read back with its digest.
* `FailsClosed`, `fails_closed_iff` — what is expected of every archive, and when it holds.

`read_error_raised` is an archive that is none, whose error nothing catches.
-/

set_option autoImplicit false

namespace ApexScan.Deploy.Stage

open Lib

/-! ## Results and configuration -/

/-- The terminal outcome of an attempt. -/
inductive StageOutcome where
  | staged
  | alreadyStaged
  | releasePathInvalid
  | bundleInvalid
  | bundleUnexpectedContent
  | releaseConflict
  | sshUnreachable
  | privilegeUnavailable
  | mkdirFailed
  | writeFailed
  | verifyFailed
  deriving DecidableEq, Repr

structure StageResult where
  outcome : StageOutcome
  targetSha : String
  releasePath : Option String
  stagedFile : Option String
  changed : Bool

structure StageConfig where
  deployRoot : String
  targetSha : String
  dockerPrivilege : DockerPrivilege := .direct
  composeFile : String := productionComposeFile

/-- `_PLACED`. -/
def placed : StageOutcome → Bool
  | .staged | .alreadyStaged => true
  | _ => false

/-- `_result`, without its log. -/
def result (outcome : StageOutcome) (cfg : StageConfig) (releaseFile : Option String) (changed : Bool) :
    StageResult where
  outcome := outcome
  targetSha := cfg.targetSha
  releasePath := releaseFile
  stagedFile := if placed outcome then releaseFile else none
  changed := changed

/-! ## Commands -/

/-- A program whose requests are commands of the host; `RemoteExecutor.run` does not raise. -/
abbrev Staging (α : Type) := Interaction (List String) (fun _ => ExecResult) BundleFailure α

/-- A command and its result. -/
abbrev CommandRun := Exchange (List String) fun _ => ExecResult

/-- `executor.run`. -/
def run (command : List String) : Staging ExecResult := Interaction.request command

/-- `_priv`. -/
def priv (cfg : StageConfig) (args : List String) : List String := cfg.dockerPrivilege.command ++ args

/-- `text.split()[0]`, where there is one. -/
def firstToken (text : String) : Option String :=
  let token := (text.toList.dropWhile isSpace).takeWhile fun c => !isSpace c
  if token.isEmpty then none else some (String.ofList token)

/-- The digest that `sha256sum` has answered. -/
def digestOf (r : ExecResult) : Option String := if !r.ok then none else firstToken r.stdout

/-- `_remote_sha256`. -/
def remoteSha256 (cfg : StageConfig) (path : String) : Staging (Option String) := do
  let r ← run (priv cfg ["sha256sum", path])
  return digestOf r

/-- A digit of base 64. -/
def base64Digit (n : ℕ) : Char :=
  "ABCDEFGHIJKLMNOPQRSTUVWXYZabcdefghijklmnopqrstuvwxyz0123456789+/".toList.getD n '='

/-- The characters of `base64.b64encode`, four for each three bytes. -/
def base64Chars : List ℕ → List Char
  | [] => []
  | [a] => [base64Digit (a / 4), base64Digit (a % 4 * 16), '=', '=']
  | [a, b] => [base64Digit (a / 4), base64Digit (a % 4 * 16 + b / 16), base64Digit (b % 16 * 4), '=']
  | a :: b :: c :: rest =>
    base64Digit (a / 4) :: base64Digit (a % 4 * 16 + b / 16) :: base64Digit (b % 16 * 4 + c / 64) ::
      base64Digit (c % 64) :: base64Chars rest

/-- `base64.b64encode(content).decode("ascii")`. -/
def b64encode (content : Bytes) : String := String.ofList (base64Chars (content.map UInt8.toNat))

/-- `_WRITE_SCRIPT`. -/
def writeScript : String :=
  "set -eu; d=\"$1\"; b=\"$2\"; f=\"$3\"; umask 077; t=\"$d/.stage.$$.tmp\"; " ++
    "printf %s \"$b\" | base64 -d > \"$t\"; mv -f \"$t\" \"$d/$f\""

/-! ## Stages -/

/-- `_preflight`: the failure, if there is one. -/
def preflight (cfg : StageConfig) : Staging (Option StageOutcome) := do
  let reachable ← run ["true"]
  if !reachable.ok then return some .sshUnreachable else
  match cfg.dockerPrivilege with
  | .direct => return none
  | .sudoNonInteractive =>
    let privileged ← run ["sudo", "-n", "true"]
    if !privileged.ok then return some .privilegeUnavailable else return none

/-- `_verified_compose`: the content of the one file, or a failure; only `BundleError` is caught. -/
def verifiedCompose (P : Libraries) (bundle : Bytes) (cfg : StageConfig) :
    Except BundleFailure (Except StageOutcome Bytes) :=
  match verifyBundle P bundle cfg.targetSha with
  | .error .bundleError => .ok (.error .bundleInvalid)
  | .error failure => .error failure
  | .ok files =>
    if !sameKeys (files.map (·.1)) [productionComposeFile] then .ok (.error .bundleUnexpectedContent)
    else
      match files.get cfg.composeFile with
      | none => .ok (.error .bundleUnexpectedContent)
      | some content => .ok (.ok content)

/-- `_place`. -/
def place (cfg : StageConfig) (content : Bytes) (releaseDir releaseFile : String) :
    Staging StageResult := do
  let present ← run (priv cfg ["test", "-f", releaseFile])
  if present.ok then
    let existing ← remoteSha256 cfg releaseFile
    if existing = some (sha256 content) then return result .alreadyStaged cfg (some releaseFile) false
    else return result .releaseConflict cfg (some releaseFile) false
  else
  let made ← run (priv cfg ["mkdir", "-p", releaseDir])
  if !made.ok then return result .mkdirFailed cfg (some releaseFile) false else
  let written ← run (priv cfg
    ["sh", "-c", writeScript, "sh", releaseDir, b64encode content, cfg.composeFile])
  if !written.ok then return result .writeFailed cfg (some releaseFile) false else
  let stored ← remoteSha256 cfg releaseFile
  if stored ≠ some (sha256 content) then return result .verifyFailed cfg (some releaseFile) false
  else return result .staged cfg (some releaseFile) true

/-- What `stage` does with a content that was verified. -/
def stageContent (cfg : StageConfig) (content : Bytes) : Staging StageResult :=
  match resolveReleasePath cfg.deployRoot cfg.targetSha with
  | none => return result .releasePathInvalid cfg none false
  | some releaseDir => do
    let releaseFile := releaseDir ++ "/" ++ cfg.composeFile
    match ← preflight cfg with
    | some failure => return result failure cfg (some releaseFile) false
    | none => place cfg content releaseDir releaseFile

/-- `stage`. -/
def stage (P : Libraries) (cfg : StageConfig) (bundle : Bytes) : Staging StageResult := do
  match ← Interaction.ofExcept (verifiedCompose P bundle cfg) with
  | .error failure => return result failure cfg none false
  | .ok content => stageContent cfg content

/-! ## What is verified -/

variable {P : Libraries} {cfg : StageConfig} {bundle content : Bytes}

/-- Files of distinct names, whose only name is this one. -/
theorem eq_singleton_of_sameKeys {files : Dict String Bytes} {name : String}
    (hdistinct : (files.map (·.1)).Nodup) :
    sameKeys (files.map (·.1)) [name] = true ↔ ∃ content, files = [(name, content)] := by
  rw [sameKeys_iff]
  constructor
  · intro h
    match files with
    | [] => exact absurd ((h name).mpr (List.mem_singleton_self name)) List.not_mem_nil
    | [(first, content)] =>
      have hfirst : first = name := List.mem_singleton.mp ((h first).mp List.mem_cons_self)
      exact ⟨content, by rw [hfirst]⟩
    | first :: second :: rest =>
      have hfirst : first.1 = name := List.mem_singleton.mp ((h first.1).mp (by simp))
      have hsecond : second.1 = name := List.mem_singleton.mp ((h second.1).mp (by simp))
      simp [hfirst, hsecond] at hdistinct
  · rintro ⟨content, rfl⟩
    simp

theorem verifiedCompose_eq_error {failure : BundleFailure} :
    verifiedCompose P bundle cfg = .error failure ↔
      verifyBundle P bundle cfg.targetSha = .error failure ∧ failure ≠ .bundleError := by
  unfold verifiedCompose
  constructor
  · intro h
    split at h
    · cases h
    · rename_i hother hverify
      cases h
      exact ⟨hverify, fun heq => hother (heq ▸ rfl)⟩
    · split at h
      · cases h
      · split at h <;> cases h
  · rintro ⟨hverify, hfailure⟩
    rw [hverify]
    cases failure <;> first | rfl | exact absurd rfl hfailure

/-- A refusal is one of two outcomes. -/
theorem refused_of_verifiedCompose {failure : StageOutcome}
    (h : verifiedCompose P bundle cfg = .ok (.error failure)) :
    failure = .bundleInvalid ∨ failure = .bundleUnexpectedContent := by
  unfold verifiedCompose at h
  split at h
  · cases h
    exact Or.inl rfl
  · cases h
  · split at h
    · cases h
      exact Or.inr rfl
    · split at h
      · cases h
        exact Or.inr rfl
      · cases h

/-- **The content that is staged** is that of the one file which verifies. -/
theorem verifiedCompose_eq_content :
    verifiedCompose P bundle cfg = .ok (.ok content) ↔
      verifyBundle P bundle cfg.targetSha = .ok [(productionComposeFile, content)] ∧
        cfg.composeFile = productionComposeFile := by
  unfold verifiedCompose
  constructor
  · intro h
    split at h
    · cases h
    · cases h
    · rename_i files hverify
      have hdistinct := (verifyBundle_eq_ok.mp hverify).distinct
      split at h
      · cases h
      · rename_i hkeys
        obtain ⟨data, rfl⟩ := (eq_singleton_of_sameKeys hdistinct).mp (by simpa using hkeys)
        split at h
        · cases h
        · rename_i found hfound
          cases h
          have hmem := List.mem_singleton.mp ((Dict.mem_iff_get hdistinct _ _).mpr hfound)
          rw [Prod.mk.injEq] at hmem
          obtain ⟨hcompose, rfl⟩ := hmem
          exact ⟨hverify, hcompose⟩
  · rintro ⟨hverify, hcompose⟩
    have hkeys : sameKeys [productionComposeFile] [productionComposeFile] = true := by decide
    rw [hverify, hcompose]
    simp [hkeys, Dict.get]

/-! ## Runs -/

variable {trace : List CommandRun} {outcome : Except BundleFailure StageResult}
  {releaseDir releaseFile : String}

/-- A program that raises in no run. -/
def Returns {α : Type} (p : Staging α) : Prop := Interaction.RaisesBy (fun _ => False) p

theorem returns_run (command : List String) : Returns (run command) :=
  Interaction.raisesBy_request fun _ => id

theorem returns_remoteSha256 (path : String) : Returns (remoteSha256 cfg path) :=
  Interaction.raisesBy_bind (returns_run _) fun _ => Interaction.raisesBy_pure _

theorem returns_preflight : Returns (preflight cfg) := by
  apply Interaction.raisesBy_bind (returns_run _)
  intro reachable
  split
  · exact Interaction.raisesBy_pure _
  · split
    · exact Interaction.raisesBy_pure _
    · apply Interaction.raisesBy_bind (returns_run _)
      intro privileged
      split <;> exact Interaction.raisesBy_pure _

theorem returns_place : Returns (place cfg content releaseDir releaseFile) := by
  apply Interaction.raisesBy_bind (returns_run _)
  intro present
  split
  · apply Interaction.raisesBy_bind (returns_remoteSha256 _)
    intro existing
    split <;> exact Interaction.raisesBy_pure _
  · apply Interaction.raisesBy_bind (returns_run _)
    intro made
    split
    · exact Interaction.raisesBy_pure _
    · apply Interaction.raisesBy_bind (returns_run _)
      intro written
      split
      · exact Interaction.raisesBy_pure _
      · apply Interaction.raisesBy_bind (returns_remoteSha256 _)
        intro stored
        split <;> exact Interaction.raisesBy_pure _

/-- Once the content is verified, nothing is raised. -/
theorem returns_stageContent : Returns (stageContent cfg content) := by
  unfold stageContent
  split
  · exact Interaction.raisesBy_pure _
  · apply Interaction.raisesBy_bind returns_preflight
    intro failure
    split
    · exact Interaction.raisesBy_pure _
    · exact returns_place

/-- **A run starts with the verification**, which asks the host for nothing. -/
theorem runs_stage : Interaction.Runs (stage P cfg bundle) trace outcome ↔
    (∃ failure, verifiedCompose P bundle cfg = .error failure ∧ trace = [] ∧ outcome = .error failure) ∨
    (∃ failure, verifiedCompose P bundle cfg = .ok (.error failure) ∧ trace = [] ∧
      outcome = .ok (result failure cfg none false)) ∨
    ∃ content, verifiedCompose P bundle cfg = .ok (.ok content) ∧
      Interaction.Runs (stageContent cfg content) trace outcome := by
  unfold stage
  rw [Interaction.runs_bind]
  constructor
  · rintro (⟨failure, hraised, rfl⟩ | ⟨verified, first, second, hfirst, hsecond, rfl⟩)
    · obtain ⟨rfl, hverified⟩ := Interaction.runs_ofExcept.mp hraised
      exact Or.inl ⟨failure, hverified.symm, rfl, rfl⟩
    · obtain ⟨rfl, hverified⟩ := Interaction.runs_ofExcept.mp hfirst
      cases verified with
      | error failure =>
        obtain ⟨rfl, rfl⟩ := Interaction.runs_pure.mp hsecond
        exact Or.inr (Or.inl ⟨failure, hverified.symm, rfl, rfl⟩)
      | ok content => exact Or.inr (Or.inr ⟨content, hverified.symm, hsecond⟩)
  · rintro (⟨failure, hverified, rfl, rfl⟩ | ⟨failure, hverified, rfl, rfl⟩ |
      ⟨content, hverified, hrest⟩)
    · exact Or.inl ⟨failure, Interaction.runs_ofExcept.mpr ⟨rfl, hverified.symm⟩, rfl⟩
    · exact Or.inr ⟨.error failure, [], [], Interaction.runs_ofExcept.mpr ⟨rfl, hverified.symm⟩,
        Interaction.runs_pure.mpr ⟨rfl, rfl⟩, rfl⟩
    · exact Or.inr ⟨.ok content, [], trace, Interaction.runs_ofExcept.mpr ⟨rfl, hverified.symm⟩, hrest,
        rfl⟩

/-! ## What is reported as placed -/

/-- The last command has read the file back, with the digest of the content. -/
def ReadBack (cfg : StageConfig) (releaseFile : String) (content : Bytes) (trace : List CommandRun) :
    Prop :=
  ∃ before r, trace = before ++ [⟨priv cfg ["sha256sum", releaseFile], r⟩] ∧
    digestOf r = some (sha256 content)

theorem runs_remoteSha256 {path : String} {digest : Except BundleFailure (Option String)} :
    Interaction.Runs (remoteSha256 cfg path) trace digest ↔
      ∃ r, trace = [⟨priv cfg ["sha256sum", path], r⟩] ∧ digest = .ok (digestOf r) := by
  unfold remoteSha256 run
  rw [Interaction.runs_bind_request]
  constructor
  · rintro ⟨r, rest, hrest, rfl⟩
    obtain ⟨rfl, rfl⟩ := Interaction.runs_pure.mp hrest
    exact ⟨r, rfl, rfl⟩
  · rintro ⟨r, rfl, rfl⟩
    exact ⟨r, [], Interaction.runs_pure.mpr ⟨rfl, rfl⟩, rfl⟩

/-- A result that reports a file as placed comes with a trace that reads it back. -/
def Reports (cfg : StageConfig) (releaseFile : String) (content : Bytes) (trace : List CommandRun)
    (r : StageResult) : Prop :=
  placed r.outcome = true → ReadBack cfg releaseFile content trace

theorem Reports.cons {r : StageResult} (h : Reports cfg releaseFile content trace r) (e : CommandRun) :
    Reports cfg releaseFile content (e :: trace) r := by
  intro hplaced
  obtain ⟨before, answer, rfl, hdigest⟩ := h hplaced
  exact ⟨e :: before, answer, rfl, hdigest⟩

/-- The end of a stage: the file is read back, and what is reported depends on its digest. -/
theorem reports_of_readBack {r : StageResult} {good bad : StageOutcome} {changed : Bool}
    (hbad : placed bad = false)
    (h : Interaction.Runs (remoteSha256 cfg releaseFile >>= fun digest =>
      if digest = some (sha256 content) then return result good cfg (some releaseFile) changed
      else return result bad cfg (some releaseFile) false) trace (.ok r)) :
    Reports cfg releaseFile content trace r := by
  obtain ⟨digest, first, second, hfirst, hsecond, rfl⟩ := Interaction.runs_bind_ok.mp h
  obtain ⟨answer, rfl, hdigest⟩ := runs_remoteSha256.mp hfirst
  cases hdigest
  intro hplaced
  split at hsecond
  · rename_i hsame
    obtain ⟨rfl, -⟩ := Interaction.runs_pure.mp hsecond
    exact ⟨[], answer, rfl, hsame⟩
  · obtain ⟨-, hresult⟩ := Interaction.runs_pure.mp hsecond
    cases hresult
    exact absurd (hbad.symm.trans hplaced) Bool.false_ne_true

/-- A stage that is left without reading the file back reports nothing as placed. -/
theorem reports_of_failure {r : StageResult} {bad : StageOutcome} {file : Option String}
    {changed : Bool} (hbad : placed bad = false)
    (h : Interaction.Runs (pure (result bad cfg file changed) : Staging StageResult) trace (.ok r)) :
    Reports cfg releaseFile content trace r := by
  obtain ⟨-, hresult⟩ := Interaction.runs_pure.mp h
  cases hresult
  intro hplaced
  exact absurd (hbad.symm.trans hplaced) Bool.false_ne_true

theorem place_reports {r : StageResult}
    (h : Interaction.Runs (place cfg content releaseDir releaseFile) trace (.ok r)) :
    Reports cfg releaseFile content trace r := by
  obtain ⟨present, rest, hpresent, rfl⟩ := Interaction.runs_bind_request.mp h
  apply Reports.cons
  split at hpresent
  · exact reports_of_readBack rfl hpresent
  · obtain ⟨made, rest, hmade, rfl⟩ := Interaction.runs_bind_request.mp hpresent
    apply Reports.cons
    split at hmade
    · exact reports_of_failure rfl hmade
    · obtain ⟨written, rest, hwritten, rfl⟩ := Interaction.runs_bind_request.mp hmade
      apply Reports.cons
      split at hwritten
      · exact reports_of_failure rfl hwritten
      · simp only [ne_eq, ite_not] at hwritten
        exact reports_of_readBack rfl hwritten

/-- A preflight fails with an outcome that reports nothing as placed. -/
theorem preflight_failure {failure : StageOutcome} {first : List CommandRun}
    (h : Interaction.Runs (preflight cfg) first (.ok (some failure))) : placed failure = false := by
  obtain ⟨reachable, rest, hreachable, rfl⟩ := Interaction.runs_bind_request.mp h
  split at hreachable
  · obtain ⟨-, hfailure⟩ := Interaction.runs_pure.mp hreachable
    cases hfailure
    rfl
  · split at hreachable
    · obtain ⟨-, hfailure⟩ := Interaction.runs_pure.mp hreachable
      cases hfailure
    · obtain ⟨privileged, rest, hprivileged, rfl⟩ := Interaction.runs_bind_request.mp hreachable
      split at hprivileged
      · obtain ⟨-, hfailure⟩ := Interaction.runs_pure.mp hprivileged
        cases hfailure
        rfl
      · obtain ⟨-, hfailure⟩ := Interaction.runs_pure.mp hprivileged
        cases hfailure

/-- **What is reported as placed** was verified for the commit, as the one file, and has been read back
    from the release directory of the commit with the digest of that content. -/
theorem placed_read_back {r : StageResult} (h : Interaction.Runs (stage P cfg bundle) trace (.ok r))
    (hplaced : placed r.outcome = true) :
    ∃ content releaseDir, verifyBundle P bundle cfg.targetSha = .ok [(productionComposeFile, content)] ∧
      resolveReleasePath cfg.deployRoot cfg.targetSha = some releaseDir ∧
      ReadBack cfg (releaseDir ++ "/" ++ productionComposeFile) content trace := by
  rcases runs_stage.mp h with ⟨_, -, -, habsurd⟩ | ⟨failure, hverified, -, hresult⟩ |
    ⟨content, hverified, hcontent⟩
  · cases habsurd
  · cases hresult
    rcases refused_of_verifiedCompose hverified with rfl | rfl <;> cases hplaced
  · obtain ⟨hverify, hcompose⟩ := verifiedCompose_eq_content.mp hverified
    unfold stageContent at hcontent
    split at hcontent
    · obtain ⟨-, hresult⟩ := Interaction.runs_pure.mp hcontent
      cases hresult
      cases hplaced
    · rename_i releaseDir hpath
      refine ⟨content, releaseDir, hverify, hpath, ?_⟩
      rw [← hcompose]
      obtain ⟨failure, first, second, hfirst, hsecond, rfl⟩ := Interaction.runs_bind_ok.mp hcontent
      cases failure with
      | some failure =>
        obtain ⟨-, hresult⟩ := Interaction.runs_pure.mp hsecond
        cases hresult
        have hfailure : placed failure = true := hplaced
        rw [preflight_failure hfirst] at hfailure
        cases hfailure
      | none =>
        obtain ⟨before, answer, rfl, hdigest⟩ := place_reports hsecond hplaced
        exact ⟨first ++ before, answer, (List.append_assoc _ _ _).symm, hdigest⟩

/-! ## Failing closed -/

/-- What is expected of an archive and a commit: what verifies has names of the listed characters only,
    and the contents that a manifest for the commit declares; nothing but `BundleError` is raised; and a
    run for the commit returns, without a command where the one file is not what verifies. -/
structure FailsClosed (P : Libraries) (archive : Bytes) (sha : String) : Prop where
  names : ∀ files, verifyBundle P archive sha = .ok files →
    ∀ file ∈ files, OnlyListed nameCharacter file.1
  declared : ∀ files, verifyBundle P archive sha = .ok files → Verifies P archive sha files
  raises : ∀ failure, verifyBundle P archive sha = .error failure → failure = .bundleError
  returns : ∀ (cfg : StageConfig) (trace : List CommandRun)
    (outcome : Except BundleFailure StageResult), cfg.targetSha = sha →
    Interaction.Runs (stage P cfg archive) trace outcome → ∃ r, outcome = .ok r
  untouched : ∀ (cfg : StageConfig) (trace : List CommandRun)
    (outcome : Except BundleFailure StageResult), cfg.targetSha = sha →
    (∀ content, verifyBundle P archive sha ≠ .ok [(productionComposeFile, content)]) →
    Interaction.Runs (stage P cfg archive) trace outcome → trace = [] ∧
      ∃ r, outcome = .ok r ∧ (r.outcome = .bundleInvalid ∨ r.outcome = .bundleUnexpectedContent)

/-- **Verification fails closed iff** the archive, its members, the text of the manifest and its value
    raise nothing of their own, and no name of a bundle that verifies ends in a newline. -/
theorem fails_closed_iff (P : Libraries) (archive : Bytes) (sha : String) :
    FailsClosed P archive sha ↔ (∀ failure, ¬ VerifyRaises P archive failure) ∧
      ¬ ∃ files, Verifies P archive sha files ∧ ∃ file ∈ files, EndsInNewline file.1 := by
  constructor
  · intro h
    constructor
    · intro failure hraises
      have hverify : verifyBundle P archive sha = .error failure :=
        (verifyBundle_eq_error hraises.ne_bundleError).mpr hraises
      exact hraises.ne_bundleError (h.raises failure hverify)
    · rintro ⟨files, hverifies, file, hfile, hnewline⟩
      have hlisted := h.names files (verifyBundle_eq_ok.mpr hverifies) file hfile
      exact (onlyListed_of_safeName (hverifies.safeName file hfile)).mp hlisted hnewline
  · rintro ⟨hraises, hnewline⟩
    -- nothing but `BundleError` is raised, so the verification of a content never is
    have hbundleError (failure : BundleFailure)
        (hverify : verifyBundle P archive sha = .error failure) : failure = .bundleError := by
      by_contra hfailure
      exact hraises failure ((verifyBundle_eq_error hfailure).mp hverify)
    have hcaught (cfg : StageConfig) (hsha : cfg.targetSha = sha) (failure : BundleFailure) :
        verifiedCompose P archive cfg ≠ .error failure := by
      intro hverified
      obtain ⟨hverify, hfailure⟩ := verifiedCompose_eq_error.mp hverified
      rw [hsha] at hverify
      exact hfailure (hbundleError failure hverify)
    refine ⟨?_, fun files => verifyBundle_eq_ok.mp, hbundleError, ?_, ?_⟩
    · intro files hverify file hfile
      have hverifies := verifyBundle_eq_ok.mp hverify
      refine (onlyListed_of_safeName (hverifies.safeName file hfile)).mpr fun hends => ?_
      exact hnewline ⟨files, hverifies, file, hfile, hends⟩
    · intro cfg trace outcome hsha hruns
      rcases runs_stage.mp hruns with ⟨failure, hverified, -, -⟩ | ⟨failure, -, -, rfl⟩ |
        ⟨content, -, hcontent⟩
      · exact absurd hverified (hcaught cfg hsha failure)
      · exact ⟨_, rfl⟩
      · exact (returns_stageContent trace outcome hcontent).mpr fun _ _ => id
    · intro cfg trace outcome hsha hother hruns
      rcases runs_stage.mp hruns with ⟨failure, hverified, -, -⟩ | ⟨failure, hverified, rfl, rfl⟩ |
        ⟨content, hverified, -⟩
      · exact absurd hverified (hcaught cfg hsha failure)
      · exact ⟨rfl, _, rfl, refused_of_verifiedCompose hverified⟩
      · have hverify := (verifiedCompose_eq_content.mp hverified).1
        rw [hsha] at hverify
        exact absurd hverify (hother content)

/-- The libraries as they meet no bytes at all: `tarfile` raises `ReadError`. -/
def emptyInput : Libraries where
  getmembers _ := .error .tarError
  addfiles _ := []
  loads _ := none
  dumps _ := ""

/-- The error of an archive that cannot be read is not a `BundleError`, and a run for it raises. -/
theorem read_error_raised :
    ¬ ∀ (P : Libraries) (archive : Bytes) (sha : String), FailsClosed P archive sha := by
  intro hall
  have hraised : verifyBundle emptyInput [] "" = .error (.archive .tarError) := rfl
  cases (hall emptyInput [] "").raises _ hraised

end ApexScan.Deploy.Stage
