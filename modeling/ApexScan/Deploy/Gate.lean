import ApexScan.Deploy.Transport

/-!
# What comes before the first update

The first update of a deployment follows a valid request and a check of everything it needs: the
preflight, the rollback target and the pull of the image.

* `SplitsAt` — the first update of a trace; `updates` — all of them.
* `NoUp` — a program that issues no update; `noUp_preMutationGate`.
* `GateAnswers`, `gateEvents`, `GatePassed` — the requests of the checks, with answers that pass.

`runs_preMutationGate`: a gate that lets a deployment through has passed every check.
-/

set_option autoImplicit false

namespace ApexScan.Deploy

open Lib

/-! ## Updates in a trace -/

/-- The Compose update of the backend. -/
def updateCommand (cfg : DeployConfig) (path image : String) : List String :=
  composeIn cfg path image ++ upArguments

/-- The request is a Compose update. -/
def Request.isUp : Request → Bool
  | .run command => upArguments.isSuffixOf command
  | _ => false

/-- The updates of a trace, in order. -/
def updates (trace : List Event) : List Request :=
  (trace.filter fun e => e.request.isUp).map (·.request)

/-- `x` is the first update of the trace. -/
structure SplitsAt (trace before : List Event) (x : Event) (rest : List Event) : Prop where
  split : trace = before ++ x :: rest
  up : x.request.isUp = true
  first : ∀ e ∈ before, e.request.isUp = false

theorem SplitsAt.unique {trace before before' rest rest' : List Event} {x x' : Event}
    (h : SplitsAt trace before x rest) (h' : SplitsAt trace before' x' rest') :
    before = before' ∧ x = x' ∧ rest = rest' := by
  refine first_split (p := fun e => e.request.isUp = true) (h.split.symm.trans h'.split) h.up h'.up
    ?_ ?_
  · intro e he hup
    rw [h.first e he] at hup
    cases hup
  · intro e he hup
    rw [h'.first e he] at hup
    cases hup

/-- A trace with an update has a first one. -/
theorem exists_splitsAt {trace : List Event} (h : updates trace ≠ []) :
    ∃ before x rest, SplitsAt trace before x rest := by
  induction trace with
  | nil => exact absurd rfl h
  | cons e trace ih =>
    cases he : e.request.isUp with
    | true => exact ⟨[], e, trace, rfl, he, by simp⟩
    | false =>
      rw [updates, List.filter_cons_of_neg (by simp [he])] at h
      obtain ⟨before, x, rest, hsplit⟩ := ih h
      refine ⟨e :: before, x, rest, by rw [hsplit.split]; rfl, hsplit.up, ?_⟩
      intro y hy
      rcases List.mem_cons.mp hy with rfl | hy
      · exact he
      · exact hsplit.first y hy

theorem isUp_updateCommand (cfg : DeployConfig) (path image : String) :
    (Request.run (updateCommand cfg path image)).isUp = true :=
  List.isSuffixOf_iff_suffix.mpr (List.suffix_append _ _)

/-- A command with another last argument but one is no update. -/
theorem isUp_of_ne (front : List String) {b c : String} (h : b ≠ "--no-build") :
    (Request.run (front ++ [b, c])).isUp = false := by
  have hne : ("--no-build" == b) = false := by simpa using h.symm
  simp [Request.isUp, List.isSuffixOf, upArguments, List.isPrefixOf, hne]

theorem isUp_priv (cfg : DeployConfig) (front : List String) {b c : String} (h : b ≠ "--no-build") :
    (Request.run (priv cfg (front ++ [b, c]))).isUp = false := by
  rw [priv, ← List.append_assoc]
  exact isUp_of_ne _ h

/-! ## Before the first update -/

/-- The program issues no update. -/
abbrev NoUp {α : Type} (p : Action α) : Prop := Interaction.Asks (fun q => q.isUp = false) p

theorem noUp_pure {α : Type} (a : α) : NoUp (pure a : Action α) := Interaction.asks_done _

theorem noUp_ofExcept {α : Type} (a : Except PyError α) : NoUp (Interaction.ofExcept a) :=
  Interaction.asks_done _

/-- A check that is no update, with what follows when it passes. -/
theorem noUp_check {command : List String} {failure : ExecResult → Option TransportOutcome}
    {next : ExecResult → Action (Option TransportOutcome)}
    (hcommand : (Request.run command).isUp = false) (hnext : ∀ r, NoUp (next r)) :
    NoUp (do
      let r ← executorRun command
      if (!r.ok) = true then return failure r else next r) := by
  refine Interaction.asks_bind (Interaction.asks_request hcommand) fun r => ?_
  split
  · exact noUp_pure _
  · exact hnext r

variable {u : UnicodeData} {cfg : DeployConfig}

theorem noUp_privilegeOk : NoUp (privilegeOk cfg) := by
  unfold privilegeOk
  split
  · exact noUp_pure _
  · exact Interaction.asks_bind
      (Interaction.asks_request (isUp_of_ne ["sudo"] (by decide))) fun _ => noUp_pure _

theorem noUp_preflight : NoUp (preflight u cfg) := by
  refine noUp_check (by decide) fun reachable => ?_
  refine Interaction.asks_bind noUp_privilegeOk fun privileged => ?_
  split
  · exact noUp_pure _
  refine Interaction.asks_bind (noUp_ofExcept _) fun path => ?_
  refine noUp_check (isUp_priv cfg ["test"] (by decide)) fun directory => ?_
  refine noUp_check (isUp_priv cfg [] (by decide)) fun docker => ?_
  refine noUp_check (isUp_priv cfg ["docker", "compose"] (by decide)) fun version => ?_
  refine Interaction.asks_bind (noUp_ofExcept _) fun supported => ?_
  split
  · exact noUp_pure _
  refine Interaction.asks_bind (noUp_ofExcept _) fun command => ?_
  exact noUp_check (isUp_of_ne _ (by decide)) fun config => noUp_pure _

theorem noUp_runningDigest : NoUp (runningDigest cfg) := by
  refine Interaction.asks_bind (noUp_ofExcept _) fun command => ?_
  refine Interaction.asks_bind (Interaction.asks_request ?_) fun _ => noUp_pure _
  rw [psArguments, show ["ps", "--format", "\x7b\x7b.Image\x7d\x7d", "backend"] =
    ["ps", "--format"] ++ ["\x7b\x7b.Image\x7d\x7d", "backend"] from rfl, ← List.append_assoc]
  exact isUp_of_ne _ (by decide)

theorem noUp_resolveRollback : NoUp (resolveRollback cfg) := by
  refine Interaction.asks_bind (Interaction.asks_request rfl) fun answer => ?_
  refine Interaction.asks_bind (noUp_ofExcept _) fun probed => ?_
  obtain ⟨responded, buildSha⟩ := probed
  dsimp only
  split
  · exact noUp_pure _
  refine Interaction.asks_bind noUp_runningDigest fun digest => ?_
  split
  · exact noUp_pure _
  · split
    · exact noUp_pure _
    · exact noUp_pure _

theorem noUp_pull (image : String) : NoUp (pull cfg image) :=
  Interaction.asks_bind (Interaction.asks_request (isUp_priv cfg ["docker"] (by decide)))
    fun _ => noUp_pure _

theorem noUp_preMutationGate : NoUp (preMutationGate u cfg) := by
  unfold preMutationGate
  split
  · exact noUp_pure _
  refine Interaction.asks_bind noUp_preflight fun failure => ?_
  split
  · exact noUp_pure _
  refine Interaction.asks_bind noUp_resolveRollback fun resolved => ?_
  split
  · exact noUp_pure _
  refine Interaction.asks_bind (noUp_pull _) fun pulled => ?_
  split
  · exact noUp_pure _
  · exact noUp_pure _

/-! ## Checks that pass -/

/-- The answers before the first update. -/
structure GateAnswers where
  startedAt : ℚ
  reachable : ExecResult
  privileged : ExecResult
  directory : ExecResult
  docker : ExecResult
  version : ExecResult
  config : ExecResult
  buildSha : Option String
  running : ExecResult
  pulled : ExecResult

/-- The requests of the checks: the clock, the preflight, the rollback target and the pull. -/
def gateEvents (cfg : DeployConfig) (path : String) (a : GateAnswers) : List Event :=
  [⟨.now, a.startedAt⟩, ⟨.run ["true"], a.reachable⟩] ++
    (match cfg.dockerPrivilege with
      | .direct => []
      | .sudoNonInteractive => [⟨.run ["sudo", "-n", "true"], a.privileged⟩]) ++
    [⟨.run (priv cfg ["test", "-d", path]), a.directory⟩,
      ⟨.run (priv cfg ["docker", "info"]), a.docker⟩,
      ⟨.run (priv cfg ["docker", "compose", "version", "--short"]), a.version⟩,
      ⟨.run (composeIn cfg path cfg.targetImage ++ ["config", "-q"]), a.config⟩,
      ⟨.probeVersion, .ok (true, a.buildSha)⟩,
      ⟨.run (composeIn cfg path cfg.targetImage ++ psArguments), a.running⟩,
      ⟨.run (priv cfg ["docker", "pull", cfg.targetImage]), a.pulled⟩]

/-- The answers pass every check, and give the rollback target. -/
structure GateAnswers.Passed (u : UnicodeData) (cfg : DeployConfig) (a : GateAnswers)
    (target : RollbackTarget) : Prop where
  reachable : a.reachable.ok = true
  privileged : cfg.dockerPrivilege = .sudoNonInteractive → a.privileged.ok = true
  directory : a.directory.ok = true
  docker : a.docker.ok = true
  version : a.version.ok = true
  supported : composeVersionOk u a.version.stdout = .ok true
  config : a.config.ok = true
  target : selectRollbackTarget a.buildSha (digestOf a.running) cfg.legacyArtifact true = some target
  pulled : a.pulled.ok = true

/-- What comes before an update: a valid request, and every check with an answer that passes. -/
structure GatePassed (u : UnicodeData) (cfg : DeployConfig) (path : String) (target : RollbackTarget)
    (before : List Event) : Prop where
  valid : validate cfg = none
  releasePath : cfg.releasePath = .ok path
  events : ∃ a : GateAnswers, a.Passed u cfg target ∧ before = gateEvents cfg path a

theorem releasePath_of_validate (h : validate cfg = none) : ∃ path, cfg.releasePath = .ok path := by
  unfold validate at h
  split at h
  · cases h
  split at h
  · cases h
  split at h
  · cases h
  split at h
  · cases h
  rename_i hsome
  rw [Option.isNone_iff_eq_none] at hsome
  obtain ⟨path, hpath⟩ := Option.ne_none_iff_exists'.mp hsome
  exact ⟨path, by rw [DeployConfig.releasePath, hpath]⟩

theorem compose_of_path {path : String} (h : cfg.releasePath = .ok path) (image : String) :
    compose cfg image = .ok (composeIn cfg path image) := by
  rw [compose, h]
  rfl

/-- A check that passes has run its command, and then what follows. -/
theorem runs_check {command : List String} {failure : ExecResult → TransportOutcome}
    {next : ExecResult → Action (Option TransportOutcome)} {trace : List Event}
    (h : Interaction.Runs (do
      let r ← executorRun command
      if (!r.ok) = true then return some (failure r) else next r) trace (.ok none)) :
    ∃ r rest, r.ok = true ∧ Interaction.Runs (next r) rest (.ok none) ∧
      trace = ⟨.run command, r⟩ :: rest := by
  obtain ⟨r, rest, hrest, rfl⟩ := Interaction.runs_bind_request.mp h
  split at hrest
  · obtain ⟨-, habsurd⟩ := Interaction.runs_pure.mp hrest
    cases habsurd
  · rename_i hok
    exact ⟨r, rest, by simpa using hok, hrest, rfl⟩

theorem runs_bind_ofExcept {α β : Type} {a : α} {next : α → Action β} {trace : List Event}
    {outcome : Except PyError β} :
    Interaction.Runs (Interaction.ofExcept (.ok a) >>= next) trace outcome ↔
      Interaction.Runs (next a) trace outcome := Iff.rfl

theorem runs_preflight {path : String} (hpath : cfg.releasePath = .ok path) {trace : List Event}
    (h : Interaction.Runs (preflight u cfg) trace (.ok none)) :
    ∃ reachable privileged directory docker version config : ExecResult,
      reachable.ok = true ∧ (cfg.dockerPrivilege = .sudoNonInteractive → privileged.ok = true) ∧
      directory.ok = true ∧ docker.ok = true ∧ version.ok = true ∧
      composeVersionOk u version.stdout = .ok true ∧ config.ok = true ∧
      trace = ([⟨.run ["true"], reachable⟩] : List Event) ++
        (match cfg.dockerPrivilege with
          | .direct => []
          | .sudoNonInteractive => [⟨.run ["sudo", "-n", "true"], privileged⟩]) ++
        [⟨.run (priv cfg ["test", "-d", path]), directory⟩,
          ⟨.run (priv cfg ["docker", "info"]), docker⟩,
          ⟨.run (priv cfg ["docker", "compose", "version", "--short"]), version⟩,
          ⟨.run (composeIn cfg path cfg.targetImage ++ ["config", "-q"]), config⟩] := by
  obtain ⟨reachable, rest₁, hreachable, h₁, rfl⟩ := runs_check h
  obtain ⟨privileged, first, rest₂, hfirst, h₂, rfl⟩ := Interaction.runs_bind_ok.mp h₁
  split at h₂
  · obtain ⟨-, habsurd⟩ := Interaction.runs_pure.mp h₂
    cases habsurd
  rename_i hprivileged
  simp only [Bool.not_eq_true', Bool.not_eq_false] at hprivileged
  rw [hpath, runs_bind_ofExcept] at h₂
  obtain ⟨directory, rest₃, hdirectory, h₃, rfl⟩ := runs_check h₂
  obtain ⟨docker, rest₄, hdocker, h₄, rfl⟩ := runs_check h₃
  obtain ⟨version, rest₅, hversion, h₅, rfl⟩ := runs_check h₄
  obtain ⟨supported, none₁, rest₆, hsupported, h₆, rfl⟩ := Interaction.runs_bind_ok.mp h₅
  obtain ⟨rfl, hresult⟩ := Interaction.runs_ofExcept.mp hsupported
  split at h₆
  · obtain ⟨-, habsurd⟩ := Interaction.runs_pure.mp h₆
    cases habsurd
  rename_i hyes
  rw [compose_of_path hpath, runs_bind_ofExcept] at h₆
  obtain ⟨config, rest₇, hconfig, h₇, rfl⟩ := @runs_check _
    (fun _ => .composeConfigInvalid) (fun _ => pure none) _ h₆
  obtain ⟨rfl, -⟩ := Interaction.runs_pure.mp h₇
  have hsupported' : composeVersionOk u version.stdout = .ok true := by
    cases supported with
    | false => exact absurd rfl hyes
    | true => exact hresult.symm
  unfold privilegeOk at hfirst
  cases hmode : cfg.dockerPrivilege with
  | direct =>
    rw [hmode] at hfirst
    obtain ⟨rfl, -⟩ := Interaction.runs_pure.mp hfirst
    exact ⟨reachable, reachable, directory, docker, version, config, hreachable,
      (by rintro ⟨⟩), hdirectory, hdocker, hversion, hsupported', hconfig, rfl⟩
  | sudoNonInteractive =>
    rw [hmode] at hfirst
    obtain ⟨allowed, rest, hrest, rfl⟩ := Interaction.runs_bind_request.mp hfirst
    obtain ⟨rfl, hallowed⟩ := Interaction.runs_pure.mp hrest
    cases hallowed
    exact ⟨reachable, allowed, directory, docker, version, config, hreachable,
      fun _ => hprivileged, hdirectory, hdocker, hversion, hsupported', hconfig, rfl⟩

theorem runs_runningDigest {path : String} (hpath : cfg.releasePath = .ok path) {trace : List Event}
    {outcome : Except PyError (Option String)} :
    Interaction.Runs (runningDigest cfg) trace outcome ↔
      ∃ r : ExecResult, trace = [⟨.run (composeIn cfg path cfg.targetImage ++ psArguments), r⟩] ∧
        outcome = .ok (digestOf r) := by
  rw [runningDigest, compose_of_path hpath, runs_bind_ofExcept]
  constructor
  · intro h
    obtain ⟨r, rest, hrest, rfl⟩ := Interaction.runs_bind_request.mp h
    obtain ⟨rfl, rfl⟩ := Interaction.runs_pure.mp hrest
    exact ⟨r, rfl, rfl⟩
  · rintro ⟨r, rfl, rfl⟩
    exact Interaction.runs_bind_request.mpr ⟨r, [], Interaction.runs_pure.mpr ⟨rfl, rfl⟩, rfl⟩

theorem runs_resolveRollback {path : String} (hpath : cfg.releasePath = .ok path)
    {trace : List Event} {target : Option RollbackTarget}
    (h : Interaction.Runs (resolveRollback cfg) trace (.ok (none, target))) :
    ∃ (buildSha : Option String) (running : ExecResult) (selected : RollbackTarget),
      target = some selected ∧
      selectRollbackTarget buildSha (digestOf running) cfg.legacyArtifact true = some selected ∧
      trace = [⟨.probeVersion, .ok (true, buildSha)⟩,
        ⟨.run (composeIn cfg path cfg.targetImage ++ psArguments), running⟩] := by
  obtain ⟨answer, rest₁, h₁, rfl⟩ := Interaction.runs_bind_request.mp h
  obtain ⟨⟨responded, buildSha⟩, none₁, rest₂, hanswer, h₂, rfl⟩ := Interaction.runs_bind_ok.mp h₁
  obtain ⟨rfl, hprobed⟩ := Interaction.runs_ofExcept.mp hanswer
  subst hprobed
  cases responded with
  | false =>
    obtain ⟨-, habsurd⟩ := Interaction.runs_pure.mp h₂
    cases habsurd
  | true =>
    obtain ⟨digest, first, rest₃, hdigest, h₃, rfl⟩ := Interaction.runs_bind_ok.mp h₂
    obtain ⟨running, rfl, hrunning⟩ := (runs_runningDigest hpath).mp hdigest
    cases hrunning
    cases hselect : selectRollbackTarget buildSha (digestOf running) cfg.legacyArtifact true with
    | some selected =>
      rw [hselect] at h₃
      obtain ⟨rfl, heq⟩ := Interaction.runs_pure.mp h₃
      cases heq
      exact ⟨buildSha, running, selected, rfl, hselect, rfl⟩
    | none =>
      rw [hselect] at h₃
      dsimp only at h₃
      split at h₃
      · obtain ⟨-, habsurd⟩ := Interaction.runs_pure.mp h₃
        cases habsurd
      · obtain ⟨-, habsurd⟩ := Interaction.runs_pure.mp h₃
        cases habsurd

theorem runs_pull {image : String} {trace : List Event} {outcome : Except PyError Bool} :
    Interaction.Runs (pull cfg image) trace outcome ↔
      ∃ r : ExecResult, trace = [⟨.run (priv cfg ["docker", "pull", image]), r⟩] ∧
        outcome = .ok r.ok := by
  constructor
  · intro h
    obtain ⟨r, rest, hrest, rfl⟩ := Interaction.runs_bind_request.mp h
    obtain ⟨rfl, rfl⟩ := Interaction.runs_pure.mp hrest
    exact ⟨r, rfl, rfl⟩
  · rintro ⟨r, rfl, rfl⟩
    exact Interaction.runs_bind_request.mpr ⟨r, [], Interaction.runs_pure.mpr ⟨rfl, rfl⟩, rfl⟩

/-- A gate that lets a deployment through has passed every check. -/
theorem runs_preMutationGate {trace : List Event} {target : Option RollbackTarget} {startedAt : ℚ}
    (h : Interaction.Runs (preMutationGate u cfg) trace (.ok (none, target))) :
    ∃ path selected, target = some selected ∧
      GatePassed u cfg path selected (⟨.now, startedAt⟩ :: trace) := by
  unfold preMutationGate at h
  cases hvalid : validate cfg with
  | some invalid =>
    rw [hvalid] at h
    obtain ⟨-, habsurd⟩ := Interaction.runs_pure.mp h
    cases habsurd
  | none =>
    rw [hvalid] at h
    obtain ⟨path, hpath⟩ := releasePath_of_validate hvalid
    obtain ⟨failure, first, rest₁, hfirst, h₁, rfl⟩ := Interaction.runs_bind_ok.mp h
    cases failure with
    | some failure =>
      obtain ⟨-, habsurd⟩ := Interaction.runs_pure.mp h₁
      cases habsurd
    | none =>
      obtain ⟨⟨failure, resolved⟩, second, rest₂, hsecond, h₂, rfl⟩ := Interaction.runs_bind_ok.mp h₁
      cases failure with
      | some failure =>
        obtain ⟨-, habsurd⟩ := Interaction.runs_pure.mp h₂
        cases habsurd
      | none =>
        obtain ⟨pulled, third, rest₃, hthird, h₃, rfl⟩ := Interaction.runs_bind_ok.mp h₂
        obtain ⟨r, rfl, hpulled⟩ := runs_pull.mp hthird
        cases hpulled
        cases hok : r.ok with
        | false =>
          rw [hok] at h₃
          obtain ⟨-, habsurd⟩ := Interaction.runs_pure.mp h₃
          cases habsurd
        | true =>
          rw [hok] at h₃
          obtain ⟨rfl, htarget⟩ := Interaction.runs_pure.mp h₃
          cases htarget
          obtain ⟨buildSha, running, selected, rfl, hselect, rfl⟩ :=
            runs_resolveRollback hpath hsecond
          obtain ⟨reachable, privileged, directory, docker, version, config, hreachable, hprivileged,
            hdirectory, hdocker, hversion, hsupported, hconfig, rfl⟩ := runs_preflight hpath hfirst
          refine ⟨path, selected, rfl, hvalid, hpath, ⟨startedAt, reachable, privileged, directory,
            docker, version, config, buildSha, running, r⟩, ?_, ?_⟩
          · exact ⟨hreachable, hprivileged, hdirectory, hdocker, hversion, hsupported, hconfig,
              hselect, hok⟩
          · simp [gateEvents]

end ApexScan.Deploy
