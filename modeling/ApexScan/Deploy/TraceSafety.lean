import ApexScan.Deploy.Gate

/-!
# The trace of a deployment

What a deployment asks of its environment, for every environment: which commands come before the first
update, which updates there are, and how a run that has issued one ends.

* `Recovered`, `RollbackRun` — what the rollback does, and when it returns.
* `Concluded`, `PromotionRun` — the outcome of the audit, by what the verifications were answered.
* `Safe` — what is to hold of a run; `NothingEscapes` — the environments in which it does.

Main result: `deploy_safe_iff`.  `truncated_body_skips_rollback` is a run in which the new backend breaks
off the body of a response.
-/

set_option autoImplicit false

namespace ApexScan.Deploy

open Lib

variable {u : UnicodeData} {cfg : DeployConfig}

/-! ## After the first update -/

theorem runs_audit {target : Option RollbackTarget} {startedAt : ℚ} {result : TransportOutcome}
    {verification : String} {attempted : Bool} {text : Option String} {trace : List Event}
    {outcome : Except PyError DeploymentAudit}
    (h : Interaction.Runs (audit cfg target startedAt result verification attempted text) trace
      outcome) :
    ∃ (completedAt : ℚ) (a : DeploymentAudit), trace = [⟨.now, completedAt⟩] ∧ outcome = .ok a ∧
      a.outcome = result := by
  obtain ⟨completedAt, rest, hrest, rfl⟩ := Interaction.runs_bind_request.mp h
  obtain ⟨rfl, rfl⟩ := Interaction.runs_pure.mp hrest
  exact ⟨completedAt, _, rfl, rfl, rfl⟩

/-- The command has succeeded. -/
def Succeeded : Event → Prop
  | ⟨.run _, r⟩ => r.ok = true
  | _ => False

/-- The requests of a verification at the start of a trace. -/
def verification (trace : List Event) : List Event := trace.takeWhile fun e => e.request.isProbe

theorem verification_append {probes rest : List Event} {e : Event}
    (hprobes : ∀ x ∈ probes, x.request.isProbe = true) (he : e.request.isProbe = false) :
    verification (probes ++ e :: rest) = probes := by
  rw [verification, List.takeWhile_append_of_pos hprobes, List.takeWhile_cons_of_neg (by simp [he]),
    List.append_nil]

theorem updates_of_noUp {trace : List Event} (h : ∀ e ∈ trace, e.request.isUp = false) :
    updates trace = [] := by
  have hnone : (trace.filter fun e => e.request.isUp) = [] :=
    List.filter_eq_nil_iff.mpr fun e he => by simp [h e he]
  rw [updates, hnone, List.map_nil]

theorem updates_append (first second : List Event) :
    updates (first ++ second) = updates first ++ updates second := by
  rw [updates, List.filter_append, List.map_append]
  rfl

theorem updates_cons_up {e : Event} (he : e.request.isUp = true) (rest : List Event) :
    updates (e :: rest) = e.request :: updates rest := by
  simp [updates, he]

theorem updates_cons_of_noUp {e : Event} (he : e.request.isUp = false) (rest : List Event) :
    updates (e :: rest) = updates rest := by
  simp [updates, he]

theorem isUp_of_isProbe {e : Event} (h : e.request.isProbe = true) : e.request.isUp = false := by
  obtain ⟨request, answer⟩ := e
  cases request with
  | get url timeout => rfl
  | sleep seconds => rfl
  | run command => cases h
  | probeVersion => cases h
  | now => cases h

section Rollback

variable {path baseUrl : String} {attempts : Int} {interval timeout legacyTimeout startedAt : ℚ}
  {target : RollbackTarget}

theorem audit_raisesBy (previous : Option RollbackTarget) (result : TransportOutcome)
    (text : String) (attempted : Bool) (detail : Option String) :
    Interaction.RaisesBy Escapes (audit cfg previous startedAt result text attempted detail) :=
  Interaction.raisesBy_bind (Interaction.raisesBy_request fun _ => id) fun _ =>
    Interaction.raisesBy_pure _

theorem runningDigest_raisesBy (hpath : cfg.releasePath = .ok path) :
    Interaction.RaisesBy Escapes (runningDigest cfg) := by
  intro trace outcome h
  obtain ⟨r, rfl, rfl⟩ := (runs_runningDigest hpath).mp h
  simp [Escapes]

theorem buildLegacyVerifier_raisesBy (hpath : cfg.releasePath = .ok path) (digest : String) :
    Interaction.RaisesBy Escapes (buildLegacyVerifier cfg legacyTimeout digest) :=
  Interaction.raisesBy_bind (probeEndpoints_raisesBy _ _) fun _ =>
    Interaction.raisesBy_bind (runningDigest_raisesBy hpath) fun _ => Interaction.raisesBy_pure _

/-- The legacy verification after an update: health, startup and readiness answer with an object, and
    the running image is the digest. -/
def LegacyVerified (cfg : DeployConfig) (path : String) (timeout : ℚ) (digest : String)
    (trace : List Event) : Prop :=
  ∃ (startup health ready version : Except PyError HttpResponse) (running : ExecResult)
    (completedAt : ℚ),
    trace = attemptEvents (rootOf cfg.baseUrl) timeout startup health ready version ++
      [⟨.run (composeIn cfg path cfg.targetImage ++ psArguments), running⟩, ⟨.now, completedAt⟩] ∧
    (∃ members, jsonOf startup = .ok (some members)) ∧
    (∃ members, jsonOf health = .ok (some members)) ∧
    (∃ members, jsonOf ready = .ok (some members)) ∧ digestOf running = some digest

/-- The audit of a rollback: its outcome, and what was verified where it is a success. -/
structure Recovered (u : UnicodeData) (cfg : DeployConfig) (path baseUrl : String)
    (timeout legacyTimeout : ℚ) (target : RollbackTarget) (trace : List Event)
    (result : TransportOutcome) : Prop where
  terminal : result ∈ [TransportOutcome.rolledBack, .legacyRolledBack, .rollbackFailed,
    .rollbackRequiresOperatorIntervention]
  rolledBack : result = .rolledBack → target.legacy = false ∧ ∃ (before later : List Event)
    (r : ExecResult), trace = before ++ ⟨.run (updateCommand cfg path target.imageDigest), r⟩ :: later ∧
      r.ok = true ∧ Verified u (rootOf baseUrl) timeout target.sourceSha (verification later)
  legacyRolledBack : result = .legacyRolledBack → target.legacy = true ∧ ∃ (before later : List Event)
    (r : ExecResult), trace = before ++ ⟨.run (updateCommand cfg path target.imageDigest), r⟩ :: later ∧
      r.ok = true ∧ LegacyVerified cfg path legacyTimeout target.imageDigest later

/-- A rollback that has not verified anything. -/
theorem recovered_failed {trace : List Event} {result : TransportOutcome}
    (h : result ∈ [TransportOutcome.rollbackFailed, .rollbackRequiresOperatorIntervention]) :
    Recovered u cfg path baseUrl timeout legacyTimeout target trace result := by
  simp only [List.mem_cons, List.not_mem_nil, or_false] at h
  rcases h with rfl | rfl
  · exact ⟨by decide, by rintro ⟨⟩, by rintro ⟨⟩⟩
  · exact ⟨by decide, by rintro ⟨⟩, by rintro ⟨⟩⟩

/-- What a run of the rollback may be. -/
structure RollbackRun (u : UnicodeData) (cfg : DeployConfig) (path baseUrl : String) (attempts : Int)
    (timeout legacyTimeout : ℚ) (target : RollbackTarget) (trace : List Event)
    (outcome : Except PyError DeploymentAudit) : Prop where
  starts : ∃ e rest, trace = e :: rest ∧ e.request.isProbe = false
  updates : updates trace = [] ∨ updates trace = [.run (updateCommand cfg path target.imageDigest)]
  recovered : ∀ a, outcome = .ok a →
    Recovered u cfg path baseUrl timeout legacyTimeout target trace a.outcome
  returns : (∃ a, outcome = .ok a) ↔ (∀ e ∈ trace, ¬ Escapes e) ∧
    (1 ≤ attempts ∨ target.legacy = true ∨ ∀ e ∈ trace, e.request.isUp = true → ¬ Succeeded e)

theorem updateBackend_bind {α : Type} (hpath : cfg.releasePath = .ok path) (image : String)
    (next : Bool → Action α) :
    updateBackend cfg image >>= next =
      Interaction.request (Request.run (updateCommand cfg path image)) >>= fun r =>
        next (ExecResult.ok r) := by
  rw [updateBackend, compose_of_path hpath]
  rfl

/-- A rollback that ends without a verification returns. -/
theorem rollbackRun_failed {trace : List Event} {a : DeploymentAudit}
    (hstarts : ∃ e rest, trace = e :: rest ∧ e.request.isProbe = false)
    (hupdates : updates trace = [] ∨ updates trace = [.run (updateCommand cfg path target.imageDigest)])
    (hresult : a.outcome ∈ [TransportOutcome.rollbackFailed, .rollbackRequiresOperatorIntervention])
    (hquiet : ∀ e ∈ trace, ¬ Escapes e)
    (hup : ∀ e ∈ trace, e.request.isUp = true → ¬ Succeeded e) :
    RollbackRun u cfg path baseUrl attempts timeout legacyTimeout target trace (.ok a) := by
  refine ⟨hstarts, hupdates, ?_, ?_⟩
  · rintro _ ⟨⟩
    exact recovered_failed hresult
  · exact ⟨fun _ => ⟨hquiet, Or.inr (Or.inr hup)⟩, fun _ => ⟨a, rfl⟩⟩

theorem noUp_audit (previous : Option RollbackTarget) (result : TransportOutcome) (text : String)
    (attempted : Bool) (detail : Option String) :
    NoUp (audit cfg previous startedAt result text attempted detail) :=
  Interaction.asks_bind (Interaction.asks_request rfl) fun _ => noUp_pure _

/-- The audit of a verification, of either result. -/
theorem noUp_auditOr (verified : Prop) [Decidable verified] (previous : Option RollbackTarget)
    (result otherwise : TransportOutcome) (text : String) (detail other : Option String) :
    NoUp (if verified then audit cfg previous startedAt result text true detail
      else audit cfg previous startedAt otherwise text true other) := by
  split
  · exact noUp_audit _ _ _ _ _
  · exact noUp_audit _ _ _ _ _

theorem auditOr_raisesBy (verified : Prop) [Decidable verified] (previous : Option RollbackTarget)
    (result otherwise : TransportOutcome) (text : String) (detail other : Option String) :
    Interaction.RaisesBy Escapes
      (if verified then audit cfg previous startedAt result text true detail
        else audit cfg previous startedAt otherwise text true other) := by
  split
  · exact audit_raisesBy _ _ _ _ _
  · exact audit_raisesBy _ _ _ _ _

/-- A second update, and a verification of it that raises by what escapes. -/
theorem rollbackRun_updated {r : ExecResult} {pulled : Event} {rest : List Event}
    {outcome : Except PyError DeploymentAudit} (hpulled : pulled.request.isUp = false)
    (hquiet : ¬ Escapes pulled) (hprobe : pulled.request.isProbe = false)
    (hrest : ∀ e ∈ rest, e.request.isUp = false)
    (hrecovered : ∀ a, outcome = .ok a → Recovered u cfg path baseUrl timeout legacyTimeout target
      (pulled :: ⟨.run (updateCommand cfg path target.imageDigest), r⟩ :: rest) a.outcome)
    (hreturns : (∃ a, outcome = .ok a) ↔ ∀ e ∈ rest, ¬ Escapes e)
    (hverified : 1 ≤ attempts ∨ target.legacy = true) :
    RollbackRun u cfg path baseUrl attempts timeout legacyTimeout target
      (pulled :: ⟨.run (updateCommand cfg path target.imageDigest), r⟩ :: rest) outcome := by
  refine ⟨⟨_, _, rfl, hprobe⟩, Or.inr ?_, hrecovered, ?_⟩
  · rw [updates_cons_of_noUp hpulled, updates_cons_up (isUp_updateCommand _ _ _),
      updates_of_noUp hrest]
  · rw [hreturns]
    constructor
    · intro hall
      refine ⟨?_, hverified.imp_right Or.inl⟩
      intro e he
      rcases List.mem_cons.mp he with rfl | he
      · exact hquiet
      · rcases List.mem_cons.mp he with rfl | he
        · exact id
        · exact hall e he
    · rintro ⟨hall, -⟩ e he
      exact hall e (List.mem_cons_of_mem _ (List.mem_cons_of_mem _ he))

/-- The legacy verification of a target. -/
theorem runs_buildLegacyVerifier (hpath : cfg.releasePath = .ok path) {digest : String}
    {trace : List Event}
    (h : Interaction.Runs (buildLegacyVerifier cfg legacyTimeout digest) trace (.ok true))
    (completedAt : ℚ) : LegacyVerified cfg path legacyTimeout digest (trace ++ [⟨.now, completedAt⟩]) := by
  obtain ⟨probe, first, rest₁, hprobe, h₁, rfl⟩ := Interaction.runs_bind_ok.mp h
  obtain ⟨found, second, rest₂, hfound, h₂, rfl⟩ := Interaction.runs_bind_ok.mp h₁
  obtain ⟨rfl, hresult⟩ := Interaction.runs_pure.mp h₂
  obtain ⟨running, rfl, hrunning⟩ := (runs_runningDigest hpath).mp hfound
  cases hrunning
  obtain ⟨a, b, c, d, startup, health, ready, version, rfl, ha, hb, hc, -, rfl⟩ :=
    runs_probeEndpoints hprobe
  have hverified := (Except.ok.inj hresult).symm
  simp only [legacyRollbackVerified, Bool.and_eq_true, beq_iff_eq, observed] at hverified
  obtain ⟨⟨⟨⟨hsame, href⟩, hhealth⟩, hstartup⟩, hready⟩ := hverified
  obtain ⟨s, rfl⟩ := Option.isSome_iff_exists.mp hstartup
  obtain ⟨t, rfl⟩ := Option.isSome_iff_exists.mp hhealth
  obtain ⟨r, rfl⟩ := Option.isSome_iff_exists.mp hready
  refine ⟨a, b, c, d, running, completedAt, by simp, ⟨s, ha⟩, ⟨t, hb⟩, ⟨r, hc⟩, ?_⟩
  -- without a digest the text is empty, and that is no reference
  cases hdigest : digestOf running with
  | none =>
    rw [hdigest] at href
    exact absurd href (by decide)
  | some found =>
    rw [hdigest] at hsame
    rw [← hsame, Option.getD_some]

/-- The verification of an updated legacy target. -/
theorem runs_legacyRollback (hpath : cfg.releasePath = .ok path) (hlegacy : target.legacy = true)
    {reason : String} {r : ExecResult} (hok : r.ok = true) {pulled : Event} {rest : List Event}
    (hpulled : pulled.request.isUp = false) (hquiet : ¬ Escapes pulled)
    (hprobe : pulled.request.isProbe = false) {outcome : Except PyError DeploymentAudit}
    (h : Interaction.Runs (buildLegacyVerifier cfg legacyTimeout target.imageDigest >>= fun verified =>
      if verified then
        audit cfg (some target) startedAt .legacyRolledBack reason true (some "legacy_success")
      else audit cfg (some target) startedAt .rollbackFailed reason true
        (some "legacy_verification_failed")) rest outcome) :
    RollbackRun u cfg path baseUrl attempts timeout legacyTimeout target
      (pulled :: ⟨.run (updateCommand cfg path target.imageDigest), r⟩ :: rest) outcome := by
  refine rollbackRun_updated hpulled hquiet hprobe ?_ ?_ ?_ (Or.inr hlegacy)
  · have hasks : NoUp (buildLegacyVerifier cfg legacyTimeout target.imageDigest) := by
      refine Interaction.asks_bind ?_ fun _ =>
        Interaction.asks_bind noUp_runningDigest fun _ => noUp_pure _
      intro trace outcome hruns e he
      exact isUp_of_isProbe (probeEndpoints_asks _ _ _ _ hruns e he)
    exact Interaction.asks_bind hasks (fun verified => noUp_auditOr _ _ _ _ _ _ _) _ _ h
  · rintro a rfl
    obtain ⟨verified, first, second, hfirst, hsecond, rfl⟩ := Interaction.runs_bind_ok.mp h
    cases verified with
    | false =>
      obtain ⟨completedAt, a', rfl, heq, hresult⟩ := runs_audit hsecond
      cases heq
      exact recovered_failed (by rw [hresult]; decide)
    | true =>
      obtain ⟨completedAt, a', rfl, heq, hresult⟩ := runs_audit hsecond
      cases heq
      rw [hresult]
      refine ⟨by decide, by rintro ⟨⟩, fun _ => ⟨hlegacy, [pulled], _, r, rfl, hok, ?_⟩⟩
      exact runs_buildLegacyVerifier hpath hfirst completedAt
  · exact Interaction.raisesBy_bind (buildLegacyVerifier_raisesBy hpath _)
      (fun verified => auditOr_raisesBy _ _ _ _ _ _ _) _ _ h

/-- The verification of an updated target with a build. -/
theorem runs_modernRollback (hmodern : target.legacy = false)
    {reason : String} {r : ExecResult} (hok : r.ok = true) {pulled : Event} {rest : List Event}
    (hpulled : pulled.request.isUp = false) (hquiet : ¬ Escapes pulled)
    (hprobe : pulled.request.isProbe = false) {outcome : Except PyError DeploymentAudit}
    (h : Interaction.Runs (buildVerifier u baseUrl attempts interval timeout target.sourceSha >>=
      fun verified =>
      if verified.outcome = .success then
        audit cfg (some target) startedAt .rolledBack reason true (some "success")
      else audit cfg (some target) startedAt .rollbackFailed reason true
        (some verified.outcome.value)) rest outcome) :
    RollbackRun u cfg path baseUrl attempts timeout legacyTimeout target
      (pulled :: ⟨.run (updateCommand cfg path target.imageDigest), r⟩ :: rest) outcome := by
  by_cases hattempts : 1 ≤ attempts
  · refine rollbackRun_updated hpulled hquiet hprobe ?_ ?_ ?_ (Or.inl hattempts)
    · have hasks : NoUp (buildVerifier u baseUrl attempts interval timeout target.sourceSha) := by
        intro trace outcome hruns e he
        exact isUp_of_isProbe (verifyRelease_asks _ _ _ _ _ _ _ hruns e he)
      exact Interaction.asks_bind hasks (fun verified => noUp_auditOr _ _ _ _ _ _ _) _ _ h
    · rintro a rfl
      obtain ⟨verified, first, second, hfirst, hsecond, rfl⟩ := Interaction.runs_bind_ok.mp h
      have hprobes := verifyRelease_asks _ _ _ _ _ _ _ hfirst
      split at hsecond
      · rename_i hsuccess
        obtain ⟨completedAt, a', rfl, heq, hresult⟩ := runs_audit hsecond
        cases heq
        rw [hresult]
        refine ⟨by decide, fun _ => ⟨hmodern, [pulled], _, r, rfl, hok, ?_⟩, by rintro ⟨⟩⟩
        rw [verification_append hprobes rfl]
        exact (verifyRelease_success hfirst).mp hsuccess
      · obtain ⟨completedAt, a', rfl, heq, hresult⟩ := runs_audit hsecond
        cases heq
        exact recovered_failed (by rw [hresult]; decide)
    · exact Interaction.raisesBy_bind (verifyRelease_raisesBy _ _ _ _ hattempts)
        (fun verified => auditOr_raisesBy _ _ _ _ _ _ _) _ _ h
  · -- without an attempt the verification raises at once
    have hraise : buildVerifier u baseUrl attempts interval timeout target.sourceSha =
        Interaction.raise .valueError := by
      rw [buildVerifier, verifyRelease, if_pos (by omega)]
    rw [hraise] at h
    obtain ⟨rfl, rfl⟩ := Interaction.runs_raise.mp h
    refine ⟨⟨_, _, rfl, hprobe⟩, Or.inr ?_, by rintro a ⟨⟩, ?_⟩
    · rw [updates_cons_of_noUp hpulled, updates_cons_up (isUp_updateCommand _ _ _)]
      rfl
    · constructor
      · rintro ⟨a, ha⟩
        cases ha
      · rintro ⟨-, hlt | hlegacy | hup⟩
        · exact absurd hlt hattempts
        · rw [hmodern] at hlegacy
          cases hlegacy
        · exact absurd hok (hup ⟨.run (updateCommand cfg path target.imageDigest), r⟩ (by simp)
            (isUp_updateCommand _ _ _))

theorem runs_rollback (hpath : cfg.releasePath = .ok path)
    (hdigest : digestRef target.imageDigest = true) {reason : String} {trace : List Event}
    {outcome : Except PyError DeploymentAudit}
    (h : Interaction.Runs (rollback u cfg target (buildVerifier u baseUrl attempts interval timeout)
      (buildLegacyVerifier cfg legacyTimeout)
      fun result attempted detail => audit cfg (some target) startedAt result reason attempted detail)
      trace outcome) :
    RollbackRun u cfg path baseUrl attempts timeout legacyTimeout target trace outcome := by
  unfold rollback at h
  rw [planRollback_of_digestRef hdigest] at h
  cases hsafe : cfg.dhanRestartSafe with
  | false =>
    rw [hsafe] at h
    obtain ⟨completedAt, a, rfl, rfl, hresult⟩ := runs_audit h
    refine rollbackRun_failed ⟨_, _, rfl, rfl⟩ (Or.inl rfl) (by rw [hresult]; decide) ?_ ?_
    · simp [Escapes]
    · simp [Succeeded]
  | true =>
    rw [hsafe] at h
    have hpull : (Request.run (priv cfg ["docker", "pull", target.imageDigest])).isUp = false :=
      isUp_priv cfg ["docker"] (by decide)
    obtain ⟨pulled, rest₁, h₁, rfl⟩ := Interaction.runs_bind_request.mp h
    cases hpulled : ExecResult.ok pulled with
    | false =>
      rw [hpulled] at h₁
      obtain ⟨completedAt, a, rfl, rfl, hresult⟩ := runs_audit h₁
      refine rollbackRun_failed ⟨_, _, rfl, rfl⟩ (Or.inl ?_) (by rw [hresult]; decide) ?_ ?_
      · rw [updates_cons_of_noUp hpull]
        rfl
      · simp [Escapes]
      · intro e he hup
        simp only [List.mem_cons, List.not_mem_nil, or_false] at he
        rcases he with rfl | rfl
        · rw [hpull] at hup
          cases hup
        · cases hup
    | true =>
      rw [hpulled] at h₁
      simp only [Bool.not_true, Bool.false_eq_true, if_false] at h₁
      rw [updateBackend_bind hpath] at h₁
      obtain ⟨r, rest₂, h₂, rfl⟩ := Interaction.runs_bind_request.mp h₁
      cases hok : ExecResult.ok r with
      | false =>
        rw [hok] at h₂
        obtain ⟨completedAt, a, rfl, rfl, hresult⟩ := runs_audit h₂
        refine rollbackRun_failed ⟨_, _, rfl, rfl⟩ (Or.inr ?_) (by rw [hresult]; decide) ?_ ?_
        · rw [updates_cons_of_noUp hpull, updates_cons_up (isUp_updateCommand _ _ _)]
          rfl
        · simp [Escapes]
        · intro e he hup
          simp only [List.mem_cons, List.not_mem_nil, or_false] at he
          rcases he with rfl | rfl | rfl
          · rw [hpull] at hup
            cases hup
          · exact fun hsucceeded => Bool.false_ne_true (hok.symm.trans hsucceeded)
          · cases hup
      | true =>
        rw [hok] at h₂
        cases hlegacy : target.legacy with
        | true =>
          rw [hlegacy] at h₂
          exact runs_legacyRollback hpath hlegacy hok hpull id rfl h₂
        | false =>
          rw [hlegacy] at h₂
          exact runs_modernRollback hlegacy hok hpull id rfl h₂

/-- The audit of a run that has issued an update: a success exactly where the target was verified. -/
structure Concluded (u : UnicodeData) (cfg : DeployConfig) (path baseUrl : String)
    (timeout legacyTimeout : ℚ) (target : RollbackTarget) (updated : ExecResult) (rest : List Event)
    (result : TransportOutcome) : Prop where
  success : result = .success ↔ updated.ok = true ∧
    Verified u (rootOf baseUrl) timeout cfg.targetSha (verification rest)
  otherwise : result ≠ .success →
    Recovered u cfg path baseUrl timeout legacyTimeout target rest result

theorem Recovered.append {trace : List Event} {result : TransportOutcome}
    (h : Recovered u cfg path baseUrl timeout legacyTimeout target trace result)
    (front : List Event) :
    Recovered u cfg path baseUrl timeout legacyTimeout target (front ++ trace) result := by
  refine ⟨h.terminal, ?_, ?_⟩
  · intro hresult
    obtain ⟨hlegacy, before, later, r, rfl, hverified⟩ := h.rolledBack hresult
    exact ⟨hlegacy, front ++ before, later, r, (List.append_assoc _ _ _).symm, hverified⟩
  · intro hresult
    obtain ⟨hlegacy, before, later, r, rfl, hverified⟩ := h.legacyRolledBack hresult
    exact ⟨hlegacy, front ++ before, later, r, (List.append_assoc _ _ _).symm, hverified⟩

theorem Recovered.ne_success {trace : List Event} {result : TransportOutcome}
    (h : Recovered u cfg path baseUrl timeout legacyTimeout target trace result) :
    result ≠ .success := by
  rintro rfl
  exact absurd h.terminal (by decide)

/-- What a run may be after the first update. -/
structure PromotionRun (u : UnicodeData) (cfg : DeployConfig) (path baseUrl : String)
    (attempts : Int) (timeout legacyTimeout : ℚ) (target : RollbackTarget) (updated : ExecResult)
    (rest : List Event) (outcome : Except PyError DeploymentAudit) : Prop where
  updates : updates rest = [] ∨ updates rest = [.run (updateCommand cfg path target.imageDigest)]
  concluded : ∀ a, outcome = .ok a →
    Concluded u cfg path baseUrl timeout legacyTimeout target updated rest a.outcome
  returns : (∃ a, outcome = .ok a) ↔ (∀ e ∈ rest, ¬ Escapes e) ∧
    (1 ≤ attempts ∨ updated.ok = false ∧
      (target.legacy = true ∨ ∀ e ∈ rest, e.request.isUp = true → ¬ Succeeded e))

/-- A failed update or a failed verification, and then the rollback. -/
theorem promotionRun_rollback {updated : ExecResult} {probes rest : List Event}
    {outcome : Except PyError DeploymentAudit}
    (hprobes : ∀ e ∈ probes, e.request.isProbe = true) (hquiet : ∀ e ∈ probes, ¬ Escapes e)
    (hfailed : updated.ok = true → 1 ≤ attempts ∧
      ¬ Verified u (rootOf baseUrl) timeout cfg.targetSha probes)
    (h : RollbackRun u cfg path baseUrl attempts timeout legacyTimeout target rest outcome) :
    PromotionRun u cfg path baseUrl attempts timeout legacyTimeout target updated (probes ++ rest)
      outcome := by
  have hnoUp : ∀ e ∈ probes, e.request.isUp = false := fun e he => isUp_of_isProbe (hprobes e he)
  refine ⟨?_, ?_, ?_⟩
  · rw [updates_append, updates_of_noUp hnoUp, List.nil_append]
    exact h.updates
  · rintro a rfl
    have hrecovered := h.recovered a rfl
    refine ⟨?_, fun _ => hrecovered.append probes⟩
    obtain ⟨e, later, rfl, he⟩ := h.starts
    rw [verification_append hprobes he]
    constructor
    · intro hsuccess
      exact absurd hsuccess hrecovered.ne_success
    · rintro ⟨hok, hverified⟩
      exact absurd hverified (hfailed hok).2
  · rw [h.returns]
    have hsplit : ∀ P : Event → Prop, (∀ e ∈ probes, P e) →
        ((∀ e ∈ probes ++ rest, P e) ↔ ∀ e ∈ rest, P e) := by
      intro P hP
      rw [List.forall_mem_append]
      exact and_iff_right hP
    rw [hsplit _ hquiet, hsplit (fun e => e.request.isUp = true → ¬ Succeeded e)
      fun e he hup => by rw [hnoUp e he] at hup; cases hup]
    cases hok : updated.ok with
    | true => simp [(hfailed hok).1]
    | false => simp

/-- A verification that raises: without an attempt at once, else by what escapes. -/
theorem promotionRun_raised {updated : ExecResult} (hok : updated.ok = true) {probes : List Event}
    {e : PyError} (h : Interaction.Runs (buildVerifier u baseUrl attempts interval timeout cfg.targetSha)
      probes (.error e)) :
    PromotionRun u cfg path baseUrl attempts timeout legacyTimeout target updated probes (.error e) := by
  have hprobes := verifyRelease_asks _ _ _ _ _ _ _ h
  refine ⟨Or.inl (updates_of_noUp fun e he => isUp_of_isProbe (hprobes e he)), by rintro a ⟨⟩, ?_⟩
  constructor
  · rintro ⟨a, ha⟩
    cases ha
  · rintro ⟨hquiet, hattempts | ⟨habsurd, -⟩⟩
    · obtain ⟨result, hresult⟩ := (verifyRelease_raisesBy _ _ _ _ hattempts _ _ h).mpr hquiet
      cases hresult
    · rw [hok] at habsurd
      cases habsurd

/-- A verification that returns has been attempted, and nothing escaped. -/
theorem attempted_of_returned {probes : List Event} {result : VerifyResult}
    (h : Interaction.Runs (buildVerifier u baseUrl attempts interval timeout cfg.targetSha)
      probes (.ok result)) : 1 ≤ attempts ∧ ∀ e ∈ probes, ¬ Escapes e := by
  have hattempts : 1 ≤ attempts := by
    by_contra hlt
    rw [buildVerifier, verifyRelease, if_pos (by omega)] at h
    obtain ⟨-, habsurd⟩ := Interaction.runs_raise.mp h
    cases habsurd
  exact ⟨hattempts, (verifyRelease_raisesBy _ _ _ _ hattempts _ _ h).mp ⟨_, rfl⟩⟩

/-- A verification that succeeds, and then the audit. -/
theorem promotionRun_success {updated : ExecResult} (hok : updated.ok = true) {probes later : List Event}
    {result : VerifyResult} {outcome : Except PyError DeploymentAudit}
    (hverify : Interaction.Runs (buildVerifier u baseUrl attempts interval timeout cfg.targetSha)
      probes (.ok result)) (hsuccess : result.outcome = .success)
    (hlater : Interaction.Runs (audit cfg (some target) startedAt .success "success" false none)
      later outcome) :
    PromotionRun u cfg path baseUrl attempts timeout legacyTimeout target updated (probes ++ later)
      outcome := by
  have hprobes := verifyRelease_asks _ _ _ _ _ _ _ hverify
  obtain ⟨hattempts, hquiet⟩ := attempted_of_returned hverify
  obtain ⟨completedAt, a, rfl, rfl, hresult⟩ := runs_audit hlater
  refine ⟨Or.inl ?_, ?_, ?_⟩
  · rw [updates_append, updates_of_noUp fun e he => isUp_of_isProbe (hprobes e he)]
    rfl
  · rintro _ ⟨⟩
    rw [hresult]
    refine ⟨⟨fun _ => ⟨hok, ?_⟩, fun _ => rfl⟩, fun hne => absurd rfl hne⟩
    rw [verification_append hprobes rfl]
    exact (verifyRelease_success hverify).mp hsuccess
  · refine ⟨fun _ => ⟨?_, Or.inl hattempts⟩, fun _ => ⟨a, rfl⟩⟩
    intro e he
    rcases List.mem_append.mp he with he | he
    · exact hquiet e he
    · rw [List.mem_singleton.mp he]
      exact id

theorem runs_promote (hpath : cfg.releasePath = .ok path)
    (hdigest : digestRef target.imageDigest = true) {trace : List Event}
    {outcome : Except PyError DeploymentAudit}
    (h : Interaction.Runs (promote u cfg target startedAt
      (buildVerifier u baseUrl attempts interval timeout) (buildLegacyVerifier cfg legacyTimeout))
      trace outcome) :
    ∃ (updated : ExecResult) (rest : List Event),
      trace = ⟨.run (updateCommand cfg path cfg.targetImage), updated⟩ :: rest ∧
      PromotionRun u cfg path baseUrl attempts timeout legacyTimeout target updated rest outcome := by
  unfold promote at h
  dsimp only at h
  rw [updateBackend_bind hpath] at h
  obtain ⟨updated, rest, hrest, rfl⟩ := Interaction.runs_bind_request.mp h
  refine ⟨updated, rest, rfl, ?_⟩
  cases hok : ExecResult.ok updated with
  | false =>
    rw [hok] at hrest
    rw [← List.nil_append rest]
    refine promotionRun_rollback (by simp) (by simp) ?_ (runs_rollback hpath hdigest hrest)
    rw [hok]
    rintro ⟨⟩
  | true =>
    rw [hok] at hrest
    rcases Interaction.runs_bind.mp hrest with ⟨e, hraised, rfl⟩ |
      ⟨result, probes, later, hverify, hlater, rfl⟩
    · exact promotionRun_raised hok hraised
    · split at hlater
      · rename_i hsuccess
        exact promotionRun_success hok hverify hsuccess hlater
      · rename_i hfailure
        obtain ⟨hattempts, hquiet⟩ := attempted_of_returned hverify
        have hprobes := verifyRelease_asks _ _ _ _ _ _ _ hverify
        refine promotionRun_rollback hprobes hquiet ?_ (runs_rollback hpath hdigest hlater)
        exact fun _ => ⟨hattempts, fun hv => hfailure ((verifyRelease_success hverify).mpr hv)⟩

end Rollback

/-! ## Whole runs -/

/-- The version probe of a backend that answers without a build. -/
def reportsNoBuild : Event → Bool
  | ⟨.probeVersion, .ok (true, none)⟩ => true
  | _ => false

/-- The running backend has answered without a build. -/
def LegacyBackend (before : List Event) : Prop := before.any reportsNoBuild = true

theorem legacyBackend_iff {path : String} {target : RollbackTarget} {before : List Event}
    (h : GatePassed u cfg path target before) : LegacyBackend before ↔ target.legacy = true := by
  obtain ⟨a, hpassed, rfl⟩ := h.events
  rw [selectRollbackTarget_legacy hpassed.target, LegacyBackend]
  cases hmode : cfg.dockerPrivilege with
  | direct => cases hsha : a.buildSha <;> simp [gateEvents, reportsNoBuild, hmode, hsha]
  | sudoNonInteractive => cases hsha : a.buildSha <;> simp [gateEvents, reportsNoBuild, hmode, hsha]

/-- A deployment issues no update, or passes its gate, updates and goes on. -/
theorem runs_deploy {baseUrl : String} {attempts : Int} {interval timeout legacyTimeout : ℚ}
    {trace : List Event} {outcome : Except PyError DeploymentAudit}
    (h : Interaction.Runs (deploy u cfg (buildVerifier u baseUrl attempts interval timeout)
      (buildLegacyVerifier cfg legacyTimeout)) trace outcome) :
    (∀ e ∈ trace, e.request.isUp = false) ∨
      ∃ (path : String) (target : RollbackTarget) (before rest : List Event) (updated : ExecResult),
        SplitsAt trace before ⟨.run (updateCommand cfg path cfg.targetImage), updated⟩ rest ∧
        GatePassed u cfg path target before ∧
        PromotionRun u cfg path baseUrl attempts timeout legacyTimeout target updated rest outcome := by
  obtain ⟨startedAt, rest₁, h₁, rfl⟩ := Interaction.runs_bind_request.mp h
  have hnow : ∀ {before : List Event}, (∀ e ∈ before, e.request.isUp = false) →
      ∀ e ∈ (⟨.now, startedAt⟩ : Event) :: before, e.request.isUp = false := by
    intro before hbefore e he
    rcases List.mem_cons.mp he with rfl | he
    · rfl
    · exact hbefore e he
  rcases Interaction.runs_bind.mp h₁ with ⟨e, hraised, -⟩ |
    ⟨⟨failure, target⟩, gate, later, hgate, hlater, rfl⟩
  · exact Or.inl (hnow (noUp_preMutationGate _ _ hraised))
  · have hquiet := noUp_preMutationGate _ _ hgate
    cases failure with
    | some failure =>
      refine Or.inl (hnow fun e he => ?_)
      rcases List.mem_append.mp he with he | he
      · exact hquiet e he
      · exact noUp_audit _ _ _ _ _ _ _ hlater e he
    | none =>
      obtain ⟨path, selected, rfl, hpassed⟩ :=
        @runs_preMutationGate u cfg gate target startedAt hgate
      obtain ⟨a, hanswers, -⟩ := hpassed.events
      obtain ⟨updated, rest, rfl, hpromotion⟩ := runs_promote hpassed.releasePath
        (selectRollbackTarget_digestRef hanswers.target) hlater
      exact Or.inr ⟨path, selected, ⟨.now, startedAt⟩ :: gate, rest, updated,
        ⟨rfl, isUp_updateCommand _ _ _, hnow hquiet⟩, hpassed, hpromotion⟩

section Deployment

variable (u : UnicodeData) (cfg : DeployConfig) (baseUrl : String) (attempts : Int)
  (interval timeout legacyTimeout : ℚ)

/-- What is to hold of a run that has issued an update: every check has passed before; the first update
    is of the target, and the only other one of the rollback digest; and the run returns an audit. -/
def Safe (trace : List Event) (outcome : Except PyError DeploymentAudit) : Prop :=
  ∀ before x rest, SplitsAt trace before x rest →
    ∃ (path : String) (target : RollbackTarget) (updated : ExecResult),
      GatePassed u cfg path target before ∧
      x = ⟨.run (updateCommand cfg path cfg.targetImage), updated⟩ ∧
      (updates rest = [] ∨ updates rest = [.run (updateCommand cfg path target.imageDigest)]) ∧
      ∃ a, outcome = .ok a ∧
        Concluded u cfg path baseUrl timeout legacyTimeout target updated rest a.outcome

/-- After the first update no answer raises what nothing catches, and there is an attempt for each
    verification that is reached: of the target, and of a rollback target with a build. -/
def NothingEscapes (trace : List Event) : Prop :=
  ∀ before x rest, SplitsAt trace before x rest →
    (∀ e ∈ rest, ¬ Escapes e) ∧
      (1 ≤ attempts ∨ ¬ Succeeded x ∧
        (LegacyBackend before ∨ ∀ e ∈ rest, e.request.isUp = true → ¬ Succeeded e))

/-- The deployment, with the verifications that are built for it. -/
def deployment : Action DeploymentAudit :=
  deploy u cfg (buildVerifier u baseUrl attempts interval timeout)
    (buildLegacyVerifier cfg legacyTimeout)

/-- No update comes before every check has passed, and there are at most two of them, also where the
    run raises. -/
theorem deployment_gated (env : List Event → (q : Request) → Answer q) :
    ∀ before x rest,
      SplitsAt (Interaction.exec env
        (deployment u cfg baseUrl attempts interval timeout legacyTimeout) []).1 before x rest →
      ∃ (path : String) (target : RollbackTarget) (updated : ExecResult),
        GatePassed u cfg path target before ∧
        x = ⟨.run (updateCommand cfg path cfg.targetImage), updated⟩ ∧
        (updates rest = [] ∨ updates rest = [.run (updateCommand cfg path target.imageDigest)]) := by
  intro before x rest hsplit
  rcases runs_deploy (Interaction.exec_runs env
    (deployment u cfg baseUrl attempts interval timeout legacyTimeout) []) with
      hnone | ⟨path, target, before', rest', updated, hsplit', hpassed, hpromotion⟩
  · have hup := hsplit.up
    rw [hnone x (by rw [hsplit.split]; simp)] at hup
    cases hup
  · obtain ⟨rfl, rfl, rfl⟩ := hsplit.unique hsplit'
    exact ⟨path, target, updated, hpassed, rfl, hpromotion.updates⟩

/-- **A deployment is safe exactly when nothing escapes after its first update.**  For every
    configuration, number of attempts and environment, which may adapt its answers to the run. -/
theorem deploy_safe_iff (env : List Event → (q : Request) → Answer q) :
    let run := Interaction.exec env
      (deployment u cfg baseUrl attempts interval timeout legacyTimeout) []
    Safe u cfg baseUrl timeout legacyTimeout run.1 run.2 ↔ NothingEscapes attempts run.1 := by
  intro run
  rcases runs_deploy (Interaction.exec_runs env
    (deployment u cfg baseUrl attempts interval timeout legacyTimeout) []) with
      hnone | ⟨path, target, before, rest, updated, hsplit, hpassed, hpromotion⟩
  · -- no update, and nothing to show
    have hvacuous : ∀ before x rest, ¬ SplitsAt run.1 before x rest := by
      intro before x rest hsplit
      have hup := hsplit.up
      rw [hnone x (by rw [hsplit.split]; simp)] at hup
      cases hup
    constructor
    · intro _ before x rest hsplit
      exact absurd hsplit (hvacuous before x rest)
    · intro _ before x rest hsplit
      exact absurd hsplit (hvacuous before x rest)
  · have hcondition : NothingEscapes attempts run.1 ↔ ∃ a, run.2 = .ok a := by
      rw [hpromotion.returns]
      have hfailed : ∀ command, ¬ Succeeded ⟨.run command, updated⟩ ↔ updated.ok = false := by
        intro command
        show ¬ updated.ok = true ↔ _
        rw [Bool.not_eq_true]
      constructor
      · intro h
        have hhere := h _ _ _ hsplit
        rwa [hfailed, legacyBackend_iff hpassed] at hhere
      · intro h before' x rest' hsplit'
        obtain ⟨rfl, rfl, rfl⟩ := hsplit.unique hsplit'
        rwa [hfailed, legacyBackend_iff hpassed]
    rw [hcondition]
    constructor
    · intro hsafe
      obtain ⟨_, _, _, -, -, -, a, ha, -⟩ := hsafe _ _ _ hsplit
      exact ⟨a, ha⟩
    · rintro ⟨a, ha⟩ before' x rest' hsplit'
      obtain ⟨rfl, rfl, rfl⟩ := hsplit.unique hsplit'
      exact ⟨path, target, updated, hpassed, rfl, hpromotion.updates, a, ha, hpromotion.concluded a ha⟩

end Deployment

/-! ## A response that breaks off -/

def releaseConfig : DeployConfig where
  targetImage := "ghcr.io/o/apexscan-backend@sha256:" ++ String.ofList (List.replicate 64 'b')
  targetSha := String.ofList (List.replicate 40 '2')
  deployRoot := "/opt/apexscan/releases"
  baseUrl := "https://apex.example"
  dhanRestartSafe := true

def runningImage : String :=
  "ghcr.io/o/apexscan-backend@sha256:" ++ String.ofList (List.replicate 64 'a')

/-- A host on which every command succeeds, and a backend that breaks off the body of its responses. -/
def truncating (_ : List Event) : (q : Request) → Answer q
  | .run command =>
    if command.contains "version" then ⟨0, "2.29.1", ""⟩
    else if command.contains "ps" then ⟨0, runningImage, ""⟩
    else ⟨0, "", ""⟩
  | .get _ _ => Except.ok ⟨200, .error .httpException⟩
  | .sleep _ => Except.ok ()
  | .probeVersion => Except.ok (true, some (String.ofList (List.replicate 40 '1')))
  | .now => (0 : ℚ)

set_option maxRecDepth 20000 in
/-- A body that breaks off ends the deployment after its update, with neither an audit nor a rollback. -/
theorem truncated_body_skips_rollback :
    let run := Interaction.exec truncating
      (deployment asciiData releaseConfig "https://apex.example" 30 2 5 5) []
    updates run.1 = [.run (updateCommand releaseConfig
        ("/opt/apexscan/releases/" ++ releaseConfig.targetSha) releaseConfig.targetImage)] ∧
      run.2 = .error .httpException ∧
      ¬ Safe asciiData releaseConfig "https://apex.example" 5 5 run.1 run.2 := by
  intro run
  have hupdates : updates run.1 = [.run (updateCommand releaseConfig
      ("/opt/apexscan/releases/" ++ releaseConfig.targetSha) releaseConfig.targetImage)] := by rfl
  have hraised : run.2 = .error .httpException := by rfl
  refine ⟨hupdates, hraised, ?_⟩
  intro hsafe
  obtain ⟨before, x, rest, hsplit⟩ := exists_splitsAt (by rw [hupdates]; exact List.cons_ne_nil _ _)
  obtain ⟨_, _, _, -, -, -, a, ha, -⟩ := hsafe before x rest hsplit
  rw [hraised] at ha
  cases ha

end ApexScan.Deploy
