import ApexScan.Adapters.Dhan.HistoricalLoad
import ApexScan.Lib.Mutex

/-!
# Access tokens (`app/adapters/dhan/auth.py`)

`DhanAuthManager` keeps one access token in memory.  A caller that finds it usable gets it; otherwise
the caller posts one token request, under a lock, and stores what comes back.  `disconnect` discards
the token and takes no lock.  Any number of callers run at once.

* `DhanAuthManager.program` — the machine of all interleavings.  A free lock may be taken by any waiting
  caller; `Occasion` is what the world contributes to a step.
* `parseRuntimeToken`, `raiseForAuthFailure`, `generationRateLimited` — how a response is read.
* `Finished` — how a call has ended; the list of them is the log of a run.
* `cacheStep` — a cache of one token, which only the log moves, and `Finished.Allowed`, what such a cache
  allows in the state it is in.

Main results: `token_cache_refined`, `generations_spaced`, `token_requests_exclusive`.
-/

set_option autoImplicit false

namespace ApexScan.Dhan.Auth

open Lib Ipc
open HistoricalLoad (HttpResponse Posted errorText contains)

/-! ## Secrets and tokens -/

abbrev Secret := {s : String // s ≠ ""}

/-- `_required_secret`; `none` is `ProviderAuthenticationError`. -/
def requiredSecret (value : String) : Option Secret :=
  if h : Deploy.strip value ≠ "" then some ⟨Deploy.strip value, h⟩ else none

/-- `_RuntimeAccessToken`. -/
structure RuntimeAccessToken where
  accessToken : String
  expiresAt : Int
  deriving DecidableEq, Repr

/-- `_REGENERATION_WINDOW`. -/
def regenerationWindow : Int := 5 * minute

/-- `is_usable`. -/
def RuntimeAccessToken.isUsable (t : RuntimeAccessToken) (now : Int) : Bool :=
  now + regenerationWindow < t.expiresAt

/-- What a call raises; `other` stands for the exceptions that are not mapped. -/
inductive AuthError where
  | authentication
  | timeout
  | network
  | rateLimit
  | unavailable
  | normalization
  | other
  deriving DecidableEq, Repr

/-- The parameters of a token request. -/
structure TokenParams where
  dhanClientId : Secret
  pin : Secret
  totp : String
  deriving DecidableEq

/-- The configuration of a manager: its secrets, the one-time passwords of a TOTP secret (`none` where
    `pyotp` raises), and `datetime.fromisoformat`, which reads a naive text as a wall-clock time. -/
structure DhanAuthManager where
  clientId : Secret
  pin : Secret
  totpSecret : Secret
  totpAt : String → Int → Option String
  fromisoformat : String → Option WireDatetime
  unicode : Deploy.UnicodeData

/-- `from_settings`; `none` is `ProviderAuthenticationError`. -/
def fromSettings (dhanClientId dhanPin dhanTotpSecret : Option String)
    (totpAt : String → Int → Option String) (fromisoformat : String → Option WireDatetime)
    (unicode : Deploy.UnicodeData) : Option DhanAuthManager := do
  let clientId ← requiredSecret (← dhanClientId)
  let pin ← requiredSecret (← dhanPin)
  let totpSecret ← requiredSecret (← dhanTotpSecret)
  return { clientId, pin, totpSecret, totpAt, fromisoformat, unicode }

/-! ## Responses -/

/-- `_raise_for_auth_failure`; `none` where it returns. -/
def raiseForAuthFailure (r : HttpResponse) : Option AuthError :=
  let errorCode := errorText r "errorCode"
  if r.isSuccess then none
  else if r.status = 429 ∨ errorCode ∈ [some "DH-904"] then some .rateLimit
  else if r.status = 408 then some .timeout
  else if 500 ≤ r.status ∨ errorCode ∈ [some "DH-903", some "DH-908", some "DH-909"] then
    some .unavailable
  else if r.status ∈ [401, 403] ∨ errorCode ∈ [some "DH-901", some "DH-902"] then some .authentication
  else some .authentication

/-- A member of the body that is a text. -/
def textMember (r : HttpResponse) (name : String) : Option String :=
  match r.body.bind (·.get? name) with
  | some (.str text) => some text
  | _ => none

namespace DhanAuthManager

variable (manager : DhanAuthManager)

/-- Whether `_raise_for_generation_rate_limit` raises. -/
def generationRateLimited (r : HttpResponse) : Bool :=
  match textMember r "status", textMember r "message" with
  | some status, some message =>
    let lowered := manager.unicode.lower message
    manager.unicode.lower (Deploy.strip status) = "error" && contains "minute" lowered &&
      (contains "once every" lowered || contains "can be generated" lowered)
  | _, _ => false

/-- `_parse_runtime_token`; an expiry without an offset is Indian time. -/
def parseRuntimeToken (r : HttpResponse) (now : Int) : Except AuthError RuntimeAccessToken :=
  match textMember r "accessToken", textMember r "expiryTime" with
  | some rawToken, some rawExpiry =>
    if Deploy.strip rawToken = "" ∨ Deploy.strip rawExpiry = "" then .error .normalization
    else
      match manager.fromisoformat (Deploy.strip rawExpiry) with
      | none => .error .normalization
      | some parsed =>
        let expiresAt := if parsed.aware then parsed.utc else kolkata.toUtc parsed.utc
        -- `astimezone` raises `OverflowError`, which nothing maps
        if inDatetimeRange expiresAt = false then .error .other
        else if expiresAt ≤ now then .error .normalization
        else .ok ⟨Deploy.strip rawToken, expiresAt⟩
  | _, _ => .error .normalization

/-- The token of an answered request. -/
def tokenOf (posted : Posted) (now : Int) : Except AuthError RuntimeAccessToken :=
  match posted with
  | .timeout => .error .timeout
  | .requestError => .error .network
  | .other => .error .other
  | .response r =>
    match raiseForAuthFailure r with
    | some e => .error e
    | none =>
      if manager.generationRateLimited r then .error .rateLimit else manager.parseRuntimeToken r now

/-- `_generate_totp`; `none` is `ProviderAuthenticationError`. -/
def generateTotp (now : Int) : Option String :=
  (manager.totpAt manager.totpSecret now).filter fun value =>
    value.length = 6 && value.toList.all fun c => (manager.unicode.digit c).isSome

end DhanAuthManager

/-! ## The calls -/

/-- What the calls share. -/
structure AuthState where
  runtimeToken : Option RuntimeAccessToken := none
  clientOpen : Bool := false
  locked : Bool := false
  deriving DecidableEq

/-- Where a call is. -/
inductive Task where
  | waiting
  | requesting (now : Int) (params : TokenParams)
  | disconnecting

/-- How a call has ended: with the token that was held, with a new one, with an exception after it had
    read the clock, cancelled, or with the token discarded. -/
inductive Finished where
  | served (now : Int) (token : RuntimeAccessToken)
  | generated (now : Int) (params : TokenParams) (posted : Posted) (token : RuntimeAccessToken)
  | failed (now : Int) (raised : AuthError)
  | cancelled
  | disconnected

inductive Request where
  | getAccessToken
  | disconnect

/-- What the world contributes to a step: whether the task is cancelled in its wait, the clock, and how
    the posted request ends. -/
structure Occasion where
  cancelled : Bool
  now : Int
  posted : Posted

namespace DhanAuthManager

variable (manager : DhanAuthManager)

/-- The body of `async with self._lock`, up to the `await` of the response; a usable token is returned
    at once. -/
def underLock (now : Int) (s : AuthState) : AuthState × Progress Task Finished :=
  match s.runtimeToken.filter (·.isUsable now) with
  | some token => (s, .finished (.served now token))
  | none =>
    match manager.generateTotp now with
    | none => (s, .finished (.failed now .authentication))
    | some totp =>
      ({ s with clientOpen := true, locked := true },
        .running (.requesting now ⟨manager.clientId, manager.pin, totp⟩))

/-- The rest of it, once the request has ended. -/
def answered (now : Int) (params : TokenParams) (posted : Posted) (s : AuthState) :
    AuthState × Progress Task Finished :=
  match manager.tokenOf posted now with
  | .error raised => ({ s with locked := false }, .finished (.failed now raised))
  | .ok token =>
    ({ s with locked := false, runtimeToken := some token },
      .finished (.generated now params posted token))

/-- One step of a call; `disconnect` has forgotten the client before it closes it. -/
def advance (occasion : Occasion) (t : Task) (s : AuthState) : AuthState × Progress Task Finished :=
  match t with
  | .waiting =>
    if occasion.cancelled then (s, .finished .cancelled)
    else if s.locked then (s, .running .waiting)
    else manager.underLock occasion.now s
  | .requesting now params =>
    if occasion.cancelled then ({ s with locked := false }, .finished .cancelled)
    else manager.answered now params occasion.posted s
  | .disconnecting =>
    ({ s with runtimeToken := none, clientOpen := false }, .finished .disconnected)

/-- What a request starts. -/
def start : Request → AuthState → Progress Task Finished
  | .getAccessToken, _ => .running .waiting
  | .disconnect, _ => .running .disconnecting

/-- Every interleaving of the calls. -/
def program : Program AuthState Task Finished Request Occasion where
  start := start
  advance := manager.advance

end DhanAuthManager

/-- Before anything has run. -/
def idle : Pool AuthState Task := ⟨{}, []⟩

/-! ## A cache of one token -/

/-- The token that is held once a call has ended. -/
def Finished.after (held : Option RuntimeAccessToken) : Finished → Option RuntimeAccessToken
  | .generated _ _ _ token => some token
  | .disconnected => none
  | _ => held

/-- The cache moves only when a call ends. -/
def cacheStep (held : Option RuntimeAccessToken) (f : Finished) : Option RuntimeAccessToken × Unit :=
  (f.after held, ())

/-- The token that is held after a log. -/
def heldAfter (log : List Finished) : Option RuntimeAccessToken := run cacheStep none log

/-- What a stored token has to come from: a successful response with a text for the token and an expiry
    after the request. -/
structure TokenFrom (manager : DhanAuthManager) (now : Int) (posted : Posted)
    (token : RuntimeAccessToken) : Prop where
  response : ∃ r rawToken rawExpiry parsed, posted = .response r ∧ r.isSuccess = true ∧
    textMember r "accessToken" = some rawToken ∧ textMember r "expiryTime" = some rawExpiry ∧
    token.accessToken = Deploy.strip rawToken ∧
    manager.fromisoformat (Deploy.strip rawExpiry) = some parsed ∧
    token.expiresAt = if parsed.aware then parsed.utc else kolkata.toUtc parsed.utc
  nonempty : token.accessToken ≠ ""
  unexpired : now < token.expiresAt

/-- A request that the manager may post at an instant: its own secrets, and the password of the
    instant. -/
structure TokenParams.For (manager : DhanAuthManager) (now : Int) (params : TokenParams) : Prop where
  clientId : params.dhanClientId = manager.clientId
  pin : params.pin = manager.pin
  totp : manager.totpAt manager.totpSecret now = some params.totp
  length : params.totp.length = 6

/-- No token is held that is usable. -/
def Stale (held : Option RuntimeAccessToken) (now : Int) : Prop := ∀ t ∈ held, t.isUsable now = false

/-- What a cache with a token allows: only the token that it holds is served, and only while it is usable;
    nothing is asked for while the token held is usable. -/
def Finished.Allowed (manager : DhanAuthManager) (held : Option RuntimeAccessToken) : Finished → Prop
  | .served now token => held = some token ∧ token.isUsable now = true
  | .generated now params posted token =>
    Stale held now ∧ params.For manager now ∧ TokenFrom manager now posted token
  | .failed now _ => Stale held now
  | .cancelled => True
  | .disconnected => True

/-! ## What a step can do -/

/-- Whether a task has the lock. -/
def Task.isRequesting : Task → Bool
  | .requesting _ _ => true
  | _ => false

/-- What is known of a request in flight. -/
def Justified (manager : DhanAuthManager) (s : AuthState) (t : Task) : Prop :=
  ∀ now params, t = .requesting now params → params.For manager now ∧ Stale s.runtimeToken now

theorem justified_of_idle {manager : DhanAuthManager} {s : AuthState} {t : Task}
    (h : t.isRequesting = false) : Justified manager s t := by
  rintro now params rfl
  cases h

/-- Everything that a step of a task can do. -/
inductive Moved (manager : DhanAuthManager) (s : AuthState) (t : Task) (s' : AuthState)
    (progress : Progress Task Finished) : Prop where
  | waits (hidle : t.isRequesting = false) (hstate : s' = s) (hprogress : progress = .running .waiting)
  | posts (now : Int) (params : TokenParams) (hidle : t.isRequesting = false) (hfree : s.locked = false)
      (hparams : params.For manager now) (hstale : Stale s.runtimeToken now)
      (htoken : s'.runtimeToken = s.runtimeToken) (hlocked : s'.locked = true)
      (hprogress : progress = .running (.requesting now params))
  | ends (f : Finished) (hprogress : progress = .finished f)
      (htoken : s'.runtimeToken = f.after s.runtimeToken)
      (hallowed : Justified manager s t → f.Allowed manager s.runtimeToken)
      (hlock : t.isRequesting = true ∧ s'.locked = false ∨
        t.isRequesting = false ∧ s'.locked = s.locked ∧
          (s'.runtimeToken = s.runtimeToken ∨ s'.runtimeToken = none))

section Steps

variable {manager : DhanAuthManager} {s : AuthState} {now : Int}

/-- A token is read from a response as a stored token has to be. -/
theorem tokenFrom_of_parse {r : HttpResponse} {token : RuntimeAccessToken} (hsuccess : r.isSuccess = true)
    (h : manager.parseRuntimeToken r now = .ok token) : TokenFrom manager now (.response r) token := by
  unfold DhanAuthManager.parseRuntimeToken at h
  split at h
  · rename_i rawToken rawExpiry htoken hexpiry
    split at h
    · cases h
    · rename_i hblank
      split at h
      · cases h
      · rename_i parsed hparsed
        dsimp only at h
        generalize hexpires : (if parsed.aware = true then parsed.utc else kolkata.toUtc parsed.utc) =
          expiresAt at h
        split at h
        · cases h
        · split at h
          · cases h
          · rename_i hlater
            cases h
            exact
              { response := ⟨r, rawToken, rawExpiry, parsed, rfl, hsuccess, htoken, hexpiry, rfl, hparsed,
                  hexpires.symm⟩
                nonempty := fun hempty => hblank (.inl hempty)
                unexpired := not_le.mp hlater }
  · cases h

theorem tokenFrom_of_ok {posted : Posted} {token : RuntimeAccessToken}
    (h : manager.tokenOf posted now = .ok token) : TokenFrom manager now posted token := by
  cases posted with
  | response r =>
    simp only [DhanAuthManager.tokenOf] at h
    cases hraised : raiseForAuthFailure r with
    | some e =>
      rw [hraised] at h
      cases h
    | none =>
      rw [hraised] at h
      dsimp only at h
      split at h
      · cases h
      · refine tokenFrom_of_parse ?_ h
        -- an unsuccessful response always raises
        cases hsuccess : r.isSuccess with
        | true => rfl
        | false =>
          unfold raiseForAuthFailure at hraised
          simp only [hsuccess, Bool.false_eq_true, if_false, ite_self] at hraised
          split_ifs at hraised
  | _ => cases h

theorem generateTotp_for {totp : String} (h : manager.generateTotp now = some totp) :
    TokenParams.For manager now ⟨manager.clientId, manager.pin, totp⟩ := by
  obtain ⟨htotp, hshape⟩ := Option.filter_eq_some_iff.mp h
  have hlength := (Bool.and_eq_true_iff.mp hshape).1
  exact
    { clientId := rfl
      pin := rfl
      totp := htotp
      length := of_decide_eq_true hlength }

theorem stale_of_filter (h : s.runtimeToken.filter (·.isUsable now) = none) :
    Stale s.runtimeToken now := by
  intro t ht
  cases husable : t.isUsable now with
  | false => rfl
  | true =>
    rw [Option.mem_def.mp ht, Option.filter_some, if_pos husable] at h
    cases h

theorem underLock_moved {t : Task} (hidle : t.isRequesting = false) (hfree : s.locked = false) :
    Moved manager s t (manager.underLock now s).1 (manager.underLock now s).2 := by
  unfold DhanAuthManager.underLock
  cases hheld : s.runtimeToken.filter (·.isUsable now) with
  | some token =>
    obtain ⟨htoken, husable⟩ := Option.filter_eq_some_iff.mp hheld
    exact .ends (.served now token) rfl rfl (fun _ => ⟨htoken, husable⟩) (.inr ⟨hidle, rfl, .inl rfl⟩)
  | none =>
    have hstale := stale_of_filter hheld
    dsimp only
    cases htotp : manager.generateTotp now with
    | none =>
      exact .ends (.failed now .authentication) rfl rfl (fun _ => hstale) (.inr ⟨hidle, rfl, .inl rfl⟩)
    | some totp => exact .posts now _ hidle hfree (generateTotp_for htotp) hstale rfl rfl rfl

theorem answered_moved {params : TokenParams} (posted : Posted) :
    Moved manager s (.requesting now params) (manager.answered now params posted s).1
      (manager.answered now params posted s).2 := by
  unfold DhanAuthManager.answered
  cases htoken : manager.tokenOf posted now with
  | error raised =>
    exact .ends (.failed now raised) rfl rfl (fun h => (h now params rfl).2) (.inl ⟨rfl, rfl⟩)
  | ok token =>
    refine .ends (.generated now params posted token) rfl rfl (fun h => ?_) (.inl ⟨rfl, rfl⟩)
    obtain ⟨hparams, hstale⟩ := h now params rfl
    exact ⟨hstale, hparams, tokenFrom_of_ok htoken⟩

theorem advance_moved (manager : DhanAuthManager) (occasion : Occasion) (t : Task) (s : AuthState) :
    Moved manager s t (manager.advance occasion t s).1 (manager.advance occasion t s).2 := by
  cases t with
  | waiting =>
    simp only [DhanAuthManager.advance]
    split
    · exact .ends .cancelled rfl rfl (fun _ => trivial) (.inr ⟨rfl, rfl, .inl rfl⟩)
    · split
      · exact .waits rfl rfl rfl
      · rename_i hfree
        exact underLock_moved rfl (eq_false_of_ne_true hfree)
  | requesting now params =>
    simp only [DhanAuthManager.advance]
    split
    · exact .ends .cancelled rfl rfl (fun _ => trivial) (.inl ⟨rfl, rfl⟩)
    · exact answered_moved occasion.posted
  | disconnecting =>
    exact .ends .disconnected rfl rfl (fun _ => trivial) (.inr ⟨rfl, rfl, .inr rfl⟩)

end Steps

/-! ## The lock -/

theorem program_guarded (manager : DhanAuthManager) :
    Guarded manager.program AuthState.locked Task.isRequesting where
  start := by
    intro request s
    cases request <;> rfl
  advance := by
    intro occasion t s
    cases advance_moved manager occasion t s with
    | waits hidle hstate hprogress =>
      refine .kept (congrArg AuthState.locked hstate) ?_
      show Progress.holding _ (manager.advance occasion t s).2 = _
      rw [hprogress, hidle]
      rfl
    | posts now params hidle hfree hparams hstale htoken hlocked hprogress =>
      refine .taken hfree hlocked hidle ?_
      show Progress.holding _ (manager.advance occasion t s).2 = _
      rw [hprogress]
      rfl
    | ends f hprogress htoken hallowed hlock =>
      have hdone : Progress.holding Task.isRequesting (manager.program.advance occasion t s).2 = false := by
        show Progress.holding _ (manager.advance occasion t s).2 = _
        rw [hprogress]
        rfl
      rcases hlock with ⟨hheld, hfree⟩ | ⟨hidle, hlocked, -⟩
      · exact .released hheld hfree hdone
      · exact .kept hlocked (hdone.trans hidle.symm)

theorem exclusive_idle : Exclusive AuthState.locked Task.isRequesting idle := Exclusive.idle rfl

/-! ## The log -/

/-- What the log says of the manager and of a request in flight. -/
def caching (manager : DhanAuthManager) : Assertions (List Finished) AuthState Task Finished where
  grows := (· <+: ·)
  shared log s := s.runtimeToken = heldAfter log ∧ Along cacheStep (Finished.Allowed manager) none log
  task _ := Justified manager
  apart _ _ := True
  result _ _ := True
  symm := fun _ _ _ => trivial
  refl := List.prefix_refl
  trans := fun _ _ _ => List.IsPrefix.trans
  result_grows := fun _ _ _ _ _ => trivial

/-- What a call adds to the log. -/
def entry (f : Finished) : List Finished := [f]

/-- A token that is kept or lost is no more usable than before. -/
theorem Justified.of_token {manager : DhanAuthManager} {s s' : AuthState} {t : Task}
    (h : Justified manager s t)
    (htoken : s'.runtimeToken = s.runtimeToken ∨ s'.runtimeToken = none) : Justified manager s' t := by
  intro now params ht
  obtain ⟨hparams, hstale⟩ := h now params ht
  refine ⟨hparams, ?_⟩
  rcases htoken with heq | hnone
  · rw [heq]
    exact hstale
  · rw [hnone]
    intro token habsurd
    cases habsurd

theorem caching_kept {manager : DhanAuthManager} {log : List Finished} {pool : Pool AuthState Task}
    (h : (caching manager).Hold log pool) (hlock : Exclusive AuthState.locked Task.isRequesting pool)
    {process : ℕ} {t : Task} (ht : pool.tasks.get process = some t) {s' : AuthState}
    {progress : Progress Task Finished} (hmoved : Moved manager pool.shared t s' progress) :
    (caching manager).Kept pool (log ++ Assertions.emitted entry (pool.settle process s' progress).2)
      process s' progress := by
  obtain ⟨hheld, hallowedLog⟩ := h.memory
  cases hmoved with
  | waits hidle hstate hprogress =>
    subst hprogress hstate
    simp only [Pool.settle, Assertions.emitted, List.append_nil]
    refine ⟨h.memory, fun q u _ hu => h.task q u hu, ?_, fun _ _ => trivial⟩
    intro t' ht'
    cases ht'
    exact ⟨justified_of_idle rfl, fun _ _ _ _ => trivial⟩
  | posts now params hidle hfree hparams hstale htoken hlocked hprogress =>
    subst hprogress
    simp only [Pool.settle, Assertions.emitted, List.append_nil]
    refine ⟨⟨htoken.trans hheld, hallowedLog⟩, fun q u _ hu => (h.task q u hu).of_token (.inl htoken), ?_,
      fun _ _ => trivial⟩
    intro t' ht'
    cases ht'
    refine ⟨?_, fun _ _ _ _ => trivial⟩
    intro now' params' heq
    cases heq
    rw [htoken]
    exact ⟨hparams, hstale⟩
  | ends f hprogress htoken hallowed hlocks =>
    subst hprogress
    simp only [Pool.settle, Assertions.emitted, entry]
    refine ⟨⟨?_, ?_⟩, ?_, fun t' ht' => (by cases ht'), fun _ _ => trivial⟩
    · rw [htoken, hheld, heldAfter, heldAfter, run_concat]
      rfl
    · rw [along_append]
      refine ⟨hallowedLog, ?_, trivial⟩
      show f.Allowed manager (heldAfter log)
      rw [← hheld]
      exact hallowed (h.task process t ht)
    · intro q u hq hu
      rcases hlocks with ⟨hrequesting, -⟩ | ⟨-, -, hkept⟩
      · exact justified_of_idle (hlock.others ht hrequesting hq hu)
      · exact (h.task q u hu).of_token hkept

/-- **One turn** keeps the manager in step with the log. -/
theorem caching_logged (manager : DhanAuthManager) :
    (caching manager).Logged manager.program entry
      fun pool _ => Exclusive AuthState.locked Task.isRequesting pool where
  grows := List.prefix_append
  start := by
    intro log pool process request h _ _
    have hstart : ∃ t, manager.program.start request pool.shared = .running t ∧
        t.isRequesting = false := by
      cases request
      · exact ⟨.waiting, rfl, rfl⟩
      · exact ⟨.disconnecting, rfl, rfl⟩
    obtain ⟨t, hstart, hidle⟩ := hstart
    rw [hstart]
    simp only [Pool.settle, Assertions.emitted, List.append_nil]
    refine ⟨h.memory, fun q u _ hu => h.task q u hu, ?_, fun _ _ => trivial⟩
    intro t' ht'
    cases ht'
    exact ⟨justified_of_idle hidle, fun _ _ _ _ => trivial⟩
  advance := by
    intro log pool process occasion t h ht hlock
    exact caching_kept h hlock ht (advance_moved manager occasion t pool.shared)

/-- The log of a run. -/
def logOf (manager : DhanAuthManager) (turns : List (Lib.Turn Request Occasion)) : List Finished :=
  (outs manager.program.step idle turns).flatMap (Assertions.emitted entry)

theorem caching_run (manager : DhanAuthManager) (turns : List (Lib.Turn Request Occasion)) :
    (caching manager).Hold (logOf manager turns) (run manager.program.step idle turns) := by
  have halong : Along manager.program.step
      (fun pool _ => Exclusive AuthState.locked Task.isRequesting pool) idle turns :=
    along_of_invariant (program_guarded manager).step (fun _ _ h => h) turns exclusive_idle
  have hidle : (caching manager).Hold [] idle :=
    { memory := ⟨rfl, trivial⟩
      task := fun p t ht => by cases ht
      apart := fun _ _ _ _ _ _ _ => trivial }
  exact ((caching_logged manager).run halong hidle).1

/-- **The manager is a cache of one token**, in every interleaving of callers, cancellations and
    disconnects.  It holds the token that the calls so far leave in a cache, and each call has ended as the
    cache allows in the state before it: a caller is served the token held only while that has more than
    five minutes left, nothing else is ever asked for in that time, and what is stored is read from a
    successful response and not expired. -/
theorem token_cache_refined (manager : DhanAuthManager) (turns : List (Lib.Turn Request Occasion)) :
    (run manager.program.step idle turns).shared.runtimeToken = heldAfter (logOf manager turns) ∧
      Along cacheStep (Finished.Allowed manager) none (logOf manager turns) :=
  (caching_run manager turns).memory

/-- A manager whose passwords are all the same, for the test below. -/
def fixedManager : DhanAuthManager where
  clientId := ⟨"1100003626", by decide⟩
  pin := ⟨"123456", by decide⟩
  totpSecret := ⟨"JBSWY3DPEHPK3PXP", by decide⟩
  totpAt _ _ := some "282760"
  fromisoformat text := if text = "2026-01-01T12:00:00" then some ⟨20454 * day + 720 * minute, false⟩ else none
  unicode := Deploy.asciiData

/-- A response that comes after a disconnect is stored all the same. -/
example :
    let body := Json.obj [("accessToken", .str " jwt "), ("expiryTime", .str "2026-01-01T12:00:00")]
    (run fixedManager.program.step idle
      [.start 0 .getAccessToken, .start 1 .disconnect, .advance 0 ⟨false, 20454 * day, .other⟩,
        .advance 1 ⟨false, 20454 * day, .other⟩,
        .advance 0 ⟨false, 20454 * day, .response ⟨200, some body⟩⟩]).shared =
      ⟨some ⟨"jwt", 20454 * day + 390 * minute⟩, false, false⟩ := by
  decide +kernel

/-- **At most one token request is in flight**, in every interleaving.  It holds the lock, which nothing
    else holds; it carries the secrets of the manager and the password of the instant at which the clock
    was read; and no token that was usable at that instant is held while it runs. -/
theorem token_requests_exclusive (manager : DhanAuthManager) (turns : List (Lib.Turn Request Occasion)) :
    let pool := run manager.program.step idle turns
    (pool.shared.locked = true ↔ ∃ p now params, pool.tasks.get p = some (.requesting now params)) ∧
      ∀ p now params, pool.tasks.get p = some (.requesting now params) →
        params.For manager now ∧ Stale pool.shared.runtimeToken now ∧
          ∀ q now' params', pool.tasks.get q = some (.requesting now' params') → q = p := by
  intro pool
  have hexclusive : Exclusive AuthState.locked Task.isRequesting pool :=
    exclusive_idle.run (program_guarded manager) turns
  constructor
  · rw [hexclusive.held_iff]
    constructor
    · rintro ⟨p, t, ht, hrequesting⟩
      cases t with
      | requesting now params => exact ⟨p, now, params, ht⟩
      | waiting => cases hrequesting
      | disconnecting => cases hrequesting
    · rintro ⟨p, now, params, ht⟩
      exact ⟨p, _, ht, rfl⟩
  · intro p now params ht
    obtain ⟨hparams, hstale⟩ := (caching_run manager turns).task p _ ht now params rfl
    refine ⟨hparams, hstale, ?_⟩
    intro q now' params' hq
    exact hexclusive.unique q p _ _ hq ht rfl rfl

/-! ## Generations -/

/-- Whether the end of a call changes the cache. -/
def Finished.changes : Finished → Bool
  | .generated _ _ _ _ => true
  | .disconnected => true
  | _ => false

/-- A token is generated when the one generated before it is no longer usable. -/
def Spaced : Finished → Finished → Prop
  | .generated _ _ _ token, .generated now _ _ _ => token.expiresAt ≤ now + regenerationWindow
  | _, _ => True

/-- A generation is allowed where the token held is not usable. -/
def StaleFor (held : Option RuntimeAccessToken) : Finished → Prop
  | .generated now _ _ _ => Stale held now
  | _ => True

theorem after_of_not_changes {f : Finished} (h : f.changes = false) (held : Option RuntimeAccessToken) :
    f.after held = held := by
  cases f with
  | generated now params posted token => cases h
  | disconnected => cases h
  | _ => rfl

theorem spaced_of_staleFor {earlier later : Finished} {held : Option RuntimeAccessToken}
    (h : StaleFor (earlier.after held) later) : Spaced earlier later := by
  cases earlier with
  | generated now params posted token =>
    cases later with
    | generated now' params' posted' token' =>
      have hstale : token.isUsable now' = false := h token rfl
      exact not_lt.mp (of_decide_eq_false hstale)
    | _ => trivial
  | _ => cases later <;> trivial

/-- The changes that a cache allows are spaced, from the token that it holds on. -/
theorem changes_isChain {manager : DhanAuthManager} {log : List Finished}
    {held : Option RuntimeAccessToken} (h : Along cacheStep (Finished.Allowed manager) held log) :
    (log.filter Finished.changes).IsChain Spaced ∧
      ∀ f ∈ (log.filter Finished.changes).head?, StaleFor held f := by
  induction log generalizing held with
  | nil => exact ⟨List.isChain_nil, fun f hf => by cases hf⟩
  | cons f log ih =>
    obtain ⟨hallowed, hrest⟩ := h
    obtain ⟨hchain, hhead⟩ := ih hrest
    cases hchanges : f.changes with
    | false =>
      rw [List.filter_cons_of_neg (by simp [hchanges])]
      have hsame : (cacheStep held f).1 = held := after_of_not_changes hchanges held
      rw [hsame] at hhead
      exact ⟨hchain, hhead⟩
    | true =>
      rw [List.filter_cons_of_pos hchanges]
      refine ⟨List.isChain_cons.mpr ⟨fun g hg => spaced_of_staleFor (hhead g hg), hchain⟩, ?_⟩
      intro g hg
      cases hg
      cases f with
      | generated now params posted token => exact hallowed.1
      | _ => trivial

/-- **Tokens are generated one after the other**: between two generations in a row without a disconnect
    between them, the second reads the clock when the first token has at most five minutes left. -/
theorem generations_spaced (manager : DhanAuthManager) (turns : List (Lib.Turn Request Occasion)) :
    ((logOf manager turns).filter Finished.changes).IsChain Spaced :=
  (changes_isChain (caching_run manager turns).memory.2).1

end ApexScan.Dhan.Auth
