import ApexScan.Lib.Interaction
import ApexScan.Lib.Machine

/-!
# Procedures that may be interrupted

A procedure works on a state and makes calls, which its environment answers.  It returns, raises an
exception, or is cancelled, and it keeps what it has done to the state in all three cases.  A handler of
exceptions does not see a cancellation; a cleanup sees both.

* `Ended`, `Procedure` — the procedures, with `catching`, `cleaningUp`, `on` (a part of the state) and
  `build` (an object that the state does not hold yet).
* `wp` — what holds of the calls so far, the state and the end, however the environment answers, with
  one rule for each way to build a procedure.
* `Lived` — one operation after the other, each with its calls and its end; `live` — the life that an
  environment makes; `Lived.along` — a life follows an abstract machine.
-/

set_option autoImplicit false

namespace ApexScan.Lib

/-- How a procedure ends. -/
inductive Ended (ε α : Type) where
  | returned (a : α)
  | raised (e : ε)
  | cancelled
  deriving DecidableEq, Repr

namespace Ended

variable {ε α β : Type}

def map (f : α → β) : Ended ε α → Ended ε β
  | .returned a => .returned (f a)
  | .raised e => .raised e
  | .cancelled => .cancelled

/-- Whether a value with a property is returned. -/
def returns (p : α → Bool) : Ended ε α → Bool
  | .returned a => p a
  | _ => false

def isReturned (e : Ended ε α) : Bool := e.returns fun _ => true

theorem forall_iff {P : Ended ε α → Prop} :
    (∀ e, P e) ↔ (∀ a, P (.returned a)) ∧ (∀ e, P (.raised e)) ∧ P .cancelled := by
  constructor
  · intro h
    exact ⟨fun a => h _, fun e => h _, h _⟩
  · rintro ⟨hreturned, hraised, hcancelled⟩ (a | e | _)
    · exact hreturned a
    · exact hraised e
    · exact hcancelled

section Simp

variable {f : α → β} {p : α → Bool} {a : α} {e : ε}

@[simp] theorem map_returned : (returned a : Ended ε α).map f = .returned (f a) := rfl

@[simp] theorem map_raised : (raised e : Ended ε α).map f = .raised e := rfl

@[simp] theorem map_cancelled : (cancelled : Ended ε α).map f = .cancelled := rfl

@[simp] theorem returns_returned : (returned a : Ended ε α).returns p = p a := rfl

@[simp] theorem returns_raised : (raised e : Ended ε α).returns p = false := rfl

@[simp] theorem returns_cancelled : (cancelled : Ended ε α).returns p = false := rfl

@[simp] theorem isReturned_returned : (returned a : Ended ε α).isReturned = true := rfl

@[simp] theorem isReturned_raised : (raised e : Ended ε α).isReturned = false := rfl

@[simp] theorem isReturned_cancelled : (cancelled : Ended ε α).isReturned = false := rfl

end Simp

end Ended

/-- A procedure over a state `σ`. -/
def Procedure (Q : Type) (A : Q → Type) (σ ε α : Type) : Type :=
  σ → Interaction Q A Empty (σ × Ended ε α)

namespace Procedure

variable {Q : Type} {A : Q → Type} {σ τ ε ε' α β : Type}

/-- The procedure that ends at once. -/
def stop (e : Ended ε α) : Procedure Q A σ ε α := fun s => pure (s, e)

def bind (p : Procedure Q A σ ε α) (f : α → Procedure Q A σ ε β) : Procedure Q A σ ε β := fun s =>
  p s >>= fun
    | (s', .returned a) => f a s'
    | (s', .raised e) => pure (s', .raised e)
    | (s', .cancelled) => pure (s', .cancelled)

instance : Monad (Procedure Q A σ ε) where
  pure a := stop (.returned a)
  bind := bind

def raise (e : ε) : Procedure Q A σ ε α := stop (.raised e)

def get : Procedure Q A σ ε σ := fun s => pure (s, .returned s)

def modify (f : σ → σ) : Procedure Q A σ ε Unit := fun s => pure (f s, .returned ())

/-- A call, which ends as its answer says. -/
def call (q : Q) (ends : A q → Ended ε α) : Procedure Q A σ ε α := fun s =>
  Interaction.request q >>= fun answer => pure (s, ends answer)

/-- The procedure up to its end, as a value. -/
def settled (p : Procedure Q A σ ε α) : Procedure Q A σ ε' (Ended ε α) := fun s =>
  p s >>= fun r => pure (r.1, .returned r.2)

/-- The procedure, with a handler of its exceptions. -/
def catching (p : Procedure Q A σ ε α) (handler : ε → Procedure Q A σ ε' α) : Procedure Q A σ ε' α :=
  p.settled >>= fun
    | .returned a => pure a
    | .raised e => handler e
    | .cancelled => stop .cancelled

/-- The procedure, with a cleanup after an exception or a cancellation, which then goes on. -/
def cleaningUp (p : Procedure Q A σ ε α) (cleanup : Procedure Q A σ ε Unit) : Procedure Q A σ ε α :=
  p.settled >>= fun
    | .returned a => pure a
    | .raised e => cleanup >>= fun _ => raise e
    | .cancelled => cleanup >>= fun _ => stop .cancelled

/-- The procedure, with a last part that is run however it ends. -/
def ensuring (p : Procedure Q A σ ε α) (last : Procedure Q A σ ε Unit) : Procedure Q A σ ε α :=
  p.settled >>= fun e => last >>= fun _ => stop e

/-- A procedure on a part of the state. -/
def on (part : σ → τ) (put : τ → σ → σ) (p : Procedure Q A τ ε α) : Procedure Q A σ ε α := fun s =>
  p (part s) >>= fun r => pure (put r.1 s, r.2)

/-- A procedure on an object that the state does not hold, which is returned. -/
def build (t : τ) (p : Procedure Q A τ ε Unit) : Procedure Q A σ ε τ := fun s =>
  p t >>= fun r => pure (s, r.2.map fun _ => r.1)

/-! ## What holds at the end -/

/-- An assertion on the calls so far, the state and the end of a procedure. -/
abbrev Post (Q : Type) (A : Q → Type) (σ ε α : Type) : Type :=
  List (Exchange Q A) → σ → Ended ε α → Prop

/-- `R` holds of the calls so far, the state and the end, however the calls are answered. -/
def wp (p : Procedure Q A σ ε α) (R : Post Q A σ ε α) (history : List (Exchange Q A)) (s : σ) : Prop :=
  ∀ trace s' e, Interaction.Runs (p s) trace (.ok (s', e)) → R (history ++ trace) s' e

/-- What is left to hold after the first part of a composed procedure. -/
def andThen (f : α → Procedure Q A σ ε β) (R : Post Q A σ ε β) : Post Q A σ ε α
  | history, s, .returned a => wp (f a) R history s
  | history, s, .raised e => R history s (.raised e)
  | history, s, .cancelled => R history s .cancelled

/-- What is left to hold before a handler of exceptions. -/
def orHandled (handler : ε → Procedure Q A σ ε' α) (R : Post Q A σ ε' α) : Post Q A σ ε α
  | history, s, .returned a => R history s (.returned a)
  | history, s, .raised e => wp (handler e) R history s
  | history, s, .cancelled => R history s .cancelled

/-- What is left to hold before a cleanup. -/
def orCleaned (cleanup : Procedure Q A σ ε Unit) (R : Post Q A σ ε α) : Post Q A σ ε α
  | history, s, .returned a => R history s (.returned a)
  | history, s, .raised e => wp cleanup (andThen (fun _ => raise e) R) history s
  | history, s, .cancelled => wp cleanup (andThen (fun _ => stop .cancelled) R) history s

variable {R R' : Post Q A σ ε α} {history : List (Exchange Q A)} {s : σ}

section Simp

variable {handler : ε → Procedure Q A σ ε' α} {cleanup : Procedure Q A σ ε Unit}
  {f : α → Procedure Q A σ ε β} {a : α} {e : ε}

@[simp] theorem andThen_returned {R : Post Q A σ ε β} :
    andThen f R history s (.returned a) ↔ wp (f a) R history s :=
  Iff.rfl

@[simp] theorem andThen_raised {R : Post Q A σ ε β} :
    andThen f R history s (.raised e) ↔ R history s (.raised e) :=
  Iff.rfl

@[simp] theorem andThen_cancelled {R : Post Q A σ ε β} :
    andThen f R history s .cancelled ↔ R history s .cancelled :=
  Iff.rfl

@[simp] theorem orHandled_returned {R : Post Q A σ ε' α} :
    orHandled handler R history s (.returned a) ↔ R history s (.returned a) :=
  Iff.rfl

@[simp] theorem orHandled_raised {R : Post Q A σ ε' α} :
    orHandled handler R history s (.raised e) ↔ wp (handler e) R history s :=
  Iff.rfl

@[simp] theorem orHandled_cancelled {R : Post Q A σ ε' α} :
    orHandled handler R history s .cancelled ↔ R history s .cancelled :=
  Iff.rfl

@[simp] theorem orCleaned_returned :
    orCleaned cleanup R history s (.returned a) ↔ R history s (.returned a) :=
  Iff.rfl

@[simp] theorem orCleaned_raised :
    orCleaned cleanup R history s (.raised e) ↔ wp cleanup (andThen (fun _ => raise e) R) history s :=
  Iff.rfl

@[simp] theorem orCleaned_cancelled :
    orCleaned cleanup R history s .cancelled ↔
      wp cleanup (andThen (fun _ => stop .cancelled) R) history s :=
  Iff.rfl

end Simp

theorem wp_mono {p : Procedure Q A σ ε α} (himp : ∀ h s e, R h s e → R' h s e)
    (hp : wp p R history s) : wp p R' history s :=
  fun trace s' e hruns => himp _ _ _ (hp trace s' e hruns)

theorem wp_and {p : Procedure Q A σ ε α} (hp : wp p R history s) (hp' : wp p R' history s) :
    wp p (fun h s e => R h s e ∧ R' h s e) history s :=
  fun trace s' e hruns => ⟨hp trace s' e hruns, hp' trace s' e hruns⟩

/-- The calls so far stay. -/
theorem wp_extends {p : Procedure Q A σ ε α} (hp : wp p R history s) :
    wp p (fun h s e => history <+: h ∧ R h s e) history s :=
  fun trace s' e hruns => ⟨List.prefix_append history trace, hp trace s' e hruns⟩

/-- A procedure that answers at once. -/
theorem wp_done {p : Procedure Q A σ ε α} {s' : σ} {e : Ended ε α} (hp : p s = .done (.ok (s', e))) :
    wp p R history s ↔ R history s' e := by
  unfold wp
  rw [hp]
  constructor
  · intro h
    have hend := h [] s' e (.done _)
    rwa [List.append_nil] at hend
  · intro h trace t r hruns
    obtain ⟨rfl, heq⟩ := Interaction.runs_done.mp hruns
    cases heq
    rwa [List.append_nil]

@[simp] theorem wp_stop {e : Ended ε α} : wp (stop e) R history s ↔ R history s e := wp_done rfl

@[simp] theorem wp_pure {a : α} : wp (pure a) R history s ↔ R history s (.returned a) := wp_done rfl

@[simp] theorem wp_raise {e : ε} : wp (raise e) R history s ↔ R history s (.raised e) := wp_done rfl

@[simp] theorem wp_get {R : Post Q A σ ε σ} :
    wp get R history s ↔ R history s (.returned s) :=
  wp_done rfl

@[simp] theorem wp_modify {f : σ → σ} {R : Post Q A σ ε Unit} :
    wp (modify f) R history s ↔ R history (f s) (.returned ()) :=
  wp_done rfl

@[simp] theorem wp_call {q : Q} {ends : A q → Ended ε α} :
    wp (call q ends) R history s ↔ ∀ answer, R (history ++ [⟨q, answer⟩]) s (ends answer) := by
  constructor
  · intro h answer
    exact h _ s (ends answer) (.ask answer (.done _))
  · intro h trace s' e hruns
    obtain ⟨answer, rest, hrest, rfl⟩ := Interaction.runs_bind_request.mp hruns
    obtain ⟨rfl, heq⟩ := Interaction.runs_done.mp hrest
    cases heq
    exact h answer

/-- What follows the run of a procedure and asks nothing. -/
theorem runs_then {p : Interaction Q A Empty (σ × Ended ε α)} {f : σ × Ended ε α → τ × Ended ε' β}
    {trace : List (Exchange Q A)} {t : τ} {e : Ended ε' β} :
    Interaction.Runs (p >>= fun r => pure (f r)) trace (.ok (t, e)) ↔
      ∃ s' e', Interaction.Runs p trace (.ok (s', e')) ∧ f (s', e') = (t, e) := by
  rw [Interaction.runs_bind_ok]
  constructor
  · rintro ⟨⟨s', e'⟩, first, second, hfirst, hsecond, rfl⟩
    obtain ⟨rfl, heq⟩ := Interaction.runs_pure.mp hsecond
    rw [List.append_nil]
    exact ⟨s', e', hfirst, (Except.ok.inj heq).symm⟩
  · rintro ⟨s', e', hruns, hf⟩
    exact ⟨(s', e'), trace, [], hruns, Interaction.runs_pure.mpr ⟨rfl, by rw [hf]⟩,
      (List.append_nil trace).symm⟩

@[simp] theorem wp_bind {p : Procedure Q A σ ε α} {f : α → Procedure Q A σ ε β}
    {R : Post Q A σ ε β} :
    wp (p >>= f) R history s ↔ wp p (andThen f R) history s := by
  have hruns (trace : List (Exchange Q A)) (s' : σ) (e : Ended ε β) :
      Interaction.Runs ((p >>= f) s) trace (.ok (s', e)) ↔
        ∃ t r first second, Interaction.Runs (p s) first (.ok (t, r)) ∧ trace = first ++ second ∧
          match r with
          | .returned a => Interaction.Runs (f a t) second (.ok (s', e))
          | .raised x => second = [] ∧ (s', e) = (t, .raised x)
          | .cancelled => second = [] ∧ (s', e) = (t, .cancelled) := by
    change Interaction.Runs (p s >>= _) trace _ ↔ _
    rw [Interaction.runs_bind_ok]
    constructor
    · rintro ⟨⟨t, r⟩, first, second, hfirst, hsecond, rfl⟩
      refine ⟨t, r, first, second, hfirst, rfl, ?_⟩
      cases r with
      | returned a => exact hsecond
      | raised x =>
        obtain ⟨hnil, heq⟩ := Interaction.runs_pure.mp hsecond
        exact ⟨hnil, Except.ok.inj heq⟩
      | cancelled =>
        obtain ⟨hnil, heq⟩ := Interaction.runs_pure.mp hsecond
        exact ⟨hnil, Except.ok.inj heq⟩
    · rintro ⟨t, r, first, second, hfirst, rfl, hsecond⟩
      refine ⟨(t, r), first, second, hfirst, ?_, rfl⟩
      cases r with
      | returned a => exact hsecond
      | raised x => exact Interaction.runs_pure.mpr ⟨hsecond.1, congrArg _ hsecond.2⟩
      | cancelled => exact Interaction.runs_pure.mpr ⟨hsecond.1, congrArg _ hsecond.2⟩
  constructor
  · intro h first t r hfirst
    cases r with
    | returned a =>
      intro second s' e hsecond
      rw [List.append_assoc]
      exact h _ s' e ((hruns _ _ _).mpr ⟨t, .returned a, first, second, hfirst, rfl, hsecond⟩)
    | raised x =>
      exact h first t _ ((hruns _ _ _).mpr
        ⟨t, .raised x, first, [], hfirst, (List.append_nil first).symm, rfl, rfl⟩)
    | cancelled =>
      exact h first t _ ((hruns _ _ _).mpr
        ⟨t, .cancelled, first, [], hfirst, (List.append_nil first).symm, rfl, rfl⟩)
  · intro h trace s' e htrace
    obtain ⟨t, r, first, second, hfirst, rfl, hsecond⟩ := (hruns trace s' e).mp htrace
    have hleft := h first t r hfirst
    cases r with
    | returned a =>
      rw [← List.append_assoc]
      exact hleft second s' e hsecond
    | raised x =>
      obtain ⟨rfl, heq⟩ := hsecond
      cases heq
      rwa [List.append_nil]
    | cancelled =>
      obtain ⟨rfl, heq⟩ := hsecond
      cases heq
      rwa [List.append_nil]

@[simp] theorem wp_settled {p : Procedure Q A σ ε α}
    {R : Post Q A σ ε' (Ended ε α)} :
    wp p.settled R history s ↔ wp p (fun h s e => R h s (.returned e)) history s := by
  constructor
  · intro h trace s' e hruns
    exact h trace s' _ (runs_then.mpr ⟨s', e, hruns, rfl⟩)
  · intro h trace s' e hruns
    obtain ⟨t, e', hp, heq⟩ := runs_then.mp hruns
    cases heq
    exact h trace t e' hp

@[simp] theorem wp_on {part : σ → τ} {put : τ → σ → σ} {p : Procedure Q A τ ε α} :
    wp (on part put p) R history s ↔ wp p (fun h t e => R h (put t s) e) history (part s) := by
  constructor
  · intro h trace t e hruns
    exact h trace (put t s) e (runs_then.mpr ⟨t, e, hruns, rfl⟩)
  · intro h trace s' e hruns
    obtain ⟨t, e', hp, heq⟩ := runs_then.mp hruns
    cases heq
    exact h trace t e' hp

@[simp] theorem wp_build {t : τ} {p : Procedure Q A τ ε Unit}
    {R : Post Q A σ ε τ} :
    wp (build t p) R history s ↔ wp p (fun h t e => R h s (e.map fun _ => t)) history t := by
  constructor
  · intro h trace t' e hruns
    exact h trace s _ (runs_then.mpr ⟨t', e, hruns, rfl⟩)
  · intro h trace s' e hruns
    obtain ⟨t', e', hp, heq⟩ := runs_then.mp hruns
    cases heq
    exact h trace t' e' hp

@[simp] theorem wp_catching {p : Procedure Q A σ ε α} {handler : ε → Procedure Q A σ ε' α}
    {R : Post Q A σ ε' α} :
    wp (p.catching handler) R history s ↔ wp p (orHandled handler R) history s := by
  rw [catching, wp_bind, wp_settled]
  have hpost : (fun h s e => andThen (fun r => match r with
      | .returned a => pure a
      | .raised x => handler x
      | .cancelled => stop .cancelled) R h s (.returned e)) = orHandled handler R := by
    funext h s e
    cases e with
    | returned a => exact propext wp_pure
    | raised x => rfl
    | cancelled => exact propext wp_stop
  rw [← hpost]

@[simp] theorem wp_cleaningUp {p : Procedure Q A σ ε α} {cleanup : Procedure Q A σ ε Unit} :
    wp (p.cleaningUp cleanup) R history s ↔ wp p (orCleaned cleanup R) history s := by
  rw [cleaningUp, wp_bind, wp_settled]
  have hpost : (fun h s e => andThen (fun r => match r with
      | .returned a => pure a
      | .raised x => cleanup >>= fun _ => raise x
      | .cancelled => cleanup >>= fun _ => stop .cancelled) R h s (.returned e)) =
        orCleaned cleanup R := by
    funext h s e
    cases e with
    | returned a => exact propext wp_pure
    | raised x => exact propext wp_bind
    | cancelled => exact propext wp_bind
  rw [← hpost]

@[simp] theorem wp_ensuring {p : Procedure Q A σ ε α} {last : Procedure Q A σ ε Unit} :
    wp (p.ensuring last) R history s ↔
      wp p (fun h s e => wp last (andThen (fun _ => stop e) R) h s) history s := by
  rw [ensuring, wp_bind, wp_settled]
  have hpost : (fun h s e => andThen (fun e => last >>= fun _ => stop e) R h s (.returned e)) =
      fun h s e => wp last (andThen (fun _ => stop e) R) h s := by
    funext h s e
    exact propext wp_bind
  rw [hpost]

/-! ## One operation after the other -/

/-- An operation, with its calls and its end. -/
structure Step (Q : Type) (A : Q → Type) (η ε α : Type) where
  operation : η
  trace : List (Exchange Q A)
  ended : Ended ε α

variable {η : Type} {perform : η → Procedure Q A σ ε α}

/-- The operations that have been performed between two states. -/
inductive Lived (perform : η → Procedure Q A σ ε α) : σ → List (Step Q A η ε α) → σ → Prop where
  | nil (s : σ) : Lived perform s [] s
  | cons {s s' s'' : σ} {step : Step Q A η ε α} {steps : List (Step Q A η ε α)}
      (first : Interaction.Runs (perform step.operation s) step.trace (.ok (s', step.ended)))
      (rest : Lived perform s' steps s'') : Lived perform s (step :: steps) s''

/-- **A life follows an abstract machine** if every operation does, where the invariant ties the calls
so far and the state to the state of the machine. -/
theorem Lived.along {φ : Type} {next : φ → Step Q A η ε α → φ × Unit}
    {Allowed : φ → Step Q A η ε α → Prop} {I : φ → List (Exchange Q A) → σ → Prop}
    (hstep : ∀ phase operation history s, I phase history s →
      wp (perform operation) (fun trace s' e => Allowed phase ⟨operation, trace, e⟩ ∧
        I (next phase ⟨operation, trace, e⟩).1 (history ++ trace) s') [] s)
    {steps : List (Step Q A η ε α)} {s s' : σ} (hlived : Lived perform s steps s') {phase : φ}
    (hI : I phase history s) :
    Along next Allowed phase steps ∧
      I (run next phase steps) (history ++ steps.flatMap Step.trace) s' := by
  induction hlived generalizing history phase with
  | nil s =>
    rw [List.flatMap_nil, List.append_nil]
    exact ⟨trivial, hI⟩
  | cons first _ ih =>
    obtain ⟨hallowed, hnext⟩ := hstep phase _ history _ hI _ _ _ first
    obtain ⟨halong, hend⟩ := ih hnext
    rw [List.flatMap_cons, ← List.append_assoc]
    exact ⟨⟨hallowed, halong⟩, hend⟩

/-- The life that an environment makes of a list of operations. -/
def live (perform : η → Procedure Q A σ ε α) (env : List (Exchange Q A) → (q : Q) → A q) :
    σ → List η → List (Step Q A η ε α) × σ
  | s, [] => ([], s)
  | s, operation :: operations =>
    match Interaction.exec env (perform operation s) [] with
    | (trace, .ok (s', e)) =>
      let rest := live perform env s' operations
      (⟨operation, trace, e⟩ :: rest.1, rest.2)
    | (_, .error e) => e.elim

theorem live_lived (env : List (Exchange Q A) → (q : Q) → A q) (s : σ) (operations : List η) :
    Lived perform s (live perform env s operations).1 (live perform env s operations).2 := by
  induction operations generalizing s with
  | nil => exact .nil s
  | cons operation operations ih =>
    have hruns := Interaction.exec_runs env (perform operation s) []
    rw [live]
    split
    · rename_i trace s' e hexec
      rw [hexec] at hruns
      exact .cons hruns (ih s')
    · rename_i e _
      exact e.elim

end Procedure

end ApexScan.Lib
