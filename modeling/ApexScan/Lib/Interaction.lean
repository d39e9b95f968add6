import Mathlib.Data.List.TakeWhile

/-!
# Programs that ask their environment

A program makes requests one after the other, each chosen by the answers so far, and returns or
raises.  Its environment answers by all that came before, so it may adapt to the program.

* `Interaction` with `bind`, `request`, `raise`, `ofExcept`, `attempt` — the programs.
* `exec` — the exchanges of a program with an environment, and its outcome; `Runs` — what an
  environment can make of a program, with one rule for each way to build one.
* `Traces` — all runs of a program leave exchanges of a kind; `Asks` — their requests satisfy a predicate.
* `RaisesBy` — a program raises exactly in the runs in which an exchange satisfies a predicate.
* `first_split` — the first element with a property splits a list in one way.
-/

set_option autoImplicit false

namespace ApexScan.Lib

/-- A program over requests `Q` with answers `A`, which returns an `α` or raises an `ε`. -/
inductive Interaction (Q : Type) (A : Q → Type) (ε α : Type) where
  | done (outcome : Except ε α)
  | ask (q : Q) (next : A q → Interaction Q A ε α)

/-- A request with its answer. -/
structure Exchange (Q : Type) (A : Q → Type) where
  request : Q
  answer : A request

namespace Interaction

variable {Q : Type} {A : Q → Type} {ε α β : Type}

def bind : Interaction Q A ε α → (α → Interaction Q A ε β) → Interaction Q A ε β
  | .done (.ok a), f => f a
  | .done (.error e), _ => .done (.error e)
  | .ask q next, f => .ask q fun answer => (next answer).bind f

instance : Monad (Interaction Q A ε) where
  pure a := .done (.ok a)
  bind := bind

def request (q : Q) : Interaction Q A ε (A q) := .ask q fun answer => .done (.ok answer)

def raise (e : ε) : Interaction Q A ε α := .done (.error e)

def ofExcept (outcome : Except ε α) : Interaction Q A ε α := .done outcome

/-- The program, with what it raises as a value. -/
def attempt : Interaction Q A ε α → Interaction Q A ε (Except ε α)
  | .done outcome => .done (.ok outcome)
  | .ask q next => .ask q fun answer => (next answer).attempt

/-- The exchanges of a program after a history, and its outcome. -/
def exec (env : List (Exchange Q A) → (q : Q) → A q) :
    Interaction Q A ε α → List (Exchange Q A) → List (Exchange Q A) × Except ε α
  | .done outcome, _ => ([], outcome)
  | .ask q next, history =>
    let exchange : Exchange Q A := ⟨q, env history q⟩
    let rest := exec env (next exchange.answer) (history ++ [exchange])
    (exchange :: rest.1, rest.2)

/-- What some environment can make of a program. -/
inductive Runs : Interaction Q A ε α → List (Exchange Q A) → Except ε α → Prop
  | done (outcome : Except ε α) : Runs (.done outcome) [] outcome
  | ask {q : Q} {next : A q → Interaction Q A ε α} (answer : A q) {trace : List (Exchange Q A)}
      {outcome : Except ε α} (rest : Runs (next answer) trace outcome) :
      Runs (.ask q next) (⟨q, answer⟩ :: trace) outcome

theorem exec_runs (env : List (Exchange Q A) → (q : Q) → A q) (p : Interaction Q A ε α)
    (history : List (Exchange Q A)) : Runs p (exec env p history).1 (exec env p history).2 := by
  induction p generalizing history with
  | done outcome => exact .done outcome
  | ask q next ih => exact .ask _ (ih _ _)

/-! ## Runs of each program -/

variable {trace : List (Exchange Q A)} {outcome : Except ε α}

theorem runs_done {result : Except ε α} :
    Runs (.done result : Interaction Q A ε α) trace outcome ↔ trace = [] ∧ outcome = result := by
  constructor
  · intro h
    cases h
    exact ⟨rfl, rfl⟩
  · rintro ⟨rfl, rfl⟩
    exact .done outcome

theorem runs_pure {a : α} :
    Runs (pure a : Interaction Q A ε α) trace outcome ↔ trace = [] ∧ outcome = .ok a := runs_done

theorem runs_raise {e : ε} :
    Runs (raise e : Interaction Q A ε α) trace outcome ↔ trace = [] ∧ outcome = .error e :=
  runs_done

theorem runs_ofExcept {result : Except ε α} :
    Runs (ofExcept result : Interaction Q A ε α) trace outcome ↔ trace = [] ∧ outcome = result :=
  runs_done

theorem runs_request {q : Q} {result : Except ε (A q)} :
    Runs (request q) trace result ↔ ∃ answer, trace = [⟨q, answer⟩] ∧ result = .ok answer := by
  constructor
  · intro h
    cases h with
    | ask answer rest =>
      obtain ⟨rfl, rfl⟩ := runs_done.mp rest
      exact ⟨answer, rfl, rfl⟩
  · rintro ⟨answer, rfl, rfl⟩
    exact .ask answer (.done _)

/-- A composed program runs its first part, and then the second one if the first has returned. -/
theorem runs_bind {p : Interaction Q A ε α} {f : α → Interaction Q A ε β}
    {result : Except ε β} :
    Runs (p >>= f) trace result ↔
      (∃ e, Runs p trace (.error e) ∧ result = .error e) ∨
        ∃ a first second, Runs p first (.ok a) ∧ Runs (f a) second result ∧
          trace = first ++ second := by
  constructor
  · intro h
    change Runs (bind p f) trace result at h
    induction p generalizing trace with
    | done outcome =>
      cases outcome with
      | error e =>
        obtain ⟨rfl, rfl⟩ := runs_done.mp h
        exact Or.inl ⟨e, .done _, rfl⟩
      | ok a => exact Or.inr ⟨a, [], trace, .done _, h, rfl⟩
    | ask q next ih =>
      cases h with
      | ask answer rest =>
        rcases ih answer rest with ⟨e, hraised, rfl⟩ | ⟨a, first, second, hfirst, hsecond, rfl⟩
        · exact Or.inl ⟨e, .ask answer hraised, rfl⟩
        · exact Or.inr ⟨a, ⟨q, answer⟩ :: first, second, .ask answer hfirst, hsecond, rfl⟩
  · intro h
    change Runs (bind p f) trace result
    rcases h with ⟨e, hraised, rfl⟩ | ⟨a, first, second, hfirst, hsecond, rfl⟩
    · generalize houtcome : (Except.error e : Except ε α) = outcome at hraised
      induction hraised with
      | done outcome =>
        subst houtcome
        exact .done _
      | ask answer _ ih => exact .ask answer (ih houtcome)
    · generalize houtcome : (Except.ok a : Except ε α) = outcome at hfirst
      induction hfirst with
      | done outcome =>
        subst houtcome
        exact hsecond
      | ask answer _ ih => exact .ask answer (ih houtcome)

/-- A composed program that returns has run both parts. -/
theorem runs_bind_ok {p : Interaction Q A ε α} {f : α → Interaction Q A ε β} {b : β} :
    Runs (p >>= f) trace (.ok b) ↔
      ∃ a first second, Runs p first (.ok a) ∧ Runs (f a) second (.ok b) ∧
        trace = first ++ second := by
  rw [runs_bind]
  constructor
  · rintro (⟨e, -, h⟩ | h)
    · cases h
    · exact h
  · exact Or.inr

/-- A composed program whose first part cannot raise. -/
theorem runs_bind_request {q : Q} {f : A q → Interaction Q A ε β} {result : Except ε β} :
    Runs (request q >>= f) trace result ↔
      ∃ answer rest, Runs (f answer) rest result ∧ trace = ⟨q, answer⟩ :: rest := by
  rw [runs_bind]
  constructor
  · rintro (⟨e, h, -⟩ | ⟨a, first, second, h, hsecond, rfl⟩)
    · obtain ⟨_, -, habsurd⟩ := runs_request.mp h
      cases habsurd
    · obtain ⟨answer, rfl, heq⟩ := runs_request.mp h
      cases heq
      exact ⟨_, second, hsecond, rfl⟩
  · rintro ⟨answer, rest, hrest, rfl⟩
    exact Or.inr ⟨answer, [⟨q, answer⟩], rest, runs_request.mpr ⟨answer, rfl, rfl⟩, hrest, rfl⟩

/-- A composed program whose first part asks nothing. -/
theorem runs_bind_ofExcept {first : Except ε α} {f : α → Interaction Q A ε β}
    {result : Except ε β} :
    Runs (ofExcept first >>= f) trace result ↔
      (∃ e, first = .error e ∧ trace = [] ∧ result = .error e) ∨
        ∃ a, first = .ok a ∧ Runs (f a) trace result := by
  cases first with
  | error e =>
    have hdone : Runs (done (.error e) : Interaction Q A ε β) trace result ↔
        trace = [] ∧ result = .error e := runs_done
    refine hdone.trans ?_
    simp
  | ok a =>
    show Runs (f a) trace result ↔ _
    simp

/-- What is attempted runs as it is, and never raises. -/
theorem runs_attempt {p : Interaction Q A ε α} {result : Except ε (Except ε α)} :
    Runs p.attempt trace result ↔ ∃ outcome, Runs p trace outcome ∧ result = .ok outcome := by
  constructor
  · intro h
    induction p generalizing trace with
    | done outcome =>
      obtain ⟨rfl, rfl⟩ := runs_done.mp h
      exact ⟨outcome, .done outcome, rfl⟩
    | ask q next ih =>
      cases h with
      | ask answer rest =>
        obtain ⟨outcome, hruns, rfl⟩ := ih answer rest
        exact ⟨outcome, .ask answer hruns, rfl⟩
  · rintro ⟨outcome, hruns, rfl⟩
    induction hruns with
    | done outcome => exact .done _
    | ask answer _ ih => exact .ask answer ih

/-- A composed program whose first part is attempted goes on whatever the first part does. -/
theorem runs_bind_attempt {p : Interaction Q A ε α} {f : Except ε α → Interaction Q A ε β}
    {result : Except ε β} :
    Runs (p.attempt >>= f) trace result ↔
      ∃ outcome first second, Runs p first outcome ∧ Runs (f outcome) second result ∧
        trace = first ++ second := by
  rw [runs_bind]
  constructor
  · rintro (⟨e, h, -⟩ | ⟨a, first, second, h, hsecond, rfl⟩)
    · obtain ⟨_, -, habsurd⟩ := runs_attempt.mp h
      cases habsurd
    · obtain ⟨outcome, hruns, heq⟩ := runs_attempt.mp h
      cases heq
      exact ⟨_, first, second, hruns, hsecond, rfl⟩
  · rintro ⟨outcome, first, second, hruns, hsecond, rfl⟩
    exact Or.inr ⟨outcome, first, second, runs_attempt.mpr ⟨outcome, hruns, rfl⟩, hsecond, rfl⟩

/-! ## What the traces of a program are like -/

/-- Every run of the program leaves exchanges with `P`. -/
def Traces (P : List (Exchange Q A) → Prop) (p : Interaction Q A ε α) : Prop :=
  ∀ trace outcome, Runs p trace outcome → P trace

theorem traces_done {P : List (Exchange Q A) → Prop} (hnil : P []) (result : Except ε α) :
    Traces P (.done result : Interaction Q A ε α) := by
  intro trace outcome h
  obtain ⟨rfl, -⟩ := runs_done.mp h
  exact hnil

/-- What composed parts have, and appending keeps, the composed program has. -/
theorem traces_bind {P : List (Exchange Q A) → Prop} (happend : ∀ t t', P t → P t' → P (t ++ t'))
    {p : Interaction Q A ε α} {f : α → Interaction Q A ε β} (hp : Traces P p)
    (hf : ∀ a, Traces P (f a)) : Traces P (p >>= f) := by
  intro trace outcome h
  rcases runs_bind.mp h with ⟨e, hraised, -⟩ | ⟨a, first, second, hfirst, hsecond, rfl⟩
  · exact hp _ _ hraised
  · exact happend _ _ (hp _ _ hfirst) (hf a _ _ hsecond)

/-! ## What a program asks -/

/-- Every request of every run satisfies `P`. -/
def Asks (P : Q → Prop) (p : Interaction Q A ε α) : Prop :=
  ∀ trace outcome, Runs p trace outcome → ∀ x ∈ trace, P x.request

variable {P : Q → Prop}

theorem asks_done (result : Except ε α) : Asks P (.done result : Interaction Q A ε α) := by
  intro trace outcome h
  obtain ⟨rfl, -⟩ := runs_done.mp h
  rintro x ⟨⟩

theorem asks_request {q : Q} (h : P q) : Asks P (request q : Interaction Q A ε (A q)) := by
  intro trace outcome hruns x hx
  obtain ⟨answer, rfl, -⟩ := runs_request.mp hruns
  rw [List.mem_singleton.mp hx]
  exact h

theorem asks_bind {p : Interaction Q A ε α} {f : α → Interaction Q A ε β} (hp : Asks P p)
    (hf : ∀ a, Asks P (f a)) : Asks P (p >>= f) := by
  have happend (t t' : List (Exchange Q A)) (ht : ∀ x ∈ t, P x.request) (ht' : ∀ x ∈ t', P x.request) :
      ∀ x ∈ t ++ t', P x.request := by
    intro x hx
    rcases List.mem_append.mp hx with hx | hx
    · exact ht x hx
    · exact ht' x hx
  exact traces_bind happend hp hf

/-! ## When a program raises -/

/-- The program returns in exactly the runs in which no exchange satisfies `E`. -/
def RaisesBy (E : Exchange Q A → Prop) (p : Interaction Q A ε α) : Prop :=
  ∀ trace outcome, Runs p trace outcome → ((∃ a, outcome = .ok a) ↔ ∀ x ∈ trace, ¬ E x)

variable {E : Exchange Q A → Prop}

theorem raisesBy_pure (a : α) : RaisesBy E (pure a : Interaction Q A ε α) := by
  intro trace outcome h
  obtain ⟨rfl, rfl⟩ := runs_pure.mp h
  simp

theorem raisesBy_request {q : Q} (h : ∀ answer, ¬ E ⟨q, answer⟩) :
    RaisesBy E (request q : Interaction Q A ε (A q)) := by
  intro trace outcome hruns
  obtain ⟨answer, rfl, rfl⟩ := runs_request.mp hruns
  simp [h answer]

/-- A request whose answer may turn out to be an exception. -/
theorem raisesBy_ofExcept {q : Q} {f : A q → Except ε α}
    (h : ∀ answer, (∃ a, f answer = .ok a) ↔ ¬ E ⟨q, answer⟩) :
    RaisesBy E (request q >>= fun answer => (ofExcept (f answer) : Interaction Q A ε α)) := by
  intro trace outcome hruns
  obtain ⟨answer, rest, hrest, rfl⟩ := runs_bind_request.mp hruns
  obtain ⟨rfl, rfl⟩ := runs_ofExcept.mp hrest
  rw [h answer]
  simp

theorem raisesBy_bind {p : Interaction Q A ε α} {f : α → Interaction Q A ε β}
    (hp : RaisesBy E p) (hf : ∀ a, RaisesBy E (f a)) : RaisesBy E (p >>= f) := by
  intro trace outcome h
  rcases runs_bind.mp h with ⟨e, hraised, rfl⟩ | ⟨a, first, second, hfirst, hsecond, rfl⟩
  · have hraises := hp _ _ hraised
    constructor
    · rintro ⟨b, hb⟩
      cases hb
    · intro hall
      obtain ⟨a, ha⟩ := hraises.mpr hall
      cases ha
  · have hquiet := (hp _ _ hfirst).mp ⟨a, rfl⟩
    rw [hf a _ _ hsecond]
    constructor
    · intro hall x hx
      rcases List.mem_append.mp hx with hx | hx
      · exact hquiet x hx
      · exact hall x hx
    · intro hall x hx
      exact hall x (List.mem_append_right _ hx)

end Interaction

/-! ## The first element with a property -/

/-- Before the first element with a property there is none, so this splits the list in one way. -/
theorem first_split {α : Type} {p : α → Prop} {first first' rest rest' : List α} {x x' : α}
    (h : first ++ x :: rest = first' ++ x' :: rest') (hx : p x) (hx' : p x')
    (hfirst : ∀ y ∈ first, ¬ p y) (hfirst' : ∀ y ∈ first', ¬ p y) :
    first = first' ∧ x = x' ∧ rest = rest' := by
  induction first generalizing first' with
  | nil =>
    cases first' with
    | nil =>
      cases h
      exact ⟨rfl, rfl, rfl⟩
    | cons y first' =>
      rw [List.nil_append, List.cons_append] at h
      cases h
      exact absurd hx (hfirst' _ List.mem_cons_self)
  | cons y first ih =>
    cases first' with
    | nil =>
      rw [List.nil_append, List.cons_append] at h
      cases h
      exact absurd hx' (hfirst _ List.mem_cons_self)
    | cons z first' =>
      rw [List.cons_append, List.cons_append, List.cons.injEq] at h
      obtain ⟨rfl, h⟩ := h
      obtain ⟨rfl, hsame⟩ := ih h (fun w hw => hfirst w (List.mem_cons_of_mem _ hw))
        fun w hw => hfirst' w (List.mem_cons_of_mem _ hw)
      exact ⟨rfl, hsame⟩

end ApexScan.Lib
