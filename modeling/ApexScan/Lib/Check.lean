import Mathlib.Logic.Basic

/-!
# Validation that collects errors and lets other exceptions through

A model validates all its fields in order.  Validation errors are collected, so the later fields
are validated all the same; any other exception leaves the validation at once.  What a caller can
tell apart is therefore: a value, a validation error, or an exception (`raised`), and an exception
of any field wins over the errors of the others.

* `Check` with `map`, `ap` (fields side by side) and `andThen` (a validator that runs only on a
  valid value).
* `isRaised_ap`, `isRaised_andThen` — which exceptions a composed validation lets through.
* `NeverRaises` — validators that only accept or reject.
-/

set_option autoImplicit false

namespace ApexScan.Lib

/-- The outcome of a validation. -/
inductive Check (α : Type) where
  | ok (a : α)
  | invalid
  | raised

namespace Check

variable {α β γ : Type}

def isRaised : Check α → Bool
  | raised => true
  | _ => false

def map (f : α → β) : Check α → Check β
  | ok a => ok (f a)
  | invalid => invalid
  | raised => raised

/-- Two validations side by side: both are run. -/
def ap (f : Check (α → β)) (x : Check α) : Check β :=
  match f, x with
  | ok f, ok a => ok (f a)
  | raised, _ => raised
  | _, raised => raised
  | _, _ => invalid

instance : Functor Check where
  map := map

instance : Seq Check where
  seq f x := ap f (x ())

/-- A validator that runs only once everything before it is valid. -/
def andThen (x : Check α) (f : α → Check β) : Check β :=
  match x with
  | ok a => f a
  | invalid => invalid
  | raised => raised

/-- A value with a property that is checked. -/
def guard (p : α → Prop) [DecidablePred p] (a : α) : Check {a : α // p a} :=
  if h : p a then ok ⟨a, h⟩ else invalid

/-- A missing value is a validation error. -/
def ofOption : Option α → Check α
  | some a => ok a
  | none => invalid

@[simp] theorem isRaised_ok (a : α) : (ok a).isRaised = false := rfl

@[simp] theorem isRaised_invalid : (invalid : Check α).isRaised = false := rfl

@[simp] theorem isRaised_raised : (raised : Check α).isRaised = true := rfl

theorem isRaised_iff {x : Check α} : x.isRaised = true ↔ x = raised := by
  cases x <;> simp [isRaised]

@[simp] theorem map_ok (f : α → β) (a : α) : f <$> ok a = ok (f a) := rfl

@[simp] theorem map_invalid (f : α → β) : f <$> (invalid : Check α) = invalid := rfl

@[simp] theorem map_raised (f : α → β) : f <$> (raised : Check α) = raised := rfl

@[simp] theorem isRaised_map (f : α → β) (x : Check α) : (f <$> x).isRaised = x.isRaised := by
  cases x <;> rfl

@[simp] theorem isRaised_ap (f : Check (α → β)) (x : Check α) :
    (f <*> x).isRaised = (f.isRaised || x.isRaised) := by
  cases f <;> cases x <;> rfl

@[simp] theorem isRaised_guard (p : α → Prop) [DecidablePred p] (a : α) :
    (guard p a).isRaised = false := by
  unfold guard
  split <;> rfl

@[simp] theorem isRaised_ofOption (o : Option α) : (ofOption o).isRaised = false := by
  cases o <;> rfl

/-- A validator that never lets an exception through. -/
def NeverRaises (f : α → Check β) : Prop := ∀ a, (f a).isRaised = false

theorem isRaised_andThen (x : Check α) {f : α → Check β} (h : NeverRaises f) :
    (x.andThen f).isRaised = x.isRaised := by
  cases x with
  | ok a => exact h a
  | invalid => rfl
  | raised => rfl

end Check

end ApexScan.Lib
