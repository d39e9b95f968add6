import ApexScan.Lib.Check
import ApexScan.Schemas.MarketData

/-!
# Reading JSON fields (the pydantic boundary of `app/market_ipc`)

The models of the wire are validated from JSON in strict mode.  What `json.loads` and pydantic's own
parser make of bytes, and how datetime, date and decimal texts are read, is outside this
repository: `Parsers` holds these functions, without any assumption about them.  What the
repository's models ask of the parsed fields (types, lengths, ranges, validators) is defined here.

* `Json` — parsed JSON; `Parsers` — the parsing functions.
* `required`, `withDefault`, `nullable` — how a model reads a field.
* `requireAware` — the validator shared by all timestamps: a naive one is rejected, and
  `astimezone(UTC)` raises `OverflowError` where the instant leaves the years 1 to 9999.
* `overflowsAt` — the only way any of these models lets an exception through.
-/

set_option autoImplicit false

namespace ApexScan.Ipc

open Lib

/-- Parsed JSON.  A float is a rational or not finite; an object lists its members. -/
inductive Json where
  | null
  | bool (b : Bool)
  | int (n : Int)
  | float (q : Option ℚ)
  | str (s : String)
  | arr (items : List Json)
  | obj (members : List (String × Json))

/-- A parsed datetime: its UTC instant, which may lie outside the range of `datetime`, and whether
    it carries an offset. -/
structure WireDatetime where
  utc : Int
  aware : Bool

/-- The parsers outside the repository: `json.loads` and pydantic's JSON parser (`none` when they
    reject), strict-mode readers of single values, and `str.upper`. -/
structure Parsers where
  loads : ByteArray → Option Json
  parse : ByteArray → Option Json
  parseText : String → Option Json
  datetime : Json → Option WireDatetime
  date : Json → Option Int
  decimal : Json → Option ℚ
  upper : String → String

/-- The members of an object. -/
def Json.members? : Json → Option (List (String × Json))
  | obj members => some members
  | _ => none

/-- `data.get(name)`. -/
def Json.get? (j : Json) (name : String) : Option Json := do
  let members ← j.members?
  (members.find? fun m => m.1 = name).map (·.2)

/-! ## Strings -/

/-- The Unicode property `White_Space`. -/
def isWhiteSpace (c : Char) : Bool :=
  let n := c.toNat
  (9 ≤ n && n ≤ 13) || n == 32 || n == 0x85 || n == 0xA0 || n == 0x1680 ||
    (0x2000 ≤ n && n ≤ 0x200A) || n == 0x2028 || n == 0x2029 || n == 0x202F || n == 0x205F ||
    n == 0x3000

/-- `str_strip_whitespace`. -/
def strip (s : String) : String :=
  String.ofList (((s.toList.dropWhile isWhiteSpace).reverse.dropWhile isWhiteSpace).reverse)

/-- A strict string, stripped. -/
def strictStr : Json → Check String
  | .str s => .ok (strip s)
  | _ => .invalid

/-- A strict, stripped, non-empty string. -/
def nonEmptyStr (j : Json) : Check {s : String // 1 ≤ s.length} :=
  (strictStr j).andThen (Check.guard _)

/-- A strict, stripped string of 1 to 128 characters. -/
abbrev ShortText := {s : String // 1 ≤ s.length ∧ s.length ≤ 128}

def shortText (j : Json) : Check ShortText := (strictStr j).andThen (Check.guard _)

/-! ## Numbers, times and enumerations -/

/-- A strict integer; JSON booleans and floats are rejected. -/
def strictInt : Json → Check Int
  | .int n => .ok n
  | _ => .invalid

/-- A strict integer with `ge=0`. -/
def strictNat : Json → Check ℕ
  | .int n => if 0 ≤ n then .ok n.toNat else .invalid
  | _ => .invalid

variable (P : Parsers)

/-- A `Decimal` with `gt=0`. -/
def price (j : Json) : Check Price := (Check.ofOption (P.decimal j)).andThen (Check.guard _)

def strictDate (j : Json) : Check Int := Check.ofOption (P.date j)

/-- The instants that `datetime` can hold in UTC: years 1 to 9999. -/
def inDatetimeRange (utc : Int) : Bool := decide (-719162 * day ≤ utc ∧ utc < 2932897 * day)

/-- `_require_aware`, `_require_aware_timestamp`. -/
def requireAware (dt : WireDatetime) : Check Int :=
  if dt.aware = false then .invalid else if inDatetimeRange dt.utc then .ok dt.utc else .raised

/-- A timestamp field. -/
def timestamp (j : Json) : Check Int := (Check.ofOption (P.datetime j)).andThen requireAware

/-- A string enumeration, by its value. -/
def strEnum {α : Type} (values : List (String × α)) : Json → Check α
  | .str s => Check.ofOption ((values.find? fun v => v.1 = s).map (·.2))
  | _ => .invalid

/-! ## Fields of a model -/

section Fields

variable {α : Type}

/-- A required field. -/
def required (j : Json) (name : String) (f : Json → Check α) : Check α :=
  match j.get? name with
  | none => .invalid
  | some v => f v

/-- A field with a default. -/
def withDefault (j : Json) (name : String) (default : α) (f : Json → Check α) : Check α :=
  match j.get? name with
  | none => .ok default
  | some v => f v

/-- `T | None`. -/
def nullable (f : Json → Check α) : Json → Check (Option α)
  | .null => .ok none
  | v => some <$> f v

/-- An optional field with default `None`. -/
def optional (j : Json) (name : String) (f : Json → Check α) : Check (Option α) :=
  withDefault j name none (nullable f)

/-- A model reads objects only; `extra="forbid"` rejects members it does not name. -/
def modelKeys (j : Json) (names : Option (List String)) : Check Unit :=
  match j.members?, names with
  | none, _ => .invalid
  | some _, none => .ok ()
  | some members, some names => if members.all fun m => m.1 ∈ names then .ok () else .invalid

end Fields

/-! ## Exceptions -/

/-- The field is a datetime with an offset whose UTC instant leaves the range of `datetime`. -/
def overflowsAt (j : Json) (name : String) : Bool :=
  match (j.get? name).bind P.datetime with
  | some dt => dt.aware && !inDatetimeRange dt.utc
  | none => false

section Raising

open Check

variable {P} {α : Type}

@[simp] theorem isRaised_strictStr (j : Json) : (strictStr j).isRaised = false := by
  cases j <;> rfl

@[simp] theorem isRaised_nonEmptyStr (j : Json) : (nonEmptyStr j).isRaised = false := by
  rw [nonEmptyStr, isRaised_andThen _ fun _ => isRaised_guard _ _]
  exact isRaised_strictStr j

@[simp] theorem isRaised_shortText (j : Json) : (shortText j).isRaised = false := by
  rw [shortText, isRaised_andThen _ fun _ => isRaised_guard _ _]
  exact isRaised_strictStr j

@[simp] theorem isRaised_strictInt (j : Json) : (strictInt j).isRaised = false := by
  cases j <;> rfl

@[simp] theorem isRaised_strictNat (j : Json) : (strictNat j).isRaised = false := by
  cases j with
  | int n =>
    simp only [strictNat]
    split <;> rfl
  | _ => rfl

@[simp] theorem isRaised_price (j : Json) : (price P j).isRaised = false := by
  rw [price, isRaised_andThen _ fun _ => isRaised_guard _ _]
  exact isRaised_ofOption _

@[simp] theorem isRaised_strictDate (j : Json) : (strictDate P j).isRaised = false :=
  isRaised_ofOption _

@[simp] theorem isRaised_strEnum (values : List (String × α)) (j : Json) :
    (strEnum values j).isRaised = false := by
  cases j with
  | str s => exact isRaised_ofOption _
  | _ => rfl

@[simp] theorem isRaised_modelKeys (j : Json) (names : Option (List String)) :
    (modelKeys j names).isRaised = false := by
  unfold modelKeys
  split
  · rfl
  · rfl
  · split <;> rfl

theorem isRaised_required (j : Json) (name : String) {f : Json → Check α} (h : NeverRaises f) :
    (required j name f).isRaised = false := by
  unfold required
  split
  · rfl
  · exact h _

theorem isRaised_withDefault (j : Json) (name : String) (d : α) {f : Json → Check α}
    (h : NeverRaises f) : (withDefault j name d f).isRaised = false := by
  unfold withDefault
  split
  · rfl
  · exact h _

theorem isRaised_optional (j : Json) (name : String) {f : Json → Check α} (h : NeverRaises f) :
    (optional j name f).isRaised = false := by
  refine isRaised_withDefault j name none fun v => ?_
  cases v with
  | null => rfl
  | _ => exact (isRaised_map _ _).trans (h _)

/-- A timestamp field raises exactly when it overflows. -/
theorem isRaised_timestamp_field (j : Json) (name : String) :
    (required j name (timestamp P)).isRaised = overflowsAt P j name := by
  unfold required overflowsAt
  cases hv : j.get? name with
  | none => rfl
  | some v =>
    simp only [Option.bind_some, timestamp]
    cases hd : P.datetime v with
    | none => rfl
    | some dt =>
      simp only [ofOption, andThen, requireAware]
      cases ha : dt.aware with
      | false => simp
      | true => cases hr : inDatetimeRange dt.utc <;> simp

end Raising

end ApexScan.Ipc
