import Mathlib.Data.Nat.Notation

/-!
# ISO dates

Calendar dates are day numbers, day 0 being 1970-01-01; `isoformat` is the text of a date in the
proleptic Gregorian calendar.
-/

set_option autoImplicit false

namespace ApexScan.Lib

/-- `n` in decimal, with zeros in front up to `width` digits. -/
def padded (width n : ℕ) : String :=
  String.ofList (List.replicate (width - (toString n).length) '0') ++ toString n

/-- `date.isoformat` of a day number, for the years 1 to 9999. -/
def isoformat (date : Int) : String :=
  -- counted in 400-year eras from 1 March of the year 0
  let shifted := date + 719468
  let dayOfEra := shifted % 146097
  let yearOfEra := (dayOfEra - dayOfEra / 1460 + dayOfEra / 36524 - dayOfEra / 146096) / 365
  let dayOfYear := dayOfEra - (365 * yearOfEra + yearOfEra / 4 - yearOfEra / 100)
  let marchMonth := (5 * dayOfYear + 2) / 153
  let dayOfMonth := dayOfYear - (153 * marchMonth + 2) / 5 + 1
  let month := if marchMonth < 10 then marchMonth + 3 else marchMonth - 9
  let year := yearOfEra + shifted / 146097 * 400 + if month ≤ 2 then 1 else 0
  padded 4 year.toNat ++ "-" ++ padded 2 month.toNat ++ "-" ++ padded 2 dayOfMonth.toNat

example : [isoformat 20490, isoformat 11016, isoformat (-719162)] =
    ["2026-02-06", "2000-02-29", "0001-01-01"] := by
  decide +kernel

end ApexScan.Lib
