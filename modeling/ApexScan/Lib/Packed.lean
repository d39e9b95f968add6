import ApexScan.Lib.Rounding
import Mathlib.Data.Int.Log
import Mathlib.Data.Nat.Digits.Defs
import Mathlib.Data.Rat.Floor
import Mathlib.Tactic.NormNum

/-!
# Packed binary numbers

Numbers laid out in a byte string, least significant byte first and without padding.

* `naturalAt`, `integerAt` — unsigned and two's complement integers; each reads its own bytes only.
* `single` — the value of an IEEE single; `none` is an infinity or not a number.
* `doubleOf`, `singleOf` — the double and the single nearest to a rational; `none` is an overflow.
* `shortestDecimal` — the decimal that a float is printed as: of the decimals that read back as the
  same double, the shortest, and of these the nearest.
* `shortestDecimal_pos` — a positive number is printed as a positive decimal.
-/

set_option autoImplicit false

namespace ApexScan.Lib

/-- The natural in `width` bytes from `offset` on. -/
def naturalAt (bytes : List UInt8) (offset width : ℕ) : ℕ :=
  Nat.ofDigits 256 (((bytes.drop offset).take width).map (·.toNat))

/-- The two's complement integer in `width` bytes from `offset` on. -/
def integerAt (bytes : List UInt8) (offset width : ℕ) : Int :=
  Int.bmod (naturalAt bytes offset width) (2 ^ (8 * width))

/-- A field depends on its own bytes only. -/
theorem naturalAt_append {bytes : List UInt8} {offset width : ℕ} (rest : List UInt8)
    (h : offset + width ≤ bytes.length) :
    naturalAt (bytes ++ rest) offset width = naturalAt bytes offset width := by
  unfold naturalAt
  rw [List.drop_append_of_le_length (by omega),
    List.take_append_of_le_length (by rw [List.length_drop]; omega)]

theorem integerAt_append {bytes : List UInt8} {offset width : ℕ} (rest : List UInt8)
    (h : offset + width ≤ bytes.length) :
    integerAt (bytes ++ rest) offset width = integerAt bytes offset width := by
  unfold integerAt
  rw [naturalAt_append rest h]

/-- The IEEE single with these 32 bits. -/
def single (bits : ℕ) : Option ℚ :=
  let sign : ℚ := if bits / 2 ^ 31 % 2 = 0 then 1 else -1
  let exponent := bits / 2 ^ 23 % 2 ^ 8
  let fraction := bits % 2 ^ 23
  if exponent = 255 then none
  else
    -- a subnormal has the exponent of the smallest normals and no leading one
    let significand := if exponent = 0 then fraction else 2 ^ 23 + fraction
    let shift := max 1 exponent
    some (sign * (significand * 2 ^ (shift - 150) : ℕ) / (2 ^ (150 - shift) : ℕ))

/-- The IEEE single in the four bytes from `offset` on. -/
def singleAt (bytes : List UInt8) (offset : ℕ) : Option ℚ := single (naturalAt bytes offset 4)

/-! ## Conversion -/

/-- The binary float nearest to `x`, of `precision` digits and an exponent from `least` to `greatest`,
    ties to even. -/
def nearestFloat (precision : ℕ) (least greatest : ℤ) (x : ℚ) : Option ℚ :=
  -- below the least exponent the digits keep their place, as in a subnormal
  let unit : ℚ := 2 ^ (max (Int.log 2 |x|) least - precision + 1)
  let scaled := |x| / unit
  let value := roundHalfEven scaled.num.toNat scaled.den * unit
  if value < 2 ^ (greatest + 1) then some (if x < 0 then -value else value) else none

def doubleOf (x : ℚ) : Option ℚ := nearestFloat 53 (-1022) 1023 x

def singleOf (x : ℚ) : Option ℚ := nearestFloat 24 (-126) 127 x

example : (doubleOf 212.37).bind singleOf = some 212.3699951171875 := by decide +kernel

/-! ## Printing -/

/-- The unit of the last of `digits + 1` significant decimal digits of `x`. -/
def decimalUnit (x : ℚ) (digits : ℕ) : ℚ := 10 ^ (Int.log 10 x - digits)

/-- The decimal of `digits + 1` digits nearest to `x` that reads back as `x`, ties to even. -/
def decimalNear (x : ℚ) (digits : ℕ) : Option ℚ :=
  let unit := decimalUnit x digits
  let low := ⌊x / unit⌋₊
  let decimal := fun n : ℕ => n * unit
  let readsBack := fun n => decide (quotientDouble (decimal n).num.toNat (decimal n).den = x)
  match readsBack low, readsBack (low + 1) with
  | true, true =>
    let below := x - decimal low
    let above := decimal (low + 1) - x
    if below < above ∨ (below = above ∧ low % 2 = 0) then some (decimal low)
    else some (decimal (low + 1))
  | true, false => some (decimal low)
  | false, true => some (decimal (low + 1))
  | false, false => none

/-- `repr` of the positive double `x`.  Seventeen digits always read back. -/
def shortestDecimal (x : ℚ) : ℚ := ((List.range 17).findSome? (decimalNear x)).getD x

theorem decimalUnit_pos (x : ℚ) (digits : ℕ) : 0 < decimalUnit x digits := by
  unfold decimalUnit
  exact zpow_pos (by norm_num) _

theorem decimalUnit_le {x : ℚ} (h : 0 < x) (digits : ℕ) : decimalUnit x digits ≤ x := by
  have hlog : (10 : ℚ) ^ Int.log 10 x ≤ x := by
    exact_mod_cast Int.zpow_log_le_self (by decide : 1 < 10) h
  have hle : (10 : ℚ) ^ (Int.log 10 x - digits) ≤ 10 ^ Int.log 10 x := by
    apply zpow_le_zpow_right₀
    · norm_num
    · omega
  exact hle.trans hlog

/-- The leading digit is not zero. -/
theorem one_le_floor_decimalUnit {x : ℚ} (h : 0 < x) (digits : ℕ) :
    1 ≤ ⌊x / decimalUnit x digits⌋₊ := by
  apply Nat.le_floor
  rw [Nat.cast_one, le_div_iff₀ (decimalUnit_pos x digits), one_mul]
  exact decimalUnit_le h digits

theorem decimalNear_pos {x : ℚ} (h : 0 < x) {digits : ℕ} {d : ℚ} (hd : decimalNear x digits = some d) :
    0 < d := by
  have hpos : ∀ n : ℕ, 1 ≤ n → 0 < (n : ℚ) * decimalUnit x digits := by
    intro n hn
    have hcast : (0 : ℚ) < n := by exact_mod_cast hn
    exact mul_pos hcast (decimalUnit_pos x digits)
  have hlow := hpos _ (one_le_floor_decimalUnit h digits)
  have hhigh := hpos (⌊x / decimalUnit x digits⌋₊ + 1) (by omega)
  unfold decimalNear at hd
  simp only at hd
  split at hd
  · split at hd
    · exact Option.some.inj hd ▸ hlow
    · exact Option.some.inj hd ▸ hhigh
  · exact Option.some.inj hd ▸ hlow
  · exact Option.some.inj hd ▸ hhigh
  · cases hd

theorem shortestDecimal_pos {x : ℚ} (h : 0 < x) : 0 < shortestDecimal x := by
  unfold shortestDecimal
  cases hfound : (List.range 17).findSome? (decimalNear x) with
  | none => exact h
  | some d =>
    obtain ⟨_, _, hd⟩ := List.exists_of_findSome?_eq_some hfound
    exact decimalNear_pos h hd

example : (singleAt [0xcd, 0xcc, 0xcc, 0x3d] 0).map shortestDecimal = some 0.10000000149011612 := by
  decide +kernel

end ApexScan.Lib
