import Mathlib.Algebra.Order.Field.Power
import Mathlib.Algebra.Order.Ring.Rat
import Mathlib.Data.Nat.Cast.Order.Field
import Mathlib.Data.Nat.Log
import Mathlib.Order.WithBot
import Mathlib.Tactic.Linarith
import Mathlib.Tactic.Positivity

/-!
# Rounding natural numbers to significant digits

Naturals rounded half to even to `p` significant digits in base `b`: with base 2 and 53 digits the
value of an IEEE double, with base 10 and 14 digits what `%.14g` prints.

* `roundHalfEven`, `roundSignificant` — the rounding.
* `roundSignificant_eq_self` — a number with at most `p` digits is kept.
* `toDouble` — the double of a natural; `⊤` is infinity.
* `eq_of_toDouble_eq` — a double below `2 ^ 53` comes from one natural only.
* `quotientDouble` — the double of a quotient of naturals, off by at most one part in `2 ^ 52`
  (`quotientDouble_near`).
-/

set_option autoImplicit false

namespace ApexScan.Lib

/-- `n / d`, rounded to the nearest natural, ties to even. -/
def roundHalfEven (n d : ℕ) : ℕ :=
  if 2 * (n % d) < d then n / d
  else if d < 2 * (n % d) then n / d + 1
  else if n / d % 2 = 0 then n / d else n / d + 1

/-- `n` rounded to `p` significant digits in base `b`. -/
def roundSignificant (b p n : ℕ) : ℕ :=
  let unit := b ^ (Nat.log b n + 1 - p)
  roundHalfEven n unit * unit

@[simp] theorem roundHalfEven_one (n : ℕ) : roundHalfEven n 1 = n := by
  simp [roundHalfEven, Nat.mod_one]

theorem roundSignificant_eq_self {b p n : ℕ} (hp : 0 < p) (h : n < b ^ p) :
    roundSignificant b p n = n := by
  have hdigits : Nat.log b n + 1 - p = 0 := by
    have := Nat.log_lt_of_lt_pow' (by omega) h
    omega
  simp [roundSignificant, hdigits]

theorem div_le_roundHalfEven (n d : ℕ) : n / d ≤ roundHalfEven n d := by
  unfold roundHalfEven
  split
  · exact le_refl _
  · split
    · exact Nat.le_succ _
    · split
      · exact le_refl _
      · exact Nat.le_succ _

theorem roundHalfEven_le (n d : ℕ) : roundHalfEven n d ≤ n / d + 1 := by
  unfold roundHalfEven
  split
  · exact Nat.le_succ _
  · split
    · exact le_refl _
    · split
      · exact Nat.le_succ _
      · exact le_refl _

/-- Rounding does not cross the power of the base below a number. -/
theorem pow_log_le_roundSignificant {b p n : ℕ} (hb : 1 < b) (hp : 0 < p) (hn : n ≠ 0) :
    b ^ Nat.log b n ≤ roundSignificant b p n := by
  have hpow : b ^ Nat.log b n ≤ n := Nat.pow_log_le_self b hn
  set k := Nat.log b n + 1 - p with hk
  have hkle : k ≤ Nat.log b n := by omega
  have hpos : 0 < b ^ k := Nat.pow_pos (by omega)
  have hdiv : b ^ (Nat.log b n - k) ≤ n / b ^ k := by
    rw [Nat.le_div_iff_mul_le hpos, ← Nat.pow_add, Nat.sub_add_cancel hkle]
    exact hpow
  calc b ^ Nat.log b n = b ^ (Nat.log b n - k) * b ^ k := by
        rw [← Nat.pow_add, Nat.sub_add_cancel hkle]
    _ ≤ roundHalfEven n (b ^ k) * b ^ k :=
        Nat.mul_le_mul_right _ (hdiv.trans (div_le_roundHalfEven _ _))

/-- The first power of two beyond the doubles is `2 ^ maxExponent`. -/
def maxExponent : ℕ := 1024

/-- The IEEE double nearest to a natural number. -/
def toDouble (n : ℕ) : WithTop ℕ :=
  if roundSignificant 2 53 n < 2 ^ maxExponent then WithTop.some (roundSignificant 2 53 n) else ⊤

theorem toDouble_eq_self {n : ℕ} (h : n < 2 ^ 53) : toDouble n = WithTop.some n := by
  have hexponent : 53 < maxExponent := by decide
  have hbound : n < 2 ^ maxExponent := h.trans (Nat.pow_lt_pow_right (by decide) hexponent)
  rw [toDouble, roundSignificant_eq_self (by decide) h, if_pos hbound]

/-- A double below `2 ^ 53` is the number itself. -/
theorem eq_of_toDouble_eq {n m : ℕ} (h : toDouble n = WithTop.some m) (hm : m < 2 ^ 53) : n = m := by
  by_cases hn : n < 2 ^ 53
  · rw [toDouble_eq_self hn] at h
    exact WithTop.coe_inj.mp h
  · exfalso
    have hn0 : n ≠ 0 := by
      rintro rfl
      exact hn (by decide)
    have hlog : 2 ^ 53 ≤ 2 ^ Nat.log 2 n :=
      Nat.pow_le_pow_right (by decide) (Nat.le_log_of_pow_le (by decide) (not_lt.mp hn))
    have hround := pow_log_le_roundSignificant (p := 53) (by decide : 1 < 2) (by decide) hn0
    unfold toDouble at h
    split at h
    · have := WithTop.coe_inj.mp h
      omega
    · cases h

/-- The double nearest to `n / d`, for positive `n` and `d` far from the limits of the format. -/
def quotientDouble (n d : ℕ) : ℚ :=
  -- the exponent of the leading binary digit is `guess` or one less
  let guess : ℤ := (Nat.log 2 n : ℤ) - Nat.log 2 d
  let exponent := if n * 2 ^ (-guess).toNat < d * 2 ^ guess.toNat then guess - 1 else guess
  let shift := 52 - exponent
  (roundHalfEven (n * 2 ^ shift.toNat) (d * 2 ^ (-shift).toNat) * 2 ^ (-shift).toNat : ℕ) /
    (2 ^ shift.toNat : ℕ)

/-- Rounding moves a quotient by at most one. -/
theorem roundHalfEven_near (n : ℕ) {d : ℕ} (hd : 0 < d) :
    |(roundHalfEven n d : ℚ) - n / d| ≤ 1 := by
  have hd' : (0 : ℚ) < d := Nat.cast_pos.mpr hd
  have hlow : (n / d : ℕ) ≤ roundHalfEven n d := div_le_roundHalfEven n d
  have hhigh := roundHalfEven_le n d
  have hfloor : ((n / d : ℕ) : ℚ) ≤ n / d := Nat.cast_div_le
  have hceil : (n : ℚ) / d < (n / d : ℕ) + 1 := by
    rw [div_lt_iff₀ hd']
    exact_mod_cast Nat.lt_mul_of_div_lt (Nat.lt_succ_self _) hd
  have hlow' : ((n / d : ℕ) : ℚ) ≤ roundHalfEven n d := Nat.cast_le.mpr hlow
  have hhigh' : (roundHalfEven n d : ℚ) ≤ (n / d : ℕ) + 1 := by exact_mod_cast hhigh
  rw [abs_le]
  constructor <;> linarith

theorem two_zpow_eq (k : ℤ) : (2 : ℚ) ^ k = 2 ^ k.toNat / 2 ^ (-k).toNat := by
  rw [← zpow_natCast, ← zpow_natCast, ← zpow_sub₀ two_ne_zero]
  congr 1
  omega

/-- The leading binary digit of a quotient, as `quotientDouble` finds it. -/
theorem two_zpow_le_quotient {n d : ℕ} (hn : 0 < n) (hd : 0 < d) :
    let guess : ℤ := (Nat.log 2 n : ℤ) - Nat.log 2 d
    (2 : ℚ) ^ (if n * 2 ^ (-guess).toNat < d * 2 ^ guess.toNat then guess - 1 else guess) ≤ n / d := by
  intro guess
  have hd' : (0 : ℚ) < d := Nat.cast_pos.mpr hd
  rw [le_div_iff₀ hd']
  split
  · have hlow : (2 : ℚ) ^ Nat.log 2 n ≤ n := by exact_mod_cast Nat.pow_log_le_self 2 hn.ne'
    have hhigh : (d : ℚ) ≤ 2 ^ (Nat.log 2 d + 1) := by
      exact_mod_cast (Nat.lt_pow_succ_log_self (by decide) d).le
    calc (2 : ℚ) ^ (guess - 1) * d ≤ 2 ^ (guess - 1) * 2 ^ (Nat.log 2 d + 1) :=
          mul_le_mul_of_nonneg_left hhigh (by positivity)
      _ = 2 ^ Nat.log 2 n := by
          rw [← zpow_natCast, ← zpow_natCast, ← zpow_add₀ two_ne_zero]
          congr 1
          push_cast
          omega
      _ ≤ n := hlow
  · rename_i hge
    have hpow : (0 : ℚ) < 2 ^ (-guess).toNat := by positivity
    rw [two_zpow_eq, div_mul_eq_mul_div, div_le_iff₀ hpow, mul_comm]
    exact_mod_cast not_lt.mp hge

/-- The double of a quotient is off by at most one part in `2 ^ 52`. -/
theorem quotientDouble_near {n d : ℕ} (hn : 0 < n) (hd : 0 < d) :
    |quotientDouble n d - n / d| * 2 ^ 52 ≤ n / d := by
  have hexponent := two_zpow_le_quotient hn hd
  simp only at hexponent
  unfold quotientDouble
  simp only
  set guess : ℤ := (Nat.log 2 n : ℤ) - Nat.log 2 d
  set exponent : ℤ := if n * 2 ^ (-guess).toNat < d * 2 ^ guess.toNat then guess - 1 else guess
  set shift : ℤ := 52 - exponent with hshift
  set scaled := n * 2 ^ shift.toNat
  set divisor := d * 2 ^ (-shift).toNat
  have hunit : (0 : ℚ) < 2 ^ shift := by positivity
  have hd' : (d : ℚ) ≠ 0 := Nat.cast_ne_zero.mpr hd.ne'
  have hquotient : (scaled : ℚ) / divisor = n / d * 2 ^ shift := by
    rw [two_zpow_eq]
    push_cast [scaled, divisor]
    rw [mul_div_mul_comm]
  have hdouble : ((roundHalfEven scaled divisor * 2 ^ (-shift).toNat : ℕ) : ℚ) /
      (2 ^ shift.toNat : ℕ) = roundHalfEven scaled divisor / 2 ^ shift := by
    rw [two_zpow_eq]
    push_cast
    rw [div_div_eq_mul_div]
  have hnear := roundHalfEven_near scaled (d := divisor) (by positivity)
  have hdiff : ((roundHalfEven scaled divisor : ℚ) / 2 ^ shift - n / d) * 2 ^ shift =
      roundHalfEven scaled divisor - (scaled : ℚ) / divisor := by
    rw [sub_mul, div_mul_cancel₀ _ hunit.ne', hquotient]
  rw [hdouble]
  have hscaled : |(roundHalfEven scaled divisor : ℚ) / 2 ^ shift - n / d| * 2 ^ shift ≤ 1 := by
    calc |(roundHalfEven scaled divisor : ℚ) / 2 ^ shift - n / d| * 2 ^ shift
        = |((roundHalfEven scaled divisor : ℚ) / 2 ^ shift - n / d) * 2 ^ shift| := by
          rw [abs_mul, abs_of_pos hunit]
      _ ≤ 1 := by
          rw [hdiff]
          exact hnear
  have hpow : (2 : ℚ) ^ (52 : ℕ) = 2 ^ shift * 2 ^ exponent := by
    rw [← zpow_add₀ two_ne_zero, ← zpow_natCast]
    congr 1
    omega
  calc |(roundHalfEven scaled divisor : ℚ) / 2 ^ shift - n / d| * 2 ^ 52
      = |(roundHalfEven scaled divisor : ℚ) / 2 ^ shift - n / d| * 2 ^ shift * 2 ^ exponent := by
        rw [hpow, mul_assoc]
    _ ≤ 1 * 2 ^ exponent := mul_le_mul_of_nonneg_right hscaled (by positivity)
    _ = 2 ^ exponent := one_mul _
    _ ≤ n / d := hexponent

end ApexScan.Lib
