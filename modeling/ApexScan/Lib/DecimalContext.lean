import ApexScan.Lib.Rounding
import Mathlib.Algebra.Field.Rat
import Mathlib.Algebra.Order.Field.Power
import Mathlib.Data.Int.Log
import Mathlib.Data.Rat.Floor
import Mathlib.Tactic.NormNum
import Mathlib.Tactic.Positivity

/-!
# Decimal contexts

The result of a decimal operation is its exact value rounded by the context: to `prec` significant
digits, half to even, and no finer than the smallest subnormal.  A result whose leading digit lies
beyond `emax` is an `Overflow`, which the default context raises.  Values are rationals, so trailing
zeros and the sign of a zero are not told apart.

* `DecimalContext.round` — the rounding of a result; `none` is a raised `Overflow`.
* `DecimalContext.round_eq_self` — a value the context represents is kept.
* `DecimalContext.Represents.neg` — negation keeps what is representable.
* `DecimalContext.represents_natCast` — whole numbers of at most `prec` digits.
-/

set_option autoImplicit false

namespace ApexScan.Lib

/-- `q` rounded to an integer, ties to even. -/
def roundInteger (q : ℚ) : ℤ := q.num.sign * roundHalfEven q.num.natAbs q.den

@[simp] theorem roundInteger_intCast (m : ℤ) : roundInteger m = m := by
  unfold roundInteger
  rw [Rat.num_intCast, Rat.den_intCast, roundHalfEven_one]
  exact Int.sign_mul_natAbs m

/-- `prec`, `Emin` and `Emax`. -/
structure DecimalContext where
  prec : ℕ
  emin : ℤ
  emax : ℤ

namespace DecimalContext

/-- `decimal.DefaultContext`. -/
def default : DecimalContext := ⟨28, -999999, 999999⟩

/-- `Decimal.adjusted`: the exponent of the leading digit. -/
def adjusted (q : ℚ) : ℤ := Int.log 10 |q|

/-- `Etiny`: the exponent of the smallest subnormal. -/
def etiny (c : DecimalContext) : ℤ := c.emin - c.prec + 1

/-- The exponent of the last digit that a result keeps. -/
def lastDigit (c : DecimalContext) (q : ℚ) : ℤ := max (adjusted q - c.prec + 1) c.etiny

/-- A result as the context gives it. -/
def round (c : DecimalContext) (q : ℚ) : Option ℚ :=
  let unit := (10 : ℚ) ^ c.lastDigit q
  let rounded := roundInteger (q / unit) * unit
  if adjusted rounded ≤ c.emax then some rounded else none

/-- The context has a decimal of this value. -/
def Represents (c : DecimalContext) (q : ℚ) : Prop :=
  adjusted q ≤ c.emax ∧ ∃ m e : ℤ, q = m * 10 ^ e ∧ |m| < 10 ^ c.prec ∧ c.etiny ≤ e

theorem Represents.neg {c : DecimalContext} {q : ℚ} (h : c.Represents q) : c.Represents (-q) := by
  obtain ⟨hmax, m, e, hq, hm, he⟩ := h
  refine ⟨?_, -m, e, ?_, ?_, he⟩
  · rwa [adjusted, abs_neg]
  · rw [hq, Int.cast_neg, neg_mul]
  · rwa [abs_neg]

/-- A whole number of at most `prec` digits is representable. -/
theorem represents_natCast {c : DecimalContext} (hmax : 0 ≤ c.emax) (hprec : c.prec ≤ c.emax + 1)
    (htiny : c.etiny ≤ 0) {n : ℕ} (h : n < 10 ^ c.prec) : c.Represents n := by
  refine ⟨?_, n, 0, ?_, ?_, htiny⟩
  · rw [adjusted, abs_of_nonneg n.cast_nonneg, Int.log_natCast]
    by_cases hn : n = 0
    · rw [hn, Nat.log_zero_right]
      exact hmax
    · have := Nat.log_lt_of_lt_pow hn h
      omega
  · rw [zpow_zero, mul_one, Int.cast_natCast]
  · rw [Nat.abs_cast]
    exact_mod_cast h

/-- The last digit of a representable value is kept. -/
theorem lastDigit_le {c : DecimalContext} {m e : ℤ} (hm : |m| < 10 ^ c.prec) (he : c.etiny ≤ e)
    (hne : m ≠ 0) : c.lastDigit (m * 10 ^ e) ≤ e := by
  apply max_le _ he
  have hpos : 0 < |(m : ℚ) * 10 ^ e| := by
    have : (m : ℚ) ≠ 0 := by exact_mod_cast hne
    positivity
  have hbound : |(m : ℚ) * 10 ^ e| < ((10 : ℕ) : ℚ) ^ (e + c.prec) := by
    rw [abs_mul, abs_of_pos (by positivity : (0 : ℚ) < 10 ^ e), Nat.cast_ofNat,
      zpow_add₀ (by norm_num), zpow_natCast, mul_comm]
    apply mul_lt_mul_of_pos_left _ (by positivity)
    exact_mod_cast hm
  have hlog : adjusted (m * 10 ^ e) < e + c.prec :=
    (Int.lt_zpow_iff_log_lt (by decide) hpos).mp hbound
  omega

/-- **A value that the context represents is not changed by it.** -/
theorem round_eq_self {c : DecimalContext} {q : ℚ} (h : c.Represents q) : c.round q = some q := by
  obtain ⟨hmax, m, e, rfl, hm, he⟩ := h
  have hkept : roundInteger ((m * 10 ^ e : ℚ) / 10 ^ c.lastDigit (m * 10 ^ e)) *
      (10 : ℚ) ^ c.lastDigit (m * 10 ^ e) = m * 10 ^ e := by
    by_cases hne : m = 0
    · simp [hne, roundInteger]
    · obtain ⟨k, hk⟩ := Int.eq_ofNat_of_zero_le (sub_nonneg.mpr (lastDigit_le hm he hne))
      -- the value is a whole number of units of the last digit kept
      have hwhole : (m * 10 ^ e : ℚ) / 10 ^ c.lastDigit (m * 10 ^ e) = ((m * 10 ^ k : ℤ) : ℚ) := by
        rw [mul_div_assoc, ← zpow_sub₀ (by norm_num), hk, zpow_natCast]
        push_cast
        rfl
      rw [hwhole, roundInteger_intCast, ← hwhole, div_mul_cancel₀]
      positivity
  unfold round
  simp only [hkept, hmax, if_true]

end DecimalContext

end ApexScan.Lib
