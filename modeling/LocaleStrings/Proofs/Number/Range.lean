import LocaleStrings.Number.Decimal
import Mathlib.Algebra.Order.Field.Rat
import Mathlib.Data.List.TakeWhile
import Mathlib.Data.Nat.Cast.Order.Field
import Mathlib.Tactic.FieldSimp
import Mathlib.Tactic.Linarith
import Mathlib.Tactic.Ring

/-!
# Whole numbers of 64 bits are in range

The arithmetic of literals rounds twice: the significand to a double, and its product with a power
of ten. Neither step does more than double a number, so that a whole number of 64 bits stays far
from the end of the range.

* `Double.toRat`: the number that a double is;
* `Double.toRat_ofRatio_lt`: rounding at most doubles a number;
* `Decimal.value?_of_digits`: a literal of digits that is below 2⁶⁴ has a finite value;
* `Decimal.integer?_of_digits`: and it is read as the number that its digits are.
-/

namespace LocaleStrings

namespace Double

/-- The number that a double is. -/
def toRat (x : Double) : ℚ := x.mant * 2 ^ x.exp

theorem toRatio_pos (x : Double) : 0 < x.toRatio.2 := by
  unfold toRatio
  split
  · exact Nat.one_pos
  · exact Nat.two_pow_pos _

theorem toRatio_div (x : Double) : (x.toRatio.1 : ℚ) / x.toRatio.2 = x.toRat := by
  unfold toRatio toRat
  split
  · next e he => simp [he]
  · next e he => simp [he, zpow_negSucc, div_eq_mul_inv]

theorem lt_two_pow {a b K n : Nat} (hK : K ≤ n) (h : a < 2 ^ K * b) : a < b * Nat.pow 2 n := by
  rw [Nat.mul_comm] at h
  exact h.trans_le (Nat.mul_le_mul_left b (Nat.pow_le_pow_right Nat.two_pos hK))

theorem isInfinite_eq_false {x : Double} {K : Nat} (hK : K ≤ 1024) (h : x.toRat < 2 ^ K) :
    x.isInfinite = false := by
  have hpos : (0 : ℚ) < x.toRatio.2 := by exact_mod_cast x.toRatio_pos
  rw [← toRatio_div, div_lt_iff₀ hpos] at h
  have hlt : x.toRatio.1 < 2 ^ K * x.toRatio.2 := by exact_mod_cast h
  rw [isInfinite, decide_eq_false_iff_not, Nat.not_le]
  generalize 1024 = n at hK ⊢
  exact lt_two_pow hK hlt

/-! ## Rounding -/

theorem roundDiv_le (num den : Nat) : (roundDiv num den : ℚ) ≤ num / den + 1 := by
  have hround : roundDiv num den ≤ num / den + 1 := by
    unfold roundDiv
    dsimp only
    split <;> omega
  calc (roundDiv num den : ℚ) ≤ ((num / den : Nat) : ℚ) + 1 := by exact_mod_cast hround
    _ ≤ num / den + 1 := by
      have := Nat.cast_div_le (α := ℚ) (m := num) (n := den)
      linarith

theorem scaleDown_div (num den : Nat) (e : Int) :
    ((scaleDown num den e).1 : ℚ) / (scaleDown num den e).2 = num / den / 2 ^ e := by
  unfold scaleDown
  split
  · simp [div_div]
  · simp [zpow_negSucc]
    ring

theorem toRat_normalized (mant : Nat) (e : Int) : (normalized mant e).toRat = mant * 2 ^ e := by
  unfold normalized
  split
  · next h =>
    rw [h, toRat, zpow_add₀ two_ne_zero]
    norm_num
    ring
  · rfl

theorem log2_le {num den K : Nat} (h : num < 2 ^ K * den) : num.log2 ≤ K + den.log2 := by
  have hden : den < 2 ^ (den.log2 + 1) := Nat.lt_log2_self
  have hnum : num < 2 ^ (K + den.log2 + 1) := by
    calc num < 2 ^ K * den := h
      _ ≤ 2 ^ K * 2 ^ (den.log2 + 1) := Nat.mul_le_mul_left _ hden.le
      _ = 2 ^ (K + den.log2 + 1) := by rw [← Nat.pow_add, Nat.add_assoc]
  by_cases hzero : num = 0
  · simp [hzero]
  · exact Nat.le_of_lt_succ ((Nat.log2_lt hzero).mpr hnum)

theorem exponentFor_le {num den K : Nat} (h : num < 2 ^ K * den) : exponentFor num den ≤ K := by
  have hlog := log2_le h
  unfold exponentFor
  dsimp only
  split <;> omega

/-- **Rounding at most doubles a number.** -/
theorem toRat_ofRatio_lt {num den K : Nat} (h : num < 2 ^ K * den) :
    (ofRatio num den).toRat < 2 ^ (K + 1) := by
  have hden : (0 : ℚ) < den := by
    have : 0 < den := Nat.pos_of_ne_zero (by rintro rfl; simp at h)
    exact_mod_cast this
  have hratio : (num : ℚ) / den < 2 ^ K := by
    rw [div_lt_iff₀ hden]
    exact_mod_cast h
  unfold ofRatio
  split
  · simp [toRat]
  · dsimp only
    generalize he : exponentFor num den = e
    have hpow : (0 : ℚ) < 2 ^ e := zpow_pos two_pos e
    have hexp : (2 : ℚ) ^ e ≤ 2 ^ K := by
      rw [← zpow_natCast]
      exact zpow_le_zpow_right₀ one_le_two (he ▸ exponentFor_le h)
    have hround := roundDiv_le (scaleDown num den e).1 (scaleDown num den e).2
    rw [scaleDown_div] at hround
    rw [toRat_normalized]
    calc (roundDiv (scaleDown num den e).1 (scaleDown num den e).2 : ℚ) * 2 ^ e
        ≤ (num / den / 2 ^ e + 1) * 2 ^ e := by gcongr
      _ = num / den + 2 ^ e := by field_simp
      _ < 2 ^ K + 2 ^ K := by linarith
      _ = 2 ^ (K + 1) := by ring

theorem toRat_mul_lt {x y : Double} {K L : Nat} (hx : x.toRat < 2 ^ K) (hy : y.toRat < 2 ^ L) :
    (x.mul y).toRat < 2 ^ (K + L + 1) := by
  rw [← toRatio_div, div_lt_iff₀ (by exact_mod_cast x.toRatio_pos)] at hx
  rw [← toRatio_div, div_lt_iff₀ (by exact_mod_cast y.toRatio_pos)] at hy
  have hx' : x.toRatio.1 < 2 ^ K * x.toRatio.2 := by exact_mod_cast hx
  have hy' : y.toRatio.1 < 2 ^ L * y.toRatio.2 := by exact_mod_cast hy
  refine toRat_ofRatio_lt ?_
  calc x.toRatio.1 * y.toRatio.1 < (2 ^ K * x.toRatio.2) * (2 ^ L * y.toRatio.2) :=
        Nat.mul_lt_mul'' hx' hy'
    _ = 2 ^ (K + L) * (x.toRatio.2 * y.toRatio.2) := by ring

theorem toRat_ofNat_lt {n K : Nat} (h : n < 2 ^ K) : (ofNat n).toRat < 2 ^ (K + 1) :=
  toRat_ofRatio_lt (by omega)

end Double

/-! ## Literals of digits -/

namespace Decimal

theorem toDouble?_of_lt {n : Nat} (h : n < 2 ^ 64) : (toDouble? n 0).isSome = true := by
  have hone : (Double.ofNat (Nat.pow 10 0)).toRat < 2 ^ 2 := Double.toRat_ofNat_lt (K := 1) (by decide)
  have hproduct := Double.toRat_mul_lt (Double.toRat_ofNat_lt h) hone
  have hfinite := Double.isInfinite_eq_false (by decide) hproduct
  unfold toDouble?
  dsimp only
  rw [if_pos (Nat.zero_le _), hfinite]
  rfl

theorem digitsValue_mono {v : Nat} (digits : Text) : v ≤ digitsValue v digits := by
  induction digits generalizing v with
  | nil => exact Nat.le_refl v
  | cons d ds ih =>
    have hrest := ih (v := v * 10 + Ascii.digitValue d)
    show v ≤ digitsValue (v * 10 + Ascii.digitValue d) ds
    omega

theorem keep_of_lt {v : Nat} {digits : Text} (h : digitsValue v digits < 2 ^ 64) :
    keep v digits = (digitsValue v digits, []) := by
  induction digits generalizing v with
  | nil => rfl
  | cons d ds ih =>
    have hmono := digitsValue_mono (v := v * 10 + Ascii.digitValue d) ds
    have hlonger : v * 10 + Ascii.digitValue d < Nat.pow 2 64 := Nat.lt_of_le_of_lt hmono h
    rw [keep, if_pos hlonger]
    exact ih h

variable {digits : Text} (hdigits : ∀ c ∈ digits, Ascii.isDigit c = true)

include hdigits

theorem ofLexeme_of_digits : ofLexeme digits = ⟨digits, [], false, []⟩ := by
  have htake : digits.takeWhile Ascii.isDigit = digits := List.takeWhile_eq_self_iff.mpr hdigits
  have hdrop : digits.dropWhile Ascii.isDigit = [] := List.dropWhile_eq_nil_iff.mpr hdigits
  simp only [ofLexeme, htake, hdrop]
  rfl

/-- **A literal of digits that is below 2⁶⁴ has a finite value.** -/
theorem value?_of_digits (h : digitsValue 0 digits < 2 ^ 64) :
    (ofLexeme digits).value?.isSome = true := by
  rw [ofLexeme_of_digits hdigits]
  have hscaled : (⟨digits, [], false, []⟩ : Decimal).scaled = (digitsValue 0 digits, 0) := by
    simp only [scaled, keep_of_lt h]
    rfl
  have hexponent : (⟨digits, [], false, []⟩ : Decimal).exponent = 0 := by
    simp only [exponent, hscaled]
    rfl
  unfold value?
  simp only [pastExponent?, hscaled, hexponent]
  exact toDouble?_of_lt h

theorem integer?_of_digits : (ofLexeme digits).integer? digits = some (digitsValue 0 digits) := by
  rw [ofLexeme_of_digits hdigits, integer?, if_pos (List.all_eq_true.mpr hdigits)]

end Decimal

end LocaleStrings
