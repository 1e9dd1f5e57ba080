import EquationRoots.Decimal.Literal
import EquationRoots.Proofs.Binary64.Magnitude

/-!
# The float of a decimal literal

The float of a literal is its exact value rounded to the nearest float, for digits of any number.

- `Literal.toReal`: the exact value.
- `isRounding_toFloat`: the float rounds it.
-/

set_option autoImplicit false

namespace EquationRoots

/-- The exact value of a literal. -/
noncomputable def Literal.toReal (l : Literal) : ℝ := l.mantissa / 10 ^ l.places

namespace Binary64

open Float.Model

/-! ## Scientific form -/

/-- A mantissa that is shifted past the least float rounds to zero. -/
theorem nearest_div_ten_pow_of_lt {m p : ℕ} (h : 2048 + m.log2 < p) :
    nearest ((m : ℝ) / 10 ^ p) = 0 := by
  have hm : (m : ℝ) < 2 ^ (m.log2 + 1) := by exact_mod_cast Nat.lt_log2_self
  have hp : (2 : ℝ) ^ p ≤ 10 ^ p := pow_le_pow_left₀ two_pos.le (by norm_num) p
  refine nearest_eq_zero ?_
  rw [abs_of_nonneg (by positivity)]
  calc (m : ℝ) / 10 ^ p ≤ m / 2 ^ p :=
        div_le_div_of_nonneg_left (Nat.cast_nonneg m) (by positivity) hp
    _ < 2 ^ (m.log2 + 1) / 2 ^ p := div_lt_div_of_pos_right hm (by positivity)
    _ = (2 : ℝ) ^ ((m.log2 : ℤ) + 1 - p) := by
      rw [zpow_sub₀ two_ne_zero, zpow_natCast]
      norm_cast
    _ ≤ 2 ^ (-1075 : ℤ) := zpow_le_zpow_right₀ one_le_two (by omega)

/-- The value of a natural number without an exponent. -/
theorem realOf_natural {m : ℕ} (h : 0 < m) : realOf (.finite .positive m 0 h) = m := by
  rw [realOf_finite, signFactor, zpow_zero, one_mul, mul_one]

/-- The value of a natural number with bits for the whole mantissa behind it. -/
theorem realOf_widened {m : ℕ} (h : 0 < m <<< Format.binary64.mantissaBits) :
    realOf (.finite .positive (m <<< Format.binary64.mantissaBits)
      (-Format.binary64.mantissaBits) h) = m := by
  have := shiftLeft_mul_zpow m Format.binary64.mantissaBits 0
  rw [zero_sub, zpow_zero, mul_one] at this
  rw [realOf_finite, signFactor, one_mul, this]

/-- A mantissa divided by a power of ten is rounded. -/
theorem isNearest_ofScientific (m p : ℕ) :
    IsNearest ((m : ℝ) / 10 ^ p) (UnpackedFloat.ofScientific Format.binary64 m (-(p : ℤ))) := by
  have hbits : (2 : ℤ) ^ Format.binary64.exponentBits = 2048 := rfl
  unfold UnpackedFloat.ofScientific
  by_cases hm : m = 0
  · rw [dif_pos hm]
    exact isNearest_zero (by simp [hm]) _
  rw [dif_neg hm, hbits, if_neg (by omega)]
  -- the shortcut for tiny literals gives zero, as rounding does
  by_cases hsmall : -(p : ℤ) < -(2048 + (m.log2 : ℤ))
  · rw [if_pos hsmall]
    exact ⟨trivial, rfl, (nearest_div_ten_pow_of_lt (by omega)).symm⟩
  rw [if_neg hsmall]
  -- without places the mantissa is widened and multiplied by one; otherwise it is divided
  by_cases hp : p = 0
  · subst hp
    have hwide : 2 ^ 52 ≤ m <<< Format.binary64.mantissaBits := by
      rw [Nat.shiftLeft_eq, show Format.binary64.mantissaBits = 53 from rfl]
      exact (Nat.pow_le_pow_right two_pos (by decide)).trans
        (Nat.le_mul_of_pos_left (2 ^ 53) (Nat.pos_of_ne_zero hm))
    have hpos : 0 < m <<< Format.binary64.mantissaBits := (Nat.two_pow_pos 52).trans_le hwide
    have hone : 0 < 10 ^ (-((0 : ℕ) : ℤ)).toNat := Nat.pow_pos (by decide)
    have hval : (m : ℝ) / 10 ^ 0 = realOf (.finite .positive _ (-Format.binary64.mantissaBits) hpos)
        * realOf (.finite .positive _ 0 hone) := by
      rw [realOf_widened, realOf_natural]
      simp
    rw [if_pos (by omega), hval]
    exact isNearest_mul_finite .positive .positive hpos hone (Or.inl hwide)
  · have hten : 0 < 10 ^ (-(-(p : ℤ))).toNat := Nat.pow_pos (by decide)
    have hval : (m : ℝ) / 10 ^ p = realOf (.finite .positive m 0 (Nat.pos_of_ne_zero hm)) /
        realOf (.finite .positive _ 0 hten) := by
      rw [realOf_natural, realOf_natural, neg_neg, Int.toNat_natCast]
      push_cast
      rfl
    rw [if_neg (by omega), hval]
    exact isNearest_div_finite .positive .positive (Nat.pos_of_ne_zero hm) hten

/-! ## Literals -/

/-- The float of a literal is its exact value rounded. -/
theorem isRounding_toFloat (l : Literal) : IsRounding l.toReal l.toFloat :=
  (isNearest_ofScientific l.mantissa l.places).isRounding

theorem toReal_literal_nonneg (l : Literal) : 0 ≤ l.toReal :=
  div_nonneg (Nat.cast_nonneg _) (pow_nonneg (by norm_num) _)

end Binary64

end EquationRoots
