import EquationRoots.Proofs.Binary64.Magnitude
import EquationRoots.Scalar

/-!
# Scalars that are floats

The constants and the order-based operations of `Scalar` at binary64: small numerals are exact,
their multiples do not lose magnitude, and `smaller`, `larger` and `clamp` yield numbers.
-/

set_option autoImplicit false

namespace EquationRoots.Binary64

open Float (nan)
open scoped Scalar

/-! ## Numerals -/

theorem toReal_numeral {n : Nat} (h : n < 2 ^ 53) : toReal (Scalar.ofNat n) = n :=
  (isFinite_ofNat_and_toReal_ofNat h).2

theorem isFinite_numeral {n : Nat} (h : n < 2 ^ 53) : (Scalar.ofNat n : Float).isFinite = true :=
  (isFinite_ofNat_and_toReal_ofNat h).1

/-- A finite float that is tested to be no zero has a value other than zero. -/
theorem toReal_ne_zero_of_bne {x : Float} (hx : x.isFinite = true)
    (h : (x != (0 : Float)) = true) : toReal x ≠ 0 := by
  intro h0
  have hbeq := (beq_iff hx (isFinite_numeral (n := 0) (by norm_num))).2
    (by rw [h0, toReal_numeral (by norm_num), Nat.cast_zero])
  rw [bne, show (x == (0 : Float)) = true from hbeq] at h
  cases h

section

variable {n i : Nat} (hn : n < 2 ^ 53) {x : Float}

include hn

theorem abs_toReal_numeral_mul_le (hi : n ≤ 2 ^ i) (h : (Scalar.ofNat n * x).isFinite = true) :
    |toReal (Scalar.ofNat n * x)| ≤ 2 ^ i * |toReal x| := by
  have hrep := isRepresentable_two_pow_mul_abs x i
  have hx := (isFinite_of_mul h).2
  rw [(isRounding_mul (isFinite_numeral hn) hx).toReal_eq_of_isFinite h, toReal_numeral hn]
  refine abs_nearest_le hrep ?_
  rw [abs_mul, Nat.abs_cast]
  exact mul_le_mul_of_nonneg_right (by exact_mod_cast hi) (abs_nonneg _)

theorem le_abs_toReal_numeral_mul (hi : 2 ^ i ≤ n) (h : (Scalar.ofNat n * x).isFinite = true) :
    2 ^ i * |toReal x| ≤ |toReal (Scalar.ofNat n * x)| := by
  have hrep := isRepresentable_two_pow_mul_abs x i
  have hx := (isFinite_of_mul h).2
  rw [(isRounding_mul (isFinite_numeral hn) hx).toReal_eq_of_isFinite h, toReal_numeral hn]
  refine le_abs_nearest hrep ?_
  rw [abs_mul, Nat.abs_cast]
  exact mul_le_mul_of_nonneg_right (by exact_mod_cast hi) (abs_nonneg _)

/-- Where a multiple of a finite number overflows, the number is large. -/
theorem le_of_numeral_mul_eq_inf (hi : n ≤ 2 ^ i) (hx : x.isFinite = true)
    (h : (Scalar.ofNat n * x).isFinite = false) : 2 ^ (1024 : ℤ) ≤ 2 ^ i * |toReal x| := by
  have hrep := isRepresentable_two_pow_mul_abs x i
  by_contra hlt
  have hle : |toReal (Scalar.ofNat n) * toReal x| ≤ 2 ^ i * |toReal x| := by
    rw [toReal_numeral hn, abs_mul, Nat.abs_cast]
    exact mul_le_mul_of_nonneg_right (by exact_mod_cast hi) (abs_nonneg _)
  have hf := (isRounding_mul (isFinite_numeral hn) hx).of_abs_nearest_lt
    ((abs_nearest_le hrep hle).trans_lt (not_le.1 hlt))
  rw [h] at hf
  exact Bool.false_ne_true hf.1

end

/-- A multiple of a finite number is an infinity or finite. -/
theorem numeral_mul_cases {n : Nat} (hn : n < 2 ^ 53) {x : Float} (hx : x.isFinite = true) :
    (Scalar.ofNat n * x).isInf = true ∨ (Scalar.ofNat n * x).isFinite = true := by
  cases isRounding_mul (isFinite_numeral hn) hx with
  | finite hf _ => exact Or.inr hf
  | overflow s hs _ => exact Or.inl (by rw [hs, isInf_inf])

/-- Being negative is being below zero. -/
theorem lt_zero_iff {x : Float} : x < (0 : Float) ↔ IsBelow x 0 := by
  show x < (Scalar.ofNat 0 : Float) ↔ _
  rw [lt_iff_isBelow (isFinite_numeral (by norm_num)), toReal_numeral (by norm_num), Nat.cast_zero]

theorem isWithin_numeral {n i : Nat} (hn : n < 2 ^ 53) (hi : n ≤ 2 ^ i) :
    IsWithin (Scalar.ofNat n) i := by
  refine ⟨isFinite_numeral hn, ?_⟩
  rw [toReal_numeral hn, Nat.abs_cast, zpow_natCast]
  exact_mod_cast hi

theorem isWithin_pi : IsWithin (Scalar.pi : Float) 2 := by
  have hview : view (Scalar.pi : Float) =
      .finite .positive 7074237752028440 (-51) (by norm_num) := rfl
  refine ⟨rfl, ?_⟩
  rw [toReal, hview, realOf_finite, signFactor]
  norm_num

/-! ## Operations by the order -/

theorem smaller_eq_or (x y : Float) : Scalar.smaller x y = x ∨ Scalar.smaller x y = y := by
  unfold Scalar.smaller
  split
  · exact Or.inr rfl
  · exact Or.inl rfl

theorem larger_eq_or (x y : Float) : Scalar.larger x y = x ∨ Scalar.larger x y = y := by
  unfold Scalar.larger
  split
  · exact Or.inr rfl
  · exact Or.inl rfl

theorem isNaN_smaller {x y : Float} (hx : x.isNaN = false) (hy : y.isNaN = false) :
    (Scalar.smaller x y).isNaN = false := by
  unfold Scalar.smaller
  split <;> assumption

theorem isNaN_larger {x y : Float} (hx : x.isNaN = false) (hy : y.isNaN = false) :
    (Scalar.larger x y).isNaN = false := by
  unfold Scalar.larger
  split <;> assumption

/-- The clamped number lies between `-1` and `1`. -/
theorem abs_clamp_le {x : Float} (hx : x.isNaN = false) :
    (Scalar.clamp (-1) 1 x).isFinite = true ∧ |toReal (Scalar.clamp (-1) 1 x)| ≤ 1 := by
  have hone : (Scalar.ofNat 1 : Float).isFinite = true := isFinite_numeral (by norm_num)
  have hval : toReal (Scalar.ofNat 1) = 1 := by rw [toReal_numeral (by norm_num), Nat.cast_one]
  have hneg : (-Scalar.ofNat 1 : Float).isFinite = true := by rwa [isFinite_neg]
  show (Scalar.clamp (-Scalar.ofNat 1) (Scalar.ofNat 1) x).isFinite = true ∧
    |toReal (Scalar.clamp (-Scalar.ofNat 1) (Scalar.ofNat 1) x)| ≤ 1
  unfold Scalar.clamp
  split_ifs with hlow hhigh
  · exact ⟨hneg, by rw [toReal_neg, hval, abs_neg, abs_one]⟩
  · exact ⟨hone, by rw [hval, abs_one]⟩
  · rcases eq_nan_or_eq_inf_or_isFinite x with rfl | ⟨s, rfl⟩ | hf
    · simp at hx
    · cases s with
      | negative => exact absurd (neg_inf_lt hneg) hlow
      | positive => exact absurd (lt_inf hone) hhigh
    · rw [lt_iff hf hneg, toReal_neg, hval, not_lt] at hlow
      rw [lt_iff hone hf, hval, not_lt] at hhigh
      exact ⟨hf, abs_le.2 ⟨hlow, hhigh⟩⟩

/-- Clamping a finite number. -/
theorem toReal_clamp {x : Float} (hx : x.isFinite = true) :
    toReal (Scalar.clamp (-1) 1 x) = max (-1) (min 1 (toReal x)) := by
  have hone : (Scalar.ofNat 1 : Float).isFinite = true := isFinite_numeral (by norm_num)
  have hval : toReal (Scalar.ofNat 1) = 1 := by rw [toReal_numeral (by norm_num), Nat.cast_one]
  have hneg : (-Scalar.ofNat 1 : Float).isFinite = true := by rwa [isFinite_neg]
  show toReal (Scalar.clamp (-Scalar.ofNat 1) (Scalar.ofNat 1) x) = _
  unfold Scalar.clamp
  simp only [lt_iff hx hneg, lt_iff hone hx, toReal_neg, hval]
  split_ifs with hlow hhigh
  · rw [toReal_neg, hval, min_eq_right (by linarith), max_eq_left hlow.le]
  · rw [hval, min_eq_left hhigh.le, max_eq_right (by norm_num)]
  · rw [min_eq_right (not_lt.1 hhigh), max_eq_right (not_lt.1 hlow)]

end EquationRoots.Binary64
