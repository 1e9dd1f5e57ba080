import EquationRoots.Proofs.Binary64.Accuracy
import EquationRoots.Proofs.Overflow.Solve

/-!
# Residuals of linear roots

The root of `c x + d` is the quotient `-d / c`, rounded, and Horner's rule rounds the product once
more: the value there is at most two roundoffs of the constant coefficient.

- `abs_eval_linear`: the value at the root is at most `1/4` when the coefficients are moderate.
-/

set_option autoImplicit false

namespace EquationRoots

open Binary64
open scoped Scalar

/-! ## Values -/

/-- A quarter. -/
theorem toReal_quarter : (0.25 : Float).isFinite = true ∧ toReal 0.25 = 1 / 4 := by
  have hview : view (0.25 : Float) = .finite .positive 4503599627370496 (-54) (by norm_num) := rfl
  refine ⟨rfl, ?_⟩
  rw [toReal, hview, realOf_finite, signFactor]
  norm_num

/-- The bound on a value, as floats compare it. -/
theorem abs_le_quarter {x : Float} (hf : x.isFinite = true) (h : |toReal x| ≤ 1 / 4) :
    x.abs ≤ 0.25 := by
  have hx : x.abs.isFinite = true := by rwa [isFinite_abs]
  rw [le_iff hx toReal_quarter.1, toReal_abs, toReal_quarter.2]
  exact h

/-! ## Moderate coefficients -/

/-- A leading coefficient that is far from the ends of the range of floats. -/
structure IsModerateLead (x : Float) : Prop where
  low : (10 ^ 30)⁻¹ ≤ |toReal x|
  high : |toReal x| ≤ 10 ^ 30

namespace Coefficients

/-- The coefficients of a linear polynomial are moderate. -/
structure IsModerateLinear (p : Coefficients Float) : Prop where
  lead : IsModerateLead p.c
  d_le : |toReal p.d| ≤ 10 ^ 15

variable {p : Coefficients Float}

/-! ## Linear polynomials -/

/-- A step of Horner's rule from zero finds the next coefficient. -/
theorem toReal_mul_add_of_eq_zero {y x c : Float} (hy : y.isFinite = true) (hy0 : toReal y = 0)
    (hx : x.isFinite = true) (hc : c.isFinite = true) :
    (y * x + c).isFinite = true ∧ toReal (y * x + c) = toReal c := by
  have hmul := isRounding_mul hy hx
  rw [hy0, zero_mul] at hmul
  obtain ⟨hf, h0⟩ := hmul.of_abs_le (by rw [abs_zero]; positivity)
  have hadd := isRounding_add hf hc
  have hnearest := nearest_of_isRepresentable (isRepresentable_toReal c)
  rw [h0, nearest_zero, zero_add] at hadd
  obtain ⟨hf', hv⟩ := hadd.of_abs_nearest_lt (by rw [hnearest]; exact abs_toReal_lt c)
  exact ⟨hf', hv.trans hnearest⟩

/-- Numbers far below the overflow. -/
theorem abs_le_of_abs_le_ten_pow {r : ℝ} (hr : |r| ≤ 10 ^ 45) : |r| ≤ 2 ^ (1023 : ℤ) :=
  hr.trans ((by norm_num : (10 : ℝ) ^ 45 ≤ 2 ^ (200 : ℤ)).trans
    (zpow_le_zpow_right₀ one_le_two (by norm_num)))

/-- The least positive float is negligible. -/
theorem least_le : (2 : ℝ) ^ (-1075 : ℤ) ≤ 1 / 10 ^ 40 :=
  (zpow_le_zpow_right₀ one_le_two (by norm_num)).trans
    (by norm_num : (2 : ℝ) ^ (-200 : ℤ) ≤ 1 / 10 ^ 40)

/-- The root of a linear polynomial is a quotient, rounded. -/
theorem linearRoot_close {c d : Float} (hd : d.isFinite = true) (hc : IsModerateLead c)
    (hle : |toReal d| ≤ 10 ^ 15) : (linearRoot c d).isFinite = true ∧
      |toReal c * toReal (linearRoot c d) + toReal d| ≤
        roundoff * |toReal d| + 1 / 10000000000 := by
  have hc0 : 0 < |toReal c| := lt_of_lt_of_le (by positivity) hc.low
  have hne := abs_pos.1 hc0
  have hround := isRounding_div (x := -d) (by rwa [isFinite_neg]) hne
  rw [toReal_neg] at hround
  obtain ⟨hf, hclose⟩ := hround.abs_sub_le (abs_le_of_abs_le_ten_pow (by
    have hprod := mul_le_mul_of_nonneg_left hc.low (by norm_num : (0 : ℝ) ≤ 10 ^ 45)
    have hpow : (10 : ℝ) ^ 45 * (10 ^ 30)⁻¹ = 10 ^ 15 := by norm_num
    rw [abs_div, abs_neg, div_le_iff₀ hc0]
    linarith))
  refine ⟨hf, ?_⟩
  -- the error of the quotient, multiplied by the divisor, is relative to the dividend
  have hsplit : toReal c * toReal (linearRoot c d) + toReal d =
      toReal c * (toReal (linearRoot c d) - -toReal d / toReal c) := by
    field_simp
    ring
  have hcancel : |toReal c| * (roundoff * |-toReal d / toReal c|) = roundoff * |toReal d| := by
    rw [abs_div, abs_neg]
    field_simp
  have hlast : |toReal c| * 2 ^ (-1075 : ℤ) ≤ 10 ^ 30 * (1 / 10 ^ 40) :=
    mul_le_mul hc.high least_le (by positivity) (by positivity)
  rw [hsplit, abs_mul]
  refine (mul_le_mul_of_nonneg_left hclose hc0.le).trans ?_
  rw [mul_add, hcancel]
  refine add_le_add le_rfl (hlast.trans ?_)
  norm_num

/-- The value at the root of a linear polynomial is small. -/
theorem abs_eval_linear (hp : p.isFinite = true) (ha : toReal p.a = 0) (hb : toReal p.b = 0)
    (h : p.IsModerateLinear) : (p.eval (linearRoot p.c p.d)).abs ≤ 0.25 := by
  obtain ⟨haf, hbf, hcf, hdf⟩ := isFinite_iff.1 hp
  have hu := roundoff_pos
  have hu' := roundoff_le
  have hleast : (2 : ℝ) ^ (-1075 : ℤ) ≤ 1 / 10000000000 := least_le.trans (by norm_num)
  have hd := h.d_le
  have hroundoff : roundoff * |toReal p.d| ≤ 1 / 9 := by
    have := mul_le_mul hu' hd (abs_nonneg _) (by norm_num)
    linarith
  obtain ⟨hxf, hx⟩ := linearRoot_close hdf h.lead hd
  obtain ⟨x, hxdef⟩ : ∃ x, x = linearRoot p.c p.d := ⟨_, rfl⟩
  rw [← hxdef] at hxf hx ⊢
  -- Horner's rule finds the leading coefficient, then the product, then the value
  obtain ⟨hbf', hbv⟩ := toReal_mul_add_of_eq_zero haf ha hxf hbf
  obtain ⟨hcf', hcv⟩ := toReal_mul_add_of_eq_zero hbf' (hbv.trans hb) hxf hcf
  have hmul := isRounding_mul hcf' hxf
  rw [hcv] at hmul
  obtain ⟨y, hy⟩ : ∃ y, y = ((p.a * x + p.b) * x + p.c) * x := ⟨_, rfl⟩
  obtain ⟨m, hm⟩ : ∃ m, m = toReal p.c * toReal x := ⟨_, rfl⟩
  rw [← hy, ← hm] at hmul
  rw [← hm] at hx
  have hmle : |m| ≤ |toReal p.d| + 1 := by
    have htri := abs_sub (m + toReal p.d) (toReal p.d)
    rw [add_sub_cancel_right] at htri
    linarith
  obtain ⟨hyf, hyclose⟩ := hmul.abs_sub_le (abs_le_of_abs_le_ten_pow (by linarith))
  have hsum : |toReal y + toReal p.d| ≤ 23 / 100 := by
    have hsplit : toReal y + toReal p.d = (toReal y - m) + (m + toReal p.d) := by ring
    have hscaled := mul_le_mul_of_nonneg_left hmle hu.le
    rw [hsplit]
    refine (abs_add_le _ _).trans ?_
    linarith
  obtain ⟨hzf, hz⟩ := (isRounding_add hyf hdf).abs_sub_le
    (abs_le_of_abs_le_ten_pow (by linarith))
  have hvalue : p.eval x = y + p.d := by rw [hy, eval]
  rw [hvalue]
  refine abs_le_quarter hzf ?_
  have htri := abs_sub_abs_le_abs_sub (toReal (y + p.d)) (toReal y + toReal p.d)
  have hscaled := mul_le_mul_of_nonneg_left hsum hu.le
  linarith

end Coefficients

end EquationRoots
