import EquationRoots.Proofs.Residual.Cubic
import EquationRoots.Proofs.Residual.Elementary

/-!
# Residuals of the roots by Cardano's formula

With `s` and `t` the cube roots of `r ± √(q³ + r²)`, the number `s + t` is a root of the reduced
polynomial `y³ + 3 q y - 2 r` because `s³ + t³ = 2 r` and `s t = -q` (`IsCardano`). The first of
these survives rounding up to a few roundoffs. The second one only holds for the third powers to
that accuracy, and taking cube roots leaves a third of the digits.

- `isSmallAt_cardano`: the value of the polynomial at the real root.
- `isSmallAt_cardano_pair`: its value at the real part of a pair whose imaginary part vanishes.
-/

set_option autoImplicit false

namespace EquationRoots

open Binary64
open scoped Scalar

/-! ## Numbers that nearly satisfy Cardano's equations -/

/-- Numbers `s` and `t` of moderate size whose third powers nearly add up to `2 r` and whose product
is nearly `-q`. Their sum is nearly a root of `y³ + 3 q y - 2 r`. -/
structure IsCardano (q r s t : ℝ) : Prop where
  abs_s_le : |s| ≤ 6 / 5
  abs_t_le : |t| ≤ 6 / 5
  sum : |s ^ 3 + t ^ 3 - 2 * r| ≤ 100 * roundoff
  prod : |s * t + q| ≤ 21 / 1000000

namespace IsCardano

variable {q r s t : ℝ} (h : IsCardano q r s t)

include h

theorem abs_sum_le : |s + t| ≤ 12 / 5 :=
  (abs_add_le s t).trans (by linarith [h.abs_s_le, h.abs_t_le])

/-- The sum is nearly a root of the reduced polynomial. -/
theorem residual_add : |(s + t) ^ 3 + 3 * q * (s + t) - 2 * r| ≤ 2 / 10000 := by
  have hu' := roundoff_le
  have hsplit : (s + t) ^ 3 + 3 * q * (s + t) - 2 * r =
      (s ^ 3 + t ^ 3 - 2 * r) + 3 * (s + t) * (s * t + q) := by ring
  have hprod : |3 * (s + t) * (s * t + q)| ≤ 3 * (12 / 5) * (21 / 1000000) := by
    rw [abs_mul, abs_mul, abs_of_pos (by norm_num : (0 : ℝ) < 3)]
    exact mul_le_mul (by linarith [h.abs_sum_le]) h.prod (abs_nonneg _) (by norm_num)
  rw [hsplit]
  refine (abs_add_le _ _).trans ?_
  linarith [h.sum]

/-- Where the numbers nearly agree, minus half of their sum is nearly a double root. -/
theorem residual_neg_half (hst : |s - t| ≤ 4 * roundoff) :
    |(-(s + t) / 2) ^ 3 + 3 * q * (-(s + t) / 2) - 2 * r| ≤ 2 / 10000 := by
  have hu' := roundoff_le
  have hsum := h.abs_sum_le
  have hsplit : (-(s + t) / 2) ^ 3 + 3 * q * (-(s + t) / 2) - 2 * r =
      (s ^ 3 + t ^ 3 - 2 * r) - 3 / 2 * (s + t) * (s * t + q) -
        9 / 8 * (s + t) * ((s - t) * (s - t)) := by ring
  have hprod : |3 / 2 * (s + t) * (s * t + q)| ≤ 3 / 2 * (12 / 5) * (21 / 1000000) := by
    rw [abs_mul, abs_mul, abs_of_pos (by norm_num : (0 : ℝ) < 3 / 2)]
    exact mul_le_mul (by linarith) h.prod (abs_nonneg _) (by norm_num)
  have hsquare : |9 / 8 * (s + t) * ((s - t) * (s - t))| ≤
      9 / 8 * (12 / 5) * (1 / 1000000 * (1 / 1000000)) := by
    have hsmall : |s - t| ≤ 1 / 1000000 := by linarith
    rw [abs_mul, abs_mul, abs_mul, abs_of_pos (by norm_num : (0 : ℝ) < 9 / 8)]
    exact mul_le_mul (by linarith) (mul_le_mul hsmall hsmall (abs_nonneg _) (by norm_num))
      (by positivity) (by norm_num)
  rw [hsplit]
  refine (abs_sub _ _).trans ?_
  have htri := abs_sub (s ^ 3 + t ^ 3 - 2 * r) (3 / 2 * (s + t) * (s * t + q))
  linarith [h.sum]

end IsCardano

/-! ## Cube roots of the radicands -/

/-- The square root `ω` of `Q³ + R²`, the radicands `σ` and `τ` of the cube roots, and the cube
roots `s` and `t`, all up to roundoffs. The first coefficient and the radicands are of moderate
size. -/
structure IsCardanoRadicands (Q R ω σ τ s t : ℝ) : Prop where
  abs_Q_le : |Q| ≤ 1 / 2
  root : |ω * ω - (Q * Q * Q + R * R)| ≤ 3 * roundoff
  radicand_s : |σ - (R + ω)| ≤ 8 / 5 * roundoff
  radicand_t : |τ - (R - ω)| ≤ 8 / 5 * roundoff
  abs_σ_le : |σ| ≤ 8 / 5
  abs_τ_le : |τ| ≤ 8 / 5
  cube_s : |s ^ 3 - σ| ≤ 25 * roundoff * |σ|
  cube_t : |t ^ 3 - τ| ≤ 25 * roundoff * |τ|

namespace IsCardanoRadicands

variable {q r Q R ω σ τ s t : ℝ} (h : IsCardanoRadicands Q R ω σ τ s t)

include h

/-- The product of the radicands is nearly `-Q³`. -/
theorem abs_mul_add_le : |σ * τ + Q * Q * Q| ≤ 9 * roundoff := by
  have hu := roundoff_pos
  have hu' := roundoff_le
  have hsum : |R + ω| ≤ 161 / 100 := by
    have htri := abs_sub_abs_le_abs_sub (R + ω) σ
    rw [abs_sub_comm] at htri
    linarith [h.radicand_s, h.abs_σ_le]
  have hsplit : σ * τ + Q * Q * Q = (σ - (R + ω)) * τ + (R + ω) * (τ - (R - ω)) -
      (ω * ω - (Q * Q * Q + R * R)) := by ring
  have hfirst : |(σ - (R + ω)) * τ| ≤ 8 / 5 * roundoff * (8 / 5) := by
    rw [abs_mul]
    exact mul_le_mul h.radicand_s h.abs_τ_le (abs_nonneg _) (by positivity)
  have hsecond : |(R + ω) * (τ - (R - ω))| ≤ 161 / 100 * (8 / 5 * roundoff) := by
    rw [abs_mul]
    exact mul_le_mul hsum h.radicand_t (abs_nonneg _) (by norm_num)
  rw [hsplit]
  refine (abs_sub _ _).trans ?_
  have htri := abs_add_le ((σ - (R + ω)) * τ) ((R + ω) * (τ - (R - ω)))
  linarith [h.root]

/-- The product of the third powers is nearly `-Q³`, closer than the sizes of the factors promise,
since the product of the radicands is small. -/
theorem abs_pow_mul_pow_add_le : |(s * t) ^ 3 + Q ^ 3| ≤ 16 * roundoff := by
  have hu := roundoff_pos
  have hu' := roundoff_le
  have hQ : |Q * Q * Q| ≤ 1 / 2 * (1 / 2) * (1 / 2) := by
    rw [abs_mul, abs_mul]
    gcongr <;> exact h.abs_Q_le
  have hστ : |σ| * |τ| ≤ 126 / 1000 := by
    have htri := abs_sub_abs_le_abs_sub (σ * τ) (-(Q * Q * Q))
    rw [abs_neg, sub_neg_eq_add, abs_mul σ τ] at htri
    linarith [h.abs_mul_add_le]
  have ht : |t ^ 3| ≤ 101 / 100 * |τ| := by
    have htri := abs_sub_abs_le_abs_sub (t ^ 3) τ
    have hsmall := mul_le_mul_of_nonneg_right hu' (abs_nonneg τ)
    linarith [h.cube_t, abs_nonneg τ]
  -- errors relative to the radicands are multiplied by their product, which is small
  have hsplit : (s * t) ^ 3 + Q ^ 3 =
      (s ^ 3 - σ) * t ^ 3 + σ * (t ^ 3 - τ) + (σ * τ + Q * Q * Q) := by ring
  have hfirst : |(s ^ 3 - σ) * t ^ 3| ≤ 25 * roundoff * |σ| * (101 / 100 * |τ|) := by
    rw [abs_mul]
    exact mul_le_mul h.cube_s ht (abs_nonneg _) (by positivity)
  have hsecond : |σ * (t ^ 3 - τ)| ≤ |σ| * (25 * roundoff * |τ|) := by
    rw [abs_mul]
    exact mul_le_mul_of_nonneg_left h.cube_t (abs_nonneg _)
  rw [hsplit]
  refine (abs_add_three _ _ _).trans ?_
  have hprod := mul_le_mul_of_nonneg_left hστ hu.le
  nlinarith [h.abs_mul_add_le]

/-- The cube roots nearly satisfy Cardano's equations. -/
theorem isCardano (hs : |s| ≤ 6 / 5) (ht : |t| ≤ 6 / 5) (hq : |Q - q| ≤ 3 * roundoff)
    (hr : |R - r| ≤ 6 * roundoff) : IsCardano q r s t := by
  have hu := roundoff_pos
  have hu' := roundoff_le
  refine ⟨hs, ht, ?_, ?_⟩
  · -- the third powers are the radicands, and these add up to `2 R`
    have hs3 : |s ^ 3 - σ| ≤ 40 * roundoff := by
      nlinarith [h.cube_s, mul_le_mul_of_nonneg_left h.abs_σ_le hu.le]
    have ht3 : |t ^ 3 - τ| ≤ 40 * roundoff := by
      nlinarith [h.cube_t, mul_le_mul_of_nonneg_left h.abs_τ_le hu.le]
    have hsplit : s ^ 3 + t ^ 3 - 2 * r = (s ^ 3 - σ) + (t ^ 3 - τ) +
        ((σ - (R + ω)) + (τ - (R - ω)) + ((R - r) + (R - r))) := by ring
    rw [hsplit]
    refine (abs_add_three _ _ _).trans ?_
    have htri := abs_add_three (σ - (R + ω)) (τ - (R - ω)) ((R - r) + (R - r))
    have hdouble := abs_add_le (R - r) (R - r)
    linarith [h.radicand_s, h.radicand_t]
  · -- the third powers of `s t` and of `Q` nearly cancel, so the numbers do
    have hst : |s * t + Q| ≤ 2 / 100000 := by
      refine le_of_pow_le_pow_left₀ (n := 3) (by norm_num) (by norm_num) ?_
      refine (abs_add_pow_three_le _ _).trans ?_
      linarith [h.abs_pow_mul_pow_add_le]
    have hsplit : s * t + q = (s * t + Q) - (Q - q) := by ring
    rw [hsplit]
    refine (abs_sub _ _).trans ?_
    linarith

end IsCardanoRadicands

/-- An accurate cube root, in units. -/
theorem Elementary.IsAccurate.exists_cbrt {maths : Elementary Float} (hm : maths.IsAccurate)
    {S : Scale} {x : Float} {σ B : ℝ} (hx : S.Near x 0 3 σ B 0) (hB : B ≤ 8 / 5) :
    ∃ s, S.Near (maths.cbrt x) 0 1 s (6 / 5) 0 ∧ |s ^ 3 - σ| ≤ 25 * roundoff * |σ| := by
  have hu' := roundoff_le
  have hκ := S.size_pos
  obtain ⟨hf, hclose⟩ := hm.cbrt x hx.isFinite
  obtain ⟨s, hs⟩ : ∃ s, s = toReal (maths.cbrt x) / S.weight 0 1 := ⟨_, rfl⟩
  have hvalue : toReal x = σ * S.size ^ 3 := by
    rw [hx.toReal_eq, Scale.weight, zpow_zero, one_mul]
    norm_cast
  have hs' : toReal (maths.cbrt x) = s * S.size := by
    rw [hs, Scale.weight, zpow_zero, zpow_one, one_mul, div_mul_cancel₀ _ hκ.ne']
  -- the unit drops out of both sides
  rw [hvalue, cubeRoot_mul_pow_three, hs', ← sub_mul, abs_mul, abs_mul, abs_of_pos hκ,
    ← mul_assoc] at hclose
  have hroot : |s - cubeRoot σ| ≤ 8 * roundoff * |cubeRoot σ| := le_of_mul_le_mul_right hclose hκ
  refine ⟨s, ?_, ?_⟩
  · have hbound : |cubeRoot σ| ≤ 117 / 100 :=
      abs_cubeRoot_le (by norm_num) ((hx.bounded.trans hB).trans (by norm_num))
    have htri := abs_sub_abs_le_abs_sub s (cubeRoot σ)
    have hsmall := mul_le_mul_of_nonneg_right hu' (abs_nonneg (cubeRoot σ))
    rw [hs]
    refine Scale.Near.self hf ?_ (by norm_num)
    rw [← hs]
    linarith
  · have := abs_pow_three_sub_le hroot
    rwa [cubeRoot_pow_three] at this

/-! ## The formula -/

/-- A difference of floats that vanishes after a scaling is tiny. -/
theorem abs_toReal_lt_of_im_eq_zero {d : Float}
    (hf : (d * (Scalar.ofNat 3 : Float).sqrt / Scalar.ofNat 2).isFinite = true)
    (h0 : toReal (d * (Scalar.ofNat 3 : Float).sqrt / Scalar.ofNat 2) = 0) :
    |toReal d| < 2 ^ (-800 : ℤ) := by
  have htwo : toReal (Scalar.ofNat 2) = 2 := toReal_numeral (by norm_num)
  have hprod := (isFinite_of_div hf).1
  have hroot : 2 ^ (0 : ℤ) ≤ |toReal (Scalar.ofNat 3 : Float).sqrt| :=
    le_abs_toReal_sqrt (isFinite_numeral (by norm_num))
      (by rw [toReal_numeral (by norm_num)]; norm_num) (by norm_num)
  by_contra hd
  have hmul := le_abs_toReal_mul hprod (not_lt.1 hd) hroot (by norm_num)
  have hquot := le_abs_toReal_div (j := 1) hprod hf hmul (by rw [htwo]; norm_num)
    (by rw [htwo]; norm_num) (by norm_num)
  have hpos : (0 : ℝ) < 2 ^ (-800 + 0 - 1 : ℤ) := by positivity
  rw [h0, abs_zero] at hquot
  exact absurd (hpos.trans_le hquot) (lt_irrefl 0)

namespace Coefficients.IsScaled

variable {S : Scale} {p : Coefficients Float} {maths : Elementary Float} {β γ δ q r : ℝ}
  (h : IsScaled S p β γ δ) (hr : IsReduced β γ δ q r)

include h hr

/-- The cube roots in Cardano's formula nearly satisfy its equations. -/
theorem exists_isCardano (hm : maths.IsAccurate) (h0 : ¬ p.reducedDiscriminant < 0) :
    ∃ s t, S.Near (p.cardanoS maths) 0 1 s (6 / 5) 0 ∧ S.Near (p.cardanoT maths) 0 1 t (6 / 5) 0 ∧
      IsCardano q r s t := by
  obtain ⟨Q, hQ, hQq⟩ := (h.near_reducedQ hr).exists_exact (C := 1 / 2) (by norm_num)
  obtain ⟨R, hR, hRr⟩ := (h.near_reducedR hr).exists_exact (C := 3 / 4) (by norm_num)
  have hdisc := near_reducedDiscriminant hQ hR
  have hnonneg : 0 ≤ toReal p.reducedDiscriminant :=
    not_lt.1 fun hlt => h0 (lt_zero_iff.2 (Or.inr ⟨hdisc.isFinite, hlt⟩))
  obtain ⟨ω, hω, -, hsq⟩ := hdisc.exists_sqrt (i := 0) (j := 3) (C := 84 / 100) hnonneg
    (by norm_num)
  -- both radicands come from one square root
  have hplus : S.Near (p.reducedR + p.reducedDiscriminant.sqrt) 0 3 (R + ω) (1592 / 1000)
      (1594 / 1000) := hR.add hω (by norm_num)
  have hminus : S.Near (p.reducedR - p.reducedDiscriminant.sqrt) 0 3 (R - ω) (1592 / 1000)
      (1594 / 1000) := hR.sub hω (by norm_num)
  obtain ⟨σ, hσ, hσR⟩ := hplus.exists_exact (C := 8 / 5) (by norm_num)
  obtain ⟨τ, hτ, hτR⟩ := hminus.exists_exact (C := 8 / 5) (by norm_num)
  obtain ⟨s, hs, hs3⟩ := hm.exists_cbrt hσ le_rfl
  obtain ⟨t, ht, ht3⟩ := hm.exists_cbrt hτ le_rfl
  have hu := roundoff_pos
  have hradicands : IsCardanoRadicands Q R ω σ τ s t :=
    { abs_Q_le := hQ.bounded
      root := hsq.trans (by linarith)
      radicand_s := hσR.trans (by linarith)
      radicand_t := hτR.trans (by linarith)
      abs_σ_le := hσ.bounded
      abs_τ_le := hτ.bounded
      cube_s := hs3
      cube_t := ht3 }
  exact ⟨s, t, hs, ht, hradicands.isCardano hs.bounded ht.bounded hQq hRr⟩

/-- The polynomial is small at the real root by Cardano's formula. -/
theorem isSmallAt_cardano (hm : maths.IsAccurate) (h0 : ¬ p.reducedDiscriminant < 0) :
    IsSmallAt S p (p.cardanoS maths + p.cardanoT maths - p.shift) := by
  obtain ⟨s, t, hs, ht, hst⟩ := h.exists_isCardano hr hm h0
  have hsum : S.Near (p.cardanoS maths + p.cardanoT maths) 0 1 (s + t) (12 / 5) 3 :=
    hs.add ht (by norm_num)
  exact h.isSmallAt_of_near hr (hsum.sub h.near_shift (by norm_num))
    (hst.abs_sum_le.trans (by norm_num)) hst.residual_add

/-- The polynomial is small at the real part of a pair by Cardano's formula whose imaginary part
vanishes. -/
theorem isSmallAt_cardano_pair (hm : maths.IsAccurate) (h0 : ¬ p.reducedDiscriminant < 0)
    (hf : ((p.cardanoS maths - p.cardanoT maths) * (Scalar.ofNat 3 : Float).sqrt /
      Scalar.ofNat 2).isFinite = true)
    (him : toReal ((p.cardanoS maths - p.cardanoT maths) * (Scalar.ofNat 3 : Float).sqrt /
      Scalar.ofNat 2) = 0) :
    IsSmallAt S p (-(p.cardanoS maths + p.cardanoT maths) / Scalar.ofNat 2 - p.shift) := by
  obtain ⟨s, t, hs, ht, hst⟩ := h.exists_isCardano hr hm h0
  have hsum : S.Near (p.cardanoS maths + p.cardanoT maths) 0 1 (s + t) (12 / 5) 3 :=
    hs.add ht (by norm_num)
  have hdiff : S.Near (p.cardanoS maths - p.cardanoT maths) 0 1 (s - t) (12 / 5) 3 :=
    hs.sub ht (by norm_num)
  have htwo : S.Near (Scalar.ofNat 2) 0 0 2 2 0 := Scale.Near.numeral 2 (by norm_num)
  have hhalf : S.Near (-(p.cardanoS maths + p.cardanoT maths) / Scalar.ofNat 2) 0 1
      (-(s + t) / 2) (6 / 5) 3 := hsum.neg.div htwo (c := 2) (by norm_num) (by norm_num)
  -- the cube roots differ by no more than the errors of their difference
  have hclose : |s - t| ≤ 4 * roundoff := by
    have hW := abs_pos.2 (S.weight_ne_zero 0 1)
    have htiny := abs_toReal_lt_of_im_eq_zero hf him
    have hlow := S.le_abs_weight (i := 0) (j := 1) (by norm_num)
    have hsmall : (2 : ℝ) ^ (-800 : ℤ) ≤ roundoff * 2 ^ (-720 : ℤ) := by
      rw [roundoff_eq, ← zpow_add₀ two_ne_zero]
      exact zpow_le_zpow_right₀ one_le_two (by norm_num)
    have hdiv : |toReal (p.cardanoS maths - p.cardanoT maths) / S.weight 0 1| ≤ roundoff := by
      rw [abs_div, div_le_iff₀ hW]
      exact htiny.le.trans (hsmall.trans (mul_le_mul_of_nonneg_left hlow roundoff_pos.le))
    have htri := abs_sub_abs_le_abs_sub (s - t)
      (toReal (p.cardanoS maths - p.cardanoT maths) / S.weight 0 1)
    rw [abs_sub_comm (s - t)] at htri
    linarith [hdiff.abs_div_sub_le]
  refine h.isSmallAt_of_near hr (hhalf.sub h.near_shift (by norm_num)) ?_
    (hst.residual_neg_half hclose)
  rw [abs_div, abs_neg, abs_of_pos (by norm_num : (0 : ℝ) < 2)]
  linarith [hst.abs_sum_le]

end Coefficients.IsScaled

end EquationRoots
