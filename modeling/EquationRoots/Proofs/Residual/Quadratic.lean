import EquationRoots.Proofs.Binary64.Accuracy
import EquationRoots.Roots.Quadratic

/-!
# Residuals of quadratic roots

The roots that the quadratic formula finds for `a x² + b x + c` satisfy the equation up to a few
roundoffs, measured in units of `a` and of a size of which `b` and `c` are not more than one unit
(`IsScaled`). Completing the square turns the residual into the difference between the square of the
computed root of the discriminant and the discriminant.

- `IsScaled.residual_real`: the residual of both real roots.
- `IsScaled.im_ne_zero`: a conjugate pair has no zero imaginary part.
-/

set_option autoImplicit false

namespace EquationRoots

open Binary64
open scoped Scalar

namespace Quadratic

/-- The coefficients in units of a scale: the leading one is the unit, the others are at most one
unit each. -/
structure IsScaled (S : Scale) (a b c : Float) (β γ : ℝ) : Prop where
  a : S.Near a 1 0 1 1 0
  b : S.Near b 1 1 β 1 0
  c : S.Near c 1 2 γ 1 0

namespace IsScaled

variable {S : Scale} {a b c : Float} {β γ : ℝ} (h : IsScaled S a b c β γ)

include h

theorem near_discriminant :
    S.Near (quadraticDiscriminant a b c) (1 + 1) (1 + 1) (β * β - 4 * γ) 5 15 := by
  have hbb : S.Near (b * b) 2 2 (β * β) 1 (101 / 100) := h.b.mul h.b (by norm_num)
  have hfour : S.Near (Scalar.ofNat 4 * a) 1 0 (4 * 1) 4 (401 / 100) :=
    (Scale.Near.numeral 4 (by norm_num)).mul h.a (by norm_num)
  rw [mul_one] at hfour
  have hac : S.Near (Scalar.ofNat 4 * a * c) 2 2 (4 * γ) 4 (802 / 100) :=
    hfour.mul h.c (by norm_num)
  exact hbb.sub hac (by norm_num)

theorem near_denominator : S.Near (Scalar.ofNat 2 * a) 1 0 2 2 3 := by
  have htwo : S.Near (Scalar.ofNat 2 * a) 1 0 (2 * 1) 2 3 :=
    (Scale.Near.numeral 2 (by norm_num)).mul h.a (by norm_num)
  rwa [mul_one] at htwo

/-- A numerator `-b ± √Δ` leads to a number that satisfies the equation up to a few roundoffs. -/
theorem residual_of_numerator {n : Float} {τ : ℝ} (hn : S.Near n 1 1 (-β + τ) (7 / 2) 4)
    (hτ : |τ| ≤ 12 / 5) (hsq : |τ * τ - (β * β - 4 * γ)| ≤ 27 * roundoff) :
    ∃ X, S.Near (n / (Scalar.ofNat 2 * a)) 0 1 X 2 0 ∧ |X * X + β * X + γ| ≤ 25 * roundoff := by
  have hu := roundoff_pos
  have hu' := roundoff_le
  have hquot : S.Near (n / (Scalar.ofNat 2 * a)) 0 1 ((-β + τ) / 2) (7 / 4) 7 :=
    hn.div h.near_denominator (c := 2) (by norm_num) (by norm_num)
  obtain ⟨X, hX, hclose⟩ := hquot.exists_exact (C := 2) (by norm_num)
  obtain ⟨θ, hθX⟩ : ∃ θ, X = (-β + τ) / 2 + θ := ⟨X - (-β + τ) / 2, by ring⟩
  rw [hθX, add_sub_cancel_left] at hclose
  refine ⟨X, hX, ?_⟩
  -- the square is completed, and `τ` is close to a root of the discriminant
  have hsplit : X * X + β * X + γ = (τ * τ - (β * β - 4 * γ)) / 4 + θ * (τ + θ) := by
    rw [hθX]
    ring
  have hfactor : |τ + θ| ≤ 5 / 2 := (abs_add_le _ _).trans (by linarith)
  have hprod : |θ * (τ + θ)| ≤ 7 * roundoff * (5 / 2) := by
    rw [abs_mul]
    exact mul_le_mul hclose hfactor (abs_nonneg _) (by positivity)
  rw [hsplit]
  refine (abs_add_le _ _).trans ?_
  rw [abs_div, abs_of_pos (by norm_num : (0 : ℝ) < 4)]
  linarith

/-- The square root of a discriminant that is not negative. -/
theorem exists_sqrt_discriminant (h0 : ¬ quadraticDiscriminant a b c < 0) :
    ∃ ω, S.Near (Scalar.sqrt (quadraticDiscriminant a b c)) 1 1 ω (12 / 5) 0 ∧
      |ω * ω - (β * β - 4 * γ)| ≤ 27 * roundoff := by
  have hdisc := h.near_discriminant
  have hnonneg : 0 ≤ toReal (quadraticDiscriminant a b c) :=
    not_lt.1 fun hlt => h0 (lt_zero_iff.2 (Or.inr ⟨hdisc.isFinite, hlt⟩))
  obtain ⟨ω, hω, -, hsq⟩ := hdisc.exists_sqrt (C := 23 / 10) hnonneg (by norm_num)
  exact ⟨ω, hω.mono (by norm_num), hsq.trans (by nlinarith [roundoff_pos])⟩

/-- Both real roots satisfy the equation up to a few roundoffs. -/
theorem residual_real {lower upper : Float} (hroots : quadraticRoots a b c = .real lower upper) :
    ∀ x ∈ [lower, upper], ∃ X, S.Near x 0 1 X 2 0 ∧ |X * X + β * X + γ| ≤ 25 * roundoff := by
  unfold quadraticRoots at hroots
  simp only at hroots
  split at hroots
  · cases hroots
  · rename_i h0
    obtain ⟨ω, hω, hsq⟩ := h.exists_sqrt_discriminant h0
    have hminus := h.residual_of_numerator (τ := -ω)
      (by simpa only [← sub_eq_add_neg] using h.b.neg.sub hω (by norm_num))
      (by simpa using hω.bounded)
      (by simpa using hsq)
    have hplus := h.residual_of_numerator (h.b.neg.add hω (by norm_num)) hω.bounded hsq
    cases hroots
    intro x hx
    rcases List.mem_pair.1 hx with rfl | rfl
    · rcases smaller_eq_or ((-b - Scalar.sqrt (quadraticDiscriminant a b c)) / (2 * a))
        ((-b + Scalar.sqrt (quadraticDiscriminant a b c)) / (2 * a)) with heq | heq <;> rw [heq]
      · exact hminus
      · exact hplus
    · rcases larger_eq_or ((-b - Scalar.sqrt (quadraticDiscriminant a b c)) / (2 * a))
        ((-b + Scalar.sqrt (quadraticDiscriminant a b c)) / (2 * a)) with heq | heq <;> rw [heq]
      · exact hminus
      · exact hplus

/-- The denominator is far from the ends of the range of floats. -/
theorem le_abs_denominator : 2 ^ (-100 : ℤ) ≤ |toReal (Scalar.ofNat 2 * a)| ∧
    |toReal (Scalar.ofNat 2 * a)| ≤ 2 ^ (102 : ℤ) := by
  have hu := roundoff_pos
  have hu' := roundoff_le
  have hclose := h.near_denominator.close
  have hweight : S.weight 1 0 = S.lead := by simp [Scale.weight]
  rw [hweight] at hclose
  have hlow := S.lead_low
  have hhigh := S.lead_high
  have hlead : 3 * roundoff * |S.lead| ≤ |S.lead| :=
    mul_le_of_le_one_left (abs_nonneg _) (by linarith)
  have hup := abs_sub_abs_le_abs_sub (toReal (Scalar.ofNat 2 * a)) (2 * S.lead)
  have hdown := abs_sub_abs_le_abs_sub (2 * S.lead) (toReal (Scalar.ofNat 2 * a))
  rw [abs_sub_comm] at hdown
  rw [abs_mul, abs_of_pos (by norm_num : (0 : ℝ) < 2)] at hup hdown
  constructor
  · have hpow : (2 : ℝ) ^ (-100 : ℤ) ≤ (10 ^ 30)⁻¹ := by norm_num
    refine (hpow.trans hlow).trans ?_
    linarith
  · have hpow : 3 * (10 : ℝ) ^ 30 ≤ 2 ^ (102 : ℤ) := by norm_num
    linarith

/-- The square root of a discriminant other than zero, over the denominator, is not zero. -/
theorem sqrt_div_ne_zero {x : Float} (hx : x.isFinite = true) (h0 : 0 < toReal x) :
    toReal (x.sqrt / (Scalar.ofNat 2 * a)) ≠ 0 := by
  obtain ⟨hlow, hhigh⟩ := h.le_abs_denominator
  have hden : toReal (Scalar.ofNat 2 * a) ≠ 0 := by
    have hpos : (0 : ℝ) < 2 ^ (-100 : ℤ) := by positivity
    exact abs_pos.1 (hpos.trans_le hlow)
  have hleast := le_abs_toReal h0.ne'
  rw [abs_of_pos h0] at hleast
  have hroot : 2 ^ (-537 : ℤ) ≤ |toReal x.sqrt| :=
    le_abs_toReal_sqrt hx hleast (by norm_num)
  have hwithin := isWithin_sqrt hx h0.le
  have hfinite := (hwithin.div hlow (by norm_num) (by norm_num)).1
  have hquot := le_abs_toReal_div hwithin.1 hfinite hroot hden hhigh (by norm_num)
  have hpos : (0 : ℝ) < 2 ^ (-537 - 102 : ℤ) := by positivity
  exact abs_pos.1 (hpos.trans_le hquot)

/-- The numbers of a conjugate pair are not real: their imaginary parts do not underflow. -/
theorem im_ne_zero {first second : ComplexNum Float}
    (hroots : quadraticRoots a b c = .pair first second) :
    toReal first.im ≠ 0 ∧ toReal second.im ≠ 0 := by
  unfold quadraticRoots at hroots
  simp only at hroots
  split at hroots
  · rename_i hneg
    cases hroots
    have hdisc := h.near_discriminant.isFinite
    have hlt : toReal (quadraticDiscriminant a b c) < 0 := (lt_zero_iff.1 hneg).toReal_lt hdisc
    have him := h.sqrt_div_ne_zero (x := (quadraticDiscriminant a b c).abs)
      (by rwa [isFinite_abs]) (by rw [toReal_abs]; exact abs_pos.2 hlt.ne)
    refine ⟨?_, him⟩
    show toReal (-_) ≠ 0
    rw [toReal_neg, neg_ne_zero]
    exact him
  · cases hroots

end IsScaled

end Quadratic

end EquationRoots
