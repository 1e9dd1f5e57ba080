import EquationRoots.Proofs.Exact.Quadratic

/-!
# Exact cubic roots

A cubic polynomial `a x³ + b x² + c x + d` becomes `y³ + 3 q y - 2 r` when `x = y - b / (3 a)`.
Three numbers with the sum zero, the sum of products `3 q` and the product `2 r`, shifted back, are
its roots (`mul_factorProduct_shifted`). Cardano's formula and the trigonometric one find three such
numbers, the first because `s t = -q`, the second by the triple-angle formula.
-/

set_option autoImplicit false

namespace EquationRoots

open Polynomial Solution

/-! ## Depressed polynomials -/

/-- Three numbers with the elementary symmetric sums of the roots give the factors. -/
theorem mul_factorProduct_triple {a b c d u v w : ℂ} (h₁ : a * (u + v + w) = -b)
    (h₂ : a * (u * v + u * w + v * w) = c) (h₃ : a * (u * v * w) = -d) :
    C a * factorProduct [u, v, w] = C a * X ^ 3 + C b * X ^ 2 + C c * X + C d := by
  have hb : b = -(a * (u + v + w)) := by rw [h₁, neg_neg]
  have hd : d = -(a * (u * v * w)) := by rw [h₃, neg_neg]
  simp only [factorProduct, List.map_cons, List.map_nil, List.prod_cons, List.prod_nil, mul_one, hb,
    hd, ← h₂, C_neg, C_mul, C_add]
  ring

namespace Coefficients

variable {p : Coefficients ℝ}

/-- The sum of products of the roots, in reduced coefficients. -/
theorem mul_reducedQ_add_shift_sq (ha : p.a ≠ 0) :
    p.a * (3 * @reducedQ ℝ Scalar.real p + 3 * @shift ℝ Scalar.real p ^ 2) = p.c := by
  rw [real_reducedQ, real_shift]
  field_simp
  ring

/-- The product of the roots, in reduced coefficients. -/
theorem mul_reducedR_sub_shift (ha : p.a ≠ 0) :
    p.a * (2 * @reducedR ℝ Scalar.real p - 3 * @reducedQ ℝ Scalar.real p * @shift ℝ Scalar.real p -
      @shift ℝ Scalar.real p ^ 3) = -p.d := by
  rw [real_reducedQ, real_reducedR, real_shift]
  field_simp
  ring

theorem mul_shift (ha : p.a ≠ 0) : p.a * (3 * @shift ℝ Scalar.real p) = p.b := by
  rw [real_shift]
  field_simp

/-- Three roots of the depressed polynomial, shifted back, give the factors. -/
theorem mul_factorProduct_shifted (ha : p.a ≠ 0) {u v w : ℂ} (h₁ : u + v + w = 0)
    (h₂ : u * v + u * w + v * w = 3 * (@reducedQ ℝ Scalar.real p : ℂ))
    (h₃ : u * v * w = 2 * (@reducedR ℝ Scalar.real p : ℂ)) :
    C (p.a : ℂ) * factorProduct [u - (@shift ℝ Scalar.real p : ℂ), v - (@shift ℝ Scalar.real p : ℂ),
      w - (@shift ℝ Scalar.real p : ℂ)] = p.complexPolynomial := by
  have hb := congrArg (fun x : ℝ => (x : ℂ)) (mul_shift ha)
  have hc := congrArg (fun x : ℝ => (x : ℂ)) (mul_reducedQ_add_shift_sq ha)
  have hd := congrArg (fun x : ℝ => (x : ℂ)) (mul_reducedR_sub_shift ha)
  push_cast at hb hc hd
  -- the symmetric sums of the shifted numbers are linear in those of the numbers
  generalize (@shift ℝ Scalar.real p : ℂ) = B at hb hc hd ⊢
  generalize (@reducedQ ℝ Scalar.real p : ℂ) = q at h₂ hc hd
  generalize (@reducedR ℝ Scalar.real p : ℂ) = r at h₃ hd
  apply mul_factorProduct_triple
  · linear_combination (p.a : ℂ) * h₁ - hb
  · linear_combination (p.a : ℂ) * h₂ - 2 * B * (p.a : ℂ) * h₁ + hc
  · linear_combination (p.a : ℂ) * h₃ - B * (p.a : ℂ) * h₂ + B ^ 2 * (p.a : ℂ) * h₁ + hd

/-! ## Cardano's formula -/

/-- The product of the two cube roots. -/
theorem cardanoS_mul_cardanoT (h : 0 ≤ @reducedDiscriminant ℝ Scalar.real p) :
    @cardanoS ℝ Scalar.real .exact p * @cardanoT ℝ Scalar.real .exact p =
      -@reducedQ ℝ Scalar.real p := by
  have hroot := Real.mul_self_sqrt h
  -- third powers are compared: `(r + √D) (r - √D) = r² - D = -q³`
  apply (Odd.strictMono_pow (R := ℝ) (n := 3) (by decide)).injective
  simp only [real_cardanoS, real_cardanoT, mul_pow, cubeRoot_pow_three]
  rw [real_reducedDiscriminant] at hroot ⊢
  linear_combination -hroot

/-- The sum of the third powers of the two cube roots. -/
theorem cardanoS_pow_add_cardanoT_pow :
    @cardanoS ℝ Scalar.real .exact p ^ 3 + @cardanoT ℝ Scalar.real .exact p ^ 3 =
      2 * @reducedR ℝ Scalar.real p := by
  rw [real_cardanoS, real_cardanoT, cubeRoot_pow_three, cubeRoot_pow_three]
  ring

/-- Cardano's formula finds all factors. -/
theorem mul_factorProduct_cardanoRoots (ha : p.a ≠ 0)
    (h : 0 ≤ @reducedDiscriminant ℝ Scalar.real p) :
    C (p.a : ℂ) * factorProduct
        ((@cardanoRoots ℝ Scalar.real .exact p).map ComplexNum.toComplex) =
      p.complexPolynomial := by
  have hst := cardanoS_mul_cardanoT h
  have hcubes := cardanoS_pow_add_cardanoT_pow (p := p)
  have hthree : √3 * √3 = (3 : ℝ) := Real.mul_self_sqrt (by norm_num)
  rw [real_cardanoRoots]
  generalize @cardanoS ℝ Scalar.real .exact p = s at hst hcubes ⊢
  generalize @cardanoT ℝ Scalar.real .exact p = t at hst hcubes ⊢
  have hshift (x y B : ℝ) : ComplexNum.toComplex ⟨x - B, y⟩ = ⟨x, y⟩ - (B : ℂ) := by
    apply Complex.ext <;> simp [ComplexNum.toComplex]
  rw [List.map_cons, List.map_cons, List.map_cons, List.map_nil, ComplexNum.toComplex_ofReal,
    hshift, hshift, Complex.ofReal_sub]
  -- The three symmetric sums, by their real and imaginary parts.
  apply mul_factorProduct_shifted ha
  · apply Complex.ext <;> simp only [Complex.add_re, Complex.add_im, Complex.ofReal_re,
      Complex.ofReal_im, Complex.zero_re, Complex.zero_im] <;> ring
  · rw [show 3 * (@reducedQ ℝ Scalar.real p : ℂ) = ((3 * @reducedQ ℝ Scalar.real p : ℝ) : ℂ) by
      push_cast; rfl]
    apply Complex.ext <;> simp only [Complex.add_re, Complex.add_im, Complex.mul_re, Complex.mul_im,
      Complex.ofReal_re, Complex.ofReal_im]
    · linear_combination -3 * hst + (s - t) ^ 2 / 4 * hthree
    · ring
  · rw [show 2 * (@reducedR ℝ Scalar.real p : ℂ) = ((2 * @reducedR ℝ Scalar.real p : ℝ) : ℂ) by
      push_cast; rfl]
    apply Complex.ext <;> simp only [Complex.mul_re, Complex.mul_im, Complex.ofReal_re,
      Complex.ofReal_im]
    · linear_combination hcubes + (s + t) * (s - t) ^ 2 / 4 * hthree
    · ring

/-! ## The trigonometric formula -/

/-- The cosines of three angles that differ by thirds of a turn. -/
theorem cos_sub_third (φ : ℝ) :
    Real.cos (φ - 2 * Real.pi / 3) = -Real.cos φ / 2 + √3 / 2 * Real.sin φ := by
  rw [Real.cos_sub, show 2 * Real.pi / 3 = Real.pi - Real.pi / 3 by ring, Real.cos_pi_sub,
    Real.sin_pi_sub, Real.cos_pi_div_three, Real.sin_pi_div_three]
  ring

theorem cos_sub_two_thirds (φ : ℝ) :
    Real.cos (φ - 4 * Real.pi / 3) = -Real.cos φ / 2 - √3 / 2 * Real.sin φ := by
  rw [Real.cos_sub, show 4 * Real.pi / 3 = Real.pi / 3 + Real.pi by ring, Real.cos_add_pi,
    Real.sin_add_pi, Real.cos_pi_div_three, Real.sin_pi_div_three]
  ring

/-- The symmetric sums of the three cosines. -/
theorem cosines_symmetric (φ : ℝ) {x y z : ℝ} (hx : x = Real.cos φ)
    (hy : y = Real.cos (φ - 2 * Real.pi / 3)) (hz : z = Real.cos (φ - 4 * Real.pi / 3)) :
    x + y + z = 0 ∧ x * y + x * z + y * z = -3 / 4 ∧ x * y * z = Real.cos (3 * φ) / 4 := by
  have hthree : √3 * √3 = (3 : ℝ) := Real.mul_self_sqrt (by norm_num)
  have hcircle := Real.sin_sq_add_cos_sq φ
  rw [hx, hy, hz, cos_sub_third, cos_sub_two_thirds, Real.cos_three_mul]
  refine ⟨by ring, ?_, ?_⟩
  · linear_combination -(Real.sin φ ^ 2) / 4 * hthree - 3 / 4 * hcircle
  · linear_combination -(Real.cos φ * Real.sin φ ^ 2) / 4 * hthree - 3 / 4 * Real.cos φ * hcircle

/-- Where `q³ + r² < 0`, the coefficient `q` is negative. -/
theorem reducedQ_neg (h : @reducedDiscriminant ℝ Scalar.real p < 0) :
    @reducedQ ℝ Scalar.real p < 0 := by
  rw [real_reducedDiscriminant] at h
  by_contra hq
  have := pow_nonneg (not_lt.1 hq) 3
  linarith [sq_nonneg (@reducedR ℝ Scalar.real p)]

theorem depressedP_eq_reducedQ (ha : p.a ≠ 0) :
    @depressedP ℝ Scalar.real p = 3 * @reducedQ ℝ Scalar.real p := by
  rw [real_depressedP, real_reducedQ]
  field_simp
  ring

theorem depressedQ_eq_reducedR (ha : p.a ≠ 0) :
    @depressedQ ℝ Scalar.real p = -2 * @reducedR ℝ Scalar.real p := by
  rw [real_depressedQ, real_reducedR]
  field_simp
  ring

/-- The amplitude, in reduced coefficients. -/
theorem amplitude_eq (ha : p.a ≠ 0) :
    @amplitude ℝ Scalar.real p = 2 * √(-@reducedQ ℝ Scalar.real p) := by
  rw [real_amplitude, depressedP_eq_reducedQ ha]
  congr 2
  ring

theorem sqrt_neg_pow_three {q : ℝ} (hq : q < 0) : √(-q ^ 3) = √(-q) ^ 3 := by
  have hpos : 0 < -q := neg_pos.2 hq
  rw [← Odd.neg_pow (by decide), pow_succ, pow_succ (√(-q)), Real.sqrt_mul (sq_nonneg _),
    Real.sqrt_sq hpos.le, Real.sq_sqrt hpos.le]

/-- The cosine of the angle, in reduced coefficients. -/
theorem angleCosine_eq (ha : p.a ≠ 0) (h : @reducedDiscriminant ℝ Scalar.real p < 0) :
    @angleCosine ℝ Scalar.real p =
      @reducedR ℝ Scalar.real p / √(-@reducedQ ℝ Scalar.real p ^ 3) := by
  have hq := reducedQ_neg h
  rw [real_angleCosine, depressedP_eq_reducedQ ha, depressedQ_eq_reducedR ha]
  generalize @reducedQ ℝ Scalar.real p = q at hq ⊢
  generalize @reducedR ℝ Scalar.real p = r
  have hpos : 0 < -q := neg_pos.2 hq
  have hsquare : √(-q) ^ 2 = -q := Real.sq_sqrt hpos.le
  have hroot : √(-q) ≠ 0 := (Real.sqrt_pos.2 hpos).ne'
  -- both roots are expressed by `√(-q)`
  have hthree : √(-3 / (3 * q)) = (√(-q))⁻¹ := by
    rw [← Real.sqrt_inv]
    congr 1
    field_simp
  rw [hthree, sqrt_neg_pow_three hq, pow_succ, hsquare]
  field_simp

/-- The cosine is strictly between its bounds, so that nothing is cut off by clamping. -/
theorem abs_angleCosine_lt_one (ha : p.a ≠ 0) (h : @reducedDiscriminant ℝ Scalar.real p < 0) :
    |@angleCosine ℝ Scalar.real p| < 1 := by
  rw [angleCosine_eq ha h]
  have hq := reducedQ_neg h
  rw [real_reducedDiscriminant] at h
  generalize @reducedQ ℝ Scalar.real p = q at hq h ⊢
  generalize @reducedR ℝ Scalar.real p = r at h ⊢
  have hlt : r ^ 2 < -q ^ 3 := by linarith
  have hroot : |r| < √(-q ^ 3) := by
    rw [← Real.sqrt_sq_eq_abs]
    exact Real.sqrt_lt_sqrt (sq_nonneg r) hlt
  rw [abs_div, abs_of_nonneg (Real.sqrt_nonneg _), div_lt_one ((abs_nonneg r).trans_lt hroot)]
  exact hroot

/-- The trigonometric formula finds all factors. -/
theorem mul_factorProduct_trigonometricRoots (ha : p.a ≠ 0)
    (h : @reducedDiscriminant ℝ Scalar.real p < 0) :
    C (p.a : ℂ) * factorProduct
        (((@trigonometricRoots ℝ Scalar.real .exact p).map (@ComplexNum.ofReal ℝ Scalar.real)).map
          ComplexNum.toComplex) =
      p.complexPolynomial := by
  have hle := abs_le.1 (abs_angleCosine_lt_one ha h).le
  have hq := reducedQ_neg h
  -- Three times the angle of the first root has the cosine in question.
  have htriple : Real.cos (3 * (@angle ℝ Scalar.real .exact p / 3)) =
      @reducedR ℝ Scalar.real p / √(-@reducedQ ℝ Scalar.real p) ^ 3 := by
    rw [mul_div_cancel₀ _ (three_ne_zero : (3 : ℝ) ≠ 0), real_angle, real_clamp hle.1 hle.2,
      Real.cos_arccos hle.1 hle.2, angleCosine_eq ha h, sqrt_neg_pow_three hq]
  obtain ⟨h₁, h₂, h₃⟩ := cosines_symmetric (@angle ℝ Scalar.real .exact p / 3) rfl rfl rfl
  rw [htriple] at h₃
  rw [real_trigonometricRoots, amplitude_eq ha]
  generalize @angle ℝ Scalar.real .exact p = θ at h₁ h₂ h₃ ⊢
  -- from here on only the symmetric sums of the three cosines matter
  generalize Real.cos (θ / 3) = x at h₁ h₂ h₃ ⊢
  generalize Real.cos (θ / 3 - 2 * Real.pi / 3) = y at h₁ h₂ h₃ ⊢
  generalize Real.cos (θ / 3 - 4 * Real.pi / 3) = z at h₁ h₂ h₃ ⊢
  have hsquare := Real.sq_sqrt (neg_pos.2 hq).le
  have hcube := mul_div_cancel₀ (@reducedR ℝ Scalar.real p)
    (pow_ne_zero 3 (Real.sqrt_pos.2 (neg_pos.2 hq)).ne')
  generalize √(-@reducedQ ℝ Scalar.real p) = m at h₃ hsquare hcube ⊢
  simp only [List.map_cons, List.map_nil, ComplexNum.toComplex_ofReal, Complex.ofReal_sub]
  apply mul_factorProduct_shifted ha
  · exact_mod_cast show 2 * m * x + 2 * m * y + 2 * m * z = 0 by linear_combination 2 * m * h₁
  · exact_mod_cast show 2 * m * x * (2 * m * y) + 2 * m * x * (2 * m * z) +
        2 * m * y * (2 * m * z) = 3 * @reducedQ ℝ Scalar.real p by
      linear_combination 4 * m ^ 2 * h₂ - 3 * hsquare
  · exact_mod_cast show 2 * m * x * (2 * m * y) * (2 * m * z) = 2 * @reducedR ℝ Scalar.real p by
      linear_combination 8 * m ^ 3 * h₃ + 2 * hcube

/-! ## All branches -/

/-- In exact arithmetic every cubic formula finds all factors. -/
theorem mul_factorProduct_cubicRoots (ha : p.a ≠ 0) :
    C (p.a : ℂ) * factorProduct
        ((@cubicRoots ℝ Scalar.real .exact p).roots.map ComplexNum.toComplex) =
      p.complexPolynomial := by
  by_cases hd : p.d = 0
  -- without a constant term the variable is one factor
  · have hquad := factorProduct_quadraticRoots ha (b := p.b) (c := p.c)
    rw [real_cubicRoots_of_d_eq_zero hd, List.map_cons, ComplexNum.toComplex_ofReal]
    rw [factorProduct_cons, Complex.ofReal_zero, C_0, sub_zero, mul_left_comm, hquad,
      complexPolynomial, hd, Complex.ofReal_zero, C_0]
    ring
  · rcases lt_or_ge (@reducedDiscriminant ℝ Scalar.real p) 0 with h | h
    · rw [real_cubicRoots_of_neg hd h]
      exact mul_factorProduct_trigonometricRoots ha h
    · rw [real_cubicRoots_of_nonneg hd h]
      exact mul_factorProduct_cardanoRoots ha h

end Coefficients

end EquationRoots
