import EquationRoots.Proofs.Residual.Cubic
import EquationRoots.Proofs.Residual.Elementary
import Mathlib.Analysis.Real.Pi.Bounds

/-!
# Residuals of the roots by the trigonometric formula

The depressed polynomial `y³ + P y + D` with `P = -3 n²` has the root `2 n u` when `4 u³ - 3 u` is
the cosine `-D / (2 n³)` of some angle. Where `n` is not small the formula finds that cosine, and a
third of the angle, up to roundoffs; rounding in `q³ + r² < 0` lets the cosine leave its range only
by so much that clamping it is harmless. Where `n` is small, so are all three roots, and the value
of the polynomial is small whatever the angle is.

- `isSmallAt_trigonometric`: the value of the polynomial at each root.
-/

set_option autoImplicit false

namespace EquationRoots

open Binary64
open scoped Scalar

/-! ## The depressed polynomial -/

/-- The depressed coefficients `P = -3 n²` and `D` that rounding makes of `3 q` and `-2 r`. Half of
the amplitude, `n`, is of moderate size, and the cosine `-D / (2 n³)` is in its range or barely out
of it. -/
structure IsDepressed (q r P D n : ℝ) : Prop where
  n_pos : 0 < n
  n_le : n ≤ 7 / 10
  P_eq : P = -3 * (n * n)
  P_close : |P - 3 * q| ≤ 8 * roundoff
  D_close : |D - -(2 * r)| ≤ 12 * roundoff
  D_le : |D| ≤ 2 * n ^ 3 + 11 / 100000000

/-- A number whose square is bounded with a small excess. -/
theorem abs_le_of_mul_self_le {x b : ℝ} (hb : 0 ≤ b)
    (h : x * x ≤ b * b + 100 * roundoff) : |x| ≤ b + 11 / 100000000 := by
  have hu' := roundoff_le
  refine abs_le_of_sq_le_sq ?_ (by linarith)
  nlinarith

/-- A negative number, as a multiple of a square. -/
theorem exists_eq_neg_three_mul {P : ℝ} (hP : P < 0) : ∃ n, 0 < n ∧ P = -3 * (n * n) := by
  have hpos : 0 < -P / 3 := by linarith
  refine ⟨√(-P / 3), Real.sqrt_pos.2 hpos, ?_⟩
  rw [Real.mul_self_sqrt hpos.le]
  ring

/-- Where `Q³ + R²` is not positive, up to roundoffs, neither is `(P / 3)³ + (D / 2)²`. -/
theorem depressed_discriminant_le {q r Q R P D : ℝ} (hQ : |Q| ≤ 1 / 2) (hR : |R| ≤ 3 / 4)
    (hneg : Q * Q * Q + R * R ≤ 2 * roundoff) (hQq : |Q - q| ≤ 3 * roundoff)
    (hRr : |R - r| ≤ 6 * roundoff) (hP : |P - 3 * q| ≤ 8 * roundoff)
    (hD : |D - -(2 * r)| ≤ 12 * roundoff) :
    P / 3 * (P / 3) * (P / 3) + D / 2 * (D / 2) ≤ 25 * roundoff := by
  have hu := roundoff_pos
  have hu' := roundoff_le
  -- `P / 3` and `-D / 2` are `Q` and `R` up to errors of a few roundoffs
  obtain ⟨η, hη⟩ : ∃ η, P / 3 = Q + η := ⟨P / 3 - Q, by ring⟩
  obtain ⟨μ, hμ⟩ : ∃ μ, D / 2 = μ - R := ⟨D / 2 + R, by ring⟩
  have hη' : |η| ≤ 6 * roundoff := by
    rw [abs_le] at hP hQq ⊢
    constructor <;> linarith
  have hμ' : |μ| ≤ 12 * roundoff := by
    rw [abs_le] at hD hRr ⊢
    constructor <;> linarith
  have hfirst : η * (3 * (Q * Q) + 3 * Q * η + η * η) ≤ 6 * roundoff * (77 / 100) := by
    have hη1 : |η| ≤ 1 / 1000 := hη'.trans (by linarith)
    have hfactor : |3 * (Q * Q) + 3 * Q * η + η * η| ≤ 77 / 100 := by
      rw [abs_le] at hQ hη1 ⊢
      constructor <;> nlinarith
    refine (le_abs_self _).trans ?_
    rw [abs_mul]
    exact mul_le_mul hη' hfactor (abs_nonneg _) (by positivity)
  have hsecond : μ * (μ - 2 * R) ≤ 12 * roundoff * (151 / 100) := by
    have hμ1 : |μ| ≤ 1 / 1000 := hμ'.trans (by linarith)
    have hfactor : |μ - 2 * R| ≤ 151 / 100 := by
      rw [abs_le] at hR hμ1 ⊢
      constructor <;> linarith
    refine (le_abs_self _).trans ?_
    rw [abs_mul]
    exact mul_le_mul hμ' hfactor (abs_nonneg _) (by positivity)
  have hsplit : P / 3 * (P / 3) * (P / 3) + D / 2 * (D / 2) = (Q * Q * Q + R * R) +
      η * (3 * (Q * Q) + 3 * Q * η + η * η) + μ * (μ - 2 * R) := by
    rw [hη, hμ]
    ring
  linarith

namespace IsDepressed

variable {q r P D n : ℝ} (h : IsDepressed q r P D n)

include h

/-- The value of the reduced polynomial is nearly that of the depressed one. -/
theorem abs_residual_le {y B : ℝ} (hy : |y| ≤ 3 / 2)
    (hres : |y ^ 3 - 3 * (n * n) * y + D| ≤ B) (hB : B ≤ 1 / 10000) :
    |y ^ 3 + 3 * q * y - 2 * r| ≤ 2 / 10000 := by
  have hu' := roundoff_le
  have hsplit : y ^ 3 + 3 * q * y - 2 * r =
      (y ^ 3 - 3 * (n * n) * y + D) - (P - 3 * q) * y - (D - -(2 * r)) := by
    rw [h.P_eq]
    ring
  have hprod : |(P - 3 * q) * y| ≤ 8 * roundoff * (3 / 2) := by
    rw [abs_mul]
    exact mul_le_mul h.P_close hy (abs_nonneg _) (by linarith [roundoff_pos])
  rw [hsplit]
  refine (abs_sub _ _).trans ?_
  have htri := abs_sub (y ^ 3 - 3 * (n * n) * y + D) ((P - 3 * q) * y)
  linarith [h.D_close]

/-- Where the roots are small, the value is small at all small numbers. -/
theorem residual_of_small (hn : n ≤ 1 / 100) {y : ℝ} (hy : |y| ≤ 21 / 1000) :
    |y ^ 3 + 3 * q * y - 2 * r| ≤ 2 / 10000 := by
  have hn0 := h.n_pos.le
  refine h.abs_residual_le (hy.trans (by norm_num)) (B := 1 / 10000) ?_ le_rfl
  have hcube : |y ^ 3| ≤ (21 / 1000) ^ 3 := by
    rw [abs_pow]
    gcongr
  have hlinear : |3 * (n * n) * y| ≤ 3 * (1 / 100 * (1 / 100)) * (21 / 1000) := by
    rw [abs_mul, abs_of_nonneg (by positivity : 0 ≤ 3 * (n * n))]
    gcongr
  have hn3 : n ^ 3 ≤ (1 / 100) ^ 3 := by gcongr
  have htri := abs_sub (y ^ 3) (3 * (n * n) * y)
  have htri' := abs_add_le (y ^ 3 - 3 * (n * n) * y) D
  have hD := h.D_le
  linarith

/-- Clamping a cosine that is nearly `-D / (2 n³)` moves the value by little. -/
theorem abs_clamped_le {x k κ : ℝ} (hκ : D = -(2 * n ^ 3 * κ)) (hx : |x - κ| ≤ 10 * roundoff)
    (hk : k = max (-1) (min 1 x)) : |2 * n ^ 3 * k + D| ≤ 2 / 10000000 := by
  have hu' := roundoff_le
  have hn0 := h.n_pos.le
  have hn3 : 2 * n ^ 3 ≤ 1 := by
    have hle : n ^ 3 ≤ (7 / 10) ^ 3 := pow_le_pow_left₀ hn0 h.n_le 3
    norm_num at hle
    linarith
  have hn3' : 0 ≤ 2 * n ^ 3 := by positivity
  have hD := abs_le.1 h.D_le
  have hx' := abs_le.1 hx
  rw [abs_le]
  -- `κ` is hardly outside the range, so that clamping moves a number next to it by little
  rcases le_total x (-1) with hlow | hlow
  · rw [min_eq_right (by linarith), max_eq_left hlow] at hk
    have hprod := mul_le_mul_of_nonneg_left hx'.1 hn3'
    rw [hk]
    constructor <;> nlinarith
  rcases le_total x 1 with hhigh | hhigh
  · rw [min_eq_right hhigh, max_eq_right hlow] at hk
    rw [hk, hκ]
    constructor <;> nlinarith
  · rw [min_eq_left hhigh, max_eq_right (by norm_num)] at hk
    rw [hk]
    constructor <;> nlinarith

/-- The number `2 ω u` is nearly a root when `4 u³ - 3 u` is the clamped cosine and `ω` is nearly
`n`. -/
theorem residual_of_cosine {x k κ ω u : ℝ} (hκ : D = -(2 * n ^ 3 * κ))
    (hx : |x - κ| ≤ 10 * roundoff) (hk : k = max (-1) (min 1 x)) (hu : 4 * u ^ 3 - 3 * u = k)
    (hu1 : |u| ≤ 1) (hω0 : 0 ≤ ω) (hω : |ω * ω - n * n| ≤ 2 * roundoff) (hω1 : ω ≤ 3 / 4) :
    |(2 * ω * u) ^ 3 + 3 * q * (2 * ω * u) - 2 * r| ≤ 2 / 10000 := by
  have hpos := roundoff_pos
  have hsmall := roundoff_le
  have hn0 := h.n_pos
  have hk1 : |k| ≤ 1 := by
    rw [hk, abs_le]
    exact ⟨le_max_left _ _, max_le (by norm_num) (min_le_left _ _)⟩
  have hu3 : |u ^ 3| ≤ 1 := by
    rw [abs_pow]
    exact pow_le_one₀ (abs_nonneg u) hu1
  refine h.abs_residual_le ?_ (B := 3 / 10000000) ?_ (by norm_num)
  · rw [abs_mul, abs_of_nonneg (by positivity)]
    nlinarith [abs_nonneg u]
  have hsplit : (2 * ω * u) ^ 3 - 3 * (n * n) * (2 * ω * u) + D =
      8 * ω * (ω * ω - n * n) * u ^ 3 + 2 * (n * n) * (ω - n) * k + (2 * n ^ 3 * k + D) := by
    rw [← hu]
    ring
  have hfirst : |8 * ω * (ω * ω - n * n) * u ^ 3| ≤ 8 * (3 / 4) * (2 * roundoff) * 1 := by
    rw [abs_mul, abs_mul, abs_of_nonneg (by positivity : 0 ≤ 8 * ω)]
    gcongr
  -- the difference of the squares has the factor `ω - n`, and the other one is at least `n`
  have hfactor : |ω - n| * n ≤ 2 * roundoff := by
    have hprod : |ω * ω - n * n| = |ω - n| * (ω + n) := by
      rw [← abs_of_nonneg (by positivity : 0 ≤ ω + n), ← abs_mul]
      ring_nf
    rw [hprod] at hω
    nlinarith [mul_nonneg (abs_nonneg (ω - n)) hω0]
  have hsecond : |2 * (n * n) * (ω - n) * k| ≤ 2 * (7 / 10) * (2 * roundoff) * 1 := by
    have hsplit' : 2 * (n * n) * (ω - n) * k = 2 * n * ((ω - n) * n) * k := by ring
    rw [hsplit', abs_mul, abs_mul, abs_of_pos (by positivity : 0 < 2 * n), abs_mul,
      abs_of_pos hn0]
    gcongr
    exact h.n_le
  rw [hsplit]
  refine (abs_add_three _ _ _).trans ?_
  linarith [h.abs_clamped_le hκ hx hk]

end IsDepressed

/-! ## The angle -/

/-- The float nearest to the circle constant. -/
theorem near_pi (S : Scale) : S.Near Scalar.pi 0 0 Real.pi (315 / 100) 2 := by
  have hview : view (Scalar.pi : Float) =
      .finite .positive 7074237752028440 (-51) (by norm_num) := rfl
  have hvalue : toReal (Scalar.pi : Float) = 7074237752028440 * 2 ^ (-51 : ℤ) := by
    rw [toReal, hview, realOf_finite, signFactor, one_mul]
    norm_cast
  have hlow := Real.pi_gt_d20
  have hhigh := Real.pi_lt_d20
  refine ⟨isWithin_pi.isFinite, ?_, ?_, by norm_num, by norm_num⟩
  · rw [hvalue, Scale.weight_zero, roundoff_eq, abs_le]
    norm_num
    constructor <;> linarith
  · rw [abs_of_pos Real.pi_pos]
    linarith

namespace Coefficients

variable {S : Scale} {p : Coefficients Float} {maths : Elementary Float} {β γ δ q r P D n : ℝ}

/-- The cosine of the third of an angle satisfies `4 u³ - 3 u = c`, where `c` is the cosine of the
angle. -/
theorem thirdCosine_eq {c u : ℝ} (hc : |c| ≤ 1) {k : ℕ}
    (hu : u = Real.cos ((Real.arccos c - 2 * Real.pi * k) / 3)) : 4 * u ^ 3 - 3 * u = c := by
  have hangle : 3 * ((Real.arccos c - 2 * Real.pi * k) / 3) =
      Real.arccos c - k * (2 * Real.pi) := by ring
  rw [hu, ← Real.cos_three_mul, hangle, Real.cos_sub_nat_mul_two_pi,
    Real.cos_arccos (abs_le.1 hc).1 (abs_le.1 hc).2]

/-- The third of an angle, less `k` turns. -/
theorem near_third {φ : Float} {Φ : ℝ} (h : S.Near φ 0 0 Φ (315 / 100) 16) {k : ℕ} (hk : k ≤ 2) :
    S.Near ((φ - Scalar.ofNat 2 * Scalar.pi * Scalar.ofNat k) / Scalar.ofNat 3) 0 0
      ((Φ - 2 * Real.pi * k) / 3) (53 / 10) 28 := by
  have hk' : (k : ℝ) ≤ 2 := by exact_mod_cast hk
  have htwoPi : S.Near (Scalar.ofNat 2 * Scalar.pi) 0 0 (2 * Real.pi) (63 / 10) (104 / 10) :=
    (Scale.Near.numeral 2 (by norm_num)).mul (near_pi S) (by norm_num)
  have hturn : S.Near (Scalar.ofNat 2 * Scalar.pi * Scalar.ofNat k) 0 0 (2 * Real.pi * k)
      (126 / 10) (335 / 10) :=
    htwoPi.mul ((Scale.Near.numeral k (by omega)).mono ⟨hk', le_rfl, by norm_num, by norm_num⟩)
      (by norm_num)
  have hdiff : S.Near (φ - Scalar.ofNat 2 * Scalar.pi * Scalar.ofNat k) 0 0
      (Φ - 2 * Real.pi * k) (158 / 10) 66 := h.sub hturn (by norm_num)
  exact hdiff.div (Scale.Near.numeral 3 (by norm_num)) (c := 3) (by norm_num) (by norm_num)

/-- An accurate cosine of an angle that is close to another one. -/
theorem near_cos (hm : maths.IsAccurate) {φ : Float} {Φ : ℝ} (h : S.Near φ 0 0 Φ (53 / 10) 28) :
    S.Near (maths.cos φ) 0 0 (Real.cos Φ) 1 36 := by
  obtain ⟨hf, hcos⟩ := hm.cos φ h.isFinite
  have hargument := h.abs_div_sub_le
  refine Scale.Near.of_abs_div_sub_le hf ?_ (Real.abs_cos_le_one _) (by norm_num) (by norm_num)
  rw [Scale.weight_zero, div_one] at hargument ⊢
  -- the cosine moves by no more than its argument
  have hmove := (Real.abs_cos_sub_cos_le (toReal φ) Φ).trans hargument
  refine (abs_sub_le _ _ _).trans ((add_le_add hcos hmove).trans ?_)
  linarith

/-- The cosine in the root number `k`. -/
theorem near_thirdCosine (S : Scale) (hm : maths.IsAccurate) (hc : p.angleCosine.isNaN = false)
    {k : ℕ} (hk : k ≤ 2) :
    S.Near (maths.cos ((p.angle maths - Scalar.ofNat 2 * Scalar.pi * Scalar.ofNat k) /
      Scalar.ofNat 3)) 0 0
      (Real.cos ((Real.arccos (toReal (Scalar.clamp (-1) 1 p.angleCosine)) - 2 * Real.pi * k) / 3))
      1 36 := by
  obtain ⟨hclampf, hclamp⟩ := abs_clamp_le hc
  obtain ⟨hf, hangle⟩ := hm.acos _ hclampf hclamp
  have harccos : S.Near (p.angle maths) 0 0
      (Real.arccos (toReal (Scalar.clamp (-1) 1 p.angleCosine))) (315 / 100) 16 := by
    refine Scale.Near.of_abs_div_sub_le hf ?_ ?_ (by norm_num) (by norm_num)
    · rw [Scale.weight_zero, div_one]
      exact hangle
    · rw [abs_of_nonneg (Real.arccos_nonneg _)]
      linarith [Real.arccos_le_pi (toReal (Scalar.clamp (-1) 1 p.angleCosine)), Real.pi_lt_d20]
  exact near_cos hm (near_third harccos hk)

/-! ## The amplitude and the cosine -/

/-- The amplitude is twice a number whose square is nearly `n²`. -/
theorem exists_amplitude (hP : S.Near p.depressedP 0 2 P (7 / 5) 0) (hPn : P = -3 * (n * n)) :
    ∃ ω, 0 ≤ ω ∧ ω ≤ 3 / 4 ∧ |ω * ω - n * n| ≤ 2 * roundoff ∧
      S.Near p.amplitude 0 1 (2 * ω) (3 / 2) 2 := by
  have hu := roundoff_pos
  have hW := S.weight_pos 2
  have hthree : S.Near (Scalar.ofNat 3) 0 0 3 3 0 := Scale.Near.numeral 3 (by norm_num)
  have hquot : S.Near (-p.depressedP / Scalar.ofNat 3) 0 2 (-P / 3) (7 / 15) (1 / 2) :=
    hP.neg.div hthree (c := 3) (by norm_num) (by norm_num)
  have hsquare : -P / 3 = n * n := by
    rw [hPn]
    ring
  rw [hsquare] at hquot
  -- the radicand is a rounded quotient of two numbers of one sign
  have hnonneg : 0 ≤ toReal (-p.depressedP / Scalar.ofNat 3) := by
    have hnum : (-p.depressedP).isFinite = true := hP.neg.isFinite
    have hden : toReal (Scalar.ofNat 3) = 3 := toReal_numeral (by norm_num)
    rw [(isRounding_div hnum (by rw [hden]; norm_num)).toReal_eq_of_isFinite hquot.isFinite,
      toReal_neg, hP.toReal_eq, hden, hPn]
    refine nearest_nonneg ?_
    have := mul_nonneg (mul_self_nonneg n) hW.le
    linarith
  obtain ⟨ω, hω, hpos, hsq⟩ := hquot.exists_sqrt (i := 0) (j := 1) (C := 7 / 10) hnonneg
    (by norm_num)
  refine ⟨ω, nonneg_of_mul_nonneg_left hpos (S.weight_pos 1), ?_, hsq.trans (by linarith), ?_⟩
  · exact (le_abs_self ω).trans (hω.bounded.trans (by norm_num))
  · exact (Scale.Near.numeral 2 (by norm_num)).mul hω (by norm_num)

/-- A scale whose size is a part of the size of another one. -/
theorem exists_rescaled (hsize : (10 ^ 19)⁻¹ ≤ S.size) (hn : 1 / 100 ≤ n) (hn1 : n ≤ 1) :
    ∃ S' : Scale, ∀ j, S'.weight 0 j = n ^ j * S.weight 0 j := by
  have hn0 : 0 < n := by linarith
  have hlow : (10 ^ 21)⁻¹ ≤ n * S.size := by
    have hprod := mul_le_mul hn hsize (by positivity) hn0.le
    have hpow : ((10 : ℝ) ^ 21)⁻¹ = 1 / 100 * (10 ^ 19)⁻¹ := by norm_num
    rwa [hpow]
  have hhigh : n * S.size ≤ 10 ^ 21 := (mul_le_of_le_one_left S.size_pos.le hn1).trans S.size_high
  refine ⟨⟨1, n * S.size, by norm_num, by norm_num, hlow, hhigh⟩, fun j => ?_⟩
  rw [Scale.weight, Scale.weight, mul_zpow, zpow_zero, zpow_zero, one_mul, one_mul]

/-- In units of `n` the linear coefficient is `-3`, and the number whose inverse cosine is taken is
nearly half of the constant one. -/
theorem near_angleCosine {ρ : ℝ} (hP : S.Near p.depressedP 0 2 (-3) 3 0)
    (hD : S.Near p.depressedQ 0 3 ρ (211 / 100) 0) :
    S.Near p.angleCosine 0 0 (3 * ρ / (2 * -3) * 1) (106 / 100) 9 := by
  have hnum : S.Near (Scalar.ofNat 3 * p.depressedQ) 0 3 (3 * ρ) (633 / 100) (634 / 100) :=
    (Scale.Near.numeral 3 (by norm_num)).mul hD (by norm_num)
  have hden : S.Near (Scalar.ofNat 2 * p.depressedP) 0 2 (2 * -3) 6 (601 / 100) :=
    (Scale.Near.numeral 2 (by norm_num)).mul hP (by norm_num)
  have hquot : S.Near (Scalar.ofNat 3 * p.depressedQ / (Scalar.ofNat 2 * p.depressedP)) 0 1
      (3 * ρ / (2 * -3)) (1055 / 1000) (318 / 100) :=
    hnum.div hden (c := 6) (by norm_num) (by norm_num)
  have hinv : S.Near (-Scalar.ofNat 3 / p.depressedP) 0 (-2) (-3 / -3) 1 (1002 / 1000) :=
    (Scale.Near.numeral 3 (by norm_num)).neg.div hP (c := 3) (by norm_num) (by norm_num)
  rw [div_self (by norm_num)] at hinv
  -- the radicand is close to one unit, so it is positive
  have hpos : 0 ≤ toReal (-Scalar.ofNat 3 / p.depressedP) := by
    have hclose := (abs_le.1 hinv.abs_div_sub_le).1
    have hratio : 0 ≤ toReal (-Scalar.ofNat 3 / p.depressedP) / S.weight 0 (-2) := by
      linarith [roundoff_le]
    have hmul := mul_nonneg hratio (S.weight_pos (-2)).le
    rwa [div_mul_cancel₀ _ (S.weight_ne_zero 0 (-2))] at hmul
  have hroot : S.Near (-Scalar.ofNat 3 / p.depressedP).sqrt 0 (-1) 1 1 (402 / 100) :=
    hinv.sqrt_one (i := 0) (j := -1) hpos (S.weight_pos (-1)) (by norm_num)
  exact hquot.mul hroot (by norm_num)

/-- Where `n` is not small, the number whose inverse cosine is taken is nearly `-D / (2 n³)`. -/
theorem exists_angleCosine (hsize : (10 ^ 19)⁻¹ ≤ S.size)
    (hP : S.Near p.depressedP 0 2 P (7 / 5) 0) (hD : S.Near p.depressedQ 0 3 D (3 / 2) 0)
    (h : IsDepressed q r P D n) (hn : 1 / 100 ≤ n) :
    ∃ κ, D = -(2 * n ^ 3 * κ) ∧ p.angleCosine.isFinite = true ∧
      |toReal p.angleCosine - κ| ≤ 10 * roundoff := by
  have hn0 := h.n_pos
  -- in units of `n` the linear coefficient is exactly `-3`
  obtain ⟨S', hS'⟩ := exists_rescaled hsize hn (h.n_le.trans (by norm_num))
  have hP' : S'.Near p.depressedP 0 2 (-3) 3 0 := by
    refine Scale.Near.of_toReal_eq hP.isFinite ?_ (by norm_num) (by norm_num)
    rw [hP.toReal_eq, hS', h.P_eq, zpow_ofNat]
    ring
  have hD' : S'.Near p.depressedQ 0 3 (D / n ^ 3) (211 / 100) 0 := by
    refine Scale.Near.of_toReal_eq hD.isFinite ?_ ?_ (by norm_num)
    · rw [hD.toReal_eq, hS', zpow_ofNat]
      field_simp
    · have hcube : (1 / 100) ^ 3 ≤ n ^ 3 := by gcongr
      rw [abs_div, abs_of_pos (by positivity : 0 < n ^ 3), div_le_iff₀ (by positivity)]
      linarith [h.D_le]
  have hcosine := near_angleCosine hP' hD'
  refine ⟨3 * (D / n ^ 3) / (2 * -3) * 1, ?_, hcosine.isFinite, ?_⟩
  · field_simp
  · have hclose := hcosine.abs_div_sub_le
    rw [Scale.weight_zero, div_one] at hclose
    linarith [roundoff_pos]

namespace IsScaled

variable (h : IsScaled S p β γ δ) (hr : IsReduced β γ δ q r)

include h hr

/-- What the trigonometric formula finds of the depressed polynomial. -/
theorem exists_isDepressed (h0 : p.reducedDiscriminant < 0) :
    ∃ P D n, S.Near p.depressedP 0 2 P (7 / 5) 0 ∧ S.Near p.depressedQ 0 3 D (3 / 2) 0 ∧
      IsDepressed q r P D n := by
  have hu := roundoff_pos
  obtain ⟨Q, hQ, hQq⟩ := (h.near_reducedQ hr).exists_exact (C := 1 / 2) (by norm_num)
  obtain ⟨R, hR, hRr⟩ := (h.near_reducedR hr).exists_exact (C := 3 / 4) (by norm_num)
  obtain ⟨P, hP, hPq⟩ := (h.near_depressedP hr).exists_exact (C := 7 / 5) (by norm_num)
  obtain ⟨D, hD, hDr⟩ := (h.near_depressedQ hr).exists_exact (C := 3 / 2) (by norm_num)
  have hdisc := near_reducedDiscriminant hQ hR
  -- the branch test bounds the exact number up to roundoffs
  have hneg : Q * Q * Q + R * R ≤ 2 * roundoff := by
    have hlt := (lt_zero_iff.1 h0).toReal_lt hdisc.isFinite
    have hratio := div_neg_of_neg_of_pos hlt (S.weight_pos 6)
    linarith [(abs_le.1 hdisc.abs_div_sub_le).1]
  have hPneg : P < 0 := by
    have hlt := (isBelow_depressedP h.a.isFinite h0).toReal_lt hP.isFinite
    rw [hP.toReal_eq] at hlt
    exact neg_of_mul_neg_left (hlt.trans (by simp)) (S.weight_pos 2).le
  obtain ⟨n, hn, hPn⟩ := exists_eq_neg_three_mul hPneg
  have hle := depressed_discriminant_le hQ.bounded hR.bounded hneg hQq hRr hPq hDr
  refine ⟨P, D, n, hP, hD, hn, ?_, hPn, hPq, hDr, ?_⟩
  · have hbound := (abs_le.1 hP.bounded).1
    nlinarith
  · refine abs_le_of_mul_self_le (by positivity) ?_
    rw [hPn] at hle
    linarith

/-- The polynomial is small at each root by the trigonometric formula. -/
theorem isSmallAt_trigonometric (hm : maths.IsAccurate) (hsize : (10 ^ 19)⁻¹ ≤ S.size)
    (h0 : p.reducedDiscriminant < 0) {k : ℕ} (hk : k ≤ 2) :
    IsSmallAt S p (p.trigonometricRoot maths (Scalar.ofNat k)) := by
  obtain ⟨P, D, n, hP, hD, hd⟩ := h.exists_isDepressed hr h0
  have hrr := (isBelow_reducedQ h0).1
  have hnan := isNaN_angleCosine (isBelow_depressedP h.a.isFinite h0)
    (isWithin_depressedQ h.a.isFinite hrr)
  obtain ⟨ω, hω0, hω1, hω, hamplitude⟩ := exists_amplitude hP hd.P_eq
  have hcos := near_thirdCosine S hm hnan hk
  obtain ⟨u, hu⟩ : ∃ u, u = Real.cos ((Real.arccos (toReal (Scalar.clamp (-1) 1 p.angleCosine)) -
    2 * Real.pi * k) / 3) := ⟨_, rfl⟩
  rw [← hu] at hcos
  have hu1 := hcos.bounded
  have hprod : S.Near (p.amplitude * maths.cos ((p.angle maths -
      Scalar.ofNat 2 * Scalar.pi * Scalar.ofNat k) / Scalar.ofNat 3)) 0 1 (2 * ω * u) (3 / 2) 58 :=
    hamplitude.mul hcos (by norm_num)
  refine h.isSmallAt_of_near hr (hprod.sub h.near_shift (by norm_num))
    (hprod.bounded.trans (by norm_num)) ?_
  rcases le_total n (1 / 100) with hn | hn
  · -- small roots
    refine hd.residual_of_small hn ?_
    have hω' : |ω| ≤ 1 / 100 + 11 / 100000000 := by
      refine abs_le_of_mul_self_le (by norm_num) ?_
      nlinarith [(abs_le.1 hω).2, hd.n_pos, roundoff_pos]
    rw [abs_mul, abs_mul, abs_of_pos (by norm_num : (0 : ℝ) < 2)]
    nlinarith [abs_nonneg ω, abs_nonneg u]
  · obtain ⟨κ, hκ, hcosF, hcosκ⟩ := exists_angleCosine hsize hP hD hd hn
    exact hd.residual_of_cosine hκ hcosκ (toReal_clamp hcosF)
      (thirdCosine_eq (abs_clamp_le hnan).2 hu) hu1 hω0 hω hω1

end IsScaled

end Coefficients

end EquationRoots
