import EquationRoots.Proofs.Binary64.Accuracy
import EquationRoots.Proofs.Overflow.Cubic

/-!
# Reduced coefficients up to roundoffs

A cubic polynomial is measured in units of its leading coefficient and of a size of which no
coefficient is more than one unit (`Coefficients.IsScaled`). The float operations then find the
reduced coefficients, the shift and the value of the polynomial up to a few roundoffs.
-/

set_option autoImplicit false

namespace EquationRoots

open Binary64
open scoped Scalar

/-- The coefficients `q` and `r` of `y³ + 3 q y - 2 r`, which `x³ + β x² + γ x + δ` becomes when
`y = x + β / 3`. -/
structure IsReduced (β γ δ q r : ℝ) : Prop where
  q_eq : q = (3 * γ - β * β) / 9
  r_eq : r = (-2 * (β * β * β) + 9 * β * γ - 27 * δ) / 54

/-- The polynomial in reduced form. -/
theorem IsReduced.eval_eq {β γ δ q r : ℝ} (h : IsReduced β γ δ q r) (x : ℝ) :
    ((x + β) * x + γ) * x + δ = (x + β / 3) ^ 3 + 3 * q * (x + β / 3) - 2 * r := by
  rw [h.q_eq, h.r_eq]
  ring

/-- The third power of a number of at most one unit. -/
theorem Binary64.Scale.Near.cubed {S : Scale} {x : Float} {i j : ℤ} {ρ : ℝ}
    (hx : S.Near x i j ρ 1 0)
    (hij : Scale.InRange (i + i) (j + j) ∧ Scale.InRange (i + i + i) (j + j + j)) :
    S.Near (cubed x) (i + i + i) (j + j + j) (ρ * ρ * ρ) 1 (201 / 100) := by
  have hsq : S.Near (x * x) (i + i) (j + j) (ρ * ρ) 1 (1002 / 1000) :=
    hx.mul hx ⟨hij.1, by norm_num⟩
  exact hsq.mul hx ⟨hij.2, by norm_num⟩

namespace Coefficients

/-- The coefficients in units of a scale: the leading one is the unit, the others are at most one
unit each. -/
structure IsScaled (S : Scale) (p : Coefficients Float) (β γ δ : ℝ) : Prop where
  a : S.Near p.a 1 0 1 1 0
  b : S.Near p.b 1 1 β 1 0
  c : S.Near p.c 1 2 γ 1 0
  d : S.Near p.d 1 3 δ 1 0

/-- The number `q³ + r²`, in units. -/
theorem near_reducedDiscriminant {S : Scale} {p : Coefficients Float} {Q R : ℝ}
    (hQ : S.Near p.reducedQ 0 2 Q (1 / 2) 0) (hR : S.Near p.reducedR 0 3 R (3 / 4) 0) :
    S.Near p.reducedDiscriminant 0 6 (Q * Q * Q + R * R) (11 / 16) (151 / 100) := by
  have hQQ : S.Near (p.reducedQ * p.reducedQ) 0 4 (Q * Q) (1 / 4) (252 / 1000) :=
    hQ.mul hQ (by norm_num)
  have hQQQ : S.Near (cubed p.reducedQ) 0 6 (Q * Q * Q) (1 / 8) (253 / 1000) :=
    hQQ.mul hQ (by norm_num)
  have hRR : S.Near (p.reducedR * p.reducedR) 0 6 (R * R) (9 / 16) (565 / 1000) :=
    hR.mul hR (by norm_num)
  exact hQQQ.add hRR (by norm_num)

namespace IsScaled

variable {S : Scale} {p : Coefficients Float} {β γ δ q r : ℝ} (h : IsScaled S p β γ δ)

include h

/-! ## Numerators and denominators -/

/-- A numeral times the leading coefficient. -/
theorem near_numeral_mul (n : ℕ) (hn : n ≤ 400) :
    S.Near (Scalar.ofNat n * p.a) 1 0 n n (n + 1 / 500) := by
  have hn' : (n : ℝ) ≤ 400 := by exact_mod_cast hn
  have hmul : S.Near (Scalar.ofNat n * p.a) 1 0 (n * 1) n (n + 1 / 500) :=
    (Scale.Near.numeral n (by omega)).mul h.a
      ⟨by norm_num, by linarith, by linarith, by linarith, by linarith⟩
  rwa [mul_one] at hmul

/-- A numeral times the square of the leading coefficient. -/
theorem near_numeral_mul_mul (n : ℕ) (hn : n ≤ 400) :
    S.Near (Scalar.ofNat n * p.a * p.a) 2 0 n n (2 * n + 1 / 250) := by
  have hn' : (n : ℝ) ≤ 400 := by exact_mod_cast hn
  have hmul : S.Near (Scalar.ofNat n * p.a * p.a) 2 0 (n * 1) n (2 * n + 1 / 250) :=
    (h.near_numeral_mul n hn).mul h.a
      ⟨by norm_num, by linarith, by linarith, by linarith, by linarith⟩
  rwa [mul_one] at hmul

/-- A numeral times the third power of the leading coefficient. -/
theorem near_numeral_mul_cubed (n : ℕ) (hn : n ≤ 300) :
    S.Near (Scalar.ofNat n * cubed p.a) 3 0 n n (302 / 100 * n + 1 / 500) := by
  have hn' : (n : ℝ) ≤ 300 := by exact_mod_cast hn
  have hmul : S.Near (Scalar.ofNat n * cubed p.a) 3 0 (n * (1 * 1 * 1)) n
      (302 / 100 * n + 1 / 500) :=
    (Scale.Near.numeral n (by omega)).mul (h.a.cubed (by norm_num))
      ⟨by norm_num, by linarith, by linarith, by linarith, by linarith⟩
  rwa [mul_one, mul_one, mul_one] at hmul

/-- The numerator of the first reduced coefficient. -/
theorem near_numeratorQ : S.Near p.numeratorQ 2 2 (3 * γ - β * β) 4 (111 / 10) := by
  have hac : S.Near (Scalar.ofNat 3 * p.a * p.c) 2 2 (3 * γ) 3 (601 / 100) :=
    (h.near_numeral_mul 3 (by norm_num)).mul h.c (by norm_num)
  have hbb : S.Near (p.b * p.b) 2 2 (β * β) 1 (101 / 100) := h.b.mul h.b (by norm_num)
  exact hac.sub hbb (by norm_num)

/-- Twice the third power of the quadratic coefficient. -/
theorem near_two_mul_cubed :
    S.Near (Scalar.ofNat 2 * cubed p.b) 3 3 (2 * (β * β * β)) 2 (61 / 10) :=
  (Scale.Near.numeral 2 (by norm_num)).mul (h.b.cubed (by norm_num)) (by norm_num)

/-- The product of three coefficients in both numerators of degree three. -/
theorem near_nine_mul : S.Near (Scalar.ofNat 9 * p.a * p.b * p.c) 3 3 (9 * β * γ) 9 (271 / 10) := by
  have hab : S.Near (Scalar.ofNat 9 * p.a * p.b) 2 1 (9 * β) 9 (1801 / 100) :=
    (h.near_numeral_mul 9 (by norm_num)).mul h.b (by norm_num)
  exact hab.mul h.c (by norm_num)

/-- The product with the constant coefficient in both numerators of degree three. -/
theorem near_twentySeven_mul :
    S.Near (Scalar.ofNat 27 * p.a * p.a * p.d) 3 3 (27 * δ) 27 (811 / 10) :=
  (h.near_numeral_mul_mul 27 (by norm_num)).mul h.d (by norm_num)

/-- The numerator of the second reduced coefficient. -/
theorem near_numeratorR :
    S.Near p.numeratorR 3 3 (-2 * (β * β * β) + 9 * β * γ - 27 * δ) 38 164 := by
  have htwo : S.Near (-2 * cubed p.b) 3 3 (-2 * (β * β * β)) 2 (61 / 10) :=
    (Scale.Near.numeral 2 (by norm_num)).neg.mul (h.b.cubed (by norm_num)) (by norm_num)
  have hsum : S.Near (-2 * cubed p.b + Scalar.ofNat 9 * p.a * p.b * p.c) 3 3
      (-2 * (β * β * β) + 9 * β * γ) 11 (443 / 10) := htwo.add h.near_nine_mul (by norm_num)
  exact hsum.sub h.near_twentySeven_mul (by norm_num)

/-- The numerator of the depressed constant coefficient. -/
theorem near_depressedNumerator :
    S.Near p.depressedNumerator 3 3 (2 * (β * β * β) - 9 * β * γ + 27 * δ) 38 164 := by
  have hdiff : S.Near (Scalar.ofNat 2 * cubed p.b - Scalar.ofNat 9 * p.a * p.b * p.c) 3 3
      (2 * (β * β * β) - 9 * β * γ) 11 (443 / 10) :=
    h.near_two_mul_cubed.sub h.near_nine_mul (by norm_num)
  exact hdiff.add h.near_twentySeven_mul (by norm_num)

/-! ## Reduced coefficients -/

theorem near_reducedQ (hr : IsReduced β γ δ q r) : S.Near p.reducedQ 0 2 q (4 / 9) 3 := by
  have hquot : S.Near p.reducedQ 0 2 ((3 * γ - β * β) / 9) (4 / 9) 3 :=
    h.near_numeratorQ.div (h.near_numeral_mul_mul 9 (by norm_num)) (c := 9) (by norm_num)
      (by norm_num)
  rwa [← hr.q_eq] at hquot

theorem near_reducedR (hr : IsReduced β γ δ q r) : S.Near p.reducedR 0 3 r (19 / 27) 6 := by
  have hquot : S.Near p.reducedR 0 3 ((-2 * (β * β * β) + 9 * β * γ - 27 * δ) / 54) (19 / 27) 6 :=
    h.near_numeratorR.div (h.near_numeral_mul_cubed 54 (by norm_num)) (c := 54) (by norm_num)
      (by norm_num)
  rwa [← hr.r_eq] at hquot

theorem near_depressedP (hr : IsReduced β γ δ q r) : S.Near p.depressedP 0 2 (3 * q) (4 / 3) 8 := by
  have hquot : S.Near p.depressedP 0 2 ((3 * γ - β * β) / 3) (4 / 3) 8 :=
    h.near_numeratorQ.div (h.near_numeral_mul_mul 3 (by norm_num)) (c := 3) (by norm_num)
      (by norm_num)
  have hq : (3 * γ - β * β) / 3 = 3 * q := by
    rw [hr.q_eq]
    ring
  rwa [hq] at hquot

theorem near_depressedQ (hr : IsReduced β γ δ q r) :
    S.Near p.depressedQ 0 3 (-(2 * r)) (38 / 27) 12 := by
  have hquot : S.Near p.depressedQ 0 3 ((2 * (β * β * β) - 9 * β * γ + 27 * δ) / 27) (38 / 27) 12 :=
    h.near_depressedNumerator.div (h.near_numeral_mul_cubed 27 (by norm_num)) (c := 27)
      (by norm_num) (by norm_num)
  have hneg : (2 * (β * β * β) - 9 * β * γ + 27 * δ) / 27 = -(2 * r) := by
    rw [hr.r_eq]
    ring
  rwa [hneg] at hquot

/-- The shift between the roots and those of the reduced polynomial. -/
theorem near_shift : S.Near p.shift 0 1 (β / 3) (1 / 3) 1 :=
  h.b.div (h.near_numeral_mul 3 (by norm_num)) (c := 3) (by norm_num) (by norm_num)

/-! ## Values -/

/-- The value that Horner's rule finds at a number of at most three units. -/
theorem near_eval {x : Float} {X : ℝ} (hx : S.Near x 0 1 X 3 0) :
    S.Near (p.eval x) 1 3 (((X + β) * X + γ) * X + δ) 40 250 := by
  have hax : S.Near (p.a * x) 1 1 (1 * X) 3 (301 / 100) := h.a.mul hx (by norm_num)
  rw [one_mul] at hax
  have hfirst : S.Near (p.a * x + p.b) 1 1 (X + β) 4 (702 / 100) :=
    hax.add h.b (by norm_num)
  have hfirstx : S.Near ((p.a * x + p.b) * x) 1 2 ((X + β) * X) 12 (3307 / 100) :=
    hfirst.mul hx (by norm_num)
  have hsecond : S.Near ((p.a * x + p.b) * x + p.c) 1 2 ((X + β) * X + γ) 13 (4608 / 100) :=
    hfirstx.add h.c (by norm_num)
  have hsecondx : S.Near (((p.a * x + p.b) * x + p.c) * x) 1 3 (((X + β) * X + γ) * X) 39
    (17725 / 100) := hsecond.mul hx (by norm_num)
  exact hsecondx.add h.d (by norm_num)

end IsScaled

/-- The value at the number is finite, and a small part of the leading coefficient times the third
power of the size. -/
structure IsSmallAt (S : Scale) (p : Coefficients Float) (x : Float) : Prop where
  isFinite : (p.eval x).isFinite = true
  abs_le : |toReal (p.eval x)| ≤ 21 / 100000 * |S.weight 1 3|

namespace IsScaled

variable {S : Scale} {p : Coefficients Float} {β γ δ q r : ℝ} (h : IsScaled S p β γ δ)

include h

/-- The value at a number with a small residual is small. -/
theorem isSmallAt_of_residual {x : Float} {X : ℝ} (hx : S.Near x 0 1 X 3 0)
    (hres : |((X + β) * X + γ) * X + δ| ≤ 201 / 1000000) : IsSmallAt S p x := by
  have hu' := roundoff_le
  have hW := abs_nonneg (S.weight 1 3)
  have heval := h.near_eval hx
  refine ⟨heval.isFinite, ?_⟩
  have htri := abs_sub_abs_le_abs_sub (toReal (p.eval x))
    ((((X + β) * X + γ) * X + δ) * S.weight 1 3)
  have hclose := heval.close
  rw [abs_mul] at htri
  nlinarith [mul_le_mul_of_nonneg_right hres hW, mul_le_mul_of_nonneg_right hu' hW]

/-- The value at a number close to a root of the reduced polynomial, shifted back, is small. -/
theorem isSmallAt_of_near (hr : IsReduced β γ δ q r) {x : Float} {y : ℝ}
    (hx : S.Near x 0 1 (y - β / 3) (29 / 10) 100) (hy : |y| ≤ 5 / 2)
    (hres : |y ^ 3 + 3 * q * y - 2 * r| ≤ 2 / 10000) : IsSmallAt S p x := by
  have hu := roundoff_pos
  have hu' := roundoff_le
  have hq := (h.near_reducedQ hr).bounded
  obtain ⟨X, hX, hclose⟩ := hx.exists_exact (C := 3) (by norm_num)
  obtain ⟨θ, hθX⟩ : ∃ θ, X + β / 3 = y + θ := ⟨X + β / 3 - y, by ring⟩
  have hθ : |θ| ≤ 100 * roundoff := by
    have hsub : X - (y - β / 3) = θ := by linarith
    rwa [hsub] at hclose
  refine h.isSmallAt_of_residual hX ?_
  -- moving the argument by `θ` changes the value by a few roundoffs
  have hsplit : ((X + β) * X + γ) * X + δ =
      (y ^ 3 + 3 * q * y - 2 * r) + θ * (3 * y ^ 2 + 3 * y * θ + θ ^ 2 + 3 * q) := by
    rw [hr.eval_eq, hθX]
    ring
  have hfactor : |3 * y ^ 2 + 3 * y * θ + θ ^ 2 + 3 * q| ≤ 30 := by
    have hy' := abs_le.1 hy
    have hθ' := abs_le.1 (hθ.trans (by linarith : 100 * roundoff ≤ 1 / 10))
    have hq' := abs_le.1 hq
    rw [abs_le]
    constructor <;> nlinarith
  have hprod : |θ * (3 * y ^ 2 + 3 * y * θ + θ ^ 2 + 3 * q)| ≤ 100 * roundoff * 30 := by
    rw [abs_mul]
    exact mul_le_mul hθ hfactor (abs_nonneg _) (by positivity)
  rw [hsplit]
  refine (abs_add_le _ _).trans ?_
  linarith

end IsScaled

end Coefficients

end EquationRoots
