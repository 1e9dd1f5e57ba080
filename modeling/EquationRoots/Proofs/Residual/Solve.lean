import EquationRoots.Proofs.Residual.Cardano
import EquationRoots.Proofs.Residual.Linear
import EquationRoots.Proofs.Residual.Quadratic
import EquationRoots.Proofs.Residual.Trigonometric
import EquationRoots.Proofs.Roots.Conjugate

/-!
# Reported real roots satisfy the equation

The value of the polynomial at every real root of a solution is at most `1/4` in magnitude when the
coefficients are of moderate size (`Coefficients.IsModerate`) and the library of mathematics is
accurate (`Equation.abs_eval_le_of_mem_realRoots`). The bounds on the coefficients are such that the
formulas cannot lose more than that: the cube roots in Cardano's formula cost two thirds of the
digits, and where the square of the linear coefficient of a quadratic polynomial is large against
the other coefficients, the numerator `-b ± √Δ` cancels (`Equation.large_eval_cancelling`).

Each degree has its scale, in which the leading coefficient is the unit and the others are at most
one unit. Coercion within the tolerance zero adds no other roots than those whose imaginary part
vanishes.
-/

set_option autoImplicit false

namespace EquationRoots

open Binary64
open scoped Scalar

/-! ## Moderate coefficients -/

namespace Coefficients

/-- The coefficients of a cubic polynomial are moderate, the quadratic and the linear one against
the leading one. -/
structure IsModerateCubic (p : Coefficients Float) : Prop where
  lead : IsModerateLead p.a
  b_le : |toReal p.b| ^ 3 ≤ 10 ^ 3 * |toReal p.a| ^ 2
  c_le : |toReal p.c| ^ 3 ≤ 10 ^ 6 * |toReal p.a|
  d_le : |toReal p.d| ≤ 10 ^ 3

/-- The coefficients of a quadratic polynomial are moderate, the linear one against the leading
one. -/
structure IsModerateQuadratic (p : Coefficients Float) : Prop where
  lead : IsModerateLead p.b
  c_le : |toReal p.c| ^ 2 ≤ 10 ^ 12 * |toReal p.b|
  d_le : |toReal p.d| ≤ 10 ^ 12

/-- The coefficients are moderate, by the degree. -/
def IsModerate (p : Coefficients Float) : Prop :=
  match p.degree? with
  | some .cubic => p.IsModerateCubic
  | some .quadratic => p.IsModerateQuadratic
  | some .linear => p.IsModerateLinear
  | none => True

end Coefficients

/-! ## Coerced roots -/

/-- Within the tolerance zero only an imaginary part that vanishes counts as zero. -/
theorem Solution.toReal_im_of_isNearlyReal {z : ComplexNum Float}
    (h : isNearlyReal Tolerance.zero.bound z = true) :
    z.im.isFinite = true ∧ toReal z.im = 0 := by
  have hle : z.im.abs ≤ (Scalar.ofNat 0 : Float) := of_decide_eq_true h
  have hzero : (Scalar.ofNat 0 : Float).isFinite = true := isFinite_numeral (by norm_num)
  have hf : z.im.isFinite = true := by
    rcases eq_nan_or_eq_inf_or_isFinite z.im with hnan | ⟨s, hinf⟩ | hf
    · exact absurd (isNaN_im_of_isNearlyReal h) (by simp [hnan])
    · rw [hinf, abs_inf] at hle
      exact absurd hle (by decide)
    · exact hf
  rw [le_iff (by rwa [isFinite_abs]) hzero, toReal_abs, toReal_numeral (by norm_num), Nat.cast_zero,
    abs_nonpos_iff] at hle
  exact ⟨hf, hle⟩

/-- Within the tolerance zero a real root was one before, or the real part of a complex root whose
imaginary part vanishes. -/
theorem Solution.mem_realRoots_coerce {s : Solution Float} {x : Float}
    (hx : x ∈ (s.coerce Tolerance.zero.bound).realRoots) :
    x ∈ s.realRoots ∨
      ∃ z ∈ s.complexRoots, z.re = x ∧ z.im.isFinite = true ∧ toReal z.im = 0 := by
  rw [realRoots_coerce, List.mem_append] at hx
  rcases hx with hx | hx
  · exact Or.inl hx
  · obtain ⟨z, hz, rfl⟩ := List.mem_map.1 hx
    obtain ⟨hz, hnear⟩ := List.mem_filter.1 hz
    exact Or.inr ⟨z, hz, rfl, toReal_im_of_isNearlyReal hnear⟩

namespace Coefficients

variable {maths : Elementary Float} {p : Coefficients Float}

/-! ## Scales -/

/-- The scale of a moderate leading coefficient and a size. -/
theorem exists_scale {x : Float} (hf : x.isFinite = true) (hx : IsModerateLead x) {κ : ℝ}
    (hlow : (10 ^ 21)⁻¹ ≤ κ) (hhigh : κ ≤ 10 ^ 21) :
    ∃ S : Scale, S.size = κ ∧ S.Near x 1 0 1 1 0 ∧ |S.weight 1 1| = |toReal x| * κ ∧
      |S.weight 1 2| = |toReal x| * κ ^ 2 ∧ |S.weight 1 3| = |toReal x| * κ ^ 3 := by
  obtain ⟨S, hlead, hsize⟩ : ∃ S : Scale, S.lead = toReal x ∧ S.size = κ :=
    ⟨⟨toReal x, κ, hx.low, hx.high, hlow, hhigh⟩, rfl, rfl⟩
  have hweight (j : ℕ) : |S.weight 1 j| = |toReal x| * κ ^ j := by
    rw [Scale.weight, zpow_one, zpow_natCast, abs_mul, abs_of_pos (pow_pos S.size_pos j), hlead,
      hsize]
  refine ⟨S, hsize, ?_, by simpa using hweight 1, hweight 2, hweight 3⟩
  exact Scale.Near.of_toReal_eq hf (by simp [Scale.weight, hlead]) (by norm_num) (by norm_num)

/-- The scale of a quadratic polynomial. -/
theorem exists_isScaled_quadratic (hp : p.isFinite = true) (h : p.IsModerateQuadratic) :
    ∃ S β γ, Quadratic.IsScaled S p.b p.c p.d β γ ∧ |S.weight 1 2| = 10 ^ 12 := by
  obtain ⟨-, hbf, hcf, hdf⟩ := isFinite_iff.1 hp
  have hb0 : 0 < |toReal p.b| := lt_of_lt_of_le (by positivity) h.lead.low
  -- the size is chosen such that `|b| κ²` is the bound on the constant coefficient
  have hsquare : √(10 ^ 12 / |toReal p.b|) * √(10 ^ 12 / |toReal p.b|) = 10 ^ 12 / |toReal p.b| :=
    Real.mul_self_sqrt (by positivity)
  have hlow : (10 ^ 21)⁻¹ ≤ √(10 ^ 12 / |toReal p.b|) := by
    refine Real.le_sqrt_of_sq_le ?_
    rw [le_div_iff₀ hb0]
    refine (mul_le_mul_of_nonneg_left h.lead.high (by positivity)).trans ?_
    norm_num
  have hhigh : √(10 ^ 12 / |toReal p.b|) ≤ 10 ^ 21 := by
    refine Real.sqrt_le_iff.2 ⟨by positivity, ?_⟩
    rw [div_le_iff₀ hb0]
    refine le_trans ?_ (mul_le_mul_of_nonneg_left h.lead.low (by positivity))
    norm_num
  obtain ⟨κ, hκ⟩ : ∃ κ, κ = √(10 ^ 12 / |toReal p.b|) := ⟨_, rfl⟩
  rw [← hκ] at hsquare hlow hhigh
  have hκ0 : 0 < κ := lt_of_lt_of_le (by positivity) hlow
  rw [eq_div_iff hb0.ne'] at hsquare
  obtain ⟨S, -, hlead, hone, htwo, -⟩ := exists_scale hbf h.lead hlow hhigh
  have hsize : |S.weight 1 2| = 10 ^ 12 := by
    rw [htwo, ← hsquare]
    ring
  refine ⟨S, _, _, ⟨hlead, Scale.Near.of_abs_le hcf ?_, Scale.Near.of_abs_le hdf ?_⟩, hsize⟩
  · refine le_of_pow_le_pow_left₀ (n := 2) (by norm_num) (abs_nonneg _) ?_
    refine h.c_le.trans (le_of_eq ?_)
    rw [hone, ← hsquare]
    ring
  · rw [hsize]
    exact h.d_le

/-- The scale of a cubic polynomial. -/
theorem exists_isScaled_cubic (hp : p.isFinite = true) (h : p.IsModerateCubic) :
    ∃ S β γ δ, IsScaled S p β γ δ ∧ (10 ^ 19)⁻¹ ≤ S.size ∧ |S.weight 1 3| = 10 ^ 3 := by
  obtain ⟨haf, hbf, hcf, hdf⟩ := isFinite_iff.1 hp
  have ha0 : 0 < |toReal p.a| := lt_of_lt_of_le (by positivity) h.lead.low
  -- the size is chosen such that `|a| κ³` is the bound on the constant coefficient
  obtain ⟨κ, hκ⟩ : ∃ κ, κ = cubeRoot (10 ^ 3 / |toReal p.a|) := ⟨_, rfl⟩
  have hcube : κ ^ 3 * |toReal p.a| = 10 ^ 3 := by
    rw [hκ, cubeRoot_pow_three, div_mul_cancel₀ _ ha0.ne']
  have hκ0 : 0 < κ := by
    refine (Odd.pow_pos_iff (n := 3) (by decide)).1 ?_
    rw [hκ, cubeRoot_pow_three]
    positivity
  have hlow : (10 ^ 19)⁻¹ ≤ κ := by
    refine le_of_pow_le_pow_left₀ (n := 3) (by norm_num) hκ0.le ?_
    refine le_of_mul_le_mul_right ?_ ha0
    rw [hcube]
    refine (mul_le_mul_of_nonneg_left h.lead.high (by positivity)).trans ?_
    norm_num
  have hhigh : κ ≤ 10 ^ 21 := by
    refine le_of_pow_le_pow_left₀ (n := 3) (by norm_num) (by positivity) ?_
    refine le_of_mul_le_mul_right ?_ ha0
    rw [hcube]
    refine le_trans ?_ (mul_le_mul_of_nonneg_left h.lead.low (by positivity))
    norm_num
  obtain ⟨S, hsize, hlead, hone, htwo, hthree⟩ :=
    exists_scale haf h.lead (le_trans (by norm_num) hlow) hhigh
  rw [mul_comm, hcube] at hthree
  refine ⟨S, _, _, _, ⟨hlead, Scale.Near.of_abs_le hbf ?_, Scale.Near.of_abs_le hcf ?_,
    Scale.Near.of_abs_le hdf ?_⟩, hsize ▸ hlow, hthree⟩
  · refine le_of_pow_le_pow_left₀ (n := 3) (by norm_num) (abs_nonneg _) ?_
    refine h.b_le.trans (le_of_eq ?_)
    rw [hone, ← hcube]
    ring
  · have hsix : (10 : ℝ) ^ 6 = κ ^ 3 * |toReal p.a| * (κ ^ 3 * |toReal p.a|) := by
      rw [hcube]
      norm_num
    refine le_of_pow_le_pow_left₀ (n := 3) (by norm_num) (abs_nonneg _) ?_
    refine h.c_le.trans (le_of_eq ?_)
    rw [htwo, hsix]
    ring
  · rw [hthree]
    exact h.d_le

/-! ## Quadratic polynomials -/

/-- The value that Horner's rule finds for a quadratic polynomial. -/
theorem near_eval_quadratic (hp : p.isFinite = true) (ha : toReal p.a = 0) {S : Scale} {β γ : ℝ}
    (h : Quadratic.IsScaled S p.b p.c p.d β γ) {x : Float} {X : ℝ} (hx : S.Near x 0 1 X 2 0) :
    S.Near (p.eval x) 1 2 ((X + β) * X + γ) 7 28 := by
  obtain ⟨haf, hbf, -, -⟩ := isFinite_iff.1 hp
  obtain ⟨hf, hv⟩ := toReal_mul_add_of_eq_zero haf ha hx.isFinite hbf
  have hlead : S.Near (p.a * x + p.b) 1 0 1 1 0 := by
    refine Scale.Near.of_toReal_eq hf ?_ (by norm_num) (by norm_num)
    rw [hv, h.a.toReal_eq]
  have hbx : S.Near ((p.a * x + p.b) * x) 1 1 (1 * X) 2 (201 / 100) := hlead.mul hx (by norm_num)
  rw [one_mul] at hbx
  have hsum : S.Near ((p.a * x + p.b) * x + p.c) 1 1 (X + β) 3 (502 / 100) :=
    hbx.add h.b (by norm_num)
  have hprod : S.Near (((p.a * x + p.b) * x + p.c) * x) 1 2 ((X + β) * X) 6 (1605 / 100) :=
    hsum.mul hx (by norm_num)
  exact hprod.add h.c (by norm_num)

/-- The value at a real root of a quadratic polynomial is small. -/
theorem abs_eval_quadratic (hp : p.isFinite = true) (ha : toReal p.a = 0)
    (h : p.IsModerateQuadratic) {x : Float}
    (hx : x ∈ ((p.rootsByDegree maths .quadratic).coerce Tolerance.zero.bound).realRoots) :
    (p.eval x).abs ≤ 0.25 := by
  have hu := roundoff_pos
  have hu' := roundoff_le
  obtain ⟨S, β, γ, hS, hweight⟩ := exists_isScaled_quadratic hp h
  have hx := Solution.mem_realRoots_coerce hx
  cases hroots : quadraticRoots p.b p.c p.d with
  | pair first second =>
    -- the imaginary parts of a pair do not vanish
    obtain ⟨hfirst, hsecond⟩ := hS.im_ne_zero hroots
    simp only [rootsByDegree, hroots, Solution.ofComplex] at hx
    obtain hx | ⟨z, hz, -, -, him⟩ := hx
    · cases hx
    · rcases List.mem_pair.1 hz with rfl | rfl
      · exact absurd him hfirst
      · exact absurd him hsecond
  | real lower upper =>
    simp only [rootsByDegree, hroots, Solution.ofReal] at hx
    obtain hx | ⟨z, hz, -⟩ := hx
    · obtain ⟨X, hX, hres⟩ := hS.residual_real hroots x hx
      have heval := near_eval_quadratic hp ha hS hX
      have hclose := heval.close
      have htri := abs_sub_abs_le_abs_sub (toReal (p.eval x))
        (((X + β) * X + γ) * S.weight 1 2)
      have hsplit : (X + β) * X + γ = X * X + β * X + γ := by ring
      rw [abs_mul, hweight] at htri
      rw [hweight] at hclose
      rw [← hsplit] at hres
      refine abs_le_quarter heval.isFinite ?_
      linarith
    · cases hz

/-! ## Cubic polynomials -/

/-- Without a constant coefficient the polynomial is small at zero and at the roots of its
quotient by the variable. -/
theorem isSmallAt_of_mem_factored {S : Scale} {β γ : ℝ} (h : IsScaled S p β γ 0)
    {z : ComplexNum Float} (hz : z ∈ .ofReal 0 :: (quadraticRoots p.a p.b p.c).toList)
    (him : toReal z.im = 0) : IsSmallAt S p z.re := by
  have hS : Quadratic.IsScaled S p.a p.b p.c β γ := ⟨h.a, h.b, h.c⟩
  rcases List.mem_cons.1 hz with rfl | hz
  · -- the value at zero is the constant coefficient, which is zero
    have hroot : S.Near (Scalar.ofNat 0) 0 1 0 3 0 := by
      refine Scale.Near.of_toReal_eq (isFinite_numeral (by norm_num)) ?_ (by norm_num)
        (by norm_num)
      rw [toReal_numeral (by norm_num), Nat.cast_zero, zero_mul]
    exact h.isSmallAt_of_residual hroot (by norm_num)
  · cases hroots : quadraticRoots p.a p.b p.c with
    | pair first second =>
      obtain ⟨hfirst, hsecond⟩ := hS.im_ne_zero hroots
      rw [hroots, QuadraticRoots.toList_pair] at hz
      rcases List.mem_pair.1 hz with rfl | rfl
      · exact absurd him hfirst
      · exact absurd him hsecond
    | real lower upper =>
      rw [hroots, QuadraticRoots.toList_real] at hz
      have hmem : z.re ∈ [lower, upper] := by
        rcases List.mem_pair.1 hz with rfl | rfl <;> simp
      obtain ⟨X, hX, hres⟩ := hS.residual_real hroots z.re hmem
      refine h.isSmallAt_of_residual (hX.mono (by norm_num)) ?_
      have hsplit : ((X + β) * X + γ) * X + 0 = (X * X + β * X + γ) * X := by ring
      rw [hsplit, abs_mul]
      refine (mul_le_mul hres hX.bounded (abs_nonneg _) ?_).trans ?_
      · linarith [roundoff_pos]
      · linarith [roundoff_le]

/-- The polynomial is small at each root whose imaginary part vanishes. -/
theorem isSmallAt_of_mem_cubicRoots (hm : maths.IsAccurate) {S : Scale} {β γ δ : ℝ}
    (h : IsScaled S p β γ δ) (hsize : (10 ^ 19)⁻¹ ≤ S.size) {z : ComplexNum Float}
    (hz : z ∈ (p.cubicRoots maths).roots) (hf : z.im.isFinite = true) (him : toReal z.im = 0) :
    IsSmallAt S p z.re := by
  have hr : IsReduced β γ δ _ _ := ⟨rfl, rfl⟩
  unfold cubicRoots at hz
  split at hz
  · rename_i hd
    -- the branch without a constant coefficient
    have hδ : δ = 0 := by
      have hvalue := (toReal_eq_of_beq (isFinite_numeral (by norm_num)) hd).2
      rw [toReal_numeral (by norm_num), Nat.cast_zero, h.d.toReal_eq] at hvalue
      exact (mul_eq_zero.1 hvalue).resolve_right (S.weight_ne_zero 1 3)
    rw [hδ] at h
    exact isSmallAt_of_mem_factored h hz him
  · split at hz
    · rename_i h0
      obtain ⟨x, hx, rfl⟩ := List.mem_map.1 hz
      have hroot (k : ℕ) (hk : k ≤ 2) := h.isSmallAt_trigonometric hr hm hsize h0 hk
      simp only [trigonometricRoots, List.mem_cons, List.not_mem_nil, or_false] at hx
      rcases hx with rfl | rfl | rfl
      · exact hroot 0 (by norm_num)
      · exact hroot 1 (by norm_num)
      · exact hroot 2 le_rfl
    · rename_i h0
      simp only [cardanoRoots, List.mem_cons, List.not_mem_nil, or_false] at hz
      rcases hz with rfl | rfl | rfl
      · exact h.isSmallAt_cardano hr hm h0
      · exact h.isSmallAt_cardano_pair hr hm h0 hf him
      · rw [isFinite_neg] at hf
        rw [toReal_neg, neg_eq_zero] at him
        exact h.isSmallAt_cardano_pair hr hm h0 hf him

/-- The value at a real root of a cubic polynomial is small. -/
theorem abs_eval_cubic (hm : maths.IsAccurate) (hp : p.isFinite = true) (h : p.IsModerateCubic)
    {x : Float} (hx : x ∈ ((p.rootsByDegree maths .cubic).coerce Tolerance.zero.bound).realRoots) :
    (p.eval x).abs ≤ 0.25 := by
  obtain ⟨S, β, γ, δ, hS, hsize, hweight⟩ := exists_isScaled_cubic hp h
  obtain hx | ⟨z, hz, rfl, hf, him⟩ := Solution.mem_realRoots_coerce hx
  · cases hx
  · obtain ⟨hf, hsmall⟩ := isSmallAt_of_mem_cubicRoots hm hS hsize hz hf him
    rw [hweight] at hsmall
    exact abs_le_quarter hf (hsmall.trans (by norm_num))

/-! ## All degrees -/

/-- A coefficient that the degree passes over is zero. -/
theorem toReal_eq_zero_of_not_bne {x : Float} (h : ¬ (x != (0 : Float)) = true) : toReal x = 0 := by
  have hbeq : (x == (0 : Float)) = true := by simpa [bne] using h
  rw [(toReal_eq_of_beq (isFinite_numeral (n := 0) (by norm_num)) hbeq).2,
    toReal_numeral (by norm_num), Nat.cast_zero]

theorem toReal_a_of_quadratic (h : p.degree? = some .quadratic) : toReal p.a = 0 := by
  unfold degree? at h
  split_ifs at h with ha hb hc
  · cases h
  · exact toReal_eq_zero_of_not_bne ha
  · cases h

theorem toReal_a_b_of_linear (h : p.degree? = some .linear) :
    toReal p.a = 0 ∧ toReal p.b = 0 := by
  unfold degree? at h
  split_ifs at h with ha hb hc
  · cases h
  · cases h
  · exact ⟨toReal_eq_zero_of_not_bne ha, toReal_eq_zero_of_not_bne hb⟩

/-- The value at a real root is small, on every branch. -/
theorem abs_eval_of_isModerate (hm : maths.IsAccurate) (hp : p.isFinite = true) (h : p.IsModerate)
    {degree : Degree} (hdegree : p.degree? = some degree) {x : Float}
    (hx : x ∈ ((p.rootsByDegree maths degree).coerce Tolerance.zero.bound).realRoots) :
    (p.eval x).abs ≤ 0.25 := by
  unfold IsModerate at h
  rw [hdegree] at h
  cases degree with
  | cubic => exact abs_eval_cubic hm hp h hx
  | quadratic => exact abs_eval_quadratic hp (toReal_a_of_quadratic hdegree) h hx
  | linear =>
    obtain ⟨ha, hb⟩ := toReal_a_b_of_linear hdegree
    obtain hx | ⟨z, hz, -⟩ := Solution.mem_realRoots_coerce hx
    · rw [List.mem_singleton.1 hx]
      exact abs_eval_linear hp ha hb h
    · cases hz

end Coefficients

/-! ## Equations -/

namespace Equation

/-- Every real root that is reported without an error satisfies its equation up to a quarter, when
the coefficients are moderate. -/
theorem abs_eval_le_of_mem_realRoots {maths : Elementary Float} (hm : maths.IsAccurate)
    {equation : Text} {p : Coefficients Float} (hform : standardForm equation = .ok p)
    (herror : (solve maths .zero equation).solution.error = none) (hp : p.IsModerate) :
    ∀ x ∈ (solve maths .zero equation).solution.realRoots, (p.eval x).abs ≤ 0.25 := by
  intro x hx
  obtain ⟨p', degree, hp', hdegree, hsolve⟩ := solve_of_error_eq_none herror
  rw [hform] at hp'
  cases hp'
  rw [hsolve] at hx
  exact Coefficients.abs_eval_of_isModerate hm (isFinite_of_standardForm hform) hp hdegree hx

/-- The equation `x³ - 6 x² + 11 x - 6 = 0`, whose roots are one, two and three. -/
def oneTwoThree : Text := "x^3-6x^2+11x-6=0".toList

/-- Three real roots are reported for `x³ - 6 x² + 11 x - 6 = 0`, and they satisfy it. -/
theorem abs_eval_oneTwoThree :
    standardForm oneTwoThree = .ok ⟨1, -6, 11, -6⟩ ∧
      (solve .rounded .zero oneTwoThree).solution.error = none ∧
      (solve .rounded .zero oneTwoThree).solution.realRoots.length = 3 ∧
      ∀ x ∈ (solve .rounded .zero oneTwoThree).solution.realRoots,
        ((⟨1, -6, 11, -6⟩ : Coefficients Float).eval x).abs ≤ 0.25 := by
  have hform : standardForm oneTwoThree = .ok ⟨1, -6, 11, -6⟩ := by decide +kernel
  have hdegree : (⟨1, -6, 11, -6⟩ : Coefficients Float).degree? = some .cubic := by decide +kernel
  have hsolution : (solve .rounded .zero oneTwoThree).solution =
      ((⟨1, -6, 11, -6⟩ : Coefficients Float).rootsByDegree .rounded .cubic).coerce
        Tolerance.zero.bound := by
    rw [solve_of_standardForm_eq_ok hform, Coefficients.solution_solve hdegree]
  have herror : (solve .rounded .zero oneTwoThree).solution.error = none := by
    rw [hsolution, Solution.error_coerce, Coefficients.error_rootsByDegree]
  have hroots : ((⟨1, -6, 11, -6⟩ : Coefficients Float).cubicRoots .rounded).roots =
      ((⟨1, -6, 11, -6⟩ : Coefficients Float).trigonometricRoots .rounded).map .ofReal :=
    congrArg CubicRoots.roots ((if_neg (by decide +kernel)).trans (if_pos (by decide +kernel)))
  have hlength : (solve .rounded .zero oneTwoThree).solution.realRoots.length = 3 := by
    rw [hsolution, Solution.realRoots_coerce, Coefficients.rootsByDegree, hroots]
    simp [Solution.ofComplex, Coefficients.trigonometricRoots, Solution.isNearlyReal_ofReal]
  have hone : toReal (1 : Float) = 1 := by
    rw [show (1 : Float) = Scalar.ofNat 1 from rfl, toReal_numeral (by norm_num), Nat.cast_one]
  have hsix : toReal (-6 : Float) = -6 := by
    rw [toReal_neg, show (6 : Float) = Scalar.ofNat 6 from rfl, toReal_numeral (by norm_num)]
    norm_num
  have heleven : toReal (11 : Float) = 11 := by
    rw [show (11 : Float) = Scalar.ofNat 11 from rfl, toReal_numeral (by norm_num)]
    norm_num
  have hmoderate : (⟨1, -6, 11, -6⟩ : Coefficients Float).IsModerateCubic :=
    { lead := ⟨by rw [hone]; norm_num, by rw [hone]; norm_num⟩
      b_le := by rw [hone, hsix]; norm_num
      c_le := by rw [hone, heleven]; norm_num
      d_le := by rw [hsix]; norm_num }
  refine ⟨hform, herror, hlength,
    abs_eval_le_of_mem_realRoots Elementary.isAccurate_rounded hform herror ?_⟩
  rw [Coefficients.IsModerate, hdegree]
  exact hmoderate

/-- The equation `x² - 380000021 x + 380000020 = 0`, whose roots are `1` and `380000020`. -/
def cancelling : Text := "x^2-380000021x+380000020=0".toList

/-- Beyond moderate coefficients a reported root can miss its equation: the square of the linear
coefficient is rounded, and the error is all that is left in the numerator of the smaller root,
which is reported as `0.99999997` although one is a root and a float. -/
theorem large_eval_cancelling :
    ∃ x p, standardForm cancelling = .ok p ∧
      (solve .platform .zero cancelling).solution = ⟨[x, 380000020], [], none⟩ ∧
      ¬ (p.eval x).abs ≤ 0.25 ∧ p.eval 1 = 0 := by
  refine ⟨Float.ofBits 0x3feffffff0000000, ⟨-0, 1, -380000021, 380000020⟩, ?_⟩
  decide +kernel

end Equation

end EquationRoots
