import EquationRoots.Proofs.Exact.Cubic

/-!
# The solver in exact arithmetic

With exact operations, the exact real functions and no tolerance, the solver factors every
polynomial that has the variable (`Coefficients.factors_exactSolution`).
-/

set_option autoImplicit false

namespace EquationRoots

open Polynomial Solution

namespace Coefficients

/-- What the solver finds in exact arithmetic. -/
noncomputable def exactSolution (p : Coefficients ℝ) : Solution ℝ :=
  (@solve ℝ Scalar.real .exact .exact p).solution

variable {p : Coefficients ℝ}

theorem real_bne_zero_iff {x : ℝ} :
    @bne ℝ Scalar.real.toBEq x (@OfNat.ofNat ℝ 0 (@Scalar.instOfNat ℝ Scalar.real 0)) = true ↔
      x ≠ 0 := by
  rw [bne, Bool.not_eq_true', Bool.eq_false_iff, Ne, Ne, ← real_beq_zero_iff]
  rfl

theorem real_degree_cubic (ha : p.a ≠ 0) : @degree? ℝ Scalar.real p = some .cubic :=
  if_pos (real_bne_zero_iff.2 ha)

theorem real_degree_quadratic (ha : p.a = 0) (hb : p.b ≠ 0) :
    @degree? ℝ Scalar.real p = some .quadratic :=
  (if_neg (mt real_bne_zero_iff.1 (not_not.2 ha))).trans (if_pos (real_bne_zero_iff.2 hb))

theorem real_degree_linear (ha : p.a = 0) (hb : p.b = 0) (hc : p.c ≠ 0) :
    @degree? ℝ Scalar.real p = some .linear :=
  (if_neg (mt real_bne_zero_iff.1 (not_not.2 ha))).trans
    ((if_neg (mt real_bne_zero_iff.1 (not_not.2 hb))).trans (if_pos (real_bne_zero_iff.2 hc)))

/-- The solution is what the formula for the degree found, coerced. -/
theorem exactSolution_eq {degree : Degree} (h : @degree? ℝ Scalar.real p = some degree) :
    p.exactSolution =
      @Solution.coerce ℝ Scalar.real (@rootsByDegree ℝ Scalar.real .exact p degree) 0 :=
  @solution_solve ℝ Scalar.real .exact .exact p degree h

/-- A quadratic polynomial has the roots of the quadratic formula, in either form. -/
theorem exactRoots_quadratic :
    (@rootsByDegree ℝ Scalar.real .exact p .quadratic).exactRoots =
      (@QuadraticRoots.toList ℝ Scalar.real
        (@quadraticRoots ℝ Scalar.real p.b p.c p.d)).map ComplexNum.toComplex := by
  rw [exactRoots_eq]
  simp only [rootsByDegree]
  cases @quadraticRoots ℝ Scalar.real p.b p.c p.d with
  | real lower upper =>
    simp only [Solution.ofReal, QuadraticRoots.toList, List.map_cons, List.map_nil,
      ComplexNum.toComplex_ofReal, List.append_nil]
  | pair first second => rfl

/-- The formula for the degree finds all factors. -/
theorem exists_degree_and_factors (h : p.a ≠ 0 ∨ p.b ≠ 0 ∨ p.c ≠ 0) :
    ∃ degree, @degree? ℝ Scalar.real p = some degree ∧
      C (p.leading : ℂ) *
          factorProduct (@rootsByDegree ℝ Scalar.real .exact p degree).exactRoots =
        p.complexPolynomial := by
  by_cases ha : p.a = 0
  · by_cases hb : p.b = 0
    -- the degree follows the first coefficient that is not zero, like the leading coefficient
    · have hc : p.c ≠ 0 := (h.resolve_left (not_not.2 ha)).resolve_left (not_not.2 hb)
      refine ⟨.linear, real_degree_linear ha hb hc, ?_⟩
      have hlead : p.leading = p.c := by simp [leading, ha, hb]
      have hroots : (@rootsByDegree ℝ Scalar.real .exact p .linear).exactRoots =
          [((@linearRoot ℝ Scalar.real p.c p.d : ℝ) : ℂ)] := exactRoots_eq _
      rw [hlead, hroots, factorProduct_linearRoot hc, complexPolynomial, ha, hb]
      simp
    · refine ⟨.quadratic, real_degree_quadratic ha hb, ?_⟩
      have hlead : p.leading = p.b := by simp [leading, ha, hb]
      rw [hlead, exactRoots_quadratic, factorProduct_quadraticRoots hb, complexPolynomial, ha]
      simp
  · refine ⟨.cubic, real_degree_cubic ha, ?_⟩
    have hlead : p.leading = p.a := by simp [leading, ha]
    have hroots : (@rootsByDegree ℝ Scalar.real .exact p .cubic).exactRoots =
        (@cubicRoots ℝ Scalar.real .exact p).roots.map ComplexNum.toComplex := exactRoots_eq _
    rw [hlead, hroots, mul_factorProduct_cubicRoots ha]

/-- In exact arithmetic the solver factors every polynomial with the variable. -/
theorem factors_exactSolution (p : Coefficients ℝ) (h : p.a ≠ 0 ∨ p.b ≠ 0 ∨ p.c ≠ 0) :
    p.exactSolution.Factors p := by
  obtain ⟨degree, hdegree, hprod⟩ := exists_degree_and_factors h
  rw [exactSolution_eq hdegree]
  refine Factors.of_prod (leading_ne_zero h) ?_ fun z hz => im_ne_zero_of_mem_coerce _ hz
  rw [factorProduct_perm (exactRoots_coerce_perm _), hprod]

/-- The polynomial `x³ - 1`, which has one real root. -/
theorem factors_exactSolution_cube_sub_one :
    ((1 : ℝ) ≠ 0 ∨ (0 : ℝ) ≠ 0 ∨ (0 : ℝ) ≠ 0) ∧
      (exactSolution ⟨1, 0, 0, -1⟩).Factors ⟨1, 0, 0, -1⟩ :=
  ⟨Or.inl one_ne_zero, factors_exactSolution ⟨1, 0, 0, -1⟩ (Or.inl one_ne_zero)⟩

end Coefficients

end EquationRoots
