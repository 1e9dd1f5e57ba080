import EquationRoots.Proofs.Exact.Cubic

/-!
# The trigonometric branch in exact arithmetic

A cubic polynomial is solved by cosines where `q³ + r² < 0`. This one inequality makes every step of
the formula defined: the depressed polynomial has a negative linear coefficient, and the cosine of
the angle, which is `r / √(-q³)`, is strictly between its bounds. So the angle is strictly between
zero and half a turn, and the three roots come in descending order.

- `real_branch_cases`: which branch is taken.
- `cosines_descending`: the cosines of the three angles.
- `trigonometric_wellDefined`: the branch as a whole.
-/

set_option autoImplicit false

namespace EquationRoots

namespace Coefficients

variable {p : Coefficients ℝ}

/-! ## Branches -/

/-- The branch of a cubic polynomial and the reduced coefficients that come with it. -/
theorem real_branch_cases (p : Coefficients ℝ) :
    p.d = 0 ∧ (@cubicRoots ℝ Scalar.real .exact p).branch = .factoredZeroRoot ∨
      p.d ≠ 0 ∧ @reducedDiscriminant ℝ Scalar.real p < 0 ∧
        (@cubicRoots ℝ Scalar.real .exact p).branch =
          .trigonometric (@reducedQ ℝ Scalar.real p) (@reducedR ℝ Scalar.real p) ∨
      p.d ≠ 0 ∧ 0 ≤ @reducedDiscriminant ℝ Scalar.real p ∧
        (@cubicRoots ℝ Scalar.real .exact p).branch =
          .cardano (@reducedQ ℝ Scalar.real p) (@reducedR ℝ Scalar.real p) := by
  by_cases hd : p.d = 0
  · rw [real_cubicRoots_of_d_eq_zero hd]
    exact Or.inl ⟨hd, rfl⟩
  · rcases lt_or_ge (@reducedDiscriminant ℝ Scalar.real p) 0 with h | h
    · rw [real_cubicRoots_of_neg hd h]
      exact Or.inr (Or.inl ⟨hd, h, rfl⟩)
    · rw [real_cubicRoots_of_nonneg hd h]
      exact Or.inr (Or.inr ⟨hd, h, rfl⟩)

theorem real_branch_trigonometric_iff {q r : ℝ} :
    (@cubicRoots ℝ Scalar.real .exact p).branch = .trigonometric q r ↔
      p.d ≠ 0 ∧ @reducedDiscriminant ℝ Scalar.real p < 0 ∧
        @reducedQ ℝ Scalar.real p = q ∧ @reducedR ℝ Scalar.real p = r := by
  obtain ⟨hd, hb⟩ | ⟨hd, h, hb⟩ | ⟨hd, h, hb⟩ := real_branch_cases p
  · simp [hb, hd]
  · simp [hb, hd, h]
  · simp [hb, not_lt.2 h]

theorem real_branch_cardano_iff {q r : ℝ} :
    (@cubicRoots ℝ Scalar.real .exact p).branch = .cardano q r ↔
      p.d ≠ 0 ∧ 0 ≤ @reducedDiscriminant ℝ Scalar.real p ∧
        @reducedQ ℝ Scalar.real p = q ∧ @reducedR ℝ Scalar.real p = r := by
  obtain ⟨hd, hb⟩ | ⟨hd, h, hb⟩ | ⟨hd, h, hb⟩ := real_branch_cases p
  · simp [hb, hd]
  · simp [hb, not_le.2 h]
  · simp [hb, hd, h]

/-! ## The order of the roots -/

/-- Where the first angle is within a sixth of a turn, the three cosines descend. -/
theorem cosines_descending {φ : ℝ} (h₀ : 0 < φ) (h₁ : φ < Real.pi / 3) :
    Real.cos (φ - 2 * Real.pi / 3) < Real.cos φ ∧
      Real.cos (φ - 4 * Real.pi / 3) < Real.cos (φ - 2 * Real.pi / 3) := by
  -- all three are cosines of angles up to half a turn, where the cosine descends
  have hmiddle : Real.cos (φ - 2 * Real.pi / 3) = Real.cos (2 * Real.pi / 3 - φ) := by
    rw [← Real.cos_neg, neg_sub]
  have hlast : Real.cos (φ - 4 * Real.pi / 3) = Real.cos (2 * Real.pi / 3 + φ) := by
    rw [← Real.cos_add_two_pi]
    congr 1
    ring
  rw [hmiddle, hlast]
  constructor
  · exact Real.cos_lt_cos_of_nonneg_of_le_pi h₀.le (by linarith) (by linarith)
  · exact Real.cos_lt_cos_of_nonneg_of_le_pi (by linarith) (by linarith) (by linarith)

section

variable (ha : p.a ≠ 0) (h : @reducedDiscriminant ℝ Scalar.real p < 0)

include ha h

/-- Where `q³ + r² < 0`, the depressed polynomial has a negative linear coefficient. -/
theorem depressedP_neg : @depressedP ℝ Scalar.real p < 0 := by
  rw [depressedP_eq_reducedQ ha]
  exact mul_neg_of_pos_of_neg three_pos (reducedQ_neg h)

theorem amplitude_pos : 0 < @amplitude ℝ Scalar.real p := by
  rw [amplitude_eq ha]
  exact mul_pos two_pos (Real.sqrt_pos.2 (neg_pos.2 (reducedQ_neg h)))

/-- The angle is strictly between zero and half a turn. -/
theorem angle_mem_Ioo : @angle ℝ Scalar.real .exact p ∈ Set.Ioo 0 Real.pi := by
  have hlt := abs_lt.1 (abs_angleCosine_lt_one ha h)
  rw [real_angle, real_clamp hlt.1.le hlt.2.le]
  exact ⟨Real.arccos_pos.2 hlt.2, Real.arccos_lt_pi.2 hlt.1⟩

/-- The three real roots come in descending order. -/
theorem trigonometricRoots_descending :
    ∃ x₀ x₁ x₂, @trigonometricRoots ℝ Scalar.real .exact p = [x₀, x₁, x₂] ∧
      x₁ < x₀ ∧ x₂ < x₁ := by
  have hamplitude := amplitude_pos ha h
  obtain ⟨hpos, hlt⟩ := angle_mem_Ioo ha h
  obtain ⟨hfirst, hsecond⟩ := cosines_descending (φ := @angle ℝ Scalar.real .exact p / 3)
    (by linarith) (by linarith)
  refine ⟨_, _, _, real_trigonometricRoots p, ?_, ?_⟩
  · exact sub_lt_sub_right (mul_lt_mul_of_pos_left hfirst hamplitude) _
  · exact sub_lt_sub_right (mul_lt_mul_of_pos_left hsecond hamplitude) _

end

/-! ## The branch as a whole -/

/-- The trigonometric branch is well defined and finds its roots in descending order. Nothing is
divided by zero and no square root of a negative number is taken, since the linear coefficient of
the depressed polynomial is negative. The cosine of the angle is `r / √(-q³)`, by the coefficients
that are reported, and strictly between its bounds, so that clamping does not change it. -/
theorem trigonometric_wellDefined (ha : p.a ≠ 0) {q r : ℝ}
    (h : (@cubicRoots ℝ Scalar.real .exact p).branch = .trigonometric q r) :
    @depressedP ℝ Scalar.real p < 0 ∧
      0 < -@depressedP ℝ Scalar.real p / 3 ∧ 0 < -3 / @depressedP ℝ Scalar.real p ∧
      0 < -q ^ 3 ∧ @angleCosine ℝ Scalar.real p = r / √(-q ^ 3) ∧
      -1 < @angleCosine ℝ Scalar.real p ∧ @angleCosine ℝ Scalar.real p < 1 ∧
      @Scalar.clamp ℝ Scalar.real (-1) 1 (@angleCosine ℝ Scalar.real p) =
        @angleCosine ℝ Scalar.real p ∧
      ∃ x₀ x₁ x₂, @trigonometricRoots ℝ Scalar.real .exact p = [x₀, x₁, x₂] ∧
        x₁ < x₀ ∧ x₂ < x₁ := by
  obtain ⟨-, hneg, rfl, rfl⟩ := real_branch_trigonometric_iff.1 h
  have hp := depressedP_neg ha hneg
  have hcube := Odd.pow_neg (n := 3) (by decide) (reducedQ_neg hneg)
  obtain ⟨hlow, hhigh⟩ := abs_lt.1 (abs_angleCosine_lt_one ha hneg)
  exact ⟨hp, div_pos (neg_pos.2 hp) three_pos, div_pos_of_neg_of_neg (by norm_num) hp,
    neg_pos.2 hcube, angleCosine_eq ha hneg, hlow, hhigh, real_clamp hlow.le hhigh.le,
    trigonometricRoots_descending ha hneg⟩

/-- The polynomial `x³ - 3x + 1`, which has three real roots; the angle is a third of a turn. -/
theorem trigonometric_wellDefined_separated :
    (1 : ℝ) ≠ 0 ∧
      (@cubicRoots ℝ Scalar.real .exact ⟨1, 0, -3, 1⟩).branch = .trigonometric (-1) (-1 / 2) ∧
      @angleCosine ℝ Scalar.real ⟨1, 0, -3, 1⟩ = -1 / 2 ∧
      ∃ x₀ x₁ x₂, @trigonometricRoots ℝ Scalar.real .exact ⟨1, 0, -3, 1⟩ = [x₀, x₁, x₂] ∧
        x₁ < x₀ ∧ x₂ < x₁ := by
  have hbranch : (@cubicRoots ℝ Scalar.real .exact ⟨1, 0, -3, 1⟩).branch =
      .trigonometric (-1) (-1 / 2) := by
    rw [real_branch_trigonometric_iff, real_reducedDiscriminant, real_reducedQ, real_reducedR]
    norm_num
  obtain ⟨-, -, -, -, hcos, -, -, -, hroots⟩ := trigonometric_wellDefined one_ne_zero hbranch
  refine ⟨one_ne_zero, hbranch, ?_, hroots⟩
  rw [hcos]
  norm_num

end Coefficients

end EquationRoots
