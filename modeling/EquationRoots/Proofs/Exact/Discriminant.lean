import EquationRoots.Proofs.Exact.Solve
import EquationRoots.Proofs.Exact.Trigonometric

/-!
# The discriminant tells the branch and the roots

The branches of a cubic polynomial are told apart by three tests that are written separately: the
sign of `q³ + r²`, the equality of two cube roots, and the sign of a quadratic discriminant. In
exact arithmetic all three are about one number, the discriminant of the polynomial, which is
positive, zero or negative as the polynomial has three different real roots, a repeated root or only
one real root.

- `reducedDiscriminant_eq`: the number `q³ + r²` by the discriminant.
- `hasThreeRealRoots_iff`, `hasRepeatedRoot_iff`: what the discriminant says about the roots.
- `cubicRoots_cases`: what it says about the roots that are found.
- `branch_tells_roots`: the branches and the solution.
-/

set_option autoImplicit false

namespace EquationRoots

open Polynomial Solution

namespace Coefficients

/-- The discriminant of a cubic polynomial. -/
noncomputable def discriminant (p : Coefficients ℝ) : ℝ :=
  18 * p.a * p.b * p.c * p.d - 4 * p.b ^ 3 * p.d + p.b ^ 2 * p.c ^ 2 - 4 * p.a * p.c ^ 3 -
    27 * p.a ^ 2 * p.d ^ 2

/-- The polynomial has three different real roots. -/
def HasThreeRealRoots (p : Coefficients ℝ) : Prop :=
  ∃ x y z : ℝ, x < y ∧ y < z ∧ p.polynomial.IsRoot x ∧ p.polynomial.IsRoot y ∧
    p.polynomial.IsRoot z

/-- The polynomial has a root, real or not, with a multiplicity of two or three. -/
def HasRepeatedRoot (p : Coefficients ℝ) : Prop :=
  ∃ z : ℂ, 1 < p.complexPolynomial.rootMultiplicity z

variable {p : Coefficients ℝ}

/-! ## The discriminant and the roots of the polynomial -/

/-- The polynomial in the form for which the library has the discriminant. -/
def toCubic (p : Coefficients ℝ) : Cubic ℝ := ⟨p.a, p.b, p.c, p.d⟩

theorem discr_toCubic (p : Coefficients ℝ) : p.toCubic.discr = p.discriminant := by
  simp only [Cubic.discr, toCubic, discriminant]
  ring

theorem toPoly_toCubic (p : Coefficients ℝ) : p.toCubic.toPoly = p.polynomial := rfl

theorem roots_map_toCubic (p : Coefficients ℝ) :
    (p.toCubic.map Complex.ofRealHom).roots = p.complexPolynomial.roots := by
  rw [Cubic.map_roots, toPoly_toCubic, map_polynomial]

/-- Three different roots are all roots. -/
theorem roots_eq_of_isRoot (ha : p.a ≠ 0) {x y z : ℝ} (hxy : x < y) (hyz : y < z)
    (hx : p.polynomial.IsRoot x) (hy : p.polynomial.IsRoot y) (hz : p.polynomial.IsRoot z) :
    p.polynomial.roots = {x, y, z} := by
  have hdegree : p.polynomial.natDegree = 3 := Cubic.natDegree_of_a_ne_zero (P := p.toCubic) ha
  have hzero : p.polynomial ≠ 0 := by
    intro h
    rw [h, natDegree_zero] at hdegree
    cases hdegree
  have hnodup : ({x, y, z} : Multiset ℝ).Nodup := by
    simp [hxy.ne, hyz.ne, (hxy.trans hyz).ne]
  have hsub : ({x, y, z} : Multiset ℝ) ⊆ p.polynomial.roots := by
    intro w hw
    rw [mem_roots hzero]
    simp only [Multiset.insert_eq_cons, Multiset.mem_cons, Multiset.mem_singleton] at hw
    rcases hw with rfl | rfl | rfl
    · exact hx
    · exact hy
    · exact hz
  refine (Multiset.eq_of_le_of_card_le ((Multiset.le_iff_subset hnodup).2 hsub) ?_).symm
  exact (card_roots' _).trans hdegree.le

/-- Three different real roots make the discriminant positive. -/
theorem discriminant_pos_of_hasThreeRealRoots (ha : p.a ≠ 0) (h : p.HasThreeRealRoots) :
    0 < p.discriminant := by
  obtain ⟨x, y, z, hxy, hyz, hx, hy, hz⟩ := h
  have hroots : (p.toCubic.map (RingHom.id ℝ)).roots = {x, y, z} := by
    rw [Cubic.map_roots, Polynomial.map_id, toPoly_toCubic]
    exact roots_eq_of_isRoot ha hxy hyz hx hy hz
  have hsquare := Cubic.discr_eq_prod_three_roots (P := p.toCubic) ha hroots
  rw [discr_toCubic, RingHom.id_apply] at hsquare
  rw [hsquare]
  apply sq_pos_of_ne_zero
  have hne : x ≠ y ∧ x ≠ z ∧ y ≠ z := ⟨hxy.ne, (hxy.trans hyz).ne, hyz.ne⟩
  simp only [RingHom.id_apply, toCubic, ne_eq, mul_eq_zero, sub_eq_zero]
  tauto

/-- A repeated root is told by a discriminant of zero. -/
theorem hasRepeatedRoot_iff (ha : p.a ≠ 0) : p.HasRepeatedRoot ↔ p.discriminant = 0 := by
  have hnodup := Cubic.discr_ne_zero_iff_roots_nodup (P := p.toCubic) (φ := Complex.ofRealHom) ha
    (IsAlgClosed.splits _)
  rw [discr_toCubic, roots_map_toCubic, Multiset.nodup_iff_count_le_one] at hnodup
  rw [← not_iff_not, ← ne_eq p.discriminant, hnodup, HasRepeatedRoot]
  simp only [count_roots, not_exists, not_lt]

/-! ## The discriminant and the tests -/

/-- The number that tells the branches apart is the discriminant, scaled. -/
theorem reducedDiscriminant_eq (ha : p.a ≠ 0) :
    @reducedQ ℝ Scalar.real p ^ 3 + @reducedR ℝ Scalar.real p ^ 2 =
      -p.discriminant / (108 * p.a ^ 4) := by
  rw [real_reducedQ, real_reducedR, discriminant]
  field_simp
  ring

theorem reducedDiscriminant_neg_iff (ha : p.a ≠ 0) :
    @reducedDiscriminant ℝ Scalar.real p < 0 ↔ 0 < p.discriminant := by
  have hscale : 0 < 108 * p.a ^ 4 := by positivity
  rw [real_reducedDiscriminant, reducedDiscriminant_eq ha, neg_div, neg_lt_zero,
    div_pos_iff_of_pos_right hscale]

theorem reducedDiscriminant_eq_zero_iff (ha : p.a ≠ 0) :
    @reducedDiscriminant ℝ Scalar.real p = 0 ↔ p.discriminant = 0 := by
  have hscale : 108 * p.a ^ 4 ≠ 0 := by positivity
  rw [real_reducedDiscriminant, reducedDiscriminant_eq ha, neg_div, neg_eq_zero,
    div_eq_zero_iff, or_iff_left hscale]

/-- Cardano's cube roots are equal exactly where `q³ + r²` is zero. -/
theorem cardanoS_eq_cardanoT_iff (h : 0 ≤ @reducedDiscriminant ℝ Scalar.real p) :
    @cardanoS ℝ Scalar.real .exact p = @cardanoT ℝ Scalar.real .exact p ↔
      @reducedDiscriminant ℝ Scalar.real p = 0 := by
  rw [real_cardanoS, real_cardanoT]
  constructor
  · intro heq
    have hcubes := congrArg (· ^ 3) heq
    simp only [cubeRoot_pow_three] at hcubes
    exact (Real.sqrt_eq_zero h).1 (by linarith)
  · intro hzero
    rw [hzero, Real.sqrt_zero, add_zero, sub_zero]

/-- Without a constant coefficient, the discriminant has the sign of the quadratic one. -/
theorem discriminant_nonneg_iff_of_d_eq_zero (hd : p.d = 0) :
    0 ≤ p.discriminant ↔ 0 ≤ p.b * p.b - 4 * p.a * p.c := by
  have hproduct : p.discriminant = p.c ^ 2 * (p.b * p.b - 4 * p.a * p.c) := by
    rw [discriminant, hd]
    ring
  rw [hproduct]
  constructor
  · intro h
    by_contra hneg
    -- a negative quadratic discriminant needs a linear coefficient
    have hc : p.c ≠ 0 := by
      intro hc
      rw [hc, mul_zero, sub_zero] at hneg
      exact hneg (mul_self_nonneg p.b)
    exact absurd h (not_le.2 (mul_neg_of_pos_of_neg (by positivity) (not_le.1 hneg)))
  · intro h
    exact mul_nonneg (sq_nonneg p.c) h

/-! ## The roots that are found -/

/-- Where `q³ + r² < 0`, the cosines give roots. -/
theorem isRoot_of_mem_trigonometricRoots (ha : p.a ≠ 0)
    (h : @reducedDiscriminant ℝ Scalar.real p < 0) {x : ℝ}
    (hx : x ∈ @trigonometricRoots ℝ Scalar.real .exact p) : p.polynomial.IsRoot x := by
  have hfactors := mul_factorProduct_trigonometricRoots ha h
  have hroots := roots_factorProduct (Complex.ofReal_ne_zero.2 ha)
    (((@trigonometricRoots ℝ Scalar.real .exact p).map (@ComplexNum.ofReal ℝ Scalar.real)).map
      ComplexNum.toComplex)
  have hmem : (x : ℂ) ∈ p.complexPolynomial.roots := by
    rw [← hfactors, hroots, Multiset.mem_coe, List.map_map]
    exact List.mem_map.2 ⟨x, hx, ComplexNum.toComplex_ofReal x⟩
  rw [← map_polynomial] at hmem
  exact (isRoot_of_mem_roots hmem).of_map Complex.ofReal_injective

/-- Three different real roots are told by a positive discriminant. -/
theorem hasThreeRealRoots_iff (ha : p.a ≠ 0) : p.HasThreeRealRoots ↔ 0 < p.discriminant := by
  constructor
  · exact discriminant_pos_of_hasThreeRealRoots ha
  · intro h
    have hneg := (reducedDiscriminant_neg_iff ha).2 h
    obtain ⟨x₀, x₁, x₂, hroots, hfirst, hsecond⟩ := trigonometricRoots_descending ha hneg
    have hroot {x : ℝ} := isRoot_of_mem_trigonometricRoots ha hneg (x := x)
    rw [hroots] at hroot
    exact ⟨x₂, x₁, x₀, hsecond, hfirst, hroot (by simp), hroot (by simp), hroot (by simp)⟩

/-- Cardano's pair has an imaginary part of zero exactly where the discriminant is zero. -/
theorem exists_cardanoRoots (ha : p.a ≠ 0) (h : 0 ≤ @reducedDiscriminant ℝ Scalar.real p) :
    ∃ x z, @cardanoRoots ℝ Scalar.real .exact p =
        [@ComplexNum.ofReal ℝ Scalar.real x, z, @ComplexNum.conj ℝ Scalar.real z] ∧
      (z.im = 0 ↔ p.discriminant = 0) := by
  refine ⟨_, _, real_cardanoRoots p, ?_⟩
  have hthree : √3 ≠ (0 : ℝ) := by positivity
  rw [← reducedDiscriminant_eq_zero_iff ha, ← cardanoS_eq_cardanoT_iff h, div_eq_zero_iff,
    or_iff_left (two_ne_zero : (2 : ℝ) ≠ 0), mul_eq_zero, or_iff_left hthree, sub_eq_zero]

/-- A quadratic polynomial with a negative discriminant has a pair that is not real. -/
theorem exists_quadraticRoots_of_neg {a b c : ℝ} (ha : a ≠ 0) (h : b * b - 4 * a * c < 0) :
    ∃ z, @QuadraticRoots.toList ℝ Scalar.real (@quadraticRoots ℝ Scalar.real a b c) =
        [z, @ComplexNum.conj ℝ Scalar.real z] ∧ z.im ≠ 0 := by
  refine ⟨⟨-b / (2 * a), -(√|b * b - 4 * a * c| / (2 * a))⟩, ?_, ?_⟩
  · have hconj : @ComplexNum.conj ℝ Scalar.real
        ⟨-b / (2 * a), -(√|b * b - 4 * a * c| / (2 * a))⟩ =
          ⟨-b / (2 * a), √|b * b - 4 * a * c| / (2 * a)⟩ :=
      congrArg (ComplexNum.mk _) (neg_neg _)
    rw [real_quadraticRoots_of_neg h, hconj]
    rfl
  · have hroot : √|b * b - 4 * a * c| ≠ 0 := (Real.sqrt_pos.2 (abs_pos.2 h.ne)).ne'
    exact neg_ne_zero.2 (div_ne_zero hroot (mul_ne_zero two_ne_zero ha))

/-- A complex number with an imaginary part of zero is a real one. -/
theorem ofReal_re {z : ComplexNum ℝ} (h : z.im = 0) :
    @ComplexNum.ofReal ℝ Scalar.real z.re = z := by
  obtain ⟨re, im⟩ := z
  cases h
  exact congrArg (ComplexNum.mk re) real_ofNat_zero

theorem conj_of_im_eq_zero {z : ComplexNum ℝ} (h : z.im = 0) :
    @ComplexNum.conj ℝ Scalar.real z = z := by
  obtain ⟨re, im⟩ := z
  cases h
  exact congrArg (ComplexNum.mk re) neg_zero

/-- The roots that are found, by the sign of the discriminant: three real ones, or a real one
and a pair that is not real. -/
theorem cubicRoots_cases (ha : p.a ≠ 0) :
    (0 ≤ p.discriminant ∧ ∃ x y z, (@cubicRoots ℝ Scalar.real .exact p).roots =
        [x, y, z].map (@ComplexNum.ofReal ℝ Scalar.real)) ∨
      (p.discriminant < 0 ∧ ∃ x z, (@cubicRoots ℝ Scalar.real .exact p).roots =
        [@ComplexNum.ofReal ℝ Scalar.real x, z, @ComplexNum.conj ℝ Scalar.real z] ∧ z.im ≠ 0) := by
  by_cases hd : p.d = 0
  · rw [real_cubicRoots_of_d_eq_zero hd, ← not_le, discriminant_nonneg_iff_of_d_eq_zero hd]
    rcases le_or_gt 0 (p.b * p.b - 4 * p.a * p.c) with h | h
    · rw [real_quadraticRoots_of_nonneg h]
      exact Or.inl ⟨h, 0, _, _, rfl⟩
    · obtain ⟨z, hpair, him⟩ := exists_quadraticRoots_of_neg ha h
      rw [hpair]
      exact Or.inr ⟨not_le.2 h, 0, z, rfl, him⟩
  · rcases lt_or_ge (@reducedDiscriminant ℝ Scalar.real p) 0 with h | h
    · rw [real_cubicRoots_of_neg hd h, real_trigonometricRoots]
      exact Or.inl ⟨((reducedDiscriminant_neg_iff ha).1 h).le, _, _, _, rfl⟩
    · have hle := not_lt.1 (mt (reducedDiscriminant_neg_iff ha).2 (not_lt.2 h))
      obtain ⟨x, z, hroots, him⟩ := exists_cardanoRoots ha h
      rw [real_cubicRoots_of_nonneg hd h, hroots]
      by_cases hzero : z.im = 0
      -- the pair is one real root twice
      · refine Or.inl ⟨(him.1 hzero).ge, x, z.re, z.re, ?_⟩
        rw [conj_of_im_eq_zero hzero, List.map_cons, List.map_cons, List.map_cons, List.map_nil,
          ofReal_re hzero]
      · exact Or.inr ⟨lt_of_le_of_ne hle (mt him.2 hzero), x, z, rfl, hzero⟩

/-! ## The solution -/

/-- Without tolerance, exactly the roots with an imaginary part of zero become real. -/
theorem real_coerce_zero (s : Solution ℝ) : @Solution.coerce ℝ Scalar.real s 0 =
    ⟨s.realRoots ++ (s.complexRoots.filter (·.im = 0)).map ComplexNum.re,
      s.complexRoots.filter (·.im ≠ 0), s.error⟩ := by
  have hnear : @isNearlyReal ℝ Scalar.real 0 = fun z => decide (z.im = 0) := by
    funext z
    rw [Bool.eq_iff_iff, real_isNearlyReal_iff, decide_eq_true_iff]
  have hreal := @realRoots_coerce ℝ Scalar.real s 0
  have hcomplex := @complexRoots_coerce ℝ Scalar.real s 0
  have herror := @error_coerce ℝ Scalar.real s 0
  rw [hnear] at hreal hcomplex
  simp only [← decide_not] at hcomplex
  rw [← hreal, ← hcomplex, ← herror]

theorem exactSolution_cubic (ha : p.a ≠ 0) : p.exactSolution =
    ⟨((@cubicRoots ℝ Scalar.real .exact p).roots.filter (·.im = 0)).map ComplexNum.re,
      (@cubicRoots ℝ Scalar.real .exact p).roots.filter (·.im ≠ 0), none⟩ := by
  rw [exactSolution_eq (real_degree_cubic ha), real_coerce_zero]
  rfl

/-- The solution, by the sign of the discriminant. -/
theorem exactSolution_cases (ha : p.a ≠ 0) :
    (0 ≤ p.discriminant ∧ ∃ x y z, p.exactSolution = ⟨[x, y, z], [], none⟩) ∨
      (p.discriminant < 0 ∧ ∃ x z, z.im ≠ 0 ∧
        p.exactSolution = ⟨[x], [z, @ComplexNum.conj ℝ Scalar.real z], none⟩) := by
  rw [exactSolution_cubic ha]
  obtain ⟨h, x, y, z, hroots⟩ | ⟨h, x, z, hroots, him⟩ := cubicRoots_cases ha
  · refine Or.inl ⟨h, x, y, z, ?_⟩
    rw [hroots]
    simp [ComplexNum.ofReal, real_ofNat_zero]
  · refine Or.inr ⟨h, x, z, him, ?_⟩
    rw [hroots]
    simp [ComplexNum.ofReal, real_ofNat_zero, him]

/-- The discriminant tells the branch and the roots. The number `q³ + r²` is the discriminant,
scaled by a negative number. The trigonometric branch is taken exactly if the polynomial has three
different real roots and a constant coefficient; on Cardano's branch the imaginary part of the pair
is zero exactly if the polynomial has a repeated root. On every branch there are three real roots
exactly if the discriminant is not negative, and otherwise one and a conjugate pair that is not
real. -/
theorem branch_tells_roots (ha : p.a ≠ 0) :
    @reducedQ ℝ Scalar.real p ^ 3 + @reducedR ℝ Scalar.real p ^ 2 =
        -p.discriminant / (108 * p.a ^ 4) ∧
      ((∃ q r, (@cubicRoots ℝ Scalar.real .exact p).branch = .trigonometric q r) ↔
        p.d ≠ 0 ∧ p.HasThreeRealRoots) ∧
      (∀ q r, (@cubicRoots ℝ Scalar.real .exact p).branch = .cardano q r →
        ∃ x z, (@cubicRoots ℝ Scalar.real .exact p).roots =
            [@ComplexNum.ofReal ℝ Scalar.real x, z, @ComplexNum.conj ℝ Scalar.real z] ∧
          (z.im = 0 ↔ p.HasRepeatedRoot)) ∧
      ((∃ x y z, p.exactSolution = ⟨[x, y, z], [], none⟩) ↔ 0 ≤ p.discriminant) ∧
      ((∃ x z, z.im ≠ 0 ∧
        p.exactSolution = ⟨[x], [z, @ComplexNum.conj ℝ Scalar.real z], none⟩) ↔
          p.discriminant < 0) := by
  refine ⟨reducedDiscriminant_eq ha, ?_, ?_, ?_⟩
  · simp only [real_branch_trigonometric_iff, hasThreeRealRoots_iff ha,
      reducedDiscriminant_neg_iff ha, exists_and_left, exists_eq', and_true]
  · intro q r h
    obtain ⟨hd, hnonneg, -, -⟩ := real_branch_cardano_iff.1 h
    obtain ⟨x, z, hroots, him⟩ := exists_cardanoRoots ha hnonneg
    rw [real_cubicRoots_of_nonneg hd hnonneg, hasRepeatedRoot_iff ha]
    exact ⟨x, z, hroots, him⟩
  · -- the two forms of a solution exclude each other
    obtain ⟨h, x, y, z, hsolution⟩ | ⟨h, x, z, him, hsolution⟩ := exactSolution_cases ha
    · rw [hsolution]
      simp [h]
    · rw [hsolution]
      simp [h, him]

/-- The polynomial `(x - 1)² (x + 2)`, whose repeated root Cardano's formula finds. -/
theorem branch_tells_roots_repeated :
    (1 : ℝ) ≠ 0 ∧ discriminant ⟨1, 0, -3, 2⟩ = 0 ∧
      (@cubicRoots ℝ Scalar.real .exact ⟨1, 0, -3, 2⟩).branch = .cardano (-1) (-1) ∧
      ¬ HasThreeRealRoots ⟨1, 0, -3, 2⟩ ∧
      ∃ x y z, exactSolution ⟨1, 0, -3, 2⟩ = ⟨[x, y, z], [], none⟩ := by
  have hzero : discriminant ⟨1, 0, -3, 2⟩ = 0 := by
    norm_num [discriminant]
  have hbranch : (@cubicRoots ℝ Scalar.real .exact ⟨1, 0, -3, 2⟩).branch =
      .cardano (-1) (-1) := by
    rw [real_branch_cardano_iff, real_reducedDiscriminant, real_reducedQ, real_reducedR]
    norm_num
  obtain ⟨-, htrigonometric, -, hthree, -⟩ :=
    branch_tells_roots (p := ⟨1, 0, -3, 2⟩) one_ne_zero
  refine ⟨one_ne_zero, hzero, hbranch, ?_, hthree.2 hzero.ge⟩
  intro h
  obtain ⟨q, r, hother⟩ := htrigonometric.2 ⟨two_ne_zero, h⟩
  rw [hbranch] at hother
  cases hother

end Coefficients

end EquationRoots
