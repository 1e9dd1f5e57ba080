import EquationRoots.Proofs.Binary64.Negation
import EquationRoots.Proofs.Overflow.Cubic

/-!
# The root formulas under negation

When every coefficient of a polynomial is negated (`Coefficients.Mirrors`), the formulas find the
same roots. In products and quotients the signs cancel, and the quantities that settle the branch
stay the same numbers. What does change is the order of two roots that differ by the sign in front
of a square root:

- the two real roots of the quadratic formula trade places before the smaller one is put first;
- the two numbers of its conjugate pair trade places, and stay so (`QuadraticRoots.Mirrors`).

A number that is divided by has to be the same float, for the sign of a zero would come through. The
leading coefficient is not zero, and neither is the linear coefficient of the depressed polynomial
where `q³ + r² < 0`.
-/

set_option autoImplicit false

namespace EquationRoots

open Binary64
open scoped Scalar

/-- The functions of a library of mathematics depend on the number alone, not on the sign of a
zero. -/
structure Elementary.RespectsValues (maths : Elementary Float) : Prop where
  cbrt : ∀ {x y}, SameValue x y → SameValue (maths.cbrt x) (maths.cbrt y)
  cos : ∀ {x y}, SameValue x y → SameValue (maths.cos x) (maths.cos y)
  acos : ∀ {x y}, SameValue x y → SameValue (maths.acos x) (maths.acos y)

/-- Both parts are the same numbers. -/
def ComplexNum.SameValue (z w : ComplexNum Float) : Prop :=
  Binary64.SameValue z.re w.re ∧ Binary64.SameValue z.im w.im

/-- The roots of a quadratic polynomial and of its mirror image. Real roots are the same in each
place; the numbers of a conjugate pair have traded places. -/
inductive QuadraticRoots.Mirrors : QuadraticRoots Float → QuadraticRoots Float → Prop
  | real {lower lower' upper upper' : Float} (hlower : SameValue lower' lower)
      (hupper : SameValue upper' upper) : Mirrors (.real lower' upper') (.real lower upper)
  | pair {z z' : ComplexNum Float} (h : z'.SameValue z.conj) :
      Mirrors (.pair z' z'.conj) (.pair z z.conj)

/-! ## Linear and quadratic polynomials -/

section Quadratic

variable {a b c a' b' c' : Float}

theorem sameValue_linearRoot {d d' : Float} (hc : Opposite c' c) (hd : Opposite d' d)
    (h0 : ¬ IsZero c) : SameValue (linearRoot c' d') (linearRoot c d) := by
  rw [hc.eq_neg h0]
  exact Opposite.div_neg (SameValue.neg hd) c

theorem sameValue_quadraticDiscriminant (ha : Opposite a' a) (hb : Opposite b' b)
    (hc : Opposite c' c) :
    SameValue (quadraticDiscriminant a' b' c') (quadraticDiscriminant a b c) :=
  (hb.mul hb).sub (((SameValue.refl 4).mul_opposite ha).mul hc)

/-- The quadratic formula finds the same real roots, or the same pair in the other order. -/
theorem mirrors_quadraticRoots (ha : Opposite a' a) (hb : Opposite b' b) (hc : Opposite c' c)
    (h0 : ¬ IsZero a) : (quadraticRoots a' b' c').Mirrors (quadraticRoots a b c) := by
  have hdisc := sameValue_quadraticDiscriminant ha hb hc
  have hnegb : Opposite (-b') (-b) := SameValue.neg hb
  obtain rfl := ha.eq_neg h0
  simp only [quadraticRoots, Binary64.mul_neg, hdisc.lt_iff (.refl 0)]
  split
  · -- the real part stays, and the imaginary part changes its sign
    have hre : SameValue (-b' / -(2 * a)) (-b / (2 * a)) := hnegb.div_neg _
    have him : Opposite (Scalar.sqrt (Scalar.abs (quadraticDiscriminant (-a) b' c')) / -(2 * a))
        (Scalar.sqrt (Scalar.abs (quadraticDiscriminant a b c)) / (2 * a)) := by
      rw [Binary64.div_neg]
      exact (hdisc.abs.sqrt.div_right _).neg
    have hpair : ComplexNum.SameValue ⟨_, -_⟩ (ComplexNum.conj ⟨_, -_⟩) :=
      ⟨hre, him.neg.opposite_neg⟩
    simpa only [ComplexNum.conj, Binary64.neg_neg] using QuadraticRoots.Mirrors.pair hpair
  · -- the candidate with the root subtracted is the mirror image of the one with the root added
    have hsub : SameValue ((-b' - Scalar.sqrt (quadraticDiscriminant (-a) b' c')) / -(2 * a))
        ((-b + Scalar.sqrt (quadraticDiscriminant a b c)) / (2 * a)) := by
      rw [sub_eq_add]
      exact (hnegb.add hdisc.sqrt.neg).div_neg _
    have hadd : SameValue ((-b' + Scalar.sqrt (quadraticDiscriminant (-a) b' c')) / -(2 * a))
        ((-b - Scalar.sqrt (quadraticDiscriminant a b c)) / (2 * a)) := by
      rw [sub_eq_add]
      exact (hnegb.add hdisc.sqrt.opposite_neg).div_neg _
    exact .real ((hsub.smaller hadd).trans (smaller_comm _ _))
      ((hsub.larger hadd).trans (larger_comm _ _))

end Quadratic

namespace Coefficients

/-- Every coefficient is the negative of the other polynomial's. -/
structure Mirrors (p' p : Coefficients Float) : Prop where
  a : Opposite p'.a p.a
  b : Opposite p'.b p.b
  c : Opposite p'.c p.c
  d : Opposite p'.d p.d

theorem mirrors_negated (p : Coefficients Float) : p.negated.Mirrors p :=
  ⟨.neg_left p.a, .neg_left p.b, .neg_left p.c, .neg_left p.d⟩

namespace Mirrors

variable {maths : Elementary Float} {p p' : Coefficients Float} (h : p'.Mirrors p)

include h

/-! ## Cubic polynomials -/

theorem numeratorQ : SameValue p'.numeratorQ p.numeratorQ :=
  (((SameValue.refl 3).mul_opposite h.a).mul h.c).sub (h.b.mul h.b)

/-! Terms of degree three in the coefficients become the opposite numbers. -/

theorem mul_cubed_b (k : Float) : Opposite (k * cubed p'.b) (k * cubed p.b) :=
  (SameValue.refl k).mul_opposite ((h.b.mul h.b).mul_opposite h.b)

theorem mul_abc (k : Float) : Opposite (k * p'.a * p'.b * p'.c) (k * p.a * p.b * p.c) :=
  (((SameValue.refl k).mul_opposite h.a).mul h.b).mul_opposite h.c

theorem mul_aad (k : Float) : Opposite (k * p'.a * p'.a * p'.d) (k * p.a * p.a * p.d) :=
  (((SameValue.refl k).mul_opposite h.a).mul h.a).mul_opposite h.d

theorem numeratorR : Opposite p'.numeratorR p.numeratorR :=
  ((h.mul_cubed_b _).add (h.mul_abc _)).sub (h.mul_aad _)

theorem depressedNumerator : Opposite p'.depressedNumerator p.depressedNumerator :=
  ((h.mul_cubed_b _).sub (h.mul_abc _)).add (h.mul_aad _)

/-! ### Reduced coefficients

The leading coefficient is not zero, so that the divisors are the same floats or exact negatives. -/

variable (h0 : ¬ IsZero p.a)

include h0

theorem mul_a (k : Float) : k * p'.a = -(k * p.a) := by
  rw [h.a.eq_neg h0, Binary64.mul_neg]

theorem mul_a_mul_a (k : Float) : k * p'.a * p'.a = k * p.a * p.a := by
  rw [h.mul_a h0, h.mul_a h0, Binary64.neg_mul, Binary64.neg_neg]

theorem mul_cubed_a (k : Float) : k * cubed p'.a = -(k * cubed p.a) := by
  have hcubed : cubed p'.a = -cubed p.a := by
    rw [h.a.eq_neg h0, cubed, cubed, Binary64.neg_mul_neg, Binary64.mul_neg]
  rw [hcubed, Binary64.mul_neg]

theorem reducedQ : SameValue p'.reducedQ p.reducedQ := by
  rw [reducedQ_eq, reducedQ_eq, h.mul_a_mul_a h0]
  exact h.numeratorQ.div_right _

theorem reducedR : SameValue p'.reducedR p.reducedR := by
  rw [reducedR_eq, reducedR_eq, h.mul_cubed_a h0]
  exact h.numeratorR.div_neg _

theorem reducedDiscriminant : SameValue p'.reducedDiscriminant p.reducedDiscriminant := by
  have hq := h.reducedQ h0
  have hr := h.reducedR h0
  exact ((hq.mul hq).mul hq).add (hr.mul hr)

theorem shift : SameValue p'.shift p.shift := by
  rw [Coefficients.shift, Coefficients.shift, h.mul_a h0]
  exact h.b.div_neg _

/-! ### The trigonometric branch -/

theorem depressedQ : SameValue p'.depressedQ p.depressedQ := by
  rw [Coefficients.depressedQ, Coefficients.depressedQ, h.mul_cubed_a h0]
  exact h.depressedNumerator.div_neg _

section Trigonometric

variable (hneg : p.reducedDiscriminant < 0)

include hneg

/-- Where `q³ + r² < 0`, the linear coefficient of the depressed polynomial is the same float. -/
theorem depressedP : p'.depressedP = p.depressedP := by
  have hzero : ¬ IsZero p.numeratorQ := by
    intro hzero
    obtain ⟨-, hbelow⟩ := isBelow_reducedQ hneg
    rw [reducedQ_eq] at hbelow
    rcases hzero.div (Scalar.ofNat 9 * p.a * p.a) with hq | hq
    · rw [hq] at hbelow
      exact absurd hbelow.isNaN (by simp)
    · exact hbelow.not_isZero (by simp) hq
  rw [depressedP_eq, depressedP_eq, h.mul_a_mul_a h0, h.numeratorQ.eq_of_not_isZero hzero]

theorem angleCosine : SameValue p'.angleCosine p.angleCosine := by
  rw [Coefficients.angleCosine, Coefficients.angleCosine, h.depressedP h0 hneg]
  exact (((SameValue.refl 3).mul (h.depressedQ h0)).div_right _).mul_right _

variable (hm : maths.RespectsValues)

include hm

theorem angle : SameValue (p'.angle maths) (p.angle maths) :=
  hm.acos ((h.angleCosine h0 hneg).clamp _ _)

theorem trigonometricRoot (k : Float) :
    SameValue (p'.trigonometricRoot maths k) (p.trigonometricRoot maths k) := by
  have hangle := ((h.angle h0 hneg hm).sub (.refl (2 * Scalar.pi * k))).div_right 3
  have hamplitude : p'.amplitude = p.amplitude := by
    rw [amplitude, amplitude, h.depressedP h0 hneg]
  rw [Coefficients.trigonometricRoot, Coefficients.trigonometricRoot, hamplitude]
  exact ((SameValue.refl _).mul (hm.cos hangle)).sub (h.shift h0)

end Trigonometric

/-! ### Cardano's branch -/

variable (hm : maths.RespectsValues)

include hm

theorem cardanoS : SameValue (p'.cardanoS maths) (p.cardanoS maths) :=
  hm.cbrt ((h.reducedR h0).add (h.reducedDiscriminant h0).sqrt)

theorem cardanoT : SameValue (p'.cardanoT maths) (p.cardanoT maths) :=
  hm.cbrt ((h.reducedR h0).sub (h.reducedDiscriminant h0).sqrt)

end Mirrors

end Coefficients

end EquationRoots
