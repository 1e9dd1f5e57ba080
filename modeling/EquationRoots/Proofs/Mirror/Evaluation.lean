import EquationRoots.Proofs.Mirror.Solve

/-!
# Evaluation at real, conjugate and mirrored arguments

A polynomial is evaluated at complex arguments by the same three steps of Horner's rule as at real
ones, with complex products in place of real ones. What one step keeps, the value has:

- at the conjugate argument each step yields the conjugate number, since rounding is odd;
- with all coefficients negated each step yields the opposite number;
- at a real argument each step yields a real number as long as no intermediate value overflows. An
  infinity would be multiplied by the zero in the imaginary part of the argument.

`Coefficients.evalComplex_coherent` puts these together.
-/

set_option autoImplicit false

namespace EquationRoots

open Binary64

namespace ComplexNum

/-! ## Complex numbers -/

/-- Both parts are the negatives of those of the other number. -/
def Opposite (z w : ComplexNum Float) : Prop :=
  Binary64.Opposite z.re w.re ∧ Binary64.Opposite z.im w.im

/-- The complex number is a real one. -/
def IsReal (z : ComplexNum Float) (x : Float) : Prop :=
  Binary64.SameValue z.re x ∧ IsZero z.im

theorem isReal_ofReal (x : Float) : (ofReal x).IsReal x := by
  have hzero : IsZero (Scalar.ofNat 0) := ⟨.positive, rfl⟩
  exact ⟨.refl x, hzero⟩

theorem SameValue.trans {z w w' : ComplexNum Float} (h : z.SameValue w) (h' : w.SameValue w') :
    z.SameValue w' := ⟨h.1.trans h'.1, h.2.trans h'.2⟩

end ComplexNum

/-! ## One step of Horner's rule -/

namespace ComplexArithmetic

open ComplexNum

variable {arithmetic : ComplexArithmetic Float}

/-- One step of Horner's rule: the value so far times the argument, and the next coefficient. -/
def horner (arithmetic : ComplexArithmetic Float) (z w : ComplexNum Float) (k : Float) :
    ComplexNum Float := arithmetic.addReal (arithmetic.mul w z) k

namespace IsCartesian

variable (ha : arithmetic.IsCartesian) {z z' w w' : ComplexNum Float} {x v k k' : Float}

include ha

theorem sameValue_mul (h : z.SameValue z') (h' : w.SameValue w') :
    (arithmetic.mul z w).SameValue (arithmetic.mul z' w') := by
  rw [ha.mul_eq, ha.mul_eq]
  exact ⟨(h.1.mul h'.1).sub (h.2.mul h'.2), (h.1.mul h'.2).add (h.2.mul h'.1)⟩

theorem sameValue_addReal (h : z.SameValue z') (k : Float) :
    (arithmetic.addReal z k).SameValue (arithmetic.addReal z' k) := by
  rw [ha.addReal_eq, ha.addReal_eq]
  exact ⟨h.1.add_right k, h.2⟩

/-- The product of conjugates is the conjugate product. -/
theorem conj_mul_conj (w z : ComplexNum Float) :
    (arithmetic.mul w.conj z.conj).SameValue (arithmetic.mul w z).conj := by
  rw [ha.mul_eq, ha.mul_eq]
  constructor
  · simp only [re_conj, im_conj, Binary64.neg_mul_neg]
    exact .refl _
  · simp only [re_conj, im_conj, Binary64.mul_neg, Binary64.neg_mul]
    exact neg_add_neg _ _

theorem conj_addReal (z : ComplexNum Float) (k : Float) :
    arithmetic.addReal z.conj k = (arithmetic.addReal z k).conj := by
  rw [ha.addReal_eq, ha.addReal_eq]
  rfl

/-- The linear polynomial that Horner's rule starts with. -/
theorem linear_eq (z : ComplexNum Float) (a b : Float) :
    arithmetic.addReal (arithmetic.scale z a) b = ⟨z.re * a + b, z.im * a⟩ := by
  rw [ha.addReal_eq, ha.scale_eq]

theorem conj_horner (h : w'.SameValue w.conj) (k : Float) :
    (arithmetic.horner z.conj w' k).SameValue (arithmetic.horner z w k).conj := by
  have hproduct := (ha.sameValue_mul h ⟨.refl _, .refl _⟩).trans (ha.conj_mul_conj w z)
  rw [horner, horner, ← ha.conj_addReal]
  exact ha.sameValue_addReal hproduct k

theorem opposite_horner (h : w'.Opposite w) (hk : Binary64.Opposite k' k) :
    (arithmetic.horner z w' k').Opposite (arithmetic.horner z w k) := by
  rw [horner, horner, ha.addReal_eq, ha.addReal_eq, ha.mul_eq, ha.mul_eq]
  exact ⟨((h.1.mul_right z.re).sub (h.2.mul_right z.im)).add hk,
    (h.1.mul_right z.im).add (h.2.mul_right z.re)⟩

/-- A step at a real argument stays real, provided that what is multiplied is finite. -/
theorem isReal_horner (hz : z.IsReal x) (hw : w.IsReal v) (hx : x.isFinite = true)
    (hv : v.isFinite = true) (k : Float) : (arithmetic.horner z w k).IsReal (v * x + k) := by
  have hzre : z.re.isFinite = true := hz.1.isFinite_eq.trans hx
  have hwre : w.re.isFinite = true := hw.1.isFinite_eq.trans hv
  have hre : Binary64.SameValue (w.re * z.re - w.im * z.im) (v * x) :=
    (sameValue_sub_of_isZero _ (hw.2.mul hz.2.isFinite)).trans (hw.1.mul hz.1)
  have him : IsZero (w.re * z.im + w.im * z.re) := by
    rw [Binary64.mul_comm w.re]
    exact (hz.2.mul hwre).add (hw.2.mul hzre)
  rw [horner, ha.addReal_eq, ha.mul_eq]
  exact ⟨hre.add_right k, him⟩

end IsCartesian

end ComplexArithmetic

/-! ## Polynomials -/

namespace Coefficients

variable {arithmetic : ComplexArithmetic Float} (ha : arithmetic.IsCartesian)

/-- Evaluation is two steps from the linear polynomial of the leading two coefficients. -/
theorem evalWith_eq (arithmetic : ComplexArithmetic Float) (p : Coefficients Float)
    (z : ComplexNum Float) :
    p.evalWith arithmetic z =
      arithmetic.horner z (arithmetic.horner z
        (arithmetic.addReal (arithmetic.scale z p.a) p.b) p.c) p.d := rfl

include ha in
theorem evalWith_conj (p : Coefficients Float) (z : ComplexNum Float) :
    (p.evalWith arithmetic z.conj).SameValue (p.evalWith arithmetic z).conj := by
  have hlinear : (arithmetic.addReal (arithmetic.scale z.conj p.a) p.b).SameValue
      (arithmetic.addReal (arithmetic.scale z p.a) p.b).conj := by
    rw [ha.linear_eq, ha.linear_eq]
    exact ⟨.refl _, .of_eq (Binary64.neg_mul z.im p.a)⟩
  rw [evalWith_eq, evalWith_eq]
  exact ha.conj_horner (ha.conj_horner hlinear p.c) p.d

namespace Mirrors

variable {p p' : Coefficients Float} (h : p'.Mirrors p)

include h

/-- The mirror image has the opposite value. -/
theorem eval (x : Float) : Opposite (p'.eval x) (p.eval x) :=
  ((((h.a.mul_right x).add h.b).mul_right x).add h.c).mul_right x |>.add h.d

include ha in
theorem evalWith (z : ComplexNum Float) :
    (p'.evalWith arithmetic z).Opposite (p.evalWith arithmetic z) := by
  have hlinear : (arithmetic.addReal (arithmetic.scale z p'.a) p'.b).Opposite
      (arithmetic.addReal (arithmetic.scale z p.a) p.b) := by
    rw [ha.linear_eq, ha.linear_eq]
    exact ⟨((SameValue.refl z.re).mul_opposite h.a).add h.b,
      (SameValue.refl z.im).mul_opposite h.a⟩
  rw [evalWith_eq, evalWith_eq]
  exact ha.opposite_horner (ha.opposite_horner hlinear h.c) h.d

end Mirrors

/-- The values on the way to the value at `x`, in the order in which they are computed. -/
def intermediates (p : Coefficients Float) (x : Float) : List Float :=
  [p.a * x, p.a * x + p.b, (p.a * x + p.b) * x, (p.a * x + p.b) * x + p.c,
    ((p.a * x + p.b) * x + p.c) * x]

include ha in
/-- At a real argument the complex value is the real one, if no intermediate value overflows. -/
theorem isReal_evalWith {p : Coefficients Float} {z : ComplexNum Float} {x : Float}
    (hz : z.IsReal x) (h : ∀ v ∈ p.intermediates x, v.isFinite = true) :
    (p.evalWith arithmetic z).IsReal (p.eval x) := by
  have hfirst : (p.a * x).isFinite = true := h _ (by simp [intermediates])
  have hlinear : (p.a * x + p.b).isFinite = true := h _ (by simp [intermediates])
  have hquadratic : ((p.a * x + p.b) * x + p.c).isFinite = true := h _ (by simp [intermediates])
  obtain ⟨hlead, hx⟩ := isFinite_of_mul hfirst
  have hstart : (arithmetic.addReal (arithmetic.scale z p.a) p.b).IsReal (p.a * x + p.b) := by
    rw [ha.linear_eq, Binary64.mul_comm p.a]
    exact ⟨(hz.1.mul_right p.a).add_right p.b, hz.2.mul hlead⟩
  rw [evalWith_eq]
  exact ha.isReal_horner hz (ha.isReal_horner hz hstart hx hlinear p.c) hx hquadratic p.d

/-- Evaluation is coherent, for any coefficients and any library with the documented complex
arithmetic. At the conjugate argument a polynomial has the conjugate value. With all coefficients
negated it has the opposite value, at real and at complex arguments. At a real argument where the
values on the way are finite, its complex value has the real one as real part and a zero as
imaginary part. -/
theorem evalComplex_coherent {arithmetic : ComplexArithmetic Float}
    (ha : arithmetic.IsCartesian) (p : Coefficients Float) :
    (∀ z, (p.evalWith arithmetic z.conj).SameValue (p.evalWith arithmetic z).conj) ∧
      (∀ x, Opposite (p.negated.eval x) (p.eval x)) ∧
      (∀ z, (p.negated.evalWith arithmetic z).Opposite (p.evalWith arithmetic z)) ∧
      ∀ x, (∀ v ∈ p.intermediates x, v.isFinite = true) →
        SameValue (p.evalWith arithmetic (.ofReal x)).re (p.eval x) ∧
          IsZero (p.evalWith arithmetic (.ofReal x)).im := by
  have hmirrors := mirrors_negated p
  refine ⟨evalWith_conj ha p, hmirrors.eval, hmirrors.evalWith ha, ?_⟩
  intro x hfinite
  exact isReal_evalWith ha (ComplexNum.isReal_ofReal x) hfinite

/-- The polynomial `x³ - 6x² + 11x - 6` at `4`, computed part by part. -/
theorem evalComplex_coherent_four :
    (∀ v ∈ intermediates ⟨1, -6, 11, -6⟩ 4, v.isFinite = true) ∧
      eval (⟨1, -6, 11, -6⟩ : Coefficients Float) 4 = 6 ∧
      SameValue (evalComplex ⟨1, -6, 11, -6⟩ (.ofReal 4)).re 6 ∧
      IsZero (evalComplex ⟨1, -6, 11, -6⟩ (.ofReal 4)).im := by
  have hfinite : ∀ v ∈ intermediates ⟨1, -6, 11, -6⟩ 4, v.isFinite = true := by decide +kernel
  have hvalue : eval (⟨1, -6, 11, -6⟩ : Coefficients Float) 4 = 6 := by decide +kernel
  obtain ⟨hre, him⟩ := (evalComplex_coherent ComplexArithmetic.isCartesian_cartesian
    ⟨1, -6, 11, -6⟩).2.2.2 4 hfinite
  rw [hvalue] at hre
  exact ⟨hfinite, hvalue, hre, him⟩

/-- Where a value on the way overflows, the imaginary part is "not a number". -/
example : (evalComplex ⟨1e308, 0, 0, 0⟩ (.ofReal 100)).im.isNaN = true := by decide +kernel

end Coefficients

end EquationRoots
