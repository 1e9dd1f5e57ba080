import EquationRoots.Scalar

/-!
# Complex numbers

Complex numbers by their real and imaginary parts. Their arithmetic belongs to a library, like the
functions of `Elementary`; evaluating a polynomial with real coefficients takes three operations of
it (`ComplexArithmetic`). The library documents them by their real and imaginary parts
(`ComplexArithmetic.IsCartesian`): a real factor scales both parts, a real summand changes the real
part alone, and the product is the one with four multiplications, so that its rounding is fixed.
-/

set_option autoImplicit false

namespace EquationRoots

/-- A complex number, by its real and its imaginary part. -/
structure ComplexNum (α : Type) where
  re : α
  im : α
deriving BEq, DecidableEq

/-- The operations on complex numbers that evaluating a polynomial needs: the product of two complex
numbers, and the product and the sum of a complex number and a real one. -/
structure ComplexArithmetic (α : Type) where
  mul : ComplexNum α → ComplexNum α → ComplexNum α
  scale : ComplexNum α → α → ComplexNum α
  addReal : ComplexNum α → α → ComplexNum α

variable {α : Type} [Scalar α]

namespace ComplexNum

/-- The complex number with a given real part and a zero imaginary part. -/
def ofReal (x : α) : ComplexNum α := ⟨x, Scalar.ofNat 0⟩

/-- The conjugate number. -/
def conj (z : ComplexNum α) : ComplexNum α := ⟨z.re, -z.im⟩

@[simp] theorem re_ofReal (x : α) : (ofReal x).re = x := rfl

@[simp] theorem im_ofReal (x : α) : (ofReal x).im = Scalar.ofNat 0 := rfl

@[simp] theorem re_conj (z : ComplexNum α) : z.conj.re = z.re := rfl

@[simp] theorem im_conj (z : ComplexNum α) : z.conj.im = -z.im := rfl

end ComplexNum

namespace ComplexArithmetic

/-- The operations have the documented real and imaginary parts. -/
structure IsCartesian (arithmetic : ComplexArithmetic α) : Prop where
  mul_eq : ∀ z w, arithmetic.mul z w = ⟨z.re * w.re - z.im * w.im, z.re * w.im + z.im * w.re⟩
  scale_eq : ∀ z x, arithmetic.scale z x = ⟨z.re * x, z.im * x⟩
  addReal_eq : ∀ z x, arithmetic.addReal z x = ⟨z.re + x, z.im⟩

/-- The operations computed part by part. -/
def cartesian : ComplexArithmetic α where
  mul z w := ⟨z.re * w.re - z.im * w.im, z.re * w.im + z.im * w.re⟩
  scale z x := ⟨z.re * x, z.im * x⟩
  addReal z x := ⟨z.re + x, z.im⟩

theorem isCartesian_cartesian : (cartesian : ComplexArithmetic α).IsCartesian where
  mul_eq _ _ := rfl
  scale_eq _ _ := rfl
  addReal_eq _ _ := rfl

end ComplexArithmetic

end EquationRoots
