import EquationRoots.Coefficients

/-!
# Roots of linear and quadratic polynomials

The linear root is a quotient. A quadratic polynomial is solved by the quadratic formula: a negative
discriminant gives a conjugate pair, any other one two real roots, the smaller first. The
coefficients are named for the polynomial in hand, `c x + d` or `a x² + b x + c`.
-/

set_option autoImplicit false

namespace EquationRoots

open scoped Scalar

variable {α : Type} [Scalar α]

/-- The root of `c x + d`, where `c` is not zero. -/
def linearRoot (c d : α) : α := -d / c

/-- The two roots of a quadratic polynomial. They are real, the smaller one first and both equal
when the discriminant is zero, or a conjugate pair. -/
inductive QuadraticRoots (α : Type) where
  | real (lower upper : α)
  | pair (first second : ComplexNum α)
deriving BEq, DecidableEq

/-- Both roots as complex numbers. -/
def QuadraticRoots.toList : QuadraticRoots α → List (ComplexNum α)
  | .real lower upper => [.ofReal lower, .ofReal upper]
  | .pair first second => [first, second]

@[simp] theorem QuadraticRoots.toList_real (lower upper : α) :
    (QuadraticRoots.real lower upper).toList = [.ofReal lower, .ofReal upper] := rfl

@[simp] theorem QuadraticRoots.toList_pair (first second : ComplexNum α) :
    (QuadraticRoots.pair first second).toList = [first, second] := rfl

@[simp] theorem QuadraticRoots.length_toList (roots : QuadraticRoots α) :
    roots.toList.length = 2 := by cases roots <;> rfl

/-- The discriminant `b² - 4 a c` of `a x² + b x + c`. -/
def quadraticDiscriminant (a b c : α) : α := b * b - 4 * a * c

/-- The roots of `a x² + b x + c`, where `a` is not zero. -/
def quadraticRoots (a b c : α) : QuadraticRoots α :=
  let discriminant := quadraticDiscriminant a b c
  let denominator := 2 * a
  if discriminant < 0 then
    let re := -b / denominator
    let im := Scalar.sqrt (Scalar.abs discriminant) / denominator
    .pair ⟨re, -im⟩ ⟨re, im⟩
  else
    let root := Scalar.sqrt discriminant
    let x₁ := (-b - root) / denominator
    let x₂ := (-b + root) / denominator
    .real (Scalar.smaller x₁ x₂) (Scalar.larger x₁ x₂)

end EquationRoots
