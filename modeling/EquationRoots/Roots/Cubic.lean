import EquationRoots.Roots.Quadratic

/-!
# Roots of cubic polynomials

A cubic polynomial `a x³ + b x² + c x + d` is solved on one of three branches (`CubicBranch`):

- without a constant coefficient, zero is a root and the quadratic formula gives the other two;
- where `q³ + r² < 0` for the reduced coefficients `q` and `r`, the three real roots are cosines of
  thirds of an angle;
- otherwise Cardano's formula gives a real root and a conjugate pair, whose imaginary part may be
  zero.
-/

set_option autoImplicit false

namespace EquationRoots

open scoped Scalar

/-- The branch on which a cubic polynomial was solved, with its reduced coefficients. Either zero is
a root, and the quotient by `x` is quadratic; or there are three real roots by the cosine of a third
of an angle; or a real root and a pair by Cardano's formula. -/
inductive CubicBranch (α : Type) where
  | factoredZeroRoot
  | trigonometric (q r : α)
  | cardano (q r : α)
deriving BEq, DecidableEq

/-- The three roots of a cubic polynomial, as complex numbers, and the branch that found them. Real
roots have a zero imaginary part. -/
structure CubicRoots (α : Type) where
  branch : CubicBranch α
  roots : List (ComplexNum α)
deriving BEq, DecidableEq

variable {α : Type} [Scalar α]

/-- The third power. -/
def cubed (x : α) : α := x * x * x

namespace Coefficients

/-! ## Reduced coefficients -/

/-- The reduced coefficient `q = (3 a c - b²) / (9 a²)`. -/
def reducedQ (p : Coefficients α) : α :=
  (3 * p.a * p.c - p.b * p.b) / (9 * p.a * p.a)

/-- The reduced coefficient `r = (-2 b³ + 9 a b c - 27 a² d) / (54 a³)`. -/
def reducedR (p : Coefficients α) : α :=
  (-2 * cubed p.b + 9 * p.a * p.b * p.c - 27 * p.a * p.a * p.d) / (54 * cubed p.a)

/-- The number `q³ + r²`, whose sign tells the trigonometric branch from Cardano's. -/
def reducedDiscriminant (p : Coefficients α) : α :=
  cubed p.reducedQ + p.reducedR * p.reducedR

/-- The distance `b / (3 a)` from the roots to those of the depressed polynomial. -/
def shift (p : Coefficients α) : α := p.b / (3 * p.a)

/-! ## The trigonometric branch -/

/-- The linear coefficient `(3 a c - b²) / (3 a²)` of the depressed polynomial. -/
def depressedP (p : Coefficients α) : α :=
  (3 * p.a * p.c - p.b * p.b) / (3 * p.a * p.a)

/-- The constant coefficient `(2 b³ - 9 a b c + 27 a² d) / (27 a³)` of the depressed polynomial. -/
def depressedQ (p : Coefficients α) : α :=
  (2 * cubed p.b - 9 * p.a * p.b * p.c + 27 * p.a * p.a * p.d) / (27 * cubed p.a)

/-- The factor in front of the cosines. -/
def amplitude (p : Coefficients α) : α := 2 * Scalar.sqrt (-p.depressedP / 3)

/-- The number whose inverse cosine is three times the angle of the first root. -/
def angleCosine (p : Coefficients α) : α :=
  (3 * p.depressedQ) / (2 * p.depressedP) * Scalar.sqrt (-3 / p.depressedP)

/-- Three times the angle of the first root. Rounding can push the cosine just outside of its range,
so it is clamped. -/
def angle (maths : Elementary α) (p : Coefficients α) : α :=
  maths.acos (Scalar.clamp (-1) 1 p.angleCosine)

/-- The root number `k` of a polynomial with three real roots. -/
def trigonometricRoot (maths : Elementary α) (p : Coefficients α) (k : α) : α :=
  p.amplitude * maths.cos ((p.angle maths - 2 * Scalar.pi * k) / 3) - p.shift

/-- The three real roots where `q³ + r² < 0`. -/
def trigonometricRoots (maths : Elementary α) (p : Coefficients α) : List α :=
  [p.trigonometricRoot maths 0, p.trigonometricRoot maths 1, p.trigonometricRoot maths 2]

/-! ## Cardano's branch -/

/-- The cube root `s` of `r + √(q³ + r²)`. -/
def cardanoS (maths : Elementary α) (p : Coefficients α) : α :=
  maths.cbrt (p.reducedR + Scalar.sqrt p.reducedDiscriminant)

/-- The cube root `t` of `r - √(q³ + r²)`. -/
def cardanoT (maths : Elementary α) (p : Coefficients α) : α :=
  maths.cbrt (p.reducedR - Scalar.sqrt p.reducedDiscriminant)

/-- The real root and the pair by Cardano's formula. -/
def cardanoRoots (maths : Elementary α) (p : Coefficients α) : List (ComplexNum α) :=
  let s := p.cardanoS maths
  let t := p.cardanoT maths
  let re := -(s + t) / 2 - p.shift
  let im := (s - t) * Scalar.sqrt 3 / 2
  [.ofReal (s + t - p.shift), ⟨re, im⟩, ⟨re, -im⟩]

/-! ## All branches -/

/-- The roots of a cubic polynomial, whose `a` is not zero. -/
def cubicRoots (maths : Elementary α) (p : Coefficients α) : CubicRoots α :=
  if p.d == 0 then
    ⟨.factoredZeroRoot, .ofReal 0 :: (quadraticRoots p.a p.b p.c).toList⟩
  else if p.reducedDiscriminant < 0 then
    ⟨.trigonometric p.reducedQ p.reducedR, (p.trigonometricRoots maths).map .ofReal⟩
  else
    ⟨.cardano p.reducedQ p.reducedR, p.cardanoRoots maths⟩

/-- A cubic polynomial has three roots on every branch. -/
@[simp] theorem length_roots_cubicRoots (maths : Elementary α) (p : Coefficients α) :
    (p.cubicRoots maths).roots.length = 3 := by
  unfold cubicRoots
  split
  · simp
  · split <;> rfl

end Coefficients

end EquationRoots
