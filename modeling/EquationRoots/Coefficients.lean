import EquationRoots.ComplexNum

/-!
# Polynomials of degree at most three

`Coefficients` stands for `a x³ + b x² + c x + d`. The leading non-zero coefficient among `a`, `b`
and `c` gives the degree; a polynomial of degree zero has none, since it has no variable.
Evaluation is Horner's rule, at real and at complex arguments.
-/

set_option autoImplicit false

namespace EquationRoots

/-- The degree of a polynomial that has a variable. -/
inductive Degree where
  | linear
  | quadratic
  | cubic
deriving DecidableEq, Repr

/-- The highest power of the variable. -/
def Degree.power : Degree → Nat
  | .linear => 1
  | .quadratic => 2
  | .cubic => 3

@[simp] theorem Degree.power_linear : Degree.linear.power = 1 := rfl

@[simp] theorem Degree.power_quadratic : Degree.quadratic.power = 2 := rfl

@[simp] theorem Degree.power_cubic : Degree.cubic.power = 3 := rfl

/-- The coefficients of `a x³ + b x² + c x + d`, from the third power down to the constant one. -/
structure Coefficients (α : Type) where
  a : α
  b : α
  c : α
  d : α
deriving BEq, DecidableEq

namespace Coefficients

open scoped Scalar

variable {α : Type} [Scalar α]

/-- The degree, read off the first non-zero one of `a`, `b` and `c`; `none` if all are zero.
A zero of either sign is zero, and "not a number" is not. -/
def degree? (p : Coefficients α) : Option Degree :=
  if p.a != 0 then some .cubic
  else if p.b != 0 then some .quadratic
  else if p.c != 0 then some .linear
  else none

/-- Whether all four coefficients are finite. -/
def isFinite (p : Coefficients α) : Bool :=
  Scalar.isFinite p.a && Scalar.isFinite p.b && Scalar.isFinite p.c && Scalar.isFinite p.d

/-- The value at a real argument, by Horner's rule. -/
def eval (p : Coefficients α) (x : α) : α :=
  ((p.a * x + p.b) * x + p.c) * x + p.d

/-- The value at a complex argument, by Horner's rule in the given arithmetic. -/
def evalWith (arithmetic : ComplexArithmetic α) (p : Coefficients α) (z : ComplexNum α) :
    ComplexNum α :=
  let linear := arithmetic.addReal (arithmetic.scale z p.a) p.b
  let quadratic := arithmetic.addReal (arithmetic.mul linear z) p.c
  arithmetic.addReal (arithmetic.mul quadratic z) p.d

/-- The value at a complex argument, computed part by part. -/
def evalComplex (p : Coefficients α) (z : ComplexNum α) : ComplexNum α := p.evalWith .cartesian z

/-- The polynomial with every coefficient negated: the equation with its sides exchanged. -/
def negated (p : Coefficients α) : Coefficients α := ⟨-p.a, -p.b, -p.c, -p.d⟩

@[simp] theorem a_negated (p : Coefficients α) : p.negated.a = -p.a := rfl

@[simp] theorem b_negated (p : Coefficients α) : p.negated.b = -p.b := rfl

@[simp] theorem c_negated (p : Coefficients α) : p.negated.c = -p.c := rfl

@[simp] theorem d_negated (p : Coefficients α) : p.negated.d = -p.d := rfl

end Coefficients

end EquationRoots
