import EquationRoots.Equation.StandardForm
import EquationRoots.Event
import EquationRoots.Solution
import EquationRoots.Tolerance

/-!
# Solving polynomials and equations

A polynomial is solved by the formula for its degree, and the roots are then coerced within the
tolerance. A polynomial without the variable carries the error `missingVariable` and the single
root zero, which stands in for "every number or none". An equation is brought to standard form
first; if it has none, the solution carries the reason, and no event takes place.
-/

set_option autoImplicit false

namespace EquationRoots

open scoped Scalar

/-- A solution and the events that led to it, in order. -/
structure Report (α : Type) where
  solution : Solution α
  events : List (Event α)

namespace Coefficients

variable {α : Type} [Scalar α]

/-- The roots by the formula for a degree, before coercion. -/
def rootsByDegree (maths : Elementary α) (p : Coefficients α) : Degree → Solution α
  | .linear => .ofReal [linearRoot p.c p.d]
  | .quadratic =>
    match quadraticRoots p.b p.c p.d with
    | .real lower upper => .ofReal [lower, upper]
    | .pair first second => .ofComplex [first, second]
  | .cubic => .ofComplex (p.cubicRoots maths).roots

/-- The events of the formula for a degree. -/
def eventsByDegree (maths : Elementary α) (p : Coefficients α) : Degree → List (Event α)
  | .linear => []
  | .quadratic => [.discriminant (quadraticDiscriminant p.b p.c p.d)]
  | .cubic => [.cubic (p.cubicRoots maths).branch]

/-- The event of a coercion that moved so many roots; there is none if it moved no root. -/
def coercionEvents (moved : Nat) : List (Event α) :=
  if 0 < moved then [.coerced moved] else []

/-- The stand-in for the roots of a polynomial without the variable. -/
def withoutVariable : Solution α := ⟨[0], [], some .missingVariable⟩

/-- Solves a polynomial. -/
def solve (maths : Elementary α) (tolerance : Tolerance α) (p : Coefficients α) : Report α :=
  match p.degree? with
  | none => ⟨withoutVariable, [.dispatched p none]⟩
  | some degree =>
    let found := p.rootsByDegree maths degree
    let solution := found.coerce tolerance.bound
    let moved := found.complexRoots.length - solution.complexRoots.length
    ⟨solution,
      .dispatched p (some degree) :: p.eventsByDegree maths degree ++ coercionEvents moved⟩

section Solve

variable {maths : Elementary α} {tolerance : Tolerance α} {p : Coefficients α}

/-- A polynomial without the variable has the stand-in for its solution. -/
theorem solve_of_degree?_eq_none (h : p.degree? = none) :
    p.solve maths tolerance = ⟨withoutVariable, [.dispatched p none]⟩ := by
  rw [solve, h]

/-- The solution of a polynomial with the variable is what its formula finds, coerced. -/
theorem solution_solve {degree : Degree} (h : p.degree? = some degree) :
    (p.solve maths tolerance).solution = (p.rootsByDegree maths degree).coerce tolerance.bound := by
  rw [solve, h]

/-- The events of a polynomial with the variable are the choice of the formula, the events of the
formula and those of coercion. -/
theorem events_solve {degree : Degree} (h : p.degree? = some degree) :
    (p.solve maths tolerance).events =
      .dispatched p (some degree) :: p.eventsByDegree maths degree ++
        coercionEvents ((p.rootsByDegree maths degree).complexRoots.length -
          (p.solve maths tolerance).solution.complexRoots.length) := by
  rw [solution_solve h, solve, h]

end Solve

/-- The formula for a degree finds as many roots as the degree says. -/
@[simp] theorem size_rootsByDegree (maths : Elementary α) (p : Coefficients α) (degree : Degree) :
    (p.rootsByDegree maths degree).size = degree.power := by
  cases degree with
  | linear => rfl
  | quadratic =>
    simp only [rootsByDegree]
    split <;> rfl
  | cubic => simp [rootsByDegree]

@[simp] theorem error_rootsByDegree (maths : Elementary α) (p : Coefficients α)
    (degree : Degree) : (p.rootsByDegree maths degree).error = none := by
  cases degree with
  | linear | cubic => rfl
  | quadratic =>
    simp only [rootsByDegree]
    split <;> rfl

/-- A polynomial with the variable has as many roots as its degree says. -/
theorem size_solve (maths : Elementary α) (tolerance : Tolerance α) (p : Coefficients α)
    {degree : Degree} (h : p.degree? = some degree) :
    (p.solve maths tolerance).solution.size = degree.power := by
  rw [solution_solve h, Solution.size_coerce, size_rootsByDegree]

end Coefficients

/-- Solves an equation. -/
def Equation.solve (maths : Elementary Float) (tolerance : Tolerance Float) (equation : Text) :
    Report Float :=
  match Equation.standardForm equation with
  | .ok p => p.solve maths tolerance
  | .error error => ⟨.failed error, []⟩

namespace Equation

variable {maths : Elementary Float} {tolerance : Tolerance Float} {equation : Text}

theorem solve_of_standardForm_eq_ok {p : Coefficients Float} (h : standardForm equation = .ok p) :
    solve maths tolerance equation = p.solve maths tolerance := by
  rw [solve, h]

theorem solve_of_standardForm_eq_error {error : Error} (h : standardForm equation = .error error) :
    solve maths tolerance equation = ⟨.failed error, []⟩ := by
  rw [solve, h]

end Equation

end EquationRoots
