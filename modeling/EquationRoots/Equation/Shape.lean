import EquationRoots.Error

/-!
# The shape of an equation

Before its terms are looked at, an equation is checked as a whole: it has exactly one equal sign,
and none of the signs `*`, `^`, `/` and the variable is doubled. Blank characters count here, so
that `* *` is not doubled. Of several defects, the one reported is the first in the order of
`checkShape`.
-/

set_option autoImplicit false

namespace EquationRoots

namespace Equation

/-- Checks an equation as a whole. -/
def checkShape (equation : Text) : Except ShapeError Unit :=
  if '=' ∉ equation then .error .noEqualSign
  else if Text.hasDoubled '*' equation then .error .doubleMultiplySign
  else if Text.hasDoubled '^' equation then .error .doublePowerSign
  else if Text.hasDoubled '/' equation then .error .doubleDivisionSign
  else if Text.hasDoubled 'x' equation then .error .doubleVariableSign
  else if 1 < equation.count '=' then .error .multipleEqualSigns
  else .ok ()

/-- The check passes exactly when no defect is present. -/
theorem checkShape_eq_ok_iff (equation : Text) :
    checkShape equation = .ok () ↔
      equation.count '=' = 1 ∧
        ∀ sign ∈ ['*', '^', '/', 'x'], Text.hasDoubled sign equation = false := by
  by_cases hmem : '=' ∈ equation
  · simp only [checkShape, List.forall_mem_cons, List.not_mem_nil, false_implies, implies_true,
      and_true, not_true_eq_false, hmem, if_false]
    repeat' split
    all_goals simp_all
    all_goals
      have hpos := List.count_pos_iff.2 hmem
      omega
  · simp [checkShape, hmem, List.count_eq_zero_of_not_mem hmem]

end Equation

end EquationRoots
