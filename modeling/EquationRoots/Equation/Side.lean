import EquationRoots.Term

/-!
# The sides of an equation

An equation is solved in the form `P(x) = 0`, so that a term keeps its sign on the left-hand side
and takes the other sign on the right-hand side.
-/

set_option autoImplicit false

namespace EquationRoots

/-- A side of an equation. -/
inductive Side where
  | left
  | right
deriving DecidableEq, Repr

/-- The term as it counts when everything stands on the left-hand side. -/
def Term.balanced (t : Term) : Side → Term
  | .left => t
  | .right => t.negated

namespace Term

@[simp] theorem balanced_left (t : Term) : t.balanced .left = t := rfl

@[simp] theorem balanced_right (t : Term) : t.balanced .right = t.negated := rfl

@[simp] theorem coefficient_balanced (t : Term) (side : Side) :
    (t.balanced side).coefficient = t.coefficient := by cases side <;> rfl

@[simp] theorem exponent_balanced (t : Term) (side : Side) :
    (t.balanced side).exponent = t.exponent := by cases side <;> rfl

@[simp] theorem isVariable_balanced (t : Term) (side : Side) :
    (t.balanced side).isVariable = t.isVariable := by cases side <;> rfl

end Term

end EquationRoots
