import EquationRoots.Scalar

/-!
# Tolerance

The tolerance is the largest imaginary part, in magnitude, for which a root still counts as real. It
is finite and not negative, and both facts are part of the type.
-/

set_option autoImplicit false

namespace EquationRoots

open scoped Scalar

/-- The largest magnitude of an imaginary part that counts as zero. It is finite and not
negative. -/
structure Tolerance (α : Type) [Scalar α] where
  bound : α
  isFinite_bound : Scalar.isFinite bound = true
  not_bound_lt : ¬ bound < 0

/-- Why a number is no tolerance: it is negative, infinite or "not a number". -/
inductive ToleranceError where
  | outOfRange
deriving DecidableEq, Repr

/-- The message of a tolerance error. -/
def ToleranceError.message : ToleranceError → String
  | .outOfRange => "imag_tol must be finite and non-negative"

namespace Tolerance

variable {α : Type} [Scalar α]

/-- The tolerance with the given bound, if it is finite and not negative. -/
def ofBound (bound : α) : Except ToleranceError (Tolerance α) :=
  if hf : Scalar.isFinite bound = true then
    if hn : bound < 0 then .error .outOfRange else .ok ⟨bound, hf, hn⟩
  else .error .outOfRange

/-- The tolerance for which only an imaginary part of zero counts as zero. -/
def zero : Tolerance Float := ⟨0, by decide, by decide⟩

/-- The tolerance with the given bound, or `zero` when none is given. -/
def ofOption : Option Float → Except ToleranceError (Tolerance Float)
  | none => .ok zero
  | some bound => ofBound bound

end Tolerance

end EquationRoots
