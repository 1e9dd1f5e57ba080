import EquationRoots.Text

/-!
# Why an equation has no roots to show

Errors are causes: `ShapeError` for an equation as a whole, `TermError` for one of its terms, and
`Error` for everything that can keep an equation or a polynomial from being solved. Each has one
message, and an error about a text carries that text unchanged.
-/

set_option autoImplicit false

namespace EquationRoots

/-- What is wrong with an equation as a whole: it has no equal sign, or more than one, or it has two
signs of one kind, or two variables, in a row. -/
inductive ShapeError where
  | noEqualSign
  | doubleMultiplySign
  | doublePowerSign
  | doubleDivisionSign
  | doubleVariableSign
  | multipleEqualSigns
deriving DecidableEq, Repr

/-- The message of a shape error. -/
def ShapeError.message : ShapeError → String
  | .noEqualSign => "Error: No equal sign detected."
  | .doubleMultiplySign => "Error: Double multiply sign detected."
  | .doublePowerSign => "Error: Double power sign detected."
  | .doubleDivisionSign => "Error: Double division sign detected."
  | .doubleVariableSign => "Error: Double variable sign detected."
  | .multipleEqualSigns => "Error: Multiple equal signs detected."

/-- What is wrong with a term. Its text is empty; or its coefficient is not a decimal literal, or
one too large for a finite float; or its exponent is a number other than 1, 2 and 3; or it has some
other defect. All but the first carry the whole text of the term. -/
inductive TermError where
  | empty
  | invalidCoefficient (term : Text)
  | unsupportedExponent (term : Text)
  | malformed (term : Text)
deriving DecidableEq, Repr

/-- A message about a text: what is the case, then the text in backquotes. -/
def quoting (what : String) (text : Text) : String :=
  what ++ " `" ++ String.ofList text ++ "`"

/-- The message of a term error. -/
def TermError.message : TermError → String
  | .empty => "empty term"
  | .invalidCoefficient term => quoting "invalid coefficient in term" term
  | .unsupportedExponent term => quoting "unsupported exponent in term" term
  | .malformed term => quoting "malformed term" term

/-- Why an equation or a polynomial could not be solved. The equation as a whole, or one of its
terms, is not one; no power of the variable has a coefficient other than zero; or the coefficients
of like terms add up to no finite float. -/
inductive Error where
  | shape (cause : ShapeError)
  | term (cause : TermError)
  | missingVariable
  | coefficientOverflow (equation : Text)
deriving DecidableEq, Repr

/-- The message of an error; a shape or term error speaks for itself. -/
def Error.message : Error → String
  | .shape cause => cause.message
  | .term cause => cause.message
  | .missingVariable => "Missing variable error."
  | .coefficientOverflow equation => quoting "coefficient overflow in equation" equation

end EquationRoots
