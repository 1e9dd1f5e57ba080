import EquationRoots.Error
import EquationRoots.Decimal.Layout

/-!
# Terms

A term is a sign, a coefficient and a power of the variable from zero to three: `-3x^2`, `+4`,
`2.5*x`. This module reads a term from its text and writes it.

- `Term.read` accepts an optional sign, then either a decimal literal, or an optional literal with
  an optional multiplication sign, the variable, and an optional power `^1`, `^2` or `^3`.
- `Term.write` always writes the sign and leaves a coefficient of one out before the variable.
- `Term.value` is the coefficient with its sign applied.
-/

set_option autoImplicit false

namespace EquationRoots

/-- The sign of a term. -/
inductive Sign where
  | positive
  | negative
deriving DecidableEq, Repr

namespace Sign

/-- The other sign. -/
def flip : Sign → Sign
  | .positive => .negative
  | .negative => .positive

/-- The sign as it is written. -/
def symbol : Sign → Char
  | .positive => '+'
  | .negative => '-'

/-- The number with the sign put in front. -/
def apply (sign : Sign) (x : Float) : Float :=
  match sign with
  | .positive => x
  | .negative => -x

@[simp] theorem flip_flip (sign : Sign) : sign.flip.flip = sign := by cases sign <;> rfl

@[simp] theorem apply_positive (x : Float) : Sign.positive.apply x = x := rfl

@[simp] theorem apply_negative (x : Float) : Sign.negative.apply x = -x := rfl

end Sign

/-- The power of the variable in a term. -/
inductive Exponent where
  | zero
  | one
  | two
  | three
deriving DecidableEq, Repr

namespace Exponent

/-- The power as a number. -/
def toNat : Exponent → Nat
  | .zero => 0
  | .one => 1
  | .two => 2
  | .three => 3

/-- The variable raised to the power, as it is written: nothing at all for a constant. -/
def write : Exponent → Text
  | .zero => []
  | .one => ['x']
  | .two => ['x', '^', '2']
  | .three => ['x', '^', '3']

end Exponent

/-- A signed term: its sign, its coefficient and the power of the variable. The coefficient of a
term read from text is never negative; the sign stands apart. -/
structure Term where
  sign : Sign
  coefficient : Float
  exponent : Exponent
deriving DecidableEq

namespace Term

/-- The coefficient with the sign applied. -/
def value (t : Term) : Float := t.sign.apply t.coefficient

/-- Whether the term contains the variable. -/
def isVariable (t : Term) : Bool := t.exponent != .zero

/-- The term with the other sign. -/
def negated (t : Term) : Term := { t with sign := t.sign.flip }

@[simp] theorem sign_negated (t : Term) : t.negated.sign = t.sign.flip := rfl

@[simp] theorem coefficient_negated (t : Term) : t.negated.coefficient = t.coefficient := rfl

@[simp] theorem exponent_negated (t : Term) : t.negated.exponent = t.exponent := rfl

@[simp] theorem isVariable_negated (t : Term) : t.negated.isVariable = t.isVariable := rfl

@[simp] theorem negated_negated (t : Term) : t.negated.negated = t := by
  cases t; simp [negated]

/-! ## Reading -/

/-- The finite float that a decimal literal stands for; `none` if the text is no literal, or one
too large for a finite float. -/
def magnitude? (text : Text) : Option Float :=
  (Literal.ofText? text).bind fun l => if l.toFloat.isFinite then some l.toFloat else none

/-- Reads a literal that stands in the term `raw`. -/
def readMagnitude (raw text : Text) : Except TermError Float :=
  match magnitude? text with
  | some x => .ok x
  | none => .error (.invalidCoefficient raw)

/-- The text without a multiplication sign at its end, if it has one. -/
def withoutStar (text : Text) : Text :=
  if text.getLast? = some '*' then text.dropLast else text

/-- Reads what stands before the variable in the term `raw`: nothing, which counts as one, or a
literal and possibly a multiplication sign. -/
def readCoefficient (raw text : Text) : Except TermError Float :=
  if text = [] then .ok 1
  else if withoutStar text = [] then .error (.malformed raw)
  else readMagnitude raw (withoutStar text)

/-- Reads what stands after the variable in the term `raw`: nothing, which counts as the first
power, or a power sign and a number. -/
def readPower (raw : Text) : Text → Except TermError Exponent
  | [] => .ok .one
  | '^' :: power =>
    if power = ['1'] then .ok .one
    else if power = ['2'] then .ok .two
    else if power = ['3'] then .ok .three
    else if power ≠ [] ∧ power.all Char.isDigit = true then .error (.unsupportedExponent raw)
    else .error (.malformed raw)
  | _ => .error (.malformed raw)

/-- Reads what follows the sign in the term `raw`. -/
def readBody (raw : Text) (sign : Sign) (body : Text) : Except TermError Term :=
  if body = [] then .error (.malformed raw)
  else match Text.cutAt 'x' body with
    | (_, none) => do
      let x ← readMagnitude raw body
      return ⟨sign, x, .zero⟩
    | (before, some after) => do
      let x ← readCoefficient raw before
      let n ← readPower raw after
      return ⟨sign, x, n⟩

/-- Splits a sign off the front of a text; a text without one counts as positive. -/
def splitSign : Text → Sign × Text
  | '+' :: body => (.positive, body)
  | '-' :: body => (.negative, body)
  | body => (.positive, body)

/-- Reads a term. -/
def read (raw : Text) : Except TermError Term :=
  if raw = [] then .error .empty
  else readBody raw (splitSign raw).1 (splitSign raw).2

/-! ## Writing -/

/-- Whether the coefficient is left out when the term is written: it is one, and the variable
follows. -/
def isCoefficientSilent (t : Term) : Bool := t.isVariable && t.coefficient == 1

/-- Writes the term, with its sign, and without a coefficient of one before the variable. -/
def write (t : Term) : Text :=
  let coefficient := if t.isCoefficientSilent then [] else Layout.plain.write t.coefficient
  t.sign.symbol :: coefficient ++ t.exponent.write

end Term

end EquationRoots
