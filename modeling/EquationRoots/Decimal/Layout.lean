import EquationRoots.Decimal.Shortest

/-!
# Layouts of floats

How the shortest decimal of a float is set out as text. Every layout writes a minus sign for a set
sign bit, `inf` for an infinity and `NaN`, unsigned, for "not a number". Layouts differ in two
decisions: what follows a whole number, and which magnitudes are written with an exponent.

- `Layout.plain` writes all digits out: `2`, `0.1`, `-0`, `100000000000000000000000`.
- `Layout.detailed` marks a whole number by `.0` and uses an exponent from `1e16` on and below
  `1e-4`: `2.0`, `-0.0`, `1e23`, `1.5e-7`.
-/

set_option autoImplicit false

namespace EquationRoots

/-- The decisions that a way of writing floats takes. `wholeMark` follows the digits of a whole
number. `positional` gives the powers of ten of a first digit for which the number is written
without an exponent, the lower bound included and the upper one not; it is `none` when that is every
power. -/
structure Layout where
  wholeMark : Text
  positional : Option (Int × Int)

namespace Layout

/-- All digits written out, whole numbers without a mark. -/
def plain : Layout := ⟨[], none⟩

/-- Whole numbers marked by `.0`; an exponent from `1e16` on and below `1e-4`. -/
def detailed : Layout := ⟨['.', '0'], some (-4, 16)⟩

/-- Whether the decimal is written without an exponent, given the power of ten of its first
digit. -/
def isPositional (layout : Layout) (power : Int) : Bool :=
  match layout.positional with
  | none => true
  | some (low, high) => low ≤ power && power < high

/-- The decimal written out, with the mark of a whole number where no digit follows the point. -/
def writePositional (layout : Layout) (n : Decimal) : Text :=
  if n.literal.places = 0 then n.literal.write ++ layout.wholeMark else n.literal.write

/-- An integer in digits, with a minus sign when it is negative. -/
def writeInt (n : Int) : Text :=
  if n < 0 then '-' :: Nat.toDigits 10 n.natAbs else Nat.toDigits 10 n.natAbs

/-- The digits of a decimal with a point after the first one, then `e` and the power of ten of that
first digit. -/
def writeScientific (digits : Text) (power : Int) : Text :=
  let fraction := match digits.drop 1 with
    | [] => []
    | rest => '.' :: rest
  digits.take 1 ++ fraction ++ 'e' :: writeInt power

/-- A decimal in the layout. -/
def writeDecimal (layout : Layout) (n : Decimal) : Text :=
  let digits := Nat.toDigits 10 n.digits
  let power := digits.length - 1 + n.exponent
  if n.digits = 0 ∨ layout.isPositional power = true then layout.writePositional n
  else writeScientific digits power

/-- Whether the sign bit of the float is set. -/
def isSigned (x : Float) : Bool := 1 <<< 63 ≤ x.toBits.toNat

/-- A float in the layout. -/
def write (layout : Layout) (x : Float) : Text :=
  if x.isNaN then ['N', 'a', 'N']
  else
    let magnitude :=
      if x.isFinite then layout.writeDecimal (Decimal.shortest x.abs) else ['i', 'n', 'f']
    if isSigned x then '-' :: magnitude else magnitude

end Layout

end EquationRoots
