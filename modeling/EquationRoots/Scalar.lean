/-!
# Numbers that the root formulas compute with

The formulas for roots need a handful of operations: field arithmetic, comparison, absolute value
and square root. `Scalar` collects them without laws, so that one text of each formula serves
binary64 floats, where every operation rounds, and any other number type. `Elementary` holds the
three functions that a floating-point standard leaves to a library of mathematics; a solver takes
them as an argument, and `Elementary.platform` is the library at hand.

The operations `smaller`, `larger` and `clamp` follow the floating-point rules for "not a number":
such an operand is ignored by the first two and passed on by the third.
-/

set_option autoImplicit false

namespace EquationRoots

/-- A number type with the operations that the root formulas use. `ofNat` is the number nearest to a
natural number, `pi` the one nearest to the circle constant, and `isFinite` tells whether a number
is neither infinite nor "not a number". No law is assumed. -/
class Scalar (α : Type) extends Add α, Sub α, Mul α, Div α, Neg α, LT α, LE α, BEq α where
  ofNat : Nat → α
  abs : α → α
  sqrt : α → α
  pi : α
  isFinite : α → Bool
  decideLt : DecidableLT α
  decideLe : DecidableLE α

attribute [reducible, instance] Scalar.decideLt Scalar.decideLe

namespace Scalar

variable {α : Type} [Scalar α]

/-- Numerals in formulas over any number type. -/
scoped instance instOfNat (n : Nat) : OfNat α n := ⟨Scalar.ofNat n⟩

/-- Whether a number is "not a number": it differs from itself. -/
def isUndefined (x : α) : Bool := !(x == x)

/-- The smaller of two numbers; if one of them is "not a number", the other one. -/
def smaller (x y : α) : α := if y < x ∨ isUndefined x = true then y else x

/-- The larger of two numbers; if one of them is "not a number", the other one. -/
def larger (x y : α) : α := if x < y ∨ isUndefined x = true then y else x

/-- The number, moved into the interval from `low` to `high`; "not a number" stays itself. -/
def clamp (low high x : α) : α :=
  if x < low then low else if high < x then high else x

end Scalar

/-- Binary64 arithmetic, each operation rounded to the nearest float and ties to the even one. -/
instance : Scalar Float where
  ofNat := Float.ofNat
  abs := Float.abs
  sqrt := Float.sqrt
  pi := Float.ofBits 0x400921FB54442D18
  isFinite := Float.isFinite
  decideLt := Float.decLt
  decideLe := Float.decLe

/-- The functions that come from a library of mathematics: the real cube root, the cosine of an
angle in radians, and the inverse cosine. -/
structure Elementary (α : Type) where
  cbrt : α → α
  cos : α → α
  acos : α → α

/-- The functions of the platform's library of mathematics. -/
def Elementary.platform : Elementary Float := ⟨Float.cbrt, Float.cos, Float.acos⟩

end EquationRoots
