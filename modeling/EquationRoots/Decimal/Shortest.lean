import EquationRoots.Decimal.Literal

/-!
# Shortest decimals

The shortest decimal of a finite float is the one with the fewest digits among those that read back
as the float, and among those of equal length the one nearest to the float's exact value.

A float's magnitude is `m · 2 ^ e` exactly (`Dyadic`). On the grid of multiples of a power of ten,
its two neighbours are found by one division of natural numbers, and each is tested by reading it.
Seventeen digits always suffice; should none of the tested decimals read back, the answer is the
exact expansion, which every dyadic number has.
-/

set_option autoImplicit false

namespace EquationRoots

/-! ## The exact value of a float -/

/-- The number `mantissa · 2 ^ exponent`. -/
structure Dyadic where
  mantissa : Nat
  exponent : Int
deriving DecidableEq, Repr

namespace Dyadic

/-- The magnitude of a finite float, read off its bits: eleven bits of exponent above fifty-two bits
of fraction, with a hidden leading bit unless the exponent field is zero. -/
def ofFloat (x : Float) : Dyadic :=
  let bits := x.toBits.toNat
  let hidden : Nat := 1 <<< 52
  let field : Nat := bits / hidden % 2048
  let fraction := bits % hidden
  if field = 0 then ⟨fraction, -1074⟩ else ⟨hidden + fraction, field - 1075⟩

/-- Numerator of the number as a fraction. -/
def numerator (v : Dyadic) : Nat := v.mantissa <<< v.exponent.toNat

/-- Denominator of the number as a fraction. -/
def denominator (v : Dyadic) : Nat := 1 <<< (-v.exponent).toNat

/-- The position of the first decimal digit: the number lies from `10 ^ (position - 1)` up to but
not including `10 ^ position`, unless it is zero. -/
def position (v : Dyadic) : Int :=
  if v.denominator ≤ v.numerator then (Nat.toDigits 10 (v.numerator / v.denominator)).length
  else 1 - (Nat.toDigits 10 ((v.denominator - 1) / v.numerator)).length

end Dyadic

/-! ## Decimals -/

/-- The number `digits · 10 ^ exponent`. -/
structure Decimal where
  digits : Nat
  exponent : Int
deriving DecidableEq, Repr

namespace Decimal

/-- The literal that writes the decimal out: without a point when the exponent is not negative, and
with as many places as needed otherwise. -/
def literal (n : Decimal) : Literal :=
  ⟨n.digits * Nat.pow 10 n.exponent.toNat, (-n.exponent).toNat⟩

/-- The same number without zeros at the end of its digits. -/
def trimmed (n : Decimal) : Decimal :=
  let zeros := ((Nat.toDigits 10 n.digits).reverse.takeWhile (· == '0')).length
  ⟨n.digits / Nat.pow 10 zeros, n.exponent + zeros⟩

/-- Whether the decimal, written out, reads back as the float. -/
def readsAs (x : Float) (n : Decimal) : Bool := n.literal.toFloat = x

/-- The two multiples of `10 ^ exponent` that enclose the number, the nearer one first; of two
equally near ones the larger comes first. -/
def neighbours (v : Dyadic) (exponent : Int) : List Decimal :=
  let numerator := v.numerator * Nat.pow 10 (-exponent).toNat
  let denominator := v.denominator * Nat.pow 10 exponent.toNat
  let below := numerator / denominator
  if 2 * (numerator % denominator) < denominator then
    [trimmed ⟨below, exponent⟩, trimmed ⟨below + 1, exponent⟩]
  else
    [trimmed ⟨below + 1, exponent⟩, trimmed ⟨below, exponent⟩]

/-- The exact decimal expansion of a dyadic number. -/
def exact (v : Dyadic) : Decimal :=
  trimmed ⟨v.numerator * Nat.pow 5 (-v.exponent).toNat, min v.exponent 0⟩

/-- The shortest decimal of a finite float that is not negative. -/
def shortest (x : Float) : Decimal :=
  let v := Dyadic.ofFloat x
  if v.mantissa = 0 then ⟨0, 0⟩
  else
    let found := (List.range 17).findSome? fun (count : Nat) =>
      (neighbours v (v.position - (count + 1 : Nat))).find? (readsAs x)
    found.getD (exact v)

end Decimal

end EquationRoots
