import EquationRoots.Text

/-!
# Decimal literals

A decimal literal is a run of digits with at most one point and at least one digit, such as `12`,
`2.50`, `.5` or `5.`. This module reads and writes literals and gives the binary64 float that a
literal stands for.

- `Literal.ofText?` reads a literal; it accepts no sign, no exponent and no other character.
- `Literal.write` writes one with at least one digit before the point.
- `Literal.ofText?_write`: what is written is read back.
- `Literal.toFloat` is the float nearest to the literal's exact value, ties to the even one, for
  literals of any length.
-/

set_option autoImplicit false

namespace EquationRoots

/-- An unsigned decimal number: all its digits, read without the point as one natural number, and
how many of them stand after the point. -/
structure Literal where
  mantissa : Nat
  places : Nat
deriving DecidableEq, Repr

namespace Literal

/-- The binary64 float nearest to the literal, ties to the even one; infinite when the literal lies
beyond the largest finite float by half a unit or more. -/
def toFloat (l : Literal) : Float :=
  Float.ofModel (Float.Model.ofScientific l.mantissa (-(l.places : Int)))

/-! ## Reading -/

/-- The literal with the given digits before and after the point. -/
def ofDigits (whole fraction : Text) : Literal :=
  ⟨Nat.ofDigitChars 10 (whole ++ fraction) 0, fraction.length⟩

/-- Whether the two texts are the digits before and after the point of some literal: digits only,
and not both empty. -/
def areDigits (whole fraction : Text) : Bool :=
  (whole ++ fraction).all Char.isDigit && !(whole ++ fraction).isEmpty

/-- Reads a literal; `none` if the text is not one. -/
def ofText? (text : Text) : Option Literal :=
  let (whole, rest) := Text.cutAt '.' text
  let fraction := rest.getD []
  if areDigits whole fraction then some (ofDigits whole fraction) else none

@[simp] theorem ofText?_nil : ofText? [] = none := rfl

/-! ## Writing -/

/-- The digits of the literal, with zeros in front where the number is too short for its point. -/
def digits (l : Literal) : Text :=
  let shown := Nat.toDigits 10 l.mantissa
  List.replicate (l.places + 1 - shown.length) '0' ++ shown

/-- The digits before the point. -/
def wholeDigits (l : Literal) : Text := l.digits.take (l.digits.length - l.places)

/-- The digits after the point. -/
def fractionDigits (l : Literal) : Text := l.digits.drop (l.digits.length - l.places)

/-- Writes the literal with at least one digit before the point, and without a point when no digit
would follow it. -/
def write (l : Literal) : Text :=
  if l.places = 0 then l.wholeDigits else l.wholeDigits ++ '.' :: l.fractionDigits

/-! ## Reading back -/

theorem isDigit_of_mem_digits {l : Literal} {c : Char} (h : c ∈ l.digits) : c.isDigit = true := by
  rcases List.mem_append.1 h with h | h
  · rw [(List.mem_replicate.1 h).2]; rfl
  · exact Nat.isDigit_of_mem_toDigits (by decide) (by decide) h

theorem places_lt_length_digits (l : Literal) : l.places < l.digits.length := by
  simp only [digits, List.length_append, List.length_replicate]
  omega

@[simp] theorem wholeDigits_append_fractionDigits (l : Literal) :
    l.wholeDigits ++ l.fractionDigits = l.digits := List.take_append_drop _ _

@[simp] theorem length_fractionDigits (l : Literal) : l.fractionDigits.length = l.places := by
  have := l.places_lt_length_digits
  simp only [fractionDigits, List.length_drop]
  omega

@[simp] theorem ofDigitChars_digits (l : Literal) :
    Nat.ofDigitChars 10 l.digits 0 = l.mantissa := by
  rw [digits, Nat.ofDigitChars_append, Nat.ofDigitChars_replicate_zero, Nat.mul_zero,
    Nat.ofDigitChars_ten_toDigits]

theorem areDigits_written (l : Literal) : areDigits l.wholeDigits l.fractionDigits = true := by
  have hne : l.digits ≠ [] :=
    List.ne_nil_of_length_pos (Nat.zero_lt_of_lt l.places_lt_length_digits)
  simp only [areDigits, wholeDigits_append_fractionDigits, Bool.and_eq_true, List.all_eq_true,
    Bool.not_eq_true', List.isEmpty_eq_false_iff]
  exact ⟨fun c hc => isDigit_of_mem_digits hc, hne⟩

theorem ofDigits_written (l : Literal) : ofDigits l.wholeDigits l.fractionDigits = l := by
  simp [ofDigits]

theorem point_not_mem_wholeDigits (l : Literal) : '.' ∉ l.wholeDigits := fun h =>
  absurd (isDigit_of_mem_digits (List.mem_of_mem_take h)) (by decide)

/-- A written literal is read back, with the same digits after the point. -/
theorem ofText?_write (l : Literal) : ofText? l.write = some l := by
  have hd := l.areDigits_written
  have ho := l.ofDigits_written
  by_cases hp : l.places = 0
  · have hf : l.fractionDigits = [] := List.eq_nil_of_length_eq_zero (by simp [hp])
    rw [hf] at hd ho
    simp [ofText?, write, hp, Text.cutAt_of_not_mem l.point_not_mem_wholeDigits, hd, ho]
  · simp [ofText?, write, hp, Text.cutAt_append l.point_not_mem_wholeDigits, hd, ho]

/-- A written literal consists of digits and points. -/
theorem mem_write {l : Literal} {c : Char} (h : c ∈ l.write) : c.isDigit = true ∨ c = '.' := by
  have hw : ∀ c ∈ l.wholeDigits, c.isDigit = true := fun _ hc =>
    isDigit_of_mem_digits (List.mem_of_mem_take hc)
  have hf : ∀ c ∈ l.fractionDigits, c.isDigit = true := fun _ hc =>
    isDigit_of_mem_digits (List.mem_of_mem_drop hc)
  unfold write at h
  split at h
  · exact Or.inl (hw c h)
  · simp only [List.mem_append, List.mem_cons] at h
    rcases h with h | h | h
    · exact Or.inl (hw c h)
    · exact Or.inr h
    · exact Or.inl (hf c h)

end Literal

end EquationRoots
