import EquationRoots.Solve
import EquationRoots.Text.CharacterClasses

/-!
# Inspection texts

Values are shown for inspection with their structure spelled out: a record as `Name { field: … }`,
an alternative as `Name(…)`, a list in brackets, a text in quotes with whatever is not visible
escaped, and a float in the layout `Layout.detailed`.

Which characters are escaped depends on the character classes, but no ASCII character does
(`text_eq_of_isAscii`).
-/

set_option autoImplicit false

namespace EquationRoots

namespace Inspect

open Text

/-! ## Building blocks -/

/-- A float. -/
def float (x : Float) : String := String.ofList (Layout.detailed.write x)

/-- The code of a character in hexadecimal. -/
def escapeCode (c : Char) : Text := '\\' :: 'u' :: '\x7b' :: Nat.toDigits 16 c.toNat ++ ['\x7d']

/-- A character without a short escape. It stands as it is if it is printable and does not extend a
grapheme, and is shown by its code otherwise. -/
def escapeByClass (characters : CharacterClasses) (c : Char) : Text :=
  if characters.extendsGrapheme c then escapeCode c
  else if characters.isPrintable c then [c]
  else escapeCode c

/-- A character inside quotes. Quote, backslash and the usual control characters have short
escapes. -/
def escapeChar (characters : CharacterClasses) (c : Char) : Text :=
  if c = '"' then ['\\', '"']
  else if c = '\\' then ['\\', '\\']
  else if c = '\n' then ['\\', 'n']
  else if c = '\r' then ['\\', 'r']
  else if c = '\t' then ['\\', 't']
  else if c = '\x00' then ['\\', '0']
  else escapeByClass characters c

/-- A text in quotes. -/
def text (characters : CharacterClasses) (t : Text) : String :=
  String.ofList ('"' :: t.flatMap (escapeChar characters) ++ ['"'])

theorem escapeByClass_of_isVisible (characters : CharacterClasses) {c : Char}
    (h : isVisible c = true) : escapeByClass characters c = [c] := by
  simp [escapeByClass, characters.extendsGrapheme_of_isVisible c h,
    characters.isPrintable_of_isVisible c h]

theorem escapeByClass_of_isControl (characters : CharacterClasses) {c : Char}
    (h : isControl c = true) : escapeByClass characters c = escapeCode c := by
  simp [escapeByClass, characters.isPrintable_of_isControl c h]

/-- The classes agree on the ASCII characters. -/
theorem escapeChar_eq_of_isAscii (characters characters' : CharacterClasses) {c : Char}
    (h : c.toNat < 0x80) : escapeChar characters c = escapeChar characters' c := by
  have hclass : escapeByClass characters c = escapeByClass characters' c := by
    rcases isVisible_or_isControl h with hvisible | hcontrol
    · rw [escapeByClass_of_isVisible _ hvisible, escapeByClass_of_isVisible _ hvisible]
    · rw [escapeByClass_of_isControl _ hcontrol, escapeByClass_of_isControl _ hcontrol]
  simp only [escapeChar, hclass]

theorem text_eq_of_isAscii (characters characters' : CharacterClasses) {t : Text}
    (h : ∀ c ∈ t, c.toNat < 0x80) : text characters t = text characters' t := by
  have hescape : t.map (escapeChar characters) = t.map (escapeChar characters') :=
    List.map_congr_left fun c hc => escapeChar_eq_of_isAscii _ _ (h c hc)
  rw [text, text, List.flatMap_def, List.flatMap_def, hescape]

/-- Items separated by commas. -/
def items (shown : List String) : String := String.intercalate ", " shown

/-- A list. -/
def list (shown : List String) : String := "[" ++ items shown ++ "]"

/-- A record with at least one field. -/
def record (name : String) (fields : List (String × String)) : String :=
  name ++ " \x7b " ++ items (fields.map fun field => field.1 ++ ": " ++ field.2) ++ " \x7d"

/-- An alternative that holds a value. -/
def tagged (name shown : String) : String := name ++ "(" ++ shown ++ ")"

/-- An optional value. -/
def option : Option String → String
  | none => "None"
  | some shown => tagged "Some" shown

end Inspect

open Inspect

/-! ## Polynomials and events -/

/-- A complex number for inspection. -/
def ComplexNum.inspect (z : ComplexNum Float) : String :=
  record "Complex" [("re", float z.re), ("im", float z.im)]

/-- A polynomial for inspection. -/
def Coefficients.inspect (p : Coefficients Float) : String :=
  record "Polynomial" [("a", float p.a), ("b", float p.b), ("c", float p.c), ("d", float p.d)]

/-- A degree for inspection. -/
def Degree.inspect : Degree → String
  | .linear => "Linear"
  | .quadratic => "Quadratic"
  | .cubic => "Cubic"

/-- A branch for inspection. -/
def CubicBranch.inspect : CubicBranch Float → String
  | .factoredZeroRoot => "FactoredZeroRoot"
  | .trigonometric q r => record "Trigonometric" [("q", float q), ("r", float r)]
  | .cardano q r => record "Cardano" [("q", float q), ("r", float r)]

/-- An event for inspection. -/
def Event.inspect : Event Float → String
  | .dispatched p degree =>
    record "Dispatched"
      [("polynomial", p.inspect), ("degree", option (degree.map Degree.inspect))]
  | .discriminant value => record "QuadraticDiscriminant" [("discriminant", float value)]
  | .cubic branch => record "Cubic" [("branch", branch.inspect)]
  | .coerced moved => record "Coerced" [("moved", moved.repr)]

/-! ## Errors and solutions -/

/-- A shape error for inspection. -/
def ShapeError.inspect : ShapeError → String
  | .noEqualSign => "NoEqualSign"
  | .doubleMultiplySign => "DoubleMultiplySign"
  | .doublePowerSign => "DoublePowerSign"
  | .doubleDivisionSign => "DoubleDivisionSign"
  | .doubleVariableSign => "DoubleVariableSign"
  | .multipleEqualSigns => "MultipleEqualSigns"

/-- A term error for inspection. -/
def TermError.inspect (characters : CharacterClasses) : TermError → String
  | .empty => "Empty"
  | .invalidCoefficient term => record "InvalidCoefficient" [("term", text characters term)]
  | .unsupportedExponent term => record "UnsupportedExponent" [("term", text characters term)]
  | .malformed term => record "Malformed" [("term", text characters term)]

/-- An error for inspection. -/
def Error.inspect (characters : CharacterClasses) : Error → String
  | .shape cause => tagged "Syntax" cause.inspect
  | .term cause => tagged "Term" (cause.inspect characters)
  | .missingVariable => "MissingVariable"
  | .coefficientOverflow equation =>
    record "CoefficientOverflow" [("equation", text characters equation)]

/-- A solution for inspection. -/
def Solution.inspect (s : Solution Float) (characters : CharacterClasses := .unicode15) :
    String :=
  record "Solution"
    [("real_roots", list (s.realRoots.map float)),
      ("complex_roots", list (s.complexRoots.map ComplexNum.inspect)),
      ("error", option (s.error.map (Error.inspect characters)))]

end EquationRoots
