import EquationRoots.Text

/-!
# Segments of an equation

An equation is cut into segments: the terms with their signs, and the equal sign alone. The blank
characters go first. Then a delimiter is written before each sign and each equal sign, except at
the very front, and after each equal sign; the segments are the pieces between delimiters that are
not empty. A delimiter that stands in the equation itself cuts as well.
-/

set_option autoImplicit false

namespace EquationRoots

namespace Equation

/-- The character that separates segments. -/
def delimiter : Char := ';'

/-- The segment that stands between the two sides of an equation. -/
def equalsMark : Text := ['=']

/-- Whether a segment starts at the character. -/
def startsSegment (c : Char) : Bool := c == '+' || c == '-' || c == '='

/-- A character, and a delimiter behind it if a segment ends there. -/
def closeSegment (c : Char) : Text := if c = '=' then [c, delimiter] else [c]

/-- A character that is not the first, with a delimiter wherever a segment starts or ends. -/
def delimitChar (c : Char) : Text :=
  if startsSegment c then delimiter :: closeSegment c else closeSegment c

/-- The equation without blank characters, with delimiters at the boundaries of its segments. -/
def delimit (equation : Text) : Text :=
  match Text.withoutBlanks equation with
  | [] => []
  | first :: rest => closeSegment first ++ rest.flatMap delimitChar

/-- The segments of the equation, in order. -/
def segments (equation : Text) : List Text :=
  (Text.split delimiter (delimit equation)).filter (· ≠ [])

@[simp] theorem segments_nil : segments [] = [] := rfl

/-- No segment is empty. -/
theorem ne_nil_of_mem_segments {equation segment : Text} (h : segment ∈ segments equation) :
    segment ≠ [] := by
  simpa using (List.mem_filter.1 h).2

/-- Blank characters do not matter to the segments. -/
@[simp] theorem segments_withoutBlanks (equation : Text) :
    segments (Text.withoutBlanks equation) = segments equation := by
  simp [segments, delimit]

end Equation

end EquationRoots
