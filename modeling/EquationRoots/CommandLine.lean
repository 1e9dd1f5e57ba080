import EquationRoots.Solve

/-!
# The command line

The program takes an equation as its first argument and prints one line for each root, the real
roots first. Errors go to the error output. The exit code is one when there is no root to print.
-/

set_option autoImplicit false

namespace EquationRoots

namespace CommandLine

/-- What a run of the program leaves behind: its exit code, and the lines of the standard output and
of the error output. -/
structure Outcome where
  exitCode : Nat
  output : List Text
  complaints : List Text
deriving DecidableEq

/-- Lines as one text, each ended by a line feed. -/
def joinLines (lines : List Text) : Text := lines.flatMap (· ++ ['\n'])

/-- What is said when the equation is missing. -/
def usage : List Text :=
  ["Usage: solve <equation>".toList, "Example: solve \"x^3+x^2+3=3+x-2x^2\"".toList]

/-- A float with all its digits. -/
def number (x : Float) : Text := Layout.plain.write x

/-- What stands before a root. -/
def rootMark : Text := ['x', ' ', '=', ' ']

/-- The line of a real root. -/
def realLine (x : Float) : Text := rootMark ++ number x

/-- The sign between the parts of a complex number. -/
def imaginarySign (im : Float) : Char := if im < 0 then '-' else '+'

/-- The line of a complex root: the real part, a sign, and the magnitude of the imaginary part. -/
def complexLine (z : ComplexNum Float) : Text :=
  rootMark ++ number z.re ++ [' ', imaginarySign z.im, ' '] ++ number z.im.abs ++ ['i']

/-- The lines of a solution, one for each root. -/
def rootLines (s : Solution Float) : List Text :=
  s.realRoots.map realLine ++ s.complexRoots.map complexLine

/-- The message of the error of a solution, if there is one. -/
def errorLines (s : Solution Float) : List Text :=
  (s.error.map fun error => error.message.toList).toList

/-- What a run leaves behind that has found a solution. -/
def report (s : Solution Float) : Outcome :=
  ⟨if !s.isOk && s.isEmpty then 1 else 0, rootLines s, errorLines s⟩

/-- Runs the program. Arguments after the first are ignored. -/
def run (maths : Elementary Float) : List Text → Outcome
  | [] => ⟨1, [], usage⟩
  | equation :: _ => report (Equation.solve maths .zero equation).solution

@[simp] theorem length_rootLines (s : Solution Float) : (rootLines s).length = s.size := by
  simp [rootLines, Solution.size]

end CommandLine

end EquationRoots
