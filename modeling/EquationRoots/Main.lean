import EquationRoots.CommandLine

/-!
# The program

Runs the command line on the arguments of the process.
-/

set_option autoImplicit false

open EquationRoots in
/-- Prints the roots of the equation in the first argument. -/
def main (args : List String) : IO UInt32 := do
  let outcome := CommandLine.run Elementary.platform (args.map String.toList)
  (← IO.getStdout).putStr (String.ofList (CommandLine.joinLines outcome.output))
  (← IO.getStderr).putStr (String.ofList (CommandLine.joinLines outcome.complaints))
  return UInt32.ofNat outcome.exitCode
