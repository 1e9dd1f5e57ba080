import EquationRoots.Solve

/-!
# Worksheets

A worksheet keeps what a user works on over several commands: the tolerance, a recorder of events, a
pool of terms, a polynomial and a solution. `Worksheet.step` carries out one command and answers
with a reply. A refused command leaves the worksheet as it was; an equation that cannot be solved is
no refusal, since its solution carries the error.
-/

set_option autoImplicit false

namespace EquationRoots

/-- What a user works on: the tolerance for solving, the events of all solving so far, the terms
collected for the next polynomial, the current polynomial and the current solution. -/
structure Worksheet where
  tolerance : Tolerance Float
  recorder : Recorder Float
  pool : List Term
  polynomial : Coefficients Float
  solution : Solution Float

/-- What a user can ask for. `configure` sets the tolerance, to zero if no bound is given. `push`
reads a term and puts it into the pool, balanced for a side; `move` takes all terms of the pool to
the other side, and `collect` makes them a polynomial and empties the pool. `parse` makes the
standard form of an equation the polynomial, `set` gives one and `negate` negates it. `solve` solves
the polynomial, `solveText` an equation while the polynomial stays. `coerce` coerces the solution
within a bound, which is not checked, and `fail` replaces it by a failure. `residuals` evaluates the
polynomial at the roots of the solution. `events` shows the recorded events, and `drain` takes them
out of the recorder. -/
inductive Command where
  | configure (bound : Option Float)
  | push (raw : Text) (side : Side)
  | move
  | collect
  | parse (equation : Text)
  | set (p : Coefficients Float)
  | negate
  | solve
  | solveText (equation : Text)
  | coerce (bound : Float)
  | fail
  | residuals
  | events
  | drain

/-- Why a command was refused. -/
inductive Refusal where
  | tolerance (error : ToleranceError)
  | term (error : TermError)
  | equation (error : Error)
deriving DecidableEq

/-- The answer to a command: the tolerance that was set, the terms of the pool, the current
polynomial, a solution just found with the number of events recorded, the current solution, the
values of the polynomial at the real and at the complex roots, the recorded events, the events taken
out with the number of those that remain, or the reason why the command was not carried out. -/
inductive Reply where
  | tolerance (tolerance : Tolerance Float)
  | pool (terms : List Term)
  | polynomial (p : Coefficients Float)
  | solved (solution : Solution Float) (recorded : Nat)
  | solution (solution : Solution Float)
  | residuals (real : List Float) (complex : List (ComplexNum Float))
  | events (events : List (Event Float))
  | drained (events : List (Event Float)) (remaining : Nat)
  | refused (reason : Refusal)

namespace Worksheet

/-- A worksheet on which nothing has been done. -/
def blank : Worksheet := ⟨.zero, .empty, [], ⟨0, 0, 0, 0⟩, .empty⟩

/-- The worksheet with the solution and the events of a report. -/
def take (w : Worksheet) (report : Report Float) : Worksheet :=
  { w with solution := report.solution, recorder := w.recorder.observeAll report.events }

/-- The reply that shows the solution just found. -/
def solvedReply (w : Worksheet) : Reply := .solved w.solution w.recorder.size

/-- Carries out a command. -/
def step (maths : Elementary Float) (w : Worksheet) : Command → Worksheet × Reply
  | .configure bound =>
    match Tolerance.ofOption bound with
    | .ok tolerance => ({ w with tolerance := tolerance }, .tolerance tolerance)
    | .error error => (w, .refused (.tolerance error))
  | .push raw side =>
    match Term.read raw with
    | .ok term =>
      let pool := w.pool ++ [term.balanced side]
      ({ w with pool := pool }, .pool pool)
    | .error error => (w, .refused (.term error))
  | .move =>
    let pool := w.pool.map (·.balanced .right)
    ({ w with pool := pool }, .pool pool)
  | .collect =>
    let p := (Classified.ofTerms w.pool).coefficients
    ({ w with pool := [], polynomial := p }, .polynomial p)
  | .parse equation =>
    match Equation.standardForm equation with
    | .ok p => ({ w with polynomial := p }, .polynomial p)
    | .error error => (w, .refused (.equation error))
  | .set p => ({ w with polynomial := p }, .polynomial p)
  | .negate =>
    let p := w.polynomial.negated
    ({ w with polynomial := p }, .polynomial p)
  | .solve =>
    let after := w.take (w.polynomial.solve maths w.tolerance)
    (after, after.solvedReply)
  | .solveText equation =>
    let after := w.take (Equation.solve maths w.tolerance equation)
    (after, after.solvedReply)
  | .coerce bound =>
    let solution := w.solution.coerce bound
    ({ w with solution := solution }, .solution solution)
  | .fail =>
    let solution := .failed .missingVariable
    ({ w with solution := solution }, .solution solution)
  | .residuals =>
    (w, .residuals (w.solution.realRoots.map w.polynomial.eval)
      (w.solution.complexRoots.map w.polynomial.evalComplex))
  | .events => (w, .events w.recorder.events)
  | .drain =>
    let after := { w with recorder := .empty }
    (after, .drained w.recorder.events after.recorder.size)

/-- Carries out commands one after the other: the worksheet after them, and their replies. -/
def run (maths : Elementary Float) (w : Worksheet) : List Command → Worksheet × List Reply
  | [] => (w, [])
  | command :: rest =>
    let (after, reply) := w.step maths command
    let (last, replies) := after.run maths rest
    (last, reply :: replies)

end Worksheet

end EquationRoots
