import EquationRoots.Journal
import EquationRoots.Worksheet
import EquationRoots.Main
import EquationRoots.Proofs.Equation.Spacing
import EquationRoots.Proofs.Equation.Written
import EquationRoots.Proofs.Equation.Diagnosis
import EquationRoots.Proofs.Equation.TermDiagnosis
import EquationRoots.Proofs.Equation.NormalForm
import EquationRoots.Proofs.Equation.Buckets
import EquationRoots.Proofs.Equation.RawSums
import EquationRoots.Proofs.Equation.PartialSums
import EquationRoots.Proofs.Equation.Boundaries
import EquationRoots.Proofs.Roots.Outcome
import EquationRoots.Proofs.Roots.Events
import EquationRoots.Proofs.Roots.Protocol
import EquationRoots.Proofs.Roots.Coercion
import EquationRoots.Proofs.Roots.Journal
import EquationRoots.Proofs.CommandLine.Contract
import EquationRoots.Proofs.Overflow.Solve
import EquationRoots.Proofs.Exact.Solve
import EquationRoots.Proofs.Exact.Discriminant
import EquationRoots.Proofs.Equation.Integers
import EquationRoots.Proofs.Mirror.Signs
import EquationRoots.Proofs.Mirror.Evaluation
import EquationRoots.Proofs.Residual.Solve
