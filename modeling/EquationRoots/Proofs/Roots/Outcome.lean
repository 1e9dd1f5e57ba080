import Mathlib.Logic.ExistsUnique
import EquationRoots.Solve

/-!
# Three outcomes

A call ends in exactly one of three ways (`Outcome`), which its report tells apart by the error:

- the text is refused, with an error about the text, no root and no event;
- the polynomial has no variable, and the root zero stands in;
- the polynomial is solved, with as many roots as its degree says.

Which of them it is depends on the polynomial alone. Neither the tolerance nor the library of
mathematics matters, nor whether the coefficients are finite.
-/

set_option autoImplicit false

namespace EquationRoots

open scoped Scalar

/-- The error is about a text, and no polynomial was looked at. -/
def Error.IsAboutText : Error → Prop
  | .shape _ | .term _ | .coefficientOverflow _ => True
  | .missingVariable => False

namespace Report

/-- An error about the text, no root and no decision. -/
structure IsRefusal (r : Report Float) : Prop where
  error : ∃ error, r.solution.error = some error ∧ error.IsAboutText
  realRoots : r.solution.realRoots = []
  complexRoots : r.solution.complexRoots = []
  events : r.events = []

/-- The root zero in place of the roots of a polynomial without the variable. The only decision is
that the polynomial has no degree. -/
structure IsPlaceholder (p : Coefficients Float) (r : Report Float) : Prop where
  error : r.solution.error = some .missingVariable
  realRoots : r.solution.realRoots = [0]
  complexRoots : r.solution.complexRoots = []
  events : r.events = [.dispatched p none]

/-- As many roots as the degree of the polynomial says, and no error. -/
structure HasAllRoots (p : Coefficients Float) (r : Report Float) : Prop where
  error : r.solution.error = none
  size : ∃ degree, p.degree? = some degree ∧
    r.solution.realRoots.length + r.solution.complexRoots.length = degree.power

end Report

/-- How a call can end: the text is refused, the polynomial has no variable, or the polynomial is
solved. -/
inductive Outcome where
  | refused
  | withoutVariable
  | solved
deriving DecidableEq, Repr

namespace Outcome

/-- The report is one for the outcome, given the polynomial or the error that parsing yields. -/
def Describes (parsed : Except Error (Coefficients Float)) (r : Report Float) : Outcome → Prop
  | refused => r.IsRefusal
  | withoutVariable => ∃ p, parsed = .ok p ∧ r.IsPlaceholder p
  | solved => ∃ p, parsed = .ok p ∧ r.HasAllRoots p

/-- The outcome that the error of a solution shows. -/
def ofError : Option Error → Outcome
  | none => solved
  | some .missingVariable => withoutVariable
  | some (.shape _) | some (.term _) | some (.coefficientOverflow _) => refused

/-- A report shows its outcome by its error. -/
theorem eq_ofError {parsed : Except Error (Coefficients Float)} {r : Report Float}
    {outcome : Outcome} (h : outcome.Describes parsed r) : outcome = ofError r.solution.error := by
  cases outcome with
  | refused =>
    obtain ⟨error, herror, habout⟩ := h.error
    rw [herror]
    cases error with
    | missingVariable => exact habout.elim
    | _ => rfl
  | withoutVariable =>
    obtain ⟨p, -, hr⟩ := h
    rw [hr.error]
    rfl
  | solved =>
    obtain ⟨p, -, hr⟩ := h
    rw [hr.error]
    rfl

/-- A report has one outcome. -/
theorem describes_iff_eq {parsed : Except Error (Coefficients Float)} {r : Report Float}
    {outcome : Outcome} (h : outcome.Describes parsed r) (other : Outcome) :
    other.Describes parsed r ↔ other = outcome := by
  constructor
  · intro hother
    rw [eq_ofError hother, eq_ofError h]
  · rintro rfl
    exact h

end Outcome

/-! ## Polynomials -/

namespace Coefficients

/-- No degree means no coefficient of the variable. -/
theorem degree?_eq_none_iff {α : Type} [Scalar α] (p : Coefficients α) :
    p.degree? = none ↔ (p.a == 0) = true ∧ (p.b == 0) = true ∧ (p.c == 0) = true := by
  unfold degree?
  cases ha : p.a == 0 with
  | false => simp [bne, ha]
  | true =>
    cases hb : p.b == 0 with
    | false => simp [bne, ha, hb]
    | true => cases hc : p.c == 0 <;> simp [bne, ha, hb, hc]

variable (maths : Elementary Float) (tolerance : Tolerance Float) (p : Coefficients Float)

/-- The outcome for a polynomial. -/
def outcome : Outcome := if p.degree? = none then .withoutVariable else .solved

theorem outcome_eq_withoutVariable_iff :
    p.outcome = .withoutVariable ↔ (p.a == 0) = true ∧ (p.b == 0) = true ∧ (p.c == 0) = true := by
  refine Iff.trans ?_ (degree?_eq_none_iff p)
  rw [outcome]
  split <;> simp_all

theorem outcome_ne_refused : p.outcome ≠ .refused := by
  rw [outcome]
  split <;> simp

/-- A polynomial is solved or has no variable. -/
theorem describes_outcome : p.outcome.Describes (.ok p) (p.solve maths tolerance) := by
  rw [outcome]
  cases hdegree : p.degree? with
  | none =>
    rw [solve_of_degree?_eq_none hdegree]
    exact ⟨p, rfl, rfl, rfl, rfl, rfl⟩
  | some degree =>
    refine ⟨p, rfl, ?_, degree, hdegree, size_solve maths tolerance p hdegree⟩
    rw [solution_solve hdegree, Solution.error_coerce, error_rootsByDegree]

end Coefficients

/-! ## Equations -/

namespace Equation

/-- A text without a standard form has a defect. -/
theorem isAboutText_of_standardForm {equation : Text} {error : Error}
    (h : standardForm equation = .error error) : error.IsAboutText := by
  obtain ⟨cause, -, hform⟩ | ⟨cause, -, -, hform⟩ | ⟨terms, -, -, hform⟩ :=
    standardForm_cases equation
  · rw [hform] at h
    cases h
    trivial
  · rw [hform] at h
    cases h
    trivial
  · rw [hform] at h
    obtain ⟨-, hok⟩ | ⟨-, herror⟩ :=
      finiteOnly_cases equation (Classified.ofTerms terms).coefficients
    · rw [hok] at h
      cases h
    · rw [herror] at h
      cases h
      trivial

/-- The outcome for an equation. -/
def outcome (equation : Text) : Outcome :=
  match standardForm equation with
  | .ok p => p.outcome
  | .error _ => .refused

variable (maths : Elementary Float) (tolerance : Tolerance Float)

/-- An equation is refused, or it ends as its polynomial does. -/
theorem describes_outcome (equation : Text) :
    (outcome equation).Describes (standardForm equation) (solve maths tolerance equation) := by
  rw [outcome]
  cases hform : standardForm equation with
  | ok p =>
    rw [solve_of_standardForm_eq_ok hform]
    exact p.describes_outcome maths tolerance
  | error error =>
    rw [solve_of_standardForm_eq_error hform]
    exact ⟨⟨error, rfl, isAboutText_of_standardForm hform⟩, rfl, rfl, rfl⟩

theorem outcome_eq_withoutVariable_iff (equation : Text) :
    outcome equation = .withoutVariable ↔ ∃ p, standardForm equation = .ok p ∧
      (p.a == 0) = true ∧ (p.b == 0) = true ∧ (p.c == 0) = true := by
  rw [outcome]
  cases standardForm equation with
  | ok p =>
    rw [p.outcome_eq_withoutVariable_iff]
    simp
  | error error => simp

/-- Every call ends in exactly one of three outcomes. An equation is refused, has no variable or
is solved; that it has no variable means that its polynomial was found and has no coefficient but
the constant one other than zero. A polynomial that is given directly, whatever its coefficients,
is never refused. -/
theorem solve_existsUnique_outcome :
    (∀ equation,
      (∃! outcome : Outcome,
        outcome.Describes (standardForm equation) (solve maths tolerance equation)) ∧
      (Outcome.withoutVariable.Describes (standardForm equation)
          (solve maths tolerance equation) ↔
        ∃ p, standardForm equation = .ok p ∧
          (p.a == 0) = true ∧ (p.b == 0) = true ∧ (p.c == 0) = true)) ∧
    ∀ p : Coefficients Float,
      (∃! outcome : Outcome, outcome.Describes (.ok p) (p.solve maths tolerance)) ∧
      ¬ Outcome.refused.Describes (.ok p) (p.solve maths tolerance) ∧
      (Outcome.withoutVariable.Describes (.ok p) (p.solve maths tolerance) ↔
        (p.a == 0) = true ∧ (p.b == 0) = true ∧ (p.c == 0) = true) := by
  constructor
  · intro equation
    have hiff := Outcome.describes_iff_eq (describes_outcome maths tolerance equation)
    refine ⟨⟨outcome equation, (hiff _).2 rfl, fun other => (hiff other).1⟩, ?_⟩
    rw [hiff, eq_comm, outcome_eq_withoutVariable_iff]
  · intro p
    have hiff := Outcome.describes_iff_eq (p.describes_outcome maths tolerance)
    refine ⟨⟨p.outcome, (hiff _).2 rfl, fun other => (hiff other).1⟩, ?_, ?_⟩
    · rw [hiff]
      exact p.outcome_ne_refused.symm
    · rw [hiff, eq_comm, p.outcome_eq_withoutVariable_iff]

end Equation

end EquationRoots
