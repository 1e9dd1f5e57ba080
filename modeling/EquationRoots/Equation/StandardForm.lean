import EquationRoots.Coefficients
import EquationRoots.Equation.Shape
import EquationRoots.Equation.Classified

/-!
# The standard form of an equation

Like terms are collected by adding their values from left to right in binary64 arithmetic. The sums
of the four powers are the coefficients of the polynomial whose roots solve the equation.

A sum starts from `-0.0`, the neutral element of rounded addition: adding any float to it gives that
float, zeros of either sign included. So a power without terms has the coefficient `-0.0`.
-/

set_option autoImplicit false

namespace EquationRoots

/-- The sum of the terms' values, from left to right. -/
def Term.sum (terms : List Term) : Float :=
  terms.foldl (fun total t => total + t.value) (-0.0)

/-- The sum of the values of terms given as texts. They are read and added one by one, and the first
text that is no term is the error. -/
def Term.sumRead (raws : List Text) : Except TermError Float :=
  raws.foldlM (fun total raw => return total + (← Term.read raw).value) (-0.0)

/-- The polynomial of collected like terms. -/
def Classified.coefficients (terms : Classified) : Coefficients Float :=
  let byPower := ByPower.ofTerms terms.variableTerms
  ⟨Term.sum byPower.third, Term.sum byPower.second, Term.sum byPower.first,
    Term.sum terms.constantTerms⟩

namespace Equation

/-- The polynomial, provided that its coefficients are finite. -/
def finiteOnly (equation : Text) (p : Coefficients Float) : Except Error (Coefficients Float) :=
  if p.isFinite then .ok p else .error (.coefficientOverflow equation)

/-- The polynomial `P` for which the equation says `P(x) = 0`. -/
def standardForm (equation : Text) : Except Error (Coefficients Float) := do
  (checkShape equation).mapError .shape
  let terms ← (Classified.ofSegments (segments equation)).mapError .term
  finiteOnly equation terms.coefficients

/-- The three ways to a standard form or an error. The shape has a defect, or some segment is no
term, or like terms are collected and their sums have to be finite. -/
theorem standardForm_cases (equation : Text) :
    (∃ cause, checkShape equation = .error cause ∧
        standardForm equation = .error (.shape cause)) ∨
      (∃ cause, checkShape equation = .ok () ∧
        balancedTerms .left (segments equation) = .error cause ∧
        standardForm equation = .error (.term cause)) ∨
      ∃ terms, checkShape equation = .ok () ∧
        balancedTerms .left (segments equation) = .ok terms ∧
        standardForm equation = finiteOnly equation (Classified.ofTerms terms).coefficients := by
  rw [standardForm, Classified.ofSegments]
  cases checkShape equation with
  | error cause => exact .inl ⟨cause, rfl, rfl⟩
  | ok =>
    cases balancedTerms .left (segments equation) with
    | error cause => exact .inr (.inl ⟨cause, rfl, rfl, rfl⟩)
    | ok terms => exact .inr (.inr ⟨terms, rfl, rfl, rfl⟩)

/-- An equation whose terms are read collects them, and the sums have to be finite. -/
theorem standardForm_of_terms {equation : Text} {terms : List Term}
    (hshape : checkShape equation = .ok ())
    (hterms : balancedTerms .left (segments equation) = .ok terms) :
    standardForm equation = finiteOnly equation (Classified.ofTerms terms).coefficients := by
  rw [standardForm, hshape, Classified.ofSegments, hterms]
  rfl

theorem finiteOnly_cases (equation : Text) (p : Coefficients Float) :
    p.isFinite = true ∧ finiteOnly equation p = .ok p ∨
      p.isFinite = false ∧ finiteOnly equation p = .error (.coefficientOverflow equation) := by
  cases hfinite : p.isFinite with
  | true => exact .inl ⟨rfl, if_pos hfinite⟩
  | false => exact .inr ⟨rfl, if_neg (by simp [hfinite])⟩

/-- An equation with a standard form has the right shape and readable segments, whose collected
terms are finite. -/
theorem exists_terms_of_standardForm {equation : Text} {p : Coefficients Float}
    (h : standardForm equation = .ok p) :
    checkShape equation = .ok () ∧ p.isFinite = true ∧
      ∃ terms, balancedTerms .left (segments equation) = .ok terms ∧
        (Classified.ofTerms terms).coefficients = p := by
  obtain ⟨cause, -, hform⟩ | ⟨cause, -, -, hform⟩ | ⟨terms, hshape, hterms, hform⟩ :=
    standardForm_cases equation
  · rw [hform] at h
    cases h
  · rw [hform] at h
    cases h
  · rw [hform] at h
    obtain ⟨hfinite, hok⟩ | ⟨-, herror⟩ :=
      finiteOnly_cases equation (Classified.ofTerms terms).coefficients
    · rw [hok] at h
      cases h
      exact ⟨hshape, hfinite, terms, hterms, rfl⟩
    · rw [herror] at h
      cases h

end Equation

end EquationRoots
