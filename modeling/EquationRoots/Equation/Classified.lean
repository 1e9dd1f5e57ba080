import EquationRoots.Equation.Segment
import EquationRoots.Equation.Side

/-!
# Classified terms

The segments of an equation are read as terms and balanced for their side; the terms are then told
apart by the power of the variable. Order is kept throughout.

- `Equation.balancedTerms` reads segments until the first that is no term. The equal sign yields no
  term; every segment after the first equal sign is on the right-hand side.
- `Classified` holds the terms with the variable apart from the constants, `ByPower` the terms of
  each power of the variable.
-/

set_option autoImplicit false

namespace EquationRoots

namespace Equation

/-- Reads segments as terms and balances each for the side that it is on, starting on the given
side. -/
def balancedTerms (side : Side) : List Text → Except TermError (List Term)
  | [] => .ok []
  | raw :: rest =>
    if raw = equalsMark then balancedTerms .right rest
    else do
      let term ← Term.read raw
      let terms ← balancedTerms side rest
      return term.balanced side :: terms

@[simp] theorem balancedTerms_nil (side : Side) : balancedTerms side [] = .ok [] := rfl

@[simp] theorem balancedTerms_equalsMark (side : Side) (rest : List Text) :
    balancedTerms side (equalsMark :: rest) = balancedTerms .right rest := by
  simp [balancedTerms]

theorem balancedTerms_of_read {raw : Text} {term : Term} (h : raw ≠ equalsMark)
    (hr : Term.read raw = .ok term) (side : Side) (rest : List Text) :
    balancedTerms side (raw :: rest) =
      (balancedTerms side rest).map (term.balanced side :: ·) := by
  simp only [balancedTerms, if_neg h, hr]
  cases balancedTerms side rest <;> rfl

theorem balancedTerms_of_error {raw : Text} {cause : TermError} (h : raw ≠ equalsMark)
    (hr : Term.read raw = .error cause) (side : Side) (rest : List Text) :
    balancedTerms side (raw :: rest) = .error cause := by
  simp only [balancedTerms, if_neg h, hr]
  rfl

/-- Reading goes segment by segment. An equal sign changes sides, and any other segment is read
and balanced for its side. -/
theorem balancedTerms_cons_eq_ok_iff (side : Side) (raw : Text) (rest : List Text)
    (terms : List Term) :
    balancedTerms side (raw :: rest) = .ok terms ↔
      (raw = equalsMark ∧ balancedTerms .right rest = .ok terms) ∨
        (raw ≠ equalsMark ∧ ∃ t ts, Term.read raw = .ok t ∧ balancedTerms side rest = .ok ts ∧
          terms = t.balanced side :: ts) := by
  by_cases h : raw = equalsMark
  · simp [h]
  · cases hr : Term.read raw with
    | error cause => simp [h, balancedTerms_of_error h hr]
    | ok t =>
      rw [balancedTerms_of_read h hr]
      cases balancedTerms side rest with
      | error cause => simp [h, Except.map]
      | ok ts => simp [h, Except.map, eq_comm]

end Equation

/-- Terms with the variable, apart from constant terms. -/
structure Classified where
  variableTerms : List Term
  constantTerms : List Term
deriving DecidableEq

namespace Classified

/-- Tells the terms of a list apart. -/
def ofTerms (terms : List Term) : Classified :=
  ⟨terms.filter Term.isVariable, terms.filter fun t => !t.isVariable⟩

/-- Reads segments, balances them and tells them apart. -/
def ofSegments (raws : List Text) : Except TermError Classified :=
  (Equation.balancedTerms .left raws).map ofTerms

end Classified

/-- The terms with the variable, by its power: the first, the second or the third. -/
structure ByPower where
  first : List Term
  second : List Term
  third : List Term
deriving DecidableEq

/-- Sorts terms by the power of the variable; constant terms are left out. -/
def ByPower.ofTerms (terms : List Term) : ByPower :=
  ⟨terms.filter (·.exponent = .one), terms.filter (·.exponent = .two),
    terms.filter (·.exponent = .three)⟩

end EquationRoots
