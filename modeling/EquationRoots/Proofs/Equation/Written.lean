import EquationRoots.Proofs.Decimal.ReadBack
import EquationRoots.Proofs.Equation.Language

/-!
# Written equations

Two lists of terms are written as an equation, side by side around an equal sign. Reading it gives
the terms back, one segment for each: every written term begins with its sign, so that it neither
runs into the term before it nor falls apart.

- `Term.IsUnsigned`: the coefficient is finite and has no sign of its own.
- `isTerm_write`: a written term is derived by the grammar as itself.
- `segments_written`: the segments are the written terms and the equal sign.
- `reading_written`: every stage of reading a written equation.
-/

set_option autoImplicit false

namespace EquationRoots

open Grammar

/-- The coefficient is a finite float whose sign bit is clear. -/
structure Term.IsUnsigned (t : Term) : Prop where
  isFinite : t.coefficient.isFinite = true
  isSigned : Layout.isSigned t.coefficient = false

/-! ## Terms -/

/-- A float without a sign is written as a number. -/
theorem isNumber_write_plain {x : Float} (hf : x.isFinite = true) (h : Layout.isSigned x = false) :
    IsNumber (Layout.plain.write x) x := by
  obtain ⟨l, hwrite, hfloat⟩ := exists_literal_write_plain hf h
  rw [← magnitude?_eq_some_iff, hwrite, Term.magnitude?, Literal.ofText?_write, Option.bind_some,
    hfloat, if_pos hf]

/-- A power of the variable is written as the variable and what may stand after it. -/
theorem exists_isPower_write {n : Exponent} (h : n ≠ .zero) :
    ∃ power, n.write = 'x' :: power ∧ IsPower power n := by
  cases n with
  | zero => exact absurd rfl h
  | one => exact ⟨[], rfl, .silent⟩
  | two => exact ⟨['^', '2'], rfl, .two⟩
  | three => exact ⟨['^', '3'], rfl, .three⟩

namespace Term

/-- What is written of the coefficient. -/
theorem write_eq (t : Term) :
    t.write = t.sign.symbol ::
      ((if t.isCoefficientSilent then [] else Layout.plain.write t.coefficient) ++
        t.exponent.write) := rfl

/-- A coefficient that is left out is one. -/
theorem coefficient_of_isCoefficientSilent {t : Term} (h : t.isCoefficientSilent = true) :
    t.coefficient = 1 ∧ t.exponent ≠ .zero := by
  simp only [isCoefficientSilent, isVariable, Bool.and_eq_true, bne_iff_ne, ne_eq] at h
  obtain ⟨hvariable, hone⟩ := h
  have hfinite : (1 : Float).isFinite = true := by decide
  obtain ⟨hx, hvalue⟩ := Binary64.toReal_eq_of_beq hfinite hone
  refine ⟨Binary64.eq_of_toReal_eq hx hfinite hvalue ?_, hvariable⟩
  have hreal := Binary64.toReal_numeral (n := 1) (by norm_num)
  rw [show (1 : Float) = Scalar.ofNat 1 from rfl, hreal]
  norm_num

/-- A written term is derived as itself. -/
theorem isTerm_write {t : Term} (h : t.IsUnsigned) : IsTerm t.write t := by
  obtain ⟨sign, x, n⟩ := t
  have hnumber := isNumber_write_plain h.isFinite h.isSigned
  rw [write_eq]
  apply IsTerm.signed
  by_cases hsilent : (Term.mk sign x n).isCoefficientSilent = true
  · -- the variable stands alone, and its coefficient is one
    obtain ⟨hone, hn⟩ := coefficient_of_isCoefficientSilent hsilent
    obtain ⟨power, hpower, hisPower⟩ := exists_isPower_write hn
    simp only at hone hpower
    rw [if_pos hsilent, hpower, hone]
    exact .withVariable .silent hisPower
  · rw [if_neg hsilent]
    by_cases hn : n = .zero
    · subst hn
      rw [show Exponent.zero.write = [] from rfl, List.append_nil]
      exact .constant hnumber
    · obtain ⟨power, hpower, hisPower⟩ := exists_isPower_write hn
      rw [hpower]
      exact .withVariable (.number hnumber) hisPower

end Term

namespace Equation

/-! ## Equations -/

/-- The equation that has the given terms on its two sides, written without blank characters. -/
def written (left right : List Term) : Text :=
  left.flatMap Term.write ++ '=' :: right.flatMap Term.write

section Written

variable {terms left right : List Term}

/-- Written terms are terms with explicit signs. -/
theorem isTail_flatMap_write (h : ∀ t ∈ terms, t.IsUnsigned) :
    IsTail (terms.flatMap Term.write) terms := by
  induction terms with
  | nil => exact .nil
  | cons t terms ih =>
    rw [List.forall_mem_cons] at h
    rw [List.flatMap_cons]
    have htail := ih h.2
    obtain ⟨hsign, hbody⟩ := isBody_of_isTerm_symbol_cons (Term.isTerm_write h.1)
    exact .cons t.sign hbody htail

/-- Each written term is a piece, whatever is written behind it. -/
theorem pieces_flatMap_write (h : ∀ t ∈ terms, t.IsUnsigned) :
    pieces (terms.flatMap Term.write) = terms.map Term.write := by
  induction terms with
  | nil => rfl
  | cons t terms ih =>
    rw [List.forall_mem_cons] at h
    -- the next term begins with a sign, and so at a boundary
    have hboundary := atBoundary_of_isTail (isTail_flatMap_write h.2)
    rw [List.flatMap_cons, pieces_append _ hboundary, pieces_of_isTerm (Term.isTerm_write h.1),
      ih h.2, List.map_cons, List.singleton_append]

variable (hl : ∀ t ∈ left, t.IsUnsigned) (hr : ∀ t ∈ right, t.IsUnsigned)

include hl hr

theorem isEquation_written : IsEquation (written left right) left right :=
  .sides (isSide_of_isTail (isTail_flatMap_write hl)) (isSide_of_isTail (isTail_flatMap_write hr))

/-- Nothing that is written is blank. -/
theorem withoutBlanks_written : Text.withoutBlanks (written left right) = written left right := by
  have hside : ∀ terms : List Term, (∀ t ∈ terms, t.IsUnsigned) →
      ∀ c ∈ terms.flatMap Term.write, Text.isBlank c = false := by
    intro terms hterms c hc
    have hisSide := isSide_of_isTail (isTail_flatMap_write hterms)
    apply Bool.eq_false_iff.2
    intro hblank
    simp only [Text.isBlank, Bool.or_eq_true, beq_iff_eq] at hblank
    rcases hblank with (((rfl | rfl) | rfl) | rfl) | rfl <;>
      exact not_mem_of_isSide hisSide rfl (by decide) hc
  apply List.filter_eq_self.2
  intro c hc
  rw [Bool.not_eq_true']
  rcases List.mem_append.1 hc with hc | hc
  · exact hside left hl c hc
  · rcases List.mem_cons.1 hc with rfl | hc
    · rfl
    · exact hside right hr c hc

/-- The segments of a written equation are the written terms with the equal sign between
them. -/
theorem segments_written :
    segments (written left right) = left.map Term.write ++ equalsMark :: right.map Term.write := by
  rw [segments_eq_pieces, withoutBlanks_written hl hr, written,
    pieces_append _ (atBoundary_cons rfl _), pieces_equals_cons, pieces_flatMap_write hl,
    pieces_flatMap_write hr]

/-- Reading a written equation gives back what was written. It has no defect as a whole, and its
segments are the written terms. They are told apart as the terms of the left-hand side and those of
the right-hand side with the other sign, in order. The standard form collects the same terms, unless
one of the sums is not finite. -/
theorem reading_written :
    checkShape (written left right) = .ok () ∧
      segments (written left right) =
        left.map Term.write ++ equalsMark :: right.map Term.write ∧
      Classified.ofSegments (segments (written left right)) =
        .ok ⟨(left ++ right.map Term.negated).filter Term.isVariable,
          (left ++ right.map Term.negated).filter fun t => !t.isVariable⟩ ∧
      ((∀ n, (collect left right n).isFinite = true) →
        standardForm (written left right) = .ok ⟨collect left right .three,
          collect left right .two, collect left right .one, collect left right .zero⟩) ∧
      ((∃ n, (collect left right n).isFinite = false) →
        standardForm (written left right) =
          .error (.coefficientOverflow (written left right))) := by
  have hequation : IsEquation (Text.withoutBlanks (written left right)) left right := by
    rw [withoutBlanks_written hl hr]
    exact isEquation_written hl hr
  have hclassified : Classified.ofSegments (segments (written left right)) =
      .ok (Classified.ofTerms (left ++ right.map Term.negated)) := by
    rw [Classified.ofSegments, balancedTerms_of_isEquation hequation]
    rfl
  rw [standardForm_of_isEquation hequation]
  exact ⟨checkShape_of_isEquation hequation, segments_written hl hr, hclassified,
    finiteOnly_collected (written left right) left right⟩

end Written

/-- The terms of `2.5 x² - x = -3`, written and read. -/
theorem reading_written_quadratic :
    (∀ t ∈ [Term.mk .positive 2.5 .two, .mk .negative 1 .one], t.IsUnsigned) ∧
      (∀ t ∈ [Term.mk .negative 3 .zero], t.IsUnsigned) ∧
      standardForm
          (written [.mk .positive 2.5 .two, .mk .negative 1 .one] [.mk .negative 3 .zero]) =
        .ok ⟨-0.0, 2.5, -1, 3⟩ := by
  have hleft : ∀ t ∈ [Term.mk .positive 2.5 .two, .mk .negative 1 .one], t.IsUnsigned := by
    simp only [List.forall_mem_cons, List.not_mem_nil, false_implies, implies_true, and_true]
    exact ⟨⟨by decide, by decide⟩, ⟨by decide, by decide⟩⟩
  have hright : ∀ t ∈ [Term.mk .negative 3 .zero], t.IsUnsigned := by
    simp only [List.forall_mem_cons, List.not_mem_nil, false_implies, implies_true, and_true]
    exact ⟨by decide, by decide⟩
  have hfinite : ∀ n, (collect [.mk .positive 2.5 .two, .mk .negative 1 .one]
      [.mk .negative 3 .zero] n).isFinite = true := by
    rintro (_ | _ | _ | _) <;> rfl
  obtain ⟨-, -, -, hok, -⟩ := reading_written hleft hright
  exact ⟨hleft, hright, hok hfinite⟩

example : written [.mk .positive 2.5 .two, .mk .negative 1 .one] [.mk .negative 3 .zero] =
    "+2.5x^2-x=-3".toList := by
  decide +kernel

end Equation

end EquationRoots
