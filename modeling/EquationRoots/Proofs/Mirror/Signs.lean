import EquationRoots.Proofs.Equation.Written
import EquationRoots.Proofs.Mirror.Sides

/-!
# Flipping every sign of an equation

Two runs of the sums are compared term by term. Flipping all signs, or moving all terms to the other
side, negates every value that is added up. Rounding is odd, so that the partial sums of the two
runs stay opposite numbers, through zeros of either sign and through infinities. Hence either both
equations are accepted, with opposite polynomials, or both overflow.

- `opposite_collect_negated`: flipping all signs negates every sum.
- `formsMirror_of_opposite`: opposite sums decide alike about overflow.
- `standardForm_flipped`: equations that are written with all signs flipped, or on the other side.
-/

set_option autoImplicit false

namespace EquationRoots

open Binary64

theorem Term.IsUnsigned.negated {t : Term} (h : t.IsUnsigned) : t.negated.IsUnsigned := by
  refine ⟨?_, ?_⟩
  · rw [Term.coefficient_negated]
    exact h.isFinite
  · rw [Term.coefficient_negated]
    exact h.isSigned

/-- A number opposite to a finite one equals its negative, zeros of either sign being equal. -/
theorem Binary64.Opposite.beq_neg {x y : Float} (h : Opposite x y) (hy : y.isFinite = true) :
    (x == -y) = true := by
  refine Or.resolve_right h ?_
  rintro ⟨-, hnan⟩
  rw [isNaN_neg, isNaN_of_isFinite hy] at hnan
  cases hnan

/-- A polynomial that mirrors a finite one equals the negated one. -/
theorem Coefficients.Mirrors.beq_negated {p p' : Coefficients Float} (h : p'.Mirrors p)
    (hfinite : p.isFinite = true) : (p' == p.negated) = true := by
  simp only [Coefficients.isFinite, Bool.and_eq_true] at hfinite
  obtain ⟨⟨⟨ha, hb⟩, hc⟩, hd⟩ := hfinite
  show (p'.a == -p.a && (p'.b == -p.b && (p'.c == -p.c && p'.d == -p.d))) = true
  rw [h.a.beq_neg ha, h.b.beq_neg hb, h.c.beq_neg hc, h.d.beq_neg hd]
  rfl

namespace Equation

/-- Flipping all signs negates every value. -/
theorem signedValues_map_negated (l r : List Term) (n : Exponent) :
    signedValues (l.map Term.negated) (r.map Term.negated) n =
      (signedValues l r n).map (-·) := by
  have hfilter (terms : List Term) : (terms.map Term.negated).filter (·.exponent = n) =
      (terms.filter (·.exponent = n)).map Term.negated := by
    rw [List.filter_map]
    rfl
  rw [signedValues, signedValues, hfilter, hfilter, List.map_append, List.map_map, List.map_map,
    List.map_map, List.map_map]
  simp only [Function.comp_def, value_negated]

/-- Flipping all signs negates every sum, whatever is rounded and wherever it overflows. -/
theorem opposite_collect_negated (l r : List Term) (n : Exponent) :
    Opposite (collect (l.map Term.negated) (r.map Term.negated) n) (collect l r n) := by
  apply opposite_collect
  rw [signedValues_map_negated, List.forall₂_map_left_iff, List.forall₂_same]
  intro x _
  exact .neg_left x

/-- The first equation is accepted, and the second with the mirrored polynomial, or both
overflow. -/
inductive FormsMirror (equation' equation : Text) : Prop
  | accepted {p p' : Coefficients Float} (form : standardForm equation = .ok p)
      (form' : standardForm equation' = .ok p') (mirrors : (p' == p.negated) = true)
  | overflow (form : standardForm equation = .error (.coefficientOverflow equation))
      (form' : standardForm equation' = .error (.coefficientOverflow equation'))

/-- The standard form of a written equation: its sums have to be finite. -/
theorem standardForm_written {l r : List Term} (hl : ∀ t ∈ l, t.IsUnsigned)
    (hr : ∀ t ∈ r, t.IsUnsigned) :
    standardForm (written l r) = finiteOnly (written l r) (collected l r) := by
  apply standardForm_of_isEquation
  rw [withoutBlanks_written hl hr]
  exact isEquation_written hl hr

/-- Equations with opposite sums mirror each other. -/
theorem formsMirror_of_opposite {l r l' r' : List Term} (hl : ∀ t ∈ l, t.IsUnsigned)
    (hr : ∀ t ∈ r, t.IsUnsigned) (hl' : ∀ t ∈ l', t.IsUnsigned) (hr' : ∀ t ∈ r', t.IsUnsigned)
    (h : ∀ n, Opposite (collect l' r' n) (collect l r n)) :
    FormsMirror (written l' r') (written l r) := by
  have hmirrors : (collected l' r').Mirrors (collected l r) :=
    ⟨h .three, h .two, h .one, h .zero⟩
  have hform := standardForm_written hl hr
  have hform' := standardForm_written hl' hr'
  rw [finiteOnly] at hform hform'
  rw [hmirrors.isFinite_eq] at hform'
  by_cases hfinite : (collected l r).isFinite = true
  · rw [if_pos hfinite] at hform hform'
    exact .accepted hform hform' (hmirrors.beq_negated hfinite)
  · rw [if_neg hfinite] at hform hform'
    exact .overflow hform hform'

/-- Flipping every sign mirrors the polynomial. Two equations that are written with opposite
signs are both accepted or both overflow, and if they are accepted the polynomial of the one equals
the negated polynomial of the other. So it is with equations that have the same terms on the left
and on the right of the equal sign. -/
theorem standardForm_flipped {l r : List Term} (hl : ∀ t ∈ l, t.IsUnsigned)
    (hr : ∀ t ∈ r, t.IsUnsigned) :
    FormsMirror (written (l.map Term.negated) (r.map Term.negated)) (written l r) ∧
      FormsMirror (written [] l) (written l []) := by
  have hnone : ∀ t ∈ ([] : List Term), t.IsUnsigned := by simp
  have hnegated {terms : List Term} (h : ∀ t ∈ terms, t.IsUnsigned) :
      ∀ t ∈ terms.map Term.negated, t.IsUnsigned := by
    rw [List.forall_mem_map]
    exact fun t ht => (h t ht).negated
  constructor
  · exact formsMirror_of_opposite hl hr (hnegated hl) (hnegated hr) (opposite_collect_negated l r)
  · refine formsMirror_of_opposite hl hnone hnone hl ?_
    intro n
    exact opposite_collect_of_forall_ne (by simp)

/-- The terms of `0.1x - 0.1x + 2.5x^2`. -/
def cancellingTerms : List Term :=
  [⟨.positive, 0.1, .one⟩, ⟨.negative, 0.1, .one⟩, ⟨.positive, 2.5, .two⟩]

/-- The equation `0.1x - 0.1x + 2.5x^2 = 3`, whose linear terms leave a positive zero whichever sign
they have. -/
theorem standardForm_flipped_cancelling :
    (∀ t ∈ cancellingTerms, t.IsUnsigned) ∧ (∀ t ∈ [Term.mk .positive 3 .zero], t.IsUnsigned) ∧
      FormsMirror "-0.1x+0.1x-2.5x^2=-3".toList "+0.1x-0.1x+2.5x^2=+3".toList ∧
      FormsMirror "=+0.1x-0.1x+2.5x^2".toList "+0.1x-0.1x+2.5x^2=".toList ∧
      standardForm "+0.1x-0.1x+2.5x^2=+3".toList = .ok ⟨-0.0, 2.5, 0, -3⟩ ∧
      standardForm "-0.1x+0.1x-2.5x^2=-3".toList = .ok ⟨-0.0, -2.5, 0, 3⟩ := by
  have hl : ∀ t ∈ cancellingTerms, t.IsUnsigned := by
    simp only [cancellingTerms, List.forall_mem_cons, List.not_mem_nil, false_implies,
      implies_true, and_true]
    exact ⟨⟨by decide, by decide⟩, ⟨by decide, by decide⟩, ⟨by decide, by decide⟩⟩
  have hr : ∀ t ∈ [Term.mk .positive 3 .zero], t.IsUnsigned := by
    simp only [List.forall_mem_cons, List.not_mem_nil, false_implies, implies_true, and_true]
    exact ⟨by decide, by decide⟩
  have hflipped := standardForm_flipped hl hr
  have htext : written cancellingTerms [.mk .positive 3 .zero] =
      "+0.1x-0.1x+2.5x^2=+3".toList := by decide +kernel
  have htext' : written (cancellingTerms.map Term.negated)
      ([Term.mk .positive 3 .zero].map Term.negated) = "-0.1x+0.1x-2.5x^2=-3".toList := by
    decide +kernel
  have hleft : written cancellingTerms [] = "+0.1x-0.1x+2.5x^2=".toList := by decide +kernel
  have hright : written [] cancellingTerms = "=+0.1x-0.1x+2.5x^2".toList := by decide +kernel
  rw [htext, htext', hleft, hright] at hflipped
  exact ⟨hl, hr, hflipped.1, hflipped.2, by decide +kernel, by decide +kernel⟩

end Equation

end EquationRoots
