import EquationRoots.Proofs.Binary64.Sums
import EquationRoots.Proofs.Equation.Language
import EquationRoots.Proofs.Mirror.Solve

/-!
# Exchanging the sides of an equation

The sides of an equation may be exchanged wherever rounding does not stand in the way. The check of
the shape and the reading of terms do not care which side comes first; the sums of like terms do,
since they are added from left to right. Where the sums of every power are opposite numbers in the
two orders (`SidesCommute`), the equations are solved alike or fail alike (`Solution.Alike`). So it
is where no power has terms on both sides (`sidesCommute_of_disjoint`) and where the coefficients
are integers of moderate size (`sidesCommute_of_isInteger`), but not always
(`solve_exchanged_rounding`).
-/

set_option autoImplicit false

namespace EquationRoots

open Binary64
open scoped Scalar

/-! ## Solutions alike -/

/-- Errors for the same reason: the same defect of the equation as a whole, a term that cannot be
read, a missing variable, or a coefficient that is not finite. Of terms that cannot be read the
first is reported, which depends on the side that is read first. -/
inductive Error.SameKind : Error → Error → Prop
  | shape (cause : ShapeError) : SameKind (.shape cause) (.shape cause)
  | term (cause cause' : TermError) : SameKind (.term cause') (.term cause)
  | missingVariable : SameKind .missingVariable .missingVariable
  | coefficientOverflow (equation equation' : Text) :
      SameKind (.coefficientOverflow equation') (.coefficientOverflow equation)

theorem Error.SameKind.refl (error : Error) : error.SameKind error := by
  cases error with
  | shape cause => exact .shape cause
  | term cause => exact .term cause cause
  | missingVariable => exact .missingVariable
  | coefficientOverflow equation => exact .coefficientOverflow equation equation

/-- No error in either or errors for the same reason, and the same roots. Real roots are the same
numbers place by place; so are the complex ones, unless the pair is exchanged. -/
structure Solution.Alike (s' s : Solution Float) : Prop where
  error : Option.Rel Error.SameKind s'.error s.error
  realRoots : List.Forall₂ SameValue s'.realRoots s.realRoots
  complexRoots : List.Forall₂ ComplexNum.SameValue s'.complexRoots s.complexRoots ∨
    ∃ z w, s.complexRoots = [z, w] ∧ List.Forall₂ ComplexNum.SameValue s'.complexRoots [w, z]

namespace Solution

theorem Mirrors.alike {s' s : Solution Float} (h : s'.Mirrors s) : s'.Alike s := by
  refine ⟨?_, h.realRoots, h.complexRoots⟩
  rw [h.error]
  cases s.error with
  | none => exact .none
  | some error => exact .some (.refl error)

theorem alike_failed {error error' : Error} (h : error'.SameKind error) :
    (failed error').Alike (failed error) :=
  ⟨.some h, .nil, Or.inl .nil⟩

end Solution

theorem Coefficients.Mirrors.isFinite_eq {p p' : Coefficients Float} (h : p'.Mirrors p) :
    p'.isFinite = p.isFinite :=
  congrArg₂ and (congrArg₂ and (congrArg₂ and h.a.isFinite_eq h.b.isFinite_eq) h.c.isFinite_eq)
    h.d.isFinite_eq

namespace Equation

/-! ## Reading both sides -/

/-- The terms of one side of an equation. -/
def readSide (text : Text) : Except TermError (List Term) :=
  (pieces (Text.withoutBlanks text)).mapM Term.read

/-- The shape of an equation does not depend on which side comes first. -/
theorem checkShape_exchanged (left right : Text) :
    checkShape (right ++ '=' :: left) = checkShape (left ++ '=' :: right) := by
  have hdoubled (sign : Char) (h : '=' ≠ sign) :
      Text.hasDoubled sign (right ++ '=' :: left) =
        Text.hasDoubled sign (left ++ '=' :: right) := by
    rw [Text.hasDoubled_append_cons h, Text.hasDoubled_append_cons h, Bool.or_comm]
  have hcount : (right ++ '=' :: left).count '=' = (left ++ '=' :: right).count '=' := by
    simp only [List.count_append, List.count_cons_self]
    omega
  simp only [checkShape, hdoubled _ (show '=' ≠ '*' by decide),
    hdoubled _ (show '=' ≠ '^' by decide), hdoubled _ (show '=' ≠ '/' by decide),
    hdoubled _ (show '=' ≠ 'x' by decide), hcount, List.mem_append, List.mem_cons, true_or, or_true]

/-- An equation is read side by side. -/
theorem balancedTerms_sides {left right : Text} (he : '=' ∉ left ++ right) :
    balancedTerms .left (segments (left ++ '=' :: right)) =
      (readSide left).bind fun leftTerms =>
        (readSide right).map fun rightTerms => leftTerms ++ rightTerms.map Term.negated := by
  have hblank : Text.withoutBlanks ('=' :: right) = '=' :: Text.withoutBlanks right := rfl
  rw [segments_eq_pieces, Text.withoutBlanks_append, hblank]
  apply balancedTerms_pieces
  rw [← Text.withoutBlanks_append]
  exact fun hmem => he (List.mem_filter.1 hmem).1

theorem standardForm_of_checkShape_eq_error {equation : Text} {cause : ShapeError}
    (h : checkShape equation = .error cause) :
    standardForm equation = .error (.shape cause) := by
  rw [standardForm, h]
  rfl

/-- The standard form of an equation whose sides are read. -/
theorem standardForm_of_readSide {left right : Text} (he : '=' ∉ left ++ right)
    (hshape : checkShape (left ++ '=' :: right) = .ok ()) {l r : List Term}
    (hl : readSide left = .ok l) (hr : readSide right = .ok r) :
    standardForm (left ++ '=' :: right) =
      finiteOnly (left ++ '=' :: right) (collected l r) := by
  refine standardForm_of_balancedTerms hshape ?_
  rw [balancedTerms_sides he, hl, hr]
  rfl

/-- An equation with a side that is not read has no standard form. -/
theorem exists_standardForm_eq_error {left right : Text} (he : '=' ∉ left ++ right)
    (hshape : checkShape (left ++ '=' :: right) = .ok ()) {cause : TermError}
    (h : readSide left = .error cause ∨ readSide right = .error cause) :
    ∃ cause', standardForm (left ++ '=' :: right) = .error (.term cause') := by
  obtain ⟨cause', hfail, -⟩ | ⟨cause', -, -, hform⟩ | ⟨terms, -, hterms, -⟩ :=
    standardForm_cases (left ++ '=' :: right)
  · rw [hshape] at hfail
    cases hfail
  · exact ⟨cause', hform⟩
  · -- the side that is not read would have been read
    rw [balancedTerms_sides he] at hterms
    rcases h with h | h
    · rw [h] at hterms
      cases hterms
    · rw [h] at hterms
      cases hl : readSide left <;> rw [hl] at hterms <;> cases hterms

/-! ## Sums in two orders -/

/-- The sums of each power are opposite numbers, whichever side is added up first. -/
def SidesCommute (left right : Text) : Prop :=
  ∀ l r, readSide left = .ok l → readSide right = .ok r →
    ∀ n, Opposite (collect r l n) (collect l r n)

/-- Opposite values have opposite sums. -/
theorem opposite_collect {l r l' r' : List Term} {n : Exponent}
    (h : List.Forall₂ Opposite (signedValues l' r' n) (signedValues l r n)) :
    Opposite (collect l' r' n) (collect l r n) :=
  Opposite.foldl_add h (.of_isZero ⟨.negative, rfl⟩ ⟨.positive, rfl⟩)

/-- A power whose terms are all on one side has the opposite sum when they are on the other. -/
theorem opposite_collect_of_forall_ne {l r : List Term} {n : Exponent}
    (h : ∀ t ∈ r, t.exponent ≠ n) : Opposite (collect r l n) (collect l r n) := by
  have hr : r.filter (·.exponent = n) = [] := by simpa using h
  have hneg (t : Term) : Opposite (-t.value) t.value := .neg_left t.value
  apply opposite_collect
  rw [signedValues, signedValues, hr, List.map_nil, List.map_nil, List.nil_append, List.append_nil,
    List.forall₂_map_left_iff, List.forall₂_map_right_iff, List.forall₂_same]
  exact fun t _ => hneg t

/-- Sides without a power in common commute. -/
theorem sidesCommute_of_disjoint {left right : Text}
    (h : ∀ l r, readSide left = .ok l → readSide right = .ok r →
      ∀ t ∈ l, ∀ u ∈ r, t.exponent ≠ u.exponent) : SidesCommute left right := by
  intro l r hl hr n
  by_cases hn : ∀ u ∈ r, u.exponent ≠ n
  · exact opposite_collect_of_forall_ne hn
  · -- some term of the power is on the right, and so none is on the left
    obtain ⟨u, hu, hun⟩ : ∃ u ∈ r, u.exponent = n := by simpa using hn
    have hleft : ∀ t ∈ l, t.exponent ≠ n := fun t ht => hun ▸ h l r hl hr t ht u hu
    exact (opposite_collect_of_forall_ne hleft).symm

/-- The values of a power added up exactly over one side. -/
noncomputable def exactSum (terms : List Term) (n : Exponent) : ℝ :=
  ((terms.filter (·.exponent = n)).map fun t => toReal t.value).sum

/-- The magnitudes of a power added up exactly over one side. -/
noncomputable def magnitude (terms : List Term) (n : Exponent) : ℝ :=
  ((terms.filter (·.exponent = n)).map fun t => |toReal t.coefficient|).sum

theorem isInteger_value {t : Term} (h : IsInteger t.coefficient) : IsInteger t.value := by
  cases hs : t.sign with
  | positive => rwa [Term.value, hs]
  | negative =>
    rw [Term.value, hs]
    exact h.neg

theorem abs_toReal_value (t : Term) : |toReal t.value| = |toReal t.coefficient| := by
  cases hs : t.sign with
  | positive => rw [Term.value, hs, Sign.apply_positive]
  | negative => rw [Term.value, hs, Sign.apply_negative, toReal_neg, abs_neg]

/-- The values of a power, those from the right-hand side negated, add up to a difference. -/
theorem sum_signedValues (l r : List Term) (n : Exponent) :
    ((signedValues l r n).map toReal).sum = exactSum l n - exactSum r n := by
  have hneg := List.sum_neg ((r.filter (·.exponent = n)).map fun t => toReal t.value)
  simpa [signedValues, exactSum, Function.comp_def, sub_eq_add_neg] using hneg.symm

theorem sum_abs_signedValues (l r : List Term) (n : Exponent) :
    ((signedValues l r n).map fun x => |toReal x|).sum = magnitude l n + magnitude r n := by
  simp [signedValues, magnitude, Function.comp_def, abs_toReal_value]

/-- Integer values that are not too large are added up without rounding. -/
theorem addsExactly_signedValues {l r : List Term}
    (hint : ∀ t ∈ l ++ r, IsInteger t.coefficient) {n : Exponent}
    (hle : magnitude l n + magnitude r n ≤ 2 ^ 53) : AddsExactly (signedValues l r n) := by
  have hvalues : ∀ x ∈ signedValues l r n, IsInteger x := by
    intro x hx
    rcases List.mem_append.1 hx with hx | hx
    · obtain ⟨t, ht, rfl⟩ := List.mem_map.1 hx
      exact isInteger_value (hint t (List.mem_append_left r (List.mem_filter.1 ht).1))
    · obtain ⟨t, ht, rfl⟩ := List.mem_map.1 hx
      exact (isInteger_value (hint t (List.mem_append_right l (List.mem_filter.1 ht).1))).neg
  exact ⟨0, fitsUnits_of_isInteger hvalues ((sum_abs_signedValues l r n).trans_le hle)⟩

/-- Integers that are not too large are collected exactly. -/
theorem collect_of_isInteger {l r : List Term} (hint : ∀ t ∈ l ++ r, IsInteger t.coefficient)
    {n : Exponent} (hle : magnitude l n + magnitude r n ≤ 2 ^ 53) :
    (collect l r n).isFinite = true ∧ toReal (collect l r n) = exactSum l n - exactSum r n := by
  rw [← sum_signedValues]
  exact (addsExactly_signedValues hint hle).foldl_add

/-- Sides with integer coefficients that are not too large commute. -/
theorem sidesCommute_of_isInteger {left right : Text}
    (h : ∀ l r, readSide left = .ok l → readSide right = .ok r →
      (∀ t ∈ l ++ r, IsInteger t.coefficient) ∧
        ∀ n, magnitude l n + magnitude r n ≤ 2 ^ 53) : SidesCommute left right := by
  intro l r hl hr n
  obtain ⟨hint, hle⟩ := h l r hl hr
  have hint' : ∀ t ∈ r ++ l, IsInteger t.coefficient := by
    intro t ht
    exact hint t (List.mem_append.2 (List.mem_append.1 ht).symm)
  obtain ⟨hf, hv⟩ := collect_of_isInteger hint (hle n)
  obtain ⟨hf', hv'⟩ := collect_of_isInteger hint' (n := n) (by linarith [hle n])
  refine Or.inl ((beq_iff hf' (by rwa [isFinite_neg])).2 ?_)
  rw [toReal_neg, hv, hv', neg_sub]

/-! ## Exchanged sides -/

/-- Equations that are refused for the same reason have solutions alike. -/
theorem alike_solve_of_error (maths : Elementary Float) (tolerance : Tolerance Float)
    {equation equation' : Text} {error error' : Error} (hkind : error'.SameKind error)
    (h : standardForm equation = .error error) (h' : standardForm equation' = .error error') :
    (solve maths tolerance equation').solution.Alike (solve maths tolerance equation).solution := by
  rw [solve_of_standardForm_eq_error h, solve_of_standardForm_eq_error h']
  exact Solution.alike_failed hkind

/-- Equations with polynomials that mirror each other have solutions alike. -/
theorem alike_solve_of_mirrors {maths : Elementary Float} (hm : maths.RespectsValues)
    (tolerance : Tolerance Float) {equation equation' : Text} {p p' : Coefficients Float}
    (hp : p'.Mirrors p) (h : standardForm equation = finiteOnly equation p)
    (h' : standardForm equation' = finiteOnly equation' p') :
    (solve maths tolerance equation').solution.Alike (solve maths tolerance equation).solution := by
  obtain ⟨hfinite, hform⟩ | ⟨hfinite, hform⟩ := finiteOnly_cases equation p
  · rw [finiteOnly, hp.isFinite_eq, if_pos hfinite] at h'
    rw [solve_of_standardForm_eq_ok (h.trans hform), solve_of_standardForm_eq_ok h']
    exact (hp.solve hm tolerance).solution.alike
  · rw [finiteOnly, hp.isFinite_eq, if_neg (by simp [hfinite])] at h'
    exact alike_solve_of_error maths tolerance (.coefficientOverflow equation equation')
      (h.trans hform) h'

/-- Exchanging the sides of an equation keeps its solution where the sums commute. With one
equal sign, the equations fail for the same reason or have the same roots. -/
theorem solve_exchanged {maths : Elementary Float} (hm : maths.RespectsValues)
    (tolerance : Tolerance Float) {left right : Text} (he : '=' ∉ left ++ right)
    (hc : SidesCommute left right) :
    (solve maths tolerance (right ++ '=' :: left)).solution.Alike
      (solve maths tolerance (left ++ '=' :: right)).solution := by
  have he' : '=' ∉ right ++ left := by rwa [List.mem_append, or_comm, ← List.mem_append]
  cases hshape : checkShape (left ++ '=' :: right) with
  | error cause =>
    have hshape' := (checkShape_exchanged left right).trans hshape
    exact alike_solve_of_error maths tolerance (.shape cause)
      (standardForm_of_checkShape_eq_error hshape) (standardForm_of_checkShape_eq_error hshape')
  | ok =>
    have hshape' := (checkShape_exchanged left right).trans hshape
    -- a term that cannot be read is in the way of both equations
    have hterm {cause : TermError}
        (h : readSide left = .error cause ∨ readSide right = .error cause) :
        (solve maths tolerance (right ++ '=' :: left)).solution.Alike
          (solve maths tolerance (left ++ '=' :: right)).solution := by
      obtain ⟨cause₁, h₁⟩ := exists_standardForm_eq_error he hshape h
      obtain ⟨cause₂, h₂⟩ := exists_standardForm_eq_error he' hshape' h.symm
      exact alike_solve_of_error maths tolerance (.term cause₁ cause₂) h₁ h₂
    cases hl : readSide left with
    | error cause => exact hterm (Or.inl hl)
    | ok l =>
      cases hr : readSide right with
      | error cause => exact hterm (Or.inr hr)
      | ok r =>
        have hsums := hc l r hl hr
        have hp : (collected r l).Mirrors (collected l r) :=
          ⟨hsums .three, hsums .two, hsums .one, hsums .zero⟩
        exact alike_solve_of_mirrors hm tolerance hp (standardForm_of_readSide he hshape hl hr)
          (standardForm_of_readSide he' hshape' hr hl)

/-- The equations `4 = x^2` and `x^2 = 4`, whose sides have no power in common. -/
theorem solve_exchanged_square :
    '=' ∉ ['x', '^', '2'] ++ ['4'] ∧ SidesCommute ['x', '^', '2'] ['4'] ∧
      (solve .rounded .zero ['4', '=', 'x', '^', '2']).solution.Alike
        (solve .rounded .zero ['x', '^', '2', '=', '4']).solution := by
  have he : '=' ∉ ['x', '^', '2'] ++ ['4'] := by decide
  have hleft : readSide ['x', '^', '2'] = .ok [⟨.positive, 1, .two⟩] := by decide +kernel
  have hright : readSide ['4'] = .ok [⟨.positive, 4, .zero⟩] := by decide +kernel
  have hc : SidesCommute ['x', '^', '2'] ['4'] := by
    refine sidesCommute_of_disjoint fun l r hl hr => ?_
    rw [hleft] at hl
    rw [hright] at hr
    cases hl
    cases hr
    simp
  exact ⟨he, hc, solve_exchanged Elementary.respectsValues_rounded .zero he hc⟩

/-- Rounding can stand in the way: in the sum `9007199254740992x + x` the second term is lost, so
that one equation loses its variable and the other one does not. -/
theorem solve_exchanged_rounding :
    (solve .platform .zero "9007199254740992x+x=9007199254740992x+3".toList).solution =
        ⟨[0], [], some .missingVariable⟩ ∧
      (solve .platform .zero "9007199254740992x+3=9007199254740992x+x".toList).solution =
        ⟨[3], [], none⟩ := by
  decide +kernel

end Equation

end EquationRoots
