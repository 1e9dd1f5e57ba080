import EquationRoots.Proofs.Overflow.Trigonometric
import EquationRoots.Proofs.Roots.Conjugate

/-!
# Where a solution holds a root that is "not a number"

The coefficients of an equation in standard form are finite, and yet a solution without an error can
hold a root that is "not a number". It does so exactly where a formula breaks down
(`Coefficients.BreaksDown`): by an overflow in the quadratic formula, or in Cardano's formula by an
overflow or by a division by a third power that underflowed to zero.
-/

set_option autoImplicit false

namespace EquationRoots

open Binary64
open Float (nan)
open scoped Scalar

/-! ## Solutions -/

/-- Some root of the solution is "not a number", in one of its parts. -/
def Solution.HasUndefinedRoot (s : Solution Float) : Prop :=
  (∃ x ∈ s.realRoots, x.isNaN = true) ∨ ∃ z ∈ s.complexRoots, z.IsUndefined

namespace Solution

/-- Coercion keeps a root that is "not a number" and makes none. -/
theorem hasUndefinedRoot_coerce (s : Solution Float) (bound : Float) :
    (s.coerce bound).HasUndefinedRoot ↔ s.HasUndefinedRoot := by
  simp only [HasUndefinedRoot, realRoots_coerce, complexRoots_coerce, List.mem_append,
    List.mem_map, List.mem_filter]
  constructor
  · rintro (⟨x, hx | ⟨z, ⟨hz, -⟩, rfl⟩, hnan⟩ | ⟨z, ⟨hz, -⟩, hnan⟩)
    · exact Or.inl ⟨x, hx, hnan⟩
    · exact Or.inr ⟨z, hz, Or.inl hnan⟩
    · exact Or.inr ⟨z, hz, hnan⟩
  · rintro (⟨x, hx, hnan⟩ | ⟨z, hz, hnan⟩)
    · exact Or.inl ⟨x, Or.inl hx, hnan⟩
    -- a root that coercion moves has a number as its imaginary part, so its real part is none
    · cases hnear : isNearlyReal bound z with
      | false => exact Or.inr ⟨z, ⟨hz, by rw [hnear]; rfl⟩, hnan⟩
      | true =>
        have him := isNaN_im_of_isNearlyReal hnear
        have hre := hnan.resolve_right (by rw [him]; exact Bool.false_ne_true)
        exact Or.inl ⟨z.re, Or.inr ⟨z, ⟨hz, hnear⟩, rfl⟩, hre⟩

theorem hasUndefinedRoot_ofComplex (roots : List (ComplexNum Float)) :
    (ofComplex roots).HasUndefinedRoot ↔ ∃ z ∈ roots, z.IsUndefined := by
  simp [HasUndefinedRoot, ofComplex]

end Solution

/-! ## Polynomials -/

namespace Coefficients

/-- The formula for the polynomial breaks down. -/
def BreaksDown (p : Coefficients Float) : Prop :=
  match p.degree? with
  | some .cubic =>
    if p.d == 0 then QuadraticBreaksDown p.a p.b p.c
    else ¬ p.reducedDiscriminant < 0 ∧ p.reducedDiscriminant.isFinite = false
  | some .quadratic => QuadraticBreaksDown p.b p.c p.d
  | _ => False

variable {maths : Elementary Float} {p : Coefficients Float}

theorem isFinite_iff : p.isFinite = true ↔ p.a.isFinite = true ∧ p.b.isFinite = true ∧
    p.c.isFinite = true ∧ p.d.isFinite = true := by
  simp only [isFinite, Bool.and_eq_true, and_assoc]
  rfl

theorem a_ne_zero_of_degree (h : p.degree? = some .cubic) : (p.a != 0) = true := by
  unfold degree? at h
  split_ifs at h <;> first | assumption | cases h

theorem b_ne_zero_of_degree (h : p.degree? = some .quadratic) : (p.b != 0) = true := by
  unfold degree? at h
  split_ifs at h <;> first | assumption | cases h

theorem c_ne_zero_of_degree (h : p.degree? = some .linear) : (p.c != 0) = true := by
  unfold degree? at h
  split_ifs at h <;> first | assumption | cases h

/-- The three formulas for cubic polynomials. -/
theorem exists_isUndefined_cubicRoots_iff (hm : maths.IsLawful) (hp : p.isFinite = true)
    (ha0 : toReal p.a ≠ 0) :
    (∃ z ∈ (p.cubicRoots maths).roots, z.IsUndefined) ↔
      if p.d == 0 then QuadraticBreaksDown p.a p.b p.c
      else ¬ p.reducedDiscriminant < 0 ∧ p.reducedDiscriminant.isFinite = false := by
  obtain ⟨ha, hb, hc, -⟩ := isFinite_iff.1 hp
  unfold cubicRoots
  split
  · -- The root zero is a number, so that everything depends on the other two roots.
    have hzero : ¬ (ComplexNum.ofReal (0 : Float)).IsUndefined := by
      rw [isUndefined_ofReal_iff, show Float.isNaN 0 = false from isNaN_im_ofReal 0]
      exact Bool.false_ne_true
    rw [← exists_isUndefined_quadraticRoots_iff ha hb hc ha0]
    constructor
    · rintro ⟨z, hz, hnan⟩
      rcases List.mem_cons.1 hz with rfl | hz
      · exact absurd hnan hzero
      · exact ⟨z, hz, hnan⟩
    · rintro ⟨z, hz, hnan⟩
      exact ⟨z, List.mem_cons_of_mem _ hz, hnan⟩
  · split
    -- the trigonometric formula never breaks down
    · rename_i hlt
      simp only [hlt, not_true_eq_false, false_and, iff_false, not_exists, not_and]
      intro z hz hnan
      obtain ⟨x, hx, rfl⟩ := List.mem_map.1 hz
      have hnumber := isNaN_of_mem_trigonometricRoots hm.hasFiniteAngles ha hlt hx
      rw [isUndefined_ofReal_iff, hnumber] at hnan
      cases hnan
    · rename_i hlt
      simp only [hlt, not_false_eq_true, true_and]
      constructor
      · rintro ⟨z, hz, hnan⟩
        by_contra hf
        exact not_isUndefined_of_mem_cardanoRoots hm ha ha0 hb hlt (by simpa using hf) hz hnan
      · intro hf
        refine ⟨_, List.mem_cons_self, Or.inl ?_⟩
        show (p.cardanoS maths + p.cardanoT maths - p.shift).isNaN = true
        rw [cardanoS_add_cardanoT_eq_nan hm hlt hf, nan_sub, isNaN_nan]

/-- A formula finds a root that is "not a number" exactly where it breaks down. -/
theorem hasUndefinedRoot_rootsByDegree_iff (hm : maths.IsLawful) (hp : p.isFinite = true)
    {degree : Degree} (h : p.degree? = some degree) :
    (p.rootsByDegree maths degree).HasUndefinedRoot ↔ p.BreaksDown := by
  obtain ⟨ha, hb, hc, hd⟩ := isFinite_iff.1 hp
  unfold BreaksDown
  rw [h]
  cases degree with
  | linear =>
    have hc0 := toReal_ne_zero_of_bne hc (c_ne_zero_of_degree h)
    have hnan : (linearRoot p.c p.d).isNaN = false :=
      isNaN_div_of_ne_zero (by rw [isNaN_neg]; exact isNaN_of_isFinite hd) hc0
    have hroot : linearRoot p.c p.d ≠ nan := by simpa using hnan
    simp [Solution.HasUndefinedRoot, rootsByDegree, Solution.ofReal, hroot]
  | quadratic =>
    have hb0 := toReal_ne_zero_of_bne hb (b_ne_zero_of_degree h)
    rw [← exists_isUndefined_quadraticRoots_iff hb hc hd hb0]
    simp only [rootsByDegree]
    cases quadraticRoots p.b p.c p.d with
    | real lower upper =>
      simp [Solution.HasUndefinedRoot, Solution.ofReal, eq_comm]
    | pair first second => exact Solution.hasUndefinedRoot_ofComplex _
  | cubic =>
    have ha0 := toReal_ne_zero_of_bne ha (a_ne_zero_of_degree h)
    exact (Solution.hasUndefinedRoot_ofComplex _).trans
      (exists_isUndefined_cubicRoots_iff hm hp ha0)

end Coefficients

/-! ## Equations -/

namespace Equation

/-- The standard form of an equation has finite coefficients. -/
theorem isFinite_of_standardForm {equation : Text} {p : Coefficients Float}
    (h : standardForm equation = .ok p) : p.isFinite = true :=
  (exists_terms_of_standardForm h).2.1

/-- A solution without an error belongs to a polynomial with the variable. -/
theorem solve_of_error_eq_none {maths : Elementary Float} {tolerance : Tolerance Float}
    {equation : Text} (h : (solve maths tolerance equation).solution.error = none) :
    ∃ p degree, standardForm equation = .ok p ∧ p.degree? = some degree ∧
      (solve maths tolerance equation).solution =
        (p.rootsByDegree maths degree).coerce tolerance.bound := by
  cases hp : standardForm equation with
  | error cause =>
    rw [solve_of_standardForm_eq_error hp] at h
    cases h
  | ok p =>
    rw [solve_of_standardForm_eq_ok hp] at h ⊢
    cases hdegree : p.degree? with
    | none =>
      rw [Coefficients.solve_of_degree?_eq_none hdegree] at h
      cases h
    | some degree => exact ⟨p, degree, rfl, hdegree, Coefficients.solution_solve hdegree⟩

/-- A solution without an error holds a root that is "not a number" exactly where the formula for
its polynomial breaks down. -/
theorem hasUndefinedRoot_solve_iff {maths : Elementary Float} (hm : maths.IsLawful)
    (tolerance : Tolerance Float) (equation : Text)
    (h : (solve maths tolerance equation).solution.error = none) :
    (solve maths tolerance equation).solution.HasUndefinedRoot ↔
      ∃ p, standardForm equation = .ok p ∧ p.BreaksDown := by
  obtain ⟨p, degree, hp, hdegree, hsolve⟩ := solve_of_error_eq_none h
  rw [hsolve, Solution.hasUndefinedRoot_coerce,
    Coefficients.hasUndefinedRoot_rootsByDegree_iff hm (isFinite_of_standardForm hp) hdegree]
  constructor
  · exact fun hbreak => ⟨p, hp, hbreak⟩
  · rintro ⟨p', hp', hbreak⟩
    rw [hp] at hp'
    cases hp'
    exact hbreak

/-! ## An equation that shows it -/

/-- The equation `10³⁰⁸ x² = 0`, whose only solution is zero. -/
def hugeSquare : Text := '1' :: List.replicate 308 '0' ++ ['x', '^', '2', '=', '0']

/-- The solution of `10³⁰⁸ x² = 0` has no error and holds "not a number". -/
theorem hasUndefinedRoot_solve_hugeSquare :
    (solve .tabulated .zero hugeSquare).solution.error = none ∧
      (solve .tabulated .zero hugeSquare).solution.HasUndefinedRoot ∧
      ∃ p, standardForm hugeSquare = .ok p ∧ p.BreaksDown := by
  have herror : (solve .tabulated .zero hugeSquare).solution.error = none := by decide +kernel
  have hroots : (solve .tabulated .zero hugeSquare).solution.realRoots = [nan, nan] := by
    decide +kernel
  have hundefined : (solve .tabulated .zero hugeSquare).solution.HasUndefinedRoot :=
    Or.inl ⟨nan, by rw [hroots]; exact List.mem_cons_self, isNaN_nan⟩
  exact ⟨herror, hundefined,
    (hasUndefinedRoot_solve_iff Elementary.isLawful_tabulated .zero hugeSquare herror).1 hundefined⟩

end Equation

end EquationRoots
