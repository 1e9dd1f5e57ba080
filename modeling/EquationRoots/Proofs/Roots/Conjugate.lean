import EquationRoots.Proofs.Binary64.Scalars
import EquationRoots.Solve

/-!
# Complex roots are one conjugate pair

Every formula finds real roots, whose imaginary part is a zero, and at most one conjugate pair
(`PairedRoots`). Negation only changes the sign of a float, so that both numbers of the pair are
within the tolerance or neither is: coercion never splits the pair.
-/

set_option autoImplicit false

namespace EquationRoots

open Binary64
open scoped Scalar

/-! ## Roots before coercion -/

/-- Lists of roots that are real but for at most one conjugate pair, which comes last. -/
inductive PairedRoots : List (ComplexNum Float) → Prop
  | nil : PairedRoots []
  | pair (z : ComplexNum Float) : PairedRoots [z, z.conj]
  | real (x : Float) {roots : List (ComplexNum Float)} (rest : PairedRoots roots) :
      PairedRoots (.ofReal x :: roots)

theorem pairedRoots_map_ofReal (xs : List Float) : PairedRoots (xs.map .ofReal) := by
  induction xs with
  | nil => exact .nil
  | cons x xs ih => exact .real x ih

theorem pairedRoots_quadraticRoots (a b c : Float) : PairedRoots (quadraticRoots a b c).toList := by
  unfold quadraticRoots
  simp only
  split
  · -- The first root has the negative imaginary part, and negation is undone by negation.
    have hpair := PairedRoots.pair
      ⟨-b / (2 * a), -(Scalar.sqrt (Scalar.abs (quadraticDiscriminant a b c)) / (2 * a))⟩
    rwa [ComplexNum.conj, Binary64.neg_neg] at hpair
  · exact .real _ (.real _ .nil)

theorem pairedRoots_cubicRoots (maths : Elementary Float) (p : Coefficients Float) :
    PairedRoots (p.cubicRoots maths).roots := by
  unfold Coefficients.cubicRoots
  split
  · exact .real _ (pairedRoots_quadraticRoots p.a p.b p.c)
  · split
    · exact pairedRoots_map_ofReal _
    · exact .real _ (.pair _)

/-- Every formula finds real roots and at most one conjugate pair. -/
theorem pairedRoots_rootsByDegree (maths : Elementary Float) (p : Coefficients Float)
    (degree : Degree) : PairedRoots (p.rootsByDegree maths degree).complexRoots := by
  cases degree with
  | linear => exact .nil
  | quadratic =>
    have h := pairedRoots_quadraticRoots p.b p.c p.d
    simp only [Coefficients.rootsByDegree]
    split
    · exact .nil
    · rename_i first second hroots
      rwa [hroots] at h
  | cubic => exact pairedRoots_cubicRoots maths p

/-! ## Coercion -/

namespace Tolerance

/-- Zero is within every tolerance. -/
theorem zero_le_toReal_bound (tolerance : Tolerance Float) : 0 ≤ toReal tolerance.bound := by
  have h := tolerance.not_bound_lt
  rw [lt_zero_iff] at h
  exact not_lt.1 fun hlt => h (Or.inr ⟨tolerance.isFinite_bound, hlt⟩)

end Tolerance

namespace Solution

/-- A root whose imaginary part is a zero of either sign is nearly real. -/
theorem isNearlyReal_of_im_beq_zero (tolerance : Tolerance Float) {z : ComplexNum Float}
    (h : (z.im == Scalar.ofNat 0) = true) : isNearlyReal tolerance.bound z = true := by
  obtain ⟨hf, hz⟩ := toReal_eq_of_beq (isFinite_numeral (by norm_num)) h
  rw [toReal_numeral (by norm_num), Nat.cast_zero] at hz
  refine decide_eq_true ((le_iff (x := z.im.abs) ?_ tolerance.isFinite_bound).2 ?_)
  · rwa [isFinite_abs]
  · rw [toReal_abs, hz, abs_zero]
    exact tolerance.zero_le_toReal_bound

theorem isNearlyReal_ofReal (tolerance : Tolerance Float) (x : Float) :
    isNearlyReal tolerance.bound (.ofReal x) = true :=
  isNearlyReal_of_im_beq_zero tolerance
    (by decide : ((Scalar.ofNat 0 : Float) == Scalar.ofNat 0) = true)

/-- What is "not a number" is not nearly real. -/
theorem isNaN_im_of_isNearlyReal {bound : Float} {z : ComplexNum Float}
    (h : isNearlyReal bound z = true) : z.im.isNaN = false := by
  have hle : z.im.abs ≤ bound := of_decide_eq_true h
  by_contra hnan
  have hnan : z.im.abs.isNaN = true := by rw [isNaN_abs]; simpa using hnan
  rw [eq_nan hnan] at hle
  exact not_nan_le bound hle

/-- Conjugate numbers are nearly real together. -/
theorem isNearlyReal_conj (bound : Float) (z : ComplexNum Float) :
    isNearlyReal bound z.conj = isNearlyReal bound z := by
  show decide ((-z.im).abs ≤ bound) = decide (z.im.abs ≤ bound)
  rw [Binary64.abs_neg]

end Solution

namespace PairedRoots

open Solution

/-- What coercion leaves of the complex roots is nothing or the whole pair. -/
theorem filter_eq (tolerance : Tolerance Float) {roots : List (ComplexNum Float)}
    (h : PairedRoots roots) :
    (roots.filter fun z => !isNearlyReal tolerance.bound z) = [] ∨
      ∃ z, (roots.filter fun z => !isNearlyReal tolerance.bound z) = [z, z.conj] ∧
        isNearlyReal tolerance.bound z = false := by
  -- a real root is filtered out; the pair stays or goes as a whole
  induction h with
  | nil => exact Or.inl rfl
  | pair z =>
    cases hz : isNearlyReal tolerance.bound z with
    | false => exact Or.inr ⟨z, by simp [isNearlyReal_conj, hz], hz⟩
    | true => exact Or.inl (by simp [isNearlyReal_conj, hz])
  | real x _ ih =>
    rwa [List.filter_cons_of_neg (by simp [isNearlyReal_ofReal])]

end PairedRoots

/-! ## Solutions -/

/-- How many real roots a polynomial of a degree can have. -/
def Degree.realRootCounts : Degree → List Nat
  | .linear => [1]
  | .quadratic => [0, 2]
  | .cubic => [1, 3]

namespace Coefficients

variable (maths : Elementary Float) (tolerance : Tolerance Float) (p : Coefficients Float)

theorem complexRoots_solve_eq :
    (p.solve maths tolerance).solution.complexRoots = [] ∨
      ∃ z, (p.solve maths tolerance).solution.complexRoots = [z, z.conj] ∧
        Solution.isNearlyReal tolerance.bound z = false := by
  cases hdegree : p.degree? with
  | none =>
    rw [solve_of_degree?_eq_none hdegree]
    exact Or.inl rfl
  | some degree =>
    rw [solution_solve hdegree, Solution.complexRoots_coerce]
    exact (pairedRoots_rootsByDegree maths p degree).filter_eq tolerance

/-- The complex roots of a solution are none or one conjugate pair beyond the tolerance. The
degree then says how many real roots there can be, and no root with a zero imaginary part, of either
sign, stays complex. -/
theorem complexRoots_solve_conjugate :
    ((p.solve maths tolerance).solution.complexRoots = [] ∨
      ∃ z w, (p.solve maths tolerance).solution.complexRoots = [z, w] ∧
        w.re = z.re ∧ w.im = -z.im ∧
        ¬ z.im.abs ≤ tolerance.bound ∧ ¬ w.im.abs ≤ tolerance.bound) ∧
    (∀ degree, p.degree? = some degree →
      (p.solve maths tolerance).solution.realRoots.length ∈ degree.realRootCounts) ∧
    ∀ z ∈ (p.solve maths tolerance).solution.complexRoots, (z.im == 0) = false := by
  have hpair := complexRoots_solve_eq maths tolerance p
  have hbeyond (z : ComplexNum Float) (hz : Solution.isNearlyReal tolerance.bound z = false) :
      ¬ z.im.abs ≤ tolerance.bound := of_decide_eq_false hz
  refine ⟨?_, ?_, ?_⟩
  · rcases hpair with h | ⟨z, h, hz⟩
    · exact Or.inl h
    · refine Or.inr ⟨z, z.conj, h, rfl, rfl, hbeyond z hz, hbeyond z.conj ?_⟩
      rwa [Solution.isNearlyReal_conj]
  · intro degree hdegree
    have hsize := size_solve maths tolerance p hdegree
    rw [Solution.size] at hsize
    -- all roots are counted by the degree, and none or two of them are complex
    rcases hpair with h | ⟨z, h, -⟩ <;> rw [h] at hsize <;> cases degree <;>
      simp only [List.length_nil, List.length_cons, Degree.power_linear, Degree.power_quadratic,
        Degree.power_cubic, Degree.realRootCounts, List.mem_cons, List.not_mem_nil] at hsize ⊢ <;>
      omega
  · intro w hw
    have hfar : Solution.isNearlyReal tolerance.bound w = false := by
      rcases hpair with h | ⟨z, h, hz⟩
      · rw [h] at hw
        cases hw
      · rw [h] at hw
        rcases List.mem_pair.1 hw with rfl | rfl
        · exact hz
        · rwa [Solution.isNearlyReal_conj]
    by_contra hzero
    rw [Solution.isNearlyReal_of_im_beq_zero tolerance (Bool.not_eq_false _ ▸ hzero)] at hfar
    cases hfar

end Coefficients

end EquationRoots
