import EquationRoots.Proofs.Binary64.Order
import EquationRoots.Proofs.Roots.Conjugate

/-!
# Coercion and its tolerance

Coercion moves the roots within a tolerance to the real ones. On any solution it is a stable
partition that loses nothing, and two coercions do the work of one with the larger tolerance, up to
the order of the real roots (`Solution.coerce_composes`).

The formulas find real roots first and a conjugate pair last. On their solutions the order does not
change either: a wider tolerance coerces what a narrower one has left, which is the pair or nothing
(`Coefficients.solution_solve_eq_coerce`, `Coefficients.solve_widened`). Nor does it matter whether
real roots are listed as such or as complex numbers, so that a quadratic polynomial is solved alike
on its own and as a factor of a cubic one (`Coefficients.solve_withoutConstant`).
-/

set_option autoImplicit false

namespace EquationRoots

open Binary64
open Float (nan)
open scoped Scalar

/-- What satisfies the first test, followed by what only satisfies the second one. -/
theorem filter_append_filter_perm {α : Type} (p q : α → Bool) (xs : List α) :
    (xs.filter p ++ (xs.filter fun x => !p x).filter q).Perm (xs.filter fun x => p x || q x) := by
  have hfirst : (xs.filter fun x => p x || q x).filter p = xs.filter p := by
    rw [List.filter_filter]
    apply List.filter_congr
    intro x _
    cases p x <;> simp
  have hsecond : (xs.filter fun x => p x || q x).filter (fun x => !p x) =
      (xs.filter fun x => !p x).filter q := by
    rw [List.filter_filter, List.filter_filter]
    apply List.filter_congr
    intro x _
    cases p x <;> simp
  rw [← hfirst, ← hsecond]
  exact List.filter_append_perm p _

/-! ## Two tolerances for one root -/

namespace Solution

variable {bound first second : Float} {z : ComplexNum Float}

theorem isNearlyReal_iff : isNearlyReal bound z = true ↔ z.im.abs ≤ bound := decide_eq_true_iff

/-- A root within the larger tolerance is within one of the two. -/
theorem isNearlyReal_larger (first second : Float) (z : ComplexNum Float) :
    isNearlyReal (Scalar.larger first second) z =
      (isNearlyReal first z || isNearlyReal second z) := by
  rw [Bool.eq_iff_iff, Bool.or_eq_true, isNearlyReal_iff, isNearlyReal_iff, isNearlyReal_iff]
  exact le_larger_iff _ _ _

/-- A root within a tolerance is within a wider one. -/
theorem isNearlyReal_of_le (h : first ≤ second) (hz : isNearlyReal first z = true) :
    isNearlyReal second z = true := by
  rw [isNearlyReal_iff] at hz ⊢
  exact Binary64.le_trans hz h

/-! ## Coercion of any solution -/

/-- The first solution becomes the second one when its roots within a bound turn real. Their real
parts follow the real roots, in order, and all other roots stay complex, in order; so does a root
whose imaginary part is "not a number", whatever the bound. The error stays, and no root is lost. -/
structure TurnsReal (bound : Float) (s s' : Solution Float) : Prop where
  realRoots : s'.realRoots =
    s.realRoots ++ (s.complexRoots.filter fun z => z.im.abs ≤ bound).map ComplexNum.re
  complexRoots : s'.complexRoots = s.complexRoots.filter fun z => ¬ z.im.abs ≤ bound
  undefined : ∀ z ∈ s.complexRoots, z.im.isNaN = true → z ∈ s'.complexRoots
  error : s'.error = s.error
  size : s'.size = s.size

variable (s : Solution Float)

theorem turnsReal_coerce (bound : Float) : s.TurnsReal bound (s.coerce bound) where
  realRoots := s.realRoots_coerce bound
  complexRoots := by
    rw [complexRoots_coerce]
    apply List.filter_congr
    intro z _
    rw [isNearlyReal, decide_not]
    rfl
  undefined := by
    intro z hz hnan
    have hfar : isNearlyReal bound z = false := by
      rw [Bool.eq_false_iff]
      intro hnear
      rw [isNaN_im_of_isNearlyReal hnear] at hnan
      cases hnan
    rw [complexRoots_coerce, List.mem_filter, hfar]
    exact ⟨hz, rfl⟩
  error := s.error_coerce bound
  size := s.size_coerce bound

theorem coerce_eq (bound : Float) :
    s.coerce bound = ⟨s.realRoots ++ (s.complexRoots.filter (isNearlyReal bound)).map ComplexNum.re,
      s.complexRoots.filter fun z => !isNearlyReal bound z, s.error⟩ := by
  rw [← realRoots_coerce, ← complexRoots_coerce]
  rfl

/-- Without a root within the tolerance nothing changes. -/
theorem coerce_eq_self {s : Solution Float}
    (h : ∀ z ∈ s.complexRoots, isNearlyReal bound z = false) : s.coerce bound = s := by
  have hnone : s.complexRoots.filter (isNearlyReal bound) = [] := by
    rw [List.filter_eq_nil_iff]
    intro z hz
    simp [h z hz]
  have hall : (s.complexRoots.filter fun z => !isNearlyReal bound z) = s.complexRoots := by
    rw [List.filter_eq_self]
    intro z hz
    simp [h z hz]
  rw [coerce_eq, hnone, hall, List.map_nil, List.append_nil]

/-- What one tolerance has left is beyond any narrower one. -/
theorem coerce_coerce_of_imp
    (h : ∀ z : ComplexNum Float, isNearlyReal second z = true → isNearlyReal first z = true) :
    (s.coerce first).coerce second = s.coerce first := by
  apply coerce_eq_self
  intro z hz
  rw [complexRoots_coerce, List.mem_filter] at hz
  rw [Bool.eq_false_iff]
  intro hnear
  rw [h z hnear] at hz
  cases hz.2

/-- Two coercions leave the complex roots that one with the larger tolerance leaves. -/
theorem complexRoots_coerce_coerce (first second : Float) :
    ((s.coerce first).coerce second).complexRoots =
      (s.coerce (Scalar.larger first second)).complexRoots := by
  rw [complexRoots_coerce, complexRoots_coerce, complexRoots_coerce, List.filter_filter]
  apply List.filter_congr
  intro z _
  rw [isNearlyReal_larger, Bool.not_or, Bool.and_comm]

/-- Two coercions find the real roots that one with the larger tolerance finds, those within the
first tolerance in front. -/
theorem realRoots_coerce_coerce_perm (first second : Float) :
    ((s.coerce first).coerce second).realRoots.Perm
      (s.coerce (Scalar.larger first second)).realRoots := by
  have hsplit := filter_append_filter_perm (isNearlyReal first) (isNearlyReal second)
    s.complexRoots
  rw [realRoots_coerce, realRoots_coerce, complexRoots_coerce, realRoots_coerce,
    List.append_assoc, ← List.map_append]
  have hlarger : s.complexRoots.filter (isNearlyReal (Scalar.larger first second)) =
      s.complexRoots.filter fun z => isNearlyReal first z || isNearlyReal second z := by
    apply List.filter_congr
    intro z _
    exact isNearlyReal_larger first second z
  rw [hlarger]
  exact (hsplit.map ComplexNum.re).append_left s.realRoots

/-- Coercion is a stable partition that loses nothing and composes. Nothing is asked of the
roots, the error or the tolerances, which may be negative, infinite or "not a number". Two coercions
amount to one with the larger tolerance, up to the order of the real roots; repeating a coercion,
or coercing again within a narrower tolerance, changes nothing. -/
theorem coerce_composes (first second : Float) :
    s.TurnsReal first (s.coerce first) ∧
      ((s.coerce first).coerce second).complexRoots =
        (s.coerce (Scalar.larger first second)).complexRoots ∧
      ((s.coerce first).coerce second).realRoots.Perm
        (s.coerce (Scalar.larger first second)).realRoots ∧
      (s.coerce first).coerce first = s.coerce first ∧
      (second ≤ first → (s.coerce first).coerce second = s.coerce first) := by
  refine ⟨s.turnsReal_coerce first, s.complexRoots_coerce_coerce first second,
    s.realRoots_coerce_coerce_perm first second, ?_, ?_⟩
  · apply coerce_coerce_of_imp
    intro z hz
    exact hz
  · intro hle
    apply coerce_coerce_of_imp
    intro z hz
    exact isNearlyReal_of_le hle hz

/-- Roots within the tolerance `0.5`, at its boundary, beyond it, and with an imaginary part that is
"not a number"; the second tolerance is negative. -/
theorem coerce_composes_mixed :
    ((-1 : Float) ≤ 0.5) ∧
      (Solution.mk [5] [⟨1, 2⟩, ⟨2, -0.5⟩, ⟨3, nan⟩, ⟨4, 0⟩] (some .missingVariable)).coerce 0.5 =
        ⟨[5, 2, 4], [⟨1, 2⟩, ⟨3, nan⟩], some .missingVariable⟩ ∧
      (((Solution.mk [5] [⟨1, 2⟩, ⟨2, -0.5⟩, ⟨3, nan⟩, ⟨4, 0⟩]
          (some .missingVariable)).coerce 0.5).coerce (-1)).realRoots = [5, 2, 4] := by
  have hle : (-1 : Float) ≤ 0.5 := by decide
  have hcoerce : (Solution.mk [5] [⟨1, 2⟩, ⟨2, -0.5⟩, ⟨3, nan⟩, ⟨4, 0⟩]
      (some .missingVariable)).coerce (0.5 : Float) =
        ⟨[5, 2, 4], [⟨1, 2⟩, ⟨3, nan⟩], some .missingVariable⟩ := by decide +kernel
  refine ⟨hle, hcoerce, ?_⟩
  rw [(coerce_composes _ 0.5 (-1)).2.2.2.2 hle, hcoerce]

end Solution

/-! ## Two tolerances for one polynomial -/

/-- The tolerance `0.5`. -/
def Tolerance.half : Tolerance Float := ⟨0.5, by decide, by decide⟩

namespace PairedRoots

open Solution

/-- What a wider tolerance moves is what a narrower one moves, followed by the pair or nothing. -/
theorem filter_isNearlyReal_append {narrow wide : Tolerance Float}
    (hle : narrow.bound ≤ wide.bound) {roots : List (ComplexNum Float)} (h : PairedRoots roots) :
    roots.filter (isNearlyReal narrow.bound) ++
        (roots.filter fun z => !isNearlyReal narrow.bound z).filter (isNearlyReal wide.bound) =
      roots.filter (isNearlyReal wide.bound) := by
  induction h with
  | nil => rfl
  | pair z =>
    cases hz : isNearlyReal narrow.bound z with
    | false => simp [isNearlyReal_conj, hz]
    | true => simp [isNearlyReal_conj, hz, isNearlyReal_of_le hle hz]
  | real x _ ih => simpa [isNearlyReal_ofReal] using ih

end PairedRoots

/-- What is left within the narrower tolerance can be coerced again within the wider one. -/
theorem Solution.coerce_coerce_of_pairedRoots {narrow wide : Tolerance Float}
    (hle : narrow.bound ≤ wide.bound) {s : Solution Float} (h : PairedRoots s.complexRoots) :
    (s.coerce narrow.bound).coerce wide.bound = s.coerce wide.bound := by
  have hcomplex : ((s.coerce narrow.bound).coerce wide.bound).complexRoots =
      (s.coerce wide.bound).complexRoots := by
    rw [complexRoots_coerce_coerce, complexRoots_coerce, complexRoots_coerce]
    apply List.filter_congr
    intro z _
    rw [isNearlyReal_larger]
    cases hz : isNearlyReal narrow.bound z with
    | false => rfl
    | true => rw [isNearlyReal_of_le hle hz, Bool.or_self]
  rw [coerce_eq, ← complexRoots_coerce, hcomplex, realRoots_coerce, complexRoots_coerce,
    List.append_assoc, ← List.map_append, h.filter_isNearlyReal_append hle, error_coerce,
    coerce_eq s wide.bound]

/-- The second solution is the first one, but for a conjugate pair that may have turned real. The
real roots stay in front, the complex roots stay or none is left, the error stays, and no root is
lost. What is new is the real part of the pair, once for each of its numbers. -/
structure Solution.WidensTo (s s' : Solution Float) : Prop where
  realRoots : s.realRoots <+: s'.realRoots
  complexRoots : s'.complexRoots = s.complexRoots ∨ s'.complexRoots = []
  error : s'.error = s.error
  size : s'.size = s.size
  added : s' ≠ s → ∃ z : ComplexNum Float, s.complexRoots = [z, z.conj] ∧
    s'.realRoots = s.realRoots ++ [z.re, z.re]

/-- Coercion of a pair or of nothing. -/
theorem Solution.widensTo_coerce {s : Solution Float} (bound : Float)
    (h : s.complexRoots = [] ∨ ∃ z, s.complexRoots = [z, z.conj]) :
    s.WidensTo (s.coerce bound) := by
  by_cases hnear : ∃ z ∈ s.complexRoots, isNearlyReal bound z = true
  · obtain ⟨w, hw, hwnear⟩ := hnear
    obtain hnil | ⟨z, hz⟩ := h
    · rw [hnil] at hw
      cases hw
    -- one number of the pair is nearly real, and so is the other one
    have hznear : isNearlyReal bound z = true := by
      rw [hz] at hw
      rcases List.mem_pair.1 hw with rfl | rfl
      · exact hwnear
      · rwa [isNearlyReal_conj] at hwnear
    have hreal : (s.coerce bound).realRoots = s.realRoots ++ [z.re, z.re] := by
      rw [realRoots_coerce, hz]
      simp [hznear, isNearlyReal_conj]
    have hcomplex : (s.coerce bound).complexRoots = [] := by
      rw [complexRoots_coerce, hz]
      simp [hznear, isNearlyReal_conj]
    exact
      { realRoots := hreal ▸ List.prefix_append _ _
        complexRoots := Or.inr hcomplex
        error := s.error_coerce bound
        size := s.size_coerce bound
        added := fun _ => ⟨z, hz, hreal⟩ }
  · have hself : s.coerce bound = s := by
      apply coerce_eq_self
      intro z hz
      rw [Bool.eq_false_iff]
      intro hzn
      exact hnear ⟨z, hz, hzn⟩
    rw [hself]
    exact
      { realRoots := List.prefix_refl _
        complexRoots := Or.inl rfl
        error := rfl
        size := rfl
        added := fun hne => absurd rfl hne }

namespace Coefficients

section Widened

variable (maths : Elementary Float) {narrow wide : Tolerance Float}
  (hle : narrow.bound ≤ wide.bound) (p : Coefficients Float)

include hle

/-- A wider tolerance coerces what a narrower one has left. -/
theorem solution_solve_eq_coerce :
    (p.solve maths wide).solution = (p.solve maths narrow).solution.coerce wide.bound := by
  cases hdegree : p.degree? with
  | none =>
    rw [solve_of_degree?_eq_none hdegree, solve_of_degree?_eq_none hdegree]
    rfl
  | some degree =>
    rw [solution_solve hdegree, solution_solve hdegree,
      Solution.coerce_coerce_of_pairedRoots hle (pairedRoots_rootsByDegree maths p degree)]

/-- Widening the tolerance only turns the complex pair real. The real roots that were found
within the narrower tolerance come first; where the solutions differ, the real part of the pair
follows twice. -/
theorem solve_widened :
    (p.solve maths narrow).solution.WidensTo (p.solve maths wide).solution := by
  rw [solution_solve_eq_coerce maths hle p]
  apply Solution.widensTo_coerce
  obtain hnil | ⟨z, hz, -⟩ := complexRoots_solve_eq maths narrow p
  · exact Or.inl hnil
  · exact Or.inr ⟨z, hz⟩

end Widened

/-- The polynomial `x³ - 2 x² + 1.25 x` with the roots `0` and `1 ± 0.5 i`: the pair turns real at
the boundary of the wider tolerance. -/
theorem solve_widened_atBoundary :
    Tolerance.zero.bound ≤ Tolerance.half.bound ∧
      ((⟨1, -2, 1.25, 0⟩ : Coefficients Float).solve .platform .zero).solution =
        ⟨[0], [⟨1, -0.5⟩, ⟨1, 0.5⟩], none⟩ ∧
      ((⟨1, -2, 1.25, 0⟩ : Coefficients Float).solve .platform .half).solution =
        ⟨[0, 1, 1], [], none⟩ ∧
      ((⟨1, -2, 1.25, 0⟩ : Coefficients Float).solve .platform .zero).solution.WidensTo
        ((⟨1, -2, 1.25, 0⟩ : Coefficients Float).solve .platform .half).solution := by
  have hle : Tolerance.zero.bound ≤ Tolerance.half.bound := by decide
  exact ⟨hle, by decide +kernel, by decide +kernel,
    solve_widened .platform hle ⟨1, -2, 1.25, 0⟩⟩

/-! ## A root at zero -/

section ZeroRoot

variable (maths : Elementary Float) (tolerance : Tolerance Float)

/-- A real root that is given as a complex number is brought back in front. -/
theorem coerce_ofReal_cons (x : Float) (roots : List (ComplexNum Float)) :
    (Solution.ofComplex (.ofReal x :: roots)).coerce tolerance.bound =
      ⟨x :: ((Solution.ofComplex roots).coerce tolerance.bound).realRoots,
        ((Solution.ofComplex roots).coerce tolerance.bound).complexRoots, none⟩ := by
  simp [Solution.coerce_eq, Solution.ofComplex, Solution.isNearlyReal_ofReal]

/-- Coercion hides whether the roots of a quadratic polynomial were given as complex numbers. -/
theorem coerce_rootsByDegree_quadratic (p : Coefficients Float) :
    (p.rootsByDegree maths .quadratic).coerce tolerance.bound =
      (Solution.ofComplex (quadraticRoots p.b p.c p.d).toList).coerce tolerance.bound := by
  simp only [rootsByDegree]
  cases quadraticRoots p.b p.c p.d with
  | real lower upper =>
    rw [QuadraticRoots.toList_real, coerce_ofReal_cons, coerce_ofReal_cons]
    rfl
  | pair first second => rfl

/-- The polynomial divided by the variable. What is left over is the constant coefficient. -/
def quotient (p : Coefficients Float) : Coefficients Float := ⟨0, p.a, p.b, p.c⟩

/-- A cubic polynomial without a constant coefficient is solved like its quadratic factor, with
the positive zero as the first real root. The quadratic formula lists its real roots as such, and
the cubic one lists them as complex numbers; coercion brings them back in order, "not a number"
included. -/
theorem solve_withoutConstant (p : Coefficients Float) (ha : (p.a != 0) = true)
    (hd : (p.d == 0) = true) :
    (p.solve maths tolerance).solution.realRoots =
        (0.0 : Float) :: (p.quotient.solve maths tolerance).solution.realRoots ∧
      (p.solve maths tolerance).solution.complexRoots =
        (p.quotient.solve maths tolerance).solution.complexRoots ∧
      (p.solve maths tolerance).solution.error = none ∧
      (p.quotient.solve maths tolerance).solution.error = none := by
  have hzero : ((0 : Float) != 0) = false := by decide
  have hcubic : p.degree? = some .cubic := by simp [degree?, ha]
  have hquadratic : p.quotient.degree? = some .quadratic := by
    simp [degree?, quotient, ha, hzero]
  have hroots : p.rootsByDegree maths .cubic =
      .ofComplex (.ofReal 0 :: (quadraticRoots p.a p.b p.c).toList) := by
    simp [rootsByDegree, cubicRoots, hd]
  have hfactor : (p.quotient.solve maths tolerance).solution =
      (Solution.ofComplex (quadraticRoots p.a p.b p.c).toList).coerce tolerance.bound :=
    (solution_solve hquadratic).trans (coerce_rootsByDegree_quadratic maths tolerance _)
  rw [solution_solve hcubic, hroots, coerce_ofReal_cons, hfactor]
  exact ⟨rfl, rfl, rfl, rfl⟩

end ZeroRoot

/-- The polynomial `x³ - 2 x² + 1.25 x - 0`, whose pair is at the boundary of the tolerance. -/
theorem solve_withoutConstant_negativeZero :
    ((1 : Float) != 0) = true ∧ ((-0.0 : Float) == 0) = true ∧
      ((⟨0, 1, -2, 1.25⟩ : Coefficients Float).solve .platform .half).solution.realRoots =
        [1, 1] ∧
      ((⟨1, -2, 1.25, -0.0⟩ : Coefficients Float).solve .platform .half).solution.realRoots =
        [0.0, 1, 1] := by
  have hfactor : ((⟨0, 1, -2, 1.25⟩ : Coefficients Float).solve .platform
      .half).solution.realRoots = [1, 1] := by decide +kernel
  refine ⟨by decide, by decide, hfactor, ?_⟩
  have hcubic := (solve_withoutConstant .platform .half ⟨1, -2, 1.25, -0.0⟩ (by decide)
    (by decide)).1
  rw [hcubic, quotient, hfactor]

end Coefficients

end EquationRoots
