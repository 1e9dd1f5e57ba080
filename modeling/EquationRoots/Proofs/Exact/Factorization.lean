import EquationRoots.Proofs.Exact.Real

/-!
# Factorizations

A solution factors a polynomial if the leading coefficient times the linear factors of all its roots
is the polynomial, and if its real and its complex roots are the real and the other roots of the
polynomial, each as often as its multiplicity says (`Solution.Factors`). The second half follows
from the first where no root with an imaginary part of zero counts as complex (`Factors.of_prod`).
-/

set_option autoImplicit false

namespace EquationRoots

open Polynomial

/-- The complex number with the given parts. -/
def ComplexNum.toComplex (z : ComplexNum ℝ) : ℂ := ⟨z.re, z.im⟩

theorem ComplexNum.toComplex_ofReal (x : ℝ) :
    (@ComplexNum.ofReal ℝ Scalar.real x).toComplex = x :=
  Complex.ext rfl real_ofNat_zero

namespace Coefficients

/-- The polynomial with the given coefficients. -/
noncomputable def polynomial (p : Coefficients ℝ) : ℝ[X] :=
  C p.a * X ^ 3 + C p.b * X ^ 2 + C p.c * X + C p.d

/-- The first one of the coefficients `a`, `b` and `c` that is not zero, if there is one. -/
noncomputable def leading (p : Coefficients ℝ) : ℝ :=
  if p.a ≠ 0 then p.a else if p.b ≠ 0 then p.b else p.c

/-- The polynomial over the complex numbers. -/
noncomputable def complexPolynomial (p : Coefficients ℝ) : ℂ[X] :=
  C (p.a : ℂ) * X ^ 3 + C (p.b : ℂ) * X ^ 2 + C (p.c : ℂ) * X + C (p.d : ℂ)

theorem map_polynomial (p : Coefficients ℝ) :
    p.polynomial.map Complex.ofRealHom = p.complexPolynomial := by
  simp [polynomial, complexPolynomial]

theorem leading_ne_zero {p : Coefficients ℝ} (h : p.a ≠ 0 ∨ p.b ≠ 0 ∨ p.c ≠ 0) :
    p.leading ≠ 0 := by
  unfold leading
  split_ifs with ha hb
  · exact ha
  · exact hb
  · exact (h.resolve_left ha).resolve_left hb

end Coefficients

namespace Solution

/-- All roots of a solution, the real ones first. -/
noncomputable def exactRoots (s : Solution ℝ) : List ℂ :=
  (@roots ℝ Scalar.real s).map ComplexNum.toComplex

/-- The product of the linear factors of some roots. -/
noncomputable def factorProduct (roots : List ℂ) : ℂ[X] := (roots.map fun z => X - C z).prod

/-- The solution is the factorization of a polynomial. The polynomial is the product of the linear
factors; the real roots are those of the polynomial, and the complex roots are its other ones, both
with their multiplicities. -/
structure Factors (s : Solution ℝ) (p : Coefficients ℝ) : Prop where
  prod_eq : C (p.leading : ℂ) * factorProduct s.exactRoots = p.complexPolynomial
  realRoots_eq : (s.realRoots : Multiset ℝ) = p.polynomial.roots
  complexRoots_eq : (s.complexRoots.map ComplexNum.toComplex : Multiset ℂ) =
    p.complexPolynomial.roots.filter (·.im ≠ 0)

theorem exactRoots_eq (s : Solution ℝ) : s.exactRoots =
    s.realRoots.map (fun x : ℝ => (x : ℂ)) ++ s.complexRoots.map ComplexNum.toComplex := by
  simp [exactRoots, roots, ComplexNum.toComplex_ofReal]

theorem factorProduct_cons (z : ℂ) (zs : List ℂ) :
    factorProduct (z :: zs) = (X - C z) * factorProduct zs := by
  simp [factorProduct]

theorem factorProduct_perm {zs ws : List ℂ} (h : zs.Perm ws) :
    factorProduct zs = factorProduct ws :=
  (h.map _).prod_eq

/-- The roots of a product of linear factors. -/
theorem roots_factorProduct {lead : ℂ} (h : lead ≠ 0) (zs : List ℂ) :
    (C lead * factorProduct zs).roots = zs := by
  rw [roots_C_mul _ h, factorProduct, ← Multiset.prod_coe, ← Multiset.map_coe,
    roots_multiset_prod_X_sub_C]

/-! ## Coercion without tolerance -/

theorem real_isNearlyReal_iff (z : ComplexNum ℝ) :
    @isNearlyReal ℝ Scalar.real 0 z = true ↔ z.im = 0 := by
  show decide (|z.im| ≤ 0) = true ↔ _
  rw [decide_eq_true_iff, abs_nonpos_iff]

theorem im_ne_zero_of_mem_coerce (s : Solution ℝ) {z : ComplexNum ℝ}
    (hz : z ∈ (@coerce ℝ Scalar.real s 0).complexRoots) : z.im ≠ 0 := by
  rw [@complexRoots_coerce ℝ Scalar.real, List.mem_filter] at hz
  intro h0
  have hnear := (real_isNearlyReal_iff z).2 h0
  rw [hnear] at hz
  exact absurd hz.2 (by decide)

/-- Coercion without tolerance only changes the order of the roots. -/
theorem exactRoots_coerce_perm (s : Solution ℝ) :
    (@coerce ℝ Scalar.real s 0).exactRoots.Perm s.exactRoots := by
  -- a root that is moved loses an imaginary part of zero, that is nothing
  have hnear : ((s.complexRoots.filter (@isNearlyReal ℝ Scalar.real 0)).map ComplexNum.re).map
      (fun x : ℝ => (x : ℂ)) =
        (s.complexRoots.filter (@isNearlyReal ℝ Scalar.real 0)).map ComplexNum.toComplex := by
    rw [List.map_map]
    refine List.map_congr_left fun z hz => ?_
    exact Complex.ext rfl ((real_isNearlyReal_iff z).1 (List.mem_filter.1 hz).2).symm
  rw [exactRoots_eq, exactRoots_eq, @realRoots_coerce ℝ Scalar.real,
    @complexRoots_coerce ℝ Scalar.real, List.map_append, hnear, List.append_assoc,
    ← List.map_append]
  exact ((List.filter_append_perm _ _).map _).append_left _

/-! ## From factors to roots -/

variable {s : Solution ℝ} {p : Coefficients ℝ}

theorem filter_exactRoots (hcomplex : ∀ z ∈ s.complexRoots, z.im ≠ 0) :
    s.exactRoots.filter (·.im ≠ 0) = s.complexRoots.map ComplexNum.toComplex := by
  rw [exactRoots_eq, List.filter_append, List.filter_eq_nil_iff.2, List.filter_eq_self.2,
    List.nil_append]
  · intro z hz
    obtain ⟨w, hw, rfl⟩ := List.mem_map.1 hz
    exact decide_eq_true (hcomplex w hw)
  · intro z hz
    obtain ⟨x, -, rfl⟩ := List.mem_map.1 hz
    simp

theorem count_exactRoots (hcomplex : ∀ z ∈ s.complexRoots, z.im ≠ 0) (x : ℝ) :
    s.exactRoots.count (x : ℂ) = s.realRoots.count x := by
  have hnone : (s.complexRoots.map ComplexNum.toComplex).count (x : ℂ) = 0 := by
    refine List.count_eq_zero.2 fun h => ?_
    obtain ⟨z, hz, heq⟩ := List.mem_map.1 h
    exact hcomplex z hz (congrArg Complex.im heq)
  rw [exactRoots_eq, List.count_append, hnone, add_zero,
    List.count_map_of_injective _ _ Complex.ofReal_injective]

/-- A product of linear factors tells all roots and their multiplicities. -/
theorem Factors.of_prod (hlead : p.leading ≠ 0)
    (hprod : C (p.leading : ℂ) * factorProduct s.exactRoots = p.complexPolynomial)
    (hcomplex : ∀ z ∈ s.complexRoots, z.im ≠ 0) : s.Factors p where
  prod_eq := hprod
  realRoots_eq := by
    classical
    -- multiplicities are compared over the complex numbers, where all factors are linear
    have hroots := roots_factorProduct (Complex.ofReal_ne_zero.2 hlead) s.exactRoots
    rw [hprod] at hroots
    refine Multiset.ext.2 fun x => ?_
    have hmult :
        p.polynomial.rootMultiplicity x = p.complexPolynomial.rootMultiplicity (x : ℂ) := by
      rw [← Coefficients.map_polynomial]
      exact eq_rootMultiplicity_map Complex.ofReal_injective x
    rw [count_roots, hmult, ← count_roots, hroots, Multiset.coe_count, Multiset.coe_count,
      count_exactRoots hcomplex]
  complexRoots_eq := by
    have hroots := roots_factorProduct (Complex.ofReal_ne_zero.2 hlead) s.exactRoots
    rw [hprod] at hroots
    rw [hroots, Multiset.filter_coe, filter_exactRoots hcomplex]

end Solution

end EquationRoots
