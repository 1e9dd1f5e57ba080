import EquationRoots.Proofs.Exact.Factorization

/-!
# Exact linear and quadratic roots

In exact arithmetic the linear root and the two quadratic roots give the linear factors of their
polynomial. For the quadratic formula it is enough to know the sum and the product of the roots.
-/

set_option autoImplicit false

namespace EquationRoots

open Polynomial Solution

/-- The linear factor of the linear root. -/
theorem factorProduct_linearRoot {c : ℝ} (hc : c ≠ 0) (d : ℝ) :
    C (c : ℂ) * factorProduct [((@linearRoot ℝ Scalar.real c d : ℝ) : ℂ)] =
      C (c : ℂ) * X + C (d : ℂ) := by
  have hroot : (c : ℂ) * ((-d / c : ℝ) : ℂ) = -d := by
    push_cast
    rw [mul_div_cancel₀ _ (Complex.ofReal_ne_zero.2 hc)]
  rw [real_linearRoot, factorProduct, List.map_singleton, List.prod_singleton, mul_sub, ← C_mul,
    hroot, C_neg, sub_neg_eq_add]

/-- Two numbers with the sum and the product of the roots give the factors. -/
theorem mul_factorProduct_pair {a b c z w : ℂ} (hsum : a * (z + w) = -b) (hprod : a * (z * w) = c) :
    C a * factorProduct [z, w] = C a * X ^ 2 + C b * X + C c := by
  have hb : b = -(a * (z + w)) := by rw [hsum, neg_neg]
  simp only [factorProduct, List.map_cons, List.map_nil, List.prod_cons, List.prod_nil, mul_one, hb,
    ← hprod, C_neg, C_mul, C_add]
  ring

section

variable {a b c : ℝ} (ha : a ≠ 0)

include ha

/-- Real roots: sum and product of the smaller and the larger one. -/
theorem factorProduct_realRoots {root : ℝ} (hroot : root * root = b * b - 4 * a * c) :
    C (a : ℂ) * factorProduct
        [((min ((-b - root) / (2 * a)) ((-b + root) / (2 * a)) : ℝ) : ℂ),
          ((max ((-b - root) / (2 * a)) ((-b + root) / (2 * a)) : ℝ) : ℂ)] =
      C (a : ℂ) * X ^ 2 + C (b : ℂ) * X + C (c : ℂ) := by
  apply mul_factorProduct_pair
  · rw [← Complex.ofReal_add, min_add_max, ← Complex.ofReal_mul, ← Complex.ofReal_neg]
    congr 1
    field_simp
    ring
  · rw [← Complex.ofReal_mul, min_mul_max, ← Complex.ofReal_mul]
    congr 1
    field_simp
    linear_combination -hroot

/-- Complex roots: sum and product of the pair. -/
theorem factorProduct_pair {root : ℝ} (hroot : root * root = -(b * b - 4 * a * c)) :
    C (a : ℂ) * factorProduct
        [⟨-b / (2 * a), -(root / (2 * a))⟩, ⟨-b / (2 * a), root / (2 * a)⟩] =
      C (a : ℂ) * X ^ 2 + C (b : ℂ) * X + C (c : ℂ) := by
  apply mul_factorProduct_pair <;> apply Complex.ext <;>
    simp only [Complex.mul_re, Complex.mul_im, Complex.add_re, Complex.add_im, Complex.neg_re,
      Complex.neg_im, Complex.ofReal_re, Complex.ofReal_im]
  · field_simp
    ring
  · ring
  · field_simp
    linear_combination a * hroot
  · ring

/-- In exact arithmetic the quadratic formula finds both factors. -/
theorem factorProduct_quadraticRoots :
    C (a : ℂ) * factorProduct ((@QuadraticRoots.toList ℝ Scalar.real
        (@quadraticRoots ℝ Scalar.real a b c)).map ComplexNum.toComplex) =
      C (a : ℂ) * X ^ 2 + C (b : ℂ) * X + C (c : ℂ) := by
  rcases lt_or_ge (b * b - 4 * a * c) 0 with h | h
  · rw [real_quadraticRoots_of_neg h]
    refine factorProduct_pair ha ?_
    rw [Real.mul_self_sqrt (abs_nonneg _), abs_of_neg h]
  · rw [real_quadraticRoots_of_nonneg h]
    simp only [QuadraticRoots.toList, List.map_cons, List.map_nil, ComplexNum.toComplex_ofReal]
    exact factorProduct_realRoots ha (Real.mul_self_sqrt h)

end

end EquationRoots
