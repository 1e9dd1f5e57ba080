import EquationRoots.Proofs.Binary64.Accuracy
import EquationRoots.Proofs.Overflow.Cubic

/-!
# The trigonometric formula finds numbers

Wherever the trigonometric formula is used it finds three numbers, which may be infinite. The sign
of `q³ + r²` alone keeps "not a number" away from every step: the linear coefficient of the
depressed polynomial is negative, so that both radicands are not negative; the cosine of the angle
is a number, and clamping makes it an argument of the inverse cosine; and the shift is finite, so
that it never meets an infinite amplitude.

Nothing is asked of the inverse cosine but a finite angle (`Elementary.HasFiniteAngles`). However
large the angle is, full turns are too small to make it overflow.

- `Coefficients.isNaN_trigonometricRoot`: each of the three roots is a number.
- `Coefficients.trigonometric_yieldsNumbers`: what the branch yields.
-/

set_option autoImplicit false

namespace EquationRoots

open Binary64
open scoped Scalar

/-- Angles and cosines as the trigonometric formula needs them: the inverse cosine is finite from
`-1` to `1`, and the cosine of a finite angle is finite and not zero. -/
structure Elementary.HasFiniteAngles (maths : Elementary Float) : Prop where
  isFinite_acos : ∀ x, x.isFinite = true → |toReal x| ≤ 1 → (maths.acos x).isFinite = true
  isFinite_cos : ∀ x, x.isFinite = true → (maths.cos x).isFinite = true
  cos_ne_zero : ∀ x, x.isFinite = true → toReal (maths.cos x) ≠ 0

/-- The documented ranges and special values are more than what is needed. -/
theorem Elementary.IsLawful.hasFiniteAngles {maths : Elementary Float} (hm : maths.IsLawful) :
    maths.HasFiniteAngles where
  isFinite_acos := hm.isFinite_acos
  isFinite_cos x hx := isFinite_of_toReal_ne_zero (hm.cos_ne_zero x hx)
  cos_ne_zero := hm.cos_ne_zero

namespace Coefficients

variable {maths : Elementary Float} {p : Coefficients Float}

/-- The third of a finite angle is finite, also after full turns. -/
theorem isFinite_third {angle : Float} (h : angle.isFinite = true) {k : Nat} (hk : k ≤ 2) :
    ((angle - Scalar.ofNat 2 * Scalar.pi * Scalar.ofNat k) / Scalar.ofNat 3).isFinite = true := by
  have htwo : IsWithin (Scalar.ofNat 2) 1 := isWithin_numeral (i := 1) (by norm_num) le_rfl
  have hcount : IsWithin (Scalar.ofNat k) 1 := isWithin_numeral (i := 1) (by omega) hk
  have hturns : IsWithin (Scalar.ofNat 2 * Scalar.pi * Scalar.ofNat k) 4 :=
    (htwo.mul isWithin_pi (by norm_num) (by norm_num)).mul hcount (by norm_num) (by norm_num)
  have hdiff := isFinite_sub_of_isWithin h (hturns.mono (by norm_num))
  have hlarge : IsWithin (angle - Scalar.ofNat 2 * Scalar.pi * Scalar.ofNat k) 1024 :=
    ⟨hdiff, (abs_toReal_lt _).le⟩
  have hthree : (2 : ℝ) ^ (1 : ℤ) ≤ |toReal (Scalar.ofNat 3)| := by
    rw [toReal_numeral (by norm_num)]
    norm_num
  exact (hlarge.div hthree (by norm_num) (by norm_num)).isFinite

/-- The angle is finite. -/
theorem isFinite_angle (hm : maths.HasFiniteAngles) (ha : p.a.isFinite = true)
    (h : p.reducedDiscriminant < 0) : (p.angle maths).isFinite = true := by
  obtain ⟨hr, -⟩ := isBelow_reducedQ h
  have hcosine := isNaN_angleCosine (isBelow_depressedP ha h) (isWithin_depressedQ ha hr)
  -- clamping makes the argument of the inverse cosine legitimate, whatever it was before
  obtain ⟨hclampf, hclamp⟩ := abs_clamp_le hcosine
  exact hm.isFinite_acos _ hclampf hclamp

/-- Each of the three roots is a number. -/
theorem isNaN_trigonometricRoot (hm : maths.HasFiniteAngles) (ha : p.a.isFinite = true)
    (h : p.reducedDiscriminant < 0) {k : Nat} (hk : k ≤ 2) :
    (p.trigonometricRoot maths (Scalar.ofNat k)).isNaN = false := by
  obtain ⟨hr, -⟩ := isBelow_reducedQ h
  have hcos := hm.cos_ne_zero _ (isFinite_third (isFinite_angle hm ha h) hk)
  have hproduct := isNaN_mul_of_ne_zero (isNaN_amplitude (isBelow_depressedP ha h)) hcos
  exact isNaN_sub_of_isFinite_right hproduct (isFinite_shift ha (isFinite_of_mul hr).1)

theorem isNaN_of_mem_trigonometricRoots (hm : maths.HasFiniteAngles) (ha : p.a.isFinite = true)
    (h : p.reducedDiscriminant < 0) {x : Float} (hx : x ∈ p.trigonometricRoots maths) :
    x.isNaN = false := by
  simp only [trigonometricRoots, List.mem_cons, List.not_mem_nil, or_false] at hx
  rcases hx with rfl | rfl | rfl
  · exact isNaN_trigonometricRoot hm ha h (k := 0) (by omega)
  · exact isNaN_trigonometricRoot hm ha h (k := 1) (by omega)
  · exact isNaN_trigonometricRoot hm ha h (k := 2) le_rfl

/-- The trigonometric branch yields numbers. For a finite leading coefficient and a constant
coefficient other than zero, a negative `q³ + r²` leads to the trigonometric branch. There the
linear coefficient of the depressed polynomial is negative, the amplitude is a number and the shift
is finite, and none of the three roots is "not a number". No bound on the coefficients is needed,
and they may overflow or underflow on the way. -/
theorem trigonometric_yieldsNumbers (hm : maths.HasFiniteAngles) (ha : p.a.isFinite = true)
    (hd : (p.d != 0) = true) (h : p.reducedDiscriminant < 0) :
    p.cubicRoots maths = ⟨.trigonometric p.reducedQ p.reducedR,
        (p.trigonometricRoots maths).map .ofReal⟩ ∧
      p.depressedP < 0 ∧ p.amplitude.isNaN = false ∧ p.shift.isFinite = true ∧
      ∀ x ∈ p.trigonometricRoots maths, x.isNaN = false := by
  have hzero : ¬ (p.d == 0) = true := by
    rwa [bne, Bool.not_eq_true', ← Bool.not_eq_true] at hd
  have hp := isBelow_depressedP ha h
  have hneg : p.depressedP < 0 :=
    lt_zero_iff.2 (hp.imp_right fun hlt => ⟨hlt.1, hlt.2.trans (by simp)⟩)
  obtain ⟨hr, -⟩ := isBelow_reducedQ h
  refine ⟨(if_neg hzero).trans (if_pos h), hneg, isNaN_amplitude hp,
    isFinite_shift ha (isFinite_of_mul hr).1, ?_⟩
  intro x hx
  exact isNaN_of_mem_trigonometricRoots hm ha h hx

end Coefficients

/-- A table of an inverse cosine and of the cosines that the roots of `x³ - 3x + 1` come from. The
cube root is tabulated where it is the number itself: at zeros, at `1` and `-1`, at infinities and
at "not a number". -/
def Elementary.tabulated : Elementary Float where
  cbrt := id
  cos x :=
    if x == 0.6981317007977319 then 0.766044443118978
    else if x == -1.3962634015954636 then 0.17364817766693041
    else if x == -3.4906585039886586 then -0.9396926207859085
    else 1
  acos x := if x == -0.5 then 2.0943951023931957 else 0

/-- The angles of the table are finite, and are between zero and half a turn. -/
theorem Elementary.acos_tabulated (x : Float) :
    (Elementary.tabulated.acos x).isFinite = true ∧
      (0 : Float) ≤ Elementary.tabulated.acos x ∧ Elementary.tabulated.acos x ≤ Scalar.pi := by
  unfold tabulated
  dsimp only
  split_ifs <;> decide +kernel

theorem Elementary.isLawful_tabulated : Elementary.tabulated.IsLawful where
  cbrt_nan := rfl
  cbrt_inf _ := rfl
  isFinite_cbrt _ h := h
  abs_cbrt_le _ _ := le_max_right _ _
  isFinite_acos x _ _ := (acos_tabulated x).1
  acos_mem x _ _ := by
    obtain ⟨hf, hzero, hpi⟩ := acos_tabulated x
    have hnumeral : (0 : Float).isFinite = true := by decide +kernel
    have htoReal : toReal (0 : Float) = 0 := by
      rw [show (0 : Float) = Scalar.ofNat 0 from rfl, toReal_numeral (by norm_num), Nat.cast_zero]
    rw [le_iff hnumeral hf, htoReal] at hzero
    rw [le_iff hf isWithin_pi.1] at hpi
    exact ⟨hzero, hpi⟩
  cos_ne_zero x _ := by
    unfold tabulated
    dsimp only
    split_ifs <;> exact toReal_ne_zero_of_bne (by decide +kernel) (by decide +kernel)

namespace Coefficients

/-- The polynomial `x³ - 3x + 1`. -/
theorem trigonometric_yieldsNumbers_cube :
    (⟨1, 0, -3, 1⟩ : Coefficients Float).reducedDiscriminant < 0 ∧
      (⟨1, 0, -3, 1⟩ : Coefficients Float).trigonometricRoots .tabulated =
        [1.532088886237956, 0.34729635533386083, -1.879385241571817] ∧
      ∀ x ∈ (⟨1, 0, -3, 1⟩ : Coefficients Float).trigonometricRoots .tabulated,
        x.isNaN = false := by
  have hneg : (⟨1, 0, -3, 1⟩ : Coefficients Float).reducedDiscriminant < 0 := by decide +kernel
  obtain ⟨-, -, -, -, hroots⟩ := trigonometric_yieldsNumbers (p := ⟨1, 0, -3, 1⟩)
    Elementary.isLawful_tabulated.hasFiniteAngles (by decide +kernel) (by decide +kernel) hneg
  exact ⟨hneg, by decide +kernel, hroots⟩

/-- The amplitude can overflow, and the roots are infinite then. -/
example : (⟨1e-100, 0, -1e250, 1⟩ : Coefficients Float).reducedDiscriminant < 0 ∧
    (⟨1e-100, 0, -1e250, 1⟩ : Coefficients Float).amplitude.isInf = true := by decide +kernel

end Coefficients

end EquationRoots
