import Mathlib
import EquationRoots.Solve

/-!
# Real numbers as scalars

The root formulas are written for any `Scalar`. The real numbers are one, with exact operations and
the real functions (`Scalar.real`), and each formula is restated here in the usual notation. The
scalar structure is passed explicitly: as an instance it would compete with the field structure of
the real numbers.
-/

set_option autoImplicit false

namespace EquationRoots

/-- Exact arithmetic on the real numbers. -/
noncomputable abbrev Scalar.real : Scalar ℝ where
  beq x y := decide (x = y)
  ofNat n := n
  abs x := |x|
  sqrt := Real.sqrt
  pi := Real.pi
  isFinite _ := true
  decideLt := inferInstance
  decideLe := inferInstance

/-- The real cube root. -/
noncomputable def cubeRoot (x : ℝ) : ℝ := if 0 ≤ x then x ^ (1 / 3 : ℝ) else -(-x) ^ (1 / 3 : ℝ)

theorem cubeRoot_pow_three (x : ℝ) : cubeRoot x ^ 3 = x := by
  have key : ∀ y : ℝ, 0 ≤ y → (y ^ (1 / 3 : ℝ)) ^ 3 = y := by
    intro y hy
    rw [← Real.rpow_natCast, ← Real.rpow_mul hy]
    norm_num
  unfold cubeRoot
  split_ifs with h
  · exact key x h
  · rw [Odd.neg_pow (by decide), key (-x) (by linarith), neg_neg]

/-- The real cube root, cosine and inverse cosine. -/
noncomputable def Elementary.exact : Elementary ℝ := ⟨cubeRoot, Real.cos, Real.arccos⟩

theorem real_ofNat_zero : @Scalar.ofNat ℝ Scalar.real 0 = 0 := Nat.cast_zero

theorem real_ofNat_one : @Scalar.ofNat ℝ Scalar.real 1 = 1 := Nat.cast_one

/-- The tolerance within which only zero counts as zero. -/
noncomputable def Tolerance.exact : @Tolerance ℝ Scalar.real :=
  @Tolerance.mk ℝ Scalar.real 0 rfl (by
    show ¬ (0 : ℝ) < @Scalar.ofNat ℝ Scalar.real 0
    rw [real_ofNat_zero]
    exact lt_irrefl 0)

/-! ## Operations by the order -/

section

variable {x y : ℝ}

theorem real_beq_zero_iff : @BEq.beq ℝ Scalar.real.toBEq x (@Scalar.ofNat ℝ Scalar.real 0) = true ↔
    x = 0 := by
  rw [real_ofNat_zero]
  exact decide_eq_true_iff

theorem real_isUndefined : @Scalar.isUndefined ℝ Scalar.real x = false := by
  show (!decide (x = x)) = false
  simp

theorem real_smaller : @Scalar.smaller ℝ Scalar.real x y = min x y := by
  unfold Scalar.smaller
  rw [real_isUndefined]
  simp only [Bool.false_eq_true, or_false]
  split_ifs with h
  · exact (min_eq_right (le_of_lt h)).symm
  · exact (min_eq_left (not_lt.1 h)).symm

theorem real_larger : @Scalar.larger ℝ Scalar.real x y = max x y := by
  unfold Scalar.larger
  rw [real_isUndefined]
  simp only [Bool.false_eq_true, or_false]
  split_ifs with h
  · exact (max_eq_right (le_of_lt h)).symm
  · exact (max_eq_left (not_lt.1 h)).symm

theorem real_clamp (h : -1 ≤ x) (h' : x ≤ 1) :
    @Scalar.clamp ℝ Scalar.real (-1) 1 x = x := by
  unfold Scalar.clamp
  rw [if_neg (not_lt.2 h), if_neg (not_lt.2 h')]

end

/-! ## Formulas -/

theorem real_linearRoot (c d : ℝ) : @linearRoot ℝ Scalar.real c d = -d / c := rfl

theorem real_lt_zero_iff {x : ℝ} :
    (@LT.lt ℝ Scalar.real.toLT x (@OfNat.ofNat ℝ 0 (@Scalar.instOfNat ℝ Scalar.real 0))) ↔
      x < 0 := by
  show x < @Scalar.ofNat ℝ Scalar.real 0 ↔ _
  rw [real_ofNat_zero]

theorem real_quadraticRoots_of_neg {a b c : ℝ} (h : b * b - 4 * a * c < 0) :
    @quadraticRoots ℝ Scalar.real a b c =
      .pair ⟨-b / (2 * a), -(√|b * b - 4 * a * c| / (2 * a))⟩
        ⟨-b / (2 * a), √|b * b - 4 * a * c| / (2 * a)⟩ :=
  if_pos (real_lt_zero_iff.2 h)

theorem real_quadraticRoots_of_nonneg {a b c : ℝ} (h : 0 ≤ b * b - 4 * a * c) :
    @quadraticRoots ℝ Scalar.real a b c =
      .real (min ((-b - √(b * b - 4 * a * c)) / (2 * a)) ((-b + √(b * b - 4 * a * c)) / (2 * a)))
        (max ((-b - √(b * b - 4 * a * c)) / (2 * a)) ((-b + √(b * b - 4 * a * c)) / (2 * a))) := by
  rw [← real_smaller, ← real_larger]
  exact if_neg (mt real_lt_zero_iff.1 (not_lt.2 h))

theorem real_cubed (x : ℝ) : @cubed ℝ Scalar.real x = x ^ 3 := by
  show x * x * x = x ^ 3
  ring

namespace Coefficients

variable (p : Coefficients ℝ)

theorem real_reducedQ :
    @reducedQ ℝ Scalar.real p = (3 * p.a * p.c - p.b * p.b) / (9 * p.a * p.a) := rfl

theorem real_reducedR : @reducedR ℝ Scalar.real p =
    (-2 * p.b ^ 3 + 9 * p.a * p.b * p.c - 27 * p.a * p.a * p.d) / (54 * p.a ^ 3) := by
  rw [← real_cubed, ← real_cubed]
  rfl

theorem real_reducedDiscriminant : @reducedDiscriminant ℝ Scalar.real p =
    @reducedQ ℝ Scalar.real p ^ 3 + @reducedR ℝ Scalar.real p ^ 2 := by
  rw [← real_cubed, sq]
  rfl

theorem real_shift : @shift ℝ Scalar.real p = p.b / (3 * p.a) := rfl

theorem real_depressedP :
    @depressedP ℝ Scalar.real p = (3 * p.a * p.c - p.b * p.b) / (3 * p.a * p.a) := rfl

theorem real_depressedQ : @depressedQ ℝ Scalar.real p =
    (2 * p.b ^ 3 - 9 * p.a * p.b * p.c + 27 * p.a * p.a * p.d) / (27 * p.a ^ 3) := by
  rw [← real_cubed, ← real_cubed]
  rfl

theorem real_amplitude :
    @amplitude ℝ Scalar.real p = 2 * √(-@depressedP ℝ Scalar.real p / 3) := rfl

theorem real_angleCosine : @angleCosine ℝ Scalar.real p =
    3 * @depressedQ ℝ Scalar.real p / (2 * @depressedP ℝ Scalar.real p) *
      √(-3 / @depressedP ℝ Scalar.real p) := rfl

theorem real_angle : @angle ℝ Scalar.real .exact p =
    Real.arccos (@Scalar.clamp ℝ Scalar.real (-1) 1 (@angleCosine ℝ Scalar.real p)) := by
  show Real.arccos (@Scalar.clamp ℝ Scalar.real (-@Scalar.ofNat ℝ Scalar.real 1)
    (@Scalar.ofNat ℝ Scalar.real 1) _) = _
  rw [real_ofNat_one]

theorem real_trigonometricRoot (k : ℝ) : @trigonometricRoot ℝ Scalar.real .exact p k =
    @amplitude ℝ Scalar.real p *
      Real.cos ((@angle ℝ Scalar.real .exact p - 2 * Real.pi * k) / 3) -
        @shift ℝ Scalar.real p := rfl

theorem real_cardanoS : @cardanoS ℝ Scalar.real .exact p =
    cubeRoot (@reducedR ℝ Scalar.real p + √(@reducedDiscriminant ℝ Scalar.real p)) := rfl

theorem real_cardanoT : @cardanoT ℝ Scalar.real .exact p =
    cubeRoot (@reducedR ℝ Scalar.real p - √(@reducedDiscriminant ℝ Scalar.real p)) := rfl

theorem real_cardanoRoots : @cardanoRoots ℝ Scalar.real .exact p =
    [@ComplexNum.ofReal ℝ Scalar.real (@cardanoS ℝ Scalar.real .exact p +
        @cardanoT ℝ Scalar.real .exact p - @shift ℝ Scalar.real p),
      ⟨-(@cardanoS ℝ Scalar.real .exact p + @cardanoT ℝ Scalar.real .exact p) / 2 -
          @shift ℝ Scalar.real p,
        (@cardanoS ℝ Scalar.real .exact p - @cardanoT ℝ Scalar.real .exact p) * √3 / 2⟩,
      ⟨-(@cardanoS ℝ Scalar.real .exact p + @cardanoT ℝ Scalar.real .exact p) / 2 -
          @shift ℝ Scalar.real p,
        -((@cardanoS ℝ Scalar.real .exact p - @cardanoT ℝ Scalar.real .exact p) * √3 / 2)⟩] := rfl

/-- The angles of the three roots differ by thirds of a turn. -/
theorem real_trigonometricRoots : @trigonometricRoots ℝ Scalar.real .exact p =
    [@amplitude ℝ Scalar.real p * Real.cos (@angle ℝ Scalar.real .exact p / 3) -
        @shift ℝ Scalar.real p,
      @amplitude ℝ Scalar.real p *
        Real.cos (@angle ℝ Scalar.real .exact p / 3 - 2 * Real.pi / 3) - @shift ℝ Scalar.real p,
      @amplitude ℝ Scalar.real p *
        Real.cos (@angle ℝ Scalar.real .exact p / 3 - 4 * Real.pi / 3) -
          @shift ℝ Scalar.real p] := by
  have hroots : @trigonometricRoots ℝ Scalar.real .exact p =
      [@trigonometricRoot ℝ Scalar.real .exact p 0, @trigonometricRoot ℝ Scalar.real .exact p 1,
        @trigonometricRoot ℝ Scalar.real .exact p 2] := by
    rw [← real_ofNat_zero, ← real_ofNat_one]
    rfl
  rw [hroots, real_trigonometricRoot, real_trigonometricRoot, real_trigonometricRoot]
  generalize @angle ℝ Scalar.real .exact p = θ
  rw [show (θ - 2 * Real.pi * 0) / 3 = θ / 3 by ring,
    show (θ - 2 * Real.pi * 1) / 3 = θ / 3 - 2 * Real.pi / 3 by ring,
    show (θ - 2 * Real.pi * 2) / 3 = θ / 3 - 4 * Real.pi / 3 by ring]

variable {p}

theorem real_cubicRoots_of_d_eq_zero (h : p.d = 0) :
    @cubicRoots ℝ Scalar.real .exact p =
      ⟨.factoredZeroRoot, @ComplexNum.ofReal ℝ Scalar.real 0 ::
        @QuadraticRoots.toList ℝ Scalar.real (@quadraticRoots ℝ Scalar.real p.a p.b p.c)⟩ := by
  rw [← real_ofNat_zero]
  exact if_pos (real_beq_zero_iff.2 h)

theorem real_cubicRoots_of_neg (hd : p.d ≠ 0) (h : @reducedDiscriminant ℝ Scalar.real p < 0) :
    @cubicRoots ℝ Scalar.real .exact p =
      ⟨.trigonometric (@reducedQ ℝ Scalar.real p) (@reducedR ℝ Scalar.real p),
        (@trigonometricRoots ℝ Scalar.real .exact p).map (@ComplexNum.ofReal ℝ Scalar.real)⟩ :=
  (if_neg (mt real_beq_zero_iff.1 hd)).trans (if_pos (real_lt_zero_iff.2 h))

theorem real_cubicRoots_of_nonneg (hd : p.d ≠ 0) (h : 0 ≤ @reducedDiscriminant ℝ Scalar.real p) :
    @cubicRoots ℝ Scalar.real .exact p =
      ⟨.cardano (@reducedQ ℝ Scalar.real p) (@reducedR ℝ Scalar.real p),
        @cardanoRoots ℝ Scalar.real .exact p⟩ :=
  (if_neg (mt real_beq_zero_iff.1 hd)).trans (if_neg (mt real_lt_zero_iff.1 (not_lt.2 h)))

end Coefficients

end EquationRoots
