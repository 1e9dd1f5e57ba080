import EquationRoots.Proofs.Binary64.Accuracy
import EquationRoots.Proofs.Binary64.Literals
import EquationRoots.Proofs.Exact.Real

/-!
# Accurate libraries of mathematics

A library of mathematics is accurate when its cube root is within a few units in the last place and
its cosines are within as many roundoffs of one (`Elementary.IsAccurate`). One whose results are
within one rounding of the exact ones is (`Elementary.isAccurate_rounded`).
-/

set_option autoImplicit false

namespace EquationRoots

open Binary64
open scoped Scalar

/-- The cube root has a small relative error, the cosine and the inverse cosine have a small error,
and all three are finite. -/
structure Elementary.IsAccurate (maths : Elementary Float) : Prop where
  cbrt : ∀ x, x.isFinite = true → (maths.cbrt x).isFinite = true ∧
    |toReal (maths.cbrt x) - cubeRoot (toReal x)| ≤ 8 * roundoff * |cubeRoot (toReal x)|
  cos : ∀ x, x.isFinite = true → (maths.cos x).isFinite = true ∧
    |toReal (maths.cos x) - Real.cos (toReal x)| ≤ 8 * roundoff
  acos : ∀ x, x.isFinite = true → |toReal x| ≤ 1 → (maths.acos x).isFinite = true ∧
    |toReal (maths.acos x) - Real.arccos (toReal x)| ≤ 16 * roundoff

/-! ## Cube roots -/

/-- A bound on a number bounds its cube root. -/
theorem abs_cubeRoot_le {x B : ℝ} (hB : 0 ≤ B) (h : |x| ≤ B ^ 3) : |cubeRoot x| ≤ B := by
  refine le_of_pow_le_pow_left₀ (n := 3) (by norm_num) hB ?_
  rwa [← abs_pow, cubeRoot_pow_three]

/-- The cube root of a multiple by a third power. -/
theorem cubeRoot_mul_pow_three (x c : ℝ) : cubeRoot (x * c ^ 3) = cubeRoot x * c := by
  apply (Odd.strictMono_pow (R := ℝ) (n := 3) (by decide)).injective
  simp only
  rw [mul_pow, cubeRoot_pow_three, cubeRoot_pow_three]

/-- Third powers of numbers that nearly cancel. -/
theorem abs_add_pow_three_le (u v : ℝ) : |u + v| ^ 3 ≤ 4 * |u ^ 3 + v ^ 3| := by
  have hfactor : u ^ 3 + v ^ 3 = (u + v) * (u ^ 2 - u * v + v ^ 2) := by ring
  have hquarter : |u + v| ^ 2 / 4 ≤ u ^ 2 - u * v + v ^ 2 := by
    rw [sq_abs]
    nlinarith [sq_nonneg (u - v)]
  have hnonneg : 0 ≤ u ^ 2 - u * v + v ^ 2 := le_trans (by positivity) hquarter
  rw [hfactor, abs_mul, abs_of_nonneg hnonneg]
  nlinarith [mul_le_mul_of_nonneg_left hquarter (abs_nonneg (u + v))]

/-- The third power of an accurate cube root. -/
theorem abs_pow_three_sub_le {s c : ℝ} (h : |s - c| ≤ 8 * roundoff * |c|) :
    |s ^ 3 - c ^ 3| ≤ 25 * roundoff * |c ^ 3| := by
  have hu := roundoff_pos
  have hu' := roundoff_le
  have hs : |s| ≤ 101 / 100 * |c| := by
    have htri := abs_sub_abs_le_abs_sub s c
    nlinarith [abs_nonneg c]
  have hfactor : s ^ 3 - c ^ 3 = (s - c) * (s ^ 2 + s * c + c ^ 2) := by ring
  have hsum : |s ^ 2 + s * c + c ^ 2| ≤ 31 / 10 * |c| ^ 2 := by
    refine (abs_add_three _ _ _).trans ?_
    rw [abs_mul, abs_pow, abs_pow]
    nlinarith [abs_nonneg s, abs_nonneg c, mul_le_mul hs hs (abs_nonneg s) (by positivity),
      mul_le_mul_of_nonneg_right hs (abs_nonneg c)]
  rw [hfactor, abs_mul, abs_pow]
  calc |s - c| * |s ^ 2 + s * c + c ^ 2| ≤ 8 * roundoff * |c| * (31 / 10 * |c| ^ 2) :=
        mul_le_mul h hsum (abs_nonneg _) (by positivity)
    _ = 248 / 10 * (roundoff * |c| ^ 3) := by ring
    _ ≤ 25 * roundoff * |c| ^ 3 := by
        nlinarith [mul_nonneg hu.le (pow_nonneg (abs_nonneg c) 3)]

/-! ## Rounded results -/

/-- The literal with one hundred and fifty places below the magnitude of a number. -/
noncomputable def decimalBelow (r : ℝ) : Literal := ⟨⌊|r| * ((10 ^ 150 : ℕ) : ℝ)⌋₊, 150⟩

/-- The literal is close to the magnitude of the number. -/
theorem abs_toReal_decimalBelow_sub_le (r : ℝ) :
    (decimalBelow r).toReal ≤ |r| ∧ |(decimalBelow r).toReal - (|r|)| ≤ 2 ^ (-450 : ℤ) := by
  have hpos : (0 : ℝ) < ((10 ^ 150 : ℕ) : ℝ) := by exact_mod_cast Nat.pow_pos (by decide)
  have hfloor := Nat.floor_le (mul_nonneg (abs_nonneg r) hpos.le)
  have hceil := Nat.lt_floor_add_one (|r| * ((10 ^ 150 : ℕ) : ℝ))
  have hvalue : (decimalBelow r).toReal =
      (⌊|r| * ((10 ^ 150 : ℕ) : ℝ)⌋₊ : ℝ) / ((10 ^ 150 : ℕ) : ℝ) := by
    rw [Literal.toReal, decimalBelow, Nat.cast_pow, Nat.cast_ofNat]
  have hle : (decimalBelow r).toReal ≤ |r| := by
    rw [hvalue, div_le_iff₀ hpos]
    exact hfloor
  refine ⟨hle, ?_⟩
  rw [abs_sub_comm, abs_of_nonneg (sub_nonneg.2 hle), hvalue]
  have hone : |r| - (⌊|r| * ((10 ^ 150 : ℕ) : ℝ)⌋₊ : ℝ) / ((10 ^ 150 : ℕ) : ℝ) ≤
      1 / ((10 ^ 150 : ℕ) : ℝ) := by
    rw [sub_le_iff_le_add, ← add_div, le_div_iff₀ hpos]
    linarith
  refine hone.trans ?_
  rw [Nat.cast_pow, Nat.cast_ofNat, zpow_neg, one_div]
  refine inv_anti₀ (by positivity) ?_
  calc (2 : ℝ) ^ (450 : ℤ) = (2 ^ 3) ^ 150 := (zpow_natCast 2 450).trans (pow_mul 2 3 150)
    _ ≤ 10 ^ 150 := pow_le_pow_left₀ (by norm_num) (by norm_num) 150

/-- A float close to a number. -/
noncomputable def closeFloat (r : ℝ) : Float :=
  if 0 ≤ r then (decimalBelow r).toFloat else -(decimalBelow r).toFloat

/-- The float is within one rounding of the number. -/
theorem abs_toReal_closeFloat_sub_le {r : ℝ} (hr : |r| ≤ 2 ^ (1023 : ℤ)) :
    (closeFloat r).isFinite = true ∧
      |toReal (closeFloat r) - r| ≤ roundoff * |r| + 2 ^ (-449 : ℤ) := by
  obtain ⟨hle, hclose⟩ := abs_toReal_decimalBelow_sub_le r
  have hnonneg := toReal_literal_nonneg (decimalBelow r)
  have habs : |(decimalBelow r).toReal| ≤ |r| := by rwa [abs_of_nonneg hnonneg]
  obtain ⟨hf, hround⟩ := (isRounding_toFloat (decimalBelow r)).abs_sub_le (habs.trans hr)
  have hmagnitude : |toReal (decimalBelow r).toFloat - (|r|)| ≤
      roundoff * |r| + 2 ^ (-449 : ℤ) := by
    have hdouble : (2 : ℝ) ^ (-449 : ℤ) = 2 ^ (-450 : ℤ) + 2 ^ (-450 : ℤ) := by
      rw [← mul_two, ← zpow_add_one₀ two_ne_zero]
      norm_num
    have hleast : (2 : ℝ) ^ (-1075 : ℤ) ≤ 2 ^ (-450 : ℤ) :=
      zpow_le_zpow_right₀ one_le_two (by norm_num)
    have hscaled := mul_le_mul_of_nonneg_left habs roundoff_pos.le
    rw [hdouble]
    refine (abs_sub_le _ _ _).trans ((add_le_add hround hclose).trans ?_)
    linarith
  unfold closeFloat
  split_ifs with h0
  · rw [abs_of_nonneg h0] at hmagnitude ⊢
    exact ⟨hf, hmagnitude⟩
  · have hneg : -toReal (decimalBelow r).toFloat - r =
        -(toReal (decimalBelow r).toFloat - |r|) := by
      rw [abs_of_neg (not_le.1 h0)]
      ring
    rw [isFinite_neg, toReal_neg, hneg, abs_neg]
    exact ⟨hf, hmagnitude⟩

theorem toReal_closeFloat_zero : toReal (closeFloat 0) = 0 := by
  have hzero : (decimalBelow 0).toReal = 0 := by simp [Literal.toReal, decimalBelow]
  have hround := isRounding_toFloat (decimalBelow 0)
  have hf := (abs_toReal_closeFloat_sub_le (r := 0) (by rw [abs_zero]; positivity)).1
  rw [closeFloat, if_pos le_rfl] at hf ⊢
  rw [hround.toReal_eq_of_isFinite hf, hzero, nearest_zero]

/-- A library of mathematics whose results at finite arguments are within one rounding of the exact
ones: they are cut off after one hundred and fifty places and then rounded. -/
noncomputable def Elementary.rounded : Elementary Float where
  cbrt x := closeFloat (cubeRoot (toReal x))
  cos x := closeFloat (Real.cos (toReal x))
  acos x := closeFloat (Real.arccos (toReal x))

/-- The magnitude of the cube root of a float other than zero. -/
theorem le_abs_cubeRoot_toReal {x : Float} (hx : toReal x ≠ 0) :
    2 ^ (-358 : ℤ) ≤ |cubeRoot (toReal x)| := by
  refine le_of_pow_le_pow_left₀ (n := 3) (by norm_num) (abs_nonneg _) ?_
  rw [← abs_pow, cubeRoot_pow_three, ← zpow_natCast, ← zpow_mul]
  exact le_abs_toReal hx

/-- The cube root of a float is far from the end of the range. -/
theorem abs_cubeRoot_toReal_le (x : Float) : |cubeRoot (toReal x)| ≤ 2 ^ (1023 : ℤ) := by
  have hroot : |cubeRoot (toReal x)| ≤ 2 ^ (342 : ℤ) := by
    refine abs_cubeRoot_le (by positivity) ((abs_toReal_lt x).le.trans ?_)
    rw [← zpow_natCast, ← zpow_mul]
    exact zpow_le_zpow_right₀ one_le_two (by norm_num)
  exact hroot.trans (zpow_le_zpow_right₀ one_le_two (by norm_num))

/-- The error of a cube root is relative. -/
theorem abs_toReal_closeFloat_cubeRoot_sub_le (x : Float) :
    |toReal (closeFloat (cubeRoot (toReal x))) - cubeRoot (toReal x)| ≤
      8 * roundoff * |cubeRoot (toReal x)| := by
  have hclose := (abs_toReal_closeFloat_sub_le (abs_cubeRoot_toReal_le x)).2
  rcases eq_or_ne (toReal x) 0 with h0 | h0
  · have hzero : cubeRoot 0 = 0 := by
      rw [← pow_eq_zero_iff (n := 3) (by norm_num), cubeRoot_pow_three]
    rw [h0, hzero, toReal_closeFloat_zero, sub_zero, abs_zero, mul_zero]
  · -- the cube root is large against the places that are cut off
    have hscaled := mul_le_mul_of_nonneg_left (le_abs_cubeRoot_toReal h0) roundoff_pos.le
    have hpow : (2 : ℝ) ^ (-449 : ℤ) ≤ roundoff * 2 ^ (-358 : ℤ) := by
      rw [roundoff_eq, ← zpow_add₀ two_ne_zero]
      exact zpow_le_zpow_right₀ one_le_two (by norm_num)
    have hsmall := hpow.trans hscaled
    have hnonneg := mul_nonneg roundoff_pos.le (abs_nonneg (cubeRoot (toReal x)))
    linarith

/-- The error at a number of small magnitude is a few roundoffs. -/
theorem abs_toReal_closeFloat_sub_le_of_le_four {r : ℝ} (hr : |r| ≤ 4) :
    (closeFloat r).isFinite = true ∧ |toReal (closeFloat r) - r| ≤ 5 * roundoff := by
  have hlarge : (4 : ℝ) ≤ 2 ^ (1023 : ℤ) :=
    (by norm_num : (4 : ℝ) ≤ 2 ^ (2 : ℤ)).trans (zpow_le_zpow_right₀ one_le_two (by norm_num))
  have hcut : (2 : ℝ) ^ (-449 : ℤ) ≤ roundoff := by
    rw [roundoff_eq]
    exact zpow_le_zpow_right₀ one_le_two (by norm_num)
  obtain ⟨hf, hclose⟩ := abs_toReal_closeFloat_sub_le (hr.trans hlarge)
  have hscaled := mul_le_mul_of_nonneg_left hr roundoff_pos.le
  exact ⟨hf, hclose.trans (by linarith)⟩

/-- Results within one rounding of the exact ones are accurate. -/
theorem Elementary.isAccurate_rounded : Elementary.rounded.IsAccurate := by
  have hu := roundoff_pos
  refine ⟨fun x _ => ?_, fun x _ => ?_, fun x _ _ => ?_⟩
  · exact ⟨(abs_toReal_closeFloat_sub_le (abs_cubeRoot_toReal_le x)).1,
      abs_toReal_closeFloat_cubeRoot_sub_le x⟩
  · have hle : |Real.cos (toReal x)| ≤ 4 := (Real.abs_cos_le_one _).trans (by norm_num)
    obtain ⟨hf, hclose⟩ := abs_toReal_closeFloat_sub_le_of_le_four hle
    exact ⟨hf, hclose.trans (by linarith)⟩
  · have hle : |Real.arccos (toReal x)| ≤ 4 := by
      rw [abs_of_nonneg (Real.arccos_nonneg _)]
      exact (Real.arccos_le_pi _).trans Real.pi_le_four
    obtain ⟨hf, hclose⟩ := abs_toReal_closeFloat_sub_le_of_le_four hle
    exact ⟨hf, hclose.trans (by linarith)⟩

end EquationRoots
