import EquationRoots.Proofs.Binary64.Scalars

/-!
# Accuracy of rounding

One rounding moves a number by at most half a unit in its last place: by `roundoff` relative to the
number, or by half of the least positive float where the number is tiny. `Scale` measures the
numbers of a computation in units `lead ^ i * size ^ j`, and `Scale.Near` says that a float stands
within so many roundoffs of a number of units. Each operation has one rule; along a formula the
rules add up what every rounding contributes.

- `abs_nearest_sub_le_unit`, `abs_nearest_sub_le`: the error of one rounding.
- `Scale.Near.add`, `Scale.Near.sub`, `Scale.Near.mul`, `Scale.Near.div`: the rules.
- `Scale.Near.exists_sqrt`, `Scale.Near.sqrt_one`: what a square root contributes.
-/

set_option autoImplicit false

namespace EquationRoots.Binary64

open scoped Scalar

/-! ## One rounding -/

/-- The relative error of one rounding. -/
noncomputable def roundoff : ℝ := ((2 ^ 53 : ℕ) : ℝ)⁻¹

theorem roundoff_eq : roundoff = 2 ^ (-53 : ℤ) := by
  rw [roundoff, zpow_neg, Nat.cast_pow, Nat.cast_ofNat]
  norm_cast

theorem roundoff_pos : 0 < roundoff := by
  unfold roundoff
  positivity

theorem roundoff_le : roundoff ≤ 1 / 9000000000000000 := by
  unfold roundoff
  norm_num

theorem abs_roundEven_sub_le (z : ℝ) : |(roundEven z : ℝ) - z| ≤ 1 / 2 := by
  have hfloor := Int.floor_le z
  have hceil := Int.lt_floor_add_one z
  unfold roundEven
  split_ifs with hlow hhigh
  · rw [abs_le]
    constructor <;> linarith
  · rw [abs_le]
    push_cast
    constructor <;> linarith
  · -- in the middle either neighbour is half a unit away
    have hmid : z - ⌊z⌋ = 1 / 2 := le_antisymm (not_lt.1 hhigh) (not_lt.1 hlow)
    rcases Int.emod_two_eq_zero_or_one ⌊z⌋ with hmod | hmod
    · rw [hmod, add_zero, abs_le]
      constructor <;> linarith
    · rw [hmod, abs_le]
      push_cast
      constructor <;> linarith

/-- Above the least unit, the unit in the last place is small for the number. -/
theorem unit_le_of_lt {r : ℝ} (hr : r ≠ 0) (h : -1074 < unitExponent r) :
    unit r ≤ 2 * (roundoff * |r|) := by
  have hexp : unitExponent r = Int.log 2 |r| - 52 := by
    rw [unitExponent] at h ⊢
    omega
  have hlog : (2 : ℝ) ^ Int.log 2 |r| ≤ |r| := by
    exact_mod_cast Int.zpow_log_le_self (b := 2) (by norm_num) (abs_pos.2 hr)
  calc unit r = 2 * (roundoff * 2 ^ Int.log 2 |r|) := by
        rw [unit, hexp, roundoff_eq, ← zpow_add₀ two_ne_zero, ← zpow_one_add₀ two_ne_zero]
        congr 1
        ring
    _ ≤ 2 * (roundoff * |r|) := by
        have := mul_le_mul_of_nonneg_left hlog roundoff_pos.le
        linarith

/-- The unit in the last place is small for the number, or the least one. -/
theorem unit_le {r : ℝ} (hr : r ≠ 0) : unit r ≤ 2 * (roundoff * |r|) + 2 ^ (-1074 : ℤ) := by
  have hleast : (0 : ℝ) < 2 ^ (-1074 : ℤ) := by positivity
  have hscaled := mul_nonneg roundoff_pos.le (abs_nonneg r)
  rcases lt_or_ge (-1074) (unitExponent r) with hlt | hle
  · linarith [unit_le_of_lt hr hlt]
  · have hunit : unit r ≤ 2 ^ (-1074 : ℤ) := zpow_le_zpow_right₀ one_le_two hle
    linarith

/-- One rounding moves a number by half a unit in the last place at most. -/
theorem abs_nearest_sub_le_unit (r : ℝ) : |nearest r - r| ≤ 1 / 2 * unit r := by
  have hunit := unit_pos r
  have hmul : nearest r - r = (roundEven (r / unit r) - r / unit r) * unit r := by
    rw [nearest, sub_mul, div_mul_cancel₀ r hunit.ne']
  rw [hmul, abs_mul, abs_of_pos hunit]
  exact mul_le_mul_of_nonneg_right (abs_roundEven_sub_le _) hunit.le

/-- The error of one rounding, relative to the number or absolute. -/
theorem abs_nearest_sub_le (r : ℝ) : |nearest r - r| ≤ roundoff * |r| + 2 ^ (-1075 : ℤ) := by
  rcases eq_or_ne r 0 with rfl | hr
  · rw [nearest_zero, sub_zero, abs_zero, mul_zero, zero_add]
    positivity
  have hhalf : (2 : ℝ) ^ (-1074 : ℤ) = 2 * 2 ^ (-1075 : ℤ) := by
    rw [← zpow_one_add₀ two_ne_zero]
    norm_num
  linarith [abs_nearest_sub_le_unit r, unit_le hr]

/-- A result of moderate size is finite and close to the exact one. -/
theorem IsRounding.abs_sub_le {r : ℝ} {x : Float} (h : IsRounding r x) (hr : |r| ≤ 2 ^ (1023 : ℤ)) :
    x.isFinite = true ∧ |toReal x - r| ≤ roundoff * |r| + 2 ^ (-1075 : ℤ) := by
  obtain ⟨hf, hx⟩ := h.of_abs_le hr
  exact ⟨hf, hx ▸ abs_nearest_sub_le r⟩

/-- Below `2 ^ 1024` the unit in the last place is that of the largest float at most. -/
theorem unit_le_of_abs_lt {r : ℝ} (h : |r| < 2 ^ (1024 : ℤ)) : unit r ≤ 2 ^ (971 : ℤ) := by
  refine zpow_le_zpow_right₀ one_le_two ?_
  rcases eq_or_ne r 0 with rfl | hr
  · simp [unitExponent]
  · exact unitExponent_le hr (by norm_num) h

/-- A change below half a unit of the largest float does not overflow. -/
theorem isFinite_sub_of_isWithin {x y : Float} (hx : x.isFinite = true) (hy : IsWithin y 969) :
    (x - y).isFinite = true := by
  have hlargest := abs_toReal_le x
  have hchange := hy.2
  have hunit := unit_le_of_abs_lt (r := toReal x - toReal y)
  have hround := abs_nearest_sub_le_unit (toReal x - toReal y)
  have hnearest := abs_sub_abs_le_abs_sub (nearest (toReal x - toReal y)) (toReal x - toReal y)
  have hsum := abs_sub (toReal x) (toReal y)
  have hlt := (isRounding_sub hx hy.1).of_abs_nearest_lt
  -- all bounds are multiples of one power of two
  have h971 : (2 : ℝ) ^ (971 : ℤ) = 4 * 2 ^ (969 : ℤ) := by
    rw [show (971 : ℤ) = 2 + 969 by norm_num, zpow_add₀ two_ne_zero]
    norm_num
  have h1024 : (2 : ℝ) ^ (1024 : ℤ) = 2 ^ 53 * (4 * 2 ^ (969 : ℤ)) := by
    rw [← h971, show (1024 : ℤ) = (53 : ℕ) + 971 by norm_num, zpow_add₀ two_ne_zero, zpow_natCast]
  have hpos : (0 : ℝ) < 2 ^ (969 : ℤ) := by positivity
  rw [h1024] at hunit hlt
  rw [h971] at hunit hlargest
  generalize (2 : ℝ) ^ (969 : ℤ) = m at *
  have hbelow := hunit (by linarith only [hsum, hlargest, hchange, hpos])
  exact (hlt (by linarith only [hnearest, hround, hbelow, hsum, hlargest, hchange, hpos])).1

/-! ## Scales -/

/-- Two magnitudes that a computation is measured in: the leading coefficient of a polynomial, and
the size of its roots. Neither is near the ends of the range of floats. -/
structure Scale where
  lead : ℝ
  size : ℝ
  lead_low : (10 ^ 30)⁻¹ ≤ |lead|
  lead_high : |lead| ≤ 10 ^ 30
  size_low : (10 ^ 21)⁻¹ ≤ size
  size_high : size ≤ 10 ^ 21

/-- Bounds on a number bound its powers. -/
theorem zpow_le_of_abs_le {x : ℝ} {m n : ℕ} (hlow : (10 ^ m)⁻¹ ≤ x) (hhigh : x ≤ 10 ^ m) {i : ℤ}
    (hi : |i| ≤ n) : x ^ i ≤ 10 ^ (m * n) := by
  have hpow : (0 : ℝ) < (10 ^ m)⁻¹ := by positivity
  have hx : 0 < x := hpow.trans_le hlow
  have hinv : x⁻¹ ≤ 10 ^ m := inv_le_of_inv_le₀ (by positivity) hlow
  have hone : (1 : ℝ) ≤ 10 ^ m := one_le_pow₀ (by norm_num)
  have hstep {y : ℝ} (hy : 0 ≤ y) (hle : y ≤ 10 ^ m) {k : ℕ} (hk : k ≤ n) : y ^ k ≤ 10 ^ (m * n) :=
    calc y ^ k ≤ (10 ^ m) ^ k := pow_le_pow_left₀ hy hle k
      _ ≤ (10 ^ m) ^ n := pow_le_pow_right₀ hone hk
      _ = 10 ^ (m * n) := (pow_mul 10 m n).symm
  obtain ⟨k, rfl | rfl⟩ := i.eq_nat_or_neg
  · rw [zpow_natCast]
    exact hstep hx.le hhigh (by rw [Nat.abs_cast] at hi; omega)
  · rw [zpow_neg, zpow_natCast, ← inv_pow]
    exact hstep (inv_pos.2 hx).le hinv (by rw [abs_neg, Nat.abs_cast] at hi; omega)

namespace Scale

variable (S : Scale)

/-- A unit of the scale. -/
noncomputable def weight (i j : ℤ) : ℝ := S.lead ^ i * S.size ^ j

theorem lead_ne_zero : S.lead ≠ 0 := by
  have hpos : (0 : ℝ) < (10 ^ 30)⁻¹ := by positivity
  exact abs_pos.1 (hpos.trans_le S.lead_low)

theorem size_pos : 0 < S.size := lt_of_lt_of_le (by positivity) S.size_low

theorem weight_ne_zero (i j : ℤ) : S.weight i j ≠ 0 :=
  mul_ne_zero (zpow_ne_zero i S.lead_ne_zero) (zpow_ne_zero j S.size_pos.ne')

theorem weight_pos (j : ℤ) : 0 < S.weight 0 j := by
  rw [weight, zpow_zero, one_mul]
  exact zpow_pos S.size_pos j

@[simp] theorem weight_zero : S.weight 0 0 = 1 := by simp [weight]

theorem weight_add (i j i' j' : ℤ) :
    S.weight (i + i') (j + j') = S.weight i j * S.weight i' j' := by
  rw [weight, weight, weight, zpow_add₀ S.lead_ne_zero, zpow_add₀ S.size_pos.ne']
  ring

theorem weight_sub (i j i' j' : ℤ) :
    S.weight (i - i') (j - j') = S.weight i j / S.weight i' j' := by
  rw [weight, weight, weight, zpow_sub₀ S.lead_ne_zero, zpow_sub₀ S.size_pos.ne', div_mul_div_comm]

/-- The units that occur in a computation. -/
def InRange (i j : ℤ) : Prop := |i| ≤ 3 ∧ |j| ≤ 6

@[simp] theorem inRange_iff (i j : ℤ) : InRange i j ↔ |i| ≤ 3 ∧ |j| ≤ 6 := Iff.rfl

theorem abs_weight_le {i j : ℤ} (h : InRange i j) : |S.weight i j| ≤ 2 ^ (720 : ℤ) := by
  have hlead : |S.lead| ^ i ≤ 10 ^ (30 * 3) := zpow_le_of_abs_le S.lead_low S.lead_high h.1
  have hsize : S.size ^ j ≤ 10 ^ (21 * 6) := zpow_le_of_abs_le S.size_low S.size_high h.2
  rw [weight, abs_mul, abs_zpow, abs_zpow, abs_of_pos S.size_pos]
  calc |S.lead| ^ i * S.size ^ j ≤ 10 ^ (30 * 3) * 10 ^ (21 * 6) :=
        mul_le_mul hlead hsize (zpow_nonneg S.size_pos.le j) (by positivity)
    _ = 1000 ^ 72 := by norm_num
    _ ≤ (2 ^ 10) ^ 72 := pow_le_pow_left₀ (by norm_num) (by norm_num) 72
    _ = 2 ^ (720 : ℤ) := (pow_mul 2 10 72).symm.trans (zpow_natCast 2 720).symm

theorem le_abs_weight {i j : ℤ} (h : InRange i j) : 2 ^ (-720 : ℤ) ≤ |S.weight i j| := by
  have hneg : InRange (-i) (-j) := by
    unfold InRange
    rw [abs_neg, abs_neg]
    exact h
  have hle := S.abs_weight_le hneg
  have hinv : S.weight (-i) (-j) = (S.weight i j)⁻¹ := by
    rw [← zero_sub, ← zero_sub, weight_sub, weight_zero, one_div]
  rw [hinv, abs_inv] at hle
  rw [zpow_neg]
  exact inv_le_of_inv_le₀ (abs_pos.2 (S.weight_ne_zero i j)) hle

/-- A moderate number of units is far from the overflow. -/
theorem abs_le_of_abs_le_weight {i j : ℤ} (h : InRange i j) {r B : ℝ} (hB : B ≤ 1001)
    (hr : |r| ≤ B * |S.weight i j|) : |r| ≤ 2 ^ (1023 : ℤ) := by
  have hpow : (2 : ℝ) ^ (1023 : ℤ) = 2 ^ (303 : ℤ) * 2 ^ (720 : ℤ) := by
    rw [← zpow_add₀ two_ne_zero]
    norm_num
  have hbig : B ≤ 2 ^ (303 : ℤ) :=
    calc B ≤ 2 ^ (11 : ℤ) := by
          norm_num
          linarith
      _ ≤ 2 ^ (303 : ℤ) := zpow_le_zpow_right₀ one_le_two (by norm_num)
  rw [hpow]
  exact hr.trans (mul_le_mul hbig (S.abs_weight_le h) (abs_nonneg _) (by positivity))

/-- The least positive float is far below a roundoff of any unit. -/
theorem least_le_weight {i j : ℤ} (h : InRange i j) :
    2 ^ (-1075 : ℤ) ≤ 1 / 4000 * roundoff * |S.weight i j| := by
  have hu := roundoff_pos
  have hpow : (2 : ℝ) ^ (-1075 : ℤ) = 2 ^ (-302 : ℤ) * roundoff * 2 ^ (-720 : ℤ) := by
    rw [roundoff_eq, ← zpow_add₀ two_ne_zero, ← zpow_add₀ two_ne_zero]
    norm_num
  have hsmall : (2 : ℝ) ^ (-302 : ℤ) ≤ 1 / 4000 :=
    (zpow_le_zpow_right₀ one_le_two (by norm_num)).trans
      (by norm_num : (2 : ℝ) ^ (-12 : ℤ) ≤ 1 / 4000)
  rw [hpow]
  exact mul_le_mul (mul_le_mul_of_nonneg_right hsmall hu.le) (S.le_abs_weight h) (by positivity)
    (by positivity)

/-- An error in units and in numbers. -/
theorem abs_div_weight_sub_le_iff {i j : ℤ} {r ρ e : ℝ} :
    |r / S.weight i j - ρ| ≤ e ↔ |r - ρ * S.weight i j| ≤ e * |S.weight i j| := by
  have hW := S.weight_ne_zero i j
  have hdiv : r / S.weight i j - ρ = (r - ρ * S.weight i j) / S.weight i j := by
    rw [sub_div, mul_div_cancel_right₀ ρ hW]
  rw [hdiv, abs_div, div_le_iff₀ (abs_pos.2 hW)]

/-! ## Floats close to a number of units -/

/-- The float is finite and within `e` roundoffs of `ρ` units, where `ρ` is at most `B`. The bound
and the error are moderate. -/
structure Near (x : Float) (i j : ℤ) (ρ B e : ℝ) : Prop where
  isFinite : x.isFinite = true
  close : |toReal x - ρ * S.weight i j| ≤ e * roundoff * |S.weight i j|
  bounded : |ρ| ≤ B
  bound_le : B ≤ 1000
  error_le : e ≤ 1000

namespace Near

variable {S} {x y : Float} {i j i' j' : ℤ} {ρ σ B B' C e e' f : ℝ}

theorem error_nonneg (h : S.Near x i j ρ B e) : 0 ≤ e := by
  have hpos := mul_pos roundoff_pos (abs_pos.2 (S.weight_ne_zero i j))
  have hle := (abs_nonneg _).trans h.close
  rw [mul_assoc] at hle
  exact nonneg_of_mul_nonneg_left hle hpos

theorem bound_nonneg (h : S.Near x i j ρ B e) : 0 ≤ B := (abs_nonneg ρ).trans h.bounded

/-- A float that is close to a number of units, in units. -/
theorem abs_div_sub_le (h : S.Near x i j ρ B e) : |toReal x / S.weight i j - ρ| ≤ e * roundoff :=
  S.abs_div_weight_sub_le_iff.2 h.close

theorem of_abs_div_sub_le (hf : x.isFinite = true)
    (h : |toReal x / S.weight i j - ρ| ≤ e * roundoff) (hρ : |ρ| ≤ B) (hB : B ≤ 1000)
    (he : e ≤ 1000) : S.Near x i j ρ B e :=
  ⟨hf, S.abs_div_weight_sub_le_iff.1 h, hρ, hB, he⟩

/-- A float is exactly as many units as its value says. -/
theorem self (hf : x.isFinite = true) (h : |toReal x / S.weight i j| ≤ B) (hB : B ≤ 1000) :
    S.Near x i j (toReal x / S.weight i j) B 0 :=
  of_abs_div_sub_le hf (by simp) h hB (by norm_num)

/-- A float of at most one unit. -/
theorem of_abs_le (hf : x.isFinite = true) (h : |toReal x| ≤ |S.weight i j|) :
    S.Near x i j (toReal x / S.weight i j) 1 0 := by
  refine self hf ?_ (by norm_num)
  rw [abs_div]
  exact div_le_one_of_le₀ h (abs_nonneg _)

theorem of_toReal_eq (hf : x.isFinite = true) (hx : toReal x = ρ * S.weight i j) (h : |ρ| ≤ B)
    (hB : B ≤ 1000) : S.Near x i j ρ B 0 :=
  ⟨hf, by simp [hx], h, hB, by norm_num⟩

/-- A float without an error has the value that the units say. -/
theorem toReal_eq (h : S.Near x i j ρ B 0) : toReal x = ρ * S.weight i j := by
  have hclose := h.close
  rw [zero_mul, zero_mul, abs_nonpos_iff] at hclose
  exact sub_eq_zero.1 hclose

/-- A float is exactly some number of units close to the one it approximates. -/
theorem exists_exact (h : S.Near x i j ρ B e) (hlim : B + 1 / 1000 ≤ C ∧ C ≤ 1000) :
    ∃ σ, S.Near x i j σ C 0 ∧ |σ - ρ| ≤ e * roundoff := by
  have hsmall := mul_le_mul_of_nonneg_right h.error_le roundoff_pos.le
  have htri := abs_sub_abs_le_abs_sub (toReal x / S.weight i j) ρ
  refine ⟨_, self h.isFinite ?_ hlim.2, h.abs_div_sub_le⟩
  linarith [h.abs_div_sub_le, h.bounded, roundoff_le]

/-- A small numeral is exact. -/
theorem numeral (n : ℕ) (h : n ≤ 1000) :
    S.Near (Scalar.ofNat n) 0 0 n n 0 := by
  refine of_toReal_eq (isFinite_numeral (by omega)) ?_ (by simp) (by exact_mod_cast h)
  rw [toReal_numeral (by omega), weight_zero, mul_one]

theorem mono (h : S.Near x i j ρ B e) (hlim : B ≤ B' ∧ e ≤ e' ∧ B' ≤ 1000 ∧ e' ≤ 1000) :
    S.Near x i j ρ B' e' := by
  obtain ⟨hB, he, hB', he'⟩ := hlim
  refine of_abs_div_sub_le h.isFinite (h.abs_div_sub_le.trans ?_) (h.bounded.trans hB) hB' he'
  exact mul_le_mul_of_nonneg_right he roundoff_pos.le

theorem neg (h : S.Near x i j ρ B e) : S.Near (-x) i j (-ρ) B e := by
  refine ⟨by rw [isFinite_neg]; exact h.isFinite, ?_, by rw [abs_neg]; exact h.bounded, h.bound_le,
    h.error_le⟩
  rw [toReal_neg, neg_mul, ← neg_sub', abs_neg]
  exact h.close

/-- What a rounding adds to the error of the exact result. -/
theorem of_isRounding {r : ℝ} (h : IsRounding r x) (hij : InRange i j)
    (hr : |r / S.weight i j - ρ| ≤ e * roundoff) (hρ : |ρ| ≤ B) (he : e ≤ 1000)
    (he' : e + B + 1 / 1000 ≤ e') (hB : B ≤ 1000) (hlim : e' ≤ 1000) : S.Near x i j ρ B e' := by
  have hW := abs_pos.2 (S.weight_ne_zero i j)
  have hu := roundoff_pos
  have hu' := roundoff_le
  have herr := S.abs_div_weight_sub_le_iff.1 hr
  have hsmall : e * roundoff ≤ 1 / 4000 := by
    have := mul_le_mul_of_nonneg_right he hu.le
    linarith
  -- the exact result is not much above the bound, so it does not overflow
  have habs : |r| ≤ (B + 1 / 4000) * |S.weight i j| := by
    have htri : |r| ≤ |r - ρ * S.weight i j| + |ρ * S.weight i j| := by
      simpa using abs_add_le (r - ρ * S.weight i j) (ρ * S.weight i j)
    rw [abs_mul] at htri
    nlinarith [mul_le_mul_of_nonneg_right hρ hW.le, mul_le_mul_of_nonneg_right hsmall hW.le]
  obtain ⟨hf, hx⟩ := h.abs_sub_le (S.abs_le_of_abs_le_weight hij (by linarith) habs)
  refine ⟨hf, ?_, hρ, hB, hlim⟩
  have hround : roundoff * |r| ≤ (B + 1 / 4000) * roundoff * |S.weight i j| := by
    have := mul_le_mul_of_nonneg_left habs hu.le
    linarith
  have hsum : (e + B + 1 / 1000) * (roundoff * |S.weight i j|) ≤
      e' * (roundoff * |S.weight i j|) :=
    mul_le_mul_of_nonneg_right he' (mul_nonneg hu.le hW.le)
  calc |toReal x - ρ * S.weight i j| ≤ |toReal x - r| + |r - ρ * S.weight i j| :=
        abs_sub_le _ _ _
    _ ≤ (roundoff * |r| + 2 ^ (-1075 : ℤ)) + e * roundoff * |S.weight i j| := add_le_add hx herr
    _ ≤ e' * roundoff * |S.weight i j| := by
        nlinarith [S.least_le_weight hij, mul_nonneg hu.le hW.le]

/-- The sum of floats that are close to numbers of one unit. -/
theorem add (hx : S.Near x i j ρ B e) (hy : S.Near y i j σ C f)
    (hlim : InRange i j ∧ B + C ≤ B' ∧ e + f + B' + 1 / 1000 ≤ e' ∧ B' ≤ 1000 ∧ e' ≤ 1000) :
    S.Near (x + y) i j (ρ + σ) B' e' := by
  obtain ⟨hij, hB, he, hB', he'⟩ := hlim
  have hB0 : 0 ≤ B' := by linarith [hx.bound_nonneg, hy.bound_nonneg]
  refine of_isRounding (e := e + f) (isRounding_add hx.isFinite hy.isFinite) hij ?_
    ((abs_add_le ρ σ).trans (by linarith [hx.bounded, hy.bounded])) (by linarith) he hB' he'
  have hsplit : (toReal x + toReal y) / S.weight i j - (ρ + σ) =
      (toReal x / S.weight i j - ρ) + (toReal y / S.weight i j - σ) := by ring
  rw [hsplit, add_mul]
  exact (abs_add_le _ _).trans (add_le_add hx.abs_div_sub_le hy.abs_div_sub_le)

theorem sub (hx : S.Near x i j ρ B e) (hy : S.Near y i j σ C f)
    (hlim : InRange i j ∧ B + C ≤ B' ∧ e + f + B' + 1 / 1000 ≤ e' ∧ B' ≤ 1000 ∧ e' ≤ 1000) :
    S.Near (x - y) i j (ρ - σ) B' e' := by
  rw [sub_eq_add, sub_eq_add_neg]
  exact hx.add hy.neg hlim

/-- The product of two approximations. -/
theorem abs_mul_sub_mul_le {a b : ℝ} (ha : |a - ρ| ≤ e) (hb : |b - σ| ≤ f) (hρ : |ρ| ≤ B)
    (hσ : |σ| ≤ C) : |a * b - ρ * σ| ≤ e * C + B * f + e * f := by
  have hsplit : a * b - ρ * σ = (a - ρ) * σ + ρ * (b - σ) + (a - ρ) * (b - σ) := by ring
  have he : 0 ≤ e := (abs_nonneg _).trans ha
  have hB : 0 ≤ B := (abs_nonneg _).trans hρ
  rw [hsplit]
  refine (abs_add_three _ _ _).trans ?_
  rw [abs_mul, abs_mul, abs_mul]
  gcongr

/-- The product of floats that are close to numbers of units. -/
theorem mul (hx : S.Near x i j ρ B e) (hy : S.Near y i' j' σ C f)
    (hlim : InRange (i + i') (j + j') ∧ B * C ≤ B' ∧ e * C + B * f + B' + 1 / 500 ≤ e' ∧
      B' ≤ 1000 ∧ e' ≤ 1000) : S.Near (x * y) (i + i') (j + j') (ρ * σ) B' e' := by
  obtain ⟨hij, hB, he, hB', he'⟩ := hlim
  have hρ : |ρ * σ| ≤ B' := by
    rw [abs_mul]
    exact (mul_le_mul hx.bounded hy.bounded (abs_nonneg σ) hx.bound_nonneg).trans hB
  have hB0 : 0 ≤ B' := (abs_nonneg _).trans hρ
  refine of_isRounding (e := e * C + B * f + 1 / 1000) (isRounding_mul hx.isFinite hy.isFinite) hij
    ?_ hρ (by linarith) (by linarith) hB' he'
  have hsplit : toReal x * toReal y / S.weight (i + i') (j + j') =
      toReal x / S.weight i j * (toReal y / S.weight i' j') := by
    rw [weight_add, div_mul_div_comm]
  rw [hsplit]
  refine (abs_mul_sub_mul_le hx.abs_div_sub_le hy.abs_div_sub_le hx.bounded hy.bounded).trans ?_
  -- the product of the errors is negligible
  have hu := roundoff_pos
  have hef : e * f ≤ 1000 * 1000 :=
    mul_le_mul hx.error_le hy.error_le hy.error_nonneg (by norm_num)
  have hsmall : e * f * roundoff ≤ 1 / 1000 := by
    nlinarith [roundoff_le, mul_le_mul_of_nonneg_right hef hu.le]
  nlinarith [mul_le_mul_of_nonneg_right hsmall hu.le]

/-- The quotient of two approximations, the divisor being at least one. -/
theorem abs_div_sub_div_le {a b c : ℝ} (ha : |a - ρ| ≤ e) (hb : |b - σ| ≤ f) (hρ : |ρ| ≤ B)
    (hc : 1 ≤ c) (hσ : c ≤ |σ|) (hf : f ≤ 1 / 2) :
    |a / b - ρ / σ| ≤ (e + B * f / c) / (c - f) := by
  have hb' : c - f ≤ |b| := by
    have := abs_sub_abs_le_abs_sub σ b
    rw [abs_sub_comm] at this
    linarith
  have hpos : 0 < c - f := by linarith
  have hb0 : b ≠ 0 := abs_pos.1 (hpos.trans_le hb')
  have hσ0 : σ ≠ 0 := abs_pos.1 (by linarith)
  have hB : 0 ≤ B := (abs_nonneg _).trans hρ
  have hf0 : 0 ≤ f := (abs_nonneg _).trans hb
  have hsplit : a / b - ρ / σ = ((a - ρ) - ρ * (b - σ) / σ) / b := by
    field_simp
    ring
  have hsecond : |ρ * (b - σ) / σ| ≤ B * f / c := by
    rw [abs_div, abs_mul]
    gcongr
  rw [hsplit, abs_div]
  refine div_le_div₀ ?_ ?_ hpos hb'
  · have := (abs_nonneg _).trans ha
    positivity
  · exact (abs_sub _ _).trans (add_le_add ha hsecond)

/-- The quotient of floats that are close to numbers of units, the divisor being at least one. -/
theorem div {c : ℝ} (hx : S.Near x i j ρ B e) (hy : S.Near y i' j' σ C f) (hσ : c ≤ |σ|)
    (hlim : InRange (i - i') (j - j') ∧ 1 ≤ c ∧ B / c ≤ B' ∧
      e / c + B * f / (c * c) + B' + 1 / 500 ≤ e' ∧ B' ≤ 1000 ∧ e' ≤ 1000) :
    S.Near (x / y) (i - i') (j - j') (ρ / σ) B' e' := by
  obtain ⟨hij, hc, hB, he, hB', he'⟩ := hlim
  have hu := roundoff_pos
  have hu' := roundoff_le
  have hc0 : 0 < c := by linarith
  have hB0 := hx.bound_nonneg
  have he0 := hx.error_nonneg
  have hf0 := hy.error_nonneg
  have hρ : |ρ / σ| ≤ B' := by
    rw [abs_div]
    exact (div_le_div₀ hB0 hx.bounded hc0 hσ).trans hB
  have hfsmall : f * roundoff ≤ 1 / 5000000000000 := by
    nlinarith [mul_le_mul_of_nonneg_right hy.error_le hu.le]
  have hy0 : toReal y ≠ 0 := by
    intro h0
    have h := hy.abs_div_sub_le
    rw [h0, zero_div, zero_sub, abs_neg] at h
    linarith
  have hB0' : 0 ≤ B' := (abs_nonneg _).trans hρ
  refine of_isRounding (e := e / c + B * f / (c * c) + 1 / 1000) (isRounding_div hx.isFinite hy0)
    hij ?_ hρ (by linarith) (by linarith) hB' he'
  have hsplit : toReal x / toReal y / S.weight (i - i') (j - j') =
      toReal x / S.weight i j / (toReal y / S.weight i' j') := by
    rw [weight_sub, div_div_div_comm]
  rw [hsplit]
  refine (abs_div_sub_div_le hx.abs_div_sub_le hy.abs_div_sub_le hx.bounded hc hσ
    (by linarith)).trans ?_
  -- dividing by the divisor with its error instead of the exact one is negligible
  have hcf : 0 < c - f * roundoff := by linarith
  have hg : (e + B * f / c) * (f * roundoff) / c ≤ 1 / 2000 := by
    have hBf : B * f / c ≤ 1000 * 1000 :=
      (div_le_self (mul_nonneg hB0 hf0) hc).trans
        (mul_le_mul hx.bound_le hy.error_le hf0 (by norm_num))
    have hsum : e + B * f / c ≤ 1001000 := by linarith [hx.error_le]
    have hnonneg : 0 ≤ f * roundoff := mul_nonneg hf0 hu.le
    refine (div_le_self (mul_nonneg (by positivity) hnonneg) hc).trans ?_
    nlinarith
  have hg' : (e + B * f / c) * (f * roundoff) / c = (e / c + B * f / (c * c)) * (f * roundoff) := by
    field_simp
  rw [div_le_iff₀ hcf]
  have hexpand : e * roundoff + B * (f * roundoff) / c =
      (e / c + B * f / (c * c)) * c * roundoff := by
    field_simp
  rw [hexpand]
  rw [hg'] at hg
  nlinarith [mul_le_mul_of_nonneg_right hg hu.le, mul_nonneg hu.le hcf.le]

/-! ### Square roots -/

/-- The square root is a number of units whose square is close to the radicand. -/
theorem exists_sqrt (h : S.Near x (i + i) (j + j) ρ B e) (h0 : 0 ≤ toReal x)
    (hlim : InRange i j ∧ B + 1 / 1000 ≤ C * C ∧ 0 ≤ C ∧ C ≤ 4) :
    ∃ ω, S.Near x.sqrt i j ω (C + 1 / 1000) 0 ∧ 0 ≤ ω * S.weight i j ∧
      |ω * ω - ρ| ≤ (e + 2 * (C * C) + 1 / 100) * roundoff := by
  obtain ⟨hij, hC, hC0, hC4⟩ := hlim
  have hu := roundoff_pos
  have hu' := roundoff_le
  have hW := S.weight_ne_zero i j
  have hnear := h.abs_div_sub_le
  -- the exact root is `ω₀` units
  obtain ⟨ω₀, hω₀⟩ : ∃ ω₀, ω₀ = √(toReal x) / S.weight i j := ⟨_, rfl⟩
  have hsq : ω₀ * ω₀ = toReal x / S.weight (i + i) (j + j) := by
    rw [hω₀, weight_add, div_mul_div_comm, Real.mul_self_sqrt h0]
  rw [← hsq] at hnear
  have herror : e * roundoff ≤ 1 / 1000 := by
    nlinarith [mul_le_mul_of_nonneg_right h.error_le hu.le]
  have hbound : |ω₀| ≤ C := by
    rw [← abs_of_nonneg hC0, ← sq_le_sq]
    have hupper := (abs_le.1 hnear).2
    have hρ := (abs_le.1 h.bounded).2
    nlinarith
  have hround : S.Near x.sqrt i j ω₀ C (C + 1 / 1000) := by
    refine of_isRounding (e := 0) (isRounding_sqrt h.isFinite h0) hij ?_ hbound (by norm_num)
      (by linarith) (by linarith) (by linarith)
    rw [hω₀, sub_self, abs_zero, zero_mul]
  have hclose := hround.abs_div_sub_le
  have hclose' : (C + 1 / 1000) * roundoff ≤ 1 / 10000 := by
    nlinarith [mul_le_mul_of_nonneg_right hC4 hu.le]
  refine ⟨toReal x.sqrt / S.weight i j, ?_, ?_, ?_⟩
  · refine self hround.isFinite ?_ (by linarith)
    have := abs_sub_abs_le_abs_sub (toReal x.sqrt / S.weight i j) ω₀
    linarith
  · rw [div_mul_cancel₀ _ hW, (isRounding_sqrt h.isFinite h0).toReal_eq_of_isFinite hround.isFinite]
    exact nearest_nonneg (Real.sqrt_nonneg _)
  · have hprod := abs_mul_sub_mul_le hclose hclose hbound hbound
    have htri : |toReal x.sqrt / S.weight i j * (toReal x.sqrt / S.weight i j) - ρ| ≤
        |toReal x.sqrt / S.weight i j * (toReal x.sqrt / S.weight i j) - ω₀ * ω₀| +
          |ω₀ * ω₀ - ρ| := by
      simpa using abs_add_le (toReal x.sqrt / S.weight i j * (toReal x.sqrt / S.weight i j) -
        ω₀ * ω₀) (ω₀ * ω₀ - ρ)
    have hslack : (C + 1 / 1000) * roundoff * ((C + 1 / 1000) * roundoff) ≤
        1 / 1000 * roundoff := by
      nlinarith [mul_le_mul_of_nonneg_right hclose' hu.le]
    nlinarith [mul_le_mul_of_nonneg_right hC4 hu.le]

/-- The square root of a number close to one square unit is close to one unit. -/
theorem sqrt_one (h : S.Near x (i + i) (j + j) 1 1 e) (h0 : 0 ≤ toReal x)
    (hW : 0 < S.weight i j) (hlim : InRange i j ∧ e + 3 ≤ e' ∧ e' ≤ 1000) :
    S.Near x.sqrt i j 1 1 e' := by
  have hu := roundoff_pos
  obtain ⟨hij, he, he'⟩ := hlim
  obtain ⟨ω, hω, hpos, hsq⟩ := h.exists_sqrt (C := 101 / 100) h0 ⟨hij, by norm_num⟩
  have hnonneg : 0 ≤ ω := nonneg_of_mul_nonneg_left hpos hW
  refine of_abs_div_sub_le hω.isFinite ?_ (by norm_num) (by norm_num) he'
  rw [hω.toReal_eq, mul_div_cancel_right₀ ω (S.weight_ne_zero i j)]
  have hfactor : |ω * ω - 1| = |ω - 1| * (ω + 1) := by
    rw [← abs_of_nonneg (by linarith : 0 ≤ ω + 1), ← abs_mul]
    ring_nf
  calc |ω - 1| ≤ |ω - 1| * (ω + 1) := le_mul_of_one_le_right (abs_nonneg _) (by linarith)
    _ = |ω * ω - 1| := hfactor.symm
    _ ≤ (e + 2 * (101 / 100 * (101 / 100)) + 1 / 100) * roundoff := hsq
    _ ≤ e' * roundoff := mul_le_mul_of_nonneg_right (by linarith) hu.le

end Near

end Scale

end EquationRoots.Binary64
