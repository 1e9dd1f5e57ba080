import EquationRoots.Proofs.Binary64.Values

/-!
# Magnitudes of results

Powers of two survive rounding, so they bound the results of operations: a result within a power of
two is finite (`IsWithin`), a product of three small factors vanishes, and a sign is kept
(`IsNonneg`, `IsBelow`). These bounds decide which results can be "not a number".
-/

set_option autoImplicit false

namespace EquationRoots.Binary64

open Float.Model Float.Model.UnpackedFloat

/-! ## Bounds by powers of two -/

/-- A finite float whose magnitude is at most a power of two. -/
structure IsWithin (x : Float) (k : ℤ) : Prop where
  isFinite : x.isFinite = true
  abs_le : |toReal x| ≤ 2 ^ k

theorem IsWithin.mono {x : Float} {k k' : ℤ} (h : IsWithin x k) (hk : k ≤ k') : IsWithin x k' :=
  ⟨h.1, h.2.trans (zpow_le_zpow_right₀ one_le_two hk)⟩

theorem IsWithin.neg {x : Float} {k : ℤ} (h : IsWithin x k) : IsWithin (-x) k :=
  ⟨by rw [isFinite_neg]; exact h.1, by rw [toReal_neg, abs_neg]; exact h.2⟩

/-- Rounding keeps a bound by a power of two. -/
theorem IsRounding.isWithin {r : ℝ} {x : Float} (h : IsRounding r x) {k : ℤ} (hk : -1074 ≤ k)
    (hk' : k ≤ 1023) (hr : |r| ≤ 2 ^ k) : IsWithin x k := by
  obtain ⟨hf, hx⟩ := h.of_abs_le (hr.trans (zpow_le_zpow_right₀ one_le_two hk'))
  exact ⟨hf, hx ▸ abs_nearest_le (isRepresentable_zpow hk) hr⟩

theorem IsWithin.add {x y : Float} {k : ℤ} (hx : IsWithin x k) (hy : IsWithin y k)
    (hk : -1075 ≤ k) (hk' : k ≤ 1022) : IsWithin (x + y) (k + 1) := by
  refine (isRounding_add hx.1 hy.1).isWithin (by omega) (by omega) ?_
  rw [zpow_add_one₀ two_ne_zero, mul_two]
  exact (abs_add_le _ _).trans (add_le_add hx.2 hy.2)

theorem IsWithin.sub {x y : Float} {k : ℤ} (hx : IsWithin x k) (hy : IsWithin y k)
    (hk : -1075 ≤ k) (hk' : k ≤ 1022) : IsWithin (x - y) (k + 1) := by
  rw [sub_eq_add]
  exact hx.add hy.neg hk hk'

theorem IsWithin.mul {x y : Float} {i j : ℤ} (hx : IsWithin x i) (hy : IsWithin y j)
    (hk : -1074 ≤ i + j) (hk' : i + j ≤ 1023) : IsWithin (x * y) (i + j) := by
  refine (isRounding_mul hx.1 hy.1).isWithin hk hk' ?_
  rw [abs_mul, zpow_add₀ two_ne_zero]
  exact mul_le_mul hx.2 hy.2 (abs_nonneg _) (by positivity)

theorem IsWithin.div {x y : Float} {i j : ℤ} (hx : IsWithin x i) (hy : 2 ^ j ≤ |toReal y|)
    (hk : -1074 ≤ i - j) (hk' : i - j ≤ 1023) : IsWithin (x / y) (i - j) := by
  have hpos : (0 : ℝ) < 2 ^ j := by positivity
  refine (isRounding_div hx.1 (abs_pos.1 (hpos.trans_le hy))).isWithin hk hk' ?_
  rw [abs_div, zpow_sub₀ two_ne_zero]
  exact div_le_div₀ (by positivity) hx.2 hpos hy

/-- The square root of a finite float that is not negative is finite. -/
theorem isWithin_sqrt {x : Float} (hx : x.isFinite = true) (h : 0 ≤ toReal x) :
    IsWithin x.sqrt 512 := by
  refine (isRounding_sqrt hx h).isWithin (by norm_num) (by norm_num) ?_
  rw [abs_of_nonneg (Real.sqrt_nonneg _)]
  refine Real.sqrt_le_iff.2 ⟨by positivity, ?_⟩
  calc toReal x ≤ 2 ^ (1024 : ℤ) := (le_abs_self _).trans (abs_toReal_lt x).le
    _ = ((2 : ℝ) ^ (512 : ℤ)) ^ 2 := by rw [sq, ← zpow_add₀ two_ne_zero]; norm_num

/-- A product keeps a lower bound by a power of two, unless it is an infinity. -/
theorem le_abs_toReal_mul {x y : Float} {i j : ℤ} (hxy : (x * y).isFinite = true)
    (hx : 2 ^ i ≤ |toReal x|) (hy : 2 ^ j ≤ |toReal y|) (hk : -1074 ≤ i + j) :
    2 ^ (i + j) ≤ |toReal (x * y)| := by
  obtain ⟨hfx, hfy⟩ := isFinite_of_mul hxy
  rw [(isRounding_mul hfx hfy).toReal_eq_of_isFinite hxy]
  refine le_abs_nearest (isRepresentable_zpow hk) ?_
  rw [abs_mul, zpow_add₀ two_ne_zero]
  exact mul_le_mul hx hy (by positivity) (abs_nonneg _)

/-- A quotient keeps a lower bound by a power of two, unless it is an infinity. -/
theorem le_abs_toReal_div {x y : Float} {i j : ℤ} (hx : x.isFinite = true)
    (hxy : (x / y).isFinite = true) (hi : 2 ^ i ≤ |toReal x|) (hy : toReal y ≠ 0)
    (hj : |toReal y| ≤ 2 ^ j) (hk : -1074 ≤ i - j) : 2 ^ (i - j) ≤ |toReal (x / y)| := by
  rw [(isRounding_div hx hy).toReal_eq_of_isFinite hxy]
  refine le_abs_nearest (isRepresentable_zpow hk) ?_
  rw [abs_div, zpow_sub₀ two_ne_zero]
  exact div_le_div₀ (abs_nonneg _) hi (abs_pos.2 hy) hj

/-- A square root keeps a lower bound by a power of four. -/
theorem le_abs_toReal_sqrt {x : Float} {k : ℤ} (hx : x.isFinite = true)
    (h : 2 ^ (k + k) ≤ toReal x) (hk : -1074 ≤ k) : 2 ^ k ≤ |toReal x.sqrt| := by
  have h0 : 0 ≤ toReal x := le_trans (by positivity) h
  rw [(isRounding_sqrt hx h0).toReal_eq_of_isFinite (isWithin_sqrt hx h0).1]
  refine le_abs_nearest (isRepresentable_zpow hk) ?_
  rw [abs_of_nonneg (Real.sqrt_nonneg _)]
  refine Real.le_sqrt_of_sq_le (le_trans (le_of_eq ?_) h)
  rw [sq, zpow_add₀ two_ne_zero]

/-- The magnitude of a float other than zero is at least that of the least positive float. -/
theorem le_abs_toReal {x : Float} (h : toReal x ≠ 0) : 2 ^ (-1074 : ℤ) ≤ |toReal x| := by
  obtain ⟨n, k, -, hk, hx⟩ := isRepresentable_toReal x
  have hn : n ≠ 0 := by
    rintro rfl
    simp [hx] at h
  rw [hx, abs_mul, abs_of_pos (by positivity : (0 : ℝ) < 2 ^ k)]
  calc (2 : ℝ) ^ (-1074 : ℤ) ≤ 2 ^ k := zpow_le_zpow_right₀ one_le_two hk
    _ ≤ |(n : ℝ)| * 2 ^ k :=
      le_mul_of_one_le_left (by positivity) (by exact_mod_cast Int.one_le_abs hn)

/-- A number below half of the least positive float is rounded to zero. -/
theorem nearest_eq_zero {r : ℝ} (h : |r| < 2 ^ (-1075 : ℤ)) : nearest r = 0 := by
  -- for numbers that are not negative the quotient by the unit is below the half
  have key : ∀ r : ℝ, 0 ≤ r → r < 2 ^ (-1075 : ℤ) → nearest r = 0 := by
    intro r h0 hr
    have hunit : (2 : ℝ) ^ (-1074 : ℤ) ≤ unit r := zpow_le_zpow_right₀ one_le_two (le_max_right _ _)
    have hhalf : (2 : ℝ) ^ (-1075 : ℤ) = 1 / 2 * 2 ^ (-1074 : ℤ) := by
      rw [show (-1075 : ℤ) = -1 + -1074 by norm_num, zpow_add₀ two_ne_zero]
      norm_num
    have hlt : r / unit r < ((0 : ℤ) : ℝ) + 1 / 2 := by
      rw [div_lt_iff₀ (unit_pos r)]
      push_cast
      linarith
    have hle : ((0 : ℤ) : ℝ) ≤ r / unit r := by
      push_cast
      exact div_nonneg h0 (unit_pos r).le
    rw [nearest, roundEven_of_lt hle hlt, Int.cast_zero, zero_mul]
  -- rounding is odd, so the other numbers follow
  rcases abs_cases r with ⟨habs, h0⟩ | ⟨habs, h0⟩
  · exact key r h0 (habs ▸ h)
  · have := key (-r) (by linarith) (habs ▸ h)
    rwa [nearest_neg, neg_eq_zero] at this

/-- A product that small vanishes. -/
theorem toReal_mul_eq_zero {x y : Float} {i j : ℤ} (hx : IsWithin x i) (hy : IsWithin y j)
    (hk : i + j < -1075) : (x * y).isFinite = true ∧ toReal (x * y) = 0 := by
  have hr : |toReal x * toReal y| ≤ 2 ^ (i + j) := by
    rw [abs_mul, zpow_add₀ two_ne_zero]
    exact mul_le_mul hx.2 hy.2 (abs_nonneg _) (by positivity)
  obtain ⟨hf, hv⟩ := (isRounding_mul hx.1 hy.1).of_abs_le
    (hr.trans (zpow_le_zpow_right₀ one_le_two (by omega)))
  exact ⟨hf, hv.trans (nearest_eq_zero (hr.trans_lt (zpow_lt_zpow_right₀ one_lt_two hk)))⟩

/-! ## Floats that are not negative -/

/-- A float that is not negative and not "not a number". -/
def IsNonneg (x : Float) : Prop := x = inf .positive ∨ x.isFinite = true ∧ 0 ≤ toReal x

/-- A float below a real number, the negative infinity being below all of them. -/
def IsBelow (x : Float) (v : ℝ) : Prop := x = inf .negative ∨ x.isFinite = true ∧ toReal x < v

theorem IsRounding.isNonneg {r : ℝ} {x : Float} (h : IsRounding r x) (hr : 0 ≤ r) :
    IsNonneg x := by
  have hn := nearest_nonneg hr
  cases h with
  | finite hf hx => exact Or.inr ⟨hf, hx ▸ hn⟩
  | overflow s hs hle =>
    cases s with
    | positive => exact Or.inl hs
    | negative =>
      have hpos : (0 : ℝ) < 2 ^ (1024 : ℤ) := by positivity
      rw [signFactor, neg_one_mul] at hle
      exact absurd (hpos.trans_le hle) (not_lt.2 (neg_nonpos.2 hn))

/-- A result is below a number of moderate size if the exact result, rounded, is. -/
theorem IsRounding.isBelow_iff {r v : ℝ} {x : Float} (h : IsRounding r x)
    (hv : |v| < 2 ^ (1024 : ℤ)) : IsBelow x v ↔ nearest r < v := by
  have hv' := abs_lt.1 hv
  cases h with
  | finite hf hx =>
    rw [← hx]
    constructor
    · rintro (rfl | ⟨-, h⟩)
      · simp at hf
      · exact h
    · exact fun h => Or.inr ⟨hf, h⟩
  | overflow s hs hle =>
    -- an overflow is beyond every number of moderate size
    subst hs
    cases s with
    | positive =>
      rw [signFactor] at hle
      constructor
      · rintro (h | ⟨h, -⟩)
        · exact absurd (congrArg view h) (by simp)
        · simp at h
      · intro h
        linarith
    | negative =>
      rw [signFactor] at hle
      exact ⟨fun _ => by linarith, fun _ => Or.inl rfl⟩

/-- The order on floats, for a finite bound. -/
theorem lt_iff_isBelow {x y : Float} (hy : y.isFinite = true) : x < y ↔ IsBelow x (toReal y) := by
  rcases eq_nan_or_eq_inf_or_isFinite x with rfl | ⟨s, rfl⟩ | hx
  · refine ⟨fun h => absurd h (not_nan_lt y), ?_⟩
    rintro (h | ⟨h, -⟩)
    · exact absurd (congrArg view h) (by simp)
    · simp at h
  · cases s with
    | negative => exact ⟨fun _ => Or.inl rfl, fun _ => neg_inf_lt hy⟩
    | positive =>
      refine ⟨fun h => absurd h (not_inf_lt y), ?_⟩
      rintro (h | ⟨h, -⟩)
      · exact absurd (congrArg view h) (by simp)
      · simp at h
  · rw [lt_iff hx hy]
    constructor
    · exact fun h => Or.inr ⟨hx, h⟩
    · rintro (rfl | ⟨-, h⟩)
      · simp at hx
      · exact h

theorem IsBelow.isNaN {x : Float} {v : ℝ} (h : IsBelow x v) : x.isNaN = false := by
  rcases h with rfl | ⟨h, -⟩
  · exact isNaN_inf _
  · exact isNaN_of_isFinite h

theorem IsBelow.toReal_lt {x : Float} {v : ℝ} (h : IsBelow x v) (hf : x.isFinite = true) :
    toReal x < v := by
  rcases h with rfl | ⟨-, h⟩
  · rw [isFinite_inf] at hf
    cases hf
  · exact h

theorem IsNonneg.isNaN {x : Float} (h : IsNonneg x) : x.isNaN = false := by
  rcases h with rfl | ⟨h, -⟩
  · exact isNaN_inf _
  · exact isNaN_of_isFinite h

/-- What is neither "not a number" nor below zero is not negative. -/
theorem isNonneg_of_not_isBelow {x : Float} (hx : x.isNaN = false) (h : ¬ IsBelow x 0) :
    IsNonneg x := by
  rcases eq_nan_or_eq_inf_or_isFinite x with rfl | ⟨s, rfl⟩ | hf
  · simp at hx
  · cases s with
    | positive => exact Or.inl rfl
    | negative => exact absurd (Or.inl rfl) h
  · exact Or.inr ⟨hf, not_lt.1 fun h0 => h (Or.inr ⟨hf, h0⟩)⟩

theorem not_isBelow_of_isNonneg {x : Float} (h : IsNonneg x) : ¬ IsBelow x 0 := by
  rintro (rfl | ⟨hf, h0⟩)
  · rcases h with h | ⟨h, -⟩
    · exact absurd (congrArg view h) (by simp)
    · simp at h
  · rcases h with rfl | ⟨-, h⟩
    · simp at hf
    · linarith

theorem isNonneg_abs {x : Float} (hx : x.isNaN = false) : IsNonneg x.abs := by
  rcases eq_nan_or_eq_inf_or_isFinite x with rfl | ⟨s, rfl⟩ | hf
  · simp at hx
  · exact Or.inl (abs_inf s)
  · exact Or.inr ⟨by rwa [isFinite_abs], by rw [toReal_abs]; exact abs_nonneg _⟩

/-- The square root of a float that is not negative is not negative. -/
theorem IsNonneg.sqrt {x : Float} (h : IsNonneg x) : IsNonneg x.sqrt := by
  rcases h with rfl | ⟨hf, h0⟩
  · exact Or.inl sqrt_inf
  · exact (isRounding_sqrt hf h0).isNonneg (Real.sqrt_nonneg _)

/-- A square is not negative. -/
theorem isNonneg_mul_self {x : Float} (hx : x.isNaN = false) : IsNonneg (x * x) := by
  rcases eq_nan_or_eq_inf_or_isFinite x with rfl | ⟨s, rfl⟩ | hf
  · simp at hx
  · exact Or.inl (by rw [inf_mul_inf]; cases s <;> rfl)
  · exact (isRounding_mul hf hf).isNonneg (mul_self_nonneg _)

theorem IsNonneg.mul_of_pos {x y : Float} (hx : IsNonneg x) (hy : 0 < toReal y) :
    IsNonneg (x * y) := by
  rcases hx with rfl | ⟨hf, h0⟩
  · exact Or.inl (inf_mul_of_pos _ hy)
  · exact (isRounding_mul hf (isFinite_of_toReal_ne_zero hy.ne')).isNonneg (mul_nonneg h0 hy.le)

theorem IsNonneg.div_of_pos {x y : Float} (hx : IsNonneg x) (hy : 0 < toReal y) :
    IsNonneg (x / y) := by
  rcases hx with rfl | ⟨hf, h0⟩
  · exact Or.inl (inf_div_of_pos _ hy)
  · exact (isRounding_div hf hy.ne').isNonneg (div_nonneg h0 hy.le)

theorem IsBelow.isNonneg_neg {x : Float} {v : ℝ} (h : IsBelow x v) (hv : v ≤ 0) :
    IsNonneg (-x) := by
  rcases h with rfl | ⟨hf, h0⟩
  · exact Or.inl (neg_inf _)
  · refine Or.inr ⟨by rwa [isFinite_neg], ?_⟩
    rw [toReal_neg]
    linarith

/-- A multiplier of at least one keeps a negative number below a bound. -/
theorem IsBelow.mul_of_one_le {x y : Float} {v : ℝ} (h : IsBelow x v) (hv : v ≤ 0)
    (hv' : |v| < 2 ^ (1024 : ℤ)) (hy : 1 ≤ toReal y) : IsBelow (y * x) v := by
  rw [Binary64.mul_comm]
  rcases h with rfl | ⟨hf, h0⟩
  · exact Or.inl (inf_mul_of_pos _ (by linarith))
  · rw [(isRounding_mul hf (isFinite_of_toReal_ne_zero (by linarith))).isBelow_iff hv']
    refine lt_of_le_of_lt (nearest_le_of_isRepresentable (isRepresentable_toReal x) ?_) h0
    exact mul_le_of_one_le_right (h0.le.trans hv) hy

/-- Adding what is not negative to reach below zero takes a number below zero. -/
theorem isBelow_of_add {x y : Float} (hy : IsNonneg y) (h : IsBelow (x + y) 0) :
    y.isFinite = true ∧ IsBelow x 0 := by
  rcases eq_nan_or_eq_inf_or_isFinite x with rfl | ⟨s, rfl⟩ | hx
  · rw [nan_add] at h
    exact absurd h.isNaN (by simp)
  · rcases hy with rfl | ⟨hfy, -⟩
    · cases s with
      | positive =>
        rw [inf_add_inf] at h
        exact absurd h (not_isBelow_of_isNonneg (Or.inl rfl))
      | negative => exact absurd h.isNaN (by decide)
    -- an infinity absorbs the finite summand, so it is the negative one
    · rw [inf_add_finite hfy] at h
      cases s with
      | positive => exact absurd h (not_isBelow_of_isNonneg (Or.inl rfl))
      | negative => exact ⟨hfy, Or.inl rfl⟩
  · rcases hy with rfl | ⟨hfy, h0⟩
    · rw [finite_add_inf hx] at h
      exact absurd h (not_isBelow_of_isNonneg (Or.inl rfl))
    · refine ⟨hfy, Or.inr ⟨hx, ?_⟩⟩
      by_contra hpos
      exact not_isBelow_of_isNonneg ((isRounding_add hx hfy).isNonneg (by linarith)) h

/-- A quotient below a bound stays below it when the positive divisor shrinks. -/
theorem IsBelow.div_of_le {x y y' : Float} {v : ℝ} (h : IsBelow (x / y) v) (hv : v ≤ 0)
    (hv' : |v| < 2 ^ (1024 : ℤ)) (hy' : 0 < toReal y') (hle : toReal y' ≤ toReal y) :
    IsBelow (x / y') v := by
  have hy : 0 < toReal y := hy'.trans_le hle
  rcases eq_nan_or_eq_inf_or_isFinite x with rfl | ⟨s, rfl⟩ | hx
  · rw [nan_div] at h
    exact absurd h.isNaN (by simp)
  · rw [inf_div_of_pos s hy] at h
    rw [inf_div_of_pos s hy']
    rcases h with h | ⟨h, -⟩
    · exact Or.inl h
    · simp at h
  · rw [(isRounding_div hx hy.ne').isBelow_iff hv'] at h
    rw [(isRounding_div hx hy'.ne').isBelow_iff hv']
    -- a dividend that is not negative would make the first quotient so
    have hneg : toReal x < 0 := by
      by_contra hpos
      have := nearest_nonneg (div_nonneg (not_lt.1 hpos) hy.le)
      linarith
    refine (nearest_mono ?_).trans_lt h
    rw [div_le_div_iff₀ hy' hy]
    exact mul_le_mul_of_nonpos_left hle hneg.le

/-- A quotient that is negative and not too small has a finite divisor. -/
theorem IsBelow.isFinite_of_div {x y : Float} {v : ℝ} (h : IsBelow (x / y) v) (hv : v < 0) :
    y.isFinite = true := by
  rcases eq_nan_or_eq_inf_or_isFinite y with rfl | ⟨s, rfl⟩ | hy
  · rw [div_nan] at h
    exact absurd h.isNaN (by simp)
  · rcases eq_nan_or_eq_inf_or_isFinite x with rfl | ⟨s', rfl⟩ | hx
    · rw [nan_div] at h
      exact absurd h.isNaN (by simp)
    · rw [inf_div_inf] at h
      exact absurd h.isNaN (by simp)
    -- a finite number over an infinity is zero, which is not below `v`
    · obtain ⟨hf, h0⟩ := finite_div_inf hx s
      rcases h with h | ⟨-, h⟩
      · rw [h, isFinite_inf] at hf
        cases hf
      · linarith
  · exact hy

/-- A divisor below a negative bound bounds the quotient. -/
theorem IsWithin.div_of_isBelow {x y : Float} {i j : ℤ} (hx : IsWithin x i)
    (hy : IsBelow y (-2 ^ j)) (hk : -1074 ≤ i - j) (hk' : i - j ≤ 1023) :
    IsWithin (x / y) (i - j) := by
  rcases hy with rfl | ⟨-, hlt⟩
  · obtain ⟨hf, h0⟩ := finite_div_inf hx.1 .negative
    exact ⟨hf, by rw [h0, abs_zero]; positivity⟩
  · refine hx.div ?_ hk hk'
    rw [le_abs']
    exact Or.inl hlt.le

/-! ## Results that are numbers -/

section Numbers

variable {x y : Float}

theorem isNaN_mul_of_ne_zero (hx : x.isNaN = false) (hy : toReal y ≠ 0) :
    (x * y).isNaN = false := by
  rcases eq_nan_or_eq_inf_or_isFinite x with rfl | ⟨s, rfl⟩ | hf
  · simp at hx
  · obtain ⟨s', h⟩ := exists_inf_mul_finite s hy
    rw [h, isNaN_inf]
  · exact (isRounding_mul hf (isFinite_of_toReal_ne_zero hy)).isNaN

theorem isNaN_div_of_ne_zero (hx : x.isNaN = false) (hy : toReal y ≠ 0) :
    (x / y).isNaN = false := by
  rcases eq_nan_or_eq_inf_or_isFinite x with rfl | ⟨s, rfl⟩ | hf
  · simp at hx
  · obtain ⟨s', h⟩ := exists_inf_div_finite (isFinite_of_toReal_ne_zero hy) s
    rw [h, isNaN_inf]
  · exact (isRounding_div hf hy).isNaN

theorem isNaN_add_of_isFinite (hx : x.isFinite = true) (hy : y.isNaN = false) :
    (x + y).isNaN = false := by
  rcases eq_nan_or_eq_inf_or_isFinite y with rfl | ⟨s, rfl⟩ | hf
  · simp at hy
  · rw [finite_add_inf hx, isNaN_inf]
  · exact (isRounding_add hx hf).isNaN

theorem isNaN_add_of_isFinite_right (hx : x.isNaN = false) (hy : y.isFinite = true) :
    (x + y).isNaN = false := by
  rcases eq_nan_or_eq_inf_or_isFinite x with rfl | ⟨s, rfl⟩ | hf
  · simp at hx
  · rw [inf_add_finite hy, isNaN_inf]
  · exact (isRounding_add hf hy).isNaN

theorem isNaN_sub_of_isFinite (hx : x.isFinite = true) (hy : y.isNaN = false) :
    (x - y).isNaN = false := by
  rw [sub_eq_add]
  exact isNaN_add_of_isFinite hx (by rwa [isNaN_neg])

theorem isNaN_sub_of_isFinite_right (hx : x.isNaN = false) (hy : y.isFinite = true) :
    (x - y).isNaN = false := by
  rw [sub_eq_add]
  exact isNaN_add_of_isFinite_right hx (by rwa [isFinite_neg])

/-- A finite quotient has a finite dividend, and its divisor is an infinity or not zero. -/
theorem isFinite_of_div (h : (x / y).isFinite = true) :
    x.isFinite = true ∧ (y.isInf = true ∨ toReal y ≠ 0) := by
  rcases eq_nan_or_eq_inf_or_isFinite y with rfl | ⟨s', rfl⟩ | hy
  · simp at h
  · refine ⟨?_, Or.inl (isInf_inf s')⟩
    rcases eq_nan_or_eq_inf_or_isFinite x with rfl | ⟨s, rfl⟩ | hx
    · simp at h
    · simp at h
    · exact hx
  · have h0 : toReal y ≠ 0 := by
      intro h0
      rw [isFinite_div_of_eq_zero x hy h0] at h
      cases h
    refine ⟨?_, Or.inr h0⟩
    rcases eq_nan_or_eq_inf_or_isFinite x with rfl | ⟨s, rfl⟩ | hx
    · simp at h
    · obtain ⟨s', hs'⟩ := exists_inf_div_finite hy s
      rw [hs', isFinite_inf] at h
      cases h
    · exact hx

end Numbers

end EquationRoots.Binary64
