import EquationRoots.Proofs.Overflow.Quadratic
import EquationRoots.Roots.Cubic

/-!
# Where the cubic formulas break down

Where the trigonometric formula is used, `q³ + r² < 0` bounds `r` from above and `q` away from zero,
which keeps the leading coefficient away from zero and the second one from being too large; the
amplitude and the cosine of the angle are numbers then. Cardano's formula finds numbers exactly
where `q³ + r²` is finite.

Cube root, cosine and inverse cosine come from a library of mathematics; `Elementary.IsLawful`
collects what its documentation says about their ranges and their special values.
-/

set_option autoImplicit false

namespace EquationRoots

open Binary64 Float.Model
open Float (nan)
open scoped Scalar

/-- The ranges and the special values of the functions of a library of mathematics. The cube root
keeps "not a number" and the infinities; at a finite number it is finite, and not larger than the
number or one. The inverse cosine of a number from `-1` to `1` is a finite angle between zero and
half a turn. The cosine of a finite angle is not zero, since no float is a zero of the cosine. -/
structure Elementary.IsLawful (maths : Elementary Float) : Prop where
  cbrt_nan : maths.cbrt nan = nan
  cbrt_inf : ∀ s, maths.cbrt (inf s) = inf s
  isFinite_cbrt : ∀ x, x.isFinite = true → (maths.cbrt x).isFinite = true
  abs_cbrt_le : ∀ x, x.isFinite = true → |toReal (maths.cbrt x)| ≤ max 1 |toReal x|
  isFinite_acos : ∀ x, x.isFinite = true → |toReal x| ≤ 1 → (maths.acos x).isFinite = true
  acos_mem : ∀ x, x.isFinite = true → |toReal x| ≤ 1 →
    0 ≤ toReal (maths.acos x) ∧ toReal (maths.acos x) ≤ toReal Scalar.pi
  cos_ne_zero : ∀ x, x.isFinite = true → toReal (maths.cos x) ≠ 0

/-! ## Third powers -/

/-- The third power of a small number vanishes. -/
theorem toReal_cubed_eq_zero {x : Float} (h : IsWithin x (-360)) :
    (cubed x).isFinite = true ∧ toReal (cubed x) = 0 :=
  toReal_mul_eq_zero (h.mul h (by norm_num) (by norm_num)) h (by norm_num)

/-- A number whose square is finite. -/
theorem abs_lt_of_isFinite_mul_self {x : Float} (h : (x * x).isFinite = true) :
    |toReal x| < 2 ^ (512 : ℤ) := by
  by_contra hx
  have := le_abs_toReal_mul h (not_lt.1 hx) (not_lt.1 hx) (by norm_num)
  exact absurd (abs_toReal_lt _) (not_lt.2 this)

/-- A number whose third power is finite. -/
theorem abs_lt_of_isFinite_cubed {x : Float} (h : (cubed x).isFinite = true) :
    |toReal x| < 2 ^ (342 : ℤ) := by
  by_contra hx
  have hsq := le_abs_toReal_mul (isFinite_of_mul h).1 (not_lt.1 hx) (not_lt.1 hx) (by norm_num)
  have hcube := le_abs_toReal_mul h hsq (not_lt.1 hx) (by norm_num)
  have : (2 : ℝ) ^ (342 + 342 + 342 : ℤ) < 2 ^ (1024 : ℤ) := hcube.trans_lt (abs_toReal_lt _)
  exact absurd ((zpow_lt_zpow_iff_right₀ one_lt_two).1 this) (by norm_num)

/-- A number whose third power is negative is negative, and not too small. -/
theorem isBelow_of_isBelow_cubed {x : Float} (h : IsBelow (cubed x) 0) :
    IsBelow x (-2 ^ (-360 : ℤ)) := by
  rcases eq_nan_or_eq_inf_or_isFinite x with rfl | ⟨s, rfl⟩ | hx
  · exact absurd h.isNaN (by simp [cubed])
  · cases s with
    | negative => exact Or.inl rfl
    | positive => exact absurd h (not_isBelow_of_isNonneg (Or.inl rfl))
  · refine Or.inr ⟨hx, ?_⟩
    by_contra hlow
    -- a small number has the third power zero, and a positive one a positive third power
    rcases le_or_gt (toReal x) (2 ^ (-360 : ℤ)) with hup | hup
    · obtain ⟨hf, h0⟩ := toReal_cubed_eq_zero ⟨hx, abs_le.2 ⟨not_lt.1 hlow, hup⟩⟩
      exact not_isBelow_of_isNonneg (Or.inr ⟨hf, h0.ge⟩) h
    · have hpos : 0 < toReal x := lt_trans (by positivity) hup
      exact not_isBelow_of_isNonneg ((isNonneg_mul_self (isNaN_of_isFinite hx)).mul_of_pos hpos) h

namespace Coefficients

variable {maths : Elementary Float} {p : Coefficients Float}

/-! ## Numerators -/

/-- The numerator of the reduced coefficient `q` and of the depressed linear coefficient. -/
def numeratorQ (p : Coefficients Float) : Float := 3 * p.a * p.c - p.b * p.b

/-- The numerator of the reduced coefficient `r`. -/
def numeratorR (p : Coefficients Float) : Float :=
  -2 * cubed p.b + 9 * p.a * p.b * p.c - 27 * p.a * p.a * p.d

/-- The numerator of the depressed constant coefficient. -/
def depressedNumerator (p : Coefficients Float) : Float :=
  2 * cubed p.b - 9 * p.a * p.b * p.c + 27 * p.a * p.a * p.d

theorem reducedQ_eq (p : Coefficients Float) :
    p.reducedQ = p.numeratorQ / (Scalar.ofNat 9 * p.a * p.a) := rfl

theorem depressedP_eq (p : Coefficients Float) :
    p.depressedP = p.numeratorQ / (Scalar.ofNat 3 * p.a * p.a) := rfl

theorem reducedR_eq (p : Coefficients Float) :
    p.reducedR = p.numeratorR / (Scalar.ofNat 54 * cubed p.a) := rfl

/-- The two numerators of degree three are opposite, also when rounded. -/
theorem depressedNumerator_eq_neg (h : p.numeratorR.isFinite = true) :
    p.depressedNumerator.isFinite = true ∧ toReal p.depressedNumerator = -toReal p.numeratorR := by
  -- rounding is odd, so each operation on opposite operands has the opposite result
  obtain ⟨hsum, hy⟩ := isFinite_of_sub (x := -2 * cubed p.b + 9 * p.a * p.b * p.c) h
  obtain ⟨hneg, hx⟩ := isFinite_of_add hsum
  have hb : (cubed p.b).isFinite = true := (isFinite_of_mul hneg).2
  have htwo := isFinite_numeral (n := 2) (by norm_num)
  have hntwo : (-(2 : Float)).isFinite = true := by rwa [isFinite_neg]
  obtain ⟨hpos, hposv⟩ := (isRounding_mul hntwo hb).neg
    (y := 2 * cubed p.b) (by
      rw [toReal_neg, neg_mul, neg_neg]
      exact isRounding_mul htwo hb) hneg
  have hadd := isRounding_add hneg hx
  obtain ⟨hdiff, hdiffv⟩ := hadd.neg (y := 2 * cubed p.b - 9 * p.a * p.b * p.c) (by
    have := isRounding_sub hpos hx
    rwa [hposv, ← neg_add'] at this) hsum
  refine (isRounding_sub hsum hy).neg ?_ h
  have := isRounding_add hdiff hy
  rwa [hdiffv, neg_add_eq_sub, ← neg_sub] at this

/-! ## What a finite reduced coefficient `r` says -/

/-- A finite quotient by a multiple of a finite number shows that this number is not zero. -/
theorem toReal_ne_zero_of_div {n : Nat} (hn : n < 2 ^ 53) {x c : Float} (hc : c.isFinite = true)
    (h : (x / (Scalar.ofNat n * c)).isFinite = true) : toReal c ≠ 0 := by
  intro h0
  have hmul := (isRounding_mul (isFinite_numeral hn) hc).of_abs_le (by
    rw [h0, mul_zero, abs_zero]
    positivity)
  rw [h0, mul_zero, nearest_zero] at hmul
  rw [isFinite_div_of_eq_zero x hmul.1 hmul.2] at h
  cases h

/-- The numerator is finite, and the leading coefficient is not too small. -/
theorem zpow_lt_abs_a (ha : p.a.isFinite = true) (h : p.reducedR.isFinite = true) :
    p.numeratorR.isFinite = true ∧ 2 ^ (-360 : ℤ) < |toReal p.a| := by
  rw [reducedR_eq] at h
  refine ⟨(isFinite_of_div h).1, ?_⟩
  -- otherwise the third power of the coefficient underflows, and `r` is a quotient by zero
  by_contra hle
  obtain ⟨hf, h0⟩ := toReal_cubed_eq_zero ⟨ha, not_lt.1 hle⟩
  exact toReal_ne_zero_of_div (by norm_num) hf h h0

/-- The shift is finite. -/
theorem isFinite_shift (ha : p.a.isFinite = true) (h : p.reducedR.isFinite = true) :
    p.shift.isFinite = true := by
  obtain ⟨hn, hlow⟩ := zpow_lt_abs_a ha h
  have hb3 : (cubed p.b).isFinite = true :=
    (isFinite_of_mul (isFinite_of_add (isFinite_of_sub hn).1).1).2
  have hb : IsWithin p.b 342 := ⟨(isFinite_of_mul hb3).2, (abs_lt_of_isFinite_cubed hb3).le⟩
  show (p.b / (Scalar.ofNat 3 * p.a)).isFinite = true
  rcases numeral_mul_cases (n := 3) (by norm_num) ha with hinf | hf
  · obtain ⟨s, hs⟩ := exists_eq_inf hinf
    rw [hs]
    exact (finite_div_inf hb.1 s).1
  · have hle := le_abs_toReal_numeral_mul (i := 0) (by norm_num) (by norm_num) hf
    rw [pow_zero, one_mul] at hle
    exact (hb.div (hlow.le.trans hle) (by norm_num) (by norm_num)).1

/-- Where the quotient by fifty-four parts is a number, it bounds the dividend. -/
theorem abs_toReal_le_of_div {n c : Float} (hc : c.isFinite = true)
    (hr : (n / (Scalar.ofNat 54 * c)).isFinite = true)
    (hlt : |toReal (n / (Scalar.ofNat 54 * c))| < 2 ^ (512 : ℤ)) :
    |toReal n| ≤ 2 ^ (512 : ℤ) * (2 ^ 6 * |toReal c|) := by
  obtain ⟨hn, hden⟩ := isFinite_of_div hr
  rcases numeral_mul_cases (n := 54) (by norm_num) hc with hinf | hf
  · have hlarge := le_of_numeral_mul_eq_inf (n := 54) (i := 6) (by norm_num) (by norm_num) hc
      (Bool.eq_false_iff.2 fun hf => Bool.false_ne_true ((isInf_of_isFinite hf).symm.trans hinf))
    calc |toReal n| ≤ 2 ^ (1024 : ℤ) := (abs_toReal_lt n).le
      _ ≤ 2 ^ 6 * |toReal c| := hlarge
      _ ≤ 2 ^ (512 : ℤ) * (2 ^ 6 * |toReal c|) :=
        le_mul_of_one_le_left (by positivity) (one_le_zpow₀ one_le_two (by norm_num))
  · have h0 : toReal (Scalar.ofNat 54 * c) ≠ 0 :=
      hden.resolve_left fun h => Bool.false_ne_true ((isInf_of_isFinite hf).symm.trans h)
    have hup := abs_toReal_numeral_mul_le (n := 54) (i := 6) (by norm_num) (by norm_num) hf
    have hround := (isRounding_div hn h0).toReal_eq_of_isFinite hr
    -- rounding does not pass a power of two, so the exact quotient is bounded as well
    have hquot : |toReal n / toReal (Scalar.ofNat 54 * c)| < 2 ^ (512 : ℤ) := by
      by_contra hge
      have := le_abs_nearest (isRepresentable_zpow (by norm_num)) (not_lt.1 hge)
      rw [← hround] at this
      exact absurd hlt (not_lt.2 this)
    rw [abs_div, div_lt_iff₀ (abs_pos.2 h0)] at hquot
    exact hquot.le.trans (mul_le_mul_of_nonneg_left hup (by positivity))

/-- A quotient by twenty-seven parts is not much larger than one by fifty-four. -/
theorem isWithin_div_of_isWithin_div {n n' c : Float} (hn' : n'.isFinite = true)
    (hneg : toReal n' = -toReal n) (hr : (n / (Scalar.ofNat 54 * c)).isFinite = true)
    (hlt : |toReal (n / (Scalar.ofNat 54 * c))| < 2 ^ (512 : ℤ)) :
    IsWithin (n' / (Scalar.ofNat 27 * c)) 514 := by
  -- a denominator that overflows makes the quotient a zero
  have hzero (s : SignBit) : IsWithin (n' / inf s) 514 := by
    obtain ⟨hf, h0⟩ := finite_div_inf hn' s
    exact ⟨hf, by rw [h0, abs_zero]; positivity⟩
  rcases eq_nan_or_eq_inf_or_isFinite c with rfl | ⟨s, rfl⟩ | hcf
  · simp at hr
  · obtain ⟨s', hs'⟩ := exists_inf_mul_finite (x := Scalar.ofNat 27) s
      (by rw [toReal_numeral (by norm_num)]; norm_num)
    rw [Binary64.mul_comm, hs']
    exact hzero s'
  rcases numeral_mul_cases (n := 27) (by norm_num) hcf with hinf | hf
  · obtain ⟨s', hs'⟩ := exists_eq_inf hinf
    rw [hs']
    exact hzero s'
  have hbound := abs_toReal_le_of_div hcf hr hlt
  have hlow := le_abs_toReal_numeral_mul (n := 27) (i := 4) (by norm_num) (by norm_num) hf
  have hpos := abs_pos.2 (toReal_ne_zero_of_div (by norm_num) hcf hr)
  have h27 : 0 < |toReal (Scalar.ofNat 27 * c)| := lt_of_lt_of_le (by positivity) hlow
  refine (isRounding_div hn' (abs_pos.1 h27)).isWithin (by norm_num) (by norm_num) ?_
  rw [abs_div, hneg, abs_neg, div_le_iff₀ h27]
  calc |toReal n| ≤ 2 ^ (512 : ℤ) * (2 ^ 6 * |toReal c|) := hbound
    _ = 2 ^ (514 : ℤ) * (2 ^ 4 * |toReal c|) := by
      rw [show (514 : ℤ) = 512 + 2 from rfl, zpow_add₀ two_ne_zero]
      generalize (2 : ℝ) ^ (512 : ℤ) = m
      norm_num
      ring
    _ ≤ 2 ^ (514 : ℤ) * |toReal (Scalar.ofNat 27 * c)| :=
      mul_le_mul_of_nonneg_left hlow (by positivity)

/-- The depressed constant coefficient is not too large. -/
theorem isWithin_depressedQ (ha : p.a.isFinite = true)
    (h : (p.reducedR * p.reducedR).isFinite = true) : IsWithin p.depressedQ 514 := by
  have hr := (isFinite_of_mul h).1
  obtain ⟨hn', hneg⟩ := depressedNumerator_eq_neg (zpow_lt_abs_a ha hr).1
  exact isWithin_div_of_isWithin_div hn' hneg hr (abs_lt_of_isFinite_mul_self h)

/-! ## What a negative `q³ + r²` says -/

/-- `r²` is finite, and `q` is negative and not too small. -/
theorem isBelow_reducedQ (h : p.reducedDiscriminant < 0) :
    (p.reducedR * p.reducedR).isFinite = true ∧ IsBelow p.reducedQ (-2 ^ (-360 : ℤ)) := by
  have hbelow : IsBelow (cubed p.reducedQ + p.reducedR * p.reducedR) 0 := lt_zero_iff.1 h
  -- `r` is a number, since otherwise `q³ + r²` would be none
  have hr : p.reducedR.isNaN = false := by
    by_contra hnan
    rw [eq_nan (x := p.reducedR) (by simpa using hnan), nan_mul, add_nan] at hbelow
    exact absurd hbelow.isNaN (by simp)
  obtain ⟨hf, hq⟩ := isBelow_of_add (isNonneg_mul_self hr) hbelow
  exact ⟨hf, isBelow_of_isBelow_cubed hq⟩

theorem nearest_mul_self_nonneg {k : ℝ} (hk : 0 ≤ k) (r : ℝ) : 0 ≤ nearest (k * r) * r := by
  rcases le_total 0 r with h | h
  · exact mul_nonneg (nearest_nonneg (mul_nonneg hk h)) h
  · exact mul_nonneg_of_nonpos_of_nonpos (nearest_nonpos (mul_nonpos_of_nonneg_of_nonpos hk h)) h

/-- The denominators of the depressed linear coefficient and of the reduced `q` are in order. -/
theorem denominators_le (ha : p.a.isFinite = true) (hlow : 2 ^ (-360 : ℤ) < |toReal p.a|)
    (h : (Scalar.ofNat 9 * p.a * p.a).isFinite = true) :
    0 < toReal (Scalar.ofNat 3 * p.a * p.a) ∧
      toReal (Scalar.ofNat 3 * p.a * p.a) ≤ toReal (Scalar.ofNat 9 * p.a * p.a) := by
  have h3 := isFinite_numeral (n := 3) (by norm_num)
  have h9 := isFinite_numeral (n := 9) (by norm_num)
  have hnine := (isFinite_of_mul h).1
  have hval9 := (isRounding_mul h9 ha).toReal_eq_of_isFinite hnine
  -- Three times the coefficient has its sign and is not larger than nine times the coefficient.
  have hexact : |toReal (Scalar.ofNat 3) * toReal p.a| ≤
      |toReal (Scalar.ofNat 9) * toReal p.a| := by
    rw [toReal_numeral (by norm_num), toReal_numeral (by norm_num), abs_mul, abs_mul]
    exact mul_le_mul_of_nonneg_right (by norm_num) (abs_nonneg _)
  have hle : |nearest (toReal (Scalar.ofNat 3) * toReal p.a)| ≤
      |toReal (Scalar.ofNat 9 * p.a)| := by
    rw [hval9, abs_nearest, abs_nearest]
    exact nearest_mono hexact
  obtain ⟨hthree, hval3⟩ := (isRounding_mul h3 ha).of_abs_nearest_lt
    (hle.trans_lt (abs_toReal_lt _))
  rw [← hval3] at hle
  have hsign3 : 0 ≤ toReal (Scalar.ofNat 3 * p.a) * toReal p.a := by
    rw [hval3]
    exact nearest_mul_self_nonneg (by rw [toReal_numeral (by norm_num)]; positivity) _
  have hsign9 : 0 ≤ toReal (Scalar.ofNat 9 * p.a) * toReal p.a := by
    rw [hval9]
    exact nearest_mul_self_nonneg (by rw [toReal_numeral (by norm_num)]; positivity) _
  have hprod : toReal (Scalar.ofNat 3 * p.a) * toReal p.a ≤
      toReal (Scalar.ofNat 9 * p.a) * toReal p.a := by
    rw [← abs_of_nonneg hsign3, ← abs_of_nonneg hsign9, abs_mul, abs_mul]
    exact mul_le_mul_of_nonneg_right hle (abs_nonneg _)
  -- Multiplying by the coefficient once more keeps the order, and the small product is no zero.
  have hden9 := (isRounding_mul hnine ha).toReal_eq_of_isFinite h
  have hmono : nearest (toReal (Scalar.ofNat 3 * p.a) * toReal p.a) ≤
      toReal (Scalar.ofNat 9 * p.a * p.a) := by
    rw [hden9]
    exact nearest_mono hprod
  have hnonneg := nearest_nonneg hsign3
  obtain ⟨hf, hden3⟩ := (isRounding_mul hthree ha).of_abs_nearest_lt (by
    rw [abs_of_nonneg hnonneg]
    exact (hmono.trans (le_abs_self _)).trans_lt (abs_toReal_lt _))
  have hlow3 := le_abs_toReal_numeral_mul (n := 3) (i := 0) (by norm_num) (by norm_num) hthree
  rw [pow_zero, one_mul] at hlow3
  have hsmall := le_abs_toReal_mul hf (hlow.le.trans hlow3) hlow.le (by norm_num)
  rw [hden3, abs_of_nonneg hnonneg] at hsmall
  rw [hden3]
  exact ⟨lt_of_lt_of_le (by positivity) hsmall, hmono⟩

/-- The depressed linear coefficient is negative and not too small. -/
theorem isBelow_depressedP (ha : p.a.isFinite = true) (h : p.reducedDiscriminant < 0) :
    IsBelow p.depressedP (-2 ^ (-360 : ℤ)) := by
  obtain ⟨hr, hq⟩ := isBelow_reducedQ h
  obtain ⟨-, hlow⟩ := zpow_lt_abs_a ha (isFinite_of_mul hr).1
  rw [reducedQ_eq] at hq
  obtain ⟨hpos, hle⟩ := denominators_le ha hlow (hq.isFinite_of_div (by simp))
  rw [depressedP_eq]
  refine hq.div_of_le (by simp) ?_ hpos hle
  rw [abs_neg, abs_of_pos (by positivity)]
  exact zpow_lt_zpow_right₀ one_lt_two (by norm_num)

/-! ## The trigonometric formula -/

/-- The amplitude is a number. -/
theorem isNaN_amplitude (h : IsBelow p.depressedP (-2 ^ (-360 : ℤ))) :
    p.amplitude.isNaN = false := by
  have hnonneg : IsNonneg (-p.depressedP / Scalar.ofNat 3) :=
    (h.isNonneg_neg (by simp)).div_of_pos (by rw [toReal_numeral (by norm_num)]; norm_num)
  show (Scalar.ofNat 2 * (-p.depressedP / Scalar.ofNat 3).sqrt).isNaN = false
  rw [Binary64.mul_comm]
  exact isNaN_mul_of_ne_zero hnonneg.sqrt.isNaN (by rw [toReal_numeral (by norm_num)]; norm_num)

/-- The cosine of the angle is a number before it is clamped. -/
theorem isNaN_angleCosine (hp : IsBelow p.depressedP (-2 ^ (-360 : ℤ)))
    (hq : IsWithin p.depressedQ 514) : p.angleCosine.isNaN = false := by
  have hbound : |(-2 ^ (-360 : ℤ) : ℝ)| < 2 ^ (1024 : ℤ) := by
    rw [abs_neg, abs_of_pos (by positivity)]
    exact zpow_lt_zpow_right₀ one_lt_two (by norm_num)
  have htwo : IsBelow (Scalar.ofNat 2 * p.depressedP) (-2 ^ (-360 : ℤ)) :=
    hp.mul_of_one_le (by simp) hbound (by rw [toReal_numeral (by norm_num)]; norm_num)
  have hthree : IsWithin (Scalar.ofNat 3) 2 := isWithin_numeral (i := 2) (by norm_num) (by norm_num)
  have hquot : IsWithin (Scalar.ofNat 3 * p.depressedQ / (Scalar.ofNat 2 * p.depressedP)) 876 :=
    (hthree.mul hq (by norm_num) (by norm_num)).div_of_isBelow htwo (by norm_num) (by norm_num)
  have hinv : IsWithin (-Scalar.ofNat 3 / p.depressedP) 362 :=
    hthree.neg.div_of_isBelow hp (by norm_num) (by norm_num)
  -- the radicand is not negative, the divisor being a negative number or the negative infinity
  have hinv0 : 0 ≤ toReal (-Scalar.ofNat 3 / p.depressedP) := by
    rcases hp with hp | ⟨hf, hlt⟩
    · rw [hp, (finite_div_inf hthree.neg.1 _).2]
    · have hneg : toReal p.depressedP < 0 := hlt.trans (by simp)
      rw [(isRounding_div hthree.neg.1 hneg.ne).toReal_eq_of_isFinite hinv.1]
      refine nearest_nonneg (div_nonneg_of_nonpos ?_ hneg.le)
      rw [toReal_neg, toReal_numeral (by norm_num)]
      norm_num
  exact (isRounding_mul hquot.1 (isWithin_sqrt hinv.1 hinv0).1).isNaN

/-! ## Cardano's formula -/

/-- The shift is a number. -/
theorem isNaN_shift (ha : p.a.isFinite = true) (ha0 : toReal p.a ≠ 0) (hb : p.b.isFinite = true) :
    p.shift.isNaN = false := by
  show (p.b / (Scalar.ofNat 3 * p.a)).isNaN = false
  rcases numeral_mul_cases (n := 3) (by norm_num) ha with hinf | hf
  · obtain ⟨s, hs⟩ := exists_eq_inf hinf
    rw [hs]
    exact isNaN_of_isFinite (finite_div_inf hb s).1
  · have hle := le_abs_toReal_numeral_mul (i := 1) (by norm_num) (by norm_num) hf
    have hpos := abs_pos.2 ha0
    exact (isRounding_div hb (abs_pos.1 (lt_of_lt_of_le (by positivity) hle))).isNaN

/-- Where `q³ + r²` is not finite, the sum of the two cube roots is "not a number". -/
theorem cardanoS_add_cardanoT_eq_nan (hm : maths.IsLawful) (h : ¬ p.reducedDiscriminant < 0)
    (hf : p.reducedDiscriminant.isFinite = false) :
    p.cardanoS maths + p.cardanoT maths = nan := by
  show maths.cbrt (p.reducedR + p.reducedDiscriminant.sqrt) +
    maths.cbrt (p.reducedR - p.reducedDiscriminant.sqrt) = nan
  -- `q³ + r²` is "not a number" or the positive infinity, and then `r` decides
  rcases eq_nan_or_eq_inf_or_isFinite p.reducedDiscriminant with hd | ⟨s, hd⟩ | hd
  · rw [hd, sqrt_nan, add_nan, hm.cbrt_nan, nan_add]
  · cases s with
    | negative => exact absurd (lt_zero_iff.2 (Or.inl hd)) h
    | positive =>
      rw [hd, sqrt_inf]
      rcases eq_nan_or_eq_inf_or_isFinite p.reducedR with hr | ⟨s, hr⟩ | hr
      · rw [hr, nan_add, hm.cbrt_nan, nan_add]
      · rw [hr]
        cases s with
        | negative => rw [show inf .negative + inf .positive = nan by decide, hm.cbrt_nan, nan_add]
        | positive => rw [inf_sub_inf, hm.cbrt_nan, add_nan]
      · rw [finite_add_inf hr, finite_sub_inf hr, hm.cbrt_inf, hm.cbrt_inf, inf_add_neg_inf]
  · rw [hf] at hd
    cases hd

/-- The cube roots are not large where `q³ + r²` is finite. -/
theorem isWithin_cardano (hm : maths.IsLawful) (h : ¬ p.reducedDiscriminant < 0)
    (hf : p.reducedDiscriminant.isFinite = true) :
    IsWithin (p.cardanoS maths) 513 ∧ IsWithin (p.cardanoT maths) 513 := by
  -- `r²` is finite, so `r` and the square root are below the square root of the largest float
  have hcbrt (x : Float) (hx : IsWithin x 513) : IsWithin (maths.cbrt x) 513 :=
    ⟨hm.isFinite_cbrt x hx.1,
      (hm.abs_cbrt_le x hx.1).trans (max_le (one_le_zpow₀ one_le_two (by norm_num)) hx.2)⟩
  have hrr : (p.reducedR * p.reducedR).isFinite = true := (isFinite_of_add hf).2
  have hr : IsWithin p.reducedR 512 :=
    ⟨(isFinite_of_mul hrr).1, (abs_lt_of_isFinite_mul_self hrr).le⟩
  have h0 : 0 ≤ toReal p.reducedDiscriminant :=
    not_lt.1 fun hlt => h (lt_zero_iff.2 (Or.inr ⟨hf, hlt⟩))
  have hroot := isWithin_sqrt hf h0
  exact ⟨hcbrt _ (hr.add hroot (by norm_num) (by norm_num)),
    hcbrt _ (hr.sub hroot (by norm_num) (by norm_num))⟩

/-- Cardano's formula finds numbers where `q³ + r²` is finite. -/
theorem not_isUndefined_of_mem_cardanoRoots (hm : maths.IsLawful) (ha : p.a.isFinite = true)
    (ha0 : toReal p.a ≠ 0) (hb : p.b.isFinite = true) (h : ¬ p.reducedDiscriminant < 0)
    (hf : p.reducedDiscriminant.isFinite = true) {z : ComplexNum Float}
    (hz : z ∈ p.cardanoRoots maths) : ¬ z.IsUndefined := by
  obtain ⟨hs, ht⟩ := isWithin_cardano hm h hf
  have hsum := hs.add ht (by norm_num) (by norm_num)
  have hdiff := hs.sub ht (by norm_num) (by norm_num)
  -- the shift may be infinite, but what is subtracted from it is finite
  have hshift := isNaN_shift ha ha0 hb
  have htwo : toReal (Scalar.ofNat 2) = 2 := toReal_numeral (by norm_num)
  have hreal : (p.cardanoS maths + p.cardanoT maths - p.shift).isNaN = false :=
    isNaN_sub_of_isFinite hsum.1 hshift
  have hhalf := hsum.neg.div (y := Scalar.ofNat 2) (j := 1) (by rw [htwo]; norm_num)
    (by norm_num) (by norm_num)
  have hre : (-(p.cardanoS maths + p.cardanoT maths) / Scalar.ofNat 2 - p.shift).isNaN = false :=
    isNaN_sub_of_isFinite hhalf.1 hshift
  have hthree : (Scalar.ofNat 3 : Float).sqrt.isFinite = true :=
    (isWithin_sqrt (isFinite_numeral (by norm_num))
      (by rw [toReal_numeral (by norm_num)]; norm_num)).1
  have him : ((p.cardanoS maths - p.cardanoT maths) * (Scalar.ofNat 3 : Float).sqrt /
      Scalar.ofNat 2).isNaN = false :=
    isNaN_div_of_ne_zero (isRounding_mul hdiff.1 hthree).isNaN (by rw [htwo]; norm_num)
  simp only [cardanoRoots, List.mem_cons, List.not_mem_nil, or_false] at hz
  rcases hz with rfl | rfl | rfl
  · exact ComplexNum.not_isUndefined hreal (isNaN_im_ofReal _)
  · exact ComplexNum.not_isUndefined hre him
  · exact ComplexNum.not_isUndefined hre (by rw [isNaN_neg]; exact him)

end Coefficients

end EquationRoots
