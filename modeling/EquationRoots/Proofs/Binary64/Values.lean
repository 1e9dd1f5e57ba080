import EquationRoots.Proofs.Binary64.Arithmetic

/-!
# Values of floats

A float is "not a number" (`nan`), an infinity (`inf`), or finite with a real number as its value
(`toReal`). On finite floats the arithmetic operations round the exact result (`IsRounding`), and
the order is the order of the values; the rules for the other operands are equations about `nan`
and `inf`.
-/

set_option autoImplicit false

namespace EquationRoots.Binary64

open Float (nan)
open Float.Model Float.Model.UnpackedFloat

/-! ## Three kinds of floats -/

/-- The real number of a finite float, and zero for the others. -/
noncomputable def toReal (x : Float) : ℝ := realOf (view x)

/-- The infinity of a sign. -/
def inf (s : SignBit) : Float := .ofModel (.pack (.infinity s))

@[simp] theorem view_nan : view nan = .notANumber := rfl

@[simp] theorem view_inf (s : SignBit) : view (inf s) = .infinity s :=
  view_ofModel_pack_of_fits trivial trivial

theorem isFinite_eq (x : Float) : x.isFinite = (view x).isFinite := rfl

theorem isNaN_eq (x : Float) : x.isNaN = (view x).isNaN := rfl

theorem isInf_eq (x : Float) : x.isInf = (view x).isInf := rfl

theorem isNaN_nan : nan.isNaN = true := by rw [isNaN_eq, view_nan]; rfl

@[simp] theorem isFinite_nan : nan.isFinite = false := by rw [isFinite_eq, view_nan]; rfl

theorem isNaN_inf (s : SignBit) : (inf s).isNaN = false := by rw [isNaN_eq, view_inf]; rfl

@[simp] theorem isFinite_inf (s : SignBit) : (inf s).isFinite = false := by
  rw [isFinite_eq, view_inf]; rfl

@[simp] theorem isInf_inf (s : SignBit) : (inf s).isInf = true := by rw [isInf_eq, view_inf]; rfl

/-- There is one float that is "not a number". -/
theorem eq_nan {x : Float} (h : x.isNaN = true) : x = nan := by simpa using h

/-- There is one infinity of each sign. -/
theorem exists_eq_inf {x : Float} (h : x.isInf = true) : ∃ s, x = inf s := by
  rw [isInf_eq] at h
  cases hx : view x with
  | infinity s => exact ⟨s, view_injective (by rw [hx, view_inf])⟩
  | _ => simp_all [UnpackedFloat.isInf]

/-- A float is "not a number", an infinity or finite. -/
theorem eq_nan_or_eq_inf_or_isFinite (x : Float) :
    x = nan ∨ (∃ s, x = inf s) ∨ x.isFinite = true := by
  cases hx : view x with
  | notANumber => exact Or.inl (view_injective (by rw [hx, view_nan]))
  | infinity s => exact Or.inr (Or.inl ⟨s, view_injective (by rw [hx, view_inf])⟩)
  | zero s | finite s m e h => exact Or.inr (Or.inr (by rw [isFinite_eq, hx]; rfl))

theorem isNaN_of_isFinite {x : Float} (h : x.isFinite = true) : x.isNaN = false := by
  rw [isFinite_eq] at h
  rw [isNaN_eq]
  cases hx : view x <;> simp_all [UnpackedFloat.isFinite, UnpackedFloat.isNaN]

theorem isInf_of_isFinite {x : Float} (h : x.isFinite = true) : x.isInf = false := by
  rw [isFinite_eq] at h
  rw [isInf_eq]
  cases hx : view x <;> simp_all [UnpackedFloat.isFinite, UnpackedFloat.isInf]

/-- A number that is not finite is an infinity. -/
theorem isInf_of_not_isFinite {x : Float} (hnan : x.isNaN = false) (h : x.isFinite = false) :
    x.isInf = true := by
  rcases eq_nan_or_eq_inf_or_isFinite x with rfl | ⟨s, rfl⟩ | hf
  · rw [isNaN_nan] at hnan
    cases hnan
  · exact isInf_inf s
  · rw [hf] at h
    cases h

@[simp] theorem toReal_neg (x : Float) : toReal (-x) = -toReal x := by
  rw [toReal, view_neg, realOf_neg, toReal]

@[simp] theorem isFinite_neg (x : Float) : (-x).isFinite = x.isFinite := by
  rw [isFinite_eq, isFinite_eq, view_neg]
  cases view x <;> rfl

theorem isNaN_neg (x : Float) : (-x).isNaN = x.isNaN := by
  rw [isNaN_eq, isNaN_eq, view_neg]
  cases view x <;> rfl

@[simp] theorem neg_inf (s : SignBit) : -inf s = inf (-s) :=
  view_injective (by simp [UnpackedFloat.neg])

@[simp] theorem abs_inf (s : SignBit) : (inf s).abs = inf .positive :=
  view_injective (by simp [UnpackedFloat.abs])

@[simp] theorem isFinite_abs (x : Float) : x.abs.isFinite = x.isFinite := by
  rw [isFinite_eq, isFinite_eq, view_abs]
  cases view x <;> rfl

theorem isNaN_abs (x : Float) : x.abs.isNaN = x.isNaN := by
  rw [isNaN_eq, isNaN_eq, view_abs]
  cases view x <;> rfl

@[simp] theorem toReal_abs (x : Float) : toReal x.abs = |toReal x| := by
  rw [toReal, toReal, view_abs]
  cases view x with
  | finite s m e h =>
    have hpos : (0 : ℝ) < m * (2 : ℝ) ^ e := by positivity
    rw [UnpackedFloat.abs, realOf_finite, realOf_finite]
    cases s <;> simp [signFactor]
  | _ => simp [realOf, UnpackedFloat.abs]

/-- The value of a float needs no rounding. -/
theorem isRepresentable_toReal (x : Float) : IsRepresentable (toReal x) :=
  isRepresentable_realOf (isCanonical_view x)

theorem isRepresentable_two_pow_mul_abs (x : Float) (i : ℕ) :
    IsRepresentable (2 ^ i * |toReal x|) := by
  rw [← toReal_abs]
  exact (isRepresentable_toReal _).two_pow_mul i

/-- The largest value of a float: a mantissa of ones under the largest exponent. -/
theorem abs_toReal_le (x : Float) : |toReal x| ≤ (2 ^ 53 - 1) * 2 ^ (971 : ℤ) := by
  have hc := isCanonical_view x
  have hf := fits_view x
  rw [toReal]
  cases hx : view x with
  | finite s m e h =>
    rw [hx] at hc hf
    have hm : (m : ℝ) ≤ 2 ^ 53 - 1 := by
      have hlt : (m : ℝ) + 1 ≤ 2 ^ 53 := by exact_mod_cast hc.1
      linarith
    have he : (2 : ℝ) ^ e ≤ 2 ^ (971 : ℤ) := zpow_le_zpow_right₀ one_le_two hf
    have hpos : (0 : ℝ) < 2 ^ e := by positivity
    have habs : |realOf (.finite s m e h)| = m * (2 : ℝ) ^ e := by
      rw [realOf_finite]
      cases s <;> simp [signFactor, abs_of_pos hpos]
    calc |realOf (.finite s m e h)| = m * (2 : ℝ) ^ e := habs
      _ ≤ (2 ^ 53 - 1) * 2 ^ (971 : ℤ) := mul_le_mul hm he hpos.le (by norm_num)
  | _ =>
    simp only [realOf, abs_zero]
    exact mul_nonneg (by norm_num) (by positivity)

/-- Values of floats are below `2 ^ 1024`. -/
theorem abs_toReal_lt (x : Float) : |toReal x| < 2 ^ (1024 : ℤ) := by
  refine (abs_toReal_le x).trans_lt ?_
  rw [show (1024 : ℤ) = (53 : ℕ) + 971 by norm_num, zpow_add₀ two_ne_zero, zpow_natCast]
  exact mul_lt_mul_of_pos_right (by norm_num) (by positivity)

/-! ## Results of operations -/

/-- The float is a real number rounded, or an infinity if the rounded number is too large. -/
inductive IsRounding (r : ℝ) (x : Float) : Prop
  | finite (isFinite : x.isFinite = true) (toReal_eq : toReal x = nearest r)
  | overflow (s : SignBit) (eq_inf : x = inf s) (le : 2 ^ (1024 : ℤ) ≤ signFactor s * nearest r)

/-- Storing a result keeps its value up to overflow. -/
theorem IsNearest.isRounding {r : ℝ} {u : UnpackedFloat} (h : IsNearest r u) :
    IsRounding r (.ofModel (.pack u)) := by
  obtain ⟨hc, hf, hr⟩ := h
  by_cases hfit : Fits u
  · have hview := view_ofModel_pack_of_fits hc hfit
    exact .finite (by rw [isFinite_eq, hview, hf]) (by rw [toReal, hview, hr])
  · cases u with
    | finite s m e hm =>
      have he : 971 < e := not_le.1 hfit
      have hm' : (2 : ℝ) ^ 52 ≤ m := by
        obtain h | h := hc.2.2
        · exact_mod_cast h
        · omega
      have hpow : (2 : ℝ) ^ (972 : ℤ) ≤ 2 ^ e := zpow_le_zpow_right₀ one_le_two he
      refine .overflow s (view_injective ?_) ?_
      · rw [view_ofModel_pack hc, overflowed, if_neg (by omega), view_inf]
      · have hs : signFactor s * signFactor s = 1 := by cases s <;> norm_num [signFactor]
        rw [← hr, realOf_finite, ← mul_assoc, hs, one_mul]
        calc (2 : ℝ) ^ (1024 : ℤ) = (2 : ℝ) ^ (52 : ℤ) * (2 : ℝ) ^ (972 : ℤ) :=
              zpow_add₀ two_ne_zero 52 972
          _ ≤ m * (2 : ℝ) ^ e :=
            mul_le_mul (by exact_mod_cast hm') hpow (by positivity) (by positivity)
    | _ => exact absurd trivial hfit

section Finite

variable {x y : Float} (hx : x.isFinite = true) (hy : y.isFinite = true)

include hx hy

/-- Addition of finite floats rounds the sum. -/
theorem isRounding_add : IsRounding (toReal x + toReal y) (x + y) :=
  (isNearest_add (isCanonical_view x) (isCanonical_view y) hx hy).isRounding

/-- Subtraction of finite floats rounds the difference. -/
theorem isRounding_sub : IsRounding (toReal x - toReal y) (x - y) :=
  (isNearest_sub (isCanonical_view x) (isCanonical_view y) hx hy).isRounding

/-- Multiplication of finite floats rounds the product. -/
theorem isRounding_mul : IsRounding (toReal x * toReal y) (x * y) :=
  (isNearest_mul (isCanonical_view x) (isCanonical_view y) hx hy).isRounding

omit hy in
/-- Division of a finite float rounds the quotient, unless the divisor has no value or zero. -/
theorem isRounding_div (hy : toReal y ≠ 0) : IsRounding (toReal x / toReal y) (x / y) :=
  (isNearest_div hx hy).isRounding

omit hy in
/-- The square root of a finite float that is not negative rounds the square root. -/
theorem isRounding_sqrt (h : 0 ≤ toReal x) : IsRounding (√(toReal x)) x.sqrt :=
  (isNearest_sqrt hx h).isRounding

end Finite

theorem IsRounding.isNaN {r : ℝ} {x : Float} (h : IsRounding r x) : x.isNaN = false := by
  cases h with
  | finite hf => exact isNaN_of_isFinite hf
  | overflow s hs => rw [hs, isNaN_inf]

theorem signFactor_mul_le_abs (s : SignBit) (r : ℝ) : signFactor s * r ≤ |r| := by
  cases s
  · simpa [signFactor] using neg_le_abs r
  · simpa [signFactor] using le_abs_self r

/-- A result is finite if the rounded number is below `2 ^ 1024`. -/
theorem IsRounding.of_abs_nearest_lt {r : ℝ} {x : Float} (h : IsRounding r x)
    (hr : |nearest r| < 2 ^ (1024 : ℤ)) : x.isFinite = true ∧ toReal x = nearest r := by
  cases h with
  | finite hf hx => exact ⟨hf, hx⟩
  | overflow s hs hle =>
    exact absurd (hle.trans (signFactor_mul_le_abs s _)) (not_le.2 hr)

/-- A result of moderate size is finite. -/
theorem IsRounding.of_abs_le {r : ℝ} {x : Float} (h : IsRounding r x)
    (hr : |r| ≤ 2 ^ (1023 : ℤ)) : x.isFinite = true ∧ toReal x = nearest r := by
  exact h.of_abs_nearest_lt ((abs_nearest_le (isRepresentable_zpow (by norm_num)) hr).trans_lt
    (zpow_lt_zpow_right₀ one_lt_two (by norm_num)))

/-- Opposite exact results have opposite rounded ones. -/
theorem IsRounding.neg {r : ℝ} {x y : Float} (hx : IsRounding r x) (hy : IsRounding (-r) y)
    (hf : x.isFinite = true) : y.isFinite = true ∧ toReal y = -toReal x := by
  have hv : toReal x = nearest r := by
    cases hx with
    | finite _ hx => exact hx
    | overflow s hs => rw [hs] at hf; simp at hf
  have hlt : |nearest (-r)| < 2 ^ (1024 : ℤ) := by
    rw [nearest_neg, abs_neg, ← hv]
    exact abs_toReal_lt x
  obtain ⟨hfy, hvy⟩ := hy.of_abs_nearest_lt hlt
  exact ⟨hfy, by rw [hvy, nearest_neg, hv]⟩

/-- A result that is finite has the rounded number as its value, which is below `2 ^ 1024`. -/
theorem IsRounding.toReal_eq_of_isFinite {r : ℝ} {x : Float} (h : IsRounding r x)
    (hf : x.isFinite = true) : toReal x = nearest r := by
  cases h with
  | finite _ hx => exact hx
  | overflow s hs => rw [hs, isFinite_inf] at hf; cases hf

/-! ## Operands that are not finite -/

/-- The operations compute on what their operands stand for. -/
theorem add_eq (x y : Float) :
    x + y = .ofModel (.pack (UnpackedFloat.add Format.binary64 (view x) (view y))) := rfl

theorem sub_eq (x y : Float) :
    x - y = .ofModel (.pack (UnpackedFloat.sub Format.binary64 (view x) (view y))) := rfl

theorem mul_eq (x y : Float) :
    x * y = .ofModel (.pack (UnpackedFloat.mul Format.binary64 (view x) (view y))) := rfl

theorem div_eq (x y : Float) :
    x / y = .ofModel (.pack (UnpackedFloat.div Format.binary64 (view x) (view y))) := rfl

theorem sqrt_eq (x : Float) :
    x.sqrt = .ofModel (.pack (UnpackedFloat.sqrt Format.binary64 (view x))) := rfl

@[simp] theorem nan_add (x : Float) : nan + x = nan := by rw [add_eq, view_nan]; rfl

@[simp] theorem add_nan (x : Float) : x + nan = nan := by
  rw [add_eq, view_nan]; cases view x <;> rfl

@[simp] theorem nan_sub (x : Float) : nan - x = nan := by rw [sub_eq, view_nan]; rfl

@[simp] theorem sub_nan (x : Float) : x - nan = nan := by
  rw [sub_eq, view_nan]; cases view x <;> rfl

@[simp] theorem nan_mul (x : Float) : nan * x = nan := by rw [mul_eq, view_nan]; rfl

@[simp] theorem mul_nan (x : Float) : x * nan = nan := by
  rw [mul_eq, view_nan]; cases view x <;> rfl

@[simp] theorem nan_div (x : Float) : nan / x = nan := by rw [div_eq, view_nan]; rfl

@[simp] theorem div_nan (x : Float) : x / nan = nan := by
  rw [div_eq, view_nan]; cases view x <;> rfl

@[simp] theorem sqrt_nan : nan.sqrt = nan := by rw [sqrt_eq, view_nan]; rfl

@[simp] theorem inf_add_inf (s : SignBit) : inf s + inf s = inf s := by
  rw [add_eq, view_inf]; cases s <;> rfl

@[simp] theorem inf_sub_inf (s : SignBit) : inf s - inf s = nan := by
  rw [sub_eq, view_inf]; cases s <;> rfl

@[simp] theorem inf_add_neg_inf (s : SignBit) : inf s + inf (-s) = nan := by
  rw [add_eq, view_inf, view_inf]; cases s <;> rfl

@[simp] theorem inf_mul_inf (s s' : SignBit) : inf s * inf s' = inf (s * s') := by
  rw [mul_eq, view_inf, view_inf]; rfl

@[simp] theorem inf_div_inf (s s' : SignBit) : inf s / inf s' = nan := by
  rw [div_eq, view_inf, view_inf]; rfl

@[simp] theorem sqrt_inf : (inf .positive).sqrt = inf .positive := by rw [sqrt_eq, view_inf]; rfl

/-- Multiplication does not depend on the order of its factors. -/
protected theorem mul_comm (x y : Float) : x * y = y * x := by
  have hsign (s s' : SignBit) : s * s' = s' * s := by cases s <;> cases s' <;> rfl
  rw [mul_eq, mul_eq]
  congr 2
  cases view x <;> cases view y <;>
    simp only [UnpackedFloat.mul, hsign, Nat.mul_comm, Int.add_comm]

/-- A finite float stands for a zero or for a mantissa with an exponent. -/
theorem view_of_isFinite {x : Float} (hx : x.isFinite = true) :
    (∃ s, view x = .zero s) ∨ ∃ s m e h, view x = .finite s m e h := by
  rw [isFinite_eq] at hx
  cases hv : view x with
  | zero s => exact Or.inl ⟨s, rfl⟩
  | finite s m e h => exact Or.inr ⟨s, m, e, h, rfl⟩
  | _ => rw [hv] at hx; cases hx

/-- A float whose value is not zero has a mantissa with an exponent. -/
theorem view_of_toReal_ne_zero {x : Float} (hx : toReal x ≠ 0) :
    ∃ s m e h, view x = .finite s m e h := by
  rw [toReal] at hx
  cases hv : view x with
  | finite s m e h => exact ⟨s, m, e, h, rfl⟩
  | _ => rw [hv] at hx; exact absurd rfl hx

theorem view_of_toReal_eq_zero {x : Float} (hx : x.isFinite = true) (h0 : toReal x = 0) :
    ∃ s, view x = .zero s := by
  obtain h | ⟨s, m, e, h, hv⟩ := view_of_isFinite hx
  · exact h
  · have hpos : (0 : ℝ) < m * (2 : ℝ) ^ e := by positivity
    rw [toReal, hv, realOf_finite] at h0
    cases s <;> rw [signFactor] at h0 <;> linarith

theorem isFinite_of_toReal_ne_zero {x : Float} (hx : toReal x ≠ 0) : x.isFinite = true := by
  obtain ⟨s, m, e, h, hv⟩ := view_of_toReal_ne_zero hx
  rw [isFinite_eq, hv]
  rfl

theorem inf_add_finite {x : Float} (hx : x.isFinite = true) (s : SignBit) : inf s + x = inf s := by
  obtain ⟨s', hv⟩ | ⟨s', m, e, h, hv⟩ := view_of_isFinite hx <;> rw [add_eq, view_inf, hv] <;> rfl

theorem finite_add_inf {x : Float} (hx : x.isFinite = true) (s : SignBit) : x + inf s = inf s := by
  obtain ⟨s', hv⟩ | ⟨s', m, e, h, hv⟩ := view_of_isFinite hx <;> rw [add_eq, view_inf, hv] <;> rfl

theorem inf_sub_finite {x : Float} (hx : x.isFinite = true) (s : SignBit) : inf s - x = inf s := by
  obtain ⟨s', hv⟩ | ⟨s', m, e, h, hv⟩ := view_of_isFinite hx <;> rw [sub_eq, view_inf, hv] <;> rfl

theorem finite_sub_inf {x : Float} (hx : x.isFinite = true) (s : SignBit) :
    x - inf s = inf (-s) := by
  obtain ⟨s', hv⟩ | ⟨s', m, e, h, hv⟩ := view_of_isFinite hx <;> rw [sub_eq, view_inf, hv] <;> rfl

/-- A finite number divided by an infinity is a zero. -/
theorem finite_div_inf {x : Float} (hx : x.isFinite = true) (s : SignBit) :
    (x / inf s).isFinite = true ∧ toReal (x / inf s) = 0 := by
  have hzero (s' : SignBit) : view (.ofModel (.pack (.zero s'))) = .zero s' :=
    view_ofModel_pack_of_fits trivial trivial
  obtain ⟨s', hv⟩ | ⟨s', m, e, h, hv⟩ := view_of_isFinite hx <;>
    rw [isFinite_eq, toReal, div_eq, view_inf, hv, UnpackedFloat.div, hzero] <;> exact ⟨rfl, rfl⟩

/-- An infinity divided by a finite number is an infinity. -/
theorem exists_inf_div_finite {x : Float} (hx : x.isFinite = true) (s : SignBit) :
    ∃ s', inf s / x = inf s' := by
  obtain ⟨s', hv⟩ | ⟨s', m, e, h, hv⟩ := view_of_isFinite hx <;> rw [div_eq, view_inf, hv] <;>
    exact ⟨s / s', rfl⟩

theorem inf_div_of_pos {x : Float} (s : SignBit) (h : 0 < toReal x) : inf s / x = inf s := by
  obtain ⟨s', m, e, hm, hv⟩ := view_of_toReal_ne_zero h.ne'
  have hpos : (0 : ℝ) < m * (2 : ℝ) ^ e := by positivity
  rw [toReal, hv, realOf_finite] at h
  rw [div_eq, view_inf, hv]
  cases s' with
  | positive => cases s <;> rfl
  | negative => rw [signFactor] at h; linarith

theorem inf_mul_of_pos {x : Float} (s : SignBit) (h : 0 < toReal x) : inf s * x = inf s := by
  obtain ⟨s', m, e, hm, hv⟩ := view_of_toReal_ne_zero h.ne'
  have hpos : (0 : ℝ) < m * (2 : ℝ) ^ e := by positivity
  rw [toReal, hv, realOf_finite] at h
  rw [mul_eq, view_inf, hv]
  cases s' with
  | positive => cases s <;> rfl
  | negative => rw [signFactor] at h; linarith

/-- An infinity times a number that is not zero is an infinity. -/
theorem exists_inf_mul_finite {x : Float} (s : SignBit) (h : toReal x ≠ 0) :
    ∃ s', inf s * x = inf s' := by
  obtain ⟨s', m, e, hm, hv⟩ := view_of_toReal_ne_zero h
  exact ⟨s * s', by rw [mul_eq, view_inf, hv]; rfl⟩

/-- An infinity times zero is "not a number". -/
theorem inf_mul_of_eq_zero {x : Float} (hx : x.isFinite = true) (s : SignBit) (h : toReal x = 0) :
    inf s * x = nan := by
  obtain ⟨s', hv⟩ := view_of_toReal_eq_zero hx h
  rw [mul_eq, view_inf, hv]
  rfl

/-- A quotient by zero is not finite. -/
theorem isFinite_div_of_eq_zero (x : Float) {y : Float} (hy : y.isFinite = true)
    (h0 : toReal y = 0) : (x / y).isFinite = false := by
  obtain ⟨s, hv⟩ := view_of_toReal_eq_zero hy h0
  have hinf (s' : SignBit) : (Float.ofModel (.pack (.infinity s'))).isFinite = false :=
    isFinite_inf s'
  rw [div_eq, hv]
  cases view x with
  | notANumber | zero s' => exact isFinite_nan
  | infinity s' | finite s' m e h => exact hinf (s' / s)

/-- Both terms of a finite sum are finite. -/
theorem isFinite_of_add {x y : Float} (h : (x + y).isFinite = true) :
    x.isFinite = true ∧ y.isFinite = true := by
  rcases eq_nan_or_eq_inf_or_isFinite x with rfl | ⟨s, rfl⟩ | hx
  · simp at h
  · rcases eq_nan_or_eq_inf_or_isFinite y with rfl | ⟨s', rfl⟩ | hy
    · simp at h
    · rw [add_eq, view_inf, view_inf] at h
      cases s <;> cases s' <;> exact absurd h (by decide)
    · rw [inf_add_finite hy, isFinite_inf] at h
      cases h
  · rcases eq_nan_or_eq_inf_or_isFinite y with rfl | ⟨s', rfl⟩ | hy
    · simp at h
    · rw [finite_add_inf hx, isFinite_inf] at h
      cases h
    · exact ⟨hx, hy⟩

/-- Subtraction adds the negative. -/
theorem sub_eq_add (x y : Float) : x - y = x + -y := by
  rw [sub_eq, add_eq, view_neg, sub_eq_add_of_neg]

/-- Both terms of a finite difference are finite. -/
theorem isFinite_of_sub {x y : Float} (h : (x - y).isFinite = true) :
    x.isFinite = true ∧ y.isFinite = true := by
  rw [sub_eq_add] at h
  simpa using isFinite_of_add h

/-- Both factors of a finite product are finite. -/
theorem isFinite_of_mul {x y : Float} (h : (x * y).isFinite = true) :
    x.isFinite = true ∧ y.isFinite = true := by
  rw [isFinite_eq, mul_eq] at h
  rw [isFinite_eq, isFinite_eq]
  have hnan : (view (.ofModel (.pack .notANumber))).isFinite = false := isFinite_nan
  have hinf (s : SignBit) : (view (.ofModel (.pack (.infinity s)))).isFinite = false :=
    isFinite_inf s
  cases hu : view x <;> cases hv : view y <;> rw [hu, hv] at h <;>
    first | exact ⟨rfl, rfl⟩ | simp [UnpackedFloat.mul, hnan, hinf] at h

/-! ## The order -/

theorem zpow_mul_lt_of_lt {m m' : ℕ} {e e' : ℤ} (hm : m < 2 ^ 53) (he : -1074 ≤ e)
    (hm' : 2 ^ 52 ≤ m' ∨ e' = -1074) (h : e < e') : (m : ℝ) * 2 ^ e < m' * (2 : ℝ) ^ e' := by
  have hw : (2 : ℝ) ^ (52 : ℤ) ≤ m' := by exact_mod_cast hm'.resolve_right (by omega)
  have hlt : (m : ℝ) < 2 ^ (53 : ℤ) := by exact_mod_cast hm
  calc (m : ℝ) * 2 ^ e < 2 ^ (53 : ℤ) * 2 ^ e := mul_lt_mul_of_pos_right hlt (by positivity)
    _ = 2 ^ (53 + e) := (zpow_add₀ two_ne_zero 53 e).symm
    _ ≤ 2 ^ (52 + e') := zpow_le_zpow_right₀ one_le_two (by omega)
    _ = 2 ^ (52 : ℤ) * 2 ^ e' := zpow_add₀ two_ne_zero 52 e'
    _ ≤ m' * 2 ^ e' := mul_le_mul_of_nonneg_right hw (by positivity)

/-- The order of magnitudes is the order of exponents and then of mantissas. -/
theorem compare_then_eq_cmp {s s' : SignBit} {m m' : ℕ} {e e' : ℤ} {h : 0 < m} {h' : 0 < m'}
    (hc : IsCanonical (.finite s m e h)) (hc' : IsCanonical (.finite s' m' e' h')) :
    (compare e e').then (compare m m') = cmp ((m : ℝ) * 2 ^ e) (m' * (2 : ℝ) ^ e') := by
  rcases lt_trichotomy e e' with he | rfl | he
  · rw [compare_lt_iff_lt.2 he, (cmp_eq_lt_iff _ _).2 (zpow_mul_lt_of_lt hc.1 hc.2.1 hc'.2.2 he)]
    rfl
  · have hmono : StrictMono fun n : ℕ => (n : ℝ) * (2 : ℝ) ^ e := fun a b hab =>
      mul_lt_mul_of_pos_right (by exact_mod_cast hab) (by positivity)
    rw [compare_eq_iff_eq.2 rfl, hmono.cmp_map_eq m m', cmp_eq_compare]
    rfl
  · rw [compare_gt_iff_gt.2 he, (cmp_eq_gt_iff _ _).2 (zpow_mul_lt_of_lt hc'.1 hc'.2.1 hc.2.2 he)]
    rfl

/-- The comparison of finite floats is the comparison of their values. -/
theorem compare_eq_cmp {u v : UnpackedFloat} (hu : IsCanonical u) (hv : IsCanonical v)
    (hfu : u.isFinite = true) (hfv : v.isFinite = true) :
    u.compare v = some (cmp (realOf u) (realOf v)) := by
  cases u with
  | infinity s => cases hfu
  | notANumber => cases hfu
  | zero s =>
    cases v with
    | infinity s' => cases hfv
    | notANumber => cases hfv
    | zero s' => simp [UnpackedFloat.compare, realOf]
    | finite s' m' e' h' =>
      have hpos : (0 : ℝ) < m' * (2 : ℝ) ^ e' := by positivity
      rw [realOf_finite]
      cases s' <;> simp only [UnpackedFloat.compare, realOf, signFactor, neg_mul, one_mul]
      · rw [(cmp_eq_gt_iff _ _).2 (neg_lt_zero.2 hpos)]
      · rw [(cmp_eq_lt_iff _ _).2 hpos]
  | finite s m e h =>
    have hpos : (0 : ℝ) < m * (2 : ℝ) ^ e := by positivity
    rw [realOf_finite]
    cases v with
    | infinity s' => cases hfv
    | notANumber => cases hfv
    | zero s' =>
      cases s <;> simp only [UnpackedFloat.compare, realOf, signFactor, neg_mul, one_mul]
      · rw [(cmp_eq_lt_iff _ _).2 (neg_lt_zero.2 hpos)]
      · rw [(cmp_eq_gt_iff _ _).2 hpos]
    | finite s' m' e' h' =>
      have hpos' : (0 : ℝ) < m' * (2 : ℝ) ^ e' := by positivity
      have hanti : StrictAnti fun r : ℝ => -r := fun _ _ => neg_lt_neg
      rw [realOf_finite]
      -- of two negative floats the one of larger magnitude is the smaller one
      cases s <;> cases s' <;> simp only [UnpackedFloat.compare, signFactor, neg_mul, one_mul]
      · rw [compare_then_eq_cmp hu hv, cmp_swap, hanti.cmp_map_eq]
      · rw [(cmp_eq_lt_iff _ _).2 (by linarith)]
      · rw [(cmp_eq_gt_iff _ _).2 (by linarith)]
      · rw [compare_then_eq_cmp hu hv]

theorem lt_iff_view (x y : Float) : x < y ↔ (view x).lt (view y) = true := decide_eq_true_iff

theorem le_iff_view (x y : Float) : x ≤ y ↔ (view x).le (view y) = true := decide_eq_true_iff

section Finite

variable {x y : Float} (hx : x.isFinite = true) (hy : y.isFinite = true)

include hx hy

theorem compare_view : (view x).compare (view y) = some (cmp (toReal x) (toReal y)) :=
  compare_eq_cmp (isCanonical_view x) (isCanonical_view y) hx hy

theorem lt_iff : x < y ↔ toReal x < toReal y := by
  rw [lt_iff_view, UnpackedFloat.lt, compare_view hx hy, ← cmp_eq_lt_iff]
  simp

theorem le_iff : x ≤ y ↔ toReal x ≤ toReal y := by
  rw [le_iff_view, UnpackedFloat.le, compare_view hx hy, ← not_lt, ← cmp_eq_gt_iff]
  cases cmp (toReal x) (toReal y) <;> simp [Ordering.isLE]

theorem beq_iff : (x == y) = true ↔ toReal x = toReal y := by
  show (view x).beq (view y) = true ↔ _
  rw [UnpackedFloat.beq, compare_view hx hy, ← cmp_eq_eq_iff]
  simp

end Finite

@[simp] theorem not_nan_lt (x : Float) : ¬ nan < x := by
  rw [lt_iff_view, view_nan]
  exact Bool.false_ne_true

@[simp] theorem not_inf_lt (x : Float) : ¬ inf .positive < x := by
  rw [lt_iff_view, view_inf]
  cases view x with
  | infinity s => cases s <;> exact Bool.false_ne_true
  | _ => exact Bool.false_ne_true

theorem lt_inf {x : Float} (hx : x.isFinite = true) : x < inf .positive := by
  rw [lt_iff_view, view_inf]
  obtain ⟨s', hv⟩ | ⟨s', m, e, h, hv⟩ := view_of_isFinite hx <;> rw [hv]
  · rfl
  · cases s' <;> rfl

theorem neg_inf_lt {x : Float} (hx : x.isFinite = true) : inf .negative < x := by
  rw [lt_iff_view, view_inf]
  obtain ⟨s', hv⟩ | ⟨s', m, e, h, hv⟩ := view_of_isFinite hx <;> rw [hv] <;> rfl

@[simp] theorem not_nan_le (x : Float) : ¬ nan ≤ x := by
  rw [le_iff_view, view_nan]
  exact Bool.false_ne_true

/-- A float that equals a finite one is finite and has the same value. -/
theorem toReal_eq_of_beq {x y : Float} (hy : y.isFinite = true) (h : (x == y) = true) :
    x.isFinite = true ∧ toReal x = toReal y := by
  have hx : x.isFinite = true := by
    replace h : (view x).beq (view y) = true := h
    rw [isFinite_eq]
    obtain ⟨s', hv⟩ | ⟨s', m, e, hm, hv⟩ := view_of_isFinite hy <;> rw [hv] at h <;>
      cases hu : view x with
      | notANumber => rw [hu] at h; cases h
      | infinity s => rw [hu] at h; cases s <;> cases h
      | _ => rfl
  exact ⟨hx, (beq_iff hx hy).1 h⟩

/-! ## Numerals -/

/-- The float of a small natural number is that number. -/
theorem isFinite_ofNat_and_toReal_ofNat {n : ℕ} (h : n < 2 ^ 53) :
    (Float.ofNat n).isFinite = true ∧ toReal (Float.ofNat n) = n := by
  have hrep : IsRepresentable n :=
    ⟨n, 0, by rw [Nat.abs_cast]; exact_mod_cast h, by norm_num, by simp⟩
  have hsmall : |(n : ℝ)| ≤ 2 ^ (1023 : ℤ) := by
    rw [Nat.abs_cast]
    calc (n : ℝ) ≤ 2 ^ (53 : ℤ) := by exact_mod_cast h.le
      _ ≤ 2 ^ (1023 : ℤ) := zpow_le_zpow_right₀ one_le_two (by norm_num)
  -- a numeral is a machine integer, converted and multiplied by one
  have hcast : (n.toUInt64.toFloat).isFinite = true ∧ toReal n.toUInt64.toFloat = n := by
    have hn : n.toUInt64.toNat = n := Nat.mod_eq_of_lt (by omega)
    have hr : IsRounding ((n.toUInt64.toNat : ℤ) * (2 : ℝ) ^ (0 : ℤ)) n.toUInt64.toFloat :=
      (isNearest_normalize n.toUInt64.toNat 0 .positive).isRounding
    rw [zpow_zero, mul_one, Int.cast_natCast, hn] at hr
    obtain ⟨hf, hv⟩ := hr.of_abs_le hsmall
    exact ⟨hf, hv.trans (nearest_of_isRepresentable hrep)⟩
  have hone : view (Float.ofBits 0x3FF0000000000000) =
      .finite .positive (2 ^ 52) (-52) (by norm_num) := rfl
  have hval : toReal (Float.ofBits 0x3FF0000000000000) = 1 := by
    rw [toReal, hone, realOf_finite]
    norm_num [signFactor]
  have hmul : Float.ofNat n = n.toUInt64.toFloat * Float.ofBits 0x3FF0000000000000 :=
    dif_pos ⟨h, by norm_num⟩
  have hr := isRounding_mul hcast.1 (y := Float.ofBits 0x3FF0000000000000) rfl
  rw [hcast.2, hval, mul_one, ← hmul] at hr
  obtain ⟨hf, hv⟩ := hr.of_abs_le hsmall
  exact ⟨hf, hv.trans (nearest_of_isRepresentable hrep)⟩

end EquationRoots.Binary64
