import EquationRoots.Proofs.Binary64.Unpacked

/-!
# Rounding to nearest

A real number is rounded to a multiple of its unit in the last place, to the nearest one, and of two
equally near ones to the even one (`nearest`). The unit is a power of two that leaves fifty-three
binary digits, but never less than `2 ^ (-1074)`.

- `nearest_mono`, `nearest_neg`: rounding keeps the order and is odd.
- `nearest_of_isRepresentable`: a number with few enough digits is kept.
- `isRounded_roundWithAccuracy`: the rounding of a mantissa, given with the bits that were cut off,
  is the rounding of the real number that it stands for.
-/

set_option autoImplicit false

namespace EquationRoots.Binary64

open Float.Model Float.Model.UnpackedFloat

/-! ## Rounding to an integer -/

/-- The integer nearest to a real number, the even one of two equally near ones. -/
noncomputable def roundEven (r : ℝ) : ℤ :=
  if r - ⌊r⌋ < 1 / 2 then ⌊r⌋ else if 1 / 2 < r - ⌊r⌋ then ⌊r⌋ + 1 else ⌊r⌋ + ⌊r⌋ % 2

theorem roundEven_of_lt {r : ℝ} {n : ℤ} (h : (n : ℝ) ≤ r) (h' : r < n + 1 / 2) :
    roundEven r = n := by
  have hf : ⌊r⌋ = n := Int.floor_eq_iff.2 ⟨h, by linarith⟩
  rw [roundEven, hf, if_pos (by linarith)]

theorem roundEven_of_gt {r : ℝ} {n : ℤ} (h : (n : ℝ) + 1 / 2 < r) (h' : r < n + 1) :
    roundEven r = n + 1 := by
  have hf : ⌊r⌋ = n := Int.floor_eq_iff.2 ⟨by linarith, h'⟩
  rw [roundEven, hf, if_neg (by linarith), if_pos (by linarith)]

theorem roundEven_of_eq {r : ℝ} {n : ℤ} (h : r = n + 1 / 2) : roundEven r = n + n % 2 := by
  have hf : ⌊r⌋ = n := Int.floor_eq_iff.2 ⟨by linarith, by linarith⟩
  rw [roundEven, hf, if_neg (by linarith), if_neg (by linarith)]

@[simp] theorem roundEven_intCast (n : ℤ) : roundEven n = n :=
  roundEven_of_lt le_rfl (by linarith)

theorem floor_le_roundEven (r : ℝ) : ⌊r⌋ ≤ roundEven r := by
  unfold roundEven
  split_ifs <;> omega

theorem roundEven_le_floor_add_one (r : ℝ) : roundEven r ≤ ⌊r⌋ + 1 := by
  unfold roundEven
  split_ifs <;> omega

/-- Rounding to an integer keeps the order. -/
theorem roundEven_mono : Monotone roundEven := by
  intro r r' h
  -- different floors are far enough apart; with one floor the fractions are compared
  rcases (Int.floor_mono h).lt_or_eq with hf | hf
  · exact (roundEven_le_floor_add_one r).trans
      ((Int.add_one_le_iff.2 hf).trans (floor_le_roundEven r'))
  · have hr : r - ⌊r⌋ ≤ r' - ⌊r⌋ := by linarith
    unfold roundEven
    rw [← hf]
    split_ifs <;> first | omega | linarith

/-- Rounding to an integer treats a number and its negative alike. -/
theorem roundEven_neg (r : ℝ) : roundEven (-r) = -roundEven r := by
  have h := Int.floor_le r
  have h' := Int.lt_floor_add_one r
  -- the fraction decides: below, at or above the half, and its mirror image the other way round
  rcases lt_trichotomy (r - ⌊r⌋) (1 / 2) with hr | hr | hr
  · rw [roundEven_of_lt h (by linarith)]
    rcases h.eq_or_lt with h0 | h0
    · rw [← h0, ← Int.cast_neg, roundEven_intCast, Int.floor_intCast]
    -- `-r` has the floor `-⌊r⌋ - 1` and a fraction above the half
    · have hn : roundEven (-r) = -⌊r⌋ - 1 + 1 :=
        roundEven_of_gt (by push_cast; linarith) (by push_cast; linarith)
      omega
  · have he : roundEven r = ⌊r⌋ + ⌊r⌋ % 2 := roundEven_of_eq (by linarith)
    have hn : roundEven (-r) = -⌊r⌋ - 1 + (-⌊r⌋ - 1) % 2 :=
      roundEven_of_eq (by push_cast; linarith)
    omega
  · have he : roundEven r = ⌊r⌋ + 1 := roundEven_of_gt (by linarith) h'
    have hn : roundEven (-r) = -⌊r⌋ - 1 :=
      roundEven_of_lt (by push_cast; linarith) (by push_cast; linarith)
    omega

theorem le_roundEven {n : ℤ} {r : ℝ} (h : (n : ℝ) ≤ r) : n ≤ roundEven r := by
  simpa using roundEven_mono h

theorem roundEven_le {n : ℤ} {r : ℝ} (h : r ≤ n) : roundEven r ≤ n := by
  simpa using roundEven_mono h

/-! ## Rounding to a multiple of the unit in the last place -/

/-- The power of two that is the unit in the last place of a real number. -/
noncomputable def unitExponent (r : ℝ) : ℤ := max (Int.log 2 |r| - 52) (-1074)

/-- The unit in the last place. -/
noncomputable def unit (r : ℝ) : ℝ := (2 : ℝ) ^ unitExponent r

/-- The multiple of the unit in the last place that is nearest to a real number. -/
noncomputable def nearest (r : ℝ) : ℝ := roundEven (r / unit r) * unit r

theorem unit_pos (r : ℝ) : 0 < unit r := by
  unfold unit
  positivity

@[simp] theorem unit_neg (r : ℝ) : unit (-r) = unit r := by simp [unit, unitExponent]

@[simp] theorem nearest_zero : nearest 0 = 0 := by
  have : roundEven 0 = 0 := by exact_mod_cast roundEven_intCast 0
  simp [nearest, this]

/-- Rounding is odd. -/
@[simp] theorem nearest_neg (r : ℝ) : nearest (-r) = -nearest r := by
  rw [nearest, nearest, unit_neg, neg_div, roundEven_neg]
  push_cast
  ring

/-- The exponent of the unit, from a power of two that encloses the number. -/
theorem unitExponent_eq {r : ℝ} {k : ℤ} (h : (2 : ℝ) ^ k ≤ |r|) (h' : |r| < (2 : ℝ) ^ (k + 1)) :
    unitExponent r = max (k - 52) (-1074) := by
  have hr : 0 < |r| := lt_of_lt_of_le (by positivity) h
  have hk : k ≤ Int.log 2 |r| := (Int.zpow_le_iff_le_log (by norm_num) hr).1 (by exact_mod_cast h)
  have hk' : Int.log 2 |r| < k + 1 :=
    (Int.lt_zpow_iff_log_lt (by norm_num) hr).1 (by exact_mod_cast h')
  rw [unitExponent, show Int.log 2 |r| = k by omega]

theorem unitExponent_mono {r r' : ℝ} (h0 : 0 < |r|) (h : |r| ≤ |r'|) :
    unitExponent r ≤ unitExponent r' :=
  max_le_max_right _ (sub_le_sub_right (Int.log_mono_right h0 h) 52)

/-- The unit of a number below a power of two. -/
theorem unitExponent_le {r : ℝ} {k : ℤ} (hr : r ≠ 0) (hk : -1021 ≤ k) (h : |r| < (2 : ℝ) ^ k) :
    unitExponent r ≤ k - 53 := by
  have : Int.log 2 |r| < k :=
    (Int.lt_zpow_iff_log_lt (by norm_num) (abs_pos.2 hr)).1 (by exact_mod_cast h)
  rw [unitExponent]
  omega

theorem zpow_sub_mul (k t : ℤ) : (2 : ℝ) ^ (k - t) * (2 : ℝ) ^ t = (2 : ℝ) ^ k := by
  rw [← zpow_add₀ two_ne_zero, sub_add_cancel]

/-- A multiple of a power of two that the unit divides is a multiple of the unit. -/
theorem exists_eq_intCast_mul_unit {r : ℝ} {k : ℤ} (hk : unitExponent r ≤ k) (n : ℤ) :
    ∃ j : ℤ, (n : ℝ) * (2 : ℝ) ^ k = j * unit r := by
  obtain ⟨i, hi⟩ := Int.eq_ofNat_of_zero_le (sub_nonneg.2 hk)
  refine ⟨n * 2 ^ i, ?_⟩
  rw [unit, ← zpow_sub_mul k (unitExponent r), hi]
  push_cast [zpow_natCast]
  ring

/-- Rounding does not pass a multiple of the unit from above. -/
theorem le_nearest {r : ℝ} {k : ℤ} (hk : unitExponent r ≤ k) {n : ℤ}
    (h : (n : ℝ) * (2 : ℝ) ^ k ≤ r) : (n : ℝ) * (2 : ℝ) ^ k ≤ nearest r := by
  obtain ⟨j, hj⟩ := exists_eq_intCast_mul_unit hk n
  rw [hj] at h ⊢
  have hle : j ≤ roundEven (r / unit r) := le_roundEven ((le_div_iff₀ (unit_pos r)).2 h)
  exact mul_le_mul_of_nonneg_right (by exact_mod_cast hle) (unit_pos r).le

/-- Rounding does not pass a multiple of the unit from below. -/
theorem nearest_le {r : ℝ} {k : ℤ} (hk : unitExponent r ≤ k) {n : ℤ}
    (h : r ≤ (n : ℝ) * (2 : ℝ) ^ k) : nearest r ≤ (n : ℝ) * (2 : ℝ) ^ k := by
  obtain ⟨j, hj⟩ := exists_eq_intCast_mul_unit hk n
  rw [hj] at h ⊢
  have hle : roundEven (r / unit r) ≤ j := roundEven_le ((div_le_iff₀ (unit_pos r)).2 h)
  exact mul_le_mul_of_nonneg_right (by exact_mod_cast hle) (unit_pos r).le

/-- A multiple of a power of two that the unit divides is kept. -/
theorem nearest_intCast_mul {n k : ℤ} (hk : unitExponent ((n : ℝ) * (2 : ℝ) ^ k) ≤ k) :
    nearest ((n : ℝ) * (2 : ℝ) ^ k) = (n : ℝ) * (2 : ℝ) ^ k :=
  le_antisymm (nearest_le hk le_rfl) (le_nearest hk le_rfl)

theorem nearest_nonneg {r : ℝ} (h : 0 ≤ r) : 0 ≤ nearest r := by
  simpa using le_nearest (le_refl (unitExponent r)) (n := 0) (by simpa using h)

theorem nearest_nonpos {r : ℝ} (h : r ≤ 0) : nearest r ≤ 0 := by
  simpa using nearest_le (le_refl (unitExponent r)) (n := 0) (by simpa using h)

/-- Where the unit grows, a power of two lies between the numbers and survives both roundings. -/
theorem exists_zpow_between {r r' : ℝ} (h0 : 0 < r) (h : r ≤ r')
    (hu : unitExponent r < unitExponent r') :
    ∃ k, unitExponent r' ≤ k ∧ r ≤ (2 : ℝ) ^ k ∧ (2 : ℝ) ^ k ≤ r' := by
  have hr' : 0 < r' := h0.trans_le h
  have h1 := Int.zpow_log_le_self (b := 2) (by norm_num) hr'
  have h2 := Int.lt_zpow_succ_log_self (b := 2) (by norm_num) r
  rw [unitExponent, unitExponent, abs_of_pos h0, abs_of_pos hr'] at hu
  refine ⟨Int.log 2 r', ?_, ?_, by exact_mod_cast h1⟩
  · rw [unitExponent, abs_of_pos hr']
    omega
  · refine le_trans (le_of_lt (by exact_mod_cast h2)) (zpow_le_zpow_right₀ one_le_two ?_)
    omega

theorem nearest_mono_of_pos {r r' : ℝ} (h0 : 0 < r) (h : r ≤ r') : nearest r ≤ nearest r' := by
  have hu : unitExponent r ≤ unitExponent r' :=
    unitExponent_mono (abs_pos.2 h0.ne') (by rwa [abs_of_pos h0, abs_of_pos (h0.trans_le h)])
  -- where the unit grows a power of two separates the results; with one unit, integers are rounded
  rcases hu.lt_or_eq with hlt | heq
  · obtain ⟨k, hk, hl, hr⟩ := exists_zpow_between h0 h hlt
    have hlow : nearest r ≤ (2 : ℝ) ^ k := by
      simpa using nearest_le (hlt.le.trans hk) (n := 1) (by simpa using hl)
    have hhigh : (2 : ℝ) ^ k ≤ nearest r' := by
      simpa using le_nearest hk (n := 1) (by simpa using hr)
    exact hlow.trans hhigh
  · have hunit : unit r = unit r' := by rw [unit, unit, heq]
    rw [nearest, nearest, hunit]
    have hle : roundEven (r / unit r') ≤ roundEven (r' / unit r') :=
      roundEven_mono (div_le_div_of_nonneg_right h (unit_pos r').le)
    exact mul_le_mul_of_nonneg_right (by exact_mod_cast hle) (unit_pos r').le

/-- Rounding keeps the order. -/
theorem nearest_mono : Monotone nearest := by
  intro r r' h
  -- the negative numbers follow by symmetry, and zero separates the signs
  rcases lt_or_ge 0 r with h0 | h0
  · exact nearest_mono_of_pos h0 h
  rcases le_or_gt 0 r' with h0' | h0'
  · exact (nearest_nonpos h0).trans (nearest_nonneg h0')
  · have := nearest_mono_of_pos (neg_pos.2 h0') (neg_le_neg h)
    rwa [nearest_neg, nearest_neg, neg_le_neg_iff] at this

/-! ## Numbers that need no rounding -/

/-- A real number with at most fifty-three binary digits, none of them below `2 ^ (-1074)`. -/
def IsRepresentable (r : ℝ) : Prop :=
  ∃ n k : ℤ, |n| < 2 ^ 53 ∧ -1074 ≤ k ∧ r = (n : ℝ) * (2 : ℝ) ^ k

theorem nearest_of_isRepresentable {r : ℝ} (h : IsRepresentable r) : nearest r = r := by
  obtain ⟨n, k, hn, hk, rfl⟩ := h
  -- zero has the least unit by convention and is settled apart
  rcases eq_or_ne n 0 with rfl | hn0
  · simp
  apply nearest_intCast_mul
  have hlt : |(n : ℝ) * (2 : ℝ) ^ k| < (2 : ℝ) ^ (k + 53) := by
    rw [abs_mul, abs_of_pos (by positivity : (0 : ℝ) < 2 ^ k), add_comm, zpow_add₀ two_ne_zero]
    exact mul_lt_mul_of_pos_right (by exact_mod_cast hn) (by positivity)
  have hne : (n : ℝ) * (2 : ℝ) ^ k ≠ 0 := mul_ne_zero (by exact_mod_cast hn0) (by positivity)
  have := unitExponent_le hne (by omega) hlt
  omega

theorem isRepresentable_zpow {k : ℤ} (hk : -1074 ≤ k) : IsRepresentable ((2 : ℝ) ^ k) :=
  ⟨1, k, by norm_num, hk, by simp⟩

/-- A representable number stays so when it is multiplied by a power of two. -/
theorem IsRepresentable.two_pow_mul {r : ℝ} (h : IsRepresentable r) (i : ℕ) :
    IsRepresentable (2 ^ i * r) := by
  obtain ⟨n, k, hn, hk, rfl⟩ := h
  exact ⟨n, k + i, hn, by omega, by rw [zpow_add₀ two_ne_zero, zpow_natCast]; ring⟩

/-- Rounding does not pass a representable number. -/
theorem le_nearest_of_isRepresentable {r v : ℝ} (hv : IsRepresentable v) (h : v ≤ r) :
    v ≤ nearest r := by
  simpa [nearest_of_isRepresentable hv] using nearest_mono h

theorem nearest_le_of_isRepresentable {r v : ℝ} (hv : IsRepresentable v) (h : r ≤ v) :
    nearest r ≤ v := by
  simpa [nearest_of_isRepresentable hv] using nearest_mono h

/-- The magnitude of a rounded number is the rounded magnitude. -/
theorem abs_nearest (r : ℝ) : |nearest r| = nearest |r| := by
  rcases abs_cases r with ⟨h, h0⟩ | ⟨h, h0⟩
  · rw [h, abs_of_nonneg (nearest_nonneg h0)]
  · rw [h, nearest_neg, abs_of_nonpos (nearest_nonpos h0.le)]

theorem abs_nearest_le {r v : ℝ} (hv : IsRepresentable v) (h : |r| ≤ v) : |nearest r| ≤ v := by
  rw [abs_nearest]
  exact nearest_le_of_isRepresentable hv h

theorem le_abs_nearest {r v : ℝ} (hv : IsRepresentable v) (h : v ≤ |r|) : v ≤ |nearest r| := by
  rw [abs_nearest]
  exact le_nearest_of_isRepresentable hv h

/-! ## Values -/

/-- The real number of a finite unpacked float, and zero for the others. -/
noncomputable def realOf : UnpackedFloat → ℝ
  | .finite s m e _ => (s.apply m : ℤ) * (2 : ℝ) ^ e
  | _ => 0

/-- The sign of a float as a factor. -/
def signFactor : SignBit → ℝ
  | .positive => 1
  | .negative => -1

@[simp] theorem signFactor_neg (s : SignBit) : signFactor (-s) = -signFactor s := by
  cases s
  · exact (neg_neg (1 : ℝ)).symm
  · rfl

theorem realOf_finite (s : SignBit) (m : ℕ) (e : ℤ) (h : 0 < m) :
    realOf (.finite s m e h) = signFactor s * (m * (2 : ℝ) ^ e) := by
  cases s <;> simp [realOf, UnpackedFloat.Sign.apply, signFactor]

@[simp] theorem realOf_neg (u : UnpackedFloat) : realOf u.neg = -realOf u := by
  cases u with
  | finite s m e h => rw [UnpackedFloat.neg, realOf_finite, realOf_finite, signFactor_neg, neg_mul]
  | _ => simp [realOf, UnpackedFloat.neg]

theorem isRepresentable_realOf {u : UnpackedFloat} (h : IsCanonical u) :
    IsRepresentable (realOf u) := by
  cases u with
  | finite s m e hm =>
    obtain ⟨hlt, he, -⟩ := h
    refine ⟨s.apply m, e, ?_, he, rfl⟩
    cases s <;> simp only [UnpackedFloat.Sign.apply, abs_neg, Nat.abs_cast] <;> exact_mod_cast hlt
  | _ => exact ⟨0, 0, by norm_num, by norm_num, by simp [realOf]⟩

/-! ## Mantissas with the bits that were cut off -/

/-- The real number, in units of the last bit, that a mantissa with its two residual bits stands
for: the bits tell on which side of the middle between two mantissas it lies. -/
def Approximates (em : ExtendedMantissa) (r : ℝ) : Prop :=
  match em.roundBit, em.stickyBit with
  | false, false => r = em.mantissa
  | false, true => (em.mantissa : ℝ) < r ∧ r < em.mantissa + 1 / 2
  | true, false => r = em.mantissa + 1 / 2
  | true, true => (em.mantissa : ℝ) + 1 / 2 < r ∧ r < em.mantissa + 1

/-- An exact mantissa describes itself. -/
theorem approximates_exact (m : ℕ) : Approximates (.ofMantissaAndAccuracy m .exact) m := rfl

theorem Approximates.le {em : ExtendedMantissa} {r : ℝ} (h : Approximates em r) :
    (em.mantissa : ℝ) ≤ r := by
  rcases em with ⟨m, b, s⟩
  cases b <;> cases s <;> simp only [Approximates] at h ⊢ <;> linarith

theorem Approximates.lt {em : ExtendedMantissa} {r : ℝ} (h : Approximates em r) :
    r < em.mantissa + 1 := by
  rcases em with ⟨m, b, s⟩
  cases b <;> cases s <;> simp only [Approximates] at h ⊢ <;> linarith

/-- The mantissa rounded by its residual bits is the real number rounded to an integer. -/
theorem Approximates.roundedMantissa_eq {em : ExtendedMantissa} {r : ℝ} (h : Approximates em r) :
    (em.roundedMantissa : ℤ) = roundEven r := by
  rcases em with ⟨m, b, s⟩
  cases b <;> cases s <;> simp only [Approximates] at h
  · rw [h]
    exact (roundEven_intCast m).symm
  · exact (roundEven_of_lt (by exact_mod_cast h.1.le) (by exact_mod_cast h.2)).symm
  · rw [roundEven_of_eq (n := m) (by exact_mod_cast h)]
    simp [ExtendedMantissa.roundedMantissa, ExtendedMantissa.accuracy, Accuracy.roundToNearestEven]
  · exact (roundEven_of_gt (by exact_mod_cast h.1) (by exact_mod_cast h.2)).symm

/-- Cutting off one more bit halves the number. -/
theorem Approximates.shiftRightOne {em : ExtendedMantissa} {r : ℝ} (h : Approximates em r) :
    Approximates em.shiftRightOne (r / 2) := by
  rcases em with ⟨m, b, s⟩
  have hm : (m : ℝ) = 2 * ((m / 2 : ℕ) : ℝ) + ((m % 2 : ℕ) : ℝ) := by
    exact_mod_cast (Nat.div_add_mod m 2).symm
  -- the last bit becomes the round bit, and the old round bit joins the sticky bit
  rcases Nat.mod_two_eq_zero_or_one m with hp | hp <;> rw [hp] at hm <;>
    cases b <;> cases s <;>
    simp only [Approximates, ExtendedMantissa.shiftRightOne, hp, bne_self_eq_false, Bool.or_false,
      Bool.or_true, Bool.or_self, Nat.reduceBNe] at h ⊢ <;>
    norm_num at hm ⊢ <;> (try constructor) <;> linarith

/-- Cutting off bits divides by a power of two. -/
theorem Approximates.shiftRight {em : ExtendedMantissa} {r : ℝ} (h : Approximates em r) (n : ℕ) :
    Approximates (em >>> n) (r / 2 ^ n) := by
  show Approximates (n.repeat ExtendedMantissa.shiftRightOne em) _
  induction n with
  | zero => simpa [Nat.repeat] using h
  | succ n ih =>
    rw [pow_succ, ← div_div]
    exact ih.shiftRightOne

/-! ## Rounding of a mantissa -/

/-- The unpacked float has the given sign, and its magnitude is a real number rounded. -/
def IsRounded (s : SignBit) (r : ℝ) : UnpackedFloat → Prop
  | .zero s' => s' = s ∧ nearest r = 0
  | .finite s' m e h => s' = s ∧ IsCanonical (.finite s' m e h) ∧ nearest r = m * (2 : ℝ) ^ e
  | _ => False

theorem targetExponent_eq (m : ℕ) (e : ℤ) :
    Format.binary64.targetExponent (totalExponent m e) = max (m.log2 + e - 52) (-1074) := by
  simp only [Format.targetExponent, totalExponent, Format.minExponent, Format.mantissaBits]
  norm_num
  omega

/-- The target exponent of a mantissa is the unit of the number that it stands for. -/
theorem unitExponent_eq_targetExponent {m : ℕ} {e : ℤ} {r : ℝ} (hm : (m : ℝ) ≤ r)
    (hm' : r < m + 1) (h0 : 0 < r) (he : e ≤ Format.binary64.targetExponent (totalExponent m e)) :
    unitExponent (r * (2 : ℝ) ^ e) = Format.binary64.targetExponent (totalExponent m e) := by
  have hpos : (0 : ℝ) < r * (2 : ℝ) ^ e := by positivity
  rw [targetExponent_eq] at he ⊢
  rcases Nat.eq_zero_or_pos m with rfl | hmpos
  -- a mantissa of zero stands for a number below one unit of the least exponent
  · have hlt : |r * (2 : ℝ) ^ e| < (2 : ℝ) ^ (-1021 : ℤ) := by
      rw [abs_of_pos hpos]
      have hr : r < 1 := by simpa using hm'
      have hle : (2 : ℝ) ^ e ≤ (2 : ℝ) ^ (-1021 : ℤ) :=
        zpow_le_zpow_right₀ one_le_two (by norm_num at he; omega)
      nlinarith [zpow_pos (two_pos : (0 : ℝ) < 2) e]
    have hle := unitExponent_le hpos.ne' (by norm_num) hlt
    have hge : -1074 ≤ unitExponent (r * (2 : ℝ) ^ e) := le_max_right _ _
    norm_num at he ⊢
    omega
  -- the number and its mantissa lie between the same powers of two
  · have hlow : (2 : ℝ) ^ m.log2 ≤ m := by exact_mod_cast Nat.log2_self_le hmpos.ne'
    have hhigh : (m : ℝ) + 1 ≤ (2 : ℝ) ^ (m.log2 + 1) := by exact_mod_cast Nat.lt_log2_self (n := m)
    apply unitExponent_eq <;> rw [abs_of_pos hpos]
    · rw [zpow_add₀ two_ne_zero, zpow_natCast]
      exact mul_le_mul_of_nonneg_right (hlow.trans hm) (by positivity)
    · rw [add_right_comm, zpow_add₀ two_ne_zero, ← Nat.cast_succ, zpow_natCast]
      exact mul_lt_mul_of_pos_right (hm'.trans_le hhigh) (by positivity)

/-- A rounded number has at most fifty-three digits, or is the next power of two. -/
theorem roundEven_div_unit_le {r : ℝ} (h0 : 0 < r) : roundEven (r / unit r) ≤ 2 ^ 53 := by
  apply roundEven_le
  rw [div_le_iff₀ (unit_pos r), unit]
  have h := Int.lt_zpow_succ_log_self (b := 2) (by norm_num) r
  have hu : Int.log 2 r + 1 ≤ 53 + unitExponent r := by
    rw [unitExponent, abs_of_pos h0]
    omega
  calc r ≤ (2 : ℝ) ^ (Int.log 2 r + 1) := by exact_mod_cast h.le
    _ ≤ (2 : ℝ) ^ (53 + unitExponent r) := zpow_le_zpow_right₀ one_le_two hu
    _ = ((2 ^ 53 : ℤ) : ℝ) * (2 : ℝ) ^ unitExponent r := by
      rw [zpow_add₀ two_ne_zero]
      norm_num

/-- A rounded number has fifty-three digits unless its unit is the least one. -/
theorem le_roundEven_div_unit {r : ℝ} (h0 : 0 < r) (hu : unitExponent r ≠ -1074) :
    2 ^ 52 ≤ roundEven (r / unit r) := by
  apply le_roundEven
  rw [le_div_iff₀ (unit_pos r), unit]
  have h := Int.zpow_log_le_self (b := 2) (by norm_num) h0
  have hlog : Int.log 2 r = 52 + unitExponent r := by
    rw [unitExponent, abs_of_pos h0] at hu ⊢
    omega
  calc ((2 ^ 52 : ℤ) : ℝ) * (2 : ℝ) ^ unitExponent r = (2 : ℝ) ^ (52 + unitExponent r) := by
        rw [zpow_add₀ two_ne_zero]
        norm_num
    _ ≤ r := by
      rw [← hlog]
      exact_mod_cast h

/-- The first shift leaves the number in units of its last place. -/
theorem approximates_shiftToTargetExponent {m : ℕ} {e : ℤ} {acc : Accuracy} {r : ℝ}
    (hr : Approximates (.ofMantissaAndAccuracy m acc) r) (h0 : 0 < r)
    (he : e ≤ Format.binary64.targetExponent (totalExponent m e)) :
    Approximates (shiftToTargetExponent Format.binary64 m e acc).1
        (r * (2 : ℝ) ^ e / unit (r * (2 : ℝ) ^ e)) ∧
      (shiftToTargetExponent Format.binary64 m e acc).2 = unitExponent (r * (2 : ℝ) ^ e) := by
  have hmant : (ExtendedMantissa.ofMantissaAndAccuracy m acc).mantissa = m := by
    rcases acc with _ | o
    · rfl
    · cases o <;> rfl
  have hu := unitExponent_eq_targetExponent (by simpa [hmant] using hr.le)
    (by simpa [hmant] using hr.lt) h0 he
  rw [← hu] at he
  obtain ⟨i, hi⟩ := Int.eq_ofNat_of_zero_le (sub_nonneg.2 he)
  have hdiv : r * (2 : ℝ) ^ e / unit (r * (2 : ℝ) ^ e) = r / 2 ^ i := by
    rw [unit, show unitExponent (r * (2 : ℝ) ^ e) = i + e by omega, zpow_add₀ two_ne_zero,
      zpow_natCast]
    field_simp
  simp only [shiftToTargetExponent, shiftToExponent, ← hu, hi, Int.toNat_natCast, hdiv]
  exact ⟨hr.shiftRight i, by omega⟩

/-- A mantissa of at most fifty-three bits is not shifted again. -/
theorem shiftToTargetExponent_of_lt {k : ℕ} {t : ℤ} (hk : k < 2 ^ 53) (ht : -1074 ≤ t) :
    shiftToTargetExponent Format.binary64 k t .exact = (⟨k, false, false⟩, t) := by
  have hlog : k.log2 ≤ 52 := by
    rcases Nat.eq_zero_or_pos k with rfl | hpos
    · simp
    · exact Nat.le_of_lt_succ ((Nat.log2_lt hpos.ne').2 hk)
  have hsh : (Format.binary64.targetExponent (totalExponent k t) - t).toNat = 0 := by
    rw [targetExponent_eq]
    omega
  simp only [shiftToTargetExponent, shiftToExponent, hsh]
  simp [HShiftRight.hShiftRight, Nat.repeat, ExtendedMantissa.ofMantissaAndAccuracy]

/-- A mantissa that rounding carried to fifty-four bits is shifted by one. -/
theorem shiftToTargetExponent_carry {t : ℤ} (ht : -1074 ≤ t) :
    shiftToTargetExponent Format.binary64 (2 ^ 53) t .exact = (⟨2 ^ 52, false, false⟩, t + 1) := by
  have hsh : (Format.binary64.targetExponent (totalExponent (2 ^ 53) t) - t).toNat = 1 := by
    rw [targetExponent_eq, Nat.log2_two_pow]
    omega
  simp only [shiftToTargetExponent, shiftToExponent, hsh]
  rfl

/-- Rounding a mantissa with its residual bits rounds the number that it stands for. -/
theorem isRounded_roundWithAccuracy (s : SignBit) {m : ℕ} {e : ℤ} {acc : Accuracy} {r : ℝ}
    (hr : Approximates (.ofMantissaAndAccuracy m acc) r) (h0 : 0 < r)
    (he : e ≤ Format.binary64.targetExponent (totalExponent m e)) :
    IsRounded s (r * (2 : ℝ) ^ e) (roundWithAccuracy Format.binary64 s m e acc) := by
  have hpos : (0 : ℝ) < r * (2 : ℝ) ^ e := by positivity
  have hle := roundEven_div_unit_le hpos
  have hge := le_roundEven_div_unit hpos
  have ht : -1074 ≤ unitExponent (r * (2 : ℝ) ^ e) := le_max_right _ _
  obtain ⟨happ, hexp⟩ := approximates_shiftToTargetExponent hr h0 he
  have hk := happ.roundedMantissa_eq
  have hnear : nearest (r * (2 : ℝ) ^ e) =
      ((shiftToTargetExponent Format.binary64 m e acc).1.roundedMantissa : ℝ)
        * (2 : ℝ) ^ unitExponent (r * (2 : ℝ) ^ e) := by
    rw [nearest, ← hk, unit]
    push_cast
    rfl
  rw [← hk] at hle hge
  rw [roundWithAccuracy]
  simp only [hexp]
  generalize (shiftToTargetExponent Format.binary64 m e acc).1.roundedMantissa = k at *
  generalize unitExponent (r * (2 : ℝ) ^ e) = t at *
  -- rounding carries at most to the next power of two, where the exponent grows by one
  rcases (show k ≤ 2 ^ 53 by exact_mod_cast hle).lt_or_eq with hlt | rfl
  · simp only [shiftToTargetExponent_of_lt hlt ht]
    by_cases hz : k = 0
    · simp only [hz, dite_true]
      exact ⟨rfl, by rw [hnear, hz]; simp⟩
    · simp only [hz, dite_false]
      refine ⟨rfl, ⟨hlt, ht, ?_⟩, hnear⟩
      rcases eq_or_ne t (-1074) with h | h
      · exact Or.inr h
      · exact Or.inl (by exact_mod_cast hge h)
  · simp only [shiftToTargetExponent_carry ht]
    refine ⟨rfl, ⟨by norm_num, by omega, Or.inl le_rfl⟩, ?_⟩
    rw [hnear, zpow_add₀ two_ne_zero]
    norm_num
    ring

end EquationRoots.Binary64
