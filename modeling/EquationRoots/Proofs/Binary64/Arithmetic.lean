import EquationRoots.Proofs.Binary64.Rounding

/-!
# Correct rounding of the operations

On unpacked floats, every operation with finite operands yields the exact result, rounded to nearest
and not yet checked for overflow (`IsNearest`): `isNearest_add`, `isNearest_sub`, `isNearest_mul`,
`isNearest_div` and `isNearest_sqrt`.
-/

set_option autoImplicit false

namespace EquationRoots.Binary64

open Float.Model Float.Model.UnpackedFloat

/-! ## Results before storing -/

/-- A canonical finite unpacked float whose value is a real number rounded. -/
def IsNearest (r : ℝ) (u : UnpackedFloat) : Prop :=
  IsCanonical u ∧ u.isFinite = true ∧ realOf u = nearest r

theorem isNearest_realOf {u : UnpackedFloat} (h : IsCanonical u) (hf : u.isFinite = true) :
    IsNearest (realOf u) u :=
  ⟨h, hf, (nearest_of_isRepresentable (isRepresentable_realOf h)).symm⟩

theorem isNearest_zero {r : ℝ} (hr : r = 0) (s : SignBit) : IsNearest r (.zero s) :=
  ⟨trivial, rfl, by simp [realOf, hr]⟩

theorem nearest_signFactor_mul (s : SignBit) (r : ℝ) :
    nearest (signFactor s * r) = signFactor s * nearest r := by
  cases s <;> simp [signFactor]

/-- A magnitude that is rounded under a sign gives the signed number rounded. -/
theorem IsRounded.isNearest {s : SignBit} {r : ℝ} {u : UnpackedFloat} (h : IsRounded s r u) :
    IsNearest (signFactor s * r) u := by
  cases u with
  | zero s' =>
    obtain ⟨-, h⟩ := h
    exact ⟨trivial, rfl, by rw [nearest_signFactor_mul, h, mul_zero]; rfl⟩
  | finite s' m e hm =>
    obtain ⟨rfl, hc, h⟩ := h
    exact ⟨hc, rfl, by rw [nearest_signFactor_mul, h, realOf_finite]⟩
  | infinity s' => exact h.elim
  | notANumber => exact h.elim

/-! ## Sums and differences -/

theorem shiftLeft_mul_zpow (m i : ℕ) (e : ℤ) :
    ((m <<< i : ℕ) : ℝ) * (2 : ℝ) ^ (e - i) = m * (2 : ℝ) ^ e := by
  rw [Nat.shiftLeft_eq, zpow_sub₀ two_ne_zero, zpow_natCast]
  push_cast
  field_simp

theorem log2_shiftLeft {m : ℕ} (hm : 0 < m) (i : ℕ) : (m <<< i).log2 = m.log2 + i := by
  rw [Nat.shiftLeft_eq]
  refine (Nat.log2_eq_iff (by positivity)).2 ⟨?_, ?_⟩
  · rw [pow_add]
    exact Nat.mul_le_mul_right _ (Nat.log2_self_le hm.ne')
  · rw [add_right_comm, pow_add]
    exact Nat.mul_lt_mul_of_pos_right Nat.lt_log2_self (by positivity)

/-- Rounding an exact mantissa of any width. -/
theorem isRounded_round (s : SignBit) {m : ℕ} (hm : 0 < m) (e : ℤ) :
    IsRounded s (m * (2 : ℝ) ^ e) (round Format.binary64 s m e) := by
  have key : ∀ i : ℕ, i = (e - Format.binary64.targetExponent (totalExponent m e)).toNat →
      e - i ≤ Format.binary64.targetExponent (totalExponent (m <<< i) (e - i)) := by
    intro i hi
    rw [targetExponent_eq] at hi ⊢
    rw [log2_shiftLeft hm]
    push_cast
    omega
  have hpos : 0 < m <<< (e - Format.binary64.targetExponent (totalExponent m e)).toNat := by
    rw [Nat.shiftLeft_eq]
    positivity
  have h := isRounded_roundWithAccuracy s (approximates_exact (m <<< _))
    (by exact_mod_cast hpos) (key _ rfl)
  rwa [shiftLeft_mul_zpow] at h

/-- Rounding an exact signed mantissa. -/
theorem isNearest_normalize (n e : ℤ) (s : SignBit) :
    IsNearest (n * (2 : ℝ) ^ e) (UnpackedFloat.normalize Format.binary64 n e s) := by
  unfold UnpackedFloat.normalize
  rcases lt_trichotomy n 0 with h | rfl | h
  · rw [show compare n 0 = .lt from compare_lt_iff_lt.2 h]
    have hn : ((-n).toNat : ℝ) = -n := by
      rw [← Int.cast_natCast, Int.toNat_of_nonneg (by omega)]
      push_cast
      rfl
    have := (isRounded_round .negative (m := (-n).toNat) (by omega) e).isNearest
    rwa [hn, signFactor, neg_mul, neg_mul, mul_neg, one_mul, neg_neg] at this
  · rw [show compare (0 : ℤ) 0 = .eq from rfl]
    exact isNearest_zero (by simp) s
  · rw [show compare n 0 = .gt from compare_gt_iff_gt.2 h]
    have hn : (n.toNat : ℝ) = n := by
      rw [← Int.cast_natCast, Int.toNat_of_nonneg (by omega)]
    have := (isRounded_round .positive (m := n.toNat) (by omega) e).isNearest
    rwa [hn, signFactor, one_mul] at this

theorem apply_decreaseExponent (s : SignBit) (m : ℕ) {e t : ℤ} (h : t ≤ e) :
    ((s.apply ((decreaseExponent m e t).1 : ℤ) : ℤ) : ℝ) * (2 : ℝ) ^ t =
      (s.apply m : ℤ) * (2 : ℝ) ^ e := by
  have hm := shiftLeft_mul_zpow m (e - t).toNat e
  rw [show e - ((e - t).toNat : ℤ) = t by omega] at hm
  cases s <;> simp only [UnpackedFloat.Sign.apply, decreaseExponent, Int.cast_neg,
    Int.cast_natCast, neg_mul, hm]

/-- Addition rounds the exact sum. -/
theorem isNearest_add {u v : UnpackedFloat} (hu : IsCanonical u) (hv : IsCanonical v)
    (hfu : u.isFinite = true) (hfv : v.isFinite = true) :
    IsNearest (realOf u + realOf v) (UnpackedFloat.add Format.binary64 u v) := by
  cases u with
  | infinity s => cases hfu
  | notANumber => cases hfu
  | zero s =>
    cases v with
    | infinity s' => cases hfv
    | notANumber => cases hfv
    | zero s' =>
      simp only [UnpackedFloat.add]
      split <;> exact isNearest_zero (by simp [realOf]) _
    | finite s' m e h =>
      have : IsNearest (realOf (.finite s' m e h)) (.finite s' m e h) := isNearest_realOf hv hfv
      rwa [← zero_add (realOf _)] at this
  | finite s m e h =>
    cases v with
    | infinity s' => cases hfv
    | notANumber => cases hfv
    | zero s' =>
      have : IsNearest (realOf (.finite s m e h)) (.finite s m e h) := isNearest_realOf hu hfu
      rwa [← add_zero (realOf _)] at this
    -- both mantissas are brought to the smaller exponent, which loses no bits
    | finite s' m' e' h' =>
      have := isNearest_normalize (s.apply (decreaseExponent m e (min e e')).1
        + s'.apply (decreaseExponent m' e' (min e e')).1) (min e e') .positive
      rw [Int.cast_add, add_mul, apply_decreaseExponent s m (min_le_left e e'),
        apply_decreaseExponent s' m' (min_le_right e e')] at this
      exact this

/-- Subtraction adds the negative. -/
theorem sub_eq_add_of_neg (u v : UnpackedFloat) :
    UnpackedFloat.sub Format.binary64 u v = UnpackedFloat.add Format.binary64 u v.neg := by
  cases u with
  | finite s m e h =>
    cases v with
    | finite s' m' e' h' =>
      have hs : ∀ n : ℤ, (-s').apply n = -s'.apply n := by
        intro n
        cases s'
        · exact (neg_neg n).symm
        · rfl
      simp only [UnpackedFloat.sub, UnpackedFloat.add, UnpackedFloat.neg, hs, Int.sub_eq_add_neg]
    | _ => rfl
  | _ => cases v <;> rfl

/-- Subtraction rounds the exact difference. -/
theorem isNearest_sub {u v : UnpackedFloat} (hu : IsCanonical u) (hv : IsCanonical v)
    (hfu : u.isFinite = true) (hfv : v.isFinite = true) :
    IsNearest (realOf u - realOf v) (UnpackedFloat.sub Format.binary64 u v) := by
  have hf : v.neg.isFinite = true := by cases v <;> exact hfv
  have := isNearest_add hu (isCanonical_neg hv) hfu hf
  rwa [realOf_neg, ← sub_eq_add_of_neg, ← sub_eq_add_neg] at this

/-! ## Products -/

theorem signFactor_mul (s s' : SignBit) : signFactor (s * s') = signFactor s * signFactor s' := by
  cases s <;> cases s' <;> simp only [signFactor, mul_one, neg_neg, mul_neg]

theorem signFactor_div (s s' : SignBit) : signFactor (s / s') = signFactor s * signFactor s' := by
  cases s <;> cases s' <;> simp only [signFactor, mul_one, neg_neg, mul_neg] <;> rfl

/-- A mantissa with enough bits, or with the least exponent, needs no bits in front. -/
theorem le_targetExponent {m : ℕ} {e : ℤ} (h : 2 ^ 52 ≤ m ∨ e ≤ -1074) :
    e ≤ Format.binary64.targetExponent (totalExponent m e) := by
  rw [targetExponent_eq]
  rcases h with h | h
  · have : 52 ≤ m.log2 := (Nat.le_log2 (by omega)).2 h
    omega
  · omega

/-- Rounding the exact product of two mantissas. -/
theorem isNearest_mul_finite (s s' : SignBit) {m m' : ℕ} {e e' : ℤ} (h : 0 < m) (h' : 0 < m')
    (hw : 2 ^ 52 ≤ m ∨ 2 ^ 52 ≤ m' ∨ e + e' ≤ -1074) :
    IsNearest (realOf (.finite s m e h) * realOf (.finite s' m' e' h'))
      (roundWithAccuracy Format.binary64 (s * s') (m * m') (e + e') .exact) := by
  have hwide : 2 ^ 52 ≤ m * m' ∨ e + e' ≤ -1074 := by
    rcases hw with hw | hw | hw
    · exact Or.inl (hw.trans (Nat.le_mul_of_pos_right m h'))
    · exact Or.inl (hw.trans (Nat.le_mul_of_pos_left m' h))
    · exact Or.inr hw
  have := (isRounded_roundWithAccuracy (s * s') (approximates_exact (m * m'))
    (by exact_mod_cast Nat.mul_pos h h') (le_targetExponent hwide)).isNearest
  rw [signFactor_mul, zpow_add₀ two_ne_zero] at this
  convert this using 1
  rw [realOf_finite, realOf_finite]
  push_cast
  ring

/-- Multiplication rounds the exact product. -/
theorem isNearest_mul {u v : UnpackedFloat} (hu : IsCanonical u) (hv : IsCanonical v)
    (hfu : u.isFinite = true) (hfv : v.isFinite = true) :
    IsNearest (realOf u * realOf v) (UnpackedFloat.mul Format.binary64 u v) := by
  cases u with
  | infinity s => cases hfu
  | notANumber => cases hfu
  | zero s =>
    cases v with
    | infinity s' => cases hfv
    | notANumber => cases hfv
    | _ => exact isNearest_zero (zero_mul _) _
  | finite s m e h =>
    cases v with
    | infinity s' => cases hfv
    | notANumber => cases hfv
    | zero s' => exact isNearest_zero (mul_zero _) _
    | finite s' m' e' h' =>
      obtain ⟨-, he, hw⟩ := hu
      obtain ⟨-, he', hw'⟩ := hv
      exact isNearest_mul_finite s s' h h' (by omega)

/-! ## Quotients -/

/-- The fraction that is cut off a quotient is described by its accuracy. -/
theorem approximates_div (n : ℕ) {d : ℕ} (hd : 0 < d) :
    Approximates (.ofMantissaAndAccuracy (n / d) (accuracyOfFraction (n % d) d)) (n / d : ℝ) := by
  have hd' : (0 : ℝ) < d := by exact_mod_cast hd
  have hn : (n : ℝ) = d * ((n / d : ℕ) : ℝ) + ((n % d : ℕ) : ℝ) := by
    exact_mod_cast (Nat.div_add_mod n d).symm
  have hlt : ((n % d : ℕ) : ℝ) < d := by exact_mod_cast Nat.mod_lt n hd
  have hq : (n / d : ℝ) = ((n / d : ℕ) : ℝ) + ((n % d : ℕ) : ℝ) / d := by
    rw [hn]
    field_simp
  -- the quotient is `q` and the fraction `k / d`; only the fraction matters from here
  generalize n / d = q at hq
  generalize n % d = k at hq hlt ⊢
  rw [hq, accuracyOfFraction]
  split_ifs with hk
  · simp [hk, ExtendedMantissa.ofMantissaAndAccuracy, Approximates]
  -- an inexact quotient: the fraction is compared with the half
  · have hk0 : (0 : ℝ) < k := by exact_mod_cast Nat.pos_of_ne_zero hk
    have hk1 : (k : ℝ) / d < 1 := (div_lt_one hd').2 hlt
    rcases lt_trichotomy (2 * k) d with h | h | h
    · rw [show compare (2 * k) d = .lt from compare_lt_iff_lt.2 h]
      have hh : (k : ℝ) / d < 1 / 2 := by
        rw [div_lt_iff₀ hd']
        have : (2 * k : ℝ) < d := by exact_mod_cast h
        linarith
      have h0 : 0 < (k : ℝ) / d := by positivity
      exact ⟨by simpa [ExtendedMantissa.ofMantissaAndAccuracy] using h0,
        by simpa [ExtendedMantissa.ofMantissaAndAccuracy] using hh⟩
    · rw [show compare (2 * k) d = .eq from compare_eq_iff_eq.2 h]
      have hh : (k : ℝ) / d = 1 / 2 := by
        rw [div_eq_iff hd'.ne']
        have : (2 * k : ℝ) = d := by exact_mod_cast h
        linarith
      simp [Approximates, ExtendedMantissa.ofMantissaAndAccuracy, hh]
    · rw [show compare (2 * k) d = .gt from compare_gt_iff_gt.2 h]
      have hh : 1 / 2 < (k : ℝ) / d := by
        rw [lt_div_iff₀ hd']
        have : (d : ℝ) < 2 * k := by exact_mod_cast h
        linarith
      exact ⟨by simpa [ExtendedMantissa.ofMantissaAndAccuracy] using hh,
        by simpa [ExtendedMantissa.ofMantissaAndAccuracy] using hk1⟩

/-- The exponent of a quotient leaves it enough bits. -/
theorem two_pow_le_quotient {n d i : ℕ} (hn : 0 < n) (hd : 0 < d) (h : d.log2 + 53 ≤ n.log2 + i) :
    2 ^ 52 ≤ (n <<< i) / d := by
  rw [Nat.le_div_iff_mul_le hd, Nat.shiftLeft_eq]
  have hd' : d ≤ 2 ^ (d.log2 + 1) := Nat.lt_log2_self.le
  calc 2 ^ 52 * d ≤ 2 ^ 52 * 2 ^ (d.log2 + 1) := Nat.mul_le_mul_left _ hd'
    _ = 2 ^ (d.log2 + 53) := by ring
    _ ≤ 2 ^ (n.log2 + i) := Nat.pow_le_pow_right two_pos h
    _ = 2 ^ n.log2 * 2 ^ i := pow_add ..
    _ ≤ n * 2 ^ i := Nat.mul_le_mul_right _ (Nat.log2_self_le hn.ne')

/-- Rounding the quotient of two mantissas of any width. -/
theorem isNearest_div_finite (s s' : SignBit) {m m' : ℕ} {e e' : ℤ} (h : 0 < m) (h' : 0 < m') :
    IsNearest (realOf (.finite s m e h) / realOf (.finite s' m' e' h'))
      (UnpackedFloat.div Format.binary64 (.finite s m e h) (.finite s' m' e' h')) := by
  simp only [UnpackedFloat.div, divCore]
  have ht : Format.binary64.targetExponent (totalExponent m e - totalExponent m' e') =
      max ((m.log2 : ℤ) + e - (m'.log2 + e') - 53) (-1074) := by
    simp only [Format.targetExponent, totalExponent, Format.minExponent, Format.mantissaBits]
    norm_num
    omega
  rw [ht]
  -- `t` is the exponent of the quotient and `i` the number of bits put behind the dividend
  generalize hT : min (e - e') (max ((m.log2 : ℤ) + e - (m'.log2 + e') - 53) (-1074)) = t
  obtain ⟨i, hi⟩ : ∃ i : ℕ, e - e' - t = i := Int.eq_ofNat_of_zero_le (by omega)
  rw [hi, Int.toNat_natCast]
  have hm : (0 : ℝ) < m := by exact_mod_cast h
  have hm' : (0 : ℝ) < m' := by exact_mod_cast h'
  have hpos : (0 : ℝ) < (m <<< i : ℕ) := by
    rw [Nat.shiftLeft_eq]
    push_cast
    positivity
  -- the integral quotient is wide enough to be rounded, unless the result is subnormal
  have hwide : 2 ^ 52 ≤ (m <<< i) / m' ∨ t ≤ -1074 := by
    by_cases ht' : t ≤ -1074
    · exact Or.inr ht'
    · exact Or.inl (two_pow_le_quotient h h' (by omega))
  have := (isRounded_roundWithAccuracy (s / s') (approximates_div (m <<< i) h')
    (div_pos hpos hm') (le_targetExponent hwide)).isNearest
  convert this using 1
  -- what is left is the value: the shift and the exponents cancel
  have hval := shiftLeft_mul_zpow m i (t + i)
  rw [add_sub_cancel_right] at hval
  rw [realOf_finite, realOf_finite, signFactor_div, div_mul_eq_mul_div, hval,
    show t + i = e - e' by omega, zpow_sub₀ two_ne_zero]
  have hs' : signFactor s' * signFactor s' = 1 := by cases s' <;> norm_num [signFactor]
  have hne : signFactor s' ≠ 0 := by cases s' <;> norm_num [signFactor]
  field_simp
  rw [sq, hs', mul_one]

/-- Division rounds the exact quotient. -/
theorem isNearest_div {u v : UnpackedFloat} (hfu : u.isFinite = true) (hv : realOf v ≠ 0) :
    IsNearest (realOf u / realOf v) (UnpackedFloat.div Format.binary64 u v) := by
  cases v with
  | finite s' m' e' h' =>
    cases u with
    | infinity s => cases hfu
    | notANumber => cases hfu
    | zero s => exact isNearest_zero (zero_div _) _
    | finite s m e h => exact isNearest_div_finite s s' h h'
  | _ => exact absurd rfl hv

/-! ## Square roots -/

/-- The remainder of an integral square root tells where the square root lies. -/
theorem approximates_sqrt (n : ℕ) :
    Approximates (.ofMantissaAndAccuracy n.sqrt
      (if n - n.sqrt * n.sqrt = 0 then .exact
        else .inexact (if n - n.sqrt * n.sqrt ≤ n.sqrt then .lt else .gt))) (√n) := by
  have hle : n.sqrt * n.sqrt ≤ n := Nat.sqrt_le n
  have hlt : n ≤ n.sqrt * n.sqrt + n.sqrt + n.sqrt := Nat.sqrt_le_add n
  generalize n.sqrt = q at *
  -- the radicand is `q * q + k`, and `k` beyond `q` means beyond the middle
  obtain ⟨k, rfl⟩ := Nat.exists_eq_add_of_le hle
  rw [Nat.add_sub_cancel_left]
  have hq : (0 : ℝ) ≤ q := by positivity
  split_ifs with hk hkq
  · simp [hk, ExtendedMantissa.ofMantissaAndAccuracy, Approximates, Real.sqrt_mul_self hq]
  · have hk0 : (0 : ℝ) < k := by exact_mod_cast Nat.pos_of_ne_zero hk
    have hk1 : (k : ℝ) ≤ q := by exact_mod_cast hkq
    refine ⟨Real.lt_sqrt_of_sq_lt ?_, (Real.sqrt_lt' (by positivity)).2 ?_⟩ <;>
      simp only [ExtendedMantissa.ofMantissaAndAccuracy] <;> push_cast <;> nlinarith
  · have hk0 : (q : ℝ) + 1 ≤ k := by exact_mod_cast Nat.lt_of_not_le hkq
    have hk1 : (k : ℝ) ≤ q + q := by exact_mod_cast (by omega : k ≤ q + q)
    refine ⟨Real.lt_sqrt_of_sq_lt ?_, (Real.sqrt_lt' (by positivity)).2 ?_⟩ <;>
      simp only [ExtendedMantissa.ofMantissaAndAccuracy] <;> push_cast <;> nlinarith

/-- Rounding the square root of a mantissa. -/
theorem isNearest_sqrt_finite {m : ℕ} {e : ℤ} (h : 0 < m) :
    IsNearest (√(realOf (.finite .positive m e h)))
      (UnpackedFloat.sqrt Format.binary64 (.finite .positive m e h)) := by
  simp only [UnpackedFloat.sqrt, sqrtCore]
  have ht : Format.binary64.targetExponent ((totalExponent m e + 1).ediv 2) =
      max (((m.log2 : ℤ) + e + 2) / 2 - 53) (-1074) := by
    have hdiv : (totalExponent m e + 1).ediv 2 = ((m.log2 : ℤ) + e + 2) / 2 := by
      show (totalExponent m e + 1) / 2 = _
      rw [totalExponent]
      congr 1
      ring
    rw [hdiv]
    simp only [Format.targetExponent, Format.minExponent, Format.mantissaBits]
    norm_num
  rw [ht, show e.ediv 2 = e / 2 from rfl]
  -- twice the exponent `t` of the root leaves `i` bits to put behind the radicand
  generalize hT : min (e / 2) (max (((m.log2 : ℤ) + e + 2) / 2 - 53) (-1074)) = t
  obtain ⟨i, hi⟩ : ∃ i : ℕ, e - 2 * t = i := Int.eq_ofNat_of_zero_le (by omega)
  rw [hi, Int.toNat_natCast]
  have hpos : 0 < m <<< i := by
    rw [Nat.shiftLeft_eq]
    positivity
  have hwide : 2 ^ 52 ≤ (m <<< i).sqrt ∨ t ≤ -1074 := by
    by_cases ht' : t ≤ -1074
    · exact Or.inr ht'
    · refine Or.inl (Nat.le_sqrt.2 ?_)
      rw [← pow_add]
      refine (Nat.le_log2 hpos.ne').1 ?_
      rw [log2_shiftLeft h]
      omega
  have := (isRounded_roundWithAccuracy .positive (approximates_sqrt (m <<< i))
    (Real.sqrt_pos.2 (by exact_mod_cast hpos)) (le_targetExponent hwide)).isNearest
  convert this using 1
  have hval := shiftLeft_mul_zpow m i e
  rw [show e - i = t + t by omega, zpow_add₀ two_ne_zero, ← mul_assoc] at hval
  rw [realOf_finite, signFactor, one_mul, one_mul, ← hval, mul_assoc,
    Real.sqrt_mul (by positivity), Real.sqrt_mul_self (by positivity)]

/-- The square root rounds the exact square root. -/
theorem isNearest_sqrt {u : UnpackedFloat} (hfu : u.isFinite = true) (h0 : 0 ≤ realOf u) :
    IsNearest (√(realOf u)) (UnpackedFloat.sqrt Format.binary64 u) := by
  cases u with
  | infinity s => cases hfu
  | notANumber => cases hfu
  | zero s => exact isNearest_zero (by simp [realOf]) s
  | finite s m e h =>
    cases s with
    | positive => exact isNearest_sqrt_finite h
    | negative =>
      rw [realOf_finite, signFactor, neg_one_mul, Left.nonneg_neg_iff] at h0
      have hpos : (0 : ℝ) < m * (2 : ℝ) ^ e := by positivity
      exact absurd h0 (not_le.2 hpos)

end EquationRoots.Binary64
