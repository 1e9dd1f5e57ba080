import EquationRoots.Proofs.Binary64.Order
import EquationRoots.Roots.Quadratic

/-!
# Where the quadratic formula breaks down

With finite coefficients the squares and products of the quadratic formula can still be too large.
The formula then finds a root that is "not a number", and this happens exactly where its
discriminant is "not a number" or its denominator is an infinity (`QuadraticBreaksDown`).

Two real roots break down together. If just one of them could be "not a number", the smaller and the
larger one would both be the other root; as it is, putting the roots in order drops neither
(`ascending_quadraticRoots`).
-/

set_option autoImplicit false

namespace EquationRoots

open Binary64 Float.Model
open Float (nan)
open scoped Scalar

/-- One part of a complex number is "not a number". -/
def ComplexNum.IsUndefined (z : ComplexNum Float) : Prop := z.re.isNaN = true ∨ z.im.isNaN = true

/-- The discriminant is "not a number", or the denominator is an infinity. -/
def QuadraticBreaksDown (a b c : Float) : Prop :=
  (quadraticDiscriminant a b c).isNaN = true ∨ (2 * a).isInf = true

/-! ## Real roots as complex numbers -/

theorem isNaN_im_ofReal (x : Float) : (ComplexNum.ofReal x).im.isNaN = false :=
  isNaN_of_isFinite (isFinite_numeral (n := 0) (by norm_num))

@[simp] theorem isUndefined_ofReal_iff (x : Float) :
    (ComplexNum.ofReal x).IsUndefined ↔ x.isNaN = true := by
  rw [ComplexNum.IsUndefined, isNaN_im_ofReal, ComplexNum.re_ofReal]
  simp

/-- A complex number whose parts are numbers. -/
theorem ComplexNum.not_isUndefined {z : ComplexNum Float} (hre : z.re.isNaN = false)
    (him : z.im.isNaN = false) : ¬ z.IsUndefined := by
  rintro (hz | hz)
  · exact absurd (hre.symm.trans hz) Bool.false_ne_true
  · exact absurd (him.symm.trans hz) Bool.false_ne_true

/-! ## The two real roots -/

/-- The real root with the square root subtracted. -/
def minusRoot (a b c : Float) : Float := (-b - (quadraticDiscriminant a b c).sqrt) / (2 * a)

/-- The real root with the square root added. -/
def plusRoot (a b c : Float) : Float := (-b + (quadraticDiscriminant a b c).sqrt) / (2 * a)

section

variable {a b c : Float}

/-- Where the discriminant is not negative, the smaller one of the two roots comes first. -/
theorem quadraticRoots_of_not_lt (h : ¬ quadraticDiscriminant a b c < 0) :
    quadraticRoots a b c = .real (Scalar.smaller (minusRoot a b c) (plusRoot a b c))
      (Scalar.larger (minusRoot a b c) (plusRoot a b c)) := if_neg h

/-- A quadratic polynomial with real roots has a discriminant that is not negative. -/
theorem not_lt_of_quadraticRoots_eq_real {lower upper : Float}
    (h : quadraticRoots a b c = .real lower upper) : ¬ quadraticDiscriminant a b c < 0 := by
  intro hlt
  simp [quadraticRoots, hlt] at h

/-- Where the denominator is an infinity, so is the discriminant, if it is a number at all. -/
theorem isNaN_or_isInf_discriminant (ha : a.isFinite = true) (hb : b.isFinite = true)
    (hc : c.isFinite = true) (h : (2 * a).isInf = true) :
    (quadraticDiscriminant a b c).isNaN = true ∨ (quadraticDiscriminant a b c).isInf = true := by
  obtain ⟨s, hfour⟩ : ∃ s, (4 : Float) * a = inf s := by
    rcases numeral_mul_cases (n := 4) (by norm_num) ha with hinf | hf
    · exact exists_eq_inf hinf
    · -- Twice the coefficient is too large, and four times the coefficient is not.
      have hfour := le_abs_toReal_numeral_mul (i := 2) (by norm_num) (by norm_num) hf
      have htwo := le_of_numeral_mul_eq_inf (n := 2) (i := 1) (by norm_num) le_rfl ha
        (Bool.eq_false_iff.2 fun hf => Bool.false_ne_true ((isInf_of_isFinite hf).symm.trans h))
      have hlt := hfour.trans_lt (abs_toReal_lt _)
      have hpos : (0 : ℝ) < 2 ^ (1024 : ℤ) := by positivity
      generalize (2 : ℝ) ^ (1024 : ℤ) = m at htwo hlt hpos
      linarith
  show (b * b - 4 * a * c).isNaN = true ∨ (b * b - 4 * a * c).isInf = true
  rw [hfour]
  -- infinity times zero is "not a number"; infinity times anything else is an infinity
  by_cases hc0 : toReal c = 0
  · rw [inf_mul_of_eq_zero hc s hc0, sub_nan]
    exact Or.inl isNaN_nan
  obtain ⟨s', hs'⟩ := exists_inf_mul_finite s hc0
  rw [hs']
  cases isRounding_mul hb hb with
  | finite hf _ => exact Or.inr (by rw [finite_sub_inf hf, isInf_inf])
  | overflow t ht _ =>
    rw [ht]
    cases t <;> cases s' <;> decide

/-- Twice a coefficient that is not zero cannot underflow. -/
theorem toReal_denominator_ne_zero (ha : a.isFinite = true) (ha0 : toReal a ≠ 0)
    (h : ¬ (2 * a).isInf = true) : toReal (2 * a) ≠ 0 := by
  have hf := (numeral_mul_cases (n := 2) (by norm_num) ha).resolve_left h
  have hle := le_abs_toReal_numeral_mul (i := 1) (by norm_num) le_rfl hf
  have hpos := abs_pos.2 ha0
  exact abs_pos.1 (lt_of_lt_of_le (by positivity) hle)

/-- Where the formula breaks down, both real roots are "not a number". -/
theorem roots_eq_nan_of_breaksDown (ha : a.isFinite = true) (hb : b.isFinite = true)
    (hc : c.isFinite = true) (h : QuadraticBreaksDown a b c)
    (hlt : ¬ quadraticDiscriminant a b c < 0) : minusRoot a b c = nan ∧ plusRoot a b c = nan := by
  rw [minusRoot, plusRoot]
  by_cases hd : (quadraticDiscriminant a b c).isNaN = true
  · rw [eq_nan hd, sqrt_nan, sub_nan, add_nan, nan_div]
    exact ⟨rfl, rfl⟩
  · have hden := h.resolve_left hd
    obtain ⟨t, ht⟩ := exists_eq_inf hden
    obtain ⟨s, hs⟩ := exists_eq_inf ((isNaN_or_isInf_discriminant ha hb hc hden).resolve_left hd)
    have hnb : (-b).isFinite = true := by rwa [isFinite_neg]
    cases s with
    | negative => exact absurd (lt_zero_iff.2 (Or.inl hs)) hlt
    | positive =>
      rw [hs, ht, sqrt_inf, finite_sub_inf hnb, finite_add_inf hnb, inf_div_inf, inf_div_inf]
      exact ⟨rfl, rfl⟩

/-- Elsewhere both real roots are numbers. -/
theorem isNaN_roots_of_not_breaksDown (ha : a.isFinite = true) (hb : b.isFinite = true)
    (ha0 : toReal a ≠ 0) (h : ¬ QuadraticBreaksDown a b c)
    (hlt : ¬ quadraticDiscriminant a b c < 0) :
    (minusRoot a b c).isNaN = false ∧ (plusRoot a b c).isNaN = false := by
  obtain ⟨hd, hden⟩ := not_or.1 h
  have hden0 := toReal_denominator_ne_zero ha ha0 hden
  have hnb : (-b).isFinite = true := by rwa [isFinite_neg]
  have hroot := (isNonneg_of_not_isBelow (Bool.eq_false_iff.2 hd) (mt lt_zero_iff.2 hlt)).sqrt.isNaN
  exact ⟨isNaN_div_of_ne_zero (isNaN_sub_of_isFinite hnb hroot) hden0,
    isNaN_div_of_ne_zero (isNaN_add_of_isFinite hnb hroot) hden0⟩

/-! ## Roots in order -/

/-- Putting the real roots in order never drops one. Both of them are "not a number" or neither
is, so that the smaller and the larger one are the two roots, and they are in order unless they are
"not a number". -/
theorem ascending_quadraticRoots (ha : a.isFinite = true) (hb : b.isFinite = true)
    (hc : c.isFinite = true) (ha0 : (a != 0) = true) {lower upper : Float}
    (h : quadraticRoots a b c = .real lower upper) :
    (minusRoot a b c).isNaN = (plusRoot a b c).isNaN ∧
      (SameValue lower (minusRoot a b c) ∧ SameValue upper (plusRoot a b c) ∨
        SameValue lower (plusRoot a b c) ∧ SameValue upper (minusRoot a b c)) ∧
      (lower ≤ upper ∨ lower.isNaN = true ∧ upper.isNaN = true) := by
  have hlt := not_lt_of_quadraticRoots_eq_real h
  rw [quadraticRoots_of_not_lt hlt] at h
  cases h
  by_cases hbreak : QuadraticBreaksDown a b c
  · obtain ⟨hminus, hplus⟩ := roots_eq_nan_of_breaksDown ha hb hc hbreak hlt
    rw [hminus, hplus, smaller_nan_left, larger_nan_left]
    exact ⟨rfl, Or.inl ⟨.refl nan, .refl nan⟩, Or.inr ⟨isNaN_nan, isNaN_nan⟩⟩
  · obtain ⟨hminus, hplus⟩ :=
      isNaN_roots_of_not_breaksDown ha hb (toReal_ne_zero_of_bne ha ha0) hbreak hlt
    have hminus' : minusRoot a b c ≠ nan := by simpa using hminus
    have hplus' : plusRoot a b c ≠ nan := by simpa using hplus
    exact ⟨hminus.trans hplus.symm, smaller_larger_cases (iff_of_false hminus' hplus'),
      Or.inl (smaller_le_larger hminus' hplus')⟩

/-- The polynomial `-x² + 4 x - 3`: the leading coefficient is negative, and the root with the
square root added is the smaller one. -/
theorem ascending_quadraticRoots_negativeLeading :
    (-1 : Float).isFinite = true ∧ (4 : Float).isFinite = true ∧ (-3 : Float).isFinite = true ∧
      ((-1 : Float) != 0) = true ∧ quadraticRoots (-1 : Float) 4 (-3) = .real 1 3 ∧
      minusRoot (-1) 4 (-3) = 3 ∧ plusRoot (-1) 4 (-3) = 1 ∧ (1 : Float) ≤ 3 := by
  have hroots : quadraticRoots (-1 : Float) 4 (-3) = .real 1 3 := by decide +kernel
  have hordered := (ascending_quadraticRoots (by decide) (by decide) (by decide) (by decide)
    hroots).2.2
  exact ⟨by decide, by decide, by decide, by decide, hroots, by decide +kernel, by decide +kernel,
    hordered.resolve_right (by decide)⟩

/-! ## Both directions -/

/-- The quadratic formula with a discriminant and a denominator that are numbers. -/
theorem not_isUndefined_of_mem_quadraticRoots (ha : a.isFinite = true) (hb : b.isFinite = true)
    (ha0 : toReal a ≠ 0) (h : ¬ QuadraticBreaksDown a b c) {z : ComplexNum Float}
    (hz : z ∈ (quadraticRoots a b c).toList) : ¬ z.IsUndefined := by
  by_cases hlt : quadraticDiscriminant a b c < 0
  -- a negative discriminant: the pair
  · obtain ⟨hd, hden⟩ := not_or.1 h
    have hden0 := toReal_denominator_ne_zero ha ha0 hden
    have hnb : (-b).isFinite = true := by rwa [isFinite_neg]
    have hre := isNaN_div_of_ne_zero (isNaN_of_isFinite hnb) hden0
    have him := isNaN_div_of_ne_zero (isNonneg_abs (Bool.eq_false_iff.2 hd)).sqrt.isNaN hden0
    unfold quadraticRoots at hz
    simp only [if_pos hlt] at hz
    rcases List.mem_pair.1 hz with rfl | rfl
    · exact ComplexNum.not_isUndefined hre (by rw [isNaN_neg]; exact him)
    · exact ComplexNum.not_isUndefined hre him
  -- a discriminant that is not negative: two real roots, ordered
  · obtain ⟨hminus, hplus⟩ := isNaN_roots_of_not_breaksDown ha hb ha0 h hlt
    rw [quadraticRoots_of_not_lt hlt] at hz
    rcases List.mem_pair.1 hz with rfl | rfl
    · exact ComplexNum.not_isUndefined (isNaN_smaller hminus hplus) (isNaN_im_ofReal _)
    · exact ComplexNum.not_isUndefined (isNaN_larger hminus hplus) (isNaN_im_ofReal _)

/-- Where the formula breaks down, the imaginary part of the pair or both real roots are "not a
number". -/
theorem exists_isUndefined_of_breaksDown (ha : a.isFinite = true) (hb : b.isFinite = true)
    (hc : c.isFinite = true) (h : QuadraticBreaksDown a b c) :
    ∃ z ∈ (quadraticRoots a b c).toList, z.IsUndefined := by
  by_cases hlt : quadraticDiscriminant a b c < 0
  -- the discriminant is a number, so that infinity is divided by infinity
  · have hd : ¬ (quadraticDiscriminant a b c).isNaN = true := by
      intro hnan
      rw [eq_nan hnan] at hlt
      exact not_nan_lt _ hlt
    have hden := h.resolve_left hd
    obtain ⟨t, ht⟩ := exists_eq_inf hden
    obtain ⟨s, hs⟩ := exists_eq_inf ((isNaN_or_isInf_discriminant ha hb hc hden).resolve_left hd)
    unfold quadraticRoots
    simp only [if_pos hlt]
    refine ⟨_, List.mem_pair.2 (Or.inr rfl), Or.inr ?_⟩
    show ((quadraticDiscriminant a b c).abs.sqrt / (2 * a)).isNaN = true
    rw [hs, ht, abs_inf, sqrt_inf, inf_div_inf, isNaN_nan]
  · obtain ⟨hminus, hplus⟩ := roots_eq_nan_of_breaksDown ha hb hc h hlt
    rw [quadraticRoots_of_not_lt hlt, hminus, hplus, smaller_nan_left]
    exact ⟨.ofReal nan, by simp, Or.inl isNaN_nan⟩

/-- The quadratic formula finds a root that is "not a number" exactly where it breaks down. -/
theorem exists_isUndefined_quadraticRoots_iff (ha : a.isFinite = true) (hb : b.isFinite = true)
    (hc : c.isFinite = true) (ha0 : toReal a ≠ 0) :
    (∃ z ∈ (quadraticRoots a b c).toList, z.IsUndefined) ↔ QuadraticBreaksDown a b c := by
  constructor
  · rintro ⟨z, hz, hnan⟩
    by_contra h
    exact not_isUndefined_of_mem_quadraticRoots ha hb ha0 h hz hnan
  · exact exists_isUndefined_of_breaksDown ha hb hc

end

end EquationRoots
