import EquationRoots.Proofs.Binary64.SameValue

/-!
# Negation and rounding

Rounding is odd. Negating a factor, a dividend or a divisor negates the result exactly; negating
both terms of a sum negates it up to the sign of a zero, because terms that cancel leave the
positive zero in either case.

`Opposite` says that one number is the negative of another, the signs of zeros aside. A formula is
followed through a negation of its inputs by asking of each part whether it stays the same number
or becomes the opposite one.
-/

set_option autoImplicit false

namespace EquationRoots.Binary64

open Float (nan)
open Float.Model Float.Model.UnpackedFloat
open scoped Scalar

/-! ## Exact negation -/

/-- What is stored under the opposite sign is the negative. -/
theorem pack_neg {u : UnpackedFloat} (h : IsCanonical u) :
    Float.ofModel (.pack u.neg) = -.ofModel (.pack u) := by
  apply view_injective
  rw [view_neg, view_ofModel_pack h, view_ofModel_pack (isCanonical_neg h)]
  cases u with
  | finite s m e hm =>
    simp only [UnpackedFloat.neg, overflowed]
    split <;> rfl
  | _ => rfl

theorem isCanonical_mul {u v : UnpackedFloat} (hu : IsCanonical u) (hv : IsCanonical v) :
    IsCanonical (UnpackedFloat.mul Format.binary64 u v) := by
  by_cases h : u.isFinite = true ∧ v.isFinite = true
  · exact (isNearest_mul hu hv h.1 h.2).1
  · cases u <;> cases v <;> first | trivial | exact absurd ⟨rfl, rfl⟩ h

theorem isCanonical_div (u v : UnpackedFloat) :
    IsCanonical (UnpackedFloat.div Format.binary64 u v) := by
  cases u with
  | finite s m e h =>
    cases v with
    | finite s' m' e' h' => exact (isNearest_div_finite s s' h h').1
    | _ => trivial
  | _ => cases v <;> trivial

/-- The sign plays no role in rounding a magnitude. -/
theorem neg_roundWithAccuracy (s : SignBit) (m : Nat) (e : Int) (accuracy : Accuracy) :
    (roundWithAccuracy Format.binary64 s m e accuracy).neg =
      roundWithAccuracy Format.binary64 (-s) m e accuracy := by
  simp only [roundWithAccuracy]
  split <;> rfl

/-- Negating a factor negates the product. -/
protected theorem neg_mul (x y : Float) : -x * y = -(x * y) := by
  have hsign (s s' : SignBit) : -s * s' = -(s * s') := by cases s <;> cases s' <;> rfl
  rw [mul_eq, mul_eq, ← pack_neg (isCanonical_mul (isCanonical_view x) (isCanonical_view y)),
    view_neg]
  congr 2
  cases view x with
  | finite s m e h =>
    cases view y with
    | finite s' m' e' h' =>
      simp only [UnpackedFloat.mul, neg_roundWithAccuracy, ← hsign]
      rfl
    | _ => simp only [UnpackedFloat.neg, UnpackedFloat.mul, hsign]
  | _ => cases view y <;> simp only [UnpackedFloat.neg, UnpackedFloat.mul, hsign]

protected theorem mul_neg (x y : Float) : x * -y = -(x * y) := by
  rw [Binary64.mul_comm, Binary64.neg_mul, Binary64.mul_comm]

protected theorem neg_mul_neg (x y : Float) : -x * -y = x * y := by
  rw [Binary64.neg_mul, Binary64.mul_neg, Binary64.neg_neg]

/-- Negating the number that is divided negates the quotient. -/
protected theorem neg_div (x y : Float) : -x / y = -(x / y) := by
  have hsign (s s' : SignBit) : -s / s' = -(s / s') := by cases s <;> cases s' <;> rfl
  rw [div_eq, div_eq, ← pack_neg (isCanonical_div (view x) (view y)), view_neg]
  congr 2
  cases view x with
  | finite s m e h =>
    cases view y with
    | finite s' m' e' h' =>
      simp only [UnpackedFloat.div, neg_roundWithAccuracy, ← hsign]
      rfl
    | _ => simp only [UnpackedFloat.neg, UnpackedFloat.div, hsign]
  | _ => cases view y <;> simp only [UnpackedFloat.neg, UnpackedFloat.div, hsign]

/-- Negating the divisor negates the quotient. -/
protected theorem div_neg (x y : Float) : x / -y = -(x / y) := by
  have hsign (s s' : SignBit) : s / -s' = -s / s' := by cases s <;> cases s' <;> rfl
  rw [← Binary64.neg_div, div_eq, div_eq, view_neg, view_neg]
  congr 2
  cases view x <;> cases view y <;> simp only [UnpackedFloat.neg, UnpackedFloat.div, hsign]

protected theorem neg_div_neg (x y : Float) : -x / -y = x / y := by
  rw [Binary64.neg_div, Binary64.div_neg, Binary64.neg_neg]

/-! ## Negation of sums -/

/-- Rounding determines the number. -/
theorem IsRounding.sameValue {r : ℝ} {x y : Float} (hx : IsRounding r x) (hy : IsRounding r y) :
    SameValue x y := by
  cases hx with
  | finite hfx hvx =>
    obtain ⟨hfy, hvy⟩ := hy.of_abs_nearest_lt (hvx ▸ abs_toReal_lt x)
    exact Or.inl ((beq_iff hfx hfy).2 (hvx.trans hvy.symm))
  | overflow s hs hle =>
    cases hy with
    | finite hfy hvy =>
      have hlt := (signFactor_mul_le_abs s _).trans_lt (hvy ▸ abs_toReal_lt y)
      exact absurd hle (not_le.2 hlt)
    | overflow s' hs' hle' =>
      -- a number cannot be beyond the largest float in both directions
      have hpos : (0 : ℝ) < signFactor s * nearest r := lt_of_lt_of_le (by positivity) hle
      have hpos' : (0 : ℝ) < signFactor s' * nearest r := lt_of_lt_of_le (by positivity) hle'
      rw [hs, hs']
      cases s <;> cases s' <;> simp only [signFactor] at hpos hpos' <;>
        first | exact .refl _ | linarith

/-- The negative of a rounded number is the negative number rounded. -/
theorem IsRounding.negative {r : ℝ} {x : Float} (h : IsRounding r x) : IsRounding (-r) (-x) := by
  cases h with
  | finite hf hv => exact .finite (by rwa [isFinite_neg]) (by rw [toReal_neg, hv, nearest_neg])
  | overflow s hs hle =>
    refine .overflow (-s) (by rw [hs, neg_inf]) ?_
    rw [nearest_neg]
    cases s <;> simpa [signFactor] using hle

/-- Negating both terms negates a sum. -/
theorem neg_add_neg (x y : Float) : SameValue (-x + -y) (-(x + y)) := by
  have hnan : -nan = nan := rfl
  rcases eq_nan_or_eq_inf_or_isFinite x with rfl | ⟨s, rfl⟩ | hx
  · rw [hnan, nan_add, nan_add, hnan]
  · rcases eq_nan_or_eq_inf_or_isFinite y with rfl | ⟨s', rfl⟩ | hy
    · rw [hnan, add_nan, add_nan, hnan]
    · rw [neg_inf, neg_inf]
      cases s <;> cases s' <;> exact .of_eq rfl
    · rw [neg_inf, inf_add_finite (by rwa [isFinite_neg]), inf_add_finite hy, neg_inf]
  · rcases eq_nan_or_eq_inf_or_isFinite y with rfl | ⟨s', rfl⟩ | hy
    · rw [hnan, add_nan, add_nan, hnan]
    · rw [neg_inf, finite_add_inf (by rwa [isFinite_neg]), finite_add_inf hx, neg_inf]
    · have hsum := isRounding_add (x := -x) (y := -y) (by rwa [isFinite_neg])
        (by rwa [isFinite_neg])
      rw [toReal_neg, toReal_neg, ← neg_add] at hsum
      exact hsum.sameValue (isRounding_add hx hy).negative

/-! ## Opposite numbers -/

/-- The number is the negative of the other one. -/
def Opposite (x y : Float) : Prop := SameValue x (-y)

theorem IsZero.neg {x : Float} (h : IsZero x) : IsZero (-x) := by
  obtain ⟨s, hs⟩ := h
  exact ⟨-s, by rw [view_neg, hs]; rfl⟩

theorem isZero_iff_beq (x : Float) : IsZero x ↔ (x == (0 : Float)) = true := by
  have hzero : view (0 : Float) = .zero .positive := rfl
  rw [beq_iff_compare, hzero]
  constructor
  · rintro ⟨s, hs⟩
    rw [hs]
    rfl
  · intro h
    exact (view_eq_or_isZero (y := (0 : Float)) (by rwa [hzero])).elim
      (fun hx => ⟨.positive, hx.trans hzero⟩) And.left

/-- The scalar zero is tested for like any other zero. -/
theorem bne_zero_iff (x : Float) : (x != (0 : Float)) = true ↔ ¬ IsZero x := by
  rw [isZero_iff_beq, bne, Bool.not_eq_true', Bool.not_eq_true]

theorem IsZero.isFinite {x : Float} (h : IsZero x) : x.isFinite = true := by
  obtain ⟨s, hs⟩ := h
  rw [isFinite_eq, hs]
  rfl

theorem IsZero.toReal {x : Float} (h : IsZero x) : toReal x = 0 := by
  obtain ⟨s, hs⟩ := h
  rw [Binary64.toReal, hs]
  rfl

theorem SameValue.toReal_eq {x y : Float} (h : SameValue x y) :
    Binary64.toReal x = Binary64.toReal y := by
  rcases sameValue_iff.1 h with rfl | ⟨hx, hy⟩
  · rfl
  · rw [hx.toReal, hy.toReal]

theorem IsZero.add {x y : Float} (h : IsZero x) (h' : IsZero y) : IsZero (x + y) := by
  obtain ⟨s, hs⟩ := h
  obtain ⟨s', hs'⟩ := h'
  rw [add_eq, hs, hs']
  cases s <;> cases s' <;> exact isZero_pack_zero _

/-- A zero times a finite number is a zero. -/
theorem IsZero.mul {x y : Float} (h : IsZero x) (hy : y.isFinite = true) : IsZero (x * y) := by
  obtain ⟨s, hs⟩ := h
  obtain ⟨s', hv⟩ | ⟨s', m, e, hm, hv⟩ := view_of_isFinite hy <;> rw [mul_eq, hs, hv] <;>
    exact isZero_pack_zero _

/-- A zero divided by anything is a zero or "not a number". -/
theorem IsZero.div {x : Float} (h : IsZero x) (y : Float) : x / y = nan ∨ IsZero (x / y) := by
  obtain ⟨s, hs⟩ := h
  rw [div_eq, hs]
  cases view y with
  | infinity t | finite t m e hm => exact Or.inr (isZero_pack_zero _)
  | _ => exact Or.inl rfl

/-- Subtracting a zero leaves any number the same. -/
theorem sameValue_sub_of_isZero (x : Float) {y : Float} (h : IsZero y) : SameValue (x - y) x := by
  rcases eq_nan_or_eq_inf_or_isFinite x with rfl | ⟨s, rfl⟩ | hx
  · exact .of_eq (nan_sub y)
  · exact .of_eq (inf_sub_finite h.isFinite s)
  · have hround := isRounding_sub hx h.isFinite
    rw [h.toReal, sub_zero] at hround
    have hvalue := nearest_of_isRepresentable (isRepresentable_toReal x)
    exact hround.sameValue (.finite hx hvalue.symm)

theorem IsBelow.not_isZero {x : Float} {v : ℝ} (h : IsBelow x v) (hv : v ≤ 0) : ¬ IsZero x := by
  rintro ⟨s, hs⟩
  rcases h with rfl | ⟨-, hlt⟩
  · rw [view_inf] at hs
    cases hs
  · rw [toReal, hs] at hlt
    exact hlt.not_ge hv

namespace SameValue

variable {x y x' y' : Float}

theorem isZero (h : SameValue x y) (hy : IsZero y) : IsZero x := by
  obtain rfl | ⟨hx, -⟩ := sameValue_iff.1 h
  · exact hy
  · exact hx

theorem mul_opposite (h : SameValue x x') (h' : Opposite y y') : Opposite (x * y) (x' * y') := by
  have hmul := h.mul h'
  rwa [Binary64.mul_neg] at hmul

theorem opposite_neg (h : SameValue x y) : Opposite x (-y) := by
  rw [Opposite, Binary64.neg_neg]
  exact h

end SameValue

namespace Opposite

variable {x y x' y' : Float}

theorem neg_left (x : Float) : Opposite (-x) x := .refl (-x)

theorem neg (h : Opposite x y) : SameValue (-x) y := by
  have hneg := SameValue.neg h
  rwa [Binary64.neg_neg] at hneg

theorem symm (h : Opposite x y) : Opposite y x := h.neg.symm

theorem isZero_iff (h : Opposite x y) : IsZero x ↔ IsZero y :=
  ⟨fun hx => h.symm.isZero hx.neg, fun hy => SameValue.isZero h hy.neg⟩

theorem isFinite_eq (h : Opposite x y) : x.isFinite = y.isFinite :=
  (SameValue.isFinite_eq h).trans (isFinite_neg y)

theorem beq_zero_eq (h : Opposite x y) : (x == (0 : Float)) = (y == (0 : Float)) := by
  rw [Bool.eq_iff_iff, ← isZero_iff_beq, ← isZero_iff_beq, h.isZero_iff]

theorem bne_zero_eq (h : Opposite x y) : (x != (0 : Float)) = (y != (0 : Float)) :=
  congrArg (! ·) h.beq_zero_eq

/-- A float that is opposite to one other than zero is its negative, bit by bit. -/
theorem eq_neg (h : Opposite x y) (hy : ¬ IsZero y) : x = -y :=
  h.eq_of_not_isZero fun hzero => hy (Binary64.neg_neg y ▸ hzero.neg)

theorem mul (h : Opposite x x') (h' : Opposite y y') : SameValue (x * y) (x' * y') := by
  have hmul := SameValue.mul h h'
  rwa [Binary64.neg_mul_neg] at hmul

theorem mul_right (h : Opposite x x') (y : Float) : Opposite (x * y) (x' * y) := by
  have hmul := SameValue.mul_right h y
  rwa [Binary64.neg_mul] at hmul

theorem add (h : Opposite x x') (h' : Opposite y y') : Opposite (x + y) (x' + y') :=
  (SameValue.add h h').trans (neg_add_neg x' y')

theorem sub (h : Opposite x x') (h' : Opposite y y') : Opposite (x - y) (x' - y') := by
  rw [sub_eq_add, sub_eq_add]
  exact h.add (SameValue.neg h')

/-- Negating both parts of a quotient leaves it the same. -/
theorem div_neg (h : Opposite x x') (y : Float) : SameValue (x / -y) (x' / y) := by
  have hdiv := SameValue.div_right h (-y)
  rwa [Binary64.neg_div_neg] at hdiv

end Opposite

end EquationRoots.Binary64
