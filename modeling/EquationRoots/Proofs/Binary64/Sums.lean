import EquationRoots.Proofs.Binary64.Accuracy
import EquationRoots.Proofs.Binary64.Magnitude
import EquationRoots.Proofs.Binary64.Negation

/-!
# Sums of floats from left to right

Rounding makes the result of a sum depend on its order. It does not where no partial sum is rounded:
multiples of one power of two whose magnitudes add up to at most `2 ^ 53` such units have the same
sum in any order, bit by bit (`AddsExactly.foldl_add_perm`). Elsewhere the order matters by the
rounding errors alone, which are small for the magnitudes of the terms (`abs_foldl_add_sub_le`),
and it decides about an overflow only where the magnitudes come close to it (`isFinite_foldl_add`).
`SumsAgree` says all this of the sums of a list in two orders (`sumsAgree_of_perm`).
Negating all terms negates a sum in any order (`Opposite.foldl_add`). A sum that has left the range
stays the same infinity (`foldl_add_inf`) and is never "not a number" (`isNaN_foldl_add`).
-/

set_option autoImplicit false

namespace EquationRoots.Binary64

open Float.Model Float.Model.UnpackedFloat

/-- Negating all terms negates a sum. -/
theorem Opposite.foldl_add {xs xs' : List Float} (hxs : List.Forall₂ Opposite xs' xs)
    {x x' : Float} (h : Opposite x' x) :
    Opposite (xs'.foldl (· + ·) x') (xs.foldl (· + ·) x) := by
  induction hxs generalizing x x' with
  | nil => exact h
  | cons hx _ ih => exact ih (h.add hx)

/-! ## Multiples of a power of two -/

/-- The float is finite, and its value is a multiple of the power of two. -/
structure IsMultiple (e : ℤ) (x : Float) : Prop where
  isFinite : x.isFinite = true
  exists_eq : ∃ n : ℤ, toReal x = n * 2 ^ e

/-- Every finite float is a multiple of the least positive one. -/
theorem isMultiple_least {x : Float} (hx : x.isFinite = true) : IsMultiple (-1074) x := by
  obtain ⟨n, k, -, hk, hv⟩ := isRepresentable_toReal x
  obtain ⟨i, hi⟩ := Int.eq_ofNat_of_zero_le (show 0 ≤ k + 1074 by omega)
  refine ⟨hx, n * 2 ^ i, ?_⟩
  rw [hv, show k = i + (-1074) by omega, zpow_add₀ two_ne_zero, zpow_natCast]
  push_cast
  ring

theorem isRepresentable_intCast_mul {n e : ℤ} (hn : |n| ≤ 2 ^ 53) (he : -1074 ≤ e) :
    IsRepresentable (n * 2 ^ e) := by
  rcases hn.lt_or_eq with hlt | heq
  · exact ⟨n, e, hlt, he, rfl⟩
  · -- the largest magnitude is a power of two
    have hpow : (2 : ℝ) ^ (e + 53) = 2 ^ 53 * 2 ^ e := by
      rw [add_comm, zpow_add₀ two_ne_zero]
      norm_num
    rcases abs_eq (by norm_num) |>.1 heq with rfl | rfl
    · exact ⟨1, e + 53, by norm_num, by omega, by rw [hpow]; norm_num⟩
    · exact ⟨-1, e + 53, by norm_num, by omega, by rw [hpow]; norm_num⟩

variable {x y : Float} {e : ℤ}

/-- The sum of two multiples that are not too large is not rounded. -/
theorem IsMultiple.add (hx : IsMultiple e x) (hy : IsMultiple e y) (hlow : -1074 ≤ e)
    (hhigh : e ≤ 970) (h : |toReal x| + |toReal y| ≤ 2 ^ (e + 53)) :
    IsMultiple e (x + y) ∧ toReal (x + y) = toReal x + toReal y := by
  obtain ⟨hfx, m, hm⟩ := hx
  obtain ⟨hfy, n, hn⟩ := hy
  have hsum : toReal x + toReal y = ((m + n : ℤ) : ℝ) * 2 ^ e := by
    rw [hm, hn, Int.cast_add, add_mul]
  have hle : |((m + n : ℤ) : ℝ) * 2 ^ e| ≤ 2 ^ (e + 53) := by
    rw [← hsum]
    exact (abs_add_le _ _).trans h
  have hbound : |m + n| ≤ 2 ^ 53 := by
    have hpos : (0 : ℝ) < 2 ^ e := by positivity
    rw [abs_mul, abs_of_pos hpos, add_comm e, zpow_add₀ two_ne_zero] at hle
    exact_mod_cast le_of_mul_le_mul_right hle hpos
  have hround := isRounding_add hfx hfy
  rw [hsum] at hround ⊢
  obtain ⟨hf, hv⟩ :=
    hround.of_abs_le (hle.trans (zpow_le_zpow_right₀ one_le_two (by omega)))
  rw [nearest_of_isRepresentable (isRepresentable_intCast_mul hbound hlow)] at hv
  exact ⟨⟨hf, m + n, hv⟩, hv⟩

/-- The floats are multiples of one power of two, and their magnitudes add up to few enough of these
units that no sum of some of them is rounded. The format has the unit, and as many units as a
mantissa counts do not overflow. -/
structure FitsUnits (e : ℤ) (xs : List Float) : Prop where
  least_le : -1074 ≤ e
  le_greatest : e ≤ 970
  isMultiple : ∀ x ∈ xs, IsMultiple e x
  sum_le : (xs.map fun x => |toReal x|).sum ≤ 2 ^ (e + 53)

theorem sum_abs_toReal_nonneg (xs : List Float) : 0 ≤ (xs.map fun x => |toReal x|).sum :=
  List.sum_nonneg (by simp)

/-- One addition is exact and leaves floats that fit. -/
theorem FitsUnits.add {xs : List Float} (h : FitsUnits e (x :: y :: xs)) :
    toReal (x + y) = toReal x + toReal y ∧ FitsUnits e ((x + y) :: xs) := by
  have hle := h.sum_le
  rw [List.map_cons, List.map_cons, List.sum_cons, List.sum_cons, ← add_assoc] at hle
  have hrest := sum_abs_toReal_nonneg xs
  obtain ⟨hx, hy, hxs⟩ : IsMultiple e x ∧ IsMultiple e y ∧ ∀ z ∈ xs, IsMultiple e z := by
    simpa only [List.forall_mem_cons] using h.isMultiple
  obtain ⟨hsum, hv⟩ := hx.add hy h.least_le h.le_greatest (by linarith)
  refine ⟨hv, h.least_le, h.le_greatest, List.forall_mem_cons.2 ⟨hsum, hxs⟩, ?_⟩
  rw [List.map_cons, List.sum_cons, hv]
  linarith [abs_add_le (toReal x) (toReal y)]

/-- Floats that fit are added up exactly. -/
theorem FitsUnits.foldl_add {xs : List Float} (h : FitsUnits e (x :: xs)) :
    IsMultiple e (xs.foldl (· + ·) x) ∧
      toReal (xs.foldl (· + ·) x) = toReal x + (xs.map toReal).sum := by
  induction xs generalizing x with
  | nil => exact ⟨h.isMultiple x List.mem_cons_self, by simp⟩
  | cons y xs ih =>
    obtain ⟨hv, hfits⟩ := h.add
    obtain ⟨hfold, hvalue⟩ := ih hfits
    refine ⟨hfold, ?_⟩
    rw [List.foldl_cons, hvalue, hv, List.map_cons, List.sum_cons, add_assoc]

/-! ### Integers -/

/-- The float is finite, and its value is an integer. -/
def IsInteger (x : Float) : Prop := x.isFinite = true ∧ ∃ n : ℤ, toReal x = n

theorem IsInteger.neg {x : Float} (h : IsInteger x) : IsInteger (-x) := by
  obtain ⟨hf, n, hn⟩ := h
  exact ⟨by rwa [isFinite_neg], -n, by rw [toReal_neg, hn, Int.cast_neg]⟩

/-- Integers are the multiples of one. -/
theorem IsInteger.isMultiple {x : Float} (h : IsInteger x) : IsMultiple 0 x := by
  obtain ⟨hf, n, hn⟩ := h
  exact ⟨hf, n, by rw [hn, zpow_zero, mul_one]⟩

theorem fitsUnits_of_isInteger {xs : List Float} (hxs : ∀ x ∈ xs, IsInteger x)
    (h : (xs.map fun x => |toReal x|).sum ≤ 2 ^ 53) : FitsUnits 0 xs :=
  ⟨by norm_num, by norm_num, fun x hx => (hxs x hx).isMultiple, by exact_mod_cast h⟩

/-! ## The sign of a zero sum -/

/-- A sum of finite floats that is not zero is not rounded to zero. -/
theorem toReal_add_eq_zero_iff (hx : x.isFinite = true) (hy : y.isFinite = true)
    (hf : (x + y).isFinite = true) : toReal (x + y) = 0 ↔ toReal x + toReal y = 0 := by
  rw [(isRounding_add hx hy).toReal_eq_of_isFinite hf]
  constructor
  · intro h
    by_contra hne
    obtain ⟨-, m, hm⟩ := isMultiple_least hx
    obtain ⟨-, n, hn⟩ := isMultiple_least hy
    have hleast : (2 : ℝ) ^ (-1074 : ℤ) ≤ |toReal x + toReal y| := by
      have hpos : (0 : ℝ) < 2 ^ (-1074 : ℤ) := by positivity
      rw [hm, hn, ← add_mul, ← Int.cast_add] at hne ⊢
      have hone : 1 ≤ |m + n| := Int.one_le_abs (by rintro h0; simp [h0] at hne)
      rw [abs_mul, abs_of_pos hpos]
      exact le_mul_of_one_le_left hpos.le (by exact_mod_cast hone)
    have hnear := le_abs_nearest (isRepresentable_zpow le_rfl) hleast
    rw [h, abs_zero] at hnear
    exact hnear.not_gt (by positivity)
  · intro h
    rw [h, nearest_zero]

/-- Finite numbers that cancel leave the positive zero. -/
theorem add_finite_of_realOf_eq_zero {s s' : SignBit} {m m' : ℕ} {e e' : ℤ} {h : 0 < m}
    {h' : 0 < m'} (hsum : realOf (.finite s m e h) + realOf (.finite s' m' e' h') = 0) :
    UnpackedFloat.add Format.binary64 (.finite s m e h) (.finite s' m' e' h') =
      .zero .positive := by
  rw [realOf, realOf, ← apply_decreaseExponent s m (min_le_left e e'),
    ← apply_decreaseExponent s' m' (min_le_right e e'), ← add_mul, ← Int.cast_add] at hsum
  have hpos : (0 : ℝ) < 2 ^ min e e' := by positivity
  have hzero := (mul_eq_zero.1 hsum).resolve_right hpos.ne'
  simp only [UnpackedFloat.add]
  rw [Int.cast_eq_zero.1 hzero]
  rfl

/-- Floats that cancel leave the positive zero, unless both are the negative one. -/
theorem view_add_of_cancel (hx : x.isFinite = true) (hy : y.isFinite = true)
    (h : toReal x + toReal y = 0) :
    view (x + y) = .zero .positive ∨ view x = .zero .negative ∧ view y = .zero .negative := by
  rw [add_eq]
  obtain ⟨s, hu⟩ | ⟨s, m, e, hm, hu⟩ := view_of_isFinite hx
  · have hx0 : toReal x = 0 := by rw [toReal, hu]; rfl
    rw [hx0, zero_add] at h
    obtain ⟨s', hv⟩ := view_of_toReal_eq_zero hy h
    rw [hu, hv]
    cases s <;> cases s' <;> first | exact Or.inr ⟨rfl, rfl⟩ | exact Or.inl rfl
  · obtain ⟨s', hv⟩ | ⟨s', m', e', hm', hv⟩ := view_of_isFinite hy
    · have hy0 : toReal y = 0 := by rw [toReal, hv]; rfl
      rw [hy0, add_zero] at h
      obtain ⟨s, hu'⟩ := view_of_toReal_eq_zero hx h
      rw [hu] at hu'
      cases hu'
    · rw [toReal, toReal, hu, hv] at h
      rw [hu, hv, add_finite_of_realOf_eq_zero h]
      exact Or.inl rfl

theorem view_eq_zero_negative_iff (x : Float) : view x = .zero .negative ↔ x = -0.0 :=
  ⟨fun h => view_injective h, fun h => by rw [h]; rfl⟩

/-- A sum is the negative zero only if both terms are. -/
theorem add_eq_neg_zero_iff : x + y = -0.0 ↔ x = -0.0 ∧ y = -0.0 := by
  constructor
  · intro h
    have hfinite : (x + y).isFinite = true := by rw [h]; rfl
    obtain ⟨hx, hy⟩ := isFinite_of_add hfinite
    have hcancel : toReal x + toReal y = 0 := by
      rw [← toReal_add_eq_zero_iff hx hy hfinite, h]
      rfl
    rcases view_add_of_cancel hx hy hcancel with hview | hviews
    · rw [h] at hview
      cases hview
    · rwa [view_eq_zero_negative_iff, view_eq_zero_negative_iff] at hviews
  · rintro ⟨rfl, rfl⟩
    rfl

theorem foldl_add_eq_neg_zero_iff {xs : List Float} {x : Float} :
    xs.foldl (· + ·) x = -0.0 ↔ x = -0.0 ∧ ∀ y ∈ xs, y = -0.0 := by
  induction xs generalizing x with
  | nil => simp
  | cons y xs ih => rw [List.foldl_cons, ih, add_eq_neg_zero_iff, List.forall_mem_cons, and_assoc]

/-- Finite floats of one value are the same if both or neither of them are the negative zero. -/
theorem eq_of_toReal_eq_of_neg_zero_iff (hx : x.isFinite = true) (hy : y.isFinite = true)
    (h : toReal x = toReal y) (hzero : x = -0.0 ↔ y = -0.0) : x = y := by
  rcases eq_or_ne (toReal y) 0 with h0 | h0
  · obtain ⟨s, hs⟩ := view_of_toReal_eq_zero hx (h.trans h0)
    obtain ⟨s', hs'⟩ := view_of_toReal_eq_zero hy h0
    rw [← view_eq_zero_negative_iff, ← view_eq_zero_negative_iff, hs, hs'] at hzero
    apply view_injective
    rw [hs, hs']
    cases s <;> cases s' <;> simp at hzero ⊢
  · exact eq_of_toReal_eq hx hy h h0

/-! ## Sums in any order -/

/-- The floats fit some unit. -/
def AddsExactly (xs : List Float) : Prop := ∃ e, FitsUnits e xs

theorem AddsExactly.perm {xs ys : List Float} (h : AddsExactly xs) (hp : xs.Perm ys) :
    AddsExactly ys := by
  obtain ⟨e, hlow, hhigh, hxs, hsum⟩ := h
  refine ⟨e, hlow, hhigh, fun y hy => hxs y (hp.mem_iff.2 hy), ?_⟩
  rwa [← (hp.map fun x => |toReal x|).sum_eq]

theorem AddsExactly.foldl_add {xs : List Float} (h : AddsExactly xs) :
    (xs.foldl (· + ·) (-0.0)).isFinite = true ∧
      toReal (xs.foldl (· + ·) (-0.0)) = (xs.map toReal).sum := by
  obtain ⟨e, hfits⟩ := h
  have hzero : toReal (-0.0) = 0 := rfl
  have hstart : IsMultiple e (-0.0) := ⟨rfl, 0, by rw [hzero, Int.cast_zero, zero_mul]⟩
  -- the sum starts from a zero, which fits any unit
  have hfits' : FitsUnits e (-0.0 :: xs) := by
    refine ⟨hfits.least_le, hfits.le_greatest, ?_, ?_⟩
    · exact List.forall_mem_cons.2 ⟨hstart, hfits.isMultiple⟩
    · rw [List.map_cons, List.sum_cons, hzero, abs_zero, zero_add]
      exact hfits.sum_le
  obtain ⟨hmultiple, hv⟩ := hfits'.foldl_add
  rw [hzero, zero_add] at hv
  exact ⟨hmultiple.isFinite, hv⟩

/-- An exact sum is the same float in any order, a zero having the same sign. -/
theorem AddsExactly.foldl_add_perm {xs ys : List Float} (h : AddsExactly xs) (hp : xs.Perm ys) :
    ys.foldl (· + ·) (-0.0) = xs.foldl (· + ·) (-0.0 : Float) := by
  obtain ⟨hfx, hvx⟩ := h.foldl_add
  obtain ⟨hfy, hvy⟩ := (h.perm hp).foldl_add
  refine eq_of_toReal_eq_of_neg_zero_iff hfy hfx ?_ ?_
  · rw [hvx, hvy, (hp.map toReal).sum_eq]
  · simp only [foldl_add_eq_neg_zero_iff, hp.mem_iff]

/-! ## Rounded sums -/

/-- The relative error of a sum is one roundoff at most, also for the least floats, whose sums
are exact. -/
theorem abs_add_sub_le (h : (x + y).isFinite = true) :
    |toReal (x + y) - (toReal x + toReal y)| ≤ roundoff * |toReal x + toReal y| := by
  obtain ⟨hx, hy⟩ := isFinite_of_add h
  rw [(isRounding_add hx hy).toReal_eq_of_isFinite h]
  rcases eq_or_ne (toReal x + toReal y) 0 with h0 | h0
  · rw [h0, nearest_zero, sub_zero, abs_zero, mul_zero]
  rcases lt_or_ge (-1074) (unitExponent (toReal x + toReal y)) with hlt | hle
  · have hhalf := abs_nearest_sub_le_unit (toReal x + toReal y)
    have hunit := unit_le_of_lt h0 hlt
    linarith
  · -- both terms are multiples of the least unit
    obtain ⟨-, m, hm⟩ := isMultiple_least hx
    obtain ⟨-, n, hn⟩ := isMultiple_least hy
    rw [hm, hn, ← add_mul, ← Int.cast_add] at hle ⊢
    rw [nearest_intCast_mul hle, sub_self, abs_zero]
    exact mul_nonneg roundoff_pos.le (abs_nonneg _)

theorem abs_toReal_add_le (h : (x + y).isFinite = true) :
    |toReal (x + y)| ≤ (1 + roundoff) * (|toReal x| + |toReal y|) := by
  have herror := abs_add_sub_le h
  have hexact := abs_add_le (toReal x) (toReal y)
  have htri := abs_sub_abs_le_abs_sub (toReal (x + y)) (toReal x + toReal y)
  have hscaled := mul_le_mul_of_nonneg_left hexact roundoff_pos.le
  linarith

/-- The start of a finite sum is finite. -/
theorem isFinite_of_foldl_add {xs : List Float} {x : Float}
    (h : (xs.foldl (· + ·) x).isFinite = true) : x.isFinite = true := by
  induction xs generalizing x with
  | nil => exact h
  | cons y xs ih => exact (isFinite_of_add (ih h)).1

/-- How much larger than the magnitudes of its terms the partial sums of so many terms may get. -/
noncomputable def growth (n : ℕ) : ℝ := (1 + roundoff) ^ n

theorem growth_succ (n : ℕ) : growth (n + 1) = growth n * (1 + roundoff) := pow_succ _ n

theorem one_le_growth (n : ℕ) : 1 ≤ growth n := one_le_pow₀ (by linarith [roundoff_pos])

/-- The error of a finite sum, relative to the magnitudes of its terms: one roundoff for each
addition. -/
theorem abs_foldl_add_sub_le {xs : List Float} {x : Float}
    (h : (xs.foldl (· + ·) x).isFinite = true) :
    |toReal (xs.foldl (· + ·) x) - (toReal x + (xs.map toReal).sum)| ≤
      (growth xs.length - 1) * (|toReal x| + (xs.map fun y => |toReal y|).sum) := by
  induction xs generalizing x with
  | nil => simp [growth]
  | cons y xs ih =>
    have hfinite : (x + y).isFinite = true := isFinite_of_foldl_add h
    have hstep := abs_add_sub_le hfinite
    have hsize := abs_toReal_add_le hfinite
    have hexact := mul_le_mul_of_nonneg_left (abs_add_le (toReal x) (toReal y)) roundoff_pos.le
    have hrest := sum_abs_toReal_nonneg xs
    have hgrowth := one_le_growth xs.length
    rw [List.foldl_cons, List.map_cons, List.map_cons, List.sum_cons, List.sum_cons,
      List.length_cons, growth_succ, ← add_assoc, ← add_assoc]
    -- the error of the first addition is carried along and grows with the others
    calc |toReal (xs.foldl (· + ·) (x + y)) - (toReal x + toReal y + (xs.map toReal).sum)|
        ≤ |toReal (xs.foldl (· + ·) (x + y)) - (toReal (x + y) + (xs.map toReal).sum)| +
            |toReal (x + y) - (toReal x + toReal y)| := by
          refine (abs_sub_le _ (toReal (x + y) + (xs.map toReal).sum) _).trans_eq ?_
          rw [add_sub_add_right_eq_sub]
      _ ≤ (growth xs.length - 1) *
              ((1 + roundoff) * (|toReal x| + |toReal y|) + (xs.map fun y => |toReal y|).sum) +
            roundoff * (|toReal x| + |toReal y|) := by
          refine add_le_add ((ih h).trans ?_) (hstep.trans hexact)
          exact mul_le_mul_of_nonneg_left (by linarith) (by linarith)
      _ ≤ (growth xs.length * (1 + roundoff) - 1) *
            (|toReal x| + |toReal y| + (xs.map fun y => |toReal y|).sum) := by
          have hscaled := mul_nonneg (mul_nonneg (zero_le_one.trans hgrowth) roundoff_pos.le) hrest
          nlinarith

/-- Magnitudes far enough from the overflow have a finite sum in any order. -/
theorem isFinite_foldl_add {xs : List Float} (hxs : ∀ y ∈ xs, y.isFinite = true) {x : Float}
    (hx : x.isFinite = true)
    (h : growth xs.length * (|toReal x| + (xs.map fun y => |toReal y|).sum) ≤ 2 ^ (1023 : ℤ)) :
    (xs.foldl (· + ·) x).isFinite = true := by
  induction xs generalizing x with
  | nil => exact hx
  | cons y xs ih =>
    have hrest := sum_abs_toReal_nonneg xs
    rw [List.length_cons, List.map_cons, List.sum_cons, ← add_assoc] at h
    have htotal : |toReal x| + |toReal y| + (xs.map fun y => |toReal y|).sum ≤ 2 ^ (1023 : ℤ) :=
      (le_mul_of_one_le_left (by positivity) (one_le_growth _)).trans h
    have hsize : |toReal x + toReal y| ≤ 2 ^ (1023 : ℤ) := by
      have := abs_add_le (toReal x) (toReal y)
      linarith
    obtain ⟨hfinite, -⟩ := (isRounding_add hx (hxs y List.mem_cons_self)).of_abs_le hsize
    refine ih (fun z hz => hxs z (List.mem_cons_of_mem y hz)) hfinite (le_trans ?_ h)
    rw [growth_succ, mul_assoc]
    refine mul_le_mul_of_nonneg_left ?_ (zero_le_one.trans (one_le_growth _))
    have := abs_toReal_add_le hfinite
    have := mul_nonneg roundoff_pos.le hrest
    linarith

/-- The floats are finite, and their magnitudes add up to a number far enough from the overflow that
no partial sum gets there, whatever the rounding errors. -/
structure AvoidsOverflow (xs : List Float) : Prop where
  isFinite : ∀ x ∈ xs, x.isFinite = true
  sum_le : growth xs.length * (xs.map fun x => |toReal x|).sum ≤ 2 ^ (1023 : ℤ)

/-- Up to `2 ^ 52` additions do not double the magnitudes. -/
theorem growth_le_two {n : ℕ} (hn : n ≤ 2 ^ 52) : growth n ≤ 2 := by
  have hstep : 1 + roundoff ≤ Real.exp roundoff := by
    rw [add_comm]
    exact Real.add_one_le_exp roundoff
  have hn' : (n : ℝ) ≤ 2 ^ 52 := by exact_mod_cast hn
  have hhalf : n * roundoff ≤ 1 / 2 :=
    calc n * roundoff ≤ 2 ^ 52 * roundoff := mul_le_mul_of_nonneg_right hn' roundoff_pos.le
      _ = 1 / 2 := by norm_num [roundoff]
  have hexp : Real.exp (1 / 2) ≤ 2 := by
    have hsq : Real.exp (1 / 2) * Real.exp (1 / 2) = Real.exp 1 := by
      rw [← Real.exp_add]
      norm_num
    nlinarith [Real.exp_one_lt_d9, Real.exp_pos (1 / 2)]
  calc growth n ≤ Real.exp roundoff ^ n :=
        pow_le_pow_left₀ (by linarith [roundoff_pos]) hstep n
    _ = Real.exp (n * roundoff) := (Real.exp_nat_mul roundoff n).symm
    _ ≤ Real.exp (1 / 2) := Real.exp_le_exp.2 hhalf
    _ ≤ 2 := hexp

/-- Half of the range is far enough from the overflow. -/
theorem avoidsOverflow_of_le {xs : List Float} (hfinite : ∀ x ∈ xs, x.isFinite = true)
    (hlength : xs.length ≤ 2 ^ 52) (hsum : (xs.map fun x => |toReal x|).sum ≤ 2 ^ (1022 : ℤ)) :
    AvoidsOverflow xs := by
  refine ⟨hfinite, ?_⟩
  calc growth xs.length * (xs.map fun x => |toReal x|).sum ≤ 2 * 2 ^ (1022 : ℤ) :=
        mul_le_mul (growth_le_two hlength) hsum (sum_abs_toReal_nonneg xs) (by norm_num)
    _ = 2 ^ (1023 : ℤ) := by
        rw [← zpow_one_add₀ two_ne_zero]
        norm_num

theorem AvoidsOverflow.perm {xs ys : List Float} (h : AvoidsOverflow xs) (hp : xs.Perm ys) :
    AvoidsOverflow ys := by
  refine ⟨fun y hy => h.isFinite y (hp.mem_iff.2 hy), ?_⟩
  rw [← hp.length_eq, ← (hp.map fun x => |toReal x|).sum_eq]
  exact h.sum_le

theorem AvoidsOverflow.isFinite_foldl_add {xs : List Float} (h : AvoidsOverflow xs) :
    (xs.foldl (· + ·) (-0.0)).isFinite = true := by
  have hzero : toReal (-0.0) = 0 := rfl
  refine Binary64.isFinite_foldl_add h.isFinite rfl ?_
  rw [hzero, abs_zero, zero_add]
  exact h.sum_le

/-! ## Sums that overflow -/

section Overflow

variable {xs : List Float} (hxs : ∀ y ∈ xs, y.isFinite = true)

include hxs

/-- A running sum of finite floats is never "not a number". It may leave the range, but the
infinity that it then is meets finite floats only. -/
theorem isNaN_foldl_add {x : Float} (hx : x.isNaN = false) :
    (xs.foldl (· + ·) x).isNaN = false := by
  induction xs generalizing x with
  | nil => exact hx
  | cons y xs ih =>
    obtain ⟨hy, hrest⟩ := List.forall_mem_cons.1 hxs
    exact ih hrest (isNaN_add_of_isFinite_right hx hy)

/-- A running sum that is infinite stays the same infinity, whatever finite floats follow. -/
theorem foldl_add_inf (s : SignBit) : xs.foldl (· + ·) (inf s) = inf s := by
  induction xs with
  | nil => rfl
  | cons y xs ih =>
    obtain ⟨hy, hrest⟩ := List.forall_mem_cons.1 hxs
    rw [List.foldl_cons, inf_add_finite hy]
    exact ih hrest

end Overflow

/-! ## Sums in two orders -/

/-- How far two sums of the floats agree, which were added up in different orders. Sums without
rounding are the same, bit by bit; far from the overflow both are finite; and finite sums differ by
the rounding errors of both. -/
structure SumsAgree (xs : List Float) (s' s : Float) : Prop where
  eq_of_exact : AddsExactly xs → s' = s
  isFinite_of_avoids : AvoidsOverflow xs → s'.isFinite = true ∧ s.isFinite = true
  close : s'.isFinite = true → s.isFinite = true →
    |toReal s' - toReal s| ≤ 2 * ((growth xs.length - 1) * (xs.map fun x => |toReal x|).sum)

/-- The error of a finite sum that starts from the neutral element. -/
theorem abs_sum_sub_le {xs : List Float} (h : (xs.foldl (· + ·) (-0.0)).isFinite = true) :
    |toReal (xs.foldl (· + ·) (-0.0)) - (xs.map toReal).sum| ≤
      (growth xs.length - 1) * (xs.map fun x => |toReal x|).sum := by
  have hzero : toReal (-0.0) = 0 := rfl
  simpa only [hzero, abs_zero, zero_add] using abs_foldl_add_sub_le h

/-- Sums of the same floats agree, whatever the order. -/
theorem sumsAgree_of_perm {xs ys : List Float} (hp : ys.Perm xs) :
    SumsAgree xs (ys.foldl (· + ·) (-0.0)) (xs.foldl (· + ·) (-0.0)) := by
  refine ⟨?_, ?_, ?_⟩
  · intro hexact
    exact hexact.foldl_add_perm hp.symm
  · intro havoids
    exact ⟨(havoids.perm hp.symm).isFinite_foldl_add, havoids.isFinite_foldl_add⟩
  · intro hfinite' hfinite
    have herror' := abs_sum_sub_le hfinite'
    have herror := abs_sum_sub_le hfinite
    rw [hp.length_eq, (hp.map toReal).sum_eq, (hp.map fun x => |toReal x|).sum_eq] at herror'
    -- both are close to the exact sum, which has no order
    have htri := abs_sub_le (toReal (ys.foldl (· + ·) (-0.0))) (xs.map toReal).sum
      (toReal (xs.foldl (· + ·) (-0.0)))
    rw [abs_sub_comm (xs.map toReal).sum] at htri
    linarith

end EquationRoots.Binary64
