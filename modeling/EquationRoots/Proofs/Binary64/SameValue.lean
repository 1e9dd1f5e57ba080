import EquationRoots.Proofs.Binary64.Scalars

/-!
# Floats that are the same number

The two zeros are one number, and "not a number" matches itself. All other floats are different
(`sameValue_iff`), so that a function respects this equality as soon as it sends both zeros to one
number (`SameValue.map`). Every operation does, except division in the divisor.
-/

set_option autoImplicit false

namespace EquationRoots.Binary64

open Float (nan)
open Float.Model Float.Model.UnpackedFloat
open scoped Scalar

/-! ## Equality of numbers -/

/-- The float is a zero of either sign. -/
def IsZero (x : Float) : Prop := ∃ s, view x = .zero s

/-- The floats are equal, zeros of either sign being so, or both are "not a number". -/
def SameValue (x y : Float) : Prop := (x == y) = true ∨ x.isNaN = true ∧ y.isNaN = true

instance (x y : Float) : Decidable (SameValue x y) :=
  inferInstanceAs (Decidable ((x == y) = true ∨ x.isNaN = true ∧ y.isNaN = true))

theorem beq_iff_compare (x y : Float) :
    (x == y) = true ↔ (view x).compare (view y) = some .eq := by
  show (view x).beq (view y) = true ↔ _
  rw [UnpackedFloat.beq, beq_iff_eq]

/-- Floats that compare as equal have one view or are zeros. -/
theorem view_eq_or_isZero {x y : Float} (h : (view x).compare (view y) = some .eq) :
    view x = view y ∨ IsZero x ∧ IsZero y := by
  cases hx : view x with
  | notANumber => rw [hx] at h; cases h
  | infinity s =>
    cases hy : view y with
    | infinity s' =>
      rw [hx, hy] at h
      cases s <;> cases s' <;> first | exact Or.inl rfl | cases h
    | _ => rw [hx, hy] at h; cases s <;> cases h
  | zero s =>
    cases hy : view y with
    | zero s' => exact Or.inr ⟨⟨s, hx⟩, ⟨s', hy⟩⟩
    | infinity s' | finite s' m e hm => rw [hx, hy] at h; cases s' <;> cases h
    | notANumber => rw [hx, hy] at h; cases h
  | finite s m e hm =>
    cases hy : view y with
    | finite s' m' e' hm' =>
      rw [hx, hy] at h
      -- floats of one sign are equal only if exponents and mantissas are
      cases s <;> cases s' <;>
        simp [UnpackedFloat.compare, Ordering.then_eq_eq, Ordering.swap_eq_eq] at h <;>
        simp [h]
    | zero s' => rw [hx, hy] at h; cases s <;> cases h
    | infinity s' => rw [hx, hy] at h; cases s' <;> cases h
    | notANumber => rw [hx, hy] at h; cases s <;> cases h

/-- Exchanging the operands of a comparison turns its result around. -/
theorem compare_swap (u v : UnpackedFloat) : v.compare u = (u.compare v).map Ordering.swap := by
  cases u with
  | notANumber => cases v with
    | infinity s | finite s m e h => cases s <;> rfl
    | _ => rfl
  | infinity s => cases v with
    | infinity s' | finite s' m e h => cases s <;> cases s' <;> rfl
    | _ => cases s <;> rfl
  | zero s => cases v with
    | infinity s' | finite s' m e h => cases s' <;> rfl
    | _ => rfl
  | finite s m e h => cases v with
    | finite s' m' e' h' =>
      -- exponents and then mantissas are compared, which turns around as a whole
      have hswap : (compare e' e).then (compare m' m) =
          ((compare e e').then (compare m m')).swap := by
        rw [Ordering.swap_then, Int.compare_swap, Nat.compare_swap]
      cases s <;> cases s' <;> simp [UnpackedFloat.compare, hswap]
    | infinity s' => cases s <;> cases s' <;> rfl
    | _ => cases s <;> rfl

theorem compare_view_self {x : Float} (h : x.isNaN = false) :
    (view x).compare (view x) = some .eq := by
  rw [isNaN_eq] at h
  cases hx : view x with
  | notANumber => rw [hx] at h; cases h
  | infinity s => cases s <;> rfl
  | finite s m e hm => cases s <;> simp [UnpackedFloat.compare]
  | zero s => rfl

/-- Only the two zeros are different floats of the same number. -/
theorem sameValue_iff {x y : Float} : SameValue x y ↔ x = y ∨ IsZero x ∧ IsZero y := by
  constructor
  · rintro (h | ⟨hx, hy⟩)
    · rw [beq_iff_compare] at h
      exact (view_eq_or_isZero h).imp_left view_injective
    · rw [eq_nan hx, eq_nan hy]
      exact Or.inl rfl
  · rintro (rfl | ⟨⟨s, hx⟩, s', hy⟩)
    · cases h : x.isNaN with
      | true => exact Or.inr ⟨h, h⟩
      | false => exact Or.inl ((beq_iff_compare x x).2 (compare_view_self h))
    · refine Or.inl ((beq_iff_compare x y).2 ?_)
      rw [hx, hy]
      rfl

/-- Finite floats of the same value other than zero are the same. -/
theorem eq_of_toReal_eq {x y : Float} (hx : x.isFinite = true) (hy : y.isFinite = true)
    (h : toReal x = toReal y) (h0 : toReal y ≠ 0) : x = y := by
  have hsame : SameValue x y := Or.inl ((beq_iff hx hy).2 h)
  rcases sameValue_iff.1 hsame with heq | ⟨-, s, hs⟩
  · exact heq
  · rw [toReal, hs] at h0
    exact absurd rfl h0

namespace SameValue

variable {x y z x' y' : Float}

theorem of_isZero (hx : IsZero x) (hy : IsZero y) : SameValue x y :=
  sameValue_iff.2 (Or.inr ⟨hx, hy⟩)

@[refl] theorem refl (x : Float) : SameValue x x := sameValue_iff.2 (Or.inl rfl)

theorem of_eq (h : x = y) : SameValue x y := h ▸ refl x

@[symm] theorem symm (h : SameValue x y) : SameValue y x :=
  sameValue_iff.2 ((sameValue_iff.1 h).imp Eq.symm And.symm)

@[trans] theorem trans (h : SameValue x y) (h' : SameValue y z) : SameValue x z := by
  obtain rfl | ⟨hx, hy⟩ := sameValue_iff.1 h
  · exact h'
  · obtain rfl | ⟨-, hz⟩ := sameValue_iff.1 h'
    · exact h
    · exact of_isZero hx hz

/-- A float that is the same number as one other than zero is that float. -/
theorem eq_of_not_isZero (h : SameValue x y) (hy : ¬ IsZero y) : x = y :=
  (sameValue_iff.1 h).resolve_right fun hzero => hy hzero.2

/-- A function that sends both zeros to one number respects the equality of numbers. -/
theorem map {f : Float → Float} (hf : ∀ x y, IsZero x → IsZero y → SameValue (f x) (f y))
    (h : SameValue x y) : SameValue (f x) (f y) := by
  obtain rfl | ⟨hx, hy⟩ := sameValue_iff.1 h
  · exact refl (f x)
  · exact hf x y hx hy

end SameValue

/-! ## Operations on equal numbers -/

theorem isZero_pack_zero (s : SignBit) : IsZero (.ofModel (.pack (.zero s))) :=
  ⟨s, view_ofModel_pack_of_fits trivial trivial⟩

/-- Results that are zeros are stored as the same number. -/
theorem sameValue_pack_zero (s s' : SignBit) :
    SameValue (.ofModel (.pack (.zero s))) (.ofModel (.pack (.zero s'))) :=
  .of_isZero (isZero_pack_zero s) (isZero_pack_zero s')

namespace SameValue

variable {x y x' y' : Float}

theorem neg (h : SameValue x y) : SameValue (-x) (-y) := by
  refine map (f := fun z => -z) ?_ h
  rintro a b ⟨s, ha⟩ ⟨s', hb⟩
  exact of_isZero ⟨-s, by rw [view_neg, ha]; rfl⟩ ⟨-s', by rw [view_neg, hb]; rfl⟩

theorem abs (h : SameValue x y) : SameValue x.abs y.abs := by
  refine map (f := Float.abs) ?_ h
  rintro a b ⟨s, ha⟩ ⟨s', hb⟩
  exact of_isZero ⟨.positive, by rw [view_abs, ha]; rfl⟩ ⟨.positive, by rw [view_abs, hb]; rfl⟩

theorem sqrt (h : SameValue x y) : SameValue x.sqrt y.sqrt := by
  refine map (f := Float.sqrt) ?_ h
  rintro a b ⟨s, ha⟩ ⟨s', hb⟩
  rw [sqrt_eq, sqrt_eq, ha, hb]
  exact sameValue_pack_zero s s'

theorem add_right (h : SameValue x x') (y : Float) : SameValue (x + y) (x' + y) := by
  refine map (f := fun z => z + y) ?_ h
  rintro a b ⟨s, ha⟩ ⟨s', hb⟩
  simp only [add_eq, ha, hb]
  cases view y with
  | zero t => cases s <;> cases s' <;> cases t <;> exact sameValue_pack_zero _ _
  | _ => exact refl _

theorem add_left (x : Float) (h : SameValue y y') : SameValue (x + y) (x + y') := by
  refine map (f := fun z => x + z) ?_ h
  rintro a b ⟨s, ha⟩ ⟨s', hb⟩
  simp only [add_eq, ha, hb]
  cases view x with
  | zero t => cases s <;> cases s' <;> cases t <;> exact sameValue_pack_zero _ _
  | _ => exact refl _

theorem add (h : SameValue x x') (h' : SameValue y y') : SameValue (x + y) (x' + y') :=
  (h.add_right y).trans (add_left x' h')

theorem sub (h : SameValue x x') (h' : SameValue y y') : SameValue (x - y) (x' - y') := by
  rw [sub_eq_add, sub_eq_add]
  exact h.add h'.neg

theorem mul_right (h : SameValue x x') (y : Float) : SameValue (x * y) (x' * y) := by
  refine map (f := fun z => z * y) ?_ h
  rintro a b ⟨s, ha⟩ ⟨s', hb⟩
  simp only [mul_eq, ha, hb]
  cases view y with
  | zero t | finite t m e hm => exact sameValue_pack_zero _ _
  | _ => exact refl _

theorem mul (h : SameValue x x') (h' : SameValue y y') : SameValue (x * y) (x' * y') := by
  refine (h.mul_right y).trans ?_
  rw [Binary64.mul_comm x' y, Binary64.mul_comm x' y']
  exact h'.mul_right x'

/-- Division respects the number that is divided. -/
theorem div_right (h : SameValue x x') (y : Float) : SameValue (x / y) (x' / y) := by
  refine map (f := fun z => z / y) ?_ h
  rintro a b ⟨s, ha⟩ ⟨s', hb⟩
  simp only [div_eq, ha, hb]
  cases view y with
  | infinity t | finite t m e hm => exact sameValue_pack_zero _ _
  | _ => exact refl _

/-! ### Tests -/

theorem isFinite_eq (h : SameValue x y) : x.isFinite = y.isFinite := by
  obtain rfl | ⟨⟨s, hx⟩, s', hy⟩ := sameValue_iff.1 h
  · rfl
  · rw [Binary64.isFinite_eq, Binary64.isFinite_eq, hx, hy]
    rfl

/-- Equal numbers compare alike. -/
theorem compare_eq (h : SameValue x x') (h' : SameValue y y') :
    (view x).compare (view y) = (view x').compare (view y') := by
  have hright {a b : Float} (hab : SameValue a b) (u : UnpackedFloat) :
      (view a).compare u = (view b).compare u := by
    obtain rfl | ⟨⟨s, ha⟩, s', hb⟩ := sameValue_iff.1 hab
    · rfl
    · rw [ha, hb]
      cases u with
      | infinity t | finite t m e hm => cases t <;> rfl
      | _ => rfl
  rw [hright h, compare_swap (view y), hright h', ← compare_swap]

theorem lt_iff (h : SameValue x x') (h' : SameValue y y') : x < y ↔ x' < y' := by
  rw [lt_iff_view, lt_iff_view, UnpackedFloat.lt, UnpackedFloat.lt, compare_eq h h']

theorem le_iff (h : SameValue x x') (h' : SameValue y y') : x ≤ y ↔ x' ≤ y' := by
  rw [le_iff_view, le_iff_view, UnpackedFloat.le, UnpackedFloat.le, compare_eq h h']

theorem beq_eq (h : SameValue x x') (h' : SameValue y y') : (x == y) = (x' == y') := by
  rw [Bool.eq_iff_iff, beq_iff_compare, beq_iff_compare, compare_eq h h']

theorem isUndefined_eq (h : SameValue x x') : Scalar.isUndefined x = Scalar.isUndefined x' :=
  congrArg (! ·) (h.beq_eq h)

/-! ### Choices by the order -/

theorem ite {P P' : Prop} [Decidable P] [Decidable P'] (hP : P ↔ P') (h : SameValue x x')
    (h' : SameValue y y') : SameValue (if P then x else y) (if P' then x' else y') := by
  by_cases hp : P
  · rwa [if_pos hp, if_pos (hP.1 hp)]
  · rwa [if_neg hp, if_neg (mt hP.2 hp)]

theorem smaller (h : SameValue x x') (h' : SameValue y y') :
    SameValue (Scalar.smaller x y) (Scalar.smaller x' y') :=
  ite (by rw [h'.lt_iff h, h.isUndefined_eq]) h' h

theorem larger (h : SameValue x x') (h' : SameValue y y') :
    SameValue (Scalar.larger x y) (Scalar.larger x' y') :=
  ite (by rw [h.lt_iff h', h.isUndefined_eq]) h' h

theorem clamp (low high : Float) (h : SameValue x x') :
    SameValue (Scalar.clamp low high x) (Scalar.clamp low high x') :=
  ite (h.lt_iff (refl low)) (refl low) (ite ((refl high).lt_iff h) (refl high) h)

end SameValue

/-! ## The order of numbers -/

theorem lt_iff_compare (x y : Float) : x < y ↔ (view x).compare (view y) = some .lt := by
  rw [lt_iff_view, UnpackedFloat.lt, beq_iff_eq]

theorem lt_iff_compare_gt (x y : Float) : y < x ↔ (view x).compare (view y) = some .gt := by
  rw [lt_iff_compare, compare_swap (view x)]
  cases (view x).compare (view y) with
  | none => simp
  | some o => cases o <;> simp

theorem not_lt_of_lt {x y : Float} (h : x < y) : ¬ y < x := by
  rw [lt_iff_compare] at h
  rw [lt_iff_compare_gt, h]
  simp

theorem view_eq_notANumber_iff (x : Float) : view x = .notANumber ↔ x = nan := by
  rw [← view_nan]
  exact ⟨view_injective, congrArg view⟩

/-- Exactly "not a number" does not compare. -/
theorem compare_eq_none_iff (x y : Float) :
    (view x).compare (view y) = none ↔ x = nan ∨ y = nan := by
  rw [← view_eq_notANumber_iff, ← view_eq_notANumber_iff]
  cases view x with
  | notANumber => simp [UnpackedFloat.compare]
  | zero s => cases view y with
    | infinity s' | finite s' m e h => cases s' <;> simp [UnpackedFloat.compare]
    | _ => simp [UnpackedFloat.compare]
  | infinity s | finite s m e h => cases view y with
    | infinity s' | finite s' m' e' h' => cases s <;> cases s' <;> simp [UnpackedFloat.compare]
    | _ => cases s <;> simp [UnpackedFloat.compare]

theorem ne_nan_of_lt {x y : Float} (h : x < y) : x ≠ nan ∧ y ≠ nan := by
  rw [lt_iff_compare] at h
  rw [← not_or, ← compare_eq_none_iff, h]
  simp

/-- Numbers of which neither is smaller than the other are equal. -/
theorem sameValue_of_not_lt {x y : Float} (hx : x ≠ nan) (hy : y ≠ nan) (h : ¬ x < y)
    (h' : ¬ y < x) : SameValue x y := by
  rw [lt_iff_compare] at h
  rw [lt_iff_compare_gt] at h'
  have hnone := mt (compare_eq_none_iff x y).1 (not_or.2 ⟨hx, hy⟩)
  refine Or.inl ((beq_iff_compare x y).2 ?_)
  cases ho : (view x).compare (view y) with
  | none => exact absurd ho hnone
  | some o =>
    cases o with
    | lt => exact absurd ho h
    | eq => rfl
    | gt => exact absurd ho h'

theorem isUndefined_iff (x : Float) : Scalar.isUndefined x = true ↔ x = nan := by
  constructor
  · intro h
    by_contra hx
    have hself := (beq_iff_compare x x).2 (compare_view_self (by simpa using hx))
    rw [Scalar.isUndefined, hself] at h
    cases h
  · rintro rfl
    rfl

/-- Where the other number is preferred to "not a number", a choice between two numbers by their
order does not depend on which of them comes first. -/
theorem sameValue_choice {r : Float → Float → Prop} [DecidableRel r] {x y : Float}
    (hasymm : r y x → ¬ r x y) (hx : r x y → x ≠ nan) (hy : r y x → y ≠ nan)
    (heq : x ≠ nan → y ≠ nan → ¬ r x y → ¬ r y x → SameValue x y) :
    SameValue (if r y x ∨ Scalar.isUndefined x = true then y else x)
      (if r x y ∨ Scalar.isUndefined y = true then x else y) := by
  simp only [isUndefined_iff]
  by_cases hyx : r y x
  · rw [if_pos (Or.inl hyx), if_neg (not_or.2 ⟨hasymm hyx, hy hyx⟩)]
  · by_cases hxy : r x y
    · rw [if_neg (not_or.2 ⟨hyx, hx hxy⟩), if_pos (Or.inl hxy)]
    · simp only [hyx, hxy, false_or]
      by_cases hxn : x = nan
      · by_cases hyn : y = nan
        · rw [hxn, hyn]
        · rw [if_pos hxn, if_neg hyn]
      · by_cases hyn : y = nan
        · rw [if_neg hxn, if_pos hyn]
        · rw [if_neg hxn, if_neg hyn]
          exact heq hxn hyn hxy hyx

/-- Which operand of `smaller` comes first matters for the sign of a zero alone. -/
theorem smaller_comm (x y : Float) : SameValue (Scalar.smaller x y) (Scalar.smaller y x) :=
  sameValue_choice (r := fun a b => a < b) not_lt_of_lt (fun h => (ne_nan_of_lt h).1)
    (fun h => (ne_nan_of_lt h).1) sameValue_of_not_lt

/-- Which operand of `larger` comes first matters for the sign of a zero alone. -/
theorem larger_comm (x y : Float) : SameValue (Scalar.larger x y) (Scalar.larger y x) :=
  sameValue_choice (r := fun a b => b < a) not_lt_of_lt (fun h => (ne_nan_of_lt h).2)
    (fun h => (ne_nan_of_lt h).2) fun hx hy h h' => sameValue_of_not_lt hx hy h' h

end EquationRoots.Binary64
