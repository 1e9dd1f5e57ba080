import EquationRoots.Proofs.Binary64.SameValue

/-!
# The order of floats

Away from "not a number", floats are ordered like the extended real numbers that they stand for
(`toEReal`), so that their order is linear up to the two zeros. What `smaller` and `larger` choose
follows from it.

- `lt_iff_toEReal`, `le_iff_toEReal`: the order is that of the extended real numbers.
- `le_larger_iff`: a bound by the larger of two numbers is a bound by one of them, "not a number"
  included.
- `smaller_larger_cases`: the two choices together are the two numbers, if both are numbers or
  neither is.
-/

set_option autoImplicit false

namespace EquationRoots.Binary64

open Float (nan)
open Float.Model Float.Model.UnpackedFloat
open scoped Scalar

/-! ## Extended real numbers -/

/-- The extended real number of a float, and zero for "not a number". -/
noncomputable def toEReal (x : Float) : EReal :=
  match view x with
  | .infinity .positive => ⊤
  | .infinity .negative => ⊥
  | _ => (toReal x : EReal)

@[simp] theorem toEReal_inf_positive : toEReal (inf .positive) = ⊤ := by
  rw [toEReal, view_inf]

@[simp] theorem toEReal_inf_negative : toEReal (inf .negative) = ⊥ := by
  rw [toEReal, view_inf]

theorem toEReal_of_isFinite {x : Float} (hx : x.isFinite = true) : toEReal x = toReal x := by
  rw [toEReal]
  obtain ⟨s, hv⟩ | ⟨s, m, e, h, hv⟩ := view_of_isFinite hx <;> rw [hv]

section Order

variable {x y z : Float}

/-- The strict order of floats is that of the extended real numbers. -/
theorem lt_iff_toEReal (hx : x ≠ nan) (hy : y ≠ nan) : x < y ↔ toEReal x < toEReal y := by
  rcases eq_nan_or_eq_inf_or_isFinite x with rfl | ⟨s, rfl⟩ | hfx
  · exact absurd rfl hx
  · rcases eq_nan_or_eq_inf_or_isFinite y with rfl | ⟨t, rfl⟩ | hfy
    · exact absurd rfl hy
    · cases s with
      | negative => cases t with
        | negative => exact iff_of_false (by decide) (lt_irrefl _)
        | positive => exact iff_of_true (by decide) (by simp)
      | positive => exact iff_of_false (not_inf_lt _) (by simp)
    · rw [toEReal_of_isFinite hfy]
      cases s with
      | negative => exact iff_of_true (neg_inf_lt hfy) (by simp)
      | positive => exact iff_of_false (not_inf_lt y) (by simp)
  · rw [toEReal_of_isFinite hfx]
    rcases eq_nan_or_eq_inf_or_isFinite y with rfl | ⟨t, rfl⟩ | hfy
    · exact absurd rfl hy
    · cases t with
      | negative => exact iff_of_false (not_lt_of_lt (neg_inf_lt hfx)) (by simp)
      | positive => exact iff_of_true (lt_inf hfx) (by simp)
    · rw [toEReal_of_isFinite hfy, lt_iff hfx hfy, EReal.coe_lt_coe_iff]

theorem le_iff_compare (x y : Float) :
    x ≤ y ↔ (view x).compare (view y) = some .lt ∨ (view x).compare (view y) = some .eq := by
  rw [le_iff_view, UnpackedFloat.le]
  cases (view x).compare (view y) with
  | none => simp
  | some o => cases o <;> simp

theorem ne_nan_of_le (h : x ≤ y) : x ≠ nan ∧ y ≠ nan := by
  rw [← not_or, ← compare_eq_none_iff]
  intro hnone
  rw [le_iff_compare, hnone] at h
  simp at h

theorem le_iff_not_lt (hx : x ≠ nan) (hy : y ≠ nan) : x ≤ y ↔ ¬ y < x := by
  have hnone := mt (compare_eq_none_iff x y).1 (not_or.2 ⟨hx, hy⟩)
  rw [le_iff_compare, lt_iff_compare_gt]
  cases ho : (view x).compare (view y) with
  | none => exact absurd ho hnone
  | some o => cases o <;> simp

/-- The order of floats is that of the extended real numbers. -/
theorem le_iff_toEReal (hx : x ≠ nan) (hy : y ≠ nan) : x ≤ y ↔ toEReal x ≤ toEReal y := by
  rw [le_iff_not_lt hx hy, lt_iff_toEReal hy hx, not_lt]

protected theorem le_trans (h : x ≤ y) (h' : y ≤ z) : x ≤ z := by
  obtain ⟨hx, hy⟩ := ne_nan_of_le h
  obtain ⟨-, hz⟩ := ne_nan_of_le h'
  rw [le_iff_toEReal hx hy] at h
  rw [le_iff_toEReal hy hz] at h'
  exact (le_iff_toEReal hx hz).2 (h.trans h')

protected theorem le_of_lt (h : x < y) : x ≤ y := by
  obtain ⟨hx, hy⟩ := ne_nan_of_lt h
  exact (le_iff_not_lt hx hy).2 (not_lt_of_lt h)

/-! ## Choices by the order -/

theorem smaller_of_lt (h : y < x) : Scalar.smaller x y = y := if_pos (Or.inl h)

theorem smaller_of_not_lt (hx : x ≠ nan) (h : ¬ y < x) : Scalar.smaller x y = x :=
  if_neg (not_or.2 ⟨h, mt (isUndefined_iff x).1 hx⟩)

theorem larger_of_lt (h : x < y) : Scalar.larger x y = y := if_pos (Or.inl h)

theorem larger_of_not_lt (hx : x ≠ nan) (h : ¬ x < y) : Scalar.larger x y = x :=
  if_neg (not_or.2 ⟨h, mt (isUndefined_iff x).1 hx⟩)

@[simp] theorem smaller_nan_left (y : Float) : Scalar.smaller nan y = y :=
  if_pos (Or.inr ((isUndefined_iff nan).2 rfl))

@[simp] theorem larger_nan_left (y : Float) : Scalar.larger nan y = y :=
  if_pos (Or.inr ((isUndefined_iff nan).2 rfl))

/-- A number within the larger of two bounds is within one of them. A bound that is "not a
number" bounds nothing, and the other one is the larger. -/
theorem le_larger_iff (x y z : Float) : x ≤ Scalar.larger y z ↔ x ≤ y ∨ x ≤ z := by
  by_cases hy : y = nan
  · subst hy
    rw [larger_nan_left, or_iff_right fun h => (ne_nan_of_le h).2 rfl]
  by_cases hlt : y < z
  · rw [larger_of_lt hlt, or_iff_right_of_imp fun h => Binary64.le_trans h (Binary64.le_of_lt hlt)]
  · rw [larger_of_not_lt hy hlt, or_iff_left_of_imp]
    intro h
    exact Binary64.le_trans h ((le_iff_not_lt (ne_nan_of_le h).2 hy).2 hlt)

/-- Two numbers in order are the two numbers. Where just one of them were "not a number", the
other one would be chosen twice. -/
theorem smaller_larger_cases (h : x = nan ↔ y = nan) :
    SameValue (Scalar.smaller x y) x ∧ SameValue (Scalar.larger x y) y ∨
      SameValue (Scalar.smaller x y) y ∧ SameValue (Scalar.larger x y) x := by
  by_cases hx : x = nan
  · rw [hx, h.1 hx, smaller_nan_left, larger_nan_left]
    exact Or.inl ⟨.refl nan, .refl nan⟩
  · by_cases hyx : y < x
    · rw [smaller_of_lt hyx, larger_of_not_lt hx (not_lt_of_lt hyx)]
      exact Or.inr ⟨.refl y, .refl x⟩
    · rw [smaller_of_not_lt hx hyx]
      by_cases hxy : x < y
      · rw [larger_of_lt hxy]
        exact Or.inl ⟨.refl x, .refl y⟩
      · rw [larger_of_not_lt hx hxy]
        exact Or.inl ⟨.refl x, sameValue_of_not_lt hx (mt h.2 hx) hxy hyx⟩

/-- The smaller of two numbers is not above the larger one. -/
theorem smaller_le_larger (hx : x ≠ nan) (hy : y ≠ nan) :
    Scalar.smaller x y ≤ Scalar.larger x y := by
  rw [le_larger_iff]
  by_cases hyx : y < x
  · rw [smaller_of_lt hyx]
    exact Or.inl (Binary64.le_of_lt hyx)
  · rw [smaller_of_not_lt hx hyx]
    exact Or.inr ((le_iff_not_lt hx hy).2 hyx)

end Order

end EquationRoots.Binary64
