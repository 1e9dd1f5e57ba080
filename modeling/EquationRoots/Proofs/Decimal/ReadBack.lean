import EquationRoots.Decimal.Layout
import EquationRoots.Proofs.Binary64.Literals
import EquationRoots.Proofs.Binary64.SameValue

/-!
# Decimals read back

A finite float without a sign is written as a decimal that reads back as the same float, bit by bit.
The search for a short decimal tests each candidate by reading it. What is left to show is that the
exact expansion, which is taken when no candidate passes, reads back as well: it has the very value
of the float, and a float is the nearest one to its own value.

- `toReal_ofFloat`: the dyadic number read off the bits has the value of the float.
- `toReal_exact`: the exact expansion has the value of the dyadic number.
- `isSigned_toFloat`: the float of a literal has no sign.
- `toFloat_shortest`: the shortest decimal reads back as the float.
- `exists_literal_write_plain`: the plain layout writes it as such a literal.
-/

set_option autoImplicit false

namespace EquationRoots

open Binary64
open Float.Model

/-! ## Values -/

/-- A whole number times a power of the base. -/
noncomputable def scaled (base mantissa : ℕ) (exponent : ℤ) : ℝ := mantissa * (base : ℝ) ^ exponent

/-- The exact value of a dyadic number. -/
noncomputable def Dyadic.toReal (v : Dyadic) : ℝ := scaled 2 v.mantissa v.exponent

/-- The exact value of a decimal. -/
noncomputable def Decimal.toReal (n : Decimal) : ℝ := scaled 10 n.digits n.exponent

theorem Dyadic.toReal_eq (v : Dyadic) : v.toReal = v.mantissa * 2 ^ v.exponent := by
  simp [toReal, scaled]

theorem Decimal.toReal_eq (n : Decimal) : n.toReal = n.digits * 10 ^ n.exponent := by
  simp [toReal, scaled]

namespace Decimal

/-- Writing a decimal out keeps its value. -/
theorem toReal_literal (n : Decimal) : n.literal.toReal = n.toReal := by
  obtain ⟨digits, exponent⟩ := n
  obtain ⟨k, rfl | rfl⟩ := exponent.eq_nat_or_neg
  · have hplaces : (-(k : ℤ)).toNat = 0 := by omega
    simp [literal, Literal.toReal, toReal_eq, hplaces]
  · have hzeros : (-(k : ℤ)).toNat = 0 := by omega
    simp [literal, Literal.toReal, toReal_eq, hzeros, div_eq_mul_inv]

/-- A text is what stands before the zeros at its end, and those zeros. -/
theorem eq_append_trailing_zeros (text : Text) :
    text = (text.reverse.dropWhile (· == '0')).reverse ++
      List.replicate (text.reverse.takeWhile (· == '0')).length '0' := by
  have hzeros : ∀ c ∈ text.reverse.takeWhile (· == '0'), c = '0' := by
    intro c hc
    have hzero := List.mem_takeWhile_imp (p := (· == '0')) hc
    exact beq_iff_eq.1 hzero
  calc text = (text.reverse.takeWhile (· == '0') ++ text.reverse.dropWhile (· == '0')).reverse := by
        rw [List.takeWhile_append_dropWhile, List.reverse_reverse]
    _ = _ := by
        rw [List.reverse_append, List.eq_replicate_of_mem hzeros, List.reverse_replicate,
          List.length_replicate]

/-- The zeros at the end of the digits of a number divide it as a power of ten. -/
theorem pow_dvd_of_trailing_zeros (n : ℕ) :
    10 ^ ((Nat.toDigits 10 n).reverse.takeWhile (· == '0')).length ∣ n := by
  refine ⟨Nat.ofDigitChars 10 ((Nat.toDigits 10 n).reverse.dropWhile (· == '0')).reverse 0, ?_⟩
  calc n = Nat.ofDigitChars 10 (Nat.toDigits 10 n) 0 := Nat.ofDigitChars_ten_toDigits.symm
    _ = _ := by
        rw [eq_append_trailing_zeros (Nat.toDigits 10 n), Nat.ofDigitChars_append,
          Nat.ofDigitChars_replicate_zero, ← eq_append_trailing_zeros]

/-- Trimming keeps the value. -/
theorem toReal_trimmed (n : Decimal) : n.trimmed.toReal = n.toReal := by
  obtain ⟨digits, exponent⟩ := n
  obtain ⟨front, hfront⟩ := pow_dvd_of_trailing_zeros digits
  simp only [trimmed, toReal_eq]
  generalize ((Nat.toDigits 10 digits).reverse.takeWhile (· == '0')).length = zeros at *
  have hpos : 0 < 10 ^ zeros := Nat.pow_pos (by decide)
  have hquotient : digits / Nat.pow 10 zeros = front := by
    rw [hfront]
    exact Nat.mul_div_cancel_left front hpos
  rw [hquotient, hfront, zpow_add₀ (by norm_num), zpow_natCast]
  push_cast
  ring

/-- The exact expansion of a dyadic number has its value. -/
theorem toReal_exact (v : Dyadic) : (exact v).toReal = v.toReal := by
  obtain ⟨mantissa, exponent⟩ := v
  rw [exact, toReal_trimmed]
  obtain ⟨k, rfl | rfl⟩ := exponent.eq_nat_or_neg
  · have hfives : (-(k : ℤ)).toNat = 0 := by omega
    simp [toReal_eq, Dyadic.toReal_eq, Dyadic.numerator, hfives, Nat.shiftLeft_eq]
  · have htwos : (-(k : ℤ)).toNat = 0 := by omega
    -- a power of ten in the denominator is cancelled by as many fives
    have hten : (10 : ℝ) ^ k = 5 ^ k * 2 ^ k := by
      rw [← mul_pow]
      norm_num
    simp [toReal_eq, Dyadic.toReal_eq, Dyadic.numerator, htwos, hten]
    field_simp

end Decimal

/-! ## The bits of a float -/

/-- A float whose sign bit is clear shows the positive sign with the two fields of its bits. -/
theorem exists_fields_of_not_isSigned {x : Float} (h : Layout.isSigned x = false) :
    ∃ (e : BitVec 11) (m : BitVec 52), view x = ofFields .positive e m ∧
      x.toBits.toNat = e.toNat * 2 ^ 52 + m.toNat := by
  obtain ⟨s, e, m, hview, hfields⟩ := exists_fields x.toModel
  have hbits : x.toBits.toNat = s.toBitVec.toNat * 2 ^ 63 + e.toNat * 2 ^ 52 + m.toNat := hfields
  cases s with
  | positive =>
    have hzero : (UnpackedFloat.Sign.positive.toBitVec).toNat = 0 := rfl
    rw [hzero, Nat.zero_mul, Nat.zero_add] at hbits
    exact ⟨e, m, hview, hbits⟩
  | negative =>
    have hone : (UnpackedFloat.Sign.negative.toBitVec).toNat = 1 := rfl
    have hlow : x.toBits.toNat < 2 ^ 63 := by
      have hnot := of_decide_eq_false h
      simpa [Nat.one_shiftLeft] using hnot
    rw [hone] at hbits
    omega

/-- The absolute value leaves a float without a sign as it is. -/
theorem abs_of_not_isSigned {x : Float} (h : Layout.isSigned x = false) : x.abs = x := by
  obtain ⟨e, m, hview, -⟩ := exists_fields_of_not_isSigned h
  apply view_injective
  rw [view_abs, hview, ofFields]
  split_ifs <;> rfl

/-- A number that is its own absolute value has no sign. -/
theorem not_isSigned_of_abs_eq {x : Float} (hx : x.isNaN = false) (h : x.abs = x) :
    Layout.isSigned x = false := by
  obtain ⟨s, e, m, hview, hfields⟩ := exists_fields x.toModel
  have hbits : x.toBits.toNat = s.toBitVec.toNat * 2 ^ 63 + e.toNat * 2 ^ 52 + m.toNat := hfields
  have hview' : view x = ofFields s e m := hview
  cases s with
  | positive =>
    have hzero : (UnpackedFloat.Sign.positive.toBitVec).toNat = 0 := rfl
    have he := e.isLt
    have hm := m.isLt
    apply decide_eq_false
    rw [hbits, hzero, Nat.one_shiftLeft]
    omega
  | negative =>
    have habs := congrArg view h
    rw [view_abs, hview'] at habs
    rw [isNaN_eq, hview'] at hx
    revert habs hx
    unfold ofFields
    split_ifs <;> simp [UnpackedFloat.abs, UnpackedFloat.isNaN]

/-- Finite floats without a sign are the same if they have the same value. -/
theorem eq_of_toReal_eq_of_not_isSigned {x y : Float} (hx : x.isFinite = true)
    (hy : y.isFinite = true) (hx' : Layout.isSigned x = false) (hy' : Layout.isSigned y = false)
    (h : Binary64.toReal x = Binary64.toReal y) : x = y := by
  by_cases h0 : Binary64.toReal y = 0
  · -- a zero without a sign is the positive one
    obtain ⟨s, hs⟩ := view_of_toReal_eq_zero hx (h.trans h0)
    obtain ⟨s', hs'⟩ := view_of_toReal_eq_zero hy h0
    rw [← abs_of_not_isSigned hx', ← abs_of_not_isSigned hy']
    apply view_injective
    rw [view_abs, view_abs, hs, hs']
    rfl
  · exact eq_of_toReal_eq hx hy h h0

/-- The dyadic number read off the bits of a float has its value. -/
theorem toReal_ofFloat {x : Float} (hf : x.isFinite = true) (h : Layout.isSigned x = false) :
    (Dyadic.ofFloat x).toReal = Binary64.toReal x := by
  obtain ⟨e, m, hview, hbits⟩ := exists_fields_of_not_isSigned h
  have hfield : x.toBits.toNat / 2 ^ 52 % 2048 = e.toNat := by omega
  have hfraction : x.toBits.toNat % 2 ^ 52 = m.toNat := by omega
  have hfinite : e.toNat ≠ 2047 := by
    intro he
    rw [isFinite_eq, hview, ofFields, if_pos he] at hf
    split_ifs at hf <;> cases hf
  simp only [Dyadic.ofFloat, Nat.one_shiftLeft, hfield, hfraction, Binary64.toReal, hview, ofFields,
    if_neg hfinite]
  -- zeros and subnormal floats have the least exponent, normal ones a hidden bit
  by_cases he : e.toNat = 0
  · by_cases hm : m.toNat = 0
    · simp [he, hm, Dyadic.toReal_eq, realOf]
    · simp [he, hm, Dyadic.toReal_eq, realOf_finite, signFactor]
  · simp [he, Dyadic.toReal_eq, realOf_finite, signFactor]

/-! ## The sign of a literal's float -/

theorem abs_overflowed (u : UnpackedFloat) : (overflowed u).abs = overflowed u.abs := by
  cases u with
  | finite s m e h =>
    by_cases he : e ≤ 971 <;> simp [overflowed, UnpackedFloat.abs, he]
  | _ => rfl

theorem abs_roundWithAccuracy (m : ℕ) (e : ℤ) (accuracy : UnpackedFloat.Accuracy) :
    (UnpackedFloat.roundWithAccuracy Format.binary64 .positive m e
      accuracy).abs =
      UnpackedFloat.roundWithAccuracy Format.binary64 .positive m e
        accuracy := by
  unfold UnpackedFloat.roundWithAccuracy
  simp only
  split <;> rfl

theorem abs_ofScientific (m : ℕ) (e : ℤ) :
    (UnpackedFloat.ofScientific Format.binary64 m e).abs =
      UnpackedFloat.ofScientific Format.binary64 m e := by
  unfold UnpackedFloat.ofScientific
  split_ifs
  · rfl
  · rfl
  · rfl
  · exact abs_roundWithAccuracy _ _ _
  · exact abs_roundWithAccuracy _ _ _

/-- The float of a literal has no sign. -/
theorem isSigned_toFloat (l : Literal) : Layout.isSigned l.toFloat = false := by
  have hnearest := isNearest_ofScientific l.mantissa l.places
  have hview : view l.toFloat = overflowed (UnpackedFloat.ofScientific
      Format.binary64 l.mantissa (-(l.places : ℤ))) := view_ofModel_pack hnearest.1
  apply not_isSigned_of_abs_eq (isRounding_toFloat l).isNaN
  apply view_injective
  rw [view_abs, hview, abs_overflowed, abs_ofScientific]

/-! ## Reading back -/

/-- A literal with the value of a finite float other than zero reads back as the float. -/
theorem toFloat_of_toReal_eq {l : Literal} {x : Float} (hx : x.isFinite = true)
    (h : l.toReal = Binary64.toReal x) (h0 : Binary64.toReal x ≠ 0) : l.toFloat = x := by
  have hround := isRounding_toFloat l
  rw [h] at hround
  have hself := nearest_of_isRepresentable (isRepresentable_toReal x)
  have hbound : |nearest (Binary64.toReal x)| < 2 ^ (1024 : ℤ) := by
    rw [hself]
    exact abs_toReal_lt x
  obtain ⟨hfinite, hvalue⟩ := hround.of_abs_nearest_lt hbound
  exact eq_of_toReal_eq hfinite hx (hvalue.trans hself) h0

/-- A float without a sign whose dyadic number is zero is the zero without a sign. -/
theorem eq_zero_of_mantissa_eq_zero {x : Float} (hf : x.isFinite = true)
    (h : Layout.isSigned x = false) (hm : (Dyadic.ofFloat x).mantissa = 0) : x = 0 := by
  have hvalue := toReal_ofFloat hf h
  rw [Dyadic.toReal_eq, hm, Nat.cast_zero, zero_mul] at hvalue
  obtain ⟨s, hs⟩ := view_of_toReal_eq_zero hf hvalue.symm
  have habs := abs_of_not_isSigned h
  apply view_injective
  rw [← habs, view_abs, hs]
  rfl

/-- The shortest decimal of a float reads back as the float. -/
theorem toFloat_shortest {x : Float} (hf : x.isFinite = true) (h : Layout.isSigned x = false) :
    (Decimal.shortest x).literal.toFloat = x := by
  simp only [Decimal.shortest]
  split
  · rename_i hm
    rw [eq_zero_of_mantissa_eq_zero hf h hm]
    rfl
  · rename_i hm
    have hvalue := toReal_ofFloat hf h
    cases hfound : (List.range 17).findSome? fun (count : ℕ) =>
        (Decimal.neighbours (Dyadic.ofFloat x)
          ((Dyadic.ofFloat x).position - (count + 1 : ℕ))).find? (Decimal.readsAs x) with
    | some n =>
      -- a decimal that was found has been read
      obtain ⟨count, -, hcount⟩ := List.exists_of_findSome?_eq_some hfound
      have hreads : Decimal.readsAs x n = true := List.find?_some hcount
      exact of_decide_eq_true hreads
    | none =>
      apply toFloat_of_toReal_eq hf
      · rw [Option.getD_none, Decimal.toReal_literal, Decimal.toReal_exact, hvalue]
      · rw [← hvalue, Dyadic.toReal_eq]
        have hpos : (0 : ℝ) < (Dyadic.ofFloat x).mantissa := by
          exact_mod_cast Nat.pos_of_ne_zero hm
        positivity

/-- A float written in the plain layout is a literal that reads back as the float. -/
theorem exists_literal_write_plain {x : Float} (hf : x.isFinite = true)
    (h : Layout.isSigned x = false) :
    ∃ l : Literal, Layout.plain.write x = l.write ∧ l.toFloat = x := by
  refine ⟨(Decimal.shortest x).literal, ?_, toFloat_shortest hf h⟩
  have hmark : ∀ n : Decimal, Layout.plain.writePositional n = n.literal.write := by
    intro n
    rw [Layout.writePositional]
    split
    · exact List.append_nil _
    · rfl
  have hdecimal : ∀ n : Decimal, Layout.plain.writeDecimal n = n.literal.write := by
    intro n
    exact (if_pos (Or.inr rfl)).trans (hmark n)
  rw [Layout.write, if_neg (Bool.eq_false_iff.1 (isNaN_of_isFinite hf)), abs_of_not_isSigned h]
  simp only [hf, h, if_true, hdecimal]
  rfl

end EquationRoots
