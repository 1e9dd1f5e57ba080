import Mathlib

/-!
# The unpacked form of a binary64 float

A float is stored in sixty-four bits; its `view` shows what they stand for: "not a number", a signed
infinity, a signed zero, or a sign with a positive mantissa and a power of two. This module shows
that nothing is lost on the way.

- `pack_unpack`: a stored float is determined by its unpacked form (`view_injective`).
- `unpack_pack`: an unpacked float whose mantissa has the width of the format is stored and shown
  again unchanged, unless its exponent is too large, when it becomes an infinity (`overflowed`).
- `view_neg`, `view_abs`: the sign operations act on the sign alone.
-/

set_option autoImplicit false

namespace EquationRoots.Binary64

open Float.Model Float.Model.UnpackedFloat

/-- The sign of a float. -/
abbrev SignBit := UnpackedFloat.Sign

/-! ## Canonical unpacked floats -/

/-- The mantissa of a finite float has at most fifty-three bits and the exponent is at least the
least one; a mantissa with fewer bits has the least exponent. -/
def IsCanonical : UnpackedFloat → Prop
  | .finite _ m e _ => m < 2 ^ 53 ∧ -1074 ≤ e ∧ (2 ^ 52 ≤ m ∨ e = -1074)
  | _ => True

/-- The unpacked float as it is stored: beyond the largest exponent it is an infinity. -/
def overflowed : UnpackedFloat → UnpackedFloat
  | .finite s m e h => if e ≤ 971 then .finite s m e h else .infinity s
  | u => u

/-- An unpacked float whose exponent fits into the format. -/
def Fits : UnpackedFloat → Prop
  | .finite _ _ e _ => e ≤ 971
  | _ => True

theorem overflowed_of_fits {u : UnpackedFloat} (h : Fits u) : overflowed u = u := by
  cases u with
  | finite s m e hm => exact if_pos h
  | _ => rfl

/-! ## Fields of the stored bits -/

/-- The float that is shown for the three stored fields. -/
def ofFields (s : SignBit) (e : BitVec 11) (m : BitVec 52) : UnpackedFloat :=
  if e.toNat = 2047 then if m.toNat = 0 then .infinity s else .notANumber
  else if e.toNat = 0 then
    if hm : m.toNat = 0 then .zero s else .finite s m.toNat (-1074) (Nat.pos_of_ne_zero hm)
  else .finite s (2 ^ 52 + m.toNat) (e.toNat - 1075) (by positivity)

theorem unpack_packComponents (s : SignBit) (e : BitVec 11) (m : BitVec 52) :
    UnpackedFloat.unpack Format.binary64 (packComponents Format.binary64 s e m) =
      ofFields s e m := by
  have hall : e = -1#_ ↔ e.toNat = 2047 := by rw [← BitVec.toNat_inj]; norm_num
  have hzero : e = 0#_ ↔ e.toNat = 0 := by rw [← BitVec.toNat_inj]; norm_num
  have hnone : m = 0#_ ↔ m.toNat = 0 := by rw [← BitVec.toNat_inj]; norm_num
  have hlead : (1#1 ++ m).toNat = 2 ^ 52 + m.toNat := by
    rw [BitVec.toNat_append, ← Nat.shiftLeft_add_eq_or_of_lt m.isLt]
    rfl
  simp only [UnpackedFloat.unpack, unpackSign_packComponents, unpackExponent_packComponents,
    unpackMantissa_packComponents, Sign.ofBitVec_toBitVec, hall, hzero, hnone, hlead, ofFields]
  -- the cases of the exponent field: all ones, all zeros, and the normal floats
  by_cases h : e.toNat = 2047
  · simp only [h, if_true]
  · by_cases h' : e.toNat = 0
    · by_cases h'' : m.toNat = 0
      · simp [h', h'']
      · simp [h', h'', Format.exponentBias]
    · simp [h, h', Format.exponentBias]

/-- A stored float shows what the three fields stand for that its bits consist of. -/
theorem exists_fields (x : Float.Model) :
    ∃ (s : SignBit) (e : BitVec 11) (m : BitVec 52), x.unpack = ofFields s e m ∧
      x.toBits.toNat = s.toBitVec.toNat * 2 ^ 63 + e.toNat * 2 ^ 52 + m.toNat := by
  have hbits := @packComponents_unpackSign_unpackExponent_unpackMantissa Format.binary64
    x.toBits.toBitVec
  generalize Sign.ofBitVec _ = s at hbits
  generalize unpackExponent _ = e at hbits
  generalize unpackMantissa _ = m at hbits
  refine ⟨s, e, m, ?_, ?_⟩
  · exact (congrArg (UnpackedFloat.unpack Format.binary64) hbits).symm.trans
      (unpack_packComponents s e m)
  · have hnat : x.toBits.toNat = (s.toBitVec ++ e ++ m).toNat := congrArg BitVec.toNat hbits.symm
    rw [hnat, BitVec.toNat_append, BitVec.toNat_append, ← Nat.shiftLeft_add_eq_or_of_lt e.isLt,
      ← Nat.shiftLeft_add_eq_or_of_lt m.isLt, Nat.shiftLeft_eq, Nat.shiftLeft_eq]
    show (s.toBitVec.toNat * 2 ^ 11 + e.toNat) * 2 ^ 52 + m.toNat = _
    ring

/-- What the stored bits show is canonical and fits. -/
theorem isCanonical_unpack (x : Float.Model) : IsCanonical x.unpack ∧ Fits x.unpack := by
  obtain ⟨s, e, m, h, -⟩ := exists_fields x
  rw [h, ofFields]
  split_ifs with hall hnone hzero hnone
  · exact ⟨trivial, trivial⟩
  · exact ⟨trivial, trivial⟩
  · exact ⟨trivial, trivial⟩
  · exact ⟨⟨by omega, by omega, by omega⟩, by simp [Fits]⟩
  · exact ⟨⟨by omega, by omega, by omega⟩, by simp only [Fits]; omega⟩

/-! ## Storing and showing -/

/-- The stored fields of a normal float. -/
theorem pack_normal (s : SignBit) {m : Nat} {e : Int} (h : 0 < m) (hm : 2 ^ 52 ≤ m)
    (hm' : m < 2 ^ 53) (he : -1074 ≤ e) (he' : e ≤ 971) :
    UnpackedFloat.pack Format.binary64 (.finite s m e h) =
      packComponents Format.binary64 s (BitVec.ofNat 11 (e + 1075).toNat) (BitVec.ofNat 52 m) := by
  have hlog : m.log2 = 52 := (Nat.log2_eq_iff h.ne').2 ⟨hm, hm'⟩
  have hexp : (e + (Format.binary64.exponentBias : Int)
      + (Format.binary64.mantissaBitsWithoutImplicit : Int)).toNat = (e + 1075).toNat := by
    norm_num [Format.exponentBias]
    omega
  have hfit : ¬ 2 ^ Format.binary64.exponentBits ≤ (e + 1075).toNat + 1 := by norm_num; omega
  simp only [UnpackedFloat.pack, hexp, hlog, if_neg hfit]
  exact if_pos rfl

/-- The stored fields of a subnormal float. -/
theorem pack_subnormal (s : SignBit) {m : Nat} (h : 0 < m) (hm : m < 2 ^ 52) :
    UnpackedFloat.pack Format.binary64 (.finite s m (-1074) h) =
      packComponents Format.binary64 s 0 (BitVec.ofNat 52 m) := by
  have hlog : m.log2 < 52 := (Nat.log2_lt h.ne').2 hm
  have hwidth : ¬ m.log2 + 1 = Format.binary64.mantissaBits := by
    show ¬ m.log2 + 1 = 53
    omega
  have hfit : ¬ 2 ^ Format.binary64.exponentBits ≤
      ((-1074 : Int) + Format.binary64.exponentBias
        + Format.binary64.mantissaBitsWithoutImplicit).toNat + 1 := by decide
  simp only [UnpackedFloat.pack, if_neg hfit, if_neg hwidth]
  rfl

/-- A finite float beyond the largest exponent is stored as an infinity. -/
theorem pack_overflow (s : SignBit) {m : Nat} {e : Int} (h : 0 < m) (he : 971 < e) :
    UnpackedFloat.pack Format.binary64 (.finite s m e h) =
      UnpackedFloat.pack Format.binary64 (.infinity s) := by
  have hfit : 2 ^ Format.binary64.exponentBits ≤
      (e + (Format.binary64.exponentBias : Int)
        + (Format.binary64.mantissaBitsWithoutImplicit : Int)).toNat + 1 := by
    norm_num [Format.exponentBias]
    omega
  simp only [UnpackedFloat.pack, if_pos hfit]

/-- A stored float is determined by what it shows. -/
theorem pack_unpack (x : Float.Model) : Float.Model.pack x.unpack = x := by
  have hbits := UnpackedFloat.pack_unpack_of_valid x.valid
  show (⟨UInt64.ofBitVec (UnpackedFloat.pack Format.binary64 x.unpack), _⟩ : Float.Model) = x
  simp only [Float.Model.unpack, hbits]

/-- A canonical unpacked float is stored and shown again, up to overflow. -/
theorem unpack_pack {u : UnpackedFloat} (h : IsCanonical u) :
    (Float.Model.pack u).unpack = overflowed u := by
  cases u with
  | notANumber => rfl
  | infinity s => cases s <;> rfl
  | zero s => cases s <;> rfl
  | finite s m e hm =>
    obtain ⟨hm', he, hwidth⟩ := h
    show UnpackedFloat.unpack Format.binary64 (UnpackedFloat.pack Format.binary64 _) = _
    -- too large an exponent; otherwise a normal or a subnormal float
    by_cases hbig : 971 < e
    · rw [pack_overflow s hm hbig, overflowed, if_neg (by omega)]
      cases s <;> rfl
    rw [overflowed, if_pos (by omega)]
    -- the hidden bit is dropped from a normal mantissa and put back when it is shown
    by_cases hn : 2 ^ 52 ≤ m
    · have hexp : (BitVec.ofNat 11 (e + 1075).toNat).toNat = (e + 1075).toNat := by
        rw [BitVec.toNat_ofNat]
        omega
      have hfield : (BitVec.ofNat 52 m).toNat = m - 2 ^ 52 := by
        rw [BitVec.toNat_ofNat]
        omega
      rw [pack_normal s hm hn hm' he (by omega), unpack_packComponents, ofFields,
        if_neg (by omega), if_neg (by omega)]
      congr 1 <;> omega
    -- a mantissa without the hidden bit has the least exponent
    · obtain rfl : e = -1074 := by omega
      have hfield : (BitVec.ofNat 52 m).toNat = m := by
        rw [BitVec.toNat_ofNat]
        omega
      rw [pack_subnormal s hm (by omega), unpack_packComponents, ofFields,
        if_neg (by decide), if_pos (by rfl), dif_neg (by omega)]
      congr 1

/-! ## The view of a float -/

/-- What a float stands for. -/
def view (x : Float) : UnpackedFloat := x.toModel.unpack

theorem isCanonical_view (x : Float) : IsCanonical (view x) := (isCanonical_unpack x.toModel).1

theorem fits_view (x : Float) : Fits (view x) := (isCanonical_unpack x.toModel).2

theorem ofModel_pack_view (x : Float) : Float.ofModel (Float.Model.pack (view x)) = x := by
  rw [view, pack_unpack]

/-- Two floats that stand for the same are the same. -/
theorem view_injective {x y : Float} (h : view x = view y) : x = y := by
  rw [← ofModel_pack_view x, h, ofModel_pack_view]

theorem view_ofModel_pack {u : UnpackedFloat} (h : IsCanonical u) :
    view (Float.ofModel (Float.Model.pack u)) = overflowed u := unpack_pack h

/-- Storing keeps a canonical unpacked float that fits. -/
theorem view_ofModel_pack_of_fits {u : UnpackedFloat} (h : IsCanonical u) (hf : Fits u) :
    view (Float.ofModel (Float.Model.pack u)) = u := by
  rw [view_ofModel_pack h, overflowed_of_fits hf]

/-! ## The sign operations -/

theorem isCanonical_neg {u : UnpackedFloat} (h : IsCanonical u) : IsCanonical u.neg := by
  cases u <;> exact h

theorem fits_neg {u : UnpackedFloat} (h : Fits u) : Fits u.neg := by
  cases u <;> exact h

theorem isCanonical_abs {u : UnpackedFloat} (h : IsCanonical u) : IsCanonical u.abs := by
  cases u <;> exact h

theorem fits_abs {u : UnpackedFloat} (h : Fits u) : Fits u.abs := by
  cases u <;> exact h

/-- Negation changes the sign alone. -/
@[simp] theorem view_neg (x : Float) : view (-x) = (view x).neg :=
  view_ofModel_pack_of_fits (isCanonical_neg (isCanonical_view x)) (fits_neg (fits_view x))

/-- The absolute value changes the sign alone. -/
@[simp] theorem view_abs (x : Float) : view x.abs = (view x).abs :=
  view_ofModel_pack_of_fits (isCanonical_abs (isCanonical_view x)) (fits_abs (fits_view x))

@[simp] protected theorem neg_neg (x : Float) : - -x = x := by
  apply view_injective
  rw [view_neg, view_neg]
  cases view x with
  | notANumber => rfl
  | infinity s | zero s | finite s m e h => cases s <;> rfl

@[simp] protected theorem abs_neg (x : Float) : (-x).abs = x.abs := by
  apply view_injective
  rw [view_abs, view_abs, view_neg]
  cases view x <;> rfl

end EquationRoots.Binary64
