import EquationRoots.Proofs.Equation.Reordering
import EquationRoots.Proofs.Equation.TermDiagnosis

/-!
# Equations with integer coefficients

What a text writes is an exact number; what is read is the float nearest to it. For integers of
moderate size there is no difference, and neither is there one between the sums of floats and of
integers. Such an equation has exactly the polynomial that it writes, whatever the order of its
terms, and the opposite one when its sides are exchanged.

- `IsWritten`: a text writes a term with an exact coefficient.
- `read_eq_ok_iff_written`: what is read is what is written, rounded.
- `IsModerate.exact`: a natural number up to `2 ^ 53` is read without rounding.
- `standardForm_integers`: an equation of such numbers is collected exactly.
-/

set_option autoImplicit false

namespace EquationRoots

open Binary64

namespace Grammar

/-! ## What is written -/

/-- What may stand before the variable, with its exact value. -/
inductive IsExactFactor : Text → ℝ → Prop
  | silent : IsExactFactor [] 1
  | number {text : Text} {value : ℝ} (decimal : IsDecimal text value) : IsExactFactor text value
  | starred {text : Text} {value : ℝ} (decimal : IsDecimal text value) :
      IsExactFactor (text ++ ['*']) value

/-- A term without its sign, with the exact value of its coefficient. -/
inductive IsExactBody : Text → ℝ → Exponent → Prop
  | constant {text : Text} {value : ℝ} (decimal : IsDecimal text value) :
      IsExactBody text value .zero
  | withVariable {factor power : Text} {value : ℝ} {n : Exponent}
      (isFactor : IsExactFactor factor value) (isPower : IsPower power n) :
      IsExactBody (factor ++ 'x' :: power) value n

theorem IsNearestFloat.unique {value : ℝ} {x y : Float} (hx : IsNearestFloat value x)
    (hy : IsNearestFloat value y) : x = y :=
  eq_of_toReal_eq_of_not_isSigned hx.isFinite hy.isFinite hx.isSigned hy.isSigned
    (hx.toReal_eq.trans hy.toReal_eq.symm)

/-- A natural number that is not too large is the float nearest to itself. -/
theorem isNearestFloat_natural {k : ℕ} (hk : k ≤ 2 ^ 53) :
    IsNearestFloat k (Literal.toFloat ⟨k, 0⟩) := by
  have hvalue : (Literal.mk k 0).toReal = k := by simp [Literal.toReal]
  have hround := isRounding_toFloat ⟨k, 0⟩
  rw [hvalue] at hround
  have hbig : |(k : ℝ)| ≤ 2 ^ (1023 : ℤ) := by
    rw [Nat.abs_cast]
    calc (k : ℝ) ≤ 2 ^ (53 : ℤ) := by exact_mod_cast hk
      _ ≤ 2 ^ (1023 : ℤ) := zpow_le_zpow_right₀ one_le_two (by norm_num)
  obtain ⟨hf, hv⟩ := hround.of_abs_le hbig
  exact ⟨hf, hv, isSigned_toFloat ⟨k, 0⟩⟩

/-- The float nearest to such a number has its value. -/
theorem IsNearestFloat.toReal_natural {k : ℕ} (hk : k ≤ 2 ^ 53) {x : Float}
    (h : IsNearestFloat k x) : IsInteger x ∧ toReal x = k := by
  have hk' : |(k : ℤ)| ≤ 2 ^ 53 := by
    rw [Nat.abs_cast]
    exact_mod_cast hk
  have hrep := isRepresentable_intCast_mul hk' (show (-1074 : ℤ) ≤ 0 by norm_num)
  rw [zpow_zero, mul_one, Int.cast_natCast] at hrep
  have hv : toReal x = k := h.toReal_eq.trans (nearest_of_isRepresentable hrep)
  exact ⟨⟨h.isFinite, k, by rw [hv, Int.cast_natCast]⟩, hv⟩

theorem isNearestFloat_one : IsNearestFloat 1 1 := by
  have hone := isNearestFloat_natural (k := 1) (by norm_num)
  rwa [Nat.cast_one] at hone

/-- What stands before the variable is read as the float nearest to its exact value. -/
theorem isFactor_iff (text : Text) (x : Float) :
    IsFactor text x ↔ ∃ value, IsExactFactor text value ∧ IsNearestFloat value x := by
  constructor
  · intro h
    cases h with
    | silent => exact ⟨1, .silent, isNearestFloat_one⟩
    | number number =>
      obtain ⟨value, hdecimal, hnearest⟩ := (isNumber_iff _ _).1 number
      exact ⟨value, .number hdecimal, hnearest⟩
    | starred number =>
      obtain ⟨value, hdecimal, hnearest⟩ := (isNumber_iff _ _).1 number
      exact ⟨value, .starred hdecimal, hnearest⟩
  · rintro ⟨value, hfactor, hnearest⟩
    cases hfactor with
    | silent =>
      rw [hnearest.unique isNearestFloat_one]
      exact .silent
    | number decimal => exact .number ((isNumber_iff _ _).2 ⟨value, decimal, hnearest⟩)
    | starred decimal => exact .starred ((isNumber_iff _ _).2 ⟨value, decimal, hnearest⟩)

/-- So is the coefficient of a term without its sign. -/
theorem isBody_iff (text : Text) (x : Float) (n : Exponent) :
    IsBody text x n ↔ ∃ value, IsExactBody text value n ∧ IsNearestFloat value x := by
  constructor
  · intro h
    cases h with
    | constant number =>
      obtain ⟨value, hdecimal, hnearest⟩ := (isNumber_iff _ _).1 number
      exact ⟨value, .constant hdecimal, hnearest⟩
    | withVariable isFactor isPower =>
      obtain ⟨value, hfactor, hnearest⟩ := (isFactor_iff _ _).1 isFactor
      exact ⟨value, .withVariable hfactor isPower, hnearest⟩
  · rintro ⟨value, hbody, hnearest⟩
    cases hbody with
    | constant decimal => exact .constant ((isNumber_iff _ _).2 ⟨value, decimal, hnearest⟩)
    | withVariable isFactor isPower =>
      exact .withVariable ((isFactor_iff _ _).2 ⟨value, isFactor, hnearest⟩) isPower

end Grammar

open Grammar

/-- A term with the exact value of its coefficient: the sign that it counts with, that value, and
the power of the variable. -/
structure WrittenTerm where
  sign : Sign
  magnitude : ℝ
  exponent : Exponent

namespace WrittenTerm

/-- The coefficient with the sign put in front. -/
def value (w : WrittenTerm) : ℝ :=
  match w.sign with
  | .positive => w.magnitude
  | .negative => -w.magnitude

/-- The values of a power added up. -/
noncomputable def total (ws : List WrittenTerm) (n : Exponent) : ℝ :=
  ((ws.filter (·.exponent = n)).map value).sum

/-- The magnitudes of a power added up. -/
noncomputable def size (ws : List WrittenTerm) (n : Exponent) : ℝ :=
  ((ws.filter (·.exponent = n)).map magnitude).sum

theorem size_append (ls rs : List WrittenTerm) (n : Exponent) :
    size (ls ++ rs) n = size ls n + size rs n := by
  simp [size]

/-- The term is the written one with its coefficient rounded to the nearest float. -/
structure IsRounded (w : WrittenTerm) (t : Term) : Prop where
  sign_eq : t.sign = w.sign
  exponent_eq : t.exponent = w.exponent
  nearest : IsNearestFloat w.magnitude t.coefficient

/-! ## Natural numbers -/

/-- The coefficient is a natural number. -/
def IsNatural (w : WrittenTerm) : Prop := ∃ k : ℕ, w.magnitude = k

/-- The coefficient is a natural number that is no larger than a mantissa. -/
def IsModerate (w : WrittenTerm) : Prop := ∃ k ≤ 2 ^ 53, w.magnitude = (k : ℕ)

/-- The term that is read for a moderate one. -/
noncomputable def toTerm (w : WrittenTerm) : Term :=
  ⟨w.sign, Literal.toFloat ⟨⌊w.magnitude⌋₊, 0⟩, w.exponent⟩

variable {w : WrittenTerm} {ws : List WrittenTerm}

theorem IsNatural.magnitude_nonneg (h : w.IsNatural) : 0 ≤ w.magnitude := by
  obtain ⟨k, hk⟩ := h
  rw [hk]
  exact Nat.cast_nonneg k

/-- Natural numbers that add up to a moderate number are moderate. -/
theorem isModerate_of_size_le (hnat : ∀ w ∈ ws, w.IsNatural) (hsize : ∀ n, size ws n ≤ 2 ^ 53) :
    ∀ w ∈ ws, w.IsModerate := by
  intro w hw
  obtain ⟨k, hk⟩ := hnat w hw
  have hle : w.magnitude ≤ size ws w.exponent := by
    refine List.single_le_sum ?_ _ ?_
    · intro y hy
      obtain ⟨u, hu, rfl⟩ := List.mem_map.1 hy
      exact (hnat u (List.mem_filter.1 hu).1).magnitude_nonneg
    · exact List.mem_map_of_mem (List.mem_filter.2 ⟨hw, by simp⟩)
  rw [hk] at hle
  exact ⟨k, by exact_mod_cast hle.trans (hsize w.exponent), hk⟩

theorem IsModerate.isRounded (h : w.IsModerate) : w.IsRounded w.toTerm := by
  refine ⟨rfl, rfl, ?_⟩
  obtain ⟨k, hk, hw⟩ := h
  rw [toTerm, hw, Nat.floor_natCast]
  exact isNearestFloat_natural hk

/-- A moderate term is read without rounding. -/
theorem IsModerate.exact (h : w.IsModerate) :
    IsInteger w.toTerm.coefficient ∧ toReal w.toTerm.coefficient = w.magnitude := by
  have hnearest := h.isRounded.nearest
  obtain ⟨k, hk, hw⟩ := h
  rw [hw] at hnearest ⊢
  exact hnearest.toReal_natural hk

theorem IsModerate.abs_coefficient (h : w.IsModerate) :
    |toReal w.toTerm.coefficient| = w.magnitude := by
  rw [h.exact.2]
  obtain ⟨k, -, hw⟩ := h
  rw [hw, Nat.abs_cast]

theorem IsModerate.toReal_value (h : w.IsModerate) : toReal w.toTerm.value = w.value := by
  have hv := h.exact.2
  cases hs : w.sign with
  | positive =>
    have hsign : w.toTerm.sign = .positive := hs
    rw [Term.value, hsign, Sign.apply_positive, hv, value, hs]
  | negative =>
    have hsign : w.toTerm.sign = .negative := hs
    rw [Term.value, hsign, Sign.apply_negative, toReal_neg, hv, value, hs]

theorem isInteger_of_isModerate (h : ∀ w ∈ ws, w.IsModerate) :
    ∀ t ∈ ws.map toTerm, IsInteger t.coefficient := by
  rw [List.forall_mem_map]
  exact fun w hw => (h w hw).exact.1

/-- The sums of moderate terms are those of the terms that are read. -/
theorem sums_map_toTerm (h : ∀ w ∈ ws, w.IsModerate) (n : Exponent) :
    Equation.magnitude (ws.map toTerm) n = size ws n ∧
      Equation.exactSum (ws.map toTerm) n = total ws n := by
  have hfilter : (ws.map toTerm).filter (·.exponent = n) =
      (ws.filter (·.exponent = n)).map toTerm := List.filter_map
  have hmem : ∀ w ∈ ws.filter (·.exponent = n), w.IsModerate :=
    fun w hw => h w (List.mem_filter.1 hw).1
  constructor
  · rw [Equation.magnitude, hfilter, List.map_map, size]
    exact congrArg List.sum (List.map_congr_left fun w hw => (hmem w hw).abs_coefficient)
  · rw [Equation.exactSum, hfilter, List.map_map, total]
    exact congrArg List.sum (List.map_congr_left fun w hw => (hmem w hw).toReal_value)

end WrittenTerm

namespace Equation

open WrittenTerm

/-! ## Sides that are written -/

/-- The text writes the term: a sign in front, where a text without one counts as positive, and the
body behind it. -/
structure IsWritten (raw : Text) (w : WrittenTerm) : Prop where
  sign_eq : w.sign = (Term.splitSign raw).1
  body : IsExactBody (Term.splitSign raw).2 w.magnitude w.exponent

/-- What is read is what is written, rounded. -/
theorem read_eq_ok_iff_written (raw : Text) (t : Term) :
    Term.read raw = .ok t ↔ ∃ w, IsWritten raw w ∧ w.IsRounded t := by
  rw [read_eq_ok_iff_splitSign, isBody_iff]
  constructor
  · rintro ⟨hsign, value, hbody, hnearest⟩
    exact ⟨⟨t.sign, value, t.exponent⟩, ⟨hsign, hbody⟩, rfl, rfl, hnearest⟩
  · rintro ⟨w, hwritten, hround⟩
    rw [hround.sign_eq, hround.exponent_eq]
    exact ⟨hwritten.sign_eq, w.magnitude, hwritten.body, hround.nearest⟩

/-- The side writes the terms, one in each segment. -/
def WritesSide (side : Text) (ws : List WrittenTerm) : Prop :=
  List.Forall₂ IsWritten (pieces (Text.withoutBlanks side)) ws

/-- Segments are read when they write terms that can be rounded. -/
theorem forall₂_read_iff_written (raws : List Text) (terms : List Term) :
    List.Forall₂ (fun raw t => Term.read raw = .ok t) raws terms ↔
      ∃ ws, List.Forall₂ IsWritten raws ws ∧ List.Forall₂ IsRounded ws terms := by
  constructor
  · intro h
    induction h with
    | nil => exact ⟨[], .nil, .nil⟩
    | cons hread _ ih =>
      obtain ⟨w, hwritten, hround⟩ := (read_eq_ok_iff_written _ _).1 hread
      obtain ⟨ws, hwrittens, hrounds⟩ := ih
      exact ⟨w :: ws, .cons hwritten hwrittens, .cons hround hrounds⟩
  · rintro ⟨ws, hwrittens, hrounds⟩
    induction hwrittens generalizing terms with
    | nil =>
      cases hrounds
      exact .nil
    | cons hwritten _ ih =>
      cases hrounds with
      | cons hround hrounds =>
        exact .cons ((read_eq_ok_iff_written _ _).2 ⟨_, hwritten, hround⟩) (ih _ hrounds)

/-- A side is read exactly when it writes terms whose coefficients have nearest floats. -/
theorem readSide_eq_ok_iff_written (side : Text) (terms : List Term) :
    readSide side = .ok terms ↔
      ∃ ws, WritesSide side ws ∧ List.Forall₂ IsRounded ws terms := by
  rw [readSide, mapM_read_eq_ok_iff, forall₂_read_iff_written]
  rfl

variable {ws : List WrittenTerm}

/-- A side of moderate terms is read. -/
theorem readSide_of_isModerate {side : Text} (hside : WritesSide side ws)
    (h : ∀ w ∈ ws, w.IsModerate) : readSide side = .ok (ws.map toTerm) := by
  refine (readSide_eq_ok_iff_written side _).2 ⟨ws, hside, ?_⟩
  rw [List.forall₂_map_right_iff, List.forall₂_same]
  exact fun w hw => (h w hw).isRounded

/-! ## Equations of integers -/

/-- The equation is accepted with exactly these coefficients, in any order of its terms, and with
the opposite ones when its sides are exchanged. -/
structure CollectsExactly (left right : Text) (p : Coefficients Float) (sums : Exponent → ℝ) :
    Prop where
  accepted : standardForm (left ++ '=' :: right) = .ok p
  toReal_eq : ∀ n, toReal (p.ofPower n) = sums n
  reordered : ∀ left' right' : Text, '=' ∉ left' ++ right' → Reordered left' left →
    Reordered right' right → standardForm (left' ++ '=' :: right') = .ok p
  exchanged : ∃ p', standardForm (right ++ '=' :: left) = .ok p' ∧ p'.Mirrors p

/-- Integers that are not too large are collected exactly. -/
theorem collectsExactly_of_isInteger {left right : Text} (he : '=' ∉ left ++ right)
    {l r : List Term} (hl : readSide left = .ok l) (hr : readSide right = .ok r)
    (hint : ∀ t ∈ l ++ r, IsInteger t.coefficient)
    (hle : ∀ n, magnitude l n + magnitude r n ≤ 2 ^ 53) :
    CollectsExactly left right (collected l r) fun n => exactSum l n - exactSum r n := by
  have hexact (n : Exponent) := addsExactly_signedValues hint (hle n)
  have hcollect (n : Exponent) := collect_of_isInteger hint (hle n)
  have he' : '=' ∉ right ++ left := by rwa [List.mem_append, or_comm, ← List.mem_append]
  have hcommute : SidesCommute left right := by
    refine sidesCommute_of_isInteger fun l' r' hl' hr' => ?_
    rw [hl] at hl'
    rw [hr] at hr'
    cases hl'
    cases hr'
    exact ⟨hint, hle⟩
  -- exact sums are the negatives of those taken from the other side
  have hopposite := hcommute l r hl hr
  refine ⟨?_, ?_, ?_, ?_⟩
  · exact (standardForm_sides_eq_ok_iff he hl hr _).2 ⟨fun n => (hcollect n).1, rfl⟩
  · intro n
    rw [ofPower_collected]
    exact (hcollect n).2
  · intro left' right' hmem hleft hright
    exact (standardForm_of_reordered he hmem hleft hright hl hr hexact).2
  · refine ⟨collected r l, (standardForm_sides_eq_ok_iff he' hr hl _).2 ⟨?_, rfl⟩, ?_⟩
    · intro n
      rw [(hopposite n).isFinite_eq]
      exact (hcollect n).1
    · exact ⟨hopposite .three, hopposite .two, hopposite .one, hopposite .zero⟩

/-- Equations with integer coefficients are collected exactly. A side is read exactly when its
segments write terms whose coefficients have nearest floats. Where the coefficients that are written
are natural numbers, and those of each power add up to `2 ^ 53` at most, the equation is accepted,
and each coefficient of its polynomial is the sum of the signed coefficients on the left less that
on the right. The same holds of the coefficients that are read. The terms of the sides may then be
written in another order, and exchanging the sides mirrors the polynomial. -/
theorem standardForm_integers {left right : Text} (he : '=' ∉ left ++ right) :
    (∀ side terms, readSide side = .ok terms ↔
        ∃ ws, WritesSide side ws ∧ List.Forall₂ IsRounded ws terms) ∧
      (∀ ls rs, WritesSide left ls → WritesSide right rs → (∀ w ∈ ls ++ rs, w.IsNatural) →
        (∀ n, size ls n + size rs n ≤ 2 ^ 53) →
          ∃ p, CollectsExactly left right p fun n => total ls n - total rs n) ∧
      ∀ l r, readSide left = .ok l → readSide right = .ok r →
        (∀ t ∈ l ++ r, IsInteger t.coefficient) →
        (∀ n, magnitude l n + magnitude r n ≤ 2 ^ 53) →
          ∃ p, CollectsExactly left right p fun n => exactSum l n - exactSum r n := by
  refine ⟨readSide_eq_ok_iff_written, ?_, ?_⟩
  · intro ls rs hls hrs hnat hsize
    have hmoderate := isModerate_of_size_le hnat fun n => (size_append ls rs n).trans_le (hsize n)
    obtain ⟨hml, hmr⟩ := List.forall_mem_append.1 hmoderate
    have hint : ∀ t ∈ ls.map toTerm ++ rs.map toTerm, IsInteger t.coefficient := by
      rw [← List.map_append]
      exact isInteger_of_isModerate hmoderate
    have hcollects := collectsExactly_of_isInteger he (readSide_of_isModerate hls hml)
      (readSide_of_isModerate hrs hmr) hint
    simp only [sums_map_toTerm hml, sums_map_toTerm hmr] at hcollects
    exact ⟨_, hcollects hsize⟩
  · intro l r hl hr hint hle
    exact ⟨_, collectsExactly_of_isInteger he hl hr hint hle⟩

/-- The equation `2x - 4x = 3 - x`. -/
theorem standardForm_integers_linear :
    WritesSide "2x-4x".toList [⟨.positive, 2, .one⟩, ⟨.negative, 4, .one⟩] ∧
      WritesSide "3-x".toList [⟨.positive, 3, .zero⟩, ⟨.negative, 1, .one⟩] ∧
      (∃ p, standardForm "2x-4x=3-x".toList = .ok p ∧ toReal p.c = -1 ∧ toReal p.d = -3 ∧
        standardForm "-4x+2x=-x+3".toList = .ok p ∧
        ∃ p', standardForm "3-x=2x-4x".toList = .ok p' ∧ p'.Mirrors p) ∧
      ∃ l r, readSide "2x-4x".toList = .ok l ∧ readSide "3-x".toList = .ok r ∧
        ∃ p, CollectsExactly "2x-4x".toList "3-x".toList p fun n =>
          exactSum l n - exactSum r n := by
  have he : '=' ∉ "2x-4x".toList ++ "3-x".toList := by decide +kernel
  have hdigit {c : Char} (hc : c.isDigit = true) {k : ℕ} (hk : positionalValue [c] = k) :
      IsDecimal [c] k := by
    rw [← hk]
    exact .whole (by simpa using hc) (List.cons_ne_nil c [])
  have h2 : IsDecimal ['2'] 2 := by exact_mod_cast hdigit (c := '2') (k := 2) rfl rfl
  have h3 : IsDecimal ['3'] 3 := by exact_mod_cast hdigit (c := '3') (k := 3) rfl rfl
  have h4 : IsDecimal ['4'] 4 := by exact_mod_cast hdigit (c := '4') (k := 4) rfl rfl
  have hls : WritesSide "2x-4x".toList [⟨.positive, 2, .one⟩, ⟨.negative, 4, .one⟩] :=
    .cons ⟨rfl, .withVariable (.number h2) .silent⟩
      (.cons ⟨rfl, .withVariable (.number h4) .silent⟩ .nil)
  have hrs : WritesSide "3-x".toList [⟨.positive, 3, .zero⟩, ⟨.negative, 1, .one⟩] :=
    .cons ⟨rfl, .constant h3⟩ (.cons ⟨rfl, .withVariable .silent .silent⟩ .nil)
  have hnat : ∀ w ∈ [(⟨.positive, 2, .one⟩ : WrittenTerm), ⟨.negative, 4, .one⟩] ++
      [⟨.positive, 3, .zero⟩, ⟨.negative, 1, .one⟩], w.IsNatural := by
    simp only [List.cons_append, List.nil_append, List.forall_mem_cons]
    exact ⟨⟨2, rfl⟩, ⟨4, rfl⟩, ⟨3, rfl⟩, ⟨1, by norm_num⟩, by simp⟩
  have hsize (n : Exponent) : size [⟨.positive, 2, .one⟩, ⟨.negative, 4, .one⟩] n +
      size [⟨.positive, 3, .zero⟩, ⟨.negative, 1, .one⟩] n ≤ 2 ^ 53 := by
    cases n <;> simp [size] <;> norm_num
  have hmoderate := isModerate_of_size_le hnat fun n => (size_append _ _ n).trans_le (hsize n)
  obtain ⟨hml, hmr⟩ := List.forall_mem_append.1 hmoderate
  have hl := readSide_of_isModerate hls hml
  have hr := readSide_of_isModerate hrs hmr
  obtain ⟨p, hp⟩ := (standardForm_integers he).2.1 _ _ hls hrs hnat hsize
  have hread := (standardForm_integers he).2.2 _ _ hl hr
  rw [← List.map_append] at hread
  have hle (n : Exponent) : magnitude
      (List.map toTerm [⟨.positive, 2, .one⟩, ⟨.negative, 4, .one⟩]) n + magnitude
      (List.map toTerm [⟨.positive, 3, .zero⟩, ⟨.negative, 1, .one⟩]) n ≤ 2 ^ 53 := by
    rw [(sums_map_toTerm hml n).1, (sums_map_toTerm hmr n).1]
    exact hsize n
  have hc := hp.toReal_eq .one
  have hd := hp.toReal_eq .zero
  refine ⟨hls, hrs, ⟨p, hp.accepted, hc.trans ?_, hd.trans ?_, ?_, hp.exchanged⟩, _, _, hl, hr,
    hread (isInteger_of_isModerate hmoderate) hle⟩
  · simp [total, value]
    norm_num
  · simp [total, value]
  · exact hp.reordered "-4x+2x".toList "-x+3".toList (by decide +kernel) (by decide +kernel)
      (by decide +kernel)

end Equation

end EquationRoots
