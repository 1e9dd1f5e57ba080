import EquationRoots.Proofs.Equation.Spacing
import EquationRoots.Proofs.Mirror.Sides

/-!
# Terms in another order

The terms of a side may be written in another order, each with its sign in front. Whether they are
read does not depend on the order. Their sums do: terms are added up from left to right, and a
partial sum is rounded or overflows in one order where it does not in another one
(`standardForm_reordered_rounding`).

- `Reordered`: a side with its terms in another order.
- `Reordered.exists_readSide`: its terms are the same up to their order.
- `standardForm_sides`: the standard form of an equation whose sides are read.
- `standardForm_reordered`: what the order does not change. The polynomial stays the same where no
  sum is rounded, the equation stays accepted far from the overflow, and elsewhere the coefficients
  differ by rounding errors.
-/

set_option autoImplicit false

namespace EquationRoots

open Binary64 Grammar

/-! ## Sums of terms -/

theorem Term.sum_eq_foldl (terms : List Term) :
    sum terms = (terms.map value).foldl (· + ·) (-0.0) := by
  rw [sum, List.foldl_map]

/-- The coefficient of a power of the variable. -/
def Coefficients.ofPower {α : Type} (p : Coefficients α) : Exponent → α
  | .zero => p.d
  | .one => p.c
  | .two => p.b
  | .three => p.a

namespace Equation

@[simp] theorem ofPower_collected (l r : List Term) (n : Exponent) :
    (collected l r).ofPower n = collect l r n := by
  cases n <;> rfl

/-! ## Sides in another order -/

/-- A text with the sign that it counts with in front. -/
def withSign (raw : Text) : Text := (Term.splitSign raw).1.symbol :: (Term.splitSign raw).2

/-- The segments of a side, each with its sign in front. -/
def signedPieces (side : Text) : List Text := (pieces (Text.withoutBlanks side)).map withSign

/-- The side has the terms of the other one in another order. -/
def Reordered (side' side : Text) : Prop := (signedPieces side').Perm (signedPieces side)

instance (side' side : Text) : Decidable (Reordered side' side) :=
  inferInstanceAs (Decidable ((signedPieces side').Perm (signedPieces side)))

theorem Reordered.symm {side' side : Text} (h : Reordered side' side) : Reordered side side' :=
  List.Perm.symm h

/-- Reading splits off the sign and reads the rest. -/
theorem read_eq_ok_iff_splitSign (raw : Text) (t : Term) :
    Term.read raw = .ok t ↔
      t.sign = (Term.splitSign raw).1 ∧ IsBody (Term.splitSign raw).2 t.coefficient t.exponent := by
  by_cases hraw : raw = []
  · -- nothing is left to be read
    have hnone : ¬ IsBody (Term.splitSign []).2 t.coefficient t.exponent :=
      fun body => ne_nil_of_isBody body rfl
    simp [hraw, Term.read, hnone]
  · rw [Term.read, if_neg hraw, readBody_eq_ok_iff]

/-- The sign in front does not matter to what is read. -/
theorem read_withSign (raw : Text) (t : Term) :
    Term.read (withSign raw) = .ok t ↔ Term.read raw = .ok t := by
  rw [read_eq_ok_iff_splitSign, read_eq_ok_iff_splitSign raw, withSign, splitSign_symbol_cons]

/-- Segments are read one by one. -/
theorem mapM_read_eq_ok_iff (raws : List Text) (terms : List Term) :
    raws.mapM Term.read = .ok terms ↔
      List.Forall₂ (fun raw t => Term.read raw = .ok t) raws terms := by
  induction raws generalizing terms with
  | nil => simp [pure, Except.pure, eq_comm]
  | cons raw raws ih =>
    rw [mapM_read_cons_eq_ok_iff, List.forall₂_cons_left_iff]
    simp only [ih, exists_and_left]

/-- A side is read by the segments with their signs. -/
theorem readSide_eq_ok_iff (side : Text) (terms : List Term) :
    readSide side = .ok terms ↔
      List.Forall₂ (fun raw t => Term.read raw = .ok t) (signedPieces side) terms := by
  rw [readSide, mapM_read_eq_ok_iff, signedPieces, List.forall₂_map_left_iff]
  simp only [read_withSign]

/-- The terms of a reordered side are those of the side in another order. -/
theorem Reordered.exists_readSide {side' side : Text} (h : Reordered side' side)
    {terms : List Term} (hread : readSide side = .ok terms) :
    ∃ terms', readSide side' = .ok terms' ∧ terms'.Perm terms := by
  rw [readSide_eq_ok_iff] at hread
  obtain ⟨terms', hread', hperm⟩ := List.perm_comp_forall₂ h hread
  exact ⟨terms', (readSide_eq_ok_iff side' terms').2 hread', hperm⟩

/-! ## Equations in another order -/

/-- An equation is read exactly when both of its sides are. -/
theorem isRead_sides_iff {left right : Text} (he : '=' ∉ left ++ right) (terms : List Term) :
    IsRead (left ++ '=' :: right) terms ↔
      ∃ l r, readSide left = .ok l ∧ readSide right = .ok r ∧
        terms = l ++ r.map Term.negated := by
  have hcount : (left ++ '=' :: right).count '=' = 1 := by
    have hnone := List.count_eq_zero.2 he
    rw [List.count_append] at hnone
    rw [List.count_append, List.count_cons_self]
    omega
  constructor
  · rintro ⟨-, hterms⟩
    -- each side is read on its own, the left one first
    rw [balancedTerms_sides he] at hterms
    cases hl : readSide left with
    | error cause =>
      rw [hl] at hterms
      cases hterms
    | ok l =>
      cases hr : readSide right with
      | error cause =>
        rw [hl, hr] at hterms
        cases hterms
      | ok r =>
        rw [hl, hr] at hterms
        cases hterms
        exact ⟨l, r, rfl, rfl, rfl⟩
  · rintro ⟨l, r, hl, hr, rfl⟩
    refine ⟨hcount, ?_⟩
    rw [balancedTerms_sides he, hl, hr]
    rfl

/-- The standard form of an equation whose sides are read: its sums have to be finite. -/
theorem standardForm_sides {left right : Text} (he : '=' ∉ left ++ right) {l r : List Term}
    (hl : readSide left = .ok l) (hr : readSide right = .ok r) :
    standardForm (left ++ '=' :: right) =
      finiteOnly (left ++ '=' :: right) (collected l r) := by
  have hread := (isRead_sides_iff he _).2 ⟨l, r, hl, hr, rfl⟩
  rw [hread.standardForm, coefficients_ofTerms]

theorem standardForm_sides_eq_ok_iff {left right : Text} (he : '=' ∉ left ++ right)
    {l r : List Term} (hl : readSide left = .ok l) (hr : readSide right = .ok r)
    (p : Coefficients Float) :
    standardForm (left ++ '=' :: right) = .ok p ↔
      (∀ n, (collect l r n).isFinite = true) ∧ p = collected l r := by
  rw [standardForm_sides he hl hr, ← isFinite_collected]
  obtain ⟨hfinite, hform⟩ | ⟨hfinite, hform⟩ :=
    finiteOnly_cases (left ++ '=' :: right) (collected l r)
  · simp [hform, hfinite, eq_comm]
  · simp [hform, hfinite]

theorem signedValues_perm {l r l' r' : List Term} (hl : l'.Perm l) (hr : r'.Perm r)
    (n : Exponent) : (signedValues l' r' n).Perm (signedValues l r n) :=
  ((hl.filter _).map _).append ((hr.filter _).map _)

/-- The order of the terms decides nothing about whether an equation is refused for its shape or
for a term. -/
theorem isRefused_of_reordered {left right left' right' : Text} (he : '=' ∉ left ++ right)
    (he' : '=' ∉ left' ++ right') (hl : Reordered left' left) (hr : Reordered right' right)
    (h : IsRefused (left' ++ '=' :: right')) : IsRefused (left ++ '=' :: right) := by
  rw [isRefused_iff] at h ⊢
  intro terms hread
  obtain ⟨l, r, hreadl, hreadr, -⟩ := (isRead_sides_iff he terms).1 hread
  obtain ⟨l', hreadl', -⟩ := hl.exists_readSide hreadl
  obtain ⟨r', hreadr', -⟩ := hr.exists_readSide hreadr
  exact h _ ((isRead_sides_iff he' _).2 ⟨l', r', hreadl', hreadr', rfl⟩)

/-- The sums of each power agree when the terms of the sides change their order. -/
theorem sumsAgree_collect {l r l' r' : List Term} (hl : l'.Perm l) (hr : r'.Perm r)
    (n : Exponent) :
    SumsAgree (signedValues l r n) (collect l' r' n) (collect l r n) :=
  sumsAgree_of_perm (signedValues_perm hl hr n)

/-- Where no sum is rounded, the order of the terms does not change the polynomial. -/
theorem standardForm_of_reordered {left right left' right' : Text} (he : '=' ∉ left ++ right)
    (he' : '=' ∉ left' ++ right') (hl : Reordered left' left) (hr : Reordered right' right)
    {l r : List Term} (hreadl : readSide left = .ok l) (hreadr : readSide right = .ok r)
    (hexact : ∀ n, AddsExactly (signedValues l r n)) :
    standardForm (left ++ '=' :: right) = .ok (collected l r) ∧
      standardForm (left' ++ '=' :: right') = .ok (collected l r) := by
  obtain ⟨l', hreadl', hperml⟩ := hl.exists_readSide hreadl
  obtain ⟨r', hreadr', hpermr⟩ := hr.exists_readSide hreadr
  have hfinite (n : Exponent) : (collect l r n).isFinite = true := (hexact n).foldl_add.1
  have hsame (n : Exponent) : collect l' r' n = collect l r n :=
    (sumsAgree_collect hperml hpermr n).eq_of_exact (hexact n)
  constructor
  · exact (standardForm_sides_eq_ok_iff he hreadl hreadr _).2 ⟨hfinite, rfl⟩
  · refine (standardForm_sides_eq_ok_iff he' hreadl' hreadr' _).2 ⟨?_, ?_⟩
    · intro n
      rw [hsame]
      exact hfinite n
    · simp only [collected, hsame]

/-- What the order of terms does not change. Sums of the same terms are one float where no sum
is rounded, both are finite far from the overflow, and finite ones differ by their rounding errors.
So the terms of the sides of an equation may be written in another order: it is refused for its
shape or for a term exactly if it was before, it has the same polynomial where no sum is rounded, it
is accepted in both orders far from the overflow, and the coefficients of polynomials that are
accepted differ by rounding errors. -/
theorem standardForm_reordered {terms terms' : List Term} (hterms : terms'.Perm terms)
    {left right left' right' : Text} (he : '=' ∉ left ++ right) (he' : '=' ∉ left' ++ right')
    (hl : Reordered left' left) (hr : Reordered right' right) :
    SumsAgree (terms.map Term.value) (Term.sum terms') (Term.sum terms) ∧
      (IsRefused (left' ++ '=' :: right') ↔ IsRefused (left ++ '=' :: right)) ∧
      ∀ l r, readSide left = .ok l → readSide right = .ok r →
        ((∀ n, AddsExactly (signedValues l r n)) →
          ∃ p, standardForm (left ++ '=' :: right) = .ok p ∧
            standardForm (left' ++ '=' :: right') = .ok p) ∧
        ((∀ n, AvoidsOverflow (signedValues l r n)) →
          ∃ p p', standardForm (left ++ '=' :: right) = .ok p ∧
            standardForm (left' ++ '=' :: right') = .ok p') ∧
        ∀ p p', standardForm (left ++ '=' :: right) = .ok p →
          standardForm (left' ++ '=' :: right') = .ok p' → ∀ n,
            |toReal (p'.ofPower n) - toReal (p.ofPower n)| ≤
              2 * ((growth (signedValues l r n).length - 1) * (magnitude l n + magnitude r n)) := by
  have hsums : SumsAgree (terms.map Term.value) (Term.sum terms') (Term.sum terms) := by
    rw [Term.sum_eq_foldl, Term.sum_eq_foldl]
    exact sumsAgree_of_perm (hterms.map Term.value)
  have hrefused : IsRefused (left' ++ '=' :: right') ↔ IsRefused (left ++ '=' :: right) :=
    ⟨isRefused_of_reordered he he' hl hr, isRefused_of_reordered he' he hl.symm hr.symm⟩
  refine ⟨hsums, hrefused, ?_⟩
  intro l r hreadl hreadr
  obtain ⟨l', hreadl', hperml⟩ := hl.exists_readSide hreadl
  obtain ⟨r', hreadr', hpermr⟩ := hr.exists_readSide hreadr
  -- whether a side is read depends on its terms, and whether it is accepted on the sums
  have hagree := sumsAgree_collect hperml hpermr
  have hform := standardForm_sides_eq_ok_iff he hreadl hreadr
  have hform' := standardForm_sides_eq_ok_iff he' hreadl' hreadr'
  refine ⟨?_, ?_, ?_⟩
  · intro hexact
    exact ⟨collected l r, standardForm_of_reordered he he' hl hr hreadl hreadr hexact⟩
  · intro havoids
    have hfinite (n : Exponent) := (hagree n).isFinite_of_avoids (havoids n)
    exact ⟨collected l r, collected l' r', (hform _).2 ⟨fun n => (hfinite n).2, rfl⟩,
      (hform' _).2 ⟨fun n => (hfinite n).1, rfl⟩⟩
  · intro p p' hp hp' n
    obtain ⟨hfinite, rfl⟩ := (hform p).1 hp
    obtain ⟨hfinite', rfl⟩ := (hform' p').1 hp'
    rw [ofPower_collected, ofPower_collected, ← sum_abs_signedValues]
    exact (hagree n).close (hfinite' n) (hfinite n)

/-- The terms of `x^2 + 2x - 3x`. -/
def threeTerms : List Term := [⟨.positive, 1, .two⟩, ⟨.positive, 2, .one⟩, ⟨.negative, 3, .one⟩]

/-- The terms of `4 + x`. -/
def twoTerms : List Term := [⟨.positive, 4, .zero⟩, ⟨.positive, 1, .one⟩]

/-- The equations `x^2 + 2x - 3x = 4 + x` and `-3x + x^2 + 2x = x + 4`, and the terms of the former
added up in another order. -/
theorem standardForm_reordered_quadratic :
    SumsAgree (threeTerms.map Term.value)
        (Term.sum [⟨.negative, 3, .one⟩, ⟨.positive, 1, .two⟩, ⟨.positive, 2, .one⟩])
        (Term.sum threeTerms) ∧
      Reordered "-3x+x^2+2x".toList "x^2+2x-3x".toList ∧ Reordered "x+4".toList "4+x".toList ∧
      (∃ p, standardForm "x^2+2x-3x=4+x".toList = .ok p ∧
        standardForm "-3x+x^2+2x=x+4".toList = .ok p) ∧
      ∃ p p', standardForm "x^2+2x-3x=4+x".toList = .ok p ∧
        standardForm "-3x+x^2+2x=x+4".toList = .ok p' ∧
          |toReal (p'.ofPower .one) - toReal (p.ofPower .one)| ≤ 2 * ((growth 3 - 1) * 6) := by
  have hperm : [⟨.negative, 3, .one⟩, ⟨.positive, 1, .two⟩, ⟨.positive, 2, .one⟩].Perm
      threeTerms := by decide +kernel
  have he : '=' ∉ "x^2+2x-3x".toList ++ "4+x".toList := by decide +kernel
  have he' : '=' ∉ "-3x+x^2+2x".toList ++ "x+4".toList := by decide +kernel
  have hl : Reordered "-3x+x^2+2x".toList "x^2+2x-3x".toList := by decide +kernel
  have hr : Reordered "x+4".toList "4+x".toList := by decide +kernel
  have hreadl : readSide "x^2+2x-3x".toList = .ok threeTerms := by decide +kernel
  have hreadr : readSide "4+x".toList = .ok twoTerms := by decide +kernel
  have hvalue {k : ℕ} (hk : k < 5) : IsInteger (Float.ofNat k) ∧ toReal (Float.ofNat k) = k := by
    obtain ⟨hf, hv⟩ := isFinite_ofNat_and_toReal_ofNat (n := k) (by omega)
    exact ⟨⟨hf, k, by rw [hv, Int.cast_natCast]⟩, hv⟩
  have h1 : IsInteger 1 ∧ toReal 1 = 1 := by exact_mod_cast hvalue (k := 1) (by norm_num)
  have h2 : IsInteger 2 ∧ toReal 2 = 2 := by exact_mod_cast hvalue (k := 2) (by norm_num)
  have h3 : IsInteger 3 ∧ toReal 3 = 3 := by exact_mod_cast hvalue (k := 3) (by norm_num)
  have h4 : IsInteger 4 ∧ toReal 4 = 4 := by exact_mod_cast hvalue (k := 4) (by norm_num)
  have hsize (n : Exponent) : magnitude threeTerms n + magnitude twoTerms n ≤ 6 := by
    cases n <;> simp [magnitude, threeTerms, twoTerms, h1.2, h2.2, h3.2, h4.2] <;> norm_num
  have hlength (n : Exponent) : (signedValues threeTerms twoTerms n).length ≤ 3 := by
    cases n <;> decide
  have hint : ∀ t ∈ threeTerms ++ twoTerms, IsInteger t.coefficient := by
    simp [threeTerms, twoTerms, h1.1, h2.1, h3.1, h4.1]
  have hadds (n : Exponent) := addsExactly_signedValues hint ((hsize n).trans (by norm_num))
  have hfar : ∀ n, AvoidsOverflow (signedValues threeTerms twoTerms n) := by
    intro n
    obtain ⟨e, hfits⟩ := hadds n
    have hsix : (6 : ℝ) ≤ 2 ^ (3 : ℤ) := by norm_num
    refine avoidsOverflow_of_le (fun x hx => (hfits.isMultiple x hx).isFinite)
      ((hlength n).trans (by norm_num)) ?_
    rw [sum_abs_signedValues]
    exact (hsize n).trans (hsix.trans (zpow_le_zpow_right₀ one_le_two (by norm_num)))
  obtain ⟨hsums, -, hforms⟩ := standardForm_reordered hperm he he' hl hr
  obtain ⟨hexact, havoids, hclose⟩ := hforms _ _ hreadl hreadr
  obtain ⟨p, p', hp, hp'⟩ := havoids hfar
  refine ⟨hsums, hl, hr, hexact hadds, p, p', hp, hp', (hclose p p' hp hp' .one).trans ?_⟩
  have hthree : (signedValues threeTerms twoTerms .one).length = 3 := by decide
  have hgrowth := sub_nonneg.2 (one_le_growth 3)
  rw [hthree]
  linarith [mul_le_mul_of_nonneg_left (hsize .one) hgrowth]

/-- A number near the end of the range, written as a term. -/
def largeTerm (sign : Sign) : Text := sign.symbol :: '1' :: List.replicate 308 '0' ++ ['x']

/-- The order of terms can matter. Next to `9007199254740992` a one is lost, but not after the
large terms have cancelled; and a sum overflows before its terms cancel. So there are equations of
the same terms with different polynomials, and others of which one is refused. -/
theorem standardForm_reordered_rounding :
    (∃ terms terms' : List Term, terms'.Perm terms ∧
        (∀ t ∈ terms, t.coefficient.isFinite = true) ∧ Term.sum terms = 0 ∧ Term.sum terms' = 1) ∧
      Reordered "9007199254740992x-9007199254740992x+x".toList
        "9007199254740992x+x-9007199254740992x".toList ∧
      standardForm "9007199254740992x+x-9007199254740992x=0".toList =
        .ok ⟨-0.0, -0.0, 0, -0.0⟩ ∧
      standardForm "9007199254740992x-9007199254740992x+x=0".toList =
        .ok ⟨-0.0, -0.0, 1, -0.0⟩ ∧
      Reordered (largeTerm .positive ++ largeTerm .negative ++ largeTerm .positive)
        (largeTerm .positive ++ largeTerm .positive ++ largeTerm .negative) ∧
      (∃ equation, standardForm (largeTerm .positive ++ largeTerm .positive ++
        largeTerm .negative ++ ['=', '0']) = .error (.coefficientOverflow equation)) ∧
      standardForm (largeTerm .positive ++ largeTerm .negative ++ largeTerm .positive ++
        ['=', '0']) = .ok ⟨-0.0, -0.0, 1e308, -0.0⟩ := by
  refine ⟨?_, by decide +kernel, by decide +kernel, by decide +kernel, by decide +kernel, ?_,
    by decide +kernel⟩
  · exact ⟨[⟨.positive, 9007199254740992, .one⟩, ⟨.positive, 1, .one⟩,
        ⟨.negative, 9007199254740992, .one⟩],
      [⟨.positive, 9007199254740992, .one⟩, ⟨.negative, 9007199254740992, .one⟩,
        ⟨.positive, 1, .one⟩], by decide +kernel⟩
  · exact ⟨largeTerm .positive ++ largeTerm .positive ++ largeTerm .negative ++ ['=', '0'],
      by decide +kernel⟩

end Equation

end EquationRoots
