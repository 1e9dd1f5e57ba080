import EquationRoots.Equation.Side
import Mathlib.Algebra.Group.Nat.Defs

/-!
# The grammar of equations

The notation of equations without blank characters, as relations between a text and what it stands
for, apart from how a text is read.

- `positionalValue`: the number that digits stand for, which is what reading them computes
  (`ofDigits_eq_decimalLiteral`).
- `IsNumber`, `IsFactor`, `IsPower`: digits with at most one point, what may stand before the
  variable, and what may stand after it.
- `IsBody`: a term without its sign.
- `IsTail`, `IsSide`, `IsEquation`: terms with explicit signs, a side, and two sides with an equal
  sign between them.
- `mem_of_isBody`, `mem_of_isSide`: which characters occur.
- `count_equals_of_isEquation`, `hasDoubled_of_isEquation`: an equation of the grammar has no defect
  as a whole.
-/

set_option autoImplicit false

namespace EquationRoots

namespace Grammar

/-! ## Digits -/

/-- The value of a digit. -/
def digitValue (c : Char) : Nat := c.toNat - '0'.toNat

/-- The value of digits by their places: a digit with `k` digits behind it counts `10 ^ k` times. -/
def positionalValue : Text → Nat
  | [] => 0
  | c :: rest => digitValue c * 10 ^ rest.length + positionalValue rest

/-- The digits before and after a point as one number with that many places after the point. -/
def decimalLiteral (before after : Text) : Literal :=
  ⟨positionalValue (before ++ after), after.length⟩

/-- Reading digits one by one computes their positional value. -/
theorem ofDigitChars_eq_positionalValue (digits : Text) :
    Nat.ofDigitChars 10 digits 0 = positionalValue digits := by
  induction digits with
  | nil => rfl
  | cons c rest ih =>
    rw [Nat.ofDigitChars_cons, Nat.ofDigitChars_eq_ofDigitChars_zero, ih, positionalValue,
      digitValue, Nat.mul_zero, Nat.zero_add, Nat.mul_comm]

theorem ofDigits_eq_decimalLiteral (before after : Text) :
    Literal.ofDigits before after = decimalLiteral before after := by
  rw [Literal.ofDigits, decimalLiteral, ofDigitChars_eq_positionalValue]

/-! ## Terms -/

/-- A number: digits with at most one point, at least one digit, and a finite nearest float. The
float of a literal is the nearest one (`Binary64.isRounding_toFloat`). -/
inductive IsNumber : Text → Float → Prop
  | whole {digits : Text} (isDigit : ∀ c ∈ digits, c.isDigit = true) (nonempty : digits ≠ [])
      (isFinite : (decimalLiteral digits []).toFloat.isFinite = true) :
      IsNumber digits (decimalLiteral digits []).toFloat
  | pointed {before after : Text} (isDigit : ∀ c ∈ before ++ after, c.isDigit = true)
      (nonempty : before ++ after ≠ [])
      (isFinite : (decimalLiteral before after).toFloat.isFinite = true) :
      IsNumber (before ++ '.' :: after) (decimalLiteral before after).toFloat

/-- What may stand before the variable: nothing, or a number with an optional multiplication
sign. -/
inductive IsFactor : Text → Float → Prop
  | silent : IsFactor [] 1
  | number {text : Text} {x : Float} (number : IsNumber text x) : IsFactor text x
  | starred {text : Text} {x : Float} (number : IsNumber text x) : IsFactor (text ++ ['*']) x

/-- What may stand after the variable: nothing, or one of three powers. -/
inductive IsPower : Text → Exponent → Prop
  | silent : IsPower [] .one
  | one : IsPower ['^', '1'] .one
  | two : IsPower ['^', '2'] .two
  | three : IsPower ['^', '3'] .three

/-- A term without its sign: a number, or the variable with what may stand around it. -/
inductive IsBody : Text → Float → Exponent → Prop
  | constant {text : Text} {x : Float} (number : IsNumber text x) : IsBody text x .zero
  | withVariable {factor power : Text} {x : Float} {n : Exponent} (isFactor : IsFactor factor x)
      (isPower : IsPower power n) : IsBody (factor ++ 'x' :: power) x n

/-- A term with an optional sign. -/
inductive IsTerm : Text → Term → Prop
  | unsigned {text : Text} {x : Float} {n : Exponent} (body : IsBody text x n) :
      IsTerm text ⟨.positive, x, n⟩
  | signed (sign : Sign) {text : Text} {x : Float} {n : Exponent} (body : IsBody text x n) :
      IsTerm (sign.symbol :: text) ⟨sign, x, n⟩

/-! ## Equations -/

/-- Terms that each have an explicit sign. -/
inductive IsTail : Text → List Term → Prop
  | nil : IsTail [] []
  | cons (sign : Sign) {text rest : Text} {x : Float} {n : Exponent} {terms : List Term}
      (body : IsBody text x n) (tail : IsTail rest terms) :
      IsTail (sign.symbol :: (text ++ rest)) (⟨sign, x, n⟩ :: terms)

/-- A side of an equation: nothing, or a term with an optional sign and terms with explicit
signs. -/
inductive IsSide : Text → List Term → Prop
  | empty : IsSide [] []
  | terms {text rest : Text} {first : Term} {terms : List Term} (isTerm : IsTerm text first)
      (tail : IsTail rest terms) : IsSide (text ++ rest) (first :: terms)

/-- An equation: two sides with an equal sign between them. -/
inductive IsEquation : Text → List Term → List Term → Prop
  | sides {left right : Text} {leftTerms rightTerms : List Term} (isLeft : IsSide left leftTerms)
      (isRight : IsSide right rightTerms) :
      IsEquation (left ++ '=' :: right) leftTerms rightTerms

end Grammar

namespace Text

/-! ## Doubled characters -/

/-- A character that stands at most once is not doubled. -/
theorem hasDoubled_of_count_le_one {x : Char} {text : Text} (h : text.count x ≤ 1) :
    hasDoubled x text = false := by
  refine Bool.eq_false_iff.2 fun hd => ?_
  obtain ⟨before, after, rfl⟩ := (hasDoubled_iff x text).1 hd
  rw [List.count_append, List.count_cons_self, List.count_cons_self] at h
  omega

/-- Another character at the front does not matter to doubling. -/
theorem hasDoubled_cons_of_ne {x c : Char} (h : c ≠ x) (text : Text) :
    hasDoubled x (c :: text) = hasDoubled x text := by
  cases text with
  | nil => rfl
  | cons a rest => simp [hasDoubled_cons_cons, h]

/-- Another character in between keeps two texts apart. -/
theorem hasDoubled_append_cons {x c : Char} (h : c ≠ x) (before after : Text) :
    hasDoubled x (before ++ c :: after) = (hasDoubled x before || hasDoubled x after) := by
  -- doubling looks at two neighbours, so one more character of the first text is needed
  induction before with
  | nil => exact hasDoubled_cons_of_ne h after
  | cons a rest ih =>
    cases rest with
    | nil => simp [hasDoubled_cons_cons, h, hasDoubled_cons_of_ne]
    | cons b rest =>
      simp only [List.cons_append] at ih ⊢
      rw [hasDoubled_cons_cons, hasDoubled_cons_cons, ih, Bool.or_assoc]

end Text

namespace Grammar

/-! ## Characters -/

theorem mem_of_isNumber {text : Text} {x : Float} (h : IsNumber text x) {c : Char} (hc : c ∈ text) :
    c.isDigit = true ∨ c = '.' := by
  cases h with
  | whole isDigit => exact Or.inl (isDigit c hc)
  | @pointed before after isDigit =>
    rcases List.mem_append.1 hc with hc | hc
    · exact Or.inl (isDigit c (List.mem_append_left _ hc))
    · rcases List.mem_cons.1 hc with rfl | hc
      · exact Or.inr rfl
      · exact Or.inl (isDigit c (List.mem_append_right _ hc))

theorem ne_nil_of_isNumber {text : Text} {x : Float} (h : IsNumber text x) : text ≠ [] := by
  cases h with
  | whole _ nonempty => exact nonempty
  | pointed => simp

theorem mem_of_isFactor {text : Text} {x : Float} (h : IsFactor text x) {c : Char} (hc : c ∈ text) :
    c.isDigit = true ∨ c = '.' ∨ c = '*' := by
  cases h with
  | silent => cases hc
  | number number => exact (mem_of_isNumber number hc).imp_right Or.inl
  | starred number =>
    rcases List.mem_append.1 hc with hc | hc
    · exact (mem_of_isNumber number hc).imp_right Or.inl
    · exact Or.inr (Or.inr (List.mem_singleton.1 hc))

theorem mem_of_isPower {text : Text} {n : Exponent} (h : IsPower text n) {c : Char}
    (hc : c ∈ text) : c.isDigit = true ∨ c = '^' := by
  cases h with
  | silent => cases hc
  | one | two | three =>
    rcases List.mem_cons.1 hc with rfl | hc
    · exact Or.inr rfl
    · obtain rfl := List.mem_singleton.1 hc
      exact Or.inl rfl

/-- A term without its sign consists of digits and four other characters. -/
theorem mem_of_isBody {text : Text} {x : Float} {n : Exponent} (h : IsBody text x n) {c : Char}
    (hc : c ∈ text) : c.isDigit = true ∨ c ∈ ['.', '*', 'x', '^'] := by
  cases h with
  | constant number =>
    rcases mem_of_isNumber number hc with hd | rfl
    · exact Or.inl hd
    · exact Or.inr (by decide)
  | withVariable isFactor isPower =>
    rcases List.mem_append.1 hc with hc | hc
    · rcases mem_of_isFactor isFactor hc with hd | rfl | rfl
      · exact Or.inl hd
      · exact Or.inr (by decide)
      · exact Or.inr (by decide)
    · rcases List.mem_cons.1 hc with rfl | hc
      · exact Or.inr (by decide)
      · rcases mem_of_isPower isPower hc with hd | rfl
        · exact Or.inl hd
        · exact Or.inr (by decide)

theorem ne_nil_of_isBody {text : Text} {x : Float} {n : Exponent} (h : IsBody text x n) :
    text ≠ [] := by
  cases h with
  | constant number => exact ne_nil_of_isNumber number
  | withVariable => simp

/-- A character that is neither a digit nor one of the four does not occur in a term without its
sign. -/
theorem not_mem_of_isBody {text : Text} {x : Float} {n : Exponent} (h : IsBody text x n) {c : Char}
    (hd : c.isDigit = false) (hc : c ∉ ['.', '*', 'x', '^']) : c ∉ text := by
  intro hmem
  rcases mem_of_isBody h hmem with hd' | hc'
  · rw [hd] at hd'
    cases hd'
  · exact hc hc'

theorem count_of_isNumber {text : Text} {x : Float} (h : IsNumber text x) {c : Char}
    (hd : c.isDigit = false) (hc : c ≠ '.') : text.count c = 0 := by
  refine List.count_eq_zero_of_not_mem fun hmem => ?_
  rcases mem_of_isNumber h hmem with hd' | hc'
  · rw [hd] at hd'
    cases hd'
  · exact hc hc'

/-- The signs that may not be doubled belong to no number. -/
theorem isDigit_of_mem_signs {sign : Char} (hs : sign ∈ ['*', '^', '/', 'x']) :
    sign.isDigit = false ∧ sign ≠ '.' := by
  simp only [List.mem_cons, List.not_mem_nil, or_false] at hs
  rcases hs with rfl | rfl | rfl | rfl <;> decide

/-- The variable and its power leave room for one multiplication sign and for no other sign. -/
theorem count_of_isPower {text : Text} {n : Exponent} (h : IsPower text n) :
    ∀ sign ∈ ['*', '^', '/', 'x'], ['*'].count sign + ('x' :: text).count sign ≤ 1 := by
  simp only [List.forall_mem_cons, List.not_mem_nil, false_implies, implies_true, and_true]
  cases h <;> decide

/-- Each sign that may not be doubled stands at most once in a term. -/
theorem count_le_one_of_isBody {text : Text} {x : Float} {n : Exponent} (h : IsBody text x n) :
    ∀ sign ∈ ['*', '^', '/', 'x'], text.count sign ≤ 1 := by
  intro sign hs
  obtain ⟨hdigit, hpoint⟩ := isDigit_of_mem_signs hs
  cases h with
  | constant number => rw [count_of_isNumber number hdigit hpoint]; exact Nat.zero_le 1
  | @withVariable factor power _ _ isFactor isPower =>
    -- the multiplication sign can only stand before the variable, the power sign only after it
    have hfactor : factor.count sign ≤ ['*'].count sign := by
      cases isFactor with
      | silent => exact Nat.zero_le _
      | number number => rw [count_of_isNumber number hdigit hpoint]; exact Nat.zero_le _
      | starred number =>
        have hnone := count_of_isNumber number hdigit hpoint
        rw [List.count_append]
        omega
    have hpower := count_of_isPower isPower sign hs
    rw [List.count_append]
    omega

/-- A term begins with no sign of its own. -/
theorem splitSign_of_isBody {text : Text} {x : Float} {n : Exponent} (h : IsBody text x n) :
    Term.splitSign text = (.positive, text) := by
  have hplus := not_mem_of_isBody h (c := '+') rfl (by decide)
  have hminus := not_mem_of_isBody h (c := '-') rfl (by decide)
  unfold Term.splitSign
  split
  · simp at hplus
  · simp at hminus
  · rfl

/-! ## Equations as a whole -/

/-- A sign of a term is one of two characters. -/
theorem symbol_mem (sign : Sign) : sign.symbol ∈ ['.', '*', 'x', '^', '+', '-'] := by
  cases sign <;> decide

theorem mem_of_isTerm {text : Text} {t : Term} (h : IsTerm text t) {c : Char} (hc : c ∈ text) :
    c.isDigit = true ∨ c ∈ ['.', '*', 'x', '^', '+', '-'] := by
  cases h with
  | unsigned body =>
    exact (mem_of_isBody body hc).imp_right (List.mem_append_left ['+', '-'])
  | signed sign body =>
    rcases List.mem_cons.1 hc with rfl | hc
    · exact Or.inr (symbol_mem sign)
    · exact (mem_of_isBody body hc).imp_right (List.mem_append_left ['+', '-'])

theorem mem_of_isTail {text : Text} {terms : List Term} (h : IsTail text terms) {c : Char}
    (hc : c ∈ text) : c.isDigit = true ∨ c ∈ ['.', '*', 'x', '^', '+', '-'] := by
  induction h with
  | nil => cases hc
  | cons sign body tail ih =>
    rcases List.mem_append.1 (List.cons_append ▸ hc) with hc | hc
    · exact mem_of_isTerm (.signed sign body) hc
    · exact ih hc

/-- A side consists of digits and six other characters. -/
theorem mem_of_isSide {text : Text} {terms : List Term} (h : IsSide text terms) {c : Char}
    (hc : c ∈ text) : c.isDigit = true ∨ c ∈ ['.', '*', 'x', '^', '+', '-'] := by
  cases h with
  | empty => cases hc
  | terms isTerm tail =>
    rcases List.mem_append.1 hc with hc | hc
    · exact mem_of_isTerm isTerm hc
    · exact mem_of_isTail tail hc

/-- A character that is neither a digit nor one of the six does not occur in a side. -/
theorem not_mem_of_isSide {text : Text} {terms : List Term} (h : IsSide text terms) {c : Char}
    (hd : c.isDigit = false) (hc : c ∉ ['.', '*', 'x', '^', '+', '-']) : c ∉ text := by
  intro hmem
  rcases mem_of_isSide h hmem with hd' | hc'
  · rw [hd] at hd'
    cases hd'
  · exact hc hc'

/-- An equation of the grammar has one equal sign. -/
theorem count_equals_of_isEquation {text : Text} {left right : List Term}
    (h : IsEquation text left right) : text.count '=' = 1 := by
  cases h with
  | sides isLeft isRight =>
    rw [List.count_append, List.count_cons_self,
      List.count_eq_zero_of_not_mem (not_mem_of_isSide isLeft rfl (by decide)),
      List.count_eq_zero_of_not_mem (not_mem_of_isSide isRight rfl (by decide))]

section Doubled

variable {x : Char} (hx : x ∈ ['*', '^', '/', 'x'])

include hx

theorem symbol_ne (sign : Sign) : sign.symbol ≠ x := by
  rintro rfl
  cases sign <;> exact absurd hx (by decide)

theorem hasDoubled_of_isTerm {text : Text} {t : Term} (h : IsTerm text t) :
    Text.hasDoubled x text = false := by
  cases h with
  | unsigned body => exact Text.hasDoubled_of_count_le_one (count_le_one_of_isBody body x hx)
  | signed sign body =>
    rw [Text.hasDoubled_cons_of_ne (symbol_ne hx sign)]
    exact Text.hasDoubled_of_count_le_one (count_le_one_of_isBody body x hx)

/-- The sign in front of the next term keeps two terms apart. -/
theorem hasDoubled_append_of_isTail (text : Text) {rest : Text} {terms : List Term}
    (h : IsTail rest terms) :
    Text.hasDoubled x (text ++ rest) = (Text.hasDoubled x text || Text.hasDoubled x rest) := by
  cases h with
  | nil => simp
  | cons sign =>
    rw [Text.hasDoubled_append_cons (symbol_ne hx sign),
      Text.hasDoubled_cons_of_ne (symbol_ne hx sign)]

theorem hasDoubled_of_isTail {text : Text} {terms : List Term} (h : IsTail text terms) :
    Text.hasDoubled x text = false := by
  -- induction on the terms: the sign in front of each keeps it apart from the next
  induction h with
  | nil => rfl
  | cons sign body tail ih =>
    rw [← List.cons_append, hasDoubled_append_of_isTail hx _ tail, ih,
      hasDoubled_of_isTerm hx (.signed sign body), Bool.or_self]

theorem hasDoubled_of_isSide {text : Text} {terms : List Term} (h : IsSide text terms) :
    Text.hasDoubled x text = false := by
  cases h with
  | empty => rfl
  | terms isTerm tail =>
    rw [hasDoubled_append_of_isTail hx _ tail, hasDoubled_of_isTerm hx isTerm,
      hasDoubled_of_isTail hx tail, Bool.or_self]

/-- An equation of the grammar has no doubled sign. -/
theorem hasDoubled_of_isEquation {text : Text} {left right : List Term}
    (h : IsEquation text left right) : Text.hasDoubled x text = false := by
  have he : '=' ≠ x := by
    rintro rfl
    exact absurd hx (by decide)
  cases h with
  | sides isLeft isRight =>
    rw [Text.hasDoubled_append_cons he, hasDoubled_of_isSide hx isLeft,
      hasDoubled_of_isSide hx isRight, Bool.or_self]

end Doubled

end Grammar

end EquationRoots
