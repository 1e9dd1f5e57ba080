import EquationRoots.Proofs.Decimal.ReadBack
import EquationRoots.Proofs.Equation.Reading

/-!
# What is reported about a term

A term is looked at from its sign inwards, and what is found first decides what is reported. The
relations of this module say what that is for each part of a term, without the readers:

- `IsSigned`: a text is a sign and a body; a text without a sign counts as positive.
- `FactorReport`, `PowerReport`: what is reported about the text before the first variable and about
  the text after it.
- `BodyReport`, `TermReport`: what is reported about a body and about a whole term. The text before
  the variable is looked at first, whatever follows the variable.
- `isNumber_iff`: a number stands for the float nearest to its exact value.

Each reader yields what its relation says and nothing else (`read_iff_termReport` is the last of
these equivalences).
-/

set_option autoImplicit false

namespace EquationRoots

namespace Grammar

/-! ## The float of a number -/

/-- Digits with at most one point and at least one digit, with their exact value. -/
inductive IsDecimal : Text → ℝ → Prop
  | whole {digits : Text} (isDigit : ∀ c ∈ digits, c.isDigit = true) (nonempty : digits ≠ []) :
      IsDecimal digits (positionalValue digits)
  | pointed {before after : Text} (isDigit : ∀ c ∈ before ++ after, c.isDigit = true)
      (nonempty : before ++ after ≠ []) :
      IsDecimal (before ++ '.' :: after) (positionalValue (before ++ after) / 10 ^ after.length)

/-- Without a point the value of the literal is that of its digits. -/
theorem toReal_decimalLiteral_nil (digits : Text) :
    (decimalLiteral digits []).toReal = positionalValue digits := by
  simp [Literal.toReal, decimalLiteral]

/-- The float is finite and nearest to the value, ties going to the even one; its sign bit is clear,
also for a zero. -/
structure IsNearestFloat (value : ℝ) (x : Float) : Prop where
  isFinite : x.isFinite = true
  toReal_eq : Binary64.toReal x = Binary64.nearest value
  isSigned : Layout.isSigned x = false

/-- A literal that is read is a number if its float is finite. -/
theorem isNumber_iff_of_ofText? {text : Text} {l : Literal} (h : Literal.ofText? text = some l)
    (x : Float) : IsNumber text x ↔ IsNearestFloat l.toReal x := by
  rw [← magnitude?_eq_some_iff, Term.magnitude?, h, Option.bind_some, Option.ite_none_right_eq_some,
    Option.some.injEq]
  have hround := Binary64.isRounding_toFloat l
  constructor
  · rintro ⟨hfinite, rfl⟩
    exact ⟨hfinite, hround.toReal_eq_of_isFinite hfinite, isSigned_toFloat l⟩
  · rintro ⟨hfinite, hvalue, hsigned⟩
    have hlt : |Binary64.nearest l.toReal| < 2 ^ (1024 : ℤ) := by
      rw [← hvalue]
      exact Binary64.abs_toReal_lt x
    obtain ⟨hfinite', hvalue'⟩ := hround.of_abs_nearest_lt hlt
    exact ⟨hfinite', eq_of_toReal_eq_of_not_isSigned hfinite' hfinite (isSigned_toFloat l) hsigned
      (hvalue'.trans hvalue.symm)⟩

/-- A text is a number exactly when it is a decimal with a finite nearest float, which it stands
for. -/
theorem isNumber_iff (text : Text) (x : Float) :
    IsNumber text x ↔ ∃ value, IsDecimal text value ∧ IsNearestFloat value x := by
  constructor
  · intro h
    cases h with
    | whole isDigit nonempty isFinite =>
      have hnearest := (isNumber_iff_of_ofText? (ofText?_whole isDigit nonempty) _).1
        (.whole isDigit nonempty isFinite)
      rw [toReal_decimalLiteral_nil] at hnearest
      exact ⟨_, .whole isDigit nonempty, hnearest⟩
    | pointed isDigit nonempty isFinite =>
      exact ⟨_, .pointed isDigit nonempty, (isNumber_iff_of_ofText?
        (ofText?_pointed isDigit nonempty) _).1 (.pointed isDigit nonempty isFinite)⟩
  · rintro ⟨value, hdecimal, hnearest⟩
    cases hdecimal with
    | whole isDigit nonempty =>
      rw [← toReal_decimalLiteral_nil] at hnearest
      exact (isNumber_iff_of_ofText? (ofText?_whole isDigit nonempty) x).2 hnearest
    | pointed isDigit nonempty =>
      exact (isNumber_iff_of_ofText? (ofText?_pointed isDigit nonempty) x).2 hnearest

/-! ## Around the variable -/

/-- What is reported about the text before the first variable of the term `raw`. Nothing counts as
one, and a number may have a multiplication sign behind it; a multiplication sign alone needs a
number; any other text is no coefficient. -/
inductive FactorReport (raw : Text) : Text → Except TermError Float → Prop
  | read {before : Text} {x : Float} (factor : IsFactor before x) : FactorReport raw before (.ok x)
  | starAlone : FactorReport raw ['*'] (.error (.malformed raw))
  | invalid {before : Text} (notStar : before ≠ ['*']) (unread : ∀ x, ¬ IsFactor before x) :
      FactorReport raw before (.error (.invalidCoefficient raw))

/-- What is reported about the text after the first variable of the term `raw`. Nothing counts as
the first power, and three powers can be written; digits behind a power sign that are none of them
are an unsupported exponent; any other text is no power. -/
inductive PowerReport (raw : Text) : Text → Except TermError Exponent → Prop
  | read {after : Text} {n : Exponent} (power : IsPower after n) : PowerReport raw after (.ok n)
  | unsupported {digits : Text} (nonempty : digits ≠ []) (isDigit : ∀ c ∈ digits, c.isDigit = true)
      (unread : ∀ n, ¬ IsPower ('^' :: digits) n) :
      PowerReport raw ('^' :: digits) (.error (.unsupportedExponent raw))
  | malformed {after : Text} (unread : ∀ n, ¬ IsPower after n)
      (notDigits : ∀ digits, after = '^' :: digits → digits = [] ∨
        ∃ c ∈ digits, c.isDigit = false) :
      PowerReport raw after (.error (.malformed raw))

theorem factorReport_readCoefficient (raw before : Text) :
    FactorReport raw before (Term.readCoefficient raw before) := by
  cases h : Term.readCoefficient raw before with
  | ok x => exact .read ((readCoefficient_eq_ok_iff raw before x).1 h)
  | error cause =>
    have hunread : ∀ x, ¬ IsFactor before x := by
      intro x hx
      rw [(readCoefficient_eq_ok_iff raw before x).2 hx] at h
      cases h
    unfold Term.readCoefficient at h
    split at h
    · cases h
    · rename_i hne
      split at h
      · rename_i hstar
        cases h
        -- nothing is left without a star, so a star is all there was
        rcases withoutStar_cases before with hs | hs
        · exact absurd (hs ▸ hstar) hne
        · rw [hstar] at hs
          rw [hs]
          exact .starAlone
      · rename_i hstar
        have hcause : cause = .invalidCoefficient raw := by
          unfold Term.readMagnitude at h
          split at h
          · cases h
          · cases h
            rfl
        rw [hcause]
        refine .invalid ?_ hunread
        rintro rfl
        exact hstar rfl

/-- The text before the variable is reported as `FactorReport` says. -/
theorem readCoefficient_iff_factorReport (raw before : Text) (result : Except TermError Float) :
    Term.readCoefficient raw before = result ↔ FactorReport raw before result := by
  have hreport := factorReport_readCoefficient raw before
  constructor
  · rintro rfl
    exact hreport
  · intro h
    cases h with
    | read factor => exact (readCoefficient_eq_ok_iff raw before _).2 factor
    | starAlone => rfl
    | invalid notStar unread =>
      generalize Term.readCoefficient raw before = found at hreport ⊢
      cases hreport with
      | read factor => exact absurd factor (unread _)
      | starAlone => exact absurd rfl notStar
      | invalid => rfl

theorem powerReport_readPower (raw after : Text) :
    PowerReport raw after (Term.readPower raw after) := by
  cases h : Term.readPower raw after with
  | ok n => exact .read ((readPower_eq_ok_iff raw after n).1 h)
  | error cause =>
    have hunread : ∀ n, ¬ IsPower after n := by
      intro n hn
      rw [(readPower_eq_ok_iff raw after n).2 hn] at h
      cases h
    unfold Term.readPower at h
    split at h
    · cases h
    · rename_i digits
      split_ifs at h with h1 h2 h3 hdigits
      · cases h
        -- digits that are no exponent
        exact .unsupported hdigits.1 (List.all_eq_true.1 hdigits.2) hunread
      · cases h
        refine .malformed hunread ?_
        rintro other heq
        obtain rfl : digits = other := (List.cons.inj heq).2
        by_cases hnil : digits = []
        · exact Or.inl hnil
        · right
          simpa [hnil] using hdigits
    · rename_i hcaret
      cases h
      exact .malformed hunread fun digits heq => absurd heq (hcaret digits)

/-- The text after the variable is reported as `PowerReport` says. -/
theorem readPower_iff_powerReport (raw after : Text) (result : Except TermError Exponent) :
    Term.readPower raw after = result ↔ PowerReport raw after result := by
  have hreport := powerReport_readPower raw after
  constructor
  · rintro rfl
    exact hreport
  · intro h
    cases h with
    | read power => exact (readPower_eq_ok_iff raw after _).2 power
    | unsupported nonempty isDigit unread =>
      generalize Term.readPower raw _ = found at hreport ⊢
      cases hreport with
      | read power => exact absurd power (unread _)
      | unsupported => rfl
      | malformed _ notDigits =>
        rcases notDigits _ rfl with hnil | ⟨c, hc, hother⟩
        · exact absurd hnil nonempty
        · rw [isDigit c hc] at hother
          cases hother
    | malformed unread notDigits =>
      generalize Term.readPower raw after = found at hreport ⊢
      cases hreport with
      | read power => exact absurd power (unread _)
      | malformed => rfl
      | unsupported nonempty isDigit =>
        rcases notDigits _ rfl with hnil | ⟨c, hc, hother⟩
        · exact absurd hnil nonempty
        · rw [isDigit c hc] at hother
          cases hother

/-! ## Bodies -/

/-- What is reported about the body of the term `raw`, whose sign is given. There may be nothing but
the sign. Without the variable, a number is a constant and any other text is no coefficient. With
it, what is wrong before the first variable is reported whatever follows, then what is wrong after
it; otherwise both texts around it are read. -/
inductive BodyReport (raw : Text) (sign : Sign) : Text → Except TermError Term → Prop
  | nothing : BodyReport raw sign [] (.error (.malformed raw))
  | constant {body : Text} {x : Float} (noVariable : 'x' ∉ body) (number : IsNumber body x) :
      BodyReport raw sign body (.ok ⟨sign, x, .zero⟩)
  | notNumber {body : Text} (nonempty : body ≠ []) (noVariable : 'x' ∉ body)
      (unread : ∀ x, ¬ IsNumber body x) :
      BodyReport raw sign body (.error (.invalidCoefficient raw))
  | badFactor {before after : Text} {cause : TermError} (first : 'x' ∉ before)
      (factor : FactorReport raw before (.error cause)) :
      BodyReport raw sign (before ++ 'x' :: after) (.error cause)
  | badPower {before after : Text} {x : Float} {cause : TermError} (first : 'x' ∉ before)
      (factor : FactorReport raw before (.ok x)) (power : PowerReport raw after (.error cause)) :
      BodyReport raw sign (before ++ 'x' :: after) (.error cause)
  | withVariable {before after : Text} {x : Float} {n : Exponent} (first : 'x' ∉ before)
      (factor : FactorReport raw before (.ok x)) (power : PowerReport raw after (.ok n)) :
      BodyReport raw sign (before ++ 'x' :: after) (.ok ⟨sign, x, n⟩)

/-- Reading a body that begins with a factor goes on behind the variable. -/
theorem readBody_append (raw : Text) (sign : Sign) {before : Text} (first : 'x' ∉ before)
    (after : Text) :
    Term.readBody raw sign (before ++ 'x' :: after) =
      (Term.readCoefficient raw before).bind fun x =>
        (Term.readPower raw after).map fun n => ⟨sign, x, n⟩ :=
  readBody_of_cutAt_some (by simp) (Text.cutAt_append first after)

/-- A text that is no number is no coefficient. -/
theorem readMagnitude_of_forall_not {raw text : Text} (unread : ∀ x, ¬ IsNumber text x) :
    Term.readMagnitude raw text = .error (.invalidCoefficient raw) := by
  unfold Term.readMagnitude
  split
  · rename_i x hx
    exact absurd ((magnitude?_eq_some_iff text x).1 hx) (unread x)
  · rfl

/-- A reported body is read as reported. -/
theorem readBody_of_bodyReport {raw body : Text} {sign : Sign} {result : Except TermError Term}
    (h : BodyReport raw sign body result) : Term.readBody raw sign body = result := by
  cases h with
  | nothing => rfl
  | constant _ number => exact (readBody_eq_ok_iff raw _ sign _).2 ⟨rfl, .constant number⟩
  | notNumber nonempty noVariable unread =>
    rw [readBody_of_cutAt_none nonempty (Text.cutAt_of_not_mem noVariable),
      readMagnitude_of_forall_not unread]
    rfl
  | badFactor first factor =>
    rw [readBody_append raw sign first, (readCoefficient_iff_factorReport raw _ _).2 factor]
    rfl
  | badPower first factor power =>
    rw [readBody_append raw sign first, (readCoefficient_iff_factorReport raw _ _).2 factor,
      (readPower_iff_powerReport raw _ _).2 power]
    rfl
  | withVariable first factor power =>
    rw [readBody_append raw sign first, (readCoefficient_iff_factorReport raw _ _).2 factor,
      (readPower_iff_powerReport raw _ _).2 power]
    rfl

/-- Every body has a report. -/
theorem exists_bodyReport (raw : Text) (sign : Sign) (body : Text) :
    ∃ result, BodyReport raw sign body result := by
  by_cases hnil : body = []
  · rw [hnil]
    exact ⟨_, .nothing⟩
  · -- the reports follow the reader: the first variable, then what stands around it
    cases hcut : Text.cutAt 'x' body with
    | mk before rest =>
      have hfirst : 'x' ∉ before := by
        have := Text.not_mem_cutAt_fst 'x' body
        rwa [hcut] at this
      cases rest with
      | none =>
        have hvariable := (Text.of_cutAt_none hcut).2
        by_cases hnumber : ∃ x, IsNumber body x
        · obtain ⟨x, hx⟩ := hnumber
          exact ⟨_, .constant hvariable hx⟩
        · exact ⟨_, .notNumber hnil hvariable (not_exists.1 hnumber)⟩
      | some after =>
        rw [Text.eq_of_cutAt_some hcut]
        have hfactor := factorReport_readCoefficient raw before
        have hpower := powerReport_readPower raw after
        cases hx : Term.readCoefficient raw before with
        | error cause => exact ⟨_, .badFactor hfirst (hx ▸ hfactor)⟩
        | ok x =>
          cases hn : Term.readPower raw after with
          | error cause => exact ⟨_, .badPower hfirst (hx ▸ hfactor) (hn ▸ hpower)⟩
          | ok n => exact ⟨_, .withVariable hfirst (hx ▸ hfactor) (hn ▸ hpower)⟩

/-! ## Terms -/

/-- The text is a sign and a body; without a sign in front it is the body of a positive term. -/
inductive IsSigned : Text → Sign → Text → Prop
  | signed (sign : Sign) (body : Text) : IsSigned (sign.symbol :: body) sign body
  | unsigned {body : Text} (unsigned : ∀ (sign : Sign) (rest : Text), body ≠ sign.symbol :: rest) :
      IsSigned body .positive body

/-- What is reported about a term: that it is empty, or what is reported about its body. -/
inductive TermReport : Text → Except TermError Term → Prop
  | empty : TermReport [] (.error .empty)
  | body {raw body : Text} {sign : Sign} {result : Except TermError Term} (nonempty : raw ≠ [])
      (split : IsSigned raw sign body) (report : BodyReport raw sign body result) :
      TermReport raw result

theorem splitSign_of_isSigned {raw body : Text} {sign : Sign} (h : IsSigned raw sign body) :
    Term.splitSign raw = (sign, body) := by
  cases h with
  | signed => exact splitSign_symbol_cons sign body
  | unsigned unsigned =>
    rcases splitSign_cases raw with hs | hs
    · exact hs
    · exact absurd hs (unsigned _ _)

theorem exists_isSigned (raw : Text) : ∃ sign body, IsSigned raw sign body := by
  by_cases h : ∃ (sign : Sign) (rest : Text), raw = sign.symbol :: rest
  · obtain ⟨sign, rest, rfl⟩ := h
    exact ⟨sign, rest, .signed sign rest⟩
  · exact ⟨.positive, raw, .unsigned fun sign rest heq => h ⟨sign, rest, heq⟩⟩

theorem read_of_termReport {raw : Text} {result : Except TermError Term}
    (h : TermReport raw result) : Term.read raw = result := by
  cases h with
  | empty => rfl
  | body nonempty split report =>
    rw [Term.read, if_neg nonempty, splitSign_of_isSigned split]
    exact readBody_of_bodyReport report

theorem exists_termReport (raw : Text) : ∃ result, TermReport raw result := by
  by_cases hnil : raw = []
  · rw [hnil]
    exact ⟨_, .empty⟩
  · obtain ⟨sign, body, hsplit⟩ := exists_isSigned raw
    obtain ⟨result, hreport⟩ := exists_bodyReport raw sign body
    exact ⟨result, .body hnil hsplit hreport⟩

/-- What is reported about a term. Reading yields what is reported and nothing else. The
numbers in a term are the decimals with a finite nearest float, and each stands for that float. -/
theorem read_iff_termReport :
    (∀ raw result, Term.read raw = result ↔ TermReport raw result) ∧
      ∀ text x, IsNumber text x ↔ ∃ value, IsDecimal text value ∧ IsNearestFloat value x := by
  refine ⟨?_, isNumber_iff⟩
  intro raw result
  constructor
  · rintro rfl
    obtain ⟨result, hreport⟩ := exists_termReport raw
    rwa [read_of_termReport hreport]
  · exact read_of_termReport

example :
    Term.read "*x^01".toList = .error (.malformed "*x^01".toList) ∧
      Term.read "-2*x^01".toList = .error (.unsupportedExponent "-2*x^01".toList) := by
  decide

end Grammar

end EquationRoots
