import EquationRoots.Proofs.Equation.Grammar

/-!
# Reading a term

A text is read as a term exactly when the grammar derives it, and the term read is the one that the
grammar gives. There is one such equivalence for each reader.

- `magnitude?_eq_some_iff`: numbers.
- `readCoefficient_eq_ok_iff`, `readPower_eq_ok_iff`: what stands around the variable.
- `readBody_eq_ok_iff`, `read_eq_ok_iff`: terms without and with their signs.
-/

set_option autoImplicit false

namespace EquationRoots

namespace Text

/-! ## Cutting -/

/-- What stands before and after the first occurrence is the whole text. -/
theorem eq_of_cutAt_some {x : Char} {text before after : Text}
    (h : cutAt x text = (before, some after)) : text = before ++ x :: after := by
  -- the text before the cut grows with the text, so it is general in the induction
  induction text generalizing before with
  | nil => cases h
  | cons c rest ih =>
    by_cases hc : c = x
    · subst hc
      rw [cutAt_cons_self] at h
      cases h
      rfl
    · rw [cutAt_cons_of_ne hc, Prod.mk.injEq] at h
      obtain ⟨rfl, hafter⟩ := h
      rw [List.cons_append, ← ih (Prod.ext rfl hafter)]

/-- A text that is not cut does not contain the character. -/
theorem of_cutAt_none {x : Char} {text before : Text} (h : cutAt x text = (before, none)) :
    before = text ∧ x ∉ text := by
  induction text generalizing before with
  | nil =>
    cases h
    exact ⟨rfl, List.not_mem_nil⟩
  | cons c rest ih =>
    by_cases hc : c = x
    · rw [hc, cutAt_cons_self] at h
      cases h
    · rw [cutAt_cons_of_ne hc, Prod.mk.injEq] at h
      obtain ⟨rfl, hnone⟩ := h
      obtain ⟨hbefore, hx⟩ := ih (Prod.ext rfl hnone)
      exact ⟨congrArg (List.cons c) hbefore, by simp [Ne.symm hc, hx]⟩

end Text

namespace Grammar

/-! ## Numbers -/

theorem areDigits_iff (whole fraction : Text) :
    Literal.areDigits whole fraction = true ↔
      (∀ c ∈ whole ++ fraction, c.isDigit = true) ∧ whole ++ fraction ≠ [] := by
  simp only [Literal.areDigits, Bool.and_eq_true, List.all_eq_true, Bool.not_eq_true',
    List.isEmpty_eq_false_iff]

/-- A point is no digit. -/
theorem point_not_mem {text : Text} (h : ∀ c ∈ text, c.isDigit = true) : '.' ∉ text := fun hmem =>
  absurd (h _ hmem) (by decide)

/-- The text of a literal is its digits, with a point between them or without one. -/
theorem of_ofText?_eq_some {text : Text} {l : Literal} (h : Literal.ofText? text = some l) :
    ∃ whole fraction, Literal.areDigits whole fraction = true ∧
      l = decimalLiteral whole fraction ∧
      (text = whole ∧ fraction = [] ∨ text = whole ++ '.' :: fraction) := by
  unfold Literal.ofText? at h
  cases hcut : Text.cutAt '.' text with
  | mk whole rest =>
    simp only [hcut, Option.ite_none_right_eq_some, Option.some.injEq] at h
    obtain ⟨hd, rfl⟩ := h
    rw [ofDigits_eq_decimalLiteral]
    cases rest with
    | none => exact ⟨whole, [], hd, rfl, Or.inl ⟨(Text.of_cutAt_none hcut).1.symm, rfl⟩⟩
    | some fraction => exact ⟨whole, fraction, hd, rfl, Or.inr (Text.eq_of_cutAt_some hcut)⟩

theorem ofText?_whole {digits : Text} (isDigit : ∀ c ∈ digits, c.isDigit = true)
    (nonempty : digits ≠ []) : Literal.ofText? digits = some (decimalLiteral digits []) := by
  have hd : Literal.areDigits digits [] = true := by
    rw [areDigits_iff, List.append_nil]
    exact ⟨isDigit, nonempty⟩
  simp [Literal.ofText?, Text.cutAt_of_not_mem (point_not_mem isDigit), hd,
    ofDigits_eq_decimalLiteral]

theorem ofText?_pointed {before after : Text} (isDigit : ∀ c ∈ before ++ after, c.isDigit = true)
    (nonempty : before ++ after ≠ []) :
    Literal.ofText? (before ++ '.' :: after) = some (decimalLiteral before after) := by
  have hd : Literal.areDigits before after = true := (areDigits_iff before after).2
    ⟨isDigit, nonempty⟩
  have hp : '.' ∉ before := point_not_mem fun c hc => isDigit c (List.mem_append_left _ hc)
  simp [Literal.ofText?, Text.cutAt_append hp, hd, ofDigits_eq_decimalLiteral]

/-- A text is read as a number exactly when it is one. -/
theorem magnitude?_eq_some_iff (text : Text) (x : Float) :
    Term.magnitude? text = some x ↔ IsNumber text x := by
  constructor
  · intro h
    obtain ⟨l, hl, hx⟩ := Option.bind_eq_some_iff.1 h
    rw [Option.ite_none_right_eq_some, Option.some.injEq] at hx
    obtain ⟨hf, rfl⟩ := hx
    obtain ⟨whole, fraction, hd, rfl, htext⟩ := of_ofText?_eq_some hl
    obtain ⟨hdigit, hne⟩ := (areDigits_iff whole fraction).1 hd
    -- without a point there are no digits after it
    rcases htext with ⟨rfl, rfl⟩ | rfl
    · rw [List.append_nil] at hdigit hne
      exact .whole hdigit hne hf
    · exact .pointed hdigit hne hf
  · intro h
    cases h with
    | whole hdigit hne hf => simp [Term.magnitude?, ofText?_whole hdigit hne, hf]
    | pointed hdigit hne hf => simp [Term.magnitude?, ofText?_pointed hdigit hne, hf]

theorem readMagnitude_eq_ok_iff (raw text : Text) (x : Float) :
    Term.readMagnitude raw text = .ok x ↔ IsNumber text x := by
  rw [← magnitude?_eq_some_iff, Term.readMagnitude]
  cases Term.magnitude? text <;> simp

/-! ## Around the variable -/

/-- A text is itself without its star, or it ends in one. -/
theorem withoutStar_cases (text : Text) :
    Term.withoutStar text = text ∨ text = Term.withoutStar text ++ ['*'] := by
  unfold Term.withoutStar
  split
  · rename_i h
    obtain ⟨before, rfl⟩ := List.getLast?_eq_some_iff.1 h
    exact Or.inr (by rw [List.dropLast_concat])
  · exact Or.inl rfl

theorem withoutStar_append_star (text : Text) : Term.withoutStar (text ++ ['*']) = text := by
  simp [Term.withoutStar]

theorem withoutStar_of_isNumber {text : Text} {x : Float} (h : IsNumber text x) :
    Term.withoutStar text = text := by
  refine if_neg fun hlast => ?_
  rcases mem_of_isNumber h (List.mem_of_getLast? hlast) with hd | hp
  · exact absurd hd (by decide)
  · exact absurd hp (by decide)

theorem readCoefficient_of_isNumber (raw : Text) {text number : Text} {x : Float}
    (h : IsNumber number x) (hs : Term.withoutStar text = number) :
    Term.readCoefficient raw text = .ok x := by
  subst hs
  have hne := ne_nil_of_isNumber h
  have htext : text ≠ [] := by
    rintro rfl
    exact hne rfl
  rw [Term.readCoefficient, if_neg htext, if_neg hne, readMagnitude_eq_ok_iff]
  exact h

/-- What stands before the variable is read exactly when it may stand there. -/
theorem readCoefficient_eq_ok_iff (raw text : Text) (x : Float) :
    Term.readCoefficient raw text = .ok x ↔ IsFactor text x := by
  constructor
  · intro h
    unfold Term.readCoefficient at h
    split at h
    · rename_i hnil
      cases h
      rw [hnil]
      exact .silent
    · split at h
      · cases h
      -- a literal is left after the multiplication sign is taken off, if there was one
      · rw [readMagnitude_eq_ok_iff] at h
        rcases withoutStar_cases text with hs | hs
        · exact .number (hs ▸ h)
        · rw [hs]
          exact .starred h
  · intro h
    cases h with
    | silent => rfl
    | number h => exact readCoefficient_of_isNumber raw h (withoutStar_of_isNumber h)
    | starred h => exact readCoefficient_of_isNumber raw h (withoutStar_append_star _)

/-- What stands after the variable is read exactly when it may stand there. -/
theorem readPower_eq_ok_iff (raw text : Text) (n : Exponent) :
    Term.readPower raw text = .ok n ↔ IsPower text n := by
  constructor
  · intro h
    unfold Term.readPower at h
    split at h
    · cases h
      exact .silent
    · rename_i power
      by_cases h1 : power = ['1']
      · rw [if_pos h1] at h
        cases h
        exact h1 ▸ .one
      · by_cases h2 : power = ['2']
        · rw [if_neg h1, if_pos h2] at h
          cases h
          exact h2 ▸ .two
        · by_cases h3 : power = ['3']
          · rw [if_neg h1, if_neg h2, if_pos h3] at h
            cases h
            exact h3 ▸ .three
          · rw [if_neg h1, if_neg h2, if_neg h3] at h
            split at h <;> cases h
    · cases h
  · intro h
    cases h <;> rfl

/-! ## Terms -/

/-- The variable does not stand before itself. -/
theorem variable_not_mem_of_isFactor {text : Text} {x : Float} (h : IsFactor text x) :
    'x' ∉ text := by
  intro hmem
  rcases mem_of_isFactor h hmem with hd | hp | hs
  · exact absurd hd (by decide)
  · exact absurd hp (by decide)
  · exact absurd hs (by decide)

/-- Reading without the variable gives a constant. -/
theorem readBody_of_cutAt_none {raw body before : Text} {sign : Sign} (hne : body ≠ [])
    (h : Text.cutAt 'x' body = (before, none)) :
    Term.readBody raw sign body =
      (Term.readMagnitude raw body).map fun x => ⟨sign, x, .zero⟩ := by
  simp only [Term.readBody, if_neg hne, h]
  cases Term.readMagnitude raw body <;> rfl

/-- Reading with the variable reads what stands around it. -/
theorem readBody_of_cutAt_some {raw body before after : Text} {sign : Sign} (hne : body ≠ [])
    (h : Text.cutAt 'x' body = (before, some after)) :
    Term.readBody raw sign body =
      (Term.readCoefficient raw before).bind fun x =>
        (Term.readPower raw after).map fun n => ⟨sign, x, n⟩ := by
  simp only [Term.readBody, if_neg hne, h]
  cases Term.readCoefficient raw before with
  | error => rfl
  | ok => cases Term.readPower raw after <;> rfl

/-- What follows the sign is read exactly when it is a term without its sign. -/
theorem readBody_eq_ok_iff (raw body : Text) (sign : Sign) (t : Term) :
    Term.readBody raw sign body = .ok t ↔
      t.sign = sign ∧ IsBody body t.coefficient t.exponent := by
  constructor
  · intro h
    have hne : body ≠ [] := by
      rintro rfl
      cases h
    -- the first variable splits the text; the grammar leaves room for no second one
    cases hcut : Text.cutAt 'x' body with
    | mk before rest =>
      cases rest with
      | none =>
        rw [readBody_of_cutAt_none hne hcut] at h
        cases hx : Term.readMagnitude raw body with
        | error cause => rw [hx] at h; cases h
        | ok x =>
          rw [hx] at h
          cases h
          exact ⟨rfl, .constant ((readMagnitude_eq_ok_iff raw body x).1 hx)⟩
      | some after =>
        rw [readBody_of_cutAt_some hne hcut] at h
        cases hx : Term.readCoefficient raw before with
        | error cause => rw [hx] at h; cases h
        | ok x =>
          rw [hx] at h
          cases hn : Term.readPower raw after with
          | error cause =>
            simp only [Except.bind, hn] at h
            cases h
          | ok n =>
            simp only [Except.bind, hn] at h
            cases h
            rw [Text.eq_of_cutAt_some hcut]
            exact ⟨rfl, .withVariable ((readCoefficient_eq_ok_iff raw before x).1 hx)
              ((readPower_eq_ok_iff raw after n).1 hn)⟩
  · rintro ⟨rfl, h⟩
    obtain ⟨sign, x, n⟩ := t
    have hne := ne_nil_of_isBody h
    cases h with
    | constant number =>
      have hx := variable_not_mem_of_isFactor (.number number)
      rw [readBody_of_cutAt_none hne (Text.cutAt_of_not_mem hx),
        (readMagnitude_eq_ok_iff raw body x).2 number]
      rfl
    | @withVariable factor power _ _ isFactor isPower =>
      rw [readBody_of_cutAt_some hne (Text.cutAt_append (variable_not_mem_of_isFactor isFactor) _),
        (readCoefficient_eq_ok_iff raw factor x).2 isFactor]
      simp only [Except.bind, (readPower_eq_ok_iff raw power n).2 isPower]
      rfl

/-- A text is the sign split off and the rest, unless it has no sign. -/
theorem splitSign_cases (text : Text) :
    Term.splitSign text = (.positive, text) ∨
      text = (Term.splitSign text).1.symbol :: (Term.splitSign text).2 := by
  unfold Term.splitSign
  split
  · exact Or.inr rfl
  · exact Or.inr rfl
  · exact Or.inl rfl

theorem splitSign_symbol_cons (sign : Sign) (text : Text) :
    Term.splitSign (sign.symbol :: text) = (sign, text) := by
  cases sign <;> rfl

/-- A text is read as a term exactly when it is one. -/
theorem read_eq_ok_iff (raw : Text) (t : Term) : Term.read raw = .ok t ↔ IsTerm raw t := by
  constructor
  · intro h
    unfold Term.read at h
    split at h
    · cases h
    · obtain ⟨hsign, hbody⟩ := (readBody_eq_ok_iff _ _ _ _).1 h
      obtain ⟨sign, x, n⟩ := t
      -- a text without a sign of its own was read as a positive term
      rcases splitSign_cases raw with hs | hs
      · rw [hs] at hsign hbody
        cases hsign
        exact .unsigned hbody
      · rw [hs, ← hsign]
        exact .signed sign hbody
  · intro h
    cases h with
    | unsigned body =>
      rw [Term.read, if_neg (ne_nil_of_isBody body), splitSign_of_isBody body,
        readBody_eq_ok_iff]
      exact ⟨rfl, body⟩
    | signed sign body =>
      rw [Term.read, if_neg (List.cons_ne_nil _ _), splitSign_symbol_cons, readBody_eq_ok_iff]
      exact ⟨rfl, body⟩

end Grammar

end EquationRoots
