import EquationRoots.Equation.StandardForm
import EquationRoots.Proofs.Binary64.Literals
import EquationRoots.Proofs.Equation.Pieces

/-!
# The language of equations

A text is an equation exactly when the grammar derives it, and then its standard form is the one
that the derived terms give.

- `collect`: the sum of the values of one power, right-hand terms negated.
- `checkShape_of_isEquation`: an equation of the grammar passes the check as a whole.
- `coefficients_ofTerms`: collecting like terms adds the derived values in order.
- `standardForm_language`: which texts are equations, and what they mean.
-/

set_option autoImplicit false

namespace EquationRoots

namespace Equation

open Grammar

/-! ## Like terms -/

/-- The values of the terms of a power in the order of the text, right-hand ones negated. -/
def signedValues (left right : List Term) (n : Exponent) : List Float :=
  (left.filter (·.exponent = n)).map (·.value) ++ (right.filter (·.exponent = n)).map (-·.value)

/-- The sum of the values of a power from left to right, started from `-0.0`. -/
def collect (left right : List Term) (n : Exponent) : Float :=
  (signedValues left right n).foldl (· + ·) (-0.0)

/-- The polynomial of all four sums. -/
def collected (left right : List Term) : Coefficients Float :=
  ⟨collect left right .three, collect left right .two, collect left right .one,
    collect left right .zero⟩

@[simp] theorem value_negated (t : Term) : t.negated.value = -t.value := by
  obtain ⟨sign, x, n⟩ := t
  cases sign
  · rfl
  · exact (Binary64.neg_neg x).symm

/-- The balanced terms of a power add up to its sum over both sides. -/
theorem sum_filter_exponent (left right : List Term) (n : Exponent) :
    Term.sum ((left ++ right.map Term.negated).filter (·.exponent = n)) = collect left right n := by
  rw [collect, signedValues, Term.sum, List.filter_append, List.filter_map, List.foldl_append,
    List.foldl_append, List.foldl_map, List.foldl_map, List.foldl_map]
  simp only [value_negated]
  rfl

/-- Terms of a power of the variable are among the terms with the variable. -/
theorem filter_exponent_isVariable (terms : List Term) {n : Exponent} (hn : n ≠ .zero) :
    (terms.filter Term.isVariable).filter (·.exponent = n) = terms.filter (·.exponent = n) := by
  rw [List.filter_filter]
  refine List.filter_congr fun t _ => ?_
  by_cases h : t.exponent = n
  · simp [Term.isVariable, h, hn]
  · simp [h]

/-- The constants are the terms of power zero. -/
theorem filter_not_isVariable (terms : List Term) :
    terms.filter (fun t => !t.isVariable) = terms.filter (·.exponent = .zero) := by
  refine List.filter_congr fun t _ => ?_
  cases h : t.exponent <;> simp [Term.isVariable, h]

/-- Collecting like terms adds up each power over both sides. -/
theorem coefficients_ofTerms (left right : List Term) :
    (Classified.ofTerms (left ++ right.map Term.negated)).coefficients = collected left right := by
  simp only [Classified.coefficients, Classified.ofTerms, ByPower.ofTerms,
    filter_exponent_isVariable _ (show Exponent.one ≠ .zero by decide),
    filter_exponent_isVariable _ (show Exponent.two ≠ .zero by decide),
    filter_exponent_isVariable _ (show Exponent.three ≠ .zero by decide),
    filter_not_isVariable, sum_filter_exponent, collected]

/-! ## The equation as a whole -/

/-- A doubled sign stays doubled when blank characters go. -/
theorem hasDoubled_withoutBlanks {x : Char} (hx : Text.isBlank x = false) {text : Text}
    (h : Text.hasDoubled x text = true) :
    Text.hasDoubled x (Text.withoutBlanks text) = true := by
  obtain ⟨before, after, rfl⟩ := (Text.hasDoubled_iff x text).1 h
  rw [Text.hasDoubled_iff]
  exact ⟨Text.withoutBlanks before, Text.withoutBlanks after, by simp [Text.withoutBlanks, hx]⟩

/-- The signs that may not be doubled are not blank. -/
theorem isBlank_of_mem_signs {sign : Char} (hs : sign ∈ ['*', '^', '/', 'x']) :
    Text.isBlank sign = false := by
  simp only [List.mem_cons, List.not_mem_nil, or_false] at hs
  rcases hs with rfl | rfl | rfl | rfl <;> rfl

theorem count_withoutBlanks {x : Char} (hx : Text.isBlank x = false) (text : Text) :
    (Text.withoutBlanks text).count x = text.count x :=
  List.count_filter (by simp [hx])

/-- An equation of the grammar passes the check as a whole, however it is spaced. -/
theorem checkShape_of_isEquation {equation : Text} {left right : List Term}
    (h : IsEquation (Text.withoutBlanks equation) left right) : checkShape equation = .ok () := by
  rw [checkShape_eq_ok_iff, ← count_withoutBlanks (x := '=') rfl]
  refine ⟨count_equals_of_isEquation h, fun sign hs => Bool.eq_false_iff.2 fun hd => ?_⟩
  have := hasDoubled_withoutBlanks (isBlank_of_mem_signs hs) hd
  rw [hasDoubled_of_isEquation hs h] at this
  cases this

/-- A text with one equal sign is two sides. -/
theorem exists_sides {text : Text} (h : text.count '=' = 1) :
    ∃ left right, text = left ++ '=' :: right ∧ '=' ∉ left ++ right := by
  obtain ⟨left, right, rfl⟩ := List.append_of_mem (List.count_pos_iff.1 (h ▸ Nat.one_pos))
  refine ⟨left, right, rfl, List.count_eq_zero.1 ?_⟩
  rw [List.count_append, List.count_cons_self] at h
  rw [List.count_append]
  omega

/-- The terms of an equation are read exactly when the grammar derives the text. -/
theorem balancedTerms_segments_eq_ok_iff {equation : Text} (hd : delimiter ∉ equation)
    (he : equation.count '=' = 1) (terms : List Term) :
    balancedTerms .left (segments equation) = .ok terms ↔
      ∃ left right, IsEquation (Text.withoutBlanks equation) left right ∧
        terms = left ++ right.map Term.negated := by
  rw [← count_withoutBlanks (x := '=') rfl] at he
  have hds : delimiter ∉ Text.withoutBlanks equation := fun hm => hd (List.mem_filter.1 hm).1
  obtain ⟨l, r, hs, heq⟩ := exists_sides he
  rw [segments_eq_pieces, hs]
  rw [hs, List.mem_append, List.mem_cons, not_or, not_or] at hds
  have hdlr : delimiter ∉ l ++ r := by
    rw [List.mem_append, not_or]
    exact ⟨hds.1, hds.2.2⟩
  rw [balancedTerms_pieces_eq_ok_iff hdlr heq]
  constructor
  · rintro ⟨left, right, hl, hr, hterms⟩
    exact ⟨left, right, .sides hl hr, hterms⟩
  -- the text has one equal sign, so the grammar cuts it at the same place
  · rintro ⟨left, right, hequation, hterms⟩
    generalize ht : l ++ '=' :: r = text at hequation
    cases hequation with
    | sides hl hr =>
      rw [List.mem_append, not_or] at heq
      have hcut := Text.cutAt_append heq.1 r
      rw [ht, Text.cutAt_append (not_mem_of_isSide hl rfl (by decide))] at hcut
      cases hcut
      exact ⟨left, right, hl, hr, hterms⟩

/-! ## The standard form -/

/-- An equation whose terms are read has their polynomial as its standard form. -/
theorem standardForm_of_balancedTerms {equation : Text} {left right : List Term}
    (hshape : checkShape equation = .ok ())
    (h : balancedTerms .left (segments equation) = .ok (left ++ right.map Term.negated)) :
    standardForm equation = finiteOnly equation (collected left right) := by
  rw [standardForm_of_terms hshape h, coefficients_ofTerms]

/-- Coefficients given for each power are finite when all of them are. -/
theorem isFinite_ofPowers_iff (f : Exponent → Float) :
    (⟨f .three, f .two, f .one, f .zero⟩ : Coefficients Float).isFinite = true ↔
      ∀ n, (f n).isFinite = true := by
  simp only [Coefficients.isFinite, Bool.and_eq_true]
  constructor
  · rintro ⟨⟨⟨h3, h2⟩, h1⟩, h0⟩ (_ | _ | _ | _)
    exacts [h0, h1, h2, h3]
  · exact fun h => ⟨⟨⟨h .three, h .two⟩, h .one⟩, h .zero⟩

theorem isFinite_collected (left right : List Term) :
    (collected left right).isFinite = true ↔ ∀ n, (collect left right n).isFinite = true :=
  isFinite_ofPowers_iff (collect left right)

/-- The polynomial of all four sums is accepted when they are finite, and overflows otherwise. -/
theorem finiteOnly_collected (equation : Text) (left right : List Term) :
    ((∀ n, (collect left right n).isFinite = true) →
        finiteOnly equation (collected left right) = .ok (collected left right)) ∧
      ((∃ n, (collect left right n).isFinite = false) →
        finiteOnly equation (collected left right) = .error (.coefficientOverflow equation)) := by
  constructor
  · intro hfinite
    exact if_pos ((isFinite_collected left right).2 hfinite)
  · rintro ⟨n, hn⟩
    apply if_neg
    intro hfinite
    rw [(isFinite_collected left right).1 hfinite n] at hn
    cases hn

/-- The grammar leaves no room for a delimiter, however the equation is spaced. -/
theorem delimiter_not_mem_of_isEquation {equation : Text} {left right : List Term}
    (h : IsEquation (Text.withoutBlanks equation) left right) : delimiter ∉ equation := by
  intro hm
  have hm' : delimiter ∈ Text.withoutBlanks equation := List.mem_filter.2 ⟨hm, rfl⟩
  generalize Text.withoutBlanks equation = text at h hm'
  cases h with
  | sides hl hr =>
    rcases List.mem_append.1 hm' with hm' | hm'
    · exact not_mem_of_isSide hl rfl (by decide) hm'
    · rcases List.mem_cons.1 hm' with heq | hm'
      · exact absurd heq (by decide)
      · exact not_mem_of_isSide hr rfl (by decide) hm'

/-- The terms of an equation of the grammar are read, right-hand ones with the other sign. -/
theorem balancedTerms_of_isEquation {equation : Text} {left right : List Term}
    (h : IsEquation (Text.withoutBlanks equation) left right) :
    balancedTerms .left (segments equation) = .ok (left ++ right.map Term.negated) := by
  have hcount := ((checkShape_eq_ok_iff equation).1 (checkShape_of_isEquation h)).1
  rw [balancedTerms_segments_eq_ok_iff (delimiter_not_mem_of_isEquation h) hcount]
  exact ⟨left, right, h, rfl⟩

/-- The standard form of an equation of the grammar. -/
theorem standardForm_of_isEquation {equation : Text} {left right : List Term}
    (h : IsEquation (Text.withoutBlanks equation) left right) :
    standardForm equation = finiteOnly equation (collected left right) :=
  standardForm_of_balancedTerms (checkShape_of_isEquation h) (balancedTerms_of_isEquation h)

/-- The only errors of an equation of the grammar are overflows. -/
theorem finiteOnly_ne_error (equation : Text) (p : Coefficients Float) :
    (∀ cause, finiteOnly equation p ≠ .error (.shape cause)) ∧
      ∀ cause, finiteOnly equation p ≠ .error (.term cause) := by
  unfold finiteOnly
  split
  · exact ⟨nofun, nofun⟩
  · exact ⟨nofun, nofun⟩

/-- An equation without shape and term errors is derived by the grammar. -/
theorem exists_isEquation {equation : Text} (hd : delimiter ∉ equation)
    (hshape : ∀ cause, standardForm equation ≠ .error (.shape cause))
    (hterm : ∀ cause, standardForm equation ≠ .error (.term cause)) :
    ∃ left right, IsEquation (Text.withoutBlanks equation) left right := by
  have hs : checkShape equation = .ok () := by
    cases hcheck : checkShape equation with
    | error cause =>
      refine absurd ?_ (hshape cause)
      rw [standardForm, hcheck]
      rfl
    | ok => rfl
  have hcount := ((checkShape_eq_ok_iff equation).1 hs).1
  cases hread : balancedTerms .left (segments equation) with
  | error cause =>
    refine absurd ?_ (hterm cause)
    rw [standardForm, hs, Classified.ofSegments, hread]
    rfl
  | ok terms =>
    obtain ⟨left, right, h, -⟩ := (balancedTerms_segments_eq_ok_iff hd hcount terms).1 hread
    exact ⟨left, right, h⟩

/-- The language of equations and its meaning. A text has neither a shape nor a term error
exactly when the grammar derives it without its blank characters. Then its coefficients are the sums
of the derived values of each power, if all four are finite, and it overflows otherwise. -/
theorem standardForm_language {equation : Text} (h : delimiter ∉ equation) :
    (((∀ cause, standardForm equation ≠ .error (.shape cause)) ∧
          ∀ cause, standardForm equation ≠ .error (.term cause)) ↔
        ∃ left right, IsEquation (Text.withoutBlanks equation) left right) ∧
      ∀ left right, IsEquation (Text.withoutBlanks equation) left right →
        ((∀ n, (collect left right n).isFinite = true) →
            standardForm equation = .ok ⟨collect left right .three, collect left right .two,
              collect left right .one, collect left right .zero⟩) ∧
          ((∃ n, (collect left right n).isFinite = false) →
            standardForm equation = .error (.coefficientOverflow equation)) := by
  refine ⟨⟨fun ⟨hshape, hterm⟩ => exists_isEquation h hshape hterm, ?_⟩, ?_⟩
  · rintro ⟨left, right, hequation⟩
    rw [standardForm_of_isEquation hequation]
    exact finiteOnly_ne_error equation _
  · intro left right hequation
    rw [standardForm_of_isEquation hequation, finiteOnly]
    refine ⟨fun hfinite => if_pos ((isFinite_collected left right).2 hfinite), ?_⟩
    rintro ⟨n, hn⟩
    refine if_neg fun hfinite => ?_
    rw [(isFinite_collected left right).1 hfinite n] at hn
    cases hn

/-- The equation `2 x = .5`, read by the grammar, with its polynomial. -/
theorem standardForm_language_linear :
    delimiter ∉ ['2', ' ', 'x', '=', '.', '5'] ∧
      standardForm ['2', ' ', 'x', '=', '.', '5'] = .ok ⟨-0.0, -0.0, 2, -0.5⟩ := by
  have htwo : IsNumber ['2'] 2 := @IsNumber.whole ['2'] (by simp) (by simp) rfl
  have hhalf : IsNumber ['.', '5'] 0.5 := @IsNumber.pointed [] ['5'] (by simp) (by simp) rfl
  have hequation : IsEquation (Text.withoutBlanks ['2', ' ', 'x', '=', '.', '5'])
      [⟨.positive, 2, .one⟩] [⟨.positive, 0.5, .zero⟩] :=
    .sides (.terms (.unsigned (.withVariable (.number htwo) .silent)) .nil)
      (.terms (.unsigned (.constant hhalf)) .nil)
  have hfinite : ∀ n,
      (collect [⟨.positive, 2, .one⟩] [⟨.positive, 0.5, .zero⟩] n).isFinite = true := by
    rintro (_ | _ | _ | _) <;> rfl
  have hd : delimiter ∉ ['2', ' ', 'x', '=', '.', '5'] := by decide
  exact ⟨hd, ((standardForm_language hd).2 _ _ hequation).1 hfinite⟩

end Equation

end EquationRoots
