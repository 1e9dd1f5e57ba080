import EquationRoots.Proofs.Equation.Notation

/-!
# The spacing of an equation

Blank characters do not change what an equation means. The segments do not depend on them, but the
check of the equation as a whole does: it sees a doubled variable in `xx = 1` and none in `x x = 1`.
That difference decides nothing, since two neighbouring characters that are no boundary stay
together in one segment, and no segment with a doubled sign is a term.

- `exists_hasDoubled_segment`: a doubled sign stands within one segment.
- `IsRead`: the equation has one equal sign and its segments are read.
- `IsRead.checkShape`: an equation that is read passes the check as a whole.
- `standardForm_spacing`: spacing matters neither to the polynomial nor to overflow.
-/

set_option autoImplicit false

namespace EquationRoots

/-- Splitting keeps doubled characters together, unless the separator is doubled itself. -/
theorem Text.any_hasDoubled_split {x separator : Char} (h : separator ≠ x) (text : Text) :
    (split separator text).any (hasDoubled x) = hasDoubled x text := by
  by_cases hmem : separator ∈ text
  · -- the first separator keeps what stands before it apart from the rest, which is shorter
    obtain ⟨before, after, rfl, hbefore⟩ := List.eq_append_cons_of_mem hmem
    rw [split_append hbefore, List.any_cons, any_hasDoubled_split h after,
      hasDoubled_append_cons h]
  · rw [split_of_not_mem hmem]
    exact Bool.or_false _
termination_by text.length

namespace Equation

open Grammar

/-! ## Doubled signs within segments -/

/-- The signs that may not be doubled are no boundaries. -/
theorem isPlain_of_mem_signs {sign : Char} (hs : sign ∈ ['*', '^', '/', 'x']) : IsPlain sign := by
  simp only [List.mem_cons, List.not_mem_nil, or_false] at hs
  rcases hs with rfl | rfl | rfl | rfl <;> exact ⟨rfl, by decide⟩

/-- No delimiter is written between two plain characters. -/
theorem hasDoubled_flatMap_delimitChar {x : Char} (hx : IsPlain x) {text : Text}
    (h : Text.hasDoubled x text = true) :
    Text.hasDoubled x (text.flatMap delimitChar) = true := by
  obtain ⟨before, after, rfl⟩ := (Text.hasDoubled_iff x text).1 h
  rw [Text.hasDoubled_iff]
  refine ⟨before.flatMap delimitChar, after.flatMap delimitChar, ?_⟩
  rw [List.flatMap_append, List.flatMap_cons, List.flatMap_cons, delimitChar_of_isPlain hx]
  rfl

/-- A doubled sign of an equation stands within one of its segments. -/
theorem exists_hasDoubled_segment {sign : Char} (hs : sign ∈ ['*', '^', '/', 'x'])
    {equation : Text} (h : Text.hasDoubled sign equation = true) :
    ∃ segment ∈ segments equation, Text.hasDoubled sign segment = true := by
  have hplain := isPlain_of_mem_signs hs
  have htext := hasDoubled_withoutBlanks (isBlank_of_mem_signs hs) h
  have hdelimited := hasDoubled_flatMap_delimitChar hplain htext
  rw [← Text.any_hasDoubled_split hplain.2.symm, List.any_eq_true] at hdelimited
  obtain ⟨piece, hpiece, hdoubled⟩ := hdelimited
  refine ⟨piece, ?_, hdoubled⟩
  rw [segments_eq_pieces]
  -- an empty piece has no doubled sign, so this one is kept
  apply List.mem_filter.2
  refine ⟨hpiece, decide_eq_true ?_⟩
  rintro rfl
  cases hdoubled

/-- What is read has no doubled sign. -/
theorem hasDoubled_of_read {sign : Char} (hs : sign ∈ ['*', '^', '/', 'x']) {raw : Text}
    (h : raw = equalsMark ∨ ∃ t, Term.read raw = .ok t) : Text.hasDoubled sign raw = false := by
  rcases h with rfl | ⟨t, ht⟩
  · rfl
  · exact hasDoubled_of_isTerm hs ((read_eq_ok_iff raw t).1 ht)

/-! ## Equations that are read -/

/-- The equation has one equal sign, and its segments are read as the terms, right-hand ones with
the other sign. -/
structure IsRead (equation : Text) (terms : List Term) : Prop where
  count_equals : equation.count '=' = 1
  balancedTerms_eq : balancedTerms .left (segments equation) = .ok terms

/-- The equation is refused for its shape or for one of its terms. -/
def IsRefused (equation : Text) : Prop :=
  (∃ cause, standardForm equation = .error (.shape cause)) ∨
    ∃ cause, standardForm equation = .error (.term cause)

section IsRead

variable {equation other : Text} {terms : List Term}

/-- An equation that is read passes the check as a whole. -/
theorem IsRead.checkShape (h : IsRead equation terms) : checkShape equation = .ok () := by
  rw [checkShape_eq_ok_iff]
  refine ⟨h.count_equals, ?_⟩
  intro sign hs
  apply Bool.eq_false_iff.2
  intro hdoubled
  obtain ⟨segment, hsegment, hd⟩ := exists_hasDoubled_segment hs hdoubled
  rw [hasDoubled_of_read hs (exists_read_of_balancedTerms h.balancedTerms_eq hsegment)] at hd
  cases hd

/-- Blank characters do not matter to what is read. -/
theorem IsRead.congr (hblanks : Text.withoutBlanks equation = Text.withoutBlanks other)
    (h : IsRead equation terms) : IsRead other terms := by
  refine ⟨?_, ?_⟩
  · rw [← count_withoutBlanks (x := '=') rfl, ← hblanks, count_withoutBlanks (x := '=') rfl]
    exact h.count_equals
  · rw [← segments_withoutBlanks, ← hblanks, segments_withoutBlanks]
    exact h.balancedTerms_eq

/-- An equation that is read collects its terms, and its sums have to be finite. -/
theorem IsRead.standardForm (h : IsRead equation terms) :
    standardForm equation = finiteOnly equation (Classified.ofTerms terms).coefficients :=
  standardForm_of_terms h.checkShape h.balancedTerms_eq

/-- An equation is read, or it is refused, and never both. -/
theorem isRefused_iff (equation : Text) :
    IsRefused equation ↔ ∀ terms, ¬ IsRead equation terms := by
  constructor
  · rintro hrefused terms hread
    obtain ⟨hshape, hterm⟩ :=
      finiteOnly_ne_error equation (Classified.ofTerms terms).coefficients
    rw [← hread.standardForm] at hshape hterm
    rcases hrefused with ⟨cause, hform⟩ | ⟨cause, hform⟩
    · exact hshape cause hform
    · exact hterm cause hform
  · intro hnone
    obtain ⟨cause, -, hform⟩ | ⟨cause, -, -, hform⟩ | ⟨terms, hshape, hterms, -⟩ :=
      standardForm_cases equation
    · exact Or.inl ⟨cause, hform⟩
    · exact Or.inr ⟨cause, hform⟩
    · exact absurd ⟨((checkShape_eq_ok_iff equation).1 hshape).1, hterms⟩ (hnone terms)

/-- An equation with a standard form is read. -/
theorem standardForm_eq_ok_iff (p : Coefficients Float) :
    standardForm equation = .ok p ↔
      p.isFinite = true ∧ ∃ terms, IsRead equation terms ∧
        (Classified.ofTerms terms).coefficients = p := by
  constructor
  · intro h
    obtain ⟨hshape, hfinite, terms, hterms, hp⟩ := exists_terms_of_standardForm h
    exact ⟨hfinite, terms, ⟨((checkShape_eq_ok_iff equation).1 hshape).1, hterms⟩, hp⟩
  · rintro ⟨hfinite, terms, hread, rfl⟩
    rw [hread.standardForm]
    exact if_pos hfinite

/-- An equation that overflows is read, and it is the text that the error carries. -/
theorem standardForm_eq_overflow_iff (text : Text) :
    standardForm equation = .error (.coefficientOverflow text) ↔
      text = equation ∧ ∃ terms, IsRead equation terms ∧
        (Classified.ofTerms terms).coefficients.isFinite = false := by
  constructor
  · intro h
    -- an overflow is no refusal, so the equation is read
    have hnot : ¬ IsRefused equation := by
      rintro (⟨cause, hform⟩ | ⟨cause, hform⟩)
      · rw [hform] at h
        cases h
      · rw [hform] at h
        cases h
    rw [isRefused_iff, not_forall_not] at hnot
    obtain ⟨terms, hread⟩ := hnot
    rw [hread.standardForm] at h
    obtain ⟨-, hok⟩ | ⟨hfinite, herror⟩ :=
      finiteOnly_cases equation (Classified.ofTerms terms).coefficients
    · rw [hok] at h
      cases h
    · rw [herror] at h
      cases h
      exact ⟨rfl, terms, hread, hfinite⟩
  · rintro ⟨rfl, terms, hread, hfinite⟩
    rw [hread.standardForm]
    exact if_neg (Bool.eq_false_iff.1 hfinite)

end IsRead

/-! ## Spacing -/

section Spacing

variable {equation other : Text}
  (hblanks : Text.withoutBlanks equation = Text.withoutBlanks other)

include hblanks

/-- A standard form does not depend on the spacing. -/
theorem standardForm_eq_ok_of_blanks {p : Coefficients Float} (h : standardForm equation = .ok p) :
    standardForm other = .ok p := by
  rw [standardForm_eq_ok_iff] at h ⊢
  obtain ⟨hfinite, terms, hread, hp⟩ := h
  exact ⟨hfinite, terms, hread.congr hblanks, hp⟩

/-- Overflow does not depend on the spacing. -/
theorem standardForm_eq_overflow_of_blanks
    (h : ∃ text, standardForm equation = .error (.coefficientOverflow text)) :
    ∃ text, standardForm other = .error (.coefficientOverflow text) := by
  obtain ⟨text, h⟩ := h
  rw [standardForm_eq_overflow_iff] at h
  obtain ⟨-, terms, hread, hfinite⟩ := h
  refine ⟨other, ?_⟩
  rw [standardForm_eq_overflow_iff]
  exact ⟨rfl, terms, hread.congr hblanks, hfinite⟩

/-- An equation is refused for another spacing if it is refused at all. -/
theorem isRefused_of_blanks (h : IsRefused equation) : IsRefused other := by
  rw [isRefused_iff] at h ⊢
  intro terms hread
  exact h terms (hread.congr hblanks.symm)

/-- Blank characters never change the meaning of an equation. Texts that are equal without their
blank characters have the same polynomial or none, both overflow or neither does, and both are
refused or neither is. -/
theorem standardForm_spacing :
    (∀ p, standardForm equation = .ok p ↔ standardForm other = .ok p) ∧
      ((∃ text, standardForm equation = .error (.coefficientOverflow text)) ↔
        ∃ text, standardForm other = .error (.coefficientOverflow text)) ∧
      (IsRefused equation ↔ IsRefused other) := by
  refine ⟨?_, ?_, ?_⟩
  · intro p
    exact ⟨standardForm_eq_ok_of_blanks hblanks, standardForm_eq_ok_of_blanks hblanks.symm⟩
  · exact ⟨standardForm_eq_overflow_of_blanks hblanks,
      standardForm_eq_overflow_of_blanks hblanks.symm⟩
  · exact ⟨isRefused_of_blanks hblanks, isRefused_of_blanks hblanks.symm⟩

end Spacing

/-- The equation `2 x ^ 2 = 1 8` has the polynomial of `2x^2=18`. -/
theorem standardForm_spacing_quadratic :
    Text.withoutBlanks "2 x ^ 2 = 1 8".toList = Text.withoutBlanks "2x^2=18".toList ∧
      standardForm "2 x ^ 2 = 1 8".toList = .ok ⟨-0.0, 2, -0.0, -18⟩ := by
  have hblanks :
      Text.withoutBlanks "2 x ^ 2 = 1 8".toList = Text.withoutBlanks "2x^2=18".toList := by
    decide +kernel
  have hform : standardForm "2x^2=18".toList = .ok ⟨-0.0, 2, -0.0, -18⟩ := by decide +kernel
  exact ⟨hblanks, ((standardForm_spacing hblanks).1 _).2 hform⟩

example :
    standardForm "xx=1".toList = .error (.shape .doubleVariableSign) ∧
      standardForm "x x=1".toList = .error (.term (.malformed "xx".toList)) := by
  decide +kernel

end Equation

end EquationRoots
