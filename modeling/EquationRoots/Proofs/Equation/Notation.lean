import EquationRoots.Proofs.Equation.Language

/-!
# The characters of an accepted equation

Cutting an equation into segments loses blank characters and delimiters, and nothing else
(`flatten_segments`). All that is left is read: a segment is the equal sign or a term, and a term
has no character outside the notation. So the delimiter is the one character outside the notation
that an accepted equation can contain; it cuts the text as a boundary between terms does.
-/

set_option autoImplicit false

namespace EquationRoots

namespace Equation

open Grammar

/-- The characters that equations are written in. -/
def IsNotation (c : Char) : Prop :=
  c.isDigit = true ∨ c ∈ ['.', 'x', '^', '*', '+', '-', '=']

instance (c : Char) : Decidable (IsNotation c) :=
  inferInstanceAs (Decidable (c.isDigit = true ∨ c ∈ ['.', 'x', '^', '*', '+', '-', '=']))

/-! ## Cutting loses delimiters only -/

/-- Around a character there are delimiters and nothing else. -/
theorem filter_delimitChar (c : Char) :
    (delimitChar c).filter (· != delimiter) = [c].filter (· != delimiter) := by
  have hclose : (closeSegment c).filter (· != delimiter) = [c].filter (· != delimiter) := by
    rw [closeSegment]
    split
    · simp [List.filter_cons]
    · rfl
  rw [delimitChar]
  split
  · simpa using hclose
  · exact hclose

/-- The segments make up the text without its blank characters and delimiters. -/
theorem flatten_segments (equation : Text) :
    (segments equation).flatten =
      (Text.withoutBlanks equation).filter (· != delimiter) := by
  rw [segments_eq_pieces, pieces, List.flatten_filter_ne_nil, Text.flatten_split]
  induction Text.withoutBlanks equation with
  | nil => rfl
  | cons c rest ih =>
    rw [List.flatMap_cons, List.filter_append, ih, filter_delimitChar, ← List.filter_append,
      List.singleton_append]

/-! ## Every segment is read -/

/-- Where all segments are read, each is the equal sign or a term. -/
theorem exists_read_of_balancedTerms {raws : List Text} {side : Side} {terms : List Term}
    (h : balancedTerms side raws = .ok terms) {raw : Text} (hmem : raw ∈ raws) :
    raw = equalsMark ∨ ∃ t, Term.read raw = .ok t := by
  induction raws generalizing side terms with
  | nil => cases hmem
  | cons first rest ih =>
    obtain ⟨hfirst, hrest⟩ | ⟨-, t, ts, hread, hrest, -⟩ :=
      (balancedTerms_cons_eq_ok_iff side first rest terms).1 h
    · rcases List.mem_cons.1 hmem with rfl | hmem
      · exact Or.inl hfirst
      · exact ih hrest hmem
    · rcases List.mem_cons.1 hmem with rfl | hmem
      · exact Or.inr ⟨t, hread⟩
      · exact ih hrest hmem

/-- What is read has no character outside the notation. -/
theorem isNotation_of_read {raw : Text} (h : raw = equalsMark ∨ ∃ t, Term.read raw = .ok t)
    {c : Char} (hc : c ∈ raw) : IsNotation c := by
  rcases h with rfl | ⟨t, ht⟩
  · obtain rfl := List.mem_singleton.1 hc
    decide
  · have hmem := mem_of_isTerm ((read_eq_ok_iff raw t).1 ht) hc
    exact hmem.imp_right fun hc => by
      simp only [List.mem_cons, List.not_mem_nil, or_false] at hc ⊢
      tauto

/-! ## Accepted equations -/

/-- Nothing outside the notation is accepted, the delimiter apart. -/
theorem isNotation_of_standardForm {equation : Text} {p : Coefficients Float}
    (h : standardForm equation = .ok p) {c : Char} (hc : c ∈ equation)
    (hb : Text.isBlank c = false) : IsNotation c ∨ c = delimiter := by
  obtain ⟨-, -, terms, hterms, -⟩ := exists_terms_of_standardForm h
  by_cases hd : c = delimiter
  · exact Or.inr hd
  · have hflat : c ∈ (segments equation).flatten := by
      rw [flatten_segments, Text.withoutBlanks]
      simp [hc, hb, hd]
    obtain ⟨raw, hraw, hcraw⟩ := List.mem_flatten.1 hflat
    exact Or.inl (isNotation_of_read (exists_read_of_balancedTerms hterms hraw) hcraw)

/-- The equation `2;3=x` is accepted with its delimiter, as the equation `2+3=x` is. -/
theorem isNotation_of_standardForm_delimiter :
    standardForm ['2', ';', '3', '=', 'x'] = .ok ⟨-0.0, -0.0, -1, 5⟩ ∧ ¬ IsNotation ';' ∧
      Text.isBlank ';' = false ∧ (IsNotation ';' ∨ ';' = delimiter) := by
  have h : standardForm ['2', ';', '3', '=', 'x'] = .ok ⟨-0.0, -0.0, -1, 5⟩ := by decide +kernel
  exact ⟨h, by decide, rfl, isNotation_of_standardForm h (by decide) rfl⟩

end Equation

end EquationRoots
