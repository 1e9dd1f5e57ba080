import EquationRoots.Proofs.Equation.Diagnosis
import EquationRoots.Proofs.Equation.TermDiagnosis
import EquationRoots.Proofs.Equation.Written

/-!
# Normal forms of terms

Many texts are read as one term: `x`, `+1x` and `01.0*x^1` all are. What is written for the term is
its normal form. A term is read back from its normal form exactly when its coefficient is a finite
float without a sign of its own, and reading yields no other terms, neither from a text nor from the
segments of an equation, whose right-hand terms change their signs but not their coefficients.

- `isUnsigned_of_isTerm`: the grammar derives terms with such coefficients only.
- `Term.normalForm`: the normal form of a text.
- `Classified.ofSegments_written`: classified terms are classified alike when they are written.
- `Term.normalForm_canonical`: writing and reading invert each other.
-/

set_option autoImplicit false

namespace EquationRoots

namespace Grammar

/-! ## Coefficients that are read -/

/-- A number stands for a finite float without a sign. -/
theorem isUnsigned_of_isNumber {text : Text} {x : Float} (h : IsNumber text x) (sign : Sign)
    (n : Exponent) : (Term.mk sign x n).IsUnsigned := by
  obtain ⟨value, -, hnearest⟩ := (isNumber_iff text x).1 h
  exact ⟨hnearest.isFinite, hnearest.isSigned⟩

/-- So does what may stand before the variable, where nothing counts as one. -/
theorem isUnsigned_of_isFactor {text : Text} {x : Float} (h : IsFactor text x) (sign : Sign)
    (n : Exponent) : (Term.mk sign x n).IsUnsigned := by
  cases h with
  | silent =>
    have hfinite : (1 : Float).isFinite = true := by decide
    have hsigned : Layout.isSigned 1 = false := by decide
    exact ⟨hfinite, hsigned⟩
  | number number => exact isUnsigned_of_isNumber number sign n
  | starred number => exact isUnsigned_of_isNumber number sign n

theorem isUnsigned_of_isBody {text : Text} {x : Float} {n : Exponent} (h : IsBody text x n)
    (sign : Sign) : (Term.mk sign x n).IsUnsigned := by
  cases h with
  | constant number => exact isUnsigned_of_isNumber number sign .zero
  | withVariable isFactor => exact isUnsigned_of_isFactor isFactor sign n

/-- The coefficient of a term of the grammar is finite and has no sign. -/
theorem isUnsigned_of_isTerm {raw : Text} {t : Term} (h : IsTerm raw t) : t.IsUnsigned := by
  cases h with
  | unsigned body => exact isUnsigned_of_isBody body .positive
  | signed sign body => exact isUnsigned_of_isBody body sign

end Grammar

open Grammar

namespace Term

variable {t : Term} {raw : Text}

/-! ## Reading what is written -/

/-- A term without a sign of its own in the coefficient is read from what is written for it. -/
theorem IsUnsigned.read_write (h : t.IsUnsigned) : read t.write = .ok t :=
  (read_eq_ok_iff t.write t).2 (isTerm_write h)

/-- Reading yields a coefficient that is finite and has no sign. -/
theorem isUnsigned_of_read (h : read raw = .ok t) : t.IsUnsigned :=
  isUnsigned_of_isTerm ((read_eq_ok_iff raw t).1 h)

/-- The side of an equation matters to the sign of the term, not to its coefficient. -/
theorem IsUnsigned.balanced (h : t.IsUnsigned) (side : Side) : (t.balanced side).IsUnsigned := by
  refine ⟨?_, ?_⟩
  · rw [coefficient_balanced]
    exact h.isFinite
  · rw [coefficient_balanced]
    exact h.isSigned

/-- The normal form of a text: what is written for the term that it is read as. -/
def normalForm (raw : Text) : Except TermError Text := (read raw).map write

theorem normalForm_of_read (h : read raw = .ok t) : normalForm raw = .ok t.write := by
  rw [normalForm, h]
  rfl

/-- A text has the normal form of a term exactly when it is read as that term. -/
theorem normalForm_eq_write_iff (h : t.IsUnsigned) (raw : Text) :
    normalForm raw = .ok t.write ↔ read raw = .ok t := by
  constructor
  · intro hform
    cases hread : read raw with
    | error cause =>
      rw [normalForm, hread] at hform
      cases hform
    | ok other =>
      -- both terms are read back from one text
      rw [normalForm_of_read hread, Except.ok.injEq] at hform
      have hother := (isUnsigned_of_read hread).read_write
      rw [hform, h.read_write] at hother
      exact hother.symm
  · exact normalForm_of_read

/-- A normal form is its own normal form. -/
theorem normalForm_bind_normalForm (raw : Text) :
    (normalForm raw).bind normalForm = normalForm raw := by
  cases hread : read raw with
  | error cause =>
    rw [normalForm, hread]
    rfl
  | ok t =>
    rw [normalForm_of_read hread]
    exact normalForm_of_read (isUnsigned_of_read hread).read_write

end Term

/-! ## Classified terms -/

namespace Equation

/-- Terms that are read and balanced have coefficients that are finite and have no sign. -/
theorem isUnsigned_of_balancedTerms {side : Side} {raws : List Text} {terms : List Term}
    (h : balancedTerms side raws = .ok terms) : ∀ t ∈ terms, t.IsUnsigned := by
  -- the side changes at the equal sign, so it is general in the induction
  induction raws generalizing side terms with
  | nil =>
    cases h
    exact fun t ht => absurd ht List.not_mem_nil
  | cons raw raws ih =>
    obtain ⟨-, hrest⟩ | ⟨-, t, ts, hread, hrest, rfl⟩ :=
      (balancedTerms_cons_eq_ok_iff side raw raws terms).1 h
    · exact ih hrest
    · rw [List.forall_mem_cons]
      exact ⟨(Term.isUnsigned_of_read hread).balanced side, ih hrest⟩

/-- Written terms are read one by one. -/
theorem balancedTerms_map_write {terms : List Term} (h : ∀ t ∈ terms, t.IsUnsigned) :
    balancedTerms .left (terms.map Term.write) = .ok terms := by
  have hread := mapM_read_of_isTail (isTail_flatMap_write h)
  rw [pieces_flatMap_write h] at hread
  rw [balancedTerms_of_not_mem .left (equalsMark_not_mem_of_mapM_read hread), hread]
  simp [Except.map]

end Equation

namespace Classified

/-- The classified terms as they are written, those with the variable first. -/
def written (c : Classified) : List Text :=
  c.variableTerms.map Term.write ++ c.constantTerms.map Term.write

/-- The terms of a classification are the balanced terms told apart. -/
theorem exists_of_ofSegments {raws : List Text} {c : Classified} (h : ofSegments raws = .ok c) :
    ∃ terms, Equation.balancedTerms .left raws = .ok terms ∧ c = ofTerms terms := by
  unfold ofSegments at h
  cases hterms : Equation.balancedTerms .left raws with
  | error cause =>
    rw [hterms] at h
    cases h
  | ok terms =>
    rw [hterms] at h
    cases h
    exact ⟨terms, rfl, rfl⟩

/-- Terms that are told apart already are told apart alike. -/
theorem ofTerms_append (terms : List Term) :
    ofTerms ((ofTerms terms).variableTerms ++ (ofTerms terms).constantTerms) = ofTerms terms := by
  simp [ofTerms]

/-- Classified terms have coefficients that are finite and have no sign. -/
theorem isUnsigned_of_ofSegments {raws : List Text} {c : Classified} (h : ofSegments raws = .ok c) :
    ∀ t ∈ c.variableTerms ++ c.constantTerms, t.IsUnsigned := by
  obtain ⟨terms, hterms, rfl⟩ := exists_of_ofSegments h
  intro t ht
  apply Equation.isUnsigned_of_balancedTerms hterms
  rcases List.mem_append.1 ht with ht | ht
  · exact (List.mem_filter.1 ht).1
  · exact (List.mem_filter.1 ht).1

/-- Classified terms are classified alike when they are written and read again. -/
theorem ofSegments_written {raws : List Text} {c : Classified} (h : ofSegments raws = .ok c) :
    ofSegments c.written = .ok c := by
  have hunsigned := isUnsigned_of_ofSegments h
  obtain ⟨terms, -, rfl⟩ := exists_of_ofSegments h
  rw [written, ← List.map_append, ofSegments, Equation.balancedTerms_map_write hunsigned]
  exact congrArg Except.ok (ofTerms_append terms)

end Classified

namespace Term

/-- Writing and reading invert each other. A term is read back from what is written for it, bit
by bit, exactly when its coefficient is finite and has no sign. Every term that is read is such a
term, and the texts with its normal form are those that are read as it; a normal form is its own
normal form. The same holds of the terms that the segments of an equation are classified as: each
of them is read back, and so is the classification as a whole. -/
theorem normalForm_canonical :
    (∀ t : Term, read t.write = .ok t ↔ t.IsUnsigned) ∧
      (∀ raw t, read raw = .ok t → t.IsUnsigned ∧ read t.write = .ok t ∧
        ∀ raw', normalForm raw' = .ok t.write ↔ read raw' = .ok t) ∧
      (∀ raw, (normalForm raw).bind normalForm = normalForm raw) ∧
      ∀ raws c, Classified.ofSegments raws = .ok c →
        (∀ t ∈ c.variableTerms ++ c.constantTerms, t.IsUnsigned ∧ read t.write = .ok t) ∧
          Classified.ofSegments c.written = .ok c := by
  refine ⟨?_, ?_, normalForm_bind_normalForm, ?_⟩
  · intro t
    exact ⟨isUnsigned_of_read, IsUnsigned.read_write⟩
  · intro raw t hread
    have hunsigned := isUnsigned_of_read hread
    exact ⟨hunsigned, hunsigned.read_write, normalForm_eq_write_iff hunsigned⟩
  · intro raws c hc
    refine ⟨?_, Classified.ofSegments_written hc⟩
    intro t ht
    have hunsigned := Classified.isUnsigned_of_ofSegments hc t ht
    exact ⟨hunsigned, hunsigned.read_write⟩

/-- The segments of `x + 07.50 = x^2`, with the normal form `+7.5` of the constant. -/
theorem normalForm_canonical_quadratic :
    read "+07.50".toList = .ok ⟨.positive, 7.5, .zero⟩ ∧
      read "+7.5".toList = .ok ⟨.positive, 7.5, .zero⟩ ∧
      Classified.ofSegments ["x".toList, "+07.50".toList, "=".toList, "x^2".toList] =
        .ok ⟨[⟨.positive, 1, .one⟩, ⟨.negative, 1, .two⟩], [⟨.positive, 7.5, .zero⟩]⟩ ∧
      Classified.ofSegments ["+x".toList, "-x^2".toList, "+7.5".toList] =
        .ok ⟨[⟨.positive, 1, .one⟩, ⟨.negative, 1, .two⟩], [⟨.positive, 7.5, .zero⟩]⟩ := by
  have hread : read "+07.50".toList = .ok ⟨.positive, 7.5, .zero⟩ := by decide +kernel
  have hclassified :
      Classified.ofSegments ["x".toList, "+07.50".toList, "=".toList, "x^2".toList] =
        .ok ⟨[⟨.positive, 1, .one⟩, ⟨.negative, 1, .two⟩], [⟨.positive, 7.5, .zero⟩]⟩ := by
    decide +kernel
  have hwrite : write ⟨.positive, 7.5, .zero⟩ = "+7.5".toList := by decide +kernel
  have hwritten : Classified.written
      ⟨[⟨.positive, 1, .one⟩, ⟨.negative, 1, .two⟩], [⟨.positive, 7.5, .zero⟩]⟩ =
        ["+x".toList, "-x^2".toList, "+7.5".toList] := by
    decide +kernel
  obtain ⟨-, hback, -⟩ := normalForm_canonical.2.1 _ _ hread
  obtain ⟨-, hagain⟩ := normalForm_canonical.2.2.2 _ _ hclassified
  rw [hwrite] at hback
  rw [hwritten] at hagain
  exact ⟨hread, hback, hclassified, hagain⟩

end Term

end EquationRoots
