import EquationRoots.Proofs.Equation.Buckets
import EquationRoots.Proofs.Equation.Reordering

/-!
# Sums of terms given as texts

Terms that are given as texts are added up in two ways. `Term.sumRead` reads and adds one text after
the other and stops at the first that is no term. An equation goes the long way: its segments are
all read, balanced and sorted by their powers, and the list of each power is added up at the end.

- `Term.foldlM_read`: one pass is reading everything first and then adding, from any total on.
- `Equation.ofSegments_of_not_mem`: without an equal sign, classifying is reading and sorting.
- `Classified.sumRead_classified`: both ways succeed on the same texts, fail for the same reason and
  yield the same sum.
-/

set_option autoImplicit false

namespace EquationRoots

/-! ## One pass -/

/-- Reading and adding in one pass is reading all texts first and adding the values of their
terms then. The first text that is no term ends both. -/
theorem Term.foldlM_read (raws : List Text) (total : Float) :
    raws.foldlM (fun total raw => return total + (← read raw).value) total =
      (raws.mapM read).map fun terms => (terms.map value).foldl (· + ·) total := by
  -- what is read adds to the total that the rest starts from
  induction raws generalizing total with
  | nil => rfl
  | cons raw raws ih =>
    rw [List.foldlM_cons, List.mapM_cons]
    cases read raw with
    | error cause => rfl
    | ok t =>
      refine (ih (total + t.value)).trans ?_
      cases raws.mapM read <;> rfl

theorem Term.sumRead_eq (raws : List Text) : sumRead raws = (raws.mapM read).map sum := by
  rw [sumRead, foldlM_read]
  simp only [← sum_eq_foldl]

namespace Equation

/-! ## Without an equal sign -/

section WithoutEqualSign

variable {raws : List Text} (h : equalsMark ∉ raws)
include h

/-- Texts of which none is the equal sign are read and told apart; no term changes sides. -/
theorem ofSegments_of_not_mem :
    Classified.ofSegments raws = (raws.mapM Term.read).map Classified.ofTerms := by
  rw [Classified.ofSegments, balancedTerms_of_not_mem .left h]
  cases raws.mapM Term.read <;> simp [Except.map]

theorem allRead_iff_of_not_mem : AllRead raws ↔ ∀ raw ∈ raws, ∃ t, Term.read raw = .ok t := by
  constructor
  · intro hall raw hmem
    refine hall raw hmem ?_
    rintro rfl
    exact h hmem
  · intro hall raw hmem _
    exact hall raw hmem

/-- The error is that of the leftmost text that is no term. -/
theorem ofSegments_eq_error_iff_of_not_mem (cause : TermError) :
    Classified.ofSegments raws = .error cause ↔
      ∃ before raw after, raws = before ++ raw :: after ∧
        (∀ earlier ∈ before, ∃ t, Term.read earlier = .ok t) ∧ Term.read raw = .error cause := by
  rw [Classified.ofSegments_eq_error_iff, balancedTerms_eq_error_iff]
  simp only [firstUnreadable_iff]
  constructor
  · rintro ⟨raw, before, after, rfl, hbefore, -, hraw⟩
    rw [List.mem_append, not_or] at h
    exact ⟨before, raw, after, rfl, (allRead_iff_of_not_mem h.1).1 hbefore, hraw⟩
  · rintro ⟨before, raw, after, rfl, hbefore, hraw⟩
    rw [List.mem_append, not_or, List.mem_cons, not_or] at h
    exact ⟨raw, before, after, rfl, (allRead_iff_of_not_mem h.1).2 hbefore, Ne.symm h.2.1, hraw⟩

end WithoutEqualSign

end Equation

namespace Classified

open Equation

/-- Terms that all have the same power are all in the list of that power. -/
theorem bucket_ofTerms_of_forall {terms : List Term} {n : Exponent}
    (h : ∀ t ∈ terms, t.exponent = n) : (ofTerms terms).bucket n = terms := by
  rw [bucket_ofTerms, List.filter_eq_self]
  intro t ht
  exact decide_eq_true (h t ht)

/-- Adding up in one pass agrees with collecting like terms. For texts of which none is the
equal sign, both succeed on the same ones and fail with the same error, that of the first text that
is no term. The sum in one pass is that of all signed coefficients from left to right, starting from
`-0.0`; and if all terms have the same power it is the sum of the list that collects this power. -/
theorem sumRead_classified {raws : List Text} (h : equalsMark ∉ raws) :
    ((∃ total, Term.sumRead raws = .ok total) ↔ ∃ c, ofSegments raws = .ok c) ∧
      (∀ cause, Term.sumRead raws = .error cause ↔ ofSegments raws = .error cause) ∧
      (∀ cause, Term.sumRead raws = .error cause ↔
        ∃ before raw after, raws = before ++ raw :: after ∧
          (∀ earlier ∈ before, ∃ t, Term.read earlier = .ok t) ∧
            Term.read raw = .error cause) ∧
      ∀ total, Term.sumRead raws = .ok total →
        ∃ c terms, ofSegments raws = .ok c ∧
          List.Forall₂ (fun raw t => Term.read raw = .ok t) raws terms ∧
          total = (terms.map Term.value).foldl (· + ·) (-0.0) ∧
          ∀ n, (∀ t ∈ terms, t.exponent = n) → total = Term.sum (c.bucket n) := by
  -- without an equal sign both read the same texts one by one
  have hclassified := ofSegments_of_not_mem h
  have hsum := Term.sumRead_eq raws
  have herror (cause : TermError) :
      Term.sumRead raws = .error cause ↔ ofSegments raws = .error cause := by
    rw [hsum, hclassified]
    cases raws.mapM Term.read <;> simp [Except.map]
  refine ⟨?_, herror, ?_, ?_⟩
  · rw [hsum, hclassified]
    cases raws.mapM Term.read <;> simp [Except.map]
  · intro cause
    rw [herror]
    exact ofSegments_eq_error_iff_of_not_mem h cause
  · intro total htotal
    cases hread : raws.mapM Term.read with
    | error cause =>
      rw [hsum, hread] at htotal
      cases htotal
    | ok terms =>
      rw [hsum, hread] at htotal
      cases htotal
      refine ⟨ofTerms terms, terms, ?_, (mapM_read_eq_ok_iff raws terms).1 hread,
        Term.sum_eq_foldl terms, ?_⟩
      · rw [hclassified, hread]
        rfl
      · intro n hn
        rw [bucket_ofTerms_of_forall hn]

/-- The terms `x`, `4x` and `-2x`. -/
theorem sumRead_classified_linear :
    equalsMark ∉ [['x'], ['4', 'x'], ['-', '2', 'x']] ∧
      Term.sumRead [['x'], ['4', 'x'], ['-', '2', 'x']] = .ok 3 ∧
      ∃ c, ∃ terms : List Term, ofSegments [['x'], ['4', 'x'], ['-', '2', 'x']] = .ok c ∧
        (∀ t ∈ terms, t.exponent = .one) ∧ (terms.map Term.value).foldl (· + ·) (-0.0) = 3 ∧
          Term.sum (c.bucket .one) = 3 := by
  have hmark : equalsMark ∉ [['x'], ['4', 'x'], ['-', '2', 'x']] := by decide
  have hsum : Term.sumRead [['x'], ['4', 'x'], ['-', '2', 'x']] = .ok 3 := by decide +kernel
  obtain ⟨c, terms, hc, hterms, htotal, hbucket⟩ := (sumRead_classified hmark).2.2.2 3 hsum
  have hread : [['x'], ['4', 'x'], ['-', '2', 'x']].mapM Term.read =
      .ok [⟨.positive, 1, .one⟩, ⟨.positive, 4, .one⟩, ⟨.negative, 2, .one⟩] := by decide +kernel
  have hone : ∀ t ∈ terms, t.exponent = .one := by
    rw [← mapM_read_eq_ok_iff, hread] at hterms
    cases hterms
    decide
  exact ⟨hmark, hsum, c, terms, hc, hone, htotal.symm, (hbucket .one hone).symm⟩

end Classified

end EquationRoots
