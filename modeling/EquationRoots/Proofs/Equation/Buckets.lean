import EquationRoots.Proofs.Equation.NormalForm

/-!
# Terms in their buckets

Classifying segments and sorting the result by powers puts every term into one of four lists. What
arrives there is said by position: a segment contributes the term that it is read as, with the other
sign if an equal sign stands anywhere before it (`contribution`). One equal sign or several make no
difference, since only the first one changes sides.

- `firstUnreadable_iff`: where reading stops, by position.
- `balancedTerms_eq_ok_iff`: what reading and balancing yields.
- `Classified.ofSegments_buckets`: each list holds the contributions of its power in order, and no
  segment is lost or counted twice.
-/

set_option autoImplicit false

namespace EquationRoots

namespace Equation

/-! ## Which segments are read -/

/-- Every segment is the equal sign or a term. -/
def AllRead (raws : List Text) : Prop :=
  ∀ raw ∈ raws, raw ≠ equalsMark → ∃ t, Term.read raw = .ok t

theorem allRead_cons_iff (raw : Text) (raws : List Text) :
    AllRead (raw :: raws) ↔
      (raw ≠ equalsMark → ∃ t, Term.read raw = .ok t) ∧ AllRead raws :=
  List.forall_mem_cons

/-- The leftmost segment that is no term, by position. -/
theorem firstUnreadable_iff (raws : List Text) (segment : Text) (cause : TermError) :
    FirstUnreadable raws segment cause ↔
      ∃ before after, raws = before ++ segment :: after ∧ AllRead before ∧
        segment ≠ equalsMark ∧ Term.read segment = .error cause := by
  constructor
  · intro h
    induction h with
    | @here segment rest cause notEqual unread =>
      exact ⟨[], rest, rfl, fun _ hmem => absurd hmem List.not_mem_nil, notEqual, unread⟩
    | @later segment other rest cause read first ih =>
      obtain ⟨before, after, rfl, hbefore, hsegment⟩ := ih
      refine ⟨other :: before, after, rfl, ?_, hsegment⟩
      exact (allRead_cons_iff other before).2 ⟨fun hne => read.resolve_left hne, hbefore⟩
  · rintro ⟨before, after, rfl, hbefore, hne, hunread⟩
    induction before with
    | nil => exact .here hne hunread
    | cons other before ih =>
      obtain ⟨hother, hbefore⟩ := (allRead_cons_iff other before).1 hbefore
      exact .later (Classical.or_iff_not_imp_left.2 hother) (ih hbefore)

/-! ## What segments contribute -/

/-- What the segment `raw` at position `i` contributes: nothing if it is the equal sign or no term,
and otherwise the term that it is read as, with the other sign if an equal sign stands before it. -/
def contribution (raws : List Text) (raw : Text) (i : Nat) : Option Term :=
  if raw = equalsMark then none
  else (Term.read raw).toOption.map fun t =>
    { t with sign := if equalsMark ∈ raws.take i then t.sign.flip else t.sign }

/-- What all segments contribute, in order. -/
def contributions (raws : List Text) : List Term :=
  raws.zipIdx.filterMap fun (raw, i) => contribution raws raw i

/-- The side on which a segment stands that comes after the given ones. -/
def sideAfter (before : List Text) : Side := if equalsMark ∈ before then .right else .left

theorem sideAfter_append_equalsMark (before : List Text) :
    sideAfter (before ++ [equalsMark]) = .right := by
  simp [sideAfter]

/-- Only the equal sign changes sides. -/
theorem sideAfter_append_of_ne {raw : Text} (h : raw ≠ equalsMark) (before : List Text) :
    sideAfter (before ++ [raw]) = sideAfter before := by
  simp [sideAfter, Ne.symm h]

theorem contribution_equalsMark (raws : List Text) (i : Nat) :
    contribution raws equalsMark i = none := if_pos rfl

/-- A term contributes itself, balanced for the side on which it stands. -/
theorem contribution_of_read {raw : Text} {t : Term} (h : raw ≠ equalsMark)
    (hread : Term.read raw = .ok t) (before after : List Text) :
    contribution (before ++ after) raw before.length = some (t.balanced (sideAfter before)) := by
  rw [contribution, if_neg h, hread, List.take_left, sideAfter]
  by_cases hmem : equalsMark ∈ before
  · simp [hmem, Except.toOption, Term.negated]
  · simp [hmem, Except.toOption]

/-- Reading and balancing yields what the segments contribute, for segments that come after
others. -/
theorem balancedTerms_sideAfter_eq_ok_iff (before raws : List Text) (terms : List Term) :
    balancedTerms (sideAfter before) raws = .ok terms ↔
      AllRead raws ∧
        terms = (raws.zipIdx before.length).filterMap fun (raw, i) =>
          contribution (before ++ raws) raw i := by
  -- a segment that is done with joins those before it, which decide about the side
  induction raws generalizing before terms with
  | nil => simp [AllRead, eq_comm]
  | cons raw raws ih =>
    have hnext := ih (before ++ [raw])
    simp only [List.append_assoc, List.singleton_append, List.length_append, List.length_singleton]
      at hnext
    rw [List.zipIdx_cons, List.filterMap_cons, allRead_cons_iff, balancedTerms_cons_eq_ok_iff]
    by_cases hraw : raw = equalsMark
    · subst hraw
      rw [sideAfter_append_equalsMark] at hnext
      simp [hnext, contribution_equalsMark]
    · rw [sideAfter_append_of_ne hraw] at hnext
      constructor
      · rintro (⟨heq, -⟩ | ⟨-, t, ts, hread, hrest, rfl⟩)
        · exact absurd heq hraw
        · obtain ⟨hall, rfl⟩ := (hnext ts).1 hrest
          refine ⟨⟨fun _ => ⟨t, hread⟩, hall⟩, ?_⟩
          simp only [contribution_of_read hraw hread]
      · rintro ⟨⟨hfirst, hall⟩, rfl⟩
        obtain ⟨t, hread⟩ := hfirst hraw
        refine Or.inr ⟨hraw, t, _, hread, (hnext _).2 ⟨hall, rfl⟩, ?_⟩
        simp only [contribution_of_read hraw hread]

/-- Reading and balancing yields what the segments contribute. -/
theorem balancedTerms_eq_ok_iff (raws : List Text) (terms : List Term) :
    balancedTerms .left raws = .ok terms ↔ AllRead raws ∧ terms = contributions raws :=
  balancedTerms_sideAfter_eq_ok_iff [] raws terms

/-- Every segment that is no equal sign contributes one term. -/
theorem length_of_balancedTerms {side : Side} {raws : List Text} {terms : List Term}
    (h : balancedTerms side raws = .ok terms) : terms.length = raws.countP (· ≠ equalsMark) := by
  induction raws generalizing side terms with
  | nil =>
    cases h
    rfl
  | cons raw raws ih =>
    obtain ⟨rfl, hrest⟩ | ⟨hraw, t, ts, -, hrest, rfl⟩ :=
      (balancedTerms_cons_eq_ok_iff side raw raws terms).1 h
    · simpa using ih hrest
    · simp [hraw, ih hrest]

end Equation

/-! ## Four lists -/

/-- Every term has one of the four powers. -/
theorem Term.length_filter_exponent (terms : List Term) :
    (terms.filter (·.exponent = .zero)).length + (terms.filter (·.exponent = .one)).length +
        (terms.filter (·.exponent = .two)).length + (terms.filter (·.exponent = .three)).length =
      terms.length := by
  induction terms with
  | nil => rfl
  | cons t terms ih =>
    cases h : t.exponent <;> simp [h] <;> omega

namespace Classified

open Equation

/-- The terms of a power as they arrive in their list: the constants as they are told apart from
the variables, the powers of the variable as those are sorted. -/
def bucket (c : Classified) : Exponent → List Term
  | .zero => c.constantTerms
  | .one => (ByPower.ofTerms c.variableTerms).first
  | .two => (ByPower.ofTerms c.variableTerms).second
  | .three => (ByPower.ofTerms c.variableTerms).third

/-- Telling terms apart and sorting them keeps those of a power in order. -/
theorem bucket_ofTerms (terms : List Term) (n : Exponent) :
    (ofTerms terms).bucket n = terms.filter (·.exponent = n) := by
  cases n with
  | zero => exact filter_not_isVariable terms
  | one => exact filter_exponent_isVariable terms (by decide)
  | two => exact filter_exponent_isVariable terms (by decide)
  | three => exact filter_exponent_isVariable terms (by decide)

theorem ofSegments_eq_ok_iff (raws : List Text) (c : Classified) :
    ofSegments raws = .ok c ↔ AllRead raws ∧ c = ofTerms (contributions raws) := by
  constructor
  · intro h
    obtain ⟨terms, hterms, rfl⟩ := exists_of_ofSegments h
    obtain ⟨hall, rfl⟩ := (balancedTerms_eq_ok_iff raws terms).1 hterms
    exact ⟨hall, rfl⟩
  · rintro ⟨hall, rfl⟩
    rw [ofSegments, (balancedTerms_eq_ok_iff raws _).2 ⟨hall, rfl⟩]
    rfl

theorem ofSegments_eq_error_iff (raws : List Text) (cause : TermError) :
    ofSegments raws = .error cause ↔ balancedTerms .left raws = .error cause := by
  rw [ofSegments]
  cases balancedTerms .left raws <;> simp [Except.map]

/-- Classifying loses, doubles and reorders no term. It succeeds exactly when every segment but
the equal signs is read, and otherwise reports the leftmost segment that is not. The list of each
power then is what the segments of that power contribute, in order: the coefficient that is read,
with the other sign exactly if an equal sign stands before the segment. All lists together have as
many terms as there are segments that are no equal sign. -/
theorem ofSegments_buckets (raws : List Text) :
    ((∃ c, ofSegments raws = .ok c) ↔
        ∀ raw ∈ raws, raw ≠ equalsMark → ∃ t, Term.read raw = .ok t) ∧
      (∀ cause, ofSegments raws = .error cause ↔
        ∃ before raw after, raws = before ++ raw :: after ∧
          (∀ earlier ∈ before, earlier ≠ equalsMark → ∃ t, Term.read earlier = .ok t) ∧
            raw ≠ equalsMark ∧ Term.read raw = .error cause) ∧
      ∀ c, ofSegments raws = .ok c →
        (∀ n, c.bucket n = (contributions raws).filter (·.exponent = n)) ∧
          (c.bucket .zero).length + (c.bucket .one).length + (c.bucket .two).length +
              (c.bucket .three).length = raws.countP (· ≠ equalsMark) := by
  refine ⟨?_, ?_, ?_⟩
  · simp only [ofSegments_eq_ok_iff]
    constructor
    · rintro ⟨_, hall, -⟩
      exact hall
    · intro hall
      exact ⟨_, hall, rfl⟩
  · intro cause
    rw [ofSegments_eq_error_iff, balancedTerms_eq_error_iff]
    simp only [firstUnreadable_iff]
    constructor
    · rintro ⟨raw, before, after, h⟩
      exact ⟨before, raw, after, h⟩
    · rintro ⟨before, raw, after, h⟩
      exact ⟨raw, before, after, h⟩
  · intro c hc
    obtain ⟨hall, rfl⟩ := (ofSegments_eq_ok_iff raws c).1 hc
    -- every term that is read goes to the list of its power and to no other
    refine ⟨bucket_ofTerms _, ?_⟩
    rw [bucket_ofTerms, bucket_ofTerms, bucket_ofTerms, bucket_ofTerms,
      Term.length_filter_exponent]
    exact length_of_balancedTerms ((balancedTerms_eq_ok_iff raws _).2 ⟨hall, rfl⟩)

/-- The segments of `x = -2 = 3x 5`. The second equal sign does not change sides back. -/
theorem ofSegments_buckets_twoEqualSigns :
    ofSegments [['x'], ['='], ['-', '2'], ['='], ['3', 'x'], ['5']] =
        .ok ⟨[⟨.positive, 1, .one⟩, ⟨.negative, 3, .one⟩],
          [⟨.positive, 2, .zero⟩, ⟨.negative, 5, .zero⟩]⟩ ∧
      (contributions [['x'], ['='], ['-', '2'], ['='], ['3', 'x'], ['5']]).filter
          (·.exponent = .zero) = [⟨.positive, 2, .zero⟩, ⟨.negative, 5, .zero⟩] ∧
      [['x'], ['='], ['-', '2'], ['='], ['3', 'x'], ['5']].countP (· ≠ equalsMark) = 4 := by
  have hclassified : ofSegments [['x'], ['='], ['-', '2'], ['='], ['3', 'x'], ['5']] =
      .ok ⟨[⟨.positive, 1, .one⟩, ⟨.negative, 3, .one⟩],
        [⟨.positive, 2, .zero⟩, ⟨.negative, 5, .zero⟩]⟩ := by
    decide +kernel
  obtain ⟨hbucket, hlength⟩ := (ofSegments_buckets _).2.2 _ hclassified
  exact ⟨hclassified, (hbucket .zero).symm, hlength.symm⟩

end Classified

end EquationRoots
