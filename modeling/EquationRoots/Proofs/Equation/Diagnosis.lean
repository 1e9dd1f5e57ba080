import EquationRoots.Proofs.Equation.Language
import EquationRoots.Solve

/-!
# What is reported about an equation

An equation is looked at in stages, and the first stage that finds something decides what is
reported. `Diagnosis` says what that is, stage by stage, without the readers:

- the first defect of the equation as a whole, in the order of `shapeDefects`;
- the error of the leftmost segment that is no term, which carries that whole segment;
- an overflow, which carries the equation as it was given;
- the polynomial of the collected terms.

Since no segment is empty, the error about an empty term is never reported.
-/

set_option autoImplicit false

namespace EquationRoots

/-- A character is doubled exactly when the two of them stand in the text. -/
theorem Text.hasDoubled_iff_infix (x : Char) (text : Text) :
    hasDoubled x text = true ↔ [x, x] <:+: text := by
  rw [hasDoubled_iff]
  constructor
  · rintro ⟨before, after, rfl⟩
    exact ⟨before, after, by simp⟩
  · rintro ⟨before, after, rfl⟩
    exact ⟨before, after, by simp⟩

namespace Equation

/-! ## Defects of the equation as a whole -/

/-- The defects that an equation can have as a whole, each with the texts that have it, in the order
in which they are looked for. -/
def shapeDefects : List (ShapeError × (Text → Prop)) :=
  [(.noEqualSign, fun text => '=' ∉ text),
    (.doubleMultiplySign, fun text => ['*', '*'] <:+: text),
    (.doublePowerSign, fun text => ['^', '^'] <:+: text),
    (.doubleDivisionSign, fun text => ['/', '/'] <:+: text),
    (.doubleVariableSign, fun text => ['x', 'x'] <:+: text),
    (.multipleEqualSigns, fun text => 1 < text.count '=')]

/-- The error is that of the first defect of the list that the text has. -/
inductive FirstDefect (text : Text) : List (ShapeError × (Text → Prop)) → ShapeError → Prop
  | here {cause : ShapeError} {has : Text → Prop} {rest : List (ShapeError × (Text → Prop))}
      (present : has text) : FirstDefect text ((cause, has) :: rest) cause
  | later {cause other : ShapeError} {has : Text → Prop}
      {rest : List (ShapeError × (Text → Prop))} (absent : ¬ has text)
      (first : FirstDefect text rest cause) : FirstDefect text ((other, has) :: rest) cause

/-- There is a first defect exactly when there is a defect. -/
theorem exists_firstDefect_iff (text : Text) (defects : List (ShapeError × (Text → Prop))) :
    (∃ cause, FirstDefect text defects cause) ↔ ∃ defect ∈ defects, defect.2 text := by
  induction defects with
  | nil =>
    constructor
    · rintro ⟨cause, h⟩
      cases h
    · rintro ⟨defect, hmem, -⟩
      cases hmem
  | cons defect defects ih =>
    constructor
    · rintro ⟨cause, h⟩
      cases h with
      | here present => exact ⟨_, List.mem_cons_self, present⟩
      | later absent first =>
        obtain ⟨other, hmem, hother⟩ := ih.1 ⟨cause, first⟩
        exact ⟨other, List.mem_cons_of_mem _ hmem, hother⟩
    · rintro ⟨other, hmem, hother⟩
      by_cases hfirst : defect.2 text
      · exact ⟨defect.1, .here hfirst⟩
      · rcases List.mem_cons.1 hmem with rfl | hmem
        · exact absurd hother hfirst
        · obtain ⟨cause, first⟩ := ih.2 ⟨other, hmem, hother⟩
          exact ⟨cause, .later hfirst first⟩

/-- One check before others looks for one defect before others. -/
theorem ite_eq_error_iff {text : Text} {cause other : ShapeError} {has : Text → Prop}
    {rest : List (ShapeError × (Text → Prop))} {check : Prop} [Decidable check]
    {result : Except ShapeError Unit} (hcheck : check ↔ has text)
    (hrest : result = .error cause ↔ FirstDefect text rest cause) :
    (if check then .error other else result) = .error cause ↔
      FirstDefect text ((other, has) :: rest) cause := by
  by_cases h : check
  · rw [if_pos h]
    constructor
    · intro heq
      cases heq
      exact .here (hcheck.1 h)
    · intro hfirst
      cases hfirst with
      | here => rfl
      | later absent => exact absurd (hcheck.1 h) absent
  · rw [if_neg h, hrest]
    constructor
    · intro hfirst
      exact .later (fun hhas => h (hcheck.2 hhas)) hfirst
    · intro hfirst
      cases hfirst with
      | here present => exact absurd (hcheck.2 present) h
      | later absent first => exact first

/-- The check reports the first defect. -/
theorem checkShape_eq_error_iff (equation : Text) (cause : ShapeError) :
    checkShape equation = .error cause ↔ FirstDefect equation shapeDefects cause := by
  unfold checkShape shapeDefects
  refine ite_eq_error_iff Iff.rfl ?_
  refine ite_eq_error_iff (Text.hasDoubled_iff_infix '*' equation) ?_
  refine ite_eq_error_iff (Text.hasDoubled_iff_infix '^' equation) ?_
  refine ite_eq_error_iff (Text.hasDoubled_iff_infix '/' equation) ?_
  refine ite_eq_error_iff (Text.hasDoubled_iff_infix 'x' equation) ?_
  refine ite_eq_error_iff Iff.rfl ?_
  constructor
  · intro h
    cases h
  · intro h
    cases h

/-- The check passes when there is no defect. -/
theorem checkShape_eq_ok_iff_forall (equation : Text) :
    checkShape equation = .ok () ↔ ∀ defect ∈ shapeDefects, ¬ defect.2 equation := by
  have hdefect := exists_firstDefect_iff equation shapeDefects
  constructor
  · intro hok defect hmem hhas
    obtain ⟨cause, hfirst⟩ := hdefect.2 ⟨defect, hmem, hhas⟩
    rw [(checkShape_eq_error_iff equation cause).2 hfirst] at hok
    cases hok
  · intro hnone
    cases hcheck : checkShape equation with
    | ok => rfl
    | error cause =>
      have hfirst := (checkShape_eq_error_iff equation cause).1 hcheck
      obtain ⟨defect, hmem, hhas⟩ := hdefect.1 ⟨cause, hfirst⟩
      exact absurd hhas (hnone defect hmem)

end Equation

/-! ## Errors of terms carry the term -/

/-- The text that a term error carries; the error about an empty text carries none. -/
def TermError.term? : TermError → Option Text
  | .empty => none
  | .invalidCoefficient term | .unsupportedExponent term | .malformed term => some term

/-- If the result is an error, it carries the text. -/
def Carries {α : Type} (raw : Text) (result : Except TermError α) : Prop :=
  ∀ cause, result = .error cause → cause.term? = some raw

namespace Carries

variable {α β : Type} {raw : Text}

theorem ok (x : α) : Carries raw (.ok x) := by
  intro cause h
  cases h

theorem error {cause : TermError} (h : cause.term? = some raw) :
    Carries raw (.error cause : Except TermError α) := by
  intro other hother
  cases hother
  exact h

/-- Readers that carry the text do so one after the other. -/
theorem bind {result : Except TermError α} {next : α → Except TermError β}
    (h : Carries raw result) (hnext : ∀ x, Carries raw (next x)) :
    Carries raw (result >>= next) := by
  cases result with
  | error cause => exact error (h cause rfl)
  | ok x => exact hnext x

end Carries

namespace Term

variable (raw : Text)

theorem carries_readMagnitude (text : Text) : Carries raw (readMagnitude raw text) := by
  unfold readMagnitude
  split
  · exact .ok _
  · exact .error rfl

theorem carries_readCoefficient (text : Text) : Carries raw (readCoefficient raw text) := by
  unfold readCoefficient
  split
  · exact .ok _
  · split
    · exact .error rfl
    · exact carries_readMagnitude raw _

theorem carries_readPower (text : Text) : Carries raw (readPower raw text) := by
  unfold readPower
  split
  · exact .ok _
  · split_ifs
    · exact .ok _
    · exact .ok _
    · exact .ok _
    · exact .error rfl
    · exact .error rfl
  · exact .error rfl

theorem carries_readBody (sign : Sign) (body : Text) : Carries raw (readBody raw sign body) := by
  unfold readBody
  split
  · exact .error rfl
  · split
    · apply Carries.bind (carries_readMagnitude raw body)
      intro x
      exact .ok _
    · apply Carries.bind (carries_readCoefficient raw _)
      intro x
      apply Carries.bind (carries_readPower raw _)
      intro n
      exact .ok _

variable {raw}

/-- The error of a text that is not empty carries the whole text. -/
theorem carries_read (h : raw ≠ []) : Carries raw (read raw) := by
  rw [read, if_neg h]
  exact carries_readBody raw _ _

end Term

namespace Equation

open Grammar

/-! ## The leftmost segment that is no term -/

/-- The segment is the leftmost one that is neither the equal sign nor a term, and the error is that
of reading it. -/
inductive FirstUnreadable : List Text → Text → TermError → Prop
  | here {segment : Text} {rest : List Text} {cause : TermError} (notEqual : segment ≠ equalsMark)
      (unread : Term.read segment = .error cause) :
      FirstUnreadable (segment :: rest) segment cause
  | later {segment other : Text} {rest : List Text} {cause : TermError}
      (read : other = equalsMark ∨ ∃ t, Term.read other = .ok t)
      (first : FirstUnreadable rest segment cause) : FirstUnreadable (other :: rest) segment cause

theorem FirstUnreadable.mem {raws : List Text} {segment : Text} {cause : TermError}
    (h : FirstUnreadable raws segment cause) : segment ∈ raws := by
  induction h with
  | here => exact List.mem_cons_self
  | later _ _ ih => exact List.mem_cons_of_mem _ ih

theorem FirstUnreadable.read {raws : List Text} {segment : Text} {cause : TermError}
    (h : FirstUnreadable raws segment cause) : Term.read segment = .error cause := by
  induction h with
  | here _ unread => exact unread
  | later _ _ ih => exact ih

/-- Reading stops at the leftmost segment that is no term. -/
theorem balancedTerms_eq_error_iff (side : Side) (raws : List Text) (cause : TermError) :
    balancedTerms side raws = .error cause ↔ ∃ segment, FirstUnreadable raws segment cause := by
  -- the side changes at the equal sign, so it is general in the induction
  induction raws generalizing side with
  | nil =>
    constructor
    · intro h
      cases h
    · rintro ⟨segment, h⟩
      cases h
  | cons raw raws ih =>
    by_cases hraw : raw = equalsMark
    · rw [hraw, balancedTerms_equalsMark, ih .right]
      constructor
      · rintro ⟨segment, first⟩
        exact ⟨segment, .later (Or.inl rfl) first⟩
      · rintro ⟨segment, h⟩
        cases h with
        | here notEqual => exact absurd rfl notEqual
        | later _ first => exact ⟨segment, first⟩
    · cases hread : Term.read raw with
      | error other =>
        rw [balancedTerms_of_error hraw hread]
        constructor
        · intro h
          cases h
          exact ⟨raw, .here hraw hread⟩
        · rintro ⟨segment, h⟩
          cases h with
          | here _ unread =>
            rw [hread] at unread
            cases unread
            rfl
          | later read first =>
            rcases read with heq | ⟨t, ht⟩
            · exact absurd heq hraw
            · rw [hread] at ht
              cases ht
      | ok t =>
        have hmap : balancedTerms side (raw :: raws) = .error cause ↔
            balancedTerms side raws = .error cause := by
          rw [balancedTerms_of_read hraw hread]
          cases balancedTerms side raws <;> simp [Except.map]
        rw [hmap, ih side]
        constructor
        · rintro ⟨segment, first⟩
          exact ⟨segment, .later (Or.inr ⟨t, hread⟩) first⟩
        · rintro ⟨segment, h⟩
          cases h with
          | here _ unread =>
            rw [hread] at unread
            cases unread
          | later _ first => exact ⟨segment, first⟩

/-! ## The terms of both sides -/

/-- The segments on both sides of the equal sign are read as the terms. -/
def SidesRead (equation : Text) (left right : List Term) : Prop :=
  ∃ leftSegments rightSegments, segments equation = leftSegments ++ equalsMark :: rightSegments ∧
    leftSegments.mapM Term.read = .ok left ∧ rightSegments.mapM Term.read = .ok right

/-- The equal sign is no term. -/
theorem equalsMark_not_mem_of_mapM_read {raws : List Text} {terms : List Term}
    (h : raws.mapM Term.read = .ok terms) : equalsMark ∉ raws := by
  induction raws generalizing terms with
  | nil => exact List.not_mem_nil
  | cons raw raws ih =>
    obtain ⟨t, rest, ht, hrest, -⟩ := (mapM_read_cons_eq_ok_iff raw raws terms).1 h
    intro hmem
    rcases List.mem_cons.1 hmem with rfl | hmem
    · cases ht
    · exact ih hrest hmem

/-- The terms of both sides are balanced one side after the other. -/
theorem SidesRead.balancedTerms_eq {equation : Text} {left right : List Term}
    (h : SidesRead equation left right) :
    balancedTerms .left (segments equation) = .ok (left ++ right.map Term.negated) := by
  obtain ⟨leftSegments, rightSegments, hsegments, hleft, hright⟩ := h
  rw [hsegments,
    balancedTerms_append_equalsMark .left (equalsMark_not_mem_of_mapM_read hleft),
    balancedTerms_of_not_mem .left (equalsMark_not_mem_of_mapM_read hleft),
    balancedTerms_of_not_mem .right (equalsMark_not_mem_of_mapM_read hright), hleft, hright]
  simp [Except.map, Except.bind]

/-- Terms that are read and balanced are those of the two sides. -/
theorem exists_sidesRead {equation : Text} {terms : List Term} (hcount : equation.count '=' = 1)
    (h : balancedTerms .left (segments equation) = .ok terms) :
    ∃ left right, SidesRead equation left right ∧ terms = left ++ right.map Term.negated := by
  rw [← count_withoutBlanks (x := '=') rfl] at hcount
  obtain ⟨l, r, hsides, hnone⟩ := exists_sides hcount
  have hsegments : segments equation = pieces l ++ equalsMark :: pieces r := by
    rw [segments_eq_pieces, hsides, pieces_append l (atBoundary_cons rfl r), pieces_equals_cons]
  rw [segments_eq_pieces, hsides, balancedTerms_pieces hnone] at h
  cases hleft : (pieces l).mapM Term.read with
  | error cause =>
    rw [hleft] at h
    cases h
  | ok left =>
    cases hright : (pieces r).mapM Term.read with
    | error cause =>
      rw [hleft, hright] at h
      cases h
    | ok right =>
      rw [hleft, hright] at h
      cases h
      exact ⟨left, right, ⟨pieces l, pieces r, hsegments, hleft, hright⟩, rfl⟩

/-! ## The diagnosis -/

/-- What is reported about an equation: the first of four findings that applies. It has a defect as
a whole, and the first one is reported; some segment is no term, and the leftmost one is reported
with the whole of its text; some power has a sum that is not finite, and the equation is reported as
it was given; or the sums of all powers are finite, and the equation is accepted with them. -/
inductive Diagnosis (equation : Text) : Except Error (Coefficients Float) → Prop
  | shape {cause : ShapeError} (first : FirstDefect equation shapeDefects cause) :
      Diagnosis equation (.error (.shape cause))
  | term {segment : Text} {cause : TermError}
      (sound : ∀ defect ∈ shapeDefects, ¬ defect.2 equation)
      (first : FirstUnreadable (segments equation) segment cause)
      (carries : cause.term? = some segment) : Diagnosis equation (.error (.term cause))
  | overflow {left right : List Term} (sound : ∀ defect ∈ shapeDefects, ¬ defect.2 equation)
      (read : SidesRead equation left right)
      (notFinite : ∃ n, (collect left right n).isFinite = false) :
      Diagnosis equation (.error (.coefficientOverflow equation))
  | accepted {left right : List Term} (sound : ∀ defect ∈ shapeDefects, ¬ defect.2 equation)
      (read : SidesRead equation left right)
      (finite : ∀ n, (collect left right n).isFinite = true) :
      Diagnosis equation (.ok ⟨collect left right .three, collect left right .two,
        collect left right .one, collect left right .zero⟩)

/-- The sums of an equation whose sides are read have to be finite. -/
theorem SidesRead.standardForm_eq {equation : Text} {left right : List Term}
    (h : SidesRead equation left right)
    (sound : ∀ defect ∈ shapeDefects, ¬ defect.2 equation) :
    standardForm equation = finiteOnly equation (collected left right) :=
  standardForm_of_balancedTerms ((checkShape_eq_ok_iff_forall equation).2 sound) h.balancedTerms_eq

/-- What is found is the diagnosis. -/
theorem diagnosis_standardForm (equation : Text) : Diagnosis equation (standardForm equation) := by
  obtain ⟨cause, hshape, hform⟩ | ⟨cause, hshape, hterms, hform⟩ | ⟨terms, hshape, hterms, -⟩ :=
    standardForm_cases equation
  · rw [hform]
    exact .shape ((checkShape_eq_error_iff equation cause).1 hshape)
  · rw [hform]
    obtain ⟨segment, first⟩ := (balancedTerms_eq_error_iff .left _ cause).1 hterms
    have hne := ne_nil_of_mem_segments first.mem
    exact .term ((checkShape_eq_ok_iff_forall equation).1 hshape) first
      (Term.carries_read hne cause first.read)
  · have hsound := (checkShape_eq_ok_iff_forall equation).1 hshape
    obtain ⟨left, right, hread, -⟩ :=
      exists_sidesRead ((checkShape_eq_ok_iff equation).1 hshape).1 hterms
    obtain ⟨haccepted, hoverflow⟩ := finiteOnly_collected equation left right
    rw [hread.standardForm_eq hsound]
    by_cases hfinite : ∀ n, (collect left right n).isFinite = true
    · rw [haccepted hfinite]
      exact .accepted hsound hread hfinite
    · have hnot : ∃ n, (collect left right n).isFinite = false := by
        obtain ⟨n, hn⟩ := not_forall.1 hfinite
        exact ⟨n, Bool.eq_false_iff.2 hn⟩
      rw [hoverflow hnot]
      exact .overflow hsound hread hnot

/-- The diagnosis is what is found. -/
theorem standardForm_of_diagnosis {equation : Text} {result : Except Error (Coefficients Float)}
    (h : Diagnosis equation result) : standardForm equation = result := by
  cases h with
  | shape first =>
    rw [standardForm, (checkShape_eq_error_iff equation _).2 first]
    rfl
  | term sound first carries =>
    rw [standardForm, (checkShape_eq_ok_iff_forall equation).2 sound, Classified.ofSegments,
      (balancedTerms_eq_error_iff .left _ _).2 ⟨_, first⟩]
    rfl
  | overflow sound read notFinite =>
    rw [read.standardForm_eq sound]
    exact (finiteOnly_collected equation _ _).2 notFinite
  | accepted sound read finite =>
    rw [read.standardForm_eq sound]
    exact (finiteOnly_collected equation _ _).1 finite

/-- A text without a standard form is not refused for an empty term. -/
theorem standardForm_ne_empty (equation : Text) :
    standardForm equation ≠ .error (.term .empty) := by
  intro h
  have hdiagnosis := diagnosis_standardForm equation
  rw [h] at hdiagnosis
  cases hdiagnosis with
  | term _ _ carries => cases carries

/-- Which error is reported. The result of every text is its diagnosis and nothing else, and no
text is reported to have an empty term, neither when its polynomial is asked for nor when it is
solved. -/
theorem standardForm_iff_diagnosis (equation : Text) :
    (∀ result, standardForm equation = result ↔ Diagnosis equation result) ∧
      standardForm equation ≠ .error (.term .empty) ∧
      ∀ maths tolerance,
        (solve maths tolerance equation).solution.error ≠ some (.term .empty) := by
  refine ⟨?_, standardForm_ne_empty equation, ?_⟩
  · intro result
    constructor
    · rintro rfl
      exact diagnosis_standardForm equation
    · exact standardForm_of_diagnosis
  · intro maths tolerance h
    -- solving a polynomial adds no error but a missing variable
    cases hform : standardForm equation with
    | error error =>
      rw [solve_of_standardForm_eq_error hform] at h
      cases h
      exact standardForm_ne_empty equation hform
    | ok p =>
      rw [solve_of_standardForm_eq_ok hform] at h
      cases hdegree : p.degree? with
      | none =>
        rw [Coefficients.solve_of_degree?_eq_none hdegree] at h
        cases h
      | some degree =>
        rw [Coefficients.solution_solve hdegree, Solution.error_coerce,
          Coefficients.error_rootsByDegree] at h
        cases h

example :
    standardForm "x = 1 - 3 y".toList = .error (.term (.invalidCoefficient "-3y".toList)) ∧
      standardForm "x^5 = 1 - 3 y".toList =
        .error (.term (.unsupportedExponent "x^5".toList)) := by
  decide +kernel

end Equation

end EquationRoots
