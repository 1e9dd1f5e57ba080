import Mathlib.Control.Monad.Basic
import EquationRoots.Journal
import EquationRoots.Proofs.Equation.Notation

/-!
# What the journal tells

The journal of an equation tells whether it was accepted. One that is refused for its shape leaves
the rejection alone; one that is refused later is first told to be cut into segments; and one that
is accepted is told with its segments, its polynomial and the events that a recorder of the same
call holds, without a rejection (`TellsOutcome`).

A limit of verbosity hides records and does nothing else. This is a property of a computation under
a limit (`Logged.IsLimited`) that every way of writing records has and that sequencing keeps.

- `Equation.isLimited_solveLogged`: a limit keeps the records within it, in order.
- `Equation.tellsParsing_parseLogged`: the records of bringing an equation to standard form.
- `Equation.journal_tells`: the records of solving an equation.
-/

set_option autoImplicit false

namespace EquationRoots

/-- The journal without a limit keeps records of every level. -/
theorem Level.isKept_trace (level : Level) : level.isKept (some .trace) = true := by
  cases level <;> rfl

/-! ## Limits -/

namespace Logged

variable {β γ : Type}

/-- A computation under a limit of verbosity. The limit changes nothing but the journal, which keeps
the records within it, in order. -/
structure IsLimited (run : Option Level → Logged β) : Prop where
  value_eq : ∀ limit, (run limit).value = (run (some .trace)).value
  records_eq : ∀ limit,
    (run limit).records = (run (some .trace)).records.filter (·.level.isKept limit)

theorem isLimited_pure (value : β) : IsLimited fun _ => (pure value : Logged β) :=
  ⟨fun _ => rfl, fun _ => rfl⟩

/-- Without a limit nothing is left out. -/
theorem filter_isKept_trace (records : List Record) :
    records.filter (·.level.isKept (some .trace)) = records := by
  rw [List.filter_eq_self]
  intro record _
  exact record.level.isKept_trace

theorem records_note_trace (record : Record) :
    (note (some .trace) record).records = [record] := by
  rw [records_note, filter_isKept_trace]

theorem records_noteAll_trace (records : List Record) :
    (noteAll (some .trace) records).records = records := by
  rw [records_noteAll, filter_isKept_trace]

theorem isLimited_note (record : Record) : IsLimited fun limit => note limit record := by
  refine ⟨fun _ => rfl, ?_⟩
  intro limit
  rw [records_note_trace, records_note]

theorem isLimited_noteAll (records : List Record) :
    IsLimited fun limit => noteAll limit records := by
  refine ⟨fun _ => rfl, ?_⟩
  intro limit
  rw [records_noteAll_trace, records_noteAll]

/-- A sequence of limited computations is limited. -/
theorem IsLimited.bind {first : Option Level → Logged β} {next : Option Level → β → Logged γ}
    (h : IsLimited first) (h' : ∀ value, IsLimited fun limit => next limit value) :
    IsLimited fun limit => first limit >>= next limit := by
  constructor
  · intro limit
    rw [value_bind, value_bind, h.value_eq limit]
    exact (h' _).value_eq limit
  · intro limit
    rw [records_bind, records_bind, List.filter_append, h.value_eq limit, h.records_eq limit]
    exact congrArg _ ((h' _).records_eq limit)

end Logged

open Logged

theorem Coefficients.isLimited_solveLogged (level : Level) (maths : Elementary Float)
    (tolerance : Tolerance Float) (p : Coefficients Float) :
    IsLimited fun limit => p.solveLogged limit level maths tolerance :=
  (isLimited_noteAll _).bind fun _ => isLimited_pure _

namespace Equation

theorem isLimited_parseLogged (characters : CharacterClasses) (equation : Text) :
    IsLimited fun limit => parseLogged limit characters equation := by
  unfold parseLogged
  -- each exit of the reader ends a sequence of limited computations
  cases checkShape equation with
  | error cause => exact isLimited_pure _
  | ok =>
    refine (isLimited_note _).bind fun _ => ?_
    cases Classified.ofSegments (segments equation) with
    | error cause => exact isLimited_pure _
    | ok terms =>
      dsimp only
      cases finiteOnly equation terms.coefficients with
      | error error => exact isLimited_pure _
      | ok p => exact (isLimited_note _).bind fun _ => isLimited_pure _

/-- A limit keeps the records within it, in order. -/
theorem isLimited_solveLogged (level : Level) (maths : Elementary Float)
    (tolerance : Tolerance Float) (characters : CharacterClasses) (equation : Text) :
    IsLimited fun limit => solveLogged limit level maths tolerance equation characters := by
  refine (isLimited_parseLogged characters equation).bind fun parsed => ?_
  cases parsed with
  | ok p => exact p.isLimited_solveLogged level maths tolerance
  | error error => exact (isLimited_note _).bind fun _ => isLimited_pure _

/-! ## Character classes -/

section Classes

variable (characters characters' : CharacterClasses) {equation : Text}

/-- The segments of an equation in ASCII are shown alike under all character classes. -/
theorem map_text_segments_eq (h : ∀ c ∈ equation, c.toNat < 0x80) :
    (segments equation).map (Inspect.text characters) =
      (segments equation).map (Inspect.text characters') := by
  apply List.map_congr_left
  intro segment hsegment
  apply Inspect.text_eq_of_isAscii
  intro c hc
  have hflat : c ∈ (segments equation).flatten := List.mem_flatten.2 ⟨segment, hsegment, hc⟩
  rw [flatten_segments, Text.withoutBlanks] at hflat
  exact h c (List.mem_filter.1 (List.mem_filter.1 hflat).1).1

/-- The journal of an equation in ASCII is the same under all character classes. -/
theorem solveLogged_eq_of_isAscii (limit : Option Level) (level : Level) (maths : Elementary Float)
    (tolerance : Tolerance Float) (h : ∀ c ∈ equation, c.toNat < 0x80) :
    solveLogged limit level maths tolerance equation characters =
      solveLogged limit level maths tolerance equation characters' := by
  have htext := Inspect.text_eq_of_isAscii characters characters' h
  have hsegments := map_text_segments_eq characters characters' h
  simp only [solveLogged, parseLogged, Record.normalized, Record.parsed, Record.rejected, htext,
    hsegments]

end Classes

/-! ## All records -/

/-- The records of bringing an equation to standard form, by what comes of it. A defect in the shape
is found before anything is told. Otherwise the segments are told before they are read, and then the
polynomial, if it is finite. -/
inductive TellsParsing (characters : CharacterClasses) (equation : Text) :
    Except Error (Coefficients Float) → List Record → Prop where
  | shape {cause : ShapeError} : TellsParsing characters equation (.error (.shape cause)) []
  | term {cause : TermError} :
      TellsParsing characters equation (.error (.term cause))
        [.normalized characters equation (segments equation)]
  | overflow :
      TellsParsing characters equation (.error (.coefficientOverflow equation))
        [.normalized characters equation (segments equation)]
  | parsed {p : Coefficients Float} :
      TellsParsing characters equation (.ok p)
        [.normalized characters equation (segments equation), .parsed characters equation p]

/-- The records of solving an equation, by the error of its solution and the events recorded. A
defect in the shape leaves the rejection alone; a defect in a term, or coefficients that overflow,
leave the segments and the rejection; an equation that is accepted leaves the segments, the
polynomial and the events. -/
inductive TellsOutcome (characters : CharacterClasses) (equation : Text) (level : Level)
    (recorded : List (Event Float)) : Option Error → List Record → Prop where
  | shape {cause : ShapeError} :
      TellsOutcome characters equation level recorded (some (.shape cause))
        [.rejected characters equation (.shape cause)]
  | term {cause : TermError} :
      TellsOutcome characters equation level recorded (some (.term cause))
        [.normalized characters equation (segments equation),
          .rejected characters equation (.term cause)]
  | overflow :
      TellsOutcome characters equation level recorded (some (.coefficientOverflow equation))
        [.normalized characters equation (segments equation),
          .rejected characters equation (.coefficientOverflow equation)]
  | accepted {p : Coefficients Float} {error : Option Error} (form : standardForm equation = .ok p)
      (accepted : error = none ∨ error = some .missingVariable) :
      TellsOutcome characters equation level recorded error
        (.normalized characters equation (segments equation) :: .parsed characters equation p ::
          recorded.map (.event level))

/-- The records of bringing an equation to standard form. -/
theorem tellsParsing_parseLogged (characters : CharacterClasses) (equation : Text) :
    TellsParsing characters equation (standardForm equation)
      (parseLogged (some .trace) characters equation).records := by
  rw [← value_parseLogged (some .trace) characters]
  unfold parseLogged
  -- one constructor for each exit of the reader
  cases checkShape equation with
  | error cause => exact .shape
  | ok =>
    cases Classified.ofSegments (segments equation) with
    | error cause => exact .term
    | ok terms =>
      obtain ⟨-, hok⟩ | ⟨-, herror⟩ := finiteOnly_cases equation terms.coefficients
      · simp only [hok]
        exact .parsed
      · simp only [herror]
        exact .overflow

section Records

variable (level : Level) (maths : Elementary Float) (tolerance : Tolerance Float)
  (characters : CharacterClasses) (equation : Text)

/-- The records of solving an equation without a limit of verbosity. -/
def allRecords : List Record :=
  (solveLogged (some .trace) level maths tolerance equation characters).records

variable {equation}

/-- An equation that is accepted leaves its segments, its polynomial and its events. -/
theorem allRecords_of_ok {p : Coefficients Float} (h : standardForm equation = .ok p) :
    allRecords level maths tolerance characters equation =
      .normalized characters equation (segments equation) :: .parsed characters equation p ::
        (p.solve maths tolerance).events.map (.event level) := by
  have hparsing := tellsParsing_parseLogged characters equation
  rw [allRecords, solveLogged, records_bind, value_parseLogged, h]
  rw [h] at hparsing
  generalize (parseLogged (some .trace) characters equation).records = records at hparsing
  cases hparsing with
  | parsed =>
    simp only [Coefficients.solveLogged, records_bind, records_noteAll_trace, records_pure,
      List.append_nil, List.cons_append, List.nil_append]

/-- An equation that is refused adds the rejection to the records of reading it. -/
theorem allRecords_of_error {error : Error} (h : standardForm equation = .error error) :
    allRecords level maths tolerance characters equation =
      (parseLogged (some .trace) characters equation).records ++
        [.rejected characters equation error] := by
  rw [allRecords, solveLogged, records_bind, value_parseLogged, h]
  simp only [records_bind, records_note_trace, records_pure, List.append_nil]

variable {level maths tolerance characters}

/-- A warning about an equation that is accepted is an event told as a warning. -/
theorem warn_of_ok {p : Coefficients Float} (h : standardForm equation = .ok p) {record : Record}
    (hmem : record ∈ allRecords level maths tolerance characters equation)
    (hwarn : record.level = .warn) :
    level = .warn ∧ record.target = "polyroot::solver" := by
  rw [allRecords_of_ok level maths tolerance characters h] at hmem
  rcases List.mem_cons.1 hmem with rfl | hmem
  · cases hwarn
  rcases List.mem_cons.1 hmem with rfl | hmem
  · cases hwarn
  obtain ⟨e, -, rfl⟩ := List.mem_map.1 hmem
  exact ⟨hwarn, rfl⟩

/-- A rejection is told exactly of an equation that is refused. -/
theorem exists_rejection_iff :
    (∃ record ∈ allRecords level maths tolerance characters equation,
        record.level = .warn ∧ record.target = "polyroot") ↔
      ∃ error, standardForm equation = .error error := by
  constructor
  · rintro ⟨record, hmem, hwarn, htarget⟩
    cases hform : standardForm equation with
    | error error => exact ⟨error, rfl⟩
    | ok p =>
      obtain ⟨-, hsolver⟩ := warn_of_ok hform hmem hwarn
      rw [hsolver] at htarget
      exact absurd htarget (by decide)
  · rintro ⟨error, hform⟩
    refine ⟨.rejected characters equation error, ?_, rfl, rfl⟩
    rw [allRecords_of_error level maths tolerance characters hform]
    exact List.mem_append_right _ (List.mem_singleton.2 rfl)

end Records

end Equation

/-- A polynomial is never refused. -/
theorem Coefficients.error_solve (maths : Elementary Float) (tolerance : Tolerance Float)
    (p : Coefficients Float) :
    (p.solve maths tolerance).solution.error = none ∨
      (p.solve maths tolerance).solution.error = some .missingVariable := by
  cases hdegree : p.degree? with
  | none =>
    rw [solve_of_degree?_eq_none hdegree]
    exact Or.inr rfl
  | some degree =>
    rw [solution_solve hdegree, Solution.error_coerce, error_rootsByDegree]
    exact Or.inl rfl

namespace Equation

variable (level : Level) (maths : Elementary Float) (tolerance : Tolerance Float)
  (characters : CharacterClasses) (equation : Text)

/-- The records tell the outcome. -/
theorem tellsOutcome_allRecords :
    TellsOutcome characters equation level
      (Recorder.empty.observeAll (solve maths tolerance equation).events).events
      (solve maths tolerance equation).solution.error
      (allRecords level maths tolerance characters equation) := by
  cases hform : standardForm equation with
  | ok p =>
    rw [solve_of_standardForm_eq_ok hform, allRecords_of_ok level maths tolerance characters hform,
      Recorder.events_observeAll, Recorder.events_empty, List.nil_append]
    exact .accepted hform (p.error_solve maths tolerance)
  | error error =>
    have hparsing := tellsParsing_parseLogged characters equation
    rw [solve_of_standardForm_eq_error hform,
      allRecords_of_error level maths tolerance characters hform]
    rw [hform] at hparsing
    generalize (parseLogged (some .trace) characters equation).records = records at hparsing
    cases hparsing with
    | shape => exact .shape
    | term => exact .term
    | overflow => exact .overflow

/-- The journal tells accepted equations from refused ones. Without a limit its records are
those of the outcome: a rejection, alone or after the segments, or the segments, the polynomial and
one record for each event that a recorder of the same call holds. A rejection is there exactly for
an equation that is refused, and an accepted one has no warning, unless its events are to be told at
that level. Under a limit the records are those within it, in order, and the solution is the same.
The character classes do not matter to an equation in ASCII. -/
theorem journal_tells :
    TellsOutcome characters equation level
        (Recorder.empty.observeAll (solve maths tolerance equation).events).events
        (solve maths tolerance equation).solution.error
        (allRecords level maths tolerance characters equation) ∧
      ((∃ record ∈ allRecords level maths tolerance characters equation,
          record.level = .warn ∧ record.target = "polyroot") ↔
        ∃ error, standardForm equation = .error error) ∧
      (∀ p, standardForm equation = .ok p →
        ∀ record ∈ allRecords level maths tolerance characters equation, record.level = .warn →
          level = .warn ∧ record.target = "polyroot::solver") ∧
      (∀ limit,
        (solveLogged limit level maths tolerance equation characters).records =
            (allRecords level maths tolerance characters equation).filter (·.level.isKept limit) ∧
          (solveLogged limit level maths tolerance equation characters).value =
            (solve maths tolerance equation).solution) ∧
      ((∀ c ∈ equation, c.toNat < 0x80) → ∀ limit characters',
        solveLogged limit level maths tolerance equation characters' =
          solveLogged limit level maths tolerance equation characters) := by
  refine ⟨tellsOutcome_allRecords level maths tolerance characters equation, exists_rejection_iff,
    ?_, ?_, ?_⟩
  · intro p hform record hmem hwarn
    exact warn_of_ok hform hmem hwarn
  · intro limit
    have hlimited := isLimited_solveLogged level maths tolerance characters equation
    exact ⟨hlimited.records_eq limit,
      value_solveLogged limit level maths tolerance equation characters⟩
  · intro hascii limit characters'
    exact solveLogged_eq_of_isAscii characters' characters limit level maths tolerance hascii

/-- The equation `x = 1`, with its events told at the level of information. -/
theorem journal_tells_linear :
    standardForm ['x', '=', '1'] = .ok ⟨-0.0, -0.0, 1, -1⟩ ∧
      (allRecords .info .platform .zero .unicode15 ['x', '=', '1']).map Record.level =
        [.trace, .debug, .info] ∧
      ∀ record ∈ allRecords .info .platform .zero .unicode15 ['x', '=', '1'],
        record.level ≠ .warn := by
  have hform : standardForm ['x', '=', '1'] = .ok ⟨-0.0, -0.0, 1, -1⟩ := by decide +kernel
  refine ⟨hform, by decide +kernel, ?_⟩
  intro record hmem hwarn
  obtain ⟨hlevel, -⟩ :=
    (journal_tells .info .platform .zero .unicode15 ['x', '=', '1']).2.2.1 _ hform record hmem hwarn
  cases hlevel

/-- The equation `x = 1` is accepted, and with its events told as warnings its records end with a
warning. -/
theorem journal_warns_of_accepted :
    standardForm ['x', '=', '1'] = .ok ⟨-0.0, -0.0, 1, -1⟩ ∧
      (solve .platform .zero ['x', '=', '1']).solution.error = none ∧
      (allRecords .warn .platform .zero .unicode15 ['x', '=', '1']).map
          (fun record => (record.level, record.target)) =
        [(.trace, "polyroot_parse::tokenize"), (.debug, "polyroot_parse::aggregate"),
          (.warn, "polyroot::solver")] ∧
      ¬ ∀ record ∈ allRecords .warn .platform .zero .unicode15 ['x', '=', '1'],
        record.level ≠ .warn := by
  have hrecords : (allRecords .warn .platform .zero .unicode15 ['x', '=', '1']).map
      (fun record => (record.level, record.target)) =
        [(.trace, "polyroot_parse::tokenize"), (.debug, "polyroot_parse::aggregate"),
          (.warn, "polyroot::solver")] := by decide +kernel
  refine ⟨by decide +kernel, by decide +kernel, hrecords, ?_⟩
  intro hnone
  obtain ⟨record, hmem, hrecord⟩ : ∃ record ∈ allRecords .warn .platform .zero .unicode15
      ['x', '=', '1'], (record.level, record.target) = (.warn, "polyroot::solver") := by
    rw [← List.mem_map, hrecords]
    simp
  exact hnone record hmem (congrArg Prod.fst hrecord)

end Equation

end EquationRoots
