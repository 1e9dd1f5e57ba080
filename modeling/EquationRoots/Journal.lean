import EquationRoots.Inspect

/-!
# The journal of a solution

Solving an equation writes records to a journal: how the equation was cut, which polynomial it
stands for or why it was rejected, and the events of solving the polynomial. A record has a level,
and a journal keeps the records up to a limit of verbosity.

`Logged` is a value together with the records written while it was computed.
`value_parseLogged` and `value_solveLogged` say that the journal does not change what is computed.
-/

set_option autoImplicit false

namespace EquationRoots

/-! ## Levels and records -/

/-- The level of a record, from the gravest to the most verbose. -/
inductive Level where
  | error
  | warn
  | info
  | debug
  | trace
deriving DecidableEq, Repr

namespace Level

/-- The verbosity of a level: the graver, the smaller. -/
def verbosity : Level → Nat
  | .error => 1
  | .warn => 2
  | .info => 3
  | .debug => 4
  | .trace => 5

/-- The name of a level. -/
def name : Level → String
  | .error => "ERROR"
  | .warn => "WARN"
  | .info => "INFO"
  | .debug => "DEBUG"
  | .trace => "TRACE"

/-- Whether a journal with the given limit keeps records of this level. Without a limit level the
journal keeps nothing. -/
def isKept (level : Level) : Option Level → Bool
  | none => false
  | some limit => level.verbosity ≤ limit.verbosity

end Level

/-- An entry of a journal: how grave or verbose it is, the part of the program that speaks, and what
it says. -/
structure Record where
  level : Level
  target : String
  message : String
deriving DecidableEq, Repr

/-! ## Computing with a journal -/

/-- A value and the records written while it was computed, the earliest first. -/
structure Logged (β : Type) where
  value : β
  records : List Record

namespace Logged

variable {β γ : Type}

instance : Monad Logged where
  pure value := ⟨value, []⟩
  bind first next :=
    ⟨(next first.value).value, first.records ++ (next first.value).records⟩

/-- Writes a record, if the journal with this limit keeps it. -/
def note (limit : Option Level) (record : Record) : Logged Unit :=
  ⟨(), if record.level.isKept limit then [record] else []⟩

/-- Writes records one after the other. -/
def noteAll (limit : Option Level) : List Record → Logged Unit
  | [] => pure ()
  | record :: rest => do
    note limit record
    noteAll limit rest

@[simp] theorem value_pure (value : β) : (pure value : Logged β).value = value := rfl

@[simp] theorem records_pure (value : β) : (pure value : Logged β).records = [] := rfl

@[simp] theorem value_bind (first : Logged β) (next : β → Logged γ) :
    (first >>= next).value = (next first.value).value := rfl

@[simp] theorem records_bind (first : Logged β) (next : β → Logged γ) :
    (first >>= next).records = first.records ++ (next first.value).records := rfl

@[simp] theorem records_note (limit : Option Level) (record : Record) :
    (note limit record).records = [record].filter (·.level.isKept limit) := by
  simp only [note, List.filter_cons, List.filter_nil]

/-- Writing records one after the other keeps those within the limit, in order. -/
@[simp] theorem records_noteAll (limit : Option Level) (records : List Record) :
    (noteAll limit records).records = records.filter (·.level.isKept limit) := by
  induction records with
  | nil => rfl
  | cons record rest ih => simp [noteAll, ih, ← List.filter_append]

end Logged

/-! ## Records of parsing and solving -/

namespace Record

/-- Tells into which segments an equation was cut. -/
def normalized (characters : CharacterClasses) (equation : Text) (segments : List Text) : Record :=
  ⟨.trace, "polyroot_parse::tokenize",
    "normalized " ++ Inspect.text characters equation ++ " into " ++
      Inspect.list (segments.map (Inspect.text characters))⟩

/-- Tells which polynomial an equation stands for. -/
def parsed (characters : CharacterClasses) (equation : Text) (p : Coefficients Float) : Record :=
  ⟨.debug, "polyroot_parse::aggregate",
    "parsed " ++ Inspect.text characters equation ++ " as " ++ p.inspect⟩

/-- Tells why an equation was rejected. -/
def rejected (characters : CharacterClasses) (equation : Text) (error : Error) : Record :=
  ⟨.warn, "polyroot",
    "rejected equation " ++ Inspect.text characters equation ++ ": " ++ error.message⟩

/-- Tells of an event of solving a polynomial, at the level that was asked for. -/
def event (level : Level) (e : Event Float) : Record :=
  ⟨level, "polyroot::solver", e.inspect⟩

end Record

/-- Solves a polynomial and writes its events to the journal. -/
def Coefficients.solveLogged (limit : Option Level) (level : Level) (maths : Elementary Float)
    (tolerance : Tolerance Float) (p : Coefficients Float) : Logged (Solution Float) := do
  let report := p.solve maths tolerance
  Logged.noteAll limit (report.events.map (Record.event level))
  return report.solution

namespace Equation

/-- Brings an equation to standard form and writes its segments and its polynomial to the
journal. -/
def parseLogged (limit : Option Level) (characters : CharacterClasses) (equation : Text) :
    Logged (Except Error (Coefficients Float)) :=
  match checkShape equation with
  | .error cause => return .error (.shape cause)
  | .ok () => do
    Logged.note limit (.normalized characters equation (segments equation))
    match Classified.ofSegments (segments equation) with
    | .error cause => return .error (.term cause)
    | .ok terms =>
      match finiteOnly equation terms.coefficients with
      | .error error => return .error error
      | .ok p =>
        Logged.note limit (.parsed characters equation p)
        return .ok p

/-- Solves an equation and writes to the journal how it was read, and then the events or the reason
why it was rejected. -/
def solveLogged (limit : Option Level) (level : Level) (maths : Elementary Float)
    (tolerance : Tolerance Float) (equation : Text)
    (characters : CharacterClasses := .unicode15) : Logged (Solution Float) := do
  match ← parseLogged limit characters equation with
  | .ok p => p.solveLogged limit level maths tolerance
  | .error error =>
    Logged.note limit (.rejected characters equation error)
    return .failed error

/-! ## The journal and the computation -/

/-- The journal does not change the standard form. -/
@[simp] theorem value_parseLogged (limit : Option Level) (characters : CharacterClasses)
    (equation : Text) : (parseLogged limit characters equation).value = standardForm equation := by
  unfold parseLogged standardForm
  cases checkShape equation with
  | error cause => rfl
  | ok _ =>
    cases ht : Classified.ofSegments (segments equation) with
    | error cause => rfl
    | ok terms =>
      cases hf : finiteOnly equation terms.coefficients with
      | error error => simp [hf]; exact hf.symm
      | ok p => simp [hf]; exact hf.symm

/-- The journal does not change the solution. -/
@[simp] theorem value_solveLogged (limit : Option Level) (level : Level)
    (maths : Elementary Float) (tolerance : Tolerance Float) (equation : Text)
    (characters : CharacterClasses) :
    (solveLogged limit level maths tolerance equation characters).value =
      (solve maths tolerance equation).solution := by
  simp only [solveLogged, Logged.value_bind, value_parseLogged, solve]
  cases standardForm equation <;> rfl

end Equation

end EquationRoots
