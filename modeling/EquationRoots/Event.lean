import EquationRoots.Roots.Cubic

/-!
# Events

Solving a polynomial is a sequence of decisions, and each is told by an event: which degree it has,
which discriminant or branch settled the form of its roots, and how many roots were coerced. A
recorder collects events in order.
-/

set_option autoImplicit false

namespace EquationRoots

/-- A decision taken while a polynomial is solved: the formula for its degree, if it has one; the
discriminant of a quadratic polynomial; the branch on which a cubic one is solved; and how many
roots, more than none, were moved to the real ones. -/
inductive Event (α : Type) where
  | dispatched (polynomial : Coefficients α) (degree : Option Degree)
  | discriminant (value : α)
  | cubic (branch : CubicBranch α)
  | coerced (moved : Nat)
deriving BEq, DecidableEq

/-- The events seen so far, the earliest first. -/
structure Recorder (α : Type) where
  events : List (Event α)
deriving BEq, DecidableEq

namespace Recorder

variable {α : Type}

/-- The recorder that has seen nothing. -/
def empty : Recorder α := ⟨[]⟩

/-- The recorder after one more event. -/
def observe (r : Recorder α) (event : Event α) : Recorder α := ⟨r.events ++ [event]⟩

/-- The recorder after more events, one by one. -/
def observeAll (r : Recorder α) (events : List (Event α)) : Recorder α :=
  events.foldl observe r

/-- The number of events seen. -/
def size (r : Recorder α) : Nat := r.events.length

@[simp] theorem events_empty : (empty : Recorder α).events = [] := rfl

@[simp] theorem events_observe (r : Recorder α) (event : Event α) :
    (r.observe event).events = r.events ++ [event] := rfl

/-- A recorder keeps what it has seen and appends the new events in order. -/
@[simp] theorem events_observeAll (r : Recorder α) (events : List (Event α)) :
    (r.observeAll events).events = r.events ++ events := by
  induction events generalizing r with
  | nil => simp [observeAll]
  | cons event events ih =>
    rw [observeAll, List.foldl_cons]
    exact (ih (r.observe event)).trans (by simp)

@[simp] theorem size_observeAll (r : Recorder α) (events : List (Event α)) :
    (r.observeAll events).size = r.size + events.length := by
  simp [size]

end Recorder

end EquationRoots
