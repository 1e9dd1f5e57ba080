import Mathlib.Data.List.SplitBy
import EquationRoots.Solve

/-!
# The protocol of events

Calls that share a recorder add their events one call after the other. What a call adds is its block
(`IsBlock`): nothing for a text that is refused, and otherwise the polynomial that is solved with
its degree, what settled the form of its roots, and at most one coercion.

Every block begins with the one event of its kind, so that the recorded list falls apart into the
blocks again (`cutAtDispatch`). The run lemma `events_afterCalls` and the cut of one block
(`cutAtDispatch_append_block`) carry the proof.
-/

set_option autoImplicit false

namespace EquationRoots

/-! ## Calls -/

/-- A request that is answered by a solution: an equation or a polynomial, and a tolerance. -/
inductive Call where
  | equation (text : Text) (tolerance : Tolerance Float)
  | polynomial (p : Coefficients Float) (tolerance : Tolerance Float)

namespace Call

/-- The answer to a call. -/
def report (maths : Elementary Float) : Call → Report Float
  | .equation text tolerance => Equation.solve maths tolerance text
  | .polynomial p tolerance => p.solve maths tolerance

/-- The polynomial that a call solves; a text that is refused has none. -/
def solved? : Call → Option (Coefficients Float)
  | .equation text _ => (Equation.standardForm text).toOption
  | .polynomial p _ => some p

/-- The events of a call. -/
def block (maths : Elementary Float) (call : Call) : List (Event Float) :=
  (call.report maths).events

end Call

/-- The recorder after calls that share it. -/
def Recorder.afterCalls (maths : Elementary Float) (r : Recorder Float) : List Call → Recorder Float
  | [] => r
  | call :: rest => (r.observeAll (call.report maths).events).afterCalls maths rest

/-! ## Blocks -/

/-- What coercion adds to a block: nothing, or how many roots it moved. -/
inductive IsCoercion : List (Event Float) → Prop
  | nothing : IsCoercion []
  | moved {count : Nat} (positive : 0 < count) : IsCoercion [.coerced count]

/-- The events of solving a polynomial. Without the variable nothing is decided but that; a linear
polynomial has no form to settle and nothing to coerce. The discriminant settles the form of the
roots of a quadratic polynomial and the branch that of a cubic one, and then some roots may be
coerced. -/
inductive IsBlock (maths : Elementary Float) (p : Coefficients Float) :
    List (Event Float) → Prop
  | withoutVariable (degree : p.degree? = none) : IsBlock maths p [.dispatched p none]
  | linear (degree : p.degree? = some .linear) : IsBlock maths p [.dispatched p (some .linear)]
  | quadratic (degree : p.degree? = some .quadratic) {last : List (Event Float)}
      (coercion : IsCoercion last) :
      IsBlock maths p (.dispatched p (some .quadratic) ::
        .discriminant (quadraticDiscriminant p.b p.c p.d) :: last)
  | cubic (degree : p.degree? = some .cubic) {last : List (Event Float)}
      (coercion : IsCoercion last) :
      IsBlock maths p (.dispatched p (some .cubic) :: .cubic (p.cubicRoots maths).branch :: last)

/-- The events are those that a call may add: nothing for a text that is refused, and its block for
a polynomial that is solved. -/
inductive Call.Allows (maths : Elementary Float) (call : Call) : List (Event Float) → Prop
  | refused (solved : call.solved? = none) : call.Allows maths []
  | accepted {p : Coefficients Float} {events : List (Event Float)} (solved : call.solved? = some p)
      (block : IsBlock maths p events) : call.Allows maths events

theorem isCoercion_coercionEvents (moved : Nat) :
    IsCoercion (Coefficients.coercionEvents moved) := by
  unfold Coefficients.coercionEvents
  split
  · rename_i hpos
    exact .moved hpos
  · exact .nothing

variable (maths : Elementary Float)

/-- Solving a polynomial emits one block. -/
theorem isBlock_events_solve (tolerance : Tolerance Float) (p : Coefficients Float) :
    IsBlock maths p (p.solve maths tolerance).events := by
  cases hdegree : p.degree? with
  | none =>
    rw [Coefficients.solve_of_degree?_eq_none hdegree]
    exact .withoutVariable hdegree
  | some degree =>
    rw [Coefficients.events_solve hdegree]
    cases degree with
    | linear =>
      -- the linear formula finds no complex root that could be moved
      have hnone : (p.rootsByDegree maths .linear).complexRoots.length -
          (p.solve maths tolerance).solution.complexRoots.length = 0 := Nat.zero_sub _
      rw [hnone]
      exact .linear hdegree
    | quadratic => exact .quadratic hdegree (isCoercion_coercionEvents _)
    | cubic => exact .cubic hdegree (isCoercion_coercionEvents _)

/-- A call adds what it may add. -/
theorem Call.allows_block (call : Call) : call.Allows maths (call.block maths) := by
  cases call with
  | polynomial p tolerance => exact .accepted rfl (isBlock_events_solve maths tolerance p)
  | equation text tolerance =>
    show (Call.equation text tolerance).Allows maths (Equation.solve maths tolerance text).events
    cases hform : Equation.standardForm text with
    | ok p =>
      have hsolved : (Call.equation text tolerance).solved? = some p := by
        rw [solved?, hform]
        rfl
      rw [Equation.solve_of_standardForm_eq_ok hform]
      exact .accepted hsolved (isBlock_events_solve maths tolerance p)
    | error error =>
      have hsolved : (Call.equation text tolerance).solved? = none := by
        rw [solved?, hform]
        rfl
      rw [Equation.solve_of_standardForm_eq_error hform]
      exact .refused hsolved

/-! ## Runs -/

/-- A run adds the blocks of its calls in order. -/
theorem Recorder.events_afterCalls (r : Recorder Float) (calls : List Call) :
    (r.afterCalls maths calls).events = r.events ++ calls.flatMap (Call.block maths) := by
  induction calls generalizing r with
  | nil => simp [afterCalls]
  | cons call calls ih =>
    rw [afterCalls, ih, events_observeAll, List.flatMap_cons, List.append_assoc]
    rfl

/-! ## Cutting the recorded list -/

/-- Whether the event is the choice of a formula. -/
def Event.isDispatched : Event Float → Bool
  | .dispatched _ _ => true
  | _ => false

/-- The events, cut before each choice of a formula. -/
def cutAtDispatch (events : List (Event Float)) : List (List (Event Float)) :=
  events.splitBy fun _ next => !next.isDispatched

theorem IsCoercion.isDispatched_eq {last : List (Event Float)} (h : IsCoercion last) :
    ∀ event ∈ last, event.isDispatched = false := by
  cases h with
  | nothing => simp
  | moved => simp [Event.isDispatched]

/-- The choice of a formula is the first event of a block and no other one. -/
theorem IsBlock.exists_cons {p : Coefficients Float} {events : List (Event Float)}
    (h : IsBlock maths p events) :
    ∃ degree rest, events = .dispatched p degree :: rest ∧
      ∀ event ∈ rest, event.isDispatched = false := by
  cases h with
  | withoutVariable => exact ⟨none, [], rfl, by simp⟩
  | linear => exact ⟨some .linear, [], rfl, by simp⟩
  | quadratic _ coercion =>
    refine ⟨some .quadratic, _, rfl, ?_⟩
    rw [List.forall_mem_cons]
    exact ⟨rfl, coercion.isDispatched_eq⟩
  | cubic _ coercion =>
    refine ⟨some .cubic, _, rfl, ?_⟩
    rw [List.forall_mem_cons]
    exact ⟨rfl, coercion.isDispatched_eq⟩

/-- A list with a choice of a formula at most in front is not cut. -/
theorem cutAtDispatch_cons (first : Event Float) {rest : List (Event Float)}
    (h : ∀ event ∈ rest, event.isDispatched = false) :
    cutAtDispatch (first :: rest) = [first :: rest] := by
  apply List.splitBy_of_isChain (List.cons_ne_nil _ _)
  induction rest generalizing first with
  | nil => exact List.isChain_singleton first
  | cons next rest ih =>
    rw [List.forall_mem_cons] at h
    rw [List.isChain_cons_cons]
    exact ⟨by simp [h.1], ih next h.2⟩

/-- A block behind other events is cut off as a whole. -/
theorem cutAtDispatch_append_block {p : Coefficients Float} {block : List (Event Float)}
    (h : IsBlock maths p block) (earlier : List (Event Float)) :
    cutAtDispatch (earlier ++ block) = cutAtDispatch earlier ++ [block] := by
  obtain ⟨degree, rest, rfl, hrest⟩ := h.exists_cons
  have hcut : cutAtDispatch (earlier ++ .dispatched p degree :: rest) =
      cutAtDispatch earlier ++ cutAtDispatch (.dispatched p degree :: rest) :=
    List.splitBy_append_cons rest fun _ _ => rfl
  rw [hcut, cutAtDispatch_cons _ hrest]

/-- Whether the call solves a polynomial. -/
def Call.isAccepted (call : Call) : Bool := call.solved?.isSome

/-- Cutting after a call finds its block, if it has one. -/
theorem cutAtDispatch_append_call (earlier : List (Event Float)) (call : Call) :
    cutAtDispatch (earlier ++ call.block maths) =
      cutAtDispatch earlier ++ ([call].filter Call.isAccepted).map (Call.block maths) := by
  have hallows := call.allows_block maths
  generalize hblock : call.block maths = events at hallows
  cases hallows with
  | refused solved => simp [Call.isAccepted, solved]
  | accepted solved block =>
    rw [cutAtDispatch_append_block maths block]
    simp [Call.isAccepted, solved, hblock]

/-- Cutting after a run finds the blocks of the calls that were accepted. -/
theorem cutAtDispatch_append_run (earlier : List (Event Float)) (calls : List Call) :
    cutAtDispatch (earlier ++ calls.flatMap (Call.block maths)) =
      cutAtDispatch earlier ++ (calls.filter Call.isAccepted).map (Call.block maths) := by
  -- one call after the other is moved to the events that were there before
  induction calls generalizing earlier with
  | nil => simp
  | cons call calls ih =>
    rw [List.flatMap_cons, ← List.append_assoc, ih, cutAtDispatch_append_call, List.append_assoc,
      ← List.map_append, ← List.filter_append, List.singleton_append]

/-- The protocol of events. Calls that share a recorder add their blocks in order, whatever was
recorded before: nothing for a text that is refused, and otherwise the events of solving the
polynomial. The recorded list, cut before each choice of a formula, gives the earlier events, cut in
the same way, and then exactly the blocks of the calls that were accepted. -/
theorem Recorder.protocol_afterCalls (r : Recorder Float) (calls : List Call) :
    (∀ call : Call, call.Allows maths (call.block maths)) ∧
      (r.afterCalls maths calls).events = r.events ++ calls.flatMap (Call.block maths) ∧
      cutAtDispatch (r.afterCalls maths calls).events =
        cutAtDispatch r.events ++ (calls.filter Call.isAccepted).map (Call.block maths) := by
  have hevents := r.events_afterCalls maths calls
  refine ⟨Call.allows_block maths, hevents, ?_⟩
  rw [hevents]
  exact cutAtDispatch_append_run maths r.events calls

end EquationRoots
