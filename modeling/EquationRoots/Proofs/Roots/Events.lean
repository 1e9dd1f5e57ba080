import EquationRoots.Proofs.Roots.Conjugate

/-!
# Events and solution tell the same story

The events of a polynomial determine how many real and how many complex roots its solution has.
`EventsTell` lists the stories that can be told, from the degree over the discriminant or the branch
to the number of coerced roots; `eventsTell_solve` shows that every solution fits the story of its
events, and `EventsTell.unique` that no story has two endings.

What carries the proof is a count: a formula finds as many roots as the degree says, coercion loses
none of them, and it leaves none or two complex.
-/

set_option autoImplicit false

namespace EquationRoots

open scoped Scalar

/-- The branch is that of three real roots by cosines. -/
def CubicBranch.IsTrigonometric {α : Type} : CubicBranch α → Prop
  | .trigonometric _ _ => True
  | .factoredZeroRoot | .cardano _ _ => False

/-- The events of the polynomial tell of so many real and so many complex roots. Each story starts
with the polynomial and its degree. Without the variable there is one stand-in. A linear polynomial
has a real root, and no root is coerced. For a quadratic one the discriminant is told: where it is
negative there is a complex pair, or two real roots if the pair is coerced; any other discriminant,
"not a number" included, tells of two real roots, and no root is coerced. For a cubic one the branch
is told, and then one coerced root, which is its real root, or three, which are all its roots. One
is never coerced on the trigonometric branch. -/
inductive EventsTell (maths : Elementary Float) (p : Coefficients Float) :
    List (Event Float) → Nat → Nat → Prop where
  | withoutVariable (degree : p.degree? = none) : EventsTell maths p [.dispatched p none] 1 0
  | linear (degree : p.degree? = some .linear) :
      EventsTell maths p [.dispatched p (some .linear)] 1 0
  | quadraticPair (degree : p.degree? = some .quadratic) {value : Float}
      (computed : quadraticDiscriminant p.b p.c p.d = value) (negative : value < 0) :
      EventsTell maths p [.dispatched p (some .quadratic), .discriminant value] 0 2
  | quadraticCoerced (degree : p.degree? = some .quadratic) {value : Float}
      (computed : quadraticDiscriminant p.b p.c p.d = value) (negative : value < 0) :
      EventsTell maths p [.dispatched p (some .quadratic), .discriminant value, .coerced 2] 2 0
  | quadraticReal (degree : p.degree? = some .quadratic) {value : Float}
      (computed : quadraticDiscriminant p.b p.c p.d = value) (notNegative : ¬ value < 0) :
      EventsTell maths p [.dispatched p (some .quadratic), .discriminant value] 2 0
  | cubicPair (degree : p.degree? = some .cubic) {branch : CubicBranch Float}
      (taken : (p.cubicRoots maths).branch = branch)
      (notTrigonometric : ¬ branch.IsTrigonometric) :
      EventsTell maths p [.dispatched p (some .cubic), .cubic branch, .coerced 1] 1 2
  | cubicReal (degree : p.degree? = some .cubic) {branch : CubicBranch Float}
      (taken : (p.cubicRoots maths).branch = branch) :
      EventsTell maths p [.dispatched p (some .cubic), .cubic branch, .coerced 3] 3 0

/-- The events determine the numbers of roots. -/
theorem EventsTell.unique {maths maths' : Elementary Float} {p q : Coefficients Float}
    {events : List (Event Float)} {real complex real' complex' : Nat}
    (h : EventsTell maths p events real complex) (h' : EventsTell maths' q events real' complex') :
    real = real' ∧ complex = complex' := by
  cases h with
  | withoutVariable => cases h' with
    | withoutVariable => exact ⟨rfl, rfl⟩
  | linear => cases h' with
    | linear => exact ⟨rfl, rfl⟩
  | quadraticPair _ _ negative => cases h' with
    | quadraticPair => exact ⟨rfl, rfl⟩
    | quadraticReal _ _ notNegative => exact absurd negative notNegative
  | quadraticCoerced => cases h' with
    | quadraticCoerced => exact ⟨rfl, rfl⟩
  | quadraticReal _ _ notNegative => cases h' with
    | quadraticPair _ _ negative => exact absurd negative notNegative
    | quadraticReal => exact ⟨rfl, rfl⟩
  | cubicPair => cases h' with
    | cubicPair => exact ⟨rfl, rfl⟩
  | cubicReal => cases h' with
    | cubicReal => exact ⟨rfl, rfl⟩

namespace Coefficients

variable (maths : Elementary Float) (tolerance : Tolerance Float) (p : Coefficients Float)

/-! ## Counting roots -/

/-- None or two roots stay complex. -/
theorem length_complexRoots_solve :
    (p.solve maths tolerance).solution.complexRoots.length = 0 ∨
      (p.solve maths tolerance).solution.complexRoots.length = 2 := by
  rcases complexRoots_solve_eq maths tolerance p with h | ⟨z, h, -⟩
  · rw [h]
    exact Or.inl rfl
  · rw [h]
    exact Or.inr rfl

/-- Coercion adds no complex root. -/
theorem length_complexRoots_solve_le {degree : Degree} (hdegree : p.degree? = some degree) :
    (p.solve maths tolerance).solution.complexRoots.length ≤
      (p.rootsByDegree maths degree).complexRoots.length := by
  rw [solution_solve hdegree, Solution.complexRoots_coerce]
  exact List.length_filter_le _ _

/-- The quadratic formula finds a complex pair where the discriminant is negative, and no complex
root elsewhere. -/
theorem length_complexRoots_quadratic :
    (p.rootsByDegree maths .quadratic).complexRoots.length =
      if quadraticDiscriminant p.b p.c p.d < 0 then 2 else 0 := by
  by_cases h : quadraticDiscriminant p.b p.c p.d < 0
  · rw [if_pos h]
    simp only [rootsByDegree, quadraticRoots, if_pos h]
    rfl
  · rw [if_neg h]
    simp only [rootsByDegree, quadraticRoots, if_neg h]
    rfl

variable {p}

/-- On the trigonometric branch no root stays complex. -/
theorem complexRoots_solve_of_isTrigonometric (hdegree : p.degree? = some .cubic)
    (h : (p.cubicRoots maths).branch.IsTrigonometric) :
    (p.solve maths tolerance).solution.complexRoots = [] := by
  have hroots : (p.cubicRoots maths).roots = (p.trigonometricRoots maths).map .ofReal := by
    unfold cubicRoots at h ⊢
    split_ifs at h ⊢
    · exact h.elim
    · rfl
    · exact h.elim
  rw [solution_solve hdegree, Solution.complexRoots_coerce]
  apply List.filter_eq_nil_iff.2
  intro z hz
  have hmem : z ∈ (p.cubicRoots maths).roots := hz
  rw [hroots] at hmem
  obtain ⟨x, -, rfl⟩ := List.mem_map.1 hmem
  rw [Solution.isNearlyReal_ofReal]
  decide

/-! ## The stories of the degrees -/

/-- The story of a solution with the given numbers of roots and coerced roots. -/
theorem eventsTell_of_counts {degree : Degree} (hdegree : p.degree? = some degree)
    {real complex moved : Nat}
    (hreal : (p.solve maths tolerance).solution.realRoots.length = real)
    (hcomplex : (p.solve maths tolerance).solution.complexRoots.length = complex)
    (hmoved : (p.rootsByDegree maths degree).complexRoots.length - complex = moved)
    (h : EventsTell maths p
      (.dispatched p (some degree) :: p.eventsByDegree maths degree ++ coercionEvents moved)
      real complex) :
    EventsTell maths p (p.solve maths tolerance).events
      (p.solve maths tolerance).solution.realRoots.length
      (p.solve maths tolerance).solution.complexRoots.length := by
  rw [events_solve hdegree, hreal, hcomplex, hmoved]
  exact h

theorem eventsTell_linear (hdegree : p.degree? = some .linear) :
    EventsTell maths p (p.solve maths tolerance).events
      (p.solve maths tolerance).solution.realRoots.length
      (p.solve maths tolerance).solution.complexRoots.length := by
  have hsize : _ + _ = 1 := size_solve maths tolerance p hdegree
  have hnone : (p.solve maths tolerance).solution.complexRoots.length = 0 :=
    Nat.le_zero.1 (length_complexRoots_solve_le maths tolerance p hdegree)
  have hreal : (p.solve maths tolerance).solution.realRoots.length = 1 := by omega
  exact eventsTell_of_counts maths tolerance hdegree hreal hnone rfl (.linear hdegree)

theorem eventsTell_quadratic (hdegree : p.degree? = some .quadratic) :
    EventsTell maths p (p.solve maths tolerance).events
      (p.solve maths tolerance).solution.realRoots.length
      (p.solve maths tolerance).solution.complexRoots.length := by
  have hsize : _ + _ = 2 := size_solve maths tolerance p hdegree
  have hfound := length_complexRoots_quadratic maths p
  by_cases hnegative : quadraticDiscriminant p.b p.c p.d < 0
  · rw [if_pos hnegative] at hfound
    -- coercion takes the whole pair or nothing
    rcases length_complexRoots_solve maths tolerance p with hcomplex | hcomplex
    · have hreal : (p.solve maths tolerance).solution.realRoots.length = 2 := by omega
      exact eventsTell_of_counts maths tolerance hdegree hreal hcomplex (by rw [hfound])
        (.quadraticCoerced hdegree rfl hnegative)
    · have hreal : (p.solve maths tolerance).solution.realRoots.length = 0 := by omega
      exact eventsTell_of_counts maths tolerance hdegree hreal hcomplex (by rw [hfound])
        (.quadraticPair hdegree rfl hnegative)
  · rw [if_neg hnegative] at hfound
    have hle := length_complexRoots_solve_le maths tolerance p hdegree
    rw [hfound] at hle
    have hcomplex := Nat.le_zero.1 hle
    have hreal : (p.solve maths tolerance).solution.realRoots.length = 2 := by omega
    exact eventsTell_of_counts maths tolerance hdegree hreal hcomplex (by rw [hfound])
      (.quadraticReal hdegree rfl hnegative)

theorem eventsTell_cubic (hdegree : p.degree? = some .cubic) :
    EventsTell maths p (p.solve maths tolerance).events
      (p.solve maths tolerance).solution.realRoots.length
      (p.solve maths tolerance).solution.complexRoots.length := by
  have hsize : _ + _ = 3 := size_solve maths tolerance p hdegree
  have hfound : (p.rootsByDegree maths .cubic).complexRoots.length = 3 :=
    length_roots_cubicRoots maths p
  rcases length_complexRoots_solve maths tolerance p with hcomplex | hcomplex
  · have hreal : (p.solve maths tolerance).solution.realRoots.length = 3 := by omega
    exact eventsTell_of_counts maths tolerance hdegree hreal hcomplex (by rw [hfound])
      (.cubicReal hdegree rfl)
  · have hreal : (p.solve maths tolerance).solution.realRoots.length = 1 := by omega
    -- the trigonometric branch would leave no pair
    have hbranch : ¬ (p.cubicRoots maths).branch.IsTrigonometric := by
      intro h
      rw [complexRoots_solve_of_isTrigonometric maths tolerance hdegree h] at hcomplex
      cases hcomplex
    have hmoved : (p.rootsByDegree maths .cubic).complexRoots.length - 2 = 1 := by rw [hfound]
    exact eventsTell_of_counts maths tolerance hdegree hreal hcomplex hmoved
      (.cubicPair hdegree rfl hbranch)

/-- Every solution fits the story of its events. -/
theorem eventsTell_solve :
    EventsTell maths p (p.solve maths tolerance).events
      (p.solve maths tolerance).solution.realRoots.length
      (p.solve maths tolerance).solution.complexRoots.length := by
  cases hdegree : p.degree? with
  | none =>
    rw [solve_of_degree?_eq_none hdegree]
    exact .withoutVariable hdegree
  | some degree =>
    cases degree with
    | linear => exact eventsTell_linear maths tolerance hdegree
    | quadratic => exact eventsTell_quadratic maths tolerance hdegree
    | cubic => exact eventsTell_cubic maths tolerance hdegree

/-- Events and solution tell the same story. The events of every polynomial, whatever its
coefficients, are those of a story that ends in as many real and complex roots as its solution has.
Solutions with the same events have the same numbers of roots. -/
theorem events_determine_roots (p : Coefficients Float) :
    EventsTell maths p (p.solve maths tolerance).events
        (p.solve maths tolerance).solution.realRoots.length
        (p.solve maths tolerance).solution.complexRoots.length ∧
      ∀ maths' tolerance' (q : Coefficients Float),
        (q.solve maths' tolerance').events = (p.solve maths tolerance).events →
          (q.solve maths' tolerance').solution.realRoots.length =
              (p.solve maths tolerance).solution.realRoots.length ∧
            (q.solve maths' tolerance').solution.complexRoots.length =
              (p.solve maths tolerance).solution.complexRoots.length := by
  have htells := eventsTell_solve maths tolerance (p := p)
  refine ⟨htells, ?_⟩
  intro maths' tolerance' q hevents
  have htells' := eventsTell_solve maths' tolerance' (p := q)
  rw [hevents] at htells'
  exact htells'.unique htells

end Coefficients

end EquationRoots
