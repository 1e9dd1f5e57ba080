import EquationRoots.Proofs.Mirror.Formulas
import EquationRoots.Proofs.Overflow.Solve
import EquationRoots.Proofs.Residual.Elementary
import EquationRoots.Proofs.Roots.Conjugate

/-!
# A polynomial and its mirror image have the same roots

Two runs of the solver are compared, on a polynomial and on its mirror image. Before coercion their
roots are the same numbers in the same places, but for a conjugate pair at the end whose numbers may
be exchanged (`MirroredRoots`). Coercion looks at one root at a time and cannot tell a number from
its conjugate, so that it keeps the relation.
-/

set_option autoImplicit false

namespace EquationRoots

open Binary64
open scoped Scalar

/-! ## Lists of roots -/

@[simp] theorem ComplexNum.conj_conj (z : ComplexNum Float) : z.conj.conj = z := by
  rw [conj, conj, Binary64.neg_neg]

namespace ComplexNum.SameValue

variable {z w : ComplexNum Float}

protected theorem refl (z : ComplexNum Float) : z.SameValue z := ⟨.refl z.re, .refl z.im⟩

theorem ofReal {x y : Float} (h : Binary64.SameValue x y) :
    (ComplexNum.ofReal x).SameValue (.ofReal y) := ⟨h, .refl _⟩

theorem conj (h : z.SameValue w) : z.conj.SameValue w.conj := ⟨h.1, h.2.neg⟩

theorem isNearlyReal_eq (h : z.SameValue w) (bound : Float) :
    Solution.isNearlyReal bound z = Solution.isNearlyReal bound w :=
  decide_eq_decide.2 (h.2.abs.le_iff (.refl bound))

end ComplexNum.SameValue

/-- The same roots place by place, except that the numbers of a conjugate pair at the end may have
traded places. -/
inductive MirroredRoots : List (ComplexNum Float) → List (ComplexNum Float) → Prop
  | nil : MirroredRoots [] []
  | swapped {z z' : ComplexNum Float} (h : z'.SameValue z.conj) :
      MirroredRoots [z', z'.conj] [z, z.conj]
  | cons {z z' : ComplexNum Float} {roots roots' : List (ComplexNum Float)} (h : z'.SameValue z)
      (rest : MirroredRoots roots' roots) : MirroredRoots (z' :: roots') (z :: roots)

namespace MirroredRoots

variable {roots roots' : List (ComplexNum Float)}

theorem of_forall₂ (h : List.Forall₂ ComplexNum.SameValue roots' roots) :
    MirroredRoots roots' roots := by
  induction h with
  | nil => exact .nil
  | cons h _ ih => exact .cons h ih

theorem of_quadraticRoots {found found' : QuadraticRoots Float} (h : found'.Mirrors found) :
    MirroredRoots found'.toList found.toList := by
  cases h with
  | real hlower hupper => exact .cons (.ofReal hlower) (.cons (.ofReal hupper) .nil)
  | pair h => exact .swapped h

theorem length_eq (h : MirroredRoots roots' roots) : roots'.length = roots.length := by
  induction h with
  | nil | swapped => rfl
  | cons _ _ ih => exact congrArg (· + 1) ih

/-- A test that cannot tell a number from its conjugate selects the roots in both lists alike. -/
theorem filter {keep : ComplexNum Float → Bool}
    (hkeep : ∀ z w : ComplexNum Float, z.SameValue w → keep z = keep w)
    (hconj : ∀ z : ComplexNum Float, keep z.conj = keep z) (h : MirroredRoots roots' roots) :
    MirroredRoots (roots'.filter keep) (roots.filter keep) := by
  induction h with
  | nil => exact .nil
  | @swapped z z' h =>
    -- the pair stays or goes as a whole, and so does the exchanged one
    have hsame : keep z' = keep z := (hkeep _ _ h).trans (hconj z)
    cases hz : keep z with
    | false => simpa [hconj, hsame, hz] using nil
    | true => simpa [hconj, hsame, hz] using swapped h
  | @cons z z' roots roots' h _ ih =>
    cases hz : keep z with
    | false => simpa [hkeep z' z h, hz] using ih
    | true => simpa [hkeep z' z h, hz] using cons h ih

theorem filter_isNearlyReal (bound : Float) (h : MirroredRoots roots' roots) :
    MirroredRoots (roots'.filter (Solution.isNearlyReal bound))
      (roots.filter (Solution.isNearlyReal bound)) :=
  h.filter (fun _ _ hzw => hzw.isNearlyReal_eq bound) (Solution.isNearlyReal_conj bound)

theorem filter_not_isNearlyReal (bound : Float) (h : MirroredRoots roots' roots) :
    MirroredRoots (roots'.filter fun z => !Solution.isNearlyReal bound z)
      (roots.filter fun z => !Solution.isNearlyReal bound z) :=
  h.filter (fun _ _ hzw => congrArg (! ·) (hzw.isNearlyReal_eq bound))
    fun z => congrArg (! ·) (Solution.isNearlyReal_conj bound z)

/-- The numbers of a conjugate pair have one real part, so that the real parts keep their places. -/
theorem map_re (h : MirroredRoots roots' roots) :
    List.Forall₂ SameValue (roots'.map ComplexNum.re) (roots.map ComplexNum.re) := by
  induction h with
  | nil => exact .nil
  | swapped h => exact .cons h.1 (.cons h.1 .nil)
  | cons h _ ih => exact .cons h.1 ih

/-- At most two roots are the same in order or exchanged. -/
theorem forall₂_or_exchanged (h : MirroredRoots roots' roots) (hle : roots.length ≤ 2) :
    List.Forall₂ ComplexNum.SameValue roots' roots ∨
      ∃ z w, roots = [z, w] ∧ List.Forall₂ ComplexNum.SameValue roots' [w, z] := by
  induction h with
  | nil => exact Or.inl .nil
  | @swapped z z' h =>
    refine Or.inr ⟨z, z.conj, rfl, .cons h (.cons ?_ .nil)⟩
    have hconj := h.conj
    rwa [ComplexNum.conj_conj] at hconj
  | @cons z z' roots roots' h rest ih =>
    rcases ih (by simp at hle; omega) with hsame | ⟨u, w, rfl, -⟩
    · exact Or.inl (.cons h hsame)
    · simp at hle

end MirroredRoots

/-! ## Reports -/

/-- The same error or none in either, and the same roots: the real ones place by place, the complex
ones too or with the pair exchanged. -/
structure Solution.Mirrors (s' s : Solution Float) : Prop where
  error : s'.error = s.error
  realRoots : List.Forall₂ SameValue s'.realRoots s.realRoots
  complexRoots : List.Forall₂ ComplexNum.SameValue s'.complexRoots s.complexRoots ∨
    ∃ z w, s.complexRoots = [z, w] ∧ List.Forall₂ ComplexNum.SameValue s'.complexRoots [w, z]

/-- Coercion keeps solutions alike. -/
theorem Solution.mirrors_coerce {found found' : Solution Float} {bound : Float}
    (herror : found'.error = found.error)
    (hreal : List.Forall₂ SameValue found'.realRoots found.realRoots)
    (hcomplex : MirroredRoots found'.complexRoots found.complexRoots)
    (hle : (found.coerce bound).complexRoots.length ≤ 2) :
    (found'.coerce bound).Mirrors (found.coerce bound) := by
  have hnear := (hcomplex.filter_isNearlyReal bound).map_re
  have hfar := hcomplex.filter_not_isNearlyReal bound
  rw [complexRoots_coerce] at hle
  refine ⟨?_, ?_, ?_⟩
  · rwa [error_coerce, error_coerce]
  · rw [realRoots_coerce, realRoots_coerce]
    exact List.rel_append hreal hnear
  · rw [complexRoots_coerce, complexRoots_coerce]
    exact hfar.forall₂_or_exchanged hle

theorem Solution.Mirrors.length_complexRoots {s s' : Solution Float} (h : s'.Mirrors s) :
    s'.complexRoots.length = s.complexRoots.length := by
  rcases h.complexRoots with hsame | ⟨z, w, hs, hsame⟩
  · exact hsame.length_eq
  · rw [hs]
    exact hsame.length_eq

/-- The same branch with the same reduced coefficients. -/
inductive CubicBranch.Mirrors : CubicBranch Float → CubicBranch Float → Prop
  | factoredZeroRoot : Mirrors .factoredZeroRoot .factoredZeroRoot
  | trigonometric {q q' r r' : Float} (hq : SameValue q' q) (hr : SameValue r' r) :
      Mirrors (.trigonometric q' r') (.trigonometric q r)
  | cardano {q q' r r' : Float} (hq : SameValue q' q) (hr : SameValue r' r) :
      Mirrors (.cardano q' r') (.cardano q r)

/-- The same decision about a polynomial and about its mirror image, with the same numbers. -/
inductive Event.Mirrors : Event Float → Event Float → Prop
  | dispatched {p p' : Coefficients Float} (h : p'.Mirrors p) (degree : Option Degree) :
      Mirrors (.dispatched p' degree) (.dispatched p degree)
  | discriminant {value value' : Float} (h : SameValue value' value) :
      Mirrors (.discriminant value') (.discriminant value)
  | cubic {branch branch' : CubicBranch Float} (h : branch'.Mirrors branch) :
      Mirrors (.cubic branch') (.cubic branch)
  | coerced (moved : Nat) : Mirrors (.coerced moved) (.coerced moved)

theorem forall₂_coercionEvents (moved : Nat) :
    List.Forall₂ Event.Mirrors (Coefficients.coercionEvents moved)
      (Coefficients.coercionEvents moved) := by
  rw [Coefficients.coercionEvents]
  split
  · exact .cons (.coerced moved) .nil
  · exact .nil

/-- The same solution by the same decisions, one by one. -/
structure Report.Mirrors (r' r : Report Float) : Prop where
  solution : r'.solution.Mirrors r.solution
  events : List.Forall₂ Event.Mirrors r'.events r.events

namespace Coefficients.Mirrors

variable {maths : Elementary Float} {p p' : Coefficients Float} (h : p'.Mirrors p)

include h

theorem degree?_eq : p'.degree? = p.degree? := by
  unfold degree?
  rw [h.a.bne_zero_eq, h.b.bne_zero_eq, h.c.bne_zero_eq]

variable (hm : maths.RespectsValues)

include hm

theorem cardanoRoots (h0 : ¬ IsZero p.a) :
    List.Forall₂ ComplexNum.SameValue (p'.cardanoRoots maths) (p.cardanoRoots maths) := by
  have hs := h.cardanoS h0 hm
  have ht := h.cardanoT h0 hm
  have hsum := hs.add ht
  have hre := (hsum.neg.div_right 2).sub (h.shift h0)
  have him := ((hs.sub ht).mul_right (Scalar.sqrt 3)).div_right 2
  exact .cons (.ofReal (hsum.sub (h.shift h0))) (.cons ⟨hre, him⟩ (.cons ⟨hre, him.neg⟩ .nil))

/-- All branches for cubic polynomials find the same roots and report the same numbers. -/
theorem cubicRoots (h0 : ¬ IsZero p.a) :
    (p'.cubicRoots maths).branch.Mirrors (p.cubicRoots maths).branch ∧
      MirroredRoots (p'.cubicRoots maths).roots (p.cubicRoots maths).roots := by
  have hdisc := h.reducedDiscriminant h0
  have hq := h.reducedQ h0
  have hr := h.reducedR h0
  unfold Coefficients.cubicRoots
  rw [h.d.beq_zero_eq]
  split
  · have hquadratic := mirrors_quadraticRoots h.a h.b h.c h0
    exact ⟨.factoredZeroRoot, .cons (.refl _) (.of_quadraticRoots hquadratic)⟩
  · simp only [hdisc.lt_iff (.refl 0)]
    split
    · rename_i hneg
      have hroot (k : Float) := ComplexNum.SameValue.ofReal (h.trigonometricRoot h0 hneg hm k)
      exact ⟨.trigonometric hq hr, .cons (hroot _) (.cons (hroot _) (.cons (hroot _) .nil))⟩
    · exact ⟨.cardano hq hr, .of_forall₂ (h.cardanoRoots hm h0)⟩

/-- The formula for a degree emits the same events. -/
theorem eventsByDegree {degree : Degree} (hdegree : p.degree? = some degree) :
    List.Forall₂ Event.Mirrors (p'.eventsByDegree maths degree)
      (p.eventsByDegree maths degree) := by
  cases degree with
  | linear => exact .nil
  | quadratic =>
    exact .cons (.discriminant (sameValue_quadraticDiscriminant h.b h.c h.d)) .nil
  | cubic =>
    have h0 := (bne_zero_iff p.a).1 (a_ne_zero_of_degree hdegree)
    exact .cons (.cubic (h.cubicRoots hm h0).1) .nil

/-- The formula for a degree finds the same roots. -/
theorem rootsByDegree {degree : Degree} (hdegree : p.degree? = some degree) :
    List.Forall₂ SameValue (p'.rootsByDegree maths degree).realRoots
        (p.rootsByDegree maths degree).realRoots ∧
      MirroredRoots (p'.rootsByDegree maths degree).complexRoots
        (p.rootsByDegree maths degree).complexRoots := by
  cases degree with
  | linear =>
    have h0 := (bne_zero_iff p.c).1 (c_ne_zero_of_degree hdegree)
    exact ⟨.cons (sameValue_linearRoot h.c h.d h0) .nil, .nil⟩
  | quadratic =>
    have h0 := (bne_zero_iff p.b).1 (b_ne_zero_of_degree hdegree)
    have hroots := mirrors_quadraticRoots h.b h.c h.d h0
    simp only [Coefficients.rootsByDegree]
    generalize quadraticRoots p'.b p'.c p'.d = found' at hroots ⊢
    generalize quadraticRoots p.b p.c p.d = found at hroots ⊢
    cases hroots with
    | real hlower hupper => exact ⟨.cons hlower (.cons hupper .nil), .nil⟩
    | pair hpair => exact ⟨.nil, .swapped hpair⟩
  | cubic =>
    have h0 := (bne_zero_iff p.a).1 (a_ne_zero_of_degree hdegree)
    exact ⟨.nil, (h.cubicRoots hm h0).2⟩

/-- A polynomial and its mirror image are solved alike. -/
theorem solve (tolerance : Tolerance Float) :
    (p'.solve maths tolerance).Mirrors (p.solve maths tolerance) := by
  have hle : (p.solve maths tolerance).solution.complexRoots.length ≤ 2 := by
    rcases complexRoots_solve_eq maths tolerance p with hnone | ⟨z, hpair, -⟩
    · simp [hnone]
    · simp [hpair]
  cases hdegree : p.degree? with
  | none =>
    rw [solve_of_degree?_eq_none hdegree, solve_of_degree?_eq_none (h.degree?_eq.trans hdegree)]
    exact ⟨⟨rfl, .cons (.refl _) .nil, Or.inl .nil⟩, .cons (.dispatched h none) .nil⟩
  | some degree =>
    have hdegree' := h.degree?_eq.trans hdegree
    obtain ⟨hreal, hcomplex⟩ := h.rootsByDegree hm hdegree
    have hsolution : (p'.solve maths tolerance).solution.Mirrors
        (p.solve maths tolerance).solution := by
      rw [solution_solve hdegree] at hle ⊢
      rw [solution_solve hdegree']
      exact Solution.mirrors_coerce (by simp) hreal hcomplex hle
    refine ⟨hsolution, ?_⟩
    rw [events_solve hdegree, events_solve hdegree', hcomplex.length_eq,
      hsolution.length_complexRoots]
    exact List.rel_append (.cons (.dispatched h _) (h.eventsByDegree hm hdegree))
      (forall₂_coercionEvents _)

end Coefficients.Mirrors

/-! ## Negation of all coefficients -/

theorem Elementary.respectsValues_rounded : Elementary.rounded.RespectsValues where
  cbrt h := .of_eq (congrArg (fun r => closeFloat (cubeRoot r)) h.toReal_eq)
  cos h := .of_eq (congrArg (fun r => closeFloat (Real.cos r)) h.toReal_eq)
  acos h := .of_eq (congrArg (fun r => closeFloat (Real.arccos r)) h.toReal_eq)

namespace Coefficients

/-- Negating a polynomial does not change its roots. The error is the same, the real roots are
the same numbers place by place, and so are the complex ones, in order or with the pair exchanged.
The decisions on the way are the same too, with the same discriminants and reduced coefficients. -/
theorem solve_negated {maths : Elementary Float} (hm : maths.RespectsValues)
    (tolerance : Tolerance Float) (p : Coefficients Float) :
    (p.negated.solve maths tolerance).Mirrors (p.solve maths tolerance) :=
  (mirrors_negated p).solve hm tolerance

/-- The polynomial `x³ - 1` and its mirror image `1 - x³`, which Cardano's formula solves. -/
theorem solve_negated_cube_sub_one :
    ((⟨1, 0, 0, -1⟩ : Coefficients Float).negated.solve .rounded .zero).Mirrors
      ((⟨1, 0, 0, -1⟩ : Coefficients Float).solve .rounded .zero) :=
  solve_negated Elementary.respectsValues_rounded .zero ⟨1, 0, 0, -1⟩

end Coefficients

end EquationRoots
