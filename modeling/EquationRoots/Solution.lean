import EquationRoots.ComplexNum
import EquationRoots.Error

/-!
# Solutions

A solution lists the real roots and the complex roots, and may carry an error. Coercion moves the
complex roots whose imaginary part is within a tolerance to the real ones, in order and without
losing any.
-/

set_option autoImplicit false

namespace EquationRoots

/-- The roots that were found, real ones apart from those with an imaginary part, and the error if
there is one. -/
structure Solution (α : Type) where
  realRoots : List α
  complexRoots : List (ComplexNum α)
  error : Option Error
deriving BEq, DecidableEq

namespace Solution

variable {α : Type}

/-- The solution without roots and without an error. -/
def empty : Solution α := ⟨[], [], none⟩

/-- A solution that has only real roots. -/
def ofReal (roots : List α) : Solution α := ⟨roots, [], none⟩

/-- A solution that has only complex roots. -/
def ofComplex (roots : List (ComplexNum α)) : Solution α := ⟨[], roots, none⟩

/-- The solution without roots that carries an error. -/
def failed (error : Error) : Solution α := ⟨[], [], some error⟩

/-- Whether there is no error. -/
def isOk (s : Solution α) : Bool := s.error.isNone

/-- The number of roots. -/
def size (s : Solution α) : Nat := s.realRoots.length + s.complexRoots.length

/-- Whether there is no root. -/
def isEmpty (s : Solution α) : Bool := s.size == 0

@[simp] theorem size_empty : (empty : Solution α).size = 0 := rfl

@[simp] theorem size_failed (error : Error) : (failed error : Solution α).size = 0 := rfl

@[simp] theorem size_ofReal (roots : List α) : (ofReal roots).size = roots.length := rfl

@[simp] theorem size_ofComplex (roots : List (ComplexNum α)) :
    (ofComplex roots).size = roots.length := by simp [ofComplex, size]

variable [Scalar α]

/-- All roots as complex numbers, the real ones first. -/
def roots (s : Solution α) : List (ComplexNum α) :=
  s.realRoots.map .ofReal ++ s.complexRoots

@[simp] theorem length_roots (s : Solution α) : s.roots.length = s.size := by
  simp [roots, size]

/-! ## Coercion -/

/-- Whether the imaginary part is within the tolerance. "Not a number" is within none. -/
def isNearlyReal (bound : α) (z : ComplexNum α) : Bool := Scalar.abs z.im ≤ bound

/-- The real parts of the roots that are nearly real, and the other roots, each in order. -/
def partitionRoots (bound : α) (roots : List (ComplexNum α)) : List α × List (ComplexNum α) :=
  let (near, far) := roots.partition (isNearlyReal bound)
  (near.map ComplexNum.re, far)

/-- Moves the complex roots that are nearly real to the end of the real roots. -/
def coerce (s : Solution α) (bound : α) : Solution α :=
  let (near, far) := partitionRoots bound s.complexRoots
  ⟨s.realRoots ++ near, far, s.error⟩

@[simp] theorem error_coerce (s : Solution α) (bound : α) : (s.coerce bound).error = s.error := rfl

theorem realRoots_coerce (s : Solution α) (bound : α) :
    (s.coerce bound).realRoots =
      s.realRoots ++ (s.complexRoots.filter (isNearlyReal bound)).map ComplexNum.re := by
  simp [coerce, partitionRoots, List.partition_eq_filter_filter]

theorem complexRoots_coerce (s : Solution α) (bound : α) :
    (s.coerce bound).complexRoots =
      s.complexRoots.filter fun z => !isNearlyReal bound z := by
  simp [coerce, partitionRoots, List.partition_eq_filter_filter]
  rfl

/-- Coercion loses no root. -/
@[simp] theorem size_coerce (s : Solution α) (bound : α) : (s.coerce bound).size = s.size := by
  have h := s.complexRoots.length_eq_countP_add_countP (isNearlyReal bound)
  simp only [Bool.not_eq_true, Bool.decide_eq_false] at h
  simp only [size, realRoots_coerce, complexRoots_coerce, List.length_append, List.length_map,
    ← List.countP_eq_length_filter]
  omega

end Solution

end EquationRoots
