import EquationRoots.Proofs.Equation.Buckets
import EquationRoots.Proofs.Equation.Reordering

/-!
# Partial sums of like terms

An equation is accepted by a look at the final sums of its like terms. This says all about the sums
on the way. The coefficient of a term that is read is finite, so that a sum which has left the range
meets no opposite infinity: it stays the same infinity whatever terms follow, and is there to be
seen at the end. A partial sum that overflows is neither hidden by later terms that would bring the
exact sum back into the range, nor does it become "not a number".

- `Term.Overflows`: some partial sum of the terms is infinite.
- `Term.isFinite_sum_iff`: the final sum is finite exactly when all partial sums are.
- `Equation.likeTerms`: the terms of a power in the order of the text.
- `Equation.standardForm_partialSums`: an equation is refused for an overflow exactly when some
  partial sum overflows, and accepted exactly when none does.

The partial sums decide about texts with one equal sign only. Any other text is refused for its
shape before its terms are added up, also where a sum overflows
(`Equation.standardForm_partialSums_twoEqualSigns`).
-/

set_option autoImplicit false

namespace EquationRoots

open Binary64

namespace Term

/-! ## Terms -/

theorem IsUnsigned.isFinite_value {t : Term} (h : t.IsUnsigned) : t.value.isFinite = true := by
  cases hs : t.sign with
  | positive =>
    rw [value, hs]
    exact h.isFinite
  | negative =>
    rw [value, hs, Sign.apply_negative, isFinite_neg]
    exact h.isFinite

/-- The sum goes on from that of the terms in front. -/
theorem sum_append (front rest : List Term) :
    sum (front ++ rest) = (rest.map value).foldl (· + ·) (sum front) := by
  rw [sum, List.foldl_append, List.foldl_map]
  rfl

/-- Some partial sum of the terms is infinite. -/
def Overflows (terms : List Term) : Prop :=
  ∃ front, front <+: terms ∧ (sum front).isInf = true

instance (terms : List Term) : Decidable (Overflows terms) :=
  decidable_of_iff (∃ front ∈ terms.inits, (sum front).isInf = true) (by
    simp only [Overflows, List.mem_inits])

/-- The final sum is finite exactly when all partial sums are. -/
theorem isFinite_sum_iff (terms : List Term) :
    (sum terms).isFinite = true ↔ ∀ front, front <+: terms → (sum front).isFinite = true := by
  constructor
  · rintro h front ⟨rest, rfl⟩
    rw [sum_append] at h
    exact isFinite_of_foldl_add h
  · intro h
    exact h terms List.prefix_rfl

section Unsigned

variable {terms : List Term} (hterms : ∀ t ∈ terms, t.IsUnsigned)

include hterms

theorem isFinite_of_mem_map_value : ∀ x ∈ terms.map value, x.isFinite = true := by
  intro x hx
  obtain ⟨t, ht, rfl⟩ := List.mem_map.1 hx
  exact (hterms t ht).isFinite_value

/-- No sum is "not a number". -/
theorem isNaN_sum : (sum terms).isNaN = false := by
  rw [sum_eq_foldl]
  exact isNaN_foldl_add (isFinite_of_mem_map_value hterms) rfl

/-- A partial sum that is infinite is the final sum. -/
theorem sum_eq_of_isInf {front : List Term} (hfront : front <+: terms)
    (h : (sum front).isInf = true) : sum terms = sum front := by
  obtain ⟨rest, rfl⟩ := hfront
  obtain ⟨s, hs⟩ := exists_eq_inf h
  have hrest : ∀ t ∈ rest, t.IsUnsigned := fun t ht => hterms t (List.mem_append_right front ht)
  rw [sum_append, hs]
  exact foldl_add_inf (isFinite_of_mem_map_value hrest) s

/-- The final sum shows whether a partial sum overflows. -/
theorem isFinite_sum_eq_false_iff : (sum terms).isFinite = false ↔ Overflows terms := by
  constructor
  · intro h
    exact ⟨terms, List.prefix_rfl, isInf_of_not_isFinite (isNaN_sum hterms) h⟩
  · rintro ⟨front, hfront, hinf⟩
    rw [sum_eq_of_isInf hterms hfront hinf]
    obtain ⟨s, hs⟩ := exists_eq_inf hinf
    rw [hs, isFinite_inf]

end Unsigned

end Term

/-! ## Polynomials -/

namespace Coefficients

theorem isFinite_iff_ofPower (p : Coefficients Float) :
    p.isFinite = true ↔ ∀ n, (p.ofPower n).isFinite = true :=
  Equation.isFinite_ofPowers_iff p.ofPower

theorem ext_ofPower {p q : Coefficients Float} (h : ∀ n, p.ofPower n = q.ofPower n) : p = q := by
  obtain ⟨a, b, c, d⟩ := p
  obtain ⟨a', b', c', d'⟩ := q
  have ha : a = a' := h .three
  have hb : b = b' := h .two
  have hc : c = c' := h .one
  have hd : d = d' := h .zero
  rw [ha, hb, hc, hd]

end Coefficients

namespace Equation

/-! ## Equations -/

/-- The terms of a power in the order of the text, those behind an equal sign with the other
sign. -/
def likeTerms (equation : Text) (n : Exponent) : List Term :=
  (contributions (segments equation)).filter (·.exponent = n)

/-- The polynomial that collects the like terms of a text. -/
def likeSums (equation : Text) : Coefficients Float :=
  (Classified.ofTerms (contributions (segments equation))).coefficients

/-- Its coefficients are the sums of like terms. -/
theorem ofPower_likeSums (equation : Text) (n : Exponent) :
    (likeSums equation).ofPower n = Term.sum (likeTerms equation n) := by
  rw [likeTerms, ← Classified.bucket_ofTerms]
  cases n <;> rfl

section AllRead

variable {equation : Text} (hread : AllRead (segments equation))

include hread

/-- The like terms of a text are what its segments are classified as. -/
theorem ofSegments_likeTerms :
    ∃ c, Classified.ofSegments (segments equation) = .ok c ∧
      ∀ n, c.bucket n = likeTerms equation n :=
  ⟨_, (Classified.ofSegments_eq_ok_iff _ _).2 ⟨hread, rfl⟩, Classified.bucket_ofTerms _⟩

theorem isUnsigned_likeTerms (n : Exponent) : ∀ t ∈ likeTerms equation n, t.IsUnsigned := by
  intro t ht
  have hterms := (balancedTerms_eq_ok_iff (segments equation) _).2 ⟨hread, rfl⟩
  exact isUnsigned_of_balancedTerms hterms t (List.mem_filter.1 ht).1

/-- A text whose segments are read is read as a whole if it has one equal sign. -/
theorem isRead_iff_of_allRead (terms : List Term) :
    IsRead equation terms ↔ equation.count '=' = 1 ∧ terms = contributions (segments equation) := by
  constructor
  · rintro ⟨hcount, hterms⟩
    exact ⟨hcount, ((balancedTerms_eq_ok_iff _ _).1 hterms).2⟩
  · rintro ⟨hcount, rfl⟩
    exact ⟨hcount, (balancedTerms_eq_ok_iff _ _).2 ⟨hread, rfl⟩⟩

/-- Such a text is refused for an overflow exactly when some partial sum overflows. -/
theorem standardForm_eq_overflow_iff_overflows (text : Text) :
    standardForm equation = .error (.coefficientOverflow text) ↔
      text = equation ∧ equation.count '=' = 1 ∧ ∃ n, Term.Overflows (likeTerms equation n) := by
  have hoverflow : (likeSums equation).isFinite = false ↔
      ∃ n, Term.Overflows (likeTerms equation n) := by
    rw [← Bool.not_eq_true, Coefficients.isFinite_iff_ofPower, not_forall]
    refine exists_congr fun n => ?_
    rw [Bool.not_eq_true, ofPower_likeSums,
      Term.isFinite_sum_eq_false_iff (isUnsigned_likeTerms hread n)]
  rw [standardForm_eq_overflow_iff, ← hoverflow]
  simp only [isRead_iff_of_allRead hread, and_assoc, exists_and_left, exists_eq_left]
  rfl

/-- It is accepted exactly when all partial sums are finite. -/
theorem standardForm_eq_ok_iff_partialSums (p : Coefficients Float) :
    standardForm equation = .ok p ↔
      equation.count '=' = 1 ∧ p.isFinite = true ∧ ∀ n,
        p.ofPower n = Term.sum (likeTerms equation n) ∧
          ∀ front, front <+: likeTerms equation n → (Term.sum front).isFinite = true := by
  rw [standardForm_eq_ok_iff]
  simp only [isRead_iff_of_allRead hread]
  constructor
  · rintro ⟨hfinite, _, ⟨hcount, rfl⟩, rfl⟩
    refine ⟨hcount, hfinite, ?_⟩
    intro n
    have hn := (Coefficients.isFinite_iff_ofPower _).1 hfinite n
    have hsum := ofPower_likeSums equation n
    refine ⟨hsum, ?_⟩
    rw [← Term.isFinite_sum_iff, ← hsum]
    exact hn
  · rintro ⟨hcount, hfinite, hsums⟩
    refine ⟨hfinite, _, ⟨hcount, rfl⟩, ?_⟩
    apply Coefficients.ext_ofPower
    intro n
    exact (ofPower_likeSums equation n).trans (hsums n).1.symm

/-- An overflow on the way is never hidden and never becomes "not a number". Of a text whose
segments are all read, the terms of each power are classified in the order of the text, and none of
their partial sums is "not a number". One that is infinite stays the same infinity whatever terms
follow. So a text with one equal sign is refused for an overflow exactly when some partial sum is
infinite, and accepted exactly when all partial sums are finite; the final ones are then the
coefficients. A text with no equal sign or several of them is neither. -/
theorem standardForm_partialSums :
    (∃ c, Classified.ofSegments (segments equation) = .ok c ∧
        ∀ n, c.bucket n = likeTerms equation n) ∧
      (∀ n front, front <+: likeTerms equation n → (Term.sum front).isNaN = false) ∧
      (∀ n front longer, front <+: longer → longer <+: likeTerms equation n →
        (Term.sum front).isInf = true → Term.sum longer = Term.sum front) ∧
      (∀ text, standardForm equation = .error (.coefficientOverflow text) ↔
        text = equation ∧ equation.count '=' = 1 ∧ ∃ n, Term.Overflows (likeTerms equation n)) ∧
      ∀ p, standardForm equation = .ok p ↔
        equation.count '=' = 1 ∧ p.isFinite = true ∧ ∀ n,
          p.ofPower n = Term.sum (likeTerms equation n) ∧
            ∀ front, front <+: likeTerms equation n → (Term.sum front).isFinite = true := by
  have hunsigned {n : Exponent} {front : List Term} (hfront : front <+: likeTerms equation n) :
      ∀ t ∈ front, t.IsUnsigned :=
    fun t ht => isUnsigned_likeTerms hread n t (hfront.subset ht)
  refine ⟨ofSegments_likeTerms hread, ?_, ?_, standardForm_eq_overflow_iff_overflows hread,
    standardForm_eq_ok_iff_partialSums hread⟩
  · intro n front hfront
    exact Term.isNaN_sum (hunsigned hfront)
  · intro n front longer hfront hlonger hinf
    exact Term.sum_eq_of_isInf (hunsigned hlonger) hfront hinf

end AllRead

/-- The terms of `hx + hx - hx` for a number `h` near the end of the range. -/
def overflowingTerms : List Term :=
  [⟨.positive, 1e308, .one⟩, ⟨.positive, 1e308, .one⟩, ⟨.negative, 1e308, .one⟩]

/-- The equation `hx + hx - hx = 0`. -/
def overflowing : Text :=
  largeTerm .positive ++ largeTerm .positive ++ largeTerm .negative ++ ['=', '0']

/-- The equation `hx + hx - hx = 0`, whose exact sum is in the range. -/
theorem standardForm_partialSums_cancelling :
    AllRead (segments overflowing) ∧ likeTerms overflowing .one = overflowingTerms ∧
      (overflowingTerms.map fun t => toReal t.value).sum = toReal 1e308 ∧
      standardForm overflowing = .error (.coefficientOverflow overflowing) := by
  have hterms : balancedTerms .left (segments overflowing) =
      .ok (overflowingTerms ++ [⟨.negative, 0, .zero⟩]) := by decide +kernel
  obtain ⟨hread, hcontributions⟩ := (balancedTerms_eq_ok_iff _ _).1 hterms
  have hlike : likeTerms overflowing .one = overflowingTerms := by
    rw [likeTerms, ← hcontributions]
    decide +kernel
  have hexact : (overflowingTerms.map fun t => toReal t.value).sum = toReal 1e308 := by
    simp [overflowingTerms, Term.value]
  have hcount : overflowing.count '=' = 1 := by decide +kernel
  have hoverflow : Term.Overflows (likeTerms overflowing .one) := by
    rw [hlike]
    decide +kernel
  obtain ⟨-, -, -, hrefused, -⟩ := standardForm_partialSums hread
  exact ⟨hread, hlike, hexact, (hrefused overflowing).2 ⟨rfl, hcount, .one, hoverflow⟩⟩

/-- The text `hx + hx = 1 = 2`. -/
def overflowingChain : Text := largeTerm .positive ++ largeTerm .positive ++ "=1=2".toList

/-- An overflow counts in an equation only. All segments of `hx + hx = 1 = 2` are read, and the
sum of the first power overflows, but it is the second equal sign that is reported. -/
theorem standardForm_partialSums_twoEqualSigns :
    AllRead (segments overflowingChain) ∧ Term.Overflows (likeTerms overflowingChain .one) ∧
      standardForm overflowingChain = .error (.shape .multipleEqualSigns) ∧
      ¬ ((∃ text, standardForm overflowingChain = .error (.coefficientOverflow text)) ↔
        ∃ n, Term.Overflows (likeTerms overflowingChain n)) := by
  have hterms : balancedTerms .left (segments overflowingChain) =
      .ok (overflowingTerms.take 2 ++ [⟨.negative, 1, .zero⟩, ⟨.negative, 2, .zero⟩]) := by
    decide +kernel
  obtain ⟨hread, hcontributions⟩ := (balancedTerms_eq_ok_iff _ _).1 hterms
  have hoverflow : Term.Overflows (likeTerms overflowingChain .one) := by
    rw [likeTerms, ← hcontributions]
    decide +kernel
  have hform : standardForm overflowingChain = .error (.shape .multipleEqualSigns) := by
    decide +kernel
  refine ⟨hread, hoverflow, hform, ?_⟩
  rw [hform]
  rintro ⟨-, h⟩
  obtain ⟨text, htext⟩ := h ⟨.one, hoverflow⟩
  cases htext

end Equation

end EquationRoots
