import EquationRoots.CommandLine
import EquationRoots.Proofs.Decimal.ReadBack
import EquationRoots.Proofs.Roots.Conjugate
import EquationRoots.Proofs.Roots.Outcome

/-!
# The contract of the command line

A run prints nothing exactly when there is no equation or the equation is refused, and only then is
the exit code one. A missing variable is a warning: the exit code is zero, and the root that stands
in is printed. Every line reads back as its root (`root?`), bit by bit. A real number is read with
its sign; the imaginary part is read as a magnitude, to which the sign in front of it is applied.

- `number?_number`: a printed number reads back as the float, whatever the float is.
- `root?_complexLine`: so does the line of a complex root, since none has a zero imaginary part.
- `split_joinLines`: no line contains a line feed, so that the lines can be told apart.
- `run_contract`: the exit code, the output and the complaints of every run.
-/

set_option autoImplicit false

namespace EquationRoots.CommandLine

open Binary64
open Float (nan)
open scoped Scalar

/-! ## Numbers -/

/-- Reads a number without a sign: an infinity, "not a number" or a decimal literal. -/
def magnitude? (text : Text) : Option Float :=
  if text = ['i', 'n', 'f'] then some (inf .positive)
  else if text = ['N', 'a', 'N'] then some nan
  else (Literal.ofText? text).map Literal.toFloat

/-- Reads a number that may have a minus sign in front. -/
def number? : Text → Option Float
  | '-' :: rest => (magnitude? rest).map fun x => -x
  | text => magnitude? text

/-- A text that does not start with a minus sign is read without one. -/
theorem number?_of_not_mem {text : Text} (h : '-' ∉ text) : number? text = magnitude? text := by
  unfold number?
  split
  · exact absurd List.mem_cons_self h
  · rfl

theorem magnitude?_write (l : Literal) : magnitude? l.write = some l.toFloat := by
  have hchar (c : Char) (hc : c.isDigit = false) (hpoint : c ≠ '.') : c ∉ l.write := by
    intro hmem
    rcases Literal.mem_write hmem with h | h
    · rw [hc] at h
      cases h
    · exact hpoint h
  have hinf : l.write ≠ ['i', 'n', 'f'] := by
    intro h
    exact hchar 'i' (by decide) (by decide) (h ▸ List.mem_cons_self)
  have hnan : l.write ≠ ['N', 'a', 'N'] := by
    intro h
    exact hchar 'N' (by decide) (by decide) (h ▸ List.mem_cons_self)
  rw [magnitude?, if_neg hinf, if_neg hnan, Literal.ofText?_write, Option.map_some]

/-- A float without a sign is written as "not a number", as an infinity, or as a literal that reads
back as the float. -/
theorem number_cases {x : Float} (h : Layout.isSigned x = false) :
    x = nan ∧ number x = ['N', 'a', 'N'] ∨ x = inf .positive ∧ number x = ['i', 'n', 'f'] ∨
      ∃ l : Literal, number x = l.write ∧ l.toFloat = x := by
  rcases eq_nan_or_eq_inf_or_isFinite x with rfl | ⟨s, rfl⟩ | hf
  · exact Or.inl ⟨rfl, by decide⟩
  · cases s with
    | positive => exact Or.inr (Or.inl ⟨rfl, by decide⟩)
    | negative => exact absurd h (by decide)
  · exact Or.inr (Or.inr (exists_literal_write_plain hf h))

theorem magnitude?_number {x : Float} (h : Layout.isSigned x = false) :
    magnitude? (number x) = some x := by
  obtain ⟨rfl, hx⟩ | ⟨rfl, hx⟩ | ⟨l, hx, rfl⟩ := number_cases h
  · rw [hx]
    rfl
  · rw [hx]
    rfl
  · rw [hx, magnitude?_write]

/-- A float is its magnitude, or the negated magnitude. -/
theorem abs_eq_or_neg_abs_eq {x : Float} (h : x.isNaN = false) : x.abs = x ∨ -x.abs = x := by
  have hview : (view x).abs = view x ∨ (view x).abs.neg = view x := by
    rw [isNaN_eq] at h
    cases hx : view x with
    | notANumber =>
      rw [hx] at h
      cases h
    | infinity s | zero s | finite s m e hm =>
      cases s with
      | positive => exact Or.inl rfl
      | negative => exact Or.inr rfl
  refine hview.imp (fun hv => ?_) (fun hv => ?_)
  · apply view_injective
    rw [view_abs, hv]
  · apply view_injective
    rw [view_neg, view_abs, hv]

theorem not_isSigned_abs {x : Float} (hx : x.isNaN = false) : Layout.isSigned x.abs = false := by
  apply not_isSigned_of_abs_eq
  · rwa [isNaN_abs]
  · apply view_injective
    rw [view_abs, view_abs]
    cases view x <;> rfl

/-- A float has no sign, or it is written as its magnitude after a minus sign. -/
theorem not_isSigned_or_eq_neg (x : Float) :
    Layout.isSigned x = false ∨
      Layout.isSigned x.abs = false ∧ -x.abs = x ∧ number x = '-' :: number x.abs := by
  cases hs : Layout.isSigned x with
  | false => exact Or.inl rfl
  | true =>
    have hx : x.isNaN = false := by
      by_contra hnan
      rw [eq_nan (x := x) (by simpa using hnan)] at hs
      exact absurd hs (by decide)
    have habs := not_isSigned_abs hx
    have hneg := (abs_eq_or_neg_abs_eq hx).resolve_left fun heq => by
      rw [not_isSigned_of_abs_eq hx heq] at hs
      cases hs
    have hnan : x.abs.isNaN = false := by rwa [isNaN_abs]
    refine Or.inr ⟨habs, hneg, ?_⟩
    rw [number, number, Layout.write, Layout.write, hx, hnan]
    simp [hs, habs, abs_of_not_isSigned habs]

/-- The characters of printed numbers. -/
def IsNumberChar (c : Char) : Prop :=
  c.isDigit = true ∨ c ∈ ['.', '-', 'i', 'n', 'f', 'N', 'a']

instance (c : Char) : Decidable (IsNumberChar c) :=
  inferInstanceAs (Decidable (c.isDigit = true ∨ c ∈ ['.', '-', 'i', 'n', 'f', 'N', 'a']))

theorem isNumberChar_of_not_isSigned {x : Float} (h : Layout.isSigned x = false) {c : Char}
    (hc : c ∈ number x) : IsNumberChar c ∧ c ≠ '-' := by
  obtain ⟨rfl, hx⟩ | ⟨rfl, hx⟩ | ⟨l, hx, rfl⟩ := number_cases h
  · have hall : ∀ c ∈ ['N', 'a', 'N'], IsNumberChar c ∧ c ≠ '-' := by
      simp [IsNumberChar]
    exact hall c (hx ▸ hc)
  · have hall : ∀ c ∈ ['i', 'n', 'f'], IsNumberChar c ∧ c ≠ '-' := by
      simp [IsNumberChar]
    exact hall c (hx ▸ hc)
  · rw [hx] at hc
    rcases Literal.mem_write hc with hdigit | rfl
    · refine ⟨Or.inl hdigit, ?_⟩
      rintro rfl
      exact absurd hdigit (by decide)
    · decide

theorem isNumberChar_of_mem {x : Float} {c : Char} (hc : c ∈ number x) : IsNumberChar c := by
  obtain hs | ⟨hs, -, hx⟩ := not_isSigned_or_eq_neg x
  · exact (isNumberChar_of_not_isSigned hs hc).1
  · rw [hx, List.mem_cons] at hc
    rcases hc with rfl | hc
    · decide
    · exact (isNumberChar_of_not_isSigned hs hc).1

/-- A printed number reads back as the float, whatever the float is. -/
theorem number?_number (x : Float) : number? (number x) = some x := by
  have hunsigned {y : Float} (hy : Layout.isSigned y = false) : '-' ∉ number y := fun h =>
    (isNumberChar_of_not_isSigned hy h).2 rfl
  obtain hs | ⟨hs, hneg, hx⟩ := not_isSigned_or_eq_neg x
  · rw [number?_of_not_mem (hunsigned hs), magnitude?_number hs]
  · rw [hx, number?, magnitude?_number hs, Option.map_some, hneg]

/-! ## Lines -/

/-- The number with a sign character in front of its magnitude. -/
def applySign (sign : Char) (magnitude : Float) : Float :=
  if sign = '-' then -magnitude else magnitude

/-- Reads the line of a root, word by word: a real number, or a real part, a sign and the magnitude
of the imaginary part. -/
def root? (line : Text) : Option (ComplexNum Float) :=
  match Text.split ' ' line with
  | [['x'], ['='], re] => (number? re).map .ofReal
  | [['x'], ['='], re, [sign], im] =>
    if (sign = '-' ∨ sign = '+') ∧ im.getLast? = some 'i' then do
      let re ← number? re
      let magnitude ← number? im.dropLast
      return ⟨re, applySign sign magnitude⟩
    else none
  | _ => none

theorem split_rootMark_append (text : Text) :
    Text.split ' ' (rootMark ++ text) = ['x'] :: ['='] :: Text.split ' ' text := by
  have hx : Text.split ' ' (['x'] ++ ' ' :: (['='] ++ ' ' :: text)) =
      ['x'] :: Text.split ' ' (['='] ++ ' ' :: text) := Text.split_append (by decide) _
  rw [Text.split_append (by decide)] at hx
  exact hx

theorem space_not_mem_number (x : Float) : ' ' ∉ number x := fun h =>
  absurd (isNumberChar_of_mem h) (by decide)

/-- The line of a real root reads back as the root. -/
theorem root?_realLine (x : Float) : root? (realLine x) = some (.ofReal x) := by
  rw [root?, realLine, split_rootMark_append, Text.split_of_not_mem (space_not_mem_number x)]
  simp [number?_number]

/-- The sign of an imaginary part is one of two characters. -/
theorem imaginarySign_cases (im : Float) : imaginarySign im = '-' ∨ imaginarySign im = '+' := by
  unfold imaginarySign
  split
  · exact Or.inl rfl
  · exact Or.inr rfl

/-- The printed sign, applied to the magnitude, gives the imaginary part, unless that is a zero. -/
theorem applySign_imaginarySign {im : Float} (h : (im == 0) = false) :
    applySign (imaginarySign im) im.abs = im := by
  rcases eq_nan_or_eq_inf_or_isFinite im with rfl | ⟨s, rfl⟩ | hf
  · rfl
  · cases s with
    | positive | negative => rfl
  · have hzero : (0 : Float).isFinite = true := isFinite_numeral (n := 0) (by norm_num)
    have hval : toReal (0 : Float) = 0 := by
      exact_mod_cast toReal_numeral (n := 0) (by norm_num)
    -- other than at zero the value determines the float
    have hne : toReal im ≠ 0 := by
      intro heq
      rw [(beq_iff hf hzero).2 (heq.trans hval.symm)] at h
      cases h
    rw [imaginarySign]
    split
    · rename_i hneg
      rw [lt_iff hf hzero, hval] at hneg
      refine eq_of_toReal_eq ?_ hf ?_ hne
      · simpa [applySign] using hf
      · simp [applySign, abs_of_neg hneg]
    · rename_i hneg
      rw [lt_iff hf hzero, hval, not_lt] at hneg
      refine eq_of_toReal_eq ?_ hf ?_ hne
      · simpa [applySign] using hf
      · simp [applySign, abs_of_nonneg hneg]

/-- The line of a complex root reads back as the root, the sign of a zero apart. -/
theorem root?_complexLine {z : ComplexNum Float} (h : (z.im == 0) = false) :
    root? (complexLine z) = some z := by
  have hsign : ' ' ∉ [imaginarySign z.im] := by
    rcases imaginarySign_cases z.im with hs | hs <;> rw [hs] <;> decide
  have hlast : ' ' ∉ number z.im.abs ++ ['i'] := by
    simp [space_not_mem_number]
  have hwords : Text.split ' ' (complexLine z) =
      [['x'], ['='], number z.re, [imaginarySign z.im], number z.im.abs ++ ['i']] := by
    have hline : complexLine z = rootMark ++ (number z.re ++ ' ' ::
        ([imaginarySign z.im] ++ ' ' :: (number z.im.abs ++ ['i']))) := by
      simp [complexLine]
    rw [hline, split_rootMark_append, Text.split_append (space_not_mem_number z.re),
      Text.split_append hsign, Text.split_of_not_mem hlast]
  rw [root?, hwords]
  simp [imaginarySign_cases, number?_number, applySign_imaginarySign h]

/-! ## The output as a whole -/

/-- Lines without a line feed can be told apart in the output. -/
theorem split_joinLines {lines : List Text} (h : ∀ line ∈ lines, '\n' ∉ line) :
    Text.split '\n' (joinLines lines) = lines ++ [[]] := by
  induction lines with
  | nil => rfl
  | cons line lines ih =>
    have hcons : joinLines (line :: lines) = line ++ '\n' :: joinLines lines := by
      simp [joinLines]
    rw [hcons, Text.split_append (h line List.mem_cons_self),
      ih fun l hl => h l (List.mem_cons_of_mem line hl), List.cons_append]

theorem joinLines_eq_nil_iff (lines : List Text) : joinLines lines = [] ↔ lines = [] := by
  cases lines <;> simp [joinLines]

theorem lineFeed_not_mem_number (x : Float) : '\n' ∉ number x := fun h =>
  absurd (isNumberChar_of_mem h) (by decide)

theorem lineFeed_not_mem_rootLines {s : Solution Float} {line : Text} (h : line ∈ rootLines s) :
    '\n' ∉ line := by
  rw [rootLines, List.mem_append, List.mem_map, List.mem_map] at h
  rcases h with ⟨x, -, rfl⟩ | ⟨z, -, rfl⟩
  · simp [realLine, rootMark, lineFeed_not_mem_number]
  · rcases imaginarySign_cases z.im with hs | hs <;>
      simp [complexLine, rootMark, lineFeed_not_mem_number, hs]

/-- The lines of a solution read back as its roots, when no complex root is real. -/
theorem map_root?_rootLines {s : Solution Float}
    (h : ∀ z ∈ s.complexRoots, (z.im == 0) = false) :
    (rootLines s).map root? = s.roots.map some := by
  rw [rootLines, Solution.roots, List.map_append, List.map_append]
  congr 1
  · simp [root?_realLine]
  · rw [List.map_map]
    exact List.map_congr_left fun z hz => root?_complexLine (h z hz)

/-! ## Runs -/

/-- There is nothing to solve, or solving the first argument ends with an error about the text. -/
def IsRefused (maths : Elementary Float) : List Text → Prop
  | [] => True
  | equation :: _ => ∃ error,
      (Equation.solve maths .zero equation).solution.error = some error ∧ error.IsAboutText

/-- The output is one line for each root of the solution, of which there is at least one, the real
roots first. Every line reads back as its root, and nothing follows the last line feed. -/
structure Shows (s : Solution Float) (output : Text) : Prop where
  size_pos : 1 ≤ s.size
  lines : ∃ lines, Text.split '\n' output = lines ++ [[]] ∧ lines.length = s.size ∧
    lines.map root? = (s.realRoots.map ComplexNum.ofReal ++ s.complexRoots).map some

/-- What a run promises for its arguments. The exit code is zero or one, and one exactly when
nothing is printed. Nothing is printed exactly when there is nothing to solve or the equation is
refused; otherwise the roots of the first argument are printed. There is no complaint exactly when
there is an equation that is solved without an error. Roots are printed with a complaint exactly
when the variable is missing. -/
structure KeepsContract (maths : Elementary Float) (args : List Text) (exitCode : Nat)
    (output complaints : Text) : Prop where
  exitCode_cases : exitCode = 0 ∨ exitCode = 1
  exitCode_eq_one : exitCode = 1 ↔ output = []
  output_eq_nil : output = [] ↔ IsRefused maths args
  shows : ¬ IsRefused maths args → ∃ equation rest, args = equation :: rest ∧
    Shows (Equation.solve maths .zero equation).solution output
  complaints_eq_nil : complaints = [] ↔ ∃ equation rest, args = equation :: rest ∧
    (Equation.solve maths .zero equation).solution.error = none
  warning : exitCode = 0 ∧ complaints ≠ [] ↔ ∃ equation rest, args = equation :: rest ∧
    (Equation.solve maths .zero equation).solution.error = some .missingVariable

/-- The output of a solution that has roots shows them. -/
theorem shows_report {s : Solution Float} (hsize : 1 ≤ s.size)
    (h : ∀ z ∈ s.complexRoots, (z.im == 0) = false) :
    Shows s (joinLines (report s).output) := by
  refine ⟨hsize, rootLines s, split_joinLines fun line => lineFeed_not_mem_rootLines,
    length_rootLines s, map_root?_rootLines h⟩

/-- Every error has a message, and nothing else is a complaint. -/
theorem joinLines_complaints_report (s : Solution Float) :
    joinLines (report s).complaints = [] ↔ s.error = none := by
  rw [joinLines_eq_nil_iff, report, errorLines]
  cases s.error <;> simp

theorem joinLines_output_report (s : Solution Float) :
    joinLines (report s).output = [] ↔ s.size = 0 := by
  rw [joinLines_eq_nil_iff, ← length_rootLines, List.length_eq_zero_iff, report]

theorem exitCode_report (s : Solution Float) :
    (report s).exitCode = if s.error ≠ none ∧ s.size = 0 then 1 else 0 := by
  rw [report, Solution.isOk, Solution.isEmpty]
  cases s.error <;> simp

/-- A polynomial has a root to show, and no error but a missing variable. -/
theorem size_solve_pos (maths : Elementary Float) (p : Coefficients Float) :
    1 ≤ (p.solve maths .zero).solution.size ∧
      ((p.solve maths .zero).solution.error = none ∨
        (p.solve maths .zero).solution.error = some .missingVariable) := by
  cases hdegree : p.degree? with
  | none =>
    rw [Coefficients.solve_of_degree?_eq_none hdegree]
    exact ⟨Nat.le_refl 1, Or.inr rfl⟩
  | some degree =>
    constructor
    · rw [Coefficients.size_solve maths .zero p hdegree]
      cases degree <;> decide
    · rw [Coefficients.solution_solve hdegree, Solution.error_coerce,
        Coefficients.error_rootsByDegree]
      exact Or.inl rfl

/-- What a solution leaves to be printed: nothing but an error about the text, or roots with no
error but a missing variable. -/
inductive Printable (s : Solution Float) : Prop
  | refusal (error : Error) (size : s.size = 0) (error_eq : s.error = some error)
      (about : error.IsAboutText)
  | roots (size : 1 ≤ s.size) (error : s.error = none ∨ s.error = some .missingVariable)
      (im : ∀ z ∈ s.complexRoots, (z.im == 0) = false)

theorem printable_solve (maths : Elementary Float) (equation : Text) :
    Printable (Equation.solve maths .zero equation).solution := by
  cases hform : Equation.standardForm equation with
  | error error =>
    rw [Equation.solve_of_standardForm_eq_error hform]
    exact .refusal error rfl rfl (Equation.isAboutText_of_standardForm hform)
  | ok p =>
    rw [Equation.solve_of_standardForm_eq_ok hform]
    obtain ⟨hsize, herror⟩ := size_solve_pos maths p
    exact .roots hsize herror (p.complexRoots_solve_conjugate maths .zero).2.2

/-- What is asked of the first argument is asked of the equation. -/
theorem exists_cons_eq_iff (equation : Text) (rest : List Text) (P : Text → Prop) :
    (∃ first others, equation :: rest = first :: others ∧ P first) ↔ P equation := by
  simp

theorem keepsContract_nil (maths : Elementary Float) :
    KeepsContract maths [] 1 (joinLines []) (joinLines usage) where
  exitCode_cases := Or.inr rfl
  exitCode_eq_one := iff_of_true rfl rfl
  output_eq_nil := iff_of_true rfl trivial
  shows h := absurd trivial h
  complaints_eq_nil := by
    rw [joinLines_eq_nil_iff]
    simp [usage]
  warning := by simp

section Cons

variable {maths : Elementary Float} {equation : Text}

/-- An equation is refused where its solution has an error about the text. -/
theorem isRefused_cons_iff (rest : List Text) :
    IsRefused maths (equation :: rest) ↔ ∃ error,
      (Equation.solve maths .zero equation).solution.error = some error ∧ error.IsAboutText :=
  Iff.rfl

/-- Nothing is on the error output where there is no error. -/
theorem complaints_report_solve (rest : List Text) :
    joinLines (report (Equation.solve maths .zero equation).solution).complaints = [] ↔
      ∃ first others, equation :: rest = first :: others ∧
        (Equation.solve maths .zero first).solution.error = none := by
  rw [joinLines_complaints_report, exists_cons_eq_iff equation rest fun first =>
    (Equation.solve maths .zero first).solution.error = none]

theorem keepsContract_of_refusal (rest : List Text) {error : Error}
    (hsize : (Equation.solve maths .zero equation).solution.size = 0)
    (herror : (Equation.solve maths .zero equation).solution.error = some error)
    (habout : error.IsAboutText) :
    let o := report (Equation.solve maths .zero equation).solution
    KeepsContract maths (equation :: rest) o.exitCode (joinLines o.output)
      (joinLines o.complaints) := by
  intro o
  have hexit : o.exitCode = 1 := by
    rw [exitCode_report, herror, hsize]
    rfl
  have houtput : joinLines o.output = [] := (joinLines_output_report _).2 hsize
  have hrefusal : IsRefused maths (equation :: rest) :=
    (isRefused_cons_iff rest).2 ⟨error, herror, habout⟩
  refine ⟨Or.inr hexit, iff_of_true hexit houtput, iff_of_true houtput hrefusal,
    fun h => absurd hrefusal h, complaints_report_solve rest, ?_⟩
  rw [exists_cons_eq_iff equation rest fun first =>
    (Equation.solve maths .zero first).solution.error = some .missingVariable, herror, hexit]
  have hne : error ≠ .missingVariable := by
    rintro rfl
    exact habout
  simp [hne]

theorem keepsContract_of_roots (rest : List Text)
    (hsize : 1 ≤ (Equation.solve maths .zero equation).solution.size)
    (herror : (Equation.solve maths .zero equation).solution.error = none ∨
      (Equation.solve maths .zero equation).solution.error = some .missingVariable)
    (him : ∀ z ∈ (Equation.solve maths .zero equation).solution.complexRoots,
      (z.im == 0) = false) :
    let o := report (Equation.solve maths .zero equation).solution
    KeepsContract maths (equation :: rest) o.exitCode (joinLines o.output)
      (joinLines o.complaints) := by
  intro o
  have hexit : o.exitCode = 0 := by
    rw [exitCode_report, if_neg]
    rintro ⟨-, hzero⟩
    omega
  have houtput : joinLines o.output ≠ [] := by
    rw [Ne, joinLines_output_report]
    omega
  -- a missing variable is an error, but none about the text
  have hrefusal : ¬ IsRefused maths (equation :: rest) := by
    rw [isRefused_cons_iff]
    rintro ⟨error, hsome, habout⟩
    rcases herror with hnone | hmissing
    · rw [hnone] at hsome
      cases hsome
    · rw [hmissing] at hsome
      cases hsome
      exact habout
  refine ⟨Or.inl hexit, iff_of_false (by omega) houtput, iff_of_false houtput hrefusal,
    fun _ => ⟨equation, rest, rfl, shows_report hsize him⟩, complaints_report_solve rest, ?_⟩
  rw [exists_cons_eq_iff equation rest fun first =>
    (Equation.solve maths .zero first).solution.error = some .missingVariable, hexit, Ne,
    joinLines_complaints_report]
  rcases herror with hnone | hmissing
  · simp [hnone]
  · simp [hmissing]

theorem keepsContract_cons (rest : List Text) :
    let o := report (Equation.solve maths .zero equation).solution
    KeepsContract maths (equation :: rest) o.exitCode (joinLines o.output)
      (joinLines o.complaints) := by
  cases printable_solve maths equation with
  | refusal error size error_eq about => exact keepsContract_of_refusal rest size error_eq about
  | roots size error im => exact keepsContract_of_roots rest size error im

end Cons

/-- The command line keeps its contract. For every list of arguments, the exit code is one
exactly when nothing is printed, which is when there is no equation or an error about its text.
Otherwise it is zero, and the lines of the output are the roots of the first argument, each of which
reads back bit by bit. The error output is empty exactly when there is an equation without an error,
and is not empty beside an exit code of zero exactly when the variable is missing. -/
theorem run_contract (maths : Elementary Float) (args : List Text) :
    KeepsContract maths args (run maths args).exitCode (joinLines (run maths args).output)
      (joinLines (run maths args).complaints) := by
  cases args with
  | nil => exact keepsContract_nil maths
  | cons equation rest => exact keepsContract_cons rest

end EquationRoots.CommandLine
