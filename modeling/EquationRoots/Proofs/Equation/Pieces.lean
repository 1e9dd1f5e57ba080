import EquationRoots.Equation.Classified
import EquationRoots.Equation.Segment
import EquationRoots.Proofs.Equation.Reading

/-!
# Pieces of an equation

The segments of an equation, computed one character after another. Everything about them follows
from one law: at a boundary, the pieces of a text are those before it and those after it.

- `segments_eq_pieces`: the segments are the pieces of the text without blank characters.
- `pieces_append`: cutting at a boundary.
- `mapM_read_pieces_eq_ok_iff`: a text without equal sign is a side exactly when all its pieces are
  read as terms.
- `balancedTerms_pieces_eq_ok_iff`: the same for two sides with an equal sign between them.
-/

set_option autoImplicit false

namespace EquationRoots

/-- Splitting at one more separator concatenates the pieces. -/
theorem Text.split_append_cons (separator : Char) (before after : Text) :
    split separator (before ++ separator :: after) =
      split separator before ++ split separator after := by
  induction before with
  | nil => simp
  | cons c rest ih =>
    by_cases hc : c = separator
    · rw [hc, List.cons_append, split_cons_self, split_cons_self, ih, List.cons_append]
    · obtain ⟨piece, pieces, hs, hsplit⟩ := split_cons_of_ne hc rest
      rw [hs] at ih
      simp only [List.cons_append, split, if_neg hc, hs, ih]

namespace Equation

/-! ## Pieces -/

/-- The pieces of a text without blank characters, empty ones left out. -/
def pieces (text : Text) : List Text :=
  (Text.split delimiter (text.flatMap delimitChar)).filter (· ≠ [])

/-- A character at which no piece starts or ends. -/
def IsPlain (c : Char) : Prop := startsSegment c = false ∧ c ≠ delimiter

/-- The text is empty, or a segment starts at its first character. -/
def AtBoundary (text : Text) : Prop := ∀ c ∈ text.head?, startsSegment c = true

theorem atBoundary_nil : AtBoundary [] := fun _ h => by cases h

theorem atBoundary_cons {c : Char} (h : startsSegment c = true) (text : Text) :
    AtBoundary (c :: text) := by
  intro c' hc
  cases hc
  exact h

@[simp] theorem startsSegment_symbol (sign : Sign) : startsSegment sign.symbol = true := by
  cases sign <;> rfl

/-- The segments of an equation are the pieces of its text without blank characters. -/
theorem segments_eq_pieces (equation : Text) :
    segments equation = pieces (Text.withoutBlanks equation) := by
  unfold segments pieces delimit
  cases Text.withoutBlanks equation with
  | nil => rfl
  | cons first rest =>
    rw [List.flatMap_cons]
    -- a delimiter in front of the first character adds an empty piece only
    by_cases h : startsSegment first = true
    · simp [delimitChar, h]
    · simp [delimitChar, h]

@[simp] theorem pieces_nil : pieces [] = [] := rfl

theorem delimitChar_of_startsSegment {c : Char} (h : startsSegment c = true) :
    delimitChar c = delimiter :: closeSegment c := if_pos h

theorem delimitChar_of_isPlain {c : Char} (h : IsPlain c) : delimitChar c = [c] := by
  have hc : c ≠ '=' := by
    rintro rfl
    exact absurd h.1 (by decide)
  simp [delimitChar, closeSegment, h.1, hc]

theorem flatMap_delimitChar_of_isPlain {text : Text} (h : ∀ c ∈ text, IsPlain c) :
    text.flatMap delimitChar = text := by
  induction text with
  | nil => rfl
  | cons c rest ih =>
    rw [List.flatMap_cons, delimitChar_of_isPlain (h c List.mem_cons_self),
      ih fun c hc => h c (List.mem_cons_of_mem _ hc), List.singleton_append]

/-- Cutting at a boundary. The pieces of a text are those before a boundary and those after. -/
theorem pieces_append (before : Text) {after : Text} (h : AtBoundary after) :
    pieces (before ++ after) = pieces before ++ pieces after := by
  -- the delimiter in front of the boundary is where the split falls; the empty piece goes
  cases after with
  | nil => simp
  | cons c rest =>
    have hc : startsSegment c = true := h c rfl
    simp only [pieces, List.flatMap_append, List.flatMap_cons, delimitChar_of_startsSegment hc,
      List.cons_append, Text.split_append_cons, Text.split_cons_self, List.filter_append]
    rfl

/-- A text of plain characters is one piece. -/
theorem pieces_of_isPlain {text : Text} (h : ∀ c ∈ text, IsPlain c) (hne : text ≠ []) :
    pieces text = [text] := by
  have hd : delimiter ∉ text := fun hmem => (h _ hmem).2 rfl
  rw [pieces, flatMap_delimitChar_of_isPlain h, Text.split_of_not_mem hd]
  simp [hne]

/-- A sign and the plain characters after it are one piece. -/
theorem pieces_symbol_cons (sign : Sign) {text : Text} (h : ∀ c ∈ text, IsPlain c) :
    pieces (sign.symbol :: text) = [sign.symbol :: text] := by
  have hd : delimiter ∉ sign.symbol :: text := by
    intro hmem
    rcases List.mem_cons.1 hmem with hs | hmem
    · cases sign <;> exact absurd hs (by decide)
    · exact (h _ hmem).2 rfl
  have hclose : closeSegment sign.symbol = [sign.symbol] := by cases sign <;> rfl
  rw [pieces, List.flatMap_cons, delimitChar_of_startsSegment (startsSegment_symbol sign), hclose,
    flatMap_delimitChar_of_isPlain h]
  simp only [List.cons_append, List.nil_append, Text.split_cons_self, Text.split_of_not_mem hd]
  simp

/-- An equal sign is one piece, whatever stands after it. -/
theorem pieces_equals_cons (text : Text) : pieces ('=' :: text) = equalsMark :: pieces text := by
  have hmark : delimiter ∉ equalsMark := by decide
  have hsplit : ∀ rest : Text, Text.split delimiter ('=' :: delimiter :: rest) =
      equalsMark :: Text.split delimiter rest := Text.split_append hmark
  have hchar : delimitChar '=' = [delimiter, '=', delimiter] := rfl
  simp only [pieces, List.flatMap_cons, hchar, List.cons_append, List.nil_append,
    Text.split_cons_self, hsplit]
  simp [equalsMark]

/-! ## Sides -/

section Sides

open Grammar

theorem isPlain_of_isBody {text : Text} {x : Float} {n : Exponent} (h : IsBody text x n) :
    ∀ c ∈ text, IsPlain c := by
  intro c hc
  have hne : ∀ d : Char, d.isDigit = false → d ∉ ['.', '*', 'x', '^'] → c ≠ d := by
    rintro d hd hother rfl
    exact not_mem_of_isBody h hd hother hc
  simp [IsPlain, startsSegment, delimiter, hne '+' rfl (by decide), hne '-' rfl (by decide),
    hne '=' rfl (by decide), hne ';' rfl (by decide)]

theorem atBoundary_of_isTail {text : Text} {terms : List Term} (h : IsTail text terms) :
    AtBoundary text := by
  cases h with
  | nil => exact atBoundary_nil
  | cons sign => exact atBoundary_cons (startsSegment_symbol sign) _

/-- The pieces of a term are the term. -/
theorem pieces_of_isTerm {text : Text} {t : Term} (h : IsTerm text t) : pieces text = [text] := by
  cases h with
  | unsigned body => exact pieces_of_isPlain (isPlain_of_isBody body) (ne_nil_of_isBody body)
  | signed sign body => exact pieces_symbol_cons sign (isPlain_of_isBody body)

/-- A term and what follows it at a boundary are read one after the other. -/
theorem mapM_read_of_isTerm {text rest : Text} {t : Term} {terms : List Term} (h : IsTerm text t)
    (hb : AtBoundary rest) (hr : (pieces rest).mapM Term.read = .ok terms) :
    (pieces (text ++ rest)).mapM Term.read = .ok (t :: terms) := by
  rw [pieces_append text hb, pieces_of_isTerm h, List.singleton_append, List.mapM_cons,
    (read_eq_ok_iff text t).2 h, hr]
  rfl

/-- Terms with explicit signs are read. -/
theorem mapM_read_of_isTail {text : Text} {terms : List Term} (h : IsTail text terms) :
    (pieces text).mapM Term.read = .ok terms := by
  induction h with
  | nil => rfl
  | cons sign body tail ih =>
    exact mapM_read_of_isTerm (.signed sign body) (atBoundary_of_isTail tail) ih

/-- A sequence of readings succeeds exactly when its first one and the rest do. -/
theorem mapM_read_cons_eq_ok_iff (raw : Text) (raws : List Text) (terms : List Term) :
    (raw :: raws).mapM Term.read = .ok terms ↔
      ∃ t rest, Term.read raw = .ok t ∧ raws.mapM Term.read = .ok rest ∧ terms = t :: rest := by
  rw [List.mapM_cons]
  cases Term.read raw with
  | error cause => simp [bind, Except.bind]
  | ok t =>
    cases raws.mapM Term.read with
    | error cause => simp [bind, Except.bind]
    | ok rest => simp [bind, Except.bind, pure, Except.pure, eq_comm]

/-- A text is its plain characters up to the next boundary, and the rest. -/
theorem exists_isPlain_append (text : Text) (h : delimiter ∉ text) :
    ∃ run rest, text = run ++ rest ∧ (∀ c ∈ run, IsPlain c) ∧ AtBoundary rest := by
  induction text with
  | nil => exact ⟨[], [], rfl, by simp, atBoundary_nil⟩
  | cons c text ih =>
    rw [List.mem_cons, not_or] at h
    by_cases hc : startsSegment c = true
    · exact ⟨[], c :: text, rfl, by simp, atBoundary_cons hc text⟩
    · obtain ⟨run, rest, rfl, hrun, hrest⟩ := ih h.2
      refine ⟨c :: run, rest, rfl, ?_, hrest⟩
      rw [List.forall_mem_cons]
      exact ⟨⟨Bool.eq_false_iff.2 hc, Ne.symm h.1⟩, hrun⟩

/-- A sign that starts a segment of a side is one of the two signs of a term. -/
theorem exists_symbol_of_startsSegment {c : Char} (h : startsSegment c = true) (hc : c ≠ '=') :
    ∃ sign : Sign, c = sign.symbol := by
  simp only [startsSegment, Bool.or_eq_true, beq_iff_eq] at h
  rcases h with (rfl | rfl) | rfl
  · exact ⟨.positive, rfl⟩
  · exact ⟨.negative, rfl⟩
  · exact absurd rfl hc

/-- A term that begins with a sign is that sign and a term without a sign. -/
theorem isBody_of_isTerm_symbol_cons {sign : Sign} {text : Text} {t : Term}
    (h : IsTerm (sign.symbol :: text) t) :
    t.sign = sign ∧ IsBody text t.coefficient t.exponent := by
  have hr := (read_eq_ok_iff _ t).2 h
  rw [Term.read, if_neg (List.cons_ne_nil _ _), splitSign_symbol_cons, readBody_eq_ok_iff] at hr
  exact hr

/-- Terms with explicit signs are all that is read between two boundaries. -/
theorem isTail_of_mapM_read (text : Text) (hb : AtBoundary text) (hd : delimiter ∉ text)
    (he : '=' ∉ text) {terms : List Term} (h : (pieces text).mapM Term.read = .ok terms) :
    IsTail text terms := by
  cases text with
  | nil =>
    cases h
    exact .nil
  | cons c text =>
    rw [List.mem_cons, not_or] at hd he
    obtain ⟨sign, rfl⟩ := exists_symbol_of_startsSegment (hb c rfl) (Ne.symm he.1)
    -- one piece is the sign with the plain characters up to the next boundary; the rest is shorter
    obtain ⟨run, rest, rfl, hrun, hrest⟩ := exists_isPlain_append text hd.2
    rw [← List.cons_append, pieces_append _ hrest, pieces_symbol_cons sign hrun,
      List.singleton_append, mapM_read_cons_eq_ok_iff] at h
    obtain ⟨t, ts, ht, hts, rfl⟩ := h
    obtain ⟨rfl, hbody⟩ := isBody_of_isTerm_symbol_cons ((read_eq_ok_iff _ t).1 ht)
    have htail := isTail_of_mapM_read rest hrest (fun hm => hd.2 (List.mem_append_right _ hm))
      (fun hm => he.2 (List.mem_append_right _ hm)) hts
    exact .cons t.sign hbody htail
termination_by text.length

/-- Terms with explicit signs are a side. -/
theorem isSide_of_isTail {text : Text} {terms : List Term} (h : IsTail text terms) :
    IsSide text terms := by
  cases h with
  | nil => exact .empty
  | cons sign body tail => exact .terms (.signed sign body) tail

/-- The pieces of a text without equal sign are read exactly when the text is a side. -/
theorem mapM_read_pieces_eq_ok_iff {text : Text} (hd : delimiter ∉ text) (he : '=' ∉ text)
    (terms : List Term) : (pieces text).mapM Term.read = .ok terms ↔ IsSide text terms := by
  constructor
  · intro h
    obtain ⟨run, rest, rfl, hrun, hrest⟩ := exists_isPlain_append text hd
    -- nothing before the first boundary means that the first term has a sign, or there is none
    by_cases hne : run = []
    · subst hne
      exact isSide_of_isTail (isTail_of_mapM_read rest hrest hd he h)
    · rw [pieces_append _ hrest, pieces_of_isPlain hrun hne, List.singleton_append,
        mapM_read_cons_eq_ok_iff] at h
      obtain ⟨t, ts, ht, hts, rfl⟩ := h
      exact .terms ((read_eq_ok_iff run t).1 ht)
        (isTail_of_mapM_read rest hrest (fun hm => hd (List.mem_append_right _ hm))
          (fun hm => he (List.mem_append_right _ hm)) hts)
  · intro h
    cases h with
    | empty => rfl
    | terms isTerm tail =>
      exact mapM_read_of_isTerm isTerm (atBoundary_of_isTail tail) (mapM_read_of_isTail tail)

/-! ## Both sides -/

/-- The pieces of a text without equal sign have none. -/
theorem equalsMark_not_mem_pieces {text : Text} (he : '=' ∉ text) : equalsMark ∉ pieces text := by
  intro hmem
  have hsplit := (List.mem_filter.1 hmem).1
  have hflat : '=' ∈ (Text.split delimiter (text.flatMap delimitChar)).flatten :=
    List.mem_flatten.2 ⟨equalsMark, hsplit, List.mem_singleton.2 rfl⟩
  rw [Text.flatten_split] at hflat
  -- an equal sign in a piece comes from one in the text, since no delimiter is one
  obtain ⟨c, hc, hchar⟩ := List.mem_flatMap.1 (List.mem_filter.1 hflat).1
  have hne : c ≠ '=' := by
    rintro rfl
    exact he hc
  have hclose : closeSegment c = [c] := if_neg hne
  unfold delimitChar at hchar
  rw [hclose] at hchar
  split at hchar
  · rcases List.mem_cons.1 hchar with heq | hmem
    · exact absurd heq (by decide)
    · exact hne (List.mem_singleton.1 hmem).symm
  · exact hne (List.mem_singleton.1 hchar).symm

/-- Segments of one side are read and balanced for it. -/
theorem balancedTerms_of_not_mem (side : Side) {raws : List Text} (h : equalsMark ∉ raws) :
    balancedTerms side raws = (raws.mapM Term.read).map (·.map (·.balanced side)) := by
  induction raws with
  | nil => rfl
  | cons raw raws ih =>
    rw [List.mem_cons, not_or] at h
    rw [List.mapM_cons]
    cases hr : Term.read raw with
    | error cause => exact balancedTerms_of_error (Ne.symm h.1) hr side raws
    | ok t =>
      rw [balancedTerms_of_read (Ne.symm h.1) hr, ih h.2]
      cases raws.mapM Term.read <;> rfl

/-- The segments of the two sides are read one side after the other. -/
theorem balancedTerms_append_equalsMark (side : Side) {raws : List Text} (h : equalsMark ∉ raws)
    (rest : List Text) :
    balancedTerms side (raws ++ equalsMark :: rest) =
      (balancedTerms side raws).bind fun left =>
        (balancedTerms .right rest).map (left ++ ·) := by
  induction raws with
  | nil =>
    rw [List.nil_append, balancedTerms_equalsMark]
    cases balancedTerms .right rest <;> rfl
  | cons raw raws ih =>
    rw [List.mem_cons, not_or] at h
    rw [List.cons_append]
    cases hr : Term.read raw with
    | error cause =>
      rw [balancedTerms_of_error (Ne.symm h.1) hr, balancedTerms_of_error (Ne.symm h.1) hr]
      rfl
    | ok t =>
      rw [balancedTerms_of_read (Ne.symm h.1) hr, balancedTerms_of_read (Ne.symm h.1) hr, ih h.2]
      cases balancedTerms side raws with
      | error cause => rfl
      | ok left => cases balancedTerms .right rest <;> rfl

/-- A text with one equal sign is read side by side. -/
theorem balancedTerms_pieces {left right : Text} (he : '=' ∉ left ++ right) :
    balancedTerms .left (pieces (left ++ '=' :: right)) =
      ((pieces left).mapM Term.read).bind fun leftTerms =>
        ((pieces right).mapM Term.read).map fun rightTerms =>
          leftTerms ++ rightTerms.map Term.negated := by
  rw [List.mem_append, not_or] at he
  rw [pieces_append left (atBoundary_cons rfl right), pieces_equals_cons,
    balancedTerms_append_equalsMark _ (equalsMark_not_mem_pieces he.1),
    balancedTerms_of_not_mem _ (equalsMark_not_mem_pieces he.1),
    balancedTerms_of_not_mem _ (equalsMark_not_mem_pieces he.2)]
  cases (pieces left).mapM Term.read with
  | error cause => rfl
  | ok leftTerms =>
    cases (pieces right).mapM Term.read with
    | error cause => rfl
    | ok rightTerms => simp [Except.bind, Except.map]

/-- A text with one equal sign is read exactly when both its sides are sides; right-hand terms
take the other sign. -/
theorem balancedTerms_pieces_eq_ok_iff {left right : Text} (hd : delimiter ∉ left ++ right)
    (he : '=' ∉ left ++ right) (terms : List Term) :
    balancedTerms .left (pieces (left ++ '=' :: right)) = .ok terms ↔
      ∃ leftTerms rightTerms, IsSide left leftTerms ∧ IsSide right rightTerms ∧
        terms = leftTerms ++ rightTerms.map Term.negated := by
  rw [balancedTerms_pieces he]
  rw [List.mem_append, not_or] at hd he
  simp only [← mapM_read_pieces_eq_ok_iff hd.1 he.1, ← mapM_read_pieces_eq_ok_iff hd.2 he.2]
  cases (pieces left).mapM Term.read with
  | error cause => simp [Except.bind]
  | ok leftTerms =>
    cases (pieces right).mapM Term.read with
    | error cause => simp [Except.map, Except.bind]
    | ok rightTerms =>
      simp [Except.map, Except.bind, eq_comm]

end Sides

end Equation

end EquationRoots
