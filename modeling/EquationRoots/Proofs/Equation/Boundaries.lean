import EquationRoots.Proofs.Equation.Spacing

/-!
# Boundaries of segments

Cutting an equation into segments is lossless: only blank characters and delimiters go. Where it
cuts is decided by two neighbouring characters, and so the pieces of a text are built up from its
end one character at a time (`CutInto`). A character stands alone in front of the pieces, or it
stands in the piece of the plain character that comes next.

- `cutInto_pieces`: the pieces of a text are built up in this way.
- `CutInto.apart_iff`: between which neighbours a boundary falls.
- `Cuts`: what it means that segments cut an equation.
- `cuts_segments`: the segments do.
-/

set_option autoImplicit false

namespace EquationRoots

namespace Equation

/-! ## One more character -/

/-- A delimiter cuts without leaving anything of itself. -/
theorem pieces_append_delimiter (before after : Text) :
    pieces (before ++ delimiter :: after) = pieces before ++ pieces after := by
  have hchar : delimitChar delimiter = [delimiter] := rfl
  simp only [pieces, List.flatMap_append, List.flatMap_cons, hchar, List.singleton_append,
    Text.split_append_cons, List.filter_append]

theorem pieces_delimiter_cons (text : Text) : pieces (delimiter :: text) = pieces text :=
  pieces_append_delimiter [] text

/-- Every character but the delimiter is a piece when it is the whole text. -/
theorem pieces_singleton {c : Char} (h : c ≠ delimiter) : pieces [c] = [[c]] := by
  by_cases hc : c = '='
  · subst hc
    exact pieces_equals_cons []
  · by_cases hs : startsSegment c = true
    · obtain ⟨sign, rfl⟩ := exists_symbol_of_startsSegment hs hc
      exact pieces_symbol_cons sign (by simp)
    · exact pieces_of_isPlain (by simpa using ⟨Bool.eq_false_iff.2 hs, h⟩) (List.cons_ne_nil c [])

/-- A character that is an equal sign or has no plain character behind it is a piece of its own. -/
theorem pieces_cons_of_ends {c : Char} {text : Text} (hc : c ≠ delimiter)
    (hend : c = '=' ∨ ∀ d ∈ text.head?, ¬ IsPlain d) : pieces (c :: text) = [c] :: pieces text := by
  by_cases heq : c = '='
  · subst heq
    exact pieces_equals_cons text
  · have hcut : pieces ([c] ++ text) = pieces [c] ++ pieces text := by
      cases text with
      | nil => rw [List.append_nil, pieces_nil, List.append_nil]
      | cons d text =>
        have hplain : ¬ IsPlain d := hend.resolve_left heq d rfl
        by_cases hd : d = delimiter
        · rw [hd, pieces_append_delimiter, pieces_delimiter_cons]
        · have hstart : startsSegment d = true := by
            by_contra hstart
            exact hplain ⟨Bool.eq_false_iff.2 hstart, hd⟩
          exact pieces_append [c] (atBoundary_cons hstart text)
    rwa [pieces_singleton hc] at hcut

/-- A character that is no equal sign stands in the piece of the plain character behind it. -/
theorem exists_pieces_cons_cons {c d : Char} (hc : c ≠ delimiter) (hne : c ≠ '=') (hd : IsPlain d)
    (text : Text) : ∃ segment segs, pieces (d :: text) = (d :: segment) :: segs ∧
      pieces (c :: d :: text) = (c :: d :: segment) :: segs := by
  obtain ⟨segment, segs, -, hsplit⟩ := Text.split_cons_of_ne hd.2 (text.flatMap delimitChar)
  obtain ⟨_, _, hs, hsplit'⟩ := Text.split_cons_of_ne hc (d :: text.flatMap delimitChar)
  rw [hsplit, List.cons.injEq] at hs
  obtain ⟨rfl, rfl⟩ := hs
  have hclose : closeSegment c = [c] := if_neg hne
  refine ⟨segment, segs.filter (· ≠ []), ?_, ?_⟩
  · rw [pieces, List.flatMap_cons, delimitChar_of_isPlain hd, List.singleton_append, hsplit]
    simp
  · -- a sign has a delimiter in front, which adds an empty piece only
    rw [pieces, List.flatMap_cons, List.flatMap_cons, delimitChar_of_isPlain hd, delimitChar,
      hclose]
    split <;> simp [hsplit']

/-! ## Pieces, character by character -/

/-- The text is cut into the segments, one character after another from its end. A delimiter stands
in no segment. Another character is a segment so far if it is an equal sign or no plain character
comes next (`stand`), and otherwise stands in the segment of the plain character that comes next
(`join`). -/
inductive CutInto : Text → List Text → Prop
  | nil : CutInto [] []
  | drop {text : Text} {segs : List Text} (rest : CutInto text segs) :
      CutInto (delimiter :: text) segs
  | stand {c : Char} {text : Text} {segs : List Text} (hc : c ≠ delimiter)
      (hend : c = '=' ∨ ∀ d ∈ text.head?, ¬ IsPlain d) (rest : CutInto text segs) :
      CutInto (c :: text) ([c] :: segs)
  | join {c d : Char} {text segment : Text} {segs : List Text} (hc : c ≠ delimiter) (hne : c ≠ '=')
      (hd : IsPlain d) (rest : CutInto (d :: text) ((d :: segment) :: segs)) :
      CutInto (c :: d :: text) ((c :: d :: segment) :: segs)

/-- The pieces of a text are cut character by character. -/
theorem cutInto_pieces (text : Text) : CutInto text (pieces text) := by
  induction text with
  | nil => exact .nil
  | cons c text ih =>
    by_cases hc : c = delimiter
    · subst hc
      rw [pieces_delimiter_cons]
      exact .drop ih
    · by_cases hend : c = '=' ∨ ∀ d ∈ text.head?, ¬ IsPlain d
      · rw [pieces_cons_of_ends hc hend]
        exact .stand hc hend ih
      · rw [not_or] at hend
        obtain ⟨hne, hnext⟩ := hend
        cases text with
        | nil => exact absurd (fun d hd => by cases hd) hnext
        | cons d text =>
          have hd : IsPlain d := by simpa using hnext
          obtain ⟨segment, segs, hpieces, hcons⟩ := exists_pieces_cons_cons hc hne hd text
          rw [hpieces] at ih
          rw [hcons]
          exact .join hc hne hd ih

/-- The number of its segment for each character of some segments, in order. -/
def segmentNumbers (segs : List Text) : List Nat :=
  segs.zipIdx.flatMap fun (segment, i) => List.replicate segment.length i

theorem segmentNumbers_singleton_cons (c : Char) (segs : List Text) :
    segmentNumbers ([c] :: segs) = 0 :: (segmentNumbers segs).map (· + 1) := by
  simp [segmentNumbers, List.zipIdx_succ, List.flatMap_map, List.map_flatMap]

theorem segmentNumbers_cons_cons (c : Char) (segment : Text) (segs : List Text) :
    segmentNumbers ((c :: segment) :: segs) = 0 :: segmentNumbers (segment :: segs) := by
  simp [segmentNumbers, List.replicate_succ]

namespace CutInto

variable {text : Text} {segs : List Text}

/-- An equal sign is a segment of its own. -/
theorem eq_equalsMark_or (h : CutInto text segs) :
    ∀ segment ∈ segs, segment = equalsMark ∨ '=' ∉ segment := by
  induction h with
  | nil => simp
  | drop _ ih => exact ih
  | @stand c _ _ _ _ _ ih =>
    rw [List.forall_mem_cons]
    refine ⟨?_, ih⟩
    by_cases hc : c = '='
    · exact Or.inl (congrArg (fun c => [c]) hc)
    · exact Or.inr (by simpa using Ne.symm hc)
  | @join c d _ segment _ _ hne hd _ ih =>
    rw [List.forall_mem_cons] at ih ⊢
    refine ⟨Or.inr ?_, ih.2⟩
    -- the segment of a plain character is not the equal sign
    have hsegment : '=' ∉ d :: segment := by
      refine ih.1.resolve_left ?_
      intro heq
      obtain ⟨rfl, -⟩ := List.cons.inj heq
      exact absurd hd.1 (by decide)
    rw [List.mem_cons, not_or]
    exact ⟨Ne.symm hne, hsegment⟩

/-- A sign is the first character of its segment. -/
theorem not_startsSegment_of_mem_tail (h : CutInto text segs) :
    ∀ segment ∈ segs, ∀ c ∈ segment.tail, startsSegment c = false := by
  induction h with
  | nil => simp
  | drop _ ih => exact ih
  | stand _ _ _ ih =>
    rw [List.forall_mem_cons]
    exact ⟨by simp, ih⟩
  | join _ _ hd _ ih =>
    rw [List.forall_mem_cons] at ih ⊢
    refine ⟨?_, ih.2⟩
    rw [List.tail_cons, List.forall_mem_cons]
    exact ⟨hd.1, ih.1⟩

/-- There are as many equal signs among the segments as in the text. -/
theorem count_equalsMark (h : CutInto text segs) : segs.count equalsMark = text.count '=' := by
  induction h with
  | nil => rfl
  | drop _ ih =>
    rw [ih, List.count_cons_of_ne (by decide)]
  | @stand c _ _ _ _ _ ih =>
    by_cases hc : c = '='
    · subst hc
      rw [List.count_cons_self, ← ih]
      exact List.count_cons_self
    · have hmark : [c] ≠ equalsMark := fun heq => hc (List.cons.inj heq).1
      rw [List.count_cons_of_ne hmark, List.count_cons_of_ne hc, ih]
  | @join c d _ segment _ _ hne hd _ ih =>
    have hd' : d ≠ '=' := by
      rintro rfl
      exact absurd hd.1 (by decide)
    have hmark : d :: segment ≠ equalsMark := fun heq => hd' (List.cons.inj heq).1
    have hmark' : c :: d :: segment ≠ equalsMark := fun heq => hne (List.cons.inj heq).1
    rw [List.count_cons_of_ne hmark] at ih
    rw [List.count_cons_of_ne hmark', List.count_cons_of_ne hne, ih]

/-- The first character that is no delimiter stands in the first segment. -/
theorem segmentNumbers_head? {c : Char} (hc : c ≠ delimiter) (h : CutInto (c :: text) segs) :
    (segmentNumbers segs)[0]? = some 0 := by
  cases h with
  | drop => exact absurd rfl hc
  | stand =>
    rw [segmentNumbers_singleton_cons]
    rfl
  | join =>
    rw [segmentNumbers_cons_cons]
    rfl

/-- A boundary falls between two neighbours exactly when the second one starts a segment or the
first one is an equal sign. -/
theorem apart_iff (h : CutInto text segs) {before after : Text} {a b : Char}
    (htext : text = before ++ a :: b :: after) (ha : a ≠ delimiter) (hb : b ≠ delimiter) :
    ∃ i j, (segmentNumbers segs)[(before.filter (· != delimiter)).length]? = some i ∧
      (segmentNumbers segs)[(before.filter (· != delimiter)).length + 1]? = some j ∧
        (i ≠ j ↔ startsSegment b = true ∨ a = '=') := by
  -- the induction is on the text; its first character is the first one of the two or stands before
  induction h generalizing before with
  | nil => simp at htext
  | drop _ ih =>
    cases before with
    | nil =>
      rw [List.nil_append, List.cons.injEq] at htext
      exact absurd htext.1.symm ha
    | cons c before =>
      rw [List.cons_append, List.cons.injEq] at htext
      obtain ⟨rfl, htext⟩ := htext
      simpa using ih htext
  | @stand c rest segs hc hend hrest ih =>
    rw [segmentNumbers_singleton_cons]
    cases before with
    | nil =>
      rw [List.nil_append, List.cons.injEq] at htext
      obtain ⟨rfl, rfl⟩ := htext
      have hapart : startsSegment b = true ∨ c = '=' := by
        rcases hend with heq | hplain
        · exact Or.inr heq
        · apply Or.inl
          by_contra hstart
          exact hplain b rfl ⟨Bool.eq_false_iff.2 hstart, hb⟩
      have hnext := hrest.segmentNumbers_head? hb
      exact ⟨0, 1, rfl, by simp [hnext], by simp [hapart]⟩
    | cons c' before =>
      rw [List.cons_append, List.cons.injEq] at htext
      obtain ⟨rfl, htext⟩ := htext
      obtain ⟨i, j, hi, hj, hiff⟩ := ih htext
      refine ⟨i + 1, j + 1, ?_, ?_, by simpa using hiff⟩
      · simp [hc, hi]
      · simp [hc, hj]
  | @join c d rest segment segs hc hne hd hrest ih =>
    rw [segmentNumbers_cons_cons]
    cases before with
    | nil =>
      rw [List.nil_append, List.cons.injEq, List.cons.injEq] at htext
      obtain ⟨rfl, rfl, rfl⟩ := htext
      have hnext := hrest.segmentNumbers_head? hb
      exact ⟨0, 0, rfl, by simpa using hnext, by simp [hd.1, hne]⟩
    | cons c' before =>
      rw [List.cons_append, List.cons.injEq] at htext
      obtain ⟨rfl, htext⟩ := htext
      obtain ⟨i, j, hi, hj, hiff⟩ := ih htext
      refine ⟨i, j, ?_, ?_, hiff⟩
      · simpa [hc] using hi
      · simpa [hc] using hj

end CutInto

/-! ## Segments of an equation -/

/-- The segments cut the equation without loss, and exactly where they have to. None is empty, none
contains a delimiter or a blank character, and together they are the equation without these. An
equal sign is a segment of its own, as many as there are in the equation, and a sign is the first
character of its segment. Two neighbours, neither of them a delimiter, stand in different segments
exactly when the second one is a sign or an equal sign, or the first one is an equal sign;
characters are counted without the delimiters, which stand in no segment. -/
structure Cuts (equation : Text) (segs : List Text) : Prop where
  ne_nil : ∀ segment ∈ segs, segment ≠ []
  flatten_eq : segs.flatten = (Text.withoutBlanks equation).filter (· != delimiter)
  clean : ∀ segment ∈ segs, ∀ c ∈ segment, c ≠ delimiter ∧ Text.isBlank c = false
  equals_alone : ∀ segment ∈ segs, segment = equalsMark ∨ '=' ∉ segment
  sign_first : ∀ segment ∈ segs, '+' ∉ segment.tail ∧ '-' ∉ segment.tail
  count_equals : segs.count equalsMark = equation.count '='
  apart_iff : ∀ before a b after, Text.withoutBlanks equation = before ++ a :: b :: after →
    a ≠ delimiter → b ≠ delimiter →
      ∃ i j, (segmentNumbers segs)[(before.filter (· != delimiter)).length]? = some i ∧
        (segmentNumbers segs)[(before.filter (· != delimiter)).length + 1]? = some j ∧
          (i ≠ j ↔ b ∈ ['+', '-', '='] ∨ a = '=')

theorem startsSegment_iff_mem (c : Char) : startsSegment c = true ↔ c ∈ ['+', '-', '='] := by
  simp [startsSegment, or_assoc]

/-- The segments of an equation cut it without loss, and exactly where they have to. -/
theorem cuts_segments (equation : Text) : Cuts equation (segments equation) := by
  have hcut : CutInto (Text.withoutBlanks equation) (segments equation) := by
    rw [segments_eq_pieces]
    exact cutInto_pieces _
  have hflat := flatten_segments equation
  refine ⟨fun _ => ne_nil_of_mem_segments, hflat, ?_, hcut.eq_equalsMark_or, ?_, ?_, ?_⟩
  · intro segment hsegment c hc
    have hmem : c ∈ (segments equation).flatten := List.mem_flatten.2 ⟨segment, hsegment, hc⟩
    rw [hflat, List.mem_filter, bne_iff_ne] at hmem
    exact ⟨hmem.2, Text.isBlank_of_mem_withoutBlanks hmem.1⟩
  · intro segment hsegment
    have htail := hcut.not_startsSegment_of_mem_tail segment hsegment
    constructor
    · intro hmem
      exact absurd (htail '+' hmem) (by decide)
    · intro hmem
      exact absurd (htail '-' hmem) (by decide)
  · rw [hcut.count_equalsMark, count_withoutBlanks rfl]
  · intro before a b after htext ha hb
    rw [← startsSegment_iff_mem]
    exact hcut.apart_iff htext ha hb

/-- A sign in front, a delimiter, two equal signs and two signs next to each other. -/
example : segments "-x;1 == +-2".toList =
    ["-x".toList, "1".toList, "=".toList, "=".toList, "+".toList, "-2".toList] := by
  decide +kernel

end Equation

end EquationRoots
