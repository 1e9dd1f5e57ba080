/-!
# Text

A text is a list of characters. This module holds the few cuts that the equation notation and the
number formats share: blank characters and their removal, doubled characters, splitting at a
separator, and cutting at the first occurrence of a character.

- `hasDoubled_iff`: a character is doubled exactly when the text contains it twice in a row.
- `cutAt_append`: the cut falls at the first occurrence.
- `split_append`, `flatten_split`: splitting cuts at every separator and drops nothing else.
-/

set_option autoImplicit false

namespace EquationRoots

/-- A text, as the list of its characters. -/
abbrev Text := List Char

namespace Text

/-! ## Blank characters -/

/-- The five blank characters: space, tab, line feed, form feed and carriage return. No other
character, ASCII or not, counts as blank. -/
def isBlank (c : Char) : Bool :=
  c == ' ' || c == '\t' || c == '\n' || c == '\x0c' || c == '\r'

/-- The text without its blank characters. -/
def withoutBlanks (text : Text) : Text :=
  text.filter fun c => !isBlank c

@[simp] theorem withoutBlanks_nil : withoutBlanks [] = [] := rfl

theorem isBlank_of_mem_withoutBlanks {c : Char} {text : Text} (h : c ∈ withoutBlanks text) :
    isBlank c = false := by
  simpa using (List.mem_filter.1 h).2

@[simp] theorem withoutBlanks_withoutBlanks (text : Text) :
    withoutBlanks (withoutBlanks text) = withoutBlanks text := by
  simp [withoutBlanks]

@[simp] theorem withoutBlanks_append (s t : Text) :
    withoutBlanks (s ++ t) = withoutBlanks s ++ withoutBlanks t := by
  simp [withoutBlanks]

/-! ## Doubled characters -/

/-- Whether the character stands twice in a row somewhere in the text. -/
def hasDoubled (x : Char) : Text → Bool
  | a :: b :: rest => (a == x && b == x) || hasDoubled x (b :: rest)
  | _ => false

@[simp] theorem hasDoubled_nil (x : Char) : hasDoubled x [] = false := rfl

@[simp] theorem hasDoubled_singleton (x a : Char) : hasDoubled x [a] = false := rfl

theorem hasDoubled_cons_cons (x a b : Char) (rest : Text) :
    hasDoubled x (a :: b :: rest) = ((a == x && b == x) || hasDoubled x (b :: rest)) := rfl

/-- A character is doubled exactly when the text contains it twice in a row. -/
theorem hasDoubled_iff (x : Char) (text : Text) :
    hasDoubled x text = true ↔ ∃ before after, text = before ++ x :: x :: after := by
  induction text with
  | nil => simp
  | cons a rest ih =>
    cases rest with
    | nil =>
      simp only [hasDoubled_singleton, Bool.false_eq_true, false_iff]
      rintro ⟨before, after, h⟩
      -- one character leaves no room for two
      have := congrArg List.length h
      simp at this
      omega
    | cons b rest =>
      rw [hasDoubled_cons_cons, Bool.or_eq_true, ih]
      constructor
      · rintro (h | ⟨before, after, h⟩)
        · simp only [Bool.and_eq_true, beq_iff_eq] at h
          exact ⟨[], rest, by simp [h.1, h.2]⟩
        · exact ⟨a :: before, after, by simp [h]⟩
      · rintro ⟨before, after, h⟩
        cases before with
        | nil => simp at h; simp [h.1, h.2.1]
        | cons p before =>
          simp only [List.cons_append, List.cons.injEq] at h
          exact Or.inr ⟨before, after, h.2⟩

/-! ## Cutting at the first occurrence -/

/-- Cuts the text at the first occurrence of a character: what stands before it, and what stands
after it, or `none` when the character does not occur. -/
def cutAt (x : Char) : Text → Text × Option Text
  | [] => ([], none)
  | c :: rest =>
    if c = x then ([], some rest)
    else (c :: (cutAt x rest).1, (cutAt x rest).2)

@[simp] theorem cutAt_nil (x : Char) : cutAt x [] = ([], none) := rfl

@[simp] theorem cutAt_cons_self (x : Char) (rest : Text) :
    cutAt x (x :: rest) = ([], some rest) := by
  simp [cutAt]

theorem cutAt_cons_of_ne {x c : Char} (h : c ≠ x) (rest : Text) :
    cutAt x (c :: rest) = (c :: (cutAt x rest).1, (cutAt x rest).2) := by
  simp [cutAt, h]

/-- A text without the character is not cut. -/
theorem cutAt_of_not_mem {x : Char} {text : Text} (h : x ∉ text) : cutAt x text = (text, none) := by
  induction text with
  | nil => rfl
  | cons c rest ih =>
    simp only [List.mem_cons, not_or] at h
    rw [cutAt_cons_of_ne (Ne.symm h.1), ih h.2]

/-- The cut falls at the first occurrence. -/
theorem cutAt_append {x : Char} {before : Text} (h : x ∉ before) (after : Text) :
    cutAt x (before ++ x :: after) = (before, some after) := by
  induction before with
  | nil => simp
  | cons c rest ih =>
    simp only [List.mem_cons, not_or] at h
    rw [List.cons_append, cutAt_cons_of_ne (Ne.symm h.1), ih h.2]

theorem not_mem_cutAt_fst (x : Char) (text : Text) : x ∉ (cutAt x text).1 := by
  induction text with
  | nil => simp
  | cons c rest ih =>
    by_cases h : c = x
    · simp [cutAt, h]
    · simp [cutAt, h, ih, Ne.symm h]

/-! ## Splitting at every occurrence -/

/-- Splits the text at every occurrence of a separator. There is one piece more than there are
separators, and pieces may be empty. -/
def split (separator : Char) : Text → List Text
  | [] => [[]]
  | c :: rest =>
    if c = separator then [] :: split separator rest
    else match split separator rest with
      | [] => [[c]]
      | piece :: pieces => (c :: piece) :: pieces

@[simp] theorem split_nil (separator : Char) : split separator [] = [[]] := rfl

@[simp] theorem split_cons_self (separator : Char) (rest : Text) :
    split separator (separator :: rest) = [] :: split separator rest := by
  simp [split]

theorem split_ne_nil (separator : Char) (text : Text) : split separator text ≠ [] := by
  cases text with
  | nil => simp
  | cons c rest =>
    simp only [split]
    split
    · simp
    · split <;> simp

theorem split_cons_of_ne {separator c : Char} (h : c ≠ separator) (rest : Text) :
    ∃ piece pieces, split separator rest = piece :: pieces ∧
      split separator (c :: rest) = (c :: piece) :: pieces := by
  cases hs : split separator rest with
  | nil => exact absurd hs (split_ne_nil separator rest)
  | cons piece pieces => exact ⟨piece, pieces, rfl, by simp [split, h, hs]⟩

/-- A text without the separator is one piece. -/
theorem split_of_not_mem {separator : Char} {text : Text} (h : separator ∉ text) :
    split separator text = [text] := by
  induction text with
  | nil => rfl
  | cons c rest ih =>
    simp only [List.mem_cons, not_or] at h
    simp [split, Ne.symm h.1, ih h.2]

/-- The first piece ends at the first separator. -/
theorem split_append {separator : Char} {before : Text} (h : separator ∉ before) (after : Text) :
    split separator (before ++ separator :: after) = before :: split separator after := by
  induction before with
  | nil => simp
  | cons c rest ih =>
    simp only [List.mem_cons, not_or] at h
    simp [split, Ne.symm h.1, ih h.2]

/-- Splitting drops the separators and nothing else. -/
theorem flatten_split (separator : Char) (text : Text) :
    (split separator text).flatten = text.filter (· != separator) := by
  induction text with
  | nil => simp
  | cons c rest ih =>
    by_cases h : c = separator
    · subst h; simp [ih]
    · obtain ⟨piece, pieces, hs, hc⟩ := split_cons_of_ne h rest
      rw [hc, List.filter_cons_of_pos (by simpa using h), ← ih, hs]
      simp

end Text

end EquationRoots
