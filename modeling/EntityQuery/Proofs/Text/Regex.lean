import EntityQuery.Text.Pattern.Cut

/-!
# Patterns as regular expressions

A pattern can be put to a matcher of regular expressions: between `^` and `$` it becomes `.*` for
`%`, `.` for `_`, and every other character for itself, behind a backslash where the language of
regular expressions gives it a meaning. This module has as much of that language as such texts use:
`Regex.read?` reads them item by item, and `Regex.Finds` says when an expression is found in a text.
What is read is what was meant (`read?_write`): no character of a pattern is taken for an operator,
not even a star after an underscore. It is found exactly in the texts that are cut into the pieces
of the pattern, provided that a point stands for line breaks too (`finds_meaning_iff`).
-/

namespace EntityQuery.Text

namespace Regex

/-! ## The language -/

/-- An item of a regular expression. -/
inductive Item
  /-- `^`, the start of the text -/
  | start
  /-- `$`, the end of the text -/
  | stop
  /-- `.`, any character -/
  | point
  /-- `.*`, any run of characters -/
  | points
  /-- a character that stands for itself -/
  | char (c : Char)
deriving DecidableEq, Repr

/-- Whether a character has to stand behind a backslash to stand for itself. -/
def isMeta (c : Char) : Bool :=
  ['\\', '.', '+', '*', '?', '(', ')', '|', '[', ']', '{', '}', '^', '$', '#', '&', '-',
    '~'].contains c

/-- The items of an expression, if it has no others than these. A star belongs to the point before
it. -/
def read? : List Char → Option (List Item)
  | [] => some []
  | '\\' :: c :: rest => if isMeta c then (read? rest).map (.char c :: ·) else none
  | '.' :: '*' :: rest => (read? rest).map (.points :: ·)
  | '.' :: rest => (read? rest).map (.point :: ·)
  | '^' :: rest => (read? rest).map (.start :: ·)
  | '$' :: rest => (read? rest).map (.stop :: ·)
  | c :: rest => if isMeta c then none else (read? rest).map (.char c :: ·)

/-- The items match what follows at a place of a text, given what stands before it. Whether a point
stands for a line break is up to `breaks`. -/
def Matches (breaks : Bool) : List Item → List Char → List Char → Prop
  | [], _, _ => True
  | .start :: items, before, rest => before = [] ∧ Matches breaks items before rest
  | .stop :: items, before, rest => rest = [] ∧ Matches breaks items before rest
  | .point :: items, before, rest => ∃ c tail, rest = c :: tail ∧
      (breaks = true ∨ c ≠ '\n') ∧ Matches breaks items (before ++ [c]) tail
  | .points :: items, before, rest => ∃ piece tail, rest = piece ++ tail ∧
      (breaks = true ∨ '\n' ∉ piece) ∧ Matches breaks items (before ++ piece) tail
  | .char c :: items, before, rest =>
      ∃ tail, rest = c :: tail ∧ Matches breaks items (before ++ [c]) tail

/-- The items match somewhere in a text. -/
def Finds (breaks : Bool) (items : List Item) (text : List Char) : Prop :=
  ∃ before rest, text = before ++ rest ∧ Matches breaks items before rest

/-! ## Patterns -/

/-- A character that stands for itself, as an expression. -/
def escape (c : Char) : List Char := if isMeta c then ['\\', c] else [c]

/-- An item of a pattern as an expression. -/
def writeItem : PatternItem → List Char
  | .run => ['.', '*']
  | .one => ['.']
  | .char c => escape c

/-- A pattern as an expression that has to match the whole of a text. -/
def write (pattern : Pattern) : List Char := '^' :: (pattern.flatMap writeItem ++ ['$'])

/-- What an item of a pattern means in an expression. -/
def ofItem : PatternItem → Item
  | .run => .points
  | .one => .point
  | .char c => .char c

/-- What a pattern means as an expression. -/
def meaning (pattern : Pattern) : List Item := .start :: (pattern.map ofItem ++ [.stop])

/-! ## Reading back -/

theorem read?_char {c : Char} (hplain : isMeta c = false) (rest : List Char) :
    read? (c :: rest) = (read? rest).map (.char c :: ·) := by
  -- the other equations are about characters with a meaning
  have hne : ∀ m, isMeta m = true → c ≠ m := by
    rintro m hm rfl
    rw [hm] at hplain
    cases hplain
  rw [read?, hplain]
  · rfl
  · rintro _ _ rfl
    exact absurd rfl (hne '\\' rfl)
  · rintro _ rfl
    exact absurd rfl (hne '.' rfl)
  · exact hne '.' rfl
  · exact hne '^' rfl
  · exact hne '$' rfl

theorem read?_escape (c : Char) (rest : List Char) :
    read? (escape c ++ rest) = (read? rest).map (.char c :: ·) := by
  unfold escape
  split
  · next hmeta =>
    show read? ('\\' :: c :: rest) = _
    rw [read?, if_pos hmeta]
  · next hplain => exact read?_char (Bool.not_eq_true _ ▸ hplain) rest

/-- Where the rest of an expression does not begin with a star, a point is one character. -/
theorem read?_point {rest : List Char} (h : rest.head? ≠ some '*') :
    read? ('.' :: rest) = (read? rest).map (.point :: ·) := by
  cases rest with
  | nil => rfl
  | cons c rest =>
    rw [read?]
    rintro tail ⟨⟩
    exact h rfl

/-- An item is read back from what it is written as. The expression behind it must not begin with a
star, which an underscore before it would be read together with. -/
theorem read?_writeItem (item : PatternItem) {rest : List Char} (h : rest.head? ≠ some '*') :
    read? (writeItem item ++ rest) = (read? rest).map (ofItem item :: ·) := by
  cases item with
  | run => rfl
  | one => exact read?_point h
  | char c => exact read?_escape c rest

/-- No item is written with a star in front: a literal one stands behind its backslash. -/
theorem head?_writeItem (item : PatternItem) :
    ∃ c, (writeItem item).head? = some c ∧ c ≠ '*' := by
  cases item with
  | run => exact ⟨'.', rfl, by decide⟩
  | one => exact ⟨'.', rfl, by decide⟩
  | char c =>
    show ∃ d, (escape c).head? = some d ∧ d ≠ '*'
    unfold escape
    split
    · exact ⟨'\\', rfl, by decide⟩
    · next hplain =>
      refine ⟨c, rfl, ?_⟩
      rintro rfl
      exact hplain rfl

theorem head?_writeItems (pattern : Pattern) :
    (pattern.flatMap writeItem ++ ['$']).head? ≠ some '*' := by
  cases pattern with
  | nil => decide
  | cons item pattern =>
    obtain ⟨c, hc, hne⟩ := head?_writeItem item
    rw [List.flatMap_cons, List.append_assoc, List.head?_append, hc]
    rintro ⟨⟩
    exact hne rfl

theorem read?_writeItems (pattern : Pattern) :
    read? (pattern.flatMap writeItem ++ ['$']) = some (pattern.map ofItem ++ [.stop]) := by
  induction pattern with
  | nil => rfl
  | cons item pattern ih =>
    rw [List.flatMap_cons, List.append_assoc, read?_writeItem item (head?_writeItems pattern), ih]
    rfl

/-- What is read is what was meant. -/
theorem read?_write (pattern : Pattern) : read? (write pattern) = some (meaning pattern) := by
  rw [write, read?, read?_writeItems]
  rfl

/-! ## Finding -/

/-- Behind the start of a text, the items of a pattern match what it cuts. -/
theorem matches_items_iff (pattern : Pattern) (before rest : List Char) :
    Matches true (pattern.map ofItem ++ [.stop]) before rest ↔ Pattern.Cut pattern rest := by
  induction pattern generalizing before rest with
  | nil =>
    rw [Pattern.cut_nil]
    exact ⟨And.left, fun h => ⟨h, trivial⟩⟩
  | cons item pattern ih =>
    rw [Pattern.cut_cons]
    cases item with
    | run =>
      constructor
      · rintro ⟨piece, tail, rfl, -, h⟩
        exact ⟨tail, ⟨piece, rfl⟩, (ih _ _).1 h⟩
      · rintro ⟨tail, ⟨piece, rfl⟩, h⟩
        exact ⟨piece, tail, rfl, .inl rfl, (ih _ _).2 h⟩
    | one =>
      constructor
      · rintro ⟨c, tail, rfl, -, h⟩
        exact ⟨tail, ⟨c, rfl⟩, (ih _ _).1 h⟩
      · rintro ⟨tail, ⟨c, rfl⟩, h⟩
        exact ⟨c, tail, rfl, .inl rfl, (ih _ _).2 h⟩
    | char c =>
      constructor
      · rintro ⟨tail, rfl, h⟩
        exact ⟨tail, rfl, (ih _ _).1 h⟩
      · rintro ⟨tail, rfl, h⟩
        exact ⟨tail, rfl, (ih _ _).2 h⟩

/-- A pattern is found exactly in the texts that it cuts. -/
theorem finds_meaning_iff {pattern : Pattern} {text : List Char} :
    Finds true (meaning pattern) text ↔ Pattern.Cut pattern text := by
  constructor
  · rintro ⟨before, rest, rfl, rfl, h⟩
    exact (matches_items_iff pattern [] rest).1 h
  · intro h
    exact ⟨[], text, rfl, rfl, (matches_items_iff pattern [] text).2 h⟩

end Regex

end EntityQuery.Text
