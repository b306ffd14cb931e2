import EntityQuery.Text.SimpleFold

/-!
# Patterns with wildcards

In a pattern `%` stands for any run of characters, line breaks included, `_` for exactly one
character, and every other character for itself; there is no escape character. `Pattern.Cut` says
when a text is cut into consecutive pieces, one for each item of a pattern. `Pattern.covers` decides
it by following all places that the items read so far can reach.
-/

namespace EntityQuery.Text

/-- One item of a pattern. -/
inductive PatternItem
  /-- any run of characters, the empty one too -/
  | run
  /-- any one character -/
  | one
  /-- this character -/
  | char (c : Char)
deriving DecidableEq, Repr

/-- A pattern, item by item. -/
abbrev Pattern := List PatternItem

namespace Pattern

/-- The item that a character of a pattern's text stands for. -/
def item (c : Char) : PatternItem :=
  if c = '%' then .run else if c = '_' then .one else .char c

/-- The pattern that a text writes. -/
def ofText (text : List Char) : Pattern := text.map item

/-- The text is cut into pieces, one for each item of the pattern in order. -/
inductive Cut : Pattern → List Char → Prop
  | nil : Cut [] []
  | run {items rest} (piece : List Char) : Cut items rest → Cut (.run :: items) (piece ++ rest)
  | one {items rest} (c : Char) : Cut items rest → Cut (.one :: items) (c :: rest)
  | char {items rest} (c : Char) : Cut items rest → Cut (.char c :: items) (c :: rest)

/-- A text and everything it ends with, longest first. -/
def suffixes : List Char → List (List Char)
  | [] => [[]]
  | c :: rest => (c :: rest) :: suffixes rest

/-- What is left of a text behind a piece for one character that `fits`. -/
def behind (fits : Char → Bool) : List Char → Option (List Char)
  | c :: rest => if fits c then some rest else none
  | [] => none

/-- All that can be left of the text behind one more item, given all that can be left before it,
longest first. A run may stop at every suffix, and those of the longest remainder include those of
the others. -/
def advance : PatternItem → List (List Char) → List (List Char)
  | .run, longest :: _ => suffixes longest
  | .run, [] => []
  | .one, places => places.filterMap (behind fun _ => true)
  | .char c, places => places.filterMap (behind (· == c))

/-- Whether the whole text is covered by the pattern. -/
def covers (pattern : Pattern) (text : List Char) : Bool :=
  (pattern.foldl (fun places item => advance item places) [text]).any (·.isEmpty)

end Pattern

/-- Whether a text is like a pattern. -/
def like (text pattern : String) : Bool :=
  (Pattern.ofText pattern.toList).covers text.toList

/-- The characters of a text without their case. -/
def foldCase (text : String) : List Char := text.toList.map foldChar

/-- Whether a text is like a pattern but for case. -/
def likeFolded (text pattern : String) : Bool :=
  (Pattern.ofText (foldCase pattern)).covers (foldCase text)

end EntityQuery.Text
