/-!
# Names in dots

A text with dots is a list of parts; no dot is a single part, and a part may be empty.
-/

namespace EntityQuery.Text

/-- The parts of a text between dots. -/
def splitDots : List Char → List (List Char)
  | [] => [[]]
  | c :: cs =>
    if c = '.' then [] :: splitDots cs
    else match splitDots cs with
      | part :: parts => (c :: part) :: parts
      | [] => [[c]]

/-- The parts of a text between dots. -/
def dotted (text : String) : List String := (splitDots text.toList).map String.ofList

end EntityQuery.Text
