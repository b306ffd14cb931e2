import EntityQuery.Json.Basic

/-!
# JSON as written

A `Document` is the tree of a text before anything is decided about what it denotes: members keep
the order and the repetitions of the text, and a literal that is well written but denotes nothing (a
number beyond the largest, half of a surrogate pair) is kept as `none`. A document *is* a value,
`Document.value?`, when every literal denotes something; a key written twice then keeps its last
value. A shape that passes over a part of a document never asks what that part denotes.
-/

namespace EntityQuery

/-- The tree of a JSON text. -/
inductive Document
  | null
  | bool (value : Bool)
  | num (value : Option Number)
  | str (value : Option String)
  | arr (items : List Document)
  | obj (members : List (Option String × Document))
deriving Inhabited

namespace Document

mutual

/-- The value a document denotes, if all of it denotes something. -/
def value? : Document → Option Json
  | null => some .null
  | bool b => some (.bool b)
  | num n => n.map .num
  | str s => s.map .str
  | arr items => (valueItems? items).map .arr
  | obj members => (valueMembers? members).map fun entries => .obj (Dict.ofEntries entries)
termination_by structural document => document

/-- The values of items. -/
def valueItems? : List Document → Option (List Json)
  | [] => some []
  | x :: xs => do return (← x.value?) :: (← valueItems? xs)
termination_by structural items => items

/-- The keys and values of members, in the order of the text. -/
def valueMembers? : List (Option String × Document) → Option (List (String × Json))
  | [] => some []
  | (k, x) :: ms => do
    let key ← k
    let value ← x.value?
    return (key, value) :: (← valueMembers? ms)
termination_by structural members => members

end

end Document

end EntityQuery
