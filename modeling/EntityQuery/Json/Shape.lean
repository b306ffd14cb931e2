import EntityQuery.Json.Document

/-!
# Reading typed shapes

A typed shape is read in the same way from a JSON value and from a document as written. A record
shape is an object, in which unknown keys are passed over, or an array of its fields in order, in
which trailing fields may be missing. A document may not write a known key twice.
-/

namespace EntityQuery

/-- What typed shapes ask of the thing they are read from. -/
class Readable (α : Type) where
  /-- whether this is `null` -/
  isNull : α → Bool
  text? : α → Option String
  bool? : α → Option Bool
  /-- a natural below `2^64` -/
  word? : α → Option Nat
  items? : α → Option (List α)
  /-- the members of an object, repetitions included -/
  entries? : α → Option (List (String × α))
  /-- what stands for each of the named fields of a record -/
  fields? : List String → α → Option (List (Option α))

namespace Shape

/-- The fields of a record written as an array: as many as are named, or fewer. -/
def fieldsOfItems? {α : Type} (names : List String) (items : List α) : Option (List (Option α)) :=
  if items.length ≤ names.length then
    some (items.map some ++ List.replicate (names.length - items.length) none)
  else none

/-- The natural that a number is, if it fits 64 bits. -/
def wordOfNumber? : Number → Option Nat
  | .int n => if 0 ≤ n ∧ n < UInt64.size then some n.toNat else none
  | .float _ => none

end Shape

instance : Readable Json where
  isNull := Json.isNull
  text?
    | .str s => some s
    | _ => none
  bool?
    | .bool b => some b
    | _ => none
  word?
    | .num n => Shape.wordOfNumber? n
    | _ => none
  items?
    | .arr items => some items
    | _ => none
  entries?
    | .obj members => some members
    | _ => none
  fields? names
    | .obj members => some (names.map (Dict.get? members))
    | .arr items => Shape.fieldsOfItems? names items
    | _ => none

namespace Document

/-- The members of an object, if all their keys denote text. -/
def members? : List (Option String × Document) → Option (List (String × Document))
  | [] => some []
  | (key, value) :: rest => do return (← key, value) :: (← members? rest)

/-- What an object's members hold for the named fields, if none of these is written twice. -/
def fieldsOfMembers? (names : List String) (members : List (String × Document)) :
    Option (List (Option Document)) :=
  if names.all fun name => decide ((members.filter (·.1 == name)).length ≤ 1) then
    some (names.map fun name => members.lookup name)
  else none

end Document

instance : Readable Document where
  isNull
    | .null => true
    | _ => false
  text?
    | .str s => s
    | _ => none
  bool?
    | .bool b => some b
    | _ => none
  word?
    | .num (some n) => Shape.wordOfNumber? n
    | _ => none
  items?
    | .arr items => some items
    | _ => none
  entries?
    | .obj members => Document.members? members
    | _ => none
  fields? names
    | .obj members => do Document.fieldsOfMembers? names (← Document.members? members)
    | .arr items => Shape.fieldsOfItems? names items
    | _ => none

namespace Shape

variable {α : Type} [Readable α] {β : Type}

/-- A field that has to be there. -/
def required (read : α → Option β) : Option α → Option β
  | some value => read value
  | none => none

/-- A field that has a default. -/
def withDefault (default : β) (read : α → Option β) : Option α → Option β
  | some value => read value
  | none => some default

/-- A field that may be missing or `null`. -/
def optional (read : α → Option β) : Option α → Option (Option β)
  | some value => if Readable.isNull value then some none else (read value).map some
  | none => some none

/-- A list. -/
def list (read : α → Option β) (value : α) : Option (List β) := do
  (← Readable.items? value).mapM read

/-- A list of texts. -/
def texts (value : α) : Option (List String) := list Readable.text? value

/-- A dictionary; a repeated key keeps its last value. -/
def dict (read : α → Option β) (value : α) : Option (Dict β) := do
  let entries ← (← Readable.entries? value).mapM fun entry =>
    (read entry.2).map fun read => (entry.1, read)
  return Dict.ofEntries entries

/-- One of several names: as a text, or as the only key of an object, over `null`. -/
def choice (ofName? : String → Option β) (value : α) : Option β :=
  match Readable.text? value with
  | some name => ofName? name
  | none => match Readable.entries? value with
    | some [(name, under)] => if Readable.isNull under then ofName? name else none
    | _ => none

end Shape

end EntityQuery
