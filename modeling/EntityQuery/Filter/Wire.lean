import EntityQuery.Filter.Basic
import EntityQuery.Filter.Operator
import EntityQuery.Json.Reader

/-!
# Filters as JSON

A filter is written as an object: its lists under `and` and `or`, its entries under their fields.
An entry is an object itself. It holds comparisons when some key names an operator or some value is
neither object nor array; otherwise it is a filter for the entities behind a relation.
-/

namespace EntityQuery

/-- Why a record could not be read. -/
inductive ReadError
  /-- some part is not of its shape -/
  | misfit
  /-- a filter inside it is none -/
  | filter (error : QueryError)

namespace Filter

/-- Whether the members of an entry are comparisons, and not a filter of their own. -/
def holdsComparisons (members : List (String × Json)) : Bool :=
  members.any (fun m => Operator.isKnown m.1)
    || !members.all fun m => m.2.isObject || m.2.isArray

/-- The members of an entry as comparisons. -/
def comparisonsOf (members : List (String × Json)) : List Comparison :=
  members.map fun m => ⟨m.1, m.2⟩

mutual

/-- Reads a filter. Members are read in their order, and the first that does not fit is reported. -/
def ofJson : Json → Answer Filter
  | .obj members => ofMembers members
  | other => .error (.invalidFilter (.filter other))
termination_by structural value => value

/-- Reads the members of a filter. -/
def ofMembers : List (String × Json) → Answer Filter
  | [] => .ok empty
  | (key, value) :: rest =>
    if key = "and" then do
      let children ← childrenOf key value
      let f ← ofMembers rest
      return node children f.any f.fields
    else if key = "or" then do
      let children ← childrenOf key value
      let f ← ofMembers rest
      return node f.all children f.fields
    else do
      let entry ← entryOf key value
      let f ← ofMembers rest
      return node f.all f.any ((key, entry) :: f.fields)
termination_by structural members => members

/-- Reads the filters listed under a key. -/
def childrenOf (key : String) : Json → Answer (List Filter)
  | .arr items => ofItems items
  | other => .error (.invalidFilter (.group key other))
termination_by structural value => value

/-- Reads filters in order. -/
def ofItems : List Json → Answer (List Filter)
  | [] => .ok []
  | x :: xs => do
    let f ← ofJson x
    let fs ← ofItems xs
    return f :: fs
termination_by structural items => items

/-- Reads the entry of a field. -/
def entryOf (field : String) : Json → Answer FieldFilter
  | .obj members =>
    if holdsComparisons members then .ok (.comparisons (comparisonsOf members))
    else do
      let f ← ofMembers members
      return .relation f
  | other => .error (.invalidFilter (.field field other))
termination_by structural value => value

end

/-- Reads the filter that a text writes. The value in front has to be a filter before it is asked
whether anything follows, so its error is the one reported. -/
def ofText (text : String) : Except ReadError Filter :=
  match Json.parseFront? text with
  | none => .error .misfit
  | some (value, rest) => match ofJson value with
    | .error error => .error (.filter error)
    | .ok filter => if rest.isEmpty then .ok filter else .error .misfit

/-- The list of a group under its key; an empty list is left out. -/
def groupEntry (key : String) (items : List Json) : List (String × Json) :=
  if items.isEmpty then [] else [(key, .arr items)]

mutual

/-- Writes a filter. An entry of a name that was written before replaces it. -/
def toJson : Filter → Json
  | node all any fields => .obj (Dict.ofEntries
      (groupEntry "and" (toItems all) ++ groupEntry "or" (toItems any) ++ toMembers fields))
termination_by structural filter => filter

/-- Writes filters in order. -/
def toItems : List Filter → List Json
  | [] => []
  | f :: fs => f.toJson :: toItems fs
termination_by structural filters => filters

/-- Writes what an entry asks for. -/
def entryToJson : FieldFilter → Json
  | .comparisons list => .obj (Dict.ofEntries (list.map fun c => (c.operator, c.operand)))
  | .relation f => f.toJson
termination_by structural entry => entry

/-- Writes entries in order. -/
def toMembers : List (String × FieldFilter) → List (String × Json)
  | [] => []
  | (name, entry) :: rest => (name, entryToJson entry) :: toMembers rest
termination_by structural fields => fields

end

end Filter

end EntityQuery
