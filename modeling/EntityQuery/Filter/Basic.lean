import EntityQuery.Json.Basic

/-!
# Filters

A filter is a request for rows before anything is checked: lists of alternatives and of further
filters, and entries for fields. An entry holds comparisons on the field itself, or a filter for the
entities behind the relation of that name. All parts of a filter have to hold; of the alternatives,
if there are any, one has to.
-/

namespace EntityQuery

/-- An operator as it was written, and its operand. -/
structure Comparison where
  operator : String
  operand : Json
deriving Inhabited

mutual

/-- A tree of conditions. -/
inductive Filter
  | node (all any : List Filter) (fields : List (String × FieldFilter))

/-- What an entry asks of its field. -/
inductive FieldFilter
  /-- every comparison holds of the field -/
  | comparisons (list : List Comparison)
  /-- the filter holds of an entity behind the relation -/
  | relation (filter : Filter)

end

namespace Filter

/-- The filters of which all have to hold. -/
def all : Filter → List Filter
  | node all _ _ => all

/-- The filters of which one has to hold. -/
def any : Filter → List Filter
  | node _ any _ => any

/-- The entries for fields, in order. -/
def fields : Filter → List (String × FieldFilter)
  | node _ _ fields => fields

/-- The filter that asks for nothing. -/
def empty : Filter := node [] [] []

instance : Inhabited Filter := ⟨empty⟩

/-- Whether the filter has no parts. -/
def isEmpty (f : Filter) : Bool := f.all.isEmpty && f.any.isEmpty && f.fields.isEmpty

/-! ## Building -/

/-- All of the filters. -/
def allOf (children : List Filter) : Filter := node children [] []

/-- One of the filters. -/
def anyOf (children : List Filter) : Filter := node [] children []

/-- Adds a comparison to the first entry of the field that holds comparisons, or as an entry of its
own behind the others. -/
def addComparison (field : String) (comparison : Comparison) :
    List (String × FieldFilter) → List (String × FieldFilter)
  | [] => [(field, .comparisons [comparison])]
  | (name, .comparisons list) :: rest =>
    if name = field then (name, .comparisons (list ++ [comparison])) :: rest
    else (name, .comparisons list) :: addComparison field comparison rest
  | entry :: rest => entry :: addComparison field comparison rest

/-- Asks in addition that a field compares so. -/
def compare (f : Filter) (field operator : String) (operand : Json) : Filter :=
  node f.all f.any (addComparison field ⟨operator, operand⟩ f.fields)

/-- Asks in addition for an entity behind a relation. -/
def relation (f : Filter) (name : String) (sub : Filter) : Filter :=
  node f.all f.any (f.fields ++ [(name, .relation sub)])

/-- Both filters; one that asks for nothing leaves the other as it is. -/
def merge (f g : Filter) : Filter :=
  if f.isEmpty then g else if g.isEmpty then f else allOf [f, g]

/-! ## Names -/

mutual

/-- Every field and relation named anywhere in the filter. -/
def mentions : Filter → List String
  | node all any fields => mentionsOf all ++ mentionsOf any ++ mentionsOfFields fields
termination_by structural filter => filter

/-- The names inside what an entry asks for. -/
def mentionsBehind : FieldFilter → List String
  | .comparisons _ => []
  | .relation sub => sub.mentions
termination_by structural entry => entry

/-- The names in several filters. -/
def mentionsOf : List Filter → List String
  | [] => []
  | f :: fs => f.mentions ++ mentionsOf fs
termination_by structural filters => filters

/-- The names of entries and inside them. -/
def mentionsOfFields : List (String × FieldFilter) → List String
  | [] => []
  | (name, entry) :: rest => name :: (mentionsBehind entry ++ mentionsOfFields rest)
termination_by structural fields => fields

end

/-- The fields and relations named in the filter, each once and in order. -/
def fieldNames (f : Filter) : List String :=
  Dict.keys (Dict.ofEntries (f.mentions.map fun name => (name, ())))

/-! ## Equality -/

/-- Equality of comparisons, with operands compared as values. -/
def sameComparisons : List Comparison → List Comparison → Bool
  | [], [] => true
  | c :: cs, d :: ds =>
    c.operator == d.operator && c.operand.same d.operand && sameComparisons cs ds
  | _, _ => false

mutual

/-- Equality of structure, with operands compared as values. -/
def same : Filter → Filter → Bool
  | node a b c, node a' b' c' => sameList a a' && sameList b b' && sameFields c c'
termination_by structural filter => filter

/-- Equality of what entries ask for. -/
def sameEntry : FieldFilter → FieldFilter → Bool
  | .comparisons cs, .comparisons ds => sameComparisons cs ds
  | .relation f, .relation g => same f g
  | _, _ => false
termination_by structural entry => entry

/-- Equality of filters in order. -/
def sameList : List Filter → List Filter → Bool
  | [], [] => true
  | f :: fs, g :: gs => same f g && sameList fs gs
  | _, _ => false
termination_by structural filters => filters

/-- Equality of entries in order. -/
def sameFields : List (String × FieldFilter) → List (String × FieldFilter) → Bool
  | [], [] => true
  | (n, x) :: xs, (m, y) :: ys => n == m && sameEntry x y && sameFields xs ys
  | _, _ => false
termination_by structural fields => fields

end

instance : BEq Filter := ⟨same⟩

end Filter

end EntityQuery
