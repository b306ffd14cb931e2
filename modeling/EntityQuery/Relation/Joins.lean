import EntityQuery.Filter.Basic
import EntityQuery.Predicate.Basic
import EntityQuery.Relation.Tree
import EntityQuery.Schema.Registry

/-!
# Which relations are reached

A filter reaches the relations that its entries are named after, seen from the entity type at which
the entry stands; a predicate reaches those that its columns lie behind. What different parts reach
is united.
-/

namespace EntityQuery

namespace Filter

mutual

/-- Adds the relations of an entity type that a filter reaches. -/
def addJoins (schema : Schema) : Filter → String → JoinTree → JoinTree
  | node all any fields, entity, tree =>
    addFieldJoins schema fields entity
      (addListJoins schema any entity (addListJoins schema all entity tree))
termination_by structural filter => filter

/-- Adds the relations that several filters reach. -/
def addListJoins (schema : Schema) : List Filter → String → JoinTree → JoinTree
  | [], _, tree => tree
  | f :: fs, entity, tree => addListJoins schema fs entity (addJoins schema f entity tree)
termination_by structural filters => filters

/-- The relations that an entry reaches from the entity type behind it. -/
def entryJoins (schema : Schema) : FieldFilter → String → JoinTree
  | .comparisons _, _ => .empty
  | .relation f, target => addJoins schema f target .empty
termination_by structural entry => entry

/-- Adds the relations that entries are named after, and what they reach in turn. -/
def addFieldJoins (schema : Schema) : List (String × FieldFilter) → String → JoinTree → JoinTree
  | [], _, tree => tree
  | (field, entry) :: rest, entity, tree =>
    addFieldJoins schema rest entity
      (match schema.relation? entity field with
      | some relation => tree.insert field (entryJoins schema entry relation.target)
      | none => tree)
termination_by structural fields => fields

end

/-- The relations of an entity type that a filter reaches. -/
def joins (f : Filter) (schema : Schema) (entity : String) : JoinTree :=
  addJoins schema f entity .empty

end Filter

namespace Predicate

/-- Adds what a column reaches: the relations it lies behind, or, for a column of the entity itself
that is named after a relation, that relation. -/
def addColumnJoins (schema : Schema) (entity : String) (tree : JoinTree) (column : Column) :
    JoinTree :=
  match column.path with
  | [] =>
    if (schema.relation? entity column.field).isSome then tree.insert column.field .empty else tree
  | path => tree.insertPath path

/-- The relations of an entity type that a predicate reaches. -/
def joins (p : Predicate) (schema : Schema) (entity : String) : JoinTree :=
  p.columns.foldl (addColumnJoins schema entity) .empty

end Predicate

end EntityQuery
