import EntityQuery.Aggregate.Column
import EntityQuery.Filter.Compile
import EntityQuery.Query.Basic
import EntityQuery.Relation.Joins

/-!
# Selections

A selection is a query made ready for a store: its filter compiled, its window settled, and the
relations that have to be joined for it. Further predicates may be added to one; each brings the
relations that it reaches.
-/

namespace EntityQuery

/-- The rows that a query asks for. -/
structure Selection where
  entity : String
  predicate : Predicate
  sorting : List SortField
  limit : Option Nat
  offset : Nat
  relations : JoinTree
deriving Inhabited

/-- The number of rows that a filter asks for. -/
structure CountSelection where
  entity : String
  predicate : Predicate
  relations : JoinTree
deriving Inhabited

/-- The aggregates of the rows that a filter asks for, ordered by their groups. -/
structure AggregateSelection where
  entity : String
  predicate : Predicate
  columns : List AggregateColumn
  groupBy : List String
  sorting : List SortField
  relations : JoinTree
deriving Inhabited

/-- The selection of a query for an entity type. Without a limit it has no end, and without an
offset it starts at the first row. -/
def Query.select (q : Query) (schema : Schema) (entity : String) : Answer Selection := do
  let predicate ← q.filter.compile
  return {
    entity, predicate
    sorting := q.sorting
    limit := q.paging.limit
    offset := q.paging.offset.getD 0
    relations := q.filter.joins schema entity }

/-- The selection that counts what a filter asks for. -/
def Filter.count (f : Filter) (schema : Schema) (entity : String) : Answer CountSelection := do
  let predicate ← f.compile
  return { entity, predicate, relations := f.joins schema entity }

/-- The selection of aggregates over what a filter asks for. A request for nothing is refused before
the filter is looked at. -/
def AggregateQuery.select (q : AggregateQuery) (schema : Schema) (entity : String) (f : Filter) :
    Answer AggregateSelection := do
  if q.isEmpty then .error .noAggregateFields
  else
    let predicate ← f.compile
    return {
      entity, predicate
      columns := q.columns
      groupBy := q.groupBy
      sorting := q.groupBy.map fun field => { field }
      relations := f.joins schema entity }

/-- Asks in addition for a predicate, and joins what it reaches. -/
def Selection.restrict (s : Selection) (schema : Schema) (extra : Predicate) : Selection :=
  { s with
    predicate := s.predicate.and extra
    relations := s.relations.merge (extra.joins schema s.entity) }

/-- Asks in addition for a predicate, and joins what it reaches. -/
def AggregateSelection.restrict (s : AggregateSelection) (schema : Schema) (extra : Predicate) :
    AggregateSelection :=
  { s with
    predicate := s.predicate.and extra
    relations := s.relations.merge (extra.joins schema s.entity) }

/-- The names of the result's columns, in order. -/
def AggregateSelection.names (s : AggregateSelection) : List String := s.columns.map (·.name)

end EntityQuery
