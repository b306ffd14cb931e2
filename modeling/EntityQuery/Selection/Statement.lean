import EntityQuery.Predicate.Lowering
import EntityQuery.Selection.Basic
import EntityQuery.Sql.Statement
import EntityQuery.Text.Dotted

/-!
# Statements of selections

A selection becomes a statement on the table of its entity type. Properties are written under their
column names; behind relations they are found by following the declarations from the entity type,
and qualified by the innermost relation.
-/

namespace EntityQuery

/-- The column that a text with dots names: the relations that lead there, and the property. -/
def Column.ofDotted (text : String) : Column :=
  let parts := Text.dotted text
  ⟨parts.dropLast, parts.getLastD ""⟩

/-- The names of columns as they are seen from an entity type. -/
def Schema.columns (schema : Schema) (entity : String) : Naming :=
  fun column => ⟨column.qualifier, schema.naming entity column.path column.field⟩

/-- Asks for a predicate, unless it always holds. -/
def Sql.Statement.restrictBy (s : Sql.Statement) (p : Predicate) (naming : Naming) :
    Sql.Statement :=
  if p.isAlways then s else s.restrict (p.lower naming)

/-- The key of an order that a sort key comes to. -/
def SortField.orderKey (key : SortField) (naming : Naming) : Sql.OrderKey where
  column := naming (.ofDotted key.field)
  descending := key.direction == .descending
  nulls := key.nulls.map fun
    | .first => .first
    | .last => .last

/-- Orders by further keys. -/
def Sql.Statement.orderFurther (s : Sql.Statement) (keys : List SortField) (naming : Naming) :
    Sql.Statement :=
  { s with orderBy := s.orderBy ++ keys.map (·.orderKey naming) }

/-- The empty statement on the table of an entity type. -/
def Schema.tableStatement (schema : Schema) (entity : String) : Sql.Statement :=
  { table := schema.tableName entity }

namespace Selection

/-- Adds condition, order and window to a statement; a window that is not set stays as it was. -/
def applyTo (s : Selection) (schema : Schema) (base : Sql.Statement) : Sql.Statement :=
  let naming := schema.columns s.entity
  let ordered := (base.restrictBy s.predicate naming).orderFurther s.sorting naming
  { ordered with
    limit := s.limit <|> ordered.limit
    offset := if 0 < s.offset then some s.offset else ordered.offset }

/-- The statement that selects the rows. -/
def statement (s : Selection) (schema : Schema) : Sql.Statement :=
  s.applyTo schema ((schema.tableStatement s.entity).select .everything)

end Selection

/-- The statement that counts the rows. -/
def CountSelection.statement (s : CountSelection) (schema : Schema) : Sql.Statement :=
  ((schema.tableStatement s.entity).select .countRows (some "count")).restrictBy s.predicate
    (schema.columns s.entity)

/-- What is selected for a column of an aggregate result. -/
def AggregateColumn.selected (column : AggregateColumn) (naming : Naming) : Sql.Selected where
  expression := match column with
    | .group field => .column (naming (.ofDotted field))
    | .apply function field => .apply function.name (naming (.ofDotted field))
  label := some column.name

/-- The statement that computes the aggregates. -/
def AggregateSelection.statement (s : AggregateSelection) (schema : Schema) : Sql.Statement :=
  let naming := schema.columns s.entity
  let selected := { schema.tableStatement s.entity with
    selected := s.columns.map fun column : AggregateColumn => column.selected naming }
  let grouped := { selected.restrictBy s.predicate naming with
    groupBy := s.groupBy.map fun field => naming (.ofDotted field) }
  grouped.orderFurther s.sorting naming

end EntityQuery
