import EntityQuery.Predicate.Lemmas
import EntityQuery.Selection.Statement

/-!
# The columns that a statement mentions

A statement mentions columns where it selects, in its condition, and where it groups and orders rows
(`Sql.Statement.columns`). The condition of a predicate mentions the columns that the predicate
compares, in order and under their names in the store (`Predicate.columns_lower`); the statement of
a selection mentions beside them those that its sort keys name, and that of aggregates the fields
that are grouped by and aggregated.
-/

namespace EntityQuery

/-! ## Columns of statements -/

namespace Sql

/-- The column that a test is about. -/
def Test.column : Test → ColumnName
  | .isNull name => name
  | .isNotNull name => name
  | .compare name _ _ => name
  | .like name _ _ _ => name
  | .oneOf name _ _ => name
  | .isBool name _ _ => name

mutual

/-- The columns that a condition tests, in order. -/
def Condition.columns : Condition → List ColumnName
  | .test test => [test.column]
  | .all children => columnsOf children
  | .any children => columnsOf children
termination_by structural condition => condition

/-- The columns that several conditions test, in order. -/
def columnsOf : List Condition → List ColumnName
  | [] => []
  | condition :: conditions => condition.columns ++ columnsOf conditions
termination_by structural conditions => conditions

end

/-- The column that an expression is about, if there is one. -/
def Expression.columns : Expression → List ColumnName
  | .everything => []
  | .column name => [name]
  | .apply _ name => [name]
  | .countRows => []

/-- The columns that a statement mentions: selected, tested, grouped by, ordered by. -/
def Statement.columns (s : Statement) : List ColumnName :=
  s.selected.flatMap (·.expression.columns) ++ s.condition.elim [] (·.columns) ++ s.groupBy ++
    s.orderBy.map (·.column)

end Sql

/-! ## Columns of conditions -/

namespace Predicate

theorem column_lowerLeaf (name : Sql.ColumnName) (op : Comparator) (value : Json) :
    (lowerLeaf name op value).column = name := by
  cases op with
  | eq =>
    rw [lowerLeaf]
    split <;> rfl
  | ne =>
    rw [lowerLeaf]
    split <;> rfl
  | is => cases value <;> rfl
  | isNot => cases value <;> rfl
  | _ => rfl

mutual

/-- The condition of a predicate tests the columns of the predicate. -/
theorem columns_lower (naming : Naming) :
    ∀ p : Predicate, (p.lower naming).columns = p.columns.map naming
  | always => rfl
  | compare column op value => congrArg ([·]) (column_lowerLeaf (naming column) op value)
  | all children => columnsOf_lowerList naming children
  | any children => columnsOf_lowerList naming children

theorem columnsOf_lowerList (naming : Naming) : ∀ ps : List Predicate,
    Sql.columnsOf (lowerList naming ps) = ((leavesOf ps).map (·.column)).map naming
  | [] => rfl
  | p :: ps => by
    rw [lowerList, Sql.columnsOf, columns_lower naming p, columnsOf_lowerList naming ps, leavesOf,
      List.map_append, List.map_append]
    rfl

end

end Predicate

/-! ## Columns of statements put together -/

namespace Sql.Statement

variable {base : Statement}

theorem columns_restrictBy (hbase : base.condition = none) (p : Predicate) (naming : Naming) :
    (base.restrictBy p naming).columns = base.selected.flatMap (·.expression.columns) ++
      p.columns.map naming ++ base.groupBy ++ base.orderBy.map (·.column) := by
  rw [restrictBy]
  split
  · next halways =>
    rw [columns, hbase, Predicate.isAlways_iff.1 halways]
    rfl
  · rw [columns, restrict, hbase, ← p.columns_lower naming]
    rfl

/-- The condition does not depend on how the rows are grouped. -/
theorem restrictBy_groupBy (p : Predicate) (naming : Naming) (groupBy : List ColumnName) :
    { base.restrictBy p naming with groupBy } = { base with groupBy }.restrictBy p naming := by
  rw [restrictBy, restrictBy]
  split <;> rfl

theorem columns_orderFurther (keys : List SortField) (naming : Naming) :
    (base.orderFurther keys naming).columns =
      base.columns ++ (keys.map fun key => .ofDotted key.field).map naming := by
  simp [columns, orderFurther, SortField.orderKey]

end Sql.Statement

/-! ## Columns of selections -/

/-- The columns that a selection names: those of its predicate, and of its sort keys. -/
def Selection.mentioned (s : Selection) : List Column :=
  s.predicate.columns ++ s.sorting.map fun key => .ofDotted key.field

/-- The columns that a selection of aggregates names: the fields that are selected, those of its
predicate, the fields grouped by, and those of its sort keys. -/
def AggregateSelection.mentioned (s : AggregateSelection) : List Column :=
  (s.columns.map fun column => .ofDotted column.field) ++ s.predicate.columns ++
    s.groupBy.map .ofDotted ++ s.sorting.map fun key => .ofDotted key.field

/-- The statement of a selection mentions what the selection names, and nothing else. -/
theorem Selection.columns_statement (s : Selection) (schema : Schema) :
    (s.statement schema).columns = s.mentioned.map (schema.columns s.entity) := by
  let base := (schema.tableStatement s.entity).select .everything
  have hcolumns : (s.statement schema).columns = ((base.restrictBy s.predicate
      (schema.columns s.entity)).orderFurther s.sorting (schema.columns s.entity)).columns := rfl
  rw [hcolumns, Sql.Statement.columns_orderFurther, Sql.Statement.columns_restrictBy rfl, mentioned,
    List.map_append]
  simp [base, Schema.tableStatement, Sql.Statement.select, Sql.Expression.columns]

theorem AggregateColumn.columns_selected (column : AggregateColumn) (naming : Naming) :
    (column.selected naming).expression.columns = [naming (.ofDotted column.field)] := by
  cases column <;> rfl

/-- The statement of aggregates mentions what the selection names, and nothing else. -/
theorem AggregateSelection.columns_statement (s : AggregateSelection) (schema : Schema) :
    (s.statement schema).columns = s.mentioned.map (schema.columns s.entity) := by
  rw [statement, Sql.Statement.columns_orderFurther, Sql.Statement.restrictBy_groupBy,
    Sql.Statement.columns_restrictBy rfl, mentioned]
  simp [Schema.tableStatement, List.flatMap_map, AggregateColumn.columns_selected,
    ← List.map_eq_flatMap, Function.comp_def]

end EntityQuery
