import EntityQuery.Sql.Condition

/-!
# Select statements

What a statement selects, from which table, under which condition, and how its rows are grouped,
ordered and cut; no dialect yet.
-/

namespace EntityQuery.Sql

/-- What a statement selects for one column of its result. -/
inductive Expression
  /-- all columns of the table -/
  | everything
  | column (column : ColumnName)
  /-- a function of a column -/
  | apply (function : String) (column : ColumnName)
  /-- the number of rows -/
  | countRows
deriving Inhabited

/-- A selected expression, and the name it is selected under. -/
structure Selected where
  expression : Expression
  label : Option String := none
deriving Inhabited

/-- Where nulls go in an order. -/
inductive NullsPlace
  | first
  | last
deriving DecidableEq, Inhabited

/-- One key of an order. -/
structure OrderKey where
  column : ColumnName
  descending : Bool
  nulls : Option NullsPlace
deriving Inhabited

/-- A select statement. -/
structure Statement where
  table : String
  selected : List Selected := []
  condition : Option Condition := none
  groupBy : List ColumnName := []
  orderBy : List OrderKey := []
  limit : Option Nat := none
  offset : Option Nat := none
deriving Inhabited

namespace Statement

/-- Selects one more expression. -/
def select (s : Statement) (expression : Expression) (label : Option String := none) : Statement :=
  { s with selected := s.selected ++ [⟨expression, label⟩] }

/-- Asks in addition for a condition. -/
def restrict (s : Statement) (condition : Condition) : Statement :=
  { s with condition := some (Condition.extend s.condition condition) }

end Statement

end EntityQuery.Sql
