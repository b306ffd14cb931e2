import EntityQuery.Json.Basic
import EntityQuery.Number.Binary64

/-!
# Conditions of SQL statements

Values, columns and the tests that a `WHERE` clause makes of them, before any dialect has a say in
their text. A condition joins tests by *all* and *any*; an *all* without children is true and an
*any* without children is false.
-/

namespace EntityQuery.Sql

/-- A value in a statement. Integers that fit 64 bits with a sign are kept apart from those that
only fit without one. -/
inductive Value
  | null
  | bool (value : Bool)
  | signed (value : Int)
  | unsigned (value : Int)
  | double (value : Binary64)
  | text (value : String)
  /-- an array or an object, stored as its JSON text -/
  | json (value : Json)
deriving Inhabited

/-- The value that a JSON value is bound as. -/
def Value.ofJson : Json → Value
  | .null => null
  | .bool b => bool b
  | .num (.int n) => if n < Nat.pow 2 63 then signed n else unsigned n
  | .num (.float x) => double x
  | .str s => text s
  | other => json other

/-- A column by name, of a joined table if it is not the statement's own. -/
structure ColumnName where
  table : Option String
  name : String
deriving DecidableEq, Inhabited

/-- The comparisons by sign. -/
inductive Sign
  | eq | ne | gt | gte | lt | lte
deriving DecidableEq, Inhabited

/-- A test of one column. -/
inductive Test
  | isNull (column : ColumnName)
  | isNotNull (column : ColumnName)
  | compare (column : ColumnName) (sign : Sign) (value : Value)
  /-- like a pattern; under `lowered` the column is put into lower case first -/
  | like (column : ColumnName) (lowered negated : Bool) (pattern : String)
  | oneOf (column : ColumnName) (negated : Bool) (values : List Value)
  /-- is this truth value -/
  | isBool (column : ColumnName) (negated : Bool) (value : Bool)
deriving Inhabited

/-- A condition on rows. -/
inductive Condition
  | test (test : Test)
  | all (children : List Condition)
  | any (children : List Condition)
deriving Inhabited

namespace Condition

/-- What a condition adds to a conjunction: its children when it is one itself. -/
def conjuncts : Condition → List Condition
  | all children => children
  | other => [other]

/-- Adds a condition to what a statement already asks for. The first is taken as it is. A
conjunction, which a single test counts as, takes up the conjuncts of what is added; a disjunction
and what is added to it become the two children of a conjunction. -/
def extend : Option Condition → Condition → Condition
  | none, added => added
  | some (all children), added => all (children ++ added.conjuncts)
  | some (test t), added => all (test t :: added.conjuncts)
  | some (any children), added => all [any children, added]

end Condition

end EntityQuery.Sql
