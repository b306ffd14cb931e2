import EntityQuery.Json.Text
import EntityQuery.Predicate.Basic
import EntityQuery.Sql.Condition
import EntityQuery.Text.LowerCase

/-!
# From predicates to SQL conditions

Every comparison becomes one SQL test on the column's name. Equality with `null` asks whether the
column is null, and a comparison but for case puts the column and the pattern into lower case.
-/

namespace EntityQuery

/-- The names under which columns are found in the store. -/
abbrev Naming := Column → Sql.ColumnName

/-- Properties by their own names, behind the name of the innermost relation. -/
def Naming.plain : Naming := fun column => ⟨column.qualifier, column.field⟩

namespace Predicate

/-- The values of a list operand; any other operand is a list of one. -/
def listValues : Json → List Sql.Value
  | .arr items => items.map .ofJson
  | other => [.ofJson other]

/-- The test of a column that a comparison with a value comes to. -/
def lowerLeaf (column : Sql.ColumnName) (op : Comparator) (value : Json) : Sql.Test :=
  match op with
  | .eq => if value.isNull then .isNull column else .compare column .eq (.ofJson value)
  | .ne => if value.isNull then .isNotNull column else .compare column .ne (.ofJson value)
  | .gt => .compare column .gt (.ofJson value)
  | .gte => .compare column .gte (.ofJson value)
  | .lt => .compare column .lt (.ofJson value)
  | .lte => .compare column .lte (.ofJson value)
  | .like => .like column false false value.plainText
  | .notLike => .like column false true value.plainText
  | .iLike => .like column true false (Text.lower value.plainText)
  | .notILike => .like column true true (Text.lower value.plainText)
  | .oneOf => .oneOf column false (listValues value)
  | .noneOf => .oneOf column true (listValues value)
  | .is => match value with
    | .bool b => .isBool column false b
    | _ => .isNull column
  | .isNot => match value with
    | .bool b => .isBool column true b
    | _ => .isNotNull column

mutual

/-- The condition of a predicate under a naming of its columns. -/
def lower (naming : Naming) : Predicate → Sql.Condition
  | always => .all []
  | all children => .all (lowerList naming children)
  | any children => .any (lowerList naming children)
  | compare column op value => .test (lowerLeaf (naming column) op value)
termination_by structural predicate => predicate

/-- The conditions of several predicates. -/
def lowerList (naming : Naming) : List Predicate → List Sql.Condition
  | [] => []
  | p :: ps => p.lower naming :: lowerList naming ps
termination_by structural predicates => predicates

end

end Predicate

end EntityQuery
