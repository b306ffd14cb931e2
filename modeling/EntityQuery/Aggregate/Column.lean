import EntityQuery.Aggregate.Basic
import EntityQuery.Error

/-!
# Columns of aggregate results

The column for a function of a field is named by the function, an underscore and the field; that of
a group by `GROUP_BY`, an underscore and the field. Reading such a name back, in any case of its
first part, gives the column again, so that the rows of a result answer the request they came from.
-/

namespace EntityQuery

/-- A column of an aggregate result. -/
inductive AggregateColumn
  | group (field : String)
  | apply (function : AggregateFunction) (field : String)
deriving DecidableEq, Inhabited, Repr

namespace AggregateColumn

/-- The field that the column is about. -/
def field : AggregateColumn → String
  | group field => field
  | apply _ field => field

/-- The first part of the names of group columns. -/
def groupName : String := "GROUP_BY"

/-- The name that the column is selected under. -/
def name : AggregateColumn → String
  | group field => groupName ++ "_" ++ field
  | apply function field => function.name ++ "_" ++ field

/-- What follows the first part of a name and the underscore, if the name begins so in any case. -/
def afterPart? (part : String) (name : List Char) : Option String :=
  let size := part.toList.length
  if Text.lowerAscii (name.take size) == Text.lowerAscii part.toList then
    match name.drop size with
    | '_' :: field => some (String.ofList field)
    | _ => none
  else none

/-- The column of a function by its name. -/
def applied? (name : List Char) (function : AggregateFunction) : Option AggregateColumn :=
  (afterPart? function.name name).map (apply function)

/-- The column of a name, if it has one of the known first parts. No first part and underscore
begins another, so at most one of them fits. -/
def ofName? (name : String) : Option AggregateColumn :=
  let cs := name.toList
  match afterPart? groupName cs with
  | some field => some (group field)
  | none => AggregateFunction.functions.findSome? (applied? cs)

/-- The column of a name, or the complaint that it is none. -/
def named (name : String) : Answer AggregateColumn :=
  match ofName? name with
  | some column => .ok column
  | none => .error (.unknownAggregate name)

end AggregateColumn

/-- The columns of a request: groups first, then function by function, the fields of each in the
order of the request. -/
def AggregateQuery.columns (q : AggregateQuery) : List AggregateColumn :=
  q.groupBy.map .group
    ++ AggregateFunction.functions.flatMap fun f => (q.fields f).map (.apply f)

namespace AggregateResponse

/-- Notes the value of a column. -/
def putColumn (r : AggregateResponse) (column : AggregateColumn) (value : Json) :
    AggregateResponse :=
  match column with
  | .group field => r.putGroup field value
  | .apply function field => r.put function field value

/-- Notes the values of named columns one after the other. -/
def putAll (r : AggregateResponse) : List (String × Json) → Answer AggregateResponse
  | [] => .ok r
  | (name, value) :: rest => do
    let column ← AggregateColumn.named name
    (r.putColumn column value).putAll rest

/-- The response that a row of a result gives. -/
def ofRow (row : Dict Json) : Answer AggregateResponse := putAll {} row

/-- The responses that rows give, in order. -/
def ofRows (rows : List (Dict Json)) : Answer (List AggregateResponse) := rows.mapM ofRow

end AggregateResponse

end EntityQuery
