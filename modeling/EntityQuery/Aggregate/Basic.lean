import EntityQuery.Json.Basic
import EntityQuery.Text.Ascii

/-!
# Aggregate requests and responses

A request lists the fields to group by and the fields for each aggregate function. A response holds
the values of one row of the result, one bucket for the groups and one for each function.
-/

namespace EntityQuery

/-- An aggregate function. -/
inductive AggregateFunction
  | count
  | sum
  | avg
  | max
  | min
deriving DecidableEq, Inhabited, Repr

namespace AggregateFunction

/-- All functions, in the order in which their columns are selected. -/
def functions : List AggregateFunction := [count, sum, avg, max, min]

/-- The name of a function in statements and in the names of its columns. -/
def name : AggregateFunction → String
  | count => "COUNT"
  | sum => "SUM"
  | avg => "AVG"
  | max => "MAX"
  | min => "MIN"

/-- The name of a function in requests and responses. -/
def key : AggregateFunction → String
  | count => "count"
  | sum => "sum"
  | avg => "avg"
  | max => "max"
  | min => "min"

/-- The function of a name in any case. -/
def ofName? (text : String) : Option AggregateFunction :=
  functions.find? fun f => Text.sameAscii f.name text

end AggregateFunction

/-- The fields of an aggregate request. -/
structure AggregateQuery where
  groupBy : List String := []
  count : List String := []
  sum : List String := []
  avg : List String := []
  max : List String := []
  min : List String := []
deriving DecidableEq, Inhabited, Repr

namespace AggregateQuery

/-- The fields that a function is asked for. -/
def fields (q : AggregateQuery) : AggregateFunction → List String
  | .count => q.count
  | .sum => q.sum
  | .avg => q.avg
  | .max => q.max
  | .min => q.min

/-- Whether nothing is asked for. -/
def isEmpty (q : AggregateQuery) : Bool :=
  q.groupBy.isEmpty && AggregateFunction.functions.all fun f => (q.fields f).isEmpty

/-- Groups by one more field. -/
def addGroup (q : AggregateQuery) (field : String) : AggregateQuery :=
  { q with groupBy := q.groupBy ++ [field] }

/-- Asks for a function of one more field. -/
def add (q : AggregateQuery) (function : AggregateFunction) (field : String) : AggregateQuery :=
  match function with
  | .count => { q with count := q.count ++ [field] }
  | .sum => { q with sum := q.sum ++ [field] }
  | .avg => { q with avg := q.avg ++ [field] }
  | .max => { q with max := q.max ++ [field] }
  | .min => { q with min := q.min ++ [field] }

end AggregateQuery

/-- The values of one row of an aggregate result. A bucket without columns is absent. -/
structure AggregateResponse where
  groupBy : Option (Dict Json) := none
  count : Option (Dict Json) := none
  sum : Option (Dict Json) := none
  avg : Option (Dict Json) := none
  max : Option (Dict Json) := none
  min : Option (Dict Json) := none
deriving Inhabited

namespace AggregateResponse

/-- The bucket of a function. -/
def bucket (r : AggregateResponse) : AggregateFunction → Option (Dict Json)
  | .count => r.count
  | .sum => r.sum
  | .avg => r.avg
  | .max => r.max
  | .min => r.min

/-- A bucket with one more value, made if need be. -/
def fill (bucket : Option (Dict Json)) (field : String) (value : Json) : Option (Dict Json) :=
  some (Dict.insert (bucket.getD []) field value)

/-- Notes the value of a group. -/
def putGroup (r : AggregateResponse) (field : String) (value : Json) : AggregateResponse :=
  { r with groupBy := fill r.groupBy field value }

/-- Notes the value of a function of a field. -/
def put (r : AggregateResponse) (function : AggregateFunction) (field : String) (value : Json) :
    AggregateResponse :=
  match function with
  | .count => { r with count := fill r.count field value }
  | .sum => { r with sum := fill r.sum field value }
  | .avg => { r with avg := fill r.avg field value }
  | .max => { r with max := fill r.max field value }
  | .min => { r with min := fill r.min field value }

end AggregateResponse

end EntityQuery
