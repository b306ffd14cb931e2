import EntityQuery.Filter.Wire
import EntityQuery.Json.Shape
import EntityQuery.Query.Basic
import EntityQuery.Schema.Wire
import EntityQuery.Aggregate.Basic

/-!
# Queries as JSON

The records of queries, of their parts, and of aggregate requests and responses. What is absent is
not written: no bound of a window, no place for nulls, no empty list of an aggregate request and no
bucket that a response does not have.
-/

namespace EntityQuery

/-- What was read, or a misfit. -/
def ReadError.orMisfit {α : Type} : Option α → Except ReadError α
  | some value => .ok value
  | none => .error .misfit

/-! ## Sorting and paging -/

namespace SortDirection

/-- The name of a direction. -/
def name : SortDirection → String
  | ascending => "ASC"
  | descending => "DESC"

/-- The direction of a name, to the letter. -/
def ofName? (text : String) : Option SortDirection :=
  [ascending, descending].find? (·.name == text)

end SortDirection

namespace SortNulls

/-- The name of a place for nulls. -/
def name : SortNulls → String
  | first => "NULLS_FIRST"
  | last => "NULLS_LAST"

/-- The place of a name, to the letter. -/
def ofName? (text : String) : Option SortNulls := [first, last].find? (·.name == text)

end SortNulls

namespace SortField

/-- Reads the record of a sort key. -/
def ofJson? (value : Json) : Option SortField := do
  match ← Readable.fields? ["field", "direction", "nulls"] value with
  | [field, direction, nulls] =>
    return {
      field := ← Shape.required Readable.text? field
      direction := ← Shape.required (Shape.choice SortDirection.ofName?) direction
      nulls := ← Shape.optional (Shape.choice SortNulls.ofName?) nulls }
  | _ => none

/-- Writes the record of a sort key. -/
def toJson (key : SortField) : Json := .ofMembers <|
  [("field", .str key.field), ("direction", .str key.direction.name)]
    ++ (key.nulls.map fun place => ("nulls", Json.str place.name)).toList

end SortField

namespace Paging

/-- Reads the record of a window. -/
def ofJson? (value : Json) : Option Paging := do
  match ← Readable.fields? ["limit", "offset"] value with
  | [limit, offset] =>
    return {
      limit := ← Shape.optional Readable.word? limit
      offset := ← Shape.optional Readable.word? offset }
  | _ => none

/-- A bound under its key, if it is set. -/
def boundEntry (key : String) (n : Option Nat) : List (String × Json) :=
  (n.map fun n => (key, Json.int n)).toList

/-- Writes the record of a window. -/
def toJson (paging : Paging) : Json :=
  .ofMembers (boundEntry "limit" paging.limit ++ boundEntry "offset" paging.offset)

end Paging

/-! ## Queries -/

namespace Query

/-- The filter of a query's record. -/
def filterField? : Json → Option Json
  | .obj members => Dict.get? members "filter"
  | .arr items => items.head?
  | _ => none

/-- Reads the filter of a query's record; a missing one asks for nothing. -/
def readFilter (value : Json) : Except ReadError Filter :=
  match filterField? value with
  | some field => match Filter.ofJson field with
    | .ok filter => .ok filter
    | .error error => .error (.filter error)
  | none => .ok .empty

/-- Reads sorting and paging of a query's record. -/
def readWindow? (value : Json) : Option (List SortField × Paging) := do
  match ← Readable.fields? ["filter", "sorting", "paging"] value with
  | [_, sorting, paging] =>
    return (← Shape.withDefault [] (Shape.list SortField.ofJson?) sorting,
      ← Shape.withDefault {} Paging.ofJson? paging)
  | _ => none

/-- Reads the record of a query. The filter is read before all else, so its error is the one
reported. -/
def ofJson (value : Json) : Except ReadError Query := do
  let filter ← readFilter value
  let (sorting, paging) ← ReadError.orMisfit (readWindow? value)
  return { filter, sorting, paging }

/-- Writes the record of a query. -/
def toJson (q : Query) : Json := .ofMembers [
  ("filter", q.filter.toJson),
  ("sorting", .arr (q.sorting.map SortField.toJson)),
  ("paging", q.paging.toJson)]

end Query

/-! ## Aggregates -/

namespace AggregateQuery

/-- Reads the record of an aggregate request. -/
def ofJson? (value : Json) : Option AggregateQuery := do
  match ← Readable.fields? ["groupBy", "count", "sum", "avg", "max", "min"] value with
  | [groupBy, count, sum, avg, max, min] =>
    return {
      groupBy := ← Shape.withDefault [] Shape.texts groupBy
      count := ← Shape.withDefault [] Shape.texts count
      sum := ← Shape.withDefault [] Shape.texts sum
      avg := ← Shape.withDefault [] Shape.texts avg
      max := ← Shape.withDefault [] Shape.texts max
      min := ← Shape.withDefault [] Shape.texts min }
  | _ => none

/-- A list under its key, unless it is empty. -/
def listEntry (key : String) (fields : List String) : List (String × Json) :=
  if fields.isEmpty then [] else [(key, .ofTexts fields)]

/-- Writes the record of an aggregate request. -/
def toJson (q : AggregateQuery) : Json := .ofMembers <|
  listEntry "groupBy" q.groupBy
    ++ AggregateFunction.functions.flatMap fun f => listEntry f.key (q.fields f)

end AggregateQuery

namespace AggregateResponse

/-- Reads a bucket. -/
def readBucket? (value : Json) : Option (Dict Json) := Shape.dict some value

/-- Reads the record of an aggregate response. -/
def ofJson? (value : Json) : Option AggregateResponse := do
  match ← Readable.fields? ["groupBy", "count", "sum", "avg", "max", "min"] value with
  | [groupBy, count, sum, avg, max, min] =>
    return {
      groupBy := ← Shape.optional readBucket? groupBy
      count := ← Shape.optional readBucket? count
      sum := ← Shape.optional readBucket? sum
      avg := ← Shape.optional readBucket? avg
      max := ← Shape.optional readBucket? max
      min := ← Shape.optional readBucket? min }
  | _ => none

/-- A bucket under its key, if there is one. -/
def bucketEntry (key : String) (bucket : Option (Dict Json)) : List (String × Json) :=
  (bucket.map fun entries => (key, Json.obj entries)).toList

/-- Writes the record of an aggregate response. -/
def toJson (r : AggregateResponse) : Json := .ofMembers <|
  bucketEntry "groupBy" r.groupBy
    ++ AggregateFunction.functions.flatMap fun f => bucketEntry f.key (r.bucket f)

end AggregateResponse

end EntityQuery
