import EntityQuery.Filter.Basic
import EntityQuery.Filter.Operator

/-!
# From filters to predicates

A filter compiles to the conjunction of its *all* list, the disjunction of its *any* list, and its
entries, in that order. Comparisons become leaves on the column that the relations entered so far
lead to. The first comparison in that order that is not accepted is the answer's error.
-/

namespace EntityQuery.Filter

/-- The conjunction of comparisons on one column. -/
def compileComparisons (column : Column) (list : List Comparison) : Answer Predicate := do
  let parts ← list.mapM fun c => do
    let fragment ← Fragment.ofComparison c.operator c.operand
    return fragment.bind column
  return .allOf parts

mutual

/-- The predicate of a filter on the entities that a path of relations leads to. -/
def compileAt : Filter → List String → Answer Predicate
  | node all any fields, path => do
    let all ← compileList all path
    let any ← compileList any path
    let entries ← compileFields fields path
    return .allOf (.allOf all :: .anyOf any :: entries)
termination_by structural filter => filter

/-- The predicates of several filters, in order. -/
def compileList : List Filter → List String → Answer (List Predicate)
  | [], _ => .ok []
  | f :: fs, path => do
    let p ← compileAt f path
    let ps ← compileList fs path
    return p :: ps
termination_by structural filters => filters

/-- The predicate of an entry. -/
def compileEntry : FieldFilter → List String → String → Answer Predicate
  | .comparisons list, path, field => compileComparisons ⟨path, field⟩ list
  | .relation f, path, field => compileAt f (path ++ [field])
termination_by structural entry => entry

/-- The predicates of entries, in order. -/
def compileFields : List (String × FieldFilter) → List String → Answer (List Predicate)
  | [], _ => .ok []
  | (field, entry) :: rest, path => do
    let p ← compileEntry entry path field
    let ps ← compileFields rest path
    return p :: ps
termination_by structural fields => fields

end

/-- The predicate of a filter on root entities. -/
def compile (f : Filter) : Answer Predicate := f.compileAt []

end EntityQuery.Filter
