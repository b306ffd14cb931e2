import EntityQuery.Filter.Basic

/-!
# Queries

A query asks for entities: which ones, in which order, and which window of them.
-/

namespace EntityQuery

/-- The direction of a sort. -/
inductive SortDirection
  | ascending
  | descending
deriving DecidableEq, Inhabited, Repr

/-- The place of nulls in a sort. -/
inductive SortNulls
  | first
  | last
deriving DecidableEq, Inhabited, Repr

/-- One key of a sort. A property behind relations is written after them, in dots. -/
structure SortField where
  field : String
  direction : SortDirection := .ascending
  nulls : Option SortNulls := none
deriving DecidableEq, Inhabited, Repr

/-- A window on the rows; either bound may be left open. -/
structure Paging where
  limit : Option Nat := none
  offset : Option Nat := none
deriving DecidableEq, Inhabited, Repr

/-- A request for entities. -/
structure Query where
  filter : Filter := .empty
  sorting : List SortField := []
  paging : Paging := {}
deriving Inhabited

namespace Query

/-- Sorts by one more key. -/
def addSort (q : Query) (key : SortField) : Query := { q with sorting := q.sorting ++ [key] }

/-- Asks for at most so many rows. -/
def withLimit (q : Query) (n : Nat) : Query :=
  { q with paging := { q.paging with limit := some n } }

/-- Passes over so many rows. -/
def withOffset (q : Query) (n : Nat) : Query :=
  { q with paging := { q.paging with offset := some n } }

/-- Equality of queries, with operands compared as values. -/
def same (q r : Query) : Bool :=
  q.filter.same r.filter && q.sorting == r.sorting && q.paging == r.paging

end Query

end EntityQuery
