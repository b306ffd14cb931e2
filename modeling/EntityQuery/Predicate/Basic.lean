import EntityQuery.Json.Basic

/-!
# Predicates

A predicate is the compiled form of a filter: comparisons of columns with JSON values, joined by
*all* and *any*. The constructors `allOf` and `anyOf` simplify as they build, so that predicates
built by them alone are in normal form (`Predicate.Normal`): either `always`, or free of `always`
and with at least two children under every *all* and *any*.
-/

namespace EntityQuery

/-- A column: the property of an entity, behind the relations that lead to it from the root. -/
structure Column where
  /-- relation names, outermost first -/
  path : List String
  field : String
deriving DecidableEq, Inhabited, Repr

namespace Column

/-- A column of the root entity. -/
def ofField (field : String) : Column := ⟨[], field⟩

/-- A column behind one relation. -/
def behind (relation field : String) : Column := ⟨[relation], field⟩

/-- The innermost relation, under whose name the related table is joined. -/
def qualifier (column : Column) : Option String := column.path.getLast?

/-- The column in words: its property, after the innermost relation if there is one. -/
def label (column : Column) : String :=
  match column.qualifier with
  | some relation => relation ++ "." ++ column.field
  | none => column.field

end Column

/-- How a column is compared with a value. -/
inductive Comparator
  | eq | ne | gt | gte | lt | lte
  | like | notLike | iLike | notILike
  | oneOf | noneOf
  | is | isNot
deriving DecidableEq, Inhabited, Repr

/-- A condition on one row and the rows related to it. -/
inductive Predicate
  /-- holds of every row -/
  | always
  /-- every child holds -/
  | all (children : List Predicate)
  /-- some child holds -/
  | any (children : List Predicate)
  | compare (column : Column) (op : Comparator) (value : Json)
deriving Inhabited

namespace Predicate

/-- Whether the predicate is the one that always holds. -/
def isAlways : Predicate → Bool
  | always => true
  | _ => false

/-- Conjunction: children that always hold are dropped, and a single child stands for itself. -/
def allOf (children : List Predicate) : Predicate :=
  match children.filter (!·.isAlways) with
  | [] => always
  | [child] => child
  | kept => all kept

/-- Disjunction: a child that always holds makes the whole hold, a single child stands for itself,
and no children are no restriction. -/
def anyOf (children : List Predicate) : Predicate :=
  if children.any isAlways then always
  else match children with
    | [] => always
    | [child] => child
    | kept => any kept

/-- Conjunction of two. -/
def and (p q : Predicate) : Predicate := allOf [p, q]

/-! ## Leaves -/

/-- A comparison inside a predicate. -/
structure Leaf where
  column : Column
  op : Comparator
  value : Json
deriving Inhabited

mutual

/-- The comparisons of a predicate, in order. -/
def leaves : Predicate → List Leaf
  | always => []
  | all children => leavesOf children
  | any children => leavesOf children
  | compare column op value => [⟨column, op, value⟩]
termination_by structural predicate => predicate

/-- The comparisons of several predicates, in order. -/
def leavesOf : List Predicate → List Leaf
  | [] => []
  | p :: ps => p.leaves ++ leavesOf ps
termination_by structural predicates => predicates

end

/-- The columns that a predicate compares, in order. -/
def columns (p : Predicate) : List Column := p.leaves.map (·.column)

/-! ## Truth -/

mutual

/-- Whether a predicate holds when each comparison has the truth that `truth` gives it. -/
def Holds (truth : Leaf → Prop) : Predicate → Prop
  | always => True
  | all children => AllHold truth children
  | any children => SomeHolds truth children
  | compare column op value => truth ⟨column, op, value⟩
termination_by structural predicate => predicate

/-- Every one of the predicates holds. -/
def AllHold (truth : Leaf → Prop) : List Predicate → Prop
  | [] => True
  | p :: ps => Holds truth p ∧ AllHold truth ps
termination_by structural predicates => predicates

/-- Some of the predicates holds. -/
def SomeHolds (truth : Leaf → Prop) : List Predicate → Prop
  | [] => False
  | p :: ps => Holds truth p ∨ SomeHolds truth ps
termination_by structural predicates => predicates

end

/-! ## Normal form -/

mutual

/-- Free of `always`, with at least two children wherever there are children. -/
def Proper : Predicate → Prop
  | always => False
  | all children => 2 ≤ children.length ∧ AllProper children
  | any children => 2 ≤ children.length ∧ AllProper children
  | compare _ _ _ => True
termination_by structural predicate => predicate

/-- Every one of the predicates is proper. -/
def AllProper : List Predicate → Prop
  | [] => True
  | p :: ps => Proper p ∧ AllProper ps
termination_by structural predicates => predicates

end

/-- What simplification leaves: `always`, or a predicate with nothing left to simplify. -/
def Normal (p : Predicate) : Prop := p = always ∨ p.Proper

/-! ## Equality -/

mutual

/-- Equality of structure, with values compared as values. -/
def same : Predicate → Predicate → Bool
  | always, always => true
  | all ps, all qs => sameList ps qs
  | any ps, any qs => sameList ps qs
  | compare c o v, compare d r w => c == d && o == r && v.same w
  | _, _ => false
termination_by structural predicate => predicate

/-- Equality of structure, child by child. -/
def sameList : List Predicate → List Predicate → Bool
  | [], [] => true
  | p :: ps, q :: qs => same p q && sameList ps qs
  | _, _ => false
termination_by structural predicates => predicates

end

instance : BEq Predicate := ⟨same⟩

end Predicate

end EntityQuery
