import EntityQuery.Dict

/-!
# Trees of relation names

The relations that a query reaches, to be joined for it: names at the root, and below each name the
relations reached through it. A tree is the set of its paths: a path is in it (`JoinTree.Has`) when
its names lead from the root downwards. Trees made by the operations here keep the names of each
node in order (`JoinTree.Ordered`), so equal sets of paths are equal trees.
-/

namespace EntityQuery

/-- Relation names, each with the tree of those reached through it. -/
inductive JoinTree
  | node (children : List (String × JoinTree))
deriving Inhabited

namespace JoinTree

/-- The names at the root with their trees. -/
def children : JoinTree → Dict JoinTree
  | node children => children

/-- The tree without names. -/
def empty : JoinTree := node []

/-- Whether the tree has no names. -/
def isEmpty (t : JoinTree) : Bool := t.children.isEmpty

/-- The number of names at the root. -/
def size (t : JoinTree) : Nat := t.children.length

/-- The tree below a name at the root. -/
def get? (t : JoinTree) (name : String) : Option JoinTree := Dict.get? t.children name

/-- Whether a name is at the root. -/
def contains (t : JoinTree) (name : String) : Bool := Dict.contains t.children name

/-- The names at the root, in order. -/
def names (t : JoinTree) : List String := Dict.keys t.children

/-! ## Union -/

mutual

/-- The union of two trees. -/
def merge : JoinTree → JoinTree → JoinTree
  | a, node bs => node (mergeInto a.children bs)
termination_by structural _ b => b

/-- Adds names with their trees to those of a node. -/
def mergeInto : Dict JoinTree → List (String × JoinTree) → Dict JoinTree
  | as, [] => as
  | as, (name, b) :: rest =>
    mergeInto (Dict.alter name (fun found => merge (found.getD empty) b) as) rest
termination_by structural _ bs => bs

end

/-- Adds a name and the tree below it. -/
def insert (t : JoinTree) (name : String) (below : JoinTree) : JoinTree :=
  node (mergeInto t.children [(name, below)])

/-- The tree of a single path. -/
def ofPath : List String → JoinTree
  | [] => empty
  | name :: rest => node [(name, ofPath rest)]

/-- Adds a path from the root. -/
def insertPath (t : JoinTree) : List String → JoinTree
  | [] => t
  | name :: rest => t.insert name (ofPath rest)

/-! ## Paths -/

/-- Whether a path leads downwards from the root. -/
def Has (t : JoinTree) : List String → Prop
  | [] => True
  | name :: rest => ∃ below, t.get? name = some below ∧ below.Has rest

mutual

/-- The names of every node strictly increase. -/
def Ordered : JoinTree → Prop
  | node children => Dict.Sorted children ∧ OrderedBelow children
termination_by structural t => t

/-- The trees below every name are ordered. -/
def OrderedBelow : List (String × JoinTree) → Prop
  | [] => True
  | (_, below) :: rest => Ordered below ∧ OrderedBelow rest
termination_by structural children => children

end

/-- A path behind another, both in dots. -/
def joinPath (before name : String) : String :=
  if before.isEmpty then name else before ++ "." ++ name

mutual

/-- The paths of a tree below a path in dots, each before those that go on from it. -/
def pathsBelow (before : String) : JoinTree → List String
  | node children => pathsOf before children
termination_by structural t => t

/-- The paths of the names of a node below a path in dots. -/
def pathsOf (before : String) : List (String × JoinTree) → List String
  | [] => []
  | (name, below) :: rest =>
    joinPath before name :: (pathsBelow (joinPath before name) below ++ pathsOf before rest)
termination_by structural children => children

end

/-- The paths of a tree in dots. -/
def paths (t : JoinTree) : List String := t.pathsBelow ""

/-! ## Equality -/

mutual

/-- Equality of trees. -/
def same : JoinTree → JoinTree → Bool
  | node as, node bs => sameChildren as bs
termination_by structural t => t

/-- Equality of names and their trees, in order. -/
def sameChildren : List (String × JoinTree) → List (String × JoinTree) → Bool
  | [], [] => true
  | (m, a) :: as, (n, b) :: bs => m == n && same a b && sameChildren as bs
  | _, _ => false
termination_by structural children => children

end

instance : BEq JoinTree := ⟨same⟩

end JoinTree

end EntityQuery
