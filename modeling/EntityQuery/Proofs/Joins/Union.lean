import EntityQuery.Predicate.Basic
import EntityQuery.Relation.Joins
import EntityQuery.Relation.Tree.Lemmas

/-!
# Trees of relations as sets of paths

An ordered tree is determined by the paths that lead downwards in it, and every operation on trees
is described by the paths that its result has (`JoinTree.HasExactly`). The union of two trees has
the paths of both at any depth and is therefore a union of sets: commutative, associative,
idempotent, with the empty tree as its unit (`merge_unites_paths`). The tree of a predicate has the
relations that its columns lie behind, and those that columns of the entity itself are named after.
-/

namespace EntityQuery

namespace JoinTree

variable {t a b c below : JoinTree}

/-- The tree is ordered, and the paths in it are those with a property; the path that goes nowhere
is in every tree. -/
structure HasExactly (t : JoinTree) (paths : List String → Prop) : Prop where
  ordered : t.Ordered
  has_iff : ∀ path, path ≠ [] → (t.Has path ↔ paths path)

/-- No two trees have exactly the same paths. -/
theorem HasExactly.unique {paths : List String → Prop} (ha : a.HasExactly paths)
    (hb : b.HasExactly paths) : a = b := by
  refine ext_of_has ha.ordered hb.ordered fun path => ?_
  cases path with
  | nil => exact Iff.rfl
  | cons name rest =>
    have hne : name :: rest ≠ [] := List.cons_ne_nil _ _
    rw [ha.has_iff _ hne, hb.has_iff _ hne]

theorem HasExactly.has_iff_or {paths : List String → Prop} (h : t.HasExactly paths)
    (path : List String) : t.Has path ↔ path = [] ∨ paths path := by
  by_cases hnil : path = []
  · simp [hnil]
  · rw [h.has_iff path hnil, or_iff_right hnil]

theorem hasExactly_empty : empty.HasExactly fun _ => False :=
  ⟨ordered_empty, fun path hne => by simp [has_empty, hne]⟩

/-! ## A name and the tree below it -/

theorem ordered_branch (h : below.Ordered) (name : String) : Ordered (node [(name, below)]) :=
  ⟨by simp [Dict.Sorted, Dict.keys], h, trivial⟩

theorem has_branch {name : String} {path : List String} :
    (node [(name, below)]).Has path ↔ path = [] ∨ ∃ rest, path = name :: rest ∧ below.Has rest := by
  cases path with
  | nil => simp
  | cons first rest =>
    simp only [Has, get?, children, Dict.get?_cons]
    by_cases h : first = name
    · simp [h]
    · simp [h]

theorem has_insert (h : t.Ordered) (hb : below.Ordered) {name : String} {path : List String} :
    (t.insert name below).Has path ↔ t.Has path ∨ ∃ rest, path = name :: rest ∧ below.Has rest := by
  rw [insert_eq_merge, has_merge h (ordered_branch hb name), has_branch]
  constructor
  · rintro (ht | rfl | hrest)
    · exact .inl ht
    · exact .inl (has_nil t)
    · exact .inr hrest
  · rintro (ht | hrest)
    · exact .inl ht
    · exact .inr (.inr hrest)

/-! ## Adding paths -/

/-- A step adds the paths with a property to every tree, and takes none away. -/
def Adds (step : JoinTree → JoinTree) (reached : List String → Prop) : Prop :=
  ∀ t : JoinTree, t.Ordered → (step t).HasExactly fun path => t.Has path ∨ reached path

theorem adds_merge {reached : List String → Prop} (h : below.HasExactly reached) :
    Adds (·.merge below) reached := by
  intro t ht
  refine ⟨ordered_merge ht h.ordered, fun path hne => ?_⟩
  rw [has_merge ht h.ordered, h.has_iff path hne]

theorem Adds.comp {first second : JoinTree → JoinTree} {reached further : List String → Prop}
    (h : Adds first reached) (h' : Adds second further) :
    Adds (fun t => second (first t)) fun path => reached path ∨ further path := by
  intro t ht
  have hfirst := h t ht
  have hsecond := h' (first t) hfirst.ordered
  refine ⟨hsecond.ordered, fun path hne => ?_⟩
  calc (second (first t)).Has path
    _ ↔ (first t).Has path ∨ further path := hsecond.has_iff path hne
    _ ↔ (t.Has path ∨ reached path) ∨ further path := or_congr_left (hfirst.has_iff path hne)
    _ ↔ t.Has path ∨ reached path ∨ further path := or_assoc

theorem Adds.congr {step : JoinTree → JoinTree} {reached other : List String → Prop}
    (h : Adds step reached) (hiff : ∀ path, reached path ↔ other path) : Adds step other := by
  intro t ht
  have hstep := h t ht
  refine ⟨hstep.ordered, fun path hne => ?_⟩
  rw [hstep.has_iff path hne, hiff]

theorem adds_nothing : Adds id fun _ => False := by
  intro t ht
  exact ⟨ht, fun path _ => by simp⟩

/-- Steps one after the other add what each of them adds. -/
theorem adds_foldl {α : Type} {add : JoinTree → α → JoinTree} {reached : α → List String → Prop}
    {items : List α} (hstep : ∀ item ∈ items, Adds (add · item) (reached item)) :
    Adds (items.foldl add) fun path => ∃ item ∈ items, reached item path := by
  induction items with
  | nil => exact adds_nothing.congr fun path => by simp
  | cons item items ih =>
    obtain ⟨hfirst, hrest⟩ := List.forall_mem_cons.1 hstep
    exact (hfirst.comp (ih hrest)).congr fun path => by
      simp only [List.mem_cons, exists_eq_or_imp]

/-- From the empty tree a step makes the tree of what it adds. -/
theorem Adds.hasExactly {step : JoinTree → JoinTree} {reached : List String → Prop}
    (h : Adds step reached) : (step empty).HasExactly reached := by
  have hstep := h empty ordered_empty
  refine ⟨hstep.ordered, fun path hne => ?_⟩
  rw [hstep.has_iff path hne, has_empty, or_iff_right hne]

/-! ## Laws of the union -/

theorem merge_empty (t : JoinTree) : t.merge empty = t := by
  cases t
  rfl

theorem empty_merge (h : t.Ordered) : empty.merge t = t := by
  refine ext_of_has (ordered_merge ordered_empty h) h fun path => ?_
  rw [has_merge ordered_empty h, has_empty]
  constructor
  · rintro (rfl | ht)
    · exact has_nil t
    · exact ht
  · exact .inr

theorem merge_self (h : t.Ordered) : t.merge t = t := by
  refine ext_of_has (ordered_merge h h) h fun path => ?_
  rw [has_merge h h, or_self]

theorem merge_comm (ha : a.Ordered) (hb : b.Ordered) : a.merge b = b.merge a := by
  refine ext_of_has (ordered_merge ha hb) (ordered_merge hb ha) fun path => ?_
  rw [has_merge ha hb, has_merge hb ha, or_comm]

theorem merge_assoc (ha : a.Ordered) (hb : b.Ordered) (hc : c.Ordered) :
    (a.merge b).merge c = a.merge (b.merge c) := by
  have hab : (a.merge b).Ordered := ordered_merge ha hb
  have hbc : (b.merge c).Ordered := ordered_merge hb hc
  refine ext_of_has (ordered_merge hab hc) (ordered_merge ha hbc) fun path => ?_
  rw [has_merge hab hc, has_merge ha hb, has_merge ha hbc, has_merge hb hc, or_assoc]

end JoinTree

/-! ## The relations of a predicate -/

/-- The paths of relations that a column reaches, seen from an entity type. -/
inductive Column.Reaches (schema : Schema) (entity : String) : Column → List String → Prop
  /-- the column lies behind them -/
  | behind {column : Column} {path : List String} (leads : path <+: column.path) :
    Reaches schema entity column path
  /-- the column belongs to the entity itself and is named after a relation -/
  | named {field : String} (declared : (schema.relation? entity field).isSome = true) :
    Reaches schema entity (.ofField field) [field]

namespace Predicate

open JoinTree

variable {schema : Schema} {entity : String}

theorem reaches_own {field : String} {path : List String} (hne : path ≠ []) :
    Column.Reaches schema entity ⟨[], field⟩ path ↔
      (schema.relation? entity field).isSome = true ∧ path = [field] := by
  constructor
  · rintro (hleads | hdeclared)
    · exact absurd (List.prefix_nil.1 hleads) hne
    · exact ⟨hdeclared, rfl⟩
  · rintro ⟨hdeclared, rfl⟩
    exact .named hdeclared

theorem reaches_behind {first field : String} {rest path : List String} :
    Column.Reaches schema entity ⟨first :: rest, field⟩ path ↔ path <+: first :: rest := by
  constructor
  · rintro ⟨hleads⟩
    exact hleads
  · intro hleads
    exact .behind hleads

theorem adds_addColumnJoins (column : Column) :
    Adds (addColumnJoins schema entity · column) (column.Reaches schema entity) := by
  intro tree h
  obtain ⟨behind, field⟩ := column
  cases behind with
  | nil =>
    show (if (schema.relation? entity field).isSome then tree.insert field .empty
      else tree).HasExactly _
    split
    · next hdeclared =>
      refine ⟨h.insert ordered_empty field, fun path hne => ?_⟩
      rw [has_insert h ordered_empty, reaches_own hne]
      simp [hdeclared, has_empty]
    · next hnone =>
      refine ⟨h, fun path hne => ?_⟩
      rw [reaches_own hne]
      simp [hnone]
  | cons first rest =>
    show (tree.insertPath (first :: rest)).HasExactly _
    refine ⟨h.insertPath _, fun path _ => ?_⟩
    rw [has_insertPath h, reaches_behind]

theorem hasExactly_joins (schema : Schema) (entity : String) (p : Predicate) :
    (p.joins schema entity).HasExactly fun path =>
      ∃ column ∈ p.columns, column.Reaches schema entity path :=
  (adds_foldl fun column _ => adds_addColumnJoins column).hasExactly

end Predicate

namespace JoinTree

variable {a b c : JoinTree}

/-- **The union of two trees has the paths of both, at any depth**, and is therefore commutative,
associative and idempotent, with the empty tree as its unit. A name with a tree below it adds the
name and the paths of that tree behind it; a path adds itself and what leads to its end; and a
predicate comes to the paths that its columns reach. -/
theorem merge_unites_paths (ha : a.Ordered) (hb : b.Ordered) (hc : c.Ordered) :
    ((a.merge b).HasExactly fun path => a.Has path ∨ b.Has path) ∧
    a.merge b = b.merge a ∧ (a.merge b).merge c = a.merge (b.merge c) ∧ a.merge a = a ∧
    a.merge empty = a ∧ empty.merge a = a ∧
    (∀ name, (a.insert name b).HasExactly fun path =>
      a.Has path ∨ path = [name] ∨ ∃ rest, path = name :: rest ∧ b.Has rest) ∧
    (∀ added, (a.insertPath added).HasExactly fun path => a.Has path ∨ path <+: added) ∧
    a.insertPath [] = a ∧
    ∀ schema entity (p : Predicate), (p.joins schema entity).HasExactly fun path =>
      ∃ column ∈ p.columns, column.Reaches schema entity path := by
  refine ⟨⟨ordered_merge ha hb, fun _ _ => has_merge ha hb⟩, merge_comm ha hb, merge_assoc ha hb hc,
    merge_self ha, merge_empty a, empty_merge ha, fun name => ?_, fun added => ?_, rfl,
    Predicate.hasExactly_joins⟩
  · refine ⟨ha.insert hb name, fun path _ => ?_⟩
    rw [has_insert ha hb]
    constructor
    · rintro (h | h)
      · exact .inl h
      · exact .inr (.inr h)
    · rintro (h | rfl | h)
      · exact .inl h
      · exact .inr ⟨[], rfl, has_nil b⟩
      · exact .inr h
  · exact ⟨ha.insertPath added, fun _ _ => has_insertPath ha⟩

/-- The author of a post with a profile, and the author with other posts, beside tags. -/
def authorTrees : JoinTree × JoinTree :=
  (node [("author", node [("profile", empty)])],
   node [("author", node [("posts", empty)]), ("tags", empty)])

/-- Below the author both are kept, in either order. -/
theorem merge_unites_paths_author :
    authorTrees.1.Ordered ∧ authorTrees.2.Ordered ∧
    (authorTrees.1.merge authorTrees.2).Has ["author", "profile"] ∧
    (authorTrees.1.merge authorTrees.2).Has ["author", "posts"] ∧
    ¬(authorTrees.1.merge authorTrees.2).Has ["author", "tags"] ∧
    authorTrees.1.merge authorTrees.2 = authorTrees.2.merge authorTrees.1 := by
  have hfirst : authorTrees.1.Ordered :=
    ordered_branch (ordered_branch ordered_empty "profile") "author"
  have hsecond : authorTrees.2.Ordered := by
    refine ⟨?_, ordered_branch ordered_empty "posts", ordered_empty, trivial⟩
    unfold Dict.Sorted
    decide
  obtain ⟨hmerge, hcomm, -⟩ := merge_unites_paths hfirst hsecond ordered_empty
  refine ⟨hfirst, hsecond, ?_, ?_, ?_, hcomm⟩
  · rw [hmerge.has_iff _ (by decide)]
    exact .inl ⟨_, rfl, _, rfl, trivial⟩
  · rw [hmerge.has_iff _ (by decide)]
    exact .inr ⟨_, rfl, _, rfl, trivial⟩
  · rw [hmerge.has_iff _ (by decide)]
    rintro (⟨below, hget, _, htags, -⟩ | ⟨below, hget, _, htags, -⟩)
    · cases hget
      cases htags
    · cases hget
      cases htags

end JoinTree

end EntityQuery
