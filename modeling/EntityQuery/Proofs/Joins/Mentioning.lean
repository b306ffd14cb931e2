import EntityQuery.Proofs.Joins.Covering
import EntityQuery.Proofs.Sql.Columns

/-!
# Columns of a statement that no relation is joined for

The statement of a selection mentions columns of relations outside its condition too: it orders
rows by them, groups by them and aggregates them. The relations that are joined follow the filter
and the predicates added to it alone, so a sort key, a group or an aggregated field brings no
relation of its own. Such a column can be joined exactly when the filter or an added predicate
happens to reach the relations it lies behind (`select_joins_mentioned_iff`), and a statement that
orders all posts by the names of their authors has no author to order them by
(`select_sorted_unjoined`).
-/

namespace EntityQuery

/-- The relations that a filter reaches, and those that predicates beside it do. -/
def Filter.ReachesWith (f : Filter) (schema : Schema) (entity : String) (extras : List Predicate)
    (path : List String) : Prop :=
  f.Reaches schema entity path ∨
    ∃ extra ∈ extras, ∃ column ∈ extra.columns, column.Reaches schema entity path

/-- The relations that a selection joins lead to every column that its statement mentions. -/
def Selection.Joined (s : Selection) : Prop :=
  ∀ column ∈ s.mentioned, s.relations.Has column.path

/-- The relations that a selection of aggregates joins lead to every column that its statement
mentions. -/
def AggregateSelection.Joined (s : AggregateSelection) : Prop :=
  ∀ column ∈ s.mentioned, s.relations.Has column.path

section Mentioning

variable {schema : Schema} {entity : String} {f : Filter} {p : Predicate}

/-! ### What is joined after predicates were added -/

/-- The relations that are joined for a filter and the predicates added to it. -/
theorem Filter.hasExactly_restrictAll (f : Filter) (p : Predicate) (schema : Schema)
    (entity : String) (extras : List Predicate) :
    (Plan.restrictAll ⟨p, f.joins schema entity⟩ schema entity extras).relations.HasExactly
      (f.ReachesWith schema entity extras) := by
  have hjoins : (f.joins schema entity).HasExactly (f.Reaches schema entity) :=
    f.hasExactly_joins schema entity
  obtain ⟨hordered, hhas⟩ : (Plan.restrictAll ⟨p, f.joins schema entity⟩ schema entity
      extras).relations.HasExactly _ := Plan.hasExactly_restrictAll hjoins.ordered extras
  refine ⟨hordered, fun path hne => ?_⟩
  rw [hhas path hne, hjoins.has_iff path hne, ReachesWith]

theorem Selection.hasExactly_restrictAll {s : Selection}
    (hplan : s.plan = ⟨p, f.joins schema s.entity⟩) (extras : List Predicate) :
    (s.restrictAll schema extras).relations.HasExactly (f.ReachesWith schema s.entity extras) := by
  rw [s.restrictAll_eq, hplan]
  exact f.hasExactly_restrictAll p schema s.entity extras

theorem AggregateSelection.hasExactly_restrictAll {s : AggregateSelection}
    (hplan : s.plan = ⟨p, f.joins schema s.entity⟩) (extras : List Predicate) :
    (s.restrictAll schema extras).relations.HasExactly (f.ReachesWith schema s.entity extras) := by
  rw [s.restrictAll_eq, hplan]
  exact f.hasExactly_restrictAll p schema s.entity extras

/-! ### When everything that is mentioned is joined -/

/-- What the columns of the predicate lie behind is joined in any case. -/
theorem Selection.joined_iff {s : Selection} (h : s.plan.Covered schema entity) :
    s.Joined ↔ ∀ key ∈ s.sorting, s.relations.Has (Column.ofDotted key.field).path := by
  rw [Joined, mentioned, List.forall_mem_append, List.forall_mem_map]
  exact and_iff_right fun column hcolumn => h.behind column hcolumn _ (List.prefix_refl _)

/-- Groups are among what is selected, and rows are ordered by groups. -/
theorem AggregateSelection.joined_iff {s : AggregateSelection} (h : s.plan.Covered schema entity)
    (hgroup : ∀ field ∈ s.groupBy, .group field ∈ s.columns)
    (hsorting : ∀ key ∈ s.sorting, key.field ∈ s.groupBy) :
    s.Joined ↔ ∀ column ∈ s.columns, s.relations.Has (Column.ofDotted column.field).path := by
  rw [Joined, mentioned]
  simp only [List.forall_mem_append, List.forall_mem_map]
  constructor
  · rintro ⟨⟨⟨hcolumns, -⟩, -⟩, -⟩
    exact hcolumns
  · intro hcolumns
    have hgroups : ∀ field ∈ s.groupBy, s.relations.Has (Column.ofDotted field).path :=
      fun field hfield => hcolumns (.group field) (hgroup field hfield)
    refine ⟨⟨⟨?_, ?_⟩, ?_⟩, ?_⟩
    · exact hcolumns
    · exact fun column hcolumn => h.behind column hcolumn _ (List.prefix_refl _)
    · exact hgroups
    · exact fun key hkey => hgroups key.field (hsorting key hkey)

theorem Selection.joined_restrictAll_iff {s : Selection}
    (hplan : s.plan = ⟨p, f.joins schema s.entity⟩) (hcompile : f.compile = .ok p)
    (hdeclared : f.Declared schema s.entity) (extras : List Predicate) :
    (s.restrictAll schema extras).Joined ↔ ∀ key ∈ s.sorting,
      (Column.ofDotted key.field).path = [] ∨
        f.ReachesWith schema s.entity extras (Column.ofDotted key.field).path := by
  have hcovered : (s.restrictAll schema extras).plan.Covered schema s.entity := by
    rw [s.plan_restrictAll, hplan]
    exact f.covered_restrictAll hcompile hdeclared extras
  rw [joined_iff hcovered, s.sorting_restrictAll]
  exact forall₂_congr fun key _ => (hasExactly_restrictAll hplan extras).has_iff_or _

theorem AggregateSelection.joined_restrictAll_iff {s : AggregateSelection}
    (hplan : s.plan = ⟨p, f.joins schema s.entity⟩) (hcompile : f.compile = .ok p)
    (hdeclared : f.Declared schema s.entity)
    (hgroup : ∀ field ∈ s.groupBy, .group field ∈ s.columns)
    (hsorting : s.sorting = s.groupBy.map fun field => { field }) (extras : List Predicate) :
    (s.restrictAll schema extras).Joined ↔ ∀ column ∈ s.columns,
      (Column.ofDotted column.field).path = [] ∨
        f.ReachesWith schema s.entity extras (Column.ofDotted column.field).path := by
  have hcovered : (s.restrictAll schema extras).plan.Covered schema s.entity := by
    rw [s.plan_restrictAll, hplan]
    exact f.covered_restrictAll hcompile hdeclared extras
  rw [joined_iff hcovered (by simpa using hgroup) (by simp [hsorting]), s.columns_restrictAll]
  exact forall₂_congr fun column _ => (hasExactly_restrictAll hplan extras).has_iff_or _

end Mentioning

/-- **No relation is joined for a sort key, a group or an aggregated field.** Where the filter
enters declared relations only, the statement of a selection mentions the columns that the selection
names; joined are the relations that the filter and the added predicates reach, and no other. So
they lead to all columns of the statement exactly when the filter or an added predicate reaches the
relations of each sort key, and of each group and aggregated field. -/
theorem select_joins_mentioned_iff {schema : Schema} {entity : String} {f : Filter} {p : Predicate}
    (hcompile : f.compile = .ok p) (hdeclared : f.Declared schema entity) :
    (∀ q : Query, q.filter = f → ∃ s, q.select schema entity = .ok s ∧ ∀ extras,
      ((s.restrictAll schema extras).statement schema).columns =
        (s.restrictAll schema extras).mentioned.map (schema.columns entity) ∧
      (s.restrictAll schema extras).relations.HasExactly (f.ReachesWith schema entity extras) ∧
      ((s.restrictAll schema extras).Joined ↔ ∀ key ∈ q.sorting,
        (Column.ofDotted key.field).path = [] ∨
          f.ReachesWith schema entity extras (Column.ofDotted key.field).path)) ∧
    ∀ q : AggregateQuery, q.isEmpty = false → ∃ s, q.select schema entity f = .ok s ∧ ∀ extras,
      ((s.restrictAll schema extras).statement schema).columns =
        (s.restrictAll schema extras).mentioned.map (schema.columns entity) ∧
      (s.restrictAll schema extras).relations.HasExactly (f.ReachesWith schema entity extras) ∧
      ((s.restrictAll schema extras).Joined ↔ ∀ column ∈ q.columns,
        (Column.ofDotted column.field).path = [] ∨
          f.ReachesWith schema entity extras (Column.ofDotted column.field).path) := by
  constructor
  · rintro q rfl
    obtain ⟨s, hs, rfl, hplan, hsorting⟩ := Query.exists_select hcompile schema entity
    refine ⟨s, hs, fun extras => ⟨?_, Selection.hasExactly_restrictAll hplan extras, ?_⟩⟩
    · rw [Selection.columns_statement, s.entity_restrictAll]
    · rw [← hsorting]
      exact Selection.joined_restrictAll_iff hplan hcompile hdeclared extras
  · intro q hq
    obtain ⟨s, hs, rfl, hplan, hcolumns, hgroupBy, hsorting⟩ :=
      AggregateQuery.exists_select hq hcompile schema entity
    refine ⟨s, hs, fun extras => ⟨?_, AggregateSelection.hasExactly_restrictAll hplan extras, ?_⟩⟩
    · rw [AggregateSelection.columns_statement, s.entity_restrictAll]
    · have hgroup : ∀ field ∈ s.groupBy, .group field ∈ s.columns := by
        rw [hcolumns, hgroupBy]
        exact fun field hfield => List.mem_append_left _ (List.mem_map_of_mem hfield)
      rw [← hgroupBy] at hsorting
      rw [← hcolumns]
      exact AggregateSelection.joined_restrictAll_iff hplan hcompile hdeclared hgroup hsorting
        extras

/-- Map posts by the names of their authors: the filter reaches the author, whom the order needs. -/
theorem select_joins_mentioned_maps : ∃ p s,
    Filter.mapPosts.compile = .ok p ∧ Filter.mapPosts.Declared posts "Post" ∧
    Query.select ⟨Filter.mapPosts, [{ field := "author.name" }], {}⟩ posts "Post" = .ok s ∧
    s.Joined ∧ ⟨some "author", "name"⟩ ∈ (s.statement posts).columns := by
  obtain ⟨p, hcompile⟩ : ∃ p, Filter.mapPosts.compile = .ok p := ⟨_, rfl⟩
  obtain ⟨s, hs, hruns⟩ := (select_joins_mentioned_iff hcompile Filter.declared_mapPosts).1
    ⟨Filter.mapPosts, [{ field := "author.name" }], {}⟩ rfl
  obtain ⟨-, -, hjoined⟩ := hruns []
  refine ⟨p, s, hcompile, Filter.declared_mapPosts, hs, hjoined.2 ?_, ?_⟩
  · refine List.forall_mem_singleton.2 (.inr (.inl ?_))
    exact .entry (.inAny List.mem_cons_self (.own List.mem_cons_self)) rfl
  · cases hs
    decide

/-- All posts by the names of their authors, and their number by author: the statements mention the
name of the author, which the schema declares, but no author is joined. -/
theorem select_sorted_unjoined :
    posts.follow "Post" ["author"] = some "User" ∧
    (∃ s, Query.select { sorting := [{ field := "author.name" }] } posts "Post" = .ok s ∧
      (s.statement posts).columns = [⟨some "author", "name"⟩] ∧ ¬s.relations.Has ["author"]) ∧
    ∃ s, AggregateQuery.select { groupBy := ["author.name"], count := ["id"] } posts "Post" .empty =
        .ok s ∧
      ⟨some "author", "name"⟩ ∈ (s.statement posts).groupBy ∧ ¬s.relations.Has ["author"] := by
  have hempty : ¬JoinTree.empty.Has ["author"] := by
    rw [JoinTree.has_empty]
    decide
  refine ⟨by decide, ⟨_, rfl, by decide, hempty⟩, ⟨_, rfl, by decide, hempty⟩⟩

end EntityQuery
