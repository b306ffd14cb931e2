import EntityQuery.Proofs.Joins.Reaching
import EntityQuery.Selection.Basic

/-!
# The relations that a selection joins cover its predicate

The predicate of a selection and the relations joined for it are found apart from each other: the
one by compiling the filter, the others by following its entries through the declarations. They fit
together (`Plan.Covered`): every relation that a column of the predicate lies behind is joined, and
so is every relation that a column of the entity itself is named after. Adding a predicate keeps
them fitting (`Plan.Covered.restrict`) and drops no relation, so both hold however many predicates
are added (`select_covers`).
-/

namespace EntityQuery

/-! ## The columns that a filter compares -/

namespace Filter

variable {schema : Schema} {entity : String} {f : Filter}

/-- Every relation that the filter enters is declared on the entity type at which it is entered. -/
inductive Declared (schema : Schema) : Filter → String → Prop
  | node {all any : List Filter} {fields : List (String × FieldFilter)} {entity : String} :
    (∀ f ∈ all, Declared schema f entity) → (∀ f ∈ any, Declared schema f entity) →
    (∀ name sub, (name, FieldFilter.relation sub) ∈ fields →
      (schema.relation? entity name).isSome = true) →
    (∀ name sub relation, (name, FieldFilter.relation sub) ∈ fields →
      schema.relation? entity name = some relation → Declared schema sub relation.target) →
    Declared schema (.node all any fields) entity

theorem declared_node {all any : List Filter} {fields : List (String × FieldFilter)} :
    Declared schema (.node all any fields) entity ↔
      (∀ f ∈ all, Declared schema f entity) ∧ (∀ f ∈ any, Declared schema f entity) ∧
      ∀ name sub, (name, FieldFilter.relation sub) ∈ fields → ∃ relation,
        schema.relation? entity name = some relation ∧ Declared schema sub relation.target := by
  constructor
  · rintro ⟨hall, hany, hfields, hsub⟩
    refine ⟨hall, hany, fun name sub mem => ?_⟩
    obtain ⟨relation, hrelation⟩ := Option.isSome_iff_exists.1 (hfields name sub mem)
    exact ⟨relation, hrelation, hsub name sub relation mem hrelation⟩
  · rintro ⟨hall, hany, hfields⟩
    refine .node hall hany (fun name sub mem => ?_) fun name sub relation mem hrelation => ?_
    · obtain ⟨relation, hrelation, -⟩ := hfields name sub mem
      exact Option.isSome_iff_exists.2 ⟨relation, hrelation⟩
    · obtain ⟨other, hother, hsub⟩ := hfields name sub mem
      cases hrelation.symm.trans hother
      exact hsub

theorem declared_single {name : String} {sub : Filter} {relation : Relation}
    (hrelation : schema.relation? entity name = some relation)
    (hsub : sub.Declared schema relation.target) :
    Declared schema (.node [] [] [(name, .relation sub)]) entity := by
  refine declared_node.2 ⟨by simp, by simp, fun other g mem => ?_⟩
  cases List.mem_singleton.1 mem
  exact ⟨relation, hrelation, hsub⟩

theorem Declared.of_hasEntry (h : f.Declared schema entity) {name : String} {sub : Filter}
    (has : f.HasEntry name (.relation sub)) : ∃ relation,
      schema.relation? entity name = some relation ∧ sub.Declared schema relation.target := by
  induction f using partsInduction with
  | node all any fields hall hany _ =>
    obtain ⟨dall, dany, dfields⟩ := declared_node.1 h
    rcases hasEntry_node.1 has with mem | ⟨g, mem, has⟩ | ⟨g, mem, has⟩
    · exact dfields name sub mem
    · exact hall g mem (dall g mem) has
    · exact hany g mem (dany g mem) has

/-- The columns that a filter compares, seen from the entity it stands at. -/
inductive Compares : Filter → Column → Prop
  | own {f : Filter} {name : String} {list : List Comparison}
    (has : f.HasEntry name (.comparisons list)) : Compares f (.ofField name)
  | behind {f sub : Filter} {name : String} {column : Column}
    (has : f.HasEntry name (.relation sub)) (inner : Compares sub column) :
    Compares f ⟨name :: column.path, column.field⟩

theorem Compares.mono {g : Filter} {column : Column} (h : g.Compares column)
    (hsub : ∀ name entry, g.HasEntry name entry → f.HasEntry name entry) : f.Compares column := by
  cases h with
  | own has => exact .own (hsub _ _ has)
  | behind has inner => exact .behind (hsub _ _ has) inner

/-- A compiled filter compares the columns of the filter, behind the relations entered before. -/
theorem exists_compares_of_mem_leaves (f : Filter) : ∀ {before : List String} {p : Predicate},
    f.compileAt before = .ok p → ∀ leaf ∈ p.leaves,
      ∃ column, f.Compares column ∧ leaf.column = ⟨before ++ column.path, column.field⟩ := by
  -- simplifying may drop comparisons, so they are followed from the predicate back to the filter
  induction f using partsInduction with
  | node all any fields hall hany hfields =>
    intro before p h leaf hleaf
    obtain ⟨ps, qs, rs, hps, hqs, hrs, rfl⟩ := compileAt_eq_ok.1 h
    obtain ⟨q, hq, hleaf⟩ := Predicate.mem_leaves_allOf.1 hleaf
    rcases List.mem_cons.1 hq with rfl | hq
    · obtain ⟨r, hr, hleaf⟩ := Predicate.mem_leaves_allOf.1 hleaf
      obtain ⟨g, hg, hcompile⟩ := Pairing.exists_of_mem_right hps hr
      obtain ⟨column, hcompares, hcolumn⟩ := hall g hg hcompile leaf hleaf
      exact ⟨column, hcompares.mono fun _ _ has => .inAll hg has, hcolumn⟩
    rcases List.mem_cons.1 hq with rfl | hq
    · obtain ⟨r, hr, hleaf⟩ := Predicate.mem_leaves_anyOf hleaf
      obtain ⟨g, hg, hcompile⟩ := Pairing.exists_of_mem_right hqs hr
      obtain ⟨column, hcompares, hcolumn⟩ := hany g hg hcompile leaf hleaf
      exact ⟨column, hcompares.mono fun _ _ has => .inAny hg has, hcolumn⟩
    obtain ⟨⟨field, entry⟩, hentry, hcompile⟩ := Pairing.exists_of_mem_right hrs hq
    cases entry with
    | comparisons list =>
      obtain ⟨parts, hparts, rfl⟩ := compileComparisons_eq_ok.1 hcompile
      obtain ⟨part, hpart, hleaf⟩ := Predicate.mem_leaves_allOf.1 hleaf
      obtain ⟨c, _, hc⟩ := Pairing.exists_of_mem_right hparts hpart
      refine ⟨.ofField field, .own (.own hentry), ?_⟩
      rw [(takes_of_compilesTo hc hleaf).1]
      exact congrArg (Column.mk · field) (List.append_nil before).symm
    | relation sub =>
      obtain ⟨column, hcompares, hcolumn⟩ := hfields field sub hentry hcompile leaf hleaf
      refine ⟨_, .behind (.own hentry) hcompares, ?_⟩
      rw [hcolumn, List.append_assoc, List.singleton_append]

/-- Where its relations are declared, a filter reaches what the columns it compares reach. -/
theorem reaches_of_compares {column : Column} (h : f.Compares column)
    (hdeclared : f.Declared schema entity) {path : List String} (hne : path ≠ [])
    (hreaches : column.Reaches schema entity path) : f.Reaches schema entity path := by
  induction h generalizing entity path with
  | own has =>
    obtain ⟨hisSome, rfl⟩ := (Predicate.reaches_own hne).1 hreaches
    obtain ⟨relation, hrelation⟩ := Option.isSome_iff_exists.1 hisSome
    exact .entry has hrelation
  | behind has _ ih =>
    obtain ⟨relation, hrelation, hsub⟩ := hdeclared.of_hasEntry has
    cases path with
    | nil => exact absurd rfl hne
    | cons first rest =>
      obtain ⟨rfl, hleads⟩ := List.cons_prefix_cons.1 (Predicate.reaches_behind.1 hreaches)
      by_cases hnil : rest = []
      · rw [hnil]
        exact .entry has hrelation
      · exact .behind has hrelation (ih hsub hnil (.behind hleads))

end Filter

/-! ## Plans -/

/-- What of a selection changes when a predicate is added to it: the condition on its rows, and the
relations joined for it. -/
structure Plan where
  predicate : Predicate
  relations : JoinTree

namespace Plan

variable {plan : Plan} {schema : Schema} {entity : String}

/-- Asks in addition for a predicate, and joins what it reaches. -/
def restrict (plan : Plan) (schema : Schema) (entity : String) (extra : Predicate) : Plan where
  predicate := plan.predicate.and extra
  relations := plan.relations.merge (extra.joins schema entity)

/-- Asks in addition for several predicates, one after the other. -/
def restrictAll (plan : Plan) (schema : Schema) (entity : String) (extras : List Predicate) :
    Plan := extras.foldl (fun plan extra => plan.restrict schema entity extra) plan

/-- Every relation that a column of the predicate lies behind is joined, and every relation that a
column of the entity itself is named after. -/
structure Covered (plan : Plan) (schema : Schema) (entity : String) : Prop where
  behind : ∀ column ∈ plan.predicate.columns, ∀ path, path <+: column.path →
    plan.relations.Has path
  named : ∀ column ∈ plan.predicate.columns, column.path = [] →
    (schema.relation? entity column.field).isSome = true → plan.relations.Has [column.field]

theorem covered_iff : plan.Covered schema entity ↔ ∀ column ∈ plan.predicate.columns, ∀ path,
    path ≠ [] → column.Reaches schema entity path → plan.relations.Has path := by
  constructor
  · intro h column hcolumn path _ hreaches
    cases hreaches with
    | behind hleads => exact h.behind column hcolumn path hleads
    | named hdeclared => exact h.named _ hcolumn rfl hdeclared
  · intro h
    refine ⟨fun column hcolumn path hleads => ?_, fun column hcolumn hown hdeclared => ?_⟩
    · by_cases hnil : path = []
      · rw [hnil]
        exact JoinTree.has_nil _
      · exact h column hcolumn path hnil (.behind hleads)
    · obtain ⟨path, field⟩ := column
      cases hown
      exact h _ hcolumn _ (List.cons_ne_nil _ _) (.named hdeclared)

/-! ### One predicate more -/

theorem columns_restrict (plan : Plan) (extra : Predicate) :
    (plan.restrict schema entity extra).predicate.columns =
      plan.predicate.columns ++ extra.columns := by
  simp [restrict, Predicate.and, Predicate.columns, Predicate.leaves_allOf]

theorem hasExactly_restrict (h : plan.relations.Ordered) (extra : Predicate) :
    (plan.restrict schema entity extra).relations.HasExactly fun path =>
      plan.relations.Has path ∨ ∃ column ∈ extra.columns, column.Reaches schema entity path :=
  JoinTree.adds_merge (Predicate.hasExactly_joins schema entity extra) plan.relations h

theorem Covered.restrict (hcovered : plan.Covered schema entity) (h : plan.relations.Ordered)
    (extra : Predicate) : (plan.restrict schema entity extra).Covered schema entity := by
  rw [covered_iff] at hcovered ⊢
  intro column hcolumn path hne hreaches
  rw [(hasExactly_restrict h extra).has_iff path hne]
  rw [columns_restrict, List.mem_append] at hcolumn
  rcases hcolumn with hcolumn | hcolumn
  · exact .inl (hcovered column hcolumn path hne hreaches)
  · exact .inr ⟨column, hcolumn, hreaches⟩

/-! ### Any number of predicates more -/

theorem relations_restrictAll (plan : Plan) (extras : List Predicate) :
    (plan.restrictAll schema entity extras).relations =
      extras.foldl (fun tree extra => tree.merge (extra.joins schema entity)) plan.relations := by
  induction extras generalizing plan with
  | nil => rfl
  | cons extra extras ih => exact ih (plan.restrict schema entity extra)

theorem hasExactly_restrictAll (h : plan.relations.Ordered) (extras : List Predicate) :
    (plan.restrictAll schema entity extras).relations.HasExactly fun path =>
      plan.relations.Has path ∨
        ∃ extra ∈ extras, ∃ column ∈ extra.columns, column.Reaches schema entity path := by
  rw [relations_restrictAll]
  exact JoinTree.adds_foldl (fun extra _ =>
    JoinTree.adds_merge (Predicate.hasExactly_joins schema entity extra)) plan.relations h

theorem Covered.restrictAll (hcovered : plan.Covered schema entity) (h : plan.relations.Ordered)
    (extras : List Predicate) : (plan.restrictAll schema entity extras).Covered schema entity := by
  induction extras generalizing plan with
  | nil => exact hcovered
  | cons extra extras ih =>
    exact ih (hcovered.restrict h extra) (hasExactly_restrict h extra).ordered

theorem has_restrictAll_append (h : plan.relations.Ordered) (extras more : List Predicate)
    {path : List String} (hpath : (plan.restrictAll schema entity extras).relations.Has path) :
    (plan.restrictAll schema entity (extras ++ more)).relations.Has path := by
  by_cases hnil : path = []
  · rw [hnil]
    exact JoinTree.has_nil _
  · have hordered : (plan.restrictAll schema entity extras).relations.Ordered :=
      (hasExactly_restrictAll h extras).ordered
    rw [restrictAll, List.foldl_append]
    exact ((hasExactly_restrictAll hordered more).has_iff path hnil).2 (.inl hpath)

end Plan

/-! ## Selections and their plans -/

/-- The plan of a selection. -/
def Selection.plan (s : Selection) : Plan := ⟨s.predicate, s.relations⟩

/-- The plan of a selection of aggregates. -/
def AggregateSelection.plan (s : AggregateSelection) : Plan := ⟨s.predicate, s.relations⟩

/-- The plan of a count. -/
def CountSelection.plan (s : CountSelection) : Plan := ⟨s.predicate, s.relations⟩

/-- Asks in addition for several predicates, one after the other. -/
def Selection.restrictAll (s : Selection) (schema : Schema) (extras : List Predicate) : Selection :=
  extras.foldl (fun s extra => s.restrict schema extra) s

/-- Asks in addition for several predicates, one after the other. -/
def AggregateSelection.restrictAll (s : AggregateSelection) (schema : Schema)
    (extras : List Predicate) : AggregateSelection :=
  extras.foldl (fun s extra => s.restrict schema extra) s

/-- Of a selection only the plan changes. -/
theorem Selection.restrictAll_eq (s : Selection) (schema : Schema) (extras : List Predicate) :
    s.restrictAll schema extras =
      { s with
        predicate := (s.plan.restrictAll schema s.entity extras).predicate
        relations := (s.plan.restrictAll schema s.entity extras).relations } := by
  induction extras generalizing s with
  | nil => rfl
  | cons extra extras ih => exact ih (s.restrict schema extra)

@[simp]
theorem Selection.entity_restrictAll (s : Selection) (schema : Schema) (extras : List Predicate) :
    (s.restrictAll schema extras).entity = s.entity := by
  rw [s.restrictAll_eq]

@[simp]
theorem Selection.sorting_restrictAll (s : Selection) (schema : Schema) (extras : List Predicate) :
    (s.restrictAll schema extras).sorting = s.sorting := by
  rw [s.restrictAll_eq]

theorem Selection.plan_restrictAll (s : Selection) (schema : Schema) (extras : List Predicate) :
    (s.restrictAll schema extras).plan = s.plan.restrictAll schema s.entity extras :=
  congrArg Selection.plan (s.restrictAll_eq schema extras)

/-- Of a selection of aggregates only the plan changes. -/
theorem AggregateSelection.restrictAll_eq (s : AggregateSelection) (schema : Schema)
    (extras : List Predicate) :
    s.restrictAll schema extras =
      { s with
        predicate := (s.plan.restrictAll schema s.entity extras).predicate
        relations := (s.plan.restrictAll schema s.entity extras).relations } := by
  induction extras generalizing s with
  | nil => rfl
  | cons extra extras ih => exact ih (s.restrict schema extra)

@[simp]
theorem AggregateSelection.entity_restrictAll (s : AggregateSelection) (schema : Schema)
    (extras : List Predicate) : (s.restrictAll schema extras).entity = s.entity := by
  rw [s.restrictAll_eq]

@[simp]
theorem AggregateSelection.columns_restrictAll (s : AggregateSelection) (schema : Schema)
    (extras : List Predicate) : (s.restrictAll schema extras).columns = s.columns := by
  rw [s.restrictAll_eq]

@[simp]
theorem AggregateSelection.groupBy_restrictAll (s : AggregateSelection) (schema : Schema)
    (extras : List Predicate) : (s.restrictAll schema extras).groupBy = s.groupBy := by
  rw [s.restrictAll_eq]

@[simp]
theorem AggregateSelection.sorting_restrictAll (s : AggregateSelection) (schema : Schema)
    (extras : List Predicate) : (s.restrictAll schema extras).sorting = s.sorting := by
  rw [s.restrictAll_eq]

theorem AggregateSelection.plan_restrictAll (s : AggregateSelection) (schema : Schema)
    (extras : List Predicate) :
    (s.restrictAll schema extras).plan = s.plan.restrictAll schema s.entity extras :=
  congrArg AggregateSelection.plan (s.restrictAll_eq schema extras)

section Selecting

variable {f : Filter} {p : Predicate}

theorem Query.exists_select {q : Query} (hcompile : q.filter.compile = .ok p) (schema : Schema)
    (entity : String) : ∃ s, q.select schema entity = .ok s ∧ s.entity = entity ∧
      s.plan = ⟨p, q.filter.joins schema entity⟩ ∧ s.sorting = q.sorting := by
  rw [Query.select, hcompile]
  exact ⟨_, rfl, rfl, rfl, rfl⟩

theorem AggregateQuery.exists_select {q : AggregateQuery} (hq : q.isEmpty = false)
    (hcompile : f.compile = .ok p) (schema : Schema) (entity : String) :
    ∃ s, q.select schema entity f = .ok s ∧ s.entity = entity ∧
      s.plan = ⟨p, f.joins schema entity⟩ ∧ s.columns = q.columns ∧ s.groupBy = q.groupBy ∧
      s.sorting = q.groupBy.map fun field => { field } := by
  rw [AggregateQuery.select, hcompile, hq]
  exact ⟨_, rfl, rfl, rfl, rfl, rfl, rfl⟩

/-- The plan that the selections for a filter start from. -/
theorem Filter.covered_of_compile {schema : Schema} {entity : String}
    (hcompile : f.compile = .ok p) (hdeclared : f.Declared schema entity) :
    Plan.Covered ⟨p, f.joins schema entity⟩ schema entity := by
  rw [Plan.covered_iff]
  intro column hcolumn path hne hreaches
  obtain ⟨leaf, hleaf, rfl⟩ := List.mem_map.1 hcolumn
  obtain ⟨column, hcompares, hcolumn⟩ := f.exists_compares_of_mem_leaves hcompile leaf hleaf
  rw [hcolumn, List.nil_append] at hreaches
  exact ((f.hasExactly_joins schema entity).has_iff path hne).2
    (f.reaches_of_compares hcompares hdeclared hne hreaches)

theorem Filter.covered_restrictAll {schema : Schema} {entity : String}
    (hcompile : f.compile = .ok p) (hdeclared : f.Declared schema entity)
    (extras : List Predicate) :
    (Plan.restrictAll ⟨p, f.joins schema entity⟩ schema entity extras).Covered schema entity :=
  (f.covered_of_compile hcompile hdeclared).restrictAll (f.hasExactly_joins schema entity).ordered
    extras

end Selecting

/-- **The relations of a selection cover its predicate, whatever predicates are added.** Where the
filter enters declared relations only, each column of the predicate has the relations that it lies
behind among those joined, and a column that is named after a relation has that relation; no
predicate that is added later takes a relation away. -/
theorem select_covers {schema : Schema} {entity : String} {f : Filter} {p : Predicate}
    (hcompile : f.compile = .ok p) (hdeclared : f.Declared schema entity) :
    (∀ q : Query, q.filter = f → ∃ s, q.select schema entity = .ok s ∧ s.predicate = p ∧
      ∀ extras, (s.restrictAll schema extras).plan.Covered schema entity ∧
        ∀ more path, (s.restrictAll schema extras).relations.Has path →
          (s.restrictAll schema (extras ++ more)).relations.Has path) ∧
    (∀ q : AggregateQuery, q.isEmpty = false → ∃ s, q.select schema entity f = .ok s ∧
      s.predicate = p ∧
      ∀ extras, (s.restrictAll schema extras).plan.Covered schema entity ∧
        ∀ more path, (s.restrictAll schema extras).relations.Has path →
          (s.restrictAll schema (extras ++ more)).relations.Has path) ∧
    ∃ s, f.count schema entity = .ok s ∧ s.predicate = p ∧ s.plan.Covered schema entity := by
  have hordered : (f.joins schema entity).Ordered := (f.hasExactly_joins schema entity).ordered
  -- the three selections start from one plan, and what is said of them is about their plans
  have hrun : ∀ extras, (Plan.restrictAll ⟨p, f.joins schema entity⟩ schema entity extras).Covered
      schema entity ∧ ∀ more path,
        (Plan.restrictAll ⟨p, f.joins schema entity⟩ schema entity extras).relations.Has path →
          (Plan.restrictAll ⟨p, f.joins schema entity⟩ schema entity
            (extras ++ more)).relations.Has path := fun extras =>
    ⟨f.covered_restrictAll hcompile hdeclared extras,
      fun more _ hpath => Plan.has_restrictAll_append hordered extras more hpath⟩
  refine ⟨?_, ?_, ?_⟩
  · rintro q rfl
    obtain ⟨s, hs, rfl, hplan, -⟩ := Query.exists_select hcompile schema entity
    simp only [← hplan, ← s.plan_restrictAll] at hrun
    exact ⟨s, hs, congrArg Plan.predicate hplan, hrun⟩
  · intro q hq
    obtain ⟨s, hs, rfl, hplan, -⟩ := AggregateQuery.exists_select hq hcompile schema entity
    simp only [← hplan, ← s.plan_restrictAll] at hrun
    exact ⟨s, hs, congrArg Plan.predicate hplan, hrun⟩
  · refine ⟨⟨entity, p, f.joins schema entity⟩, ?_, rfl, (hrun []).1⟩
    rw [Filter.count, hcompile]
    rfl

theorem Filter.declared_mapPosts : Filter.mapPosts.Declared posts "Post" := by
  refine declared_node.2 ⟨by simp, List.forall_mem_cons.2 ⟨?_, ?_⟩, by simp⟩
  · refine declared_single rfl (declared_single rfl ?_)
    exact declared_node.2 ⟨by simp, by simp, by simp⟩
  · exact List.forall_mem_singleton.2 (declared_node.2 ⟨by simp, by simp, by simp⟩)

/-- Map posts of authors of age; the profile stays joined, and the author is. -/
theorem select_covers_maps : ∃ p s,
    Filter.mapPosts.compile = .ok p ∧ Filter.mapPosts.Declared posts "Post" ∧
    Query.select { filter := Filter.mapPosts } posts "Post" = .ok s ∧
    (s.restrictAll posts [.compare (.behind "author" "age") .gte (.int 18)]).plan.Covered
      posts "Post" ∧
    (s.restrictAll posts [.compare (.behind "author" "age") .gte (.int 18)]).relations.Has
      ["author", "profile"] := by
  obtain ⟨p, hcompile⟩ : ∃ p, Filter.mapPosts.compile = .ok p := ⟨_, rfl⟩
  obtain ⟨s, hs, hp, hruns⟩ :=
    (select_covers hcompile Filter.declared_mapPosts).1 { filter := Filter.mapPosts } rfl
  obtain ⟨hcovered, -⟩ := hruns [.compare (.behind "author" "age") .gte (.int 18)]
  refine ⟨_, s, hcompile, Filter.declared_mapPosts, hs, hcovered, ?_⟩
  refine hcovered.behind ⟨["author", "profile"], "bio"⟩ ?_ _ (List.prefix_refl _)
  cases hcompile
  cases hs
  decide

end EntityQuery
