import EntityQuery.Proofs.Joins.Covering

/-!
# Predicates added to a selection

A predicate that is added to a selection becomes a conjunct of its condition, and what it reaches is
united with the relations that are joined (`Plan.Adds`); nothing else of the selection changes. Both
are described without regard to the order in which predicates are added: the condition asks for all
of them (`Plan.holds_restrictAll`) and the relations are those that some of them reaches
(`Plan.hasExactly_restrictAll`). So only which predicates are added matters, not in what order or
how often (`restrict_adds_in_any_order`).
-/

namespace EntityQuery

namespace Plan

variable {a b plan : Plan} {schema : Schema} {entity : String} {extra : Predicate}
  {extras others : List Predicate} {truth : Predicate.Leaf → Prop}

/-- The plan asks for what another asks for and for a predicate, and joins what either of them
reaches. -/
structure Adds (plan before : Plan) (schema : Schema) (entity : String) (extra : Predicate) :
    Prop where
  holds_iff : ∀ truth, plan.predicate.Holds truth ↔
    before.predicate.Holds truth ∧ extra.Holds truth
  relations : plan.relations.HasExactly fun path =>
    before.relations.Has path ∨ (extra.joins schema entity).Has path

/-- The plans ask for the same rows and join the same relations. -/
structure Alike (a b : Plan) : Prop where
  holds_iff : ∀ truth, a.predicate.Holds truth ↔ b.predicate.Holds truth
  relations_eq : a.relations = b.relations

theorem adds_restrict (h : plan.relations.Ordered) (extra : Predicate) :
    (plan.restrict schema entity extra).Adds plan schema entity extra where
  holds_iff _ := Predicate.holds_and
  relations := by
    have hjoins : (extra.joins schema entity).Ordered :=
      (extra.hasExactly_joins schema entity).ordered
    exact ⟨JoinTree.ordered_merge h hjoins, fun _ _ => JoinTree.has_merge h hjoins⟩

theorem holds_restrictAll : (plan.restrictAll schema entity extras).predicate.Holds truth ↔
    plan.predicate.Holds truth ∧ ∀ extra ∈ extras, extra.Holds truth := by
  induction extras generalizing plan with
  | nil => simp [restrictAll]
  | cons extra extras ih =>
    let first := plan.restrict schema entity extra
    calc (first.restrictAll schema entity extras).predicate.Holds truth
      _ ↔ (plan.predicate.and extra).Holds truth ∧ ∀ extra ∈ extras, extra.Holds truth := ih
      _ ↔ plan.predicate.Holds truth ∧ ∀ p ∈ extra :: extras, p.Holds truth := by
        rw [Predicate.holds_and, and_assoc, List.forall_mem_cons]

/-- Plans to which the same predicates are added come to the same. -/
theorem alike_restrictAll (h : plan.relations.Ordered)
    (hsame : ∀ extra, extra ∈ extras ↔ extra ∈ others) :
    (plan.restrictAll schema entity extras).Alike (plan.restrictAll schema entity others) where
  holds_iff truth := by
    simp only [holds_restrictAll, hsame]
  relations_eq := by
    have hextras : (plan.restrictAll schema entity extras).relations.HasExactly _ :=
      hasExactly_restrictAll h extras
    have hothers : (plan.restrictAll schema entity others).relations.HasExactly _ :=
      hasExactly_restrictAll h others
    simp only [hsame] at hextras
    exact hextras.unique hothers

theorem alike_restrict_restrict (h : plan.relations.Ordered) (p q : Predicate) :
    ((plan.restrict schema entity p).restrict schema entity q).Alike
      ((plan.restrict schema entity q).restrict schema entity p) := by
  have hsame : ∀ extra, extra ∈ [p, q] ↔ extra ∈ [q, p] := by
    intro extra
    rw [List.mem_pair, List.mem_pair, or_comm]
  exact alike_restrictAll h hsame

end Plan

/-- The selections differ in their plans at most. -/
structure Selection.SameButPlan (s t : Selection) : Prop where
  entity_eq : s.entity = t.entity
  sorting_eq : s.sorting = t.sorting
  limit_eq : s.limit = t.limit
  offset_eq : s.offset = t.offset

/-- The selections of aggregates differ in their plans at most. -/
structure AggregateSelection.SameButPlan (s t : AggregateSelection) : Prop where
  entity_eq : s.entity = t.entity
  columns_eq : s.columns = t.columns
  groupBy_eq : s.groupBy = t.groupBy
  sorting_eq : s.sorting = t.sorting

theorem Selection.sameButPlan_restrictAll (s : Selection) (schema : Schema)
    (extras : List Predicate) : (s.restrictAll schema extras).SameButPlan s := by
  rw [s.restrictAll_eq]
  exact ⟨rfl, rfl, rfl, rfl⟩

theorem AggregateSelection.sameButPlan_restrictAll (s : AggregateSelection) (schema : Schema)
    (extras : List Predicate) : (s.restrictAll schema extras).SameButPlan s := by
  rw [s.restrictAll_eq]
  exact ⟨rfl, rfl, rfl, rfl⟩

/-- **Predicates are added to a selection in any order.** One more predicate is asked for besides
the selection's own, whatever its comparisons come to, and what it reaches is united with the
relations that are joined; all else stays as it was. Of two predicates either may be added first,
and of any number of them neither order nor repetition matters. The same holds of selections of
aggregates. -/
theorem restrict_adds_in_any_order (schema : Schema) :
    (∀ s : Selection, s.relations.Ordered →
      (∀ p, (s.restrict schema p).SameButPlan s ∧
        (s.restrict schema p).plan.Adds s.plan schema s.entity p) ∧
      (∀ p q, ((s.restrict schema p).restrict schema q).plan.Alike
        ((s.restrict schema q).restrict schema p).plan) ∧
      ∀ extras others, (∀ p, p ∈ extras ↔ p ∈ others) →
        (s.restrictAll schema extras).SameButPlan s ∧
        (s.restrictAll schema extras).plan.Alike (s.restrictAll schema others).plan) ∧
    ∀ s : AggregateSelection, s.relations.Ordered →
      (∀ p, (s.restrict schema p).SameButPlan s ∧
        (s.restrict schema p).plan.Adds s.plan schema s.entity p) ∧
      (∀ p q, ((s.restrict schema p).restrict schema q).plan.Alike
        ((s.restrict schema q).restrict schema p).plan) ∧
      ∀ extras others, (∀ p, p ∈ extras ↔ p ∈ others) →
        (s.restrictAll schema extras).SameButPlan s ∧
        (s.restrictAll schema extras).plan.Alike (s.restrictAll schema others).plan := by
  constructor
  · intro s h
    have hordered : s.plan.relations.Ordered := h
    refine ⟨fun p => ⟨s.sameButPlan_restrictAll schema [p], Plan.adds_restrict hordered p⟩,
      Plan.alike_restrict_restrict hordered, fun extras others hsame => ?_⟩
    rw [s.plan_restrictAll, s.plan_restrictAll]
    exact ⟨s.sameButPlan_restrictAll schema extras, Plan.alike_restrictAll hordered hsame⟩
  · intro s h
    have hordered : s.plan.relations.Ordered := h
    refine ⟨fun p => ⟨s.sameButPlan_restrictAll schema [p], Plan.adds_restrict hordered p⟩,
      Plan.alike_restrict_restrict hordered, fun extras others hsame => ?_⟩
    rw [s.plan_restrictAll, s.plan_restrictAll]
    exact ⟨s.sameButPlan_restrictAll schema extras, Plan.alike_restrictAll hordered hsame⟩

/-- The author is of age. -/
def authorOfAge : Predicate := .compare (.behind "author" "age") .gte (.int 18)

/-- Map posts of authors of age, with a condition that no row meets: the author is joined, with the
profile as before, whichever comes first. -/
theorem restrict_adds_maps : ∃ s,
    Query.select { filter := Filter.mapPosts } posts "Post" = .ok s ∧ s.relations.Ordered ∧
    ((s.restrict posts authorOfAge).restrict posts (.any [])).plan.Alike
      ((s.restrict posts (.any [])).restrict posts authorOfAge).plan ∧
    (∀ truth, ¬(s.restrict posts (.any [])).predicate.Holds truth) ∧
    (s.restrict posts authorOfAge).relations.Has ["author", "profile"] := by
  obtain ⟨s, hs⟩ : ∃ s, Query.select { filter := Filter.mapPosts } posts "Post" = .ok s := ⟨_, rfl⟩
  have hordered : s.relations.Ordered := by
    cases hs
    exact (Filter.hasExactly_joins _ _ _).ordered
  obtain ⟨hone, htwo, -⟩ := (restrict_adds_in_any_order posts).1 s hordered
  refine ⟨s, hs, hordered, htwo _ _, fun truth hholds => ?_, ?_⟩
  · obtain ⟨-, hnone⟩ := ((hone (.any [])).2.holds_iff truth).1 hholds
    exact hnone
  · obtain ⟨-, -, hrelations⟩ := hone authorOfAge
    refine (hrelations.has_iff _ (List.cons_ne_nil _ _)).2 (.inl ?_)
    cases hs
    exact ⟨_, rfl, _, rfl, trivial⟩

end EntityQuery
