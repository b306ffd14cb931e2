import EntityQuery.Proofs.Filter.Compiling
import EntityQuery.Proofs.Relation.Restricting

/-!
# Every predicate that is built is simplified

Predicates are built in three places: fragments are bound to a column, filters are compiled, and
records are linked to the rows behind a relation, one by one or several at once. All of them go
through `allOf` and `anyOf`, which simplify as they build, so that nothing is left to simplify in
what they answer (`simplified_normal`). What goes into the two need not be simplified: their meaning
is that of *all* and *any* for any children, except that no alternatives are no restriction
(`holds_anyOf_iff`).
-/

namespace EntityQuery

/-! ## Fragments -/

namespace Fragment

mutual

theorem normal_bind (column : Column) : ∀ fragment : Fragment, (fragment.bind column).Normal
  | compare _ _ => .inr trivial
  | all parts => Predicate.normal_allOf (normal_bindList column parts)
  | any parts => Predicate.normal_anyOf (normal_bindList column parts)

theorem normal_bindList (column : Column) :
    ∀ parts : List Fragment, ∀ p ∈ bindList column parts, p.Normal
  | part :: parts, p, hp => by
    rcases List.mem_cons.1 hp with rfl | hp
    · exact normal_bind column part
    · exact normal_bindList column parts p hp

end

end Fragment

/-! ## Filters -/

namespace Filter

theorem normal_compileComparisons {column : Column} {list : List Comparison} {p : Predicate}
    (h : compileComparisons column list = .ok p) : p.Normal := by
  obtain ⟨ps, hps, rfl⟩ := compileComparisons_eq_ok.1 h
  refine Predicate.normal_allOf fun q hq => ?_
  obtain ⟨c, -, op, -, -, rfl⟩ := Pairing.exists_of_mem_right hps hq
  exact Fragment.normal_bind column _

theorem normal_compileAt {f : Filter} : ∀ {path : List String} {p : Predicate},
    f.compileAt path = .ok p → p.Normal := by
  induction f using partsInduction with
  | node all any fields hall hany hfields =>
    intro path p h
    obtain ⟨ps, qs, rs, hps, hqs, hrs, rfl⟩ := compileAt_eq_ok.1 h
    have hps : ∀ p ∈ ps, p.Normal := by
      intro p hp
      obtain ⟨f, hf, hcompile⟩ := Pairing.exists_of_mem_right hps hp
      exact hall f hf hcompile
    have hqs : ∀ q ∈ qs, q.Normal := by
      intro q hq
      obtain ⟨f, hf, hcompile⟩ := Pairing.exists_of_mem_right hqs hq
      exact hany f hf hcompile
    have hrs : ∀ r ∈ rs, r.Normal := by
      intro r hr
      obtain ⟨⟨field, entry⟩, hentry, hcompile⟩ := Pairing.exists_of_mem_right hrs hr
      cases entry with
      | comparisons list => exact normal_compileComparisons hcompile
      | relation sub => exact hfields field sub hentry hcompile
    exact Predicate.normal_allOf (List.forall_mem_cons.2 ⟨Predicate.normal_allOf hps,
      List.forall_mem_cons.2 ⟨Predicate.normal_anyOf hqs, hrs⟩⟩)

end Filter

/-! ## Links -/

section Links

variable {schema : Schema} {entity : String} {p : Predicate}

theorem Relation.normal_equalities (columns : List Column) (values : List Json) :
    (equalities columns values).Normal := by
  refine Predicate.normal_allOf fun q hq => ?_
  obtain ⟨i, hi, rfl⟩ := List.mem_iff_getElem.1 hq
  rw [List.getElem_zipWith]
  exact .inr trivial

theorem Relation.normal_link {relation : Relation} {source : Json}
    (h : relation.link schema entity source = .ok p) : p.Normal := by
  obtain ⟨_, columns, values, -, rfl⟩ := compares_of_link h
  exact normal_equalities columns values

theorem Schema.normal_link {relation : String} {source : Json}
    (h : schema.link entity source relation = .ok p) : p.Normal := by
  obtain ⟨found, -, h⟩ := link_eq_ok.1 h
  exact found.normal_link h

theorem Schema.normal_linkAny {relation : String} {sources : List Json}
    (h : schema.linkAny entity sources relation = .ok (some p)) : p.Normal := by
  obtain ⟨found, conditions, -, hdistinct, -, rfl⟩ := linkAny_eq_some h
  refine Predicate.normal_anyOf fun q hq => ?_
  rcases (linkDistinct_eq_ok hdistinct).2.1 q hq with hnil | ⟨source, -, hlink⟩
  · cases hnil
  · exact found.normal_link hlink

end Links

/-! ## What is built -/

namespace Predicate

/-- Of no alternatives none has to hold. -/
theorem holds_anyOf_iff {truth : Leaf → Prop} {ps : List Predicate} :
    (anyOf ps).Holds truth ↔ ps = [] ∨ ∃ p ∈ ps, p.Holds truth := by
  by_cases hnil : ps = []
  · subst hnil
    exact ⟨fun _ => .inl rfl, fun _ => holds_always⟩
  · rw [holds_anyOf hnil]
    exact (or_iff_right hnil).symm

/-- **What is built is simplified, and simplifying keeps the meaning.** Compiled filters, bound
fragments and the conditions of links are in normal form, as are conjunctions and disjunctions of
predicates in normal form. The conjunction of any predicates holds when each of them does, and their
disjunction when there are none or some one does. -/
theorem simplified_normal :
    (∀ (f : Filter) path p, f.compileAt path = .ok p → p.Normal) ∧
    (∀ (fragment : Fragment) column, (fragment.bind column).Normal) ∧
    (∀ (schema : Schema) entity source (relation : Relation) p,
      relation.link schema entity source = .ok p → p.Normal) ∧
    (∀ (schema : Schema) entity source relation p,
      schema.link entity source relation = .ok p → p.Normal) ∧
    (∀ (schema : Schema) entity sources relation p,
      schema.linkAny entity sources relation = .ok (some p) → p.Normal) ∧
    (∀ ps : List Predicate, (∀ p ∈ ps, p.Normal) → (allOf ps).Normal ∧ (anyOf ps).Normal) ∧
    (∀ p q : Predicate, p.Normal → q.Normal → (p.and q).Normal) ∧
    ∀ (truth : Leaf → Prop) (ps : List Predicate),
      ((allOf ps).Holds truth ↔ ∀ p ∈ ps, p.Holds truth) ∧
        ((anyOf ps).Holds truth ↔ ps = [] ∨ ∃ p ∈ ps, p.Holds truth) := by
  refine ⟨fun f path p h => Filter.normal_compileAt h,
    fun fragment column => fragment.normal_bind column,
    fun schema entity source relation p h => relation.normal_link h,
    fun schema entity source relation p h => Schema.normal_link h,
    fun schema entity sources relation p h => Schema.normal_linkAny h,
    fun ps h => ⟨normal_allOf h, normal_anyOf h⟩, fun p q hp hq => ?_,
    fun truth ps => ⟨holds_allOf, holds_anyOf_iff⟩⟩
  refine normal_allOf fun r hr => ?_
  rcases List.mem_pair.1 hr with rfl | rfl
  · exact hp
  · exact hq

end Predicate

/-- The condition on the lines of these orders. -/
def linesOfTwo : Predicate :=
  .any
    [.all [.compare (.ofField "orderShop") .eq (.str "north"),
        .compare (.ofField "orderNumber") .eq (.int 7)],
      .all [.compare (.ofField "orderShop") .eq (.str "north"),
        .compare (.ofField "orderNumber") .eq (.int 8)]]

namespace Predicate

/-- A filter, a link for two orders of which one comes twice, and alternatives that are not
simplified. -/
theorem simplified_normal_orders :
    (∃ p, Filter.publicPosts.compile = .ok p ∧ p.Normal) ∧
    (shops.linkAny "Order" [seventhOrder, eighthOrder, seventhOrder] "lines" =
      .ok (some linesOfTwo) ∧ linesOfTwo.Normal) ∧
    ∀ truth, ¬(anyOf [any [], all [any []]]).Holds truth := by
  obtain ⟨hcompile, -, -, -, hlink, -, -, hholds⟩ := simplified_normal
  have hlines : shops.linkAny "Order" [seventhOrder, eighthOrder, seventhOrder] "lines" =
      .ok (some linesOfTwo) := rfl
  refine ⟨⟨_, rfl, hcompile Filter.publicPosts [] _ rfl⟩,
    ⟨hlines, hlink shops "Order" _ "lines" _ hlines⟩, fun truth h => ?_⟩
  rcases (hholds truth _).2.1 h with hnil | ⟨p, hp, hsome⟩
  · cases hnil
  · rcases List.mem_pair.1 hp with rfl | rfl
    · simp at hsome
    · simp at hsome

end Predicate

end EntityQuery
