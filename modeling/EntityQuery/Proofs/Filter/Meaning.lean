import EntityQuery.Proofs.Filter.Compiling
import EntityQuery.Proofs.Filter.Deciding

/-!
# What a compiled predicate means on a record

A column is read off a record by following its relations through nested objects, and a comparison is
made with the same primitives as in memory. Under this reading the predicate that a filter compiles
to holds of a record exactly when the filter does (`holdsOn_compileAt`), provided that every
relation the filter enters leads to one object: a predicate has no word for "some item of an array".
-/

namespace EntityQuery

/-- The value a record holds in a column: through its relations, then under its field. What is
absent on the way reads as null. -/
def Column.read (column : Column) (record : Json) : Json :=
  (column.path.foldl Json.getOrNull record).getOrNull column.field

/-- The comparison of a value with an operand as it is made in memory. -/
def Comparator.compares (op : Comparator) (operand actual : Json) : Bool :=
  match op with
  | .eq | .is => actual.looselyEqual operand
  | .ne | .isNot => !actual.looselyEqual operand
  | .gt => actual.greater operand
  | .gte => actual.atLeast operand
  | .lt => actual.less operand
  | .lte => actual.atMost operand
  | .like => actual.isLike operand
  | .notLike => !actual.isLike operand
  | .iLike => actual.isLikeFolded operand
  | .notILike => !actual.isLikeFolded operand
  | .oneOf => actual.isIn operand
  | .noneOf => !actual.isIn operand

namespace Predicate

/-- Whether a comparison is true of what the record holds in its column. -/
def Leaf.HoldsOn (leaf : Leaf) (record : Json) : Prop :=
  leaf.op.compares leaf.value (leaf.column.read record) = true

/-- Whether a predicate holds of a record. -/
def HoldsOn (p : Predicate) (record : Json) : Prop := p.Holds (·.HoldsOn record)

theorem holdsOn_compare {column : Column} {op : Comparator} {value record : Json} :
    (compare column op value).HoldsOn record ↔ op.compares value (column.read record) = true :=
  Iff.rfl

theorem holdsOn_allOf {ps : List Predicate} {record : Json} :
    (allOf ps).HoldsOn record ↔ ∀ p ∈ ps, p.HoldsOn record := holds_allOf

theorem holdsOn_anyOf {ps : List Predicate} (h : ps ≠ []) {record : Json} :
    (anyOf ps).HoldsOn record ↔ ∃ p ∈ ps, p.HoldsOn record := holds_anyOf h

end Predicate

namespace Filter

/-- Every relation that the filter enters leads to an object where it is entered. -/
inductive ReadsObjects : Filter → Json → Prop
  | node {all any : List Filter} {fields : List (String × FieldFilter)} {record : Json} :
    (∀ f ∈ all, ReadsObjects f record) → (∀ f ∈ any, ReadsObjects f record) →
    (∀ name sub, (name, FieldFilter.relation sub) ∈ fields →
      (record.getOrNull name).isObject = true) →
    (∀ name sub, (name, FieldFilter.relation sub) ∈ fields →
      ReadsObjects sub (record.getOrNull name)) →
    ReadsObjects (.node all any fields) record

theorem readsObjects_node {all any : List Filter} {fields : List (String × FieldFilter)}
    {record : Json} : ReadsObjects (.node all any fields) record ↔
      (∀ f ∈ all, ReadsObjects f record) ∧ (∀ f ∈ any, ReadsObjects f record) ∧
      ∀ name sub, (name, FieldFilter.relation sub) ∈ fields →
        (record.getOrNull name).isObject = true ∧ ReadsObjects sub (record.getOrNull name) := by
  constructor
  · rintro ⟨hall, hany, hobject, hsub⟩
    exact ⟨hall, hany, fun name sub h => ⟨hobject name sub h, hsub name sub h⟩⟩
  · rintro ⟨hall, hany, hfields⟩
    exact .node hall hany (fun name sub h => (hfields name sub h).1)
      (fun name sub h => (hfields name sub h).2)

/-- Without relations there is nothing to ask of the record. -/
theorem Flat.readsObjects {f : Filter} (h : f.Flat) (record : Json) : f.ReadsObjects record := by
  induction h with
  | node _ _ hnone hall hany =>
    exact .node hall hany (fun name sub hmem => absurd hmem (hnone name sub))
      (fun name sub hmem => absurd hmem (hnone name sub))

/-! ## One comparison -/

/-- A range comes to two comparisons, any other operator to one; together they hold when the
operator says so. -/
theorem holdsOn_bind_fragment (op : Operator) (operand : Json) (column : Column) (record : Json) :
    ((op.fragment operand).bind column).HoldsOn record ↔
      compares op operand (column.read record) = true := by
  cases op with
  | between =>
    rw [Operator.fragment, Fragment.bind, Predicate.holdsOn_allOf]
    simp [Fragment.bindList, Fragment.bind, Predicate.holdsOn_compare, compares,
      Comparator.compares]
  | notBetween =>
    rw [Operator.fragment, Fragment.bind, Predicate.holdsOn_anyOf (by simp [Fragment.bindList])]
    simp [Fragment.bindList, Fragment.bind, Predicate.holdsOn_compare, compares,
      Comparator.compares]
  | _ => exact Iff.rfl

theorem holdsOn_compilesTo {column : Column} {c : Comparison} {p : Predicate}
    (h : CompilesTo column c p) (record : Json) :
    p.HoldsOn record ↔ decidesComparison c (column.read record) = true := by
  obtain ⟨op, hop, -, rfl⟩ := h
  rw [holdsOn_bind_fragment, decidesComparison, hop]

theorem holdsOn_compileComparisons {column : Column} {cs : List Comparison} {p : Predicate}
    (h : compileComparisons column cs = .ok p) (record : Json) :
    p.HoldsOn record ↔ decidesEntry (.comparisons cs) (column.read record) = true := by
  obtain ⟨ps, hps, rfl⟩ := compileComparisons_eq_ok.1 h
  rw [Predicate.holdsOn_allOf, decidesEntry]
  exact Pairing.forall_iff_all (hps.imp fun _ _ hc => holdsOn_compilesTo hc record)

/-! ## Whole filters -/

theorem relatedPasses_of_isObject {test : Json → Bool} {actual : Json}
    (h : actual.isObject = true) : relatedPasses test actual = test actual := by
  cases actual with
  | obj members => rfl
  | _ => cases h

/-- The disjunction of what the alternatives compile to is no restriction when there are none. -/
theorem holdsOn_anyOf_compiled {any : List Filter} {qs : List Predicate} {record actual : Json}
    (h : List.Forall₂ (fun f q => q.HoldsOn record ↔ decides f actual = true) any qs) :
    (Predicate.anyOf qs).HoldsOn record ↔
      (any.isEmpty || any.any (decides · actual)) = true := by
  cases any with
  | nil =>
    cases h
    exact ⟨fun _ => rfl, fun _ => Predicate.holds_always⟩
  | cons f fs =>
    have hne : qs ≠ [] := by
      rintro rfl
      cases h
    rw [Predicate.holdsOn_anyOf hne, Pairing.exists_iff_any (Q := (Predicate.HoldsOn · record)) h]
    rfl

/-- The predicate of a filter holds of a record when the filter holds of what the path leads to. -/
theorem holdsOn_compileAt {f : Filter} : ∀ {path : List String} {p : Predicate} {record : Json},
    f.compileAt path = .ok p → f.ReadsObjects (path.foldl Json.getOrNull record) →
      (p.HoldsOn record ↔ f.decides (path.foldl Json.getOrNull record) = true) := by
  induction f using partsInduction with
  | node all any fields ihall ihany ihfields =>
    intro path p record hcompile hreads
    obtain ⟨ps, qs, rs, hps, hqs, hrs, rfl⟩ := compileAt_eq_ok.1 hcompile
    obtain ⟨rall, rany, rfields⟩ := readsObjects_node.1 hreads
    have hall := Pairing.forall_iff_all (Q := (Predicate.HoldsOn · record))
      ((Pairing.with_mem hps).imp fun g q hq => ihall g hq.1 hq.2 (rall g hq.1))
    have hany := holdsOn_anyOf_compiled
      ((Pairing.with_mem hqs).imp fun g q hq => ihany g hq.1 hq.2 (rany g hq.1))
    have hentry : ∀ (entry : String × FieldFilter) (r : Predicate),
        entry ∈ fields ∧ compileEntry entry.2 path entry.1 = .ok r →
        (r.HoldsOn record ↔ decidesEntry entry.2
          ((path.foldl Json.getOrNull record).getOrNull entry.1) = true) := by
      rintro ⟨field, entry⟩ r ⟨hmem, hr⟩
      cases entry with
      | comparisons list => exact holdsOn_compileComparisons hr record
      | relation sub =>
        have hsub : sub.ReadsObjects ((path ++ [field]).foldl Json.getOrNull record) →
            (r.HoldsOn record ↔
              sub.decides ((path ++ [field]).foldl Json.getOrNull record) = true) :=
          ihfields field sub hmem hr
        rw [List.foldl_append] at hsub
        obtain ⟨hobject, hreads⟩ := rfields field sub hmem
        rw [decidesEntry, relatedPasses_of_isObject hobject]
        exact hsub hreads
    have hfields := Pairing.forall_iff_all (Q := (Predicate.HoldsOn · record))
      ((Pairing.with_mem hrs).imp hentry)
    rw [Predicate.holdsOn_allOf, List.forall_mem_cons, List.forall_mem_cons,
      Predicate.holdsOn_allOf, hall, hany, hfields, decides_node]
    simp only [Bool.and_eq_true, and_assoc]

/-- **The compiled predicate means what is decided in memory.** -/
theorem accepts_iff_holdsOn {f : Filter} {p : Predicate} {record : Json}
    (hcompile : f.compile = .ok p) (hreads : f.ReadsObjects record) :
    (p.HoldsOn record → f.accepts record = .ok true) ∧
      (¬p.HoldsOn record → f.accepts record = .ok false) := by
  have hiff : p.HoldsOn record ↔ f.decides record = true :=
    @holdsOn_compileAt f [] p record hcompile hreads
  rw [accepts_of_compile hcompile, hiff]
  cases f.decides record with
  | false => simp
  | true => simp

/-- Open posts, and posts of authors of working age, that are no drafts. -/
def publicPosts : Filter :=
  .node []
    [.node [] [] [("status", .comparisons [⟨"eq", .str "open"⟩])],
      .node [] [] [("author", .relation (.node [] [] [("age", .comparisons
        [⟨"between", .obj [("lower", .int 18), ("upper", .int 65)]⟩])]))]]
    [("title", .comparisons [⟨"notLike", .str "%draft%"⟩])]

/-- A closed post of an author of working age. -/
def closedPost : Json :=
  .obj [("author", .obj [("age", .int 30)]), ("status", .str "closed"), ("title", .str "On maps")]

/-- The alternative behind the relation decides; its range has become two comparisons. -/
theorem accepts_closedPost :
    publicPosts.compile = .ok (.all
      [.any [.compare (.ofField "status") .eq (.str "open"),
        .all [.compare (.behind "author" "age") .gte (.int 18),
          .compare (.behind "author" "age") .lte (.int 65)]],
      .compare (.ofField "title") .notLike (.str "%draft%")]) ∧
    publicPosts.ReadsObjects closedPost ∧ publicPosts.accepts closedPost = .ok true := by
  have hreads : publicPosts.ReadsObjects closedPost := by
    simp [publicPosts, readsObjects_node]
    rfl
  refine ⟨rfl, hreads, ?_⟩
  apply (accepts_iff_holdsOn rfl hreads).1
  exact ⟨Or.inr (Or.inl ⟨rfl, rfl, trivial⟩), rfl, trivial⟩

end Filter

end EntityQuery
