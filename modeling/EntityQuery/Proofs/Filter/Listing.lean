import EntityQuery.Proofs.Filter.Compiling
import EntityQuery.Proofs.Predicate.Scoping

/-!
# Compiling keeps the comparisons of a filter

`Filter.leavesAt` writes down the comparisons of a filter one after the other, each on the column
that the relations around it lead to, without groups. The comparisons of the compiled predicate are
among these in the same order (`leaves_compileAt_sublist`). They are all of them unless some
alternative compiles to a predicate that always holds: the disjunction is then no restriction, and
the comparisons of its other alternatives go with it (`leaves_compileAt`). A filter behind further
relations compiles to the same predicate behind them (`compileAt_append`).
-/

namespace EntityQuery

/-! ## The comparisons of a filter in order -/

namespace Fragment

mutual

/-- The comparisons of a fragment on a column, in order. -/
def leaves (column : Column) : Fragment → List Predicate.Leaf
  | compare op value => [⟨column, op, value⟩]
  | all parts => leavesOf column parts
  | any parts => leavesOf column parts
termination_by structural fragment => fragment

/-- The comparisons of several fragments on a column, in order. -/
def leavesOf (column : Column) : List Fragment → List Predicate.Leaf
  | [] => []
  | part :: parts => part.leaves column ++ leavesOf column parts
termination_by structural parts => parts

end

end Fragment

/-- The comparisons that a requested one comes to on a column: two for a range, and none where the
request is refused. -/
def Comparison.leaves (column : Column) (c : Comparison) : List Predicate.Leaf :=
  match Fragment.ofComparison c.operator c.operand with
  | .ok fragment => fragment.leaves column
  | .error _ => []

namespace Filter

mutual

/-- The comparisons of a filter on the entities that a path leads to: those of its *all* list, of
its *any* list and of its entries, in this order. -/
def leavesAt : Filter → List String → List Predicate.Leaf
  | node all any fields, path =>
    leavesOfList all path ++ leavesOfList any path ++ leavesOfFields fields path
termination_by structural filter => filter

/-- The comparisons of several filters, in order. -/
def leavesOfList : List Filter → List String → List Predicate.Leaf
  | [], _ => []
  | f :: fs, path => f.leavesAt path ++ leavesOfList fs path
termination_by structural filters => filters

/-- The comparisons of an entry; those behind a relation have it at the end of their path. -/
def leavesOfEntry : FieldFilter → List String → String → List Predicate.Leaf
  | .comparisons list, path, field => list.flatMap (Comparison.leaves ⟨path, field⟩)
  | .relation f, path, name => f.leavesAt (path ++ [name])
termination_by structural entry => entry

/-- The comparisons of entries, in order. -/
def leavesOfFields : List (String × FieldFilter) → List String → List Predicate.Leaf
  | [], _ => []
  | (field, entry) :: rest, path => leavesOfEntry entry path field ++ leavesOfFields rest path
termination_by structural fields => fields

end

/-- No alternative at any depth compiles to a predicate that always holds. -/
inductive NoFreeAlternative : Filter → Prop
  | node {all any : List Filter} {fields : List (String × FieldFilter)} :
    (∀ f ∈ any, f.compile ≠ .ok .always) →
    (∀ f ∈ all, NoFreeAlternative f) → (∀ f ∈ any, NoFreeAlternative f) →
    (∀ name sub, (name, FieldFilter.relation sub) ∈ fields → NoFreeAlternative sub) →
    NoFreeAlternative (.node all any fields)

theorem noFreeAlternative_node {all any : List Filter} {fields : List (String × FieldFilter)} :
    NoFreeAlternative (.node all any fields) ↔
      (∀ f ∈ any, f.compile ≠ .ok .always) ∧ (∀ f ∈ all, f.NoFreeAlternative) ∧
      (∀ f ∈ any, f.NoFreeAlternative) ∧
      ∀ name sub, (name, FieldFilter.relation sub) ∈ fields → sub.NoFreeAlternative := by
  constructor
  · rintro ⟨hfree, hall, hany, hfields⟩
    exact ⟨hfree, hall, hany, hfields⟩
  · rintro ⟨hfree, hall, hany, hfields⟩
    exact .node hfree hall hany hfields

variable {path : List String}

theorem leavesOfList_eq_flatMap (fs : List Filter) :
    leavesOfList fs path = fs.flatMap (leavesAt · path) := by
  induction fs with
  | nil => rfl
  | cons f fs ih => rw [leavesOfList, ih, List.flatMap_cons]

theorem leavesOfFields_eq_flatMap (fields : List (String × FieldFilter)) :
    leavesOfFields fields path =
      fields.flatMap fun entry => leavesOfEntry entry.2 path entry.1 := by
  induction fields with
  | nil => rfl
  | cons entry rest ih => rw [leavesOfFields, ih, List.flatMap_cons]

/-! ## Compiling behind further relations -/

theorem compileComparisons_under (before : List String) (column : Column) (list : List Comparison) :
    compileComparisons (column.under before) list =
      Predicate.under before <$> compileComparisons column list := by
  rw [compileComparisons, compileComparisons]
  rw [Answer.mapM_eq_map (g := Predicate.under before)
    (h := fun c => do return (← Fragment.ofComparison c.operator c.operand).bind column)]
  · cases List.mapM (m := Except QueryError) _ list with
    | error e => rfl
    | ok parts => exact congrArg Except.ok (Predicate.under_allOf parts).symm
  · intro c _
    cases Fragment.ofComparison c.operator c.operand with
    | error e => rfl
    | ok fragment => exact congrArg Except.ok (Fragment.bind_under fragment)

/-- What a filter compiles to behind further relations is what it compiles to, behind them; it is
refused there for the same reason. -/
theorem compileAt_append (before : List String) (f : Filter) : ∀ path : List String,
    f.compileAt (before ++ path) = Predicate.under before <$> f.compileAt path := by
  induction f using partsInduction with
  | node all any fields hall hany hfields =>
    intro path
    have hentries : ∀ entry ∈ fields, compileEntry entry.2 (before ++ path) entry.1 =
        Predicate.under before <$> compileEntry entry.2 path entry.1 := by
      rintro ⟨field, entry⟩ hmem
      cases entry with
      | comparisons list => exact compileComparisons_under before ⟨path, field⟩ list
      | relation sub =>
        show sub.compileAt (before ++ path ++ [field]) = _
        rw [List.append_assoc]
        exact hfields field sub hmem (path ++ [field])
    rw [compileAt, compileAt]
    simp only [compileList_eq_mapM, compileFields_eq_mapM]
    rw [Answer.mapM_eq_map fun f hf => hall f hf path,
      Answer.mapM_eq_map fun f hf => hany f hf path, Answer.mapM_eq_map hentries]
    cases all.mapM (compileAt · path) with
    | error e => rfl
    | ok ps =>
      cases any.mapM (compileAt · path) with
      | error e => rfl
      | ok qs =>
        cases fields.mapM fun entry => compileEntry entry.2 path entry.1 with
        | error e => rfl
        | ok rs =>
          refine congrArg Except.ok ?_
          rw [Predicate.under_allOf, List.map_cons, List.map_cons, Predicate.under_allOf,
            Predicate.under_anyOf]

/-- Whether a filter is no restriction does not depend on the relations it stands behind. -/
theorem compileAt_eq_always {f : Filter} :
    f.compileAt path = .ok .always ↔ f.compile = .ok .always := by
  have happend : f.compileAt path = Predicate.under path <$> f.compile := by
    rw [compile, ← compileAt_append, List.append_nil]
  rw [happend, Answer.map_eq_ok]
  simp only [Predicate.under_eq_always, exists_eq_right]

/-! ## Compiling keeps the comparisons -/

theorem leaves_bind_fragment (op : Operator) (operand : Json) (column : Column) :
    ((op.fragment operand).bind column).leaves = (op.fragment operand).leaves column := by
  cases op <;> rfl

theorem leaves_compilesTo {column : Column} {c : Comparison} {p : Predicate}
    (h : CompilesTo column c p) : p.leaves = c.leaves column := by
  obtain ⟨op, hop, hfault, rfl⟩ := h
  rw [Comparison.leaves, ofComparison_eq_ok.2 ⟨op, hop, hfault, rfl⟩, leaves_bind_fragment]

theorem leaves_compileComparisons {column : Column} {list : List Comparison} {p : Predicate}
    (h : compileComparisons column list = .ok p) :
    p.leaves = list.flatMap (Comparison.leaves column) := by
  obtain ⟨ps, hps, rfl⟩ := compileComparisons_eq_ok.1 h
  rw [Predicate.leaves_allOf]
  exact Pairing.flatMap_eq_flatMap (hps.imp fun _ _ hc => leaves_compilesTo hc)

theorem leaves_node (ps qs rs : List Predicate) :
    (Predicate.allOf (.allOf ps :: .anyOf qs :: rs)).leaves = ps.flatMap Predicate.leaves ++
      (Predicate.anyOf qs).leaves ++ rs.flatMap Predicate.leaves := by
  rw [Predicate.leaves_allOf, List.flatMap_cons, List.flatMap_cons, Predicate.leaves_allOf,
    List.append_assoc]

/-- The comparisons of a compiled filter are among those of the filter, in the same order. -/
theorem leaves_compileAt_sublist {f : Filter} : ∀ {path : List String} {p : Predicate},
    f.compileAt path = .ok p → p.leaves.Sublist (f.leavesAt path) := by
  induction f using partsInduction with
  | node all any fields hall hany hfields =>
    intro path p h
    obtain ⟨ps, qs, rs, hps, hqs, hrs, rfl⟩ := compileAt_eq_ok.1 h
    have hps : (ps.flatMap Predicate.leaves).Sublist (all.flatMap (leavesAt · path)) :=
      Pairing.sublist_flatMap ((Pairing.with_mem hps).imp fun f _ hf => hall f hf.1 hf.2)
    have hqs : (qs.flatMap Predicate.leaves).Sublist (any.flatMap (leavesAt · path)) :=
      Pairing.sublist_flatMap ((Pairing.with_mem hqs).imp fun f _ hf => hany f hf.1 hf.2)
    have hrs : (rs.flatMap Predicate.leaves).Sublist
        (fields.flatMap fun entry => leavesOfEntry entry.2 path entry.1) := by
      refine Pairing.sublist_flatMap ((Pairing.with_mem hrs).imp ?_)
      rintro ⟨field, entry⟩ r ⟨hmem, hr⟩
      cases entry with
      | comparisons list =>
        have hkept : r.leaves = leavesOfEntry (.comparisons list) path field :=
          leaves_compileComparisons hr
        exact hkept ▸ List.Sublist.refl _
      | relation sub => exact hfields field sub hmem hr
    rw [leaves_node, leavesAt, leavesOfList_eq_flatMap, leavesOfList_eq_flatMap,
      leavesOfFields_eq_flatMap]
    exact (hps.append ((Predicate.leaves_anyOf_sublist qs).trans hqs)).append hrs

/-- Where every alternative is a restriction, no comparison is dropped. -/
theorem leaves_compileAt {f : Filter} : ∀ {path : List String} {p : Predicate},
    f.compileAt path = .ok p → f.NoFreeAlternative → p.leaves = f.leavesAt path := by
  induction f using partsInduction with
  | node all any fields hall hany hfields =>
    intro path p h hrestricts
    obtain ⟨hfree, nall, nany, nfields⟩ := noFreeAlternative_node.1 hrestricts
    obtain ⟨ps, qs, rs, hps, hqs, hrs, rfl⟩ := compileAt_eq_ok.1 h
    have hnot : Predicate.always ∉ qs := by
      intro hmem
      obtain ⟨f, hf, halways⟩ := Pairing.exists_of_mem_right hqs hmem
      exact hfree f hf (compileAt_eq_always.1 halways)
    have hps : ps.flatMap Predicate.leaves = all.flatMap (leavesAt · path) :=
      Pairing.flatMap_eq_flatMap
        ((Pairing.with_mem hps).imp fun f _ hf => hall f hf.1 hf.2 (nall f hf.1))
    have hqs : qs.flatMap Predicate.leaves = any.flatMap (leavesAt · path) :=
      Pairing.flatMap_eq_flatMap
        ((Pairing.with_mem hqs).imp fun f _ hf => hany f hf.1 hf.2 (nany f hf.1))
    have hrs : rs.flatMap Predicate.leaves =
        fields.flatMap fun entry => leavesOfEntry entry.2 path entry.1 := by
      refine Pairing.flatMap_eq_flatMap ((Pairing.with_mem hrs).imp ?_)
      rintro ⟨field, entry⟩ r ⟨hmem, hr⟩
      cases entry with
      | comparisons list => exact leaves_compileComparisons hr
      | relation sub => exact hfields field sub hmem hr (nfields field sub hmem)
    rw [leaves_node, leavesAt, leavesOfList_eq_flatMap, leavesOfList_eq_flatMap,
      leavesOfFields_eq_flatMap, Predicate.leaves_anyOf_of_not_mem hnot, hps, hqs, hrs]

/-- **Compiling loses, doubles and moves no comparison.** The comparisons of the predicate are those
of the filter in the same order, less some only where an alternative compiles to a predicate that
always holds. Behind further relations the filter compiles to the predicate behind these, or is
refused for the same reason. -/
theorem compileAt_keeps_comparisons (f : Filter) :
    (∀ path p, f.compileAt path = .ok p →
      p.leaves.Sublist (f.leavesAt path) ∧ (f.NoFreeAlternative → p.leaves = f.leavesAt path)) ∧
    ∀ before path, f.compileAt (before ++ path) = Predicate.under before <$> f.compileAt path :=
  ⟨fun _ _ h => ⟨leaves_compileAt_sublist h, leaves_compileAt h⟩,
    fun before path => compileAt_append before f path⟩

/-- Open posts, and posts of ann with a middling score, that are no drafts. -/
def ripePosts : Filter :=
  .node []
    [.node [] [] [("status", .comparisons [⟨"eq", .str "open"⟩])],
      .node [] []
        [("author", .relation (.node [] [] [("name", .comparisons [⟨"iLike", .str "ann%"⟩])])),
          ("score", .comparisons [⟨"between", .obj [("lower", .int 1), ("upper", .int 5)]⟩])]]
    [("title", .comparisons [⟨"notLike", .str "%draft%"⟩])]

/-- All five comparisons are there, behind the thread of the posts. -/
theorem compileAt_keeps_ripePosts : ripePosts.NoFreeAlternative ∧
    ∃ p, ripePosts.compileAt ["thread"] = .ok p ∧ p.leaves =
      [⟨⟨["thread"], "status"⟩, .eq, .str "open"⟩,
        ⟨⟨["thread", "author"], "name"⟩, .iLike, .str "ann%"⟩,
        ⟨⟨["thread"], "score"⟩, .gte, .int 1⟩, ⟨⟨["thread"], "score"⟩, .lte, .int 5⟩,
        ⟨⟨["thread"], "title"⟩, .notLike, .str "%draft%"⟩] := by
  have hasked : ∀ f ∈ ripePosts.any, f.compile ≠ .ok .always := by
    simp only [ripePosts, any, List.forall_mem_cons]
    exact ⟨nofun, nofun, nofun⟩
  have hfree : ripePosts.NoFreeAlternative :=
    noFreeAlternative_node.2
      ⟨hasked, by simp, by simp [noFreeAlternative_node], by simp⟩
  have hcompile : ∃ p, ripePosts.compileAt ["thread"] = .ok p := ⟨_, rfl⟩
  obtain ⟨p, hp⟩ := hcompile
  exact ⟨hfree, p, hp, ((compileAt_keeps_comparisons ripePosts).1 _ p hp).2 hfree⟩

/-- An alternative that asks for nothing takes the comparisons of the others with it. -/
example : (node [] [ripePosts, .empty] []).compile = .ok .always ∧
    ((node [] [ripePosts, .empty] []).leavesAt []).length = 5 := ⟨rfl, rfl⟩

end Filter

end EntityQuery
