import EntityQuery.Filter.Compile
import EntityQuery.Proofs.Answer
import EntityQuery.Proofs.Pairing
import EntityQuery.Proofs.Predicate.Leaves

/-!
# What a compiled filter is made of

A filter compiles exactly when each of its parts does, and its predicate is put together from theirs
part by part (`compileAt_eq_ok`, `compileComparisons_eq_ok`). Statements about all filters are
proved by induction on the parts (`partsInduction`): lists of filters and filters behind relations
are smaller than the filter they stand in.

Every comparison of a compiled predicate comes from one of the filter
(`exists_compilesTo_of_mem_leaves`), so its operand has the shape that its comparator asks for
(`takes_of_mem_leaves`), and without relations it stands on a column of the entity itself.
-/

namespace EntityQuery.Filter

/-! ## Induction on the parts of a filter -/

mutual

/-- What holds of a filter whenever it holds of the filters in its lists and behind its relations
holds of all filters. -/
@[elab_as_elim]
theorem partsInduction {motive : Filter → Prop}
    (node : ∀ (all any : List Filter) (fields : List (String × FieldFilter)),
      (∀ f ∈ all, motive f) → (∀ f ∈ any, motive f) →
      (∀ name sub, (name, FieldFilter.relation sub) ∈ fields → motive sub) →
      motive (.node all any fields)) : ∀ f : Filter, motive f
  | .node all any fields =>
    node all any fields (partsInduction_list node all) (partsInduction_list node any)
      (partsInduction_fields node fields)

theorem partsInduction_list {motive : Filter → Prop}
    (node : ∀ (all any : List Filter) (fields : List (String × FieldFilter)),
      (∀ f ∈ all, motive f) → (∀ f ∈ any, motive f) →
      (∀ name sub, (name, FieldFilter.relation sub) ∈ fields → motive sub) →
      motive (.node all any fields)) : ∀ fs : List Filter, ∀ f ∈ fs, motive f
  | f :: fs, g, hg => by
    cases hg with
    | head => exact partsInduction node f
    | tail _ hg => exact partsInduction_list node fs g hg

theorem partsInduction_fields {motive : Filter → Prop}
    (node : ∀ (all any : List Filter) (fields : List (String × FieldFilter)),
      (∀ f ∈ all, motive f) → (∀ f ∈ any, motive f) →
      (∀ name sub, (name, FieldFilter.relation sub) ∈ fields → motive sub) →
      motive (.node all any fields)) :
    ∀ (fields : List (String × FieldFilter)) (name : String) (sub : Filter),
      (name, FieldFilter.relation sub) ∈ fields → motive sub
  | (_, .relation f) :: rest, name, sub, h => by
    cases h with
    | head => exact partsInduction node f
    | tail _ h => exact partsInduction_fields node rest name sub h
  | (_, .comparisons _) :: rest, name, sub, h => by
    cases h with
    | tail _ h => exact partsInduction_fields node rest name sub h

end

/-! ## Compiling part by part -/

theorem compileList_eq_mapM (fs : List Filter) (path : List String) :
    compileList fs path = fs.mapM (compileAt · path) := by
  induction fs with
  | nil => rfl
  | cons f fs ih =>
    rw [compileList, List.mapM_cons, ih]

theorem compileFields_eq_mapM (fields : List (String × FieldFilter)) (path : List String) :
    compileFields fields path = fields.mapM fun entry => compileEntry entry.2 path entry.1 := by
  induction fields with
  | nil => rfl
  | cons entry rest ih =>
    rw [compileFields, List.mapM_cons, ih]

/-- A filter compiles when its lists and entries do, to the conjunction of the three groups. -/
theorem compileAt_eq_ok {all any : List Filter} {fields : List (String × FieldFilter)}
    {path : List String} {p : Predicate} :
    compileAt (.node all any fields) path = .ok p ↔
      ∃ ps qs rs, List.Forall₂ (fun f p => f.compileAt path = .ok p) all ps ∧
        List.Forall₂ (fun f p => f.compileAt path = .ok p) any qs ∧
        List.Forall₂ (fun entry p => compileEntry entry.2 path entry.1 = .ok p) fields rs ∧
        p = .allOf (.allOf ps :: .anyOf qs :: rs) := by
  rw [compileAt]
  simp only [Answer.bind_eq_ok, Answer.pure_eq, Except.ok.injEq, compileList_eq_mapM,
    compileFields_eq_mapM, Answer.mapM_eq_ok]
  constructor
  · rintro ⟨ps, hps, qs, hqs, rs, hrs, rfl⟩
    exact ⟨ps, qs, rs, hps, hqs, hrs, rfl⟩
  · rintro ⟨ps, qs, rs, hps, hqs, hrs, rfl⟩
    exact ⟨ps, hps, qs, hqs, rs, hrs, rfl⟩

/-- What a comparison with a known operator and a fitting operand comes to on a column. -/
def CompilesTo (column : Column) (c : Comparison) (p : Predicate) : Prop :=
  ∃ op, Operator.ofName? c.operator = some op ∧ op.fault? c.operand = none ∧
    p = (op.fragment c.operand).bind column

theorem ofComparison_eq_ok {operator : String} {operand : Json} {fragment : Fragment} :
    Fragment.ofComparison operator operand = .ok fragment ↔
      ∃ op, Operator.ofName? operator = some op ∧ op.fault? operand = none ∧
        fragment = op.fragment operand := by
  rw [Fragment.ofComparison, Operator.named]
  cases Operator.ofName? operator with
  | none => simp
  | some op => cases hf : op.fault? operand <;> simp [Operator.check, hf, eq_comm]

theorem bind_ofComparison_eq_ok {column : Column} {c : Comparison} {p : Predicate} :
    (Fragment.ofComparison c.operator c.operand >>= fun fragment => .ok (fragment.bind column)) =
      .ok p ↔ CompilesTo column c p := by
  simp only [Answer.bind_eq_ok, Except.ok.injEq, ofComparison_eq_ok, CompilesTo]
  constructor
  · rintro ⟨_, ⟨op, hop, hfault, rfl⟩, rfl⟩
    exact ⟨op, hop, hfault, rfl⟩
  · rintro ⟨op, hop, hfault, rfl⟩
    exact ⟨_, ⟨op, hop, hfault, rfl⟩, rfl⟩

theorem compileComparisons_eq_ok {column : Column} {cs : List Comparison} {p : Predicate} :
    compileComparisons column cs = .ok p ↔
      ∃ ps, List.Forall₂ (CompilesTo column) cs ps ∧ p = .allOf ps := by
  rw [compileComparisons, Answer.bind_eq_ok]
  simp only [Answer.mapM_eq_ok, bind_ofComparison_eq_ok, Answer.pure_eq, Except.ok.injEq,
    eq_comm (b := p)]

/-! ## Filters without relations -/

/-- No part of the filter asks for an entity behind a relation. -/
inductive Flat : Filter → Prop
  | node {all any : List Filter} {fields : List (String × FieldFilter)} :
    (∀ f ∈ all, Flat f) → (∀ f ∈ any, Flat f) →
    (∀ name sub, (name, FieldFilter.relation sub) ∉ fields) → Flat (.node all any fields)

/-! ## Where the comparisons of a predicate come from -/

/-- Every comparison of a compiled predicate is part of what some comparison of the filter comes to,
on a column of the entity itself when there are no relations. -/
theorem exists_compilesTo_of_mem_leaves {f : Filter} : ∀ {path : List String} {p : Predicate},
    f.compileAt path = .ok p → ∀ leaf ∈ p.leaves,
      ∃ column c q, CompilesTo column c q ∧ leaf ∈ q.leaves ∧ (f.Flat → column.path = path) := by
  induction f using partsInduction with
  | node all any fields hall hany hfields =>
    intro path p h leaf hleaf
    obtain ⟨ps, qs, rs, hps, hqs, hrs, rfl⟩ := compileAt_eq_ok.1 h
    obtain ⟨q, hq, hleaf⟩ := Predicate.mem_leaves_allOf.1 hleaf
    rcases List.mem_cons.1 hq with rfl | hq
    · obtain ⟨r, hr, hleaf⟩ := Predicate.mem_leaves_allOf.1 hleaf
      obtain ⟨g, hg, hcompile⟩ := Pairing.exists_of_mem_right hps hr
      obtain ⟨column, c, q, hc, hq, hflat⟩ := hall g hg hcompile leaf hleaf
      exact ⟨column, c, q, hc, hq, fun | .node hf _ _ => hflat (hf g hg)⟩
    rcases List.mem_cons.1 hq with rfl | hq
    · obtain ⟨r, hr, hleaf⟩ := Predicate.mem_leaves_anyOf hleaf
      obtain ⟨g, hg, hcompile⟩ := Pairing.exists_of_mem_right hqs hr
      obtain ⟨column, c, q, hc, hq, hflat⟩ := hany g hg hcompile leaf hleaf
      exact ⟨column, c, q, hc, hq, fun | .node _ hf _ => hflat (hf g hg)⟩
    obtain ⟨⟨field, entry⟩, hentry, hcompile⟩ := Pairing.exists_of_mem_right hrs hq
    cases entry with
    | comparisons list =>
      obtain ⟨parts, hparts, rfl⟩ := compileComparisons_eq_ok.1 hcompile
      obtain ⟨part, hpart, hleaf⟩ := Predicate.mem_leaves_allOf.1 hleaf
      obtain ⟨c, _, hc⟩ := Pairing.exists_of_mem_right hparts hpart
      exact ⟨⟨path, field⟩, c, part, hc, hleaf, fun _ => rfl⟩
    | relation sub =>
      obtain ⟨column, c, q, hc, hq, _⟩ := hfields field sub hentry hcompile leaf hleaf
      exact ⟨column, c, q, hc, hq, fun | .node _ _ hnone => absurd hentry (hnone field sub)⟩

/-- The shapes of operand that a comparator is used with. -/
def Takes : Comparator → Json → Prop
  | .like, value | .notLike, value | .iLike, value | .notILike, value => ∃ text, value = .str text
  | .oneOf, value | .noneOf, value => ∃ items, value = .arr items
  | .is, value | .isNot, value => value = .null ∨ ∃ b, value = .bool b
  | _, _ => True

theorem takes_of_fragment {op : Operator} {operand value : Json} {comparator : Comparator}
    (hfault : op.fault? operand = none)
    (hfragment : op.fragment operand = .compare comparator value) : Takes comparator value := by
  cases op with
  | like | notLike | iLike | notILike =>
    cases hfragment
    cases operand with
    | str text => exact ⟨text, rfl⟩
    | _ => cases hfault
  | oneOf | noneOf =>
    cases hfragment
    cases operand with
    | arr items => exact ⟨items, rfl⟩
    | _ => cases hfault
  | is | isNot =>
    cases hfragment
    cases operand with
    | null => exact Or.inl rfl
    | bool b => exact Or.inr ⟨b, rfl⟩
    | _ => cases hfault
  | between | notBetween => cases hfragment
  | _ =>
    cases hfragment
    trivial

/-- A comparison stands on the column it was bound to, with an operand that was accepted. -/
theorem takes_of_compilesTo {column : Column} {c : Comparison} {p : Predicate}
    (h : CompilesTo column c p) {leaf : Predicate.Leaf} (hleaf : leaf ∈ p.leaves) :
    leaf.column = column ∧ Takes leaf.op leaf.value := by
  obtain ⟨op, _, hfault, rfl⟩ := h
  cases op with
  | between =>
    rw [Operator.fragment, Fragment.bind] at hleaf
    obtain ⟨q, hq, hleaf⟩ := Predicate.mem_leaves_allOf.1 hleaf
    simp only [Fragment.bindList, Fragment.bind, List.mem_cons, List.not_mem_nil, or_false] at hq
    rcases hq with rfl | rfl <;> cases List.mem_singleton.1 hleaf <;> exact ⟨rfl, trivial⟩
  | notBetween =>
    rw [Operator.fragment, Fragment.bind] at hleaf
    obtain ⟨q, hq, hleaf⟩ := Predicate.mem_leaves_anyOf hleaf
    simp only [Fragment.bindList, Fragment.bind, List.mem_cons, List.not_mem_nil, or_false] at hq
    rcases hq with rfl | rfl <;> cases List.mem_singleton.1 hleaf <;> exact ⟨rfl, trivial⟩
  | _ =>
    cases List.mem_singleton.1 hleaf
    exact ⟨rfl, takes_of_fragment hfault rfl⟩

theorem takes_of_mem_leaves {f : Filter} {path : List String} {p : Predicate}
    (h : f.compileAt path = .ok p) (hflat : f.Flat) {leaf : Predicate.Leaf}
    (hleaf : leaf ∈ p.leaves) : leaf.column.path = path ∧ Takes leaf.op leaf.value := by
  obtain ⟨column, c, q, hc, hq, hpath⟩ := exists_compilesTo_of_mem_leaves h leaf hleaf
  obtain ⟨rfl, htakes⟩ := takes_of_compilesTo hc hq
  exact ⟨hpath hflat, htakes⟩

end EntityQuery.Filter
