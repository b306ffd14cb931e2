import EntityQuery.Proofs.Filter.Compiling
import EntityQuery.Proofs.Filter.Deciding

/-!
# Combined filters

Filters are put together in memory before they are compiled or decided: two are merged, several are
joined, a comparison or a relation is added to one. What a combination compiles to is the
combination of what its parts compile to, and it holds of a record as the parts do together, with
the first part that is refused deciding the error (`combined_filters`). An added comparison may be
put among those of an entry in the middle of the filter. It is then reached before the entries
behind it, so which of two faults is reported would differ; one of the two sides has to be
acceptable there.
-/

namespace EntityQuery

/-! ## Predicates that always hold in a conjunction -/

namespace Predicate

theorem allOf_singleton (p : Predicate) : allOf [p] = p := by
  cases p <;> rfl

theorem always_and (p : Predicate) : always.and p = p := allOf_singleton p

theorem and_always (p : Predicate) : p.and always = p := by
  cases p <;> rfl

end Predicate

namespace Filter

/-! ## Lists of filters -/

theorem compile_allOf (fs : List Filter) :
    (allOf fs).compile = Predicate.allOf <$> fs.mapM compile := by
  show (allOf fs).compileAt [] = Predicate.allOf <$> fs.mapM (compileAt · [])
  rw [allOf, compileAt, compileList_eq_mapM]
  cases fs.mapM (compileAt · []) with
  | error e => rfl
  | ok ps => exact congrArg Except.ok (Predicate.and_always (.allOf ps))

theorem compile_anyOf (fs : List Filter) :
    (anyOf fs).compile = Predicate.anyOf <$> fs.mapM compile := by
  show (anyOf fs).compileAt [] = Predicate.anyOf <$> fs.mapM (compileAt · [])
  rw [anyOf, compileAt, compileList_eq_mapM fs]
  cases fs.mapM (compileAt · []) with
  | error e => rfl
  | ok ps => exact congrArg Except.ok (Predicate.always_and (.anyOf ps))

theorem mapM_accepts (fs : List Filter) (record : Json) :
    fs.mapM (accepts · record) = checkList fs >>= fun _ => .ok (fs.map (decides · record)) := by
  induction fs with
  | nil => rfl
  | cons f fs ih =>
    rw [List.mapM_cons, ih, accepts_eq, checkList]
    cases f.check with
    | error e => rfl
    | ok _ => cases checkList fs <;> rfl

theorem check_allOf (fs : List Filter) : (allOf fs).check = checkList fs := by
  rw [allOf, check]
  cases checkList fs <;> rfl

theorem check_anyOf (fs : List Filter) : (anyOf fs).check = checkList fs := by
  rw [anyOf, check, checkList]
  cases checkList fs <;> rfl

theorem accepts_allOf (fs : List Filter) (record : Json) :
    (allOf fs).accepts record = (List.all · id) <$> fs.mapM (accepts · record) := by
  have hdecides : (allOf fs).decides record = (fs.map (decides · record)).all id := by
    rw [allOf, decides_node, List.all_map]
    simp
  rw [accepts_eq, check_allOf, hdecides, mapM_accepts]
  cases checkList fs <;> rfl

theorem accepts_anyOf (fs : List Filter) (record : Json) :
    (anyOf fs).accepts record =
      (fun verdicts => verdicts.isEmpty || verdicts.any id) <$> fs.mapM (accepts · record) := by
  have hdecides : (anyOf fs).decides record =
      ((fs.map (decides · record)).isEmpty || (fs.map (decides · record)).any id) := by
    rw [anyOf, decides_node, List.any_map, List.isEmpty_map]
    simp
  rw [accepts_eq, check_anyOf, hdecides, mapM_accepts]
  cases checkList fs <;> rfl

/-! ## Two filters -/

theorem eq_empty_of_isEmpty {f : Filter} (h : f.isEmpty = true) : f = empty := by
  obtain ⟨all, any, fields⟩ := f
  simp only [isEmpty, Filter.all, Filter.any, Filter.fields, Bool.and_eq_true,
    List.isEmpty_iff] at h
  obtain ⟨⟨rfl, rfl⟩, rfl⟩ := h
  rfl

theorem compile_merge (f g : Filter) :
    (merge f g).compile = Predicate.and <$> f.compile <*> g.compile := by
  unfold merge
  split
  · next hf =>
    obtain rfl := eq_empty_of_isEmpty hf
    cases hg : g.compile with
    | error e => rfl
    | ok q => exact congrArg Except.ok (Predicate.always_and q).symm
  · split
    · next hg =>
      obtain rfl := eq_empty_of_isEmpty hg
      cases hf : f.compile with
      | error e => rfl
      | ok p => exact congrArg Except.ok (Predicate.and_always p).symm
    · rw [compile_allOf, List.mapM_cons, List.mapM_cons, List.mapM_nil]
      cases f.compile with
      | error e => rfl
      | ok p => cases g.compile <;> rfl

theorem accepts_empty (record : Json) : empty.accepts record = .ok true := rfl

theorem accepts_merge (f g : Filter) (record : Json) :
    (merge f g).accepts record = (· && ·) <$> f.accepts record <*> g.accepts record := by
  unfold merge
  split
  · next hf =>
    obtain rfl := eq_empty_of_isEmpty hf
    rw [accepts_empty]
    cases g.accepts record <;> rfl
  · split
    · next hg =>
      obtain rfl := eq_empty_of_isEmpty hg
      rw [accepts_empty]
      cases f.accepts record with
      | error e => rfl
      | ok verdict => exact congrArg Except.ok (Bool.and_true verdict).symm
    · rw [accepts_allOf, List.mapM_cons, List.mapM_cons, List.mapM_nil]
      cases f.accepts record with
      | error e => rfl
      | ok x =>
        cases g.accepts record with
        | error e => rfl
        | ok y => exact congrArg (fun verdict => Except.ok (x && verdict)) (Bool.and_true y)

/-! ## Entries -/

theorem checkFields_single (name : String) (entry : FieldFilter) :
    checkFields [(name, entry)] = checkEntry entry := by
  rw [checkFields, checkFields]
  cases checkEntry entry <;> rfl

theorem checkFields_append (xs ys : List (String × FieldFilter)) :
    checkFields (xs ++ ys) = checkFields xs >>= fun _ => checkFields ys := by
  induction xs with
  | nil => rfl
  | cons x xs ih =>
    obtain ⟨name, entry⟩ := x
    rw [List.cons_append, checkFields, checkFields, ih]
    cases checkEntry entry <;> rfl

theorem decidesFields_append (xs ys : List (String × FieldFilter)) (record : Json) :
    decidesFields (xs ++ ys) record = (decidesFields xs record && decidesFields ys record) := by
  rw [decidesFields_eq, decidesFields_eq, decidesFields_eq, List.all_append]

theorem decidesFields_single (name : String) (entry : FieldFilter) (record : Json) :
    decidesFields [(name, entry)] record = decidesEntry entry (record.getOrNull name) :=
  Bool.and_true _

/-! ## One comparison more -/

section Comparisons

variable {field : String} {c : Comparison} {fields added : List (String × FieldFilter)}

/-- A comparison becomes an entry behind the others, or the last one of an entry of its field. -/
inductive Adds (field : String) (c : Comparison) :
    List (String × FieldFilter) → List (String × FieldFilter) → Prop
  | behind (fields : List (String × FieldFilter)) :
    Adds field c fields (fields ++ [(field, .comparisons [c])])
  | among (before : List (String × FieldFilter)) (list : List Comparison)
      (after : List (String × FieldFilter)) :
    Adds field c (before ++ (field, .comparisons list) :: after)
      (before ++ (field, .comparisons (list ++ [c])) :: after)

theorem Adds.cons (entry : String × FieldFilter) (h : Adds field c fields added) :
    Adds field c (entry :: fields) (entry :: added) := by
  cases h with
  | behind => exact .behind (entry :: fields)
  | among before list after => exact .among (entry :: before) list after

theorem adds_addComparison (field : String) (c : Comparison)
    (fields : List (String × FieldFilter)) :
    Adds field c fields (addComparison field c fields) := by
  induction fields with
  | nil => exact .behind []
  | cons entry rest ih =>
    obtain ⟨name, entry⟩ := entry
    cases entry with
    | comparisons list =>
      rw [addComparison]
      split
      · next hname =>
        subst hname
        exact .among [] list rest
      · exact ih.cons _
    | relation sub =>
      rw [addComparison]
      · exact ih.cons _
      · exact nofun

theorem checkComparisons_append (cs ds : List Comparison) :
    checkComparisons (cs ++ ds) = checkComparisons cs >>= fun _ => checkComparisons ds := by
  induction cs with
  | nil => rfl
  | cons c cs ih =>
    rw [List.cons_append, checkComparisons_cons, checkComparisons_cons, ih]
    cases (Fragment.ofComparison c.operator c.operand).outcome <;> rfl

/-- An acceptable comparison is not noticed by the check, wherever it is put. -/
theorem Adds.checkFields_eq (h : Adds field c fields added)
    (hc : checkComparisons [c] = .ok ()) : checkFields added = checkFields fields := by
  cases h with
  | behind =>
    have hadded : checkEntry (.comparisons [c]) = .ok () := hc
    rw [checkFields_append, checkFields_single, hadded]
    cases checkFields fields <;> rfl
  | among before list after =>
    have hentry : checkEntry (.comparisons (list ++ [c])) = checkEntry (.comparisons list) := by
      show checkComparisons (list ++ [c]) = checkComparisons list
      rw [checkComparisons_append, hc]
      cases checkComparisons list <;> rfl
    rw [checkFields_append, checkFields_append, checkFields, checkFields, hentry]

/-- Among acceptable entries nothing but the added comparison can be refused. -/
theorem Adds.checkFields_of_ok (h : Adds field c fields added)
    (hfields : checkFields fields = .ok ()) : checkFields added = checkComparisons [c] := by
  cases h with
  | behind =>
    rw [checkFields_append, checkFields_single, hfields]
    rfl
  | among before list after =>
    rw [checkFields_append, Answer.seq_eq_ok, checkFields_cons_eq_ok] at hfields
    obtain ⟨hbefore, hlist, hafter⟩ := hfields
    have hlist : checkComparisons list = .ok () := hlist
    have hentry : checkEntry (.comparisons (list ++ [c])) = checkComparisons [c] := by
      show checkComparisons (list ++ [c]) = _
      rw [checkComparisons_append, hlist]
      rfl
    rw [checkFields_append, checkFields, hbefore, hentry, hafter]
    cases checkComparisons [c] <;> rfl

theorem Adds.decidesFields_eq (h : Adds field c fields added) (record : Json) :
    decidesFields added record =
      (decidesFields fields record && decidesComparison c (record.getOrNull field)) := by
  have hadded : decidesEntry (.comparisons [c]) (record.getOrNull field) =
      decidesComparison c (record.getOrNull field) := Bool.and_true _
  cases h with
  | behind => rw [decidesFields_append, decidesFields_single, hadded]
  | among before list after =>
    -- the entry is one of the same field, so its comparisons are made with the same value
    have hentry : decidesEntry (.comparisons (list ++ [c])) (record.getOrNull field) =
        (decidesEntry (.comparisons list) (record.getOrNull field) &&
          decidesComparison c (record.getOrNull field)) := by
      rw [← hadded]
      exact List.all_append
    rw [decidesFields_append, decidesFields_append, decidesFields, decidesFields, hentry,
      Bool.and_right_comm]
    simp only [Bool.and_assoc]

end Comparisons

theorem check_compare_empty (field operator : String) (operand : Json) :
    (empty.compare field operator operand).check = checkComparisons [⟨operator, operand⟩] :=
  checkFields_single field (.comparisons [⟨operator, operand⟩])

/-- A filter of one fitting comparison compiles to what this comes to on the field's column. -/
theorem compile_compare_empty {operator : String} {op : Operator} {operand : Json}
    (hname : Operator.ofName? operator = some op) (hfits : op.fault? operand = none)
    (field : String) :
    (empty.compare field operator operand).compile =
      .ok ((op.fragment operand).bind ⟨[], field⟩) := by
  have hentry : compileComparisons ⟨[], field⟩ [⟨operator, operand⟩] =
      .ok ((op.fragment operand).bind ⟨[], field⟩) :=
    compileComparisons_eq_ok.2 ⟨[_], .cons ⟨op, hname, hfits, rfl⟩ .nil,
      (Predicate.allOf_singleton _).symm⟩
  show compileAt (node [] [] [(field, .comparisons [⟨operator, operand⟩])]) [] = _
  rw [compileAt, compileFields, compileEntry, hentry]
  exact congrArg Except.ok (Predicate.always_and _)

theorem decides_compare_empty (field operator : String) (operand record : Json) :
    (empty.compare field operator operand).decides record =
      decidesComparison ⟨operator, operand⟩ (record.getOrNull field) := by
  rw [compare, decides, empty, Filter.fields, (adds_addComparison ..).decidesFields_eq]
  rfl

theorem decides_compare (f : Filter) (field operator : String) (operand record : Json) :
    (f.compare field operator operand).decides record =
      (f.decides record && (empty.compare field operator operand).decides record) := by
  obtain ⟨all, any, fields⟩ := f
  rw [decides_compare_empty, compare, decides, decides, Filter.fields,
    (adds_addComparison ..).decidesFields_eq, ← Bool.and_assoc]
  rfl

/-- A filter of one fitting comparison accepts the records whose value compares so. -/
theorem accepts_compare_empty {operator : String} {op : Operator} {operand : Json}
    (hname : Operator.ofName? operator = some op) (hfits : op.fault? operand = none)
    (field : String) (record : Json) :
    (empty.compare field operator operand).accepts record =
      .ok (compares op operand (record.getOrNull field)) := by
  have hcheck : checkComparisons [⟨operator, operand⟩] = .ok () :=
    checkComparisons_cons_eq_ok.2 ⟨⟨op, hname, hfits⟩, rfl⟩
  rw [accepts_eq, check_compare_empty, hcheck, decides_compare_empty, decidesComparison, hname]
  rfl

/-- A comparison is asked for in addition, wherever it is put. -/
theorem accepts_compare {f : Filter} {field operator : String} {operand : Json}
    (h : (∃ p, f.compile = .ok p) ∨ ∃ q, (empty.compare field operator operand).compile = .ok q)
    (record : Json) : (f.compare field operator operand).accepts record =
      (· && ·) <$> f.accepts record <*> (empty.compare field operator operand).accepts record := by
  rw [← check_eq_ok_iff, ← check_eq_ok_iff, check_compare_empty] at h
  rw [accepts_eq, accepts_eq, accepts_eq, decides_compare, check_compare_empty]
  obtain ⟨all, any, fields⟩ := f
  rcases h with hf | hc
  · obtain ⟨hall, hany, hfields⟩ := check_node_eq_ok.1 hf
    have hcheck : ((node all any fields).compare field operator operand).check =
        checkComparisons [⟨operator, operand⟩] := by
      rw [compare, check, Filter.all, Filter.any, Filter.fields, hall, hany,
        (adds_addComparison ..).checkFields_of_ok hfields]
      rfl
    rw [hf, hcheck]
    cases checkComparisons [⟨operator, operand⟩] <;> rfl
  · have hcheck : ((node all any fields).compare field operator operand).check =
        (node all any fields).check := by
      rw [compare, check, check, Filter.all, Filter.any, Filter.fields,
        (adds_addComparison ..).checkFields_eq hc]
    rw [hc, hcheck]
    cases (node all any fields).check <;> rfl

/-! ## One relation more -/

theorem accepts_relation (f : Filter) (name : String) (sub : Filter) (record : Json) :
    (f.relation name sub).accepts record =
      (· && ·) <$> f.accepts record <*> (empty.relation name sub).accepts record := by
  obtain ⟨all, any, fields⟩ := f
  have hdecides : ((node all any fields).relation name sub).decides record =
      ((node all any fields).decides record && (empty.relation name sub).decides record) := by
    rw [relation, decides, Filter.fields, decidesFields_append, ← Bool.and_assoc]
    rfl
  have hcheck : ((node all any fields).relation name sub).check =
      (node all any fields).check >>= fun _ => (empty.relation name sub).check := by
    rw [relation, check, check, Filter.all, Filter.any, Filter.fields, checkFields_append]
    cases checkList all with
    | error e => rfl
    | ok _ => cases checkList any <;> rfl
  rw [accepts_eq, accepts_eq, accepts_eq, hdecides, hcheck]
  cases (node all any fields).check with
  | error e => rfl
  | ok _ => cases (empty.relation name sub).check <;> rfl

/-! ## Combinations -/

/-- **Filters combine as their predicates and verdicts do.** Merged and joined filters compile to
the conjunction or disjunction of what their parts compile to and accept what these accept together
or one of them does, where no alternatives accept everything; the first part that is refused gives
the error. What is added to a filter is asked for in addition. -/
theorem combined_filters (record : Json) :
    (∀ (f : Filter) p, f.compile = .ok p → ∃ verdict, f.accepts record = .ok verdict) ∧
    (∀ f g, (merge f g).compile = Predicate.and <$> f.compile <*> g.compile ∧
      (merge f g).accepts record = (· && ·) <$> f.accepts record <*> g.accepts record) ∧
    (∀ fs, (allOf fs).compile = Predicate.allOf <$> fs.mapM compile ∧
      (allOf fs).accepts record = (List.all · id) <$> fs.mapM (accepts · record)) ∧
    (∀ fs, (anyOf fs).compile = Predicate.anyOf <$> fs.mapM compile ∧
      (anyOf fs).accepts record =
        (fun verdicts => verdicts.isEmpty || verdicts.any id) <$> fs.mapM (accepts · record)) ∧
    (∀ (f : Filter) field operator operand, (∃ p, f.compile = .ok p) ∨
        (∃ q, (empty.compare field operator operand).compile = .ok q) →
      (f.compare field operator operand).accepts record =
        (· && ·) <$> f.accepts record
          <*> (empty.compare field operator operand).accepts record) ∧
    ∀ (f : Filter) name sub, (f.relation name sub).accepts record =
      (· && ·) <$> f.accepts record <*> (empty.relation name sub).accepts record :=
  ⟨fun f _ h => ⟨decides f record, accepts_of_compile h record⟩,
    fun f g => ⟨compile_merge f g, accepts_merge f g record⟩,
    fun fs => ⟨compile_allOf fs, accepts_allOf fs record⟩,
    fun fs => ⟨compile_anyOf fs, accepts_anyOf fs record⟩,
    fun _ _ _ _ h => accepts_compare h record,
    fun f name sub => accepts_relation f name sub record⟩

/-- Posts of ann with some score that are not closed. -/
def unclosedPostsOfAnn : Filter :=
  .node [] []
    [("author", .relation (.node [] [] [("name", .comparisons [⟨"eq", .str "ann"⟩])])),
      ("status", .comparisons [⟨"neq", .str "closed"⟩]),
      ("score", .comparisons [⟨"isNot", .null⟩])]

/-- A post of ann that is not finished. -/
def draftOfAnn : Json :=
  .obj [("author", .obj [("name", .str "ann")]), ("score", .int 0), ("status", .str "draft")]

/-- The draft is accepted until drafts are refused too, which is written into the entry in the
middle; of two faults the one on the left is reported. -/
theorem combined_filters_drafts :
    (∃ p, unclosedPostsOfAnn.compile = .ok p) ∧
    unclosedPostsOfAnn.accepts draftOfAnn = .ok true ∧
    (unclosedPostsOfAnn.compare "status" "neq" (.str "draft")).accepts draftOfAnn = .ok false ∧
    (unclosedPostsOfAnn.compare "status" "neq" (.str "draft")).fields.length = 3 ∧
    (merge (empty.compare "status" "near" .null) (empty.compare "status" "in" .null)).accepts
      draftOfAnn = .error (.unknownOperator "near") := by
  obtain ⟨-, hmerge, -, -, hcompare, -⟩ := combined_filters draftOfAnn
  have hcompiles : ∃ p, unclosedPostsOfAnn.compile = .ok p := ⟨_, rfl⟩
  refine ⟨hcompiles, rfl, ?_, rfl, ?_⟩
  · rw [hcompare unclosedPostsOfAnn "status" "neq" (.str "draft") (.inl hcompiles)]
    rfl
  · rw [(hmerge _ _).2]
    rfl

end Filter

end EntityQuery
