import EntityQuery.Proofs.Filter.Checking

/-!
# What evaluation answers

`decides` says of every filter and record whether the filter holds, without errors and without an
order: all of a list, some of a list, every entry. The evaluation stops early and may fail on the
way; once a filter has passed its check it answers exactly what `decides` says
(`evaluate_of_check`). With checking being compiling, the store and the memory fail alike
(`compile_and_accepts_fail_alike`).
-/

namespace EntityQuery.Filter

/-- Whether a comparison holds of a value; one with an unknown operator holds of nothing. -/
def decidesComparison (c : Comparison) (actual : Json) : Bool :=
  match Operator.ofName? c.operator with
  | some op => compares op c.operand actual
  | none => false

/-- Whether what a relation leads to passes a test: an object itself, or some item of an array. -/
def relatedPasses (test : Json → Bool) : Json → Bool
  | .arr items => items.any test
  | .obj members => test (.obj members)
  | _ => false

mutual

/-- Whether a filter holds of a record. -/
def decides : Filter → Json → Bool
  | node all any fields, record =>
    decidesAll all record && (any.isEmpty || decidesAny any record) && decidesFields fields record
termination_by structural filter => filter

/-- Whether every filter holds of a record. -/
def decidesAll : List Filter → Json → Bool
  | [], _ => true
  | f :: fs, record => decides f record && decidesAll fs record
termination_by structural filters => filters

/-- Whether some filter holds of a record. -/
def decidesAny : List Filter → Json → Bool
  | [], _ => false
  | f :: fs, record => decides f record || decidesAny fs record
termination_by structural filters => filters

/-- Whether what an entry asks for holds of the value of its field. -/
def decidesEntry : FieldFilter → Json → Bool
  | .comparisons list, actual => list.all (decidesComparison · actual)
  | .relation f, actual => relatedPasses (decides f) actual
termination_by structural entry => entry

/-- Whether every entry holds of a record. -/
def decidesFields : List (String × FieldFilter) → Json → Bool
  | [], _ => true
  | (field, entry) :: rest, record =>
    decidesEntry entry (record.getOrNull field) && decidesFields rest record
termination_by structural fields => fields

end

theorem decidesAll_eq (fs : List Filter) (record : Json) :
    decidesAll fs record = fs.all (decides · record) := by
  induction fs with
  | nil => rfl
  | cons f fs ih => rw [decidesAll, ih, List.all_cons]

theorem decidesAny_eq (fs : List Filter) (record : Json) :
    decidesAny fs record = fs.any (decides · record) := by
  induction fs with
  | nil => rfl
  | cons f fs ih => rw [decidesAny, ih, List.any_cons]

theorem decidesFields_eq (fields : List (String × FieldFilter)) (record : Json) :
    decidesFields fields record =
      fields.all fun entry => decidesEntry entry.2 (record.getOrNull entry.1) := by
  induction fields with
  | nil => rfl
  | cons entry rest ih => rw [decidesFields, ih, List.all_cons]

theorem decides_node (all any : List Filter) (fields : List (String × FieldFilter))
    (record : Json) :
    decides (.node all any fields) record =
      (all.all (decides · record) && (any.isEmpty || any.any (decides · record)) &&
        fields.all fun entry => decidesEntry entry.2 (record.getOrNull entry.1)) := by
  rw [decides, decidesAll_eq, decidesAny_eq, decidesFields_eq]

/-! ## What a passed check says of the parts -/

theorem check_node_eq_ok {all any : List Filter} {fields : List (String × FieldFilter)} :
    check (node all any fields) = .ok () ↔
      checkList all = .ok () ∧ checkList any = .ok () ∧ checkFields fields = .ok () := by
  rw [check, Answer.seq_eq_ok, Answer.seq_eq_ok]

theorem checkList_cons_eq_ok {f : Filter} {fs : List Filter} :
    checkList (f :: fs) = .ok () ↔ f.check = .ok () ∧ checkList fs = .ok () := by
  rw [checkList, Answer.seq_eq_ok]

theorem checkFields_cons_eq_ok {field : String} {entry : FieldFilter}
    {rest : List (String × FieldFilter)} :
    checkFields ((field, entry) :: rest) = .ok () ↔
      checkEntry entry = .ok () ∧ checkFields rest = .ok () := by
  rw [checkFields, Answer.seq_eq_ok]

theorem checkComparisons_cons_eq_ok {c : Comparison} {cs : List Comparison} :
    checkComparisons (c :: cs) = .ok () ↔
      (∃ op, Operator.ofName? c.operator = some op ∧ op.fault? c.operand = none) ∧
        checkComparisons cs = .ok () := by
  rw [checkComparisons, Operator.named]
  cases Operator.ofName? c.operator with
  | none => simp
  | some op => cases hf : op.fault? c.operand <;> simp [Operator.check, hf]

theorem checkFields_eq_ok {fields : List (String × FieldFilter)} :
    checkFields fields = .ok () ↔ ∀ entry ∈ fields, checkEntry entry.2 = .ok () := by
  induction fields with
  | nil => simp [checkFields]
  | cons entry fields ih => rw [checkFields_cons_eq_ok, List.forall_mem_cons, ih]

theorem checkComparisons_eq_ok {cs : List Comparison} :
    checkComparisons cs = .ok () ↔
      ∀ c ∈ cs, ∃ op, Operator.ofName? c.operator = some op ∧ op.fault? c.operand = none := by
  induction cs with
  | nil => simp [checkComparisons]
  | cons c cs ih => rw [checkComparisons_cons_eq_ok, List.forall_mem_cons, ih]

/-! ## Evaluation after the check -/

theorem holds_eq_compares {op : Operator} {operator : String}
    (hname : Operator.ofName? operator = some op) (operand actual : Json) :
    holds ⟨operator, operand⟩ actual = .ok (compares op operand actual) := by
  rw [holds, Operator.named, hname]
  rfl

theorem allHold_of_check {cs : List Comparison} (h : checkComparisons cs = .ok ())
    (actual : Json) : allHold cs actual = .ok (cs.all (decidesComparison · actual)) := by
  induction cs with
  | nil => rfl
  | cons c cs ih =>
    obtain ⟨⟨op, hop, -⟩, hcs⟩ := checkComparisons_cons_eq_ok.1 h
    have hholds : holds c actual = .ok (decidesComparison c actual) := by
      rw [decidesComparison, hop]
      exact holds_eq_compares hop c.operand actual
    rw [allHold, hholds, Answer.ok_bind, List.all_cons, ih hcs]
    cases decidesComparison c actual <;> rfl

theorem someItem_of_total {test : Json → Answer Bool} {verdict : Json → Bool}
    (h : ∀ item, test item = .ok (verdict item)) (items : List Json) :
    someItem test items = .ok (items.any verdict) := by
  induction items with
  | nil => rfl
  | cons item items ih =>
    rw [someItem, h item, Answer.ok_bind, List.any_cons, ih]
    cases verdict item <;> rfl

theorem someRelated_of_total {test : Json → Answer Bool} {verdict : Json → Bool}
    (h : ∀ item, test item = .ok (verdict item)) (actual : Json) :
    someRelated test actual = .ok (relatedPasses verdict actual) := by
  cases actual with
  | arr items => exact someItem_of_total h items
  | obj members => exact h _
  | _ => rfl

mutual

/-- A filter that passed its check is decided without an error on every record. -/
theorem evaluate_of_check :
    ∀ {f : Filter}, f.check = .ok () → ∀ record, f.evaluate record = .ok (f.decides record)
  | node all any fields, h, record => by
    obtain ⟨hall, hany, hfields⟩ := check_node_eq_ok.1 h
    rw [evaluate, decides, evaluateAll_of_check hall record, evaluateAny_of_check hany record,
      evaluateFields_of_check hfields record]
    -- the parts behind the one that settles the answer do not matter to it
    cases decidesAll all record with
    | false => rfl
    | true => cases any.isEmpty <;> cases decidesAny any record <;> rfl

theorem evaluateAll_of_check :
    ∀ {fs : List Filter}, checkList fs = .ok () →
      ∀ record, evaluateAll fs record = .ok (decidesAll fs record)
  | [], _, _ => rfl
  | f :: fs, h, record => by
    obtain ⟨hf, hfs⟩ := checkList_cons_eq_ok.1 h
    rw [evaluateAll, decidesAll, evaluate_of_check hf record, evaluateAll_of_check hfs record]
    cases decides f record <;> rfl

theorem evaluateAny_of_check :
    ∀ {fs : List Filter}, checkList fs = .ok () →
      ∀ record, evaluateAny fs record = .ok (decidesAny fs record)
  | [], _, _ => rfl
  | f :: fs, h, record => by
    obtain ⟨hf, hfs⟩ := checkList_cons_eq_ok.1 h
    rw [evaluateAny, decidesAny, evaluate_of_check hf record, evaluateAny_of_check hfs record]
    cases decides f record <;> rfl

theorem evaluateEntry_of_check :
    ∀ {entry : FieldFilter}, checkEntry entry = .ok () →
      ∀ actual, evaluateEntry entry actual = .ok (decidesEntry entry actual)
  | .comparisons _, h, actual => allHold_of_check h actual
  | .relation _, h, actual => someRelated_of_total (evaluate_of_check h) actual

theorem evaluateFields_of_check :
    ∀ {fields : List (String × FieldFilter)}, checkFields fields = .ok () →
      ∀ record, evaluateFields fields record = .ok (decidesFields fields record)
  | [], _, _ => rfl
  | (field, entry) :: rest, h, record => by
    obtain ⟨hentry, hrest⟩ := checkFields_cons_eq_ok.1 h
    rw [evaluateFields, decidesFields, evaluateEntry_of_check hentry,
      evaluateFields_of_check hrest record]
    cases decidesEntry entry (record.getOrNull field) <;> rfl

end

/-- Accepting a record is passing the check and then being decided. -/
theorem accepts_eq (f : Filter) (record : Json) :
    f.accepts record = f.check >>= fun _ => .ok (f.decides record) := by
  rw [accepts]
  cases h : f.check with
  | error e => rfl
  | ok _ => exact evaluate_of_check h record

theorem accepts_of_compile {f : Filter} {p : Predicate} (h : f.compile = .ok p) (record : Json) :
    f.accepts record = .ok (f.decides record) := by
  rw [accepts_eq, check_eq_ok_iff.2 ⟨p, h⟩]
  rfl

/-! ## The same errors -/

/-- **Store and memory fail alike.** What stops a filter from compiling stops it from being decided
on a record, with the same operator, operand and fault; what compiles is decided on every record,
and the evaluation behind the check does not fail there. -/
theorem compile_and_accepts_fail_alike (f : Filter) (record : Json) :
    match f.compile with
    | .error e => f.accepts record = .error e
    | .ok _ => ∃ verdict, f.accepts record = .ok verdict ∧ f.evaluate record = .ok verdict := by
  cases h : f.compile with
  | error e =>
    have hcheck : f.check = .error e := by
      rw [check_eq_outcome []]
      exact Answer.outcome_eq_error.2 h
    show f.accepts record = .error e
    rw [accepts_eq, hcheck]
    rfl
  | ok p =>
    have haccepts := accepts_of_compile h record
    refine ⟨f.decides record, haccepts, ?_⟩
    obtain ⟨_, _, hevaluate⟩ := Answer.bind_eq_ok.1 haccepts
    exact hevaluate

end EntityQuery.Filter
