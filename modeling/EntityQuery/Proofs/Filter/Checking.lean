import EntityQuery.Filter.Compile
import EntityQuery.Filter.Matching
import EntityQuery.Proofs.Answer

/-!
# Memory and store refuse the same filters

The compiler and the check that runs before a record is looked at are two walks over a filter. They
meet the comparisons in the same order, so the check is the outcome of compiling
(`check_eq_outcome`). A filter that passes it is decided on every record, whichever parts the
record makes the evaluation skip: `decides` says part by part what the answer is, and
`evaluate_of_check` that no error comes up on the way.
-/

namespace EntityQuery.Filter

/-! ## Checking is compiling without the predicate -/

theorem checkComparisons_cons (c : Comparison) (cs : List Comparison) :
    checkComparisons (c :: cs) =
      (Fragment.ofComparison c.operator c.operand).outcome >>= fun _ => checkComparisons cs := by
  rw [checkComparisons, Fragment.ofComparison]
  cases Operator.named c.operator with
  | error e => rfl
  | ok op =>
    show (op.check c.operator c.operand >>= fun _ => checkComparisons cs) = _
    cases hc : op.check c.operator c.operand with
    | error e => simp [hc, Answer.outcome]
    | ok _ => simp [hc, Answer.outcome]

theorem checkComparisons_eq_outcome (column : Column) (cs : List Comparison) :
    checkComparisons cs = (compileComparisons column cs).outcome := by
  induction cs with
  | nil => rfl
  | cons c cs ih =>
    rw [checkComparisons_cons, ih]
    unfold compileComparisons
    rw [List.mapM_cons]
    cases Fragment.ofComparison c.operator c.operand with
    | error e => rfl
    | ok fragment =>
      -- only the comparisons behind the first are left to fail
      simp only [Answer.outcome, Answer.ok_bind, Answer.pure_eq]
      cases List.mapM (m := Except QueryError) _ cs with
      | error e => rfl
      | ok parts => rfl

mutual

/-- Checking a filter comes out as compiling it does, on whatever path. -/
theorem check_eq_outcome (path : List String) :
    ∀ f : Filter, f.check = (f.compileAt path).outcome
  | node all any fields => by
    rw [check, compileAt, checkList_eq_outcome path all, checkList_eq_outcome path any,
      checkFields_eq_outcome path fields]
    cases compileList all path with
    | error e => rfl
    | ok ps =>
      cases compileList any path with
      | error e => rfl
      | ok qs => cases compileFields fields path <;> rfl

theorem checkList_eq_outcome (path : List String) :
    ∀ fs : List Filter, checkList fs = (compileList fs path).outcome
  | [] => rfl
  | f :: fs => by
    rw [checkList, compileList, check_eq_outcome path f, checkList_eq_outcome path fs]
    cases compileAt f path with
    | error e => rfl
    | ok p => cases compileList fs path <;> rfl

theorem checkEntry_eq_outcome (path : List String) (field : String) :
    ∀ entry : FieldFilter, checkEntry entry = (compileEntry entry path field).outcome
  | .comparisons list => checkComparisons_eq_outcome ⟨path, field⟩ list
  | .relation f => check_eq_outcome (path ++ [field]) f

theorem checkFields_eq_outcome (path : List String) :
    ∀ fields : List (String × FieldFilter),
      checkFields fields = (compileFields fields path).outcome
  | [] => rfl
  | (field, entry) :: rest => by
    rw [checkFields, compileFields, checkEntry_eq_outcome path field entry,
      checkFields_eq_outcome path rest]
    cases compileEntry entry path field with
    | error e => rfl
    | ok p => cases compileFields rest path <;> rfl

end

/-- The filters that pass the check are those that compile. -/
theorem check_eq_ok_iff {f : Filter} : f.check = .ok () ↔ ∃ p, f.compile = .ok p := by
  rw [check_eq_outcome [], Answer.outcome_eq_ok]
  exact Iff.rfl

end EntityQuery.Filter
