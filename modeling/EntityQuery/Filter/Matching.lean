import EntityQuery.Filter.Basic
import EntityQuery.Filter.Operator
import EntityQuery.Json.Compare

/-!
# Filters on records in memory

A filter is decided on a loaded record without any store. All comparisons are checked before the
record is looked at, so a bad operand is an error even in a part that the record would never reach.
Absent fields read as `null`. An entry for a relation holds of an object that its filter holds of,
and of an array in which some item is one the filter holds of.
-/

namespace EntityQuery.Filter

/-! ## Checking -/

/-- Accepts comparisons whose operators are known and whose operands fit. -/
def checkComparisons : List Comparison → Answer Unit
  | [] => .ok ()
  | c :: cs => do
    let op ← Operator.named c.operator
    op.check c.operator c.operand
    checkComparisons cs

mutual

/-- Accepts a filter all of whose comparisons are accepted; the first that is not is reported. -/
def check : Filter → Answer Unit
  | node all any fields => do
    checkList all
    checkList any
    checkFields fields
termination_by structural filter => filter

/-- Accepts several filters. -/
def checkList : List Filter → Answer Unit
  | [] => .ok ()
  | f :: fs => do
    check f
    checkList fs
termination_by structural filters => filters

/-- Accepts an entry. -/
def checkEntry : FieldFilter → Answer Unit
  | .comparisons list => checkComparisons list
  | .relation f => check f
termination_by structural entry => entry

/-- Accepts several entries. -/
def checkFields : List (String × FieldFilter) → Answer Unit
  | [] => .ok ()
  | (_, entry) :: rest => do
    checkEntry entry
    checkFields rest
termination_by structural fields => fields

end

/-! ## Deciding -/

/-- Whether a value compares with an operand as the operator asks. -/
def compares (op : Operator) (operand actual : Json) : Bool :=
  match op with
  | .eq | .is => actual.looselyEqual operand
  | .neq | .isNot => !actual.looselyEqual operand
  | .gt => actual.greater operand
  | .gte => actual.atLeast operand
  | .lt => actual.less operand
  | .lte => actual.atMost operand
  | .like => actual.isLike operand
  | .notLike => !actual.isLike operand
  | .iLike => actual.isLikeFolded operand
  | .notILike => !actual.isLikeFolded operand
  | .oneOf => actual.isIn operand
  | .noneOf => !actual.isIn operand
  | .between =>
    actual.atLeast (Operator.lowerBound operand) && actual.atMost (Operator.upperBound operand)
  | .notBetween =>
    actual.less (Operator.lowerBound operand) || actual.greater (Operator.upperBound operand)

/-- Whether a comparison holds of a value. -/
def holds (c : Comparison) (actual : Json) : Answer Bool := do
  let op ← Operator.named c.operator
  return compares op c.operand actual

/-- Whether every comparison holds of a value; those behind the first that does not are not
looked at. -/
def allHold : List Comparison → Json → Answer Bool
  | [], _ => .ok true
  | c :: cs, actual => do
    if ← holds c actual then allHold cs actual else return false

/-- Whether some item passes a test; those behind the first that does are not looked at. -/
def someItem (test : Json → Answer Bool) : List Json → Answer Bool
  | [] => .ok false
  | item :: items => do
    if ← test item then return true else someItem test items

/-- Whether what a relation leads to passes a test: an object itself, or some item of an array. -/
def someRelated (test : Json → Answer Bool) : Json → Answer Bool
  | .arr items => someItem test items
  | .obj members => test (.obj members)
  | _ => .ok false

mutual

/-- Whether a filter holds of a record. Nothing behind the part that settles the answer is looked
at. -/
def evaluate : Filter → Json → Answer Bool
  | node all any fields, record => do
    if ← evaluateAll all record then
      if any.isEmpty then evaluateFields fields record
      else if ← evaluateAny any record then evaluateFields fields record
      else return false
    else return false
termination_by structural filter => filter

/-- Whether every filter holds of a record. -/
def evaluateAll : List Filter → Json → Answer Bool
  | [], _ => .ok true
  | f :: fs, record => do
    if ← evaluate f record then evaluateAll fs record else return false
termination_by structural filters => filters

/-- Whether some filter holds of a record. -/
def evaluateAny : List Filter → Json → Answer Bool
  | [], _ => .ok false
  | f :: fs, record => do
    if ← evaluate f record then return true else evaluateAny fs record
termination_by structural filters => filters

/-- Whether what an entry asks for holds of the value of its field. -/
def evaluateEntry : FieldFilter → Json → Answer Bool
  | .comparisons list, actual => allHold list actual
  | .relation f, actual => someRelated (evaluate f) actual
termination_by structural entry => entry

/-- Whether every entry holds of a record. -/
def evaluateFields : List (String × FieldFilter) → Json → Answer Bool
  | [], _ => .ok true
  | (field, entry) :: rest, record => do
    if ← evaluateEntry entry (record.getOrNull field) then evaluateFields rest record
    else return false
termination_by structural fields => fields

end

/-- Whether a record is one the filter asks for. -/
def accepts (f : Filter) (record : Json) : Answer Bool := do
  check f
  evaluate f record

end EntityQuery.Filter
