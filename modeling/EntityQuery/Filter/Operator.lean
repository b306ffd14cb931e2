import EntityQuery.Error
import EntityQuery.Predicate.Basic
import EntityQuery.Text.Ascii

/-!
# Comparison operators

The sixteen operators that a request may name, the shape each asks of its operand, and the fragment
of a predicate that an operator with its operand comes to before it is bound to a column. All checks
of operands are made here, so that whatever reads operators rejects the same ones.
-/

namespace EntityQuery

/-- A comparison operator of a request. -/
inductive Operator
  | eq | neq | gt | gte | lt | lte
  | like | notLike | iLike | notILike
  | oneOf | noneOf
  | is | isNot
  | between | notBetween
deriving DecidableEq, Inhabited, Repr

namespace Operator

/-- All operators. -/
def operators : List Operator :=
  [eq, neq, gt, gte, lt, lte, like, notLike, iLike, notILike, oneOf, noneOf, is, isNot, between,
    notBetween]

/-- The name of an operator in a request. -/
def name : Operator → String
  | eq => "eq"
  | neq => "neq"
  | gt => "gt"
  | gte => "gte"
  | lt => "lt"
  | lte => "lte"
  | like => "like"
  | notLike => "notLike"
  | iLike => "iLike"
  | notILike => "notILike"
  | oneOf => "in"
  | noneOf => "notIn"
  | is => "is"
  | isNot => "isNot"
  | between => "between"
  | notBetween => "notBetween"

/-- The operator of a name in any case. -/
def ofName? (text : String) : Option Operator :=
  operators.find? fun op => Text.sameAscii op.name text

/-- Whether a text names an operator, in any case. -/
def isKnown (text : String) : Bool := (ofName? text).isSome

/-- The operator of a name, or the complaint that there is none. -/
def named (text : String) : Answer Operator :=
  match ofName? text with
  | some op => .ok op
  | none => .error (.unknownOperator text)

/-! ## Operands -/

/-- What is wrong with an operand, if anything is. -/
def fault? : Operator → Json → Option OperandFault
  | is, operand | isNot, operand => match operand with
    | .null | .bool _ => none
    | _ => some .notNullOrBool
  | oneOf, operand | noneOf, operand => match operand with
    | .arr [] => some .emptyArray
    | .arr _ => none
    | _ => some .notArray
  | between, operand | notBetween, operand => match operand with
    | .obj members =>
      if Dict.contains members "lower" && Dict.contains members "upper" then none
      else some .notRange
    | _ => some .notRange
  | like, operand | notLike, operand | iLike, operand | notILike, operand => match operand with
    | .str _ => none
    | _ => some .notPattern
  | _, _ => none

/-- Accepts an operand of the shape that the operator asks for; `text` is the operator's name as it
was written. -/
def check (op : Operator) (text : String) (operand : Json) : Answer Unit :=
  match op.fault? operand with
  | some fault => .error (.invalidOperand text operand fault)
  | none => .ok ()

/-- The lower bound of a range operand. -/
def lowerBound (operand : Json) : Json := operand.getOrNull "lower"

/-- The upper bound of a range operand. -/
def upperBound (operand : Json) : Json := operand.getOrNull "upper"

end Operator

/-! ## Fragments -/

/-- A predicate on one column that is not yet named. -/
inductive Fragment
  | compare (op : Comparator) (value : Json)
  | all (parts : List Fragment)
  | any (parts : List Fragment)

namespace Fragment

mutual

/-- The fragment as a predicate on a column. -/
def bind (column : Column) : Fragment → Predicate
  | compare op value => .compare column op value
  | all parts => .allOf (bindList column parts)
  | any parts => .anyOf (bindList column parts)
termination_by structural fragment => fragment

/-- Several fragments as predicates on a column. -/
def bindList (column : Column) : List Fragment → List Predicate
  | [] => []
  | part :: parts => part.bind column :: bindList column parts
termination_by structural parts => parts

end

end Fragment

namespace Operator

/-- What an operator with a fitting operand asks of a column. A range is a pair of comparisons. -/
def fragment : Operator → Json → Fragment
  | eq, operand => .compare .eq operand
  | neq, operand => .compare .ne operand
  | gt, operand => .compare .gt operand
  | gte, operand => .compare .gte operand
  | lt, operand => .compare .lt operand
  | lte, operand => .compare .lte operand
  | like, operand => .compare .like operand
  | notLike, operand => .compare .notLike operand
  | iLike, operand => .compare .iLike operand
  | notILike, operand => .compare .notILike operand
  | oneOf, operand => .compare .oneOf operand
  | noneOf, operand => .compare .noneOf operand
  | is, operand => .compare .is operand
  | isNot, operand => .compare .isNot operand
  | between, operand =>
    .all [.compare .gte (lowerBound operand), .compare .lte (upperBound operand)]
  | notBetween, operand =>
    .any [.compare .lt (lowerBound operand), .compare .gt (upperBound operand)]

end Operator

/-- The fragment of an operator's name and an operand, once both are accepted. -/
def Fragment.ofComparison (operator : String) (operand : Json) : Answer Fragment := do
  let op ← Operator.named operator
  op.check operator operand
  return op.fragment operand

end EntityQuery
