import EntityQuery.Dict
import EntityQuery.Number.Binary64

/-!
# JSON values

Filters, operands, records and result rows are JSON values. Integers keep their full width and stay
apart from floating-point numbers: `1` and `1.0` are different values, while the two floating-point
zeros are the same. Members of an object are a dictionary, in key order (`Json.Canonical` says so of
a whole value).
-/

namespace EntityQuery

/-- A JSON number: an integer, or a 64-bit floating-point number. -/
inductive Number
  | int (value : Int)
  | float (value : Binary64)
deriving DecidableEq, Inhabited, Repr

namespace Number

/-- Equality of numbers as values: an integer never equals a floating-point number. -/
def same : Number → Number → Bool
  | .int a, .int b => a == b
  | .float x, .float y => x.order == y.order
  | _, _ => false

/-- The number as a 64-bit floating-point number, rounded if need be. -/
def toBinary64 : Number → Binary64
  | .int n => .ofInt n
  | .float x => x

end Number

/-- A JSON value. -/
inductive Json
  | null
  | bool (value : Bool)
  | num (value : Number)
  | str (value : String)
  | arr (items : List Json)
  | obj (members : List (String × Json))
deriving Inhabited, Repr

namespace Json

/-- An integer value. -/
abbrev int (n : Int) : Json := .num (.int n)

/-- Whether the value is `null`. -/
def isNull : Json → Bool
  | null => true
  | _ => false

/-- Whether the value is an object. -/
def isObject : Json → Bool
  | obj _ => true
  | _ => false

/-- Whether the value is an array. -/
def isArray : Json → Bool
  | arr _ => true
  | _ => false

/-- The member of an object under a key; nothing for any other value. -/
def get? : Json → String → Option Json
  | obj members, key => Dict.get? members key
  | _, _ => none

/-- The member under a key, an absent one reading as `null`. -/
def getOrNull (value : Json) (key : String) : Json := (value.get? key).getD null

/-! ## Equality of values -/

mutual

/-- Equality of values, member by member. -/
def same : Json → Json → Bool
  | null, null => true
  | bool a, bool b => a == b
  | num a, num b => a.same b
  | str a, str b => a == b
  | arr xs, arr ys => sameItems xs ys
  | obj ms, obj ns => sameMembers ms ns
  | _, _ => false
termination_by structural value => value

/-- Equality of items in order. -/
def sameItems : List Json → List Json → Bool
  | [], [] => true
  | x :: xs, y :: ys => same x y && sameItems xs ys
  | _, _ => false
termination_by structural items => items

/-- Equality of members in order. -/
def sameMembers : List (String × Json) → List (String × Json) → Bool
  | [], [] => true
  | (k, x) :: ms, (l, y) :: ns => k == l && same x y && sameMembers ms ns
  | _, _ => false
termination_by structural members => members

end

instance : BEq Json := ⟨same⟩

/-! ## Canonical values -/

mutual

/-- Every object inside the value has its members in strict key order. -/
def Canonical : Json → Prop
  | arr xs => CanonicalItems xs
  | obj ms => Dict.Sorted ms ∧ CanonicalMembers ms
  | _ => True
termination_by structural value => value

/-- Every item is canonical. -/
def CanonicalItems : List Json → Prop
  | [] => True
  | x :: xs => Canonical x ∧ CanonicalItems xs
termination_by structural items => items

/-- Every member's value is canonical. -/
def CanonicalMembers : List (String × Json) → Prop
  | [] => True
  | (_, x) :: ms => Canonical x ∧ CanonicalMembers ms
termination_by structural members => members

end

end Json

end EntityQuery
