import EntityQuery.Json.Basic
import EntityQuery.Text.Pattern

/-!
# Comparing values of records

The comparisons that a filter makes on values held in memory. Two numbers are compared as 64-bit
floating-point numbers, whatever they were written as; inside arrays and objects only equal values
are equal. Texts are ordered by code point, and values of different kinds have no order.
-/

namespace EntityQuery.Json

/-- Equality, with two numbers compared as floating-point numbers. -/
def looselyEqual : Json → Json → Bool
  | num a, num b => a.toBinary64.order == b.toBinary64.order
  | a, b => a.same b

/-- The order of two numbers or two texts. -/
def order? : Json → Json → Option Ordering
  | num a, num b => some (compare a.toBinary64.order b.toBinary64.order)
  | str a, str b => some (if a < b then .lt else if a = b then .eq else .gt)
  | _, _ => none

/-- Both are numbers or texts, and the first is smaller. -/
def less (a b : Json) : Bool := a.order? b == some .lt

/-- Both are numbers or texts, and the first is greater. -/
def greater (a b : Json) : Bool := a.order? b == some .gt

/-- Both are numbers or texts, and the first is not greater. -/
def atMost (a b : Json) : Bool := a.order? b == some .lt || a.order? b == some .eq

/-- Both are numbers or texts, and the first is not smaller. -/
def atLeast (a b : Json) : Bool := a.order? b == some .gt || a.order? b == some .eq

/-- Whether a value equals some item of a list. -/
def isIn (value : Json) : Json → Bool
  | arr items => items.any value.looselyEqual
  | _ => false

/-- Whether a text is like a pattern; nothing but a text is like anything. Patterns are taken to be
below the size limit of the matcher, beyond which no text is like them. -/
def isLike : Json → Json → Bool
  | str text, str pattern => Text.like text pattern
  | _, _ => false

/-- Whether a text is like a pattern but for case. Patterns are taken to be below the size limit of
the matcher, as in `isLike`. -/
def isLikeFolded : Json → Json → Bool
  | str text, str pattern => Text.likeFolded text pattern
  | _, _ => false

end EntityQuery.Json
