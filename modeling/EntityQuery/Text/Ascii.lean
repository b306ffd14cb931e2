/-!
# Case of ASCII letters

Names that a request may write in any case are compared with the case of the 26 ASCII letters set
aside; every other character has to be the same.
-/

namespace EntityQuery.Text

/-- The characters with ASCII capitals made small. -/
def lowerAscii (cs : List Char) : List Char := cs.map Char.toLower

/-- Whether two texts are the same but for the case of ASCII letters. -/
def sameAscii (a b : String) : Bool := lowerAscii a.toList == lowerAscii b.toList

end EntityQuery.Text
