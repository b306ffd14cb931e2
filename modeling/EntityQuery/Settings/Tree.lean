import EntityQuery.Dict
import EntityQuery.Text.LowerCase

/-!
# Settings by path

Settings from several sources are laid over each other in one tree. A path names a place in it by
keys in dots and by positions in brackets; what is put there makes room for itself, replacing
whatever on the way is of another kind. Tables laid on tables are united, and keys are the same but
for their case.
-/

namespace EntityQuery

/-- A setting, or settings under keys or at positions. -/
inductive Setting
  /-- a place that was made room for and not filled -/
  | unset
  | text (value : String)
  | int (value : Int)
  | bool (value : Bool)
  | list (items : List Setting)
  | table (entries : List (String × Setting))
deriving Inhabited

namespace Setting

/-- The entries of a table; anything else has none. -/
def entries : Setting → Dict Setting
  | table entries => entries
  | _ => []

/-- The items of a list; anything else has none. -/
def items : Setting → List Setting
  | list items => items
  | _ => []

/-- Changes what is under a key. What is no table becomes one. -/
def changeKey (key : String) (f : Option Setting → Setting) (target : Setting) : Setting :=
  table (Dict.alter (Text.lower key) f target.entries)

/-- The place of a position in a list of `length` items: a negative one counts from the end. -/
def place (position : Int) (length : Nat) : Nat :=
  if 0 ≤ position then position.toNat else length - position.natAbs

/-- Changes what is at a position. What is no list becomes one, and is made long enough. -/
def changeItem (position : Int) (f : Setting → Setting) (target : Setting) : Setting :=
  let i := place position target.items.length
  list ((target.items.rightpad (i + 1) unset).modify i f)

mutual

/-- Lays a setting over another. -/
def laidOn : Setting → Option Setting → Setting
  | table new, old => laidOnEntries new (old.getD (table []))
  | new, _ => new
termination_by structural new => new

/-- Lays entries over a setting, one after the other. -/
def laidOnEntries : List (String × Setting) → Setting → Setting
  | [], target => target
  | (key, new) :: rest, target =>
    laidOnEntries rest (target.changeKey key fun found => new.laidOn found)
termination_by structural new => new

end

/-! ## Paths -/

/-- One step of a path. -/
inductive Step
  | key (name : String)
  | position (number : Int)
deriving DecidableEq

/-- Whether a character may stand in the key of a path. -/
def isKeyChar (c : Char) : Bool := c.isAlphanum || c == ' ' || c == '_' || c == '-'

/-- A key at the front, and what follows it. -/
def scanKey (cs : List Char) : Option (Step × List Char) :=
  match cs.takeWhile isKeyChar with
  | [] => none
  | name => some (.key (String.ofList name), cs.dropWhile isKeyChar)

/-- Whether a character is a blank inside brackets. -/
def isPadding (c : Char) : Bool := c == ' ' || c == '\t'

/-- The number that digits write behind a sign, if 64 bits hold it. -/
def signed? (negative : Bool) (digits : List Char) : Option Int :=
  if digits.isEmpty then none
  else
    let size : Int := Nat.ofDigitChars 10 digits 0
    let n := if negative then -size else size
    if -(Nat.pow 2 63) ≤ n ∧ n < Nat.pow 2 63 then some n else none

/-- A position after its opening bracket, up to the closing one. -/
def scanPosition (cs : List Char) : Option (Step × List Char) := do
  let (negative, cs) := match cs.dropWhile isPadding with
    | '-' :: rest => (true, rest)
    | cs => (false, cs)
  let n ← signed? negative (cs.takeWhile Char.isDigit)
  match (cs.dropWhile Char.isDigit).dropWhile isPadding with
  | ']' :: rest => return (.position n, rest)
  | _ => none

/-- Further steps of a path; each consumes at least its first character. -/
def scanSteps : Nat → List Char → Option (List Step)
  | _, [] => some []
  | 0, _ => none
  | fuel + 1, '.' :: cs => do
    let (step, rest) ← scanKey cs
    return step :: (← scanSteps fuel rest)
  | fuel + 1, '[' :: cs => do
    let (step, rest) ← scanPosition cs
    return step :: (← scanSteps fuel rest)
  | _ + 1, _ => none

/-- The path that a text writes. A text that writes none is a single key itself. -/
def path (text : String) : List Step :=
  let written := do
    let (step, rest) ← scanKey text.toList
    return step :: (← scanSteps rest.length rest)
  written.getD [.key text]

/-- Puts a setting where a path leads: under a key it is laid on what is there, at a position it
takes the place. -/
def put (new : Setting) : List Step → Option Setting → Setting
  | [], old => new.laidOn old
  | .key name :: rest, old => (old.getD unset).changeKey name fun found => put new rest found
  | [.position n], old => (old.getD unset).changeItem n fun _ => new
  | .position n :: rest, old => (old.getD unset).changeItem n fun item => put new rest (some item)

/-- Puts settings under their paths, one after the other. -/
def putAll (tree : Setting) (settings : List (String × Setting)) : Setting :=
  settings.foldl (fun tree entry => put entry.2 (path entry.1) (some tree)) tree

end Setting

end EntityQuery
