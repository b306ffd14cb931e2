import EntityQuery.Json.Basic
import EntityQuery.Number.Shortest

/-!
# The compact text of a JSON value

No blanks, members in the order of the value. Only the quote, the backslash and the characters below
the space are escaped; every other character stands for itself.
-/

namespace EntityQuery.Json

/-- Numbers from `10⁻⁵` up to `10¹⁶` are positional, a number without fraction ends in `.0`, and of
two equally near shortest decimals the even one is written. -/
def numberLayout : NumberLayout :=
  ⟨.toEven, ".0", fun x => decide (-5 ≤ x ∧ x < 16)⟩

/-- The text of a number. -/
def numberText : Number → String
  | .int n => toString n
  | .float x => numberLayout.write x

/-- One lower-case hexadecimal digit. -/
def hexDigit (n : Nat) : Char := (Nat.toDigits 16 (n % 16)).headD '0'

/-- A character inside a quoted text. -/
def escapeChar (c : Char) : List Char :=
  if c = '"' then ['\\', '"']
  else if c = '\\' then ['\\', '\\']
  else if c = '\x08' then ['\\', 'b']
  else if c = '\t' then ['\\', 't']
  else if c = '\n' then ['\\', 'n']
  else if c = '\x0c' then ['\\', 'f']
  else if c = '\r' then ['\\', 'r']
  else if c.toNat < 0x20 then ['\\', 'u', '0', '0', hexDigit (c.toNat / 16), hexDigit c.toNat]
  else [c]

/-- A quoted text. -/
def quote (text : String) : String :=
  String.ofList ('"' :: text.toList.flatMap escapeChar ++ ['"'])

mutual

/-- The compact text of a value. -/
def text : Json → String
  | null => "null"
  | bool true => "true"
  | bool false => "false"
  | num n => numberText n
  | str s => quote s
  | arr [] => "[]"
  | arr (x :: xs) => "[" ++ x.text ++ itemsText xs ++ "]"
  | obj [] => "\x7b\x7d"
  | obj ((k, x) :: ms) => "\x7b" ++ quote k ++ ":" ++ x.text ++ membersText ms ++ "\x7d"
termination_by structural value => value

/-- Further items, each after a comma. -/
def itemsText : List Json → String
  | [] => ""
  | x :: xs => "," ++ x.text ++ itemsText xs
termination_by structural items => items

/-- Further members, each after a comma. -/
def membersText : List (String × Json) → String
  | [] => ""
  | (k, x) :: ms => "," ++ quote k ++ ":" ++ x.text ++ membersText ms
termination_by structural members => members

end

/-- The text of a value that stands for itself when it is text already. -/
def plainText : Json → String
  | str s => s
  | value => value.text

end EntityQuery.Json
