import EntityQuery.Settings.Toml.Quoting
import EntityQuery.Settings.Tree

/-!
# Lines of a settings file

A line opens a table, gives an entry or is blank; any of them may end in a comment. An entry has its
keys in dots on the left and a string, an integer or a truth value on the right.
-/

namespace EntityQuery.Toml

/-! ## Keys -/

/-- A key, bare or quoted. -/
def scanKey (cs : List Char) : Option (String × List Char) :=
  match cs.takeWhile isBareKey with
  | [] => scanOneLine cs
  | text => some (String.ofList text, cs.dropWhile isBareKey)

/-- Up to `limit` keys in dots, blanks allowed around the dots. -/
def scanKeysUpTo : (limit : Nat) → List Char → Option (List String × List Char)
  | 0, _ => none
  | limit + 1, cs => do
    let (key, rest) ← scanKey (skipBlanks cs)
    match skipBlanks rest with
    | '.' :: rest =>
      let (keys, rest) ← scanKeysUpTo limit rest
      return (key :: keys, rest)
    | rest => return ([key], rest)

/-- The most keys that dots may join. -/
def keyLimit : Nat := 79

/-- Keys in dots, and what follows them. -/
def scanKeys (cs : List Char) : Option (List String × List Char) := scanKeysUpTo keyLimit cs

/-! ## Numbers -/

/-- The digits of a number with underscores between them; none at its ends or side by side. -/
def dropUnderscores : List Char → Option (List Char)
  | [] => some []
  | ['_'] => none
  | '_' :: '_' :: _ => none
  | '_' :: c :: rest => (dropUnderscores rest).map (c :: ·)
  | c :: rest => (dropUnderscores rest).map (c :: ·)

/-- The value of a digit in a base. -/
def digitIn? (base : Nat) (c : Char) : Option Nat :=
  (Quoted.hexValue? c).filter fun n => decide (n < base)

/-- The natural that digits with underscores write in a base. -/
def natural? (base : Nat) (cs : List Char) : Option Nat :=
  match cs with
  | [] | '_' :: _ => none
  | _ => do
    let digits ← dropUnderscores cs
    digits.foldlM (fun n c => (digitIn? base c).map (n * base + ·)) 0

/-- A natural without a zero in front. -/
def plainNatural? : List Char → Option Nat
  | '0' :: _ :: _ => none
  | cs => natural? 10 cs

/-- The integer that a word writes, if it fits 64 bits with a sign. -/
def integer? (word : List Char) : Option Int := do
  let n : Int ← match word with
    | '0' :: 'x' :: digits => (natural? 16 digits).map Int.ofNat
    | '0' :: 'o' :: digits => (natural? 8 digits).map Int.ofNat
    | '0' :: 'b' :: digits => (natural? 2 digits).map Int.ofNat
    | '-' :: digits => (plainNatural? digits).map fun n => -(n : Int)
    | '+' :: digits => (plainNatural? digits).map Int.ofNat
    | digits => (plainNatural? digits).map Int.ofNat
  if -(Nat.pow 2 63) ≤ n ∧ n < Nat.pow 2 63 then some n else none

/-! ## Lines -/

/-- Whether a character belongs to a word that is no string. -/
def isWord (c : Char) : Bool := isBareKey c || c == '+'

/-- What a word stands for. -/
def wordValue? (word : List Char) : Option Setting :=
  if word = "true".toList then some (.bool true)
  else if word = "false".toList then some (.bool false)
  else (integer? word).map .int

/-- A value, and what follows it. -/
def scanValue (cs : List Char) : Option (Setting × List Char) :=
  match cs.takeWhile isWord with
  | [] => (scanString cs).map fun (text, rest) => (.text text, rest)
  | word => (wordValue? word).map fun value => (value, cs.dropWhile isWord)

/-- What a line of a document does. -/
inductive Line
  | blank
  | header (keys : List String)
  | entry (keys : List String) (value : Setting)

/-- What follows the end of a line, when nothing but a comment is left of it. -/
def endLine? (cs : List Char) : Option (List Char) :=
  let cs := match skipBlanks cs with
    | '#' :: cs => cs.dropWhile fun c => !isControl c
    | cs => cs
  match cs with
  | [] => some []
  | '\n' :: rest => some rest
  | _ => none

/-- Reads a line, and answers what follows it. An entry goes on as long as its string does. -/
def readLine (cs : List Char) : Option (Line × List Char) :=
  match endLine? cs, skipBlanks cs with
  | some rest, _ => some (.blank, rest)
  | none, '[' :: cs => do
    match ← scanKeys cs with
    | (keys, ']' :: rest) => return (.header keys, ← endLine? rest)
    | _ => none
  | none, cs => do
    match ← scanKeys cs with
    | (keys, '=' :: rest) =>
      let (value, rest) ← scanValue (skipBlanks rest)
      return (.entry keys value, ← endLine? rest)
    | _ => none

/-- Reads all lines; each but the last has at least the character that ends it. -/
def readLines : (fuel : Nat) → List Char → Option (List Line)
  | _, [] => some []
  | 0, _ => none
  | fuel + 1, cs => do
    let (line, rest) ← readLine cs
    return line :: (← readLines fuel rest)

end EntityQuery.Toml
