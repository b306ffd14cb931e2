import EntityQuery.Json.Document

/-!
# Reading JSON text

`Document.parseFront?` reads the grammar of JSON and nothing else: no leading zeros, no trailing
commas, no comments, no raw control characters in quoted text. It refuses containers nested deeper
than the limit it is given, and leaves what follows the document. `Document.parse?` and
`Json.parse?` are the document and the value that a whole text holds.
-/

namespace EntityQuery

/-! ## Quoted text -/

/-- One element of a quoted text: a character, or a 16-bit unit written as four hexadecimal
digits. -/
inductive Quoted
  | char (c : Char)
  | unit (n : Nat)

namespace Quoted

/-- The value of a hexadecimal digit. -/
def hexValue? (c : Char) : Option Nat :=
  if '0' ≤ c ∧ c ≤ '9' then some (c.toNat - '0'.toNat)
  else if 'a' ≤ c ∧ c ≤ 'f' then some (c.toNat - 'a'.toNat + 10)
  else if 'A' ≤ c ∧ c ≤ 'F' then some (c.toNat - 'A'.toNat + 10)
  else none

/-- The unit of four hexadecimal digits. -/
def unit? (a b c d : Char) : Option Nat := do
  return (((← hexValue? a) * 16 + (← hexValue? b)) * 16 + (← hexValue? c)) * 16 + (← hexValue? d)

/-- The character after a backslash. -/
def escape? : Char → Option Char
  | '"' => some '"'
  | '\\' => some '\\'
  | '/' => some '/'
  | 'b' => some '\x08'
  | 'f' => some '\x0c'
  | 'n' => some '\n'
  | 'r' => some '\r'
  | 't' => some '\t'
  | _ => none

/-- The elements up to the closing quote, and what follows it. -/
def scan : List Char → Option (List Quoted × List Char)
  | [] => none
  | '"' :: rest => some ([], rest)
  | '\\' :: 'u' :: a :: b :: c :: d :: rest => do
    let n ← unit? a b c d
    let (more, rest) ← scan rest
    return (.unit n :: more, rest)
  | '\\' :: e :: rest => do
    let c ← escape? e
    let (more, rest) ← scan rest
    return (.char c :: more, rest)
  | c :: rest =>
    if c.toNat < 0x20 then none
    else do
      let (more, rest) ← scan rest
      return (.char c :: more, rest)

/-- The first units of surrogate pairs. -/
def isHigh (n : Nat) : Bool := decide (0xD800 ≤ n ∧ n < 0xDC00)

/-- The second units of surrogate pairs. -/
def isLow (n : Nat) : Bool := decide (0xDC00 ≤ n ∧ n < 0xE000)

/-- The characters of the elements; half of a surrogate pair denotes none. -/
def chars? : List Quoted → Option (List Char)
  | [] => some []
  | .char c :: rest => (chars? rest).map (c :: ·)
  | .unit n :: .unit m :: rest =>
    if isHigh n then
      if isLow m then
        (chars? rest).map (Char.ofNat (0x10000 + (n - 0xD800) * 0x400 + (m - 0xDC00)) :: ·)
      else none
    else if isLow n then none
    else (chars? (.unit m :: rest)).map (Char.ofNat n :: ·)
  | .unit n :: rest =>
    if isHigh n || isLow n then none else (chars? rest).map (Char.ofNat n :: ·)

/-- The text of the elements. -/
def text? (elements : List Quoted) : Option String := (chars? elements).map String.ofList

end Quoted

/-! ## Numbers -/

namespace Number

/-- The number that decimal digits write. -/
def ofDigits (digits : List Char) : Nat :=
  digits.foldl (fun n c => n * 10 + (c.toNat - '0'.toNat)) 0

/-- Appends digits to a number as long as it stays below `2^64`; answers the digits left over. -/
def appendFitting (n : Nat) : List Char → Nat × List Char
  | [] => (n, [])
  | c :: rest =>
    let next := n * 10 + (c.toNat - '0'.toNat)
    if next < UInt64.size then appendFitting next rest else (n, c :: rest)

/-- A literal split into its parts. -/
structure Literal where
  negative : Bool
  whole : List Char
  fraction : List Char
  exponent : Option Int

/-- The floating-point number of a literal. Of its digits those count that keep the number they
write below `2^64`; each whole digit left out is a power of ten. -/
def Literal.float? (l : Literal) : Option Binary64 :=
  let (n, wholeLeft) := appendFitting 0 l.whole
  let (n, fractionLeft) := appendFitting n l.fraction
  let places : Int := (l.fraction.length : Int) - fractionLeft.length
  Binary64.ofScientific? l.negative n (wholeLeft.length - places + l.exponent.getD 0)

/-- The number a literal denotes. Written with digits alone and within 64 bits it is an integer, all
else is a floating-point number, negative zero too. -/
def Literal.value? (l : Literal) : Option Number :=
  let n := ofDigits l.whole
  if l.fraction.isEmpty && l.exponent.isNone && decide (n < UInt64.size) then
    if !l.negative then some (.int n)
    else if 0 < n ∧ n ≤ Nat.pow 2 63 then some (.int (-n))
    else some (.float (.nearest true n 1))
  else l.float?.map .float

/-- Whether a character is a decimal digit. -/
def isDigit (c : Char) : Bool := decide ('0' ≤ c ∧ c ≤ '9')

/-- The digits of a whole part: one zero alone, or no zero in front. -/
def scanWhole (cs : List Char) : Option (List Char × List Char) :=
  match cs.takeWhile isDigit with
  | [] => none
  | '0' :: _ :: _ => none
  | digits => some (digits, cs.dropWhile isDigit)

/-- The digits after a point, if there is one. -/
def scanFraction : List Char → Option (List Char × List Char)
  | '.' :: cs => match cs.takeWhile isDigit with
    | [] => none
    | digits => some (digits, cs.dropWhile isDigit)
  | cs => some ([], cs)

/-- The digits and sign of an exponent. -/
def scanPower (cs : List Char) : Option (Option Int × List Char) :=
  let (negative, cs) := match cs with
    | '-' :: rest => (true, rest)
    | '+' :: rest => (false, rest)
    | _ => (false, cs)
  match cs.takeWhile isDigit with
  | [] => none
  | digits =>
    let n : Int := ofDigits digits
    some (some (if negative then -n else n), cs.dropWhile isDigit)

/-- An exponent, if there is one. -/
def scanExponent : List Char → Option (Option Int × List Char)
  | 'e' :: cs => scanPower cs
  | 'E' :: cs => scanPower cs
  | cs => some (none, cs)

/-- A number literal, and what follows it. -/
def scan (cs : List Char) : Option (Literal × List Char) := do
  let (negative, cs) := match cs with
    | '-' :: rest => (true, rest)
    | _ => (false, cs)
  let (whole, cs) ← scanWhole cs
  let (fraction, cs) ← scanFraction cs
  let (exponent, cs) ← scanExponent cs
  return (⟨negative, whole, fraction, exponent⟩, cs)

end Number

/-! ## Documents -/

namespace Document

/-- The blanks between the parts of a document. -/
def isBlank (c : Char) : Bool := c == ' ' || c == '\n' || c == '\t' || c == '\r'

/-- Passes over blanks. -/
def skipBlanks (cs : List Char) : List Char := cs.dropWhile isBlank

/-- A literal that is no container, and what follows it. -/
def readLeaf : List Char → Option (Document × List Char)
  | 'n' :: 'u' :: 'l' :: 'l' :: rest => some (null, rest)
  | 't' :: 'r' :: 'u' :: 'e' :: rest => some (bool true, rest)
  | 'f' :: 'a' :: 'l' :: 's' :: 'e' :: rest => some (bool false, rest)
  | '"' :: rest =>
    (Quoted.scan rest).map fun (elements, rest) => (str (Quoted.text? elements), rest)
  | cs => (Number.scan cs).map fun (literal, rest) => (num literal.value?, rest)

mutual

/-- One document after blanks, and what follows it. A step of `fuel` is spent on every document,
item and member; `depth` containers may still be nested. -/
def read : (fuel depth : Nat) → List Char → Option (Document × List Char)
  | 0, _, _ => none
  | fuel + 1, depth, cs => match skipBlanks cs with
    | '[' :: rest => match depth with
      | 0 => none
      | depth + 1 => match skipBlanks rest with
        | ']' :: rest => some (arr [], rest)
        | _ => (readItems fuel depth rest).map fun (items, rest) => (arr items, rest)
    | '\x7b' :: rest => match depth with
      | 0 => none
      | depth + 1 => match skipBlanks rest with
        | '\x7d' :: rest => some (obj [], rest)
        | _ => (readMembers fuel depth rest).map fun (members, rest) => (obj members, rest)
    | cs => readLeaf cs
termination_by structural fuel => fuel

/-- One or more items up to the closing bracket. -/
def readItems : (fuel depth : Nat) → List Char → Option (List Document × List Char)
  | 0, _, _ => none
  | fuel + 1, depth, cs => do
    let (item, rest) ← read fuel depth cs
    match skipBlanks rest with
    | ',' :: rest =>
      let (items, rest) ← readItems fuel depth rest
      return (item :: items, rest)
    | ']' :: rest => return ([item], rest)
    | _ => none
termination_by structural fuel => fuel

/-- One or more members up to the closing brace. -/
def readMembers : (fuel depth : Nat) → List Char →
    Option (List (Option String × Document) × List Char)
  | 0, _, _ => none
  | fuel + 1, depth, cs => match skipBlanks cs with
    | '"' :: rest => do
      let (elements, rest) ← Quoted.scan rest
      match skipBlanks rest with
      | ':' :: rest =>
        let (value, rest) ← read fuel depth rest
        let member := (Quoted.text? elements, value)
        match skipBlanks rest with
        | ',' :: rest =>
          let (members, rest) ← readMembers fuel depth rest
          return (member :: members, rest)
        | '\x7d' :: rest => return ([member], rest)
        | _ => none
      | _ => none
    | _ => none
termination_by structural fuel => fuel

end

/-- The document at the front of a text, blanks around it aside, with at most `depth` nested
containers, and what follows. Every step of `read` but the two that open a container and its first
part consumes a character, so two steps for each are enough. -/
def parseFront? (depth : Nat) (text : String) : Option (Document × List Char) := do
  let cs := text.toList
  let (document, rest) ← read (2 * cs.length + 2) depth cs
  return (document, skipBlanks rest)

/-- The document that a whole text holds, with at most `depth` nested containers. -/
def parse? (depth : Nat) (text : String) : Option Document := do
  let (document, rest) ← parseFront? depth text
  if rest.isEmpty then return document else none

end Document

/-- The most containers that a text read as a value may nest. -/
def Json.depthLimit : Nat := 127

/-- The value at the front of a text, blanks around it aside, and what follows. -/
def Json.parseFront? (text : String) : Option (Json × List Char) := do
  let (document, rest) ← Document.parseFront? Json.depthLimit text
  return (← document.value?, rest)

/-- The value that a whole text holds. -/
def Json.parse? (text : String) : Option Json := do
  let (value, rest) ← Json.parseFront? text
  if rest.isEmpty then return value else none

end EntityQuery
