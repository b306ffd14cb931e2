import EntityQuery.Json.Reader

/-!
# Strings of a settings file

A string stands in quotes and has escapes, or in apostrophes and has none. Between one of them it
stays on its line; between three of them it may go over several. `scanString` reads all four kinds,
`scanOneLine` the two that a key may be written in.
-/

namespace EntityQuery.Toml

/-! ## Characters -/

/-- The characters with every carriage return before a line feed left out. A return that stays ends
no line, and no line may hold one. -/
def unifyLines : List Char → List Char
  | '\r' :: '\n' :: cs => '\n' :: unifyLines cs
  | c :: cs => c :: unifyLines cs
  | [] => []

/-- Whether a character is a blank within a line. -/
def isBlank (c : Char) : Bool := c == ' ' || c == '\t'

/-- Passes over blanks within a line. -/
def skipBlanks (cs : List Char) : List Char := cs.dropWhile isBlank

/-- Whether a character may stand in a bare key. -/
def isBareKey (c : Char) : Bool := c.isAlphanum || c == '_' || c == '-'

/-- Whether a character may not stand inside a string or a comment. -/
def isControl (c : Char) : Bool := (decide (c.toNat < 0x20) && c != '\t') || c == '\x7f'

/-! ## Strings -/

/-- How a string is written: in quotes with escapes or in apostrophes without, and between one of
them on a line or between three of them over several lines. -/
structure Quoting where
  quote : Char
  severalLines : Bool

/-- Whether a backslash starts an escape. -/
def Quoting.hasEscapes (style : Quoting) : Bool := style.quote == '"'

/-- Whether a character may stand in the string for itself. -/
def Quoting.allows (style : Quoting) (c : Char) : Bool :=
  !isControl c || (style.severalLines && c == '\n')

/-- The end of a string, if it is at the front: what the string still holds, and what follows it. Of
three closing quotes the last three close, so up to two more before them belong to the string. -/
def Quoting.close? (style : Quoting) (cs : List Char) : Option (List Char × List Char) :=
  let quotes := (cs.takeWhile (· == style.quote)).length
  if style.severalLines then
    if quotes < 3 then none
    else
      let held := min (quotes - 3) 2
      some (cs.take held, cs.drop (held + 3))
  else if quotes = 0 then none
  else some ([], cs.drop 1)

/-- The natural that hexadecimal digits write. -/
def hexNumber? (digits : List Char) : Option Nat :=
  digits.foldlM (fun n c => (Quoted.hexValue? c).map (n * 16 + ·)) 0

/-- The character of a code point, if there is one. -/
def char? (n : Nat) : Option Char := if n.isValidChar then some (Char.ofNat n) else none

/-- What an escape stands for, and what follows it. At the end of one of several lines it stands for
nothing, and all blanks and lines up to the next character are passed over. -/
def Quoting.scanEscape (style : Quoting) (cs : List Char) : Option (List Char × List Char) :=
  match cs with
  | 'u' :: a :: b :: c :: d :: rest => do
    return ([← char? (← hexNumber? [a, b, c, d])], rest)
  | 'U' :: a :: b :: c :: d :: e :: f :: g :: h :: rest => do
    return ([← char? (← hexNumber? [a, b, c, d, e, f, g, h])], rest)
  | '/' :: _ => none
  | c :: rest => match style.severalLines, skipBlanks cs with
    | true, '\n' :: rest => some ([], rest.dropWhile fun c => isBlank c || c == '\n')
    | _, _ => (Quoted.escape? c).map fun c => ([c], rest)
  | [] => none

/-- A string up to its end, and what follows it. A step of `fuel` is spent on every character and
every escape. -/
def Quoting.scan (style : Quoting) : (fuel : Nat) → List Char → Option (List Char × List Char)
  | 0, _ => none
  | _, [] => none
  | fuel + 1, c :: cs => match style.close? (c :: cs) with
    | some done => some done
    | none => do
      let (first, rest) ←
        if style.hasEscapes && c == '\\' then style.scanEscape cs
        else if style.allows c then some ([c], cs)
        else none
      let (more, rest) ← style.scan fuel rest
      return (first ++ more, rest)

/-- A string after its opening quotes, and what follows it. -/
def Quoting.text? (style : Quoting) (cs : List Char) : Option (String × List Char) :=
  (style.scan cs.length cs).map fun (text, rest) => (String.ofList text, rest)

/-- What follows a line break at the front, if there is one. -/
def afterBreak : List Char → List Char
  | '\n' :: cs => cs
  | cs => cs

/-- A string on one line, and what follows it. -/
def scanOneLine : List Char → Option (String × List Char)
  | '"' :: cs => Quoting.text? ⟨'"', false⟩ cs
  | '\'' :: cs => Quoting.text? ⟨'\'', false⟩ cs
  | _ => none

/-- A string, and what follows it. One over several lines may start on the line after its quotes. -/
def scanString : List Char → Option (String × List Char)
  | '"' :: '"' :: '"' :: cs => Quoting.text? ⟨'"', true⟩ (afterBreak cs)
  | '\'' :: '\'' :: '\'' :: cs => Quoting.text? ⟨'\'', true⟩ (afterBreak cs)
  | cs => scanOneLine cs

end EntityQuery.Toml
