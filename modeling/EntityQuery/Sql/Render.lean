import EntityQuery.Json.Text
import EntityQuery.Number.Shortest
import EntityQuery.Sql.Statement

/-!
# The text of statements

The text of a statement in three dialects, values written in place. The dialects differ in the quote
around names, in how text literals are escaped, and in how an order places nulls.
-/

namespace EntityQuery

/-- A dialect of SQL. -/
inductive Backend
  | postgres
  | mysql
  | sqlite
deriving DecidableEq, Inhabited, Repr

namespace Backend

/-- All dialects. -/
def backends : List Backend := [postgres, mysql, sqlite]

/-- The name of a dialect. -/
def name : Backend → String
  | postgres => "postgres"
  | mysql => "mysql"
  | sqlite => "sqlite"

/-- The dialect of a name, to the letter. -/
def ofName? (text : String) : Option Backend := backends.find? (·.name == text)

end Backend

namespace Sql

/-! ## Names -/

/-- The quote around names. -/
def nameQuote : Backend → Char
  | .mysql => '\x60'
  | _ => '"'

/-- A name in quotes, quotes inside written twice. -/
def quoteName (backend : Backend) (name : String) : String :=
  let q := nameQuote backend
  String.ofList (q :: name.toList.flatMap (fun c => if c = q then [c, c] else [c]) ++ [q])

/-- A column, after its table if it has one. -/
def columnText (backend : Backend) (column : ColumnName) : String :=
  match column.table with
  | some table => quoteName backend table ++ "." ++ quoteName backend column.name
  | none => quoteName backend column.name

/-! ## Values -/

/-- Floating-point numbers are always positional, a whole one has no fraction, and of two equally
near shortest decimals the larger is written. -/
def numberLayout : NumberLayout := ⟨.up, "", fun _ => true⟩

/-- A character of a text literal where a backslash escapes. -/
def escapeMysql (c : Char) : List Char :=
  if c = '\\' then ['\\', '\\']
  else if c = '"' then ['\\', '"']
  else if c = '\'' then ['\\', '\'']
  else if c = '\x00' then ['\\', '0']
  else if c = '\x08' then ['\\', 'b']
  else if c = '\t' then ['\\', 't']
  else if c = '\x1a' then ['\\', 'z']
  else if c = '\n' then ['\\', 'n']
  else if c = '\r' then ['\\', 'r']
  else [c]

/-- Three octal digits. -/
def octal (n : Nat) : List Char :=
  [n / 64, n / 8 % 8, n % 8].flatMap fun digit => Nat.toDigits 8 digit

/-- Whether a character takes a text literal into its escaped form. -/
def asksForEscapes (c : Char) : Bool :=
  decide (c.toNat < 0x20) || c == '\x7f' || c == '\\' || c == '\''

/-- A character of a text literal in escaped form. -/
def escapePostgres (c : Char) : List Char :=
  if c = '\x08' then ['\\', 'b']
  else if c = '\x0c' then ['\\', 'f']
  else if c = '\n' then ['\\', 'n']
  else if c = '\r' then ['\\', 'r']
  else if c = '\t' then ['\\', 't']
  else if c = '\\' then ['\\', '\\']
  else if c = '\'' then ['\\', '\'']
  else if c = '\x00' then ['\\', '0']
  else if asksForEscapes c then '\\' :: octal c.toNat
  else [c]

/-- A text literal. -/
def textLiteral (backend : Backend) (text : String) : String :=
  let cs := text.toList
  match backend with
  | .sqlite =>
    String.ofList ('\'' :: cs.flatMap (fun c => if c = '\'' then [c, c] else [c]) ++ ['\''])
  | .mysql => String.ofList ('\'' :: cs.flatMap escapeMysql ++ ['\''])
  | .postgres =>
    if cs.any asksForEscapes then
      String.ofList ('E' :: '\'' :: cs.flatMap escapePostgres ++ ['\''])
    else String.ofList ('\'' :: cs ++ ['\''])

/-- A truth value. -/
def boolText (value : Bool) : String := if value then "TRUE" else "FALSE"

/-- A value in place. -/
def valueText (backend : Backend) : Value → String
  | .null => "NULL"
  | .bool b => boolText b
  | .signed n | .unsigned n => toString n
  | .double x => numberLayout.write x
  | .text s => textLiteral backend s
  | .json v => textLiteral backend v.text

/-! ## Conditions -/

/-- The sign of a comparison. -/
def signText : Sign → String
  | .eq => " = "
  | .ne => " <> "
  | .gt => " > "
  | .gte => " >= "
  | .lt => " < "
  | .lte => " <= "

/-- A test. Membership in the empty list is a comparison that is always false, and its negation one
that is always true. -/
def testText (backend : Backend) : Test → String
  | .isNull column => columnText backend column ++ " IS NULL"
  | .isNotNull column => columnText backend column ++ " IS NOT NULL"
  | .compare column sign value =>
    columnText backend column ++ signText sign ++ valueText backend value
  | .like column lowered negated pattern =>
    (if lowered then "LOWER(" ++ columnText backend column ++ ")" else columnText backend column)
      ++ (if negated then " NOT LIKE " else " LIKE ") ++ textLiteral backend pattern
  | .oneOf _ negated [] => if negated then "1 = 1" else "1 = 2"
  | .oneOf column negated values =>
    columnText backend column ++ (if negated then " NOT IN (" else " IN (")
      ++ ", ".intercalate (values.map (valueText backend)) ++ ")"
  | .isBool column negated value =>
    columnText backend column ++ (if negated then " IS NOT " else " IS ") ++ boolText value

/-- The word that joins two conditions. -/
inductive Junction
  | and
  | or
deriving DecidableEq

/-- The word of a junction, between blanks. -/
def Junction.text : Junction → String
  | and => " AND "
  | or => " OR "

/-- What a condition of no children is. -/
def Junction.unit : Junction → Bool
  | and => true
  | or => false

/-- The text of a condition, and the word that joins its parts if it is joined of parts. -/
structure Phrase where
  text : String
  joinedBy : Option Junction

namespace Phrase

/-- The text in parentheses. -/
def enclosed (p : Phrase) : String := "(" ++ p.text ++ ")"

/-- Joins two phrases. What is itself joined is enclosed, unless it stands on the left and is joined
by the same word. -/
def join (junction : Junction) (left right : Phrase) : Phrase :=
  let leftText := match left.joinedBy with
    | some inner => if inner = junction then left.text else left.enclosed
    | none => left.text
  let rightText := match right.joinedBy with
    | some _ => right.enclosed
    | none => right.text
  ⟨leftText ++ junction.text ++ rightText, some junction⟩

/-- Joins phrases from left to right; one stands for itself. -/
def joinAll (junction : Junction) : List Phrase → Phrase
  | [] => ⟨boolText junction.unit, none⟩
  | first :: rest => rest.foldl (join junction) first

end Phrase

mutual

/-- The text of a condition. -/
def phrase (backend : Backend) : Condition → Phrase
  | .test test => ⟨testText backend test, none⟩
  | .all children => .joinAll .and (phrases backend children)
  | .any children => .joinAll .or (phrases backend children)
termination_by structural condition => condition

/-- The texts of several conditions. -/
def phrases (backend : Backend) : List Condition → List Phrase
  | [] => []
  | c :: cs => phrase backend c :: phrases backend cs
termination_by structural conditions => conditions

end

/-! ## Statements -/

/-- What is selected for one column of the result. -/
def expressionText (backend : Backend) : Expression → String
  | .everything => "*"
  | .column column => columnText backend column
  | .apply function column => function ++ "(" ++ columnText backend column ++ ")"
  | .countRows => "COUNT(*)"

/-- A selected expression with its name. -/
def selectedText (backend : Backend) (s : Selected) : String :=
  match s.label with
  | some label => expressionText backend s.expression ++ " AS " ++ quoteName backend label
  | none => expressionText backend s.expression

/-- One key of an order. MySQL has no words for the place of nulls and orders by whether the column
is null before it orders by the column. -/
def orderKeyText (backend : Backend) (key : OrderKey) : String :=
  let column := columnText backend key.column
  let order := column ++ if key.descending then " DESC" else " ASC"
  match backend, key.nulls with
  | _, none => order
  | .mysql, some .first => column ++ " IS NULL DESC, " ++ order
  | .mysql, some .last => column ++ " IS NULL ASC, " ++ order
  | _, some .first => order ++ " NULLS FIRST"
  | _, some .last => order ++ " NULLS LAST"

/-- A list after its introducing words; nothing for the empty list. -/
def clause (words : String) (items : List String) : String :=
  if items.isEmpty then "" else words ++ ", ".intercalate items

/-- A number after its introducing words, if there is one. -/
def bound (words : String) : Option Nat → String
  | some n => words ++ toString n
  | none => ""

/-- The text of a statement. -/
def Statement.render (backend : Backend) (s : Statement) : String :=
  "SELECT " ++ ", ".intercalate (s.selected.map (selectedText backend))
    ++ " FROM " ++ quoteName backend s.table
    ++ (match s.condition with
      | some condition => " WHERE " ++ (phrase backend condition).text
      | none => "")
    ++ clause " GROUP BY " (s.groupBy.map (columnText backend))
    ++ clause " ORDER BY " (s.orderBy.map (orderKeyText backend))
    ++ bound " LIMIT " s.limit ++ bound " OFFSET " s.offset

end Sql

end EntityQuery
