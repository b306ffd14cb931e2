import EntityQuery.Settings.Toml.Line
import EntityQuery.Settings.Toml.Moment

/-!
# Reading flat TOML

The part of TOML that plain settings need: tables and entries, no arrays and nothing inline. A key
may be given once, a table may be opened once, and a table made by dotted keys is closed to headers
of its own. Keys keep their order, since a table that starts with a reserved key is none: it stands
for the point in time under that key.
-/

namespace EntityQuery.Toml

/-! ## Tables under construction -/

/-- How a table came to be. -/
inductive Origin
  /-- on the way to the table of a header -/
  | passed
  /-- by its own header -/
  | opened
  /-- by a dotted key -/
  | dotted
deriving DecidableEq

/-- A table under construction, or a value. -/
inductive Node
  | leaf (value : Setting)
  | table (origin : Origin) (entries : List (String × Node))
deriving Inhabited

namespace Node

/-- Puts an entry in the place of the first of its key, or last if the key is new. -/
def insert (key : String) (new : Node) : List (String × Node) → List (String × Node)
  | [] => [(key, new)]
  | (k, old) :: rest => if k = key then (k, new) :: rest else (k, old) :: insert key new rest

/-- Replaces the entry of a key by what `f` makes of it. -/
def change (key : String) (f : Option Node → Option Node) (entries : List (String × Node)) :
    Option (List (String × Node)) := do
  return insert key (← f (entries.lookup key)) entries

/-- Adds a value under keys in dots to a table; `takesValues` tells whether it may be added to this
very table. Tables on the way may be any but those that a header opened, and values are added only
where dotted keys made the table, or the header that they stand under. -/
def add (value : Setting) : (takesValues : Bool) → List String → List (String × Node) →
    Option (List (String × Node))
  | _, [], _ => none
  | takesValues, [key], entries => change key (fun
    | none => if takesValues then some (.leaf value) else none
    | some _ => none) entries
  | _, key :: keys, entries => change key (fun
    | none => (add value true keys []).map (.table .dotted)
    | some (.table .dotted inner) => (add value true keys inner).map (.table .dotted)
    | some (.table .passed inner) => (add value false keys inner).map (.table .passed)
    | some _ => none) entries

/-- Opens the table under a key, which takes the last place among the entries. -/
def openHere (key : String) (entries : List (String × Node)) : Option (List (String × Node)) :=
  let others := entries.filter fun entry => entry.1 != key
  match entries.lookup key with
  | none => some (others ++ [(key, .table .opened [])])
  | some (.table .passed inner) => some (others ++ [(key, .table .opened inner)])
  | some _ => none

/-- Opens the table of a header. -/
def openTable : List String → List (String × Node) → Option (List (String × Node))
  | [], _ => none
  | [key], entries => openHere key entries
  | key :: keys, entries => change key (fun
    | none => (openTable keys []).map (.table .passed)
    | some (.table origin inner) => (openTable keys inner).map (.table origin)
    | some (.leaf _) => none) entries

/-- Adds a value under keys in dots to the table that a header opened. -/
def addBelow (value : Setting) (keys : List String) :
    List String → List (String × Node) → Option (List (String × Node))
  | [], entries => add value true keys entries
  | key :: header, entries => change key (fun
    | some (.table origin inner) => (addBelow value keys header inner).map (.table origin)
    | _ => none) entries

/-- The key that makes a table a point in time, if it comes first. -/
def momentKey : String := "$__toml_private_datetime"

/-- The text of the point in time that a table stands for, if its first key says that it does; none
inside if the text under that key writes none. -/
def moment? : List (String × Node) → Option (Option String)
  | (key, node) :: _ =>
    if key = momentKey then
      match node with
      | leaf (.text text) => some ((Moment.parse? text).map Moment.text)
      | _ => some none
    else none
  | [] => none

mutual

/-- The settings of a table. -/
def settings? : List (String × Node) → Option (List (String × Setting))
  | [] => some []
  | (key, node) :: rest => do
    let setting ← node.setting?
    return (key, setting) :: (← settings? rest)
termination_by structural entries => entries

/-- The setting that a node has become. -/
def setting? : Node → Option Setting
  | leaf value => some value
  | table _ entries => match moment? entries with
    | some text => text.map .text
    | none => (settings? entries).map .table
termination_by structural node => node

end

end Node

/-! ## Documents -/

/-- Takes in lines, the last opened header being `header`. -/
def takeLines : List Line → List String → List (String × Node) → Option (List (String × Node))
  | [], _, entries => some entries
  | .blank :: rest, header, entries => takeLines rest header entries
  | .header keys :: rest, _, entries => do takeLines rest keys (← Node.openTable keys entries)
  | .entry keys value :: rest, header, entries => do
    takeLines rest header (← Node.addBelow value keys header entries)

/-- The mark that may stand at the very start of a text to tell its encoding. -/
def byteOrderMark : Char := '\ufeff'

/-- A text without the mark at its start. -/
def withoutMark : List Char → List Char
  | c :: cs => if c = byteOrderMark then cs else c :: cs
  | [] => []

/-- The settings that a text gives, if it is well formed and the outermost table stands for
itself. -/
def parse? (text : String) : Option (List (String × Setting)) := do
  let cs := unifyLines (withoutMark text.toList)
  match ← (Node.table .opened (← takeLines (← readLines cs.length cs) [] [])).setting? with
  | .table entries => return entries
  | _ => none

end EntityQuery.Toml
