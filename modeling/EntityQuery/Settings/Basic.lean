import EntityQuery.Json.Shape
import EntityQuery.Schema.Wire
import EntityQuery.Settings.Toml
import EntityQuery.Sql.Render
import EntityQuery.Text.LowerCase

/-!
# Settings

The dialect that statements are written in, the file that describes the entities, and whether
statements are logged. Settings come from a file and from the environment laid over it; a file that
cannot be read is passed over with a warning.
-/

namespace EntityQuery

/-- The settings of an application. -/
structure Settings where
  backend : Backend := .postgres
  metadataPath : Option String := none
  logStatements : Bool := false
deriving DecidableEq, Inhabited, Repr

namespace Settings

/-- Reads the record of settings. -/
def ofJson? (value : Json) : Option Settings := do
  match ← Readable.fields? ["backend", "metadata_path", "log_statements"] value with
  | [backend, metadataPath, logStatements] =>
    return {
      backend := ← Shape.withDefault .postgres (Shape.choice Backend.ofName?) backend
      metadataPath := ← Shape.optional Readable.text? metadataPath
      logStatements := ← Shape.withDefault false Readable.bool? logStatements }
  | _ => none

/-! ## From a tree of settings -/

/-- The texts that stand for truth, in any case. -/
def yesWords : List String := ["1", "true", "on", "yes"]

/-- The texts that stand for falsehood, in any case. -/
def noWords : List String := ["0", "false", "off", "no"]

/-- A setting as a truth value: every number but zero is true. -/
def bool? : Setting → Option Bool
  | .bool b => some b
  | .int n => some (n != 0)
  | .text s =>
    if yesWords.contains (Text.lower s) then some true
    else if noWords.contains (Text.lower s) then some false
    else none
  | _ => none

/-- A setting as a text: numbers and truth values are taken as they are written. -/
def text? : Setting → Option String
  | .text s => some s
  | .int n => some (toString n)
  | .bool true => some "true"
  | .bool false => some "false"
  | _ => none

/-- A setting as a text that may be missing. -/
def textOrNone? : Setting → Option (Option String)
  | .unset => some none
  | setting => (text? setting).map some

/-- The dialect of a name in any case. -/
def backendNamed? (name : String) : Option Backend :=
  Backend.backends.find? fun backend => Text.lower backend.name == Text.lower name

/-- A setting as a dialect: its name, or a table that holds something under its name alone. -/
def backend? : Setting → Option Backend
  | .text name => backendNamed? name
  | .table [(name, _)] => backendNamed? name
  | _ => none

/-- Reads a setting that may be missing. -/
def readOr {α : Type} (default : α) (read : Setting → Option α) : Option Setting → Option α
  | some setting => read setting
  | none => some default

/-- Reads the settings one by one. -/
def ofParts? (backend metadataPath logStatements : Option Setting) : Option Settings := do
  return {
    backend := ← readOr .postgres backend? backend
    metadataPath := ← readOr none textOrNone? metadataPath
    logStatements := ← readOr false bool? logStatements }

/-- Reads settings from a table by their keys or from a list by their order; what is no setting is
passed over. -/
def ofSetting? : Setting → Option Settings
  | .table entries => ofParts? (Dict.get? entries "backend") (Dict.get? entries "metadata_path")
      (Dict.get? entries "log_statements")
  | .list items => ofParts? items[0]? items[1]? items[2]?
  | _ => none

/-- The key of these settings among those of other parts of an application. -/
def sectionKey : String := "query"

/-- Reads the settings out of a whole tree. Where there are none they are the default. -/
def ofTree? (tree : Setting) : Option Settings :=
  readOr {} ofSetting? (Dict.get? tree.entries sectionKey)

/-! ## Sources -/

/-- What follows a beginning. -/
def afterStart? : List Char → List Char → Option (List Char)
  | [], rest => some rest
  | a :: start, b :: rest => if a = b then afterStart? start rest else none
  | _ :: _, [] => none

/-- Double underscores as dots. -/
def dotsOfUnderscores : List Char → List Char
  | '_' :: '_' :: rest => '.' :: dotsOfUnderscores rest
  | c :: rest => c :: dotsOfUnderscores rest
  | [] => []

/-- The path of an environment variable of an application: behind the application's name, in any
case, and two underscores, two underscores part the keys. -/
def variablePath? (application name : String) : Option String :=
  (afterStart? (Text.lower (application ++ "__")).toList (Text.lower name).toList).map
    fun rest => String.ofList (dotsOfUnderscores rest)

/-- The settings that environment variables give. -/
def ofEnvironment (application : String) (vars : List (String × String)) :
    List (String × Setting) :=
  vars.filterMap fun (name, value) =>
    (variablePath? application name).map fun path => (path, .text value)

/-- What came of loading settings. -/
structure Loaded where
  /-- whether there was a file that could not be read -/
  warned : Bool
  /-- the settings, if they could be made out -/
  settings : Option Settings
deriving DecidableEq

/-- The message for settings that could not be made out. -/
def failure : String := "Query configuration could not be loaded from file or environment"

/-- Loads the settings of an application from the text of its file, if there is one, under its
environment variables. -/
def load (application : String) (file : Option String) (vars : List (String × String)) :
    Loaded :=
  let environment := ofEnvironment application vars
  let base : Setting := .table []
  match file.map Toml.parse? with
  | none => ⟨false, ofTree? (base.putAll environment)⟩
  | some none => ⟨true, ofTree? (base.putAll environment)⟩
  | some (some entries) => ⟨false, ofTree? ((base.putAll entries).putAll environment)⟩

/-! ## Use -/

/-- The text of a statement in the dialect set. -/
def render (settings : Settings) (statement : Sql.Statement) : String :=
  statement.render settings.backend

/-- What is logged when a statement is rendered. -/
def logged (settings : Settings) (statement : Sql.Statement) : List String :=
  if settings.logStatements then
    ["[" ++ settings.backend.name ++ "] " ++ settings.render statement]
  else []

/-- The schema described in the file that is set; without one nothing is known. -/
def schema (settings : Settings) (files : String → Option String) : Answer Schema :=
  match settings.metadataPath with
  | some path => Schema.load files path
  | none => .ok []

end Settings

end EntityQuery
