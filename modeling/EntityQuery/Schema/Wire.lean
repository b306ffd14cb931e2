import EntityQuery.Json.Reader
import EntityQuery.Json.Shape
import EntityQuery.Schema.Registry

/-!
# Descriptions of entities

An entity graph is described by a JSON array with one record for each entity type. Everything is
written out, `null` standing for what is absent; read back, a missing field counts as its default.
-/

namespace EntityQuery

namespace Relation

/-- The fields of the record of a relation, in order. -/
def fieldKeys : List String :=
  ["name", "kind", "targetType", "owner", "mappedBy", "inversedBy", "fieldNames"]

/-- Reads the record of a relation. -/
def read? {α : Type} [Readable α] (value : α) : Option Relation := do
  match ← Readable.fields? fieldKeys value with
  | [name, kind, target, owner, mappedBy, inversedBy, fieldNames] =>
    return {
      name := ← Shape.required Readable.text? name
      kind := ← Shape.required (Shape.choice RelationKind.ofName?) kind
      target := ← Shape.required Readable.text? target
      owner := ← Shape.withDefault false Readable.bool? owner
      mappedBy := ← Shape.optional Readable.text? mappedBy
      inversedBy := ← Shape.optional Readable.text? inversedBy
      fieldNames := ← Shape.withDefault [] Shape.texts fieldNames }
  | _ => none

end Relation

namespace Json

/-- A list of texts. -/
def ofTexts (texts : List String) : Json := arr (texts.map str)

/-- A text, or `null` for none. -/
def ofText? : Option String → Json
  | some text => str text
  | none => null

/-- An object of the given members, a repeated key keeping its last value. -/
def ofMembers (members : List (String × Json)) : Json := obj (Dict.ofEntries members)

end Json

/-- Writes the record of a relation. -/
def Relation.toJson (relation : Relation) : Json := .ofMembers [
  ("name", .str relation.name),
  ("kind", .str relation.kind.name),
  ("targetType", .str relation.target),
  ("owner", .bool relation.owner),
  ("mappedBy", .ofText? relation.mappedBy),
  ("inversedBy", .ofText? relation.inversedBy),
  ("fieldNames", .ofTexts relation.fieldNames)]

namespace Entity

/-- The fields of the record of an entity type, in order. -/
def fieldKeys : List String := ["name", "table", "primaryKeys", "relations", "columns"]

/-- Reads the record of an entity type. -/
def read? {α : Type} [Readable α] (value : α) : Option Entity := do
  match ← Readable.fields? fieldKeys value with
  | [name, table, primaryKeys, relations, columns] =>
    return {
      name := ← Shape.required Readable.text? name
      table := ← Shape.optional Readable.text? table
      primaryKeys := ← Shape.required Shape.texts primaryKeys
      relations := ← Shape.withDefault [] (Shape.list Relation.read?) relations
      columns := ← Shape.withDefault [] (Shape.dict Readable.text?) columns }
  | _ => none

/-- Writes the record of an entity type. -/
def toJson (entity : Entity) : Json := .ofMembers [
  ("name", .str entity.name),
  ("table", .ofText? entity.table),
  ("primaryKeys", .ofTexts entity.primaryKeys),
  ("relations", .arr (entity.relations.map Relation.toJson)),
  ("columns", .obj (entity.columns.map fun entry => (entry.1, .str entry.2)))]

end Entity

namespace Schema

/-- The entity types that a text describes. What the shapes pass over is never looked into, so it
may be nested to any depth. -/
def entitiesOfText? (text : String) : Option (List Entity) := do
  Shape.list Entity.read? (← Document.parse? text.length text)

/-- The schema that a text describes. -/
def ofText (text : String) : Answer Schema :=
  match entitiesOfText? text with
  | some entities => .ok (ofEntities entities)
  | none => .error (.metadata .malformed)

/-- The schema described in the file at a path; `files` gives the contents of readable files. -/
def load (files : String → Option String) (path : String) : Answer Schema :=
  match files path with
  | some text => ofText text
  | none => .error (.metadata (.unreadable path))

end Schema

end EntityQuery
