import EntityQuery.Error

/-!
# Schemas

A schema is what is known of all entity types, by name. Types that it does not know have no
relations and no primary keys; their tables and columns are named like the types and properties
themselves.
-/

namespace EntityQuery

/-- The known entity types by name. -/
abbrev Schema := Dict Entity

namespace Schema

/-- Adds an entity type, or replaces the one of its name. -/
def register (schema : Schema) (entity : Entity) : Schema := Dict.insert schema entity.name entity

/-- The schema of entity types registered in order. -/
def ofEntities (entities : List Entity) : Schema := entities.foldl register []

/-- What is known of an entity type. -/
def entity? (schema : Schema) (name : String) : Option Entity := Dict.get? schema name

/-- The first relation of a name on an entity type. -/
def relation? (schema : Schema) (entity relation : String) : Option Relation := do
  (← schema.entity? entity).relation? relation

/-- A relation of an entity type, or the complaint that there is none. -/
def relation (schema : Schema) (entity relation : String) : Answer Relation :=
  match schema.relation? entity relation with
  | some found => .ok found
  | none => .error (.relationNotFound entity relation)

/-- The primary keys of an entity type in order. -/
def primaryKeys (schema : Schema) (entity : String) : Answer (List String) :=
  match schema.entity? entity with
  | some found => .ok found.primaryKeys
  | none => .error (.entityNotFound entity)

/-- The column of a property. -/
def columnName (schema : Schema) (entity property : String) : String :=
  match schema.entity? entity with
  | some found => (Dict.get? found.columns property).getD property
  | none => property

/-- The table of an entity type. -/
def tableName (schema : Schema) (entity : String) : String :=
  match schema.entity? entity with
  | some found => found.table.getD entity
  | none => entity

/-- The entity type behind a path of relations, if all of them are declared. -/
def follow (schema : Schema) (entity : String) : List String → Option String
  | [] => some entity
  | relation :: path => do
    schema.follow (← schema.relation? entity relation).target path

/-- The names of columns of an entity type and of those behind its relations. A column keeps the
name of its property where the relations that lead to it are not all declared. -/
def naming (schema : Schema) (entity : String) (path : List String) (property : String) : String :=
  match schema.follow entity path with
  | some owner => schema.columnName owner property
  | none => property

end Schema

end EntityQuery
