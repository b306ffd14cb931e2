import EntityQuery.Predicate.Basic
import EntityQuery.Relation.Record
import EntityQuery.Relation.Strategy
import EntityQuery.Schema.Registry

/-!
# Linking rows to a source

The rows behind a relation of a loaded record satisfy a conjunction of equalities, one for every
column of the key that links them. Foreign-key values come from the properties that the relation
declares, or from a related object that is already loaded; no name is guessed.
-/

namespace EntityQuery.Relation

/-- Columns equal to values, column by column. -/
def equalities (columns : List Column) (values : List Json) : Predicate :=
  .allOf (List.zipWith (fun column value => .compare column .eq value) columns values)

/-- The values of the declared foreign-key properties, if all are there; null is a value. -/
def declaredValues? (source : Json) (foreignKeys : List String) : Option (List Json) :=
  if foreignKeys.isEmpty then none else foreignKeys.mapM source.get?

/-- The primary-key values of the related object that the source has loaded, if it has one and none
of them is null. -/
def loadedValues? (source : Json) (relation : Relation) (targetKeys : List String) :
    Option (List Json) :=
  match source.get? relation.name with
  | some (.obj members) => targetKeys.mapM (Record.present? (.obj members))
  | _ => none

/-- The foreign-key values that a source holds. -/
def foreignKeyValues? (source : Json) (relation : Relation) (foreignKeys targetKeys : List String) :
    Option (List Json) :=
  declaredValues? source foreignKeys <|> loadedValues? source relation targetKeys

/-- Refuses declared foreign keys that do not match the target's primary keys one to one. -/
def checkFieldCount (entity : String) (relation : Relation) (foreignKeys targetKeys : List String) :
    Answer Unit :=
  if foreignKeys.isEmpty || foreignKeys.length == targetKeys.length then .ok ()
  else .error (.invalidRelation entity relation.name
    (.fieldCount foreignKeys.length targetKeys.length relation.target))

/-- The primary keys of the source's entity type, and the source's values of them. -/
def sourceKey (schema : Schema) (entity : String) (source : Json) :
    Answer (List String × List Json) := do
  let keys ← schema.primaryKeys entity
  let values ← Record.keyValues source entity keys
  return (keys, values)

/-- Rows whose relation `name` leads to the source: it equals a key of one column, and each column
of a larger key behind it equals the source's. -/
def linkThrough (schema : Schema) (entity : String) (source : Json) (name : String) :
    Answer Predicate := do
  let (keys, values) ← sourceKey schema entity source
  match values with
  | [value] => return .compare (.ofField name) .eq value
  | _ => return equalities (keys.map (.behind name)) values

/-- The foreign-key properties that the target declares for its relation `inverse`. -/
def inverseFields (schema : Schema) (relation : Relation) (inverse : String) : List String :=
  match schema.relation? relation.target inverse with
  | some found => found.fieldNames
  | none => []

/-- Rows whose relation `inverse` holds the key of the source: its declared foreign-key properties
equal the key, or the relation itself leads to the source where none are declared. -/
def linkByInverse (schema : Schema) (entity : String) (source : Json) (relation : Relation)
    (inverse : String) : Answer Predicate := do
  let fields := inverseFields schema relation inverse
  if fields.isEmpty then linkThrough schema entity source inverse
  else
    let (keys, values) ← sourceKey schema entity source
    if fields.length = keys.length then return equalities (fields.map .ofField) values
    else .error (.invalidRelation entity relation.name
      (.inverseFieldCount inverse fields.length keys.length))

/-- Rows whose primary key the source holds as a foreign key. -/
def linkByForeignKey (schema : Schema) (entity : String) (source : Json) (relation : Relation)
    (foreignKeys : List String) (otherwise : Answer Predicate) : Answer Predicate := do
  let targetKeys ← schema.primaryKeys relation.target
  checkFieldCount entity relation foreignKeys targetKeys
  match foreignKeyValues? source relation foreignKeys targetKeys with
  | some values => return equalities (targetKeys.map .ofField) values
  | none => otherwise

/-- What a source leads to by the inverse of a relation whose foreign key it does not hold. -/
def linkUnresolved (schema : Schema) (entity : String) (source : Json) (relation : Relation) :
    Option String → Answer Predicate
  | some inverse => do
    let (keys, values) ← sourceKey schema entity source
    return equalities (keys.map (.behind inverse)) values
  | none => .error (.missingForeignKey entity relation.name)

/-- The condition that selects the rows behind a relation of a source of an entity type. -/
def link (schema : Schema) (entity : String) (source : Json) (relation : Relation) :
    Answer Predicate := do
  match ← relation.strategy entity with
  | .manyToOne foreignKeys =>
    linkByForeignKey schema entity source relation foreignKeys
      (linkUnresolved schema entity source relation none)
  | .oneToOneOwning foreignKeys inverse =>
    linkByForeignKey schema entity source relation foreignKeys
      (linkUnresolved schema entity source relation inverse)
  | .oneToMany inverse => linkByInverse schema entity source relation inverse
  | .oneToOneInverse inverse => linkByInverse schema entity source relation inverse
  | .manyToManyOwning inverse => linkThrough schema entity source inverse
  | .manyToManyInverse mappedBy => linkThrough schema entity source mappedBy

end EntityQuery.Relation

namespace EntityQuery.Schema

/-- The condition that selects the rows behind a relation by its name. That the relation is declared
is settled before the source is looked at. -/
def link (schema : Schema) (entity : String) (source : Json) (relation : String) :
    Answer Predicate := do
  (← schema.relation entity relation).link schema entity source

/-- Links sources in order, keeping equal conditions once. -/
def linkDistinct (schema : Schema) (entity : String) (relation : Relation) :
    List Json → List Predicate → Answer (List Predicate)
  | [], linked => .ok linked
  | source :: sources, linked => do
    let condition ← relation.link schema entity source
    linkDistinct schema entity relation sources
      (if linked.any (·.same condition) then linked else linked ++ [condition])

/-- The condition that selects the rows behind a relation of any of the sources; none for no
sources. -/
def linkAny (schema : Schema) (entity : String) (sources : List Json) (relation : String) :
    Answer (Option Predicate) := do
  let found ← schema.relation entity relation
  if sources.isEmpty then return none
  else
    let conditions ← linkDistinct schema entity found sources []
    return some (.anyOf conditions)

end EntityQuery.Schema
