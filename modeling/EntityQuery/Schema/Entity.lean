import EntityQuery.Dict

/-!
# Entities and their relations

What is known of an entity graph: the primary keys of every entity type, its relations to others,
and where its names differ from those of the tables behind it.
-/

namespace EntityQuery

/-- How many rows stand on the two sides of a relation, the declaring side first. -/
inductive RelationKind
  | manyToOne
  | oneToMany
  | oneToOne
  | manyToMany
deriving DecidableEq, Inhabited, Repr

namespace RelationKind

/-- All kinds. -/
def kinds : List RelationKind := [manyToOne, oneToMany, oneToOne, manyToMany]

/-- The name of a kind in a description of entities. -/
def name : RelationKind → String
  | manyToOne => "many-to-one"
  | oneToMany => "one-to-many"
  | oneToOne => "one-to-one"
  | manyToMany => "many-to-many"

/-- The name of a kind in messages. -/
def title : RelationKind → String
  | manyToOne => "ManyToOne"
  | oneToMany => "OneToMany"
  | oneToOne => "OneToOne"
  | manyToMany => "ManyToMany"

/-- The kind of a name, to the letter. -/
def ofName? (text : String) : Option RelationKind := kinds.find? (·.name == text)

end RelationKind

/-- A relation as its entity declares it. -/
structure Relation where
  /-- the property of the entity that reaches the related rows -/
  name : String
  kind : RelationKind
  /-- the entity type reached -/
  target : String
  /-- whether this side holds the foreign key, or drives the pivot -/
  owner : Bool := false
  /-- the relation of the target that owns this one -/
  mappedBy : Option String := none
  /-- the relation of the target that leads back -/
  inversedBy : Option String := none
  /-- foreign-key properties of this entity, in the order of the target's primary keys -/
  fieldNames : List String := []
deriving DecidableEq, Inhabited, Repr

/-- What is known of one entity type. -/
structure Entity where
  name : String
  /-- its table, where that is not named like the entity -/
  table : Option String := none
  primaryKeys : List String
  relations : List Relation := []
  /-- the columns of those properties that are not named like their column -/
  columns : Dict String := []
deriving DecidableEq, Inhabited, Repr

namespace Entity

/-- The first relation of a name. -/
def relation? (entity : Entity) (name : String) : Option Relation :=
  entity.relations.find? (·.name == name)

/-- Declares one more relation. -/
def addRelation (entity : Entity) (relation : Relation) : Entity :=
  { entity with relations := entity.relations ++ [relation] }

/-- Gives a property its column. -/
def setColumn (entity : Entity) (property column : String) : Entity :=
  { entity with columns := Dict.insert entity.columns property column }

end Entity

end EntityQuery
