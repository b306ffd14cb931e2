import EntityQuery.Error

/-!
# How a relation links rows

The declaration of a relation decides how the rows behind it are found: by foreign keys that the
source holds, by a relation of the target that leads back, or through a pivot. `Relation.strategy`
makes the decision once, and refuses a declaration that lacks a name the decision needs.
-/

namespace EntityQuery

/-- How the rows behind a relation are found. -/
inductive Strategy
  /-- the source holds the key of the related row -/
  | manyToOne (foreignKeys : List String)
  /-- related rows hold the key of the source, by their relation `inverse` -/
  | oneToMany (inverse : String)
  /-- the source holds the key of the related row, or failing that leads there by `inverse` -/
  | oneToOneOwning (foreignKeys : List String) (inverse : Option String)
  /-- the related row holds the key of the source, by its relation `inverse` -/
  | oneToOneInverse (inverse : String)
  /-- a pivot driven from this side, seen from the related rows as `inverse` -/
  | manyToManyOwning (inverse : String)
  /-- a pivot driven by the relation `mappedBy` of the other side -/
  | manyToManyInverse (mappedBy : String)
deriving DecidableEq, Inhabited, Repr

namespace Relation

/-- A name that the strategy of a relation cannot do without. -/
def require (entity : String) (relation : Relation) (name : Option String) (what : String) :
    Answer String :=
  match name with
  | some found => .ok found
  | none => .error (.invalidRelation entity relation.name (.unnamed relation.kind what))

/-- The strategy of a relation declared on an entity type. -/
def strategy (entity : String) (relation : Relation) : Answer Strategy :=
  match relation.kind, relation.owner with
  | .manyToOne, _ => .ok (.manyToOne relation.fieldNames)
  | .oneToMany, _ =>
    .oneToMany <$> relation.require entity (relation.mappedBy <|> relation.inversedBy) "mappedBy"
  | .oneToOne, true => .ok (.oneToOneOwning relation.fieldNames relation.inversedBy)
  | .oneToOne, false =>
    .oneToOneInverse
      <$> relation.require entity (relation.mappedBy <|> relation.inversedBy) "mappedBy"
  | .manyToMany, true =>
    .manyToManyOwning <$> relation.require entity relation.inversedBy "inversedBy"
  | .manyToMany, false =>
    .manyToManyInverse <$> relation.require entity relation.mappedBy "mappedBy"

end Relation

/-- Whether the source holds the foreign key. -/
def Strategy.sourceHoldsKey : Strategy → Bool
  | manyToOne _ => true
  | oneToOneOwning _ _ => true
  | _ => false

end EntityQuery
