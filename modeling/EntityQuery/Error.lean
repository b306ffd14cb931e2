import EntityQuery.Json.Text
import EntityQuery.Schema.Entity

/-!
# What can go wrong

One cause per constructor, each with what is needed to say what happened; `QueryError.message` is
the only place where a cause is put into words.
-/

namespace EntityQuery

/-- Why an operand does not fit its operator. -/
inductive OperandFault
  | notNullOrBool
  | notArray
  | emptyArray
  | notRange
  | notPattern
deriving DecidableEq, Repr

/-- What the operator asks for. -/
def OperandFault.message : OperandFault → String
  | notNullOrBool => "expected null, true or false"
  | notArray => "expected an array"
  | emptyArray => "expected a non-empty array"
  | notRange => "expected an object with lower and upper"
  | notPattern => "expected a string pattern"

/-- Where a JSON value departs from the form of a filter. -/
inductive FilterFault
  /-- in the place of a filter -/
  | filter (got : Json)
  /-- in the place of a list of filters under a key -/
  | group (key : String) (got : Json)
  /-- under a field name -/
  | field (name : String) (got : Json)

/-- The place and what stands there. -/
def FilterFault.message : FilterFault → String
  | filter got => "expected an object, got " ++ got.text
  | group key got => "`" ++ key ++ "` must be an array of filters, got " ++ got.text
  | field name got => "field `" ++ name
      ++ "` must map to an object of comparisons or a relation filter, got " ++ got.text

/-- What the declaration of a relation lacks. -/
inductive RelationFault
  /-- a relation of this kind has to name this -/
  | unnamed (kind : RelationKind) (what : String)
  /-- it has fewer or more foreign-key fields than the target has keys -/
  | fieldCount (fields keys : Nat) (target : String)
  /-- the inverse relation has fewer or more foreign-key fields than this entity has keys -/
  | inverseFieldCount (inverse : String) (fields keys : Nat)
deriving DecidableEq, Repr

/-- The lack in words. -/
def RelationFault.message : RelationFault → String
  | unnamed kind what => kind.title ++ " relation requires " ++ what
  | fieldCount fields keys target => "declares " ++ toString fields
      ++ " foreign key field(s) for a " ++ toString keys ++ " column primary key on " ++ target
  | inverseFieldCount inverse fields keys => "inverse " ++ inverse ++ " declares "
      ++ toString fields ++ " foreign key field(s) for a " ++ toString keys
      ++ " column primary key"

/-- Why no description of entities could be had. -/
inductive MetadataFault
  | unreadable (path : String)
  | malformed
deriving DecidableEq, Repr

/-- The failure in words. -/
def MetadataFault.message : MetadataFault → String
  | unreadable path => "failed to read " ++ path
  | malformed => "failed to parse metadata"

/-- Everything that can go wrong between a request and its rows. -/
inductive QueryError
  | unknownOperator (operator : String)
  | invalidOperand (operator : String) (operand : Json) (fault : OperandFault)
  | invalidFilter (fault : FilterFault)
  | entityNotFound (entity : String)
  | relationNotFound (entity relation : String)
  | invalidRelation (entity relation : String) (fault : RelationFault)
  | missingForeignKey (entity relation : String)
  | missingPrimaryKey (entity field : String)
  | noAggregateFields
  | unknownAggregate (column : String)
  | metadata (fault : MetadataFault)
  /-- the store refused a selection -/
  | refused (reason : String)
  /-- a job of a batch broke off, leaving a report if it could -/
  | brokeOff (key relation : String) (report : Option String)

namespace QueryError

/-- The cause in words. -/
def message : QueryError → String
  | unknownOperator operator => "unknown comparison operator: " ++ operator
  | invalidOperand operator operand fault => "invalid operand for operator " ++ operator ++ ": "
      ++ fault.message ++ ", got " ++ operand.text
  | invalidFilter fault => "invalid filter: " ++ fault.message
  | entityNotFound entity => "no metadata registered for entity " ++ entity
  | relationNotFound entity relation => "unable to find relation " ++ relation ++ " on " ++ entity
  | invalidRelation entity relation fault => "invalid metadata for relation " ++ entity ++ "."
      ++ relation ++ ": " ++ fault.message
  | missingForeignKey entity relation => "unable to resolve foreign key for relation " ++ entity
      ++ "." ++ relation
      ++ ": configure fieldNames on the relation metadata or load the related object"
  | missingPrimaryKey entity field => "entity " ++ entity ++ " is missing primary key field "
      ++ field
  | noAggregateFields => "aggregate query must request at least one field"
  | unknownAggregate column => "unknown aggregate column encountered: " ++ column
  | metadata fault => "metadata error: " ++ fault.message
  | refused reason => "execution error: " ++ reason
  | brokeOff key relation report => "execution error: coroutine for " ++ key ++ " via " ++ relation
      ++ " panicked: " ++ report.getD "unknown panic"

end QueryError

/-- A result, or what went wrong. -/
abbrev Answer (α : Type) := Except QueryError α

end EntityQuery
