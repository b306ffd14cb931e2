import EntityQuery.Error

/-!
# Loaded records

A loaded record is a JSON object; a value of any other kind has no properties. Its primary-key
values, written one after the other, are the text by which it is told from other records.
-/

namespace EntityQuery.Record

/-- The value of a property that is neither absent nor null. -/
def present? (record : Json) (property : String) : Option Json :=
  (record.get? property).filter (!·.isNull)

/-- The primary-key values of a record of an entity type, every one of which has to be there. -/
def keyValues (record : Json) (entity : String) : List String → Answer (List Json)
  | [] => .ok []
  | key :: keys => match present? record key with
    | some value => do
      let values ← keyValues record entity keys
      return value :: values
    | none => .error (.missingPrimaryKey entity key)

/-- The text of primary-key values, parted by bars. -/
def keyText (values : List Json) : String := "|".intercalate (values.map Json.plainText)

end EntityQuery.Record
