import EntityQuery.Proofs.Answer
import EntityQuery.Proofs.Filter.Meaning
import EntityQuery.Proofs.Json.Equality
import EntityQuery.Relation.Link

/-!
# The two sides of a foreign key

A foreign key stands in properties of one entity type and holds the primary key of another. Linked
from the side that holds it, its values are read off the source and the target's primary keys are
compared with them; linked from the other side, the source's primary keys are what the properties of
the target are compared with, and which properties these are is looked up where the target declares
the inverse relation. Both conditions pair the same columns in the same order (`link_forward`,
`link_backward`), so the two sides link the same pairs of records (`link_sides_agree`).
-/

namespace EntityQuery

/-! ## Conditions on columns -/

/-- Equalities hold of a record when it has in every column the value at the same position. -/
theorem Relation.holdsOn_equalities {columns : List Column} {values : List Json}
    (h : columns.length = values.length) (record : Json) :
    (Relation.equalities columns values).HoldsOn record ↔
      List.Forall₂ (fun column value => (column.read record).looselyEqual value = true)
        columns values := by
  rw [Relation.equalities, Predicate.holdsOn_allOf]
  induction columns generalizing values with
  | nil =>
    obtain rfl : values = [] := List.length_eq_zero_iff.1 h.symm
    simp
  | cons column columns ih =>
    cases values with
    | nil => cases h
    | cons value values =>
      have hlength : columns.length = values.length := Nat.succ.inj h
      rw [List.zipWith_cons_cons, List.forall_mem_cons, List.forall₂_cons, ih hlength]
      rfl

/-! ## Values of a source -/

theorem Json.get?_eq_getOrNull {value : Json} {key : String}
    (h : (value.get? key).isSome = true) : value.get? key = some (value.getOrNull key) := by
  obtain ⟨found, hfound⟩ := Option.isSome_iff_exists.1 h
  rw [getOrNull, hfound, Option.getD_some]

theorem Json.mapM_get?_eq_some {value : Json} {keys : List String}
    (h : ∀ key ∈ keys, (value.get? key).isSome = true) :
    keys.mapM value.get? = some (keys.map value.getOrNull) := by
  induction keys with
  | nil => rfl
  | cons key keys ih =>
    have ⟨hkey, hrest⟩ := List.forall_mem_cons.1 h
    rw [List.mapM_cons, get?_eq_getOrNull hkey, ih hrest]
    rfl

/-- Declared properties that are all there give their values, null among them or not. -/
theorem Relation.declaredValues?_eq_some {source : Json} {fields : List String}
    (hne : fields ≠ []) (h : ∀ field ∈ fields, (source.get? field).isSome = true) :
    Relation.declaredValues? source fields = some (fields.map source.getOrNull) := by
  have hsome : fields.isEmpty = false := List.isEmpty_eq_false_iff.2 hne
  rw [Relation.declaredValues?, hsome, if_neg Bool.false_ne_true, Json.mapM_get?_eq_some h]

theorem Record.isNull_of_present? {record value : Json} {key : String}
    (h : present? record key = some value) : value.isNull = false := by
  obtain ⟨-, hnull⟩ := Option.filter_eq_some_iff.1 h
  simpa using hnull

theorem Record.present?_eq_some {record : Json} {key : String}
    (h : (present? record key).isSome = true) :
    present? record key = some (record.getOrNull key) ∧
      (record.getOrNull key).isNull = false := by
  obtain ⟨value, hvalue⟩ := Option.isSome_iff_exists.1 h
  obtain ⟨hget, -⟩ := Option.filter_eq_some_iff.1 hvalue
  have heq : record.getOrNull key = value := by
    rw [Json.getOrNull, hget, Option.getD_some]
  rw [heq]
  exact ⟨hvalue, isNull_of_present? hvalue⟩

theorem Record.keyValues_eq_ok {record : Json} (entity : String) {keys : List String}
    (h : ∀ key ∈ keys, (present? record key).isSome = true) :
    keyValues record entity keys = .ok (keys.map record.getOrNull) := by
  induction keys with
  | nil => rfl
  | cons key keys ih =>
    have ⟨hkey, hrest⟩ := List.forall_mem_cons.1 h
    rw [keyValues, (present?_eq_some hkey).1, ih hrest]
    rfl

/-! ## Foreign keys -/

/-- A foreign key of a schema, seen from both sides: `relation` of the entity type `child` holds the
primary key of `parent` in properties of its own, one for each column, and `inverse` of `parent`
leads back by it. -/
structure ForeignKey (schema : Schema) (child relation parent inverse : String) where
  forward : Relation
  backward : Relation
  keys : List String
  forward_declared : schema.relation? child relation = some forward
  forward_target : forward.target = parent
  forward_holds : forward.kind = .manyToOne ∨ forward.kind = .oneToOne ∧ forward.owner = true
  backward_declared : schema.relation? parent inverse = some backward
  backward_target : backward.target = child
  backward_leads : backward.kind = .oneToMany ∨ backward.kind = .oneToOne ∧ backward.owner = false
  backward_by : (backward.mappedBy <|> backward.inversedBy) = some relation
  keys_declared : schema.primaryKeys parent = .ok keys
  fields_ne : forward.fieldNames ≠ []
  length_eq : forward.fieldNames.length = keys.length

namespace ForeignKey

variable {schema : Schema} {child relation parent inverse : String}
  (key : ForeignKey schema child relation parent inverse) {a b : Json}

/-- The foreign key of one record is the primary key of another, column by column. What is absent
reads as null. -/
def Refers (a b : Json) : Prop :=
  List.Forall₂ (fun field column => (a.getOrNull field).looselyEqual (b.getOrNull column) = true)
    key.forward.fieldNames key.keys

/-- A foreign key with null in it is the primary key of nothing that has one. -/
theorem not_refers_of_null {field : String} (hfield : field ∈ key.forward.fieldNames)
    (hnull : (a.getOrNull field).isNull = true)
    (hb : ∀ column ∈ key.keys, (Record.present? b column).isSome = true) : ¬key.Refers a b := by
  intro hrefers
  obtain ⟨column, hcolumn, hequal⟩ := Pairing.exists_of_mem_right hrefers.flip hfield
  have hpresent := (Record.present?_eq_some (hb column hcolumn)).2
  rw [← Json.isNull_of_looselyEqual hequal, hnull] at hpresent
  cases hpresent

/-! ## The side that holds the key -/

theorem link_forward_eq (ha : ∀ field ∈ key.forward.fieldNames, (a.get? field).isSome = true) :
    schema.link child a relation = .ok (Relation.equalities (key.keys.map .ofField)
      (key.forward.fieldNames.map a.getOrNull)) := by
  have hfound : schema.relation child relation = .ok key.forward := by
    rw [Schema.relation, key.forward_declared]
  have hkeys : schema.primaryKeys key.forward.target = .ok key.keys := by
    rw [key.forward_target, key.keys_declared]
  have hcount : Relation.checkFieldCount child key.forward key.forward.fieldNames key.keys =
      .ok () := by
    simp [Relation.checkFieldCount, key.length_eq]
  have hvalues : Relation.foreignKeyValues? a key.forward key.forward.fieldNames key.keys =
      some (key.forward.fieldNames.map a.getOrNull) := by
    rw [Relation.foreignKeyValues?, Relation.declaredValues?_eq_some key.fields_ne ha]
    rfl
  -- both kinds that hold a key link by it, whatever they do without one
  have hlink : ∀ otherwise, Relation.linkByForeignKey schema child a key.forward
      key.forward.fieldNames otherwise = .ok (Relation.equalities (key.keys.map .ofField)
        (key.forward.fieldNames.map a.getOrNull)) := by
    intro otherwise
    rw [Relation.linkByForeignKey, hkeys, Answer.ok_bind, hcount, Answer.ok_bind, hvalues]
    rfl
  rw [Schema.link, hfound, Answer.ok_bind, Relation.link]
  rcases key.forward_holds with hkind | ⟨hkind, howner⟩
  · rw [Relation.strategy, hkind, Answer.ok_bind]
    exact hlink _
  · rw [Relation.strategy, hkind, howner, Answer.ok_bind]
    exact hlink _

theorem link_forward (ha : ∀ field ∈ key.forward.fieldNames, (a.get? field).isSome = true) :
    ∃ p, schema.link child a relation = .ok p ∧ ∀ b, p.HoldsOn b ↔ key.Refers a b := by
  refine ⟨_, key.link_forward_eq ha, fun b => ?_⟩
  have hlength : (key.keys.map Column.ofField).length =
      (key.forward.fieldNames.map a.getOrNull).length := by
    rw [List.length_map, List.length_map, key.length_eq]
  rw [Relation.holdsOn_equalities hlength, List.forall₂_map_left_iff, List.forall₂_map_right_iff,
    Refers]
  constructor
  · intro h
    exact h.flip.imp fun field column hequal => (Json.looselyEqual_comm _ _).trans hequal
  · intro h
    exact h.flip.imp fun column field hequal => (Json.looselyEqual_comm _ _).trans hequal

/-! ## The side that leads back -/

theorem link_backward_eq (hb : ∀ column ∈ key.keys, (Record.present? b column).isSome = true) :
    schema.link parent b inverse = .ok (Relation.equalities
      (key.forward.fieldNames.map .ofField) (key.keys.map b.getOrNull)) := by
  have hfound : schema.relation parent inverse = .ok key.backward := by
    rw [Schema.relation, key.backward_declared]
  have hfields : Relation.inverseFields schema key.backward relation = key.forward.fieldNames := by
    rw [Relation.inverseFields, key.backward_target, key.forward_declared]
  have hsome : key.forward.fieldNames.isEmpty = false := List.isEmpty_eq_false_iff.2 key.fields_ne
  have hsource : Relation.sourceKey schema parent b = .ok (key.keys, key.keys.map b.getOrNull) := by
    rw [Relation.sourceKey, key.keys_declared, Answer.ok_bind, Record.keyValues_eq_ok parent hb]
    rfl
  have hlink : Relation.linkByInverse schema parent b key.backward relation =
      .ok (Relation.equalities (key.forward.fieldNames.map .ofField)
        (key.keys.map b.getOrNull)) := by
    simp only [Relation.linkByInverse, hfields, hsome, hsource, Answer.ok_bind]
    rw [if_neg Bool.false_ne_true, if_pos key.length_eq]
    rfl
  have hrequire : Relation.require parent key.backward
      (key.backward.mappedBy <|> key.backward.inversedBy) "mappedBy" = .ok relation := by
    rw [key.backward_by]
    rfl
  rw [Schema.link, hfound, Answer.ok_bind, Relation.link]
  rcases key.backward_leads with hkind | ⟨hkind, howner⟩
  · rw [Relation.strategy, hkind, hrequire]
    exact hlink
  · rw [Relation.strategy, hkind, howner, hrequire]
    exact hlink

theorem link_backward (hb : ∀ column ∈ key.keys, (Record.present? b column).isSome = true) :
    ∃ q, schema.link parent b inverse = .ok q ∧ ∀ a, q.HoldsOn a ↔ key.Refers a b := by
  refine ⟨_, key.link_backward_eq hb, fun a => ?_⟩
  have hlength : (key.forward.fieldNames.map Column.ofField).length =
      (key.keys.map b.getOrNull).length := by
    rw [List.length_map, List.length_map, key.length_eq]
  rw [Relation.holdsOn_equalities hlength, List.forall₂_map_left_iff, List.forall₂_map_right_iff]
  rfl

/-- **The two sides of a foreign key link the same pairs of records.** A record that has the
properties of the foreign key, null or not, is linked from its side, and one that has the primary
key from the other; each satisfies the condition of the other exactly when the foreign key of the
one is the primary key of the other, which it never is with null in it. -/
theorem link_sides_agree
    (ha : ∀ field ∈ key.forward.fieldNames, (a.get? field).isSome = true)
    (hb : ∀ column ∈ key.keys, (Record.present? b column).isSome = true) :
    ∃ p q, schema.link child a relation = .ok p ∧ schema.link parent b inverse = .ok q ∧
      (p.HoldsOn b ↔ q.HoldsOn a) ∧ (p.HoldsOn b ↔ key.Refers a b) ∧
      ((∃ field ∈ key.forward.fieldNames, a.get? field = some .null) → ¬p.HoldsOn b) := by
  obtain ⟨p, hp, hforward⟩ := key.link_forward ha
  obtain ⟨q, hq, hbackward⟩ := key.link_backward hb
  refine ⟨p, q, hp, hq, ?_, hforward b, ?_⟩
  · rw [hforward, hbackward]
  · rintro ⟨field, hfield, hnull⟩
    rw [hforward]
    refine key.not_refers_of_null hfield ?_ hb
    rw [Json.getOrNull, hnull]
    rfl

end ForeignKey

/-! ## Lines of an order -/

/-- Orders numbered by each shop, and their lines. -/
def shops : Schema := .ofEntities
  [{ name := "Order", primaryKeys := ["shop", "number"],
     relations := [{ name := "lines", kind := .oneToMany, target := "Line",
                     mappedBy := some "order" }] },
   { name := "Line", primaryKeys := ["id"],
     relations := [{ name := "order", kind := .manyToOne, target := "Order",
                     inversedBy := some "lines", fieldNames := ["orderShop", "orderNumber"] }] }]

/-- The order that a line belongs to. -/
def orderOfLine : ForeignKey shops "Line" "order" "Order" "lines" where
  forward := { name := "order", kind := .manyToOne, target := "Order",
               inversedBy := some "lines", fieldNames := ["orderShop", "orderNumber"] }
  backward := { name := "lines", kind := .oneToMany, target := "Line", mappedBy := some "order" }
  keys := ["shop", "number"]
  forward_declared := rfl
  forward_target := rfl
  forward_holds := Or.inl rfl
  backward_declared := rfl
  backward_target := rfl
  backward_leads := Or.inl rfl
  backward_by := rfl
  keys_declared := rfl
  fields_ne := by decide
  length_eq := rfl

/-- The seventh order of the shop in the north. -/
def seventhOrder : Json := .obj [("number", .int 7), ("shop", .str "north")]

/-- The one after it. -/
def eighthOrder : Json := .obj [("number", .int 8), ("shop", .str "north")]

/-- A line of the seventh order. -/
def lineOfSeventh : Json :=
  .obj [("id", .int 1), ("orderNumber", .int 7), ("orderShop", .str "north")]

/-- A line that has no number of its order. -/
def strayLine : Json := .obj [("id", .int 2), ("orderNumber", .null), ("orderShop", .str "north")]

/-- The line and its order lead to each other; the stray line leads nowhere. -/
theorem link_sides_lines :
    (∃ p q, shops.link "Line" lineOfSeventh "order" = .ok p ∧
      shops.link "Order" seventhOrder "lines" = .ok q ∧
      p.HoldsOn seventhOrder ∧ q.HoldsOn lineOfSeventh) ∧
    ∃ p q, shops.link "Line" strayLine "order" = .ok p ∧
      shops.link "Order" seventhOrder "lines" = .ok q ∧
      ¬p.HoldsOn seventhOrder ∧ ¬q.HoldsOn strayLine := by
  have horder : ∀ column ∈ orderOfLine.keys,
      (Record.present? seventhOrder column).isSome = true := by decide
  constructor
  · obtain ⟨p, q, hp, hq, hsides, hrefers, -⟩ := orderOfLine.link_sides_agree
      (show ∀ field ∈ orderOfLine.forward.fieldNames, (lineOfSeventh.get? field).isSome = true by
        decide) horder
    have hequal : orderOfLine.Refers lineOfSeventh seventhOrder := .cons rfl (.cons rfl .nil)
    exact ⟨p, q, hp, hq, hrefers.2 hequal, hsides.1 (hrefers.2 hequal)⟩
  · obtain ⟨p, q, hp, hq, hsides, -, hnull⟩ := orderOfLine.link_sides_agree
      (show ∀ field ∈ orderOfLine.forward.fieldNames, (strayLine.get? field).isSome = true by
        decide) horder
    have hnot : ¬p.HoldsOn seventhOrder := hnull ⟨"orderNumber", by decide, rfl⟩
    exact ⟨p, q, hp, hq, hnot, fun h => hnot (hsides.2 h)⟩

end EntityQuery
