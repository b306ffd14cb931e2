import EntityQuery.Proofs.Relation.Restricting

/-!
# What a link reads of its source

Of a source a link reads the properties that the relation declares as its foreign key, the primary
key of the source's own type and, of an object under the relation's name, the primary key of the
target. Sources that agree on these (`Relation.AgreeFor`) are linked alike, to one condition or with
one complaint (`link_congr`), so nothing is looked up under a guessed name. The values of a foreign
key are those of the declared properties if all of them are there, whatever object is loaded, and
otherwise those of the loaded object; a declared key that is there in part counts for nothing
(`link_guesses_nothing`).
-/

namespace EntityQuery

/-! ## Readings of a record -/

section Readings

variable {a b : Json} {key : String} {keys : List String}

theorem Record.present?_congr (h : a.get? key = b.get? key) : present? a key = present? b key := by
  unfold present?
  rw [h]

theorem Record.keyValues_congr (entity : String) (h : ∀ key ∈ keys, a.get? key = b.get? key) :
    keyValues a entity keys = keyValues b entity keys := by
  rw [keyValues_eq_mapM, keyValues_eq_mapM]
  apply Pairing.mapM_congr
  intro key hkey
  unfold keyValue
  rw [present?_congr (h key hkey)]

end Readings

namespace Relation

variable {schema : Schema} {entity : String} {relation : Relation} {a b source : Json}
  {keys : List String} {values : List Json}

/-- Both sources have an object under the name of the relation, with one primary key, or neither
has an object there. -/
inductive SameLoaded (schema : Schema) (relation : Relation) (a b : Json) : Prop
  | object {ms ns : Dict Json} (left : a.get? relation.name = some (.obj ms))
      (right : b.get? relation.name = some (.obj ns))
      (same : ∀ keys, schema.primaryKeys relation.target = .ok keys →
        ∀ key ∈ keys, Dict.get? ms key = Dict.get? ns key)
  | none (left : ∀ ms, a.get? relation.name ≠ some (.obj ms))
      (right : ∀ ns, b.get? relation.name ≠ some (.obj ns))

/-- Two sources agree on what a link of the relation reads. -/
structure AgreeFor (schema : Schema) (entity : String) (relation : Relation) (a b : Json) :
    Prop where
  /-- the properties declared as the foreign key: one value on both, or absent from both -/
  fields : ∀ field ∈ relation.fieldNames, a.get? field = b.get? field
  /-- likewise the primary key of the sources -/
  keys : ∀ keys, schema.primaryKeys entity = .ok keys → ∀ key ∈ keys, a.get? key = b.get? key
  loaded : SameLoaded schema relation a b

/-! ## Sources that agree -/

theorem declaredValues?_congr {fields : List String}
    (h : ∀ field ∈ fields, a.get? field = b.get? field) :
    declaredValues? a fields = declaredValues? b fields := by
  unfold declaredValues?
  rw [Pairing.mapM_congr h]

theorem loadedValues?_of_not_object (h : ∀ ms, source.get? relation.name ≠ some (.obj ms)) :
    loadedValues? source relation keys = none := by
  unfold loadedValues?
  split
  · next ms hms => exact absurd hms (h ms)
  · rfl

theorem SameLoaded.loadedValues?_eq (h : SameLoaded schema relation a b)
    (declared : schema.primaryKeys relation.target = .ok keys) :
    loadedValues? a relation keys = loadedValues? b relation keys := by
  cases h with
  | object left right same =>
    unfold loadedValues?
    rw [left, right]
    apply Pairing.mapM_congr
    intro key hkey
    exact Record.present?_congr (same keys declared key hkey)
  | none left right =>
    rw [loadedValues?_of_not_object left, loadedValues?_of_not_object right]

namespace AgreeFor

variable (h : AgreeFor schema entity relation a b)

include h

theorem foreignKeyValues?_eq (declared : schema.primaryKeys relation.target = .ok keys) :
    foreignKeyValues? a relation relation.fieldNames keys =
      foreignKeyValues? b relation relation.fieldNames keys := by
  unfold foreignKeyValues?
  rw [declaredValues?_congr h.fields, h.loaded.loadedValues?_eq declared]

theorem sourceKey_eq : sourceKey schema entity a = sourceKey schema entity b := by
  unfold sourceKey
  cases hkeys : schema.primaryKeys entity with
  | error e => rfl
  | ok keys =>
    have hvalues : Record.keyValues a entity keys = Record.keyValues b entity keys :=
      Record.keyValues_congr entity (h.keys keys hkeys)
    rw [Answer.ok_bind, Answer.ok_bind, hvalues]

theorem linkThrough_eq (name : String) :
    linkThrough schema entity a name = linkThrough schema entity b name := by
  unfold linkThrough
  rw [h.sourceKey_eq]

theorem linkByInverse_eq (inverse : String) : linkByInverse schema entity a relation inverse =
    linkByInverse schema entity b relation inverse := by
  unfold linkByInverse
  rw [h.linkThrough_eq, h.sourceKey_eq]

theorem linkUnresolved_eq (inverse : Option String) :
    linkUnresolved schema entity a relation inverse =
      linkUnresolved schema entity b relation inverse := by
  cases inverse with
  | none => rfl
  | some inverse =>
    unfold linkUnresolved
    rw [h.sourceKey_eq]

theorem linkByForeignKey_eq (inverse : Option String) :
    linkByForeignKey schema entity a relation relation.fieldNames
        (linkUnresolved schema entity a relation inverse) =
      linkByForeignKey schema entity b relation relation.fieldNames
        (linkUnresolved schema entity b relation inverse) := by
  unfold linkByForeignKey
  rw [h.linkUnresolved_eq]
  cases hkeys : schema.primaryKeys relation.target with
  | error e => rfl
  | ok keys => rw [Answer.ok_bind, Answer.ok_bind, h.foreignKeyValues?_eq hkeys]

/-- Sources that agree are linked alike, or refused alike. -/
theorem link_eq : relation.link schema entity a = relation.link schema entity b := by
  unfold link
  cases hstrategy : relation.strategy entity with
  | error e => rfl
  | ok strategy =>
    rw [Answer.ok_bind, Answer.ok_bind]
    rcases strategy_eq_ok hstrategy with ⟨-, rfl⟩ | ⟨-, -, rfl⟩ | ⟨inverse, -, rfl | rfl⟩ |
      ⟨name, -, rfl | rfl⟩
    · exact h.linkByForeignKey_eq none
    · exact h.linkByForeignKey_eq relation.inversedBy
    · exact h.linkByInverse_eq inverse
    · exact h.linkByInverse_eq inverse
    · exact h.linkThrough_eq name
    · exact h.linkThrough_eq name

end AgreeFor

/-! ## Where the values of a foreign key come from -/

/-- The source has every property that the relation declares as its foreign key, with these values.
Null is a value, and a relation that declares none has no values of it. -/
def Declares (relation : Relation) (source : Json) (values : List Json) : Prop :=
  relation.fieldNames ≠ [] ∧
    List.Forall₂ (fun field value => source.get? field = some value) relation.fieldNames values

/-- The source lacks a property that the relation declares as its foreign key, or none is
declared. -/
def Lacks (relation : Relation) (source : Json) : Prop :=
  relation.fieldNames = [] ∨ ∃ field ∈ relation.fieldNames, source.get? field = none

/-- The source has loaded a related object with these values of the target's primary key, none of
them null. -/
def Loads (relation : Relation) (source : Json) (keys : List String) (values : List Json) : Prop :=
  ∃ members, source.get? relation.name = some (.obj members) ∧
    List.Forall₂ (fun key value => Dict.get? members key = some value ∧ value ≠ .null) keys values

theorem declaredValues?_of_lacks (h : relation.Lacks source) :
    declaredValues? source relation.fieldNames = none := by
  cases hvalues : declaredValues? source relation.fieldNames with
  | none => rfl
  | some values =>
    obtain ⟨hne, hfields⟩ := declaredValues?_eq_some_iff.1 hvalues
    rcases h with hnil | ⟨field, hfield, hnone⟩
    · exact absurd hnil hne
    · obtain ⟨value, -, hvalue⟩ := Pairing.exists_of_mem_right hfields.flip hfield
      rw [hnone] at hvalue
      cases hvalue

theorem loadedValues?_of_loads (h : relation.Loads source keys values) :
    loadedValues? source relation keys = some values := by
  obtain ⟨members, hmembers, hkeys⟩ := h
  refine loadedValues?_eq_some_iff.2 ⟨members, hmembers, hkeys.imp ?_⟩
  rintro key value ⟨hvalue, hnull⟩
  refine Option.filter_eq_some_iff.2 ⟨hvalue, ?_⟩
  cases value with
  | null => exact absurd rfl hnull
  | _ => rfl

theorem foreignKeyValues?_of_declares (h : relation.Declares source values) :
    foreignKeyValues? source relation relation.fieldNames keys = some values :=
  foreignKeyValues?_eq_some_iff.2 (.inl (declaredValues?_eq_some_iff.2 h))

theorem foreignKeyValues?_of_loads (hlacks : relation.Lacks source)
    (hloads : relation.Loads source keys values) :
    foreignKeyValues? source relation relation.fieldNames keys = some values :=
  foreignKeyValues?_eq_some_iff.2
    (.inr ⟨declaredValues?_of_lacks hlacks, loadedValues?_of_loads hloads⟩)

/-- A relation whose source holds the key links by the values that the source has of it. -/
theorem link_of_held (holds : relation.HoldsKey)
    (declared : schema.primaryKeys relation.target = .ok keys)
    (count : relation.fieldNames = [] ∨ relation.fieldNames.length = keys.length)
    (held : foreignKeyValues? source relation relation.fieldNames keys = some values) :
    relation.link schema entity source = .ok (equalities (keys.map .ofField) values) := by
  have hcount : checkFieldCount entity relation relation.fieldNames keys = .ok () := by
    unfold checkFieldCount
    rcases count with hnil | hlength
    · rw [hnil]
      rfl
    · simp [hlength]
  have hlink : ∀ otherwise, linkByForeignKey schema entity source relation relation.fieldNames
      otherwise = .ok (equalities (keys.map .ofField) values) := by
    intro otherwise
    rw [linkByForeignKey, declared, Answer.ok_bind, hcount, Answer.ok_bind, held]
    rfl
  rcases holds with hkind | ⟨hkind, howner⟩
  · rw [link, strategy, hkind, Answer.ok_bind]
    exact hlink _
  · rw [link, strategy, hkind, howner, Answer.ok_bind]
    exact hlink _

end Relation

namespace Schema

/-- **No foreign key is guessed.** Two sources that agree on the declared foreign key, on their
primary key and on the primary key of the object they have loaded are linked alike, whatever else
they hold. Where the source holds the key of the related row, the declared properties give the
values if all of them are there, whatever object is loaded; if one is missing or none is declared,
the loaded object gives them, and the condition is the one that declared properties of these values
lead to. -/
theorem link_guesses_nothing (schema : Schema) (entity relation : String) :
    (∀ a b, (∀ found, schema.relation? entity relation = some found →
        found.AgreeFor schema entity a b) →
      schema.link entity a relation = schema.link entity b relation) ∧
    ∀ found keys, schema.relation? entity relation = some found → found.HoldsKey →
      schema.primaryKeys found.target = .ok keys →
      (found.fieldNames = [] ∨ found.fieldNames.length = keys.length) →
      (∀ source values, found.Declares source values →
        schema.link entity source relation =
          .ok (Relation.equalities (keys.map .ofField) values)) ∧
      ∀ source values, found.Lacks source → found.Loads source keys values →
        schema.link entity source relation =
          .ok (Relation.equalities (keys.map .ofField) values) ∧
        ∀ other, found.Declares other values →
          schema.link entity other relation = schema.link entity source relation := by
  constructor
  · intro a b hagree
    cases hfound : schema.relation? entity relation with
    | none =>
      rw [Schema.link, Schema.link, relation_eq_error hfound]
      rfl
    | some found =>
      rw [link_of_declared hfound, link_of_declared hfound]
      exact (hagree found hfound).link_eq
  · intro found keys hfound holds declared count
    have hdeclares : ∀ source values, found.Declares source values →
        schema.link entity source relation =
          .ok (Relation.equalities (keys.map .ofField) values) := by
      intro source values h
      rw [link_of_declared hfound]
      apply Relation.link_of_held holds declared count
      exact Relation.foreignKeyValues?_of_declares h
    refine ⟨hdeclares, fun source values hlacks hloads => ?_⟩
    have hlink : schema.link entity source relation =
        .ok (Relation.equalities (keys.map .ofField) values) := by
      rw [link_of_declared hfound]
      apply Relation.link_of_held holds declared count
      exact Relation.foreignKeyValues?_of_loads hlacks hloads
    refine ⟨hlink, fun other h => ?_⟩
    rw [hlink]
    exact hdeclares other values h

/-- A line without the number of its order that has numbers under other names. -/
def straying (number : Int) : Json :=
  .obj [("id", .int 3), ("number", .int number), ("orderId", .int number),
    ("orderShop", .str "north"), ("order_number", .int number)]

/-- A line without the number of its order that has its order loaded, an order of another shop than
the line says. -/
def lineWithSeventh : Json :=
  .obj [("id", .int 4), ("order", .obj [("number", .int 7), ("shop", .str "north")]),
    ("orderShop", .str "south")]

/-- A line of no order that has an order loaded. -/
def unorderedLine : Json :=
  .obj [("id", .int 5), ("order", .obj [("number", .int 7), ("shop", .str "north")]),
    ("orderNumber", .null), ("orderShop", .str "north")]

/-- Numbers under other names are not looked at, declared properties win over the loaded order, null
or not, and a loaded order stands in for declared properties that are not all there. -/
theorem link_guesses_nothing_lines :
    shops.link "Line" (straying 7) "order" = shops.link "Line" (straying 8) "order" ∧
    shops.link "Line" (straying 8) "order" = .error (.missingForeignKey "Line" "order") ∧
    shops.link "Line" unorderedLine "order" = .ok (Relation.equalities
      [.ofField "shop", .ofField "number"] [.str "north", .null]) ∧
    shops.link "Line" lineWithSeventh "order" = .ok (Relation.equalities
      [.ofField "shop", .ofField "number"] [.str "north", .int 7]) ∧
    shops.link "Line" lineOfSeventh "order" = shops.link "Line" lineWithSeventh "order" := by
  obtain ⟨hagree, hheld⟩ := link_guesses_nothing shops "Line" "order"
  obtain ⟨hdeclares, hloads⟩ := hheld orderOfLine.forward orderOfLine.keys
    orderOfLine.forward_declared orderOfLine.forward_holds orderOfLine.keys_declared
    (.inr orderOfLine.length_eq)
  have hstraying : ∀ found, shops.relation? "Line" "order" = some found →
      found.AgreeFor shops "Line" (straying 7) (straying 8) := by
    intro found hfound
    obtain rfl : orderOfLine.forward = found :=
      Option.some.inj (orderOfLine.forward_declared.symm.trans hfound)
    refine ⟨?_, ?_, .none nofun nofun⟩
    · intro field hfield
      rcases List.mem_pair.1 hfield with rfl | rfl <;> rfl
    · intro keys hkeys key hkey
      cases hkeys
      obtain rfl := List.mem_singleton.1 hkey
      rfl
  have hnull : orderOfLine.forward.Declares unorderedLine [.str "north", .null] :=
    ⟨by decide, .cons rfl (.cons rfl .nil)⟩
  have hseventh : orderOfLine.forward.Declares lineOfSeventh [.str "north", .int 7] :=
    ⟨by decide, .cons rfl (.cons rfl .nil)⟩
  have hlacks : orderOfLine.forward.Lacks lineWithSeventh := .inr ⟨"orderNumber", by decide, rfl⟩
  have hloaded : orderOfLine.forward.Loads lineWithSeventh orderOfLine.keys
      [.str "north", .int 7] :=
    ⟨_, rfl, .cons ⟨rfl, nofun⟩ (.cons ⟨rfl, nofun⟩ .nil)⟩
  obtain ⟨hlink, hother⟩ := hloads lineWithSeventh _ hlacks hloaded
  exact ⟨hagree _ _ hstraying, rfl, hdeclares _ _ hnull, hlink, hother _ hseventh⟩

end Schema

end EntityQuery
