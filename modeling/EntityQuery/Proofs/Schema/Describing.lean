import EntityQuery.Proofs.Json.Denoting
import EntityQuery.Proofs.Json.Printing

/-!
# Descriptions read back

A relation and an entity type read back from the records they are written as, and from whatever
stands for these (`Relation.read?_of_stands`, `Entity.read?_of_stands`). So a text describes the
entity types that its document denotes, and the schema it gives knows the last of them of each name
(`Schema.ofText_of_denotes`, `Schema.entity?_ofEntities`). The compact text in which records keep
the order of their fields, and columns any order, is such a text (`Schema.ofText_members`).
-/

namespace EntityQuery

variable {α : Type} [Readable α] {Stands : α → Json → Prop} {a : α}

theorem RelationKind.ofName?_name (kind : RelationKind) :
    RelationKind.ofName? kind.name = some kind := by
  cases kind <;> rfl

/-- **A relation reads back from its record**, and from all that stands for it. -/
theorem Relation.read?_of_stands (h : Renders Stands) {r : Relation} (ha : Stands a r.toJson) :
    Relation.read? a = some r := by
  obtain ⟨parts, hfields, hparts⟩ := h.record fieldKeys (by decide) rfl ha
  obtain - | ⟨hname, - | ⟨hkind, - | ⟨htarget, - | ⟨howner, - | ⟨hmappedBy, - | ⟨hinversedBy,
    - | ⟨hfieldNames, - | _⟩⟩⟩⟩⟩⟩⟩ := hparts
  rw [read?, hfields]
  simp [Shape.required, Shape.withDefault, h.text? hname, h.choice hkind,
    RelationKind.ofName?_name, h.text? htarget, h.bool? howner, h.optional hmappedBy,
    h.optional hinversedBy, h.texts hfieldNames]

/-- **An entity type reads back from its record**, and from all that stands for it. -/
theorem Entity.read?_of_stands (h : Renders Stands) {e : Entity} (he : e.columns.Sorted)
    (ha : Stands a e.toJson) : Entity.read? a = some e := by
  obtain ⟨parts, hfields, hparts⟩ := h.record fieldKeys (by decide) rfl ha
  obtain - | ⟨hname, - | ⟨htable, - | ⟨hprimaryKeys, - | ⟨hrelations, - | ⟨hcolumns,
    - | _⟩⟩⟩⟩⟩ := hparts
  have hrelations' := h.list (fun r _ => Relation.read?_of_stands h) hrelations
  have hcolumns' := h.dict he h.text? hcolumns
  rw [read?, hfields]
  simp [Shape.required, Shape.withDefault, h.text? hname, h.optional htable,
    h.texts hprimaryKeys, hrelations', hcolumns']

/-! ## Schemas -/

namespace Schema

theorem ofEntities_eq (entities : List Entity) :
    ofEntities entities = Dict.ofEntries (entities.map fun e => (e.name, e)) := by
  rw [Dict.ofEntries, List.foldl_map]
  rfl

/-- A schema knows the last entity type registered under a name. -/
theorem entity?_ofEntities (entities : List Entity) (name : String) :
    (ofEntities entities).entity? name = entities.reverse.find? (·.name == name) := by
  rw [entity?, ofEntities_eq, Dict.get?_ofEntries, ← List.map_reverse]
  induction entities.reverse with
  | nil => rfl
  | cons e entities ih =>
    rw [List.map_cons, Dict.get?_cons, List.find?_cons, ih]
    by_cases h : e.name = name
    · simp [h]
    · simp [beq_false_of_ne h, Ne.symm h]

/-- A text whose document writes no key twice is read as the entity types it denotes. -/
theorem ofText_of_denotes {text : String} {d : Document} {entities : List Entity}
    (hentities : ∀ e ∈ entities, e.columns.Sorted)
    (htext : Document.parse? text.length text = some d)
    (hd : d.Denotes (.arr (entities.map Entity.toJson))) :
    ofText text = .ok (ofEntities entities) := by
  have hread : entitiesOfText? text = some entities := by
    rw [entitiesOfText?, htext]
    exact Document.renders_denotes.list
      (fun e he => Entity.read?_of_stands Document.renders_denotes (hentities e he)) hd
  rw [ofText, hread]

end Schema

/-! ## Text -/

namespace Relation

/-- The members of the record of a relation, in the order of its fields. -/
def members (r : Relation) : List (String × Json) := [
  ("name", .str r.name),
  ("kind", .str r.kind.name),
  ("targetType", .str r.target),
  ("owner", .bool r.owner),
  ("mappedBy", .ofText? r.mappedBy),
  ("inversedBy", .ofText? r.inversedBy),
  ("fieldNames", .ofTexts r.fieldNames)]

theorem rearranges_members (r : Relation) : (Json.obj r.members).Rearranges r.toJson := by
  have hkeys : fieldKeys.Nodup := by decide
  refine Json.rearranges_obj hkeys ?_
  simp only [List.forall₂_cons, List.Forall₂.nil, and_true, members,
    Json.rearranges_str, Json.rearranges_bool, Json.rearranges_ofText?, Json.rearranges_ofTexts]

theorem numberless_members (r : Relation) : (Json.obj r.members).Numberless :=
  ⟨trivial, trivial, trivial, trivial, Json.numberless_ofText? _, Json.numberless_ofText? _,
    Json.numberless_ofTexts _, trivial⟩

end Relation

namespace Entity

/-- The members of the record of an entity type in the order of its fields, its columns in some
order. -/
def members (e : Entity) (columns : List (String × String)) : List (String × Json) := [
  ("name", .str e.name),
  ("table", .ofText? e.table),
  ("primaryKeys", .ofTexts e.primaryKeys),
  ("relations", .arr (e.relations.map fun r => .obj r.members)),
  ("columns", .obj (columns.map fun entry => (entry.1, .str entry.2)))]

theorem rearranges_members (e : Entity) {columns : List (String × String)}
    (he : e.columns.Sorted) (hcolumns : columns.Perm e.columns) :
    (Json.obj (e.members columns)).Rearranges e.toJson := by
  have hkeys : fieldKeys.Nodup := by decide
  have hrelations : (Json.arr (e.relations.map fun r => .obj r.members)).Rearranges
      (.arr (e.relations.map Relation.toJson)) := by
    refine Json.rearranges_arr (List.forall₂_map_left_iff.2 (List.forall₂_map_right_iff.2 ?_))
    exact List.forall₂_same.2 fun r _ => r.rearranges_members
  have hcolumns' : (Json.obj (columns.map fun entry => (entry.1, .str entry.2))).Rearranges
      (.obj (e.columns.map fun entry => (entry.1, .str entry.2))) := by
    have hsorted : Dict.Sorted (e.columns.map fun entry => (entry.1, Json.str entry.2)) := by
      rw [Dict.Sorted, Dict.keys, List.map_map]
      exact he
    have hperm := hcolumns.map fun entry => (entry.1, Json.str entry.2)
    have hnodup := (hperm.map Prod.fst).nodup_iff.2 (Dict.nodup_keys hsorted)
    have hall := Json.rearranges_obj hnodup
      (List.forall₂_same.2 fun m hm => ⟨rfl, ?_⟩)
    · rwa [Json.ofMembers, Dict.ofEntries_of_perm hperm hsorted] at hall
    · obtain ⟨entry, -, rfl⟩ := List.mem_map.1 hm
      exact Json.rearranges_str entry.2
  refine Json.rearranges_obj hkeys ?_
  simp only [List.forall₂_cons, List.Forall₂.nil, and_true, members, hrelations,
    hcolumns', Json.rearranges_str, Json.rearranges_ofText?, Json.rearranges_ofTexts]

theorem numberless_members (e : Entity) (columns : List (String × String)) :
    (Json.obj (e.members columns)).Numberless := by
  have hrelations : (Json.arr (e.relations.map fun r => .obj r.members)).Numberless := by
    refine Json.numberless_arr fun x hx => ?_
    obtain ⟨r, -, rfl⟩ := List.mem_map.1 hx
    exact r.numberless_members
  have hcolumns : (Json.obj (columns.map fun entry => (entry.1, .str entry.2))).Numberless := by
    refine Json.numberless_obj fun m hm => ?_
    obtain ⟨entry, -, rfl⟩ := List.mem_map.1 hm
    trivial
  exact ⟨trivial, Json.numberless_ofText? _, Json.numberless_ofTexts _, hrelations, hcolumns,
    trivial⟩

end Entity

/-- **The compact text of descriptions is read as the entity types it was written from**, in
whichever order the columns of each were written. -/
theorem Schema.ofText_members {listed : List (Entity × List (String × String))}
    (h : ∀ p ∈ listed, p.1.columns.Sorted ∧ p.2.Perm p.1.columns) :
    Schema.ofText (Json.arr (listed.map fun p => .obj (p.1.members p.2))).text =
      .ok (Schema.ofEntities (listed.map Prod.fst)) := by
  have hnumberless : (Json.arr (listed.map fun p => .obj (p.1.members p.2))).Numberless := by
    refine Json.numberless_arr fun x hx => ?_
    obtain ⟨p, -, rfl⟩ := List.mem_map.1 hx
    exact p.1.numberless_members p.2
  refine ofText_of_denotes (fun e he => ?_) (Document.parse?_text hnumberless) ?_
  · obtain ⟨p, hp, rfl⟩ := List.mem_map.1 he
    exact (h p hp).1
  · refine Json.rearranges_arr ?_
    rw [List.map_map, List.forall₂_map_left_iff, List.forall₂_map_right_iff]
    exact List.forall₂_same.2 fun p hp => p.1.rearranges_members (h p hp).1 (h p hp).2

end EntityQuery
