import EntityQuery.Proofs.Answer
import EntityQuery.Proofs.Pairing
import EntityQuery.Relation.Link
import Mathlib.Data.Option.Basic

/-!
# What a link compares

A link succeeds in one of four ways, and each compares the columns of one primary key with values
of it (`Relation.Compares`): the target's key with what the source holds of it, or else the source's
own key with the columns through which the target leads back. Whichever way it is, there is a column
and a value for every column of that key (`Compares.length_columns`, `Compares.length_values`), and
the condition is the conjunction of their equalities (`compares_of_link`).
-/

namespace EntityQuery

/-! ## Keys and their values -/

namespace Record

def keyValue (record : Json) (entity key : String) : Answer Json :=
  match present? record key with
  | some value => .ok value
  | none => .error (.missingPrimaryKey entity key)

variable {record : Json} {entity : String}

theorem keyValue_eq_ok {key : String} {value : Json} :
    keyValue record entity key = .ok value ↔ present? record key = some value := by
  rw [keyValue]
  cases present? record key <;> simp

theorem keyValue_eq_error {key : String} {e : QueryError} :
    keyValue record entity key = .error e ↔
      present? record key = none ∧ e = .missingPrimaryKey entity key := by
  rw [keyValue]
  cases present? record key <;> simp [eq_comm]

theorem keyValues_eq_mapM (keys : List String) :
    keyValues record entity keys = keys.mapM (keyValue record entity) := by
  induction keys with
  | nil => rfl
  | cons key keys ih =>
    rw [keyValues, List.mapM_cons, ← ih, keyValue]
    cases present? record key <;> rfl

theorem keyValues_eq_ok_iff {keys : List String} {values : List Json} :
    keyValues record entity keys = .ok values ↔
      List.Forall₂ (fun key value => present? record key = some value) keys values := by
  rw [keyValues_eq_mapM, Answer.mapM_eq_ok]
  simp only [keyValue_eq_ok]

/-- The first column of the key that is missing is the one reported. -/
theorem keyValues_eq_error_iff {keys : List String} {e : QueryError} :
    keyValues record entity keys = .error e ↔ ∃ before key after, keys = before ++ key :: after ∧
      (∀ k ∈ before, (present? record k).isSome = true) ∧ present? record key = none ∧
      e = .missingPrimaryKey entity key := by
  rw [keyValues_eq_mapM, Answer.mapM_eq_error]
  simp only [keyValue_eq_ok, keyValue_eq_error, Option.isSome_iff_exists]

theorem length_keyValues {keys : List String} {values : List Json}
    (h : keyValues record entity keys = .ok values) : values.length = keys.length :=
  (keyValues_eq_ok_iff.1 h).length_eq.symm

end Record

namespace Relation

variable {schema : Schema} {entity : String} {source : Json} {relation : Relation}

theorem sourceKey_eq_ok {keys : List String} {values : List Json} :
    sourceKey schema entity source = .ok (keys, values) ↔
      schema.primaryKeys entity = .ok keys ∧ Record.keyValues source entity keys = .ok values := by
  rw [sourceKey]
  constructor
  · intro h
    obtain ⟨keys, hkeys, h⟩ := Answer.bind_eq_ok.1 h
    obtain ⟨values, hvalues, h⟩ := Answer.bind_eq_ok.1 h
    cases h
    exact ⟨hkeys, hvalues⟩
  · rintro ⟨hkeys, hvalues⟩
    rw [hkeys, Answer.ok_bind, hvalues]
    rfl

theorem checkFieldCount_eq_ok {foreignKeys targetKeys : List String}
    (h : checkFieldCount entity relation foreignKeys targetKeys = .ok ()) :
    foreignKeys = [] ∨ foreignKeys.length = targetKeys.length := by
  rw [checkFieldCount] at h
  split at h
  · next hcount => simpa using hcount
  · cases h

theorem declaredValues?_eq_some_iff {foreignKeys : List String} {values : List Json} :
    declaredValues? source foreignKeys = some values ↔ foreignKeys ≠ [] ∧
      List.Forall₂ (fun field value => source.get? field = some value) foreignKeys values := by
  rw [declaredValues?, ← Pairing.mapM_eq_some]
  cases foreignKeys <;> simp

theorem loadedValues?_eq_some_iff {targetKeys : List String} {values : List Json} :
    loadedValues? source relation targetKeys = some values ↔
      ∃ members, source.get? relation.name = some (.obj members) ∧
        List.Forall₂ (fun key value => Record.present? (.obj members) key = some value)
          targetKeys values := by
  rw [loadedValues?]
  split
  · next members hmembers =>
    rw [Pairing.mapM_eq_some]
    constructor
    · exact fun hloaded => ⟨members, hmembers, hloaded⟩
    · rintro ⟨others, hothers, hloaded⟩
      rw [hmembers] at hothers
      cases hothers
      exact hloaded
  · next hnone =>
    constructor
    · exact fun h => (nomatch h)
    · rintro ⟨members, hmembers, -⟩
      exact absurd hmembers (hnone members)

/-- The values of a foreign key are those of the declared properties, or else those of the related
object that is loaded. -/
theorem foreignKeyValues?_eq_some_iff {foreignKeys targetKeys : List String}
    {values : List Json} : foreignKeyValues? source relation foreignKeys targetKeys = some values ↔
      declaredValues? source foreignKeys = some values ∨
        declaredValues? source foreignKeys = none ∧
          loadedValues? source relation targetKeys = some values :=
  Option.orElse_eq_some _ _ _

/-- The values that a source holds are as many as the columns of the target's key. -/
theorem length_foreignKeyValues? {foreignKeys targetKeys : List String} {values : List Json}
    (hcount : checkFieldCount entity relation foreignKeys targetKeys = .ok ())
    (h : foreignKeyValues? source relation foreignKeys targetKeys = some values) :
    values.length = targetKeys.length := by
  rcases foreignKeyValues?_eq_some_iff.1 h with hdeclared | ⟨-, hloaded⟩
  · obtain ⟨hne, hfields⟩ := declaredValues?_eq_some_iff.1 hdeclared
    rw [← hfields.length_eq]
    exact (checkFieldCount_eq_ok hcount).resolve_left hne
  · obtain ⟨members, -, hkeys⟩ := loadedValues?_eq_some_iff.1 hloaded
    exact hkeys.length_eq.symm

/-! ## The four ways -/

/-- The relation is of a kind whose source holds the key of the related row. -/
def HoldsKey (relation : Relation) : Prop :=
  relation.kind = .manyToOne ∨ relation.kind = .oneToOne ∧ relation.owner = true

/-- The relation is of a kind whose related rows hold the key of the source, by `inverse`. -/
def HeldBy (relation : Relation) (inverse : String) : Prop :=
  (relation.kind = .oneToMany ∨ relation.kind = .oneToOne ∧ relation.owner = false) ∧
    (relation.mappedBy <|> relation.inversedBy) = some inverse

/-- The relation goes through a pivot, which the related rows see as `name`. -/
def Pivots (relation : Relation) (name : String) : Prop :=
  relation.kind = .manyToMany ∧
    (if relation.owner then relation.inversedBy else relation.mappedBy) = some name

/-- The columns through which rows lead to a key by their relation `name`. -/
def throughColumns (name : String) (keys : List String) : List Column :=
  match keys with
  | [_] => [.ofField name]
  | _ => keys.map (.behind name)

theorem length_throughColumns (name : String) (keys : List String) :
    (throughColumns name keys).length = keys.length := by
  match keys with
  | [] => rfl
  | [_] => rfl
  | _ :: _ :: _ => exact List.length_map ..

/-- A relation compares columns of the related rows with values, one for each column of a primary
key. -/
inductive Compares (schema : Schema) (entity : String) (source : Json) (relation : Relation) :
    List String → List Column → List Json → Prop
  /-- the target's key, with the values that the source holds -/
  | target {keys : List String} {values : List Json} (holds : relation.HoldsKey)
      (declared : schema.primaryKeys relation.target = .ok keys)
      (count : checkFieldCount entity relation relation.fieldNames keys = .ok ())
      (held : foreignKeyValues? source relation relation.fieldNames keys = some values) :
      Compares schema entity source relation keys (keys.map .ofField) values
  /-- the source's key behind the inverse, where the source holds no values of the target's -/
  | unresolved {inverse : String} {targetKeys keys : List String} {values : List Json}
      (kind : relation.kind = .oneToOne) (owner : relation.owner = true)
      (leads : relation.inversedBy = some inverse)
      (declared : schema.primaryKeys relation.target = .ok targetKeys)
      (unheld : foreignKeyValues? source relation relation.fieldNames targetKeys = none)
      (own : sourceKey schema entity source = .ok (keys, values)) :
      Compares schema entity source relation keys (keys.map (.behind inverse)) values
  /-- the source's key, in the properties that the target declares for the inverse -/
  | fields {inverse : String} {keys : List String} {values : List Json}
      (leads : relation.HeldBy inverse) (declared : inverseFields schema relation inverse ≠ [])
      (count : (inverseFields schema relation inverse).length = keys.length)
      (own : sourceKey schema entity source = .ok (keys, values)) :
      Compares schema entity source relation keys
        ((inverseFields schema relation inverse).map .ofField) values
  /-- the source's key, through the relation of the target that leads to it -/
  | through {name : String} {keys : List String} {values : List Json}
      (leads : relation.Pivots name ∨
        relation.HeldBy name ∧ inverseFields schema relation name = [])
      (own : sourceKey schema entity source = .ok (keys, values)) :
      Compares schema entity source relation keys (throughColumns name keys) values

namespace Compares

variable {keys : List String} {columns : List Column} {values : List Json}

theorem length_columns (h : Compares schema entity source relation keys columns values) :
    columns.length = keys.length := by
  cases h with
  | target => exact List.length_map ..
  | unresolved => exact List.length_map ..
  | fields _ _ count => rw [List.length_map, count]
  | through => exact length_throughColumns ..

theorem length_values (h : Compares schema entity source relation keys columns values) :
    values.length = keys.length := by
  cases h with
  | target _ _ count held => exact length_foreignKeyValues? count held
  | unresolved _ _ _ _ _ own => exact Record.length_keyValues (sourceKey_eq_ok.1 own).2
  | fields _ _ _ own => exact Record.length_keyValues (sourceKey_eq_ok.1 own).2
  | through _ own => exact Record.length_keyValues (sourceKey_eq_ok.1 own).2

end Compares

/-! ## What a link comes to -/

variable {p : Predicate}

theorem linkThrough_eq_ok {name : String} (h : linkThrough schema entity source name = .ok p) :
    ∃ keys values, sourceKey schema entity source = .ok (keys, values) ∧
      p = equalities (throughColumns name keys) values := by
  rw [linkThrough] at h
  obtain ⟨⟨keys, values⟩, hown, h⟩ := Answer.bind_eq_ok.1 h
  refine ⟨keys, values, hown, ?_⟩
  have hlength : values.length = keys.length :=
    Record.length_keyValues (sourceKey_eq_ok.1 hown).2
  -- a key of one column is compared with the relation itself, any other with the keys behind it
  match keys, values, hlength with
  | [], [], _ =>
    cases h
    rfl
  | [_], [_], _ =>
    cases h
    rfl
  | _ :: _ :: _, _ :: _ :: _, _ =>
    cases h
    rfl

theorem compares_of_linkByForeignKey {otherwise : Answer Predicate} (holds : relation.HoldsKey)
    (h : linkByForeignKey schema entity source relation relation.fieldNames otherwise = .ok p) :
    (∃ keys columns values, Compares schema entity source relation keys columns values ∧
      p = equalities columns values) ∨
    ∃ targetKeys, schema.primaryKeys relation.target = .ok targetKeys ∧
      foreignKeyValues? source relation relation.fieldNames targetKeys = none ∧
      otherwise = .ok p := by
  rw [linkByForeignKey] at h
  obtain ⟨targetKeys, hdeclared, h⟩ := Answer.bind_eq_ok.1 h
  obtain ⟨hcount, h⟩ := Answer.seq_eq_ok.1 h
  cases hheld : foreignKeyValues? source relation relation.fieldNames targetKeys with
  | some values =>
    rw [hheld] at h
    cases h
    exact .inl ⟨_, _, _, .target holds hdeclared hcount hheld, rfl⟩
  | none =>
    rw [hheld] at h
    exact .inr ⟨targetKeys, hdeclared, hheld, h⟩

theorem compares_of_linkByInverse {inverse : String} (leads : relation.HeldBy inverse)
    (h : linkByInverse schema entity source relation inverse = .ok p) :
    ∃ keys columns values, Compares schema entity source relation keys columns values ∧
      p = equalities columns values := by
  rw [linkByInverse] at h
  simp only at h
  split at h
  · next hnone =>
    obtain ⟨keys, values, hown, rfl⟩ := linkThrough_eq_ok h
    exact ⟨_, _, _, .through (.inr ⟨leads, List.isEmpty_iff.1 hnone⟩) hown, rfl⟩
  · next hsome =>
    obtain ⟨⟨keys, values⟩, hown, h⟩ := Answer.bind_eq_ok.1 h
    simp only at h
    split at h
    · next hcount =>
      cases h
      exact ⟨_, _, _, .fields leads (fun hnil => hsome (by rw [hnil]; rfl)) hcount hown, rfl⟩
    · cases h

theorem compares_of_pivot {name : String} (leads : relation.Pivots name)
    (h : linkThrough schema entity source name = .ok p) :
    ∃ keys columns values, Compares schema entity source relation keys columns values ∧
      p = equalities columns values := by
  obtain ⟨keys, values, hown, rfl⟩ := linkThrough_eq_ok h
  exact ⟨_, _, _, .through (.inl leads) hown, rfl⟩

theorem require_eq_ok {name : Option String} {what found : String}
    (h : relation.require entity name what = .ok found) : name = some found := by
  cases name with
  | none => cases h
  | some given =>
    cases h
    rfl

theorem strategy_eq_ok {strategy : Strategy} (h : relation.strategy entity = .ok strategy) :
    (relation.kind = .manyToOne ∧ strategy = .manyToOne relation.fieldNames) ∨
    (relation.kind = .oneToOne ∧ relation.owner = true ∧
      strategy = .oneToOneOwning relation.fieldNames relation.inversedBy) ∨
    (∃ inverse, relation.HeldBy inverse ∧
      (strategy = .oneToMany inverse ∨ strategy = .oneToOneInverse inverse)) ∨
    ∃ name, relation.Pivots name ∧
      (strategy = .manyToManyOwning name ∨ strategy = .manyToManyInverse name) := by
  rw [Relation.strategy] at h
  cases hkind : relation.kind with
  | manyToOne =>
    rw [hkind] at h
    cases h
    exact .inl ⟨rfl, rfl⟩
  | oneToMany =>
    rw [hkind] at h
    obtain ⟨inverse, hrequire, h⟩ := Answer.map_eq_ok.1 h
    exact .inr (.inr (.inl ⟨inverse, ⟨.inl hkind, require_eq_ok hrequire⟩, .inl h.symm⟩))
  | oneToOne =>
    rw [hkind] at h
    cases howner : relation.owner with
    | true =>
      rw [howner] at h
      cases h
      exact .inr (.inl ⟨rfl, rfl, rfl⟩)
    | false =>
      rw [howner] at h
      obtain ⟨inverse, hrequire, h⟩ := Answer.map_eq_ok.1 h
      have leads : relation.HeldBy inverse := ⟨.inr ⟨hkind, howner⟩, require_eq_ok hrequire⟩
      exact .inr (.inr (.inl ⟨inverse, leads, .inr h.symm⟩))
  | manyToMany =>
    rw [hkind] at h
    cases howner : relation.owner with
    | true =>
      rw [howner] at h
      obtain ⟨name, hrequire, h⟩ := Answer.map_eq_ok.1 h
      have leads : relation.Pivots name :=
        ⟨hkind, by rw [howner, if_pos rfl]; exact require_eq_ok hrequire⟩
      exact .inr (.inr (.inr ⟨name, leads, .inl h.symm⟩))
    | false =>
      rw [howner] at h
      obtain ⟨name, hrequire, h⟩ := Answer.map_eq_ok.1 h
      have leads : relation.Pivots name :=
        ⟨hkind, by rw [howner, if_neg Bool.false_ne_true]; exact require_eq_ok hrequire⟩
      exact .inr (.inr (.inr ⟨name, leads, .inr h.symm⟩))

theorem compares_of_linkUnresolved {targetKeys : List String}
    (kind : relation.kind = .oneToOne) (owner : relation.owner = true)
    (declared : schema.primaryKeys relation.target = .ok targetKeys)
    (unheld : foreignKeyValues? source relation relation.fieldNames targetKeys = none)
    (h : linkUnresolved schema entity source relation relation.inversedBy = .ok p) :
    ∃ keys columns values, Compares schema entity source relation keys columns values ∧
      p = equalities columns values := by
  cases hleads : relation.inversedBy with
  | none =>
    rw [hleads] at h
    cases h
  | some inverse =>
    rw [hleads] at h
    obtain ⟨⟨keys, values⟩, hown, h⟩ := Answer.bind_eq_ok.1 h
    cases h
    exact ⟨_, _, _, .unresolved kind owner hleads declared unheld hown, rfl⟩

/-- A link that succeeds compares the columns of one key with values of it. -/
theorem compares_of_link (h : relation.link schema entity source = .ok p) :
    ∃ keys columns values, Compares schema entity source relation keys columns values ∧
      p = equalities columns values := by
  rw [link] at h
  obtain ⟨strategy, hstrategy, h⟩ := Answer.bind_eq_ok.1 h
  rcases strategy_eq_ok hstrategy with ⟨hkind, rfl⟩ | ⟨hkind, howner, rfl⟩ |
    ⟨inverse, leads, rfl | rfl⟩ | ⟨name, leads, rfl | rfl⟩
  · rcases compares_of_linkByForeignKey (.inl hkind) h with hcompares | ⟨_, _, _, hnone⟩
    · exact hcompares
    · cases hnone
  · rcases compares_of_linkByForeignKey (.inr ⟨hkind, howner⟩) h with
      hcompares | ⟨targetKeys, declared, unheld, h⟩
    · exact hcompares
    · exact compares_of_linkUnresolved hkind howner declared unheld h
  · exact compares_of_linkByInverse leads h
  · exact compares_of_linkByInverse leads h
  · exact compares_of_pivot leads h
  · exact compares_of_pivot leads h

end Relation

end EntityQuery
