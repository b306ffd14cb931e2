import EntityQuery.Proofs.Relation.Restricting

/-!
# Whole keys

Columns and values of a link come from different lists, and pairing two lists cuts the longer one
short. Since both are as long as the key (`Relation.Compares`), nothing is cut off: the condition
equates every column of the key with its value (`equates_equalities`). Which key and which columns
these are the kind of the relation decides (`Compares.wholeKey`). A null value can only be read from
a declared foreign-key property, for the values of a primary key and those of a loaded object are
never null (`Compares.field_of_null`).
-/

namespace EntityQuery

/-! ## Equalities, position by position -/

/-- A predicate asks that each of the columns equals the value at its position, and nothing else. -/
structure Predicate.Equates (p : Predicate) (columns : List Column) (values : List Json) :
    Prop where
  columns_eq : p.columns = columns
  values_eq : p.leaves.map (·.value) = values
  op_eq : ∀ leaf ∈ p.leaves, leaf.op = .eq
  holds_iff : ∀ truth, p.Holds truth ↔ ∀ leaf ∈ p.leaves, truth leaf

namespace Relation

theorem leaves_equalities_eq_map (columns : List Column) (values : List Json) :
    (equalities columns values).leaves =
      (columns.zip values).map fun pair => ⟨pair.1, .eq, pair.2⟩ := by
  rw [leaves_equalities, ← List.map_uncurry_zip_eq_zipWith]
  rfl

theorem holds_equalities {columns : List Column} {values : List Json}
    (truth : Predicate.Leaf → Prop) : (equalities columns values).Holds truth ↔
      ∀ leaf ∈ (equalities columns values).leaves, truth leaf := by
  rw [leaves_equalities_eq_map, List.forall_mem_map, equalities, Predicate.holds_allOf,
    ← List.map_uncurry_zip_eq_zipWith, List.forall_mem_map]
  rfl

theorem equates_equalities {columns : List Column} {values : List Json}
    (h : columns.length = values.length) : (equalities columns values).Equates columns values where
  columns_eq := by
    rw [Predicate.columns, leaves_equalities_eq_map, List.map_map]
    exact List.map_fst_zip (Nat.le_of_eq h)
  values_eq := by
    rw [leaves_equalities_eq_map, List.map_map]
    exact List.map_snd_zip (Nat.le_of_eq h.symm)
  op_eq _ hleaf := op_of_mem_leaves hleaf
  holds_iff := holds_equalities

/-! ## Kinds -/

variable {schema : Schema} {entity : String} {source : Json} {relation : Relation}
  {keys : List String} {columns : List Column} {values : List Json} {p : Predicate}

/-- The relation is of a kind whose related rows lead back to the source. -/
def LeadsBack (relation : Relation) : Prop :=
  relation.kind = .oneToMany ∨ relation.kind = .oneToOne ∧ relation.owner = false

theorem HoldsKey.not_leadsBack (holds : relation.HoldsKey) : ¬relation.LeadsBack := by
  rintro (hkind | ⟨hkind, howner⟩)
  · rcases holds with h | ⟨h, -⟩ <;> rw [hkind] at h <;> cases h
  · rcases holds with h | ⟨-, h⟩
    · rw [hkind] at h
      cases h
    · rw [howner] at h
      cases h

theorem HoldsKey.kind_ne (holds : relation.HoldsKey) : relation.kind ≠ .manyToMany := by
  rcases holds with h | ⟨h, -⟩ <;> rw [h] <;> decide

theorem LeadsBack.kind_ne (leads : relation.LeadsBack) : relation.kind ≠ .manyToMany := by
  rcases leads with h | ⟨h, -⟩ <;> rw [h] <;> decide

/-! ## Values -/

theorem null_not_mem_of_sourceKey (own : sourceKey schema entity source = .ok (keys, values)) :
    .null ∉ values := by
  intro hnull
  obtain ⟨-, hvalues⟩ := sourceKey_eq_ok.1 own
  obtain ⟨key, -, hkey⟩ :=
    Pairing.exists_of_mem_right (Record.keyValues_eq_ok_iff.1 hvalues) hnull
  cases Record.isNull_of_present? hkey

theorem null_not_mem_of_loadedValues? (h : loadedValues? source relation keys = some values) :
    .null ∉ values := by
  intro hnull
  obtain ⟨members, -, hkeys⟩ := loadedValues?_eq_some_iff.1 h
  obtain ⟨key, -, hkey⟩ := Pairing.exists_of_mem_right hkeys hnull
  cases Record.isNull_of_present? hkey

/-- A link compares no null but that of a declared foreign-key property. -/
theorem Compares.field_of_null
    (h : Compares schema entity source relation keys columns values) {i : Nat}
    (hnull : values[i]? = some .null) : relation.HoldsKey ∧
      ∃ field, relation.fieldNames[i]? = some field ∧ source.get? field = some .null := by
  have hmem : .null ∈ values := List.mem_of_getElem? hnull
  cases h with
  | target holds _ _ held =>
    rcases foreignKeyValues?_eq_some_iff.1 held with hdeclared | ⟨-, hloaded⟩
    · obtain ⟨-, hfields⟩ := declaredValues?_eq_some_iff.1 hdeclared
      exact ⟨holds, Pairing.getElem?_of_right hfields hnull⟩
    · exact absurd hmem (null_not_mem_of_loadedValues? hloaded)
  | unresolved _ _ _ _ _ own => exact absurd hmem (null_not_mem_of_sourceKey own)
  | fields _ _ _ own => exact absurd hmem (null_not_mem_of_sourceKey own)
  | through _ own => exact absurd hmem (null_not_mem_of_sourceKey own)

/-! ## The key of a kind -/

/-- The columns and values with which a relation compares all of `keys`, as its kind has it. -/
structure WholeKey (schema : Schema) (entity : String) (source : Json) (relation : Relation)
    (keys : List String) (columns : List Column) (values : List Json) : Prop where
  length_columns : columns.length = keys.length
  length_values : values.length = keys.length
  /-- the target's key, or the source's behind the inverse where its foreign key is not there -/
  holding : relation.HoldsKey →
    (schema.primaryKeys relation.target = .ok keys ∧
      foreignKeyValues? source relation relation.fieldNames keys = some values ∧
      columns = keys.map .ofField) ∨
    relation.kind = .oneToOne ∧ ∃ inverse targetKeys, relation.inversedBy = some inverse ∧
      schema.primaryKeys relation.target = .ok targetKeys ∧
      foreignKeyValues? source relation relation.fieldNames targetKeys = none ∧
      sourceKey schema entity source = .ok (keys, values) ∧ columns = keys.map (.behind inverse)
  /-- the source's key, in the properties declared for the inverse, or through it without any -/
  leading : relation.LeadsBack →
    ∃ inverse, (relation.mappedBy <|> relation.inversedBy) = some inverse ∧
      sourceKey schema entity source = .ok (keys, values) ∧
      (inverseFields schema relation inverse ≠ [] →
        columns = (inverseFields schema relation inverse).map .ofField) ∧
      (inverseFields schema relation inverse = [] → columns = throughColumns inverse keys)
  /-- the source's key, through the name that the related rows have for the pivot -/
  pivoting : relation.kind = .manyToMany →
    ∃ name, (if relation.owner then relation.inversedBy else relation.mappedBy) = some name ∧
      sourceKey schema entity source = .ok (keys, values) ∧ columns = throughColumns name keys
  /-- null is read from the declared foreign-key property at its position -/
  null_field : ∀ i : Nat, values[i]? = some .null → relation.HoldsKey ∧
    ∃ field, relation.fieldNames[i]? = some field ∧ source.get? field = some .null

namespace Compares

theorem wholeKey (h : Compares schema entity source relation keys columns values) :
    WholeKey schema entity source relation keys columns values where
  length_columns := h.length_columns
  length_values := h.length_values
  holding holds := by
    cases h with
    | target _ declared _ held => exact .inl ⟨declared, held, rfl⟩
    | unresolved kind _ leads declared unheld own =>
      exact .inr ⟨kind, _, _, leads, declared, unheld, own, rfl⟩
    | fields held => exact absurd held.1 holds.not_leadsBack
    | through back =>
      rcases back with ⟨hkind, -⟩ | ⟨held, -⟩
      · exact absurd hkind holds.kind_ne
      · exact absurd held.1 holds.not_leadsBack
  leading leads := by
    cases h with
    | target holds => exact absurd leads holds.not_leadsBack
    | unresolved kind owner => exact absurd leads (HoldsKey.not_leadsBack (.inr ⟨kind, owner⟩))
    | fields held declared _ own =>
      exact ⟨_, held.2, own, fun _ => rfl, fun hnone => absurd hnone declared⟩
    | through back own =>
      rcases back with ⟨hkind, -⟩ | ⟨held, hnone⟩
      · exact absurd hkind leads.kind_ne
      · exact ⟨_, held.2, own, fun hsome => absurd hnone hsome, fun _ => rfl⟩
  pivoting hkind := by
    cases h with
    | target holds => exact absurd hkind holds.kind_ne
    | unresolved kind owner => exact absurd hkind (HoldsKey.kind_ne (.inr ⟨kind, owner⟩))
    | fields held => exact absurd hkind (LeadsBack.kind_ne held.1)
    | through back own =>
      rcases back with ⟨-, hname⟩ | ⟨held, -⟩
      · exact ⟨_, hname, own, rfl⟩
      · exact absurd hkind (LeadsBack.kind_ne held.1)
  null_field _ hnull := h.field_of_null hnull

end Compares

end Relation

namespace Schema

variable {schema : Schema} {entity relation : String} {source : Json} {p : Predicate}

/-- **A link compares the whole key.** Its condition consists of one equality for each column of a
primary key, in the order of that, and none is missing. Which columns and which values these are the
kind of the relation decides; null is among the values only where a declared property of the foreign
key is null. -/
theorem link_compares_whole_key (h : schema.link entity source relation = .ok p) :
    ∃ found keys columns values, schema.relation? entity relation = some found ∧
      found.WholeKey schema entity source keys columns values ∧ p.Equates columns values := by
  obtain ⟨found, hfound, hlink⟩ := link_eq_ok.1 h
  obtain ⟨keys, columns, values, hcompares, rfl⟩ := Relation.compares_of_link hlink
  have hlength : columns.length = values.length :=
    hcompares.length_columns.trans hcompares.length_values.symm
  exact ⟨found, keys, columns, values, hfound, hcompares.wholeKey,
    Relation.equates_equalities hlength⟩

/-- A line that has no number of its order is still linked by shop and number, and an order to its
lines by both. -/
theorem link_shops_whole_key :
    (∃ p, shops.link "Line" strayLine "order" = .ok p ∧
      p.Equates [.ofField "shop", .ofField "number"] [.str "north", .null]) ∧
    ∃ p, shops.link "Order" seventhOrder "lines" = .ok p ∧
      p.Equates [.ofField "orderShop", .ofField "orderNumber"] [.str "north", .int 7] := by
  constructor
  · obtain ⟨p, hlink⟩ : ∃ p, shops.link "Line" strayLine "order" = .ok p := ⟨_, rfl⟩
    obtain ⟨found, keys, columns, values, hfound, hkey, hequates⟩ := link_compares_whole_key hlink
    obtain rfl : orderOfLine.forward = found :=
      Option.some.inj (orderOfLine.forward_declared.symm.trans hfound)
    rcases hkey.holding (.inl rfl) with ⟨hkeys, hvalues, rfl⟩ | ⟨hkind, -⟩
    · cases hkeys
      cases hvalues
      exact ⟨p, hlink, hequates⟩
    · cases hkind
  · obtain ⟨p, hlink⟩ : ∃ p, shops.link "Order" seventhOrder "lines" = .ok p := ⟨_, rfl⟩
    obtain ⟨found, keys, columns, values, hfound, hkey, hequates⟩ := link_compares_whole_key hlink
    obtain rfl : orderOfLine.backward = found :=
      Option.some.inj (orderOfLine.backward_declared.symm.trans hfound)
    obtain ⟨inverse, hinverse, hown, hfields, -⟩ := hkey.leading (.inl rfl)
    cases hinverse
    cases hown
    obtain rfl := hfields (by decide)
    exact ⟨p, hlink, hequates⟩

end Schema

end EntityQuery
