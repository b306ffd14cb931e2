import EntityQuery.Proofs.Filter.Reading

/-!
# What a filter is written to

A filter is written to an object whose members are in key order (`sorted_members`), whatever the
order of its entries. When the entries are in key order themselves and none is named like a group,
nothing is overwritten: the members are the two groups, where they are not empty, and the entries
one by one. Reading them back is then reading back each part (`ofJson_toJson_eq_ok`).
-/

namespace EntityQuery.Filter

theorem toItems_eq_map (fs : List Filter) : toItems fs = fs.map toJson := by
  induction fs with
  | nil => rfl
  | cons f fs ih => rw [toItems, ih, List.map_cons]

theorem toMembers_eq_map (fields : List (String × FieldFilter)) :
    toMembers fields = fields.map fun entry => (entry.1, entryToJson entry.2) := by
  induction fields with
  | nil => rfl
  | cons entry rest ih => rw [toMembers, ih, List.map_cons]

theorem keys_toMembers (fields : List (String × FieldFilter)) :
    (toMembers fields).map Prod.fst = fields.map Prod.fst := by
  rw [toMembers_eq_map, List.map_map]
  rfl

/-- The members of the object that a filter is written to. -/
def members : Filter → Dict Json
  | node all any fields => Dict.ofEntries
      (groupEntry "and" (toItems all) ++ groupEntry "or" (toItems any) ++ toMembers fields)

theorem toJson_eq_obj (f : Filter) : f.toJson = .obj f.members := by
  cases f
  rw [toJson, members]

theorem sorted_members (f : Filter) : f.members.Sorted := by
  cases f
  exact Dict.sorted_ofEntries _

theorem get?_groupEntry (name key : String) (items : List Json) :
    Dict.get? (groupEntry name items) key =
      if key = name ∧ items ≠ [] then some (.arr items) else none := by
  cases items with
  | nil => simp [groupEntry]
  | cons x xs => simp [groupEntry, Dict.get?_cons]

theorem reverse_groupEntry (name : String) (items : List Json) :
    (groupEntry name items).reverse = groupEntry name items := by
  cases items <;> rfl

theorem mem_groupEntry {name : String} {items : List Json} {m : String × Json}
    (h : m ∈ groupEntry name items) : m = (name, .arr items) := by
  cases items with
  | nil => cases h
  | cons x xs => exact List.mem_singleton.1 h

theorem mem_members {f : Filter} {m : String × Json} (h : m ∈ f.members) :
    m = ("and", .arr (toItems f.all)) ∨ m = ("or", .arr (toItems f.any)) ∨
      ∃ entry ∈ f.fields, m = (entry.1, entryToJson entry.2) := by
  obtain ⟨all, any, fields⟩ := f
  rcases List.mem_append.1 (Dict.mem_of_mem_ofEntries h) with hm | hm
  · rcases List.mem_append.1 hm with hm | hm
    · exact Or.inl (mem_groupEntry hm)
    · exact Or.inr (Or.inl (mem_groupEntry hm))
  · rw [toMembers_eq_map] at hm
    obtain ⟨entry, hentry, rfl⟩ := List.mem_map.1 hm
    exact Or.inr (Or.inr ⟨entry, hentry, rfl⟩)

theorem mem_keys_members_of_field {f : Filter} {key : String} (h : key ∈ Dict.keys f.fields) :
    key ∈ f.members.keys := by
  obtain ⟨all, any, fields⟩ := f
  rw [members, Dict.mem_keys_ofEntries, List.map_append, keys_toMembers]
  exact List.mem_append_right _ h

theorem isObject_entryToJson (entry : FieldFilter) : (entryToJson entry).isObject = true := by
  cases entry with
  | comparisons list => rfl
  | relation f => rw [entryToJson, toJson_eq_obj, Json.isObject]

theorem readsGroup_congr {members others : Dict Json} {key : String} {fs : List Filter}
    (h : members.get? key = others.get? key) :
    ReadsGroup members key fs ↔ ReadsGroup others key fs := by
  rw [ReadsGroup, h, ← ReadsGroup]

/-- A group is read back filter by filter, an empty one from nothing. -/
theorem readsGroup_groupEntry (name : String) {fs gs : List Filter} :
    ReadsGroup (groupEntry name (toItems fs)) name gs ↔
      List.Forall₂ (fun f g => ofJson f.toJson = .ok g) fs gs := by
  rw [← List.forall₂_map_left_iff (R := fun v g => ofJson v = .ok g), ← toItems_eq_map, ReadsGroup,
    get?_groupEntry]
  cases toItems fs with
  | nil => simp
  | cons x xs => simp [childrenOf, ofItems_eq_ok]

/-- Under a key lies its last entry, and only where there is none the group of that name. -/
theorem get?_members (all any : List Filter) (fields : List (String × FieldFilter))
    (key : String) :
    (members (node all any fields)).get? key =
      (Dict.get? (toMembers fields).reverse key).or
        ((Dict.get? (groupEntry "or" (toItems any)) key).or
          (Dict.get? (groupEntry "and" (toItems all)) key)) := by
  -- the last entry under a key is the first one from behind
  rw [members, Dict.get?_ofEntries, List.reverse_append, List.reverse_append, reverse_groupEntry,
    reverse_groupEntry]
  simp only [Dict.get?, List.lookup_append]

/-! ## Entries in key order -/

section

variable {all any : List Filter} {fields : Dict FieldFilter} (hsorted : fields.Sorted)
  (hgroup : ∀ key ∈ fields.keys, isGroup key = false)

include hgroup in
theorem get?_members_of_isGroup {key : String} (hkey : isGroup key = true) :
    (members (node all any fields)).get? key =
      (Dict.get? (groupEntry "or" (toItems any)) key).or
        (Dict.get? (groupEntry "and" (toItems all)) key) := by
  have hnone : Dict.get? (toMembers fields).reverse key = none := by
    refine Dict.get?_eq_none fun hmem => ?_
    rw [Dict.keys, List.map_reverse, List.mem_reverse, keys_toMembers] at hmem
    rw [hgroup key hmem] at hkey
    cases hkey
  rw [get?_members, hnone, Option.none_or]

include hsorted hgroup in
/-- The members that are no groups are the entries. -/
theorem entriesOf_members : entriesOf (members (node all any fields)) = toMembers fields := by
  have hentries : Dict.Sorted (toMembers fields) := by
    rw [Dict.Sorted, Dict.keys, keys_toMembers]
    exact hsorted
  refine Dict.ext (Dict.sorted_filter (sorted_members _) _) hentries fun key => ?_
  rw [get?_entriesOf]
  cases hkey : isGroup key with
  | true =>
    refine (Dict.get?_eq_none fun hmem => ?_).symm
    rw [Dict.keys, keys_toMembers] at hmem
    rw [hgroup key hmem] at hkey
    cases hkey
  | false =>
    obtain ⟨hand, hor⟩ := isGroup_eq_false.1 hkey
    rw [get?_members, get?_groupEntry, get?_groupEntry]
    simp [hand, hor, Dict.get?_reverse_of_sorted hentries]

include hsorted hgroup in
theorem get?_members_of_not_isGroup {key : String} (hkey : isGroup key = false) :
    (members (node all any fields)).get? key = Dict.get? (toMembers fields) key := by
  have hentries : entriesOf (members (node all any fields)) = toMembers fields :=
    entriesOf_members hsorted hgroup
  rw [← hentries, get?_entriesOf, hkey, if_neg Bool.false_ne_true]

include hgroup in
theorem readsGroup_members_and {fs : List Filter} :
    ReadsGroup (members (node all any fields)) "and" fs ↔
      List.Forall₂ (fun f g => ofJson f.toJson = .ok g) all fs := by
  rw [← readsGroup_groupEntry "and"]
  refine readsGroup_congr ?_
  rw [get?_members_of_isGroup hgroup (by decide), get?_groupEntry "or", if_neg (by simp),
    Option.none_or]

include hgroup in
theorem readsGroup_members_or {fs : List Filter} :
    ReadsGroup (members (node all any fields)) "or" fs ↔
      List.Forall₂ (fun f g => ofJson f.toJson = .ok g) any fs := by
  rw [← readsGroup_groupEntry "or"]
  refine readsGroup_congr ?_
  rw [get?_members_of_isGroup hgroup (by decide), get?_groupEntry "and", if_neg (by simp),
    Option.or_none]

/-- An entry read back from what an entry is written to. -/
def ReadsBack (entry entry' : String × FieldFilter) : Prop :=
  entry.1 = entry'.1 ∧ entryOf entry.1 (entryToJson entry.2) = .ok entry'.2

include hsorted hgroup in
/-- Reading back a filter whose entries are in order is reading back each of its parts. -/
theorem ofJson_toJson_eq_ok {g : Filter} :
    ofJson (node all any fields).toJson = .ok g ↔
      List.Forall₂ (fun f h => ofJson f.toJson = .ok h) all g.all ∧
        List.Forall₂ (fun f h => ofJson f.toJson = .ok h) any g.any ∧
          List.Forall₂ ReadsBack fields g.fields := by
  rw [toJson_eq_obj, ofJson, ofMembers_eq_ok (sorted_members _), readsGroup_members_and hgroup,
    readsGroup_members_or hgroup, entriesOf_members hsorted hgroup, toMembers_eq_map,
    List.forall₂_map_left_iff]
  rfl

end

/-- What is read back has its fields in key order and no group among them. -/
theorem fields_of_ofJson_toJson {f g : Filter} (h : ofJson f.toJson = .ok g) :
    Dict.Sorted g.fields ∧ ∀ key ∈ Dict.keys g.fields, isGroup key = false := by
  rw [toJson_eq_obj, ofJson] at h
  obtain ⟨hsorted, hkeys⟩ := fields_of_ofMembers (sorted_members f) h
  exact ⟨hsorted, fun key hkey => (hkeys key hkey).1⟩

end EntityQuery.Filter
