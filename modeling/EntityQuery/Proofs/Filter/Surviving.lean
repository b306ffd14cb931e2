import EntityQuery.Proofs.Filter.Compiling
import EntityQuery.Proofs.Filter.Writing
import EntityQuery.Proofs.Json.Equality
import EntityQuery.Proofs.Pairing

/-!
# Which filters survive being written

Writing a filter puts its entries and comparisons in key order, keeps the last of several under one
key, and leaves it to the reader to tell comparisons from a filter behind a relation. `WellFormed`
says of a filter that none of this changes it. A well-formed filter is read back as it was
(`ofJson_toJson`), and a filter that is read back as an equal one is well formed
(`wellFormed_of_same`).
-/

namespace EntityQuery.Filter

/-- Comparisons in strict order of their operators, which nobody takes for a filter: some operator
is known, or some operand is neither object nor array. -/
structure Recognisable (list : List Comparison) : Prop where
  increasing : (list.map Comparison.operator).Pairwise (· < ·)
  told : (∃ c ∈ list, Operator.isKnown c.operator = true) ∨
    ∃ c ∈ list, c.operand.isObject = false ∧ c.operand.isArray = false

/-- A filter with fields in strict order, none of them named like a group, whose comparisons are
recognisable and whose filters behind relations have no field that is named like an operator. -/
inductive WellFormed : Filter → Prop
  | node {all any : List Filter} {fields : List (String × FieldFilter)} :
    (∀ f ∈ all, WellFormed f) → (∀ f ∈ any, WellFormed f) →
    Dict.Sorted fields → (∀ key ∈ Dict.keys fields, key ≠ "and" ∧ key ≠ "or") →
    (∀ name list, (name, FieldFilter.comparisons list) ∈ fields → Recognisable list) →
    (∀ name sub, (name, FieldFilter.relation sub) ∈ fields → WellFormed sub) →
    (∀ name sub, (name, FieldFilter.relation sub) ∈ fields →
      ∀ key ∈ Dict.keys sub.fields, Operator.isKnown key = false) →
    WellFormed (.node all any fields)

/-- What a well-formed filter says of one of its entries. -/
def EntryForm : FieldFilter → Prop
  | .comparisons list => Recognisable list
  | .relation sub => WellFormed sub ∧ ∀ key ∈ Dict.keys sub.fields, Operator.isKnown key = false

theorem wellFormed_node {all any : List Filter} {fields : List (String × FieldFilter)} :
    WellFormed (.node all any fields) ↔
      (∀ f ∈ all, WellFormed f) ∧ (∀ f ∈ any, WellFormed f) ∧ Dict.Sorted fields ∧
        (∀ key ∈ Dict.keys fields, isGroup key = false) ∧
          ∀ entry ∈ fields, EntryForm entry.2 := by
  simp only [isGroup_eq_false]
  constructor
  · rintro ⟨hall, hany, hsorted, hgroup, hlists, hsubs, hkeys⟩
    refine ⟨hall, hany, hsorted, hgroup, ?_⟩
    rintro ⟨name, entry⟩ hentry
    cases entry with
    | comparisons list => exact hlists name list hentry
    | relation sub => exact ⟨hsubs name sub hentry, hkeys name sub hentry⟩
  · rintro ⟨hall, hany, hsorted, hgroup, hentries⟩
    exact .node hall hany hsorted hgroup (fun name list h => hentries (name, .comparisons list) h)
      (fun name sub h => (hentries (name, .relation sub) h).1)
      (fun name sub h => (hentries (name, .relation sub) h).2)

/-! ## Telling comparisons from filters -/

/-- The members that comparisons are written to, as long as no operator repeats. -/
def pairs (list : List Comparison) : List (String × Json) :=
  list.map fun c => (c.operator, c.operand)

theorem keys_pairs (list : List Comparison) :
    Dict.keys (pairs list) = list.map Comparison.operator := by
  rw [Dict.keys, pairs, List.map_map]
  rfl

theorem comparisonsOf_pairs (list : List Comparison) : comparisonsOf (pairs list) = list := by
  rw [comparisonsOf, pairs, List.map_map]
  exact List.map_id list

theorem holdsComparisons_pairs {list : List Comparison} :
    holdsComparisons (pairs list) = true ↔
      (∃ c ∈ list, Operator.isKnown c.operator = true) ∨
        ∃ c ∈ list, c.operand.isObject = false ∧ c.operand.isArray = false := by
  rw [holdsComparisons_iff]
  simp [pairs]

/-- Written as an object, a filter is taken for comparisons when a field of its is named like an
operator, and only then. -/
theorem holdsComparisons_members (f : Filter) :
    holdsComparisons f.members = true ↔
      ∃ key ∈ Dict.keys f.fields, Operator.isKnown key = true := by
  rw [holdsComparisons_iff]
  constructor
  · rintro (⟨m, hm, hknown⟩ | ⟨m, hm, hobject, harray⟩)
    · -- no operator is called like a group
      rcases mem_members hm with rfl | rfl | ⟨entry, hentry, rfl⟩
      · have hand : Operator.isKnown "and" = false := by decide
        exact absurd (hand.symm.trans hknown) Bool.false_ne_true
      · have hor : Operator.isKnown "or" = false := by decide
        exact absurd (hor.symm.trans hknown) Bool.false_ne_true
      · exact ⟨entry.1, List.mem_map_of_mem hentry, hknown⟩
    · -- every value is an array of filters or an object
      rcases mem_members hm with rfl | rfl | ⟨entry, -, rfl⟩
      · cases harray
      · cases harray
      · rw [isObject_entryToJson] at hobject
        cases hobject
  · rintro ⟨key, hkey, hknown⟩
    obtain ⟨m, hm, rfl⟩ := List.mem_map.1 (mem_keys_members_of_field hkey)
    exact Or.inl ⟨m, hm, hknown⟩

/-! ## Well-formed filters are read back -/

theorem Recognisable.sorted_pairs {list : List Comparison} (h : Recognisable list) :
    Dict.Sorted (pairs list) := by
  rw [Dict.Sorted, keys_pairs]
  exact h.increasing

theorem entryOf_entryToJson {name : String} {entry : FieldFilter} (h : EntryForm entry)
    (hsub : ∀ sub, entry = .relation sub → ofJson sub.toJson = .ok sub) :
    entryOf name (entryToJson entry) = .ok entry := by
  rw [entryOf_eq_ok]
  cases entry with
  | comparisons list =>
    refine ⟨pairs list, ?_, ?_⟩
    · rw [entryToJson]
      exact congrArg _ (Dict.ofEntries_of_sorted h.sorted_pairs)
    · rw [if_pos (holdsComparisons_pairs.2 h.told), comparisonsOf_pairs]
  | relation sub =>
    have hnot : ¬holdsComparisons sub.members = true := by
      rw [holdsComparisons_members]
      rintro ⟨key, hkey, hknown⟩
      rw [h.2 key hkey] at hknown
      cases hknown
    have hread := hsub sub rfl
    rw [toJson_eq_obj, ofJson] at hread
    refine ⟨sub.members, ?_, ?_⟩
    · rw [entryToJson, toJson_eq_obj]
    · rw [if_neg hnot]
      exact ⟨sub, hread, rfl⟩

theorem ofJson_toJson {f : Filter} (h : f.WellFormed) : ofJson f.toJson = .ok f := by
  induction f using partsInduction with
  | node all any fields ihall ihany ihfields =>
    obtain ⟨hall, hany, hsorted, hgroup, hentries⟩ := wellFormed_node.1 h
    refine (ofJson_toJson_eq_ok hsorted hgroup).2 ⟨?_, ?_, ?_⟩
    · exact List.forall₂_same.2 fun f hf => ihall f hf (hall f hf)
    · exact List.forall₂_same.2 fun f hf => ihany f hf (hany f hf)
    · refine List.forall₂_same.2 fun entry hentry => ⟨rfl, ?_⟩
      refine entryOf_entryToJson (hentries entry hentry) fun sub hsub => ?_
      have hmem : (entry.1, FieldFilter.relation sub) ∈ fields := by
        rw [← hsub]
        exact hentry
      exact ihfields entry.1 sub hmem (hentries _ hmem).1

/-! ## Equality of filters part by part -/

theorem sameComparisons_iff {cs ds : List Comparison} :
    sameComparisons cs ds = true ↔
      List.Forall₂ (fun c d => c.operator = d.operator ∧ c.operand.same d.operand = true)
        cs ds := by
  induction cs generalizing ds with
  | nil => cases ds <;> simp [sameComparisons]
  | cons c cs ih => cases ds <;> simp [sameComparisons, ih]

theorem sameList_iff {fs gs : List Filter} :
    sameList fs gs = true ↔ List.Forall₂ (fun f g => f.same g = true) fs gs := by
  induction fs generalizing gs with
  | nil => cases gs <;> simp [sameList]
  | cons f fs ih => cases gs <;> simp [sameList, ih]

theorem sameFields_iff {fields others : List (String × FieldFilter)} :
    sameFields fields others = true ↔
      List.Forall₂ (fun e e' => e.1 = e'.1 ∧ sameEntry e.2 e'.2 = true) fields others := by
  induction fields generalizing others with
  | nil => cases others <;> simp [sameFields]
  | cons e fields ih => cases others <;> simp [sameFields, ih]

theorem same_refl (f : Filter) : f.same f = true := by
  induction f using partsInduction with
  | node all any fields ihall ihany ihfields =>
    rw [same, sameList_iff.2 (List.forall₂_same.2 ihall),
      sameList_iff.2 (List.forall₂_same.2 ihany), Bool.true_and, Bool.true_and, sameFields_iff]
    refine List.forall₂_same.2 ?_
    rintro ⟨name, entry⟩ hentry
    cases entry with
    | comparisons list =>
      refine ⟨rfl, sameComparisons_iff.2 (List.forall₂_same.2 fun c _ => ⟨rfl, ?_⟩)⟩
      exact c.operand.same_refl
    | relation sub => exact ⟨rfl, ihfields name sub hentry⟩

/-! ## What is read back is well formed -/

/-- An entry that is read back as an equal one has the form of its kind. -/
theorem entryForm_of_same {name : String} {entry entry' : FieldFilter}
    (hread : entryOf name (entryToJson entry) = .ok entry') (hsame : sameEntry entry' entry = true)
    (hsub : ∀ sub, entry = .relation sub →
      ∀ g, ofJson sub.toJson = .ok g → g.same sub = true → sub.WellFormed) :
    EntryForm entry := by
  obtain ⟨ms, hms, hread⟩ := entryOf_eq_ok.1 hread
  cases entry with
  | comparisons list =>
    obtain rfl : Dict.ofEntries (pairs list) = ms := Json.obj.inj hms
    split at hread
    · next hholds =>
      subst hread
      -- the operators read are those in key order, and they are the ones that were written
      have hnames : Dict.keys (Dict.ofEntries (pairs list)) = list.map Comparison.operator := by
        have hkeys := sameComparisons_iff.1 hsame
        rw [comparisonsOf, List.forall₂_map_left_iff] at hkeys
        exact Pairing.map_eq_map hkeys fun _ _ hname => hname.1
      have hsorted : Dict.Sorted (pairs list) := by
        rw [Dict.Sorted, keys_pairs, ← hnames]
        exact Dict.sorted_ofEntries _
      rw [Dict.ofEntries_of_sorted hsorted] at hholds
      refine ⟨?_, holdsComparisons_pairs.1 hholds⟩
      rw [← keys_pairs]
      exact hsorted
    · obtain ⟨f, -, rfl⟩ := hread
      cases hsame
  | relation sub =>
    rw [entryToJson, toJson_eq_obj] at hms
    obtain rfl : sub.members = ms := Json.obj.inj hms
    split at hread
    · subst hread
      cases hsame
    · next hholds =>
      obtain ⟨g, hg, rfl⟩ := hread
      refine ⟨hsub sub rfl g ?_ hsame, fun key hkey => ?_⟩
      · rw [toJson_eq_obj, ofJson]
        exact hg
      · rw [holdsComparisons_members] at hholds
        rw [← Bool.not_eq_true]
        exact fun hknown => hholds ⟨key, hkey, hknown⟩

theorem wellFormed_of_same {f : Filter} :
    ∀ {g : Filter}, ofJson f.toJson = .ok g → g.same f = true → f.WellFormed := by
  induction f using partsInduction with
  | node all any fields ihall ihany ihfields =>
    intro g hread hsame
    obtain ⟨hsorted, hgroup⟩ := fields_of_ofJson_toJson hread
    obtain ⟨all', any', fields'⟩ := g
    simp only [same, Bool.and_eq_true, sameList_iff, sameFields_iff] at hsame
    obtain ⟨⟨hsameAll, hsameAny⟩, hsameFields⟩ := hsame
    -- the fields of both have the same names, so those that were written are in order too
    have hkeys : Dict.keys fields' = Dict.keys fields :=
      Pairing.map_eq_map hsameFields fun _ _ hentry => hentry.1
    have hsorted : Dict.Sorted fields := by
      rw [Dict.Sorted, ← hkeys]
      exact hsorted
    have hgroup : ∀ key ∈ Dict.keys fields, isGroup key = false := by
      rw [← hkeys]
      exact hgroup
    obtain ⟨hall, hany, hfields⟩ := (ofJson_toJson_eq_ok hsorted hgroup).1 hread
    refine wellFormed_node.2 ⟨?_, ?_, hsorted, hgroup, ?_⟩
    · intro f hf
      obtain ⟨h, hh, hsame⟩ := Pairing.exists_both hall hsameAll hf
      exact ihall f hf hh hsame
    · intro f hf
      obtain ⟨h, hh, hsame⟩ := Pairing.exists_both hany hsameAny hf
      exact ihany f hf hh hsame
    · intro entry hentry
      obtain ⟨entry', ⟨-, hread⟩, -, hsame⟩ := Pairing.exists_both hfields hsameFields hentry
      refine entryForm_of_same hread hsame fun sub hsub g => ?_
      refine ihfields entry.1 sub ?_
      rw [← hsub]
      exact hentry

/-- **Exactly the well-formed filters survive being written.** That holds of survival to the letter,
and also when the filter read back only has to be equal, with operands compared as values. -/
theorem survives_iff_wellFormed (f : Filter) :
    (ofJson f.toJson = .ok f ↔ f.WellFormed) ∧
      ((∃ g, ofJson f.toJson = .ok g ∧ (g == f) = true) ↔ f.WellFormed) := by
  have hequal : (∃ g, ofJson f.toJson = .ok g ∧ (g == f) = true) → f.WellFormed := by
    rintro ⟨g, hg, hsame⟩
    exact wellFormed_of_same hg hsame
  have hself : ofJson f.toJson = .ok f → ∃ g, ofJson f.toJson = .ok g ∧ (g == f) = true :=
    fun h => ⟨f, h, same_refl f⟩
  exact ⟨⟨fun h => hequal (hself h), ofJson_toJson⟩, hequal, fun h => hself (ofJson_toJson h)⟩

end EntityQuery.Filter
