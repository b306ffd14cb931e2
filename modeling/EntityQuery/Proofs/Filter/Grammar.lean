import EntityQuery.Proofs.Filter.Surviving

/-!
# The grammar of written filters

`IsFilter` says which values are filters in their written form: objects whose groups list such
values and whose other members hold comparisons or such a value again. Exactly these are read
(`exists_ofJson_iff`); all others are refused as no filter (`refuses_ofJson`). What is read is
written as it stood, but for groups that list nothing (`trimmed`), and is well formed, so writing
and reading it once more changes nothing (`toJson_of_ofJson`).
-/

namespace EntityQuery.Filter

/-- Whether the members of an object are comparisons: some key names an operator, or some value is
neither object nor array. -/
def IsComparisons (entries : List (String × Json)) : Prop :=
  (∃ m ∈ entries, Operator.isKnown m.1 = true) ∨
    ∃ m ∈ entries, m.2.isObject = false ∧ m.2.isArray = false

theorem isComparisons_iff {entries : List (String × Json)} :
    IsComparisons entries ↔ holdsComparisons entries = true := holdsComparisons_iff.symm

instance (entries : List (String × Json)) : Decidable (IsComparisons entries) :=
  decidable_of_iff' (holdsComparisons entries = true) isComparisons_iff

mutual

/-- The values that are filters: objects whose members all fit. -/
def IsFilter : Json → Prop
  | .obj members => MembersFit members
  | _ => False
termination_by structural value => value

/-- Every member is one that a filter may have. -/
def MembersFit : List (String × Json) → Prop
  | [] => True
  | (key, value) :: rest => ValueFits key value ∧ MembersFit rest
termination_by structural members => members

/-- Under `and` and `or` stands an array of filters, under any other key an object of comparisons or
one that is a filter itself. -/
def ValueFits (key : String) : Json → Prop
  | .arr items => isGroup key = true ∧ ItemsFit items
  | .obj entries => isGroup key = false ∧ (IsComparisons entries ∨ MembersFit entries)
  | _ => False
termination_by structural value => value

/-- Every item is a filter. -/
def ItemsFit : List Json → Prop
  | [] => True
  | x :: xs => IsFilter x ∧ ItemsFit xs
termination_by structural items => items

end

mutual

/-- The value without the groups that list nothing, wherever a filter stands. Comparisons stay as
they are. -/
def trimmed : Json → Json
  | .obj members => .obj (trimmedMembers members)
  | other => other
termination_by structural value => value

/-- Filters in order, each without its empty groups. -/
def trimmedItems : List Json → List Json
  | [] => []
  | x :: xs => trimmed x :: trimmedItems xs
termination_by structural items => items

/-- The members of a filter without its empty groups. -/
def trimmedMembers : List (String × Json) → List (String × Json)
  | [] => []
  | (key, value) :: rest =>
    match trimmedValue key value with
    | none => trimmedMembers rest
    | some value => (key, value) :: trimmedMembers rest
termination_by structural members => members

/-- What is left of a member's value; nothing of a group that lists nothing. -/
def trimmedValue (key : String) : Json → Option Json
  | .arr items =>
    if isGroup key then if items.isEmpty then none else some (.arr (trimmedItems items))
    else some (.arr items)
  | .obj entries =>
    if isGroup key ∨ IsComparisons entries then some (.obj entries)
    else some (.obj (trimmedMembers entries))
  | other => some other
termination_by structural value => value

end

/-! ## Exactly the filters are read -/

mutual

theorem exists_ofJson_iff : ∀ v : Json, (∃ f, ofJson v = .ok f) ↔ IsFilter v
  | .obj members => exists_ofMembers_iff.trans (forall_readable_iff members)
  | .null | .bool _ | .num _ | .str _ | .arr _ => by simp [ofJson, IsFilter]

theorem forall_readable_iff : ∀ members : List (String × Json),
    (∀ m ∈ members, Readable m) ↔ MembersFit members
  | [] => by simp [MembersFit]
  | (key, value) :: rest => by
    rw [List.forall_mem_cons, MembersFit, readable_iff key value, forall_readable_iff rest]

theorem readable_iff (key : String) : ∀ value : Json,
    Readable (key, value) ↔ ValueFits key value
  | .arr items => by
    rw [Readable, ValueFits, ← exists_ofItems_iff items]
    cases isGroup key with
    | true => simp [childrenOf]
    | false => simp [entryOf]
  | .obj entries => by
    have hsub : (∃ f, ofMembers entries = .ok f) ↔ MembersFit entries :=
      exists_ofMembers_iff.trans (forall_readable_iff entries)
    rw [Readable, ValueFits, ← hsub]
    cases isGroup key with
    | true => simp [childrenOf]
    | false =>
      simp only [entryOf_eq_ok, Json.obj.injEq, exists_eq_left']
      by_cases h : IsComparisons entries
      · simp [isComparisons_iff.1 h, h]
      · have hnot : ¬holdsComparisons entries = true := fun hholds => h (isComparisons_iff.2 hholds)
        simp [hnot, h]
  | .null | .bool _ | .num _ | .str _ => by
    simp only [Readable, ValueFits]
    cases isGroup key <;> simp [childrenOf, entryOf]

theorem exists_ofItems_iff : ∀ items : List Json, (∃ fs, ofItems items = .ok fs) ↔ ItemsFit items
  | [] => by simp [ofItems, ItemsFit]
  | x :: xs => by
    rw [ItemsFit, ← exists_ofJson_iff x, ← exists_ofItems_iff xs]
    simp [ofItems, Answer.bind_eq_ok]

end

/-! ## All else is refused as no filter -/

/-- Every error of an answer says where a value departs from the form of a filter. -/
def RefusesForm {α : Type} (x : Answer α) : Prop :=
  ∀ e, x = .error e → ∃ fault, e = .invalidFilter fault

theorem refusesForm_ok {α : Type} (a : α) : RefusesForm (.ok a : Answer α) := by
  intro e h
  cases h

theorem refusesForm_error {α : Type} (fault : FilterFault) :
    RefusesForm (.error (.invalidFilter fault) : Answer α) := by
  intro e h
  cases h
  exact ⟨fault, rfl⟩

theorem RefusesForm.bind {α β : Type} {x : Answer α} {f : α → Answer β} (hx : RefusesForm x)
    (hf : ∀ a, RefusesForm (f a)) : RefusesForm (x >>= f) := by
  cases x with
  | error e => exact fun d hd => hx d (congrArg Except.error (Except.error.inj hd))
  | ok a => exact hf a

mutual

theorem refuses_ofJson : ∀ v : Json, RefusesForm (ofJson v)
  | .obj members => refuses_ofMembers members
  | .null | .bool _ | .num _ | .str _ | .arr _ => refusesForm_error _

theorem refuses_ofMembers : ∀ members : List (String × Json), RefusesForm (ofMembers members)
  | [] => refusesForm_ok _
  | (key, value) :: rest => by
    rw [ofMembers]
    split
    · refine (refuses_childrenOf key value).bind fun children => ?_
      exact (refuses_ofMembers rest).bind fun f => refusesForm_ok _
    split
    · refine (refuses_childrenOf key value).bind fun children => ?_
      exact (refuses_ofMembers rest).bind fun f => refusesForm_ok _
    · refine (refuses_entryOf key value).bind fun entry => ?_
      exact (refuses_ofMembers rest).bind fun f => refusesForm_ok _

theorem refuses_childrenOf (key : String) : ∀ value : Json, RefusesForm (childrenOf key value)
  | .arr items => refuses_ofItems items
  | .null | .bool _ | .num _ | .str _ | .obj _ => refusesForm_error _

theorem refuses_ofItems : ∀ items : List Json, RefusesForm (ofItems items)
  | [] => refusesForm_ok _
  | x :: xs => by
    rw [ofItems]
    refine (refuses_ofJson x).bind fun f => ?_
    exact (refuses_ofItems xs).bind fun fs => refusesForm_ok _

theorem refuses_entryOf (field : String) : ∀ value : Json, RefusesForm (entryOf field value)
  | .obj members => by
    rw [entryOf]
    split
    · exact refusesForm_ok _
    · exact (refuses_ofMembers members).bind fun f => refusesForm_ok _
  | .null | .bool _ | .num _ | .str _ | .arr _ => refusesForm_error _

end

/-! ## What is read is written as it stood -/

/-- What is read of a member is written as the member without its empty groups, and is well
formed. -/
structure Restores (m : String × Json) : Prop where
  group : ∀ fs, isGroup m.1 = true → childrenOf m.1 m.2 = .ok fs →
    Dict.get? (groupEntry m.1 (toItems fs)) m.1 = trimmedValue m.1 m.2 ∧ ∀ f ∈ fs, WellFormed f
  entry : ∀ e, isGroup m.1 = false → entryOf m.1 m.2 = .ok e →
    trimmedValue m.1 m.2 = some (entryToJson e) ∧ EntryForm e

theorem keys_trimmedMembers (members : List (String × Json)) :
    (Dict.keys (trimmedMembers members)).Sublist (Dict.keys members) := by
  induction members with
  | nil => exact List.Sublist.refl _
  | cons m members ih =>
    obtain ⟨key, value⟩ := m
    rw [trimmedMembers]
    cases trimmedValue key value with
    | none => exact ih.cons key
    | some w => exact ih.cons_cons key

theorem get?_trimmedMembers {members : Dict Json} (h : members.Sorted) (key : String) :
    Dict.get? (trimmedMembers members) key = (members.get? key).bind (trimmedValue key) := by
  induction members with
  | nil => rfl
  | cons m members ih =>
    obtain ⟨k, value⟩ := m
    have ⟨hlater, hrest⟩ := Dict.sorted_cons.1 h
    rw [trimmedMembers, Dict.get?_cons]
    by_cases hk : key = k
    · subst hk
      cases htrimmed : trimmedValue key value with
      | none =>
        have hnone : Dict.get? (trimmedMembers members) key = none := by
          rw [ih hrest, Dict.get?_of_sorted_cons h]
          rfl
        simpa [htrimmed] using hnone
      | some w => simp [Dict.get?_cons, htrimmed]
    · cases htrimmed : trimmedValue k value with
      | none => simpa [hk] using ih hrest
      | some w => simpa [Dict.get?_cons, hk] using ih hrest

/-- A group that is read member by member is written to what was there, unless that was empty. -/
theorem get?_groupEntry_of_reads {members : Dict Json} (hsorted : members.Sorted)
    (hvalues : ∀ m ∈ members, Restores m) {name : String} (hname : isGroup name = true)
    {fs : List Filter} (h : ReadsGroup members name fs) :
    Dict.get? (groupEntry name (toItems fs)) name = (members.get? name).bind (trimmedValue name) ∧
      ∀ f ∈ fs, WellFormed f := by
  rw [ReadsGroup] at h
  cases hvalue : members.get? name with
  | none =>
    rw [hvalue] at h
    obtain rfl : fs = [] := h
    exact ⟨rfl, by simp⟩
  | some value =>
    rw [hvalue] at h
    have hmem : (name, value) ∈ members := (Dict.mem_iff_get? hsorted).2 hvalue
    exact (hvalues _ hmem).group fs hname h

theorem get?_toMembers_of_reads {members : List (String × Json)}
    {fields : List (String × FieldFilter)} (h : List.Forall₂ ReadsEntry members fields)
    (hvalues : ∀ m ∈ members, ∀ entry, ReadsEntry m entry →
      trimmedValue m.1 m.2 = some (entryToJson entry.2)) (key : String) :
    Dict.get? (toMembers fields) key = (Dict.get? members key).bind (trimmedValue key) := by
  induction h with
  | nil => rfl
  | @cons m entry members fields hread _ ih =>
    have hfirst := hvalues m List.mem_cons_self entry hread
    rw [toMembers, Dict.get?_cons, ← hread.1, Dict.get?_cons]
    split
    · next hkey =>
      subst hkey
      exact hfirst.symm
    · exact ih fun m' hm' => hvalues m' (List.mem_cons_of_mem _ hm')

/-- An object whose members are restored one by one is restored. -/
theorem members_of_restores {members : Dict Json} (hsorted : members.Sorted)
    (hvalues : ∀ m ∈ members, Restores m) {f : Filter} (h : ofMembers members = .ok f) :
    f.members = trimmedMembers members ∧ f.WellFormed := by
  obtain ⟨hfields, hkeys⟩ := fields_of_ofMembers hsorted h
  obtain ⟨hand, hor, hentries⟩ := (ofMembers_eq_ok hsorted).1 h
  obtain ⟨hall, hwellAll⟩ := get?_groupEntry_of_reads hsorted hvalues (by decide) hand
  obtain ⟨hany, hwellAny⟩ := get?_groupEntry_of_reads hsorted hvalues (by decide) hor
  have hentry : ∀ m ∈ entriesOf members, ∀ entry, ReadsEntry m entry →
      trimmedValue m.1 m.2 = some (entryToJson entry.2) ∧ EntryForm entry.2 := by
    intro m hm entry hread
    obtain ⟨hmem, hkey⟩ := mem_entriesOf.1 hm
    exact (hvalues m hmem).entry entry.2 hkey hread.2
  obtain ⟨all, any, fields⟩ := f
  have hfields : Dict.Sorted fields := hfields
  have hgroup : ∀ key ∈ Dict.keys fields, isGroup key = false := fun key hkey => (hkeys key hkey).1
  constructor
  · refine Dict.ext (sorted_members _) (hsorted.sublist (keys_trimmedMembers members)) ?_
    intro key
    rw [get?_trimmedMembers hsorted]
    cases hkey : isGroup key with
    | true =>
      rw [get?_members_of_isGroup hgroup hkey]
      rcases isGroup_iff.1 hkey with rfl | rfl
      · rw [get?_groupEntry "or", if_neg (by simp), Option.none_or]
        exact hall
      · rw [get?_groupEntry "and", if_neg (by simp), Option.or_none]
        exact hany
    | false =>
      have hmembers : Dict.get? (entriesOf members) key = members.get? key := by
        rw [get?_entriesOf, hkey, if_neg Bool.false_ne_true]
      rw [get?_members_of_not_isGroup hfields hgroup hkey, ← hmembers]
      exact get?_toMembers_of_reads hentries
        (fun m hm entry hread => (hentry m hm entry hread).1) key
  · refine wellFormed_node.2 ⟨hwellAll, hwellAny, hfields, hgroup, fun entry hmem => ?_⟩
    obtain ⟨m, hm, hread⟩ := Pairing.exists_of_mem_right hentries hmem
    exact (hentry m hm entry hread).2

theorem pairs_comparisonsOf (entries : List (String × Json)) :
    pairs (comparisonsOf entries) = entries := by
  rw [pairs, comparisonsOf, List.map_map]
  exact List.map_id entries

theorem entryToJson_comparisonsOf {entries : Dict Json} (h : entries.Sorted) :
    entryToJson (.comparisons (comparisonsOf entries)) = .obj entries := by
  have hentries : Dict.ofEntries (pairs (comparisonsOf entries)) = entries := by
    rw [pairs_comparisonsOf, Dict.ofEntries_of_sorted h]
  rw [entryToJson]
  exact congrArg _ hentries

theorem recognisable_comparisonsOf {entries : Dict Json} (hsorted : entries.Sorted)
    (hholds : holdsComparisons entries = true) : Recognisable (comparisonsOf entries) := by
  rw [← pairs_comparisonsOf entries] at hsorted hholds
  refine ⟨?_, holdsComparisons_pairs.1 hholds⟩
  rw [← keys_pairs]
  exact hsorted

theorem isKnown_eq_false_of_mem {entries : List (String × Json)}
    (h : ¬holdsComparisons entries = true) {key : String} (hkey : key ∈ Dict.keys entries) :
    Operator.isKnown key = false := by
  obtain ⟨m, hm, rfl⟩ := List.mem_map.1 hkey
  rw [← Bool.not_eq_true]
  intro hknown
  exact h (holdsComparisons_iff.2 (Or.inl ⟨m, hm, hknown⟩))

mutual

theorem toJson_of_ofJson : ∀ {v : Json}, v.Canonical → ∀ {f : Filter}, ofJson v = .ok f →
    f.toJson = trimmed v ∧ f.WellFormed
  | .obj members, hv, f, h => by
    obtain ⟨hsorted, hmembers⟩ := hv
    obtain ⟨heq, hwell⟩ := members_of_restores hsorted (forall_restores members hmembers) h
    rw [toJson_eq_obj, heq, trimmed]
    exact ⟨rfl, hwell⟩

theorem forall_restores : ∀ members : List (String × Json), Json.CanonicalMembers members →
    ∀ m ∈ members, Restores m
  | (key, value) :: rest, h, m, hm => by
    obtain ⟨hvalue, hrest⟩ := h
    cases hm with
    | head => exact restores key value hvalue
    | tail _ hm => exact forall_restores rest hrest m hm

theorem restores (key : String) : ∀ value : Json, value.Canonical → Restores (key, value)
  | .arr items, h => by
    refine ⟨fun fs hkey hread => ?_, fun e _ hread => ?_⟩
    · obtain ⟨heq, hwell⟩ := toItems_of_ofItems items h hread
      refine ⟨?_, hwell⟩
      rw [get?_groupEntry, heq, trimmedValue, if_pos hkey]
      cases items <;> simp [trimmedItems]
    · cases hread
  | .obj entries, h => by
    refine ⟨fun fs _ hread => ?_, fun e hkey hread => ?_⟩
    · cases hread
    · obtain ⟨hsorted, hentries⟩ := h
      obtain ⟨_, heq, hread⟩ := entryOf_eq_ok.1 hread
      cases heq
      rw [trimmedValue]
      split at hread
      · next hholds =>
        subst hread
        rw [if_pos (Or.inr (isComparisons_iff.2 hholds))]
        exact ⟨congrArg _ (entryToJson_comparisonsOf hsorted).symm,
          recognisable_comparisonsOf hsorted hholds⟩
      · next hholds =>
        obtain ⟨f, hf, rfl⟩ := hread
        have hnot : ¬(isGroup key = true ∨ IsComparisons entries) := by
          rw [hkey]
          rintro (hgroup | hcomparisons)
          · cases hgroup
          · exact hholds (isComparisons_iff.1 hcomparisons)
        obtain ⟨heq, hwell⟩ := members_of_restores hsorted (forall_restores entries hentries) hf
        rw [if_neg hnot, entryToJson, toJson_eq_obj, heq]
        obtain ⟨-, hkeys⟩ := fields_of_ofMembers hsorted hf
        exact ⟨rfl, hwell, fun name hname => isKnown_eq_false_of_mem hholds (hkeys name hname).2⟩
  | .null, _ | .bool _, _ | .num _, _ | .str _, _ => by
    refine ⟨fun fs _ hread => ?_, fun e _ hread => ?_⟩
    · cases hread
    · cases hread

theorem toItems_of_ofItems : ∀ items : List Json, Json.CanonicalItems items → ∀ {fs : List Filter},
    ofItems items = .ok fs → toItems fs = trimmedItems items ∧ ∀ f ∈ fs, f.WellFormed
  | [], _, fs, h => by
    cases h
    exact ⟨rfl, by simp⟩
  | x :: xs, hitems, fs, h => by
    obtain ⟨hx, hxs⟩ := hitems
    rw [ofItems] at h
    obtain ⟨f, hf, h⟩ := Answer.bind_eq_ok.1 h
    obtain ⟨gs, hgs, h⟩ := Answer.bind_eq_ok.1 h
    cases h
    obtain ⟨heq, hwell⟩ := toJson_of_ofJson hx hf
    obtain ⟨heqs, hwells⟩ := toItems_of_ofItems xs hxs hgs
    refine ⟨?_, List.forall_mem_cons.2 ⟨hwell, hwells⟩⟩
    rw [toItems, trimmedItems, heq, heqs]

end

/-- **Exactly the filters of the grammar are read, and nothing of them is lost but groups that list
nothing.** All other values are refused for their form; a filter that was read is written as the
value it was read from, without its empty groups, and is read back from there as it was. -/
theorem ofJson_reads_grammar (v : Json) :
    ((∃ f, ofJson v = .ok f) ↔ IsFilter v) ∧
      (¬IsFilter v → ∃ fault, ofJson v = .error (.invalidFilter fault)) ∧
        (v.Canonical → ∀ f, ofJson v = .ok f → f.toJson = trimmed v ∧ ofJson f.toJson = .ok f) := by
  refine ⟨exists_ofJson_iff v, fun hnot => ?_, fun hv f hf => ?_⟩
  · cases h : ofJson v with
    | error e =>
      obtain ⟨fault, rfl⟩ := refuses_ofJson v e h
      exact ⟨fault, rfl⟩
    | ok f => exact absurd ((exists_ofJson_iff v).1 ⟨f, h⟩) hnot
  · obtain ⟨heq, hwell⟩ := toJson_of_ofJson hv hf
    exact ⟨heq, ofJson_toJson hwell⟩

/-- Empty groups of a filter and of the filter behind a relation, and one among comparisons. -/
def emptyGroups : Json :=
  .obj [("and", .arr []),
    ("author", .obj [("and", .arr [.obj [("or", .arr [])]]), ("or", .arr [])]),
    ("n", .obj [("EQ", .int 1), ("and", .arr [])])]

/-- Where a filter stands its empty groups are dropped; among comparisons one is a comparison. Put
under `and`, the whole is no filter: nothing lies there but an array. -/
theorem toJson_emptyGroups :
    (∃ f, ofJson emptyGroups = .ok f ∧ f.toJson = .obj
      [("author", .obj [("and", .arr [.obj []])]), ("n", .obj [("EQ", .int 1), ("and", .arr [])])] ∧
      ofJson f.toJson = .ok f) ∧ emptyGroups.Canonical ∧ IsFilter emptyGroups ∧
    ¬IsFilter (.obj [("and", emptyGroups)]) ∧
      ∃ fault, ofJson (.obj [("and", emptyGroups)]) = .error (.invalidFilter fault) := by
  have hcanonical : emptyGroups.Canonical := by
    have houter : ["and", "author", "n"].Pairwise (· < ·) := by decide
    have hauthor : ["and", "or"].Pairwise (· < ·) := by decide
    have hgroup : ["or"].Pairwise (· < ·) := by decide
    have hn : ["EQ", "and"].Pairwise (· < ·) := by decide
    simp only [emptyGroups, Json.Canonical, Json.CanonicalMembers, Json.CanonicalItems, and_true,
      true_and]
    exact ⟨houter, ⟨hauthor, hgroup⟩, hn⟩
  obtain ⟨f, hread⟩ : ∃ f, ofJson emptyGroups = .ok f := ⟨_, rfl⟩
  obtain ⟨hreads, -, hwrites⟩ := ofJson_reads_grammar emptyGroups
  obtain ⟨hwritten, hback⟩ := hwrites hcanonical f hread
  have hnot : ¬IsFilter (.obj [("and", emptyGroups)]) := by
    rintro ⟨⟨hgroup, -⟩, -⟩
    cases hgroup
  refine ⟨⟨f, hread, hwritten, hback⟩, hcanonical, hreads.1 ⟨f, hread⟩, hnot, ?_⟩
  exact (ofJson_reads_grammar _).2.1 hnot

end EntityQuery.Filter
