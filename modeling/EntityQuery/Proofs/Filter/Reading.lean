import EntityQuery.Filter.Wire
import EntityQuery.Proofs.Answer
import EntityQuery.Proofs.Dict.Entries
import EntityQuery.Proofs.Pairing

/-!
# What a filter is read from

The members of an object are read one by one, each by its key: the keys `and` and `or` name groups,
all others are fields. An object is read when each of its members is (`exists_ofMembers_iff`), and
what is read is put together from what stands under the two keys of groups and from the entries of
the fields, in order (`ofMembers_eq_ok`).
-/

namespace EntityQuery.Filter

/-! ## Keys -/

/-- Whether a key names a group of filters. -/
def isGroup (key : String) : Bool := key == "and" || key == "or"

theorem isGroup_iff {key : String} : isGroup key = true ↔ key = "and" ∨ key = "or" := by
  simp [isGroup]

theorem isGroup_eq_false {key : String} : isGroup key = false ↔ key ≠ "and" ∧ key ≠ "or" := by
  simp [isGroup]

/-- The members that are entries of fields. -/
def entriesOf {α : Type} (members : List (String × α)) : List (String × α) :=
  members.filter fun m => !isGroup m.1

theorem mem_entriesOf {α : Type} {members : List (String × α)} {m : String × α} :
    m ∈ entriesOf members ↔ m ∈ members ∧ isGroup m.1 = false := by
  simp [entriesOf, List.mem_filter]

theorem get?_entriesOf {α : Type} (members : Dict α) (key : String) :
    Dict.get? (entriesOf members) key = if isGroup key then none else members.get? key := by
  rw [entriesOf, Dict.get?_filter fun key => !isGroup key]
  cases isGroup key <;> rfl

theorem entriesOf_eq_self {α : Type} {members : Dict α}
    (h : ∀ key ∈ members.keys, isGroup key = false) : entriesOf members = members := by
  refine List.filter_eq_self.2 fun m hm => ?_
  simp [h m.1 (List.mem_map_of_mem hm)]

theorem holdsComparisons_iff {members : List (String × Json)} :
    holdsComparisons members = true ↔
      (∃ m ∈ members, Operator.isKnown m.1 = true) ∨
        ∃ m ∈ members, m.2.isObject = false ∧ m.2.isArray = false := by
  simp [holdsComparisons, List.any_eq_true, not_or]

/-! ## Reading member by member -/

theorem ofItems_eq_mapM (items : List Json) : ofItems items = items.mapM ofJson := by
  induction items with
  | nil => rfl
  | cons x xs ih =>
    rw [ofItems, List.mapM_cons, ih]

theorem ofItems_eq_ok {items : List Json} {fs : List Filter} :
    ofItems items = .ok fs ↔ List.Forall₂ (fun x f => ofJson x = .ok f) items fs := by
  rw [ofItems_eq_mapM, Answer.mapM_eq_ok]

/-! ## Entries -/

theorem entryOf_eq_ok {field : String} {value : Json} {entry : FieldFilter} :
    entryOf field value = .ok entry ↔ ∃ members, value = .obj members ∧
      if holdsComparisons members then entry = .comparisons (comparisonsOf members)
      else ∃ f, ofMembers members = .ok f ∧ entry = .relation f := by
  cases value with
  | obj members =>
    rw [entryOf]
    simp only [Json.obj.injEq, exists_eq_left']
    split
    · exact ⟨fun h => (Except.ok.inj h).symm, fun h => congrArg _ h.symm⟩
    · rw [Answer.bind_eq_ok]
      simp [eq_comm]
  | _ => simp [entryOf]

/-! ## One member more -/

theorem ofMembers_and_eq_ok {value : Json} {rest : List (String × Json)} {f : Filter} :
    ofMembers (("and", value) :: rest) = .ok f ↔
      childrenOf "and" value = .ok f.all ∧
        ∃ g, ofMembers rest = .ok g ∧ g.any = f.any ∧ g.fields = f.fields := by
  rw [ofMembers, if_pos rfl, Answer.bind_eq_ok]
  constructor
  · rintro ⟨children, hchildren, h⟩
    obtain ⟨g, hg, h⟩ := Answer.bind_eq_ok.1 h
    cases h
    exact ⟨hchildren, g, hg, rfl, rfl⟩
  · rintro ⟨hchildren, g, hg, hany, hfields⟩
    refine ⟨f.all, hchildren, Answer.bind_eq_ok.2 ⟨g, hg, ?_⟩⟩
    rw [hany, hfields]
    cases f
    rfl

theorem ofMembers_or_eq_ok {value : Json} {rest : List (String × Json)} {f : Filter} :
    ofMembers (("or", value) :: rest) = .ok f ↔
      childrenOf "or" value = .ok f.any ∧
        ∃ g, ofMembers rest = .ok g ∧ g.all = f.all ∧ g.fields = f.fields := by
  rw [ofMembers, if_neg (by decide), if_pos rfl, Answer.bind_eq_ok]
  constructor
  · rintro ⟨children, hchildren, h⟩
    obtain ⟨g, hg, h⟩ := Answer.bind_eq_ok.1 h
    cases h
    exact ⟨hchildren, g, hg, rfl, rfl⟩
  · rintro ⟨hchildren, g, hg, hall, hfields⟩
    refine ⟨f.any, hchildren, Answer.bind_eq_ok.2 ⟨g, hg, ?_⟩⟩
    rw [hall, hfields]
    cases f
    rfl

theorem ofMembers_entry_eq_ok {key : String} (hkey : isGroup key = false) {value : Json}
    {rest : List (String × Json)} {f : Filter} :
    ofMembers ((key, value) :: rest) = .ok f ↔
      ∃ entry g, entryOf key value = .ok entry ∧ ofMembers rest = .ok g ∧
        f = node g.all g.any ((key, entry) :: g.fields) := by
  obtain ⟨hand, hor⟩ := isGroup_eq_false.1 hkey
  rw [ofMembers, if_neg hand, if_neg hor, Answer.bind_eq_ok]
  constructor
  · rintro ⟨entry, hentry, h⟩
    obtain ⟨g, hg, h⟩ := Answer.bind_eq_ok.1 h
    cases h
    exact ⟨entry, g, hentry, hg, rfl⟩
  · rintro ⟨entry, g, hentry, hg, rfl⟩
    exact ⟨entry, hentry, Answer.bind_eq_ok.2 ⟨g, hg, rfl⟩⟩

/-! ## All members -/

/-- What is read of the group under a key: nothing when there is no such key. -/
def ReadsGroup (members : Dict Json) (key : String) (fs : List Filter) : Prop :=
  match members.get? key with
  | none => fs = []
  | some value => childrenOf key value = .ok fs

theorem readsGroup_cons {k key : String} {value : Json} {members : Dict Json}
    {fs : List Filter} : ReadsGroup ((k, value) :: members) key fs ↔
      if key = k then childrenOf key value = .ok fs else ReadsGroup members key fs := by
  by_cases h : key = k
  · simp [ReadsGroup, Dict.get?_cons, h]
  · simp [ReadsGroup, Dict.get?_cons, h]

theorem readsGroup_of_not_mem {key : String} {members : Dict Json} {fs : List Filter}
    (h : key ∉ members.keys) : ReadsGroup members key fs ↔ fs = [] := by
  rw [ReadsGroup, Dict.get?_eq_none h]

/-- An entry read from a member: of the same name, and from its value. -/
def ReadsEntry (m : String × Json) (entry : String × FieldFilter) : Prop :=
  m.1 = entry.1 ∧ entryOf m.1 m.2 = .ok entry.2

/-- Members in key order are read as a filter when its two groups and its entries are read from
them. -/
theorem ofMembers_eq_ok {members : Dict Json} (hsorted : members.Sorted) {f : Filter} :
    ofMembers members = .ok f ↔
      ReadsGroup members "and" f.all ∧ ReadsGroup members "or" f.any ∧
        List.Forall₂ ReadsEntry (entriesOf members) f.fields := by
  -- `f` varies: what is read of the later members lacks the group that is read here
  induction members generalizing f with
  | nil =>
    obtain ⟨all, any, fields⟩ := f
    simp [ofMembers, ReadsGroup, entriesOf, Filter.all, Filter.any, Filter.fields, empty, eq_comm]
  | cons m members ih =>
    obtain ⟨key, value⟩ := m
    have ⟨hlater, hrest⟩ := Dict.sorted_cons.1 hsorted
    -- a key that stands here is under none of the later members
    have hnot : key ∉ Dict.keys members := fun hmem => String.lt_irrefl _ (hlater key hmem)
    rw [readsGroup_cons, readsGroup_cons]
    cases hkey : isGroup key with
    | true =>
      have hentries : entriesOf ((key, value) :: members) = entriesOf members := by
        simp [entriesOf, hkey]
      rw [hentries]
      rcases isGroup_iff.1 hkey with rfl | rfl
      · rw [ofMembers_and_eq_ok, if_pos rfl, if_neg (by decide)]
        constructor
        · rintro ⟨hall, g, hg, hany, hfields⟩
          obtain ⟨-, hreads⟩ := (ih hrest).1 hg
          rw [hany, hfields] at hreads
          exact ⟨hall, hreads⟩
        · rintro ⟨hall, hany, hfields⟩
          refine ⟨hall, node [] f.any f.fields, (ih hrest).2 ⟨?_, hany, hfields⟩, rfl, rfl⟩
          exact (readsGroup_of_not_mem hnot).2 rfl
      · rw [ofMembers_or_eq_ok, if_pos rfl, if_neg (by decide)]
        constructor
        · rintro ⟨hany, g, hg, hall, hfields⟩
          obtain ⟨hreads, -, hentries⟩ := (ih hrest).1 hg
          rw [hall] at hreads
          rw [hfields] at hentries
          exact ⟨hreads, hany, hentries⟩
        · rintro ⟨hall, hany, hfields⟩
          refine ⟨hany, node f.all [] f.fields, (ih hrest).2 ⟨hall, ?_, hfields⟩, rfl, rfl⟩
          exact (readsGroup_of_not_mem hnot).2 rfl
    | false =>
      have hentries : entriesOf ((key, value) :: members) = (key, value) :: entriesOf members := by
        simp [entriesOf, hkey]
      obtain ⟨hand, hor⟩ := isGroup_eq_false.1 hkey
      rw [hentries, ofMembers_entry_eq_ok hkey, if_neg (Ne.symm hand), if_neg (Ne.symm hor),
        List.forall₂_cons_left_iff]
      constructor
      · rintro ⟨entry, g, hentry, hg, rfl⟩
        obtain ⟨hall, hany, hfields⟩ := (ih hrest).1 hg
        exact ⟨hall, hany, (key, entry), g.fields, ⟨rfl, hentry⟩, hfields, rfl⟩
      · rintro ⟨hall, hany, ⟨name, entry⟩, rest, ⟨rfl, hentry⟩, hfields, heq⟩
        refine ⟨entry, node f.all f.any rest, hentry, (ih hrest).2 ⟨hall, hany, hfields⟩, ?_⟩
        obtain ⟨all, any, fields⟩ := f
        exact congrArg _ heq

/-- The fields that are read are in key order, and no group is among them. -/
theorem fields_of_ofMembers {members : Dict Json} (hsorted : members.Sorted) {f : Filter}
    (h : ofMembers members = .ok f) :
    Dict.Sorted f.fields ∧
      ∀ key ∈ Dict.keys f.fields, isGroup key = false ∧ key ∈ members.keys := by
  obtain ⟨-, -, hentries⟩ := (ofMembers_eq_ok hsorted).1 h
  have hkeys : (entriesOf members).map Prod.fst = f.fields.map Prod.fst :=
    Pairing.map_eq_map hentries fun _ _ hentry => hentry.1
  constructor
  · rw [Dict.Sorted, Dict.keys, ← hkeys]
    exact Dict.sorted_filter hsorted _
  · intro key hkey
    rw [Dict.keys, ← hkeys] at hkey
    obtain ⟨m, hm, rfl⟩ := List.mem_map.1 hkey
    obtain ⟨hmem, hgroup⟩ := mem_entriesOf.1 hm
    exact ⟨hgroup, List.mem_map_of_mem hmem⟩

/-- Whether a member can be read by its key. -/
def Readable (m : String × Json) : Prop :=
  if isGroup m.1 then ∃ fs, childrenOf m.1 m.2 = .ok fs else ∃ entry, entryOf m.1 m.2 = .ok entry

/-- An object is read when each of its members is. -/
theorem exists_ofMembers_iff {members : List (String × Json)} :
    (∃ f, ofMembers members = .ok f) ↔ ∀ m ∈ members, Readable m := by
  induction members with
  | nil => simp [ofMembers]
  | cons m members ih =>
    obtain ⟨key, value⟩ := m
    rw [List.forall_mem_cons, ← ih, Readable]
    cases hkey : isGroup key with
    | true =>
      rw [if_pos rfl]
      rcases isGroup_iff.1 hkey with rfl | rfl
      · simp only [ofMembers_and_eq_ok]
        constructor
        · rintro ⟨f, hall, g, hg, -⟩
          exact ⟨⟨f.all, hall⟩, g, hg⟩
        · rintro ⟨⟨all, hall⟩, g, hg⟩
          exact ⟨node all g.any g.fields, hall, g, hg, rfl, rfl⟩
      · simp only [ofMembers_or_eq_ok]
        constructor
        · rintro ⟨f, hany, g, hg, -⟩
          exact ⟨⟨f.any, hany⟩, g, hg⟩
        · rintro ⟨⟨any, hany⟩, g, hg⟩
          exact ⟨node g.all any g.fields, hany, g, hg, rfl, rfl⟩
    | false =>
      rw [if_neg Bool.false_ne_true]
      simp only [ofMembers_entry_eq_ok hkey]
      constructor
      · rintro ⟨f, entry, g, hentry, hg, -⟩
        exact ⟨⟨entry, hentry⟩, g, hg⟩
      · rintro ⟨⟨entry, hentry⟩, g, hg⟩
        exact ⟨_, entry, g, hentry, hg, rfl⟩

end EntityQuery.Filter
