import EntityQuery.Proofs.Json.Printing
import EntityQuery.Proofs.Json.Shapes

/-!
# Documents that stand for values

A document that writes no key of an object twice is read by the shapes as the value it denotes
(`renders_denotes`): its members are those of the value, in another order, and each stands for its
own.
-/

namespace EntityQuery

namespace Document

mutual

/-- No object inside the document writes a key twice. -/
def Distinct : Document → Prop
  | arr items => DistinctItems items
  | obj members => (members.map Prod.fst).Nodup ∧ DistinctMembers members
  | _ => True
termination_by structural document => document

/-- No object inside the items writes a key twice. -/
def DistinctItems : List Document → Prop
  | [] => True
  | x :: xs => Distinct x ∧ DistinctItems xs
termination_by structural items => items

/-- No object inside the members writes a key twice. -/
def DistinctMembers : List (Option String × Document) → Prop
  | [] => True
  | (_, x) :: ms => Distinct x ∧ DistinctMembers ms
termination_by structural members => members

end

/-- A document and its value are of one kind. -/
inductive Writes : Document → Json → Prop
  | null : Writes null .null
  | bool (b : Bool) : Writes (bool b) (.bool b)
  | num (n : Number) : Writes (num (some n)) (.num n)
  | str (s : String) : Writes (str (some s)) (.str s)
  | arr {ds : List Document} {vs : List Json} (h : valueItems? ds = some vs) :
    Writes (arr ds) (.arr vs)
  | obj {ms : List (Option String × Document)} {ns : List (String × Json)}
    (h : valueMembers? ms = some ns) : Writes (obj ms) (.obj (Dict.ofEntries ns))

theorem writes_of_value {d : Document} {v : Json} (h : d.value? = some v) : Writes d v := by
  cases d with
  | null =>
    cases h
    exact .null
  | bool b =>
    cases h
    exact .bool b
  | num n =>
    obtain ⟨m, rfl, rfl⟩ := Option.map_eq_some_iff.1 h
    exact .num m
  | str s =>
    obtain ⟨t, rfl, rfl⟩ := Option.map_eq_some_iff.1 h
    exact .str t
  | arr ds =>
    obtain ⟨vs, hvs, rfl⟩ := Option.map_eq_some_iff.1 h
    exact .arr hvs
  | obj ms =>
    obtain ⟨ns, hns, rfl⟩ := Option.map_eq_some_iff.1 h
    exact .obj hns

/-- The document denotes the value and writes no key twice. -/
structure Denotes (d : Document) (v : Json) : Prop where
  distinct : d.Distinct
  value : d.value? = some v

/-- The member as it is written stands for the member of a value. -/
structure DenotesMember (entry : String × Document) (m : String × Json) : Prop where
  key : entry.1 = m.1
  value : entry.2.Denotes m.2

theorem forall₂_denotes : ∀ {ds : List Document} {vs : List Json},
    DistinctItems ds → valueItems? ds = some vs → List.Forall₂ Denotes ds vs := by
  intro ds
  induction ds with
  | nil =>
    intro vs _ hvalue
    cases hvalue
    exact .nil
  | cons d ds ih =>
    intro vs hdistinct hvalue
    obtain ⟨v, hv, hvalue⟩ := Option.bind_eq_some_iff.1 hvalue
    obtain ⟨vs, hvs, hvalue⟩ := Option.bind_eq_some_iff.1 hvalue
    cases hvalue
    exact .cons ⟨hdistinct.1, hv⟩ (ih hdistinct.2 hvs)

/-- The members of a document are read with the keys of its value. -/
theorem members_of_value {ms : List (Option String × Document)} :
    ∀ {ns : List (String × Json)}, DistinctMembers ms → valueMembers? ms = some ns →
      ∃ entries, members? ms = some entries ∧ entries.map Prod.fst = ns.map Prod.fst ∧
        ms.map Prod.fst = (ns.map Prod.fst).map some ∧ List.Forall₂ DenotesMember entries ns := by
  induction ms with
  | nil =>
    intro ns _ hvalue
    cases hvalue
    exact ⟨[], rfl, rfl, rfl, .nil⟩
  | cons m ms ih =>
    obtain ⟨key, d⟩ := m
    intro ns hdistinct hvalue
    obtain ⟨k, hk, hvalue⟩ := Option.bind_eq_some_iff.1 hvalue
    obtain ⟨v, hv, hvalue⟩ := Option.bind_eq_some_iff.1 hvalue
    obtain ⟨rest, hrest, hvalue⟩ := Option.bind_eq_some_iff.1 hvalue
    cases hvalue
    obtain ⟨entries, hentries, hkeys, hwritten, hdenotes⟩ := ih hdistinct.2 hrest
    have hk' : key = some k := hk
    subst hk'
    refine ⟨(k, d) :: entries, ?_, ?_, ?_, .cons ⟨rfl, hdistinct.1, hv⟩ hdenotes⟩
    · rw [members?, hentries]
      rfl
    · simp [hkeys]
    · simp [hwritten]

theorem get?_of_forall₂ {entries : List (String × Document)} {ns : List (String × Json)}
    (h : List.Forall₂ DenotesMember entries ns) {name : String} {v : Json}
    (hget : Dict.get? ns name = some v) :
    ∃ d, entries.lookup name = some d ∧ d.Denotes v := by
  induction h with
  | nil => cases hget
  | @cons entry n entries ns hfirst _ ih =>
    obtain ⟨k, d⟩ := entry
    obtain ⟨l, w⟩ := n
    obtain ⟨rfl, hd⟩ := hfirst
    rw [Dict.get?_cons] at hget
    have hlookup := Dict.get?_cons k name d entries
    split at hget
    · next heq =>
      cases hget
      exact ⟨d, hlookup.trans (if_pos heq), hd⟩
    · next hne =>
      obtain ⟨e, he, hdenotes⟩ := ih hget
      exact ⟨e, hlookup.trans ((if_neg hne).trans he), hdenotes⟩

/-- Under pairwise different keys every name is written at most once. -/
theorem fieldsOfMembers?_of_nodup {entries : List (String × Document)}
    (h : (entries.map Prod.fst).Nodup) (names : List String) :
    fieldsOfMembers? names entries = some (names.map fun name => entries.lookup name) := by
  have honce : ∀ name, (entries.filter (·.1 == name)).length ≤ 1 := by
    intro name
    have hcount := List.nodup_iff_count_le_one.1 h name
    rwa [List.count, List.countP_map, List.countP_eq_length_filter] at hcount
  rw [fieldsOfMembers?, if_pos]
  exact List.all_eq_true.2 fun name _ => decide_eq_true (honce name)

theorem Denotes.writes {d : Document} {v : Json} (h : d.Denotes v) : Writes d v :=
  writes_of_value h.value

/-- A document that denotes an object has its members, in some order. -/
theorem Denotes.exists_members {d : Document} {ms : Dict Json} (h : d.Denotes (.obj ms)) :
    ∃ members entries ns, d = obj members ∧ members? members = some entries ∧
      (entries.map Prod.fst).Nodup ∧ List.Forall₂ DenotesMember entries ns ∧
        (ns.map Prod.fst).Nodup ∧ ms = Dict.ofEntries ns := by
  have hdistinct := h.distinct
  cases h.writes with
  | @obj members ns hns =>
    obtain ⟨entries, hentries, hkeys, hwritten, hdenotes⟩ := members_of_value hdistinct.2 hns
    have hnodup : (ns.map Prod.fst).Nodup := List.Nodup.of_map some (hwritten ▸ hdistinct.1)
    exact ⟨members, entries, ns, rfl, hentries, hkeys ▸ hnodup, hdenotes, hnodup, rfl⟩

/-- **Documents without repeated keys are read as the values they denote.** -/
theorem renders_denotes : Renders Denotes where
  isNull h := by cases h.writes <;> rfl
  text? h := by
    cases h.writes
    rfl
  bool? h := by
    cases h.writes
    rfl
  items? h := by
    have hdistinct := h.distinct
    cases h.writes with
    | arr hvs => exact ⟨_, rfl, forall₂_denotes hdistinct hvs⟩
  entries? h := by
    obtain ⟨members, entries, ns, rfl, hentries, -, hdenotes, hnodup, rfl⟩ := h.exists_members
    -- the value has its members in key order
    have hordered : Relation.Comp (List.Forall₂ DenotesMember) List.Perm entries
        (Dict.ofEntries ns) := ⟨ns, hdenotes, (Dict.perm_ofEntries hnodup).symm⟩
    rw [List.forall₂_comp_perm_eq_perm_comp_forall₂] at hordered
    obtain ⟨ordered, hperm, hordered⟩ := hordered
    exact ⟨entries, ordered, hentries, hperm, hordered.imp fun _ _ hm => ⟨hm.key, hm.value⟩⟩
  fields? h := by
    obtain ⟨members, entries, ns, rfl, hentries, hkeys, hdenotes, hnodup, rfl⟩ := h.exists_members
    refine ⟨fun name => entries.lookup name, fun names => ?_, fun hget => ?_⟩
    · exact (congrArg (· >>= fieldsOfMembers? names) hentries).trans
        (fieldsOfMembers?_of_nodup hkeys names)
    · rw [Dict.get?_ofEntries_of_nodup hnodup] at hget
      exact get?_of_forall₂ hdenotes hget

end Document

/-! ## Members in another order -/

namespace Json

/-- Written out as it is, in the order its members are given in, the one value denotes the other. -/
def Rearranges (x y : Json) : Prop := (Document.ofJson x).Denotes y

theorem rearranges_str (s : String) : Rearranges (str s) (str s) := ⟨trivial, rfl⟩

theorem rearranges_bool (b : Bool) : Rearranges (bool b) (bool b) := ⟨trivial, rfl⟩

theorem rearranges_ofText? (text : Option String) :
    Rearranges (ofText? text) (ofText? text) := by
  cases text with
  | none => exact ⟨trivial, rfl⟩
  | some s => exact rearranges_str s

theorem rearranges_arr {xs ys : List Json} (h : List.Forall₂ Rearranges xs ys) :
    Rearranges (arr xs) (arr ys) := by
  have hitems : Document.DistinctItems (Document.ofItems xs) ∧
      Document.valueItems? (Document.ofItems xs) = some ys := by
    induction h with
    | nil => exact ⟨trivial, rfl⟩
    | cons hx _ ih =>
      refine ⟨⟨hx.distinct, ih.1⟩, ?_⟩
      rw [Document.ofItems, Document.valueItems?, hx.value, ih.2]
      rfl
  exact ⟨hitems.1, congrArg (Option.map arr) hitems.2⟩

theorem rearranges_ofTexts (texts : List String) : Rearranges (ofTexts texts) (ofTexts texts) := by
  refine rearranges_arr (List.forall₂_map_left_iff.2 (List.forall₂_map_right_iff.2 ?_))
  exact List.forall₂_same.2 fun text _ => rearranges_str text

theorem map_fst_ofMembers (ms : List (String × Json)) :
    (Document.ofMembers ms).map Prod.fst = (ms.map Prod.fst).map some := by
  induction ms with
  | nil => rfl
  | cons m ms ih => exact congrArg (some m.1 :: ·) ih

theorem rearranges_obj {ms ns : List (String × Json)} (hkeys : (ms.map Prod.fst).Nodup)
    (h : List.Forall₂ (fun m n => m.1 = n.1 ∧ Rearranges m.2 n.2) ms ns) :
    Rearranges (obj ms) (ofMembers ns) := by
  have hmembers : Document.DistinctMembers (Document.ofMembers ms) ∧
      Document.valueMembers? (Document.ofMembers ms) = some ns := by
    clear hkeys
    induction h with
    | nil => exact ⟨trivial, rfl⟩
    | @cons m n ms ns hm _ ih =>
      obtain ⟨k, x⟩ := m
      obtain ⟨l, y⟩ := n
      obtain ⟨rfl, hx⟩ := hm
      refine ⟨⟨hx.distinct, ih.1⟩, ?_⟩
      rw [Document.ofMembers, Document.valueMembers?, hx.value, ih.2]
      rfl
  have hnodup : ((Document.ofMembers ms).map Prod.fst).Nodup := by
    rw [map_fst_ofMembers]
    exact hkeys.map fun _ _ => Option.some.inj
  exact ⟨⟨hnodup, hmembers.1⟩, congrArg (Option.map fun ns => obj (Dict.ofEntries ns)) hmembers.2⟩

end Json

end EntityQuery
