import EntityQuery.Proofs.Dict.Entries
import EntityQuery.Proofs.Relation.Linking
import EntityQuery.Proofs.Relation.Sides
import EntityQuery.Schema.Wire

/-!
# What a link restricts

The condition of a link has one equality for every column of the key that it compares, so it leaves
out rows unless that key has no columns (`link_restricts`). Nothing keeps a description of entities
from naming no primary keys, and a key without columns has all its values: the link then asks for
nothing, and every row of the target is taken for a related one (`link_keyless`). The disjunction
over several sources restricts the rows exactly when the link of each source does.
-/

namespace EntityQuery

/-! ## Conjunctions of equalities -/

namespace Relation

theorem leaves_equalities (columns : List Column) (values : List Json) :
    (equalities columns values).leaves =
      List.zipWith (fun column value => ⟨column, .eq, value⟩) columns values := by
  rw [equalities, Predicate.leaves_allOf]
  induction columns generalizing values with
  | nil => rfl
  | cons column columns ih =>
    cases values with
    | nil => rfl
    | cons value values =>
      rw [List.zipWith_cons_cons, List.flatMap_cons, ih, List.zipWith_cons_cons]
      rfl

theorem op_of_mem_leaves {columns : List Column} {values : List Json} {leaf : Predicate.Leaf}
    (h : leaf ∈ (equalities columns values).leaves) : leaf.op = .eq := by
  rw [leaves_equalities] at h
  obtain ⟨i, hi, rfl⟩ := List.mem_iff_getElem.1 h
  rw [List.getElem_zipWith]

theorem equalities_eq_always_iff {columns : List Column} {values : List Json}
    (h : columns.length = values.length) : equalities columns values = .always ↔ columns = [] := by
  constructor
  · intro halways
    have hleaves := leaves_equalities columns values
    rw [halways] at hleaves
    have hlength := congrArg List.length hleaves
    rw [List.length_zipWith, ← h, Nat.min_self] at hlength
    exact List.length_eq_zero_iff.1 hlength.symm
  · rintro rfl
    rfl

namespace Compares

variable {schema : Schema} {entity : String} {source : Json} {relation : Relation}
  {keys : List String} {columns : List Column} {values : List Json}

theorem length_leaves (h : Compares schema entity source relation keys columns values) :
    (equalities columns values).leaves.length = keys.length := by
  rw [leaves_equalities, List.length_zipWith, h.length_columns, h.length_values, Nat.min_self]

theorem eq_always_iff (h : Compares schema entity source relation keys columns values) :
    equalities columns values = .always ↔ keys = [] := by
  have hlength : columns.length = values.length := h.length_columns.trans h.length_values.symm
  rw [equalities_eq_always_iff hlength, ← List.length_eq_zero_iff, h.length_columns,
    List.length_eq_zero_iff]

theorem exists_entity? (h : Compares schema entity source relation keys columns values) :
    ∃ name found, schema.entity? name = some found ∧ found.primaryKeys = keys := by
  have hdeclared : ∃ name, schema.primaryKeys name = .ok keys := by
    cases h with
    | target _ declared => exact ⟨_, declared⟩
    | unresolved _ _ _ _ _ own => exact ⟨_, (sourceKey_eq_ok.1 own).1⟩
    | fields _ _ _ own => exact ⟨_, (sourceKey_eq_ok.1 own).1⟩
    | through _ own => exact ⟨_, (sourceKey_eq_ok.1 own).1⟩
  obtain ⟨name, hkeys⟩ := hdeclared
  rw [Schema.primaryKeys] at hkeys
  cases hfound : schema.entity? name with
  | none =>
    rw [hfound] at hkeys
    cases hkeys
  | some found =>
    rw [hfound] at hkeys
    cases hkeys
    exact ⟨name, found, hfound, rfl⟩

end Compares

end Relation

/-! ## Disjunctions -/

namespace Predicate

theorem eq_always_of_same {p : Predicate} (h : p.same always = true) : p = always := by
  cases p with
  | always => rfl
  | all => cases h
  | any => cases h
  | compare => cases h

end Predicate

namespace Schema

variable {schema : Schema} {entity : String}

/-- The conditions that are kept are those of the sources, and none of these is lost: an equal one
is kept in its place. -/
theorem linkDistinct_eq_ok {found : Relation} {sources : List Json}
    {linked conditions : List Predicate}
    (h : linkDistinct schema entity found sources linked = .ok conditions) :
    (∀ p ∈ linked, p ∈ conditions) ∧
    (∀ p ∈ conditions, p ∈ linked ∨ ∃ source ∈ sources, found.link schema entity source = .ok p) ∧
    ∀ source ∈ sources, ∃ p, found.link schema entity source = .ok p ∧
      ∃ q ∈ conditions, q = p ∨ q.same p = true := by
  induction sources generalizing linked with
  | nil =>
    rw [linkDistinct] at h
    cases h
    exact ⟨fun p hp => hp, fun p hp => .inl hp, by simp⟩
  | cons source sources ih =>
    rw [linkDistinct] at h
    obtain ⟨condition, hcondition, h⟩ := Answer.bind_eq_ok.1 h
    obtain ⟨hkept, horigin, hrest⟩ := ih h
    -- the condition of the first source is kept, unless an equal one is there already
    have hsub : ∀ p ∈ linked, p ∈ conditions := by
      intro p hp
      apply hkept
      split
      · exact hp
      · exact List.mem_append_left _ hp
    have hfirst : ∃ q ∈ conditions, q = condition ∨ q.same condition = true := by
      by_cases hany : linked.any (·.same condition) = true
      · obtain ⟨q, hq, hsame⟩ := List.any_eq_true.1 hany
        exact ⟨q, hsub q hq, .inr hsame⟩
      · refine ⟨condition, hkept condition ?_, .inl rfl⟩
        rw [if_neg hany]
        exact List.mem_append_right _ List.mem_cons_self
    refine ⟨hsub, fun p hp => ?_, ?_⟩
    · rcases horigin p hp with hlinked | ⟨later, hlater, hlink⟩
      · split at hlinked
        · exact .inl hlinked
        · rcases List.mem_append.1 hlinked with hlinked | hnew
          · exact .inl hlinked
          · rw [List.mem_singleton.1 hnew]
            exact .inr ⟨source, List.mem_cons_self, hcondition⟩
      · exact .inr ⟨later, List.mem_cons_of_mem _ hlater, hlink⟩
    · intro other hother
      rcases List.mem_cons.1 hother with rfl | hother
      · exact ⟨condition, hcondition, hfirst⟩
      · exact hrest other hother

theorem relation_eq_ok {relation : String} {found : Relation} :
    schema.relation entity relation = .ok found ↔
      schema.relation? entity relation = some found := by
  rw [Schema.relation]
  cases schema.relation? entity relation <;> simp

theorem link_eq_ok {source : Json} {relation : String} {p : Predicate} :
    schema.link entity source relation = .ok p ↔
      ∃ found, schema.relation? entity relation = some found ∧
        found.link schema entity source = .ok p := by
  rw [Schema.link, Answer.bind_eq_ok]
  simp only [relation_eq_ok]

theorem relation_eq_error {relation : String} (h : schema.relation? entity relation = none) :
    schema.relation entity relation = .error (.relationNotFound entity relation) := by
  rw [Schema.relation, h]

theorem link_of_declared {relation : String} {found : Relation}
    (h : schema.relation? entity relation = some found) (source : Json) :
    schema.link entity source relation = found.link schema entity source := by
  rw [Schema.link, relation_eq_ok.2 h, Answer.ok_bind]

/-- The condition for several sources is the disjunction of those kept, and there is one. -/
theorem linkAny_eq_some {sources : List Json} {relation : String} {p : Predicate}
    (h : schema.linkAny entity sources relation = .ok (some p)) :
    ∃ found conditions, schema.relation? entity relation = some found ∧
      linkDistinct schema entity found sources [] = .ok conditions ∧ conditions ≠ [] ∧
      p = .anyOf conditions := by
  rw [linkAny] at h
  obtain ⟨found, hfound, h⟩ := Answer.bind_eq_ok.1 h
  split at h
  · cases h
  next hsources =>
  obtain ⟨conditions, hdistinct, h⟩ := Answer.bind_eq_ok.1 h
  cases h
  refine ⟨found, conditions, relation_eq_ok.1 hfound, hdistinct, ?_, rfl⟩
  obtain ⟨source, hsource⟩ := List.exists_mem_of_ne_nil sources
    fun hnil => hsources (by rw [hnil]; rfl)
  obtain ⟨_, _, q, hq, _⟩ := (linkDistinct_eq_ok hdistinct).2.2 source hsource
  exact List.ne_nil_of_mem hq

theorem linkAny_eq_always_iff {sources : List Json} {relation : String} {p : Predicate}
    (h : schema.linkAny entity sources relation = .ok (some p)) :
    p = .always ↔ ∃ source ∈ sources, schema.link entity source relation = .ok .always := by
  obtain ⟨found, conditions, hfound, hdistinct, hne, rfl⟩ := linkAny_eq_some h
  obtain ⟨-, horigin, hrest⟩ := linkDistinct_eq_ok hdistinct
  rw [Predicate.anyOf_eq_always_iff, or_iff_right hne]
  constructor
  · intro hmem
    rcases horigin _ hmem with hnil | ⟨source, hsource, hlink⟩
    · cases hnil
    · exact ⟨source, hsource, link_eq_ok.2 ⟨found, hfound, hlink⟩⟩
  · rintro ⟨source, hsource, hlink⟩
    obtain ⟨other, hother, hlink⟩ := link_eq_ok.1 hlink
    rw [hfound] at hother
    cases hother
    obtain ⟨p, hp, q, hq, hsame⟩ := hrest source hsource
    rw [hlink] at hp
    cases hp
    rcases hsame with rfl | hsame
    · exact hq
    · rw [Predicate.eq_always_of_same hsame] at hq
      exact hq

/-! ## Links -/

/-- **A link restricts the rows by every column of the key that it compares.** Its condition has one
equality for each of them, and is no restriction exactly when the key has no columns; the condition
for several sources is none exactly when that of one of them is. So where every entity type has a
primary key, no link takes all rows of its target for related ones. -/
theorem link_restricts (schema : Schema) (entity relation : String) :
    (∀ source p, schema.link entity source relation = .ok p →
      ∃ found keys columns values, schema.relation? entity relation = some found ∧
        found.Compares schema entity source keys columns values ∧
        p = Relation.equalities columns values ∧ p.leaves.length = keys.length ∧
        (∀ leaf ∈ p.leaves, leaf.op = .eq) ∧ (p = .always ↔ keys = [])) ∧
    (∀ sources p, schema.linkAny entity sources relation = .ok (some p) →
      (p = .always ↔ ∃ source ∈ sources, schema.link entity source relation = .ok .always)) ∧
    ((∀ name found, schema.entity? name = some found → found.primaryKeys ≠ []) →
      (∀ source, schema.link entity source relation ≠ .ok .always) ∧
      ∀ sources, schema.linkAny entity sources relation ≠ .ok (some .always)) := by
  have hlink : ∀ source p, schema.link entity source relation = .ok p →
      ∃ found keys columns values, schema.relation? entity relation = some found ∧
        found.Compares schema entity source keys columns values ∧
        p = Relation.equalities columns values := by
    intro source p hp
    obtain ⟨found, hfound, hp⟩ := link_eq_ok.1 hp
    obtain ⟨keys, columns, values, hcompares, heq⟩ := Relation.compares_of_link hp
    exact ⟨found, keys, columns, values, hfound, hcompares, heq⟩
  have hkeyed : (∀ name found, schema.entity? name = some found → found.primaryKeys ≠ []) →
      ∀ source, schema.link entity source relation ≠ .ok .always := by
    intro hkeys source halways
    obtain ⟨found, keys, columns, values, -, hcompares, heq⟩ := hlink source _ halways
    obtain ⟨name, owner, howner, hown⟩ := hcompares.exists_entity?
    exact hkeys name owner howner (hown.trans (hcompares.eq_always_iff.1 heq.symm))
  refine ⟨fun source p hp => ?_, fun sources p hp => linkAny_eq_always_iff hp, fun hkeys =>
    ⟨hkeyed hkeys, fun sources halways => ?_⟩⟩
  · obtain ⟨found, keys, columns, values, hfound, hcompares, rfl⟩ := hlink source p hp
    refine ⟨found, keys, columns, values, hfound, hcompares, rfl, hcompares.length_leaves, ?_,
      hcompares.eq_always_iff⟩
    exact fun leaf hleaf => Relation.op_of_mem_leaves hleaf
  · obtain ⟨source, -, hsource⟩ := (linkAny_eq_always_iff halways).1 rfl
    exact hkeyed hkeys source hsource

/-- The lines of an order are never all lines there are. -/
theorem link_shops_restricts : (∃ p, shops.link "Order" seventhOrder "lines" = .ok p) ∧
    (∀ source, shops.link "Order" source "lines" ≠ .ok .always) ∧
    ∀ sources, shops.linkAny "Order" sources "lines" ≠ .ok (some .always) := by
  have hsorted : Dict.Sorted shops := by
    unfold Dict.Sorted
    decide
  have hall : ∀ entry ∈ shops, entry.2.primaryKeys ≠ [] := by decide
  have hkeys : ∀ name found, shops.entity? name = some found → found.primaryKeys ≠ [] :=
    fun name found hfound => hall (name, found) ((Dict.mem_iff_get? hsorted).2 hfound)
  exact ⟨⟨_, rfl⟩, (link_restricts shops "Order" "lines").2.2 hkeys⟩

/-! ## Keys without columns -/

/-- Posts whose authors have no primary key. -/
def keyless : List Entity :=
  [{ name := "Post", primaryKeys := ["id"],
     relations := [{ name := "author", kind := .manyToOne, target := "User" }] },
   { name := "User", primaryKeys := [] }]

/-- Their description, each record written as the list of its fields. -/
def keylessText : String :=
  "[[\"Post\",null,[\"id\"],[[\"author\",\"many-to-one\",\"User\"]]],[\"User\",null,[]]]"

/-- A post that has its author loaded. -/
def postOfAnn : Json := .obj [("author", .obj [("name", .str "ann")]), ("id", .int 1)]

/-- Every user counts as the author of the post. -/
theorem link_keyless : ofText keylessText = .ok (ofEntities keyless) ∧
    (ofEntities keyless).link "Post" postOfAnn "author" = .ok .always ∧
    (ofEntities keyless).linkAny "Post" [postOfAnn] "author" = .ok (some .always) := by
  have hread : entitiesOfText? keylessText = some keyless := by decide +kernel
  refine ⟨?_, rfl, rfl⟩
  rw [ofText, hread]

end Schema

end EntityQuery
