import EntityQuery.Proofs.Filter.Compiling
import EntityQuery.Proofs.Joins.Union

/-!
# The relations that a filter reaches

A filter reaches a relation where it has an entry of that name, at any depth of its lists, and the
entity type declares the relation; behind it, the filter of the entry goes on from the target. The
tree of a filter has exactly the paths that are reached so (`Filter.hasExactly_joins`,
`joins_reach_entries`). Which list an entry stands in, and in what order, leaves no trace in the
tree: filters that have the same entries in other groups (`Filter.Regroups`) have one tree.
-/

namespace EntityQuery.Filter

variable {schema : Schema} {entity : String} {f g : Filter} {name : String} {path : List String}
  {all any : List Filter} {fields : List (String × FieldFilter)}

/-! ## Entries at any depth of the lists -/

/-- An entry that stands in the filter itself or in one that its lists lead to, but not behind a
relation. -/
inductive HasEntry : Filter → String → FieldFilter → Prop
  | own {all any : List Filter} {fields : List (String × FieldFilter)} {name : String}
    {entry : FieldFilter} (mem : (name, entry) ∈ fields) :
    HasEntry (.node all any fields) name entry
  | inAll {all any : List Filter} {fields : List (String × FieldFilter)} {name : String}
    {entry : FieldFilter} {f : Filter} (mem : f ∈ all) (has : HasEntry f name entry) :
    HasEntry (.node all any fields) name entry
  | inAny {all any : List Filter} {fields : List (String × FieldFilter)} {name : String}
    {entry : FieldFilter} {f : Filter} (mem : f ∈ any) (has : HasEntry f name entry) :
    HasEntry (.node all any fields) name entry

theorem hasEntry_node {entry : FieldFilter} : HasEntry (.node all any fields) name entry ↔
    (name, entry) ∈ fields ∨ (∃ f ∈ all, f.HasEntry name entry) ∨
      ∃ f ∈ any, f.HasEntry name entry := by
  constructor
  · intro h
    cases h with
    | own mem => exact .inl mem
    | inAll mem has => exact .inr (.inl ⟨_, mem, has⟩)
    | inAny mem has => exact .inr (.inr ⟨_, mem, has⟩)
  · rintro (mem | ⟨f, mem, has⟩ | ⟨f, mem, has⟩)
    · exact .own mem
    · exact .inAll mem has
    · exact .inAny mem has

theorem hasEntry_single {entry other : FieldFilter} {field : String} :
    HasEntry (.node [] [] [(field, other)]) name entry ↔ name = field ∧ entry = other := by
  simp [hasEntry_node]

/-! ## Paths that are reached -/

/-- The paths of relations that a filter reaches, seen from an entity type. -/
inductive Reaches (schema : Schema) : Filter → String → List String → Prop
  /-- an entry is named after a relation, whatever it asks for -/
  | entry {f : Filter} {entity name : String} {entry : FieldFilter} {relation : Relation}
    (has : f.HasEntry name entry) (declared : schema.relation? entity name = some relation) :
    Reaches schema f entity [name]
  /-- the filter behind a relation goes on from its target -/
  | behind {f sub : Filter} {entity name : String} {relation : Relation} {rest : List String}
    (has : f.HasEntry name (.relation sub))
    (declared : schema.relation? entity name = some relation)
    (further : Reaches schema sub relation.target rest) : Reaches schema f entity (name :: rest)

theorem Reaches.ne_nil (h : f.Reaches schema entity path) : path ≠ [] := by
  cases h with
  | entry => exact List.cons_ne_nil _ _
  | behind => exact List.cons_ne_nil _ _

/-- What a filter reaches depends on its entries alone, and more entries reach more. -/
theorem Reaches.mono (h : f.Reaches schema entity path)
    (hsub : ∀ name entry, f.HasEntry name entry → g.HasEntry name entry) :
    g.Reaches schema entity path := by
  cases h with
  | entry has declared => exact .entry (hsub _ _ has) declared
  | behind has declared further => exact .behind (hsub _ _ has) declared further

/-- What a filter reaches is reached by one of its filters or by one of its entries. -/
theorem reaches_node : (node all any fields).Reaches schema entity path ↔
    (∃ f ∈ all, f.Reaches schema entity path) ∨ (∃ f ∈ any, f.Reaches schema entity path) ∨
      ∃ entry ∈ fields, (node [] [] [entry]).Reaches schema entity path := by
  constructor
  · -- the entry at which the path begins stands in one of the three places
    have hplace : ∀ {name entry}, (node all any fields).HasEntry name entry →
        (∀ h : Filter, h.HasEntry name entry → h.Reaches schema entity path) →
        (∃ f ∈ all, f.Reaches schema entity path) ∨ (∃ f ∈ any, f.Reaches schema entity path) ∨
          ∃ entry ∈ fields, (node [] [] [entry]).Reaches schema entity path := by
      intro name entry has hreach
      rcases hasEntry_node.1 has with mem | ⟨f, mem, has⟩ | ⟨f, mem, has⟩
      · exact .inr (.inr ⟨_, mem, hreach _ (hasEntry_single.2 ⟨rfl, rfl⟩)⟩)
      · exact .inl ⟨f, mem, hreach f has⟩
      · exact .inr (.inl ⟨f, mem, hreach f has⟩)
    intro h
    cases h with
    | entry has declared => exact hplace has fun h has => .entry has declared
    | behind has declared further => exact hplace has fun h has => .behind has declared further
  · rintro (⟨f, mem, h⟩ | ⟨f, mem, h⟩ | ⟨⟨field, other⟩, mem, h⟩)
    · exact h.mono fun name entry has => .inAll mem has
    · exact h.mono fun name entry has => .inAny mem has
    · refine h.mono fun name entry has => .own ?_
      obtain ⟨rfl, rfl⟩ := hasEntry_single.1 has
      exact mem

/-- What is behind an entry, seen from the target of its relation. -/
def EntryReaches (schema : Schema) (target : String) : FieldFilter → List String → Prop
  | .comparisons _, _ => False
  | .relation sub, rest => sub.Reaches schema target rest

theorem EntryReaches.ne_nil {entry : FieldFilter} (h : EntryReaches schema entity entry path) :
    path ≠ [] := by
  cases entry with
  | comparisons list => cases h
  | relation sub => exact Reaches.ne_nil h

theorem reaches_single {entry : FieldFilter} :
    (node [] [] [(name, entry)]).Reaches schema entity path ↔
      ∃ relation, schema.relation? entity name = some relation ∧
        (path = [name] ∨ ∃ rest, path = name :: rest ∧
          EntryReaches schema relation.target entry rest) := by
  constructor
  · intro h
    cases h with
    | entry has declared =>
      obtain ⟨rfl, -⟩ := hasEntry_single.1 has
      exact ⟨_, declared, .inl rfl⟩
    | behind has declared further =>
      obtain ⟨rfl, rfl⟩ := hasEntry_single.1 has
      exact ⟨_, declared, .inr ⟨_, rfl, further⟩⟩
  · rintro ⟨relation, declared, rfl | ⟨rest, rfl, further⟩⟩
    · exact .entry (hasEntry_single.2 ⟨rfl, rfl⟩) declared
    · cases entry with
      | comparisons list => cases further
      | relation sub => exact .behind (hasEntry_single.2 ⟨rfl, rfl⟩) declared further

/-! ## The tree of a filter -/

section Trees

open JoinTree

/-- Adds the relation that an entry is named after, and what it reaches in turn. -/
def addEntryJoins (schema : Schema) (entity : String) (tree : JoinTree)
    (entry : String × FieldFilter) : JoinTree :=
  match schema.relation? entity entry.1 with
  | some relation => tree.insert entry.1 (entryJoins schema entry.2 relation.target)
  | none => tree

theorem adds_addEntryJoins {entry : String × FieldFilter}
    (hbelow : ∀ target, (entryJoins schema entry.2 target).HasExactly
      (EntryReaches schema target entry.2)) :
    Adds (addEntryJoins schema entity · entry) ((node [] [] [entry]).Reaches schema entity) := by
  intro tree h
  obtain ⟨name, entry⟩ := entry
  show (match schema.relation? entity name with
    | some relation => tree.insert name (entryJoins schema entry relation.target)
    | none => tree).HasExactly _
  cases hrelation : schema.relation? entity name with
  | none =>
    refine ⟨h, fun path _ => ?_⟩
    rw [reaches_single, hrelation]
    simp
  | some relation =>
    have hbelow := hbelow relation.target
    refine ⟨h.insert hbelow.ordered name, fun path _ => ?_⟩
    rw [has_insert h hbelow.ordered, reaches_single]
    refine or_congr_right ⟨?_, ?_⟩
    · rintro ⟨rest, rfl, hrest⟩
      refine ⟨relation, hrelation, ?_⟩
      -- the path that goes nowhere is in the tree below, but the entry does not reach it
      by_cases hnil : rest = []
      · exact .inl (by rw [hnil])
      · exact .inr ⟨rest, rfl, (hbelow.has_iff rest hnil).1 hrest⟩
    · rintro ⟨other, hother, hpath⟩
      cases hrelation.symm.trans hother
      rcases hpath with rfl | ⟨rest, rfl, hrest⟩
      · exact ⟨[], rfl, has_nil _⟩
      · exact ⟨rest, rfl, (hbelow.has_iff rest hrest.ne_nil).2 hrest⟩

theorem adds_addFieldJoins (hbelow : ∀ entry ∈ fields, ∀ target,
      (entryJoins schema entry.2 target).HasExactly (EntryReaches schema target entry.2)) :
    Adds (addFieldJoins schema fields entity)
      fun path => ∃ entry ∈ fields, (node [] [] [entry]).Reaches schema entity path := by
  induction fields with
  | nil => exact adds_nothing.congr fun path => by simp
  | cons entry rest ih =>
    obtain ⟨hfirst, hrest⟩ := List.forall_mem_cons.1 hbelow
    exact ((adds_addEntryJoins hfirst).comp (ih hrest)).congr fun path => by
      simp only [List.mem_cons, exists_eq_or_imp]

theorem adds_addListJoins {fs : List Filter}
    (heach : ∀ f ∈ fs, Adds (addJoins schema f entity) (f.Reaches schema entity)) :
    Adds (addListJoins schema fs entity) fun path => ∃ f ∈ fs, f.Reaches schema entity path := by
  induction fs with
  | nil => exact adds_nothing.congr fun path => by simp
  | cons f fs ih =>
    obtain ⟨hfirst, hrest⟩ := List.forall_mem_cons.1 heach
    exact (hfirst.comp (ih hrest)).congr fun path => by
      simp only [List.mem_cons, exists_eq_or_imp]

theorem adds_addJoins (f : Filter) : ∀ entity : String,
    Adds (addJoins schema f entity) (f.Reaches schema entity) := by
  -- for any tree that came before: the lists hand it on, and behind a relation it starts empty
  induction f using partsInduction with
  | node all any fields hall hany hfields =>
    intro entity
    have hbelow : ∀ entry ∈ fields, ∀ target, (entryJoins schema entry.2 target).HasExactly
        (EntryReaches schema target entry.2) := by
      rintro ⟨name, entry⟩ hmem target
      cases entry with
      | comparisons list => exact hasExactly_empty
      | relation sub => exact (hfields name sub hmem target).hasExactly
    have hlists := (adds_addListJoins fun f hf => hall f hf entity).comp
      (adds_addListJoins fun f hf => hany f hf entity)
    refine (hlists.comp (adds_addFieldJoins hbelow)).congr fun path => ?_
    rw [reaches_node, or_assoc]

/-- The tree of a filter has exactly the paths that the filter reaches. -/
theorem hasExactly_joins (f : Filter) (schema : Schema) (entity : String) :
    (f.joins schema entity).HasExactly (f.Reaches schema entity) :=
  (adds_addJoins f entity).hasExactly

end Trees

/-! ## The same entries in other groups -/

mutual

/-- The entries of a filter at any depth of its lists, one after the other. -/
def flatEntries : Filter → List (String × FieldFilter)
  | node all any fields => flatEntriesOf all ++ flatEntriesOf any ++ fields
termination_by structural filter => filter

/-- The entries of several filters. -/
def flatEntriesOf : List Filter → List (String × FieldFilter)
  | [] => []
  | f :: fs => f.flatEntries ++ flatEntriesOf fs
termination_by structural filters => filters

end

mutual

/-- The filters have the same entries, in whatever lists and in whatever order, and behind relations
the filters of these entries have so in turn. -/
inductive Regroups : Filter → Filter → Prop
  | intro {f g : Filter} {entries : List (String × FieldFilter)}
    (order : f.flatEntries.Perm entries) (each : RegroupsEach entries g.flatEntries) : Regroups f g

/-- Entry by entry, the names are the same and what is asked for is so up to groups. -/
inductive RegroupsEach : List (String × FieldFilter) → List (String × FieldFilter) → Prop
  | nil : RegroupsEach [] []
  | cons {name : String} {x y : FieldFilter} {xs ys : List (String × FieldFilter)}
    (first : RegroupsEntry x y) (rest : RegroupsEach xs ys) :
    RegroupsEach ((name, x) :: xs) ((name, y) :: ys)

/-- The same comparisons, or filters with the same entries. -/
inductive RegroupsEntry : FieldFilter → FieldFilter → Prop
  | comparisons (list : List Comparison) : RegroupsEntry (.comparisons list) (.comparisons list)
  | relation {f g : Filter} (sub : Regroups f g) : RegroupsEntry (.relation f) (.relation g)

end

theorem flatEntriesOf_eq_flatMap (fs : List Filter) :
    flatEntriesOf fs = fs.flatMap flatEntries := by
  induction fs with
  | nil => rfl
  | cons f fs ih => rw [flatEntriesOf, ih, List.flatMap_cons]

theorem mem_flatEntries {f : Filter} {name : String} {entry : FieldFilter} :
    (name, entry) ∈ f.flatEntries ↔ f.HasEntry name entry := by
  induction f using partsInduction with
  | node all any fields hall hany _ =>
    have hlist : ∀ fs : List Filter,
        (∀ f ∈ fs, ((name, entry) ∈ f.flatEntries ↔ f.HasEntry name entry)) →
        ((name, entry) ∈ flatEntriesOf fs ↔ ∃ f ∈ fs, f.HasEntry name entry) := by
      intro fs hfs
      rw [flatEntriesOf_eq_flatMap, List.mem_flatMap]
      exact exists_congr fun f => and_congr_right fun hf => hfs f hf
    rw [flatEntries, List.mem_append, List.mem_append, hlist all hall, hlist any hany,
      hasEntry_node, or_comm]

theorem RegroupsEach.forth {xs ys : List (String × FieldFilter)} (h : RegroupsEach xs ys)
    {x : FieldFilter} (hx : (name, x) ∈ xs) : ∃ y, (name, y) ∈ ys ∧ RegroupsEntry x y := by
  induction xs generalizing ys with
  | nil => cases hx
  | cons first xs ih =>
    cases h with
    | cons hfirst hrest =>
      cases hx with
      | head => exact ⟨_, List.mem_cons_self, hfirst⟩
      | tail _ hx =>
        obtain ⟨y, hy, hxy⟩ := ih hrest hx
        exact ⟨y, List.mem_cons_of_mem _ hy, hxy⟩

theorem RegroupsEach.back {xs ys : List (String × FieldFilter)} (h : RegroupsEach xs ys)
    {y : FieldFilter} (hy : (name, y) ∈ ys) : ∃ x, (name, x) ∈ xs ∧ RegroupsEntry x y := by
  induction xs generalizing ys with
  | nil =>
    cases h
    cases hy
  | cons first xs ih =>
    cases h with
    | cons hfirst hrest =>
      cases hy with
      | head => exact ⟨_, List.mem_cons_self, hfirst⟩
      | tail _ hy =>
        obtain ⟨x, hx, hxy⟩ := ih hrest hy
        exact ⟨x, List.mem_cons_of_mem _ hx, hxy⟩

theorem Regroups.forth (h : f.Regroups g) {x : FieldFilter} (hx : f.HasEntry name x) :
    ∃ y, g.HasEntry name y ∧ RegroupsEntry x y := by
  cases h with
  | intro order each =>
    obtain ⟨y, hy, hxy⟩ := each.forth (order.mem_iff.1 (mem_flatEntries.2 hx))
    exact ⟨y, mem_flatEntries.1 hy, hxy⟩

theorem Regroups.back (h : f.Regroups g) {y : FieldFilter} (hy : g.HasEntry name y) :
    ∃ x, f.HasEntry name x ∧ RegroupsEntry x y := by
  cases h with
  | intro order each =>
    obtain ⟨x, hx, hxy⟩ := each.back (mem_flatEntries.2 hy)
    exact ⟨x, mem_flatEntries.1 (order.mem_iff.2 hx), hxy⟩

theorem Reaches.regrouped (h : f.Reaches schema entity path) (hg : f.Regroups g) :
    g.Reaches schema entity path := by
  induction h generalizing g with
  | entry has declared =>
    obtain ⟨y, hy, -⟩ := hg.forth has
    exact .entry hy declared
  | behind has declared _ ih =>
    obtain ⟨y, hy, hsub⟩ := hg.forth has
    cases hsub with
    | relation hsub => exact .behind hy declared (ih hsub)

theorem Reaches.ungrouped (h : g.Reaches schema entity path) (hf : f.Regroups g) :
    f.Reaches schema entity path := by
  induction h generalizing f with
  | entry has declared =>
    obtain ⟨x, hx, -⟩ := hf.back has
    exact .entry hx declared
  | behind has declared _ ih =>
    obtain ⟨x, hx, hsub⟩ := hf.back has
    cases hsub with
    | relation hsub => exact .behind hx declared (ih hsub)

theorem Regroups.joins_eq (h : f.Regroups g) (schema : Schema) (entity : String) :
    f.joins schema entity = g.joins schema entity := by
  refine (hasExactly_joins f schema entity).unique ?_
  have hg := hasExactly_joins g schema entity
  refine ⟨hg.ordered, fun path hne => (hg.has_iff path hne).trans ⟨?_, ?_⟩⟩
  · intro hreach
    exact hreach.ungrouped h
  · intro hreach
    exact hreach.regrouped h

/-! ## What the tree of a filter has -/

/-- **The tree of a filter has exactly the relations that its entries are named after.** A path is
in it when an entry at some depth of the lists has its first name, the entity type declares a
relation of that name, and, if the path goes on, the filter of such an entry reaches the rest of it
from the target. What the parts of a filter reach is united, and regrouping its entries changes
nothing. -/
theorem joins_reach_entries (schema : Schema) (entity : String) (f : Filter) :
    (∀ name rest, (f.joins schema entity).Has (name :: rest) ↔
      ∃ relation, schema.relation? entity name = some relation ∧
        (∃ entry, f.HasEntry name entry) ∧
        (rest ≠ [] → ∃ sub, f.HasEntry name (.relation sub) ∧
          (sub.joins schema relation.target).Has rest)) ∧
    (∀ path, path ≠ [] → ((f.joins schema entity).Has path ↔
      (∃ g ∈ f.all ++ f.any, (g.joins schema entity).Has path) ∨
        ∃ entry ∈ f.fields, ((node [] [] [entry]).joins schema entity).Has path)) ∧
    ∀ g, f.Regroups g → f.joins schema entity = g.joins schema entity := by
  refine ⟨fun name rest => ?_, fun path hne => ?_, fun g h => h.joins_eq schema entity⟩
  · rw [(hasExactly_joins f schema entity).has_iff _ (List.cons_ne_nil _ _)]
    constructor
    · intro h
      cases h with
      | entry has declared => exact ⟨_, declared, ⟨_, has⟩, fun hne => absurd rfl hne⟩
      | behind has declared further =>
        refine ⟨_, declared, ⟨_, has⟩, fun hne => ⟨_, has, ?_⟩⟩
        exact ((hasExactly_joins _ schema _).has_iff rest hne).2 further
    · rintro ⟨relation, declared, ⟨entry, has⟩, hrest⟩
      by_cases hnil : rest = []
      · rw [hnil]
        exact .entry has declared
      · obtain ⟨sub, has, further⟩ := hrest hnil
        exact .behind has declared (((hasExactly_joins sub schema _).has_iff rest hnil).1 further)
  · have hiff (g : Filter) : (g.joins schema entity).Has path ↔ g.Reaches schema entity path :=
      (hasExactly_joins g schema entity).has_iff path hne
    simp only [hiff]
    cases f with
    | node all any fields =>
      rw [reaches_node, ← or_assoc, ← exists_or]
      simp only [← or_and_right, ← List.mem_append]
      exact Iff.rfl

end EntityQuery.Filter

namespace EntityQuery

/-- Posts with authors, who have profiles. -/
def posts : Schema := .ofEntities
  [{ name := "Post", table := some "posts", primaryKeys := ["id"],
     relations := [{ name := "author", kind := .manyToOne, target := "User",
                     fieldNames := ["authorId"] }] },
   { name := "User", primaryKeys := ["id"],
     relations := [{ name := "profile", kind := .oneToOne, target := "Profile" }] }]

namespace Filter

/-- Posts of the first author, and posts of authors who say in their profile that they draw maps. -/
def mapPosts : Filter :=
  .node []
    [.node [] [] [("author", .relation (.node [] [] [("profile", .relation (.node [] []
        [("bio", .comparisons [⟨"like", .str "%maps%"⟩])]))]))],
      .node [] [] [("author", .comparisons [⟨"eq", .int 1⟩])]]
    []

/-- The same entries in another order, outside of lists and inside of others. -/
def mapPostsRegrouped : Filter :=
  .node [.node [] [] [("author", .comparisons [⟨"eq", .int 1⟩])]] []
    [("author", .relation (.node [.node [] [.node [] [] [("profile", .relation (.node [] []
      [("bio", .comparisons [⟨"like", .str "%maps%"⟩])]))]] []] [] []))]

/-- The profile is reached through one alternative, and still is when the other comes later. -/
theorem joins_reach_entries_maps : mapPosts.Regroups mapPostsRegrouped ∧
    (mapPosts.joins posts "Post").Has ["author", "profile"] ∧
    mapPosts.joins posts "Post" = mapPostsRegrouped.joins posts "Post" := by
  have hprofile : ∀ sub, RegroupsEntry (.relation (.node [] [] [("bio", .comparisons sub)]))
      (.relation (.node [] [] [("bio", .comparisons sub)])) := fun sub =>
    .relation (.intro (.refl _) (.cons (.comparisons sub) .nil))
  have hregroups : mapPosts.Regroups mapPostsRegrouped :=
    .intro (.swap _ _ _) (.cons (.comparisons _)
      (.cons (.relation (.intro (.refl _) (.cons (hprofile _) .nil))) .nil))
  obtain ⟨hhas, -, hsame⟩ := joins_reach_entries posts "Post" mapPosts
  refine ⟨hregroups, (hhas "author" ["profile"]).2 ?_, hsame _ hregroups⟩
  refine ⟨_, rfl, ⟨_, .inAny List.mem_cons_self (.own List.mem_cons_self)⟩, fun _ => ?_⟩
  exact ⟨_, .inAny List.mem_cons_self (.own List.mem_cons_self), _, rfl, trivial⟩

end Filter

end EntityQuery
