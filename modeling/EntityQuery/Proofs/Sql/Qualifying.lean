import EntityQuery.Proofs.Filter.Selecting
import EntityQuery.Proofs.Joins.Covering
import EntityQuery.Proofs.Sql.Columns

/-!
# Columns under the names of relations

A column behind relations is written under the name of the innermost one, which is the name that the
related table is joined under; a column of the entity itself is not qualified. So columns behind
different relations are told apart by their qualifiers unless the relations end in one name. Where a
filter enters no name along two paths (`Filter.EntersApart`), its condition can be read on one
joined row whatever the related rows hold (`columns_told_apart`). Where it does, two related rows go
by one name, and a condition that asks different things of them can never be met
(`columns_of_two_companies`).
-/

namespace EntityQuery

/-! ## The paths that a filter enters -/

namespace Filter

mutual

/-- The paths of relations that a filter enters, each before those that go on from it. -/
def entered : Filter → List (List String)
  | node all any fields => enteredOf all ++ enteredOf any ++ enteredOfFields fields
termination_by structural filter => filter

/-- The paths that go on from an entry's name. -/
def enteredBehind : FieldFilter → List (List String)
  | .comparisons _ => []
  | .relation sub => [] :: sub.entered
termination_by structural entry => entry

/-- The paths that several filters enter. -/
def enteredOf : List Filter → List (List String)
  | [] => []
  | f :: fs => f.entered ++ enteredOf fs
termination_by structural filters => filters

/-- The paths that entries enter. -/
def enteredOfFields : List (String × FieldFilter) → List (List String)
  | [] => []
  | (name, entry) :: rest => (enteredBehind entry).map (name :: ·) ++ enteredOfFields rest
termination_by structural fields => fields

end

variable {f : Filter} {name : String} {path : List String}

theorem mem_enteredOf {fs : List Filter} (hf : f ∈ fs) (h : path ∈ f.entered) :
    path ∈ enteredOf fs := by
  induction hf with
  | head => exact List.mem_append_left _ h
  | tail _ _ ih => exact List.mem_append_right _ ih

theorem mem_enteredOfFields {entry : FieldFilter} {fields : List (String × FieldFilter)}
    (hentry : (name, entry) ∈ fields) (h : path ∈ enteredBehind entry) :
    name :: path ∈ enteredOfFields fields := by
  induction fields with
  | nil => cases hentry
  | cons first rest ih =>
    rcases List.mem_cons.1 hentry with rfl | hentry
    · exact List.mem_append_left _ (List.mem_map_of_mem h)
    · exact List.mem_append_right _ (ih hentry)

theorem HasEntry.mem_entered {entry : FieldFilter} (has : f.HasEntry name entry)
    (h : path ∈ enteredBehind entry) : name :: path ∈ f.entered := by
  induction has with
  | own mem => exact List.mem_append_right _ (mem_enteredOfFields mem h)
  | inAll mem _ ih =>
    exact List.mem_append_left _ (List.mem_append_left _ (mem_enteredOf mem (ih h)))
  | inAny mem _ ih =>
    exact List.mem_append_left _ (List.mem_append_right _ (mem_enteredOf mem (ih h)))

/-- A column that is compared belongs to the entity itself or lies behind a path that is entered. -/
theorem Compares.path_entered {column : Column} (h : f.Compares column) :
    column.path ∈ [] :: f.entered := by
  induction h with
  | own has => exact List.mem_cons_self
  | behind has inner ih => exact List.mem_cons_of_mem _ (has.mem_entered ih)

theorem path_entered_of_mem_columns {p : Predicate} (hcompile : f.compile = .ok p) {column : Column}
    (h : column ∈ p.columns) : column.path ∈ [] :: f.entered := by
  obtain ⟨leaf, hleaf, rfl⟩ := List.mem_map.1 h
  obtain ⟨compared, hcompares, hcolumn⟩ := f.exists_compares_of_mem_leaves hcompile leaf hleaf
  rw [hcolumn, List.nil_append]
  exact hcompares.path_entered

/-- No relation is entered under one name along two paths. -/
def EntersApart (f : Filter) : Prop :=
  ∀ path ∈ f.entered, ∀ other ∈ f.entered, path.getLast? = other.getLast? → path = other

instance (f : Filter) : Decidable f.EntersApart :=
  inferInstanceAs (Decidable (∀ path ∈ f.entered, ∀ other ∈ f.entered, _))

/-- Columns with one qualifier lie behind one path, if the filter that compares them enters no name
along two. -/
theorem EntersApart.path_eq {p : Predicate} (h : f.EntersApart) (hcompile : f.compile = .ok p)
    {c d : Column} (hc : c ∈ p.columns) (hd : d ∈ p.columns)
    (hqualifier : c.qualifier = d.qualifier) : c.path = d.path := by
  have hlast : c.path.getLast? = d.path.getLast? := hqualifier
  rcases List.mem_cons.1 (path_entered_of_mem_columns hcompile hc) with hnil | hcpath
  · rw [hnil, eq_comm, List.getLast?_nil, List.getLast?_eq_none_iff] at hlast
    rw [hnil, hlast]
  · rcases List.mem_cons.1 (path_entered_of_mem_columns hcompile hd) with hnil | hdpath
    · rw [hnil, List.getLast?_nil, List.getLast?_eq_none_iff] at hlast
      rw [hnil, hlast]
    · exact h _ hcpath _ hdpath hlast

end Filter

/-! ## Joined rows -/

/-- What stands in the rows that a row of an entity is joined with: at the end of each path of
relations, the value of each column of the table there. -/
abbrev RelatedRows := List String → String → Sql.Value

/-- The value of a property in the row at the end of the path that its column lies behind. -/
def RelatedRows.value (rows : RelatedRows) (schema : Schema) (entity : String) (column : Column) :
    Sql.Value := rows column.path (schema.naming entity column.path column.field)

/-- A joined row holds under the name of each of some columns what stands in the related row that
the column is about. -/
def Sql.Row.Shows (row : Sql.Row) (rows : RelatedRows) (schema : Schema) (entity : String)
    (columns : List Column) : Prop :=
  ∀ column ∈ columns, row (schema.columns entity column) = rows.value schema entity column

/-- The joined row of some columns; of those with one name it holds what the first is about. -/
def RelatedRows.joined (rows : RelatedRows) (schema : Schema) (entity : String)
    (columns : List Column) : Sql.Row := fun name =>
  match columns.find? (schema.columns entity · = name) with
  | some column => rows.value schema entity column
  | none => .null

section Joining

variable {schema : Schema} {entity : String} {columns : List Column}

/-- Columns with one name have one value where they lie behind one path. -/
theorem RelatedRows.value_congr {rows : RelatedRows} {c d : Column} (hpath : c.path = d.path)
    (hname : schema.columns entity c = schema.columns entity d) :
    rows.value schema entity c = rows.value schema entity d := by
  have hproperty : schema.naming entity c.path c.field = schema.naming entity d.path d.field :=
    congrArg Sql.ColumnName.name hname
  rw [value, value, hproperty, hpath]

/-- A joined row can show whatever the related rows hold exactly when no name stands for columns
behind two paths. -/
theorem exists_shows_iff :
    (∀ rows : RelatedRows, ∃ row : Sql.Row, row.Shows rows schema entity columns) ↔
      ∀ c ∈ columns, ∀ d ∈ columns, schema.columns entity c = schema.columns entity d →
        c.path = d.path := by
  constructor
  · intro hshows c hc d hd hname
    by_contra hne
    -- only the row behind the first path holds a value
    obtain ⟨row, hrow⟩ := hshows fun path _ => if path = c.path then .bool true else .null
    have hone := hrow c hc
    have hother := hrow d hd
    rw [hname, hother] at hone
    simp [RelatedRows.value, Ne.symm hne] at hone
  · intro hpaths rows
    refine ⟨rows.joined schema entity columns, fun column hcolumn => ?_⟩
    cases hfound : columns.find? (schema.columns entity · = schema.columns entity column) with
    | none =>
      have hnone := List.find?_eq_none.1 hfound column hcolumn
      simp at hnone
    | some first =>
      have hname : schema.columns entity first = schema.columns entity column := by
        simpa using List.find?_some hfound
      rw [RelatedRows.joined, hfound]
      exact RelatedRows.value_congr
        (hpaths first (List.mem_of_find?_eq_some hfound) column hcolumn hname) hname

end Joining

/-! ## Conditions on joined rows -/

/-- What a test says of a row depends on the column that it is about. -/
theorem Sql.Test.truth_congr {test : Sql.Test} {row other : Sql.Row}
    (h : row test.column = other test.column) : test.truth row = test.truth other := by
  cases test with
  | isNull name => exact congrArg (fun value => Truth.ofBool value.isNull) h
  | isNotNull name => exact congrArg (fun value => Truth.ofBool !value.isNull) h
  | compare name sign value => exact congrArg (ofKnown · value sign.test) h
  | like name lower negated pattern =>
    exact congrArg (fun value => (ofKnown value _ _).negate negated) h
  | oneOf name negated values =>
    exact congrArg (fun value => (memberOf value values).negate negated) h
  | isBool name negated b =>
    exact congrArg
      (fun value => (Truth.ofBool (value.toJson.looselyEqual (.bool b))).negate negated) h

/-- What a comparison says of the related row that its column is about. -/
def Predicate.Leaf.truthOn (leaf : Predicate.Leaf) (rows : RelatedRows) (schema : Schema)
    (entity : String) : Sql.Truth :=
  (lowerLeaf (schema.columns entity leaf.column) leaf.op leaf.value).truth fun _ =>
    rows.value schema entity leaf.column

/-- On a joined row that shows the related rows, a condition is true when the predicate holds with
each comparison made on the related row it is about. -/
theorem Predicate.truth_lower_of_shows {p : Predicate} {rows : RelatedRows} {row : Sql.Row}
    {schema : Schema} {entity : String} (h : row.Shows rows schema entity p.columns) :
    (p.lower (schema.columns entity)).truth row = .yes ↔
      p.Holds (·.truthOn rows schema entity = .yes) := by
  rw [truth_lower_eq_yes]
  apply holds_congr
  intro leaf hleaf
  have hcolumn : leaf.column ∈ p.columns := List.mem_map_of_mem hleaf
  rw [Leaf.truth, Leaf.truthOn, Sql.Test.truth_congr]
  rw [column_lowerLeaf]
  exact h _ hcolumn

/-! ## Columns that are told apart -/

/-- **Columns behind different relations are told apart by the names of the innermost ones.** A
column is qualified by the last name of its path. So one of the entity itself has no qualifier, and
columns behind different paths have the same one exactly when the paths end in one name. Hence a
compiled filter that enters no name along two paths gives columns behind different paths different
qualifiers, and whatever the related rows hold, there is a joined row on which its condition is true
exactly when the predicate holds with each comparison made on the row it is about. Any predicate has
joined rows for all related rows exactly when no name stands for columns behind two paths. -/
theorem columns_told_apart {f : Filter} {p : Predicate} (hcompile : f.compile = .ok p)
    (schema : Schema) (entity : String) :
    (∀ c : Column, (schema.columns entity c).table = c.path.getLast?) ∧
    (∀ c : Column, (schema.columns entity c).table = none ↔ c.path = []) ∧
    (∀ c d : Column, (schema.columns entity c).table = (schema.columns entity d).table ↔
      c.path.getLast? = d.path.getLast?) ∧
    (f.EntersApart →
      (∀ c ∈ p.columns, ∀ d ∈ p.columns, c.path ≠ d.path →
        (schema.columns entity c).table ≠ (schema.columns entity d).table) ∧
      ∀ rows : RelatedRows, ∃ row : Sql.Row, row.Shows rows schema entity p.columns ∧
        ((p.lower (schema.columns entity)).truth row = .yes ↔
          p.Holds (·.truthOn rows schema entity = .yes))) ∧
    ((∀ rows : RelatedRows, ∃ row : Sql.Row, row.Shows rows schema entity p.columns) ↔
      ∀ c ∈ p.columns, ∀ d ∈ p.columns, schema.columns entity c = schema.columns entity d →
        c.path = d.path) := by
  refine ⟨fun c => rfl, fun c => List.getLast?_eq_none_iff, fun c d => Iff.rfl,
    fun hapart => ⟨?_, ?_⟩, exists_shows_iff⟩
  · exact fun c hc d hd hne htable => hne (hapart.path_eq hcompile hc hd htable)
  · intro rows
    have hpaths : ∀ c ∈ p.columns, ∀ d ∈ p.columns,
        schema.columns entity c = schema.columns entity d → c.path = d.path :=
      fun c hc d hd hname => hapart.path_eq hcompile hc hd (congrArg Sql.ColumnName.table hname)
    obtain ⟨row, hshows⟩ := exists_shows_iff.2 hpaths rows
    exact ⟨row, hshows, Predicate.truth_lower_of_shows hshows⟩

/-- Posts, with the users who wrote and edited them and the companies of these. -/
def newsroom : Schema := .ofEntities
  [{ name := "Post", table := some "posts", primaryKeys := ["id"],
     relations := [{ name := "author", kind := .manyToOne, target := "User" },
                   { name := "editor", kind := .manyToOne, target := "User" }] },
   { name := "User", primaryKeys := ["id"],
     relations := [{ name := "company", kind := .manyToOne, target := "Company" }] },
   { name := "Company", primaryKeys := ["id"], columns := [("name", "title")] }]

/-- The name behind relations is a certain one. -/
def Filter.nameBehind (path : List String) (name : String) : Filter :=
  path.foldr (fun relation f => .node [] [] [(relation, .relation f)])
    (.node [] [] [("name", .comparisons [⟨"eq", .str name⟩])])

/-- Posts by authors of one company that Ann edited. -/
def editedByAnn : Filter :=
  .allOf [.nameBehind ["author", "company"] "Acme", .nameBehind ["editor"] "Ann"]

/-- The company and the editor have names of their own, so they can be read off one joined row. -/
theorem columns_of_author_and_editor : ∃ p,
    editedByAnn.compile = .ok p ∧ editedByAnn.EntersApart ∧
    p.columns.map (newsroom.columns "Post") = [⟨some "company", "title"⟩, ⟨some "editor", "name"⟩] ∧
    ∀ rows : RelatedRows, ∃ row : Sql.Row, row.Shows rows newsroom "Post" p.columns ∧
      ((p.lower (newsroom.columns "Post")).truth row = .yes ↔
        p.Holds (·.truthOn rows newsroom "Post" = .yes)) := by
  obtain ⟨p, hcompile⟩ : ∃ p, editedByAnn.compile = .ok p := ⟨_, rfl⟩
  have hapart : editedByAnn.EntersApart := by decide
  obtain ⟨-, -, -, hjoined, -⟩ := columns_told_apart hcompile newsroom "Post"
  refine ⟨p, hcompile, hapart, ?_, (hjoined hapart).2⟩
  cases hcompile
  decide

/-- Posts by authors of one company that someone of another company edited. -/
def acrossCompanies : Filter :=
  .allOf [.nameBehind ["author", "company"] "Acme", .nameBehind ["editor", "company"] "Bolt"]

/-- The two companies go by one name: on no joined row is the condition true, although the predicate
holds of posts that are asked for. -/
theorem columns_of_two_companies : ∃ p c d,
    acrossCompanies.compile = .ok p ∧ p.columns = [c, d] ∧ c.path ≠ d.path ∧
    newsroom.follow "Post" c.path = some "Company" ∧
    newsroom.follow "Post" d.path = some "Company" ∧
    (newsroom.columns "Post" c).table = (newsroom.columns "Post" d).table ∧
    (∀ row : Sql.Row, (p.lower (newsroom.columns "Post")).truth row ≠ .yes) ∧
    ∃ rows : RelatedRows, p.Holds (·.truthOn rows newsroom "Post" = .yes) := by
  refine ⟨_, _, _, rfl, rfl, by decide, by decide, by decide, by decide, fun row htrue => ?_,
    fun path _ => .text (if path = ["author", "company"] then "Acme" else "Bolt"), ?_⟩
  · obtain ⟨hacme, hbolt, -⟩ := (Predicate.truth_lower_eq_yes _ row _).1 htrue
    obtain ⟨-, -, hacme⟩ := Sql.ofKnown_eq_yes.1 hacme
    obtain ⟨-, -, hbolt⟩ := Sql.ofKnown_eq_yes.1 hbolt
    -- one value would have to equal both names
    have hsame : (Json.str "Acme").looselyEqual (.str "Bolt") = true :=
      Json.looselyEqual_trans ((Json.looselyEqual_comm _ _).trans hacme) hbolt
    exact absurd hsame (by decide)
  · exact ⟨rfl, rfl, trivial⟩

end EntityQuery
