import EntityQuery.Proofs.Filter.Misnaming
import EntityQuery.Proofs.Filter.Sending
import EntityQuery.Proofs.Sql.Qualifying
import EntityQuery.Proofs.Text.Dots

/-!
# Columns named with dots

Sort keys, groups and aggregated fields name a property behind relations in one text, the names
joined with dots; a filter reaches the same property by nesting. The text names one column, and no
other text names it (`Column.dottedName_ofDotted`): the property is what stands behind the last dot,
and the relations are what stands between the others (`Column.ofDotted_append`). Names without dots
of their own are found again (`Column.ofDotted_dottedName`), so nested comparisons and dotted fields
come to one column in every statement (`dotted_names_nested`).
-/

namespace EntityQuery

namespace Column

/-- The column in one text: its relations and its property, joined with dots. -/
def dottedName (column : Column) : String := ".".intercalate (column.path ++ [column.field])

/-- No name of the column has a dot of its own. -/
structure Dotless (column : Column) : Prop where
  path : ∀ name ∈ column.path, '.' ∉ name.toList
  field : '.' ∉ column.field.toList

/-- The names of the column that a text names make up the text. -/
theorem dottedName_ofDotted (text : String) : (ofDotted text).dottedName = text := by
  have hne : Text.dotted text ≠ [] := Text.dotted_ne_nil text
  have hparts : (ofDotted text).path ++ [(ofDotted text).field] = Text.dotted text := by
    rw [ofDotted, List.getLastD_eq_getLast?, List.getLast?_eq_some_getLast hne]
    exact List.dropLast_concat_getLast hne
  rw [dottedName, hparts, Text.intercalate_dotted]

/-- The property stands behind the last dot. -/
theorem ofDotted_append (before : String) {property : String} (h : '.' ∉ property.toList) :
    ofDotted (before ++ "." ++ property) = ⟨Text.dotted before, property⟩ := by
  rw [ofDotted, Text.dotted_append, Text.dotted_of_notMem h]
  simp

/-- Without a dot the property is the entity's own. -/
theorem ofDotted_of_notMem {property : String} (h : '.' ∉ property.toList) :
    ofDotted property = ofField property := by
  rw [ofDotted, Text.dotted_of_notMem h]
  rfl

/-- Names without dots of their own are found again. -/
theorem ofDotted_dottedName {column : Column} (h : column.Dotless) :
    ofDotted column.dottedName = column := by
  have hplain : ∀ name ∈ column.path ++ [column.field], '.' ∉ name.toList := by
    rw [List.forall_mem_append, List.forall_mem_singleton]
    exact ⟨h.path, h.field⟩
  rw [ofDotted, dottedName, Text.dotted_intercalate (by simp) hplain]
  simp

end Column

/-! ## Nested comparisons -/

namespace Filter

variable {column : Column} {c : Comparison} {p : Predicate}

/-- The filter behind relations, the outermost first. -/
def behind (relations : List String) (f : Filter) : Filter :=
  relations.foldr (fun name f => empty.relation name f) f

/-- The filter that makes a comparison on a column, nested in the relations that lead there. -/
def comparing (column : Column) (c : Comparison) : Filter :=
  (empty.compare column.field c.operator c.operand).behind column.path

/-- Behind relations a filter compiles as on the entities that they lead to. -/
theorem compile_behind (relations : List String) (f : Filter) :
    (f.behind relations).compile = f.compileAt relations := by
  induction relations with
  | nil => rfl
  | cons name relations ih =>
    show (empty.relation name (f.behind relations)).compile = f.compileAt ([name] ++ relations)
    rw [compile_relation_empty, compileAt_append, ← ih]
    exact compileAt_append [name] (f.behind relations) []

theorem compile_comparing (h : Valid c) (column : Column) :
    ∃ p, (comparing column c).compile = .ok p ∧ CompilesTo column c p := by
  obtain ⟨op, hname, hfits⟩ := h
  refine ⟨(op.fragment c.operand).bind column, ?_, op, hname, hfits, rfl⟩
  have happend : (empty.compare column.field c.operator c.operand).compileAt (column.path ++ []) =
      .ok (((op.fragment c.operand).bind ⟨[], column.field⟩).under column.path) := by
    rw [compileAt_append]
    exact congrArg (Predicate.under column.path <$> ·)
      (compile_compare_empty hname hfits column.field)
  rw [List.append_nil, ← Fragment.bind_under] at happend
  rw [comparing, compile_behind, happend]
  simp [Column.under]

/-- A comparison stands on the column that it is bound to and on no other; a range does so twice. -/
theorem columns_compilesTo (h : CompilesTo column c p) :
    ∃ n, p.columns = List.replicate (n + 1) column := by
  obtain ⟨op, -, -, rfl⟩ := h
  cases op with
  | between | notBetween => exact ⟨1, rfl⟩
  | _ => exact ⟨0, rfl⟩

end Filter

/-! ## Statements that mention one column -/

section Statements

variable {f : Filter} {p : Predicate} {column : Column} {n : Nat}

/-- Where the filter compares one column and all sort keys name it, the statement mentions no
other. -/
theorem Query.columns_statement_of_same {q : Query} (hcompile : q.filter.compile = .ok p)
    (hcolumns : p.columns = List.replicate n column)
    (hsorting : ∀ key ∈ q.sorting, Column.ofDotted key.field = column) (schema : Schema)
    (entity : String) : ∃ s, q.select schema entity = .ok s ∧
      (s.statement schema).columns =
        List.replicate (n + q.sorting.length) (schema.columns entity column) := by
  obtain ⟨s, hs, rfl, hplan, hkeys⟩ := Query.exists_select hcompile schema entity
  have hp : s.predicate = p := congrArg Plan.predicate hplan
  have hsorted : (s.sorting.map fun key => Column.ofDotted key.field) =
      List.replicate q.sorting.length column := by
    rw [hkeys]
    exact List.map_eq_replicate_iff.2 hsorting
  refine ⟨s, hs, ?_⟩
  rw [s.columns_statement, Selection.mentioned, hp, hcolumns, hsorted,
    List.replicate_append_replicate, List.map_replicate]

/-- Where the filter compares one column and all fields of a request name it, the statement mentions
no other. -/
theorem AggregateQuery.columns_statement_of_same {q : AggregateQuery} (hq : q.isEmpty = false)
    (hcompile : f.compile = .ok p) (hcolumns : p.columns = List.replicate n column)
    (hfields : ∀ asked ∈ q.columns, Column.ofDotted asked.field = column) (schema : Schema)
    (entity : String) : ∃ s, q.select schema entity f = .ok s ∧
      (s.statement schema).columns = List.replicate
        (q.columns.length + n + q.groupBy.length + q.groupBy.length)
          (schema.columns entity column) := by
  obtain ⟨s, hs, rfl, hplan, hselected, hgroups, hsorting⟩ :=
    AggregateQuery.exists_select hq hcompile schema entity
  have hp : s.predicate = p := congrArg Plan.predicate hplan
  have hgrouped : q.groupBy.map Column.ofDotted = List.replicate q.groupBy.length column :=
    List.map_eq_replicate_iff.2 fun field hfield =>
      hfields (.group field) (List.mem_append_left _ (List.mem_map_of_mem hfield))
  have hsorted : (s.sorting.map fun key => Column.ofDotted key.field) =
      List.replicate q.groupBy.length column := by
    rw [hsorting, List.map_map]
    exact hgrouped
  refine ⟨s, hs, ?_⟩
  rw [s.columns_statement, AggregateSelection.mentioned, hp, hcolumns, hselected, hgroups, hsorted,
    hgrouped, List.map_eq_replicate_iff.2 hfields]
  simp only [List.replicate_append_replicate, List.map_replicate]

end Statements

/-- **A dotted name and a nested comparison denote one column.** Every text is made up of the names
of the column that it names, of which the property stands behind the last dot. A column whose names
have no dots is the one that these names joined with dots name. Statements that compare it by
nesting and sort, group by or aggregate it under its dotted name mention one column throughout,
qualified by the innermost relation and named by following all of them. -/
theorem dotted_names_nested {column : Column} (h : column.Dotless) :
    (∀ text, (Column.ofDotted text).dottedName = text) ∧
    (∀ before, Column.ofDotted (before ++ "." ++ column.field) =
      ⟨Text.dotted before, column.field⟩) ∧
    Column.ofDotted column.field = ⟨[], column.field⟩ ∧
    Column.ofDotted column.dottedName = column ∧
    ∀ c, Filter.Valid c → ∃ p n, (Filter.comparing column c).compile = .ok p ∧
      p.columns = List.replicate (n + 1) column ∧
      ∀ schema entity,
        (∀ q : Query, q.filter = Filter.comparing column c →
          (∀ key ∈ q.sorting, key.field = column.dottedName) →
          ∃ s, q.select schema entity = .ok s ∧ (s.statement schema).columns =
            List.replicate (n + 1 + q.sorting.length)
              ⟨column.path.getLast?, schema.naming entity column.path column.field⟩) ∧
        ∀ q : AggregateQuery, q.isEmpty = false →
          (∀ asked ∈ q.columns, asked.field = column.dottedName) →
          ∃ s, q.select schema entity (Filter.comparing column c) = .ok s ∧
            (s.statement schema).columns = List.replicate
              (q.columns.length + (n + 1) + q.groupBy.length + q.groupBy.length)
                ⟨column.path.getLast?, schema.naming entity column.path column.field⟩ := by
  have hnamed : ∀ text, text = column.dottedName → Column.ofDotted text = column := by
    rintro text rfl
    exact Column.ofDotted_dottedName h
  refine ⟨Column.dottedName_ofDotted, fun before => Column.ofDotted_append before h.field,
    Column.ofDotted_of_notMem h.field, hnamed _ rfl, fun c hc => ?_⟩
  obtain ⟨p, hcompile, hp⟩ := Filter.compile_comparing hc column
  obtain ⟨n, hcolumns⟩ := Filter.columns_compilesTo hp
  refine ⟨p, n, hcompile, hcolumns, fun schema entity => ⟨?_, ?_⟩⟩
  · intro q hfilter hsorting
    exact Query.columns_statement_of_same (hfilter ▸ hcompile) hcolumns
      (fun key hkey => hnamed _ (hsorting key hkey)) schema entity
  · intro q hq hfields
    exact AggregateQuery.columns_statement_of_same hq hcompile hcolumns
      (fun asked hasked => hnamed _ (hfields asked hasked)) schema entity

/-- The name of the company behind an author, from A to B. -/
def companyName : Column × Comparison :=
  (⟨["author", "company"], "name"⟩,
    ⟨"between", .obj [("lower", .str "A"), ("upper", .str "B")]⟩)

/-- Posts of such companies, sorted and counted by their names: all is about the titles of
companies. -/
theorem dotted_names_nested_company :
    companyName.1.Dotless ∧ Filter.Valid companyName.2 ∧
    (∃ s, Query.select
        { filter := .comparing companyName.1 companyName.2,
          sorting := [{ field := "author.company.name" }] } newsroom "Post" = .ok s ∧
      (s.statement newsroom).columns = List.replicate 3 ⟨some "company", "title"⟩) ∧
    ∃ s, AggregateQuery.select
        { groupBy := ["author.company.name"], count := ["author.company.name"] } newsroom "Post"
        (.comparing companyName.1 companyName.2) = .ok s ∧
      (s.statement newsroom).columns = List.replicate 6 ⟨some "company", "title"⟩ := by
  have hdotless : companyName.1.Dotless := ⟨by decide, by decide⟩
  have hvalid : Filter.Valid companyName.2 := ⟨.between, by decide, rfl⟩
  obtain ⟨-, -, -, -, hnested⟩ := dotted_names_nested hdotless
  obtain ⟨p, n, hcompile, hcolumns, hsame⟩ := hnested companyName.2 hvalid
  have hlength : p.columns.length = 2 := by
    cases hcompile
    rfl
  rw [hcolumns, List.length_replicate] at hlength
  obtain rfl : n = 1 := by omega
  obtain ⟨hsorted, hcounted⟩ := hsame newsroom "Post"
  exact ⟨hdotless, hvalid, hsorted _ rfl (by decide), hcounted _ rfl (by decide)⟩

end EntityQuery
