import EntityQuery.Proofs.Aggregate.Answering
import EntityQuery.Proofs.Filter.Grammar
import EntityQuery.Proofs.Schema.Describing
import EntityQuery.Query.Wire

/-!
# Records read back

Queries, aggregate requests and aggregate responses leave out what is absent. Each is written from
the list of its fields (`record`), and what is left out reads as what it was left out for: no list
as the empty one, no bound as none, no bucket as none and not as one without columns. So all of them
read back as they were (`records_read_back`), together with the descriptions of entities.
-/

namespace EntityQuery

open Json (member?)

namespace Shape

/-- What may be left out is read back from what was written. -/
theorem optional_map {β : Type} {read : Json → Option β} {write : β → Json} {o : Option β}
    (hread : ∀ x ∈ o, read (write x) = some x) (hnull : ∀ x, (write x).isNull = false) :
    optional read (o.map write) = some o := by
  cases o with
  | none => rfl
  | some x =>
    rw [Option.map_some, optional, hread x rfl]
    exact if_neg (Bool.eq_false_iff.1 (hnull x))

end Shape

/-! ## Sorting and paging -/

theorem SortDirection.ofName?_name (direction : SortDirection) :
    SortDirection.ofName? direction.name = some direction := by
  cases direction <;> rfl

theorem SortNulls.ofName?_name (place : SortNulls) : SortNulls.ofName? place.name = some place := by
  cases place <;> rfl

namespace SortField

/-- The fields of the record of a sort key. -/
def record (key : SortField) : List (String × Option Json) := [
  ("field", some (.str key.field)),
  ("direction", some (.str key.direction.name)),
  ("nulls", key.nulls.map fun place => .str place.name)]

theorem toJson_eq (key : SortField) : key.toJson = .ofMembers (key.record.flatMap member?) := by
  rw [toJson, record]
  cases key.nulls <;> rfl

theorem ofJson?_toJson (key : SortField) : ofJson? key.toJson = some key := by
  have hfields := Json.fields?_ofMembers ["field", "direction", "nulls"] (by decide)
    (show key.record.map Prod.fst = _ from rfl)
  have hdirection : Shape.choice SortDirection.ofName? (Json.str key.direction.name) =
      some key.direction := SortDirection.ofName?_name key.direction
  have hnulls : Shape.optional (Shape.choice SortNulls.ofName?)
      (key.nulls.map fun place => Json.str place.name) = some key.nulls :=
    Shape.optional_map (fun place _ => SortNulls.ofName?_name place) fun _ => rfl
  rw [ofJson?, toJson_eq, hfields]
  simp only [record, List.map_cons, List.map_nil, Shape.required, hdirection, hnulls,
    Option.bind_eq_bind, Option.bind_some]
  rfl

end SortField

namespace Paging

/-- Both bounds fit 64 bits. -/
structure Fits (paging : Paging) : Prop where
  limit : ∀ n ∈ paging.limit, n < UInt64.size
  offset : ∀ n ∈ paging.offset, n < UInt64.size

/-- The fields of the record of a window. -/
def record (paging : Paging) : List (String × Option Json) :=
  [("limit", paging.limit.map fun n : Nat => .int n),
    ("offset", paging.offset.map fun n : Nat => .int n)]

theorem toJson_eq (paging : Paging) :
    paging.toJson = .ofMembers (paging.record.flatMap member?) := by
  rw [toJson, record, boundEntry, boundEntry]
  cases paging.limit <;> cases paging.offset <;> rfl

/-- A bound keeps all its 64 bits. -/
theorem wordOfNumber?_natCast {n : Nat} (h : n < UInt64.size) :
    Shape.wordOfNumber? (.int n) = some n := by
  have hfits : (0 : Int) ≤ n ∧ (n : Int) < UInt64.size :=
    ⟨Int.natCast_nonneg n, Int.ofNat_lt.2 h⟩
  rw [Shape.wordOfNumber?, if_pos hfits, Int.toNat_natCast]

theorem optional_word {o : Option Nat} (h : ∀ n ∈ o, n < UInt64.size) :
    Shape.optional Readable.word? (o.map fun n : Nat => Json.int n) = some o :=
  Shape.optional_map (fun n hn => wordOfNumber?_natCast (h n hn)) fun _ => rfl

theorem ofJson?_toJson {paging : Paging} (h : paging.Fits) :
    ofJson? paging.toJson = some paging := by
  have hfields := Json.fields?_ofMembers ["limit", "offset"] (by decide)
    (show paging.record.map Prod.fst = _ from rfl)
  rw [ofJson?, toJson_eq, hfields]
  simp only [record, List.map_cons, List.map_nil, optional_word h.limit, optional_word h.offset,
    Option.bind_eq_bind, Option.bind_some]
  rfl

end Paging

/-! ## Queries -/

namespace Query

theorem ofJson_toJson {q : Query} (hfilter : Filter.ofJson q.filter.toJson = .ok q.filter)
    (hpaging : q.paging.Fits) : ofJson q.toJson = .ok q := by
  have hnames : ["filter", "sorting", "paging"].Nodup := by decide
  have hread : readFilter q.toJson = .ok q.filter := by
    have hfield : filterField? q.toJson = some q.filter.toJson := by
      refine Dict.get?_ofEntries_of_nodup ?_ "filter"
      exact hnames
    rw [readFilter, hfield]
    simp only [hfilter]
  have hsorting : Shape.list SortField.ofJson? (.arr (q.sorting.map SortField.toJson)) =
      some q.sorting := renders_eq.list (fun key _ _ h => h ▸ key.ofJson?_toJson) rfl
  have hwindow : readWindow? q.toJson = some (q.sorting, q.paging) := by
    obtain ⟨parts, hfields, hparts⟩ := renders_eq.record _ hnames rfl (rfl : q.toJson = _)
    rw [List.forall₂_eq_eq_eq] at hparts
    rw [readWindow?, hfields, hparts]
    simp only [List.map_cons, List.map_nil, Shape.withDefault, hsorting,
      Paging.ofJson?_toJson hpaging, Option.bind_eq_bind, Option.bind_some]
    rfl
  rw [ofJson, hread, hwindow]
  rfl

end Query

/-! ## Aggregates -/

/-- The key of the bucket of a slot, in requests and in responses. -/
def AggregateFunction.slotKey : Option AggregateFunction → String
  | none => "groupBy"
  | some function => function.key

open AggregateFunction (functions slotKey)

namespace AggregateQuery

/-- The value of a list, unless it is empty. -/
def listed (fields : List String) : Option Json :=
  if fields.isEmpty then none else some (.ofTexts fields)

/-- The fields of the record of an aggregate request. -/
def record (q : AggregateQuery) : List (String × Option Json) :=
  (none :: functions.map some).map fun s => (slotKey s, listed (q.asked s))

theorem listEntry_eq (key : String) (fields : List String) :
    listEntry key fields = member? (key, listed fields) := by
  cases fields <;> rfl

theorem toJson_eq (q : AggregateQuery) : q.toJson = .ofMembers (q.record.flatMap member?) := by
  simp only [toJson, listEntry_eq]
  rfl

theorem withDefault_listed (fields : List String) :
    Shape.withDefault [] Shape.texts (listed fields) = some fields := by
  cases fields with
  | nil => rfl
  | cons field fields => exact renders_eq.texts rfl

theorem ofJson?_toJson (q : AggregateQuery) : ofJson? q.toJson = some q := by
  have hfields := Json.fields?_ofMembers ["groupBy", "count", "sum", "avg", "max", "min"]
    (by decide) (show q.record.map Prod.fst = _ from rfl)
  rw [ofJson?, toJson_eq, hfields]
  simp only [record, functions, List.map_cons, List.map_nil, withDefault_listed,
    Option.bind_eq_bind, Option.bind_some]
  rfl

end AggregateQuery

namespace AggregateResponse

/-- The fields of the record of an aggregate response. -/
def record (r : AggregateResponse) : List (String × Option Json) :=
  (none :: functions.map some).map fun s => (slotKey s, (r.slot s).map .obj)

theorem bucketEntry_eq (key : String) (bucket : Option (Dict Json)) :
    bucketEntry key bucket = member? (key, bucket.map .obj) := by
  cases bucket <;> rfl

theorem toJson_eq (r : AggregateResponse) : r.toJson = .ofMembers (r.record.flatMap member?) := by
  simp only [toJson, bucketEntry_eq]
  rfl

/-- Every bucket that there is has its keys in order. -/
def Ordered (r : AggregateResponse) : Prop := ∀ s, ∀ bucket ∈ r.slot s, Dict.Sorted bucket

theorem optional_slot {r : AggregateResponse} (h : r.Ordered) (s : Option AggregateFunction) :
    Shape.optional readBucket? ((r.slot s).map .obj) = some (r.slot s) := by
  refine Shape.optional_map (fun bucket hbucket => ?_) fun _ => rfl
  have hread : ∀ {a x : Json}, a = id x → some a = some x := congrArg some
  refine renders_eq.dict (h s bucket hbucket) hread ?_
  simp

theorem ofJson?_toJson {r : AggregateResponse} (h : r.Ordered) : ofJson? r.toJson = some r := by
  have hfields := Json.fields?_ofMembers ["groupBy", "count", "sum", "avg", "max", "min"]
    (by decide) (show r.record.map Prod.fst = _ from rfl)
  rw [ofJson?, toJson_eq, hfields]
  simp only [record, functions, List.map_cons, List.map_nil, optional_slot h,
    Option.bind_eq_bind, Option.bind_some]
  rfl

end AggregateResponse

/-- **Every record reads back as what was written.** A query whose filter was read from a value, an
aggregate request, a response, a relation and an entity type are read from their own records as they
were. The text of descriptions gives the schema that knows, under every name, the last of the
entity types that has it; this holds of the compact text with the fields of each record in order and
its columns in any, and of every text whose document denotes the descriptions and writes no key
twice. -/
theorem records_read_back :
    (∀ (q : Query) (v : Json), v.Canonical → Filter.ofJson v = .ok q.filter → q.paging.Fits →
      Query.ofJson q.toJson = .ok q) ∧
    (∀ q : AggregateQuery, AggregateQuery.ofJson? q.toJson = some q) ∧
    (∀ r : AggregateResponse, r.Ordered → AggregateResponse.ofJson? r.toJson = some r) ∧
    (∀ r : Relation, Relation.read? r.toJson = some r) ∧
    (∀ e : Entity, e.columns.Sorted → Entity.read? e.toJson = some e) ∧
    (∀ listed : List (Entity × List (String × String)),
      (∀ p ∈ listed, p.1.columns.Sorted ∧ p.2.Perm p.1.columns) →
      ∃ schema, Schema.ofText (Json.arr (listed.map fun p => .obj (p.1.members p.2))).text =
          .ok schema ∧
        ∀ name, schema.entity? name = (listed.map Prod.fst).reverse.find? (·.name == name)) ∧
    ∀ (text : String) (d : Document) (entities : List Entity),
      (∀ e ∈ entities, e.columns.Sorted) → Document.parse? text.length text = some d →
      d.Denotes (.arr (entities.map Entity.toJson)) →
      ∃ schema, Schema.ofText text = .ok schema ∧
        ∀ name, schema.entity? name = entities.reverse.find? (·.name == name) := by
  refine ⟨fun q v hv hfilter hpaging => ?_, AggregateQuery.ofJson?_toJson,
    fun r h => AggregateResponse.ofJson?_toJson h, fun r => Relation.read?_of_stands renders_eq rfl,
    fun e he => Entity.read?_of_stands renders_eq he rfl, fun listed h => ?_,
    fun text d entities hentities htext hd => ?_⟩
  · have hwell := (Filter.toJson_of_ofJson hv hfilter).2
    exact Query.ofJson_toJson (Filter.ofJson_toJson hwell) hpaging
  · exact ⟨_, Schema.ofText_members h, Schema.entity?_ofEntities _⟩
  · exact ⟨_, Schema.ofText_of_denotes hentities htext hd, Schema.entity?_ofEntities _⟩

/-- A query for the most rows there can be. -/
def mostRows : Query where
  filter := .node [] [] [("n", .comparisons [⟨"EQ", .int 1⟩])]
  sorting := [{ field := "n" }, { field := "author.n", nulls := some .last }]
  paging := { limit := some 18446744073709551615 }

/-- An entity type with two columns, which may be written in either order. -/
def renamedPost : Entity where
  name := "Post"
  primaryKeys := ["id"]
  columns := [("authorId", "author_id"), ("createdAt", "created_at")]

/-- The query, a response with a bucket without columns, and a text that describes an entity type
twice. -/
theorem records_read_back_posts :
    Query.ofJson mostRows.toJson = .ok mostRows ∧
    AggregateResponse.ofJson? ({ groupBy := some [], sum := some [("n", .int 1)] } :
      AggregateResponse).toJson = some { groupBy := some [], sum := some [("n", .int 1)] } ∧
    ∃ schema, Schema.ofText (Json.arr [
        .obj (({ name := "Post", primaryKeys := [] } : Entity).members []),
        .obj (renamedPost.members renamedPost.columns.reverse)]).text = .ok schema ∧
      schema.entity? "Post" = some renamedPost := by
  obtain ⟨hquery, -, hresponse, -, -, htext, -⟩ := records_read_back
  have hcanonical : (Json.obj [("n", .obj [("EQ", .int 1)])]).Canonical := by
    simp [Json.Canonical, Json.CanonicalMembers, Dict.Sorted, Dict.keys]
  have hpaging : mostRows.paging.Fits := ⟨by simp [mostRows], by simp [mostRows]⟩
  have hordered : ({ groupBy := some [], sum := some [("n", .int 1)] } :
      AggregateResponse).Ordered := by
    intro s bucket hbucket
    cases s with
    | none =>
      cases hbucket
      exact Dict.sorted_nil
    | some f =>
      cases f with
      | sum =>
        cases hbucket
        exact List.pairwise_singleton _ _
      | _ => cases hbucket
  have hcolumns : renamedPost.columns.Sorted := List.pairwise_pair.2 (by decide)
  obtain ⟨schema, hschema, hknown⟩ := htext [({ name := "Post", primaryKeys := [] }, []),
    (renamedPost, renamedPost.columns.reverse)] (by
      simp [Dict.sorted_nil, hcolumns, List.reverse_perm])
  exact ⟨hquery mostRows _ hcanonical rfl hpaging, hresponse _ hordered, schema, hschema,
    (hknown "Post").trans rfl⟩

end EntityQuery
