import EntityQuery.Proofs.Aggregate.Naming
import EntityQuery.Proofs.Answer
import EntityQuery.Proofs.Dict.Entries
import Mathlib.Data.Set.List

/-!
# Rows that answer an aggregate request

A row of the result holds a value under the name of each column of the request. Noting a value fills
one bucket and leaves the others (`slot_putColumn`), so after any number of columns a bucket holds
the fields of those that belong to it (`putAll_columns`), however they were ordered or repeated. The
columns of a request that belong to a bucket have the fields asked for there, in order
(`fieldsIn_columns`), and rows give the responses that were asked for (`rows_answer_requests`).
-/

namespace EntityQuery

/-! ## Buckets -/

/-- The fields asked for in a slot. -/
def AggregateQuery.asked (q : AggregateQuery) : Option AggregateFunction → List String
  | none => q.groupBy
  | some function => q.fields function

/-- The bucket of a slot. -/
def AggregateResponse.slot (r : AggregateResponse) :
    Option AggregateFunction → Option (Dict Json)
  | none => r.groupBy
  | some function => r.bucket function

/-- A bucket holds the values of these fields and nothing else; without fields it is absent. -/
structure BucketOf (bucket : Option (Dict Json)) (fields : List String) (value : String → Json) :
    Prop where
  absent_iff : bucket = none ↔ fields = []
  sorted : (bucket.getD []).Sorted
  mem_keys_iff : ∀ key, key ∈ (bucket.getD []).keys ↔ key ∈ fields
  get?_eq : ∀ field ∈ fields, (bucket.getD []).get? field = some (value field)

namespace BucketOf

theorem absent {value : String → Json} : BucketOf none [] value where
  absent_iff := by simp
  sorted := Dict.sorted_nil
  mem_keys_iff := by simp [Dict.keys]
  get?_eq := by simp

/-- Noting the value of one more field, which may be there already. -/
theorem filled {bucket : Option (Dict Json)} {fields : List String} {value : String → Json}
    (h : BucketOf bucket fields value) (field : String) :
    BucketOf (AggregateResponse.fill bucket field (value field)) (fields ++ [field]) value where
  absent_iff := by simp [AggregateResponse.fill]
  sorted := Dict.sorted_insert h.sorted _ _
  mem_keys_iff key := by
    rw [AggregateResponse.fill, Option.getD_some, Dict.mem_keys_insert, h.mem_keys_iff,
      List.mem_append, List.mem_singleton, or_comm]
  get?_eq key hkey := by
    rw [AggregateResponse.fill, Option.getD_some, Dict.get?_insert h.sorted]
    split
    · next heq => rw [heq]
    · next hne =>
      have hold : key ∈ fields := by simpa [hne] using hkey
      exact h.get?_eq key hold

/-- Only which fields there are matters, not in which order or how often they are asked for. -/
theorem congr {bucket : Option (Dict Json)} {fields others : List String}
    {value : String → Json} (h : BucketOf bucket fields value)
    (hsame : ∀ field, field ∈ fields ↔ field ∈ others) : BucketOf bucket others value where
  absent_iff := by
    rw [h.absent_iff, List.eq_nil_iff_forall_not_mem, List.eq_nil_iff_forall_not_mem]
    exact forall_congr' fun field => not_congr (hsame field)
  sorted := h.sorted
  mem_keys_iff key := (h.mem_keys_iff key).trans (hsame key)
  get?_eq field hfield := h.get?_eq field ((hsame field).2 hfield)

end BucketOf

/-! ## Columns -/

namespace AggregateResponse

/-- Noting the value of a column fills its bucket and leaves the others. -/
theorem slot_putColumn (r : AggregateResponse) (c : AggregateColumn) (value : Json)
    (s : Option AggregateFunction) :
    (r.putColumn c value).slot s =
      if c.slot = s then fill (r.slot s) c.field value else r.slot s := by
  cases c with
  | group field =>
    cases s with
    | none => rfl
    | some g => cases g <;> rfl
  | apply f field =>
    cases s with
    | none => cases f <;> rfl
    | some g => cases f <;> cases g <;> rfl

end AggregateResponse

namespace AggregateColumn

/-- The fields of the columns that belong to a slot, in order. -/
def fieldsIn (s : Option AggregateFunction) (cs : List AggregateColumn) : List String :=
  (cs.filter (·.slot = s)).map field

theorem fieldsIn_append (s : Option AggregateFunction) (cs ds : List AggregateColumn) :
    fieldsIn s (cs ++ ds) = fieldsIn s cs ++ fieldsIn s ds := by
  rw [fieldsIn, List.filter_append, List.map_append]
  rfl

theorem mem_fieldsIn {s : Option AggregateFunction} {cs : List AggregateColumn} {name : String} :
    name ∈ fieldsIn s cs ↔ ofSlot s name ∈ cs := by
  rw [fieldsIn, List.mem_map]
  constructor
  · rintro ⟨c, hc, rfl⟩
    obtain ⟨hmem, hslot⟩ := List.mem_filter.1 hc
    rw [← of_decide_eq_true hslot, ofSlot_slot_field]
    exact hmem
  · intro h
    exact ⟨ofSlot s name, List.mem_filter.2 ⟨h, by simp⟩, field_ofSlot s name⟩

theorem fieldsIn_map_ofSlot (s t : Option AggregateFunction) (fields : List String) :
    fieldsIn s (fields.map (ofSlot t)) = if t = s then fields else [] := by
  induction fields with
  | nil => simp [fieldsIn]
  | cons field fields ih =>
    rw [List.map_cons, ← List.singleton_append, fieldsIn_append, ih]
    by_cases h : t = s
    · simp [fieldsIn, h]
    · simp [fieldsIn, h]

/-- The columns of a request slot by slot: groups first, then function by function. -/
theorem columns_eq (q : AggregateQuery) :
    q.columns = (none :: AggregateFunction.functions.map some).flatMap fun s =>
      (q.asked s).map (ofSlot s) := rfl

/-- A request keeps the fields of each slot as they were asked for. -/
theorem fieldsIn_columns (q : AggregateQuery) (s : Option AggregateFunction) :
    fieldsIn s q.columns = q.asked s := by
  rw [columns_eq]
  simp only [AggregateFunction.functions, List.map_cons, List.map_nil, List.flatMap_cons,
    List.flatMap_nil, fieldsIn_append, fieldsIn_map_ofSlot, List.append_nil]
  cases s with
  | none => simp
  | some f => cases f <;> simp

end AggregateColumn

/-! ## Rows -/

namespace AggregateResponse

/-- The response holds the values of these columns, each in its bucket, and nothing else. -/
def Holds (r : AggregateResponse) (value : String → Json) (cs : List AggregateColumn) : Prop :=
  ∀ s, BucketOf (r.slot s) (AggregateColumn.fieldsIn s cs) fun field =>
    value (AggregateColumn.ofSlot s field).name

theorem holds_empty (value : String → Json) : Holds {} value [] := by
  intro s
  cases s with
  | none => exact .absent
  | some f => cases f <;> exact .absent

theorem holds_putColumn {r : AggregateResponse} {value : String → Json}
    {seen : List AggregateColumn} (h : r.Holds value seen) (c : AggregateColumn) :
    (r.putColumn c (value c.name)).Holds value (seen ++ [c]) := by
  intro s
  rw [slot_putColumn, AggregateColumn.fieldsIn_append]
  split
  · next hslot =>
    subst hslot
    have hfill := (h c.slot).filled c.field
    have hfields : AggregateColumn.fieldsIn c.slot [c] = [c.field] := by
      simp [AggregateColumn.fieldsIn]
    rw [AggregateColumn.ofSlot_slot_field] at hfill
    rw [hfields]
    exact hfill
  · next hslot =>
    have hfields : AggregateColumn.fieldsIn s [c] = [] := by
      simp [AggregateColumn.fieldsIn, hslot]
    rw [hfields, List.append_nil]
    exact h s

/-- Noting the values of columns one after the other. -/
theorem putAll_columns {value : String → Json} (cs : List AggregateColumn) :
    ∀ {r : AggregateResponse} {seen : List AggregateColumn}, r.Holds value seen →
      ∃ r', r.putAll (cs.map fun c => (c.name, value c.name)) = .ok r' ∧
        r'.Holds value (seen ++ cs) := by
  induction cs with
  | nil =>
    intro r seen h
    refine ⟨r, rfl, ?_⟩
    rw [List.append_nil]
    exact h
  | cons c cs ih =>
    intro r seen h
    obtain ⟨r', hput, hr'⟩ := ih (holds_putColumn h c)
    refine ⟨r', ?_, ?_⟩
    · rw [List.map_cons, putAll, AggregateColumn.named, AggregateColumn.ofName?_name]
      exact hput
    · rw [List.append_cons]
      exact hr'

end AggregateResponse

/-- A row of the result: under the name of each column its value. -/
def AggregateQuery.row (q : AggregateQuery) (value : String → Json) : Dict Json :=
  Dict.ofEntries (q.columns.map fun c => (c.name, value c.name))

/-- The entries of a row are those of columns, the same as the request's but for order and
repetition. -/
theorem AggregateQuery.row_eq (q : AggregateQuery) (value : String → Json) :
    ∃ cs : List AggregateColumn, q.row value = cs.map (fun c => (c.name, value c.name)) ∧
      ∀ c, c ∈ cs ↔ c ∈ q.columns := by
  have hentries : ∀ entry ∈ q.row value,
      entry ∈ Set.range fun c : AggregateColumn => (c.name, value c.name) := by
    intro entry hentry
    obtain ⟨c, -, hc⟩ := List.mem_map.1 (Dict.mem_of_mem_ofEntries hentry)
    exact ⟨c, hc⟩
  obtain ⟨cs, hcs⟩ : q.row value ∈ Set.range (List.map fun c : AggregateColumn =>
      (c.name, value c.name)) := by
    rw [Set.range_list_map]
    exact hentries
  refine ⟨cs, hcs.symm, fun c => ?_⟩
  have hnames : ∀ ds : List AggregateColumn,
      c ∈ ds ↔ c.name ∈ (ds.map fun c => (c.name, value c.name)).map Prod.fst := by
    intro ds
    simp only [List.map_map, List.mem_map, Function.comp_apply]
    constructor
    · intro hc
      exact ⟨c, hc, rfl⟩
    · rintro ⟨d, hd, hname⟩
      rw [← AggregateColumn.name_injective hname]
      exact hd
  rw [hnames cs, hcs, hnames q.columns]
  exact Dict.mem_keys_ofEntries

namespace AggregateResponse

/-- The response answers a request under an assignment of values to the names of columns: each
bucket holds the fields asked for there, each with the value of its own column. -/
def Answers (r : AggregateResponse) (q : AggregateQuery) (value : String → Json) : Prop :=
  ∀ s, BucketOf (r.slot s) (q.asked s) fun field => value (AggregateColumn.ofSlot s field).name

theorem ofRow_row (q : AggregateQuery) (value : String → Json) :
    ∃ r, ofRow (q.row value) = .ok r ∧ r.Answers q value := by
  obtain ⟨cs, hrow, hmem⟩ := q.row_eq value
  obtain ⟨r, hput, hr⟩ := putAll_columns cs (holds_empty value)
  refine ⟨r, ?_, fun s => (hr s).congr fun field => ?_⟩
  · rw [ofRow, hrow]
    exact hput
  · rw [← AggregateColumn.fieldsIn_columns, List.nil_append, AggregateColumn.mem_fieldsIn,
      AggregateColumn.mem_fieldsIn]
    exact hmem _

example : ofRow (({ groupBy := ["COUNT_a"], count := ["a", "a"] } : AggregateQuery).row .str) =
    .ok { groupBy := some [("COUNT_a", .str "GROUP_BY_COUNT_a")],
          count := some [("a", .str "COUNT_a")] } := rfl

theorem ofRows_rows (requests : List (AggregateQuery × (String → Json))) :
    ∃ rs, ofRows (requests.map fun request => request.1.row request.2) = .ok rs ∧
      List.Forall₂ (fun request r => r.Answers request.1 request.2) requests rs := by
  induction requests with
  | nil => exact ⟨[], rfl, .nil⟩
  | cons request requests ih =>
    obtain ⟨r, hrow, hr⟩ := ofRow_row request.1 request.2
    obtain ⟨rs, hrows, hrs⟩ := ih
    refine ⟨r :: rs, ?_, .cons hr hrs⟩
    rw [ofRows, Answer.mapM_eq_ok] at hrows ⊢
    exact .cons hrow hrows

/-- **Reading the rows of a result undoes the naming of its columns.** A row gives the response that
the request asks for, the columns keep the fields slot by slot as they were asked for, and rows are
read position by position. -/
theorem rows_answer_requests :
    (∀ (q : AggregateQuery) (value : String → Json),
      ∃ r, ofRow (q.row value) = .ok r ∧ r.Answers q value) ∧
    (∀ q : AggregateQuery,
      q.columns = q.groupBy.map .group ++ (q.count.map (.apply .count) ++
        (q.sum.map (.apply .sum) ++ (q.avg.map (.apply .avg) ++ (q.max.map (.apply .max) ++
          q.min.map (.apply .min))))) ∧
      ∀ s, AggregateColumn.fieldsIn s q.columns = q.asked s) ∧
    ∀ requests : List (AggregateQuery × (String → Json)),
      ∃ rs, ofRows (requests.map fun request => request.1.row request.2) = .ok rs ∧
        List.Forall₂ (fun request r => r.Answers request.1 request.2) requests rs := by
  refine ⟨ofRow_row, fun q => ⟨?_, AggregateColumn.fieldsIn_columns q⟩, ofRows_rows⟩
  simp [AggregateQuery.columns, AggregateFunction.functions, AggregateQuery.fields]

end AggregateResponse

end EntityQuery
