import EntityQuery.Aggregate.Column
import EntityQuery.Proofs.Relation.Restricting
import EntityQuery.Selection.Batch

/-!
# Making the jobs of a batch

All jobs of a batch are made before the first one runs. What can be wrong with a batch is said by
`Schema.Refuses`, in order of precedence: its relation is not declared, its query is wrong, or one
of its sources has no key or cannot be linked (`Schema.SourceFault`), and of several such sources
the first counts. A batch with which nothing is wrong has one job for every source, in the order of
the sources (`requested_of_not_refused`); any other runs nothing and comes to the error that is
first in order (`requested_of_refused`). Both hold of the rows and of the aggregates behind a
relation, which differ in the query and in what is done with the rows (`batch_all_or_nothing`).
-/

namespace EntityQuery

namespace Batch

/-! ## The job of a source -/

/-- The job of one source of a batch, which reads its key and then links it. -/
def sourceJob {α : Type} (schema : Schema) (entity : String) (relation : Relation)
    (keys : List String) (select : Predicate → α) (source : Json) : Answer (Job α) := do
  let values ← Record.keyValues source entity keys
  let condition ← relation.link schema entity source
  return ⟨Record.keyText values, select condition⟩

variable {α : Type} {schema : Schema} {entity : String} {relation : Relation}
  {keys : List String} {select : Predicate → α}

theorem jobs_eq_mapM (sources : List Json) :
    jobs schema entity relation keys select sources =
      sources.mapM (sourceJob schema entity relation keys select) := by
  induction sources with
  | nil => rfl
  | cons source sources ih =>
    rw [jobs, ih, List.mapM_cons, sourceJob]
    cases Record.keyValues source entity keys with
    | error e => rfl
    | ok values => cases relation.link schema entity source <;> rfl

theorem sourceJob_eq_ok {source : Json} {job : Job α} :
    sourceJob schema entity relation keys select source = .ok job ↔
      ∃ values condition, Record.keyValues source entity keys = .ok values ∧
        relation.link schema entity source = .ok condition ∧
        job = ⟨Record.keyText values, select condition⟩ := by
  rw [sourceJob]
  simp only [Answer.bind_eq_ok, Answer.pure_eq, Except.ok.injEq]
  constructor
  · rintro ⟨values, hvalues, condition, hcondition, rfl⟩
    exact ⟨values, condition, hvalues, hcondition, rfl⟩
  · rintro ⟨values, condition, hvalues, hcondition, rfl⟩
    exact ⟨values, hvalues, condition, hcondition, rfl⟩

/-- The key is read before the source is linked. -/
theorem sourceJob_eq_error {source : Json} {e : QueryError} :
    sourceJob schema entity relation keys select source = .error e ↔
      Record.keyValues source entity keys = .error e ∨
      (∃ values, Record.keyValues source entity keys = .ok values) ∧
        relation.link schema entity source = .error e := by
  rw [sourceJob]
  cases Record.keyValues source entity keys with
  | error d => simp
  | ok values => cases relation.link schema entity source <;> simp

end Batch

namespace Schema

/-! ## What can be wrong with a batch -/

/-- Why there is no job for a source: a column of its primary key is missing, or else it cannot be
linked. -/
inductive SourceFault (schema : Schema) (entity relation : String) (source : Json) :
    QueryError → Prop
  | key {before after : List String} {key : String}
      (declared : schema.primaryKeys entity = .ok (before ++ key :: after))
      (present : ∀ k ∈ before, (Record.present? source k).isSome = true)
      (missing : Record.present? source key = none) :
      SourceFault schema entity relation source (.missingPrimaryKey entity key)
  | link {keys : List String} {e : QueryError} (declared : schema.primaryKeys entity = .ok keys)
      (present : ∀ k ∈ keys, (Record.present? source k).isSome = true)
      (failed : schema.link entity source relation = .error e) :
      SourceFault schema entity relation source e

/-- Why a batch runs nothing, where `wrong` says what is wrong with its query. -/
inductive Refuses (schema : Schema) (entity : String) (sources : List Json) (relation : String)
    (wrong : QueryError → Prop) : QueryError → Prop
  | undeclared (missing : schema.relation? entity relation = none) :
      Refuses schema entity sources relation wrong (.relationNotFound entity relation)
  | query {e : QueryError} (declared : (schema.relation? entity relation).isSome = true)
      (fault : wrong e) : Refuses schema entity sources relation wrong e
  | source {before after : List Json} {source : Json} {e : QueryError}
      (declared : (schema.relation? entity relation).isSome = true) (right : ∀ d, ¬wrong d)
      (split : sources = before ++ source :: after)
      (earlier : ∀ other ∈ before, ∀ d, ¬SourceFault schema entity relation other d)
      (fault : SourceFault schema entity relation source e) :
      Refuses schema entity sources relation wrong e

variable {schema : Schema} {entity relation : String} {found : Relation}

/-- An entity type that declares a relation is known, so its primary keys are. -/
theorem exists_primaryKeys (h : schema.relation? entity relation = some found) :
    ∃ keys, schema.primaryKeys entity = .ok keys := by
  obtain ⟨owner, howner, -⟩ := Option.bind_eq_some_iff.1 h
  exact ⟨owner.primaryKeys, by rw [primaryKeys, howner]⟩

section Jobs

variable {α : Type} {keys : List String} {source : Json}

theorem sourceJob_eq_error_iff (select : Predicate → α)
    (hfound : schema.relation? entity relation = some found)
    (hkeys : schema.primaryKeys entity = .ok keys) {e : QueryError} :
    Batch.sourceJob schema entity found keys select source = .error e ↔
      SourceFault schema entity relation source e := by
  rw [Batch.sourceJob_eq_error, Record.keyValues_eq_error_iff, ← link_of_declared hfound]
  constructor
  · rintro (⟨before, key, after, rfl, hpresent, hmissing, rfl⟩ | ⟨⟨values, hvalues⟩, hfailed⟩)
    · exact .key hkeys hpresent hmissing
    · refine .link hkeys (fun k hk => ?_) hfailed
      obtain ⟨value, -, hvalue⟩ :=
        Pairing.exists_of_mem_right (Record.keyValues_eq_ok_iff.1 hvalues).flip hk
      rw [hvalue]
      rfl
  · intro hfault
    cases hfault with
    | key hdeclared hpresent hmissing =>
      cases hkeys.symm.trans hdeclared
      exact .inl ⟨_, _, _, rfl, hpresent, hmissing, rfl⟩
    | link hdeclared hpresent hfailed =>
      cases hkeys.symm.trans hdeclared
      exact .inr ⟨⟨_, Record.keyValues_eq_ok entity hpresent⟩, hfailed⟩

theorem exists_sourceJob_iff (select : Predicate → α)
    (hfound : schema.relation? entity relation = some found)
    (hkeys : schema.primaryKeys entity = .ok keys) :
    (∃ job, Batch.sourceJob schema entity found keys select source = .ok job) ↔
      ∀ e, ¬SourceFault schema entity relation source e := by
  simp only [← sourceJob_eq_error_iff select hfound hkeys]
  cases Batch.sourceJob schema entity found keys select source <;> simp

end Jobs

/-! ## Making a batch -/

/-- The jobs for the sources of a batch, where `prepare` makes ready what is asked of the rows
behind a relation, and `select` adds the condition of a link to it. -/
def requested {α β : Type} (schema : Schema) (entity : String) (sources : List Json)
    (relation : String) (prepare : Relation → Answer β) (select : β → Predicate → α) :
    Answer (List (Job α)) := do
  let found ← schema.relation entity relation
  let base ← prepare found
  let keys ← schema.primaryKeys entity
  Batch.jobs schema entity found keys (select base) sources

section Requested

variable {α β : Type} {sources : List Json} {prepare : Relation → Answer β}
  {select : β → Predicate → α} {wrong : QueryError → Prop}

theorem requested_of_refused (hprepare : ∀ found e, prepare found = .error e ↔ wrong e)
    {e : QueryError} (h : Refuses schema entity sources relation wrong e) :
    schema.requested entity sources relation prepare select = .error e := by
  rw [requested]
  cases h with
  | undeclared hmissing => rw [relation_eq_error hmissing, Answer.error_bind]
  | query hdeclared hfault =>
    obtain ⟨found, hfound⟩ := Option.isSome_iff_exists.1 hdeclared
    rw [relation_eq_ok.2 hfound, Answer.ok_bind, (hprepare found e).2 hfault, Answer.error_bind]
  | @source before after source _ hdeclared hright hsplit hearlier hfault =>
    obtain ⟨found, hfound⟩ := Option.isSome_iff_exists.1 hdeclared
    obtain ⟨keys, hkeys⟩ := exists_primaryKeys hfound
    rw [relation_eq_ok.2 hfound, Answer.ok_bind]
    cases hbase : prepare found with
    | error d => exact absurd ((hprepare found d).1 hbase) (hright d)
    | ok base =>
      rw [Answer.ok_bind, hkeys, Answer.ok_bind, Batch.jobs_eq_mapM, Answer.mapM_eq_error]
      exact ⟨before, source, after, hsplit,
        fun other hother => (exists_sourceJob_iff _ hfound hkeys).2 (hearlier other hother),
        (sourceJob_eq_error_iff _ hfound hkeys).2 hfault⟩

theorem requested_of_not_refused (select : β → Predicate → α)
    (hprepare : ∀ found e, prepare found = .error e ↔ wrong e)
    (h : ∀ e, ¬Refuses schema entity sources relation wrong e) :
    ∃ found keys base jobs, schema.relation? entity relation = some found ∧
      schema.primaryKeys entity = .ok keys ∧ prepare found = .ok base ∧
      schema.requested entity sources relation prepare select = .ok jobs ∧
      List.Forall₂ (fun source job =>
        Batch.sourceJob schema entity found keys (select base) source = .ok job) sources jobs := by
  cases hfound : schema.relation? entity relation with
  | none => exact absurd (.undeclared hfound) (h _)
  | some found =>
    have hdeclared : (schema.relation? entity relation).isSome = true := by rw [hfound]; rfl
    obtain ⟨keys, hkeys⟩ := exists_primaryKeys hfound
    cases hbase : prepare found with
    | error d => exact absurd (.query hdeclared ((hprepare found d).1 hbase)) (h d)
    | ok base =>
      -- what was made ready is not wrong, since `prepare` fails on everything that is
      have hright : ∀ d, ¬wrong d := by
        intro d hd
        have hwrong := (hprepare found d).2 hd
        rw [hbase] at hwrong
        cases hwrong
      have hrequested : schema.requested entity sources relation prepare select =
          sources.mapM (Batch.sourceJob schema entity found keys (select base)) := by
        rw [requested, relation_eq_ok.2 hfound, Answer.ok_bind, hbase, Answer.ok_bind, hkeys,
          Answer.ok_bind, Batch.jobs_eq_mapM]
      cases hjobs : sources.mapM (Batch.sourceJob schema entity found keys (select base)) with
      | ok jobs =>
        exact ⟨found, keys, base, jobs, rfl, hkeys, hbase, hrequested.trans hjobs,
          Answer.mapM_eq_ok.1 hjobs⟩
      | error e =>
        obtain ⟨before, source, after, hsplit, hearlier, hfault⟩ := Answer.mapM_eq_error.1 hjobs
        exact absurd (.source hdeclared hright hsplit
          (fun other hother => (exists_sourceJob_iff _ hfound hkeys).1 (hearlier other hother))
          ((sourceJob_eq_error_iff _ hfound hkeys).1 hfault)) (h e)

end Requested

/-- Each job stands under the text of its source's key. -/
theorem forall₂_relationJobs {sources : List Json} {query : Query} {jobs : List (Job Selection)}
    (h : schema.relationJobs entity sources relation query = .ok jobs) :
    ∃ keys, schema.primaryKeys entity = .ok keys ∧
      List.Forall₂ (fun source job => ∃ values, Record.keyValues source entity keys = .ok values ∧
        job.key = Record.keyText values) sources jobs := by
  obtain ⟨found, -, h⟩ := Answer.bind_eq_ok.1 h
  obtain ⟨base, -, h⟩ := Answer.bind_eq_ok.1 h
  obtain ⟨keys, hkeys, h⟩ := Answer.bind_eq_ok.1 h
  rw [Batch.jobs_eq_mapM] at h
  refine ⟨keys, hkeys, (Answer.mapM_eq_ok.1 h).imp fun source job hjob => ?_⟩
  obtain ⟨values, condition, hvalues, -, rfl⟩ := Batch.sourceJob_eq_ok.1 hjob
  exact ⟨values, hvalues, rfl⟩

end Schema

/-! ## What is executed, and what it comes to -/

/-- A selection asks a query of the rows of an entity type that a condition links. -/
structure Query.Asked (query : Query) (target : String) (condition : Predicate)
    (selection : Selection) : Prop where
  entity_eq : selection.entity = target
  predicate_eq : ∃ compiled, query.filter.compile = .ok compiled ∧
    selection.predicate = .allOf [compiled, condition]
  sorting_eq : selection.sorting = query.sorting
  limit_eq : selection.limit = query.paging.limit
  offset_eq : selection.offset = query.paging.offset.getD 0

/-- A selection asks for aggregates of the rows of an entity type that a condition links. -/
structure AggregateQuery.Asked (query : AggregateQuery) (filter : Filter) (target : String)
    (condition : Predicate) (selection : AggregateSelection) : Prop where
  entity_eq : selection.entity = target
  predicate_eq : ∃ compiled, filter.compile = .ok compiled ∧
    selection.predicate = .allOf [compiled, condition]
  columns_ne : query.columns ≠ []
  columns_eq : selection.columns = query.columns
  groupBy_eq : selection.groupBy = query.groupBy
  sorting_eq : selection.sorting = query.groupBy.map fun field => { field }

/-- What is wrong with a request for aggregates: nothing is requested, or else its filter does not
compile. -/
def AggregateQuery.Wrong (query : AggregateQuery) (filter : Filter) (e : QueryError) : Prop :=
  query.columns = [] ∧ e = .noAggregateFields ∨ query.columns ≠ [] ∧ filter.compile = .error e

theorem AggregateQuery.isEmpty_iff (query : AggregateQuery) :
    query.isEmpty = true ↔ query.columns = [] := by
  simp [isEmpty, columns, fields, AggregateFunction.functions]

theorem Query.select_eq_error {query : Query} {schema : Schema} {target : String}
    {e : QueryError} : query.select schema target = .error e ↔ query.filter.compile = .error e := by
  rw [select]
  cases query.filter.compile <;> simp

theorem AggregateQuery.select_eq_error {query : AggregateQuery} {schema : Schema} {target : String}
    {filter : Filter} {e : QueryError} :
    query.select schema target filter = .error e ↔ query.Wrong filter e := by
  have hcolumns := query.isEmpty_iff
  rw [select, Wrong]
  by_cases hempty : query.isEmpty = true
  · rw [if_pos hempty]
    simp [hcolumns.1 hempty, eq_comm]
  · rw [if_neg hempty]
    have hsome : query.columns ≠ [] := mt hcolumns.2 hempty
    cases filter.compile <;> simp [hsome]

theorem Query.asked_restrict {query : Query} {schema : Schema} {target : String} {base : Selection}
    (h : query.select schema target = .ok base) (condition : Predicate) :
    query.Asked target condition (base.restrict schema condition) := by
  obtain ⟨compiled, hcompiled, h⟩ := Answer.bind_eq_ok.1 h
  cases h
  exact ⟨rfl, ⟨compiled, hcompiled, rfl⟩, rfl, rfl, rfl⟩

theorem AggregateQuery.asked_restrict {query : AggregateQuery} {schema : Schema} {target : String}
    {filter : Filter} {base : AggregateSelection}
    (h : query.select schema target filter = .ok base) (condition : Predicate) :
    query.Asked filter target condition (base.restrict schema condition) := by
  rw [select] at h
  by_cases hempty : query.isEmpty = true
  · rw [if_pos hempty] at h
    cases h
  · rw [if_neg hempty] at h
    obtain ⟨compiled, hcompiled, h⟩ := Answer.bind_eq_ok.1 h
    cases h
    exact ⟨rfl, ⟨compiled, hcompiled, rfl⟩, mt query.isEmpty_iff.2 hempty, rfl, rfl, rfl⟩

/-- A run of a batch is all or nothing: with a reason to refuse it nothing is executed and that is
the error, and with none there is one call for every source, in order, and the run comes to what
these calls end in, each under the key of its source. -/
structure BatchRun.AllOrNothing {α β : Type} (run : BatchRun α β) (sources : List Json)
    (execute : α → Outcome) (refuses : QueryError → Prop) (asks : Json → α → Prop)
    (keyed : Json → String → Prop) (comesTo : List (String × Outcome) → Answer β) : Prop where
  refused : ∀ e, refuses e → run = .refused e
  executed : (∀ e, ¬refuses e) → List.Forall₂ asks sources run.executed
  settled : (∀ e, ¬refuses e) → ∃ keys, List.Forall₂ keyed sources keys ∧
    run.result = comesTo (keys.zip (run.executed.map execute))

/-- What is done with the result of a run does not matter to its calls. -/
theorem BatchRun.AllOrNothing.andThen {α β γ : Type} {run : BatchRun α β} {sources : List Json}
    {execute : α → Outcome} {refuses : QueryError → Prop} {asks : Json → α → Prop}
    {keyed : Json → String → Prop} {comesTo : List (String × Outcome) → Answer β}
    (h : run.AllOrNothing sources execute refuses asks keyed comesTo) (next : β → Answer γ) :
    (run.andThen next).AllOrNothing sources execute refuses asks keyed (comesTo · >>= next) where
  refused e he := by
    rw [h.refused e he]
    rfl
  executed := h.executed
  settled hnone := by
    obtain ⟨keys, hkeyed, hresult⟩ := h.settled hnone
    exact ⟨keys, hkeyed, congrArg (· >>= next) hresult⟩

namespace Schema

/-- A selection asks for the rows behind a relation that are linked to a source. -/
def AsksLinked {α : Type} (schema : Schema) (entity relation : String)
    (asked : String → Predicate → α → Prop) (source : Json) (selection : α) : Prop :=
  ∃ found condition, schema.relation? entity relation = some found ∧
    schema.link entity source relation = .ok condition ∧ asked found.target condition selection

/-- A text is that of the primary key of a source. -/
def KeyedBy (schema : Schema) (entity : String) (source : Json) (key : String) : Prop :=
  ∃ keys values, schema.primaryKeys entity = .ok keys ∧
    Record.keyValues source entity keys = .ok values ∧ key = Record.keyText values

variable {schema : Schema} {entity relation : String} {sources : List Json}

section SourceJob

variable {α : Type} {found : Relation} {keys : List String} {select : Predicate → α}
  {source : Json} {job : Job α}

theorem asksLinked_of_sourceJob {asked : String → Predicate → α → Prop}
    (hfound : schema.relation? entity relation = some found)
    (hasked : ∀ condition, asked found.target condition (select condition))
    (h : Batch.sourceJob schema entity found keys select source = .ok job) :
    schema.AsksLinked entity relation asked source job.selection := by
  obtain ⟨values, condition, -, hlink, rfl⟩ := Batch.sourceJob_eq_ok.1 h
  exact ⟨found, condition, hfound, (link_of_declared hfound source).trans hlink, hasked condition⟩

theorem keyedBy_of_sourceJob (hkeys : schema.primaryKeys entity = .ok keys)
    (h : Batch.sourceJob schema entity found keys select source = .ok job) :
    schema.KeyedBy entity source job.key := by
  obtain ⟨values, condition, hvalues, -, rfl⟩ := Batch.sourceJob_eq_ok.1 h
  exact ⟨keys, values, hkeys, hvalues, rfl⟩

end SourceJob

theorem allOrNothing_requested {α β : Type} {prepare : Relation → Answer β}
    {select : β → Predicate → α} {wrong : QueryError → Prop} {asked : String → Predicate → α → Prop}
    (hprepare : ∀ found e, prepare found = .error e ↔ wrong e)
    (hasked : ∀ {found base}, prepare found = .ok base →
      ∀ condition, asked found.target condition (select base condition))
    (execute : α → Outcome) :
    (BatchRun.ofJobs relation execute
      (schema.requested entity sources relation prepare select)).AllOrNothing sources execute
      (Refuses schema entity sources relation wrong) (schema.AsksLinked entity relation asked)
      (schema.KeyedBy entity) (Batch.settle relation) where
  refused e he := by
    rw [requested_of_refused hprepare he]
    rfl
  executed hnone := by
    obtain ⟨found, keys, base, jobs, hfound, -, hbase, hmade, heach⟩ :=
      requested_of_not_refused select hprepare hnone
    rw [hmade]
    show List.Forall₂ _ sources (jobs.map (·.selection))
    rw [List.forall₂_map_right_iff]
    exact heach.imp fun _ _ => asksLinked_of_sourceJob hfound (hasked hbase)
  settled hnone := by
    obtain ⟨found, keys, base, jobs, -, hkeys, -, hmade, heach⟩ :=
      requested_of_not_refused select hprepare hnone
    rw [hmade]
    refine ⟨jobs.map (·.key), ?_, ?_⟩
    · rw [List.forall₂_map_right_iff]
      exact heach.imp fun _ _ => keyedBy_of_sourceJob hkeys
    · show Batch.settle relation _ =
        Batch.settle relation ((jobs.map (·.key)).zip ((jobs.map (·.selection)).map execute))
      rw [List.map_map, List.zip_map']
      rfl

/-- **A batch is all or nothing.** Loading and aggregating refuse a batch before the first call,
with what is wrong first; or else they make one call for every source, in whose selection the query
stands as it is, restricted to the rows that the source is linked to. A batch that is not refused
comes to what these calls settle to under the keys of their sources, and one of aggregates to what
is decoded of that in the order of visiting. -/
theorem batch_all_or_nothing (schema : Schema) (entity : String) (sources : List Json)
    (relation : String) :
    (∀ (query : Query) (execute : Selection → Outcome),
      (schema.loadRelation entity sources relation query execute).AllOrNothing sources execute
        (Refuses schema entity sources relation (query.filter.compile = .error ·))
        (schema.AsksLinked entity relation query.Asked)
        (schema.KeyedBy entity) (Batch.settle relation)) ∧
    ∀ (filter : Filter) (query : AggregateQuery) (execute : AggregateSelection → Outcome)
      (visiting : Visiting (List Row)),
      (schema.aggregateRelation entity sources relation filter query execute
          visiting).AllOrNothing sources execute
        (Refuses schema entity sources relation (query.Wrong filter))
        (schema.AsksLinked entity relation (query.Asked filter))
        (schema.KeyedBy entity) (Batch.settle relation · >>= Batch.decodeAll visiting) := by
  constructor
  · intro query execute
    have hjobs : schema.relationJobs entity sources relation query =
        schema.requested entity sources relation (fun found => query.select schema found.target)
          (·.restrict schema) := rfl
    rw [loadRelation, hjobs]
    exact allOrNothing_requested (fun _ _ => Query.select_eq_error) Query.asked_restrict execute
  · intro filter query execute visiting
    have hjobs : schema.aggregateJobs entity sources relation filter query =
        schema.requested entity sources relation
          (fun found => query.select schema found.target filter) (·.restrict schema) := rfl
    rw [aggregateRelation, hjobs]
    exact (allOrNothing_requested (fun _ _ => AggregateQuery.select_eq_error)
      AggregateQuery.asked_restrict execute).andThen (Batch.decodeAll visiting)

/-- An order of the shop in the north that was not given its number. -/
def unnumbered : Json := .obj [("shop", .str "north")]

/-- The lines of an order are asked for and come under its key, unless an order without a number is
there as well. -/
theorem batch_of_orders :
    (shops.loadRelation "Order" [seventhOrder] "lines" {} fun _ => .rows []).executed.length = 1 ∧
    (shops.loadRelation "Order" [seventhOrder] "lines" {} fun _ => .rows []).result =
      .ok [("north|7", [])] ∧
    shops.loadRelation "Order" [seventhOrder, unnumbered] "lines" {} (fun _ => .rows []) =
      .refused (.missingPrimaryKey "Order" "number") := by
  have hright : ∀ e, ({} : Query).filter.compile ≠ .error e := by
    intro e h
    cases h
  have hnone : ∀ e, ¬SourceFault shops "Order" "lines" seventhOrder e := by
    intro e hfault
    have hfound : shops.relation? "Order" "lines" = some orderOfLine.backward := rfl
    have hkeys : shops.primaryKeys "Order" = .ok orderOfLine.keys := rfl
    have hjob := (sourceJob_eq_error_iff id hfound hkeys).2 hfault
    cases hjob
  have hfine : ∀ e, ¬Refuses shops "Order" [seventhOrder] "lines"
      (({} : Query).filter.compile = .error ·) e := by
    intro e hrefuses
    cases hrefuses with
    | undeclared hmissing => cases hmissing
    | query hdeclared hfault => exact hright e hfault
    | @source before after source _ hdeclared hquery hsplit hearlier hfault =>
      have hmem : source ∈ [seventhOrder] := by rw [hsplit]; simp
      rw [List.mem_singleton.1 hmem] at hfault
      exact hnone e hfault
  have hbatch := (batch_all_or_nothing shops "Order" [seventhOrder] "lines").1 {} fun _ => .rows []
  refine ⟨(hbatch.executed hfine).length_eq.symm, ?_, ?_⟩
  · obtain ⟨keys, hkeyed, hresult⟩ := hbatch.settled hfine
    obtain _ | ⟨⟨columns, values, hcolumns, hvalues, rfl⟩, hrest⟩ := hkeyed
    cases hrest
    cases hcolumns
    cases hvalues
    rw [hresult]
    rfl
  · have hkeys : shops.primaryKeys "Order" = .ok (["shop"] ++ "number" :: []) := rfl
    have hfault : SourceFault shops "Order" "lines" unnumbered
        (.missingPrimaryKey "Order" "number") := .key hkeys (by decide) rfl
    have hsplit : [seventhOrder, unnumbered] = [seventhOrder] ++ unnumbered :: [] := rfl
    have hearlier : ∀ other ∈ [seventhOrder], ∀ e, ¬SourceFault shops "Order" "lines" other e := by
      intro other hother
      rw [List.mem_singleton.1 hother]
      exact hnone
    exact ((batch_all_or_nothing shops "Order" _ "lines").1 {} fun _ => .rows []).refused _
      (.source rfl hright hsplit hearlier hfault)

end Schema

end EntityQuery
