import EntityQuery.Relation.Link
import EntityQuery.Selection.Basic

/-!
# Loading for many sources at once

Every source of a batch gets a job of its own: the selection of the query on the related entity
type, restricted to the rows linked to the source. All jobs are made before the first one runs, so a
batch that cannot be made runs nothing. Once they run, every job runs; jobs may end in any order,
and what the batch comes to depends only on how each of them ended (`Batch.settle`). Where the rows
are decoded afterwards, their keys are visited in an order that nothing is known about
(`Visiting`), and the first rows that cannot be decoded end it.
-/

namespace EntityQuery

/-- A row of a result. -/
abbrev Row := Dict Json

/-- An order in which the entries of dictionaries are visited. -/
structure Visiting (α : Type) where
  entries : Dict α → List (String × α)
  perm : ∀ d, (entries d).Perm d

/-- The order of the keys. -/
def Visiting.inKeyOrder {α : Type} : Visiting α := ⟨id, fun _ => .refl _⟩

/-- How a job ended. -/
inductive Outcome
  | rows (rows : List Row)
  | failed (error : QueryError)
  /-- it broke off, leaving a report if it could -/
  | brokeOff (report : Option String)

/-- A selection on behalf of the source with a key. -/
structure Job (α : Type) where
  key : String
  selection : α

namespace Batch

/-- The jobs for sources in order, from the selection of the rows a condition links. A source's key
is read before it is linked, and the first source that fails is the one reported. -/
def jobs {α : Type} (schema : Schema) (entity : String) (relation : Relation)
    (keys : List String) (select : Predicate → α) : List Json → Answer (List (Job α))
  | [] => .ok []
  | source :: sources => do
    let values ← Record.keyValues source entity keys
    let condition ← relation.link schema entity source
    let rest ← jobs schema entity relation keys select sources
    return ⟨Record.keyText values, select condition⟩ :: rest

/-- The error that an outcome comes to, if it is one. -/
def errorOf? (relation key : String) : Outcome → Option QueryError
  | .rows _ => none
  | .failed error => some error
  | .brokeOff report => some (.brokeOff key relation report)

/-- The rows of an outcome under its key. -/
def entryOf? (key : String) : Outcome → Option (String × List Row)
  | .rows rows => some (key, rows)
  | _ => none

/-- What a batch comes to, given how the job of each source ended, in the order of the sources: the
first error, or else the rows under the key of each source. Of sources with one key the last
stands. -/
def settle (relation : String) (ended : List (String × Outcome)) : Answer (Dict (List Row)) :=
  match ended.findSome? fun (key, outcome) => errorOf? relation key outcome with
  | some error => .error error
  | none => .ok (Dict.ofEntries (ended.filterMap fun (key, outcome) => entryOf? key outcome))

/-- Decodes the rows under a key. -/
def decode (entry : String × List Row) : Answer (String × List AggregateResponse) := do
  let responses ← AggregateResponse.ofRows entry.2
  return (entry.1, responses)

/-- Decodes the rows under every key, one key after the other as they are visited. -/
def decodeAll (visiting : Visiting (List Row)) (d : Dict (List Row)) :
    Answer (Dict (List AggregateResponse)) := do
  let decoded ← (visiting.entries d).mapM decode
  return Dict.ofEntries decoded

end Batch

/-- A batch that has been run: the selections that were executed, and what came of it. -/
structure BatchRun (α β : Type) where
  executed : List α
  result : Answer β

namespace BatchRun

/-- A batch that could not be made. -/
def refused {α β : Type} (error : QueryError) : BatchRun α β := ⟨[], .error error⟩

/-- Runs the jobs of a batch that could be made. -/
def ofJobs {α : Type} (relation : String) (execute : α → Outcome) :
    Answer (List (Job α)) → BatchRun α (Dict (List Row))
  | .error error => refused error
  | .ok jobs => ⟨jobs.map (·.selection),
      Batch.settle relation (jobs.map fun job => (job.key, execute job.selection))⟩

/-- Goes on from what came of a batch. -/
def andThen {α β γ : Type} (run : BatchRun α β) (next : β → Answer γ) : BatchRun α γ :=
  ⟨run.executed, run.result >>= next⟩

end BatchRun

namespace Schema

/-- The jobs that load the rows behind a relation of each source. -/
def relationJobs (schema : Schema) (entity : String) (sources : List Json) (relation : String)
    (query : Query) : Answer (List (Job Selection)) := do
  let found ← schema.relation entity relation
  let base ← query.select schema found.target
  let keys ← schema.primaryKeys entity
  Batch.jobs schema entity found keys (base.restrict schema) sources

/-- The rows behind a relation of each source, under the key of the source. -/
def loadRelation (schema : Schema) (entity : String) (sources : List Json) (relation : String)
    (query : Query) (execute : Selection → Outcome) : BatchRun Selection (Dict (List Row)) :=
  .ofJobs relation execute (schema.relationJobs entity sources relation query)

/-- The jobs that aggregate the rows behind a relation of each source. -/
def aggregateJobs (schema : Schema) (entity : String) (sources : List Json) (relation : String)
    (filter : Filter) (query : AggregateQuery) : Answer (List (Job AggregateSelection)) := do
  let found ← schema.relation entity relation
  let base ← query.select schema found.target filter
  let keys ← schema.primaryKeys entity
  Batch.jobs schema entity found keys (base.restrict schema) sources

/-- The aggregates of the rows behind a relation of each source, under the key of the source. Rows
are decoded once all jobs have ended well, and then in any order of their keys. -/
def aggregateRelation (schema : Schema) (entity : String) (sources : List Json)
    (relation : String) (filter : Filter) (query : AggregateQuery)
    (execute : AggregateSelection → Outcome) (visiting : Visiting (List Row) := .inKeyOrder) :
    BatchRun AggregateSelection (Dict (List AggregateResponse)) :=
  (BatchRun.ofJobs relation execute
    (schema.aggregateJobs entity sources relation filter query)).andThen (Batch.decodeAll visiting)

end Schema

end EntityQuery
