import EntityQuery.Proofs.Aggregate.Grammar
import EntityQuery.Proofs.Batch.Settling

/-!
# Decoding the rows of a batch

The rows of a batch of aggregates are decoded key by key, in an order that nothing is known about.
Where all of them can be decoded the order leaves no trace (`decodeAll_eq_ok`). Otherwise it ends at
the first key visited whose rows cannot be (`decodeAll_eq_error`), and as every key is visited first
in some order, each of these may be the one that is reported (`exists_decodeAll_eq_error`). So an
error can be foretold only where all that is wrong is wrong alike (`decodeAll_congr_iff`), and a
batch does not always report the earliest of its sources (`aggregateRelation_decodes`).
-/

namespace EntityQuery

/-! ## Orders -/

namespace Visiting

variable {α : Type}

/-- The order in which a key is visited before all others. -/
def first (key : String) : Visiting α where
  entries d := d.filter (·.1 == key) ++ d.filter (!·.1 == key)
  perm d := List.filter_append_perm (·.1 == key) d

theorem exists_entries_first {d : Dict α} (hd : d.Sorted) {entry : String × α} (h : entry ∈ d) :
    ∃ rest, (first entry.1).entries d = entry :: rest := by
  have hmem : entry ∈ d.filter (·.1 == entry.1) := List.mem_filter.2 ⟨h, beq_self_eq_true _⟩
  cases hfilter : d.filter (·.1 == entry.1) with
  | nil => simp [hfilter] at hmem
  | cons other rest =>
    have hfound : other ∈ d.filter (·.1 == entry.1) := by
      rw [hfilter]
      exact List.mem_cons_self
    obtain ⟨hother, hkey⟩ := List.mem_filter.1 hfound
    -- no key is repeated, so the first entry under this one is the entry
    have hsame : other = entry :=
      List.inj_on_of_nodup_map (Dict.nodup_keys hd) hother h (beq_iff_eq.1 hkey)
    refine ⟨rest ++ d.filter (!·.1 == entry.1), ?_⟩
    show d.filter (·.1 == entry.1) ++ _ = _
    rw [hfilter, hsame, List.cons_append]

end Visiting

/-! ## One key -/

/-- The complaint about rows is that about the first of them with a name that spells no column. -/
theorem AggregateResponse.ofRows_eq_error {rows : List Row} (h : ∀ row ∈ rows, Dict.Sorted row)
    {e : QueryError} : ofRows rows = .error e ↔ ∃ before row after, rows = before ++ row :: after ∧
      (∀ earlier ∈ before, ∀ name ∈ Dict.keys earlier, AggregateColumn.Spelled name) ∧
      ∃ name ∈ Dict.keys row, ¬AggregateColumn.Spelled name ∧
        (∀ other ∈ Dict.keys row, other < name → AggregateColumn.Spelled other) ∧
        e = .unknownAggregate name := by
  rw [ofRows, Answer.mapM_eq_error]
  simp only [exists_ofRow_eq_ok]
  constructor
  · rintro ⟨before, row, after, rfl, hbefore, hrow⟩
    exact ⟨before, row, after, rfl, hbefore, (ofRow_eq_error (h row (by simp))).1 hrow⟩
  · rintro ⟨before, row, after, rfl, hbefore, hrow⟩
    exact ⟨before, row, after, rfl, hbefore, (ofRow_eq_error (h row (by simp))).2 hrow⟩

namespace Batch

variable {visiting : Visiting (List Row)} {d : Dict (List Row)} {e : QueryError}

theorem decode_eq_ok {entry : String × List Row} {decoded : String × List AggregateResponse} :
    decode entry = .ok decoded ↔
      decoded.1 = entry.1 ∧ AggregateResponse.ofRows entry.2 = .ok decoded.2 := by
  obtain ⟨key, responses⟩ := decoded
  rw [decode]
  simp only [Answer.bind_eq_ok, Answer.pure_eq, Except.ok.injEq, Prod.mk.injEq]
  constructor
  · rintro ⟨_, hresponses, rfl, rfl⟩
    exact ⟨rfl, hresponses⟩
  · rintro ⟨rfl, hresponses⟩
    exact ⟨_, hresponses, rfl, rfl⟩

theorem exists_decode_eq_ok {entry : String × List Row} : (∃ decoded, decode entry = .ok decoded) ↔
    ∃ responses, AggregateResponse.ofRows entry.2 = .ok responses := by
  rw [decode]
  cases AggregateResponse.ofRows entry.2 <;> simp

theorem decode_eq_error {entry : String × List Row} :
    decode entry = .error e ↔ AggregateResponse.ofRows entry.2 = .error e := by
  rw [decode]
  cases AggregateResponse.ofRows entry.2 <;> simp

/-! ## All keys -/

variable {decoded : Dict (List AggregateResponse)}

theorem keys_of_decode (h : List.Forall₂ (fun entry r => decode entry = .ok r) d decoded) :
    decoded.keys = d.keys :=
  (Pairing.map_eq_map h fun _ _ hentry => (decode_eq_ok.1 hentry).1.symm).symm

theorem sorted_of_decode (hd : d.Sorted)
    (h : List.Forall₂ (fun entry r => decode entry = .ok r) d decoded) : decoded.Sorted := by
  rw [Dict.Sorted, keys_of_decode h]
  exact hd

/-- What is decoded stands under the keys of the rows, whatever the order. -/
theorem decodeAll_eq_ok (hd : d.Sorted) : decodeAll visiting d = .ok decoded ↔
    List.Forall₂ (fun entry r => decode entry = .ok r) d decoded := by
  constructor
  · intro h
    obtain ⟨visited, hvisited, h⟩ := Answer.bind_eq_ok.1 h
    obtain ⟨inOrder, hinOrder, hperm⟩ := List.perm_comp_forall₂ (visiting.perm d).symm
      (Answer.mapM_eq_ok.1 hvisited)
    rw [Dict.ofEntries_of_perm hperm.symm (sorted_of_decode hd hinOrder)] at h
    cases h
    exact hinOrder
  · intro h
    obtain ⟨visited, hvisited, hperm⟩ := List.perm_comp_forall₂ (visiting.perm d) h
    rw [decodeAll, Answer.mapM_eq_ok.2 hvisited, Answer.ok_bind, Answer.pure_eq,
      Dict.ofEntries_of_perm hperm (sorted_of_decode hd h)]

theorem decodeAll_congr (hd : d.Sorted) (h : decodeAll visiting d = .ok decoded)
    (other : Visiting (List Row)) : decodeAll other d = .ok decoded :=
  (decodeAll_eq_ok hd).2 ((decodeAll_eq_ok hd).1 h)

theorem get?_decodeAll (hd : d.Sorted) (h : decodeAll visiting d = .ok decoded) {key : String}
    {rows : List Row} (hrows : (key, rows) ∈ d) : ∃ responses,
      Dict.get? decoded key = some responses ∧ AggregateResponse.ofRows rows = .ok responses := by
  have hpaired := (decodeAll_eq_ok hd).1 h
  obtain ⟨⟨k, responses⟩, hmem, hdecode⟩ := Pairing.exists_of_mem_right hpaired.flip hrows
  obtain ⟨rfl, hresponses⟩ := decode_eq_ok.1 hdecode
  exact ⟨responses, (Dict.mem_iff_get? (sorted_of_decode hd hpaired)).1 hmem, hresponses⟩

theorem outcome_decodeAll : Answer.outcome (decodeAll visiting d) =
    Answer.outcome ((visiting.entries d).mapM decode) := by
  rw [decodeAll]
  cases (visiting.entries d).mapM decode <;> rfl

theorem exists_decodeAll_eq_ok (visiting : Visiting (List Row)) :
    (∃ decoded, decodeAll visiting d = .ok decoded) ↔
      ∀ entry ∈ d, ∃ responses, AggregateResponse.ofRows entry.2 = .ok responses := by
  rw [← Answer.outcome_eq_ok, outcome_decodeAll, Answer.outcome_eq_ok, Answer.exists_mapM_eq_ok]
  simp only [exists_decode_eq_ok, (visiting.perm d).mem_iff]

/-- The first rows visited that cannot be decoded are reported. -/
theorem decodeAll_eq_error : decodeAll visiting d = .error e ↔
    ∃ before entry after, visiting.entries d = before ++ entry :: after ∧
      (∀ earlier ∈ before, ∃ responses, AggregateResponse.ofRows earlier.2 = .ok responses) ∧
      AggregateResponse.ofRows entry.2 = .error e := by
  rw [← Answer.outcome_eq_error, outcome_decodeAll, Answer.outcome_eq_error, Answer.mapM_eq_error]
  simp only [exists_decode_eq_ok, decode_eq_error]

/-- Of several keys whose rows cannot be decoded, each is reported in some order. -/
theorem exists_decodeAll_eq_error (hd : d.Sorted) :
    (∃ visiting, decodeAll visiting d = .error e) ↔
      ∃ entry ∈ d, AggregateResponse.ofRows entry.2 = .error e := by
  constructor
  · rintro ⟨visiting, h⟩
    obtain ⟨before, entry, after, hsplit, -, herror⟩ := decodeAll_eq_error.1 h
    refine ⟨entry, (visiting.perm d).mem_iff.1 ?_, herror⟩
    rw [hsplit]
    simp
  · rintro ⟨entry, hentry, herror⟩
    obtain ⟨rest, hrest⟩ := Visiting.exists_entries_first hd hentry
    exact ⟨.first entry.1, decodeAll_eq_error.2 ⟨[], entry, rest, hrest, by simp, herror⟩⟩

example : decodeAll .inKeyOrder [("10", [[("total", .null)]]), ("9", [[("sum", .null)]])] =
      .error (.unknownAggregate "total") ∧
    decodeAll (.first "9") [("10", [[("total", .null)]]), ("9", [[("sum", .null)]])] =
      .error (.unknownAggregate "sum") := ⟨rfl, rfl⟩

/-- The order does not matter exactly when all that cannot be decoded fails alike. -/
theorem decodeAll_congr_iff (hd : d.Sorted) :
    (∀ visiting other, decodeAll visiting d = decodeAll other d) ↔
      ∀ entry ∈ d, ∀ other ∈ d, ∀ e e', AggregateResponse.ofRows entry.2 = .error e →
        AggregateResponse.ofRows other.2 = .error e' → e = e' := by
  constructor
  · intro hsame entry hentry other hother e e' he he'
    obtain ⟨visiting, h⟩ := (exists_decodeAll_eq_error hd).2 ⟨entry, hentry, he⟩
    obtain ⟨visiting', h'⟩ := (exists_decodeAll_eq_error hd).2 ⟨other, hother, he'⟩
    exact Except.error.inj (h.symm.trans ((hsame _ _).trans h'))
  · intro halike visiting other
    cases h : decodeAll visiting d with
    | ok decoded => exact (decodeAll_congr hd h other).symm
    | error e =>
      cases h' : decodeAll other d with
      | ok decoded => cases h.symm.trans (decodeAll_congr hd h' visiting)
      | error e' =>
        obtain ⟨entry, hentry, he⟩ := (exists_decodeAll_eq_error hd).1 ⟨_, h⟩
        obtain ⟨entry', hentry', he'⟩ := (exists_decodeAll_eq_error hd).1 ⟨_, h'⟩
        rw [halike entry hentry entry' hentry' e e' he he']

end Batch

/-! ## A batch of aggregates -/

namespace Schema

variable {schema : Schema} {entity relation : String} {sources : List Json} {filter : Filter}
  {query : AggregateQuery} {execute : AggregateSelection → Outcome}
  {answer : AggregateSelection → List Row} {jobs : List (Job AggregateSelection)}

theorem exists_rows_to_decode
    (hjobs : schema.aggregateJobs entity sources relation filter query = .ok jobs)
    (hkeys : (jobs.map (·.key)).Nodup)
    (hanswer : ∀ job ∈ jobs, execute job.selection = .rows (answer job.selection)) :
    ∃ d : Dict (List Row), d.Sorted ∧
      d.Perm (jobs.map fun job => (job.key, answer job.selection)) ∧
      ∀ visiting, (schema.aggregateRelation entity sources relation filter query execute
        visiting).result = Batch.decodeAll visiting d := by
  refine ⟨_, Dict.sorted_ofEntries _, Dict.perm_ofEntries (by rwa [List.map_map]),
    fun visiting => ?_⟩
  have hended : (jobs.map fun job => (job.key, execute job.selection)) =
      (jobs.map fun job => (job.key, answer job.selection)).map
        fun entry => (entry.1, Outcome.rows entry.2) := by
    rw [List.map_map]
    exact List.map_congr_left fun job hjob => congrArg _ (hanswer job hjob)
  rw [aggregateRelation, hjobs]
  show Batch.settle relation _ >>= Batch.decodeAll visiting = _
  rw [hended, Batch.settle_rows, Answer.ok_bind]

/-- **What a batch of aggregates comes to when every call gives rows.** Where all rows can be
decoded, each source finds those of its own call under its key, whatever the order in which keys are
visited. Otherwise each source whose rows cannot be decoded is the one reported in some order, and
no other source is in any. -/
theorem aggregateRelation_decodes
    (hjobs : schema.aggregateJobs entity sources relation filter query = .ok jobs)
    (hkeys : (jobs.map (·.key)).Nodup)
    (hanswer : ∀ job ∈ jobs, execute job.selection = .rows (answer job.selection)) :
    ((∀ job ∈ jobs, ∃ responses,
        AggregateResponse.ofRows (answer job.selection) = .ok responses) →
      ∃ decoded, (∀ visiting, (schema.aggregateRelation entity sources relation filter query execute
          visiting).result = .ok decoded) ∧
        decoded.length = jobs.length ∧
        ∀ job ∈ jobs, ∃ responses, Dict.get? decoded job.key = some responses ∧
          AggregateResponse.ofRows (answer job.selection) = .ok responses) ∧
    ∀ e, (∃ visiting, (schema.aggregateRelation entity sources relation filter query execute
        visiting).result = .error e) ↔
      ∃ job ∈ jobs, AggregateResponse.ofRows (answer job.selection) = .error e := by
  obtain ⟨d, hsorted, hperm, hresult⟩ := exists_rows_to_decode hjobs hkeys hanswer
  simp only [hresult]
  constructor
  · intro hall
    have heach : ∀ entry ∈ d, ∃ responses,
        AggregateResponse.ofRows entry.2 = .ok responses := by
      intro entry hentry
      obtain ⟨job, hjob, rfl⟩ := List.mem_map.1 (hperm.mem_iff.1 hentry)
      exact hall job hjob
    obtain ⟨decoded, hdecoded⟩ := (Batch.exists_decodeAll_eq_ok .inKeyOrder).2 heach
    have hlength := ((Batch.decodeAll_eq_ok hsorted).1 hdecoded).length_eq
    refine ⟨decoded, Batch.decodeAll_congr hsorted hdecoded, ?_, fun job hjob =>
      Batch.get?_decodeAll hsorted hdecoded (hperm.mem_iff.2 (List.mem_map_of_mem hjob))⟩
    rw [← hlength, hperm.length_eq, List.length_map]
  · intro e
    rw [Batch.exists_decodeAll_eq_error hsorted]
    simp only [hperm.mem_iff, List.mem_map, exists_exists_and_eq_and]

end Schema

end EntityQuery
