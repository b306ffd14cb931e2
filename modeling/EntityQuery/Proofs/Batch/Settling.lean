import EntityQuery.Proofs.Dict.Entries
import EntityQuery.Selection.Batch

/-!
# What a batch comes to

`Batch.settle` puts together how the jobs of a batch ended, in the order of their sources. It comes
to an error exactly when some job did not end in rows, and then to that of the first such job
(`settle_eq_error`). Otherwise it is a dictionary of all rows (`settle_eq_ok`), in which the last
job with a key counts (`get?_settle`), so that rows are lost exactly when a key is repeated
(`length_settle`). `ComesTo` says the same without a computation (`comesTo_settle`).
-/

namespace EntityQuery.Batch

variable {relation : String} {ended : List (String × Outcome)} {d : Dict (List Row)}

theorem errorOf?_eq_none {key : String} {outcome : Outcome} :
    errorOf? relation key outcome = none ↔ ∃ rows, outcome = .rows rows := by
  cases outcome <;> simp [errorOf?]

theorem settle_eq_error {e : QueryError} :
    settle relation ended = .error e ↔ ∃ before key outcome after,
      ended = before ++ (key, outcome) :: after ∧
      (∀ earlier ∈ before, ∃ rows, earlier.2 = .rows rows) ∧
      errorOf? relation key outcome = some e := by
  have hfirst : settle relation ended = .error e ↔
      (ended.findSome? fun job => errorOf? relation job.1 job.2) = some e := by
    rw [settle]
    split
    · next error hfound =>
      -- taking a job apart comes to its two projections
      have herror : (ended.findSome? fun job => errorOf? relation job.1 job.2) = some error :=
        hfound
      simp [herror]
    · next hnone =>
      have hnone : (ended.findSome? fun job => errorOf? relation job.1 job.2) = none := hnone
      simp [hnone]
  rw [hfirst, List.findSome?_eq_some_iff]
  simp only [errorOf?_eq_none]
  constructor
  · rintro ⟨before, ⟨key, outcome⟩, after, hsplit, herror, hbefore⟩
    exact ⟨before, key, outcome, after, hsplit, hbefore, herror⟩
  · rintro ⟨before, key, outcome, after, hsplit, hbefore, herror⟩
    exact ⟨before, (key, outcome), after, hsplit, herror, hbefore⟩

/-- Jobs that all ended in rows are the entries that a dictionary is written from. -/
theorem exists_entries (h : ∀ job ∈ ended, ∃ rows, job.2 = .rows rows) :
    ∃ entries : List (String × List Row),
      ended = entries.map fun entry => (entry.1, Outcome.rows entry.2) := by
  induction ended with
  | nil => exact ⟨[], rfl⟩
  | cons job ended ih =>
    obtain ⟨⟨rows, hrows⟩, hrest⟩ := List.forall_mem_cons.1 h
    obtain ⟨entries, rfl⟩ := ih hrest
    refine ⟨(job.1, rows) :: entries, ?_⟩
    rw [List.map_cons, ← hrows]

theorem settle_rows (entries : List (String × List Row)) :
    settle relation (entries.map fun entry => (entry.1, .rows entry.2)) =
      .ok (Dict.ofEntries entries) := by
  have hnone : (entries.map fun entry => (entry.1, Outcome.rows entry.2)).findSome?
      (fun job => errorOf? relation job.1 job.2) = none := by
    rw [List.findSome?_eq_none_iff]
    intro job hjob
    obtain ⟨entry, -, rfl⟩ := List.mem_map.1 hjob
    rfl
  have hentries : (entries.map fun entry => (entry.1, Outcome.rows entry.2)).filterMap
      (fun job => entryOf? job.1 job.2) = entries := by
    rw [List.filterMap_map]
    exact List.filterMap_some
  rw [settle]
  split
  · next found hfound => cases hnone.symm.trans hfound
  · exact congrArg (fun entries => Except.ok (Dict.ofEntries entries)) hentries

theorem settle_eq_ok :
    settle relation ended = .ok d ↔ ∃ entries : List (String × List Row),
      ended = (entries.map fun entry => (entry.1, Outcome.rows entry.2)) ∧
      d = Dict.ofEntries entries := by
  constructor
  · intro h
    have hrows : ∀ job ∈ ended, ∃ rows, job.2 = .rows rows := by
      intro job hjob
      rw [settle] at h
      split at h
      · cases h
      · next hnone => exact errorOf?_eq_none.1 (List.findSome?_eq_none_iff.1 hnone job hjob)
    obtain ⟨entries, rfl⟩ := exists_entries hrows
    rw [settle_rows] at h
    cases h
    exact ⟨entries, rfl, rfl⟩
  · rintro ⟨entries, rfl, rfl⟩
    exact settle_rows entries

theorem get?_settle (h : settle relation ended = .ok d) {key : String} {rows : List Row} :
    Dict.get? d key = some rows ↔ ∃ before after, ended = before ++ (key, .rows rows) :: after ∧
      ∀ later ∈ after, later.1 ≠ key := by
  obtain ⟨entries, rfl, rfl⟩ := settle_eq_ok.1 h
  rw [Dict.get?_ofEntries_eq_some]
  constructor
  · rintro ⟨before, after, rfl, hafter⟩
    refine ⟨_, _, List.map_append.trans rfl, fun later hlater => ?_⟩
    obtain ⟨entry, hentry, rfl⟩ := List.mem_map.1 hlater
    exact hafter entry hentry
  · rintro ⟨before, after, hsplit, hafter⟩
    -- the outcomes are split where the entries they come from are
    obtain ⟨first, rest, rfl, rfl, hrest⟩ := List.map_eq_append_iff.1 hsplit
    obtain ⟨⟨k, v⟩, last, rfl, hentry, rfl⟩ := List.map_eq_cons_iff.1 hrest
    cases hentry
    exact ⟨first, last, rfl, fun entry hentry => hafter _ (List.mem_map_of_mem hentry)⟩

theorem mem_keys_settle (h : settle relation ended = .ok d) {key : String} :
    key ∈ d.keys ↔ key ∈ ended.map Prod.fst := by
  obtain ⟨entries, rfl, rfl⟩ := settle_eq_ok.1 h
  rw [Dict.mem_keys_ofEntries, List.map_map]
  rfl

theorem length_settle (h : settle relation ended = .ok d) :
    d.length = ended.length ↔ (ended.map Prod.fst).Nodup := by
  obtain ⟨entries, rfl, rfl⟩ := settle_eq_ok.1 h
  rw [List.length_map, Dict.length_ofEntries_eq_iff, List.map_map]
  rfl

/-- The answer of a batch, given how the job of each source ended. -/
inductive ComesTo (relation : String) (ended : List (String × Outcome)) :
    Answer (Dict (List Row)) → Prop
  | failed {before after : List (String × Outcome)} {key : String} {error : QueryError}
      (split : ended = before ++ (key, .failed error) :: after)
      (earlier : ∀ job ∈ before, ∃ rows, job.2 = .rows rows) :
      ComesTo relation ended (.error error)
  | brokeOff {before after : List (String × Outcome)} {key : String} {report : Option String}
      (split : ended = before ++ (key, .brokeOff report) :: after)
      (earlier : ∀ job ∈ before, ∃ rows, job.2 = .rows rows) :
      ComesTo relation ended (.error (.brokeOff key relation report))
  | rows {d : Dict (List Row)} (all : ∀ job ∈ ended, ∃ rows, job.2 = .rows rows)
      (sorted : d.Sorted) (mem_keys : ∀ key, key ∈ d.keys ↔ key ∈ ended.map Prod.fst)
      (found : ∀ key rows, Dict.get? d key = some rows ↔
        ∃ before after, ended = before ++ (key, .rows rows) :: after ∧
          ∀ later ∈ after, later.1 ≠ key) :
      ComesTo relation ended (.ok d)

theorem comesTo_settle (relation : String) (ended : List (String × Outcome)) :
    ComesTo relation ended (settle relation ended) := by
  cases h : settle relation ended with
  | error e =>
    obtain ⟨before, key, outcome, after, hsplit, hbefore, herror⟩ := settle_eq_error.1 h
    cases outcome with
    | rows rows => cases herror
    | failed error =>
      cases herror
      exact .failed hsplit hbefore
    | brokeOff report =>
      cases herror
      exact .brokeOff hsplit hbefore
  | ok d =>
    obtain ⟨entries, hended, hd⟩ := settle_eq_ok.1 h
    refine .rows ?_ ?_ (fun key => mem_keys_settle h) fun key rows => get?_settle h
    · intro job hjob
      rw [hended] at hjob
      obtain ⟨entry, -, rfl⟩ := List.mem_map.1 hjob
      exact ⟨entry.2, rfl⟩
    · rw [hd]
      exact Dict.sorted_ofEntries entries

end EntityQuery.Batch
