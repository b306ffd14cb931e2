import EntityQuery.Selection.Dispatch
import Mathlib.Data.List.Induction
import Mathlib.Data.List.Nodup
import Mathlib.Data.List.Perm.Subperm
import Mathlib.Data.List.Range

/-!
# The tasks of a batch under way

What an event needs to happen and what it does is said once for each kind of event (`step?_start`,
`step?_call`, `step?_finish`, `step?_join`). From that the tasks stand at any time as the events
before have left them: `Tracks` holds of every run (`tracks_of_run?`).
-/

namespace EntityQuery.Dispatch

variable {α : Type} {relation : String} {jobs : List (Job α)} {s t : Dispatch}
  {events : List Event}

/-! ## One step -/

theorem step?_start : step? relation jobs s .start = some t ↔
    s.tasks.length < jobs.length ∧ t = { s with tasks := s.tasks ++ [.waiting] } := by
  rw [step?]
  split
  · next hlt => simp [hlt, eq_comm]
  · next hlt => simp [hlt]

theorem step?_call {job : Nat} : step? relation jobs s (.call job) = some t ↔
    s.tasks[job]? = some .waiting ∧ t = { s with tasks := s.tasks.set job .running } := by
  rw [step?]
  split
  · next htask => simp [htask, eq_comm]
  · next hother =>
    constructor
    · intro h
      cases h
    · rintro ⟨htask, -⟩
      exact absurd htask hother

theorem step?_finish {job : Nat} {outcome : Outcome} :
    step? relation jobs s (.finish job outcome) = some t ↔
      s.tasks[job]? = some .running ∧ t = { s with tasks := s.tasks.set job (.ended outcome) } := by
  rw [step?]
  split
  · next htask => simp [htask, eq_comm]
  · next hother =>
    constructor
    · intro h
      cases h
    · rintro ⟨htask, -⟩
      exact absurd htask hother

theorem step?_join : step? relation jobs s .join = some t ↔
    s.tasks.length = jobs.length ∧ ∃ job outcome, jobs[s.joined]? = some job ∧
      s.tasks[s.joined]? = some (.ended outcome) ∧ t = s.collect relation job.key outcome := by
  rw [step?]
  split
  · next hall =>
    split
    · next job outcome hjob htask =>
      rw [hjob, htask]
      constructor
      · intro h
        cases h
        exact ⟨hall, job, outcome, rfl, rfl, rfl⟩
      · rintro ⟨-, _, _, hjob', htask', rfl⟩
        cases hjob'
        cases htask'
        rfl
    · next hother =>
      constructor
      · intro h
        cases h
      · rintro ⟨-, job, outcome, hjob, htask, -⟩
        exact absurd htask (hother job outcome hjob)
  · next hall => simp [hall]

theorem run?_append (first second : List Event) :
    run? relation jobs s (first ++ second) =
      (run? relation jobs s first).bind fun t => run? relation jobs t second :=
  List.foldlM_append

theorem run?_concat {event : Event} : run? relation jobs s (events ++ [event]) = some t ↔
    ∃ between, run? relation jobs s events = some between ∧
      step? relation jobs between event = some t := by
  rw [run?_append, Option.bind_eq_some_iff]
  refine exists_congr fun between => and_congr_right fun _ => ?_
  show (step? relation jobs between event).bind some = some t ↔ _
  rw [Option.bind_fun_some]

@[simp] theorem collect_tasks (key : String) (outcome : Outcome) :
    (s.collect relation key outcome).tasks = s.tasks := by
  cases outcome <;> rfl

@[simp] theorem collect_joined (key : String) (outcome : Outcome) :
    (s.collect relation key outcome).joined = s.joined + 1 := by
  cases outcome <;> rfl

theorem collect_firstError (key : String) (outcome : Outcome) :
    (s.collect relation key outcome).firstError =
      s.firstError.or (Batch.errorOf? relation key outcome) := by
  cases outcome with
  | rows rows => exact Option.or_none.symm
  | failed error => rfl
  | brokeOff report => rfl

/-! ## Tasks and events -/

theorem getElem?_set_of {tasks : List Task} {job : Nat} {old : Task} (h : tasks[job]? = some old)
    (new : Task) (i : Nat) : (tasks.set job new)[i]? = if i = job then some new else tasks[i]? := by
  have hlt : job < tasks.length := (List.getElem?_eq_some_iff.1 h).1
  rw [List.getElem?_set]
  by_cases hi : i = job
  · rw [if_pos hi.symm, if_pos hi, if_pos hlt]
  · rw [if_neg (Ne.symm hi), if_neg hi]

/-- A task that is not waiting was there before the last start. -/
theorem getElem?_concat_waiting {tasks : List Task} {i : Nat} {task : Task}
    (h : task ≠ .waiting) : (tasks ++ [.waiting])[i]? = some task ↔ tasks[i]? = some task := by
  by_cases hi : i < tasks.length
  · rw [List.getElem?_append_left hi]
  · have hlen : tasks.length ≤ i := Nat.le_of_not_lt hi
    rw [List.getElem?_append_right hlen, List.getElem?_eq_none hlen]
    constructor
    · intro htask
      exact absurd (List.mem_singleton.1 (List.mem_of_getElem? htask)) h
    · intro htask
      cases htask

theorem calls_append (first second : List Event) :
    calls (first ++ second) = calls first ++ calls second := List.filterMap_append

theorem endings_append (first second : List Event) :
    endings (first ++ second) = endings first ++ endings second := List.filterMap_append

/-- The tasks stand as the events have left them. -/
structure Tracks (jobs : List (Job α)) (events : List Event) (s : Dispatch) : Prop where
  started_le : s.tasks.length ≤ jobs.length
  mem_calls : ∀ job, job ∈ calls events ↔ ∃ task, s.tasks[job]? = some task ∧ task ≠ .waiting
  nodup_calls : (calls events).Nodup
  mem_endings : ∀ outcome job,
    (outcome, job) ∈ endings events ↔ s.tasks[job]? = some (.ended outcome)
  nodup_endings : ((endings events).map Prod.snd).Nodup
  length_eq : events.length =
    s.tasks.length + (calls events).length + (endings events).length + s.joined

theorem tracks_nil : Tracks jobs [] {} where
  started_le := Nat.zero_le _
  mem_calls job := by simp [calls]
  nodup_calls := List.nodup_nil
  mem_endings outcome job := by simp [endings]
  nodup_endings := List.nodup_nil
  length_eq := rfl

/-- An event that neither calls nor ends a job changes at most which tasks are waiting. -/
theorem Tracks.of_quiet (h : Tracks jobs events s) {event : Event} (hcall : calls [event] = [])
    (hending : endings [event] = []) (hle : t.tasks.length ≤ jobs.length)
    (htasks : ∀ (job : Nat) (task : Task), task ≠ .waiting →
      (t.tasks[job]? = some task ↔ s.tasks[job]? = some task))
    (hcount : t.tasks.length + t.joined = s.tasks.length + s.joined + 1) :
    Tracks jobs (events ++ [event]) t := by
  have hcalls : calls (events ++ [event]) = calls events := by
    rw [calls_append, hcall, List.append_nil]
  have hendings : endings (events ++ [event]) = endings events := by
    rw [endings_append, hending, List.append_nil]
  constructor
  case started_le => exact hle
  case mem_calls =>
    intro job
    rw [hcalls, h.mem_calls]
    refine exists_congr fun task => and_congr_left fun htask => ?_
    exact (htasks job task htask).symm
  case nodup_calls =>
    rw [hcalls]
    exact h.nodup_calls
  case mem_endings =>
    intro outcome job
    rw [hendings, h.mem_endings]
    exact (htasks job _ (by simp)).symm
  case nodup_endings =>
    rw [hendings]
    exact h.nodup_endings
  case length_eq =>
    have hlength := h.length_eq
    rw [hcalls, hendings, List.length_append, List.length_singleton]
    omega

theorem Tracks.start (h : Tracks jobs events s) (hlt : s.tasks.length < jobs.length) :
    Tracks jobs (events ++ [.start]) { s with tasks := s.tasks ++ [.waiting] } := by
  have hlength : (s.tasks ++ [Task.waiting]).length = s.tasks.length + 1 := List.length_append
  refine h.of_quiet rfl rfl ?_ (fun job task htask => getElem?_concat_waiting htask) ?_
  · rw [hlength]
    exact hlt
  · rw [hlength]
    exact Nat.add_right_comm ..

theorem Tracks.join (h : Tracks jobs events s) (key : String) (outcome : Outcome) :
    Tracks jobs (events ++ [.join]) (s.collect relation key outcome) := by
  refine h.of_quiet rfl rfl ?_ ?_ ?_
  · rw [collect_tasks]
    exact h.started_le
  · intro job task _
    rw [collect_tasks]
  · rw [collect_tasks, collect_joined, Nat.add_assoc]

theorem Tracks.call (h : Tracks jobs events s) {job : Nat} (htask : s.tasks[job]? = some .waiting) :
    Tracks jobs (events ++ [.call job]) { s with tasks := s.tasks.set job .running } := by
  have hcalls : calls (events ++ [.call job]) = calls events ++ [job] := calls_append ..
  have hendings : endings (events ++ [.call job]) = endings events := by
    rw [endings_append]
    exact List.append_nil _
  have hset := getElem?_set_of htask .running
  -- who has called is not waiting any more
  have hnew : job ∉ calls events := by
    intro hmem
    obtain ⟨task, hother, hne⟩ := (h.mem_calls job).1 hmem
    rw [htask] at hother
    cases hother
    exact hne rfl
  constructor
  case started_le =>
    rw [List.length_set]
    exact h.started_le
  case mem_calls =>
    intro i
    rw [hcalls, List.mem_append, List.mem_singleton, h.mem_calls, hset]
    by_cases hi : i = job
    · rw [if_pos hi]
      simp [hi]
    · rw [if_neg hi]
      simp [hi]
  case nodup_calls =>
    rw [hcalls, List.nodup_append]
    refine ⟨h.nodup_calls, List.nodup_singleton _, ?_⟩
    rintro i hi j hj rfl
    rw [List.mem_singleton] at hj
    exact hnew (hj ▸ hi)
  case mem_endings =>
    intro outcome i
    rw [hendings, h.mem_endings, hset]
    by_cases hi : i = job
    · rw [if_pos hi, hi, htask]
      simp
    · rw [if_neg hi]
  case nodup_endings =>
    rw [hendings]
    exact h.nodup_endings
  case length_eq =>
    have hlength := h.length_eq
    rw [hcalls, hendings, List.length_append, List.length_append, List.length_set]
    simp only [List.length_singleton]
    omega

theorem Tracks.finish (h : Tracks jobs events s) {job : Nat} {outcome : Outcome}
    (htask : s.tasks[job]? = some .running) :
    Tracks jobs (events ++ [.finish job outcome])
      { s with tasks := s.tasks.set job (.ended outcome) } := by
  have hcalls : calls (events ++ [.finish job outcome]) = calls events := by
    rw [calls_append]
    exact List.append_nil _
  have hendings : endings (events ++ [.finish job outcome]) =
      endings events ++ [(outcome, job)] := endings_append ..
  have hset := getElem?_set_of htask (.ended outcome)
  -- who has ended is not running any more
  have hnew : ∀ o, (o, job) ∉ endings events := by
    intro o hmem
    have hother := (h.mem_endings o job).1 hmem
    rw [htask] at hother
    cases hother
  constructor
  case started_le =>
    rw [List.length_set]
    exact h.started_le
  case mem_calls =>
    intro i
    rw [hcalls, h.mem_calls, hset]
    by_cases hi : i = job
    · rw [if_pos hi, hi, htask]
      simp
    · rw [if_neg hi]
  case nodup_calls =>
    rw [hcalls]
    exact h.nodup_calls
  case mem_endings =>
    intro o i
    rw [hendings, List.mem_append, List.mem_singleton, h.mem_endings, hset]
    by_cases hi : i = job
    · rw [if_pos hi, hi, htask]
      simp [eq_comm]
    · rw [if_neg hi]
      simp [hi]
  case nodup_endings =>
    rw [hendings, List.map_append, List.nodup_append]
    refine ⟨h.nodup_endings, List.nodup_singleton _, ?_⟩
    rintro i hi j hj rfl
    obtain ⟨⟨o, k⟩, hmem, rfl⟩ := List.mem_map.1 hi
    have hk : k = job := by simpa using hj
    exact hnew o (hk ▸ hmem)
  case length_eq =>
    have hlength := h.length_eq
    rw [hcalls, hendings, List.length_append, List.length_append, List.length_set]
    simp only [List.length_singleton]
    omega

theorem tracks_of_run? (h : run? relation jobs {} events = some s) : Tracks jobs events s := by
  induction events using List.reverseRecOn generalizing s with
  | nil =>
    cases h
    exact tracks_nil
  | append_singleton events event ih =>
    obtain ⟨between, hrun, hstep⟩ := run?_concat.1 h
    have htracks := ih hrun
    cases event with
    | start =>
      obtain ⟨hlt, rfl⟩ := step?_start.1 hstep
      exact htracks.start hlt
    | call job =>
      obtain ⟨htask, rfl⟩ := step?_call.1 hstep
      exact htracks.call htask
    | finish job outcome =>
      obtain ⟨htask, rfl⟩ := step?_finish.1 hstep
      exact htracks.finish htask
    | join =>
      obtain ⟨-, job, outcome, -, -, rfl⟩ := step?_join.1 hstep
      exact htracks.join job.key outcome

/-! ## Counting -/

theorem Tracks.length_calls_le (h : Tracks jobs events s) :
    (calls events).length ≤ s.tasks.length := by
  have hsub : calls events ⊆ List.range s.tasks.length := by
    intro job hjob
    obtain ⟨task, htask, -⟩ := (h.mem_calls job).1 hjob
    exact List.mem_range.2 (List.getElem?_eq_some_iff.1 htask).1
  simpa using (h.nodup_calls.subperm hsub).length_le

theorem Tracks.length_endings_le (h : Tracks jobs events s) :
    (endings events).length ≤ s.tasks.length := by
  have hsub : (endings events).map Prod.snd ⊆ List.range s.tasks.length := by
    intro job hjob
    obtain ⟨⟨outcome, i⟩, hmem, rfl⟩ := List.mem_map.1 hjob
    have htask := (h.mem_endings outcome i).1 hmem
    exact List.mem_range.2 (List.getElem?_eq_some_iff.1 htask).1
  simpa using (h.nodup_endings.subperm hsub).length_le

theorem Tracks.perm_calls {outcomes : List Outcome} (h : Tracks jobs events s)
    (htasks : s.tasks = outcomes.map .ended) :
    (calls events).Perm (List.range outcomes.length) := by
  rw [List.perm_ext_iff_of_nodup h.nodup_calls List.nodup_range]
  intro job
  rw [h.mem_calls, htasks, List.mem_range]
  constructor
  · rintro ⟨task, htask, -⟩
    have hlt := (List.getElem?_eq_some_iff.1 htask).1
    rw [List.length_map] at hlt
    exact hlt
  · intro hlt
    refine ⟨.ended outcomes[job], ?_, by simp⟩
    rw [List.getElem?_map, List.getElem?_eq_getElem hlt]
    rfl

theorem Tracks.perm_endings {outcomes : List Outcome} (h : Tracks jobs events s)
    (htasks : s.tasks = outcomes.map .ended) : (endings events).Perm outcomes.zipIdx := by
  have hzip : outcomes.zipIdx.Nodup := by
    refine List.Nodup.of_map Prod.snd ?_
    rw [List.zipIdx_map_snd]
    exact List.nodup_range'
  rw [List.perm_ext_iff_of_nodup (List.Nodup.of_map _ h.nodup_endings) hzip]
  rintro ⟨outcome, job⟩
  rw [h.mem_endings, htasks, List.getElem?_map, List.mk_mem_zipIdx_iff_getElem?]
  simp

end EntityQuery.Dispatch
