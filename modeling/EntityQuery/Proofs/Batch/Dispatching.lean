import EntityQuery.Proofs.Batch.Keeping
import EntityQuery.Proofs.Batch.Scheduling

/-!
# What jobs side by side come to

Every interleaving of the jobs of a batch goes on until all of them were joined (`exists_step?`,
`length_le_of_run?`), and then every job has called the store once and ended once, and the answer is
what `Batch.settle` makes of how they ended in the order of the sources (`answer_eq_settle`). The
order in which jobs end leaves no trace, because the results at any time are those of the tasks
joined so far (`Collected`), and tasks are joined in the order of the sources.
-/

namespace EntityQuery

namespace Dispatch

variable {α : Type} {relation : String} {jobs : List (Job α)} {s t : Dispatch}
  {events : List Event}

/-! ## What was joined -/

theorem zip_concat {β γ : Type} {keys : List β} {values : List γ} {key : β}
    (h : keys[values.length]? = some key) (value : γ) :
    keys.zip (values ++ [value]) = keys.zip values ++ [(key, value)] := by
  induction values generalizing keys with
  | nil =>
    cases keys with
    | nil => cases h
    | cons k keys =>
      cases h
      simp
  | cons v values ih =>
    cases keys with
    | nil => cases h
    | cons k keys =>
      have hrest : keys[values.length]? = some key := h
      rw [List.cons_append, List.zip_cons_cons, ih hrest, List.zip_cons_cons, List.cons_append]

/-- The keys of the first jobs, with the outcomes that these had. -/
def keyed (jobs : List (Job α)) (outcomes : List Outcome) : List (String × Outcome) :=
  (jobs.map (·.key)).zip outcomes

/-- The results are those of the tasks joined so far, `outcomes` in the order of the jobs. -/
structure Collected (relation : String) (jobs : List (Job α)) (s : Dispatch)
    (outcomes : List Outcome) : Prop where
  length_eq : outcomes.length = s.joined
  joined_le : s.joined ≤ jobs.length
  ended : ∀ (job : Nat) (outcome : Outcome),
    outcomes[job]? = some outcome → s.tasks[job]? = some (.ended outcome)
  results_eq : s.results = Dict.ofEntries
    ((keyed jobs outcomes).filterMap fun (key, outcome) => Batch.entryOf? key outcome)
  firstError_eq : s.firstError =
    (keyed jobs outcomes).findSome? fun (key, outcome) => Batch.errorOf? relation key outcome

theorem collected_nil : Collected relation jobs {} [] where
  length_eq := rfl
  joined_le := Nat.zero_le _
  ended job outcome h := by cases h
  results_eq := by rw [keyed, List.zip_nil_right]; rfl
  firstError_eq := by rw [keyed, List.zip_nil_right]; rfl

theorem getElem?_set_ended {tasks : List Task} {job : Nat} {old : Task} (h : tasks[job]? = some old)
    (hold : ∀ outcome, old ≠ .ended outcome) (new : Task) {i : Nat} {outcome : Outcome}
    (hi : tasks[i]? = some (.ended outcome)) : (tasks.set job new)[i]? = some (.ended outcome) := by
  have hne : i ≠ job := by
    rintro rfl
    rw [h] at hi
    exact hold outcome (Option.some.inj hi)
  rw [getElem?_set_of h, if_neg hne, hi]

theorem Collected.of_tasks {outcomes : List Outcome} (h : Collected relation jobs s outcomes)
    {tasks : List Task}
    (hkept : ∀ (job : Nat) (outcome : Outcome),
      s.tasks[job]? = some (.ended outcome) → tasks[job]? = some (.ended outcome)) :
    Collected relation jobs { s with tasks := tasks } outcomes :=
  { h with ended := fun job outcome houtcome => hkept job outcome (h.ended job outcome houtcome) }

theorem Collected.join {outcomes : List Outcome} (h : Collected relation jobs s outcomes)
    {job : Job α} {outcome : Outcome} (hjob : jobs[s.joined]? = some job)
    (htask : s.tasks[s.joined]? = some (.ended outcome)) :
    Collected relation jobs (s.collect relation job.key outcome) (outcomes ++ [outcome]) := by
  have hkey : (jobs.map (·.key))[outcomes.length]? = some job.key := by
    rw [List.getElem?_map, h.length_eq, hjob]
    rfl
  have hkeyed : keyed jobs (outcomes ++ [outcome]) = keyed jobs outcomes ++ [(job.key, outcome)] :=
    zip_concat hkey outcome
  constructor
  case length_eq => rw [collect_joined, List.length_append, h.length_eq, List.length_singleton]
  case joined_le =>
    rw [collect_joined]
    exact (List.getElem?_eq_some_iff.1 hjob).1
  case ended =>
    intro i o hi
    rw [collect_tasks]
    by_cases hlt : i < outcomes.length
    · rw [List.getElem?_append_left hlt] at hi
      exact h.ended i o hi
    · -- the outcome joined now stands behind those joined before
      have hlen : i < (outcomes ++ [outcome]).length := (List.getElem?_eq_some_iff.1 hi).1
      have hlast : i = outcomes.length := by
        rw [List.length_append, List.length_singleton] at hlen
        omega
      rw [hlast, List.getElem?_concat_length] at hi
      cases hi
      rw [hlast, h.length_eq]
      exact htask
  case results_eq =>
    rw [hkeyed, List.filterMap_append]
    cases outcome with
    | rows rows =>
      show s.results.insert job.key rows = _
      rw [h.results_eq]
      exact (Dict.ofEntries_concat _ job.key rows).symm
    | failed error =>
      show s.results = _
      rw [h.results_eq]
      exact congrArg Dict.ofEntries (List.append_nil _).symm
    | brokeOff report =>
      show s.results = _
      rw [h.results_eq]
      exact congrArg Dict.ofEntries (List.append_nil _).symm
  case firstError_eq =>
    rw [hkeyed, List.findSome?_append, collect_firstError, h.firstError_eq]
    cases outcome <;> rfl

theorem collected_of_run? (h : run? relation jobs {} events = some s) :
    ∃ outcomes, Collected relation jobs s outcomes := by
  induction events using List.reverseRecOn generalizing s with
  | nil =>
    cases h
    exact ⟨[], collected_nil⟩
  | append_singleton events event ih =>
    obtain ⟨between, hrun, hstep⟩ := run?_concat.1 h
    obtain ⟨outcomes, hcollected⟩ := ih hrun
    -- only joining adds an outcome; other events keep the tasks that have ended
    cases event with
    | start =>
      obtain ⟨-, rfl⟩ := step?_start.1 hstep
      refine ⟨outcomes, hcollected.of_tasks fun i outcome hended => ?_⟩
      exact (getElem?_concat_waiting (by simp)).2 hended
    | call job =>
      obtain ⟨hwaiting, rfl⟩ := step?_call.1 hstep
      refine ⟨outcomes, hcollected.of_tasks fun i outcome hended => ?_⟩
      exact getElem?_set_ended hwaiting (by simp) .running hended
    | finish job other =>
      obtain ⟨hrunning, rfl⟩ := step?_finish.1 hstep
      refine ⟨outcomes, hcollected.of_tasks fun i outcome hended => ?_⟩
      exact getElem?_set_ended hrunning (by simp) (.ended other) hended
    | join =>
      obtain ⟨-, job, outcome, hjob, htask, rfl⟩ := step?_join.1 hstep
      exact ⟨outcomes ++ [outcome], hcollected.join hjob htask⟩

/-! ## What every run comes to -/

/-- A batch that has not been answered can go on. -/
theorem exists_step? (h : run? relation jobs {} events = some s) (hopen : s.answer? jobs = none) :
    ∃ event t, step? relation jobs s event = some t := by
  have htracks := tracks_of_run? h
  obtain ⟨outcomes, hcollected⟩ := collected_of_run? h
  have hjoined : s.joined ≠ jobs.length := by
    intro hall
    rw [answer?, if_pos hall] at hopen
    cases hopen
  by_cases hlt : s.tasks.length < jobs.length
  · exact ⟨.start, _, step?_start.2 ⟨hlt, rfl⟩⟩
  have hall : s.tasks.length = jobs.length :=
    Nat.le_antisymm htracks.started_le (Nat.le_of_not_lt hlt)
  have hnext : s.joined < jobs.length := Nat.lt_of_le_of_ne hcollected.joined_le hjoined
  obtain ⟨job, hjob⟩ : ∃ job, jobs[s.joined]? = some job := ⟨_, List.getElem?_eq_getElem hnext⟩
  obtain ⟨task, htask⟩ : ∃ task, s.tasks[s.joined]? = some task :=
    ⟨_, List.getElem?_eq_getElem (hall ▸ hnext)⟩
  cases task with
  | waiting => exact ⟨.call s.joined, _, step?_call.2 ⟨htask, rfl⟩⟩
  | running => exact ⟨.finish s.joined (.rows []), _, step?_finish.2 ⟨htask, rfl⟩⟩
  | ended outcome => exact ⟨.join, _, step?_join.2 ⟨hall, job, outcome, hjob, htask, rfl⟩⟩

theorem length_le_of_run? (h : run? relation jobs {} events = some s) :
    events.length ≤ 4 * jobs.length := by
  have htracks := tracks_of_run? h
  obtain ⟨outcomes, hcollected⟩ := collected_of_run? h
  have hlength := htracks.length_eq
  have hstarted := htracks.started_le
  have hcalls := htracks.length_calls_le
  have hendings := htracks.length_endings_le
  have hjoined := hcollected.joined_le
  omega

/-- Once as many outcomes were collected as there are jobs, all tasks have ended with these. -/
theorem Collected.tasks_eq {outcomes : List Outcome} (h : Collected relation jobs s outcomes)
    (hle : s.tasks.length ≤ outcomes.length) : s.tasks = outcomes.map .ended := by
  refine List.ext_getElem? fun job => ?_
  rw [List.getElem?_map]
  by_cases hlt : job < outcomes.length
  · have houtcome := List.getElem?_eq_getElem hlt
    rw [houtcome]
    exact h.ended job _ houtcome
  · rw [List.getElem?_eq_none (Nat.le_of_not_lt hlt), List.getElem?_eq_none (by omega)]
    rfl

theorem Collected.answer?_eq {outcomes : List Outcome} (h : Collected relation jobs s outcomes)
    (hall : s.joined = jobs.length) :
    s.answer? jobs = some (Batch.settle relation (keyed jobs outcomes)) := by
  rw [answer?, if_pos hall, Batch.settle, ← h.results_eq]
  cases herror : s.firstError with
  | some error => rw [h.firstError_eq.symm.trans herror]
  | none => rw [h.firstError_eq.symm.trans herror]

/-- When a batch is answered every job has called the store once and ended once, and the answer is
what the outcomes come to in the order of the jobs. -/
theorem answer_eq_settle (h : run? relation jobs {} events = some s)
    {answer : Answer (Dict (List Row))} (hanswer : s.answer? jobs = some answer) :
    ∃ outcomes : List Outcome, outcomes.length = jobs.length ∧
      (calls events).Perm (List.range jobs.length) ∧ (endings events).Perm outcomes.zipIdx ∧
      answer = Batch.settle relation (keyed jobs outcomes) := by
  have htracks := tracks_of_run? h
  obtain ⟨outcomes, hcollected⟩ := collected_of_run? h
  have hall : s.joined = jobs.length := by
    by_contra hopen
    rw [answer?, if_neg hopen] at hanswer
    cases hanswer
  have hlength : outcomes.length = jobs.length := hcollected.length_eq.trans hall
  have htasks : s.tasks = outcomes.map .ended :=
    hcollected.tasks_eq (hlength ▸ htracks.started_le)
  have hcalls := htracks.perm_calls htasks
  rw [hlength] at hcalls
  rw [hcollected.answer?_eq hall] at hanswer
  exact ⟨outcomes, hlength, hcalls, htracks.perm_endings htasks, (Option.some.inj hanswer).symm⟩

end Dispatch

namespace Schema

open Dispatch

/-- **The order in which jobs end does not matter.** A batch that was made can go on until it is
answered, with any outcomes and any order of endings. Then every job has called the store once and
ended once, and the answer is what the outcomes come to in the order of the sources. -/
theorem dispatch_comesTo {schema : Schema} {entity relation : String} {sources : List Json}
    {query : Query} {jobs : List (Job Selection)}
    (hjobs : schema.relationJobs entity sources relation query = .ok jobs) :
    (∃ keys, schema.primaryKeys entity = .ok keys ∧
      List.Forall₂ (fun source job => ∃ values, Record.keyValues source entity keys = .ok values ∧
        job.key = Record.keyText values) sources jobs) ∧
    (∀ events s, run? relation jobs {} events = some s → events.length ≤ 4 * jobs.length ∧
      (s.answer? jobs = none → ∃ event t, step? relation jobs s event = some t)) ∧
    (∀ (outcomes : List Outcome) order, outcomes.length = jobs.length →
      order.Perm outcomes.zipIdx → ∃ events s answer, run? relation jobs {} events = some s ∧
        s.answer? jobs = some answer ∧ endings events = order) ∧
    ∀ events s answer, run? relation jobs {} events = some s → s.answer? jobs = some answer →
      ∃ outcomes : List Outcome, outcomes.length = jobs.length ∧
        (calls events).Perm (List.range jobs.length) ∧ (endings events).Perm outcomes.zipIdx ∧
        Batch.ComesTo relation (keyed jobs outcomes) answer ∧
        ∀ execute, outcomes = jobs.map (fun job => execute job.selection) →
          answer = (schema.loadRelation entity sources relation query execute).result := by
  refine ⟨forall₂_relationJobs hjobs, ?_, ?_, ?_⟩
  · intro events s hrun
    exact ⟨length_le_of_run? hrun, exists_step? hrun⟩
  · intro outcomes order hlength horder
    obtain ⟨s, answer, hrun, hanswer⟩ := run?_schedule relation hlength horder
    exact ⟨_, s, answer, hrun, hanswer, endings_schedule _ order⟩
  · intro events s answer hrun hanswer
    obtain ⟨outcomes, hlength, hcalls, hendings, rfl⟩ := answer_eq_settle hrun hanswer
    refine ⟨outcomes, hlength, hcalls, hendings, Batch.comesTo_settle _ _, ?_⟩
    rintro execute rfl
    rw [loadRelation, hjobs, keyed, List.zip_map']
    rfl

/-- The job of the eighth order breaks off before that of the seventh is refused, which is the error
all the same. -/
theorem dispatch_comesTo_orders : ∃ jobs s outcomes,
    shops.relationJobs "Order" [seventhOrder, eighthOrder] "lines" {} = .ok jobs ∧
    run? "lines" jobs {} [.start, .start, .call 1, .finish 1 (.brokeOff none), .call 0,
      .finish 0 (.failed (.refused "closed")), .join, .join] = some s ∧
    s.answer? jobs = some (.error (.refused "closed")) ∧
    Batch.ComesTo "lines" (keyed jobs outcomes) (.error (.refused "closed")) := by
  obtain ⟨jobs, hjobs⟩ : ∃ jobs,
      shops.relationJobs "Order" [seventhOrder, eighthOrder] "lines" {} = .ok jobs := ⟨_, rfl⟩
  have hrun : ∃ s, run? "lines" jobs {} [.start, .start, .call 1, .finish 1 (.brokeOff none),
      .call 0, .finish 0 (.failed (.refused "closed")), .join, .join] = some s ∧
      s.answer? jobs = some (.error (.refused "closed")) := by
    cases hjobs
    exact ⟨_, rfl, rfl⟩
  obtain ⟨s, hrun, hanswer⟩ := hrun
  obtain ⟨outcomes, -, -, -, hcomes, -⟩ :=
    (dispatch_comesTo hjobs).2.2.2 _ s _ hrun hanswer
  exact ⟨jobs, s, outcomes, hjobs, hrun, hanswer, hcomes⟩

end Schema

end EntityQuery
