import EntityQuery.Proofs.Batch.Tracking

/-!
# Any order may occur

There is a run of a batch for every assignment of outcomes to its jobs and every order in which they
may end: all jobs are started and called one by one, end in that order and are joined
(`run?_schedule`).
-/

namespace EntityQuery.Dispatch

variable {α : Type} {relation : String} {jobs : List (Job α)} {s t : Dispatch}
  {events : List Event}

theorem run?_start_call {n : Nat} (hn : n ≤ jobs.length) :
    run? relation jobs {} ((List.range n).flatMap fun job => [.start, .call job]) =
      some { tasks := List.replicate n .running } := by
  induction n with
  | zero => rfl
  | succ n ih =>
    have hstart : step? relation jobs { tasks := List.replicate n .running } .start =
        some { tasks := List.replicate n .running ++ [.waiting] } := by
      refine step?_start.2 ⟨?_, rfl⟩
      rw [List.length_replicate]
      exact hn
    have hcall : step? relation jobs { tasks := List.replicate n .running ++ [.waiting] }
        (.call n) = some { tasks := List.replicate (n + 1) .running } := by
      refine step?_call.2 ⟨?_, ?_⟩
      · simp
      · rw [List.set_append_right _ _ (by simp)]
        simp [List.replicate_succ']
    rw [List.range_succ, List.flatMap_append, run?_append, ih (Nat.le_of_succ_le hn),
      Option.bind_some]
    show (step? relation jobs _ .start).bind
      (fun t => (step? relation jobs t (.call n)).bind some) = _
    rw [hstart, Option.bind_some, hcall, Option.bind_some]

/-- Running tasks may end in any order; the others are left alone. -/
theorem exists_run?_finish (relation : String) (jobs : List (Job α)) (s : Dispatch)
    {order : List (Outcome × Nat)} (hnodup : (order.map Prod.snd).Nodup)
    (hrunning : ∀ ending ∈ order, s.tasks[ending.2]? = some .running) :
    ∃ tasks, run? relation jobs s (order.map fun ending => .finish ending.2 ending.1) =
        some { s with tasks := tasks } ∧
      (∀ ending ∈ order, tasks[ending.2]? = some (.ended ending.1)) ∧
      (∀ job, job ∉ order.map Prod.snd → tasks[job]? = s.tasks[job]?) := by
  induction order generalizing s with
  | nil => exact ⟨s.tasks, rfl, by simp, fun _ _ => rfl⟩
  | cons first order ih =>
    obtain ⟨outcome, i⟩ := first
    obtain ⟨hfresh, hnodup⟩ := List.nodup_cons.1 hnodup
    obtain ⟨hfirst, hrest⟩ := List.forall_mem_cons.1 hrunning
    have hset := getElem?_set_of hfirst (.ended outcome)
    have hne : ∀ ending ∈ order, ending.2 ≠ i := by
      intro ending hending heq
      have hmem := List.mem_map_of_mem (f := Prod.snd) hending
      rw [heq] at hmem
      exact hfresh hmem
    have hrest' : ∀ ending ∈ order,
        (s.tasks.set i (.ended outcome))[ending.2]? = some .running := by
      intro ending hending
      rw [hset, if_neg (hne ending hending)]
      exact hrest ending hending
    obtain ⟨tasks, hrun, hended, hkept⟩ :=
      ih { s with tasks := s.tasks.set i (.ended outcome) } hnodup hrest'
    have hi : tasks[i]? = some (.ended outcome) := by
      rw [hkept i hfresh, hset, if_pos rfl]
    refine ⟨tasks, ?_, List.forall_mem_cons.2 ⟨hi, hended⟩, fun job hjob => ?_⟩
    · show (step? relation jobs s (.finish i outcome)).bind _ = _
      rw [step?_finish.2 ⟨hfirst, rfl⟩, Option.bind_some]
      exact hrun
    · rw [List.map_cons, List.mem_cons, not_or] at hjob
      rw [hkept job hjob.2, hset, if_neg hjob.1]

theorem exists_run?_join (relation : String) (jobs : List (Job α)) (s : Dispatch)
    {outcomes : List Outcome} (htasks : s.tasks = outcomes.map .ended)
    (hlength : outcomes.length = jobs.length) {n : Nat} (hn : s.joined + n = jobs.length) :
    ∃ t, run? relation jobs s (List.replicate n .join) = some t ∧ t.joined = jobs.length := by
  induction n generalizing s with
  | zero => exact ⟨s, rfl, hn⟩
  | succ n ih =>
    have hlt : s.joined < jobs.length := by omega
    have hjob : jobs[s.joined]? = some jobs[s.joined] := List.getElem?_eq_getElem hlt
    obtain ⟨outcome, houtcome⟩ : ∃ outcome, outcomes[s.joined]? = some outcome :=
      ⟨_, List.getElem?_eq_getElem (hlength ▸ hlt)⟩
    have htask : s.tasks[s.joined]? = some (.ended outcome) := by
      rw [htasks, List.getElem?_map, houtcome]
      rfl
    have hall : s.tasks.length = jobs.length := by rw [htasks, List.length_map, hlength]
    have hstep : step? relation jobs s .join =
        some (s.collect relation jobs[s.joined].key outcome) :=
      step?_join.2 ⟨hall, _, outcome, hjob, htask, rfl⟩
    obtain ⟨t, hrun, ht⟩ := ih (s.collect relation jobs[s.joined].key outcome)
      (by rw [collect_tasks, htasks]) (by rw [collect_joined]; omega)
    refine ⟨t, ?_, ht⟩
    show (step? relation jobs s .join).bind _ = _
    rw [hstep, Option.bind_some]
    exact hrun

/-- The jobs end in a given order, each of them after all have called the store. -/
def schedule (count : Nat) (order : List (Outcome × Nat)) : List Event :=
  ((List.range count).flatMap fun job => [.start, .call job]) ++
    (order.map fun ending => .finish ending.2 ending.1) ++ List.replicate count .join

theorem endings_schedule (count : Nat) (order : List (Outcome × Nat)) :
    endings (schedule count order) = order := by
  have hbefore : endings ((List.range count).flatMap fun job => [.start, .call job]) = [] := by
    refine List.filterMap_eq_nil_iff.2 fun event hevent => ?_
    obtain ⟨job, -, hevent⟩ := List.mem_flatMap.1 hevent
    simp only [List.mem_cons, List.not_mem_nil, or_false] at hevent
    rcases hevent with rfl | rfl <;> rfl
  have hbetween : endings (order.map fun ending => .finish ending.2 ending.1) = order := by
    rw [endings, List.filterMap_map]
    exact List.filterMap_some
  have hafter : endings (List.replicate count .join) = [] := by
    refine List.filterMap_eq_nil_iff.2 fun event hevent => ?_
    rw [List.eq_of_mem_replicate hevent]
  rw [schedule, endings_append, endings_append, hbefore, hbetween, hafter, List.nil_append,
    List.append_nil]

/-- Whatever the outcomes, jobs may end in any order. -/
theorem run?_schedule (relation : String) {outcomes : List Outcome}
    (hlength : outcomes.length = jobs.length) {order : List (Outcome × Nat)}
    (horder : order.Perm outcomes.zipIdx) :
    ∃ s answer, run? relation jobs {} (schedule jobs.length order) = some s ∧
      s.answer? jobs = some answer := by
  have hnodup : (order.map Prod.snd).Nodup := by
    rw [(horder.map Prod.snd).nodup_iff, List.zipIdx_map_snd]
    exact List.nodup_range'
  have hmem : ∀ outcome job, (outcome, job) ∈ order ↔ outcomes[job]? = some outcome := by
    intro outcome job
    rw [horder.mem_iff, List.mk_mem_zipIdx_iff_getElem?]
  -- no position comes up twice in the order, so each task is running until its turn
  have hrunning : ∀ ending ∈ order,
      (List.replicate jobs.length Task.running)[ending.2]? = some .running := by
    rintro ⟨outcome, job⟩ hending
    have hlt := (List.getElem?_eq_some_iff.1 ((hmem outcome job).1 hending)).1
    rw [List.getElem?_replicate, if_pos (hlength ▸ hlt)]
  obtain ⟨tasks, hfinish, hended, hkept⟩ := exists_run?_finish relation jobs
    { tasks := List.replicate jobs.length .running } hnodup hrunning
  have htasks : tasks = outcomes.map .ended := by
    refine List.ext_getElem? fun job => ?_
    rw [List.getElem?_map]
    cases houtcome : outcomes[job]? with
    | some outcome => exact hended (outcome, job) ((hmem outcome job).2 houtcome)
    | none =>
      have hle : outcomes.length ≤ job := List.getElem?_eq_none_iff.1 houtcome
      have hnot : job ∉ order.map Prod.snd := by
        intro hjob
        obtain ⟨⟨outcome, i⟩, hending, rfl⟩ := List.mem_map.1 hjob
        have hsome := (hmem outcome i).1 hending
        rw [houtcome] at hsome
        cases hsome
      rw [hkept job hnot, List.getElem?_replicate, if_neg (by omega)]
      rfl
  obtain ⟨t, hjoin, hjoined⟩ := exists_run?_join relation jobs { tasks := tasks } htasks hlength
    (Nat.zero_add jobs.length)
  have hanswer : ∃ answer, t.answer? jobs = some answer := by
    rw [answer?, if_pos hjoined]
    exact ⟨_, rfl⟩
  obtain ⟨answer, hanswer⟩ := hanswer
  refine ⟨t, answer, ?_, hanswer⟩
  rw [schedule, run?_append, run?_append, run?_start_call (Nat.le_refl _), Option.bind_some,
    hfinish, Option.bind_some, hjoin]

end EntityQuery.Dispatch
