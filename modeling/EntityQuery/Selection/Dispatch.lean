import EntityQuery.Selection.Batch

/-!
# Jobs side by side

The jobs of a batch run as tasks of their own. They are started one after the other in the order of
the sources; a task calls the store once, at any time after its start, and ends at any time after
the call, in rows, with an error or by breaking off. When all have been started they are joined,
again in the order of the sources, each as soon as it has ended: rows are put under the key of the
job, and the first error met is kept while the remaining jobs are still waited for.

Which of the enabled events happens next is left open, as is how a call ends. A list of events that
happen one after the other is an interleaving of the tasks and the dispatcher.
-/

namespace EntityQuery

/-- How far the task of a job has come. -/
inductive Task
  | waiting
  | running
  | ended (outcome : Outcome)

/-- A batch under way: the tasks that were started, in order, how many of them were joined, and what
those came to. -/
structure Dispatch where
  tasks : List Task := []
  joined : Nat := 0
  results : Dict (List Row) := []
  firstError : Option QueryError := none

namespace Dispatch

/-- What may happen next; jobs are known by their positions. -/
inductive Event
  | start
  | call (job : Nat)
  | finish (job : Nat) (outcome : Outcome)
  | join

/-- Takes up how the next job to be joined ended. -/
def collect (relation key : String) (s : Dispatch) : Outcome → Dispatch
  | .rows rows => { s with joined := s.joined + 1, results := s.results.insert key rows }
  | .failed error => { s with joined := s.joined + 1, firstError := s.firstError.or (some error) }
  | .brokeOff report =>
    { s with
      joined := s.joined + 1
      firstError := s.firstError.or (some (.brokeOff key relation report)) }

variable {α : Type}

/-- What an event makes of a batch under way, if it may happen then. -/
def step? (relation : String) (jobs : List (Job α)) (s : Dispatch) : Event → Option Dispatch
  | .start =>
    if s.tasks.length < jobs.length then some { s with tasks := s.tasks ++ [.waiting] } else none
  | .call job => match s.tasks[job]? with
    | some .waiting => some { s with tasks := s.tasks.set job .running }
    | _ => none
  | .finish job outcome => match s.tasks[job]? with
    | some .running => some { s with tasks := s.tasks.set job (.ended outcome) }
    | _ => none
  | .join =>
    if s.tasks.length = jobs.length then
      match jobs[s.joined]?, s.tasks[s.joined]? with
      | some job, some (.ended outcome) => some (s.collect relation job.key outcome)
      | _, _ => none
    else none

/-- What a list of events makes of a batch under way, if they may happen one after the other. -/
def run? (relation : String) (jobs : List (Job α)) (s : Dispatch) (events : List Event) :
    Option Dispatch := events.foldlM (step? relation jobs) s

/-- What the batch comes to, once all jobs were joined. -/
def answer? (s : Dispatch) (jobs : List (Job α)) : Option (Answer (Dict (List Row))) :=
  if s.joined = jobs.length then
    some (match s.firstError with
      | some error => .error error
      | none => .ok s.results)
  else none

/-- The jobs that called the store, in the order of their calls. -/
def calls (events : List Event) : List Nat :=
  events.filterMap fun
    | .call job => some job
    | _ => none

/-- How jobs ended, in the order in which they did. -/
def endings (events : List Event) : List (Outcome × Nat) :=
  events.filterMap fun
    | .finish job outcome => some (outcome, job)
    | _ => none

end Dispatch

end EntityQuery
