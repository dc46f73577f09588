/-
# Workers over one queue

`WorkerLoop` leases a task, hands it to the handler of its type and settles what
the handler returns.  Several loops share one queue; between the lease, the start of
the handler and the settlement of one worker, the others make their own steps.  The
state counts, for each task, how often the queue gave it out and how often it was
handed to a handler since it was last enqueued or requeued, and how often it was
settled since its last lease.
-/
import AgoraHub.WorkerQueue
import AgoraHub.StepRuns

namespace Workers

open Fallible
open Function (update)

/-! ## One worker -/

/-- The fields of a `TaskResult` that the worker loop reads. -/
structure TaskResult where
  success : Bool
  status : TaskStatus
  executionScope : Option WorkerExecutionScope
  graphIdentity : Option GraphIdentity
  errorType : Option String := none
  errorMessage : Option String := none
  deriving DecidableEq

/-- What a handler does: it raises, or returns something else than a `TaskResult`, or a result. -/
inductive HandlerOutcome where
  | raised (typeName message : String)
  | invalid
  | result (r : TaskResult)
  deriving DecidableEq

/-- `value or default` of an optional text. -/
def textOr (value : Option String) (default : String) : String :=
  match value with
  | none => default
  | some text => if text = "" then default else text

def recoverableTaskErrorTypes : List String :=
  ["ConnectionError", "InfrastructureError", "OSError", "RateLimitError", "RedisConnectionError",
    "TemporaryError", "Timeout", "TimeoutError", "TransientError"]

/-- An identity of one execution. -/
def GraphIdentity.isExecution : GraphIdentity → Bool
  | execution _ => true
  | definition _ => false

/-- The error that `handle_task` rejects a task with before any handler is invoked. -/
def rejection? (task : Task) : Option TaskError :=
  match taskAdmissionError task with
  | some (errorType, errorMessage) =>
    some { errorType := errorType, errorMessage := errorMessage, retryable := false }
  | none =>
    if task.executionScope ≠ some .graph then
      some {
        errorType := "WorkerExecutionScopeMismatch"
        errorMessage := "WorkerLoop only executes tasks in the graph scope"
        retryable := false }
    else if task.graphIdentity.any GraphIdentity.isExecution then none
    else some {
        errorType := "GraphIdentityRequired"
        errorMessage := "WorkerLoop requires an exact GraphExecutionIdentity"
        retryable := false }

/-- What `handle_task` does with the outcome of the handler. -/
inductive Settlement where
  | ack
  | fail (error : TaskError)
  | setStatus (status : TaskStatus)
  deriving DecidableEq

/-- The result carries the scope and the execution identity of the task. -/
def TaskResult.Matches (r : TaskResult) (task : Task) : Prop :=
  r.executionScope = task.executionScope ∧ r.graphIdentity.any GraphIdentity.isExecution = true ∧
    r.graphIdentity = task.graphIdentity

instance (r : TaskResult) (task : Task) : Decidable (r.Matches task) :=
  inferInstanceAs (Decidable (_ ∧ _))

/-- The branches of `handle_task` after the handler. -/
def settlement (task : Task) : HandlerOutcome → Settlement
  | .raised typeName message => .fail { errorType := typeName, errorMessage := message }
  | .invalid =>
    .fail {
      errorType := "InvalidTaskResult"
      errorMessage := "task handler must return TaskResult"
      retryable := false }
  | .result r =>
    if ¬ r.Matches task then
      .fail {
        errorType := "GraphIdentityMismatch"
        errorMessage :=
          "task result must carry the exact execution scope and GraphExecutionIdentity of the leased task"
        retryable := false }
    else if r.success = true ∧ r.status = .succeeded then .ack
    else if r.success = true then .setStatus r.status
    else .fail {
        errorType := textOr r.errorType "TaskFailed"
        errorMessage := textOr r.errorMessage "task failed"
        retryable := decide (textOr r.errorType "" ∈ recoverableTaskErrorTypes) }

namespace InMemoryTaskQueue

variable (q : InMemoryTaskQueue)

/-- `task.status = status`. -/
def setStatus (taskId : String) (status : TaskStatus) : InMemoryTaskQueue :=
  q.updateTask taskId fun t => { t with status := status }

/-- `handle_task` up to the call of the handler, by a worker that has handlers for the task types
of the list: whether the handler is called. -/
def startTask (handlers : List String) (workerId taskId : String) (now later : Datetime) :
    Except WorkerError Bool × InMemoryTaskQueue :=
  match rejection? (q.tasks taskId) with
  | some error =>
    let failed := (q.setStatus taskId .failed).fail taskId workerId error now later
    (failed.1.map fun _ => false, failed.2)
  | none =>
    let started := q.setStatus taskId .running
    if (q.tasks taskId).taskType ∈ handlers then (.ok true, started)
    else
      let failed := started.fail taskId workerId
        { errorType := "UnknownTaskType"
          errorMessage := "no handler for " ++ (q.tasks taskId).taskType
          retryable := false } now later
      (failed.1.map fun _ => false, failed.2)

/-- `handle_task` after the handler. -/
def settleTask (workerId taskId : String) (outcome : HandlerOutcome) (now later : Datetime) :
    Except WorkerError Unit × InMemoryTaskQueue :=
  match settlement (q.tasks taskId) outcome with
  | .ack => (.ok (), q.ack taskId (some workerId))
  | .fail error => q.fail taskId workerId error now later
  | .setStatus status => (.ok (), q.setStatus taskId status)

end InMemoryTaskQueue

/-! ## Several workers -/

/-- What a worker is doing: it waits, has a task that it has not started, or runs its handler. -/
inductive WorkerPhase where
  | idle
  | leased (taskId : String)
  | running (taskId : String)
  deriving DecidableEq

/-- A queue and the workers over it, known by their ids. -/
structure WorkerSystem where
  queue : InMemoryTaskQueue
  handlers : String → List String
  phase : String → WorkerPhase := fun _ => .idle
  offered : List String := []
  delivered : String → ℕ := fun _ => 0
  handed : String → ℕ := fun _ => 0
  settles : String → ℕ := fun _ => 0

/-- A step of the system. -/
inductive WorkerAction where
  | enqueue (taskId : String) (now : Datetime)
  | lease (workerId : String) (queueNames : List String) (now : Datetime)
  | reclaim (workerId : String) (queueNames : List String) (reference : Datetime)
  | start (workerId : String) (now later : Datetime)
  | settle (workerId : String) (outcome : HandlerOutcome) (now later : Datetime)
  | cancel (taskId : String)
  | requeueDeadLetter (taskId : String)
  deriving DecidableEq

namespace WorkerSystem

variable (s : WorkerSystem)

/-- The system with another queue. -/
def withQueue (q : InMemoryTaskQueue) : WorkerSystem := { s with queue := q }

/-- The counts of a task that enters a queue anew. -/
def renew (taskId : String) : WorkerSystem :=
  { s with
    delivered := update s.delivered taskId 0
    handed := update s.handed taskId 0 }

/-- The queue gives a task to a worker. -/
def deliver (workerId taskId : String) : WorkerSystem :=
  { s with
    phase := update s.phase workerId (.leased taskId)
    delivered := update s.delivered taskId (s.delivered taskId + 1)
    settles := update s.settles taskId 0 }

/-- The worker goes on to another phase. -/
def setPhase (workerId : String) (phase : WorkerPhase) : WorkerSystem :=
  { s with phase := update s.phase workerId phase }

/-- A task in flight is settled by a call of `ack` or `fail`. -/
def countSettle (taskId : String) : WorkerSystem :=
  if taskId ∈ s.queue.inFlight then
    { s with settles := update s.settles taskId (s.settles taskId + 1) }
  else s

/-- A task is handed to a handler. -/
def countHandOut (taskId : String) : WorkerSystem :=
  { s with handed := update s.handed taskId (s.handed taskId + 1) }

/-- What `lease` or `reclaim_stale` returned to a worker, and the queue it left. -/
def receive (workerId : String) (r : Except WorkerError (Option String) × InMemoryTaskQueue) :
    Except WorkerError Unit × WorkerSystem :=
  match r.1 with
  | .error e => (.error e, s.withQueue r.2)
  | .ok none => (.ok (), s.withQueue r.2)
  | .ok (some i) => (.ok (), (s.withQueue r.2).deliver workerId i)

/-- A worker starts the task it has leased. -/
def startStep (workerId taskId : String) (now later : Datetime) :
    Except WorkerError Unit × WorkerSystem :=
  let r := s.queue.startTask (s.handlers workerId) workerId taskId now later
  match r.1 with
  | .ok true =>
    (.ok (), ((s.withQueue r.2).setPhase workerId (.running taskId)).countHandOut taskId)
  | .ok false => (.ok (), ((s.countSettle taskId).withQueue r.2).setPhase workerId .idle)
  | .error e => (.error e, ((s.countSettle taskId).withQueue r.2).setPhase workerId .idle)

/-- A worker settles the task it runs. -/
def settleStep (workerId taskId : String) (outcome : HandlerOutcome) (now later : Datetime) :
    Except WorkerError Unit × WorkerSystem :=
  let r := s.queue.settleTask workerId taskId outcome now later
  let counted := match settlement (s.queue.tasks taskId) outcome with
    | .setStatus _ => s
    | _ => s.countSettle taskId
  (r.1, (counted.withQueue r.2).setPhase workerId .idle)

/-- One step; a worker leases or reclaims only while it is idle. -/
def act (s : WorkerSystem) : WorkerAction → Except WorkerError Unit × WorkerSystem
  | .enqueue taskId now =>
    (.ok (), { (s.withQueue (s.queue.enqueue taskId now).2).renew taskId with
        offered := s.offered ++ [taskId] })
  | .lease workerId queueNames now =>
    if s.phase workerId = .idle then s.receive workerId (s.queue.lease workerId queueNames now)
    else (.ok (), s)
  | .reclaim workerId queueNames reference =>
    if s.phase workerId = .idle then
      s.receive workerId (s.queue.reclaimStale workerId queueNames reference)
    else (.ok (), s)
  | .start workerId now later =>
    match s.phase workerId with
    | .leased taskId => s.startStep workerId taskId now later
    | _ => (.ok (), s)
  | .settle workerId outcome now later =>
    match s.phase workerId with
    | .running taskId => s.settleStep workerId taskId outcome now later
    | _ => (.ok (), s)
  | .cancel taskId => (.ok (), s.withQueue (s.queue.cancel taskId).2)
  | .requeueDeadLetter taskId =>
    let r := s.queue.requeueDeadLetter taskId
    (.ok (), if r.1 then (s.withQueue r.2).renew taskId else s)

/-- The state after a step. -/
def step (s : WorkerSystem) (a : WorkerAction) : WorkerSystem := (s.act a).2

end WorkerSystem

end Workers
