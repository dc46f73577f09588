/-
# The in-memory task queue

`InMemoryTaskQueue` with its four containers.  The containers refer to `Task`
objects, which every holder of a reference can change, so the objects live in a
heap and the containers hold their ids.  An operation returns its result, or what
it raises, together with the state it leaves: a Python method that raises keeps
what it has assigned before.
-/
import AgoraHub.PyDict
import AgoraHub.WorkerTask

namespace Workers

open Fallible

/-! ## The state -/

/-- The `event_type` of a `TaskEvent`. -/
inductive TaskEventType where
  | taskEnqueued | taskLeased | taskSucceeded | taskRetryScheduled | taskDeadLettered
  | taskRequeued | taskReclaimed
  deriving DecidableEq

structure TaskEvent where
  eventType : TaskEventType
  taskId : String
  taskStatus : TaskStatus
  workerId : Option String := none
  queueName : String
  deriving DecidableEq

/-- `DeadLetterRecord`; the record refers to its task. -/
structure DeadLetterRecord where
  taskId : String
  reason : String
  error : Option TaskError
  attempts : ℤ
  deriving DecidableEq

/-- `TaskEnqueueResult` of a refused task. -/
structure TaskEnqueueResult where
  taskId : String
  queueName : String
  status : TaskStatus
  reason : String
  deriving DecidableEq

/-- `InMemoryTaskQueue`, with the task objects it and its callers refer to. -/
structure InMemoryTaskQueue where
  tasks : String → Task
  queued : PyDict String (List String) := []
  inFlight : List String := []
  deadLetters : List DeadLetterRecord := []
  events : List TaskEvent := []
  retryPolicy : TaskRetryPolicy := {}
  backpressurePolicy : BackpressurePolicy := {}

namespace InMemoryTaskQueue

variable (q : InMemoryTaskQueue)

/-- The ids in the queued lists. -/
def queuedIds : List String := q.queued.values.flatten

/-- The ids of the dead letters. -/
def deadIds : List String := q.deadLetters.map DeadLetterRecord.taskId

/-- The tasks that are queued or in flight. -/
def activeIds : List String := q.queuedIds ++ q.inFlight

/-- Change a task object. -/
def updateTask (taskId : String) (f : Task → Task) : InMemoryTaskQueue :=
  { q with tasks := Function.update q.tasks taskId (f (q.tasks taskId)) }

def recordEvent (eventType : TaskEventType) (taskId : String) (workerId : Option String) :
    InMemoryTaskQueue :=
  { q with
    events := q.events ++ [{
      eventType := eventType, taskId := taskId, taskStatus := (q.tasks taskId).status,
      workerId := workerId, queueName := (q.tasks taskId).queueName }] }

/-- `self._queued.setdefault(name, deque()).append(task)`. -/
def appendQueued (queueName taskId : String) : InMemoryTaskQueue :=
  { q with
    queued := q.queued.set queueName ((q.queued.get? queueName).getD [] ++ [taskId]) }

/-- `self._in_flight[task_id] = task`. -/
def putInFlight (taskId : String) : InMemoryTaskQueue :=
  { q with inFlight := if taskId ∈ q.inFlight then q.inFlight else q.inFlight ++ [taskId] }

/-- `self._in_flight.pop(task_id)` of a task in flight. -/
def popInFlight (taskId : String) : InMemoryTaskQueue :=
  { q with inFlight := q.inFlight.erase taskId }

/-- `queue.remove(task)` in the queue of that name. -/
def removeQueued (queueName taskId : String) : InMemoryTaskQueue :=
  { q with
    queued := q.queued.set queueName (((q.queued.get? queueName).getD []).erase taskId) }

@[simp] theorem tasks_updateTask_self (taskId : String) (f : Task → Task) :
    (q.updateTask taskId f).tasks taskId = f (q.tasks taskId) := Function.update_self ..

@[simp] theorem tasks_updateTask_of_ne {taskId i : String} (f : Task → Task) (h : i ≠ taskId) :
    (q.updateTask taskId f).tasks i = q.tasks i := Function.update_of_ne h _ _

@[simp] theorem tasks_recordEvent (eventType : TaskEventType) (taskId : String)
    (workerId : Option String) : (q.recordEvent eventType taskId workerId).tasks = q.tasks := rfl

@[simp] theorem tasks_appendQueued (queueName taskId : String) :
    (q.appendQueued queueName taskId).tasks = q.tasks := rfl

@[simp] theorem tasks_removeQueued (queueName taskId : String) :
    (q.removeQueued queueName taskId).tasks = q.tasks := rfl

@[simp] theorem tasks_putInFlight (taskId : String) : (q.putInFlight taskId).tasks = q.tasks := rfl

@[simp] theorem tasks_popInFlight (taskId : String) : (q.popInFlight taskId).tasks = q.tasks := rfl

/-! ## Admission -/

/-- `queue_status(queue_name).pending_count`: the queued tasks that are due and the tasks of the
queue in flight. -/
def pendingCount (queueName : String) (now : Datetime) : ℕ :=
  let queued := (q.queued.get? queueName).getD []
  let delayed := queued.filter fun i => (q.tasks i).Delayed now
  (queued.length - delayed.length) +
    (q.inFlight.filter fun i => (q.tasks i).queueName = queueName).length

/-- A task holds the key and is not finished. -/
def Unfinished (dedupKey : String) (taskId : String) : Prop :=
  (q.tasks taskId).dedupKey = some dedupKey ∧ (q.tasks taskId).status ∈ TaskStatus.unfinished

instance (dedupKey taskId : String) : Decidable (q.Unfinished dedupKey taskId) :=
  inferInstanceAs (Decidable (_ ∧ _))

def HasUnfinishedDedupKey (dedupKey : String) : Prop :=
  (∃ queue ∈ q.queued.values, ∃ i ∈ queue, q.Unfinished dedupKey i) ∨
    ∃ i ∈ q.inFlight, q.Unfinished dedupKey i

instance (dedupKey : String) : Decidable (q.HasUnfinishedDedupKey dedupKey) :=
  inferInstanceAs (Decidable (_ ∨ _))

/-- `task.dedup_key and self._has_unfinished_dedup_key(task.dedup_key)`. -/
def IsDuplicate (taskId : String) : Prop :=
  ∃ key ∈ (q.tasks taskId).dedupKey, key ≠ "" ∧ q.HasUnfinishedDedupKey key

instance (taskId : String) : Decidable (q.IsDuplicate taskId) :=
  inferInstanceAs (Decidable (∃ key ∈ (q.tasks taskId).dedupKey, _ ∧ _))

/-- The result of refusing a task. -/
def refusal (taskId reason : String) : TaskEnqueueResult where
  taskId := taskId
  queueName := (q.tasks taskId).queueName
  status := (q.tasks taskId).status
  reason := reason

/-- The commit of `enqueue`. -/
def acceptTask (taskId : String) : InMemoryTaskQueue :=
  ((q.updateTask taskId fun t =>
      { t with status := .queued, leasedBy := none, leaseExpiresAt := none }).appendQueued
    (q.tasks taskId).queueName taskId).recordEvent .taskEnqueued taskId none

/-- `enqueue`: `none` when the task is accepted.  `now` is the reading of the clock that the
pending tasks are counted at. -/
def enqueue (taskId : String) (now : Datetime) : Option TaskEnqueueResult × InMemoryTaskQueue :=
  match taskAdmissionError (q.tasks taskId) with
  | some (reason, _) => (some (q.refusal taskId reason), q)
  | none =>
    if q.IsDuplicate taskId then (some (q.refusal taskId "duplicate_dedup_key"), q)
    else if q.backpressurePolicy.ShouldReject (q.pendingCount (q.tasks taskId).queueName now) then
      (some (q.refusal taskId "backpressure"), q)
    else (none, q.acceptTask taskId)

/-! ## Leases -/

/-- `_pop_due_task`: the first task of the queue that is not delayed. -/
def dueTask? (queue : List String) (now : Datetime) : Option String :=
  queue.find? fun i => ¬ (q.tasks i).Delayed now

/-- The task that `_lease_one` takes: the first due one of the first queue that has one. -/
def leaseCandidate? (queueNames : List String) (now : Datetime) : Option (String × String) :=
  queueNames.findSome? fun name =>
    (q.dueTask? ((q.queued.get? name).getD []) now).map fun i => (name, i)

/-- The end of a lease: `lease_seconds`, or else the timeout of the task. -/
def leaseEnd (task : Task) (leaseSeconds : Option ℤ) (now : Datetime) :
    Except WorkerError (Option Datetime) :=
  match leaseSeconds.or task.timeoutSeconds with
  | none => .ok task.leaseExpiresAt
  | some seconds => do
    let expires ← moment (now.addSeconds seconds)
    .ok (some expires)

def leaseOne (workerId : String) (queueNames : List String) (leaseSeconds : Option ℤ)
    (now : Datetime) : Except WorkerError (Option String) × InMemoryTaskQueue :=
  match q.leaseCandidate? queueNames now with
  | none => (.ok none, q)
  | some (name, i) =>
    let taken := (q.removeQueued name i).updateTask i fun t =>
      { t with status := .leased, leasedBy := some workerId, attempts := t.attempts + 1 }
    match leaseEnd (q.tasks i) leaseSeconds now with
    | .error e => (.error e, taken)
    | .ok expires =>
      (.ok (some i),
        ((taken.updateTask i fun t => { t with leaseExpiresAt := expires }).putInFlight i).recordEvent
          .taskLeased i (some workerId))

/-- `lease(worker_id, queue_names)`. -/
def lease (workerId : String) (queueNames : List String) (now : Datetime) :
    Except WorkerError (Option String) × InMemoryTaskQueue :=
  if workerId = "" then (.error (.typeError "worker_id and queue_names are required"), q)
  else q.leaseOne workerId queueNames none now

/-- The loop of `_lease_batch`, with the reading of the clock of each turn. -/
def leaseTurns (workerId queueName : String) (leaseSeconds : ℤ) (q : InMemoryTaskQueue) :
    List Datetime → Except WorkerError (List String) × InMemoryTaskQueue
  | [] => (.ok [], q)
  | now :: later =>
    match q.leaseOne workerId [queueName] (some leaseSeconds) now with
    | (.error e, q') => (.error e, q')
    | (.ok none, q') => (.ok [], q')
    | (.ok (some i), q') =>
      match leaseTurns workerId queueName leaseSeconds q' later with
      | (.error e, q'') => (.error e, q'')
      | (.ok leased, q'') => (.ok (i :: leased), q'')

/-- `lease(queue, worker_id, lease_seconds, limit)`: there are `limit` turns. -/
def leaseBatch (queueName workerId : String) (leaseSeconds : Option ℤ) (turns : List Datetime) :
    Except WorkerError (List String) × InMemoryTaskQueue :=
  if queueName = "" ∨ workerId = "" then
    (.error (.typeError "queue and worker_id are required"), q)
  else leaseTurns workerId queueName (leaseSeconds.getD 60) q turns

/-! ## Settlement -/

/-- `worker_id or task.leased_by`. -/
def settlingWorker (workerId : Option String) (task : Task) : Option String :=
  if workerId = some "" then task.leasedBy else workerId.or task.leasedBy

def ack (taskId : String) (workerId : Option String) : InMemoryTaskQueue :=
  if taskId ∈ q.inFlight then
    ((q.popInFlight taskId).updateTask taskId fun t =>
        { t with status := .succeeded, leasedBy := none, leaseExpiresAt := none }).recordEvent
      .taskSucceeded taskId (settlingWorker workerId (q.tasks taskId))
  else q

def moveToDeadLetter (taskId reason : String) (error : Option TaskError) : InMemoryTaskQueue :=
  let buried := (q.updateTask taskId fun t =>
    { t with status := .deadLetter, leasedBy := none, leaseExpiresAt := none }).recordEvent
      .taskDeadLettered taskId none
  { buried with
    deadLetters := buried.deadLetters ++ [{
      taskId := taskId, reason := reason, error := error,
      attempts := (q.tasks taskId).attempts }] }

/-- What `fail` does once a retry is decided and its time is known, before it enqueues. -/
def scheduleRetry (taskId workerId : String) (nextRunAt : Datetime) : InMemoryTaskQueue :=
  (q.updateTask taskId fun t =>
      { t with
        status := .retrying, scheduledFor := some nextRunAt, leasedBy := none,
        leaseExpiresAt := none }).recordEvent
    .taskRetryScheduled taskId (some workerId)

/-- `fail`.  The clock is read at `now` for the time of the retry and at `later` when the task is
enqueued again; what `enqueue` returns is dropped. -/
def fail (taskId workerId : String) (error : TaskError) (now later : Datetime) :
    Except WorkerError Unit × InMemoryTaskQueue :=
  if taskId ∈ q.inFlight then
    let popped := q.popInFlight taskId
    if q.retryPolicy.ShouldRetry (q.tasks taskId) error then
      match q.retryPolicy.nextRunAt (q.tasks taskId) now with
      | .error e => (.error e, popped)
      | .ok nextRunAt =>
        (.ok (), ((popped.scheduleRetry taskId workerId nextRunAt).enqueue taskId later).2)
    else (.ok (), popped.moveToDeadLetter taskId error.errorMessage (some error))
  else (.error (.keyError taskId), q)

/-- The `error` argument of `nack`: a `TaskError`, or an exception or text with the name of its
type. -/
inductive Failure where
  | taskError (error : TaskError)
  | raised (typeName message : String)
  deriving DecidableEq

/-- The `TaskError` that `nack` makes of its argument. -/
def Failure.toTaskError : Failure → TaskError
  | taskError error => error
  | raised typeName message => { errorType := typeName, errorMessage := message }

/-- The time that `nack` is given for the task. -/
def reschedule (taskId : String) : Option Datetime → InMemoryTaskQueue
  | none => q
  | some retryAt => q.updateTask taskId fun t => { t with scheduledFor := some retryAt }

def nack (taskId : String) (error : Failure) (retryAt : Option Datetime) (now later : Datetime) :
    Except WorkerError Unit × InMemoryTaskQueue :=
  if taskId ∈ q.inFlight then
    (q.reschedule taskId retryAt).fail taskId ((q.tasks taskId).leasedBy.getD "")
      error.toTaskError now later
  else q.fail taskId "" error.toTaskError now later

/-! ## Cancellation, requeues and stale leases -/

def cancelTask (taskId : String) : InMemoryTaskQueue :=
  q.updateTask taskId fun t =>
    { t with status := .cancelled, leasedBy := none, leaseExpiresAt := none }

def cancel (taskId : String) : Bool × InMemoryTaskQueue :=
  match q.queued.find? fun entry => taskId ∈ entry.2 with
  | some (name, _) => (true, (q.removeQueued name taskId).cancelTask taskId)
  | none =>
    if taskId ∈ q.inFlight then (true, (q.popInFlight taskId).cancelTask taskId)
    else (false, q)

def requeueDeadLetter (taskId : String) : Bool × InMemoryTaskQueue :=
  if taskId ∈ q.deadIds then
    let taken := { q with
      deadLetters := q.deadLetters.eraseP fun record => record.taskId = taskId }
    (true, ((taken.updateTask taskId fun t =>
          { t with
            status := .queued, leasedBy := none, leaseExpiresAt := none,
            scheduledFor := none }).appendQueued
        (q.tasks taskId).queueName taskId).recordEvent .taskRequeued taskId none)
  else (false, q)

/-- A task in flight whose lease has ended, in one of the queues. -/
def Stale (queueNames : List String) (reference : Datetime) (taskId : String) : Prop :=
  (q.tasks taskId).queueName ∈ queueNames ∧
    ∃ expires ∈ (q.tasks taskId).leaseExpiresAt, expires ≤ reference

instance (queueNames : List String) (reference : Datetime) (taskId : String) :
    Decidable (q.Stale queueNames reference taskId) :=
  decidable_of_iff
    ((q.tasks taskId).queueName ∈ queueNames ∧
      (q.tasks taskId).leaseExpiresAt.any fun expires => decide (expires ≤ reference)) (by
    simp [Stale, Option.any_eq_true])

/-- The end of a reclaimed lease. -/
def reclaimedEnd (task : Task) (reference : Datetime) : Except WorkerError (Option Datetime) :=
  match task.timeoutSeconds with
  | none => .ok none
  | some seconds => do
    let expires ← moment (reference.addSeconds seconds)
    .ok (some expires)

def reclaimStale (workerId : String) (queueNames : List String) (reference : Datetime) :
    Except WorkerError (Option String) × InMemoryTaskQueue :=
  match q.inFlight.find? fun i => q.Stale queueNames reference i with
  | none => (.ok none, q)
  | some i =>
    let taken := (q.popInFlight i).updateTask i fun t =>
      { t with status := .leased, leasedBy := some workerId }
    match reclaimedEnd (q.tasks i) reference with
    | .error e => (.error e, taken)
    | .ok expires =>
      (.ok (some i),
        ((taken.updateTask i fun t => { t with leaseExpiresAt := expires }).putInFlight i).recordEvent
          .taskReclaimed i (some workerId))

end InMemoryTaskQueue

end Workers
