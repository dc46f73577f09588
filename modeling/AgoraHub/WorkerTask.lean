/-
# Worker tasks

The `Task` objects that a queue moves about, the retry policy that decides what
happens to a failed one, and the backpressure policy that decides whether a queue
takes another one.  A task object is known by its id, so the id is not repeated
among its fields.
-/
import AgoraHub.PyTime

namespace Workers

open Fallible

/-! ## Tasks -/

inductive TaskStatus where
  | pending | created | queued | leased | running | retrying | succeeded | failed | cancelled
  | deadLetter | waitingForApproval | paused
  deriving DecidableEq

/-- `_UNFINISHED_STATUSES`. -/
def TaskStatus.unfinished : List TaskStatus :=
  [pending, created, queued, leased, running, retrying, waitingForApproval, paused]

inductive WorkerExecutionScope where
  | graph | standalone
  deriving DecidableEq

/-- A `GraphIdentity`, or the `GraphExecutionIdentity` of one execution; the text stands for the
fields that two identities are compared by. -/
inductive GraphIdentity where
  | definition (fields : String)
  | execution (fields : String)
  deriving DecidableEq

/-- The fields of a `Task` that the queue and its workers read or write. -/
structure Task where
  taskType : String
  queueName : String := "framework:queue:default"
  status : TaskStatus := .created
  attempts : ℤ := 0
  maxAttempts : ℤ := 3
  timeoutSeconds : Option ℤ := none
  dedupKey : Option String := none
  executionScope : Option WorkerExecutionScope := none
  graphIdentity : Option GraphIdentity := none
  leasedBy : Option String := none
  leaseExpiresAt : Option Datetime := none
  scheduledFor : Option Datetime := none
  deriving DecidableEq

/-- What the source raises. -/
inductive WorkerError where
  | keyError (key : String)
  | typeError (message : String)
  | valueError (message : String)
  | indexError
  | overflowError
  deriving DecidableEq

/-- A moment computed by the source, with its `OverflowError`. -/
def moment (t : Except OverflowError Datetime) : Except WorkerError Datetime :=
  match t with
  | .ok t => .ok t
  | .error _ => .error .overflowError

/-- `task_admission_error`: the reason and its message. -/
def taskAdmissionError (task : Task) : Option (String × String) :=
  if task.executionScope = none then
    some ("WorkerExecutionScopeRequired",
      "worker task must declare GRAPH or STANDALONE execution scope")
  else if task.executionScope = some .graph ∧ task.graphIdentity = none then
    some ("GraphIdentityRequired", "graph worker task requires a Graph identity")
  else if task.executionScope = some .standalone ∧ task.graphIdentity ≠ none then
    some ("WorkerExecutionScopeMismatch",
      "standalone worker task cannot carry GraphExecutionIdentity")
  else none

/-- `task.scheduled_for is not None and ensure_utc(task.scheduled_for) > now`. -/
def Task.Delayed (task : Task) (now : Datetime) : Prop := ∃ t ∈ task.scheduledFor, now < t

instance (task : Task) (now : Datetime) : Decidable (task.Delayed now) :=
  decidable_of_iff (task.scheduledFor.any fun t => decide (now < t)) (by
    simp [Task.Delayed, Option.any_eq_true])

structure TaskError where
  errorType : String
  errorMessage : String
  retryable : Bool := true
  deriving DecidableEq

/-! ## Policies -/

/-- `TaskRetryPolicy`.  The delay `int(base_delay_seconds * backoff_multiplier ** n)` is a
floating-point computation that can raise, so it is a field. -/
structure TaskRetryPolicy where
  maxAttempts : ℤ := 3
  maxDelaySeconds : ℤ := 900
  scaledDelay : ℕ → Except WorkerError ℤ := fun n => .ok (30 * 2 ^ n)
  retryableErrorTypes : List String := []
  nonRetryableErrorTypes : List String := []

namespace TaskRetryPolicy

/-- The smaller of the task's own limit and that of the policy. -/
def attemptLimit (p : TaskRetryPolicy) (task : Task) : ℤ := min task.maxAttempts p.maxAttempts

def ShouldRetry (p : TaskRetryPolicy) (task : Task) (error : TaskError) : Prop :=
  error.errorType ∉ p.nonRetryableErrorTypes ∧
    (p.retryableErrorTypes = [] ∨ error.errorType ∈ p.retryableErrorTypes) ∧
      error.retryable = true ∧ task.attempts < p.attemptLimit task

instance (p : TaskRetryPolicy) (task : Task) (error : TaskError) :
    Decidable (p.ShouldRetry task error) :=
  inferInstanceAs (Decidable (_ ∧ _))

def delaySeconds (p : TaskRetryPolicy) (attempts : ℤ) : Except WorkerError ℤ := do
  let delay ← p.scaledDelay (attempts - 1).toNat
  .ok (min p.maxDelaySeconds delay)

def nextRunAt (p : TaskRetryPolicy) (task : Task) (now : Datetime) :
    Except WorkerError Datetime := do
  let delay ← p.delaySeconds task.attempts
  moment (now.addSeconds delay)

end TaskRetryPolicy

structure BackpressurePolicy where
  maxPendingPerQueue : Option ℤ := none
  deriving DecidableEq

def BackpressurePolicy.ShouldReject (p : BackpressurePolicy) (pendingCount : ℕ) : Prop :=
  ∃ limit ∈ p.maxPendingPerQueue, limit ≤ pendingCount

instance (p : BackpressurePolicy) (pendingCount : ℕ) : Decidable (p.ShouldReject pendingCount) :=
  inferInstanceAs (Decidable (∃ limit ∈ p.maxPendingPerQueue, limit ≤ (pendingCount : ℤ)))

end Workers
