/-
# Task projections and admission

The projected state of every task of a plan, and the admission that allocates
attempts to logically ready tasks together with their budget reservations.
-/
import AgoraHub.TaskPlanLedgerInvariant

namespace TaskPlan

open Fallible TaskPlanBudgetLedger

variable (sha256 : String → HexDigest)

/-! ## Task lifecycle -/

inductive TaskLifecycle where
  | pending
  | ready
  | admitted
  | dispatched
  | running
  | succeeded
  | failed
  | cancelled
  | indeterminate
  | quarantined
  | skipped
  | blocked
  | blockedDependency
  deriving DecidableEq

namespace TaskLifecycle

/-- The text of a state. -/
def value : TaskLifecycle → String
  | pending => "pending"
  | ready => "ready"
  | admitted => "admitted"
  | dispatched => "dispatched"
  | running => "running"
  | succeeded => "succeeded"
  | failed => "failed"
  | cancelled => "cancelled"
  | indeterminate => "indeterminate"
  | quarantined => "quarantined"
  | skipped => "skipped"
  | blocked => "blocked"
  | blockedDependency => "blocked_dependency"

/-- `ACTIVE_TASK_STATES`. -/
def active : List TaskLifecycle := [admitted, dispatched, running]

def attemptOutcomes : List TaskLifecycle :=
  [succeeded, failed, cancelled, indeterminate, quarantined]

/-- `_TASK_TRANSITIONS`. -/
def transitions : TaskLifecycle → List TaskLifecycle
  | pending => [ready, skipped, blocked, blockedDependency, cancelled]
  | ready => [admitted, skipped, blocked, blockedDependency, cancelled]
  | admitted => attemptOutcomes ++ [dispatched, running]
  | dispatched => attemptOutcomes ++ [running, ready]
  | running => attemptOutcomes ++ [ready]
  | failed => [pending]
  | _ => []

end TaskLifecycle

inductive TaskAdmissionOwner where
  | queue
  | groupWave
  deriving DecidableEq

def validateTaskTransition (source destination : TaskLifecycle) :
    Except HarnessValidationError Unit :=
  require (destination = source ∨ destination ∈ source.transitions)
    ⟨"invalid TaskPlan task state transition", "task_plan_invalid_task_transition",
      [("from", .str source.value), ("to", .str destination.value)]⟩

/-! ## Task projections -/

/-- `TaskProjection`; of its result only the presence is read here. -/
structure TaskProjection where
  taskId : String
  taskDefinitionChecksum : String
  status : TaskLifecycle
  attempts : ℕ
  activeInstanceId : Option String
  admissionOwner : Option TaskAdmissionOwner
  result : Option Json
  failureReasonCode : Option String

namespace TaskProjection

/-- The error of an invalid projection. -/
def invalid (message : String) : HarnessValidationError := ⟨message, "invalid_task_projection", []⟩

/-- A check of a field that may be absent. -/
def checkOptional (check : String → Except HarnessValidationError Unit) :
    Option String → Except HarnessValidationError Unit
  | none => .ok ()
  | some value => check value

/-- `TaskProjection.__post_init__`. -/
def check (t : TaskProjection) : Except HarnessValidationError Unit := do
  identifier t.taskId "task_id"
  checksum t.taskDefinitionChecksum "task_definition_checksum"
  checkOptional (identifier · "active_instance_id") t.activeInstanceId
  checkOptional (identifier · "failure_reason_code") t.failureReasonCode
  require (t.activeInstanceId = none ∨ t.attempts ≠ 0)
    (invalid "active task requires an allocated attempt")
  require (t.status ∈ TaskLifecycle.active → t.activeInstanceId ≠ none)
    (invalid "executing task requires an active instance")
  require (t.status ∈ TaskLifecycle.active → t.admissionOwner ≠ none)
    (invalid "admitted task requires a durable execution owner")
  require (t.status ∉ TaskLifecycle.active → t.activeInstanceId = none)
    (invalid "task state cannot retain an active instance")
  require (t.status ∉ TaskLifecycle.active → t.admissionOwner = none)
    (invalid "task state cannot retain an execution admission owner")
  require (t.status = .indeterminate ∨ t.status = .quarantined → t.attempts ≠ 0)
    (invalid "attempt outcome requires an allocated attempt")
  require (t.status = .succeeded → t.result.isSome = true)
    ⟨"succeeded task projection requires a committed result reference", "invalid_task_projection",
      [("task_id", .str t.taskId)]⟩
  require (t.result.isSome = true → t.status = .succeeded)
    ⟨"only succeeded task projection may carry a result reference", "invalid_task_projection",
      [("task_id", .str t.taskId)]⟩

/-- `transitioned(ADMITTED, attempts=…, active_instance_id=…, admission_owner=…)`. -/
def admitted (t : TaskProjection) (attempts : ℕ) (activeInstanceId : String)
    (owner : TaskAdmissionOwner) : Except HarnessValidationError TaskProjection := do
  validateTaskTransition t.status .admitted
  let updated : TaskProjection :=
    { t with
      status := .admitted, attempts := attempts, activeInstanceId := some activeInstanceId
      admissionOwner := some owner }
  updated.check
  require (t.attempts ≤ attempts ∧ attempts ≤ t.attempts + 1)
    (invalid "task transition has invalid attempt sequence")
  require (t.status = .ready → attempts = t.attempts + 1)
    (invalid "admission must allocate exactly the next attempt")
  require (t.activeInstanceId = none ∨ t.activeInstanceId = some activeInstanceId)
    (invalid "task transition cannot substitute its active attempt")
  require (t.admissionOwner = none ∨ t.admissionOwner = some owner)
    (invalid "task transition cannot substitute its admission owner")
  require (t.status = .admitted → attempts = t.attempts ∧
      t.activeInstanceId = some activeInstanceId ∧ t.admissionOwner = some owner)
    (invalid "repeated task transition cannot rewrite evidence")
  return updated

end TaskProjection

/-! ## Plan projections -/

/-- `TaskPlanProjection`; a consumed budget without a ledger is `none`. -/
structure TaskPlanProjection where
  runId : String
  stageId : String
  graphChecksum : String
  planId : String
  planVersion : ℕ
  planChecksum : String
  policyRef : String
  tasks : List TaskProjection
  consumedBudget : Option BudgetSnapshot
  lastSequence : ℕ
  logicalReadyOrder : List String
  graph : GraphIdentity

namespace TaskPlanProjection

section

variable (p : TaskPlanProjection)

/-- The check that the budget's ledger belongs to the projection. -/
def checkBudgetOwner : Except HarnessValidationError Unit :=
  match p.consumedBudget with
  | none => .ok ()
  | some snapshot => do
    let ledger ← fromSnapshot sha256 snapshot
    require (ledger.fields.runId = p.runId ∧ ledger.fields.stageId = p.stageId ∧
        ledger.fields.policyRef = p.policyRef)
      (identityConflict "TaskPlan budget owner differs from projection identity")

/-- The identifiers of the tasks in a state. -/
def tasksIn (status : TaskLifecycle) : List String :=
  (p.tasks.filter fun t => decide (t.status = status)).map TaskProjection.taskId

/-- The constructor of `TaskPlanProjection`, which sorts the tasks. -/
def construct : Except HarnessValidationError TaskPlanProjection := do
  identifier p.runId "run_id"
  identifier p.stageId "stage_id"
  identifier p.planId "plan_id"
  checksum p.graphChecksum "graph_checksum"
  normalizeGraphOnlyIdentityFields sha256 p.runId p.stageId p.graphChecksum p.graph
  positiveInt p.planVersion "plan_version"
  checksum p.planChecksum "plan_checksum"
  exactReference p.policyRef "policy_ref"
  require (p.tasks.map TaskProjection.taskId).Nodup
    ⟨"TaskPlanProjection task ids must be unique", "duplicate_task_projection", []⟩
  p.logicalReadyOrder.forM (identifier · "logical_ready_order")
  require p.logicalReadyOrder.Nodup
    ⟨"TaskPlanProjection logical ready order must be unique",
      "task_plan_projection_ready_order_mismatch", []⟩
  require (p.logicalReadyOrder ⊆ p.tasksIn .ready ∧ p.tasksIn .ready ⊆ p.logicalReadyOrder)
    ⟨"TaskPlanProjection logical ready order must cover every READY task exactly once",
      "task_plan_projection_ready_order_mismatch",
      [("ready_order", .arr (p.logicalReadyOrder.map .str)),
        ("ready_task_ids", .arr ((PyText.sorted (p.tasksIn .ready)).map .str))]⟩
  checkBudgetOwner sha256 p
  return { p with tasks := p.tasks.insertionSort fun a b => a.taskId ≤ b.taskId }

/-- The projected state of a task. -/
def state? (taskId : String) : Option TaskProjection :=
  p.tasks.find? fun t => decide (t.taskId = taskId)

end

end TaskPlanProjection

def TaskInstance.MatchesPlanProjectionIdentity {sha256 : String → HexDigest}
    (i : TaskInstance sha256) (p : TaskPlanProjection) : Prop :=
  i.fields.runId = p.runId ∧ i.fields.stageId = p.stageId ∧ i.fields.planId = p.planId ∧
    i.fields.planVersion = p.planVersion ∧ i.fields.planChecksum = p.planChecksum ∧
    i.fields.graph = p.graph ∧ i.fields.graphChecksum = p.graphChecksum

instance {sha256 : String → HexDigest} (i : TaskInstance sha256) (p : TaskPlanProjection) :
    Decidable (i.MatchesPlanProjectionIdentity p) := inferInstanceAs (Decidable (_ ∧ _))

/-! ## Admission -/

namespace TaskPlanScheduler

variable {sha256}

/-- The error of an instance that does not fit the projection. -/
def instanceMismatch (message : String) : HarnessValidationError :=
  ⟨message, "task_plan_task_instance_mismatch", []⟩

/-- An attempt that the projection already shows as admitted by this owner. -/
def AlreadyAdmitted (p : TaskPlanProjection) (owner : TaskAdmissionOwner)
    (i : TaskInstance sha256) : Prop :=
  ∃ t ∈ p.state? i.fields.taskId, t.status = .admitted ∧ t.attempts = i.fields.attempt ∧
    t.activeInstanceId = some i.fields.taskInstanceId ∧ t.admissionOwner = some owner ∧
    i.MatchesPlanProjectionIdentity p ∧
    i.fields.taskDefinitionChecksum = t.taskDefinitionChecksum

instance (p : TaskPlanProjection) (owner : TaskAdmissionOwner) (i : TaskInstance sha256) :
    Decidable (AlreadyAdmitted p owner i) :=
  inferInstanceAs (Decidable (∃ t ∈ p.state? i.fields.taskId, _))

section

variable (p : TaskPlanProjection)

/-- The checks of one attempt to admit. -/
def checkNextAttempt (i : TaskInstance sha256) : Except HarnessValidationError Unit := do
  let t ← orRaise ((p.state? i.fields.taskId).filter fun t => decide (t.status = .ready))
    ⟨"only logically ready tasks may be admitted", "task_plan_task_not_pending",
      [("task_id", .str i.fields.taskId)]⟩
  require (i.MatchesPlanProjectionIdentity p)
    (instanceMismatch "admission task is outside the accepted projection")
  require (i.fields.attempt = t.attempts + 1 ∧
      i.fields.taskDefinitionChecksum = t.taskDefinitionChecksum)
    ⟨"admission must allocate the exact next task attempt", "task_plan_task_instance_mismatch",
      [("task_id", .str i.fields.taskId)]⟩

/-- The projected tasks with the selected ones admitted. -/
def admittedTasks (owner : TaskAdmissionOwner) (selected : List (TaskInstance sha256)) :
    Except HarnessValidationError (List TaskProjection) :=
  p.tasks.mapM fun t =>
    match selected.find? fun i => decide (i.fields.taskId = t.taskId) with
    | some i => t.admitted i.fields.attempt i.fields.taskInstanceId owner
    | none => .ok t

/-- `TaskPlanBudgetLedger.from_snapshot` of the consumed budget. -/
def consumedLedger : Except HarnessValidationError (TaskPlanBudgetLedger sha256) := do
  let snapshot ← orRaise p.consumedBudget (invalidSnapshot "budget snapshot requires a ledger")
  fromSnapshot sha256 snapshot

/-- The redelivery of an admission: its reservations must all be on record. -/
def redeliver (selected : List (TaskInstance sha256)) :
    Except HarnessValidationError TaskPlanProjection := do
  let ledger : TaskPlanBudgetLedger sha256 ← consumedLedger p
  selected.forM fun i => require (i.fields.idempotencyKey ∈ ledger.fields.records.keys)
    ⟨"admitted attempt has no budget reservation", "task_plan_budget_reservation_missing",
      [("task_id", .str i.fields.taskId)]⟩
  let verified ← ledger.reserve selected
  require (verified.fields.ledgerVersion = ledger.fields.ledgerVersion)
    (identityConflict "admission redelivery changed the budget ledger")
  return p

/-- The first admission of attempts: they are reserved in one batch. -/
def admitInstances (selected : List (TaskInstance sha256))
    (owner : TaskAdmissionOwner) : Except HarnessValidationError TaskPlanProjection := do
  let isSelected (taskId : String) := selected.any fun i => decide (i.fields.taskId = taskId)
  require (p.logicalReadyOrder.filter isSelected = selected.map fun i => i.fields.taskId)
    ⟨"task admission does not preserve logical ready order", "task_plan_ready_order_mismatch", []⟩
  selected.forM (checkNextAttempt p)
  let tasks ← admittedTasks p owner selected
  let ledger : TaskPlanBudgetLedger sha256 ← consumedLedger p
  require (ledger.fields.runId = p.runId ∧ ledger.fields.stageId = p.stageId ∧
      ledger.fields.policyRef = p.policyRef)
    (identityConflict "budget ledger owner differs from projection")
  let admittedLedger ← ledger.reserve selected
  TaskPlanProjection.construct sha256
    { p with
      tasks := tasks
      logicalReadyOrder := p.logicalReadyOrder.filter fun taskId => !isSelected taskId
      consumedBudget := some admittedLedger.snapshot }

def admitReadyTasks (selected : List (TaskInstance sha256))
    (owner : TaskAdmissionOwner) : Except HarnessValidationError TaskPlanProjection := do
  require (selected ≠ [])
    (instanceMismatch "task admission requires typed task instances")
  require (selected.map fun i => i.fields.taskId).Nodup
    ⟨"task admission contains duplicate task ids", "task_plan_duplicate_ready_task", []⟩
  if ∀ i ∈ selected, AlreadyAdmitted p owner i then redeliver p selected
  else do
    require (∀ i ∈ selected, ¬ AlreadyAdmitted p owner i)
      (instanceMismatch "task admission is partially present")
    admitInstances p selected owner

end

theorem consumedBudget_of_construct {p p' : TaskPlanProjection}
    (h : TaskPlanProjection.construct sha256 p = .ok p') : p'.consumedBudget = p.consumedBudget := by
  unfold TaskPlanProjection.construct at h
  iterate 13 replace h := (check_inv h).2
  cases h
  rfl

/-- An admission that returns has consumed the batch reservation of its attempts. -/
theorem consumedBudget_of_admitReadyTasks {p p' : TaskPlanProjection}
    {selected : List (TaskInstance sha256)} {owner : TaskAdmissionOwner} {snapshot : BudgetSnapshot}
    (h : admitReadyTasks p selected owner = .ok p') (hbudget : p.consumedBudget = some snapshot) :
    ∃ l l' : TaskPlanBudgetLedger sha256, fromSnapshot sha256 snapshot = .ok l ∧
      l.reserve selected = .ok l' ∧ p'.consumedBudget = some l'.snapshot := by
  unfold admitReadyTasks at h
  replace h := (check_inv (check_inv h).2).2
  have hledger : ∀ l : TaskPlanBudgetLedger sha256, consumedLedger p = .ok l →
      fromSnapshot sha256 snapshot = .ok l := by
    intro l hl
    unfold consumedLedger at hl
    rw [hbudget] at hl
    exact hl
  split at h
  · -- redelivery: the reservation is the recorded one, so the snapshot is unchanged
    unfold redeliver at h
    obtain ⟨l, hl, h₁⟩ := bind_inv h
    obtain ⟨-, h₂⟩ := check_inv h₁
    obtain ⟨l', hl', h₃⟩ := bind_inv h₂
    obtain ⟨hversion, hret⟩ := check_inv h₃
    cases hret
    refine ⟨l, l', hledger l hl, hl', ?_⟩
    rw [hbudget, eq_of_reserve_of_version hl' (of_require hversion),
      snapshot_of_fromSnapshot (hledger l hl)]
  · replace h := (check_inv h).2
    unfold admitInstances at h
    replace h := (check_inv (check_inv h).2).2
    obtain ⟨tasks, -, h₁⟩ := bind_inv h
    obtain ⟨l, hl, h₂⟩ := bind_inv h₁
    obtain ⟨-, h₃⟩ := check_inv h₂
    obtain ⟨l', hl', h₄⟩ := bind_inv h₃
    exact ⟨l, l', hledger l hl, hl', consumedBudget_of_construct h₄⟩

end TaskPlanScheduler

end TaskPlan
