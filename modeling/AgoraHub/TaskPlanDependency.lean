/-
# Dependency blocks

What a task that failed for good means for the tasks that depend on it: those that were
not admitted yet are closed, one at a time and in the order of their depths.
-/
import AgoraHub.TaskPlanPatches

namespace TaskPlan

open Fallible

/-- `DEPENDENCY_FAILURE_STATES`. -/
def TaskLifecycle.dependencyFailure : List TaskLifecycle :=
  [failed, cancelled, indeterminate, quarantined, blocked, blockedDependency, skipped]

def taskBlockedUpstreamFailure : String := "TASK_BLOCKED_UPSTREAM_FAILURE"

namespace TaskProjection

section

variable (t : TaskProjection)

def isRecordedDependencyBlock : Bool :=
  decide (t.status = .blockedDependency ∧ t.failureReasonCode = some taskBlockedUpstreamFailure)

def isUnadmittedForDependencyBlock : Bool :=
  decide (t.status ∈ [TaskLifecycle.pending, .ready] ∧ t.activeInstanceId = none ∧
    t.admissionOwner = none)

/-- The blocked state of a task. -/
def blocked : TaskProjection :=
  { t with
    status := .blockedDependency, activeInstanceId := none, admissionOwner := none, result := none
    failureReasonCode := some taskBlockedUpstreamFailure }

/-- `transitioned(BLOCKED_DEPENDENCY, active_instance_id=None, …)`: the attempts stay, and a task in
another state than this one is blocked. -/
def transitionedBlocked : Except HarnessValidationError TaskProjection := do
  validateTaskTransition t.status .blockedDependency
  t.blocked.check
  return t.blocked

end

end TaskProjection

section Plan

variable (contracts : PlanContracts) (plan : ValidatedTaskPlan) (projection : TaskPlanProjection)

def definitionForProjection (t : TaskProjection) : Except HarnessValidationError ResolvedTaskSpec :=
  orRaise ((plan.tasks.find? fun r => decide (r.taskId = t.taskId)).filter fun r =>
      decide (contracts.definitionChecksum r = t.taskDefinitionChecksum))
    ⟨"TaskPlan task projection does not match accepted plan", "task_plan_task_instance_mismatch",
      [("task_id", .str t.taskId)]⟩

def terminalTaskFailure (t : TaskProjection) : Except HarnessValidationError Bool := do
  let definition ← definitionForProjection contracts plan t
  if t.status ∉ TaskLifecycle.dependencyFailure then return false
  else if t.status ≠ .failed then return true
  else
    let retryPolicy := definition.normalizedRetryPolicy
    return decide ((∀ code, t.failureReasonCode = some code →
        code ∉ retryPolicy.retryableReasonCodes) ∨ retryPolicy.maxAttempts ≤ t.attempts)

/-- The definitions of the plan by task. -/
def definitionsOf : PyDict String ResolvedTaskSpec :=
  PyDict.ofItems ResolvedTaskSpec.taskId id plan.tasks

/-- The projected states by task. -/
abbrev statesOf : PyDict String TaskProjection := TaskPlanPatchValidator.statesOf projection

/-- The check that a state is of the definition of its task. -/
def checkState (p : String × TaskProjection) : Except HarnessValidationError Unit :=
  require (((definitionsOf plan).get? p.1).any fun definition =>
      decide (contracts.definitionChecksum definition = p.2.taskDefinitionChecksum))
    ⟨"TaskPlan projection task definition does not match accepted plan",
      "task_plan_task_instance_mismatch", [("task_id", .str p.1)]⟩

/-- `_validated_plan_projection`: the depths of the tasks of a plan and a projection that belong
together. -/
def validatedPlanProjection : Except HarnessValidationError (PyDict String ℕ) := do
  require (projection.MatchesPlanIdentity contracts plan)
    ⟨"TaskPlan projection does not match accepted plan identity",
      "task_plan_projection_identity_mismatch", []⟩
  let missing := denied (definitionsOf plan).keys (statesOf projection).keys
  let unexpected := denied (statesOf projection).keys (definitionsOf plan).keys
  require (missing = [] ∧ unexpected = [])
    ⟨"TaskPlan projection task scope does not match accepted plan",
      "task_plan_projection_incomplete", [("missing_task_ids", .arr (missing.map .str)),
        ("unexpected_task_ids", .arr (unexpected.map .str))]⟩
  (statesOf projection).forM (checkState contracts plan)
  (dependenciesOf (definitionsOf plan)).taskDependencyDepths none

def reverseDependencies (taskId : String) : List String :=
  PyText.sorted ((dependenciesOf (definitionsOf plan)).dependents taskId)

/-- Whether a state is a cause of dependency blocks. -/
def isCausalRoot (t : TaskProjection) : Except HarnessValidationError Bool := do
  let terminal ← terminalTaskFailure contracts plan t
  return terminal || t.isRecordedDependencyBlock

/-- The states of a list that are causes of dependency blocks. -/
def causalRoots : List TaskProjection → Except HarnessValidationError (List TaskProjection)
  | [] => .ok []
  | t :: states => do
    let root ← isCausalRoot contracts plan t
    let roots ← causalRoots states
    return if root then t :: roots else roots

/-- The order in which tasks are blocked. -/
def depthLe (depths : PyDict String ℕ) (a b : String) : Prop :=
  let depth taskId := (depths.get? taskId).getD 0
  depth a < depth b ∨ (depth a = depth b ∧ a ≤ b)

instance (depths : PyDict String ℕ) : DecidableRel (depthLe depths) :=
  fun _ _ => inferInstanceAs (Decidable (_ ∨ _))

def dependencyBlockedTaskIds : Except HarnessValidationError (List String) := do
  let depths ← validatedPlanProjection contracts plan projection
  let roots ← causalRoots contracts plan (statesOf projection).values
  let reachable := GraphSearch.descendants (reverseDependencies plan) (definitionsOf plan).keys
    (PyText.sorted (roots.map TaskProjection.taskId))
  return (reachable.insertionSort (depthLe depths)).filter fun taskId =>
    ((statesOf projection).get? taskId).any TaskProjection.isUnadmittedForDependencyBlock

/-- The dependencies of a list that are causes of the block of a task. -/
def causalPredecessors : List String → Except HarnessValidationError (List String)
  | [] => .ok []
  | dependencyId :: dependencies => do
    let state ← orRaise ((statesOf projection).get? dependencyId) (keyError dependencyId)
    let root ← isCausalRoot contracts plan state
    let predecessors ← causalPredecessors dependencies
    return if root then dependencyId :: predecessors else predecessors

/-- The error of a target that the plan does not define. -/
def unknownBlockTarget (taskId : String) : HarnessValidationError :=
  ⟨"dependency block target is not part of the accepted plan", "task_plan_unknown_task",
    [("task_id", .str taskId)]⟩

def dependencyBlockingPredecessorIds (taskId : String) :
    Except HarnessValidationError (List String) := do
  let _ ← validatedPlanProjection contracts plan projection
  let definition ← orRaise ((definitionsOf plan).get? taskId) (unknownBlockTarget taskId)
  causalPredecessors contracts plan projection definition.dependsOn

def blockDependencyTask (sha256 : String → HexDigest) (taskId : String) :
    Except HarnessValidationError TaskPlanProjection := do
  let _ ← validatedPlanProjection contracts plan projection
  let _ ← orRaise ((definitionsOf plan).get? taskId) (unknownBlockTarget taskId)
  let state ← orRaise ((statesOf projection).get? taskId) (keyError taskId)
  if state.isRecordedDependencyBlock then return projection
  else do
    require (state.isUnadmittedForDependencyBlock = true)
      ⟨"dependency block target has an active admitted attempt",
        "task_plan_dependency_block_not_unadmitted",
        [("task_id", .str taskId), ("status", .str state.status.value),
          ("attempts", .int state.attempts)]⟩
    let predecessors ← dependencyBlockingPredecessorIds contracts plan projection taskId
    require (predecessors ≠ [])
      ⟨"dependency block target has no terminal upstream failure",
        "task_plan_dependency_block_cause_missing", [("task_id", .str taskId)]⟩
    let blocked ← state.transitionedBlocked
    TaskPlanProjection.construct sha256
      { projection with
        tasks := projection.tasks.map fun t => if t.taskId = taskId then blocked else t
        logicalReadyOrder := projection.logicalReadyOrder.filter fun id => decide (id ≠ taskId) }

end Plan

/-- Every task of `dependency_blocked_task_ids` is blocked, in order. -/
def blockDependencies (sha256 : String → HexDigest) (contracts : PlanContracts)
    (plan : ValidatedTaskPlan) (projection : TaskPlanProjection) :
    Except HarnessValidationError TaskPlanProjection := do
  let targets ← dependencyBlockedTaskIds contracts plan projection
  targets.foldlM (fun p taskId => blockDependencyTask contracts plan p sha256 taskId) projection

end TaskPlan
