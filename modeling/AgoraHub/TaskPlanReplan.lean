/-
# Patched plans

`InMemoryTaskPlanStore.accept_patched_plan` on the records of one stage: the patched plan
becomes the current one, the states of its tasks are carried over or start anew, and the
replaced and the skipped tasks are closed, in one commit.
-/
import AgoraHub.TaskPlanDependency

namespace TaskPlan

open Fallible

/-! ## Records of a stage -/

/-- `TaskPlanEvent`, as far as a patched plan writes it. -/
structure TaskPlanEvent where
  eventType : String
  runId : String
  stageId : String
  graphChecksum : String
  graph : GraphIdentity
  planId : String
  planVersion : ℕ
  taskId : Option String
  inputChecksum : Option String
  reasonCode : Option String
  payload : Json
  sequence : ℕ

def TaskPlanEvent.forPlan (eventType : String) (plan : ValidatedTaskPlan) (taskId : Option String)
    (inputChecksum reasonCode : Option String) (payload : Json) (sequence : ℕ) : TaskPlanEvent :=
  { eventType := eventType, runId := plan.runId, stageId := plan.stageId
    graphChecksum := plan.graphChecksum, graph := plan.graph, planId := plan.planId
    planVersion := plan.version, taskId := taskId, inputChecksum := inputChecksum
    reasonCode := reasonCode, payload := payload, sequence := sequence }

/-- What the store holds of one stage. -/
structure TaskPlanStage where
  plans : PyDict ℕ ValidatedTaskPlan
  patches : PyDict String PlanPatch
  projection : Option TaskPlanProjection
  events : List TaskPlanEvent

namespace TaskPlanStage

def currentPlan (stage : TaskPlanStage) : Option ValidatedTaskPlan :=
  stage.plans.values.argmax ValidatedTaskPlan.version

def nextSequence (stage : TaskPlanStage) : ℕ := stage.events.length + 1

/-- Plans are kept under their versions, and the projection has one state a task. -/
structure Valid (stage : TaskPlanStage) : Prop where
  keyed : ∀ p ∈ stage.plans, p.2.version = p.1
  unique : ∀ p, stage.projection = some p → (p.tasks.map TaskProjection.taskId).Nodup

end TaskPlanStage

/-! ## The projection of a patched plan -/

section Projection

variable (sha256 : String → HexDigest) (contracts : PlanContracts)

/-- The states that a new plan carries over. -/
def TaskLifecycle.carried : List TaskLifecycle := [succeeded, failed, skipped, blockedDependency]

/-- The first state of a task. -/
def pendingState (definition : ResolvedTaskSpec) : TaskProjection where
  taskId := definition.taskId
  taskDefinitionChecksum := contracts.definitionChecksum definition
  status := .pending
  attempts := 0
  activeInstanceId := none
  admissionOwner := none
  result := none
  failureReasonCode := none

/-- The previous state of a task, where the new plan carries it over. -/
def carriedState? (previous : TaskPlanProjection) (definition : ResolvedTaskSpec) :
    Option TaskProjection :=
  ((statesOf previous).get? definition.taskId).filter fun old =>
    decide (old.taskDefinitionChecksum = contracts.definitionChecksum definition ∧
      old.status ∈ TaskLifecycle.carried)

/-- The state of a task in a new plan. -/
def nextState (previous : TaskPlanProjection) (definition : ResolvedTaskSpec) :
    Except HarnessValidationError TaskProjection :=
  match carriedState? contracts previous definition with
  | some old => .ok old
  | none => do
    (pendingState contracts definition).check
    return pendingState contracts definition

/-- `_projection_for_plan` after a previous projection. -/
def projectionForPlan (plan : ValidatedTaskPlan) (sequence : ℕ) (previous : TaskPlanProjection) :
    Except HarnessValidationError TaskPlanProjection := do
  let tasks ← plan.tasks.mapM (nextState contracts previous)
  TaskPlanProjection.construct sha256
    { runId := plan.runId, stageId := plan.stageId, graphChecksum := plan.graphChecksum
      planId := plan.planId, planVersion := plan.version
      planChecksum := contracts.planChecksum plan, policyRef := plan.policyRef, tasks := tasks
      consumedBudget := previous.consumedBudget, lastSequence := sequence, logicalReadyOrder := []
      graph := plan.graph }

/-- The closed state of a task that a patch replaces or skips. -/
def TaskProjection.closed (t : TaskProjection) (reason : String) : TaskProjection :=
  { t with status := .skipped, activeInstanceId := none, failureReasonCode := some reason }

/-- One task is closed in a projection, with the next sequence number, if the tasks that the change
names are there. -/
def closeTask (unknown : HarnessValidationError) (named : List String) (reason : String)
    (projection : TaskPlanProjection) (taskId : String) :
    Except HarnessValidationError TaskPlanProjection := do
  require (∀ id ∈ named, (projection.state? id).isSome = true) unknown
  let tasks ← projection.tasks.mapM fun t =>
    if t.taskId = taskId then do
      (t.closed reason).check
      return t.closed reason
    else .ok t
  TaskPlanProjection.construct sha256
    { projection with tasks := tasks, lastSequence := projection.lastSequence + 1 }

end Projection

/-! ## Checks of the targets -/

def replacementMapping (patch : PlanPatch) : Except HarnessValidationError (PyDict String String) :=
  patch.operations.foldlM (fun mapping operation =>
    match operation with
    | .addReplacementTask target replacement => do
      require (target ∉ mapping.keys)
        ⟨"a patch may replace each task only once", "task_plan_patch_duplicate_target",
          [("task_id", .str target)]⟩
      return mapping.set target replacement.taskId
    | _ => return mapping) []

/-- The checks of a task that is skipped. -/
def checkSkipTarget (current : ValidatedTaskPlan) (projection : TaskPlanProjection)
    (taskId : String) : Except HarnessValidationError Unit := do
  let unknown : HarnessValidationError :=
    ⟨"patched plan skip references unknown task", "task_plan_unknown_task",
      [("task_id", .str taskId)]⟩
  let definition ← orRaise ((definitionsOf current).get? taskId) unknown
  let state ← orRaise ((statesOf projection).get? taskId) unknown
  require (state.status ∈ patchableStates)
    ⟨"only pending tasks may be skipped", "task_plan_patch_task_not_pending",
      [("task_id", .str taskId), ("status", .str state.status.value)]⟩
  require (definition.outputRole ∉ current.requiredOutputRoles)
    ⟨"required output task cannot be skipped", "task_plan_patch_required_role",
      [("task_id", .str taskId), ("output_role", .str definition.outputRole)]⟩

/-- The checks of a task that is replaced. -/
def checkReplaceTarget (current nextPlan : ValidatedTaskPlan) (projection : TaskPlanProjection)
    (replaced : String × String) : Except HarnessValidationError Unit := do
  let unknown : HarnessValidationError :=
    ⟨"patched plan replacement references unknown task", "task_plan_unknown_task",
      [("replaced_task_id", .str replaced.1), ("replacement_task_id", .str replaced.2)]⟩
  let old ← orRaise ((definitionsOf current).get? replaced.1) unknown
  let state ← orRaise ((statesOf projection).get? replaced.1) unknown
  let replacement ← orRaise ((definitionsOf nextPlan).get? replaced.2) unknown
  require (state.status ∈ patchableStates)
    ⟨"replacement may only target an unstarted or failed task", "task_plan_patch_task_not_pending",
      [("task_id", .str replaced.1), ("status", .str state.status.value)]⟩
  require (replacement.outputRole = old.outputRole)
    ⟨"replacement task must preserve the target output role",
      "task_plan_replacement_output_role_mismatch",
      [("target_task_id", .str replaced.1), ("target_role", .str old.outputRole),
        ("replacement_task_id", .str replaced.2), ("replacement_role", .str replacement.outputRole)]⟩

def validatePatchTransitionTargets (contracts : PlanContracts) (current nextPlan : ValidatedTaskPlan)
    (projection : TaskPlanProjection) (replacements : PyDict String String)
    (skippedTaskIds : List String) : Except HarnessValidationError Unit := do
  require (projection.MatchesPlanIdentity contracts current)
    ⟨"patched plan base projection does not match the accepted plan",
      "task_plan_projection_identity_mismatch", []⟩
  require (∀ taskId ∈ replacements.keys, taskId ∉ skippedTaskIds)
    ⟨"a patch cannot replace and skip the same task", "task_plan_patch_duplicate_target", []⟩
  skippedTaskIds.forM (checkSkipTarget current projection)
  replacements.forM (checkReplaceTarget current nextPlan projection)

/-! ## The commit -/

namespace TaskPlanStage

variable (sha256 : String → HexDigest) (contracts : PlanContracts)

/-- The checks that a patched plan follows the current one. -/
def checkSuccessor (current : ValidatedTaskPlan) (patch : PlanPatch) (plan : ValidatedTaskPlan) :
    Except HarnessValidationError Unit := do
  require (patch.MatchesPlanIdentity current)
    ⟨"patched plan base is stale", "task_plan_stale_patch", []⟩
  require (plan.SharesStageIdentity current ∧ plan.policyRef = current.policyRef ∧
      plan.policyChecksum = current.policyChecksum)
    ⟨"patched plan identity does not match its accepted base", "task_plan_patch_scope_mismatch", []⟩
  require (plan.parentPlanId = some current.planId ∧ plan.version = current.version + 1)
    ⟨"patched plan version is not monotonic", "task_plan_version_conflict", []⟩
  require (plan.sourceCandidateRef = contracts.patchChecksum patch)
    ⟨"patched plan source does not match patch checksum", "task_plan_patch_checksum_mismatch", []⟩

/-- A replaced task is closed. -/
def closeReplaced (projection : TaskPlanProjection) (replaced : String × String) :
    Except HarnessValidationError TaskPlanProjection :=
  closeTask sha256
    ⟨"patched plan replacement references unknown task", "task_plan_unknown_task",
      [("replaced_task_id", .str replaced.1), ("replacement_task_id", .str replaced.2)]⟩
    [replaced.1, replaced.2] "plan_patch_replaced" projection replaced.1

/-- A skipped task is closed. -/
def closeSkipped (projection : TaskPlanProjection) (taskId : String) :
    Except HarnessValidationError TaskPlanProjection :=
  closeTask sha256
    ⟨"patched plan skip references unknown task", "task_plan_unknown_task",
      [("task_id", .str taskId)]⟩
    [taskId] "plan_patch_skip" projection taskId

/-- The projection of a patched plan, with the replaced and then the skipped tasks closed. -/
def replannedProjection (plan : ValidatedTaskPlan) (sequence : ℕ) (previous : TaskPlanProjection)
    (replaced : List (String × String)) (skipped : List String) :
    Except HarnessValidationError TaskPlanProjection := do
  let carried ← projectionForPlan sha256 contracts plan sequence previous
  let closed ← replaced.foldlM (closeReplaced sha256) carried
  skipped.foldlM (closeSkipped sha256) closed

/-- The events of a patched plan. -/
def replanEvents (current : ValidatedTaskPlan) (patch : PlanPatch) (plan : ValidatedTaskPlan)
    (sequence : ℕ) (replaced : List (String × String)) (skipped : List String) :
    List TaskPlanEvent :=
  let planChecksum := contracts.planChecksum plan
  let patchRef := contracts.patchChecksum patch
  [.forPlan "PLAN_PATCH_ACCEPTED" current none (some patchRef) (some patch.reasonCode)
      (.obj [("patch_ref", .str patchRef)]) sequence,
    .forPlan "PLAN_ACCEPTED" plan none (some planChecksum) none
      (.obj [("plan_ref", .str planChecksum), ("policy_ref", .str plan.policyRef)]) (sequence + 1)] ++
    (replaced.zipIdx.map fun p => .forPlan "TASK_REPLACED" plan (some p.1.1) (some planChecksum)
      (some "plan_patch_replaced")
      (.obj [("replaced_task_id", .str p.1.1), ("replacement_task_id", .str p.1.2)])
      (sequence + 2 + p.2)) ++
    (skipped.zipIdx.map fun p => .forPlan "TASK_SKIPPED" plan (some p.1) (some planChecksum)
      (some "plan_patch_skip") (.obj []) (sequence + 2 + replaced.length + p.2))

/-- `accept_patched_plan`, without a group to supersede. -/
def acceptPatchedPlan (stage : TaskPlanStage) (patch : PlanPatch) (plan : ValidatedTaskPlan)
    (skippedTaskIds : List String) : Except HarnessValidationError TaskPlanStage := do
  skippedTaskIds.forM (identifier · "skipped_task_ids")
  let skipIds := PyText.sortedSet skippedTaskIds
  let replacements ← replacementMapping patch
  let current ← orRaise stage.currentPlan
    ⟨"patched plan base is stale", "task_plan_stale_patch", []⟩
  checkSuccessor contracts current patch plan
  let projection ← orRaise stage.projection
    ⟨"patched plan base projection is missing", "task_plan_projection_missing", []⟩
  validatePatchTransitionTargets contracts current plan projection replacements skipIds
  validatePatchActiveSiblings projection
    (replacements.keys ++ skipIds ++ patch.operations.map PlanPatchOperation.targetTaskId)
  match stage.plans.get? plan.version with
  | some existing => do
    require (contracts.planChecksum existing = contracts.planChecksum plan)
      ⟨"patched plan version checksum conflict", "task_plan_checksum_conflict", []⟩
    return stage
  | none => do
    let replaced := (PyText.sorted replacements.keys).map fun taskId =>
      (taskId, (replacements.get? taskId).getD "")
    let next ← replannedProjection sha256 contracts plan (stage.nextSequence + 1) projection replaced
      skipIds
    return { stage with
      plans := stage.plans.set plan.version plan
      patches := stage.patches.setDefault (contracts.patchChecksum patch) patch
      projection := some next
      events := stage.events ++
        replanEvents contracts current patch plan stage.nextSequence replaced skipIds }

end TaskPlanStage

/-- The tasks that a patch skips. -/
def PlanPatch.skippedTaskIds (patch : PlanPatch) : List String :=
  patch.operations.filterMap fun operation =>
    match operation with
    | .skipPendingTask target => some target
    | _ => none

/-- The tasks that a patch replaces or skips. -/
def PlanPatch.closedTaskIds (patch : PlanPatch) : List String :=
  patch.operations.filterMap fun operation =>
    match operation with
    | .addReplacementTask target _ => some target
    | .skipPendingTask target => some target
    | .updatePendingDependency _ _ => none

end TaskPlan
