/-
# Plan patches

`TaskPlanPatchValidator.apply`: a patch is checked against the plan, the projected states
of its tasks and the policy, and gives the next version of the plan.  What depends on a
replaced task depends on its replacement in the new plan.

`resolve` is the capability registry under the policy.
-/
import AgoraHub.TaskPlanModels

namespace TaskPlan

open Fallible ResolvedTaskSpec

/-- `KeyError`, which is no validation error and has no code. -/
def keyError (key : String) : HarnessValidationError := ⟨key, "", []⟩

/-! ## Rewiring -/

def withTaskGraph (resolved : ResolvedTaskSpec) (dependsOn inputRefs : List String) :
    Except HarnessValidationError ResolvedTaskSpec := do
  let task ← TaskSpec.construct
    { resolved.task with dependsOn := dependsOn, inputRefs := inputRefs }
  ResolvedTaskSpec.construct { resolved with task := task }

def withDependencies (resolved : ResolvedTaskSpec) (dependsOn : List String) :
    Except HarnessValidationError ResolvedTaskSpec :=
  withTaskGraph resolved dependsOn resolved.task.inputRefs

def rewireTaskReference (value : String) (replacements : PyDict String String) :
    Except HarnessValidationError String := do
  let producer ← taskReferenceProducer value replacements.keys
  match producer.bind fun p => (replacements.get? p).map fun r => (p, r) with
  | none => return value
  | some (producer, replacement) =>
    match taskReferenceRemainder value with
    | some (start, rest) => return start ++ replacement ++ String.ofList (rest.drop producer.length)
    | none => return replacement

/-- The definition of a task with its dependencies and references rewired. -/
def rewire (replacements : PyDict String String) (resolved : ResolvedTaskSpec) :
    Except HarnessValidationError ResolvedTaskSpec := do
  let dependencies := resolved.dependsOn.map fun d => (replacements.get? d).getD d
  let inputRefs ← resolved.task.inputRefs.mapM fun value => rewireTaskReference value replacements
  if dependencies ≠ resolved.dependsOn ∨ inputRefs ≠ resolved.task.inputRefs then
    withTaskGraph resolved dependencies inputRefs
  else return resolved

/-! ## Operations -/

/-- The dependencies of the tasks that are defined. -/
def dependenciesOf (definitions : PyDict String ResolvedTaskSpec) : Dependencies :=
  definitions.map fun p => (p.1, p.2.dependsOn)

/-- What the operations of a patch have changed. -/
structure PatchState where
  nextDefinitions : PyDict String ResolvedTaskSpec
  skipped : List String
  replacements : PyDict String String
  targeted : List String

/-- The states of tasks that a patch may change. -/
def patchableStates : List TaskLifecycle := [.pending, .ready, .failed]

/-- `state.status` of a target, which must be in one of the states that a patch may change. -/
def requirePatchable (states : PyDict String TaskProjection) (target message : String) :
    Except HarnessValidationError Unit := do
  let state ← orRaise (states.get? target) (keyError target)
  require (state.status ∈ patchableStates) ⟨message, "task_plan_patch_task_not_pending", []⟩

/-- One operation of a patch. -/
def applyOperation (definitions : PyDict String ResolvedTaskSpec)
    (states : PyDict String TaskProjection)
    (resolve : String → Except HarnessValidationError ResolvedCapabilityBinding)
    (policy : TaskPlanPolicy) (state : PatchState) (operation : PlanPatchOperation) :
    Except HarnessValidationError PatchState := do
  let target := operation.targetTaskId
  require (target ∉ state.targeted)
    ⟨"a patch may modify each target task only once", "task_plan_patch_duplicate_target",
      [("task_id", .str target)]⟩
  let state := { state with targeted := state.targeted ++ [target] }
  match operation with
  | .addReplacementTask _ replacement =>
    require (target ∈ definitions.keys)
      ⟨"replacement target is unknown", "task_plan_patch_unknown_task", []⟩
    requirePatchable states target "replacement may only target an unstarted or failed task"
    require (replacement.taskId ∉ state.nextDefinitions.keys)
      ⟨"replacement task id already exists", "task_plan_duplicate_task_id", []⟩
    let binding ← resolve replacement.workerCapability
    let resolved ← binding.resolveTask replacement policy
    return { state with
      nextDefinitions := state.nextDefinitions.set replacement.taskId resolved
      replacements := state.replacements.set target replacement.taskId }
  | .skipPendingTask _ =>
    let definition ← orRaise (state.nextDefinitions.get? target)
      ⟨"skip target is unknown", "task_plan_patch_unknown_task", []⟩
    requirePatchable states target "only pending tasks may be skipped"
    require (definition.outputRole ∉ policy.requiredOutputRoles)
      ⟨"required output task cannot be skipped", "task_plan_patch_required_role", []⟩
    return { state with skipped := state.skipped ++ [target] }
  | .updatePendingDependency _ dependsOn =>
    let old ← orRaise (state.nextDefinitions.get? target)
      ⟨"dependency target is unknown", "task_plan_patch_unknown_task", []⟩
    requirePatchable states target "only not-started tasks may change dependencies"
    let updated ← withDependencies old dependsOn
    return { state with nextDefinitions := state.nextDefinitions.set target updated }

def validatePatchActiveSiblings (projection : TaskPlanProjection) (targeted : List String) :
    Except HarnessValidationError Unit :=
  let active := (projection.tasks.filter fun t =>
    decide (t.status ∈ TaskLifecycle.active ∧ t.taskId ∉ targeted)).map TaskProjection.taskId
  require (active = [])
    ⟨"plan patch cannot modify a task while an unrelated sibling attempt is active",
      "task_plan_patch_active_sibling",
      [("active_task_ids", .arr ((PyText.sorted active).map .str))]⟩

/-- The checks of a replacement: it has the role of its target and does not depend on it. -/
def checkReplacement (definitions nextDefinitions : PyDict String ResolvedTaskSpec)
    (replaced : String × String) : Except HarnessValidationError Unit := do
  let target ← orRaise (definitions.get? replaced.1) (keyError replaced.1)
  let replacement ← orRaise (nextDefinitions.get? replaced.2) (keyError replaced.2)
  require (replacement.outputRole = target.outputRole)
    ⟨"replacement task must preserve the target output role",
      "task_plan_replacement_output_role_mismatch",
      [("target_task_id", .str replaced.1), ("target_role", .str target.outputRole),
        ("replacement_task_id", .str replaced.2), ("replacement_role", .str replacement.outputRole)]⟩
  require (replaced.1 ∉ replacement.dependsOn)
    ⟨"replacement task cannot depend on the task it replaces",
      "task_plan_replacement_dependency_invalid",
      [("target_task_id", .str replaced.1), ("replacement_task_id", .str replaced.2)]⟩

/-- The definitions after the rewiring, whose dependencies are analysed once more. -/
def rewireDefinitions (policy : TaskPlanPolicy) (replacements : PyDict String String)
    (definitions : PyDict String ResolvedTaskSpec) :
    Except HarnessValidationError (PyDict String ResolvedTaskSpec) :=
  if replacements = [] then .ok definitions
  else do
    let rewired ← definitions.mapM fun p => do
      let resolved ← rewire replacements p.2
      return (p.1, resolved)
    let _ ← (dependenciesOf rewired).taskDependencyDepths (some policy.maxDepth)
    return rewired

/-! ## Budgets and roles -/

/-- `totals[name] += value` for every amount of a budget. -/
def addBudget (totals : Amounts) (budget : TaskBudget) : Except HarnessValidationError Amounts := do
  BudgetField.all.forM fun d =>
    require ((budget.amounts.get d).isSome = true → (totals.get d).isSome = true) (keyError d.name)
  return Amounts.ofFn fun d => (totals.get d).map fun n => n + budget.amounts.amount d

/-- The checks of one definition of the new plan. -/
def checkDefinition (policy : TaskPlanPolicy) (available known : List String)
    (p : String × ResolvedTaskSpec) : Except HarnessValidationError Unit := do
  let resolved := p.2
  require (resolved.task.outputContract.schemaRef ∈ policy.allowedOutputSchemaRefs)
    ⟨"patch output schema is outside policy", "task_plan_output_schema_not_allowed", []⟩
  require (resolved.outputRole ∈ policy.allowedOutputRoles)
    ⟨"patch output role is outside policy", "task_plan_role_not_allowed",
      [("task_id", .str p.1), ("role", .str resolved.outputRole)]⟩
  resolved.task.inputRefs.forM fun inputRef => do
    match ← taskReferenceProducer inputRef known with
    | some producer =>
      require (producer ∈ known)
        ⟨"patch input references an unknown task", "task_plan_unknown_dependency",
          [("task_id", .str p.1), ("producer_task_id", .str producer)]⟩
      require (producer ∈ resolved.dependsOn)
        ⟨"patch input reference must be declared as a dependency",
          "task_plan_task_input_dependency_missing",
          [("task_id", .str p.1), ("producer_task_id", .str producer)]⟩
    | none =>
      require (inputRef ∈ policy.allowedInputRefs ∧ inputRef ∈ available)
        ⟨"patch input reference is outside policy", "task_plan_input_reference_unavailable",
          [("task_id", .str p.1), ("input_ref", .str inputRef)]⟩

/-- The definitions that count as producers of their roles: not those of replaced or failed tasks. -/
def producers (states : PyDict String TaskProjection) (replacements : PyDict String String)
    (definitions : PyDict String ResolvedTaskSpec) : List ResolvedTaskSpec :=
  let counts (p : String × ResolvedTaskSpec) : Bool :=
    decide (p.1 ∉ replacements.keys) && (states.get? p.1).all fun s => decide (s.status ≠ .failed)
  (definitions.filter counts).map Prod.snd

/-- The checks of the roles that the new plan produces. -/
def checkRoles (policy : TaskPlanPolicy) (produced : List ResolvedTaskSpec) :
    Except HarnessValidationError Unit := do
  let roles := produced.map outputRole
  let missing := denied policy.requiredOutputRoles roles
  require (missing = [])
    ⟨"patch removes a required output role", "task_plan_patch_required_role",
      [("roles", .arr (missing.map .str))]⟩
  let unauthorized := denied roles policy.allowedOutputRoles
  require (unauthorized = [])
    ⟨"patch creates an unauthorized output role", "task_plan_role_not_allowed",
      [("roles", .arr (unauthorized.map .str))]⟩
  let conflicts := PyText.sortedSet (roles.filter fun role =>
    decide (1 < roles.count role ∧ role ∉ policy.deterministicAggregatorRefs.keys))
  require (conflicts = [])
    ⟨"patch creates an output role conflict", "task_plan_output_conflict",
      [("roles", .arr (conflicts.map .str))]⟩

/-- The names of budget fields as JSON. -/
def fieldNames (fields : List BudgetField) : Json := .arr (fields.map fun d => .str d.name)

/-- The checks that the budgets of the new plan stay within the aggregate budget, together with what
is reserved already. -/
def checkBudgets (sha256 : String → HexDigest) (policy : TaskPlanPolicy) (plan : ValidatedTaskPlan)
    (projection : TaskPlanProjection) (totals : Amounts) : Except HarnessValidationError Unit := do
  let aggregate := policy.aggregateTaskBudget.amounts
  let exceeded := BudgetField.all.filter fun d => decide (aggregate.amount d < totals.amount d)
  require (exceeded = [])
    ⟨"patch exceeds aggregate budget", "task_plan_budget_exceeded",
      [("fields", fieldNames exceeded)]⟩
  let previous ← plan.tasks.foldlM (fun totals r => addBudget totals r.normalizedBudget)
    aggregate.zeros
  let ledger : TaskPlanBudgetLedger sha256 ← TaskPlanScheduler.consumedLedger projection
  let reserved := ledger.fields.allocatedTotals
  BudgetField.all.forM fun d =>
    require ((totals.get d).isSome = true → (reserved.get d).isSome = true) (keyError d.name)
  let exceeded := BudgetField.all.filter fun d => decide (aggregate.amount d <
    reserved.amount d + (totals.amount d - previous.amount d))
  require (exceeded = [])
    ⟨"patch exceeds remaining aggregate budget", "task_plan_budget_exceeded",
      [("fields", fieldNames exceeded)]⟩

/-! ## The validator -/

namespace TaskPlanPatchValidator

def requirePolicyIdentity (plan : ValidatedTaskPlan) (policy : TaskPlanPolicy) :
    Except HarnessValidationError Unit :=
  require (plan.policyRef = policy.exactRef ∧ plan.policyChecksum = policy.policyChecksum)
    ⟨"TaskPlan patch policy does not match the accepted Plan", "task_plan_policy_mismatch",
      [("plan_policy_ref", .str plan.policyRef), ("supplied_policy_ref", .str policy.exactRef),
        ("plan_policy_checksum", .str plan.policyChecksum),
        ("supplied_policy_checksum", .str policy.policyChecksum),
        ("plan_version", .int plan.version)]⟩

/-- The checks that a patch is for the plan and the projection. -/
def checkBase (contracts : PlanContracts) (plan : ValidatedTaskPlan) (patch : PlanPatch)
    (projection : TaskPlanProjection) (policy : TaskPlanPolicy) :
    Except HarnessValidationError Unit := do
  requirePolicyIdentity plan policy
  require (patch.basePlanId = plan.planId ∧ patch.basePlanVersion = plan.version)
    ⟨"patch base plan is stale", "task_plan_stale_patch", []⟩
  require (patch.MatchesPlanIdentity plan)
    ⟨"patch scope does not match plan", "task_plan_patch_scope_mismatch", []⟩
  require (projection.MatchesPlanIdentity contracts plan)
    ⟨"projection does not match patch base", "task_plan_projection_mismatch", []⟩
  require (plan.version - 1 < policy.maxReplans)
    ⟨"TaskPlan replan budget is exhausted", "task_plan_replan_exhausted",
      [("max_replans", .int policy.maxReplans)]⟩

/-- The projected states by task. -/
def statesOf (projection : TaskPlanProjection) : PyDict String TaskProjection :=
  PyDict.ofItems TaskProjection.taskId id projection.tasks

/-- The loop over the operations of a patch. -/
def applyOperations (plan : ValidatedTaskPlan) (patch : PlanPatch) (projection : TaskPlanProjection)
    (policy : TaskPlanPolicy)
    (resolve : String → Except HarnessValidationError ResolvedCapabilityBinding) :
    Except HarnessValidationError PatchState :=
  let definitions := PyDict.ofItems taskId id plan.tasks
  patch.operations.foldlM (applyOperation definitions (statesOf projection) resolve policy)
    { nextDefinitions := definitions, skipped := [], replacements := [], targeted := [] }

def apply (sha256 : String → HexDigest) (contracts : PlanContracts) (plan : ValidatedTaskPlan)
    (patch : PlanPatch) (projection : TaskPlanProjection) (policy : TaskPlanPolicy)
    (resolve : String → Except HarnessValidationError ResolvedCapabilityBinding)
    (acceptedAt : String) (availableInputRefs : List String) :
    Except HarnessValidationError ValidatedTaskPlan := do
  checkBase contracts plan patch projection policy
  let definitions := PyDict.ofItems taskId id plan.tasks
  let state ← applyOperations plan patch projection policy resolve
  validatePatchActiveSiblings projection state.targeted
  require (state.nextDefinitions.length ≤ policy.maxTasks)
    ⟨"patch exceeds max_tasks", "task_plan_task_limit_exceeded", []⟩
  let _ ← (dependenciesOf state.nextDefinitions).taskDependencyDepths (some policy.maxDepth)
  state.replacements.forM (checkReplacement definitions state.nextDefinitions)
  let nextDefinitions ← rewireDefinitions policy state.replacements state.nextDefinitions
  availableInputRefs.forM (reference · "available_input_refs")
  let totals ← nextDefinitions.foldlM
    (fun totals p => do
      let totals ← addBudget totals p.2.normalizedBudget
      checkDefinition policy availableInputRefs nextDefinitions.keys p
      return totals) policy.aggregateTaskBudget.amounts.zeros
  checkBudgets sha256 policy plan projection totals
  checkRoles policy (producers (statesOf projection) state.replacements nextDefinitions)
  ValidatedTaskPlan.construct sha256 contracts
    { plan with
      planId := plan.planId ++ ".v" ++ toString (plan.version + 1)
      version := plan.version + 1
      parentPlanId := some plan.planId
      sourceCandidateRef := contracts.patchChecksum patch
      tasks := (PyText.sorted nextDefinitions.keys).filterMap nextDefinitions.get?
      acceptedAt := acceptedAt }

end TaskPlanPatchValidator

end TaskPlan
