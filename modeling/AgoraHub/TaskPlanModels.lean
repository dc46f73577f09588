/-
# Task definitions, plans and patches

A plan is an accepted version of the tasks of a stage.  A patch names the plan that it
changes and what it changes: it replaces a task, skips one or gives one other
dependencies.  A policy bounds what a plan may be.

The checksum of a record is a function of the whole record, which is a parameter.
-/
import AgoraHub.TaskPlanDag
import AgoraHub.TaskPlanProjection

namespace TaskPlan

open Fallible

/-! ## Task definitions -/

structure TaskRetryPolicy where
  maxAttempts : ℕ
  retryableReasonCodes : List String
  deriving DecidableEq

/-- `TaskOutputContract`, with its metadata. -/
structure TaskOutputContract where
  schemaRef : String
  outputRole : String
  metadata : Json

/-- `TaskSpec`; the objective, the priority, the diagnostics and the metadata are one value, which
only the checksum reads. -/
structure TaskSpec where
  taskId : String
  workerCapability : String
  inputRefs : List String
  outputContract : TaskOutputContract
  gateRefs : List String
  dependsOn : List String
  requestedTools : List String
  requestedMemoryNamespaces : List String
  budgetRequest : TaskBudget
  retryPolicy : TaskRetryPolicy
  rest : Json

/-- The constructor of `TaskSpec`, which sorts its references and its dependencies. -/
def TaskSpec.construct (t : TaskSpec) : Except HarnessValidationError TaskSpec := do
  identifier t.taskId "task_id"
  identifier t.workerCapability "worker_capability"
  let inputRefs ← stableTextTuple reference t.inputRefs "input_refs" false
  let dependsOn ← stableTextTuple identifier t.dependsOn "depends_on" true
  let requestedTools ← stableTextTuple identifier t.requestedTools "requested_tools" true
  let requestedMemoryNamespaces ← stableTextTuple identifier t.requestedMemoryNamespaces
    "requested_memory_namespaces" true
  return { t with
    inputRefs := inputRefs, dependsOn := dependsOn, requestedTools := requestedTools
    requestedMemoryNamespaces := requestedMemoryNamespaces }

/-- `ResolvedTaskSpec`: a task with the worker that it is bound to. -/
structure ResolvedTaskSpec where
  task : TaskSpec
  workerRef : String
  workerContractRef : String
  allowedTools : List String
  allowedMemoryNamespaces : List String
  gateRefs : List String
  normalizedBudget : TaskBudget
  normalizedRetryPolicy : TaskRetryPolicy
  subagentId : Option String

namespace ResolvedTaskSpec

def taskId (r : ResolvedTaskSpec) : String := r.task.taskId

def dependsOn (r : ResolvedTaskSpec) : List String := r.task.dependsOn

def outputRole (r : ResolvedTaskSpec) : String := r.task.outputContract.outputRole

/-- The constructor of `ResolvedTaskSpec`. -/
def construct (r : ResolvedTaskSpec) : Except HarnessValidationError ResolvedTaskSpec := do
  exactReference r.workerRef "worker_ref"
  exactReference r.workerContractRef "worker_contract_ref"
  let allowedTools ← stableTextTuple identifier r.allowedTools "allowed_tools" true
  let allowedMemoryNamespaces ← stableTextTuple identifier r.allowedMemoryNamespaces
    "allowed_memory_namespaces" true
  let gateRefs ← stableTextTuple exactReference r.gateRefs "gate_refs" false
  TaskProjection.checkOptional (requiredText · "subagent_id" 512) r.subagentId
  return { r with
    allowedTools := allowedTools, allowedMemoryNamespaces := allowedMemoryNamespaces
    gateRefs := gateRefs }

end ResolvedTaskSpec

/-! ## Plans -/

/-- `ValidatedTaskPlan`; its limits and its planning sources are one value, which only the checksum
reads. -/
structure ValidatedTaskPlan where
  planId : String
  runId : String
  stageId : String
  graphChecksum : String
  version : ℕ
  parentPlanId : Option String
  sourceCandidateRef : String
  policyRef : String
  policyChecksum : String
  tasks : List ResolvedTaskSpec
  requiredOutputRoles : List String
  acceptedAt : String
  graph : GraphIdentity
  rest : Json

inductive PlanPatchOperation where
  | addReplacementTask (targetTaskId : String) (replacementTask : TaskSpec)
  | skipPendingTask (targetTaskId : String)
  | updatePendingDependency (targetTaskId : String) (dependsOn : List String)

def PlanPatchOperation.targetTaskId : PlanPatchOperation → String
  | addReplacementTask targetTaskId _ => targetTaskId
  | skipPendingTask targetTaskId => targetTaskId
  | updatePendingDependency targetTaskId _ => targetTaskId

structure PlanPatch where
  patchId : String
  runId : String
  stageId : String
  basePlanId : String
  basePlanVersion : ℕ
  reasonCode : String
  sourceCandidateRef : String
  operations : List PlanPatchOperation
  graph : GraphIdentity
  graphChecksum : String

/-- The checksums of definitions, plans and patches, and the timestamps that `_timestamp` accepts. -/
structure PlanContracts where
  definitionChecksum : ResolvedTaskSpec → String
  planChecksum : ValidatedTaskPlan → String
  patchChecksum : PlanPatch → String
  timestamp : String → Except HarnessValidationError String

namespace ValidatedTaskPlan

variable (sha256 : String → HexDigest) (contracts : PlanContracts)

/-- The order of the tasks of a plan. -/
def taskLe (a b : ResolvedTaskSpec) : Prop :=
  a.taskId < b.taskId ∨
    (a.taskId = b.taskId ∧ contracts.definitionChecksum a ≤ contracts.definitionChecksum b)

instance : DecidableRel (taskLe contracts) := fun _ _ => inferInstanceAs (Decidable (_ ∨ _))

/-- The constructor of `ValidatedTaskPlan`, which sorts the tasks. -/
def construct (p : ValidatedTaskPlan) : Except HarnessValidationError ValidatedTaskPlan := do
  identifier p.planId "plan_id"
  identifier p.runId "run_id"
  identifier p.stageId "stage_id"
  checksum p.graphChecksum "graph_checksum"
  normalizeGraphOnlyIdentityFields sha256 p.runId p.stageId p.graphChecksum p.graph
  positiveInt p.version "version"
  TaskProjection.checkOptional (identifier · "parent_plan_id") p.parentPlanId
  reference p.sourceCandidateRef "source_candidate_ref"
  exactReference p.policyRef "policy_ref"
  checksum p.policyChecksum "policy_checksum"
  require (p.tasks ≠ [])
    ⟨"ValidatedTaskPlan must contain tasks", "task_plan_empty_plan", []⟩
  let requiredOutputRoles ← stableTextTuple identifier p.requiredOutputRoles
    "required_output_roles" false
  let acceptedAt ← contracts.timestamp p.acceptedAt
  return { p with
    tasks := p.tasks.insertionSort (taskLe contracts), requiredOutputRoles := requiredOutputRoles
    acceptedAt := acceptedAt }

/-- The last definition of a task. -/
def definition? (p : ValidatedTaskPlan) (taskId : String) : Option ResolvedTaskSpec :=
  (PyDict.ofItems ResolvedTaskSpec.taskId id p.tasks).get? taskId

/-- The dependencies of a task in the plan. -/
def dependenciesOf (p : ValidatedTaskPlan) (taskId : String) : List String :=
  match p.definition? taskId with
  | some definition => definition.dependsOn
  | none => []

def SharesStageIdentity (p q : ValidatedTaskPlan) : Prop :=
  p.runId = q.runId ∧ p.stageId = q.stageId ∧ p.graphChecksum = q.graphChecksum ∧ p.graph = q.graph

instance (p q : ValidatedTaskPlan) : Decidable (SharesStageIdentity p q) :=
  inferInstanceAs (Decidable (_ ∧ _))

end ValidatedTaskPlan

def PlanPatch.MatchesPlanIdentity (patch : PlanPatch) (plan : ValidatedTaskPlan) : Prop :=
  patch.runId = plan.runId ∧ patch.stageId = plan.stageId ∧ patch.basePlanId = plan.planId ∧
    patch.basePlanVersion = plan.version ∧ patch.graph = plan.graph ∧
    patch.graphChecksum = plan.graphChecksum

instance (patch : PlanPatch) (plan : ValidatedTaskPlan) :
    Decidable (patch.MatchesPlanIdentity plan) := inferInstanceAs (Decidable (_ ∧ _))

def TaskPlanProjection.MatchesPlanIdentity (contracts : PlanContracts) (p : TaskPlanProjection)
    (plan : ValidatedTaskPlan) : Prop :=
  p.runId = plan.runId ∧ p.stageId = plan.stageId ∧ p.graphChecksum = plan.graphChecksum ∧
    p.planId = plan.planId ∧ p.planVersion = plan.version ∧
    p.planChecksum = contracts.planChecksum plan ∧ p.policyRef = plan.policyRef ∧
    p.graph = plan.graph

instance (contracts : PlanContracts) (p : TaskPlanProjection) (plan : ValidatedTaskPlan) :
    Decidable (p.MatchesPlanIdentity contracts plan) := inferInstanceAs (Decidable (_ ∧ _))

/-! ## Policies and bindings -/

/-- `TaskPlanPolicy`, as far as patches and bindings read it. -/
structure TaskPlanPolicy where
  exactRef : String
  policyChecksum : String
  allowedInputRefs : List String
  allowedOutputRoles : List String
  requiredOutputRoles : List String
  allowedOutputSchemaRefs : List String
  allowedGateRefs : List String
  deterministicAggregatorRefs : PyDict String String
  maxTasks : ℕ
  maxDepth : ℕ
  maxReplans : ℕ
  maxTaskAttempts : ℕ
  perTaskBudget : TaskBudget
  aggregateTaskBudget : TaskBudget

/-- `TaskBudget.exceeds`: the fields that are over the limit, or on one side only. -/
def TaskBudget.exceeds (budget limit : TaskBudget) : List BudgetField :=
  BudgetField.all.filter fun d =>
    decide (((budget.amounts.get d).isSome ≠ (limit.amounts.get d).isSome) ∨
      limit.amounts.amount d < budget.amounts.amount d)

/-- `ResolvedCapabilityBinding`, as far as it resolves tasks. -/
structure ResolvedCapabilityBinding where
  capability : String
  policyRef : String
  outputSchemaRef : String
  workerRef : String
  workerContractRef : String
  allowedTools : List String
  allowedMemoryNamespaces : List String
  subagentId : Option String

/-- The values that are not allowed, in order. -/
def denied (requested allowed : List String) : List String :=
  PyText.sortedSet (requested.filter fun x => decide (x ∉ allowed))

/-- A check that nothing is denied. -/
def requireAllowed (requested allowed : List String) (message code taskId : String) :
    Except HarnessValidationError Unit :=
  require (denied requested allowed = [])
    ⟨message, code, [("task_id", .str taskId),
      ("denied", .arr ((denied requested allowed).map .str))]⟩

def ResolvedCapabilityBinding.resolveTask (binding : ResolvedCapabilityBinding) (task : TaskSpec)
    (policy : TaskPlanPolicy) : Except HarnessValidationError ResolvedTaskSpec := do
  require (task.workerCapability = binding.capability ∧ policy.exactRef = binding.policyRef)
    ⟨"resolved capability does not match task or policy identity",
      "task_capability_binding_mismatch", [("task_id", .str task.taskId)]⟩
  require (task.outputContract.schemaRef = binding.outputSchemaRef)
    ⟨"task output schema is incompatible with its pinned worker contract",
      "incompatible_task_capability_binding",
      [("task_id", .str task.taskId), ("worker_ref", .str binding.workerRef)]⟩
  requireAllowed task.requestedTools binding.allowedTools
    "task requests tools outside its resolved binding" "task_tool_binding_not_allowed" task.taskId
  requireAllowed task.requestedMemoryNamespaces binding.allowedMemoryNamespaces
    "task requests memory outside its resolved binding" "task_memory_binding_not_allowed" task.taskId
  requireAllowed task.gateRefs policy.allowedGateRefs
    "task requests deterministic gates outside policy" "task_gate_not_allowed" task.taskId
  require (task.retryPolicy.maxAttempts ≤ policy.maxTaskAttempts)
    ⟨"task retry request exceeds policy", "task_retry_limit_exceeded",
      [("task_id", .str task.taskId)]⟩
  require (task.budgetRequest.exceeds policy.perTaskBudget = [])
    ⟨"task budget request exceeds policy", "task_budget_exceeded", [("task_id", .str task.taskId)]⟩
  ResolvedTaskSpec.construct
    { task := task
      workerRef := binding.workerRef
      workerContractRef := binding.workerContractRef
      allowedTools := binding.allowedTools
      allowedMemoryNamespaces := binding.allowedMemoryNamespaces
      gateRefs := task.gateRefs
      normalizedBudget := task.budgetRequest
      normalizedRetryPolicy := task.retryPolicy
      subagentId := binding.subagentId }

end TaskPlan
