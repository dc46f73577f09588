/-
# Graph definitions

The expression language of the graph DSL and the definition that binds its steps
to activities.  Texts are as the constructors leave them: trimmed and not empty.
-/
import AgoraHub.GraphModel

namespace HarnessGraph

open Fallible
open TaskPlan (HarnessValidationError)

/-! ## Expressions -/

inductive ParallelAllFailurePolicy where
  | failFast
  | waitAll
  | compensate
  deriving DecidableEq

/-- The text of a policy. -/
def ParallelAllFailurePolicy.value : ParallelAllFailurePolicy → String
  | failFast => "fail_fast"
  | waitAll => "wait_all"
  | compensate => "compensate"

inductive ParallelAnyCancellationPolicy where
  | cancelLosers
  | waitForLosers
  deriving DecidableEq

/-- The text of a policy. -/
def ParallelAnyCancellationPolicy.value : ParallelAnyCancellationPolicy → String
  | cancelLosers => "cancel_losers"
  | waitForLosers => "wait_for_losers"

inductive ParallelAnyFailurePolicy where
  | failAll
  | compensate
  deriving DecidableEq

/-- The text of a policy. -/
def ParallelAnyFailurePolicy.value : ParallelAnyFailurePolicy → String
  | failAll => "fail_all"
  | compensate => "compensate"

/-- `StepRef`; without a node identifier the step identifies the node. -/
structure StepRef where
  stepId : String
  nodeId : String
  deriving DecidableEq

/-- `ChoiceBranch`, over the type of its child. -/
structure ChoiceBranch (α : Type) where
  branchId : String
  child : α
  priority : ℤ
  condition : Option HarnessCondition
  isDefault : Bool
  outputNamespace : Option String

/-- `ParallelBranch`, over the type of its child. -/
structure ParallelBranch (α : Type) where
  branchId : String
  child : α
  outputNamespace : String

/-- `ParallelMerge`: a pure merge or a verified aggregation. -/
inductive ParallelMerge where
  | pureMerge (mergeRef : String) (outputKeys : List String)
  | verifiedAggregation (step : StepRef) (branchInputsKey : String)

inductive HarnessGraphExpression where
  | stepRef (step : StepRef)
  | pass (passId : String)
  | sequence (children : List HarnessGraphExpression)
  | choice (choiceId : String) (branches : List (ChoiceBranch HarnessGraphExpression))
  | parallelAll (forkId joinId : String) (branches : List (ParallelBranch HarnessGraphExpression))
      (failurePolicy : ParallelAllFailurePolicy) (merge : Option ParallelMerge)
  | parallelAny (forkId joinId : String) (branches : List (ParallelBranch HarnessGraphExpression))
      (cancellationPolicy : ParallelAnyCancellationPolicy)
      (failurePolicy : ParallelAnyFailurePolicy)
  | boundedLoop (loopId : String) (body : HarnessGraphExpression) (condition : HarnessCondition)
      (maxIterations : ℤ) (exit exhaustion : Option HarnessGraphExpression)
  | wait (contract : HarnessWaitContract)

structure CompensationBinding where
  bindingId : String
  forNodeId : String
  compensationStepId : String
  handlerRef : String
  activityContractRef : String
  scope : String

structure HarnessGraphSpec where
  graphId : String
  root : HarnessGraphExpression
  compensations : List CompensationBinding
  inputKeys : List String
  terminalOutputKeys : List String

/-! ## The nodes of an expression -/

/-- The merge node of a join, when there is a merge. -/
def mergeNodeIds (joinId : String) : Option ParallelMerge → List String
  | none => []
  | some (.pureMerge _ _) => [joinId ++ ":merge"]
  | some (.verifiedAggregation step _) => [step.nodeId, joinId ++ ":merge"]

namespace HarnessGraphExpression

mutual

/-- The nodes an expression stands for (`_root_topology_identities`), each before the
nodes that follow it in a run that takes no loop again. -/
def nodeIds : HarnessGraphExpression → List String
  | stepRef step => [step.nodeId]
  | pass passId => [passId]
  | sequence children => nodeIdsOfChildren children
  | choice choiceId branches =>
    choiceId :: (nodeIdsOfChoice branches ++ [choiceId ++ ":join"])
  | parallelAll forkId joinId branches _ merge =>
    forkId :: (nodeIdsOfParallel branches ++ joinId :: mergeNodeIds joinId merge)
  | parallelAny forkId joinId branches _ _ => forkId :: (nodeIdsOfParallel branches ++ [joinId])
  | boundedLoop loopId body _ _ exit exhaustion =>
    loopId :: (nodeIds body ++ nodeIdsOfOption exit ++ nodeIdsOfOption exhaustion ++
      [loopId ++ ":join"])
  | wait contract => [contract.waitId]

/-- The nodes of a sequence. -/
def nodeIdsOfChildren : List HarnessGraphExpression → List String
  | [] => []
  | child :: children => nodeIds child ++ nodeIdsOfChildren children

/-- The nodes of the branches of a choice. -/
def nodeIdsOfChoice : List (ChoiceBranch HarnessGraphExpression) → List String
  | [] => []
  | ⟨_, child, _, _, _, _⟩ :: branches => nodeIds child ++ nodeIdsOfChoice branches

/-- The nodes of parallel branches. -/
def nodeIdsOfParallel : List (ParallelBranch HarnessGraphExpression) → List String
  | [] => []
  | ⟨_, child, _⟩ :: branches => nodeIds child ++ nodeIdsOfParallel branches

/-- The nodes of an expression that may be absent. -/
def nodeIdsOfOption : Option HarnessGraphExpression → List String
  | none => []
  | some expression => nodeIds expression

end

mutual

/-- The executable nodes of an expression. -/
def executableNodeIds : HarnessGraphExpression → List String
  | stepRef step => [step.nodeId]
  | pass _ => []
  | sequence children => executableNodeIdsOfChildren children
  | choice _ branches => executableNodeIdsOfChoice branches
  | parallelAll _ _ branches _ merge =>
    executableNodeIdsOfParallel branches ++
      match merge with
      | some (.verifiedAggregation step _) => [step.nodeId]
      | _ => []
  | parallelAny _ _ branches _ _ => executableNodeIdsOfParallel branches
  | boundedLoop _ body _ _ exit exhaustion =>
    executableNodeIds body ++ executableNodeIdsOfOption exit ++
      executableNodeIdsOfOption exhaustion
  | wait _ => []

/-- The executable nodes of a sequence. -/
def executableNodeIdsOfChildren : List HarnessGraphExpression → List String
  | [] => []
  | child :: children => executableNodeIds child ++ executableNodeIdsOfChildren children

/-- The executable nodes of the branches of a choice. -/
def executableNodeIdsOfChoice : List (ChoiceBranch HarnessGraphExpression) → List String
  | [] => []
  | ⟨_, child, _, _, _, _⟩ :: branches =>
    executableNodeIds child ++ executableNodeIdsOfChoice branches

/-- The executable nodes of parallel branches. -/
def executableNodeIdsOfParallel : List (ParallelBranch HarnessGraphExpression) → List String
  | [] => []
  | ⟨_, child, _⟩ :: branches => executableNodeIds child ++ executableNodeIdsOfParallel branches

/-- The executable nodes of an expression that may be absent. -/
def executableNodeIdsOfOption : Option HarnessGraphExpression → List String
  | none => []
  | some expression => executableNodeIds expression

end

mutual

/-- No wait of the expression routes a timeout to a node. -/
def noTimeoutRoutes : HarnessGraphExpression → Prop
  | stepRef _ => True
  | pass _ => True
  | sequence children => noTimeoutRoutesOfChildren children
  | choice _ branches => noTimeoutRoutesOfChoice branches
  | parallelAll _ _ branches _ _ => noTimeoutRoutesOfParallel branches
  | parallelAny _ _ branches _ _ => noTimeoutRoutesOfParallel branches
  | boundedLoop _ body _ _ exit exhaustion =>
    noTimeoutRoutes body ∧ noTimeoutRoutesOfOption exit ∧ noTimeoutRoutesOfOption exhaustion
  | wait contract => ∀ targetNodeId, contract.timeoutPolicy ≠ some (.route targetNodeId)

/-- No wait of a sequence routes a timeout. -/
def noTimeoutRoutesOfChildren : List HarnessGraphExpression → Prop
  | [] => True
  | child :: children => noTimeoutRoutes child ∧ noTimeoutRoutesOfChildren children

/-- No wait in the branches of a choice routes a timeout. -/
def noTimeoutRoutesOfChoice : List (ChoiceBranch HarnessGraphExpression) → Prop
  | [] => True
  | ⟨_, child, _, _, _, _⟩ :: branches => noTimeoutRoutes child ∧ noTimeoutRoutesOfChoice branches

/-- No wait in parallel branches routes a timeout. -/
def noTimeoutRoutesOfParallel : List (ParallelBranch HarnessGraphExpression) → Prop
  | [] => True
  | ⟨_, child, _⟩ :: branches => noTimeoutRoutes child ∧ noTimeoutRoutesOfParallel branches

/-- No wait of an expression that may be absent routes a timeout. -/
def noTimeoutRoutesOfOption : Option HarnessGraphExpression → Prop
  | none => True
  | some expression => noTimeoutRoutes expression

end

end HarnessGraphExpression

/-! ## Activities and bindings -/

inductive HarnessWorkerType where
  | function
  | tool
  | agentLoop
  | taskPlan
  | llm
  | skill
  | skillEvolution
  | subagent
  | retrieval
  | memory
  | mcp
  | qualityGate
  | script
  deriving DecidableEq

/-- The text of a worker type. -/
def HarnessWorkerType.value : HarnessWorkerType → String
  | function => "function"
  | tool => "tool"
  | agentLoop => "agent_loop"
  | taskPlan => "task_plan"
  | llm => "llm"
  | skill => "skill"
  | skillEvolution => "skill_evolution"
  | subagent => "subagent"
  | retrieval => "retrieval"
  | memory => "memory"
  | mcp => "mcp"
  | qualityGate => "quality_gate"
  | script => "script"

structure HarnessSideEffectHandlerReference where
  handlerId : String
  version : String

/-- `HarnessStepSpec`; its retry policy is the policy's dictionary. -/
structure HarnessStepSpec where
  stepId : String
  workerType : HarnessWorkerType
  inputKeys : List String
  outputKey : Option String
  retryPolicy : Json
  qualityGate : Option String
  metadata : PyDict String Json
  sideEffectRef : Option HarnessSideEffectHandlerReference

/-- `HarnessGraphLeafBinding`, with the worker type of its leaf kind. -/
structure HarnessGraphLeafBinding where
  activityId : String
  expectedWorkerType : HarnessWorkerType
  workerRef : ContractReference
  activityRef : ContractReference

structure HarnessGraphTaskPlanStageBinding where
  activityId : String
  workerRef : ContractReference
  activityRef : ContractReference
  policyRef : String
  taskPlanSchema : String
  requiredOutputRoles : List String
  supportRefs : PyDict String String

structure HarnessGraphCommittedNodeOutputBinding where
  bindingId : String
  producerActivityId : String
  producerNodeId : String
  producerOutputKey : String
  consumerActivityId : String
  consumerNodeId : String
  receiptInputKey : String

/-- `HarnessGraphRepairBinding`; its triggers are their texts. -/
structure HarnessGraphRepairBinding where
  bindingId : String
  sourceNodeId : String
  repairNodeId : String
  repairActivityId : String
  triggers : List String

/-! ## Definitions -/

/-- Why a repair source is not one exact executable node. -/
def repairSourceReason (root : HarnessGraphExpression) (sourceNodeId : String) : String :=
  if root.executableNodeIds.count sourceNodeId = 0 then
    if 0 < root.nodeIds.count sourceNodeId then "not_executable" else "unknown"
  else "ambiguous"

/-- The routes of a source and a trigger, with those of one more binding. -/
def addRepairRoutes (routes : PyDict (String × String) HarnessGraphRepairBinding)
    (binding : HarnessGraphRepairBinding) :
    Except HarnessValidationError (PyDict (String × String) HarnessGraphRepairBinding) :=
  binding.triggers.foldlM
    (fun routes trigger =>
      match routes.get? (binding.sourceNodeId, trigger) with
      | some previous => .error
          ⟨"Graph repair source trigger resolves to multiple targets",
            "graph_repair_trigger_ambiguous",
            [("source_node_id", .str binding.sourceNodeId), ("trigger", .str trigger),
              ("binding_ids", .arr ((PyText.sorted [previous.bindingId, binding.bindingId]).map
                .str)),
              ("repair_node_ids", .arr ((PyText.sorted
                [previous.repairNodeId, binding.repairNodeId]).map .str))]⟩
      | none => .ok (routes.set (binding.sourceNodeId, trigger) binding))
    routes

/-- The checks of one repair binding, and its routes. -/
def validateRepairBinding (root : HarnessGraphExpression) (activities : List HarnessStepSpec)
    (routes : PyDict (String × String) HarnessGraphRepairBinding)
    (binding : HarnessGraphRepairBinding) :
    Except HarnessValidationError (PyDict (String × String) HarnessGraphRepairBinding) := do
  require (root.executableNodeIds.count binding.sourceNodeId = 1 ∧
      root.nodeIds.count binding.sourceNodeId = 1)
    ⟨"Graph repair source must identify one exact executable node",
      "graph_repair_source_node_invalid",
      [("binding_id", .str binding.bindingId), ("source_node_id", .str binding.sourceNodeId),
        ("reason", .str (repairSourceReason root binding.sourceNodeId))]⟩
  require (binding.repairActivityId ∈ activities.map HarnessStepSpec.stepId)
    ⟨"Graph repair activity must be registered by the definition", "graph_repair_activity_unknown",
      [("binding_id", .str binding.bindingId),
        ("repair_activity_id", .str binding.repairActivityId)]⟩
  addRepairRoutes routes binding

/-- `_validate_repair_bindings`: independent repair nodes with exact sources. -/
def validateRepairBindings (root : HarnessGraphExpression) (activities : List HarnessStepSpec)
    (bindings : List HarnessGraphRepairBinding) : Except HarnessValidationError Unit := do
  let repairNodeIds := bindings.map HarnessGraphRepairBinding.repairNodeId
  let collisions := repairNodeIds.filter fun nodeId => decide (nodeId ∈ root.nodeIds)
  let duplicates := repairNodeIds.filter fun nodeId => decide (1 < repairNodeIds.count nodeId)
  require (duplicates = [] ∧ collisions = [])
    ⟨"Graph repair node identities must be independent and unique",
      "graph_repair_node_identity_conflict",
      [("duplicate_repair_node_ids", .arr ((PyText.sortedSet duplicates).map .str)),
        ("root_collisions", .arr ((PyText.sortedSet collisions).map .str))]⟩
  let _ ← bindings.foldlM (validateRepairBinding root activities) []

/-- `HarnessGraphDefinition`: of its constructor's checks, the one of the repair bindings. -/
structure HarnessGraphDefinition where
  graphId : String
  graphVersion : String
  root : HarnessGraphSpec
  activities : List HarnessStepSpec
  leafActivityBindings : List HarnessGraphLeafBinding
  taskPlanStageBindings : List HarnessGraphTaskPlanStageBinding
  committedOutputBindings : List HarnessGraphCommittedNodeOutputBinding
  repairBindings : List HarnessGraphRepairBinding
  repairs : validateRepairBindings root.root activities repairBindings = .ok ()

namespace HarnessGraphDefinition

variable (d : HarnessGraphDefinition)

def leafActivityBinding (activityId : String) : Option HarnessGraphLeafBinding :=
  d.leafActivityBindings.find? fun binding => decide (binding.activityId = activityId)

def taskPlanStageBinding (activityId : String) : Option HarnessGraphTaskPlanStageBinding :=
  d.taskPlanStageBindings.find? fun binding => decide (binding.activityId = activityId)

end HarnessGraphDefinition

end HarnessGraph
