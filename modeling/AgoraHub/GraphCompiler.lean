/-
# The graph compiler

From a definition to a normalized graph: every expression appends its nodes and
edges to a context and answers with the nodes it is entered and left by.
-/
import AgoraHub.GraphDefinition

namespace HarnessGraph

open Fallible
open TaskPlan (HarnessValidationError)

structure Fragment where
  entryNodeIds : List String
  terminalNodeIds : List String

/-- The state of `_CompilerContext`. -/
structure CompilerContext where
  nodes : List HarnessGraphNode
  edges : List HarnessGraphEdge
  compensationRefs : List HarnessCompensationReference
  repairRefs : List HarnessRepairReference
  nodeOrder : ℕ
  edgeOrder : ℕ
  loopStack : List String
  enclosingLoops : PyDict String (List String)

namespace CompilerContext

/-- The context before the first expression. -/
def empty : CompilerContext := ⟨[], [], [], [], 0, 0, [], []⟩

/-- A control node without contracts. -/
def control (nodeId : String) (nodeKind : NodeKind) : HarnessControlNode where
  nodeId := nodeId
  nodeKind := nodeKind
  declarationOrder := 0
  branches := []
  join := none
  loop := none
  wait := none
  merge := none
  metadata := []

/-- `_add_control`: the declaration order is the next one. -/
def addControl (c : CompilerContext) (n : HarnessControlNode) :
    Except HarnessValidationError CompilerContext := do
  let node ← HarnessControlNode.construct { n with declarationOrder := c.nodeOrder }
  return { c with
    nodes := c.nodes ++ [.control node]
    nodeOrder := c.nodeOrder + 1
    enclosingLoops := c.enclosingLoops.set n.nodeId c.loopStack }

/-- `f"{ordinal:06d}"`. -/
def ordinalText (ordinal : ℕ) : String :=
  String.ofList (List.replicate (6 - (toString ordinal).length) '0') ++ toString ordinal

/-- The identifier of an edge. -/
def edgeId (ordinal : ℕ) (kind : EdgeKind) (sourceId targetId : String) : String :=
  "edge:" ++ ordinalText ordinal ++ ":" ++ kind.value ++ ":" ++ sourceId ++ ":" ++ targetId

section

variable (c : CompilerContext)

/-- `_add_edge`, with all its keyword arguments. -/
def addEdgeWith (sourceId targetId : String) (kind : EdgeKind)
    (priority : ℤ) (condition : Option HarnessCondition) (branchId loopId : Option String) :
    CompilerContext :=
  { c with
    edges := c.edges ++
      [{ edgeId := edgeId c.edgeOrder kind sourceId targetId
         sourceId := sourceId, targetId := targetId, edgeKind := kind
         priority := priority, condition := condition, branchId := branchId, loopId := loopId }]
    edgeOrder := c.edgeOrder + 1 }

/-- `_add_edge` with a branch and a loop only. -/
def addEdge (sourceId targetId : String) (kind : EdgeKind)
    (branchId loopId : Option String) : CompilerContext :=
  c.addEdgeWith sourceId targetId kind 0 none branchId loopId

/-- The first executable node with an identifier (`_executable_node`). -/
def executableNode (nodeId : String) : Except HarnessValidationError HarnessExecutableNode :=
  orRaise ((c.nodes.filterMap HarnessGraphNode.executable?).find? fun n =>
      decide (n.nodeId = nodeId))
    ⟨"Graph binding does not resolve to an executable node", "unknown_graph_executable_node",
      [("node_id", .str nodeId)]⟩

def sequenceEdgeKind (sourceId : String) : EdgeKind :=
  match c.nodes.find? fun n => decide (n.nodeId = sourceId) with
  | some n => if n.nodeKind = .wait then .waitResume else .dependency
  | none => .dependency

end

end CompilerContext

/-! ## Executable nodes -/

/-- `_identifier` of the definition module: its pattern `[A-Za-z0-9][A-Za-z0-9._:/+-]*`. -/
def definitionIdentifier (value fieldName : String) : Except HarnessValidationError Unit := do
  require (value ≠ "" ∧ value = PyText.strip value)
    ⟨fieldName ++ " must be non-empty trimmed text", "invalid_graph_definition",
      [("field", .str fieldName)]⟩
  require (value.toList.head?.all Char.isAlphanum = true)
    ⟨fieldName ++ " has an invalid format", "invalid_graph_definition", [("field", .str fieldName)]⟩
  require (value.toList.all
      (fun c => c.isAlphanum || ['.', '_', ':', '/', '+', '-'].contains c) = true)
    ⟨fieldName ++ " has an invalid format", "invalid_graph_definition", [("field", .str fieldName)]⟩

def taskPlanAuthorityMetadataKeys : List String :=
  ["dynamic_stage", "required_output_roles", "task_plan_policy_ref", "task_plan_schema",
    "task_plan_support", "agent_loop_delegation"]

namespace HarnessGraphDefinition

variable (d : HarnessGraphDefinition)

def activity (activityId : String) : Except HarnessValidationError HarnessStepSpec :=
  orRaise (d.activities.find? fun a => decide (a.stepId = activityId))
    ⟨"Graph activity reference does not resolve", "unknown_graph_activity_reference",
      [("activity_id", .str activityId)]⟩

/-- The worker, the activity and the step metadata of a node. -/
abbrev BindingProjection := ContractReference × ContractReference × PyDict String Json

section

variable (a : HarnessStepSpec)

/-- The projection of a TaskPlan stage binding. -/
def taskPlanProjection (binding : HarnessGraphTaskPlanStageBinding) :
    Except HarnessValidationError BindingProjection := do
  require (a.workerType = .taskPlan ∨ a.workerType = .agentLoop)
    ⟨"Graph TaskPlan binding does not target a TaskPlan activity",
      "graph_task_plan_stage_binding_worker_type_mismatch", [("activity_id", .str a.stepId)]⟩
  let forbidden := taskPlanAuthorityMetadataKeys.filter fun key => decide (key ∈ a.metadata.keys)
  require (forbidden = [])
    ⟨"Graph TaskPlan authority must come from its exact stage binding",
      "graph_task_plan_authority_metadata_forbidden",
      [("activity_id", .str a.stepId), ("fields", .arr ((PyText.sorted forbidden).map .str))]⟩
  let metadata := ((((a.metadata.set "dynamic_stage" (.bool true)).set "task_plan_policy_ref"
    (.str binding.policyRef)).set "task_plan_schema" (.str binding.taskPlanSchema)).set
    "required_output_roles" (.arr (binding.requiredOutputRoles.map .str))).set "task_plan_support"
    (.obj (binding.supportRefs.map fun p => (p.1, .str p.2)))
  return (binding.workerRef, binding.activityRef,
    if a.workerType = .agentLoop then metadata.set "agent_loop_delegation" (.bool true)
    else metadata)

/-- The checks of a leaf binding beside a TaskPlan stage binding. -/
def checkDelegation (leaf : HarnessGraphLeafBinding)
    (stage : HarnessGraphTaskPlanStageBinding) : Except HarnessValidationError Unit :=
  require (a.workerType = .agentLoop ∧ leaf.workerRef = stage.workerRef ∧
      leaf.activityRef = stage.activityRef)
    ⟨"AgentLoop delegation differs from its leaf binding",
      "graph_agent_delegation_binding_mismatch", []⟩

def bindingProjection (leaf : Option HarnessGraphLeafBinding)
    (stage : Option HarnessGraphTaskPlanStageBinding) :
    Except HarnessValidationError BindingProjection :=
  match leaf, stage with
  | some leaf, none => do
    require (a.workerType = leaf.expectedWorkerType)
      ⟨"Graph leaf binding does not match activity worker type",
        "graph_leaf_activity_worker_type_mismatch", [("activity_id", .str a.stepId)]⟩
    require (a.workerType = .agentLoop →
        ∀ key ∈ taskPlanAuthorityMetadataKeys, key ∉ a.metadata.keys)
      ⟨"AgentLoop delegation authority requires an explicit TaskPlan binding",
        "graph_task_plan_authority_metadata_forbidden", []⟩
    return (leaf.workerRef, leaf.activityRef, a.metadata)
  | some leaf, some stage => do
    require (a.workerType = leaf.expectedWorkerType)
      ⟨"Graph leaf binding does not match activity worker type",
        "graph_leaf_activity_worker_type_mismatch", [("activity_id", .str a.stepId)]⟩
    checkDelegation a leaf stage
    taskPlanProjection a stage
  | none, some stage => taskPlanProjection a stage
  | none, none => .error
      ⟨"Graph activity must resolve to exactly one binding class",
        "graph_activity_binding_resolution_invalid", [("activity_id", .str a.stepId)]⟩

/-- The gate references of an activity. -/
def gateRefs : Except HarnessValidationError (List ContractReference) :=
  match a.qualityGate with
  | none => .ok []
  | some gate => do
    let ref ← exactReference .gate gate ("activity[" ++ a.stepId ++ "].quality_gate")
    return [ref]

/-- The side-effect reference of an activity. -/
def sideEffectReference : Except HarnessValidationError (Option ContractReference) :=
  match a.sideEffectRef with
  | none => .ok none
  | some handler => do
    let ref ← ContractReference.construct .sideEffect handler.handlerId handler.version
    return some ref

end

def addExecutable (c : CompilerContext) (activityId nodeId : String) :
    Except HarnessValidationError CompilerContext := do
  let a ← d.activity activityId
  definitionIdentifier activityId "activity_id"
  let leaf := d.leafActivityBinding activityId
  let stage := d.taskPlanStageBinding activityId
  require (leaf.isNone = true ∨ stage.isNone = true ∨ a.workerType = .agentLoop)
    ⟨"Graph activity must resolve to exactly one binding class",
      "graph_activity_binding_resolution_invalid", [("activity_id", .str activityId)]⟩
  let (workerRef, activityRef, stepMetadata) ← bindingProjection a leaf stage
  let gateRefs ← gateRefs a
  let sideEffectRef ← sideEffectReference a
  let stepRef ← ContractReference.construct .step (d.graphId ++ ":" ++ a.stepId) d.graphVersion
  workerRef.requireKind .worker "node.worker_ref"
  activityRef.requireKind .activity "node.activity_ref"
  let inputKeys ← textTuple a.inputKeys "node.input_keys"
  let outputKeys ← textTuple a.outputKey.toList "node.output_keys"
  return { c with
    nodes := c.nodes ++
      [.executable
        { nodeId := nodeId, stepId := a.stepId, declarationOrder := c.nodeOrder
          stepRef := stepRef, workerRef := workerRef, activityRef := activityRef
          gateRefs := gateRefs, sideEffectRef := sideEffectRef
          inputKeys := inputKeys, outputKeys := outputKeys
          metadata := [("binding_source", .str "graph_definition"),
            ("worker_type", .str a.workerType.value), ("step_metadata", .obj stepMetadata),
            ("retry_policy", a.retryPolicy)] }]
    nodeOrder := c.nodeOrder + 1
    enclosingLoops := c.enclosingLoops.set nodeId c.loopStack }

/-! ## Expressions -/

/-- The edges between two fragments of a sequence. -/
def linkPair (c : CompilerContext) (left right : Fragment) : CompilerContext :=
  left.terminalNodeIds.foldl (fun c sourceId => right.entryNodeIds.foldl
    (fun c targetId => c.addEdge sourceId targetId (c.sequenceEdgeKind sourceId) none none) c) c

/-- The edges of a sequence of fragments. -/
def linkFragments (c : CompilerContext) : List Fragment → CompilerContext
  | left :: right :: rest => linkFragments (linkPair c left right) (right :: rest)
  | _ => c

/-- The control flow of a sequence, after its children. -/
def finishSequence (c : CompilerContext) (fragments : List Fragment) :
    Except HarnessValidationError (CompilerContext × Fragment) :=
  match fragments with
  | [] => .error ⟨"sequence.children must not be empty", "empty_graph_expression", []⟩
  | first :: rest => .ok (linkFragments c (first :: rest),
      ⟨first.entryNodeIds, ((first :: rest).getLast (by simp)).terminalNodeIds⟩)

/-- The branch contract of a choice branch. -/
def choiceBranch (choiceId : String)
    (compiled : ChoiceBranch HarnessGraphExpression × Fragment) : HarnessBranch where
  branchId := compiled.1.branchId
  entryNodeIds := compiled.2.entryNodeIds
  terminalNodeIds := compiled.2.terminalNodeIds
  priority := compiled.1.priority
  outputNamespace := compiled.1.outputNamespace.getD
    ("choice." ++ choiceId ++ "." ++ compiled.1.branchId)
  condition := compiled.1.condition
  isDefault := compiled.1.isDefault

/-- The edges of one branch of a choice. -/
def linkChoiceBranch (choiceId : String) (c : CompilerContext)
    (compiled : ChoiceBranch HarnessGraphExpression × Fragment) : CompilerContext :=
  let kind : EdgeKind := if compiled.1.isDefault then .default else .choice
  let c := compiled.2.entryNodeIds.foldl
    (fun c targetId => c.addEdgeWith choiceId targetId kind compiled.1.priority
      compiled.1.condition (some compiled.1.branchId) none) c
  compiled.2.terminalNodeIds.foldl
    (fun c terminalId => c.addEdge terminalId (choiceId ++ ":join") .dependency
      (some compiled.1.branchId) none) c

/-- `_compile_choice`, after the children of its branches. -/
def finishChoice (choiceId : String) (c : CompilerContext)
    (compiled : List (ChoiceBranch HarnessGraphExpression × Fragment)) :
    Except HarnessValidationError (CompilerContext × Fragment) := do
  let branches := compiled.map (choiceBranch choiceId)
  let c ← c.addControl { CompilerContext.control choiceId .choice with branches := branches }
  let c ← c.addControl { CompilerContext.control (choiceId ++ ":join") .choiceJoin with
    branches := branches, metadata := [("choice_node_id", .str choiceId)] }
  return (compiled.foldl (linkChoiceBranch choiceId) c, ⟨[choiceId], [choiceId ++ ":join"]⟩)

/-- The branch contracts of parallel branches; the priority is the position. -/
def parallelBranches (compiled : List (ParallelBranch HarnessGraphExpression × Fragment)) :
    List HarnessBranch :=
  compiled.zipIdx.map fun entry =>
    { branchId := entry.1.1.branchId, entryNodeIds := entry.1.2.entryNodeIds
      terminalNodeIds := entry.1.2.terminalNodeIds, priority := entry.2
      outputNamespace := entry.1.1.outputNamespace, condition := none, isDefault := false }

/-- The edges of one parallel branch. -/
def linkParallelBranch (forkId joinId : String) (c : CompilerContext)
    (compiled : ParallelBranch HarnessGraphExpression × Fragment) : CompilerContext :=
  let c := compiled.2.entryNodeIds.foldl
    (fun c entryId => c.addEdge forkId entryId .forkBranch (some compiled.1.branchId) none) c
  compiled.2.terminalNodeIds.foldl
    (fun c terminalId => c.addEdge terminalId joinId .join (some compiled.1.branchId) none) c

/-- The identifiers of parallel branches. -/
def parallelBranchIds (compiled : List (ParallelBranch HarnessGraphExpression × Fragment)) :
    List String :=
  compiled.map fun entry => entry.1.branchId

/-- The reference of a pure merge. -/
def mergeReference : Option ParallelMerge → Except HarnessValidationError (Option ContractReference)
  | some (.pureMerge mergeRef _) => do
    let ref ← exactReference .merge mergeRef "parallel_all.merge.merge_ref"
    return some ref
  | _ => .ok none

/-- The checks of the activity of a verified aggregation, and its output key. -/
def aggregationOutputKey (a : HarnessStepSpec) (branchInputsKey : String) :
    Except HarnessValidationError String := do
  require (branchInputsKey ∈ a.inputKeys)
    ⟨"verified aggregation activity must declare its branch input key",
      "aggregation_input_key_missing",
      [("activity_id", .str a.stepId), ("branch_inputs_key", .str branchInputsKey)]⟩
  let outputKey ← orRaise a.outputKey
    ⟨"verified aggregation activity must declare one output key", "aggregation_output_key_missing",
      [("activity_id", .str a.stepId)]⟩
  require (a.qualityGate ≠ none)
    ⟨"verified aggregation activity requires an exact deterministic Gate",
      "aggregation_gate_missing", [("activity_id", .str a.stepId)]⟩
  return outputKey

/-- The merge of a parallel-all, after its join. -/
def finishMerge (forkId joinId : String) (c : CompilerContext) (branchIds : List String)
    (mergeRef : Option ContractReference) :
    Option ParallelMerge → Except HarnessValidationError (CompilerContext × Fragment)
  | none => .ok (c, ⟨[forkId], [joinId]⟩)
  | some (.pureMerge _ outputKeys) => do
    let c ← c.addControl { CompilerContext.control (joinId ++ ":merge") .merge with
      merge := some ⟨.pure, branchIds, outputKeys, mergeRef, none⟩
      metadata := [("join_node_id", .str joinId)] }
    return (c.addEdge joinId (joinId ++ ":merge") .dependency none none,
      ⟨[forkId], [joinId ++ ":merge"]⟩)
  | some (.verifiedAggregation step branchInputsKey) => do
    let a ← d.activity step.stepId
    let outputKey ← aggregationOutputKey a branchInputsKey
    let outputKeys ← textTuple [outputKey] "merge.output_keys"
    let c ← d.addExecutable c step.stepId step.nodeId
    let c ← c.addControl { CompilerContext.control (joinId ++ ":merge") .merge with
      merge := some ⟨.aggregationStep, branchIds, outputKeys, none, some step.nodeId⟩
      metadata := [("branch_inputs_key", .str branchInputsKey), ("join_node_id", .str joinId)] }
    let c := c.addEdge joinId step.nodeId .dependency none none
    return (c.addEdge step.nodeId (joinId ++ ":merge") .dependency none none,
      ⟨[forkId], [joinId ++ ":merge"]⟩)

/-- `_compile_parallel_all`, after the children of its branches. -/
def finishParallelAll (forkId joinId : String) (failurePolicy : ParallelAllFailurePolicy)
    (merge : Option ParallelMerge) (c : CompilerContext)
    (compiled : List (ParallelBranch HarnessGraphExpression × Fragment)) :
    Except HarnessValidationError (CompilerContext × Fragment) := do
  let mergeRef ← mergeReference merge
  let c ← c.addControl { CompilerContext.control forkId .forkAll with
    branches := parallelBranches compiled }
  let c ← c.addControl { CompilerContext.control joinId .joinAll with
    join := some ⟨forkId, parallelBranchIds compiled, failurePolicy.value, none, mergeRef⟩ }
  d.finishMerge forkId joinId (compiled.foldl (linkParallelBranch forkId joinId) c)
    (parallelBranchIds compiled) mergeRef merge

/-- `_compile_parallel_any`, after the children of its branches. -/
def finishParallelAny (forkId joinId : String)
    (cancellationPolicy : ParallelAnyCancellationPolicy) (failurePolicy : ParallelAnyFailurePolicy)
    (c : CompilerContext) (compiled : List (ParallelBranch HarnessGraphExpression × Fragment)) :
    Except HarnessValidationError (CompilerContext × Fragment) := do
  let c ← c.addControl { CompilerContext.control forkId .forkAny with
    branches := parallelBranches compiled
    metadata := [("cancellation_policy", .str cancellationPolicy.value)] }
  let c ← c.addControl { CompilerContext.control joinId .joinAny with
    join := some ⟨forkId, parallelBranchIds compiled, failurePolicy.value,
      some "first_verified_success_by_stream_sequence", none⟩ }
  return (compiled.foldl (linkParallelBranch forkId joinId) c, ⟨[forkId], [joinId]⟩)

/-- A route of a loop out of its guard. -/
def loopRoute (loopId name : String) (priority : ℤ) (fragment : Fragment) : HarnessBranch where
  branchId := name
  entryNodeIds := fragment.entryNodeIds
  terminalNodeIds := fragment.terminalNodeIds
  priority := priority
  outputNamespace := "loop." ++ loopId ++ "." ++ name
  condition := none
  isDefault := false

/-- The routes of a loop. -/
def loopRoutes (loopId : String) (exit : Fragment) (exhaustion : Option Fragment) :
    List HarnessBranch :=
  loopRoute loopId "exit" 0 exit ::
    (exhaustion.map (loopRoute loopId "exhaustion" 1)).toList

/-- The edges of a loop. -/
def linkLoop (loopId : String) (condition : HarnessCondition) (c : CompilerContext)
    (body exit : Fragment) (exhaustion : Option Fragment) : CompilerContext :=
  let c := body.entryNodeIds.foldl (fun c entryId =>
    c.addEdgeWith loopId entryId .loopBody 0 (some condition) none (some loopId)) c
  let c := body.terminalNodeIds.foldl (fun c terminalId =>
    c.addEdge terminalId loopId .loopBack none (some loopId)) c
  let c := exit.entryNodeIds.foldl (fun c entryId =>
    c.addEdge loopId entryId .loopExit none (some loopId)) c
  let c := (exhaustion.map Fragment.entryNodeIds).getD [] |>.foldl (fun c entryId =>
    c.addEdge loopId entryId .loopExhausted none (some loopId)) c
  (loopRoutes loopId exit exhaustion).foldl (fun c route =>
    route.terminalNodeIds.foldl (fun c terminalId =>
      c.addEdge terminalId (loopId ++ ":join") .dependency (some route.branchId) (some loopId))
      c) c

/-- `_compile_loop`, after its body, its exit and its exhaustion. -/
def finishLoop (loopId : String) (condition : HarnessCondition) (maxIterations : ℤ)
    (c : CompilerContext) (body exit : Fragment) (exhaustion : Option Fragment) :
    Except HarnessValidationError (CompilerContext × Fragment) := do
  let c ← c.addControl { CompilerContext.control loopId .loopGuard with
    loop := some
      { bodyEntryNodeIds := body.entryNodeIds, bodyTerminalNodeIds := body.terminalNodeIds
        condition := condition, maxIterations := maxIterations
        exitNodeIds := exit.entryNodeIds
        exhaustionNodeIds := (exhaustion.map Fragment.entryNodeIds).getD [] } }
  let c ← c.addControl { CompilerContext.control (loopId ++ ":join") .loopJoin with
    branches := loopRoutes loopId exit exhaustion
    metadata := [("loop_node_id", .str loopId)] }
  return (linkLoop loopId condition c body exit exhaustion, ⟨[loopId], [loopId ++ ":join"]⟩)

/-- The check of the re-entry of an approval wait. -/
def checkWait (wait : HarnessWaitContract) : Except HarnessValidationError Unit := do
  require (wait.correlation ≠ [])
    ⟨"wait correlation must be a non-empty object", "wait_correlation_missing", []⟩
  require (wait.resumeNodeId.isSome = true → wait.kind = .approval)
    ⟨"only approval Waits can re-enter a node with a redeemable grant",
      "wait_resume_node_requires_approval", [("wait_id", .str wait.waitId)]⟩
  require (wait.resumeNodeId.isSome = true →
      ∃ path ∈ wait.correlation.get? "approval_id", ∃ text ∈ (match path with
        | .str text => some text
        | _ => none), PyText.strip text ≠ "")
    ⟨"re-entrant approval Wait must correlate on approval_id", "wait_resume_approval_id_missing",
      [("wait_id", .str wait.waitId)]⟩

/-- The compiled wait. -/
def compileWait (wait : HarnessWaitContract) (c : CompilerContext) :
    Except HarnessValidationError (CompilerContext × Fragment) := do
  checkWait wait
  let c ← c.addControl { CompilerContext.control wait.waitId .wait with wait := some wait }
  return (match wait.timeoutPolicy with
    | some (.route targetNodeId) => c.addEdge wait.waitId targetNodeId .waitTimeout none none
    | _ => c, ⟨[wait.waitId], [wait.waitId]⟩)

mutual

def compileExpression : HarnessGraphExpression → CompilerContext →
    Except HarnessValidationError (CompilerContext × Fragment)
  | .stepRef step, c => do
    let c ← d.addExecutable c step.stepId step.nodeId
    return (c, ⟨[step.nodeId], [step.nodeId]⟩)
  | .pass passId, c => do
    let c ← c.addControl (CompilerContext.control passId .terminal)
    return (c, ⟨[passId], [passId]⟩)
  | .sequence children, c => do
    let (c, fragments) ← compileChildren children c
    finishSequence c fragments
  | .choice choiceId branches, c => do
    let (c, compiled) ← compileChoiceBranches branches c
    finishChoice choiceId c compiled
  | .parallelAll forkId joinId branches failurePolicy merge, c => do
    let (c, compiled) ← compileParallelBranches branches c
    d.finishParallelAll forkId joinId failurePolicy merge c compiled
  | .parallelAny forkId joinId branches cancellationPolicy failurePolicy, c => do
    let (c, compiled) ← compileParallelBranches branches c
    finishParallelAny forkId joinId cancellationPolicy failurePolicy c compiled
  | .boundedLoop loopId body condition maxIterations (some exit) exhaustion, c => do
    -- only the body is inside the loop
    let (c', body) ← compileExpression body { c with loopStack := c.loopStack ++ [loopId] }
    let (c, exit) ← compileExpression exit { c' with loopStack := c.loopStack }
    let (c, exhaustion) ← compileOption exhaustion c
    finishLoop loopId condition maxIterations c body exit exhaustion
  | .boundedLoop loopId _ _ _ none _, _ => .error
      ⟨"bounded loop requires an explicit exit expression", "loop_exit_missing",
        [("loop_id", .str loopId)]⟩
  | .wait contract, c => compileWait contract c

/-- The children of a sequence. -/
def compileChildren : List HarnessGraphExpression → CompilerContext →
    Except HarnessValidationError (CompilerContext × List Fragment)
  | [], c => .ok (c, [])
  | child :: children, c => do
    let (c, fragment) ← compileExpression child c
    let (c, fragments) ← compileChildren children c
    return (c, fragment :: fragments)

/-- The branches of a choice, each with its fragment. -/
def compileChoiceBranches : List (ChoiceBranch HarnessGraphExpression) → CompilerContext →
    Except HarnessValidationError
      (CompilerContext × List (ChoiceBranch HarnessGraphExpression × Fragment))
  | [], c => .ok (c, [])
  | ⟨branchId, child, priority, condition, isDefault, outputNamespace⟩ :: branches, c => do
    let (c, fragment) ← compileExpression child c
    let (c, compiled) ← compileChoiceBranches branches c
    return (c, (⟨branchId, child, priority, condition, isDefault, outputNamespace⟩, fragment) ::
      compiled)

/-- Parallel branches, each with its fragment. -/
def compileParallelBranches : List (ParallelBranch HarnessGraphExpression) → CompilerContext →
    Except HarnessValidationError
      (CompilerContext × List (ParallelBranch HarnessGraphExpression × Fragment))
  | [], c => .ok (c, [])
  | ⟨branchId, child, outputNamespace⟩ :: branches, c => do
    let (c, fragment) ← compileExpression child c
    let (c, compiled) ← compileParallelBranches branches c
    return (c, (⟨branchId, child, outputNamespace⟩, fragment) :: compiled)

/-- An expression that may be absent. -/
def compileOption : Option HarnessGraphExpression → CompilerContext →
    Except HarnessValidationError (CompilerContext × Option Fragment)
  | none, c => .ok (c, none)
  | some expression, c => do
    let (c, fragment) ← compileExpression expression c
    return (c, some fragment)

end

/-! ## The whole graph -/

/-- The check of one wait that is re-entered. -/
def validateWaitResumeTarget (c : CompilerContext) (waitId targetId : String) :
    Except HarnessValidationError Unit := do
  let target := c.nodes.reverse.find? fun n => decide (n.nodeId = targetId)
  let loops (nodeId : String) := (c.enclosingLoops.get? nodeId).getD []
  require ((target.bind HarnessGraphNode.executable?).isSome = true)
    ⟨"approval Wait resume target must be an executable node", "wait_resume_node_invalid",
      [("wait_id", .str waitId), ("resume_node_id", .str targetId)]⟩
  require (loops waitId ≠ [] ∧ loops targetId = loops waitId)
    ⟨"approval Wait and its resume target must share the innermost enclosing bounded loop",
      "wait_resume_node_scope_invalid",
      [("wait_id", .str waitId), ("resume_node_id", .str targetId)]⟩

def validateWaitResumeTargets (c : CompilerContext) : Except HarnessValidationError Unit :=
  c.nodes.forM fun n =>
    match (n.control?.bind HarnessControlNode.wait).bind HarnessWaitContract.resumeNodeId with
    | none => .ok ()
    | some targetId => validateWaitResumeTarget c n.nodeId targetId

/-- The node of a compensation binding. -/
def compensationNodeId (binding : CompensationBinding) : String :=
  "compensation:" ++ binding.bindingId

section

variable (c : CompilerContext)

/-- One compensation binding. -/
def compileCompensation (binding : CompensationBinding) :
    Except HarnessValidationError CompilerContext := do
  let nodeId := compensationNodeId binding
  let c ← d.addExecutable c binding.compensationStepId nodeId
  let node ← c.executableNode nodeId
  let declared ← exactReference .activity binding.activityContractRef
    "compensation.activity_contract_ref"
  require (node.activityRef = declared)
    ⟨"compensation binding does not match selected activity contract",
      "graph_compensation_activity_reference_mismatch",
      [("binding_id", .str binding.bindingId), ("declared", .str declared.exactRef),
        ("selected", .str node.activityRef.exactRef)]⟩
  let handlerRef ← exactReference .compensation binding.handlerRef "compensation.handler_ref"
  let c : CompilerContext := { c with
    compensationRefs := c.compensationRefs ++
      [{ bindingId := binding.bindingId, forNodeId := binding.forNodeId
         compensationNodeId := nodeId, handlerRef := handlerRef
         activityRef := node.activityRef, scope := binding.scope }] }
  return c.addEdge binding.forNodeId nodeId .compensation none none

def compileCompensations : Except HarnessValidationError CompilerContext :=
  (d.root.compensations.insertionSort fun a b => a.bindingId ≤ b.bindingId).foldlM
    d.compileCompensation c

/-- One repair binding. -/
def compileRepair (binding : HarnessGraphRepairBinding) :
    Except HarnessValidationError CompilerContext := do
  let c ← d.addExecutable c binding.repairActivityId binding.repairNodeId
  let source ← c.executableNode binding.sourceNodeId
  let repair ← c.executableNode binding.repairNodeId
  let c : CompilerContext := { c with
    repairRefs := c.repairRefs ++
      [{ bindingId := binding.bindingId, sourceActivityId := source.stepId
         sourceNodeId := binding.sourceNodeId, repairActivityId := binding.repairActivityId
         repairActivityRef := repair.activityRef, repairNodeId := binding.repairNodeId
         triggers := PyText.sorted binding.triggers }] }
  return c.addEdge binding.sourceNodeId binding.repairNodeId .repair none none

def compileRepairs : Except HarnessValidationError CompilerContext :=
  d.repairBindings.foldlM d.compileRepair c

/-- One committed output reference. -/
def committedOutputRef (binding : HarnessGraphCommittedNodeOutputBinding) :
    Except HarnessValidationError HarnessCommittedOutputReference := do
  let producer ← c.executableNode binding.producerNodeId
  let consumer ← c.executableNode binding.consumerNodeId
  require (binding.producerActivityId ≠ binding.consumerActivityId ∧
      binding.producerNodeId ≠ binding.consumerNodeId)
    ⟨"committed output reference cannot target its producer",
      "graph_committed_output_reference_self_reference", [("binding_id", .str binding.bindingId)]⟩
  return ⟨binding.bindingId, binding.producerActivityId, producer.activityRef,
    binding.producerNodeId, binding.producerOutputKey, binding.consumerActivityId,
    consumer.activityRef, binding.consumerNodeId, binding.receiptInputKey⟩

def buildGraph (fragment : Fragment) : Except HarnessValidationError NormalizedHarnessGraph := do
  let committedOutputRefs ← d.committedOutputBindings.mapM (committedOutputRef c)
  NormalizedHarnessGraph.construct
    { graphId := d.graphId, graphVersion := d.graphVersion
      nodes := c.nodes, edges := c.edges
      entryNodeIds := fragment.entryNodeIds, terminalNodeIds := fragment.terminalNodeIds
      inputKeys := d.root.inputKeys, terminalOutputKeys := d.root.terminalOutputKeys
      compensationRefs := c.compensationRefs, committedOutputRefs := committedOutputRefs
      repairRefs := c.repairRefs }

end

def compile : Except HarnessValidationError NormalizedHarnessGraph := do
  let (c, fragment) ← d.compileExpression d.root.root CompilerContext.empty
  validateWaitResumeTargets c
  let c ← d.compileCompensations c
  let c ← d.compileRepairs c
  d.buildGraph c fragment

end HarnessGraphDefinition

end HarnessGraph
