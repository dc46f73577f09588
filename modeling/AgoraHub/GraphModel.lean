/-
# The normalized graph

Nodes, edges and contracts of a compiled harness graph.  Texts are as the
constructors leave them: trimmed and not empty.
-/
import AgoraHub.TaskPlanCanonical

namespace HarnessGraph

open Fallible
open TaskPlan (HarnessValidationError movingVersionAliases)

/-! ## Kinds -/

/-- `HarnessGraphNodeKind`. -/
inductive NodeKind where
  | executable
  | choice
  | choiceJoin
  | forkAll
  | forkAny
  | joinAll
  | joinAny
  | loopGuard
  | loopJoin
  | wait
  | merge
  | terminal
  deriving DecidableEq

/-- The text of a node kind. -/
def NodeKind.value : NodeKind → String
  | executable => "executable"
  | choice => "choice"
  | choiceJoin => "choice_join"
  | forkAll => "fork_all"
  | forkAny => "fork_any"
  | joinAll => "join_all"
  | joinAny => "join_any"
  | loopGuard => "loop_guard"
  | loopJoin => "loop_join"
  | wait => "wait"
  | merge => "merge"
  | terminal => "terminal"

/-- `HarnessGraphEdgeKind`. -/
inductive EdgeKind where
  | dependency
  | choice
  | default
  | forkBranch
  | join
  | loopBody
  | loopBack
  | loopExit
  | loopExhausted
  | waitResume
  | waitTimeout
  | repair
  | compensation
  deriving DecidableEq

/-- The text of an edge kind. -/
def EdgeKind.value : EdgeKind → String
  | dependency => "dependency"
  | choice => "choice"
  | default => "default"
  | forkBranch => "fork_branch"
  | join => "join"
  | loopBody => "loop_body"
  | loopBack => "loop_back"
  | loopExit => "loop_exit"
  | loopExhausted => "loop_exhausted"
  | waitResume => "wait_resume"
  | waitTimeout => "wait_timeout"
  | repair => "repair"
  | compensation => "compensation"

/-- `HarnessContractKind`. -/
inductive ContractKind where
  | graph
  | step
  | worker
  | gate
  | activity
  | sideEffect
  | compensation
  | merge
  | wait
  | terminalPolicy
  | runOperation
  deriving DecidableEq

/-- The text of a contract kind. -/
def ContractKind.value : ContractKind → String
  | graph => "graph"
  | step => "step"
  | worker => "worker"
  | gate => "gate"
  | activity => "activity"
  | sideEffect => "side_effect"
  | compensation => "compensation"
  | merge => "merge"
  | wait => "wait"
  | terminalPolicy => "terminal_policy"
  | runOperation => "run_operation"

/-- `HarnessMergeKind`. -/
inductive MergeKind where
  | pure
  | aggregationStep
  deriving DecidableEq

/-! ## Texts -/

/-- `required_text` of the graph modules. -/
def requiredText (value fieldName : String) : Except HarnessValidationError String := do
  let text := PyText.strip value
  require (text ≠ "")
    ⟨fieldName ++ " is required", "graph_required_field", [("field", .str fieldName)]⟩
  return text

def textTuple (values : List String) (fieldName : String) :
    Except HarnessValidationError (List String) :=
  values.mapM fun value => requiredText value fieldName

/-! ## Contract references -/

/-- `HarnessContractReference`. -/
structure ContractReference where
  contractKind : ContractKind
  contractId : String
  version : String
  deriving DecidableEq

namespace ContractReference

/-- The constructor: no moving version alias. -/
def construct (kind : ContractKind) (contractId version : String) :
    Except HarnessValidationError ContractReference := do
  let contractId ← requiredText contractId "contract_ref.id"
  let version ← requiredText version "contract_ref.version"
  require (String.ofList (version.toList.map Char.toLower) ∉ movingVersionAliases)
    ⟨"graph contract reference cannot use a moving version alias", "graph_inexact_version_reference",
      [("contract_id", .str contractId), ("version", .str version)]⟩
  return ⟨kind, contractId, version⟩

def exactRef (r : ContractReference) : String := r.contractId ++ "@" ++ r.version

/-- `_require_reference_kind`. -/
def requireKind (r : ContractReference) (expected : ContractKind) (fieldName : String) :
    Except HarnessValidationError Unit :=
  require (r.contractKind = expected)
    ⟨fieldName ++ " must be a " ++ expected.value ++ " contract reference",
      "invalid_graph_contract_reference",
      [("field", .str fieldName), ("expected_kind", .str expected.value)]⟩

end ContractReference

/-- `_exact_reference`: the text around the only `@`. -/
def exactReference (kind : ContractKind) (value fieldName : String) :
    Except HarnessValidationError ContractReference := do
  let text := PyText.strip value
  require (text.toList.count '@' = 1)
    ⟨fieldName ++ " must be an exact version reference", "graph_inexact_version_reference",
      [("field", .str fieldName), ("reference", .str text)]⟩
  ContractReference.construct kind (String.ofList (text.toList.takeWhile (· ≠ '@')))
    (String.ofList ((text.toList.dropWhile (· ≠ '@')).drop 1))

/-! ## Conditions -/

inductive ConditionOperator where
  | exists_
  | equals
  | notEquals
  | in_
  | notIn
  | gte
  | gt
  | lte
  | lt
  deriving DecidableEq

inductive HarnessCondition where
  | predicate (path : String) (operator : ConditionOperator) (expected : Json)
  | all (conditions : List HarnessCondition)
  | any (conditions : List HarnessCondition)

namespace HarnessCondition

mutual

/-- Equality of conditions, part by part. -/
def beq : HarnessCondition → HarnessCondition → Bool
  | predicate p o e, predicate p' o' e' => decide (p = p') && (decide (o = o') && decide (e = e'))
  | all cs, all cs' => beqItems cs cs'
  | any cs, any cs' => beqItems cs cs'
  | _, _ => false

/-- Equality of the parts of two groups. -/
def beqItems : List HarnessCondition → List HarnessCondition → Bool
  | [], [] => true
  | c :: cs, c' :: cs' => beq c c' && beqItems cs cs'
  | _, _ => false

end

mutual

theorem beq_iff : ∀ a b : HarnessCondition, beq a b = true ↔ a = b
  | predicate p o e, b => by cases b <;> simp [beq]
  | all cs, b => by cases b <;> simp [beq, beqItems_iff cs]
  | any cs, b => by cases b <;> simp [beq, beqItems_iff cs]

theorem beqItems_iff : ∀ cs cs' : List HarnessCondition, beqItems cs cs' = true ↔ cs = cs'
  | [], cs' => by cases cs' <;> simp [beqItems]
  | c :: cs, cs' => by cases cs' <;> simp [beqItems, beq_iff c, beqItems_iff cs]

end

instance : DecidableEq HarnessCondition := fun a b =>
  decidable_of_iff (beq a b = true) (beq_iff a b)

end HarnessCondition

/-! ## Contracts of control nodes -/

structure HarnessBranch where
  branchId : String
  entryNodeIds : List String
  terminalNodeIds : List String
  priority : ℤ
  outputNamespace : String
  condition : Option HarnessCondition
  isDefault : Bool
  deriving DecidableEq

structure HarnessJoinContract where
  forkNodeId : String
  requiredBranchIds : List String
  failurePolicy : String
  winnerPolicy : Option String
  mergeRef : Option ContractReference

structure HarnessLoopContract where
  bodyEntryNodeIds : List String
  bodyTerminalNodeIds : List String
  condition : HarnessCondition
  maxIterations : ℤ
  exitNodeIds : List String
  exhaustionNodeIds : List String

inductive WaitKind where
  | signal
  | timer
  | approval
  deriving DecidableEq

/-- `WaitTimeoutPolicy`: halt, fail, or route to a node. -/
inductive WaitTimeoutPolicy where
  | halt
  | fail
  | route (targetNodeId : String)
  deriving DecidableEq

structure HarnessWaitContract where
  waitId : String
  kind : WaitKind
  correlation : PyDict String Json
  signalType : String
  signalVersion : String
  tenantScopePath : String
  identityScopePath : String
  timeoutPolicy : Option WaitTimeoutPolicy
  deadlineInputPath : Option String
  resumeNodeId : Option String

structure HarnessMergeContract where
  mergeKind : MergeKind
  inputBranchIds : List String
  outputKeys : List String
  mergeRef : Option ContractReference
  aggregationNodeId : Option String

/-! ## Nodes -/

structure HarnessExecutableNode where
  nodeId : String
  stepId : String
  declarationOrder : ℕ
  stepRef : ContractReference
  workerRef : ContractReference
  activityRef : ContractReference
  gateRefs : List ContractReference
  sideEffectRef : Option ContractReference
  inputKeys : List String
  outputKeys : List String
  metadata : PyDict String Json

structure HarnessControlNode where
  nodeId : String
  nodeKind : NodeKind
  declarationOrder : ℕ
  branches : List HarnessBranch
  join : Option HarnessJoinContract
  loop : Option HarnessLoopContract
  wait : Option HarnessWaitContract
  merge : Option HarnessMergeContract
  metadata : PyDict String Json

namespace HarnessControlNode

/-- The contract fields that are present. -/
def present (n : HarnessControlNode) : List String :=
  (if n.branches = [] then [] else ["branches"]) ++ (if n.join.isSome then ["join"] else []) ++
    (if n.loop.isSome then ["loop"] else []) ++ (if n.wait.isSome then ["wait"] else []) ++
    (if n.merge.isSome then ["merge"] else [])

/-- `expected_contract`: the contract field of each kind. -/
def expectedContract : NodeKind → List String
  | .choice | .choiceJoin | .forkAll | .forkAny | .loopJoin => ["branches"]
  | .joinAll | .joinAny => ["join"]
  | .loopGuard => ["loop"]
  | .wait => ["wait"]
  | .merge => ["merge"]
  | .terminal | .executable => []

/-- The order of branches: by priority, then by identifier. -/
def branchLe (a b : HarnessBranch) : Prop :=
  a.priority < b.priority ∨ (a.priority = b.priority ∧ a.branchId ≤ b.branchId)

instance : DecidableRel branchLe := fun _ _ => inferInstanceAs (Decidable (_ ∨ _))

/-- `HarnessControlNode.__post_init__`. -/
def construct (n : HarnessControlNode) : Except HarnessValidationError HarnessControlNode := do
  require (n.nodeKind ≠ .executable)
    ⟨"control node cannot use executable node kind", "invalid_control_node_kind",
      [("node_id", .str n.nodeId)]⟩
  require (n.present = expectedContract n.nodeKind)
    ⟨"control node contract does not match node kind", "invalid_control_node_contract",
      [("node_id", .str n.nodeId), ("node_kind", .str n.nodeKind.value),
        ("present", .arr ((PyText.sorted n.present).map .str))]⟩
  return { n with branches := n.branches.insertionSort branchLe }

end HarnessControlNode

inductive HarnessGraphNode where
  | executable (node : HarnessExecutableNode)
  | control (node : HarnessControlNode)

namespace HarnessGraphNode

def nodeId : HarnessGraphNode → String
  | executable n => n.nodeId
  | control n => n.nodeId

def nodeKind : HarnessGraphNode → NodeKind
  | executable _ => .executable
  | control n => n.nodeKind

/-- The node, when it is a control node. -/
def control? : HarnessGraphNode → Option HarnessControlNode
  | executable _ => none
  | control n => some n

/-- The node, when it is executable. -/
def executable? : HarnessGraphNode → Option HarnessExecutableNode
  | executable n => some n
  | control _ => none

end HarnessGraphNode

/-! ## Edges -/

structure HarnessGraphEdge where
  edgeId : String
  sourceId : String
  targetId : String
  edgeKind : EdgeKind
  priority : ℤ
  condition : Option HarnessCondition
  branchId : Option String
  loopId : Option String
  deriving DecidableEq

/-! ## Graphs -/

structure HarnessCompensationReference where
  bindingId : String
  forNodeId : String
  compensationNodeId : String
  handlerRef : ContractReference
  activityRef : ContractReference
  scope : String

structure HarnessRepairReference where
  bindingId : String
  sourceActivityId : String
  sourceNodeId : String
  repairActivityId : String
  repairActivityRef : ContractReference
  repairNodeId : String
  triggers : List String

structure HarnessCommittedOutputReference where
  bindingId : String
  producerActivityId : String
  producerActivityRef : ContractReference
  producerNodeId : String
  producerOutputKey : String
  consumerActivityId : String
  consumerActivityRef : ContractReference
  consumerNodeId : String
  receiptInputKey : String

/-- `NormalizedHarnessGraph`, apart from its versions, policies and checksum. -/
structure NormalizedHarnessGraph where
  graphId : String
  graphVersion : String
  nodes : List HarnessGraphNode
  edges : List HarnessGraphEdge
  entryNodeIds : List String
  terminalNodeIds : List String
  inputKeys : List String
  terminalOutputKeys : List String
  compensationRefs : List HarnessCompensationReference
  committedOutputRefs : List HarnessCommittedOutputReference
  repairRefs : List HarnessRepairReference

namespace NormalizedHarnessGraph

/-- The order of nodes: by identifier, then by kind. -/
def nodeLe (a b : HarnessGraphNode) : Prop :=
  a.nodeId < b.nodeId ∨ (a.nodeId = b.nodeId ∧ a.nodeKind.value ≤ b.nodeKind.value)

instance : DecidableRel nodeLe := fun _ _ => inferInstanceAs (Decidable (_ ∨ _))

/-- The order of edges: by source, priority, target, kind and identifier. -/
def edgeLe (a b : HarnessGraphEdge) : Prop :=
  a.sourceId < b.sourceId ∨ (a.sourceId = b.sourceId ∧
    (a.priority < b.priority ∨ (a.priority = b.priority ∧
      (a.targetId < b.targetId ∨ (a.targetId = b.targetId ∧
        (a.edgeKind.value < b.edgeKind.value ∨ (a.edgeKind.value = b.edgeKind.value ∧
          a.edgeId ≤ b.edgeId)))))))

instance : DecidableRel edgeLe := fun _ _ => inferInstanceAs (Decidable (_ ∨ _))

/-- `NormalizedHarnessGraph.__post_init__`: every collection is sorted. -/
def construct (g : NormalizedHarnessGraph) :
    Except HarnessValidationError NormalizedHarnessGraph := do
  require (g.nodes ≠ [])
    ⟨"normalized graph must contain graph nodes", "invalid_normalized_graph_nodes", []⟩
  require (g.entryNodeIds ≠ [])
    ⟨"graph.entry_node_ids must not be empty", "empty_graph_contract_field",
      [("field", .str "graph.entry_node_ids")]⟩
  require (g.terminalNodeIds ≠ [])
    ⟨"graph.terminal_node_ids must not be empty", "empty_graph_contract_field",
      [("field", .str "graph.terminal_node_ids")]⟩
  return { g with
    nodes := g.nodes.insertionSort nodeLe
    edges := g.edges.insertionSort edgeLe
    entryNodeIds := PyText.sorted g.entryNodeIds
    terminalNodeIds := PyText.sorted g.terminalNodeIds
    inputKeys := PyText.sorted g.inputKeys
    terminalOutputKeys := PyText.sorted g.terminalOutputKeys
    compensationRefs := g.compensationRefs.insertionSort fun a b => a.bindingId ≤ b.bindingId
    committedOutputRefs := g.committedOutputRefs.insertionSort fun a b => a.bindingId ≤ b.bindingId
    repairRefs := g.repairRefs.insertionSort fun a b => a.bindingId ≤ b.bindingId }

end NormalizedHarnessGraph

end HarnessGraph
