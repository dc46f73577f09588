/-
# The structural checks of a graph

What `validate_structure` reports about a normalized graph.  The search for what is
reachable and the count of in-degrees are those of the search library.
-/
import AgoraHub.GraphModel
import AgoraHub.GraphSearch

namespace HarnessGraph

/-! ## Diagnostics -/

/-- `HarnessGraphValidationPhase`. -/
inductive ValidationPhase where
  | contract
  | structural
  | semantic
  | dataflow
  | registry
  | policy
  deriving DecidableEq

/-- `HarnessGraphDiagnostic`; the phases modelled here report no path. -/
structure HarnessGraphDiagnostic where
  phase : ValidationPhase
  code : String
  message : String
  nodeId : Option String
  edgeId : Option String
  details : List (String × Json)

/-- A structural diagnostic about a node. -/
def nodeDiagnostic (code message nodeId : String) (details : List (String × Json)) :
    HarnessGraphDiagnostic :=
  ⟨.structural, code, message, some nodeId, none, details⟩

/-- A structural diagnostic about an edge. -/
def edgeDiagnostic (code message edgeId : String) (details : List (String × Json)) :
    HarnessGraphDiagnostic :=
  ⟨.structural, code, message, none, some edgeId, details⟩

/-! ## Sets -/

/-- `set(xs) == set(ys)`. -/
def SameSet {α : Type} (xs ys : List α) : Prop := (∀ x ∈ xs, x ∈ ys) ∧ ∀ y ∈ ys, y ∈ xs

instance {α : Type} [DecidableEq α] (xs ys : List α) : Decidable (SameSet xs ys) :=
  inferInstanceAs (Decidable (_ ∧ _))

/-- `sorted(xs.difference(ys))` on text. -/
def sortedDifference (xs ys : List String) : List String :=
  PyText.sortedSet (xs.filter fun x => decide (x ∉ ys))

/-- `Json` of a list of texts. -/
def texts (values : List String) : Json := .arr (values.map .str)

/-! ## Adjacency -/

/-- `_NON_FORWARD_EDGE_KINDS`. -/
def EdgeKind.nonForward (kind : EdgeKind) : Prop := kind = .repair ∨ kind = .compensation

instance (kind : EdgeKind) : Decidable kind.nonForward := inferInstanceAs (Decidable (_ ∨ _))

/-- The targets of each node, over the distinct nodes of a graph. -/
structure Adjacency where
  keys : List String
  targets : String → List String

namespace NormalizedHarnessGraph

variable (g : NormalizedHarnessGraph)

/-- The node identifiers, in order. -/
def nodeIds : List String := g.nodes.map HarnessGraphNode.nodeId

/-- The set of node identifiers. -/
def uniqueNodeIds : List String := g.nodeIds.dedup

/-- `_adjacency`, with the loop-back edges. -/
def adjacency (includeAuxiliary : Bool) : Adjacency where
  keys := g.uniqueNodeIds
  targets nodeId := PyText.sorted ((g.edges.filter fun e =>
    decide ((includeAuxiliary = true ∨ ¬ e.edgeKind.nonForward) ∧ e.sourceId = nodeId)).map
      HarnessGraphEdge.targetId)

end NormalizedHarnessGraph

namespace Adjacency

/-- `_reverse_adjacency`. -/
def reverse (a : Adjacency) : Adjacency where
  keys := a.keys
  targets nodeId := PyText.sorted (a.keys.flatMap fun sourceId =>
    ((a.targets sourceId).filter fun targetId => decide (targetId = nodeId)).map fun _ => sourceId)

/-- Where the search starts. -/
def starts (a : Adjacency) (startIds : List String) : List String :=
  PyText.sorted (startIds.filter fun nodeId => decide (nodeId ∈ a.keys))

def reachable (a : Adjacency) (startIds : List String) : List String :=
  GraphSearch.explore (fun nodeId => decide (nodeId ∈ a.keys)) a.targets
    (GraphSearch.turns a.targets a.keys (a.starts startIds)) (a.starts startIds) []

end Adjacency

namespace NormalizedHarnessGraph

variable (g : NormalizedHarnessGraph)

/-! ## Loop edges -/

/-- The control nodes by identifier. -/
def controls : PyDict String HarnessControlNode :=
  PyDict.ofItems HarnessControlNode.nodeId id (g.nodes.filterMap HarnessGraphNode.control?)

/-- The loop contract of a guard. -/
def loopContract? (n : HarnessControlNode) : Option HarnessLoopContract :=
  if n.nodeKind = .loopGuard then n.loop else none

/-- The loop guards, with their contracts, by identifier. -/
def loopNodes : PyDict String (HarnessControlNode × HarnessLoopContract) :=
  PyDict.ofItems (fun p => p.1.nodeId) id
    ((g.nodes.filterMap HarnessGraphNode.control?).filterMap fun n =>
      (loopContract? n).map fun loop => (n, loop))

/-- The kinds of the edges of a loop. -/
def loopEdgeKinds : List EdgeKind := [.loopBody, .loopBack, .loopExit, .loopExhausted]

/-- Whether a loop edge is one its contract declares. -/
def loopEdgeValid (kind : EdgeKind) (sourceId targetId guardId : String)
    (loop : HarnessLoopContract) : Prop :=
  match kind with
  | .loopBody => sourceId = guardId ∧ targetId ∈ loop.bodyEntryNodeIds
  | .loopBack => targetId = guardId ∧ sourceId ∈ loop.bodyTerminalNodeIds
  | .loopExit => sourceId = guardId ∧ targetId ∈ loop.exitNodeIds
  | .loopExhausted => sourceId = guardId ∧ targetId ∈ loop.exhaustionNodeIds
  | _ => False

instance (kind : EdgeKind) (sourceId targetId guardId : String) (loop : HarnessLoopContract) :
    Decidable (loopEdgeValid kind sourceId targetId guardId loop) := by
  unfold loopEdgeValid
  split <;> infer_instance

/-- What is wrong with one loop edge. -/
def validateLoopEdge (e : HarnessGraphEdge) : List HarnessGraphDiagnostic :=
  if e.edgeKind ∉ loopEdgeKinds then []
  else match g.loopNodes.get? (e.loopId.getD "") with
    | none => [edgeDiagnostic "invalid_loop_edge" "loop edge must reference a declared loop guard"
        e.edgeId [("loop_id", .optStr e.loopId)]]
    | some (guard, loop) =>
      if loopEdgeValid e.edgeKind e.sourceId e.targetId guard.nodeId loop then []
      else
        let details : List (String × Json) := [("source_id", .str e.sourceId),
          ("target_id", .str e.targetId), ("loop_id", .optStr e.loopId)]
        if e.edgeKind = .loopBack then
          [edgeDiagnostic "invalid_loop_back_edge"
            "loop back edge must connect a declared body terminal to its loop guard"
            e.edgeId details]
        else
          [edgeDiagnostic "invalid_loop_edge" "loop edge does not match its declared loop contract"
            e.edgeId details]

def validateLoopEdges : List HarnessGraphDiagnostic := g.edges.flatMap g.validateLoopEdge

/-! ## Joins -/

/-- The order of `_edge_pair_details`. -/
def edgePairLe (p q : String × Option String) : Prop :=
  p.1 < q.1 ∨ (p.1 = q.1 ∧ p.2.getD "" ≤ q.2.getD "")

instance : DecidableRel edgePairLe := fun _ _ => inferInstanceAs (Decidable (_ ∨ _))

/-- `_edge_pair_details` of a difference of two sets. -/
def edgePairDetails (pairs without : List (String × Option String)) : Json :=
  .arr (((pairs.filter fun p => decide (p ∉ without)).dedup.insertionSort edgePairLe).map fun p =>
    .obj [("source_id", .str p.1), ("branch_id", .optStr p.2)])

/-- The edges a join expects: each terminal of each branch, under the branch. -/
def expectedEdges (branches : List HarnessBranch) : List (String × Option String) :=
  branches.flatMap fun b => b.terminalNodeIds.map fun terminalId => (terminalId, some b.branchId)

/-- The dependency edges into a node, among those that pass a test. -/
def edgesInto (nodeId : String) (test : HarnessGraphEdge → Bool) : List (String × Option String) :=
  (g.edges.filter fun e =>
    decide (e.targetId = nodeId ∧ e.edgeKind = .dependency) && test e).map fun e =>
      (e.sourceId, e.branchId)

/-- The differences between the edges of a join and those it expects. -/
def edgeDifference (expected actual : List (String × Option String)) : List (String × Json) :=
  [("missing", edgePairDetails expected actual), ("unexpected", edgePairDetails actual expected)]

/-- The choice a choice join refers to. -/
def choiceOf? (join : HarnessControlNode) : Option HarnessControlNode :=
  match join.metadata.get? "choice_node_id" with
  | some (.str choiceId) => (g.controls.get? choiceId).filter fun n => decide (n.nodeKind = .choice)
  | _ => none

/-- What is wrong with one choice join. -/
def validateChoiceJoin (join : HarnessControlNode) : List HarnessGraphDiagnostic :=
  match g.choiceOf? join with
  | none => [nodeDiagnostic "choice_join_selector_mismatch"
      "Choice join does not resolve to a Choice selector" join.nodeId
      [("choice_node_id", (join.metadata.get? "choice_node_id").getD .null)]]
  | some choice =>
    let expected := expectedEdges choice.branches
    let actual := g.edgesInto join.nodeId fun _ => true
    (if join.branches = choice.branches then []
      else [nodeDiagnostic "choice_join_branch_mismatch"
        "Choice join branch contracts differ from their selector" join.nodeId
        [("choice_node_id", .str choice.nodeId)]]) ++
    (if SameSet actual expected then []
      else [nodeDiagnostic "choice_join_edge_mismatch"
        "Choice join dependencies do not cover its declared branch terminals" join.nodeId
        (edgeDifference expected actual)])

/-- The control nodes of a kind. -/
def controlsOf (kind : NodeKind) : List HarnessControlNode :=
  g.controls.values.filter fun n => decide (n.nodeKind = kind)

/-- The nodes of a kind that are not paired with exactly one join. -/
def validatePairCounts (kind : NodeKind) (paired : List String) (code message : String) :
    List HarnessGraphDiagnostic :=
  ((g.controlsOf kind).filter fun n => decide (paired.count n.nodeId ≠ 1)).map fun n =>
    nodeDiagnostic code message n.nodeId [("matching_joins", .int (paired.count n.nodeId))]

/-- The choices that choice joins refer to. -/
def choicesOfJoins : List String :=
  ((g.controlsOf .choiceJoin).filterMap g.choiceOf?).map HarnessControlNode.nodeId

def validateChoiceJoinPairs : List HarnessGraphDiagnostic :=
  (g.controlsOf .choiceJoin).flatMap g.validateChoiceJoin ++
    g.validatePairCounts .choice g.choicesOfJoins "choice_join_pair_count_invalid"
      "explicit Choice must have exactly one deterministic join"

/-- The loop a loop join refers to. -/
def loopOf? (join : HarnessControlNode) : Option (HarnessControlNode × HarnessLoopContract) :=
  match join.metadata.get? "loop_node_id" with
  | some (.str loopId) => (g.controls.get? loopId).bind fun n =>
      (loopContract? n).map fun loop => (n, loop)
  | _ => none

/-- The branches of a loop join. -/
def expectedLoopBranchIds (loop : HarnessLoopContract) : List String :=
  if loop.exhaustionNodeIds = [] then ["exit"] else ["exit", "exhaustion"]

/-- Whether the routes of a loop join enter where the contract says. -/
def loopRoutesMatch (branches : PyDict String HarnessBranch) (loop : HarnessLoopContract) : Prop :=
  (∀ b ∈ branches.get? "exit", SameSet b.entryNodeIds loop.exitNodeIds) ∧
    ∀ b ∈ branches.get? "exhaustion", SameSet b.entryNodeIds loop.exhaustionNodeIds

instance (branches : PyDict String HarnessBranch) (loop : HarnessLoopContract) :
    Decidable (loopRoutesMatch branches loop) := by
  unfold loopRoutesMatch
  infer_instance

/-- What is wrong with one loop join. -/
def validateLoopJoin (join : HarnessControlNode) : List HarnessGraphDiagnostic :=
  match g.loopOf? join with
  | none => [nodeDiagnostic "loop_join_selector_mismatch"
      "Loop join does not resolve to a bounded Loop guard" join.nodeId
      [("loop_node_id", (join.metadata.get? "loop_node_id").getD .null)]]
  | some (guard, loop) =>
    let branches := PyDict.ofItems HarnessBranch.branchId id join.branches
    let expectedIds := expectedLoopBranchIds loop
    if ¬ SameSet branches.keys expectedIds then
      [nodeDiagnostic "loop_join_branch_mismatch"
        "Loop join routes differ from the bounded Loop contract" join.nodeId
        [("expected_branch_ids", texts (PyText.sortedSet expectedIds)),
          ("actual_branch_ids", texts (PyText.sorted branches.keys))]]
    else
      let expected := expectedEdges branches.values
      let actual := g.edgesInto join.nodeId fun e => decide (e.loopId = some guard.nodeId)
      (if loopRoutesMatch branches loop then []
        else [nodeDiagnostic "loop_join_branch_mismatch"
          "Loop join route entries differ from the bounded Loop contract" join.nodeId []]) ++
      (if SameSet actual expected then []
        else [nodeDiagnostic "loop_join_edge_mismatch"
          "Loop join dependencies do not cover its declared route terminals" join.nodeId
          (edgeDifference expected actual)])

/-- The loops that loop joins refer to. -/
def loopsOfJoins : List String :=
  ((g.controlsOf .loopJoin).filterMap g.loopOf?).map fun p => p.1.nodeId

def validateLoopJoinPairs : List HarnessGraphDiagnostic :=
  (g.controlsOf .loopJoin).flatMap g.validateLoopJoin ++
    g.validatePairCounts .loopGuard g.loopsOfJoins "loop_join_pair_count_invalid"
      "bounded Loop must have exactly one deterministic exit join"

/-- The kind of the fork of a join. -/
def forkKindOf : NodeKind → NodeKind
  | .joinAll => .forkAll
  | _ => .forkAny

/-- The fork a join refers to. -/
def forkOf? (n : HarnessControlNode) (join : HarnessJoinContract) : Option HarnessControlNode :=
  (g.controls.get? join.forkNodeId).filter fun fork => decide (fork.nodeKind = forkKindOf n.nodeKind)

/-- The joins of the graph, with their contracts. -/
def joins : List (HarnessControlNode × HarnessJoinContract) :=
  (g.controls.values.filter fun n =>
    decide (n.nodeKind = .joinAll ∨ n.nodeKind = .joinAny)).filterMap fun n =>
      n.join.map fun join => (n, join)

/-- What is wrong with one join. -/
def validateJoin (p : HarnessControlNode × HarnessJoinContract) : List HarnessGraphDiagnostic :=
  match g.forkOf? p.1 p.2 with
  | none => [nodeDiagnostic "fork_join_kind_mismatch"
      "join does not resolve to the matching fork kind" p.1.nodeId
      [("fork_node_id", .str p.2.forkNodeId),
        ("expected_kind", .str (forkKindOf p.1.nodeKind).value)]]
  | some fork =>
    let forkBranches := fork.branches.map HarnessBranch.branchId
    if SameSet forkBranches p.2.requiredBranchIds then []
    else [nodeDiagnostic "fork_join_branch_mismatch" "fork and join branch identities differ"
      p.1.nodeId [("missing_at_join", texts (sortedDifference forkBranches p.2.requiredBranchIds)),
        ("unknown_at_join", texts (sortedDifference p.2.requiredBranchIds forkBranches))]]

/-- The forks that joins refer to. -/
def forksOfJoins : List String :=
  (g.joins.filterMap fun p => g.forkOf? p.1 p.2).map HarnessControlNode.nodeId

/-- The forks of the graph that are not paired with exactly one join. -/
def validateForkCounts : List HarnessGraphDiagnostic :=
  ((g.controls.values.filter fun n =>
    decide (n.nodeKind = .forkAll ∨ n.nodeKind = .forkAny)).filter fun n =>
      decide (g.forksOfJoins.count n.nodeId ≠ 1)).map fun n =>
        nodeDiagnostic "fork_join_pair_count_invalid"
          "parallel fork must have exactly one matching join" n.nodeId
          [("matching_joins", .int (g.forksOfJoins.count n.nodeId))]

def validateForkJoinPairs : List HarnessGraphDiagnostic :=
  g.joins.flatMap g.validateJoin ++ g.validateForkCounts

/-! ## Cycles -/

/-- `_is_declared_loop_back`: the first guard with the loop's identifier decides. -/
def isDeclaredLoopBack (e : HarnessGraphEdge) : Prop :=
  e.edgeKind = .loopBack ∧ ∃ loopId ∈ e.loopId,
    ∃ p ∈ ((g.nodes.filterMap HarnessGraphNode.control?).filterMap fun n =>
        if n.nodeId = loopId then (loopContract? n).map fun loop => (n.nodeId, loop)
        else none).head?,
      e.targetId = p.1 ∧ e.sourceId ∈ p.2.bodyTerminalNodeIds

instance (e : HarnessGraphEdge) : Decidable (g.isDeclaredLoopBack e) := by
  unfold isDeclaredLoopBack
  infer_instance

/-- The edges that may not close a cycle. -/
def acyclicEdges : List HarnessGraphEdge :=
  g.edges.filter fun e => decide (¬ e.edgeKind.nonForward ∧ ¬ g.isDeclaredLoopBack e ∧
    e.sourceId ∈ g.uniqueNodeIds ∧ e.targetId ∈ g.uniqueNodeIds)

/-- The in-degrees over those edges. -/
def indegree (nodeId : String) : ℕ :=
  g.acyclicEdges.countP fun e => decide (e.targetId = nodeId)

/-- The targets of a node over those edges. -/
def outgoing (nodeId : String) : List String :=
  PyText.sorted ((g.acyclicEdges.filter fun e => decide (e.sourceId = nodeId)).map
    HarnessGraphEdge.targetId)

def containsUndeclaredCycle : Prop :=
  GraphSearch.process g.outgoing g.uniqueNodeIds.length g.indegree
    (PyText.sorted (g.uniqueNodeIds.filter fun nodeId => decide (g.indegree nodeId = 0))) 0 ≠
      g.uniqueNodeIds.length

instance : Decidable g.containsUndeclaredCycle := inferInstanceAs (Decidable (_ ≠ _))

/-! ## The whole check -/

/-- A report about each node of a list that fails a test. -/
def reportNodes (nodeIds : List String) (fails : String → Bool) (code message : String) :
    List HarnessGraphDiagnostic :=
  (nodeIds.filter fails).map fun nodeId => nodeDiagnostic code message nodeId []

/-- The identifiers that occur more than once. -/
def duplicates (ids : List String) : List String :=
  PyText.sortedSet (ids.filter fun x => decide (1 < ids.count x))

/-- The edges whose ends are not nodes of the graph. -/
def validateEndpoints : List HarnessGraphDiagnostic :=
  g.edges.flatMap fun e =>
    (if e.sourceId ∈ g.uniqueNodeIds then []
      else [edgeDiagnostic "unknown_edge_source" "graph edge source does not resolve" e.edgeId
        [("source_id", .str e.sourceId)]]) ++
    (if e.targetId ∈ g.uniqueNodeIds then []
      else [edgeDiagnostic "unknown_edge_target" "graph edge target does not resolve" e.edgeId
        [("target_id", .str e.targetId)]])

/-- The identities of nodes and edges. -/
def validateIdentities : List HarnessGraphDiagnostic :=
  let edgeIds := g.edges.map HarnessGraphEdge.edgeId
  (duplicates g.nodeIds).map (fun nodeId => nodeDiagnostic "duplicate_node_id"
    "graph node identity is not unique" nodeId [("count", .int (g.nodeIds.count nodeId))]) ++
  (duplicates edgeIds).map (fun edgeId => edgeDiagnostic "duplicate_edge_id"
    "graph edge identity is not unique" edgeId [("count", .int (edgeIds.count edgeId))]) ++
  g.validateEndpoints ++
  reportNodes g.entryNodeIds (fun x => decide (x ∉ g.uniqueNodeIds)) "unknown_entry_node"
    "graph entry node does not resolve" ++
  reportNodes g.terminalNodeIds (fun x => decide (x ∉ g.uniqueNodeIds)) "unknown_terminal_node"
    "graph terminal node does not resolve"

/-- What can be reached, and where the graph ends. -/
def validateReachability : List HarnessGraphDiagnostic :=
  let reachable := (g.adjacency true).reachable g.entryNodeIds
  let forwardReachable := (g.adjacency false).reachable g.entryNodeIds
  let canReachTerminal := (g.adjacency false).reverse.reachable g.terminalNodeIds
  let forwardOutgoing := (g.edges.filter fun e => decide (¬ e.edgeKind.nonForward)).map
    HarnessGraphEdge.sourceId
  reportNodes (PyText.sorted g.uniqueNodeIds) (fun x => decide (x ∉ reachable)) "unreachable_node"
    "graph node is unreachable from every entry" ++
  reportNodes g.terminalNodeIds
    (fun x => decide (x ∈ g.uniqueNodeIds ∧ x ∉ forwardReachable)) "unreachable_terminal"
    "graph terminal is unreachable from every entry" ++
  reportNodes g.entryNodeIds (fun x => decide (x ∈ g.uniqueNodeIds ∧ x ∉ canReachTerminal))
    "entry_without_terminal_path" "graph entry has no path to a terminal" ++
  reportNodes g.terminalNodeIds (fun x => decide (x ∈ forwardOutgoing))
    "terminal_has_forward_edge" "graph terminal node has a forward outgoing edge"

/-- The report of a cycle. -/
def validateCycles : List HarnessGraphDiagnostic :=
  if g.containsUndeclaredCycle then
    [⟨.structural, "undeclared_graph_cycle",
      "graph contains a cycle outside a declared bounded loop", none, none, []⟩]
  else []

def validateStructure : List HarnessGraphDiagnostic :=
  g.validateIdentities ++ g.validateReachability ++ g.validateLoopEdges ++
    g.validateLoopJoinPairs ++ g.validateChoiceJoinPairs ++ g.validateForkJoinPairs ++
    g.validateCycles

end NormalizedHarnessGraph

end HarnessGraph
