/-
# Execution of a plan

How the actions of a plan are applied one after the other to the groups of a snapshot: groups
are left out, replaced by references to artifacts or rebuilt from the spans that were
selected.  No worker for summaries is injected.
-/
import AgoraHub.ContextPlanner

namespace ContextCompaction

open Fallible PyDynamic ContextGroup

/-! ## Artifacts -/

/-- `ArtifactWriteRequest` for a group: the fields of its payload; those of the metadata are
among them. -/
structure ArtifactWriteRequest where
  sourceGroupId : String
  sourceGroupChecksum : String
  sourceRefs : List Ref
  reconstructionPolicy : ContextReconstructionPolicy

structure ArtifactRef where
  ref : String
  checksum : String

namespace ArtifactRef

variable (artifact : ArtifactRef)

/-- `artifact.checksum.removeprefix("sha256:")` -/
def digest : String :=
  if "sha256:".toList.isPrefixOf artifact.checksum.toList then
    String.ofList (artifact.checksum.toList.drop 7)
  else artifact.checksum

/-- A real ref and checksum. -/
def Valid : Prop := artifact.digest ≠ "" ∧ PyText.strip artifact.ref ≠ ""

instance : Decidable artifact.Valid := inferInstanceAs (Decidable (_ ∧ _))

/-- The ref with the checksum behind it. -/
def text : String := artifact.ref ++ "#sha256=" ++ artifact.digest

end ArtifactRef

/-- `ArtifactPort`: what `write_artifact` returns may depend on the calls before it. -/
structure ArtifactPort where
  writeArtifact : ℕ → ArtifactWriteRequest → ArtifactRef

/-- Every ref that a port returns is valid. -/
def ArtifactPort.Valid (port : ArtifactPort) : Prop :=
  ∀ calls request, (port.writeArtifact calls request).Valid

/-! ## Results -/

/-- `ContextLossReport`: omitted topics and unresolved questions come from summaries only. -/
structure ContextLossReport where
  removedGroupIds : List Ref
  replacedGroupIds : List Ref
  omittedSpanRefs : List Ref
  lossRisk : ContextLossRisk

/-- The constructor of a report. -/
def ContextLossReport.construct (removed replaced omitted : List String)
    (lossRisk : ContextLossRisk) : Except CompactionError ContextLossReport := do
  let removedGroupIds ← textTuple (removed.map some) "removed_group_ids"
  let replacedGroupIds ← textTuple (replaced.map some) "replaced_group_ids"
  let omittedSpanRefs ← textTuple (omitted.map some) "omitted_span_refs"
  .ok ⟨removedGroupIds, replacedGroupIds, omittedSpanRefs, lossRisk⟩

structure ContextCompactionActionResult (V : Type) where
  action : ContextCompactionAction V
  sourceSnapshotId : Ref
  resultGroupIds : List Ref
  reconstructionRefs : List Ref
  lossReport : ContextLossReport
  reasonCode : String

/-- The constructor of the result of an action. -/
def ContextCompactionActionResult.construct {V : Type} (action : ContextCompactionAction V)
    (sourceSnapshotId : String) (resultGroupIds reconstructionRefs : List String)
    (lossReport : ContextLossReport) (reasonCode : String) :
    Except CompactionError (ContextCompactionActionResult V) := do
  let sourceSnapshotId ← requiredText (some sourceSnapshotId) "source_snapshot_id"
  let resultGroupIds ← textTuple (resultGroupIds.map some) "result_group_ids"
  let reconstructionRefs ← textTuple (reconstructionRefs.map some) "reconstruction_refs"
  .ok ⟨action, sourceSnapshotId, resultGroupIds, reconstructionRefs, lossReport, reasonCode⟩

/-- `ContextCompactionExecutionStatus` without the status of costs, which summaries cause. -/
inductive ContextCompactionExecutionStatus where
  | applied | actionBudgetExhausted | summaryRejected | turnBudgetExhausted
  deriving DecidableEq

namespace ContextCompactionExecutionStatus

/-- The outcome that a status halts with. -/
def outcome : ContextCompactionExecutionStatus → Option String
  | applied => none
  | actionBudgetExhausted | turnBudgetExhausted => some "action_budget_exhausted"
  | summaryRejected => some "summary_rejected"

/-- The reason that is given for a status. -/
def reasonCode : ContextCompactionExecutionStatus → String
  | applied => "actions_applied_pending_verify"
  | actionBudgetExhausted => "action_budget_exhausted_during_execution"
  | summaryRejected => "summary_worker_not_injected"
  | turnBudgetExhausted => "turn_budget_exhausted_during_execution"

end ContextCompactionExecutionStatus

variable {sha256 : String → HexDigest} {V : Type} [PyDynamic V]
variable {C : Type} [Zero C] [LT C]

structure ContextCompactionExecutionResult (sha256 : String → HexDigest) (C V : Type) [Zero C]
    [LT C] [PyDynamic V] where
  status : ContextCompactionExecutionStatus
  sourceSnapshotId : String
  sourceSnapshotChecksum : String
  resultSnapshot : Option (ContextSemanticSnapshot sha256 V)
  actionResults : List (ContextCompactionActionResult V)
  usage : ContextPlanningBudgetUsage C
  reconstructionRefs : List String
  outcome : Option String
  reasonCode : String

/-- The checks of `ContextCompactionExecutionResult.__post_init__`. -/
def ContextCompactionExecutionResult.check
    (result : ContextCompactionExecutionResult sha256 C V) : Except CompactionError Unit := do
  require (result.sourceSnapshotId ≠ "") (.validation "source_snapshot_id is required")
  require (result.sourceSnapshotChecksum ≠ "") (.validation "source_snapshot_checksum is required")
  require (∀ snapshot ∈ result.resultSnapshot, snapshot.snapshotKind = .result)
    (.validation "execution result snapshot must be a result snapshot")
  require (result.status = .applied → result.resultSnapshot.isSome = true)
    (.validation "applied execution requires a result snapshot")
  require (result.status = .applied → result.outcome = none)
    (.validation "applied execution must await aggregate VERIFY")
  require (result.status ≠ .applied → result.resultSnapshot.isNone = true)
    (.validation "halted execution must not activate a result snapshot")

/-! ## Groups that are made -/

/-- The schema revision of a group by default. -/
def groupSchemaRevision : Ref := .ofLiteral "newsroom.context-group/v1" (.refl true)

/-- The schema revision of a member by default. -/
def memberSchemaRevision : Ref := .ofLiteral "newsroom.context-group-member/v1" (.refl true)

section Groups

variable (sha256)

def referenceGroup (group : ContextGroup V) (artifactRef : String) :
    Except CompactionError (ContextGroup V) := do
  let contentRef ← requiredText (some artifactRef) "content_ref"
  let replaced : PyDict String V :=
    [("replaced_group_id", ofText (group.groupId sha256)),
      ("replaced_group_kind", ofText group.groupKind.value)]
  if hwritable : Writable replaced then
    ContextGroup.construct {
      groupKind := .memoryReference
      members := [{
        memberKind := .reference
        contentRef := contentRef
        ordinal := 0
        role := none
        toolCallId := none
        sourceRefs := group.sourceRefs
        semanticMetadata := replaced
        schemaRevision := memberSchemaRevision
        sourcesDistinct := group.isValid.sources_distinct
        writable := hwritable }]
      sourceRefs := group.sourceRefs
      protectionReasons := []
      reconstructionPolicy := .durableRef
      reconstructionRef := some contentRef
      toolTransactionState := .notApplicable
      queryBindingRef := none
      requiredCitationRefs := []
      semanticMetadata := replaced ++ [("artifact_ref", ofText artifactRef)]
      schemaRevision := groupSchemaRevision }
  else .error .typeError

/-- `tuple(dict.fromkeys(values))` -/
def fromkeys (values : List V) : List V :=
  values.foldl (fun keys v => if keys.any (PyDynamic.eq v) then keys else keys ++ [v]) []

/-- Whether a member is among the spans that were selected. -/
def isSelected (selected : List V) (member : ContextGroupMember V) : Bool :=
  (selected.map PyDynamic.text?).contains (some member.contentRef.val)

/-- The group with the spans that were selected. -/
def selectedFields (group : ContextGroup V) (selected covered : List V) : ContextGroupFields V where
  groupKind := group.groupKind
  members := group.members.filter (isSelected selected)
  sourceRefs := group.sourceRefs
  protectionReasons := group.protectionReasons
  reconstructionPolicy := group.reconstructionPolicy
  reconstructionRef := group.reconstructionRef
  toolTransactionState := .notApplicable
  queryBindingRef := group.queryBindingRef
  requiredCitationRefs := group.requiredCitationRefs
  semanticMetadata := (group.semanticMetadata.set "selected_span_refs"
    (ofTuple selected)).set "covered_group_ids"
      (ofTuple (fromkeys (covered ++ [ofText (group.groupId sha256)])))
  schemaRevision := groupSchemaRevision

end Groups

/-- The refs of the members that were not selected. -/
def omittedSpans (group : ContextGroup V) (selected : List V) : List String :=
  (group.members.filter fun member => !isSelected selected member).map fun member =>
    member.contentRef.val

/-! ## Actions -/

/-- What execution carries from action to action. -/
structure Execution (C V : Type) [Zero C] [LT C] [PyDynamic V] where
  groups : List (ContextGroup V)
  actionResults : List (ContextCompactionActionResult V) := []
  reconstructionRefs : List String := []
  usage : ContextPlanningBudgetUsage C
  calls : ℕ := 0

/-- The groups after an action, its result and the number of calls of the port. -/
structure Applied (V : Type) [PyDynamic V] where
  groups : List (ContextGroup V)
  result : ContextCompactionActionResult V
  calls : ℕ

namespace ContextCompactionActionExecutor

variable (sha256)

/-- `groups_by_id[group_id]` -/
def groupById (groups : List (ContextGroup V)) (id : String) :
    Except CompactionError (ContextGroup V) :=
  orRaise (groups.reverse.find? fun group => group.groupId sha256 == id) (.keyError id)

/-- The request to write a reference to a group. -/
def writeRequest (group : ContextGroup V) : ArtifactWriteRequest where
  sourceGroupId := group.groupId sha256
  sourceGroupChecksum := "sha256:" ++ (sha256 group.identityProjection).text
  sourceRefs := group.sourceRefs
  reconstructionPolicy := group.reconstructionPolicy

def writeReconstructionRef (port : ArtifactPort) (calls : ℕ) (group : ContextGroup V) :
    Except CompactionError String := do
  let artifact := port.writeArtifact calls (writeRequest sha256 group)
  require artifact.Valid (.validation "artifact ref must contain a real ref and checksum")
  .ok artifact.text

/-- The references that stand for the targets. -/
def replacements (port : ArtifactPort) : ℕ → List (ContextGroup V) →
    Except CompactionError (List (String × ContextGroup V))
  | _, [] => .ok []
  | calls, group :: groups => do
    let artifactRef ← writeReconstructionRef sha256 port calls group
    let reference ← referenceGroup sha256 group artifactRef
    let rest ← replacements port (calls + 1) groups
    .ok ((artifactRef, reference) :: rest)

/-- The groups without the targets, and the result that says so. -/
def removeTargets (sourceSnapshotId : String) (action : ContextCompactionAction V)
    (groups : List (ContextGroup V)) (reconstructionRefs : List String)
    (lossRisk : ContextLossRisk) (reasonCode : String) (calls : ℕ) :
    Except CompactionError (Applied V) := do
  let resultGroups := groups.filter fun group => !action.targetGroupIds.contains
    (group.groupId sha256)
  let lossReport ← ContextLossReport.construct action.targetGroupIds [] [] lossRisk
  let result ← ContextCompactionActionResult.construct action sourceSnapshotId
    (resultGroups.map (groupId sha256)) reconstructionRefs lossReport reasonCode
  .ok ⟨resultGroups, result, calls⟩

/-- The replacement of the targets by references. -/
def replaceTargets (port : ArtifactPort) (sourceSnapshotId : String)
    (action : ContextCompactionAction V) (groups targets : List (ContextGroup V)) (calls : ℕ) :
    Except CompactionError (Applied V) := do
  let written ← replacements sha256 port calls targets
  let references : PyDict String (ContextGroup V) :=
    PyDict.update [] ((targets.map (groupId sha256)).zip (written.map Prod.snd))
  let resultGroups := groups.map fun group =>
    (references.get? (group.groupId sha256)).getD group
  let lossReport ← ContextLossReport.construct [] action.targetGroupIds [] .none
  let result ← ContextCompactionActionResult.construct action sourceSnapshotId
    (resultGroups.map (groupId sha256)) (written.map Prod.fst) lossReport
    "groups_replaced_with_durable_refs"
  .ok ⟨resultGroups, result, calls + targets.length⟩

/-- `tuple(action.parameters["selected_span_refs"])` -/
def selectedSpans (action : ContextCompactionAction V) : Except CompactionError (List V) := do
  let value ← action.parameter "selected_span_refs"
  match value with
  | .values items => .ok items
  | .texts ts => .ok (ts.map ofText)
  | .text s => .ok (s.toList.map fun c => ofText (String.singleton c))
  | .count _ => .error .typeError

/-- The selection of the spans of the one target. -/
def selectSpans (sourceSnapshotId : String) (action : ContextCompactionAction V)
    (groups : List (ContextGroup V)) (original : ContextGroup V) (calls : ℕ) :
    Except CompactionError (Applied V) := do
  let selected ← selectedSpans action
  require (∀ v ∈ selected, PyDynamic.hashable v = true) .typeError
  let covered ← original.iterate "covered_group_ids"
  require (∀ v ∈ covered, PyDynamic.hashable v = true) .typeError
  let replacement ← ContextGroup.construct (selectedFields sha256 original selected covered)
  let resultGroups := groups.map fun group =>
    if group.groupId sha256 = original.groupId sha256 then replacement else group
  let lossReport ← ContextLossReport.construct [] [] (omittedSpans original selected) .low
  let result ← ContextCompactionActionResult.construct action sourceSnapshotId
    (resultGroups.map (groupId sha256)) [] lossReport
    "evidence_spans_selected_extractively"
  .ok ⟨resultGroups, result, calls⟩

def applyAction (port : ArtifactPort) (sourceSnapshotId : String)
    (action : ContextCompactionAction V) (groups : List (ContextGroup V)) (calls : ℕ) :
    Except CompactionError (Applied V) := do
  let targets ← action.targetGroupIds.mapM (groupById sha256 groups)
  match action.actionType with
  | .dropReconstructableGroup =>
    removeTargets sha256 sourceSnapshotId action groups
      (targets.filterMap fun group => group.reconstructionRef.map Ref.val) .none
      "reconstructable_groups_dropped" calls
  | .replaceWithReference =>
    replaceTargets sha256 port sourceSnapshotId action groups targets calls
  | .reduceAuthorizedToolSet =>
    removeTargets sha256 sourceSnapshotId action groups [] .none
      "unreachable_authorized_tools_reduced" calls
  | .selectEvidenceSpans =>
    match targets with
    | [original] => selectSpans sha256 sourceSnapshotId action groups original calls
    | _ => .error (.validation "evidence selection executor requires one target group")
  | .compactOldConversation =>
    removeTargets sha256 sourceSnapshotId action groups [] .low
      "old_complete_conversation_compacted" calls
  | .summarizeGroups =>
    .error (.validation ("unsupported executable compaction action: " ++ action.actionType.value))

/-- One more action and one more turn were used. -/
def countAction (usage : ContextPlanningBudgetUsage C) : ContextPlanningBudgetUsage C :=
  { usage with actions := usage.actions + 1, turns := usage.turns + 1 }

/-- The actions of a plan one after the other, up to a status. -/
def runActions (port : ArtifactPort) (sourceSnapshotId : String)
    (plan : ContextCompactionPlan C V) : List (ContextCompactionAction V) → Execution C V →
    Except CompactionError (ContextCompactionExecutionStatus × Execution C V)
  | [], s => .ok (.applied, s)
  | action :: actions, s =>
    if plan.maxActions ≤ s.usage.actions then .ok (.actionBudgetExhausted, s)
    else if plan.maxTurns ≤ s.usage.turns then .ok (.turnBudgetExhausted, s)
    else if action.actionType = .summarizeGroups then .ok (.summaryRejected, s)
    else do
      let applied ← applyAction sha256 port sourceSnapshotId action s.groups s.calls
      runActions port sourceSnapshotId plan actions {
        groups := applied.groups
        actionResults := s.actionResults ++ [applied.result]
        reconstructionRefs := s.reconstructionRefs ++ applied.result.reconstructionRefs.map Ref.val
        usage := countAction s.usage
        calls := applied.calls }

variable {sha256}

/-- The snapshot of the groups that are left. -/
def resultSnapshot (source : ContextSemanticSnapshot sha256 V) (groups : List (ContextGroup V)) :
    Except CompactionError (ContextSemanticSnapshot sha256 V) := do
  let parentSnapshotId ← requiredText (some source.snapshotId) "parent_snapshot_id"
  ContextSemanticSnapshot.construct {
    runId := source.runId
    stageId := source.stageId
    taskBindingRef := source.taskBindingRef
    groups := groups
    policyRevision := source.policyRevision
    physicalProfileRevision := source.physicalProfileRevision
    parentSnapshotId := some parentSnapshotId
    snapshotKind := .result
    schemaRevision := .ofLiteral "newsroom.context-semantic-snapshot/v1" (.refl true) }

/-- The result with a status. -/
def executionResult (source : ContextSemanticSnapshot sha256 V)
    (status : ContextCompactionExecutionStatus)
    (resultSnapshot : Option (ContextSemanticSnapshot sha256 V)) (s : Execution C V)
    (reconstructionRefs : List String) :
    Except CompactionError (ContextCompactionExecutionResult sha256 C V) := do
  let result := {
    status, resultSnapshot, reconstructionRefs,
    sourceSnapshotId := source.snapshotId,
    sourceSnapshotChecksum := source.checksum,
    actionResults := s.actionResults,
    usage := s.usage,
    outcome := status.outcome,
    reasonCode := status.reasonCode }
  result.check
  .ok result

/-- `execute`, with the arguments that a request is made of. -/
def execute [Sub C] [DecidableLT C] [DecidableEq C] (registry : ContextCompactionActionRegistry)
    (port : ArtifactPort) (plan : ContextCompactionPlan C V)
    (request : ContextCompactionPlanningRequest sha256 C V) :
    Except CompactionError (ContextCompactionExecutionResult sha256 C V) := do
  ContextCompactionPlanValidator.validate registry plan request
  let source := request.sourceSnapshot
  let (status, s) ← runActions sha256 port source.snapshotId plan plan.actions
    { groups := source.groups, usage := request.budgetUsage }
  match status with
  | .applied => do
    let snapshot ← resultSnapshot source s.groups
    executionResult source .applied (some snapshot) s s.reconstructionRefs
  | status => executionResult source status none s []

end ContextCompactionActionExecutor

end ContextCompaction
