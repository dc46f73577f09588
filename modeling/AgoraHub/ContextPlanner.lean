/-
# The planner and its validator

How a compaction is planned for a context that does not fit, which groups are protected,
and what the validator of plans asks of a plan.
-/
import AgoraHub.ContextPlans

namespace ContextCompaction

open Fallible ContextGroup
open PyDynamic (text?)

variable {sha256 : String → HexDigest} {V : Type} [PyDynamic V]
variable {C : Type} [Zero C] [LT C] [Sub C] [DecidableLT C] [DecidableEq C]

/-! ## Reading metadata -/

namespace ContextGroup

variable (group : ContextGroup V)

/-- `semantic_metadata.get(name) == text` -/
def saysText (name text : String) : Bool :=
  (group.semanticMetadata.get? name).bind text? == some text

/-- `semantic_metadata.get(name) is value` -/
def saysBool (name : String) (value : Bool) : Bool :=
  (group.semanticMetadata.get? name).bind PyDynamic.bool? == some value

/-- `tuple(semantic_metadata.get(name, ()))` -/
def iterate (name : String) : Except CompactionError (List V) :=
  match group.semanticMetadata.get? name with
  | none => .ok []
  | some value => orRaise (PyDynamic.iter? value) .typeError

/-- `str(semantic_metadata[name])` -/
def metadataStr (name : String) : Except CompactionError String := do
  let value ← orRaise (group.semanticMetadata.get? name) (.keyError name)
  .ok (PyDynamic.str value)

/-- The refs of the members. -/
def allSpans : List String := group.members.map fun member => member.contentRef.val

def summaryEligible : Bool :=
  match group.groupKind with
  | .toolTransaction => group.toolTransactionState == .completed
  | .conversationTurn | .evidence | .memoryReference | .runState => true
  | _ => false

/-- A reason other than that the evidence is required. -/
def otherwiseProtected : Bool :=
  group.protectionReasons.any fun reason => reason != .requiredEvidence

/-- A way back to the group is recorded. -/
def hasReconstruction : Bool :=
  group.reconstructionPolicy != .none && group.reconstructionRef.isSome

/-- `reconstruction_ref`, where there is one. -/
def reconstructionText : String := (group.reconstructionRef.map Ref.val).getD ""

end ContextGroup

/-- `set(items).issubset(texts)`, the other side given by characters. -/
def isSubset (items : List V) (texts : List (Option String)) : Except CompactionError Bool := do
  require (∀ v ∈ items, PyDynamic.hashable v = true) .typeError
  .ok (decide (∀ v ∈ items, (text? v).isSome = true ∧ text? v ∈ texts))

/-! ## Protected groups -/

/-- `_complete_conversation_units`, from a unit that was begun. -/
def unitsFrom (sha256 : String → HexDigest) : List (ContextGroup V) → List String →
    List (List String)
  | [], _ => []
  | group :: groups, current =>
    if group.groupKind = .conversationTurn then
      if group.saysText "role" "user" then unitsFrom sha256 groups [group.groupId sha256]
      else if group.saysText "role" "assistant" ∧ current ≠ [] then
        (current ++ [group.groupId sha256]) :: unitsFrom sha256 groups []
      else unitsFrom sha256 groups current
    else if group.groupKind = .toolTransaction ∧ group.toolTransactionState = .completed ∧
        current ≠ [] then
      unitsFrom sha256 groups (current ++ [group.groupId sha256])
    else unitsFrom sha256 groups current

section Snapshot

variable (snapshot : ContextSemanticSnapshot sha256 V)

def completeConversationUnits : List (List String) := unitsFrom sha256 snapshot.groups []

def recentCompleteTailGroupIds (keepRecentCompleteTurns : ℕ) : List String :=
  if keepRecentCompleteTurns < 1 then []
  else
    let units := completeConversationUnits snapshot
    (units.drop (units.length - keepRecentCompleteTurns)).flatten

def pendingToolNames : List String :=
  (snapshot.groups.filter fun group => group.groupKind == .toolTransaction &&
    (group.toolTransactionState == .pending || group.toolTransactionState == .unresolved)).filterMap
      fun group => (group.semanticMetadata.get? "tool_name").bind fun value =>
        if PyDynamic.isNone value then none else some (PyDynamic.str value)

section

variable (policy : ContextCompactionPolicy C)

/-- What protects a group. -/
def isProtectedGroup (group : ContextGroup V) : Bool :=
  group.isProtected || policy.protectedGroupKinds.contains group.groupKind ||
    group.protectionReasons.any (fun reason => policy.protectedReasons.contains reason) ||
    (recentCompleteTailGroupIds snapshot policy.keepRecentCompleteTurns).contains
      (group.groupId sha256)

def protectedGroupIds : List String :=
  (snapshot.groups.filter (isProtectedGroup snapshot policy)).map (groupId sha256)

/-- The groups of the old complete turns. -/
def oldTurnGroupIds : List String :=
  let recentTail := recentCompleteTailGroupIds snapshot policy.keepRecentCompleteTurns
  (completeConversationUnits snapshot).flatten.filter fun id => !recentTail.contains id

end

end Snapshot

/-! ## Candidates -/

/-- `semantic_metadata.get("tool_id") in pending_tool_names` -/
def toolIsPending (pending : List String) (group : ContextGroup V) : Except CompactionError Bool :=
  match group.semanticMetadata.get? "tool_id" with
  | none => .ok false
  | some toolId => do
    require (PyDynamic.hashable toolId = true) .typeError
    .ok ((text? toolId).any pending.contains)

/-- The actions so far and the groups they target. -/
structure Candidates (V : Type) where
  actions : List (ContextCompactionAction V) := []
  claimed : List String := []

/-- Another action. -/
def Candidates.add (candidates : Candidates V) (action : ContextCompactionAction V) :
    Candidates V where
  actions := candidates.actions ++ [action]
  claimed := candidates.claimed ++ action.targetGroupIds

/-- A group that is neither protected nor targeted. -/
def isFree (sha256 : String → HexDigest) (protectedIds claimed : List String)
    (group : ContextGroup V) : Bool :=
  !protectedIds.contains (group.groupId sha256) && !claimed.contains (group.groupId sha256)

/-- An action whose targets are not empty. -/
def addUnlessEmpty (candidates : Candidates V) (actionType : ActionType) (targets : List String)
    (parameters : Except CompactionError (PyDict String (ActionParameter V))) :
    Except CompactionError (Candidates V) :=
  if targets = [] then .ok candidates
  else do
    let parameters ← parameters
    let action ← ContextCompactionAction.construct actionType targets parameters
    .ok (candidates.add action)

/-- `_reference_action` -/
def addReferenceAction (sha256 : String → HexDigest) (candidates : Candidates V)
    (actionType : ActionType) (groups : List (ContextGroup V)) :
    Except CompactionError (Candidates V) :=
  addUnlessEmpty candidates actionType (groups.map (groupId sha256))
    (.ok [("reconstruction_refs", .texts (groups.map ContextGroup.reconstructionText))])

/-- The groups whose tool is unreachable and not pending. -/
def reducibleTools (sha256 : String → HexDigest) (pending protectedIds claimed : List String) :
    List (ContextGroup V) → Except CompactionError (List (ContextGroup V))
  | [] => .ok []
  | group :: groups =>
    if group.groupKind = .authorizedToolSchema ∧ group.saysBool "reachable" false then do
      let isPending ← toolIsPending pending group
      let rest ← reducibleTools sha256 pending protectedIds claimed groups
      .ok (if !isPending && isFree sha256 protectedIds claimed group then group :: rest else rest)
    else reducibleTools sha256 pending protectedIds claimed groups

/-- The parameters of a tool reduction. -/
def toolParameters (groups : List (ContextGroup V)) :
    Except CompactionError (PyDict String (ActionParameter V)) := do
  let toolIds ← groups.mapM (ContextGroup.metadataStr · "tool_id")
  let authorizationRefs ← groups.mapM (ContextGroup.metadataStr · "authorization_ref")
  .ok [("tool_ids", .texts toolIds), ("authorization_refs", .texts authorizationRefs)]

/-- Whether the spans that were selected can stand for those of a group. -/
def canSelect (selected required : List V) (allSpans : List String) :
    Except CompactionError Bool := do
  if selected.isEmpty || selected.map text? == allSpans.map some then .ok false
  else
    let known ← isSubset selected (allSpans.map some)
    if known then isSubset required (selected.map text?) else .ok false

/-- A group of evidence whose spans may be selected. -/
def isSelectable (policy : ContextCompactionPolicy C) (group : ContextGroup V) : Bool :=
  group.groupKind == .evidence && !policy.protectedGroupKinds.contains .evidence &&
    !group.otherwiseProtected && !group.saysBool "whole_group_required" true

section

variable (snapshot : ContextSemanticSnapshot sha256 V)

def evidenceSelectionParameters (policy : ContextCompactionPolicy C) (group : ContextGroup V) :
    Except CompactionError (Option (PyDict String (ActionParameter V))) :=
  if isSelectable policy group then do
    let selected ← group.iterate "selected_span_refs"
    let required ← group.iterate "required_span_refs"
    let fits ← canSelect selected required group.allSpans
    if fits && group.queryBindingRef == some snapshot.taskBindingRef then
      let lineageRefs ← group.iterate "lineage_refs"
      let conflictRefs ← group.iterate "conflict_refs"
      .ok (some [("selected_span_refs", .values selected), ("required_span_refs", .values required),
        ("query_binding_ref", .text snapshot.taskBindingRef.val),
        ("source_refs", .texts (group.sourceRefs.map Ref.val)),
        ("lineage_refs", .values lineageRefs), ("conflict_refs", .values conflictRefs),
        ("required_citation_refs", .texts (group.requiredCitationRefs.map Ref.val))])
    else .ok none
  else .ok none

/-- The selection of the spans of one group. -/
def addSelection (policy : ContextCompactionPolicy C) (candidates : Candidates V) (group : ContextGroup V) :
    Except CompactionError (Candidates V) := do
  let selection ← evidenceSelectionParameters snapshot policy group
  match selection with
  | none => .ok candidates
  | some parameters =>
    if candidates.claimed.contains (group.groupId sha256) then .ok candidates
    else
      let action ← ContextCompactionAction.construct .selectEvidenceSpans [group.groupId sha256]
        parameters
      .ok (candidates.add action)

/-- One action type of the order. -/
def addCandidates (policy : ContextCompactionPolicy C) (remaining : RemainingBudgets C)
    (protectedIds : List String) (candidates : Candidates V) (actionType : ActionType) :
    Except CompactionError (Candidates V) :=
  let free := isFree sha256 protectedIds candidates.claimed
  match actionType with
  | .dropReconstructableGroup =>
    addReferenceAction sha256 candidates actionType (snapshot.groups.filter fun group =>
      group.groupKind == .reconstructable && group.hasReconstruction && free group)
  | .replaceWithReference =>
    addReferenceAction sha256 candidates actionType (snapshot.groups.filter fun group =>
      group.groupKind != .reconstructable && group.groupKind != .authorizedToolSchema &&
        group.hasReconstruction && free group)
  | .reduceAuthorizedToolSet => do
    let targets ← reducibleTools sha256 (pendingToolNames snapshot) protectedIds
      candidates.claimed snapshot.groups
    addUnlessEmpty candidates actionType (targets.map (groupId sha256))
      (toolParameters targets)
  | .selectEvidenceSpans => snapshot.groups.foldlM (addSelection snapshot policy) candidates
  | .compactOldConversation =>
    let targets := (oldTurnGroupIds snapshot policy).filter fun id =>
      !protectedIds.contains id && !candidates.claimed.contains id
    addUnlessEmpty candidates actionType targets
      (.ok [("complete_turn_group_ids", .texts targets),
        ("keep_recent_complete_turns", .count policy.keepRecentCompleteTurns)])
  | .summarizeGroups =>
    if remaining.summaryCalls < 1 ∨ remaining.llmCalls < 1 ∨ ¬ 0 < remaining.costUsd then
      .ok candidates
    else addUnlessEmpty candidates actionType
      ((snapshot.groups.filter fun group => free group && group.summaryEligible).map
        (groupId sha256))
      (.ok [("allowed_loss_risks", .texts (policy.allowedLossRisks.map ContextLossRisk.value))])

def candidateActions (policy : ContextCompactionPolicy C) (remaining : RemainingBudgets C)
    (protectedIds : List String) : Except CompactionError (List (ContextCompactionAction V)) := do
  let candidates ← policy.actionOrder.foldlM
    (addCandidates snapshot policy remaining protectedIds) {}
  .ok candidates.actions

end

/-! ## The validator -/

namespace ContextCompactionPlanValidator

/-- `_validate_tool_reduction`, one group: whether it must stay. -/
def mustStay (pending : List String) (group : ContextGroup V) : Except CompactionError Bool :=
  if group.groupKind ≠ .authorizedToolSchema ∨ group.saysBool "reachable" false = false then
    .ok true
  else toolIsPending pending group

/-- `any(...)` over the groups of a tool reduction. -/
def anyStays (pending : List String) : List (ContextGroup V) → Except CompactionError Bool
  | [] => .ok false
  | group :: groups => do
    let stays ← mustStay pending group
    if stays then .ok true else anyStays pending groups

def validateToolReduction (snapshot : ContextSemanticSnapshot sha256 V)
    (action : ContextCompactionAction V) (targetGroups : List (ContextGroup V)) :
    Except CompactionError Unit := do
  let stays ← anyStays (pendingToolNames snapshot) targetGroups
  require (stays = false)
    (.validation "tool reduction requires unreachable currently authorized tools")
  let toolIds ← targetGroups.mapM (ContextGroup.metadataStr · "tool_id")
  action.assertParameterRefs "tool_ids" (toolIds.map some)
  let authorizationRefs ← targetGroups.mapM (ContextGroup.metadataStr · "authorization_ref")
  action.assertParameterRefs "authorization_refs" (authorizationRefs.map some)

/-- `tuple(semantic_metadata.get(name, ()))`, by the characters of the texts. -/
def expectedRefs (group : ContextGroup V) (name : String) :
    Except CompactionError (List (Option String)) := do
  let items ← group.iterate name
  .ok (items.map text?)

/-- `required_text` of a parameter. -/
def parameterText (action : ContextCompactionAction V) (name : String) :
    Except CompactionError Ref := do
  let value ← action.parameter name
  match value with
  | .text s => requiredText (some s) name
  | _ => requiredText none name

/-- `_validate_evidence_action`, of the one group that is targeted. -/
def validateEvidenceGroup (snapshot : ContextSemanticSnapshot sha256 V)
    (policy : ContextCompactionPolicy C) (action : ContextCompactionAction V)
    (group : ContextGroup V) : Except CompactionError Unit := do
  require (group.groupKind = .evidence)
    (.validation "evidence selection must target an evidence group")
  require (ContextGroupKind.evidence ∉ policy.protectedGroupKinds)
    (.validation "policy protects the complete evidence group")
  require (group.otherwiseProtected = false)
    (.validation "evidence selection targets a non-evidence protected group")
  require (group.saysBool "whole_group_required" true = false)
    (.validation "required evidence group cannot be reduced")
  let selected ← action.parameterTextTuple "selected_span_refs"
  let required ← action.parameterTextTuple "required_span_refs"
  require (selected ≠ [] ∧ ∀ ref ∈ selected, ref.val ∈ group.allSpans)
    (.validation "evidence selection contains unknown or empty span refs")
  require (required ⊆ selected) (.validation "evidence selection removes required span refs")
  let expectedSelected ← expectedRefs group "selected_span_refs"
  require (selected.map (fun ref => some ref.val) = expectedSelected)
    (.validation "evidence selection refs are stale")
  let expectedRequired ← expectedRefs group "required_span_refs"
  require (required.map (fun ref => some ref.val) = expectedRequired)
    (.validation "required evidence span refs are stale")
  let queryBindingRef ← parameterText action "query_binding_ref"
  require (queryBindingRef = snapshot.taskBindingRef ∧ some queryBindingRef = group.queryBindingRef)
    (.validation "evidence selection query binding is stale")
  action.assertParameterRefs "source_refs" (group.sourceRefs.map fun ref => some ref.val)
  let lineageRefs ← expectedRefs group "lineage_refs"
  action.assertParameterRefs "lineage_refs" lineageRefs
  let conflictRefs ← expectedRefs group "conflict_refs"
  action.assertParameterRefs "conflict_refs" conflictRefs
  action.assertParameterRefs "required_citation_refs"
    (group.requiredCitationRefs.map fun ref => some ref.val)

def validateEvidenceAction (snapshot : ContextSemanticSnapshot sha256 V)
    (policy : ContextCompactionPolicy C) (action : ContextCompactionAction V)
    (targetGroups : List (ContextGroup V)) : Except CompactionError Unit :=
  match targetGroups with
  | [group] => validateEvidenceGroup snapshot policy action group
  | _ => .error (.validation "evidence selection must target exactly one evidence group")

/-- The expected reconstruction refs of the targets. -/
def reconstructionRefs (targetGroups : List (ContextGroup V)) : List (Option String) :=
  targetGroups.map fun group => group.reconstructionRef.map Ref.val

/-- `_validate_action`, of an action that reduces no evidence. -/
def validateUnprotected (snapshot : ContextSemanticSnapshot sha256 V)
    (policy : ContextCompactionPolicy C) (action : ContextCompactionAction V)
    (targetGroups : List (ContextGroup V)) : Except CompactionError Unit :=
  match action.actionType with
  | .dropReconstructableGroup => do
    require (∀ group ∈ targetGroups, group.groupKind = .reconstructable ∧
        group.hasReconstruction = true)
      (.validation "drop action requires reconstructable complete groups")
    action.assertParameterRefs "reconstruction_refs" (reconstructionRefs targetGroups)
  | .replaceWithReference => do
    require (∀ group ∈ targetGroups, group.hasReconstruction = true)
      (.validation "reference replacement requires durable reconstruction refs")
    action.assertParameterRefs "reconstruction_refs" (reconstructionRefs targetGroups)
  | .reduceAuthorizedToolSet => validateToolReduction snapshot action targetGroups
  | .selectEvidenceSpans => validateEvidenceAction snapshot policy action targetGroups
  | .compactOldConversation => do
    let recentTail := recentCompleteTailGroupIds snapshot policy.keepRecentCompleteTurns
    require (∀ group ∈ targetGroups, (group.groupKind = .conversationTurn ∨
          group.groupKind = .toolTransaction) ∧ group.groupId sha256 ∉ recentTail ∧
          (group.groupKind = .toolTransaction → group.toolTransactionState = .completed))
      (.validation "conversation compaction must preserve the recent complete tail")
    action.assertParameterRefs "complete_turn_group_ids" (action.targetGroupIds.map some)
    let keep ← action.parameter "keep_recent_complete_turns"
    require (keep.isCount policy.keepRecentCompleteTurns = true)
      (.validation "conversation compaction recent-tail policy is stale")
  | .summarizeGroups => do
    let configured ← action.parameterTextTuple "allowed_loss_risks"
    require (configured.map Ref.val = policy.allowedLossRisks.map ContextLossRisk.value)
      (.validation "summary action loss-risk policy is stale")

def validateAction (snapshot : ContextSemanticSnapshot sha256 V)
    (policy : ContextCompactionPolicy C) (protectedIds : List String)
    (action : ContextCompactionAction V) (targetGroups : List (ContextGroup V)) :
    Except CompactionError Unit :=
  if action.actionType = .selectEvidenceSpans then
    validateEvidenceAction snapshot policy action targetGroups
  else do
    require (∀ group ∈ targetGroups, group.groupId sha256 ∉ protectedIds)
      (.validation "compaction action targets a protected group")
    validateUnprotected snapshot policy action targetGroups

/-- The groups claimed so far and the place of the last action in the order. -/
structure Progress where
  claimed : List String := []
  previousOrderIndex : ℤ := -1

/-- What is said of targets that are no groups of the snapshot. -/
def unknownTargets (snapshot : ContextSemanticSnapshot sha256 V)
    (action : ContextCompactionAction V) : CompactionError :=
  let memberIds := snapshot.groups.flatMap fun group =>
    group.members.map (ContextGroupMember.memberId sha256)
  if ∃ id ∈ action.targetGroupIds, id ∉ snapshot.groupIds ∧ id ∈ memberIds then
    .validation "compaction actions must target complete groups, not members"
  else .validation "compaction action targets unknown source groups"

/-- The group of an identity. -/
def groupById (snapshot : ContextSemanticSnapshot sha256 V) (id : String) :
    Except CompactionError (ContextGroup V) :=
  orRaise (snapshot.groups.find? fun group => group.groupId sha256 == id) (.keyError id)

/-- One action of a plan. -/
def validateStep (registry : ContextCompactionActionRegistry)
    (snapshot : ContextSemanticSnapshot sha256 V) (policy : ContextCompactionPolicy C)
    (protectedIds : List String) (progress : Progress) (action : ContextCompactionAction V) :
    Except CompactionError Progress := do
  registry.validateActionShape action
  require (action.actionType ∈ policy.actionOrder)
    (.validation "compaction plan contains an out-of-policy action")
  let orderIndex : ℤ := policy.actionOrder.idxOf action.actionType
  require (progress.previousOrderIndex ≤ orderIndex)
    (.validation "compaction plan action order is out of policy")
  require (action.targetGroupIds ⊆ snapshot.groupIds) (unknownTargets snapshot action)
  require (∀ id ∈ action.targetGroupIds, id ∉ progress.claimed)
    (.validation "source group must not be targeted by multiple plan actions")
  let targetGroups ← action.targetGroupIds.mapM (groupById snapshot)
  validateAction snapshot policy protectedIds action targetGroups
  .ok ⟨progress.claimed ++ action.targetGroupIds, orderIndex⟩

/-- The checks of the header of a plan. -/
def validateHeader (plan : ContextCompactionPlan C V)
    (request : ContextCompactionPlanningRequest sha256 C V) : Except CompactionError Unit := do
  let snapshot := request.sourceSnapshot
  let admission := request.initialAdmission
  require (plan.sourceSnapshotId = snapshot.snapshotId)
    (.validation "compaction plan source snapshot is stale")
  require (plan.sourceSnapshotChecksum = snapshot.checksum)
    (.validation "compaction plan source checksum is stale")
  require (plan.taskBindingRef = snapshot.taskBindingRef)
    (.validation "compaction plan task binding is stale")
  require (plan.policyRevision = request.policy.policyRevision)
    (.validation "compaction plan policy revision is stale")
  require (plan.physicalProfileRevision = admission.physicalProfileRevision)
    (.validation "compaction plan profile revision is stale")
  require (plan.initialAdmissionRef = admission.evidenceId sha256)
    (.validation "compaction plan admission evidence is stale")
  require (plan.targetInputTokens = min request.policy.maxInputTokens admission.maxInputTokens)
    (.validation "compaction plan input target is out of policy")
  let expectedBudgets := remainingBudgets request.policy request.budgetUsage
  require (plan.maxActions = expectedBudgets.actions)
    (.validation "compaction plan action budget is out of policy")
  require (plan.maxSummaryCalls = expectedBudgets.summaryCalls)
    (.validation "compaction plan summary budget is out of policy")
  require (plan.maxReplans = expectedBudgets.replans)
    (.validation "compaction plan replan budget is out of policy")
  require (plan.maxLlmCalls = expectedBudgets.llmCalls)
    (.validation "compaction plan LLM budget is out of policy")
  require (plan.maxCostUsd = expectedBudgets.costUsd)
    (.validation "compaction plan cost budget is out of policy")
  require (plan.maxTurns = expectedBudgets.turns)
    (.validation "compaction plan turn budget is out of policy")
  require (plan.protectedGroupIds = protectedGroupIds snapshot request.policy)
    (.validation "compaction plan protected groups are stale")

def validate (registry : ContextCompactionActionRegistry) (plan : ContextCompactionPlan C V)
    (request : ContextCompactionPlanningRequest sha256 C V) : Except CompactionError Unit := do
  registry.validatePolicy request.policy
  validateHeader plan request
  let _ ← plan.actions.foldlM (validateStep registry request.sourceSnapshot request.policy
    (protectedGroupIds request.sourceSnapshot request.policy)) {}
  .ok ()

end ContextCompactionPlanValidator

/-! ## The planner -/

namespace ContextCompactionPlanner

def result (request : ContextCompactionPlanningRequest sha256 C V)
    (status : ContextCompactionPlanningStatus) (protectedIds : List String) (reasonCode : String)
    (plan : Option (ContextCompactionPlan C V)) :
    Except CompactionError (ContextCompactionPlanningResult C V) := do
  let result := {
    status, reasonCode, plan,
    sourceSnapshotId := request.sourceSnapshot.snapshotId,
    sourceSnapshotChecksum := request.sourceSnapshot.checksum,
    admissionEvidenceId := request.initialAdmission.evidenceId sha256,
    protectedGroupIds := protectedIds }
  result.check
  .ok result

/-- `sum(admission.group_input_tokens[group_id] for ...)`; every group has a count. -/
def inputTokensOf (admission : ContextPhysicalAdmissionEvidence) (ids : List String) : ℕ :=
  (ids.map fun id => (admission.groupInputTokens.get? id).getD 0).sum

/-- The groups whose spans are selected. -/
def evidenceSelectionTargets (candidates : List (ContextCompactionAction V)) : List String :=
  (candidates.filter fun action => action.actionType == .selectEvidenceSpans).flatMap
    ContextCompactionAction.targetGroupIds

/-- The plan with these actions. -/
def planOf (request : ContextCompactionPlanningRequest sha256 C V)
    (actions : List (ContextCompactionAction V)) : ContextCompactionPlan C V :=
  let remaining := remainingBudgets request.policy request.budgetUsage
  { sourceSnapshotId := request.sourceSnapshot.snapshotId
    sourceSnapshotChecksum := request.sourceSnapshot.checksum
    taskBindingRef := request.sourceSnapshot.taskBindingRef
    targetInputTokens := min request.policy.maxInputTokens request.initialAdmission.maxInputTokens
    maxActions := remaining.actions
    maxSummaryCalls := remaining.summaryCalls
    maxReplans := remaining.replans
    maxLlmCalls := remaining.llmCalls
    maxCostUsd := remaining.costUsd
    maxTurns := remaining.turns
    actions := actions
    protectedGroupIds := protectedGroupIds request.sourceSnapshot request.policy
    policyRevision := request.policy.policyRevision
    physicalProfileRevision := request.initialAdmission.physicalProfileRevision
    initialAdmissionRef := request.initialAdmission.evidenceId sha256 }

/-- What is planned from the candidates. -/
def planCandidates (registry : ContextCompactionActionRegistry)
    (request : ContextCompactionPlanningRequest sha256 C V)
    (candidates : List (ContextCompactionAction V)) :
    Except CompactionError (ContextCompactionPlanningResult C V) :=
  let protectedIds := protectedGroupIds request.sourceSnapshot request.policy
  let targetInputTokens := min request.policy.maxInputTokens
    request.initialAdmission.maxInputTokens
  let hardProtectedIds := protectedIds.filter fun id =>
    !(evidenceSelectionTargets candidates).contains id
  if targetInputTokens < request.initialAdmission.fixedInputTokens +
      inputTokensOf request.initialAdmission hardProtectedIds then
    result request .protectedContextExceedsWindow protectedIds
      "hard_protected_context_exceeds_target" none
  else if candidates = [] then
    result request .noAllowedCompaction protectedIds
      "no_registered_action_has_satisfied_preconditions" none
  else do
    let plan := planOf request (candidates.take
      (remainingBudgets request.policy request.budgetUsage).actions)
    plan.check
    ContextCompactionPlanValidator.validate registry plan request
    result request .planReady protectedIds "deterministic_plan_ready" (some plan)

def plan (registry : ContextCompactionActionRegistry)
    (request : ContextCompactionPlanningRequest sha256 C V) :
    Except CompactionError (ContextCompactionPlanningResult C V) := do
  registry.validatePolicy request.policy
  let admission := request.initialAdmission
  let protectedIds := protectedGroupIds request.sourceSnapshot request.policy
  let targetInputTokens := min request.policy.maxInputTokens admission.maxInputTokens
  let remaining := remainingBudgets request.policy request.budgetUsage
  if targetInputTokens < 1 then
    result request .noAllowedCompaction protectedIds "physical_profile_has_no_input_capacity" none
  else if admission.admitted = true ∧ admission.inputTokens ≤ targetInputTokens then
    result request .noCompactionRequired protectedIds "source_physical_admission_passed" none
  else if admission.admitted = false ∧ admission.admissionStatus.val ≠ "input_limit_exceeded" then
    result request .noAllowedCompaction protectedIds
      "physical_admission_failure_is_not_compactable" none
  else if remaining.actions < 1 then
    result request .actionBudgetExhausted protectedIds "action_budget_exhausted_before_planning"
      none
  else if remaining.turns < 1 then
    result request .noAllowedCompaction protectedIds "turn_budget_exhausted_before_planning" none
  else do
    let candidates ← candidateActions request.sourceSnapshot request.policy remaining protectedIds
    planCandidates registry request candidates

end ContextCompactionPlanner

end ContextCompaction
