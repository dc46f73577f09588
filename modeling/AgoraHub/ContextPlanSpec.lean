/-
# What a plan is for

Which groups an action may be about, told from the request alone; what is asked of the
planner; and the requests for which it does what is asked.
-/
import AgoraHub.ContextPlanner

namespace ContextCompaction

open ContextGroup

variable {sha256 : String → HexDigest} {V : Type} [PyDynamic V]
variable {C : Type} [Zero C] [LT C] [Sub C] [DecidableLT C] [DecidableEq C]

/-! ## Metadata that can be read -/

namespace ContextGroup

variable (group : ContextGroup V)

/-- What a loop over a field of the metadata goes through. -/
def items (name : String) : List V :=
  match group.semanticMetadata.get? name with
  | none => []
  | some value => (PyDynamic.iter? value).getD []

/-- The characters of the texts among them. -/
def itemTexts (name : String) : List (Option String) := (group.items name).map PyDynamic.text?

/-- A field of the metadata is missing or can be gone through. -/
def Iterable (name : String) : Prop :=
  ∀ value ∈ group.semanticMetadata.get? name, (PyDynamic.iter? value).isSome = true

instance (name : String) : Decidable (group.Iterable name) :=
  inferInstanceAs (Decidable (∀ value ∈ group.semanticMetadata.get? name, _))

/-- The spans that are selected and required can be compared, as far as they have to be. -/
def Comparable : Prop :=
  group.items "selected_span_refs" ≠ [] →
    group.itemTexts "selected_span_refs" ≠ group.allSpans.map some →
      (∀ v ∈ group.items "selected_span_refs", PyDynamic.hashable v = true) ∧
      (group.itemTexts "selected_span_refs" ⊆ group.allSpans.map some →
        ∀ v ∈ group.items "required_span_refs", PyDynamic.hashable v = true)

/-- The spans that are selected can stand for those of the group: some are selected but not
all, and the required ones are among them. -/
def selectionFits : Bool :=
  !(group.items "selected_span_refs").isEmpty &&
    group.itemTexts "selected_span_refs" != group.allSpans.map some &&
    (group.itemTexts "selected_span_refs").all (group.allSpans.map some).contains &&
    (group.itemTexts "required_span_refs").all fun text => text.isSome &&
      (group.itemTexts "selected_span_refs").contains text

/-- The text of a field of the metadata. -/
def fieldStr (name : String) : String :=
  ((group.semanticMetadata.get? name).map PyDynamic.str).getD ""

end ContextGroup

/-- Distinct trimmed texts that are not empty. -/
def CleanRefs (values : List (Option String)) : Prop :=
  (∀ value ∈ values, ∃ s, value = some s ∧ PyText.strip s = s ∧ s ≠ "") ∧ values.Nodup

namespace ContextCompactionPlanningRequest

variable (request : ContextCompactionPlanningRequest sha256 C V)

/-- What is left of the budgets. -/
def remaining : RemainingBudgets C := remainingBudgets request.policy request.budgetUsage

/-- The identities of the protected groups. -/
def protectedIds : List String := protectedGroupIds request.sourceSnapshot request.policy

/-- The tokens that have to be reached. -/
def targetInputTokens : ℕ :=
  min request.policy.maxInputTokens request.initialAdmission.maxInputTokens

/-! ## Eligible groups -/

section

variable (group : ContextGroup V)

/-- The spans of a group of evidence may be selected for the task. -/
def selectsSpans : Bool :=
  isSelectable request.policy group && (group.selectionFits &&
    group.queryBindingRef == some request.sourceSnapshot.taskBindingRef)

/-- The tool of a group has an open transaction. -/
def hasPendingTool : Bool :=
  ((group.semanticMetadata.get? "tool_id").bind PyDynamic.text?).any
    (pendingToolNames request.sourceSnapshot).contains

/-- No group is protected from the selection of its spans; from the other actions some are. -/
def isOpen : Bool := !request.protectedIds.contains (group.groupId sha256)

end

/-- The groups an action type may be about. -/
def eligible (actionType : ActionType) (group : ContextGroup V) : Bool :=
  match actionType with
  | .dropReconstructableGroup =>
    request.isOpen group && group.groupKind == .reconstructable && group.hasReconstruction
  | .replaceWithReference =>
    request.isOpen group && group.groupKind != .reconstructable &&
      group.groupKind != .authorizedToolSchema && group.hasReconstruction
  | .reduceAuthorizedToolSet =>
    request.isOpen group && group.groupKind == .authorizedToolSchema &&
      group.saysBool "reachable" false && !request.hasPendingTool group
  | .selectEvidenceSpans => request.selectsSpans group
  | .compactOldConversation =>
    request.isOpen group &&
      (oldTurnGroupIds request.sourceSnapshot request.policy).contains (group.groupId sha256)
  | .summarizeGroups => request.isOpen group && group.summaryEligible

/-- The budgets allow an action type: a summary needs a call and money. -/
def affords (actionType : ActionType) : Bool :=
  actionType != .summarizeGroups || (decide (1 ≤ request.remaining.summaryCalls) &&
    decide (1 ≤ request.remaining.llmCalls) && decide (0 < request.remaining.costUsd))

/-- The first action type of the policy that a group is eligible for. -/
def owner (group : ContextGroup V) : Option ActionType :=
  request.policy.actionOrder.find? fun t => request.affords t && request.eligible t group

section

variable (actionType : ActionType)

/-- The groups that fall to an action type. -/
def classOf : List (ContextGroup V) :=
  request.sourceSnapshot.groups.filter fun group => request.owner group == some actionType

/-- How many actions that makes: evidence is selected group by group. -/
def actionCount : ℕ :=
  if actionType = .selectEvidenceSpans then (request.classOf actionType).length
  else min 1 (request.classOf actionType).length

/-- How many actions of a type there is room for behind those of the earlier types. -/
def room : ℕ :=
  request.remaining.actions -
    ((request.policy.actionOrder.takeWhile (· != actionType)).map request.actionCount).sum

end

/-! ## What is asked of the planner -/

/-- A plan that is ready: the validator accepts it, its actions follow the policy and target
disjoint sets of open groups, and no eligible group is left unless the budget of actions is
used up. -/
structure Ready (plan : ContextCompactionPlan C V) : Prop where
  valid : ContextCompactionPlanValidator.validate .standard plan request = .ok ()
  disjoint : plan.actions.Pairwise fun a b => List.Disjoint a.targetGroupIds b.targetGroupIds
  ordered : plan.actions.Pairwise fun a b => request.policy.actionOrder.idxOf a.actionType ≤
    request.policy.actionOrder.idxOf b.actionType
  allowed : ∀ action ∈ plan.actions, action.actionType ∈ request.policy.actionOrder
  unprotected : ∀ action ∈ plan.actions, action.actionType ≠ .selectEvidenceSpans →
    ∀ id ∈ action.targetGroupIds, id ∉ request.protectedIds
  complete : plan.actions.length = plan.maxActions ∨
    ∀ t ∈ request.policy.actionOrder, request.affords t = true →
      ∀ group ∈ request.sourceSnapshot.groups, request.eligible t group = true →
        ∃ action ∈ plan.actions, group.groupId sha256 ∈ action.targetGroupIds ∧
          request.policy.actionOrder.idxOf action.actionType ≤
            request.policy.actionOrder.idxOf t

/-- Planning returns, and what it calls ready is. -/
structure PlansWell : Prop where
  returns : ∃ result, ContextCompactionPlanner.plan .standard request = .ok result
  ready : ∀ result, ContextCompactionPlanner.plan .standard request = .ok result →
    result.status = .planReady → ∃ plan, result.plan = some plan ∧ request.Ready plan

/-! ## When it does that -/

/-- The context does not fit, that is why it was not admitted, and there is a budget for
actions and turns: the metadata of the groups are looked at. -/
def Evaluates : Prop :=
  1 ≤ request.targetInputTokens ∧
    ¬ (request.initialAdmission.admitted = true ∧
      request.initialAdmission.inputTokens ≤ request.targetInputTokens) ∧
    (request.initialAdmission.admitted = true ∨
      request.initialAdmission.admissionStatus.val = "input_limit_exceeded") ∧
    1 ≤ request.remaining.actions ∧ 1 ≤ request.remaining.turns

/-- The spans of a group of evidence can be compared. -/
structure ReadableEvidence (group : ContextGroup V) : Prop where
  selected : group.Iterable "selected_span_refs"
  required : group.Iterable "required_span_refs"
  comparable : group.Comparable
  lineage : request.selectsSpans group = true →
    group.Iterable "lineage_refs" ∧ group.Iterable "conflict_refs"

/-- The metadata can be read as far as the action types of the policy look at them. -/
structure Readable : Prop where
  tools : .reduceAuthorizedToolSet ∈ request.policy.actionOrder →
    ∀ group ∈ request.sourceSnapshot.groups, group.groupKind = .authorizedToolSchema →
      group.saysBool "reachable" false = true →
        ∀ toolId ∈ group.semanticMetadata.get? "tool_id", PyDynamic.hashable toolId = true
  keys : ∀ group ∈ request.classOf .reduceAuthorizedToolSet,
    (group.semanticMetadata.get? "tool_id").isSome = true ∧
    (group.semanticMetadata.get? "authorization_ref").isSome = true
  evidence : .selectEvidenceSpans ∈ request.policy.actionOrder →
    ∀ group ∈ request.sourceSnapshot.groups, isSelectable request.policy group = true →
      request.ReadableEvidence group
  written : ∀ group ∈ request.classOf .selectEvidenceSpans,
    ∀ v ∈ group.items "lineage_refs" ++ group.items "conflict_refs",
      (PyDynamic.json? v).isSome = true

/-- The groups that stay whatever is done fit. -/
def Fits : Prop :=
  request.initialAdmission.fixedInputTokens + ContextCompactionPlanner.inputTokensOf
      request.initialAdmission (request.protectedIds.filter fun id =>
        !((request.classOf .selectEvidenceSpans).map (groupId sha256)).contains id) ≤
    request.targetInputTokens

/-- The refs of the actions that there is room for are distinct texts. -/
structure Clean : Prop where
  dropped : 1 ≤ request.room .dropReconstructableGroup →
    ((request.classOf .dropReconstructableGroup).map reconstructionText).Nodup
  replaced : 1 ≤ request.room .replaceWithReference →
    ((request.classOf .replaceWithReference).map reconstructionText).Nodup
  tools : 1 ≤ request.room .reduceAuthorizedToolSet →
    CleanRefs ((request.classOf .reduceAuthorizedToolSet).map
      fun group => some (group.fieldStr "tool_id")) ∧
    CleanRefs ((request.classOf .reduceAuthorizedToolSet).map
      fun group => some (group.fieldStr "authorization_ref"))
  evidence : ∀ group ∈ (request.classOf .selectEvidenceSpans).take
      (request.room .selectEvidenceSpans),
    CleanRefs (group.itemTexts "selected_span_refs") ∧
    CleanRefs (group.itemTexts "required_span_refs") ∧
    CleanRefs (group.itemTexts "lineage_refs") ∧ CleanRefs (group.itemTexts "conflict_refs")

/-- Where metadata are looked at they can be read, and where a plan is made its refs are
clean. -/
def Plannable : Prop := request.Evaluates → request.Readable ∧ (request.Fits → request.Clean)

end ContextCompactionPlanningRequest

end ContextCompaction
