/-
# Compaction plans

The policy of a compaction, the actions a plan is made of, the evidence that a context does
not fit, and what was used of the budgets before; the registry that knows which parameters
an action has.
-/
import AgoraHub.ContextGroups

namespace ContextCompaction

open Fallible

/-! ## Action types -/

/-- `ContextCompactionActionType` -/
inductive ActionType where
  | dropReconstructableGroup | replaceWithReference | reduceAuthorizedToolSet
  | selectEvidenceSpans | compactOldConversation | summarizeGroups
  deriving DecidableEq

namespace ActionType

def value : ActionType → String
  | dropReconstructableGroup => "drop_reconstructable_group"
  | replaceWithReference => "replace_with_reference"
  | reduceAuthorizedToolSet => "reduce_authorized_tool_set"
  | selectEvidenceSpans => "select_evidence_spans"
  | compactOldConversation => "compact_old_conversation"
  | summarizeGroups => "summarize_groups"

/-- `REVERSIBLE_CONTEXT_ACTIONS` -/
def reversible : ActionType → Bool
  | dropReconstructableGroup | replaceWithReference | reduceAuthorizedToolSet => true
  | _ => false

end ActionType

inductive ContextLossRisk where
  | none | low | medium | high | unknown
  deriving DecidableEq

def ContextLossRisk.value : ContextLossRisk → String
  | none => "none"
  | low => "low"
  | medium => "medium"
  | high => "high"
  | unknown => "unknown"

/-! ## Budgets -/

section Budgets

variable (C : Type) [Zero C] [LT C]

/-- `ContextCompactionPolicy`, whose costs are of type `C`. -/
structure ContextCompactionPolicy where
  policyRevision : Ref
  actionOrder : List ActionType
  maxActions : ℕ
  maxSummaryCalls : ℕ
  maxReplans : ℕ
  maxLlmCalls : ℕ
  maxInputTokens : ℕ
  maxCostUsd : C
  maxTurns : ℕ
  keepRecentCompleteTurns : ℕ
  protectedGroupKinds : List ContextGroupKind
  protectedReasons : List ContextProtectionReason
  allowedLossRisks : List ContextLossRisk
  order_nonempty : actionOrder ≠ []
  order_distinct : actionOrder.Nodup
  actions_pos : 1 ≤ maxActions
  inputTokens_pos : 1 ≤ maxInputTokens
  turns_pos : 1 ≤ maxTurns
  cost_nonneg : ¬ maxCostUsd < 0
  kinds_distinct : protectedGroupKinds.Nodup
  reasons_distinct : protectedReasons.Nodup
  risks_distinct : allowedLossRisks.Nodup

structure ContextPlanningBudgetUsage where
  actions : ℕ := 0
  summaryCalls : ℕ := 0
  replans : ℕ := 0
  llmCalls : ℕ := 0
  inputTokens : ℕ := 0
  costUsd : C := 0
  turns : ℕ := 0
  cost_nonneg : ¬ costUsd < 0

/-- What is left of the budgets. -/
structure RemainingBudgets where
  actions : ℕ
  summaryCalls : ℕ
  replans : ℕ
  llmCalls : ℕ
  costUsd : C
  turns : ℕ

end Budgets

variable {C : Type} [Zero C] [LT C] [Sub C] [DecidableLT C]

/-- `max(0.0, value)` -/
def maxZero (value : C) : C := if 0 < value then value else 0

def remainingBudgets (policy : ContextCompactionPolicy C) (usage : ContextPlanningBudgetUsage C) :
    RemainingBudgets C where
  actions := policy.maxActions - usage.actions
  summaryCalls := policy.maxSummaryCalls - usage.summaryCalls
  replans := policy.maxReplans - usage.replans
  llmCalls := policy.maxLlmCalls - usage.llmCalls
  costUsd := maxZero (policy.maxCostUsd - usage.costUsd)
  turns := policy.maxTurns - usage.turns

/-! ## Actions -/

/-- The value of a parameter: texts, values of the metadata, one text or a number. -/
inductive ActionParameter (V : Type) where
  | texts (values : List String)
  | values (items : List V)
  | text (value : String)
  | count (n : ℕ)

variable {V : Type} [PyDynamic V]

namespace ActionParameter

/-- Whether `json.dumps` can write the parameter. -/
def writable : ActionParameter V → Bool
  | .values items => items.all fun v => (PyDynamic.json? v).isSome
  | _ => true

/-- `parameter == n` -/
def isCount (n : ℕ) : ActionParameter V → Bool
  | .count m => m == n
  | _ => false

/-- `text_tuple` of a parameter. -/
def textTuple (field : String) : ActionParameter V → Except CompactionError (List Ref)
  | .texts ts => ContextCompaction.textTuple (ts.map some) field
  | .values items => ContextCompaction.textTuple (items.map PyDynamic.text?) field
  | _ => .error (.validation (field ++ " must be a list of strings"))

end ActionParameter

structure ContextCompactionAction (V : Type) where
  actionType : ActionType
  targetGroupIds : List String
  parameters : PyDict String (ActionParameter V)

namespace ContextCompactionAction

/-- The constructor of an action. -/
def construct (actionType : ActionType) (targetGroupIds : List String)
    (parameters : PyDict String (ActionParameter V)) :
    Except CompactionError (ContextCompactionAction V) := do
  let targets ← textTuple (targetGroupIds.map some) "target_group_ids" true
  require (∀ p ∈ parameters, p.2.writable = true) .typeError
  .ok ⟨actionType, targets.map Ref.val, parameters⟩

variable (action : ContextCompactionAction V)

/-- `action.parameters[name]` -/
def parameter (name : String) : Except CompactionError (ActionParameter V) :=
  orRaise (action.parameters.get? name) (.keyError name)

def parameterTextTuple (name : String) : Except CompactionError (List Ref) := do
  let value ← action.parameter name
  value.textTuple name

/-- `_assert_parameter_refs`, the expected refs by the characters of those that are texts. -/
def assertParameterRefs (name : String) (expected : List (Option String)) :
    Except CompactionError Unit := do
  let actual ← action.parameterTextTuple name
  require (actual.map (fun ref => some ref.val) = expected)
    (.validation (action.actionType.value ++ " " ++ name ++ " are stale or unauthorized"))

end ContextCompactionAction

/-! ## Registry -/

abbrev ContextCompactionActionRegistry := PyDict ActionType (List String)

namespace ContextCompactionActionRegistry

def standard : ContextCompactionActionRegistry :=
  [(.dropReconstructableGroup, ["reconstruction_refs"]),
    (.replaceWithReference, ["reconstruction_refs"]),
    (.reduceAuthorizedToolSet, ["authorization_refs", "tool_ids"]),
    (.selectEvidenceSpans, ["conflict_refs", "lineage_refs", "query_binding_ref",
      "required_citation_refs", "required_span_refs", "selected_span_refs", "source_refs"]),
    (.compactOldConversation, ["complete_turn_group_ids", "keep_recent_complete_turns"]),
    (.summarizeGroups, ["allowed_loss_risks"])]

variable (registry : ContextCompactionActionRegistry)

def definitionFor (actionType : ActionType) : Except CompactionError (List String) :=
  orRaise (registry.get? actionType)
    (.validation ("unregistered compaction action: " ++ actionType.value))

/-- One action type of the order, with whether a lossy one was seen. -/
def validateOrderItem (seenLossy : Bool) (actionType : ActionType) :
    Except CompactionError Bool := do
  let _ ← registry.definitionFor actionType
  require (actionType.reversible = true → seenLossy = false)
    (.validation "reversible context actions must precede lossy actions")
  .ok (seenLossy || !actionType.reversible)

def validatePolicy (policy : ContextCompactionPolicy C) : Except CompactionError Unit := do
  let _ ← policy.actionOrder.foldlM registry.validateOrderItem false
  .ok ()

/-- The complaints about the parameters of an action. -/
def shapeDetails (definition : List String) (parameters : List String) : List String :=
  let unknown := PyText.sortedSet (parameters.filter fun name => !definition.contains name)
  let missing := PyText.sortedSet (definition.filter fun name => !parameters.contains name)
  (if unknown = [] then [] else ["unknown=" ++ ",".intercalate unknown]) ++
    (if missing = [] then [] else ["missing=" ++ ",".intercalate missing])

def validateActionShape (action : ContextCompactionAction V) : Except CompactionError Unit := do
  let definition ← registry.definitionFor action.actionType
  let details := shapeDetails definition action.parameters.keys
  require (details = []) (.validation ("invalid " ++ action.actionType.value ++ " parameters: " ++
    "; ".intercalate details))

end ContextCompactionActionRegistry

/-! ## Admission -/

structure ContextPhysicalAdmissionEvidence where
  sourceSnapshotId : String
  sourceSnapshotChecksum : String
  preparedFingerprint : Ref
  physicalProfileRevision : Ref
  tokenizerRevision : Ref
  normalizerRevision : Ref
  materializationRevision : Ref
  admissionStatus : Ref
  admitted : Bool
  inputTokens : ℕ
  maxInputTokens : ℕ
  fixedInputTokens : ℕ
  groupInputTokens : PyDict String ℕ
  schemaRevision : Ref
  admitted_iff : admitted = true ↔ admissionStatus.val = "admitted"
  groups_distinct : groupInputTokens.keys.Nodup
  tokens_sum : fixedInputTokens + groupInputTokens.values.sum = inputTokens

namespace ContextPhysicalAdmissionEvidence

variable (evidence : ContextPhysicalAdmissionEvidence)

/-- `identity_projection`, written. -/
def identityProjection : String :=
  objectText [("schema_revision", Json.quote evidence.schemaRevision.val),
    ("source_snapshot_id", Json.quote evidence.sourceSnapshotId),
    ("source_snapshot_checksum", Json.quote evidence.sourceSnapshotChecksum),
    ("prepared_fingerprint", Json.quote evidence.preparedFingerprint.val),
    ("physical_profile_revision", Json.quote evidence.physicalProfileRevision.val),
    ("tokenizer_revision", Json.quote evidence.tokenizerRevision.val),
    ("normalizer_revision", Json.quote evidence.normalizerRevision.val),
    ("materialization_revision", Json.quote evidence.materializationRevision.val),
    ("admission_status", Json.quote evidence.admissionStatus.val),
    ("admitted", if evidence.admitted then "true" else "false"),
    ("input_tokens", toString evidence.inputTokens),
    ("max_input_tokens", toString evidence.maxInputTokens),
    ("fixed_input_tokens", toString evidence.fixedInputTokens),
    ("group_input_tokens", objectText (evidence.groupInputTokens.map fun p =>
      (p.1, toString p.2)))]

def evidenceId (sha256 : String → HexDigest) : String :=
  identity sha256 "context-physical-admission" evidence.identityProjection

end ContextPhysicalAdmissionEvidence

/-! ## Plans -/

structure ContextCompactionPlan (C V : Type) where
  sourceSnapshotId : String
  sourceSnapshotChecksum : String
  taskBindingRef : Ref
  targetInputTokens : ℕ
  maxActions : ℕ
  maxSummaryCalls : ℕ
  maxReplans : ℕ
  actions : List (ContextCompactionAction V)
  protectedGroupIds : List String
  policyRevision : Ref
  physicalProfileRevision : Ref
  initialAdmissionRef : String
  maxLlmCalls : ℕ
  maxCostUsd : C
  maxTurns : ℕ

/-- The checks of `ContextCompactionPlan.__post_init__`. -/
def ContextCompactionPlan.check (plan : ContextCompactionPlan C V) :
    Except CompactionError Unit := do
  require (1 ≤ plan.targetInputTokens)
    (.validation "target_input_tokens must be a positive integer")
  require (1 ≤ plan.maxActions) (.validation "max_actions must be a positive integer")
  require (¬ plan.maxCostUsd < 0) (.validation "max_cost_usd must be non-negative")
  require (1 ≤ plan.maxTurns) (.validation "max_turns must be a positive integer")
  require (plan.actions.length ≤ plan.maxActions) (.validation "plan actions exceed max_actions")
  require ((plan.actions.filter fun a => a.actionType == .summarizeGroups).length ≤
    plan.maxSummaryCalls) (.validation "plan summary actions exceed max_summary_calls")
  let _ ← textTuple (plan.protectedGroupIds.map some) "protected_group_ids"
  .ok ()

/-! ## Requests and results -/

/-- `ContextCompactionPlanningRequest`: the admission is about the snapshot. -/
structure ContextCompactionPlanningRequest (sha256 : String → HexDigest) (C V : Type) [Zero C]
    [LT C] [PyDynamic V] where
  sourceSnapshot : ContextSemanticSnapshot sha256 V
  initialAdmission : ContextPhysicalAdmissionEvidence
  policy : ContextCompactionPolicy C
  budgetUsage : ContextPlanningBudgetUsage C
  kind_source : sourceSnapshot.snapshotKind = .source
  admission_snapshot : initialAdmission.sourceSnapshotId = sourceSnapshot.snapshotId
  admission_checksum : initialAdmission.sourceSnapshotChecksum = sourceSnapshot.checksum
  policy_revision : sourceSnapshot.policyRevision = policy.policyRevision
  profile_revision :
    sourceSnapshot.physicalProfileRevision = some initialAdmission.physicalProfileRevision
  admission_groups : ∀ id, id ∈ initialAdmission.groupInputTokens.keys ↔
    id ∈ sourceSnapshot.groupIds

inductive ContextCompactionPlanningStatus where
  | planReady | noCompactionRequired | protectedContextExceedsWindow | noAllowedCompaction
  | actionBudgetExhausted
  deriving DecidableEq

structure ContextCompactionPlanningResult (C V : Type) where
  status : ContextCompactionPlanningStatus
  sourceSnapshotId : String
  sourceSnapshotChecksum : String
  admissionEvidenceId : String
  protectedGroupIds : List String
  reasonCode : String
  plan : Option (ContextCompactionPlan C V)

/-- The checks of `ContextCompactionPlanningResult.__post_init__`. -/
def ContextCompactionPlanningResult.check (result : ContextCompactionPlanningResult C V) :
    Except CompactionError Unit := do
  let _ ← textTuple (result.protectedGroupIds.map some) "protected_group_ids"
  require (result.status = .planReady → result.plan.isSome = true)
    (.validation "plan_ready result requires a plan")
  require (result.status ≠ .planReady → result.plan.isNone = true)
    (.validation "non-plan planning result must not contain a plan")

end ContextCompaction
