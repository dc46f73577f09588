/-
# Task instances and settlement evidence

A task instance names one attempt of one task of one plan version; its three
identifiers are derived from that attempt identity.  A settlement receipt is the
lifecycle owner's evidence of a terminated attempt, and a result record is a
worker's terminal result.  Each value passes the constructor it models, and each
reads back from its own dictionary.

`sha256` is the digest function.
-/
import AgoraHub.TaskPlanBudget

namespace TaskPlan

open Fallible

variable (sha256 : String → HexDigest)

/-! ## Graph identity -/

/-- The Graph-only identity fields of a task-plan contract. -/
structure GraphIdentity where
  graphId : String
  graphVersion : String
  graphRef : String
  graphSchemaVersion : String
  compilerVersion : String
  conditionPolicyVersion : String
  stageBindingChecksum : String
  stageIdentitySchema : String
  stageIdentityChecksum : String
  deriving DecidableEq

/-- The versions a live Graph identity carries: field, expected value, actual value. -/
def GraphIdentity.versions (g : GraphIdentity) : List (String × String × String) :=
  [("graph_schema_version", "newsroom.harness-normalized-graph/v2", g.graphSchemaVersion),
    ("compiler_version", "newsroom.harness-graph-compiler/v2", g.compilerVersion),
    ("condition_policy_version", "newsroom.harness-graph-condition-policy/v1",
      g.conditionPolicyVersion),
    ("stage_identity_schema", "newsroom.harness-task-plan-stage-identity/v2",
      g.stageIdentitySchema), ("graph_ref", g.graphId ++ "@" ++ g.graphVersion, g.graphRef)]

/-- The version fields whose actual value is not the expected one. -/
def GraphIdentity.mismatched (g : GraphIdentity) : List (String × String × String) :=
  g.versions.filter fun v => decide (v.2.2 ≠ v.2.1)

def stageIdentityChecksumProjection (runId stageId graphChecksum : String) (g : GraphIdentity) :
    Json :=
  .obj [("schema_version", .str g.stageIdentitySchema), ("run_id", .str runId),
    ("graph_schema_version", .str g.graphSchemaVersion),
    ("compiler_version", .str g.compilerVersion),
    ("condition_policy_version", .str g.conditionPolicyVersion), ("graph_id", .str g.graphId),
    ("graph_version", .str g.graphVersion), ("graph_checksum", .str graphChecksum),
    ("stage_id", .str stageId), ("stage_binding_checksum", .str g.stageBindingChecksum),
    ("graph_ref", .str g.graphRef)]

def normalizeGraphOnlyIdentityFields (runId stageId graphChecksum : String) (g : GraphIdentity) :
    Except HarnessValidationError Unit := do
  identifier g.graphId "graph_id"
  identifier g.graphVersion "graph_version"
  exactReference g.graphRef "graph_ref"
  requiredText g.graphSchemaVersion "graph_schema_version" 512
  requiredText g.compilerVersion "compiler_version" 512
  requiredText g.conditionPolicyVersion "condition_policy_version" 512
  checksum g.stageBindingChecksum "stage_binding_checksum"
  requiredText g.stageIdentitySchema "stage_identity_schema" 512
  checksum g.stageIdentityChecksum "stage_identity_checksum"
  require (g.mismatched = [])
    ⟨"Graph-only TaskPlan identity versions do not match", "task_plan_graph_identity_mismatch",
      [("mismatched", .obj (g.mismatched.map fun v =>
        (v.1, .obj [("expected", .str v.2.1), ("actual", .str v.2.2)])))]⟩
  let expected := canonicalPayloadChecksum sha256
    (stageIdentityChecksumProjection runId stageId graphChecksum g)
  require (g.stageIdentityChecksum = expected)
    ⟨"Graph-only TaskPlan stage identity checksum does not match",
      "task_plan_stage_identity_checksum_invalid",
      [("expected", .str expected), ("actual", .str g.stageIdentityChecksum)]⟩

/-! ## Task instances -/

/-- `GRAPH_ONLY_TASK_INSTANCE_SCHEMA`, the one readable and executable schema. -/
def taskInstanceSchema : String := "newsroom.harness-task-instance/v3"

/-- The constructor arguments of `TaskInstance`. -/
structure InstanceFields where
  runId : String
  stageId : String
  planId : String
  planVersion : ℕ
  planChecksum : String
  taskId : String
  taskDefinitionChecksum : String
  taskInstanceId : String
  attempt : ℕ
  workerRef : String
  idempotencyKey : String
  fencingToken : String
  budgetSnapshot : Amounts
  graphChecksum : String
  graph : GraphIdentity
  schemaVersion : String
  deriving DecidableEq

namespace InstanceFields

section

variable (i : InstanceFields)

def attemptIdentity : Json :=
  .obj [("run_id", .str i.runId), ("stage_id", .str i.stageId), ("plan_id", .str i.planId),
    ("plan_version", .int i.planVersion), ("plan_checksum", .str i.planChecksum),
    ("task_id", .str i.taskId), ("task_definition_checksum", .str i.taskDefinitionChecksum),
    ("attempt", .int i.attempt)]

/-- The fields of `checksum_projection`. -/
def projectionFields : List (String × Json) :=
  [("schema_version", .str i.schemaVersion), ("run_id", .str i.runId),
    ("graph_id", .str i.graph.graphId), ("graph_version", .str i.graph.graphVersion),
    ("graph_ref", .str i.graph.graphRef), ("graph_schema_version", .str i.graph.graphSchemaVersion),
    ("compiler_version", .str i.graph.compilerVersion),
    ("condition_policy_version", .str i.graph.conditionPolicyVersion),
    ("graph_checksum", .str i.graphChecksum),
    ("stage_binding_checksum", .str i.graph.stageBindingChecksum),
    ("stage_identity_schema", .str i.graph.stageIdentitySchema),
    ("stage_identity_checksum", .str i.graph.stageIdentityChecksum),
    ("stage_id", .str i.stageId), ("plan_id", .str i.planId),
    ("plan_version", .int i.planVersion), ("plan_checksum", .str i.planChecksum),
    ("task_id", .str i.taskId), ("task_definition_checksum", .str i.taskDefinitionChecksum),
    ("task_instance_id", .str i.taskInstanceId), ("attempt", .int i.attempt),
    ("worker_ref", .str i.workerRef), ("idempotency_key", .str i.idempotencyKey),
    ("fencing_token", .str i.fencingToken), ("budget_snapshot", i.budgetSnapshot.toJson)]

def instanceChecksum : String :=
  canonicalPayloadChecksum sha256 (.obj i.projectionFields)

/-- The digest of the attempt identity. -/
def attemptDigest : String := (sha256 i.attemptIdentity.dumps).text

/-- A field that must be its prefix followed by the attempt digest. -/
def requireDerived (value pre fieldName : String) : Except HarnessValidationError Unit :=
  require (value = pre ++ i.attemptDigest sha256)
    ⟨"task instance does not match deterministic attempt identity",
      "task_plan_task_instance_mismatch", [("field", .str fieldName), ("task_id", .str i.taskId)]⟩

/-- `TaskInstance.__post_init__`. -/
def check : Except HarnessValidationError Unit := do
  require (i.schemaVersion = taskInstanceSchema)
    ⟨"unsupported TaskPlan contract schema", "unsupported_task_plan_schema",
      [("contract_kind", .str "task_instance"), ("schema", .str i.schemaVersion)]⟩
  identifier i.runId "run_id"
  identifier i.stageId "stage_id"
  identifier i.planId "plan_id"
  identifier i.taskId "task_id"
  identifier i.taskInstanceId "task_instance_id"
  checksum i.graphChecksum "graph_checksum"
  normalizeGraphOnlyIdentityFields sha256 i.runId i.stageId i.graphChecksum i.graph
  positiveInt i.planVersion "plan_version"
  checksum i.planChecksum "plan_checksum"
  checksum i.taskDefinitionChecksum "task_definition_checksum"
  positiveInt i.attempt "attempt"
  exactReference i.workerRef "worker_ref"
  identifier i.idempotencyKey "idempotency_key"
  identifier i.fencingToken "fencing_token"
  let _ ← TaskBudget.fromDict i.budgetSnapshot
  i.requireDerived sha256 i.taskInstanceId "ti_" "task_instance_id"
  i.requireDerived sha256 i.idempotencyKey "idem_" "idempotency_key"
  i.requireDerived sha256 i.fencingToken "fence_" "fencing_token"

end

end InstanceFields

/-- `TaskInstance`: fields that pass its constructor. -/
structure TaskInstance where
  fields : InstanceFields
  valid : fields.check sha256 = .ok ()

/-- The dictionary of a task instance. -/
structure InstanceDict where
  fields : InstanceFields
  instanceChecksum : String
  deriving DecidableEq

/-- The dictionary as JSON. -/
def InstanceDict.toJson (d : InstanceDict) : Json :=
  .obj (d.fields.projectionFields ++ [("instance_checksum", .str d.instanceChecksum)])

namespace TaskInstance

variable {sha256}

variable {a b : TaskInstance sha256}

theorem ext (h : a.fields = b.fields) : a = b := by
  cases a
  cases b
  simpa using h

instance : DecidableEq (TaskInstance sha256) := fun a b =>
  decidable_of_iff (a.fields = b.fields) ⟨ext, congrArg _⟩

def toDict (i : TaskInstance sha256) : InstanceDict :=
  ⟨i.fields, i.fields.instanceChecksum sha256⟩

@[simp] theorem toDict_fields (i : TaskInstance sha256) : i.toDict.fields = i.fields := rfl

theorem toDict_injective (h : a.toDict = b.toDict) : a = b :=
  ext (congrArg InstanceDict.fields h)

variable (sha256) in
/-- The constructor. -/
def construct (fields : InstanceFields) : Except HarnessValidationError (TaskInstance sha256) :=
  match h : fields.check sha256 with
  | .ok () => .ok ⟨fields, h⟩
  | .error e => .error e

theorem construct_eq_ok {fields : InstanceFields} {i : TaskInstance sha256} :
    construct sha256 fields = .ok i ↔ i.fields = fields := by
  unfold construct
  split
  · rename_i h
    constructor
    · intro hi
      cases hi
      rfl
    · intro hi
      exact congrArg _ (ext hi.symm)
  · rename_i e h
    constructor
    · intro hi
      cases hi
    · -- an instance's fields pass the check, so this branch is not taken
      rintro rfl
      rw [i.valid] at h
      cases h

variable (sha256) in
def fromDict (value : InstanceDict) : Except HarnessValidationError (TaskInstance sha256) := do
  require (value.fields.schemaVersion = taskInstanceSchema)
    ⟨"unsupported TaskPlan contract schema", "unsupported_task_plan_schema",
      [("contract_kind", .str "task_instance"), ("schema", .str value.fields.schemaVersion)]⟩
  checksum value.instanceChecksum "instance_checksum"
  let i ← construct sha256 value.fields
  verifyChecksum value.instanceChecksum (i.fields.instanceChecksum sha256) "instance_checksum"
    "TaskInstance"
  return i

/-- An instance reads back from its own dictionary, and from no other. -/
theorem fromDict_eq_ok {value : InstanceDict} {i : TaskInstance sha256} :
    fromDict sha256 value = .ok i ↔ i.toDict = value := by
  unfold fromDict
  constructor
  · intro h
    obtain ⟨j, hj, hrest⟩ := bind_inv (check_inv (check_inv h).2).2
    obtain ⟨hsum, hret⟩ := check_inv hrest
    cases hret
    have hfields := construct_eq_ok.mp hj
    have hchecksum := of_require hsum
    cases value
    simp only [toDict, InstanceDict.mk.injEq]
    exact ⟨hfields, hchecksum.symm⟩
  · rintro rfl
    rw [check_bind_eq_ok, check_bind_eq_ok]
    refine ⟨require_eq_ok.mpr ?_, checksum_canonicalPayloadChecksum .., ?_⟩
    · have hvalid := i.valid
      unfold InstanceFields.check at hvalid
      exact of_require (check_inv hvalid).1
    · refine bind_intro (construct_eq_ok.mpr rfl) ?_
      exact require_intro rfl rfl

theorem derived (i : TaskInstance sha256) :
    i.fields.taskInstanceId = "ti_" ++ i.fields.attemptDigest sha256 ∧
      i.fields.idempotencyKey = "idem_" ++ i.fields.attemptDigest sha256 := by
  have h := i.valid
  unfold InstanceFields.check at h
  iterate 15 replace h := (check_inv h).2
  obtain ⟨-, -, hlast⟩ := bind_inv h
  obtain ⟨hid, hlast⟩ := check_inv hlast
  exact ⟨of_require hid, of_require (check_inv hlast).1⟩

/-- The idempotency key and the instance identifier determine each other. -/
theorem idempotencyKey_eq_iff : a.fields.idempotencyKey = b.fields.idempotencyKey ↔
      a.fields.taskInstanceId = b.fields.taskInstanceId := by
  rw [a.derived.1, a.derived.2, b.derived.1, b.derived.2]
  constructor <;> intro h
  · exact congrArg _ (String.append_right_inj _ |>.mp h)
  · exact congrArg _ (String.append_right_inj _ |>.mp h)

end TaskInstance

/-! ## Deterministic attempts -/

/-- What a deterministic attempt takes from its plan and task definition. -/
structure AttemptSource where
  runId : String
  stageId : String
  planId : String
  planVersion : ℕ
  planChecksum : String
  taskId : String
  taskDefinitionChecksum : String
  workerRef : String
  budget : TaskBudget
  graphChecksum : String
  graph : GraphIdentity

/-- The fields of attempt number `attempt`: its identifiers are derived from the
attempt identity. -/
def AttemptSource.fields (a : AttemptSource) (attempt : ℕ) : InstanceFields :=
  let base : InstanceFields :=
    { runId := a.runId, stageId := a.stageId, planId := a.planId, planVersion := a.planVersion
      planChecksum := a.planChecksum, taskId := a.taskId
      taskDefinitionChecksum := a.taskDefinitionChecksum, taskInstanceId := "", attempt := attempt
      workerRef := a.workerRef, idempotencyKey := "", fencingToken := ""
      budgetSnapshot := a.budget.amounts, graphChecksum := a.graphChecksum, graph := a.graph
      schemaVersion := taskInstanceSchema }
  let digest := base.attemptDigest sha256
  { base with
    taskInstanceId := "ti_" ++ digest
    idempotencyKey := "idem_" ++ digest
    fencingToken := "fence_" ++ digest }

/-- The fields of a deterministic attempt pass the constructor when the fields it
takes over do. -/
theorem AttemptSource.check_fields {a : AttemptSource} {attempt : ℕ}
    (hrun : identifier a.runId "run_id" = .ok ())
    (hstage : identifier a.stageId "stage_id" = .ok ())
    (hplan : identifier a.planId "plan_id" = .ok ())
    (htask : identifier a.taskId "task_id" = .ok ())
    (hgraph : checksum a.graphChecksum "graph_checksum" = .ok ())
    (hidentity : normalizeGraphOnlyIdentityFields sha256 a.runId a.stageId a.graphChecksum
      a.graph = .ok ()) (hversion : 0 < a.planVersion)
    (hsum : checksum a.planChecksum "plan_checksum" = .ok ())
    (hdefinition : checksum a.taskDefinitionChecksum "task_definition_checksum" = .ok ())
    (hattempt : 0 < attempt) (hworker : exactReference a.workerRef "worker_ref" = .ok ()) :
    (a.fields sha256 attempt).check sha256 = .ok () := by
  unfold InstanceFields.check
  refine require_intro rfl ?_
  refine bind_intro hrun (bind_intro hstage ?_)
  refine bind_intro hplan (bind_intro htask ?_)
  refine check_intro ?_ (bind_intro hgraph ?_)
  · exact identifier_append_digest _ (by decide) (by decide) (by decide)
  refine bind_intro hidentity (check_intro (positiveInt_eq_ok.mpr hversion) ?_)
  refine bind_intro hsum (bind_intro hdefinition ?_)
  refine check_intro (positiveInt_eq_ok.mpr hattempt) (bind_intro hworker ?_)
  refine check_intro ?_ (check_intro ?_ ?_)
  · exact identifier_append_digest _ (by decide) (by decide) (by decide)
  · exact identifier_append_digest _ (by decide) (by decide) (by decide)
  refine bind_intro (TaskBudget.fromDict_amounts a.budget) ?_
  refine require_intro rfl ?_
  exact require_intro rfl (require_eq_ok.mpr rfl)

/-! ## Settlement receipts -/

def budgetSettlementSchema : String := "agora.task-plan-budget-settlement/v1"

def settlementReasons : List String := ["CANCELLED", "RECLAIMED", "RECOVERED", "BUDGET_EXCEEDED"]

/-- The constructor arguments of `BudgetSettlementReceipt`. -/
structure ReceiptFields where
  reservationKey : String
  instanceChecksum : String
  sourceReceiptChecksum : String
  reasonCode : String
  usage : PyDict String ℕ
  terminationConfirmed : Bool
  schemaVersion : String
  deriving DecidableEq

namespace ReceiptFields

section

variable (r : ReceiptFields)

/-- `to_dict(include_checksum=False)`. -/
def projectionFields : List (String × Json) :=
  [("schema_version", .str r.schemaVersion), ("reservation_key", .str r.reservationKey),
    ("instance_checksum", .str r.instanceChecksum),
    ("source_receipt_checksum", .str r.sourceReceiptChecksum), ("reason_code", .str r.reasonCode),
    ("usage", .obj (r.usage.map fun p => (p.1, .int p.2))),
    ("termination_confirmed", .bool r.terminationConfirmed)]

def receiptChecksum : String :=
  canonicalPayloadChecksum sha256 (.obj r.projectionFields)

/-- `BudgetSettlementReceipt.__post_init__`. -/
def check : Except HarnessValidationError Unit := do
  identifier r.reservationKey "reservation_key"
  checksum r.instanceChecksum "instance_checksum"
  checksum r.sourceReceiptChecksum "source_receipt_checksum"
  require (r.schemaVersion = budgetSettlementSchema ∧ r.reasonCode ∈ settlementReasons)
    ⟨"unsupported budget settlement contract", "task_plan_budget_snapshot_invalid", []⟩
  require (r.usage.length ≤ 14)
    ⟨"settlement usage exceeds its bound", "task_plan_budget_snapshot_invalid", []⟩
  require (∀ key ∈ r.usage.keys, ∃ d ∈ BudgetField.all, key = d.name ∨ key = d.usageName)
    ⟨"unknown settlement usage dimension", "task_plan_result_usage_invalid", []⟩

/-- The usage as measurements. -/
def measurements : PyDict String Measurement :=
  r.usage.map fun p => (p.1, .int p.2)

end

end ReceiptFields

/-- `BudgetSettlementReceipt`: fields that pass its constructor. -/
structure BudgetSettlementReceipt where
  fields : ReceiptFields
  valid : fields.check = .ok ()

/-- The dictionary of a receipt. -/
structure ReceiptDict where
  fields : ReceiptFields
  receiptChecksum : String
  deriving DecidableEq

namespace ReceiptDict

/-- The dictionary as JSON. -/
def toJson (d : ReceiptDict) : Json :=
  .obj (d.fields.projectionFields ++ [("receipt_checksum", .str d.receiptChecksum)])

/-- `d == d'`: usage mappings are compared in any order. -/
def eq (d d' : ReceiptDict) : Prop :=
  { d with fields := { d.fields with usage := [] } } =
      { d' with fields := { d'.fields with usage := [] } } ∧
    d.fields.usage.eq d'.fields.usage

instance (d d' : ReceiptDict) : Decidable (eq d d') := inferInstanceAs (Decidable (_ ∧ _))

end ReceiptDict

namespace BudgetSettlementReceipt

theorem ext {a b : BudgetSettlementReceipt} (h : a.fields = b.fields) : a = b := by
  cases a
  cases b
  simpa using h

def toDict (r : BudgetSettlementReceipt) : ReceiptDict :=
  ⟨r.fields, r.fields.receiptChecksum sha256⟩

/-- The constructor. -/
def construct (fields : ReceiptFields) : Except HarnessValidationError BudgetSettlementReceipt :=
  match h : fields.check with
  | .ok () => .ok ⟨fields, h⟩
  | .error e => .error e

def fromDict (value : ReceiptDict) : Except HarnessValidationError BudgetSettlementReceipt := do
  checksum value.receiptChecksum "receipt_checksum"
  let receipt ← construct value.fields
  require (receipt.fields.receiptChecksum sha256 = value.receiptChecksum)
    ⟨"budget settlement receipt checksum mismatch", "task_plan_budget_checksum_mismatch", []⟩
  return receipt

end BudgetSettlementReceipt

/-! ## Task results -/

/-- What a budget settlement reads of a `TaskResultRecord`.  Its status is always
`SUCCEEDED` or `FAILED`, and its other fields only enter `resultChecksum`. -/
structure TaskResultRecord where
  runId : String
  stageId : String
  planId : String
  planVersion : ℕ
  taskId : String
  taskInstanceId : String
  attempt : ℕ
  workerRef : String
  taskChecksum : String
  graphChecksum : String
  stageIdentityChecksum : String
  usage : PyDict String Measurement
  resultChecksum : String
  deriving DecidableEq

end TaskPlan
