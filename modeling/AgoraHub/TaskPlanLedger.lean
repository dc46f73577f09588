/-
# The task-plan budget ledger

Immutable accounting of task budgets, one record for each attempt.  The
constructor re-validates the whole history, every operation ends in it, and a
snapshot is read back through it.
-/
import AgoraHub.TaskPlanInstance

namespace TaskPlan

open Fallible

variable (sha256 : String → HexDigest)

section

variable (message : String)

/-- `_fail` with its default code. -/
def invalidSnapshot : HarnessValidationError :=
  ⟨message, "task_plan_budget_snapshot_invalid", []⟩

/-- `_fail` for identities that disagree. -/
def identityConflict : HarnessValidationError :=
  ⟨message, "task_plan_budget_identity_conflict", []⟩

/-- `_fail` for a settlement that disagrees with the recorded one. -/
def settlementConflict : HarnessValidationError :=
  ⟨message, "task_plan_budget_settlement_conflict", []⟩

/-- `_fail` for a checksum that disagrees. -/
def checksumMismatch : HarnessValidationError :=
  ⟨message, "task_plan_budget_checksum_mismatch", []⟩

end

/-! ## Records -/

def taskPlanBudgetLedgerSchema : String := "agora.task-plan-budget-ledger/v2"

def taskPlanBudgetRecordSchema : String := "agora.task-plan-budget-record/v2"

/-- The status of a record. -/
inductive RecordStatus where
  | reserved
  | settled
  | released
  | terminated
  deriving DecidableEq

/-- The text of a status. -/
def RecordStatus.value : RecordStatus → String
  | reserved => "RESERVED"
  | settled => "SETTLED"
  | released => "RELEASED"
  | terminated => "TERMINATED"

/-- One reservation with its settlement. -/
structure BudgetRecord where
  schemaVersion : String
  reservationKey : String
  taskInstance : InstanceDict
  status : RecordStatus
  consumed : Amounts
  released : Amounts
  resultChecksum : Option String
  reasonCode : Option String
  reservedRevision : ℕ
  settledRevision : Option ℕ
  settlementReceipt : Option ReceiptDict
  deriving DecidableEq

namespace BudgetRecord

/-- `record["instance"]["task_id"]`. -/
def taskId (r : BudgetRecord) : String := r.taskInstance.fields.taskId

/-- `record["instance"]["budget_snapshot"]`. -/
def requested (r : BudgetRecord) : Amounts := r.taskInstance.fields.budgetSnapshot

/-- What is still reserved of a record. -/
def outstanding (r : BudgetRecord) (d : BudgetField) : ℕ :=
  if r.status = .reserved then r.requested.amount d else 0

/-- The record of an attempt given by its instance, task and number. -/
def IsAttempt (r : BudgetRecord) (taskInstanceId : Option String) (taskId : String)
    (attempt : ℕ) : Prop :=
  some r.taskInstance.fields.taskInstanceId = taskInstanceId ∧ r.taskId = taskId ∧
    r.taskInstance.fields.attempt = attempt

instance (r : BudgetRecord) (taskInstanceId : Option String) (taskId : String) (attempt : ℕ) :
    Decidable (r.IsAttempt taskInstanceId taskId attempt) :=
  inferInstanceAs (Decidable (_ ∧ _))

/-- The ledger revisions at which a record changed. -/
def revisions (r : BudgetRecord) : List ℕ :=
  r.reservedRevision :: if r.status = .reserved then [] else r.settledRevision.toList

/-- A record as JSON. -/
def toJson (r : BudgetRecord) : Json :=
  .obj [("schema_version", .str r.schemaVersion), ("reservation_key", .str r.reservationKey),
    ("instance", r.taskInstance.toJson), ("status", .str r.status.value),
    ("consumed", r.consumed.toJson), ("released", r.released.toJson),
    ("result_checksum", Json.optStr r.resultChecksum), ("reason_code", Json.optStr r.reasonCode),
    ("reserved_revision", .int r.reservedRevision),
    ("settled_revision", (r.settledRevision.map fun n => Json.int n).getD .null),
    ("settlement_receipt", (r.settlementReceipt.map ReceiptDict.toJson).getD .null)]

end BudgetRecord

def validateTerminationReceipt (i : InstanceDict) (receipt : BudgetSettlementReceipt) :
    Except HarnessValidationError Unit := do
  require (receipt.fields.terminationConfirmed = true)
    ⟨"budget settlement requires confirmed termination",
      "task_plan_budget_termination_unconfirmed", []⟩
  require (receipt.fields.reservationKey = i.fields.idempotencyKey ∧
      receipt.fields.instanceChecksum = i.instanceChecksum)
    (identityConflict "lifecycle receipt differs from reserved attempt")

/-! ## The constructor -/

/-- The constructor arguments of `TaskPlanBudgetLedger`. -/
structure LedgerFields where
  runId : String
  stageId : String
  policyRef : String
  parentAllocation : Amounts
  records : PyDict String BudgetRecord
  ledgerVersion : ℕ
  deriving DecidableEq

/-- What the constructor's loop over the records has collected. -/
structure SeenRecords where
  revisions : List ℕ
  identities : List (String × String × ℕ)
  instanceIds : List String
  outstanding : List String

namespace SeenRecords

/-- Nothing seen. -/
def none : SeenRecords := ⟨[], [], [], []⟩

/-- The loop's accumulators after one more record. -/
def add (seen : SeenRecords) (entry : String × BudgetRecord) : SeenRecords where
  revisions := seen.revisions ++ entry.2.revisions
  identities := seen.identities ++
    [(entry.2.taskInstance.fields.planId, entry.2.taskId, entry.2.taskInstance.fields.attempt)]
  instanceIds := seen.instanceIds ++ [entry.2.taskInstance.fields.taskInstanceId]
  outstanding := seen.outstanding ++ if entry.2.status = .reserved then [entry.2.taskId] else []

end SeenRecords

/-- The checks of an outstanding record. -/
def checkReserved (seen : SeenRecords) (r : BudgetRecord) : Except HarnessValidationError Unit := do
  require (r.consumed.anyNonzero = false ∧ r.released.anyNonzero = false ∧
      r.settledRevision = none ∧ r.resultChecksum = none ∧ r.reasonCode = none ∧
      r.settlementReceipt = none)
    (invalidSnapshot "outstanding budget reservation contains terminal accounting")
  require (r.taskId ∉ seen.outstanding)
    (identityConflict "retry cannot overlap an outstanding reservation")

/-- The checks of a settled record. -/
def checkSettled (r : BudgetRecord) : Except HarnessValidationError Unit := do
  checksum (r.resultChecksum.getD "") "result_checksum"
  require (r.reasonCode = none ∧ r.settlementReceipt = none)
    (invalidSnapshot "result settlement cannot contain a release reason")

/-- The checks of a released record. -/
def checkReleased (r : BudgetRecord) : Except HarnessValidationError Unit := do
  requiredText (r.reasonCode.getD "") "reason_code" 512
  require (r.consumed.anyNonzero = false ∧ r.resultChecksum = none ∧ r.settlementReceipt = none)
    (invalidSnapshot "unstarted release cannot contain consumption or a result")

/-- The checks of a terminated record. -/
def checkTerminated (r : BudgetRecord) : Except HarnessValidationError Unit := do
  let receiptDict ← orRaise r.settlementReceipt
    (contractError "invalid_task_plan_payload" "BudgetSettlementReceipt payload must be an object"
      [("model", .str "BudgetSettlementReceipt")])
  let receipt ← BudgetSettlementReceipt.fromDict sha256 receiptDict
  require (r.resultChecksum = none ∧ ∃ reason ∈ r.reasonCode, reason ∈ settlementReasons)
    (invalidSnapshot "terminated budget requires attributable lifecycle evidence")
  validateTerminationReceipt r.taskInstance receipt
  let usage ← resultBudgetUsage receipt.fields.measurements r.requested
  require (some receipt.fields.reasonCode = r.reasonCode ∧ usage = r.consumed)
    (invalidSnapshot "termination receipt differs from recorded accounting")

/-- The checks that every terminal record passes. -/
def checkPartition (parent : Amounts) (r : BudgetRecord) : Except HarnessValidationError Unit := do
  let settledRevision ← orRaise r.settledRevision
    (contractError "invalid_task_plan_limit" "settled_revision must be a non-negative integer"
      [("field", .str "settled_revision")])
  positiveInt settledRevision "settled_revision"
  require (r.reservedRevision < settledRevision)
    (invalidSnapshot "budget settlement revision must follow reservation")
  require (∀ d, (parent.get d).isSome = true →
      r.consumed.amount d + r.released.amount d = r.requested.amount d)
    (invalidSnapshot "budget settlement does not partition the reservation")

/-- The checks of a record that depend on its status. -/
def checkStatus (parent : Amounts) (seen : SeenRecords) (r : BudgetRecord) :
    Except HarnessValidationError Unit :=
  match r.status with
  | .reserved => checkReserved seen r
  | .settled => do checkPartition parent r; checkSettled r
  | .released => do checkPartition parent r; checkReleased r
  | .terminated => do checkPartition parent r; checkTerminated sha256 r

/-- One turn of the constructor's loop over the records. -/
def checkRecord (f : LedgerFields) (parent : Amounts) (seen : SeenRecords)
    (entry : String × BudgetRecord) : Except HarnessValidationError Unit := do
  let r := entry.2
  require (r.schemaVersion = taskPlanBudgetRecordSchema ∧ r.reservationKey = entry.1)
    (invalidSnapshot "budget record schema or reservation key is invalid")
  let i ← TaskInstance.fromDict sha256 r.taskInstance
  require (i.fields.runId = f.runId ∧ i.fields.stageId = f.stageId ∧
      i.fields.idempotencyKey = entry.1)
    (identityConflict "budget reservation owner or identity conflicts")
  require (i.fields.taskInstanceId ∉ seen.instanceIds ∧
      (i.fields.planId, i.fields.taskId, i.fields.attempt) ∉ seen.identities)
    (identityConflict "budget reservation attempt identity conflicts")
  let consumed ← budgetAllocation r.consumed
  let released ← budgetAllocation r.released
  require (consumed.SameFields parent ∧ released.SameFields parent ∧
      i.fields.budgetSnapshot.SameFields parent)
    ⟨"reservation dimensions differ from parent policy", "task_plan_budget_policy_missing", []⟩
  positiveInt r.reservedRevision "reserved_revision"
  checkStatus sha256 parent seen r

/-- One turn of the constructor's loop over the retry history: the previous
attempt of the same task is settled before, and has a lower number in one plan. -/
def checkRetry (previousAttempts : PyDict String BudgetRecord) (r : BudgetRecord) :
    Except HarnessValidationError (PyDict String BudgetRecord) := do
  match previousAttempts.get? r.taskId with
  | none => return previousAttempts.set r.taskId r
  | some previous =>
    require (∃ settled ∈ previous.settledRevision, settled < r.reservedRevision)
      (identityConflict "retry history overlaps an unsettled reservation")
    require (previous.taskInstance.fields.planId = r.taskInstance.fields.planId →
        previous.taskInstance.fields.attempt < r.taskInstance.fields.attempt)
      (identityConflict "retry history reuses an earlier attempt")
    return previousAttempts.set r.taskId r

/-- `counters()`: the amounts reserved, consumed and released. -/
structure Counters where
  reserved : Amounts
  consumed : Amounts
  released : Amounts
  deriving DecidableEq

namespace LedgerFields

section

variable (f : LedgerFields)

/-- One counter over the fields of the parent allocation. -/
def counter (amount : BudgetRecord → BudgetField → ℕ) : Amounts :=
  Amounts.ofFn fun d =>
    (f.parentAllocation.get d).map fun _ => PyDict.sumOf (fun r => amount r d) f.records

def counters : Counters where
  reserved := f.counter BudgetRecord.outstanding
  consumed := f.counter fun r d => r.consumed.amount d
  released := f.counter fun r d => r.released.amount d

def allocatedTotals : Amounts :=
  Amounts.ofFn fun d => (f.parentAllocation.get d).map fun _ =>
    f.counters.consumed.amount d + f.counters.released.amount d + f.counters.reserved.amount d

/-- The records by reserved revision. -/
def byRevision : List BudgetRecord :=
  f.records.values.insertionSort fun r s => r.reservedRevision ≤ s.reservedRevision

/-- `TaskPlanBudgetLedger.__post_init__`. -/
def check : Except HarnessValidationError Unit := do
  identifier f.runId "run_id"
  identifier f.stageId "stage_id"
  exactReference f.policyRef "policy_ref"
  let parent ← budgetAllocation f.parentAllocation
  require (f.records.length ≤ 4096)
    (invalidSnapshot "budget reservation history exceeds its bound")
  let seen ← f.records.foldlM
    (fun seen entry => do checkRecord sha256 f parent seen entry; .ok (seen.add entry))
    SeenRecords.none
  require (seen.revisions.length = f.ledgerVersion ∧
      seen.revisions.insertionSort (· ≤ ·) = List.range' 1 seen.revisions.length)
    (invalidSnapshot "budget ledger revisions are not contiguous")
  let _ ← f.byRevision.foldlM checkRetry []
  require (∀ d, f.allocatedTotals.amount d ≤ parent.amount d)
    ⟨"budget reservations exceed the parent allocation", "task_plan_budget_exceeded", []⟩

end

/-- The ledger as JSON, without its checksum. -/
def toJson (f : LedgerFields) : Json :=
  .obj [("schema_version", .str taskPlanBudgetLedgerSchema), ("run_id", .str f.runId),
    ("stage_id", .str f.stageId), ("policy_ref", .str f.policyRef),
    ("parent_allocation", f.parentAllocation.toJson), ("ledger_version", .int f.ledgerVersion),
    ("records", .obj (f.records.map fun p => (p.1, p.2.toJson)))]

end LedgerFields

/-- `TaskPlanBudgetLedger`: fields that pass its constructor. -/
structure TaskPlanBudgetLedger where
  fields : LedgerFields
  valid : fields.check sha256 = .ok ()

/-- `to_dict()` of a ledger. -/
structure LedgerDict where
  schemaVersion : String
  fields : LedgerFields
  ledgerChecksum : String
  deriving DecidableEq

/-- `snapshot()`: the counters and the ledger. -/
structure BudgetSnapshot where
  counters : Counters
  ledger : LedgerDict
  deriving DecidableEq

namespace TaskPlanBudgetLedger

variable {sha256}

theorem ext {a b : TaskPlanBudgetLedger sha256} (h : a.fields = b.fields) : a = b := by
  cases a
  cases b
  simpa using h

variable (sha256) in
/-- The constructor. -/
def construct (f : LedgerFields) : Except HarnessValidationError (TaskPlanBudgetLedger sha256) :=
  match h : f.check sha256 with
  | .ok () => .ok ⟨f, h⟩
  | .error e => .error e

/-- The constructor keeps its arguments. -/
theorem construct_eq_ok {f : LedgerFields} {l : TaskPlanBudgetLedger sha256} :
    construct sha256 f = .ok l ↔ l.fields = f := by
  unfold construct
  split
  · rename_i h
    constructor
    · intro hl
      cases hl
      rfl
    · intro hl
      exact congrArg _ (ext hl.symm)
  · rename_i e h
    constructor
    · intro hl
      cases hl
    · -- a ledger's fields pass the check, so this branch is not taken
      rintro rfl
      rw [l.valid] at h
      cases h

variable (sha256) in
/-- `for_plan`, on what it reads of the plan. -/
def forPlan (runId stageId policyRef : String) (aggregateTaskBudget : TaskBudget) :
    Except HarnessValidationError (TaskPlanBudgetLedger sha256) :=
  construct sha256 ⟨runId, stageId, policyRef, aggregateTaskBudget.amounts, [], 0⟩

/-! ## Snapshots -/

section

variable (l : TaskPlanBudgetLedger sha256)

/-- The checksum of a ledger's dictionary. -/
def ledgerChecksum : String :=
  canonicalPayloadChecksum sha256 l.fields.toJson

def toDict : LedgerDict :=
  ⟨taskPlanBudgetLedgerSchema, l.fields, l.ledgerChecksum⟩

def snapshot : BudgetSnapshot := ⟨l.fields.counters, l.toDict⟩

end

variable (sha256) in
def fromSnapshot (s : BudgetSnapshot) :
    Except HarnessValidationError (TaskPlanBudgetLedger sha256) := do
  let parent ← budgetAllocation s.ledger.fields.parentAllocation
  require (s.counters.reserved.SameFields parent ∧ s.counters.consumed.SameFields parent ∧
      s.counters.released.SameFields parent)
    (contractError "invalid_task_plan_payload_fields"
      "TaskPlanBudgetSnapshot payload fields do not match the contract"
      [("model", .str "TaskPlanBudgetSnapshot")])
  checksum s.ledger.ledgerChecksum "ledger_checksum"
  require (s.ledger.schemaVersion = taskPlanBudgetLedgerSchema)
    (invalidSnapshot "budget ledger schema is unsupported")
  require (s.ledger.ledgerChecksum = canonicalPayloadChecksum sha256 s.ledger.fields.toJson)
    (checksumMismatch "budget ledger checksum mismatch")
  let ledger ← construct sha256 s.ledger.fields
  require (s.counters = ledger.fields.counters)
    (checksumMismatch "budget counters differ from per-attempt ledger")
  return ledger

/-! ## Operations -/

/-- A record that keeps a new attempt of its task from being reserved. -/
def Blocks (r : BudgetRecord) (i : InstanceFields) : Prop :=
  r.taskId = i.taskId ∧ (r.status = .reserved ∨
    (r.taskInstance.fields.planId = i.planId ∧ i.attempt ≤ r.taskInstance.fields.attempt))

instance (r : BudgetRecord) (i : InstanceFields) : Decidable (Blocks r i) :=
  inferInstanceAs (Decidable (_ ∧ _))

/-- The record of a new reservation. -/
def newRecord (parent : Amounts) (i : InstanceDict) (revision : ℕ) : BudgetRecord where
  schemaVersion := taskPlanBudgetRecordSchema
  reservationKey := i.fields.idempotencyKey
  taskInstance := i
  status := .reserved
  consumed := parent.zeros
  released := parent.zeros
  resultChecksum := none
  reasonCode := none
  reservedRevision := revision
  settledRevision := none
  settlementReceipt := none

/-- One turn of the loop of `reserve`, on the records and the revision. -/
def reserveOne (f : LedgerFields) (state : PyDict String BudgetRecord × ℕ)
    (i : TaskInstance sha256) : Except HarnessValidationError (PyDict String BudgetRecord × ℕ) := do
  require (i.fields.runId = f.runId ∧ i.fields.stageId = f.stageId)
    (identityConflict "budget reservation owner identity conflicts")
  match state.1.get? i.fields.idempotencyKey with
  | some existing =>
    require (existing.taskInstance = i.toDict)
      (identityConflict "budget reservation identity conflicts")
    require (existing.status = .reserved)
      (identityConflict "terminal reservation cannot fund execution")
    return state
  | none =>
    require (∀ r ∈ state.1.values, ¬ Blocks r i.fields)
      (identityConflict "retry requires a new attempt after terminal settlement")
    return (state.1.set i.fields.idempotencyKey
      (newRecord f.parentAllocation i.toDict (state.2 + 1)), state.2 + 1)

section

variable (l : TaskPlanBudgetLedger sha256)

def reserve (instances : List (TaskInstance sha256)) :
    Except HarnessValidationError (TaskPlanBudgetLedger sha256) := do
  let state ← instances.foldlM (reserveOne l.fields) (l.fields.records, l.fields.ledgerVersion)
  if state.2 = l.fields.ledgerVersion then return l
  else construct sha256 { l.fields with records := state.1, ledgerVersion := state.2 }

/-- `_attempt`: the first record of an attempt. -/
def attemptRecord (taskInstanceId : Option String)
    (taskId : String) (attempt : ℕ) : Except HarnessValidationError (String × BudgetRecord) :=
  orRaise (l.fields.records.find? fun p => decide (p.2.IsAttempt taskInstanceId taskId attempt))
    ⟨"result or release has no matching budget reservation",
      "task_plan_budget_reservation_missing", []⟩

/-- `_terminal`: write the updated record at the next revision. -/
def terminal (key : String) (updated : BudgetRecord) :
    Except HarnessValidationError (TaskPlanBudgetLedger sha256) :=
  construct sha256 { l.fields with
    records := l.fields.records.set key
      { updated with settledRevision := some (l.fields.ledgerVersion + 1) }
    ledgerVersion := l.fields.ledgerVersion + 1 }

end

/-- `allocation[name] - consumed[name]` for every name. -/
def remainder (allocation consumed : Amounts) : Amounts :=
  Amounts.ofFn fun d => (allocation.get d).map fun n => n - consumed.amount d

/-- The check of `settle` that the accepted allocation is the reserved one. -/
def checkExpectedAllocation (expectedAllocation : Option Amounts) (allocation : Amounts) :
    Except HarnessValidationError Unit :=
  match expectedAllocation with
  | none => .ok ()
  | some expected => do
    let expected ← budgetAllocation expected
    require (expected = allocation)
      (identityConflict "accepted allocation and budget reservation identity conflicts")

def settle (l : TaskPlanBudgetLedger sha256) (result : TaskResultRecord)
    (expectedAllocation : Option Amounts) :
    Except HarnessValidationError (TaskPlanBudgetLedger sha256) := do
  let (key, record) ← l.attemptRecord (some result.taskInstanceId) result.taskId result.attempt
  let i := record.taskInstance.fields
  require (result.runId = i.runId ∧ result.stageId = i.stageId ∧ result.planId = i.planId ∧
      result.planVersion = i.planVersion ∧ result.graphChecksum = i.graphChecksum ∧
      result.workerRef = i.workerRef ∧
      result.stageIdentityChecksum = i.graph.stageIdentityChecksum ∧
      result.taskChecksum = i.taskDefinitionChecksum)
    (identityConflict "result and budget reservation identity conflicts")
  checkExpectedAllocation expectedAllocation record.requested
  let consumed ← resultBudgetUsage result.usage record.requested
  let released := remainder record.requested consumed
  if record.status = .settled ∧ record.resultChecksum = some result.resultChecksum then do
    require (record.consumed = consumed ∧ record.released = released)
      (settlementConflict "recorded settlement conflicts with result usage")
    return l
  else do
    require (record.status = .reserved)
      (settlementConflict "conflicting duplicate budget settlement")
    l.terminal key { record with
      status := .settled, consumed := consumed, released := released
      resultChecksum := some result.resultChecksum }

def releaseUnstarted (l : TaskPlanBudgetLedger sha256) (taskInstanceId : Option String)
    (taskId : String) (attempt : ℕ) (reasonCode : String) :
    Except HarnessValidationError (TaskPlanBudgetLedger sha256) := do
  requiredText reasonCode "reason_code" 512
  let (key, record) ← l.attemptRecord taskInstanceId taskId attempt
  if record.status = .released ∧ record.reasonCode = some reasonCode then return l
  else do
    require (record.status = .reserved)
      (settlementConflict "conflicting duplicate budget release")
    l.terminal key { record with
      status := .released, released := record.requested, reasonCode := some reasonCode }

/-- `BudgetSettlementReadPort`: reads verified evidence by source receipt checksum
and reservation key. -/
abbrev BudgetSettlementReadPort := String → String → Option BudgetSettlementReceipt

def settleTerminated (l : TaskPlanBudgetLedger sha256) (i : TaskInstance sha256)
    (receipt : BudgetSettlementReceipt) (authority : BudgetSettlementReadPort) :
    Except HarnessValidationError (TaskPlanBudgetLedger sha256) := do
  validateTerminationReceipt i.toDict receipt
  let verified := authority receipt.fields.sourceReceiptChecksum receipt.fields.reservationKey
  require (∃ v ∈ verified, (v.toDict sha256).eq (receipt.toDict sha256))
    ⟨"budget settlement differs from authenticated evidence",
      "task_plan_budget_receipt_unverified", []⟩
  let (key, record) ← l.attemptRecord (some i.fields.taskInstanceId) i.fields.taskId
    i.fields.attempt
  require (record.taskInstance = i.toDict)
    (identityConflict "lifecycle receipt differs from reserved attempt")
  let consumed ← resultBudgetUsage receipt.fields.measurements i.fields.budgetSnapshot
  let released := remainder i.fields.budgetSnapshot consumed
  if record.status = .reserved then
    l.terminal key { record with
      status := .terminated, consumed := consumed, released := released
      reasonCode := some receipt.fields.reasonCode
      settlementReceipt := some (receipt.toDict sha256) }
  else do
    require (record.status = .terminated ∧ record.consumed = consumed ∧
        record.released = released ∧ record.reasonCode = some receipt.fields.reasonCode ∧
        ∃ recorded ∈ record.settlementReceipt, recorded.eq (receipt.toDict sha256))
      (settlementConflict "conflicting lifecycle budget settlement")
    return l

end TaskPlanBudgetLedger

end TaskPlan
