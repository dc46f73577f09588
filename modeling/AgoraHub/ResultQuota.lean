/-
# The quota of graph results

The quota part of `SQLiteGraphResultStore`: reservations of bytes and objects, their
settlement and the reconciliation of abandoned ones.  Each call is one write
transaction, so it either returns with a new store or raises and leaves the store as
it was.
-/
import AgoraHub.ResultModels
import AgoraHub.KeyedList

namespace ResultQuota

open Fallible GraphResult

/-! ## Records -/

inductive ResultMaterializationOutcome where
  | succeeded
  | omitted
  | failed
  deriving DecidableEq

/-- The tenant, the run and the key of a reservation. -/
structure QuotaKey where
  tenantId : String
  runId : String
  reservationKey : String
  deriving DecidableEq

structure ResultQuotaReservation extends QuotaKey where
  reservationId : String
  graphId : String
  nodeId : String
  artifactClass : ArtifactClass
  retentionClass : RetentionClass
  policyVersion : String
  generation : ℕ
  reservedBytes : ℕ
  objectCount : ℕ
  deriving DecidableEq

/-- The text `_reservation_id` hashes is that of a key and a generation. -/
structure ReservationIdentity extends QuotaKey where
  generation : ℕ
  deriving DecidableEq

/-- The identity of a reservation. -/
def ResultQuotaReservation.identity (r : ResultQuotaReservation) : ReservationIdentity :=
  ⟨r.toQuotaKey, r.generation⟩

structure SettlementPayload where
  reservationId : String
  actualBytes : ℕ
  objectCount : ℕ
  outcome : ResultMaterializationOutcome
  deriving DecidableEq

/-- The SHA-256 digests of the JSON texts that the store hashes. -/
structure QuotaDigests where
  identity : ReservationIdentity → HexDigest
  reservation : ResultQuotaReservation → HexDigest
  settlement : SettlementPayload → HexDigest

def QuotaDigests.reservationId (d : QuotaDigests) (i : ReservationIdentity) : String :=
  "quota-reservation://" ++ i.tenantId ++ "/" ++ (d.identity i).text ++ "/" ++
    toString i.generation

inductive GraphArtifactUsageKind where
  | materialization
  | other (value : String)
  deriving DecidableEq

inductive GraphArtifactUsageOutcome where
  | succeeded
  | failed
  | omitted
  | other (value : String)
  deriving DecidableEq

/-- The fields of a usage fact that `_same_usage_operation` compares. -/
structure UsageOperation where
  factId : String
  kind : GraphArtifactUsageKind
  outcome : GraphArtifactUsageOutcome
  tenantId : String
  runId : Option String
  graphId : Option String
  nodeId : Option String
  artifactClass : Option ArtifactClass
  retentionClass : Option RetentionClass
  policyVersion : String
  operationId : String
  logicalBytes : ℕ
  physicalBytes : ℕ
  loadedBytes : ℕ
  loadedTokens : ℕ
  objectCount : ℕ
  reasonCode : Option String
  deriving DecidableEq

structure GraphArtifactUsageFact extends UsageOperation where
  occurredAt : ℤ
  factChecksum : HexDigest
  deriving DecidableEq

structure ResultQuotaReconciliationEvidence where
  reservationId : String
  attemptCommitted : Bool
  catalogClaimCommitted : Bool
  cacheEntryCommitted : Bool
  physicalOperationCommitted : Bool
  evidenceRefs : List String
  observedAt : ℤ
  evidenceChecksum : HexDigest
  deriving DecidableEq

def ResultQuotaReconciliationEvidence.provesAbsence (e : ResultQuotaReconciliationEvidence) :
    Bool :=
  !(e.attemptCommitted || e.catalogClaimCommitted || e.cacheEntryCommitted ||
    e.physicalOperationCommitted)

/-! ## Tables -/

/-- A row of `graph_result_quota_reservations`. -/
structure QuotaRow where
  reservation : ResultQuotaReservation
  reservationChecksum : HexDigest
  actualBytes : Option ℕ
  actualObjects : Option ℕ
  outcome : Option ResultMaterializationOutcome
  settlementChecksum : Option HexDigest
  createdAt : ℤ
  settledAt : Option ℤ
  deriving DecidableEq

/-- The primary key of a row. -/
def QuotaRow.id (row : QuotaRow) : String := row.reservation.reservationId

/-- The tables that the quota calls read and write. -/
structure QuotaStore where
  rows : List QuotaRow
  reconciliations : List ResultQuotaReconciliationEvidence
  usage : List GraphArtifactUsageFact
  deriving DecidableEq

/-- The tables of a new database. -/
def QuotaStore.empty : QuotaStore := ⟨[], [], []⟩

/-- The rows of a key. -/
def QuotaStore.rowsOf (store : QuotaStore) (key : QuotaKey) : List QuotaRow :=
  store.rows.filter fun row => decide (row.reservation.toQuotaKey = key)

/-- `ORDER BY generation DESC LIMIT 1`. -/
def QuotaStore.latest (store : QuotaStore) (key : QuotaKey) : Option QuotaRow :=
  (store.rowsOf key).argmax fun row => row.reservation.generation

/-- The row of a reservation id. -/
def QuotaStore.find? (store : QuotaStore) (id : String) : Option QuotaRow :=
  KeyedList.find? QuotaRow.id store.rows id

/-! ## Reading rows -/

/-- The error of a row that cannot be read. -/
def unreadable : GraphArtifactResultError := ⟨.artifactQuotaReservationFailed, "quota.record"⟩

/-- The payload of a row with the given settlement. -/
def settlementPayload (r : ResultQuotaReservation) (actual objects : ℕ)
    (outcome : ResultMaterializationOutcome) : SettlementPayload :=
  ⟨r.reservationId, actual, objects, outcome⟩

/-- The amounts that a settlement may have. -/
def AmountsFit (r : ResultQuotaReservation) (actual objects : ℕ)
    (outcome : ResultMaterializationOutcome) : Prop :=
  actual ≤ r.reservedBytes ∧ objects ≤ r.objectCount ∧
    (outcome ≠ .succeeded → actual = 0 ∧ objects = 0)

instance (r : ResultQuotaReservation) (actual objects : ℕ)
    (outcome : ResultMaterializationOutcome) : Decidable (AmountsFit r actual objects outcome) :=
  inferInstanceAs (Decidable (_ ∧ _))

def reservationFromRow (d : QuotaDigests) (row : QuotaRow) : Except GraphArtifactResultError
      (ResultQuotaReservation × Option ResultMaterializationOutcome) := do
  let r := row.reservation
  require (1 ≤ r.generation ∧ 1 ≤ r.objectCount ∧
    r.reservationId = d.reservationId r.identity ∧ d.reservation r = row.reservationChecksum)
    unreadable
  match row.outcome with
  | none =>
    require (row.actualBytes = none ∧ row.actualObjects = none ∧ row.settlementChecksum = none ∧
      row.settledAt = none) unreadable
    .ok (r, none)
  | some outcome =>
    let actual ← orRaise row.actualBytes unreadable
    let objects ← orRaise row.actualObjects unreadable
    let settledAt ← orRaise row.settledAt unreadable
    require (AmountsFit r actual objects outcome ∧ row.createdAt ≤ settledAt ∧
      row.settlementChecksum = some (d.settlement (settlementPayload r actual objects outcome)))
      unreadable
    .ok (r, some outcome)

structure PersistenceBudgetSnapshot where
  materializedBytes : ℕ
  artifactCount : ℕ
  deriving DecidableEq

/-- The rows that `_quota_usage` sums: those of a run, of a tenant or of an artifact
class of a tenant. -/
inductive QuotaScope where
  | run (tenantId runId : String)
  | tenant (tenantId : String)
  | artifactClass (tenantId : String) (kind : ArtifactClass)
  deriving DecidableEq

/-- The `WHERE` clause of a scope. -/
def QuotaScope.covers (scope : QuotaScope) (r : ResultQuotaReservation) : Bool :=
  match scope with
  | .run tenantId runId => decide (r.tenantId = tenantId ∧ r.runId = runId)
  | .tenant tenantId => decide (r.tenantId = tenantId)
  | .artifactClass tenantId kind => decide (r.tenantId = tenantId ∧ r.artifactClass = kind)

/-- One turn of the loop of `_quota_usage`. -/
def addRow (d : QuotaDigests) (sum : PersistenceBudgetSnapshot) (row : QuotaRow) :
    Except GraphArtifactResultError PersistenceBudgetSnapshot := do
  let (r, outcome) ← reservationFromRow d row
  match outcome with
  | none => .ok ⟨sum.materializedBytes + r.reservedBytes, sum.artifactCount + r.objectCount⟩
  | some .succeeded => do
    let actual ← orRaise row.actualBytes unreadable
    let objects ← orRaise row.actualObjects unreadable
    .ok ⟨sum.materializedBytes + actual, sum.artifactCount + objects⟩
  | some _ => .ok sum

def quotaUsage (d : QuotaDigests) (rows : List QuotaRow) (scope : QuotaScope) :
    Except GraphArtifactResultError PersistenceBudgetSnapshot :=
  (rows.filter fun row => scope.covers row.reservation).foldlM (addRow d) ⟨0, 0⟩

/-! ## reserve -/

/-- The limits of the constructor, in bytes and in objects. -/
structure QuotaLimits where
  perRun : PersistenceBudgetSnapshot
  perTenant : PersistenceBudgetSnapshot
  perClass : PersistenceBudgetSnapshot
  positive : ∀ limit ∈ [perRun, perTenant, perClass],
    1 ≤ limit.materializedBytes ∧ 1 ≤ limit.artifactCount
  fit : ∀ limit ∈ [perRun, perClass], limit.materializedBytes ≤ perTenant.materializedBytes ∧
    limit.artifactCount ≤ perTenant.artifactCount

/-- The limit of a scope. -/
def QuotaLimits.of (limits : QuotaLimits) : QuotaScope → PersistenceBudgetSnapshot
  | .run _ _ => limits.perRun
  | .tenant _ => limits.perTenant
  | .artifactClass _ _ => limits.perClass

/-- The arguments of `reserve`. -/
structure ReserveRequest extends QuotaKey where
  graphId : String
  nodeId : String
  artifactClass : ArtifactClass
  retentionClass : RetentionClass
  policyVersion : String
  requestedBytes : ℤ
  objectCount : ℤ
  deriving DecidableEq

/-- The reservation that a request asks for. -/
def ReserveRequest.reservation (q : ReserveRequest) (d : QuotaDigests)
    (requested objects generation : ℕ) : ResultQuotaReservation where
  toQuotaKey := q.toQuotaKey
  reservationId := d.reservationId ⟨q.toQuotaKey, generation⟩
  graphId := q.graphId
  nodeId := q.nodeId
  artifactClass := q.artifactClass
  retentionClass := q.retentionClass
  policyVersion := q.policyVersion
  generation := generation
  reservedBytes := requested
  objectCount := objects

/-- A new row. -/
def pendingRow (d : QuotaDigests) (r : ResultQuotaReservation) (now : ℤ) : QuotaRow :=
  ⟨r, d.reservation r, none, none, none, none, now, none⟩

/-- `INSERT INTO graph_result_quota_reservations`, with the constraints of the table. -/
def QuotaStore.insert (store : QuotaStore) (row : QuotaRow) :
    Except GraphArtifactResultError QuotaStore := do
  require (row.id ∉ store.rows.map QuotaRow.id ∧
      row.reservation.identity ∉ store.rows.map fun old => old.reservation.identity)
    ⟨.artifactQuotaReservationFailed, "quota.reserve"⟩
  .ok { store with rows := store.rows ++ [row] }

/-- An amount fits beside what a scope uses. -/
def Room (limit usage : PersistenceBudgetSnapshot) (requested objects : ℕ) : Prop :=
  usage.materializedBytes + requested ≤ limit.materializedBytes ∧
    usage.artifactCount + objects ≤ limit.artifactCount

instance (limit usage : PersistenceBudgetSnapshot) (requested objects : ℕ) :
    Decidable (Room limit usage requested objects) :=
  inferInstanceAs (Decidable (_ ∧ _))

section Calls

variable (limits : QuotaLimits) (d : QuotaDigests)

/-- The rest of `reserve` once the generation is known. -/
def admitRequest (store : QuotaStore) (now : ℤ) (q : ReserveRequest)
    (requested objects generation : ℕ) :
    Except GraphArtifactResultError (Option ResultQuotaReservation × QuotaStore) := do
  let runUsage ← quotaUsage d store.rows (.run q.tenantId q.runId)
  let tenantUsage ← quotaUsage d store.rows (.tenant q.tenantId)
  let classUsage ← quotaUsage d store.rows (.artifactClass q.tenantId q.artifactClass)
  if Room limits.perRun runUsage requested objects ∧
      Room limits.perTenant tenantUsage requested objects ∧
      Room limits.perClass classUsage requested objects then
    let r := q.reservation d requested objects generation
    let store ← store.insert (pendingRow d r now)
    .ok (some r, store)
  else .ok (none, store)

def reserve (store : QuotaStore) (now : ℤ) (q : ReserveRequest) :
    Except GraphArtifactResultError (Option ResultQuotaReservation × QuotaStore) := do
  let requested ← nonNegativeInt q.requestedBytes "quota.requested_bytes"
  let objects ← positiveInt q.objectCount "quota.object_count"
  match store.latest q.toQuotaKey with
  | none => admitRequest limits d store now q requested objects 1
  | some row => do
    let (existing, outcome) ← reservationFromRow d row
    require (existing.reservedBytes = requested ∧ existing.objectCount = objects ∧
        existing.graphId = q.graphId ∧ existing.nodeId = q.nodeId ∧
        existing.artifactClass = q.artifactClass ∧ existing.retentionClass = q.retentionClass ∧
        existing.policyVersion = q.policyVersion)
      ⟨.resultIdentityConflict, "quota.reservation"⟩
    if outcome = some .failed then
      admitRequest limits d store now q requested objects (row.reservation.generation + 1)
    else .ok (some existing, store)

/-! ## settle -/

/-- The usage outcome of a settlement. -/
def usageOutcome : ResultMaterializationOutcome → GraphArtifactUsageOutcome
  | .succeeded => .succeeded
  | .failed => .failed
  | .omitted => .omitted

def validateSettlementUsage (r : ResultQuotaReservation) (fact : GraphArtifactUsageFact)
    (actual objects : ℕ) (outcome : ResultMaterializationOutcome) :
    Except GraphArtifactResultError Unit :=
  require (fact.kind = .materialization ∧ fact.outcome = usageOutcome outcome ∧
      fact.tenantId = r.tenantId ∧ fact.runId = some r.runId ∧ fact.graphId = some r.graphId ∧
      fact.nodeId = some r.nodeId ∧ fact.artifactClass = some r.artifactClass ∧
      fact.retentionClass = some r.retentionClass ∧ fact.policyVersion = r.policyVersion ∧
      fact.physicalBytes = actual ∧ fact.objectCount = objects)
    ⟨.artifactQuotaSettlementFailed, "quota.usage_fact"⟩

def putUsageRow (usage : List GraphArtifactUsageFact) (fact : GraphArtifactUsageFact) :
    Except GraphArtifactResultError (List GraphArtifactUsageFact) :=
  match usage.find? fun old => decide (old.factId = fact.factId) with
  | some existing => do
    require (existing.toUsageOperation = fact.toUsageOperation)
      ⟨.resultIdentityConflict, "usage.fact"⟩
    .ok usage
  | none => .ok (usage ++ [fact])

/-- `if usage_fact is not None: _put_usage_row(...)`. -/
def QuotaStore.putUsage (store : QuotaStore) (usage : Option GraphArtifactUsageFact) :
    Except GraphArtifactResultError QuotaStore :=
  match usage with
  | none => .ok store
  | some fact => do
    let facts ← putUsageRow store.usage fact
    .ok { store with usage := facts }

/-- The row with its settlement. -/
def QuotaRow.settled (row : QuotaRow) (d : QuotaDigests) (actual objects : ℕ)
    (outcome : ResultMaterializationOutcome) (settledAt : ℤ) : QuotaRow :=
  { row with
    actualBytes := some actual
    actualObjects := some objects
    outcome := some outcome
    settlementChecksum := some (d.settlement (settlementPayload row.reservation actual objects
      outcome))
    settledAt := some settledAt }

/-- `UPDATE ... WHERE reservation_id = ? AND outcome IS NULL`, for the pending row read in
the same transaction. -/
def QuotaStore.settleRow (store : QuotaStore) (row : QuotaRow) : QuotaStore :=
  { store with rows := KeyedList.replace QuotaRow.id store.rows row }

/-- The arguments of `settle`. -/
structure SettleRequest where
  reservation : ResultQuotaReservation
  actualBytes : ℤ
  objectCount : ℤ
  outcome : ResultMaterializationOutcome
  usageFact : Option GraphArtifactUsageFact
  deriving DecidableEq

/-- `if usage_fact is not None: _validate_settlement_usage(...)`. -/
def SettleRequest.validateUsage (q : SettleRequest) (actual objects : ℕ) :
    Except GraphArtifactResultError Unit :=
  match q.usageFact with
  | none => .ok ()
  | some fact => validateSettlementUsage q.reservation fact actual objects q.outcome

def settle (store : QuotaStore) (now : ℤ) (q : SettleRequest) :
    Except GraphArtifactResultError (Unit × QuotaStore) := do
  let actual ← nonNegativeInt q.actualBytes "quota.actual_bytes"
  let objects ← nonNegativeInt q.objectCount "quota.object_count"
  require (AmountsFit q.reservation actual objects q.outcome)
    ⟨.artifactQuotaSettlementFailed, "quota.settlement"⟩
  q.validateUsage actual objects
  let row ← orRaise (store.find? q.reservation.reservationId)
    ⟨.artifactQuotaSettlementFailed, "quota.reservation"⟩
  let (stored, storedOutcome) ← reservationFromRow d row
  require (stored = q.reservation) ⟨.artifactScopeMismatch, "quota.reservation"⟩
  match storedOutcome with
  | some outcome => do
    require (outcome = q.outcome ∧ row.actualBytes = some actual ∧
        row.actualObjects = some objects ∧ row.settlementChecksum = some (d.settlement
          (settlementPayload q.reservation actual objects q.outcome)))
      ⟨.artifactQuotaSettlementFailed, "quota.settlement"⟩
    let store ← store.putUsage q.usageFact
    .ok ((), store)
  | none => do
    let store ← (store.settleRow (row.settled d actual objects q.outcome now)).putUsage q.usageFact
    .ok ((), store)

/-! ## reconcile_pending -/

/-- Record the evidence, unless it is recorded already. -/
def QuotaStore.putEvidence (store : QuotaStore) (e : ResultQuotaReconciliationEvidence) :
    Except GraphArtifactResultError QuotaStore :=
  match store.reconciliations.find? fun old => decide (old.evidenceChecksum = e.evidenceChecksum)
  with
  | some existing => do
    require (existing = e) ⟨.artifactQuotaSettlementFailed, "quota.reconciliation"⟩
    .ok store
  | none => .ok { store with reconciliations := store.reconciliations ++ [e] }

def reconcilePending (store : QuotaStore) (e : ResultQuotaReconciliationEvidence) :
    Except GraphArtifactResultError (ResultQuotaReservation × QuotaStore) := do
  let row ← orRaise (store.find? e.reservationId)
    ⟨.artifactQuotaSettlementFailed, "quota.reservation"⟩
  let (r, outcome) ← reservationFromRow d row
  if outcome ≠ none then .ok (r, store)
  else
    require (row.createdAt ≤ e.observedAt)
      ⟨.artifactQuotaSettlementFailed, "quota.reconciliation"⟩
    let store ← store.putEvidence e
    if e.provesAbsence then .ok (r, store.settleRow (row.settled d 0 0 .failed e.observedAt))
    else .ok (r, store)

/-! ## Steps -/

/-- A call, with its arguments. -/
inductive QuotaCall where
  | reserve (q : ReserveRequest)
  | settle (q : SettleRequest)
  | reconcilePending (e : ResultQuotaReconciliationEvidence)
  deriving DecidableEq

/-- A call of one of the callers and the clock it reads. -/
structure QuotaStep where
  call : QuotaCall
  clock : ℤ
  deriving DecidableEq

/-- The store after a transaction: a call that raises is rolled back. -/
def QuotaStore.after {α : Type} (store : QuotaStore)
    (x : Except GraphArtifactResultError (α × QuotaStore)) : QuotaStore :=
  match x with
  | .ok (_, store') => store'
  | .error _ => store

/-- The store after a step. -/
def QuotaStep.apply (store : QuotaStore) (step : QuotaStep) : QuotaStore :=
  match step.call with
  | .reserve q => store.after (reserve limits d store step.clock q)
  | .settle q => store.after (settle d store step.clock q)
  | .reconcilePending e => store.after (reconcilePending d store e)

end Calls

end ResultQuota
