/-
# Records of a collection

What `GraphArtifactGovernanceRuntime` plans and stores about the collection of an entry: the
plan, the intent of an operation, what each of its steps has brought, and the operation.  A
record that its constructor refuses cannot be built.
-/
import AgoraHub.CatalogDocument

namespace ArtifactGovernance

open Fallible GraphResult ArtifactCatalog

/-! ## Plans -/

structure ArtifactCatalogSnapshot where
  entries : List ArtifactCatalogEntry
  claims : List ArtifactCatalogClaim
  references : List ArtifactLogicalReference
  deriving DecidableEq

/-- `_catalog_snapshot`, of one tenant. -/
def catalogSnapshot {d : CatalogDigests} (state : CatalogState d) (tenantId : String) :
    ArtifactCatalogSnapshot :=
  let entries := state.entries.values.filter fun e => decide (e.identity.tenantId = tenantId)
  let entryIds := entries.map (ArtifactCatalogEntry.entryId d)
  { entries := entries
    claims := state.claims.values.filter fun claim => decide (claim.entryId d ∈ entryIds)
    references := state.references.values.filter fun r => decide (r.entryId ∈ entryIds) }

structure ArtifactCatalogGcPlan where
  generatedAt : ℤ
  decisions : List ArtifactCatalogGcDecision
  catalogSnapshotChecksum : HexDigest
  policyVersion : String
  deriving DecidableEq

/-! ## Intents -/

structure GraphArtifactGcOperationIntent (d : CatalogDigests) where
  tenantId : String
  planChecksum : HexDigest
  catalogSnapshotChecksum : HexDigest
  policyVersion : String
  decision : ArtifactCatalogGcDecision
  entry : ArtifactCatalogEntry
  claims : List ArtifactCatalogClaim
  references : List ArtifactLogicalReference
  preparedAt : ℤ
  decided : decision.action = .deleteCandidate ∧ decision.tenantId = tenantId
  entry_of : entry.entryId d = decision.entryId ∧ entry.identity.tenantId = tenantId ∧
    entry.record.ref = decision.ref ∧ entry.record.byteSize = decision.byteSize
  evidence : claims.map (ArtifactCatalogClaim.claimId d) = decision.claimIds ∧
    references.map (ArtifactLogicalReference.referenceId d) = decision.referenceIds ∧
    (∀ claim ∈ claims, claim.entryId d = entry.entryId d ∧ claim.record.tenantId = tenantId) ∧
    ∀ r ∈ references, r.entryId = entry.entryId d ∧ r.tenantId = tenantId
  deriving DecidableEq

def GraphArtifactGcOperationIntent.create {d : CatalogDigests} (tenantId : String)
    (planChecksum catalogSnapshotChecksum : HexDigest) (policyVersion : String)
    (decision : ArtifactCatalogGcDecision) (entry : ArtifactCatalogEntry)
    (claims : List ArtifactCatalogClaim) (references : List ArtifactLogicalReference)
    (preparedAt : ℤ) : Except GraphArtifactResultError (GraphArtifactGcOperationIntent d) :=
  if hdecided : decision.action = .deleteCandidate ∧ decision.tenantId = tenantId then
    if hentry : entry.entryId d = decision.entryId ∧ entry.identity.tenantId = tenantId ∧
        entry.record.ref = decision.ref ∧ entry.record.byteSize = decision.byteSize then
      if hevidence : claims.map (ArtifactCatalogClaim.claimId d) = decision.claimIds ∧
          references.map (ArtifactLogicalReference.referenceId d) = decision.referenceIds ∧
          (∀ claim ∈ claims, claim.entryId d = entry.entryId d ∧ claim.record.tenantId = tenantId) ∧
          ∀ r ∈ references, r.entryId = entry.entryId d ∧ r.tenantId = tenantId then
        .ok ⟨tenantId, planChecksum, catalogSnapshotChecksum, policyVersion, decision, entry, claims,
          references, preparedAt, hdecided, hentry, hevidence⟩
      else .error ⟨.resultSchemaInvalid, "gc_intent.evidence"⟩
    else .error ⟨.resultSchemaInvalid, "gc_intent.entry"⟩
  else .error ⟨.resultSchemaInvalid, "gc_intent.decision"⟩

/-- `ArtifactCatalogGcDetachRequest.create` of `_detach_candidate`. -/
def GraphArtifactGcOperationIntent.detachRequest {d : CatalogDigests}
    (intent : GraphArtifactGcOperationIntent d) : ArtifactCatalogGcDetachRequest :=
  ⟨intent.decision, intent.preparedAt, intent.decided.1⟩

/-! ## What the steps of an operation bring -/

/-- `GraphArtifactPhysicalDeleteRequest`; its checksums are those of its operation. -/
structure GraphArtifactPhysicalDeleteRequest where
  record : ArtifactRecord
  detachReceipt : ArtifactCatalogGcDetachReceipt
  requestedAt : ℤ
  detached : detachReceipt.entry.record = record
  deriving DecidableEq

/-- `GraphArtifactPhysicalDeleteRequest.create` of `_detach_candidate`. -/
def GraphArtifactPhysicalDeleteRequest.create (record : ArtifactRecord)
    (receipt : ArtifactCatalogGcDetachReceipt) :
    Except GraphArtifactResultError GraphArtifactPhysicalDeleteRequest :=
  if h : receipt.entry.record = record then .ok ⟨record, receipt, receipt.detachedAt, h⟩
  else .error ⟨.resultSchemaInvalid, "gc_delete.detach_receipt"⟩

structure GraphArtifactQuarantineReceipt where
  operationId : String
  ref : String
  contentChecksum : HexDigest
  byteSize : ℕ
  quarantinedAt : ℤ
  deriving DecidableEq

structure GraphArtifactDeletionReceipt where
  operationId : String
  quarantineReceiptChecksum : HexDigest
  ref : String
  contentChecksum : HexDigest
  byteSize : ℕ
  deletedAt : ℤ
  deriving DecidableEq

/-! ## Operations -/

inductive GraphArtifactGcOperationState where
  | prepared
  | catalogDetached
  | quarantined
  | purged
  | completed
  | stale
  | retryableFailure
  deriving DecidableEq

/-- `_TERMINAL_GC_STATES`. -/
def GraphArtifactGcOperationState.terminal : GraphArtifactGcOperationState → Bool
  | .completed | .stale => true
  | _ => false

/-- The fields of a `GraphArtifactGcOperation`. -/
structure GcOperationFields (d : CatalogDigests) where
  state : GraphArtifactGcOperationState
  intent : GraphArtifactGcOperationIntent d
  request : Option GraphArtifactPhysicalDeleteRequest
  quarantine : Option GraphArtifactQuarantineReceipt
  deletion : Option GraphArtifactDeletionReceipt
  errorCode : Option GraphArtifactResultErrorCode
  updatedAt : ℤ
  deriving DecidableEq

/-- The text that `_gc_intent_identity` hashes is that of these three. -/
structure OperationIdentity where
  tenantId : String
  planChecksum : HexDigest
  decisionChecksum : HexDigest
  deriving DecidableEq

/-- The SHA-256 digests of the texts of the records. -/
structure GovernanceDigests (d : CatalogDigests) where
  snapshot : ArtifactCatalogSnapshot → HexDigest
  decision : ArtifactCatalogGcDecision → HexDigest
  plan : ArtifactCatalogGcPlan → HexDigest
  operationId : OperationIdentity → HexDigest
  quarantine : GraphArtifactQuarantineReceipt → HexDigest
  operation : GcOperationFields d → HexDigest

variable {d : CatalogDigests} (g : GovernanceDigests d)

def GraphArtifactGcOperationIntent.operationId (intent : GraphArtifactGcOperationIntent d) :
    String :=
  "graph-artifact-gc://" ++
    (g.operationId ⟨intent.tenantId, intent.planChecksum, g.decision intent.decision⟩).text

/-- The receipt of a quarantine is about the object of the request. -/
def GraphArtifactQuarantineReceipt.For (receipt : GraphArtifactQuarantineReceipt)
    (operationId : String) (request : GraphArtifactPhysicalDeleteRequest) : Prop :=
  receipt.operationId = operationId ∧ receipt.ref = request.record.ref ∧
    receipt.contentChecksum = request.record.contentChecksum ∧
    receipt.byteSize = request.record.byteSize ∧ request.requestedAt ≤ receipt.quarantinedAt

instance (receipt : GraphArtifactQuarantineReceipt) (operationId : String)
    (request : GraphArtifactPhysicalDeleteRequest) : Decidable (receipt.For operationId request) :=
  inferInstanceAs (Decidable (_ ∧ _))

/-- The receipt of a deletion is about the object of the quarantine. -/
def GraphArtifactDeletionReceipt.For (receipt : GraphArtifactDeletionReceipt)
    (operationId : String) (quarantine : GraphArtifactQuarantineReceipt) : Prop :=
  receipt.operationId = operationId ∧
    receipt.quarantineReceiptChecksum = g.quarantine quarantine ∧
    receipt.ref = quarantine.ref ∧ receipt.contentChecksum = quarantine.contentChecksum ∧
    receipt.byteSize = quarantine.byteSize ∧ quarantine.quarantinedAt ≤ receipt.deletedAt

instance (receipt : GraphArtifactDeletionReceipt) (operationId : String)
    (quarantine : GraphArtifactQuarantineReceipt) :
    Decidable (receipt.For g operationId quarantine) :=
  inferInstanceAs (Decidable (_ ∧ _))

/-- The latest moment that an operation names. -/
def GcOperationFields.latest (f : GcOperationFields d) : ℤ :=
  let latest := f.intent.preparedAt
  let latest := f.request.elim latest fun r => max latest r.requestedAt
  let latest := f.quarantine.elim latest fun q => max latest q.quarantinedAt
  f.deletion.elim latest fun x => max latest x.deletedAt

def GcOperationFields.postInit (f : GcOperationFields d) :
    Except GraphArtifactResultError Unit := do
  require (∀ r ∈ f.request, r.record = f.intent.entry.record)
    ⟨.resultSchemaInvalid, "gc_operation.request"⟩
  require (∀ q ∈ f.quarantine, ∃ r ∈ f.request, q.For (f.intent.operationId g) r)
    ⟨.resultSchemaInvalid, "gc_operation.quarantine"⟩
  require (∀ x ∈ f.deletion, ∃ q ∈ f.quarantine, x.For g (f.intent.operationId g) q)
    ⟨.resultSchemaInvalid, "gc_operation.deletion"⟩
  require (f.state ∈ [.catalogDetached, .quarantined, .purged, .completed] → f.request ≠ none)
    ⟨.resultSchemaInvalid, "gc_operation.request"⟩
  require (f.state ∈ [.prepared, .stale] →
      f.request = none ∧ f.quarantine = none ∧ f.deletion = none)
    ⟨.resultSchemaInvalid, "gc_operation.state"⟩
  require (f.state ∈ [.quarantined, .purged, .completed] → f.quarantine ≠ none)
    ⟨.resultSchemaInvalid, "gc_operation.quarantine"⟩
  require (f.state ∈ [.purged, .completed] → f.deletion ≠ none)
    ⟨.resultSchemaInvalid, "gc_operation.deletion"⟩
  require (f.state = .retryableFailure ↔ f.errorCode ≠ none)
    ⟨.resultSchemaInvalid, "gc_operation.error_code"⟩
  require (f.latest ≤ f.updatedAt) ⟨.resultSchemaInvalid, "gc_operation.updated_at"⟩

structure GraphArtifactGcOperation extends GcOperationFields d where
  valid : toGcOperationFields.postInit g = .ok ()
  deriving DecidableEq

variable {g}

def GraphArtifactGcOperation.create (f : GcOperationFields d) :
    Except GraphArtifactResultError (GraphArtifactGcOperation g) :=
  match h : f.postInit g with
  | .ok () => .ok ⟨f, h⟩
  | .error e => .error e

def GraphArtifactGcOperation.operationId (g : GovernanceDigests d)
    (operation : GraphArtifactGcOperation g) : String :=
  operation.intent.operationId g

def GraphArtifactGcOperation.operationChecksum (operation : GraphArtifactGcOperation g) :
    HexDigest :=
  g.operation operation.toGcOperationFields

variable {operation : GraphArtifactGcOperation g}

theorem create_eq_ok {f : GcOperationFields d}
    (h : GraphArtifactGcOperation.create f = .ok operation) :
    operation.toGcOperationFields = f := by
  unfold GraphArtifactGcOperation.create at h
  split at h
  · rw [← ok_inj h]
  · simp at h

theorem GraphArtifactGcOperation.record_of_request {request : GraphArtifactPhysicalDeleteRequest}
    (h : operation.request = some request) : request.record = operation.intent.entry.record := by
  obtain ⟨hrequest, -⟩ := check_inv operation.valid
  exact of_require hrequest request h

/-- A quarantined object is that of the intent's entry. -/
theorem GraphArtifactGcOperation.ref_of_quarantine {quarantine : GraphArtifactQuarantineReceipt}
    (h : operation.quarantine = some quarantine) :
    operation.request ≠ none ∧ quarantine.ref = operation.intent.entry.record.ref := by
  obtain ⟨-, hvalid⟩ := check_inv operation.valid
  obtain ⟨hquarantine, -⟩ := check_inv hvalid
  obtain ⟨request, hrequest, -, href, -⟩ := of_require hquarantine quarantine h
  refine ⟨fun hnone => ?_, ?_⟩
  · rw [hnone] at hrequest
    simp at hrequest
  · rw [href, operation.record_of_request hrequest]

/-! ## The ledger of collections -/

open GraphArtifactGcOperation RecordDict

variable {d : CatalogDigests} (g : GovernanceDigests d)

/-- A row of `graph_artifact_gc_plans`. -/
structure GcPlanRow where
  tenantId : String
  plan : ArtifactCatalogGcPlan
  deriving DecidableEq

/-- The key of a row of `graph_artifact_gc_plans`. -/
def GcPlanRow.planChecksum (row : GcPlanRow) : String := (g.plan row.plan).text

/-- `graph_artifact_gc_plans` and `graph_artifact_gc_operations`. -/
structure GovernanceLedger where
  plans : RecordDict (GcPlanRow.planChecksum g)
  operations : RecordDict (GraphArtifactGcOperation.operationId g)

/-- The ledger of a new database. -/
def GovernanceLedger.empty : GovernanceLedger g := ⟨.empty, .empty⟩

variable {g}

/-! ## Plans -/

def GovernanceLedger.putGcPlan (ledger : GovernanceLedger g) (tenantId : String)
    (plan : ArtifactCatalogGcPlan) :
    Except GraphArtifactResultError (GovernanceLedger g × ArtifactCatalogGcPlan) := do
  require (∀ decision ∈ plan.decisions, decision.tenantId = tenantId)
    ⟨.artifactScopeMismatch, "gc_plan.tenant_id"⟩
  match ledger.plans.get? (g.plan plan).text with
  | some row => do
    require (row = ⟨tenantId, plan⟩) ⟨.resultIdentityConflict, "gc_plan"⟩
    .ok (ledger, row.plan)
  | none => .ok ({ ledger with plans := ledger.plans.put ⟨tenantId, plan⟩ }, plan)

def GovernanceLedger.getGcPlan (ledger : GovernanceLedger g) (tenantId : String)
    (planChecksum : HexDigest) : Option ArtifactCatalogGcPlan :=
  ((ledger.plans.get? planChecksum.text).filter fun row => decide (row.tenantId = tenantId)).map
    GcPlanRow.plan

/-! ## Operations -/

def GovernanceLedger.putGcOperation (ledger : GovernanceLedger g)
    (operation : GraphArtifactGcOperation g) :
    Except GraphArtifactResultError (GovernanceLedger g × GraphArtifactGcOperation g) := do
  require (operation.state = .prepared) ⟨.resultSchemaInvalid, "gc_operation"⟩
  match ledger.operations.get? (operation.operationId g) with
  | some existing => do
    require (existing = operation) ⟨.resultIdentityConflict, "gc_operation"⟩
    .ok (ledger, existing)
  | none => .ok ({ ledger with operations := ledger.operations.put operation }, operation)

def GovernanceLedger.getGcOperation (ledger : GovernanceLedger g) (tenantId operationId : String) :
    Option (GraphArtifactGcOperation g) :=
  (ledger.operations.get? operationId).filter fun operation =>
    decide (operation.intent.tenantId = tenantId)

/-- The states that may follow a state. -/
def GraphArtifactGcOperationState.allowed : GraphArtifactGcOperationState →
    List GraphArtifactGcOperationState
  | .prepared => [.catalogDetached, .stale, .retryableFailure]
  | .catalogDetached => [.quarantined, .retryableFailure]
  | .quarantined => [.purged, .retryableFailure]
  | .purged => [.completed, .retryableFailure]
  | .retryableFailure =>
    [.catalogDetached, .quarantined, .purged, .completed, .stale, .retryableFailure]
  | .completed | .stale => []

/-- What `_validate_gc_transition` accepts. -/
structure Follows (current candidate : GraphArtifactGcOperation g) : Prop where
  operationId : current.operationId g = candidate.operationId g
  intent : current.intent = candidate.intent
  state : candidate.state ∈ current.state.allowed
  updatedAt : current.updatedAt ≤ candidate.updatedAt
  request : current.request ≠ none → candidate.request = current.request
  quarantine : current.quarantine ≠ none → candidate.quarantine = current.quarantine
  deletion : current.deletion ≠ none → candidate.deletion = current.deletion

instance (current candidate : GraphArtifactGcOperation g) : Decidable (Follows current candidate) :=
  decidable_of_iff (current.operationId g = candidate.operationId g ∧
      current.intent = candidate.intent ∧ candidate.state ∈ current.state.allowed ∧
      current.updatedAt ≤ candidate.updatedAt ∧
      (current.request ≠ none → candidate.request = current.request) ∧
      (current.quarantine ≠ none → candidate.quarantine = current.quarantine) ∧
      (current.deletion ≠ none → candidate.deletion = current.deletion))
    ⟨fun ⟨hid, hintent, hstate, htime, hrequest, hquarantine, hdeletion⟩ =>
        ⟨hid, hintent, hstate, htime, hrequest, hquarantine, hdeletion⟩,
      fun h => ⟨h.operationId, h.intent, h.state, h.updatedAt, h.request, h.quarantine,
        h.deletion⟩⟩

def GovernanceLedger.compareAndSetGcOperation (ledger : GovernanceLedger g)
    (operation : GraphArtifactGcOperation g) (expectedChecksum : HexDigest) :
    Except GraphArtifactResultError (GovernanceLedger g × GraphArtifactGcOperation g) := do
  let current ← orRaise (ledger.operations.get? (operation.operationId g))
    ⟨.governanceRecordNotFound, "gc_operation.operation_id"⟩
  if current = operation then .ok (ledger, current)
  else do
    require (current.operationChecksum = expectedChecksum)
      ⟨.resultIdentityConflict, "gc_operation.expected_checksum"⟩
    require (Follows current operation) ⟨.gcOperationFailed, "gc_operation.transition"⟩
    .ok ({ ledger with operations := ledger.operations.put operation }, operation)

/-- The order of the listed operations. -/
def GraphArtifactGcOperation.listedBefore (a b : GraphArtifactGcOperation g) : Prop :=
  a.updatedAt < b.updatedAt ∨ (a.updatedAt = b.updatedAt ∧ a.operationId g ≤ b.operationId g)

instance : DecidableRel (listedBefore (g := g)) :=
  fun _ _ => inferInstanceAs (Decidable (_ ∨ _))

def GovernanceLedger.listGcOperations (ledger : GovernanceLedger g) (tenantId : String)
    (includeCompleted : Bool) : List (GraphArtifactGcOperation g) :=
  (ledger.operations.values.filter fun operation =>
    decide (operation.intent.tenantId = tenantId ∧
      (includeCompleted = true ∨ operation.state ≠ .completed))).insertionSort
    listedBefore

/-! ## What the calls write -/

section Calls

variable {ledger ledger' : GovernanceLedger g} {operation stored : GraphArtifactGcOperation g}

theorem mem_of_getGcOperation {tenantId operationId : String}
    (h : ledger.getGcOperation tenantId operationId = some operation) :
    operation ∈ ledger.operations.values := by
  obtain ⟨hget, -⟩ := Option.filter_eq_some_iff.mp h
  exact mem_values_iff_exists.mpr ⟨operationId, hget⟩

/-- An operation that a transaction leaves was there or is the one that it was called with. -/
theorem mem_values_put (h : operation ∈ (ledger.operations.put stored).values) :
    operation = stored ∨ operation ∈ ledger.operations.values := by
  rcases get?_of_get?_put (mem_values.mp h) with heq | hold
  · exact .inl heq
  · exact .inr (mem_values.mpr hold)

/-- `put_gc_plan` leaves the operations alone. -/
theorem operations_of_putGcPlan {tenantId : String} {plan result : ArtifactCatalogGcPlan}
    (h : ledger.putGcPlan tenantId plan = .ok (ledger', result)) :
    ledger'.operations = ledger.operations := by
  obtain ⟨-, h⟩ := check_inv h
  split at h
  · obtain ⟨-, h⟩ := check_inv h
    rw [← (Prod.mk.inj (ok_inj h)).1]
  · rw [← (Prod.mk.inj (ok_inj h)).1]

/-- `put_gc_operation` returns the operation and adds no other. -/
theorem of_putGcOperation (h : ledger.putGcOperation operation = .ok (ledger', stored)) :
    stored = operation ∧ ∀ other ∈ ledger'.operations.values,
      other = operation ∨ other ∈ ledger.operations.values := by
  obtain ⟨-, h⟩ := check_inv h
  split at h
  · obtain ⟨hsame, h⟩ := check_inv h
    cases h
    exact ⟨of_require hsame, fun _ => .inr⟩
  · cases h
    exact ⟨rfl, fun _ => mem_values_put⟩

/-- `compare_and_set_gc_operation` returns the operation and adds no other. -/
theorem of_compareAndSetGcOperation {expectedChecksum : HexDigest}
    (h : ledger.compareAndSetGcOperation operation expectedChecksum = .ok (ledger', stored)) :
    stored = operation ∧ ∀ other ∈ ledger'.operations.values,
      other = operation ∨ other ∈ ledger.operations.values := by
  obtain ⟨current, -, h⟩ := bind_inv h
  split at h
  · rename_i hsame
    cases h
    exact ⟨hsame, fun _ => .inr⟩
  · obtain ⟨-, h⟩ := check_inv h
    obtain ⟨-, h⟩ := check_inv h
    cases h
    exact ⟨rfl, fun _ => mem_values_put⟩

end Calls

end ArtifactGovernance
