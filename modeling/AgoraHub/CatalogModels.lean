/-
# Records of the artifact catalog

The records that `LocalJsonArtifactCatalog` stores and is asked with.  A record that its
constructor refuses cannot be built, and a field that the constructor compares with the
value it has to have is a function of the other fields.
-/
import AgoraHub.ResultModels
import AgoraHub.RecordDict

namespace ArtifactCatalog

open Fallible GraphResult

/-! ## Artifact records -/

inductive ResultSensitivity where
  | «public»
  | internal
  | restricted
  | secret
  deriving DecidableEq

structure ArtifactRecord where
  ref : String
  artifactId : String
  artifactType : String
  contentChecksum : HexDigest
  byteSize : ℕ
  mediaType : String
  artifactClass : ArtifactClass
  tenantId : String
  runId : String
  graphId : String
  nodeId : String
  attemptId : String
  producerRevision : String
  sensitivity : ResultSensitivity
  reusable : Bool
  dependencyDigest : Option HexDigest
  retentionClass : RetentionClass
  expiresAt : Option ℤ
  requiredForReplay : Bool
  requiredForPublication : Bool
  createdAt : ℤ
  dependency_known : reusable = true → dependencyDigest ≠ none
  expires_after : ∀ e ∈ expiresAt, createdAt < e
  deriving DecidableEq

/-- `replace(record, ref=...)`. -/
def ArtifactRecord.withRef (record : ArtifactRecord) (ref : String) : ArtifactRecord :=
  { record with ref := ref }

structure ArtifactCatalogIdentity where
  tenantId : String
  contentChecksum : HexDigest
  mediaType : String
  producerRevision : String
  deriving DecidableEq

/-- `ArtifactCatalogIdentity.from_record`. -/
def ArtifactRecord.catalogIdentity (record : ArtifactRecord) : ArtifactCatalogIdentity :=
  ⟨record.tenantId, record.contentChecksum, record.mediaType, record.producerRevision⟩

/-- The text that `claim_id_for` hashes is that of these three. -/
structure ClaimIdentity where
  tenantId : String
  runId : String
  artifactId : String
  deriving DecidableEq

inductive ArtifactReferenceKind where
  | run
  | report
  | evidence
  | publication
  | replay
  | cache
  | ephemeral
  deriving DecidableEq

/-- `_EXPIRING_REFERENCE_KINDS`; the other kinds are `_PROTECTED_REFERENCE_KINDS`. -/
def ArtifactReferenceKind.expiring : ArtifactReferenceKind → Bool
  | .cache | .ephemeral => true
  | .run | .report | .evidence | .publication | .replay => false

/-- The text that the id of a reference hashes is that of these five. -/
structure ReferenceIdentity where
  entryId : String
  tenantId : String
  ownerRunId : String
  ownerId : String
  kind : ArtifactReferenceKind
  deriving DecidableEq

/-- The SHA-256 digests of the JSON texts that the ids are made of. -/
structure CatalogDigests where
  entry : ArtifactCatalogIdentity → HexDigest
  claim : ClaimIdentity → HexDigest
  reference : ReferenceIdentity → HexDigest

def CatalogDigests.entryId (d : CatalogDigests) (identity : ArtifactCatalogIdentity) : String :=
  "catalog-entry://" ++ (d.entry identity).text

/-- `ArtifactCatalogClaim.claim_id_for`. -/
def CatalogDigests.claimId (d : CatalogDigests) (identity : ClaimIdentity) : String :=
  "catalog-claim://" ++ (d.claim identity).text

/-- The id of a logical reference. -/
def CatalogDigests.referenceId (d : CatalogDigests) (identity : ReferenceIdentity) : String :=
  "catalog-reference://" ++ (d.reference identity).text

/-! ## Entries, claims and references -/

structure ArtifactCatalogEntry where
  record : ArtifactRecord
  verifiedAt : ℤ
  verified_after : record.createdAt ≤ verifiedAt
  deriving DecidableEq

def ArtifactCatalogEntry.identity (entry : ArtifactCatalogEntry) : ArtifactCatalogIdentity :=
  entry.record.catalogIdentity

def ArtifactCatalogEntry.entryId (d : CatalogDigests) (entry : ArtifactCatalogEntry) : String :=
  d.entryId entry.identity

/-- `ArtifactCatalogClaim`: its scope and its time are those of its record. -/
structure ArtifactCatalogClaim where
  record : ArtifactRecord
  deriving DecidableEq

def ArtifactCatalogClaim.logicalIdentity (claim : ArtifactCatalogClaim) : ClaimIdentity :=
  ⟨claim.record.tenantId, claim.record.runId, claim.record.artifactId⟩

def ArtifactCatalogClaim.claimId (d : CatalogDigests) (claim : ArtifactCatalogClaim) : String :=
  d.claimId claim.logicalIdentity

def ArtifactCatalogClaim.entryId (d : CatalogDigests) (claim : ArtifactCatalogClaim) : String :=
  d.entryId claim.record.catalogIdentity

/-- `ArtifactCatalogClaim.for_record`: with a canonical ref the claim's record names it. -/
def ArtifactCatalogClaim.forRecord (record : ArtifactRecord)
    (canonicalRef : Option String) : ArtifactCatalogClaim :=
  match canonicalRef with
  | some ref => ⟨record.withRef ref⟩
  | none => ⟨record⟩

structure ArtifactLogicalReference where
  entryId : String
  tenantId : String
  ownerRunId : String
  ownerId : String
  kind : ArtifactReferenceKind
  expiresAt : Option ℤ
  createdAt : ℤ
  expires_after : ∀ e ∈ expiresAt, createdAt < e
  expires_iff : expiresAt.isSome = kind.expiring
  deriving DecidableEq

def ArtifactLogicalReference.logicalIdentity (r : ArtifactLogicalReference) : ReferenceIdentity :=
  ⟨r.entryId, r.tenantId, r.ownerRunId, r.ownerId, r.kind⟩

def ArtifactLogicalReference.referenceId (d : CatalogDigests) (r : ArtifactLogicalReference) :
    String :=
  d.referenceId r.logicalIdentity

def ArtifactLogicalReference.isActiveAt (r : ArtifactLogicalReference) (now : ℤ) : Bool :=
  match r.expiresAt with
  | none => true
  | some expiresAt => decide (now < expiresAt)

/-! ## Requests -/

structure ArtifactVerificationReceipt where
  tenantId : String
  ref : String
  contentChecksum : HexDigest
  byteSize : ℕ
  mediaType : String
  verifiedAt : ℤ
  deriving DecidableEq

/-- `ArtifactVerificationReceipt.verify` does not raise. -/
structure ArtifactVerificationReceipt.Verifies (receipt : ArtifactVerificationReceipt)
    (record : ArtifactRecord) : Prop where
  tenantId : receipt.tenantId = record.tenantId
  ref : receipt.ref = record.ref
  contentChecksum : receipt.contentChecksum = record.contentChecksum
  byteSize : receipt.byteSize = record.byteSize
  mediaType : receipt.mediaType = record.mediaType
  verifiedAt : record.createdAt ≤ receipt.verifiedAt

def initialReferenceKind (record : ArtifactRecord) : ArtifactReferenceKind :=
  if record.requiredForReplay ∨ record.artifactClass = .transcript then .replay
  else if record.requiredForPublication then .publication
  else if record.artifactClass = .report then .report
  else if record.artifactClass = .evidence then .evidence
  else if record.retentionClass = .cache then .cache
  else if record.retentionClass = .ephemeral then .ephemeral
  else .run

/-- The comparisons that `ArtifactCatalogRegistrationRequest` makes with the initial reference. -/
structure ArtifactLogicalReference.InitialOf (d : CatalogDigests) (record : ArtifactRecord)
    (r : ArtifactLogicalReference) : Prop where
  entryId : r.entryId = d.entryId record.catalogIdentity
  tenantId : r.tenantId = record.tenantId
  ownerRunId : r.ownerRunId = record.runId
  ownerId : r.ownerId = record.artifactId
  kind : r.kind = initialReferenceKind record
  createdAt : r.createdAt = record.createdAt
  expiresAt : r.expiresAt =
    if (initialReferenceKind record).expiring then record.expiresAt else none

structure ArtifactCatalogRegistrationRequest (d : CatalogDigests) where
  record : ArtifactRecord
  verification : ArtifactVerificationReceipt
  initialReference : ArtifactLogicalReference
  verified : verification.Verifies record
  initial : initialReference.InitialOf d record

def ArtifactCatalogEntry.fromVerifiedRecord {d : CatalogDigests}
    (request : ArtifactCatalogRegistrationRequest d) : ArtifactCatalogEntry :=
  ⟨request.record, request.verification.verifiedAt, request.verified.verifiedAt⟩

inductive ArtifactLifecycleAuthorityKind where
  | terminalRun
  | publicationRetired
  deriving DecidableEq

/-- The kinds of references that an authority may retire. -/
def ArtifactLifecycleAuthorityKind.retires : ArtifactLifecycleAuthorityKind →
    ArtifactReferenceKind → Bool
  | .terminalRun, .run | .terminalRun, .evidence | .terminalRun, .replay => true
  | .publicationRetired, .report | .publicationRetired, .publication => true
  | _, _ => false

structure ArtifactLifecycleAuthorization where
  kind : ArtifactLifecycleAuthorityKind
  tenantId : String
  ownerRunId : String
  ownerId : String
  lifecycleRef : String
  observedAt : ℤ
  policyVersion : String
  deriving DecidableEq

/-- `ArtifactReferenceRetirementRequest`; its reason follows from the authority. -/
structure ArtifactReferenceRetirementRequest where
  reference : ArtifactLogicalReference
  authorization : ArtifactLifecycleAuthorization
  requestedAt : ℤ
  scope : reference.tenantId = authorization.tenantId ∧
    reference.ownerRunId = authorization.ownerRunId ∧ reference.ownerId = authorization.ownerId ∧
    authorization.observedAt ≤ requestedAt
  retirable : authorization.kind.retires reference.kind = true
  deriving DecidableEq

/-! ## Decisions of the collector -/

inductive ArtifactCatalogGcAction where
  | keep
  | deleteCandidate
  deriving DecidableEq

inductive ArtifactCatalogGcReason where
  | referenceProtected
  | replayRequired
  | publicationRequired
  | retentionIndefinite
  | retentionActive
  | expiredUnreferenced
  deriving DecidableEq

structure ArtifactCatalogGcDecision where
  entryId : String
  tenantId : String
  ref : String
  action : ArtifactCatalogGcAction
  reason : ArtifactCatalogGcReason
  activeReferenceIds : List String
  byteSize : ℕ
  claimIds : List String
  referenceIds : List String
  active_sorted : activeReferenceIds.Pairwise (· < ·)
  claims_sorted : claimIds.Pairwise (· < ·)
  references_sorted : referenceIds.Pairwise (· < ·)
  active_subset : activeReferenceIds ⊆ referenceIds
  inactive_of_delete : action = .deleteCandidate → activeReferenceIds = []
  deriving DecidableEq

/-- `ArtifactCatalogGcDetachRequest`: the fields that `detach_gc_candidate` looks at. -/
structure ArtifactCatalogGcDetachRequest where
  decision : ArtifactCatalogGcDecision
  requestedAt : ℤ
  candidate : decision.action = .deleteCandidate
  deriving DecidableEq

/-! ## Changes of the catalog -/

open ArtifactCatalogClaim RecordDict

/-- `_CatalogState`: entries, claims and references under their ids. -/
structure CatalogState (d : CatalogDigests) where
  entries : RecordDict (ArtifactCatalogEntry.entryId d)
  claims : RecordDict (claimId d)
  references : RecordDict (ArtifactLogicalReference.referenceId d)
  deriving DecidableEq

def CatalogState.empty (d : CatalogDigests) : CatalogState d := ⟨.empty, .empty, .empty⟩

/-- The bounds of a catalog. -/
structure CatalogBounds where
  maxEntries : ℕ
  maxClaims : ℕ
  maxReferences : ℕ
  maxStateBytes : ℕ
  positive : 0 < maxEntries ∧ 0 < maxClaims ∧ 0 < maxReferences ∧ 0 < maxStateBytes

/-- The bounds by default. -/
theorem CatalogBounds.default_positive :
    0 < 100000 ∧ 0 < 1000000 ∧ 0 < 1000000 ∧ 0 < 128 * 1024 * 1024 := by decide

variable {d : CatalogDigests}

/-! ## Registration -/

def validateDedupCandidate (existing candidate : ArtifactCatalogEntry) :
    Except GraphArtifactResultError Unit := do
  require (existing.identity = candidate.identity) ⟨.resultIdentityConflict, "catalog.identity"⟩
  require (existing.record.byteSize = candidate.record.byteSize)
    ⟨.resultIdentityConflict, "catalog.byte_size"⟩

/-- The entry that a registration is about, and whether it was there. -/
def canonicalEntry (bounds : CatalogBounds) (state : CatalogState d)
    (candidate : ArtifactCatalogEntry) :
    Except GraphArtifactResultError (ArtifactCatalogEntry × Bool) :=
  match state.entries.get? (candidate.entryId d) with
  | some existing => do
    validateDedupCandidate existing candidate
    .ok (existing, true)
  | none => do
    require (state.entries.size < bounds.maxEntries) ⟨.artifactQuotaExceeded, "catalog.entries"⟩
    .ok (candidate, false)

/-- The record under the id of `value`: the one that is there has to be the same. -/
def canonicalRecord {ν : Type} [DecidableEq ν] {id : ν → String} (known : RecordDict id)
    (limit : ℕ) (value : ν) (conflict full : GraphArtifactResultError) :
    Except GraphArtifactResultError ν :=
  match known.get? (id value) with
  | some existing => do
    require (existing = value) conflict
    .ok existing
  | none => do
    require (known.size < limit) full
    .ok value

structure ArtifactCatalogRegistrationResult where
  entry : ArtifactCatalogEntry
  claim : ArtifactCatalogClaim
  reference : ArtifactLogicalReference
  deduplicated : Bool
  deriving DecidableEq

/-- The callback of `register`. -/
def CatalogState.register (bounds : CatalogBounds) (state : CatalogState d)
    (request : ArtifactCatalogRegistrationRequest d) :
    Except GraphArtifactResultError (CatalogState d × ArtifactCatalogRegistrationResult) := do
  let candidate := ArtifactCatalogEntry.fromVerifiedRecord request
  let candidateClaim := forRecord request.record none
  let existingClaim := state.claims.get? (candidateClaim.claimId d)
  require (∀ claim ∈ existingClaim, claim.entryId d = candidate.entryId d)
    ⟨.resultIdentityConflict, "catalog.claim"⟩
  let (entry, deduplicated) ← canonicalEntry bounds state candidate
  let claim ← canonicalRecord state.claims bounds.maxClaims
    (.forRecord request.record (some entry.record.ref))
    ⟨.resultIdentityConflict, "catalog.claim"⟩ ⟨.artifactQuotaExceeded, "catalog.claims"⟩
  let reference ← canonicalRecord state.references bounds.maxReferences request.initialReference
    ⟨.artifactReferenceConflict, "catalog.reference"⟩
    ⟨.artifactQuotaExceeded, "catalog.references"⟩
  .ok (⟨state.entries.put entry, state.claims.put claim, state.references.put reference⟩,
    ⟨entry, claim, reference, deduplicated⟩)

/-! ## References -/

/-- The callback of `add_reference`. -/
def CatalogState.addReference (bounds : CatalogBounds) (state : CatalogState d)
    (reference : ArtifactLogicalReference) :
    Except GraphArtifactResultError (CatalogState d × ArtifactLogicalReference) := do
  let entry ← orRaise (state.entries.get? reference.entryId)
    ⟨.artifactCatalogNotFound, "catalog.entry_id"⟩
  require (entry.identity.tenantId = reference.tenantId)
    ⟨.artifactScopeMismatch, "catalog.reference.tenant_id"⟩
  let reference ← canonicalRecord state.references bounds.maxReferences reference
    ⟨.artifactReferenceConflict, "catalog.reference"⟩
    ⟨.artifactQuotaExceeded, "catalog.references"⟩
  .ok ({ state with references := state.references.put reference }, reference)

section

variable (state : CatalogState d)

/-- The callback of `remove_reference`. -/
def CatalogState.removeReference (tenantId referenceId : String) :
    Except GraphArtifactResultError (CatalogState d × Bool) :=
  match state.references.get? referenceId with
  | none => .ok (state, false)
  | some existing => do
    require (existing.tenantId = tenantId) ⟨.artifactScopeMismatch, "catalog.reference.tenant_id"⟩
    require (existing.kind.expiring = true)
      ⟨.lifecycleAuthorizationInvalid, "catalog.reference.kind"⟩
    .ok ({ state with references := state.references.del referenceId }, true)

def CatalogState.claimsForEntry (entryId : String) : RecordDict (claimId d) :=
  state.claims.filter fun claim => decide (claim.entryId d = entryId)

def CatalogState.referencesForEntry (entryId : String) :
    RecordDict (ArtifactLogicalReference.referenceId d) :=
  state.references.filter fun reference => decide (reference.entryId = entryId)

end

/-- The retention of a claim has elapsed. -/
def ArtifactCatalogClaim.Elapsed (claim : ArtifactCatalogClaim) (now : ℤ) : Prop :=
  ∃ e ∈ claim.record.expiresAt, e ≤ now

instance (claim : ArtifactCatalogClaim) (now : ℤ) : Decidable (claim.Elapsed now) :=
  inferInstanceAs (Decidable (∃ e ∈ claim.record.expiresAt, e ≤ now))

def CatalogState.validateReferenceRetirement (state : CatalogState d)
    (request : ArtifactReferenceRetirementRequest) : Except GraphArtifactResultError Unit := do
  require (request.authorization.policyVersion = "graph-artifact-policy@1")
    ⟨.policyVersionUnsupported, "catalog.retirement.policy_version"⟩
  match request.authorization.kind with
  | .publicationRetired => .ok ()
  | .terminalRun =>
    let claims := (state.claimsForEntry request.reference.entryId).values.filter fun claim =>
      decide (claim.record.tenantId = request.reference.tenantId ∧
        claim.record.runId = request.reference.ownerRunId)
    require (claims ≠ [] ∧ ∀ claim ∈ claims, claim.Elapsed request.requestedAt)
      ⟨.lifecycleAuthorizationInvalid, "catalog.retirement.retention"⟩

/-- `ArtifactReferenceRetirementReceipt`: what the request asked for, and when. -/
structure ArtifactReferenceRetirementReceipt where
  reference : ArtifactLogicalReference
  authorization : ArtifactLifecycleAuthorization
  retiredAt : ℤ
  deriving DecidableEq

/-- The callback of `retire_reference`. -/
def CatalogState.retireReference (state : CatalogState d)
    (request : ArtifactReferenceRetirementRequest) :
    Except GraphArtifactResultError (CatalogState d × ArtifactReferenceRetirementReceipt) :=
  let receipt : ArtifactReferenceRetirementReceipt :=
    ⟨request.reference, request.authorization, request.requestedAt⟩
  match state.references.get? (request.reference.referenceId d) with
  | none => .ok (state, receipt)
  | some existing => do
    require (existing = request.reference)
      ⟨.artifactReferenceConflict, "catalog.retirement.reference"⟩
    state.validateReferenceRetirement request
    .ok ({ state with references := state.references.del (existing.referenceId d) }, receipt)

/-! ## Garbage collection -/

/-- The action and the reason of `_gc_decision`, given the active references. -/
def gcAction (record : ArtifactRecord) (active : List ArtifactLogicalReference) (now : ℤ) :
    ArtifactCatalogGcAction × ArtifactCatalogGcReason :=
  if record.requiredForReplay ∨ ∃ r ∈ active, r.kind = .replay then (.keep, .replayRequired)
  else if record.requiredForPublication ∨ ∃ r ∈ active, r.kind = .publication then
    (.keep, .publicationRequired)
  else if active ≠ [] then (.keep, .referenceProtected)
  else match record.expiresAt with
    | none => (.keep, .retentionIndefinite)
    | some expiresAt =>
      if now < expiresAt then (.keep, .retentionActive)
      else (.deleteCandidate, .expiredUnreferenced)

theorem active_eq_nil_of_delete {record : ArtifactRecord} {active : List ArtifactLogicalReference}
    {now : ℤ} (h : (gcAction record active now).1 = .deleteCandidate) : active = [] := by
  unfold gcAction at h
  split_ifs at h with _ _ hactive
  · exact not_not.mp hactive

def gcDecision (entry : ArtifactCatalogEntry) (claims : RecordDict (claimId d))
    (references : RecordDict (ArtifactLogicalReference.referenceId d)) (now : ℤ) :
    ArtifactCatalogGcDecision :=
  let active := references.filter fun reference => reference.isActiveAt now
  { entryId := entry.entryId d
    tenantId := entry.identity.tenantId
    ref := entry.record.ref
    action := (gcAction entry.record active.values now).1
    reason := (gcAction entry.record active.values now).2
    activeReferenceIds := active.ids
    byteSize := entry.record.byteSize
    claimIds := claims.ids
    referenceIds := references.ids
    active_sorted := active.pairwise_ids
    claims_sorted := claims.pairwise_ids
    references_sorted := references.pairwise_ids
    active_subset := by
      intro k hk
      obtain ⟨r, hr⟩ := mem_ids.mp hk
      rw [get?_filter] at hr
      exact mem_ids.mpr ⟨r, (Option.filter_eq_some_iff.mp hr).1⟩
    inactive_of_delete := by
      intro h
      rw [ids_eq, active_eq_nil_of_delete h]
      rfl }

/-- The decision about an entry of a state. -/
def CatalogState.decisionOf (state : CatalogState d) (entry : ArtifactCatalogEntry) (now : ℤ) :
    ArtifactCatalogGcDecision :=
  gcDecision entry (state.claimsForEntry (entry.entryId d))
    (state.referencesForEntry (entry.entryId d)) now

/-- The decisions of `plan_gc`. -/
def CatalogState.planGc (state : CatalogState d) (now : ℤ) (tenantId : Option String) :
    List ArtifactCatalogGcDecision :=
  (state.entries.values.filter fun entry =>
    tenantId.all fun tenant => decide (entry.identity.tenantId = tenant)).map fun entry =>
      state.decisionOf entry now

structure ArtifactCatalogGcDetachReceipt where
  entry : ArtifactCatalogEntry
  claims : List ArtifactCatalogClaim
  references : List ArtifactLogicalReference
  detachedAt : ℤ
  deriving DecidableEq

/-- The callback of `detach_gc_candidate`. -/
def CatalogState.detachGcCandidate (state : CatalogState d)
    (request : ArtifactCatalogGcDetachRequest) :
    Except GraphArtifactResultError (CatalogState d × ArtifactCatalogGcDetachReceipt) := do
  let entry ← orRaise (state.entries.get? request.decision.entryId)
    ⟨.gcPlanStale, "catalog.gc_detach.entry"⟩
  let entryId := entry.entryId d
  require (state.decisionOf entry request.requestedAt = request.decision)
    ⟨.gcPlanStale, "catalog.gc_detach.decision"⟩
  .ok (⟨state.entries.del entryId,
      state.claims.filter fun claim => decide (claim.entryId d ≠ entryId),
      state.references.filter fun r => decide (r.entryId ≠ entryId)⟩,
    ⟨entry, (state.claimsForEntry entryId).values, (state.referencesForEntry entryId).values,
      request.requestedAt⟩)

end ArtifactCatalog
