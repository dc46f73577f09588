/-
# The document of the artifact catalog

`LocalJsonArtifactCatalog` keeps its state as one JSON document.  Every call reads the
document, checks it, decodes it, and replaces it when the call has changed the state.
-/
import AgoraHub.CatalogModels

namespace ArtifactCatalog

open Fallible GraphResult

/-! ## The stored records -/

/-- `ArtifactCatalogEntry.to_dict()`. -/
structure EntryPayload where
  entryId : String
  identity : ArtifactCatalogIdentity
  record : ArtifactRecord
  verifiedAt : ℤ
  deriving DecidableEq

/-- `ArtifactCatalogClaim.to_dict()`. -/
structure ClaimPayload where
  claimId : String
  entryId : String
  tenantId : String
  runId : String
  artifactId : String
  createdAt : ℤ
  record : ArtifactRecord
  deriving DecidableEq

/-- `ArtifactLogicalReference.to_dict()`. -/
structure ReferencePayload where
  referenceId : String
  entryId : String
  tenantId : String
  ownerRunId : String
  ownerId : String
  kind : ArtifactReferenceKind
  expiresAt : Option ℤ
  createdAt : ℤ
  deriving DecidableEq

section

variable (d : CatalogDigests)

def ArtifactCatalogEntry.toDict (entry : ArtifactCatalogEntry) : EntryPayload :=
  ⟨entry.entryId d, entry.identity, entry.record, entry.verifiedAt⟩

def ArtifactCatalogClaim.toDict (claim : ArtifactCatalogClaim) : ClaimPayload :=
  ⟨claim.claimId d, claim.entryId d, claim.record.tenantId, claim.record.runId,
    claim.record.artifactId, claim.record.createdAt, claim.record⟩

def ArtifactLogicalReference.toDict (r : ArtifactLogicalReference) : ReferencePayload :=
  ⟨r.referenceId d, r.entryId, r.tenantId, r.ownerRunId, r.ownerId, r.kind, r.expiresAt,
    r.createdAt⟩

def ArtifactCatalogEntry.fromDict (p : EntryPayload) :
    Except GraphArtifactResultError ArtifactCatalogEntry := do
  require (p.identity = p.record.catalogIdentity)
    ⟨.resultIdentityConflict, "catalog_entry.identity"⟩
  require (p.entryId = d.entryId p.identity) ⟨.resultIdentityConflict, "catalog_entry.entry_id"⟩
  if h : p.record.createdAt ≤ p.verifiedAt then .ok ⟨p.record, p.verifiedAt, h⟩
  else .error ⟨.artifactReadbackFailed, "catalog_entry.verified_at"⟩

def ArtifactCatalogClaim.fromDict (p : ClaimPayload) :
    Except GraphArtifactResultError ArtifactCatalogClaim := do
  require (p.claimId = d.claimId ⟨p.tenantId, p.runId, p.artifactId⟩)
    ⟨.resultIdentityConflict, "catalog_claim.claim_id"⟩
  require (p.record.tenantId = p.tenantId ∧ p.record.runId = p.runId ∧
      p.record.artifactId = p.artifactId ∧ d.entryId p.record.catalogIdentity = p.entryId ∧
      p.record.createdAt = p.createdAt)
    ⟨.resultIdentityConflict, "catalog_claim.record"⟩
  .ok ⟨p.record⟩

def ArtifactLogicalReference.fromDict (p : ReferencePayload) :
    Except GraphArtifactResultError ArtifactLogicalReference :=
  if h : (∀ e ∈ p.expiresAt, p.createdAt < e) ∧ p.expiresAt.isSome = p.kind.expiring then do
    require (p.referenceId = d.referenceId ⟨p.entryId, p.tenantId, p.ownerRunId, p.ownerId, p.kind⟩)
      ⟨.artifactReferenceConflict, "logical_reference.reference_id"⟩
    .ok ⟨p.entryId, p.tenantId, p.ownerRunId, p.ownerId, p.kind, p.expiresAt, p.createdAt, h.1, h.2⟩
  else .error ⟨.resultSchemaInvalid, "logical_reference.expires_at"⟩

end

/-! ## The document -/

/-- The document without its checksum. -/
structure CatalogPayload where
  schemaVersion : String
  entries : List EntryPayload
  claims : List ClaimPayload
  references : List ReferencePayload
  deriving DecidableEq

/-- The document. -/
structure CatalogDocument extends CatalogPayload where
  stateChecksum : HexDigest
  deriving DecidableEq

def catalogSchemaVersion : String := "newsroom.graph-artifact-catalog/v1"

/-- `ArtifactCatalogReconciliationIssueKind`. -/
inductive IssueKind where
  | orphanEntry
  | danglingLogicalIdentity
  | danglingReference
  | identityConflict
  deriving DecidableEq

/-- `ArtifactCatalogReconciliationIssue`. -/
structure ReconciliationIssue where
  kind : IssueKind
  subjectId : String
  entryId : String
  deriving DecidableEq

/-- A catalog: its bounds, the digests it computes and the length of the text it writes. -/
structure LocalJsonArtifactCatalog extends CatalogBounds where
  digests : CatalogDigests
  stateDigest : CatalogPayload → HexDigest
  issueDigest : ReconciliationIssue → HexDigest
  encodedLength : CatalogDocument → ℕ

variable (c : LocalJsonArtifactCatalog)

/-- The state of a catalog. -/
abbrev LocalJsonArtifactCatalog.State := CatalogState c.digests

/-- `payload_without_checksum`. -/
def LocalJsonArtifactCatalog.payload (state : c.State) : CatalogPayload where
  schemaVersion := catalogSchemaVersion
  entries := state.entries.values.map (ArtifactCatalogEntry.toDict c.digests)
  claims := state.claims.values.map (ArtifactCatalogClaim.toDict c.digests)
  references := state.references.values.map (ArtifactLogicalReference.toDict c.digests)

/-- `_CatalogState.to_dict`. -/
def LocalJsonArtifactCatalog.document (state : c.State) : CatalogDocument :=
  { c.payload state with stateChecksum := c.stateDigest (c.payload state) }

/-! ## Reading -/

def catalogCorrupt (field : String) : GraphArtifactResultError := ⟨.artifactCatalogCorrupt, field⟩

/-- One record of `_decode_models`: a second record with an id is reported and only replaces an
equal one. -/
def decodeModel {ρ ν : Type} [DecidableEq ν] {id : ν → String} (entryId : ν → String)
    (decoder : ρ → Except GraphArtifactResultError ν)
    (decoded : RecordDict id × List ReconciliationIssue) (raw : ρ) :
    Except GraphArtifactResultError (RecordDict id × List ReconciliationIssue) :=
  match decoder raw with
  | .error _ => .error (catalogCorrupt "catalog.record")
  | .ok model =>
    match decoded.1.get? (id model) with
    | none => .ok (decoded.1.put model, decoded.2)
    | some existing =>
      .ok (if existing = model then decoded.1.put model else decoded.1,
        decoded.2 ++ [⟨.identityConflict, id model, entryId model⟩])

def decodeModels {ρ ν : Type} [DecidableEq ν] {id : ν → String} (entryId : ν → String)
    (decoder : ρ → Except GraphArtifactResultError ν) (values : List ρ) :
    Except GraphArtifactResultError (RecordDict id × List ReconciliationIssue) :=
  values.foldlM (decodeModel entryId decoder) (.empty, [])

/-- The issue of a claim, if it has one. -/
def claimIssue (d : CatalogDigests) (entries : RecordDict (ArtifactCatalogEntry.entryId d))
    (claim : ArtifactCatalogClaim) : Option ReconciliationIssue :=
  match entries.get? (claim.entryId d) with
  | none => some ⟨.danglingLogicalIdentity, claim.claimId d, claim.entryId d⟩
  | some entry =>
    if claim.record.tenantId ≠ entry.identity.tenantId ∨ claim.record.ref ≠ entry.record.ref ∨
        claim.record.byteSize ≠ entry.record.byteSize ∨
        claim.record.contentChecksum ≠ entry.record.contentChecksum ∨
        claim.record.mediaType ≠ entry.record.mediaType ∨
        claim.record.producerRevision ≠ entry.record.producerRevision then
      some ⟨.identityConflict, claim.claimId d, claim.entryId d⟩
    else none

/-- The issue of a reference, if it has one. -/
def referenceIssue (d : CatalogDigests) (entries : RecordDict (ArtifactCatalogEntry.entryId d))
    (r : ArtifactLogicalReference) : Option ReconciliationIssue :=
  match entries.get? r.entryId with
  | none => some ⟨.danglingReference, r.referenceId d, r.entryId⟩
  | some entry =>
    if r.tenantId ≠ entry.identity.tenantId then
      some ⟨.identityConflict, r.referenceId d, r.entryId⟩
    else none

/-- The issue of an entry that nothing refers to. -/
def orphanIssue {d : CatalogDigests} (state : CatalogState d) (entry : ArtifactCatalogEntry) :
    Option ReconciliationIssue :=
  if (∃ claim ∈ state.claims.values, claim.entryId d = entry.entryId d) ∨
      ∃ r ∈ state.references.values, r.entryId = entry.entryId d then none
  else some ⟨.orphanEntry, entry.entryId d, entry.entryId d⟩

/-- `_decode_state`: the state and what does not fit together in it. -/
def LocalJsonArtifactCatalog.decodeState (doc : CatalogDocument) :
    Except GraphArtifactResultError (c.State × List ReconciliationIssue) := do
  require (doc.schemaVersion = catalogSchemaVersion) (catalogCorrupt "catalog.schema_version")
  require (c.stateDigest doc.toCatalogPayload = doc.stateChecksum)
    (catalogCorrupt "catalog.state_checksum")
  require (doc.entries.length ≤ c.maxEntries) (catalogCorrupt "catalog.entries")
  require (doc.claims.length ≤ c.maxClaims) (catalogCorrupt "catalog.claims")
  require (doc.references.length ≤ c.maxReferences) (catalogCorrupt "catalog.references")
  let (entries, entryIssues) ← decodeModels (ArtifactCatalogEntry.entryId c.digests)
    (ArtifactCatalogEntry.fromDict c.digests) doc.entries
  let (claims, claimIssues) ← decodeModels (ArtifactCatalogClaim.entryId c.digests)
    (ArtifactCatalogClaim.fromDict c.digests) doc.claims
  let (references, referenceIssues) ← decodeModels ArtifactLogicalReference.entryId
    (ArtifactLogicalReference.fromDict c.digests) doc.references
  let state : c.State := ⟨entries, claims, references⟩
  .ok (state, entryIssues ++ claimIssues ++ referenceIssues ++
    claims.values.filterMap (claimIssue c.digests entries) ++
    references.values.filterMap (referenceIssue c.digests entries) ++
    entries.values.filterMap (orphanIssue state))

/-- The stored document, if there is one. -/
abbrev CatalogStore := Option CatalogDocument

/-- `_read_state(allow_drift=True)`. -/
def LocalJsonArtifactCatalog.readDrifted (store : CatalogStore) :
    Except GraphArtifactResultError (c.State × List ReconciliationIssue) :=
  match store with
  | none => .ok (.empty c.digests, [])
  | some doc => do
    require (c.encodedLength doc ≤ c.maxStateBytes) (catalogCorrupt "catalog.state_bytes")
    c.decodeState doc

def LocalJsonArtifactCatalog.readState (store : CatalogStore) :
    Except GraphArtifactResultError c.State := do
  let (state, issues) ← c.readDrifted store
  require (issues = []) (catalogCorrupt "catalog.references")
  .ok state

/-! ## Calls -/

/-- `_mutate`: what a call returns or raises, and the store it leaves. -/
def LocalJsonArtifactCatalog.mutate {α : Type}
    (callback : c.State → Except GraphArtifactResultError (c.State × α)) :
    Stateful CatalogStore GraphArtifactResultError α := fun store =>
  match c.readState store with
  | .error e => (.error e, store)
  | .ok state =>
    match callback state with
    | .error e => (.error e, store)
    | .ok (updated, result) =>
      if updated = state then (.ok result, store)
      else if c.encodedLength (c.document updated) ≤ c.maxStateBytes then
        (.ok result, some (c.document updated))
      else (.error ⟨.artifactQuotaExceeded, "catalog.state_bytes"⟩, store)

def LocalJsonArtifactCatalog.register (request : ArtifactCatalogRegistrationRequest c.digests) :
    Stateful CatalogStore GraphArtifactResultError ArtifactCatalogRegistrationResult :=
  c.mutate fun state => state.register c.toCatalogBounds request

def LocalJsonArtifactCatalog.addReference (reference : ArtifactLogicalReference) :
    Stateful CatalogStore GraphArtifactResultError ArtifactLogicalReference :=
  c.mutate fun state => state.addReference c.toCatalogBounds reference

def LocalJsonArtifactCatalog.removeReference (tenantId referenceId : String) :
    Stateful CatalogStore GraphArtifactResultError Bool :=
  c.mutate fun state => state.removeReference tenantId referenceId

def LocalJsonArtifactCatalog.retireReference (request : ArtifactReferenceRetirementRequest) :
    Stateful CatalogStore GraphArtifactResultError ArtifactReferenceRetirementReceipt :=
  c.mutate fun state => state.retireReference request

def LocalJsonArtifactCatalog.detachGcCandidate (request : ArtifactCatalogGcDetachRequest) :
    Stateful CatalogStore GraphArtifactResultError ArtifactCatalogGcDetachReceipt :=
  c.mutate fun state => state.detachGcCandidate request

/-- The one entry of a state that has the given ref. -/
def CatalogState.entryByRef {d : CatalogDigests} (state : CatalogState d) (tenantId ref : String) :
    Except GraphArtifactResultError ArtifactCatalogEntry :=
  match state.entries.values.filter fun entry =>
      decide (entry.identity.tenantId = tenantId ∧ entry.record.ref = ref) with
  | [entry] => .ok entry
  | [] => .error ⟨.artifactCatalogNotFound, "catalog.ref"⟩
  | _ => .error (catalogCorrupt "catalog.ref")

def LocalJsonArtifactCatalog.getByRef (store : CatalogStore) (tenantId ref : String) :
    Except GraphArtifactResultError ArtifactCatalogEntry := do
  let state ← c.readState store
  state.entryByRef tenantId ref

/-- The decisions of `plan_gc`. -/
def LocalJsonArtifactCatalog.planGc (store : CatalogStore) (now : ℤ) (tenantId : Option String) :
    Except GraphArtifactResultError (List ArtifactCatalogGcDecision) := do
  let state ← c.readState store
  .ok (state.planGc now tenantId)

/-- `_tenant_reconciliation_issues`. -/
def tenantIssues {d : CatalogDigests} (state : CatalogState d) (issues : List ReconciliationIssue)
    (tenantId : String) : List ReconciliationIssue :=
  let entryIds := (state.entries.values.filter fun e => decide (e.identity.tenantId = tenantId)).map
    (ArtifactCatalogEntry.entryId d)
  let subjectIds := entryIds ++
    (state.claims.values.filter fun claim => decide (claim.record.tenantId = tenantId)).map
      (ArtifactCatalogClaim.claimId d) ++
    (state.references.values.filter fun r => decide (r.tenantId = tenantId)).map
      (ArtifactLogicalReference.referenceId d)
  issues.filter fun issue => decide (issue.subjectId ∈ subjectIds ∨ issue.entryId ∈ entryIds)

/-- The issues of `reconcile` without a physical inventory, in the order of their ids. -/
def LocalJsonArtifactCatalog.reconcile (store : CatalogStore) (tenantId : Option String) :
    Except GraphArtifactResultError (List ReconciliationIssue) := do
  let (state, issues) ← c.readDrifted store
  let found := match tenantId with
    | none => issues.dedup
    | some tenant => tenantIssues state issues.dedup tenant
  .ok (found.insertionSort fun a b => (c.issueDigest a).text ≤ (c.issueDigest b).text)

end ArtifactCatalog
