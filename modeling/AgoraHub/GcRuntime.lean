/-
# The steps of the governance runtime

`prepare_gc`, `apply_gc` and `resume_gc` of `GraphArtifactGovernanceRuntime`, from one call of
a port to the next.  Any number of them run over one catalog and one ledger, between the
calls that the users of the catalog make.  A call that has returned, raised or crashed is
gone.
-/
import AgoraHub.CatalogRuns
import AgoraHub.GcModels

namespace ArtifactGovernance

open Fallible GraphResult ArtifactCatalog

/-! ## Calls of the ports -/

/-- What a port call raises: a `GraphArtifactResultError` or another exception. -/
inductive Raised where
  | result (error : GraphArtifactResultError)
  | other
  deriving DecidableEq

/-- How a port answers: it does what it is asked, or raises before it has done anything.  The
receipts are those of the lifecycle port. -/
inductive Answer where
  | returns
  | quarantined (receipt : GraphArtifactQuarantineReceipt)
  | deleted (receipt : GraphArtifactDeletionReceipt)
  | raises (raised : Raised)
  deriving DecidableEq

/-- What the clock shows and how the port answers in one step. -/
structure Moment where
  now : ℤ
  answer : Answer
  deriving DecidableEq

/-- The result of a port call. -/
def Answer.port {α : Type} (answer : Answer) (result : Except GraphArtifactResultError α) :
    Except Raised α :=
  match answer with
  | .raises raised => .error raised
  | _ => result.mapError .result

/-- A call of the catalog in memory: where it raises, the state is as it was. -/
def callCatalog {α : Type} (c : LocalJsonArtifactCatalog)
    (callback : c.State → Except GraphArtifactResultError (c.State × α)) (state : c.State) :
    Except GraphArtifactResultError α × c.State :=
  match callback state with
  | .error e => (.error e, state)
  | .ok (updated, result) =>
    if updated = state ∨ c.encodedLength (c.document updated) ≤ c.maxStateBytes then
      (.ok result, updated)
    else (.error ⟨.artifactQuotaExceeded, "catalog.state_bytes"⟩, state)

/-! ## Advancing an operation -/

section Advance

variable {d : CatalogDigests} {g : GovernanceDigests d}

/-- `_operation`. -/
def operationOf (now : ℤ) (current : GraphArtifactGcOperation g)
    (state : GraphArtifactGcOperationState) (request : Option GraphArtifactPhysicalDeleteRequest)
    (quarantine : Option GraphArtifactQuarantineReceipt)
    (deletion : Option GraphArtifactDeletionReceipt)
    (errorCode : Option GraphArtifactResultErrorCode) :
    Except GraphArtifactResultError (GraphArtifactGcOperation g) :=
  GraphArtifactGcOperation.create
    { state := state
      intent := current.intent
      request := request
      quarantine := quarantine
      deletion := deletion
      errorCode := if state = .retryableFailure then errorCode else none
      updatedAt := max (max now current.updatedAt)
        (max (request.elim current.updatedAt (·.requestedAt))
          (max (quarantine.elim current.updatedAt (·.quarantinedAt))
            (deletion.elim current.updatedAt (·.deletedAt)))) }

/-- Where `_advance_operation` is: at a call of a port.  `final` says that what is committed is
returned, `budget` counts the transitions that are left. -/
inductive Phase (g : GovernanceDigests d) where
  | reloading (operation : GraphArtifactGcOperation g)
  | starting (current : GraphArtifactGcOperation g) (budget : ℕ)
  | acting (current : GraphArtifactGcOperation g) (budget : ℕ)
  | recoverSnapshot (current : GraphArtifactGcOperation g) (error : GraphArtifactResultError)
      (budget : ℕ)
  | recoverList (current : GraphArtifactGcOperation g) (error : GraphArtifactResultError)
      (budget : ℕ)
  | committing (current candidate : GraphArtifactGcOperation g) (final : Bool) (budget : ℕ)
  | rereading (current : GraphArtifactGcOperation g) (error : GraphArtifactResultError)
      (final : Bool) (budget : ℕ)
  | recording (current stored : GraphArtifactGcOperation g) (final : Bool) (budget : ℕ)

/-- What comes after a step of `_advance_operation`. -/
inductive Progress (g : GovernanceDigests d) where
  | next (phase : Phase g)
  | returned
  | raised

/-- The candidate of the handlers of `_advance_operation`. -/
def handlerCandidate (now : ℤ) (current : GraphArtifactGcOperation g) (raised : Raised) :
    Except GraphArtifactResultError (GraphArtifactGcOperation g) :=
  let retryable code := operationOf now current .retryableFailure current.request
    current.quarantine current.deletion (some code)
  match raised with
  | .result error =>
    if error.code = .gcPlanStale ∧ current.request = none then
      operationOf now current .stale none none none none
    else retryable error.code
  | .other => retryable .gcOperationFailed

/-- The handlers of `_advance_operation`: what they commit is returned. -/
def handle (now : ℤ) (current : GraphArtifactGcOperation g) (raised : Raised) (budget : ℕ) :
    Progress g :=
  match handlerCandidate now current raised with
  | .ok candidate => .next (.committing current candidate true budget)
  | .error _ => .raised

/-- A candidate that is made in the `try` block is committed next. -/
def commit (now : ℤ) (current : GraphArtifactGcOperation g) (budget : ℕ)
    (candidate : Except GraphArtifactResultError (GraphArtifactGcOperation g)) : Progress g :=
  match candidate with
  | .ok candidate => .next (.committing current candidate false budget)
  | .error e => handle now current (.result e) budget

/-- An exception within `_commit_transition` leaves the call or goes to the handlers. -/
def commitRaised (now : ℤ) (current : GraphArtifactGcOperation g) (final : Bool) (raised : Raised)
    (budget : ℕ) : Progress g :=
  if final then .raised else handle now current raised budget

/-- The end of `_detach_candidate`. -/
def detachedCandidate (now : ℤ) (current : GraphArtifactGcOperation g)
    (receipt : ArtifactCatalogGcDetachReceipt) :
    Except GraphArtifactResultError (GraphArtifactGcOperation g) := do
  let request ← GraphArtifactPhysicalDeleteRequest.create current.intent.entry.record receipt
  operationOf now current .catalogDetached (some request) current.quarantine current.deletion none

/-- The receipt of a recovered detach. -/
def GraphArtifactGcOperationIntent.recoveredReceipt (intent : GraphArtifactGcOperationIntent d) :
    ArtifactCatalogGcDetachReceipt :=
  ⟨intent.entry, intent.claims, intent.references, intent.preparedAt⟩

/-- The snapshot still shows the entry, or something of it. -/
def ArtifactCatalogSnapshot.Shows (d : CatalogDigests) (snapshot : ArtifactCatalogSnapshot)
    (entryId : String) : Prop :=
  (∃ e ∈ snapshot.entries, e.entryId d = entryId) ∨
    (∃ claim ∈ snapshot.claims, claim.entryId d = entryId) ∨
      ∃ r ∈ snapshot.references, r.entryId = entryId

instance (snapshot : ArtifactCatalogSnapshot) (entryId : String) :
    Decidable (snapshot.Shows d entryId) :=
  inferInstanceAs (Decidable (_ ∨ _ ∨ _))

/-- Another operation of the entry has detached it. -/
def DetachedByOther (current : GraphArtifactGcOperation g)
    (operations : List (GraphArtifactGcOperation g)) : Prop :=
  ∃ other ∈ operations, other.operationId g ≠ current.operationId g ∧
    other.intent.entry.entryId d = current.intent.entry.entryId d ∧
    other.state ∉ [.prepared, .stale]

instance (current : GraphArtifactGcOperation g) (operations : List (GraphArtifactGcOperation g)) :
    Decidable (DetachedByOther current operations) :=
  inferInstanceAs (Decidable (∃ other ∈ operations, _ ∧ _ ∧ _))

def maxOperationTransitions : ℕ := 8

/-- What the lifecycle port does for `quarantine`. -/
def Answer.quarantine : Answer → Except Raised GraphArtifactQuarantineReceipt
  | .quarantined receipt => .ok receipt
  | .raises raised => .error raised
  | _ => .error .other

/-- What the lifecycle port does for `purge`. -/
def Answer.purge : Answer → Except Raised GraphArtifactDeletionReceipt
  | .deleted receipt => .ok receipt
  | .raises raised => .error raised
  | _ => .error .other

/-- The transition of an operation that is detached. -/
def collect (moment : Moment) (current : GraphArtifactGcOperation g) (budget : ℕ) : Progress g :=
  match current.quarantine with
  | none =>
    match moment.answer.quarantine with
    | .ok receipt => commit moment.now current budget
        (operationOf moment.now current .quarantined current.request (some receipt)
          current.deletion none)
    | .error raised => handle moment.now current raised budget
  | some _ =>
    match current.deletion with
    | none =>
      match moment.answer.purge with
      | .ok receipt => commit moment.now current budget
          (operationOf moment.now current .purged current.request current.quarantine
            (some receipt) none)
      | .error raised => handle moment.now current raised budget
    | some _ => commit moment.now current budget
        (operationOf moment.now current .completed current.request current.quarantine
          current.deletion none)

/-- The call of `detach_gc_candidate`, and the state of the catalog after it. -/
def detach {c : LocalJsonArtifactCatalog} {g : GovernanceDigests c.digests} (moment : Moment)
    (current : GraphArtifactGcOperation g) (state : c.State) :
    Except Raised ArtifactCatalogGcDetachReceipt × c.State :=
  match moment.answer with
  | .raises raised => (.error raised, state)
  | _ =>
    let detached := callCatalog c (fun s => s.detachGcCandidate current.intent.detachRequest) state
    (detached.1.mapError .result, detached.2)

/-- What follows `detach_gc_candidate`. -/
def afterDetach (now : ℤ) (current : GraphArtifactGcOperation g) (budget : ℕ)
    (receipt : Except Raised ArtifactCatalogGcDetachReceipt) : Progress g :=
  match receipt with
  | .ok receipt => commit now current budget (detachedCandidate now current receipt)
  | .error (.result error) =>
    if error.code = .gcPlanStale then .next (.recoverSnapshot current error budget)
    else handle now current (.result error) budget
  | .error .other => handle now current .other budget

end Advance

section Runtime

variable {c : LocalJsonArtifactCatalog} {g : GovernanceDigests c.digests}

/-- A step of `_advance_operation`. -/
def Phase.proceed (moment : Moment) (state : c.State) (ledger : GovernanceLedger g) :
    Phase g → c.State × GovernanceLedger g × Progress g
  | .reloading operation =>
    (state, ledger, match moment.answer.port (orRaise
        (ledger.getGcOperation operation.intent.tenantId (operation.operationId g))
        ⟨.governanceRecordNotFound, "governance.gc_operation"⟩) with
      | .ok stored => .next (.starting stored maxOperationTransitions)
      | .error _ => .raised)
  | .starting current budget =>
    (state, ledger, match moment.answer.port (.ok ()) with
      | .ok _ => if current.state.terminal then .returned else .next (.acting current budget)
      | .error _ => .raised)
  | .acting current budget =>
    match current.request with
    | none =>
      let detached := detach moment current state
      (detached.2, ledger, afterDetach moment.now current budget detached.1)
    | some _ => (state, ledger, collect moment current budget)
  | .recoverSnapshot current error budget =>
    (state, ledger, match moment.answer.port
        (.ok (catalogSnapshot state current.intent.tenantId)) with
      | .ok snapshot =>
        if snapshot.Shows c.digests (current.intent.entry.entryId c.digests) then
          handle moment.now current (.result error) budget
        else .next (.recoverList current error budget)
      | .error raised => handle moment.now current raised budget)
  | .recoverList current error budget =>
    (state, ledger, match moment.answer.port
        (.ok (ledger.listGcOperations current.intent.tenantId true)) with
      | .ok operations =>
        if DetachedByOther current operations then
          handle moment.now current (.result error) budget
        else commit moment.now current budget
          (detachedCandidate moment.now current current.intent.recoveredReceipt)
      | .error raised => handle moment.now current raised budget)
  | .committing current candidate final budget =>
    match moment.answer.port
        (ledger.compareAndSetGcOperation candidate current.operationChecksum) with
    | .ok (ledger', stored) => (state, ledger', .next (.recording current stored final budget))
    | .error (.result error) => (state, ledger, .next (.rereading current error final budget))
    | .error .other => (state, ledger, commitRaised moment.now current final .other budget)
  | .rereading current error final budget =>
    (state, ledger, match moment.answer.port
        (.ok (ledger.getGcOperation current.intent.tenantId (current.operationId g))) with
      | .ok (some latest) =>
        if error.code ∈ [.resultIdentityConflict, .gcOperationFailed] ∧
            latest.operationChecksum ≠ current.operationChecksum then
          .next (.recording current latest final budget)
        else commitRaised moment.now current final (.result error) budget
      | .ok none => commitRaised moment.now current final (.result error) budget
      | .error raised => commitRaised moment.now current final raised budget)
  | .recording current stored final budget =>
    (state, ledger, match moment.answer.port (.ok ()) with
      | .ok _ =>
        if final then .returned
        else if budget ≤ 1 then .raised
        else .next (.starting stored (budget - 1))
      | .error raised => commitRaised moment.now current final raised budget)

/-! ## Preparing a plan -/

/-- What `prepare_gc` holds while it stores the operations of a plan. -/
structure Preparation (g : GovernanceDigests c.digests) where
  tenantId : String
  plan : ArtifactCatalogGcPlan
  snapshot : ArtifactCatalogSnapshot
  active : List (GraphArtifactGcOperation g)
  decisions : List ArtifactCatalogGcDecision

/-- The decisions of a plan that name a candidate. -/
def ArtifactCatalogGcPlan.candidates (plan : ArtifactCatalogGcPlan) :
    List ArtifactCatalogGcDecision :=
  plan.decisions.filter fun decision => decide (decision.action = .deleteCandidate)

/-- The intent for a decision, from the evidence of the snapshot. -/
def Preparation.intent (p : Preparation g) (decision : ArtifactCatalogGcDecision) :
    Except GraphArtifactResultError (GraphArtifactGcOperationIntent c.digests) := do
  let entry ← orRaise
    (p.snapshot.entries.find? fun e => decide (e.entryId c.digests = decision.entryId))
    ⟨.gcPlanStale, "governance.prepare.evidence"⟩
  let claims := decision.claimIds.filterMap fun claimId =>
    p.snapshot.claims.find? fun claim => decide (claim.claimId c.digests = claimId)
  let references := decision.referenceIds.filterMap fun referenceId =>
    p.snapshot.references.find? fun r => decide (r.referenceId c.digests = referenceId)
  require (claims.length = decision.claimIds.length ∧
      references.length = decision.referenceIds.length)
    ⟨.gcPlanStale, "governance.prepare.evidence"⟩
  GraphArtifactGcOperationIntent.create p.tenantId (g.plan p.plan)
    p.plan.catalogSnapshotChecksum p.plan.policyVersion decision entry claims references
    p.plan.generatedAt

/-- The operation for a decision; no other operation of its entry may be active. -/
def Preparation.operation (p : Preparation g) (decision : ArtifactCatalogGcDecision) :
    Except GraphArtifactResultError (GraphArtifactGcOperation g) := do
  let intent ← p.intent decision
  let other := p.active.reverse.find? fun operation =>
    decide (operation.intent.entry.entryId c.digests = intent.entry.entryId c.digests)
  require (∀ operation ∈ other, operation.operationId g = intent.operationId g)
    ⟨.gcOperationFailed, "governance.prepare.active_entry"⟩
  GraphArtifactGcOperation.create
    { state := .prepared
      intent := intent
      request := none
      quarantine := none
      deletion := none
      errorCode := none
      updatedAt := p.plan.generatedAt }

/-! ## Calls of the runtime -/

/-- Where a call of the runtime is: at a call of a port. -/
inductive Call (g : GovernanceDigests c.digests) where
  | planning (tenantId policyVersion : String) (now : ℤ) (attempts : ℕ)
  | planned (tenantId policyVersion : String) (now : ℤ) (attempts : ℕ)
      (decisions : List ArtifactCatalogGcDecision) (snapshotChecksum : HexDigest)
  | storing (p : Preparation g)
  | listing (p : Preparation g)
  | preparing (p : Preparation g)
  | putting (p : Preparation g) (prepared : GraphArtifactGcOperation g)
  | recordingPrepared (p : Preparation g)
  | applying (tenantId : String) (planChecksum : HexDigest) (limit : ℕ)
  | applyListing (tenantId : String) (plan : ArtifactCatalogGcPlan) (limit : ℕ)
  | resuming (tenantId : String) (limit : ℕ)
  | advancing (phase : Phase g) (queue : List (GraphArtifactGcOperation g))

def maxCoherentSnapshotAttempts : ℕ := 3

/-- The operations of a plan that `apply_gc` advances: those of its candidates, up to the first
one that is missing and up to the limit. -/
def ArtifactCatalogGcPlan.selected (plan : ArtifactCatalogGcPlan)
    (operations : List (GraphArtifactGcOperation g)) (limit : ℕ) :
    List (GraphArtifactGcOperation g) :=
  let ofPlan := operations.filter fun operation =>
    decide (operation.intent.planChecksum = g.plan plan)
  let found := plan.candidates.map fun decision => ofPlan.reverse.find? fun operation =>
    decide (g.decision operation.intent.decision = g.decision decision)
  (found.takeWhile Option.isSome).reduceOption.take limit

/-- The operations that `resume_gc` advances. -/
def pending (operations : List (GraphArtifactGcOperation g)) (limit : ℕ) :
    List (GraphArtifactGcOperation g) :=
  (operations.filter fun operation => decide (operation.state ≠ .stale)).take limit

/-- The next operation of a call. -/
def advanceNext (queue : List (GraphArtifactGcOperation g)) : Option (Call g) :=
  match queue with
  | [] => none
  | operation :: queue => some (.advancing (.reloading operation) queue)

/-- What is left of a call after a step on its operation. -/
def Progress.call (progress : Progress g) (queue : List (GraphArtifactGcOperation g)) :
    Option (Call g) :=
  match progress with
  | .next phase => some (.advancing phase queue)
  | .returned => advanceNext queue
  | .raised => none

/-- The step of `prepare_gc` that looks for the operation of the next decision. -/
def Preparation.proceed (moment : Moment) (ledger : GovernanceLedger g) (p : Preparation g) :
    Option (Call g) :=
  match p.decisions with
  | [] => none
  | decision :: decisions =>
    let rest := { p with decisions := decisions }
    match p.operation decision with
    | .error _ => none
    | .ok prepared =>
      match moment.answer.port
          (.ok (ledger.getGcOperation p.tenantId (prepared.operationId g))) with
      | .error _ => none
      | .ok none => some (.putting rest prepared)
      | .ok (some existing) =>
        if existing.intent = prepared.intent then some (.recordingPrepared rest) else none

/-- A step of a call: the catalog and the ledger after it, and what is left of the call. -/
def Call.proceed (moment : Moment) (state : c.State) (ledger : GovernanceLedger g) :
    Call g → c.State × GovernanceLedger g × Option (Call g)
  | .planning tenantId policyVersion now attempts =>
    (state, ledger, match moment.answer.port (.ok (state.planGc now (some tenantId))) with
      | .ok decisions => some (.planned tenantId policyVersion now attempts decisions
          (g.snapshot (catalogSnapshot state tenantId)))
      | .error _ => none)
  | .planned tenantId policyVersion now attempts decisions snapshotChecksum =>
    (state, ledger, match moment.answer.port (.ok (catalogSnapshot state tenantId)) with
      | .ok snapshot =>
        if snapshotChecksum = g.snapshot snapshot then
          let plan : ArtifactCatalogGcPlan := ⟨now, decisions, snapshotChecksum, policyVersion⟩
          some (.storing ⟨tenantId, plan, snapshot, [], plan.candidates⟩)
        else if attempts ≤ 1 then none
        else some (.planning tenantId policyVersion now (attempts - 1))
      | .error _ => none)
  | .storing p =>
    match moment.answer.port (ledger.putGcPlan p.tenantId p.plan) with
    | .ok (ledger', stored) =>
      (state, ledger', if stored = p.plan then some (.listing p) else none)
    | .error _ => (state, ledger, none)
  | .listing p =>
    (state, ledger, match moment.answer.port (.ok (ledger.listGcOperations p.tenantId false)) with
      | .ok operations => some (.preparing
          { p with active := operations.filter fun operation => !operation.state.terminal })
      | .error _ => none)
  | .preparing p => (state, ledger, p.proceed moment ledger)
  | .putting p prepared =>
    match moment.answer.port (ledger.putGcOperation prepared) with
    | .ok (ledger', stored) =>
      (state, ledger',
        if stored.intent = prepared.intent then some (.recordingPrepared p) else none)
    | .error _ => (state, ledger, none)
  | .recordingPrepared p =>
    (state, ledger, match moment.answer.port (.ok ()) with
      | .ok _ => some (.preparing p)
      | .error _ => none)
  | .applying tenantId planChecksum limit =>
    (state, ledger, match moment.answer.port (orRaise (ledger.getGcPlan tenantId planChecksum)
        ⟨.governanceRecordNotFound, "governance.plan_checksum"⟩) with
      | .ok plan => some (.applyListing tenantId plan limit)
      | .error _ => none)
  | .applyListing tenantId plan limit =>
    (state, ledger, match moment.answer.port (.ok (ledger.listGcOperations tenantId true)) with
      | .ok operations => advanceNext (plan.selected operations limit)
      | .error _ => none)
  | .resuming tenantId limit =>
    (state, ledger, match moment.answer.port (.ok (ledger.listGcOperations tenantId false)) with
      | .ok operations => advanceNext (pending operations limit)
      | .error _ => none)
  | .advancing phase queue =>
    let after := phase.proceed moment state ledger
    (after.1, after.2.1, after.2.2.call queue)

/-! ## Everything that runs -/

/-- The calls that the users of a catalog make. -/
inductive CatalogClientCall (d : CatalogDigests) where
  | register (request : ArtifactCatalogRegistrationRequest d)
  | addReference (reference : ArtifactLogicalReference)
  | removeReference (tenantId referenceId : String)
  | retireReference (request : ArtifactReferenceRetirementRequest)

/-- The call of the catalog. -/
def CatalogClientCall.catalogCall {d : CatalogDigests} : CatalogClientCall d → CatalogCall d
  | .register request => .register request
  | .addReference reference => .addReference reference
  | .removeReference tenantId referenceId => .removeReference tenantId referenceId
  | .retireReference request => .retireReference request

/-- A call of a runtime whose arguments it has accepted. -/
inductive RuntimeCall where
  | prepareGc (tenantId policyVersion : String) (now : ℤ)
  | applyGc (tenantId : String) (planChecksum : HexDigest) (limit : ℕ)
  | resumeGc (tenantId : String) (limit : ℕ)

/-- Where a call begins. -/
def RuntimeCall.first (g : GovernanceDigests c.digests) : RuntimeCall → Call g
  | .prepareGc tenantId policyVersion now =>
    .planning tenantId policyVersion now maxCoherentSnapshotAttempts
  | .applyGc tenantId planChecksum limit => .applying tenantId planChecksum limit
  | .resumeGc tenantId limit => .resuming tenantId limit

/-- One catalog, one ledger and the calls that are running. -/
structure World (g : GovernanceDigests c.digests) where
  state : c.State
  ledger : GovernanceLedger g
  calls : List (Call g)

/-- Nothing is registered and nothing runs. -/
def World.start (g : GovernanceDigests c.digests) : World g :=
  ⟨.empty c.digests, .empty g, []⟩

/-- What happens next: a user calls the catalog, a runtime is called, a running call makes its next
step, or it crashes. -/
inductive Event (c : LocalJsonArtifactCatalog) where
  | client (call : CatalogClientCall c.digests)
  | start (call : RuntimeCall)
  | proceed (running : ℕ) (moment : Moment)
  | crash (running : ℕ)

/-- The running calls after one of them has made a step. -/
def replaceCall (calls : List (Call g)) (running : ℕ) (next : Option (Call g)) : List (Call g) :=
  match next with
  | some call => calls.set running call
  | none => calls.eraseIdx running

/-- The world after an event. -/
def World.step (w : World g) : Event c → World g
  | .client call => { w with state := c.advance w.state call.catalogCall }
  | .start call => { w with calls := w.calls ++ [call.first g] }
  | .proceed running moment =>
    match w.calls[running]? with
    | none => w
    | some call =>
      let after := call.proceed moment w.state w.ledger
      ⟨after.1, after.2.1, replaceCall w.calls running after.2.2⟩
  | .crash running => { w with calls := w.calls.eraseIdx running }

end Runtime

end ArtifactGovernance
