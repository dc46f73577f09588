/-
# Snapshots of the budget ledger

`BudgetLedger.snapshot`, and `BudgetLedger.restore` with the registration of the
scopes, the committed totals rebuilt from the settlements and the final validation.
-/
import AgoraHub.BudgetLedger

namespace Budget

open Fallible PyText PyDict

/-! ## Records of a snapshot -/

structure BudgetScopeSnapshot where
  scope : BudgetScopeRef
  policy : BudgetPolicy
  committed : BudgetAmounts
  reserved : BudgetAmounts
  baselineCommitted : Option BudgetAmounts
  deriving DecidableEq

/-- The check of `BudgetScopeSnapshot.__post_init__`. -/
def BudgetScopeSnapshot.create (s : BudgetScopeSnapshot) : Except BudgetError BudgetScopeSnapshot := do
  require (s.scope.policyRevision = s.policy.policyRevision)
    (.contract "snapshot scope policy revision mismatch")
  .ok s

structure BudgetSnapshot where
  rootScopeId : RequiredText
  policyDigest : RequiredText
  scopes : List BudgetScopeSnapshot
  openReservations : List BudgetReservation
  operationRecords : List BudgetOperationRecord
  lastEventId : Option RequiredText
  ledgerRevision : ℕ
  deriving DecidableEq

def optionalText (value : Option String) (fieldName : String) :
    Except BudgetError (Option RequiredText) :=
  match value with
  | none => .ok none
  | some text => do
    let checked ← requiredText text fieldName
    .ok (some checked)

/-- The checks of `BudgetSnapshot.__post_init__`. -/
def BudgetSnapshot.create (rootScopeId policyDigest : RequiredText)
    (scopes : List BudgetScopeSnapshot) (openReservations : List BudgetReservation)
    (operationRecords : List BudgetOperationRecord) (lastEventId : Option String)
    (ledgerRevision : ℕ) : Except BudgetError BudgetSnapshot := do
  require (scopes.length ≤ maxSnapshotRecords) (.contract "snapshot contains too many scopes")
  require (openReservations.length ≤ maxSnapshotRecords)
    (.contract "snapshot contains too many open reservations")
  require (operationRecords.length ≤ maxSnapshotRecords)
    (.contract "snapshot contains too many operation records")
  let lastEventId ← optionalText lastEventId "last_event_id"
  let ledgerRevision ← boundedInt ledgerRevision "ledger_revision"
  .ok ⟨rootScopeId, policyDigest, scopes, openReservations, operationRecords, lastEventId,
    ledgerRevision⟩

namespace BudgetLedger

variable (sha256 : String → HexDigest)

/-! ## snapshot -/

/-- `sorted(mapping)` for a mapping keyed by identities. -/
def sortedKeys {ν : Type} (d : PyDict RequiredText ν) : List RequiredText :=
  d.keys.insertionSort fun a b => a.val ≤ b.val

/-- The snapshot of one scope. -/
def scopeSnapshot (L : BudgetLedger) (id : RequiredText) : Except BudgetError BudgetScopeSnapshot := do
  let scope ← item L.scopes id id.val
  let policy ← item L.policies id id.val
  let committed ← item L.committed id id.val
  let reserved ← item L.reserved id id.val
  let baseline ← item L.baselineCommitted id id.val
  BudgetScopeSnapshot.create ⟨scope, policy, committed, reserved, some baseline⟩

/-- `snapshot`, for the root scope. -/
def snapshot (L : BudgetLedger) : Except BudgetError BudgetSnapshot := do
  let rootPolicy ← item L.policies L.rootScopeId L.rootScopeId.val
  let scopes ← (sortedKeys L.scopes).mapM L.scopeSnapshot
  let reservations ← (sorted L.reservations.keys).mapM fun key => item L.reservations key key
  let records ← (sortedKeys L.operations).mapM fun key => item L.operations key key.val
  BudgetSnapshot.create L.rootScopeId (rootPolicy.digest sha256) scopes
    (reservations.filter fun r => r.status.isOpen) records L.lastEventId L.revision

/-! ## restore -/

def rejectDuplicateIdentities {κ : Type} [DecidableEq κ] (values : List κ) (label : String) :
    Except BudgetError Unit :=
  require values.Nodup (.history ("snapshot contains duplicate " ++ label ++ " identity"))

/-- One pass over the pending scopes: those whose parent is known are registered, the
others stay pending. -/
def registerPass (L : BudgetLedger) :
    List BudgetScopeSnapshot → Except BudgetError (BudgetLedger × List BudgetScopeSnapshot)
  | [] => .ok (L, [])
  | item :: rest =>
    if ∃ parent ∈ item.scope.parentScopeId, (L.scopes.get? parent).isSome = true then do
      let out := L.registerScope item.scope item.policy
      let _ ← out.outcome
      registerPass out.ledger rest
    else do
      let (after, pending) ← registerPass L rest
      .ok (after, item :: pending)

def cyclicScopeGraph : BudgetError := .history "snapshot scope graph is cyclic or incomplete"

/-- `while pending: ...`.  Every pass that makes progress shortens the list, so its
length is fuel enough. -/
def registerAll : ℕ → BudgetLedger → List BudgetScopeSnapshot → Except BudgetError BudgetLedger
  | _, L, [] => .ok L
  | 0, _, _ :: _ => .error cyclicScopeGraph
  | fuel + 1, L, item :: rest => do
    let (after, pending) ← registerPass L (item :: rest)
    if pending.length = (item :: rest).length then .error cyclicScopeGraph
    else registerAll fuel after pending

section

variable (L : BudgetLedger)

/-- A pass over `self._ancestors(id)` that updates a local table. -/
def bookUp (id : RequiredText) (add : Bool) (amount : BudgetAmounts)
    (totals : PyDict RequiredText BudgetAmounts) :
    Except BudgetError (PyDict RequiredText BudgetAmounts) :=
  match L.applyDeltaUp id add amount totals with
  | (.ok _, after) => .ok after
  | (.error e, _) => .error e

/-- The baselines of an older snapshot, inferred from its settlements. -/
def inferBaselines (legacy : List RequiredText)
    (baselines : PyDict RequiredText BudgetAmounts) (record : BudgetOperationRecord) :
    Except BudgetError (PyDict RequiredText BudgetAmounts) :=
  match record.settlement with
  | none => .ok baselines
  | some settlement =>
    L.forAncestors settlement.scope.scopeId (fun t ancestor =>
      if ancestor ∈ legacy then do
        let current ← item t ancestor ancestor.val
        let next ← current.subtract settlement.actual
        .ok (t.set ancestor next)
      else .ok t) baselines

/-- The settlements of one record, added to the expected totals. -/
def expectSettlement (expected : PyDict RequiredText BudgetAmounts)
    (record : BudgetOperationRecord) : Except BudgetError (PyDict RequiredText BudgetAmounts) :=
  match record.settlement with
  | none => .ok expected
  | some settlement => do
    require ((expected.get? settlement.scope.scopeId).isSome = true)
      (.state "settlement references unknown scope")
    L.bookUp settlement.scope.scopeId true settlement.actual expected

/-- `_validate_committed_totals`, with the baselines it assigns. -/
def validateCommittedTotals (S : BudgetSnapshot) :
    Except BudgetError (PyDict RequiredText BudgetAmounts) := do
  let given := ofItems (fun i : BudgetScopeSnapshot => i.scope.scopeId)
    (fun i => i.baselineCommitted.getD i.committed) S.scopes
  let legacy := (S.scopes.filter fun i => i.baselineCommitted.isNone).map fun i => i.scope.scopeId
  let baselines ← S.operationRecords.foldlM (fun t record =>
    if legacy = [] then .ok t else L.inferBaselines legacy t record) given
  let expected ← S.operationRecords.foldlM L.expectSettlement baselines
  L.committed.forM fun (entry : RequiredText × BudgetAmounts) => do
    let amounts ← item expected entry.1 entry.1.val
    require (entry.2 = amounts) (.state
      ("snapshot committed totals do not match operation history for " ++ entry.1.val))
  .ok baselines

/-- The reserved totals that the reservations account for. -/
def expectReservation (expected : PyDict RequiredText BudgetAmounts)
    (r : BudgetReservation) : Except BudgetError (PyDict RequiredText BudgetAmounts) := do
  require ((L.scopes.get? r.scope.scopeId).isSome = true)
    (.state "reservation references unknown scope")
  let policy ← item L.policies r.scope.scopeId r.scope.scopeId.val
  require (r.policyDigest = policy.digest sha256) (.state "reservation policy digest mismatch")
  if r.status.isOpen then L.bookUp r.scope.scopeId true r.requested expected else .ok expected

/-- The check of one scope in `_validate_restored_state`. -/
def validateScope (entry : RequiredText × BudgetScopeRef) : Except BudgetError Unit := do
  let root ← item L.scopes L.rootScopeId L.rootScopeId.val
  require (entry.2.runId = root.runId) (.state "snapshot scope crossed run boundary")
  let total ← L.usedAt entry.1
  let policy ← item L.policies entry.1 entry.1.val
  require (policy.limits.violations total = [])
    (.state ("snapshot exceeds policy for " ++ entry.1.val))

end

/-- The status that a settlement leaves, as `_validate_restored_state` derives it. -/
def expectedStatus (s : BudgetSettlement) : BudgetReservationStatus :=
  match s.outcome with
  | .indeterminate => .indeterminate
  | .cancelled =>
    if s.reasonCode.map RequiredText.val = some BudgetReasonCode.reservationExpired.value then
      .expired
    else .released
  | _ => .settled

section

variable (L : BudgetLedger)

/-- The checks of `_validate_restored_state` on an operation with a reservation. -/
def validateReserved (operationId : RequiredText)
    (record : BudgetOperationRecord) (reservationId : RequiredText) : Except BudgetError Unit := do
  let r ← orRaise record.reservation (.state "operation lacks reservation projection")
  require (r.reservationId = reservationId) (.state "operation reservation identity mismatch")
  require (L.reservations.get? reservationId.val = some r)
    (.state "operation reservation conflicts with reservation index")
  require (r.operationId = operationId) (.state "reservation operation identity mismatch")
  require (r.idempotencyKey = record.idempotencyKey)
    (.state "reservation idempotency identity mismatch")
  require ((L.scopes.get? r.scope.scopeId).isSome = true)
    (.state "operation reservation references unknown scope")
  let policy ← item L.policies r.scope.scopeId r.scope.scopeId.val
  require (r.policyDigest = policy.digest sha256) (.state "operation reservation policy mismatch")
  require (record.fingerprint = operationFingerprint sha256 r.scope r.requested r.policyDigest)
    (.state "operation fingerprint mismatch")
  require (record.decision = none)
    (.state "reserved operation cannot also carry a denial decision")
  match record.settlement with
  | some settlement => do
    validateSettlement r settlement
    require (r.status = expectedStatus settlement)
      (.state "reservation status conflicts with settlement")
  | none =>
    require (r.status = .reserved) (.state "non-reserved operation lacks a terminal settlement")

/-- The checks of `_validate_restored_state` on a denied operation. -/
def validateDenied (record : BudgetOperationRecord) : Except BudgetError Unit := do
  require (record.reservation = none ∧ record.settlement = none)
    (.state "denied operation carries reservation state")
  require (∃ d ∈ record.decision, d.allowed = false)
    (.state "operation without reservation must carry a denial decision")
  require (∀ d ∈ record.decision, 1 ≤ d.ledgerRevision ∧ d.ledgerRevision ≤ L.revision ∧
      d.projectedUsage.ledgerRevision = d.ledgerRevision)
    (.state "denial decision revision exceeds ledger")

/-- The check of one operation in `_validate_restored_state`. -/
def validateOperation (entry : RequiredText × BudgetOperationRecord) : Except BudgetError Unit := do
  require (entry.1 = entry.2.operationId) (.state "operation map identity mismatch")
  require (L.idempotencyIndex.get? entry.2.idempotencyKey = some entry.1)
    (.state "operation idempotency index mismatch")
  match entry.2.reservationId with
  | some reservationId => L.validateReserved sha256 entry.1 entry.2 reservationId
  | none => L.validateDenied entry.2

def validateRestoredState : Except BudgetError Unit := do
  let zeros : PyDict RequiredText BudgetAmounts := L.scopes.map fun p => (p.1, BudgetAmounts.zero)
  let expected ← L.reservations.values.foldlM (L.expectReservation sha256) zeros
  require (PyDict.eq expected L.reserved)
    (.state "snapshot reserved totals do not match reservations")
  L.scopes.forM L.validateScope
  L.operations.forM (L.validateOperation sha256)

end

/-- `except (BudgetContractError, BudgetStateError) as exc: raise BudgetHistoryError(str(exc))`. -/
def asHistory {α : Type} (x : Except BudgetError α) : Except BudgetError α :=
  match x with
  | .error e => .error (if e.isContract || e.isState then .history e.message else e)
  | .ok a => .ok a

/-- Index the reservation of a record, unless its id is in the index. -/
def indexRecorded (d : PyDict String BudgetReservation) (record : BudgetOperationRecord) :
    PyDict String BudgetReservation :=
  match record.reservation with
  | some r => d.setDefault r.reservationId.val r
  | none => d

/-- The reservation index of a restored ledger: the open reservations, then the
recorded ones that are not in it yet. -/
def restoredIndex (S : BudgetSnapshot) : PyDict String BudgetReservation :=
  S.operationRecords.foldl indexRecorded
    (ofItems (fun r : BudgetReservation => r.reservationId.val) id S.openReservations)

/-- The fields that `restore` assigns on the ledger with its scopes. -/
def withSnapshot (L : BudgetLedger) (S : BudgetSnapshot) : BudgetLedger :=
  { L with
    committed := ofItems (fun i : BudgetScopeSnapshot => i.scope.scopeId)
      BudgetScopeSnapshot.committed S.scopes
    reserved := ofItems (fun i : BudgetScopeSnapshot => i.scope.scopeId)
      BudgetScopeSnapshot.reserved S.scopes
    reservations := restoredIndex S
    operations := ofItems BudgetOperationRecord.operationId id S.operationRecords
    idempotencyIndex := ofItems BudgetOperationRecord.idempotencyKey
      BudgetOperationRecord.operationId S.operationRecords
    revision := S.ledgerRevision
    lastEventId := S.lastEventId.map RequiredText.val }

def restore (S : BudgetSnapshot) : Except BudgetError BudgetLedger := do
  rejectDuplicateIdentities (S.scopes.map fun i => i.scope.scopeId) "scope"
  rejectDuplicateIdentities (S.openReservations.map BudgetReservation.reservationId)
    "open reservation"
  rejectDuplicateIdentities (S.operationRecords.map BudgetOperationRecord.operationId) "operation"
  rejectDuplicateIdentities (S.operationRecords.map BudgetOperationRecord.idempotencyKey)
    "idempotency"
  let scopes := ofItems (fun i : BudgetScopeSnapshot => i.scope.scopeId) id S.scopes
  let root ← orRaise (scopes.get? S.rootScopeId)
    (.history "snapshot root scope is missing or invalid")
  require (root.scope.scopeType = .run) (.history "snapshot root scope is missing or invalid")
  require (root.policy.digest sha256 = S.policyDigest) (.history "snapshot policy digest mismatch")
  let fresh ← create root.scope root.policy
  let pending := PyDict.values (scopes.filter fun p => p.1 ≠ S.rootScopeId)
  let registered ← registerAll pending.length fresh pending
  let L := registered.withSnapshot S
  let baselines ← asHistory (L.validateCommittedTotals S)
  let restored := { L with baselineCommitted := baselines }
  asHistory (restored.validateRestoredState sha256)
  .ok restored

/-! ## Replay -/

section

variable (sha256 : String → HexDigest)

/-- The exceptions of the `try` block: a history error passes, any other becomes one. -/
def replayFailure (e : BudgetEvent) {α : Type} (x : Except BudgetError α) : Except BudgetError α :=
  match x with
  | .ok a => .ok a
  | .error err =>
    .error (if err.kind = .history then err
      else .history ("budget event replay failed at " ++ e.eventId.val ++ ": " ++ err.message))

/-- The outcome of an operation that must return the given value. -/
def replayed {α : Type} (out : CallResult α) (matches_ : α → Prop) [DecidablePred matches_]
    (changed : String) : Except BudgetError BudgetLedger := do
  let result ← out.outcome
  require (matches_ result) (.history changed)
  .ok out.ledger

/-- `event.reservation_id or ""`. -/
def replayReservationId (e : BudgetEvent) : String := (e.reservationId.map RequiredText.val).getD ""

/-- The operation that replays one event. -/
def replayOperation (clock : ℤ) (L : BudgetLedger) (e : BudgetEvent) :
    Except BudgetError BudgetLedger := do
  let view ← L.viewLocked e.scope.scopeId
  require (view.policy.digest sha256 = e.policyDigest)
    (.history "budget event policy digest mismatch")
  match e.eventType with
  | .created => do
    let r ← orRaise e.reservation (.history "created event lacks reservation")
    replayed (L.reserve sha256 .absent clock e.scope e.amounts e.operationId.val
        r.idempotencyKey.val none (some r.createdAtEpochMs))
      (fun result => result = .reservation r) "replayed reservation projection changed"
  | .denied => do
    let out := L.reserve sha256 .absent clock e.scope e.amounts e.operationId.val
      e.idempotencyKey.val none none
    match ← out.outcome with
    | .reservation _ => .error (.history "replayed denial became allowed")
    | .decision d => do
      require (d.allowed = false) (.history "replayed denial became allowed")
      require (d.violations = e.reasonCodes) (.history "replayed denial reasons changed")
      .ok out.ledger
  | .settled => do
    let s ← orRaise e.settlement (.history "settled event lacks settlement")
    replayed (L.settle sha256 .absent (replayReservationId e) s)
      (fun result => result = s) "replayed settlement projection changed"
  | .released => do
    let s ← orRaise e.settlement (.history "released event lacks settlement")
    replayed (L.release sha256 .absent (replayReservationId e) e.operationId.val
        ((s.reasonCode.map RequiredText.val).getD "released") false (some e.eventId.val))
      (fun result => result = s) "replayed release projection changed"
  | .indeterminate =>
    replayed (L.markIndeterminate sha256 .absent (replayReservationId e) e.operationId.val
        (e.reasonCodes.head?.getD "indeterminate") (some e.eventId.val))
      (fun result => some result = e.settlement) "replayed indeterminate projection changed"
  | .expired => do
    let r ← L.reservation (replayReservationId e)
    let scopeView ← L.viewLocked r.scope.scopeId
    replayed (L.expire sha256 .absent clock (replayReservationId e)
        (some (r.createdAtEpochMs + scopeView.policy.reservationTtlSeconds * 1000)))
      (fun result => some result = e.settlement) "replayed expiry projection changed"

/-- The variables of the replay loop. -/
structure ReplayState where
  ledger : BudgetLedger
  seen : List RequiredText
  expectedRevision : ℕ

/-- One turn of the replay loop. -/
def replayEvent (clock : ℤ) (expectedIdentity : Option ExecutionIdentity) (state : ReplayState)
    (e : BudgetEvent) : Except BudgetError ReplayState := do
  require (e.eventId ∉ state.seen) (.history ("duplicate budget event id: " ++ e.eventId.val))
  require (e.ledgerRevision = state.expectedRevision)
    (.history ("budget event revision gap: expected " ++ toString state.expectedRevision ++
      ", received " ++ toString e.ledgerRevision))
  let root ← item state.ledger.scopes state.ledger.rootScopeId state.ledger.rootScopeId.val
  require (e.runId = root.runId) (.history "budget event crossed run scope")
  require (∀ identity ∈ expectedIdentity, e.scope.executionIdentity = some identity)
    (.history "budget event Graph identity does not match the expected replay identity")
  let ledger ← replayFailure e (replayOperation sha256 clock state.ledger e)
  require (ledger.revision = e.ledgerRevision) (.history "replayed ledger revision changed")
  let snapshot ← ledger.snapshot sha256
  require (snapshot.lastEventId = some e.eventId) (.history "replayed event identity changed")
  .ok ⟨ledger, e.eventId :: state.seen, state.expectedRevision + 1⟩

def replayBudgetEvents (clock : ℤ) (S : BudgetSnapshot) (events : List BudgetEvent)
    (expectedIdentity : Option ExecutionIdentity) : Except BudgetError BudgetLedger := do
  let ledger ← restore sha256 S
  let final ← events.foldlM (replayEvent sha256 clock expectedIdentity)
    ⟨ledger, [], S.ledgerRevision + 1⟩
  .ok final.ledger

end

end BudgetLedger

end Budget
