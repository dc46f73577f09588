/-
# The budget ledger

The state of `BudgetLedger` and its public operations.  An operation first makes
its checks, which read the ledger and can raise, and then commits: it appends the
event and assigns the fields in source order.  A commit is modelled with the
state it leaves behind when one of its assignments raises.
-/
import AgoraHub.BudgetModels
import AgoraHub.Forest

namespace Budget

open Fallible PyText BudgetReasonCode
open BudgetAmounts (zero)

/-- The fields of `BudgetLedger`, without its event sink and clock. -/
structure BudgetLedger where
  rootScopeId : RequiredText
  scopes : PyDict RequiredText BudgetScopeRef
  policies : PyDict RequiredText BudgetPolicy
  committed : PyDict RequiredText BudgetAmounts
  baselineCommitted : PyDict RequiredText BudgetAmounts
  reserved : PyDict RequiredText BudgetAmounts
  reservations : PyDict String BudgetReservation
  operations : PyDict RequiredText BudgetOperationRecord
  idempotencyIndex : PyDict RequiredText RequiredText
  revision : ℕ
  lastEventId : Option String

/-- What a call to the event sink does: there is no sink, the sink records the
event, or its `append` raises and the sink is required or not. -/
inductive SinkReply where
  | absent
  | recorded
  | failed (required : Bool)
  deriving DecidableEq

/-- The outcome of a call: what it returned or raised, the ledger it left behind
and the events the sink recorded. -/
structure CallResult (α : Type) where
  outcome : Except BudgetError α
  ledger : BudgetLedger
  recorded : List BudgetEvent

/-- A commit: assignments to the ledger, some of which can raise. -/
abbrev Commit (α : Type) := Stateful BudgetLedger BudgetError α

/-- The result of a check that raised: the ledger is untouched. -/
def CallResult.raised {α : Type} (e : BudgetError) (L : BudgetLedger) : CallResult α :=
  ⟨.error e, L, []⟩

/-- The result of a call that returns without a change. -/
def CallResult.returned {α : Type} (a : α) (L : BudgetLedger) : CallResult α := ⟨.ok a, L, []⟩

/-- `_append_event`: the events recorded, or the error of a required sink. -/
def appendEvent (sink : SinkReply) (event : BudgetEvent) : Except BudgetError (List BudgetEvent) :=
  match sink with
  | .absent => .ok []
  | .recorded => .ok [event]
  | .failed true => .error ⟨.eventWrite, "required budget event append failed"⟩
  | .failed false => .ok []

/-- `self._append_event(event)` followed by the assignments of the operation. -/
def appendThen {α : Type} (sink : SinkReply) (event : BudgetEvent) (commit : Commit α)
    (L : BudgetLedger) : CallResult α :=
  match appendEvent sink event with
  | .error e => .raised e L
  | .ok recorded =>
    let after := commit.exec L
    ⟨after.1, after.2, recorded⟩

/-! ## Derived identities -/

section Identities

variable (sha256 : String → HexDigest)

/-- `_reservation_id`. -/
def reservationIdOf (operationId idempotencyKey : RequiredText) : RequiredText :=
  taggedDigest "budget-reservation:"
    (sha256 (operationId.val ++ "\x00" ++ idempotencyKey.val)) (by decide)
    (by
      intro c hc
      rw [String.toList_append] at hc
      obtain rfl : 'b' = c := by simpa using hc
      decide)

/-- `_event_id`. -/
def eventIdOf (kind identity : String) (revision : ℕ) : RequiredText :=
  taggedDigest "budget-event:"
    (sha256 (kind ++ "\x00" ++ identity ++ "\x00" ++ toString revision)) (by decide)
    (by
      intro c hc
      rw [String.toList_append] at hc
      obtain rfl : 'b' = c := by simpa using hc
      decide)

end Identities

namespace BudgetLedger

variable (sha256 : String → HexDigest)

/-! ## Construction and reads -/

section

variable (rootScope : BudgetScopeRef)

/-- The ledger that `__init__` builds, with the given amounts committed at its root. -/
def initial (rootPolicy : BudgetPolicy) (committed : BudgetAmounts) : BudgetLedger where
  rootScopeId := rootScope.scopeId
  scopes := [(rootScope.scopeId, rootScope)]
  policies := [(rootScope.scopeId, rootPolicy)]
  committed := [(rootScope.scopeId, committed)]
  baselineCommitted := [(rootScope.scopeId, committed)]
  reserved := [(rootScope.scopeId, zero)]
  reservations := []
  operations := []
  idempotencyIndex := []
  revision := 0
  lastEventId := none

/-- `BudgetLedger.__init__`. -/
def create (rootPolicy : BudgetPolicy) : Except BudgetError BudgetLedger := do
  require (rootScope.scopeType = .run) (.contract "root scope must have type run")
  require (rootScope.policyRevision = rootPolicy.policyRevision)
    (.contract "root scope policy revision does not match policy")
  .ok (initial rootScope rootPolicy zero)

/-- `restore_legacy_budget_snapshot`, after its fields are read: an imported total
becomes the baseline of a fresh root scope. -/
def restoreLegacy (policy : BudgetPolicy) (committed : BudgetAmounts) :
    Except BudgetError BudgetLedger := do
  let _ ← create rootScope policy
  require (policy.limits.violations committed = [])
    (.history "legacy snapshot exceeds canonical policy")
  .ok (initial rootScope policy committed)

end

/-- `mapping[key]`. -/
def item {κ ν : Type} [DecidableEq κ] (d : PyDict κ ν) (k : κ) (text : String) :
    Except BudgetError ν :=
  orRaise (d.get? k) ⟨.keyError, text⟩

/-- The parent pointers of the registered scopes. -/
def parentOf (L : BudgetLedger) (id : RequiredText) : Option (Option RequiredText) :=
  (L.scopes.get? id).map BudgetScopeRef.parentScopeId

/-- `_ancestors`: the scope ids yielded, and whether the generator ended without
raising. -/
def ancestors (L : BudgetLedger) (id : RequiredText) : List RequiredText × Bool :=
  Forest.walk L.parentOf (L.scopes.length + 1) [] (some id)

def invalidScopeGraph : BudgetError := .contract "invalid budget scope graph"

/-- `for ancestor_id in self._ancestors(scope_id): ...`. -/
def forAncestors {σ : Type} (L : BudgetLedger) (id : RequiredText)
    (body : σ → RequiredText → Except BudgetError σ) (start : σ) : Except BudgetError σ := do
  let out ← (L.ancestors id).1.foldlM body start
  require ((L.ancestors id).2 = true) invalidScopeGraph
  .ok out

/-- `self._committed[id].add(self._reserved[id])`. -/
def usedAt (L : BudgetLedger) (id : RequiredText) : Except BudgetError BudgetAmounts := do
  let committed ← item L.committed id id.val
  let reserved ← item L.reserved id id.val
  committed.add reserved

/-- The component-wise minimum of two amounts. -/
def tighter (a b : BudgetAmounts) : BudgetAmounts where
  get d := min (a.get d) (b.get d)
  le_max d := (min_le_left _ _).trans (a.le_max d)

section

variable (L : BudgetLedger)

def effectiveAvailable (id : RequiredText) (extra : Option BudgetAmounts) :
    Except BudgetError BudgetAmounts := do
  let availabilities ← L.forAncestors id (fun acc ancestor => do
    let used ← L.usedAt ancestor
    let used ← match extra with
      | none => .ok used
      | some amounts => used.add amounts
    let policy ← item L.policies ancestor ancestor.val
    .ok (acc ++ [policy.limits.available used])) []
  match availabilities with
  | [] => .error ⟨.valueError, "min() iterable argument is empty"⟩
  | a :: rest => .ok (rest.foldl tighter a)

def viewLocked (id : RequiredText) : Except BudgetError BudgetView := do
  let scope ← orRaise (L.scopes.get? id) (.contract ("unknown budget scope: " ++ id.val))
  let policy ← item L.policies id id.val
  let committed ← item L.committed id id.val
  let reserved ← item L.reserved id id.val
  let available ← L.effectiveAvailable id none
  let usage ← BudgetUsage.create ⟨committed, reserved, available, L.revision⟩
  BudgetView.create ⟨scope, policy, usage⟩

def projectedForRequest (id : RequiredText) (request : BudgetAmounts) :
    Except BudgetError (List String × BudgetUsage) := do
  let violations ← L.forAncestors id (fun acc ancestor => do
    let used ← L.usedAt ancestor
    let projected ← used.add request
    let policy ← item L.policies ancestor ancestor.val
    .ok (acc ++ policy.limits.violations projected)) []
  let localCommitted ← item L.committed id id.val
  let localReserved ← item L.reserved id id.val
  let projectedReserved ← localReserved.add request
  let _ ← localCommitted.add projectedReserved
  let available ← L.effectiveAvailable id (some request)
  let usage ← BudgetUsage.create ⟨localCommitted, projectedReserved, available, L.revision⟩
  .ok (sortedSet violations, usage)

def requireScope (scope : BudgetScopeRef) (policy : Option BudgetPolicy) :
    Except BudgetError BudgetPolicy := do
  require (L.scopes.get? scope.scopeId = some scope)
    (.contract "budget scope is not registered or does not match")
  let registered ← item L.policies scope.scopeId scope.scopeId.val
  require (∀ p ∈ policy, p = registered)
    (.contract "budget policy does not match registered scope")
  .ok registered

def existingOperation (operationId idempotencyKey fingerprint : RequiredText) :
    Except BudgetError (Option BudgetOperationRecord) := do
  require (∀ indexed ∈ L.idempotencyIndex.get? idempotencyKey, indexed = operationId)
    (.identityConflict "idempotency key already belongs to another operation")
  match L.operations.get? operationId with
  | none => .ok none
  | some record => do
    require (record.idempotencyKey = idempotencyKey ∧ record.fingerprint = fingerprint)
      (.identityConflict "operation identity reused with different content")
    .ok (some record)

end

def reservation (L : BudgetLedger) (reservationId : String) :
    Except BudgetError BudgetReservation := do
  let id ← requiredText reservationId "reservation_id"
  orRaise (L.reservations.get? id.val) (.state ("unknown reservation: " ++ id.val))

def reservationOrRecorded (L : BudgetLedger) (reservationId : String) :
    Except BudgetError BudgetReservation := do
  let id ← requiredText reservationId "reservation_id"
  match L.reservations.get? id.val with
  | some r => .ok r
  | none =>
    let recorded := L.operations.values.findSome? fun record =>
      if record.reservationId = some id then record.reservation else none
    orRaise recorded (.state ("unknown reservation: " ++ id.val))

/-! ## register_scope -/

/-- The checks of `register_scope`: whether the scope is already registered. -/
def registerCheck (L : BudgetLedger) (scope : BudgetScopeRef) (policy : BudgetPolicy) :
    Except BudgetError Bool := do
  match L.scopes.get? scope.scopeId with
  | some existing =>
    require (existing = scope ∧ L.policies.get? scope.scopeId = some policy)
      (.identityConflict ("scope identity already registered: " ++ scope.scopeId.val))
    .ok true
  | none => do
    let root ← item L.scopes L.rootScopeId L.rootScopeId.val
    require (scope.runId = root.runId) (.contract "child scope must use the root run_id")
    require (scope.scopeType ≠ .run) (.contract "only one run root scope is allowed")
    require (∃ parent ∈ scope.parentScopeId, (L.scopes.get? parent).isSome = true)
      (.contract "child scope parent is not registered")
    require (scope.policyRevision = policy.policyRevision)
      (.contract "scope policy revision does not match policy")
    .ok false

/-- The assignments of `register_scope`. -/
def addScope (L : BudgetLedger) (scope : BudgetScopeRef) (policy : BudgetPolicy) : BudgetLedger :=
  { L with
    scopes := L.scopes.set scope.scopeId scope
    policies := L.policies.set scope.scopeId policy
    committed := L.committed.set scope.scopeId zero
    baselineCommitted := L.baselineCommitted.set scope.scopeId zero
    reserved := L.reserved.set scope.scopeId zero }

def registerScope (L : BudgetLedger) (scope : BudgetScopeRef) (policy : BudgetPolicy) :
    CallResult BudgetView :=
  match L.registerCheck scope policy with
  | .error e => .raised e L
  | .ok true => ⟨L.viewLocked scope.scopeId, L, []⟩
  | .ok false => ⟨(L.addScope scope policy).viewLocked scope.scopeId, L.addScope scope policy, []⟩

/-! ## Booking amounts on every ancestor -/

/-- One pass of `_apply_reserved_delta` or `_apply_committed_delta` over the ids,
with the totals it has reached when it raises. -/
def applyDelta (add : Bool) (amount : BudgetAmounts) :
    List RequiredText → PyDict RequiredText BudgetAmounts →
      Except BudgetError Unit × PyDict RequiredText BudgetAmounts
  | [], totals => (.ok (), totals)
  | id :: ids, totals =>
    match totals.get? id with
    | none => (.error ⟨.keyError, id.val⟩, totals)
    | some current =>
      match if add then current.add amount else current.subtract amount with
      | .error e => (.error e, totals)
      | .ok next => applyDelta add amount ids (totals.set id next)

/-- A pass over `self._ancestors(scope_id)`, with the error the generator raises at
its end. -/
def applyDeltaUp (L : BudgetLedger) (id : RequiredText) (add : Bool) (amount : BudgetAmounts)
    (totals : PyDict RequiredText BudgetAmounts) :
    Except BudgetError Unit × PyDict RequiredText BudgetAmounts :=
  match applyDelta add amount (L.ancestors id).1 totals with
  | (.error e, t) => (.error e, t)
  | (.ok _, t) => if (L.ancestors id).2 then (.ok (), t) else (.error invalidScopeGraph, t)

def applyReservedDelta (id : RequiredText) (amount : BudgetAmounts) (add : Bool) : Commit Unit :=
  fun L =>
    let after := L.applyDeltaUp id add amount L.reserved
    (after.1, { L with reserved := after.2 })

def applyCommittedDelta (id : RequiredText) (amount : BudgetAmounts) (add : Bool) : Commit Unit :=
  fun L =>
    let after := L.applyDeltaUp id add amount L.committed
    (after.1, { L with committed := after.2 })

/-- `self._reservations[reservation_id] = ...`. -/
def setReservation (key : String) (r : BudgetReservation) : Commit Unit :=
  Stateful.assign fun L => { L with reservations := L.reservations.set key r }

/-- `self._operations[operation_id] = BudgetOperationRecord(...)`. -/
def setOperation (record : BudgetOperationRecord) : Commit Unit := do
  let record ← Stateful.lift record.create
  Stateful.assign fun L => { L with operations := L.operations.set record.operationId record }

/-- `self._idempotency_index[idempotency_key] = operation_id`. -/
def setIdempotency (key operationId : RequiredText) : Commit Unit :=
  Stateful.assign fun L => { L with idempotencyIndex := L.idempotencyIndex.set key operationId }

/-- `self._revision = ...; self._last_event_id = ...`. -/
def advance (revision : ℕ) (eventId : String) : Commit Unit :=
  Stateful.assign fun L => { L with revision := revision, lastEventId := some eventId }

/-! ## reserve -/

/-- `BudgetReservation | BudgetDecision`, the return type of `reserve`. -/
inductive ReserveReturn where
  | reservation (r : BudgetReservation)
  | decision (d : BudgetDecision)
  deriving DecidableEq

/-- What the checks of `reserve` have decided. -/
inductive ReservePlan where
  | existing (answer : ReserveReturn)
  | deny (fingerprint : RequiredText) (decision : BudgetDecision) (event : BudgetEvent)
  | create (fingerprint : RequiredText) (reservation : BudgetReservation) (event : BudgetEvent)

/-- The answer to a repeated `reserve`. -/
def existingAnswer (record : BudgetOperationRecord) : Except BudgetError ReserveReturn :=
  match record.reservationId, record.reservation, record.decision with
  | some _, some r, _ => .ok (.reservation r)
  | some _, none, _ => .error (.history "operation record lacks its reservation projection")
  | none, _, some d => .ok (.decision d)
  | none, _, none => .error (.history "operation record has no reservation or decision")

/-- The event of a denied reservation. -/
def deniedEvent (scope : BudgetScopeRef) (digest operationId key : RequiredText)
    (request : BudgetAmounts) (violations : List String) (revision : ℕ) : BudgetEvent where
  eventId := eventIdOf sha256 "denied" operationId.val revision
  eventType := .denied
  runId := scope.runId
  scope := scope
  policyDigest := digest
  ledgerRevision := revision
  operationId := operationId
  idempotencyKey := key
  reservationId := none
  amounts := request
  reasonCodes := violations
  outcome := some "denied"
  reservation := none
  settlement := none

/-- The event of a created reservation. -/
def createdEvent (r : BudgetReservation) (revision : ℕ) : BudgetEvent where
  eventId := r.createdEventId
  eventType := .created
  runId := r.scope.runId
  scope := r.scope
  policyDigest := r.policyDigest
  ledgerRevision := revision
  operationId := r.operationId
  idempotencyKey := r.idempotencyKey
  reservationId := some r.reservationId
  amounts := r.requested
  reasonCodes := []
  outcome := some "reserved"
  reservation := some r
  settlement := none

/-- The reservation that `reserve` creates. -/
def newReservation (scope : BudgetScopeRef) (digest operationId key : RequiredText)
    (request : BudgetAmounts) (revision createdAt : ℕ) : BudgetReservation :=
  let id := reservationIdOf sha256 operationId key
  { reservationId := id
    operationId := operationId
    idempotencyKey := key
    scope := scope
    policyDigest := digest
    requested := request
    status := .reserved
    createdEventId := eventIdOf sha256 "created" id.val revision
    createdAtEpochMs := createdAt }

/-- The checks of `reserve`. -/
def reserveCheck (L : BudgetLedger) (clock : ℤ) (scope : BudgetScopeRef) (request : BudgetAmounts)
    (operationId idempotencyKey : String) (policy : Option BudgetPolicy) (createdAt : Option ℤ) :
    Except BudgetError ReservePlan := do
  let scopePolicy ← L.requireScope scope policy
  let operationId ← requiredText operationId "operation_id"
  let key ← requiredText idempotencyKey "idempotency_key"
  let digest := scopePolicy.digest sha256
  let fingerprint := operationFingerprint sha256 scope request digest
  match ← L.existingOperation operationId key fingerprint with
  | some record => do
    let answer ← existingAnswer record
    .ok (.existing answer)
  | none => do
    let (violations, projected) ← L.projectedForRequest scope.scopeId request
    let revision := L.revision + 1
    if violations ≠ [] then
      let usage ← BudgetUsage.create { projected with ledgerRevision := revision }
      let decision ← BudgetDecision.create ⟨false, violations, usage, none, revision⟩
      let event ← (deniedEvent sha256 scope digest operationId key request violations
        revision).create
      .ok (.deny fingerprint decision event)
    else
      let createdAt ← boundedInt (createdAt.getD clock) "created_at_epoch_ms"
      let r := newReservation sha256 scope digest operationId key request revision createdAt
      let event ← (createdEvent r revision).create
      .ok (.create fingerprint r event)

/-- The assignments of `reserve` after a denial. -/
def denyCommit (fingerprint : RequiredText) (decision : BudgetDecision) (event : BudgetEvent) :
    Commit ReserveReturn := do
  setOperation ⟨event.operationId, event.idempotencyKey, fingerprint, none, none, some decision, none⟩
  setIdempotency event.idempotencyKey event.operationId
  advance event.ledgerRevision event.eventId.val
  pure (.decision decision)

/-- The assignments of `reserve` after an admission. -/
def createCommit (fingerprint : RequiredText) (r : BudgetReservation) (event : BudgetEvent) :
    Commit ReserveReturn := do
  applyReservedDelta r.scope.scopeId r.requested true
  setReservation r.reservationId.val r
  setOperation ⟨r.operationId, r.idempotencyKey, fingerprint, some r.reservationId, some r, none, none⟩
  setIdempotency r.idempotencyKey r.operationId
  advance event.ledgerRevision event.eventId.val
  pure (.reservation r)

def reserve (sink : SinkReply) (clock : ℤ) (L : BudgetLedger) (scope : BudgetScopeRef)
    (request : BudgetAmounts) (operationId idempotencyKey : String) (policy : Option BudgetPolicy)
    (createdAt : Option ℤ) : CallResult ReserveReturn :=
  match L.reserveCheck sha256 clock scope request operationId idempotencyKey policy createdAt with
  | .error e => .raised e L
  | .ok (.existing answer) => .returned answer L
  | .ok (.deny fingerprint decision event) =>
    appendThen sink event (denyCommit fingerprint decision event) L
  | .ok (.create fingerprint r event) =>
    appendThen sink event (createCommit fingerprint r event) L

/-! ## Settlements -/

/-- What the checks of a settling operation have decided. -/
inductive SettlePlan where
  | recorded (settlement : BudgetSettlement)
  | downgrade (reason : String)
  | commit (reservation : BudgetReservation) (record : BudgetOperationRecord)
      (settlement : BudgetSettlement) (event : BudgetEvent) (eventId : String)

/-- The settlement that closes a reservation without an actual amount. -/
def closingSettlement (reservationId : RequiredText) (r : BudgetReservation) (dispatched : Bool)
    (outcome : BudgetSettlementOutcome) (reason eventId : RequiredText) : BudgetSettlement where
  reservationId := reservationId
  operationId := r.operationId
  scope := r.scope
  policyDigest := r.policyDigest
  actual := zero
  requestDispatched := dispatched
  cacheHit := false
  outcome := outcome
  settledEventId := eventId
  reasonCode := some reason

/-- The event of a settlement. -/
def settlementEvent (eventType : BudgetEventType) (r : BudgetReservation)
    (reservationId : RequiredText) (amounts : BudgetAmounts) (outcome : String)
    (settlement : BudgetSettlement) (revision : ℕ) : BudgetEvent where
  eventId := settlement.settledEventId
  eventType := eventType
  runId := r.scope.runId
  scope := r.scope
  policyDigest := r.policyDigest
  ledgerRevision := revision
  operationId := r.operationId
  idempotencyKey := r.idempotencyKey
  reservationId := some reservationId
  amounts := amounts
  reasonCodes := BudgetEvent.settlementCodes settlement
  outcome := some outcome
  reservation := none
  settlement := some settlement

/-- The terminal record of a reservation. -/
def settledRecord (record : BudgetOperationRecord) (r : BudgetReservation)
    (settlement : BudgetSettlement) : BudgetOperationRecord :=
  { record with reservation := some r, settlement := some settlement }

/-- `event_id or self._event_id(...)`. -/
def suppliedOr (supplied : Option String) (derived : RequiredText) : String :=
  match supplied with
  | some text => if text = "" then derived.val else text
  | none => derived.val

/-- The checks of `mark_indeterminate`. -/
def markIndeterminateCheck (L : BudgetLedger) (reservationId operationId reason : String)
    (settledEventId : Option String) : Except BudgetError SettlePlan := do
  let r ← L.reservationOrRecorded reservationId
  let record ← item L.operations r.operationId r.operationId.val
  require (operationId = r.operationId.val)
    (.identityConflict "indeterminate operation identity mismatch")
  let reason ← requiredText reason "reason"
  match record.settlement with
  | some settled =>
    require (settled.outcome = .indeterminate ∧ settled.reasonCode = some reason ∧
        ∀ text ∈ settledEventId, text = settled.settledEventId.val)
      (.identityConflict "conflicting duplicate indeterminate settlement")
    .ok (.recorded settled)
  | none =>
    require (r.status = .reserved)
      (.state "only an open reservation can become indeterminate")
    let revision := L.revision + 1
    let eventText := suppliedOr settledEventId
      (eventIdOf sha256 "indeterminate" reservationId revision)
    let id ← requiredText reservationId "reservation_id"
    let eventId ← requiredText eventText "settled_event_id"
    let settlement := closingSettlement id r true .indeterminate reason eventId
    let event ← (settlementEvent .indeterminate r id r.requested "indeterminate" settlement
      revision).create
    .ok (.commit r record settlement event eventText)

/-- The assignments of `mark_indeterminate`. -/
def markIndeterminateCommit (reservationId : String) (r : BudgetReservation)
    (record : BudgetOperationRecord) (settlement : BudgetSettlement) (event : BudgetEvent)
    (eventText : String) : Commit BudgetSettlement := do
  setReservation reservationId (r.withStatus .indeterminate)
  setOperation (settledRecord record (r.withStatus .indeterminate) settlement)
  advance event.ledgerRevision eventText
  pure settlement

def markIndeterminate (sink : SinkReply) (L : BudgetLedger)
    (reservationId operationId reason : String) (settledEventId : Option String) :
    CallResult BudgetSettlement :=
  match L.markIndeterminateCheck sha256 reservationId operationId reason settledEventId with
  | .error e => .raised e L
  | .ok (.recorded settled) => .returned settled L
  | .ok (.downgrade _) => .raised invalidScopeGraph L
  | .ok (.commit r record settlement event eventText) =>
    appendThen sink event
      (markIndeterminateCommit reservationId r record settlement event eventText) L

def validateSettlement (r : BudgetReservation) (settlement : BudgetSettlement) :
    Except BudgetError Unit := do
  require (settlement.reservationId = r.reservationId)
    (.identityConflict "settlement reservation identity mismatch")
  require (settlement.operationId = r.operationId)
    (.identityConflict "settlement operation identity mismatch")
  require (settlement.scope = r.scope) (.identityConflict "settlement scope mismatch")
  require (settlement.policyDigest = r.policyDigest)
    (.identityConflict "settlement policy digest mismatch")
  require (¬ (settlement.cacheHit = true ∧ settlement.requestDispatched = true))
    (.contract "cache hit cannot claim provider dispatch")

/-- The dimension tests of `_settlement_fits_reservation`: a dimension that an
ancestor bounds may not exceed its reserved amount. -/
def fitsRequested (limits : List BudgetLimits) (requested actual : BudgetAmounts) : Bool :=
  let bounded (d : BudgetDimension) : Bool := limits.any fun l => (l.limit d).isSome
  let exceeds (d : BudgetDimension) : Bool := decide (requested.get d < actual.get d)
  let generationBounded := limits.any fun l =>
    (l.limit .outputTokens).isSome || (l.limit .reasoningTokens).isSome
  !(exceeds .llmCalls) &&
  !(bounded .inputTokens && exceeds .inputTokens) &&
  !(bounded .cachedInputTokens && exceeds .cachedInputTokens) &&
  !(generationBounded && (exceeds .outputTokens || exceeds .reasoningTokens)) &&
  !((limits.any fun l => l.totalTokens.isSome) &&
    decide (requested.totalTokens < actual.totalTokens)) &&
  !(bounded .estimatedCostUsd && exceeds .estimatedCostUsd)

def settlementFitsReservation (L : BudgetLedger) (r : BudgetReservation) (actual : BudgetAmounts) :
    Except BudgetError Bool := do
  if r.requested.get .llmCalls < actual.get .llmCalls then .ok false
  else
    let limits ← L.forAncestors r.scope.scopeId (fun acc ancestor => do
      let policy ← item L.policies ancestor ancestor.val
      .ok (acc ++ [policy.limits])) []
    if fitsRequested limits r.requested actual = false then .ok false
    else
      -- the loop over the ancestors stops at the first violation
      let violated ← L.forAncestors r.scope.scopeId (fun (found : Bool) ancestor => do
        if found then .ok true
        else
          let used ← L.usedAt ancestor
          let without ← used.subtract r.requested
          let projected ← without.add actual
          let policy ← item L.policies ancestor ancestor.val
          .ok (decide (policy.limits.violations projected ≠ []))) false
      .ok (!violated)

/-- `settle` after its status check: downgrade the settlement or commit it. -/
def settleRest (L : BudgetLedger) (r : BudgetReservation) (record : BudgetOperationRecord)
    (settlement : BudgetSettlement) : Except BudgetError SettlePlan := do
  if settlement.outcome = .indeterminate then
    .ok (.downgrade ((settlement.reasonCode.map RequiredText.val).getD
      dispatchIndeterminate.value))
  else
    let fits ← L.settlementFitsReservation r settlement.actual
    if fits = false then .ok (.downgrade actualExceedsReservation.value)
    else
      let event ← (settlementEvent .settled r r.reservationId settlement.actual
        settlement.outcome.value settlement (L.revision + 1)).create
      .ok (.commit r record settlement event settlement.settledEventId.val)

/-- The checks of `settle`. -/
def settleCheck (L : BudgetLedger) (reservationId : String) (settlement : BudgetSettlement) :
    Except BudgetError SettlePlan := do
  let r ← L.reservationOrRecorded reservationId
  let record ← item L.operations r.operationId r.operationId.val
  match record.settlement with
  | some settled =>
    if settled.toSettlementCommand = settlement.toSettlementCommand then .ok (.recorded settled)
    else do
      require (settled.outcome = .indeterminate ∧ settlement.outcome ≠ .indeterminate)
        (.identityConflict "conflicting duplicate settlement")
      validateSettlement r settlement
      require (r.status = .reserved ∨ r.status = .indeterminate)
        (.state ("reservation is not open: " ++ r.status.value))
      L.settleRest r record settlement
  | none => do
    validateSettlement r settlement
    require (r.status = .reserved) (.state ("reservation is not open: " ++ r.status.value))
    L.settleRest r record settlement

/-- The assignments of `settle`. -/
def settleCommit (reservationId : String) (r : BudgetReservation) (record : BudgetOperationRecord)
    (settlement : BudgetSettlement) (event : BudgetEvent) (eventText : String) :
    Commit BudgetSettlement := do
  applyReservedDelta r.scope.scopeId r.requested false
  applyCommittedDelta r.scope.scopeId settlement.actual true
  setReservation reservationId (r.withStatus .settled)
  setOperation (settledRecord record (r.withStatus .settled) settlement)
  advance event.ledgerRevision eventText
  pure settlement

def settle (sink : SinkReply) (L : BudgetLedger) (reservationId : String)
    (settlement : BudgetSettlement) : CallResult BudgetSettlement :=
  match settleCheck L reservationId settlement with
  | .error e => .raised e L
  | .ok (.recorded settled) => .returned settled L
  | .ok (.downgrade reason) =>
    L.markIndeterminate sha256 sink reservationId settlement.operationId.val reason
      (some settlement.settledEventId.val)
  | .ok (.commit r record settlement event eventText) =>
    appendThen sink event (settleCommit reservationId r record settlement event eventText) L

/-! ## Releases -/

/-- The checks of `_release_locked`. -/
def releaseCheck (L : BudgetLedger) (reservationId operationId reason : String)
    (requestDispatched : Bool) (eventId : Option String) (eventType : BudgetEventType)
    (status : BudgetReservationStatus) : Except BudgetError SettlePlan := do
  let r ← L.reservationOrRecorded reservationId
  let record ← item L.operations r.operationId r.operationId.val
  require (operationId = r.operationId.val)
    (.identityConflict "release operation identity mismatch")
  require (requestDispatched = false) (.state "dispatched reservation cannot be released")
  let reason ← requiredText reason "reason"
  match record.settlement with
  | some settled =>
    require (settled.outcome = .cancelled ∧ settled.reasonCode = some reason ∧
        ∀ text ∈ eventId, text = settled.settledEventId.val)
      (.identityConflict "conflicting duplicate release")
    .ok (.recorded settled)
  | none =>
    require (r.status = .reserved) (.state "only an open reservation can be released")
    let revision := L.revision + 1
    let eventText := suppliedOr eventId (eventIdOf sha256 status.value reservationId revision)
    let id ← requiredText reservationId "reservation_id"
    let terminalEventId ← requiredText eventText "settled_event_id"
    let settlement := closingSettlement id r false .cancelled reason terminalEventId
    let event ← (settlementEvent eventType r id r.requested status.value settlement revision).create
    .ok (.commit r record settlement event eventText)

/-- The assignments of `_release_locked`. -/
def releaseCommit (reservationId : String) (status : BudgetReservationStatus)
    (r : BudgetReservation) (record : BudgetOperationRecord) (settlement : BudgetSettlement)
    (event : BudgetEvent) (eventText : String) : Commit BudgetSettlement := do
  applyReservedDelta r.scope.scopeId r.requested false
  setReservation reservationId (r.withStatus status)
  setOperation (settledRecord record (r.withStatus status) settlement)
  advance event.ledgerRevision eventText
  pure settlement

def releaseLocked (sink : SinkReply) (L : BudgetLedger) (reservationId operationId reason : String)
    (requestDispatched : Bool) (eventId : Option String) (eventType : BudgetEventType)
    (status : BudgetReservationStatus) : CallResult BudgetSettlement :=
  match L.releaseCheck sha256 reservationId operationId reason requestDispatched eventId eventType
      status with
  | .error e => .raised e L
  | .ok (.recorded settled) => .returned settled L
  | .ok (.downgrade _) => .raised invalidScopeGraph L
  | .ok (.commit r record settlement event eventText) =>
    appendThen sink event
      (releaseCommit reservationId status r record settlement event eventText) L

def release (sink : SinkReply) (L : BudgetLedger) (reservationId operationId reason : String)
    (requestDispatched : Bool) (eventId : Option String) : CallResult BudgetSettlement :=
  L.releaseLocked sha256 sink reservationId operationId reason requestDispatched eventId .released
    .released

/-- The checks of `expire` before it releases: the reservation to expire. -/
def expireCheck (L : BudgetLedger) (clock : ℤ) (reservationId : String) (now : Option ℤ) :
    Except BudgetError BudgetReservation := do
  let r ← L.reservation reservationId
  let policy ← item L.policies r.scope.scopeId r.scope.scopeId.val
  let now := now.getD clock
  require (0 ≤ now) (.contract "now_epoch_ms must be a non-negative integer")
  require ((r.createdAtEpochMs + policy.reservationTtlSeconds * 1000 : ℕ) ≤ now)
    (.state "reservation has not expired")
  .ok r

def expire (sink : SinkReply) (clock : ℤ) (L : BudgetLedger) (reservationId : String)
    (now : Option ℤ) : CallResult BudgetSettlement :=
  match L.expireCheck clock reservationId now with
  | .error e => .raised e L
  | .ok r =>
    L.releaseLocked sha256 sink reservationId r.operationId.val
      reservationExpired.value false
      (some (eventIdOf sha256 "expired" reservationId (L.revision + 1)).val) .expired .expired

end BudgetLedger

/-! ## Calls and runs -/

/-- A call of one of the six mutating operations, with its arguments. -/
inductive LedgerCall where
  | registerScope (scope : BudgetScopeRef) (policy : BudgetPolicy)
  | reserve (scope : BudgetScopeRef) (request : BudgetAmounts) (operationId idempotencyKey : String)
      (policy : Option BudgetPolicy) (createdAt : Option ℤ)
  | settle (reservationId : String) (settlement : BudgetSettlement)
  | release (reservationId operationId reason : String) (requestDispatched : Bool)
      (eventId : Option String)
  | expire (reservationId : String) (now : Option ℤ)
  | markIndeterminate (reservationId operationId reason : String) (settledEventId : Option String)

/-- A call together with what its environment does during it: the reply of the
event sink and the reading of the clock. -/
structure LedgerStep where
  call : LedgerCall
  sink : SinkReply
  clock : ℤ

/-- The ledger and the recorded events after a step, whether it returned or raised. -/
def LedgerStep.apply (sha256 : String → HexDigest) (step : LedgerStep) (L : BudgetLedger) :
    BudgetLedger × List BudgetEvent :=
  match step.call with
  | .registerScope scope policy =>
    let out := L.registerScope scope policy
    (out.ledger, out.recorded)
  | .reserve scope request operationId key policy createdAt =>
    let out := BudgetLedger.reserve sha256 step.sink step.clock L scope request operationId key
      policy createdAt
    (out.ledger, out.recorded)
  | .settle reservationId settlement =>
    let out := BudgetLedger.settle sha256 step.sink L reservationId settlement
    (out.ledger, out.recorded)
  | .release reservationId operationId reason dispatched eventId =>
    let out := BudgetLedger.release sha256 step.sink L reservationId operationId reason dispatched
      eventId
    (out.ledger, out.recorded)
  | .expire reservationId now =>
    let out := BudgetLedger.expire sha256 step.sink step.clock L reservationId now
    (out.ledger, out.recorded)
  | .markIndeterminate reservationId operationId reason eventId =>
    let out := BudgetLedger.markIndeterminate sha256 step.sink L reservationId operationId reason
      eventId
    (out.ledger, out.recorded)

/-- The ledger and the recorded events after a sequence of steps. -/
def runSteps (sha256 : String → HexDigest) :
    List LedgerStep → BudgetLedger → BudgetLedger × List BudgetEvent
  | [], L => (L, [])
  | step :: steps, L =>
    let here := step.apply sha256 L
    let rest := runSteps sha256 steps here.1
    (rest.1, here.2 ++ rest.2)

/-- A ledger as a constructor or `restore_legacy_budget_snapshot` returns it. -/
def BudgetLedger.IsInitial (L : BudgetLedger) : Prop :=
  ∃ scope policy committed,
    BudgetLedger.create scope policy = .ok L ∨
      BudgetLedger.restoreLegacy scope policy committed = .ok L

end Budget
