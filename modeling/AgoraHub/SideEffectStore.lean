/-
# The side-effect store in memory

`InMemoryHarnessSideEffectStore`: decisions, fenced attempts and outcomes in dictionaries under
their references, ids, identities and keys.  An operation answers and leaves a store; one that
raises can leave the store changed, since nothing is undone.

An operation that reads the clock more than once gets one moment for each reading.
-/
import AgoraHub.SideEffectRecords

open Fallible

namespace HarnessSideEffects

/-- `InMemoryHarnessSideEffectStore`, without the indexes under the plain effect id and the
counters, which no operation reads. -/
structure InMemoryHarnessSideEffectStore (Ref M : Type) where
  attemptLeaseMicros : ℕ
  decisionsByRef : PyDict Ref (HarnessSideEffectDecision Ref)
  decisionsById : PyDict String (HarnessSideEffectDecision Ref)
  decisionsByIdentity : PyDict Ref (HarnessSideEffectDecision Ref)
  decisionsByIdempotency : PyDict String (HarnessSideEffectDecision Ref)
  outcomesByIdentity : PyDict Ref (HarnessSideEffectOutcome Ref M)
  outcomesByIdempotency : PyDict String (HarnessSideEffectOutcome Ref M)
  attemptsByIdentity : PyDict Ref ℕ
  attemptLeasesByIdentity : PyDict Ref (HarnessSideEffectAttemptLease Ref)
  attemptLeasesById : PyDict Ref (HarnessSideEffectAttemptLease Ref)
  attemptLeasesByLeaseId : PyDict String (HarnessSideEffectAttemptLease Ref)
  deriving DecidableEq

namespace InMemoryHarnessSideEffectStore

variable {Ref M : Type}

/-- A new store. -/
def empty (attemptLeaseMicros : ℕ) : InMemoryHarnessSideEffectStore Ref M :=
  ⟨attemptLeaseMicros, [], [], [], [], [], [], [], [], [], []⟩

variable [DecidableEq Ref] [DecidableEq M] (digests : Digests Ref M)
variable (store : InMemoryHarnessSideEffectStore Ref M)

/-! ## Decisions -/

section

variable (decision : HarnessSideEffectDecision Ref)

/-- What `put_decision` writes. -/
def writeDecision : InMemoryHarnessSideEffectStore Ref M :=
  { store with
    decisionsById := store.decisionsById.set decision.decisionId decision
    decisionsByRef := store.decisionsByRef.set (digests.decisionChecksum decision) decision
    decisionsByIdentity :=
      store.decisionsByIdentity.set (digests.identityKey decision.toEffectIdentity) decision
    decisionsByIdempotency := store.decisionsByIdempotency.set decision.idempotencyKey decision }

def putDecision : Except SideEffectError (HarnessSideEffectDecision Ref) ×
      InMemoryHarnessSideEffectStore Ref M :=
  let candidates := [store.decisionsById.get? decision.decisionId,
    store.decisionsByRef.get? (digests.decisionChecksum decision),
    store.decisionsByIdentity.get? (digests.identityKey decision.toEffectIdentity),
    store.decisionsByIdempotency.get? decision.idempotencyKey]
  match candidates.reduceOption with
  | existing :: _ =>
    if existing = decision then (.ok existing, store)
    else (.error (.plain "side-effect decision identity is immutable"), store)
  | [] => (.ok decision, store.writeDecision digests decision)

/-- The decision of a call is the one that is stored. -/
def assertCommitted : Except SideEffectError Unit :=
  require (store.decisionsByRef.get? (digests.decisionChecksum decision) = some decision)
    (.plain "handler attempt requires the exact durable authorization")

end

/-- The stored decision of an outcome, which it has to match. -/
def assertAuthorized (outcome : HarnessSideEffectOutcome Ref M) : Except SideEffectError Unit := do
  let decision ← orRaise (store.decisionsByRef.get? outcome.decisionRef)
    (.plain "side-effect outcome has no durable authorization")
  assertOutcomeMatchesDecision digests outcome decision

/-! ## Outcomes -/

section

variable (outcome : HarnessSideEffectOutcome Ref M)

def existingOutcome : Except SideEffectError (Option (HarnessSideEffectOutcome Ref M)) :=
  let existing := store.outcomesByIdentity.get? (digests.identityKey outcome.toEffectIdentity)
  let idempotent := store.outcomesByIdempotency.get? outcome.idempotencyKey
  match [existing, idempotent].reduceOption with
  | candidate :: _ =>
    if candidate = outcome then .ok (some candidate)
    else .error (.plain "side-effect outcome identity is immutable")
  | [] => .ok none

/-- What `_persist_outcome` writes. -/
def writeOutcome : InMemoryHarnessSideEffectStore Ref M :=
  { store with
    outcomesByIdentity :=
      store.outcomesByIdentity.set (digests.identityKey outcome.toEffectIdentity) outcome
    outcomesByIdempotency := store.outcomesByIdempotency.set outcome.idempotencyKey outcome }

def persistOutcome :
    Except SideEffectError (HarnessSideEffectOutcome Ref M) × InMemoryHarnessSideEffectStore Ref M :=
  match store.existingOutcome digests outcome with
  | .error e => (.error e, store)
  | .ok (some existing) => (.ok existing, store)
  | .ok none => (.ok outcome, store.writeOutcome digests outcome)

def putOutcome : Except SideEffectError (HarnessSideEffectOutcome Ref M) ×
      InMemoryHarnessSideEffectStore Ref M :=
  let fenced := store.attemptLeasesByIdentity.values.any fun lease =>
    digests.identityKey lease.toEffectIdentity = digests.identityKey outcome.toEffectIdentity
  if fenced = true ∨ outcome.attemptId ≠ none then
    (.error (.attemptError "fenced_side_effect_attempt_required"
      "fenced side-effect outcome requires complete_attempt"), store)
  else
    match store.assertAuthorized digests outcome with
    | .error e => (.error e, store)
    | .ok () => store.persistOutcome digests outcome

end

/-! ## Attempts -/

/-- `reserve_attempt`: the attempt number, and the store with it. -/
def reserveAttempt (decision : HarnessSideEffectDecision Ref) :
    Except SideEffectError (ℕ × InMemoryHarnessSideEffectStore Ref M) := do
  store.assertCommitted digests decision
  let identityKey := digests.identityKey decision.toEffectIdentity
  require (store.attemptLeasesByIdentity.get? identityKey = none)
    (.attemptError "fenced_side_effect_attempt_required"
      "fenced side-effect cannot use serial attempt reservation")
  let count := (store.attemptsByIdentity.get? identityKey).getD 0
  require (count < decision.effectAttemptLimit)
    (.attemptError "effect_retry_exhausted" "side-effect retry budget is exhausted")
  return (count + 1,
    { store with attemptsByIdentity := store.attemptsByIdentity.set identityKey (count + 1) })

section

variable (attempt : HarnessSideEffectAttemptLease Ref)

def assertCurrentAttempt : Except SideEffectError (HarnessSideEffectAttemptLease Ref) :=
  match store.attemptLeasesById.get? attempt.attemptId with
  | some current =>
    if SameAttemptGeneration current attempt then .ok current
    else .error (.attemptError "stale_side_effect_attempt"
      "side-effect attempt no longer owns the current fence")
  | none => .error (.attemptError "stale_side_effect_attempt"
      "side-effect attempt no longer owns the current fence")

def assertLeaseAcceptsResult (now : Datetime) : Except SideEffectError Unit := do
  require (attempt.status = .active)
    (.attemptError "stale_side_effect_attempt" "side-effect attempt is no longer active")
  require (now < attempt.leaseExpiresAt)
    (.attemptError "side_effect_attempt_lease_expired"
      "side-effect attempt lease expired before the operation")

/-- `_raise_attempt_overlap`. -/
def attemptOverlap (now : Datetime) : SideEffectError :=
  .attemptError
    (if attempt.status = .active ∧ now < attempt.leaseExpiresAt then
      "side_effect_attempt_in_progress"
    else "side_effect_attempt_termination_unconfirmed")
    "side-effect attempt cannot overlap an unconfirmed predecessor"

end

/-- What `_replace_attempt` writes. -/
def writeAttempt (identityKey : Ref) (attempt : HarnessSideEffectAttemptLease Ref) :
    InMemoryHarnessSideEffectStore Ref M :=
  { store with
    attemptLeasesByIdentity := store.attemptLeasesByIdentity.set identityKey attempt
    attemptLeasesById := store.attemptLeasesById.set attempt.attemptId attempt
    attemptLeasesByLeaseId := store.attemptLeasesByLeaseId.set attempt.leaseId attempt }

def replaceAttempt (attempt : HarnessSideEffectAttemptLease Ref) :
    Except SideEffectError (InMemoryHarnessSideEffectStore Ref M) :=
  match store.attemptLeasesByIdentity.find? fun p => p.2.attemptId = attempt.attemptId with
  | none => .error (.attemptError "stale_side_effect_attempt"
      "side-effect attempt identity is not indexed")
  | some (identityKey, _) => .ok (store.writeAttempt identityKey attempt)

def resolveCurrentAttempt (attempt : HarnessSideEffectAttemptLease Ref)
    (terminationConfirmed : Bool) (outcomeRef : Option Ref) (now : Datetime) :
    Except SideEffectError
      (HarnessSideEffectAttemptLease Ref × InMemoryHarnessSideEffectStore Ref M) := do
  let resolved ← attempt.resolved terminationConfirmed now outcomeRef
  let store ← store.replaceAttempt resolved
  return (resolved, store)

/-- The checks of `acquire_attempt` and the lease that it creates, or the lease that has the
lease id already. -/
def acquirableLease (decision : HarnessSideEffectDecision Ref) (ownerId leaseId : String)
    (now : Datetime) : Except SideEffectError
      (HarnessSideEffectAttemptLease Ref ⊕ HarnessSideEffectAttemptLease Ref) := do
  store.assertCommitted digests decision
  match store.attemptLeasesByLeaseId.get? leaseId with
  | some existing =>
    require (existing.ownerId = ownerId ∧ existing.decisionRef = digests.decisionChecksum decision)
      (.attemptError "stale_side_effect_attempt"
        "side-effect lease identity belongs to another owner or decision")
    return .inl existing
  | none =>
    let identityKey := digests.identityKey decision.toEffectIdentity
    require (store.outcomesByIdentity.get? identityKey = none)
      (.attemptError "side_effect_outcome_already_committed"
        "side-effect outcome is already committed")
    let count := (store.attemptsByIdentity.get? identityKey).getD 0
    match store.attemptLeasesByIdentity.get? identityKey with
    | some current => require (current.status = .terminated) (attemptOverlap current now)
    | none =>
      require (count = 0)
        (.attemptError "side_effect_attempt_termination_unconfirmed"
          "legacy side-effect attempt has no termination evidence")
    require (count < decision.effectAttemptLimit)
      (.attemptError "effect_retry_exhausted" "side-effect retry budget is exhausted")
    let leaseExpiresAt ← addLease now store.attemptLeaseMicros
    let lease ← digests.createLease decision (count + 1) ownerId leaseId now leaseExpiresAt
    return .inr lease

/-- What `acquire_attempt` writes. -/
def writeLease (lease : HarnessSideEffectAttemptLease Ref) : InMemoryHarnessSideEffectStore Ref M :=
  let identityKey := digests.identityKey lease.toEffectIdentity
  { store.writeAttempt identityKey lease with
    attemptsByIdentity := store.attemptsByIdentity.set identityKey lease.attempt }

def acquireAttempt (decision : HarnessSideEffectDecision Ref) (ownerId leaseId : String)
    (now : Datetime) : Except SideEffectError (HarnessSideEffectAttemptLease Ref) ×
      InMemoryHarnessSideEffectStore Ref M :=
  match store.acquirableLease digests decision ownerId leaseId now with
  | .error e => (.error e, store)
  | .ok (.inl existing) => (.ok existing, store)
  | .ok (.inr lease) => (.ok lease, store.writeLease digests lease)

/-- `renew_attempt`: the clock is read for the check and for the new expiry. -/
def renewAttempt (attempt : HarnessSideEffectAttemptLease Ref) (checkedAt now : Datetime) :
    Except SideEffectError
      (HarnessSideEffectAttemptLease Ref × InMemoryHarnessSideEffectStore Ref M) := do
  let current ← store.assertCurrentAttempt attempt
  assertLeaseAcceptsResult current checkedAt
  let nextExpiry ← addLease now store.attemptLeaseMicros
  if nextExpiry ≤ current.leaseExpiresAt then
    return (current, store)
  let renewed ← current.renewed nextExpiry
  let store ← store.replaceAttempt renewed
  return (renewed, store)

def finishAttempt (attempt : HarnessSideEffectAttemptLease Ref) (terminationConfirmed : Bool)
    (now : Datetime) : Except SideEffectError
      (HarnessSideEffectAttemptLease Ref × InMemoryHarnessSideEffectStore Ref M) := do
  let current ← store.assertCurrentAttempt attempt
  if current.status = .terminated then
    require (terminationConfirmed = true) (.plain "confirmed attempt termination cannot be revoked")
    return (current, store)
  if current.status = .indeterminate ∧ terminationConfirmed = false then
    return (current, store)
  store.resolveCurrentAttempt current terminationConfirmed none now

/-! ## Recording an outcome -/

/-- The attempt that an outcome is recorded for, and the outcome bound to it. -/
def boundOutcome (attempt : HarnessSideEffectAttemptLease Ref)
    (outcome : HarnessSideEffectOutcome Ref M) :
    Except SideEffectError (HarnessSideEffectAttemptLease Ref × HarnessSideEffectOutcome Ref M) := do
  let current ← store.assertCurrentAttempt attempt
  store.assertAuthorized digests outcome
  let outcome ← bindOutcomeToAttempt outcome current
  return (current, outcome)

/-- The end of `complete_attempt` and `reconcile_attempt`: the outcome is persisted before the
attempt is resolved. -/
def commitOutcome (current : HarnessSideEffectAttemptLease Ref)
    (outcome : HarnessSideEffectOutcome Ref M) (now : Datetime) :
    Except SideEffectError (HarnessSideEffectOutcome Ref M) × InMemoryHarnessSideEffectStore Ref M :=
  match store.persistOutcome digests outcome with
  | (.error e, store) => (.error e, store)
  | (.ok committed, store) =>
    match store.resolveCurrentAttempt current true (some (digests.outcomeChecksum committed)) now with
    | .error e => (.error e, store)
    | .ok (_, store) => (.ok committed, store)

def completeAttempt (attempt : HarnessSideEffectAttemptLease Ref)
    (outcome : HarnessSideEffectOutcome Ref M) (checkedAt now : Datetime) :
    Except SideEffectError (HarnessSideEffectOutcome Ref M) ×
      InMemoryHarnessSideEffectStore Ref M :=
  match store.boundOutcome digests attempt outcome with
  | .error e => (.error e, store)
  | .ok (current, outcome) =>
    match store.existingOutcome digests outcome with
    | .error e => (.error e, store)
    | .ok (some existing) => (.ok existing, store)
    | .ok none =>
      match assertLeaseAcceptsResult current checkedAt with
      | .error e => (.error e, store)
      | .ok () => store.commitOutcome digests current outcome now

def reconcileAttempt (attempt : HarnessSideEffectAttemptLease Ref)
    (outcome : HarnessSideEffectOutcome Ref M) (now : Datetime) :
    Except SideEffectError (HarnessSideEffectOutcome Ref M) ×
      InMemoryHarnessSideEffectStore Ref M :=
  match store.boundOutcome digests attempt outcome with
  | .error e => (.error e, store)
  | .ok (current, outcome) =>
    match store.existingOutcome digests outcome with
    | .error e => (.error e, store)
    | .ok (some existing) => (.ok existing, store)
    | .ok none =>
      if current.status = .terminated then
        (.error (.attemptError "stale_side_effect_attempt"
          "terminated side-effect attempt has no reconciled outcome"), store)
      else
        store.commitOutcome digests current outcome now

/-! ## Dispositions -/

/-- `_resolve_effect_record`: the only record of an effect id and two scopes. -/
def resolveEffectRecord {α : Type} (identity : α → EffectIdentity Ref) (records : PyDict Ref α)
    (effectId : String) (identityScopeRef subjectScopeRef : Ref) :
    Except SideEffectError (Option α) :=
  let candidates := records.values.filter fun record => (identity record).effectId = effectId
  let matching := candidates.filter fun record =>
    (identity record).identityScopeRef = identityScopeRef ∧
      (identity record).subjectScopeRef = subjectScopeRef
  match matching with
  | [] =>
    if candidates = [] then .ok none
    else .error (.plain "side-effect scope mismatch")
  | [record] => .ok (some record)
  | _ :: _ :: _ => .error (.attemptError "side_effect_identity_ambiguous"
      "side-effect identity is ambiguous")

def assertScope (outcome : HarnessSideEffectOutcome Ref M) (identityScopeRef subjectScopeRef : Ref) :
    Except SideEffectError Unit :=
  require (outcome.identityScopeRef = identityScopeRef ∧ outcome.subjectScopeRef = subjectScopeRef)
    (.plain "side-effect outcome scope mismatch")

/-- The outcome that `set_disposition` is about, and the disposition that it is to get when that
is another one. -/
def redisposable (effectId disposition : String) (identityScopeRef subjectScopeRef : Ref) :
    Except SideEffectError
      (Option (HarnessSideEffectOutcome Ref M × Option HarnessSideEffectDisposition)) := do
  match ← resolveEffectRecord HarnessSideEffectOutcome.toEffectIdentity store.outcomesByIdentity
    effectId identityScopeRef subjectScopeRef with
  | none => return none
  | some outcome =>
    assertScope outcome identityScopeRef subjectScopeRef
    let next ← orRaise (HarnessSideEffectDisposition.ofValue? disposition) .valueError
    if outcome.disposition = next then
      return some (outcome, none)
    require (next ≠ .accepted) (.plain "generic disposition mutation cannot publish an effect")
    return some (outcome, some next)

/-- The outcome of a changed disposition in place of the one before. -/
def writeDisposition (outcome updated : HarnessSideEffectOutcome Ref M) :
    InMemoryHarnessSideEffectStore Ref M :=
  { store with
    outcomesByIdentity :=
      store.outcomesByIdentity.set (digests.identityKey updated.toEffectIdentity) updated
    outcomesByIdempotency := store.outcomesByIdempotency.set outcome.idempotencyKey updated }

/-- The lease of the outcome gets the reference of the updated one. -/
def relinkAttempt (effectId : String) (identityScopeRef subjectScopeRef : Ref)
    (outcome updated : HarnessSideEffectOutcome Ref M) :
    Except SideEffectError (InMemoryHarnessSideEffectStore Ref M) := do
  match ← resolveEffectRecord HarnessSideEffectAttemptLease.toEffectIdentity
    store.attemptLeasesByIdentity effectId identityScopeRef subjectScopeRef with
  | none => return store
  | some attempt =>
    if attempt.outcomeRef = some (digests.outcomeChecksum outcome) then
      let relinked ← attempt.relinkedOutcome (digests.outcomeChecksum updated)
      store.replaceAttempt relinked
    else
      return store

def setDisposition (effectId disposition : String) (identityScopeRef subjectScopeRef : Ref) :
    Except SideEffectError (Option (HarnessSideEffectOutcome Ref M)) ×
      InMemoryHarnessSideEffectStore Ref M :=
  match store.redisposable effectId disposition identityScopeRef subjectScopeRef with
  | .error e => (.error e, store)
  | .ok none => (.ok none, store)
  | .ok (some (outcome, none)) => (.ok (some outcome), store)
  | .ok (some (outcome, some next)) =>
    let updated := outcome.redisposed next
    -- the outcome is written before the lease is looked up
    let store := store.writeDisposition digests outcome updated
    match store.relinkAttempt digests effectId identityScopeRef subjectScopeRef outcome updated with
    | .error e => (.error e, store)
    | .ok store => (.ok (some updated), store)

/-! ## Reading -/

def getOutcome (effectId : String) (identityScopeRef subjectScopeRef : Ref) (idempotencyKey : String) :
    Except SideEffectError (Option (HarnessSideEffectOutcome Ref M)) :=
  match store.outcomesByIdempotency.get? idempotencyKey with
  | none => .ok none
  | some outcome => do
    require (outcome.effectId = effectId) (.plain "side-effect outcome identity mismatch")
    assertScope outcome identityScopeRef subjectScopeRef
    require (outcome.idempotencyKey = idempotencyKey)
      (.plain "side-effect outcome idempotency identity mismatch")
    return some outcome

def readOutcome (effectId : String) (identityScopeRef subjectScopeRef : Ref) :
    Except SideEffectError (Option (HarnessSideEffectOutcome Ref M)) := do
  match ← resolveEffectRecord HarnessSideEffectOutcome.toEffectIdentity store.outcomesByIdentity
    effectId identityScopeRef subjectScopeRef with
  | none => return none
  | some outcome =>
    assertScope outcome identityScopeRef subjectScopeRef
    return some outcome

/-- The order of `list_decisions`. -/
def DecisionLe (decision decision' : HarnessSideEffectDecision Ref) : Prop :=
  decision.commandOrdinal < decision'.commandOrdinal ∨
    decision.commandOrdinal = decision'.commandOrdinal ∧ decision.decisionId ≤ decision'.decisionId

instance (decision decision' : HarnessSideEffectDecision Ref) :
    Decidable (DecisionLe decision decision') := inferInstanceAs (Decidable (_ ∨ _))

def listDecisions (runId : String) : List (HarnessSideEffectDecision Ref) :=
  (store.decisionsById.values.filter fun decision => decision.runId = runId).insertionSort DecisionLe

def getAttempt (effectId : String) (identityScopeRef subjectScopeRef : Ref) :
    Except SideEffectError (Option (HarnessSideEffectAttemptLease Ref)) := do
  match ← resolveEffectRecord HarnessSideEffectAttemptLease.toEffectIdentity
    store.attemptLeasesByIdentity effectId identityScopeRef subjectScopeRef with
  | none => return none
  | some attempt =>
    require (attempt.identityScopeRef = identityScopeRef ∧ attempt.subjectScopeRef = subjectScopeRef)
      (.plain "side-effect attempt scope mismatch")
    return some attempt

def attemptCount (effectId : String) (identityScopeRef subjectScopeRef : Ref) :
    Except SideEffectError ℕ := do
  match ← resolveEffectRecord HarnessSideEffectOutcome.toEffectIdentity store.outcomesByIdentity
    effectId identityScopeRef subjectScopeRef with
  | some outcome =>
    assertScope outcome identityScopeRef subjectScopeRef
    return (store.attemptsByIdentity.get? (digests.identityKey outcome.toEffectIdentity)).getD 0
  | none =>
    let decisions := store.decisionsById.values.filter fun decision => decision.effectId = effectId
    let matching := decisions.filter fun decision =>
      decision.identityScopeRef = identityScopeRef ∧ decision.subjectScopeRef = subjectScopeRef
    match matching with
    | [] =>
      require (decisions = []) (.plain "side-effect attempt scope mismatch")
      return 0
    | [decision] =>
      return (store.attemptsByIdentity.get? (digests.identityKey decision.toEffectIdentity)).getD 0
    | _ :: _ :: _ => throw (.attemptError "side_effect_identity_ambiguous"
        "side-effect identity is ambiguous")

end InMemoryHarnessSideEffectStore

end HarnessSideEffects
