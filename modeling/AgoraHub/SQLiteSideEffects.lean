/-
# The side-effect store in SQLite

The operations of `SQLiteHarnessSideEffectStore`.  Each one is a transaction: it returns a value
with the store that is committed, and one that raises leaves the store as it was.
-/
import AgoraHub.SideEffectTables
import AgoraHub.SideEffectSpec

open Fallible

namespace HarnessSideEffects

namespace SQLiteHarnessSideEffectStore

open InMemoryHarnessSideEffectStore (assertLeaseAcceptsResult attemptOverlap assertScope DecisionLe)

variable {Ref : Type} [DecidableEq Ref] (sqlite : SQLite) (digests : RecordDigests Ref)
variable (store : SQLiteHarnessSideEffectStore Ref)

/-! ## Lookups -/

def uniqueRows {α : Type} (key : α → Ref) (rows : List α) : List α :=
  (PyDict.ofItems key id rows).values

/-- The decision of a row that is looked up under its reference. -/
def decisionOf (decisionRef : Ref) (missing : SideEffectError) :
    Except SideEffectError (HarnessSideEffectDecision Ref) := do
  let row ← orRaise (store.tables.decisions.find? fun row => row.decisionRef = decisionRef) missing
  decisionFromRow digests row

/-- The decision of a call is the one that is stored. -/
def assertCommitted (decision : HarnessSideEffectDecision Ref) : Except SideEffectError Unit := do
  let missing := SideEffectError.plain "handler attempt requires the exact durable authorization"
  let stored ← store.decisionOf digests (digests.decisionChecksum decision) missing
  require (stored = decision) missing

def assertAttemptLedger (decision : HarnessSideEffectDecision Ref) :
    Except SideEffectError (LedgerRow Ref) := do
  let row ← orRaise
    (store.tables.attempts.find? fun row =>
      row.effectId = digests.identityKey decision.toEffectIdentity)
    (corruption "side-effect decision has no attempt ledger")
  assertLedgerMatchesDecision digests row decision
  return row

section

variable (outcome : HarnessSideEffectOutcome Ref Metadata)

def assertOutcomeAuthorized : Except SideEffectError Unit := do
  let decision ← store.decisionOf digests outcome.decisionRef
    (.plain "side-effect outcome has no durable authorization")
  assertOutcomeMatchesDecision digests.toDigests outcome decision

def existingOutcome : Except SideEffectError (Option (HarnessSideEffectOutcome Ref Metadata)) := do
  let rows := uniqueRows (·.outcomeRef) (store.tables.outcomes.filter fun row =>
    row.outcomeRef = digests.outcomeChecksum outcome ∨ row.outcomeId = outcome.outcomeId ∨
      row.effectId = digests.identityKey outcome.toEffectIdentity ∨
      row.idempotencyKey = outcome.idempotencyKey)
  let existing ← rows.mapM (outcomeFromRow digests)
  require (∀ candidate ∈ existing, candidate = outcome)
    (.plain "side-effect outcome identity is immutable")
  return existing.head?

end

/-- `_latest_attempt`: the lease of the greatest generation. -/
def latestAttempt (identityKey : Ref) :
    Except SideEffectError (Option (HarnessSideEffectAttemptLease Ref)) :=
  match (store.tables.attemptLeases.filter fun row => row.effectId = identityKey).argmax
    (·.fencingGeneration) with
  | none => .ok none
  | some row => (attemptFromRow digests row).map some

def assertCurrentAttempt (attempt : HarnessSideEffectAttemptLease Ref) :
    Except SideEffectError (HarnessSideEffectAttemptLease Ref) := do
  let stale := SideEffectError.attemptError "stale_side_effect_attempt"
    "side-effect attempt no longer owns the current fence"
  let current ← orRaise
    (← store.latestAttempt digests (digests.identityKey attempt.toEffectIdentity)) stale
  require (SameAttemptGeneration current attempt) stale
  return current

/-- An attempt at an effect is fenced. -/
def IsFenced (identityKey : Ref) : Prop :=
  ∃ row ∈ store.tables.attemptLeases, row.effectId = identityKey

instance (identityKey : Ref) : Decidable (store.IsFenced identityKey) :=
  inferInstanceAs (Decidable (∃ _ ∈ _, _))

/-! ## Decisions -/

def putDecision (decision : HarnessSideEffectDecision Ref) : Except SideEffectError
      (HarnessSideEffectDecision Ref × SQLiteHarnessSideEffectStore Ref) := do
  let operation := "persist Harness side-effect decision"
  let rows := uniqueRows (·.decisionRef) (store.tables.decisions.filter fun row =>
    row.decisionId = decision.decisionId ∨ row.decisionRef = digests.decisionChecksum decision ∨
      row.effectId = digests.identityKey decision.toEffectIdentity ∨
      row.idempotencyKey = decision.idempotencyKey)
  match ← rows.mapM (decisionFromRow digests) with
  | first :: rest =>
    require (∀ candidate ∈ first :: rest, candidate = decision)
      (.plain "side-effect decision identity is immutable")
    let _ ← store.assertAttemptLedger digests decision
    commit operation (first, store)
  | [] =>
    let store ← store.insertDecision digests operation decision
    let store ← store.insertLedger digests operation decision
    commit operation (decision, store)

def getDecision (decisionRef : Ref) :
    Except SideEffectError (Option (HarnessSideEffectDecision Ref)) :=
  match store.tables.decisions.find? fun row => row.decisionRef = decisionRef with
  | none => .ok none
  | some row => (decisionFromRow digests row).map some

/-- The order of `list_decisions`. -/
def DecisionRowLe (row row' : DecisionRow Ref) : Prop :=
  row.commandOrdinal < row'.commandOrdinal ∨
    row.commandOrdinal = row'.commandOrdinal ∧ row.decisionId ≤ row'.decisionId

instance (row row' : DecisionRow Ref) : Decidable (DecisionRowLe row row') :=
  inferInstanceAs (Decidable (_ ∨ _))

def listDecisions (runId : String) : Except SideEffectError (List (HarnessSideEffectDecision Ref)) :=
  ((store.tables.decisions.filter fun row => row.runId = runId).insertionSort DecisionRowLe).mapM
    (decisionFromRow digests)

/-! ## Attempts -/

def reserveAttempt (decision : HarnessSideEffectDecision Ref) :
    Except SideEffectError (ℕ × SQLiteHarnessSideEffectStore Ref) := do
  let operation := "reserve serial Harness side-effect attempt"
  store.assertCommitted digests decision
  require (¬ store.IsFenced (digests.identityKey decision.toEffectIdentity))
    (.attemptError "fenced_side_effect_attempt_required"
      "fenced side-effect cannot use serial attempt reservation")
  let ledger ← store.assertAttemptLedger digests decision
  require (ledger.attemptCount < ledger.attemptLimit)
    (.attemptError "effect_retry_exhausted" "side-effect retry budget is exhausted")
  let nextCount := ledger.attemptCount + 1
  let store ← store.advanceAttemptLedger digests operation decision ledger.attemptCount nextCount
  commit operation (nextCount, store)

def acquireAttempt (decision : HarnessSideEffectDecision Ref) (ownerId leaseId : String)
    (now : Datetime) : Except SideEffectError
      (HarnessSideEffectAttemptLease Ref × SQLiteHarnessSideEffectStore Ref) := do
  let operation := "acquire fenced Harness side-effect attempt"
  let identityKey := digests.identityKey decision.toEffectIdentity
  requiredText ownerId "owner_id"
  requiredText leaseId "lease_id"
  store.assertCommitted digests decision
  let ledger ← store.assertAttemptLedger digests decision
  match store.tables.attemptLeases.find? fun row => row.leaseId = leaseId with
  | some row =>
    let existing ← attemptFromRow digests row
    require (existing.ownerId = ownerId ∧ existing.decisionRef = digests.decisionChecksum decision)
      (.attemptError "stale_side_effect_attempt"
        "side-effect lease identity belongs to another owner or decision")
    commit operation (existing, store)
  | none =>
    require (∀ row ∈ store.tables.outcomes, row.effectId ≠ identityKey)
      (.attemptError "side_effect_outcome_already_committed"
        "side-effect outcome is already committed")
    match ← store.latestAttempt digests identityKey with
    | some current => require (current.status = .terminated) (attemptOverlap current now)
    | none =>
      require (ledger.attemptCount = 0)
        (.attemptError "side_effect_attempt_termination_unconfirmed"
          "legacy side-effect attempt has no termination evidence")
    require (ledger.attemptCount < ledger.attemptLimit)
      (.attemptError "effect_retry_exhausted" "side-effect retry budget is exhausted")
    let nextCount := ledger.attemptCount + 1
    let leaseExpiresAt ← sqlite.leaseExpiry now
    let lease ← digests.createLease decision nextCount ownerId leaseId now leaseExpiresAt
    let store ← store.advanceAttemptLedger digests operation decision ledger.attemptCount nextCount
    let store ← store.insertAttempt digests operation lease
    commit operation (lease, store)

/-- `renew_attempt`: the clock is read for the check and for the new expiry. -/
def renewAttempt (attempt : HarnessSideEffectAttemptLease Ref) (checkedAt now : Datetime) :
    Except SideEffectError
      (HarnessSideEffectAttemptLease Ref × SQLiteHarnessSideEffectStore Ref) := do
  let operation := "renew Harness side-effect attempt"
  let current ← store.assertCurrentAttempt digests attempt
  assertLeaseAcceptsResult current checkedAt
  let nextExpiry ← sqlite.leaseExpiry now
  if nextExpiry ≤ current.leaseExpiresAt then
    commit operation (current, store)
  else
    let renewed ← current.renewed nextExpiry
    let store ← store.updateAttempt digests operation renewed
    commit operation (renewed, store)

def resolveAttempt (operation : String) (attempt : HarnessSideEffectAttemptLease Ref)
    (terminationConfirmed : Bool) (outcomeRef : Option Ref) (now : Datetime) :
    Except SideEffectError
      (HarnessSideEffectAttemptLease Ref × SQLiteHarnessSideEffectStore Ref) := do
  let resolved ← attempt.resolved terminationConfirmed now outcomeRef
  let store ← store.updateAttempt digests operation resolved
  return (resolved, store)

def finishAttempt (attempt : HarnessSideEffectAttemptLease Ref) (terminationConfirmed : Bool)
    (now : Datetime) : Except SideEffectError
      (HarnessSideEffectAttemptLease Ref × SQLiteHarnessSideEffectStore Ref) := do
  let operation := "finish Harness side-effect attempt"
  let current ← store.assertCurrentAttempt digests attempt
  if current.status = .terminated then
    require (terminationConfirmed = true) (.plain "confirmed attempt termination cannot be revoked")
    commit operation (current, store)
  else if current.status = .indeterminate ∧ terminationConfirmed = false then
    commit operation (current, store)
  else
    let result ← store.resolveAttempt digests operation current terminationConfirmed none now
    commit operation result

/-! ## Recording an outcome -/

def putOutcome (outcome : HarnessSideEffectOutcome Ref Metadata) : Except SideEffectError
      (HarnessSideEffectOutcome Ref Metadata × SQLiteHarnessSideEffectStore Ref) := do
  let operation := "persist Harness side-effect outcome"
  require (¬ (store.IsFenced (digests.identityKey outcome.toEffectIdentity) ∨
      outcome.attemptId ≠ none))
    (.attemptError "fenced_side_effect_attempt_required"
      "fenced side-effect outcome requires complete_attempt")
  store.assertOutcomeAuthorized digests outcome
  match ← store.existingOutcome digests outcome with
  | some existing => commit operation (existing, store)
  | none =>
    let store ← store.insertOutcome sqlite digests operation outcome
    commit operation (outcome, store)

/-- The end of `complete_attempt` and `reconcile_attempt`. -/
def commitOutcome (operation : String) (current : HarnessSideEffectAttemptLease Ref)
    (outcome : HarnessSideEffectOutcome Ref Metadata) (now : Datetime) : Except SideEffectError
      (HarnessSideEffectOutcome Ref Metadata × SQLiteHarnessSideEffectStore Ref) := do
  let store ← store.insertOutcome sqlite digests operation outcome
  let resolved ← store.resolveAttempt digests operation current true
    (some (digests.outcomeChecksum outcome)) now
  commit operation (outcome, resolved.2)

def completeAttempt (attempt : HarnessSideEffectAttemptLease Ref)
    (outcome : HarnessSideEffectOutcome Ref Metadata) (checkedAt now : Datetime) :
    Except SideEffectError
      (HarnessSideEffectOutcome Ref Metadata × SQLiteHarnessSideEffectStore Ref) := do
  let operation := "complete Harness side-effect attempt"
  let current ← store.assertCurrentAttempt digests attempt
  store.assertOutcomeAuthorized digests outcome
  let outcome ← bindOutcomeToAttempt outcome current
  match ← store.existingOutcome digests outcome with
  | some existing => commit operation (existing, store)
  | none =>
    assertLeaseAcceptsResult current checkedAt
    store.commitOutcome sqlite digests operation current outcome now

def reconcileAttempt (attempt : HarnessSideEffectAttemptLease Ref)
    (outcome : HarnessSideEffectOutcome Ref Metadata) (now : Datetime) : Except SideEffectError
      (HarnessSideEffectOutcome Ref Metadata × SQLiteHarnessSideEffectStore Ref) := do
  let operation := "reconcile Harness side-effect attempt"
  let current ← store.assertCurrentAttempt digests attempt
  store.assertOutcomeAuthorized digests outcome
  let outcome ← bindOutcomeToAttempt outcome current
  match ← store.existingOutcome digests outcome with
  | some existing => commit operation (existing, store)
  | none =>
    require (current.status ≠ .terminated)
      (.attemptError "stale_side_effect_attempt"
        "terminated side-effect attempt has no reconciled outcome")
    store.commitOutcome sqlite digests operation current outcome now

/-! ## Dispositions -/

/-- The rows of the outcomes of an effect id. -/
def outcomeRowsOf (effectId : String) : List (OutcomeRow Ref) :=
  store.tables.outcomes.filter fun row => row.outcomeJson.effectId = effectId

/-- The outcome of a row, and that it matches its decision. -/
def authorizedOutcome (row : OutcomeRow Ref) :
    Except SideEffectError (HarnessSideEffectOutcome Ref Metadata) := do
  let outcome ← outcomeFromRow digests row
  let decision ← store.decisionOf digests outcome.decisionRef
    (corruption "side-effect outcome has no decision")
  assertStoredOutcomeMatchesDecision digests outcome decision
  return outcome

/-- The lease of an outcome gets the reference of the updated one. -/
def relinkAttempt (operation : String) (outcome updated : HarnessSideEffectOutcome Ref Metadata) :
    Except SideEffectError (SQLiteHarnessSideEffectStore Ref) := do
  match store.tables.attemptLeases.find? fun row =>
    row.outcomeRef = some (digests.outcomeChecksum outcome) with
  | none => return store
  | some row =>
    let attempt ← attemptFromRow digests row
    let relinked ← attempt.relinkedOutcome (digests.outcomeChecksum updated)
    store.updateAttempt digests operation relinked

def setDisposition (effectId disposition : String) (identityScopeRef subjectScopeRef : Ref) :
    Except SideEffectError
      (Option (HarnessSideEffectOutcome Ref Metadata) × SQLiteHarnessSideEffectStore Ref) := do
  let operation := "update Harness side-effect disposition"
  let next ← orRaise (HarnessSideEffectDisposition.ofValue? disposition)
    (.plain "side-effect disposition is invalid")
  match (store.outcomeRowsOf effectId).filter fun row =>
    row.identityScopeRef = identityScopeRef ∧ row.subjectScopeRef = subjectScopeRef with
  | [] =>
    require (store.outcomeRowsOf effectId = []) (.plain "side-effect outcome scope mismatch")
    commit operation (none, store)
  | _ :: _ :: _ => throw (.attemptError "side_effect_identity_ambiguous"
      "side-effect identity is ambiguous")
  | [row] =>
    let outcome ← store.authorizedOutcome digests row
    assertScope outcome identityScopeRef subjectScopeRef
    if outcome.disposition = next then
      commit operation (some outcome, store)
    else
      require (next ≠ .accepted) (.plain "generic disposition mutation cannot publish an effect")
      let updated := outcome.redisposed next
      let store ← store.updateOutcome sqlite digests operation outcome updated
      let store ← store.relinkAttempt digests operation outcome updated
      commit operation (some updated, store)

/-! ## Reading -/

section

variable (effectId : String)

def outcomeForEffect (identityScopeRef subjectScopeRef : Ref) (idempotencyKey : Option String) :
    Except SideEffectError (Option (HarnessSideEffectOutcome Ref Metadata)) :=
  match (store.outcomeRowsOf effectId).filter fun row =>
    row.identityScopeRef = identityScopeRef ∧ row.subjectScopeRef = subjectScopeRef ∧
      idempotencyKey.all fun key => row.idempotencyKey = key with
  | [] => do
    require ((store.outcomeRowsOf effectId).all fun row =>
        idempotencyKey.all fun key => row.idempotencyKey = key)
      (.plain "side-effect outcome idempotency identity mismatch")
    require (store.outcomeRowsOf effectId = []) (.plain "side-effect outcome scope mismatch")
    return none
  | _ :: _ :: _ => .error (.attemptError "side_effect_identity_ambiguous"
      "side-effect identity is ambiguous")
  | [row] => (store.authorizedOutcome digests row).map some

def getOutcome (identityScopeRef subjectScopeRef : Ref) (idempotencyKey : String) :
    Except SideEffectError (Option (HarnessSideEffectOutcome Ref Metadata)) := do
  match ← store.outcomeForEffect digests effectId identityScopeRef subjectScopeRef
    (some idempotencyKey) with
  | none => return none
  | some outcome =>
    assertScope outcome identityScopeRef subjectScopeRef
    require (outcome.idempotencyKey = idempotencyKey)
      (.plain "side-effect outcome idempotency identity mismatch")
    return some outcome

def readOutcome (identityScopeRef subjectScopeRef : Ref) :
    Except SideEffectError (Option (HarnessSideEffectOutcome Ref Metadata)) := do
  match ← store.outcomeForEffect digests effectId identityScopeRef subjectScopeRef none with
  | none => return none
  | some outcome =>
    assertScope outcome identityScopeRef subjectScopeRef
    return some outcome

def identityKeyForEffect (identityScopeRef subjectScopeRef : Ref) :
    Except SideEffectError (Option Ref) := do
  let rows := store.tables.decisions.filter fun row => row.decisionJson.effectId = effectId
  let keys := ((rows.filter fun row =>
    row.identityScopeRef = identityScopeRef ∧ row.subjectScopeRef = subjectScopeRef).map
      (·.effectId)).dedup
  match keys with
  | [] =>
    require (rows = []) (.plain "side-effect attempt scope mismatch")
    return none
  | [key] => return some key
  | _ :: _ :: _ => throw (.attemptError "side_effect_identity_ambiguous"
      "side-effect identity is ambiguous")

def getAttempt (identityScopeRef subjectScopeRef : Ref) :
    Except SideEffectError (Option (HarnessSideEffectAttemptLease Ref)) := do
  match ← store.identityKeyForEffect effectId identityScopeRef subjectScopeRef with
  | none => return none
  | some identityKey =>
    match ← store.latestAttempt digests identityKey with
    | none => return none
    | some attempt =>
      require (attempt.identityScopeRef = identityScopeRef ∧
          attempt.subjectScopeRef = subjectScopeRef)
        (.plain "side-effect attempt scope mismatch")
      return some attempt

end

def attemptCount (effectId : String) (identityScopeRef subjectScopeRef : Ref) :
    Except SideEffectError ℕ := do
  match ← store.identityKeyForEffect effectId identityScopeRef subjectScopeRef with
  | none => return 0
  | some identityKey =>
    let row ← orRaise (store.tables.attempts.find? fun row => row.effectId = identityKey)
      (corruption "side-effect decision has no attempt ledger")
    let decision ← store.decisionOf digests row.decisionRef
      (corruption "side-effect attempt has no decision")
    assertLedgerMatchesDecision digests row decision
    require (row.identityScopeRef = identityScopeRef ∧ row.subjectScopeRef = subjectScopeRef)
      (.plain "side-effect attempt scope mismatch")
    return row.attemptCount

/-! ## Verifying the database -/

/-- What `verify_integrity` checks of a ledger. -/
def verifyLedger (decisions : PyDict Ref (HarnessSideEffectDecision Ref)) (row : LedgerRow Ref) :
    Except SideEffectError Unit := do
  let decision ← orRaise (decisions.get? row.decisionRef)
    (corruption "side-effect attempt has no decision")
  assertLedgerMatchesDecision digests row decision

/-- The outcome that a lease refers to is the one of the attempt. -/
def verifyLink (attempt : HarnessSideEffectAttemptLease Ref) (outcomeRef : Ref) :
    Except SideEffectError Unit := do
  let row ← orRaise (store.tables.outcomes.find? fun row => row.outcomeRef = outcomeRef)
    (corruption "side-effect attempt references a missing outcome")
  let outcome ← outcomeFromRow digests row
  require (outcome.effectId = attempt.effectId ∧ outcome.decisionRef = attempt.decisionRef ∧
      outcome.attemptId = some attempt.attemptId ∧
      outcome.fencingGeneration = some attempt.fencingGeneration)
    (corruption "side-effect attempt outcome conflicts with its lease")

section

variable (decisions : PyDict Ref (HarnessSideEffectDecision Ref))

/-- What `verify_integrity` checks of a lease. -/
def verifyAttempt (row : AttemptRow Ref) :
    Except SideEffectError (HarnessSideEffectAttemptLease Ref) := do
  let attempt ← attemptFromRow digests row
  let decision ← orRaise (decisions.get? attempt.decisionRef)
    (corruption "side-effect attempt lease has no decision")
  assertAttemptMatchesDecision digests attempt decision
  let exceeds := corruption "side-effect attempt lease exceeds its durable ledger"
  let ledger ← orRaise
    ((PyDict.ofItems (·.effectId) id store.tables.attempts).get?
      (digests.identityKey attempt.toEffectIdentity)) exceeds
  require (attempt.attempt ≤ ledger.attemptCount) exceeds
  match attempt.outcomeRef with
  | none => return attempt
  | some outcomeRef =>
    store.verifyLink digests attempt outcomeRef
    return attempt

/-- What `verify_integrity` checks of an outcome. -/
def verifyOutcome (attempts : List (HarnessSideEffectAttemptLease Ref)) (row : OutcomeRow Ref) :
    Except SideEffectError Unit := do
  let outcome ← outcomeFromRow digests row
  let decision ← orRaise (decisions.get? outcome.decisionRef)
    (corruption "side-effect outcome has no decision")
  assertStoredOutcomeMatchesDecision digests outcome decision
  require (outcome.attemptId ≠ none → (attempts.filter fun attempt =>
      attempt.outcomeRef = some (digests.outcomeChecksum outcome)).length = 1)
    (corruption "fenced side-effect outcome must reference one exact terminated attempt")

end

def verifyIntegrity : Except SideEffectError Unit := do
  let decisions ← store.tables.decisions.mapM (decisionFromRow digests)
  let decisions := PyDict.ofItems digests.decisionChecksum id decisions
  store.tables.attempts.forM (verifyLedger digests decisions)
  let attempts ← store.tables.attemptLeases.mapM (store.verifyAttempt digests decisions)
  store.tables.outcomes.forM (verifyOutcome digests decisions attempts)

/-! ## Calls -/

end SQLiteHarnessSideEffectStore

/-- A call of the port. -/
inductive PortCall (Ref M : Type) where
  | fenced (call : Call Ref M)
  | putOutcome (outcome : HarnessSideEffectOutcome Ref M)
  | reserveAttempt (decision : HarnessSideEffectDecision Ref)
  | getOutcome (effectId : String) (identityScopeRef subjectScopeRef : Ref)
      (idempotencyKey : String)
  | readOutcome (effectId : String) (identityScopeRef subjectScopeRef : Ref)
  | getDecision (decisionRef : Ref)
  | getAttempt (effectId : String) (identityScopeRef subjectScopeRef : Ref)
  | attemptCount (effectId : String) (identityScopeRef subjectScopeRef : Ref)
  | listDecisions (runId : String)

/-- What a call of the port returns. -/
inductive PortReply (Ref M : Type) where
  | decision (decision : Option (HarnessSideEffectDecision Ref))
  | decisions (decisions : List (HarnessSideEffectDecision Ref))
  | attempt (attempt : Option (HarnessSideEffectAttemptLease Ref))
  | outcome (outcome : Option (HarnessSideEffectOutcome Ref M))
  | count (count : ℕ)
  deriving DecidableEq

namespace SQLiteHarnessSideEffectStore

variable {Ref : Type} [DecidableEq Ref] (sqlite : SQLite) (digests : RecordDigests Ref)
variable (store : SQLiteHarnessSideEffectStore Ref)

/-- What a call of a fenced operation returns, and the store that it commits. -/
def transaction : Call Ref Metadata →
    Except SideEffectError (PortReply Ref Metadata × SQLiteHarnessSideEffectStore Ref)
  | .putDecision decision =>
    (store.putDecision digests decision).map (Prod.map (.decision ∘ some) id)
  | .acquireAttempt decision ownerId leaseId now =>
    (store.acquireAttempt sqlite digests decision ownerId leaseId now).map
      (Prod.map (.attempt ∘ some) id)
  | .renewAttempt attempt checkedAt now =>
    (store.renewAttempt sqlite digests attempt checkedAt now).map (Prod.map (.attempt ∘ some) id)
  | .finishAttempt attempt terminationConfirmed now =>
    (store.finishAttempt digests attempt terminationConfirmed now).map
      (Prod.map (.attempt ∘ some) id)
  | .completeAttempt attempt outcome checkedAt now =>
    (store.completeAttempt sqlite digests attempt outcome checkedAt now).map
      (Prod.map (.outcome ∘ some) id)
  | .reconcileAttempt attempt outcome now =>
    (store.reconcileAttempt sqlite digests attempt outcome now).map
      (Prod.map (.outcome ∘ some) id)
  | .setDisposition effectId disposition identityScopeRef subjectScopeRef =>
    (store.setDisposition sqlite digests effectId disposition identityScopeRef subjectScopeRef).map
      (Prod.map .outcome id)

/-- What a call returns, and the store that it commits. -/
def attempt : PortCall Ref Metadata →
    Except SideEffectError (PortReply Ref Metadata × SQLiteHarnessSideEffectStore Ref)
  | .fenced call => store.transaction sqlite digests call
  | .putOutcome outcome =>
    (store.putOutcome sqlite digests outcome).map (Prod.map (.outcome ∘ some) id)
  | .reserveAttempt decision =>
    (store.reserveAttempt digests decision).map (Prod.map .count id)
  | .getOutcome effectId identityScopeRef subjectScopeRef idempotencyKey =>
    (store.getOutcome digests effectId identityScopeRef subjectScopeRef idempotencyKey).map
      fun outcome => (.outcome outcome, store)
  | .readOutcome effectId identityScopeRef subjectScopeRef =>
    (store.readOutcome digests effectId identityScopeRef subjectScopeRef).map
      fun outcome => (.outcome outcome, store)
  | .getDecision decisionRef =>
    (store.getDecision digests decisionRef).map fun decision => (.decision decision, store)
  | .getAttempt effectId identityScopeRef subjectScopeRef =>
    (store.getAttempt digests effectId identityScopeRef subjectScopeRef).map
      fun attempt => (.attempt attempt, store)
  | .attemptCount effectId identityScopeRef subjectScopeRef =>
    (store.attemptCount digests effectId identityScopeRef subjectScopeRef).map
      fun count => (.count count, store)
  | .listDecisions runId =>
    (store.listDecisions digests runId).map fun decisions => (.decisions decisions, store)

/-- The store after a call: a call that raises is rolled back. -/
def step (call : PortCall Ref Metadata) : SQLiteHarnessSideEffectStore Ref :=
  match store.attempt sqlite digests call with
  | .ok (_, committed) => committed
  | .error _ => store

end SQLiteHarnessSideEffectStore

end HarnessSideEffects
