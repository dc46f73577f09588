/-
# Two side-effect stores

The store in memory and the one in SQLite take the same calls.  They agree on a call when both
return the same value, or both raise, with the code of the store in memory where it gives one.

`Alike` is the condition under which they do, call by call: what a call stores reads back, it stays
within what a column takes, and the two stores look for the same records.
-/
import AgoraHub.SQLiteSideEffects

open Fallible StepRuns

namespace HarnessSideEffects

open HarnessSideEffectDisposition

/-- `getattr(exc, "code", None)`. -/
def SideEffectError.code : SideEffectError → Option String
  | .validation code _ => code
  | .valueError => none
  | .overflow => none

/-- The answers of the store in memory and of the one in SQLite agree. -/
def Agrees {α : Type} : Except SideEffectError α → Except SideEffectError α → Prop
  | .ok value, .ok value' => value = value'
  | .error e, .error e' => ∀ code, e.code = some code → e'.code = some code
  | _, _ => False

namespace InMemoryHarnessSideEffectStore

variable {Ref M : Type} [DecidableEq Ref] [DecidableEq M] (digests : Digests Ref M)
variable (store : InMemoryHarnessSideEffectStore Ref M)

/-! ## Calls of the port -/

/-- The reply of a fenced operation. -/
def portReply : Reply Ref M → PortReply Ref M
  | .decision decision => .decision (some decision)
  | .lease lease => .attempt (some lease)
  | .outcome outcome => .outcome outcome

/-- The answer to a call of the port and the store that it leaves. -/
def portAnswer : PortCall Ref M →
    Except SideEffectError (PortReply Ref M) × InMemoryHarnessSideEffectStore Ref M
  | .fenced call => ((store.answer digests call).1.map portReply, (store.answer digests call).2)
  | .putOutcome outcome =>
    ((store.putOutcome digests outcome).1.map (.outcome ∘ some), (store.putOutcome digests outcome).2)
  | .reserveAttempt decision =>
    match store.reserveAttempt digests decision with
    | .error e => (.error e, store)
    | .ok (count, after) => (.ok (.count count), after)
  | .getOutcome effectId identityScopeRef subjectScopeRef idempotencyKey =>
    ((store.getOutcome effectId identityScopeRef subjectScopeRef idempotencyKey).map .outcome, store)
  | .readOutcome effectId identityScopeRef subjectScopeRef =>
    ((store.readOutcome effectId identityScopeRef subjectScopeRef).map .outcome, store)
  | .getDecision decisionRef => (.ok (.decision (store.decisionsByRef.get? decisionRef)), store)
  | .getAttempt effectId identityScopeRef subjectScopeRef =>
    ((store.getAttempt effectId identityScopeRef subjectScopeRef).map .attempt, store)
  | .attemptCount effectId identityScopeRef subjectScopeRef =>
    ((store.attemptCount digests effectId identityScopeRef subjectScopeRef).map .count, store)
  | .listDecisions runId => (.ok (.decisions (store.listDecisions runId)), store)

/-! ## What the stores look for -/

section

variable (effectId : String)

/-- The decisions of an effect id. -/
def decisionsOfEffect : List (HarnessSideEffectDecision Ref) :=
  store.decisionsById.values.filter fun decision => decision.effectId = effectId

/-- The latest attempts at the effects of an effect id. -/
def attemptsOfEffect : List (HarnessSideEffectAttemptLease Ref) :=
  store.attemptLeasesByIdentity.values.filter fun attempt => attempt.effectId = effectId

/-- The outcomes of an effect id. -/
def outcomesOfEffect : List (HarnessSideEffectOutcome Ref M) :=
  store.outcomesByIdentity.values.filter fun outcome => outcome.effectId = effectId

/-- The decisions of an effect id and two scopes. -/
def decisionsInScope (identityScopeRef subjectScopeRef : Ref) :
    List (HarnessSideEffectDecision Ref) :=
  (store.decisionsOfEffect effectId).filter fun decision =>
    decision.identityScopeRef = identityScopeRef ∧ decision.subjectScopeRef = subjectScopeRef

/-- The outcomes of an effect id and two scopes. -/
def outcomesInScope (identityScopeRef subjectScopeRef : Ref) :
    List (HarnessSideEffectOutcome Ref M) :=
  (store.outcomesOfEffect effectId).filter fun outcome =>
    outcome.identityScopeRef = identityScopeRef ∧ outcome.subjectScopeRef = subjectScopeRef

end

/-- No decision has a key of the decision. -/
def UnknownDecision (decision : HarnessSideEffectDecision Ref) : Prop :=
  store.decisionsById.get? decision.decisionId = none ∧
    store.decisionsByRef.get? (digests.decisionChecksum decision) = none ∧
    store.decisionsByIdentity.get? (digests.identityKey decision.toEffectIdentity) = none ∧
    store.decisionsByIdempotency.get? decision.idempotencyKey = none

/-- Nothing but the texts of the call stands against an attempt at the effect of the decision. -/
def Acquirable (decision : HarnessSideEffectDecision Ref) (leaseId : String) : Prop :=
  let identityKey := digests.identityKey decision.toEffectIdentity
  let count := (store.attemptsByIdentity.get? identityKey).getD 0
  store.attemptLeasesByLeaseId.get? leaseId = none ∧
    store.outcomesByIdentity.get? identityKey = none ∧
    (match store.attemptLeasesByIdentity.get? identityKey with
      | some current => current.status = .terminated
      | none => count = 0) ∧
    count < decision.effectAttemptLimit

/-- The stored attempt is no longer the latest one at its effect. -/
def Superseded (current : HarnessSideEffectAttemptLease Ref) : Prop :=
  store.attemptLeasesByIdentity.get? (digests.identityKey current.toEffectIdentity) ≠ some current

end InMemoryHarnessSideEffectStore

/-! ## The condition -/

section Condition

open InMemoryHarnessSideEffectStore

variable {Ref : Type} [DecidableEq Ref] (sqlite : SQLite) (digests : RecordDigests Ref)
variable (store : InMemoryHarnessSideEffectStore Ref Metadata)

section

variable (outcome : HarnessSideEffectOutcome Ref Metadata)

/-- The outcome reads back and its document is valid. -/
def Storable : Prop :=
  outcome.stepId = none ∧ outcome.metadata.foreign = [] ∧
    SQLiteHarnessSideEffectStore.jsonValid sqlite (outcomeRow digests outcome)

/-- No outcome has the id or the reference of the outcome. -/
def UnusedOutcome : Prop :=
  ∀ other ∈ store.outcomesByIdentity.values,
    other.outcomeId ≠ outcome.outcomeId ∧
      digests.outcomeChecksum other ≠ digests.outcomeChecksum outcome

end

/-- What an attempt can record: a superseded one no outcome that is not of the attempt, and a new
outcome has an unused id and reference and, where the lease accepts it, is storable and not before
the acquisition. -/
def Recordable (attempt : HarnessSideEffectAttemptLease Ref)
    (outcome : HarnessSideEffectOutcome Ref Metadata) (now : Datetime)
    (accepts : HarnessSideEffectAttemptLease Ref → Prop) : Prop :=
  ∀ current, store.assertCurrentAttempt attempt = .ok current →
    store.assertAuthorized digests.toDigests outcome = .ok () →
    (store.Superseded digests.toDigests current →
      outcome.toEffectIdentity = current.toEffectIdentity ∧
        outcome.decisionRef = current.decisionRef ∧
        outcome.idempotencyKey = current.idempotencyKey) ∧
    (store.outcomesByIdentity.get? (digests.identityKey outcome.toEffectIdentity) = none →
      ∀ bound, bindOutcomeToAttempt outcome current = .ok bound →
        UnusedOutcome digests store bound ∧
          (accepts current → Storable sqlite digests outcome ∧ current.acquiredAt ≤ now))

/-- What `set_disposition` can change: with an unknown disposition there is an outcome to look at,
and a change finds the lease of the outcome among at most one. -/
def Changeable (effectId disposition : String) (identityScopeRef subjectScopeRef : Ref) : Prop :=
  (ofValue? disposition = none →
    (store.outcomesInScope effectId identityScopeRef subjectScopeRef).length = 1 ∨
      (store.outcomesInScope effectId identityScopeRef subjectScopeRef = [] ∧
        store.outcomesOfEffect effectId ≠ [])) ∧
    ∀ outcome next, store.outcomesInScope effectId identityScopeRef subjectScopeRef = [outcome] →
      ofValue? disposition = some next →
        outcome.disposition ≠ next → next ≠ .accepted →
          (store.leasesOf effectId identityScopeRef subjectScopeRef).length ≤ 1 ∧
            (store.leasesOf effectId identityScopeRef subjectScopeRef = [] →
              store.attemptsOfEffect effectId = []) ∧
            ∀ other ∈ store.outcomesByIdentity.values, other ≠ outcome →
              digests.outcomeChecksum other ≠ digests.outcomeChecksum (outcome.redisposed next)

/-- The stores do the same for a call. -/
def Alike : PortCall Ref Metadata → Prop
  | .fenced (.putDecision decision) =>
    store.UnknownDecision digests.toDigests decision →
      decision.stepId = none ∧ decision.commandOrdinal < 2 ^ 63 ∧
        decision.effectAttemptLimit < 2 ^ 63
  | .fenced (.acquireAttempt decision ownerId leaseId now) =>
    store.decisionsByRef.get? (digests.decisionChecksum decision) = some decision →
      let texts := requiredText ownerId "owner_id" = .ok () ∧ requiredText leaseId "lease_id" = .ok ()
      (store.Acquirable digests.toDigests decision leaseId ∨ texts) ∧
      (store.Acquirable digests.toDigests decision leaseId → texts →
        (addLease now store.attemptLeaseMicros).isOk = true →
          ownerId.toList.head? ≠ some '\x00' ∧ leaseId.toList.head? ≠ some '\x00' ∧
          store.attemptLeasesById.get? (digests.attemptId
            { decisionRef := digests.decisionChecksum decision
              effectId := decision.effectId
              idempotencyKey := decision.idempotencyKey
              fencingGeneration := (store.attemptsByIdentity.get?
                (digests.identityKey decision.toEffectIdentity)).getD 0 + 1 }) = none)
  | .fenced (.renewAttempt _ _ _) => True
  | .fenced (.finishAttempt attempt terminationConfirmed _) =>
    terminationConfirmed = true → ∀ current, store.assertCurrentAttempt attempt = .ok current →
      ¬ store.Superseded digests.toDigests current
  | .fenced (.completeAttempt attempt outcome checkedAt now) =>
    Recordable sqlite digests store attempt outcome now fun current =>
      current.status = .active ∧ checkedAt < current.leaseExpiresAt
  | .fenced (.reconcileAttempt attempt outcome now) =>
    Recordable sqlite digests store attempt outcome now fun current => current.status ≠ .terminated
  | .fenced (.setDisposition effectId disposition identityScopeRef subjectScopeRef) =>
    Changeable digests store effectId disposition identityScopeRef subjectScopeRef
  | .putOutcome outcome =>
    store.attemptLeasesByIdentity.get? (digests.identityKey outcome.toEffectIdentity) = none →
      outcome.attemptId = none → store.assertAuthorized digests.toDigests outcome = .ok () →
        store.outcomesByIdentity.get? (digests.identityKey outcome.toEffectIdentity) = none →
          Storable sqlite digests outcome ∧ UnusedOutcome digests store outcome
  | .reserveAttempt _ => True
  | .getOutcome effectId _ _ idempotencyKey =>
    store.outcomesByIdempotency.get? idempotencyKey ≠ none ↔ store.outcomesOfEffect effectId ≠ []
  | .readOutcome _ _ _ => True
  | .getDecision _ => True
  | .getAttempt effectId identityScopeRef subjectScopeRef =>
    match store.decisionsInScope effectId identityScopeRef subjectScopeRef,
      store.leasesOf effectId identityScopeRef subjectScopeRef with
    | [], [] => store.decisionsOfEffect effectId ≠ [] → store.attemptsOfEffect effectId ≠ []
    | [], _ :: _ => True
    | [_], [] => store.attemptsOfEffect effectId = []
    | [_], _ :: _ => True
    | _ :: _ :: _, [] => store.attemptsOfEffect effectId ≠ []
    | _ :: _ :: _, [_] => False
    | _ :: _ :: _, _ :: _ :: _ => True
  | .attemptCount effectId identityScopeRef subjectScopeRef =>
    match store.decisionsInScope effectId identityScopeRef subjectScopeRef,
      store.outcomesInScope effectId identityScopeRef subjectScopeRef with
    | [_], [] => store.outcomesOfEffect effectId = []
    | _ :: _ :: _, [_] => False
    | _, _ => True
  | .listDecisions _ => True

end Condition

/-! ## Both stores -/

section Both

variable {Ref : Type} [DecidableEq Ref]

/-- The two stores after a call. -/
def stepBoth (sqlite : SQLite) (digests : RecordDigests Ref)
    (stores : InMemoryHarnessSideEffectStore Ref Metadata × SQLiteHarnessSideEffectStore Ref)
    (call : PortCall Ref Metadata) :
    InMemoryHarnessSideEffectStore Ref Metadata × SQLiteHarnessSideEffectStore Ref :=
  ((stores.1.portAnswer digests.toDigests call).2, stores.2.step sqlite digests call)

/-- The stores agree on a call. -/
def AgreesOn (sqlite : SQLite) (digests : RecordDigests Ref)
    (stores : InMemoryHarnessSideEffectStore Ref Metadata × SQLiteHarnessSideEffectStore Ref)
    (call : PortCall Ref Metadata) : Prop :=
  Agrees (stores.1.portAnswer digests.toDigests call).1
    ((stores.2.attempt sqlite digests call).map Prod.fst)

section

variable (attemptLeaseMicros : ℕ)

/-- A database whose leases are as long as those of the store in memory. -/
def sqliteOf (jsonValid : PyValue → Bool) : SQLite where
  jsonValid := jsonValid
  leaseExpiry now := addLease now attemptLeaseMicros

/-- The stores agree on every call of a run from two new stores. -/
def AgreesAlong (jsonValid : PyValue → Bool) (digests : RecordDigests Ref)
    (calls : List (PortCall Ref Metadata)) : Prop :=
  Along (stepBoth (sqliteOf attemptLeaseMicros jsonValid) digests)
    (AgreesOn (sqliteOf attemptLeaseMicros jsonValid) digests)
    (InMemoryHarnessSideEffectStore.empty attemptLeaseMicros, SQLiteHarnessSideEffectStore.empty) calls

/-- The stores are alike for every call of a run from two new stores. -/
def AlikeAlong (jsonValid : PyValue → Bool) (digests : RecordDigests Ref)
    (calls : List (PortCall Ref Metadata)) : Prop :=
  Along (stepBoth (sqliteOf attemptLeaseMicros jsonValid) digests)
    (fun stores call => Alike (sqliteOf attemptLeaseMicros jsonValid) digests stores.1 call)
    (InMemoryHarnessSideEffectStore.empty attemptLeaseMicros, SQLiteHarnessSideEffectStore.empty) calls

end

end Both

end HarnessSideEffects
