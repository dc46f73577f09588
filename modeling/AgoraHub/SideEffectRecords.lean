/-
# Side-effect records

`HarnessSideEffectDecision`, `HarnessSideEffectAttemptLease` and
`HarnessSideEffectOutcome`: the authorization of an effect, one fenced attempt at it,
and what came out.  All three carry the identity of the effect that they are about.

`Ref` is the type of the `sha256:` references and `M` that of the metadata of an
outcome.  Times are moments in UTC; the length of a lease is in microseconds.
-/
import AgoraHub.PyTime
import AgoraHub.PyText
import AgoraHub.PyDict

open Fallible

namespace HarnessSideEffects

/-! ## Enumerations and errors -/

inductive HarnessSideEffectOrigin where
  | worker
  | controllerTerminal
  deriving DecidableEq

inductive HarnessSideEffectDisposition where
  | candidate
  | prepared
  | quarantine
  | accepted
  deriving DecidableEq

namespace HarnessSideEffectDisposition

/-- The text of a disposition. -/
def value : HarnessSideEffectDisposition → String
  | candidate => "candidate"
  | prepared => "prepared"
  | quarantine => "quarantine"
  | accepted => "accepted"

/-- `HarnessSideEffectDisposition(text)`, where it does not raise. -/
def ofValue? (text : String) : Option HarnessSideEffectDisposition :=
  [candidate, prepared, quarantine, accepted].find? fun d => d.value = text

end HarnessSideEffectDisposition

inductive HarnessSideEffectDecisionStatus where
  | authorized
  | denied
  deriving DecidableEq

inductive HarnessSideEffectOutcomeStatus where
  | committed
  | failed
  deriving DecidableEq

inductive HarnessSideEffectAttemptStatus where
  | active
  | terminated
  | indeterminate
  deriving DecidableEq

/-- What an operation raises: a `HarnessValidationError`, with the code that it was given; the
`ValueError` of an enumeration; the error of a date out of range. -/
inductive SideEffectError where
  | validation (code : Option String) (message : String)
  | valueError
  | overflow
  deriving DecidableEq

namespace SideEffectError

/-- `HarnessValidationError(message)`. -/
def plain (message : String) : SideEffectError := validation none message

/-- `_attempt_error(code, message)`. -/
def attemptError (code message : String) : SideEffectError := validation (some code) message

end SideEffectError

def requiredText (value fieldName : String) : Except SideEffectError Unit :=
  require (value ≠ "" ∧ PyText.strip value = value)
    (.plain (fieldName ++ " is required and must not contain surrounding whitespace"))

/-- `now + timedelta(...)`. -/
def addLease (now : Datetime) (micros : ℕ) : Except SideEffectError Datetime :=
  (now.addMicros micros).mapError fun _ => .overflow

/-! ## The identity of an effect -/

structure HarnessSideEffectHandlerReference where
  handlerId : String
  version : String
  deriving DecidableEq

/-- The payload of `side_effect_identity_key`.  The attempt is the one of the activity: `attempt`
in a decision or an outcome, `activity_attempt` in a lease. -/
structure EffectIdentity (Ref : Type) where
  origin : HarnessSideEffectOrigin
  runId : String
  graphId : String
  graphVersion : String
  graphRef : String
  graphChecksum : Ref
  nodeId : Option String
  nodeInstanceId : Option String
  activityId : Option String
  activityAttempt : ℕ
  terminalAction : Option String
  effectId : String
  identityScopeRef : Ref
  subjectScopeRef : Ref
  deriving DecidableEq

/-- The payload of the identity of an attempt. -/
structure AttemptIdentity (Ref : Type) where
  decisionRef : Ref
  effectId : String
  idempotencyKey : String
  fencingGeneration : ℕ
  deriving DecidableEq

/-! ## Decisions -/

/-- `HarnessSideEffectDecision`, without its checksum. -/
structure HarnessSideEffectDecision (Ref : Type) extends EffectIdentity Ref where
  decisionId : String
  intentRef : Ref
  kind : String
  handler : HarnessSideEffectHandlerReference
  atomicGroup : String
  idempotencyKey : String
  commandOrdinal : ℕ
  causationId : String
  disposition : HarnessSideEffectDisposition
  status : HarnessSideEffectDecisionStatus
  stepId : Option String
  workerResultRef : Option String
  terminalStateRef : Option Ref
  gateRefs : List String
  gateResultRefs : List Ref
  aggregateVerdictRef : Option Ref
  approvalEvidenceRef : Option Ref
  budgetRef : Option Ref
  effectAttempt : ℕ
  effectAttemptLimit : ℕ
  reasonCode : String
  decisionVersion : String
  decidedAt : Datetime
  deriving DecidableEq

/-! ## Attempt leases -/

/-- `HarnessSideEffectAttemptLease`, without its checksum. -/
structure HarnessSideEffectAttemptLease (Ref : Type) extends EffectIdentity Ref where
  attemptId : Ref
  leaseId : String
  ownerId : String
  decisionRef : Ref
  idempotencyKey : String
  attempt : ℕ
  fencingGeneration : ℕ
  acquiredAt : Datetime
  leaseExpiresAt : Datetime
  status : HarnessSideEffectAttemptStatus
  terminationConfirmed : Bool
  resolvedAt : Option Datetime
  outcomeRef : Option Ref
  deriving DecidableEq

namespace HarnessSideEffectAttemptLease

variable {Ref : Type}

/-- `HarnessSideEffectAttemptLease.__post_init__`, from the texts of the lease on. -/
def postInit (lease : HarnessSideEffectAttemptLease Ref) :
    Except SideEffectError (HarnessSideEffectAttemptLease Ref) := do
  requiredText lease.leaseId "lease_id"
  requiredText lease.ownerId "owner_id"
  require (1 ≤ lease.attempt) (.plain "attempt must be a positive integer")
  require (1 ≤ lease.fencingGeneration) (.plain "fencing_generation must be a positive integer")
  require (lease.attempt = lease.fencingGeneration)
    (.plain "side-effect attempt and fencing generation must advance together")
  require (lease.acquiredAt < lease.leaseExpiresAt)
    (.plain "side-effect attempt lease must expire after acquisition")
  require (lease.resolvedAt.all fun t => lease.acquiredAt ≤ t)
    (.plain "resolved_at cannot precede attempt acquisition")
  match lease.status with
  | .active =>
    require (lease.terminationConfirmed = false ∧ lease.resolvedAt = none ∧ lease.outcomeRef = none)
      (.plain "active side-effect attempt cannot carry termination evidence")
  | _ =>
    require (lease.resolvedAt ≠ none) (.plain "resolved side-effect attempt requires resolved_at")
    require (lease.status = .terminated ↔ lease.terminationConfirmed = true)
      (.plain "side-effect attempt status conflicts with termination evidence")
    require (¬ (lease.status = .indeterminate ∧ lease.outcomeRef ≠ none))
      (.plain "indeterminate side-effect attempt cannot reference a committed outcome")
  return lease

/-- What the constructor checks. -/
structure Checked (lease : HarnessSideEffectAttemptLease Ref) : Prop where
  leaseId : requiredText lease.leaseId "lease_id" = .ok ()
  ownerId : requiredText lease.ownerId "owner_id" = .ok ()
  positive : 1 ≤ lease.attempt
  attempt_eq : lease.attempt = lease.fencingGeneration
  expires : lease.acquiredAt < lease.leaseExpiresAt
  ordered : lease.resolvedAt.all fun t => lease.acquiredAt ≤ t
  active : lease.status = .active →
    lease.terminationConfirmed = false ∧ lease.resolvedAt = none ∧ lease.outcomeRef = none
  closed : lease.status ≠ .active → lease.resolvedAt ≠ none ∧
    (lease.status = .terminated ↔ lease.terminationConfirmed = true) ∧
      ¬ (lease.status = .indeterminate ∧ lease.outcomeRef ≠ none)

/-- The constructor returns the lease itself, exactly when it passes the checks. -/
theorem postInit_eq_ok {lease lease' : HarnessSideEffectAttemptLease Ref} :
    postInit lease = .ok lease' ↔ lease' = lease ∧ lease.Checked := by
  unfold postInit
  simp only [check_bind_eq_ok, require_eq_ok]
  constructor
  · rintro ⟨hlease, howner, hattempt, -, heq, hexpires, hordered, h⟩
    cases hstatus : lease.status <;> simp only [hstatus, check_bind_eq_ok, require_eq_ok] at h
    case active =>
      rcases h with ⟨hactive, h⟩
      exact ⟨(pure_eq_ok_iff.mp h).symm, hlease, howner, hattempt, heq, hexpires, hordered,
        fun _ => hactive, fun hne => absurd hstatus hne⟩
    all_goals
      rcases h with ⟨hresolved, hconfirmed, hnone, h⟩
      exact ⟨(pure_eq_ok_iff.mp h).symm, hlease, howner, hattempt, heq, hexpires, hordered,
        fun hactive => by simp [hstatus] at hactive,
        fun _ => ⟨hresolved, by simp_all, by simp_all⟩⟩
  · rintro ⟨rfl, hc⟩
    refine ⟨hc.leaseId, hc.ownerId, hc.positive, hc.attempt_eq ▸ hc.positive, hc.attempt_eq,
      hc.expires, hc.ordered, ?_⟩
    cases hstatus : lease'.status <;> simp only [check_bind_eq_ok, require_eq_ok]
    case active => exact ⟨hc.active hstatus, rfl⟩
    all_goals
      rcases hc.closed (by simp [hstatus]) with ⟨hresolved, hconfirmed, hnone⟩
      exact ⟨hresolved, by simp_all, by simp_all, rfl⟩

def renewed (lease : HarnessSideEffectAttemptLease Ref) (leaseExpiresAt : Datetime) :
    Except SideEffectError (HarnessSideEffectAttemptLease Ref) := do
  require (lease.status = .active)
    (.plain "only an active side-effect attempt can renew its lease")
  require (lease.leaseExpiresAt < leaseExpiresAt)
    (.plain "renewed side-effect lease must extend its expiry")
  postInit { lease with leaseExpiresAt := leaseExpiresAt }

def relinkedOutcome (lease : HarnessSideEffectAttemptLease Ref) (outcomeRef : Ref) :
    Except SideEffectError (HarnessSideEffectAttemptLease Ref) := do
  require (lease.status = .terminated)
    (.plain "only a terminated side-effect attempt can reference an outcome")
  postInit { lease with outcomeRef := some outcomeRef }

def resolved (lease : HarnessSideEffectAttemptLease Ref) (terminationConfirmed : Bool)
    (resolvedAt : Datetime) (outcomeRef : Option Ref) :
    Except SideEffectError (HarnessSideEffectAttemptLease Ref) :=
  if lease.status = .terminated then
    if terminationConfirmed then
      .ok lease
    else
      .error (.plain "confirmed attempt termination cannot be revoked")
  else
    postInit { lease with
      status := if terminationConfirmed then .terminated else .indeterminate
      terminationConfirmed := terminationConfirmed
      resolvedAt := some resolvedAt
      outcomeRef := outcomeRef }

end HarnessSideEffectAttemptLease

def SameAttemptGeneration {Ref : Type} (left right : HarnessSideEffectAttemptLease Ref) : Prop :=
  left.attemptId = right.attemptId ∧
    left.leaseId = right.leaseId ∧
    left.ownerId = right.ownerId ∧
    left.toEffectIdentity = right.toEffectIdentity ∧
    left.decisionRef = right.decisionRef ∧
    left.idempotencyKey = right.idempotencyKey ∧
    left.attempt = right.attempt ∧
    left.fencingGeneration = right.fencingGeneration

instance {Ref : Type} [DecidableEq Ref] (left right : HarnessSideEffectAttemptLease Ref) :
    Decidable (SameAttemptGeneration left right) := inferInstanceAs (Decidable (_ ∧ _))

theorem SameAttemptGeneration.refl {Ref : Type} (attempt : HarnessSideEffectAttemptLease Ref) :
    SameAttemptGeneration attempt attempt := ⟨rfl, rfl, rfl, rfl, rfl, rfl, rfl, rfl⟩

theorem SameAttemptGeneration.symm {Ref : Type} {left right : HarnessSideEffectAttemptLease Ref}
    (h : SameAttemptGeneration left right) : SameAttemptGeneration right left :=
  ⟨h.1.symm, h.2.1.symm, h.2.2.1.symm, h.2.2.2.1.symm, h.2.2.2.2.1.symm, h.2.2.2.2.2.1.symm,
    h.2.2.2.2.2.2.1.symm, h.2.2.2.2.2.2.2.symm⟩

theorem SameAttemptGeneration.trans {Ref : Type} {left middle right : HarnessSideEffectAttemptLease Ref}
    (h : SameAttemptGeneration left middle) (h' : SameAttemptGeneration middle right) :
    SameAttemptGeneration left right :=
  ⟨h.1.trans h'.1, h.2.1.trans h'.2.1, h.2.2.1.trans h'.2.2.1, h.2.2.2.1.trans h'.2.2.2.1,
    h.2.2.2.2.1.trans h'.2.2.2.2.1, h.2.2.2.2.2.1.trans h'.2.2.2.2.2.1,
    h.2.2.2.2.2.2.1.trans h'.2.2.2.2.2.2.1, h.2.2.2.2.2.2.2.trans h'.2.2.2.2.2.2.2⟩

/-! ## Outcomes -/

/-- `HarnessSideEffectOutcome`, without its checksum. -/
structure HarnessSideEffectOutcome (Ref M : Type) extends EffectIdentity Ref where
  outcomeId : String
  decisionRef : Ref
  kind : String
  handler : HarnessSideEffectHandlerReference
  idempotencyKey : String
  atomicGroup : String
  disposition : HarnessSideEffectDisposition
  status : HarnessSideEffectOutcomeStatus
  stepId : Option String
  candidateRefs : List String
  publicRefs : List String
  resultRef : Option Ref
  reasonCode : String
  committedAt : Datetime
  retentionUntil : Option Datetime
  metadata : M
  attemptId : Option Ref
  fencingGeneration : Option ℕ
  deriving DecidableEq

/-- `replace(outcome, disposition=..., public_refs=(), reason_code=..., checksum=None)`. -/
def HarnessSideEffectOutcome.redisposed {Ref M : Type} (outcome : HarnessSideEffectOutcome Ref M)
    (disposition : HarnessSideEffectDisposition) : HarnessSideEffectOutcome Ref M :=
  { outcome with
    disposition := disposition
    publicRefs := []
    reasonCode := "disposition_" ++ disposition.value }

/-! ## Digests -/

/-- The uses of `checksum_for`. -/
structure Digests (Ref M : Type) where
  identityKey : EffectIdentity Ref → Ref
  attemptId : AttemptIdentity Ref → Ref
  decisionRef : HarnessSideEffectDecision Ref → Ref
  outcomeRef : HarnessSideEffectOutcome Ref M → Ref

namespace Digests

variable {Ref M : Type} (digests : Digests Ref M)

/-- The checksum of a decision.  Its payload has no `step_id`. -/
def decisionChecksum (decision : HarnessSideEffectDecision Ref) : Ref :=
  digests.decisionRef { decision with stepId := none }

/-- The checksum of an outcome.  Its payload has no `step_id`. -/
def outcomeChecksum (outcome : HarnessSideEffectOutcome Ref M) : Ref :=
  digests.outcomeRef { outcome with stepId := none }

/-- `HarnessSideEffectAttemptLease.create`. -/
def createLease (decision : HarnessSideEffectDecision Ref) (attempt : ℕ)
    (ownerId leaseId : String) (acquiredAt leaseExpiresAt : Datetime) :
    Except SideEffectError (HarnessSideEffectAttemptLease Ref) := do
  require (1 ≤ attempt) (.plain "attempt must be a positive integer")
  requiredText leaseId "lease_id"
  requiredText ownerId "owner_id"
  HarnessSideEffectAttemptLease.postInit
    { toEffectIdentity := decision.toEffectIdentity
      attemptId := digests.attemptId
        { decisionRef := digests.decisionChecksum decision
          effectId := decision.effectId
          idempotencyKey := decision.idempotencyKey
          fencingGeneration := attempt }
      leaseId := leaseId
      ownerId := ownerId
      decisionRef := digests.decisionChecksum decision
      idempotencyKey := decision.idempotencyKey
      attempt := attempt
      fencingGeneration := attempt
      acquiredAt := acquiredAt
      leaseExpiresAt := leaseExpiresAt
      status := .active
      terminationConfirmed := false
      resolvedAt := none
      outcomeRef := none }

end Digests

/-! ## Bindings -/

section Bindings

variable {Ref M : Type} [DecidableEq Ref] (digests : Digests Ref M)

def assertOutcomeMatchesDecision (outcome : HarnessSideEffectOutcome Ref M)
    (decision : HarnessSideEffectDecision Ref) : Except SideEffectError Unit :=
  require
    (outcome.decisionRef = digests.decisionChecksum decision ∧
      outcome.toEffectIdentity = decision.toEffectIdentity ∧ outcome.kind = decision.kind ∧
      outcome.handler = decision.handler ∧ outcome.idempotencyKey = decision.idempotencyKey ∧
      outcome.atomicGroup = decision.atomicGroup ∧
      digests.identityKey outcome.toEffectIdentity = digests.identityKey decision.toEffectIdentity)
    (.plain "side-effect outcome does not match authorization")

def bindOutcomeToAttempt (outcome : HarnessSideEffectOutcome Ref M)
    (attempt : HarnessSideEffectAttemptLease Ref) :
    Except SideEffectError (HarnessSideEffectOutcome Ref M) := do
  require
    (outcome.toEffectIdentity = attempt.toEffectIdentity ∧
      outcome.decisionRef = attempt.decisionRef ∧ outcome.idempotencyKey = attempt.idempotencyKey)
    (.attemptError "side_effect_outcome_attempt_identity_mismatch"
      "side-effect outcome attempt identity mismatch")
  match outcome.attemptId with
  | none =>
    return { outcome with
      attemptId := some attempt.attemptId
      fencingGeneration := some attempt.fencingGeneration }
  | some _ =>
    require (outcome.attemptId = some attempt.attemptId ∧
        outcome.fencingGeneration = some attempt.fencingGeneration)
      (.attemptError "stale_side_effect_attempt"
        "side-effect outcome carries a stale fencing identity")
    return outcome

end Bindings

end HarnessSideEffects
