/-
# Side-effect records as objects

What the constructors of decisions, attempts and outcomes check, and the objects that `to_dict`
writes and `from_dict` reads.

An object stands for its JSON text, and a moment in it for the text of the moment.  The metadata
of an outcome are kept as their JSON value, with the places where they hold what is not JSON.
-/
import AgoraHub.SideEffectRecords
import AgoraHub.PyValue

open Fallible

namespace HarnessSideEffects

/-! ## Texts -/

/-- The characters of an identifier after the first one. -/
def isIdentifierChar (c : Char) : Bool := c.isAlphanum || "._:/+-".toList.contains c

/-- The characters of a version after the first one. -/
def isVersionChar (c : Char) : Bool := c.isAlphanum || "._+-".toList.contains c

/-- A text of a letter or digit and further characters. -/
def matchesPattern (further : Char → Bool) (text : String) : Bool :=
  match text.toList with
  | [] => false
  | first :: rest => first.isAlphanum && rest.all further

def identifier (value fieldName : String) : Except SideEffectError Unit := do
  requiredText value fieldName
  require (matchesPattern isIdentifierChar value) (.plain (fieldName ++ " has an invalid format"))

def version (value : String) : Except SideEffectError Unit := do
  requiredText value "version"
  require (matchesPattern isVersionChar value ∧
      value.toLower ∉ ["current", "default", "latest", "stable"])
    (.attemptError "invalid_side_effect_handler_version"
      "side-effect version must be exact and cannot use a moving alias")

def optionalText (value : Option String) (fieldName : String) : Except SideEffectError Unit :=
  match value with
  | none => .ok ()
  | some text => requiredText text fieldName

def textTuple (values : List String) (fieldName : String) : Except SideEffectError Unit :=
  values.forM fun value => requiredText value fieldName

def candidateRefs (values : List String) (fieldName : String) : Except SideEffectError Unit := do
  textTuple values fieldName
  require values.Nodup (.plain (fieldName ++ " must not contain duplicates"))

/-- The pinned graph of a record. -/
def graphIdentity {Ref : Type} (identity : EffectIdentity Ref) : Except SideEffectError Unit := do
  identifier identity.graphId "graph_id"
  version identity.graphVersion
  requiredText identity.graphRef "graph_ref"
  require (identity.graphRef = identity.graphId ++ "@" ++ identity.graphVersion)
    (.plain "graph_ref must match graph_id and graph_version")

def HarnessSideEffectHandlerReference.postInit (handler : HarnessSideEffectHandlerReference) :
    Except SideEffectError Unit := do
  identifier handler.handlerId "handler_id"
  HarnessSideEffects.version handler.version

/-! ## Decisions -/

namespace HarnessSideEffectDecision

variable {Ref : Type}

def postInit (decision : HarnessSideEffectDecision Ref) :
    Except SideEffectError (HarnessSideEffectDecision Ref) := do
  requiredText decision.decisionId "decision_id"
  requiredText decision.effectId "effect_id"
  requiredText decision.kind "kind"
  requiredText decision.runId "run_id"
  requiredText decision.atomicGroup "atomic_group"
  requiredText decision.idempotencyKey "idempotency_key"
  requiredText decision.causationId "causation_id"
  requiredText decision.reasonCode "reason_code"
  requiredText decision.decisionVersion "decision_version"
  graphIdentity decision.toEffectIdentity
  decision.handler.postInit
  require (1 ≤ decision.activityAttempt) (.plain "attempt must be a positive integer")
  require (1 ≤ decision.effectAttempt) (.plain "effect_attempt must be a positive integer")
  require (1 ≤ decision.effectAttemptLimit) (.plain "effect_attempt_limit must be a positive integer")
  require (decision.effectAttempt ≤ decision.effectAttemptLimit)
    (.plain "effect_attempt must not exceed effect_attempt_limit")
  optionalText decision.nodeId "node_id"
  optionalText decision.nodeInstanceId "node_instance_id"
  optionalText decision.activityId "activity_id"
  optionalText decision.stepId "step_id"
  optionalText decision.terminalAction "terminal_action"
  optionalText decision.workerResultRef "worker_result_ref"
  textTuple decision.gateRefs "gate_refs"
  match decision.origin with
  | .worker =>
    require (decision.nodeId ≠ none ∧ decision.nodeInstanceId ≠ none ∧ decision.activityId ≠ none ∧
        decision.workerResultRef ≠ none ∧ decision.terminalAction = none)
      (.plain "worker side-effect decision identity is incomplete")
  | .controllerTerminal =>
    require (decision.terminalAction ≠ none ∧ decision.terminalStateRef.isSome ∧
        decision.nodeId = none ∧ decision.nodeInstanceId = none ∧ decision.activityId = none ∧
        decision.stepId = none)
      (.plain "controller-terminal side-effect decision identity is incomplete")
  require (decision.status = .authorized → decision.approvalEvidenceRef.isSome)
    (.plain "authorized side-effect decision requires approval policy evidence")
  return decision

end HarnessSideEffectDecision

/-- The object of a decision: every field but `step_id`, and the checksum. -/
structure DecisionObject (Ref : Type) extends EffectIdentity Ref where
  decisionId : String
  intentRef : Ref
  kind : String
  handler : HarnessSideEffectHandlerReference
  atomicGroup : String
  idempotencyKey : String
  commandOrdinal : ℕ
  causationId : String
  disposition : HarnessSideEffectDisposition
  status : HarnessSideEffectDecisionStatus
  workerResultRef : Option String
  terminalStateRef : Option Ref
  gateRefs : List String
  gateResultRefs : List Ref
  aggregateVerdictRef : Option Ref
  approvalEvidenceRef : Option Ref
  budgetRef : Option Ref
  effectAttempt : ℕ
  effectAttemptLimit : ℕ
  reasonCode : String
  decisionVersion : String
  decidedAt : Datetime
  checksum : Ref
  deriving DecidableEq

/-! ## Attempts -/

/-- What `HarnessSideEffectAttemptLease.__post_init__` checks of the effect. -/
def leaseIdentity {Ref : Type} (lease : HarnessSideEffectAttemptLease Ref) :
    Except SideEffectError Unit := do
  requiredText lease.effectId "effect_id"
  requiredText lease.runId "run_id"
  requiredText lease.idempotencyKey "idempotency_key"
  graphIdentity lease.toEffectIdentity
  optionalText lease.nodeId "node_id"
  optionalText lease.nodeInstanceId "node_instance_id"
  optionalText lease.activityId "activity_id"
  optionalText lease.terminalAction "terminal_action"
  if lease.nodeId = none ∨ lease.nodeInstanceId = none ∨ lease.activityId = none then
    require (lease.nodeId = none ∧ lease.nodeInstanceId = none ∧ lease.activityId = none)
      (.plain "side-effect attempt physical identity is incomplete")
    require (lease.terminalAction ≠ none)
      (.plain "terminal side-effect attempt requires terminal_action")
  else
    require (lease.terminalAction = none)
      (.plain "worker side-effect attempt cannot carry terminal_action")
  require (1 ≤ lease.activityAttempt) (.plain "activity_attempt must be a positive integer")

/-- The object of an attempt: every field, and the checksum. -/
structure AttemptObject (Ref : Type) extends HarnessSideEffectAttemptLease Ref where
  checksum : Ref
  deriving DecidableEq

/-! ## Outcomes -/

/-- Metadata, as the constructor freezes them: the JSON value that `to_jsonable` makes of them, with
sorted keys, since the order of the keys is not compared; where they hold `NaN` or an infinity,
with its text; and where they hold a value that is another one than its JSON value, such as a
date or a path, with its type. -/
structure Metadata where
  json : PyValue
  sorted : json.canon = json
  nonFinite : List (List String × String)
  foreign : List (List String × String)
  deriving DecidableEq

/-- `to_jsonable(metadata)`. -/
def Metadata.toJsonable (metadata : Metadata) : Metadata := { metadata with foreign := [] }

def HarnessSideEffectOutcome.postInit {Ref M : Type} (outcome : HarnessSideEffectOutcome Ref M) :
    Except SideEffectError (HarnessSideEffectOutcome Ref M) := do
  requiredText outcome.outcomeId "outcome_id"
  requiredText outcome.effectId "effect_id"
  requiredText outcome.runId "run_id"
  requiredText outcome.kind "kind"
  requiredText outcome.idempotencyKey "idempotency_key"
  requiredText outcome.atomicGroup "atomic_group"
  requiredText outcome.reasonCode "reason_code"
  graphIdentity outcome.toEffectIdentity
  outcome.handler.postInit
  require (1 ≤ outcome.activityAttempt) (.plain "attempt must be a positive integer")
  optionalText outcome.nodeId "node_id"
  optionalText outcome.nodeInstanceId "node_instance_id"
  optionalText outcome.activityId "activity_id"
  optionalText outcome.stepId "step_id"
  optionalText outcome.terminalAction "terminal_action"
  match outcome.origin with
  | .worker => do
    require (outcome.nodeId ≠ none ∧ outcome.nodeInstanceId ≠ none ∧ outcome.activityId ≠ none)
      (.plain "worker side-effect outcome requires Graph node/activity identity")
    require (outcome.terminalAction = none)
      (.plain "worker side-effect outcome cannot carry terminal identity")
  | .controllerTerminal =>
    require (outcome.terminalAction ≠ none ∧ outcome.nodeId = none ∧ outcome.nodeInstanceId = none ∧
        outcome.activityId = none ∧ outcome.stepId = none)
      (.plain "controller-terminal side-effect outcome identity is incomplete")
  HarnessSideEffects.candidateRefs outcome.candidateRefs "candidate_refs"
  HarnessSideEffects.candidateRefs outcome.publicRefs "public_refs"
  require (outcome.attemptId.isNone = outcome.fencingGeneration.isNone)
    (.plain ("side-effect outcome attempt and fencing identities must be supplied together"))
  require (∀ generation ∈ outcome.fencingGeneration.toList, 1 ≤ generation)
    (.plain "fencing_generation must be a positive integer")
  require (outcome.disposition = .accepted → outcome.publicRefs ≠ [])
    (.plain "accepted side-effect outcome requires public refs")
  require (outcome.disposition ≠ .accepted → outcome.publicRefs = [])
    (.plain "non-accepted side-effect outcome cannot expose public refs")
  return outcome

/-- The object of an outcome: every field but `step_id`, and the checksum. -/
structure OutcomeObject (Ref : Type) extends EffectIdentity Ref where
  outcomeId : String
  decisionRef : Ref
  kind : String
  handler : HarnessSideEffectHandlerReference
  idempotencyKey : String
  atomicGroup : String
  disposition : HarnessSideEffectDisposition
  status : HarnessSideEffectOutcomeStatus
  candidateRefs : List String
  publicRefs : List String
  resultRef : Option Ref
  reasonCode : String
  committedAt : Datetime
  retentionUntil : Option Datetime
  metadata : Metadata
  attemptId : Option Ref
  fencingGeneration : Option ℕ
  checksum : Ref
  deriving DecidableEq

/-- The digests of records and of leases.  The payload of an outcome has its metadata as JSON. -/
structure RecordDigests (Ref : Type) extends Digests Ref Metadata where
  leaseChecksum : HarnessSideEffectAttemptLease Ref → Ref
  outcomeRef_toJsonable : ∀ outcome : HarnessSideEffectOutcome Ref Metadata,
    outcomeRef { outcome with metadata := outcome.metadata.toJsonable } = outcomeRef outcome

/-! ## Objects -/

section Objects

variable {Ref : Type} [DecidableEq Ref] (digests : RecordDigests Ref)

/-- `HarnessSideEffectDecision.to_dict`. -/
def decisionToDict (decision : HarnessSideEffectDecision Ref) : DecisionObject Ref where
  toEffectIdentity := decision.toEffectIdentity
  decisionId := decision.decisionId
  intentRef := decision.intentRef
  kind := decision.kind
  handler := decision.handler
  atomicGroup := decision.atomicGroup
  idempotencyKey := decision.idempotencyKey
  commandOrdinal := decision.commandOrdinal
  causationId := decision.causationId
  disposition := decision.disposition
  status := decision.status
  workerResultRef := decision.workerResultRef
  terminalStateRef := decision.terminalStateRef
  gateRefs := decision.gateRefs
  gateResultRefs := decision.gateResultRefs
  aggregateVerdictRef := decision.aggregateVerdictRef
  approvalEvidenceRef := decision.approvalEvidenceRef
  budgetRef := decision.budgetRef
  effectAttempt := decision.effectAttempt
  effectAttemptLimit := decision.effectAttemptLimit
  reasonCode := decision.reasonCode
  decisionVersion := decision.decisionVersion
  decidedAt := decision.decidedAt
  checksum := digests.decisionChecksum decision

/-- `HarnessSideEffectDecision.from_dict`: the constructor, without a `step_id`, and its check of
the checksum. -/
def decisionFromDict (value : DecisionObject Ref) :
    Except SideEffectError (HarnessSideEffectDecision Ref) := do
  let decision ← HarnessSideEffectDecision.postInit
    { toEffectIdentity := value.toEffectIdentity
      decisionId := value.decisionId
      intentRef := value.intentRef
      kind := value.kind
      handler := value.handler
      atomicGroup := value.atomicGroup
      idempotencyKey := value.idempotencyKey
      commandOrdinal := value.commandOrdinal
      causationId := value.causationId
      disposition := value.disposition
      status := value.status
      stepId := none
      workerResultRef := value.workerResultRef
      terminalStateRef := value.terminalStateRef
      gateRefs := value.gateRefs
      gateResultRefs := value.gateResultRefs
      aggregateVerdictRef := value.aggregateVerdictRef
      approvalEvidenceRef := value.approvalEvidenceRef
      budgetRef := value.budgetRef
      effectAttempt := value.effectAttempt
      effectAttemptLimit := value.effectAttemptLimit
      reasonCode := value.reasonCode
      decisionVersion := value.decisionVersion
      decidedAt := value.decidedAt }
  require (value.checksum = digests.decisionChecksum decision)
    (.plain "side-effect decision checksum mismatch")
  return decision

/-- `HarnessSideEffectOutcome.to_dict`. -/
def outcomeToDict (outcome : HarnessSideEffectOutcome Ref Metadata) : OutcomeObject Ref where
  toEffectIdentity := outcome.toEffectIdentity
  outcomeId := outcome.outcomeId
  decisionRef := outcome.decisionRef
  kind := outcome.kind
  handler := outcome.handler
  idempotencyKey := outcome.idempotencyKey
  atomicGroup := outcome.atomicGroup
  disposition := outcome.disposition
  status := outcome.status
  candidateRefs := outcome.candidateRefs
  publicRefs := outcome.publicRefs
  resultRef := outcome.resultRef
  reasonCode := outcome.reasonCode
  committedAt := outcome.committedAt
  retentionUntil := outcome.retentionUntil
  metadata := outcome.metadata.toJsonable
  attemptId := outcome.attemptId
  fencingGeneration := outcome.fencingGeneration
  checksum := digests.outcomeChecksum outcome

/-- `HarnessSideEffectOutcome.from_dict`: the constructor, without a `step_id`, and its check of the
checksum. -/
def outcomeFromDict (value : OutcomeObject Ref) :
    Except SideEffectError (HarnessSideEffectOutcome Ref Metadata) := do
  let outcome ← HarnessSideEffectOutcome.postInit
    { toEffectIdentity := value.toEffectIdentity
      outcomeId := value.outcomeId
      decisionRef := value.decisionRef
      kind := value.kind
      handler := value.handler
      idempotencyKey := value.idempotencyKey
      atomicGroup := value.atomicGroup
      disposition := value.disposition
      status := value.status
      stepId := none
      candidateRefs := value.candidateRefs
      publicRefs := value.publicRefs
      resultRef := value.resultRef
      reasonCode := value.reasonCode
      committedAt := value.committedAt
      retentionUntil := value.retentionUntil
      metadata := value.metadata
      attemptId := value.attemptId
      fencingGeneration := value.fencingGeneration }
  require (value.checksum = digests.outcomeChecksum outcome)
    (.plain "side-effect outcome checksum mismatch")
  return outcome

/-- `HarnessSideEffectAttemptLease.to_dict`. -/
def attemptToDict (attempt : HarnessSideEffectAttemptLease Ref) : AttemptObject Ref :=
  { attempt with checksum := digests.leaseChecksum attempt }

/-- `HarnessSideEffectAttemptLease.from_dict`: the constructor and its check of the checksum. -/
def attemptFromDict (value : AttemptObject Ref) :
    Except SideEffectError (HarnessSideEffectAttemptLease Ref) := do
  leaseIdentity value.toHarnessSideEffectAttemptLease
  let attempt ← value.toHarnessSideEffectAttemptLease.postInit
  require (value.checksum = digests.leaseChecksum attempt)
    (.plain "side-effect attempt lease checksum mismatch")
  return attempt

end Objects

end HarnessSideEffects
