/-
# What the event store holds

The durable subscriptions with their policies, the requests that an operator or a
worker sends, and the rows of the tables.  A delivery is named by the event, the
subscription version and the generation that `delivery_id_for` takes the digest of.
A tenant scope is the tenant id, where no tenant is a scope of its own.
-/
import AgoraHub.EventTime

namespace EventStore

/-! ## Subscriptions -/

structure SubscriptionKey where
  subscriptionId : String
  subscriptionVersion : ℕ
  deriving DecidableEq

/-- `SubscriptionStart`: only `AT_SEQUENCE` carries a sequence, counted from one. -/
inductive SubscriptionStart where
  | earliest
  | latest
  | atSequence (startSequence : ℕ) (positive : 1 ≤ startSequence)
  deriving DecidableEq

/-- `SubscriptionFilter`: an empty set lets every event pass. -/
structure SubscriptionFilter where
  eventTypes : Finset String := ∅
  dataSchemas : Finset String := ∅
  deriving DecidableEq

inductive SubscriptionStatus where
  | active
  | paused
  | retired
  deriving DecidableEq

inductive EffectIdempotencyStrategy where
  | inboxTransaction
  | targetIdempotencyKey
  | idempotentOverwrite
  deriving DecidableEq

structure ConsumerEffectContract where
  performsExternalEffects : Bool := false
  consumerEffectId : Option String := none
  idempotencyStrategy : Option EffectIdempotencyStrategy := none
  /-- `external-effect consumers require consumer_effect_id and a declared idempotency_strategy` -/
  external : performsExternalEffects →
    consumerEffectId.isSome ∧ idempotencyStrategy.isSome := by decide
  /-- `idempotency_strategy requires consumer_effect_id` -/
  identified : idempotencyStrategy.isSome → consumerEffectId.isSome := by decide
  deriving DecidableEq

/-- `RetryPolicy`, with the most attempts that a subscription may configure. -/
structure RetryPolicy where
  maxAttempts : ℕ := 5
  initialDelaySeconds : ℚ := 1
  multiplier : ℚ := 2
  maxDelaySeconds : ℚ := 60
  jitterRatio : ℚ := 1 / 5
  positive : 1 ≤ maxAttempts := by decide
  bounded : maxAttempts ≤ 5 := by decide
  deriving DecidableEq

/-- `retry_policy.can_retry(attempt_count)` -/
def RetryPolicy.canRetry (policy : RetryPolicy) (attemptCount : ℕ) : Bool :=
  attemptCount < policy.maxAttempts

/-- `LeasePolicy`: the microseconds of a lease, between five seconds and five minutes. -/
structure LeasePolicy where
  durationMicros : ℕ := 30000000
  least : 5000000 ≤ durationMicros := by decide
  most : durationMicros ≤ 300000000 := by decide
  deriving DecidableEq

structure DeliveryLimits where
  batchSize : ℕ := 100
  maxInFlight : ℕ := 100
  maxConcurrency : ℕ := 1
  pendingWarningThreshold : ℕ := 10000
  pendingHardLimit : ℕ := 100000
  positive : 1 ≤ batchSize ∧ 1 ≤ maxConcurrency ∧ 1 ≤ pendingWarningThreshold := by decide
  /-- `MAX_PAGE_LIMIT` -/
  page : batchSize ≤ 1000 := by decide
  batch : batchSize ≤ maxInFlight := by decide
  concurrency : maxConcurrency ≤ maxInFlight := by decide
  hard : pendingWarningThreshold < pendingHardLimit := by decide
  deriving DecidableEq

/-- The fields of a subscription that `_subscription_definition` compares: they never change. -/
structure SubscriptionDefinition where
  key : SubscriptionKey
  consumerId : String
  eventFilter : SubscriptionFilter := {}
  start : SubscriptionStart := .earliest
  effect : ConsumerEffectContract := {}
  retryPolicy : RetryPolicy := {}
  leasePolicy : LeasePolicy := {}
  limits : DeliveryLimits := {}
  supportsOutOfOrderRepair : Bool := false
  tenantId : Option String := none
  deriving DecidableEq

structure DurableSubscription extends SubscriptionDefinition where
  status : SubscriptionStatus := .active
  createdAt : Option Datetime := none
  updatedAt : Option Datetime := none
  deriving DecidableEq

/-! ## Events -/

/-- `EventCandidate`, with what the store reads of it. -/
structure EventCandidate where
  eventId : String
  eventType : String
  dataSchema : String
  streamId : String
  contentChecksum : String
  tenantId : Option String := none
  deriving DecidableEq

/-- `StoredEvent`: a candidate with its place in its stream. -/
structure StoredEvent extends EventCandidate where
  observedAt : Datetime
  streamSequence : ℕ
  deriving DecidableEq

/-- A row of `event_stream_sequences`. -/
structure StreamRow where
  tenantId : Option String
  streamId : String
  lastSequence : ℕ
  createdAt : Datetime
  updatedAt : Datetime
  deriving DecidableEq

/-- `SubscriptionStreamState`: where a subscription starts and ends in one stream. -/
structure SubscriptionStreamState where
  tenantId : Option String
  subscription : SubscriptionKey
  streamId : String
  startSequence : ℕ
  registrationWatermark : ℕ
  retirementWatermark : Option ℕ
  createdAt : Datetime
  updatedAt : Datetime
  deriving DecidableEq

/-! ## Deliveries -/

inductive DeliveryState where
  | pending
  | claimed
  | retryWait
  | acked
  | dropped
  | deadLetter
  deriving DecidableEq

def DeliveryState.isTerminal : DeliveryState → Bool
  | .acked | .dropped | .deadLetter => true
  | .pending | .claimed | .retryWait => false

/-- What `delivery_id_for` takes the digest of. -/
structure DeliveryId where
  eventId : String
  subscription : SubscriptionKey
  deliveryGeneration : ℕ
  deriving DecidableEq

/-- The lease columns of a delivery: all three are set, or none is. -/
structure Lease where
  owner : String
  generation : ℕ
  expiresAt : Datetime
  deriving DecidableEq

/-- `DeliveryRecord`, a row of `event_deliveries`. -/
structure Delivery where
  id : DeliveryId
  tenantId : Option String
  streamId : String
  streamSequence : ℕ
  consumerEffectId : Option String
  state : DeliveryState
  attemptCount : ℕ
  availableAt : Option Datetime
  lease : Option Lease
  firstFailureAt : Option Datetime
  lastFailureAt : Option Datetime
  reasonClass : Option String
  createdAt : Datetime
  updatedAt : Datetime
  deriving DecidableEq

namespace Delivery

/-- The row is not in a terminal state. -/
def nonterminal (row : Delivery) : Bool := !row.state.isTerminal

/-- `delivery_generation = 1` -/
def original (row : Delivery) : Bool := row.id.deliveryGeneration == 1

end Delivery

/-- `ConsumerCheckpoint`, a row of `event_consumer_checkpoints`. -/
structure ConsumerCheckpoint where
  tenantId : Option String
  subscription : SubscriptionKey
  streamId : String
  highestContiguousTerminalSequence : ℕ
  lastEventId : String
  terminalDisposition : DeliveryState
  updatedAt : Datetime
  deriving DecidableEq

inductive DeadLetterDisposition where
  | open
  | requeued
  | resolved
  deriving DecidableEq

/-- The operator columns of a dead letter that is no longer open. -/
structure OperatorAudit where
  operatorId : String
  reason : String
  updatedAt : Datetime
  deriving DecidableEq

/-- `DeadLetterRecord`, named by the delivery that `dead_letter_id_for` takes the digest of. -/
structure DeadLetterRecord where
  deliveryId : DeliveryId
  tenantId : Option String
  streamId : String
  streamSequence : ℕ
  consumerEffectId : Option String
  attemptCount : ℕ
  firstFailureAt : Datetime
  lastFailureAt : Datetime
  reasonClass : String
  disposition : DeadLetterDisposition := .open
  operator : Option OperatorAudit := none
  deriving DecidableEq

/-- `InboxEntry`, as a caller sends it. -/
structure InboxEntry where
  eventId : String
  consumerEffectId : String
  completedAt : Datetime
  deliveryId : Option DeliveryId := none
  resultChecksum : Option String := none
  deriving DecidableEq

/-- A row of `event_inbox`. -/
structure InboxRow where
  eventId : String
  consumerEffectId : String
  tenantId : Option String
  completedAt : Datetime
  deliveryId : DeliveryId
  resultChecksum : Option String
  deriving DecidableEq

/-! ## Requests -/

structure DeliveryClaimRequest where
  subscription : SubscriptionKey
  leaseOwner : String
  lease : LeasePolicy := {}
  limit : ℕ := 100
  streamId : Option String := none
  positive : 1 ≤ limit := by decide
  page : limit ≤ 1000 := by decide
  deriving DecidableEq

structure DeliveryLeaseToken where
  deliveryId : DeliveryId
  lease : Lease
  leaseStartedAt : Option Datetime := none
  deriving DecidableEq

structure ClaimedDelivery where
  delivery : Delivery
  event : StoredEvent
  lease : DeliveryLeaseToken
  deriving DecidableEq

/-- The target of a settlement, with what each target requires. -/
inductive SettlementTarget where
  | acked (reasonClass : Option String) (inboxEntry : Option InboxEntry)
  | dropped (reasonClass : String)
  | retryWait (reasonClass : String) (retryAvailableAt : Datetime)
  | deadLetter (reasonClass : String)
  deriving DecidableEq

structure DeliverySettlement where
  lease : DeliveryLeaseToken
  target : SettlementTarget
  settledAt : Datetime
  /-- `retry_available_at must be after settled_at` -/
  retryAfter : ∀ reason available, target = .retryWait reason available → settledAt < available
  deriving DecidableEq

namespace SettlementTarget

/-- `settlement.target_state` -/
def state : SettlementTarget → DeliveryState
  | .acked _ _ => .acked
  | .dropped _ => .dropped
  | .retryWait _ _ => .retryWait
  | .deadLetter _ => .deadLetter

def reasonClass : SettlementTarget → Option String
  | .acked reason _ => reason
  | .dropped reason | .retryWait reason _ | .deadLetter reason => some reason

def retryAvailableAt : SettlementTarget → Option Datetime
  | .retryWait _ available => some available
  | .acked _ _ | .dropped _ | .deadLetter _ => none

def inboxEntry : SettlementTarget → Option InboxEntry
  | .acked _ entry => entry
  | .dropped _ | .retryWait _ _ | .deadLetter _ => none

end SettlementTarget

structure DeadLetterAction where
  deadLetterId : DeliveryId
  operatorId : String
  reason : String
  requestedAt : Datetime
  idempotencyReady : Bool := false
  deriving DecidableEq

structure RedeliveryRequest where
  redeliveryId : String
  subscription : SubscriptionKey
  sourceStreamId : String
  fromSequence : ℕ
  throughSequence : Option ℕ := none
  requestedAt : Datetime
  operatorId : String
  operatorReason : String
  authorizationEvidenceRef : String
  tenantId : Option String := none
  positive : 1 ≤ fromSequence := by decide
  /-- `through_sequence cannot precede from_sequence` -/
  ordered : ∀ through ∈ throughSequence, fromSequence ≤ through := by decide
  /-- `redelivery range cannot exceed 1000 stream positions` -/
  bounded : ∀ through ∈ throughSequence, through - fromSequence + 1 ≤ 1000 := by decide
  deriving DecidableEq

structure RedeliveryItem where
  deliveryId : DeliveryId
  streamSequence : ℕ
  createdAt : Datetime
  deriving DecidableEq

/-- `RedeliveryReport`: the request, with the range that was captured. -/
structure RedeliveryReport where
  request : RedeliveryRequest
  throughSequence : ℕ
  capturedHighWatermark : ℕ
  scheduledAt : Datetime
  items : List RedeliveryItem

structure RetirementCancellationRequest where
  cancellationId : String
  subscription : SubscriptionKey
  requestedAt : Datetime
  operatorId : String
  operatorReason : String
  authorizationEvidenceRef : String
  tenantId : Option String := none
  limit : ℕ := 1000
  positive : 1 ≤ limit := by decide
  bounded : limit ≤ 1000 := by decide
  deriving DecidableEq

structure RetirementCancellationItem where
  deliveryId : DeliveryId
  previousState : DeliveryState
  previousAttemptCount : ℕ
  previousReasonClass : Option String
  deriving DecidableEq

/-- `RetirementCancellationReport`: the request, with what it did. -/
structure RetirementCancellationReport where
  request : RetirementCancellationRequest
  cancelledAt : Datetime
  items : List RetirementCancellationItem
  remainingNonterminalCount : ℕ
  remainingNonterminalCountTruncated : Bool
  deriving DecidableEq

/-! ## The tables -/

/-- The tables that deliveries are made and settled in. -/
structure Store where
  streams : List StreamRow := []
  events : List StoredEvent := []
  subscriptions : List DurableSubscription := []
  states : List SubscriptionStreamState := []
  deliveries : List Delivery := []
  checkpoints : List ConsumerCheckpoint := []
  deadLetters : List DeadLetterRecord := []
  inbox : List InboxRow := []
  redeliveries : List RedeliveryReport := []
  cancellations : List RetirementCancellationReport := []

/-- The CHECK constraints that compare two timestamps of a row. -/
inductive TimestampCheck where
  | streamUpdated
  | subscriptionUpdated
  | stateUpdated
  | deliveryUpdated
  | deliveryFailure
  | deadLetterFailure
  | redeliveryScheduled
  | cancellationCancelled
  deriving DecidableEq

/-- What an operation raises. -/
inductive StoreError where
  /-- `EventStoreError` for an IntegrityError of a timestamp CHECK. -/
  | timestampCheck (check : TimestampCheck)
  /-- An IntegrityError of another constraint of the schema. -/
  | integrity (message : String)
  | corruption (message : String)
  | overflow
  | valueError (message : String)
  | unknownSubscription (key : SubscriptionKey)
  | unknownDeadLetter (id : DeliveryId)
  | subscriptionPosition (key : SubscriptionKey) (streamId : String)
      (requestedSequence maximumSequence : ℕ)
  | capacity (message : String)
  | identityCollision (eventId : String)
  | streamVersionConflict (streamId : String) (expectedLastSequence actualLastSequence : ℕ)
  | staleLease (message : String)
  | consumerIdempotency (message : String)
  | retirementCancellation (message : String)
  | retirementCancellationCollision
  | eventStore (message : String)
  deriving DecidableEq

end EventStore
