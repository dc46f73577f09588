/-
# The SQLite event store

The operations of `SQLiteEventStore` on the tables.  Each takes the tables and the
reading of the store's clock, and returns the tables after the transaction, or raises,
which rolls the transaction back.  A CHECK constraint that compares two timestamps
compares their texts; the queries compare moments.
-/
import AgoraHub.EventStoreModels
import AgoraHub.KeyedList
import AgoraHub.PyText

namespace EventStore

open Fallible Datetime
open KeyedList (find?)

/-! ## Rows -/

namespace Delivery

section

variable (row : Delivery)

/-- `(first_failure_at IS NULL AND last_failure_at IS NULL) OR (first_failure_at IS NOT NULL AND
last_failure_at >= first_failure_at)`, where a comparison with NULL does not fail. -/
def failureTexts : Bool :=
  match row.firstFailureAt, row.lastFailureAt with
  | none, none => true
  | none, some _ => false
  | some _, none => true
  | some first, some last => TextLe first last

/-- The CHECK constraints of `event_deliveries`. -/
def checkConstraints : Except StoreError Unit := do
  require ((row.state = .pending ∧ row.attemptCount = 0) ∨
    (row.state ≠ .pending ∧ 1 ≤ row.attemptCount)) (.integrity "attempt_count")
  require (row.lease.all (1 ≤ ·.generation)) (.integrity "lease_generation")
  require (row.state = .claimed ↔ row.lease.isSome) (.integrity "lease_owner")
  require row.failureTexts (.timestampCheck .deliveryFailure)
  require ((row.state = .retryWait ∨ row.state = .deadLetter) →
    row.firstFailureAt.isSome ∧ row.reasonClass.isSome) (.integrity "reason_class")
  require (TextLe row.createdAt row.updatedAt) (.timestampCheck .deliveryUpdated)

/-- The failure times of a `DeliveryRecord`: both or none, in order. -/
def failureTimes : Bool :=
  match row.firstFailureAt, row.lastFailureAt with
  | none, none => true
  | none, some _ => false
  | some _, none => false
  | some first, some last => first ≤ last

/-- `_delivery_from_row`, which checks the timestamps of the record again, as moments. -/
def fromRow : Except StoreError Delivery := do
  require (row.failureTimes ∧ row.createdAt ≤ row.updatedAt)
    (.corruption "stored delivery cannot be decoded")
  .ok row

/-- `newsroom_epoch_us(lease_expires_at) <= newsroom_epoch_us(now)` -/
def leaseExpired (now : Datetime) : Bool := row.lease.any (·.expiresAt ≤ now)

/-- A row that a claim may take: it is pending, its retry is due, or its lease has expired. -/
def claimable (now : Datetime) : Bool :=
  row.state == .pending || (row.state == .retryWait && row.availableAt.any (· ≤ now)) ||
    (row.state == .claimed && row.leaseExpired now)

def leaseMatches (token : DeliveryLeaseToken) (now : Datetime) : Bool :=
  row.id == token.deliveryId && row.state == .claimed && row.lease == some token.lease &&
    decide (now < token.lease.expiresAt)

end

/-- `ORDER BY stream_id, stream_sequence, delivery_generation` -/
def Le (a b : Delivery) : Prop :=
  a.streamId < b.streamId ∨ a.streamId = b.streamId ∧
    (a.streamSequence < b.streamSequence ∨ a.streamSequence = b.streamSequence ∧
      a.id.deliveryGeneration ≤ b.id.deliveryGeneration)

instance : DecidableRel Le := fun _ _ => inferInstanceAs (Decidable (_ ∨ _))

end Delivery

/-- The row that `_insert_delivery` and `requeue_dead_letter` insert. -/
def newDelivery (id : DeliveryId) (tenantId : Option String) (streamId : String)
    (streamSequence : ℕ) (consumerEffectId : Option String) (createdAt : Datetime) : Delivery where
  id := id
  tenantId := tenantId
  streamId := streamId
  streamSequence := streamSequence
  consumerEffectId := consumerEffectId
  state := .pending
  attemptCount := 0
  availableAt := some createdAt
  lease := none
  firstFailureAt := none
  lastFailureAt := none
  reasonClass := none
  createdAt := createdAt
  updatedAt := createdAt

/-- `_event_matches_subscription_row` -/
def eventMatches (event : StoredEvent) (subscription : DurableSubscription) : Bool :=
  decide ((subscription.eventFilter.eventTypes = ∅ ∨
      event.eventType ∈ subscription.eventFilter.eventTypes) ∧
    (subscription.eventFilter.dataSchemas = ∅ ∨
      event.dataSchema ∈ subscription.eventFilter.dataSchemas) ∧
    event.tenantId = subscription.tenantId)

def subscriptionStartSequence (start : SubscriptionStart) (watermark : ℕ) : ℕ :=
  match start with
  | .earliest => 1
  | .latest => watermark + 1
  | .atSequence startSequence _ => startSequence

namespace Store

/-! ## Reading the tables -/

section

variable (store : Store)

/-- `SELECT * FROM durable_events WHERE event_id = ?` -/
def findEvent (eventId : String) : Option StoredEvent :=
  find? (fun event => event.eventId) store.events eventId

def selectSubscription (key : SubscriptionKey) : Option DurableSubscription :=
  find? (fun subscription => subscription.key) store.subscriptions key

/-- `SELECT * FROM event_deliveries WHERE delivery_id = ?` -/
def findDelivery (id : DeliveryId) : Option Delivery :=
  find? Delivery.id store.deliveries id

/-- `SELECT * FROM event_dead_letters WHERE dead_letter_id = ?` -/
def findDeadLetter (id : DeliveryId) : Option DeadLetterRecord :=
  find? DeadLetterRecord.deliveryId store.deadLetters id

/-- The row of a stream. -/
def findStream (tenantId : Option String) (streamId : String) : Option StreamRow :=
  find? (fun row : StreamRow => (row.tenantId, row.streamId)) store.streams
    (tenantId, streamId)

def streamWatermark (tenantId : Option String) (streamId : String) : ℕ :=
  ((store.findStream tenantId streamId).map StreamRow.lastSequence).getD 0

end

/-- The primary key of `event_subscription_stream_states` and `event_consumer_checkpoints`. -/
def placeOf (tenantId : Option String) (subscription : SubscriptionKey) (streamId : String) :
    Option String × SubscriptionKey × String := (tenantId, subscription, streamId)

section

variable (store : Store)

/-- The row of `event_subscription_stream_states`. -/
def findState (tenantId : Option String) (subscription : SubscriptionKey)
    (streamId : String) : Option SubscriptionStreamState :=
  find?
    (fun row : SubscriptionStreamState => placeOf row.tenantId row.subscription row.streamId)
    store.states (placeOf tenantId subscription streamId)

/-- The row of `event_consumer_checkpoints`. -/
def findCheckpoint (tenantId : Option String) (subscription : SubscriptionKey)
    (streamId : String) : Option ConsumerCheckpoint :=
  find?
    (fun row : ConsumerCheckpoint => placeOf row.tenantId row.subscription row.streamId)
    store.checkpoints (placeOf tenantId subscription streamId)

/-- The deliveries of a subscription in its tenant scope. -/
def deliveriesOf (subscription : DurableSubscription) : List Delivery :=
  store.deliveries.filter fun row =>
    row.id.subscription == subscription.key && row.tenantId == subscription.tenantId

/-- The deliveries of a subscription that are not terminal. -/
def nonterminalOf (subscription : DurableSubscription) : List Delivery :=
  (store.deliveriesOf subscription).filter Delivery.nonterminal

/-- The claimed deliveries of a subscription. -/
def claimedOf (subscription : DurableSubscription) : List Delivery :=
  (store.deliveriesOf subscription).filter (·.state == .claimed)

/-- `_subscription_pending_capacity_exhausted` -/
def pendingCapacityExhausted (subscription : DurableSubscription) : Bool :=
  decide (subscription.limits.pendingHardLimit ≤ (store.nonterminalOf subscription).length)

/-- `SELECT COALESCE(MAX(delivery_generation), 0) + 1` -/
def nextGeneration (eventId : String) (subscription : SubscriptionKey) : ℕ :=
  ((store.deliveries.filter fun row =>
      row.id.eventId == eventId && row.id.subscription == subscription).map
    (·.id.deliveryGeneration)).foldr max 0 + 1

end

/-! ## Writing the tables -/

section

variable (store : Store)

/-- The tables with a delivery replaced under its id. -/
def putDelivery (row : Delivery) : Store :=
  { store with deliveries := KeyedList.replace Delivery.id store.deliveries row }

/-- `UPDATE event_deliveries SET … WHERE delivery_id = ? AND … RETURNING *` -/
def updateDelivery (id : DeliveryId) (condition : Delivery → Bool)
    (set : Delivery → Delivery) : Except StoreError (Store × Option Delivery) :=
  match store.findDelivery id with
  | none => .ok (store, none)
  | some row =>
    if condition row then do
      (set row).checkConstraints
      .ok (store.putDelivery (set row), some (set row))
    else .ok (store, none)

/-- `_insert_delivery`: a row that is there already is left alone.  A new row meets every
constraint. -/
def insertDelivery (subscription : DurableSubscription) (event : StoredEvent)
    (createdAt : Datetime) (deliveryGeneration : ℕ) : Store × ℕ :=
  let id : DeliveryId := ⟨event.eventId, subscription.key, deliveryGeneration⟩
  match store.findDelivery id with
  | some _ => (store, 0)
  | none =>
    ({ store with
      deliveries := store.deliveries ++ [newDelivery id event.tenantId event.streamId
        event.streamSequence subscription.effect.consumerEffectId createdAt] }, 1)

/-- `_insert_subscription_stream_state` -/
def insertState (subscription : DurableSubscription) (streamId : String)
    (startSequence registrationWatermark : ℕ) (createdAt : Datetime) : Except StoreError Store := do
  require ((store.findState subscription.tenantId subscription.key streamId).isNone)
    (.integrity "event_subscription_stream_states")
  require (startSequence ≤ registrationWatermark + 1)
    (.integrity "start_sequence <= registration_watermark + 1")
  .ok { store with
    states := store.states ++ [⟨subscription.tenantId, subscription.key, streamId, startSequence,
      registrationWatermark, none, createdAt, createdAt⟩] }

/-- The dead letter of a row that has reached the end of its attempts. -/
def insertDeadLetter (row : Delivery) : Except StoreError Store := do
  let first ← orRaise row.firstFailureAt (.corruption "missing failure timestamps")
  let last ← orRaise row.lastFailureAt (.corruption "missing failure timestamps")
  let reason ← orRaise row.reasonClass (.integrity "reason_class")
  require ((store.findDeadLetter row.id).isNone) (.integrity "event_dead_letters.delivery_id")
  require (1 ≤ row.attemptCount) (.integrity "attempt_count")
  require (TextLe first last) (.timestampCheck .deadLetterFailure)
  .ok { store with
    deadLetters := store.deadLetters ++ [⟨row.id, row.tenantId, row.streamId, row.streamSequence,
      row.consumerEffectId, row.attemptCount, first, last, reason, .open, none⟩] }

/-- `_advance_checkpoint`: the checkpoint moves over the terminal deliveries behind it. -/
def advanceCheckpoint (subscription : DurableSubscription) (streamId : String)
    (settledAt : Datetime) : Store × Option ConsumerCheckpoint :=
  let existing := store.findCheckpoint subscription.tenantId subscription.key streamId
  let frontier := (existing.map ConsumerCheckpoint.highestContiguousTerminalSequence).getD 0
  let rows := ((store.deliveriesOf subscription).filter fun row =>
      row.streamId == streamId && row.original &&
        decide (frontier < row.streamSequence)).insertionSort
    fun a b => a.streamSequence ≤ b.streamSequence
  match (rows.takeWhile (·.state.isTerminal)).getLast? with
  | none => (store, existing)
  | some last =>
    let checkpoint : ConsumerCheckpoint := ⟨subscription.tenantId, subscription.key, streamId,
      last.streamSequence, last.id.eventId, last.state, settledAt⟩
    let checkpoints :=
      if existing.isSome then
        KeyedList.replace (fun row : ConsumerCheckpoint =>
          placeOf row.tenantId row.subscription row.streamId) store.checkpoints checkpoint
      else store.checkpoints ++ [checkpoint]
    ({ store with checkpoints := checkpoints }, some checkpoint)

def recordInbox (delivery : Delivery) (entry : InboxEntry) : Except StoreError (Store × Bool) := do
  require (entry.eventId = delivery.id.eventId ∧
      some entry.consumerEffectId = delivery.consumerEffectId ∧
      entry.deliveryId.all (· = delivery.id))
    (.consumerIdempotency "inbox entry does not match the claimed delivery effect identity")
  match find? (fun row : InboxRow => (row.eventId, row.consumerEffectId)) store.inbox
      (entry.eventId, entry.consumerEffectId) with
  | some current =>
    require (current.resultChecksum = entry.resultChecksum)
      (.consumerIdempotency "inbox identity was already completed with a different result")
    .ok (store, false)
  | none =>
    let deliveryId := entry.deliveryId.getD delivery.id
    require (store.inbox.all (·.deliveryId ≠ deliveryId)) (.integrity "uq_event_inbox_delivery")
    .ok ({ store with inbox := store.inbox ++ [⟨entry.eventId, entry.consumerEffectId,
      delivery.tenantId, entry.completedAt, deliveryId, entry.resultChecksum⟩] }, true)

end

/-! ## `register_subscription` -/

/-- The events of a stream from one sequence to another, in their order. -/
def eventsBetween (store : Store) (tenantId : Option String) (streamId : String)
    (first last : ℕ) : List StoredEvent :=
  (store.events.filter fun event =>
      event.tenantId == tenantId && event.streamId == streamId &&
        decide (first ≤ event.streamSequence) && decide (event.streamSequence ≤ last)).insertionSort
    fun a b => a.streamSequence ≤ b.streamSequence

/-- One event of a stream that exists already. -/
def backfillEvent (subscription : DurableSubscription) (now : Datetime) (progress : Store × ℕ)
    (event : StoredEvent) : Except StoreError (Store × ℕ) :=
  let (store, backfilled) := progress
  if eventMatches event subscription then do
    require (backfilled < subscription.limits.pendingHardLimit)
      (.capacity "subscription backfill exceeds its durable pending hard limit")
    let (store, inserted) := store.insertDelivery subscription event now 1
    .ok (store, backfilled + inserted)
  else .ok (store, backfilled)

/-- One stream that exists already. -/
def backfillStream (subscription : DurableSubscription) (createdAt now : Datetime)
    (progress : Store × ℕ) (stream : StreamRow) : Except StoreError (Store × ℕ) := do
  let (store, backfilled) := progress
  let startSequence := subscriptionStartSequence subscription.start stream.lastSequence
  require (startSequence ≤ stream.lastSequence + 1) (.subscriptionPosition subscription.key
    stream.streamId startSequence (stream.lastSequence + 1))
  let store ← store.insertState subscription stream.streamId startSequence stream.lastSequence
    createdAt
  if startSequence ≤ stream.lastSequence then
    (store.eventsBetween subscription.tenantId stream.streamId startSequence
      stream.lastSequence).foldlM (backfillEvent subscription now) (store, backfilled)
  else .ok (store, backfilled)

/-- An INTEGER column holds 64 bits. -/
def fitsInteger (n : ℕ) : Prop := n < 2 ^ 63

instance (n : ℕ) : Decidable (fitsInteger n) := inferInstanceAs (Decidable (_ < _))

def registerSubscription (store : Store) (subscription : DurableSubscription) (now : Datetime) :
    Except StoreError (Store × DurableSubscription) :=
  match store.selectSubscription subscription.key with
  | some existing => do
    require (existing.toSubscriptionDefinition = subscription.toSubscriptionDefinition)
      (.valueError "subscription version already exists with a different definition")
    .ok (store, existing)
  | none => do
    require (subscription.status ≠ .retired)
      (.valueError "subscription cannot be initially RETIRED")
    let createdAt := subscription.createdAt.getD now
    let updatedAt := subscription.updatedAt.getD createdAt
    require (createdAt ≤ updatedAt) (.valueError "updated_at cannot precede created_at")
    let persisted :=
      { subscription with createdAt := some createdAt, updatedAt := some updatedAt }
    require (fitsInteger subscription.key.subscriptionVersion ∧
      fitsInteger subscription.limits.pendingHardLimit) .overflow
    require (TextLe createdAt updatedAt) (.timestampCheck .subscriptionUpdated)
    let streams := (store.streams.filter (·.tenantId == persisted.tenantId)).insertionSort
      fun a b => a.streamId ≤ b.streamId
    let (store, _) ← streams.foldlM (backfillStream persisted createdAt now)
      ({ store with subscriptions := store.subscriptions ++ [persisted] }, 0)
    .ok (store, persisted)

/-! ## `set_subscription_status` -/

/-- The stream states of a subscription that is being retired. -/
def retireStates (store : Store) (key : SubscriptionKey) (changedAt : Datetime) :
    Except StoreError Store := do
  let states ← store.states.mapM fun state =>
    if state.subscription = key then do
      let watermark := (store.findStream state.tenantId state.streamId).map StreamRow.lastSequence
      require (watermark.all (state.registrationWatermark ≤ ·))
        (.integrity "retirement_watermark >= registration_watermark")
      require (TextLe state.createdAt changedAt) (.timestampCheck .stateUpdated)
      .ok { state with retirementWatermark := watermark, updatedAt := changedAt }
    else .ok state
  .ok { store with states := states }

def setSubscriptionStatus (store : Store) (key : SubscriptionKey) (status : SubscriptionStatus)
    (changedAt : Datetime) (reason : String) : Except StoreError (Store × DurableSubscription) := do
  require (PyText.strip reason ≠ "") (.valueError "subscription status reason is required")
  let current ← orRaise (store.selectSubscription key) (.unknownSubscription key)
  require (current.updatedAt.all (· ≤ changedAt))
    (.valueError "changed_at cannot precede subscription updated_at")
  require (current.status = .retired → status = .retired)
    (.valueError "retired subscription cannot be reactivated")
  let store ←
    if status = .retired ∧ current.status ≠ .retired then store.retireStates key changedAt
    else .ok store
  let updated := { current with status := status, updatedAt := some changedAt }
  require (current.createdAt.all (TextLe · changedAt)) (.timestampCheck .subscriptionUpdated)
  .ok ({ store with
    subscriptions := KeyedList.replace (fun row : DurableSubscription => row.key)
      store.subscriptions updated }, updated)

/-! ## `append_event` -/

structure AppendResult where
  event : StoredEvent
  created : Bool
  pendingDeliveryCount : ℕ

/-- The stream state of a subscription for an event, made at the first event that it starts at. -/
def stateFor (store : Store) (subscription : DurableSubscription) (event : StoredEvent)
    (now : Datetime) : Except StoreError (Store × Option SubscriptionStreamState) :=
  match store.findState subscription.tenantId subscription.key event.streamId with
  | some state => .ok (store, some state)
  | none => do
    let startSequence := subscriptionStartSequence subscription.start (event.streamSequence - 1)
    if event.streamSequence < startSequence then .ok (store, none)
    else do
      let store ← store.insertState subscription event.streamId startSequence
        (event.streamSequence - 1) now
      .ok (store, store.findState subscription.tenantId subscription.key event.streamId)

/-- The delivery of an event to one subscription. -/
def materialize (event : StoredEvent) (now : Datetime) (progress : Store × ℕ)
    (subscription : DurableSubscription) : Except StoreError (Store × ℕ) := do
  let (store, pending) := progress
  let (store, state) ← store.stateFor subscription event now
  match state with
  | none => .ok (store, pending)
  | some state =>
    if event.streamSequence < state.startSequence then .ok (store, pending)
    else if state.retirementWatermark.any (· < event.streamSequence) then .ok (store, pending)
    else if !eventMatches event subscription then .ok (store, pending)
    else do
      require (!store.pendingCapacityExhausted subscription)
        (.capacity "subscription pending delivery hard limit is exhausted")
      let (store, inserted) := store.insertDelivery subscription event now 1
      .ok (store, pending + inserted)

/-- `ORDER BY subscription_id, subscription_version` -/
def subscriptionLe (a b : DurableSubscription) : Prop :=
  a.key.subscriptionId < b.key.subscriptionId ∨ a.key.subscriptionId = b.key.subscriptionId ∧
    a.key.subscriptionVersion ≤ b.key.subscriptionVersion

instance : DecidableRel subscriptionLe := fun _ _ => inferInstanceAs (Decidable (_ ∨ _))

/-- The stream of a candidate, with a row of its own made when there is none. -/
def openStream (store : Store) (event : EventCandidate) (now : Datetime) : Store × StreamRow :=
  match store.findStream event.tenantId event.streamId with
  | some stream => (store, stream)
  | none =>
    let stream : StreamRow := ⟨event.tenantId, event.streamId, 0, now, now⟩
    ({ store with streams := store.streams ++ [stream] }, stream)

def appendEvent (store : Store) (event : EventCandidate) (expectedLastSequence : Option ℕ)
    (now : Datetime) : Except StoreError (Store × AppendResult) :=
  match store.findEvent event.eventId with
  | some stored => do
    require (stored.contentChecksum = event.contentChecksum) (.identityCollision event.eventId)
    .ok (store, ⟨stored, false, 0⟩)
  | none => do
    let (store, stream) := store.openStream event now
    require (expectedLastSequence.all (· = stream.lastSequence)) (.streamVersionConflict
      event.streamId (expectedLastSequence.getD 0) stream.lastSequence)
    require (TextLe stream.createdAt now) (.timestampCheck .streamUpdated)
    let sequence := stream.lastSequence + 1
    let stored : StoredEvent := ⟨event, now, sequence⟩
    let store := { store with
      streams := KeyedList.replace (fun row : StreamRow => (row.tenantId, row.streamId))
        store.streams { stream with lastSequence := sequence, updatedAt := now }
      events := store.events ++ [stored] }
    let subscriptions := (store.subscriptions.filter fun subscription =>
        subscription.tenantId == event.tenantId && subscription.status != .retired).insertionSort
      subscriptionLe
    let (store, pending) ← subscriptions.foldlM (materialize stored now) (store, 0)
    .ok (store, ⟨stored, true, pending⟩)

/-! ## `claim_deliveries` -/

/-- The row that the recovery of an expired claim writes. -/
def expiredRow (current : Delivery) (state : DeliveryState) (availableAt : Option Datetime)
    (now : Datetime) : Delivery :=
  { current with
    state := state
    availableAt := availableAt
    lease := none
    firstFailureAt := some (current.firstFailureAt.getD now)
    lastFailureAt := some now
    reasonClass := some "lease_expired"
    updatedAt := now }

/-- One claim whose lease has expired: its retry is due now, or its attempts are used up. -/
def recoverClaim (subscription : DurableSubscription) (now : Datetime) (store : Store)
    (row : Delivery) : Except StoreError Store := do
  let delivery ← row.fromRow
  if delivery.attemptCount < subscription.retryPolicy.maxAttempts then do
    let (store, _) ← store.updateDelivery delivery.id (·.state == .claimed) fun current =>
      expiredRow current .retryWait (some now) now
    .ok store
  else do
    let (store, updated) ← store.updateDelivery delivery.id (·.state == .claimed) fun current =>
      expiredRow current .deadLetter none now
    let updated ← orRaise updated
      (.corruption "expired delivery disappeared during terminal recovery")
    let settled ← updated.fromRow
    let store ← store.insertDeadLetter settled
    if settled.original then .ok (store.advanceCheckpoint subscription settled.streamId now).1
    else .ok store

/-- `_recover_expired_sqlite_claims` -/
def recoverExpiredClaims (store : Store) (subscription : DurableSubscription) (now : Datetime) :
    Except StoreError Store :=
  let expired := ((store.claimedOf subscription).filter (·.leaseExpired now)).insertionSort
    Delivery.Le
  expired.foldlM (recoverClaim subscription now) store

/-- No earlier delivery of the stream is still under way. -/
def noneEarlier (store : Store) (subscription : DurableSubscription) (row : Delivery) : Bool :=
  (store.deliveriesOf subscription).all fun earlier =>
    !(earlier.streamId == row.streamId && earlier.original &&
      decide (earlier.streamSequence < row.streamSequence) && earlier.nonterminal)

/-- The sequence is at or before the retirement watermark of its stream. -/
def withinRetirement (store : Store) (subscription : DurableSubscription) (row : Delivery) : Bool :=
  (store.findState subscription.tenantId subscription.key row.streamId).any fun state =>
    state.retirementWatermark.any (row.streamSequence ≤ ·)

/-- The rows that a claim takes, in order. -/
def claimableRows (store : Store) (subscription : DurableSubscription)
    (request : DeliveryClaimRequest) (now : Datetime) : List Delivery :=
  ((store.deliveriesOf subscription).filter fun row =>
      (store.findState row.tenantId row.id.subscription row.streamId).isSome &&
      row.claimable now &&
      request.streamId.all (row.streamId == ·) &&
      (subscription.status != .retired || store.withinRetirement subscription row) &&
      (!row.original || store.noneEarlier subscription row)).insertionSort Delivery.Le

/-- The row that a claim writes. -/
def claimedRow (current : Delivery) (attemptCount : ℕ) (lease : Lease) (now : Datetime) : Delivery :=
  { current with
    state := .claimed
    attemptCount := attemptCount
    availableAt := none
    lease := some lease
    updatedAt := now }

/-- One row that is claimed. -/
def claimRow (request : DeliveryClaimRequest) (now : Datetime)
    (progress : Store × List ClaimedDelivery) (row : Delivery) :
    Except StoreError (Store × List ClaimedDelivery) := do
  let (store, claimed) := progress
  let attemptCount := row.attemptCount + 1
  let leaseGeneration := max ((row.lease.map Lease.generation).getD 0 + 1) attemptCount
  let expiresAt ← (now.addMicros request.lease.durationMicros).mapError fun _ => .overflow
  let lease : Lease := ⟨request.leaseOwner, leaseGeneration, expiresAt⟩
  let (store, updated) ← store.updateDelivery row.id (·.claimable now) fun current =>
    claimedRow current attemptCount lease now
  match updated with
  | none => .ok (store, claimed)
  | some updated => do
    let delivery ← updated.fromRow
    let event ← orRaise (store.findEvent delivery.id.eventId)
      (.corruption "delivery references a missing event")
    .ok (store, claimed ++ [⟨delivery, event, ⟨delivery.id, lease, some now⟩⟩])

def claimDeliveries (store : Store) (request : DeliveryClaimRequest) (now : Datetime) :
    Except StoreError (Store × List ClaimedDelivery) := do
  let subscription ← orRaise (store.selectSubscription request.subscription)
    (.unknownSubscription request.subscription)
  if subscription.status = .paused then .ok (store, [])
  else do
    let store ← store.recoverExpiredClaims subscription now
    let active := (store.claimedOf subscription).filter (!·.leaseExpired now)
    let owners := (active.filterMap (·.lease)).map Lease.owner
    if request.leaseOwner ∉ owners ∧
        subscription.limits.maxConcurrency ≤ owners.toFinset.card then .ok (store, [])
    else do
      let capacity := subscription.limits.maxInFlight - active.length
      let limit := min (min request.limit subscription.limits.batchSize) capacity
      if limit = 0 then .ok (store, [])
      else do
        let rows := (store.claimableRows subscription request now).take limit
        rows.foldlM (claimRow request now) (store, [])

/-! ## `renew_delivery_lease` -/

def renewDeliveryLease (store : Store) (token : DeliveryLeaseToken) (lease : LeasePolicy)
    (now : Datetime) : Except StoreError (Store × DeliveryLeaseToken) := do
  let expiresAt ← (now.addMicros lease.durationMicros).mapError fun _ => .overflow
  let renewed : Lease := { token.lease with expiresAt := expiresAt }
  let (store, updated) ← store.updateDelivery token.deliveryId (·.leaseMatches token now)
    fun current => { current with lease := some renewed, updatedAt := now }
  require updated.isSome (.staleLease "delivery lease is stale or expired")
  .ok (store, { token with lease := renewed, leaseStartedAt := some now })

/-! ## `settle_delivery` -/

structure DeliverySettlementResult where
  delivery : Delivery
  checkpoint : Option ConsumerCheckpoint
  deadLetterId : Option DeliveryId
  inboxRecorded : Bool

/-- The state that a settlement leads to: a retry beyond the last attempt is a dead letter. -/
def settlementState (subscription : DurableSubscription) (delivery : Delivery)
    (target : SettlementTarget) : DeliveryState :=
  if target.state = .retryWait ∧ !subscription.retryPolicy.canRetry delivery.attemptCount then
    .deadLetter
  else target.state

/-- The time that a failure is recorded at. -/
def failureOccurrence (delivery : Delivery) (settledAt now : Datetime) : Datetime :=
  max delivery.updatedAt (min settledAt now)

/-- The row that a settlement writes. -/
def settledRow (delivery : Delivery) (state : DeliveryState) (settlement : DeliverySettlement)
    (now : Datetime) : Delivery :=
  let failed := state = .retryWait ∨ state = .deadLetter
  let occurrence := failureOccurrence delivery settlement.settledAt now
  { delivery with
    state := state
    availableAt := if state = .retryWait then settlement.target.retryAvailableAt else none
    lease := none
    firstFailureAt :=
      if failed then some (delivery.firstFailureAt.getD occurrence) else delivery.firstFailureAt
    lastFailureAt :=
      if failed then some ((delivery.lastFailureAt.map (max · occurrence)).getD occurrence)
      else delivery.lastFailureAt
    reasonClass := settlement.target.reasonClass
    updatedAt := max delivery.updatedAt now }

/-- `if settlement.inbox_entry is not None: inbox_recorded = _record_inbox(...)` -/
def noteInbox (store : Store) (delivery : Delivery) (entry : Option InboxEntry) :
    Except StoreError (Store × Bool) :=
  match entry with
  | none => .ok (store, false)
  | some entry => store.recordInbox delivery entry

/-- `if target is DeliveryState.DEAD_LETTER: INSERT INTO event_dead_letters` -/
def noteDeadLetter (store : Store) (row : Delivery) : Except StoreError Store :=
  if row.state = .deadLetter then store.insertDeadLetter row else .ok store

/-- `if target.is_terminal and delivery.delivery_generation == 1: _advance_checkpoint(...)` -/
def noteCheckpoint (store : Store) (subscription : DurableSubscription) (row : Delivery)
    (settledAt : Datetime) : Store × Option ConsumerCheckpoint :=
  if row.state.isTerminal && row.original then
    store.advanceCheckpoint subscription row.streamId settledAt
  else (store, none)

def settleDelivery (store : Store) (settlement : DeliverySettlement) (now : Datetime) :
    Except StoreError (Store × DeliverySettlementResult) := do
  let token := settlement.lease
  let row ← orRaise ((store.findDelivery token.deliveryId).filter (·.leaseMatches token now))
    (.staleLease "delivery lease is stale or expired")
  let delivery ← row.fromRow
  let subscription ← orRaise (store.selectSubscription delivery.id.subscription)
    (.corruption "delivery references a missing subscription")
  require (¬ (settlement.target.state = .acked ∧
      subscription.effect.idempotencyStrategy = some .inboxTransaction ∧
      settlement.target.inboxEntry = none))
    (.consumerIdempotency "INBOX_TRANSACTION acknowledgement requires an inbox entry")
  let state := settlementState subscription delivery settlement.target
  let (store, inboxRecorded) ← store.noteInbox delivery settlement.target.inboxEntry
  let (store, updated) ← store.updateDelivery token.deliveryId
    (fun current => current.state == .claimed && current.lease == some token.lease)
    fun _ => settledRow delivery state settlement now
  let updated ← orRaise updated (.staleLease "delivery lease changed during settlement")
  let store ← store.noteDeadLetter updated
  let (store, checkpoint) := store.noteCheckpoint subscription updated (max delivery.updatedAt now)
  let delivery ← updated.fromRow
  .ok (store, ⟨delivery, checkpoint, if state = .deadLetter then some delivery.id else none,
    inboxRecorded⟩)

/-! ## Dead letters -/

/-- A dead letter under the disposition of an operator. -/
def disposeDeadLetter (store : Store) (record : DeadLetterRecord)
    (disposition : DeadLetterDisposition) (audit : OperatorAudit) : Store :=
  { store with
    deadLetters := KeyedList.replace DeadLetterRecord.deliveryId store.deadLetters
      { record with disposition := disposition, operator := some audit } }

def requeueDeadLetter (store : Store) (action : DeadLetterAction) (now : Datetime) :
    Except StoreError (Store × Delivery) := do
  require action.idempotencyReady
    (.consumerIdempotency "dead-letter requeue requires an idempotency-ready consumer")
  let record ← orRaise (store.findDeadLetter action.deadLetterId)
    (.unknownDeadLetter action.deadLetterId)
  require (record.firstFailureAt ≤ record.lastFailureAt)
    (.corruption "stored dead letter cannot be decoded")
  require (record.disposition = .open) (.valueError "dead letter is no longer open")
  let subscription ← orRaise (store.selectSubscription record.deliveryId.subscription)
    (.corruption "dead letter references a missing subscription")
  require (subscription.status ≠ .retired)
    (.retirementCancellation "retired subscription cannot accept dead-letter requeue")
  require subscription.supportsOutOfOrderRepair
    (.consumerIdempotency "subscription does not support idempotent out-of-order repair")
  require (store.findEvent record.deliveryId.eventId).isSome
    (.corruption "dead letter references a missing event")
  require (!store.pendingCapacityExhausted subscription)
    (.capacity "subscription durable pending hard limit is exhausted")
  let nextGeneration := store.nextGeneration record.deliveryId.eventId record.deliveryId.subscription
  let id : DeliveryId :=
    { record.deliveryId with deliveryGeneration := nextGeneration }
  require (store.findDelivery id).isNone (.integrity "event_deliveries.delivery_id")
  let row := newDelivery id record.tenantId record.streamId record.streamSequence
    record.consumerEffectId now
  let updatedAt := max (max now action.requestedAt) ((record.operator.map (·.updatedAt)).getD now)
  let store := { store with deliveries := store.deliveries ++ [row] }
  .ok (store.disposeDeadLetter record .requeued ⟨action.operatorId, action.reason, updatedAt⟩, row)

def resolveDeadLetter (store : Store) (action : DeadLetterAction) :
    Except StoreError (Store × DeadLetterRecord) := do
  let record ← orRaise (store.findDeadLetter action.deadLetterId)
    (.unknownDeadLetter action.deadLetterId)
  require (record.disposition = .open) (.valueError "dead letter is no longer open")
  require (record.firstFailureAt ≤ record.lastFailureAt)
    (.corruption "stored dead letter cannot be decoded")
  let audit : OperatorAudit := ⟨action.operatorId, action.reason, action.requestedAt⟩
  .ok (store.disposeDeadLetter record .resolved audit,
    { record with disposition := .resolved, operator := some audit })

/-! ## `begin_redelivery` -/

def maxRedeliveryItems : ℕ := 1000

/-- The original deliveries of the range, with their events, in order. -/
def redeliveryEvents (store : Store) (subscription : DurableSubscription)
    (request : RedeliveryRequest) (throughSequence : ℕ) : List StoredEvent :=
  let rows := ((store.deliveriesOf subscription).filter fun row =>
      row.original && row.streamId == request.sourceStreamId &&
        decide (request.fromSequence ≤ row.streamSequence) &&
        decide (row.streamSequence ≤ throughSequence)).insertionSort
    fun a b => a.streamSequence < b.streamSequence ∨
      a.streamSequence = b.streamSequence ∧ a.id.eventId ≤ b.id.eventId
  (rows.filterMap fun row =>
    (store.findEvent row.id.eventId).filter fun event =>
      event.tenantId == row.tenantId && event.streamId == row.streamId &&
        event.streamSequence == row.streamSequence).take (maxRedeliveryItems + 1)

/-- One event of a redelivery, under the next generation. -/
def redeliverEvent (subscription : DurableSubscription) (scheduledAt : Datetime)
    (progress : Store × List RedeliveryItem) (event : StoredEvent) :
    Except StoreError (Store × List RedeliveryItem) := do
  let (store, items) := progress
  let nextGeneration := store.nextGeneration event.eventId subscription.key
  require (2 ≤ nextGeneration)
    (.corruption "redelivery target has no original delivery generation")
  let (store, inserted) := store.insertDelivery subscription event scheduledAt nextGeneration
  require (inserted = 1) (.corruption "redelivery delivery generation was not inserted")
  .ok (store, items ++ [⟨⟨event.eventId, subscription.key, nextGeneration⟩, event.streamSequence,
    scheduledAt⟩])

def beginRedelivery (store : Store) (request : RedeliveryRequest) (now : Datetime) :
    Except StoreError (Store × RedeliveryReport) :=
  match find? (fun report : RedeliveryReport =>
      (report.request.tenantId, report.request.redeliveryId)) store.redeliveries
      (request.tenantId, request.redeliveryId) with
  | some existing => do
    -- `_redelivery_request_identity` takes every field of the request
    require (existing.request = request)
      (.eventStore "redelivery identity already has a different request")
    .ok (store, existing)
  | none => do
    let subscription ← orRaise ((store.selectSubscription request.subscription).filter
        (·.tenantId == request.tenantId))
      (.eventStore "redelivery subscription is unavailable in tenant scope")
    require (subscription.status ≠ .retired)
      (.eventStore "retired subscription cannot accept redelivery work")
    require subscription.supportsOutOfOrderRepair
      (.consumerIdempotency "subscription does not support idempotent out-of-order repair")
    let captured := store.streamWatermark request.tenantId request.sourceStreamId
    require (captured ≠ 0) (.eventStore "redelivery source stream does not exist")
    let throughSequence := request.throughSequence.getD captured
    require (request.fromSequence ≤ captured)
      (.eventStore "redelivery range starts above the captured watermark")
    require (throughSequence ≤ captured)
      (.eventStore "redelivery range exceeds the captured watermark")
    require (throughSequence - request.fromSequence + 1 ≤ maxRedeliveryItems)
      (.capacity "redelivery range exceeds the bounded stream-position limit")
    require ((store.deliveriesOf subscription).all fun row =>
        !(row.streamId == request.sourceStreamId &&
          decide (request.fromSequence ≤ row.streamSequence) &&
          decide (row.streamSequence ≤ throughSequence) && row.nonterminal))
      (.eventStore "redelivery target contains nonterminal delivery work")
    let events := store.redeliveryEvents subscription request throughSequence
    require (events ≠ [])
      (.eventStore "redelivery range contains no existing event-consumer pair")
    require (events.length ≤ maxRedeliveryItems)
      (.capacity "redelivery selection exceeds the 1000-item limit")
    require ((store.nonterminalOf subscription).length + events.length ≤
        subscription.limits.pendingHardLimit)
      (.capacity "redelivery exceeds the subscription durable pending hard limit")
    let scheduledAt := max now request.requestedAt
    require (TextLe request.requestedAt scheduledAt) (.timestampCheck .redeliveryScheduled)
    let (store, items) ← events.foldlM (redeliverEvent subscription scheduledAt) (store, [])
    let report : RedeliveryReport :=
      ⟨request, throughSequence, captured, scheduledAt, items⟩
    .ok ({ store with redeliveries := store.redeliveries ++ [report] }, report)

/-! ## `cancel_retired_subscription` -/

/-- `_retirement_cancellation_identity` -/
abbrev cancellationIdentity (request : RetirementCancellationRequest) :=
  (request.cancellationId, request.subscription, request.operatorId, request.operatorReason,
    request.tenantId, request.limit)

/-- The row that a cancellation writes. -/
def cancelledRow (current : Delivery) (cancelledAt : Datetime) : Delivery :=
  { current with
    state := .dropped
    attemptCount := if current.attemptCount < 1 then 1 else current.attemptCount
    availableAt := none
    lease := none
    reasonClass := some "subscription_retired"
    updatedAt := cancelledAt }

/-- One delivery that is cancelled. -/
def cancelRow (cancelledAt : Datetime)
    (progress : Store × List RetirementCancellationItem) (row : Delivery) :
    Except StoreError (Store × List RetirementCancellationItem) := do
  let (store, items) := progress
  let previous ← row.fromRow
  let (store, updated) ← store.updateDelivery previous.id (·.state == previous.state) fun current =>
    cancelledRow current cancelledAt
  require updated.isSome
    (.retirementCancellation "retirement cancellation delivery changed concurrently")
  .ok (store, items ++ [⟨previous.id, previous.state, previous.attemptCount, previous.reasonClass⟩])

/-- The streams whose original deliveries were cancelled, sorted. -/
def affectedStreams (rows : List Delivery) : List String :=
  ((rows.filter Delivery.original).map Delivery.streamId).dedup.insertionSort (· ≤ ·)

def cancelRetiredSubscription (store : Store) (request : RetirementCancellationRequest)
    (now : Datetime) : Except StoreError (Store × RetirementCancellationReport) :=
  match find? (fun report : RetirementCancellationReport =>
      (report.request.tenantId, report.request.cancellationId)) store.cancellations
      (request.tenantId, request.cancellationId) with
  | some existing => do
    require (cancellationIdentity existing.request = cancellationIdentity request)
      .retirementCancellationCollision
    .ok (store, existing)
  | none => do
    let subscription ← orRaise ((store.selectSubscription request.subscription).filter
        (·.tenantId == request.tenantId))
      (.retirementCancellation "retirement cancellation subscription is not available in scope")
    require (subscription.status = .retired)
      (.retirementCancellation "retirement cancellation requires a retired subscription")
    require ((store.nonterminalOf subscription).all (store.withinRetirement subscription))
      (.corruption "retired subscription has work outside its retirement watermark")
    let rows := (((store.nonterminalOf subscription).filter
      (store.withinRetirement subscription)).insertionSort Delivery.Le).take request.limit
    let cancelledAt := (rows.map Delivery.updatedAt).foldl max
      (max (max now request.requestedAt) (subscription.updatedAt.getD now))
    require (TextLe request.requestedAt cancelledAt) (.timestampCheck .cancellationCancelled)
    let (store, items) ← rows.foldlM (cancelRow cancelledAt) (store, [])
    let store := (affectedStreams rows).foldl
      (fun store streamId => (store.advanceCheckpoint subscription streamId cancelledAt).1) store
    let remaining := min (store.nonterminalOf subscription).length (request.limit + 1)
    let report : RetirementCancellationReport :=
      ⟨request, cancelledAt, items, remaining, decide (request.limit < remaining)⟩
    .ok ({ store with cancellations := store.cancellations ++ [report] }, report)

end Store

end EventStore
