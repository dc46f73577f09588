/-
# Calls of the event store, and what they do to the deliveries

One write transaction after another: a call either commits or, when it raises, leaves
the tables as they were.  `Advances` says once what claims, renewals, settlements and
cancellations may do to the rows of deliveries: a row keeps its place, a terminal row
is never touched, and a claim starts a new attempt.
-/
import AgoraHub.EventStore
import AgoraHub.RelatedLists
import AgoraHub.StepRuns

namespace EventStore

open Fallible Datetime List KeyedList RelatedLists

/-! ## Calls -/

/-- An operation of the store, with what its caller sends. -/
inductive Call where
  | appendEvent (event : EventCandidate) (expectedLastSequence : Option ℕ)
  | registerSubscription (subscription : DurableSubscription)
  | setSubscriptionStatus (key : SubscriptionKey) (status : SubscriptionStatus)
      (changedAt : Datetime) (reason : String)
  | claimDeliveries (request : DeliveryClaimRequest)
  | renewDeliveryLease (token : DeliveryLeaseToken) (lease : LeasePolicy)
  | settleDelivery (settlement : DeliverySettlement)
  | requeueDeadLetter (action : DeadLetterAction)
  | resolveDeadLetter (action : DeadLetterAction)
  | beginRedelivery (request : RedeliveryRequest)
  | cancelRetiredSubscription (request : RetirementCancellationRequest)

/-- A call, with the reading of the store's clock that its transaction takes. -/
structure TimedCall where
  call : Call
  now : Datetime

namespace Store

/-- The tables that a call commits, or what it raises. -/
def commit (store : Store) (timed : TimedCall) : Except StoreError Store :=
  match timed.call with
  | .appendEvent event expected => (store.appendEvent event expected timed.now).map Prod.fst
  | .registerSubscription subscription =>
    (store.registerSubscription subscription timed.now).map Prod.fst
  | .setSubscriptionStatus key status changedAt reason =>
    (store.setSubscriptionStatus key status changedAt reason).map Prod.fst
  | .claimDeliveries request => (store.claimDeliveries request timed.now).map Prod.fst
  | .renewDeliveryLease token lease => (store.renewDeliveryLease token lease timed.now).map Prod.fst
  | .settleDelivery settlement => (store.settleDelivery settlement timed.now).map Prod.fst
  | .requeueDeadLetter action => (store.requeueDeadLetter action timed.now).map Prod.fst
  | .resolveDeadLetter action => (store.resolveDeadLetter action).map Prod.fst
  | .beginRedelivery request => (store.beginRedelivery request timed.now).map Prod.fst
  | .cancelRetiredSubscription request =>
    (store.cancelRetiredSubscription request timed.now).map Prod.fst

/-- The tables after a call: one that raises is rolled back. -/
def step (store : Store) (timed : TimedCall) : Store :=
  match store.commit timed with
  | .ok store' => store'
  | .error _ => store

/-- What every committed call keeps holds after every run. -/
theorem run_invariant {Inv : Store → Prop} {store : Store} (calls : List TimedCall)
    (start : Inv store)
    (keep : ∀ store timed store', Inv store → store.commit timed = .ok store' → Inv store') :
    Inv (StepRuns.run step store calls) := by
  apply StepRuns.run_invariant (C := fun _ _ => True) _ start
  · induction calls generalizing store with
    | nil => trivial
    | cons timed calls ih =>
      refine ⟨trivial, ih ?_⟩
      unfold step
      cases h : store.commit timed with
      | error e => exact start
      | ok store' => exact keep store timed store' start h
  · intro store timed hinv _
    unfold step
    cases h : store.commit timed with
    | error e => exact hinv
    | ok store' => exact keep store timed store' hinv h

end Store

/-! ## Calls to try the definitions on -/

/-- A moment some seconds after `datetime.min`. -/
def moment (seconds : ℕ) (microseconds : ℕ := 0) : Datetime :=
  Fin.ofNat datetimeRange (seconds * 1000000 + microseconds)

def sampleKey : SubscriptionKey := ⟨"subscription", 1⟩

def sampleSubscription : DurableSubscription :=
  { key := sampleKey, consumerId := "consumer", supportsOutOfOrderRepair := true }

def sampleEvent (eventId : String) : EventCandidate :=
  ⟨eventId, "type", "schema", "stream", "checksum", none⟩

def sampleClaim (leaseOwner : String) : DeliveryClaimRequest :=
  { subscription := sampleKey, leaseOwner := leaseOwner }

/-- The token of the first lease of an event, claimed at a second for half a minute. -/
def sampleToken (eventId leaseOwner : String) (claimedAt : ℕ) : DeliveryLeaseToken :=
  ⟨⟨eventId, sampleKey, 1⟩, ⟨leaseOwner, 1, moment (claimedAt + 30)⟩, some (moment claimedAt)⟩

def sampleDeadLetter (eventId leaseOwner : String) (claimedAt settledAt : ℕ) : DeliverySettlement :=
  ⟨sampleToken eventId leaseOwner claimedAt, .deadLetter "permanent", moment settledAt, by simp⟩

def sampleRequeue (eventId : String) (requestedAt : ℕ) : DeadLetterAction :=
  ⟨⟨eventId, sampleKey, 1⟩, "operator", "repair", moment requestedAt, true⟩

def sampleRedelivery (requestedAt : Datetime) : RedeliveryRequest :=
  { redeliveryId := "redelivery"
    subscription := sampleKey
    sourceStreamId := "stream"
    fromSequence := 1
    requestedAt := requestedAt
    operatorId := "operator"
    operatorReason := "repair"
    authorizationEvidenceRef := "evidence" }

/-- An event whose only delivery is a dead letter. -/
def sampleDead : List TimedCall :=
  [⟨.registerSubscription sampleSubscription, moment 1⟩,
    ⟨.appendEvent (sampleEvent "event") none, moment 2⟩,
    ⟨.claimDeliveries (sampleClaim "worker"), moment 3⟩,
    ⟨.settleDelivery (sampleDeadLetter "event" "worker" 3 4), moment 4⟩]

/-- The tables that an operation commits, beside what it returns. -/
theorem map_fst_eq_ok {ε : Type} {α β : Type} {x : Except ε (α × β)} {a : α} :
    x.map Prod.fst = .ok a ↔ ∃ b, x = .ok (a, b) := by
  cases x with
  | error e => simp [Except.map]
  | ok p =>
    constructor
    · intro h
      obtain rfl : p.1 = a := ok_inj h
      exact ⟨p.2, rfl⟩
    · rintro ⟨b, h⟩
      rw [ok_inj h]
      rfl

/-! ## What may happen to a row -/

/-- What claims, renewals, settlements and cancellations do to a row. -/
structure Delivery.Advances (row row' : Delivery) : Prop where
  id : row'.id = row.id
  tenantId : row'.tenantId = row.tenantId
  streamId : row'.streamId = row.streamId
  streamSequence : row'.streamSequence = row.streamSequence
  createdAt : row'.createdAt = row.createdAt
  /-- A terminal row is never touched. -/
  terminal : row.state.isTerminal → row' = row
  attempts : row.attemptCount ≤ row'.attemptCount
  /-- A row is claimed by a new attempt only. -/
  claims : row'.state = .claimed →
    (row.state = .claimed ∧ row'.attemptCount = row.attemptCount) ∨
      row.attemptCount < row'.attemptCount

theorem Delivery.Advances.refl (row : Delivery) : row.Advances row :=
  ⟨rfl, rfl, rfl, rfl, rfl, fun _ => rfl, le_rfl, fun h => Or.inl ⟨h, rfl⟩⟩

theorem Delivery.Advances.trans {a b c : Delivery} (hab : a.Advances b) (hbc : b.Advances c) :
    a.Advances c where
  id := hbc.id.trans hab.id
  tenantId := hbc.tenantId.trans hab.tenantId
  streamId := hbc.streamId.trans hab.streamId
  streamSequence := hbc.streamSequence.trans hab.streamSequence
  createdAt := hbc.createdAt.trans hab.createdAt
  terminal := fun h => by
    obtain rfl := hab.terminal h
    exact hbc.terminal h
  attempts := hab.attempts.trans hbc.attempts
  claims := fun h => by
    rcases hbc.claims h with ⟨hb, heq⟩ | hlt
    · rcases hab.claims hb with ⟨ha, heq'⟩ | hlt
      · exact Or.inl ⟨ha, heq.trans heq'⟩
      · exact Or.inr (by omega)
    · exact Or.inr (lt_of_le_of_lt hab.attempts hlt)

/-- A row that is under way is terminal afterwards or still under way. -/
theorem Delivery.Advances.nonterminal {row row' : Delivery} (h : row.Advances row')
    (hrow : row'.nonterminal = true) : row.nonterminal = true := by
  unfold Delivery.nonterminal at *
  by_contra hne
  have hterminal : row.state.isTerminal = true := by simpa using hne
  rw [h.terminal hterminal, hterminal] at hrow
  simp at hrow

/-! ## What may happen to the tables -/

/-- A dead letter carries the place of its delivery. -/
structure DeadLetterRecord.Of (record : DeadLetterRecord) (row : Delivery) : Prop where
  deliveryId : record.deliveryId = row.id
  tenantId : record.tenantId = row.tenantId
  streamId : record.streamId = row.streamId
  streamSequence : record.streamSequence = row.streamSequence

theorem DeadLetterRecord.Of.advances {record : DeadLetterRecord} {row row' : Delivery}
    (h : record.Of row) (hadv : row.Advances row') : record.Of row' :=
  ⟨h.deliveryId.trans hadv.id.symm, h.tenantId.trans hadv.tenantId.symm,
    h.streamId.trans hadv.streamId.symm, h.streamSequence.trans hadv.streamSequence.symm⟩

/-- Every dead letter is of a delivery. -/
def Store.DeadLettersPlaced (store : Store) : Prop :=
  ∀ record ∈ store.deadLetters, ∃ row ∈ store.deliveries, record.Of row

/-- The deliveries advance, and what they are made from stays. -/
structure Advances (store store' : Store) : Prop where
  streams : store'.streams = store.streams
  events : store'.events = store.events
  subscriptions : store'.subscriptions = store.subscriptions
  states : store'.states = store.states
  deliveries : List.Forall₂ Delivery.Advances store.deliveries store'.deliveries
  deadLetters : store.DeadLettersPlaced → store'.DeadLettersPlaced

namespace Advances

theorem refl (store : Store) : Advances store store :=
  ⟨rfl, rfl, rfl, rfl, forall₂_same.mpr fun row _ => Delivery.Advances.refl row, id⟩

theorem trans {a b c : Store} (hab : Advances a b) (hbc : Advances b c) : Advances a c where
  streams := hbc.streams.trans hab.streams
  events := hbc.events.trans hab.events
  subscriptions := hbc.subscriptions.trans hab.subscriptions
  states := hbc.states.trans hab.states
  deliveries := RelatedLists.trans hab.deliveries hbc.deliveries
    fun _ _ _ h h' => Delivery.Advances.trans h h'
  deadLetters := fun h => hbc.deadLetters (hab.deadLetters h)

/-- The same deliveries and dead letters under other tables. -/
theorem of_eq {store store' : Store} (streams : store'.streams = store.streams)
    (events : store'.events = store.events) (subscriptions : store'.subscriptions = store.subscriptions)
    (states : store'.states = store.states) (deliveries : store'.deliveries = store.deliveries)
    (deadLetters : store'.deadLetters = store.deadLetters) : Advances store store' where
  streams := streams
  events := events
  subscriptions := subscriptions
  states := states
  deliveries := by
    rw [deliveries]
    exact forall₂_same.mpr fun row _ => Delivery.Advances.refl row
  deadLetters := by
    unfold Store.DeadLettersPlaced
    rw [deliveries, deadLetters]
    exact id

variable {store store' : Store}

theorem map_id (h : Advances store store') :
    store'.deliveries.map Delivery.id = store.deliveries.map Delivery.id :=
  map_eq (fun _ _ hadv => hadv.id) h.deliveries

theorem of_mem (h : Advances store store') {row' : Delivery} (hrow : row' ∈ store'.deliveries) :
    ∃ row ∈ store.deliveries, row.Advances row' := exists_left h.deliveries hrow

theorem mem (h : Advances store store') {row : Delivery} (hrow : row ∈ store.deliveries) :
    ∃ row' ∈ store'.deliveries, row.Advances row' := exists_right h.deliveries hrow

end Advances

/-! ## One update of a row -/

/-- The ids of the deliveries are distinct. -/
def Store.DistinctIds (store : Store) : Prop := (store.deliveries.map Delivery.id).Nodup

theorem Advances.distinctIds {store store' : Store} (h : Advances store store')
    (hids : store.DistinctIds) : store'.DistinctIds := by
  unfold Store.DistinctIds at *
  rwa [h.map_id]

namespace Store

variable {store : Store}

/-- What an update does: it misses, or it replaces the row of its id. -/
theorem updateDelivery_cases {store' : Store} {id : DeliveryId} {condition : Delivery → Bool}
    {set : Delivery → Delivery} {updated : Option Delivery}
    (h : store.updateDelivery id condition set = .ok (store', updated)) :
    (updated = none ∧ store' = store ∧
        ∀ row, store.findDelivery id = some row → condition row = false) ∨
      ∃ row, store.findDelivery id = some row ∧ condition row = true ∧
        (set row).checkConstraints = .ok () ∧ updated = some (set row) ∧
        store' = store.putDelivery (set row) := by
  unfold updateDelivery at h
  cases hfind : store.findDelivery id with
  | none =>
    simp only [hfind] at h
    cases h
    exact Or.inl ⟨rfl, rfl, by simp⟩
  | some row =>
    simp only [hfind] at h
    by_cases hcond : condition row = true
    · rw [if_pos hcond] at h
      obtain ⟨hcheck, h⟩ := check_inv h
      cases h
      exact Or.inr ⟨row, rfl, hcond, hcheck, rfl, rfl⟩
    · rw [if_neg hcond] at h
      cases h
      refine Or.inl ⟨rfl, rfl, fun found hfound => ?_⟩
      rw [← Option.some.inj hfound]
      simpa using hcond

variable {row : Delivery}

theorem mem_of_findDelivery {id : DeliveryId} (h : store.findDelivery id = some row) :
    row ∈ store.deliveries ∧ row.id = id :=
  mem_of_find? h

theorem findDelivery_of_mem (hids : store.DistinctIds) (hrow : row ∈ store.deliveries) :
    store.findDelivery row.id = some row :=
  find?_of_mem hids hrow

/-- Replacing a row by one that it advances to. -/
theorem putDelivery_advances (hids : store.DistinctIds) {row' : Delivery}
    (hrow : row ∈ store.deliveries) (h : row.Advances row') :
    Advances store (store.putDelivery row') := by
  have hrows : List.Forall₂ Delivery.Advances store.deliveries
      (store.putDelivery row').deliveries :=
    forall₂_replace hids hrow h.id (fun x _ => Delivery.Advances.refl x) h
  refine ⟨rfl, rfl, rfl, rfl, hrows, fun hplaced record hrecord => ?_⟩
  rcases hplaced record hrecord with ⟨old, hold, hof⟩
  rcases exists_right hrows hold with ⟨new, hnew, hadv⟩
  exact ⟨new, hnew, hof.advances hadv⟩

/-- What an insertion of a dead letter does. -/
theorem insertDeadLetter_spec {store' : Store} (h : store.insertDeadLetter row = .ok store') :
    ∃ record : DeadLetterRecord, record.Of row ∧ record.disposition = .open ∧
      store.findDeadLetter row.id = none ∧
      store' = { store with deadLetters := store.deadLetters ++ [record] } := by
  unfold insertDeadLetter at h
  obtain ⟨first, -, h⟩ := bind_inv h
  obtain ⟨last, -, h⟩ := bind_inv h
  obtain ⟨reason, -, h⟩ := bind_inv h
  obtain ⟨hnone, h⟩ := check_inv h
  iterate 2 rcases check_inv h with ⟨-, h⟩
  refine ⟨_, ⟨rfl, rfl, rfl, rfl⟩, rfl, ?_, (ok_inj h).symm⟩
  simpa using of_require hnone

theorem addDeadLetters_advances {records : List DeadLetterRecord}
    (h : ∀ record ∈ records, ∃ row ∈ store.deliveries, record.Of row) :
    Advances store { store with deadLetters := store.deadLetters ++ records } := by
  refine ⟨rfl, rfl, rfl, rfl, forall₂_same.mpr fun row _ => Delivery.Advances.refl row, ?_⟩
  intro hplaced record hrecord
  rcases mem_append.mp hrecord with hold | hnew
  · exact hplaced record hold
  · exact h record hnew

theorem advanceCheckpoint_tables (store : Store) (subscription : DurableSubscription)
    (streamId : String) (settledAt : Datetime) :
    ∃ checkpoints, (store.advanceCheckpoint subscription streamId settledAt).1 =
      { store with checkpoints := checkpoints } := by
  unfold advanceCheckpoint
  dsimp only
  split
  · exact ⟨store.checkpoints, rfl⟩
  · exact ⟨_, rfl⟩

theorem advanceCheckpoint_advances (store : Store) (subscription : DurableSubscription)
    (streamId : String) (settledAt : Datetime) :
    Advances store (store.advanceCheckpoint subscription streamId settledAt).1 := by
  rcases store.advanceCheckpoint_tables subscription streamId settledAt with ⟨checkpoints, h⟩
  rw [h]
  exact Advances.of_eq rfl rfl rfl rfl rfl rfl

end Store

end EventStore
