/-
# Registrations, requeues and redeliveries

The operations that insert deliveries beside an append: the backfill of a registration,
the requeue of a dead letter and the redelivery of a range, each as the rows it adds.
With these every committed call keeps the tables well formed.
-/
import AgoraHub.EventStoreTables

namespace EventStore

open Fallible Datetime List KeyedList

namespace Store

/-! ## The backfill of a registration -/

/-- The stream state that a registration makes. -/
def registeredState (subscription : DurableSubscription) (createdAt : Datetime)
    (stream : StreamRow) : SubscriptionStreamState :=
  ⟨subscription.tenantId, subscription.key, stream.streamId,
    subscriptionStartSequence subscription.start stream.lastSequence, stream.lastSequence, none,
    createdAt, createdAt⟩

/-- The events of a stream that a registration makes deliveries of. -/
def backfillEvents (store : Store) (subscription : DurableSubscription) (stream : StreamRow) :
    List StoredEvent :=
  (store.eventsBetween subscription.tenantId stream.streamId
    (subscriptionStartSequence subscription.start stream.lastSequence)
    stream.lastSequence).filter (eventMatches · subscription)

/-- The deliveries that a registration makes in a stream. -/
def backfillRows (store : Store) (subscription : DurableSubscription) (now : Datetime)
    (stream : StreamRow) : List Delivery :=
  (store.backfillEvents subscription stream).map (rowFor subscription · now 1)

variable {event : StoredEvent}

theorem mem_eventsBetween {store : Store} {tenantId : Option String} {streamId : String}
    {first last : ℕ} :
    event ∈ store.eventsBetween tenantId streamId first last ↔ event ∈ store.events ∧
      event.stream = (tenantId, streamId) ∧ first ≤ event.streamSequence ∧
        event.streamSequence ≤ last := by
  unfold eventsBetween StoredEvent.stream
  rw [(perm_insertionSort _ _).mem_iff, mem_filter]
  simp [and_assoc]

variable {subscription : DurableSubscription}

variable {stream : StreamRow}

theorem mem_backfillEvents {store : Store} :
    event ∈ store.backfillEvents subscription stream ↔ event ∈ store.events ∧
      event.stream = (subscription.tenantId, stream.streamId) ∧
      subscriptionStartSequence subscription.start stream.lastSequence ≤ event.streamSequence ∧
      event.streamSequence ≤ stream.lastSequence ∧ eventMatches event subscription = true := by
  unfold backfillEvents
  rw [mem_filter, mem_eventsBetween]
  simp [and_assoc]

theorem nodup_eventsBetween {store : Store} (h : store.WellFormed) (tenantId : Option String)
    (streamId : String) (first last : ℕ) :
    ((store.eventsBetween tenantId streamId first last).map fun event => event.eventId).Nodup := by
  unfold eventsBetween
  rw [((perm_insertionSort _ _).map _).nodup_iff]
  exact h.eventIds.sublist (filter_sublist.map _)

variable {now : Datetime}

/-- The deliveries that a loop over events makes. -/
theorem backfillEvents_spec {events : List StoredEvent} :
    ∀ {store store' : Store} {count count' : ℕ}, (events.map fun event => event.eventId).Nodup →
      (∀ event ∈ events, store.findDelivery ⟨event.eventId, subscription.key, 1⟩ = none) →
      events.foldlM (backfillEvent subscription now) (store, count) = .ok (store', count') →
        let made := (events.filter (eventMatches · subscription)).map (rowFor subscription · now 1)
        store' = store.addRows [] made ∧ count' = count + made.length ∧
          (count ≤ subscription.limits.pendingHardLimit →
            count' ≤ subscription.limits.pendingHardLimit) := by
  induction events with
  | nil =>
    intro store store' count count' _ _ h
    cases h
    simp [addRows]
  | cons event events ih =>
    intro store store' count count' hnodup hnew h
    rw [map_cons, nodup_cons] at hnodup
    rw [foldlM_cons] at h
    obtain ⟨⟨mid, middle⟩, hfirst, hrest⟩ := bind_inv h
    unfold backfillEvent at hfirst
    dsimp only at hfirst
    have hnewRest : ∀ other ∈ events,
        store.findDelivery ⟨other.eventId, subscription.key, 1⟩ = none := fun other hother =>
      hnew other (mem_cons_of_mem _ hother)
    by_cases hmatch : eventMatches event subscription = true
    · rw [if_pos hmatch] at hfirst
      obtain ⟨hlimit, hfirst⟩ := check_inv hfirst
      have hlimit := of_require hlimit
      rw [insertDelivery_of_none (hnew event mem_cons_self)] at hfirst
      cases hfirst
      have hfresh : ∀ other ∈ events, (store.addRows [] [rowFor subscription event now 1]).findDelivery
          ⟨other.eventId, subscription.key, 1⟩ = none := by
        intro other hother
        refine findDelivery_addRows (fun row hrow heq => ?_) (hnewRest other hother)
        obtain rfl := mem_singleton.mp hrow
        have hid : event.eventId = other.eventId := congrArg DeliveryId.eventId heq
        exact hnodup.1 (hid ▸ mem_map_of_mem (f := fun event : StoredEvent => event.eventId)
          hother)
      obtain ⟨rfl, rfl, hbound⟩ := ih hnodup.2 hfresh hrest
      have hfilter : (event :: events).filter (eventMatches · subscription) =
          event :: events.filter (eventMatches · subscription) := filter_cons_of_pos hmatch
      rw [hfilter, map_cons]
      refine ⟨by rw [addRows_addRows]; rfl, ?_, fun _ => hbound hlimit⟩
      rw [length_cons]
      omega
    · rw [if_neg hmatch] at hfirst
      cases hfirst
      have hfilter : (event :: events).filter (eventMatches · subscription) =
          events.filter (eventMatches · subscription) := filter_cons_of_neg hmatch
      rw [hfilter]
      exact ih hnodup.2 hnewRest hrest

/-- What a registration inserts for one stream. -/
theorem backfillStream_spec {store store' : Store}
    (hids : (store.events.map fun event => event.eventId).Nodup) {createdAt : Datetime}
    {count count' : ℕ}
    (hnew : ∀ event ∈ store.events, event.stream = (subscription.tenantId, stream.streamId) →
      store.findDelivery ⟨event.eventId, subscription.key, 1⟩ = none)
    (h : backfillStream subscription createdAt now (store, count) stream = .ok (store', count')) :
    subscriptionStartSequence subscription.start stream.lastSequence ≤ stream.lastSequence + 1 ∧
      store.findState subscription.tenantId subscription.key stream.streamId = none ∧
      store' = store.addRows [registeredState subscription createdAt stream]
        (store.backfillRows subscription now stream) ∧
      count' = count + (store.backfillRows subscription now stream).length ∧
      (count ≤ subscription.limits.pendingHardLimit →
        count' ≤ subscription.limits.pendingHardLimit) := by
  unfold backfillStream at h
  obtain ⟨hposition, h⟩ := check_inv h
  have hposition := of_require hposition
  obtain ⟨mid, hmid, h⟩ := bind_inv h
  obtain ⟨hnone, hmid⟩ := check_inv hmid
  obtain ⟨-, hmid⟩ := check_inv hmid
  cases hmid
  refine ⟨hposition, by simpa using of_require hnone, ?_⟩
  by_cases hstart : subscriptionStartSequence subscription.start stream.lastSequence ≤
      stream.lastSequence
  · rw [if_pos hstart] at h
    have hnodup : ((store.eventsBetween subscription.tenantId stream.streamId
        (subscriptionStartSequence subscription.start stream.lastSequence)
        stream.lastSequence).map fun event => event.eventId).Nodup := by
      unfold eventsBetween
      rw [((perm_insertionSort _ _).map _).nodup_iff]
      exact hids.sublist (filter_sublist.map _)
    have hnew' : ∀ event ∈ store.eventsBetween subscription.tenantId stream.streamId
        (subscriptionStartSequence subscription.start stream.lastSequence) stream.lastSequence,
        findDelivery { store with states := store.states ++
          [registeredState subscription createdAt stream] }
          ⟨event.eventId, subscription.key, 1⟩ = none := fun event hevent =>
      hnew event (mem_eventsBetween.mp hevent).1 (mem_eventsBetween.mp hevent).2.1
    obtain ⟨rfl, rfl, hbound⟩ := backfillEvents_spec hnodup hnew' h
    exact ⟨by simp [addRows, backfillRows, backfillEvents, registeredState], rfl, hbound⟩
  · rw [if_neg hstart] at h
    cases h
    have hnone : store.backfillRows subscription now stream = [] := by
      rw [backfillRows, map_eq_nil_iff, eq_nil_iff_forall_not_mem]
      intro event hevent
      obtain ⟨-, -, hfirst, hlast, -⟩ := mem_backfillEvents.mp hevent
      omega
    rw [hnone]
    exact ⟨by simp [addRows, registeredState], by simp, id⟩

/-- What a registration inserts for all streams. -/
theorem backfillStreams_spec {createdAt : Datetime} {streams : List StreamRow} :
    ∀ {store store' : Store} {count count' : ℕ},
      (store.events.map fun event => event.eventId).Nodup → (streams.map StreamRow.streamId).Nodup →
      (∀ stream ∈ streams, ∀ event ∈ store.events,
        event.stream = (subscription.tenantId, stream.streamId) →
        store.findDelivery ⟨event.eventId, subscription.key, 1⟩ = none) →
      streams.foldlM (backfillStream subscription createdAt now) (store, count) =
        .ok (store', count') →
        (∀ stream ∈ streams, subscriptionStartSequence subscription.start stream.lastSequence ≤
            stream.lastSequence + 1) ∧
          store' = store.addRows (streams.map (registeredState subscription createdAt))
            (streams.flatMap (store.backfillRows subscription now)) ∧
          count' = count + (streams.flatMap (store.backfillRows subscription now)).length ∧
          (count ≤ subscription.limits.pendingHardLimit →
            count' ≤ subscription.limits.pendingHardLimit) := by
  induction streams with
  | nil =>
    intro store store' count count' _ _ _ h
    cases h
    simp [addRows]
  | cons stream streams ih =>
    intro store store' count count' hids hnodup hnew h
    rw [map_cons, nodup_cons] at hnodup
    rw [foldlM_cons] at h
    obtain ⟨⟨mid, middle⟩, hfirst, hrest⟩ := bind_inv h
    rcases backfillStream_spec hids (hnew stream mem_cons_self) hfirst with
      ⟨hposition, -, rfl, rfl, hbound⟩
    -- the rows of the first stream are of events of that stream only
    have hfresh : ∀ other ∈ streams, ∀ event ∈ store.events,
        event.stream = (subscription.tenantId, other.streamId) →
        (store.addRows [registeredState subscription createdAt stream]
          (store.backfillRows subscription now stream)).findDelivery
          ⟨event.eventId, subscription.key, 1⟩ = none := by
      intro other hother event hevent hstream
      refine findDelivery_addRows (fun row hrow heq => ?_)
        (hnew other (mem_cons_of_mem _ hother) event hevent hstream)
      obtain ⟨made, hmade, rfl⟩ := mem_map.mp hrow
      obtain ⟨hmem, hmadeStream, -⟩ := mem_backfillEvents.mp hmade
      have hid : made.eventId = event.eventId := congrArg DeliveryId.eventId heq
      have hsame : made = event := inj_on_of_nodup_map hids hmem hevent hid
      rw [hsame, hstream] at hmadeStream
      have hstreamId : other.streamId = stream.streamId := congrArg Prod.snd hmadeStream
      exact hnodup.1 (hstreamId ▸ mem_map_of_mem hother)
    have hids' : ((store.addRows [registeredState subscription createdAt stream]
        (store.backfillRows subscription now stream)).events.map fun event =>
        event.eventId).Nodup := hids
    obtain ⟨hpositions, rfl, rfl, hbounds⟩ := ih hids' hnodup.2 hfresh hrest
    refine ⟨?_, ?_, ?_, fun hcount => hbounds (hbound hcount)⟩
    · intro other hother
      rcases mem_cons.mp hother with rfl | hother
      · exact hposition
      · exact hpositions other hother
    · rw [addRows_addRows, flatMap_cons]
      rfl
    · rw [flatMap_cons, length_append, Nat.add_assoc]
      rfl

/-- The streams of a tenant, in the order of their ids. -/
def tenantStreams (store : Store) (tenantId : Option String) : List StreamRow :=
  (store.streams.filter (·.tenantId == tenantId)).insertionSort fun a b => a.streamId ≤ b.streamId

theorem mem_tenantStreams {store : Store} {tenantId : Option String} :
    stream ∈ store.tenantStreams tenantId ↔ stream ∈ store.streams ∧ stream.tenantId = tenantId := by
  unfold tenantStreams
  rw [(perm_insertionSort _ _).mem_iff, mem_filter]
  simp

/-- The streams of one tenant have distinct ids. -/
theorem nodup_tenantStreams {store : Store} (h : store.WellFormed) (tenantId : Option String) :
    ((store.tenantStreams tenantId).map StreamRow.streamId).Nodup := by
  have hkeys : ((store.tenantStreams tenantId).map StreamRow.key).Nodup := by
    unfold tenantStreams
    rw [((perm_insertionSort _ _).map _).nodup_iff]
    exact h.streamKeys.sublist (filter_sublist.map _)
  have hpair : (store.tenantStreams tenantId).map StreamRow.key =
      ((store.tenantStreams tenantId).map StreamRow.streamId).map fun id => (tenantId, id) := by
    rw [map_map]
    refine map_congr_left fun stream hstream => ?_
    unfold StreamRow.key
    rw [(mem_tenantStreams.mp hstream).2]
    rfl
  rw [hpair] at hkeys
  exact hkeys.of_map _

/-- What a registration of a new key does. -/
theorem registerSubscription_spec {store store' : Store} (hwf : store.WellFormed)
    {persisted : DurableSubscription}
    (h : store.registerSubscription subscription now = .ok (store', persisted)) :
    (store' = store ∧ store.selectSubscription subscription.key = some persisted) ∨
      ∃ createdAt, store.selectSubscription subscription.key = none ∧
        subscription.status ≠ .retired ∧
        persisted.toSubscriptionDefinition = subscription.toSubscriptionDefinition ∧
        persisted.status = subscription.status ∧
        let streams := store.tenantStreams subscription.tenantId
        let base := { store with subscriptions := store.subscriptions ++ [persisted] }
        (∀ stream ∈ streams, subscriptionStartSequence subscription.start stream.lastSequence ≤
          stream.lastSequence + 1) ∧
        store' = base.addRows (streams.map (registeredState persisted createdAt))
          (streams.flatMap (store.backfillRows persisted now)) ∧
        (streams.flatMap (store.backfillRows persisted now)).length ≤
          subscription.limits.pendingHardLimit := by
  unfold registerSubscription at h
  split at h
  · rename_i existing hfind
    obtain ⟨-, h⟩ := check_inv h
    cases h
    exact Or.inl ⟨rfl, hfind⟩
  · rename_i hnone
    right
    obtain ⟨hstatus, h⟩ := check_inv h
    iterate 3 rcases check_inv h with ⟨-, h⟩
    obtain ⟨⟨final, count⟩, hfold, h⟩ := bind_inv h
    cases h
    set persisted : DurableSubscription := { subscription with
      createdAt := some (subscription.createdAt.getD now)
      updatedAt := some (subscription.updatedAt.getD (subscription.createdAt.getD now)) }
    set base : Store := { store with subscriptions := store.subscriptions ++ [persisted] }
    have hids : (base.events.map fun event => event.eventId).Nodup := hwf.eventIds
    have hnew : ∀ stream ∈ store.tenantStreams subscription.tenantId, ∀ event ∈ base.events,
        event.stream = (persisted.tenantId, stream.streamId) →
        base.findDelivery ⟨event.eventId, persisted.key, 1⟩ = none := by
      intro stream _ event _ _
      rw [findDelivery, KeyedList.find?, find?_eq_none]
      intro row hrow heq
      have hid : row.id = ⟨event.eventId, subscription.key, 1⟩ := by simpa using heq
      obtain ⟨other, hother, hkey, -⟩ := hwf.subscribed row hrow
      rw [hid] at hkey
      rw [selectSubscription, KeyedList.find?, find?_eq_none] at hnone
      exact hnone other hother (by simpa using hkey)
    rcases backfillStreams_spec hids (nodup_tenantStreams hwf subscription.tenantId) hnew
      hfold with ⟨hpositions, hstore, hcount, hbound⟩
    refine ⟨_, hnone, of_require hstatus, rfl, rfl, hpositions, hstore, ?_⟩
    rw [Nat.zero_add] at hcount
    exact hcount ▸ hbound (Nat.zero_le _)

namespace WellFormed

variable {store store' : Store}

/-- One more subscription, of a new key. -/
theorem addSubscription (h : store.WellFormed)
    (hnew : store.selectSubscription subscription.key = none) :
    WellFormed { store with subscriptions := store.subscriptions ++ [subscription] } where
  eventIds := h.eventIds
  streamKeys := h.streamKeys
  sequences := h.sequences
  streamOf := h.streamOf
  subscriptionKeys := by
    rw [map_append, nodup_append]
    refine ⟨h.subscriptionKeys, by simp, fun key hold _ hlast heq => ?_⟩
    obtain ⟨other, hother, hkey⟩ := mem_map.mp hold
    rw [selectSubscription, KeyedList.find?, find?_eq_none] at hnew
    apply hnew other hother
    rw [hkey, heq]
    simpa using hlast
  deliveryIds := h.deliveryIds
  placed := h.placed
  subscribed := fun row hrow => by
    obtain ⟨other, hother, hkey⟩ := h.subscribed row hrow
    exact ⟨other, mem_append_left _ hother, hkey⟩
  generations := h.generations
  stateKeys := h.stateKeys
  stateOf := fun state hstate => by
    obtain ⟨other, hother, hkey⟩ := h.stateOf state hstate
    exact ⟨other, mem_append_left _ hother, hkey⟩
  deadLetters := h.deadLetters

theorem registerSubscription (h : store.WellFormed) {persisted : DurableSubscription}
    (hcall : store.registerSubscription subscription now = .ok (store', persisted)) :
    store'.WellFormed := by
  rcases registerSubscription_spec h hcall with
    ⟨rfl, -⟩ | ⟨createdAt, hnone, -, hdef, -, -, rfl, -⟩
  · exact h
  have hkey : persisted.key = subscription.key := congrArg SubscriptionDefinition.key hdef
  have hbase := h.addSubscription (hkey ▸ hnone)
  have hmade : ∀ row ∈ (store.tenantStreams subscription.tenantId).flatMap
      (store.backfillRows persisted now), ∃ stream ∈ store.tenantStreams subscription.tenantId,
        ∃ event ∈ store.backfillEvents persisted stream, row = rowFor persisted event now 1 := by
    intro row hrow
    obtain ⟨stream, hstream, hrow⟩ := mem_flatMap.mp hrow
    obtain ⟨event, hevent, rfl⟩ := mem_map.mp hrow
    exact ⟨stream, hstream, event, hevent, rfl⟩
  have hunknown : ∀ other ∈ store.subscriptions, other.key ≠ persisted.key := by
    intro other hother heq
    rw [selectSubscription, KeyedList.find?, find?_eq_none] at hnone
    exact hnone other hother (by simpa [hkey] using heq)
  refine hbase.addRows ?_ ?_ ?_ ?_ ?_ ?_ ?_ ?_
  · rw [map_map]
    apply List.Nodup.of_map (fun place : Option String × SubscriptionKey × String => place.2.2)
    rw [map_map]
    exact nodup_tenantStreams h subscription.tenantId
  · intro state hstate hmem
    obtain ⟨stream, -, rfl⟩ := mem_map.mp hstate
    obtain ⟨old, hold, hplace⟩ := mem_map.mp hmem
    obtain ⟨other, hother, hotherKey, -⟩ := h.stateOf old hold
    apply hunknown other hother
    rw [hotherKey]
    exact congrArg (fun place => place.2.1) hplace
  · intro state hstate
    obtain ⟨stream, -, rfl⟩ := mem_map.mp hstate
    exact ⟨persisted, mem_append_right _ (mem_singleton.mpr rfl), rfl, rfl⟩
  · have hids : ((store.tenantStreams subscription.tenantId).flatMap
        (store.backfillRows persisted now)).map Delivery.id =
        ((store.tenantStreams subscription.tenantId).flatMap fun stream =>
          (store.backfillEvents persisted stream).map fun event => event.eventId).map
          fun id => ⟨id, persisted.key, 1⟩ := by
      rw [map_flatMap, map_flatMap]
      refine flatMap_congr fun stream _ => ?_
      unfold backfillRows
      rw [map_map, map_map]
      rfl
    rw [hids]
    refine List.Nodup.map (fun a b hab => congrArg DeliveryId.eventId hab) ?_
    rw [nodup_flatMap]
    constructor
    · intro stream _
      exact (nodup_eventsBetween h _ _ _ _).sublist (filter_sublist.map _)
    · have hpairs := nodup_tenantStreams h subscription.tenantId
      rw [List.Nodup, pairwise_map] at hpairs
      refine hpairs.imp fun {stream other} hne id hid hid' => ?_
      obtain ⟨event, hevent, rfl⟩ := mem_map.mp hid
      obtain ⟨event', hevent', heq⟩ := mem_map.mp hid'
      obtain ⟨hmem, hstream, -⟩ := mem_backfillEvents.mp hevent
      obtain ⟨hmem', hstream', -⟩ := mem_backfillEvents.mp hevent'
      rw [h.event_inj hmem' hmem heq, hstream] at hstream'
      exact hne (congrArg Prod.snd hstream')
  · intro row hrow hmem
    obtain ⟨stream, -, event, -, rfl⟩ := hmade row hrow
    obtain ⟨old, hold, hid⟩ := mem_map.mp hmem
    obtain ⟨other, hother, hotherKey, -⟩ := h.subscribed old hold
    apply hunknown other hother
    rw [hotherKey, hid]
    rfl
  · intro row hrow
    obtain ⟨stream, -, event, hevent, rfl⟩ := hmade row hrow
    exact ⟨event, (mem_backfillEvents.mp hevent).1, rfl, rfl, rfl, rfl⟩
  · intro row hrow
    obtain ⟨stream, -, event, hevent, rfl⟩ := hmade row hrow
    refine ⟨persisted, mem_append_right _ (mem_singleton.mpr rfl), rfl, ?_⟩
    exact (congrArg Prod.fst (mem_backfillEvents.mp hevent).2.1).symm
  · intro row hrow
    obtain ⟨stream, -, event, -, rfl⟩ := hmade row hrow
    exact le_rfl

end WellFormed

/-! ## The next generation -/

theorem le_foldr_max {n : ℕ} {ns : List ℕ} (h : n ∈ ns) : n ≤ ns.foldr max 0 := by
  induction ns with
  | nil => cases h
  | cons m ns ih =>
    rw [foldr_cons]
    rcases mem_cons.mp h with rfl | h
    · exact le_max_left _ _
    · exact (ih h).trans (le_max_right _ _)

/-- The generations of an event and a subscription are below the next one. -/
theorem generation_lt_next {store : Store} {row : Delivery} (hrow : row ∈ store.deliveries) :
    row.id.deliveryGeneration < store.nextGeneration row.id.eventId row.id.subscription := by
  unfold nextGeneration
  apply Nat.lt_succ_of_le
  apply le_foldr_max
  exact mem_map_of_mem (f := fun row : Delivery => row.id.deliveryGeneration)
    (mem_filter.mpr ⟨hrow, by simp⟩)

theorem nextGeneration_pos (store : Store) (eventId : String) (key : SubscriptionKey) :
    1 ≤ store.nextGeneration eventId key := Nat.succ_le_succ (Nat.zero_le _)

/-- The next generation of a pair does not depend on rows of other events. -/
theorem nextGeneration_addRows {store : Store} {rows : List Delivery} {eventId : String}
    {key : SubscriptionKey} (hrows : ∀ row ∈ rows, row.id.eventId ≠ eventId) :
    (store.addRows [] rows).nextGeneration eventId key = store.nextGeneration eventId key := by
  unfold nextGeneration addRows
  rw [filter_append]
  have hnone : rows.filter (fun row => row.id.eventId == eventId && row.id.subscription == key) =
      [] := by
    rw [filter_eq_nil_iff]
    intro row hrow
    simp [hrows row hrow]
  rw [hnone, append_nil]

theorem addRows_nil (store : Store) (rows : List Delivery) :
    store.addRows [] rows = { store with deliveries := store.deliveries ++ rows } := by
  simp [addRows]

/-! ## `requeue_dead_letter` -/

/-- A requeue keeps the tables well formed. -/
theorem WellFormed.requeueDeadLetter {store store' : Store} (h : store.WellFormed)
    {action : DeadLetterAction} {row : Delivery}
    (hcall : store.requeueDeadLetter action now = .ok (store', row)) : store'.WellFormed := by
  rcases requeueDeadLetter_spec hcall with
    ⟨record, subscription, audit, hfind, -, -, -, -, hnew, rfl, rfl⟩
  obtain ⟨dead, hdead, hof⟩ := h.deadLetters record (mem_of_find? hfind).1
  set generation :=
    store.nextGeneration record.deliveryId.eventId record.deliveryId.subscription with hgeneration
  have hadded : (store.addRows [] [newDelivery
      { record.deliveryId with deliveryGeneration := generation } record.tenantId record.streamId
      record.streamSequence record.consumerEffectId now]).WellFormed := by
    refine h.addRows nodup_nil (by simp) (by simp) (by simp) ?_ ?_ ?_ ?_
    · intro made hmade hmem
      obtain rfl := mem_singleton.mp hmade
      obtain ⟨old, hold, hid⟩ := mem_map.mp hmem
      rw [findDelivery, KeyedList.find?, find?_eq_none] at hnew
      exact hnew old hold (decide_eq_true hid)
    · intro made hmade
      obtain rfl := mem_singleton.mp hmade
      obtain ⟨event, hevent, hplaced⟩ := h.placed dead hdead
      refine ⟨event, hevent, ?_, hof.tenantId.trans hplaced.tenantId,
        hof.streamId.trans hplaced.streamId, hof.streamSequence.trans hplaced.streamSequence⟩
      show record.deliveryId.eventId = event.eventId
      rw [hof.deliveryId, hplaced.eventId]
    · intro made hmade
      obtain rfl := mem_singleton.mp hmade
      obtain ⟨other, hother, hkey, htenant⟩ := h.subscribed dead hdead
      refine ⟨other, hother, ?_, htenant.trans hof.tenantId.symm⟩
      show other.key = record.deliveryId.subscription
      rw [hof.deliveryId, hkey]
    · intro made hmade
      obtain rfl := mem_singleton.mp hmade
      exact hgeneration ▸ nextGeneration_pos _ _ _
  rw [addRows_nil] at hadded
  refine hadded.of_advances (disposeDeadLetter_advances ?_ _ _)
  exact (mem_of_find? hfind).1

/-! ## `begin_redelivery` -/

/-- The rows that a redelivery adds. -/
def redeliveredRows (store : Store) (subscription : DurableSubscription) (scheduledAt : Datetime)
    (events : List StoredEvent) : List Delivery :=
  events.map fun event => rowFor subscription event scheduledAt
    (store.nextGeneration event.eventId subscription.key)

variable {request : RedeliveryRequest}

/-- The events of a redelivery: originals of the range, each once. -/
theorem mem_redeliveryEvents {store : Store} {throughSequence : ℕ}
    (h : event ∈ store.redeliveryEvents subscription request throughSequence) :
    ∃ row ∈ store.deliveriesOf subscription, row.original = true ∧ row.Of event ∧
      store.findEvent row.id.eventId = some event ∧ row.streamId = request.sourceStreamId ∧
      request.fromSequence ≤ row.streamSequence ∧ row.streamSequence ≤ throughSequence := by
  have h := mem_of_mem_take h
  obtain ⟨row, hrow, hevent⟩ := mem_filterMap.mp h
  rw [(perm_insertionSort _ _).mem_iff, mem_filter] at hrow
  obtain ⟨hfind, hplace⟩ := Option.filter_eq_some_iff.mp hevent
  simp only [Bool.and_eq_true, beq_iff_eq, decide_eq_true_eq] at hrow hplace
  obtain ⟨hof, ⟨⟨horiginal, hstream⟩, hfirst⟩, hlast⟩ := hrow
  exact ⟨row, hof, horiginal, ⟨(mem_of_find? hfind).2.symm, hplace.1.1.symm,
    hplace.1.2.symm, hplace.2.symm⟩, hfind, hstream, hfirst, hlast⟩

/-- What is kept of a list under a key keeps the keys in order. -/
theorem sublist_map_filterMap {α β κ : Type*} {f : α → Option β} {key : β → κ} (from_ : α → κ)
    (h : ∀ a b, f a = some b → key b = from_ a) {xs : List α} :
    ((xs.filterMap f).map key).Sublist (xs.map from_) := by
  induction xs with
  | nil => exact List.Sublist.refl _
  | cons x xs ih =>
    cases hx : f x with
    | none =>
      rw [filterMap_cons_none hx]
      exact ih.cons _
    | some b =>
      rw [filterMap_cons_some hx, map_cons, map_cons, h x b hx]
      exact ih.cons_cons _

/-- The events of a redelivery are distinct. -/
theorem nodup_redeliveryEvents {store : Store} (hwf : store.WellFormed)
    (subscription : DurableSubscription) (request : RedeliveryRequest) (throughSequence : ℕ) :
    ((store.redeliveryEvents subscription request throughSequence).map fun event =>
      event.eventId).Nodup := by
  unfold redeliveryEvents
  rw [map_take]
  refine List.Nodup.sublist (take_sublist _ _) ?_
  refine List.Nodup.sublist (sublist_map_filterMap (fun row : Delivery => row.id.eventId) ?_) ?_
  · intro row event hevent
    exact (mem_of_find? (Option.filter_eq_some_iff.mp hevent).1).2
  · rw [((perm_insertionSort _ _).map _).nodup_iff]
    refine List.Nodup.map_on ?_ ((hwf.deliveryIds.of_map _).sublist
      (filter_sublist.trans (deliveriesOf_sublist _ _)))
    intro row hrow other hother heq
    obtain ⟨hof, hrow⟩ := mem_filter.mp hrow
    obtain ⟨hof', hother⟩ := mem_filter.mp hother
    simp only [Bool.and_eq_true, Delivery.original, beq_iff_eq] at hrow hother
    obtain ⟨hmem, hkey, -⟩ := mem_deliveriesOf.mp hof
    obtain ⟨hmem', hkey', -⟩ := mem_deliveriesOf.mp hof'
    apply inj_on_of_nodup_map hwf.deliveryIds hmem hmem'
    cases hid : row.id
    cases hid' : other.id
    simp_all

/-- What the loop of a redelivery adds. -/
theorem redeliverEvents_spec {scheduledAt : Datetime} {events : List StoredEvent} :
    ∀ {store store' : Store} {items items' : List RedeliveryItem},
      (events.map fun event => event.eventId).Nodup →
      events.foldlM (redeliverEvent subscription scheduledAt) (store, items) =
        .ok (store', items') →
        store' = store.addRows [] (store.redeliveredRows subscription scheduledAt events) ∧
          ∀ event ∈ events, 2 ≤ store.nextGeneration event.eventId subscription.key := by
  induction events with
  | nil =>
    intro store store' items items' _ h
    obtain ⟨rfl, -⟩ := Prod.mk.inj (pure_eq_ok_iff.mp h)
    simp [addRows, redeliveredRows]
  | cons event events ih =>
    intro store store' items items' hnodup h
    rw [map_cons, nodup_cons] at hnodup
    rw [foldlM_cons] at h
    obtain ⟨⟨mid, middle⟩, hfirst, hrest⟩ := bind_inv h
    unfold redeliverEvent at hfirst
    obtain ⟨hgeneration, hfirst⟩ := check_inv hfirst
    have hnone : store.findDelivery ⟨event.eventId, subscription.key,
        store.nextGeneration event.eventId subscription.key⟩ = none := by
      rw [findDelivery, KeyedList.find?, find?_eq_none]
      intro row hrow heq
      have hid : row.id = ⟨event.eventId, subscription.key,
        store.nextGeneration event.eventId subscription.key⟩ := by simpa using heq
      have hlt := generation_lt_next hrow
      rw [hid] at hlt
      exact lt_irrefl _ hlt
    rw [insertDelivery_of_none hnone] at hfirst
    obtain ⟨-, hfirst⟩ := check_inv hfirst
    obtain ⟨rfl, -⟩ := Prod.mk.inj (ok_inj hfirst)
    obtain ⟨rfl, hgenerations⟩ := ih hnodup.2 hrest
    -- the row of the first event is of no other event of the list
    have hsame : ∀ other ∈ events, (store.addRows [] [rowFor subscription event scheduledAt
        (store.nextGeneration event.eventId subscription.key)]).nextGeneration other.eventId
        subscription.key = store.nextGeneration other.eventId subscription.key := by
      intro other hother
      refine nextGeneration_addRows fun row hrow heq => ?_
      obtain rfl := mem_singleton.mp hrow
      have hid : event.eventId = other.eventId := heq
      exact hnodup.1 (hid ▸ mem_map_of_mem (f := fun event : StoredEvent => event.eventId)
        hother)
    constructor
    · rw [addRows_addRows]
      unfold redeliveredRows
      rw [map_cons]
      congr 1
      show _ :: _ = _ :: _
      congr 1
      refine map_congr_left fun other hother => ?_
      rw [hsame other hother]
    · intro other hother
      rcases mem_cons.mp hother with rfl | hother
      · exact of_require hgeneration
      · rw [← hsame other hother]
        exact hgenerations other hother

/-- What a redelivery does: it answers a repeated command, or adds a generation of each event of a
range that has no delivery under way. -/
theorem beginRedelivery_spec {store store' : Store} (hwf : store.WellFormed)
    {report : RedeliveryReport} (h : store.beginRedelivery request now = .ok (store', report)) :
    store' = store ∨ ∃ subscription throughSequence,
      store.selectSubscription request.subscription = some subscription ∧
      subscription.status ≠ .retired ∧
      (∀ row ∈ store.deliveriesOf subscription, row.streamId = request.sourceStreamId →
        request.fromSequence ≤ row.streamSequence → row.streamSequence ≤ throughSequence →
        row.nonterminal = false) ∧
      let events := store.redeliveryEvents subscription request throughSequence
      (store.nonterminalOf subscription).length + events.length ≤
        subscription.limits.pendingHardLimit ∧
      (∀ event ∈ events, 2 ≤ store.nextGeneration event.eventId subscription.key) ∧
      store' = { store.addRows [] (store.redeliveredRows subscription
        (max now request.requestedAt) events) with redeliveries := store'.redeliveries } := by
  unfold beginRedelivery at h
  split at h
  · obtain ⟨-, h⟩ := check_inv h
    exact Or.inl (Prod.mk.inj (ok_inj h)).1.symm
  · obtain ⟨subscription, hselect, h⟩ := bind_inv h
    obtain ⟨hretired, h⟩ := check_inv h
    obtain ⟨-, h⟩ := check_inv h
    iterate 4 rcases check_inv h with ⟨-, h⟩
    obtain ⟨hguard, h⟩ := check_inv h
    iterate 2 rcases check_inv h with ⟨-, h⟩
    obtain ⟨hlimit, h⟩ := check_inv h
    obtain ⟨-, h⟩ := check_inv h
    obtain ⟨⟨mid, items⟩, hfold, h⟩ := bind_inv h
    obtain ⟨rfl, -⟩ := Prod.mk.inj (ok_inj h)
    rcases redeliverEvents_spec (nodup_redeliveryEvents hwf subscription request _) hfold with
      ⟨rfl, hgenerations⟩
    refine Or.inr ⟨subscription, _, (Option.filter_eq_some_iff.mp (orRaise_eq_ok.mp hselect)).1,
      of_require hretired, ?_, of_require hlimit, hgenerations, rfl⟩
    intro row hrow hstream hfirst hlast
    have hrowGuard := all_eq_true.mp (of_require hguard) row hrow
    simpa [hstream, hfirst, hlast] using hrowGuard

/-- A redelivery keeps the tables well formed. -/
theorem WellFormed.beginRedelivery {store store' : Store} (h : store.WellFormed)
    {report : RedeliveryReport} (hcall : store.beginRedelivery request now = .ok (store', report)) :
    store'.WellFormed := by
  rcases beginRedelivery_spec h hcall with
    rfl | ⟨subscription, throughSequence, hselect, -, -, -, -, hstore⟩
  · exact h
  obtain ⟨hsubscription, -⟩ := mem_of_selectSubscription hselect
  have hmade : ∀ row ∈ store.redeliveredRows subscription (max now request.requestedAt)
      (store.redeliveryEvents subscription request throughSequence),
      ∃ event ∈ store.redeliveryEvents subscription request throughSequence,
        row = rowFor subscription event (max now request.requestedAt)
          (store.nextGeneration event.eventId subscription.key) := by
    intro row hrow
    obtain ⟨event, hevent, rfl⟩ := mem_map.mp hrow
    exact ⟨event, hevent, rfl⟩
  have hadded : (store.addRows [] (store.redeliveredRows subscription (max now request.requestedAt)
      (store.redeliveryEvents subscription request throughSequence))).WellFormed := by
    refine h.addRows nodup_nil (by simp) (by simp) ?_ ?_ ?_ ?_ ?_
    · have hevents := nodup_redeliveryEvents h subscription request throughSequence
      unfold redeliveredRows
      rw [map_map]
      apply List.Nodup.of_map DeliveryId.eventId
      rw [map_map]
      exact hevents
    · intro row hrow hmem
      obtain ⟨event, -, rfl⟩ := hmade row hrow
      obtain ⟨old, hold, hid⟩ := mem_map.mp hmem
      have hlt := generation_lt_next hold
      rw [hid] at hlt
      exact lt_irrefl _ hlt
    · intro row hrow
      obtain ⟨event, hevent, rfl⟩ := hmade row hrow
      obtain ⟨_, -, -, -, hfind, -⟩ := mem_redeliveryEvents hevent
      exact ⟨event, (mem_of_find? hfind).1, rfl, rfl, rfl, rfl⟩
    · intro row hrow
      rcases hmade row hrow with ⟨event, hevent, rfl⟩
      rcases mem_redeliveryEvents hevent with ⟨original, horiginal, -, hof, -⟩
      exact ⟨subscription, hsubscription, rfl,
        (mem_deliveriesOf.mp horiginal).2.2.symm.trans hof.tenantId⟩
    · intro row hrow
      rcases hmade row hrow with ⟨event, -, rfl⟩
      exact nextGeneration_pos _ _ _
  rw [hstore]
  exact hadded.of_advances (Advances.of_eq rfl rfl rfl rfl rfl rfl)

/-! ## Every call -/

/-- Every committed call keeps the tables well formed. -/
theorem WellFormed.commit {store store' : Store} (h : store.WellFormed) {timed : TimedCall}
    (hcall : store.commit timed = .ok store') : store'.WellFormed := by
  unfold Store.commit at hcall
  split at hcall <;> rcases map_fst_eq_ok.mp hcall with ⟨out, hcall⟩
  · exact h.appendEvent hcall
  · exact h.registerSubscription hcall
  · exact h.setSubscriptionStatus hcall
  · exact h.of_advances (claimDeliveries_advances h.deliveryIds hcall)
  · exact h.of_advances (renewDeliveryLease_advances h.deliveryIds hcall)
  · exact h.of_advances (settleDelivery_advances h.deliveryIds hcall)
  · exact h.requeueDeadLetter hcall
  · exact h.of_advances (resolveDeadLetter_advances hcall)
  · exact h.beginRedelivery hcall
  · exact h.of_advances (cancelRetiredSubscription_advances h.deliveryIds hcall)

theorem wellFormed_run (calls : List TimedCall) : WellFormed (StepRuns.run step {} calls) :=
  run_invariant calls wellFormed_empty fun _ _ _ h hcall => h.commit hcall

/-- In every state that a run reaches no reference dangles: the event and the subscription of a
delivery, the subscription of a stream state and the delivery of a dead letter are found, each in
its tenant. -/
theorem references_found (calls : List TimedCall) : let store := StepRuns.run step {} calls
    (∀ row ∈ store.deliveries, ∃ event subscription,
      store.findEvent row.id.eventId = some event ∧ row.Of event ∧
        store.selectSubscription row.id.subscription = some subscription ∧
        subscription.tenantId = row.tenantId) ∧
    (∀ state ∈ store.states, ∃ subscription,
      store.selectSubscription state.subscription = some subscription ∧
        subscription.tenantId = state.tenantId) ∧
    ∀ record ∈ store.deadLetters, ∃ row,
      store.findDelivery record.deliveryId = some row ∧ record.Of row := by
  intro store
  have hwf : store.WellFormed := wellFormed_run calls
  refine ⟨fun row hrow => ?_, fun state hstate => ?_, fun record hrecord => ?_⟩
  · rcases hwf.placed row hrow with ⟨event, hevent, hof⟩
    rcases hwf.subscribed row hrow with ⟨subscription, hmem, hkey, htenant⟩
    exact ⟨event, subscription, hof.eventId ▸ hwf.findEvent_of_mem hevent, hof,
      hkey ▸ hwf.selectSubscription_of_mem hmem, htenant⟩
  · rcases hwf.stateOf state hstate with ⟨subscription, hmem, hkey, htenant⟩
    exact ⟨subscription, hkey ▸ hwf.selectSubscription_of_mem hmem, htenant⟩
  · rcases hwf.deadLetters record hrecord with ⟨row, hrow, hof⟩
    exact ⟨row, hof.deliveryId ▸ findDelivery_of_mem hwf.deliveryIds hrow, hof⟩

end Store

end EventStore
