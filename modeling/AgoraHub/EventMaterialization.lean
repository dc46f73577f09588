/-
# Every event reaches every subscription once

The delivery of an event is made on three ways: at the registration of a subscription, at
an append to a stream that the subscription has a state for, and at an append to a stream
that it has none for yet.  In whatever order streams begin and subscriptions are
registered, paused and retired, an event has one original delivery to a subscription
where it is due, and none elsewhere.
-/
import AgoraHub.EventStoreOperators

namespace EventStore

open Fallible Datetime List KeyedList StepRuns RelatedLists

/-! ## What is due -/

/-- What the past of the tables settles: the last sequence of each stream when a subscription was
registered, and whether a subscription was retired when an event was appended. -/
structure History where
  watermark : SubscriptionKey → Option String × String → ℕ
  retired : String → SubscriptionKey → Bool

/-- The event is to reach the subscription. -/
def History.Due (history : History) (subscription : DurableSubscription) (event : StoredEvent) :
    Prop :=
  eventMatches event subscription = true ∧
    subscriptionStartSequence subscription.start
      (history.watermark subscription.key event.stream) ≤ event.streamSequence ∧
    history.retired event.eventId subscription.key = false

instance (history : History) (subscription : DurableSubscription) (event : StoredEvent) :
    Decidable (history.Due subscription event) := by
  unfold History.Due
  infer_instance

/-- What a run of calls has settled. -/
def History.ofRun (calls : List TimedCall) : History where
  watermark := fun key stream =>
    (beforeFirst Store.step (fun store => (store.selectSubscription key).isSome) {}
      calls).streamWatermark stream.1 stream.2
  retired := fun eventId key =>
    ((beforeFirst Store.step (fun store => (store.findEvent eventId).isSome) {}
      calls).selectSubscription key).any (·.status == .retired)

theorem History.due_congr {history : History} {subscription subscription' : DurableSubscription}
    (h : subscription'.toSubscriptionDefinition = subscription.toSubscriptionDefinition)
    (event : StoredEvent) : history.Due subscription' event ↔ history.Due subscription event := by
  unfold History.Due eventMatches
  rw [h]

namespace Store

/-- The original deliveries are those that are due, and the stream states say from where on. -/
structure Materialized (store : Store) (history : History) : Prop where
  starts : ∀ state ∈ store.states, ∀ subscription ∈ store.subscriptions,
    subscription.key = state.subscription → state.startSequence =
      subscriptionStartSequence subscription.start
        (history.watermark subscription.key (state.tenantId, state.streamId))
  /-- A stream without a state has not reached the start of the subscription. -/
  waits : ∀ subscription ∈ store.subscriptions, subscription.status ≠ .retired → ∀ streamId,
    store.findState subscription.tenantId subscription.key streamId = none →
      store.streamWatermark subscription.tenantId streamId <
          subscriptionStartSequence subscription.start
            (history.watermark subscription.key (subscription.tenantId, streamId)) ∧
        (subscription.start = .latest → history.watermark subscription.key
          (subscription.tenantId, streamId) = store.streamWatermark subscription.tenantId streamId)
  runs : ∀ subscription ∈ store.subscriptions, subscription.status ≠ .retired →
    ∀ state ∈ store.states, state.subscription = subscription.key → state.retirementWatermark = none
  rows : ∀ subscription ∈ store.subscriptions, ∀ event ∈ store.events,
    event.tenantId = subscription.tenantId →
      ((⟨event.eventId, subscription.key, 1⟩ : DeliveryId) ∈ store.deliveries.map Delivery.id ↔
        history.Due subscription event)
  /-- An event that was appended before a registration was appended to no retired subscription. -/
  fresh : ∀ key, store.selectSubscription key = none → ∀ event ∈ store.events,
    history.retired event.eventId key = false

theorem materialized_empty (history : History) : Materialized {} history where
  starts := by simp
  waits := by simp
  runs := by simp
  rows := by simp
  fresh := by simp

/-! ## Reading the tables -/

variable {key : SubscriptionKey}

theorem selectSubscription_eq_none {store : Store} : store.selectSubscription key = none ↔
      key ∉ store.subscriptions.map fun subscription => subscription.key :=
  find?_eq_none_iff

theorem findEvent_eq_none {store : Store} {eventId : String} :
    store.findEvent eventId = none ↔ eventId ∉ store.events.map fun event => event.eventId :=
  find?_eq_none_iff

theorem findState_eq_none {store : Store} {tenantId : Option String} {streamId : String} :
    store.findState tenantId key streamId = none ↔
      (tenantId, key, streamId) ∉ store.states.map SubscriptionStreamState.place :=
  find?_eq_none_iff

/-- A stream is as long as its last sequence says. -/
theorem WellFormed.streamWatermark_eq {store : Store} (h : store.WellFormed)
    (stream : Option String × String) :
    store.streamWatermark stream.1 stream.2 = (store.eventsOf stream).length := by
  unfold streamWatermark
  cases hfind : store.findStream stream.1 stream.2 with
  | none => simp [h.findStream_eq_none hfind]
  | some row =>
    obtain ⟨hrow, hkey⟩ := mem_of_find? hfind
    have hlength := congrArg List.length (h.sequences row hrow).2
    rw [length_map, length_range'] at hlength
    have hstream : row.key = stream := hkey
    simp [← hlength, hstream]

/-- The sequence of an event is at most the length of its stream. -/
theorem WellFormed.sequence_le_watermark {store : Store} (h : store.WellFormed)
    {event : StoredEvent} (hevent : event ∈ store.events) :
    event.streamSequence ≤ store.streamWatermark event.tenantId event.streamId := by
  obtain ⟨row, hrow, hkey⟩ := h.streamOf event hevent
  have hlast := (h.sequence_mem hevent hrow hkey).2
  have hlength := congrArg List.length (h.sequences row hrow).2
  rw [length_map, length_range'] at hlength
  rw [show store.streamWatermark event.tenantId event.streamId = (store.eventsOf event.stream).length
    from h.streamWatermark_eq event.stream, ← hkey, hlength]
  exact hlast

/-! ## Calls that make no original delivery -/

section Calls

variable {store store' : Store} {history : History}

/-- What is recorded of new subscriptions and new events only does not matter to the old. -/
theorem Materialized.congr {history' : History} (h : store.Materialized history)
    (hwatermark : ∀ subscription ∈ store.subscriptions,
      history'.watermark subscription.key = history.watermark subscription.key)
    (hretired : ∀ event ∈ store.events, history'.retired event.eventId =
      history.retired event.eventId) : store.Materialized history' where
  starts := fun state hstate subscription hmem hkey => by
    rw [hwatermark subscription hmem]
    exact h.starts state hstate subscription hmem hkey
  waits := fun subscription hmem hstatus streamId hnone => by
    rw [hwatermark subscription hmem]
    exact h.waits subscription hmem hstatus streamId hnone
  runs := h.runs
  rows := fun subscription hmem event hevent htenant => by
    unfold History.Due
    rw [hwatermark subscription hmem, hretired event hevent]
    exact h.rows subscription hmem event hevent htenant
  fresh := fun key hnone event hevent => by
    rw [hretired event hevent]
    exact h.fresh key hnone event hevent

/-- The same streams, events, subscriptions and states, and the same original deliveries. -/
theorem Materialized.of_originals (h : store.Materialized history)
    (streams : store'.streams = store.streams) (events : store'.events = store.events)
    (subscriptions : store'.subscriptions = store.subscriptions)
    (states : store'.states = store.states)
    (originals : ∀ id : DeliveryId, id.deliveryGeneration = 1 →
      (id ∈ store'.deliveries.map Delivery.id ↔ id ∈ store.deliveries.map Delivery.id)) :
    store'.Materialized history where
  starts := by
    rw [states, subscriptions]
    exact h.starts
  waits := by
    unfold findState streamWatermark findStream
    rw [states, subscriptions, streams]
    exact h.waits
  runs := by
    rw [states, subscriptions]
    exact h.runs
  rows := by
    rw [subscriptions, events]
    intro subscription hmem event hevent htenant
    rw [originals _ rfl]
    exact h.rows subscription hmem event hevent htenant
  fresh := by
    unfold selectSubscription
    rw [subscriptions, events]
    exact h.fresh

theorem Materialized.of_advances (h : store.Materialized history) (hadv : Advances store store') :
    store'.Materialized history :=
  h.of_originals hadv.streams hadv.events hadv.subscriptions hadv.states fun _ _ => by
    rw [hadv.map_id]

theorem mem_map_id_append {rows : List Delivery} (hrows : ∀ row ∈ rows,
    2 ≤ row.id.deliveryGeneration) (id : DeliveryId) (hid : id.deliveryGeneration = 1) :
    id ∈ (store.deliveries ++ rows).map Delivery.id ↔ id ∈ store.deliveries.map Delivery.id := by
  rw [map_append, mem_append, or_iff_left]
  intro hmem
  obtain ⟨row, hrow, rfl⟩ := mem_map.mp hmem
  have := hrows row hrow
  omega

variable {now : Datetime}

theorem Materialized.requeueDeadLetter (hwf : store.WellFormed) (h : store.Materialized history)
    {action : DeadLetterAction} {row : Delivery}
    (hcall : store.requeueDeadLetter action now = .ok (store', row)) :
    store'.Materialized history := by
  rcases requeueDeadLetter_spec hcall with
    ⟨record, subscription, audit, hfind, -, -, -, -, -, rfl, rfl⟩
  -- the dead letter is of a delivery, so its generation is not the first
  obtain ⟨dead, hdead, hof⟩ := hwf.deadLetters record (mem_of_find? hfind).1
  have hnext := generation_lt_next hdead
  have hpos := hwf.generations dead hdead
  refine h.of_originals rfl rfl rfl rfl (mem_map_id_append fun row hrow => ?_)
  obtain rfl := mem_singleton.mp hrow
  show 2 ≤ store.nextGeneration record.deliveryId.eventId record.deliveryId.subscription
  rw [hof.deliveryId]
  omega

theorem Materialized.beginRedelivery (hwf : store.WellFormed) (h : store.Materialized history)
    {request : RedeliveryRequest} {report : RedeliveryReport}
    (hcall : store.beginRedelivery request now = .ok (store', report)) :
    store'.Materialized history := by
  rcases beginRedelivery_spec hwf hcall with
    rfl | ⟨subscription, throughSequence, -, -, -, -, hgenerations, hstore⟩
  · exact h
  rw [hstore]
  refine h.of_originals rfl rfl rfl (append_nil _) (mem_map_id_append fun row hrow => ?_)
  obtain ⟨event, hevent, rfl⟩ := mem_map.mp hrow
  exact hgenerations event hevent

theorem Materialized.setSubscriptionStatus (h : store.Materialized history) {key : SubscriptionKey}
    {status : SubscriptionStatus} {changedAt : Datetime} {reason : String}
    {updated : DurableSubscription}
    (hcall : store.setSubscriptionStatus key status changedAt reason = .ok (store', updated)) :
    store'.Materialized history := by
  rcases setSubscriptionStatus_spec hcall with
    ⟨current, states, hselect, hfinal, hstates, hupdated, rfl⟩
  obtain ⟨hcurrent, hkey⟩ := mem_of_find? hselect
  -- every subscription was registered with the same definition, and none leaves retirement
  have hold : ∀ subscription' ∈ KeyedList.replace (fun row : DurableSubscription => row.key)
      store.subscriptions updated, ∃ subscription ∈ store.subscriptions,
        subscription'.toSubscriptionDefinition = subscription.toSubscriptionDefinition ∧
        (subscription'.status ≠ .retired → subscription.status ≠ .retired) := by
    intro subscription' hmem'
    rcases mem_replace hmem' with rfl | hmem
    · exact ⟨current, hcurrent, by rw [hupdated],
        fun hne hretired => hne (by rw [hupdated]; exact hfinal hretired)⟩
    · exact ⟨subscription', hmem, rfl, id⟩
  have hplaces : states.map SubscriptionStreamState.place =
      store.states.map SubscriptionStreamState.place := by
    refine map_eq (fun state state' hstate => ?_) hstates
    rcases hstate with rfl | ⟨-, -, -, watermark, changedAt, rfl⟩ <;> rfl
  refine ⟨?_, ?_, ?_, ?_, fun key' hnone => h.fresh key' ?_⟩
  · intro state' hstate' subscription' hmem' hkey'
    obtain ⟨subscription, hmem, hdef, -⟩ := hold subscription' hmem'
    obtain ⟨state, hstate, hretires⟩ := exists_left hstates hstate'
    have hsame := h.starts state hstate subscription hmem
    rw [hdef]
    rw [hdef] at hkey'
    rcases hretires with rfl | ⟨-, -, -, watermark, changedAt, rfl⟩ <;> exact hsame hkey'
  · intro subscription' hmem' hstatus' streamId hnone'
    obtain ⟨subscription, hmem, hdef, hstatus⟩ := hold subscription' hmem'
    rw [hdef] at hnone' ⊢
    refine h.waits subscription hmem (hstatus hstatus') streamId ?_
    rw [findState_eq_none] at hnone' ⊢
    rwa [← hplaces]
  · intro subscription' hmem' hstatus' state' hstate' hkey'
    obtain ⟨state, hstate, hretires⟩ := exists_left hstates hstate'
    rcases hretires with rfl | ⟨hof, hretired, -, watermark, changedAt, rfl⟩
    · obtain ⟨subscription, hmem, hdef, hstatus⟩ := hold subscription' hmem'
      rw [hdef] at hkey'
      exact h.runs subscription hmem (hstatus hstatus') _ hstate hkey'
    · -- the state was closed because its subscription is retired
      exfalso
      apply hstatus'
      rcases mem_replace_iff.mp hmem' with ⟨rfl, -⟩ | ⟨-, hne⟩
      · rw [hupdated]
        exact hretired
      · exact absurd (hkey'.symm.trans (hof.trans hkey.symm)) (by rw [hupdated] at hne; exact hne)
  · intro subscription' hmem' event hevent htenant
    obtain ⟨subscription, hmem, hdef, -⟩ := hold subscription' hmem'
    rw [History.due_congr hdef, hdef]
    rw [hdef] at htenant
    exact h.rows subscription hmem event hevent htenant
  · rw [selectSubscription_eq_none] at hnone ⊢
    rwa [map_key_replace] at hnone

/-! ## `register_subscription` -/

theorem subscriptionStartSequence_pos (start : SubscriptionStart) (watermark : ℕ) :
    1 ≤ subscriptionStartSequence start watermark := by
  cases start with
  | earliest => exact le_rfl
  | latest => exact Nat.le_add_left 1 watermark
  | atSequence startSequence positive => exact positive

/-- The last sequence of a stream row is the watermark of its stream. -/
theorem WellFormed.streamWatermark_of_mem (hwf : store.WellFormed) {stream : StreamRow}
    (hstream : stream ∈ store.streams) :
    store.streamWatermark stream.tenantId stream.streamId = stream.lastSequence := by
  have hfind : store.findStream stream.tenantId stream.streamId = some stream :=
    find?_of_mem hwf.streamKeys hstream
  simp [streamWatermark, hfind]

variable {subscription : DurableSubscription}

theorem Materialized.registerSubscription (hwf : store.WellFormed)
    (h : store.Materialized history) {persisted : DurableSubscription}
    (hcall : store.registerSubscription subscription now = .ok (store', persisted))
    (hwatermark : store.selectSubscription subscription.key = none → ∀ stream,
      history.watermark subscription.key stream = store.streamWatermark stream.1 stream.2) :
    store'.Materialized history := by
  rcases registerSubscription_spec hwf hcall with
    ⟨rfl, -⟩ | ⟨createdAt, hnone, -, hdef, -, -, rfl, -⟩
  · exact h
  have hkey : persisted.key = subscription.key := congrArg SubscriptionDefinition.key hdef
  have htenant : persisted.tenantId = subscription.tenantId :=
    congrArg SubscriptionDefinition.tenantId hdef
  have hwatermark := hwatermark hnone
  rw [← hkey] at hwatermark
  rw [← hkey, selectSubscription_eq_none] at hnone
  rw [← htenant]
  have hother : ∀ other ∈ store.subscriptions, other.key ≠ persisted.key := fun other hmem heq =>
    hnone (heq ▸ mem_map_of_mem hmem)
  have hother_state : ∀ state ∈ store.states, state.subscription ≠ persisted.key := by
    intro state hstate heq
    obtain ⟨other, hmem, hkeyOther, -⟩ := hwf.stateOf state hstate
    exact hother other hmem (hkeyOther.trans heq)
  have hmade : ∀ state ∈ (store.tenantStreams persisted.tenantId).map
      (registeredState persisted createdAt), ∃ stream ∈ store.streams,
        stream.tenantId = persisted.tenantId ∧ state = registeredState persisted createdAt stream := by
    intro state hstate
    obtain ⟨stream, hstream, rfl⟩ := mem_map.mp hstate
    obtain ⟨hmem, hof⟩ := mem_tenantStreams.mp hstream
    exact ⟨stream, hmem, hof, rfl⟩
  refine ⟨?_, ?_, ?_, ?_, ?_⟩
  · intro state hstate other hmem hkeyState
    rcases mem_append.mp hstate with hold | hnew
    · rcases mem_append.mp hmem with hmem | hlast
      · exact h.starts state hold other hmem hkeyState
      · obtain rfl := mem_singleton.mp hlast
        exact absurd hkeyState.symm (hother_state state hold)
    · obtain ⟨stream, hstream, hof, rfl⟩ := hmade state hnew
      rcases mem_append.mp hmem with hmem | hlast
      · exact absurd hkeyState (hother other hmem)
      · obtain rfl := mem_singleton.mp hlast
        show subscriptionStartSequence other.start stream.lastSequence = subscriptionStartSequence
          other.start (history.watermark other.key (other.tenantId, stream.streamId))
        rw [hwatermark, ← hof, hwf.streamWatermark_of_mem hstream]
  · intro other hmem hstatus streamId hfind
    rw [findState_eq_none] at hfind
    have hfind : (other.tenantId, other.key, streamId) ∉
        (store.states ++ (store.tenantStreams persisted.tenantId).map
          (registeredState persisted createdAt)).map SubscriptionStreamState.place := hfind
    rw [map_append, mem_append, not_or] at hfind
    rcases mem_append.mp hmem with hmem | hlast
    · exact h.waits other hmem hstatus streamId (findState_eq_none.mpr hfind.1)
    · obtain rfl := mem_singleton.mp hlast
      -- a stream without a state is not there yet
      have hstream : store.findStream other.tenantId streamId = none := by
        rw [findStream, find?_eq_none_iff]
        intro hin
        obtain ⟨stream, hstream, heq⟩ := mem_map.mp hin
        obtain ⟨htenantStream, rfl⟩ := Prod.mk.inj heq
        apply hfind.2
        rw [map_map]
        exact mem_map.mpr ⟨stream, mem_tenantStreams.mpr ⟨hstream, htenantStream⟩, rfl⟩
      have hzero : store.streamWatermark other.tenantId streamId = 0 := by
        simp [streamWatermark, hstream]
      rw [hwatermark]
      exact ⟨lt_of_eq_of_lt hzero (subscriptionStartSequence_pos _ _), fun _ => rfl⟩
  · intro other hmem hstatus state hstate hkeyState
    rcases mem_append.mp hstate with hold | hnew
    · rcases mem_append.mp hmem with hmem | hlast
      · exact h.runs other hmem hstatus state hold hkeyState
      · obtain rfl := mem_singleton.mp hlast
        exact absurd hkeyState (hother_state state hold)
    · obtain ⟨stream, -, -, rfl⟩ := hmade state hnew
      rfl
  · intro other hmem event hevent htenantEvent
    have hids : ∀ id : DeliveryId, id ∈ ((store.tenantStreams persisted.tenantId).flatMap
        (store.backfillRows persisted now)).map Delivery.id ↔ ∃ stream ∈ store.streams,
          stream.tenantId = persisted.tenantId ∧ ∃ event ∈ store.backfillEvents persisted stream,
            id = ⟨event.eventId, persisted.key, 1⟩ := by
      intro id
      simp only [mem_map, mem_flatMap, mem_tenantStreams, backfillRows]
      constructor
      · rintro ⟨row, ⟨stream, ⟨hstream, hof⟩, event, hevent, rfl⟩, rfl⟩
        exact ⟨stream, hstream, hof, event, hevent, rfl⟩
      · rintro ⟨stream, hstream, hof, event, hevent, rfl⟩
        exact ⟨_, ⟨stream, ⟨hstream, hof⟩, event, hevent, rfl⟩, rfl⟩
    show (⟨event.eventId, other.key, 1⟩ : DeliveryId) ∈ (store.deliveries ++
      (store.tenantStreams persisted.tenantId).flatMap
        (store.backfillRows persisted now)).map Delivery.id ↔ _
    rw [map_append, mem_append, hids]
    rcases mem_append.mp hmem with hmem | hlast
    · rw [or_iff_left]
      · exact h.rows other hmem event hevent htenantEvent
      · rintro ⟨stream, -, -, backfilled, -, heq⟩
        exact hother other hmem (congrArg DeliveryId.subscription heq)
    · obtain rfl := mem_singleton.mp hlast
      rw [or_iff_right]
      · unfold History.Due
        rw [h.fresh other.key (selectSubscription_eq_none.mpr hnone) event hevent, hwatermark]
        constructor
        · rintro ⟨stream, hstream, hof, backfilled, hbackfilled, heq⟩
          obtain ⟨hmemEvent, hat, hfirst, -, hmatches⟩ := mem_backfillEvents.mp hbackfilled
          obtain rfl : event = backfilled :=
            hwf.event_inj hevent hmemEvent (congrArg DeliveryId.eventId heq)
          refine ⟨hmatches, ?_, rfl⟩
          rw [hat, ← hof, hwf.streamWatermark_of_mem hstream]
          exact hfirst
        · rintro ⟨hmatches, hfirst, -⟩
          obtain ⟨stream, hstream, hkeyStream⟩ := hwf.streamOf event hevent
          have hof : stream.tenantId = other.tenantId :=
            (congrArg Prod.fst hkeyStream).trans htenantEvent
          have hat : event.stream = (other.tenantId, stream.streamId) := by
            rw [← hkeyStream, ← hof]
            rfl
          refine ⟨stream, hstream, hof, event, mem_backfillEvents.mpr
            ⟨hevent, hat, ?_, (hwf.sequence_mem hevent hstream hkeyStream).2, hmatches⟩, rfl⟩
          rw [hat, ← hof, hwf.streamWatermark_of_mem hstream] at hfirst
          exact hfirst
      · intro hold
        obtain ⟨row, hrow, hid⟩ := mem_map.mp hold
        obtain ⟨registered, hregistered, hkeyRow, -⟩ := hwf.subscribed row hrow
        rw [hid] at hkeyRow
        exact hother registered hregistered hkeyRow
  · intro key hselect event hevent
    refine h.fresh key ?_ event hevent
    rw [selectSubscription_eq_none] at hselect ⊢
    intro hmem
    apply hselect
    show key ∈ (store.subscriptions ++ [persisted]).map _
    rw [map_append]
    exact mem_append_left _ hmem

/-! ## `append_event` -/

theorem lastSequence_openStream (store : Store) (event : EventCandidate) (now : Datetime) :
    (store.openStream event now).2.lastSequence =
      store.streamWatermark event.tenantId event.streamId := by
  unfold openStream streamWatermark
  cases hfind : store.findStream event.tenantId event.streamId <;> rfl

/-- An append lengthens its own stream by one. -/
theorem streamWatermark_appendEvent (hwf : store.WellFormed) {event : EventCandidate}
    {expected : Option ℕ} {result : AppendResult}
    (hcall : store.appendEvent event expected now = .ok (store', result)) {sequence : ℕ}
    (hevents : store'.events = store.events ++ [⟨event, now, sequence⟩])
    (stream : Option String × String) :
    store'.streamWatermark stream.1 stream.2 = store.streamWatermark stream.1 stream.2 +
      if (event.tenantId, event.streamId) = stream then 1 else 0 := by
  rw [(hwf.appendEvent hcall).streamWatermark_eq, hwf.streamWatermark_eq]
  unfold eventsOf
  rw [hevents, filter_append, length_append]
  congr 1
  by_cases hstream : (event.tenantId, event.streamId) = stream <;>
    simp [StoredEvent.stream, hstream]

/-- A live subscription is reached by the next event of a stream where it is due. -/
theorem materializes_iff (h : store.Materialized history)
    (hmem : subscription ∈ store.subscriptions) (hstatus : subscription.status ≠ .retired)
    {event : StoredEvent} (htenant : event.tenantId = subscription.tenantId)
    (hsequence : event.streamSequence = store.streamWatermark event.tenantId event.streamId + 1) :
    store.materializes event subscription = true ↔ eventMatches event subscription = true ∧
      subscriptionStartSequence subscription.start
        (history.watermark subscription.key event.stream) ≤ event.streamSequence := by
  unfold materializes
  rw [Bool.and_eq_true]
  refine and_congr_right fun _ => ?_
  have hstream : event.stream = (subscription.tenantId, event.streamId) := by
    rw [← htenant]
    rfl
  rw [hstream]
  cases hfind : store.findState subscription.tenantId subscription.key event.streamId with
  | some state =>
    obtain ⟨hstate, hplace⟩ := mem_of_find? hfind
    simp only [placeOf, Prod.mk.injEq] at hplace
    have hopen := h.runs subscription hmem hstatus state hstate hplace.2.1
    have hstart := h.starts state hstate subscription hmem hplace.2.1.symm
    rw [hplace.1, hplace.2.2] at hstart
    simp [hopen, hstart]
  | none =>
    have hwaits := (h.waits subscription hmem hstatus event.streamId hfind).2
    rw [decide_eq_true_eq, hsequence, Nat.add_sub_cancel, htenant]
    cases hstart : subscription.start with
    | earliest => rfl
    | atSequence startSequence positive => rfl
    | latest => rw [hwaits hstart]

theorem Materialized.appendEvent (hwf : store.WellFormed) (h : store.Materialized history)
    {event : EventCandidate} {expected : Option ℕ} {result : AppendResult}
    (hcall : store.appendEvent event expected now = .ok (store', result))
    (hretired : store.findEvent event.eventId = none → ∀ key,
      history.retired event.eventId key = (store.selectSubscription key).any (·.status == .retired)) :
    store'.Materialized history := by
  rcases appendEvent_spec hwf hcall with ⟨rfl, -⟩ | ⟨hnew, -, hstore, -⟩
  · exact h
  have hretired := hretired hnew
  obtain ⟨streams, stream, hopened, -⟩ := openStream_spec hwf event now
  have hlast := lastSequence_openStream store event now
  rw [hopened] at hstore hlast
  rw [hlast] at hstore
  set stored : StoredEvent :=
    ⟨event, now, store.streamWatermark event.tenantId event.streamId + 1⟩ with hstored
  set live := store.liveSubscriptions event.tenantId
  have hevents : store'.events = store.events ++ [stored] := by rw [hstore]; rfl
  have hsubscriptions : store'.subscriptions = store.subscriptions := by rw [hstore]; rfl
  have hstates : store'.states = store.states ++ live.flatMap (store.statesFor stored now) := by
    rw [hstore]; rfl
  have hdeliveries : store'.deliveries =
      store.deliveries ++ live.flatMap (store.rowsFor stored now) := by rw [hstore]; rfl
  have hwatermark := streamWatermark_appendEvent hwf hcall hevents
  -- a new stream state is of a live subscription that had none
  have hmade : ∀ state ∈ live.flatMap (store.statesFor stored now), ∃ subscription ∈ live,
      state = newState subscription stored now ∧
        store.findState subscription.tenantId subscription.key event.streamId = none := by
    intro state hstate
    obtain ⟨subscription, hmem, hstate⟩ := mem_flatMap.mp hstate
    obtain ⟨heq, hstarts⟩ := mem_statesFor hstate
    unfold startsHere at hstarts
    simp only [Bool.and_eq_true, Option.isNone_iff_eq_none] at hstarts
    exact ⟨subscription, hmem, heq, hstarts.1⟩
  refine ⟨?_, ?_, ?_, ?_, ?_⟩
  · rw [hstates, hsubscriptions]
    intro state hstate subscription hmem hkey
    rcases mem_append.mp hstate with hold | hnewState
    · exact h.starts state hold subscription hmem hkey
    obtain ⟨other, hother, rfl, hnone⟩ := hmade state hnewState
    obtain ⟨hotherMem, htenant, hstatus⟩ := mem_liveSubscriptions.mp hother
    obtain rfl : subscription = other :=
      inj_on_of_nodup_map hwf.subscriptionKeys hmem hotherMem hkey
    have hwaits := (h.waits subscription hmem hstatus event.streamId hnone).2
    show subscriptionStartSequence subscription.start
        (store.streamWatermark event.tenantId event.streamId + 1 - 1) =
      subscriptionStartSequence subscription.start
        (history.watermark subscription.key (subscription.tenantId, event.streamId))
    cases hstart : subscription.start with
    | earliest => rfl
    | atSequence startSequence positive => rfl
    | latest => rw [hwaits hstart, Nat.add_sub_cancel, htenant]
  · rw [hsubscriptions]
    intro subscription hmem hstatus streamId hnone
    rw [findState_eq_none, hstates, map_append, mem_append, not_or] at hnone
    have hnoneBefore := findState_eq_none.mpr hnone.1
    have hwaits := h.waits subscription hmem hstatus streamId hnoneBefore
    rw [show store'.streamWatermark subscription.tenantId streamId = _ from
      hwatermark (subscription.tenantId, streamId)]
    by_cases hstream : (event.tenantId, event.streamId) = (subscription.tenantId, streamId)
    · -- no state was made, so the subscription starts behind this event
      obtain ⟨htenant, rfl⟩ := Prod.mk.inj hstream
      have hlive : subscription ∈ live := mem_liveSubscriptions.mpr ⟨hmem, htenant.symm, hstatus⟩
      have hbehind : ¬ subscriptionStartSequence subscription.start
          (store.streamWatermark event.tenantId event.streamId) ≤
            store.streamWatermark event.tenantId event.streamId + 1 := by
        intro hle
        apply hnone.2
        have hstarts : store.startsHere stored subscription = true := by
          unfold startsHere
          rw [show store.findState subscription.tenantId subscription.key stored.streamId = none
            from hnoneBefore]
          simpa [hstored] using hle
        refine mem_map.mpr ⟨newState subscription stored now, ?_, rfl⟩
        refine mem_flatMap.mpr ⟨subscription, hlive, ?_⟩
        rw [statesFor, if_pos hstarts]
        exact mem_singleton_self _
      rw [if_pos hstream]
      rw [htenant] at hbehind
      cases hstart : subscription.start with
      | earliest | latest => simp [hstart, subscriptionStartSequence] at hbehind
      | atSequence startSequence positive =>
        rw [hstart] at hbehind
        exact ⟨Nat.not_le.mp hbehind, by simp⟩
    · rw [if_neg hstream, Nat.add_zero]
      exact hwaits
  · rw [hsubscriptions, hstates]
    intro subscription hmem hstatus state hstate hkey
    rcases mem_append.mp hstate with hold | hnewState
    · exact h.runs subscription hmem hstatus state hold hkey
    · obtain ⟨other, -, rfl, -⟩ := hmade state hnewState
      rfl
  · rw [hsubscriptions, hevents, hdeliveries]
    intro subscription hmem other hother htenant
    rw [map_append, mem_append]
    rcases mem_append.mp hother with hold | hlastEvent
    · rw [or_iff_left]
      · exact h.rows subscription hmem other hold htenant
      · -- the rows of the append are of its own event
        intro hin
        obtain ⟨row, hrow, hid⟩ := mem_map.mp hin
        obtain ⟨reached, -, hrow⟩ := mem_flatMap.mp hrow
        rw [(mem_rowsFor hrow).1] at hid
        apply findEvent_eq_none.mp hnew
        have heventId : event.eventId = other.eventId := congrArg DeliveryId.eventId hid
        exact heventId ▸ mem_map_of_mem hold
    · obtain rfl := mem_singleton.mp hlastEvent
      rw [or_iff_right (hwf.id_notMem hnew)]
      have hselect := hwf.selectSubscription_of_mem hmem
      have hflag : history.retired stored.eventId subscription.key =
          (subscription.status == .retired) := by
        rw [hretired, hselect]
        rfl
      have hrows : (⟨stored.eventId, subscription.key, 1⟩ : DeliveryId) ∈
          (live.flatMap (store.rowsFor stored now)).map Delivery.id ↔
            subscription.status ≠ .retired ∧ store.materializes stored subscription = true := by
        constructor
        · intro hin
          obtain ⟨row, hrow, hid⟩ := mem_map.mp hin
          obtain ⟨reached, hreached, hrow⟩ := mem_flatMap.mp hrow
          obtain ⟨rfl, hmat⟩ := mem_rowsFor hrow
          obtain ⟨hreachedMem, -, hstatus⟩ := mem_liveSubscriptions.mp hreached
          obtain rfl : reached = subscription := inj_on_of_nodup_map hwf.subscriptionKeys
            hreachedMem hmem (congrArg DeliveryId.subscription hid)
          exact ⟨hstatus, hmat⟩
        · rintro ⟨hstatus, hmat⟩
          refine mem_map.mpr ⟨rowFor subscription stored now 1, ?_, rfl⟩
          refine mem_flatMap.mpr
            ⟨subscription, mem_liveSubscriptions.mpr ⟨hmem, htenant.symm, hstatus⟩, ?_⟩
          rw [rowsFor, if_pos hmat]
          exact mem_singleton_self _
      rw [hrows]
      unfold History.Due
      rw [hflag]
      by_cases hstatus : subscription.status = .retired
      · simp [hstatus]
      · rw [materializes_iff h hmem hstatus htenant rfl]
        simp [hstatus]
  · rw [hevents]
    unfold selectSubscription
    rw [hsubscriptions]
    intro key hnone other hother
    rcases mem_append.mp hother with hold | hlastEvent
    · exact h.fresh key hnone other hold
    · obtain rfl := mem_singleton.mp hlastEvent
      rw [hretired, show store.selectSubscription key = none from hnone]
      rfl

/-! ## Every run -/

/-- A committed call makes the original deliveries that are due. -/
theorem Materialized.commit (hwf : store.WellFormed) (h : store.Materialized history)
    {timed : TimedCall} (hcall : store.commit timed = .ok store')
    (hwatermark : ∀ key, store.selectSubscription key = none →
      (store'.selectSubscription key).isSome → ∀ stream,
        history.watermark key stream = store.streamWatermark stream.1 stream.2)
    (hretired : ∀ eventId, store.findEvent eventId = none → (store'.findEvent eventId).isSome →
      ∀ key, history.retired eventId key =
        (store.selectSubscription key).any (·.status == .retired)) :
    store'.Materialized history := by
  obtain ⟨call, now⟩ := timed
  unfold Store.commit at hcall
  cases call <;> dsimp only at hcall <;> rcases map_fst_eq_ok.mp hcall with ⟨out, hcall⟩
  case appendEvent event expected _ =>
    refine h.appendEvent hwf hcall fun hnone => hretired event.eventId hnone ?_
    rcases appendEvent_spec hwf hcall with ⟨-, stored, hstored, hid⟩ | ⟨-, -, hstore, -⟩
    · exact absurd (mem_map_of_mem hstored) (hid ▸ findEvent_eq_none.mp hnone)
    · rw [← Option.ne_none_iff_isSome, Ne, findEvent_eq_none, hstore]
      simp [addRows, putEvent]
  case registerSubscription subscription _ =>
    refine h.registerSubscription hwf hcall fun hnone => hwatermark subscription.key hnone ?_
    rcases registerSubscription_spec hwf hcall with ⟨-, hfound⟩ | ⟨_, -, -, hdef, -, -, hstore, -⟩
    · rw [hfound] at hnone
      cases hnone
    · rw [← Option.ne_none_iff_isSome, Ne, selectSubscription_eq_none, hstore]
      simp [addRows, hdef]
  case setSubscriptionStatus => exact h.setSubscriptionStatus hcall
  case claimDeliveries => exact h.of_advances (claimDeliveries_advances hwf.deliveryIds hcall)
  case renewDeliveryLease => exact h.of_advances (renewDeliveryLease_advances hwf.deliveryIds hcall)
  case settleDelivery => exact h.of_advances (settleDelivery_advances hwf.deliveryIds hcall)
  case requeueDeadLetter => exact h.requeueDeadLetter hwf hcall
  case resolveDeadLetter => exact h.of_advances (resolveDeadLetter_advances hcall)
  case beginRedelivery => exact h.beginRedelivery hwf hcall
  case cancelRetiredSubscription =>
    exact h.of_advances (cancelRetiredSubscription_advances hwf.deliveryIds hcall)

/-- The subscriptions and the events of the first tables are in the second. -/
def Keeps (store store' : Store) : Prop :=
  (store.subscriptions.map fun subscription => subscription.key) ⊆
      (store'.subscriptions.map fun subscription => subscription.key) ∧
    store.events ⊆ store'.events

/-- No call takes a subscription or an event away, and it lets rows advance or adds rows. -/
theorem commit_grows (hwf : store.WellFormed) {timed : TimedCall}
    (hcall : store.commit timed = .ok store') :
    Keeps store store' ∧ (Advances store store' ∨ store.deliveries ⊆ store'.deliveries) := by
  obtain ⟨call, now⟩ := timed
  have hadvance : Advances store store' →
      Keeps store store' ∧ (Advances store store' ∨ store.deliveries ⊆ store'.deliveries) := by
    intro hadv
    unfold Keeps
    rw [hadv.subscriptions, hadv.events]
    exact ⟨⟨List.Subset.refl _, List.Subset.refl _⟩, Or.inl hadv⟩
  unfold Store.commit at hcall
  cases call <;> dsimp only at hcall <;> rcases map_fst_eq_ok.mp hcall with ⟨out, hcall⟩
  case appendEvent event expected _ =>
    rcases appendEvent_spec hwf hcall with ⟨rfl, -⟩ | ⟨-, -, hstore, -⟩
    · exact hadvance (Advances.of_eq rfl rfl rfl rfl rfl rfl)
    obtain ⟨streams, stream, hopened, -⟩ := openStream_spec hwf event now
    rw [hstore, hopened]
    exact ⟨⟨List.Subset.refl _, subset_append_left _ _⟩, Or.inr (subset_append_left _ _)⟩
  case registerSubscription =>
    rcases registerSubscription_spec hwf hcall with ⟨rfl, -⟩ | ⟨_, -, -, -, -, -, rfl, -⟩
    · exact hadvance (Advances.of_eq rfl rfl rfl rfl rfl rfl)
    · exact ⟨⟨map_subset _ (subset_append_left _ _), List.Subset.refl _⟩,
        Or.inr (subset_append_left _ _)⟩
  case setSubscriptionStatus =>
    obtain ⟨_, _, -, -, -, -, rfl⟩ := setSubscriptionStatus_spec hcall
    refine ⟨⟨?_, List.Subset.refl _⟩, Or.inr (List.Subset.refl _)⟩
    rw [map_key_replace]
    exact List.Subset.refl _
  case claimDeliveries => exact hadvance (claimDeliveries_advances hwf.deliveryIds hcall)
  case renewDeliveryLease => exact hadvance (renewDeliveryLease_advances hwf.deliveryIds hcall)
  case settleDelivery => exact hadvance (settleDelivery_advances hwf.deliveryIds hcall)
  case requeueDeadLetter =>
    obtain ⟨_, _, _, -, -, -, -, -, -, -, rfl⟩ := requeueDeadLetter_spec hcall
    exact ⟨⟨List.Subset.refl _, List.Subset.refl _⟩, Or.inr (subset_append_left _ _)⟩
  case resolveDeadLetter => exact hadvance (resolveDeadLetter_advances hcall)
  case beginRedelivery =>
    rcases beginRedelivery_spec hwf hcall with rfl | ⟨_, _, -, -, -, -, -, hstore⟩
    · exact hadvance (Advances.of_eq rfl rfl rfl rfl rfl rfl)
    · rw [hstore]
      exact ⟨⟨List.Subset.refl _, List.Subset.refl _⟩, Or.inr (subset_append_left _ _)⟩
  case cancelRetiredSubscription =>
    exact hadvance (cancelRetiredSubscription_advances hwf.deliveryIds hcall)

end Calls

theorem WellFormed.step {store : Store} (h : store.WellFormed) (timed : TimedCall) :
    (Store.step store timed).WellFormed := by
  unfold Store.step
  cases hcall : store.commit timed with
  | error e => exact h
  | ok store' => exact h.commit hcall

theorem selectSubscription_step {store : Store} (hwf : store.WellFormed) (timed : TimedCall)
    (h : (store.selectSubscription key).isSome = true) :
    ((step store timed).selectSubscription key).isSome = true := by
  unfold step
  cases hcall : store.commit timed with
  | error e => exact h
  | ok store' =>
    rw [← Option.ne_none_iff_isSome, Ne, selectSubscription_eq_none, not_not] at h ⊢
    exact (commit_grows hwf hcall).1.1 h

theorem findEvent_step {store : Store} (hwf : store.WellFormed) (timed : TimedCall)
    {eventId : String} (h : (store.findEvent eventId).isSome = true) :
    ((step store timed).findEvent eventId).isSome = true := by
  unfold step
  cases hcall : store.commit timed with
  | error e => exact h
  | ok store' =>
    rw [← Option.ne_none_iff_isSome, Ne, findEvent_eq_none, not_not] at h ⊢
    exact map_subset _ (commit_grows hwf hcall).1.2 h

/-- Every state that a run reaches has the original deliveries that are due. -/
theorem materialized_run (calls : List TimedCall) :
    Materialized (StepRuns.run step {} calls) (History.ofRun calls) := by
  induction calls using List.reverseRecOn with
  | nil => exact materialized_empty _
  | append_singleton calls timed ih =>
    have hwf := wellFormed_run calls
    set store := StepRuns.run step {} calls with hstore
    have hrun : StepRuns.run step {} (calls ++ [timed]) = step store timed := by
      rw [run_append]
      rfl
    -- what was settled before the call stays as it was
    have hold : store.Materialized (History.ofRun (calls ++ [timed])) := by
      refine ih.congr (fun subscription hmem => ?_) fun event hevent => ?_
      · unfold History.ofRun
        funext stream
        dsimp only
        rw [beforeFirst_concat_of_true rfl
          (by rw [← hstore, hwf.selectSubscription_of_mem hmem]; rfl)]
      · unfold History.ofRun
        funext key
        dsimp only
        rw [beforeFirst_concat_of_true rfl
          (by rw [← hstore, hwf.findEvent_of_mem hevent]; rfl)]
    rw [hrun]
    cases hcall : store.commit timed with
    | error e =>
      have hsame : step store timed = store := by rw [step, hcall]
      rw [hsame]
      exact hold
    | ok store' =>
      have hnext : step store timed = store' := by rw [step, hcall]
      rw [hnext]
      refine hold.commit hwf hcall (fun key hnone hsome stream => ?_) fun eventId hnone hsome key => ?_
      · unfold History.ofRun
        dsimp only
        rw [beforeFirst_concat_of_false (I := WellFormed) (fun _ timed h => h.step timed)
          (fun _ timed h => selectSubscription_step h timed) wellFormed_empty
          (by rw [← hstore, hnone]; rfl) (by rw [hrun, hnext]; exact hsome)]
      · unfold History.ofRun
        dsimp only
        rw [beforeFirst_concat_of_false (I := WellFormed) (fun _ timed h => h.step timed)
          (fun _ timed h => findEvent_step h timed) wellFormed_empty
          (by rw [← hstore, hnone]; rfl) (by rw [hrun, hnext]; exact hsome)]

/-- In every state that a run reaches stream sequences are dense from one, and an event has one
original delivery to a subscription of its tenant where it is due, and none elsewhere. -/
theorem materialized_once (calls : List TimedCall) : let store := StepRuns.run step {} calls
    (∀ stream, (store.eventsOf stream).map StoredEvent.streamSequence =
      List.range' 1 (store.eventsOf stream).length) ∧
    ∀ subscription ∈ store.subscriptions, ∀ event ∈ store.events,
      event.tenantId = subscription.tenantId →
        (store.deliveries.filter fun row =>
            row.id = (⟨event.eventId, subscription.key, 1⟩ : DeliveryId)).length =
          if (History.ofRun calls).Due subscription event then 1 else 0 := by
  intro store
  have hwf : store.WellFormed := wellFormed_run calls
  refine ⟨hwf.dense, fun subscription hmem event hevent htenant => ?_⟩
  have hrows := (materialized_run calls).rows subscription hmem event hevent htenant
  have hcount : (store.deliveries.filter fun row =>
      row.id = (⟨event.eventId, subscription.key, 1⟩ : DeliveryId)).length =
        (store.deliveries.map Delivery.id).count ⟨event.eventId, subscription.key, 1⟩ := by
    rw [← countP_eq_length_filter, count_eq_countP, countP_map]
    refine countP_congr fun row _ => ?_
    simp
  rw [hcount, List.Nodup.count hwf.deliveryIds]
  by_cases hdue : (History.ofRun calls).Due subscription event
  · rw [if_pos hdue, if_pos (hrows.mpr hdue)]
  · rw [if_neg hdue, if_neg fun hin => hdue (hrows.mp hin)]

end Store

end EventStore
