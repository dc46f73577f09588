/-
# The tables stay well formed

Events are numbered from one in each stream, names are distinct, and every delivery is
of a stored event and a registered subscription of one tenant: what the unique and the
foreign keys of the schema ask for.  Every committed call keeps this.
-/
import AgoraHub.EventStoreAppends

namespace EventStore

open Fallible Datetime List KeyedList DurableSubscription

/-- A delivery lies where its event lies. -/
structure Delivery.Of (row : Delivery) (event : StoredEvent) : Prop where
  eventId : row.id.eventId = event.eventId
  tenantId : row.tenantId = event.tenantId
  streamId : row.streamId = event.streamId
  streamSequence : row.streamSequence = event.streamSequence

/-- The key of a stream. -/
def StreamRow.key (row : StreamRow) : Option String × String := (row.tenantId, row.streamId)

/-- The stream of an event. -/
def StoredEvent.stream (event : StoredEvent) : Option String × String :=
  (event.tenantId, event.streamId)

/-- The primary key of a stream state. -/
def SubscriptionStreamState.place (state : SubscriptionStreamState) :
    Option String × SubscriptionKey × String :=
  (state.tenantId, state.subscription, state.streamId)

theorem flatMap_if {α β : Type*} (p : α → Bool) (f : α → β) (xs : List α) :
    xs.flatMap (fun x => if p x = true then [f x] else []) = (xs.filter p).map f := by
  induction xs with
  | nil => rfl
  | cons x xs ih =>
    rw [flatMap_cons, ih]
    by_cases hx : p x = true <;> simp [hx]

variable {subscription updated : DurableSubscription} {key : SubscriptionKey} {event : StoredEvent}
variable {tenantId : Option String}

namespace Store

/-- The events of a stream, in the order of their insertion. -/
def eventsOf (store : Store) (stream : Option String × String) : List StoredEvent :=
  store.events.filter (·.stream == stream)

/-- What the keys of the schema ask for, and dense stream sequences. -/
structure WellFormed (store : Store) : Prop where
  eventIds : (store.events.map fun event => event.eventId).Nodup
  streamKeys : (store.streams.map StreamRow.key).Nodup
  sequences : ∀ stream ∈ store.streams, 1 ≤ stream.lastSequence ∧
    (store.eventsOf stream.key).map StoredEvent.streamSequence = List.range' 1 stream.lastSequence
  streamOf : ∀ event ∈ store.events, ∃ stream ∈ store.streams, stream.key = event.stream
  subscriptionKeys : (store.subscriptions.map fun subscription => subscription.key).Nodup
  deliveryIds : store.DistinctIds
  placed : ∀ row ∈ store.deliveries, ∃ event ∈ store.events, row.Of event
  subscribed : ∀ row ∈ store.deliveries, ∃ subscription ∈ store.subscriptions,
    subscription.key = row.id.subscription ∧ subscription.tenantId = row.tenantId
  generations : ∀ row ∈ store.deliveries, 1 ≤ row.id.deliveryGeneration
  stateKeys : (store.states.map SubscriptionStreamState.place).Nodup
  stateOf : ∀ state ∈ store.states, ∃ subscription ∈ store.subscriptions,
    subscription.key = state.subscription ∧ subscription.tenantId = state.tenantId
  deadLetters : store.DeadLettersPlaced

theorem wellFormed_empty : WellFormed {} where
  eventIds := nodup_nil
  streamKeys := nodup_nil
  sequences := by simp
  streamOf := by simp
  subscriptionKeys := nodup_nil
  deliveryIds := nodup_nil
  placed := by simp
  subscribed := by simp
  generations := by simp
  stateKeys := nodup_nil
  stateOf := by simp
  deadLetters := by simp [DeadLettersPlaced]

namespace WellFormed

variable {store store' : Store}

/-- The deliveries advance. -/
theorem of_advances (h : store.WellFormed) (hadv : Advances store store') : store'.WellFormed where
  eventIds := hadv.events ▸ h.eventIds
  streamKeys := hadv.streams ▸ h.streamKeys
  sequences := by
    unfold eventsOf
    rw [hadv.streams, hadv.events]
    exact h.sequences
  streamOf := by
    rw [hadv.streams, hadv.events]
    exact h.streamOf
  subscriptionKeys := hadv.subscriptions ▸ h.subscriptionKeys
  deliveryIds := hadv.distinctIds h.deliveryIds
  placed := fun row' hrow' => by
    obtain ⟨row, hrow, hrowAdv⟩ := hadv.of_mem hrow'
    obtain ⟨event, hevent, hof⟩ := h.placed row hrow
    exact ⟨event, hadv.events ▸ hevent, by rw [hrowAdv.id]; exact hof.eventId,
      hrowAdv.tenantId.trans hof.tenantId, hrowAdv.streamId.trans hof.streamId,
      hrowAdv.streamSequence.trans hof.streamSequence⟩
  subscribed := fun row' hrow' => by
    obtain ⟨row, hrow, hrowAdv⟩ := hadv.of_mem hrow'
    rw [hrowAdv.id, hrowAdv.tenantId, hadv.subscriptions]
    exact h.subscribed row hrow
  generations := fun row' hrow' => by
    obtain ⟨row, hrow, hrowAdv⟩ := hadv.of_mem hrow'
    rw [hrowAdv.id]
    exact h.generations row hrow
  stateKeys := hadv.states ▸ h.stateKeys
  stateOf := by
    rw [hadv.states, hadv.subscriptions]
    exact h.stateOf
  deadLetters := hadv.deadLetters h.deadLetters

/-! ## What the keys give -/

theorem selectSubscription_of_mem (h : store.WellFormed)
    (hmem : subscription ∈ store.subscriptions) :
    store.selectSubscription subscription.key = some subscription :=
  find?_of_mem h.subscriptionKeys hmem

theorem mem_of_selectSubscription (h : store.selectSubscription key = some subscription) :
    subscription ∈ store.subscriptions ∧ subscription.key = key := mem_of_find? h

section

variable (h : store.WellFormed)

include h

/-- The subscription of a delivery is the one that is selected for it. -/
theorem tenantId_of_selectSubscription {row : Delivery} (hrow : row ∈ store.deliveries)
    (hselect : store.selectSubscription row.id.subscription = some subscription) :
    row.tenantId = subscription.tenantId := by
  obtain ⟨other, hother, hkey, htenant⟩ := h.subscribed row hrow
  have hfound := h.selectSubscription_of_mem hother
  rw [hkey, hselect] at hfound
  cases hfound
  exact htenant.symm

theorem findEvent_of_mem (hmem : event ∈ store.events) :
    store.findEvent event.eventId = some event :=
  find?_of_mem h.eventIds hmem

theorem event_inj {other : StoredEvent} (hevent : event ∈ store.events)
    (hother : other ∈ store.events) (heq : event.eventId = other.eventId) : event = other :=
  inj_on_of_nodup_map h.eventIds hevent hother heq

/-- An event lies between the first sequence of its stream and the last. -/
theorem sequence_mem (hevent : event ∈ store.events) {stream : StreamRow}
    (hstream : stream ∈ store.streams) (hkey : stream.key = event.stream) :
    1 ≤ event.streamSequence ∧ event.streamSequence ≤ stream.lastSequence := by
  have hmem : event.streamSequence ∈ (store.eventsOf stream.key).map StoredEvent.streamSequence :=
    mem_map_of_mem (mem_filter.mpr ⟨hevent, by simp [hkey]⟩)
  rw [(h.sequences stream hstream).2, mem_range'_1] at hmem
  omega

/-- Two events of one stream have different sequences. -/
theorem sequence_inj {other : StoredEvent} (hevent : event ∈ store.events)
    (hother : other ∈ store.events) (hstream : event.stream = other.stream)
    (heq : event.streamSequence = other.streamSequence) : event = other := by
  obtain ⟨stream, hmem, hkey⟩ := h.streamOf event hevent
  have hnodup : ((store.eventsOf stream.key).map StoredEvent.streamSequence).Nodup := by
    rw [(h.sequences stream hmem).2]
    exact nodup_range'
  apply inj_on_of_nodup_map hnodup _ _ heq
  · exact mem_filter.mpr ⟨hevent, by simp [hkey]⟩
  · exact mem_filter.mpr ⟨hother, by simp [hkey, hstream]⟩

/-- Two deliveries of one subscription and generation at one sequence of a stream are the same. -/
theorem delivery_inj {row other : Delivery} (hrow : row ∈ store.deliveries)
    (hother : other ∈ store.deliveries) (hsubscription : row.id.subscription = other.id.subscription)
    (hgeneration : row.id.deliveryGeneration = other.id.deliveryGeneration)
    (htenant : row.tenantId = other.tenantId) (hstream : row.streamId = other.streamId)
    (hsequence : row.streamSequence = other.streamSequence) : row = other := by
  obtain ⟨event, hevent, hof⟩ := h.placed row hrow
  obtain ⟨event', hevent', hof'⟩ := h.placed other hother
  have hstreams : event.stream = event'.stream := by
    unfold StoredEvent.stream
    rw [← hof.tenantId, ← hof'.tenantId, ← hof.streamId, ← hof'.streamId, htenant, hstream]
  have hsame := h.sequence_inj hevent hevent' hstreams
    (by rw [← hof.streamSequence, ← hof'.streamSequence, hsequence])
  apply inj_on_of_nodup_map h.deliveryIds hrow hother
  have heventId : row.id.eventId = other.id.eventId := by
    rw [hof.eventId, hof'.eventId, hsame]
  cases hid : row.id
  cases hid' : other.id
  rw [hid] at heventId hsubscription hgeneration
  rw [hid'] at heventId hsubscription hgeneration
  simp_all

/-- The streams of the tables are the streams of their events. -/
theorem findStream_eq_none {streamId : String} (hnone : store.findStream tenantId streamId = none) :
    store.eventsOf (tenantId, streamId) = [] := by
  rw [eventsOf, filter_eq_nil_iff]
  intro event hevent heq
  obtain ⟨stream, hstream, hkey⟩ := h.streamOf event hevent
  unfold findStream KeyedList.find? at hnone
  have := find?_eq_none.mp hnone stream hstream
  apply this
  have hboth : stream.key = (tenantId, streamId) := hkey.trans (by simpa using heq)
  simpa [StreamRow.key] using hboth

/-- Stream sequences are dense from one, in every stream. -/
theorem dense (stream : Option String × String) :
    (store.eventsOf stream).map StoredEvent.streamSequence =
      List.range' 1 (store.eventsOf stream).length := by
  by_cases hstream : ∃ row ∈ store.streams, row.key = stream
  · obtain ⟨row, hrow, rfl⟩ := hstream
    have hseq := (h.sequences row hrow).2
    have hlength := congrArg List.length hseq
    rw [length_map, length_range'] at hlength
    rw [hseq, hlength]
  · have hnone : store.eventsOf stream = [] := by
      rw [eventsOf, filter_eq_nil_iff]
      intro event hevent heq
      obtain ⟨row, hrow, hkey⟩ := h.streamOf event hevent
      exact hstream ⟨row, hrow, hkey.trans (by simpa using heq)⟩
    simp [hnone]

end

end WellFormed

/-! ## `set_subscription_status` -/

/-- What a change of status does to a stream state. -/
def StateRetires (key : SubscriptionKey) (status : SubscriptionStatus)
    (current : DurableSubscription) (state state' : SubscriptionStreamState) : Prop :=
  state' = state ∨ (state.subscription = key ∧ status = .retired ∧ current.status ≠ .retired ∧
    ∃ watermark changedAt,
      state' = { state with retirementWatermark := watermark, updatedAt := changedAt })

/-- What a change of status does: it is written, and retirement closes the stream states. -/
theorem setSubscriptionStatus_spec {store store' : Store} {status : SubscriptionStatus}
    {changedAt : Datetime} {reason : String}
    (h : store.setSubscriptionStatus key status changedAt reason = .ok (store', updated)) :
    ∃ current states, store.selectSubscription key = some current ∧
      (current.status = .retired → status = .retired) ∧
      List.Forall₂ (StateRetires key status current) store.states states ∧
      updated = { current with status := status, updatedAt := some changedAt } ∧
      store' = { store with
        states := states
        subscriptions := KeyedList.replace (fun row : DurableSubscription => row.key)
          store.subscriptions updated } := by
  unfold setSubscriptionStatus at h
  obtain ⟨-, h⟩ := check_inv h
  obtain ⟨current, hselect, h⟩ := bind_inv h
  obtain ⟨-, h⟩ := check_inv h
  obtain ⟨hfinal, h⟩ := check_inv h
  have hsame : List.Forall₂ (StateRetires key status current) store.states store.states :=
    forall₂_same.mpr fun state _ => Or.inl rfl
  split at h
  · rename_i hretire
    obtain ⟨mid, hmid, h⟩ := bind_inv h
    obtain ⟨states, hstates, hmid⟩ := bind_inv hmid
    cases hmid
    obtain ⟨-, h⟩ := check_inv h
    cases h
    refine ⟨current, states, orRaise_eq_ok.mp hselect, of_require hfinal, ?_, rfl, rfl⟩
    refine (forall₂_of_mapM hstates).imp fun state state' hstate => ?_
    split at hstate
    · rename_i hkey
      iterate 2 rcases check_inv hstate with ⟨-, hstate⟩
      exact Or.inr ⟨hkey, hretire.1, hretire.2, _, _, (ok_inj hstate).symm⟩
    · exact Or.inl (ok_inj hstate).symm
  · obtain ⟨-, h⟩ := check_inv h
    cases h
    exact ⟨current, store.states, orRaise_eq_ok.mp hselect, of_require hfinal, hsame, rfl, rfl⟩

namespace WellFormed

variable {store store' : Store}

/-- The same rows, with other columns of subscriptions and stream states. -/
theorem of_same (h : store.WellFormed) (streams : store'.streams = store.streams)
    (events : store'.events = store.events)
    (subscriptions : store'.subscriptions.map toSubscriptionDefinition =
      store.subscriptions.map toSubscriptionDefinition)
    (states : store'.states.map SubscriptionStreamState.place =
      store.states.map SubscriptionStreamState.place)
    (deliveries : store'.deliveries = store.deliveries)
    (deadLetters : store'.deadLetters = store.deadLetters) : store'.WellFormed := by
  have hfind : ∀ subscription ∈ store.subscriptions, ∃ subscription' ∈ store'.subscriptions,
      subscription'.toSubscriptionDefinition = subscription.toSubscriptionDefinition := by
    intro subscription hmem
    have hdef := mem_map_of_mem (f := toSubscriptionDefinition) hmem
    rw [← subscriptions] at hdef
    exact mem_map.mp hdef
  have hkeys : store'.subscriptions.map (fun subscription => subscription.key) =
      store.subscriptions.map fun subscription => subscription.key := by
    have := congrArg (List.map SubscriptionDefinition.key) subscriptions
    rwa [map_map, map_map] at this
  refine ⟨events ▸ h.eventIds, streams ▸ h.streamKeys, ?_, ?_, hkeys ▸ h.subscriptionKeys, ?_, ?_,
    ?_, ?_, states ▸ h.stateKeys, ?_, ?_⟩
  · unfold eventsOf
    rw [streams, events]
    exact h.sequences
  · rw [streams, events]
    exact h.streamOf
  · unfold DistinctIds
    rw [deliveries]
    exact h.deliveryIds
  · rw [deliveries, events]
    exact h.placed
  · rw [deliveries]
    intro row hrow
    obtain ⟨subscription, hmem, hkey, htenant⟩ := h.subscribed row hrow
    obtain ⟨subscription', hmem', heq⟩ := hfind subscription hmem
    exact ⟨subscription', hmem', by rw [heq]; exact hkey, by rw [heq]; exact htenant⟩
  · rw [deliveries]
    exact h.generations
  · intro state' hstate'
    have hplace := mem_map_of_mem (f := SubscriptionStreamState.place) hstate'
    rw [states] at hplace
    obtain ⟨state, hstate, heq⟩ := mem_map.mp hplace
    obtain ⟨subscription, hmem, hkey, htenant⟩ := h.stateOf state hstate
    obtain ⟨subscription', hmem', hdef⟩ := hfind subscription hmem
    unfold SubscriptionStreamState.place at heq
    simp only [Prod.mk.injEq] at heq
    exact ⟨subscription', hmem', by rw [hdef, hkey]; exact heq.2.1, by rw [hdef, htenant]; exact heq.1⟩
  · unfold DeadLettersPlaced
    rw [deadLetters, deliveries]
    exact h.deadLetters

/-- A replaced subscription keeps what was registered. -/
theorem map_definition_replace (h : store.WellFormed) {current : DurableSubscription}
    (hselect : store.selectSubscription key = some current)
    (hdef : updated.toSubscriptionDefinition = current.toSubscriptionDefinition) :
    (KeyedList.replace (fun row : DurableSubscription => row.key) store.subscriptions updated).map
        toSubscriptionDefinition =
      store.subscriptions.map toSubscriptionDefinition := by
  refine KeyedList.map_replace fun row hrow hkey => ?_
  have hcurrent : row = current := inj_on_of_nodup_map h.subscriptionKeys hrow
    (mem_of_selectSubscription hselect).1 (by rw [hkey, hdef])
  rw [hdef, hcurrent]

theorem setSubscriptionStatus (h : store.WellFormed) {status : SubscriptionStatus}
    {changedAt : Datetime} {reason : String}
    (hcall : store.setSubscriptionStatus key status changedAt reason = .ok (store', updated)) :
    store'.WellFormed := by
  obtain ⟨current, states, hselect, -, hstates, rfl, rfl⟩ := setSubscriptionStatus_spec hcall
  refine h.of_same rfl rfl (h.map_definition_replace hselect rfl) ?_ rfl rfl
  refine RelatedLists.map_eq (fun state state' hstate => ?_) hstates
  rcases hstate with rfl | ⟨-, -, -, watermark, changedAt, rfl⟩ <;> rfl

end WellFormed

/-! ## `append_event` -/

/-- The subscriptions that an append inserts for. -/
def liveSubscriptions (store : Store) (tenantId : Option String) : List DurableSubscription :=
  (store.subscriptions.filter fun subscription =>
    subscription.tenantId == tenantId && subscription.status != .retired).insertionSort
    subscriptionLe

theorem mem_liveSubscriptions {store : Store} : subscription ∈ store.liveSubscriptions tenantId ↔
      subscription ∈ store.subscriptions ∧ subscription.tenantId = tenantId ∧
        subscription.status ≠ .retired := by
  unfold liveSubscriptions
  rw [(perm_insertionSort subscriptionLe _).mem_iff, mem_filter]
  simp

theorem nodup_liveSubscriptions {store : Store} (h : store.WellFormed) (tenantId : Option String) :
    ((store.liveSubscriptions tenantId).map fun subscription => subscription.key).Nodup := by
  unfold liveSubscriptions
  rw [((perm_insertionSort subscriptionLe _).map _).nodup_iff]
  exact h.subscriptionKeys.sublist (filter_sublist.map _)

/-- The tables with an event at the end of its stream. -/
def putEvent (store : Store) (stream : StreamRow) (event : StoredEvent) : Store :=
  { store with
    streams := KeyedList.replace (fun row : StreamRow => (row.tenantId, row.streamId))
      store.streams { stream with
        lastSequence := event.streamSequence, updatedAt := event.observedAt }
    events := store.events ++ [event] }

/-- The row that an append writes to: one of the table, or a new one of an empty stream. -/
theorem openStream_spec {store : Store} (hwf : store.WellFormed) (event : EventCandidate)
    (now : Datetime) : ∃ streams stream,
      store.openStream event now = ({ store with streams := streams }, stream) ∧
      stream ∈ streams ∧ stream.key = (event.tenantId, event.streamId) ∧
      (streams.map StreamRow.key).Nodup ∧
      (∀ row ∈ streams, row.key ≠ stream.key → row ∈ store.streams) ∧ store.streams ⊆ streams ∧
      ((stream ∈ store.streams) ∨ (stream = ⟨event.tenantId, event.streamId, 0, now, now⟩ ∧
          store.eventsOf (event.tenantId, event.streamId) = [])) := by
  unfold openStream
  cases hfind : store.findStream event.tenantId event.streamId with
  | some stream =>
    obtain ⟨hmem, hkey⟩ := mem_of_find? hfind
    exact ⟨store.streams, stream, rfl, hmem, hkey, hwf.streamKeys, fun row hrow _ => hrow,
      List.Subset.refl _, Or.inl hmem⟩
  | none =>
    have hempty := hwf.findStream_eq_none hfind
    have hfresh : (event.tenantId, event.streamId) ∉ store.streams.map StreamRow.key := by
      intro hmem
      obtain ⟨row, hrow, hkey⟩ := mem_map.mp hmem
      unfold findStream KeyedList.find? at hfind
      exact find?_eq_none.mp hfind row hrow (by simpa [StreamRow.key] using hkey)
    refine ⟨_, _, rfl, by simp, rfl, ?_, ?_, subset_append_left _ _, Or.inr ⟨rfl, hempty⟩⟩
    · rw [map_append, nodup_append]
      refine ⟨hwf.streamKeys, by simp, ?_⟩
      rintro key hkey _ hsingle rfl
      obtain rfl : key = (event.tenantId, event.streamId) := by simpa [StreamRow.key] using hsingle
      exact hfresh hkey
    · intro row hrow hne
      rcases mem_append.mp hrow with hold | hnew
      · exact hold
      · obtain rfl := mem_singleton.mp hnew
        exact absurd rfl hne

/-- What an append of a new event does. -/
theorem appendEvent_spec {store store' : Store} (hwf : store.WellFormed) {event : EventCandidate}
    {expected : Option ℕ} {now : Datetime} {result : AppendResult}
    (h : store.appendEvent event expected now = .ok (store', result)) :
    (store' = store ∧ ∃ stored ∈ store.events, stored.eventId = event.eventId) ∨
      let opened := (store.openStream event now).1
      let stream := (store.openStream event now).2
      let stored : StoredEvent := ⟨event, now, stream.lastSequence + 1⟩
      let live := store.liveSubscriptions event.tenantId
      store.findEvent event.eventId = none ∧ TextLe stream.createdAt now ∧
        store' = (opened.putEvent stream stored).addRows (live.flatMap (store.statesFor stored now))
          (live.flatMap (store.rowsFor stored now)) ∧
        ∀ subscription ∈ live, store.materializes stored subscription = true →
          store.pendingCapacityExhausted subscription = false := by
  unfold appendEvent at h
  split at h
  · rename_i stored hfind
    obtain ⟨-, h⟩ := check_inv h
    obtain ⟨rfl, -⟩ := Prod.mk.inj (ok_inj h)
    obtain ⟨hmem, hid⟩ := mem_of_find? hfind
    exact Or.inl ⟨rfl, stored, hmem, hid⟩
  · rename_i hnone
    right
    obtain ⟨streams, stream, hopened, -⟩ := openStream_spec hwf event now
    rw [hopened] at h ⊢
    obtain ⟨-, h⟩ := check_inv h
    obtain ⟨htime, h⟩ := check_inv h
    obtain ⟨⟨final, pending⟩, hfold, h⟩ := bind_inv h
    obtain ⟨rfl, -⟩ := Prod.mk.inj (ok_inj h)
    have hnew : ∀ subscription ∈ store.liveSubscriptions event.tenantId,
        store.findDelivery ⟨event.eventId, subscription.key, 1⟩ = none := by
      intro subscription _
      rw [findDelivery, KeyedList.find?, find?_eq_none]
      intro row hrow heq
      obtain ⟨placed, hplaced, hof⟩ := hwf.placed row hrow
      have hid : row.id = ⟨event.eventId, subscription.key, 1⟩ := by simpa using heq
      rw [findEvent, KeyedList.find?, find?_eq_none] at hnone
      apply hnone placed hplaced
      simp [← hof.eventId, hid]
    rcases materializeAll_spec (nodup_liveSubscriptions hwf event.tenantId) hnew hfold with
      ⟨hstore, hcapacity⟩
    exact ⟨hnone, of_require htime, hstore, hcapacity⟩

namespace WellFormed

variable {store : Store}

/-- Stream states and deliveries with new keys, of registered subscriptions and stored events. -/
theorem addRows (h : store.WellFormed) {states : List SubscriptionStreamState}
    {rows : List Delivery} (hstates : (states.map SubscriptionStreamState.place).Nodup)
    (hnewStates : ∀ state ∈ states, state.place ∉ store.states.map SubscriptionStreamState.place)
    (hstateOf : ∀ state ∈ states, ∃ subscription ∈ store.subscriptions,
      subscription.key = state.subscription ∧ subscription.tenantId = state.tenantId)
    (hrows : (rows.map Delivery.id).Nodup)
    (hnewRows : ∀ row ∈ rows, row.id ∉ store.deliveries.map Delivery.id)
    (hplaced : ∀ row ∈ rows, ∃ event ∈ store.events, row.Of event)
    (hsubscribed : ∀ row ∈ rows, ∃ subscription ∈ store.subscriptions,
      subscription.key = row.id.subscription ∧ subscription.tenantId = row.tenantId)
    (hgenerations : ∀ row ∈ rows, 1 ≤ row.id.deliveryGeneration) :
    (store.addRows states rows).WellFormed where
  eventIds := h.eventIds
  streamKeys := h.streamKeys
  sequences := h.sequences
  streamOf := h.streamOf
  subscriptionKeys := h.subscriptionKeys
  deliveryIds := by
    show ((store.deliveries ++ rows).map Delivery.id).Nodup
    rw [map_append, nodup_append]
    refine ⟨h.deliveryIds, hrows, fun id hold _ hnew heq => ?_⟩
    obtain ⟨row, hrow, rfl⟩ := mem_map.mp hnew
    exact hnewRows row hrow (heq ▸ hold)
  placed := fun row hrow => (mem_append.mp hrow).elim (h.placed row) (hplaced row)
  subscribed := fun row hrow => (mem_append.mp hrow).elim (h.subscribed row) (hsubscribed row)
  generations := fun row hrow =>
    (mem_append.mp hrow).elim (h.generations row) (hgenerations row)
  stateKeys := by
    show ((store.states ++ states).map SubscriptionStreamState.place).Nodup
    rw [map_append, nodup_append]
    refine ⟨h.stateKeys, hstates, fun place hold _ hnew heq => ?_⟩
    obtain ⟨state, hstate, rfl⟩ := mem_map.mp hnew
    exact hnewStates state hstate (heq ▸ hold)
  stateOf := fun state hstate => (mem_append.mp hstate).elim (h.stateOf state) (hstateOf state)
  deadLetters := fun record hrecord => by
    obtain ⟨row, hrow, hof⟩ := h.deadLetters record hrecord
    exact ⟨row, mem_append_left _ hrow, hof⟩

theorem eventsOf_putEvent (opened : Store) (stream : StreamRow) (event : StoredEvent)
    (key : Option String × String) : (opened.putEvent stream event).eventsOf key =
      opened.eventsOf key ++ if event.stream = key then [event] else [] := by
  unfold eventsOf putEvent
  rw [filter_append]
  congr 1
  by_cases hkey : event.stream = key <;> simp [hkey]

/-- An event at the end of its stream. -/
theorem putEvent (h : store.WellFormed) {event : EventCandidate} (now : Datetime)
    (hnew : store.findEvent event.eventId = none) : let opened := (store.openStream event now).1
    let stream := (store.openStream event now).2
    (opened.putEvent stream ⟨event, now, stream.lastSequence + 1⟩).WellFormed := by
  rcases openStream_spec h event now with
    ⟨streams, stream, hopened, hmem, hkey, hnodup, hothers, hsub, hstream⟩
  rw [hopened]
  set stored : StoredEvent := ⟨event, now, stream.lastSequence + 1⟩
  set opened : Store := { store with streams := streams }
  have hstored : stored.stream = stream.key := hkey.symm
  -- the sequences before the event
  have hbefore : (store.eventsOf stream.key).map StoredEvent.streamSequence =
      List.range' 1 stream.lastSequence := by
    rcases hstream with hold | ⟨rfl, hempty⟩
    · exact (h.sequences stream hold).2
    · rw [hkey, hempty]
      rfl
  have hreplaced : ∀ row ∈ (opened.putEvent stream stored).streams,
      row = { stream with lastSequence := stream.lastSequence + 1, updatedAt := now } ∨
        (row ∈ store.streams ∧ row.key ≠ stream.key) := by
    intro row hrow
    rcases mem_replace_iff.mp hrow with ⟨rfl, -⟩ | ⟨hold, hne⟩
    · exact Or.inl rfl
    · exact Or.inr ⟨hothers row hold hne, hne⟩
  have hkept : ∀ row ∈ store.streams, ∃ row' ∈ (opened.putEvent stream stored).streams,
      row'.key = row.key := by
    intro row hrow
    have hkeys : (opened.putEvent stream stored).streams.map StreamRow.key =
        streams.map StreamRow.key := map_key_replace _ _
    have hrow := mem_map_of_mem (f := StreamRow.key) (hsub hrow)
    rw [← hkeys] at hrow
    exact mem_map.mp hrow
  refine ⟨?_, ?_, ?_, ?_, h.subscriptionKeys, h.deliveryIds, ?_, h.subscribed, h.generations,
    h.stateKeys, h.stateOf, h.deadLetters⟩
  · show ((store.events ++ [stored]).map fun event => event.eventId).Nodup
    rw [map_append, nodup_append]
    refine ⟨h.eventIds, by simp, fun id hold _ hlast heq => ?_⟩
    obtain ⟨old, hmemOld, rfl⟩ := mem_map.mp hold
    have hid : old.eventId = event.eventId := by
      rw [heq]
      simpa using hlast
    rw [findEvent, KeyedList.find?, find?_eq_none] at hnew
    exact hnew old hmemOld (by simpa using hid)
  · show ((KeyedList.replace _ streams _).map StreamRow.key).Nodup
    rw [show (KeyedList.replace (fun row : StreamRow => (row.tenantId, row.streamId)) streams
      _).map StreamRow.key = streams.map StreamRow.key from map_key_replace _ _]
    exact hnodup
  · intro row hrow
    rw [eventsOf_putEvent]
    rcases hreplaced row hrow with rfl | ⟨hold, hne⟩
    · refine ⟨by simp, ?_⟩
      show ((store.eventsOf stream.key) ++ if stored.stream = stream.key then [stored] else []).map
        StoredEvent.streamSequence = List.range' 1 (stream.lastSequence + 1)
      rw [if_pos hstored, map_append, hbefore, range'_concat]
      simp [stored, Nat.add_comm]
    · rw [if_neg (by rw [hstored]; exact fun heq => hne heq.symm), append_nil]
      exact h.sequences row hold
  · intro old hold
    rcases mem_append.mp hold with hold | hlast
    · obtain ⟨row, hrow, hrowKey⟩ := h.streamOf old hold
      obtain ⟨row', hrow', hrowKey'⟩ := hkept row hrow
      exact ⟨row', hrow', hrowKey'.trans hrowKey⟩
    · obtain rfl := mem_singleton.mp hlast
      refine ⟨_, mem_replace_iff.mpr (Or.inl ⟨rfl, ?_⟩), hstored.symm⟩
      show stream.key ∈ streams.map StreamRow.key
      exact mem_map_of_mem hmem
  · intro row hrow
    obtain ⟨old, hold, hof⟩ := h.placed row hrow
    exact ⟨old, mem_append_left _ hold, hof⟩

theorem id_notMem (h : store.WellFormed) {id : DeliveryId}
    (hnew : store.findEvent id.eventId = none) : id ∉ store.deliveries.map Delivery.id := by
  intro hmem
  obtain ⟨row, hrow, rfl⟩ := mem_map.mp hmem
  obtain ⟨event, hevent, hof⟩ := h.placed row hrow
  rw [hof.eventId, h.findEvent_of_mem hevent] at hnew
  cases hnew

theorem place_notMem {streamId : String} (hnone : store.findState tenantId key streamId = none) :
    (tenantId, key, streamId) ∉ store.states.map SubscriptionStreamState.place := by
  intro hmem
  obtain ⟨state, hstate, hplace⟩ := mem_map.mp hmem
  rw [findState, KeyedList.find?, find?_eq_none] at hnone
  exact hnone state hstate (by simpa [placeOf, SubscriptionStreamState.place] using hplace)

/-- An append keeps the tables well formed. -/
theorem appendEvent {store' : Store} (h : store.WellFormed) {event : EventCandidate}
    {expected : Option ℕ} {now : Datetime} {result : AppendResult}
    (hcall : store.appendEvent event expected now = .ok (store', result)) : store'.WellFormed := by
  rcases appendEvent_spec h hcall with ⟨rfl, -⟩ | ⟨hnew, -, rfl, -⟩
  · exact h
  have hbase := h.putEvent now hnew
  obtain ⟨streams, stream, hopened, -⟩ := openStream_spec h event now
  rw [hopened] at hbase ⊢
  have hlive := nodup_liveSubscriptions h event.tenantId
  have hrow : ∀ row ∈ (store.liveSubscriptions event.tenantId).flatMap
      (store.rowsFor ⟨event, now, stream.lastSequence + 1⟩ now),
      ∃ subscription ∈ store.liveSubscriptions event.tenantId,
        row = rowFor subscription ⟨event, now, stream.lastSequence + 1⟩ now 1 := by
    intro row hrow
    obtain ⟨subscription, hmem, hrow⟩ := mem_flatMap.mp hrow
    exact ⟨subscription, hmem, (mem_rowsFor hrow).1⟩
  have hstate : ∀ state ∈ (store.liveSubscriptions event.tenantId).flatMap
      (store.statesFor ⟨event, now, stream.lastSequence + 1⟩ now),
      ∃ subscription ∈ store.liveSubscriptions event.tenantId,
        state = newState subscription ⟨event, now, stream.lastSequence + 1⟩ now ∧
          store.findState subscription.tenantId subscription.key event.streamId = none := by
    intro state hstate
    obtain ⟨subscription, hmem, hstate⟩ := mem_flatMap.mp hstate
    obtain ⟨heq, hstarts⟩ := mem_statesFor hstate
    refine ⟨subscription, hmem, heq, ?_⟩
    unfold startsHere at hstarts
    simp only [Bool.and_eq_true, Option.isNone_iff_eq_none] at hstarts
    exact hstarts.1
  refine hbase.addRows ?_ ?_ ?_ ?_ ?_ ?_ ?_ ?_
  · unfold statesFor
    rw [flatMap_if, map_map]
    apply List.Nodup.of_map (fun place : Option String × SubscriptionKey × String => place.2.1)
    rw [map_map]
    exact hlive.sublist (filter_sublist.map _)
  · intro state hmem
    obtain ⟨subscription, -, rfl, hnone⟩ := hstate state hmem
    exact place_notMem hnone
  · intro state hmem
    obtain ⟨subscription, hsubscription, rfl, -⟩ := hstate state hmem
    exact ⟨subscription, (mem_liveSubscriptions.mp hsubscription).1, rfl, rfl⟩
  · unfold rowsFor
    rw [flatMap_if, map_map]
    apply List.Nodup.of_map DeliveryId.subscription
    rw [map_map]
    exact hlive.sublist (filter_sublist.map _)
  · intro row hmem
    rcases hrow row hmem with ⟨subscription, -, rfl⟩
    exact h.id_notMem hnew
  · intro row hmem
    rcases hrow row hmem with ⟨subscription, -, rfl⟩
    exact ⟨_, mem_append_right _ (mem_singleton.mpr rfl), rfl, rfl, rfl, rfl⟩
  · intro row hmem
    rcases hrow row hmem with ⟨subscription, hsubscription, rfl⟩
    exact ⟨subscription, (mem_liveSubscriptions.mp hsubscription).1, rfl,
      (mem_liveSubscriptions.mp hsubscription).2.1⟩
  · intro row hmem
    rcases hrow row hmem with ⟨subscription, -, rfl⟩
    exact le_rfl

end WellFormed

end Store

end EventStore
