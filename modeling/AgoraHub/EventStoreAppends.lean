/-
# What an append and a registration insert

An append gives its event the next sequence of its stream, and inserts for each live
subscription of the tenant at most one stream state and one delivery.  A registration
inserts a stream state for each stream and a delivery for each matching event from its
start.  Both loops are given here in closed form, as the rows they add.
-/
import AgoraHub.EventStoreSpecs

namespace EventStore

open Fallible Datetime List

namespace Store

/-! ## One subscription of an append -/

/-- The delivery of an event to a subscription. -/
def rowFor (subscription : DurableSubscription) (event : StoredEvent) (createdAt : Datetime)
    (generation : ℕ) : Delivery :=
  newDelivery ⟨event.eventId, subscription.key, generation⟩ event.tenantId event.streamId
    event.streamSequence subscription.effect.consumerEffectId createdAt

/-- The stream state that an append makes. -/
def newState (subscription : DurableSubscription) (event : StoredEvent) (now : Datetime) :
    SubscriptionStreamState :=
  ⟨subscription.tenantId, subscription.key, event.streamId,
    subscriptionStartSequence subscription.start (event.streamSequence - 1),
    event.streamSequence - 1, none, now, now⟩

section

variable (store : Store)

/-- An append makes a stream state for the first event that the subscription starts at. -/
def startsHere (event : StoredEvent) (subscription : DurableSubscription) : Bool :=
  (store.findState subscription.tenantId subscription.key event.streamId).isNone &&
    decide (subscriptionStartSequence subscription.start (event.streamSequence - 1) ≤
      event.streamSequence)

/-- An append makes a delivery of the event to the subscription. -/
def materializes (event : StoredEvent) (subscription : DurableSubscription) : Bool :=
  eventMatches event subscription &&
    match store.findState subscription.tenantId subscription.key event.streamId with
    | some state => decide (state.startSequence ≤ event.streamSequence) &&
        !state.retirementWatermark.any (· < event.streamSequence)
    | none => decide (subscriptionStartSequence subscription.start (event.streamSequence - 1) ≤
        event.streamSequence)

/-- The stream state that an append makes for a subscription, if any. -/
def statesFor (event : StoredEvent) (now : Datetime)
    (subscription : DurableSubscription) : List SubscriptionStreamState :=
  if store.startsHere event subscription then [newState subscription event now] else []

/-- The delivery that an append makes for a subscription, if any. -/
def rowsFor (event : StoredEvent) (now : Datetime)
    (subscription : DurableSubscription) : List Delivery :=
  if store.materializes event subscription then [rowFor subscription event now 1] else []

/-- The tables with stream states and deliveries added. -/
def addRows (states : List SubscriptionStreamState) (rows : List Delivery) : Store :=
  { store with states := store.states ++ states, deliveries := store.deliveries ++ rows }

end

/-- An insertion of a delivery that is not there. -/
theorem insertDelivery_of_none {store : Store} {subscription : DurableSubscription}
    {event : StoredEvent} {createdAt : Datetime} {generation : ℕ}
    (h : store.findDelivery ⟨event.eventId, subscription.key, generation⟩ = none) :
    store.insertDelivery subscription event createdAt generation =
      (store.addRows [] [rowFor subscription event createdAt generation], 1) := by
  unfold insertDelivery
  simp [h, addRows, rowFor]

/-- What an append inserts for one subscription. -/
theorem materialize_spec {store store' : Store} {event : StoredEvent} {now : Datetime}
    {pending pending' : ℕ} {subscription : DurableSubscription}
    (hnew : store.findDelivery ⟨event.eventId, subscription.key, 1⟩ = none)
    (h : materialize event now (store, pending) subscription = .ok (store', pending')) :
    store' = store.addRows (store.statesFor event now subscription)
        (store.rowsFor event now subscription) ∧ (store.materializes event subscription = true →
        store.pendingCapacityExhausted subscription = false) := by
  unfold materialize at h
  obtain ⟨⟨mid, state⟩, hstate, h⟩ := bind_inv h
  unfold stateFor at hstate
  cases hfind : store.findState subscription.tenantId subscription.key event.streamId with
  | some found =>
    rw [hfind] at hstate
    cases hstate
    have hstates : store.statesFor event now subscription = [] := by
      simp [statesFor, startsHere, hfind]
    dsimp only at h
    rw [hstates]
    by_cases hmat : store.materializes event subscription = true
    · have hrows : store.rowsFor event now subscription = [rowFor subscription event now 1] :=
        if_pos hmat
      have hparts := hmat
      unfold materializes at hparts
      rw [hfind] at hparts
      simp only [Bool.and_eq_true, decide_eq_true_eq, Bool.not_eq_true'] at hparts
      rw [if_neg (by omega), if_neg (by simp [hparts.2.2]), if_neg (by simp [hparts.1])] at h
      obtain ⟨hcapacity, h⟩ := check_inv h
      rw [insertDelivery_of_none hnew] at h
      obtain ⟨rfl, -⟩ := Prod.mk.inj (ok_inj h)
      rw [hrows]
      exact ⟨rfl, fun _ => by simpa using of_require hcapacity⟩
    · have hrows : store.rowsFor event now subscription = [] := if_neg hmat
      have hsame : store' = store := by
        split at h
        · exact (Prod.mk.inj (ok_inj h)).1.symm
        · split at h
          · exact (Prod.mk.inj (ok_inj h)).1.symm
          · split at h
            · exact (Prod.mk.inj (ok_inj h)).1.symm
            · rename_i hstart hretired hmatch
              exfalso
              apply hmat
              unfold materializes
              rw [hfind]
              simp only [Bool.and_eq_true, decide_eq_true_eq, Bool.not_eq_true']
              exact ⟨by simpa using hmatch, by omega, by simpa using hretired⟩
      rw [hsame, hrows]
      exact ⟨by simp [addRows], fun hyes => absurd hyes hmat⟩
  | none =>
    rw [hfind] at hstate
    by_cases hstart : event.streamSequence <
        subscriptionStartSequence subscription.start (event.streamSequence - 1)
    · rw [if_pos hstart] at hstate
      cases hstate
      obtain ⟨rfl, -⟩ := Prod.mk.inj (ok_inj h)
      have hnot : store.materializes event subscription = false := by
        simp [materializes, hfind, hstart]
      have hnotStart : store.startsHere event subscription = false := by
        simp [startsHere, hfind, hstart]
      simp [statesFor, rowsFor, hnot, hnotStart, addRows]
    · rw [if_neg hstart] at hstate
      have hle := Nat.not_lt.mp hstart
      obtain ⟨inserted, hinserted, hstate⟩ := bind_inv hstate
      iterate 2 rcases check_inv hinserted with ⟨-, hinserted⟩
      cases hinserted
      cases hstate
      have hstarts : store.startsHere event subscription = true := by
        simp [startsHere, hfind, hle]
      have hstates : store.statesFor event now subscription = [newState subscription event now] :=
        if_pos hstarts
      have hfound : findState { store with states := store.states ++
          [newState subscription event now] } subscription.tenantId subscription.key
          event.streamId = some (newState subscription event now) := by
        unfold findState KeyedList.find? at hfind ⊢
        rw [find?_append, hfind]
        simp [newState, placeOf]
      rw [hstates]
      unfold newState at hfound ⊢
      rw [hfound] at h
      dsimp only at h
      rw [if_neg hstart, if_neg (by simp)] at h
      by_cases hmatch : eventMatches event subscription = true
      · have hmat : store.materializes event subscription = true := by
          simp [materializes, hfind, hle, hmatch]
        rw [if_neg (by simp [hmatch])] at h
        obtain ⟨hcapacity, h⟩ := check_inv h
        rw [insertDelivery_of_none (by exact hnew)] at h
        obtain ⟨rfl, -⟩ := Prod.mk.inj (ok_inj h)
        have hrows : store.rowsFor event now subscription = [rowFor subscription event now 1] :=
          if_pos hmat
        rw [hrows]
        refine ⟨by simp [addRows], fun _ => ?_⟩
        have hcapacity := of_require hcapacity
        change (!store.pendingCapacityExhausted subscription) = true at hcapacity
        simpa using hcapacity
      · have hmat : store.materializes event subscription = false := by
          simp [materializes, hmatch]
        rw [if_pos (by simp [hmatch])] at h
        obtain ⟨rfl, -⟩ := Prod.mk.inj (ok_inj h)
        simp [rowsFor, hmat, addRows]

/-! ## Every subscription of an append -/

section Others

variable {store : Store} {states : List SubscriptionStreamState} {rows : List Delivery}
  {subscription : DurableSubscription}

/-- Stream states of other subscriptions do not matter to one. -/
theorem findState_addRows (hstates : ∀ state ∈ states, state.subscription ≠ subscription.key)
    (streamId : String) : (store.addRows states rows).findState subscription.tenantId
      subscription.key streamId = store.findState subscription.tenantId subscription.key streamId := by
  unfold findState addRows KeyedList.find?
  rw [find?_append]
  have hnone : states.find? (fun x => decide (placeOf x.tenantId x.subscription x.streamId =
      placeOf subscription.tenantId subscription.key streamId)) = none := by
    rw [find?_eq_none]
    intro state hmem
    simp only [placeOf, Prod.mk.injEq, decide_eq_true_eq]
    exact fun h => hstates state hmem h.2.1
  rw [hnone, Option.or_none]

theorem findDelivery_addRows {id : DeliveryId} (hrows : ∀ row ∈ rows, row.id ≠ id)
    (h : store.findDelivery id = none) : (store.addRows states rows).findDelivery id = none := by
  unfold findDelivery addRows KeyedList.find? at *
  rw [find?_append, h, Option.none_or, find?_eq_none]
  intro row hrow
  simpa using hrows row hrow

theorem deliveriesOf_addRows (hrows : ∀ row ∈ rows, row.id.subscription ≠ subscription.key) :
    (store.addRows states rows).deliveriesOf subscription = store.deliveriesOf subscription := by
  unfold deliveriesOf addRows
  rw [filter_append]
  have hnone : rows.filter (fun row => row.id.subscription == subscription.key &&
      row.tenantId == subscription.tenantId) = [] := by
    rw [filter_eq_nil_iff]
    intro row hrow
    simp [hrows row hrow]
  rw [hnone, append_nil]

theorem pendingCapacityExhausted_addRows
    (hrows : ∀ row ∈ rows, row.id.subscription ≠ subscription.key) :
    (store.addRows states rows).pendingCapacityExhausted subscription =
      store.pendingCapacityExhausted subscription := by
  unfold pendingCapacityExhausted nonterminalOf
  rw [deliveriesOf_addRows hrows]

variable {event : StoredEvent} {now : Datetime}

theorem materializes_addRows (hstates : ∀ state ∈ states, state.subscription ≠ subscription.key) :
    (store.addRows states rows).materializes event subscription =
      store.materializes event subscription := by
  unfold materializes
  rw [findState_addRows hstates]

/-- What is inserted for a subscription does not depend on what is inserted for others. -/
theorem inserts_addRows (hstates : ∀ state ∈ states, state.subscription ≠ subscription.key) :
    (store.addRows states rows).statesFor event now subscription =
        store.statesFor event now subscription ∧
      (store.addRows states rows).rowsFor event now subscription =
        store.rowsFor event now subscription := by
  constructor
  · unfold statesFor startsHere
    rw [findState_addRows hstates]
  · unfold rowsFor
    rw [materializes_addRows hstates]

theorem mem_statesFor {state : SubscriptionStreamState}
    (h : state ∈ store.statesFor event now subscription) :
    state = newState subscription event now ∧ store.startsHere event subscription = true := by
  unfold statesFor at h
  split at h
  · exact ⟨mem_singleton.mp h, by assumption⟩
  · cases h

theorem mem_rowsFor {row : Delivery} (h : row ∈ store.rowsFor event now subscription) :
    row = rowFor subscription event now 1 ∧ store.materializes event subscription = true := by
  unfold rowsFor at h
  split at h
  · exact ⟨mem_singleton.mp h, by assumption⟩
  · cases h

end Others

theorem addRows_addRows (store : Store) (states states' : List SubscriptionStreamState)
    (rows rows' : List Delivery) : (store.addRows states rows).addRows states' rows' =
      store.addRows (states ++ states') (rows ++ rows') := by
  simp [addRows]

/-- What an append inserts for all its subscriptions. -/
theorem materializeAll_spec {event : StoredEvent} {now : Datetime}
    {subscriptions : List DurableSubscription} : ∀ {store store' : Store} {pending pending' : ℕ},
      (subscriptions.map fun subscription => subscription.key).Nodup →
      (∀ subscription ∈ subscriptions,
        store.findDelivery ⟨event.eventId, subscription.key, 1⟩ = none) →
      subscriptions.foldlM (materialize event now) (store, pending) = .ok (store', pending') →
        store' = store.addRows (subscriptions.flatMap (store.statesFor event now))
            (subscriptions.flatMap (store.rowsFor event now)) ∧
          ∀ subscription ∈ subscriptions, store.materializes event subscription = true →
            store.pendingCapacityExhausted subscription = false := by
  induction subscriptions with
  | nil =>
    intro store store' pending pending' _ _ h
    obtain ⟨rfl, -⟩ := Prod.mk.inj (pure_eq_ok_iff.mp h)
    simp [addRows]
  | cons first rest ih =>
    intro store store' pending pending' hnodup hnew h
    rw [map_cons, nodup_cons] at hnodup
    rw [foldlM_cons] at h
    obtain ⟨⟨mid, count⟩, hfirst, hrest⟩ := bind_inv h
    rcases materialize_spec (hnew first mem_cons_self) hfirst with ⟨rfl, hcapacity⟩
    have hkey : ∀ other ∈ rest, first.key ≠ other.key := fun other hother heq =>
      hnodup.1 (heq ▸ mem_map_of_mem hother)
    -- what was inserted for the first subscription is of no other
    have hstates : ∀ other ∈ rest, ∀ state ∈ store.statesFor event now first,
        state.subscription ≠ other.key := by
      intro other hother state hstate
      rw [(mem_statesFor hstate).1]
      exact hkey other hother
    have hrows : ∀ other ∈ rest, ∀ row ∈ store.rowsFor event now first,
        row.id.subscription ≠ other.key := by
      intro other hother row hrow
      rw [(mem_rowsFor hrow).1]
      exact hkey other hother
    rcases ih hnodup.2 (fun other hother => findDelivery_addRows (fun row hrow heq =>
        hrows other hother row hrow (by rw [heq])) (hnew other (mem_cons_of_mem _ hother)))
      hrest with ⟨rfl, hcapacities⟩
    constructor
    · rw [addRows_addRows, flatMap_cons, flatMap_cons]
      congr 2
      · exact flatMap_congr fun other hother => (inserts_addRows (hstates other hother)).1
      · exact flatMap_congr fun other hother => (inserts_addRows (hstates other hother)).2
    · intro subscription hmem hmat
      rcases mem_cons.mp hmem with rfl | hmem
      · exact hcapacity hmat
      · rw [← pendingCapacityExhausted_addRows (hrows subscription hmem)]
        exact hcapacities subscription hmem
          (by rw [materializes_addRows (hstates subscription hmem)]; exact hmat)

end Store

end EventStore
