/-
# One generation under way

An event is redelivered to a subscription under a new generation.  Two operator
commands make generations: the redelivery of a range refuses to run while a delivery of
the range is under way, the requeue of a dead letter looks at the dead letter only, which
a redelivery leaves open.
-/
import AgoraHub.EventStoreOperators

namespace EventStore

open Fallible Datetime List

/-- The event and the subscription version of a delivery. -/
def DeliveryId.pair (id : DeliveryId) : String × SubscriptionKey := (id.eventId, id.subscription)

namespace Store

/-- The generations of a pair that are pending, claimed or waiting for a retry. -/
def underWay (store : Store) (pair : String × SubscriptionKey) : List Delivery :=
  store.deliveries.filter fun row => row.id.pair == pair && row.nonterminal

/-- At most one generation of each pair is under way. -/
def OneUnderWay (store : Store) : Prop := ∀ pair, (store.underWay pair).length ≤ 1

/-- A requeue names no open dead letter of a pair that is under way. -/
def RequeueClear (store : Store) (timed : TimedCall) : Prop :=
  match timed.call with
  | .requeueDeadLetter action => ∀ record ∈ store.findDeadLetter action.deadLetterId,
      record.disposition = .open → store.underWay record.deliveryId.pair = []
  | _ => True

instance (store : Store) (timed : TimedCall) : Decidable (store.RequeueClear timed) := by
  unfold RequeueClear
  split <;> infer_instance

/-! ## What a call adds -/

theorem underWay_addRows (store : Store) (states : List SubscriptionStreamState)
    (rows : List Delivery) (pair : String × SubscriptionKey) :
    (store.addRows states rows).underWay pair = store.underWay pair ++
      rows.filter fun row => row.id.pair == pair && row.nonterminal := filter_append _ _

/-- Rows of different pairs, none of them under way before. -/
theorem oneUnderWay_addRows {store : Store} (h : store.OneUnderWay)
    (states : List SubscriptionStreamState) (rows : List Delivery)
    (hpairs : (rows.map fun row => row.id.pair).Nodup)
    (hclear : ∀ row ∈ rows, store.underWay row.id.pair = []) :
    (store.addRows states rows).OneUnderWay := by
  intro pair
  rw [underWay_addRows, length_append]
  by_cases hpair : ∃ row ∈ rows, row.id.pair = pair
  · rcases hpair with ⟨row, hrow, rfl⟩
    have hone : (rows.filter fun other => other.id.pair == row.id.pair && other.nonterminal).length ≤
        1 := by
      rw [← countP_eq_length_filter]
      calc rows.countP (fun other => other.id.pair == row.id.pair && other.nonterminal)
          ≤ rows.countP fun other => other.id.pair == row.id.pair :=
            countP_mono_left fun other _ h => (Bool.and_eq_true_iff.mp h).1
        _ = (rows.map fun row => row.id.pair).count row.id.pair := by
            rw [count_eq_countP, countP_map]
            rfl
        _ ≤ 1 := nodup_iff_count_le_one.mp hpairs _
    rw [hclear row hrow, length_nil, Nat.zero_add]
    exact hone
  · have hnone : (rows.filter fun row => row.id.pair == pair && row.nonterminal) = [] := by
      rw [filter_eq_nil_iff]
      intro row hrow heq
      simp only [Bool.and_eq_true, beq_iff_eq] at heq
      exact hpair ⟨row, hrow, heq.1⟩
    rw [hnone]
    exact h pair

theorem underWay_eq_nil {store : Store} {pair : String × SubscriptionKey}
    (h : ∀ row ∈ store.deliveries, row.id.pair ≠ pair) : store.underWay pair = [] := by
  rw [underWay, filter_eq_nil_iff]
  intro row hrow
  simp [h row hrow]

theorem underWay_le_of_advances {store store' : Store} (h : Advances store store')
    (pair : String × SubscriptionKey) :
    (store'.underWay pair).length ≤ (store.underWay pair).length := by
  unfold underWay
  rw [← countP_eq_length_filter, ← countP_eq_length_filter]
  refine RelatedLists.countP_le (fun row row' hadv hrow' => ?_) h.deliveries
  rw [Bool.and_eq_true] at hrow' ⊢
  exact ⟨by rw [← hadv.id]; exact hrow'.1, hadv.nonterminal hrow'.2⟩

/-! ## Each call -/

section Calls

variable {store store' : Store}

variable {now : Datetime}

theorem oneUnderWay_appendEvent (hwf : store.WellFormed) (h : store.OneUnderWay)
    {event : EventCandidate} {expected : Option ℕ} {result : AppendResult}
    (hcall : store.appendEvent event expected now = .ok (store', result)) : store'.OneUnderWay := by
  rcases appendEvent_spec hwf hcall with ⟨rfl, -⟩ | ⟨hnew, -, rfl, -⟩
  · exact h
  rcases openStream_spec hwf event now with ⟨streams, stream, hopened, -⟩
  rw [hopened]
  refine oneUnderWay_addRows (by exact h) _ _ ?_ ?_
  · unfold rowsFor
    rw [flatMap_if, map_map]
    apply List.Nodup.of_map Prod.snd
    rw [map_map]
    exact (nodup_liveSubscriptions hwf event.tenantId).sublist (filter_sublist.map _)
  · intro row hrow
    rcases mem_flatMap.mp hrow with ⟨subscription, -, hrow⟩
    obtain rfl := (mem_rowsFor hrow).1
    apply underWay_eq_nil
    intro old hold heq
    have hid : old.id.eventId = event.eventId := congrArg Prod.fst heq
    exact hwf.id_notMem (hid ▸ hnew) (mem_map_of_mem hold)

theorem oneUnderWay_registerSubscription (hwf : store.WellFormed) (h : store.OneUnderWay)
    {subscription persisted : DurableSubscription}
    (hcall : store.registerSubscription subscription now = .ok (store', persisted)) :
    store'.OneUnderWay := by
  have hwf' := hwf.registerSubscription hcall
  rcases registerSubscription_spec hwf hcall with
    ⟨rfl, -⟩ | ⟨createdAt, hnone, -, hdef, -, -, rfl, -⟩
  · exact h
  have hmade : ∀ row ∈ (store.tenantStreams subscription.tenantId).flatMap
      (store.backfillRows persisted now), row.id.subscription = persisted.key ∧
        row.id.deliveryGeneration = 1 := by
    intro row hrow
    rcases mem_flatMap.mp hrow with ⟨stream, -, hrow⟩
    rcases mem_map.mp hrow with ⟨event, -, rfl⟩
    exact ⟨rfl, rfl⟩
  refine oneUnderWay_addRows (by exact h) _ _ ?_ ?_
  · -- the ids are distinct and differ in their pairs only
    have hids : (((store.tenantStreams subscription.tenantId).flatMap
        (store.backfillRows persisted now)).map Delivery.id).Nodup :=
      hwf'.deliveryIds.sublist ((sublist_append_right _ _).map _)
    refine List.Nodup.map_on (fun row hrow other hother heq => ?_) (hids.of_map _)
    apply inj_on_of_nodup_map hids hrow hother
    have hevent : row.id.eventId = other.id.eventId := congrArg Prod.fst heq
    rcases hmade row hrow with ⟨hkey, hgeneration⟩
    rcases hmade other hother with ⟨hkey', hgeneration'⟩
    cases hid : row.id
    cases hid' : other.id
    simp_all
  · intro row hrow
    apply underWay_eq_nil
    intro old hold heq
    have hkey : old.id.subscription = persisted.key :=
      (congrArg Prod.snd heq).trans (hmade row hrow).1
    rcases hwf.subscribed old hold with ⟨other, hother, hotherKey, -⟩
    rw [selectSubscription, KeyedList.find?, find?_eq_none] at hnone
    apply hnone other hother
    rw [hotherKey, hkey]
    exact decide_eq_true (congrArg SubscriptionDefinition.key hdef)

theorem oneUnderWay_beginRedelivery (hwf : store.WellFormed) (h : store.OneUnderWay)
    {request : RedeliveryRequest} {report : RedeliveryReport}
    (hcall : store.beginRedelivery request now = .ok (store', report)) : store'.OneUnderWay := by
  rcases beginRedelivery_spec hwf hcall with
    rfl | ⟨subscription, throughSequence, -, -, hguard, -, -, hstore⟩
  · exact h
  have hadded := oneUnderWay_addRows h [] (store.redeliveredRows subscription
    (max now request.requestedAt) (store.redeliveryEvents subscription request throughSequence))
    ?_ ?_
  · rw [hstore]
    exact hadded
  · unfold redeliveredRows
    rw [map_map]
    apply List.Nodup.of_map Prod.fst
    rw [map_map]
    exact nodup_redeliveryEvents hwf subscription request throughSequence
  · intro row hrow
    rcases mem_map.mp hrow with ⟨event, hevent, rfl⟩
    rcases mem_redeliveryEvents hevent with ⟨original, horiginal, -, hof, -, hstream, hfirst, hlast⟩
    rcases mem_deliveriesOf.mp horiginal with ⟨hmem, hkey, htenant⟩
    -- every generation of the event lies where its original lies, inside the range
    rw [underWay, filter_eq_nil_iff]
    intro old hold heq
    simp only [Bool.and_eq_true, beq_iff_eq] at heq
    rcases heq with ⟨hpair, hopen⟩
    have hid : old.id.eventId = event.eventId := congrArg Prod.fst hpair
    have hsub : old.id.subscription = subscription.key := congrArg Prod.snd hpair
    rcases hwf.placed old hold with ⟨event', hevent', hof'⟩
    rcases hwf.placed original hmem with ⟨event'', hevent'', hof''⟩
    have hsame : event' = event'' := hwf.event_inj hevent' hevent''
      (by rw [← hof'.eventId, hid, ← hof.eventId, hof''.eventId])
    have holdOf : old ∈ store.deliveriesOf subscription := mem_deliveriesOf.mpr
      ⟨hold, hsub, by rw [hof'.tenantId, hsame, ← hof''.tenantId, htenant]⟩
    have hterminal := hguard old holdOf
      (by rw [hof'.streamId, hsame, ← hof''.streamId, hstream])
      (by rw [hof'.streamSequence, hsame, ← hof''.streamSequence]; exact hfirst)
      (by rw [hof'.streamSequence, hsame, ← hof''.streamSequence]; exact hlast)
    rw [hterminal] at hopen
    cases hopen

theorem oneUnderWay_requeueDeadLetter (h : store.OneUnderWay) {action : DeadLetterAction}
    {row : Delivery} (hclear : store.RequeueClear ⟨.requeueDeadLetter action, now⟩)
    (hcall : store.requeueDeadLetter action now = .ok (store', row)) : store'.OneUnderWay := by
  rcases requeueDeadLetter_spec hcall with
    ⟨record, subscription, audit, hfind, hopen, -, -, -, -, hrow, rfl⟩
  have hadded := oneUnderWay_addRows h [] [row] (by simp) ?_
  · rw [addRows_nil] at hadded
    exact hadded
  · intro made hmade
    obtain rfl := mem_singleton.mp hmade
    rw [hrow]
    exact hclear record hfind hopen

/-- A committed call keeps one generation of each pair under way, where a requeue is clear. -/
theorem oneUnderWay_commit (hwf : store.WellFormed) (h : store.OneUnderWay) {timed : TimedCall}
    (hclear : store.RequeueClear timed) (hcall : store.commit timed = .ok store') :
    store'.OneUnderWay := by
  rcases timed with ⟨call, now⟩
  have hadvance : Advances store store' → store'.OneUnderWay := fun hadv pair =>
    (underWay_le_of_advances hadv pair).trans (h pair)
  unfold Store.commit at hcall
  cases call <;> dsimp only at hcall <;> rcases map_fst_eq_ok.mp hcall with ⟨out, hcall⟩
  case appendEvent => exact oneUnderWay_appendEvent hwf h hcall
  case registerSubscription => exact oneUnderWay_registerSubscription hwf h hcall
  case setSubscriptionStatus =>
    rcases setSubscriptionStatus_spec hcall with ⟨_, _, -, -, -, -, rfl⟩
    exact h
  case claimDeliveries => exact hadvance (claimDeliveries_advances hwf.deliveryIds hcall)
  case renewDeliveryLease => exact hadvance (renewDeliveryLease_advances hwf.deliveryIds hcall)
  case settleDelivery => exact hadvance (settleDelivery_advances hwf.deliveryIds hcall)
  case requeueDeadLetter => exact oneUnderWay_requeueDeadLetter h hclear hcall
  case resolveDeadLetter => exact hadvance (resolveDeadLetter_advances hcall)
  case beginRedelivery => exact oneUnderWay_beginRedelivery hwf h hcall
  case cancelRetiredSubscription =>
    exact hadvance (cancelRetiredSubscription_advances hwf.deliveryIds hcall)

end Calls

/-! ## Every run -/

/-- In a run whose requeues are all clear, at most one generation of each pair is under way in
every state that is reached. -/
theorem one_under_way (calls rest : List TimedCall)
    (hclear : StepRuns.Along step RequeueClear {} (calls ++ rest)) :
    (StepRuns.run step {} calls).OneUnderWay := by
  have hinitial := (StepRuns.along_append.mp hclear).1
  have keep : ∀ (store : Store) (timed : TimedCall), store.WellFormed ∧ store.OneUnderWay →
      store.RequeueClear timed → (step store timed).WellFormed ∧ (step store timed).OneUnderWay := by
    intro store timed hstore htimed
    unfold step
    cases hcall : store.commit timed with
    | error e => exact hstore
    | ok store' =>
      exact ⟨hstore.1.commit hcall, oneUnderWay_commit hstore.1 hstore.2 htimed hcall⟩
  exact (StepRuns.run_invariant keep ⟨wellFormed_empty, fun _ => Nat.zero_le 1⟩ hinitial).2

/-- A dead letter that is requeued once. -/
theorem one_under_way_requeued : (StepRuns.run step {}
    (sampleDead ++ [⟨.requeueDeadLetter (sampleRequeue "event" 5), moment 5⟩])).OneUnderWay :=
  one_under_way _ [] (by decide +kernel)

/-- A redelivery leaves the dead letter open, and its requeue makes a second generation that is
under way. -/
theorem not_one_under_way : ¬ ∀ calls, (StepRuns.run step {} calls).OneUnderWay := by
  intro h
  have htwo := h (sampleDead ++ [⟨.beginRedelivery (sampleRedelivery (moment 5)), moment 5⟩,
    ⟨.requeueDeadLetter (sampleRequeue "event" 6), moment 6⟩]) ("event", sampleKey)
  revert htwo
  decide +kernel

end Store

end EventStore
