/-
# What each operation on deliveries does

One specification for each loop body and each operation that changes rows under way:
the recovery of an expired claim, a claim, a renewal, a settlement and a cancellation.
A row either stays under way, or it ends: then a dead letter is recorded with it and
the checkpoint of its stream moves.
-/
import AgoraHub.EventStoreCalls

namespace EventStore

open Fallible Datetime List KeyedList DeliveryState Delivery

/-! ## How a row moves -/

variable {settledAt : Datetime}

namespace Store

/-- A row ends: it is replaced, its dead letter is recorded, and the checkpoint of an original
delivery moves. -/
def finish (store : Store) (subscription : DurableSubscription) (row' : Delivery)
    (records : List DeadLetterRecord) (settledAt : Datetime) : Store :=
  let store := { store.putDelivery row' with deadLetters := store.deadLetters ++ records }
  if row'.original then (store.advanceCheckpoint subscription row'.streamId settledAt).1 else store

/-- A row of the table is replaced by another. -/
inductive Moved (store : Store) (subscription : DurableSubscription) (row row' : Delivery) :
    Store → Prop
  | stays (underWay : row'.state.isTerminal = false) :
      Moved store subscription row row' (store.putDelivery row')
  | ends (terminal : row'.state.isTerminal = true) (settledAt : Datetime)
      (kept : row'.state ≠ .deadLetter) :
      Moved store subscription row row' (store.finish subscription row' [] settledAt)
  | dies (dead : row'.state = .deadLetter) (settledAt : Datetime) (record : DeadLetterRecord)
      (of : record.Of row') (opened : record.disposition = .open)
      (first : store.findDeadLetter row'.id = none) :
      Moved store subscription row row' (store.finish subscription row' [record] settledAt)

variable {store : Store} {row row' : Delivery}

theorem mem_putDelivery (hrow : row ∈ store.deliveries) (hid : row'.id = row.id) :
    row' ∈ (store.putDelivery row').deliveries :=
  mem_replace_iff.mpr (Or.inl ⟨rfl, hid ▸ mem_map_of_mem hrow⟩)

variable {subscription : DurableSubscription}

theorem finish_advances {records : List DeadLetterRecord}
    (h : Advances store (store.putDelivery row'))
    (hrecords : ∀ record ∈ records, ∃ row ∈ (store.putDelivery row').deliveries, record.Of row) :
    Advances store (store.finish subscription row' records settledAt) := by
  have hmid : Advances (store.putDelivery row')
      { store.putDelivery row' with deadLetters := store.deadLetters ++ records } :=
    addDeadLetters_advances hrecords
  unfold finish
  split
  · exact (h.trans hmid).trans (advanceCheckpoint_advances _ _ _ _)
  · exact h.trans hmid

/-- A move is an advance of the tables, where it is one of the row. -/
theorem Moved.advances {store' : Store} (h : Moved store subscription row row' store')
    (hids : store.DistinctIds) (hrow : row ∈ store.deliveries) (hadv : row.Advances row') :
    Advances store store' := by
  have hput := putDelivery_advances hids hrow hadv
  cases h with
  | stays _ => exact hput
  | ends _ _ _ => exact finish_advances hput (by simp)
  | dies _ _ record of _ _ =>
    refine finish_advances hput fun r hr => ?_
    obtain rfl := mem_singleton.mp hr
    exact ⟨row', mem_putDelivery hrow hadv.id, of⟩

/-- An update of a row that is in the table and meets the condition. -/
theorem updateDelivery_of_mem {store' : Store} (hids : store.DistinctIds)
    (hrow : row ∈ store.deliveries) {condition : Delivery → Bool} {set : Delivery → Delivery}
    {updated : Option Delivery} (hcond : condition row = true)
    (h : store.updateDelivery row.id condition set = .ok (store', updated)) :
    (set row).checkConstraints = .ok () ∧ updated = some (set row) ∧
      store' = store.putDelivery (set row) := by
  have hfind := findDelivery_of_mem hids hrow
  rcases updateDelivery_cases h with ⟨-, -, hmiss⟩ | ⟨found, hfound, -, hcheck, hupdated, hstore⟩
  · have hnot := hmiss row hfind
    simp [hcond] at hnot
  · obtain rfl : row = found := Option.some.inj (hfind.symm.trans hfound)
    exact ⟨hcheck, hupdated, hstore⟩

end Store

variable {delivery : Delivery}

theorem Delivery.fromRow_eq_ok {row : Delivery} (h : row.fromRow = .ok delivery) :
    row = delivery ∧ row.failureTimes = true ∧ row.createdAt ≤ row.updatedAt := by
  obtain ⟨hcheck, h⟩ := check_inv h
  exact ⟨ok_inj h, of_require hcheck⟩

/-! ## The rows that are written -/

variable {token : DeliveryLeaseToken}

section Rows

variable {row : Delivery}

theorem expiredRow_advances (hstate : row.state = .claimed) {state : DeliveryState}
    (hnew : state ≠ .claimed) (availableAt : Option Datetime) (now : Datetime) :
    row.Advances (Store.expiredRow row state availableAt now) :=
  ⟨rfl, rfl, rfl, rfl, rfl, fun h => by simp [hstate, isTerminal] at h, le_rfl,
    fun h => absurd h hnew⟩

theorem claimedRow_advances (hrow : row.nonterminal = true) {attemptCount : ℕ}
    (hattempt : row.attemptCount < attemptCount) (lease : Lease) (now : Datetime) :
    row.Advances (Store.claimedRow row attemptCount lease now) :=
  ⟨rfl, rfl, rfl, rfl, rfl, fun h => by simp [Delivery.nonterminal, h] at hrow, hattempt.le,
    fun _ => Or.inr hattempt⟩

theorem settledRow_advances (hstate : row.state = .claimed) {state : DeliveryState}
    (hnew : state ≠ .claimed) (settlement : DeliverySettlement) (now : Datetime) :
    row.Advances (Store.settledRow row state settlement now) :=
  ⟨rfl, rfl, rfl, rfl, rfl, fun h => by simp [hstate, isTerminal] at h, le_rfl,
    fun h => absurd h hnew⟩

theorem cancelledRow_advances (hrow : row.nonterminal = true) (cancelledAt : Datetime) :
    row.Advances (Store.cancelledRow row cancelledAt) where
  id := rfl
  tenantId := rfl
  streamId := rfl
  streamSequence := rfl
  createdAt := rfl
  terminal := fun h => by simp [Delivery.nonterminal, h] at hrow
  attempts := by
    show row.attemptCount ≤ if row.attemptCount < 1 then 1 else row.attemptCount
    split <;> omega
  claims := fun h => by cases h

theorem nonterminal_of_claimable {now : Datetime} (h : row.claimable now = true) :
    row.nonterminal = true := by
  unfold Delivery.claimable at h
  unfold Delivery.nonterminal
  cases hstate : row.state <;> simp [hstate, isTerminal] at h ⊢

theorem leaseMatches_iff {now : Datetime} :
    row.leaseMatches token now = true ↔ row.id = token.deliveryId ∧ row.state = .claimed ∧
      row.lease = some token.lease ∧ now < token.lease.expiresAt := by
  simp [leaseMatches, and_assoc]

end Rows

variable {out : List ClaimedDelivery} {token' : DeliveryLeaseToken}
variable {settlement : DeliverySettlement} {result : DeliverySettlementResult}
variable {cancelledAt : Datetime} {report : RetirementCancellationReport}
variable {action : DeadLetterAction}

namespace Store

/-! ## Recovery of expired claims -/

variable {subscription : DurableSubscription} {now : Datetime} {store store' : Store}
  {row : Delivery}

/-- What the recovery of one claim does. -/
theorem recoverClaim_spec (hids : store.DistinctIds) (hrow : row ∈ store.deliveries)
    (hstate : row.state = .claimed) (h : recoverClaim subscription now store row = .ok store') :
    ∃ state availableAt,
      ((state = .retryWait ∧ row.attemptCount < subscription.retryPolicy.maxAttempts) ∨
        (state = .deadLetter ∧ availableAt = none)) ∧
      (expiredRow row state availableAt now).checkConstraints = .ok () ∧
      Moved store subscription row (expiredRow row state availableAt now) store' := by
  unfold recoverClaim at h
  obtain ⟨delivery, hdecode, h⟩ := bind_inv h
  obtain ⟨rfl, -, -⟩ := fromRow_eq_ok hdecode
  have hcond : (row.state == DeliveryState.claimed) = true := by simp [hstate]
  by_cases hattempt : row.attemptCount < subscription.retryPolicy.maxAttempts
  · rw [if_pos hattempt] at h
    obtain ⟨⟨mid, updated⟩, hupdate, h⟩ := bind_inv h
    cases h
    obtain ⟨hcheck, -, rfl⟩ := updateDelivery_of_mem hids hrow hcond hupdate
    exact ⟨.retryWait, some now, Or.inl ⟨rfl, hattempt⟩, hcheck, .stays rfl⟩
  · rw [if_neg hattempt] at h
    obtain ⟨⟨mid, updated⟩, hupdate, h⟩ := bind_inv h
    obtain ⟨hcheck, rfl, rfl⟩ := updateDelivery_of_mem hids hrow hcond hupdate
    obtain ⟨written, hwritten, h⟩ := bind_inv h
    obtain rfl := Option.some.inj (orRaise_eq_ok.mp hwritten)
    obtain ⟨settled, hsettled, h⟩ := bind_inv h
    obtain ⟨rfl, -, -⟩ := fromRow_eq_ok hsettled
    obtain ⟨after, hafter, h⟩ := bind_inv h
    obtain ⟨record, hof, hopen, hfirst, rfl⟩ := insertDeadLetter_spec hafter
    refine ⟨.deadLetter, none, Or.inr ⟨rfl, rfl⟩, hcheck, ?_⟩
    have hmove : Moved store subscription row (expiredRow row .deadLetter none now) _ :=
      .dies rfl now record hof hopen hfirst
    unfold finish at hmove
    split at h
    · rename_i horiginal
      rw [if_pos horiginal] at hmove
      exact (ok_inj h) ▸ hmove
    · rename_i horiginal
      rw [if_neg horiginal] at hmove
      exact (ok_inj h) ▸ hmove

/-- The claims of a subscription whose leases have expired. -/
def expiredClaims (store : Store) (subscription : DurableSubscription) (now : Datetime) :
    List Delivery :=
  ((store.claimedOf subscription).filter (·.leaseExpired now)).insertionSort Delivery.Le

variable {store : Store}

theorem mem_deliveriesOf : row ∈ store.deliveriesOf subscription ↔ row ∈ store.deliveries ∧
      row.id.subscription = subscription.key ∧ row.tenantId = subscription.tenantId := by
  simp [deliveriesOf]

theorem mem_claimedOf : row ∈ store.claimedOf subscription ↔
      row ∈ store.deliveriesOf subscription ∧ row.state = .claimed := by
  simp [claimedOf]

theorem mem_nonterminalOf : row ∈ store.nonterminalOf subscription ↔
      row ∈ store.deliveriesOf subscription ∧ row.nonterminal = true := by
  simp [nonterminalOf]

theorem mem_expiredClaims : row ∈ store.expiredClaims subscription now ↔
      row ∈ store.claimedOf subscription ∧ row.leaseExpired now = true := by
  unfold expiredClaims
  rw [(perm_insertionSort Delivery.Le _).mem_iff, mem_filter]

variable {rows : List Delivery}

theorem nodup_of_sublist_sort (hids : store.DistinctIds) (hsub : rows.Sublist store.deliveries) :
    ((rows.insertionSort Delivery.Le).map Delivery.id).Nodup :=
  (((perm_insertionSort Delivery.Le rows).map _).nodup_iff).mpr
    (hids.sublist (hsub.map Delivery.id))

theorem deliveriesOf_sublist (store : Store) (subscription : DurableSubscription) :
    (store.deliveriesOf subscription).Sublist store.deliveries := filter_sublist

theorem nodup_expiredClaims (hids : store.DistinctIds) (subscription : DurableSubscription)
    (now : Datetime) : ((store.expiredClaims subscription now).map Delivery.id).Nodup :=
  nodup_of_sublist_sort hids
    ((filter_sublist.trans filter_sublist).trans (deliveriesOf_sublist _ _))

variable {row' : Delivery}

theorem mem_putDelivery_of_ne (hrow : row ∈ store.deliveries) (hne : row.id ≠ row'.id) :
    row ∈ (store.putDelivery row').deliveries :=
  mem_replace_iff.mpr (Or.inr ⟨hrow, hne⟩)

theorem finish_deliveries (store : Store) (subscription : DurableSubscription) (row' : Delivery)
    (records : List DeadLetterRecord) (settledAt : Datetime) :
    (store.finish subscription row' records settledAt).deliveries =
      (store.putDelivery row').deliveries := by
  unfold finish
  split
  · rcases advanceCheckpoint_tables
      { store.putDelivery row' with deadLetters := store.deadLetters ++ records } subscription
      row'.streamId settledAt with ⟨checkpoints, heq⟩
    rw [heq]
  · rfl

theorem Moved.deliveries (h : Moved store subscription row row' store') :
    store'.deliveries = (store.putDelivery row').deliveries := by
  cases h with
  | stays _ => rfl
  | ends _ _ _ | dies _ _ _ _ _ _ => exact finish_deliveries _ _ _ _ _

theorem Moved.mem_of_ne {other : Delivery} (h : Moved store subscription row row' store')
    (hother : other ∈ store.deliveries) (hne : other.id ≠ row'.id) : other ∈ store'.deliveries := by
  rw [h.deliveries]
  exact mem_putDelivery_of_ne hother hne

/-! ## A claim -/

variable {request : DeliveryClaimRequest}

/-- What a claim does to one row. -/
theorem claimRow_spec {claimed claimed' : List ClaimedDelivery} (hids : store.DistinctIds)
    (hrow : row ∈ store.deliveries) (hclaimable : row.claimable now = true)
    (h : claimRow request now (store, claimed) row = .ok (store', claimed')) :
    ∃ expiresAt event, now.addMicros request.lease.durationMicros = .ok expiresAt ∧
      store.findEvent row.id.eventId = some event ∧ let lease : Lease := ⟨request.leaseOwner,
        max ((row.lease.map Lease.generation).getD 0 + 1) (row.attemptCount + 1), expiresAt⟩
      let row' := claimedRow row (row.attemptCount + 1) lease now
      row'.checkConstraints = .ok () ∧ store' = store.putDelivery row' ∧
        claimed' = claimed ++ [⟨row', event, ⟨row.id, lease, some now⟩⟩] := by
  unfold claimRow at h
  obtain ⟨expiresAt, hexpiry, h⟩ := bind_inv h
  obtain ⟨⟨mid, updated⟩, hupdate, h⟩ := bind_inv h
  obtain ⟨hcheck, rfl, rfl⟩ := updateDelivery_of_mem hids hrow hclaimable hupdate
  obtain ⟨delivery, hdecode, h⟩ := bind_inv h
  obtain ⟨rfl, -, -⟩ := fromRow_eq_ok hdecode
  obtain ⟨event, hevent, h⟩ := bind_inv h
  cases h
  exact ⟨expiresAt, event, mapError_eq_ok.mp hexpiry, orRaise_eq_ok.mp hevent, hcheck, rfl, rfl⟩

/-- What a claim does: it recovers the expired claims, and within its limits takes rows in order. -/
theorem claimDeliveries_spec (h : store.claimDeliveries request now = .ok (store', out)) :
    ∃ subscription, store.selectSubscription request.subscription = some subscription ∧
      ((store' = store ∧ out = []) ∨
        ∃ mid, (store.expiredClaims subscription now).foldlM (recoverClaim subscription now) store =
            .ok mid ∧ let active := (mid.claimedOf subscription).filter (!·.leaseExpired now)
          let owners := (active.filterMap (·.lease)).map Lease.owner
          ((store' = mid ∧ out = []) ∨
            (request.leaseOwner ∈ owners ∨
              owners.toFinset.card < subscription.limits.maxConcurrency) ∧
            ∃ limit, limit ≤ subscription.limits.maxInFlight - active.length ∧
              ((mid.claimableRows subscription request now).take limit).foldlM
                (claimRow request now) (mid, []) = .ok (store', out))) := by
  unfold claimDeliveries at h
  obtain ⟨subscription, hselect, h⟩ := bind_inv h
  refine ⟨subscription, orRaise_eq_ok.mp hselect, ?_⟩
  by_cases hpaused : subscription.status = .paused
  · rw [if_pos hpaused] at h
    cases h
    exact Or.inl ⟨rfl, rfl⟩
  · rw [if_neg hpaused] at h
    obtain ⟨mid, hmid, h⟩ := bind_inv h
    refine Or.inr ⟨mid, hmid, ?_⟩
    dsimp only at h ⊢
    split at h
    · cases h
      exact Or.inl ⟨rfl, rfl⟩
    · rename_i howner
      split at h
      · cases h
        exact Or.inl ⟨rfl, rfl⟩
      · refine Or.inr ⟨?_, _, min_le_right _ _, h⟩
        by_contra hne
        push Not at hne
        exact howner hne

/-- The rows that a claim may take. -/
theorem mem_claimableRows :
    row ∈ store.claimableRows subscription request now ↔ row ∈ store.deliveriesOf subscription ∧
      (store.findState row.tenantId row.id.subscription row.streamId).isSome = true ∧
      row.claimable now = true ∧ request.streamId.all (row.streamId == ·) = true ∧
      (subscription.status ≠ .retired ∨ store.withinRetirement subscription row = true) ∧
      (row.original = false ∨ store.noneEarlier subscription row = true) := by
  unfold claimableRows
  rw [(perm_insertionSort Delivery.Le _).mem_iff, mem_filter]
  simp [and_assoc]

theorem nodup_claimableRows (hids : store.DistinctIds) (subscription : DurableSubscription)
    (request : DeliveryClaimRequest) (now : Datetime) :
    ((store.claimableRows subscription request now).map Delivery.id).Nodup :=
  nodup_of_sublist_sort hids (filter_sublist.trans (deliveriesOf_sublist _ _))

/-! ## A renewal -/

/-- The row that a renewal writes. -/
def renewedRow (current : Delivery) (lease : Lease) (now : Datetime) : Delivery :=
  { current with lease := some lease, updatedAt := now }

/-- What a renewal does: it needs the current lease, and moves its expiry. -/
theorem renewDeliveryLease_spec {lease : LeasePolicy}
    (h : store.renewDeliveryLease token lease now = .ok (store', token')) :
    ∃ row expiresAt, store.findDelivery token.deliveryId = some row ∧
      row.leaseMatches token now = true ∧ now.addMicros lease.durationMicros = .ok expiresAt ∧
      let renewed : Lease := { token.lease with expiresAt := expiresAt }
      (renewedRow row renewed now).checkConstraints = .ok () ∧
        store' = store.putDelivery (renewedRow row renewed now) ∧
        token' = { token with lease := renewed, leaseStartedAt := some now } := by
  unfold renewDeliveryLease at h
  obtain ⟨expiresAt, hexpiry, h⟩ := bind_inv h
  obtain ⟨⟨mid, updated⟩, hupdate, h⟩ := bind_inv h
  obtain ⟨hsome, h⟩ := check_inv h
  cases h
  have hsome := of_require hsome
  rcases updateDelivery_cases hupdate with ⟨rfl, -, -⟩ | ⟨row, hfind, hmatch, hcheck, -, rfl⟩
  · simp at hsome
  · exact ⟨row, expiresAt, hfind, hmatch, mapError_eq_ok.mp hexpiry, hcheck, rfl, rfl⟩

theorem renewedRow_advances (hstate : row.state = .claimed) (lease : Lease) (now : Datetime) :
    row.Advances (renewedRow row lease now) :=
  ⟨rfl, rfl, rfl, rfl, rfl, fun h => by simp [hstate, isTerminal] at h, le_rfl,
    fun _ => Or.inl ⟨hstate, rfl⟩⟩

/-! ## A settlement -/

/-- An inbox entry leaves every other table alone. -/
theorem recordInbox_tables {entry : InboxEntry} {recorded : Bool}
    (h : store.recordInbox delivery entry = .ok (store', recorded)) :
    ∃ inbox, store' = { store with inbox := inbox } := by
  unfold recordInbox at h
  obtain ⟨-, h⟩ := check_inv h
  split at h
  · obtain ⟨-, h⟩ := check_inv h
    obtain ⟨rfl, -⟩ := Prod.mk.inj (ok_inj h)
    exact ⟨store.inbox, rfl⟩
  · obtain ⟨-, h⟩ := check_inv h
    obtain ⟨rfl, -⟩ := Prod.mk.inj (ok_inj h)
    exact ⟨_, rfl⟩

theorem settlementState_ne (subscription : DurableSubscription) (delivery : Delivery)
    (target : SettlementTarget) : settlementState subscription delivery target ≠ .claimed ∧
      settlementState subscription delivery target ≠ .pending := by
  unfold settlementState
  split
  · exact ⟨by decide, by decide⟩
  · cases target <;> simp [SettlementTarget.state]

theorem noteInbox_tables {entry : Option InboxEntry} {recorded : Bool}
    (h : store.noteInbox delivery entry = .ok (store', recorded)) :
    ∃ inbox, store' = { store with inbox := inbox } := by
  cases entry with
  | none =>
    obtain ⟨rfl, -⟩ := Prod.mk.inj (ok_inj h)
    exact ⟨store.inbox, rfl⟩
  | some entry => exact recordInbox_tables h

/-- The dead letter and the checkpoint of a row that is settled. -/
theorem moved_of_note {dead : Store} (hclaimed : row'.state ≠ .claimed)
    (hpending : row'.state ≠ .pending)
    (h : (store.putDelivery row').noteDeadLetter row' = .ok dead) :
    Moved store subscription row row' (dead.noteCheckpoint subscription row' settledAt).1 := by
  unfold noteDeadLetter at h
  unfold noteCheckpoint
  cases hstate : row'.state with
  | pending => exact absurd hstate hpending
  | claimed => exact absurd hstate hclaimed
  | retryWait =>
    rw [hstate, if_neg (by decide)] at h
    cases h
    have hend : row'.state.isTerminal = false := by rw [hstate]; rfl
    exact .stays hend
  | deadLetter =>
    rw [hstate, if_pos rfl] at h
    obtain ⟨record, hof, hopen, hfirst, rfl⟩ := insertDeadLetter_spec h
    have hmove : Moved store subscription row row' _ :=
      .dies hstate settledAt record hof hopen hfirst
    unfold finish at hmove
    cases horiginal : row'.original <;>
      simpa [horiginal, isTerminal, putDelivery] using hmove
  | acked | dropped =>
    rw [hstate, if_neg (by decide)] at h
    cases h
    have hmove : Moved store subscription row row' _ :=
      .ends (by rw [hstate]; rfl) settledAt (by rw [hstate]; decide)
    unfold finish at hmove
    cases horiginal : row'.original <;>
      simpa [horiginal, isTerminal, putDelivery] using hmove

/-- What a settlement does: it needs the current lease, and moves its row. -/
theorem settleDelivery_spec (h : store.settleDelivery settlement now = .ok (store', result)) :
    ∃ row subscription inbox, store.findDelivery settlement.lease.deliveryId = some row ∧
      row.leaseMatches settlement.lease now = true ∧
      store.selectSubscription row.id.subscription = some subscription ∧
      let state := settlementState subscription row settlement.target
      let row' := settledRow row state settlement now
      row'.checkConstraints = .ok () ∧
        Moved { store with inbox := inbox } subscription row row' store' ∧
        result.delivery = row' := by
  unfold settleDelivery at h
  dsimp only at h
  obtain ⟨row, hfound, h⟩ := bind_inv h
  obtain ⟨hfind, hmatch⟩ := Option.filter_eq_some_iff.mp (orRaise_eq_ok.mp hfound)
  obtain ⟨delivery, hdecode, h⟩ := bind_inv h
  obtain ⟨rfl, -, -⟩ := fromRow_eq_ok hdecode
  obtain ⟨subscription, hselect, h⟩ := bind_inv h
  obtain ⟨-, h⟩ := check_inv h
  obtain ⟨⟨noted, recorded⟩, hnoted, h⟩ := bind_inv h
  obtain ⟨inbox, rfl⟩ := noteInbox_tables hnoted
  obtain ⟨⟨mid, updated⟩, hupdate, h⟩ := bind_inv h
  obtain ⟨written, hwritten, h⟩ := bind_inv h
  obtain rfl := orRaise_eq_ok.mp hwritten
  rcases updateDelivery_cases hupdate with ⟨hnone, -, -⟩ | ⟨found, hfound', -, hcheck, hup, rfl⟩
  · simp at hnone
  obtain rfl : row = found := Option.some.inj (hfind.symm.trans hfound')
  cases hup
  obtain ⟨dead, hdead, h⟩ := bind_inv h
  obtain ⟨delivery, hdecode', h⟩ := bind_inv h
  obtain ⟨rfl, -, -⟩ := fromRow_eq_ok hdecode'
  cases h
  have hne := settlementState_ne subscription row settlement.target
  exact ⟨row, subscription, inbox, hfind, hmatch, orRaise_eq_ok.mp hselect, hcheck,
    moved_of_note hne.1 hne.2 hdead, rfl⟩

/-! ## A cancellation -/

variable {items : List RetirementCancellationItem}

/-- What a cancellation does to one row. -/
theorem cancelRow_spec {items' : List RetirementCancellationItem} (hids : store.DistinctIds)
    (hrow : row ∈ store.deliveries)
    (h : cancelRow cancelledAt (store, items) row = .ok (store', items')) :
    (cancelledRow row cancelledAt).checkConstraints = .ok () ∧
      store' = store.putDelivery (cancelledRow row cancelledAt) := by
  unfold cancelRow at h
  obtain ⟨delivery, hdecode, h⟩ := bind_inv h
  obtain ⟨rfl, -, -⟩ := fromRow_eq_ok hdecode
  obtain ⟨⟨mid, updated⟩, hupdate, h⟩ := bind_inv h
  obtain ⟨hcheck, rfl, rfl⟩ := updateDelivery_of_mem hids hrow (by simp) hupdate
  obtain ⟨-, h⟩ := check_inv h
  obtain ⟨rfl, -⟩ := Prod.mk.inj (ok_inj h)
  exact ⟨hcheck, rfl⟩

/-- The rows that a cancellation takes, in order. -/
def cancellableRows (store : Store) (subscription : DurableSubscription)
    (request : RetirementCancellationRequest) : List Delivery :=
  (((store.nonterminalOf subscription).filter
    (store.withinRetirement subscription)).insertionSort Delivery.Le).take request.limit

theorem mem_of_mem_cancellableRows {request : RetirementCancellationRequest}
    (h : row ∈ store.cancellableRows subscription request) :
    row ∈ store.nonterminalOf subscription := by
  unfold cancellableRows at h
  have h := mem_of_mem_take h
  rw [(perm_insertionSort Delivery.Le _).mem_iff, mem_filter] at h
  exact h.1

theorem nodup_cancellableRows (hids : store.DistinctIds) (subscription : DurableSubscription)
    (request : RetirementCancellationRequest) :
    ((store.cancellableRows subscription request).map Delivery.id).Nodup := by
  unfold cancellableRows
  rw [map_take]
  exact (nodup_of_sublist_sort hids ((filter_sublist.trans filter_sublist).trans
    (deliveriesOf_sublist _ _))).sublist (take_sublist _ _)

/-- What a cancellation does: it answers a repeated command, or cancels rows of a retired
subscription and moves the checkpoints of their streams. -/
theorem cancelRetiredSubscription_spec {request : RetirementCancellationRequest}
    (h : store.cancelRetiredSubscription request now = .ok (store', report)) :
    store' = store ∨ ∃ subscription cancelledAt mid items,
      store.selectSubscription request.subscription = some subscription ∧
      subscription.status = .retired ∧
      (store.cancellableRows subscription request).foldlM (cancelRow cancelledAt) (store, []) =
        .ok (mid, items) ∧
      store' = { (affectedStreams (store.cancellableRows subscription request)).foldl
          (fun store streamId => (store.advanceCheckpoint subscription streamId cancelledAt).1) mid
        with cancellations := store'.cancellations } := by
  unfold cancelRetiredSubscription at h
  split at h
  · obtain ⟨-, h⟩ := check_inv h
    exact Or.inl (Prod.mk.inj (ok_inj h)).1.symm
  · obtain ⟨subscription, hselect, h⟩ := bind_inv h
    obtain ⟨hretired, h⟩ := check_inv h
    iterate 2 rcases check_inv h with ⟨-, h⟩
    obtain ⟨⟨mid, items⟩, hfold, h⟩ := bind_inv h
    obtain ⟨rfl, -⟩ := Prod.mk.inj (ok_inj h)
    exact Or.inr ⟨subscription, _, mid, items,
      (Option.filter_eq_some_iff.mp (orRaise_eq_ok.mp hselect)).1, of_require hretired, hfold, rfl⟩

/-! ## A dead letter -/

/-- What the resolution of a dead letter does. -/
theorem resolveDeadLetter_spec {record' : DeadLetterRecord}
    (h : store.resolveDeadLetter action = .ok (store', record')) :
    ∃ record audit, store.findDeadLetter action.deadLetterId = some record ∧
      record.disposition = .open ∧ store' = store.disposeDeadLetter record .resolved audit := by
  unfold resolveDeadLetter at h
  obtain ⟨record, hfind, h⟩ := bind_inv h
  obtain ⟨hopen, h⟩ := check_inv h
  obtain ⟨-, h⟩ := check_inv h
  obtain ⟨rfl, -⟩ := Prod.mk.inj (ok_inj h)
  exact ⟨record, _, orRaise_eq_ok.mp hfind, of_require hopen, rfl⟩

/-- What a requeue does: an open dead letter gets a new generation, which is pending. -/
theorem requeueDeadLetter_spec (h : store.requeueDeadLetter action now = .ok (store', row)) :
    ∃ record subscription audit, store.findDeadLetter action.deadLetterId = some record ∧
      record.disposition = .open ∧
      store.selectSubscription record.deliveryId.subscription = some subscription ∧
      subscription.status ≠ .retired ∧ store.pendingCapacityExhausted subscription = false ∧
      let id : DeliveryId := { record.deliveryId with
        deliveryGeneration :=
          store.nextGeneration record.deliveryId.eventId record.deliveryId.subscription }
      store.findDelivery id = none ∧
      row = newDelivery id record.tenantId record.streamId record.streamSequence
        record.consumerEffectId now ∧
      store' = { store with deliveries := store.deliveries ++ [row] }.disposeDeadLetter record
        .requeued audit := by
  unfold requeueDeadLetter at h
  obtain ⟨-, h⟩ := check_inv h
  obtain ⟨record, hfind, h⟩ := bind_inv h
  obtain ⟨-, h⟩ := check_inv h
  obtain ⟨hopen, h⟩ := check_inv h
  obtain ⟨subscription, hselect, h⟩ := bind_inv h
  obtain ⟨hretired, h⟩ := check_inv h
  iterate 2 rcases check_inv h with ⟨-, h⟩
  obtain ⟨hcapacity, h⟩ := check_inv h
  obtain ⟨hnew, h⟩ := check_inv h
  cases h
  refine ⟨record, subscription, _, orRaise_eq_ok.mp hfind, of_require hopen,
    orRaise_eq_ok.mp hselect, of_require hretired, ?_, ?_, rfl, rfl⟩
  · simpa using of_require hcapacity
  · simpa using of_require hnew

/-! ## The operations that let rows advance -/

/-- The rows that are left are distinct rows of the table, and the tables have advanced. -/
structure Pending (before : Store) (rest : List Delivery) (store : Store) : Prop where
  advances : Advances before store
  distinct : store.DistinctIds
  nodup : (rest.map Delivery.id).Nodup
  mem : ∀ row ∈ rest, row ∈ store.deliveries

/-- The first row that is left moves; the others stay as they are. -/
theorem Pending.next {before : Store} {rest : List Delivery}
    (h : Pending before (row :: rest) store) (hadv : Advances store store')
    (hothers : ∀ other ∈ store.deliveries, other.id ≠ row.id → other ∈ store'.deliveries) :
    Pending before rest store' where
  advances := h.advances.trans hadv
  distinct := hadv.distinctIds h.distinct
  nodup := (nodup_cons.mp h.nodup).2
  mem := fun other hother => by
    apply hothers other (h.mem other (mem_cons_of_mem _ hother))
    intro heq
    exact (nodup_cons.mp h.nodup).1 (heq ▸ mem_map_of_mem hother)

variable {P : List Delivery → Store → Prop}

/-- What every recovery of a claim keeps holds after all of them. -/
theorem recoverExpiredClaims_keeps (hids : store.DistinctIds)
    (hinv : P (store.expiredClaims subscription now) store)
    (h : (store.expiredClaims subscription now).foldlM (recoverClaim subscription now) store =
      .ok store') (keep : ∀ s s' row rest state availableAt, P (row :: rest) s → Advances store s →
      s.DistinctIds → row ∈ s.deliveriesOf subscription → row.state = .claimed →
      ((state = .retryWait ∧ row.attemptCount < subscription.retryPolicy.maxAttempts) ∨
        (state = .deadLetter ∧ availableAt = none)) →
      (expiredRow row state availableAt now).checkConstraints = .ok () →
      Moved s subscription row (expiredRow row state availableAt now) s' → P rest s') :
    P [] store' ∧ Advances store store' := by
  have hstart : Pending store (store.expiredClaims subscription now) store ∧
      (∀ row ∈ store.expiredClaims subscription now, row ∈ store.claimedOf subscription) ∧
      P (store.expiredClaims subscription now) store :=
    ⟨⟨Advances.refl _, hids, nodup_expiredClaims hids _ _, fun row hrow =>
        (mem_deliveriesOf.mp (mem_claimedOf.mp (mem_expiredClaims.mp hrow).1).1).1⟩,
      fun row hrow => (mem_expiredClaims.mp hrow).1, hinv⟩
  have hend := of_foldlM_keeps
    (P := fun rest s => Pending store rest s ∧
      (∀ row ∈ rest, row ∈ store.claimedOf subscription) ∧ P rest s) ?_ hstart h
  · exact ⟨hend.2.2, hend.1.advances⟩
  · rintro row rest s s' ⟨hpending, hrows, hs⟩ hstep
    have hrow := hpending.mem row mem_cons_self
    obtain ⟨hof, hstate⟩ := mem_claimedOf.mp (hrows row mem_cons_self)
    rcases recoverClaim_spec hpending.distinct hrow hstate hstep with
      ⟨state, availableAt, hnew, hcheck, hmoved⟩
    have hne : state ≠ .claimed := by
      rcases hnew with ⟨rfl, -⟩ | ⟨rfl, -⟩ <;> decide
    have hadv := hmoved.advances hpending.distinct hrow (expiredRow_advances hstate hne _ _)
    refine ⟨hpending.next hadv fun other hother hid => hmoved.mem_of_ne hother hid,
      fun other hother => hrows other (mem_cons_of_mem _ hother), ?_⟩
    exact keep s s' row rest state availableAt hs hpending.advances hpending.distinct
      (mem_deliveriesOf.mpr ⟨hrow, (mem_deliveriesOf.mp hof).2⟩) hstate hnew hcheck hmoved

/-- What every claim of a row keeps holds after all of them. -/
theorem claimRows_keeps (hids : store.DistinctIds) (hnodup : (rows.map Delivery.id).Nodup)
    (hrows : ∀ row ∈ rows, row ∈ store.deliveries ∧ row.claimable now = true)
    (hinv : P rows store) (h : rows.foldlM (claimRow request now) (store, []) = .ok (store', out))
    (keep : ∀ s row rest expiresAt, P (row :: rest) s → Advances store s → s.DistinctIds →
      row ∈ s.deliveries → row.claimable now = true →
      now.addMicros request.lease.durationMicros = .ok expiresAt →
      let lease : Lease := ⟨request.leaseOwner,
        max ((row.lease.map Lease.generation).getD 0 + 1) (row.attemptCount + 1), expiresAt⟩
      let row' := claimedRow row (row.attemptCount + 1) lease now
      row'.checkConstraints = .ok () → row.Advances row' → P rest (s.putDelivery row')) :
    P [] store' ∧ Advances store store' := by
  have hstart : Pending store rows store ∧ (∀ row ∈ rows, row.claimable now = true) ∧
      P rows store :=
    ⟨⟨Advances.refl _, hids, hnodup, fun row hrow => (hrows row hrow).1⟩,
      fun row hrow => (hrows row hrow).2, hinv⟩
  have hend := of_foldlM_keeps
    (P := fun rest (s : Store × List ClaimedDelivery) => Pending store rest s.1 ∧
      (∀ row ∈ rest, row.claimable now = true) ∧ P rest s.1) ?_ hstart h
  · exact ⟨hend.2.2, hend.1.advances⟩
  · rintro row rest ⟨s, claimed⟩ ⟨s', claimed'⟩ ⟨hpending, hclaimable, hs⟩ hstep
    have hrow := hpending.mem row mem_cons_self
    have hrowClaimable := hclaimable row mem_cons_self
    rcases claimRow_spec hpending.distinct hrow hrowClaimable hstep with
      ⟨expiresAt, event, hexpiry, -, hcheck, rfl, -⟩
    have hrowAdv := claimedRow_advances (nonterminal_of_claimable hrowClaimable)
      (Nat.lt_succ_self row.attemptCount)
      ⟨request.leaseOwner,
        max ((row.lease.map Lease.generation).getD 0 + 1) (row.attemptCount + 1), expiresAt⟩ now
    have hadv := putDelivery_advances hpending.distinct hrow hrowAdv
    refine ⟨hpending.next hadv fun other hother hid => mem_putDelivery_of_ne hother hid,
      fun other hother => hclaimable other (mem_cons_of_mem _ hother), ?_⟩
    exact keep s row rest expiresAt hs hpending.advances hpending.distinct hrow hrowClaimable
      hexpiry hcheck hrowAdv

/-- What every cancellation of a row keeps holds after all of them. -/
theorem cancelRows_keeps (hids : store.DistinctIds) (hnodup : (rows.map Delivery.id).Nodup)
    (hrows : ∀ row ∈ rows, row ∈ store.deliveries ∧ row.nonterminal = true) (hinv : P rows store)
    (h : rows.foldlM (cancelRow cancelledAt) (store, []) = .ok (store', items))
    (keep : ∀ s row rest, P (row :: rest) s → Advances store s → s.DistinctIds →
      row ∈ s.deliveries → row.nonterminal = true →
      (cancelledRow row cancelledAt).checkConstraints = .ok () →
      P rest (s.putDelivery (cancelledRow row cancelledAt))) :
    P [] store' ∧ Advances store store' := by
  have hstart : Pending store rows store ∧ (∀ row ∈ rows, row.nonterminal = true) ∧
      P rows store :=
    ⟨⟨Advances.refl _, hids, hnodup, fun row hrow => (hrows row hrow).1⟩,
      fun row hrow => (hrows row hrow).2, hinv⟩
  have hend := of_foldlM_keeps
    (P := fun rest (s : Store × List RetirementCancellationItem) => Pending store rest s.1 ∧
      (∀ row ∈ rest, row.nonterminal = true) ∧ P rest s.1) ?_ hstart h
  · exact ⟨hend.2.2, hend.1.advances⟩
  · rintro row rest ⟨s, claimed⟩ ⟨s', claimed'⟩ ⟨hpending, hopen, hs⟩ hstep
    have hrow := hpending.mem row mem_cons_self
    have hrowOpen := hopen row mem_cons_self
    obtain ⟨hcheck, rfl⟩ := cancelRow_spec hpending.distinct hrow hstep
    have hadv := putDelivery_advances hpending.distinct hrow
      (cancelledRow_advances hrowOpen cancelledAt)
    refine ⟨hpending.next hadv fun other hother hid => mem_putDelivery_of_ne hother hid,
      fun other hother => hopen other (mem_cons_of_mem _ hother), ?_⟩
    exact keep s row rest hs hpending.advances hpending.distinct hrow hrowOpen hcheck

/-! ## Every operation on rows lets the tables advance -/

section Advance

variable {store store' : Store} {now : Datetime}

theorem claimDeliveries_advances (hids : store.DistinctIds)
    (h : store.claimDeliveries request now = .ok (store', out)) : Advances store store' := by
  rcases claimDeliveries_spec h with ⟨subscription, -, ⟨rfl, -⟩ | ⟨mid, hmid, hrest⟩⟩
  · exact Advances.refl _
  have hrecovered := (recoverExpiredClaims_keeps (P := fun _ _ => True) hids trivial hmid
    fun _ _ _ _ _ _ _ _ _ _ _ _ _ _ => trivial).2
  rcases hrest with ⟨rfl, -⟩ | ⟨-, limit, -, hfold⟩
  · exact hrecovered
  · have hmidIds := hrecovered.distinctIds hids
    have hnodup : (((mid.claimableRows subscription request now).take limit).map
        Delivery.id).Nodup := by
      rw [map_take]
      exact (nodup_claimableRows hmidIds _ _ _).sublist (take_sublist _ _)
    refine hrecovered.trans (claimRows_keeps (P := fun _ _ => True) hmidIds hnodup ?_ trivial
      hfold fun _ _ _ _ _ _ _ _ _ _ _ _ => trivial).2
    intro row hrow
    obtain ⟨hof, -, hclaimable, -⟩ := mem_claimableRows.mp (mem_of_mem_take hrow)
    exact ⟨(mem_deliveriesOf.mp hof).1, hclaimable⟩

theorem renewDeliveryLease_advances {lease : LeasePolicy} (hids : store.DistinctIds)
    (h : store.renewDeliveryLease token lease now = .ok (store', token')) :
    Advances store store' := by
  obtain ⟨row, expiresAt, hfind, hmatch, -, -, rfl, -⟩ := renewDeliveryLease_spec h
  exact putDelivery_advances hids (mem_of_findDelivery hfind).1
    (renewedRow_advances (leaseMatches_iff.mp hmatch).2.1 _ _)

theorem settleDelivery_advances (hids : store.DistinctIds)
    (h : store.settleDelivery settlement now = .ok (store', result)) : Advances store store' := by
  obtain ⟨row, subscription, inbox, hfind, hmatch, -, -, hmoved, -⟩ := settleDelivery_spec h
  have hnoted : Advances store { store with inbox := inbox } := Advances.of_eq rfl rfl rfl rfl rfl rfl
  exact hnoted.trans (hmoved.advances hids (mem_of_findDelivery hfind).1
    (settledRow_advances (leaseMatches_iff.mp hmatch).2.1 (settlementState_ne _ _ _).1 _ _))

theorem advanceCheckpoints_advances (subscription : DurableSubscription) (settledAt : Datetime)
    (streams : List String) (store : Store) : Advances store (streams.foldl
      (fun store streamId => (store.advanceCheckpoint subscription streamId settledAt).1) store) := by
  induction streams generalizing store with
  | nil => exact Advances.refl _
  | cons streamId streams ih => exact (advanceCheckpoint_advances store _ _ _).trans (ih _)

theorem cancelRetiredSubscription_advances {request : RetirementCancellationRequest}
    (hids : store.DistinctIds)
    (h : store.cancelRetiredSubscription request now = .ok (store', report)) :
    Advances store store' := by
  rcases cancelRetiredSubscription_spec h with
    rfl | ⟨subscription, cancelledAt, mid, items, -, -, hfold, hstore⟩
  · exact Advances.refl _
  have hrows := (cancelRows_keeps (P := fun _ _ => True) hids
    (nodup_cancellableRows hids subscription request) (fun row hrow => ?_) trivial hfold
    fun _ _ _ _ _ _ _ _ _ => trivial).2
  · have hcheckpoints := advanceCheckpoints_advances subscription cancelledAt
      (affectedStreams (store.cancellableRows subscription request)) mid
    rw [hstore]
    exact (hrows.trans hcheckpoints).trans (Advances.of_eq rfl rfl rfl rfl rfl rfl)
  · obtain ⟨hof, hopen⟩ := mem_nonterminalOf.mp (mem_of_mem_cancellableRows hrow)
    exact ⟨(mem_deliveriesOf.mp hof).1, hopen⟩

theorem disposeDeadLetter_advances {record : DeadLetterRecord}
    (hrecord : record ∈ store.deadLetters) (disposition : DeadLetterDisposition)
    (audit : OperatorAudit) : Advances store (store.disposeDeadLetter record disposition audit) := by
  refine ⟨rfl, rfl, rfl, rfl, forall₂_same.mpr fun row _ => Delivery.Advances.refl row, ?_⟩
  intro hplaced r hr
  rcases mem_replace hr with rfl | hold
  · obtain ⟨row, hrow, hof⟩ := hplaced record hrecord
    exact ⟨row, hrow, hof.deliveryId, hof.tenantId, hof.streamId, hof.streamSequence⟩
  · exact hplaced r hold

theorem resolveDeadLetter_advances {record : DeadLetterRecord}
    (h : store.resolveDeadLetter action = .ok (store', record)) : Advances store store' := by
  obtain ⟨record, audit, hfind, -, rfl⟩ := resolveDeadLetter_spec h
  exact disposeDeadLetter_advances (mem_of_find? hfind).1 _ _

end Advance

end Store

end EventStore
