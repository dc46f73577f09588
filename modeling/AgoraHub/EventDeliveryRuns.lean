/-
# Deliveries in every run

Whatever its callers do, and in whatever order their transactions commit, the store
delivers each stream in order, keeps the checkpoints at their frontiers, stays within
attempts and limits, and lets only the holder of the current lease settle or renew.  No
assumption on the clock is needed: a transaction takes one reading, and every comparison
of a lease is with that reading.
-/
import AgoraHub.EventDeliveryInvariant

namespace EventStore

open Fallible Datetime List

namespace Store

/-- What is promised of every state. -/
structure Guarantees (store : Store) : Prop where
  inOrder : store.InOrder
  checkpoints : ∀ place, store.FrontierAt place
  attempts : ∀ subscription ∈ store.subscriptions, ∀ row ∈ store.deliveriesOf subscription,
    row.attemptCount ≤ subscription.retryPolicy.maxAttempts
  deadLetters : ∀ row ∈ store.deliveries, row.state = .deadLetter →
    (store.deadLetters.filter fun record => record.deliveryId = row.id).length = 1
  limits : ∀ subscription ∈ store.subscriptions, store.WithinLimits subscription

/-- The delivery is claimed under the lease of the token, which has not expired. -/
def Holds (store : Store) (token : DeliveryLeaseToken) (now : Datetime) : Prop :=
  ∃ row, store.findDelivery token.deliveryId = some row ∧ row.state = .claimed ∧
    row.lease = some token.lease ∧ now < token.lease.expiresAt

/-- The store renews the token, or settles with it. -/
def Accepts (store : Store) (token : DeliveryLeaseToken) (now : Datetime) : Prop :=
  (∃ lease out, store.renewDeliveryLease token lease now = .ok out) ∨
    ∃ settlement out, settlement.lease = token ∧ store.settleDelivery settlement now = .ok out

variable {store : Store} {token : DeliveryLeaseToken} {now : Datetime}

theorem holds_of_accepts (h : store.Accepts token now) : store.Holds token now := by
  rcases h with ⟨lease, ⟨store', token'⟩, hcall⟩ | ⟨settlement, ⟨store', result⟩, rfl, hcall⟩
  · rcases renewDeliveryLease_spec hcall with ⟨row, -, hfind, hmatch, -⟩
    exact ⟨row, hfind, (leaseMatches_iff.mp hmatch).2⟩
  · rcases settleDelivery_spec hcall with ⟨row, -, -, hfind, hmatch, -⟩
    exact ⟨row, hfind, (leaseMatches_iff.mp hmatch).2⟩

/-! ## Rows over a run -/

/-- Every row of the first tables leads to a row of the second. -/
def Leads (store store' : Store) : Prop :=
  ∀ row ∈ store.deliveries, ∃ row' ∈ store'.deliveries, row.Advances row'

theorem Leads.refl (store : Store) : Leads store store :=
  fun row hrow => ⟨row, hrow, Delivery.Advances.refl row⟩

theorem Leads.trans {a b c : Store} (hab : Leads a b) (hbc : Leads b c) : Leads a c := by
  intro row hrow
  rcases hab row hrow with ⟨row', hrow', hadv⟩
  rcases hbc row' hrow' with ⟨row'', hrow'', hadv'⟩
  exact ⟨row'', hrow'', hadv.trans hadv'⟩

variable {store' : Store}

theorem Leads.of_subset (h : store.deliveries ⊆ store'.deliveries) :
    Leads store store' := fun row hrow => ⟨row, h hrow, Delivery.Advances.refl row⟩

theorem leads_commit (hwf : store.WellFormed) {timed : TimedCall}
    (hcall : store.commit timed = .ok store') : Leads store store' := by
  rcases (commit_grows hwf hcall).2 with hadv | hsub
  · exact fun _ hrow => hadv.mem hrow
  · exact Leads.of_subset hsub

/-- What every state of a run meets. -/
structure Invariant (store : Store) : Prop where
  wellFormed : store.WellFormed
  flow : store.Flow
  recorded : store.Recorded
  frontier : ∀ place, store.FrontierAt place

theorem invariant_empty : Invariant {} :=
  ⟨wellFormed_empty, flow_empty, recorded_empty, fun place n h => by
    rcases h.1 with ⟨row, hrow, -⟩
    exact not_mem_nil (mem_originalsAt.mp hrow).1⟩

/-- A step keeps the invariant, what is reached, and the rows. -/
theorem Invariant.step {store : Store} (h : store.Invariant) (timed : TimedCall) :
    (Store.step store timed).Invariant ∧
      (∀ place n, store.ReachedAt place n → (Store.step store timed).ReachedAt place n) ∧
      Leads store (Store.step store timed) := by
  unfold Store.step
  cases hcall : store.commit timed with
  | error e => exact ⟨h, fun _ _ => id, Leads.refl _⟩
  | ok store' =>
    rcases flow_commit h.wellFormed h.flow h.recorded hcall with ⟨hflow, hrecorded⟩
    rcases frontier_commit h.wellFormed h.frontier hcall with ⟨hfrontier, hreached⟩
    exact ⟨⟨h.wellFormed.commit hcall, hflow, hrecorded, hfrontier⟩, hreached,
      leads_commit h.wellFormed hcall⟩

/-- So does a run. -/
theorem Invariant.run (h : store.Invariant) (calls : List TimedCall) :
    (StepRuns.run Store.step store calls).Invariant ∧ (∀ place n, store.ReachedAt place n →
        (StepRuns.run Store.step store calls).ReachedAt place n) ∧
      Leads store (StepRuns.run Store.step store calls) := by
  induction calls generalizing store with
  | nil => exact ⟨h, fun _ _ => id, Leads.refl _⟩
  | cons timed calls ih =>
    rcases h.step timed with ⟨hinv, hreached, hleads⟩
    rcases ih hinv with ⟨hinv', hreached', hleads'⟩
    exact ⟨hinv', fun place n hn => hreached' place n (hreached place n hn), hleads.trans hleads'⟩

/-- The invariant gives what is promised. -/
theorem Invariant.guarantees (h : store.Invariant) : store.Guarantees where
  inOrder := h.flow.inOrder
  checkpoints := h.frontier
  attempts := fun subscription hmem row hrow => (h.flow.sound subscription hmem row hrow).attempts
  deadLetters := fun row hrow hdead => by
    have hcount : (store.deadLetters.filter fun record => record.deliveryId = row.id).length =
        (store.deadLetters.map DeadLetterRecord.deliveryId).count row.id := by
      rw [← countP_eq_length_filter, count_eq_countP, countP_map]
      refine countP_congr fun record _ => ?_
      simp
    rw [hcount, List.Nodup.count h.recorded.ids, if_pos (h.recorded.dead row hrow hdead)]
  limits := h.flow.limits

/-- A lease that is held has the attempt of its row as its generation. -/
theorem Invariant.generation_of_holds (h : store.Invariant) (hholds : store.Holds token now) :
    ∃ row ∈ store.deliveries, row.id = token.deliveryId ∧ row.state = .claimed ∧
      token.lease.generation = row.attemptCount := by
  rcases hholds with ⟨row, hfind, hstate, hlease, -⟩
  rcases mem_of_findDelivery hfind with ⟨hmem, hid⟩
  rcases h.wellFormed.subscribed row hmem with ⟨subscription, hsubscription, hkey, htenant⟩
  have hsound := h.flow.sound subscription hsubscription row
    (mem_deliveriesOf.mpr ⟨hmem, hkey.symm, htenant.symm⟩)
  exact ⟨row, hmem, hid, hstate, hsound.generation token.lease hlease⟩

variable {settlement : DeliverySettlement} {result : DeliverySettlementResult}

/-- After a settlement its row is not claimed, and keeps its attempts. -/
theorem settled_row (hcall : store.settleDelivery settlement now = .ok (store', result)) :
    ∃ row ∈ store.deliveries, row.id = settlement.lease.deliveryId ∧
      ∃ row' ∈ store'.deliveries, row'.id = row.id ∧ row'.attemptCount = row.attemptCount ∧
        row'.state ≠ .claimed := by
  rcases settleDelivery_spec hcall with ⟨row, subscription, inbox, hfind, -, -, -, hmoved, -⟩
  rcases mem_of_findDelivery hfind with ⟨hmem, hid⟩
  refine ⟨row, hmem, hid, settledRow row (settlementState subscription row settlement.target)
    settlement now, ?_, rfl, rfl, (settlementState_ne _ _ _).1⟩
  rw [hmoved.deliveries]
  have hnoted : row ∈ ({ store with inbox := inbox } : Store).deliveries := hmem
  exact mem_putDelivery hnoted rfl

/-- After a settlement, only leases of later attempts are accepted for the delivery. -/
theorem Invariant.fence (h : store.Invariant)
    (hcall : store.settleDelivery settlement now = .ok (store', result)) (later : List TimedCall)
    {now' : Datetime} (haccepts : (StepRuns.run Store.step store' later).Accepts token now')
    (hid : token.deliveryId = settlement.lease.deliveryId) :
    settlement.lease.lease.generation < token.lease.generation := by
  have hstep : Store.step store ⟨.settleDelivery settlement, now⟩ = store' := by
    unfold Store.step Store.commit
    dsimp only
    rw [hcall]
    rfl
  have hinv' : store'.Invariant := hstep ▸ (h.step ⟨.settleDelivery settlement, now⟩).1
  rcases hinv'.run later with ⟨hend, -, hleads⟩
  rcases h.generation_of_holds (holds_of_accepts (Or.inr ⟨settlement, _, rfl, hcall⟩)) with
    ⟨held, hheld, hheldId, -, hgeneration⟩
  rcases hend.generation_of_holds (holds_of_accepts haccepts) with
    ⟨last, hlast, hlastId, hlastState, hlastGeneration⟩
  rcases settled_row hcall with
    ⟨row, hrow, hrowId, row', hrow', hrowId', hattempts, hstate⟩
  obtain rfl : held = row :=
    inj_on_of_nodup_map h.wellFormed.deliveryIds hheld hrow (hheldId.trans hrowId.symm)
  rcases hleads row' hrow' with ⟨last', hlast', hadv⟩
  obtain rfl : last' = last := inj_on_of_nodup_map hend.wellFormed.deliveryIds hlast' hlast
    (by rw [hadv.id, hrowId', hheldId, hlastId, hid])
  rcases hadv.claims hlastState with ⟨hclaimed, -⟩ | hlt
  · exact absurd hclaimed hstate
  · rw [hgeneration, hlastGeneration, ← hattempts]
    exact hlt

/-- In every state that a run reaches, and whatever follows: what is promised of a state holds,
no checkpoint falls, a token is accepted only under the current lease, and never again once its
delivery was settled with it. -/
theorem delivery_guarantees (calls later : List TimedCall) : let store := StepRuns.run step {} calls
    store.Guarantees ∧
    (∀ place, ∀ n ∈ store.checkpointAt place,
      ∃ m ∈ (StepRuns.run step {} (calls ++ later)).checkpointAt place, n ≤ m) ∧
    (∀ token now, store.Accepts token now → store.Holds token now) ∧
    ∀ settlement now store' result, store.settleDelivery settlement now = .ok (store', result) →
      ∀ token now', (StepRuns.run step store' later).Accepts token now' →
        token.deliveryId = settlement.lease.deliveryId →
          settlement.lease.lease.generation < token.lease.generation := by
  intro store
  have hinv : store.Invariant := (invariant_empty.run calls).1
  have hrun : StepRuns.run step {} (calls ++ later) = StepRuns.run step store later :=
    StepRuns.run_append _ _ _ _
  rcases hinv.run later with ⟨hend, hreached, -⟩
  refine ⟨hinv.guarantees, fun place => ?_, fun token now h => holds_of_accepts h,
    fun settlement now store' result hcall token now' haccepts hid =>
      hinv.fence hcall later haccepts hid⟩
  rw [hrun]
  exact (hinv.frontier place).le (hend.frontier place) (hreached place)

/-! ## What a run keeps -/

/-- No call takes an event away. -/
theorem events_run {store : Store} (hwf : store.WellFormed) (calls : List TimedCall) :
    store.events ⊆ (StepRuns.run step store calls).events := by
  induction calls generalizing store with
  | nil => exact List.Subset.refl _
  | cons timed calls ih =>
    refine List.Subset.trans ?_ (ih (hwf.step timed))
    unfold step
    cases hcall : store.commit timed with
    | error e => exact List.Subset.refl _
    | ok store' => exact (commit_grows hwf hcall).1.2

end Store

end EventStore
