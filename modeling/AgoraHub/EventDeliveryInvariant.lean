/-
# Deliveries under way

What holds of the deliveries of a subscription whatever its workers do: a claim is of
the first delivery that has not ended, attempts and leases are counted together, and the
claims, the lease owners and the work that waits stay within the limits.  `Flow` says
this of the deliveries, `Recorded` of the dead letters beside them.
-/
import AgoraHub.EventCheckpoints

namespace EventStore

open Fallible Datetime List KeyedList DeadLetterRecord RelatedLists

variable {row' : Delivery}

namespace Delivery

/-- What holds of a single delivery of a subscription. -/
structure Sound (subscription : DurableSubscription) (row : Delivery) : Prop where
  attempts : row.attemptCount ≤ subscription.retryPolicy.maxAttempts
  retry : row.state = .retryWait → row.attemptCount < subscription.retryPolicy.maxAttempts
  pending : row.state = .pending → row.attemptCount = 0
  /-- The generation of a lease is the attempt that it was taken for. -/
  generation : ∀ lease ∈ row.lease, lease.generation = row.attemptCount
  claimed : row.state = .claimed ↔ row.lease.isSome = true

/-- A row advances, and it is not claimed by somebody else. -/
structure Winds (row row' : Delivery) : Prop extends row.Advances row' where
  released : row'.state = .claimed →
    row.state = .claimed ∧ row'.lease.map Lease.owner = row.lease.map Lease.owner

theorem Winds.refl (row : Delivery) : row.Winds row :=
  ⟨Advances.refl row, fun h => ⟨h, rfl⟩⟩

theorem Advances.winds {row : Delivery} (h : row.Advances row') (hstate : row'.state ≠ .claimed) :
    row.Winds row' := ⟨h, fun hclaimed => absurd hclaimed hstate⟩

end Delivery

variable {now : Datetime}

namespace Store

/-- The owners of the leases of a subscription. -/
def ownersOf (store : Store) (subscription : DurableSubscription) : Finset String :=
  (((store.claimedOf subscription).filterMap (·.lease)).map Lease.owner).toFinset

/-- Where an original delivery is claimed, those before it have ended. -/
def InOrder (store : Store) : Prop :=
  ∀ row ∈ store.deliveries, row.state = .claimed → row.original = true →
    ∀ earlier ∈ store.originalsAt row.place, earlier.streamSequence < row.streamSequence →
      earlier.state.isTerminal = true

/-- The limits of a subscription. -/
structure WithinLimits (store : Store) (subscription : DurableSubscription) : Prop where
  inFlight : (store.claimedOf subscription).length ≤ subscription.limits.maxInFlight
  concurrency : (store.ownersOf subscription).card ≤ subscription.limits.maxConcurrency
  waiting : (store.nonterminalOf subscription).length ≤ subscription.limits.pendingHardLimit

/-- What holds of the deliveries. -/
structure Flow (store : Store) : Prop where
  sound : ∀ subscription ∈ store.subscriptions, ∀ row ∈ store.deliveriesOf subscription,
    row.Sound subscription
  inOrder : store.InOrder
  limits : ∀ subscription ∈ store.subscriptions, store.WithinLimits subscription

/-- Dead deliveries have dead letters, each one. -/
structure Recorded (store : Store) : Prop where
  ids : (store.deadLetters.map deliveryId).Nodup
  dead : ∀ row ∈ store.deliveries, row.state = .deadLetter →
    row.id ∈ store.deadLetters.map deliveryId

theorem flow_empty : Flow {} where
  sound := by simp
  inOrder := by simp [InOrder]
  limits := by simp

theorem recorded_empty : Recorded {} := ⟨nodup_nil, by simp⟩

variable {store store' : Store}

/-! ## Rows that wind -/

theorem forall₂_deliveriesOf {R : Delivery → Delivery → Prop}
    (hR : ∀ row row', R row row' → row.Advances row')
    (h : List.Forall₂ R store.deliveries store'.deliveries) (subscription : DurableSubscription) :
    List.Forall₂ R (store.deliveriesOf subscription) (store'.deliveriesOf subscription) := by
  refine rel_filter (fun row row' hr => ?_) h
  show (row.id.subscription == subscription.key && row.tenantId == subscription.tenantId) = true ↔
    (row'.id.subscription == subscription.key && row'.tenantId == subscription.tenantId) = true
  rw [(hR row row' hr).id, (hR row row' hr).tenantId]

theorem length_nonterminalOf_le (h : List.Forall₂ Delivery.Advances store.deliveries
    store'.deliveries) (subscription : DurableSubscription) :
    (store'.nonterminalOf subscription).length ≤ (store.nonterminalOf subscription).length := by
  unfold nonterminalOf
  rw [← countP_eq_length_filter, ← countP_eq_length_filter]
  exact countP_le (fun _ _ hadv => hadv.nonterminal)
    (forall₂_deliveriesOf (fun _ _ => id) h subscription)

section Winds

variable (h : List.Forall₂ Delivery.Winds store.deliveries store'.deliveries)

include h

theorem inOrder_of_winds (hinv : store.InOrder) : store'.InOrder := by
  intro row' hrow' hclaimed horiginal earlier' hearlier' hlt
  obtain ⟨row, hrow, hwinds⟩ := exists_left h hrow'
  rcases exists_left (forall₂_originalsAt
    (fun _ _ hw => ⟨hw.toAdvances.original, hw.toAdvances.place⟩) h row'.place) hearlier' with
    ⟨earlier, hearlier, hearlierWinds⟩
  rw [hwinds.toAdvances.place] at hearlier
  rw [hwinds.streamSequence, hearlierWinds.streamSequence] at hlt
  rw [hwinds.toAdvances.original] at horiginal
  have hend := hinv row hrow (hwinds.released hclaimed).1 horiginal earlier hearlier hlt
  rw [hearlierWinds.terminal hend]
  exact hend

theorem withinLimits_of_winds {subscription : DurableSubscription}
    (hinv : store.WithinLimits subscription) : store'.WithinLimits subscription := by
  have hrows := forall₂_deliveriesOf (fun _ _ hw => hw.toAdvances) h subscription
  refine ⟨?_, ?_, ?_⟩
  · refine le_trans ?_ hinv.inFlight
    unfold claimedOf
    rw [← countP_eq_length_filter, ← countP_eq_length_filter]
    refine countP_le (fun row row' hw hclaimed => ?_) hrows
    simpa using (hw.released (by simpa using hclaimed)).1
  · refine le_trans (Finset.card_le_card ?_) hinv.concurrency
    -- an owner holds a claim that was held before
    intro owner howner
    unfold ownersOf claimedOf at howner ⊢
    simp only [mem_toFinset, mem_map, mem_filterMap, mem_filter, beq_iff_eq] at howner ⊢
    obtain ⟨lease', ⟨row', ⟨hrow', hclaimed⟩, hlease'⟩, rfl⟩ := howner
    obtain ⟨row, hrow, hw⟩ := exists_left hrows hrow'
    obtain ⟨hclaimedBefore, howner⟩ := hw.released hclaimed
    rw [hlease', Option.map_some, eq_comm, Option.map_eq_some_iff] at howner
    obtain ⟨lease, hlease, heq⟩ := howner
    exact ⟨lease, ⟨row, ⟨hrow, hclaimedBefore⟩, hlease⟩, heq⟩
  · exact (length_nonterminalOf_le (h.imp fun _ _ hw => hw.toAdvances) subscription).trans
      hinv.waiting

end Winds

variable {subscription : DurableSubscription}

/-- A sound row in the place of another leaves all rows sound. -/
theorem sound_putDelivery (hwf : store.WellFormed) (hinv : store.Flow)
    (hsubscription : subscription ∈ store.subscriptions)
    (hkey : row'.id.subscription = subscription.key) (hsound : row'.Sound subscription) :
    ∀ other ∈ store.subscriptions,
      ∀ written ∈ (store.putDelivery row').deliveriesOf other, written.Sound other := by
  intro other hother written hwritten
  obtain ⟨hmemWritten, hof⟩ := mem_deliveriesOf.mp hwritten
  rcases mem_replace hmemWritten with rfl | hold
  · obtain rfl : subscription = other := inj_on_of_nodup_map hwf.subscriptionKeys hsubscription
      hother (hkey.symm.trans hof.1)
    exact hsound
  · exact hinv.sound other hother written (mem_deliveriesOf.mpr ⟨hold, hof⟩)

/-- One row that winds, to a sound row. -/
theorem Flow.putDelivery (hwf : store.WellFormed) (hinv : store.Flow)
    (hsubscription : subscription ∈ store.subscriptions) {row : Delivery}
    (hrow : row ∈ store.deliveriesOf subscription) (hwinds : row.Winds row')
    (hsound : row'.Sound subscription) : (store.putDelivery row').Flow := by
  obtain ⟨hmem, hkey, -⟩ := mem_deliveriesOf.mp hrow
  have hrows : List.Forall₂ Delivery.Winds store.deliveries (store.putDelivery row').deliveries :=
    forall₂_replace hwf.deliveryIds hmem hwinds.id
      (fun x _ => Delivery.Winds.refl x) hwinds
  exact ⟨sound_putDelivery hwf hinv hsubscription ((congrArg _ hwinds.id).trans hkey) hsound,
    inOrder_of_winds hrows hinv.inOrder,
    fun other hother => withinLimits_of_winds hrows (hinv.limits other hother)⟩

/-- The flow depends on the deliveries, and on the subscriptions as they were registered. -/
theorem Flow.congr (hinv : store.Flow) (deliveries : store'.deliveries = store.deliveries)
    (subscriptions : ∀ subscription' ∈ store'.subscriptions, ∃ subscription ∈ store.subscriptions,
      subscription'.toSubscriptionDefinition = subscription.toSubscriptionDefinition) :
    store'.Flow where
  sound := fun subscription' hmem' row hrow => by
    obtain ⟨subscription, hmem, hdef⟩ := subscriptions subscription' hmem'
    unfold deliveriesOf at hrow
    rw [deliveries, hdef] at hrow
    obtain ⟨h1, h2, h3, h4, h5⟩ := hinv.sound subscription hmem row hrow
    rw [← hdef] at h1 h2
    exact ⟨h1, h2, h3, h4, h5⟩
  inOrder := by
    unfold InOrder originalsAt
    rw [deliveries]
    exact hinv.inOrder
  limits := fun subscription' hmem' => by
    obtain ⟨subscription, hmem, hdef⟩ := subscriptions subscription' hmem'
    obtain ⟨h1, h2, h3⟩ := hinv.limits subscription hmem
    unfold ownersOf claimedOf deliveriesOf at *
    unfold nonterminalOf deliveriesOf at h3
    rw [← hdef, ← deliveries] at h1 h2 h3
    exact ⟨h1, h2, h3⟩

/-! ## Rows that move -/

/-- The dead letters of a row that moves. -/
theorem Moved.recorded (hinv : store.Recorded) {row : Delivery}
    (hmoved : Moved store subscription row row' store') : store'.Recorded := by
  -- another row is dead only if it was, and its dead letter stays
  have hothers : ∀ records : List DeadLetterRecord, row'.state ≠ .deadLetter ∨
      row'.id ∈ records.map deliveryId → ∀ written ∈
        (store.putDelivery row').deliveries, written.state = .deadLetter → written.id ∈
          (store.deadLetters ++ records).map deliveryId := by
    intro records hnew written hwritten hdead
    rw [map_append, mem_append]
    rcases mem_replace hwritten with rfl | hold
    · exact hnew.elim (fun hne => absurd hdead hne) Or.inr
    · exact Or.inl (hinv.dead written hold hdead)
  have hletters : ∀ records settledAt, (store.finish subscription row' records settledAt).deadLetters =
      store.deadLetters ++ records := by
    intro records settledAt
    unfold finish
    split
    · rcases advanceCheckpoint_tables
        { store.putDelivery row' with deadLetters := store.deadLetters ++ records } subscription
        row'.streamId settledAt with ⟨checkpoints, heq⟩
      rw [heq]
    · rfl
  have hrows := hmoved.deliveries
  cases hmoved with
  | stays underWay =>
    refine ⟨hinv.ids, fun written hwritten hdead => ?_⟩
    have hne : row'.state ≠ .deadLetter := by
      intro heq
      rw [heq] at underWay
      cases underWay
    have hold := hothers [] (Or.inl hne) written hwritten hdead
    rw [append_nil] at hold
    exact hold
  | ends _ settledAt kept =>
    refine ⟨by rw [hletters, append_nil]; exact hinv.ids, fun written hwritten hdead => ?_⟩
    rw [hrows] at hwritten
    rw [hletters]
    exact hothers [] (Or.inl kept) written hwritten hdead
  | dies dead settledAt record hof _ hfirst =>
    refine ⟨?_, fun written hwritten hdead => ?_⟩
    · rw [hletters, map_append, nodup_append]
      refine ⟨hinv.ids, by simp, fun id hold _ hnew heq => ?_⟩
      obtain rfl : _ = record.deliveryId := by simpa using hnew
      rw [hof.deliveryId] at heq
      exact find?_eq_none_iff.mp hfirst (heq ▸ hold)
    · rw [hrows] at hwritten
      rw [hletters]
      refine hothers [record] (Or.inr ?_) written hwritten hdead
      simp [hof.deliveryId]

/-- A row that moves to a sound row. -/
theorem Moved.flow (hwf : store.WellFormed) (hinv : store.Flow)
    (hsubscription : subscription ∈ store.subscriptions) {row : Delivery}
    (hrow : row ∈ store.deliveriesOf subscription) (hwinds : row.Winds row')
    (hsound : row'.Sound subscription) (hmoved : Moved store subscription row row' store') :
    store'.Flow := by
  refine (hinv.putDelivery hwf hsubscription hrow hwinds hsound).congr hmoved.deliveries ?_
  have hadv := hmoved.advances hwf.deliveryIds (mem_deliveriesOf.mp hrow).1 hwinds.toAdvances
  intro subscription' hmem'
  rw [hadv.subscriptions] at hmem'
  exact ⟨subscription', hmem', rfl⟩

/-! ## The rows that are written -/

section Written

variable {subscription : DurableSubscription} {row : Delivery}

section

variable (h : row.Sound subscription)

include h

/-- The row that a recovery writes. -/
theorem sound_expiredRow {state : DeliveryState} {availableAt : Option Datetime}
    (hnew : (state = .retryWait ∧ row.attemptCount < subscription.retryPolicy.maxAttempts) ∨
      (state = .deadLetter ∧ availableAt = none)) :
    (expiredRow row state availableAt now).Sound subscription where
  attempts := h.attempts
  retry := fun hretry => by
    rcases hnew with ⟨-, hlt⟩ | ⟨rfl, -⟩
    · exact hlt
    · cases hretry
  pending := fun hpending => by
    rcases hnew with ⟨rfl, -⟩ | ⟨rfl, -⟩ <;> cases hpending
  generation := by simp [expiredRow]
  claimed := by rcases hnew with ⟨rfl, -⟩ | ⟨rfl, -⟩ <;> simp [expiredRow]

/-- The row that a settlement writes: it waits for a retry only where one is left. -/
theorem sound_settledRow (settlement : DeliverySettlement)
    (now : Datetime) : (settledRow row (settlementState subscription row settlement.target)
      settlement now).Sound subscription where
  attempts := h.attempts
  retry := fun hretry => by
    change settlementState subscription row settlement.target = .retryWait at hretry
    show row.attemptCount < subscription.retryPolicy.maxAttempts
    unfold settlementState at hretry
    split at hretry
    · cases hretry
    · rename_i hcan
      rw [not_and] at hcan
      simpa [RetryPolicy.canRetry] using hcan hretry
  pending := fun hpending => absurd hpending (settlementState_ne _ _ _).2
  generation := by simp [settledRow]
  claimed := by
    have hne := (settlementState_ne subscription row settlement.target).1
    simp [settledRow, hne]

/-- The row that a renewal writes. -/
theorem sound_renewedRow (hstate : row.state = .claimed)
    {token : DeliveryLeaseToken} (htoken : row.lease = some token.lease) (expiresAt now : Datetime) :
    (renewedRow row { token.lease with expiresAt := expiresAt } now).Sound subscription where
  attempts := h.attempts
  retry := h.retry
  pending := h.pending
  generation := by
    intro lease hlease
    cases hlease
    exact h.generation token.lease htoken
  claimed := by simp [renewedRow, hstate]

/-- The row that a claim writes. -/
theorem sound_claimedRow (hopen : row.nonterminal = true)
    (hstate : row.state ≠ .claimed) (leaseOwner : String) (expiresAt now : Datetime) :
    (claimedRow row (row.attemptCount + 1) ⟨leaseOwner,
      max ((row.lease.map Lease.generation).getD 0 + 1) (row.attemptCount + 1), expiresAt⟩
        now).Sound subscription where
  attempts := by
    show row.attemptCount + 1 ≤ subscription.retryPolicy.maxAttempts
    have hpositive := subscription.retryPolicy.positive
    cases hcase : row.state with
    | pending => have := h.pending hcase; omega
    | retryWait => exact h.retry hcase
    | claimed => exact absurd hcase hstate
    | acked | dropped | deadLetter =>
      simp [Delivery.nonterminal, hcase, DeliveryState.isTerminal] at hopen
  retry := fun hretry => by cases hretry
  pending := fun hpending => by cases hpending
  generation := by
    have hfree : row.lease = none := by
      have := h.claimed.not.mp hstate
      simpa using this
    intro lease hlease
    cases hlease
    show max ((row.lease.map Lease.generation).getD 0 + 1) (row.attemptCount + 1) =
      row.attemptCount + 1
    simp [hfree]
  claimed := by simp [claimedRow]

/-- The row that a cancellation writes. -/
theorem sound_cancelledRow (cancelledAt : Datetime) :
    (cancelledRow row cancelledAt).Sound subscription where
  attempts := by
    have hattempts := h.attempts
    have hpositive := subscription.retryPolicy.positive
    show (if row.attemptCount < 1 then 1 else row.attemptCount) ≤ _
    split <;> omega
  retry := fun hretry => by cases hretry
  pending := fun hpending => by cases hpending
  generation := by simp [cancelledRow]
  claimed := by simp [cancelledRow]

end

end Written

/-! ## `claim_deliveries` -/

variable {subscription : DurableSubscription}

/-- Nothing is left of the claims whose leases had expired. -/
theorem recoverExpiredClaims_flow (hwf : store.WellFormed) (hinv : store.Flow)
    (hrec : store.Recorded) (hsubscription : subscription ∈ store.subscriptions)
    (h : (store.expiredClaims subscription now).foldlM (recoverClaim subscription now) store =
      .ok store') : (store'.Flow ∧ store'.Recorded ∧ ∀ row ∈ store'.claimedOf subscription,
      row.leaseExpired now = false) ∧ Advances store store' := by
  have hkept := recoverExpiredClaims_keeps
    (P := fun rest s => s.Flow ∧ s.Recorded ∧
      ∀ row ∈ s.claimedOf subscription, row.leaseExpired now = true → row ∈ rest)
    hwf.deliveryIds ⟨hinv, hrec, fun row hrow hexpired => mem_expiredClaims.mpr ⟨hrow, hexpired⟩⟩ h
    ?_
  · refine ⟨⟨hkept.1.1, hkept.1.2.1, fun row hrow => ?_⟩, hkept.2⟩
    by_contra hexpired
    exact not_mem_nil (hkept.1.2.2 row hrow (by simpa using hexpired))
  · rintro s s' row rest state availableAt ⟨hs, hsrec, hleft⟩ hadv hids hrow hstate hnew - hmoved
    have hswf := hwf.of_advances hadv
    have hne : state ≠ .claimed := by rcases hnew with ⟨rfl, -⟩ | ⟨rfl, -⟩ <;> decide
    have hrowAdv := expiredRow_advances hstate hne availableAt now
    have hsub : subscription ∈ s.subscriptions := hadv.subscriptions ▸ hsubscription
    refine ⟨hmoved.flow hswf hs hsub hrow (hrowAdv.winds hne)
        (sound_expiredRow (hs.sound subscription hsub row hrow) hnew), hmoved.recorded hsrec, ?_⟩
    intro other hother hexpired
    obtain ⟨hotherOf, hotherState⟩ := mem_claimedOf.mp hother
    obtain ⟨hotherMem, hotherKeys⟩ := mem_deliveriesOf.mp hotherOf
    rw [hmoved.deliveries] at hotherMem
    rcases mem_replace_iff.mp hotherMem with ⟨rfl, -⟩ | ⟨hold, hotherNe⟩
    · exact absurd hotherState hne
    · rcases mem_cons.mp (hleft other (mem_claimedOf.mpr
        ⟨mem_deliveriesOf.mpr ⟨hold, hotherKeys⟩, hotherState⟩) hexpired) with rfl | hrest
      · exact absurd rfl hotherNe
      · exact hrest

theorem deliveriesOf_putDelivery_of_ne {row' : Delivery} {other : DurableSubscription}
    (hne : row'.id.subscription ≠ other.key) :
    (store.putDelivery row').deliveriesOf other = store.deliveriesOf other := by
  refine filter_replace ?_ fun row _ hid => ?_
  · simp [hne]
  · rw [show row.id = row'.id from hid]
    simp [hne]

/-- Room for a claim of an owner. -/
structure Room (store : Store) (subscription : DurableSubscription) (leaseOwner : String)
    (rows : List Delivery) : Prop where
  inFlight : (store.claimedOf subscription).length + rows.length ≤ subscription.limits.maxInFlight
  concurrency : (insert leaseOwner (store.ownersOf subscription)).card ≤
    subscription.limits.maxConcurrency
  distinct : (rows.map Delivery.id).Nodup
  of : ∀ row ∈ rows, row ∈ store.deliveriesOf subscription ∧ row.state ≠ .claimed
  first : ∀ row ∈ rows, row.original = true → ∀ earlier ∈ store.originalsAt row.place,
    earlier.streamSequence < row.streamSequence → earlier.state.isTerminal = true

/-- One claim takes one place. -/
theorem Room.claim (hwf : store.WellFormed) (hinv : store.Flow)
    (hsubscription : subscription ∈ store.subscriptions) {leaseOwner : String} {row : Delivery}
    {rest : List Delivery} (hroom : store.Room subscription leaseOwner (row :: rest))
    (hadv : row.Advances row') (hopen : row'.nonterminal = true)
    (hclaimed : row'.state = .claimed) (howner : row'.lease.map Lease.owner = some leaseOwner)
    (hsound : row'.Sound subscription) :
    (store.putDelivery row').Flow ∧ (store.putDelivery row').Room subscription leaseOwner rest := by
  obtain ⟨hof, -⟩ := hroom.of row mem_cons_self
  obtain ⟨hmem, hkey, htenant⟩ := mem_deliveriesOf.mp hof
  have hkey' : row'.id.subscription = subscription.key := (congrArg _ hadv.id).trans hkey
  have hput := putDelivery_advances hwf.deliveryIds hmem hadv
  have hcount : ((store.putDelivery row').claimedOf subscription).length ≤
      (store.claimedOf subscription).length + 1 := by
    unfold claimedOf deliveriesOf
    rw [filter_filter, filter_filter, ← countP_eq_length_filter, ← countP_eq_length_filter]
    exact countP_replace_le hwf.deliveryIds row'
  have howners : (store.putDelivery row').ownersOf subscription ⊆
      insert leaseOwner (store.ownersOf subscription) := by
    intro owner hmemOwner
    unfold ownersOf claimedOf at hmemOwner
    simp only [mem_toFinset, mem_map, mem_filterMap, mem_filter, beq_iff_eq] at hmemOwner
    obtain ⟨lease, ⟨written, ⟨hwritten, hwrittenClaimed⟩, hlease⟩, rfl⟩ := hmemOwner
    obtain ⟨hmemWritten, hkeys⟩ := mem_deliveriesOf.mp hwritten
    rw [Finset.mem_insert]
    rcases mem_replace hmemWritten with rfl | hold
    · rw [hlease, Option.map_some] at howner
      exact Or.inl (Option.some.inj howner)
    · right
      unfold ownersOf claimedOf
      simp only [mem_toFinset, mem_map, mem_filterMap, mem_filter, beq_iff_eq]
      exact ⟨lease, ⟨written, ⟨mem_deliveriesOf.mpr ⟨hold, hkeys⟩, hwrittenClaimed⟩, hlease⟩, rfl⟩
  -- what has ended before a row stays so
  have hfirst : ∀ written ∈ store.deliveries, written.original = true → (∀ earlier ∈
      store.originalsAt written.place, earlier.streamSequence < written.streamSequence →
        earlier.state.isTerminal = true) → ∀ earlier ∈
      (store.putDelivery row').originalsAt written.place,
        earlier.streamSequence < written.streamSequence → earlier.state.isTerminal = true := by
    intro written _ _ hbefore earlier' hearlier' hlt
    rcases exists_left (forall₂_originalsAt
      (fun _ _ hw => ⟨hw.original, hw.place⟩) hput.deliveries written.place) hearlier' with
      ⟨earlier, hearlier, hearlierAdv⟩
    rw [hearlierAdv.streamSequence] at hlt
    have hend := hbefore earlier hearlier hlt
    rw [hearlierAdv.terminal hend]
    exact hend
  refine ⟨⟨sound_putDelivery hwf hinv hsubscription hkey' hsound, ?_, ?_⟩, ⟨?_, ?_, ?_, ?_, ?_⟩⟩
  · intro written hwritten hwrittenClaimed horiginal
    rcases mem_replace hwritten with rfl | hold
    · rw [hadv.place, hadv.streamSequence]
      rw [hadv.original] at horiginal
      exact hfirst row hmem horiginal (hroom.first row mem_cons_self horiginal)
    · exact hfirst written hold horiginal (hinv.inOrder written hold hwrittenClaimed horiginal)
  · intro other hother
    by_cases heq : other.key = subscription.key
    · obtain rfl : other = subscription :=
        inj_on_of_nodup_map hwf.subscriptionKeys hother hsubscription heq
      refine ⟨?_, (Finset.card_le_card howners).trans hroom.concurrency, ?_⟩
      · have := hroom.inFlight
        rw [length_cons] at this
        omega
      · exact (length_nonterminalOf_le hput.deliveries other).trans (hinv.limits other hother).waiting
    · have hsame := @deliveriesOf_putDelivery_of_ne store row' other
        (by rw [hkey']; exact Ne.symm heq)
      obtain ⟨h1, h2, h3⟩ := hinv.limits other hother
      unfold claimedOf at h1
      unfold ownersOf claimedOf at h2
      unfold nonterminalOf at h3
      rw [← hsame] at h1 h2 h3
      exact ⟨h1, h2, h3⟩
  · have := hroom.inFlight
    rw [length_cons] at this
    omega
  · refine (Finset.card_le_card ?_).trans hroom.concurrency
    exact Finset.insert_subset (Finset.mem_insert_self _ _) howners
  · exact (nodup_cons.mp hroom.distinct).2
  · intro other hother
    obtain ⟨hotherOf, hstate⟩ := hroom.of other (mem_cons_of_mem _ hother)
    obtain ⟨hotherMem, hkeys⟩ := mem_deliveriesOf.mp hotherOf
    refine ⟨mem_deliveriesOf.mpr ⟨mem_putDelivery_of_ne hotherMem fun hid => ?_, hkeys⟩, hstate⟩
    exact (nodup_cons.mp hroom.distinct).1
      ((hid.trans hadv.id) ▸ mem_map_of_mem hother)
  · intro other hother horiginal
    have hin := mem_cons_of_mem row hother
    exact hfirst other (mem_deliveriesOf.mp (hroom.of other hin).1).1 horiginal
      (hroom.first other hin horiginal)

/-- A claim keeps the flow: it takes the first rows that have not ended, within its limits. -/
theorem flow_claimDeliveries (hwf : store.WellFormed) (hinv : store.Flow) (hrec : store.Recorded)
    {request : DeliveryClaimRequest} {out : List ClaimedDelivery}
    (hcall : store.claimDeliveries request now = .ok (store', out)) :
    store'.Flow ∧ store'.Recorded := by
  rcases claimDeliveries_spec hcall with ⟨subscription, hselect, ⟨rfl, -⟩ | ⟨mid, hmid, hrest⟩⟩
  · exact ⟨hinv, hrec⟩
  have hsubscription := (WellFormed.mem_of_selectSubscription hselect).1
  rcases recoverExpiredClaims_flow hwf hinv hrec hsubscription hmid with
    ⟨⟨hmidFlow, hmidRec, hlive⟩, hmidAdv⟩
  rcases hrest with ⟨rfl, -⟩ | ⟨howner, limit, hlimit, hfold⟩
  · exact ⟨hmidFlow, hmidRec⟩
  have hmidWf := hwf.of_advances hmidAdv
  have hmidSub : subscription ∈ mid.subscriptions := hmidAdv.subscriptions ▸ hsubscription
  set rows := (mid.claimableRows subscription request now).take limit
  -- every claim that is left after the recovery is live
  have hactive : (mid.claimedOf subscription).filter (!·.leaseExpired now) =
      mid.claimedOf subscription := by
    rw [filter_eq_self]
    intro row hrow
    simp [hlive row hrow]
  rw [hactive] at howner hlimit
  have hrows : ∀ row ∈ rows, row ∈ mid.deliveriesOf subscription ∧ row.claimable now = true ∧
      row.state ≠ .claimed ∧ (row.original = true → mid.noneEarlier subscription row = true) := by
    intro row hrow
    rcases mem_claimableRows.mp (mem_of_mem_take hrow) with
      ⟨hof, -, hclaimable, -, -, hfirst⟩
    refine ⟨hof, hclaimable, fun hstate => ?_, fun horiginal => ?_⟩
    · have hnot := hlive row (mem_claimedOf.mpr ⟨hof, hstate⟩)
      simp [Delivery.claimable, hstate, hnot] at hclaimable
    · rcases hfirst with h | h
      · rw [horiginal] at h
        cases h
      · exact h
  have hroom : mid.Room subscription request.leaseOwner rows := by
    refine ⟨?_, ?_, ?_, fun row hrow => ⟨(hrows row hrow).1, (hrows row hrow).2.2.1⟩, ?_⟩
    · have htaken : rows.length ≤ limit := length_take_le _ _
      have := (hmidFlow.limits subscription hmidSub).inFlight
      omega
    · change request.leaseOwner ∈ _ ∨ (mid.ownersOf subscription).card < _ at howner
      rcases howner with hmem | hlt
      · have hin : request.leaseOwner ∈ mid.ownersOf subscription := mem_toFinset.mpr hmem
        rw [Finset.insert_eq_of_mem hin]
        exact (hmidFlow.limits subscription hmidSub).concurrency
      · exact (Finset.card_insert_le _ _).trans hlt
    · rw [map_take]
      exact (nodup_claimableRows hmidWf.deliveryIds _ _ _).sublist (take_sublist _ _)
    · intro row hrow horiginal earlier hearlier hlt
      have hnone := (hrows row hrow).2.2.2 horiginal
      obtain ⟨hmem, hearlierOriginal, hplace⟩ := mem_originalsAt.mp hearlier
      obtain ⟨-, hkey, htenant⟩ := mem_deliveriesOf.mp (hrows row hrow).1
      simp only [Delivery.place, Prod.mk.injEq] at hplace
      have hof : earlier ∈ mid.deliveriesOf subscription := mem_deliveriesOf.mpr
        ⟨hmem, hplace.2.1.trans hkey, hplace.1.trans htenant⟩
      have hnot := all_eq_true.mp hnone earlier hof
      simpa [hplace.2.2, hearlierOriginal, hlt, Delivery.nonterminal] using hnot
  have hkept := claimRows_keeps
    (P := fun rest s => s.Flow ∧ s.Recorded ∧ s.Room subscription request.leaseOwner rest ∧
      ∀ row ∈ rest, row.claimable now = true) hmidWf.deliveryIds hroom.distinct
    (fun row hrow => ⟨(mem_deliveriesOf.mp (hrows row hrow).1).1, (hrows row hrow).2.1⟩)
    ⟨hmidFlow, hmidRec, hroom, fun row hrow => (hrows row hrow).2.1⟩ hfold ?_
  · exact ⟨hkept.1.1, hkept.1.2.1⟩
  · rintro s row rest expiresAt ⟨hs, hsrec, hsroom, hclaimable⟩ hadv hids hrow hrowClaimable -
      lease row' - hrowAdv
    have hswf := hmidWf.of_advances hadv
    have hsub : subscription ∈ s.subscriptions := hadv.subscriptions ▸ hmidSub
    obtain ⟨hof, hstate⟩ := hsroom.of row mem_cons_self
    rcases hsroom.claim hswf hs hsub hrowAdv rfl rfl rfl
      (sound_claimedRow (hs.sound subscription hsub row hof)
        (nonterminal_of_claimable hrowClaimable) hstate _ _ _) with ⟨hflow, hroom'⟩
    refine ⟨hflow, ⟨hsrec.ids, fun written hwritten hdead => ?_⟩, hroom', fun other hother =>
      hclaimable other (mem_cons_of_mem _ hother)⟩
    rcases mem_replace hwritten with rfl | hold
    · cases hdead
    · exact hsrec.dead written hold hdead

/-! ## `cancel_retired_subscription` -/

/-- The checkpoints of several streams leave every other table alone. -/
theorem advanceCheckpoints_tables (subscription : DurableSubscription) (settledAt : Datetime)
    (streams : List String) (store : Store) : ∃ checkpoints, streams.foldl (fun store streamId =>
      (store.advanceCheckpoint subscription streamId settledAt).1) store =
        { store with checkpoints := checkpoints } := by
  induction streams generalizing store with
  | nil => exact ⟨store.checkpoints, rfl⟩
  | cons streamId streams ih =>
    obtain ⟨checkpoints, h⟩ := store.advanceCheckpoint_tables subscription streamId settledAt
    rw [foldl_cons, h]
    rcases ih { store with checkpoints := checkpoints } with ⟨checkpoints', h'⟩
    exact ⟨checkpoints', h'⟩

theorem flow_cancelRetiredSubscription (hwf : store.WellFormed) (hinv : store.Flow)
    (hrec : store.Recorded) {request : RetirementCancellationRequest}
    {report : RetirementCancellationReport}
    (hcall : store.cancelRetiredSubscription request now = .ok (store', report)) :
    store'.Flow ∧ store'.Recorded := by
  rcases cancelRetiredSubscription_spec hcall with
    rfl | ⟨subscription, cancelledAt, mid, items, hselect, -, hfold, hstore⟩
  · exact ⟨hinv, hrec⟩
  have hsubscription := (WellFormed.mem_of_selectSubscription hselect).1
  have hrows : ∀ row ∈ store.cancellableRows subscription request,
      row ∈ store.deliveriesOf subscription ∧ row.nonterminal = true :=
    fun row hrow => mem_nonterminalOf.mp (mem_of_mem_cancellableRows hrow)
  have hkept := cancelRows_keeps
    (P := fun rest s => s.Flow ∧ s.Recorded ∧ ∀ row ∈ rest, row.id.subscription = subscription.key ∧
      row.tenantId = subscription.tenantId)
    hwf.deliveryIds (nodup_cancellableRows hwf.deliveryIds _ _)
    (fun row hrow => ⟨(mem_deliveriesOf.mp (hrows row hrow).1).1, (hrows row hrow).2⟩)
    ⟨hinv, hrec, fun row hrow => (mem_deliveriesOf.mp (hrows row hrow).1).2⟩ hfold ?_
  · -- the checkpoints that move then leave all of this alone
    have htables := advanceCheckpoints_tables subscription cancelledAt
      (affectedStreams (store.cancellableRows subscription request)) mid
    obtain ⟨checkpoints, htables⟩ := htables
    rw [htables] at hstore
    rw [hstore]
    exact ⟨hkept.1.1.congr rfl fun other hother => ⟨other, hother, rfl⟩,
      hkept.1.2.1.ids, hkept.1.2.1.dead⟩
  · rintro s row rest ⟨hs, hsrec, hkeys⟩ hadv hids hmem hopen -
    have hswf := hwf.of_advances hadv
    have hsub : subscription ∈ s.subscriptions := hadv.subscriptions ▸ hsubscription
    have hof : row ∈ s.deliveriesOf subscription :=
      mem_deliveriesOf.mpr ⟨hmem, hkeys row mem_cons_self⟩
    refine ⟨hs.putDelivery hswf hsub hof ((cancelledRow_advances hopen cancelledAt).winds
        fun h => by cases h) (sound_cancelledRow (hs.sound subscription hsub row hof) cancelledAt),
      ⟨hsrec.ids, fun written hwritten hdead => ?_⟩,
      fun other hother => hkeys other (mem_cons_of_mem _ hother)⟩
    rcases mem_replace hwritten with rfl | hold
    · cases hdead
    · exact hsrec.dead written hold hdead

/-! ## Rows that are new -/

/-- New deliveries that are pending, within the limits of each subscription. -/
theorem Flow.addRows (hinv : store.Flow) (states : List SubscriptionStreamState)
    {rows : List Delivery} (hlater : store.Later rows)
    (hrows : ∀ row ∈ rows, row.state = .pending ∧ row.attemptCount = 0 ∧ row.lease = none)
    (hwaiting : ∀ subscription ∈ store.subscriptions, (store.nonterminalOf subscription).length +
      (rows.filter fun row => row.id.subscription == subscription.key).length ≤
        subscription.limits.pendingHardLimit) : (store.addRows states rows).Flow := by
  have hdeliveries : ∀ subscription : DurableSubscription,
      (store.addRows states rows).deliveriesOf subscription = store.deliveriesOf subscription ++
        rows.filter fun row => row.id.subscription == subscription.key &&
          row.tenantId == subscription.tenantId := fun subscription => filter_append _ _
  have hclaimed : ∀ subscription : DurableSubscription,
      (store.addRows states rows).claimedOf subscription = store.claimedOf subscription := by
    intro subscription
    unfold claimedOf
    rw [hdeliveries, filter_append, append_right_eq_self, filter_eq_nil_iff]
    intro row hrow
    simp [(hrows row (mem_of_mem_filter hrow)).1]
  refine ⟨fun subscription hmem row hrow => ?_, fun row hrow hstate horiginal earlier hearlier hlt =>
    ?_, fun subscription hmem => ⟨?_, ?_, ?_⟩⟩
  · rw [hdeliveries, mem_append] at hrow
    rcases hrow with hold | hnew
    · exact hinv.sound subscription hmem row hold
    · obtain ⟨hstate, hattempts, hlease⟩ := hrows row (mem_of_mem_filter hnew)
      refine ⟨by omega, fun h => ?_, fun _ => hattempts, by simp [hlease], by simp [hlease, hstate]⟩
      rw [hstate] at h
      cases h
  · rcases mem_append.mp hrow with hold | hnew
    · obtain ⟨hmem, hearlierOriginal, hplace⟩ := mem_originalsAt.mp hearlier
      rcases mem_append.mp hmem with hmem | hadded
      · exact hinv.inOrder row hold hstate horiginal earlier
          (mem_originalsAt.mpr ⟨hmem, hearlierOriginal, hplace⟩) hlt
      · -- a new row lies behind the claimed one
        have hbehind := (hlater earlier hadded).2 hearlierOriginal row
          (mem_originalsAt.mpr ⟨hold, horiginal, hplace.symm⟩)
        omega
    · rw [(hrows row hnew).1] at hstate
      cases hstate
  · rw [hclaimed]
    exact (hinv.limits subscription hmem).inFlight
  · unfold ownersOf
    rw [hclaimed]
    exact (hinv.limits subscription hmem).concurrency
  · refine le_trans ?_ (hwaiting subscription hmem)
    unfold nonterminalOf
    rw [hdeliveries, filter_append, length_append, filter_filter]
    refine Nat.add_le_add_left ?_ _
    rw [← countP_eq_length_filter, ← countP_eq_length_filter]
    refine countP_mono_left fun row _ h => ?_
    simp only [Bool.and_eq_true] at h
    exact h.2.1

theorem Recorded.addRows (hrec : store.Recorded) (states : List SubscriptionStreamState)
    {rows : List Delivery} (hrows : ∀ row ∈ rows, row.state = .pending) :
    (store.addRows states rows).Recorded := by
  refine ⟨hrec.ids, fun row hrow hdead => ?_⟩
  rcases mem_append.mp hrow with hold | hnew
  · exact hrec.dead row hold hdead
  · rw [hrows row hnew] at hdead
    cases hdead

/-- An append makes at most one delivery to a subscription, where its limit has room. -/
theorem length_append_le (stored : StoredEvent) (now : Datetime) (hwf : store.WellFormed)
    (hinv : store.Flow) (hcapacity : ∀ subscription ∈ store.liveSubscriptions stored.tenantId,
      store.materializes stored subscription = true →
        store.pendingCapacityExhausted subscription = false)
    (hmem : subscription ∈ store.subscriptions) : (store.nonterminalOf subscription).length +
      (((store.liveSubscriptions stored.tenantId).flatMap (store.rowsFor stored now)).filter
        fun row => row.id.subscription == subscription.key).length ≤
          subscription.limits.pendingHardLimit := by
  have hrows : (store.liveSubscriptions stored.tenantId).flatMap (store.rowsFor stored now) =
      ((store.liveSubscriptions stored.tenantId).filter (store.materializes stored)).map
        fun subscription => rowFor subscription stored now 1 := flatMap_if _ _ _
  rw [hrows, filter_map, length_map, filter_filter]
  by_cases hreached : ∃ live ∈ store.liveSubscriptions stored.tenantId,
      store.materializes stored live = true ∧ live.key = subscription.key
  · obtain ⟨live, hlive, hmaterializes, hkey⟩ := hreached
    obtain rfl : live = subscription := inj_on_of_nodup_map hwf.subscriptionKeys
      (mem_liveSubscriptions.mp hlive).1 hmem hkey
    have hroom := hcapacity live hlive hmaterializes
    unfold pendingCapacityExhausted at hroom
    have hone : ((store.liveSubscriptions stored.tenantId).filter fun other =>
        ((fun row : Delivery => row.id.subscription == live.key) ∘
          fun subscription => rowFor subscription stored now 1) other &&
            store.materializes stored other).length ≤ 1 := by
      rw [← countP_eq_length_filter]
      calc _ ≤ (store.liveSubscriptions stored.tenantId).countP
            fun other => other.key == live.key :=
            countP_mono_left fun other _ h => (Bool.and_eq_true_iff.mp h).1
        _ = ((store.liveSubscriptions stored.tenantId).map fun other => other.key).count live.key := by
            rw [count_eq_countP, countP_map]
            rfl
        _ ≤ 1 := nodup_iff_count_le_one.mp (nodup_liveSubscriptions hwf _) _
    simp only [decide_eq_false_iff_not, not_le] at hroom
    omega
  · have hnone : ((store.liveSubscriptions stored.tenantId).filter fun other =>
        ((fun row : Delivery => row.id.subscription == subscription.key) ∘
          fun subscription => rowFor subscription stored now 1) other &&
            store.materializes stored other) = [] := by
      rw [filter_eq_nil_iff]
      intro other hother h
      rw [Bool.and_eq_true] at h
      exact hreached ⟨other, hother, h.2, by simpa [rowFor, newDelivery] using h.1⟩
    rw [hnone]
    exact (hinv.limits subscription hmem).waiting

/-! ## Every call -/

/-- A subscription that is registered newly has no deliveries. -/
theorem Flow.addSubscription (hwf : store.WellFormed) (hinv : store.Flow)
    (hnone : store.selectSubscription subscription.key = none) :
    Flow { store with subscriptions := store.subscriptions ++ [subscription] } := by
  have hempty : deliveriesOf { store with subscriptions := store.subscriptions ++ [subscription] }
      subscription = [] := by
    rw [deliveriesOf, filter_eq_nil_iff]
    intro row hrow heq
    simp only [Bool.and_eq_true, beq_iff_eq] at heq
    obtain ⟨other, hother, hkey, -⟩ := hwf.subscribed row hrow
    exact selectSubscription_eq_none.mp hnone
      ((hkey.trans heq.1) ▸ mem_map_of_mem hother)
  refine ⟨fun other hother row hrow => ?_, hinv.inOrder, fun other hother => ?_⟩
  · rcases mem_append.mp hother with hold | hlast
    · exact hinv.sound other hold row hrow
    · obtain rfl := mem_singleton.mp hlast
      rw [hempty] at hrow
      cases hrow
  · rcases mem_append.mp hother with hold | hlast
    · obtain ⟨h1, h2, h3⟩ := hinv.limits other hold
      exact ⟨h1, h2, h3⟩
    · obtain rfl := mem_singleton.mp hlast
      refine ⟨?_, ?_, ?_⟩
      · rw [claimedOf, hempty]
        exact Nat.zero_le _
      · rw [ownersOf, claimedOf, hempty]
        exact Nat.zero_le _
      · rw [nonterminalOf, hempty]
        exact Nat.zero_le _

/-- Every row of a single new delivery, or of one subscription. -/
theorem waiting_of_rows (hinv : store.Flow) {rows : List Delivery}
    (hkey : ∀ row ∈ rows, row.id.subscription = subscription.key)
    (hroom : (store.nonterminalOf subscription).length + rows.length ≤
      subscription.limits.pendingHardLimit) (hwf : store.WellFormed)
    (hmem : subscription ∈ store.subscriptions) :
    ∀ other ∈ store.subscriptions, (store.nonterminalOf other).length +
      (rows.filter fun row => row.id.subscription == other.key).length ≤
        other.limits.pendingHardLimit := by
  intro other hother
  by_cases heq : other.key = subscription.key
  · obtain rfl : other = subscription :=
      inj_on_of_nodup_map hwf.subscriptionKeys hother hmem heq
    exact le_trans (Nat.add_le_add_left (length_filter_le _ _) _) hroom
  · have hnone : (rows.filter fun row => row.id.subscription == other.key) = [] := by
      rw [filter_eq_nil_iff]
      intro row hrow
      simp [hkey row hrow, Ne.symm heq]
    rw [hnone]
    exact (hinv.limits other hother).waiting

/-- A committed call keeps the flow of the deliveries and their dead letters. -/
theorem flow_commit (hwf : store.WellFormed) (hinv : store.Flow) (hrec : store.Recorded)
    {timed : TimedCall} (hcall : store.commit timed = .ok store') :
    store'.Flow ∧ store'.Recorded := by
  obtain ⟨call, now⟩ := timed
  unfold Store.commit at hcall
  cases call <;> dsimp only at hcall <;> rcases map_fst_eq_ok.mp hcall with ⟨out, hcall⟩
  case appendEvent event expected _ =>
    rcases appendEvent_spec hwf hcall with ⟨rfl, -⟩ | ⟨-, -, hstore, hcapacity⟩
    · exact ⟨hinv, hrec⟩
    have hlater := later_of_appendEvent hwf event now
      (store.liveSubscriptions event.tenantId)
    have hwaiting : ∀ subscription ∈ store.subscriptions, _ := fun subscription hmem =>
      length_append_le ⟨event, now, (store.openStream event now).2.lastSequence + 1⟩ now hwf hinv
        hcapacity hmem
    obtain ⟨streams, stream, hopened, -⟩ := openStream_spec hwf event now
    rw [hopened] at hstore hlater hwaiting
    have hbase : ((({ store with streams := streams } : Store).putEvent stream
        ⟨event, now, stream.lastSequence + 1⟩)).Flow :=
      hinv.congr rfl fun other hother => ⟨other, hother, rfl⟩
    have hrows : ∀ row ∈ (store.liveSubscriptions event.tenantId).flatMap
        (store.rowsFor ⟨event, now, stream.lastSequence + 1⟩ now),
        row.state = .pending ∧ row.attemptCount = 0 ∧ row.lease = none := by
      intro row hrow
      obtain ⟨subscription, -, hrow⟩ := mem_flatMap.mp hrow
      rw [(mem_rowsFor hrow).1]
      exact ⟨rfl, rfl, rfl⟩
    have hrecorded := hrec.addRows [] fun row hrow => (hrows row hrow).1
    rw [hstore]
    exact ⟨hbase.addRows _ (by exact hlater) hrows (by exact hwaiting),
      hrecorded.ids, hrecorded.dead⟩
  case registerSubscription subscription _ =>
    rcases registerSubscription_spec hwf hcall with
      ⟨rfl, -⟩ | ⟨_, hnone, -, hdef, -, -, hstore, hlength⟩
    · exact ⟨hinv, hrec⟩
    rw [← congrArg SubscriptionDefinition.key hdef] at hnone
    have hbase := hinv.addSubscription hwf hnone
    set rows := (store.tenantStreams subscription.tenantId).flatMap (store.backfillRows out now)
    have hrows : ∀ row ∈ rows, (row.state = .pending ∧ row.attemptCount = 0 ∧ row.lease = none) ∧
        row.id.subscription = out.key := by
      intro row hrow
      obtain ⟨stream, -, hrow⟩ := mem_flatMap.mp hrow
      obtain ⟨event, -, rfl⟩ := mem_map.mp hrow
      exact ⟨⟨rfl, rfl, rfl⟩, rfl⟩
    have hlater : store.Later rows := later_of_registerSubscription hwf hnone now _
    have hempty : nonterminalOf { store with subscriptions := store.subscriptions ++ [out] } out =
        [] := by
      rw [nonterminalOf, filter_eq_nil_iff]
      intro row hrow
      exact absurd (mem_deliveriesOf.mp hrow).2.1
        (subscription_ne_of_unregistered hwf hnone (mem_deliveriesOf.mp hrow).1)
    have hrecorded := hrec.addRows [] fun row hrow => (hrows row hrow).1.1
    rw [hstore]
    refine ⟨hbase.addRows _ (by exact hlater) (fun row hrow => (hrows row hrow).1)
      (waiting_of_rows hbase (fun row hrow => (hrows row hrow).2) ?_ (hwf.addSubscription hnone)
        (by simp)), hrecorded.ids, hrecorded.dead⟩
    rw [hempty, length_nil, Nat.zero_add, hdef]
    exact hlength
  case setSubscriptionStatus =>
    obtain ⟨current, states, hselect, -, -, hupdated, rfl⟩ := setSubscriptionStatus_spec hcall
    refine ⟨hinv.congr rfl fun other hother => ?_, hrec.ids, hrec.dead⟩
    rcases mem_replace hother with rfl | hold
    · exact ⟨current, (WellFormed.mem_of_selectSubscription hselect).1, by rw [hupdated]⟩
    · exact ⟨other, hold, rfl⟩
  case claimDeliveries => exact flow_claimDeliveries hwf hinv hrec hcall
  case renewDeliveryLease =>
    obtain ⟨row, expiresAt, hfind, hmatch, -, -, rfl, -⟩ := renewDeliveryLease_spec hcall
    obtain ⟨-, hstate, hlease, -⟩ := leaseMatches_iff.mp hmatch
    have hmem := (mem_of_findDelivery hfind).1
    obtain ⟨subscription, hsubscription, hkey, htenant⟩ := hwf.subscribed row hmem
    have hof : row ∈ store.deliveriesOf subscription :=
      mem_deliveriesOf.mpr ⟨hmem, hkey.symm, htenant.symm⟩
    refine ⟨hinv.putDelivery hwf hsubscription hof
      ⟨renewedRow_advances hstate _ _, fun _ => ⟨hstate, by simp [renewedRow, hlease]⟩⟩
      (sound_renewedRow (hinv.sound subscription hsubscription row hof) hstate hlease _ _),
      hrec.ids, fun written hwritten hdead => ?_⟩
    rcases mem_replace hwritten with rfl | hold
    · rw [show row.state = .deadLetter from hdead] at hstate
      cases hstate
    · exact hrec.dead written hold hdead
  case settleDelivery settlement _ =>
    rcases settleDelivery_spec hcall with
      ⟨row, subscription, inbox, hfind, hmatch, hselect, -, hmoved, -⟩
    have hmem := (mem_of_findDelivery hfind).1
    obtain ⟨hsubscription, hkey⟩ := WellFormed.mem_of_selectSubscription hselect
    have hof : row ∈ store.deliveriesOf subscription := mem_deliveriesOf.mpr
      ⟨hmem, hkey.symm, hwf.tenantId_of_selectSubscription hmem hselect⟩
    have hnoted : WellFormed { store with inbox := inbox } :=
      hwf.of_advances (Advances.of_eq rfl rfl rfl rfl rfl rfl)
    have hflow : Flow { store with inbox := inbox } :=
      hinv.congr rfl fun other hother => ⟨other, hother, rfl⟩
    have hletters : Recorded { store with inbox := inbox } := ⟨hrec.ids, hrec.dead⟩
    exact ⟨hmoved.flow hnoted hflow hsubscription (by exact hof)
      ((settledRow_advances (leaseMatches_iff.mp hmatch).2.1 (settlementState_ne _ _ _).1 _ _).winds
        (settlementState_ne _ _ _).1)
      (sound_settledRow (hinv.sound subscription hsubscription row hof) settlement now),
      hmoved.recorded hletters⟩
  case requeueDeadLetter =>
    rcases requeueDeadLetter_spec hcall with
      ⟨record, subscription, audit, hfind, -, hselect, -, hcapacity, -, hrow, hstore⟩
    obtain ⟨hsubscription, hkey⟩ := WellFormed.mem_of_selectSubscription hselect
    have hnew : ∀ row ∈ [out], row.state = .pending ∧ row.attemptCount = 0 ∧ row.lease = none := by
      intro row hmem
      rw [mem_singleton.mp hmem, hrow]
      exact ⟨rfl, rfl, rfl⟩
    have hlater : store.Later [out] := later_of_requeueDeadLetter hwf
      (mem_of_find? hfind).1 (by rw [hrow]; rfl) (by rw [hrow]; rfl)
    have hadded := hinv.addRows [] hlater hnew (waiting_of_rows hinv (fun row hmem => by
      rw [mem_singleton.mp hmem, hrow]
      exact hkey.symm) (by
        unfold pendingCapacityExhausted at hcapacity
        simpa using hcapacity) hwf hsubscription)
    have hletters : store'.deadLetters.map deliveryId =
        store.deadLetters.map deliveryId := by
      rw [hstore]
      exact map_key_replace _ _
    refine ⟨hadded.congr (by rw [hstore, addRows_nil]; rfl) fun other hother => ?_, ?_, ?_⟩
    · rw [hstore] at hother
      exact ⟨other, hother, rfl⟩
    · rw [hletters]
      exact hrec.ids
    · rw [hletters]
      intro row hrowMem
      rw [hstore] at hrowMem
      exact (Recorded.addRows hrec [] fun row hmem => (hnew row hmem).1).dead row hrowMem
  case resolveDeadLetter =>
    obtain ⟨record, audit, -, -, rfl⟩ := resolveDeadLetter_spec hcall
    have hletters : (KeyedList.replace deliveryId store.deadLetters
        { record with disposition := .resolved, operator := some audit }).map
          deliveryId = store.deadLetters.map deliveryId :=
      map_key_replace _ _
    refine ⟨hinv.congr rfl fun other hother => ⟨other, hother, rfl⟩, ?_, ?_⟩
    · exact hletters ▸ hrec.ids
    · exact fun row hrow hdead => hletters ▸ hrec.dead row hrow hdead
  case beginRedelivery request _ =>
    rcases beginRedelivery_spec hwf hcall with
      rfl | ⟨subscription, throughSequence, hselect, -, -, hroom, hgenerations, hstore⟩
    · exact ⟨hinv, hrec⟩
    set rows := store.redeliveredRows subscription (max now request.requestedAt)
      (store.redeliveryEvents subscription request throughSequence) with hrowsDef
    have hrows : ∀ row ∈ rows, (row.state = .pending ∧ row.attemptCount = 0 ∧ row.lease = none) ∧
        row.id.subscription = subscription.key := by
      intro row hrow
      obtain ⟨event, -, rfl⟩ := mem_map.mp hrow
      exact ⟨⟨rfl, rfl, rfl⟩, rfl⟩
    have hlater : store.Later rows := later_of_beginRedelivery hgenerations _
    have hadded := hinv.addRows [] hlater (fun row hrow => (hrows row hrow).1)
      (waiting_of_rows hinv (fun row hrow => (hrows row hrow).2) (by
        rw [hrowsDef, redeliveredRows, length_map]
        exact hroom) hwf (WellFormed.mem_of_selectSubscription hselect).1)
    have hrecorded := hrec.addRows [] fun row hrow => (hrows row hrow).1.1
    rw [hstore]
    exact ⟨hadded.congr rfl fun other hother => ⟨other, hother, rfl⟩, hrecorded.ids,
      hrecorded.dead⟩
  case cancelRetiredSubscription => exact flow_cancelRetiredSubscription hwf hinv hrec hcall

end Store

end EventStore
