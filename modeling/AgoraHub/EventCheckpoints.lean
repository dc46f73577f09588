/-
# Checkpoints are frontiers

The checkpoint of a subscription in a stream is the frontier of its original deliveries
there.  Every path that ends a delivery (a settlement, the recovery of an expired lease,
a cancellation) moves the checkpoint; a new delivery lies behind all others of its
stream.
-/
import AgoraHub.Frontier
import AgoraHub.EventMaterialization

namespace EventStore

open Fallible Datetime List KeyedList Delivery Frontier DurableSubscription

/-- Where a delivery lies: its tenant, its subscription and its stream. -/
def Delivery.place (row : Delivery) : Option String × SubscriptionKey × String :=
  (row.tenantId, row.id.subscription, row.streamId)

theorem Delivery.Advances.place {row row' : Delivery} (h : row.Advances row') :
    row'.place = row.place := by
  unfold Delivery.place
  rw [h.tenantId, h.id, h.streamId]

theorem Delivery.Advances.original {row row' : Delivery} (h : row.Advances row') :
    row'.original = row.original := by
  unfold Delivery.original
  rw [h.id]

/-- Where the checkpoint of a subscription stands. -/
def DurableSubscription.placeIn (subscription : DurableSubscription) (streamId : String) :
    Option String × SubscriptionKey × String :=
  (subscription.tenantId, subscription.key, streamId)

namespace Store

section

variable (store : Store)

/-- The original deliveries of a subscription in a stream. -/
def originalsAt (place : Option String × SubscriptionKey × String) :
    List Delivery := store.deliveries.filter fun row => row.original && row.place == place

/-- The sequence that a checkpoint names. -/
def checkpointAt (place : Option String × SubscriptionKey × String) : Option ℕ :=
  (store.findCheckpoint place.1 place.2.1 place.2.2).map
    ConsumerCheckpoint.highestContiguousTerminalSequence

/-- The delivery at the sequence has ended, and so have all before it. -/
abbrev ReachedAt (place : Option String × SubscriptionKey × String) (n : ℕ) : Prop :=
  Frontier.Reached streamSequence (·.state.isTerminal) (store.originalsAt place) n

/-- The checkpoint is the frontier of the original deliveries. -/
abbrev FrontierAt (place : Option String × SubscriptionKey × String) : Prop :=
  IsFrontier streamSequence (·.state.isTerminal) (store.originalsAt place)
    (store.checkpointAt place)

/-- The checkpoint is reached, but it may have to move. -/
abbrev BehindAt (place : Option String × SubscriptionKey × String) : Prop :=
  ∀ n ∈ store.checkpointAt place, store.ReachedAt place n

end

variable {store store' : Store}

variable {row : Delivery}

theorem mem_originalsAt {place : Option String × SubscriptionKey × String} :
    row ∈ store.originalsAt place ↔
      row ∈ store.deliveries ∧ row.original = true ∧ row.place = place := by
  simp [originalsAt]

/-! ## The original deliveries of a place -/

section WellFormed

variable (hwf : store.WellFormed) (place : Option String × SubscriptionKey × String)

include hwf

theorem nodup_originalsAt : ((store.originalsAt place).map streamSequence).Nodup := by
  refine List.Nodup.map_on (fun row hrow other hother heq => ?_)
    ((hwf.deliveryIds.of_map _).filter _)
  obtain ⟨hmem, horiginal, hplace⟩ := mem_originalsAt.mp hrow
  obtain ⟨hmem', horiginal', hplace'⟩ := mem_originalsAt.mp hother
  have hsame := hplace.trans hplace'.symm
  simp only [Delivery.place, Prod.mk.injEq] at hsame
  simp only [Delivery.original, beq_iff_eq] at horiginal horiginal'
  exact hwf.delivery_inj hmem hmem' hsame.2.1 (horiginal.trans horiginal'.symm) hsame.1 hsame.2.2 heq

theorem sequence_pos_of_mem_originalsAt :
    ∀ row ∈ store.originalsAt place, 1 ≤ row.streamSequence := by
  intro row hrow
  obtain ⟨event, hevent, hof⟩ := hwf.placed row (mem_originalsAt.mp hrow).1
  obtain ⟨stream, hstream, hkey⟩ := hwf.streamOf event hevent
  rw [hof.streamSequence]
  exact (hwf.sequence_mem hevent hstream hkey).1

end WellFormed

/-! ## `_advance_checkpoint` -/

/-- The rows that a checkpoint runs over are those of its place. -/
theorem last?_originalsAt (store : Store) (subscription : DurableSubscription) (streamId : String)
    (frontier : ℕ) : Frontier.last? streamSequence (·.state.isTerminal)
      (store.originalsAt (subscription.placeIn streamId)) frontier =
        ((((store.deliveriesOf subscription).filter fun row =>
          row.streamId == streamId && row.original &&
            decide (frontier < row.streamSequence)).insertionSort
          fun a b => a.streamSequence ≤ b.streamSequence).takeWhile
            (·.state.isTerminal)).getLast? := by
  unfold Frontier.last? originalsAt deliveriesOf
  rw [filter_filter, filter_filter]
  have hsame : ∀ row : Delivery, (decide (frontier < row.streamSequence) &&
      (row.original && row.place == subscription.placeIn streamId)) =
        (row.streamId == streamId && row.original && decide (frontier < row.streamSequence) &&
          (row.id.subscription == subscription.key && row.tenantId == subscription.tenantId)) := by
    intro row
    rw [Bool.eq_iff_iff]
    simp only [Delivery.place, placeIn, Bool.and_eq_true, beq_iff_eq,
      decide_eq_true_eq, Prod.mk.injEq]
    tauto
  rw [filter_congr fun row _ => hsame row]

/-- What a checkpoint leaves in its table. -/
theorem findCheckpoint_advanceCheckpoint (store : Store) (subscription : DurableSubscription)
    (streamId : String) (settledAt : Datetime) (place : Option String × SubscriptionKey × String) :
    (store.advanceCheckpoint subscription streamId settledAt).1.findCheckpoint place.1 place.2.1
        place.2.2 = if place = subscription.placeIn streamId then
        (store.advanceCheckpoint subscription streamId settledAt).2
      else store.findCheckpoint place.1 place.2.1 place.2.2 := by
  unfold advanceCheckpoint
  dsimp only
  split
  · split
    · rename_i hplace
      rw [hplace]
      rfl
    · rfl
  · rename_i last hlast
    set checkpoint : ConsumerCheckpoint := ⟨subscription.tenantId, subscription.key, streamId,
      last.streamSequence, last.id.eventId, last.state, settledAt⟩
    unfold findCheckpoint
    by_cases hplace : place = subscription.placeIn streamId
    · rw [if_pos hplace, hplace]
      show KeyedList.find? _ _ (placeOf subscription.tenantId subscription.key streamId) = _
      cases hfind : KeyedList.find?
          (fun row : ConsumerCheckpoint => placeOf row.tenantId row.subscription row.streamId)
          store.checkpoints (placeOf subscription.tenantId subscription.key streamId) with
      | none =>
        simp only [Option.isSome_none, Bool.false_eq_true, if_false]
        rw [find?_concat, hfind, Option.none_or]
        exact if_pos rfl
      | some existing =>
        simp only [Option.isSome_some, if_true]
        refine @find?_replace_self _ _ _ (fun row : ConsumerCheckpoint =>
          placeOf row.tenantId row.subscription row.streamId) store.checkpoints checkpoint ?_
        obtain ⟨hmem, hkey⟩ := mem_of_find? hfind
        exact hkey ▸ mem_map_of_mem hmem
    · rw [if_neg hplace]
      have hne : placeOf checkpoint.tenantId checkpoint.subscription checkpoint.streamId ≠
          placeOf place.1 place.2.1 place.2.2 := fun heq => hplace heq.symm
      split
      · exact find?_replace_of_ne hne
      · rw [find?_concat, if_neg hne, Option.or_none]

/-- Where a checkpoint moves, it moves to the end of the run behind it. -/
theorem checkpointAt_advanceCheckpoint (store : Store) (subscription : DurableSubscription)
    (streamId : String) (settledAt : Datetime) (place : Option String × SubscriptionKey × String) :
    (store.advanceCheckpoint subscription streamId settledAt).1.checkpointAt place =
      if place = subscription.placeIn streamId then
        ((Frontier.last? streamSequence (·.state.isTerminal) (store.originalsAt place)
          ((store.checkpointAt place).getD 0)).map streamSequence).or
            (store.checkpointAt place) else store.checkpointAt place := by
  unfold checkpointAt
  rw [findCheckpoint_advanceCheckpoint]
  by_cases hplace : place = subscription.placeIn streamId
  · rw [if_pos hplace, if_pos hplace, hplace, last?_originalsAt]
    unfold advanceCheckpoint placeIn
    dsimp only
    split <;> rename_i hlast <;> rw [hlast] <;> rfl
  · rw [if_neg hplace, if_neg hplace]

theorem originalsAt_congr (h : store'.deliveries = store.deliveries)
    (place : Option String × SubscriptionKey × String) :
    store'.originalsAt place = store.originalsAt place := by
  unfold originalsAt
  rw [h]

theorem deliveries_advanceCheckpoint (store : Store) (subscription : DurableSubscription)
    (streamId : String) (settledAt : Datetime) :
    (store.advanceCheckpoint subscription streamId settledAt).1.deliveries = store.deliveries := by
  obtain ⟨checkpoints, h⟩ := store.advanceCheckpoint_tables subscription streamId settledAt
  rw [h]

variable {place : Option String × SubscriptionKey × String}

/-- A checkpoint that moves is the frontier of its place; the others stay as they are. -/
theorem frontierAt_advanceCheckpoint (hwf : store.WellFormed) (subscription : DurableSubscription)
    (streamId : String) (settledAt : Datetime) (hbehind : store.BehindAt place)
    (h : place ≠ subscription.placeIn streamId → store.FrontierAt place) :
    (store.advanceCheckpoint subscription streamId settledAt).1.FrontierAt place := by
  unfold FrontierAt
  rw [checkpointAt_advanceCheckpoint,
    originalsAt_congr (deliveries_advanceCheckpoint store subscription streamId settledAt)]
  by_cases hplace : place = subscription.placeIn streamId
  · rw [if_pos hplace]
    exact isFrontier_last? (nodup_originalsAt hwf place)
      (sequence_pos_of_mem_originalsAt hwf place) hbehind
  · rw [if_neg hplace]
    exact h hplace

/-! ## Rows that move -/

variable {row' : Delivery}

/-- Where the rows of a place stay as they are. -/
theorem originalsAt_putDelivery_of_ne (hnew : row'.original = false ∨ row'.place ≠ place)
    (hold : ∀ row ∈ store.deliveries, row.id = row'.id → row.place = row'.place) :
    (store.putDelivery row').originalsAt place = store.originalsAt place := by
  have hnot : ∀ row : Delivery, row.id = row'.id → row.place = row'.place →
      (row.original && row.place == place) = false := by
    intro row hid hplace
    have horiginal : row.original = row'.original := by
      unfold Delivery.original
      rw [hid]
    rw [horiginal, hplace]
    rcases hnew with h | h <;> simp [h]
  exact filter_replace (hnot row' rfl rfl) fun row hrow hid => hnot row hid (hold row hrow hid)

/-- Rows that stay in their place are related place by place. -/
theorem forall₂_originalsAt {R : Delivery → Delivery → Prop}
    (hR : ∀ row row', R row row' → row'.original = row.original ∧ row'.place = row.place)
    (h : List.Forall₂ R store.deliveries store'.deliveries)
    (place : Option String × SubscriptionKey × String) :
    List.Forall₂ R (store.originalsAt place) (store'.originalsAt place) := by
  refine rel_filter (fun row row' hr => ?_) h
  show (row.original && row.place == place) = true ↔ (row'.original && row'.place == place) = true
  rw [(hR row row' hr).1, (hR row row' hr).2]

theorem reachedAt_of_advances (h : Advances store store') {n : ℕ}
    (hreached : store.ReachedAt place n) : store'.ReachedAt place n :=
  Frontier.Reached.mono (fun _ _ hadv => hadv.streamSequence)
    (fun a b hadv ha => by rw [hadv.terminal ha]; exact ha)
    (forall₂_originalsAt (fun _ _ hadv => ⟨hadv.original, hadv.place⟩) h.deliveries place) hreached

/-- A row that is still under way changes nothing of what is reached. -/
theorem reachedAt_putDelivery_iff (hids : store.DistinctIds) (hrow : row ∈ store.deliveries)
    (hadv : row.Advances row') (hopen : row'.nonterminal = true)
    (place : Option String × SubscriptionKey × String) (n : ℕ) :
    (store.putDelivery row').ReachedAt place n ↔ store.ReachedAt place n := by
  have hrelated : List.Forall₂ (fun a b : Delivery => a.Advances b ∧
      b.state.isTerminal = a.state.isTerminal) store.deliveries
        (store.putDelivery row').deliveries := by
    refine forall₂_replace hids hrow hadv.id
      (fun x _ => ⟨Delivery.Advances.refl x, rfl⟩) ⟨hadv, ?_⟩
    have hbefore := hadv.nonterminal hopen
    unfold Delivery.nonterminal at hopen hbefore
    simp only [Bool.not_eq_true'] at hopen hbefore
    rw [hopen, hbefore]
  exact reached_congr (fun _ _ h => h.1.streamSequence) (fun _ _ h => h.2)
    (forall₂_originalsAt (fun _ _ h => ⟨h.1.original, h.1.place⟩) hrelated place) n

variable {subscription : DurableSubscription}

/-- A row that ends leaves every checkpoint reached, and only that of its place behind. -/
theorem frontierAt_finish (hwf : store.WellFormed) (h : ∀ place, store.FrontierAt place)
    (hrow : row ∈ store.deliveriesOf subscription) (hadv : row.Advances row')
    {records : List DeadLetterRecord} (hrecords : ∀ record ∈ records, record.Of row')
    (settledAt : Datetime) (place : Option String × SubscriptionKey × String) :
    (store.finish subscription row' records settledAt).FrontierAt place := by
  obtain ⟨hmem, hkey, htenant⟩ := mem_deliveriesOf.mp hrow
  have hput := putDelivery_advances hwf.deliveryIds hmem hadv
  have hmid : Advances store
      { store.putDelivery row' with deadLetters := store.deadLetters ++ records } :=
    hput.trans (addDeadLetters_advances fun record hrecord =>
      ⟨row', mem_putDelivery hmem hadv.id, hrecords record hrecord⟩)
  have hat : row'.place = subscription.placeIn row'.streamId := by
    unfold Delivery.place placeIn
    rw [hadv.tenantId, hadv.id, hkey, htenant]
  have hsame : ∀ row ∈ store.deliveries, row.id = row'.id → row.place = row'.place := by
    intro other hother hid
    rw [inj_on_of_nodup_map hwf.deliveryIds hother hmem (hid.trans hadv.id), hadv.place]
  -- a place that the row is not of, or not as an original, is as it was
  have hothers : row'.original = false ∨ row'.place ≠ place →
      FrontierAt { store.putDelivery row' with deadLetters := store.deadLetters ++ records }
        place := by
    intro hnot
    show IsFrontier _ _ ((store.putDelivery row').originalsAt place)
      (store.checkpointAt place)
    rw [originalsAt_putDelivery_of_ne hnot hsame]
    exact h place
  unfold finish
  by_cases horiginal : row'.original = true
  · rw [if_pos horiginal]
    refine frontierAt_advanceCheckpoint (hwf.of_advances hmid) _ _ _ ?_ fun hne =>
      hothers (Or.inr (hat ▸ Ne.symm hne))
    intro n hn
    exact reachedAt_of_advances hmid ((h place).reached n hn)
  · rw [if_neg horiginal]
    exact hothers (Or.inl (by simpa using horiginal))

/-- A row that moves leaves every checkpoint at its frontier. -/
theorem Moved.frontierAt (hwf : store.WellFormed) (h : ∀ place, store.FrontierAt place)
    (hrow : row ∈ store.deliveriesOf subscription) (hadv : row.Advances row')
    (hmoved : Moved store subscription row row' store')
    (place : Option String × SubscriptionKey × String) : store'.FrontierAt place := by
  cases hmoved with
  | stays underWay =>
    have hopen : row'.nonterminal = true := by simp [Delivery.nonterminal, underWay]
    exact (isFrontier_congr (reachedAt_putDelivery_iff hwf.deliveryIds
      (mem_deliveriesOf.mp hrow).1 hadv hopen place) _).mpr (h place)
  | ends _ settledAt _ => exact frontierAt_finish hwf h hrow hadv (by simp) settledAt place
  | dies _ settledAt record hof _ _ =>
    refine frontierAt_finish hwf h hrow hadv (fun r hr => ?_) settledAt place
    rw [mem_singleton.mp hr]
    exact hof

/-! ## Rows that are new -/

/-- Deliveries that are under way and lie behind the others of their place. -/
def Later (store : Store) (rows : List Delivery) : Prop :=
  ∀ row ∈ rows, row.nonterminal = true ∧ (row.original = true →
    ∀ other ∈ store.originalsAt row.place, other.streamSequence < row.streamSequence)

variable {rows : List Delivery}

/-- New deliveries change nothing of what is reached. -/
theorem reachedAt_addRows_iff (hlater : store.Later rows) (states : List SubscriptionStreamState)
    (place : Option String × SubscriptionKey × String) (n : ℕ) :
    (store.addRows states rows).ReachedAt place n ↔ store.ReachedAt place n := by
  unfold ReachedAt originalsAt addRows
  rw [filter_append]
  refine reached_append (fun row hrow => ?_) (fun row hrow other hother => ?_) n <;>
    simp only [mem_filter, Bool.and_eq_true, beq_iff_eq] at hrow
  · simpa [Delivery.nonterminal] using (hlater row hrow.1).1
  · exact (hlater row hrow.1).2 hrow.2.1 other (hrow.2.2 ▸ hother)

theorem frontierAt_addRows (hlater : store.Later rows) (states : List SubscriptionStreamState)
    (h : store.FrontierAt place) : (store.addRows states rows).FrontierAt place :=
  (isFrontier_congr (reachedAt_addRows_iff hlater states place) _).mpr h

/-- Deliveries of an event that is the last of its stream. -/
theorem later_of_append (hwf : store.WellFormed) {event : StoredEvent}
    (hlast : ∀ old ∈ store.events, old.stream = event.stream →
      old.streamSequence < event.streamSequence) {rows : List Delivery}
    (hrows : ∀ row ∈ rows, row.nonterminal = true ∧ row.Of event) : store.Later rows := by
  intro row hrow
  obtain ⟨hopen, hof⟩ := hrows row hrow
  refine ⟨hopen, fun _ other hother => ?_⟩
  obtain ⟨hmem, -, hplace⟩ := mem_originalsAt.mp hother
  obtain ⟨old, hold, hofOld⟩ := hwf.placed other hmem
  simp only [Delivery.place, Prod.mk.injEq] at hplace
  rw [hof.streamSequence, hofOld.streamSequence]
  apply hlast old hold
  unfold StoredEvent.stream
  rw [← hofOld.tenantId, ← hofOld.streamId, hplace.1, hplace.2.2, hof.tenantId, hof.streamId]

theorem later_of_registration (key : SubscriptionKey)
    (hnone : ∀ row ∈ store.deliveries, row.id.subscription ≠ key)
    (hrows : ∀ row ∈ rows, row.nonterminal = true ∧ row.id.subscription = key) :
    store.Later rows := by
  intro row hrow
  refine ⟨(hrows row hrow).1, fun _ other hother => ?_⟩
  obtain ⟨hmem, -, hplace⟩ := mem_originalsAt.mp hother
  simp only [Delivery.place, Prod.mk.injEq] at hplace
  exact absurd (hplace.2.1.trans (hrows row hrow).2) (hnone other hmem)

theorem later_of_generations
    (hrows : ∀ row ∈ rows, row.nonterminal = true ∧ 2 ≤ row.id.deliveryGeneration) :
    store.Later rows := by
  intro row hrow
  refine ⟨(hrows row hrow).1, fun horiginal => ?_⟩
  have hgeneration := (hrows row hrow).2
  simp only [Delivery.original, beq_iff_eq] at horiginal
  omega

/-! ## Cancellations -/

theorem mem_affectedStreams {streamId : String} :
    streamId ∈ affectedStreams rows ↔ ∃ row ∈ rows, row.original = true ∧ row.streamId = streamId := by
  unfold affectedStreams
  rw [(perm_insertionSort _ _).mem_iff, mem_dedup, mem_map]
  simp [and_assoc]

/-- The checkpoints of several streams move to their frontiers one after another. -/
theorem frontierAt_advanceCheckpoints (settledAt : Datetime) {streams : List String} :
    ∀ {store : Store}, store.WellFormed →
      (∀ place, store.BehindAt place) →
      (∀ place, (∀ streamId ∈ streams, place ≠ subscription.placeIn streamId) →
        store.FrontierAt place) → ∀ place, (streams.foldl (fun store streamId =>
        (store.advanceCheckpoint subscription streamId settledAt).1) store).FrontierAt place := by
  induction streams with
  | nil =>
    intro store _ _ hclean place
    exact hclean place (by simp)
  | cons streamId streams ih =>
    intro store hwf hbehind hclean
    rw [foldl_cons]
    have hadv := advanceCheckpoint_advances store subscription streamId settledAt
    -- a checkpoint that moved is reached, since it is a frontier now
    have hbehind' : ∀ place,
        (store.advanceCheckpoint subscription streamId settledAt).1.BehindAt place := by
      intro place n hn
      by_cases hplace : place = subscription.placeIn streamId
      · exact (frontierAt_advanceCheckpoint hwf subscription streamId settledAt (hbehind place)
          fun hne => absurd hplace hne).reached n hn
      · rw [checkpointAt_advanceCheckpoint, if_neg hplace] at hn
        exact reachedAt_of_advances hadv (hbehind place n hn)
    refine ih (hwf.of_advances hadv) hbehind' fun place hothers => ?_
    refine frontierAt_advanceCheckpoint hwf subscription streamId settledAt (hbehind place)
      fun hne => hclean place fun other hother => ?_
    rcases mem_cons.mp hother with rfl | hother
    · exact hne
    · exact hothers other hother

section

variable (hwf : store.WellFormed)

include hwf

theorem frontierAt_cancelRetiredSubscription
    (h : ∀ place, store.FrontierAt place) {request : RetirementCancellationRequest} {now : Datetime}
    {report : RetirementCancellationReport}
    (hcall : store.cancelRetiredSubscription request now = .ok (store', report))
    (place : Option String × SubscriptionKey × String) : store'.FrontierAt place := by
  rcases cancelRetiredSubscription_spec hcall with
    rfl | ⟨subscription, cancelledAt, mid, items, -, -, hfold, hstore⟩
  · exact h place
  set rows := store.cancellableRows subscription request
  have hrows : ∀ row ∈ rows, row ∈ store.deliveriesOf subscription ∧ row.nonterminal = true :=
    fun row hrow => mem_nonterminalOf.mp (mem_of_mem_cancellableRows hrow)
  -- a place of no affected stream keeps its checkpoint at the frontier
  have hkept := cancelRows_keeps
    (P := fun rest s => (∀ row ∈ rest, row ∈ rows) ∧ (∀ place, s.BehindAt place) ∧
      ∀ place, (∀ streamId ∈ affectedStreams rows, place ≠ subscription.placeIn streamId) →
        s.FrontierAt place) hwf.deliveryIds (nodup_cancellableRows hwf.deliveryIds _ _)
    (fun row hrow => ⟨(mem_deliveriesOf.mp (hrows row hrow).1).1, (hrows row hrow).2⟩)
    ⟨fun _ hrow => hrow, fun place => (h place).reached, fun place _ => h place⟩ hfold ?_
  · have hmid : Advances store mid := hkept.2
    have hfinal := frontierAt_advanceCheckpoints cancelledAt (hwf.of_advances hmid) hkept.1.2.1
      hkept.1.2.2 place
    rw [hstore]
    exact hfinal
  · rintro s row rest ⟨hsub, hbehind, hclean⟩ hadv hids hmem hopen -
    have hrowAdv := cancelledRow_advances hopen cancelledAt
    have hput := putDelivery_advances hids hmem hrowAdv
    refine ⟨fun other hother => hsub other (mem_cons_of_mem _ hother),
      fun place n hn => reachedAt_of_advances hput (hbehind place n hn), fun place hothers => ?_⟩
    have hrow := hsub row mem_cons_self
    obtain ⟨-, hkey, htenant⟩ := mem_deliveriesOf.mp (hrows row hrow).1
    unfold FrontierAt
    rw [originalsAt_putDelivery_of_ne]
    · exact hclean place hothers
    · by_cases horiginal : row.original = true
      · right
        have hat : row.place = subscription.placeIn row.streamId := by
          unfold Delivery.place placeIn
          rw [hkey, htenant]
        intro hplace
        exact hothers row.streamId (mem_affectedStreams.mpr ⟨row, hrow, horiginal, rfl⟩)
          (hplace.symm.trans hat)
      · left
        show row.original = false
        simpa using horiginal
    · intro other hother hid
      rw [inj_on_of_nodup_map hids hother hmem hid]
      rfl

/-! ## Every call -/

theorem frontierAt_claimDeliveries (h : ∀ place, store.FrontierAt place)
    {request : DeliveryClaimRequest} {now : Datetime} {out : List ClaimedDelivery}
    (hcall : store.claimDeliveries request now = .ok (store', out)) :
    ∀ place, store'.FrontierAt place := by
  rcases claimDeliveries_spec hcall with ⟨subscription, -, ⟨rfl, -⟩ | ⟨mid, hmid, hrest⟩⟩
  · exact h
  have hrecovered := recoverExpiredClaims_keeps (P := fun _ s => ∀ place, s.FrontierAt place)
    hwf.deliveryIds h hmid fun s s' row _ state availableAt hs hadv _ hrow hstate hnew _ hmoved =>
      hmoved.frontierAt (hwf.of_advances hadv) hs hrow
        (expiredRow_advances hstate (by rcases hnew with ⟨rfl, -⟩ | ⟨rfl, -⟩ <;> decide) _ _)
  rcases hrest with ⟨rfl, -⟩ | ⟨-, limit, -, hfold⟩
  · exact hrecovered.1
  have hmidIds := hrecovered.2.distinctIds hwf.deliveryIds
  refine (claimRows_keeps (P := fun _ s => ∀ place, s.FrontierAt place) hmidIds ?_ ?_ hrecovered.1
    hfold fun s row rest expiresAt hs hadv hids hrow hclaimable _ _ hrowAdv place => ?_).1
  · rw [map_take]
    exact (nodup_claimableRows hmidIds _ _ _).sublist (take_sublist _ _)
  · intro row hrow
    obtain ⟨hof, -, hclaimable, -⟩ := mem_claimableRows.mp (mem_of_mem_take hrow)
    exact ⟨(mem_deliveriesOf.mp hof).1, hclaimable⟩
  · exact (isFrontier_congr
      (reachedAt_putDelivery_iff hids hrow hrowAdv rfl place) _).mpr (hs place)

/-- The rows of an append lie behind the others of their places. -/
theorem later_of_appendEvent (event : EventCandidate) (now : Datetime)
    (live : List DurableSubscription) : store.Later (live.flatMap (store.rowsFor
      ⟨event, now, (store.openStream event now).2.lastSequence + 1⟩ now)) := by
  refine @later_of_append _ hwf ⟨event, now, (store.openStream event now).2.lastSequence + 1⟩
    (fun old hold hstream => ?_) _ fun row hrow => ?_
  · have hle := hwf.sequence_le_watermark hold
    rw [lastSequence_openStream]
    have htenant : old.tenantId = event.tenantId := congrArg Prod.fst hstream
    have hid : old.streamId = event.streamId := congrArg Prod.snd hstream
    rw [htenant, hid] at hle
    exact Nat.lt_succ_of_le hle
  · obtain ⟨subscription, -, hrow⟩ := mem_flatMap.mp hrow
    rw [(mem_rowsFor hrow).1]
    exact ⟨rfl, rfl, rfl, rfl, rfl⟩

theorem subscription_ne_of_unregistered {key : SubscriptionKey}
    (hnone : store.selectSubscription key = none) (hrow : row ∈ store.deliveries) :
    row.id.subscription ≠ key := by
  intro heq
  obtain ⟨other, hother, hkey, -⟩ := hwf.subscribed row hrow
  exact selectSubscription_eq_none.mp hnone ((hkey.trans heq) ▸ mem_map_of_mem hother)

/-- The rows of a registration are those of a subscription that has none yet. -/
theorem later_of_registerSubscription
    (hnone : store.selectSubscription subscription.key = none) (now : Datetime)
    (streams : List StreamRow) :
    store.Later (streams.flatMap (store.backfillRows subscription now)) := by
  refine later_of_registration subscription.key
    (fun row hrow => subscription_ne_of_unregistered hwf hnone hrow) fun row hrow => ?_
  obtain ⟨stream, -, hrow⟩ := mem_flatMap.mp hrow
  obtain ⟨event, -, rfl⟩ := mem_map.mp hrow
  exact ⟨rfl, rfl⟩

/-- The row of a requeue has a later generation. -/
theorem later_of_requeueDeadLetter {record : DeadLetterRecord}
    (hrecord : record ∈ store.deadLetters) (hopen : row.nonterminal = true)
    (hgeneration : row.id.deliveryGeneration =
      store.nextGeneration record.deliveryId.eventId record.deliveryId.subscription) :
    store.Later [row] := by
  obtain ⟨dead, hdead, hof⟩ := hwf.deadLetters record hrecord
  refine later_of_generations fun other hother => ?_
  obtain rfl := mem_singleton.mp hother
  have hnext := generation_lt_next hdead
  have hpos := hwf.generations dead hdead
  rw [hgeneration, hof.deliveryId]
  exact ⟨hopen, by omega⟩

end

theorem later_of_beginRedelivery {events : List StoredEvent}
    (hgenerations : ∀ event ∈ events, 2 ≤ store.nextGeneration event.eventId subscription.key)
    (scheduledAt : Datetime) :
    store.Later (store.redeliveredRows subscription scheduledAt events) := by
  refine later_of_generations fun row hrow => ?_
  obtain ⟨event, hevent, rfl⟩ := mem_map.mp hrow
  exact ⟨rfl, hgenerations event hevent⟩

/-- A committed call leaves every checkpoint at its frontier, and nothing that was reached is lost. -/
theorem frontier_commit (hwf : store.WellFormed) (h : ∀ place, store.FrontierAt place)
    {timed : TimedCall} (hcall : store.commit timed = .ok store') :
    (∀ place, store'.FrontierAt place) ∧
      ∀ place n, store.ReachedAt place n → store'.ReachedAt place n := by
  obtain ⟨call, now⟩ := timed
  have hadvance : Advances store store' →
      ∀ place n, store.ReachedAt place n → store'.ReachedAt place n :=
    fun hadv place n => reachedAt_of_advances hadv
  unfold Store.commit at hcall
  cases call <;> dsimp only at hcall <;> rcases map_fst_eq_ok.mp hcall with ⟨out, hcall⟩
  case appendEvent event expected _ =>
    rcases appendEvent_spec hwf hcall with ⟨rfl, -⟩ | ⟨-, -, hstore, -⟩
    · exact ⟨h, fun _ _ => id⟩
    have hlater := later_of_appendEvent hwf event now
      (store.liveSubscriptions event.tenantId)
    obtain ⟨streams, stream, hopened, -⟩ := openStream_spec hwf event now
    rw [hopened] at hstore hlater
    rw [hstore]
    exact ⟨fun place => frontierAt_addRows (by exact hlater) _ (by exact h place),
      fun place n hn => (reachedAt_addRows_iff (by exact hlater) _ place n).mpr (by exact hn)⟩
  case registerSubscription subscription _ =>
    rcases registerSubscription_spec hwf hcall with ⟨rfl, -⟩ | ⟨_, hnone, -, hdef, -, -, hstore, -⟩
    · exact ⟨h, fun _ _ => id⟩
    rw [← congrArg SubscriptionDefinition.key hdef] at hnone
    have hlater := later_of_registerSubscription hwf hnone now
      (store.tenantStreams subscription.tenantId)
    rw [hstore]
    exact ⟨fun place => frontierAt_addRows (by exact hlater) _ (by exact h place),
      fun place n hn => (reachedAt_addRows_iff (by exact hlater) _ place n).mpr (by exact hn)⟩
  case setSubscriptionStatus =>
    obtain ⟨_, _, -, -, -, -, rfl⟩ := setSubscriptionStatus_spec hcall
    exact ⟨h, fun _ _ => id⟩
  case claimDeliveries =>
    exact ⟨frontierAt_claimDeliveries hwf h hcall,
      hadvance (claimDeliveries_advances hwf.deliveryIds hcall)⟩
  case renewDeliveryLease =>
    refine ⟨fun place => ?_, hadvance (renewDeliveryLease_advances hwf.deliveryIds hcall)⟩
    obtain ⟨row, expiresAt, hfind, hmatch, -, -, rfl, -⟩ := renewDeliveryLease_spec hcall
    have hstate := (leaseMatches_iff.mp hmatch).2.1
    refine (isFrontier_congr (reachedAt_putDelivery_iff hwf.deliveryIds
      (mem_of_findDelivery hfind).1 (renewedRow_advances hstate _ _) ?_ place) _).mpr (h place)
    simp [renewedRow, Delivery.nonterminal, hstate, DeliveryState.isTerminal]
  case settleDelivery =>
    refine ⟨fun place => ?_, hadvance (settleDelivery_advances hwf.deliveryIds hcall)⟩
    rcases settleDelivery_spec hcall with
      ⟨row, subscription, inbox, hfind, hmatch, hselect, -, hmoved, -⟩
    have hmem := (mem_of_findDelivery hfind).1
    have hof : row ∈ store.deliveriesOf subscription := mem_deliveriesOf.mpr
      ⟨hmem, (WellFormed.mem_of_selectSubscription hselect).2.symm,
        hwf.tenantId_of_selectSubscription hmem hselect⟩
    have hnoted : WellFormed { store with inbox := inbox } :=
      hwf.of_advances (Advances.of_eq rfl rfl rfl rfl rfl rfl)
    exact hmoved.frontierAt hnoted (by exact h) (by exact hof)
      (settledRow_advances (leaseMatches_iff.mp hmatch).2.1 (settlementState_ne _ _ _).1 _ _) place
  case requeueDeadLetter =>
    rcases requeueDeadLetter_spec hcall with
      ⟨record, subscription, audit, hfind, -, -, -, -, -, hrow, hstore⟩
    have hlater : store.Later [out] := later_of_requeueDeadLetter hwf
      (mem_of_find? hfind).1 (by rw [hrow]; rfl) (by rw [hrow]; rfl)
    rw [hstore]
    exact ⟨fun place => frontierAt_addRows hlater [] (h place),
      fun place n hn => (reachedAt_addRows_iff hlater [] place n).mpr hn⟩
  case resolveDeadLetter =>
    refine ⟨?_, hadvance (resolveDeadLetter_advances hcall)⟩
    obtain ⟨_, _, -, -, rfl⟩ := resolveDeadLetter_spec hcall
    exact h
  case beginRedelivery request _ =>
    rcases beginRedelivery_spec hwf hcall with
      rfl | ⟨subscription, throughSequence, -, -, -, -, hgenerations, hstore⟩
    · exact ⟨h, fun _ _ => id⟩
    have hlater := later_of_beginRedelivery hgenerations (max now request.requestedAt)
    rw [hstore]
    exact ⟨fun place => frontierAt_addRows hlater [] (h place),
      fun place n hn => (reachedAt_addRows_iff hlater [] place n).mpr hn⟩
  case cancelRetiredSubscription =>
    exact ⟨frontierAt_cancelRetiredSubscription hwf h hcall,
      hadvance (cancelRetiredSubscription_advances hwf.deliveryIds hcall)⟩

end Store

end EventStore
