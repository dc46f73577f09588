/-
# Timestamps that the schema compares as texts

The CHECK constraints of the schema compare the texts of timestamps, and a text leaves
out a fraction of zero.  A moment with a fraction in the second of a whole second is
therefore refused as the successor of that second, and so is every moment before the
requested time of a redelivery.  `Timely` says which clock readings and operator times
do not meet this; in such a run no claim, renewal, settlement or append fails on a
timestamp.
-/
import AgoraHub.Ensures
import AgoraHub.EventDeliveryRuns

namespace EventStore

open Fallible Datetime List KeyedList StoreError DeliveryState

/-! ## Calls in time -/

/-- The latest time that a call stores. -/
def TimedCall.latest (timed : TimedCall) : Datetime :=
  match timed.call with
  | .beginRedelivery request => max timed.now request.requestedAt
  | _ => timed.now

/-- The time that the caller of a settlement gives. -/
def TimedCall.settledAt (timed : TimedCall) : Option Datetime :=
  match timed.call with
  | .settleDelivery settlement => some settlement.settledAt
  | _ => none

/-- The call is made at or after a time, as a moment and as a text; where it settles at or after
the time as a moment, it does so as a text. -/
def TimedCall.After (timed : TimedCall) (t : Datetime) : Prop :=
  Before t timed.now ∧ ∀ settledAt ∈ timed.settledAt, t ≤ settledAt → TextLe t settledAt

instance (timed : TimedCall) (t : Datetime) : Decidable (timed.After t) :=
  decidable_of_iff (Before t timed.now ∧
      timed.settledAt.all fun settledAt => decide (t ≤ settledAt → TextLe t settledAt)) (by
    simp only [TimedCall.After, Option.all_eq_true, decide_eq_true_eq, Option.mem_def])

/-- Every call is made after what the calls before it have stored, and a settlement that is dated
before the reading of the clock is so as a text. -/
def Timely (calls : List TimedCall) : Prop :=
  calls.Pairwise (fun earlier later => later.After earlier.latest) ∧
    ∀ timed ∈ calls, ∀ settledAt ∈ timed.settledAt, settledAt ≤ timed.now →
      TextLe settledAt timed.now

instance (calls : List TimedCall) : Decidable (Timely calls) :=
  decidable_of_iff (calls.Pairwise (fun earlier later => later.After earlier.latest) ∧
      ∀ timed ∈ calls, timed.settledAt.all fun settledAt =>
        decide (settledAt ≤ timed.now → TextLe settledAt timed.now)) (by
    simp only [Timely, Option.all_eq_true, decide_eq_true_eq, Option.mem_def])

/-- The calls that must not fail on a timestamp. -/
def Call.delivers : Call → Bool
  | .appendEvent _ _ | .claimDeliveries _ | .renewDeliveryLease _ _ | .settleDelivery _ => true
  | _ => false

/-- Not the failure of a timestamp CHECK. -/
def StoreError.OtherThanTimestamp (e : StoreError) : Prop := ∀ check, e ≠ .timestampCheck check

/-- A failure of a timestamp CHECK. -/
def timestampFailure {α : Type} : Except StoreError α → Bool
  | .error (.timestampCheck _) => true
  | _ => false

/-! ## Rows in time -/

namespace Delivery

/-- The times of a row are in order, as moments and as texts. -/
structure Timed (row : Delivery) : Prop where
  created : Before row.createdAt row.updatedAt
  failed : (row.firstFailureAt = none ∧ row.lastFailureAt = none) ∨ ∃ first last,
    row.firstFailureAt = some first ∧ row.lastFailureAt = some last ∧ Before first last ∧
      Before last row.updatedAt

variable {row : Delivery}

/-- A row whose times are in order passes the timestamp constraints. -/
theorem ensures_checkConstraints (h : row.Timed) :
    Ensures (fun _ => True) OtherThanTimestamp row.checkConstraints := by
  have hfailure : row.failureTexts = true := by
    unfold failureTexts
    rcases h.failed with ⟨hfirst, hlast⟩ | ⟨first, last, hfirst, hlast, hbefore, -⟩
    · rw [hfirst, hlast]
    · rw [hfirst, hlast]
      exact decide_eq_true hbefore.2
  have hother : ∀ message, OtherThanTimestamp (.integrity message) :=
    fun message check h => by cases h
  unfold checkConstraints
  iterate 3 refine (ensures_require fun _ => hother _).bind fun _ _ => ?_
  refine (ensures_require fun hnot => absurd hfailure hnot).bind fun _ _ => ?_
  refine (ensures_require fun _ => hother _).bind fun _ _ => ?_
  exact (ensures_require fun hnot => absurd h.created.2 hnot).imp (fun _ _ => trivial) fun _ h => h

theorem ensures_fromRow (row : Delivery) :
    Ensures (fun delivery => row = delivery) OtherThanTimestamp row.fromRow := by
  unfold fromRow
  exact (ensures_require fun _ check h => by cases h).bind fun _ _ => ensures_ok rfl

theorem Timed.update (h : row.Timed) {now : Datetime} (hnow : Before row.updatedAt now)
    {row' : Delivery} (created : row'.createdAt = row.createdAt)
    (first : row'.firstFailureAt = row.firstFailureAt)
    (last : row'.lastFailureAt = row.lastFailureAt) (updated : row'.updatedAt = now) : row'.Timed := by
  refine ⟨by rw [created, updated]; exact h.created.trans hnow, ?_⟩
  rw [first, last, updated]
  rcases h.failed with hnone | ⟨first, last, hfirst, hlast, hbefore, hle⟩
  · exact Or.inl hnone
  · exact Or.inr ⟨first, last, hfirst, hlast, hbefore, hle.trans hnow⟩

/-- The times stay in order when a row fails later. -/
theorem Timed.fail (h : row.Timed) {failedAt now : Datetime} (hfailed : Before row.updatedAt failedAt)
    (hnow : Before failedAt now) {row' : Delivery} (created : row'.createdAt = row.createdAt)
    (first : row'.firstFailureAt = some (row.firstFailureAt.getD failedAt))
    (last : row'.lastFailureAt = some failedAt) (updated : row'.updatedAt = now) : row'.Timed := by
  refine ⟨by rw [created, updated]; exact (h.created.trans hfailed).trans hnow, Or.inr
    ⟨_, _, first, last, ?_, by rw [updated]; exact hnow⟩⟩
  rcases h.failed with ⟨hfirst, -⟩ | ⟨first, last, hfirst, -, hbefore, hle⟩
  · rw [hfirst]
    exact before_refl _
  · rw [hfirst]
    exact (hbefore.trans hle).trans hfailed

end Delivery

/-! ## Tables in time -/

namespace Store

/-- The times that later calls compare with have the property. -/
structure Stamped (store : Store) (clear : Datetime → Prop) : Prop where
  streams : ∀ stream ∈ store.streams, clear stream.createdAt
  rows : ∀ row ∈ store.deliveries, row.nonterminal = true → row.Timed ∧ clear row.updatedAt

variable {store store' : Store} {clear : Datetime → Prop}

theorem Stamped.imp {clear' : Datetime → Prop} (h : store.Stamped clear)
    (himp : ∀ t, clear t → clear' t) : store.Stamped clear' :=
  ⟨fun stream hstream => himp _ (h.streams stream hstream),
    fun row hrow hopen => ⟨(h.rows row hrow hopen).1, himp _ (h.rows row hrow hopen).2⟩⟩

theorem Stamped.congr (h : store.Stamped clear) (streams : store'.streams = store.streams)
    (deliveries : store'.deliveries = store.deliveries) : store'.Stamped clear :=
  ⟨by rw [streams]; exact h.streams, by rw [deliveries]; exact h.rows⟩

/-- A row is replaced by one whose times are in order, or that has ended. -/
theorem Stamped.putDelivery (h : store.Stamped clear) {row' : Delivery}
    (hrow : row'.nonterminal = true → row'.Timed ∧ clear row'.updatedAt) :
    (store.putDelivery row').Stamped clear := by
  refine ⟨h.streams, fun row hmem hopen => ?_⟩
  rcases mem_replace hmem with rfl | hold
  · exact hrow hopen
  · exact h.rows row hold hopen

theorem Stamped.addRows (h : store.Stamped clear) (states : List SubscriptionStreamState)
    {rows : List Delivery} (hrows : ∀ row ∈ rows, row.Timed ∧ clear row.updatedAt) :
    (store.addRows states rows).Stamped clear := by
  refine ⟨h.streams, fun row hmem hopen => ?_⟩
  rcases mem_append.mp hmem with hold | hnew
  · exact h.rows row hold hopen
  · exact hrows row hnew

theorem timed_newDelivery (id : DeliveryId) (tenantId : Option String) (streamId : String)
    (streamSequence : ℕ) (consumerEffectId : Option String) (createdAt : Datetime) :
    (newDelivery id tenantId streamId streamSequence consumerEffectId createdAt).Timed :=
  ⟨before_refl _, Or.inl ⟨rfl, rfl⟩⟩

/-- An update that finds a row passes the timestamp constraints. -/
theorem ensures_updateDelivery (h : store.Stamped clear) {id : DeliveryId}
    {condition : Delivery → Bool} {set : Delivery → Delivery}
    (hcondition : ∀ row, condition row = true → row.nonterminal = true)
    (hset : ∀ row, row ∈ store.deliveries → condition row = true → row.Timed → clear row.updatedAt →
      (set row).Timed ∧ clear (set row).updatedAt) :
    Ensures (fun out => out.1.Stamped clear ∧ ∀ row' ∈ out.2, row'.Timed)
      OtherThanTimestamp (store.updateDelivery id condition set) := by
  unfold updateDelivery
  cases hfind : store.findDelivery id with
  | none => exact ensures_ok ⟨h, by simp⟩
  | some row =>
    dsimp only
    by_cases hcond : condition row = true
    · rw [if_pos hcond]
      obtain ⟨hmem, -⟩ := mem_of_findDelivery hfind
      obtain ⟨htimed, hclear⟩ := h.rows row hmem (hcondition row hcond)
      obtain ⟨htimed', hclear'⟩ := hset row hmem hcond htimed hclear
      refine (Delivery.ensures_checkConstraints htimed').bind fun _ _ => ?_
      refine ensures_ok ⟨h.putDelivery fun _ => ⟨htimed', hclear'⟩, fun row' hrow' => ?_⟩
      rw [← Option.some.inj hrow']
      exact htimed'
    · rw [if_neg hcond]
      exact ensures_ok ⟨h, by simp⟩

/-- A dead letter of a row whose times are in order. -/
theorem ensures_insertDeadLetter (h : store.Stamped clear) {row : Delivery} (hrow : row.Timed) :
    Ensures (fun store' => store'.Stamped clear) OtherThanTimestamp
      (store.insertDeadLetter row) := by
  unfold insertDeadLetter
  refine (ensures_orRaise fun _ check h => by cases h).bind fun first hfirst => ?_
  refine (ensures_orRaise fun _ check h => by cases h).bind fun last hlast => ?_
  refine (ensures_orRaise fun _ check h => by cases h).bind fun reason _ => ?_
  iterate 2 refine (ensures_require fun _ check h => by cases h).bind fun _ _ => ?_
  refine (ensures_require fun hnot => absurd ?_ hnot).bind fun _ _ =>
    ensures_ok (h.congr rfl rfl)
  rcases hrow.failed with ⟨hnone, -⟩ | ⟨first', last', hfirst', hlast', hbefore, -⟩
  · rw [hnone] at hfirst
    cases hfirst
  · rw [hfirst'] at hfirst
    rw [hlast'] at hlast
    rw [← Option.some.inj hfirst, ← Option.some.inj hlast]
    exact hbefore.2

theorem Stamped.advanceCheckpoint (h : store.Stamped clear) (subscription : DurableSubscription)
    (streamId : String) (settledAt : Datetime) :
    (store.advanceCheckpoint subscription streamId settledAt).1.Stamped clear := by
  obtain ⟨checkpoints, heq⟩ := store.advanceCheckpoint_tables subscription streamId settledAt
  rw [heq]
  exact h.congr rfl rfl

theorem ensures_expiry (expiry : Except OverflowError Datetime) :
    Ensures (fun _ => True) OtherThanTimestamp
      (expiry.mapError fun _ => StoreError.overflow) :=
  (ensures_mapError fun _ check h => by cases h).imp (fun _ _ => trivial) fun _ h => h

/-! ## The operations on deliveries -/

/-- An inbox entry leaves the streams and the deliveries alone. -/
theorem ensures_noteInbox (h : store.Stamped clear) (delivery : Delivery)
    (entry : Option InboxEntry) : Ensures (fun out => out.1.Stamped clear ∧
      out.1.deliveries = store.deliveries) OtherThanTimestamp
      (store.noteInbox delivery entry) := by
  cases entry with
  | none => exact ensures_ok ⟨h, rfl⟩
  | some entry =>
    unfold noteInbox recordInbox
    refine (ensures_require fun _ check h => by cases h).bind fun _ _ => ?_
    split
    · exact (ensures_require fun _ check h => by cases h).bind fun _ _ => ensures_ok ⟨h, rfl⟩
    · exact (ensures_require fun _ check h => by cases h).bind fun _ _ =>
        ensures_ok ⟨h.congr rfl rfl, rfl⟩

/-- The present is behind what has the property, and has it itself. -/
structure Present (clear : Datetime → Prop) (now : Datetime) : Prop where
  before : ∀ t, clear t → Before t now
  clear : clear now

section Operations

variable {now : Datetime} (hnow : Present clear now)

include hnow

theorem ensures_recoverClaim (h : store.Stamped clear) (subscription : DurableSubscription)
    (row : Delivery) : Ensures (fun store' => store'.Stamped clear) OtherThanTimestamp
      (recoverClaim subscription now store row) := by
  have hopen : ∀ current : Delivery, (current.state == .claimed) = true →
      current.nonterminal = true := by
    intro current hstate
    simp only [beq_iff_eq] at hstate
    simp [Delivery.nonterminal, hstate, isTerminal]
  have hset : ∀ (state : DeliveryState) (availableAt : Option Datetime) (current : Delivery),
      current ∈ store.deliveries → (current.state == .claimed) = true → current.Timed →
        clear current.updatedAt → (expiredRow current state availableAt now).Timed ∧
          clear (expiredRow current state availableAt now).updatedAt :=
    fun state availableAt current _ _ htimed hupdated =>
      ⟨htimed.fail (hnow.before _ hupdated) (before_refl now) rfl rfl rfl rfl, hnow.clear⟩
  unfold recoverClaim
  refine (Delivery.ensures_fromRow row).bind fun delivery _ => ?_
  split
  · refine (ensures_updateDelivery h hopen (hset _ _)).bind fun out hout => ?_
    exact ensures_ok hout.1
  · refine (ensures_updateDelivery h hopen (hset _ _)).bind fun out hout => ?_
    refine (ensures_orRaise fun _ check h => by cases h).bind fun updated hupdated => ?_
    refine (Delivery.ensures_fromRow updated).bind fun settled hsettled => ?_
    have htimed : settled.Timed := hsettled ▸ hout.2 updated hupdated
    refine (ensures_insertDeadLetter hout.1 htimed).bind fun dead hdead => ?_
    split
    · exact ensures_ok (hdead.advanceCheckpoint _ _ _)
    · exact ensures_ok hdead

theorem ensures_claimRow (h : store.Stamped clear) (request : DeliveryClaimRequest)
    (claimed : List ClaimedDelivery) (row : Delivery) :
    Ensures (fun out => out.1.Stamped clear) OtherThanTimestamp
      (claimRow request now (store, claimed) row) := by
  unfold claimRow
  dsimp only
  refine (ensures_expiry _).bind fun expiresAt _ => ?_
  refine (ensures_updateDelivery h (fun current => nonterminal_of_claimable)
    fun current _ _ htimed hupdated => ?_).bind fun out hout => ?_
  · exact ⟨htimed.update (hnow.before _ hupdated) rfl rfl rfl rfl, hnow.clear⟩
  · rcases out with ⟨store', _ | updated⟩
    · exact ensures_ok hout.1
    · refine (Delivery.ensures_fromRow updated).bind fun delivery _ => ?_
      exact (ensures_orRaise fun _ check h => by cases h).bind fun event _ => ensures_ok hout.1

theorem ensures_claimRows (h : store.Stamped clear) (request : DeliveryClaimRequest)
    (rows : List Delivery) : Ensures (fun out => out.1.Stamped clear) OtherThanTimestamp
      (rows.foldlM (claimRow request now) (store, [])) :=
  ensures_foldlM (I := fun out : Store × List ClaimedDelivery => out.1.Stamped clear) h
    fun row _ progress hprogress => ensures_claimRow hnow hprogress request progress.2 row

theorem ensures_claimDeliveries (h : store.Stamped clear) (request : DeliveryClaimRequest) :
    Ensures (fun out => out.1.Stamped clear) OtherThanTimestamp
      (store.claimDeliveries request now) := by
  unfold claimDeliveries
  refine (ensures_orRaise fun _ check h => by cases h).bind fun subscription _ => ?_
  split
  · exact ensures_ok h
  · refine (ensures_foldlM (I := fun s : Store => s.Stamped clear) h fun row _ s hs =>
      ensures_recoverClaim hnow hs subscription row).bind fun mid hmid => ?_
    dsimp only
    split
    · exact ensures_ok hmid
    · split
      · exact ensures_ok hmid
      · exact ensures_claimRows hnow hmid request _

theorem ensures_renewDeliveryLease (h : store.Stamped clear) (token : DeliveryLeaseToken)
    (lease : LeasePolicy) : Ensures (fun out => out.1.Stamped clear) OtherThanTimestamp
      (store.renewDeliveryLease token lease now) := by
  unfold renewDeliveryLease
  refine (ensures_expiry _).bind fun expiresAt _ => ?_
  refine (ensures_updateDelivery h (fun current hmatch => ?_)
    fun current _ _ htimed hupdated => ?_).bind fun out hout => ?_
  · have hstate := (leaseMatches_iff.mp hmatch).2.1
    simp [Delivery.nonterminal, hstate, isTerminal]
  · exact ⟨htimed.update (hnow.before _ hupdated) rfl rfl rfl rfl, hnow.clear⟩
  · exact (ensures_require fun _ check h => by cases h).bind fun _ _ => ensures_ok hout.1

/-- The row that a settlement writes, dated between the last update and the present. -/
theorem timed_settledRow {row : Delivery} (htimed : row.Timed) (hupdated : clear row.updatedAt)
    (settlement : DeliverySettlement)
    (hrow : row.updatedAt ≤ settlement.settledAt → TextLe row.updatedAt settlement.settledAt)
    (hown : settlement.settledAt ≤ now → TextLe settlement.settledAt now) (state : DeliveryState) :
    (settledRow row state settlement now).Timed := by
  have hpast := hnow.before _ hupdated
  have hlast : (settledRow row state settlement now).updatedAt = now := hpast.max_eq
  -- the failure is dated at the last update, at the settlement or now
  have hoccurrence : Before row.updatedAt (failureOccurrence row settlement.settledAt now) ∧
      Before (failureOccurrence row settlement.settledAt now) now := by
    unfold failureOccurrence
    rcases le_total settlement.settledAt now with hle | hle
    · rw [min_eq_left hle]
      rcases le_total row.updatedAt settlement.settledAt with hrowLe | hrowLe
      · rw [max_eq_right hrowLe]
        exact ⟨⟨hrowLe, hrow hrowLe⟩, hle, hown hle⟩
      · rw [max_eq_left hrowLe]
        exact ⟨before_refl _, hpast⟩
    · rw [min_eq_right hle, hpast.max_eq]
      exact ⟨hpast, before_refl _⟩
  by_cases hfailed : state = .retryWait ∨ state = .deadLetter
  · refine htimed.fail hoccurrence.1 hoccurrence.2 rfl ?_ ?_ hlast
    · exact if_pos hfailed
    · refine (if_pos hfailed).trans (congrArg some ?_)
      rcases htimed.failed with ⟨-, hnone⟩ | ⟨first, last, -, hsome, -, hbefore⟩
      · rw [hnone]
        rfl
      · rw [hsome]
        exact (hbefore.trans hoccurrence.1).max_eq
  · exact htimed.update hpast rfl (if_neg hfailed) (if_neg hfailed) hlast

theorem ensures_settleDelivery (h : store.Stamped clear) (settlement : DeliverySettlement)
    (hrows : ∀ row ∈ store.deliveries, row.nonterminal = true →
      row.updatedAt ≤ settlement.settledAt → TextLe row.updatedAt settlement.settledAt)
    (hown : settlement.settledAt ≤ now → TextLe settlement.settledAt now) :
    Ensures (fun out => out.1.Stamped clear) OtherThanTimestamp
      (store.settleDelivery settlement now) := by
  unfold settleDelivery
  dsimp only
  refine (ensures_orRaise fun _ check h => by cases h).bind fun row hfound => ?_
  obtain ⟨hfind, hmatch⟩ := Option.filter_eq_some_iff.mp hfound
  have hmem := (mem_of_findDelivery hfind).1
  have hclaimed := (leaseMatches_iff.mp hmatch).2.1
  have hopen : row.nonterminal = true := by
    simp [Delivery.nonterminal, hclaimed, isTerminal]
  obtain ⟨htimed, hupdated⟩ := h.rows row hmem hopen
  refine (Delivery.ensures_fromRow row).bind fun delivery hdelivery => ?_
  obtain rfl := hdelivery
  refine (ensures_orRaise fun _ check h => by cases h).bind fun subscription _ => ?_
  refine (ensures_require fun _ check h => by cases h).bind fun _ _ => ?_
  refine (ensures_noteInbox h row _).bind fun noted hnoted => ?_
  refine (ensures_updateDelivery hnoted.1 (fun current hcurrent => ?_)
    fun _ _ _ _ _ => ?_).bind fun out hout => ?_
  · simp only [Bool.and_eq_true, beq_iff_eq] at hcurrent
    simp [Delivery.nonterminal, hcurrent.1, isTerminal]
  · refine ⟨timed_settledRow hnow htimed hupdated settlement (hrows row hmem hopen) hown _, ?_⟩
    rw [show (settledRow row (settlementState subscription row settlement.target) settlement
      now).updatedAt = now from (hnow.before _ hupdated).max_eq]
    exact hnow.clear
  · refine (ensures_orRaise fun _ check h => by cases h).bind fun updated hwritten => ?_
    have hwrittenTimed : updated.Timed := hout.2 updated hwritten
    have hdead : Ensures (fun dead => dead.Stamped clear) OtherThanTimestamp
        (out.1.noteDeadLetter updated) := by
      unfold noteDeadLetter
      split
      · exact ensures_insertDeadLetter hout.1 hwrittenTimed
      · exact ensures_ok hout.1
    refine hdead.bind fun dead hdead => ?_
    refine (Delivery.ensures_fromRow updated).bind fun delivery _ => ensures_ok ?_
    unfold noteCheckpoint
    split
    · exact hdead.advanceCheckpoint _ _ _
    · exact hdead

/-! ## `append_event` -/

theorem Stamped.insertDelivery (h : store.Stamped clear) (subscription : DurableSubscription)
    (event : StoredEvent) (generation : ℕ) :
    (store.insertDelivery subscription event now generation).1.Stamped clear := by
  unfold Store.insertDelivery
  dsimp only
  split
  · exact h
  · have hadded := @Stamped.addRows _ _ h [] [rowFor subscription event now generation] fun row hrow => by
      rw [mem_singleton.mp hrow]
      exact ⟨timed_newDelivery _ _ _ _ _ _, hnow.clear⟩
    rw [addRows_nil] at hadded
    exact hadded

theorem ensures_materialize (h : store.Stamped clear) (event : StoredEvent) (pending : ℕ)
    (subscription : DurableSubscription) :
    Ensures (fun out => out.1.Stamped clear) OtherThanTimestamp
      (materialize event now (store, pending) subscription) := by
  have hstate : Ensures (fun out => out.1.Stamped clear) OtherThanTimestamp
      (store.stateFor subscription event now) := by
    unfold stateFor
    split
    · exact ensures_ok h
    · dsimp only
      split
      · exact ensures_ok h
      · unfold insertState
        refine Ensures.bind (P := fun s : Store => s.Stamped clear) ?_ fun s hs => ensures_ok hs
        refine (ensures_require fun _ check h => by cases h).bind fun _ _ => ?_
        exact (ensures_require fun _ check h => by cases h).bind fun _ _ =>
          ensures_ok (h.congr rfl rfl)
  unfold materialize
  dsimp only
  refine hstate.bind fun out hout => ?_
  rcases out with ⟨store', _ | state⟩
  · exact ensures_ok hout
  · dsimp only at hout ⊢
    split
    · exact ensures_ok hout
    · split
      · exact ensures_ok hout
      · split
        · exact ensures_ok hout
        · exact (ensures_require fun _ check h => by cases h).bind fun _ _ =>
            ensures_ok (hout.insertDelivery hnow subscription event 1)

theorem ensures_appendEvent (h : store.Stamped clear) (event : EventCandidate)
    (expected : Option ℕ) : Ensures (fun out => out.1.Stamped clear) OtherThanTimestamp
      (store.appendEvent event expected now) := by
  unfold appendEvent
  split
  · exact (ensures_require fun _ check h => by cases h).bind fun _ _ => ensures_ok h
  · -- the row of the stream was made in the past, or is made now
    have hopened : (store.openStream event now).1.Stamped clear ∧
        clear (store.openStream event now).2.createdAt := by
      unfold openStream
      split
      · rename_i stream hfind
        exact ⟨h, h.streams stream (mem_of_find? hfind).1⟩
      · refine ⟨⟨fun stream hstream => ?_, h.rows⟩, hnow.clear⟩
        rcases mem_append.mp hstream with hold | hlast
        · exact h.streams stream hold
        · rw [mem_singleton.mp hlast]
          exact hnow.clear
    rcases hsplit : store.openStream event now with ⟨opened, stream⟩
    rw [hsplit] at hopened
    dsimp only at hopened ⊢
    refine (ensures_require fun _ check h => by cases h).bind fun _ _ => ?_
    refine (ensures_require fun hnot =>
      absurd (hnow.before _ hopened.2).2 hnot).bind fun _ _ => ?_
    refine Ensures.bind (P := fun out : Store × ℕ => out.1.Stamped clear) ?_
      fun out hout => ensures_ok hout
    refine ensures_foldlM (I := fun out : Store × ℕ => out.1.Stamped clear) ?_
      fun subscription _ progress hprogress =>
        ensures_materialize hnow hprogress _ progress.2 subscription
    refine ⟨fun row hrow => ?_, hopened.1.rows⟩
    rcases mem_replace hrow with rfl | hold
    · exact hopened.2
    · exact hopened.1.streams row hold

end Operations

/-! ## The operations of operators -/

/-- What a registration stores has the reading of the clock. -/
theorem Stamped.registerSubscription (hwf : store.WellFormed) (h : store.Stamped clear)
    {subscription persisted : DurableSubscription} {now : Datetime} (hnow : clear now)
    (hcall : store.registerSubscription subscription now = .ok (store', persisted)) :
    store'.Stamped clear := by
  rcases registerSubscription_spec hwf hcall with ⟨rfl, -⟩ | ⟨createdAt, -, -, -, -, -, rfl, -⟩
  · exact h
  · have hbase : ({ store with subscriptions := store.subscriptions ++ [persisted] } :
        Store).Stamped clear := h.congr rfl rfl
    refine hbase.addRows _ fun row hrow => ?_
    obtain ⟨stream, -, hrow⟩ := mem_flatMap.mp hrow
    obtain ⟨event, -, rfl⟩ := mem_map.mp hrow
    exact ⟨timed_newDelivery _ _ _ _ _ _, hnow⟩

theorem Stamped.setSubscriptionStatus (h : store.Stamped clear) {key : SubscriptionKey}
    {status : SubscriptionStatus} {changedAt : Datetime} {reason : String}
    {updated : DurableSubscription}
    (hcall : store.setSubscriptionStatus key status changedAt reason = .ok (store', updated)) :
    store'.Stamped clear := by
  obtain ⟨_, _, -, -, -, -, rfl⟩ := setSubscriptionStatus_spec hcall
  exact h.congr rfl rfl

/-- The new generation of a dead letter has the reading of the clock. -/
theorem Stamped.requeueDeadLetter (h : store.Stamped clear) {action : DeadLetterAction}
    {now : Datetime} (hnow : clear now) {row : Delivery}
    (hcall : store.requeueDeadLetter action now = .ok (store', row)) : store'.Stamped clear := by
  obtain ⟨_, _, _, -, -, -, -, -, -, hrow, rfl⟩ := requeueDeadLetter_spec hcall
  have hadded := @Stamped.addRows _ _ h [] [row] fun other hother => by
    rw [mem_singleton.mp hother, hrow]
    exact ⟨timed_newDelivery _ _ _ _ _ _, hnow⟩
  rw [addRows_nil] at hadded
  exact hadded.congr rfl rfl

theorem Stamped.resolveDeadLetter (h : store.Stamped clear) {action : DeadLetterAction}
    {record : DeadLetterRecord} (hcall : store.resolveDeadLetter action = .ok (store', record)) :
    store'.Stamped clear := by
  obtain ⟨_, _, -, -, rfl⟩ := resolveDeadLetter_spec hcall
  exact h.congr rfl rfl

/-- The new generations of a redelivery are dated at the requested time, where it is later. -/
theorem Stamped.beginRedelivery (hwf : store.WellFormed) (h : store.Stamped clear)
    {request : RedeliveryRequest} {now : Datetime} (hnow : clear (max now request.requestedAt))
    {report : RedeliveryReport}
    (hcall : store.beginRedelivery request now = .ok (store', report)) : store'.Stamped clear := by
  rcases beginRedelivery_spec hwf hcall with rfl | ⟨_, _, -, -, -, -, -, hstore⟩
  · exact h
  · rw [hstore]
    refine (h.addRows [] fun row hrow => ?_).congr rfl rfl
    obtain ⟨event, -, rfl⟩ := mem_map.mp hrow
    exact ⟨timed_newDelivery _ _ _ _ _ _, hnow⟩

/-- A cancellation ends the rows that it dates. -/
theorem Stamped.cancelRetiredSubscription (hwf : store.WellFormed) (h : store.Stamped clear)
    {request : RetirementCancellationRequest} {now : Datetime}
    {report : RetirementCancellationReport}
    (hcall : store.cancelRetiredSubscription request now = .ok (store', report)) :
    store'.Stamped clear := by
  rcases cancelRetiredSubscription_spec hcall with
    rfl | ⟨subscription, cancelledAt, mid, items, -, -, hfold, hstore⟩
  · exact h
  have hmid := (cancelRows_keeps (P := fun _ s => s.Stamped clear) hwf.deliveryIds
    (nodup_cancellableRows hwf.deliveryIds subscription request) (fun row hrow => ?_) h hfold
    fun s row rest hs _ _ _ _ _ => hs.putDelivery fun hopen => by cases hopen).1
  · rcases advanceCheckpoints_tables subscription cancelledAt
      (affectedStreams (store.cancellableRows subscription request)) mid with
      ⟨checkpoints, htables⟩
    rw [htables] at hstore
    rw [hstore]
    exact hmid.congr rfl rfl
  · obtain ⟨hof, hopen⟩ := mem_nonterminalOf.mp (mem_of_mem_cancellableRows hrow)
    exact ⟨(mem_deliveriesOf.mp hof).1, hopen⟩

/-! ## Every call -/

/-- A call that is made after what the tables hold keeps them in time, and where it is one of the
four it does not fail on a timestamp. -/
theorem ensures_commit (hwf : store.WellFormed) {timed : TimedCall}
    (h : store.Stamped fun t => timed.After t ∧ clear t) (hlatest : clear timed.latest)
    (hown : ∀ settledAt ∈ timed.settledAt, settledAt ≤ timed.now → TextLe settledAt timed.now) :
    Ensures (fun store' => store'.Stamped clear)
      (fun e => timed.call.delivers = true → e.OtherThanTimestamp) (store.commit timed) := by
  obtain ⟨call, now⟩ := timed
  -- what a call of the four stores is at the present, which has both properties
  have hdelivers : ∀ {α : Type} {x : Except StoreError (Store × α)}, call.delivers = true →
      Ensures (fun out => out.1.Stamped fun t => Before t now ∧ clear t)
        OtherThanTimestamp x →
      Ensures (fun store' => store'.Stamped clear)
        (fun e => call.delivers = true → e.OtherThanTimestamp) (x.map Prod.fst) :=
    fun _ hx => (hx.imp (fun _ hs => hs.imp fun _ ht => ht.2) fun _ he _ => he).map
  have hothers : ∀ {α : Type} {x : Except StoreError (Store × α)}, call.delivers = false →
      (∀ store' out, x = .ok (store', out) → store'.Stamped clear) →
      Ensures (fun store' => store'.Stamped clear)
        (fun e => call.delivers = true → e.OtherThanTimestamp) (x.map Prod.fst) := by
    intro α x hnot hx
    refine Ensures.map ⟨fun {out} hout => hx out.1 out.2 hout, fun _ _ hcall => ?_⟩
    rw [hnot] at hcall
    cases hcall
  have hpast : store.Stamped fun t => Before t now ∧ clear t :=
    h.imp fun t ht => ⟨ht.1.1, ht.2⟩
  have hclear : store.Stamped clear := h.imp fun t ht => ht.2
  have hpresent (hnow : clear now) : Present (fun t => Before t now ∧ clear t) now :=
    ⟨fun _ ht => ht.1, before_refl now, hnow⟩
  unfold Store.commit
  cases call <;> dsimp only
  case appendEvent event expected =>
    exact hdelivers rfl (ensures_appendEvent (hpresent hlatest) hpast event expected)
  case registerSubscription subscription =>
    exact hothers rfl fun _ _ hcall => hclear.registerSubscription hwf hlatest hcall
  case setSubscriptionStatus =>
    exact hothers rfl fun _ _ hcall => hclear.setSubscriptionStatus hcall
  case claimDeliveries request =>
    exact hdelivers rfl (ensures_claimDeliveries (hpresent hlatest) hpast request)
  case renewDeliveryLease token lease =>
    exact hdelivers rfl (ensures_renewDeliveryLease (hpresent hlatest) hpast token lease)
  case settleDelivery settlement =>
    refine hdelivers rfl
      (ensures_settleDelivery (hpresent hlatest) hpast settlement ?_ (hown _ rfl))
    exact fun row hrow hopen => (h.rows row hrow hopen).2.1.2 _ rfl
  case requeueDeadLetter action =>
    exact hothers rfl fun _ _ hcall => hclear.requeueDeadLetter hlatest hcall
  case resolveDeadLetter action =>
    exact hothers rfl fun _ _ hcall => hclear.resolveDeadLetter hcall
  case beginRedelivery request =>
    exact hothers rfl fun _ _ hcall => hclear.beginRedelivery hwf hlatest hcall
  case cancelRetiredSubscription request =>
    exact hothers rfl fun _ _ hcall => hclear.cancelRetiredSubscription hwf hcall

/-- The tables are in time with what follows, through every run that is timely. -/
theorem stamped_run {calls : List TimedCall} : ∀ {store : Store} {rest : List TimedCall},
    store.WellFormed → Timely (calls ++ rest) →
      (store.Stamped fun t => ∀ later ∈ calls ++ rest, later.After t) →
        (StepRuns.run step store calls).Stamped fun t => ∀ later ∈ rest, later.After t := by
  induction calls with
  | nil => exact fun _ _ h => h
  | cons timed calls ih =>
    intro store rest hwf htimely h
    rw [cons_append, Timely, pairwise_cons] at htimely
    obtain ⟨⟨hlater, hpairs⟩, hown⟩ := htimely
    rw [StepRuns.run_cons]
    refine ih (hwf.step timed) ⟨hpairs, fun other hother =>
      hown other (mem_cons_of_mem _ hother)⟩ ?_
    unfold Store.step
    cases hcall : store.commit timed with
    | error e => exact h.imp fun t ht other hother => ht other (mem_cons_of_mem _ hother)
    | ok store' =>
      refine (ensures_commit hwf (h.imp fun t ht => ?_) hlater
        (hown timed mem_cons_self)).ok hcall
      exact ⟨ht timed mem_cons_self, fun other hother =>
        ht other (mem_cons_of_mem _ hother)⟩

theorem stamped_empty : Stamped {} clear :=
  ⟨nofun, nofun⟩

/-- In a timely run no claim, renewal, settlement or append fails on a timestamp. -/
theorem no_timestamp_failure (calls : List TimedCall) (timed : TimedCall)
    (h : Timely (calls ++ [timed])) (hdelivers : timed.call.delivers = true) :
    timestampFailure ((StepRuns.run step {} calls).commit timed) = false := by
  have hstamped := @stamped_run calls {} [timed] wellFormed_empty h stamped_empty
  have hensures := @ensures_commit _ (fun _ => True) (wellFormed_run calls) timed
    (hstamped.imp fun t ht => ⟨ht timed mem_cons_self, trivial⟩) trivial
    (h.2 timed (mem_append_right _ mem_cons_self))
  cases hcall : (StepRuns.run step {} calls).commit timed with
  | ok store' => rfl
  | error e =>
    have hother := hensures.error _ hcall hdelivers
    cases e <;> first | rfl | exact absurd rfl (hother _)

/-- A subscription whose only event is appended and claimed at readings with and without a
fraction. -/
theorem no_timestamp_failure_claim : timestampFailure ((StepRuns.run step {}
      [⟨.registerSubscription sampleSubscription, moment 1 250000⟩,
        ⟨.appendEvent (sampleEvent "event") none, moment 1 500000⟩]).commit
      ⟨.claimDeliveries (sampleClaim "worker"), moment 2⟩) = false :=
  no_timestamp_failure _ ⟨.claimDeliveries (sampleClaim "worker"), moment 2⟩ (by decide +kernel) rfl

/-- A clock that only moves forward is not enough: a delivery that is made on a whole second cannot
be claimed within that second. -/
theorem not_no_timestamp_failure : ¬ ∀ (calls : List TimedCall) (timed : TimedCall),
    ((calls ++ [timed]).map TimedCall.now).Pairwise (· ≤ ·) → timed.call.delivers = true →
      timestampFailure ((StepRuns.run step {} calls).commit timed) = false := by
  intro h
  have hclaim := h
    [⟨.registerSubscription sampleSubscription, moment 1⟩,
      ⟨.appendEvent (sampleEvent "event") none, moment 2⟩]
    ⟨.claimDeliveries (sampleClaim "worker"), moment 2 500000⟩ (by decide +kernel) rfl
  revert hclaim
  decide +kernel

end Store

end EventStore
