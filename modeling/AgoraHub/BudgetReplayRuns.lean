/-
# Replaying the events of a run

A run whose calls append events with new ids, recorded from a snapshot on, is
reproduced by replaying its events on that snapshot: the replayed ledger and the live
one stay twins event by event.
-/
import AgoraHub.BudgetSimulation

namespace Budget

open Fallible PyText List PyDict

namespace BudgetLedger

variable {sha256 : String → HexDigest} {L R : BudgetLedger} {clock : ℤ}

/-! ## The ids of appended events -/

/-- The id of the event that a call appends when its checks pass. -/
inductive AppendsId (sha256 : String → HexDigest) (L : BudgetLedger) :
    LedgerCall → RequiredText → Prop where
  | created {scope : BudgetScopeRef} {request : BudgetAmounts} {op key : String}
      {policy : Option BudgetPolicy} {createdAt : Option ℤ} {operationId idempotencyKey : RequiredText}
      {usage : BudgetUsage}
      (op_eq : requiredText op "operation_id" = .ok operationId)
      (key_eq : requiredText key "idempotency_key" = .ok idempotencyKey)
      (fresh : L.NewOperation operationId idempotencyKey)
      (fits : L.projectedForRequest scope.scopeId request = .ok ([], usage)) :
      AppendsId sha256 L (.reserve scope request op key policy createdAt)
        (eventIdOf sha256 "created" (reservationIdOf sha256 operationId idempotencyKey).val
          (L.revision + 1))
  | denied {scope : BudgetScopeRef} {request : BudgetAmounts} {op key : String}
      {policy : Option BudgetPolicy} {createdAt : Option ℤ} {operationId idempotencyKey : RequiredText}
      {violations : List String} {usage : BudgetUsage}
      (op_eq : requiredText op "operation_id" = .ok operationId)
      (key_eq : requiredText key "idempotency_key" = .ok idempotencyKey)
      (fresh : L.NewOperation operationId idempotencyKey)
      (exceeds : L.projectedForRequest scope.scopeId request = .ok (violations, usage))
      (violated : violations ≠ []) :
      AppendsId sha256 L (.reserve scope request op key policy createdAt)
        (eventIdOf sha256 "denied" operationId.val (L.revision + 1))
  | settled {reservationId : String} {s : BudgetSettlement} {r : BudgetReservation}
      {record : BudgetOperationRecord}
      (found : L.reservations.get? (strip reservationId) = some r)
      (is_open : r.status.isOpen = true)
      (record_eq : L.operations.get? r.operationId = some record)
      -- an indeterminate settlement is settled again only by an outcome that fits
      (again : ∀ old, record.settlement = some old → old.outcome = .indeterminate ∧
        s.outcome ≠ .indeterminate ∧ L.settlementFitsReservation r s.actual = .ok true) :
      AppendsId sha256 L (.settle reservationId s) s.settledEventId
  | released {reservationId op reason : String} {eventId : Option String} {id : RequiredText}
      (is_reserved : L.Reserved reservationId)
      (id_eq : requiredText (suppliedOr eventId
        (eventIdOf sha256 "released" reservationId (L.revision + 1))) "settled_event_id" = .ok id) :
      AppendsId sha256 L (.release reservationId op reason false eventId) id
  | expired {reservationId : String} {now : Option ℤ} (is_reserved : L.Reserved reservationId) :
      AppendsId sha256 L (.expire reservationId now)
        (eventIdOf sha256 "expired" reservationId (L.revision + 1))
  | indeterminate {reservationId op reason : String} {eventId : Option String} {id : RequiredText}
      (is_reserved : L.Reserved reservationId)
      (id_eq : requiredText (suppliedOr eventId
        (eventIdOf sha256 "indeterminate" reservationId (L.revision + 1))) "settled_event_id" =
          .ok id) :
      AppendsId sha256 L (.markIndeterminate reservationId op reason eventId) id

variable {e : BudgetEvent}

/-- No settlement event is appended for an indeterminate outcome. -/
theorem outcome_of_settleCheck (hrec : Records sha256 L) {reservationId : String}
    {s s' : BudgetSettlement} {r : BudgetReservation} {record : BudgetOperationRecord}
    {text : String} (h : L.settleCheck reservationId s = .ok (.commit r record s' e text)) :
    s.outcome ≠ .indeterminate := by
  obtain ⟨hclosing, rfl, -, -, he⟩ := of_settleCheck_commit hrec h
  intro hout
  have hstatus := hclosing.settles.status
  rw [StatusAfter, hout] at hstatus
  simp [BudgetReservation.withStatus] at hstatus

variable {call : LedgerCall} {L' : BudgetLedger}

/-- The event of a change has the id its call appends. -/
theorem Change.appendsId (hrec : Records sha256 L) (hc : Change sha256 L call e L') :
    AppendsId sha256 L call e.eventId := by
  cases hc with
  | denied check =>
    obtain ⟨_, _, _, _, _, -, hop, hkey, hexisting, hproj, hviol, -, _, -, -, hevent⟩ :=
      reserveCheck_eq_deny.mp check
    obtain ⟨-, -, _, -, rfl⟩ := BudgetEvent.of_create hevent
    exact .denied hop hkey (of_existingOperation hexisting) hproj hviol
  | created check fresh booked =>
    obtain ⟨_, _, _, _, _, -, hop, hkey, hexisting, hproj, -, -, rfl, rfl, -⟩ :=
      reserveCheck_eq_create.mp check
    exact .created hop hkey (of_existingOperation hexisting) hproj
  | settled key check free book =>
    obtain ⟨hclosing, -, -, hfits, -⟩ := of_settleCheck_commit hrec check
    rw [hclosing.event_id]
    exact .settled hclosing.found hclosing.is_open hclosing.record_eq fun old hold =>
      ⟨hclosing.before old hold, outcome_of_settleCheck hrec check, hfits⟩
  | released key check free =>
    obtain ⟨hclosing, -, hres, -, htext, -⟩ := of_releaseCheck_commit hrec (.inl rfl) check
    obtain ⟨-, -, -, rfl, -, -, -, _, _, terminal, -, -, hterminal, hs, -⟩ :=
      releaseCheck_eq_commit.mp check
    rw [hclosing.event_id, hs]
    exact .released ⟨_, hclosing.found, hres⟩ (htext ▸ hterminal)
  | expired key due check free =>
    obtain ⟨hclosing, -, hres, -, htext, -⟩ := of_releaseCheck_commit hrec (.inr ⟨rfl, rfl⟩) check
    obtain ⟨-, -, -, -, -, -, -, _, _, terminal, -, -, hterminal, hs, -⟩ :=
      releaseCheck_eq_commit.mp check
    rw [suppliedOr_some] at htext
    rw [htext, requiredText_val] at hterminal
    rw [hclosing.event_id, hs]
    show AppendsId sha256 L _ terminal
    rw [← ok_inj hterminal]
    exact .expired ⟨_, hclosing.found, hres⟩
  | indeterminate origin key check =>
    obtain ⟨hclosing, -, hres, hset, htext, -⟩ := of_markIndeterminateCheck_commit hrec check
    obtain ⟨-, -, -, -, -, -, _, _, terminal, -, -, hterminal, hs, -⟩ :=
      markIndeterminateCheck_eq_commit.mp check
    rw [hclosing.event_id, hs]
    show AppendsId sha256 L _ terminal
    rcases origin with rfl | ⟨asked, rfl, rfl⟩
    · exact .indeterminate ⟨_, hclosing.found, hres⟩ (htext ▸ hterminal)
    · rw [suppliedOr_some] at htext
      rw [htext, requiredText_val] at hterminal
      rw [← ok_inj hterminal]
      exact .settled hclosing.found hclosing.is_open hclosing.record_eq fun old hold => by
        rw [hset] at hold
        simp at hold

/-! ## Sizes -/

/-- There are at most as many reservations as operations. -/
theorem Records.length_reservations_le (h : Records sha256 L) :
    L.reservations.length ≤ L.operations.length := by
  have hnodup : (L.reservations.map fun p => p.2.operationId).Nodup := by
    refine (nodup_map_iff_inj_on (List.Nodup.of_map _ h.reservations_nodup)).mpr ?_
    rintro ⟨key, r⟩ hr ⟨key', r'⟩ hr' hop
    have hget := get?_of_mem h.reservations_nodup hr
    have hget' := get?_of_mem h.reservations_nodup hr'
    obtain rfl := h.index_unique hget hget' hop.symm
    rw [Option.some.inj (hget.symm.trans hget')]
  have hsub : (L.reservations.map fun p => p.2.operationId) ⊆ L.operations.keys := by
    intro op hop
    obtain ⟨⟨key, r⟩, hr, rfl⟩ := mem_map.mp hop
    obtain ⟨-, record, hrecord, -⟩ := h.linked key r (get?_of_mem h.reservations_nodup hr)
    exact (mem_keys_iff _ _).mpr ⟨record, hrecord⟩
  simpa [PyDict.keys] using (hnodup.subperm hsub).length_le

theorem Change.length_operations_le (hc : Change sha256 L call e L') :
    L.operations.length ≤ L'.operations.length := by
  cases hc <;> exact length_le_set _ _ _

/-- A snapshot that was taken has as many scopes as the ledger. -/
theorem length_scopes_le_of_snapshot (hinv : LedgerInv sha256 L) {S : BudgetSnapshot}
    (hS : L.snapshot sha256 = .ok S) : L.scopes.length ≤ maxSnapshotRecords := by
  have hids := congrArg List.length (isSnapshot_of_snapshot hinv hS).ids
  rw [idsOf, length_map, (sortedKeys_perm _).length_eq, PyDict.keys, length_map] at hids
  obtain ⟨_, _, _, _, -, -, -, -, -, -, -, heq⟩ := snapshot_parts hinv
  rw [heq] at hS
  simp only [BudgetSnapshot.create, bind_eq_ok, require_eq_ok] at hS
  obtain ⟨_, hscopes, _, -, _, -, last, -, revision, -, hS⟩ := hS
  cases hS
  exact hids.symm.trans_le hscopes

/-! ## The replay loop beside the live run -/

/-- The replay loop has reached the live ledger, `start` being the revision of the
snapshot. -/
structure ReplayOf (sha256 : String → HexDigest) (start : ℕ) (L : BudgetLedger)
    (recorded : List BudgetEvent) (state : ReplayState) : Prop where
  twin : Twin sha256 L state.ledger
  last : state.ledger.lastEventId.map strip = L.lastEventId.map strip
  last_text : ∀ text, L.lastEventId = some text → ∃ t : RequiredText, t.val = strip text
  seen : ∀ id, id ∈ state.seen ↔ id ∈ recorded.map BudgetEvent.eventId
  expected : state.expectedRevision = L.revision + 1
  scopes : L.scopes.length ≤ maxSnapshotRecords
  revision : L.revision = start + recorded.length
  distinct : (recorded.map BudgetEvent.eventId).Nodup
  consecutive : recorded.map BudgetEvent.ledgerRevision = List.range' (start + 1) recorded.length

theorem Twin.withLastEventId (h : Twin sha256 L R) (text : Option String) :
    Twin sha256 L { R with lastEventId := text } where
  same := { h.same with }
  left := h.left
  right := h.right.of_same (M := { R with lastEventId := text }) (by constructor <;> intros <;> rfl)
    (h.right.tree.frame rfl rfl rfl rfl rfl rfl) h.right.records.reservations_nodup
    h.right.records.operations_nodup

variable {recorded : List BudgetEvent}

theorem ReplayOf.snapshot {start : ℕ} {state : ReplayState}
    (h : ReplayOf sha256 start L recorded state)
    (hcount : L.operations.length ≤ maxSnapshotRecords) :
    ∃ T, L.snapshot sha256 = .ok T ∧ state.ledger.snapshot sha256 = .ok T := by
  obtain ⟨T, hT⟩ := snapshot_ok h.twin.left h.scopes
    (h.twin.left.records.length_reservations_le.trans hcount) hcount h.last_text
  exact ⟨T, hT, (h.twin.snapshot_eq h.last).trans hT⟩

/-- One event: the replay loop follows a change whose event id is new. -/
theorem ReplayOf.event {start : ℕ} {state : ReplayState}
    (h : ReplayOf sha256 start L recorded state) (clock : ℤ) (hc : Change sha256 L call e L')
    (hnew : e.eventId ∉ recorded.map BudgetEvent.eventId)
    (hcount : L'.operations.length ≤ maxSnapshotRecords) :
    ∃ state', replayEvent sha256 clock none state e = .ok state' ∧
      ReplayOf sha256 start L' (recorded ++ [e]) state' := by
  obtain ⟨R', hR, htwin⟩ := hc.twin h.twin
  have hreplay := hR.replay h.twin.right clock
  obtain ⟨hrevision, hscopes, hroot⟩ := hc.advances h.twin.left.records
  have hevent := hc.eventOf h.twin.left.records
  have hlast := hc.lastEventId h.twin.left.records
  let state' : ReplayState := ⟨{ R' with lastEventId := some e.eventId.val },
    e.eventId :: state.seen, state.expectedRevision + 1⟩
  have hnext : ReplayOf sha256 start L' (recorded ++ [e]) state' :=
    { twin := htwin.withLastEventId _
      last := by
        rw [hlast]
        exact congrArg some e.eventId.trimmed
      last_text := fun text htext => ⟨e.eventId, by
        rw [htext] at hlast
        exact (Option.some.inj hlast).symm⟩
      seen := fun id => by
        rw [mem_cons, h.seen, map_append, mem_append, map_singleton,
          mem_singleton, or_comm]
      expected := by rw [hrevision, ← h.expected]
      scopes := hscopes ▸ h.scopes
      revision := by
        rw [hrevision, h.revision, length_append, length_singleton, Nat.add_assoc]
      distinct := by
        rw [map_append, map_singleton, ← concat_eq_append]
        exact h.distinct.concat hnew
      consecutive := by
        rw [map_append, h.consecutive, length_append, length_singleton,
          range'_1_concat, map_singleton, hevent.revision, h.revision]
        congr 2
        omega }
  obtain ⟨T, -, hT⟩ := hnext.snapshot hcount
  refine ⟨state', ?_, hnext⟩
  obtain ⟨root, hrootScope, -⟩ := h.twin.right.tree.root
  have hrun : e.runId = root.runId := by
    rw [hevent.run]
    exact h.twin.right.tree.same_run _ _ _ ((h.twin.same.scopes _).trans hevent.scope) hrootScope
  have hTlast : T.lastEventId = some e.eventId := by
    have := (isSnapshot_of_snapshot hnext.twin.right hT).last
    rw [Option.map_some, e.eventId.trimmed] at this
    obtain ⟨t, ht, hval⟩ := Option.map_eq_some_iff.mp this
    rw [ht, RequiredText.ext hval]
  have hledgerRevision : state'.ledger.revision = e.ledgerRevision := by
    rw [hnext.twin.same.revision, hrevision, hevent.revision]
  refine require_intro (fun hmem => hnew ((h.seen _).mp hmem)) ?_
  refine require_intro (hevent.revision.trans h.expected.symm) ?_
  refine bind_intro (item_eq_ok.mpr hrootScope) ?_
  refine require_intro hrun ?_
  refine require_intro (by simp) ?_
  refine bind_eq_ok.mpr ⟨state'.ledger, by rw [hreplay]; rfl, ?_⟩
  refine require_intro hledgerRevision ?_
  exact bind_intro hT (require_intro hTlast rfl)

/-! ## Runs from a snapshot -/

/-- Every step of a run meets `ok` in the ledger it is applied to and after the events
recorded before it. -/
def EveryRecordedStep (sha256 : String → HexDigest)
    (ok : BudgetLedger → List BudgetEvent → LedgerStep → Prop) :
    List LedgerStep → BudgetLedger → List BudgetEvent → Prop
  | [], _, _ => True
  | step :: steps, L, recorded => ok L recorded step ∧
      EveryRecordedStep sha256 ok steps (step.apply sha256 L).1
        (recorded ++ (step.apply sha256 L).2)

/-- A clean call of one of the five operations, with a sink that records and an event id
that no recorded event has. -/
structure Replayable (sha256 : String → HexDigest) (L : BudgetLedger) (recorded : List BudgetEvent)
    (step : LedgerStep) : Prop where
  sink : step.sink = .recorded
  operation : ∀ scope policy, step.call ≠ .registerScope scope policy
  clean : Clean sha256 L step.call
  new_id : ∀ id, AppendsId sha256 L step.call id → id ∉ recorded.map BudgetEvent.eventId

/-- What a replayable step does. -/
theorem Replayable.cases (hinv : LedgerInv sha256 L) {step : LedgerStep}
    (h : Replayable sha256 L recorded step) : step.apply sha256 L = (L, []) ∨
      ∃ e L', Change sha256 L step.call e L' ∧ e.eventId ∉ recorded.map BudgetEvent.eventId ∧
        step.apply sha256 L = (L', [e]) := by
  rcases LedgerStep.apply_cases hinv h.clean with
    happly | ⟨scope, policy, hcall, -, -⟩ | ⟨e, L', events, hchange, happend, happly⟩
  · exact .inl happly
  · exact absurd hcall (h.operation scope policy)
  · rw [h.sink] at happend
    cases happend
    exact .inr ⟨e, L', hchange, h.new_id _ (hchange.appendsId hinv.records), happly⟩

/-- No step of a replayable run removes an operation. -/
theorem length_operations_le_run {steps : List LedgerStep} :
    ∀ {L : BudgetLedger} {recorded : List BudgetEvent}, LedgerInv sha256 L →
      EveryRecordedStep sha256 (Replayable sha256) steps L recorded →
      L.operations.length ≤ (runSteps sha256 steps L).1.operations.length := by
  induction steps with
  | nil => intro L recorded _ _; exact le_rfl
  | cons step steps ih =>
    intro L recorded hinv hsteps
    refine le_trans ?_ (ih (hinv.step hsteps.1.clean) hsteps.2)
    rcases hsteps.1.cases hinv with happly | ⟨e, L', hchange, -, happly⟩
    · rw [happly]
    · rw [happly]; exact hchange.length_operations_le

/-- The replay loop follows a replayable run to its end. -/
theorem ReplayOf.run (clock : ℤ) {start : ℕ} {steps : List LedgerStep} :
    ∀ {L : BudgetLedger} {recorded : List BudgetEvent} {state : ReplayState},
      ReplayOf sha256 start L recorded state →
      EveryRecordedStep sha256 (Replayable sha256) steps L recorded →
      (runSteps sha256 steps L).1.operations.length ≤ maxSnapshotRecords →
      ∃ state', (runSteps sha256 steps L).2.foldlM (replayEvent sha256 clock none) state =
          .ok state' ∧ ReplayOf sha256 start (runSteps sha256 steps L).1
          (recorded ++ (runSteps sha256 steps L).2) state' := by
  induction steps with
  | nil =>
    intro L recorded state h _ _
    exact ⟨state, rfl, by simpa [runSteps] using h⟩
  | cons step steps ih =>
    intro L recorded state h hsteps hcount
    obtain ⟨hstep, hrest⟩ := hsteps
    have hmono := length_operations_le_run (h.twin.left.step hstep.clean) hrest
    rw [runSteps] at hcount ⊢
    rcases hstep.cases h.twin.left with happly | ⟨e, L', hchange, hnew, happly⟩
    · rw [happly] at hrest hcount ⊢
      rw [append_nil] at hrest
      exact ih h hrest hcount
    · rw [happly] at hrest hcount hmono ⊢
      obtain ⟨state₁, hevent, h₁⟩ := h.event clock hchange hnew (hmono.trans hcount)
      obtain ⟨state₂, hfold, h₂⟩ := ih h₁ hrest hcount
      refine ⟨state₂, ?_, by simpa using h₂⟩
      rw [singleton_append, foldlM_cons, hevent, ok_bind]
      exact hfold

/-- Replaying the events on the snapshot gives a ledger with the snapshot of the live
one, and the events have distinct ids and consecutive revisions. -/
structure Replays (sha256 : String → HexDigest) (clock : ℤ) (S : BudgetSnapshot)
    (events : List BudgetEvent) (L : BudgetLedger) : Prop where
  reproduces : ∃ R T, replayBudgetEvents sha256 clock S events none = .ok R ∧
    R.snapshot sha256 = .ok T ∧ L.snapshot sha256 = .ok T
  distinct : (events.map BudgetEvent.eventId).Nodup
  consecutive : events.map BudgetEvent.ledgerRevision =
    List.range' (S.ledgerRevision + 1) events.length

/-- A restored snapshot is where the replay loop starts. -/
theorem ReplayOf.start (hinv : LedgerInv sha256 L) {S : BudgetSnapshot}
    (hS : L.snapshot sha256 = .ok S) {R : BudgetLedger} (hR : restore sha256 S = .ok R) :
    ReplayOf sha256 S.ledgerRevision L [] ⟨R, [], S.ledgerRevision + 1⟩ := by
  have hsnapshot := isSnapshot_of_snapshot hinv hS
  obtain ⟨M, hsame, hinvM, hlast, heq⟩ := restore_eq hinv hsnapshot
  rw [heq] at hR
  obtain ⟨_, -, hM⟩ := bind_inv hR
  cases hM
  exact
    { twin := ⟨hsame, hinv, hinvM⟩
      last := by
        rw [hlast]
        cases L.lastEventId with
        | none => rfl
        | some text => exact congrArg some (strip_strip text)
      last_text := fun text htext => by
        have := hsnapshot.last
        rw [htext] at this
        obtain ⟨t, -, ht⟩ := Option.map_eq_some_iff.mp this
        exact ⟨t, ht⟩
      seen := fun id => by simp
      expected := by rw [hsnapshot.revision]
      scopes := length_scopes_le_of_snapshot hinv hS
      revision := by rw [hsnapshot.revision]; rfl
      distinct := nodup_nil
      consecutive := rfl }

/-- From a restorable snapshot of a cleanly reached ledger on, the events of every
replayable run reproduce it. -/
theorem replays_of_replayable_run (sha256 : String → HexDigest) (clock : ℤ)
    (initial L : BudgetLedger) (before steps : List LedgerStep) (S : BudgetSnapshot)
    (R : BudgetLedger) (hinit : initial.IsInitial)
    (hbefore : EveryStep sha256 (Clean sha256) before initial)
    (hL : (runSteps sha256 before initial).1 = L) (hS : L.snapshot sha256 = .ok S)
    (hR : restore sha256 S = .ok R)
    (hsteps : EveryRecordedStep sha256 (Replayable sha256) steps L [])
    (hcount : (runSteps sha256 steps L).1.operations.length ≤ maxSnapshotRecords) :
    Replays sha256 clock S (runSteps sha256 steps L).2 (runSteps sha256 steps L).1 := by
  subst hL
  have hstart := ReplayOf.start (hinit.inv.run hbefore) hS hR
  obtain ⟨state, hfold, hend⟩ := hstart.run clock hsteps hcount
  obtain ⟨T, hT, hT'⟩ := hend.snapshot hcount
  exact ⟨⟨state.ledger, T, bind_intro hR (bind_intro hfold rfl), hT', hT⟩,
    hend.distinct, hend.consecutive⟩

end BudgetLedger

/-! ## Two releases with one event id -/

namespace Sample

open BudgetLedger

/-- Reserve one call, then release it with the given event id. -/
def reserveThenReleaseAs (eventId : RequiredText) : List LedgerStep :=
  [⟨.reserve scope oneCall "op-1" "key-1" none (some 0), .recorded, 0⟩,
    ⟨.release reservationId "op-1" "done" false (some eventId.val), .recorded, 0⟩]

theorem exists_snapshot : ∃ S R, ledger.snapshot sha256 = .ok S ∧ restore sha256 S = .ok R := by
  have hinv : SnapshotInv sha256 ledger := ledger_isInitial.snapshotInv
  obtain ⟨S, R, hS, hR, -⟩ := hinv.roundTrips (by decide) (by decide) (by decide)
  exact ⟨S, R, hS, hR⟩

theorem everyRecordedStep_release :
    EveryRecordedStep sha256 (Replayable sha256) (reserveThenReleaseAs (text "ev-1")) ledger [] := by
  refine ⟨⟨rfl, by simp, fun _ _ _ _ _ => rfl, by simp⟩,
    ⟨rfl, by simp, fun hne => absurd (by decide) hne, fun id hid => ?_⟩, trivial⟩
  cases hid with
  | released is_reserved id_eq =>
    have hnew : text "ev-1" ∉ ((LedgerStep.apply sha256 ⟨.reserve scope oneCall "op-1" "key-1" none
        (some 0), .recorded, 0⟩ ledger).2.map BudgetEvent.eventId) := by decide +kernel
    rw [suppliedOr_some, requiredText_val] at id_eq
    rw [← ok_inj id_eq, nil_append]
    exact hnew

/-- A reservation and its release, recorded and replayed. -/
theorem replays_release : ∃ S, ledger.snapshot sha256 = .ok S ∧
    Replays sha256 0 S (runSteps sha256 (reserveThenReleaseAs (text "ev-1")) ledger).2
      (runSteps sha256 (reserveThenReleaseAs (text "ev-1")) ledger).1 := by
  obtain ⟨S, R, hS, hR⟩ := exists_snapshot
  exact ⟨S, hS, replays_of_replayable_run sha256 0 ledger ledger [] _ S R ledger_isInitial trivial
    rfl hS hR everyRecordedStep_release (by decide +kernel)⟩

/-- Reserve two calls, then release both with one event id. -/
def releaseTwiceAs (eventId : String) : List LedgerStep :=
  [⟨.reserve scope oneCall "op-1" "key-1" none (some 0), .recorded, 0⟩,
    ⟨.reserve scope oneCall "op-2" "key-2" none (some 0), .recorded, 0⟩,
    ⟨.release reservationId "op-1" "done" false (some eventId), .recorded, 0⟩,
    ⟨.release otherReservationId "op-2" "done" false (some eventId), .recorded, 0⟩]

/-- The ledger accepts both releases, and replaying the four events raises. -/
theorem not_replays_shared_eventId : ∃ S R, ledger.snapshot sha256 = .ok S ∧
    restore sha256 S = .ok R ∧
    ¬ Replays sha256 0 S (runSteps sha256 (releaseTwiceAs "ev-1") ledger).2
      (runSteps sha256 (releaseTwiceAs "ev-1") ledger).1 := by
  obtain ⟨S, R, hS, hR⟩ := exists_snapshot
  refine ⟨S, R, hS, hR, fun h => ?_⟩
  have hrejected : (ledger.snapshot sha256 >>= fun S => replayBudgetEvents sha256 0 S
      (runSteps sha256 (releaseTwiceAs "ev-1") ledger).2 none).isOk = false := by
    decide +kernel
  obtain ⟨M, T, hM, -⟩ := h.reproduces
  rw [hS, ok_bind, hM] at hrejected
  simp [Except.isOk, Except.toBool] at hrejected

end Sample

end Budget
