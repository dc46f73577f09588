/-
# Snapshot and restore along runs

A run whose steps leave a readable history reaches only ledgers whose snapshot can be
restored, and restoring it gives back every entry of the ledger.
-/
import AgoraHub.BudgetRestore

namespace Budget

open Fallible PyText

namespace BudgetLedger

variable {sha256 : String → HexDigest} {L : BudgetLedger}

/-! ## The condition on a step -/

/-- The trimmed id names a reservation that is still reserved. -/
def Reserved (L : BudgetLedger) (reservationId : String) : Prop :=
  ∃ r, L.reservations.get? (strip reservationId) = some r ∧ r.status = .reserved

/-- A supplied event id is its own trimmed text. -/
def NormalEventId (eventId : Option String) : Prop := ∀ text ∈ eventId, strip text = text

/-- The calls whose outcome a snapshot can carry: clean, with event ids without
surrounding white space, and no release under the reason code of an expiry. -/
def Readable (sha256 : String → HexDigest) (L : BudgetLedger) (call : LedgerCall) : Prop :=
  Clean sha256 L call ∧
    match call with
    | .release reservationId _ reason _ eventId => L.Reserved reservationId →
        strip reason ≠ BudgetReasonCode.reservationExpired.value ∧ NormalEventId eventId
    | .markIndeterminate reservationId _ _ eventId => L.Reserved reservationId →
        NormalEventId eventId
    | _ => True

/-! ## What readable steps preserve -/

/-- The invariant of readable runs. -/
structure SnapshotInv (sha256 : String → HexDigest) (L : BudgetLedger) : Prop where
  inv : LedgerInv sha256 L
  reasons : L.ReleaseReasons
  last : ∀ text, L.lastEventId = some text → ∃ t : RequiredText, t.val = text

theorem suppliedOr_normal {eventId : Option String} (h : NormalEventId eventId)
    (derived : RequiredText) : strip (suppliedOr eventId derived) = suppliedOr eventId derived := by
  unfold suppliedOr
  cases eventId with
  | none => exact derived.trimmed
  | some text =>
    simp only
    split
    · exact derived.trimmed
    · exact h text rfl

/-- Setting one record keeps the release reasons when that record respects them. -/
theorem ReleaseReasons.set (h : L.ReleaseReasons) {M : BudgetLedger} {op : RequiredText}
    {record : BudgetOperationRecord} (hops : M.operations = L.operations.set op record)
    (hrecord : ∀ r s, record.reservation = some r → record.settlement = some s →
      r.status = .released → s.reasonCode ≠ some BudgetReasonCode.reservationExpired.text) :
    M.ReleaseReasons := by
  intro op' record' r s hget hr hs hstatus
  rw [hops, PyDict.get?_set] at hget
  split at hget
  · cases hget
    exact hrecord r s hr hs hstatus
  · exact h op' record' r s hget hr hs hstatus

/-- A readable change keeps the invariant of readable runs. -/
theorem SnapshotInv.change (h : SnapshotInv sha256 L) {call : LedgerCall} {e : BudgetEvent}
    {L' : BudgetLedger} (hread : Readable sha256 L call) (hc : Change sha256 L call e L') :
    SnapshotInv sha256 L' := by
  refine ⟨h.inv.change hc, ?_, ?_⟩
  · cases hc with
    | denied check | created check fresh booked => exact h.reasons.set rfl (by simp)
    | settled key check free book | expired key due check free
    | indeterminate origin key check =>
      refine h.reasons.set rfl fun r s hr _ hstatus => ?_
      cases hr
      simp [BudgetReservation.withStatus] at hstatus
    | released key check free =>
      obtain ⟨hclosing, -, hreserved, -, -, -, code, hcode, hreason⟩ :=
        of_releaseCheck_commit h.inv.records (.inl rfl) check
      have hne := (hread.2 ⟨_, hclosing.found, hreserved⟩).1
      refine h.reasons.set rfl fun r s _ hs _ hexpired => hne ?_
      cases hs
      rw [← val_of_requiredText hcode, Option.some.inj (hreason.symm.trans hexpired)]
      rfl
  · intro text htext
    cases hc with
    | denied check | created check fresh booked | settled key check free book => exact ⟨_, Option.some.inj htext⟩
    | released key check free =>
      obtain ⟨hclosing, -, hreserved, -, hsupplied, hstrip, -⟩ :=
        of_releaseCheck_commit h.inv.records (.inl rfl) check
      have hnormal := (hread.2 ⟨_, hclosing.found, hreserved⟩).2
      cases htext
      rw [hsupplied, suppliedOr_normal hnormal] at hstrip
      exact ⟨_, hstrip.symm.trans hsupplied.symm⟩
    | expired key due check free =>
      obtain ⟨-, -, -, -, hsupplied, hstrip, -⟩ :=
        of_releaseCheck_commit h.inv.records (.inr ⟨rfl, rfl⟩) check
      cases htext
      rw [hsupplied, suppliedOr_normal (by
        intro t ht
        cases ht
        exact RequiredText.trimmed _)] at hstrip
      exact ⟨_, hstrip.symm.trans hsupplied.symm⟩
    | indeterminate origin key check =>
      obtain ⟨hclosing, -, hreserved, -, hsupplied, hstrip⟩ :=
        of_markIndeterminateCheck_commit h.inv.records check
      cases htext
      rw [hsupplied, suppliedOr_normal (by
        rcases origin with rfl | ⟨asked, -, rfl⟩
        · exact hread.2 ⟨_, hclosing.found, hreserved⟩
        · intro t ht
          cases ht
          exact asked.settledEventId.trimmed)] at hstrip
      exact ⟨_, hstrip.symm.trans hsupplied.symm⟩

theorem SnapshotInv.step (h : SnapshotInv sha256 L) {step : LedgerStep}
    (hread : Readable sha256 L step.call) : SnapshotInv sha256 (step.apply sha256 L).1 := by
  rcases LedgerStep.apply_cases h.inv hread.1 with
    happly | ⟨scope, policy, -, hcheck, happly⟩ | ⟨e, L', recorded, hchange, -, happly⟩
  · rw [happly]; exact h
  · rw [happly]; exact ⟨h.inv.addScope (of_registerCheck hcheck), h.reasons, h.last⟩
  · rw [happly]; exact h.change hread hchange

theorem SnapshotInv.run {steps : List LedgerStep} :
    ∀ {L : BudgetLedger}, SnapshotInv sha256 L → EveryStep sha256 (Readable sha256) steps L →
      SnapshotInv sha256 (runSteps sha256 steps L).1 := by
  induction steps with
  | nil => intro L h _; exact h
  | cons step steps ih => intro L h hread; exact ih (h.step hread.1) hread.2

theorem IsInitial.snapshotInv (h : L.IsInitial) : SnapshotInv sha256 L := by
  refine ⟨h.inv, ?_, ?_⟩
  all_goals
    obtain ⟨scope, policy, committed, h | h⟩ := h
    · simp only [create, bind_eq_ok] at h
      obtain ⟨_, -, _, -, hL⟩ := h
      cases hL
      simp [initial, ReleaseReasons]
    · simp only [restoreLegacy, bind_eq_ok] at h
      obtain ⟨_, -, _, -, hL⟩ := h
      cases hL
      simp [initial, ReleaseReasons]

/-! ## The round trip -/

/-- The ledger has a snapshot, and restoring it returns a ledger with equal scopes,
policies, totals, reservations, records, idempotency index, revision and last event. -/
def RoundTrips (sha256 : String → HexDigest) (L : BudgetLedger) : Prop :=
  ∃ S R, L.snapshot sha256 = .ok S ∧ restore sha256 S = .ok R ∧ Same L R ∧
    R.lastEventId = L.lastEventId

theorem SnapshotInv.roundTrips (h : SnapshotInv sha256 L)
    (hscopes : L.scopes.length ≤ maxSnapshotRecords)
    (hreservations : L.reservations.length ≤ maxSnapshotRecords)
    (hoperations : L.operations.length ≤ maxSnapshotRecords) : RoundTrips sha256 L := by
  obtain ⟨S, hS⟩ := snapshot_ok h.inv hscopes hreservations hoperations fun text htext => by
    obtain ⟨t, rfl⟩ := h.last text htext
    exact ⟨t, t.trimmed.symm⟩
  obtain ⟨R, hsame, hinvR, hlast, heq⟩ := restore_eq h.inv (isSnapshot_of_snapshot h.inv hS)
  have hreasons : R.ReleaseReasons := by
    intro op record r s hget
    exact h.reasons op record r s (by rw [← hsame.operations]; exact hget)
  refine ⟨S, R, hS, ?_, hsame, ?_⟩
  · rw [heq, validateRestoredState_ok hinvR hreasons]
    rfl
  · rw [hlast]
    cases htext : L.lastEventId with
    | none => rfl
    | some text =>
      obtain ⟨t, rfl⟩ := h.last text htext
      exact congrArg some t.trimmed

/-- Every ledger that a readable run reaches from a new one restores from its snapshot,
as long as it fits in a snapshot. -/
theorem roundTrips_of_readable_run (sha256 : String → HexDigest) (L : BudgetLedger)
    (steps : List LedgerStep) (hinit : L.IsInitial)
    (hread : EveryStep sha256 (Readable sha256) steps L)
    (hscopes : (runSteps sha256 steps L).1.scopes.length ≤ maxSnapshotRecords)
    (hreservations : (runSteps sha256 steps L).1.reservations.length ≤ maxSnapshotRecords)
    (hoperations : (runSteps sha256 steps L).1.operations.length ≤ maxSnapshotRecords) :
    RoundTrips sha256 (runSteps sha256 steps L).1 :=
  (hinit.snapshotInv.run hread).roundTrips hscopes hreservations hoperations

end BudgetLedger

/-! ## A release under the reason of an expiry -/

namespace Sample

open BudgetLedger

/-- Reserve one call, then release the reservation for the given reason. -/
def reserveThenReleaseFor (reason : String) : List LedgerStep :=
  [⟨.reserve scope oneCall "op-1" "key-1" none (some 0), .absent, 0⟩,
    ⟨.release reservationId "op-1" reason false none, .absent, 0⟩]

theorem everyStep_readable :
    EveryStep sha256 (Readable sha256) (reserveThenReleaseFor "done") ledger := by
  refine ⟨⟨fun _ _ _ _ _ => rfl, trivial⟩, ⟨fun hne => absurd ?_ hne, fun _ => ⟨?_, ?_⟩⟩, trivial⟩
  · decide
  · decide
  · simp [NormalEventId]

/-- The ledger after an ordinary release is restored from its snapshot. -/
theorem roundTrips_release :
    RoundTrips sha256 (runSteps sha256 (reserveThenReleaseFor "done") ledger).1 := by
  have hcounts :
      (runSteps sha256 (reserveThenReleaseFor "done") ledger).1.scopes.length ≤ 10000 ∧
      (runSteps sha256 (reserveThenReleaseFor "done") ledger).1.reservations.length ≤ 10000 ∧
      (runSteps sha256 (reserveThenReleaseFor "done") ledger).1.operations.length ≤ 10000 := by
    decide +kernel
  exact roundTrips_of_readable_run sha256 ledger _ ledger_isInitial everyStep_readable
    hcounts.1 hcounts.2.1 hcounts.2.2

/-- The ledger after a release whose reason is `reservation_expired`. -/
def releasedAsExpired : BudgetLedger :=
  (runSteps sha256 (reserveThenReleaseFor "reservation_expired") ledger).1

/-- A snapshot taken after a release for the reason `reservation_expired` exists and is
rejected by `restore`. -/
theorem not_roundTrips_releasedAsExpired : ¬ RoundTrips sha256 releasedAsExpired := by
  have hrejected : (releasedAsExpired.snapshot sha256 >>= restore sha256).isOk = false := by
    decide +kernel
  rintro ⟨S, R, hS, hR, -⟩
  rw [hS, ok_bind, hR] at hrejected
  simp [Except.isOk, Except.toBool] at hrejected

end Sample

end Budget
