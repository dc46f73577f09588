/-
# The changes of the budget ledger

The assignments of a commit as one update of the ledger, and the relation `Change`
that lists what a call can do to it.  A call of a ledger that satisfies the invariant
either leaves it alone, registers a scope or makes exactly one change.
-/
import AgoraHub.BudgetChecks

namespace Budget

open Fallible PyText BudgetOperationRecord Stateful
open LedgerStep (apply)

namespace BudgetLedger

/-! ## The ledger after a commit -/

/-- The ledger after a denial. -/
def withDenial (L : BudgetLedger) (fingerprint : RequiredText) (d : BudgetDecision)
    (e : BudgetEvent) : BudgetLedger :=
  { L with
    operations := L.operations.set e.operationId
      ⟨e.operationId, e.idempotencyKey, fingerprint, none, none, some d, none⟩
    idempotencyIndex := L.idempotencyIndex.set e.idempotencyKey e.operationId
    revision := e.ledgerRevision
    lastEventId := some e.eventId.val }

/-- The ledger after an admission. -/
def withReservation (L : BudgetLedger) (fingerprint : RequiredText) (r : BudgetReservation)
    (e : BudgetEvent) (reserved : PyDict RequiredText BudgetAmounts) : BudgetLedger :=
  { L with
    reserved := reserved
    reservations := L.reservations.set r.reservationId.val r
    operations := L.operations.set r.operationId
      ⟨r.operationId, r.idempotencyKey, fingerprint, some r.reservationId, some r, none, none⟩
    idempotencyIndex := L.idempotencyIndex.set r.idempotencyKey r.operationId
    revision := e.ledgerRevision
    lastEventId := some e.eventId.val }

/-- The ledger after a settlement that leaves the reservation as `r`. -/
def withSettlement (L : BudgetLedger) (key : String) (r : BudgetReservation)
    (record : BudgetOperationRecord) (s : BudgetSettlement) (revision : ℕ) (eventText : String)
    (reserved committed : PyDict RequiredText BudgetAmounts) : BudgetLedger :=
  { L with
    reserved := reserved
    committed := committed
    reservations := L.reservations.set key r
    operations := L.operations.set record.operationId (settledRecord record r s)
    revision := revision
    lastEventId := some eventText }

/-! ## Commits that do not raise -/

section Commits

variable {L : BudgetLedger} {id : RequiredText} {amount : BudgetAmounts} {add : Bool}
  {totals : PyDict RequiredText BudgetAmounts}

theorem exec_applyReservedDelta (h : L.applyDeltaUp id add amount L.reserved = (.ok (), totals)) :
    (applyReservedDelta id amount add).exec L = (.ok (), { L with reserved := totals }) := by
  simp only [Stateful.exec, applyReservedDelta, h]

theorem exec_applyCommittedDelta (h : L.applyDeltaUp id add amount L.committed = (.ok (), totals)) :
    (applyCommittedDelta id amount add).exec L = (.ok (), { L with committed := totals }) := by
  simp only [Stateful.exec, applyCommittedDelta, h]

theorem exec_setOperation {record : BudgetOperationRecord} (h : record.create = .ok record) :
    (setOperation record).exec L =
      (.ok (), { L with operations := L.operations.set record.operationId record }) := by
  rw [setOperation, h]
  rfl

variable {fingerprint : RequiredText}

theorem create_denied {fingerprint : RequiredText} {d : BudgetDecision} {e : BudgetEvent}
    (h : d.allowed = false) : BudgetOperationRecord.create
        ⟨e.operationId, e.idempotencyKey, fingerprint, none, none, some d, none⟩ =
      .ok ⟨e.operationId, e.idempotencyKey, fingerprint, none, none, some d, none⟩ :=
  create_eq_ok.mpr ⟨by simp [checkReservation],
    rfl, by simp [checkDecision, h], rfl⟩

theorem create_reserved {r : BudgetReservation} : BudgetOperationRecord.create
        ⟨r.operationId, r.idempotencyKey, fingerprint, some r.reservationId, some r, none, none⟩ =
      .ok ⟨r.operationId, r.idempotencyKey, fingerprint, some r.reservationId, some r, none, none⟩ :=
  create_eq_ok.mpr ⟨by simp [checkReservation],
    rfl, by simp [checkDecision], rfl⟩

theorem denyCommit_exec {d : BudgetDecision} {e : BudgetEvent} (h : d.allowed = false) :
    (denyCommit fingerprint d e).exec L = (.ok (.decision d), L.withDenial fingerprint d e) := by
  rw [denyCommit, exec_bind_ok (exec_setOperation (create_denied h))]
  rfl

theorem createCommit_exec {r : BudgetReservation} {e : BudgetEvent}
    (h : L.applyDeltaUp r.scope.scopeId true r.requested L.reserved = (.ok (), totals)) :
    (createCommit fingerprint r e).exec L =
      (.ok (.reservation r), L.withReservation fingerprint r e totals) := by
  rw [createCommit, exec_bind_ok (exec_applyReservedDelta h)]
  rw [exec_bind_ok (show (setReservation _ r).exec _ = (.ok (), _) from rfl)]
  rw [exec_bind_ok (exec_setOperation create_reserved)]
  rfl

end Commits

section SettlingCommits

variable {sha256 : String → HexDigest} {L : BudgetLedger} {reservationId : String}
  {r : BudgetReservation} {record : BudgetOperationRecord} {s : BudgetSettlement}
  {e : BudgetEvent} {text : String} {status : BudgetReservationStatus}
  {freed booked : PyDict RequiredText BudgetAmounts}

/-- The terminal record of a closed reservation passes its constructor. -/
theorem settledRecord_create (hrec : Records sha256 L)
    (h : Closing L reservationId r record s e status) :
    (settledRecord record (r.withStatus status) s).create =
      .ok (settledRecord record (r.withStatus status) s) := by
  obtain ⟨-, record', hrecord', hres, hok, -⟩ := hrec.of_index h.found
  obtain rfl : record = record' := Option.some.inj (h.record_eq.symm.trans hrecord')
  obtain ⟨hid, hop, hkey, hdec⟩ := of_create_reservation hok.create hres
  have hvalid := h.settles.valid
  simp only [validateSettlement, bind_eq_ok, require_eq_ok] at hvalid
  obtain ⟨_, hsid, _, hsop, -⟩ := hvalid
  refine create_eq_ok.mpr ⟨?_, ?_, ?_, rfl⟩
  · exact require_eq_ok.mpr ⟨hid, hop, hkey⟩
  · exact require_eq_ok.mpr ⟨hid.trans (congrArg some hsid.symm), hop.trans hsop.symm⟩
  · simp [checkDecision, settledRecord, hdec]

theorem settleCommit_exec (hrec : Records sha256 L)
    (h : Closing L reservationId r record s e .settled)
    (hfreed : L.applyDeltaUp r.scope.scopeId false r.requested L.reserved = (.ok (), freed))
    (hbooked : L.applyDeltaUp r.scope.scopeId true s.actual L.committed = (.ok (), booked)) :
    (settleCommit reservationId r record s e text).exec L =
      (.ok s, L.withSettlement reservationId (r.withStatus .settled) record s e.ledgerRevision text
        freed booked) := by
  rw [settleCommit, exec_bind_ok (exec_applyReservedDelta hfreed)]
  rw [exec_bind_ok (exec_applyCommittedDelta (L := { L with reserved := freed }) hbooked)]
  rw [exec_bind_ok (show (setReservation reservationId _).exec _ = (.ok (), _) from rfl)]
  rw [exec_bind_ok (exec_setOperation (settledRecord_create hrec h))]
  rfl

theorem releaseCommit_exec (hrec : Records sha256 L)
    (h : Closing L reservationId r record s e status)
    (hfreed : L.applyDeltaUp r.scope.scopeId false r.requested L.reserved = (.ok (), freed)) :
    (releaseCommit reservationId status r record s e text).exec L =
      (.ok s, L.withSettlement reservationId (r.withStatus status) record s e.ledgerRevision text
        freed L.committed) := by
  rw [releaseCommit, exec_bind_ok (exec_applyReservedDelta hfreed)]
  rw [exec_bind_ok (show (setReservation reservationId _).exec _ = (.ok (), _) from rfl)]
  rw [exec_bind_ok (exec_setOperation (settledRecord_create hrec h))]
  rfl

theorem markIndeterminateCommit_exec (hrec : Records sha256 L)
    (h : Closing L reservationId r record s e .indeterminate) :
    (markIndeterminateCommit reservationId r record s e text).exec L =
      (.ok s, L.withSettlement reservationId (r.withStatus .indeterminate) record s
        e.ledgerRevision text L.reserved L.committed) := by
  rw [markIndeterminateCommit]
  rw [exec_bind_ok (show (setReservation reservationId _).exec _ = (.ok (), _) from rfl)]
  rw [exec_bind_ok (exec_setOperation (settledRecord_create hrec h))]
  rfl

end SettlingCommits

/-! ## Changes -/

/-- What a call can do to a ledger besides registering a scope, with the event it
appends. -/
inductive Change (sha256 : String → HexDigest) (L : BudgetLedger) :
    LedgerCall → BudgetEvent → BudgetLedger → Prop where
  | denied {clock : ℤ} {scope : BudgetScopeRef} {request : BudgetAmounts} {op key : String}
      {policy : Option BudgetPolicy} {createdAt : Option ℤ} {fingerprint : RequiredText}
      {d : BudgetDecision} {e : BudgetEvent}
      (check : L.reserveCheck sha256 clock scope request op key policy createdAt =
        .ok (.deny fingerprint d e)) :
      Change sha256 L (.reserve scope request op key policy createdAt) e
        (L.withDenial fingerprint d e)
  | created {clock : ℤ} {scope : BudgetScopeRef} {request : BudgetAmounts} {op key : String}
      {policy : Option BudgetPolicy} {createdAt : Option ℤ} {fingerprint : RequiredText}
      {r : BudgetReservation} {e : BudgetEvent} {reserved : PyDict RequiredText BudgetAmounts}
      (check : L.reserveCheck sha256 clock scope request op key policy createdAt =
        .ok (.create fingerprint r e))
      (fresh : L.reservations.get? r.reservationId.val = none)
      (booked : L.applyDeltaUp r.scope.scopeId true r.requested L.reserved = (.ok (), reserved)) :
      Change sha256 L (.reserve scope request op key policy createdAt) e
        (L.withReservation fingerprint r e reserved)
  | settled {reservationId : String} {r : BudgetReservation} {record : BudgetOperationRecord}
      {s : BudgetSettlement} {e : BudgetEvent} {freed booked : PyDict RequiredText BudgetAmounts}
      (key : strip reservationId = reservationId)
      (check : L.settleCheck reservationId s = .ok (.commit r record s e s.settledEventId.val))
      (free : L.applyDeltaUp r.scope.scopeId false r.requested L.reserved = (.ok (), freed))
      (book : L.applyDeltaUp r.scope.scopeId true s.actual L.committed = (.ok (), booked)) :
      Change sha256 L (.settle reservationId s) e
        (L.withSettlement reservationId (r.withStatus .settled) record s e.ledgerRevision
          s.settledEventId.val freed booked)
  | released {reservationId op reason : String} {dispatched : Bool} {eventId : Option String}
      {r : BudgetReservation} {record : BudgetOperationRecord} {s : BudgetSettlement}
      {e : BudgetEvent} {text : String} {freed : PyDict RequiredText BudgetAmounts}
      (key : strip reservationId = reservationId)
      (check : L.releaseCheck sha256 reservationId op reason dispatched eventId .released
        .released = .ok (.commit r record s e text))
      (free : L.applyDeltaUp r.scope.scopeId false r.requested L.reserved = (.ok (), freed)) :
      Change sha256 L (.release reservationId op reason dispatched eventId) e
        (L.withSettlement reservationId (r.withStatus .released) record s e.ledgerRevision text
          freed L.committed)
  | expired {clock : ℤ} {reservationId : String} {now : Option ℤ} {r₀ r : BudgetReservation}
      {record : BudgetOperationRecord} {s : BudgetSettlement} {e : BudgetEvent} {text : String}
      {freed : PyDict RequiredText BudgetAmounts}
      (key : strip reservationId = reservationId)
      (due : L.expireCheck clock reservationId now = .ok r₀)
      (check : L.releaseCheck sha256 reservationId r₀.operationId.val
        BudgetReasonCode.reservationExpired.value false
        (some (eventIdOf sha256 "expired" reservationId (L.revision + 1)).val) .expired
        .expired = .ok (.commit r record s e text))
      (free : L.applyDeltaUp r.scope.scopeId false r.requested L.reserved = (.ok (), freed)) :
      Change sha256 L (.expire reservationId now) e
        (L.withSettlement reservationId (r.withStatus .expired) record s e.ledgerRevision text
          freed L.committed)
  | indeterminate {call : LedgerCall} {reservationId op reason : String}
      {eventId : Option String} {r : BudgetReservation} {record : BudgetOperationRecord}
      {s : BudgetSettlement} {e : BudgetEvent} {text : String}
      (origin : call = .markIndeterminate reservationId op reason eventId ∨
        ∃ asked, call = .settle reservationId asked ∧ eventId = some asked.settledEventId.val)
      (key : strip reservationId = reservationId)
      (check : L.markIndeterminateCheck sha256 reservationId op reason eventId =
        .ok (.commit r record s e text)) :
      Change sha256 L call e
        (L.withSettlement reservationId (r.withStatus .indeterminate) record s e.ledgerRevision
          text L.reserved L.committed)

/-- A call leaves the ledger alone or makes one change. -/
def Moves {α : Type} (sha256 : String → HexDigest) (sink : SinkReply) (call : LedgerCall)
    (L : BudgetLedger) (out : CallResult α) : Prop :=
  (out.ledger = L ∧ out.recorded = []) ∨
    ∃ e, Change sha256 L call e out.ledger ∧ appendEvent sink e = .ok out.recorded

section Cases

variable {sha256 : String → HexDigest} {L : BudgetLedger} {sink : SinkReply} {call : LedgerCall}

theorem moves_raised {α : Type} (e : BudgetError) :
    Moves sha256 sink call L (CallResult.raised e L : CallResult α) := .inl ⟨rfl, rfl⟩

theorem moves_returned {α : Type} (a : α) :
    Moves sha256 sink call L (CallResult.returned a L) := .inl ⟨rfl, rfl⟩

/-- An appended event and a commit that does not raise are one change. -/
theorem moves_appendThen {α : Type} {e : BudgetEvent} {commit : Commit α} {a : α}
    {L' : BudgetLedger} (hexec : commit.exec L = (.ok a, L')) (hchange : Change sha256 L call e L') :
    Moves sha256 sink call L (appendThen sink e commit L) := by
  unfold appendThen
  cases happ : appendEvent sink e with
  | error err => exact moves_raised err
  | ok recorded =>
    refine .inr ⟨e, ?_, ?_⟩
    · simpa only [hexec] using hchange
    · simpa only [hexec] using happ

end Cases

/-! ## The condition on a step -/

/-- A reservation id that is not its own trimmed text names no open reservation. -/
def NamedCleanly (L : BudgetLedger) (reservationId : String) : Prop :=
  strip reservationId ≠ reservationId →
    ∀ r, L.reservations.get? (strip reservationId) = some r → r.status.isOpen = false

/-- The id derived for a new operation is not in the index yet. -/
def DerivesFreshId (sha256 : String → HexDigest) (L : BudgetLedger) (op key : String) : Prop :=
  ∀ operationId idempotencyKey, requiredText op "operation_id" = .ok operationId →
    requiredText key "idempotency_key" = .ok idempotencyKey →
    L.operations.get? operationId = none →
    L.reservations.get? (reservationIdOf sha256 operationId idempotencyKey).val = none

/-- The calls whose writes go where their reads came from. -/
def Clean (sha256 : String → HexDigest) (L : BudgetLedger) : LedgerCall → Prop
  | .registerScope _ _ => True
  | .reserve _ _ op key _ _ => DerivesFreshId sha256 L op key
  | .settle reservationId _ => L.NamedCleanly reservationId
  | .release reservationId _ _ _ _ => L.NamedCleanly reservationId
  | .expire reservationId _ => L.NamedCleanly reservationId
  | .markIndeterminate reservationId _ _ _ => L.NamedCleanly reservationId

/-! ## What each call does -/

section Calls

variable {sha256 : String → HexDigest} {L : BudgetLedger} {sink : SinkReply}

/-- A cleanly named reservation that is open is written where it was read. -/
theorem Closing.key_eq {reservationId : String} {r : BudgetReservation}
    {record : BudgetOperationRecord} {s : BudgetSettlement} {e : BudgetEvent}
    {status : BudgetReservationStatus} (h : Closing L reservationId r record s e status)
    (hclean : L.NamedCleanly reservationId) : strip reservationId = reservationId := by
  by_contra hne
  have hclosed := hclean hne r h.found
  rw [h.is_open] at hclosed
  exact absurd hclosed (by decide)

section

variable (hinv : LedgerInv sha256 L)

include hinv

theorem LedgerInv.exists_freed {key : String} {r : BudgetReservation}
    (hr : L.reservations.get? key = some r) (hopen : r.status.isOpen = true) :
    ∃ freed, L.applyDeltaUp r.scope.scopeId false r.requested L.reserved = (.ok (), freed) ∧
      Added L r.scope.scopeId r.requested freed L.reserved :=
  applyDeltaUp_subtract _ hinv.tree (hinv.records.scope_registered hr) hinv.tree.reserved
    (hinv.requested_le hr hopen)

/-- Amounts that fit can be booked as reserved. -/
theorem LedgerInv.exists_reserved {id : RequiredText}
    {amount : BudgetAmounts} (hid : id ∈ L.scopes.keys) (hfits : ∀ k ∈ (L.ancestors id).1,
      L.FitsAt (amountAt L.committed k + amountAt L.reserved k + amount.get) k) :
    ∃ reserved, L.applyDeltaUp id true amount L.reserved = (.ok (), reserved) ∧
      Added L id amount L.reserved reserved := by
  refine applyDeltaUp_add _ hinv.tree hid hinv.tree.reserved fun k hk d => ?_
  have := (hfits k hk).1 d
  simp only [Pi.add_apply] at this
  omega

/-- The actual amounts of a settlement that fits can be booked as committed. -/
theorem LedgerInv.exists_booked {key : String} {r : BudgetReservation}
    {actual : BudgetAmounts} (hr : L.reservations.get? key = some r)
    (hopen : r.status.isOpen = true) (hfits : L.settlementFitsReservation r actual = .ok true) :
    ∃ booked, L.applyDeltaUp r.scope.scopeId true actual L.committed = (.ok (), booked) ∧
      Added L r.scope.scopeId actual L.committed booked := by
  refine applyDeltaUp_add _ hinv.tree (hinv.records.scope_registered hr) hinv.tree.committed ?_
  intro k hk d
  obtain ⟨rest, hrest, hfit⟩ := (of_settlementFitsReservation hfits).2 k hk
  have hmax := hfit.1 d
  have hheld : r.requested.get d ≤ amountAt L.reserved k d := hinv.requested_le hr hopen k hk d
  have hsum := congrFun hrest d
  simp only [Pi.add_apply] at hmax hsum
  omega

/-- What `reserve` does. -/
theorem reserve_moves {clock : ℤ} {scope : BudgetScopeRef}
    {request : BudgetAmounts} {op key : String} {policy : Option BudgetPolicy}
    {createdAt : Option ℤ} (hclean : DerivesFreshId sha256 L op key) :
    Moves sha256 sink (.reserve scope request op key policy createdAt) L
      (L.reserve sha256 sink clock scope request op key policy createdAt) := by
  unfold reserve
  split
  · exact moves_raised _
  · exact moves_returned _
  · rename_i hcheck
    exact moves_appendThen (denyCommit_exec (of_reserveCheck_deny hcheck).allowed) (.denied hcheck)
  · rename_i fingerprint r e hcheck
    have hadm := of_reserveCheck_create hcheck
    obtain ⟨reserved, hbooked, -⟩ := hinv.exists_reserved (mem_scopes_keys hadm.scope) hadm.fits
    obtain ⟨_, _, _, _, _, -, hop, hkey, hexisting, -, -, -, hr, -, -⟩ :=
      reserveCheck_eq_create.mp hcheck
    have hfresh : L.reservations.get? r.reservationId.val = none := by
      rw [hr]
      exact hclean _ _ hop hkey (of_existingOperation hexisting).operation
    exact moves_appendThen (createCommit_exec hbooked) (.created hcheck hfresh hbooked)

variable {reservationId : String}

/-- What `mark_indeterminate` does, whichever call runs it. -/
theorem markIndeterminate_moves {call : LedgerCall} {op reason : String} {eventId : Option String}
    (horigin : call = .markIndeterminate reservationId op reason eventId ∨
      ∃ asked, call = .settle reservationId asked ∧ eventId = some asked.settledEventId.val)
    (hclean : L.NamedCleanly reservationId) : Moves sha256 sink call L
      (L.markIndeterminate sha256 sink reservationId op reason eventId) := by
  unfold markIndeterminate
  split
  · exact moves_raised _
  · exact moves_returned _
  · exact moves_raised _
  · rename_i hcheck
    have hclosing := (of_markIndeterminateCheck_commit hinv.records hcheck).1
    exact moves_appendThen (markIndeterminateCommit_exec hinv.records hclosing)
      (.indeterminate horigin (hclosing.key_eq hclean) hcheck)

/-- What `settle` does. -/
theorem settle_moves {s : BudgetSettlement} (hclean : L.NamedCleanly reservationId) :
    Moves sha256 sink (.settle reservationId s) L (L.settle sha256 sink reservationId s) := by
  unfold settle
  split
  · exact moves_raised _
  · exact moves_returned _
  · exact markIndeterminate_moves hinv (.inr ⟨s, rfl, rfl⟩) hclean
  · rename_i r record s' e text hcheck
    obtain ⟨hclosing, rfl, rfl, hfits, -⟩ := of_settleCheck_commit hinv.records hcheck
    obtain ⟨freed, hfreed, -⟩ := hinv.exists_freed hclosing.found hclosing.is_open
    obtain ⟨booked, hbooked, -⟩ := hinv.exists_booked hclosing.found hclosing.is_open hfits
    exact moves_appendThen (settleCommit_exec hinv.records hclosing hfreed hbooked)
      (.settled (hclosing.key_eq hclean) hcheck hfreed hbooked)

/-- What `release` does. -/
theorem release_moves {op reason : String} {dispatched : Bool} {eventId : Option String}
    (hclean : L.NamedCleanly reservationId) :
    Moves sha256 sink (.release reservationId op reason dispatched eventId) L
      (L.release sha256 sink reservationId op reason dispatched eventId) := by
  unfold release releaseLocked
  split
  · exact moves_raised _
  · exact moves_returned _
  · exact moves_raised _
  · rename_i hcheck
    have hclosing := (of_releaseCheck_commit hinv.records (.inl rfl) hcheck).1
    obtain ⟨freed, hfreed, -⟩ := hinv.exists_freed hclosing.found hclosing.is_open
    exact moves_appendThen (releaseCommit_exec hinv.records hclosing hfreed)
      (.released (hclosing.key_eq hclean) hcheck hfreed)

/-- What `expire` does. -/
theorem expire_moves {clock : ℤ} {now : Option ℤ} (hclean : L.NamedCleanly reservationId) :
    Moves sha256 sink (.expire reservationId now) L
      (L.expire sha256 sink clock reservationId now) := by
  unfold expire
  split
  · exact moves_raised _
  · rename_i r₀ hdue
    unfold releaseLocked
    split
    · exact moves_raised _
    · exact moves_returned _
    · exact moves_raised _
    · rename_i hcheck
      have hclosing := (of_releaseCheck_commit hinv.records (.inr ⟨rfl, rfl⟩) hcheck).1
      obtain ⟨freed, hfreed, -⟩ := hinv.exists_freed hclosing.found hclosing.is_open
      exact moves_appendThen (releaseCommit_exec hinv.records hclosing hfreed)
        (.expired (hclosing.key_eq hclean) hdue hcheck hfreed)

end

end Calls

end BudgetLedger

open BudgetLedger

/-- What a step does to a ledger that satisfies the invariant. -/
theorem LedgerStep.apply_cases {sha256 : String → HexDigest} {L : BudgetLedger}
    (hinv : LedgerInv sha256 L) {step : LedgerStep} (hclean : Clean sha256 L step.call) :
    step.apply sha256 L = (L, []) ∨ (∃ scope policy, step.call = .registerScope scope policy ∧
        L.registerCheck scope policy = .ok false ∧
        step.apply sha256 L = (L.addScope scope policy, [])) ∨
      ∃ e L' recorded, Change sha256 L step.call e L' ∧
        appendEvent step.sink e = .ok recorded ∧ step.apply sha256 L = (L', recorded) := by
  obtain ⟨call, sink, clock⟩ := step
  have hmoves : ∀ {α : Type} {out : CallResult α}, Moves sha256 sink call L out →
      apply sha256 ⟨call, sink, clock⟩ L = (out.ledger, out.recorded) →
      apply sha256 ⟨call, sink, clock⟩ L = (L, []) ∨
        (∃ scope policy, call = .registerScope scope policy ∧
          L.registerCheck scope policy = .ok false ∧
          apply sha256 ⟨call, sink, clock⟩ L = (L.addScope scope policy, [])) ∨
        ∃ e L' recorded, Change sha256 L call e L' ∧ appendEvent sink e = .ok recorded ∧
          apply sha256 ⟨call, sink, clock⟩ L = (L', recorded) := by
    rintro α out (⟨hledger, hrecorded⟩ | ⟨e, hchange, happ⟩) happly
    · left; rw [happly, hledger, hrecorded]
    · exact .inr (.inr ⟨e, out.ledger, out.recorded, hchange, happ, happly⟩)
  cases call with
  | registerScope scope policy =>
    simp only [apply, registerScope]
    split
    · exact .inl rfl
    · exact .inl rfl
    · rename_i hcheck
      exact .inr (.inl ⟨scope, policy, rfl, hcheck, rfl⟩)
  | reserve scope request op key policy createdAt => exact hmoves (reserve_moves hinv hclean) rfl
  | settle reservationId s => exact hmoves (settle_moves hinv hclean) rfl
  | release reservationId op reason dispatched eventId =>
    exact hmoves (release_moves hinv hclean) rfl
  | expire reservationId now => exact hmoves (expire_moves hinv hclean) rfl
  | markIndeterminate reservationId op reason eventId =>
    exact hmoves (markIndeterminate_moves hinv (.inl rfl) hclean) rfl

end Budget
