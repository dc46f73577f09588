/-
# What the checks of an operation guarantee

One inversion theorem for the checks of each operation: when they end in a commit,
this is the reservation, the settlement and the event they have built, and this is
what the amounts satisfy on every ancestor of the scope.
-/
import AgoraHub.BudgetTree

namespace Budget

open Fallible PyText List BudgetAmounts BudgetReasonCode

/-! ## Events as their constructor returns them -/

variable {e' : BudgetEvent}

/-- An event that the constructor accepts differs only in the order of its codes. -/
theorem BudgetEvent.of_create {e : BudgetEvent} (h : e.create = .ok e') :
    e.ledgerRevision ≤ maxBudgetInteger ∧ e'.validateProjection = .ok () ∧
      ∃ items, e.reasonCodes.mapM (fun item => requiredText item "reason_code") = .ok items ∧
        e' = { e with reasonCodes := sortedSet (items.map RequiredText.val) } := by
  simp only [create, bind_eq_ok] at h
  obtain ⟨n, hn, _, -, items, hitems, _, -, _, hvalid, he⟩ := h
  cases he
  refine ⟨?_, hvalid, items, hitems, rfl⟩
  unfold boundedInt at hn
  split at hn
  · rename_i hle
    exact_mod_cast hle.2
  · simp at hn

/-- Checked codes are already in order when there is at most one. -/
theorem BudgetEvent.create_settlementCodes {e : BudgetEvent} (s : BudgetSettlement)
    (h : e.create = .ok e') (hcodes : e.reasonCodes = settlementCodes s) : e' = e := by
  obtain ⟨-, -, items, hitems, rfl⟩ := of_create h
  rw [hcodes, settlementCodes] at hitems
  have hlist : sortedSet (items.map RequiredText.val) = e.reasonCodes := by
    rw [hcodes, settlementCodes]
    cases hcode : s.reasonCode with
    | none =>
      rw [hcode] at hitems
      obtain rfl : [] = items := by simpa [pure, Except.pure] using hitems
      rfl
    | some code =>
      rw [hcode] at hitems
      simp only [mapM_cons, mapM_nil, requiredText_val, ok_bind, pure, Except.pure] at hitems
      cases hitems
      rfl
  rw [hlist]

theorem BudgetEvent.create_of_nil {e : BudgetEvent} (h : e.create = .ok e')
    (hcodes : e.reasonCodes = []) : e' = e := by
  obtain ⟨-, -, items, hitems, rfl⟩ := of_create h
  rw [hcodes] at hitems
  obtain rfl : [] = items := by simpa [pure, Except.pure] using hitems
  rw [map_nil, sortedSet_nil, ← hcodes]

variable {eventType : BudgetEventType} {d : BudgetDecision} {dispatched : Bool}

namespace BudgetLedger

variable {id : RequiredText}

/-- The event of a settlement is returned as it is. -/
theorem settlementEvent_create {r : BudgetReservation} {amounts : BudgetAmounts}
    {outcome : String} {s : BudgetSettlement} {revision : ℕ} {e : BudgetEvent}
    (h : (settlementEvent eventType r id amounts outcome s revision).create = .ok e) :
    e = settlementEvent eventType r id amounts outcome s revision :=
  BudgetEvent.create_settlementCodes s h rfl

variable {sha256 : String → HexDigest} {L : BudgetLedger}

/-! ## Reads -/

theorem item_eq_ok {κ ν : Type} [DecidableEq κ] {d : PyDict κ ν} {k : κ} {text : String} {v : ν} :
    item d k text = .ok v ↔ d.get? k = some v := orRaise_eq_ok

theorem of_usedAt {used : BudgetAmounts} (h : L.usedAt id = .ok used) :
    used.get = amountAt L.committed id + amountAt L.reserved id := by
  simp only [usedAt, bind_eq_ok, item_eq_ok] at h
  obtain ⟨committed, hc, reserved, hr, hadd⟩ := h
  rw [amountAt_of_get? hc, amountAt_of_get? hr, add_eq_ok.mp hadd]

/-- The violations that `_projected_for_request` finds at one ancestor. -/
def violationsAt (L : BudgetLedger) (request : BudgetAmounts) (ancestor : RequiredText) :
    Except BudgetError (List String) := do
  let used ← L.usedAt ancestor
  let projected ← used.add request
  let policy ← item L.policies ancestor ancestor.val
  .ok (policy.limits.violations projected)

/-- A request fits at a scope: within the bounds and the limits. -/
def FitsAt (L : BudgetLedger) (amount : BudgetDimension → ℕ) (k : RequiredText) : Prop :=
  (∀ d, amount d ≤ maxAmount d) ∧
    ∃ policy, L.policies.get? k = some policy ∧ policy.limits.Admits amount

/-- A projection without violations fits on every ancestor. -/
theorem of_projectedForRequest {request : BudgetAmounts} {usage : BudgetUsage}
    (h : L.projectedForRequest id request = .ok ([], usage)) : ∀ k ∈ (L.ancestors id).1,
      L.FitsAt (amountAt L.committed k + amountAt L.reserved k + request.get) k := by
  simp only [projectedForRequest, forAncestors, bind_eq_ok] at h
  obtain ⟨violations, ⟨out, hfold, _, -, hout⟩, _, -, _, -, _, -, _, -, _, -, _, -, hend⟩ := h
  obtain rfl := ok_inj hout
  have hnil : out = [] :=
    sortedSet_eq_nil_iff.mp (congrArg Prod.fst (ok_inj hend))
  subst hnil
  have hbody : ∀ (acc : List String) (a : RequiredText),
      (do
        let used ← L.usedAt a
        let projected ← used.add request
        let policy ← item L.policies a a.val
        Except.ok (acc ++ policy.limits.violations projected)) =
      (L.violationsAt request a >>= fun b => .ok (acc ++ b)) := by
    intro acc a
    simp only [violationsAt, bind_assoc, ok_bind]
  simp only [hbody] at hfold
  intro k hk
  obtain ⟨b, hb, hsub⟩ := (of_foldlM_append hfold).2 k hk
  obtain rfl : b = [] := eq_nil_of_subset_nil hsub
  simp only [violationsAt, bind_eq_ok, item_eq_ok] at hb
  obtain ⟨used, hused, projected, hproj, policy, hpolicy, hviol⟩ := hb
  have hget : projected.get = amountAt L.committed k + amountAt L.reserved k + request.get := by
    rw [add_eq_ok.mp hproj, of_usedAt hused]
  rw [← hget]
  exact ⟨projected.le_max, policy, hpolicy,
    BudgetLimits.violations_eq_nil_iff.mp (ok_inj hviol)⟩

/-- A settlement that fits leaves every ancestor within its limits. -/
theorem of_settlementFitsReservation {r : BudgetReservation} {actual : BudgetAmounts}
    (h : L.settlementFitsReservation r actual = .ok true) : (L.ancestors r.scope.scopeId).2 = true ∧
      ∀ k ∈ (L.ancestors r.scope.scopeId).1, ∃ rest : BudgetDimension → ℕ,
      rest + r.requested.get = amountAt L.committed k + amountAt L.reserved k ∧
        L.FitsAt (rest + actual.get) k := by
  unfold settlementFitsReservation at h
  split at h
  · simp at h
  · simp only [bind_eq_ok] at h
    obtain ⟨limits, -, h⟩ := h
    split at h
    · simp at h
    · simp only [forAncestors, bind_eq_ok] at h
      obtain ⟨violated, ⟨out, hfold, _, hdone, hout⟩, hend⟩ := h
      obtain rfl := ok_inj hout
      obtain rfl : out = false := by simpa using hend
      refine ⟨of_require hdone, fun k hk => ?_⟩
      have hnone := (of_foldlM_search (f := fun ancestor => do
        let used ← L.usedAt ancestor
        let without ← used.subtract r.requested
        let projected ← without.add actual
        let policy ← item L.policies ancestor ancestor.val
        .ok (decide (policy.limits.violations projected ≠ []))) hfold).2 k hk
      simp only [bind_eq_ok, item_eq_ok] at hnone
      obtain ⟨used, hused, without, hwithout, projected, hproj, policy, hpolicy, hviol⟩ := hnone
      have hget := add_eq_ok.mp hproj
      refine ⟨without.get, ?_, ?_⟩
      · rw [subtract_eq_ok.mp hwithout, of_usedAt hused]
      · rw [← hget]
        exact ⟨projected.le_max, policy, hpolicy,
          BudgetLimits.violations_eq_nil_iff.mp (by simpa using hviol)⟩

/-- `_reservation_or_recorded` reads the index: a recorded reservation is indexed. -/
theorem of_reservationOrRecorded (h : Records sha256 L) {reservationId : String}
    {r : BudgetReservation} (hr : L.reservationOrRecorded reservationId = .ok r) :
    L.reservations.get? (strip reservationId) = some r := by
  simp only [reservationOrRecorded, bind_eq_ok] at hr
  obtain ⟨id, hid, hr⟩ := hr
  rw [← val_of_requiredText hid]
  cases hidx : L.reservations.get? id.val with
  | some r' =>
    rw [hidx] at hr
    exact congrArg some (ok_inj hr)
  | none =>
    rw [hidx] at hr
    obtain ⟨record, hmem, hfound⟩ := exists_of_findSome?_eq_some (orRaise_eq_ok.mp hr)
    obtain ⟨op, hop⟩ := PyDict.exists_get?_of_mem_values h.operations_nodup hmem
    split at hfound
    · rename_i hrid
      have hok := h.record op record hop
      have hcreate := (BudgetOperationRecord.of_create_reservation hok.create hfound).1
      obtain rfl : r.reservationId = id := by simpa [hrid] using hcreate.symm
      rw [(hok.reservation r hfound).indexed] at hidx
      simp at hidx
    · simp at hfound

/-! ## reserve -/

/-- The operation and its key are not known yet. -/
structure NewOperation (L : BudgetLedger) (operationId key : RequiredText) : Prop where
  operation : L.operations.get? operationId = none
  key : ∀ indexed, L.idempotencyIndex.get? key = some indexed → indexed = operationId

/-- What the checks of `reserve` guarantee when they admit. -/
structure Admitted (sha256 : String → HexDigest) (L : BudgetLedger) (fingerprint : RequiredText)
    (r : BudgetReservation) (e : BudgetEvent) : Prop where
  scope : L.scopes.get? r.scope.scopeId = some r.scope
  digest : ∀ policy, L.policies.get? r.scope.scopeId = some policy →
    r.policyDigest = policy.digest sha256
  fingerprint_eq : fingerprint = operationFingerprint sha256 r.scope r.requested r.policyDigest
  id_eq : r.reservationId = reservationIdOf sha256 r.operationId r.idempotencyKey
  status : r.status = .reserved
  fresh : L.NewOperation r.operationId r.idempotencyKey
  fits : ∀ k ∈ (L.ancestors r.scope.scopeId).1,
    L.FitsAt (amountAt L.committed k + amountAt L.reserved k + r.requested.get) k
  event : e = createdEvent r (L.revision + 1)
  revision_le : L.revision + 1 ≤ maxBudgetInteger

/-- What the checks of `reserve` guarantee when they deny. -/
structure Denied (L : BudgetLedger) (d : BudgetDecision) (e : BudgetEvent) : Prop where
  fresh : L.NewOperation e.operationId e.idempotencyKey
  allowed : d.allowed = false
  decision_revision : d.ledgerRevision = L.revision + 1
  usage_revision : d.projectedUsage.ledgerRevision = L.revision + 1
  revision : e.ledgerRevision = L.revision + 1
  revision_le : L.revision + 1 ≤ maxBudgetInteger

theorem of_existingOperation {operationId key fingerprint : RequiredText}
    (h : L.existingOperation operationId key fingerprint = .ok none) :
    L.NewOperation operationId key := by
  simp only [existingOperation, check_bind_eq_ok, require_eq_ok] at h
  obtain ⟨hkey, h⟩ := h
  refine ⟨?_, fun indexed hidx => hkey indexed hidx⟩
  cases hop : L.operations.get? operationId with
  | none => rfl
  | some record =>
    rw [hop] at h
    simp [check_bind_eq_ok] at h

theorem of_requireScope {scope : BudgetScopeRef} {policy : Option BudgetPolicy}
    {registered : BudgetPolicy} (h : L.requireScope scope policy = .ok registered) :
    L.scopes.get? scope.scopeId = some scope ∧ L.policies.get? scope.scopeId = some registered := by
  simp only [requireScope, require_eq_ok, bind_eq_ok, item_eq_ok, Except.ok.injEq] at h
  obtain ⟨_, hscope, registered', hpolicy, _, -, rfl⟩ := h
  exact ⟨hscope, hpolicy⟩

theorem usage_create_eq_ok {u u' : BudgetUsage} (h : u.create = .ok u') : u' = u := by
  simp only [BudgetUsage.create, bind_eq_ok] at h
  obtain ⟨_, -, h⟩ := h
  exact (ok_inj h).symm

theorem decision_create_eq_ok {d' : BudgetDecision} (h : d.create = .ok d') :
    ∃ violations, d' = { d with violations := violations } := by
  simp only [BudgetDecision.create, bind_eq_ok] at h
  obtain ⟨items, -, _, -, _, -, _, -, _, -, h⟩ := h
  exact ⟨_, (ok_inj h).symm⟩

section Reserve

variable {clock : ℤ} {scope : BudgetScopeRef} {request : BudgetAmounts} {op key : String}
  {policy : Option BudgetPolicy} {createdAt : Option ℤ} {fingerprint : RequiredText}
  {e : BudgetEvent}

/-- When the checks of `reserve` admit, and what they build. -/
theorem reserveCheck_eq_create {r : BudgetReservation} :
    L.reserveCheck sha256 clock scope request op key policy createdAt =
        .ok (.create fingerprint r e) ↔ ∃ registered operationId idempotencyKey projected created,
        L.requireScope scope policy = .ok registered ∧
        requiredText op "operation_id" = .ok operationId ∧
        requiredText key "idempotency_key" = .ok idempotencyKey ∧
        L.existingOperation operationId idempotencyKey
          (operationFingerprint sha256 scope request (registered.digest sha256)) = .ok none ∧
        L.projectedForRequest scope.scopeId request = .ok ([], projected) ∧
        boundedInt (createdAt.getD clock) "created_at_epoch_ms" = .ok created ∧
        fingerprint = operationFingerprint sha256 scope request (registered.digest sha256) ∧
        r = newReservation sha256 scope (registered.digest sha256) operationId idempotencyKey request
          (L.revision + 1) created ∧ e = createdEvent r (L.revision + 1) ∧ e.create = .ok e := by
  constructor
  · intro h
    simp only [reserveCheck, bind_eq_ok] at h
    obtain ⟨registered, hscope, operationId, hop, idempotencyKey, hkey, existing, hexisting, h⟩ := h
    cases existing with
    | some record => simp [bind_eq_ok] at h
    | none =>
      simp only [bind_eq_ok] at h
      obtain ⟨⟨violations, projected⟩, hproj, h⟩ := h
      split at h
      · simp [bind_eq_ok] at h
      · rename_i hviol
        simp only [bind_eq_ok] at h
        obtain ⟨created, hcreated, event, hevent, h⟩ := h
        obtain rfl : violations = [] := not_not.mp hviol
        cases h
        obtain rfl := BudgetEvent.create_of_nil hevent rfl
        exact ⟨registered, operationId, idempotencyKey, projected, created, hscope, hop, hkey,
          hexisting, hproj, hcreated, rfl, rfl, rfl, hevent⟩
  · rintro ⟨registered, operationId, idempotencyKey, projected, created, hscope, hop, hkey,
      hexisting, hproj, hcreated, rfl, rfl, rfl, hevent⟩
    rw [reserveCheck]
    refine bind_intro hscope (bind_intro hop (bind_intro hkey (bind_intro hexisting (bind_intro hproj ?_))))
    exact bind_intro hcreated (bind_intro hevent rfl)

/-- When the checks of `reserve` deny, and what they build. -/
theorem reserveCheck_eq_deny : L.reserveCheck sha256 clock scope request op key policy createdAt =
        .ok (.deny fingerprint d e) ↔ ∃ registered operationId idempotencyKey violations projected,
        L.requireScope scope policy = .ok registered ∧
        requiredText op "operation_id" = .ok operationId ∧
        requiredText key "idempotency_key" = .ok idempotencyKey ∧
        L.existingOperation operationId idempotencyKey
          (operationFingerprint sha256 scope request (registered.digest sha256)) = .ok none ∧
        L.projectedForRequest scope.scopeId request = .ok (violations, projected) ∧
        violations ≠ [] ∧
        fingerprint = operationFingerprint sha256 scope request (registered.digest sha256) ∧
        ∃ usage, BudgetUsage.create { projected with ledgerRevision := L.revision + 1 } = .ok usage ∧
          BudgetDecision.create ⟨false, violations, usage, none, L.revision + 1⟩ = .ok d ∧
          (deniedEvent sha256 scope (registered.digest sha256) operationId idempotencyKey request
            violations (L.revision + 1)).create = .ok e := by
  constructor
  · intro h
    simp only [reserveCheck, bind_eq_ok] at h
    obtain ⟨registered, hscope, operationId, hop, idempotencyKey, hkey, existing, hexisting, h⟩ := h
    cases existing with
    | some record => simp [bind_eq_ok] at h
    | none =>
      simp only [bind_eq_ok] at h
      obtain ⟨⟨violations, projected⟩, hproj, h⟩ := h
      split at h
      · rename_i hviol
        simp only [bind_eq_ok] at h
        obtain ⟨usage, husage, decision, hdecision, event, hevent, h⟩ := h
        cases h
        exact ⟨registered, operationId, idempotencyKey, violations, projected, hscope, hop, hkey,
          hexisting, hproj, hviol, rfl, usage, husage, hdecision, hevent⟩
      · simp [bind_eq_ok] at h
  · rintro ⟨registered, operationId, idempotencyKey, violations, projected, hscope, hop, hkey,
      hexisting, hproj, hviol, rfl, usage, husage, hdecision, hevent⟩
    rw [reserveCheck]
    refine bind_intro hscope (bind_intro hop (bind_intro hkey (bind_intro hexisting (bind_intro hproj ((if_pos hviol).trans ?_)))))
    exact bind_intro husage (bind_intro hdecision (bind_intro hevent rfl))

/-- The checks of `reserve` admit only what fits on every ancestor. -/
theorem of_reserveCheck_create {r : BudgetReservation}
    (h : L.reserveCheck sha256 clock scope request op key policy createdAt =
      .ok (.create fingerprint r e)) : Admitted sha256 L fingerprint r e := by
  obtain ⟨registered, operationId, idempotencyKey, projected, created, hscope, -, -, hexisting,
    hproj, -, rfl, rfl, rfl, hevent⟩ := reserveCheck_eq_create.mp h
  obtain ⟨hreg, hpolicy⟩ := of_requireScope hscope
  exact
    { scope := hreg
      digest := fun p hp => by
        obtain rfl : registered = p := Option.some.inj (hpolicy.symm.trans hp)
        rfl
      fingerprint_eq := rfl
      id_eq := rfl
      status := rfl
      fresh := of_existingOperation hexisting
      fits := of_projectedForRequest hproj
      event := rfl
      revision_le := (BudgetEvent.of_create hevent).1 }

/-- The checks of `reserve` deny with a decision of the next revision. -/
theorem of_reserveCheck_deny
    (h : L.reserveCheck sha256 clock scope request op key policy createdAt =
      .ok (.deny fingerprint d e)) : L.Denied d e := by
  obtain ⟨registered, operationId, idempotencyKey, violations, projected, -, -, -, hexisting, -, -,
    -, usage, husage, hdecision, hevent⟩ := reserveCheck_eq_deny.mp h
  obtain rfl := usage_create_eq_ok husage
  obtain ⟨codes, rfl⟩ := decision_create_eq_ok hdecision
  obtain ⟨hrev, -, items, -, rfl⟩ := BudgetEvent.of_create hevent
  exact ⟨of_existingOperation hexisting, rfl, rfl, rfl, rfl, hrev⟩

end Reserve

/-! ## Settling operations -/

/-- What the checks of a settling operation guarantee about the reservation they
close with the given status. -/
structure Closing (L : BudgetLedger) (reservationId : String) (r : BudgetReservation)
    (record : BudgetOperationRecord) (s : BudgetSettlement) (e : BudgetEvent)
    (status : BudgetReservationStatus) : Prop where
  found : L.reservations.get? (strip reservationId) = some r
  record_eq : L.operations.get? r.operationId = some record
  is_open : r.status.isOpen = true
  before : ∀ old, record.settlement = some old → old.outcome = .indeterminate
  settles : Settles (r.withStatus status) s
  event_id : e.eventId = s.settledEventId
  revision : e.ledgerRevision = L.revision + 1
  revision_le : L.revision + 1 ≤ maxBudgetInteger

/-- What `closingSettlement` builds belongs to the reservation. -/
theorem validateSettlement_closing {r : BudgetReservation} {status : BudgetReservationStatus}
    {outcome : BudgetSettlementOutcome} {reason eventId : RequiredText}
    (hid : id = r.reservationId) : validateSettlement (r.withStatus status)
      (closingSettlement id r dispatched outcome reason eventId) = .ok () := by
  subst hid
  simp [validateSettlement, closingSettlement, BudgetReservation.withStatus]

section Settling

variable {reservationId : String} {r : BudgetReservation} {record : BudgetOperationRecord}
  {s s' : BudgetSettlement} {e : BudgetEvent} {text : String}

/-- What the checks of `settle` have made when they commit. -/
theorem settleCheck_commit (h : L.settleCheck reservationId s = .ok (.commit r record s' e text)) :
    L.reservationOrRecorded reservationId = .ok r ∧ L.operations.get? r.operationId = some record ∧
      validateSettlement r s = .ok () ∧ r.status.isOpen = true ∧
      (∀ old, record.settlement = some old → old.outcome = .indeterminate) ∧ s' = s ∧
      text = s.settledEventId.val ∧ L.settlementFitsReservation r s.actual = .ok true ∧
      e = settlementEvent .settled r r.reservationId s.actual s.outcome.value s (L.revision + 1) ∧
      e.create = .ok e := by
  simp only [settleCheck, bind_eq_ok, item_eq_ok] at h
  obtain ⟨r₀, hr₀, record₀, hrecord₀, h⟩ := h
  -- every path to a commit has validated the settlement of an open reservation
  have hrest : validateSettlement r₀ s = .ok () ∧ r₀.status.isOpen = true ∧
      (∀ old, record₀.settlement = some old → old.outcome = .indeterminate) ∧
      L.settleRest r₀ record₀ s = .ok (.commit r record s' e text) := by
    cases hset : record₀.settlement with
    | none =>
      rw [hset] at h
      simp only [check_bind_eq_ok, require_eq_ok] at h
      obtain ⟨hvalid, hstatus, h⟩ := h
      exact ⟨hvalid, by rw [hstatus]; rfl, by simp, h⟩
    | some settled =>
      rw [hset] at h
      simp only at h
      split at h
      · simp at h
      · simp only [check_bind_eq_ok, require_eq_ok] at h
        obtain ⟨hout, hvalid, hstatus, h⟩ := h
        refine ⟨hvalid, ?_, ?_, h⟩
        · rcases hstatus with hstatus | hstatus <;> rw [hstatus] <;> rfl
        · intro old hold
          obtain rfl : settled = old := by simpa using hold
          exact hout.1
  obtain ⟨hvalid, hopen, hbefore, h⟩ := hrest
  unfold settleRest at h
  split at h
  · simp at h
  · simp only [bind_eq_ok] at h
    obtain ⟨fits, hfits, h⟩ := h
    split at h
    · simp at h
    · rename_i hfit
      obtain rfl : fits = true := by simpa using hfit
      simp only [bind_eq_ok] at h
      obtain ⟨event, hevent, h⟩ := h
      cases h
      obtain rfl := settlementEvent_create hevent
      exact ⟨hr₀, hrecord₀, hvalid, hopen, hbefore, rfl, rfl, hfits, rfl, hevent⟩

/-- The checks of `settle` commit a settlement that fits. -/
theorem of_settleCheck_commit (hrec : Records sha256 L)
    (h : L.settleCheck reservationId s = .ok (.commit r record s' e text)) :
    Closing L reservationId r record s e .settled ∧ s' = s ∧ text = s.settledEventId.val ∧
      L.settlementFitsReservation r s.actual = .ok true ∧
      e = settlementEvent .settled r r.reservationId s.actual s.outcome.value s (L.revision + 1) := by
  obtain ⟨hr, hrecord, hvalid, hopen, hbefore, rfl, rfl, hfits, rfl, hevent⟩ := settleCheck_commit h
  obtain ⟨hrev, hproj, -⟩ := BudgetEvent.of_create hevent
  refine ⟨⟨of_reservationOrRecorded hrec hr, hrecord, hopen, hbefore, ⟨hvalid, ?_⟩, rfl, rfl, hrev⟩,
    rfl, rfl, hfits, rfl⟩
  -- the event constructor accepts no other outcome
  simp only [BudgetEvent.validateProjection, check_bind_eq_ok] at hproj
  obtain ⟨-, -, -, hproj⟩ := hproj
  obtain ⟨-, s₁, hs₁, hs₁out, -⟩ := of_require hproj
  obtain rfl : s' = s₁ := by simpa [settlementEvent] using hs₁
  rw [StatusAfter]
  rcases hs₁out with hs₁out | hs₁out <;> rw [hs₁out] <;> rfl

variable {eventId : Option String}

variable {op reason : String} {status : BudgetReservationStatus}

/-- When the checks of `_release_locked` commit, and what they build. -/
theorem releaseCheck_eq_commit :
    L.releaseCheck sha256 reservationId op reason dispatched eventId eventType status =
        .ok (.commit r record s e text) ↔ L.reservationOrRecorded reservationId = .ok r ∧
      L.operations.get? r.operationId = some record ∧ op = r.operationId.val ∧
      dispatched = false ∧ record.settlement = none ∧ r.status = .reserved ∧
      text = suppliedOr eventId (eventIdOf sha256 status.value reservationId (L.revision + 1)) ∧
      ∃ code id terminal, requiredText reason "reason" = .ok code ∧
        requiredText reservationId "reservation_id" = .ok id ∧
        requiredText text "settled_event_id" = .ok terminal ∧
        s = closingSettlement id r false .cancelled code terminal ∧
        e = settlementEvent eventType r id r.requested status.value s (L.revision + 1) ∧
        e.create = .ok e := by
  constructor
  · intro h
    simp only [releaseCheck, bind_eq_ok, item_eq_ok, require_eq_ok] at h
    obtain ⟨r₀, hr₀, record₀, hrecord₀, _, hop, _, hdispatched, code, hcode, h⟩ := h
    cases hset : record₀.settlement with
    | some settled =>
      rw [hset] at h
      simp [check_bind_eq_ok] at h
    | none =>
      rw [hset] at h
      simp only [require_eq_ok, bind_eq_ok] at h
      obtain ⟨_, hres, id, hid, terminal, hterminal, event, hevent, h⟩ := h
      cases h
      obtain rfl := settlementEvent_create hevent
      exact ⟨hr₀, hrecord₀, hop, hdispatched, hset, hres, rfl, code, id, terminal, hcode, hid,
        hterminal, rfl, rfl, hevent⟩
  · rintro ⟨hr, hrecord, rfl, rfl, hset, hres, rfl, code, id, terminal, hcode, hid, hterminal, rfl,
      rfl, hevent⟩
    rw [releaseCheck]
    refine bind_intro hr (bind_intro (item_eq_ok.mpr hrecord) (bind_eq_ok.mpr
      ⟨(), require_eq_ok.mpr rfl, require_intro rfl (bind_eq_ok.mpr
        ⟨_, hcode, ?_⟩)⟩))
    rw [hset]
    exact require_intro hres (bind_intro hid (bind_eq_ok.mpr
      ⟨_, hterminal, bind_intro hevent rfl⟩))

/-- The checks of `_release_locked` commit the release of a reserved reservation. -/
theorem of_releaseCheck_commit (hrec : Records sha256 L)
    (hstatus : status = .released ∨ status = .expired ∧ reason = reservationExpired.value)
    (h : L.releaseCheck sha256 reservationId op reason dispatched eventId eventType status =
      .ok (.commit r record s e text)) :
    Closing L reservationId r record s e status ∧ s.actual = BudgetAmounts.zero ∧
      r.status = .reserved ∧ record.settlement = none ∧
      text = suppliedOr eventId (eventIdOf sha256 status.value reservationId (L.revision + 1)) ∧
      strip text = s.settledEventId.val ∧
      ∃ code, requiredText reason "reason" = .ok code ∧ s.reasonCode = some code := by
  obtain ⟨hr, hrecord, -, -, hset, hres, htext, code, id, terminal, hcode, hid, hterminal, rfl, rfl,
    hevent⟩ := releaseCheck_eq_commit.mp h
  have hfound := of_reservationOrRecorded hrec hr
  have hidr : id = r.reservationId :=
    RequiredText.ext ((val_of_requiredText hid).trans (hrec.of_index hfound).1.symm)
  refine ⟨⟨hfound, hrecord, by rw [hres]; rfl, by simp [hset],
    ⟨validateSettlement_closing hidr, rfl, ?_⟩, rfl, rfl, (BudgetEvent.of_create hevent).1⟩, rfl,
    hres, hset, htext, (val_of_requiredText hterminal).symm, code, hcode, rfl⟩
  rcases hstatus with rfl | ⟨rfl, hreason⟩
  · exact Or.inl rfl
  · refine Or.inr ⟨rfl, ?_⟩
    have hval := val_of_requiredText hcode
    rw [hreason, show reservationExpired.value =
      reservationExpired.text.val from rfl,
      reservationExpired.text.trimmed] at hval
    exact congrArg some (RequiredText.ext hval)

/-- When the checks of `mark_indeterminate` commit, and what they build. -/
theorem markIndeterminateCheck_eq_commit :
    L.markIndeterminateCheck sha256 reservationId op reason eventId =
        .ok (.commit r record s e text) ↔ L.reservationOrRecorded reservationId = .ok r ∧
      L.operations.get? r.operationId = some record ∧ op = r.operationId.val ∧
      record.settlement = none ∧ r.status = .reserved ∧
      text = suppliedOr eventId (eventIdOf sha256 "indeterminate" reservationId (L.revision + 1)) ∧
      ∃ code id terminal, requiredText reason "reason" = .ok code ∧
        requiredText reservationId "reservation_id" = .ok id ∧
        requiredText text "settled_event_id" = .ok terminal ∧
        s = closingSettlement id r true .indeterminate code terminal ∧
        e = settlementEvent .indeterminate r id r.requested "indeterminate" s (L.revision + 1) ∧
        e.create = .ok e := by
  constructor
  · intro h
    simp only [markIndeterminateCheck, bind_eq_ok, item_eq_ok, require_eq_ok] at h
    obtain ⟨r₀, hr₀, record₀, hrecord₀, _, hop, code, hcode, h⟩ := h
    cases hset : record₀.settlement with
    | some settled =>
      rw [hset] at h
      simp [check_bind_eq_ok] at h
    | none =>
      rw [hset] at h
      simp only [require_eq_ok, bind_eq_ok] at h
      obtain ⟨_, hres, id, hid, terminal, hterminal, event, hevent, h⟩ := h
      cases h
      obtain rfl := settlementEvent_create hevent
      exact ⟨hr₀, hrecord₀, hop, hset, hres, rfl, code, id, terminal, hcode, hid, hterminal, rfl,
        rfl, hevent⟩
  · rintro ⟨hr, hrecord, rfl, hset, hres, rfl, code, id, terminal, hcode, hid, hterminal, rfl, rfl,
      hevent⟩
    rw [markIndeterminateCheck]
    refine bind_intro hr (bind_intro (item_eq_ok.mpr hrecord) (bind_eq_ok.mpr
      ⟨(), require_eq_ok.mpr rfl, bind_intro hcode ?_⟩))
    rw [hset]
    exact require_intro hres (bind_intro hid (bind_eq_ok.mpr
      ⟨_, hterminal, bind_intro hevent rfl⟩))

/-- The checks of `mark_indeterminate` commit for a reserved reservation. -/
theorem of_markIndeterminateCheck_commit (hrec : Records sha256 L)
    (h : L.markIndeterminateCheck sha256 reservationId op reason eventId =
      .ok (.commit r record s e text)) :
    Closing L reservationId r record s e .indeterminate ∧ s.actual = BudgetAmounts.zero ∧
      r.status = .reserved ∧ record.settlement = none ∧
      text = suppliedOr eventId (eventIdOf sha256 "indeterminate" reservationId (L.revision + 1)) ∧
      strip text = s.settledEventId.val := by
  obtain ⟨hr, hrecord, -, hset, hres, htext, code, id, terminal, hcode, hid, hterminal, rfl, rfl,
    hevent⟩ := markIndeterminateCheck_eq_commit.mp h
  have hfound := of_reservationOrRecorded hrec hr
  have hidr : id = r.reservationId :=
    RequiredText.ext ((val_of_requiredText hid).trans (hrec.of_index hfound).1.symm)
  exact ⟨⟨hfound, hrecord, by rw [hres]; rfl, by simp [hset],
    ⟨validateSettlement_closing hidr, ⟨rfl, rfl⟩⟩, rfl, rfl, (BudgetEvent.of_create hevent).1⟩,
    rfl, hres, hset, htext, (val_of_requiredText hterminal).symm⟩

end Settling

end BudgetLedger

end Budget
