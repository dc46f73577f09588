/-
# The validation of a restored ledger

A ledger that satisfies the invariant passes the two validations of `restore`: its
committed totals are the baselines and the settlements, and its reserved totals,
limits and records are in order.  One thing more is needed: a released reservation
may not have been released with the reason code of an expiry, because the validation
reads the status off the reason.
-/
import AgoraHub.BudgetRuns
import AgoraHub.BudgetSnapshot

namespace Budget

open Fallible PyText List PyDict BudgetOperationRecord
open BudgetAmounts (zero)

namespace BudgetLedger

/-! ## Ledgers with equal dictionaries -/

/-- The dictionaries of `M` have the entries of those of `L`. -/
structure Same (L M : BudgetLedger) : Prop where
  root : M.rootScopeId = L.rootScopeId
  scopes : ∀ id, M.scopes.get? id = L.scopes.get? id
  policies : ∀ id, M.policies.get? id = L.policies.get? id
  committed : ∀ id, M.committed.get? id = L.committed.get? id
  baseline : ∀ id, M.baselineCommitted.get? id = L.baselineCommitted.get? id
  reserved : ∀ id, M.reserved.get? id = L.reserved.get? id
  reservations : ∀ key, M.reservations.get? key = L.reservations.get? key
  operations : ∀ op, M.operations.get? op = L.operations.get? op
  idempotency : ∀ key, M.idempotencyIndex.get? key = L.idempotencyIndex.get? key
  revision : M.revision = L.revision

section Same

variable {sha256 : String → HexDigest} {L M : BudgetLedger}

section

variable (h : Same L M)

include h

theorem Same.keys (id : RequiredText) : id ∈ M.scopes.keys ↔ id ∈ L.scopes.keys := by
  rw [mem_keys_iff, mem_keys_iff, h.scopes]

theorem Same.parentOf : M.parentOf = L.parentOf := by
  funext id
  rw [BudgetLedger.parentOf, BudgetLedger.parentOf, h.scopes]

/-- Both ledgers walk up the same chain. -/
theorem Same.ancestors (hL : L.ScopeTree) (hM : M.ScopeTree) (id : RequiredText) :
    M.ancestors id = L.ancestors id := by
  by_cases hid : id ∈ L.scopes.keys
  · obtain ⟨hchain, hdone, -⟩ := hL.ancestors_chain hid
    obtain ⟨hchain', hdone', -⟩ := hM.ancestors_chain ((h.keys id).mpr hid)
    rw [h.parentOf] at hchain'
    exact Prod.ext (hchain'.unique hchain) (hdone'.trans hdone.symm)
  · have hnone : L.parentOf id = none := by
      rw [BudgetLedger.parentOf, (get?_eq_none_iff _ _).mpr hid, Option.map_none]
    rw [BudgetLedger.ancestors, BudgetLedger.ancestors, h.parentOf]
    simp [Forest.walk, hnone]

theorem RecordOk.of_same {op : RequiredText} {record : BudgetOperationRecord}
    (hok : RecordOk sha256 L op record) : RecordOk sha256 M op record :=
  hok.frame (fun id _ hs => (h.scopes id).trans hs) (fun id _ _ => h.policies id)
    (le_of_eq h.revision.symm) fun r hr =>
      (h.reservations _).trans (hok.reservation r hr).indexed

theorem Records.of_same (hrec : Records sha256 L)
    (hres : M.reservations.keys.Nodup) (hops : M.operations.keys.Nodup) : Records sha256 M where
  reservations_nodup := hres
  operations_nodup := hops
  linked key r hr := by
    rw [h.reservations] at hr
    obtain ⟨hkey, record, hrecord, hlink⟩ := hrec.linked key r hr
    exact ⟨hkey, record, (h.operations _).trans hrecord, hlink⟩
  record op record hrecord := by
    rw [h.operations] at hrecord
    exact (hrec.record op record hrecord).of_same h
  idempotency key op := by
    rw [h.idempotency, hrec.idempotency]
    simp only [h.operations]
  revision_le := h.revision ▸ hrec.revision_le

theorem Same.amountAt_reserved (id : RequiredText) :
    amountAt M.reserved id = amountAt L.reserved id := by
  rw [amountAt, amountAt, h.reserved]

theorem Same.amountAt_committed (id : RequiredText) :
    amountAt M.committed id = amountAt L.committed id := by
  rw [amountAt, amountAt, h.committed]

theorem Totals.of_same (hL : LedgerInv sha256 L) (hM : M.ScopeTree)
    (hrec : Records sha256 M) : M.Totals := by
  have hopen : ∀ id, M.openAmount id = L.openAmount id := by
    intro id; funext r; rw [openAmount, openAmount, h.ancestors hL.tree hM]
  have hsettled : ∀ id, M.settledAmount id = L.settledAmount id := by
    intro id; funext record
    unfold settledAmount
    cases record.settlement with
    | none => rfl
    | some s => simp only [h.ancestors hL.tree hM]
  constructor
  · intro id hid
    rw [h.amountAt_reserved, hL.totals.reserved_eq id ((h.keys id).mp hid), hopen]
    exact (sumOf_eq_of_get?_eq _ hL.records.reservations_nodup hrec.reservations_nodup
      h.reservations).symm
  · intro id hid
    rw [h.amountAt_committed, hL.totals.committed_eq id ((h.keys id).mp hid), hsettled,
      sumOf_eq_of_get?_eq _ hL.records.operations_nodup hrec.operations_nodup h.operations]
    rw [amountAt, amountAt, h.baseline]
  · intro id hid d
    rw [h.amountAt_committed, h.amountAt_reserved]
    exact hL.totals.fits id ((h.keys id).mp hid) d
  · intro id policy hp
    rw [h.amountAt_committed, h.amountAt_reserved]
    exact hL.totals.admits id policy ((h.policies id).symm.trans hp)

theorem LedgerInv.of_same (hL : LedgerInv sha256 L) (hM : M.ScopeTree)
    (hres : M.reservations.keys.Nodup) (hops : M.operations.keys.Nodup) : LedgerInv sha256 M :=
  have hrec := hL.records.of_same h hres hops
  ⟨hM, hrec, Totals.of_same h hL hM hrec⟩

end

end Same

variable {sha256 : String → HexDigest} {L : BudgetLedger}

/-! ## Tables rebuilt by a fold -/

variable {id : RequiredText}

/-- Equal amounts under the same keys are equal entries. -/
theorem get?_eq_of_amountAt {t t' : PyDict RequiredText BudgetAmounts}
    (hkeys : id ∈ t.keys ↔ id ∈ t'.keys) (h : amountAt t id = amountAt t' id) :
    t.get? id = t'.get? id := by
  cases ha : t.get? id with
  | none =>
    refine ((get?_eq_none_iff t' id).mpr fun hmem => ?_).symm
    exact (get?_eq_none_iff t id).mp ha (hkeys.mpr hmem)
  | some a =>
    obtain ⟨b, hb⟩ := (mem_keys_iff t' id).mp
      (hkeys.mp ((mem_keys_iff t id).mpr ⟨a, ha⟩))
    rw [amountAt_of_get? ha, amountAt_of_get? hb] at h
    rw [hb, BudgetAmounts.ext h]

variable {t : PyDict RequiredText BudgetAmounts}

/-- Adding an amount that fits to a local table. -/
theorem bookUp_add (h : L.ScopeTree) (amount : BudgetAmounts) (hid : id ∈ L.scopes.keys)
    (hcovers : L.Covers t) (hfit : ∀ k ∈ L.scopes.keys, ∀ d,
      amountAt t k d + amountOn (L.ancestors id).1 amount k d ≤ maxAmount d) :
    ∃ t', L.bookUp id true amount t = .ok t' ∧ Added L id amount t t' := by
  obtain ⟨t', ht', hadded⟩ := applyDeltaUp_add amount h hid hcovers (by
    intro k hk d
    have := hfit k (h.ancestors_registered hid hk) d
    rwa [amountOn, if_pos hk] at this)
  exact ⟨t', by rw [bookUp, ht'], hadded⟩

/-- A fold that books one amount for each item, when the sums fit. -/
theorem foldlM_booked {α : Type} {f : PyDict RequiredText BudgetAmounts → α →
      Except BudgetError (PyDict RequiredText BudgetAmounts)}
    {g : RequiredText → α → BudgetDimension → ℕ} (xs : List α) (step : ∀ t, L.Covers t → ∀ a ∈ xs,
      (∀ k ∈ L.scopes.keys, ∀ d, amountAt t k d + g k a d ≤ maxAmount d) →
      ∃ t', f t a = .ok t' ∧ t'.keys = t.keys ∧ ∀ k, amountAt t' k = amountAt t k + g k a) :
    ∀ t, L.Covers t →
      (∀ k ∈ L.scopes.keys, ∀ d, amountAt t k d + (xs.map (g k)).sum d ≤ maxAmount d) →
      ∃ t', xs.foldlM f t = .ok t' ∧ t'.keys = t.keys ∧
        ∀ k, amountAt t' k = amountAt t k + (xs.map (g k)).sum := by
  induction xs with
  | nil => intro t _ _; exact ⟨t, rfl, rfl, fun k => by simp⟩
  | cons a xs ih =>
    intro t hcovers hfit
    simp only [map_cons, sum_cons, Pi.add_apply] at hfit
    obtain ⟨t₁, ht₁, hkeys₁, hadd₁⟩ := step t hcovers a (by simp) fun k hk d => by
      have := hfit k hk d
      omega
    obtain ⟨t₂, ht₂, hkeys₂, hadd₂⟩ := ih
      (fun t ht b hb => step t ht b (mem_cons_of_mem _ hb)) t₁
      (fun id => by rw [hkeys₁]; exact hcovers id) fun k hk d => by
        have := hfit k hk d
        rw [hadd₁, Pi.add_apply]
        omega
    refine ⟨t₂, by rw [foldlM_cons, ht₁, ok_bind, ht₂], hkeys₂.trans hkeys₁, fun k => ?_⟩
    rw [hadd₂, hadd₁, map_cons, sum_cons, add_assoc]

/-! ## The reserved totals -/

variable {r : BudgetReservation}

/-- Booking one reservation on the expected totals. -/
theorem expectReservation_ok (hinv : LedgerInv sha256 L) (hcovers : L.Covers t)
    (hr : r ∈ L.reservations.values)
    (hfit : ∀ k ∈ L.scopes.keys, ∀ d, amountAt t k d + L.openAmount k r d ≤ maxAmount d) :
    ∃ t', L.expectReservation sha256 t r = .ok t' ∧ t'.keys = t.keys ∧
      ∀ k, amountAt t' k = amountAt t k + L.openAmount k r := by
  obtain ⟨key, hget⟩ := exists_get?_of_mem_values hinv.records.reservations_nodup hr
  obtain ⟨-, record, -, -, -, hok⟩ := hinv.records.of_index hget
  have hreg := mem_scopes_keys hok.scope
  obtain ⟨policy, hpolicy⟩ := hinv.tree.policies.exists_get hreg
  have hchecks : L.expectReservation sha256 t r =
      if r.status.isOpen then L.bookUp r.scope.scopeId true r.requested t else .ok t := by
    rw [expectReservation, check_of_pos (by rw [hok.scope]; rfl),
      item_eq_ok.mpr hpolicy, ok_bind, check_of_pos (hok.digest policy hpolicy)]
  rw [hchecks]
  cases hopen : r.status.isOpen with
  | false =>
    exact ⟨t, rfl, rfl, fun k => by rw [openAmount, hopen]; exact (add_zero _).symm⟩
  | true =>
    have hterm : ∀ k, L.openAmount k r = amountOn (L.ancestors r.scope.scopeId).1 r.requested k :=
      fun k => by rw [openAmount, hopen]; rfl
    obtain ⟨t', ht', hadded⟩ := bookUp_add hinv.tree r.requested hreg hcovers
      fun k hk d => by rw [← hterm]; exact hfit k hk d
    exact ⟨t', ht', hadded.keys, fun k => by rw [hadded.amount_eq, hterm]⟩

theorem amountAt_zeros {ν : Type} (d : PyDict RequiredText ν) (k : RequiredText) :
    amountAt (d.map fun p => (p.1, zero)) k = 0 := by
  unfold amountAt
  cases hget : PyDict.get? (d.map fun p => (p.1, zero)) k with
  | none => rfl
  | some a =>
    obtain ⟨p, -, hp⟩ := mem_map.mp (mem_of_get? hget)
    obtain rfl := congrArg Prod.snd hp
    rfl

/-- The expected reserved totals are the reserved totals. -/
theorem expectedReserved_eq (hinv : LedgerInv sha256 L) :
    ∃ expected, L.reservations.values.foldlM (L.expectReservation sha256)
        (L.scopes.map fun p => (p.1, zero)) = .ok expected ∧
      PyDict.eq expected L.reserved := by
  set zeros : PyDict RequiredText BudgetAmounts := L.scopes.map fun p => (p.1, zero)
    with hzeros
  have hkeys : zeros.keys = L.scopes.keys := by
    rw [hzeros, PyDict.keys, map_map]
    rfl
  have hzero : ∀ k, amountAt zeros k = 0 := amountAt_zeros L.scopes
  obtain ⟨expected, hfold, hkeys', hamount⟩ := foldlM_booked
    (g := L.openAmount) L.reservations.values
    (fun t ht r hr hfit => expectReservation_ok hinv ht hr hfit) zeros
    (fun id => by rw [hkeys]) fun k hk d => by
      rw [hzero, Pi.zero_apply, zero_add]
      have := hinv.totals.fits k hk d
      rw [hinv.totals.reserved_eq k hk] at this
      exact (Nat.le_add_left _ _).trans this
  refine ⟨expected, hfold, (eq_iff _ _).mpr fun k => ?_⟩
  have hmem : k ∈ expected.keys ↔ k ∈ L.reserved.keys := by
    rw [hkeys', hkeys]
    exact (hinv.tree.reserved k).symm
  by_cases hk : k ∈ L.scopes.keys
  · refine get?_eq_of_amountAt hmem ?_
    rw [hamount, hzero, zero_add, hinv.totals.reserved_eq k hk]
    rfl
  · have hnot : k ∉ L.reserved.keys := fun h => hk ((hinv.tree.reserved k).mp h)
    rw [(get?_eq_none_iff _ _).mpr hnot, (get?_eq_none_iff _ _).mpr fun h => hnot (hmem.mp h)]

/-! ## Scopes and operations -/

/-- What is used at a scope is defined. -/
theorem usedAt_ok (h : L.ScopeTree) (hid : id ∈ L.scopes.keys)
    (hfits : ∀ d, amountAt L.committed id d + amountAt L.reserved id d ≤ maxAmount d) :
    ∃ used, L.usedAt id = .ok used ∧
      used.get = amountAt L.committed id + amountAt L.reserved id := by
  obtain ⟨committed, hc⟩ := h.committed.exists_get hid
  obtain ⟨reserved, hr⟩ := h.reserved.exists_get hid
  rw [amountAt_of_get? hc, amountAt_of_get? hr] at hfits
  obtain ⟨used, hused, -⟩ := BudgetAmounts.exists_add hfits
  have hok : L.usedAt id = .ok used := by
    rw [usedAt, item_eq_ok.mpr hc, ok_bind, item_eq_ok.mpr hr, ok_bind, hused]
  exact ⟨used, hok, of_usedAt hok⟩

theorem validateScope_ok (hinv : LedgerInv sha256 L) {scope : BudgetScopeRef}
    (hget : L.scopes.get? id = some scope) : L.validateScope (id, scope) = .ok () := by
  have hid := mem_scopes_keys hget
  obtain ⟨root, hroot, -⟩ := hinv.tree.root
  obtain ⟨used, hused, hamount⟩ := usedAt_ok hinv.tree hid (hinv.totals.fits id hid)
  obtain ⟨policy, hpolicy⟩ := hinv.tree.policies.exists_get hid
  have hadmits := hinv.totals.admits id policy hpolicy
  rw [validateScope, item_eq_ok.mpr hroot, ok_bind,
    check_of_pos (hinv.tree.same_run id scope root hget hroot), hused, ok_bind,
    item_eq_ok.mpr hpolicy, ok_bind, require_of_pos]
  exact BudgetLimits.violations_eq_nil_iff.mpr (hamount ▸ hadmits)

/-- A release never carries the reason code of an expiry. -/
def ReleaseReasons (L : BudgetLedger) : Prop :=
  ∀ op record r s, L.operations.get? op = some record → record.reservation = some r →
    record.settlement = some s → r.status = .released →
      s.reasonCode ≠ some BudgetReasonCode.reservationExpired.text

/-- The status read off a settlement is the status it left. -/
theorem expectedStatus_eq {s : BudgetSettlement} (h : StatusAfter s r.status)
    (hreason : r.status = .released →
      s.reasonCode ≠ some BudgetReasonCode.reservationExpired.text) :
    r.status = expectedStatus s := by
  unfold StatusAfter at h
  unfold expectedStatus
  cases hout : s.outcome <;> rw [hout] at h
  · exact h
  · exact h
  · rcases h.2 with hreleased | ⟨hexpired, hcode⟩
    · rw [hreleased, if_neg]
      intro hcode
      refine hreason hreleased ?_
      obtain ⟨code, hcode, hval⟩ := Option.map_eq_some_iff.mp hcode
      rw [hcode]
      exact congrArg some (RequiredText.ext hval)
    · rw [hexpired, hcode]
      exact (if_pos rfl).symm
  · exact h.2

variable {op : RequiredText} {record : BudgetOperationRecord}

theorem validateReserved_ok (hinv : LedgerInv sha256 L) (hreasons : L.ReleaseReasons)
    (hget : L.operations.get? op = some record) (hr : record.reservation = some r) :
    L.validateReserved sha256 op record r.reservationId = .ok () := by
  have hok := hinv.records.record op record hget
  have hres := hok.reservation r hr
  obtain ⟨-, hop, hkey, hdec⟩ := of_create_reservation hok.create hr
  obtain ⟨policy, hpolicy⟩ := hinv.tree.policies.exists_get (mem_scopes_keys hres.scope)
  rw [validateReserved, hr, orRaise_some, ok_bind, check_of_pos rfl,
    check_of_pos hres.indexed, check_of_pos (hop.symm.trans hok.id_eq),
    check_of_pos hkey.symm, check_of_pos (by rw [hres.scope]; rfl),
    item_eq_ok.mpr hpolicy, ok_bind, check_of_pos (hres.digest policy hpolicy),
    check_of_pos hres.fingerprint, check_of_pos hdec]
  cases hset : record.settlement with
  | none => exact require_of_pos _ (hres.undecided hset)
  | some s =>
    have hsettles := hres.settled s hset
    simp only [hsettles.valid, ok_bind]
    exact require_of_pos _ (expectedStatus_eq hsettles.status (hreasons op record r s hget hr hset))

theorem validateDenied_ok (hinv : LedgerInv sha256 L) (hget : L.operations.get? op = some record)
    (hid : record.reservationId = none) : L.validateDenied record = .ok () := by
  have hok := hinv.records.record op record hget
  have hres : record.reservation = none := by
    cases hr : record.reservation with
    | none => rfl
    | some r =>
      have := (of_create_reservation hok.create hr).1
      rw [hid] at this
      simp at this
  have hset : record.settlement = none := by
    cases hs : record.settlement with
    | none => rfl
    | some s =>
      obtain ⟨r, hr⟩ := of_create_settlement hok.create hs
      rw [hres] at hr
      simp at hr
  obtain ⟨d, hd⟩ : ∃ d, record.decision = some d := by
    cases hd : record.decision with
    | some d => exact ⟨d, rfl⟩
    | none =>
      have := (create_eq_ok.mp hok.create).2.2.1
      rw [checkDecision, hd] at this
      exact absurd hres (of_require this)
  have hdec := hok.decision d hd
  rw [validateDenied, check_of_pos ⟨hres, hset⟩, check_of_pos ⟨d, hd, hdec.denied⟩, require_of_pos]
  intro d' hd'
  obtain rfl := Option.some.inj (hd.symm.trans hd')
  exact ⟨hdec.positive, hdec.revision_le, hdec.usage_revision⟩

/-- A ledger that satisfies the invariant passes `_validate_restored_state`. -/
theorem validateRestoredState_ok (hinv : LedgerInv sha256 L) (hreasons : L.ReleaseReasons) :
    L.validateRestoredState sha256 = .ok () := by
  obtain ⟨expected, hfold, heq⟩ := expectedReserved_eq hinv
  have hscopes : L.scopes.forM L.validateScope = .ok () :=
    forM_ok fun p hp => validateScope_ok hinv (get?_of_mem hinv.tree.nodup hp)
  have hoperations : L.operations.forM (L.validateOperation sha256) = .ok () := by
    refine forM_ok fun p hp => ?_
    have hget := get?_of_mem hinv.records.operations_nodup hp
    have hok := hinv.records.record _ _ hget
    rw [validateOperation, check_of_pos hok.id_eq.symm,
      check_of_pos ((hinv.records.idempotency _ _).mpr ⟨_, hget, rfl⟩)]
    cases hid : p.2.reservationId with
    | none => exact validateDenied_ok hinv hget hid
    | some id =>
      cases hr : p.2.reservation with
      | none =>
        have := (create_eq_ok.mp hok.create).1
        rw [checkReservation, hr] at this
        rw [of_require this] at hid
        simp at hid
      | some r =>
        have := (of_create_reservation hok.create hr).1
        obtain rfl : id = r.reservationId := Option.some.inj (hid.symm.trans this)
        exact validateReserved_ok hinv hreasons hget hr
  rw [validateRestoredState]
  simp only [hfold, ok_bind, require_of_pos _ heq, hscopes, hoperations]

/-! ## The committed totals -/

/-- Booking the settlement of one record on the expected totals. -/
theorem expectSettlement_ok (hinv : LedgerInv sha256 L) (hcovers : L.Covers t)
    (hget : L.operations.get? op = some record)
    (hfit : ∀ k ∈ L.scopes.keys, ∀ d, amountAt t k d + L.settledAmount k record d ≤ maxAmount d) :
    ∃ t', L.expectSettlement t record = .ok t' ∧ t'.keys = t.keys ∧
      ∀ k, amountAt t' k = amountAt t k + L.settledAmount k record := by
  cases hset : record.settlement with
  | none =>
    refine ⟨t, by rw [expectSettlement, hset], rfl, fun k => ?_⟩
    rw [settledAmount, hset]
    exact (add_zero _).symm
  | some s =>
    obtain ⟨r, -, -, hreg⟩ := hinv.records.settlement_scope hget hset
    have hterm : ∀ k, L.settledAmount k record =
        amountOn (L.ancestors s.scope.scopeId).1 s.actual k :=
      fun k => by rw [settledAmount, hset]
    obtain ⟨t', ht', hadded⟩ := bookUp_add hinv.tree s.actual hreg hcovers
      fun k hk d => by rw [← hterm]; exact hfit k hk d
    obtain ⟨current, hcurrent⟩ := hcovers.exists_get hreg
    refine ⟨t', ?_, hadded.keys, fun k => by rw [hadded.amount_eq, hterm]⟩
    rw [expectSettlement, hset]
    simp only [check_of_pos (show (t.get? s.scope.scopeId).isSome = true by rw [hcurrent]; rfl), ht']

/-- A snapshot that carries the baselines and the records of the ledger passes
`_validate_committed_totals`. -/
theorem validateCommittedTotals_ok (hinv : LedgerInv sha256 L) {S : BudgetSnapshot}
    (hcommitted : L.committed.keys.Nodup)
    (hbaseline : ∀ i ∈ S.scopes, ∃ b, i.baselineCommitted = some b)
    (hgiven : ∀ id, (PyDict.ofItems (fun i : BudgetScopeSnapshot => i.scope.scopeId)
      (fun i => i.baselineCommitted.getD i.committed) S.scopes).get? id =
        L.baselineCommitted.get? id) (hrecords : S.operationRecords.Perm L.operations.values) :
    L.validateCommittedTotals S = .ok (PyDict.ofItems
      (fun i : BudgetScopeSnapshot => i.scope.scopeId)
      (fun i => i.baselineCommitted.getD i.committed) S.scopes) := by
  set given := PyDict.ofItems (fun i : BudgetScopeSnapshot => i.scope.scopeId)
    (fun i => i.baselineCommitted.getD i.committed) S.scopes with hgivenDef
  have hlegacy : (S.scopes.filter fun i => i.baselineCommitted.isNone) = [] := by
    rw [filter_eq_nil_iff]
    intro i hi
    obtain ⟨b, hb⟩ := hbaseline i hi
    simp [hb]
  have hcovers : L.Covers given := by
    intro id
    rw [mem_keys_iff, hgiven, ← mem_keys_iff]
    exact hinv.tree.baseline id
  have hamount : ∀ k, amountAt given k = amountAt L.baselineCommitted k := fun k => by
    rw [amountAt, hgiven, amountAt]
  have hsum : ∀ k, (S.operationRecords.map (L.settledAmount k)).sum =
      PyDict.sumOf (L.settledAmount k) L.operations := fun k => (hrecords.map _).sum_eq
  obtain ⟨expected, hfold, hkeys, hexpected⟩ := foldlM_booked (g := L.settledAmount)
    S.operationRecords
    (fun t ht record hrec hfit => by
      obtain ⟨op, hget⟩ := exists_get?_of_mem_values hinv.records.operations_nodup
        (hrecords.mem_iff.mp hrec)
      exact expectSettlement_ok hinv ht hget hfit) given hcovers fun k hk d => by
      rw [hamount, hsum, ← Pi.add_apply, ← hinv.totals.committed_eq k hk]
      exact (Nat.le_add_right _ _).trans (hinv.totals.fits k hk d)
  have hmatch : L.committed.forM (fun (entry : RequiredText × BudgetAmounts) => do
      let amounts ← item expected entry.1 entry.1.val
      require (entry.2 = amounts) (.state
        ("snapshot committed totals do not match operation history for " ++ entry.1.val))) =
      .ok () := by
    refine forM_ok fun p hp => ?_
    have hget := get?_of_mem hcommitted hp
    have hid : p.1 ∈ L.scopes.keys :=
      (hinv.tree.committed p.1).mp ((mem_keys_iff _ _).mpr ⟨_, hget⟩)
    have hexp : expected.get? p.1 = some p.2 := by
      rw [← hget]
      refine get?_eq_of_amountAt ?_ ?_
      · rw [hkeys, hcovers p.1, hinv.tree.committed p.1]
      · rw [hexpected, hamount, hsum, hinv.totals.committed_eq p.1 hid]
    rw [item_eq_ok.mpr hexp, ok_bind, require_of_pos _ rfl]
  have hskip : S.operationRecords.foldlM (fun t (record : BudgetOperationRecord) =>
      if (S.scopes.filter fun i => i.baselineCommitted.isNone).map (fun i => i.scope.scopeId) = []
      then .ok t
      else L.inferBaselines ((S.scopes.filter fun i => i.baselineCommitted.isNone).map
        fun i => i.scope.scopeId) t record) given = .ok given := by
    rw [hlegacy]
    induction S.operationRecords with
    | nil => rfl
    | cons record records ih => exact ih
  rw [validateCommittedTotals]
  simp only [← hgivenDef, hskip, ok_bind, hfold, hmatch]

end BudgetLedger

end Budget
