/-
# What a change preserves

Each part of the invariant, its scope tree, its records and its totals, is kept by a
denial, an admission, a settlement and a registration.
-/
import AgoraHub.BudgetChange

namespace Budget

open Fallible PyText List PyDict BudgetLedger BudgetOperationRecord BudgetAmounts
open BudgetAmounts (zero)

variable {id op : RequiredText}

namespace BudgetLedger

variable {sha256 : String → HexDigest} {L : BudgetLedger}

/-! ## Frames -/

/-- A tree survives updates that keep its scopes, its policies and the keys of the
tables. -/
theorem ScopeTree.frame (h : L.ScopeTree) {L' : BudgetLedger} (hroot : L'.rootScopeId = L.rootScopeId)
    (hscopes : L'.scopes = L.scopes) (hpolicies : L'.policies = L.policies)
    (hcommitted : L'.committed.keys = L.committed.keys)
    (hbaseline : L'.baselineCommitted = L.baselineCommitted)
    (hreserved : L'.reserved.keys = L.reserved.keys) : L'.ScopeTree where
  nodup := by rw [hscopes]; exact h.nodup
  key_eq := by rw [hscopes]; exact h.key_eq
  grown := by
    have : L'.parentOf = L.parentOf := by funext id; rw [parentOf, parentOf, hscopes]
    rw [hscopes, this]; exact h.grown
  policies := by rw [Covers, hscopes, hpolicies]; exact h.policies
  committed := by rw [Covers, hscopes, hcommitted]; exact h.committed
  baseline := by rw [Covers, hscopes, hbaseline]; exact h.baseline
  reserved := by rw [Covers, hscopes, hreserved]; exact h.reserved
  root := by rw [hscopes, hroot]; exact h.root
  only_root := by rw [hscopes, hroot]; exact h.only_root
  same_run := by rw [hscopes, hroot]; exact h.same_run
  revision := by rw [hscopes, hpolicies]; exact h.revision

/-- A record stays good while its reservation stays in the index. -/
theorem RecordOk.frame {record : BudgetOperationRecord} (h : RecordOk sha256 L op record)
    {L' : BudgetLedger}
    (hscopes : ∀ id scope, L.scopes.get? id = some scope → L'.scopes.get? id = some scope)
    (hpolicies : ∀ id scope, L.scopes.get? id = some scope → L'.policies.get? id = L.policies.get? id)
    (hrevision : L.revision ≤ L'.revision) (hindex : ∀ r, record.reservation = some r →
      L'.reservations.get? r.reservationId.val = some r) : RecordOk sha256 L' op record where
  id_eq := h.id_eq
  create := h.create
  reservation r hr :=
    have hres := h.reservation r hr
    { indexed := hindex r hr
      scope := hscopes _ _ hres.scope
      digest := fun policy hp => hres.digest policy (by rwa [hpolicies _ _ hres.scope] at hp)
      fingerprint := hres.fingerprint
      undecided := hres.undecided
      settled := hres.settled }
  decision d hd :=
    have hdec := h.decision d hd
    ⟨hdec.denied, hdec.positive, hdec.revision_le.trans hrevision, hdec.usage_revision⟩

theorem Records.index_unique (h : Records sha256 L) {key key' : String} {r r' : BudgetReservation}
    (hr : L.reservations.get? key = some r) (hr' : L.reservations.get? key' = some r')
    (hop : r'.operationId = r.operationId) : key' = key := by
  obtain ⟨hkey, record, hrec, hres⟩ := h.linked key r hr
  obtain ⟨hkey', record', hrec', hres'⟩ := h.linked key' r' hr'
  rw [hop, hrec] at hrec'
  cases hrec'
  obtain rfl := Option.some.inj (hres.symm.trans hres')
  rw [← hkey, hkey']

theorem Records.key_new (h : Records sha256 L) {key : RequiredText} (hnew : L.NewOperation op key) :
    L.idempotencyIndex.get? key = none := by
  cases hidx : L.idempotencyIndex.get? key with
  | none => rfl
  | some indexed =>
    obtain rfl := hnew.key indexed hidx
    obtain ⟨record, hrec, -⟩ := (h.idempotency key indexed).mp hidx
    rw [hnew.operation] at hrec
    simp at hrec

/-- The idempotency entries after a new operation. -/
theorem Records.idempotency_set (h : Records sha256 L) {key : RequiredText}
    (hnew : L.NewOperation op key) {record : BudgetOperationRecord}
    (hkey : record.idempotencyKey = key) (k o : RequiredText) :
    (L.idempotencyIndex.set key op).get? k = some o ↔
      ∃ record', (L.operations.set op record).get? o = some record' ∧
        record'.idempotencyKey = k := by
  have hkeyNew := h.key_new hnew
  rw [get?_set]
  by_cases hk : k = key
  · subst hk
    rw [if_pos rfl, Option.some.injEq]
    constructor
    · rintro rfl
      exact ⟨record, get?_set_self _ _ _, hkey⟩
    · rintro ⟨record', hrec', hkey'⟩
      rw [get?_set] at hrec'
      split at hrec'
      · exact Eq.symm ‹_›
      · have := (h.idempotency k o).mpr ⟨record', hrec', hkey'⟩
        rw [hkeyNew] at this
        simp at this
  · rw [if_neg hk, h.idempotency]
    constructor
    · rintro ⟨record', hrec', hkey'⟩
      have hne : o ≠ op := by
        rintro rfl
        rw [hnew.operation] at hrec'
        simp at hrec'
      exact ⟨record', by rwa [get?_set_of_ne _ _ hne], hkey'⟩
    · rintro ⟨record', hrec', hkey'⟩
      rw [get?_set] at hrec'
      split at hrec'
      · cases hrec'
        exact absurd (hkey'.symm.trans hkey) hk
      · exact ⟨record', hrec', hkey'⟩

/-! ## Denials -/

variable {fingerprint : RequiredText}

theorem Records.withDenial (h : Records sha256 L) {d : BudgetDecision} {e : BudgetEvent}
    (hd : L.Denied d e) : Records sha256 (L.withDenial fingerprint d e) where
  reservations_nodup := h.reservations_nodup
  operations_nodup := nodup_keys_set h.operations_nodup _ _
  linked key r hr := by
    obtain ⟨hkey, record, hrec, hres⟩ := h.linked key r hr
    refine ⟨hkey, record, ?_, hres⟩
    have hne : r.operationId ≠ e.operationId := by
      intro heq
      rw [heq, hd.fresh.operation] at hrec
      simp at hrec
    exact (get?_set_of_ne _ _ hne).trans hrec
  record op record hrec := by
    have hrev : (L.withDenial fingerprint d e).revision = L.revision + 1 := hd.revision
    rw [BudgetLedger.withDenial, get?_set] at hrec
    split at hrec
    · cases hrec
      subst op
      refine ⟨rfl, create_eq_ok.mpr
        ⟨by simp [checkReservation], rfl,
          by simp [checkDecision, hd.allowed], rfl⟩, by simp, ?_⟩
      intro d' hd'
      cases hd'
      refine ⟨hd.allowed, ?_, ?_, hd.usage_revision.trans hd.decision_revision.symm⟩
      · rw [hd.decision_revision]; omega
      · rw [hd.decision_revision, hrev]
    · refine (h.record op record hrec).frame (fun _ _ hs => hs) (fun _ _ _ => rfl) ?_
        fun r hr => ((h.record op record hrec).reservation r hr).indexed
      rw [hrev]; omega
  idempotency k o := h.idempotency_set hd.fresh rfl k o
  revision_le := le_of_eq_of_le hd.revision hd.revision_le

theorem Totals.withDenial (h : L.Totals) {d : BudgetDecision} {e : BudgetEvent}
    (hnew : L.operations.get? e.operationId = none) : (L.withDenial fingerprint d e).Totals where
  reserved_eq := h.reserved_eq
  committed_eq id hid := by
    have hsum := sumOf_set_new (L.settledAmount id)
      (⟨e.operationId, e.idempotencyKey, fingerprint, none, none, some d, none⟩ :
        BudgetOperationRecord) hnew
    rw [settledAmount, add_zero] at hsum
    exact (h.committed_eq id hid).trans (congrArg _ hsum.symm)
  fits := h.fits
  admits := h.admits

/-! ## Admissions -/

theorem Records.withReservation (h : Records sha256 L) {r : BudgetReservation} {e : BudgetEvent}
    {reserved : PyDict RequiredText BudgetAmounts} (hadm : Admitted sha256 L fingerprint r e)
    (hfresh : L.reservations.get? r.reservationId.val = none) :
    Records sha256 (L.withReservation fingerprint r e reserved) where
  reservations_nodup := nodup_keys_set h.reservations_nodup _ _
  operations_nodup := nodup_keys_set h.operations_nodup _ _
  linked key r' hr' := by
    rw [BudgetLedger.withReservation, get?_set] at hr'
    split at hr'
    · cases hr'
      exact ⟨Eq.symm ‹_›, _, get?_set_self _ _ _, rfl⟩
    · obtain ⟨hkey, record, hrec, hres⟩ := h.linked key r' hr'
      have hne : r'.operationId ≠ r.operationId := by
        intro heq
        rw [heq, hadm.fresh.operation] at hrec
        simp at hrec
      exact ⟨hkey, record, (get?_set_of_ne _ _ hne).trans hrec, hres⟩
  record op record hrec := by
    have hrev : (L.withReservation fingerprint r e reserved).revision = L.revision + 1 :=
      congrArg BudgetEvent.ledgerRevision hadm.event
    rw [BudgetLedger.withReservation, get?_set] at hrec
    split at hrec
    · cases hrec
      subst op
      refine ⟨rfl, create_eq_ok.mpr
        ⟨by simp [checkReservation], rfl,
          by simp [checkDecision], rfl⟩, ?_, by simp⟩
      intro r' hr'
      cases hr'
      exact ⟨get?_set_self _ _ _, hadm.scope, hadm.digest, hadm.fingerprint_eq,
        fun _ => hadm.status, by simp⟩
    · refine (h.record op record hrec).frame (fun _ _ hs => hs) (fun _ _ _ => rfl)
        (by rw [hrev]; omega) fun r' hr' => ?_
      have hidx := ((h.record op record hrec).reservation r' hr').indexed
      have hne : r'.reservationId.val ≠ r.reservationId.val := by
        intro heq
        rw [heq, hfresh] at hidx
        simp at hidx
      exact (get?_set_of_ne _ _ hne).trans hidx
  idempotency k o := h.idempotency_set hadm.fresh rfl k o
  revision_le := le_of_eq_of_le (congrArg BudgetEvent.ledgerRevision hadm.event) hadm.revision_le

theorem Totals.withReservation (h : L.Totals) {r : BudgetReservation} {e : BudgetEvent}
    {reserved : PyDict RequiredText BudgetAmounts} (hadm : Admitted sha256 L fingerprint r e)
    (hfresh : L.reservations.get? r.reservationId.val = none)
    (hadded : Added L r.scope.scopeId r.requested L.reserved reserved) :
    (L.withReservation fingerprint r e reserved).Totals := by
  have hnew : ∀ k, amountAt reserved k =
      amountAt L.reserved k + amountOn (L.ancestors r.scope.scopeId).1 r.requested k :=
    hadded.amount_eq
  have hat : ∀ k, k ∈ (L.ancestors r.scope.scopeId).1 ∨
      amountAt reserved k = amountAt L.reserved k := by
    intro k
    by_cases hk : k ∈ (L.ancestors r.scope.scopeId).1
    · exact .inl hk
    · right; rw [hnew, amountOn, if_neg hk, add_zero]
  have hfit : ∀ k ∈ (L.ancestors r.scope.scopeId).1,
      L.FitsAt (amountAt L.committed k + amountAt reserved k) k := by
    intro k hk
    have := hadm.fits k hk
    rwa [hnew, amountOn, if_pos hk, ← add_assoc]
  constructor
  · intro id hid
    have hsum := sumOf_set_new (L.openAmount id) r hfresh
    have hopen : L.openAmount id r = amountOn (L.ancestors r.scope.scopeId).1 r.requested id := by
      rw [openAmount, hadm.status]; rfl
    rw [hopen, ← h.reserved_eq id hid, ← hnew] at hsum
    exact hsum.symm
  · intro id hid
    have hsum := sumOf_set_new (L.settledAmount id)
      (⟨r.operationId, r.idempotencyKey, fingerprint, some r.reservationId, some r, none, none⟩ :
        BudgetOperationRecord) hadm.fresh.operation
    rw [settledAmount, add_zero] at hsum
    exact (h.committed_eq id hid).trans (congrArg _ hsum.symm)
  · intro id hid d
    show amountAt L.committed id d + amountAt reserved id d ≤ maxAmount d
    rcases hat id with hk | hk
    · exact (hfit id hk).1 d
    · rw [hk]; exact h.fits id hid d
  · intro id policy hpolicy
    show policy.limits.Admits (amountAt L.committed id + amountAt reserved id)
    rcases hat id with hk | hk
    · obtain ⟨-, policy', hpolicy', hadmits⟩ := hfit id hk
      obtain rfl := Option.some.inj (hpolicy'.symm.trans hpolicy)
      exact hadmits
    · rw [hk]; exact h.admits id policy hpolicy

/-! ## Settlements -/

section Settlements

variable {reservationId text : String} {r : BudgetReservation} {record : BudgetOperationRecord}
  {s : BudgetSettlement} {e : BudgetEvent} {status : BudgetReservationStatus}
  {reserved committed : PyDict RequiredText BudgetAmounts}

theorem Records.withSettlement (h : Records sha256 L)
    (hc : Closing L reservationId r record s e status) (hkey : strip reservationId = reservationId) :
    Records sha256 (L.withSettlement reservationId (r.withStatus status) record s e.ledgerRevision
      text reserved committed) := by
  have hfound : L.reservations.get? reservationId = some r := hkey ▸ hc.found
  obtain ⟨hrid, record', hrecord', hres, hok, hresok⟩ := h.of_index hfound
  obtain rfl : record = record' := Option.some.inj (hc.record_eq.symm.trans hrecord')
  have hop : record.operationId = r.operationId := hok.id_eq
  have hrev : e.ledgerRevision = L.revision + 1 := hc.revision
  constructor
  · exact nodup_keys_set h.reservations_nodup _ _
  · exact nodup_keys_set h.operations_nodup _ _
  · intro key r' hr'
    rw [BudgetLedger.withSettlement, get?_set] at hr'
    split at hr'
    · cases hr'
      refine ⟨hrid.trans (Eq.symm ‹_›), settledRecord record (r.withStatus status) s, ?_, rfl⟩
      rw [BudgetLedger.withSettlement, hop]
      exact get?_set_self _ _ _
    · rename_i hne
      obtain ⟨hkey', record', hrec', hres'⟩ := h.linked key r' hr'
      refine ⟨hkey', record', ?_, hres'⟩
      have hopne : r'.operationId ≠ r.operationId := fun heq =>
        hne (h.index_unique hfound hr' heq)
      rw [BudgetLedger.withSettlement, hop]
      exact (get?_set_of_ne _ _ hopne).trans hrec'
  · intro op record' hrec'
    rw [BudgetLedger.withSettlement, hop, get?_set] at hrec'
    split at hrec'
    · cases hrec'
      subst op
      obtain ⟨-, -, -, hdec⟩ := of_create_reservation hok.create hres
      refine ⟨hop, settledRecord_create h hc, ?_, by simp [settledRecord, hdec]⟩
      intro r' hr'
      cases hr'
      refine ⟨?_, hresok.scope, hresok.digest, hresok.fingerprint, by simp [settledRecord], ?_⟩
      · show (L.reservations.set reservationId _).get? r.reservationId.val = _
        rw [hrid]
        exact get?_set_self _ _ _
      · intro s' hs'
        cases hs'
        exact hc.settles
    · rename_i hne
      refine (h.record op record' hrec').frame (fun _ _ hs => hs) (fun _ _ _ => rfl)
        (by show L.revision ≤ e.ledgerRevision; omega) fun r' hr' => ?_
      have hidx := ((h.record op record' hrec').reservation r' hr').indexed
      have hcreate := of_create_reservation (h.record op record' hrec').create hr'
      -- another operation cannot own the entry that is written
      have hkne : r'.reservationId.val ≠ reservationId := by
        intro heq
        rw [heq, hfound] at hidx
        cases hidx
        exact hne ((h.record op record' hrec').id_eq.symm.trans hcreate.2.1)
      exact (get?_set_of_ne _ _ hkne).trans hidx
  · intro k o
    rw [BudgetLedger.withSettlement, hop]
    rw [h.idempotency]
    constructor
    · rintro ⟨record', hrec', hk⟩
      by_cases ho : o = r.operationId
      · subst ho
        obtain rfl : record = record' := Option.some.inj (hc.record_eq.symm.trans hrec')
        exact ⟨_, get?_set_self _ _ _, hk⟩
      · exact ⟨record', (get?_set_of_ne _ _ ho).trans hrec', hk⟩
    · rintro ⟨record', hrec', hk⟩
      rw [get?_set] at hrec'
      split at hrec'
      · cases hrec'
        subst o
        exact ⟨record, hc.record_eq, hk⟩
      · exact ⟨record', hrec', hk⟩
  · rw [BudgetLedger.withSettlement, hrev]
    exact hc.revision_le

/-- Nothing was committed by the settlement of a record that can still be closed. -/
theorem Closing.settledAmount_zero (h : Records sha256 L)
    (hc : Closing L reservationId r record s e status) (id : RequiredText) :
    L.settledAmount id record = 0 := by
  unfold settledAmount
  cases hset : record.settlement with
  | none => rfl
  | some old =>
    obtain ⟨-, record', hrecord', hres, -, hresok⟩ := h.of_index hc.found
    obtain rfl : record = record' := Option.some.inj (hc.record_eq.symm.trans hrecord')
    have hafter := (hresok.settled old hset).status
    rw [StatusAfter, hc.before old hset] at hafter
    simp only [hafter.1, amountOn, get_zero]
    split <;> rfl

section

variable (h : L.Totals) (hrec : Records sha256 L)
    (hc : Closing L reservationId r record s e status) (hkey : strip reservationId = reservationId)
    (hreserved : ∀ k, amountAt reserved k +
        (if status.isOpen then 0 else amountOn (L.ancestors r.scope.scopeId).1 r.requested k) =
      amountAt L.reserved k)
include h hrec hc hkey hreserved

theorem Totals.withSettlement (hcommitted : ∀ k, amountAt committed k =
      amountAt L.committed k + amountOn (L.ancestors r.scope.scopeId).1 s.actual k)
    (hfits : ∀ k ∈ L.scopes.keys, ∀ d, amountAt committed k d + amountAt reserved k d ≤ maxAmount d)
    (hadmits : ∀ k policy, L.policies.get? k = some policy →
      policy.limits.Admits (amountAt committed k + amountAt reserved k)) :
    (L.withSettlement reservationId (r.withStatus status) record s e.ledgerRevision text reserved
      committed).Totals := by
  have hfound : L.reservations.get? reservationId = some r := hkey ▸ hc.found
  obtain ⟨-, record', hrecord', -, hok, -⟩ := hrec.of_index hfound
  obtain rfl : record = record' := Option.some.inj (hc.record_eq.symm.trans hrecord')
  refine ⟨?_, ?_, hfits, hadmits⟩
  · intro id hid
    have hsum := sumOf_set_present (L.openAmount id) (r.withStatus status) hfound
    have hold : L.openAmount id r = amountOn (L.ancestors r.scope.scopeId).1 r.requested id := by
      rw [openAmount, if_pos hc.is_open]
    have hnew : L.openAmount id (r.withStatus status) =
        if status.isOpen then amountOn (L.ancestors r.scope.scopeId).1 r.requested id else 0 := rfl
    rw [hold, hnew, ← h.reserved_eq id hid, ← hreserved id] at hsum
    show amountAt reserved id = sumOf (L.openAmount id) (L.reservations.set reservationId _)
    funext d
    have hsum := congrFun hsum d
    cases hs : status.isOpen <;> rw [hs] at hsum <;>
      simp only [if_true, Bool.false_eq_true, if_false, Pi.add_apply, Pi.zero_apply] at hsum <;>
      omega
  · intro id hid
    have hsum := sumOf_set_present (L.settledAmount id)
      (settledRecord record (r.withStatus status) s) hc.record_eq
    have hvalid := hc.settles.valid
    simp only [validateSettlement, bind_eq_ok, require_eq_ok] at hvalid
    obtain ⟨_, -, _, -, _, hscope, -⟩ := hvalid
    have hnew : L.settledAmount id (settledRecord record (r.withStatus status) s) =
        amountOn (L.ancestors r.scope.scopeId).1 s.actual id := by
      rw [settledAmount]
      simp only [settledRecord, hscope]
      rfl
    rw [hc.settledAmount_zero hrec, hnew, add_zero] at hsum
    show amountAt committed id = amountAt L.baselineCommitted id +
      sumOf (L.settledAmount id) (L.operations.set record.operationId _)
    rw [hok.id_eq, hsum, hcommitted, h.committed_eq id hid, add_assoc]

/-- Closing a reservation without an actual amount leaves every total where it was or
lower. -/
theorem Totals.withSettlement_zero (hzero : s.actual = zero) :
    (L.withSettlement reservationId (r.withStatus status) record s e.ledgerRevision text reserved
      L.committed).Totals := by
  have hle : ∀ k d, amountAt reserved k d ≤ amountAt L.reserved k d := by
    intro k d
    rw [← hreserved k]
    exact Nat.le_add_right _ _
  refine h.withSettlement hrec hc hkey hreserved (fun k => ?_) (fun k hk d => ?_)
    (fun k policy hp => ?_)
  · rw [hzero, amountOn, get_zero]
    split <;> simp
  · exact (Nat.add_le_add_left (hle k d) _).trans (h.fits k hk d)
  · exact (h.admits k policy hp).mono fun d => Nat.add_le_add_left (hle k d) _

end

/-- A settlement that fits keeps the totals. -/
theorem Totals.withSettlement_fits (h : L.Totals) (hrec : Records sha256 L)
    (hc : Closing L reservationId r record s e .settled) (hkey : strip reservationId = reservationId)
    (hfreed : Added L r.scope.scopeId r.requested reserved L.reserved)
    (hbooked : Added L r.scope.scopeId s.actual L.committed committed)
    (hfit : L.settlementFitsReservation r s.actual = .ok true) :
    (L.withSettlement reservationId (r.withStatus .settled) record s e.ledgerRevision text reserved
      committed).Totals := by
  have hnew : ∀ k ∈ (L.ancestors r.scope.scopeId).1,
      L.FitsAt (amountAt committed k + amountAt reserved k) k := by
    intro k hk
    obtain ⟨rest, hrest, hfits⟩ := (of_settlementFitsReservation hfit).2 k hk
    have hr := hfreed.amount_eq k
    have hb := hbooked.amount_eq k
    rw [amountOn, if_pos hk] at hr hb
    have heq : amountAt committed k + amountAt reserved k = rest + s.actual.get := by
      funext d
      have hrest := congrFun hrest d
      rw [hr] at hrest
      rw [hb]
      simp only [Pi.add_apply] at hrest ⊢
      omega
    rwa [heq]
  have hold : ∀ k ∉ (L.ancestors r.scope.scopeId).1,
      amountAt committed k = amountAt L.committed k ∧ amountAt reserved k = amountAt L.reserved k := by
    intro k hk
    have hr := hfreed.amount_eq k
    have hb := hbooked.amount_eq k
    rw [amountOn, if_neg hk, add_zero] at hr hb
    exact ⟨hb, hr.symm⟩
  refine h.withSettlement hrec hc hkey (fun k => ?_) hbooked.amount_eq (fun k hk d => ?_)
    (fun k policy hp => ?_)
  · exact (hfreed.amount_eq k).symm
  · by_cases hmem : k ∈ (L.ancestors r.scope.scopeId).1
    · exact (hnew k hmem).1 d
    · rw [(hold k hmem).1, (hold k hmem).2]
      exact h.fits k hk d
  · by_cases hmem : k ∈ (L.ancestors r.scope.scopeId).1
    · obtain ⟨-, policy', hp', hadmits⟩ := hnew k hmem
      obtain rfl := Option.some.inj (hp'.symm.trans hp)
      exact hadmits
    · rw [(hold k hmem).1, (hold k hmem).2]
      exact h.admits k policy hp

end Settlements

/-! ## Registrations -/

section Registrations

variable {scope : BudgetScopeRef} {policy : BudgetPolicy}

/-- What the checks of `register_scope` guarantee for a new scope. -/
structure Registered (L : BudgetLedger) (scope : BudgetScopeRef) (policy : BudgetPolicy) : Prop where
  unknown : L.scopes.get? scope.scopeId = none
  child : scope.scopeType ≠ .run
  run : ∀ root, L.scopes.get? L.rootScopeId = some root → scope.runId = root.runId
  parent : ∃ p, scope.parentScopeId = some p ∧ p ∈ L.scopes.keys
  revision : scope.policyRevision = policy.policyRevision

theorem of_registerCheck (h : L.registerCheck scope policy = .ok false) :
    L.Registered scope policy := by
  unfold registerCheck at h
  split at h
  · simp [bind_eq_ok] at h
  · rename_i hunknown
    simp only [bind_eq_ok, item_eq_ok, require_eq_ok] at h
    obtain ⟨root, hroot, _, hrun, _, hchild, _, ⟨p, hp, hreg⟩, _, hrev, -⟩ := h
    refine ⟨hunknown, hchild, fun root' hroot' => ?_, ⟨p, hp, ?_⟩, hrev⟩
    · obtain rfl := Option.some.inj (hroot.symm.trans hroot')
      exact hrun
    · obtain ⟨parent, hparent⟩ := Option.isSome_iff_exists.mp hreg
      exact mem_scopes_keys hparent

theorem get?_addScope (hreg : L.Registered scope policy) {ν : Type} (d : PyDict RequiredText ν)
    (v : ν) (hid : id ∈ L.scopes.keys) : (d.set scope.scopeId v).get? id = d.get? id := by
  refine get?_set_of_ne d v ?_
  rintro rfl
  exact (get?_eq_none_iff _ _).mp hreg.unknown hid

theorem parentOf_addScope (hreg : L.Registered scope policy) (hid : id ∈ L.scopes.keys) :
    (L.addScope scope policy).parentOf id = L.parentOf id := by
  rw [parentOf, parentOf, addScope, get?_addScope hreg L.scopes scope hid]

theorem ScopeTree.addScope (h : L.ScopeTree) (hreg : L.Registered scope policy) :
    (L.addScope scope policy).ScopeTree := by
  have hnotMem : scope.scopeId ∉ L.scopes.keys := (get?_eq_none_iff _ _).mp hreg.unknown
  have hscopes : (L.addScope scope policy).scopes.keys = L.scopes.keys ++ [scope.scopeId] :=
    keys_set_of_notMem scope hnotMem
  have hcovers : ∀ {ν : Type} (d : PyDict RequiredText ν) (v : ν), L.Covers d →
      (L.addScope scope policy).Covers (d.set scope.scopeId v) := by
    intro ν d v hd id
    rw [hscopes, mem_append, mem_singleton, ← hd id, keys_set]
    split
    · rename_i hmem
      exact absurd ((hd _).mp hmem) hnotMem
    · rw [mem_append, mem_singleton]
  -- a lookup sees the new scope at its id and the old scopes elsewhere
  have hget : ∀ {id found}, (L.addScope scope policy).scopes.get? id = some found →
      (id = scope.scopeId ∧ found = scope) ∨ L.scopes.get? id = some found := by
    intro id found hfound
    rw [BudgetLedger.addScope, get?_set] at hfound
    split at hfound
    · exact .inl ⟨‹_›, (Option.some.inj hfound).symm⟩
    · exact .inr hfound
  obtain ⟨root, hroot, hrootType⟩ := h.root
  have hrootGet : (L.addScope scope policy).scopes.get? L.rootScopeId = some root := by
    rw [BudgetLedger.addScope, get?_addScope hreg _ _ (mem_scopes_keys hroot), hroot]
  constructor
  · exact nodup_keys_set h.nodup _ _
  · intro id found hfound
    rcases hget hfound with ⟨rfl, rfl⟩ | hold
    · rfl
    · exact h.key_eq id found hold
  · rw [hscopes, reverse_append]
    obtain ⟨p, hp, hpmem⟩ := hreg.parent
    refine ⟨.inr ⟨p, mem_reverse.mpr hpmem, ?_⟩, ?_⟩
    · rw [parentOf, BudgetLedger.addScope, get?_set_self, Option.map_some, hp]
    · exact h.grown.congr fun id hid => parentOf_addScope hreg (mem_reverse.mp hid)
  · exact hcovers L.policies policy h.policies
  · exact hcovers L.committed zero h.committed
  · exact hcovers L.baselineCommitted zero h.baseline
  · exact hcovers L.reserved zero h.reserved
  · exact ⟨root, hrootGet, hrootType⟩
  · intro id found hfound htype
    rcases hget hfound with ⟨rfl, rfl⟩ | hold
    · exact absurd htype hreg.child
    · exact h.only_root id found hold htype
  · intro id found root' hfound hroot'
    obtain rfl := Option.some.inj (hrootGet.symm.trans hroot')
    rcases hget hfound with ⟨rfl, rfl⟩ | hold
    · exact hreg.run root hroot
    · exact h.same_run id found root hold hroot
  · intro id found policy' hfound hpolicy'
    rw [BudgetLedger.addScope, get?_set] at hpolicy'
    split at hpolicy'
    · rename_i heq
      cases hpolicy'
      rcases hget hfound with ⟨-, rfl⟩ | hold
      · exact hreg.revision
      · rw [heq, hreg.unknown] at hold
        simp at hold
    · rcases hget hfound with ⟨rfl, -⟩ | hold
      · exact absurd rfl ‹_›
      · exact h.revision id found policy' hold hpolicy'

theorem ancestors_addScope (h : L.ScopeTree) (hreg : L.Registered scope policy)
    (hid : id ∈ L.scopes.keys) :
    ((L.addScope scope policy).ancestors id).1 = (L.ancestors id).1 := by
  obtain ⟨hchain, -, hsub⟩ := h.ancestors_chain hid
  have hchain' := hchain.congr fun y hy => parentOf_addScope hreg (hsub y hy)
  have hid' : id ∈ (L.addScope scope policy).scopes.keys := by
    rw [BudgetLedger.addScope, mem_keys_iff, get?_addScope hreg _ _ hid]
    exact (mem_keys_iff _ _).mp hid
  exact ((h.addScope hreg).ancestors_chain hid').1.unique hchain'

theorem Records.addScope (h : Records sha256 L) (hreg : L.Registered scope policy) :
    Records sha256 (L.addScope scope policy) where
  reservations_nodup := h.reservations_nodup
  operations_nodup := h.operations_nodup
  linked := h.linked
  record op record hrec := by
    have hok := h.record op record hrec
    refine hok.frame (fun id found hfound => ?_) (fun id found hfound => ?_) le_rfl
      fun r hr => (hok.reservation r hr).indexed
    · exact (get?_addScope hreg _ _ (mem_scopes_keys hfound)).trans hfound
    · exact get?_addScope hreg _ _ (mem_scopes_keys hfound)
  idempotency := h.idempotency
  revision_le := h.revision_le

theorem Totals.addScope (h : L.Totals) (htree : L.ScopeTree) (hrec : Records sha256 L)
    (hreg : L.Registered scope policy) : (L.addScope scope policy).Totals := by
  have hnotMem : scope.scopeId ∉ L.scopes.keys := (get?_eq_none_iff _ _).mp hreg.unknown
  have hkeys : (L.addScope scope policy).scopes.keys = L.scopes.keys ++ [scope.scopeId] :=
    keys_set_of_notMem scope hnotMem
  have hnew : ∀ t : PyDict RequiredText BudgetAmounts,
      amountAt (t.set scope.scopeId zero) scope.scopeId = 0 := fun t => by
    rw [amountAt_set, if_pos rfl, get_zero]
  have hne : ∀ {id : RequiredText}, id ∈ L.scopes.keys → id ≠ scope.scopeId :=
    fun hid heq => hnotMem (heq ▸ hid)
  have hold : ∀ (t : PyDict RequiredText BudgetAmounts) {id : RequiredText}, id ∈ L.scopes.keys →
      amountAt (t.set scope.scopeId zero) id = amountAt t id := fun t id hid => by
    rw [amountAt_set, if_neg (hne hid)]
  -- no reservation and no settlement reaches the new scope
  have hon : ∀ {id k : RequiredText} (amount : BudgetAmounts), id ∈ L.scopes.keys →
      amountOn ((L.addScope scope policy).ancestors id).1 amount k =
        if k = scope.scopeId then 0 else amountOn (L.ancestors id).1 amount k := by
    intro id k amount hid
    rw [ancestors_addScope htree hreg hid]
    split
    · subst k
      rw [amountOn, if_neg fun hmem => hnotMem (htree.ancestors_registered hid hmem)]
    · rfl
  have hopen : ∀ k, sumOf ((L.addScope scope policy).openAmount k) L.reservations =
      if k = scope.scopeId then 0 else sumOf (L.openAmount k) L.reservations := by
    intro k
    have hterm : ∀ r ∈ L.reservations.values, (L.addScope scope policy).openAmount k r =
        if k = scope.scopeId then 0 else L.openAmount k r := by
      intro r hr
      obtain ⟨key, hget⟩ := exists_get?_of_mem_values hrec.reservations_nodup hr
      rw [openAmount, openAmount, hon _ (hrec.scope_registered hget)]
      split <;> split <;> rfl
    rw [sumOf_congr _ hterm]
    split
    · simp [sumOf]
    · rfl
  have hsettled : ∀ k, sumOf ((L.addScope scope policy).settledAmount k) L.operations =
      if k = scope.scopeId then 0 else sumOf (L.settledAmount k) L.operations := by
    intro k
    have hterm : ∀ record ∈ L.operations.values, (L.addScope scope policy).settledAmount k record =
        if k = scope.scopeId then 0 else L.settledAmount k record := by
      intro record hr
      obtain ⟨op, hget⟩ := exists_get?_of_mem_values hrec.operations_nodup hr
      rw [settledAmount, settledAmount]
      cases hset : record.settlement with
      | none => exact (ite_self 0).symm
      | some s =>
        obtain ⟨-, -, -, hscope⟩ := hrec.settlement_scope hget hset
        exact hon _ hscope
    rw [sumOf_congr _ hterm]
    split
    · simp [sumOf]
    · rfl
  constructor
  · intro id hid
    show amountAt (L.reserved.set scope.scopeId zero) id = _
    rw [hkeys, mem_append, mem_singleton] at hid
    refine Eq.trans ?_ (hopen id).symm
    rcases hid with hid | rfl
    · rw [hold _ hid, if_neg (hne hid), h.reserved_eq id hid]
    · rw [hnew, if_pos rfl]
  · intro id hid
    show amountAt (L.committed.set scope.scopeId zero) id =
      amountAt (L.baselineCommitted.set scope.scopeId zero) id + _
    rw [hkeys, mem_append, mem_singleton] at hid
    refine Eq.trans ?_ (congrArg _ (hsettled id).symm)
    rcases hid with hid | rfl
    · rw [hold _ hid, hold _ hid, if_neg (hne hid), h.committed_eq id hid]
    · rw [hnew, hnew, if_pos rfl, add_zero]
  · intro id hid d
    show amountAt (L.committed.set scope.scopeId zero) id d +
      amountAt (L.reserved.set scope.scopeId zero) id d ≤ maxAmount d
    rw [hkeys, mem_append, mem_singleton] at hid
    rcases hid with hid | rfl
    · rw [hold _ hid, hold _ hid]; exact h.fits id hid d
    · rw [hnew, hnew]; exact Nat.zero_le _
  · intro id policy' hpolicy'
    show policy'.limits.Admits (amountAt (L.committed.set scope.scopeId zero) id +
      amountAt (L.reserved.set scope.scopeId zero) id)
    rw [BudgetLedger.addScope, get?_set] at hpolicy'
    split at hpolicy'
    · subst id
      rw [hnew, hnew]
      exact ⟨fun _ _ _ => Nat.zero_le _, fun _ _ => Nat.zero_le _⟩
    · rename_i hid
      rw [amountAt_set, amountAt_set, if_neg hid, if_neg hid]
      exact h.admits id policy' hpolicy'

end Registrations

end BudgetLedger

end Budget
