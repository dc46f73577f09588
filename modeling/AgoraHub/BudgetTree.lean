/-
# Booking over the scope tree

The scopes of a ledger form a tree that grows root first, so the walk of
`_ancestors` from a registered scope ends at the root and visits each scope once.
A pass that adds or subtracts an amount over such a walk moves exactly the totals
on it.  The passes that only read collect one value for each scope of the walk.
-/
import AgoraHub.BudgetLedger

namespace Budget

open Fallible List PyDict BudgetAmounts

variable {r : BudgetReservation}

namespace BudgetLedger

/-! ## The scope tree -/

/-- A table has an entry for each registered scope and no other. -/
def Covers {ν : Type} (L : BudgetLedger) (t : PyDict RequiredText ν) : Prop :=
  ∀ id, id ∈ t.keys ↔ id ∈ L.scopes.keys

/-- The scopes of a ledger: one run root, children below registered scopes, and
one entry of every table for each scope. -/
structure ScopeTree (L : BudgetLedger) : Prop where
  nodup : L.scopes.keys.Nodup
  key_eq : ∀ id scope, L.scopes.get? id = some scope → scope.scopeId = id
  grown : Forest.Grown L.parentOf L.scopes.keys.reverse
  policies : L.Covers L.policies
  committed : L.Covers L.committed
  baseline : L.Covers L.baselineCommitted
  reserved : L.Covers L.reserved
  root : ∃ scope, L.scopes.get? L.rootScopeId = some scope ∧ scope.scopeType = .run
  only_root : ∀ id scope, L.scopes.get? id = some scope → scope.scopeType = .run →
    id = L.rootScopeId
  same_run : ∀ id scope root, L.scopes.get? id = some scope →
    L.scopes.get? L.rootScopeId = some root → scope.runId = root.runId
  revision : ∀ id scope policy, L.scopes.get? id = some scope → L.policies.get? id = some policy →
    scope.policyRevision = policy.policyRevision

namespace ScopeTree

variable {L : BudgetLedger}

variable {id : RequiredText}

/-- A registered scope has a chain of registered scopes up to the root. -/
theorem exists_chain (h : L.ScopeTree) (hid : id ∈ L.scopes.keys) :
    ∃ l, Forest.Chain L.parentOf id l ∧ ∀ y ∈ l, y ∈ L.scopes.keys := by
  obtain ⟨l, hl, hsub⟩ := h.grown.exists_chain id (mem_reverse.mpr hid)
  exact ⟨l, hl, fun y hy => mem_reverse.mp (hsub y hy)⟩

/-- `_ancestors` of a registered scope returns its chain. -/
theorem ancestors_chain (h : L.ScopeTree) (hid : id ∈ L.scopes.keys) :
    Forest.Chain L.parentOf id (L.ancestors id).1 ∧ (L.ancestors id).2 = true ∧
      ∀ y ∈ (L.ancestors id).1, y ∈ L.scopes.keys := by
  obtain ⟨l, hl, hsub⟩ := h.exists_chain hid
  have hlen : l.length ≤ L.scopes.length + 1 := by
    have hle := (hl.nodup.subperm fun y hy => hsub y hy).length_le
    rw [PyDict.keys, length_map] at hle
    omega
  have hwalk : L.ancestors id = (l, true) :=
    Forest.walk_of_chain hl _ [] hlen (by simp)
  rw [hwalk]
  exact ⟨hl, rfl, hsub⟩

theorem ancestors_done (h : L.ScopeTree) (hid : id ∈ L.scopes.keys) :
    (L.ancestors id).2 = true := (h.ancestors_chain hid).2.1

theorem ancestors_nodup (h : L.ScopeTree) (hid : id ∈ L.scopes.keys) :
    (L.ancestors id).1.Nodup := (h.ancestors_chain hid).1.nodup

theorem ancestors_registered (h : L.ScopeTree) {y : RequiredText} (hid : id ∈ L.scopes.keys)
    (hy : y ∈ (L.ancestors id).1) : y ∈ L.scopes.keys := (h.ancestors_chain hid).2.2 y hy

theorem self_mem_ancestors (h : L.ScopeTree) (hid : id ∈ L.scopes.keys) :
    id ∈ (L.ancestors id).1 := (h.ancestors_chain hid).1.mem_self

/-- What `_ancestors` yields are the scopes reached by following parent pointers. -/
theorem mem_ancestors_iff (h : L.ScopeTree) {y : RequiredText} (hid : id ∈ L.scopes.keys) :
    y ∈ (L.ancestors id).1 ↔ Relation.ReflTransGen (Forest.Up L.parentOf) id y :=
  (h.ancestors_chain hid).1.mem_iff_reflTransGen

end ScopeTree

/-! ## Totals of a table -/

/-- The amount a table holds for a scope. -/
def amountAt (t : PyDict RequiredText BudgetAmounts) (id : RequiredText) : BudgetDimension → ℕ :=
  (t.get? id).elim 0 BudgetAmounts.get

theorem amountAt_of_get? {t : PyDict RequiredText BudgetAmounts} {id : RequiredText}
    {a : BudgetAmounts} (h : t.get? id = some a) : amountAt t id = a.get := by
  rw [amountAt, h]; rfl

theorem amountAt_set (t : PyDict RequiredText BudgetAmounts) (id k : RequiredText)
    (a : BudgetAmounts) : amountAt (t.set id a) k = if k = id then a.get else amountAt t k := by
  rw [amountAt, get?_set]
  split <;> rfl

/-- The amount to book at `k` when the scopes `ids` are booked. -/
def amountOn (ids : List RequiredText) (amount : BudgetAmounts) (k : RequiredText) :
    BudgetDimension → ℕ :=
  if k ∈ ids then amount.get else 0

/-- One pass over distinct scopes, each of which can take the amount. -/
theorem applyDelta_ok (add : Bool) (amount : BudgetAmounts) :
    ∀ {ids : List RequiredText} {t : PyDict RequiredText BudgetAmounts}, ids.Nodup →
      (∀ id ∈ ids, ∃ a b, t.get? id = some a ∧
        (if add then a.add amount else a.subtract amount) = .ok b) →
      ∃ t', applyDelta add amount ids t = (.ok (), t') := by
  intro ids
  induction ids with
  | nil => intro t _ _; exact ⟨t, rfl⟩
  | cons id ids ih =>
    intro t hnd hok
    rw [nodup_cons] at hnd
    obtain ⟨a, b, ha, hb⟩ := hok id (by simp)
    obtain ⟨t', ht'⟩ := ih (t := t.set id b) hnd.2 (by
      intro k hk
      rw [get?_set_of_ne t b (ne_of_mem_of_not_mem hk hnd.1)]
      exact hok k (mem_cons_of_mem _ hk))
    refine ⟨t', ?_⟩
    rw [applyDelta, ha]
    simp only [hb, ht']

/-- A pass over distinct scopes that ends has moved the totals of all of them. -/
theorem of_applyDelta {add : Bool} {amount : BudgetAmounts} :
    ∀ {ids : List RequiredText} {t t' : PyDict RequiredText BudgetAmounts}, ids.Nodup →
      applyDelta add amount ids t = (.ok (), t') → t'.keys = t.keys ∧
        (∀ k ∉ ids, t'.get? k = t.get? k) ∧
        ∀ k ∈ ids, ∃ a b, t.get? k = some a ∧ t'.get? k = some b ∧
          (if add then a.add amount else a.subtract amount) = .ok b := by
  intro ids
  induction ids with
  | nil =>
    intro t t' _ h
    obtain rfl := (Prod.mk.inj h).2
    exact ⟨rfl, by simp, by simp⟩
  | cons id ids ih =>
    intro t t' hnd h
    rw [nodup_cons] at hnd
    rw [applyDelta] at h
    split at h
    · simp at h
    · rename_i a ha
      split at h
      · simp at h
      · rename_i b hb
        obtain ⟨hkeys, hout, hin⟩ := ih hnd.2 h
        refine ⟨?_, ?_, ?_⟩
        · rw [hkeys, keys_set_of_mem b ((mem_keys_iff t id).mpr ⟨a, ha⟩)]
        · intro k hk
          rw [mem_cons, not_or] at hk
          rw [hout k hk.2, get?_set_of_ne t b hk.1]
        · intro k hk
          rcases mem_cons.mp hk with rfl | hk
          · refine ⟨a, b, ha, ?_, hb⟩
            rw [hout k hnd.1, get?_set_self]
          · obtain ⟨a', b', ha', hb', hop⟩ := hin k hk
            rw [get?_set_of_ne t b (ne_of_mem_of_not_mem hk hnd.1)] at ha'
            exact ⟨a', b', ha', hb', hop⟩

/-- A pass that subtracts only lowers the totals, also when it stops on its way. -/
theorem applyDelta_subtract_le {amount : BudgetAmounts} {ids : List RequiredText} :
    ∀ (t : PyDict RequiredText BudgetAmounts), (applyDelta false amount ids t).2.keys = t.keys ∧
      ∀ k, amountAt (applyDelta false amount ids t).2 k ≤ amountAt t k := by
  induction ids with
  | nil => intro t; exact ⟨rfl, fun _ => le_rfl⟩
  | cons id ids ih =>
    intro t
    rw [applyDelta]
    split
    · exact ⟨rfl, fun _ => le_rfl⟩
    · rename_i a ha
      split
      · exact ⟨rfl, fun _ => le_rfl⟩
      · rename_i b hb
        obtain ⟨hkeys, hle⟩ := ih (t.set id b)
        have hsub : b.get + amount.get = a.get := subtract_eq_ok.mp (by simpa using hb)
        refine ⟨hkeys.trans (keys_set_of_mem b ((mem_keys_iff t id).mpr ⟨a, ha⟩)),
          fun k => (hle k).trans ?_⟩
        rw [amountAt_set]
        split
        · subst k
          rw [amountAt_of_get? ha, ← hsub]
          exact le_self_add
        · exact le_rfl

theorem Covers.exists_get {L : BudgetLedger} {ν : Type} {t : PyDict RequiredText ν}
    (h : L.Covers t) {id : RequiredText} (hid : id ∈ L.scopes.keys) : ∃ a, t.get? id = some a :=
  (mem_keys_iff t id).mp ((h id).mpr hid)

section Passes

variable {L : BudgetLedger} {t : PyDict RequiredText BudgetAmounts} {id : RequiredText}
  (amount : BudgetAmounts)

/-- `t` is `t₀` with `amount` added on the ancestors of `id`. -/
structure Added (L : BudgetLedger) (id : RequiredText) (amount : BudgetAmounts)
    (t₀ t : PyDict RequiredText BudgetAmounts) : Prop where
  keys : t.keys = t₀.keys
  amount_eq : ∀ k, amountAt t k = amountAt t₀ k + amountOn (L.ancestors id).1 amount k

variable {amount}

/-- A pass that ends without raising has booked the amount. -/
theorem added_of_applyDeltaUp (h : L.ScopeTree) (hid : id ∈ L.scopes.keys) {add : Bool}
    {t' : PyDict RequiredText BudgetAmounts} (hpass : L.applyDeltaUp id add amount t = (.ok (), t')) :
    if add then Added L id amount t t' else Added L id amount t' t := by
  rw [applyDeltaUp] at hpass
  split at hpass
  · simp at hpass
  · rename_i final hdelta
    simp only [h.ancestors_done hid, if_true] at hpass
    obtain rfl := (Prod.mk.inj hpass).2
    obtain ⟨hkeys, hout, hin⟩ := of_applyDelta (h.ancestors_nodup hid) hdelta
    have hamount : ∀ k, if add then amountAt final k = amountAt t k + amountOn (L.ancestors id).1 amount k
        else amountAt t k = amountAt final k + amountOn (L.ancestors id).1 amount k := by
      intro k
      by_cases hk : k ∈ (L.ancestors id).1
      · obtain ⟨a, b, ha, hb, hop⟩ := hin k hk
        rw [amountOn, if_pos hk, amountAt_of_get? ha, amountAt_of_get? hb]
        cases add with
        | true => exact add_eq_ok.mp hop
        | false => exact (subtract_eq_ok.mp hop).symm
      · rw [amountOn, if_neg hk, add_zero, add_zero, amountAt, hout k hk, amountAt]
        exact (ite_self _).mpr rfl
    cases add with
    | true => exact ⟨hkeys, hamount⟩
    | false => exact ⟨hkeys.symm, hamount⟩

variable (amount)

/-- A pass that adds an amount which fits on every ancestor. -/
theorem applyDeltaUp_add (h : L.ScopeTree) (hid : id ∈ L.scopes.keys) (hcovers : L.Covers t)
    (hfit : ∀ k ∈ (L.ancestors id).1, ∀ d, amountAt t k d + amount.get d ≤ maxAmount d) :
    ∃ t', L.applyDeltaUp id true amount t = (.ok (), t') ∧ Added L id amount t t' := by
  obtain ⟨t', ht'⟩ := applyDelta_ok true amount (h.ancestors_nodup hid) (t := t) (by
    intro k hk
    obtain ⟨a, ha⟩ := hcovers.exists_get (h.ancestors_registered hid hk)
    have hfit' := hfit k hk
    rw [amountAt_of_get? ha] at hfit'
    obtain ⟨b, hb, -⟩ := exists_add hfit'
    exact ⟨a, b, ha, by simpa using hb⟩)
  have hpass : L.applyDeltaUp id true amount t = (.ok (), t') := by
    rw [applyDeltaUp, ht']
    simp only [h.ancestors_done hid, if_true]
  exact ⟨t', hpass, by simpa using added_of_applyDeltaUp h hid hpass⟩

/-- A pass that subtracts an amount which every ancestor holds. -/
theorem applyDeltaUp_subtract (h : L.ScopeTree) (hid : id ∈ L.scopes.keys) (hcovers : L.Covers t)
    (hheld : ∀ k ∈ (L.ancestors id).1, amount.get ≤ amountAt t k) :
    ∃ t', L.applyDeltaUp id false amount t = (.ok (), t') ∧ Added L id amount t' t := by
  obtain ⟨t', ht'⟩ := applyDelta_ok false amount (h.ancestors_nodup hid) (t := t) (by
    intro k hk
    obtain ⟨a, ha⟩ := hcovers.exists_get (h.ancestors_registered hid hk)
    have hheld' := hheld k hk
    rw [amountAt_of_get? ha] at hheld'
    refine ⟨a, ⟨fun d => a.get d - amount.get d, fun d =>
      (Nat.sub_le _ _).trans (a.le_max d)⟩, ha, ?_⟩
    have : ∀ d, amount.get d ≤ a.get d := hheld'
    simp [BudgetAmounts.subtract, this])
  have hpass : L.applyDeltaUp id false amount t = (.ok (), t') := by
    rw [applyDeltaUp, ht']
    simp only [h.ancestors_done hid, if_true]
  exact ⟨t', hpass, by simpa using added_of_applyDeltaUp h hid hpass⟩

end Passes

/-! ## The invariant of the ledger -/

/-! ## Totals -/

/-- What a reservation holds at the scope `id`: its request, while it is open and
`id` is its scope or above it. -/
def openAmount (L : BudgetLedger) (id : RequiredText) (r : BudgetReservation) :
    BudgetDimension → ℕ :=
  if r.status.isOpen then amountOn (L.ancestors r.scope.scopeId).1 r.requested id else 0

/-- What an operation has settled at the scope `id`. -/
def settledAmount (L : BudgetLedger) (id : RequiredText) (record : BudgetOperationRecord) :
    BudgetDimension → ℕ :=
  match record.settlement with
  | none => 0
  | some s => amountOn (L.ancestors s.scope.scopeId).1 s.actual id

/-- The totals of every scope are the sums over its subtree and stay within its
limits. -/
structure Totals (L : BudgetLedger) : Prop where
  reserved_eq : ∀ id ∈ L.scopes.keys,
    amountAt L.reserved id = sumOf (L.openAmount id) L.reservations
  committed_eq : ∀ id ∈ L.scopes.keys,
    amountAt L.committed id =
      amountAt L.baselineCommitted id + sumOf (L.settledAmount id) L.operations
  fits : ∀ id ∈ L.scopes.keys, ∀ d,
    amountAt L.committed id d + amountAt L.reserved id d ≤ maxAmount d
  admits : ∀ id policy, L.policies.get? id = some policy →
    policy.limits.Admits (amountAt L.committed id + amountAt L.reserved id)

/-! ## Records -/

/-- The status a reservation has after a settlement. -/
def StatusAfter (s : BudgetSettlement) (status : BudgetReservationStatus) : Prop :=
  match s.outcome with
  | .succeeded | .failed => status = .settled
  | .cancelled => s.actual = BudgetAmounts.zero ∧
      (status = .released ∨
        status = .expired ∧ s.reasonCode = some BudgetReasonCode.reservationExpired.text)
  | .indeterminate => s.actual = BudgetAmounts.zero ∧ status = .indeterminate

/-- A settlement belongs to a reservation: `_validate_settlement` accepts it and the
status is the one it leaves. -/
structure Settles (r : BudgetReservation) (s : BudgetSettlement) : Prop where
  valid : validateSettlement r s = .ok ()
  status : StatusAfter s r.status

/-- What holds of the reservation of an operation. -/
structure ReservationOk (sha256 : String → HexDigest) (L : BudgetLedger)
    (record : BudgetOperationRecord) (r : BudgetReservation) : Prop where
  indexed : L.reservations.get? r.reservationId.val = some r
  scope : L.scopes.get? r.scope.scopeId = some r.scope
  digest : ∀ policy, L.policies.get? r.scope.scopeId = some policy →
    r.policyDigest = policy.digest sha256
  fingerprint : record.fingerprint = operationFingerprint sha256 r.scope r.requested r.policyDigest
  undecided : record.settlement = none → r.status = .reserved
  settled : ∀ s, record.settlement = some s → Settles r s

/-- What holds of the denial of an operation. -/
structure DecisionOk (L : BudgetLedger) (d : BudgetDecision) : Prop where
  denied : d.allowed = false
  positive : 1 ≤ d.ledgerRevision
  revision_le : d.ledgerRevision ≤ L.revision
  usage_revision : d.projectedUsage.ledgerRevision = d.ledgerRevision

/-- What holds of an operation record. -/
structure RecordOk (sha256 : String → HexDigest) (L : BudgetLedger) (operationId : RequiredText)
    (record : BudgetOperationRecord) : Prop where
  id_eq : record.operationId = operationId
  create : record.create = .ok record
  reservation : ∀ r, record.reservation = some r → ReservationOk sha256 L record r
  decision : ∀ d, record.decision = some d → DecisionOk L d

/-- The index, the records and the idempotency keys agree. -/
structure Records (sha256 : String → HexDigest) (L : BudgetLedger) : Prop where
  reservations_nodup : L.reservations.keys.Nodup
  operations_nodup : L.operations.keys.Nodup
  linked : ∀ key r, L.reservations.get? key = some r → r.reservationId.val = key ∧
    ∃ record, L.operations.get? r.operationId = some record ∧ record.reservation = some r
  record : ∀ operationId record, L.operations.get? operationId = some record →
    RecordOk sha256 L operationId record
  idempotency : ∀ key operationId, L.idempotencyIndex.get? key = some operationId ↔
    ∃ record, L.operations.get? operationId = some record ∧ record.idempotencyKey = key
  revision_le : L.revision ≤ maxBudgetInteger

/-- The invariant of the ledger. -/
structure LedgerInv (sha256 : String → HexDigest) (L : BudgetLedger) : Prop where
  tree : L.ScopeTree
  records : Records sha256 L
  totals : L.Totals

/-! ## Consequences -/

section Consequences

variable {sha256 : String → HexDigest} {L : BudgetLedger}

theorem mem_scopes_keys {id : RequiredText} {scope : BudgetScopeRef}
    (h : L.scopes.get? id = some scope) : id ∈ L.scopes.keys :=
  (mem_keys_iff _ _).mpr ⟨scope, h⟩

/-- The record behind an entry of the reservation index. -/
theorem Records.of_index (h : Records sha256 L) {key : String}
    (hr : L.reservations.get? key = some r) :
    r.reservationId.val = key ∧ ∃ record, L.operations.get? r.operationId = some record ∧
      record.reservation = some r ∧ RecordOk sha256 L r.operationId record ∧
      ReservationOk sha256 L record r := by
  obtain ⟨hkey, record, hrec, hres⟩ := h.linked key r hr
  have hok := h.record _ _ hrec
  exact ⟨hkey, record, hrec, hres, hok, hok.reservation r hres⟩

theorem Records.scope_registered (h : Records sha256 L) {key : String}
    (hr : L.reservations.get? key = some r) : r.scope.scopeId ∈ L.scopes.keys := by
  obtain ⟨-, record, -, -, -, hok⟩ := h.of_index hr
  exact mem_scopes_keys hok.scope

/-- The scope of a settlement in a record is registered. -/
theorem Records.settlement_scope (h : Records sha256 L) {operationId : RequiredText}
    {record : BudgetOperationRecord} {s : BudgetSettlement}
    (hrec : L.operations.get? operationId = some record) (hs : record.settlement = some s) :
    ∃ r, record.reservation = some r ∧ s.scope = r.scope ∧ s.scope.scopeId ∈ L.scopes.keys := by
  have hok := h.record _ _ hrec
  obtain ⟨r, hr⟩ := BudgetOperationRecord.of_create_settlement hok.create hs
  have hres := hok.reservation r hr
  have hvalid := (hres.settled s hs).valid
  simp only [validateSettlement, bind_eq_ok, require_eq_ok] at hvalid
  obtain ⟨-, -, -, -, -, hscope, -⟩ := hvalid
  exact ⟨r, hr, hscope, hscope ▸ mem_scopes_keys hres.scope⟩

/-- An open reservation is held on each of its ancestors. -/
theorem LedgerInv.requested_le (h : LedgerInv sha256 L) {key : String}
    (hr : L.reservations.get? key = some r) (hopen : r.status.isOpen = true) :
    ∀ k ∈ (L.ancestors r.scope.scopeId).1, r.requested.get ≤ amountAt L.reserved k := by
  intro k hk d
  have hreg := h.tree.ancestors_registered (h.records.scope_registered hr) hk
  have hmem : r ∈ L.reservations.values := mem_values_of_get? hr
  rw [h.totals.reserved_eq k hreg, sumOf]
  have hself : L.openAmount k r = r.requested.get := by
    rw [openAmount, if_pos hopen, amountOn, if_pos hk]
  have hle := List.single_le_sum (l := L.reservations.values.map (L.openAmount k))
    (fun x _ => zero_le) _ (List.mem_map.mpr ⟨r, hmem, rfl⟩)
  rw [hself] at hle
  exact hle d

end Consequences

end BudgetLedger

end Budget
