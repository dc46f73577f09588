/-
# The invariant of the quota store

What the quota tables satisfy between two transactions: every row can be read back,
the generations of a key count up from one and all but the last have failed, and what
a run, a tenant or an artifact class uses stays within its limit.
-/
import AgoraHub.ResultQuota

namespace ResultQuota

open Fallible GraphResult List

variable {limits : QuotaLimits} {d : QuotaDigests} {store store' : QuotaStore}

/-! ## Readable rows -/

/-- A row that `_reservation_from_row` accepts. -/
def Readable (d : QuotaDigests) (row : QuotaRow) : Prop :=
  reservationFromRow d row = .ok (row.reservation, row.outcome)

/-- The fields of a reservation as `reserve` builds them. -/
structure Reserved (d : QuotaDigests) (r : ResultQuotaReservation) : Prop where
  generation : 1 ≤ r.generation
  objects : 1 ≤ r.objectCount
  id_eq : r.reservationId = d.reservationId r.identity

theorem readable_pendingRow {r : ResultQuotaReservation} (h : Reserved d r) (now : ℤ) :
    Readable d (pendingRow d r now) := by
  show (require (1 ≤ r.generation ∧ 1 ≤ r.objectCount ∧ r.reservationId = d.reservationId r.identity ∧
    d.reservation r = d.reservation r) _ >>= _) = _
  rw [require_of_pos _ ⟨h.generation, h.objects, h.id_eq, rfl⟩]
  rfl

variable {row : QuotaRow}

theorem Readable.reserved (h : Readable d row) :
    Reserved d row.reservation ∧ d.reservation row.reservation = row.reservationChecksum := by
  obtain ⟨hchecks, -⟩ := check_inv h
  obtain ⟨hgeneration, hobjects, hid, hchecksum⟩ := of_require hchecks
  exact ⟨⟨hgeneration, hobjects, hid⟩, hchecksum⟩

/-- A readable settled row has amounts that fit and the checksum of its settlement. -/
theorem Readable.settlement {outcome : ResultMaterializationOutcome} (h : Readable d row)
    (hout : row.outcome = some outcome) :
    ∃ actual objects, row.actualBytes = some actual ∧ row.actualObjects = some objects ∧
      AmountsFit row.reservation actual objects outcome ∧ row.settlementChecksum =
        some (d.settlement (settlementPayload row.reservation actual objects outcome)) := by
  obtain ⟨-, h⟩ := check_inv h
  rw [hout] at h
  obtain ⟨actual, hactual, h⟩ := bind_inv h
  obtain ⟨objects, hobjects, h⟩ := bind_inv h
  obtain ⟨settledAt, -, h⟩ := bind_inv h
  obtain ⟨hfit, -⟩ := check_inv h
  obtain ⟨hfit, -, hchecksum⟩ := of_require hfit
  exact ⟨actual, objects, orRaise_eq_ok.mp hactual, orRaise_eq_ok.mp hobjects, hfit, hchecksum⟩

/-- A row settled no earlier than it was created can be read. -/
theorem Readable.settled (h : Readable d row) {actual objects : ℕ}
    {outcome : ResultMaterializationOutcome} {settledAt : ℤ}
    (hfit : AmountsFit row.reservation actual objects outcome) (htime : row.createdAt ≤ settledAt) :
    Readable d (row.settled d actual objects outcome settledAt) := by
  obtain ⟨hreserved, hchecksum⟩ := h.reserved
  show (require (1 ≤ row.reservation.generation ∧ 1 ≤ row.reservation.objectCount ∧
    row.reservation.reservationId = d.reservationId row.reservation.identity ∧
    d.reservation row.reservation = row.reservationChecksum) _ >>= _) = _
  rw [check_of_pos ⟨hreserved.generation, hreserved.objects, hreserved.id_eq, hchecksum⟩]
  show (require (AmountsFit row.reservation actual objects outcome ∧ row.createdAt ≤ settledAt ∧
    some (d.settlement (settlementPayload row.reservation actual objects outcome)) =
      some (d.settlement (settlementPayload row.reservation actual objects outcome))) _ >>= _) = _
  rw [require_of_pos _ ⟨hfit, htime, rfl⟩]
  rfl

/-! ## What a scope uses -/

/-- The bytes that a row charges. -/
def QuotaRow.bytes (row : QuotaRow) : ℕ :=
  match row.outcome with
  | none => row.reservation.reservedBytes
  | some .succeeded => row.actualBytes.getD 0
  | some _ => 0

/-- The objects that a row charges. -/
def QuotaRow.objects (row : QuotaRow) : ℕ :=
  match row.outcome with
  | none => row.reservation.objectCount
  | some .succeeded => row.actualObjects.getD 0
  | some _ => 0

/-- What a row charges in a scope. -/
def QuotaScope.charge (scope : QuotaScope) (measure : QuotaRow → ℕ) (row : QuotaRow) : ℕ :=
  if scope.covers row.reservation then measure row else 0

/-- What a scope uses: the charges of its rows. -/
def used (measure : QuotaRow → ℕ) (rows : List QuotaRow) (scope : QuotaScope) : ℕ :=
  (rows.map (scope.charge measure)).sum

@[simp] theorem used_nil (measure : QuotaRow → ℕ) (scope : QuotaScope) :
    used measure [] scope = 0 := rfl

@[simp] theorem used_cons (measure : QuotaRow → ℕ) (row : QuotaRow) (rows : List QuotaRow)
    (scope : QuotaScope) :
    used measure (row :: rows) scope = scope.charge measure row + used measure rows scope := by
  simp [used]

theorem used_concat (measure : QuotaRow → ℕ) (rows : List QuotaRow) (row : QuotaRow)
    (scope : QuotaScope) :
    used measure (rows ++ [row]) scope = used measure rows scope + scope.charge measure row := by
  simp [used]

/-- One turn of the loop of `_quota_usage` over a readable row. -/
theorem addRow_eq_ok (h : Readable d row) (sum : PersistenceBudgetSnapshot) : addRow d sum row =
      .ok ⟨sum.materializedBytes + row.bytes, sum.artifactCount + row.objects⟩ := by
  rw [addRow, h, ok_bind]
  rcases hout : row.outcome with _ | outcome
  · simp [QuotaRow.bytes, QuotaRow.objects, hout]
  · obtain ⟨actual, objects, hactual, hobjects, -⟩ := h.settlement hout
    cases outcome <;> simp [QuotaRow.bytes, QuotaRow.objects, hout, hactual, hobjects]

/-- `_quota_usage` over readable rows sums their charges. -/
theorem quotaUsage_eq_ok {rows : List QuotaRow} (h : ∀ row ∈ rows, Readable d row)
    (scope : QuotaScope) : quotaUsage d rows scope =
      .ok ⟨used QuotaRow.bytes rows scope, used QuotaRow.objects rows scope⟩ := by
  suffices hsum : ∀ sum : PersistenceBudgetSnapshot,
      (rows.filter fun row => scope.covers row.reservation).foldlM (addRow d) sum =
        .ok ⟨sum.materializedBytes + used QuotaRow.bytes rows scope,
          sum.artifactCount + used QuotaRow.objects rows scope⟩ by
    simpa [quotaUsage] using hsum ⟨0, 0⟩
  induction rows with
  | nil => intro sum; rfl
  | cons row rows ih =>
    intro sum
    have ih := ih fun other hother => h other (mem_cons_of_mem row hother)
    by_cases hcovers : scope.covers row.reservation = true
    · rw [filter_cons, if_pos hcovers, foldlM_cons, addRow_eq_ok (h row mem_cons_self), ok_bind, ih]
      simp [QuotaScope.charge, hcovers, Nat.add_assoc]
    · rw [filter_cons, if_neg hcovers, ih]
      simp [QuotaScope.charge, hcovers]

/-! ## The invariant -/

/-- The invariant of the quota tables. -/
structure QuotaInv (limits : QuotaLimits) (d : QuotaDigests) (store : QuotaStore) : Prop where
  readable : ∀ row ∈ store.rows, Readable d row
  ids : (store.rows.map QuotaRow.id).Nodup
  generations : ∀ key, ∃ n,
    (store.rowsOf key).map (fun row => row.reservation.generation) = List.range' 1 n
  superseded : ∀ row ∈ store.rows, ∀ later ∈ store.rows,
    row.reservation.toQuotaKey = later.reservation.toQuotaKey →
      row.reservation.generation < later.reservation.generation → row.outcome = some .failed
  bytes_le : ∀ scope, used QuotaRow.bytes store.rows scope ≤ (limits.of scope).materializedBytes
  objects_le : ∀ scope, used QuotaRow.objects store.rows scope ≤ (limits.of scope).artifactCount

theorem quotaInv_empty (limits : QuotaLimits) (d : QuotaDigests) :
    QuotaInv limits d QuotaStore.empty := by
  constructor
  · simp [QuotaStore.empty]
  · simp [QuotaStore.empty]
  · exact fun _ => ⟨0, rfl⟩
  · simp [QuotaStore.empty]
  · exact fun _ => Nat.zero_le _
  · exact fun _ => Nat.zero_le _

/-! ## The rows of a key -/

variable {key : QuotaKey}

theorem mem_rowsOf :
    row ∈ store.rowsOf key ↔ row ∈ store.rows ∧ row.reservation.toQuotaKey = key := by
  simp [QuotaStore.rowsOf]

/-- The latest row of a key is a row of the key, and no row of the key is later. -/
theorem of_latest (h : store.latest key = some row) :
    row ∈ store.rows ∧ row.reservation.toQuotaKey = key ∧
      ∀ other ∈ store.rows, other.reservation.toQuotaKey = key →
        other.reservation.generation ≤ row.reservation.generation := by
  obtain ⟨hmem, hkey⟩ := mem_rowsOf.mp (argmax_mem h)
  refine ⟨hmem, hkey, fun other hother hother' => ?_⟩
  exact le_of_mem_argmax (f := fun row : QuotaRow => row.reservation.generation)
    (mem_rowsOf.mpr ⟨hother, hother'⟩) h

theorem rowsOf_eq_nil (h : store.latest key = none) : store.rowsOf key = [] :=
  argmax_eq_none.mp h

/-- The generation of the latest row is the number of rows of its key. -/
theorem QuotaInv.generation_latest (hinv : QuotaInv limits d store)
    (h : store.latest key = some row) : row.reservation.generation = (store.rowsOf key).length := by
  obtain ⟨hmem, hkey, hmax⟩ := of_latest h
  obtain ⟨n, hn⟩ := hinv.generations key
  have hlength : (store.rowsOf key).length = n := by
    have := congrArg List.length hn
    simpa using this
  have hle : row.reservation.generation ≤ n := by
    have hrow : row.reservation.generation ∈ List.range' 1 n :=
      hn ▸ mem_map.mpr ⟨row, mem_rowsOf.mpr ⟨hmem, hkey⟩, rfl⟩
    have := mem_range'_1.mp hrow
    omega
  have hge : n ≤ row.reservation.generation := by
    have hpos : 1 ≤ n := by
      have hlen : 0 < (store.rowsOf key).length :=
        length_pos_of_mem (mem_rowsOf.mpr ⟨hmem, hkey⟩)
      omega
    have hlast : n ∈ (store.rowsOf key).map fun row => row.reservation.generation := by
      rw [hn]
      exact mem_range'_1.mpr (by omega)
    obtain ⟨other, hother, hgen⟩ := mem_map.mp hlast
    obtain ⟨hother, hother'⟩ := mem_rowsOf.mp hother
    exact hgen ▸ hmax other hother hother'
  omega

/-- When the latest row of a key has failed, all its rows have. -/
theorem QuotaInv.failed_of_latest (hinv : QuotaInv limits d store)
    (h : store.latest key = some row) (hfailed : row.outcome = some .failed) :
    ∀ other ∈ store.rowsOf key, other.outcome = some .failed := by
  obtain ⟨hmem, hkey, hmax⟩ := of_latest h
  intro other hother
  obtain ⟨hother, hother'⟩ := mem_rowsOf.mp hother
  rcases Nat.lt_or_eq_of_le (hmax other hother hother') with hlt | heq
  · exact hinv.superseded other hother row hmem (hother'.trans hkey.symm) hlt
  · -- generations of a key are distinct, so it is the latest row itself
    have hids : QuotaRow.id other = QuotaRow.id row := by
      have hid := (hinv.readable other hother).reserved.1.id_eq
      have hid' := (hinv.readable row hmem).reserved.1.id_eq
      have hidentity : other.reservation.identity = row.reservation.identity := by
        rw [ResultQuotaReservation.identity, ResultQuotaReservation.identity, heq, hother', hkey]
      show other.reservation.reservationId = row.reservation.reservationId
      rw [hid, hid', hidentity]
    rw [inj_on_of_nodup_map hinv.ids hother hmem hids]
    exact hfailed

end ResultQuota
