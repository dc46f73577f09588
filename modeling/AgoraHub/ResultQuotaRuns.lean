/-
# Quotas along runs

What a transaction of the quota store can do to its rows, the invariant after any run
of transactions whose settlements are not dated before their reservations, and what
the invariant gives: the limits, the generations, settlements that stay, and keys that
can be reserved again.
-/
import AgoraHub.ResultQuotaInvariant
import AgoraHub.StepRuns

namespace ResultQuota

open Fallible GraphResult List KeyedList QuotaStore
open QuotaStore (empty)

variable {actual : ℕ}

section Runs

variable {limits : QuotaLimits} {d : QuotaDigests} {store store' : QuotaStore}

/-! ## Changes of the rows -/

/-- A reservation that may be added to the rows. -/
structure Admitted (limits : QuotaLimits) (d : QuotaDigests) (store : QuotaStore)
    (r : ResultQuotaReservation) : Prop where
  reserved : Reserved d r
  generation : r.generation = (store.rowsOf r.toQuotaKey).length + 1
  failed : ∀ other ∈ store.rowsOf r.toQuotaKey, other.outcome = some .failed
  fresh : r.reservationId ∉ store.rows.map QuotaRow.id
  room : ∀ scope : QuotaScope, scope.covers r = true →
    Room (limits.of scope) ⟨used QuotaRow.bytes store.rows scope,
      used QuotaRow.objects store.rows scope⟩ r.reservedBytes r.objectCount

/-- What one transaction does to the rows. -/
inductive RowChange (limits : QuotaLimits) (d : QuotaDigests) (store : QuotaStore) :
    List QuotaRow → Prop where
  | kept : RowChange limits d store store.rows
  | reserved {r : ResultQuotaReservation} (now : ℤ) (admitted : Admitted limits d store r) :
      RowChange limits d store (store.rows ++ [pendingRow d r now])
  | settled {row : QuotaRow} {actual objects : ℕ} {outcome : ResultMaterializationOutcome}
      {settledAt : ℤ} (mem : row ∈ store.rows) (pending : row.outcome = none)
      (fit : AmountsFit row.reservation actual objects outcome) (time : row.createdAt ≤ settledAt) :
      RowChange limits d store (KeyedList.replace QuotaRow.id store.rows
        (row.settled d actual objects outcome settledAt))

/-- The invariant is about the rows. -/
theorem QuotaInv.of_rows (hinv : QuotaInv limits d store) (h : store'.rows = store.rows) :
    QuotaInv limits d store' := by
  have hof : ∀ key, store'.rowsOf key = store.rowsOf key := by
    intro key
    rw [rowsOf, h, rowsOf]
  constructor
  · rw [h]; exact hinv.readable
  · rw [h]; exact hinv.ids
  · intro key
    rw [hof]
    exact hinv.generations key
  · rw [h]; exact hinv.superseded
  · rw [h]; exact hinv.bytes_le
  · rw [h]; exact hinv.objects_le

variable {r : ResultQuotaReservation}

/-- A new reservation keeps the invariant. -/
theorem QuotaInv.insertRow (hinv : QuotaInv limits d store) (h : Admitted limits d store r)
    (now : ℤ) (hrows : store'.rows = store.rows ++ [pendingRow d r now]) :
    QuotaInv limits d store' := by
  -- the reservation comes behind those of its key
  have hof : ∀ key, store'.rowsOf key =
      store.rowsOf key ++ if r.toQuotaKey = key then [pendingRow d r now] else [] := by
    intro key
    rw [rowsOf, hrows, filter_append, rowsOf]
    congr 1
    by_cases hkey : r.toQuotaKey = key <;> simp [pendingRow, hkey]
  constructor
  · rw [hrows]
    intro row hrow
    rcases mem_append.mp hrow with hold | hnew
    · exact hinv.readable row hold
    · rw [mem_singleton.mp hnew]
      exact readable_pendingRow h.reserved now
  · rw [hrows]
    apply nodup_map_concat hinv.ids
    intro old hold heq
    have hid : old.id = r.reservationId := heq
    exact h.fresh (hid ▸ mem_map_of_mem hold)
  · intro key
    rw [hof]
    obtain ⟨n, hn⟩ := hinv.generations key
    by_cases hkey : r.toQuotaKey = key
    · subst hkey
      have hlength : (store.rowsOf r.toQuotaKey).length = n := by
        have := congrArg List.length hn
        simpa using this
      refine ⟨n + 1, ?_⟩
      rw [if_pos rfl, map_append, hn, range'_1_concat]
      simp only [map_cons, map_nil, pendingRow, h.generation, hlength]
      congr 2
      omega
    · refine ⟨n, ?_⟩
      rw [if_neg hkey, append_nil, hn]
  · rw [hrows]
    intro row hrow later hlater hkey hlt
    rcases mem_append.mp hrow with hold | hnew
    · rcases mem_append.mp hlater with hlater | hlater
      · exact hinv.superseded row hold later hlater hkey hlt
      · rw [mem_singleton.mp hlater] at hkey
        exact h.failed row (mem_rowsOf.mpr ⟨hold, hkey⟩)
    · -- nothing is later than the new reservation
      exfalso
      rw [mem_singleton.mp hnew] at hkey hlt
      have hgen : r.generation < later.reservation.generation := hlt
      rcases mem_append.mp hlater with hlater | hlater
      · obtain ⟨n, hn⟩ := hinv.generations r.toQuotaKey
        have hlength : (store.rowsOf r.toQuotaKey).length = n := by
          have := congrArg List.length hn
          simpa using this
        have hmem : later.reservation.generation ∈ List.range' 1 n :=
          hn ▸ mem_map.mpr ⟨later, mem_rowsOf.mpr ⟨hlater, hkey.symm⟩, rfl⟩
        have := mem_range'_1.mp hmem
        have := h.generation
        omega
      · rw [mem_singleton.mp hlater] at hgen
        exact absurd hgen (lt_irrefl _)
  · intro scope
    rw [hrows, used_concat, QuotaScope.charge]
    split
    · exact (h.room scope ‹_›).1
    · exact hinv.bytes_le scope
  · intro scope
    rw [hrows, used_concat, QuotaScope.charge]
    split
    · exact (h.room scope ‹_›).2
    · exact hinv.objects_le scope

variable {row : QuotaRow} {outcome : ResultMaterializationOutcome}

variable {objects : ℕ}

/-- A settlement charges no more than its reservation. -/
theorem charge_settled_le (hpending : row.outcome = none) {settledAt : ℤ}
    (hfit : AmountsFit row.reservation actual objects outcome) (scope : QuotaScope) :
    scope.charge QuotaRow.bytes (row.settled d actual objects outcome settledAt) ≤
        scope.charge QuotaRow.bytes row ∧
      scope.charge QuotaRow.objects (row.settled d actual objects outcome settledAt) ≤
        scope.charge QuotaRow.objects row := by
  obtain ⟨hactual, hobjects, -⟩ := hfit
  unfold QuotaScope.charge
  show (if scope.covers row.reservation then _ else _) ≤ _ ∧
    (if scope.covers row.reservation then _ else _) ≤ _
  split
  · cases outcome <;>
      simp [QuotaRow.bytes, QuotaRow.objects, QuotaRow.settled, hpending, hactual, hobjects]
  · exact ⟨le_refl 0, le_refl 0⟩

/-- A settlement keeps the invariant. -/
theorem QuotaInv.settleRow (hinv : QuotaInv limits d store) {settledAt : ℤ}
    (hmem : row ∈ store.rows) (hpending : row.outcome = none)
    (hfit : AmountsFit row.reservation actual objects outcome) (htime : row.createdAt ≤ settledAt)
    (hrows : store'.rows = KeyedList.replace QuotaRow.id store.rows
      (row.settled d actual objects outcome settledAt)) : QuotaInv limits d store' := by
  have hid : (row.settled d actual objects outcome settledAt).id = row.id := rfl
  -- a settled row never counts for more than the pending one
  have hsum : ∀ (measure : QuotaRow → ℕ) (scope : QuotaScope),
      scope.charge measure (row.settled d actual objects outcome settledAt) ≤
        scope.charge measure row →
      used measure store'.rows scope ≤ used measure store.rows scope := by
    intro measure scope hle
    have hreplace := sum_replace (scope.charge measure) hinv.ids hmem hid
    rw [used, used, hrows]
    omega
  constructor
  · rw [hrows]
    intro other hother
    rcases mem_replace hother with rfl | hold
    · exact (hinv.readable row hmem).settled hfit htime
    · exact hinv.readable other hold
  · rw [hrows, map_key_replace]
    exact hinv.ids
  · intro key
    -- the reservations stay, so the generations do
    have hgenerations : (store'.rowsOf key).map (fun row => row.reservation.generation) =
        (store.rowsOf key).map (fun row => row.reservation.generation) := by
      rw [rowsOf, hrows, rowsOf, KeyedList.replace, filter_map, map_map]
      have hsame : ∀ other ∈ store.rows,
          (if other.id = (row.settled d actual objects outcome settledAt).id then
            row.settled d actual objects outcome settledAt else other).reservation =
              other.reservation := by
        intro other hother
        split
        · rename_i heq
          rw [inj_on_of_nodup_map hinv.ids hother hmem heq]
          rfl
        · rfl
      have hfilter : store.rows.filter ((fun row => decide (row.reservation.toQuotaKey = key)) ∘
          fun other => if other.id = (row.settled d actual objects outcome settledAt).id then
            row.settled d actual objects outcome settledAt else other) =
          store.rows.filter fun row => decide (row.reservation.toQuotaKey = key) := by
        apply filter_congr
        intro other hother
        simp only [Function.comp_apply, hsame other hother]
      rw [hfilter]
      apply map_congr_left
      intro other hother
      simp only [Function.comp_apply, hsame other (mem_of_mem_filter hother)]
    rw [hgenerations]
    exact hinv.generations key
  · rw [hrows]
    intro other hother later hlater hkey hlt
    have hold : ∀ x, x ∈ KeyedList.replace QuotaRow.id store.rows
        (row.settled d actual objects outcome settledAt) →
        ∃ y ∈ store.rows, y.reservation = x.reservation ∧
          (x = y ∨ y = row ∧ x = row.settled d actual objects outcome settledAt) := by
      intro x hx
      rcases mem_replace hx with rfl | hx
      · exact ⟨row, hmem, rfl, .inr ⟨rfl, rfl⟩⟩
      · exact ⟨x, hx, rfl, .inl rfl⟩
    obtain ⟨y, hy, hyres, hcase⟩ := hold other hother
    obtain ⟨z, hz, hzres, -⟩ := hold later hlater
    rw [← hyres, ← hzres] at hkey hlt
    have hfailed := hinv.superseded y hy z hz hkey hlt
    rcases hcase with rfl | ⟨rfl, -⟩
    · exact hfailed
    · -- a pending row is the latest of its key
      rw [hpending] at hfailed
      simp at hfailed
  · exact fun scope => (hsum _ scope (charge_settled_le hpending hfit scope).1).trans
      (hinv.bytes_le scope)
  · exact fun scope => (hsum _ scope (charge_settled_le hpending hfit scope).2).trans
      (hinv.objects_le scope)

theorem QuotaInv.change (hinv : QuotaInv limits d store)
    (h : RowChange limits d store store'.rows) : QuotaInv limits d store' := by
  generalize hrows : store'.rows = rows at h
  cases h with
  | kept => exact hinv.of_rows hrows
  | reserved now admitted => exact hinv.insertRow admitted now hrows
  | settled mem pending fit time => exact hinv.settleRow mem pending fit time hrows

/-! ## What each call does -/

/-- What a scope uses, as `_quota_usage` reports it. -/
def usageOf (store : QuotaStore) (scope : QuotaScope) : PersistenceBudgetSnapshot :=
  ⟨used QuotaRow.bytes store.rows scope, used QuotaRow.objects store.rows scope⟩

/-- There is room for a reservation in each of its three scopes. -/
def Fits (limits : QuotaLimits) (store : QuotaStore) (q : ReserveRequest)
    (requested objects : ℕ) : Prop :=
  Room limits.perRun (usageOf store (.run q.tenantId q.runId)) requested objects ∧
    Room limits.perTenant (usageOf store (.tenant q.tenantId)) requested objects ∧
    Room limits.perClass (usageOf store (.artifactClass q.tenantId q.artifactClass)) requested objects

instance (q : ReserveRequest) (requested objects : ℕ) :
    Decidable (Fits limits store q requested objects) :=
  inferInstanceAs (Decidable (_ ∧ _))

/-- With readable rows, `reserve` admits exactly what fits. -/
theorem admit_eq (hinv : QuotaInv limits d store) (now : ℤ) (q : ReserveRequest)
    (requested objects generation : ℕ) :
    admitRequest limits d store now q requested objects generation =
      if Fits limits store q requested objects then do
        let store' ← store.insert (pendingRow d (q.reservation d requested objects generation) now)
        .ok (some (q.reservation d requested objects generation), store')
      else .ok (none, store) := by
  simp only [admitRequest, quotaUsage_eq_ok hinv.readable, ok_bind]
  rfl

variable {q : ReserveRequest} {generation requested : ℕ}

/-- A reservation that fits has room in every scope that covers it. -/
theorem Fits.room (h : Fits limits store q requested objects) {scope : QuotaScope}
    (hcovers : scope.covers (q.reservation d requested objects generation) = true) :
    Room (limits.of scope) (usageOf store scope) requested objects := by
  obtain ⟨hrun, htenant, hclass⟩ := h
  cases scope with
  | run tenantId runId =>
    obtain ⟨rfl, rfl⟩ : q.tenantId = tenantId ∧ q.runId = runId := of_decide_eq_true hcovers
    exact hrun
  | tenant tenantId =>
    obtain rfl : q.tenantId = tenantId := of_decide_eq_true hcovers
    exact htenant
  | artifactClass tenantId kind =>
    obtain ⟨rfl, rfl⟩ : q.tenantId = tenantId ∧ q.artifactClass = kind := of_decide_eq_true hcovers
    exact hclass

variable {answer : Option ResultQuotaReservation}

/-- An admission that returns leaves the rows alone or adds the reservation. -/
theorem of_admit (hinv : QuotaInv limits d store) {now : ℤ}
    (hgeneration : generation = (store.rowsOf q.toQuotaKey).length + 1)
    (hfailed : ∀ other ∈ store.rowsOf q.toQuotaKey, other.outcome = some .failed)
    (hobjects : 1 ≤ objects)
    (h : admitRequest limits d store now q requested objects generation = .ok (answer, store')) :
    RowChange limits d store store'.rows := by
  rw [admit_eq hinv] at h
  split at h
  · rename_i hfits
    obtain ⟨store₁, hinsert, h⟩ := bind_inv h
    cases h
    obtain ⟨hnew, hstore⟩ := check_inv hinsert
    rw [← ok_inj hstore]
    refine .reserved now ⟨⟨?_, hobjects, rfl⟩, hgeneration, hfailed, (of_require hnew).1, ?_⟩
    · show 1 ≤ generation
      omega
    · exact fun scope hcovers => hfits.room hcovers
  · obtain ⟨-, rfl⟩ := Prod.mk.inj (ok_inj h)
    exact .kept

/-- What a `reserve` that returns does to the rows. -/
theorem of_reserve (hinv : QuotaInv limits d store) {now : ℤ}
    (h : reserve limits d store now q = .ok (answer, store')) :
    RowChange limits d store store'.rows := by
  obtain ⟨requested, -, h⟩ := bind_inv h
  obtain ⟨objects, hobjects, h⟩ := bind_inv h
  have hpositive := (of_positiveInt hobjects).2
  cases hlatest : store.latest q.toQuotaKey with
  | none =>
    rw [hlatest] at h
    have hnil := rowsOf_eq_nil hlatest
    exact of_admit hinv (by rw [hnil]; rfl) (by rw [hnil]; simp) hpositive h
  | some row =>
    rw [hlatest] at h
    have hread := hinv.readable row (of_latest hlatest).1
    simp only at h
    rw [hread, ok_bind] at h
    obtain ⟨-, h⟩ := check_inv h
    split at h
    · rename_i hfailed
      exact of_admit hinv (by rw [hinv.generation_latest hlatest])
        (hinv.failed_of_latest hlatest hfailed) hpositive h
    · obtain ⟨-, rfl⟩ := Prod.mk.inj (ok_inj h)
      exact .kept

theorem rows_of_putUsage {usage : Option GraphArtifactUsageFact}
    (h : store.putUsage usage = .ok store') : store'.rows = store.rows := by
  cases usage with
  | none => rw [← ok_inj h]
  | some fact =>
    obtain ⟨facts, -, h⟩ := bind_inv h
    rw [← ok_inj h]

variable {e : ResultQuotaReconciliationEvidence}

theorem rows_of_putEvidence (h : store.putEvidence e = .ok store') : store'.rows = store.rows := by
  unfold putEvidence at h
  split at h
  · obtain ⟨-, h⟩ := check_inv h
    rw [← ok_inj h]
  · rw [← ok_inj h]

/-- The condition on a step: a settlement of a pending reservation does not read a clock
before the time the reservation was made. -/
def SettledInOrder (store : QuotaStore) (step : QuotaStep) : Prop :=
  match step.call with
  | .settle q => ∀ row ∈ store.rows, row.reservation = q.reservation → row.outcome = none →
    row.createdAt ≤ step.clock
  | _ => True

instance (store : QuotaStore) (step : QuotaStep) : Decidable (SettledInOrder store step) := by
  unfold SettledInOrder
  split <;> infer_instance

/-- What a `settle` that returns does to the rows. -/
theorem of_settle (hinv : QuotaInv limits d store) {now : ℤ} {q : SettleRequest} {u : Unit}
    (hclock : ∀ row ∈ store.rows, row.reservation = q.reservation → row.outcome = none →
      row.createdAt ≤ now)
    (h : settle d store now q = .ok (u, store')) : RowChange limits d store store'.rows := by
  obtain ⟨actual, -, h⟩ := bind_inv h
  obtain ⟨objects, -, h⟩ := bind_inv h
  obtain ⟨hfit, h⟩ := check_inv h
  obtain ⟨-, h⟩ := check_inv h
  obtain ⟨row, hrow, h⟩ := bind_inv h
  obtain ⟨hmem, -⟩ := mem_of_find? (orRaise_eq_ok.mp hrow)
  rw [hinv.readable row hmem, ok_bind] at h
  obtain ⟨hstored, h⟩ := check_inv h
  have hreservation := of_require hstored
  cases hout : row.outcome with
  | some outcome =>
    rw [hout] at h
    obtain ⟨-, h⟩ := check_inv h
    obtain ⟨store₁, hput, h⟩ := bind_inv h
    obtain ⟨-, rfl⟩ := Prod.mk.inj (ok_inj h)
    rw [rows_of_putUsage hput]
    exact .kept
  | none =>
    rw [hout] at h
    obtain ⟨store₁, hput, h⟩ := bind_inv h
    obtain ⟨-, rfl⟩ := Prod.mk.inj (ok_inj h)
    rw [rows_of_putUsage hput]
    refine .settled hmem hout ?_ (hclock row hmem hreservation hout)
    rw [hreservation]
    exact of_require hfit

/-- What a `reconcile_pending` that returns does to the rows. -/
theorem of_reconcilePending (hinv : QuotaInv limits d store)
    (h : reconcilePending d store e = .ok (r, store')) : RowChange limits d store store'.rows := by
  obtain ⟨row, hrow, h⟩ := bind_inv h
  obtain ⟨hmem, -⟩ := mem_of_find? (orRaise_eq_ok.mp hrow)
  rw [hinv.readable row hmem, ok_bind] at h
  dsimp only at h
  split at h
  · obtain ⟨-, rfl⟩ := Prod.mk.inj (ok_inj h)
    exact .kept
  · rename_i hpending
    obtain ⟨htime, h⟩ := check_inv h
    obtain ⟨store₁, hput, h⟩ := bind_inv h
    have hrows := rows_of_putEvidence hput
    split at h
    · obtain ⟨-, rfl⟩ := Prod.mk.inj (ok_inj h)
      show RowChange limits d store (KeyedList.replace QuotaRow.id store₁.rows _)
      rw [hrows]
      exact .settled hmem (not_not.mp hpending) ⟨Nat.zero_le _, Nat.zero_le _, fun _ => ⟨rfl, rfl⟩⟩
        (of_require htime)
    · obtain ⟨-, rfl⟩ := Prod.mk.inj (ok_inj h)
      rw [hrows]
      exact .kept

/-- What a step does to the rows, whether its call returns or raises. -/
theorem QuotaStep.rowChange (hinv : QuotaInv limits d store) {step : QuotaStep}
    (hclock : SettledInOrder store step) :
    RowChange limits d store (step.apply limits d store).rows := by
  obtain ⟨call, clock⟩ := step
  have hafter : ∀ {α : Type} (x : Except GraphArtifactResultError (α × QuotaStore)),
      (∀ a store', x = .ok (a, store') → RowChange limits d store store'.rows) →
      RowChange limits d store (store.after x).rows := by
    intro α x hx
    rcases x with e | ⟨a, store'⟩
    · exact .kept
    · exact hx a store' rfl
  cases call with
  | reserve q => exact hafter _ fun _ _ h => of_reserve hinv h
  | settle q => exact hafter _ fun _ _ h => of_settle hinv hclock h
  | reconcilePending e => exact hafter _ fun _ _ h => of_reconcilePending hinv h

/-- The invariant holds after every run whose settlements are in order. -/
theorem quotaInv_run {steps : List QuotaStep}
    (hclock : StepRuns.Along (QuotaStep.apply limits d) SettledInOrder empty steps) :
    QuotaInv limits d (StepRuns.run (QuotaStep.apply limits d) empty steps) :=
  StepRuns.run_invariant (fun _ _ hinv h => hinv.change (QuotaStep.rowChange hinv h))
    (quotaInv_empty limits d) hclock

/-! ## What a store guarantees -/

/-- A reservation that counts: it is pending or its result was stored. -/
def QuotaRow.Live (row : QuotaRow) : Prop := row.outcome = none ∨ row.outcome = some .succeeded

/-- The request that asks for a reservation again. -/
def ResultQuotaReservation.request (r : ResultQuotaReservation) : ReserveRequest where
  toQuotaKey := r.toQuotaKey
  graphId := r.graphId
  nodeId := r.nodeId
  artifactClass := r.artifactClass
  retentionClass := r.retentionClass
  policyVersion := r.policyVersion
  requestedBytes := r.reservedBytes
  objectCount := r.objectCount

/-- The settlement that a row records. -/
structure SettledAs (row : QuotaRow) (actual objects : ℕ)
    (outcome : ResultMaterializationOutcome) : Prop where
  outcome_eq : row.outcome = some outcome
  bytes_eq : row.actualBytes = some actual
  objects_eq : row.actualObjects = some objects

/-- The guarantees of the quota tables. -/
structure QuotaSound (limits : QuotaLimits) (d : QuotaDigests) (store : QuotaStore) : Prop where
  /-- Every row is accepted by `_reservation_from_row`. -/
  readable : ∀ row ∈ store.rows, Readable d row
  /-- What `_quota_usage` reports at each level is within the limit. -/
  usage : ∀ scope, quotaUsage d store.rows scope = .ok (usageOf store scope)
  bytes_le : ∀ scope, (usageOf store scope).materializedBytes ≤ (limits.of scope).materializedBytes
  objects_le : ∀ scope, (usageOf store scope).artifactCount ≤ (limits.of scope).artifactCount
  /-- Reservations that failed do not count. -/
  failed_uncounted : ∀ scope, quotaUsage d
    (store.rows.filter fun row => decide (row.outcome ≠ some .failed)) scope =
      quotaUsage d store.rows scope
  /-- The generations of a key are 1, 2, ..., n, and at most one of them is live. -/
  generations : ∀ key, ∃ n,
    (store.rowsOf key).map (fun row => row.reservation.generation) = List.range' 1 n
  live_unique : ∀ key, ∀ row ∈ store.rowsOf key, ∀ row' ∈ store.rowsOf key,
    row.Live → row'.Live → row = row'
  /-- No step changes a settled row. -/
  settled_kept : ∀ row ∈ store.rows, row.outcome ≠ none → ∀ step, SettledInOrder store step →
    row ∈ (QuotaStep.apply limits d store step).rows
  /-- A repeated settlement is accepted and leaves the rows alone. -/
  settle_again : ∀ row ∈ store.rows, ∀ (actual objects : ℕ) outcome,
    SettledAs row actual objects outcome → ∀ now usageFact store',
      (SettleRequest.mk row.reservation actual objects outcome usageFact).validateUsage actual
        objects = .ok () → store.putUsage usageFact = .ok store' →
      settle d store now ⟨row.reservation, actual, objects, outcome, usageFact⟩ =
        .ok ((), store') ∧ store'.rows = store.rows
  /-- A different settlement is refused. -/
  settle_other : ∀ row ∈ store.rows, ∀ (actual objects : ℕ) outcome,
    SettledAs row actual objects outcome → ∀ now (q : SettleRequest),
      q.reservation = row.reservation →
      (q.actualBytes ≠ actual ∨ q.objectCount ≠ objects ∨ q.outcome ≠ outcome) →
      ∃ e, settle d store now q = .error e
  /-- Evidence of absence settles the reservation, as failed if it was pending. -/
  reconciled : ∀ row ∈ store.rows, ∀ e r store', e.reservationId = row.id →
    e.provesAbsence = true → reconcilePending d store e = .ok (r, store') →
    ∃ row' ∈ store'.rows, row'.reservation = row.reservation ∧
      row'.outcome = some (row.outcome.getD .failed)
  /-- A key whose last reservation has not failed is answered with that reservation. -/
  reserve_same : ∀ key row, store.latest key = some row → row.outcome ≠ some .failed →
    ∀ now, reserve limits d store now row.reservation.request = .ok (some row.reservation, store)
  /-- A key whose last reservation has failed can be reserved again, where there is room. -/
  reserve_again : ∀ key row, store.latest key = some row → row.outcome = some .failed →
    ∀ r, r = row.reservation.request.reservation d row.reservation.reservedBytes
        row.reservation.objectCount (row.reservation.generation + 1) →
      r.reservationId ∉ store.rows.map QuotaRow.id → ∀ now,
      reserve limits d store now row.reservation.request =
        if Fits limits store row.reservation.request row.reservation.reservedBytes
          row.reservation.objectCount
        then .ok (some r, { store with rows := store.rows ++ [pendingRow d r now] })
        else .ok (none, store)

section

variable (hinv : QuotaInv limits d store)

include hinv

/-- Reservations that failed charge nothing. -/
theorem QuotaInv.failed_uncounted (scope : QuotaScope) :
    quotaUsage d (store.rows.filter fun row => decide (row.outcome ≠ some .failed)) scope =
      quotaUsage d store.rows scope := by
  have hsum : ∀ measure : QuotaRow → ℕ,
      (∀ row : QuotaRow, row.outcome = some .failed → measure row = 0) →
      ∀ rows : List QuotaRow,
        used measure (rows.filter fun row => decide (row.outcome ≠ some .failed)) scope =
          used measure rows scope := by
    intro measure hzero rows
    induction rows with
    | nil => rfl
    | cons row rows ih =>
      by_cases hfailed : row.outcome = some .failed
      · rw [filter_cons_of_neg (by simpa using hfailed), ih, used_cons, QuotaScope.charge,
          hzero row hfailed, ite_self, Nat.zero_add]
      · rw [filter_cons_of_pos (by simpa using hfailed), used_cons, used_cons, ih]
  rw [quotaUsage_eq_ok hinv.readable, quotaUsage_eq_ok fun row hrow =>
    hinv.readable row (mem_of_mem_filter hrow)]
  rw [hsum QuotaRow.bytes fun row h => by simp [QuotaRow.bytes, h],
    hsum QuotaRow.objects fun row h => by simp [QuotaRow.objects, h]]

/-- Two live rows of a key are the same. -/
theorem QuotaInv.live_unique (key : QuotaKey)
    (row row' : QuotaRow) (hrow : row ∈ store.rowsOf key) (hrow' : row' ∈ store.rowsOf key)
    (hlive : row.Live) (hlive' : row'.Live) : row = row' := by
  obtain ⟨hmem, hkey⟩ := mem_rowsOf.mp hrow
  obtain ⟨hmem', hkey'⟩ := mem_rowsOf.mp hrow'
  have hnot : ∀ x : QuotaRow, x.Live → x.outcome ≠ some .failed := by
    rintro x (hx | hx) <;> rw [hx] <;> simp
  have hsame := hkey.trans hkey'.symm
  rcases Nat.lt_trichotomy row.reservation.generation row'.reservation.generation with
    hlt | heq | hgt
  · exact absurd (hinv.superseded row hmem row' hmem' hsame hlt) (hnot row hlive)
  · have hid := (hinv.readable row hmem).reserved.1.id_eq
    have hid' := (hinv.readable row' hmem').reserved.1.id_eq
    have hidentity : row.reservation.identity = row'.reservation.identity := by
      rw [ResultQuotaReservation.identity, ResultQuotaReservation.identity, heq, hsame]
    apply inj_on_of_nodup_map hinv.ids hmem hmem'
    show row.reservation.reservationId = row'.reservation.reservationId
    rw [hid, hid', hidentity]
  · exact absurd (hinv.superseded row' hmem' row hmem hsame.symm hgt) (hnot row' hlive')

/-- A change of the rows keeps the settled ones. -/
theorem QuotaInv.settled_kept {rows : List QuotaRow}
    (h : RowChange limits d store rows) (hmem : row ∈ store.rows) (hsettled : row.outcome ≠ none) :
    row ∈ rows := by
  cases h with
  | kept => exact hmem
  | reserved now admitted => exact mem_append_left _ hmem
  | @settled pendingRow _ _ _ _ hpendingMem hpending _ _ =>
    apply mem_replace_iff.mpr
    refine .inr ⟨hmem, fun hid => hsettled ?_⟩
    have hsame : row.id = pendingRow.id := hid
    rw [inj_on_of_nodup_map hinv.ids hmem hpendingMem hsame]
    exact hpending

/-- What `settle` finds under the id of a row. -/
theorem QuotaInv.find?_row (hmem : row ∈ store.rows) :
    store.find? row.reservation.reservationId = some row :=
  find?_of_mem hinv.ids hmem

/-- A repeated settlement is accepted. -/
theorem QuotaInv.settle_again (hmem : row ∈ store.rows) (h : SettledAs row actual objects outcome)
    (now : ℤ) {usageFact : Option GraphArtifactUsageFact}
    (hvalid : (SettleRequest.mk row.reservation actual objects outcome usageFact).validateUsage
      actual objects = .ok ()) (hput : store.putUsage usageFact = .ok store') :
    settle d store now ⟨row.reservation, actual, objects, outcome, usageFact⟩ =
      .ok ((), store') := by
  obtain ⟨actual', objects', hactual, hobjects, hfit, hchecksum⟩ :=
    (hinv.readable row hmem).settlement h.outcome_eq
  obtain rfl : actual' = actual := Option.some.inj (hactual.symm.trans h.bytes_eq)
  obtain rfl : objects' = objects := Option.some.inj (hobjects.symm.trans h.objects_eq)
  have hread := hinv.readable row hmem
  rw [Readable, h.outcome_eq] at hread
  simp only [settle, nonNegativeInt_ofNat, ok_bind, require_of_pos _ hfit, hvalid,
    hinv.find?_row hmem, orRaise_some, hread]
  rw [check_of_pos trivial, check_of_pos ⟨trivial, hactual, hobjects, hchecksum⟩, hput, ok_bind]

/-- A different settlement is refused. -/
theorem QuotaInv.settle_other (hmem : row ∈ store.rows) (h : SettledAs row actual objects outcome)
    (now : ℤ) {q : SettleRequest} (hreservation : q.reservation = row.reservation)
    (hother : q.actualBytes ≠ actual ∨ q.objectCount ≠ objects ∨ q.outcome ≠ outcome) :
    ∃ e, settle d store now q = .error e := by
  rcases hresult : settle d store now q with e | ⟨u, store'⟩
  · exact ⟨e, rfl⟩
  · exfalso
    obtain ⟨asked, hasked, hresult⟩ := bind_inv hresult
    obtain ⟨askedObjects, haskedObjects, hresult⟩ := bind_inv hresult
    iterate 2 rcases check_inv hresult with ⟨-, hresult⟩
    rw [hreservation, hinv.find?_row hmem, orRaise_some, ok_bind, hinv.readable row hmem, ok_bind,
      h.outcome_eq] at hresult
    obtain ⟨-, hresult⟩ := check_inv hresult
    obtain ⟨hsame, -⟩ := check_inv hresult
    obtain ⟨hout, hactual, hobjects, -⟩ := of_require hsame
    have hvalue : ∀ {value : ℤ} {field : String} {n : ℕ}, nonNegativeInt value field = .ok n →
        value = n := by
      intro value field n hvalue
      unfold nonNegativeInt at hvalue
      split at hvalue
      · have := ok_inj hvalue
        omega
      · simp at hvalue
    rcases hother with hother | hother | hother
    · apply hother
      rw [hvalue hasked, Option.some.inj (hactual.symm.trans h.bytes_eq)]
    · apply hother
      rw [hvalue haskedObjects, Option.some.inj (hobjects.symm.trans h.objects_eq)]
    · exact hother hout.symm

/-- Evidence of absence settles the reservation. -/
theorem QuotaInv.reconciled (hmem : row ∈ store.rows)
    (hid : e.reservationId = row.id) (habsent : e.provesAbsence = true)
    (h : reconcilePending d store e = .ok (r, store')) :
    ∃ row' ∈ store'.rows, row'.reservation = row.reservation ∧
      row'.outcome = some (row.outcome.getD .failed) := by
  have hfound : store.find? e.reservationId = some row := by
    rw [hid]
    exact hinv.find?_row hmem
  rw [reconcilePending, hfound, orRaise_some, ok_bind, hinv.readable row hmem, ok_bind] at h
  dsimp only at h
  split at h
  · rename_i hsettled
    obtain ⟨-, rfl⟩ := Prod.mk.inj (ok_inj h)
    obtain ⟨outcome, hout⟩ := Option.ne_none_iff_exists'.mp hsettled
    exact ⟨row, hmem, rfl, by rw [hout]; rfl⟩
  · rename_i hpending
    obtain ⟨-, h⟩ := check_inv h
    obtain ⟨store₁, hput, h⟩ := bind_inv h
    obtain ⟨-, rfl⟩ := Prod.mk.inj (ok_inj h)
    refine ⟨row.settled d 0 0 .failed e.observedAt, ?_, rfl, ?_⟩
    · apply mem_replace_iff.mpr
      refine .inl ⟨rfl, ?_⟩
      rw [rows_of_putEvidence hput]
      show row.id ∈ store.rows.map QuotaRow.id
      exact mem_map_of_mem hmem
    · rw [not_not.mp hpending]
      rfl

/-- `reserve` with the arguments of the latest reservation of a key, after its checks. -/
theorem QuotaInv.reserve_latest {key : QuotaKey} (hlatest : store.latest key = some row) (now : ℤ) :
    reserve limits d store now row.reservation.request = if row.outcome = some .failed then
        admitRequest limits d store now row.reservation.request row.reservation.reservedBytes
          row.reservation.objectCount (row.reservation.generation + 1)
      else .ok (some row.reservation, store) := by
  obtain ⟨hmem, hkey, -⟩ := of_latest hlatest
  have hread := hinv.readable row hmem
  have hobjects : positiveInt row.reservation.request.objectCount "quota.object_count" =
      .ok row.reservation.objectCount := positiveInt_ofNat hread.reserved.1.objects _
  have hbytes : nonNegativeInt row.reservation.request.requestedBytes "quota.requested_bytes" =
      .ok row.reservation.reservedBytes := nonNegativeInt_ofNat _ _
  have hfound : store.latest row.reservation.request.toQuotaKey = some row := by
    show store.latest row.reservation.toQuotaKey = _
    rw [hkey, hlatest]
  simp only [reserve, hbytes, ok_bind, hobjects, hfound]
  rw [hread, ok_bind]
  rw [check_of_pos ⟨rfl, rfl, rfl, rfl, rfl, rfl, rfl⟩]

/-- A failed key can be reserved again, where there is room. -/
theorem QuotaInv.reserve_again {key : QuotaKey}
    (hlatest : store.latest key = some row) (hfailed : row.outcome = some .failed)
    (hr : r = row.reservation.request.reservation d row.reservation.reservedBytes
      row.reservation.objectCount (row.reservation.generation + 1))
    (hfresh : r.reservationId ∉ store.rows.map QuotaRow.id) (now : ℤ) :
    reserve limits d store now row.reservation.request =
      if Fits limits store row.reservation.request row.reservation.reservedBytes
        row.reservation.objectCount
      then .ok (some r, { store with rows := store.rows ++ [pendingRow d r now] })
      else .ok (none, store) := by
  rw [hinv.reserve_latest hlatest, if_pos hfailed, admit_eq hinv, ← hr]
  split
  · have hidentity : (pendingRow d r now).reservation.identity ∉
        store.rows.map fun old => old.reservation.identity := by
      intro hold
      obtain ⟨old, hold, heq⟩ := mem_map.mp hold
      have hkey : old.reservation.toQuotaKey = key := by
        have hsame : old.reservation.toQuotaKey = r.toQuotaKey :=
          congrArg ReservationIdentity.toQuotaKey heq
        rw [hsame, hr]
        exact (of_latest hlatest).2.1
      have hgeneration : old.reservation.generation = row.reservation.generation + 1 := by
        have hsame : old.reservation.generation = r.generation :=
          congrArg ReservationIdentity.generation heq
        rw [hsame, hr]
        rfl
      have := (of_latest hlatest).2.2 old hold hkey
      omega
    rw [QuotaStore.insert, check_of_pos ⟨hfresh, hidentity⟩]
    rfl
  · rfl

/-- The invariant gives the guarantees. -/
theorem QuotaInv.sound : QuotaSound limits d store where
  readable := hinv.readable
  usage := quotaUsage_eq_ok hinv.readable
  bytes_le := hinv.bytes_le
  objects_le := hinv.objects_le
  failed_uncounted := hinv.failed_uncounted
  generations := hinv.generations
  live_unique := fun key row hrow row' hrow' => hinv.live_unique key row row' hrow hrow'
  settled_kept := fun _ hmem hsettled _ hclock =>
    hinv.settled_kept (QuotaStep.rowChange hinv hclock) hmem hsettled
  settle_again := fun _ hmem _ _ _ h now _ _ hvalid hput =>
    ⟨hinv.settle_again hmem h now hvalid hput, rows_of_putUsage hput⟩
  settle_other := fun _ hmem _ _ _ h now _ hreservation hother =>
    hinv.settle_other hmem h now hreservation hother
  reconciled := fun _ hmem _ _ _ hid habsent h => hinv.reconciled hmem hid habsent h
  reserve_same := fun _ _ hlatest hnot now => by
    rw [hinv.reserve_latest hlatest, if_neg hnot]
  reserve_again := fun _ _ hlatest hfailed _ hr hfresh now =>
    hinv.reserve_again hlatest hfailed hr hfresh now

end

/-- After every run of transactions on a new database, in any order and with any clock
readings, the guarantees hold, if no settlement of a pending reservation read a clock
before the time the reservation was made. -/
theorem quotaSound_of_settledInOrder (limits : QuotaLimits) (d : QuotaDigests)
    (steps : List QuotaStep)
    (hclock : StepRuns.Along (QuotaStep.apply limits d) SettledInOrder empty steps) :
    QuotaSound limits d (StepRuns.run (QuotaStep.apply limits d) empty steps) :=
  (quotaInv_run hclock).sound

end Runs

/-! ## A clock that is set back -/

namespace Sample

/-- The default limits. -/
def limits : QuotaLimits where
  perRun := ⟨500 * 1024 * 1024, 200⟩
  perTenant := ⟨50 * 1024 * 1024 * 1024, 20000⟩
  perClass := ⟨20 * 1024 * 1024 * 1024, 10000⟩
  positive := by decide
  fit := by decide

/-- The digests of the three texts that the run below hashes. -/
def digests : QuotaDigests where
  identity _ := .ofNat 0x30a21ad7f0fab1e17bf25475774c53a3c471e81e015146e099011b1780ecffd4
  reservation _ := .ofNat 0x7b2570f7660c5e611704df8645f686ad5abfc19a4130eab93766b90c3d6886b1
  settlement _ := .ofNat 0xb470c3c6757fc1e64a3a7bb73bc7fc51b142b55a8fe68df0dc288003526a55dc

/-- A request for 60 bytes in the given run. -/
def request (runId : String) : ReserveRequest where
  tenantId := "tenant-1"
  runId := runId
  reservationKey := "quota://tenant-1/first"
  graphId := "graph-1"
  nodeId := "node-1"
  artifactClass := .evidence
  retentionClass := .evidence
  policyVersion := "graph-artifact-policy@1"
  requestedBytes := 60
  objectCount := 1

/-- Reserve at the time 10 and settle at the given time. -/
def reserveThenSettle (settledAt : ℤ) : List QuotaStep :=
  [⟨.reserve (request "run-1"), 10⟩,
    ⟨.settle ⟨(request "run-1").reservation digests 60 1 1, 40, 1, .succeeded, none⟩, settledAt⟩]

/-- The store after the run. -/
def storeAfter (settledAt : ℤ) : QuotaStore :=
  StepRuns.run (QuotaStep.apply limits digests) empty (reserveThenSettle settledAt)

/-- With a clock that goes forward the guarantees hold. -/
theorem quotaSound_forward : QuotaSound limits digests (storeAfter 11) :=
  quotaSound_of_settledInOrder limits digests (reserveThenSettle 11) (by decide +kernel)

/-- With a clock that is set back between the two calls the row cannot be read, and another run
of the tenant cannot reserve. -/
theorem not_quotaSound_backward : ¬ QuotaSound limits digests (storeAfter 9) ∧
    reserve limits digests (storeAfter 9) 12 (request "run-2") = .error unreadable := by
  have hrun : (∃ row ∈ (storeAfter 9).rows, ¬ Readable digests row) ∧
      reserve limits digests (storeAfter 9) 12 (request "run-2") = .error unreadable := by
    unfold Readable
    decide +kernel
  obtain ⟨⟨row, hmem, hunreadable⟩, hreserve⟩ := hrun
  exact ⟨fun h => hunreadable (h.readable row hmem), hreserve⟩

end Sample

end ResultQuota
