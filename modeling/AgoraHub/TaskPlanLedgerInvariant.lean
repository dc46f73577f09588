/-
# What a task-plan ledger guarantees

The constructor of the ledger passes only on a sound history: every record reads
back to an attempt of the ledger's stage and partitions its request, identities
and outstanding tasks do not repeat, the version counts the record changes, and
the totals fit the parent allocation.  In particular a ledger's own snapshot
reads back.
-/
import AgoraHub.TaskPlanLedger

namespace TaskPlan

open Fallible List Amounts PyDict

variable {sha256 : String → HexDigest}

/-! ## What the loop over the records collects -/

namespace SeenRecords

theorem revisions_foldl_add (xs : List (String × BudgetRecord)) (s : SeenRecords) :
    (xs.foldl add s).revisions = s.revisions ++ xs.flatMap fun e => e.2.revisions := by
  induction xs generalizing s with
  | nil => simp
  | cons x xs ih =>
    rw [foldl_cons, ih, flatMap_cons, ← append_assoc]
    rfl

theorem instanceIds_foldl_add (xs : List (String × BudgetRecord)) (s : SeenRecords) :
    (xs.foldl add s).instanceIds =
      s.instanceIds ++ xs.flatMap fun e => [e.2.taskInstance.fields.taskInstanceId] := by
  induction xs generalizing s with
  | nil => simp
  | cons x xs ih =>
    rw [foldl_cons, ih, flatMap_cons, ← append_assoc]
    rfl

theorem outstanding_foldl_add (xs : List (String × BudgetRecord)) (s : SeenRecords) :
    (xs.foldl add s).outstanding = s.outstanding ++
      xs.flatMap fun e => if e.2.status = .reserved then [e.2.taskId] else [] := by
  induction xs generalizing s with
  | nil => simp
  | cons x xs ih =>
    rw [foldl_cons, ih, flatMap_cons, ← append_assoc]
    rfl

end SeenRecords

/-! ## Sound records -/

/-- A record of a ledger with fields `f`, stored under `key`. -/
structure SoundRecord (sha256 : String → HexDigest) (f : LedgerFields) (key : String)
    (r : BudgetRecord) : Prop where
  attempt : ∃ i : TaskInstance sha256, i.toDict = r.taskInstance
  owner : r.taskInstance.fields.runId = f.runId ∧ r.taskInstance.fields.stageId = f.stageId
  key_eq : r.taskInstance.fields.idempotencyKey = key
  sameFields : r.consumed.SameFields f.parentAllocation ∧
    r.released.SameFields f.parentAllocation ∧ r.requested.SameFields f.parentAllocation
  untouched : r.status = .reserved → ∀ d, r.consumed.amount d = 0 ∧ r.released.amount d = 0
  partitions : r.status ≠ .reserved → ∀ d, r.consumed.amount d + r.released.amount d =
    r.requested.amount d
  settled : r.status ≠ .reserved → ∃ n, r.settledRevision = some n

theorem Amounts.amount_of_isNone {a : Amounts} {d : BudgetField} (h : (a.get d).isSome = false) :
    a.amount d = 0 := by
  unfold Amounts.amount
  rw [Option.isSome_eq_false_iff, Option.isNone_iff_eq_none] at h
  rw [h]
  rfl

variable {r : BudgetRecord}

/-- What the partition check says about every field. -/
theorem checkPartition_spec {parent : Amounts} (h : checkPartition parent r = .ok ())
    (hc : r.consumed.SameFields parent) (hr : r.released.SameFields parent)
    (hq : r.requested.SameFields parent) :
    (∀ d, r.consumed.amount d + r.released.amount d = r.requested.amount d) ∧
      ∃ n, r.settledRevision = some n := by
  unfold checkPartition at h
  obtain ⟨n, hn, h₁⟩ := bind_inv h
  obtain ⟨-, h₂⟩ := check_inv h₁
  have hparts := of_require (check_inv h₂).2
  refine ⟨fun d => ?_, n, orRaise_eq_ok.mp hn⟩
  by_cases hd : (parent.get d).isSome = true
  · exact hparts d hd
  · -- a field outside the policy holds nothing on either side
    rw [Bool.not_eq_true] at hd
    rw [amount_of_isNone ((hc d).trans hd), amount_of_isNone ((hr d).trans hd),
      amount_of_isNone ((hq d).trans hd)]

variable {seen : SeenRecords}

/-- An outstanding record holds no accounting and its task is not outstanding yet. -/
theorem checkReserved_spec (h : checkReserved seen r = .ok ()) :
    (∀ d, r.consumed.amount d = 0 ∧ r.released.amount d = 0) ∧ r.taskId ∉ seen.outstanding := by
  unfold checkReserved at h
  obtain ⟨hzero, hout⟩ := check_inv h
  have hz := of_require hzero
  refine ⟨fun d => ⟨?_, ?_⟩, of_require hout⟩
  · exact anyNonzero_eq_false.mp hz.1 d
  · exact anyNonzero_eq_false.mp hz.2.1 d

/-- The partition check is part of the checks of every terminal status. -/
theorem checkPartition_of_checkStatus {parent : Amounts}
    (h : checkStatus sha256 parent seen r = .ok ()) (hs : r.status ≠ .reserved) :
    checkPartition parent r = .ok () := by
  unfold checkStatus at h
  cases hstatus : r.status with
  | reserved => exact absurd hstatus hs
  | _ =>
    rw [hstatus] at h
    exact (check_inv h).1

variable {f : LedgerFields}

/-- What one turn of the loop over the records checks. -/
theorem checkRecord_spec {entry : String × BudgetRecord}
    (h : checkRecord sha256 f f.parentAllocation seen entry = .ok ()) :
    SoundRecord sha256 f entry.1 entry.2 ∧
      entry.2.taskInstance.fields.taskInstanceId ∉ seen.instanceIds ∧
      (entry.2.status = .reserved → entry.2.taskId ∉ seen.outstanding) := by
  unfold checkRecord at h
  obtain ⟨-, h₁⟩ := check_inv h
  obtain ⟨i, hi, h₂⟩ := bind_inv h₁
  have hdict := TaskInstance.fromDict_eq_ok.mp hi
  have hfields : i.fields = entry.2.taskInstance.fields := by rw [← hdict]; rfl
  obtain ⟨howner, h₃⟩ := check_inv h₂
  obtain ⟨hfresh, h₄⟩ := check_inv h₃
  obtain ⟨consumed, hconsumed, h₅⟩ := bind_inv h₄
  obtain ⟨released, hreleased, h₆⟩ := bind_inv h₅
  obtain ⟨hsame, h₇⟩ := check_inv h₆
  obtain ⟨-, hstatus⟩ := check_inv h₇
  replace howner := of_require howner
  replace hfresh := of_require hfresh
  replace hsame := of_require hsame
  rw [eq_of_budgetAllocation hconsumed, eq_of_budgetAllocation hreleased, hfields] at hsame
  rw [hfields] at howner hfresh
  refine ⟨⟨⟨i, hdict⟩, ⟨howner.1, howner.2.1⟩, howner.2.2, hsame, ?_, ?_, ?_⟩, hfresh.1, ?_⟩
  · intro hs
    unfold checkStatus at hstatus
    rw [hs] at hstatus
    exact (checkReserved_spec hstatus).1
  · intro hs
    exact (checkPartition_spec (checkPartition_of_checkStatus hstatus hs) hsame.1 hsame.2.1
      hsame.2.2).1
  · intro hs
    exact (checkPartition_spec (checkPartition_of_checkStatus hstatus hs) hsame.1 hsame.2.1
      hsame.2.2).2
  · intro hs
    unfold checkStatus at hstatus
    rw [hs] at hstatus
    exact (checkReserved_spec hstatus).2

/-- What a record charges in a field: consumed, released and still reserved. -/
def BudgetRecord.charged (r : BudgetRecord) (d : BudgetField) : ℕ :=
  r.consumed.amount d + r.released.amount d + r.outstanding d

theorem SoundRecord.charged_eq {key : String} (h : SoundRecord sha256 f key r) (d : BudgetField) :
    r.charged d = r.requested.amount d := by
  unfold BudgetRecord.charged BudgetRecord.outstanding
  by_cases hs : r.status = .reserved
  · rw [if_pos hs, (h.untouched hs d).1, (h.untouched hs d).2, Nat.zero_add]
  · rw [if_neg hs, Nat.add_zero, h.partitions hs d]

theorem SoundRecord.amounts_eq_zero {key : String} (h : SoundRecord sha256 f key r)
    {d : BudgetField} (hd : (f.parentAllocation.get d).isSome = false) :
    r.consumed.amount d = 0 ∧ r.released.amount d = 0 ∧ r.requested.amount d = 0 :=
  ⟨amount_of_isNone ((h.sameFields.1 d).trans hd),
    amount_of_isNone ((h.sameFields.2.1 d).trans hd),
    amount_of_isNone ((h.sameFields.2.2 d).trans hd)⟩

/-! ## Sound ledgers -/

namespace LedgerFields

/-- What the constructor's checks say together. -/
structure Checked (sha256 : String → HexDigest) (f : LedgerFields) : Prop where
  parent : budgetAllocation f.parentAllocation = .ok f.parentAllocation
  records : ∀ done entry rest, f.records = done ++ entry :: rest →
    checkRecord sha256 f f.parentAllocation (done.foldl SeenRecords.add .none) entry = .ok ()
  version : (f.records.flatMap fun e => e.2.revisions).length = f.ledgerVersion
  revisions : (f.records.flatMap fun e => e.2.revisions).insertionSort (· ≤ ·) =
    List.range' 1 (f.records.flatMap fun e => e.2.revisions).length
  within : ∀ d, f.allocatedTotals.amount d ≤ f.parentAllocation.amount d

theorem checked_of_check (h : f.check sha256 = .ok ()) : f.Checked sha256 := by
  unfold check at h
  obtain ⟨-, h₁⟩ := check_inv h
  obtain ⟨-, h₂⟩ := check_inv h₁
  obtain ⟨-, h₃⟩ := check_inv h₂
  obtain ⟨parent, hparent, h₄⟩ := bind_inv h₃
  obtain ⟨-, h₅⟩ := check_inv h₄
  obtain ⟨seen, hseen, h₆⟩ := bind_inv h₅
  obtain ⟨hrevisions, h₇⟩ := check_inv h₆
  obtain ⟨_, -, hwithin⟩ := bind_inv h₇
  clear h h₁ h₂ h₃ h₄ h₅ h₆ h₇
  obtain rfl := eq_of_budgetAllocation hparent
  rcases of_foldlM_check hseen with ⟨rfl, hall⟩
  replace hrevisions := of_require hrevisions
  rw [SeenRecords.revisions_foldl_add, SeenRecords.none, nil_append] at hrevisions
  exact ⟨hparent, hall, hrevisions.1, hrevisions.2, of_require hwithin⟩

end LedgerFields

namespace TaskPlanBudgetLedger

variable (l : TaskPlanBudgetLedger sha256)

theorem checked : l.fields.Checked sha256 := LedgerFields.checked_of_check l.valid

theorem sound {key : String} (h : (key, r) ∈ l.fields.records) :
    SoundRecord sha256 l.fields key r := by
  obtain ⟨done, rest, hsplit⟩ := append_of_mem h
  exact (checkRecord_spec (l.checked.records done (key, r) rest hsplit)).1

theorem nodup_instanceIds :
    (l.fields.records.map fun e => e.2.taskInstance.fields.taskInstanceId).Nodup := by
  rw [map_eq_flatMap]
  refine nodup_flatMap_of_splits fun done e rest hsplit => ⟨nodup_singleton _, ?_⟩
  intro b hb hmem
  rw [mem_singleton] at hb
  have hfresh := (checkRecord_spec (l.checked.records done e rest hsplit)).2.1
  rw [SeenRecords.instanceIds_foldl_add, SeenRecords.none, nil_append] at hfresh
  exact hfresh (hb ▸ hmem)

/-- At most one record of a task is outstanding. -/
theorem nodup_outstanding : (l.fields.records.flatMap fun e =>
      if e.2.status = .reserved then [e.2.taskId] else []).Nodup := by
  refine nodup_flatMap_of_splits fun done e rest hsplit => ?_
  have hfresh := (checkRecord_spec (l.checked.records done e rest hsplit)).2.2
  rw [SeenRecords.outstanding_foldl_add, SeenRecords.none, nil_append] at hfresh
  by_cases hs : e.2.status = .reserved
  · rw [if_pos hs]
    refine ⟨nodup_singleton _, fun b hb hmem => hfresh hs ?_⟩
    rw [mem_singleton] at hb
    exact hb ▸ hmem
  · rw [if_neg hs]
    exact ⟨nodup_nil, by simp⟩

/-- The outstanding records belong to different tasks. -/
theorem nodup_outstandingTasks :
    ((l.fields.records.filter fun e => decide (e.2.status = .reserved)).map
      fun e => e.2.taskId).Nodup := by
  have hflat : ∀ es : List (String × BudgetRecord),
      (es.filter fun e => decide (e.2.status = .reserved)).map (fun e => e.2.taskId) =
        es.flatMap fun e => if e.2.status = .reserved then [e.2.taskId] else [] := by
    intro es
    induction es with
    | nil => rfl
    | cons e es ih =>
      rw [flatMap_cons, ← ih]
      by_cases hs : e.2.status = .reserved <;> simp [hs]
  rw [hflat]
  exact l.nodup_outstanding

/-- Keys do not repeat: a key and the instance identifier of its record determine
each other. -/
theorem nodup_keys : l.fields.records.keys.Nodup := by
  have hids := l.nodup_instanceIds
  unfold PyDict.keys
  unfold List.Nodup at hids ⊢
  rw [pairwise_map] at hids ⊢
  refine hids.imp_of_mem ?_
  intro a b ha hb hne heq
  apply hne
  have hsa := l.sound (show (a.1, a.2) ∈ _ from ha)
  have hsb := l.sound (show (b.1, b.2) ∈ _ from hb)
  obtain ⟨i, hi⟩ := hsa.attempt
  obtain ⟨j, hj⟩ := hsb.attempt
  have hkeys : i.fields.idempotencyKey = j.fields.idempotencyKey := by
    show i.toDict.fields.idempotencyKey = j.toDict.fields.idempotencyKey
    rw [hi, hj, hsa.key_eq, hsb.key_eq, heq]
  rw [← hi, ← hj]
  exact TaskInstance.idempotencyKey_eq_iff.mp hkeys

/-- The version counts the reservations and the terminal settlements. -/
theorem ledgerVersion_eq : l.fields.ledgerVersion = l.fields.records.length +
      l.fields.records.countP fun e => decide (e.2.status ≠ .reserved) := by
  rw [← l.checked.version, length_flatMap]
  have hsound : ∀ e ∈ l.fields.records, e.2.revisions.length =
      1 + if e.2.status ≠ .reserved then 1 else 0 := by
    intro e he
    unfold BudgetRecord.revisions
    by_cases hs : e.2.status = .reserved
    · simp [hs]
    · obtain ⟨n, hn⟩ := (l.sound (show (e.1, e.2) ∈ _ from he)).settled hs
      simp [hs, hn]
  rw [map_congr_left hsound]
  clear hsound
  induction l.fields.records with
  | nil => rfl
  | cons e es ih =>
    rw [map_cons, sum_cons, ih, countP_cons, length_cons]
    by_cases hs : e.2.status = .reserved <;> simp [hs] <;> omega

/-! ## Totals -/

theorem amount_counter {amount : BudgetRecord → BudgetField → ℕ} {d : BudgetField} {n : ℕ}
    (hd : f.parentAllocation.get d = some n) :
    (f.counter amount).amount d = sumOf (fun r => amount r d) f.records := by
  unfold LedgerFields.counter Amounts.amount
  rw [Amounts.get_ofFn, hd]
  rfl

/-- The three sums over the records fit the parent allocation. -/
theorem charged_le (d : BudgetField) :
    sumOf (fun r => r.charged d) l.fields.records ≤ l.fields.parentAllocation.amount d := by
  cases hd : l.fields.parentAllocation.get d with
  | some n =>
    have hwithin := l.checked.within d
    have htotal : l.fields.allocatedTotals.amount d =
        l.fields.counters.consumed.amount d + l.fields.counters.released.amount d +
          l.fields.counters.reserved.amount d := by
      show ((Amounts.ofFn _).get d).getD 0 = _
      rw [Amounts.get_ofFn, hd]
      rfl
    rw [htotal] at hwithin
    unfold LedgerFields.counters at hwithin
    rw [amount_counter hd, amount_counter hd, amount_counter hd] at hwithin
    have hsum : sumOf (fun r => r.charged d) l.fields.records =
        sumOf (fun r => r.consumed.amount d) l.fields.records +
          sumOf (fun r => r.released.amount d) l.fields.records +
          sumOf (fun r => r.outstanding d) l.fields.records := by
      unfold sumOf BudgetRecord.charged
      rw [sum_map_add, sum_map_add]
    rw [hsum]
    exact hwithin
  | none =>
    -- a field outside the policy is charged nothing
    have hzero : sumOf (fun r => r.charged d) l.fields.records = 0 := by
      apply sum_eq_zero
      intro n hn
      obtain ⟨r, hr, rfl⟩ := mem_map.mp hn
      obtain ⟨e, he, rfl⟩ := mem_map.mp hr
      have hsound := l.sound (show (e.1, e.2) ∈ _ from he)
      rw [hsound.charged_eq]
      exact (hsound.amounts_eq_zero (by rw [hd]; rfl)).2.2
    rw [hzero]
    exact Nat.zero_le _

/-! ## Snapshots -/

theorem sameFields_counter (f : LedgerFields) (amount : BudgetRecord → BudgetField → ℕ) :
    (f.counter amount).SameFields f.parentAllocation := by
  intro d
  unfold LedgerFields.counter
  rw [Amounts.get_ofFn, Option.isSome_map]

/-- A ledger reads back from its own snapshot. -/
theorem fromSnapshot_snapshot : fromSnapshot sha256 l.snapshot = .ok l := by
  unfold fromSnapshot
  refine bind_intro l.checked.parent ?_
  refine require_intro ⟨?_, ?_, ?_⟩ ?_
  · exact sameFields_counter l.fields _
  · exact sameFields_counter l.fields _
  · exact sameFields_counter l.fields _
  · refine bind_intro (checksum_canonicalPayloadChecksum ..) ?_
    iterate 2 refine require_intro rfl ?_
    refine bind_intro (construct_eq_ok.mpr rfl) ?_
    exact require_intro rfl rfl

/-- A snapshot that reads back is the snapshot of what was read. -/
theorem snapshot_of_fromSnapshot {s : BudgetSnapshot} {l : TaskPlanBudgetLedger sha256}
    (h : fromSnapshot sha256 s = .ok l) : l.snapshot = s := by
  unfold fromSnapshot at h
  obtain ⟨parent, -, h₁⟩ := bind_inv h
  obtain ⟨-, h₂⟩ := check_inv h₁
  obtain ⟨-, h₃⟩ := check_inv h₂
  obtain ⟨hschema, h₄⟩ := check_inv h₃
  obtain ⟨hsum, h₅⟩ := check_inv h₄
  obtain ⟨k, hk, h₆⟩ := bind_inv h₅
  obtain ⟨hcounters, hret⟩ := check_inv h₆
  cases hret
  have hfields := construct_eq_ok.mp hk
  unfold snapshot toDict ledgerChecksum
  rw [hfields, ← of_require hschema, ← of_require hsum, ← hfields, ← of_require hcounters, hfields]

/-- A reservation that keeps the version returns the ledger itself. -/
theorem eq_of_reserve_of_version {l l' : TaskPlanBudgetLedger sha256}
    {instances : List (TaskInstance sha256)} (h : l.reserve instances = .ok l')
    (hversion : l'.fields.ledgerVersion = l.fields.ledgerVersion) : l' = l := by
  unfold reserve at h
  obtain ⟨state, -, hret⟩ := bind_inv h
  by_cases hn : state.2 = l.fields.ledgerVersion
  · rw [if_pos hn] at hret
    exact (pure_eq_ok_iff.mp hret).symm
  · rw [if_neg hn] at hret
    rw [construct_eq_ok.mp hret] at hversion
    exact absurd hversion hn

end TaskPlanBudgetLedger

end TaskPlan
