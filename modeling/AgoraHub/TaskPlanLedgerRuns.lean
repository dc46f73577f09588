/-
# Runs of the task-plan ledger

A call that returns either changes nothing, or appends the reservations of its
batch, or turns one outstanding record into a terminal one.  Over a run from the
ledger of a plan, the three sums of every budget field then add up to what was
ever reserved, and every ledger on the way reads back from its own snapshot.
-/
import AgoraHub.TaskPlanLedgerInvariant
import AgoraHub.Sha256

namespace TaskPlan

open Fallible List PyDict TaskInstance Amounts

section Runs

variable {sha256 : String → HexDigest}

/-! ## Calls -/

variable (sha256) in
/-- A call of one of the four operations. -/
inductive LedgerCall where
  | reserve (instances : List (TaskInstance sha256))
  | settle (result : TaskResultRecord) (expectedAllocation : Option Amounts)
  | releaseUnstarted (taskInstanceId : Option String) (taskId : String) (attempt : ℕ)
      (reasonCode : String)
  | settleTerminated (i : TaskInstance sha256) (receipt : BudgetSettlementReceipt)
      (authority : TaskPlanBudgetLedger.BudgetSettlementReadPort)

namespace LedgerCall

/-- Make a call. -/
def apply (c : LedgerCall sha256) (l : TaskPlanBudgetLedger sha256) :
    Except HarnessValidationError (TaskPlanBudgetLedger sha256) :=
  match c with
  | reserve instances => l.reserve instances
  | settle result expectedAllocation => l.settle result expectedAllocation
  | releaseUnstarted taskInstanceId taskId attempt reasonCode =>
    l.releaseUnstarted taskInstanceId taskId attempt reasonCode
  | settleTerminated i receipt authority => l.settleTerminated i receipt authority

/-- The attempts a call reserves. -/
def reservations : LedgerCall sha256 → List (TaskInstance sha256)
  | reserve instances => instances
  | _ => []

end LedgerCall

/-- The records a call names: those of its batch, or the one of its attempt. -/
def LedgerCall.Names (c : LedgerCall sha256) (r : BudgetRecord) : Prop :=
  match c with
  | reserve instances => ∃ i ∈ instances, i.toDict = r.taskInstance
  | settle result _ => r.IsAttempt (some result.taskInstanceId) result.taskId result.attempt
  | releaseUnstarted taskInstanceId taskId attempt _ => r.IsAttempt taskInstanceId taskId attempt
  | settleTerminated i _ _ =>
    r.IsAttempt (some i.fields.taskInstanceId) i.fields.taskId i.fields.attempt

/-! ## What a call does -/

namespace TaskPlanBudgetLedger

variable {l l' : TaskPlanBudgetLedger sha256}

/-- A batch reservation: new records are appended, one for each attempt that had none. -/
structure Reserves (l l' : TaskPlanBudgetLedger sha256) (instances : List (TaskInstance sha256)) :
    Prop where
  appends : ∃ added : PyDict String BudgetRecord,
    l'.fields = { l.fields with
      records := l.fields.records ++ added
      ledgerVersion := l.fields.ledgerVersion + added.length } ∧
    ∀ e ∈ added, e.2.status = .reserved ∧ ∃ i ∈ instances, i.toDict = e.2.taskInstance
  holds : ∀ i ∈ instances, ∃ e ∈ l'.fields.records,
    e.2.status = .reserved ∧ e.2.taskInstance = i.toDict

/-- A settlement: one outstanding record of the attempt becomes terminal. -/
def Settles (l l' : TaskPlanBudgetLedger sha256) (named : BudgetRecord → Prop) : Prop :=
  ∃ key r r', l.fields.records.get? key = some r ∧ named r' ∧ r.status = .reserved ∧
    r'.status ≠ .reserved ∧ r'.taskInstance = r.taskInstance ∧
    l'.fields = { l.fields with
      records := l.fields.records.set key r'
      ledgerVersion := l.fields.ledgerVersion + 1 }

variable {i : TaskInstance sha256}

variable {f : LedgerFields}

/-- What one turn of the reservation loop does. -/
theorem reserveOne_spec {rs rs' : PyDict String BudgetRecord} {n n' : ℕ}
    (h : reserveOne f (rs, n) i = .ok (rs', n')) :
    ∃ added : PyDict String BudgetRecord, rs' = rs ++ added ∧ n' = n + added.length ∧
      (∀ e ∈ added, e.2.status = .reserved ∧ e.2.taskInstance = i.toDict) ∧
      ∃ e ∈ rs', e.2.status = .reserved ∧ e.2.taskInstance = i.toDict := by
  unfold reserveOne at h
  obtain ⟨-, hbody⟩ := check_inv h
  cases hget : rs.get? i.fields.idempotencyKey with
  | some existing =>
    -- an exact redelivery changes nothing
    rw [hget] at hbody
    obtain ⟨hsame, hrest⟩ := check_inv hbody
    obtain ⟨hstatus, hret⟩ := check_inv hrest
    cases hret
    refine ⟨[], (append_nil _).symm, rfl, by simp, ?_⟩
    exact ⟨_, mem_of_get? hget, of_require hstatus, of_require hsame⟩
  | none =>
    rw [hget] at hbody
    obtain ⟨-, hret⟩ := check_inv hbody
    cases hret
    rw [set_of_notMem _ ((get?_eq_none_iff _ _).mp hget)]
    refine ⟨[_], rfl, rfl, ?_, ?_⟩
    · intro e he
      rw [mem_singleton] at he
      subst he
      exact ⟨rfl, rfl⟩
    · exact ⟨_, mem_append_right _ (mem_singleton_self _), rfl, rfl⟩

variable {instances : List (TaskInstance sha256)}

/-- What the whole reservation loop does. -/
theorem foldlM_reserveOne_spec : ∀ {rs rs' : PyDict String BudgetRecord} {n n' : ℕ},
      instances.foldlM (reserveOne f) (rs, n) = .ok (rs', n') →
      ∃ added : PyDict String BudgetRecord, rs' = rs ++ added ∧ n' = n + added.length ∧
        (∀ e ∈ added, e.2.status = .reserved ∧ ∃ i ∈ instances, i.toDict = e.2.taskInstance) ∧
        ∀ i ∈ instances, ∃ e ∈ rs', e.2.status = .reserved ∧ e.2.taskInstance = i.toDict := by
  induction instances with
  | nil =>
    intro rs rs' n n' h
    cases h
    exact ⟨[], (append_nil _).symm, rfl, by simp, by simp⟩
  | cons i instances ih =>
    intro rs rs' n n' h
    rw [foldlM_cons] at h
    obtain ⟨⟨mid, m⟩, hone, hrest⟩ := bind_inv h
    obtain ⟨first, rfl, rfl, hfirst, hheld⟩ := reserveOne_spec hone
    obtain ⟨added, rfl, rfl, hadded, hall⟩ := ih hrest
    refine ⟨first ++ added, append_assoc .., ?_, ?_, ?_⟩
    · rw [length_append, Nat.add_assoc]
    · intro e he
      rcases mem_append.mp he with he | he
      · exact ⟨(hfirst e he).1, i, mem_cons_self, (hfirst e he).2.symm⟩
      · obtain ⟨hs, j, hj, heq⟩ := hadded e he
        exact ⟨hs, j, mem_cons_of_mem _ hj, heq⟩
    · intro j hj
      rcases mem_cons.mp hj with rfl | hj
      · obtain ⟨e, he, heq⟩ := hheld
        exact ⟨e, mem_append_left _ he, heq⟩
      · exact hall j hj

/-- A reservation that returns. -/
theorem reserves_of_reserve (h : l.reserve instances = .ok l') : Reserves l l' instances := by
  unfold reserve at h
  obtain ⟨⟨rs, n⟩, hloop, hret⟩ := bind_inv h
  obtain ⟨added, rfl, rfl, hadded, hall⟩ := foldlM_reserveOne_spec hloop
  by_cases hn : l.fields.ledgerVersion + added.length = l.fields.ledgerVersion
  · -- nothing was new
    rw [if_pos hn] at hret
    cases hret
    have hnil : added = [] := length_eq_zero_iff.mp (by omega)
    subst hnil
    rw [append_nil] at hall
    refine ⟨⟨[], ?_, by simp⟩, hall⟩
    rw [append_nil]
    rfl
  · rw [if_neg hn] at hret
    have hfields := construct_eq_ok.mp hret
    refine ⟨⟨added, hfields, hadded⟩, ?_⟩
    rw [hfields]
    exact hall

variable {taskInstanceId : Option String} {r : BudgetRecord}

/-- The record `_attempt` finds. -/
theorem attemptRecord_spec {taskId key : String} {attempt : ℕ}
    (h : l.attemptRecord taskInstanceId taskId attempt = .ok (key, r)) :
    l.fields.records.get? key = some r ∧ r.IsAttempt taskInstanceId taskId attempt := by
  unfold attemptRecord at h
  have hfind := orRaise_eq_ok.mp h
  refine ⟨get?_of_mem l.nodup_keys (mem_of_find?_eq_some hfind), ?_⟩
  have hfound := find?_some hfind
  exact of_decide_eq_true hfound

/-- What `_terminal` does to an outstanding record. -/
theorem settles_of_terminal {key : String} {updated : BudgetRecord} {named : BudgetRecord → Prop}
    (hget : l.fields.records.get? key = some r) (hs : r.status = .reserved)
    (hsame : updated.taskInstance = r.taskInstance) (hterminal : updated.status ≠ .reserved)
    (hnamed : named { updated with settledRevision := some (l.fields.ledgerVersion + 1) })
    (h : l.terminal key updated = .ok l') : Settles l l' named :=
  ⟨key, r, _, hget, hnamed, hs, hterminal, hsame, construct_eq_ok.mp h⟩

/-- A result settlement that returns. -/
theorem settles_of_settle {result : TaskResultRecord} {expectedAllocation : Option Amounts}
    (h : l.settle result expectedAllocation = .ok l') : l' = l ∨ Settles l l' fun r =>
        r.IsAttempt (some result.taskInstanceId) result.taskId result.attempt := by
  unfold settle at h
  obtain ⟨⟨key, record⟩, hattempt, h₁⟩ := bind_inv h
  obtain ⟨hget, hnames⟩ := attemptRecord_spec hattempt
  obtain ⟨-, h₂⟩ := check_inv h₁
  obtain ⟨-, h₃⟩ := check_inv h₂
  obtain ⟨consumed, -, h₄⟩ := bind_inv h₃
  split at h₄
  · obtain rfl := pure_eq_ok_iff.mp (check_inv h₄).2
    exact Or.inl rfl
  · obtain ⟨hs, hret⟩ := check_inv h₄
    right
    refine settles_of_terminal hget (of_require hs) ?_ ?_ ?_ hret
    · rfl
    · simp
    · exact hnames

/-- A release that returns. -/
theorem settles_of_releaseUnstarted {taskId reasonCode : String} {attempt : ℕ}
    (h : l.releaseUnstarted taskInstanceId taskId attempt reasonCode = .ok l') :
    l' = l ∨ Settles l l' fun r => r.IsAttempt taskInstanceId taskId attempt := by
  unfold releaseUnstarted at h
  obtain ⟨-, h₁⟩ := check_inv h
  obtain ⟨⟨key, record⟩, hattempt, h₂⟩ := bind_inv h₁
  obtain ⟨hget, hnames⟩ := attemptRecord_spec hattempt
  dsimp only at h₂
  split at h₂
  · cases h₂
    exact Or.inl rfl
  · obtain ⟨hs, hret⟩ := check_inv h₂
    right
    refine settles_of_terminal hget (of_require hs) ?_ ?_ ?_ hret
    · rfl
    · simp
    · exact hnames

/-- A lifecycle settlement that returns. -/
theorem settles_of_settleTerminated {i : TaskInstance sha256} {receipt : BudgetSettlementReceipt}
    {authority : BudgetSettlementReadPort}
    (h : l.settleTerminated i receipt authority = .ok l') : l' = l ∨ Settles l l' fun r =>
      r.IsAttempt (some i.fields.taskInstanceId) i.fields.taskId i.fields.attempt := by
  unfold settleTerminated at h
  obtain ⟨-, h₁⟩ := check_inv h
  obtain ⟨-, h₂⟩ := check_inv h₁
  obtain ⟨⟨key, record⟩, hattempt, h₃⟩ := bind_inv h₂
  obtain ⟨hget, hnames⟩ := attemptRecord_spec hattempt
  obtain ⟨-, h₄⟩ := check_inv h₃
  obtain ⟨consumed, -, h₅⟩ := bind_inv h₄
  split at h₅
  · rename_i hs
    right
    refine settles_of_terminal hget hs ?_ ?_ ?_ h₅
    · rfl
    · simp
    · exact hnames
  · obtain rfl := pure_eq_ok_iff.mp (check_inv h₅).2
    exact Or.inl rfl

variable {c : LedgerCall sha256}

/-- Every call that returns reserves its batch, or settles the record it names, or
changes nothing. -/
theorem change_of_apply (h : c.apply l = .ok l') :
    Reserves l l' c.reservations ∨ Settles l l' c.Names := by
  have hnothing : Reserves l l [] := ⟨⟨[], by simp, by simp⟩, by simp⟩
  cases c with
  | reserve instances => exact Or.inl (reserves_of_reserve h)
  | settle result expectedAllocation =>
    rcases settles_of_settle h with rfl | hsettles
    · exact Or.inl hnothing
    · exact Or.inr hsettles
  | releaseUnstarted taskInstanceId taskId attempt reasonCode =>
    rcases settles_of_releaseUnstarted h with rfl | hsettles
    · exact Or.inl hnothing
    · exact Or.inr hsettles
  | settleTerminated i receipt authority =>
    rcases settles_of_settleTerminated h with rfl | hsettles
    · exact Or.inl hnothing
    · exact Or.inr hsettles

/-! ## Frame -/

/-- The records whose keys a call changes are the ones it names. -/
theorem names_of_changed (h : c.apply l = .ok l') {key : String}
    (hne : l'.fields.records.get? key ≠ l.fields.records.get? key) :
    ∃ r, l'.fields.records.get? key = some r ∧ c.Names r := by
  rcases change_of_apply h with ⟨⟨added, hfields, hadded⟩, -⟩ | hsettles
  · rw [hfields] at hne ⊢
    rw [get?_append] at hne ⊢
    cases hget : l.fields.records.get? key with
    | some r =>
      rw [hget] at hne
      exact absurd rfl hne
    | none =>
      rw [hget, Option.none_or] at hne
      cases hnew : added.get? key with
      | none =>
        rw [hnew] at hne
        exact absurd rfl hne
      | some r =>
        refine ⟨r, rfl, ?_⟩
        rcases hadded (key, r) (mem_of_get? hnew) with ⟨-, i, hi, heq⟩
        cases c with
        | reserve instances => exact ⟨i, hi, heq⟩
        | _ => exact absurd hi (not_mem_nil)
  · obtain ⟨key', r, r', hget, hnamed, -, -, -, hfields⟩ := hsettles
    rw [hfields] at hne ⊢
    by_cases hk : key = key'
    · subst hk
      exact ⟨r', get?_set_self _ _ _, hnamed⟩
    · rw [get?_set_of_ne _ _ hk] at hne
      exact absurd rfl hne

/-! ## Runs -/

variable (sha256) in
/-- The ledgers reached from the ledger of a plan by calls that return. -/
inductive Run (runId stageId policyRef : String) (aggregate : TaskBudget) :
    List (LedgerCall sha256) → TaskPlanBudgetLedger sha256 → Prop
  | start {l : TaskPlanBudgetLedger sha256}
      (h : forPlan sha256 runId stageId policyRef aggregate = .ok l) :
      Run runId stageId policyRef aggregate [] l
  | step {calls : List (LedgerCall sha256)} {l l' : TaskPlanBudgetLedger sha256}
      {c : LedgerCall sha256} (run : Run runId stageId policyRef aggregate calls l)
      (h : c.apply l = .ok l') : Run runId stageId policyRef aggregate (calls ++ [c]) l'

/-- The attempts that the calls of a run reserved, each once. -/
def everReserved (calls : List (LedgerCall sha256)) : List (TaskInstance sha256) :=
  (calls.flatMap LedgerCall.reservations).dedup

/-- The attempts on record, in record order. -/
def attempts (l : TaskPlanBudgetLedger sha256) : List InstanceDict :=
  l.fields.records.map fun e => e.2.taskInstance

/-- The attempts on record after a call: those before it and those it reserves. -/
theorem mem_attempts_of_apply (h : c.apply l = .ok l') {d : InstanceDict} :
    d ∈ attempts l' ↔ d ∈ attempts l ∨ ∃ i ∈ c.reservations, i.toDict = d := by
  unfold attempts
  rcases change_of_apply h with ⟨⟨added, hfields, hadded⟩, hholds⟩ | hsettles
  · constructor
    · intro hd
      rw [hfields, map_append, mem_append] at hd
      rcases hd with hd | hd
      · exact Or.inl hd
      · obtain ⟨e, he, rfl⟩ := mem_map.mp hd
        exact Or.inr (hadded e he).2
    · rintro (hd | ⟨i, hi, rfl⟩)
      · rw [hfields, map_append]
        exact mem_append_left _ hd
      · obtain ⟨e, he, -, heq⟩ := hholds i hi
        exact mem_map.mpr ⟨e, he, heq⟩
  · obtain ⟨key, r, r', hget, hnamed, hs, hterminal, hsame, hfields⟩ := hsettles
    have hmap : l'.fields.records.map (fun e => e.2.taskInstance) =
        l.fields.records.map fun e => e.2.taskInstance := by
      rw [hfields]
      exact map_set_of_get? _ _ hget hsame
    rw [hmap]
    constructor
    · exact Or.inl
    · rintro (hd | ⟨i, hi, rfl⟩)
      · exact hd
      · -- a settlement reserves nothing, so `c` is a reservation with a settled record
        cases c with
        | reserve instances =>
          have hres := reserves_of_reserve h
          obtain ⟨e, he, -, heq⟩ := hres.holds i hi
          rw [← hmap]
          exact mem_map.mpr ⟨e, he, heq⟩
        | _ => exact absurd hi (not_mem_nil)

variable {runId stageId policyRef : String} {aggregate : TaskBudget}
  {calls : List (LedgerCall sha256)}

/-- The parent allocation of a run is the plan's aggregate budget. -/
theorem parentAllocation_of_run (h : Run sha256 runId stageId policyRef aggregate calls l) :
    l.fields.parentAllocation = aggregate.amounts := by
  induction h with
  | start h =>
    rw [construct_eq_ok.mp h]
  | step _ h ih =>
    rcases change_of_apply h with ⟨⟨_, hfields, -⟩, -⟩ | ⟨_, _, _, -, -, -, -, -, hfields⟩
    · rw [hfields]
      exact ih
    · rw [hfields]
      exact ih

/-- The attempts on record are the ones the run reserved. -/
theorem mem_attempts_of_run (h : Run sha256 runId stageId policyRef aggregate calls l)
    (d : InstanceDict) :
    d ∈ attempts l ↔ ∃ i ∈ calls.flatMap LedgerCall.reservations, i.toDict = d := by
  induction h with
  | start h =>
    unfold attempts
    rw [construct_eq_ok.mp h]
    simp
  | step _ h ih =>
    rw [mem_attempts_of_apply h, ih, flatMap_append, flatMap_singleton]
    simp only [mem_append, or_and_right, exists_or]

/-- The attempts on record list the reserved attempts, each once. -/
theorem attempts_perm_everReserved (h : Run sha256 runId stageId policyRef aggregate calls l) :
    (attempts l).Perm ((everReserved calls).map TaskInstance.toDict) := by
  have hnodup : (attempts l).Nodup := by
    have hids := l.nodup_instanceIds
    rw [show (fun e : String × BudgetRecord => e.2.taskInstance.fields.taskInstanceId) =
      (fun d : InstanceDict => d.fields.taskInstanceId) ∘ fun e => e.2.taskInstance from rfl,
      ← map_map] at hids
    exact hids.of_map
  have hnodup' : ((everReserved calls).map TaskInstance.toDict).Nodup :=
    (nodup_dedup _).map fun _ _ => TaskInstance.toDict_injective
  refine (perm_ext_iff_of_nodup hnodup hnodup').mpr fun d => ?_
  rw [mem_attempts_of_run h d, mem_map]
  unfold everReserved
  simp only [mem_dedup]

/-- What a run's ledger accounts for: in every budget field the consumed, released
and outstanding amounts add up to what was ever reserved and fit the aggregate
budget; terminal records partition their request; a task has at most one
outstanding record; the version counts reservations and terminal settlements; and
the ledger reads back from its own snapshot. -/
structure Accounts (aggregate : TaskBudget) (calls : List (LedgerCall sha256))
    (l : TaskPlanBudgetLedger sha256) : Prop where
  conserved : ∀ d, sumOf (fun r => r.charged d) l.fields.records =
    ((everReserved calls).map fun i => i.fields.budgetSnapshot.amount d).sum
  within : ∀ d, sumOf (fun r => r.charged d) l.fields.records ≤ aggregate.amounts.amount d
  partitions : ∀ r ∈ l.fields.records.values, r.status ≠ .reserved → ∀ d,
    r.consumed.amount d + r.released.amount d = r.requested.amount d ∧
      r.consumed.amount d ≤ r.requested.amount d
  oneOutstanding : ∀ r ∈ l.fields.records.values, ∀ r' ∈ l.fields.records.values,
    r.status = .reserved → r'.status = .reserved → r.taskId = r'.taskId → r = r'
  version : l.fields.ledgerVersion = (everReserved calls).length +
    l.fields.records.countP fun e => decide (e.2.status ≠ .reserved)
  readsBack : fromSnapshot sha256 l.snapshot = .ok l

/-- Two outstanding records of one task are one record. -/
theorem eq_of_outstanding (l : TaskPlanBudgetLedger sha256) {r' : BudgetRecord}
    (hr : r ∈ l.fields.records.values) (hr' : r' ∈ l.fields.records.values)
    (hs : r.status = .reserved) (hs' : r'.status = .reserved) (htask : r.taskId = r'.taskId) :
    r = r' := by
  obtain ⟨e, he, rfl⟩ := mem_map.mp hr
  obtain ⟨e', he', rfl⟩ := mem_map.mp hr'
  have hmem : e ∈ l.fields.records.filter fun e => decide (e.2.status = .reserved) :=
    mem_filter.mpr ⟨he, decide_eq_true hs⟩
  have hmem' : e' ∈ l.fields.records.filter fun e => decide (e.2.status = .reserved) :=
    mem_filter.mpr ⟨he', decide_eq_true hs'⟩
  exact congrArg Prod.snd (inj_on_of_nodup_map l.nodup_outstandingTasks hmem hmem' htask)

theorem accounts_of_run (h : Run sha256 runId stageId policyRef aggregate calls l) :
    Accounts aggregate calls l where
  conserved d := by
    have hperm := attempts_perm_everReserved h
    have hsum : PyDict.sumOf (fun r => r.charged d) l.fields.records =
        ((attempts l).map fun i => i.fields.budgetSnapshot.amount d).sum := by
      unfold sumOf PyDict.values attempts
      rw [map_map, map_map]
      congr 1
      apply map_congr_left
      intro e he
      exact (l.sound (show (e.1, e.2) ∈ _ from he)).charged_eq d
    rw [hsum, (hperm.map _).sum_eq, map_map]
    rfl
  within d := by
    rw [← parentAllocation_of_run h]
    exact l.charged_le d
  partitions r hr hs d := by
    obtain ⟨e, he, rfl⟩ := mem_map.mp hr
    have hsum := (l.sound (show (e.1, e.2) ∈ _ from he)).partitions hs d
    exact ⟨hsum, by omega⟩
  oneOutstanding r hr r' hr' hs hs' htask := eq_of_outstanding l hr hr' hs hs' htask
  version := by
    have hlen := (attempts_perm_everReserved h).length_eq
    unfold attempts at hlen
    rw [length_map, length_map] at hlen
    rw [← hlen]
    exact l.ledgerVersion_eq
  readsBack := l.fromSnapshot_snapshot

/-- Along every run from the ledger of a plan the accounts hold, and no call that
returns changes a record it does not name. -/
theorem conserved_of_run (h : Run sha256 runId stageId policyRef aggregate calls l) :
    Accounts aggregate calls l ∧ ∀ (c : LedgerCall sha256) (l' : TaskPlanBudgetLedger sha256),
      c.apply l = .ok l' → ∀ key, l'.fields.records.get? key ≠ l.fields.records.get? key →
        ∃ r, l'.fields.records.get? key = some r ∧ c.Names r :=
  ⟨accounts_of_run h, fun _ _ happly _ hne => names_of_changed happly hne⟩

/-! ## A first reservation -/

/-- The turn of the constructor's loop for a new reservation on an empty history. -/
theorem checkRecord_newRecord
    (hparent : budgetAllocation f.parentAllocation = .ok f.parentAllocation)
    (howner : i.fields.runId = f.runId ∧ i.fields.stageId = f.stageId)
    (hsame : i.fields.budgetSnapshot.SameFields f.parentAllocation) :
    checkRecord sha256 f f.parentAllocation .none
      (i.fields.idempotencyKey, newRecord f.parentAllocation i.toDict 1) = .ok () := by
  have hzeros := budgetAllocation_congr hparent (sameFields_zeros f.parentAllocation)
  unfold checkRecord
  refine require_intro ⟨rfl, rfl⟩ ?_
  refine bind_intro (fromDict_eq_ok.mpr rfl) ?_
  refine require_intro ⟨howner.1, howner.2, rfl⟩ ?_
  refine require_intro ⟨not_mem_nil, not_mem_nil⟩ ?_
  refine bind_intro hzeros (bind_intro hzeros ?_)
  refine require_intro ⟨?_, ?_, hsame⟩ ?_
  · exact sameFields_zeros _
  · exact sameFields_zeros _
  refine check_intro (positiveInt_eq_ok.mpr Nat.one_pos) ?_
  show checkReserved _ _ = .ok ()
  have hzero : f.parentAllocation.zeros.anyNonzero = false :=
    anyNonzero_eq_false.mpr fun d => amount_zeros _ d
  exact require_intro ⟨hzero, hzero, rfl, rfl, rfl, rfl⟩ (require_eq_ok.mpr not_mem_nil)

/-- The first reservation on the ledger of a plan returns when it fits the budget. -/
theorem exists_reserve_first (hrecords : l.fields.records = [])
    (hversion : l.fields.ledgerVersion = 0)
    (howner : i.fields.runId = l.fields.runId ∧ i.fields.stageId = l.fields.stageId)
    (hsame : i.fields.budgetSnapshot.SameFields l.fields.parentAllocation)
    (hfits : ∀ d, i.fields.budgetSnapshot.amount d ≤ l.fields.parentAllocation.amount d) :
    ∃ l', l.reserve [i] = .ok l' := by
  set r := newRecord l.fields.parentAllocation i.toDict 1 with hr
  set f : LedgerFields :=
    { l.fields with records := [(i.fields.idempotencyKey, r)], ledgerVersion := 1 } with hf
  have hparent := l.checked.parent
  have hcheck : f.check sha256 = .ok () := by
    have hvalid := l.valid
    unfold LedgerFields.check at hvalid ⊢
    obtain ⟨hrun, h₁⟩ := check_inv hvalid
    obtain ⟨hstage, h₂⟩ := check_inv h₁
    obtain ⟨hpolicy, -⟩ := check_inv h₂
    refine bind_intro hrun (bind_intro hstage ?_)
    refine bind_intro hpolicy (bind_intro hparent ?_)
    refine require_intro (by simp [hf]) ?_
    refine bind_eq_ok.mpr ⟨SeenRecords.none.add (i.fields.idempotencyKey, r), ?_, ?_⟩
    · have hrecord : checkRecord sha256 f f.parentAllocation .none (i.fields.idempotencyKey, r) =
          .ok () := checkRecord_newRecord (f := f) hparent howner hsame
      show ((checkRecord sha256 f f.parentAllocation .none (i.fields.idempotencyKey, r) >>=
        fun _ => .ok (SeenRecords.none.add (i.fields.idempotencyKey, r))) >>= pure) = _
      rw [hrecord]
      rfl
    refine require_intro ⟨rfl, rfl⟩ ?_
    refine bind_eq_ok.mpr ⟨[(r.taskId, r)], rfl, require_eq_ok.mpr fun d => ?_⟩
    -- the only charge is the new reservation
    show ((Amounts.ofFn _).get d).getD 0 ≤ _
    rw [Amounts.get_ofFn]
    cases hd : l.fields.parentAllocation.get d with
    | none => exact Nat.zero_le _
    | some n =>
      have hd' : f.parentAllocation.get d = some n := hd
      show (f.counter _).amount d + (f.counter _).amount d + (f.counter _).amount d ≤ _
      rw [amount_counter hd', amount_counter hd', amount_counter hd']
      have hsum : ∀ g : BudgetRecord → ℕ, sumOf g f.records = g r := by
        intro g
        show g r + 0 = g r
        exact Nat.add_zero _
      rw [hsum, hsum, hsum]
      show l.fields.parentAllocation.zeros.amount d + l.fields.parentAllocation.zeros.amount d +
        i.fields.budgetSnapshot.amount d ≤ _
      rw [amount_zeros]
      simpa using hfits d
  refine ⟨⟨f, hcheck⟩, ?_⟩
  unfold reserve
  refine bind_eq_ok.mpr ⟨([(i.fields.idempotencyKey, r)], 1), ?_, ?_⟩
  · rw [hrecords, hversion]
    show (reserveOne l.fields ([], 0) i >>= pure) = _
    refine bind_eq_ok.mpr ⟨_, ?_, rfl⟩
    unfold reserveOne
    exact require_intro howner (require_intro (by simp) rfl)
  · rw [hversion, if_neg Nat.one_ne_zero]
    exact construct_eq_ok.mpr rfl

end TaskPlanBudgetLedger

end Runs

/-! ## A sample run -/

namespace Sample

/-- The checksum of nothing in particular. -/
def someChecksum : String := canonicalPayloadChecksum sha256Hex .null

/-- The identity of the graph `g@1` for the stage `s` of the run `r`. -/
def graphIdentity : GraphIdentity :=
  let base : GraphIdentity :=
    { graphId := "g", graphVersion := "1", graphRef := "g@1"
      graphSchemaVersion := "newsroom.harness-normalized-graph/v2"
      compilerVersion := "newsroom.harness-graph-compiler/v2"
      conditionPolicyVersion := "newsroom.harness-graph-condition-policy/v1"
      stageBindingChecksum := someChecksum
      stageIdentitySchema := "newsroom.harness-task-plan-stage-identity/v2"
      stageIdentityChecksum := "" }
  { base with
    stageIdentityChecksum := canonicalPayloadChecksum sha256Hex
      (stageIdentityChecksumProjection "r" "s" someChecksum base) }

/-- The sample identity passes its checks. -/
theorem normalize_graphIdentity :
    normalizeGraphOnlyIdentityFields sha256Hex "r" "s" someChecksum graphIdentity = .ok () := by
  unfold normalizeGraphOnlyIdentityFields
  iterate 6 refine bind_intro (eq_ok_of_isOk (by decide +kernel)) ?_
  refine bind_intro (checksum_canonicalPayloadChecksum ..) ?_
  refine bind_intro (eq_ok_of_isOk (by decide +kernel)) ?_
  refine bind_intro (checksum_canonicalPayloadChecksum ..) ?_
  exact require_intro rfl (require_eq_ok.mpr rfl)

/-- An allocation of turns only. -/
def turns (n : ℕ) : Amounts := ⟨some n, some 0, some 0, some 0, none, none, none⟩

/-- A budget of two turns. -/
def twoTurns : TaskBudget := ⟨turns 2, eq_ok_of_isOk (by decide)⟩

/-- A budget of three turns. -/
def threeTurns : TaskBudget := ⟨turns 3, eq_ok_of_isOk (by decide)⟩

/-- The task `t` of the plan `p`, with a budget of two turns. -/
def source : AttemptSource where
  runId := "r"
  stageId := "s"
  planId := "p"
  planVersion := 1
  planChecksum := someChecksum
  taskId := "t"
  taskDefinitionChecksum := someChecksum
  workerRef := "w@1"
  budget := twoTurns
  graphChecksum := someChecksum
  graph := graphIdentity

/-- The first attempt of the task. -/
def taskInstance : TaskInstance sha256Hex where
  fields := source.fields sha256Hex 1
  valid := source.check_fields sha256Hex (eq_ok_of_isOk (by decide +kernel))
    (eq_ok_of_isOk (by decide +kernel)) (eq_ok_of_isOk (by decide +kernel))
    (eq_ok_of_isOk (by decide +kernel)) (checksum_canonicalPayloadChecksum ..)
    normalize_graphIdentity (by decide) (checksum_canonicalPayloadChecksum ..)
    (checksum_canonicalPayloadChecksum ..) (by decide) (eq_ok_of_isOk (by decide +kernel))

theorem exists_forPlan :
    ∃ l, TaskPlanBudgetLedger.forPlan sha256Hex "r" "s" "q@1" threeTurns = .ok l :=
  exists_eq_ok_of_isOk (by decide +kernel)

/-- The accounts after the first reservation of the plan. -/
theorem conserved_reserve : ∃ l,
    TaskPlanBudgetLedger.Run sha256Hex "r" "s" "q@1" threeTurns [.reserve [taskInstance]] l ∧
      TaskPlanBudgetLedger.Accounts threeTurns [.reserve [taskInstance]] l := by
  obtain ⟨l, hl⟩ := exists_forPlan
  have hfields := TaskPlanBudgetLedger.construct_eq_ok.mp hl
  have hreserve : ∃ l', l.reserve [taskInstance] = .ok l' := by
    apply TaskPlanBudgetLedger.exists_reserve_first <;> rw [hfields]
    · exact ⟨rfl, rfl⟩
    · show (turns 2).SameFields (turns 3)
      decide
    · show ∀ d, (turns 2).amount d ≤ (turns 3).amount d
      decide
  obtain ⟨l', hl'⟩ := hreserve
  have hrun := (TaskPlanBudgetLedger.Run.start hl).step (c := .reserve [taskInstance]) hl'
  exact ⟨l', hrun, (TaskPlanBudgetLedger.conserved_of_run hrun).1⟩

end Sample

end TaskPlan
