/-
# What a first-fit packing guarantees

The selected tasks fit the pools, the resource rules and the budget together; a
task overflows only because it does not fit after the tasks selected before it;
and the budget evidence is that of one batch reservation, which is the one an
admission of the same attempts makes.
-/
import AgoraHub.Ensures
import AgoraHub.TaskPlanLedgerRuns
import AgoraHub.TaskPlanProjection
import AgoraHub.TaskPlanCapacity

namespace TaskPlan

open Fallible List PyDict CapacityScopeSnapshot TaskPlanBudgetLedger

variable {sha256 : String → HexDigest}

/-! ## Reservations one after the other -/

namespace TaskPlanBudgetLedger

variable {l l₁ l₂ l' : TaskPlanBudgetLedger sha256}

variable {f : LedgerFields}

/-- The turns of the reservation loop read the owner and the parent allocation only. -/
theorem reserveOne_congr {g : LedgerFields} (hrun : f.runId = g.runId)
    (hstage : f.stageId = g.stageId) (hparent : f.parentAllocation = g.parentAllocation) :
    (reserveOne f : _ → TaskInstance sha256 → _) = reserveOne g := by
  funext state i
  unfold reserveOne
  rw [hrun, hstage, hparent]

/-- A reservation returns the ledger that holds what its loop has collected. -/
theorem reserve_eq_ok {instances : List (TaskInstance sha256)} : l.reserve instances = .ok l' ↔
      instances.foldlM (reserveOne l.fields) (l.fields.records, l.fields.ledgerVersion) =
          .ok (l'.fields.records, l'.fields.ledgerVersion) ∧ l'.fields = { l.fields with
          records := l'.fields.records, ledgerVersion := l'.fields.ledgerVersion } := by
  constructor
  · intro h
    obtain ⟨added, hfields, -⟩ := (reserves_of_reserve h).appends
    unfold reserve at h
    obtain ⟨⟨rs, n⟩, hloop, hret⟩ := bind_inv h
    obtain ⟨fresh, rfl, rfl, -, -⟩ := foldlM_reserveOne_spec hloop
    by_cases hn : l.fields.ledgerVersion + fresh.length = l.fields.ledgerVersion
    · rw [if_pos hn] at hret
      cases hret
      have hnil : fresh = [] := length_eq_zero_iff.mp (by omega)
      subst hnil
      rw [append_nil] at hloop
      exact ⟨hloop, rfl⟩
    · rw [if_neg hn] at hret
      have hout := construct_eq_ok.mp hret
      rw [hloop]
      rw [hout]
      exact ⟨rfl, rfl⟩
  · rintro ⟨hloop, hfields⟩
    unfold reserve
    refine bind_intro hloop ?_
    obtain ⟨fresh, hrecords, hversion, -, -⟩ := foldlM_reserveOne_spec hloop
    by_cases hn : l'.fields.ledgerVersion = l.fields.ledgerVersion
    · rw [if_pos hn]
      have hnil : fresh = [] := length_eq_zero_iff.mp (by omega)
      rw [hnil, append_nil] at hrecords
      refine pure_eq_ok_iff.mpr (ext ?_)
      rw [hfields, hrecords, hn]
    · rw [if_neg hn]
      exact construct_eq_ok.mpr hfields

theorem reserve_nil : l.reserve [] = .ok l := reserve_eq_ok.mpr ⟨rfl, rfl⟩

/-- Two reservations after each other are one reservation of both batches. -/
theorem reserve_append {first second : List (TaskInstance sha256)}
    (h₁ : l.reserve first = .ok l₁) (h₂ : l₁.reserve second = .ok l₂) :
    l.reserve (first ++ second) = .ok l₂ := by
  obtain ⟨hloop₁, hfields₁⟩ := reserve_eq_ok.mp h₁
  obtain ⟨hloop₂, hfields₂⟩ := reserve_eq_ok.mp h₂
  have hsame : (reserveOne l₁.fields : _ → TaskInstance sha256 → _) = reserveOne l.fields := by
    rw [hfields₁]
    exact reserveOne_congr rfl rfl rfl
  refine reserve_eq_ok.mpr ⟨?_, ?_⟩
  · rw [foldlM_append, hloop₁, ok_bind, ← hsame]
    exact hloop₂
  · rw [hfields₂, hfields₁]

/-! ## A reservation over the budget -/

/-- The code of a reservation that exceeds the parent allocation. -/
def budgetExceededCode : String := "task_plan_budget_exceeded"

/-- What the ledger charges in a field, with an attempt added, is more than the parent has. -/
def Exceeds (l : TaskPlanBudgetLedger sha256) (i : TaskInstance sha256) : Prop :=
  ∃ d, l.fields.parentAllocation.amount d <
    sumOf (fun r => r.charged d) l.fields.records + i.fields.budgetSnapshot.amount d

variable {i : TaskInstance sha256}

/-- A computation that raises for the budget only when the reservation exceeds it. -/
abbrev RaisesExceeding {α : Type} (l : TaskPlanBudgetLedger sha256) (i : TaskInstance sha256)
    (x : Except HarnessValidationError α) : Prop :=
  Raises (fun e => e.code = budgetExceededCode → l.Exceeds i) x

/-- The checks of a new reservation raise no error with the code of an exceeded budget. -/
theorem raisesExceeding_newRecord {seen : SeenRecords} {n : ℕ}
    (hparent : budgetAllocation f.parentAllocation = .ok f.parentAllocation) :
    RaisesExceeding l i (checkRecord sha256 f f.parentAllocation seen
      (i.fields.idempotencyKey, newRecord f.parentAllocation i.toDict n)) := by
  have hzeros := budgetAllocation_congr hparent (Amounts.sameFields_zeros f.parentAllocation)
  have hdict : TaskInstance.fromDict sha256
      (newRecord f.parentAllocation i.toDict n).taskInstance = .ok i :=
    TaskInstance.fromDict_eq_ok.mpr rfl
  have hconsumed : budgetAllocation (newRecord f.parentAllocation i.toDict n).consumed =
      .ok f.parentAllocation.zeros := hzeros
  have hreleased : budgetAllocation (newRecord f.parentAllocation i.toDict n).released =
      .ok f.parentAllocation.zeros := hzeros
  -- a new record is outstanding
  have hreserved : (newRecord f.parentAllocation i.toDict n).status = .reserved := rfl
  simp [checkRecord, hdict, hconsumed, hreleased, positiveInt, checkStatus, hreserved, checkReserved,
    budgetExceededCode, invalidSnapshot, contractError, identityConflict]

/-- A turn that changes the version has appended the record of a new reservation. -/
theorem reserveOne_new {rs rs' : PyDict String BudgetRecord} {n n' : ℕ}
    (h : reserveOne f (rs, n) i = .ok (rs', n')) (hn : n' ≠ n) :
    rs' = rs ++ [(i.fields.idempotencyKey, newRecord f.parentAllocation i.toDict (n + 1))] ∧
      n' = n + 1 := by
  unfold reserveOne at h
  obtain ⟨-, hbody⟩ := check_inv h
  cases hget : rs.get? i.fields.idempotencyKey with
  | some existing =>
    rw [hget] at hbody
    obtain ⟨-, hrest⟩ := check_inv hbody
    obtain ⟨-, hret⟩ := check_inv hrest
    exact absurd (Prod.mk.inj (pure_eq_ok_iff.mp hret)).2.symm hn
  | none =>
    rw [hget] at hbody
    obtain ⟨-, hret⟩ := check_inv hbody
    cases hret
    exact ⟨set_of_notMem _ ((get?_eq_none_iff _ _).mp hget), rfl⟩

/-- The fields of a ledger with one more reservation. -/
def withReservation (f : LedgerFields) (i : TaskInstance sha256) : LedgerFields :=
  { f with
    records := f.records ++
      [(i.fields.idempotencyKey, newRecord f.parentAllocation i.toDict (f.ledgerVersion + 1))]
    ledgerVersion := f.ledgerVersion + 1 }

/-- The totals of a ledger with one more reservation. -/
theorem allocatedTotals_withReservation {d : BudgetField} {n : ℕ}
    (hd : f.parentAllocation.get d = some n) : (withReservation f i).allocatedTotals.amount d =
      sumOf (fun r => r.charged d) f.records + i.fields.budgetSnapshot.amount d := by
  have hd' : (withReservation f i).parentAllocation.get d = some n := hd
  have htotal : (withReservation f i).allocatedTotals.amount d =
      (withReservation f i).counters.consumed.amount d +
        (withReservation f i).counters.released.amount d +
        (withReservation f i).counters.reserved.amount d := by
    show ((Amounts.ofFn _).get d).getD 0 = _
    rw [Amounts.get_ofFn, hd']
    rfl
  rw [htotal]
  unfold LedgerFields.counters
  rw [amount_counter hd', amount_counter hd', amount_counter hd']
  have hnew : (newRecord f.parentAllocation i.toDict (f.ledgerVersion + 1)).charged d =
      i.fields.budgetSnapshot.amount d := by
    show f.parentAllocation.zeros.amount d + f.parentAllocation.zeros.amount d +
      i.fields.budgetSnapshot.amount d = _
    rw [Amounts.amount_zeros, Nat.zero_add]
  rw [← hnew]
  show sumOf _ (f.records ++ _) + sumOf _ (f.records ++ _) +
    sumOf _ (f.records ++ _) = _
  unfold sumOf BudgetRecord.charged PyDict.values
  simp only [map_append, map_cons, map_nil, sum_append, sum_cons,
    sum_nil, map_map, Function.comp_def, sum_map_add]
  omega

/-- The constructor raises for the budget only when the reservation exceeds it. -/
theorem raisesExceeding_check :
    RaisesExceeding l i ((withReservation l.fields i).check sha256) := by
  have hparent : budgetAllocation (withReservation l.fields i).parentAllocation =
    .ok l.fields.parentAllocation := l.checked.parent
  simp only [LedgerFields.check, raises_bind, hparent]
  refine ⟨by simp [identifier, requiredText, contractError, budgetExceededCode], fun _ _ =>
    ⟨by simp [identifier, requiredText, contractError, budgetExceededCode], fun _ _ =>
    ⟨by simp [exactReference, requiredText, contractError, budgetExceededCode], fun _ _ =>
    ⟨raises_ok _, fun parent hp => ⟨by simp [invalidSnapshot, budgetExceededCode], fun _ _ => ⟨?_,
    fun seen _ => ⟨by simp [invalidSnapshot, budgetExceededCode], fun _ _ => ⟨?_, fun _ _ => ?_⟩⟩⟩⟩⟩⟩⟩⟩
  · -- the old records pass as before, the new one raises no such error
    cases hp
    refine raises_foldlM_iff.mpr fun done entry rest s hsplit hs => ?_
    rw [(of_foldlM_check hs).1]
    refine raises_bind.mpr ⟨?_, fun _ _ => raises_ok _⟩
    rcases append_eq_append_iff.mp hsplit with ⟨mid, hdone, hrest⟩ | ⟨mid, hdone, hrest⟩
    · cases mid with
      | nil =>
        rw [nil_append] at hrest
        obtain ⟨rfl, -⟩ := List.cons.inj hrest
        exact raisesExceeding_newRecord l.checked.parent
      | cons x mid => simp at hrest
    · cases mid with
      | nil =>
        rw [nil_append] at hrest
        obtain ⟨rfl, -⟩ := List.cons.inj hrest
        exact raisesExceeding_newRecord l.checked.parent
      | cons x mid =>
        rw [cons_append] at hrest
        obtain ⟨rfl, -⟩ := List.cons.inj hrest
        have hold := l.checked.records done entry mid hdone
        exact fun e he => absurd (hold.symm.trans he) (by simp)
  · refine raises_foldlM fun previous r => ?_
    unfold checkRetry
    split <;> simp [identityConflict, budgetExceededCode]
  · cases hp
    refine raises_require.mpr fun hover _ => ?_
    obtain ⟨d, hd⟩ := not_forall.mp hover
    replace hd := not_le.mp hd
    refine ⟨d, ?_⟩
    cases hget : l.fields.parentAllocation.get d with
    | some n =>
      rw [allocatedTotals_withReservation hget] at hd
      exact hd
    | none =>
      -- a field outside the policy has no total
      have hzero : (withReservation l.fields i).allocatedTotals.amount d = 0 := by
        show ((Amounts.ofFn _).get d).getD 0 = 0
        rw [Amounts.get_ofFn]
        have hget' : (withReservation l.fields i).parentAllocation.get d = none := hget
        rw [hget']
        rfl
      omega

/-- A reservation that raises for the budget exceeds it: every other error has another code. -/
theorem raisesExceeding_reserve : RaisesExceeding l i (l.reserve [i]) := by
  unfold reserve
  refine raises_bind.mpr ⟨raises_foldlM fun state i => ?_, fun ⟨rs, n⟩ hloop => ?_⟩
  · unfold reserveOne
    refine raises_bind.mpr ⟨by simp [identityConflict, budgetExceededCode], fun _ _ => ?_⟩
    split <;> simp [identityConflict, budgetExceededCode]
  · dsimp only
    by_cases hn : n = l.fields.ledgerVersion
    · rw [if_pos hn]
      exact raises_pure _
    · rw [if_neg hn]
      obtain ⟨_, hone, hret⟩ := bind_inv hloop
      cases hret
      obtain ⟨rfl, rfl⟩ := reserveOne_new hone hn
      unfold construct
      split
      · exact raises_ok _
      · rename_i hcheck
        exact raises_error.mpr (raisesExceeding_check _ hcheck)

end TaskPlanBudgetLedger

/-! ## What a selection asks for -/

namespace PackingInput

variable (x : PackingInput sha256)

/-- The demands of some tasks, in order. -/
def demandsOf (tasks : List String) : List TaskCapacityDemand := tasks.filterMap x.demands.get?

/-- What some tasks ask of a pool together. -/
def demanded (tasks : List String) (poolId : String) : ℕ :=
  ((x.demandsOf tasks).map fun d => (d.fields.quantities.get? poolId).getD 0).sum

/-- The attempt given for a task. -/
def instance? (taskId : String) : Option (TaskInstance sha256) :=
  (x.taskInstances.getD []).get? taskId

/-- The attempts of some tasks, in order. -/
def instancesOf (tasks : List String) : List (TaskInstance sha256) := tasks.filterMap x.instance?

theorem demandsOf_append (a b : List String) :
    x.demandsOf (a ++ b) = x.demandsOf a ++ x.demandsOf b := filterMap_append

theorem demanded_append (a b : List String) (poolId : String) :
    x.demanded (a ++ b) poolId = x.demanded a poolId + x.demanded b poolId := by
  unfold demanded
  rw [demandsOf_append, map_append, sum_append]

variable {t : String}

theorem demandsOf_singleton_of_none (h : x.demands.get? t = none) : x.demandsOf [t] = [] := by
  unfold demandsOf
  rw [filterMap_cons_none h, filterMap_nil]

theorem demandsOf_singleton_of_some {d : TaskCapacityDemand} (h : x.demands.get? t = some d) :
    x.demandsOf [t] = [d] := by
  unfold demandsOf
  rw [filterMap_cons_some h, filterMap_nil]

theorem demanded_singleton_of_none (h : x.demands.get? t = none) (poolId : String) :
    x.demanded [t] poolId = 0 := by
  unfold demanded
  rw [x.demandsOf_singleton_of_none h]
  rfl

theorem demanded_singleton_of_some {d : TaskCapacityDemand} (h : x.demands.get? t = some d)
    (poolId : String) : x.demanded [t] poolId = (d.fields.quantities.get? poolId).getD 0 := by
  unfold demanded
  rw [x.demandsOf_singleton_of_some h]
  exact Nat.add_zero _

theorem instancesOf_append (a b : List String) :
    x.instancesOf (a ++ b) = x.instancesOf a ++ x.instancesOf b := filterMap_append

theorem instancesOf_singleton {i : TaskInstance sha256} (h : x.instance? t = some i) :
    x.instancesOf [t] = [i] := by
  unfold instancesOf
  rw [filterMap_cons_some h, filterMap_nil]

/-- The pool counts after a demand is taken. -/
theorem get?_take {allocations : PyDict String ℕ} (hd : allocations.keys.Nodup) :
    ∀ (remaining : PyDict String ℕ) (poolId : String), (take remaining allocations).get? poolId =
        match allocations.get? poolId with
        | none => remaining.get? poolId
        | some quantity => some ((remaining.get? poolId).getD 0 - quantity) := by
  unfold take
  induction allocations with
  | nil =>
    intro remaining poolId
    rfl
  | cons entry rest ih =>
    intro remaining poolId
    obtain ⟨hfresh, hrest⟩ := nodup_cons.mp hd
    rw [foldl_cons, ih hrest, get?_cons]
    by_cases hpool : entry.1 = poolId
    · subst hpool
      rw [(get?_eq_none_iff _ _).mpr hfresh, if_pos rfl]
      exact get?_set_self _ _ _
    · rw [if_neg hpool, get?_set_of_ne _ _ (Ne.symm hpool)]

/-! ## One turn of the loop -/

/-- A task does not fit the state it is looked at in. -/
def Overflows (s : PackState sha256) (t : String) : Prop :=
  x.maxTasks ≤ s.selected.length ∨
    (∃ demand, x.demands.get? t = some demand ∧
      (ExceedsPool s.remaining demand ∨ x.ConflictsResource s.selectedDemands demand)) ∨
    ∃ l i, s.ledger = some l ∧ x.instance? t = some i ∧ l.Exceeds i

/-- A task fits the state it is looked at in. -/
structure Fits (s : PackState sha256) (t : String)
    (ledger : Option (TaskPlanBudgetLedger sha256)) : Prop where
  count : s.selected.length < x.maxTasks
  demand : ∀ demand, x.demands.get? t = some demand →
    ¬ ExceedsPool s.remaining demand ∧ ¬ x.ConflictsResource s.selectedDemands demand
  unbudgeted : s.ledger = none → ledger = none
  budget : ∀ l, s.ledger = some l → ∃ i l', x.instance? t = some i ∧ i.fields.taskId = t ∧
    l.reserve [i] = .ok l' ∧ ledger = some l'

/-- The reason before the budget is looked at is a reason to overflow. -/
theorem overflows_of_overflowReason {s : PackState sha256} {t reason : String}
    (h : x.overflowReason s t = some reason) : x.Overflows s t := by
  unfold overflowReason at h
  by_cases hcount : x.maxTasks ≤ s.selected.length
  · exact Or.inl hcount
  · rw [if_neg hcount] at h
    refine Or.inr (Or.inl ?_)
    cases hd : x.demands.get? t with
    | none =>
      rw [hd] at h
      cases h
    | some demand =>
      rw [hd] at h
      dsimp only at h
      refine ⟨demand, rfl, ?_⟩
      by_cases hpool : ExceedsPool s.remaining demand
      · exact Or.inl hpool
      · rw [if_neg hpool] at h
        by_cases hresource : x.ConflictsResource s.selectedDemands demand
        · exact Or.inr hresource
        · rw [if_neg hresource] at h
          cases h

/-- Without a reason the count and the demand fit. -/
theorem fits_of_overflowReason {s : PackState sha256} (h : x.overflowReason s t = none) :
    s.selected.length < x.maxTasks ∧ ∀ demand, x.demands.get? t = some demand →
      ¬ ExceedsPool s.remaining demand ∧ ¬ x.ConflictsResource s.selectedDemands demand := by
  unfold overflowReason at h
  by_cases hcount : x.maxTasks ≤ s.selected.length
  · rw [if_pos hcount] at h
    cases h
  · rw [if_neg hcount] at h
    refine ⟨not_le.mp hcount, ?_⟩
    intro demand hd
    rw [hd] at h
    dsimp only at h
    by_cases hpool : ExceedsPool s.remaining demand
    · rw [if_pos hpool] at h
      cases h
    · rw [if_neg hpool] at h
      by_cases hresource : x.ConflictsResource s.selectedDemands demand
      · rw [if_pos hresource] at h
        cases h
      · exact ⟨hpool, hresource⟩

variable {ledger : Option (TaskPlanBudgetLedger sha256)}

/-- What the budget step answers. -/
theorem reserveBudget_spec {answer : Option (Option (TaskPlanBudgetLedger sha256))}
    (h : x.reserveBudget ledger t = .ok answer) : (ledger = none ∧ answer = some none) ∨
      ∃ l i, ledger = some l ∧ x.instance? t = some i ∧ i.fields.taskId = t ∧
        ((answer = none ∧ l.Exceeds i) ∨
          ∃ l', l.reserve [i] = .ok l' ∧ answer = some (some l')) := by
  unfold reserveBudget at h
  cases ledger with
  | none => exact Or.inl ⟨rfl, (ok_inj h).symm⟩
  | some l =>
    refine Or.inr ?_
    obtain ⟨i, hi, h₁⟩ := bind_inv h
    have hfilter := orRaise_eq_ok.mp hi
    rw [Option.filter_eq_some_iff] at hfilter
    obtain ⟨hget, htask⟩ := hfilter
    refine ⟨l, i, rfl, hget, of_decide_eq_true htask, ?_⟩
    split at h₁
    · rename_i l' hreserve
      exact Or.inr ⟨l', hreserve, (pure_eq_ok_iff.mp h₁).symm⟩
    · rename_i e hreserve
      by_cases hcode : e.code = "task_plan_budget_exceeded"
      · rw [if_pos hcode] at h₁
        exact Or.inl ⟨(pure_eq_ok_iff.mp h₁).symm,
          TaskPlanBudgetLedger.raisesExceeding_reserve _ hreserve hcode⟩
      · rw [if_neg hcode] at h₁
        cases h₁

/-- One turn: the task is new, and it overflows or is selected. -/
theorem packOne_spec {s s' : PackState sha256} (h : x.packOne s t = .ok s') :
    t ∉ s.readyOrder ∧ x.checkDemand t = .ok () ∧
      ((∃ reason, s' = overflowed s t reason ∧ x.Overflows s t) ∨
        ∃ key ledger, s' = x.selectedTask s t key ledger ∧ x.Fits s t ledger) := by
  unfold packOne at h
  obtain ⟨-, h₁⟩ := check_inv h
  obtain ⟨hnew, h₂⟩ := check_inv h₁
  obtain ⟨hdemand, h₃⟩ := check_inv h₂
  refine ⟨of_require hnew, hdemand, ?_⟩
  cases hreason : x.overflowReason s t with
  | some reason =>
    rw [hreason] at h₃
    exact Or.inl ⟨reason, (pure_eq_ok_iff.mp h₃).symm, x.overflows_of_overflowReason hreason⟩
  | none =>
    rw [hreason] at h₃
    obtain ⟨hcount, hfits⟩ := x.fits_of_overflowReason hreason
    obtain ⟨-, h₄⟩ := check_inv h₃
    obtain ⟨answer, hanswer, h₅⟩ := bind_inv h₄
    rcases x.reserveBudget_spec hanswer with ⟨hnone, rfl⟩ | ⟨l, i, hl, hi, htask, hcase⟩
    · -- no budget is given
      refine Or.inr ⟨_, _, (pure_eq_ok_iff.mp h₅).symm, hcount, hfits, fun _ => rfl, ?_⟩
      intro l hl
      rw [hnone] at hl
      cases hl
    · rcases hcase with ⟨rfl, hexceeds⟩ | ⟨l', hreserve, rfl⟩
      · exact Or.inl ⟨_, (pure_eq_ok_iff.mp h₅).symm, Or.inr (Or.inr ⟨l, i, hl, hi, hexceeds⟩)⟩
      · refine Or.inr ⟨_, _, (pure_eq_ok_iff.mp h₅).symm, hcount, hfits, ?_, ?_⟩
        · intro hnone
          rw [hl] at hnone
          cases hnone
        · intro k hk
          obtain rfl := Option.some.inj (hl.symm.trans hk)
          exact ⟨i, l', hi, htask, hreserve, rfl⟩

/-! ## The loop -/

/-- The demands of a selection conflict neither with each other nor with the occupied ones. -/
structure Compatible (demands : List TaskCapacityDemand) : Prop where
  pairwise : demands.Pairwise fun a b => resourceDemandsConflict a b = false
  occupiedDemands : ∀ d ∈ demands, ∀ active ∈ x.occupiedResourceDemands,
    resourceDemandsConflict d active = false
  occupiedKeys : ∀ d ∈ demands, ∀ key ∈ d.fields.resourceConflictKey,
    key ∉ x.occupiedResourceKeys

/-- What holds after the turns of some tasks. -/
structure Holds (before : Option (TaskPlanBudgetLedger sha256)) (done : List String)
    (s : PackState sha256) : Prop where
  ready : s.readyOrder = done
  nodup : done.Nodup
  selected : done.filter (fun t => decide (t ∈ s.selected)) = s.selected
  demands : s.selectedDemands = x.demandsOf s.selected
  pools : ∀ poolId p, x.pools.get? poolId = some p →
    x.demanded s.selected poolId ≤ p.available ∧
      s.remaining.get? poolId = some (p.available - x.demanded s.selected poolId)
  compatible : x.Compatible (x.demandsOf s.selected)
  count : s.selected.length ≤ x.maxTasks
  unbudgeted : before = none → s.ledger = none
  budget : ∀ l, before = some l → (∃ l', s.ledger = some l' ∧
    l.reserve (x.instancesOf s.selected) = .ok l') ∧
      ∀ t ∈ s.selected, ∃ i, x.instance? t = some i ∧ i.fields.taskId = t
  reserved : s.reservations.length = s.selectedDemands.length

variable {x}
variable {before : Option (TaskPlanBudgetLedger sha256)} {done : List String}
  {s s' : PackState sha256}

/-- The loop starts with nothing selected. -/
theorem holds_start : x.Holds before [] (x.start before) where
  ready := rfl
  nodup := nodup_nil
  selected := rfl
  demands := rfl
  pools := by
    intro poolId p hp
    refine ⟨Nat.zero_le _, ?_⟩
    show (PyDict.get? (x.pools.map _) poolId) = _
    have hmap : ∀ pools : PyDict String CapacityPool,
        PyDict.get? (pools.map fun p => (p.1, p.2.available)) poolId =
          (pools.get? poolId).map CapacityPool.available := by
      intro pools
      induction pools with
      | nil => rfl
      | cons entry pools ih =>
        rw [map_cons, get?_cons, get?_cons, ih]
        by_cases h : entry.1 = poolId <;> simp [h]
    rw [hmap, hp]
    rfl
  compatible := ⟨List.Pairwise.nil, by simp [demandsOf, start], by simp [demandsOf, start]⟩
  count := Nat.zero_le _
  unbudgeted := fun h => h
  budget := by
    rintro l rfl
    refine ⟨⟨l, rfl, TaskPlanBudgetLedger.reserve_nil⟩, ?_⟩
    intro t ht
    cases ht
  reserved := rfl

section

variable (h : x.Holds before done s)

include h

theorem Holds.notMem_selected (ht : t ∉ s.readyOrder) : t ∉ s.selected := by
  intro hmem
  rw [← h.selected] at hmem
  rw [h.ready] at ht
  exact ht (mem_filter.mp hmem).1

/-- A turn in which a task overflows. -/
theorem holds_overflowed {t reason : String}
    (ht : t ∉ s.readyOrder) : x.Holds before (done ++ [t]) (overflowed s t reason) where
  ready := by
    show s.readyOrder ++ [t] = _
    rw [h.ready]
  nodup := by
    rw [h.ready] at ht
    exact nodup_append.mpr ⟨h.nodup, nodup_singleton t, by
      rintro a ha b hb rfl
      exact ht (mem_singleton.mp hb ▸ ha)⟩
  selected := by
    show (done ++ [t]).filter (fun u => decide (u ∈ s.selected)) = s.selected
    rw [filter_append, h.selected, filter_singleton]
    simp [h.notMem_selected ht]
  demands := h.demands
  pools := h.pools
  compatible := h.compatible
  count := h.count
  unbudgeted := h.unbudgeted
  budget := h.budget
  reserved := h.reserved

/-- The demands of a selection and of one more task that fits are compatible. -/
theorem compatible_append (hfits : x.Fits s t ledger) :
    x.Compatible (x.demandsOf (s.selected ++ [t])) := by
  rw [demandsOf_append]
  cases hd : x.demands.get? t with
  | none =>
    rw [x.demandsOf_singleton_of_none hd, append_nil]
    exact h.compatible
  | some demand =>
    rw [x.demandsOf_singleton_of_some hd]
    have hfree := (hfits.demand demand hd).2
    unfold ConflictsResource at hfree
    rw [not_or, not_or] at hfree
    obtain ⟨hkeys, hactive, hselected⟩ := hfree
    refine ⟨?_, ?_, ?_⟩
    · refine pairwise_append.mpr ⟨h.compatible.pairwise, pairwise_singleton _ _, ?_⟩
      intro a ha b hb
      obtain rfl := mem_singleton.mp hb
      rw [resourceDemandsConflict_comm]
      rw [← h.demands] at ha
      by_contra hconflict
      exact hselected ⟨a, ha, by simpa using hconflict⟩
    · intro d hmem active hin
      rcases mem_append.mp hmem with hold | hnew
      · exact h.compatible.occupiedDemands d hold active hin
      · obtain rfl := mem_singleton.mp hnew
        by_contra hconflict
        exact hactive ⟨active, hin, by simpa using hconflict⟩
    · intro d hmem key hkey
      rcases mem_append.mp hmem with hold | hnew
      · exact h.compatible.occupiedKeys d hold key hkey
      · obtain rfl := mem_singleton.mp hnew
        exact fun hin => hkeys ⟨key, hkey, hin⟩

/-- The pool counts after one more task that fits. -/
theorem pools_append {t key : String} (hfits : x.Fits s t ledger)
    {poolId : String} {p : CapacityPool} (hp : x.pools.get? poolId = some p) :
    x.demanded (s.selected ++ [t]) poolId ≤ p.available ∧
      (x.selectedTask s t key ledger).remaining.get? poolId =
        some (p.available - x.demanded (s.selected ++ [t]) poolId) := by
  obtain ⟨hle, hremaining⟩ := h.pools poolId p hp
  rw [demanded_append]
  unfold selectedTask
  cases hd : x.demands.get? t with
  | none =>
    rw [x.demanded_singleton_of_none hd]
    exact ⟨hle, hremaining⟩
  | some demand =>
    rw [x.demanded_singleton_of_some hd]
    rw [get?_take demand.fields.nodup]
    cases hq : demand.fields.quantities.get? poolId with
    | none => exact ⟨hle, hremaining⟩
    | some quantity =>
      have hroom : ¬ (s.remaining.get? poolId).getD 0 < quantity := fun hlt =>
        (hfits.demand demand hd).1 ⟨(poolId, quantity), mem_of_get? hq, hlt⟩
      rw [hremaining] at hroom ⊢
      simp only [Option.getD_some] at hroom ⊢
      refine ⟨by omega, ?_⟩
      congr 1
      omega

/-- The ledger after one more task that fits. -/
theorem budget_append (hfits : x.Fits s t ledger)
    {l : TaskPlanBudgetLedger sha256} (hl : before = some l) :
    (∃ l', ledger = some l' ∧ l.reserve (x.instancesOf (s.selected ++ [t])) = .ok l') ∧
      ∀ u ∈ s.selected ++ [t], ∃ i, x.instance? u = some i ∧ i.fields.taskId = u := by
  obtain ⟨⟨l₁, hl₁, hreserve₁⟩, hinstances⟩ := h.budget l hl
  obtain ⟨i, l₂, hi, htask, hreserve₂, hledger⟩ := hfits.budget l₁ hl₁
  refine ⟨⟨l₂, hledger, ?_⟩, ?_⟩
  · rw [instancesOf_append, x.instancesOf_singleton hi]
    exact TaskPlanBudgetLedger.reserve_append hreserve₁ hreserve₂
  · intro u hu
    rcases mem_append.mp hu with hu | hu
    · exact hinstances u hu
    · obtain rfl := mem_singleton.mp hu
      exact ⟨i, hi, htask⟩

end

theorem selected_selectedTask (s : PackState sha256) (t key : String)
    (ledger : Option (TaskPlanBudgetLedger sha256)) :
    (x.selectedTask s t key ledger).selected = s.selected ++ [t] := by
  unfold selectedTask
  split <;> rfl

theorem readyOrder_selectedTask (s : PackState sha256) (t key : String)
    (ledger : Option (TaskPlanBudgetLedger sha256)) :
    (x.selectedTask s t key ledger).readyOrder = s.readyOrder ++ [t] := by
  unfold selectedTask
  split <;> rfl

theorem ledger_selectedTask (s : PackState sha256) (t key : String)
    (ledger : Option (TaskPlanBudgetLedger sha256)) :
    (x.selectedTask s t key ledger).ledger = ledger := by
  unfold selectedTask
  split <;> rfl

/-- A turn in which a task is selected. -/
theorem holds_selectedTask (h : x.Holds before done s) {t key : String} (ht : t ∉ s.readyOrder)
    (hfits : x.Fits s t ledger) : x.Holds before (done ++ [t]) (x.selectedTask s t key ledger) := by
  refine ⟨?_, ?_, ?_, ?_, ?_, ?_, ?_, ?_, ?_, ?_⟩
  · rw [readyOrder_selectedTask, h.ready]
  · rw [h.ready] at ht
    refine nodup_append.mpr ⟨h.nodup, nodup_singleton t, ?_⟩
    rintro a ha b hb rfl
    exact ht (mem_singleton.mp hb ▸ ha)
  · -- the new task is neither done before nor selected before
    rw [selected_selectedTask, filter_append, filter_singleton]
    have hold : done.filter (fun u => decide (u ∈ s.selected ++ [t])) = s.selected := by
      rw [← h.selected]
      apply filter_congr
      intro u hu
      have hne : u ≠ t := fun heq => ht (by rw [h.ready, ← heq]; exact hu)
      rw [h.selected]
      simp [hne]
    rw [hold]
    simp
  · rw [selected_selectedTask, demandsOf_append, ← h.demands]
    unfold selectedTask
    cases hd : x.demands.get? t with
    | none => rw [x.demandsOf_singleton_of_none hd, append_nil]
    | some demand => rw [x.demandsOf_singleton_of_some hd]
  · intro poolId p hp
    rw [selected_selectedTask]
    exact pools_append h hfits hp
  · rw [selected_selectedTask]
    exact compatible_append h hfits
  · rw [selected_selectedTask, length_append]
    exact hfits.count
  · intro hnone
    rw [ledger_selectedTask]
    exact hfits.unbudgeted (h.unbudgeted hnone)
  · intro l hl
    rw [ledger_selectedTask, selected_selectedTask]
    exact budget_append h hfits hl
  · have hlength := h.reserved
    unfold selectedTask
    cases x.demands.get? t with
    | none => exact hlength
    | some demand =>
      rw [length_append, length_append, hlength]
      rfl

theorem holds_packOne (h : x.Holds before done s) (hturn : x.packOne s t = .ok s') :
    x.Holds before (done ++ [t]) s' := by
  rcases x.packOne_spec hturn with ⟨ht, -, ⟨reason, rfl, -⟩ | ⟨key, ledger, rfl, hfits⟩⟩
  · exact holds_overflowed h ht
  · exact holds_selectedTask h ht hfits

variable {tasks : List String}

/-- What holds after the whole loop. -/
theorem holds_foldlM : ∀ {done : List String} {s s' : PackState sha256},
    x.Holds before done s → tasks.foldlM x.packOne s = .ok s' →
      x.Holds before (done ++ tasks) s' := by
  induction tasks with
  | nil =>
    intro done s s' h hloop
    cases hloop
    rw [append_nil]
    exact h
  | cons t tasks ih =>
    intro done s s' h hloop
    rw [foldlM_cons] at hloop
    obtain ⟨mid, hturn, hrest⟩ := bind_inv hloop
    have hmid := ih (holds_packOne h hturn) hrest
    rw [append_assoc] at hmid
    exact hmid

/-- The loop only adds to the selection, and only tasks of its list. -/
theorem selected_foldlM : ∀ {s s' : PackState sha256},
    tasks.foldlM x.packOne s = .ok s' →
      ∃ more, s'.selected = s.selected ++ more ∧ ∀ t ∈ more, t ∈ tasks := by
  induction tasks with
  | nil =>
    intro s s' hloop
    cases hloop
    exact ⟨[], (append_nil _).symm, by simp⟩
  | cons t tasks ih =>
    intro s s' hloop
    rw [foldlM_cons] at hloop
    obtain ⟨mid, hturn, hrest⟩ := bind_inv hloop
    obtain ⟨more, hmore, hin⟩ := ih hrest
    rcases x.packOne_spec hturn with ⟨-, -, ⟨reason, rfl, -⟩ | ⟨key, ledger, rfl, -⟩⟩
    · exact ⟨more, hmore, fun u hu => mem_cons_of_mem _ (hin u hu)⟩
    · refine ⟨t :: more, ?_, ?_⟩
      · rw [hmore, selected_selectedTask, append_assoc]
        rfl
      · intro u hu
        rcases mem_cons.mp hu with rfl | hu
        · exact mem_cons_self
        · exact mem_cons_of_mem _ (hin u hu)

/-- A task in the overflow has overflowed in its own turn. -/
theorem overflow_foldlM : ∀ {s s' : PackState sha256},
    tasks.foldlM x.packOne s = .ok s' → t ∈ s'.overflow → t ∈ s.overflow ∨
      ∃ earlier later mid reason, tasks = earlier ++ t :: later ∧
        earlier.foldlM x.packOne s = .ok mid ∧ x.packOne mid t = .ok (overflowed mid t reason) ∧
        x.Overflows mid t ∧ x.checkDemand t = .ok () ∧
        later.foldlM x.packOne (overflowed mid t reason) = .ok s' := by
  induction tasks with
  | nil =>
    intro s s' hloop ht
    cases hloop
    exact Or.inl ht
  | cons u tasks ih =>
    intro s s' hloop ht
    rw [foldlM_cons] at hloop
    obtain ⟨mid, hturn, hrest⟩ := bind_inv hloop
    rcases ih hrest ht with hmid | ⟨earlier, later, m, reason, rfl, hearlier, hout⟩
    · rcases x.packOne_spec hturn with ⟨-, hdemand, ⟨reason, rfl, hover⟩ | ⟨key, ledger, rfl, -⟩⟩
      · rcases mem_append.mp hmid with hold | hnew
        · exact Or.inl hold
        · obtain rfl := mem_singleton.mp hnew
          exact Or.inr ⟨[], tasks, s, reason, rfl, rfl, hturn, hover, hdemand, hrest⟩
      · left
        unfold selectedTask at hmid
        split at hmid <;> exact hmid
    · refine Or.inr ⟨u :: earlier, later, m, reason, rfl, ?_, hout⟩
      rw [foldlM_cons, hturn, ok_bind]
      exact hearlier

/-! ## The guarantees -/

section

variable (x : PackingInput sha256)

/-- A task does not fit after some tasks are chosen: too many tasks, too much of a
pool, a resource conflict, or too much of the budget. -/
def DoesNotFit (chosen : List String) (t : String) : Prop :=
  x.maxTasks ≤ chosen.length ∨
    (∃ demand, x.demands.get? t = some demand ∧
      ((∃ poolId p, x.pools.get? poolId = some p ∧ p.available <
          x.demanded chosen poolId + (demand.fields.quantities.get? poolId).getD 0) ∨
        x.ConflictsResource (x.demandsOf chosen) demand)) ∨
    ∃ snapshot l l' i, x.budgetSnapshot = some snapshot ∧
      fromSnapshot sha256 snapshot = .ok l ∧
      l.reserve (x.instancesOf chosen) = .ok l' ∧ x.instance? t = some i ∧ l'.Exceeds i

/-- A pool after the packing reserves what the selection asks for, on top. -/
def ReservesMore (selected : List String) (p q : CapacityPool) : Prop :=
  q.fields.poolId = p.fields.poolId ∧ q.fields.capacity = p.fields.capacity ∧
    q.fields.reserved = p.fields.reserved + x.demanded selected p.fields.poolId

/-- The turn of an overflowing task: it looks at exactly the tasks selected before
it, does not fit after them, and leaves the pool counts and the ledger alone. -/
def OverflowTurn (selected : List String) (t : String) : Prop :=
  ∃ earlier later ledger s s', x.taskIds = earlier ++ t :: later ∧ x.ledgerBefore = .ok ledger ∧
    earlier.foldlM x.packOne (x.start ledger) = .ok s ∧
    s.selected = earlier.filter (fun u => decide (u ∈ selected)) ∧
    x.DoesNotFit (earlier.filter fun u => decide (u ∈ selected)) t ∧
    x.packOne s t = .ok s' ∧ s'.remaining = s.remaining ∧ s'.ledger = s.ledger

/-- The budget evidence of a selection: one batch reservation of its attempts, which
is what an admission of these attempts consumes. -/
def BudgetEvidence (packing : FirstFitPacking) (snapshot : BudgetSnapshot) : Prop :=
  (x.instancesOf packing.selected).map (fun i => i.fields.taskId) = packing.selected ∧
    (∃ l l' : TaskPlanBudgetLedger sha256, fromSnapshot sha256 snapshot = .ok l ∧
      l.reserve (x.instancesOf packing.selected) = .ok l' ∧
      packing.admittedBudgetSnapshot = some l'.snapshot) ∧
    ∀ p p' owner, p.consumedBudget = some snapshot →
      TaskPlanScheduler.admitReadyTasks p (x.instancesOf packing.selected) owner = .ok p' →
      p'.consumedBudget = packing.admittedBudgetSnapshot

end

/-- What a packing guarantees. -/
structure Guarantees (x : PackingInput sha256) (packing : FirstFitPacking) : Prop where
  within : ∀ poolId p, x.pools.get? poolId = some p →
    x.demanded packing.selected poolId ≤ p.available
  evidenced : x.pools ≠ [] → packing.capacityBefore.isSome = true
  capacity : ∀ before ∈ packing.capacityBefore, before.pools = x.orderedPools ∧
    ∃ after ∈ packing.capacityAfter,
      List.Forall₂ (x.ReservesMore packing.selected) before.pools after.pools
  compatible : x.Compatible (x.demandsOf packing.selected)
  count : packing.selected.length ≤ x.maxTasks
  overflow : ∀ t ∈ packing.overflow, x.OverflowTurn packing.selected t
  unbudgeted : x.budgetSnapshot = none → packing.admittedBudgetSnapshot = none
  budget : ∀ snapshot, x.budgetSnapshot = some snapshot → x.BudgetEvidence packing snapshot

/-- The loop's reason to overflow, in terms of the tasks selected before. -/
theorem doesNotFit_of_overflows (h : x.Holds before done s) (hbefore : x.ledgerBefore = .ok before)
    (hdemand : x.checkDemand t = .ok ()) (hover : x.Overflows s t) : x.DoesNotFit s.selected t := by
  rcases hover with hcount | ⟨demand, hd, hpool | hresource⟩ | ⟨l, i, hl, hi, hexceeds⟩
  · exact Or.inl hcount
  · refine Or.inr (Or.inl ⟨demand, hd, Or.inl ?_⟩)
    obtain ⟨⟨poolId, quantity⟩, hentry, hlt⟩ := hpool
    -- the demand names pools of the packing only
    unfold checkDemand at hdemand
    rw [hd] at hdemand
    have hknown := of_require (check_inv hdemand).2
    rcases (mem_keys_iff _ _).mp (hknown poolId (mem_map.mpr ⟨_, hentry, rfl⟩))
      with ⟨p, hp⟩
    obtain ⟨hle, hremaining⟩ := h.pools poolId p hp
    refine ⟨poolId, p, hp, ?_⟩
    rw [get?_of_mem demand.fields.nodup hentry]
    rw [hremaining] at hlt
    simp only [Option.getD_some] at hlt ⊢
    omega
  · refine Or.inr (Or.inl ⟨demand, hd, Or.inr ?_⟩)
    rw [← h.demands]
    exact hresource
  · refine Or.inr (Or.inr ?_)
    unfold ledgerBefore at hbefore
    cases hsnapshot : x.budgetSnapshot with
    | none =>
      rw [hsnapshot] at hbefore
      have hnone := h.unbudgeted (ok_inj hbefore).symm
      rw [hl] at hnone
      cases hnone
    | some snapshot =>
      rw [hsnapshot] at hbefore
      obtain ⟨l₀, hl₀, hret⟩ := bind_inv hbefore
      obtain ⟨l', hl', hreserve⟩ := (h.budget l₀ (pure_eq_ok_iff.mp hret).symm).1
      obtain rfl := Option.some.inj (hl.symm.trans hl')
      exact ⟨snapshot, l₀, l, i, rfl, hl₀, hreserve, hi, hexceeds⟩

/-- What was selected before a task, read off the final selection. -/
theorem selected_eq_filter {earlier later : List String} {mid : PackState sha256}
    (hmid : x.Holds before earlier mid) (hnodup : (earlier ++ t :: later).Nodup)
    {more : List String} (hmore : s.selected = mid.selected ++ more) (hin : ∀ u ∈ more, u ∈ later) :
    mid.selected = earlier.filter fun u => decide (u ∈ s.selected) := by
  rw [hmore]
  have hcongr : earlier.filter (fun u => decide (u ∈ mid.selected ++ more)) =
      earlier.filter fun u => decide (u ∈ mid.selected) := by
    apply filter_congr
    intro u hu
    have hfresh : u ∉ more := fun hmem =>
      (nodup_append.mp hnodup).2.2 u hu u (mem_cons_of_mem _ (hin u hmem)) rfl
    simp [hfresh]
  rw [hcongr, hmid.selected]

/-- Every task that overflowed did so in its turn. -/
theorem overflowTurn_of_foldlM (hledger : x.ledgerBefore = .ok ledger)
    (hloop : x.taskIds.foldlM x.packOne (x.start ledger) = .ok s) (ht : t ∈ s.overflow) :
    x.OverflowTurn s.selected t := by
  have hall : x.Holds ledger x.taskIds s := holds_foldlM holds_start hloop
  rcases overflow_foldlM hloop ht with hstart | ⟨earlier, later, mid, reason, hsplit, hearlier,
    hturn, hover, hdemand, hlater⟩
  · cases hstart
  · have hmid : x.Holds ledger earlier mid := holds_foldlM holds_start hearlier
    obtain ⟨more, hmore, hin⟩ := selected_foldlM hlater
    have hnodup := hall.nodup
    rw [hsplit] at hnodup
    have hselected := selected_eq_filter hmid hnodup hmore hin
    refine ⟨earlier, later, ledger, mid, _, hsplit, hledger, hearlier, hselected, ?_, hturn, rfl,
      rfl⟩
    rw [← hselected]
    exact doesNotFit_of_overflows hmid hledger hdemand hover

/-- A pool after the packing. -/
theorem fields_of_poolAfter {remaining : PyDict String ℕ} {p q : CapacityPool} {n : ℕ}
    (h : poolAfter remaining p = .ok q) (hle : n ≤ p.available)
    (hremaining : remaining.get? p.fields.poolId = some (p.available - n)) :
    q.fields.poolId = p.fields.poolId ∧ q.fields.capacity = p.fields.capacity ∧
      q.fields.reserved = p.fields.reserved + n := by
  unfold poolAfter at h
  have hfields := CapacityPool.fields_of_construct h
  rw [hfields]
  refine ⟨rfl, rfl, ?_⟩
  show p.fields.capacity - (remaining.get? p.fields.poolId).getD 0 = _
  rw [hremaining, Option.getD_some]
  have hreserved := p.reserved_le
  unfold CapacityPool.available at hle ⊢
  omega

variable {scope : Option CapacityScopeSnapshot}

/-- The scope snapshot before the packing is over the pools of the packing. -/
theorem pools_of_capacityBefore (h : x.capacityBefore = .ok scope) :
    (∀ b ∈ scope, b.pools = x.orderedPools) ∧ (x.pools ≠ [] → scope.isSome = true) := by
  unfold capacityBefore at h
  split at h
  · rename_i snapshot hsnapshot
    obtain ⟨hsame, h₁⟩ := check_inv h
    obtain rfl := pure_eq_ok_iff.mp (check_inv h₁).2
    refine ⟨?_, fun _ => rfl⟩
    intro b hb
    cases hb
    exact (of_require hsame).2
  · by_cases hempty : x.orderedPools = []
    · rw [if_pos hempty] at h
      cases h
      refine ⟨by simp, ?_⟩
      intro hpools
      -- sorting keeps the number of pools
      have hlength : x.orderedPools.length = x.pools.length := by
        unfold orderedPools
        rw [length_insertionSort]
        exact length_map _
      rw [hempty] at hlength
      exact absurd (length_eq_zero_iff.mp hlength.symm) hpools
    · rw [if_neg hempty] at h
      obtain ⟨snapshot, hsnapshot, h₁⟩ := bind_inv h
      cases h₁
      refine ⟨?_, fun _ => rfl⟩
      intro b hb
      cases hb
      rw [eq_of_construct hsnapshot]

theorem get?_of_mem_orderedPools
    (hkeyed : ∀ entry ∈ x.pools, entry.1 = entry.2.fields.poolId) {p : CapacityPool}
    (hp : p ∈ x.orderedPools) : x.pools.get? p.fields.poolId = some p := by
  unfold orderedPools at hp
  rw [mem_insertionSort] at hp
  obtain ⟨entry, hentry, rfl⟩ := mem_map.mp hp
  rw [← hkeyed entry hentry]
  exact get?_of_mem x.nodup hentry

/-- The scope snapshot after the packing. -/
theorem reservesMore_of_capacityAfter (h : x.Holds before done s)
    (hkeyed : ∀ entry ∈ x.pools, entry.1 = entry.2.fields.poolId)
    {after : Option CapacityScopeSnapshot} {afterPools : List CapacityPool}
    (hpools : ∀ b ∈ scope, b.pools = x.orderedPools)
    (hafterPools : x.orderedPools.mapM (poolAfter s.remaining) = .ok afterPools)
    (hafter : capacityAfter scope s afterPools = .ok after) {b : CapacityScopeSnapshot}
    (hb : b ∈ scope) : ∃ a ∈ after, List.Forall₂ (x.ReservesMore s.selected) b.pools a.pools := by
  obtain rfl := Option.mem_def.mp hb
  unfold capacityAfter at hafter
  dsimp only at hafter
  by_cases hnone : s.reservations = []
  · -- nothing was reserved, so nothing was asked for
    rw [if_pos hnone] at hafter
    cases hafter
    refine ⟨b, rfl, forall₂_same.mpr ?_⟩
    intro p _
    have hdemands : x.demandsOf s.selected = [] := by
      rw [← h.demands]
      apply length_eq_zero_iff.mp
      rw [← h.reserved, hnone]
      rfl
    refine ⟨rfl, rfl, ?_⟩
    unfold demanded
    rw [hdemands]
    rfl
  · rw [if_neg hnone] at hafter
    obtain ⟨a, ha, h₁⟩ := bind_inv hafter
    cases h₁
    refine ⟨a, rfl, ?_⟩
    unfold withReservedPools at ha
    rw [eq_of_construct ha, hpools b rfl]
    refine (forall₂_iff_zip.mp (forall₂_of_mapM hafterPools)).imp_right ?_ |>
      forall₂_iff_zip.mpr
    intro hzip p q hmem
    rcases h.pools p.fields.poolId p
      (get?_of_mem_orderedPools hkeyed (of_mem_zip hmem).1) with ⟨hle, hremaining⟩
    exact fields_of_poolAfter (hzip hmem) hle hremaining

/-- The attempts of tasks that all have one. -/
theorem map_taskId_instancesOf
    (h : ∀ t ∈ tasks, ∃ i, x.instance? t = some i ∧ i.fields.taskId = t) :
    (x.instancesOf tasks).map (fun i => i.fields.taskId) = tasks := by
  induction tasks with
  | nil => rfl
  | cons t tasks ih =>
    obtain ⟨i, hi, htask⟩ := h t mem_cons_self
    unfold instancesOf
    rw [filterMap_cons_some hi, map_cons, htask]
    congr 1
    exact ih fun u hu => h u (mem_cons_of_mem _ hu)

/-- The budget evidence after the loop. -/
theorem budgetEvidence_of_holds {packing : FirstFitPacking} (h : x.Holds before done s)
    (hbefore : x.ledgerBefore = .ok before) (hselected : packing.selected = s.selected)
    (hadmitted : packing.admittedBudgetSnapshot = s.ledger.map TaskPlanBudgetLedger.snapshot)
    {snapshot : BudgetSnapshot} (hsnapshot : x.budgetSnapshot = some snapshot) :
    x.BudgetEvidence packing snapshot := by
  unfold ledgerBefore at hbefore
  rw [hsnapshot] at hbefore
  obtain ⟨l, hl, hret⟩ := bind_inv hbefore
  obtain ⟨⟨l', hl', hreserve⟩, hinstances⟩ := h.budget l (pure_eq_ok_iff.mp hret).symm
  rw [hl'] at hadmitted
  rw [← hselected] at hreserve hinstances
  refine ⟨?_, ⟨l, l', hl, hreserve, hadmitted⟩, ?_⟩
  · exact map_taskId_instancesOf hinstances
  · intro p p' owner hp hadmit
    rcases TaskPlanScheduler.consumedBudget_of_admitReadyTasks hadmit hp with
      ⟨k, k', hk, hk', hconsumed⟩
    obtain rfl := ok_inj (hl.symm.trans hk)
    obtain rfl := ok_inj (hreserve.symm.trans hk')
    rw [hconsumed, hadmitted]
    rfl

/-- The guarantees of a packing that returns. -/
theorem guarantees_of_packFirstFit {packing : FirstFitPacking} (h : x.packFirstFit = .ok packing) :
    x.Guarantees packing := by
  unfold packFirstFit at h
  obtain ⟨-, h₁⟩ := check_inv h
  obtain ⟨hcurrent, h₂⟩ := check_inv h₁
  obtain ⟨scope, hscope, h₃⟩ := bind_inv h₂
  obtain ⟨-, h₄⟩ := check_inv h₃
  obtain ⟨ledger, hledger, h₅⟩ := bind_inv h₄
  obtain ⟨s, hloop, h₆⟩ := bind_inv h₅
  obtain ⟨afterPools, hafterPools, h₇⟩ := bind_inv h₆
  obtain ⟨after, hafter, h₈⟩ := bind_inv h₇
  obtain ⟨-, hret⟩ := check_inv h₈
  cases hret
  clear h h₁ h₂ h₃ h₄ h₅ h₆ h₇ h₈
  have hkeyed : ∀ entry ∈ x.pools, entry.1 = entry.2.fields.poolId := by
    intro entry hentry
    exact of_require (check_inv (of_forM hcurrent entry hentry)).1
  have hall : x.Holds ledger x.taskIds s := holds_foldlM holds_start hloop
  obtain ⟨hpools, hevidenced⟩ := pools_of_capacityBefore hscope
  refine ⟨?_, hevidenced, ?_, hall.compatible, hall.count, ?_, ?_, ?_⟩
  · intro poolId p hp
    exact (hall.pools poolId p hp).1
  · intro b hb
    exact ⟨hpools b hb, reservesMore_of_capacityAfter hall hkeyed hpools hafterPools hafter hb⟩
  · intro t ht
    exact overflowTurn_of_foldlM hledger hloop ht
  · intro hnone
    unfold ledgerBefore at hledger
    rw [hnone] at hledger
    show s.ledger.map _ = none
    rw [hall.unbudgeted (ok_inj hledger).symm]
    rfl
  · intro snapshot hsnapshot
    exact budgetEvidence_of_holds hall hledger rfl rfl hsnapshot

end PackingInput

/-! ## A sample packing -/

namespace Sample

open PackingInput

/-- A pool with room for one. -/
def pool : CapacityPool where
  fields := ⟨"p", 1, 0, "v1", "o", "k", 1, 10⟩
  valid := eq_ok_of_isOk (by decide +kernel)

/-- A read-only demand of one place in the pool. -/
def demand (taskId : String) : DemandFields where
  taskId := taskId
  quantities := [("p", 1)]
  sideEffectClass := .readOnly
  resourceConflictKey := none
  globalSerial := false
  idempotentConcurrency := false
  idempotencyReceiptChecksum := none
  nodup := by decide

/-- The demands of the tasks `t` and `u`. -/
def demands : PyDict String TaskCapacityDemand :=
  [("t", ⟨demand "t", eq_ok_of_isOk (by decide +kernel)⟩),
    ("u", ⟨demand "u", eq_ok_of_isOk (by decide +kernel)⟩)]

/-- Two tasks that ask for the one place of a pool, and one attempt. -/
def packingInput (budgetSnapshot : Option BudgetSnapshot) : PackingInput sha256Hex where
  taskIds := ["t", "u"]
  demands := demands
  pools := [("p", pool)]
  maxTasks := 2
  occupiedResourceKeys := []
  occupiedResourceDemands := []
  ownerScope := "o"
  reservationKeys := [("t", "kt"), ("u", "ku")]
  nowMs := 1
  taskInstances := some [("t", taskInstance)]
  budgetSnapshot := budgetSnapshot
  capacitySnapshot := none
  nodup := by decide

section

variable (x : PackingInput sha256Hex)

/-- The state after the first task is selected. -/
def afterFirst (l l' : Option (TaskPlanBudgetLedger sha256Hex)) :
    PackState sha256Hex := x.selectedTask (x.start l) "t" "kt" l'

/-- The state after the second task overflows. -/
def afterSecond (l l' : Option (TaskPlanBudgetLedger sha256Hex)) :
    PackState sha256Hex := overflowed (afterFirst x l l') "u" "CAPACITY_NOT_AVAILABLE"

/-- The evidence of the packing, apart from its budget. -/
def evidence : Except HarnessValidationError FirstFitPacking := do
  let s := afterSecond x none none
  let before ← x.capacityBefore
  let afterPools ← x.orderedPools.mapM (poolAfter s.remaining)
  let after ← capacityAfter before s afterPools
  let packing : FirstFitPacking :=
    { readyOrder := s.readyOrder, selected := s.selected, overflow := s.overflow
      reservations := s.reservations, reasons := s.reasons
      capacityBefore := before, capacityAfter := after
      budgetBeforeChecksum := some "", budgetAfterChecksum := some ""
      admittedBudgetSnapshot := none }
  packing.check
  return packing

end

/-- The first task takes the place and its budget, the second one overflows. -/
theorem guarantees_packFirstFit : ∃ snapshot packing,
    (packingInput (some snapshot)).packFirstFit = .ok packing ∧ packing.selected = ["t"] ∧
      (packingInput (some snapshot)).Guarantees packing := by
  obtain ⟨l, hl⟩ := exists_forPlan
  have hfields := TaskPlanBudgetLedger.construct_eq_ok.mp hl
  have hreserve : ∃ l', l.reserve [taskInstance] = .ok l' := by
    apply exists_reserve_first <;> rw [hfields]
    · exact ⟨rfl, rfl⟩
    · show (turns 2).SameFields (turns 3)
      decide
    · show ∀ d, (turns 2).amount d ≤ (turns 3).amount d
      decide
  obtain ⟨l', hl'⟩ := hreserve
  -- what does not read the budget is evaluated without one
  let x := packingInput (some l.snapshot)
  let y := packingInput none
  let s₁ := afterFirst x (some l) (some l')
  let s₂ := afterSecond x (some l) (some l')
  have hledger : x.ledgerBefore = .ok (some l) := bind_intro l.fromSnapshot_snapshot rfl
  have hbudget : x.reserveBudget (some l) "t" = .ok (some (some l')) := by
    unfold reserveBudget
    refine bind_eq_ok.mpr ⟨taskInstance, rfl, ?_⟩
    rw [hl']
    rfl
  have hfirst : x.packOne (x.start (some l)) "t" = .ok s₁ := by
    have hdemand : y.checkDemand "t" = .ok () := eq_ok_of_isOk (by decide +kernel)
    have hreason : x.overflowReason (x.start (some l)) "t" = none :=
      show y.overflowReason (y.start none) "t" = none by decide +kernel
    unfold packOne
    refine bind_intro (eq_ok_of_isOk (by decide +kernel)) ?_
    refine require_intro not_mem_nil ?_
    refine bind_intro hdemand ?_
    rw [hreason]
    refine check_intro ?_ (bind_intro hbudget rfl)
    show identifier "kt" "reservation_key" = .ok ()
    exact eq_ok_of_isOk (by decide +kernel)
  have hsecond : x.packOne s₁ "u" = .ok s₂ := by
    have hdemand : y.checkDemand "u" = .ok () := eq_ok_of_isOk (by decide +kernel)
    have hreason : x.overflowReason s₁ "u" = some "CAPACITY_NOT_AVAILABLE" :=
      show y.overflowReason (afterFirst y none none) "u" = _ by decide +kernel
    unfold packOne
    refine bind_intro (eq_ok_of_isOk (by decide +kernel)) ?_
    refine require_intro ?_ ?_
    · show "u" ∉ ["t"]
      decide
    refine bind_intro hdemand ?_
    rw [hreason]
    rfl
  have hloop : x.taskIds.foldlM x.packOne (x.start (some l)) = .ok s₂ :=
    bind_intro hfirst (bind_intro hsecond rfl)
  obtain ⟨packing, hpacking⟩ := exists_eq_ok_of_isOk (x := evidence y) (by decide +kernel)
  unfold evidence at hpacking
  obtain ⟨scope, hscope, h₁⟩ := bind_inv hpacking
  obtain ⟨afterPools, hpools, h₂⟩ := bind_inv h₁
  obtain ⟨after, hafter, h₃⟩ := bind_inv h₂
  obtain ⟨hcheck, -⟩ := check_inv h₃
  have howner : identifier y.ownerScope "owner_scope" = .ok () := eq_ok_of_isOk (by decide +kernel)
  have hpack : x.packFirstFit = .ok
      { readyOrder := ["t", "u"], selected := ["t"], overflow := ["u"]
        reservations := s₂.reservations, reasons := s₂.reasons
        capacityBefore := scope, capacityAfter := after
        budgetBeforeChecksum := some l.ledgerChecksum, budgetAfterChecksum := some l'.ledgerChecksum
        admittedBudgetSnapshot := some l'.snapshot } := by
    unfold packFirstFit
    refine bind_intro howner (bind_intro rfl ?_)
    refine bind_intro hscope (bind_intro rfl ?_)
    refine bind_intro hledger (bind_intro hloop ?_)
    refine bind_intro hpools (bind_intro hafter ?_)
    exact bind_intro hcheck rfl
  exact ⟨l.snapshot, _, hpack, rfl, guarantees_of_packFirstFit hpack⟩

end Sample

end TaskPlan
