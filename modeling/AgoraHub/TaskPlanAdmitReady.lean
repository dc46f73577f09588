/-
# One admission of a batch

What an admission of ready tasks does to the projection, that the same batch is then
redelivered without a change, and which batches are rejected.  An admission that
raises leaves nothing behind, since the projection and its ledger are values.
-/
import AgoraHub.TaskPlanLedgerRuns
import AgoraHub.TaskPlanReplanSpec

namespace TaskPlan

open Fallible List PyDict TaskPlanProjection

variable {sha256 : String → HexDigest}

/-! ## What is on record for a batch -/

namespace TaskPlanBudgetLedger

/-- The outstanding reservation of an attempt. -/
def Holds (records : PyDict String BudgetRecord) (i : TaskInstance sha256) : Prop :=
  ∃ r, records.get? i.fields.idempotencyKey = some r ∧ r.taskInstance = i.toDict ∧
    r.status = .reserved

variable {l l' : TaskPlanBudgetLedger sha256} {selected : List (TaskInstance sha256)}

/-- A batch that is reserved is on record as a whole, as the attempts that were on record already. -/
theorem of_reserve (h : l.reserve selected = .ok l') :
    (∀ key r, l.fields.records.get? key = some r → ∀ i ∈ selected, key = i.fields.idempotencyKey →
        r.taskInstance = i.toDict) ∧
      ∀ i ∈ selected, (i.fields.runId = l'.fields.runId ∧ i.fields.stageId = l'.fields.stageId) ∧
        Holds l'.fields.records i := by
  rcases reserves_of_reserve h with ⟨⟨added, hfields, -⟩, hholds⟩
  have hrecord : ∀ i ∈ selected, Holds l'.fields.records i := by
    intro i hi
    rcases hholds i hi with ⟨e, he, hstatus, heq⟩
    have hkey := (l'.sound he).key_eq
    rw [heq] at hkey
    exact ⟨e.2, hkey ▸ get?_of_mem l'.nodup_keys he, heq, hstatus⟩
  constructor
  · -- a record stays, so it is the one of the attempt under its key
    rintro key r hr i hi rfl
    rcases hrecord i hi with ⟨r', hr', heq, -⟩
    rw [hfields] at hr'
    rw [get?_append, hr, Option.some_or] at hr'
    rw [Option.some.inj hr', heq]
  · intro i hi
    refine ⟨?_, hrecord i hi⟩
    rcases hholds i hi with ⟨e, he, -, heq⟩
    have howner := (l'.sound he).owner
    rwa [heq] at howner

/-- A batch that is on record is reserved without a change. -/
theorem reserve_eq_self (h : ∀ i ∈ selected,
    (i.fields.runId = l.fields.runId ∧ i.fields.stageId = l.fields.stageId) ∧
      Holds l.fields.records i) : l.reserve selected = .ok l := by
  have hfold : selected.foldlM (reserveOne l.fields) (l.fields.records, l.fields.ledgerVersion) =
      .ok (l.fields.records, l.fields.ledgerVersion) := by
    induction selected with
    | nil => rfl
    | cons i selected ih =>
      rcases h i mem_cons_self with ⟨howner, r, hr, hsame, hstatus⟩
      have hone : reserveOne l.fields (l.fields.records, l.fields.ledgerVersion) i =
          .ok (l.fields.records, l.fields.ledgerVersion) := by
        unfold reserveOne
        rw [check_of_pos howner]
        simp only [hr, require_of_pos _ hsame, check_of_pos hstatus]
        rfl
      rw [foldlM_cons, hone, ok_bind]
      exact ih fun j hj => h j (mem_cons_of_mem _ hj)
  unfold reserve
  rw [hfold, ok_bind, if_pos rfl]
  rfl

end TaskPlanBudgetLedger

/-! ## The projection after an admission -/

namespace TaskPlanScheduler

/-- A task of the batch after its admission: one attempt more, which is under way. -/
def admittedState (t : TaskProjection) (i : TaskInstance sha256) (owner : TaskAdmissionOwner) :
    TaskProjection :=
  { t with
    status := .admitted, attempts := t.attempts + 1
    activeInstanceId := some i.fields.taskInstanceId, admissionOwner := some owner }

/-- The task is in the batch. -/
def IsSelected (selected : List (TaskInstance sha256)) (taskId : String) : Prop :=
  ∃ i ∈ selected, i.fields.taskId = taskId

/-- The second projection is the first one with the batch admitted, and the batch in any order is
redelivered without a change. -/
structure Admits (p p' : TaskPlanProjection) (selected : List (TaskInstance sha256))
    (owner : TaskAdmissionOwner) : Prop where
  admitted : ∀ i ∈ selected, ∃ t, p.state? i.fields.taskId = some t ∧
    p'.state? i.fields.taskId = some (admittedState t i owner)
  others : ∀ taskId, ¬ IsSelected selected taskId → p'.state? taskId = p.state? taskId
  order : p'.logicalReadyOrder.Sublist p.logicalReadyOrder ∧
    ∀ taskId, taskId ∈ p'.logicalReadyOrder ↔
      taskId ∈ p.logicalReadyOrder ∧ ¬ IsSelected selected taskId
  redelivered : ∀ batch : List (TaskInstance sha256), batch.Perm selected →
    admitReadyTasks p' batch owner = .ok p'

variable {p p' : TaskPlanProjection} {selected : List (TaskInstance sha256)}
  {owner : TaskAdmissionOwner}

theorem of_admitted {t t' : TaskProjection} {attempts : ℕ} {activeInstanceId : String}
    (h : t.admitted attempts activeInstanceId owner = .ok t') : t' = { t with
      status := .admitted, attempts := attempts, activeInstanceId := some activeInstanceId
      admissionOwner := some owner } := by
  unfold TaskProjection.admitted at h
  iterate 7 replace h := (check_inv h).2
  exact (pure_eq_ok_iff.mp h).symm

/-- The state of a task after the admission of a batch. -/
def stateAfter (selected : List (TaskInstance sha256)) (owner : TaskAdmissionOwner)
    (t : TaskProjection) : TaskProjection :=
  match KeyedList.find? (fun i : TaskInstance sha256 => i.fields.taskId) selected t.taskId with
  | some i => { t with
      status := .admitted, attempts := i.fields.attempt
      activeInstanceId := some i.fields.taskInstanceId, admissionOwner := some owner }
  | none => t

theorem taskId_stateAfter (t : TaskProjection) :
    (stateAfter selected owner t).taskId = t.taskId := by
  unfold stateAfter
  split <;> rfl

theorem admittedTasks_eq {tasks : List TaskProjection} (h : admittedTasks p owner selected = .ok tasks) :
    tasks = p.tasks.map (stateAfter selected owner) := by
  unfold admittedTasks at h
  have hmap : tasks.map id = p.tasks.map (stateAfter selected owner) := by
    refine RelatedLists.map_eq (fun t t' ht => ?_) (forall₂_of_mapM h)
    unfold stateAfter KeyedList.find?
    split at ht
    · next i hi => rw [hi]; exact of_admitted ht
    · next hi => rw [hi]; exact (ok_inj ht).symm
  rwa [map_id] at hmap

theorem of_checkNextAttempt {i : TaskInstance sha256} {u : Unit} (h : checkNextAttempt p i = .ok u) :
    ∃ t, p.state? i.fields.taskId = some t ∧ t.status = .ready ∧ i.MatchesPlanProjectionIdentity p ∧
      i.fields.attempt = t.attempts + 1 ∧
      i.fields.taskDefinitionChecksum = t.taskDefinitionChecksum := by
  unfold checkNextAttempt at h
  obtain ⟨t, hstate, h⟩ := bind_inv h
  obtain ⟨hidentity, h⟩ := check_inv h
  rcases Option.filter_eq_some_iff.mp (orRaise_eq_ok.mp hstate) with ⟨hstate, hready⟩
  exact ⟨t, hstate, of_decide_eq_true hready, of_require hidentity, of_require h⟩

theorem isSelected_iff {taskId : String} :
    (selected.any fun i => decide (i.fields.taskId = taskId)) = true ↔ IsSelected selected taskId := by
  simp [IsSelected]

/-- The first admission of a batch. -/
theorem of_admitInstances (hunique : (selected.map fun i => i.fields.taskId).Nodup)
    (hne : selected ≠ []) (h : admitInstances p selected owner = .ok p') :
    (p.logicalReadyOrder.filter fun taskId =>
        selected.any fun i => decide (i.fields.taskId = taskId)) =
      (selected.map fun i => i.fields.taskId) ∧ selected.forM (checkNextAttempt p) = .ok () ∧
      (∃ l l' : TaskPlanBudgetLedger sha256, consumedLedger p = .ok l ∧ l.reserve selected = .ok l') ∧
      Admits p p' selected owner := by
  unfold admitInstances at h
  obtain ⟨horder, h⟩ := check_inv h
  obtain ⟨hchecks, h⟩ := check_inv h
  obtain ⟨tasks, htasks, h⟩ := bind_inv h
  obtain ⟨l, hl, h⟩ := bind_inv h
  obtain ⟨l', hl', hconstruct⟩ := bind_inv (check_inv h).2
  obtain rfl := admittedTasks_eq htasks
  have hstate : ∀ taskId, p'.state? taskId = (p.state? taskId).map (stateAfter selected owner) := by
    intro taskId
    rw [state?_of_construct hconstruct]
    exact KeyedList.find?_map taskId_stateAfter p.tasks taskId
  have hadmitted : ∀ i ∈ selected, ∃ t, p.state? i.fields.taskId = some t ∧
      i.MatchesPlanProjectionIdentity p ∧
      i.fields.taskDefinitionChecksum = t.taskDefinitionChecksum ∧
      i.fields.attempt = t.attempts + 1 ∧
      p'.state? i.fields.taskId = some (admittedState t i owner) := by
    intro i hi
    rcases of_checkNextAttempt (of_forM hchecks i hi) with
      ⟨t, ht, -, hidentity, hattempt, hdefinition⟩
    refine ⟨t, ht, hidentity, hdefinition, hattempt, ?_⟩
    have hfind : KeyedList.find? (fun i : TaskInstance sha256 => i.fields.taskId) selected t.taskId =
        some i := (of_state? ht).2 ▸ KeyedList.find?_of_mem hunique hi
    rw [hstate, ht, Option.map_some, stateAfter, hfind, admittedState, ← hattempt]
  rcases of_construct hconstruct with ⟨-, hp'⟩
  have hrecord := (TaskPlanBudgetLedger.of_reserve hl').2
  refine ⟨of_require horder, hchecks, ⟨l, l', hl, hl'⟩, ?_, ?_, ?_, ?_⟩
  · intro i hi
    rcases hadmitted i hi with ⟨t, ht, -, -, -, ht'⟩
    exact ⟨t, ht, ht'⟩
  · intro taskId hnot
    have hfind : KeyedList.find? (fun i : TaskInstance sha256 => i.fields.taskId) selected taskId =
        none := by
      rw [KeyedList.find?_eq_none_iff, mem_map]
      exact hnot
    rw [hstate]
    cases ht : p.state? taskId with
    | none => rfl
    | some t =>
      rw [Option.map_some, stateAfter, (of_state? ht).2, hfind]
  · rw [hp']
    refine ⟨filter_sublist, fun taskId => ?_⟩
    rw [mem_filter, Bool.not_eq_true', ← Bool.not_eq_true, isSelected_iff]
  · -- all attempts are admitted and on record
    intro batch hperm
    have hmem : ∀ {i}, i ∈ batch → i ∈ selected := hperm.mem_iff.mp
    have hconsumed : consumedLedger p' = .ok l' := by
      rw [hp']
      exact l'.fromSnapshot_snapshot
    have hall : ∀ i ∈ batch, AlreadyAdmitted p' owner i := by
      intro i hi
      rcases hadmitted i (hmem hi) with ⟨t, -, hidentity, hdefinition, hattempt, ht'⟩
      refine ⟨_, ht', rfl, hattempt.symm, rfl, rfl, ?_, hdefinition⟩
      rw [hp']
      exact hidentity
    unfold admitReadyTasks
    have hbatch : batch ≠ [] := fun hnil => hne (perm_nil.mp (hnil ▸ hperm).symm)
    rw [check_of_pos hbatch, check_of_pos ((hperm.map _).nodup_iff.mpr hunique), if_pos hall]
    unfold redeliver
    have hkeys : batch.forM (fun i => require (i.fields.idempotencyKey ∈ l'.fields.records.keys)
        (⟨"admitted attempt has no budget reservation", "task_plan_budget_reservation_missing",
          [("task_id", .str i.fields.taskId)]⟩ : HarnessValidationError)) = .ok () := by
      apply forM_ok
      intro i hi
      rcases (hrecord i (hmem hi)).2 with ⟨r, hr, -⟩
      exact require_of_pos _ ((mem_keys_iff _ _).mpr ⟨r, hr⟩)
    rw [hconsumed, ok_bind, hkeys, ok_bind,
      TaskPlanBudgetLedger.reserve_eq_self fun i hi => hrecord i (hmem hi), ok_bind,
      require_of_pos _ rfl]
    rfl

/-! ## Every batch -/

/-- An admission that returns is a redelivery or a first admission of the whole batch. -/
theorem admitReadyTasks_cases (h : admitReadyTasks p selected owner = .ok p') :
    selected ≠ [] ∧ (selected.map fun i => i.fields.taskId).Nodup ∧
      (∃ l l' : TaskPlanBudgetLedger sha256, consumedLedger p = .ok l ∧ l.reserve selected = .ok l') ∧
      ((∀ i ∈ selected, AlreadyAdmitted p owner i) ∨ admitInstances p selected owner = .ok p') := by
  unfold admitReadyTasks at h
  obtain ⟨hne, h⟩ := check_inv h
  obtain ⟨hunique, h⟩ := check_inv h
  have hne := of_require hne
  have hunique := of_require hunique
  refine ⟨hne, hunique, ?_⟩
  split at h
  · next hall =>
    obtain ⟨l, hl, h⟩ := bind_inv h
    obtain ⟨l', hl', -⟩ := bind_inv (check_inv h).2
    exact ⟨⟨l, l', hl, hl'⟩, Or.inl hall⟩
  · have h := (check_inv h).2
    exact ⟨(of_admitInstances hunique hne h).2.2.1, Or.inr h⟩

/-- The task is in the state. -/
def TaskIn (p : TaskPlanProjection) (status : TaskLifecycle) (i : TaskInstance sha256) : Prop :=
  ∃ t ∈ p.state? i.fields.taskId, t.status = status

theorem AlreadyAdmitted.taskIn {i : TaskInstance sha256} (h : AlreadyAdmitted p owner i) :
    TaskIn p .admitted i := by
  rcases h with ⟨t, ht, hstatus, -⟩
  exact ⟨t, ht, hstatus⟩

/-- An attempt is not for the next attempt of a ready task, nor the attempt of an admitted one. -/
def WrongAttempt (p : TaskPlanProjection) (i : TaskInstance sha256) : Prop :=
  ∃ t, p.state? i.fields.taskId = some t ∧
    (t.status = .ready ∧ i.fields.attempt ≠ t.attempts + 1 ∨
      t.status = .admitted ∧ i.fields.attempt ≠ t.attempts)

/-- The ledger holds another instance under the key of the attempt. -/
def OtherReserved (p : TaskPlanProjection) (i : TaskInstance sha256) : Prop :=
  ∃ l : TaskPlanBudgetLedger sha256, consumedLedger p = .ok l ∧
    ∃ r, l.fields.records.get? i.fields.idempotencyKey = some r ∧ r.taskInstance ≠ i.toDict

end TaskPlanScheduler

end TaskPlan
