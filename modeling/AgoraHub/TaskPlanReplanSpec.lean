/-
# What a patched plan keeps

The facts about the patch validator, the commit of a patched plan and the blocking of
dependents that hold for every patch: which tasks a patch may change, what state every
task of the new plan has, and what blocking changes.
-/
import AgoraHub.KeyedList
import AgoraHub.RelatedLists
import AgoraHub.TaskPlanReplan

namespace TaskPlan

open Fallible TaskPlanProjection List PyDict KeyedList RelatedLists PyText TaskPlanStage

variable {sha256 : String → HexDigest} {contracts : PlanContracts}

/-! ## Lookups -/

variable {p p' : TaskPlanProjection}

/-- The constructor returns its fields with the tasks sorted, whose identifiers are distinct. -/
theorem TaskPlanProjection.of_construct (h : construct sha256 p = .ok p') :
    (p.tasks.map TaskProjection.taskId).Nodup ∧
      p' = { p with tasks := p.tasks.insertionSort fun a b => a.taskId ≤ b.taskId } := by
  unfold construct at h
  iterate 8 replace h := (check_inv h).2
  obtain ⟨hnodup, h⟩ := check_inv h
  iterate 4 replace h := (check_inv h).2
  exact ⟨of_require hnodup, (pure_eq_ok_iff.mp h).symm⟩

theorem TaskPlanProjection.nodup_of_construct (h : construct sha256 p = .ok p') :
    (p'.tasks.map TaskProjection.taskId).Nodup := by
  obtain ⟨hnodup, rfl⟩ := of_construct h
  exact ((perm_insertionSort _ p.tasks).map _).nodup_iff.mpr hnodup

theorem TaskPlanProjection.state?_eq (p : TaskPlanProjection) (taskId : String) :
    p.state? taskId = KeyedList.find? TaskProjection.taskId p.tasks taskId := rfl

theorem TaskPlanProjection.state?_of_construct (h : construct sha256 p = .ok p') (taskId : String) :
    p'.state? taskId = p.state? taskId := by
  have hunique := nodup_of_construct h
  obtain ⟨-, rfl⟩ := of_construct h
  rw [state?_eq, state?_eq]
  exact find?_perm (perm_insertionSort _ p.tasks) hunique taskId

variable {taskId : String} {t : TaskProjection}

theorem TaskPlanProjection.of_state? (h : p.state? taskId = some t) :
    t ∈ p.tasks ∧ t.taskId = taskId := by
  rw [state?_eq] at h
  exact mem_of_find? h

theorem TaskPlanProjection.state?_of_mem (hunique : (p.tasks.map TaskProjection.taskId).Nodup)
    (h : t ∈ p.tasks) : p.state? t.taskId = some t := by
  rw [state?_eq]
  exact find?_of_mem hunique h

/-- The dictionary of states finds the states. -/
theorem get?_statesOf (hunique : (p.tasks.map TaskProjection.taskId).Nodup) (taskId : String) :
    (statesOf p).get? taskId = p.state? taskId := by
  have hget : ∀ t, (statesOf p).get? taskId = some t ↔ ∃ u ∈ p.tasks, u.taskId = taskId ∧ id u = t :=
    fun t => get?_ofItems hunique taskId t
  apply Option.ext
  intro t
  rw [hget t]
  constructor
  · rintro ⟨u, hu, rfl, rfl⟩
    exact state?_of_mem hunique hu
  · intro hfind
    obtain ⟨hmem, hkey⟩ := of_state? hfind
    exact ⟨t, hmem, hkey, rfl⟩

/-! ## The patch validator -/

variable {r r' : ResolvedTaskSpec}

/-- Definitions of one task with one budget. -/
def SameTask (r r' : ResolvedTaskSpec) : Prop :=
  r'.taskId = r.taskId ∧ r'.normalizedBudget = r.normalizedBudget

theorem ResolvedTaskSpec.of_construct (h : ResolvedTaskSpec.construct r = .ok r') :
    r'.task = r.task ∧ r'.normalizedBudget = r.normalizedBudget := by
  unfold ResolvedTaskSpec.construct at h
  replace h := (check_inv (check_inv h).2).2
  iterate 3 rcases bind_inv h with ⟨_, -, h⟩
  obtain rfl := pure_eq_ok_iff.mp (check_inv h).2
  exact ⟨rfl, rfl⟩

/-- The constructor keeps the identifier. -/
theorem TaskSpec.taskId_of_construct {t t' : TaskSpec} (h : TaskSpec.construct t = .ok t') :
    t'.taskId = t.taskId := by
  unfold TaskSpec.construct at h
  replace h := (check_inv (check_inv h).2).2
  simp only [bind_eq_ok] at h
  obtain ⟨_, -, _, -, _, -, _, -, h⟩ := h
  cases h
  rfl

theorem sameTask_of_withTaskGraph {dependsOn inputRefs : List String}
    (h : withTaskGraph r dependsOn inputRefs = .ok r') : SameTask r r' := by
  unfold withTaskGraph at h
  obtain ⟨task, htask, hresolved⟩ := bind_inv h
  obtain ⟨hkept, hbudget⟩ := ResolvedTaskSpec.of_construct hresolved
  have hsame := TaskSpec.taskId_of_construct htask
  exact ⟨(congrArg TaskSpec.taskId hkept).trans hsame, hbudget⟩

variable {replacements : PyDict String String}

theorem sameTask_of_rewire (h : rewire replacements r = .ok r') : SameTask r r' := by
  unfold rewire at h
  obtain ⟨inputRefs, -, h⟩ := bind_inv h
  split at h
  · exact sameTask_of_withTaskGraph h
  · cases h
    exact ⟨rfl, rfl⟩

/-- A task that is resolved has a budget within the policy. -/
theorem of_resolveTask {binding : ResolvedCapabilityBinding} {task : TaskSpec}
    {policy : TaskPlanPolicy} (h : binding.resolveTask task policy = .ok r) :
    r.task = task ∧ r.normalizedBudget.exceeds policy.perTaskBudget = [] := by
  unfold ResolvedCapabilityBinding.resolveTask at h
  iterate 6 replace h := (check_inv h).2
  obtain ⟨hbudget, h⟩ := check_inv h
  obtain ⟨htask, hkept⟩ := ResolvedTaskSpec.of_construct h
  exact ⟨htask, hkept ▸ of_require hbudget⟩

/-- Definitions that are kept under their tasks. -/
def KeyedDefinitions (definitions : PyDict String ResolvedTaskSpec) : Prop :=
  definitions.keys.Nodup ∧ ∀ p ∈ definitions, p.2.taskId = p.1

theorem KeyedDefinitions.set {definitions : PyDict String ResolvedTaskSpec}
    (h : KeyedDefinitions definitions) (hr : r.taskId = taskId) :
    KeyedDefinitions (definitions.set taskId r) := by
  refine ⟨nodup_keys_set h.1 taskId r, fun p hp => ?_⟩
  rcases mem_set hp with rfl | hp
  · exact hr
  · exact h.2 p hp

/-- The definitions of a plan whose tasks are distinct are kept under their tasks. -/
theorem keyedDefinitions_ofItems (tasks : List ResolvedTaskSpec) :
    KeyedDefinitions (PyDict.ofItems ResolvedTaskSpec.taskId id tasks) :=
  foldlRecOn tasks _ ⟨nodup_nil, fun _ hp => absurd hp not_mem_nil⟩ fun _ hd _ _ => hd.set rfl

section Operations

variable {definitions : PyDict String ResolvedTaskSpec} {states : PyDict String TaskProjection}
  {resolve : String → Except HarnessValidationError ResolvedCapabilityBinding}
  {policy : TaskPlanPolicy}

theorem requirePatchable_eq_ok {target message : String} {u : Unit}
    (h : requirePatchable states target message = .ok u) :
    ∃ t, states.get? target = some t ∧ t.status ∈ patchableStates := by
  unfold requirePatchable at h
  obtain ⟨t, ht, hstatus⟩ := bind_inv h
  exact ⟨t, orRaise_eq_ok.mp ht, of_require hstatus⟩

/-- The tasks that operations add. -/
def addedTaskIds (operations : List PlanPatchOperation) : List String :=
  operations.filterMap fun operation => match operation with
    | .addReplacementTask _ replacement => some replacement.taskId
    | _ => none

/-- What the operations so far have made of the definitions of a plan: their targets may be patched,
no definition is lost, and a budget is one of the plan or within the policy. -/
structure Patched (definitions : PyDict String ResolvedTaskSpec)
    (states : PyDict String TaskProjection) (policy : TaskPlanPolicy)
    (done : List PlanPatchOperation) (s : PatchState) : Prop where
  targeted : s.targeted = done.map PlanPatchOperation.targetTaskId
  patchable : ∀ operation ∈ done,
    ∃ t, states.get? operation.targetTaskId = some t ∧ t.status ∈ patchableStates
  keys : ∀ k, k ∈ s.nextDefinitions.keys ↔ k ∈ definitions.keys ++ addedTaskIds done
  keyed : KeyedDefinitions s.nextDefinitions
  replaced : ∀ q ∈ s.replacements, q.1 ∈ definitions.keys ∧ q.2 ∈ s.nextDefinitions.keys
  budgets : ∀ q ∈ s.nextDefinitions, q.2.normalizedBudget.exceeds policy.perTaskBudget = [] ∨
    ∃ p ∈ definitions, q.2.normalizedBudget = p.2.normalizedBudget

/-- An operation that is applied extends what the operations before it have made. -/
theorem Patched.step {done : List PlanPatchOperation} {s s' : PatchState}
    {operation : PlanPatchOperation} (hs : Patched definitions states policy done s)
    (h : applyOperation definitions states resolve policy s operation = .ok s') :
    Patched definitions states policy (done ++ [operation]) s' := by
  have hkeys := hs.keys
  have htargeted : s.targeted ++ [operation.targetTaskId] =
      (done ++ [operation]).map PlanPatchOperation.targetTaskId := by
    rw [hs.targeted, map_append, map_singleton]
  unfold applyOperation at h
  replace h := (check_inv h).2
  cases operation with
  | addReplacementTask target replacement =>
    obtain ⟨htarget, h⟩ := check_inv h
    obtain ⟨hpatchable, h⟩ := check_inv h
    obtain ⟨hnew, h⟩ := check_inv h
    obtain ⟨binding, -, h⟩ := bind_inv h
    obtain ⟨r, hr, h⟩ := bind_inv h
    obtain ⟨htask, hbudget⟩ := of_resolveTask hr
    cases h
    refine ⟨htargeted, forall_mem_concat hs.patchable (requirePatchable_eq_ok hpatchable),
      fun k => ?_, hs.keyed.set (congrArg TaskSpec.taskId htask), fun q hq => ?_, fun q hq => ?_⟩
    · rw [keys_set_of_notMem _ (of_require hnew), mem_append, hkeys, mem_singleton]
      simp [addedTaskIds, or_assoc]
    · rcases mem_set hq with rfl | hq
      · exact ⟨of_require htarget, self_mem_keys_set _ _ _⟩
      · exact (hs.replaced q hq).imp_right (mem_keys_set r)
    · rcases mem_set hq with rfl | hq
      · exact Or.inl hbudget
      · exact hs.budgets q hq
  | skipPendingTask target =>
    obtain ⟨definition, -, h⟩ := bind_inv h
    obtain ⟨hpatchable, h⟩ := check_inv h
    obtain ⟨-, h⟩ := check_inv h
    cases h
    exact ⟨htargeted, forall_mem_concat hs.patchable (requirePatchable_eq_ok hpatchable),
      by simpa [addedTaskIds] using hkeys, hs.keyed, hs.replaced, hs.budgets⟩
  | updatePendingDependency target dependsOn =>
    obtain ⟨old, hold, h⟩ := bind_inv h
    obtain ⟨hpatchable, h⟩ := check_inv h
    obtain ⟨updated, hupdated, h⟩ := bind_inv h
    obtain ⟨htask, hbudget⟩ := sameTask_of_withTaskGraph hupdated
    have hmem := mem_of_get? (orRaise_eq_ok.mp hold)
    cases h
    rw [PlanPatchOperation.targetTaskId] at hmem ⊢
    have hkept : (s.nextDefinitions.set target updated).keys = s.nextDefinitions.keys :=
      keys_set_of_mem updated (mem_map_of_mem hmem)
    refine ⟨htargeted, forall_mem_concat hs.patchable (requirePatchable_eq_ok hpatchable),
      ?_, hs.keyed.set (htask.trans (hs.keyed.2 _ hmem)), ?_, fun q hq => ?_⟩
    · simpa [addedTaskIds, hkept] using hkeys
    · simpa [hkept] using hs.replaced
    · rcases mem_set hq with rfl | hq
      · exact hbudget ▸ hs.budgets _ hmem
      · exact hs.budgets q hq

/-- What the operations of a patch make of the definitions of a plan. -/
theorem patched_of_foldlM {done : List PlanPatchOperation} {s : PatchState}
    (hkeyed : KeyedDefinitions definitions)
    (h : done.foldlM (applyOperation definitions states resolve policy)
      { nextDefinitions := definitions, skipped := [], replacements := [], targeted := [] } = .ok s) :
    Patched definitions states policy done s := by
  refine of_foldlM_done ⟨rfl, nofun, by simp [addedTaskIds], hkeyed, fun _ hq => absurd hq not_mem_nil,
    fun q hq => Or.inr ⟨q, hq, rfl⟩⟩ (fun done operation _ s s' hs hstep => ?_) h
  exact hs.step hstep

end Operations

/-- Rewiring keeps what is defined. -/
theorem of_rewireDefinitions {policy : TaskPlanPolicy}
    {definitions rewired : PyDict String ResolvedTaskSpec}
    (h : rewireDefinitions policy replacements definitions = .ok rewired) :
    rewired.keys = definitions.keys ∧ ∀ q ∈ rewired, ∃ p ∈ definitions, q.1 = p.1 ∧ SameTask p.2 q.2 := by
  unfold rewireDefinitions at h
  split at h
  · obtain rfl := ok_inj h
    exact ⟨rfl, fun q hq => ⟨q, hq, rfl, rfl, rfl⟩⟩
  · obtain ⟨items, hitems, h⟩ := bind_inv h
    obtain ⟨_, -, h⟩ := bind_inv h
    obtain rfl := pure_eq_ok_iff.mp h
    have hall := (forall₂_of_mapM hitems).imp
      fun p q (hq : _ = _) => show q.1 = p.1 ∧ SameTask p.2 q.2 by
        obtain ⟨r, hr, hq⟩ := bind_inv hq
        obtain rfl := pure_eq_ok_iff.mp hq
        exact ⟨rfl, sameTask_of_rewire hr⟩
    exact ⟨map_eq (fun p q hq => hq.1) hall, fun q hq => exists_left hall hq⟩

variable {patch : PlanPatch}

variable {plan : ValidatedTaskPlan}

/-- What a patch that is applied is: its targets may be patched, no task is lost and the tasks of the
new plan are those of its definitions. -/
theorem TaskPlanPatchValidator.of_apply {plan' : ValidatedTaskPlan}
    {projection : TaskPlanProjection} {policy : TaskPlanPolicy}
    {resolve : String → Except HarnessValidationError ResolvedCapabilityBinding}
    {acceptedAt : String} {availableInputRefs : List String}
    (h : TaskPlanPatchValidator.apply sha256 contracts plan patch projection policy resolve
      acceptedAt availableInputRefs = .ok plan') : (∀ operation ∈ patch.operations, ∃ t,
        (statesOf projection).get? operation.targetTaskId = some t ∧ t.status ∈ patchableStates) ∧
      ∀ taskId ∈ (definitionsOf plan).keys, ∃ r ∈ plan'.tasks, r.taskId = taskId := by
  unfold TaskPlanPatchValidator.apply at h
  replace h := (check_inv h).2
  obtain ⟨state, hstate, h⟩ := bind_inv h
  replace h := (check_inv (check_inv h).2).2
  obtain ⟨_, -, h⟩ := bind_inv h
  replace h := (check_inv h).2
  obtain ⟨definitions, hdefinitions, h⟩ := bind_inv h
  replace h := (check_inv h).2
  obtain ⟨totals, -, h⟩ := bind_inv h
  replace h := (check_inv (check_inv h).2).2
  have hs := patched_of_foldlM (keyedDefinitions_ofItems plan.tasks) hstate
  refine ⟨hs.patchable, fun taskId hmem => ?_⟩
  · -- the operations and the rewiring keep the task
    obtain ⟨hkeys, hall⟩ := of_rewireDefinitions hdefinitions
    have hin : taskId ∈ definitions.keys := hkeys ▸ (hs.keys taskId).mpr (mem_append_left _ hmem)
    obtain ⟨r, hr⟩ := (mem_keys_iff definitions taskId).mp hin
    obtain ⟨p, hp, hpq, hsame⟩ := hall _ (mem_of_get? hr)
    have htask := hsame.1.trans ((hs.keyed.2 p hp).trans hpq.symm)
    refine ⟨r, ?_, htask⟩
    unfold ValidatedTaskPlan.construct at h
    iterate 11 replace h := (check_inv h).2
    iterate 2 rcases bind_inv h with ⟨_, -, h⟩
    cases h
    rw [mem_insertionSort]
    exact mem_filterMap.mpr ⟨taskId, mem_sorted.mpr hin, hr⟩

/-! ## The projection of a patched plan -/

/-- The state that a new plan gives a task. -/
def carriedState (contracts : PlanContracts) (previous : TaskPlanProjection)
    (definition : ResolvedTaskSpec) : TaskProjection :=
  (carriedState? contracts previous definition).getD (pendingState contracts definition)

variable {previous : TaskPlanProjection}

variable {definition : ResolvedTaskSpec}

theorem nextState_eq_ok (h : nextState contracts previous definition = .ok t) :
    t = carriedState contracts previous definition := by
  unfold nextState at h
  unfold carriedState
  cases hcarried : carriedState? contracts previous definition with
  | some old =>
    rw [hcarried] at h
    exact (ok_inj h).symm
  | none =>
    rw [hcarried] at h
    exact (pure_eq_ok_iff.mp (check_inv h).2).symm

/-- What is carried over is a state that was there, of the same definition. -/
theorem carriedState?_eq_some : carriedState? contracts previous definition = some t ↔
      (statesOf previous).get? definition.taskId = some t ∧
        t.taskDefinitionChecksum = contracts.definitionChecksum definition ∧
        t.status ∈ TaskLifecycle.carried := by
  unfold carriedState?
  rw [Option.filter_eq_some_iff, decide_eq_true_eq]

/-- The state of a task in a new plan is one of its definition. -/
theorem of_carriedState (hunique : (previous.tasks.map TaskProjection.taskId).Nodup)
    (definition : ResolvedTaskSpec) :
    (carriedState contracts previous definition).taskId = definition.taskId ∧
      (carriedState contracts previous definition).taskDefinitionChecksum =
        contracts.definitionChecksum definition := by
  unfold carriedState
  cases hcarried : carriedState? contracts previous definition with
  | some old =>
    obtain ⟨hget, hsum, -⟩ := carriedState?_eq_some.mp hcarried
    rw [get?_statesOf hunique] at hget
    exact ⟨(of_state? hget).2, hsum⟩
  | none => exact ⟨rfl, rfl⟩

/-- The definition of a task is found by the task, where tasks are distinct. -/
theorem ValidatedTaskPlan.definition?_eq
    (hunique : (plan.tasks.map ResolvedTaskSpec.taskId).Nodup) (taskId : String) :
    plan.definition? taskId = KeyedList.find? ResolvedTaskSpec.taskId plan.tasks taskId := by
  have hget : ∀ r, plan.definition? taskId = some r ↔ ∃ x ∈ plan.tasks, x.taskId = taskId ∧ id x = r :=
    fun r => get?_ofItems hunique taskId r
  apply Option.ext
  intro r
  rw [hget r]
  constructor
  · rintro ⟨x, hx, rfl, rfl⟩
    exact find?_of_mem hunique hx
  · intro hfind
    obtain ⟨hmem, hkey⟩ := mem_of_find? hfind
    exact ⟨r, hmem, hkey, rfl⟩

theorem mapM_nextState {definitions : List ResolvedTaskSpec} {tasks : List TaskProjection}
    (h : definitions.mapM (nextState contracts previous) = .ok tasks) :
    tasks = definitions.map (carriedState contracts previous) := by
  have hmap : tasks.map id = definitions.map (carriedState contracts previous) :=
    map_eq (fun _ _ ht => nextState_eq_ok ht) (forall₂_of_mapM h)
  rwa [map_id] at hmap

/-- The projection of a new plan has the carried states of its tasks, which are distinct. -/
theorem of_projectionForPlan {sequence : ℕ} {previous : TaskPlanProjection}
    (hunique : (previous.tasks.map TaskProjection.taskId).Nodup)
    (h : projectionForPlan sha256 contracts plan sequence previous = .ok p) :
    (plan.tasks.map ResolvedTaskSpec.taskId).Nodup ∧ p.consumedBudget = previous.consumedBudget ∧
      (p.tasks.map TaskProjection.taskId).Nodup ∧ ∀ taskId, p.state? taskId =
        (plan.definition? taskId).map (carriedState contracts previous) := by
  unfold projectionForPlan at h
  obtain ⟨tasks, htasks, hconstruct⟩ := bind_inv h
  obtain rfl := mapM_nextState htasks
  have hkey : ∀ r, (carriedState contracts previous r).taskId = r.taskId :=
    fun r => (of_carriedState hunique r).1
  have hids : (plan.tasks.map (carriedState contracts previous)).map TaskProjection.taskId =
      plan.tasks.map ResolvedTaskSpec.taskId := by
    rw [map_map]
    exact map_congr_left fun r _ => hkey r
  have hnodup := (of_construct hconstruct).1
  rw [hids] at hnodup
  have hbudget := TaskPlanScheduler.consumedBudget_of_construct hconstruct
  refine ⟨hnodup, hbudget, nodup_of_construct hconstruct, fun taskId => ?_⟩
  rw [state?_of_construct hconstruct, state?_eq, ValidatedTaskPlan.definition?_eq hnodup]
  exact KeyedList.find?_map hkey plan.tasks taskId

variable {closedId reason : String}

/-- The states after a task is closed. -/
theorem mapM_closed {states tasks : List TaskProjection}
    (h : (states.mapM fun t => if t.taskId = closedId then do
        (t.closed reason).check
        return t.closed reason
      else (.ok t : Except HarnessValidationError TaskProjection)) = .ok tasks) :
    tasks = states.map fun t => if t.taskId = closedId then t.closed reason else t := by
  have hmap : tasks.map id =
      states.map fun t => if t.taskId = closedId then t.closed reason else t := by
    refine map_eq (fun t t' ht => ?_) (forall₂_of_mapM h)
    by_cases hid : t.taskId = closedId
    · rw [if_pos hid] at ht ⊢
      exact pure_eq_ok_iff.mp (check_inv ht).2 ▸ rfl
    · rw [if_neg hid] at ht ⊢
      exact ok_inj ht ▸ rfl
  rwa [map_id] at hmap

variable {unknown : HarnessValidationError}

/-- Closing a task changes the state of this task only. -/
theorem of_closeTask {named : List String}
    (h : closeTask sha256 unknown named reason p closedId = .ok p') :
    p'.consumedBudget = p.consumedBudget ∧ (p'.tasks.map TaskProjection.taskId).Nodup ∧
      ∀ taskId, p'.state? taskId =
        if taskId = closedId then (p.state? taskId).map fun t => t.closed reason
        else p.state? taskId := by
  unfold closeTask at h
  obtain ⟨tasks, htasks, hconstruct⟩ := bind_inv (check_inv h).2
  obtain rfl := mapM_closed htasks
  have hkey : ∀ t : TaskProjection,
      (if t.taskId = closedId then t.closed reason else t).taskId = t.taskId := by
    intro t
    split <;> rfl
  have hbudget := TaskPlanScheduler.consumedBudget_of_construct hconstruct
  refine ⟨hbudget, nodup_of_construct hconstruct, fun taskId => ?_⟩
  have hfind : p'.state? taskId =
      (p.state? taskId).map fun t => if t.taskId = closedId then t.closed reason else t := by
    rw [state?_of_construct hconstruct, state?_eq, state?_eq]
    exact KeyedList.find?_map hkey p.tasks taskId
  rw [hfind]
  cases hstate : p.state? taskId with
  | none => simp
  | some t =>
    have hid := (of_state? hstate).2
    rw [Option.map_some, hid]
    split <;> rfl

/-! ## The commit -/

/-- The second projection is the first one with some tasks closed. -/
structure Closes (ids : List String) (p p' : TaskPlanProjection) : Prop where
  budget : p'.consumedBudget = p.consumedBudget
  unique : (p.tasks.map TaskProjection.taskId).Nodup → (p'.tasks.map TaskProjection.taskId).Nodup
  kept : ∀ taskId, taskId ∉ ids → p'.state? taskId = p.state? taskId
  closed : ∀ taskId ∈ ids, ∃ reason, p'.state? taskId = (p.state? taskId).map fun t => t.closed reason

theorem Closes.nil (p : TaskPlanProjection) : Closes [] p p :=
  ⟨rfl, fun h => h, fun _ _ => rfl, nofun⟩

/-- Tasks are closed one list after the other. -/
theorem Closes.append {ids ids' : List String} {p'' : TaskPlanProjection} (h : Closes ids p p')
    (h' : Closes ids' p' p'') : Closes (ids ++ ids') p p'' := by
  refine ⟨h'.budget.trans h.budget, fun hunique => h'.unique (h.unique hunique), ?_, ?_⟩
  · intro taskId hnot
    rw [mem_append, not_or] at hnot
    exact (h'.kept taskId hnot.2).trans (h.kept taskId hnot.1)
  · intro taskId hmem
    by_cases hsecond : taskId ∈ ids'
    · obtain ⟨reason, hreason⟩ := h'.closed taskId hsecond
      by_cases hfirst : taskId ∈ ids
      · obtain ⟨reason', hreason'⟩ := h.closed taskId hfirst
        refine ⟨reason, ?_⟩
        rw [hreason, hreason', Option.map_map]
        rfl
      · exact ⟨reason, by rw [hreason, h.kept taskId hfirst]⟩
    · have hfirst : taskId ∈ ids := (mem_append.mp hmem).resolve_right hsecond
      obtain ⟨reason, hreason⟩ := h.closed taskId hfirst
      exact ⟨reason, (h'.kept taskId hsecond).trans hreason⟩

/-- A loop that closes one task a turn. -/
theorem closes_foldlM {α : Type} {key : α → String}
    {f : TaskPlanProjection → α → Except HarnessValidationError TaskPlanProjection}
    (hf : ∀ p a p', f p a = .ok p' → Closes [key a] p p') {xs : List α} :
    ∀ {p p' : TaskPlanProjection}, xs.foldlM f p = .ok p' → Closes (xs.map key) p p' := by
  induction xs with
  | nil =>
    intro p p' h
    obtain rfl : p = p' := pure_eq_ok_iff.mp h
    exact Closes.nil p
  | cons x xs ih =>
    intro p p' h
    rw [foldlM_cons] at h
    obtain ⟨mid, hmid, hrest⟩ := bind_inv h
    exact (hf p x mid hmid).append (ih hrest)

theorem closes_of_closeTask {named : List String}
    (h : closeTask sha256 unknown named reason p closedId = .ok p') : Closes [closedId] p p' := by
  obtain ⟨hbudget, hunique, hstate⟩ := of_closeTask h
  refine ⟨hbudget, fun _ => hunique, ?_, ?_⟩
  · intro taskId hnot
    rw [hstate taskId, if_neg (fun heq => hnot (mem_singleton.mpr heq))]
  · intro taskId hmem
    exact ⟨reason, by rw [hstate taskId, if_pos (mem_singleton.mp hmem)]⟩

/-- The targets of the replacements of a patch are the keys of its mapping. -/
theorem mem_keys_replacementMapping {mapping : PyDict String String}
    (h : replacementMapping patch = .ok mapping) (taskId : String) :
    taskId ∈ mapping.keys ↔ ∃ r, .addReplacementTask taskId r ∈ patch.operations := by
  unfold replacementMapping at h
  refine of_foldlM_done (P := fun done m => taskId ∈ m.keys ↔
    ∃ r, .addReplacementTask taskId r ∈ done) (by simp [PyDict.keys]) ?_ h
  intro done operation _ m m' hm hstep
  cases operation with
  | addReplacementTask target replacement =>
    obtain ⟨hnew, hset⟩ := check_inv hstep
    cases hset
    rw [keys_set_of_notMem _ (of_require hnew)]
    simp [hm, exists_or]
  | skipPendingTask target | updatePendingDependency target dependsOn =>
    obtain rfl : m = m' := pure_eq_ok_iff.mp hstep
    simpa using hm

/-- The tasks that a patch closes are those that it replaces and those that it skips. -/
theorem mem_closedTaskIds : taskId ∈ patch.closedTaskIds ↔
      (∃ r, .addReplacementTask taskId r ∈ patch.operations) ∨ taskId ∈ patch.skippedTaskIds := by
  unfold PlanPatch.closedTaskIds PlanPatch.skippedTaskIds
  rw [mem_filterMap, mem_filterMap]
  constructor
  · rintro ⟨operation, hmem, htarget⟩
    cases operation with
    | addReplacementTask target r =>
      cases htarget
      exact Or.inl ⟨r, hmem⟩
    | skipPendingTask target => exact Or.inr ⟨_, hmem, htarget⟩
    | updatePendingDependency target dependsOn => cases htarget
  · rintro (⟨r, hmem⟩ | ⟨operation, hmem, htarget⟩)
    · exact ⟨_, hmem, rfl⟩
    · cases operation with
      | addReplacementTask target r => cases htarget
      | skipPendingTask target => exact ⟨_, hmem, htarget⟩
      | updatePendingDependency target dependsOn => cases htarget

theorem exists_of_mem_closedTaskIds (h : taskId ∈ patch.closedTaskIds) :
    ∃ operation ∈ patch.operations, operation.targetTaskId = taskId := by
  rcases mem_closedTaskIds.mp h with ⟨r, hmem⟩ | hmem
  · exact ⟨_, hmem, rfl⟩
  · obtain ⟨operation, hop, htarget⟩ := mem_filterMap.mp hmem
    cases operation with
    | addReplacementTask target r => cases htarget
    | skipPendingTask target => exact ⟨_, hop, Option.some.inj htarget⟩
    | updatePendingDependency target dependsOn => cases htarget

/-- The check of the siblings lets no active task be unless it is a target. -/
theorem of_validatePatchActiveSiblings {targeted : List String} {u : Unit}
    (h : validatePatchActiveSiblings p targeted = .ok u) :
    ∀ t ∈ p.tasks, t.status ∈ TaskLifecycle.active → t.taskId ∈ targeted := by
  intro t ht hactive
  unfold validatePatchActiveSiblings at h
  have hnone := map_eq_nil_iff.mp (of_require h)
  by_contra hnot
  have hall := filter_eq_nil_iff.mp hnone t ht
  exact hall (decide_eq_true ⟨hactive, hnot⟩)

variable {current : ValidatedTaskPlan}

/-- A plan with a later version than the current one is not in the store. -/
theorem TaskPlanStage.get?_eq_none_of_current {stage : TaskPlanStage} (hvalid : stage.Valid)
    (hcurrent : stage.currentPlan = some current) :
    stage.plans.get? (current.version + 1) = none := by
  apply Option.eq_none_iff_forall_ne_some.mpr
  intro existing hget
  have hversion := hvalid.keyed _ (mem_of_get? hget)
  have hle := le_of_mem_argmax (mem_values_of_get? hget) hcurrent
  dsimp only at hversion
  omega

/-- What a committed patch leaves: every task of the new plan is in the state that is carried over or
new, closed if the patch closes it. -/
structure Accepts (contracts : PlanContracts) (before : TaskPlanProjection) (plan : ValidatedTaskPlan)
    (patch : PlanPatch) (accepted : TaskPlanProjection) : Prop where
  distinct : (plan.tasks.map ResolvedTaskSpec.taskId).Nodup
  budget : accepted.consumedBudget = before.consumedBudget
  unique : (accepted.tasks.map TaskProjection.taskId).Nodup
  kept : ∀ taskId, taskId ∉ patch.closedTaskIds →
    accepted.state? taskId = (plan.definition? taskId).map (carriedState contracts before)
  closed : ∀ taskId ∈ patch.closedTaskIds, ∃ reason, accepted.state? taskId =
    (plan.definition? taskId).map fun r => (carriedState contracts before r).closed reason
  active : ∀ t ∈ before.tasks, t.status ∈ TaskLifecycle.active →
    ∃ operation ∈ patch.operations, operation.targetTaskId = t.taskId

variable {before : TaskPlanProjection}

/-- The projection of a patched plan. -/
theorem of_replannedProjection {sequence : ℕ} {accepted : TaskPlanProjection}
    {replaced : List (String × String)} {skipped : List String}
    (h : replannedProjection sha256 contracts plan sequence before replaced skipped =
      .ok accepted) :
    ∃ carried, projectionForPlan sha256 contracts plan sequence before = .ok carried ∧
      Closes (replaced.map Prod.fst ++ skipped) carried accepted := by
  unfold replannedProjection at h
  obtain ⟨carried, hcarried, h⟩ := bind_inv h
  obtain ⟨closed, hreplaced, hskipped⟩ := bind_inv h
  have hfirst : Closes (replaced.map Prod.fst) carried closed :=
    closes_foldlM (fun _ _ _ hclose => closes_of_closeTask hclose) hreplaced
  have hsecond : Closes (skipped.map id) closed accepted :=
    closes_foldlM (fun _ _ _ hclose => closes_of_closeTask hclose) hskipped
  rw [map_id] at hsecond
  exact ⟨carried, hcarried, hfirst.append hsecond⟩

/-- The commit of a patched plan whose skipped tasks are those of the patch. -/
theorem of_acceptPatchedPlan {stage stage' : TaskPlanStage} (hvalid : stage.Valid)
    (hcurrent : stage.currentPlan = some current) (hprojection : stage.projection = some before)
    (h : stage.acceptPatchedPlan sha256 contracts patch plan patch.skippedTaskIds = .ok stage') :
    ∃ accepted, stage'.projection = some accepted ∧
      Accepts contracts before plan patch accepted := by
  have hunique := hvalid.unique before hprojection
  unfold acceptPatchedPlan at h
  replace h := (check_inv h).2
  obtain ⟨replacements, hreplacements, h⟩ := bind_inv h
  rw [hcurrent, hprojection] at h
  simp only [orRaise_some, ok_bind] at h
  obtain ⟨hsuccessor, h⟩ := check_inv h
  obtain ⟨hsiblings, h⟩ := check_inv (check_inv h).2
  -- the version is new
  unfold checkSuccessor at hsuccessor
  replace hsuccessor := (check_inv (check_inv hsuccessor).2).2
  have hversion := (of_require (check_inv hsuccessor).1).2
  rw [hversion, get?_eq_none_of_current hvalid hcurrent] at h
  obtain ⟨accepted, haccepted, h⟩ := bind_inv h
  cases h
  obtain ⟨carried, hcarried, hcloses⟩ := of_replannedProjection haccepted
  obtain ⟨hdistinct, hbudget, hunique', hstate⟩ := of_projectionForPlan hunique hcarried
  -- the closed tasks are those of the patch
  have hids : ∀ taskId, taskId ∈ ((PyText.sorted replacements.keys).map fun taskId =>
      (taskId, (replacements.get? taskId).getD "")).map Prod.fst ++
        sortedSet patch.skippedTaskIds ↔ taskId ∈ patch.closedTaskIds := by
    intro taskId
    rw [mem_append, map_map, mem_sortedSet, mem_closedTaskIds,
      ← mem_keys_replacementMapping hreplacements taskId]
    apply or_congr_left
    rw [mem_map]
    constructor
    · rintro ⟨k, hk, rfl⟩
      exact mem_sorted.mp hk
    · intro hk
      exact ⟨taskId, mem_sorted.mpr hk, rfl⟩
  refine ⟨accepted, rfl, hdistinct, hcloses.budget.trans hbudget, hcloses.unique hunique', ?_, ?_, ?_⟩
  · intro taskId hnot
    rw [hcloses.kept taskId (fun hmem => hnot ((hids taskId).mp hmem)), hstate taskId]
  · intro taskId hmem
    rcases hcloses.closed taskId ((hids taskId).mpr hmem) with ⟨reason, hreason⟩
    refine ⟨reason, ?_⟩
    rw [hreason, hstate taskId, Option.map_map]
    rfl
  · intro t ht hactive
    rcases mem_append.mp (of_validatePatchActiveSiblings hsiblings t ht hactive) with hmem | hmem
    · apply exists_of_mem_closedTaskIds
      apply mem_closedTaskIds.mpr
      rcases mem_append.mp hmem with hmem | hmem
      · exact Or.inl ((mem_keys_replacementMapping hreplacements t.taskId).mp hmem)
      · exact Or.inr (mem_sortedSet.mp hmem)
    · rcases mem_map.mp hmem with ⟨operation, hop, htarget⟩
      exact ⟨operation, hop, htarget⟩

end TaskPlan
