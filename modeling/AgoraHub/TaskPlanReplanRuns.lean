/-
# Replanning

A patch that the validator accepts is committed, and every task that it leaves with a
failed dependency is blocked.  What should hold then, and exactly when it does.
-/
import AgoraHub.TaskPlanBlocking
import AgoraHub.TaskPlanLedgerRuns

namespace TaskPlan

open Fallible TaskPlanProjection List KeyedList ValidatedTaskPlan Option

section Replan

variable (sha256 : String → HexDigest) (contracts : PlanContracts)

/-! ## What a replan should keep -/

/-- The ledger of a projection has a reservation of the task that is not settled. -/
def ReservationOutstanding (p : TaskPlanProjection) (taskId : String) : Prop :=
  ∃ ledger : TaskPlanBudgetLedger sha256, TaskPlanScheduler.consumedLedger p = .ok ledger ∧
    ∃ r ∈ ledger.fields.records.values, r.taskId = taskId ∧ r.status = .reserved

/-- The states whose outcome is not known, or not reconciled. -/
def TaskLifecycle.unreconciled : List TaskLifecycle := [indeterminate, quarantined]

/-- What a replan keeps: the plan and its projection before it, the patched plan, the committed
projection and the one after the blocks. -/
structure ReplanSound (plan plan' : ValidatedTaskPlan)
    (before accepted after : TaskPlanProjection) : Prop where
  blocked : ∀ taskId, after.InState .blockedDependency taskId →
    GraphSearch.Hangs plan'.dependenciesOf (FailedForGood contracts plan' after)
      (after.InState .blockedDependency) taskId
  reserved : ∀ taskId, ∀ status ∈ TaskLifecycle.active ++ TaskLifecycle.unreconciled,
    before.InState status taskId → ReservationOutstanding sha256 accepted taskId →
      ¬ accepted.InState .pending taskId ∧ ¬ after.InState .pending taskId
  results : ∀ taskId t, before.state? taskId = some t → t.status = .succeeded →
    plan'.definition? taskId = plan.definition? taskId →
      ∃ t', after.state? taskId = some t' ∧ t'.status = .succeeded ∧ t'.result = t.result

/-! ## When it does -/

section

variable (before : TaskPlanProjection)

/-- A task that fails its dependents in the patched plan: the patch replaces or skips it, or its
definition and its failure stay. -/
def StaysFailed (patch : PlanPatch) (plan' : ValidatedTaskPlan) (taskId : String) : Prop :=
  taskId ∈ patch.closedTaskIds ∨
    ∃ r t, plan'.definition? taskId = some r ∧ carriedState? contracts before r = some t ∧
      terminalTaskFailure contracts plan' t = .ok true ∧ t.status ≠ .blockedDependency

/-- A blocked task whose definition stays. -/
def StaysBlocked (plan' : ValidatedTaskPlan) (taskId : String) : Prop :=
  ∃ r t, plan'.definition? taskId = some r ∧ carriedState? contracts before r = some t ∧
    t.status = .blockedDependency

/-- A task of the patched plan that has no state to carry over. -/
def StartsAnew (patch : PlanPatch) (plan' : ValidatedTaskPlan) (taskId : String) : Prop :=
  taskId ∉ patch.closedTaskIds ∧
    ∃ r, plan'.definition? taskId = some r ∧ carriedState? contracts before r = none

end

/-- A patch that is safe: every block that stays has a failure that stays behind it, and no task
whose outcome is not reconciled has a reservation. -/
structure ReplanSafe (before : TaskPlanProjection) (patch : PlanPatch) (plan' : ValidatedTaskPlan) :
    Prop where
  blocks : ∀ taskId, StaysBlocked contracts before plan' taskId →
    GraphSearch.Hangs plan'.dependenciesOf (StaysFailed contracts before patch plan')
      (fun d => StaysBlocked contracts before plan' d ∨ StartsAnew contracts before patch plan' d)
      taskId
  reservations : ∀ taskId, ∀ status ∈ TaskLifecycle.unreconciled,
    before.InState status taskId → ¬ ReservationOutstanding sha256 before taskId

end Replan

variable {t : TaskProjection} {r : ResolvedTaskSpec} {taskId : String}

section Steps

variable {sha256 : String → HexDigest} {contracts : PlanContracts}

/-! ## The committed projection -/

/-- A state that belongs to its plan is of the definition of its task. -/
theorem of_validatedPlanProjection {plan : ValidatedTaskPlan} {p : TaskPlanProjection}
    {depths : PyDict String ℕ} (hunique : (p.tasks.map TaskProjection.taskId).Nodup)
    (h : validatedPlanProjection contracts plan p = .ok depths) {taskId : String}
    {t : TaskProjection} (hstate : p.state? taskId = some t) :
    ∃ r, plan.definition? taskId = some r ∧
      contracts.definitionChecksum r = t.taskDefinitionChecksum := by
  unfold validatedPlanProjection at h
  replace h := (check_inv (check_inv h).2).2
  have hmem := PyDict.mem_of_get? ((get?_statesOf hunique taskId).trans hstate)
  have hcheck := of_forM (check_inv h).1 _ hmem
  have hany := of_require hcheck
  rcases hdefinition : (definitionsOf plan).get? taskId with _ | r
  · rw [hdefinition] at hany
    cases hany
  · rw [hdefinition] at hany
    exact ⟨r, hdefinition, of_decide_eq_true hany⟩

/-- A terminal failure of a state of its definition. -/
theorem terminalTaskFailure_of_definition {plan : ValidatedTaskPlan}
    (hdistinct : (plan.tasks.map ResolvedTaskSpec.taskId).Nodup)
    (hdefinition : plan.definition? t.taskId = some r)
    (hsum : contracts.definitionChecksum r = t.taskDefinitionChecksum)
    (hin : t.status ∈ TaskLifecycle.dependencyFailure) (hnot : t.status ≠ .failed) :
    terminalTaskFailure contracts plan t = .ok true := by
  have hfound : definitionForProjection contracts plan t = .ok r := by
    rw [definition?_eq hdistinct] at hdefinition
    have hfind : plan.tasks.find? (fun r => decide (r.taskId = t.taskId)) = some r := hdefinition
    have hfilter : (some r).filter
        (fun r => decide (contracts.definitionChecksum r = t.taskDefinitionChecksum)) = some r :=
      filter_eq_some_iff.mpr ⟨rfl, decide_eq_true hsum⟩
    unfold definitionForProjection
    rw [hfind, hfilter]
    rfl
  unfold terminalTaskFailure
  rw [hfound, ok_bind, if_neg (not_not_intro hin), if_pos hnot]
  rfl

/-- The facts about a replan that its parts share: the patch is applied to a plan and its projection,
which is complete, and committed. -/
structure Replanned (contracts : PlanContracts) (plan plan' : ValidatedTaskPlan) (patch : PlanPatch)
    (before accepted : TaskPlanProjection) : Prop where
  unique : (before.tasks.map TaskProjection.taskId).Nodup
  accepts : Accepts contracts before plan' patch accepted
  belongs : ∀ taskId t, before.state? taskId = some t → ∃ r, plan.definition? taskId = some r ∧
    contracts.definitionChecksum r = t.taskDefinitionChecksum
  patchable : ∀ operation ∈ patch.operations, ∃ t,
    before.state? operation.targetTaskId = some t ∧ t.status ∈ patchableStates
  kept : ∀ taskId t, before.state? taskId = some t → ∃ r, plan'.definition? taskId = some r

namespace Replanned

variable {plan plan' : ValidatedTaskPlan} {patch : PlanPatch} {before accepted : TaskPlanProjection}

section

variable (h : Replanned contracts plan plan' patch before accepted)

include h

theorem of_mem_closedTaskIds (hmem : taskId ∈ patch.closedTaskIds) :
    ∃ t, before.state? taskId = some t ∧ t.status ∈ patchableStates := by
  obtain ⟨operation, hop, rfl⟩ := exists_of_mem_closedTaskIds hmem
  exact h.patchable operation hop

theorem not_mem_closedTaskIds (hstate : before.state? taskId = some t)
    (hstatus : t.status ∉ patchableStates) : taskId ∉ patch.closedTaskIds := by
  intro hmem
  obtain ⟨u, hu, hpatchable⟩ := h.of_mem_closedTaskIds hmem
  rw [hstate] at hu
  cases hu
  exact hstatus hpatchable

/-- A carried state is the state before. -/
theorem of_carriedState? (hdefinition : plan'.definition? taskId = some r)
    (hcarried : carriedState? contracts before r = some t) :
    before.state? taskId = some t ∧ t.status ∈ TaskLifecycle.carried := by
  obtain ⟨hget, -, hstatus⟩ := carriedState?_eq_some.mp hcarried
  rw [get?_statesOf h.unique] at hget
  rw [definition?_eq h.accepts.distinct] at hdefinition
  rw [(mem_of_find? hdefinition).2] at hget
  exact ⟨hget, hstatus⟩

theorem state?_of_kept (hnot : taskId ∉ patch.closedTaskIds)
    (hdefinition : plan'.definition? taskId = some r) :
    accepted.state? taskId = some (carriedState contracts before r) := by
  rw [h.accepts.kept taskId hnot, hdefinition, map_some]

/-- Blocked are the tasks whose blocks stay. -/
theorem inState_blocked_iff (taskId : String) :
    accepted.InState .blockedDependency taskId ↔ StaysBlocked contracts before plan' taskId := by
  constructor
  · rintro ⟨u, hu, hstatus⟩
    -- a closed task has another status, any other task has the state that was carried over
    by_cases hclosed : taskId ∈ patch.closedTaskIds
    · obtain ⟨reason, hreason⟩ := h.accepts.closed taskId hclosed
      rw [hreason] at hu
      obtain ⟨r, -, rfl⟩ := map_eq_some_iff.mp hu
      cases hstatus
    · rw [h.accepts.kept taskId hclosed] at hu
      obtain ⟨r, hr, rfl⟩ := map_eq_some_iff.mp hu
      refine ⟨r, ?_⟩
      unfold carriedState at hstatus
      cases hcarried : carriedState? contracts before r with
      | none =>
        rw [hcarried] at hstatus
        cases hstatus
      | some t =>
        rw [hcarried] at hstatus
        exact ⟨t, hr, rfl, hstatus⟩
  · rintro ⟨r, t, hr, hcarried, hstatus⟩
    obtain ⟨hbefore, -⟩ := h.of_carriedState? hr hcarried
    have hnot := h.not_mem_closedTaskIds hbefore (by rw [hstatus]; decide)
    refine ⟨t, ?_, hstatus⟩
    rw [h.state?_of_kept hnot hr, carriedState, hcarried, getD_some]

/-- The tasks that wait are those that start anew. -/
theorem waits_iff (taskId : String) :
    Waits accepted taskId ↔ StartsAnew contracts before patch plan' taskId := by
  constructor
  · rintro ⟨u, hu, hwaits⟩
    have hstatus := status_of_isUnadmitted hwaits
    by_cases hclosed : taskId ∈ patch.closedTaskIds
    · obtain ⟨reason, hreason⟩ := h.accepts.closed taskId hclosed
      rw [hreason] at hu
      obtain ⟨r, -, rfl⟩ := map_eq_some_iff.mp hu
      rcases hstatus with hstatus | hstatus <;> cases hstatus
    · rw [h.accepts.kept taskId hclosed] at hu
      obtain ⟨r, hr, rfl⟩ := map_eq_some_iff.mp hu
      refine ⟨hclosed, r, hr, ?_⟩
      cases hcarried : carriedState? contracts before r with
      | none => rfl
      | some t =>
        -- no waiting state is carried over
        have hin := (h.of_carriedState? hr hcarried).2
        rw [carriedState, hcarried, getD_some] at hstatus
        rcases hstatus with hstatus | hstatus <;>
          · rw [hstatus] at hin
            exact absurd hin (by decide)
  · rintro ⟨hnot, r, hr, hcarried⟩
    refine ⟨pendingState contracts r, ?_, rfl⟩
    rw [h.state?_of_kept hnot hr, carriedState, hcarried, getD_none]

/-- The tasks that failed for good are those whose failures stay. -/
theorem failedForGood_iff (taskId : String) : FailedForGood contracts plan' accepted taskId ↔
      StaysFailed contracts before patch plan' taskId := by
  constructor
  · rintro ⟨u, hu, hterminal, hnot⟩
    by_cases hclosed : taskId ∈ patch.closedTaskIds
    · exact Or.inl hclosed
    · rw [h.accepts.kept taskId hclosed] at hu
      obtain ⟨r, hr, rfl⟩ := map_eq_some_iff.mp hu
      unfold carriedState at hterminal hnot
      cases hcarried : carriedState? contracts before r with
      | none =>
        -- a pending task is no failure
        rw [hcarried, getD_none] at hterminal
        have hstatus : (pendingState contracts r).status = .pending := rfl
        have hfalse := terminalTaskFailure_of_status hterminal (by rw [hstatus]; decide)
        rw [hstatus] at hfalse
        exact absurd hfalse (by decide)
      | some t =>
        rw [hcarried, getD_some] at hterminal hnot
        exact Or.inr ⟨r, t, hr, hcarried, hterminal, hnot⟩
  · intro hstays
    by_cases hclosed : taskId ∈ patch.closedTaskIds
    · obtain ⟨reason, hreason⟩ := h.accepts.closed taskId hclosed
      obtain ⟨t, ht, -⟩ := h.of_mem_closedTaskIds hclosed
      obtain ⟨r, hr⟩ := h.kept taskId t ht
      rw [hr, map_some] at hreason
      obtain ⟨hid, hsum⟩ := @of_carriedState contracts before h.unique r
      have hdefinition : plan'.definition?
          ((carriedState contracts before r).closed reason).taskId = some r := by
        rw [← hr]
        apply congrArg
        refine hid.trans ?_
        rw [definition?_eq h.accepts.distinct] at hr
        exact (mem_of_find? hr).2
      refine ⟨_, hreason, ?_, by intro hstatus; cases hstatus⟩
      refine terminalTaskFailure_of_definition h.accepts.distinct hdefinition hsum.symm ?_ ?_
      · show TaskLifecycle.skipped ∈ _
        decide
      · intro hstatus
        cases hstatus
    · obtain ⟨r, t, hr, hcarried, hterminal, hnot⟩ := hstays.resolve_left hclosed
      refine ⟨t, ?_, hterminal, hnot⟩
      rw [h.state?_of_kept hclosed hr, carriedState, hcarried, getD_some]

end

end Replanned

/-! ## The replan -/

variable {stage stage' : TaskPlanStage} {patch : PlanPatch} {plan plan' : ValidatedTaskPlan}
  {before accepted after : TaskPlanProjection} {policy : TaskPlanPolicy}
  {resolve : String → Except HarnessValidationError ResolvedCapabilityBinding}
  {acceptedAt : String} {availableInputRefs : List String}

/-- A patch that is applied and committed gives the facts about a replan. -/
theorem replanned_of_accept (hvalid : stage.Valid) (hplan : stage.currentPlan = some plan)
    (hbefore : stage.projection = some before)
    (hcomplete : dependencyBlockedTaskIds contracts plan before = .ok [])
    (happly : TaskPlanPatchValidator.apply sha256 contracts plan patch before policy resolve
      acceptedAt availableInputRefs = .ok plan')
    (haccept : stage.acceptPatchedPlan sha256 contracts patch plan' patch.skippedTaskIds =
      .ok stage') (haccepted : stage'.projection = some accepted) :
    Replanned contracts plan plan' patch before accepted := by
  have hunique := hvalid.unique before hbefore
  obtain ⟨p, hp, haccepts⟩ := of_acceptPatchedPlan hvalid hplan hbefore haccept
  obtain rfl := Option.some.inj (haccepted.symm.trans hp)
  obtain ⟨htargets, hkept⟩ := TaskPlanPatchValidator.of_apply happly
  unfold dependencyBlockedTaskIds at hcomplete
  obtain ⟨depths, hdepths, -⟩ := bind_inv hcomplete
  have hbelongs := fun taskId t => @of_validatedPlanProjection contracts plan before depths hunique
    hdepths taskId t
  refine ⟨hunique, haccepts, hbelongs, fun operation hop => ?_, fun taskId t ht => ?_⟩
  · obtain ⟨t, ht, hpatchable⟩ := htargets operation hop
    exact ⟨t, (get?_statesOf hunique _).symm.trans ht, hpatchable⟩
  · obtain ⟨r, hr, -⟩ := hbelongs taskId t ht
    rcases hkept taskId ((PyDict.mem_keys_iff _ _).mpr ⟨r, hr⟩) with ⟨r', hmem, rfl⟩
    refine ⟨r', ?_⟩
    rw [definition?_eq haccepts.distinct]
    exact find?_of_mem haccepts.distinct hmem

namespace Replanned

section

variable (h : Replanned contracts plan plan' patch before accepted)

include h

/-- No task of the projection before is active. -/
theorem not_active (hstate : before.state? taskId = some t) : t.status ∉ TaskLifecycle.active := by
  intro hactive
  obtain ⟨hmem, hid⟩ := of_state? hstate
  obtain ⟨operation, hop, htarget⟩ := h.accepts.active t hmem hactive
  obtain ⟨u, hu, hpatchable⟩ := h.patchable operation hop
  rw [htarget, hid, hstate] at hu
  cases hu
  revert hactive hpatchable
  cases t.status <;> decide

/-- A task that is not reconciled is pending after the commit. -/
theorem inState_pending {status : TaskLifecycle} (hstatus : status ∈ TaskLifecycle.unreconciled)
    (hstate : before.InState status taskId) : accepted.InState .pending taskId := by
  obtain ⟨t, ht, rfl⟩ := hstate
  obtain ⟨r, hr⟩ := h.kept taskId t ht
  have hnot := h.not_mem_closedTaskIds ht (by revert hstatus; cases t.status <;> decide)
  refine ⟨carriedState contracts before r, h.state?_of_kept hnot hr, ?_⟩
  unfold carriedState
  cases hcarried : carriedState? contracts before r with
  | none => rfl
  | some u =>
    obtain ⟨hu, hin⟩ := h.of_carriedState? hr hcarried
    rw [ht] at hu
    cases hu
    exfalso
    revert hstatus hin
    cases t.status <;> decide

theorem reservationOutstanding_iff
    (taskId : String) : ReservationOutstanding sha256 accepted taskId ↔ ReservationOutstanding sha256 before taskId := by
  unfold ReservationOutstanding TaskPlanScheduler.consumedLedger
  rw [h.accepts.budget]

/-- A result stays with an unchanged definition. -/
theorem state?_of_succeeded (hstate : before.state? taskId = some t)
    (hstatus : t.status = .succeeded) (hsame : plan'.definition? taskId = plan.definition? taskId) :
    accepted.state? taskId = some t := by
  obtain ⟨r, hr, hsum⟩ := h.belongs taskId t hstate
  have hr' := hsame.trans hr
  have hnot := h.not_mem_closedTaskIds hstate (by rw [hstatus]; decide)
  have hid : r.taskId = taskId := by
    rw [definition?_eq h.accepts.distinct] at hr'
    exact (mem_of_find? hr').2
  have hcarried : carriedState? contracts before r = some t := by
    apply carriedState?_eq_some.mpr
    refine ⟨?_, hsum.symm, ?_⟩
    · rw [get?_statesOf h.unique, hid]
      exact hstate
    · rw [hstatus]
      decide
  rw [h.state?_of_kept hnot hr', carriedState, hcarried, getD_some]

end

end Replanned

/-- A replan keeps what it should exactly if the patch is safe. -/
theorem replanSound_iff (hvalid : stage.Valid) (hplan : stage.currentPlan = some plan)
    (hbefore : stage.projection = some before)
    (hcomplete : dependencyBlockedTaskIds contracts plan before = .ok [])
    (happly : TaskPlanPatchValidator.apply sha256 contracts plan patch before policy resolve
      acceptedAt availableInputRefs = .ok plan')
    (haccept : stage.acceptPatchedPlan sha256 contracts patch plan' patch.skippedTaskIds =
      .ok stage') (haccepted : stage'.projection = some accepted)
    (hblock : blockDependencies sha256 contracts plan' accepted = .ok after) :
    ReplanSound sha256 contracts plan plan' before accepted after ↔
      ReplanSafe sha256 contracts before patch plan' := by
  have h := replanned_of_accept hvalid hplan hbefore hcomplete happly haccept haccepted
  obtain ⟨hlater, hblocked⟩ := inState_of_blockDependencies h.accepts.unique hblock
  have hcauses := @GraphSearch.hangs_closed_iff _ plan'.dependenciesOf _ _ _ _ hblocked
  -- what is asked of the tasks after the patch is told from the plans and the state before it
  have hfailed : FailedForGood contracts plan' after = FailedForGood contracts plan' accepted :=
    funext fun d => propext (hlater.failedForGood_iff d)
  have hstays : FailedForGood contracts plan' accepted = StaysFailed contracts before patch plan' :=
    funext fun d => propext (h.failedForGood_iff d)
  have hblocks : accepted.InState .blockedDependency = StaysBlocked contracts before plan' :=
    funext fun d => propext (h.inState_blocked_iff d)
  have hwaits : Waits accepted = StartsAnew contracts before patch plan' :=
    funext fun d => propext (h.waits_iff d)
  rw [hstays, hblocks, hwaits] at hcauses
  constructor
  · intro hsound
    constructor
    · apply hcauses.mp
      rw [← hstays, ← hfailed]
      exact hsound.blocked
    · intro taskId status hstatus hstate houtstanding
      have hpending := h.inState_pending hstatus hstate
      have hreserved := (h.reservationOutstanding_iff taskId).mpr houtstanding
      exact (hsound.reserved taskId status (mem_append_right _ hstatus) hstate hreserved).1
        hpending
  · intro hsafe
    refine ⟨?_, ?_, ?_⟩
    · rw [hfailed, hstays]
      exact hcauses.mpr hsafe.blocks
    · intro taskId status hstatus hstate houtstanding
      exfalso
      rcases mem_append.mp hstatus with hactive | hunreconciled
      · obtain ⟨t, ht, rfl⟩ := hstate
        exact h.not_active ht hactive
      · exact hsafe.reservations taskId status hunreconciled hstate
          ((h.reservationOutstanding_iff taskId).mp houtstanding)
    · intro taskId t hstate hstatus hsame
      have haccepted := h.state?_of_succeeded hstate hstatus hsame
      refine ⟨t, hlater.state?_eq haccepted ?_, hstatus, rfl⟩
      rw [hstatus]
      decide

end Steps

/-! ## A chain of three tasks -/

namespace ReplanSample

/-- Checksums that are told apart by their last digit. -/
def digestText : ℕ → String
  | 0 => "sha256:0000000000000000000000000000000000000000000000000000000000000000"
  | 1 => "sha256:0000000000000000000000000000000000000000000000000000000000000001"
  | 2 => "sha256:0000000000000000000000000000000000000000000000000000000000000002"
  | _ => "sha256:0000000000000000000000000000000000000000000000000000000000000003"

/-- One digest for every text. -/
def sha256 : String → HexDigest := fun _ => HexDigest.ofNat 0

/-- Definitions differ by the lengths of their dependencies, and plans by their versions. -/
def contracts : PlanContracts where
  definitionChecksum r := digestText (r.dependsOn.map String.length).sum
  planChecksum p := digestText p.version
  patchChecksum _ := digestText 9
  timestamp := .ok

/-- The graph `g@1`. -/
def graph : GraphIdentity where
  graphId := "g"
  graphVersion := "1"
  graphRef := "g@1"
  graphSchemaVersion := "newsroom.harness-normalized-graph/v2"
  compilerVersion := "newsroom.harness-graph-compiler/v2"
  conditionPolicyVersion := "newsroom.harness-graph-condition-policy/v1"
  stageBindingChecksum := digestText 0
  stageIdentitySchema := "newsroom.harness-task-plan-stage-identity/v2"
  stageIdentityChecksum := digestText 0

/-- A task with one attempt. -/
def task (taskId : String) (dependsOn : List String) (outputRole : String) : TaskSpec where
  taskId := taskId
  workerCapability := "write"
  inputRefs := ["brief"]
  outputContract := ⟨"schema@1", outputRole, .null⟩
  gateRefs := ["gate@1"]
  dependsOn := dependsOn
  requestedTools := []
  requestedMemoryNamespaces := []
  budgetRequest := Sample.twoTurns
  retryPolicy := ⟨1, []⟩
  rest := .null

/-- An aggregate budget of twenty turns. -/
def twentyTurns : TaskBudget := ⟨Sample.turns 20, eq_ok_of_isOk (by decide)⟩

/-- The policy of the plan. -/
def policy : TaskPlanPolicy where
  exactRef := "q@1"
  policyChecksum := digestText 0
  allowedInputRefs := ["brief"]
  allowedOutputRoles := ["first", "second", "third"]
  requiredOutputRoles := ["third"]
  allowedOutputSchemaRefs := ["schema@1"]
  allowedGateRefs := ["gate@1"]
  deterministicAggregatorRefs := []
  maxTasks := 5
  maxDepth := 5
  maxReplans := 2
  maxTaskAttempts := 1
  perTaskBudget := Sample.twoTurns
  aggregateTaskBudget := twentyTurns

/-- The one capability. -/
def binding : ResolvedCapabilityBinding where
  capability := "write"
  policyRef := "q@1"
  outputSchemaRef := "schema@1"
  workerRef := "w@1"
  workerContractRef := "contract@1"
  allowedTools := []
  allowedMemoryNamespaces := []
  subagentId := none

/-- Every capability is the one. -/
def resolve : String → Except HarnessValidationError ResolvedCapabilityBinding := fun _ => .ok binding

/-- The plan of the tasks `a`, `b` and `c`, each of which depends on the one before. -/
def planned : Except HarnessValidationError ValidatedTaskPlan := do
  let a ← binding.resolveTask (task "a" [] "first") policy
  let b ← binding.resolveTask (task "b" ["a"] "second") policy
  let c ← binding.resolveTask (task "c" ["b"] "third") policy
  ValidatedTaskPlan.construct sha256 contracts
    { planId := "p", runId := "r", stageId := "s", graphChecksum := digestText 0, version := 1
      parentPlanId := none, sourceCandidateRef := "candidate", policyRef := "q@1"
      policyChecksum := digestText 0, tasks := [a, b, c], requiredOutputRoles := ["third"]
      acceptedAt := "now", graph := graph, rest := .null }

/-- A state without a result. -/
def state (taskId : String) (sum : ℕ) (status : TaskLifecycle) (attempts : ℕ) (reason : String) :
    TaskProjection where
  taskId := taskId
  taskDefinitionChecksum := digestText sum
  status := status
  attempts := attempts
  activeInstanceId := none
  admissionOwner := none
  result := none
  failureReasonCode := some reason

/-- The only attempt of `a` failed, and the other two are blocked for it. -/
def projected : Except HarnessValidationError TaskPlanProjection := do
  let ledger ← TaskPlanBudgetLedger.forPlan sha256 "r" "s" "q@1" twentyTurns
  TaskPlanProjection.construct sha256
    { runId := "r", stageId := "s", graphChecksum := digestText 0, planId := "p", planVersion := 1
      planChecksum := digestText 1, policyRef := "q@1"
      tasks := [state "a" 0 .failed 1 "WORKER_FAILED",
        state "b" 1 .blockedDependency 0 taskBlockedUpstreamFailure,
        state "c" 1 .blockedDependency 0 taskBlockedUpstreamFailure]
      consumedBudget := some ledger.snapshot, lastSequence := 6, logicalReadyOrder := []
      graph := graph }

/-- The patch that replaces `a` with `a2`. -/
def patch : PlanPatch where
  patchId := "patch"
  runId := "r"
  stageId := "s"
  basePlanId := "p"
  basePlanVersion := 1
  reasonCode := "REPLACE"
  sourceCandidateRef := "candidate"
  operations := [.addReplacementTask "a" (task "a2" [] "first")]
  graph := graph
  graphChecksum := digestText 0

/-- The stage that holds the plan and its projection. -/
def stage (plan : ValidatedTaskPlan) (before : TaskPlanProjection) : TaskPlanStage where
  plans := [(plan.version, plan)]
  patches := []
  projection := some before
  events := []

/-- The replan, and what is seen after it. -/
def replan : Except HarnessValidationError Unit := do
  let plan ← planned
  let before ← projected
  let targets ← dependencyBlockedTaskIds contracts plan before
  require (targets = []) (keyError "complete")
  let plan' ← TaskPlanPatchValidator.apply sha256 contracts plan patch before policy resolve "later"
    ["brief"]
  let stage' ← (stage plan before).acceptPatchedPlan sha256 contracts patch plan'
    patch.skippedTaskIds
  let accepted ← orRaise stage'.projection (keyError "accepted")
  let after ← blockDependencies sha256 contracts plan' accepted
  require (plan'.dependenciesOf "c" = ["b"]) (keyError "dependencies")
  require ((after.state? "c").any fun t => decide (t.status = .blockedDependency)) (keyError "c")
  require ((after.state? "b").any fun t => decide (t.status = .pending)) (keyError "b")

/-- A projection in which the only dependency of a blocked task is pending breaks the promise. -/
theorem not_replanSound {plan plan' : ValidatedTaskPlan} {before accepted after : TaskPlanProjection}
    (hdependencies : plan'.dependenciesOf "c" = ["b"])
    (hc : after.InState .blockedDependency "c") (hb : after.InState .pending "b") :
    ¬ ReplanSound sha256 contracts plan plan' before accepted after := by
  intro hsound
  have hpending : ∀ d ∈ plan'.dependenciesOf "c", after.InState .pending d := by
    rw [hdependencies]
    intro d hd
    obtain rfl := mem_singleton.mp hd
    exact hb
  have hcause : ∃ d ∈ plan'.dependenciesOf "c", BlocksOthers contracts plan' after d := by
    cases hsound.blocked "c" hc with
    | direct hd hfailed => exact ⟨_, hd, Or.inl hfailed⟩
    | through hd hblocked _ => exact ⟨_, hd, Or.inr hblocked⟩
  rcases hcause with ⟨d, hd, hcause⟩
  rcases hpending d hd with ⟨t, ht, hstatus⟩
  rcases hcause with ⟨u, hu, hterminal, -⟩ | ⟨u, hu, hblocked⟩
  · rw [ht] at hu
    cases hu
    have hin := mem_of_terminalTaskFailure hterminal
    rw [hstatus] at hin
    exact absurd hin (by decide)
  · rw [ht] at hu
    cases hu
    rw [hstatus] at hblocked
    cases hblocked

/-- The replan of the chain, step by step. -/
structure Replay (plan plan' : ValidatedTaskPlan) (before accepted after : TaskPlanProjection)
    (stage' : TaskPlanStage) : Prop where
  valid : (stage plan before).Valid
  complete : dependencyBlockedTaskIds contracts plan before = .ok []
  applied : TaskPlanPatchValidator.apply sha256 contracts plan patch before policy resolve "later"
    ["brief"] = .ok plan'
  committed : (stage plan before).acceptPatchedPlan sha256 contracts patch plan'
    patch.skippedTaskIds = .ok stage'
  projection : stage'.projection = some accepted
  blocked : blockDependencies sha256 contracts plan' accepted = .ok after
  dependencies : plan'.dependenciesOf "c" = ["b"]
  last : after.InState .blockedDependency "c"
  middle : after.InState .pending "b"

theorem inState_of_any {p : TaskPlanProjection} {status : TaskLifecycle}
    (h : ((p.state? taskId).any fun t => decide (t.status = status)) = true) :
    p.InState status taskId := by
  rcases hstate : p.state? taskId with _ | t
  · rw [hstate] at h
    cases h
  · rw [hstate] at h
    exact ⟨t, hstate, of_decide_eq_true h⟩

/-- The chain is replanned. -/
theorem exists_replay : ∃ plan plan' before accepted after stage',
    Replay plan plan' before accepted after stage' := by
  have hrun : replan = .ok () := eq_ok_of_isOk (by decide +kernel)
  unfold replan at hrun
  obtain ⟨plan, hplan, hrun⟩ := bind_inv hrun
  obtain ⟨before, hbefore, hrun⟩ := bind_inv hrun
  obtain ⟨targets, htargets, hrun⟩ := bind_inv hrun
  obtain ⟨hnone, hrun⟩ := check_inv hrun
  rw [of_require hnone] at htargets
  obtain ⟨plan', happly, hrun⟩ := bind_inv hrun
  obtain ⟨stage', haccept, hrun⟩ := bind_inv hrun
  obtain ⟨accepted, haccepted, hrun⟩ := bind_inv hrun
  obtain ⟨after, hafter, hrun⟩ := bind_inv hrun
  obtain ⟨hdependencies, hrun⟩ := check_inv hrun
  obtain ⟨hc, hb⟩ := check_inv hrun
  refine ⟨plan, plan', before, accepted, after, stage', ?_, htargets, happly, haccept,
    orRaise_eq_ok.mp haccepted, hafter, of_require hdependencies,
    inState_of_any (of_require hc), inState_of_any (of_require hb)⟩
  constructor
  · intro p hp
    obtain rfl := mem_singleton.mp hp
    rfl
  · intro p hp
    cases hp
    unfold projected at hbefore
    obtain ⟨ledger, -, hconstruct⟩ := bind_inv hbefore
    exact nodup_of_construct hconstruct

/-- The task at the end of the chain stays blocked, although nothing that it depends on failed. -/
theorem not_replanSound_chain : ∃ plan plan' before accepted after stage',
    (stage plan before).Valid ∧ dependencyBlockedTaskIds contracts plan before = .ok [] ∧
      TaskPlanPatchValidator.apply sha256 contracts plan patch before policy resolve "later"
        ["brief"] = .ok plan' ∧
      (stage plan before).acceptPatchedPlan sha256 contracts patch plan' patch.skippedTaskIds =
        .ok stage' ∧ stage'.projection = some accepted ∧
      blockDependencies sha256 contracts plan' accepted = .ok after ∧
      ¬ ReplanSound sha256 contracts plan plan' before accepted after := by
  rcases exists_replay with ⟨plan, plan', before, accepted, after, stage', h⟩
  exact ⟨plan, plan', before, accepted, after, stage', h.valid, h.complete, h.applied, h.committed,
    h.projection, h.blocked, not_replanSound h.dependencies h.last h.middle⟩

/-- The patch of the chain is not safe. -/
theorem not_replanSafe_chain : ∃ plan plan' before,
    TaskPlanPatchValidator.apply sha256 contracts plan patch before policy resolve "later"
        ["brief"] = .ok plan' ∧ ¬ ReplanSafe sha256 contracts before patch plan' := by
  rcases exists_replay with ⟨plan, plan', before, accepted, after, stage', h⟩
  refine ⟨plan, plan', before, h.applied, fun hsafe => ?_⟩
  exact not_replanSound h.dependencies h.last h.middle
    ((replanSound_iff h.valid rfl rfl h.complete h.applied h.committed h.projection h.blocked).mpr hsafe)

/-- Both tasks behind `a` wait again, and are blocked one after the other. -/
def blockChain : Except HarnessValidationError Unit := do
  let plan ← planned
  let before ← projected
  let p ← TaskPlanProjection.construct sha256
    { before with tasks := before.tasks.map fun t =>
        if t.status = .blockedDependency then { t with status := .pending, failureReasonCode := none }
        else t }
  let p' ← ["b", "c"].foldlM (fun p taskId => blockDependencyTask contracts plan p sha256 taskId) p
  let targets ← dependencyBlockedTaskIds contracts plan p'
  require (targets = []) (keyError "complete")
  require ((p'.state? "c").any fun t => decide (t.status = .blockedDependency)) (keyError "c")

/-- `c` is blocked because it hangs on `a`. -/
theorem blocked_of_none_left_chain : ∃ plan p p',
    ["b", "c"].foldlM (fun p taskId => blockDependencyTask contracts plan p sha256 taskId) p = .ok p' ∧
      dependencyBlockedTaskIds contracts plan p' = .ok [] ∧ Later p p' ∧
      (p.InState .blockedDependency "c" ∨ Waits p "c" ∧ HangsOnCause contracts plan p "c") := by
  have hrun : blockChain = .ok () := eq_ok_of_isOk (by decide +kernel)
  unfold blockChain at hrun
  obtain ⟨plan, -, hrun⟩ := bind_inv hrun
  obtain ⟨before, -, hrun⟩ := bind_inv hrun
  obtain ⟨p, hconstruct, hrun⟩ := bind_inv hrun
  obtain ⟨p', hdone, hrun⟩ := bind_inv hrun
  obtain ⟨targets, htargets, hrun⟩ := bind_inv hrun
  obtain ⟨hnone, hc⟩ := check_inv hrun
  rw [of_require hnone] at htargets
  obtain ⟨hlater, hblocked⟩ := blocked_of_none_left (nodup_of_construct hconstruct) hdone htargets
  exact ⟨plan, p, p', hdone, htargets, hlater, (hblocked "c").mp (inState_of_any (of_require hc))⟩

end ReplanSample

end TaskPlan
