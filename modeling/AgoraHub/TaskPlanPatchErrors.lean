/-
# The errors of a patch

A patch that is not applied is refused with a validation error, except where an operation looks
up the state of a task that is not projected: one that an operation before it has added.
-/
import AgoraHub.Ensures
import AgoraHub.TaskPlanReplanRuns

namespace TaskPlan

open Fallible List PyDict TaskPlanPatchValidator PyText PlanPatchOperation

/-- Every error that is raised has a code, which `KeyError` has not. -/
abbrev Coded {α : Type} (x : Except HarnessValidationError α) : Prop :=
  Raises (fun e => e.code ≠ "") x

/-! ## Checks -/

variable {v field : String}

@[simp] theorem coded_requiredText {n : ℕ} : Coded (requiredText v field n) := by
  simp [requiredText, contractError]

@[simp] theorem coded_identifier : Coded (identifier v field) := by
  simp [identifier, contractError]

@[simp] theorem coded_exactReference : Coded (exactReference v field) := by
  simp [exactReference, contractError]

@[simp] theorem coded_checksum : Coded (checksum v field) := by simp [checksum, contractError]

@[simp] theorem coded_reference : Coded (reference v field) := by simp [reference, contractError]

@[simp] theorem coded_stableTextTuple {check} (h : ∀ v field, Coded (check v field)) {values}
    {allowEmpty} : Coded (stableTextTuple check values field allowEmpty) := by
  simp [stableTextTuple, contractError, h]

@[simp] theorem coded_taskReferenceProducer {known} : Coded (taskReferenceProducer v known) := by
  unfold taskReferenceProducer
  split <;> simp [contractError]

@[simp] theorem coded_checkOptional {check} (h : ∀ v, Coded (check v)) {o : Option String} :
    Coded (TaskProjection.checkOptional check o) := by
  cases o <;> simp [TaskProjection.checkOptional, h]

@[simp] theorem coded_withTaskGraph {r dependsOn inputRefs} :
    Coded (withTaskGraph r dependsOn inputRefs) := by
  simp [withTaskGraph, TaskSpec.construct, ResolvedTaskSpec.construct]

@[simp] theorem coded_rewireTaskReference {replacements} :
    Coded (rewireTaskReference v replacements) := by
  unfold rewireTaskReference
  simp only [raises_bind, coded_taskReferenceProducer, true_and]
  intro producer _
  split
  · simp
  · split <;> simp

@[simp] theorem coded_rewire {replacements r} : Coded (rewire replacements r) := by
  unfold rewire
  simp only [raises_bind]
  refine ⟨by simp, fun inputRefs _ => ?_⟩
  split <;> simp

@[simp] theorem coded_visit {dependencies : Dependencies} {turns : ℕ} :
    ∀ {visiting memo taskId}, Coded (dependencies.visit turns visiting memo taskId) := by
  induction turns with
  | zero => simp [Dependencies.visit, Dependencies.cycle]
  | succ turns ih =>
    intro visiting memo taskId
    unfold Dependencies.visit
    split
    · simp
    · split <;> simp [Dependencies.cycle, ih]

@[simp] theorem coded_taskDependencyDepths {dependencies : Dependencies} {limit : ℕ} :
    Coded (dependencies.taskDependencyDepths (some limit)) := by
  simp [Dependencies.taskDependencyDepths, Dependencies.checkKnown, Dependencies.checkReachable,
    Dependencies.checkDepths]

@[simp] theorem coded_rewireDefinitions {policy replacements definitions} :
    Coded (rewireDefinitions policy replacements definitions) := by
  unfold rewireDefinitions
  split <;> simp

@[simp] theorem coded_resolveTask {binding : ResolvedCapabilityBinding} {task policy} :
    Coded (binding.resolveTask task policy) := by
  simp [ResolvedCapabilityBinding.resolveTask, requireAllowed, ResolvedTaskSpec.construct]

@[simp] theorem coded_checkDefinition {policy available known q} :
    Coded (checkDefinition policy available known q) := by
  simp only [checkDefinition, raises_bind]
  refine ⟨by simp, fun _ _ => ⟨by simp, fun _ _ => raises_forM fun inputRef _ => ?_⟩⟩
  simp only [raises_bind, coded_taskReferenceProducer, true_and]
  intro producer _
  split <;> simp

/-! ## Lookups of the operations -/

/-- The tasks among which an operation looks for its target. -/
def PlanPatchOperation.searched (planned added : List String) : PlanPatchOperation → List String
  | addReplacementTask _ _ => planned
  | _ => planned ++ added

section

variable {definitions : PyDict String ResolvedTaskSpec} {states : PyDict String TaskProjection}
  {resolve : String → Except HarnessValidationError ResolvedCapabilityBinding}
  {policy : TaskPlanPolicy} {done : List PlanPatchOperation} {s : PatchState}

theorem coded_requirePatchable {target message : String} :
    Coded (requirePatchable states target message) ↔ target ∈ states.keys := by
  simp [requirePatchable, keyError, get?_eq_none_iff]

theorem coded_applyOperation_iff (hresolve : ∀ capability, Coded (resolve capability))
    (h : Patched definitions states policy done s) {operation : PlanPatchOperation} :
    Coded (applyOperation definitions states resolve policy s operation) ↔
      (operation.targetTaskId ∉ done.map targetTaskId →
        operation.targetTaskId ∈ operation.searched definitions.keys (addedTaskIds done) →
          operation.targetTaskId ∈ states.keys) := by
  have hfound : ∀ target, target ∈ definitions.keys ++ addedTaskIds done ↔
      ∃ r, s.nextDefinitions.get? target = some r := fun target => by
    rw [← h.keys, mem_keys_iff]
  cases operation <;>
    simp [applyOperation, h.targeted, require_eq_ok, orRaise_eq_ok, coded_requirePatchable, searched,
      targetTaskId.eq_1, targetTaskId.eq_2, targetTaskId.eq_3, hfound, hresolve, withDependencies,
      -mem_append, -mem_map]

theorem coded_checkReplacement {next : PyDict String ResolvedTaskSpec} {q : String × String}
    (h : q.1 ∈ definitions.keys) (hnext : q.2 ∈ next.keys) :
    Coded (checkReplacement definitions next q) := by
  simp [checkReplacement, get?_eq_none_iff, h, hnext]

end

/-! ## Budgets -/

section

/-- Every field of `b` is one of `a`. -/
def Amounts.Covers (a b : Amounts) : Prop := ∀ d, (b.get d).isSome = true → (a.get d).isSome = true

instance (a b : Amounts) : Decidable (a.Covers b) := inferInstanceAs (Decidable (∀ _, _))

/-- Amounts are added to amounts of the same fields. -/
theorem ensures_addBudget {limit totals : Amounts} {budget : TaskBudget} (ht : totals.SameFields limit)
    (hb : limit.Covers budget.amounts) :
    Ensures (·.SameFields limit) (·.code ≠ "") (addBudget totals budget) := by
  unfold addBudget
  refine (raises_forM fun d _ => ?_).ensures.bind fun _ _ => ?_
  · rw [raises_require]
    exact fun h => absurd (fun hd => (ht d).trans (hb d hd)) h
  · exact ensures_ok fun d => by simpa using ht d

variable {sha256 : String → HexDigest} {policy : TaskPlanPolicy} {plan : ValidatedTaskPlan}
  {projection : TaskPlanProjection}

/-- The budgets of a plan have no field that the policy lacks, and the ledger has every field of the
policy. -/
structure BudgetsCovered (sha256 : String → HexDigest) (plan : ValidatedTaskPlan)
    (projection : TaskPlanProjection) (policy : TaskPlanPolicy) : Prop where
  perTask : policy.aggregateTaskBudget.amounts.Covers policy.perTaskBudget.amounts
  planned : ∀ r ∈ plan.tasks, policy.aggregateTaskBudget.amounts.Covers r.normalizedBudget.amounts
  ledger : projection.consumedBudget = none ∨ ∃ l : TaskPlanBudgetLedger sha256,
    TaskPlanScheduler.consumedLedger projection = .ok l ∧
      l.fields.parentAllocation.Covers policy.aggregateTaskBudget.amounts

variable (hbudgets : BudgetsCovered sha256 plan projection policy)
include hbudgets

theorem coded_checkBudgets {totals : Amounts}
    (ht : totals.SameFields policy.aggregateTaskBudget.amounts) :
    Coded (checkBudgets sha256 policy plan projection totals) := by
  have hprevious := ensures_foldlM (I := (Amounts.SameFields · policy.aggregateTaskBudget.amounts))
    (E := fun e : HarnessValidationError => e.code ≠ "") (Amounts.sameFields_zeros _)
    fun r hr s hs => ensures_addBudget hs (hbudgets.planned r hr)
  simp only [checkBudgets, raises_bind]
  refine ⟨by simp, fun _ _ => ⟨hprevious.error, fun previous _ => ?_⟩⟩
  obtain hnone | ⟨l, hl, hcovers⟩ := hbudgets.ledger
  · simp [TaskPlanScheduler.consumedLedger, hnone, invalidSnapshot]
  · rw [hl]
    refine ⟨raises_ok _, fun _ h => ?_⟩
    cases h
    refine ⟨raises_forM fun d _ => ?_, fun _ _ => by simp⟩
    rw [raises_require]
    refine fun h => absurd (fun hd => ?_) h
    simpa [LedgerFields.allocatedTotals] using hcovers d ((ht d).symm.trans hd)

theorem Patched.covers {done : List PlanPatchOperation} {s : PatchState}
    (hs : Patched (definitionsOf plan) (statesOf projection) policy done s)
    {q : String × ResolvedTaskSpec} (hq : q ∈ s.nextDefinitions) :
    policy.aggregateTaskBudget.amounts.Covers q.2.normalizedBudget.amounts := by
  obtain hwithin | ⟨p, hp, heq⟩ := hs.budgets q hq
  · intro d hd
    have hsame := filter_eq_nil_iff.mp hwithin d (BudgetField.mem_all d)
    simp at hsame
    exact hbudgets.perTask d (hsame.1 ▸ hd)
  · have hplanned : ∀ p ∈ definitionsOf plan, p.2 ∈ plan.tasks :=
      foldlRecOn (motive := fun d : PyDict String ResolvedTaskSpec => ∀ p ∈ d, p.2 ∈ plan.tasks)
        plan.tasks _ (fun _ hp => absurd hp not_mem_nil) fun d hd r hr p hp => by
        rcases PyDict.mem_set hp with rfl | hp
        · exact hr
        · exact hd p hp
    exact heq ▸ hbudgets.planned _ (hplanned p hp)

/-! ## The validator -/

/-- Every operation that is reached, and that finds its target among the tasks, finds its state. -/
def StatesProjected (plan : ValidatedTaskPlan) (patch : PlanPatch) (projection : TaskPlanProjection)
    (policy : TaskPlanPolicy)
    (resolve : String → Except HarnessValidationError ResolvedCapabilityBinding) : Prop :=
  ∀ done operation todo, patch.operations = done ++ operation :: todo →
    (∃ s, applyOperations plan { patch with operations := done } projection policy resolve = .ok s) →
      operation.targetTaskId ∉ done.map targetTaskId →
        operation.targetTaskId ∈ operation.searched (definitionsOf plan).keys (addedTaskIds done) →
          operation.targetTaskId ∈ (statesOf projection).keys

variable {contracts : PlanContracts} {patch : PlanPatch}
  {resolve : String → Except HarnessValidationError ResolvedCapabilityBinding}
  {acceptedAt : String} {availableInputRefs : List String}

end

namespace ReplanSample

/-- The patch that adds `a2` and skips it. -/
def skippingPatch : PlanPatch :=
  { patch with operations := [.addReplacementTask "a" (task "a2" [] "first"), .skipPendingTask "a2"] }

/-- The plan and its projection have budgets in the fields of the policy, and the patch is refused with
an error without a code. -/
theorem exists_covered : ∃ plan before, planned = .ok plan ∧ projected = .ok before ∧
    BudgetsCovered sha256 plan before policy ∧ before.MatchesPlanIdentity contracts plan ∧
      ∃ e, TaskPlanPatchValidator.apply sha256 contracts plan skippingPatch before policy resolve
        "later" ["brief"] = .error e ∧ e.code = "" := by
  have h : planned.toOption.any (fun plan => projected.toOption.any fun before =>
      (TaskPlanScheduler.consumedLedger before :
          Except _ (TaskPlanBudgetLedger sha256)).toOption.any fun l =>
        decide (((∀ r ∈ plan.tasks,
            policy.aggregateTaskBudget.amounts.Covers r.normalizedBudget.amounts) ∧
          l.fields.parentAllocation.Covers policy.aggregateTaskBudget.amounts ∧
            before.MatchesPlanIdentity contracts plan) ∧
          ((TaskPlanPatchValidator.apply sha256 contracts plan skippingPatch before policy resolve
            "later" ["brief"]).mapError (·.code)).map (fun _ => ()) = .error "")) = true := by
    decide +kernel
  simp only [Option.any_eq_true, decide_eq_true_eq, toOption_eq_some] at h
  obtain ⟨plan, hplan, before, hbefore, l, hl, ⟨hplanned, hledger, hmatches⟩, hraised⟩ := h
  refine ⟨plan, before, hplan, hbefore, ⟨by decide, hplanned, Or.inr ⟨l, hl, hledger⟩⟩, hmatches, ?_⟩
  cases happly : TaskPlanPatchValidator.apply sha256 contracts plan skippingPatch before policy
      resolve "later" ["brief"] with
  | ok plan' => simp [happly, Except.mapError, Except.map] at hraised
  | error e => exact ⟨e, rfl, by simpa [happly, Except.mapError, Except.map] using hraised⟩

end ReplanSample

end TaskPlan
