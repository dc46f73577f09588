/-
# Rounds of planning and execution

Whatever the rounds, no budget is exceeded: execution stops at what a plan allows for, and that
is never more than the policy does.  Plans are applied, and budgets are said to be used up only
when they are, exactly in the rounds whose plans can be executed.
-/
import AgoraHub.ContextExecutionRuns

namespace ContextCompaction

open Fallible ContextCompactionActionExecutor ContextCompactionPlanningRequest List
  ContextCompactionPlanner

variable {sha256 : String → HexDigest} {V : Type} [PyDynamic V]
variable {C : Type} [Zero C] [LT C]

/-! ## What the planner says -/

namespace ContextCompactionPlanningRequest

variable {request : ContextCompactionPlanningRequest sha256 C V}

variable {result : ContextCompactionPlanningResult C V}

theorem of_result {status : ContextCompactionPlanningStatus} {ids : List String}
    {reasonCode : String} {plan : Option (ContextCompactionPlan C V)}
    (h : ContextCompactionPlanner.result request status ids reasonCode plan = .ok result) :
    result.status = status ∧ result.reasonCode = reasonCode ∧ result.plan = plan := by
  unfold ContextCompactionPlanner.result at h
  obtain ⟨-, h⟩ := check_inv h
  rw [← ok_inj h]
  exact ⟨rfl, rfl, rfl⟩

variable [Sub C] [DecidableLT C] [DecidableEq C]

/-- What is planned from candidates exhausts no budget. -/
theorem of_planCandidates {candidates : List (ContextCompactionAction V)}
    (h : planCandidates .standard request candidates = .ok result) :
    result.status ≠ .actionBudgetExhausted ∧
      result.reasonCode ≠ "turn_budget_exhausted_before_planning" := by
  unfold planCandidates at h
  dsimp only at h
  split at h
  · rcases of_result h with ⟨hstatus, hreason, -⟩
    exact ⟨by simp [hstatus], by simp [hreason]⟩
  · split at h
    · rcases of_result h with ⟨hstatus, hreason, -⟩
      exact ⟨by simp [hstatus], by simp [hreason]⟩
    · obtain ⟨-, h⟩ := check_inv h
      obtain ⟨-, h⟩ := check_inv h
      rcases of_result h with ⟨hstatus, hreason, -⟩
      exact ⟨by simp [hstatus], by simp [hreason]⟩

/-- The planner refuses for a budget only when it is used up. -/
theorem refuses_of_plan (h : ContextCompactionPlanner.plan .standard request = .ok result) :
    (result.status = .actionBudgetExhausted →
      request.policy.maxActions ≤ request.budgetUsage.actions) ∧
    (result.reasonCode = "turn_budget_exhausted_before_planning" →
      request.policy.maxTurns ≤ request.budgetUsage.turns) := by
  unfold ContextCompactionPlanner.plan at h
  obtain ⟨-, h⟩ := check_inv h
  dsimp only at h
  split at h
  · rcases of_result h with ⟨hstatus, hreason, -⟩
    exact ⟨by simp [hstatus], by simp [hreason]⟩
  · split at h
    · rcases of_result h with ⟨hstatus, hreason, -⟩
      exact ⟨by simp [hstatus], by simp [hreason]⟩
    · split at h
      · rcases of_result h with ⟨hstatus, hreason, -⟩
        exact ⟨by simp [hstatus], by simp [hreason]⟩
      · split at h
        · rename_i hactions
          rcases of_result h with ⟨-, hreason, -⟩
          refine ⟨fun _ => ?_, by simp [hreason]⟩
          unfold remainingBudgets at hactions
          dsimp only at hactions
          omega
        · split at h
          · rename_i hturns
            rcases of_result h with ⟨hstatus, -, -⟩
            refine ⟨by simp [hstatus], fun _ => ?_⟩
            unfold remainingBudgets at hturns
            dsimp only at hturns
            omega
          · obtain ⟨candidates, -, h⟩ := bind_inv h
            rcases of_planCandidates h with ⟨hstatus, hreason⟩
            exact ⟨fun h => absurd h hstatus, fun h => absurd h hreason⟩

end ContextCompactionPlanningRequest

/-! ## Budgets -/

/-- What is used keeps to the limits of a plan, as far as it did before, and nothing is used for
summaries. -/
structure KeepsTo (plan : ContextCompactionPlan C V) (before after : ContextPlanningBudgetUsage C) :
    Prop where
  actions : after.actions ≤ max plan.maxActions before.actions
  turns : after.turns ≤ max plan.maxTurns before.turns
  summaryCalls : after.summaryCalls = before.summaryCalls
  llmCalls : after.llmCalls = before.llmCalls
  cost : after.costUsd = before.costUsd

variable {plan : ContextCompactionPlan C V}

/-- The run: execution stops at the limits of the plan. -/
theorem keepsTo_runActions {port : ArtifactPort} {sourceSnapshotId : String}
    {actions : List (ContextCompactionAction V)} :
    ∀ {s s' : Execution C V} {status : ContextCompactionExecutionStatus},
      runActions sha256 port sourceSnapshotId plan actions s = .ok (status, s') →
        KeepsTo plan s.usage s'.usage := by
  have hsame : ∀ s : Execution C V, KeepsTo plan s.usage s.usage := fun s =>
    ⟨le_max_right _ _, le_max_right _ _, rfl, rfl, rfl⟩
  induction actions with
  | nil =>
    intro s s' status h
    obtain ⟨-, rfl⟩ := Prod.mk.inj (ok_inj h)
    exact hsame s
  | cons action actions ih =>
    intro s s' status h
    unfold runActions at h
    split at h
    · obtain ⟨-, rfl⟩ := Prod.mk.inj (ok_inj h)
      exact hsame s
    · rename_i hactions
      split at h
      · obtain ⟨-, rfl⟩ := Prod.mk.inj (ok_inj h)
        exact hsame s
      · rename_i hturns
        split at h
        · obtain ⟨-, rfl⟩ := Prod.mk.inj (ok_inj h)
          exact hsame s
        · obtain ⟨applied, -, hrest⟩ := bind_inv h
          have hkeeps := ih hrest
          have hmore := hkeeps.actions
          have hlonger := hkeeps.turns
          unfold countAction at hmore hlonger
          dsimp only at hmore hlonger
          exact ⟨by omega, by omega, hkeeps.summaryCalls, hkeeps.llmCalls, hkeeps.cost⟩

section Within

variable {policy : ContextCompactionPolicy C} {a b c : ContextPlanningBudgetUsage C}

theorem Within.refl : Within policy a a :=
  ⟨le_max_right _ _, le_max_right _ _, le_max_right _ _, le_max_right _ _, id⟩

theorem Within.trans (h : Within policy a b) (h' : Within policy b c) : Within policy a c where
  actions := h'.actions.trans (max_le (le_max_left _ _) h.actions)
  turns := h'.turns.trans (max_le (le_max_left _ _) h.turns)
  summaryCalls := h'.summaryCalls.trans (max_le (le_max_left _ _) h.summaryCalls)
  llmCalls := h'.llmCalls.trans (max_le (le_max_left _ _) h.llmCalls)
  cost := fun hcost => h.cost (h'.cost hcost)

end Within

variable [Sub C] [DecidableLT C] [DecidableEq C]

/-- An accepted plan allows for what is left of the budgets. -/
theorem budgets_of_validate {request : ContextCompactionPlanningRequest sha256 C V}
    (h : ContextCompactionPlanValidator.validate .standard plan request = .ok ()) :
    plan.maxActions = request.remaining.actions ∧ plan.maxTurns = request.remaining.turns := by
  unfold ContextCompactionPlanValidator.validate at h
  obtain ⟨-, h⟩ := check_inv h
  obtain ⟨hheader, -⟩ := check_inv h
  unfold ContextCompactionPlanValidator.validateHeader at hheader
  simp only [check_bind_eq_ok, require_eq_ok] at hheader
  rcases hheader with ⟨-, -, -, -, -, -, -, hactions, -, -, -, -, hturns, -⟩
  exact ⟨hactions, hturns⟩

namespace Round

variable (round : Round sha256 C V)

/-- No budget is exceeded by execution. -/
theorem within_execution {result : ContextCompactionExecutionResult sha256 C V}
    (h : round.execution plan = .ok result) :
    Within round.request.policy round.request.budgetUsage result.usage := by
  unfold execution execute at h
  obtain ⟨hvalidates, h⟩ := check_inv h
  rcases budgets_of_validate hvalidates with ⟨hactions, hturns⟩
  obtain ⟨⟨status, s⟩, hrun, h⟩ := bind_inv h
  have husage : result.usage = s.usage := by
    cases status with
    | applied =>
      obtain ⟨snapshot, -, h⟩ := bind_inv h
      exact (of_executionResult _ h).2
    | actionBudgetExhausted | summaryRejected | turnBudgetExhausted => exact (of_executionResult _ h).2
  have hkeeps := keepsTo_runActions hrun
  rw [← husage] at hkeeps
  have hmore := hkeeps.actions
  have hlonger := hkeeps.turns
  rw [hactions] at hmore
  rw [hturns] at hlonger
  unfold remaining remainingBudgets at hmore hlonger
  dsimp only at hmore hlonger
  refine ⟨by omega, by omega, ?_, ?_, ?_⟩
  · rw [hkeeps.summaryCalls]
    exact le_max_right _ _
  · rw [hkeeps.llmCalls]
    exact le_max_right _ _
  · rw [hkeeps.cost]
    exact id

/-- No budget is exceeded by a round. -/
theorem within_usageAfter :
    Within round.request.policy round.request.budgetUsage round.usageAfter := by
  unfold usageAfter
  split
  · exact Within.refl
  · split
    · exact Within.refl
    · split
      · exact Within.refl
      · rename_i h
        exact round.within_execution h

variable [LawfulPyDynamic V] [Std.Asymm (α := C) (· < ·)]

/-- The planner makes the plan of the actions there is room for, when the request gets one. -/
theorem makes_iff : round.Makes plan ↔ round.request.GetsPlan ∧
      plan = planOf round.request round.request.plannedActions := by
  constructor
  · rintro ⟨result, hresult, hstatus, hplan⟩
    have hregistered := (check_inv hresult).1
    by_cases hevaluates : round.request.Evaluates
    · have hrun := hresult
      unfold planning at hrun
      rw [round.request.plan_of_evaluates hregistered hevaluates] at hrun
      obtain ⟨candidates, hcandidates, hrun⟩ := bind_inv hrun
      rcases round.request.candidateActions_eq_ok.mp hcandidates with ⟨hread, rfl⟩
      have hcand : planCandidates .standard round.request
          round.request.allActions = .ok result := hrun
      by_cases hfits : round.request.Fits
      · by_cases hnone : round.request.allActions = []
        · rw [round.request.planCandidates_of_nil hfits hnone] at hcand
          rw [(of_result hcand).1] at hstatus
          cases hstatus
        · have hclean := round.request.clean_of_planCandidates hregistered hread hcand hfits
          rw [round.request.planCandidates_of_fits hfits hnone] at hcand
          iterate 2 rcases check_inv hcand with ⟨-, hcand⟩
          rw [(of_result hcand).2.2] at hplan
          exact ⟨⟨hregistered, hevaluates, hread, hfits, hclean, hnone⟩,
            (Option.some.inj hplan).symm⟩
      · rw [round.request.planCandidates_of_not_fits hfits] at hcand
        rw [(of_result hcand).1] at hstatus
        cases hstatus
    · rcases round.request.plan_of_not_evaluates hregistered hevaluates with
        ⟨other, hother, hnot⟩
      obtain rfl := ok_inj (hother.symm.trans hresult)
      exact absurd hstatus hnot
  · rintro ⟨h, rfl⟩
    rcases round.request.result_eq .planReady "deterministic_plan_ready"
      (some (planOf round.request round.request.plannedActions))
        (by simp) with ⟨result, hresult, hstatus, hplan⟩
    refine ⟨result, ?_, hstatus, hplan⟩
    unfold planning
    rw [round.request.plan_of_evaluates h.registered h.evaluates,
      round.request.candidateActions_eq_ok.mpr ⟨h.readable, rfl⟩, ok_bind]
    refine (round.request.planCandidates_of_fits h.fits h.nonempty).trans ?_
    rw [round.request.check_planOf h.evaluates, ok_bind,
      (round.request.validate_planOf h.registered h.readable).mpr h.clean, ok_bind, hresult]

/-- A plan without a summary is applied exactly when it can be executed. -/
theorem applies_iff : round.Applies ↔ round.Executable := by
  constructor
  · intro happlies h hsummary
    exact (execute_eq_applied round.valid h hsummary).mp
      (happlies _ (round.makes_iff.mpr ⟨h, rfl⟩) hsummary)
  · intro hexecutable plan hmakes hsummary
    rcases round.makes_iff.mp hmakes with ⟨h, rfl⟩
    exact (execute_eq_applied round.valid h hsummary).mpr
      (hexecutable h hsummary)

omit [LawfulPyDynamic V] [Std.Asymm (α := C) (· < ·)] in
/-- A round whose plans are applied refuses only what is used up. -/
theorem refusesRightly_of_applies (h : round.Applies) : round.RefusesRightly where
  actions := fun _ hresult =>
    (refuses_of_plan hresult).1
  turns := fun _ hresult =>
    (refuses_of_plan hresult).2
  execution := by
    intro plan hmakes hsummary result hresult
    rcases h plan hmakes hsummary with ⟨other, hother, hstatus⟩
    obtain rfl := ok_inj (hother.symm.trans hresult)
    rw [hstatus]
    exact ⟨fun h => absurd h (by decide), fun h => absurd h (by decide)⟩

end Round

/-! ## Rounds after one another -/

/-- No budget is exceeded by rounds. -/
theorem Rounds.within {policy : ContextCompactionPolicy C} {start : ContextPlanningBudgetUsage C}
    {rounds : List (Round sha256 C V)} (h : Rounds policy start rounds) :
    ∀ round ∈ rounds, Within policy start round.usageAfter := by
  induction h with
  | nil usage => exact fun _ h => absurd h not_mem_nil
  | @cons round rounds hpolicy _ ih =>
    have hround := round.within_usageAfter
    rw [hpolicy] at hround
    rintro other (_ | ⟨_, hother⟩)
    · exact hround
    · exact hround.trans (ih other hother)

/-- Rounds do what is asked of them exactly when in each of them the plan, if there is one without
a summary, can be executed. -/
theorem runsWell_iff [LawfulPyDynamic V] [Std.Asymm (α := C) (· < ·)]
    {policy : ContextCompactionPolicy C} {start : ContextPlanningBudgetUsage C}
    {rounds : List (Round sha256 C V)} (h : Rounds policy start rounds) :
    RunsWell policy start rounds ↔ ∀ round ∈ rounds, round.Executable := by
  constructor
  · exact fun hwell round hround => round.applies_iff.mp (hwell.applies round hround)
  · intro hall
    have happlies : ∀ round ∈ rounds, round.Applies := fun round hround =>
      round.applies_iff.mpr (hall round hround)
    exact ⟨happlies, fun round hround => round.refusesRightly_of_applies (happlies round hround),
      h.within⟩

/-! ## Two rounds -/

section Notes

open ContextCompactionPlanningRequest

local instance noteMetadata : PyDynamic PyValue := plainMetadata

local instance lawful_noteMetadata : LawfulPyDynamic PyValue := lawful_plainMetadata

/-- A note that can be reconstructed from its page. -/
def noteGroup : ContextGroup PyValue where
  groupKind := .memoryReference
  members := [message (.ofLiteral "note" (.refl true))]
  sourceRefs := [.ofLiteral "page://1" (.refl true)]
  protectionReasons := []
  reconstructionPolicy := .durableRef
  reconstructionRef := some (.ofLiteral "page://1" (.refl true))
  toolTransactionState := .notApplicable
  queryBindingRef := none
  requiredCitationRefs := []
  semanticMetadata := []
  schemaRevision := groupSchemaRevision
  valid := rfl

/-- A round in which the note may be replaced by a reference, after some actions. -/
def noteRound (used : ℕ) : Round sha256Hex ℚ PyValue where
  request := pageRequest .replaceWithReference used noteGroup
  port := ⟨fun _ _ => ⟨"artifact://1", "sha256:1"⟩⟩
  valid := fun _ _ => (by decide : ArtifactRef.Valid ⟨"artifact://1", "sha256:1"⟩)

theorem classOf_noteRound (used : ℕ) :
    (noteRound used).request.classOf .replaceWithReference = [noteGroup] := rfl

/-- The plan of the first round is executed. -/
theorem executable_noteRound : (noteRound 0).Executable := by
  intro _ _
  have howner : (noteRound 0).request.owner noteGroup = some .replaceWithReference := rfl
  rcases exists_referenceGroup sha256Hex noteGroup (strip_text_ne_empty
    ((noteRound 0).request.artifactOf (noteRound 0).port noteGroup)) with ⟨reference, hreference⟩
  have htarget : isTarget sha256Hex (noteRound 0).request.plannedActions noteGroup = true := by
    have hplanned : (noteRound 0).request.plannedActions =
        [(noteRound 0).request.classAction .replaceWithReference] := rfl
    rw [hplanned]
    unfold isTarget classAction
    rw [classOf_noteRound]
    simp
  have hafter : (noteRound 0).request.after (noteRound 0).port
      (noteRound 0).request.plannedActions noteGroup = some reference :=
    (if_pos htarget).trans (fate_of_replaced howner hreference)
  refine ⟨by decide, by decide, ?_, ?_, ?_, ?_⟩
  · intro action _ group hgroup
    exact absurd hgroup (by
      rw [show (noteRound 0).request.classOf .selectEvidenceSpans = [] from
        classOf_pageRequest 0 noteGroup (by decide)]
      exact not_mem_nil)
  · intro _
    rw [classOf_noteRound]
    exact nodup_singleton _
  · intro done _
    unfold groupsAfter
    rw [show (noteRound 0).request.sourceSnapshot.groups = [noteGroup] from rfl,
      filterMap_cons]
    cases (noteRound 0).request.after (noteRound 0).port done noteGroup with
    | none => exact nodup_nil
    | some group => exact nodup_singleton _
  · unfold groupsAfter
    rw [show (noteRound 0).request.sourceSnapshot.groups = [noteGroup] from rfl,
      filterMap_cons, hafter]
    exact cons_ne_nil _ _

/-- One round that starts from nothing does what is asked of it. -/
theorem runsWell_noteRound : RunsWell (noteRound 0).request.policy
    (noteRound 0).request.budgetUsage [noteRound 0] :=
  (runsWell_iff (Rounds.cons rfl (Rounds.nil _))).mpr fun round h => by
    rw [mem_singleton.mp h]
    exact executable_noteRound

/-- After three of four actions one more is planned, but it is not executed. -/
theorem not_runsWell_noteRound : ¬ RunsWell (noteRound 3).request.policy
    (noteRound 3).request.budgetUsage [noteRound 3] := by
  intro h
  have hexecutable := (noteRound 3).applies_iff.mp (h.applies _ (mem_singleton_self _))
  have hplanned : (noteRound 3).request.plannedActions =
      [(noteRound 3).request.classAction .replaceWithReference] := rfl
  have hempty := fun t ht => @classOf_pageRequest .replaceWithReference t 3 noteGroup ht
  have hgets : (noteRound 3).request.GetsPlan := by
    refine ⟨rfl, ⟨by decide, by decide, Or.inr rfl, by decide, by decide⟩, ⟨?_, ?_, ?_, ?_⟩,
      Nat.zero_le _, ⟨?_, ?_, ?_, ?_⟩, cons_ne_nil _ _⟩
    · exact fun h => absurd h (by decide)
    · rw [show (noteRound 3).request.classOf .reduceAuthorizedToolSet = [] from
        hempty _ (by decide)]
      exact fun _ h => absurd h not_mem_nil
    · exact fun h => absurd h (by decide)
    · rw [show (noteRound 3).request.classOf .selectEvidenceSpans = [] from hempty _ (by decide)]
      exact fun _ h => absurd h not_mem_nil
    · rw [show (noteRound 3).request.classOf .dropReconstructableGroup = [] from
        hempty _ (by decide)]
      exact fun _ => nodup_nil
    · rw [classOf_noteRound]
      exact fun _ => nodup_singleton _
    · rw [show (noteRound 3).request.classOf .reduceAuthorizedToolSet = [] from
        hempty _ (by decide)]
      exact fun _ => ⟨⟨nofun, nodup_nil⟩,
        nofun, nodup_nil⟩
    · rw [show (noteRound 3).request.classOf .selectEvidenceSpans = [] from hempty _ (by decide)]
      exact fun _ h => absurd (mem_of_mem_take h) not_mem_nil
  have hcan := hexecutable hgets (by
    rw [hplanned]
    rintro action (_ | ⟨_, h⟩)
    · decide
    · cases h)
  exact absurd hcan.actions (by decide)

end Notes

end ContextCompaction
