/-
# What execution is for

A round is a plan for a request and its execution.  What is asked of rounds that follow one
another: plans are applied, budgets are kept, and they are said to be used up only when they
are.  Which rounds do what is asked is told from the request and the refs that the port
returns.
-/
import AgoraHub.ContextExecutor
import AgoraHub.ContextPlanRuns

namespace ContextCompaction

variable {sha256 : String → HexDigest} {V : Type} [PyDynamic V]
variable {C : Type} [Zero C] [LT C] [Sub C] [DecidableLT C]

/-! ## Groups that are rebuilt -/

namespace ContextGroup

variable (group : ContextGroup V)

/-- What the group becomes when its spans are selected. -/
def selectedGroupFields (sha256 : String → HexDigest) : ContextGroupFields V :=
  selectedFields sha256 group (group.items "selected_span_refs") (group.items "covered_group_ids")

/-- The group can be rebuilt from the spans that are selected: they come first, the others are
not named twice, and the groups that it covers can be listed. -/
structure Rebuilds (sha256 : String → HexDigest) : Prop where
  covered : group.Iterable "covered_group_ids"
  hashable : ∀ v ∈ group.items "covered_group_ids", PyDynamic.hashable v = true
  first : (group.selectedGroupFields sha256).members.map ContextGroupMember.ordinal =
    List.range (group.selectedGroupFields sha256).members.length
  omitted : (omittedSpans group (group.items "selected_span_refs")).Nodup
  writable : Writable (group.selectedGroupFields sha256).semanticMetadata

end ContextGroup

namespace ContextCompactionPlanningRequest

variable (request : ContextCompactionPlanningRequest sha256 C V) (port : ArtifactPort)

/-- The ref that the port returns for a group that is replaced. -/
def artifactOf (group : ContextGroup V) : ArtifactRef :=
  port.writeArtifact (((request.classOf .replaceWithReference).map
    (ContextGroup.groupId sha256)).idxOf (group.groupId sha256))
      (ContextCompactionActionExecutor.writeRequest sha256 group)

/-- What becomes of a group that an action targets. -/
def fate (group : ContextGroup V) : Option (ContextGroup V) :=
  match request.owner group with
  | some .replaceWithReference =>
    (referenceGroup sha256 group (request.artifactOf port group).text).toOption
  | some .selectEvidenceSpans =>
    (ContextGroup.construct (group.selectedGroupFields sha256)).toOption
  | _ => none

/-- Whether one of some actions targets a group. -/
def isTarget (sha256 : String → HexDigest) (actions : List (ContextCompactionAction V))
    (group : ContextGroup V) : Bool :=
  actions.any fun action => action.targetGroupIds.contains (group.groupId sha256)

/-- What a group is after some actions. -/
def after (actions : List (ContextCompactionAction V)) (group : ContextGroup V) :
    Option (ContextGroup V) :=
  if isTarget sha256 actions group then request.fate port group else some group

/-- The groups after some actions. -/
def groupsAfter (actions : List (ContextCompactionAction V)) : List (ContextGroup V) :=
  request.sourceSnapshot.groups.filterMap (request.after port actions)

/-- The request gets a plan. -/
structure GetsPlan : Prop where
  registered : ContextCompactionActionRegistry.standard.validatePolicy request.policy = .ok ()
  evaluates : request.Evaluates
  readable : request.Readable
  fits : request.Fits
  clean : request.Clean
  nonempty : request.allActions ≠ []

/-- The plan that a request gets can be executed. -/
structure CanExecute : Prop where
  /-- what was used before and what the plan uses fit together what is left -/
  actions : request.budgetUsage.actions + request.plannedActions.length ≤ request.remaining.actions
  turns : request.budgetUsage.turns + request.plannedActions.length ≤ request.remaining.turns
  /-- the evidence whose spans are selected can be rebuilt from them -/
  spans : ∀ action ∈ request.plannedActions, ∀ group ∈ request.classOf .selectEvidenceSpans,
    action = request.selectionOf group → group.Rebuilds sha256
  /-- the refs that are written are distinct -/
  refs : (∃ action ∈ request.plannedActions, action.actionType = .replaceWithReference) →
    ((request.classOf .replaceWithReference).map fun group =>
      PyText.strip (request.artifactOf port group).text).Nodup
  /-- no group that was made has the identity of another that is still there -/
  distinct : ∀ done, done <+: request.plannedActions →
    ((request.groupsAfter port done).map (ContextGroup.groupId sha256)).Nodup
  remains : request.groupsAfter port request.plannedActions ≠ []

end ContextCompactionPlanningRequest

/-! ## Rounds -/

variable [DecidableEq C]

/-- A request, and the artifact port for the execution of its plan. -/
structure Round (sha256 : String → HexDigest) (C V : Type) [Zero C] [LT C] [PyDynamic V] where
  request : ContextCompactionPlanningRequest sha256 C V
  port : ArtifactPort
  valid : port.Valid

/-- A plan summarizes nothing. -/
def ContextCompactionPlan.NoSummary (plan : ContextCompactionPlan C V) : Prop :=
  ∀ action ∈ plan.actions, action.actionType ≠ .summarizeGroups

namespace Round

variable (round : Round sha256 C V)

/-- What the planner says. -/
def planning : Except CompactionError (ContextCompactionPlanningResult C V) :=
  ContextCompactionPlanner.plan .standard round.request

/-- The planner makes a plan. -/
def Makes (plan : ContextCompactionPlan C V) : Prop :=
  ∃ result, round.planning = .ok result ∧ result.status = .planReady ∧ result.plan = some plan

/-- What the executor says of a plan. -/
def execution (plan : ContextCompactionPlan C V) :
    Except CompactionError (ContextCompactionExecutionResult sha256 C V) :=
  ContextCompactionActionExecutor.execute .standard round.port plan round.request

/-- What is used of the budgets after the round. -/
def usageAfter : ContextPlanningBudgetUsage C :=
  match round.planning with
  | .error _ => round.request.budgetUsage
  | .ok result =>
    match result.plan with
    | none => round.request.budgetUsage
    | some plan =>
      match round.execution plan with
      | .error _ => round.request.budgetUsage
      | .ok executed => executed.usage

/-- A plan without a summary is applied. -/
def Applies : Prop :=
  ∀ plan, round.Makes plan → plan.NoSummary →
    ∃ result, round.execution plan = .ok result ∧ result.status = .applied

/-- A budget is said to be exhausted only when it is used up. -/
structure RefusesRightly : Prop where
  actions : ∀ result, round.planning = .ok result → result.status = .actionBudgetExhausted →
    round.request.policy.maxActions ≤ round.request.budgetUsage.actions
  turns : ∀ result, round.planning = .ok result →
    result.reasonCode = "turn_budget_exhausted_before_planning" →
      round.request.policy.maxTurns ≤ round.request.budgetUsage.turns
  execution : ∀ plan, round.Makes plan → plan.NoSummary →
    ∀ result, round.execution plan = .ok result →
      (result.status = .actionBudgetExhausted →
        round.request.policy.maxActions ≤ result.usage.actions) ∧
      (result.status = .turnBudgetExhausted → round.request.policy.maxTurns ≤ result.usage.turns)

/-- If the request gets a plan without a summary, the plan can be executed. -/
def Executable : Prop :=
  round.request.GetsPlan →
    (∀ action ∈ round.request.plannedActions, action.actionType ≠ .summarizeGroups) →
      round.request.CanExecute round.port

end Round

/-! ## Runs -/

/-- The usage keeps to the limits of a policy, as far as what was used before did. -/
structure Within (policy : ContextCompactionPolicy C) (start usage : ContextPlanningBudgetUsage C) :
    Prop where
  actions : usage.actions ≤ max policy.maxActions start.actions
  turns : usage.turns ≤ max policy.maxTurns start.turns
  summaryCalls : usage.summaryCalls ≤ max policy.maxSummaryCalls start.summaryCalls
  llmCalls : usage.llmCalls ≤ max policy.maxLlmCalls start.llmCalls
  cost : policy.maxCostUsd < usage.costUsd → policy.maxCostUsd < start.costUsd

/-- Rounds under a policy, each of which starts from what is used after the one before. -/
inductive Rounds (policy : ContextCompactionPolicy C) :
    ContextPlanningBudgetUsage C → List (Round sha256 C V) → Prop
  | nil (usage : ContextPlanningBudgetUsage C) : Rounds policy usage []
  | cons {round : Round sha256 C V} {rounds : List (Round sha256 C V)}
      (samePolicy : round.request.policy = policy) (later : Rounds policy round.usageAfter rounds) :
      Rounds policy round.request.budgetUsage (round :: rounds)

/-- What is asked of rounds. -/
structure RunsWell (policy : ContextCompactionPolicy C) (start : ContextPlanningBudgetUsage C)
    (rounds : List (Round sha256 C V)) : Prop where
  applies : ∀ round ∈ rounds, round.Applies
  refuses : ∀ round ∈ rounds, round.RefusesRightly
  within : ∀ round ∈ rounds, Within policy start round.usageAfter

end ContextCompaction
