/-
# Task budgets and their usage

A budget allocation names four task dimensions and, for extended execution, a
token limit, a time limit and possibly a cost limit.  A usage report is charged
against an allocation: what is not measured is charged in full.
-/
import AgoraHub.TaskPlanCanonical

namespace TaskPlan

open Fallible

/-! ## Dimensions -/

/-- The budget fields: `TASK_BUDGET_FIELDS`, then `EXECUTION_BUDGET_FIELDS`. -/
inductive BudgetField where
  | maxTurns
  | maxToolCalls
  | maxMemoryOps
  | maxOutputTokens
  | tokenLimit
  | timeLimitMs
  | costLimit
  deriving DecidableEq

namespace BudgetField

/-- `TASK_BUDGET_FIELDS`. -/
def task : List BudgetField := [maxTurns, maxToolCalls, maxMemoryOps, maxOutputTokens]

/-- `EXECUTION_BUDGET_FIELDS`. -/
def execution : List BudgetField := [tokenLimit, timeLimitMs, costLimit]

/-- Every field, in the order of a normalized allocation. -/
def all : List BudgetField := task ++ execution

theorem mem_all (f : BudgetField) : f ∈ all := by cases f <;> decide

/-- A property of every field is checked on the seven of them. -/
instance {p : BudgetField → Prop} [DecidablePred p] : Decidable (∀ f, p f) :=
  decidable_of_iff (∀ f ∈ all, p f) ⟨fun h f => h f (mem_all f), fun h f _ => h f⟩

/-- The name of a field. -/
def name : BudgetField → String
  | maxTurns => "max_turns"
  | maxToolCalls => "max_tool_calls"
  | maxMemoryOps => "max_memory_ops"
  | maxOutputTokens => "max_output_tokens"
  | tokenLimit => "token_limit"
  | timeLimitMs => "time_limit_ms"
  | costLimit => "cost_limit"

/-- `USAGE_FIELDS`: the name a usage report gives the measurement of a field. -/
def usageName : BudgetField → String
  | maxTurns => "turns"
  | maxToolCalls => "tool_calls"
  | maxMemoryOps => "memory_ops"
  | maxOutputTokens => "output_tokens"
  | tokenLimit => "tokens"
  | timeLimitMs => "time_ms"
  | costLimit => "cost_microusd"

end BudgetField

open BudgetField

/-! ## Amounts -/

/-- A mapping from budget fields to amounts; an absent field is `none`. -/
structure Amounts where
  maxTurns : Option ℕ
  maxToolCalls : Option ℕ
  maxMemoryOps : Option ℕ
  maxOutputTokens : Option ℕ
  tokenLimit : Option ℕ
  timeLimitMs : Option ℕ
  costLimit : Option ℕ
  deriving DecidableEq

namespace Amounts

/-- `amounts.get(field)`. -/
def get (a : Amounts) : BudgetField → Option ℕ
  | .maxTurns => a.maxTurns
  | .maxToolCalls => a.maxToolCalls
  | .maxMemoryOps => a.maxMemoryOps
  | .maxOutputTokens => a.maxOutputTokens
  | .tokenLimit => a.tokenLimit
  | .timeLimitMs => a.timeLimitMs
  | .costLimit => a.costLimit

/-- The mapping with the given amounts. -/
def ofFn (f : BudgetField → Option ℕ) : Amounts where
  maxTurns := f .maxTurns
  maxToolCalls := f .maxToolCalls
  maxMemoryOps := f .maxMemoryOps
  maxOutputTokens := f .maxOutputTokens
  tokenLimit := f .tokenLimit
  timeLimitMs := f .timeLimitMs
  costLimit := f .costLimit

@[simp] theorem get_ofFn (f : BudgetField → Option ℕ) (d : BudgetField) :
    (ofFn f).get d = f d := by cases d <;> rfl

/-- `amounts[field]` where the field is known to be present. -/
def amount (a : Amounts) (d : BudgetField) : ℕ := (a.get d).getD 0

/-- `set(a) == set(b)`. -/
def SameFields (a b : Amounts) : Prop := ∀ d, (a.get d).isSome = (b.get d).isSome

instance (a b : Amounts) : Decidable (SameFields a b) :=
  inferInstanceAs (Decidable (∀ _, _))

/-- `dict.fromkeys(a, 0)`. -/
def zeros (a : Amounts) : Amounts := ofFn fun d => (a.get d).map fun _ => 0

@[simp] theorem get_zeros (a : Amounts) (d : BudgetField) :
    a.zeros.get d = (a.get d).map fun _ => 0 := get_ofFn _ d

@[simp] theorem amount_zeros (a : Amounts) (d : BudgetField) : a.zeros.amount d = 0 := by
  cases h : a.get d <;> simp [amount, h]

theorem sameFields_zeros (a : Amounts) : SameFields a.zeros a := by
  intro d
  simp

/-- `any(amounts.values())`. -/
def anyNonzero (a : Amounts) : Bool := BudgetField.all.any fun d => a.amount d != 0

theorem anyNonzero_eq_false {a : Amounts} : a.anyNonzero = false ↔ ∀ d, a.amount d = 0 := by
  unfold anyNonzero
  simp only [List.any_eq_false, bne_iff_ne, ne_eq, not_not]
  exact ⟨fun h d => h d (mem_all d), fun h d _ => h d⟩

/-- `amounts["max_output_tokens"] = n`. -/
def setOutputTokens (a : Amounts) (n : ℕ) : Amounts := { a with maxOutputTokens := some n }

/-- The fields and amounts as JSON. -/
def toJson (a : Amounts) : Json :=
  .obj (BudgetField.all.filterMap fun d => (a.get d).map fun n => (d.name, .int n))

end Amounts

/-- `budget_allocation`: the four task fields, and the token and time limits as
soon as one execution field is present. -/
def budgetAllocation (value : Amounts) : Except HarnessValidationError Amounts := do
  require (∀ d ∈ BudgetField.task, (value.get d).isSome = true)
    ⟨"TaskBudgetAllocation fields do not match the contract",
      "task_plan_budget_snapshot_invalid", []⟩
  require ((∃ d ∈ BudgetField.execution, (value.get d).isSome = true) →
      value.tokenLimit.isSome = true ∧ value.timeLimitMs.isSome = true)
    ⟨"execution budget requires both token and time limits", "task_plan_budget_policy_missing", []⟩
  return value

theorem eq_of_budgetAllocation {value a : Amounts} (h : budgetAllocation value = .ok a) :
    a = value := by
  unfold budgetAllocation at h
  rw [check_bind_eq_ok, check_bind_eq_ok] at h
  exact (pure_eq_ok_iff.mp h.2.2).symm

/-- A mapping over the fields of a legal allocation is a legal allocation. -/
theorem budgetAllocation_congr {a b : Amounts} (h : budgetAllocation a = .ok a)
    (hsame : b.SameFields a) : budgetAllocation b = .ok b := by
  unfold budgetAllocation at h ⊢
  obtain ⟨htask, h₁⟩ := check_inv h
  obtain ⟨hexecution, -⟩ := check_inv h₁
  replace htask := of_require htask
  replace hexecution := of_require hexecution
  refine require_intro (fun d hd => (hsame d).trans (htask d hd)) ?_
  refine require_intro ?_ rfl
  rintro ⟨d, hd, hsome⟩
  rcases hexecution ⟨d, hd, (hsame d).symm.trans hsome⟩ with ⟨htoken, htime⟩
  exact ⟨(hsame .tokenLimit).trans htoken, (hsame .timeLimitMs).trans htime⟩

/-! ## Task budgets -/

/-- `TaskBudget.__post_init__`: positive turns, a legal allocation, a positive
time limit and no more output tokens than tokens. -/
def checkTaskBudget (value : Amounts) : Except HarnessValidationError Unit := do
  positiveInt (value.amount .maxTurns) "max_turns"
  let _ ← budgetAllocation value
  match value.timeLimitMs with
  | none => return ()
  | some limit =>
    positiveInt limit "time_limit_ms"
    require (value.amount .maxOutputTokens ≤ value.amount .tokenLimit)
      ⟨"output token limit exceeds total token limit", "task_plan_budget_exceeded", []⟩

/-- `TaskBudget`: amounts that pass its constructor. -/
structure TaskBudget where
  amounts : Amounts
  valid : checkTaskBudget amounts = .ok ()

namespace TaskBudget

theorem ext {a b : TaskBudget} (h : a.amounts = b.amounts) : a = b := by
  cases a
  cases b
  simpa using h

instance : DecidableEq TaskBudget := fun a b =>
  decidable_of_iff (a.amounts = b.amounts) ⟨ext, congrArg _⟩

/-- The constructor. -/
def construct (value : Amounts) : Except HarnessValidationError TaskBudget :=
  match h : checkTaskBudget value with
  | .ok () => .ok ⟨value, h⟩
  | .error e => .error e

/-- The task fields that are absent. -/
def missingFields (value : Amounts) : List BudgetField :=
  BudgetField.task.filter fun d => (value.get d).isNone

def fromDict (value : Amounts) : Except HarnessValidationError TaskBudget := do
  require (missingFields value = [])
    (contractError "invalid_task_plan_payload_fields"
      "TaskBudget payload fields do not match the contract" [("model", .str "TaskBudget"),
        ("missing", .arr ((PyText.sorted ((missingFields value).map name)).map .str)),
        ("unknown", .arr [])])
  let _ ← budgetAllocation value
  construct value

theorem construct_eq_ok {value : Amounts} {b : TaskBudget} :
    construct value = .ok b ↔ b.amounts = value := by
  unfold construct
  split
  · rename_i h
    constructor
    · intro hb
      cases hb
      rfl
    · intro hb
      exact congrArg _ (ext hb.symm)
  · rename_i e h
    constructor
    · intro hb
      cases hb
    · -- a budget's amounts pass the check, so this branch is not taken
      rintro rfl
      rw [b.valid] at h
      cases h

theorem budgetAllocation_amounts (b : TaskBudget) : budgetAllocation b.amounts = .ok b.amounts := by
  have h := b.valid
  unfold checkTaskBudget at h
  obtain ⟨a, ha, -⟩ := bind_inv (check_inv h).2
  rw [ha, eq_of_budgetAllocation ha]

/-- `from_dict` keeps the amounts. -/
theorem fromDict_eq_ok {value : Amounts} {b : TaskBudget} :
    fromDict value = .ok b ↔ b.amounts = value := by
  unfold fromDict
  rw [check_bind_eq_ok, bind_eq_ok]
  constructor
  · rintro ⟨-, -, -, hb⟩
    exact construct_eq_ok.mp hb
  · rintro rfl
    have halloc := b.budgetAllocation_amounts
    refine ⟨require_eq_ok.mpr ?_, b.amounts, halloc, construct_eq_ok.mpr rfl⟩
    unfold budgetAllocation at halloc
    have hfour := of_require (check_inv halloc).1
    unfold missingFields
    rw [List.filter_eq_nil_iff]
    intro d hd
    rw [Bool.not_eq_true, Option.isNone_eq_false_iff]
    exact hfour d hd

theorem fromDict_amounts (b : TaskBudget) : fromDict b.amounts = .ok b := fromDict_eq_ok.mpr rfl

end TaskBudget

/-! ## Usage -/

/-- One value of a usage report: an integer, or anything else. -/
inductive Measurement where
  | int : ℤ → Measurement
  | other : Measurement
  deriving DecidableEq

namespace Measurement

/-- The value of a measurement that is a non-negative integer. -/
def natural? : Measurement → Option ℕ
  | int n => if 0 ≤ n then some n.toNat else none
  | other => none

end Measurement

/-- The measurements of a field: under its usage name, then under its own name. -/
def measurements (usage : PyDict String Measurement) (d : BudgetField) : List Measurement :=
  [d.usageName, d.name].filterMap fun key => usage.get? key

/-- The charge of one field: its measurement, or the whole request. -/
def measuredAmount (usage : PyDict String Measurement) (d : BudgetField) (requested : ℕ) :
    Except HarnessValidationError ℕ := do
  let values := measurements usage d
  require ((∀ v ∈ values, v.natural?.isSome = true) ∧ ∀ v ∈ values, ∀ w ∈ values, v = w)
    ⟨"task result usage must be non-negative integers with consistent aliases",
      "task_plan_result_usage_invalid", []⟩
  let actual := (values.head?.bind Measurement.natural?).getD requested
  require (actual ≤ requested)
    ⟨"task result usage exceeds the accepted task budget", "BUDGET_EXCEEDED", []⟩
  return actual

/-- The charges of the fields in order, each checked against its request. -/
def measuredAmounts (usage : PyDict String Measurement) (requested : Amounts) :
    List BudgetField → (BudgetField → Option ℕ) →
      Except HarnessValidationError (BudgetField → Option ℕ)
  | [], actual => .ok actual
  | d :: fields, actual =>
    match requested.get d with
    | none => measuredAmounts usage requested fields actual
    | some amount => do
      let charged ← measuredAmount usage d amount
      measuredAmounts usage requested fields (Function.update actual d (some charged))

def resultBudgetUsage (usage : PyDict String Measurement) (allocation : Amounts) :
    Except HarnessValidationError Amounts := do
  let requested ← budgetAllocation allocation
  let charges ← measuredAmounts usage requested BudgetField.all fun _ => none
  let actual := Amounts.ofFn charges
  let outputMeasured := !(measurements usage .maxOutputTokens).isEmpty
  match actual.tokenLimit with
  | none => return actual
  | some tokens =>
    if outputMeasured = true then
      require (actual.amount .maxOutputTokens ≤ tokens)
        ⟨"output token usage exceeds total token usage", "task_plan_result_usage_invalid", []⟩
      return actual
    else
      -- the total is an upper bound on output usage
      return actual.setOutputTokens (min (actual.amount .maxOutputTokens) tokens)

end TaskPlan
