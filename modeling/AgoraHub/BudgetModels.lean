/-
# Budget records

The value types of the canonical budget ledger: amounts in six dimensions, limits
with a derived total-token limit, scopes, reservations, settlements, decisions,
operation records and events, with the checks their constructors make.

Costs are exact multiples of the cost quantum `10⁻¹²`, so a cost is the natural
number of quanta; with at most `10¹²` dollars no decimal operation rounds.
-/
import AgoraHub.Fallible
import AgoraHub.PyDict
import AgoraHub.PyJson

namespace Budget

open Fallible PyText List

/-! ## Errors -/

/-- The exception classes of the budget package, and the two built-in ones its
dictionary and `min` operations can raise. -/
inductive ErrorKind where
  | contract
  | identityConflict
  | state
  | history
  | eventWrite
  | keyError
  | valueError
  deriving DecidableEq

/-- An exception: its class and its message. -/
structure BudgetError where
  kind : ErrorKind
  message : String
  deriving DecidableEq

namespace BudgetError

def contract (message : String) : BudgetError := ⟨.contract, message⟩
def identityConflict (message : String) : BudgetError := ⟨.identityConflict, message⟩
def state (message : String) : BudgetError := ⟨.state, message⟩
def history (message : String) : BudgetError := ⟨.history, message⟩

/-- `isinstance(exc, BudgetContractError)`: the identity conflict is a subclass. -/
def isContract (e : BudgetError) : Bool := e.kind = .contract || e.kind = .identityConflict

/-- `isinstance(exc, BudgetStateError)`. -/
def isState (e : BudgetError) : Bool := e.kind = .state

end BudgetError

/-! ## Bounded values -/

def maxBudgetInteger : ℕ := 2 ^ 63 - 1

/-- `MAX_COST_USD` in cost quanta. -/
def maxCostUsd : ℕ := 10 ^ 12 * 10 ^ 12

def maxSnapshotRecords : ℕ := 10000

def maxBudgetReasonCodes : ℕ := 16

def boundedInt (value : ℤ) (fieldName : String) : Except BudgetError ℕ :=
  if 0 ≤ value ∧ value ≤ maxBudgetInteger then .ok value.toNat
  else .error (.contract (fieldName ++ " must be between 0 and " ++ toString maxBudgetInteger))

theorem boundedInt_natCast {n : ℕ} (h : n ≤ maxBudgetInteger) (fieldName : String) :
    boundedInt n fieldName = .ok n := by
  rw [boundedInt, if_pos ⟨n.cast_nonneg, by exact_mod_cast h⟩, Int.toNat_natCast]

/-- A text that `_required_text` returns: trimmed, not empty, at most 512 code points. -/
structure RequiredText where
  val : String
  trimmed : strip val = val
  nonempty : val ≠ ""
  bounded : val.length ≤ 512
  deriving DecidableEq

namespace RequiredText

theorem ext {a b : RequiredText} (h : a.val = b.val) : a = b := by
  cases a; cases b; simpa using h

instance : Coe RequiredText String := ⟨RequiredText.val⟩

end RequiredText

/-- `_required_text` and `_required_identity`. -/
def requiredText (value fieldName : String) : Except BudgetError RequiredText :=
  if h : strip value ≠ "" ∧ (strip value).length ≤ 512 then
    .ok ⟨strip value, strip_strip value, h.1, h.2⟩
  else .error (.contract (fieldName ++ " is required and must be bounded"))

theorem val_of_requiredText {value fieldName : String} {t : RequiredText}
    (h : requiredText value fieldName = .ok t) : t.val = strip value := by
  unfold requiredText at h
  split at h
  · cases h
    rfl
  · simp at h

@[simp] theorem requiredText_val (t : RequiredText) (fieldName : String) :
    requiredText t.val fieldName = .ok t := by
  have h : strip t.val ≠ "" ∧ (strip t.val).length ≤ 512 := by
    rw [t.trimmed]; exact ⟨t.nonempty, t.bounded⟩
  rw [requiredText, dif_pos h]
  exact congrArg _ (RequiredText.ext t.trimmed)

theorem requiredText_congr {a b fieldName : String} (h : strip a = strip b) :
    requiredText a fieldName = requiredText b fieldName := by
  simp only [requiredText, h]

/-- A digest behind a tag such as `sha256:`. -/
def taggedDigest (tag : String) (d : HexDigest) (hlen : tag.length ≤ 448)
    (hhead : ∀ c ∈ (tag ++ d.text).toList.head?, isSpace c = false) : RequiredText where
  val := tag ++ d.text
  trimmed := by
    refine strip_eq_self hhead ?_
    rw [String.toList_append, getLast?_append_of_ne_nil _ d.toList_ne_nil]
    exact d.getLast?_not_space
  nonempty := by
    intro h
    have := congrArg String.length h
    rw [String.length_append, d.length_eq] at this
    simp at this
  bounded := by rw [String.length_append, d.length_eq]; omega

/-! ## Amounts -/

inductive BudgetDimension where
  | llmCalls
  | inputTokens
  | outputTokens
  | reasoningTokens
  | cachedInputTokens
  | estimatedCostUsd
  deriving DecidableEq

namespace BudgetDimension

/-- The field name of a dimension. -/
def name : BudgetDimension → String
  | llmCalls => "llm_calls"
  | inputTokens => "input_tokens"
  | outputTokens => "output_tokens"
  | reasoningTokens => "reasoning_tokens"
  | cachedInputTokens => "cached_input_tokens"
  | estimatedCostUsd => "estimated_cost_usd"

/-- `_AMOUNT_FIELDS`, in source order. -/
def all : List BudgetDimension :=
  [llmCalls, inputTokens, outputTokens, reasoningTokens, cachedInputTokens, estimatedCostUsd]

theorem mem_all (d : BudgetDimension) : d ∈ all := by cases d <;> decide

/-- A property of every dimension is checked on the six of them. -/
instance {p : BudgetDimension → Prop} [DecidablePred p] : Decidable (∀ d, p d) :=
  decidable_of_iff (∀ d ∈ all, p d) ⟨fun h d => h d (mem_all d), fun h d _ => h d⟩

/-- Functions on the dimensions are compared on the six of them. -/
instance {α : Type} [DecidableEq α] : DecidableEq (BudgetDimension → α) := fun f g =>
  decidable_of_iff (∀ d, f d = g d) funext_iff.symm

end BudgetDimension

open BudgetDimension

/-- The largest value a dimension may hold. -/
def maxAmount : BudgetDimension → ℕ
  | estimatedCostUsd => maxCostUsd
  | _ => maxBudgetInteger

/-- `BudgetAmounts`: one bounded natural number for each dimension. -/
@[ext] structure BudgetAmounts where
  get : BudgetDimension → ℕ
  le_max : ∀ d, get d ≤ maxAmount d

instance : DecidableEq BudgetAmounts := fun a b =>
  decidable_of_iff (a.get = b.get) ⟨BudgetAmounts.ext, congrArg BudgetAmounts.get⟩

namespace BudgetAmounts

/-- `BudgetAmounts()`. -/
def zero : BudgetAmounts := ⟨fun _ => 0, fun _ => Nat.zero_le _⟩

@[simp] theorem get_zero : zero.get = 0 := rfl

/-- `BudgetAmounts.total_tokens`, on the vector of amounts. -/
def totalOf (v : BudgetDimension → ℕ) : ℕ := v inputTokens + v outputTokens + v reasoningTokens

def totalTokens (a : BudgetAmounts) : ℕ := totalOf a.get

/-- The message for a sum that leaves the bound of dimension `d`. -/
def excessMessage : BudgetDimension → String
  | estimatedCostUsd => "estimated_cost_usd must be finite and between 0 and 1000000000000"
  | d => d.name ++ " exceeds the supported bound"

def add (a b : BudgetAmounts) : Except BudgetError BudgetAmounts :=
  if h : ∀ d, a.get d + b.get d ≤ maxAmount d then .ok ⟨fun d => a.get d + b.get d, h⟩
  else
    let first := (BudgetDimension.all.find? fun d => decide (maxAmount d < a.get d + b.get d)).getD
      estimatedCostUsd
    .error (.contract (excessMessage first))

def subtract (a b : BudgetAmounts) : Except BudgetError BudgetAmounts :=
  if ∀ d, b.get d ≤ a.get d then
    .ok ⟨fun d => a.get d - b.get d, fun d => (Nat.sub_le _ _).trans (a.le_max d)⟩
  else if ∀ d, d ≠ estimatedCostUsd → b.get d ≤ a.get d then
    .error (.contract "budget cost subtraction would become negative")
  else .error (.contract "budget amount subtraction would become negative")

theorem add_eq_ok {a b c : BudgetAmounts} : add a b = .ok c ↔ c.get = a.get + b.get := by
  unfold add
  split
  · rename_i h
    constructor
    · rintro hc
      cases hc
      rfl
    · intro hc
      congr 1
      exact BudgetAmounts.ext hc.symm
  · rename_i h
    constructor
    · intro hc; simp at hc
    · intro hc
      exact absurd (fun d => by have := c.le_max d; rwa [hc] at this) h

theorem exists_add {a b : BudgetAmounts} (h : ∀ d, a.get d + b.get d ≤ maxAmount d) :
    ∃ c, add a b = .ok c ∧ c.get = a.get + b.get :=
  ⟨⟨_, h⟩, add_eq_ok.mpr rfl, rfl⟩

theorem subtract_eq_ok {a b c : BudgetAmounts} : subtract a b = .ok c ↔ c.get + b.get = a.get := by
  unfold subtract
  split
  · rename_i h
    constructor
    · rintro hc
      cases hc
      funext d
      exact Nat.sub_add_cancel (h d)
    · intro hc
      congr 1
      ext d
      have := congrFun hc d
      simp only [Pi.add_apply] at this
      show a.get d - b.get d = c.get d
      omega
  · rename_i h
    constructor
    · intro hc; split at hc <;> simp at hc
    · intro hc
      exact absurd (fun d => by have := congrFun hc d; simp only [Pi.add_apply] at this; omega) h

def within (a ceiling : BudgetAmounts) : Bool :=
  BudgetDimension.all.all fun d => decide (a.get d ≤ ceiling.get d)

def canonicalCostText (quanta : ℕ) : String :=
  let fraction := toString (quanta % 10 ^ 12)
  toString (quanta / 10 ^ 12) ++ "." ++
    String.ofList (List.replicate (12 - fraction.length) '0') ++ fraction

/-- `to_dict` of one dimension. -/
def fieldJson (d : BudgetDimension) (n : ℕ) : String × Json :=
  (d.name, if d = estimatedCostUsd then .str (canonicalCostText n) else .int n)

/-- `BudgetAmounts.to_dict`. -/
def toJson (a : BudgetAmounts) : Json :=
  .obj (BudgetDimension.all.map fun d => fieldJson d (a.get d))

end BudgetAmounts

/-! ## Limits and policies -/

inductive BudgetReasonCode where
  | maxLlmCalls
  | maxInputTokens
  | maxOutputTokens
  | maxReasoningTokens
  | maxCachedInputTokens
  | maxTotalTokens
  | maxEstimatedCostUsd
  | reservationExpired
  | reservationReleased
  | dispatchIndeterminate
  | actualExceedsReservation
  deriving DecidableEq

def BudgetReasonCode.value : BudgetReasonCode → String
  | maxLlmCalls => "max_llm_calls"
  | maxInputTokens => "max_input_tokens"
  | maxOutputTokens => "max_output_tokens"
  | maxReasoningTokens => "max_reasoning_tokens"
  | maxCachedInputTokens => "max_cached_input_tokens"
  | maxTotalTokens => "max_total_tokens"
  | maxEstimatedCostUsd => "max_estimated_cost_usd"
  | reservationExpired => "reservation_expired"
  | reservationReleased => "reservation_released"
  | dispatchIndeterminate => "dispatch_indeterminate"
  | actualExceedsReservation => "actual_exceeds_reservation"

/-- A reason code as a checked text. -/
def BudgetReasonCode.text (c : BudgetReasonCode) : RequiredText where
  val := c.value
  trimmed := by cases c <;> decide
  nonempty := by cases c <;> decide
  bounded := by cases c <;> decide

/-- `BudgetLimits`: an optional bound for each dimension and one for total tokens. -/
@[ext] structure BudgetLimits where
  limit : BudgetDimension → Option ℕ
  totalTokens : Option ℕ
  limit_le : ∀ d n, limit d = some n → n ≤ maxAmount d
  total_le : ∀ n, totalTokens = some n → n ≤ maxBudgetInteger

instance : DecidableEq BudgetLimits := fun a b =>
  decidable_of_iff (a.limit = b.limit ∧ a.totalTokens = b.totalTokens)
    ⟨fun h => BudgetLimits.ext h.1 h.2, fun h => h ▸ ⟨rfl, rfl⟩⟩

namespace BudgetLimits

/-- The reason code of a dimension's limit. -/
def code : BudgetDimension → BudgetReasonCode
  | llmCalls => .maxLlmCalls
  | inputTokens => .maxInputTokens
  | outputTokens => .maxOutputTokens
  | reasoningTokens => .maxReasoningTokens
  | cachedInputTokens => .maxCachedInputTokens
  | estimatedCostUsd => .maxEstimatedCostUsd

/-- `limit is not None and value > limit`. -/
def exceeded (bound : Option ℕ) (value : ℕ) : Bool :=
  match bound with
  | none => false
  | some n => decide (n < value)

/-- The codes of the exceeded limits, before they are sorted. -/
def violationCodes (l : BudgetLimits) (a : BudgetAmounts) : List String :=
  ((BudgetDimension.all.filter fun d => exceeded (l.limit d) (a.get d)).map fun d =>
    (code d).value) ++
  if exceeded l.totalTokens a.totalTokens then [BudgetReasonCode.maxTotalTokens.value] else []

def violations (l : BudgetLimits) (a : BudgetAmounts) : List String := sorted (l.violationCodes a)

/-- A vector of amounts stays within all seven limits. -/
def Admits (l : BudgetLimits) (v : BudgetDimension → ℕ) : Prop :=
  (∀ d n, l.limit d = some n → v d ≤ n) ∧
    ∀ n, l.totalTokens = some n → BudgetAmounts.totalOf v ≤ n

theorem Admits.mono {l : BudgetLimits} {v w : BudgetDimension → ℕ} (h : l.Admits v) (hw : w ≤ v) :
    l.Admits w := by
  refine ⟨fun d n hd => (hw d).trans (h.1 d n hd), fun n hn => le_trans ?_ (h.2 n hn)⟩
  exact Nat.add_le_add (Nat.add_le_add (hw _) (hw _)) (hw _)

theorem exceeded_eq_false_iff {bound : Option ℕ} {value : ℕ} :
    exceeded bound value = false ↔ ∀ n, bound = some n → value ≤ n := by
  cases bound <;> simp [exceeded]

/-- No violation is reported exactly when every limit holds. -/
theorem violations_eq_nil_iff {l : BudgetLimits} {a : BudgetAmounts} :
    l.violations a = [] ↔ l.Admits a.get := by
  have hsort : l.violations a = [] ↔ l.violationCodes a = [] := by
    constructor
    · intro h
      rw [eq_nil_iff_forall_not_mem] at h ⊢
      exact fun x hx => h x (mem_sorted.mpr hx)
    · intro h; rw [violations, h]; rfl
  rw [hsort, violationCodes, append_eq_nil_iff, map_eq_nil_iff, filter_eq_nil_iff]
  refine and_congr ?_ ?_
  · refine ⟨fun h d => exceeded_eq_false_iff.mp ?_, fun h d _ => ?_⟩
    · simpa using h d (mem_all d)
    · simpa using exceeded_eq_false_iff.mpr (h d)
  · rw [← exceeded_eq_false_iff, BudgetAmounts.totalTokens]
    cases exceeded l.totalTokens (BudgetAmounts.totalOf a.get) <;> simp

def available (l : BudgetLimits) (used : BudgetAmounts) : BudgetAmounts where
  get d := match l.limit d with
    | none => maxAmount d
    | some n => n - used.get d
  le_max d := by
    split
    · exact le_rfl
    · rename_i n hn
      exact (Nat.sub_le _ _).trans (l.limit_le d n hn)

/-- `BudgetLimits.to_dict`. -/
def toJson (l : BudgetLimits) : Json :=
  .obj ((BudgetDimension.all.filterMap fun d => (l.limit d).map (BudgetAmounts.fieldJson d)) ++
    match l.totalTokens with
    | none => []
    | some n => [("total_tokens", .int n)])

end BudgetLimits

def maxReservationTtlSeconds : ℕ := 7 * 24 * 60 * 60

/-- `BudgetPolicy`.  The schema version is the only one the constructor accepts. -/
structure BudgetPolicy where
  policyRevision : RequiredText
  limits : BudgetLimits
  reservationTtlSeconds : ℕ
  ttl_le : reservationTtlSeconds ≤ maxReservationTtlSeconds
  deriving DecidableEq

namespace BudgetPolicy

/-- `BudgetPolicy.to_dict`. -/
def toJson (p : BudgetPolicy) : Json :=
  .obj [("schema_version", .str "newsroom.budget/v1"),
    ("policy_revision", .str p.policyRevision.val), ("limits", p.limits.toJson),
    ("reservation_ttl_seconds", .int p.reservationTtlSeconds)]

theorem sha_head (d : HexDigest) : ∀ c ∈ ("sha256:" ++ d.text).toList.head?, isSpace c = false := by
  intro c hc
  rw [String.toList_append] at hc
  obtain rfl : 's' = c := by simpa using hc
  decide

def digest (sha256 : String → HexDigest) (p : BudgetPolicy) : RequiredText :=
  taggedDigest "sha256:" (sha256 p.toJson.dumps) (by decide) (sha_head _)

end BudgetPolicy

/-! ## Scopes -/

inductive BudgetScopeType where
  | run
  | graph
  | agentLoop
  | subagent
  | operation
  deriving DecidableEq

def BudgetScopeType.value : BudgetScopeType → String
  | run => "run"
  | graph => "graph"
  | agentLoop => "agent_loop"
  | subagent => "subagent"
  | operation => "operation"

structure GraphRunIdentity where
  runId : String
  graphId : String
  graphVersion : String
  graphRef : String
  graphChecksum : String
  deriving DecidableEq

/-- `GraphRunIdentity.to_dict`. -/
def GraphRunIdentity.fields (i : GraphRunIdentity) : List (String × Json) :=
  [("run_id", .str i.runId), ("graph_id", .str i.graphId), ("graph_version", .str i.graphVersion),
    ("graph_ref", .str i.graphRef), ("graph_checksum", .str i.graphChecksum)]

structure GraphExecutionIdentity extends GraphRunIdentity where
  nodeId : String
  nodeInstanceId : String
  activityId : String
  attempt : ℕ
  deriving DecidableEq

/-- `GraphExecutionIdentity.to_dict`. -/
def GraphExecutionIdentity.fields (i : GraphExecutionIdentity) : List (String × Json) :=
  i.toGraphRunIdentity.fields ++
    [("node_id", .str i.nodeId), ("node_instance_id", .str i.nodeInstanceId),
      ("activity_id", .str i.activityId), ("attempt", .int i.attempt)]

/-- `GraphRunIdentity | GraphExecutionIdentity`. -/
inductive ExecutionIdentity where
  | run (i : GraphRunIdentity)
  | execution (i : GraphExecutionIdentity)
  deriving DecidableEq

namespace ExecutionIdentity

def runId : ExecutionIdentity → String
  | run i => i.runId
  | execution i => i.runId

def isExecution : ExecutionIdentity → Bool
  | run _ => false
  | execution _ => true

def toJson : ExecutionIdentity → Json
  | run i => .obj i.fields
  | execution i => .obj i.fields

end ExecutionIdentity

structure BudgetScopeRef where
  runId : RequiredText
  scopeId : RequiredText
  scopeType : BudgetScopeType
  policyRevision : RequiredText
  parentScopeId : Option RequiredText
  executionIdentity : Option ExecutionIdentity
  identity_run : ∀ i, executionIdentity = some i → i.runId = runId.val
  graph_exact : scopeType = .graph → executionIdentity.any ExecutionIdentity.isExecution = true
  run_root : scopeType = .run → parentScopeId = none
  child_parent : scopeType ≠ .run → parentScopeId ≠ none
  deriving DecidableEq

/-- `BudgetScopeRef.to_dict`. -/
def BudgetScopeRef.toJson (s : BudgetScopeRef) : Json :=
  .obj ([("run_id", .str s.runId.val), ("scope_id", .str s.scopeId.val),
    ("scope_type", .str s.scopeType.value),
    ("parent_scope_id", Json.optStr (s.parentScopeId.map RequiredText.val)),
    ("policy_revision", .str s.policyRevision.val)] ++ match s.executionIdentity with
    | none => []
    | some i => [("execution_identity", i.toJson)])

def operationFingerprint (sha256 : String → HexDigest) (scope : BudgetScopeRef)
    (requested : BudgetAmounts) (policyDigest : RequiredText) : RequiredText :=
  taggedDigest "sha256:"
    (sha256 (Json.obj [("scope", scope.toJson), ("requested", requested.toJson),
      ("policy_digest", .str policyDigest.val)]).dumps)
    (by decide) (BudgetPolicy.sha_head _)

/-! ## Usage, views and decisions -/

structure BudgetUsage where
  committed : BudgetAmounts
  reserved : BudgetAmounts
  available : BudgetAmounts
  ledgerRevision : ℕ
  deriving DecidableEq

/-- The check of `BudgetUsage.__post_init__`. -/
def BudgetUsage.create (u : BudgetUsage) : Except BudgetError BudgetUsage := do
  let _ ← boundedInt u.ledgerRevision "ledger_revision"
  .ok u

structure BudgetView where
  scope : BudgetScopeRef
  policy : BudgetPolicy
  usage : BudgetUsage
  deriving DecidableEq

/-- The check of `BudgetView.__post_init__`. -/
def BudgetView.create (v : BudgetView) : Except BudgetError BudgetView := do
  require (v.scope.policyRevision = v.policy.policyRevision)
    (.contract "view scope policy revision mismatch")
  .ok v

structure BudgetDecision where
  allowed : Bool
  violations : List String
  projectedUsage : BudgetUsage
  reservationId : Option RequiredText
  ledgerRevision : ℕ
  deriving DecidableEq

/-- The normalisation and checks of `BudgetDecision.__post_init__`. -/
def BudgetDecision.create (d : BudgetDecision) : Except BudgetError BudgetDecision := do
  let items ← d.violations.mapM fun item => requiredText item "violation"
  let violations := sortedSet (items.map RequiredText.val)
  require (violations.length ≤ maxBudgetReasonCodes)
    (.contract "decision contains too many violations")
  require (¬ (d.allowed = true ∧ violations ≠ []))
    (.contract "allowed decision cannot contain violations")
  require (¬ (d.allowed = false ∧ violations = []))
    (.contract "denied decision requires violations")
  let _ ← boundedInt d.ledgerRevision "ledger_revision"
  .ok { d with violations := violations }

/-! ## Reservations and settlements -/

inductive BudgetReservationStatus where
  | reserved
  | settled
  | released
  | expired
  | indeterminate
  deriving DecidableEq

def BudgetReservationStatus.value : BudgetReservationStatus → String
  | reserved => "reserved"
  | settled => "settled"
  | released => "released"
  | expired => "expired"
  | indeterminate => "indeterminate"

/-- The statuses that still hold their requested amounts. -/
def BudgetReservationStatus.isOpen : BudgetReservationStatus → Bool
  | reserved => true
  | indeterminate => true
  | _ => false

structure BudgetReservation where
  reservationId : RequiredText
  operationId : RequiredText
  idempotencyKey : RequiredText
  scope : BudgetScopeRef
  policyDigest : RequiredText
  requested : BudgetAmounts
  status : BudgetReservationStatus
  createdEventId : RequiredText
  createdAtEpochMs : ℕ
  deriving DecidableEq

/-- `replace(reservation, status=...)`. -/
def BudgetReservation.withStatus (r : BudgetReservation) (status : BudgetReservationStatus) :
    BudgetReservation :=
  { r with status := status }

inductive BudgetSettlementOutcome where
  | succeeded
  | failed
  | cancelled
  | indeterminate
  deriving DecidableEq

def BudgetSettlementOutcome.value : BudgetSettlementOutcome → String
  | succeeded => "succeeded"
  | failed => "failed"
  | cancelled => "cancelled"
  | indeterminate => "indeterminate"

/-- The fields `BudgetSettlement.command_projection` compares. -/
structure SettlementCommand where
  reservationId : RequiredText
  operationId : RequiredText
  scope : BudgetScopeRef
  policyDigest : RequiredText
  actual : BudgetAmounts
  requestDispatched : Bool
  cacheHit : Bool
  outcome : BudgetSettlementOutcome
  reasonCode : Option RequiredText
  deriving DecidableEq

/-- `BudgetSettlement`: the command and the event that settled it. -/
structure BudgetSettlement extends SettlementCommand where
  settledEventId : RequiredText
  deriving DecidableEq

/-! ## Operation records -/

structure BudgetOperationRecord where
  operationId : RequiredText
  idempotencyKey : RequiredText
  fingerprint : RequiredText
  reservationId : Option RequiredText
  reservation : Option BudgetReservation
  decision : Option BudgetDecision
  settlement : Option BudgetSettlement
  deriving DecidableEq

namespace BudgetOperationRecord

section

variable (r : BudgetOperationRecord)

/-- The reservation of a record belongs to its operation. -/
def checkReservation : Except BudgetError Unit :=
  match r.reservation with
  | some reservation =>
    require (r.reservationId = some reservation.reservationId ∧
        r.operationId = reservation.operationId ∧ r.idempotencyKey = reservation.idempotencyKey)
      (.contract "operation record conflicts with reservation")
  | none => require (r.reservationId = none) (.contract "operation record reservation is missing")

/-- The settlement of a record belongs to its operation. -/
def checkSettlement : Except BudgetError Unit :=
  match r.settlement with
  | some settlement =>
    require (r.reservationId = some settlement.reservationId ∧
        r.operationId = settlement.operationId)
      (.contract "operation record conflicts with settlement")
  | none => .ok ()

/-- A record carries a reservation or a denial. -/
def checkDecision : Except BudgetError Unit :=
  match r.decision with
  | some decision =>
    require (decision.allowed = false ∧ r.reservationId = none)
      (.contract "operation denial record is inconsistent")
  | none =>
    require (r.reservation ≠ none) (.contract "operation record requires reservation or denial")

/-- The checks of `BudgetOperationRecord.__post_init__`. -/
def create : Except BudgetError BudgetOperationRecord := do
  r.checkReservation
  r.checkSettlement
  r.checkDecision
  .ok r

end

theorem create_eq_ok {r r' : BudgetOperationRecord} :
    r.create = .ok r' ↔ r.checkReservation = .ok () ∧ r.checkSettlement = .ok () ∧
      r.checkDecision = .ok () ∧ r = r' := by
  simp only [create, check_bind_eq_ok, Except.ok.injEq]

/-- What the constructor checks of a reservation. -/
theorem of_create_reservation {record : BudgetOperationRecord} {r : BudgetReservation}
    (h : record.create = .ok record) (hr : record.reservation = some r) :
    record.reservationId = some r.reservationId ∧ record.operationId = r.operationId ∧
      record.idempotencyKey = r.idempotencyKey ∧ record.decision = none := by
  obtain ⟨hres, -, hdec, -⟩ := create_eq_ok.mp h
  rw [checkReservation, hr] at hres
  obtain ⟨hid, hop, hkey⟩ := of_require hres
  refine ⟨hid, hop, hkey, ?_⟩
  cases hd : record.decision with
  | none => rfl
  | some d =>
    rw [checkDecision, hd] at hdec
    have hnone := (of_require hdec).2
    rw [hnone] at hid
    simp at hid

/-- A settled record carries a reservation. -/
theorem of_create_settlement {record : BudgetOperationRecord} {s : BudgetSettlement}
    (h : record.create = .ok record) (hs : record.settlement = some s) :
    ∃ r, record.reservation = some r := by
  obtain ⟨hres, hset, -, -⟩ := create_eq_ok.mp h
  cases hr : record.reservation with
  | some r => exact ⟨r, rfl⟩
  | none =>
    rw [checkReservation, hr] at hres
    rw [checkSettlement, hs] at hset
    have hnone := of_require hres
    have hsome := (of_require hset).1
    rw [hnone] at hsome
    simp at hsome

end BudgetOperationRecord

/-! ## Events -/

/-- `BudgetEvent.ALLOWED_TYPES`. -/
inductive BudgetEventType where
  | created
  | denied
  | settled
  | released
  | expired
  | indeterminate
  deriving DecidableEq

structure BudgetEvent where
  eventId : RequiredText
  eventType : BudgetEventType
  runId : RequiredText
  scope : BudgetScopeRef
  policyDigest : RequiredText
  ledgerRevision : ℕ
  operationId : RequiredText
  idempotencyKey : RequiredText
  reservationId : Option RequiredText
  amounts : BudgetAmounts
  reasonCodes : List String
  outcome : Option String
  reservation : Option BudgetReservation
  settlement : Option BudgetSettlement
  deriving DecidableEq

namespace BudgetEvent

/-- The projection a settlement event of the given kind must carry. -/
def settlementCodes (s : BudgetSettlement) : List String :=
  match s.reasonCode with
  | some code => [code.val]
  | none => []

/-- The part of `_validate_projection` that depends on the event type. -/
def validateType (e : BudgetEvent) : Except BudgetError Unit :=
  match e.eventType with
  | .created =>
    require (e.settlement = none ∧ ∃ r ∈ e.reservation, r.status = .reserved ∧
        r.createdEventId = e.eventId ∧ e.amounts = r.requested ∧
        e.outcome = some BudgetReservationStatus.reserved.value ∧ e.reasonCodes = [])
      (.contract "invalid reservation-created event projection")
  | .denied =>
    require (e.reservationId = none ∧ e.reservation = none ∧ e.settlement = none ∧
        e.outcome = some "denied" ∧ e.reasonCodes ≠ [])
      (.contract "invalid reservation-denied event projection")
  | .settled =>
    require (e.reservation = none ∧ ∃ s ∈ e.settlement,
        (s.outcome = .succeeded ∨ s.outcome = .failed) ∧ e.amounts = s.actual ∧
        e.outcome = some s.outcome.value ∧ e.reasonCodes = settlementCodes s)
      (.contract "invalid reservation-settled event projection")
  | .released | .expired =>
    require (e.reservation = none ∧ ∃ s ∈ e.settlement, s.outcome = .cancelled ∧
        s.requestDispatched = false ∧ s.actual = BudgetAmounts.zero ∧
        e.outcome = some (if e.eventType = .released then BudgetReservationStatus.released.value
          else BudgetReservationStatus.expired.value) ∧
        s.reasonCode ≠ none ∧ e.reasonCodes = settlementCodes s)
      (.contract "invalid reservation-release event projection")
  | .indeterminate =>
    require (e.reservation = none ∧ ∃ s ∈ e.settlement, s.outcome = .indeterminate ∧
        s.requestDispatched = true ∧ s.actual = BudgetAmounts.zero ∧
        e.outcome = some BudgetReservationStatus.indeterminate.value ∧
        s.reasonCode ≠ none ∧ e.reasonCodes = settlementCodes s)
      (.contract "invalid reservation-indeterminate event projection")

def validateProjection (e : BudgetEvent) : Except BudgetError Unit := do
  require (e.runId = e.scope.runId) (.contract "budget event run_id does not match scope")
  require (∀ r ∈ e.reservation, e.reservationId = some r.reservationId ∧
      e.operationId = r.operationId ∧ e.idempotencyKey = r.idempotencyKey ∧
      e.scope = r.scope ∧ e.policyDigest = r.policyDigest)
    (.contract "budget event conflicts with its reservation projection")
  require (∀ s ∈ e.settlement, e.reservationId = some s.reservationId ∧
      e.operationId = s.operationId ∧ e.scope = s.scope ∧ e.policyDigest = s.policyDigest ∧
      e.eventId = s.settledEventId)
    (.contract "budget event conflicts with its settlement projection")
  e.validateType

/-- The normalisation and checks of `BudgetEvent.__post_init__`. -/
def create (e : BudgetEvent) : Except BudgetError BudgetEvent := do
  let _ ← boundedInt e.ledgerRevision "ledger_revision"
  require (1 ≤ e.ledgerRevision) (.contract "budget event ledger_revision must be positive")
  let items ← e.reasonCodes.mapM fun item => requiredText item "reason_code"
  let codes := sortedSet (items.map RequiredText.val)
  require (codes.length ≤ maxBudgetReasonCodes)
    (.contract "budget event contains too many reason codes")
  let event := { e with reasonCodes := codes }
  event.validateProjection
  .ok event

end BudgetEvent

end Budget
