/-
# First-fit capacity packing

Pools of capacity, the demands of tasks on them, and the packing that walks the
tasks in their given order and selects each one that still fits the pools, the
resource rules and the budget.
-/
import AgoraHub.TaskPlanLedgerInvariant

namespace TaskPlan

open Fallible TaskPlanBudgetLedger

variable (sha256 : String → HexDigest)

/-- The error of an invalid capacity policy. -/
def policyInvalid (message : String) : HarnessValidationError :=
  ⟨message, "CAPACITY_POLICY_INVALID", []⟩

/-- The error of an invalid capacity demand. -/
def demandInvalid (message : String) : HarnessValidationError :=
  ⟨message, "CAPACITY_DEMAND_INVALID", []⟩

/-- The error of an invalid packing result. -/
def packingInvalid (message : String) : HarnessValidationError :=
  ⟨message, "CAPACITY_RESERVATION_INVALID", []⟩

/-! ## Pools -/

/-- The constructor arguments of `CapacityPool`; its policy checksum is derived. -/
structure PoolFields where
  poolId : String
  capacity : ℕ
  reserved : ℕ
  policyVersion : String
  ownerScope : String
  reservationKey : String
  reservationVersion : ℕ
  expiresAtMs : ℕ
  deriving DecidableEq

namespace PoolFields

def policyChecksum (p : PoolFields) : String :=
  canonicalPayloadChecksum sha256
    (.obj [("pool_id", .str p.poolId), ("capacity", .int p.capacity),
      ("policy_version", .str p.policyVersion), ("owner_scope", .str p.ownerScope),
      ("reservation_key", .str p.reservationKey)])

/-- `CapacityPool.__post_init__`. -/
def check (p : PoolFields) : Except HarnessValidationError Unit := do
  identifier p.poolId "pool_id"
  require (p.reserved ≤ p.capacity) (policyInvalid "capacity pool is over-reserved")
  identifier p.policyVersion "capacity_policy_version"
  require (String.ofList (p.policyVersion.toList.map Char.toLower) ∉ movingVersionAliases)
    (policyInvalid "capacity policy must have an exact version")
  identifier p.ownerScope "owner_scope"
  identifier p.reservationKey "reservation_key"
  require (1 ≤ p.expiresAtMs) (policyInvalid "expires_at_ms must be an integer >= 1")

end PoolFields

/-- `CapacityPool`: fields that pass its constructor. -/
structure CapacityPool where
  fields : PoolFields
  valid : fields.check = .ok ()

namespace CapacityPool

theorem ext {a b : CapacityPool} (h : a.fields = b.fields) : a = b := by
  cases a
  cases b
  simpa using h

instance : DecidableEq CapacityPool := fun a b =>
  decidable_of_iff (a.fields = b.fields) ⟨ext, congrArg _⟩

/-- The constructor. -/
def construct (fields : PoolFields) : Except HarnessValidationError CapacityPool :=
  match h : fields.check with
  | .ok () => .ok ⟨fields, h⟩
  | .error e => .error e

theorem fields_of_construct {fields : PoolFields} {p : CapacityPool}
    (h : construct fields = .ok p) : p.fields = fields := by
  unfold construct at h
  split at h
  · cases h
    rfl
  · cases h

theorem reserved_le (p : CapacityPool) : p.fields.reserved ≤ p.fields.capacity := by
  have h := p.valid
  unfold PoolFields.check at h
  exact of_require (check_inv (check_inv h).2).1

def available (p : CapacityPool) : ℕ := p.fields.capacity - p.fields.reserved

def requireCurrent (p : CapacityPool) (nowMs : ℕ) : Except HarnessValidationError Unit :=
  require (nowMs < p.fields.expiresAtMs)
    ⟨"capacity policy has expired", "CAPACITY_POLICY_STALE", []⟩

end CapacityPool

/-! ## Scope snapshots -/

/-- The constructor arguments of `CapacityScopeSnapshot`. -/
structure CapacityScopeSnapshot where
  ownerScope : String
  pools : List CapacityPool
  revision : ℕ
  expiresAtMs : ℕ
  deriving DecidableEq

namespace CapacityScopeSnapshot

/-- `min(pool.expires_at_ms for pool in pools)`. -/
def earliestExpiry (pools : List CapacityPool) : ℕ :=
  match pools with
  | [] => 0
  | p :: ps => ps.foldl (fun n q => min n q.fields.expiresAtMs) p.fields.expiresAtMs

/-- `CapacityScopeSnapshot.__post_init__`. -/
def check (s : CapacityScopeSnapshot) : Except HarnessValidationError Unit := do
  identifier s.ownerScope "owner_scope"
  let ids := s.pools.map fun p => p.fields.poolId
  require (s.pools ≠ [] ∧ ids = PyText.sorted ids ∧ ids.Nodup ∧
      ∀ p ∈ s.pools, p.fields.ownerScope = s.ownerScope)
    (policyInvalid "capacity scope must contain one stable ordered pool set")
  require (1 ≤ s.revision) (policyInvalid "capacity_scope_revision must be an integer >= 1")
  require (1 ≤ s.expiresAtMs)
    (policyInvalid "capacity_scope_expires_at_ms must be an integer >= 1")
  require (s.expiresAtMs = earliestExpiry s.pools)
    (policyInvalid "capacity scope expiry must equal its earliest pool expiry")

/-- The constructor. -/
def construct (s : CapacityScopeSnapshot) : Except HarnessValidationError CapacityScopeSnapshot := do
  s.check
  return s

theorem eq_of_construct {s s' : CapacityScopeSnapshot} (h : construct s = .ok s') : s' = s := by
  unfold construct at h
  exact (pure_eq_ok_iff.mp (check_inv h).2).symm

def requireCurrent (s : CapacityScopeSnapshot) (nowMs : ℕ) : Except HarnessValidationError Unit := do
  require (nowMs < s.expiresAtMs)
    ⟨"capacity scope snapshot has expired", "CAPACITY_POLICY_STALE", []⟩
  s.pools.forM fun p => p.requireCurrent nowMs

def withReservedPools (s : CapacityScopeSnapshot) (pools : List CapacityPool) :
    Except HarnessValidationError CapacityScopeSnapshot :=
  construct
    { ownerScope := s.ownerScope, pools := pools, revision := s.revision + 1
      expiresAtMs := earliestExpiry pools }

end CapacityScopeSnapshot

/-! ## Demands -/

inductive SideEffectClass where
  | readOnly
  | externalIdempotent
  | mutatingSerial
  | fencedMutation
  deriving DecidableEq

/-- The constructor arguments of `TaskCapacityDemand`; a mapping has each key once. -/
structure DemandFields where
  taskId : String
  quantities : PyDict String ℕ
  sideEffectClass : SideEffectClass
  resourceConflictKey : Option String
  globalSerial : Bool
  idempotentConcurrency : Bool
  idempotencyReceiptChecksum : Option String
  nodup : quantities.keys.Nodup

namespace DemandFields

/-- The check of the resource conflict key: a mutation needs one. -/
def checkConflictKey (d : DemandFields) : Except HarnessValidationError Unit :=
  match d.resourceConflictKey with
  | some key => identifier key "resource_conflict_key"
  | none =>
    require (d.sideEffectClass = .readOnly)
      ⟨"mutation demand requires a trusted resource conflict key",
        "RESOURCE_CONFLICT_KEY_REQUIRED", []⟩

/-- The check of the idempotency receipt: idempotent mutations carry one, others none. -/
def checkReceipt (d : DemandFields) : Except HarnessValidationError Unit :=
  if d.sideEffectClass = .externalIdempotent then do
    let receipt ← orRaise d.idempotencyReceiptChecksum
      ⟨"idempotent mutation requires receipt evidence", "SIDE_EFFECT_RECEIPT_REQUIRED", []⟩
    checksum receipt "idempotency_receipt_checksum"
  else
    require (d.idempotentConcurrency = false ∧ d.idempotencyReceiptChecksum = none)
      (demandInvalid "idempotency receipt is only valid for idempotent mutation")

/-- `TaskCapacityDemand.__post_init__`. -/
def check (d : DemandFields) : Except HarnessValidationError Unit := do
  identifier d.taskId "task_id"
  require (d.quantities ≠ [])
    (demandInvalid "task capacity demand must name at least one pool")
  d.quantities.forM fun entry => do
    identifier entry.1 "pool_id"
    require (1 ≤ entry.2) (demandInvalid "task capacity quantity must be positive")
  d.checkConflictKey
  require (d.globalSerial = true → d.sideEffectClass ≠ .readOnly)
    (demandInvalid "read-only demand cannot require a mutation fence")
  d.checkReceipt

end DemandFields

/-- `TaskCapacityDemand`: fields that pass its constructor. -/
structure TaskCapacityDemand where
  fields : DemandFields
  valid : fields.check = .ok ()

def resourceDemandsConflict (left right : TaskCapacityDemand) : Bool :=
  if left.fields.globalSerial || right.fields.globalSerial then true
  else if left.fields.resourceConflictKey = none ∨
      left.fields.resourceConflictKey ≠ right.fields.resourceConflictKey then false
  else if left.fields.sideEffectClass = .readOnly ∧ right.fields.sideEffectClass = .readOnly then
    false
  else
    !(decide (left.fields.sideEffectClass = .externalIdempotent) &&
      decide (right.fields.sideEffectClass = .externalIdempotent) &&
      left.fields.idempotentConcurrency && right.fields.idempotentConcurrency)

/-- Eligibility does not depend on the order of the two demands. -/
theorem resourceDemandsConflict_comm (left right : TaskCapacityDemand) :
    resourceDemandsConflict left right = resourceDemandsConflict right left := by
  unfold resourceDemandsConflict
  rw [Bool.or_comm]
  by_cases hserial : (right.fields.globalSerial || left.fields.globalSerial) = true
  · rw [if_pos hserial, if_pos hserial]
  · rw [if_neg hserial, if_neg hserial]
    by_cases hkey : left.fields.resourceConflictKey = right.fields.resourceConflictKey
    · simp only [hkey]
      by_cases hleft : left.fields.sideEffectClass = .readOnly <;>
        by_cases hright : right.fields.sideEffectClass = .readOnly <;>
        simp [hleft, hright, Bool.and_comm, Bool.and_left_comm]
    · rw [if_pos (Or.inr hkey), if_pos (Or.inr (Ne.symm hkey))]

/-! ## Packings -/

/-- `PoolReservation` as a packing creates it: state `RESERVED`, version 1.  Every
field is taken from checked pools, demands and keys. -/
structure PoolReservation where
  taskId : String
  allocations : PyDict String ℕ
  policyChecksums : PyDict String String
  ownerScope : String
  reservationKey : String
  poolVersions : PyDict String ℕ
  poolReservationKeys : PyDict String String
  expiresAtMs : ℕ
  deriving DecidableEq

/-- `FirstFitPacking`; its checksum is derived. -/
structure FirstFitPacking where
  readyOrder : List String
  selected : List String
  overflow : List String
  reservations : List PoolReservation
  reasons : PyDict String String
  capacityBefore : Option CapacityScopeSnapshot
  capacityAfter : Option CapacityScopeSnapshot
  budgetBeforeChecksum : Option String
  budgetAfterChecksum : Option String
  admittedBudgetSnapshot : Option BudgetSnapshot

namespace FirstFitPacking

/-- The check that two scope snapshots are one transition. -/
def ScopeTransition (reservations : List PoolReservation) (before after : CapacityScopeSnapshot) :
    Prop :=
  before.ownerScope = after.ownerScope ∧
    (after.revision = before.revision ∨ after.revision = before.revision + 1) ∧
    before.pools.map (fun p => p.fields.poolId) = after.pools.map (fun p => p.fields.poolId) ∧
    (after.revision = before.revision → after = before) ∧
    (reservations ≠ [] → after.revision = before.revision + 1)

instance (reservations : List PoolReservation) (before after : CapacityScopeSnapshot) :
    Decidable (ScopeTransition reservations before after) :=
  inferInstanceAs (Decidable (_ ∧ _ ∧ _ ∧ _ ∧ _))

/-- `FirstFitPacking.__post_init__`. -/
def check (p : FirstFitPacking) : Except HarnessValidationError Unit := do
  p.readyOrder.forM (identifier · "packing.ready_task_id")
  p.selected.forM (identifier · "packing.selected_task_id")
  p.overflow.forM (identifier · "packing.overflow_task_id")
  require (p.readyOrder.Nodup ∧ (∀ t ∈ p.selected, t ∉ p.overflow) ∧
      (∀ t ∈ p.readyOrder, t ∈ p.selected ∨ t ∈ p.overflow) ∧
      p.readyOrder.filter (fun t => decide (t ∈ p.selected)) = p.selected ∧
      p.readyOrder.filter (fun t => decide (t ∈ p.overflow)) = p.overflow ∧
      (p.reservations.map PoolReservation.taskId).Nodup ∧
      (∀ r ∈ p.reservations, r.taskId ∈ p.selected) ∧
      (∀ t ∈ p.reasons.keys, t ∈ p.overflow) ∧ (∀ t ∈ p.overflow, t ∈ p.reasons.keys) ∧
      ∀ reason ∈ p.reasons.values, reason ≠ "")
    (packingInvalid "packing reservations and overflow must partition tasks")
  require (p.capacityBefore.isSome = p.capacityAfter.isSome)
    (packingInvalid "packing capacity evidence must contain both scope snapshots")
  require (∀ before ∈ p.capacityBefore, ∀ after ∈ p.capacityAfter,
      ScopeTransition p.reservations before after)
    (packingInvalid "packing capacity scope transition is invalid")
  require (p.budgetBeforeChecksum.isSome = p.budgetAfterChecksum.isSome)
    (packingInvalid "packing budget evidence must contain both ledger checksums")

end FirstFitPacking

/-- The arguments of `pack_first_fit`. -/
structure PackingInput where
  taskIds : List String
  demands : PyDict String TaskCapacityDemand
  pools : PyDict String CapacityPool
  maxTasks : ℕ
  occupiedResourceKeys : List String
  occupiedResourceDemands : List TaskCapacityDemand
  ownerScope : String
  reservationKeys : PyDict String String
  nowMs : ℕ
  taskInstances : Option (PyDict String (TaskInstance sha256))
  budgetSnapshot : Option BudgetSnapshot
  capacitySnapshot : Option CapacityScopeSnapshot
  nodup : pools.keys.Nodup

/-- What the packing loop carries. -/
structure PackState where
  readyOrder : List String
  selected : List String
  overflow : List String
  reservations : List PoolReservation
  reasons : PyDict String String
  selectedDemands : List TaskCapacityDemand
  remaining : PyDict String ℕ
  ledger : Option (TaskPlanBudgetLedger sha256)

namespace PackingInput

variable {sha256}

section

variable (x : PackingInput sha256)

def orderedPools : List CapacityPool :=
  x.pools.values.insertionSort fun p q => p.fields.poolId ≤ q.fields.poolId

/-- The scope snapshot before the packing: the given one, or a new one over the pools. -/
def capacityBefore : Except HarnessValidationError (Option CapacityScopeSnapshot) :=
  match x.capacitySnapshot with
  | some snapshot => do
    require (snapshot.ownerScope = x.ownerScope ∧ snapshot.pools = x.orderedPools)
      ⟨"capacity scope snapshot differs from packing pools", "CAPACITY_POLICY_CHECKSUM_MISMATCH",
        []⟩
    snapshot.requireCurrent x.nowMs
    return some snapshot
  | none =>
    if x.orderedPools = [] then .ok none
    else do
      let snapshot ← CapacityScopeSnapshot.construct
        { ownerScope := x.ownerScope, pools := x.orderedPools
          revision := x.orderedPools.foldl (fun n p => max n p.fields.reservationVersion) 1
          expiresAtMs := CapacityScopeSnapshot.earliestExpiry x.orderedPools }
      return some snapshot

/-- The checks that a task has a usable demand. -/
def checkDemand (taskId : String) : Except HarnessValidationError Unit :=
  match x.demands.get? taskId with
  | none => require (x.pools = [])
      ⟨"task requires a capacity demand from the pinned policy", "CAPACITY_POLICY_MISSING", []⟩
  | some demand => do
    require (demand.fields.taskId = taskId) (demandInvalid "capacity demand identity mismatch")
    require (∀ poolId ∈ demand.fields.quantities.keys, poolId ∈ x.pools.keys)
      ⟨"task requires an unavailable capacity policy", "CAPACITY_POLICY_MISSING", []⟩

end

/-- A demand asks a pool for more than remains. -/
def ExceedsPool (remaining : PyDict String ℕ) (demand : TaskCapacityDemand) : Prop :=
  ∃ entry ∈ demand.fields.quantities, (remaining.get? entry.1).getD 0 < entry.2

instance (remaining : PyDict String ℕ) (demand : TaskCapacityDemand) :
    Decidable (ExceedsPool remaining demand) := inferInstanceAs (Decidable (∃ _ ∈ _, _))

/-- A demand conflicts with an occupied key, an occupied demand or a selected one. -/
def ConflictsResource (x : PackingInput sha256) (selected : List TaskCapacityDemand)
    (demand : TaskCapacityDemand) : Prop :=
  (∃ key ∈ demand.fields.resourceConflictKey, key ∈ x.occupiedResourceKeys) ∨
    (∃ active ∈ x.occupiedResourceDemands, resourceDemandsConflict demand active = true) ∨
    ∃ previous ∈ selected, resourceDemandsConflict demand previous = true

instance (x : PackingInput sha256) (selected : List TaskCapacityDemand)
    (demand : TaskCapacityDemand) : Decidable (x.ConflictsResource selected demand) :=
  inferInstanceAs (Decidable (_ ∨ _ ∨ _))

/-- The reason for which a task overflows before its budget is looked at. -/
def overflowReason (x : PackingInput sha256) (s : PackState sha256) (taskId : String) :
    Option String :=
  if x.maxTasks ≤ s.selected.length then some "CAPACITY_NOT_AVAILABLE"
  else match x.demands.get? taskId with
    | none => none
    | some demand =>
      if ExceedsPool s.remaining demand then some "CAPACITY_NOT_AVAILABLE"
      else if x.ConflictsResource s.selectedDemands demand then some "RESOURCE_CONFLICT"
      else none

/-- The state in which a task overflows. -/
def overflowed (s : PackState sha256) (taskId reason : String) : PackState sha256 :=
  { s with
    readyOrder := s.readyOrder ++ [taskId]
    overflow := s.overflow ++ [taskId]
    reasons := s.reasons.set taskId reason }

/-- The budget step: the ledger with the task reserved, or `none` when the budget
is exceeded. -/
def reserveBudget (x : PackingInput sha256) (ledger : Option (TaskPlanBudgetLedger sha256))
    (taskId : String) :
    Except HarnessValidationError (Option (Option (TaskPlanBudgetLedger sha256))) :=
  match ledger with
  | none => .ok (some none)
  | some l => do
    let i ← orRaise (((x.taskInstances.getD []).get? taskId).filter fun i =>
        decide (i.fields.taskId = taskId))
      (identityConflict "joint packing task instance identity mismatch")
    match l.reserve [i] with
    | .ok l' => return some (some l')
    | .error e => if e.code = "task_plan_budget_exceeded" then return none else .error e

/-- The pool counts with a demand taken. -/
def take (remaining : PyDict String ℕ) (allocations : PyDict String ℕ) : PyDict String ℕ :=
  allocations.foldl (fun r entry => r.set entry.1 ((r.get? entry.1).getD 0 - entry.2)) remaining

/-- The value of a pool for each pool of a demand. -/
def poolValues {α : Type} (x : PackingInput sha256) (allocations : PyDict String ℕ)
    (value : CapacityPool → α) : PyDict String α :=
  allocations.filterMap fun entry => (x.pools.get? entry.1).map fun p => (entry.1, value p)

section

variable (x : PackingInput sha256)

/-- The pool reservation of a selected task. -/
def reservation (taskId reservationKey : String)
    (allocations : PyDict String ℕ) : PoolReservation where
  taskId := taskId
  allocations := allocations
  policyChecksums := x.poolValues allocations fun p => p.fields.policyChecksum sha256
  ownerScope := x.ownerScope
  reservationKey := reservationKey
  poolVersions := x.poolValues allocations fun p => p.fields.reservationVersion
  poolReservationKeys := x.poolValues allocations fun p => p.fields.reservationKey
  expiresAtMs := CapacityScopeSnapshot.earliestExpiry
    (allocations.filterMap fun entry => x.pools.get? entry.1)

/-- The state in which a task is selected. -/
def selectedTask (s : PackState sha256) (taskId reservationKey : String)
    (ledger : Option (TaskPlanBudgetLedger sha256)) : PackState sha256 :=
  let s' : PackState sha256 :=
    { s with
      readyOrder := s.readyOrder ++ [taskId]
      selected := s.selected ++ [taskId]
      ledger := ledger }
  match x.demands.get? taskId with
  | none => s'
  | some demand =>
    { s' with
      remaining := take s.remaining demand.fields.quantities
      selectedDemands := s.selectedDemands ++ [demand]
      reservations := s.reservations ++
        [x.reservation taskId reservationKey demand.fields.quantities] }

/-- One turn of the packing loop. -/
def packOne (s : PackState sha256) (taskId : String) :
    Except HarnessValidationError (PackState sha256) := do
  identifier taskId "task_id"
  require (taskId ∉ s.readyOrder) (demandInvalid "duplicate task in capacity packing")
  x.checkDemand taskId
  match x.overflowReason s taskId with
  | some reason => return overflowed s taskId reason
  | none => do
    let reservationKey := (x.reservationKeys.get? taskId).getD ""
    identifier reservationKey "reservation_key"
    let candidate ← x.reserveBudget s.ledger taskId
    match candidate with
    | none => return overflowed s taskId "BUDGET_EXCEEDED"
    | some ledger => return x.selectedTask s taskId reservationKey ledger

end

/-- A pool after the packing. -/
def poolAfter (remaining : PyDict String ℕ) (p : CapacityPool) :
    Except HarnessValidationError CapacityPool :=
  let reserved := p.fields.capacity - (remaining.get? p.fields.poolId).getD 0
  CapacityPool.construct
    { p.fields with
      reserved := reserved
      reservationVersion :=
        if reserved ≠ p.fields.reserved then p.fields.reservationVersion + 1
        else p.fields.reservationVersion }

/-- The ledger before the packing. -/
def ledgerBefore (x : PackingInput sha256) :
    Except HarnessValidationError (Option (TaskPlanBudgetLedger sha256)) :=
  match x.budgetSnapshot with
  | none => .ok none
  | some snapshot => do
    let ledger ← fromSnapshot sha256 snapshot
    return some ledger

/-- The state before the first task. -/
def start (x : PackingInput sha256) (ledger : Option (TaskPlanBudgetLedger sha256)) :
    PackState sha256 where
  readyOrder := []
  selected := []
  overflow := []
  reservations := []
  reasons := []
  selectedDemands := []
  remaining := x.pools.map fun p => (p.1, p.2.available)
  ledger := ledger

/-- The scope snapshot after the packing. -/
def capacityAfter (before : Option CapacityScopeSnapshot) (s : PackState sha256)
    (afterPools : List CapacityPool) :
    Except HarnessValidationError (Option CapacityScopeSnapshot) :=
  match before with
  | none => .ok none
  | some snapshot =>
    if s.reservations = [] then .ok (some snapshot)
    else do
      let after ← snapshot.withReservedPools afterPools
      return some after

def packFirstFit (x : PackingInput sha256) : Except HarnessValidationError FirstFitPacking := do
  identifier x.ownerScope "owner_scope"
  x.pools.forM fun entry => do
    require (entry.1 = entry.2.fields.poolId)
      (policyInvalid "capacity pools must be keyed by pool identity")
    entry.2.requireCurrent x.nowMs
  let before ← x.capacityBefore
  require (x.taskInstances.isSome = x.budgetSnapshot.isSome)
    (identityConflict "joint packing requires task instances and a budget snapshot together")
  let ledger ← x.ledgerBefore
  let s ← x.taskIds.foldlM x.packOne (x.start ledger)
  let afterPools ← x.orderedPools.mapM (poolAfter s.remaining)
  let after ← capacityAfter before s afterPools
  let packing : FirstFitPacking :=
    { readyOrder := s.readyOrder, selected := s.selected, overflow := s.overflow
      reservations := s.reservations, reasons := s.reasons
      capacityBefore := before, capacityAfter := after
      budgetBeforeChecksum := ledger.map ledgerChecksum
      budgetAfterChecksum := s.ledger.map ledgerChecksum
      admittedBudgetSnapshot := s.ledger.map TaskPlanBudgetLedger.snapshot }
  packing.check
  return packing

end PackingInput

end TaskPlan
