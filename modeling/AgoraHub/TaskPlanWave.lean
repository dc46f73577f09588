/-
# Dispatch waves

A wave of a dispatch group: what its constructor checks, and the identifier that
is derived from its content.  The reservations and the packing evidence of a wave
are given by what the wave reads of them.
-/
import AgoraHub.PyJsonText
import AgoraHub.TaskPlanCanonical

namespace TaskPlan

open Fallible

/-! ## States -/

inductive DispatchWaveState where
  | planned
  | admitted
  | dispatching
  | running
  | terminal
  deriving DecidableEq

inductive DispatchWaveTerminalOutcome where
  | succeeded
  | partialFailed
  | failed
  | cancelled
  | indeterminate
  | reclaimed
  | deadlineExceeded
  deriving DecidableEq

/-- The text of a terminal outcome. -/
def DispatchWaveTerminalOutcome.value : DispatchWaveTerminalOutcome → String
  | succeeded => "SUCCEEDED"
  | partialFailed => "PARTIAL_FAILED"
  | failed => "FAILED"
  | cancelled => "CANCELLED"
  | indeterminate => "INDETERMINATE"
  | reclaimed => "RECLAIMED"
  | deadlineExceeded => "DEADLINE_EXCEEDED"

/-- The texts of the terminal outcomes. -/
def terminalOutcomeValues : List String :=
  [DispatchWaveTerminalOutcome.succeeded, .partialFailed, .failed, .cancelled, .indeterminate,
    .reclaimed, .deadlineExceeded].map DispatchWaveTerminalOutcome.value

/-! ## What a wave reads -/

/-- `TaskReservation`, as far as a wave reads it; `capacityReservation` is the admission
snapshot of its pool reservation. -/
structure TaskReservation where
  taskId : String
  idempotencyKey : String
  budget : PyDict String ℕ
  capacityAllocations : PyDict String ℕ
  capacityPolicyChecksums : PyDict String String
  capacityReservation : Option Json

/-- The entry of a reservation in the content of a wave. -/
def TaskReservation.admissionEntry (r : TaskReservation) : Json :=
  .obj ([("task_id", .str r.taskId), ("idempotency_key", .str r.idempotencyKey),
      ("budget", .obj (r.budget.map fun p => (p.1, .int p.2)))] ++
    (if r.capacityAllocations = [] then []
      else [("capacity_allocations", .obj (r.capacityAllocations.map fun p => (p.1, .int p.2)))]) ++
    (if r.capacityPolicyChecksums = [] then []
      else [("capacity_policy_checksums",
        .obj (r.capacityPolicyChecksums.map fun p => (p.1, .str p.2)))]) ++
    (r.capacityReservation.map fun snapshot => ("capacity_reservation", snapshot)).toList)

/-- A `FirstFitPacking`, as far as a wave reads it: its dictionary, and the tasks it selects
and reserves pools for. -/
structure PackingEvidence where
  selected : List String
  reservedTaskIds : List String
  dict : Json

/-! ## Waves -/

/-- The fields of `DispatchWave`. -/
structure DispatchWave where
  groupId : String
  ordinal : ℤ
  taskIds : List String
  effectiveParallelism : ℤ
  reservations : List TaskReservation
  state : DispatchWaveState
  terminalOutcome : Option DispatchWaveTerminalOutcome
  schemaVersion : String
  executionMode : String
  packing : PackingEvidence

namespace DispatchWave

/-- `DISPATCH_WAVE_SCHEMA`. -/
def schema : String := "agora.harness-dispatch-wave/v4"

/-- A schema error without details. -/
def schemaInvalid (message : String) : HarnessValidationError := ⟨message, "PLAN_SCHEMA_INVALID", []⟩

section

variable (w : DispatchWave)

/-- The checks of the reservations and the packing of a wave. -/
def checkEvidence : Except HarnessValidationError Unit := do
  require (w.reservations.length = w.taskIds.length ∧ (∀ r ∈ w.reservations, r.taskId ∈ w.taskIds) ∧
      ∀ t ∈ w.taskIds, t ∈ w.reservations.map TaskReservation.taskId)
    (schemaInvalid "wave reservations must cover exactly its tasks")
  require ((w.taskIds.length : ℤ) ≤ w.effectiveParallelism)
    ⟨"wave exceeds its admitted parallelism", "TASK_WAVE_CAPACITY_EXCEEDED", []⟩
  require (w.packing.selected = w.taskIds ∧ w.packing.reservedTaskIds =
      (w.reservations.filter fun r => decide (r.capacityAllocations ≠ [])).map
        TaskReservation.taskId)
    ⟨"dispatch wave requires matching joint packing evidence",
      "TASK_WAVE_PACKING_EVIDENCE_INVALID", []⟩

/-- The checks of the state and the mode of a wave. -/
def checkMode : Except HarnessValidationError Unit := do
  require (w.state = .terminal → w.terminalOutcome.isSome = true)
    ⟨"terminal wave requires a terminal outcome", "TASK_WAVE_TERMINAL_OUTCOME_REQUIRED", []⟩
  require (w.state ≠ .terminal → w.terminalOutcome = none)
    ⟨"non-terminal wave must not carry a terminal outcome",
      "TASK_WAVE_TERMINAL_OUTCOME_INVALID", []⟩
  require (w.schemaVersion = schema) (schemaInvalid "unsupported dispatch wave schema")
  require (w.executionMode ∈ ["SUPERVISED", "SERIAL", "INLINE_TEST"])
    (schemaInvalid "unsupported wave execution mode")
  require (w.executionMode = "SERIAL" → w.effectiveParallelism = 1 ∧ w.taskIds.length = 1)
    ⟨"serial wave must have one task and slot", "TASK_GROUP_SERIAL_WAVE_INVALID", []⟩

/-- `DispatchWave.__post_init__`: the reservations are put in the order of the tasks. -/
def construct : Except HarnessValidationError DispatchWave := do
  identifier w.groupId "group_id"
  require (1 ≤ w.ordinal) (schemaInvalid "wave ordinal must be positive")
  w.taskIds.forM (identifier · "task_id")
  require (w.taskIds ≠ [] ∧ w.taskIds.Nodup)
    (schemaInvalid "wave task ids must be unique and non-empty")
  require (1 ≤ w.effectiveParallelism) (schemaInvalid "wave parallelism must be positive")
  checkEvidence w
  checkMode w
  return { w with
    reservations := w.taskIds.filterMap fun t =>
      w.reservations.find? fun r => decide (r.taskId = t) }

/-- The content that identifies a wave: not its state. -/
def content : Json :=
  .obj [("schema_version", .str w.schemaVersion), ("group_id", .str w.groupId),
    ("ordinal", .int w.ordinal), ("task_ids", .arr (w.taskIds.map .str)),
    ("effective_parallelism", .int w.effectiveParallelism),
    ("execution_mode", .str w.executionMode),
    ("reservations", .arr (w.reservations.map TaskReservation.admissionEntry)),
    ("packing", w.packing.dict)]

end

/-- The first 32 digits of the digest of a text. -/
def shortDigest (sha256 : String → HexDigest) (text : String) : String :=
  String.ofList ((sha256 text).text.toList.take 32)

def waveId (sha256 : String → HexDigest) (w : DispatchWave) : String :=
  "dw_" ++ shortDigest sha256 w.content.dumps

/-- The mapping a wave is read from: its fields and the identifier it claims to have. -/
structure Payload where
  suppliedWaveId : String
  fields : DispatchWave

def fromDict (sha256 : String → HexDigest) (p : Payload) :
    Except HarnessValidationError DispatchWave := do
  identifier p.suppliedWaveId "wave_id"
  let wave ← construct p.fields
  require (p.suppliedWaveId = waveId sha256 wave)
    ⟨"DispatchWave id does not match canonical content", "TASK_WAVE_IDENTITY_MISMATCH", []⟩
  return wave

theorem groupId_eq_of_content {w w' : DispatchWave} (h : w.content.dumps = w'.content.dumps) :
    w.groupId = w'.groupId := by
  have hcanon : Json.canon (.str w.groupId) = Json.canon (.str w'.groupId) := by
    apply Json.field_eq_of_dumps_eq "group_id" h
    · simp
    · intro z hz
      simpa using hz
  exact Json.str.inj hcanon

/-- Without a collision of digests, waves with one identifier belong to the same group. -/
theorem groupId_eq_of_waveId {sha256 : String → HexDigest} {w w' : DispatchWave}
    (hcollision : shortDigest sha256 w.content.dumps = shortDigest sha256 w'.content.dumps →
      w.content.dumps = w'.content.dumps) (h : waveId sha256 w = waveId sha256 w') :
    w.groupId = w'.groupId := by
  unfold waveId at h
  rw [← String.toList_inj, String.toList_append, String.toList_append,
    List.append_cancel_left_eq] at h
  exact groupId_eq_of_content (hcollision (String.toList_inj.mp h))

end DispatchWave

end TaskPlan
