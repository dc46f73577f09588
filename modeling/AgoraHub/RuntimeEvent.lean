/-
# Runtime events

The envelope of a redacted runtime fact, the identity it is about and the cursor behind a
stream of such facts, with the checks their constructors make.
-/
import AgoraHub.GraphIdentity
import AgoraHub.PyTime
import AgoraHub.PyNumber

namespace RuntimeEvents

open Fallible GraphIdentity

/-- What the projection, the store and their cursors raise. -/
inductive ProjectionError where
  | valueError (message : String)
  | identityConflict (message : String)
  | cursorConflict (message : String)
  deriving DecidableEq

/-! ## Texts -/

/-- A trimmed text of bounded length that is not empty. -/
structure Text (bound : ℕ) where
  val : String
  trimmed : PyText.strip val = val
  nonempty : val ≠ ""
  bounded : val.length ≤ bound

def text (value fieldName : String) (maxLength : ℕ := 512) :
    Except ProjectionError (Text maxLength) :=
  if hempty : PyText.strip value = "" then .error (.valueError (fieldName ++ " is required"))
  else if hlength : (PyText.strip value).length ≤ maxLength then
    .ok ⟨PyText.strip value, PyText.strip_strip value, hempty, hlength⟩
  else .error (.valueError (fieldName ++ " exceeds its bounded length"))

namespace Text

variable {bound : ℕ}

theorem ext {a b : Text bound} (h : a.val = b.val) : a = b := by
  cases a
  cases b
  simpa using h

instance : DecidableEq (Text bound) := fun _ _ => decidable_of_iff _ ⟨ext, congrArg val⟩

/-- The text of a literal. -/
def ofLiteral (val : String)
    (h : decide (PyText.strip val = val ∧ val ≠ "" ∧ val.length ≤ bound) = true) : Text bound :=
  ⟨val, (of_decide_eq_true h).1, (of_decide_eq_true h).2.1, (of_decide_eq_true h).2.2⟩

/-- A text of an identity. -/
def ofIdentity (t : IdentityText) (h : 512 ≤ bound) : Text bound :=
  ⟨t.val, t.strip_val, t.val_ne_empty, t.length_le.trans h⟩

end Text

/-- A trimmed text is accepted exactly when it fits. -/
theorem text_eq {value fieldName : String} {maxLength : ℕ} (htrimmed : PyText.strip value = value)
    (hempty : value ≠ "") : text value fieldName maxLength =
      if h : value.length ≤ maxLength then .ok ⟨value, htrimmed, hempty, h⟩
      else .error (.valueError (fieldName ++ " exceeds its bounded length")) := by
  unfold text
  simp only [htrimmed, hempty, dif_neg, not_false_eq_true]

/-! ## Event types -/

inductive RuntimeEventType where
  | turnStarted | turnStopped | turnAborted
  | toolRequested | approvalRequested | approvalDecided
  | executionStarted | executionTerminal
  | childSpawned | childStatus | childHeartbeat | childTerminal
  | contextCompactionPlanned | contextCompactionCommitted | contextCompactionRejected
  | workerHeartbeat | workerStatus
  | timeout | cancelRequested | cancellationConfirmed | indeterminate | runtimeError
  deriving DecidableEq

namespace RuntimeEventType

/-- The text of an event type. -/
def value : RuntimeEventType → String
  | turnStarted => "turn_started"
  | turnStopped => "turn_stopped"
  | turnAborted => "turn_aborted"
  | toolRequested => "tool_requested"
  | approvalRequested => "approval_requested"
  | approvalDecided => "approval_decided"
  | executionStarted => "execution_started"
  | executionTerminal => "execution_terminal"
  | childSpawned => "child_spawned"
  | childStatus => "child_status"
  | childHeartbeat => "child_heartbeat"
  | childTerminal => "child_terminal"
  | contextCompactionPlanned => "context_compaction_planned"
  | contextCompactionCommitted => "context_compaction_committed"
  | contextCompactionRejected => "context_compaction_rejected"
  | workerHeartbeat => "worker_heartbeat"
  | workerStatus => "worker_status"
  | timeout => "timeout"
  | cancelRequested => "cancel_requested"
  | cancellationConfirmed => "cancellation_confirmed"
  | indeterminate => "indeterminate"
  | runtimeError => "runtime_error"

/-- `_REASON_REQUIRED_EVENT_TYPES` -/
def reasonRequired : RuntimeEventType → Bool
  | turnAborted | approvalDecided | executionTerminal | childTerminal | timeout | cancelRequested
  | cancellationConfirmed | indeterminate | runtimeError => true
  | _ => false

/-- `_LEGACY_HARNESS_RUNTIME_TYPES` -/
def legacyHarness : RuntimeEventType → Bool
  | contextCompactionPlanned | contextCompactionRejected => true
  | _ => false

theorem value_ne_empty (eventType : RuntimeEventType) : eventType.value ≠ "" := by
  cases eventType <;> decide

end RuntimeEventType

/-! ## Identities -/

/-- `RuntimeEventIdentity`: where there is a Graph identity, three fields are its own. -/
structure RuntimeEventIdentity where
  graphIdentity : Option GraphExecutionIdentity := none
  activityId : Option (Text 2048) := none
  attemptId : Option (Text 2048) := none
  nodeId : Option (Text 2048) := none
  nodeInstanceId : Option (Text 2048) := none
  graph_fields : ∀ graph ∈ graphIdentity, activityId.map Text.val = some graph.activityId.val ∧
    nodeId.map Text.val = some graph.nodeId.val ∧
      nodeInstanceId.map Text.val = some graph.nodeInstanceId.val := by simp
  deriving DecidableEq

namespace RuntimeEventIdentity

def runId (identity : RuntimeEventIdentity) : Option String :=
  identity.graphIdentity.map (·.runId.val)

def toDict (identity : RuntimeEventIdentity) : PyValue :=
  .obj [("graph_identity", (identity.graphIdentity.map GraphExecutionIdentity.toDict).getD .null),
    ("activity_id", .optStr (identity.activityId.map Text.val)),
    ("attempt_id", .optStr (identity.attemptId.map Text.val)),
    ("node_id", .optStr (identity.nodeId.map Text.val)),
    ("node_instance_id", .optStr (identity.nodeInstanceId.map Text.val))]

/-- A field that an identity supplies agrees with the one of the Graph identity. -/
def agree (supplied : Option (Text 2048)) (expected : IdentityText) : Bool :=
  supplied.all fun value => value.val == expected.val

/-- `RuntimeEventIdentity.__post_init__`, of texts that are normalised. -/
def construct (graphIdentity : Option GraphExecutionIdentity)
    (activityId attemptId nodeId nodeInstanceId : Option (Text 2048)) :
    Except ProjectionError RuntimeEventIdentity :=
  match graphIdentity with
  | none => .ok { activityId, attemptId, nodeId, nodeInstanceId }
  | some graph => do
    require (agree activityId graph.activityId) (.identityConflict
      "runtime identity field activity_id conflicts with Graph identity")
    require (agree nodeId graph.nodeId) (.identityConflict
      "runtime identity field node_id conflicts with Graph identity")
    require (agree nodeInstanceId graph.nodeInstanceId) (.identityConflict
      "runtime identity field node_instance_id conflicts with Graph identity")
    .ok
      { graphIdentity := some graph
        activityId := some (.ofIdentity graph.activityId (by decide))
        attemptId := attemptId
        nodeId := some (.ofIdentity graph.nodeId (by decide))
        nodeInstanceId := some (.ofIdentity graph.nodeInstanceId (by decide))
        graph_fields := by
          rintro graph' hgraph
          cases hgraph
          exact ⟨rfl, rfl, rfl⟩ }

end RuntimeEventIdentity

/-! ## Envelopes -/

/-- `_REASON_CODE` -/
def isReasonCode : List Char → Bool
  | [] => false
  | c :: cs => c.isAlphanum && decide (cs.length ≤ 127) &&
      cs.all fun d => d.isAlphanum || ['.', '_', ':', '-'].contains d

def runtimeEventSchemaV1 : String := "newsroom.runtime-event/v1"

def maxRuntimeRefs : ℕ := 64

structure RuntimeEventEnvelope where
  eventId : Text 512
  eventType : RuntimeEventType
  occurredAt : Datetime
  identity : RuntimeEventIdentity := {}
  status : Option (Text 2048) := none
  reasonCode : Option (Text 128) := none
  sequence : Option ℕ := none
  streamId : Option (Text 2048) := none
  refs : List (Text 2048) := []
  checksums : List (String × String) := []
  metadata : List (String × PyValue) := []
  source : Text 512
  sequence_pos : ∀ n ∈ sequence, 1 ≤ n := by simp
  reason_form : ∀ reason ∈ reasonCode, isReasonCode reason.val.toList = true := by simp
  reason_required : eventType.reasonRequired = true → reasonCode ≠ none := by decide
  refs_distinct : refs.Nodup := by simp
  refs_bounded : refs.length ≤ maxRuntimeRefs := by simp
  deriving DecidableEq

namespace RuntimeEventEnvelope

def runId (event : RuntimeEventEnvelope) : Option String := event.identity.runId

section

variable (event : RuntimeEventEnvelope)

/-- `event.stream_id or event.run_id or "runtime"` -/
def stream : String :=
  ((event.streamId.map Text.val).or event.runId).getD "runtime"

/-- The fields of `to_dict`. -/
def fields : List (String × PyValue) :=
  [("schema_version", .str runtimeEventSchemaV1), ("event_id", .str event.eventId.val),
    ("event_type", .str event.eventType.value), ("occurred_at", .str event.occurredAt.isoformat),
    ("identity", event.identity.toDict), ("status", .optStr (event.status.map Text.val)),
    ("reason_code", .optStr (event.reasonCode.map Text.val)),
    ("sequence", (event.sequence.map fun n => PyValue.int n).getD .null),
    ("stream_id", .optStr (event.streamId.map Text.val)),
    ("refs", .arr (event.refs.map fun ref => .str ref.val)),
    ("checksums", .obj (event.checksums.map fun entry => (entry.1, .str entry.2))),
    ("metadata", .obj event.metadata), ("source", .str event.source.val)]

def toDict : PyValue := .obj event.fields

end

theorem strip_stream (event : RuntimeEventEnvelope) :
    PyText.strip event.stream = event.stream ∧ event.stream ≠ "" := by
  unfold stream runId RuntimeEventIdentity.runId
  cases event.streamId with
  | some streamId => exact ⟨streamId.trimmed, streamId.nonempty⟩
  | none =>
    cases event.identity.graphIdentity with
    | some graph => exact ⟨graph.runId.strip_val, graph.runId.val_ne_empty⟩
    | none => exact ⟨by decide +kernel, by decide⟩

end RuntimeEventEnvelope

/-! ## Cursors -/

/-- `_CHECKSUM` of this module, which ignores case: the long s is another form of the letter. -/
def isChecksumIgnoringCase : List Char → Bool
  | [] => false
  | c :: cs => (c == 's' || c == 'ſ') && isChecksum ('s' :: cs)

structure RuntimeEventCursor where
  streamId : Text 512
  sequence : ℕ
  checksum : String
  checksum_form : isChecksumIgnoringCase checksum.toList = true
  deriving DecidableEq

namespace RuntimeEventCursor

/-- `RuntimeEventCursor.__post_init__` -/
def construct (streamId : String) (sequence : ℤ) (checksum : String) :
    Except ProjectionError RuntimeEventCursor := do
  let streamId ← text streamId "stream_id"
  require (0 ≤ sequence) (.valueError "cursor sequence must be non-negative")
  let checksum ← text checksum "checksum" 80
  if h : isChecksumIgnoringCase checksum.val.toLower.toList = true then
    .ok ⟨streamId, sequence.toNat, checksum.val.toLower, h⟩
  else .error (.valueError "cursor checksum must use sha256 format")

def encode (cursor : RuntimeEventCursor) : String :=
  cursor.streamId.val ++ ":" ++ toString cursor.sequence ++ ":" ++ cursor.checksum

def maxCursorLength : ℕ := 512

/-- `value.rsplit(":", 1)`: what is before and behind the last colon. -/
def rsplitColon (value : List Char) : Option (List Char × List Char) :=
  let behind := (value.reverse.takeWhile (· ≠ ':')).reverse
  match value.reverse.dropWhile (· ≠ ':') with
  | [] => none
  | _ :: before => some (before.reverse, behind)

def decode (value : String) : Except ProjectionError RuntimeEventCursor := do
  let raw ← text value "cursor" maxCursorLength
  -- `raw.rsplit(":", 2)` splits at the last colon, and what is before it once more
  let (before, last) ← orRaise (rsplitColon raw.val.toList) (.cursorConflict "cursor is malformed")
  let (first, middle) ← orRaise (rsplitColon before) (.cursorConflict "cursor is malformed")
  let sequence ← orRaise (PyNumber.int? (String.ofList middle))
    (.cursorConflict "cursor sequence is invalid")
  construct (String.ofList first) sequence (String.ofList last)

end RuntimeEventCursor

end RuntimeEvents
