/-
# The replayed read model of runtime events

The reducer that folds verified records into a checkpoint state, and the check that such a
state passes before it is resumed from.  Both work on plain values: what they look up can be
missing or of another kind, and then they raise.
-/
import AgoraHub.PyObject
import AgoraHub.RuntimeEventStore

namespace RuntimeEvents

open Fallible GraphIdentity List PyValue
open Text (val)
open GraphExecutionIdentity (toDict)

/-- What a reducer and the check of a checkpoint raise. -/
inductive ReducerError where
  | valueError (message : String)
  | keyError (key : String)
  | typeError
  deriving DecidableEq

/-- `RUNTIME_PROJECTION_STATE_SCHEMA` -/
def stateSchema : String := "newsroom.runtime-projection-state/v1"

/-- What a reducer sees of a `ReplayEvent`. -/
structure ReplayEvent where
  eventId : String
  eventType : String
  dataSchema : String
  streamId : String
  streamSequence : ℕ
  occurredAt : String
  payload : PyDict String PyValue
  recordChecksum : String

/-- `d[key]` -/
def item (d : PyDict String PyValue) (key : String) : Except ReducerError PyValue :=
  orRaise (d.get? key) (.keyError key)

/-- `dict(value)`, and the access to a mapping. -/
def mapping (value : PyValue) : Except ReducerError (PyDict String PyValue) :=
  orRaise value.obj? .typeError

/-- `dict(value or {})` -/
def mappingOrEmpty (value : PyValue) : Except ReducerError (PyDict String PyValue) :=
  if value.truthy then mapping value else .ok []

/-! ## The reducer -/

/-- The fields of an identity that are those of its Graph identity. -/
def boundFields : List String := ["activity_id", "node_id", "node_instance_id"]

/-- The fields of a Graph identity, in the order the key lists them. -/
def graphFields : List String :=
  ["run_id", "graph_id", "graph_version", "graph_ref", "graph_checksum", "node_id",
    "node_instance_id", "activity_id", "attempt"]

/-- The fields of an identity that the key lists. -/
def ownFields : List String := ["activity_id", "attempt_id", "node_id", "node_instance_id"]

/-- The key of an identity: `str([...])` of its fields and of those of its Graph identity. -/
def identityKey (isPrintable : Char → Bool) (graphIdentity identity : PyDict String PyValue) :
    Except ReducerError String := do
  let graph ← graphFields.mapM fun field =>
    if graphIdentity = [] then .ok .null else item graphIdentity field
  let own ← ownFields.mapM (item identity)
  .ok (listRepr isPrintable (graph ++ own))

/-- The sequence of the cursor of a stream, where it is a whole number. -/
def previousSequence (cursors : PyDict String PyValue) (streamId : String) :
    Except ReducerError (Option ℤ) :=
  match (cursors.get? streamId).getD .null with
  | .null => .ok (some 0)
  | cursor => do
    let sequence ← item (← mapping cursor) "sequence"
    match sequence with
    | .int _ | .bool _ | .float _ => .ok sequence.whole?
    | _ => .error .typeError

/-- A field of the Graph identity takes the place of that of the identity. -/
def bindGraphField (graphIdentity identity : PyDict String PyValue) (field : String) :
    Except ReducerError (PyDict String PyValue) :=
  match graphIdentity.get? field with
  | none => .ok identity
  | some value => do
    let supplied ← item identity field
    require (supplied = .null ∨ supplied = value)
      (.valueError "runtime identity conflicts with Graph identity")
    .ok (identity.set field value)

/-- The fields of the Graph identity take the place of those of the identity. -/
def bindGraphFields (graphIdentity identity : PyDict String PyValue) :
    Except ReducerError (PyDict String PyValue) :=
  boundFields.foldlM (bindGraphField graphIdentity) identity

/-- A state of the reducer. -/
def stateOf (cursors statuses : PyDict String PyValue) : PyDict String PyValue :=
  [("state_schema", .str stateSchema), ("cursors", .obj cursors), ("statuses", .obj statuses)]

/-- The initial state of the reducer. -/
def initialState : PyDict String PyValue := stateOf [] []

/-- The payload says nothing else than the record. -/
def agreesWithRecord (event : ReplayEvent) : Bool :=
  (event.payload.get? "event_id").all (· == .str event.eventId) &&
  (event.payload.get? "event_type").all (· == .str event.eventType) &&
  (event.payload.get? "stream_id").all fun stream => stream == .null || stream == .str event.streamId

/-- The status that a record reports. -/
def statusEntry (event : ReplayEvent) (identity : PyDict String PyValue) (status reasonCode refs :
    PyValue) : PyValue :=
  .obj [("identity", .obj identity),
    ("status", if status = .null then .str event.eventType else status),
    ("reason_code", reasonCode), ("last_event_id", .str event.eventId),
    ("sequence", .int event.streamSequence), ("updated_at", .str event.occurredAt), ("refs", refs)]

/-- The statuses after a record of a runtime event. -/
def reduceStatuses (isPrintable : Char → Bool) (statuses : PyDict String PyValue)
    (event : ReplayEvent) : Except ReducerError (PyDict String PyValue) := do
  require (agreesWithRecord event = true)
    (.valueError "runtime payload conflicts with canonical envelope")
  let identity ← mapping (← item event.payload "identity")
  let graphIdentity ← mappingOrEmpty (← item identity "graph_identity")
  let identity ← bindGraphFields graphIdentity identity
  let status := (event.payload.get? "status").getD .null
  let reasonCode := (event.payload.get? "reason_code").getD .null
  if status = .null ∧ reasonCode = .null then
    .ok statuses
  else do
    let key ← identityKey isPrintable graphIdentity identity
    let refs ← item event.payload "refs"
    .ok (statuses.set key (statusEntry event identity status reasonCode refs))

def runtimeProjectionReducer (isPrintable : Char → Bool) (state : PyDict String PyValue)
    (event : ReplayEvent) : Except ReducerError (PyDict String PyValue) := do
  require (PyText.sorted state.keys = ["cursors", "state_schema", "statuses"] ∧
    state.get? "state_schema" = some (.str stateSchema))
    (.valueError "runtime projection state schema is invalid")
  let cursors ← mapping (← item state "cursors")
  let statuses ← mapping (← item state "statuses")
  require (cursors = [] ∨ (cursors.length = 1 ∧ event.streamId ∈ cursors.keys))
    (.valueError "runtime projection stream scope changed")
  let previous ← previousSequence cursors event.streamId
  require (previous.map (· + 1) = some (event.streamSequence : ℤ))
    (.valueError "runtime projection sequence is not contiguous")
  let cursors := cursors.set event.streamId (.obj [("stream_id", .str event.streamId),
    ("sequence", .int event.streamSequence), ("checksum", .str event.recordChecksum)])
  if event.dataSchema ≠ runtimeEventSchemaV1 then
    .ok (stateOf cursors statuses)
  else do
    let statuses ← reduceStatuses isPrintable statuses event
    .ok (stateOf cursors statuses)

/-! ## The check of a checkpoint -/

/-- `set(d) == set(fields)` -/
def hasFields (d : PyDict String PyValue) (fields : List String) : Bool :=
  d.keys.all (fields.contains ·) && fields.all (d.keys.contains ·)

/-- A text, or nothing. -/
def isOptionalText (value : PyValue) : Bool := value == .null || value.str?.isSome

/-- A text that is not empty. -/
def isFullText (value : PyValue) : Bool := value.str?.any (· != "")

/-- `isinstance(value, int)` and no `bool`. -/
def integer? : PyValue → Option ℤ
  | .int n => some n
  | _ => none

/-- The check of the cursor of a checkpoint. -/
def cursorValid (cursor : PyValue) (streamId : String) (lastSequence : ℤ) : Bool :=
  cursor.obj?.any fun d =>
    hasFields d ["stream_id", "sequence", "checksum"] &&
    (d.get? "stream_id" == some (.str streamId)) &&
    (d.get? "sequence").any (fun sequence => sequence.whole? == some lastSequence &&
      (match sequence with | .bool _ => false | _ => true)) &&
    ((d.get? "checksum").bind PyValue.str?).any fun checksum => isChecksum checksum.toList

/-- The fields of a status. -/
def statusFields : List String :=
  ["identity", "status", "reason_code", "last_event_id", "sequence", "updated_at", "refs"]

/-- The fields of an identity. -/
def identityFields : List String :=
  ["graph_identity", "activity_id", "attempt_id", "node_id", "node_instance_id"]

/-- The check of the form of a status. -/
def statusValid (status : PyDict String PyValue) (lastSequence : ℤ) : Bool :=
  hasFields status statusFields &&
  ((status.get? "identity").bind PyValue.obj?).any (hasFields · identityFields) &&
  (status.get? "status").any isFullText &&
  (status.get? "reason_code").any isOptionalText &&
  (status.get? "last_event_id").any isFullText &&
  ((status.get? "sequence").bind integer?).any (fun n => decide (1 ≤ n) && decide (n ≤ lastSequence)) &&
  (status.get? "updated_at").any isFullText &&
  (status.get? "refs").any fun refs => match refs with
    | .arr items => items.all fun ref => ref.str?.isSome
    | _ => false

/-- The check of the Graph identity of a status. -/
def graphValid (identity graphIdentity : PyDict String PyValue) : Bool :=
  hasFields graphIdentity graphFields &&
  ((graphIdentity.get? "attempt").bind integer?).any (fun n => decide (1 ≤ n)) &&
  (graphFields.filter (· != "attempt")).all (fun field => (graphIdentity.get? field).any isFullText) &&
  ((graphIdentity.get? "graph_checksum").bind PyValue.str?).any
    (fun checksum => isChecksum checksum.toList) &&
  boundFields.all fun field => identity.get? field == graphIdentity.get? field

/-- The check of one status of a checkpoint. -/
def validateStatus (isPrintable : Char → Bool) (lastSequence : ℤ) (entry : String × PyValue) :
    Except ReducerError Unit := do
  require (entry.1 ≠ "" ∧ entry.2.obj?.any (statusValid · lastSequence) = true)
    (.valueError "runtime projection checkpoint status is invalid")
  let status ← mapping entry.2
  let identity ← mapping (← item status "identity")
  let graphValue ← item identity "graph_identity"
  require (graphValue = .null ∨ graphValue.obj?.any (graphValid identity) = true)
    (.valueError "runtime projection checkpoint identity is invalid")
  require (ownFields.all (fun field => (identity.get? field).any isOptionalText) = true)
    (.valueError "runtime projection checkpoint identity is invalid")
  let graphIdentity ← mappingOrEmpty graphValue
  let expected ← identityKey isPrintable graphIdentity identity
  require (entry.1 = expected) (.valueError "runtime projection checkpoint identity key is invalid")

def validateRuntimeProjectionCheckpointState (isPrintable : Char → Bool) (state : PyValue)
    (streamId : String) (lastSequence : ℤ) : Except ReducerError Unit := do
  require (state.obj?.any (fun d => hasFields d ["state_schema", "cursors", "statuses"] &&
      (d.get? "state_schema" == some (.str stateSchema)) &&
      ((d.get? "cursors").bind PyValue.obj?).isSome &&
      ((d.get? "statuses").bind PyValue.obj?).isSome) = true)
    (.valueError "runtime projection checkpoint state schema is invalid")
  require (0 ≤ lastSequence) (.valueError "runtime projection checkpoint sequence is invalid")
  let state ← mapping state
  let cursors ← mapping (← item state "cursors")
  let statuses ← mapping (← item state "statuses")
  if lastSequence = 0 then
    require (cursors = [] ∧ statuses = [])
      (.valueError "empty runtime projection checkpoint has state")
  else do
    require (hasFields cursors [streamId] = true)
      (.valueError "runtime projection checkpoint stream scope changed")
    require ((cursors.get? streamId).any (cursorValid · streamId lastSequence) = true)
      (.valueError "runtime projection checkpoint cursor is invalid")
    statuses.forM (validateStatus isPrintable lastSequence)

/-! ## The records of runtime events -/

namespace RuntimeEventEnvelope

section

variable (event : RuntimeEventEnvelope)

/-- The payload that `runtime_event_publish_request` publishes. -/
def publishedPayload : PyDict String PyValue :=
  if event.eventType.legacyHarness then
    PyDict.update [("projection_schema", .str "harness-safe-summary/v1")] event.metadata
  else event.fields.filter fun p =>
    decide (p.1 ∉ ["event_id", "event_type", "occurred_at", "stream_id", "source"])

/-- The schema that `runtime_event_publish_request` publishes under. -/
def dataSchema : String :=
  if event.eventType.legacyHarness then "newsroom.harness-graph-event/v1" else runtimeEventSchemaV1

/-- The payload as it is replayed: normalised when it was published, and sorted. -/
def replayPayload : PyDict String PyValue :=
  sortFields (canonFields (normalizeFields event.publishedPayload))

/-- `occurred_at.isoformat().replace("+00:00", "Z")`: the offset is what the text ends in. -/
def replayTime : String :=
  let written := event.occurredAt.isoformat.toList
  String.ofList (written.take (written.length - 6)) ++ "Z"

/-- The record of an event, published and stored at a sequence, as a reducer sees it. -/
def replayed (sequence : ℕ) (digest : HexDigest) : ReplayEvent where
  eventId := event.eventId.val
  eventType := event.eventType.value
  dataSchema := event.dataSchema
  streamId := event.stream
  streamSequence := sequence
  occurredAt := event.replayTime
  payload := event.replayPayload
  recordChecksum := "sha256:" ++ digest.text

end

end RuntimeEventEnvelope

/-! ## What the reducer looks up -/

section Lookups

/-- The value that is replayed. -/
def replayValue (value : PyValue) : PyValue := value.normalize.canon

theorem get?_sortFields {fields : PyDict String PyValue} (h : fields.keys.Nodup) (key : String) :
    PyDict.get? (sortFields fields) key = fields.get? key :=
  (PyDict.get?_of_perm (perm_insertionSort _ fields).symm h key).symm

/-- A lookup in replayed fields. -/
theorem get?_replayed {fields : PyDict String PyValue} (h : fields.keys.Nodup) (key : String) :
    PyDict.get? (sortFields (canonFields (normalizeFields fields))) key =
      (fields.get? key).map replayValue := by
  have hfields : canonFields (normalizeFields fields) =
      fields.map fun p => (p.1, replayValue p.2) := by
    rw [normalizeFields_eq_map, canonFields_eq_map, map_map]
    rfl
  have hkeys : PyDict.keys (fields.map fun p => (p.1, replayValue p.2)) = fields.keys := by
    rw [PyDict.keys, PyDict.keys, map_map]
    rfl
  rw [hfields, get?_sortFields (hkeys ▸ h), PyDict.get?_map]

variable {event : RuntimeEventEnvelope}

theorem publishedPayload_eq (h : event.eventType.legacyHarness = false) : event.publishedPayload =
    [("schema_version", .str runtimeEventSchemaV1), ("identity", event.identity.toDict),
      ("status", .optStr (event.status.map val)),
      ("reason_code", .optStr (event.reasonCode.map val)),
      ("sequence", (event.sequence.map fun n => PyValue.int n).getD .null),
      ("refs", .arr (event.refs.map fun ref => .str ref.val)),
      ("checksums", .obj (event.checksums.map fun entry => (entry.1, .str entry.2))),
      ("metadata", .obj event.metadata)] := by
  unfold RuntimeEventEnvelope.publishedPayload
  rw [h]
  rfl

theorem get?_replayPayload (h : event.eventType.legacyHarness = false) (key : String) :
    event.replayPayload.get? key = (event.publishedPayload.get? key).map replayValue := by
  refine get?_replayed ?_ key
  rw [publishedPayload_eq h]
  simp [PyDict.keys]

theorem replayValue_optStr (s : Option String) : replayValue (.optStr s) = .optStr s := by
  cases s with
  | none => rfl
  | some s => rfl

theorem replayValue_strs {α : Type} (f : α → String) (xs : List α) :
    replayValue (.arr (xs.map fun x => .str (f x))) = .arr (xs.map fun x => .str (f x)) := by
  unfold replayValue
  rw [PyValue.normalize, PyValue.canon, normalizeItems_eq_map, canonItems_eq_map,
    map_map, map_map]
  rfl

/-- The fields of an identity as they are replayed. -/
def identityDict (identity : RuntimeEventIdentity) : PyDict String PyValue :=
  sortFields (canonFields (normalizeFields
    [("graph_identity", (identity.graphIdentity.map toDict).getD .null),
      ("activity_id", .optStr (identity.activityId.map val)),
      ("attempt_id", .optStr (identity.attemptId.map val)),
      ("node_id", .optStr (identity.nodeId.map val)),
      ("node_instance_id", .optStr (identity.nodeInstanceId.map val))]))

/-- The fields of a Graph identity as they are replayed. -/
def graphDict (graph : GraphExecutionIdentity) : PyDict String PyValue :=
  sortFields (canonFields (normalizeFields graph.fields))

/-- The Graph identity of an identity, as it is replayed. -/
def graphValue (identity : RuntimeEventIdentity) : PyValue :=
  (identity.graphIdentity.map fun graph => PyValue.obj (graphDict graph)).getD .null

theorem get?_identityDict (identity : RuntimeEventIdentity) :
    (identityDict identity).get? "graph_identity" = some (graphValue identity) ∧
    (identityDict identity).get? "activity_id" = some (.optStr (identity.activityId.map val)) ∧
    (identityDict identity).get? "attempt_id" = some (.optStr (identity.attemptId.map val)) ∧
    (identityDict identity).get? "node_id" = some (.optStr (identity.nodeId.map val)) ∧
    (identityDict identity).get? "node_instance_id" =
      some (.optStr (identity.nodeInstanceId.map val)) := by
  have hget : ∀ key, (identityDict identity).get? key = _ := fun key =>
    get?_replayed (by simp [PyDict.keys]) key
  have hgraph : replayValue ((identity.graphIdentity.map toDict).getD .null) =
      graphValue identity := by
    unfold graphValue
    cases identity.graphIdentity with
    | none => rfl
    | some graph => rfl
  refine ⟨?_, ?_, ?_, ?_, ?_⟩
  · exact (hget "graph_identity").trans (congrArg some hgraph)
  · exact (hget "activity_id").trans (congrArg some (replayValue_optStr _))
  · exact (hget "attempt_id").trans (congrArg some (replayValue_optStr _))
  · exact (hget "node_id").trans (congrArg some (replayValue_optStr _))
  · exact (hget "node_instance_id").trans (congrArg some (replayValue_optStr _))

end Lookups

end RuntimeEvents
