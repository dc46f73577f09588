/-
# The replayed read model and the live one

Folding the records of a stream never raises, every state of the fold passes the check of a
checkpoint, and its statuses are those of the live projection, one for each identity.  The
live projection is what falls behind: it raises on a stream that fits no cursor.
-/
import AgoraHub.RuntimeProjectionReducer

namespace RuntimeEvents

open Fallible GraphIdentity OutOfOrder RuntimeEventProjection List PyDict PyValue
open Text (val)
open IdentityText (ext)
open PyDict (get?)
open RuntimeEventEnvelope (replayed)
open PyValue (obj?)

/-! ## Keys of identities -/

section Keys

variable (isPrintable : Char → Bool)

/-- A text or `None` as an item of the key. -/
def optScalar : Option (Text 2048) → PyRepr.Scalar
  | none => .none
  | some t => .str t.val

theorem ofScalar_optScalar (t : Option (Text 2048)) :
    ofScalar (optScalar t) = .optStr (t.map val) := by
  cases t with
  | none => rfl
  | some t => rfl

theorem optScalar_inj {a b : Option (Text 2048)} (h : optScalar a = optScalar b) : a = b := by
  cases a with
  | none =>
    cases b with
    | none => rfl
    | some b => cases h
  | some a =>
    cases b with
    | none => cases h
    | some b => exact congrArg some (Text.ext (PyRepr.Scalar.str.inj h))

/-- What the key lists of a Graph identity. -/
def graphScalars : Option GraphExecutionIdentity → List PyRepr.Scalar
  | none => [.none, .none, .none, .none, .none, .none, .none, .none, .none]
  | some graph => [.str graph.runId.val, .str graph.graphId.val, .str graph.graphVersion.val,
      .str graph.graphRef.val, .str graph.graphChecksum.val, .str graph.nodeId.val,
      .str graph.nodeInstanceId.val, .str graph.activityId.val, .int graph.attempt]

/-- What the key lists of an identity. -/
def keyScalars (identity : RuntimeEventIdentity) : List PyRepr.Scalar :=
  graphScalars identity.graphIdentity ++
    [optScalar identity.activityId, optScalar identity.attemptId, optScalar identity.nodeId,
      optScalar identity.nodeInstanceId]

/-- The key of an identity. -/
def keyText (identity : RuntimeEventIdentity) : String :=
  PyRepr.listStr isPrintable (keyScalars identity)

theorem graphScalars_inj {a b : Option GraphExecutionIdentity}
    (h : graphScalars a = graphScalars b) : a = b := by
  cases a with
  | none =>
    cases b with
    | none => rfl
    | some b => cases (List.cons.inj h).1
  | some a =>
    cases b with
    | none => cases (List.cons.inj h).1
    | some b =>
      simp only [graphScalars, List.cons.injEq, PyRepr.Scalar.str.injEq, PyRepr.Scalar.int.injEq,
        Nat.cast_inj, and_true] at h
      obtain ⟨hrun, hgraph, hversion, href, hchecksum, hnode, hinstance, hactivity, hattempt⟩ := h
      obtain ⟨⟨_, _, _, _, _, _, _, _⟩, _, _, _, _, _⟩ := a
      obtain ⟨⟨_, _, _, _, _, _, _, _⟩, _, _, _, _, _⟩ := b
      obtain rfl := ext hrun
      obtain rfl := ext hgraph
      obtain rfl := ext hversion
      obtain rfl := ext href
      obtain rfl := ext hchecksum
      obtain rfl := ext hnode
      obtain rfl := ext hinstance
      obtain rfl := ext hactivity
      obtain rfl := hattempt
      rfl

theorem length_graphScalars (graph : Option GraphExecutionIdentity) :
    (graphScalars graph).length = 9 := by
  cases graph with
  | none => rfl
  | some graph => rfl

/-- Two identities share a key exactly when they are equal. -/
theorem keyText_inj {a b : RuntimeEventIdentity} :
    keyText isPrintable a = keyText isPrintable b ↔ a = b := by
  constructor
  · intro h
    have hscalars := PyRepr.listStr_inj.mp h
    have hlength : (graphScalars a.graphIdentity).length = (graphScalars b.graphIdentity).length := by
      rw [length_graphScalars, length_graphScalars]
    obtain ⟨hgraph, hown⟩ := append_inj hscalars hlength
    simp only [List.cons.injEq, and_true] at hown
    obtain ⟨hactivity, hattempt, hnode, hinstance⟩ := hown
    refine statusKey_inj.mp ?_
    unfold statusKey
    rw [graphScalars_inj hgraph, optScalar_inj hactivity, optScalar_inj hattempt,
      optScalar_inj hnode, optScalar_inj hinstance]
  · rintro rfl
    rfl

/-- The fields of the Graph identity of an identity. -/
def graphOf (identity : RuntimeEventIdentity) : PyDict String PyValue :=
  (identity.graphIdentity.map graphDict).getD []

theorem get?_graphDict (graph : GraphExecutionIdentity) :
    (graphDict graph).get? "run_id" = some (.str graph.runId.val) ∧
    (graphDict graph).get? "graph_id" = some (.str graph.graphId.val) ∧
    (graphDict graph).get? "graph_version" = some (.str graph.graphVersion.val) ∧
    (graphDict graph).get? "graph_ref" = some (.str graph.graphRef.val) ∧
    (graphDict graph).get? "graph_checksum" = some (.str graph.graphChecksum.val) ∧
    (graphDict graph).get? "node_id" = some (.str graph.nodeId.val) ∧
    (graphDict graph).get? "node_instance_id" = some (.str graph.nodeInstanceId.val) ∧
    (graphDict graph).get? "activity_id" = some (.str graph.activityId.val) ∧
    (graphDict graph).get? "attempt" = some (.int graph.attempt) := by
  have hget : ∀ key, (graphDict graph).get? key =
      (get? graph.fields key).map replayValue := fun key =>
    get?_replayed (by simp [PyDict.keys, GraphExecutionIdentity.fields, GraphRunIdentity.fields]) key
  refine ⟨?_, ?_, ?_, ?_, ?_, ?_, ?_, ?_, ?_⟩
  · exact hget "run_id"
  · exact hget "graph_id"
  · exact hget "graph_version"
  · exact hget "graph_ref"
  · exact hget "graph_checksum"
  · exact hget "node_id"
  · exact hget "node_instance_id"
  · exact hget "activity_id"
  · exact hget "attempt"

theorem graphDict_ne_nil (graph : GraphExecutionIdentity) : graphDict graph ≠ [] := by
  intro h
  have hget := (get?_graphDict graph).1
  rw [h] at hget
  cases hget

theorem item_of_get? {d : PyDict String PyValue} {key : String} {value : PyValue}
    (h : d.get? key = some value) : item d key = .ok value := by
  unfold item
  rw [h, orRaise_some]

/-- The key that the reducer and the check compute. -/
theorem identityKey_eq (identity : RuntimeEventIdentity) :
    identityKey isPrintable (graphOf identity) (identityDict identity) =
      .ok (keyText isPrintable identity) := by
  obtain ⟨-, hactivity, hattempt, hnode, hinstance⟩ := get?_identityDict identity
  have hown : ownFields.mapM (item (identityDict identity)) = .ok
      ([optScalar identity.activityId, optScalar identity.attemptId, optScalar identity.nodeId,
        optScalar identity.nodeInstanceId].map ofScalar) := by
    simp only [ownFields, mapM_cons, mapM_nil, item_of_get? hactivity,
      item_of_get? hattempt, item_of_get? hnode, item_of_get? hinstance, ok_bind,
      map_cons, map_nil, ofScalar_optScalar]
    rfl
  have hgraph : (graphFields.mapM fun field => if graphOf identity = [] then .ok .null else
      item (graphOf identity) field) =
        .ok ((graphScalars identity.graphIdentity).map ofScalar) := by
    unfold graphOf
    cases identity.graphIdentity with
    | none => rfl
    | some graph =>
      obtain ⟨h₁, h₂, h₃, h₄, h₅, h₆, h₇, h₈, h₉⟩ := get?_graphDict graph
      simp only [Option.map_some, Option.getD_some, if_neg (graphDict_ne_nil graph), graphFields,
        mapM_cons, mapM_nil, item_of_get? h₁, item_of_get? h₂, item_of_get? h₃,
        item_of_get? h₄, item_of_get? h₅, item_of_get? h₆, item_of_get? h₇, item_of_get? h₈,
        item_of_get? h₉, ok_bind]
      rfl
  unfold identityKey
  rw [hgraph, ok_bind, hown, ok_bind, ← map_append, listRepr_map_ofScalar]
  rfl

end Keys

/-! ## One record -/

/-- A field that agrees with that of the Graph identity stays as it is. -/
theorem bindGraphField_of_agree {graph identity : PyDict String PyValue} {field : String}
    (h : graph = [] ∨ ∃ value, graph.get? field = some value ∧ identity.get? field = some value) :
    bindGraphField graph identity field = .ok identity := by
  unfold bindGraphField
  rcases h with rfl | ⟨value, hgraph, hidentity⟩
  · rfl
  · rw [hgraph]
    dsimp only
    rw [item_of_get? hidentity, ok_bind, check_of_pos (Or.inr rfl), set_of_get? hidentity]

/-- The fields of a Graph identity are those of the identity. -/
theorem graphOf_agree (identity : RuntimeEventIdentity) :
    ∀ field ∈ boundFields, graphOf identity = [] ∨ ∃ value,
      (graphOf identity).get? field = some value ∧
      (identityDict identity).get? field = some value := by
  obtain ⟨-, hactivity, -, hnode, hinstance⟩ := get?_identityDict identity
  cases hgraph : identity.graphIdentity with
  | none =>
    intro field hfield
    left
    unfold graphOf
    rw [hgraph]
    rfl
  | some graph =>
    have hsome : graphOf identity = graphDict graph := by
      unfold graphOf
      rw [hgraph]
      rfl
    obtain ⟨hactivity', hnode', hinstance'⟩ := identity.graph_fields graph hgraph
    rw [hactivity'] at hactivity
    rw [hnode'] at hnode
    rw [hinstance'] at hinstance
    obtain ⟨-, -, -, -, -, h₆, h₇, h₈, -⟩ := get?_graphDict graph
    rw [hsome]
    intro field hfield
    right
    simp only [boundFields, mem_cons, not_mem_nil, or_false] at hfield
    rcases hfield with rfl | rfl | rfl
    · exact ⟨_, h₈, hactivity⟩
    · exact ⟨_, h₆, hnode⟩
    · exact ⟨_, h₇, hinstance⟩

/-- The Graph identity of a record binds nothing that is not bound. -/
theorem bindGraphFields_eq (identity : RuntimeEventIdentity) :
    bindGraphFields (graphOf identity) (identityDict identity) = .ok (identityDict identity) := by
  have hstep : ∀ field ∈ boundFields, bindGraphField (graphOf identity) (identityDict identity)
      field = .ok (identityDict identity) := fun field hfield =>
    bindGraphField_of_agree (graphOf_agree identity field hfield)
  simp only [boundFields, mem_cons, not_mem_nil, or_false, forall_eq_or_imp, forall_eq] at hstep
  obtain ⟨h₁, h₂, h₃⟩ := hstep
  unfold bindGraphFields boundFields
  rw [foldlM_cons, h₁, ok_bind, foldlM_cons, h₂, ok_bind, foldlM_cons, h₃, ok_bind]
  rfl

/-- The entry of the statuses that an event reports at a sequence. -/
def entryOf (event : RuntimeEventEnvelope) (sequence : ℕ) : PyDict String PyValue :=
  [("identity", .obj (identityDict event.identity)),
    ("status", .str ((event.status.map val).getD event.eventType.value)),
    ("reason_code", .optStr (event.reasonCode.map val)),
    ("last_event_id", .str event.eventId.val), ("sequence", .int sequence),
    ("updated_at", .str event.replayTime), ("refs", .arr (event.refs.map fun ref => .str ref.val))]

theorem statusEntry_eq (event : RuntimeEventEnvelope) (sequence : ℕ) (digest : HexDigest) :
    statusEntry (event.replayed sequence digest) (identityDict event.identity)
      (.optStr (event.status.map val)) (.optStr (event.reasonCode.map val))
      (.arr (event.refs.map fun ref => .str ref.val)) = .obj (entryOf event sequence) := by
  unfold statusEntry entryOf
  cases event.status with
  | none => rfl
  | some status => rfl

/-- The reducer keeps the statuses exactly when the event reports none. -/
theorem optStr_eq_null_iff (event : RuntimeEventEnvelope) :
    (optStr (event.status.map val) = .null ∧
      optStr (event.reasonCode.map val) = .null) ↔ event.reports = false := by
  unfold RuntimeEventEnvelope.reports
  cases event.status with
  | none =>
    cases event.reasonCode with
    | none | some reason => simp [optStr]
  | some status => simp [optStr]

theorem mappingOrEmpty_graphValue (identity : RuntimeEventIdentity) :
    mappingOrEmpty (graphValue identity) = .ok (graphOf identity) := by
  unfold graphValue graphOf mappingOrEmpty
  cases identity.graphIdentity with
  | none => rfl
  | some graph =>
    have htruthy : (PyValue.obj (graphDict graph)).truthy = true := by
      cases hdict : graphDict graph with
      | nil => exact absurd hdict (graphDict_ne_nil graph)
      | cons p d => rfl
    simp only [Option.map_some, Option.getD_some, htruthy, if_pos]
    rfl

/-- The statuses after the record of an event. -/
theorem reduceStatuses_eq (isPrintable : Char → Bool) (statuses : PyDict String PyValue)
    {event : RuntimeEventEnvelope} (hunified : event.eventType.legacyHarness = false) (sequence : ℕ)
    (digest : HexDigest) : reduceStatuses isPrintable statuses (event.replayed sequence digest) =
      .ok (if event.reports then
        statuses.set (keyText isPrintable event.identity) (.obj (entryOf event sequence))
      else statuses) := by
  have hget : ∀ key, event.replayPayload.get? key = _ := fun key =>
    (get?_replayPayload hunified key).trans (by rw [publishedPayload_eq hunified])
  have hidentity : event.replayPayload.get? "identity" =
      some (.obj (identityDict event.identity)) := hget "identity"
  have hstatus : event.replayPayload.get? "status" = some (.optStr (event.status.map val)) :=
    (hget "status").trans (congrArg some (replayValue_optStr _))
  have hreason : event.replayPayload.get? "reason_code" =
      some (.optStr (event.reasonCode.map val)) :=
    (hget "reason_code").trans (congrArg some (replayValue_optStr _))
  have hrefs : event.replayPayload.get? "refs" =
      some (.arr (event.refs.map fun ref => .str ref.val)) :=
    (hget "refs").trans (congrArg some (replayValue_strs val event.refs))
  have hagrees : agreesWithRecord (event.replayed sequence digest) = true := by
    have hid : event.replayPayload.get? "event_id" = none := hget "event_id"
    have htype : event.replayPayload.get? "event_type" = none := hget "event_type"
    have hstream : event.replayPayload.get? "stream_id" = none := hget "stream_id"
    simp only [agreesWithRecord, replayed, hid, htype, hstream, Option.all_none,
      Bool.and_self]
  have hmapping : ∀ fields, mapping (.obj fields) = .ok fields := fun _ => rfl
  have hpayload : (event.replayed sequence digest).payload = event.replayPayload := by
    dsimp only [replayed]
  unfold reduceStatuses
  rw [check_of_pos hagrees, hpayload, item_of_get? hidentity, ok_bind, hmapping, ok_bind,
    item_of_get? (get?_identityDict event.identity).1, ok_bind, mappingOrEmpty_graphValue, ok_bind,
    bindGraphFields_eq, ok_bind]
  rw [hstatus, hreason, Option.getD_some, Option.getD_some]
  cases hreports : event.reports with
  | false =>
    rw [if_pos ((optStr_eq_null_iff event).mpr hreports)]
    rfl
  | true =>
    have hsome := mt (optStr_eq_null_iff event).mp (by rw [hreports]; decide)
    rw [if_neg hsome, identityKey_eq, ok_bind, item_of_get? hrefs, ok_bind, statusEntry_eq]
    rfl

/-- The cursors behind `n` records of a stream. -/
def cursorsAfter (stream : String) (n : ℕ) (digest : HexDigest) : PyDict String PyValue :=
  [(stream, .obj [("stream_id", .str stream), ("sequence", .int n),
    ("checksum", .str ("sha256:" ++ digest.text))])]

/-- Behind no record there is no cursor, and behind others there is one. -/
def CursorsAt (stream : String) (n : ℕ) (cursors : PyDict String PyValue) : Prop :=
  (n = 0 ∧ cursors = []) ∨ (0 < n ∧ ∃ digest, cursors = cursorsAfter stream n digest)

variable {stream : String}

variable {cursors : PyDict String PyValue}

theorem CursorsAt.previousSequence {n : ℕ} (h : CursorsAt stream n cursors) :
    previousSequence cursors stream = .ok (some (n : ℤ)) := by
  rcases h with ⟨rfl, rfl⟩ | ⟨hpos, digest, rfl⟩
  · rfl
  · unfold RuntimeEvents.previousSequence cursorsAfter
    rw [get?_cons, if_pos rfl]
    rfl

theorem CursorsAt.set {n : ℕ} (h : CursorsAt stream n cursors) (value : PyValue) :
    cursors.set stream value = [(stream, value)] := by
  rcases h with ⟨rfl, rfl⟩ | ⟨hpos, digest, rfl⟩
  · rfl
  · unfold cursorsAfter PyDict.set
    rw [if_pos rfl]

theorem sorted_keys_stateOf (cursors statuses : PyDict String PyValue) :
    PyText.sorted (stateOf cursors statuses).keys = ["cursors", "state_schema", "statuses"] := by
  show PyText.sorted ["state_schema", "cursors", "statuses"] = _
  decide

/-- The step of the fold: a record behind the others is reduced. -/
theorem runtimeProjectionReducer_eq (isPrintable : Char → Bool)
    {cursors statuses : PyDict String PyValue} {event : RuntimeEventEnvelope}
    (hunified : event.eventType.legacyHarness = false) {n : ℕ} (digest : HexDigest)
    (hcursors : CursorsAt event.stream n cursors) :
    runtimeProjectionReducer isPrintable (stateOf cursors statuses) (event.replayed (n + 1) digest) =
      .ok (stateOf (cursorsAfter event.stream (n + 1) digest) (if event.reports then
        statuses.set (keyText isPrintable event.identity) (.obj (entryOf event (n + 1)))
      else statuses)) := by
  have hschema : PyText.sorted (stateOf cursors statuses).keys =
      ["cursors", "state_schema", "statuses"] ∧
        (stateOf cursors statuses).get? "state_schema" = some (.str stateSchema) :=
    ⟨sorted_keys_stateOf cursors statuses, rfl⟩
  have hitems : item (stateOf cursors statuses) "cursors" = .ok (.obj cursors) ∧
      item (stateOf cursors statuses) "statuses" = .ok (.obj statuses) := ⟨rfl, rfl⟩
  have hmapping : ∀ fields, mapping (.obj fields) = .ok fields := fun _ => rfl
  have hscope : cursors = [] ∨ (cursors.length = 1 ∧ event.stream ∈ cursors.keys) := by
    rcases hcursors with ⟨-, hnil⟩ | ⟨hpos, digest, rfl⟩
    · exact Or.inl hnil
    · exact Or.inr ⟨rfl, mem_singleton_self _⟩
  have hnext : (some (n : ℤ)).map (· + 1) = some ((n + 1 : ℕ) : ℤ) := by simp
  have hstream : (event.replayed (n + 1) digest).streamId = event.stream := by
    dsimp only [replayed]
  have hsequence : (event.replayed (n + 1) digest).streamSequence = n + 1 := by
    dsimp only [replayed]
  have hdata : (event.replayed (n + 1) digest).dataSchema = runtimeEventSchemaV1 := by
    dsimp only [replayed, RuntimeEventEnvelope.dataSchema]
    rw [hunified]
    rfl
  have hchecksum : (event.replayed (n + 1) digest).recordChecksum = "sha256:" ++ digest.text := by
    dsimp only [replayed]
  unfold runtimeProjectionReducer
  rw [check_of_pos hschema, hitems.1, ok_bind, hmapping, ok_bind, hitems.2, ok_bind,
    hmapping, ok_bind, hstream, check_of_pos hscope, hcursors.previousSequence, ok_bind,
    hsequence, check_of_pos hnext, hcursors.set, hdata, hchecksum]
  rw [if_neg (by simp), reduceStatuses_eq isPrintable statuses hunified, ok_bind]
  rfl

/-! ## The check of an entry -/

theorem hasFields_iff {d : PyDict String PyValue} {fields : List String} :
    hasFields d fields = true ↔ ∀ key, key ∈ d.keys ↔ key ∈ fields := by
  unfold hasFields
  rw [Bool.and_eq_true, all_eq_true, all_eq_true]
  constructor
  · rintro ⟨hsub, hsup⟩ key
    exact ⟨fun hkey => by simpa using hsub key hkey, fun hkey => by simpa using hsup key hkey⟩
  · intro h
    exact ⟨fun key hkey => by simpa using (h key).mp hkey, fun key hkey => by simpa using (h key).mpr hkey⟩

theorem mem_keys_replayed {fields : PyDict String PyValue} (key : String) :
    key ∈ PyDict.keys (sortFields (canonFields (normalizeFields fields))) ↔
      key ∈ fields.keys := by
  have hperm : (PyDict.keys (sortFields (canonFields
      (normalizeFields fields)))).Perm fields.keys := by
    refine ((perm_insertionSort _ _).map Prod.fst).trans (List.Perm.of_eq ?_)
    rw [normalizeFields_eq_map, canonFields_eq_map, map_map, map_map]
    rfl
  exact hperm.mem_iff

theorem hasFields_identityDict (identity : RuntimeEventIdentity) :
    hasFields (identityDict identity) identityFields = true := by
  refine hasFields_iff.mpr fun key => (mem_keys_replayed key).trans ?_
  rfl

theorem hasFields_graphDict (graph : GraphExecutionIdentity) :
    hasFields (graphDict graph) graphFields = true := by
  refine hasFields_iff.mpr fun key => (mem_keys_replayed key).trans ?_
  rfl

theorem isFullText_str {s : String} (h : s ≠ "") : isFullText (.str s) = true := by
  simpa [isFullText, PyValue.str?] using h

theorem isOptionalText_optStr (s : Option String) : isOptionalText (.optStr s) = true := by
  cases s with
  | none => rfl
  | some s => rfl

theorem replayTime_ne_empty (event : RuntimeEventEnvelope) : event.replayTime ≠ "" := by
  intro h
  have hlength := congrArg String.length h
  unfold RuntimeEventEnvelope.replayTime at hlength
  rw [String.length_append] at hlength
  have hz : "Z".length = 1 := rfl
  have hempty : "".length = 0 := rfl
  omega

/-- The Graph identity of an event passes. -/
theorem graphValid_eq {identity : RuntimeEventIdentity} {graph : GraphExecutionIdentity}
    (h : identity.graphIdentity = some graph) :
    graphValid (identityDict identity) (graphDict graph) = true := by
  obtain ⟨h₁, h₂, h₃, h₄, h₅, h₆, h₇, h₈, h₉⟩ := get?_graphDict graph
  have hpos : decide ((1 : ℤ) ≤ graph.attempt) = true := by
    have := graph.attempt_pos
    exact decide_eq_true (by omega)
  have hagree : ∀ field ∈ boundFields,
      (identityDict identity).get? field = (graphDict graph).get? field := by
    intro field hfield
    have hgraph : graphOf identity = graphDict graph := by
      unfold graphOf
      rw [h]
      rfl
    rcases graphOf_agree identity field hfield with hnil | ⟨value, hvalue, hvalue'⟩
    · rw [hgraph] at hnil
      exact absurd hnil (graphDict_ne_nil graph)
    · rw [hgraph] at hvalue
      rw [hvalue, hvalue']
  unfold graphValid
  simp only [Bool.and_eq_true]
  refine ⟨⟨⟨⟨hasFields_graphDict graph, ?_⟩, ?_⟩, ?_⟩, ?_⟩
  · rw [h₉]
    simpa [integer?] using hpos
  · have hfull : ∀ t : IdentityText, isFullText (.str t.val) = true := fun t =>
      isFullText_str t.val_ne_empty
    simp only [graphFields, filter_cons, filter_nil]
    simp [h₁, h₂, h₃, h₄, h₅, h₆, h₇, h₈, hfull]
  · rw [h₅]
    simpa [PyValue.str?] using graph.checksum
  · rw [all_eq_true]
    intro field hfield
    exact beq_iff_eq.mpr (hagree field hfield)

theorem keyText_ne_empty (isPrintable : Char → Bool) (identity : RuntimeEventIdentity) :
    keyText isPrintable identity ≠ "" := by
  intro h
  have hlist := congrArg String.toList h
  unfold keyText PyRepr.listStr at hlist
  rw [String.toList_ofList] at hlist
  cases hscalars : keyScalars identity with
  | nil | cons x xs =>
    rw [hscalars] at hlist
    cases hlist

theorem get?_entryOf (event : RuntimeEventEnvelope) (n : ℕ) :
    (entryOf event n).get? "identity" = some (.obj (identityDict event.identity)) ∧
    (entryOf event n).get? "status" =
      some (.str ((event.status.map val).getD event.eventType.value)) ∧
    (entryOf event n).get? "reason_code" = some (.optStr (event.reasonCode.map val)) ∧
    (entryOf event n).get? "last_event_id" = some (.str event.eventId.val) ∧
    (entryOf event n).get? "sequence" = some (.int n) ∧
    (entryOf event n).get? "updated_at" = some (.str event.replayTime) ∧
    (entryOf event n).get? "refs" = some (.arr (event.refs.map fun ref => .str ref.val)) := by
  unfold entryOf
  simp [get?_cons]

/-- The entry of an event has the form of a status. -/
theorem statusValid_eq (event : RuntimeEventEnvelope) {n last : ℕ} (hpos : 1 ≤ n) (hle : n ≤ last) :
    statusValid (entryOf event n) last = true := by
  have hstatus : isFullText (.str ((event.status.map val).getD event.eventType.value)) = true := by
    refine isFullText_str ?_
    cases event.status with
    | none => exact event.eventType.value_ne_empty
    | some status => exact status.nonempty
  have hrefs : ((event.refs.map fun ref => PyValue.str ref.val).all fun ref =>
      ref.str?.isSome) = true := by
    simp [PyValue.str?]
  have hsequence : (decide ((1 : ℤ) ≤ n) && decide ((n : ℤ) ≤ last)) = true := by
    rw [Bool.and_eq_true, decide_eq_true_eq, decide_eq_true_eq]
    omega
  have hfields : hasFields (entryOf event n) statusFields = true := by
    refine hasFields_iff.mpr fun key => ?_
    unfold entryOf statusFields PyDict.keys
    rfl
  obtain ⟨h₁, h₂, h₃, h₄, h₅, h₆, h₇⟩ := get?_entryOf event n
  unfold statusValid
  rw [hfields, h₁, h₂, h₃, h₄, h₅, h₆, h₇]
  simp only [Option.bind_some, Option.any_some, obj?, integer?, hstatus, hsequence, hrefs,
    hasFields_identityDict, isOptionalText_optStr, isFullText_str event.eventId.nonempty,
    isFullText_str (replayTime_ne_empty event), Bool.and_self]

/-- The entry of an event passes at a sequence that was reached. -/
theorem validateStatus_eq (isPrintable : Char → Bool) (event : RuntimeEventEnvelope) {n last : ℕ}
    (hpos : 1 ≤ n) (hle : n ≤ last) :
    validateStatus isPrintable last (keyText isPrintable event.identity, .obj (entryOf event n)) =
      .ok () := by
  have hmapping : ∀ fields, mapping (.obj fields) = .ok fields := fun _ => rfl
  have hform : keyText isPrintable event.identity ≠ "" ∧
      (PyValue.obj (entryOf event n)).obj?.any (statusValid · last) = true := by
    refine ⟨keyText_ne_empty isPrintable event.identity, ?_⟩
    rw [obj?, Option.any_some]
    exact statusValid_eq event hpos hle
  have hidentity := item_of_get? (get?_entryOf event n).1
  obtain ⟨hgraph, hactivity, hattempt, hnode, hinstance⟩ := get?_identityDict event.identity
  have hown : (ownFields.all fun field =>
      ((identityDict event.identity).get? field).any isOptionalText) = true := by
    simp [ownFields, hactivity, hattempt, hnode, hinstance, isOptionalText_optStr]
  have hvalid : graphValue event.identity = .null ∨
      (graphValue event.identity).obj?.any (graphValid (identityDict event.identity)) = true := by
    unfold graphValue
    cases hidentity : event.identity.graphIdentity with
    | none => exact Or.inl rfl
    | some graph =>
      right
      rw [Option.map_some, Option.getD_some, obj?, Option.any_some]
      exact graphValid_eq hidentity
  unfold validateStatus
  rw [check_of_pos hform, hmapping, ok_bind, hidentity, ok_bind, hmapping, ok_bind,
    item_of_get? hgraph, ok_bind, check_of_pos hvalid, check_of_pos hown]
  rw [mappingOrEmpty_graphValue, ok_bind, identityKey_eq, ok_bind, require_of_pos _ rfl]

/-! ## The fold -/

/-- The events as they are stored, at the sequences from one on. -/
def stored (events : List RuntimeEventEnvelope) : List RuntimeEventEnvelope :=
  events.zipIdx.map fun p => p.1.place (some p.1.streamText) (some (p.2 + 1)) (by simp)

/-- The records of the events. -/
def records (digests : ℕ → HexDigest) (events : List RuntimeEventEnvelope) : List ReplayEvent :=
  events.zipIdx.map fun p => p.1.replayed (p.2 + 1) (digests p.2)

theorem stored_append (events : List RuntimeEventEnvelope) (event : RuntimeEventEnvelope) :
    stored (events ++ [event]) = stored events ++ [event.place (some event.streamText)
      (some (events.length + 1)) (by simp)] := by
  unfold stored
  rw [zipIdx_append, map_append]
  simp

theorem records_append (digests : ℕ → HexDigest) (events : List RuntimeEventEnvelope)
    (event : RuntimeEventEnvelope) : records digests (events ++ [event]) =
      records digests events ++ [event.replayed (events.length + 1) (digests events.length)] := by
  unfold records
  rw [zipIdx_append, map_append]
  simp

theorem length_stored (events : List RuntimeEventEnvelope) :
    (stored events).length = events.length := by
  simp [stored]

variable {events : List RuntimeEventEnvelope}

/-- A stored event is one of the events, at a sequence that was reached. -/
theorem exists_of_mem_stored {events : List RuntimeEventEnvelope} {event : RuntimeEventEnvelope}
    (h : event ∈ stored events) : ∃ original ∈ events, ∃ n, 1 ≤ n ∧ n ≤ events.length ∧
      event.eventId = original.eventId ∧ event.stream = original.stream ∧
      event.sequence = some n := by
  obtain ⟨⟨original, i⟩, hmem, rfl⟩ := mem_map.mp h
  have hi := mem_zipIdx hmem
  refine ⟨original, fst_mem_of_mem_zipIdx hmem, i + 1, by omega, by omega, rfl, ?_, rfl⟩
  exact original.val_streamText

/-- A state of the fold and the events that were folded. -/
structure Folded (isPrintable : Char → Bool) (stream : String)
    (delivered : List RuntimeEventEnvelope) (cursors statuses : PyDict String PyValue) : Prop where
  cursorsAt : CursorsAt stream delivered.length cursors
  kept : ∀ identity, ∃ kept, IsLatest eventOrder (reporting (statusKey identity) delivered) kept ∧
    statuses.get? (keyText isPrintable identity) =
      kept.map fun event => .obj (entryOf event (event.sequence.getD 0))
  entries : ∀ p ∈ statuses, ∃ event ∈ delivered,
    p = (keyText isPrintable event.identity, .obj (entryOf event (event.sequence.getD 0)))

theorem eventOrder_le_of_lt {a b : RuntimeEventEnvelope}
    (h : a.sequence.getD 0 < b.sequence.getD 0) : eventOrder a ≤ eventOrder b :=
  Prod.Lex.toLex_le_toLex.mpr (Or.inl h)

/-- The statuses after a later event of the stream. -/
theorem Folded.kept_append {isPrintable : Char → Bool} {delivered : List RuntimeEventEnvelope}
    {cursors statuses : PyDict String PyValue}
    (h : Folded isPrintable stream delivered cursors statuses) {event : RuntimeEventEnvelope}
    (hlast : ∀ e ∈ delivered, e.sequence.getD 0 < event.sequence.getD 0)
    (identity : RuntimeEventIdentity) :
    ∃ kept, IsLatest eventOrder (reporting (statusKey identity) (delivered ++ [event])) kept ∧
      get? (if event.reports then statuses.set (keyText isPrintable event.identity)
        (.obj (entryOf event (event.sequence.getD 0))) else statuses) (keyText isPrintable identity) =
          kept.map fun event => .obj (entryOf event (event.sequence.getD 0)) := by
  have hsplit : reporting (statusKey identity) (delivered ++ [event]) =
      reporting (statusKey identity) delivered ++ reporting (statusKey identity) [event] :=
    filter_append ..
  obtain ⟨kept, hlatest, hget⟩ := h.kept identity
  by_cases hmine : event.reports = true ∧ event.identity = identity
  · obtain ⟨hreports, rfl⟩ := hmine
    have hone : reporting (statusKey event.identity) [event] = [event] := by
      simp [reporting, hreports]
    rw [hsplit, hone, if_pos hreports, get?_set_self]
    refine ⟨some event, ⟨by simp, fun e he => ?_⟩, rfl⟩
    rcases mem_append.mp he with he | he
    · exact eventOrder_le_of_lt (hlast e (mem_reporting.mp he).1)
    · rw [mem_singleton.mp he]
  · have hnone : reporting (statusKey identity) [event] = [] := by
      have hnot : ¬ (event.reports = true ∧ statusKey event.identity = statusKey identity) :=
        fun hboth => hmine ⟨hboth.1, statusKey_inj.mp hboth.2⟩
      refine eq_nil_iff_forall_not_mem.mpr fun e he => hnot ?_
      obtain ⟨he, hboth⟩ := mem_reporting.mp he
      exact mem_singleton.mp he ▸ hboth
    rw [hsplit, hnone, append_nil]
    refine ⟨kept, hlatest, ?_⟩
    by_cases hreports : event.reports = true
    · have hother : keyText isPrintable identity ≠ keyText isPrintable event.identity :=
        fun hkey => hmine ⟨hreports, ((keyText_inj isPrintable).mp hkey).symm⟩
      rw [if_pos hreports, get?_set_of_ne _ _ hother, hget]
    · rw [if_neg hreports, hget]

/-- The run: the records of a stream are folded without an error, and what is known of the
state is known of the events that were folded. -/
theorem folded_run (isPrintable : Char → Bool) (digests : ℕ → HexDigest) :
    ∀ {events : List RuntimeEventEnvelope}, (∀ e ∈ events, e.stream = stream) →
      (∀ e ∈ events, e.eventType.legacyHarness = false) → ∃ cursors statuses, (records digests events).foldlM (runtimeProjectionReducer isPrintable)
        initialState = .ok (stateOf cursors statuses) ∧
          Folded isPrintable stream (stored events) cursors statuses := by
  intro events
  induction events using List.reverseRecOn with
  | nil =>
    intro hstream hunified
    exact ⟨[], [], rfl, Or.inl ⟨rfl, rfl⟩, fun identity => ⟨none, rfl, rfl⟩,
      fun p hp => absurd hp not_mem_nil⟩
  | append_singleton events event ih =>
    intro hstream hunified
    obtain rfl : event.stream = stream :=
      hstream event (mem_append_right _ (mem_singleton_self _))
    rcases ih (fun e he => hstream e (mem_append_left _ he))
      (fun e he => hunified e (mem_append_left _ he)) with ⟨cursors, statuses, hrun, hfolded⟩
    have hat := hfolded.cursorsAt
    rw [length_stored] at hat
    have hstep := @runtimeProjectionReducer_eq isPrintable _ statuses _
      (hunified event (mem_append_right _ (mem_singleton_self _))) _
      (digests events.length) hat
    refine ⟨cursorsAfter event.stream (events.length + 1) (digests events.length),
      if event.reports = true then statuses.set (keyText isPrintable event.identity)
        (.obj (entryOf event (events.length + 1))) else statuses, ?_, ?_, ?_, ?_⟩
    · rw [records_append, foldlM_append, hrun, ok_bind, foldlM_cons, hstep, ok_bind]
      rfl
    · right
      rw [length_stored, length_append, length_singleton]
      exact ⟨Nat.succ_pos _, digests events.length, rfl⟩
    · intro identity
      rw [stored_append]
      refine @Folded.kept_append _ _ _ _ _ hfolded (event.place (some event.streamText)
        (some (events.length + 1)) (by simp)) (fun e he => ?_) identity
      obtain ⟨-, -, n, -, hle, -, -, hsequence⟩ := exists_of_mem_stored he
      rw [hsequence]
      exact Nat.lt_succ_of_le hle
    · intro p hp
      rw [stored_append]
      have hcases : p = (keyText isPrintable event.identity,
          PyValue.obj (entryOf event (events.length + 1))) ∨ p ∈ statuses := by
        split at hp
        · exact mem_set hp
        · exact Or.inr hp
      rcases hcases with rfl | hp
      · exact ⟨_, mem_append_right _ (mem_singleton_self _), rfl⟩
      · obtain ⟨e, he, rfl⟩ := hfolded.entries p hp
        exact ⟨e, mem_append_left _ he, rfl⟩

variable {statuses : PyDict String PyValue}

/-- A state of the fold passes the check of a checkpoint. -/
theorem Folded.validate {isPrintable : Char → Bool}
    (h : Folded isPrintable stream (stored events) cursors statuses) :
    validateRuntimeProjectionCheckpointState isPrintable (.obj (stateOf cursors statuses)) stream
      events.length = .ok () := by
  have hmapping : ∀ fields, mapping (.obj fields) = .ok fields := fun _ => rfl
  have hitems : item (stateOf cursors statuses) "cursors" = .ok (.obj cursors) ∧
      item (stateOf cursors statuses) "statuses" = .ok (.obj statuses) := ⟨rfl, rfl⟩
  have hform : (PyValue.obj (stateOf cursors statuses)).obj?.any (fun d =>
      hasFields d ["state_schema", "cursors", "statuses"] &&
      (d.get? "state_schema" == some (.str stateSchema)) &&
      ((d.get? "cursors").bind obj?).isSome &&
      ((d.get? "statuses").bind obj?).isSome) = true := by
    have hfields : hasFields (stateOf cursors statuses) ["state_schema", "cursors", "statuses"] =
        true := hasFields_iff.mpr fun key => Iff.rfl
    have hschema : (stateOf cursors statuses).get? "state_schema" = some (.str stateSchema) := rfl
    have hcursors : (stateOf cursors statuses).get? "cursors" = some (.obj cursors) := rfl
    have hstatuses : (stateOf cursors statuses).get? "statuses" = some (.obj statuses) := rfl
    rw [obj?, Option.any_some, hfields, hschema, hcursors, hstatuses]
    simp [obj?]
  unfold validateRuntimeProjectionCheckpointState
  rw [check_of_pos hform, check_of_pos (Int.natCast_nonneg _), hmapping,
    ok_bind, hitems.1, ok_bind, hmapping, ok_bind, hitems.2, ok_bind, hmapping, ok_bind]
  have hat := h.cursorsAt
  rw [length_stored] at hat
  rcases hat with ⟨hzero, rfl⟩ | ⟨hpos, digest, rfl⟩
  · -- nothing was folded
    have hnil : statuses = [] := by
      refine eq_nil_iff_forall_not_mem.mpr fun p hp => ?_
      obtain ⟨e, he, -⟩ := h.entries p hp
      rw [length_eq_zero_iff.mp hzero] at he
      exact not_mem_nil he
    rw [hzero, Nat.cast_zero, if_pos rfl, hnil, require_of_pos _ ⟨rfl, rfl⟩]
  · have hscope : hasFields (cursorsAfter stream events.length digest) [stream] = true :=
      hasFields_iff.mpr fun key => Iff.rfl
    have hcursor : ((cursorsAfter stream events.length digest).get? stream).any
        (cursorValid · stream events.length) = true := by
      unfold cursorsAfter
      rw [get?_cons, if_pos rfl, Option.any_some]
      have hchecksum : isChecksum ("sha256:" ++ digest.text).toList = true := by
        have hdigest := isChecksum_checksum (fun _ => digest) .null
        exact hdigest
      unfold cursorValid
      simpa [obj?, PyValue.str?, get?_cons, hasFields, PyDict.keys, PyValue.whole?]
        using hchecksum
    rw [if_neg (by omega), check_of_pos hscope, check_of_pos hcursor]
    refine forM_ok fun p hp => ?_
    obtain ⟨e, he, rfl⟩ := h.entries p hp
    obtain ⟨-, -, n, hn, hle, -, -, hsequence⟩ := exists_of_mem_stored he
    rw [hsequence]
    exact validateStatus_eq isPrintable e hn hle

/-! ## The live projection -/

/-- The stored events are a set of events with the sequences of one stream. -/
theorem eventSet_stored (hids : (events.map fun event => event.eventId.val).Nodup)
    (hstream : ∀ e ∈ events, e.stream = stream) : EventSet (stored events) where
  ids := by
    have hsame : (stored events).map (fun event => event.eventId.val) =
        events.map fun event => event.eventId.val := by
      unfold stored
      rw [map_map]
      calc (events.zipIdx).map _
          = ((events.zipIdx).map Prod.fst).map fun event => event.eventId.val := by
            rw [map_map]
            rfl
        _ = events.map fun event => event.eventId.val := by rw [zipIdx_map_fst]
    rw [hsame]
    exact hids
  sequences other := by
    have hsequences : (stored events).map RuntimeEventEnvelope.sequence =
        (List.range' 1 events.length).map some := by
      clear hids hstream
      induction events using List.reverseRecOn with
      | nil => rfl
      | append_singleton events event ih =>
        rw [stored_append, map_append, ih, length_append, length_singleton,
          range'_1_concat, map_append]
        simp [RuntimeEventEnvelope.place, Nat.add_comm]
    have hall : ∀ e ∈ stored events, e.stream = stream := by
      intro e he
      obtain ⟨original, hmem, -, -, -, -, hsame, -⟩ := exists_of_mem_stored he
      exact hsame.trans (hstream original hmem)
    by_cases hother : stream = other
    · refine ⟨events.length, ?_⟩
      rw [filter_eq_self.mpr fun e he => decide_eq_true ((hall e he).trans hother), hsequences]
    · refine ⟨0, ?_⟩
      rw [filter_eq_nil_iff.mpr fun e he => by simpa [hall e he] using hother]
      rfl

/-- An entry of the statuses says what a status of the live projection does. -/
def Shows (entry : PyValue) (status : RuntimeStatus) : Prop :=
  ∃ fields, entry = .obj fields ∧
    get? fields "identity" = some (replayValue status.identity.toDict) ∧
    get? fields "status" = some (.str status.status) ∧
    get? fields "reason_code" = some (.optStr (status.reasonCode.map val)) ∧
    get? fields "last_event_id" = some (.str status.lastEventId.val) ∧
    get? fields "sequence" = some (.int status.sequence) ∧
    get? fields "refs" = some (.arr (status.refs.map fun ref => .str ref.val))

theorem shows_candidate (event : RuntimeEventEnvelope) :
    Shows (.obj (entryOf event (event.sequence.getD 0))) event.candidate := by
  obtain ⟨h₁, h₂, h₃, h₄, h₅, -, h₇⟩ := get?_entryOf event (event.sequence.getD 0)
  exact ⟨_, rfl, h₁, h₂, h₃, h₄, h₅, h₇⟩

/-- The entries of the statuses are those of the live projection, each under its identity. -/
structure Agrees (isPrintable : Char → Bool) (statuses : PyDict String PyValue)
    (projection : RuntimeEventProjection) : Prop where
  entries : ∀ identity, Option.Rel Shows (statuses.get? (keyText isPrintable identity))
    (projection.status.get? (statusKey identity))
  keys : ∀ key ∈ statuses.keys, ∃ identity, key = keyText isPrintable identity

/-- What is known of both after the same events. -/
theorem Folded.agrees {isPrintable : Char → Bool} {sha256 : String → HexDigest}
    {delivered : List RuntimeEventEnvelope} {projection : RuntimeEventProjection}
    (h : Folded isPrintable stream delivered cursors statuses)
    (hlive : Delivered sha256 projection delivered) (hset : EventSet delivered) :
    Agrees isPrintable statuses projection where
  entries identity := by
    obtain ⟨kept, hlatest, hget⟩ := h.kept identity
    obtain ⟨kept', hlatest', hget'⟩ := hlive.status (statusKey identity)
    obtain rfl : kept = kept' := hlatest.unique hlatest' fun a ha b hb horder =>
      hset.eq_of_eventOrder (mem_reporting.mp ha).1 (mem_reporting.mp hb).1 horder
    rw [hget, hget']
    cases kept with
    | none => exact Option.Rel.none
    | some event => exact Option.Rel.some (shows_candidate event)
  keys key hkey := by
    obtain ⟨p, hp, rfl⟩ := mem_map.mp hkey
    obtain ⟨e, -, rfl⟩ := h.entries p hp
    exact ⟨e.identity, rfl⟩

/-- The replayed read model and the live one: after every prefix of the events the records
are folded without an error, the state passes the check, the live projection has accepted
the same events, and the entries agree; two identities share an entry exactly when they
are equal. -/
structure Projects (sha256 : String → HexDigest) (isPrintable : Char → Bool)
    (digests : ℕ → HexDigest) (stream : String) (events : List RuntimeEventEnvelope) : Prop where
  prefixes : ∀ n ≤ events.length, ∃ cursors statuses projection,
    (records digests (events.take n)).foldlM (runtimeProjectionReducer isPrintable) initialState =
      .ok (stateOf cursors statuses) ∧
    validateRuntimeProjectionCheckpointState isPrintable (.obj (stateOf cursors statuses)) stream n =
      .ok () ∧
    (stored (events.take n)).foldlM (rebuildStep sha256) {} = .ok projection ∧
    Agrees isPrintable statuses projection
  keys : ∀ a ∈ events, ∀ b ∈ events,
    keyText isPrintable a.identity = keyText isPrintable b.identity ↔ a.identity = b.identity

/-- The two models agree exactly on the streams that fit a cursor. -/
theorem projects_iff (sha256 : String → HexDigest) (isPrintable : Char → Bool)
    (digests : ℕ → HexDigest) {stream : String} {events : List RuntimeEventEnvelope}
    (hne : events ≠ []) (hstream : ∀ e ∈ events, e.stream = stream)
    (hunified : ∀ e ∈ events, e.eventType.legacyHarness = false)
    (hids : (events.map fun event => event.eventId.val).Nodup) :
    Projects sha256 isPrintable digests stream events ↔ stream.length ≤ 512 := by
  constructor
  · intro h
    by_contra hlong
    obtain ⟨first, rest, rfl⟩ := exists_cons_of_ne_nil hne
    obtain rfl : first.stream = stream := hstream first mem_cons_self
    obtain ⟨-, -, projection, -, -, hlive, -⟩ := h.prefixes 1 (Nat.succ_le_succ (Nat.zero_le _))
    have hfails := @apply_first sha256 (first.place (some first.streamText)
      (some 1) (by simp)) rfl (fun hfits => hlong (first.val_streamText ▸ hfits))
    have hone : stored ((first :: rest).take 1) = [first.place (some first.streamText) (some 1)
      (by simp)] := rfl
    rw [hone, foldlM_cons, rebuildStep, hfails] at hlive
    cases hlive
  · intro hfits
    refine ⟨fun n hn => ?_, fun a ha b hb => keyText_inj isPrintable⟩
    have hpre : ∀ e ∈ events.take n, e.stream = stream := fun e he =>
      hstream e (mem_of_mem_take he)
    have hset : EventSet (stored (events.take n)) :=
      eventSet_stored (hids.sublist ((take_sublist n events).map _)) hpre
    have hshort : ∀ e ∈ stored (events.take n), e.stream.length ≤ 512 := by
      intro e he
      obtain ⟨original, hmem, -, -, -, -, hsame, -⟩ := exists_of_mem_stored he
      rw [hsame, hpre original hmem]
      exact hfits
    have hpre' : ∀ e ∈ events.take n, e.eventType.legacyHarness = false := fun e he =>
      hunified e (mem_of_mem_take he)
    obtain ⟨cursors, statuses, hrun, hfolded⟩ := folded_run isPrintable digests hpre hpre'
    rcases @delivered_run sha256 _ hset hshort _ (List.Subset.refl _) with ⟨hlive, hok⟩
    have hvalid := hfolded.validate
    rw [length_take, Nat.min_eq_left hn] at hvalid
    exact ⟨cursors, statuses, _, hrun, hvalid, hok, hfolded.agrees hlive hset⟩

/-! ## One heartbeat -/

theorem projects_heartbeat : Projects sha256Hex (fun _ => true) (fun _ => sha256Hex "record")
    "worker-1" [heartbeat workerStream] :=
  (projects_iff sha256Hex (fun _ => true) (fun _ => sha256Hex "record") (cons_ne_nil _ _)
    (fun _ he => mem_singleton.mp he ▸ rfl) (fun _ he => mem_singleton.mp he ▸ rfl)
    (nodup_singleton _)).mpr (by decide)

/-- The live projection raises on a stream that fits no cursor. -/
theorem not_projects_longStream : ¬ Projects sha256Hex (fun _ => true) (fun _ => sha256Hex "record")
    longStream.val [heartbeat longStream] := by
  intro h
  rcases h.prefixes 1 le_rfl with ⟨-, -, projection, -, -, hlive, -⟩
  have hlong : ¬ longStream.val.length ≤ 512 := by
    rw [show longStream.val = String.ofList (List.replicate 513 's') from rfl, RuntimeEventProjection.length_replicate]
    omega
  have hfails := @apply_first sha256Hex ((heartbeat longStream).place
    (some (heartbeat longStream).streamText) (some 1) (by simp)) rfl hlong
  have hone : stored ([heartbeat longStream].take 1) = [(heartbeat longStream).place
    (some (heartbeat longStream).streamText) (some 1) (by simp)] := rfl
  rw [hone, foldlM_cons, rebuildStep, hfails] at hlive
  cases hlive

end RuntimeEvents
