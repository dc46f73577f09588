/-
# The projection of runtime events

The read model that is built by applying events: which events were seen, by identity and
by sequence, a cursor behind the contiguous prefix of each stream, and the latest status
of each identity.  An application that raises leaves what it has written so far.
-/
import AgoraHub.PyDict
import AgoraHub.RuntimeEvent

namespace RuntimeEvents

open Fallible GraphIdentity

structure RuntimeStatus where
  identity : RuntimeEventIdentity
  status : String
  reasonCode : Option (Text 128)
  lastEventId : Text 512
  sequence : ℕ
  updatedAt : Datetime
  refs : List (Text 2048)
  deriving DecidableEq

/-- What `_status_key` returns. -/
abbrev StatusKey := Option GraphExecutionIdentity × Option (Text 2048) × Option (Text 2048) ×
  Option (Text 2048) × Option (Text 2048)

def statusKey (identity : RuntimeEventIdentity) : StatusKey :=
  (identity.graphIdentity, identity.activityId, identity.attemptId, identity.nodeId,
    identity.nodeInstanceId)

theorem statusKey_inj {a b : RuntimeEventIdentity} : statusKey a = statusKey b ↔ a = b := by
  constructor
  · intro h
    cases a
    cases b
    simp only [statusKey, Prod.mk.injEq] at h
    simpa using h
  · rintro rfl
    rfl

def statusOrder (status : RuntimeStatus) : ℕ ×ₗ Datetime ×ₗ String :=
  toLex (status.sequence, toLex (status.updatedAt, status.lastEventId.val))

namespace RuntimeEventEnvelope

/-- An event with a status or a reason reports on its identity. -/
def reports (event : RuntimeEventEnvelope) : Bool :=
  event.status.isSome || event.reasonCode.isSome

/-- The status that an event reports. -/
def candidate (event : RuntimeEventEnvelope) : RuntimeStatus where
  identity := event.identity
  status := (event.status.map Text.val).getD event.eventType.value
  reasonCode := event.reasonCode
  lastEventId := event.eventId
  sequence := event.sequence.getD 0
  updatedAt := event.occurredAt
  refs := event.refs

end RuntimeEventEnvelope

structure RuntimeEventProjection where
  seen : PyDict String RuntimeEventEnvelope := []
  sequenceSeen : PyDict (String × ℕ) RuntimeEventEnvelope := []
  status : PyDict StatusKey RuntimeStatus := []
  cursors : PyDict String RuntimeEventCursor := []

namespace RuntimeEventProjection

section Apply

variable (sha256 : String → HexDigest)

/-- The run over the sequences behind a cursor, for as long as they were seen. -/
def advance (sequenceSeen : PyDict (String × ℕ) RuntimeEventEnvelope) (stream : String) :
    ℕ → ℕ → Option RuntimeEventCursor → Except ProjectionError (Option RuntimeEventCursor)
  | 0, _, lastContiguous => .ok lastContiguous
  | fuel + 1, nextSequence, lastContiguous =>
    match sequenceSeen.get? (stream, nextSequence) with
    | none => .ok lastContiguous
    | some contiguous => do
      let cursor ← RuntimeEventCursor.construct stream nextSequence
        (contiguous.toDict.checksum sha256)
      advance sequenceSeen stream fuel (nextSequence + 1) (some cursor)

/-- The status of an event is kept unless a later one is known. -/
def keepStatus (status : PyDict StatusKey RuntimeStatus) (event : RuntimeEventEnvelope) :
    PyDict StatusKey RuntimeStatus :=
  if event.reports then
    match status.get? (statusKey event.identity) with
    | none => status.set (statusKey event.identity) event.candidate
    | some previous =>
      if statusOrder previous ≤ statusOrder event.candidate then
        status.set (statusKey event.identity) event.candidate
      else status
  else status

/-- The end of `apply`: the event is seen, and its status is kept. -/
def commit (projection : RuntimeEventProjection) (event : RuntimeEventEnvelope) :
    RuntimeEventProjection :=
  { projection with
    seen := projection.seen.set event.eventId.val event
    status := keepStatus projection.status event }

/-- A cursor is moved forward only. -/
def keepCursor (cursors : PyDict String RuntimeEventCursor) (stream : String)
    (lastContiguous : Option RuntimeEventCursor) : PyDict String RuntimeEventCursor :=
  match lastContiguous with
  | none => cursors
  | some cursor =>
    if (cursors.get? stream).all fun current => decide (current.sequence < cursor.sequence) then
      cursors.set stream cursor
    else cursors

def apply (projection : RuntimeEventProjection) (event : RuntimeEventEnvelope) :
    Except ProjectionError Bool × RuntimeEventProjection :=
  match projection.seen.get? event.eventId.val with
  | some previous =>
    if previous ≠ event then
      (.error (.identityConflict "duplicate event id has different content"), projection)
    else (.ok false, projection)
  | none =>
    match event.sequence with
    | none => (.ok true, projection.commit event)
    | some sequence =>
      match projection.sequenceSeen.get? (event.stream, sequence) with
      | some previous =>
        if previous ≠ event then
          (.error (.identityConflict "runtime stream sequence has conflicting event identity"),
            projection)
        else (.ok false, projection)
      | none =>
        -- the sequence is noted before the cursor is made, which can raise
        let noted := { projection with
          sequenceSeen := projection.sequenceSeen.set (event.stream, sequence) event }
        let current := noted.cursors.get? event.stream
        match advance sha256 noted.sequenceSeen event.stream (noted.sequenceSeen.length + 1)
            ((current.map RuntimeEventCursor.sequence).getD 0 + 1) current with
        | .error e => (.error e, noted)
        | .ok lastContiguous =>
          (.ok true, commit { noted with
            cursors := keepCursor noted.cursors event.stream lastContiguous } event)

/-- The projection after events are applied one after another, those that raise included. -/
def applyAll (projection : RuntimeEventProjection) (events : List RuntimeEventEnvelope) :
    RuntimeEventProjection :=
  events.foldl (fun projection event => (projection.apply sha256 event).2) projection

/-- The order in which `rebuild` applies events. -/
def rebuildLe (a b : RuntimeEventEnvelope) : Prop :=
  toLex (a.stream, toLex (a.sequence.getD 0, toLex (a.occurredAt, a.eventId.val))) ≤
    toLex (b.stream, toLex (b.sequence.getD 0, toLex (b.occurredAt, b.eventId.val)))

instance : DecidableRel rebuildLe := fun _ _ => inferInstanceAs (Decidable (_ ≤ _))

/-- One event of a rebuild: what is raised stops it. -/
def rebuildStep (candidate : RuntimeEventProjection) (event : RuntimeEventEnvelope) :
    Except ProjectionError RuntimeEventProjection :=
  match candidate.apply sha256 event with
  | (.error e, _) => .error e
  | (.ok _, candidate) => .ok candidate

/-- `rebuild`: the candidate, which takes the place of the projection when no event raises. -/
def rebuild (events : List RuntimeEventEnvelope) : Except ProjectionError RuntimeEventProjection :=
  (events.insertionSort rebuildLe).foldlM (rebuildStep sha256) {}

end Apply

end RuntimeEventProjection

end RuntimeEvents
