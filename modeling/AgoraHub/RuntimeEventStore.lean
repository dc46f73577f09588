/-
# Pages of runtime events

The append-only store in memory, the pages that are read from it, and the walk of an
operator over the pages of a stream.  The walk with the cursors themselves returns the
stream.  The walk with their texts does not: a checksum has a colon of its own, so no text
that is written from a cursor is read back.
-/
import AgoraHub.RuntimeProjectionRuns

namespace RuntimeEvents

open Fallible GraphIdentity List Option

/-! ## The store -/

namespace RuntimeEventEnvelope

/-- `replace(event, stream_id=..., sequence=...)` -/
def place (event : RuntimeEventEnvelope) (streamId : Option (Text 2048)) (sequence : Option ℕ)
    (h : ∀ n ∈ sequence, 1 ≤ n) : RuntimeEventEnvelope :=
  { event with streamId := streamId, sequence := sequence, sequence_pos := h }

/-- The stream of an event, as the text it is. -/
def streamText (event : RuntimeEventEnvelope) : Text 2048 :=
  event.streamId.getD <| match event.identity.graphIdentity with
    | some graph => .ofIdentity graph.runId (by decide : 2048 ≥ 512)
    | none => .ofLiteral "runtime" (by decide +kernel)

theorem val_streamText (event : RuntimeEventEnvelope) : event.streamText.val = event.stream := by
  unfold streamText stream runId RuntimeEventIdentity.runId
  cases event.streamId with
  | some streamId => rfl
  | none =>
    cases event.identity.graphIdentity with
    | some graph => rfl
    | none => rfl

end RuntimeEventEnvelope

structure RuntimeEventPage where
  events : List RuntimeEventEnvelope
  cursor : Option RuntimeEventCursor
  hasMore : Bool := false

structure InMemoryRuntimeEventStore where
  events : PyDict String (List RuntimeEventEnvelope) := []
  byId : PyDict String RuntimeEventEnvelope := []

namespace InMemoryRuntimeEventStore

section

variable (store : InMemoryRuntimeEventStore)

/-- The events of a stream. -/
def stream (streamId : String) : List RuntimeEventEnvelope :=
  (store.events.get? streamId).getD []

/-- The event that an append adds. -/
def accepted (event : RuntimeEventEnvelope) : RuntimeEventEnvelope :=
  event.place (some event.streamText) (some ((store.stream event.stream).length + 1)) (by simp)

def append (event : RuntimeEventEnvelope) :
    Except ProjectionError RuntimeEventEnvelope × InMemoryRuntimeEventStore :=
  match store.byId.get? event.eventId.val with
  | some existing =>
    let comparable := event.place (event.streamId.or existing.streamId)
      (event.sequence.or existing.sequence) (by
        intro n hn
        rcases or_eq_some_iff.mp hn with hn | ⟨-, hn⟩
        · exact event.sequence_pos n hn
        · exact existing.sequence_pos n hn)
    if existing ≠ comparable then
      (.error (.identityConflict "event identity already has different content"), store)
    else (.ok existing, store)
  | none =>
    let accepted := store.accepted event
    (.ok accepted,
      { events := store.events.set event.stream (store.stream event.stream ++ [accepted])
        byId := store.byId.set accepted.eventId.val accepted })

end

/-- The store after events are appended, those that are refused included. -/
def appendAll (events : List RuntimeEventEnvelope) : InMemoryRuntimeEventStore :=
  events.foldl (fun store event => (store.append event).2) {}

section Reads

variable (sha256 : String → HexDigest) (store : InMemoryRuntimeEventStore)

/-- The cursor behind a page. -/
def cursorBehind (streamId : String) (page : List RuntimeEventEnvelope) :
    Except ProjectionError (Option RuntimeEventCursor) :=
  match page.getLast? with
  | none => .ok none
  | some last => do
    let cursor ← RuntimeEventCursor.construct streamId (last.sequence.getD 0 : ℕ)
      (last.toDict.checksum sha256)
    .ok (some cursor)

def read (streamId : String) (afterSequence : ℤ := 0) (limit : ℤ := 100) :
    Except ProjectionError RuntimeEventPage := do
  require (1 ≤ limit ∧ limit ≤ 1000) (.valueError "limit must be between 1 and 1000")
  require (0 ≤ afterSequence) (.valueError "after_sequence must be non-negative")
  let stream := store.stream streamId
  let page := (stream.filter fun item =>
    decide (afterSequence < (item.sequence.getD 0 : ℕ))).take limit.toNat
  let cursor ← cursorBehind sha256 streamId page
  .ok ⟨page, cursor, decide (afterSequence + page.length < stream.length)⟩

def validateRuntimeCursor (cursor : RuntimeEventCursor) : Except ProjectionError Unit := do
  if cursor.sequence = 0 then return
  let page ← store.read sha256 cursor.streamId.val (cursor.sequence - 1 : ℕ) 1
  match page.events with
  | [] => .error (.cursorConflict "cursor no longer matches canonical history")
  | event :: _ =>
    require (event.streamId.map Text.val = some cursor.streamId.val ∧
      event.sequence = some cursor.sequence ∧ event.toDict.checksum sha256 = cursor.checksum)
      (.cursorConflict "cursor no longer matches canonical history")

/-- What a query resumes behind: a cursor or the text of one. -/
inductive After where
  | byCursor (cursor : RuntimeEventCursor)
  | byText (value : String)

/-- The cursor that a query resumes behind. -/
def After.decode : After → Except ProjectionError RuntimeEventCursor
  | .byCursor cursor => .ok cursor
  | .byText value => RuntimeEventCursor.decode value

def timeline (streamId : String) (after : Option After) (limit : ℤ) :
    Except ProjectionError RuntimeEventPage := do
  let afterSequence : ℕ ← match after with
    | none => pure 0
    | some after => do
      let cursor ← after.decode
      require (cursor.streamId.val = streamId)
        (.cursorConflict "cursor stream does not match query stream")
      store.validateRuntimeCursor sha256 cursor
      pure cursor.sequence
  store.read sha256 streamId afterSequence limit

end Reads

/-! ## The events of a stream -/

/-- Every event stands in its stream at its sequence. -/
def Placed (store : InMemoryRuntimeEventStore) : Prop :=
  ∀ streamId i, ∀ event ∈ (store.stream streamId)[i]?,
    event.streamId.map Text.val = some streamId ∧ event.sequence = some (i + 1)

theorem placed_empty : Placed {} := by
  intro streamId i event h
  simp [stream] at h

/-- An append adds to one stream, or nothing at all. -/
theorem stream_append (store : InMemoryRuntimeEventStore) (event : RuntimeEventEnvelope) :
    (∀ streamId, (store.append event).2.stream streamId = store.stream streamId) ∨
      ((store.append event).2.stream event.stream =
          store.stream event.stream ++ [store.accepted event] ∧
        ∀ streamId ≠ event.stream, (store.append event).2.stream streamId = store.stream streamId) := by
  cases hid : store.byId.get? event.eventId.val with
  | some existing =>
    left
    intro streamId
    unfold InMemoryRuntimeEventStore.append
    rw [hid]
    dsimp only
    split
    · rfl
    · rfl
  | none =>
    right
    have hnew : (store.append event).2.events =
        store.events.set event.stream (store.stream event.stream ++ [store.accepted event]) := by
      unfold InMemoryRuntimeEventStore.append
      rw [hid]
    constructor
    · rw [stream, hnew, PyDict.get?_set_self, getD_some]
    · intro streamId hne
      rw [stream, hnew, PyDict.get?_set_of_ne _ _ hne]
      rfl

/-- Appending keeps every event in its place. -/
theorem Placed.append {store : InMemoryRuntimeEventStore} (h : store.Placed)
    (event : RuntimeEventEnvelope) : (store.append event).2.Placed := by
  intro streamId i placed hplaced
  rcases store.stream_append event with hsame | ⟨hnew, hother⟩
  · rw [hsame] at hplaced
    exact h _ i placed hplaced
  · by_cases hstream : streamId = event.stream
    · subst hstream
      rw [hnew] at hplaced
      rcases Nat.lt_trichotomy i (store.stream event.stream).length with hlt | rfl | hgt
      · rw [getElem?_append_left hlt] at hplaced
        exact h _ i placed hplaced
      · rw [getElem?_concat_length] at hplaced
        cases hplaced
        exact ⟨congrArg some event.val_streamText, rfl⟩
      · rw [getElem?_eq_none (by simpa using hgt)] at hplaced
        cases hplaced
    · rw [hother _ hstream] at hplaced
      exact h _ i placed hplaced

theorem placed_appendAll (events : List RuntimeEventEnvelope) : (appendAll events).Placed := by
  unfold appendAll
  induction events using List.reverseRecOn with
  | nil => exact placed_empty
  | append_singleton events event ih =>
    rw [foldl_append]
    exact ih.append event

section Pages

variable {store : InMemoryRuntimeEventStore} {streamId : String}

/-- The events behind a sequence. -/
theorem Placed.filter_stream (h : store.Placed) (after : ℕ) :
    ((store.stream streamId).filter fun item => decide ((after : ℤ) < (item.sequence.getD 0 : ℕ))) =
      (store.stream streamId).drop after := by
  have hsplit := take_append_drop after (store.stream streamId)
  have hbefore : ∀ item ∈ (store.stream streamId).take after,
      ¬ (after : ℤ) < (item.sequence.getD 0 : ℕ) := by
    intro item hitem
    rcases mem_iff_getElem?.mp hitem with ⟨i, hi⟩
    have hlt : i < after := by
      by_contra hge
      rw [getElem?_take_eq_none (by omega)] at hi
      cases hi
    rw [getElem?_take_of_lt hlt] at hi
    rw [(h _ i item hi).2]
    simp only [getD_some]
    omega
  have hbehind : ∀ item ∈ (store.stream streamId).drop after,
      (after : ℤ) < (item.sequence.getD 0 : ℕ) := by
    intro item hitem
    rcases mem_iff_getElem?.mp hitem with ⟨i, hi⟩
    rw [getElem?_drop] at hi
    rw [(h _ _ item hi).2]
    simp only [getD_some]
    omega
  conv_lhs => rw [← hsplit]
  rw [filter_append, filter_eq_nil_iff.mpr (by simpa using hbefore), nil_append,
    filter_eq_self.mpr (by simpa using hbehind)]

variable {sha256 : String → HexDigest} {limit : ℤ}

/-- A cursor is at an event of its stream. -/
def Identifies (sha256 : String → HexDigest) (store : InMemoryRuntimeEventStore)
    (cursor : RuntimeEventCursor) : Prop :=
  ∃ i event, cursor.sequence = i + 1 ∧ (store.stream cursor.streamId.val)[i]? = some event ∧
    cursor.checksum = event.toDict.checksum sha256

/-- The cursor behind the first `n` events of a stream. -/
def CursorBehind (sha256 : String → HexDigest) (store : InMemoryRuntimeEventStore)
    (streamId : String) (n : ℕ) : Option RuntimeEventCursor → Prop
  | none => n = 0
  | some cursor => cursor.streamId.val = streamId ∧ cursor.sequence = n ∧
      store.Identifies sha256 cursor

/-- The page behind the first events of a stream, at most as many as the limit. -/
theorem Placed.read_eq (h : store.Placed) (htrimmed : PyText.strip streamId = streamId)
    (hempty : streamId ≠ "") (hfits : streamId.length ≤ 512) (hlimit : 1 ≤ limit ∧ limit ≤ 1000)
    (after : ℕ) : ∃ page cursor, store.read sha256 streamId after limit =
        .ok ⟨page, cursor, decide (after + page.length < (store.stream streamId).length)⟩ ∧
      page = ((store.stream streamId).drop after).take limit.toNat ∧ (page = [] → cursor = none) ∧
      (page ≠ [] → CursorBehind sha256 store streamId (after + page.length) cursor ∧
        cursor.isSome = true) := by
  set page := ((store.stream streamId).drop after).take limit.toNat with hpage
  have hread : store.read sha256 streamId after limit = (do
      let cursor ← cursorBehind sha256 streamId page
      .ok ⟨page, cursor, decide ((after : ℤ) + page.length < (store.stream streamId).length)⟩) := by
    unfold InMemoryRuntimeEventStore.read
    rw [check_of_pos hlimit, check_of_pos (Int.natCast_nonneg after)]
    dsimp only
    rw [h.filter_stream]
  have hmore : decide ((after : ℤ) + page.length < (store.stream streamId).length) =
      decide (after + page.length < (store.stream streamId).length) := by
    refine decide_eq_decide.mpr ?_
    omega
  rw [hread, hmore]
  cases hlast : page.getLast? with
  | none =>
    have hnil : page = [] := getLast?_eq_none_iff.mp hlast
    refine ⟨page, none, ?_, rfl, fun _ => rfl, fun hne => absurd hnil hne⟩
    rw [cursorBehind, hlast, ok_bind]
  | some last =>
    have hne : page ≠ [] := by
      intro hnil
      rw [hnil] at hlast
      cases hlast
    have hpos : 0 < page.length := length_pos_iff.mpr hne
    have hat : (store.stream streamId)[after + (page.length - 1)]? = some last := by
      rw [getLast?_eq_getElem?, hpage, getElem?_take_of_lt, getElem?_drop] at hlast
      · exact hlast
      · rw [← hpage]
        have hle : page.length ≤ limit.toNat := length_take_le _ _
        omega
    have hplace := h _ _ last hat
    have hsequence : last.sequence.getD 0 = after + page.length := by
      rw [hplace.2, getD_some]
      omega
    rw [cursorBehind, hlast]
    dsimp only
    rw [hsequence, construct_eq sha256 _ last.toDict htrimmed hempty, dif_pos hfits, ok_bind,
      ok_bind]
    refine ⟨page, _, rfl, rfl, fun hnil => absurd hnil hne, fun _ => ⟨⟨rfl, rfl, ?_⟩, rfl⟩⟩
    exact ⟨after + (page.length - 1), last, by dsimp only; omega, hat, rfl⟩

/-- A cursor at an event of the store passes. -/
theorem Placed.validate_eq_ok (h : store.Placed) {cursor : RuntimeEventCursor}
    (hat : store.Identifies sha256 cursor) : store.validateRuntimeCursor sha256 cursor = .ok () := by
  rcases hat with ⟨i, event, hsequence, hevent, hchecksum⟩
  rcases @Placed.read_eq _ _ sha256 1 h cursor.streamId.trimmed cursor.streamId.nonempty
    cursor.streamId.bounded (by decide) i with ⟨page, last, hread, hpage, -, -⟩
  have hone : page = [event] := by
    rw [hpage, Int.toNat_one, drop_eq_getElem?_toList_append, hevent]
    rfl
  have hplace := h _ _ event hevent
  unfold validateRuntimeCursor
  rw [if_neg (by omega), show cursor.sequence - 1 = i by omega, hread, ok_bind, hone]
  exact require_of_pos _ ⟨hplace.1, hplace.2.trans (congrArg some hsequence.symm), hchecksum.symm⟩

/-! ## Walks -/

/-- A walk over the pages of a stream, from where it resumes to the page without more. -/
inductive Walk (sha256 : String → HexDigest) (store : InMemoryRuntimeEventStore)
    (present : RuntimeEventCursor → After) (streamId : String) (limit : ℤ) :
    Option RuntimeEventCursor → List RuntimeEventEnvelope → Prop
  | last {after : Option RuntimeEventCursor} {page : RuntimeEventPage}
      (hpage : store.timeline sha256 streamId (after.map present) limit = .ok page)
      (hlast : page.hasMore = false) : Walk sha256 store present streamId limit after page.events
  | more {after : Option RuntimeEventCursor} {page : RuntimeEventPage}
      {rest : List RuntimeEventEnvelope}
      (hpage : store.timeline sha256 streamId (after.map present) limit = .ok page)
      (hmore : page.hasMore = true)
      (hrest : Walk sha256 store present streamId limit page.cursor rest) :
      Walk sha256 store present streamId limit after (page.events ++ rest)

variable {after : Option RuntimeEventCursor}

/-- A query that resumes behind a cursor at an event reads what is behind it. -/
theorem Placed.timeline_eq (h : store.Placed) {n : ℕ}
    (hafter : CursorBehind sha256 store streamId n after) :
    store.timeline sha256 streamId (after.map After.byCursor) limit =
      store.read sha256 streamId n limit := by
  cases after with
  | none =>
    obtain rfl : n = 0 := hafter
    rfl
  | some cursor =>
    rcases hafter with ⟨hstream, hsequence, hat⟩
    unfold timeline
    simp only [map_some, After.decode, ok_bind, require_of_pos _ hstream,
      h.validate_eq_ok hat, hsequence]
    rfl

/-! ## Reading along -/

/-- A reader that keeps the last cursor it was given reads one page after each batch of appends: what
it has read, the store at the end, and whether the last page said that there is more. -/
def follow (sha256 : String → HexDigest) (streamId : String) (limit : ℤ) :
    List (List RuntimeEventEnvelope) → InMemoryRuntimeEventStore → Option RuntimeEventCursor →
      Bool → Except ProjectionError (List RuntimeEventEnvelope × InMemoryRuntimeEventStore × Bool)
  | [], store, _, more => .ok ([], store, more)
  | batch :: batches, store, after, _ => do
    let store := batch.foldl (fun store event => (store.append event).2) store
    let page ← store.timeline sha256 streamId (after.map After.byCursor) limit
    let (seen, last) ← follow sha256 streamId limit batches store (page.cursor.or after) page.hasMore
    .ok (page.events ++ seen, last)

/-- Appends only add to the ends of streams. -/
theorem Placed.foldl_append (h : store.Placed) (batch : List RuntimeEventEnvelope) :
    let store' := batch.foldl (fun store event => (store.append event).2) store
    store'.Placed ∧ ∀ streamId, store.stream streamId <+: store'.stream streamId := by
  induction batch generalizing store with
  | nil => exact ⟨h, fun _ => prefix_rfl⟩
  | cons event batch ih =>
    obtain ⟨hplaced, hgrows⟩ := ih (h.append event)
    refine ⟨hplaced, fun streamId => IsPrefix.trans ?_ (hgrows streamId)⟩
    rcases store.stream_append event with hsame | ⟨hnew, hother⟩
    · rw [hsame]
    · by_cases hstream : streamId = event.stream
      · rw [hstream, hnew]
        exact prefix_append _ _
      · rw [hother _ hstream]

/-- A cursor stays behind the events that it was behind. -/
theorem CursorBehind.of_prefix {store' : InMemoryRuntimeEventStore} {n : ℕ}
    (h : ∀ streamId, store.stream streamId <+: store'.stream streamId)
    (hafter : CursorBehind sha256 store streamId n after) :
    CursorBehind sha256 store' streamId n after := by
  cases after with
  | none => exact hafter
  | some cursor =>
    obtain ⟨hstream, hsequence, i, event, hi, hevent, hchecksum⟩ := hafter
    obtain ⟨added, hadded⟩ := h cursor.streamId.val
    refine ⟨hstream, hsequence, i, event, hi, ?_, hchecksum⟩
    rw [← hadded, getElem?_append_left (List.getElem?_eq_some_iff.mp hevent).1, hevent]

theorem Placed.exists_follow (h : store.Placed) (streamId : Text 512) {n : ℕ} {more : Bool}
    (hlimit : 1 ≤ limit ∧ limit ≤ 1000) (hafter : CursorBehind sha256 store streamId.val n after)
    (hmore : more = false → (store.stream streamId.val).drop n = [])
    (batches : List (List RuntimeEventEnvelope)) : ∃ seen last more',
      follow sha256 streamId.val limit batches store after more = .ok (seen, last, more') ∧
      store.stream streamId.val <+: last.stream streamId.val ∧
      seen <+: (last.stream streamId.val).drop n ∧
      (more' = false → seen = (last.stream streamId.val).drop n) := by
  induction batches generalizing store after n more with
  | nil => exact ⟨[], store, more, rfl, prefix_rfl, nil_prefix, fun hfalse => (hmore hfalse).symm⟩
  | cons batch batches ih =>
    obtain ⟨hplaced, hgrows⟩ := h.foldl_append batch
    set store' := batch.foldl (fun store event => (store.append event).2) store
    rcases @Placed.read_eq _ _ sha256 _ hplaced streamId.trimmed streamId.nonempty
      streamId.bounded hlimit n with ⟨page, cursor, hread, hpage, hnil, hne⟩
    have hbehind := hafter.of_prefix hgrows
    have htimeline := (hplaced.timeline_eq hbehind).trans hread
    have hnext : CursorBehind sha256 store' streamId.val (n + page.length) (cursor.or after) := by
      by_cases hempty : page = []
      · rw [hnil hempty, hempty]
        exact hbehind
      · obtain ⟨hcursor, hsome⟩ := hne hempty
        obtain ⟨found, rfl⟩ := isSome_iff_exists.mp hsome
        exact hcursor
    obtain ⟨seen, last, more', hfollow, hlast, hseen, hall⟩ := ih hplaced hnext fun hfalse =>
      drop_eq_nil_of_le (not_lt.mp (of_decide_eq_false hfalse))
    -- the page is what comes next in the stream, whatever was appended later
    have hsplit : (last.stream streamId.val).drop n =
        page ++ (last.stream streamId.val).drop (n + page.length) := by
      obtain ⟨rest, hrest⟩ : page <+: (last.stream streamId.val).drop n := by
        rw [hpage]
        exact IsPrefix.trans ( take_prefix _ _) (hlast.drop n)
      rw [← drop_drop, ← hrest, drop_left]
    refine ⟨page ++ seen, last, more', ?_, (hgrows _).trans hlast, ?_, fun hfalse => ?_⟩
    · rw [follow, htimeline, ok_bind, hfollow]
      rfl
    · rw [hsplit]
      exact (prefix_append_right_inj page).mpr hseen
    · rw [hsplit, hall hfalse]

theorem rsplitColon_append (before : List Char) {behind : List Char} (h : ∀ c ∈ behind, c ≠ ':') :
    RuntimeEventCursor.rsplitColon (before ++ ':' :: behind) = some (before, behind) := by
  have hreverse : (before ++ ':' :: behind).reverse = behind.reverse ++ ':' :: before.reverse := by
    simp
  have hclean : ∀ c ∈ behind.reverse, decide (c ≠ ':') = true := fun c hc =>
    decide_eq_true (h c (mem_reverse.mp hc))
  unfold RuntimeEventCursor.rsplitColon
  rw [hreverse, takeWhile_append_of_pos hclean, dropWhile_append_of_pos hclean]
  simp

theorem ne_colon_of_isHexDigit {c : Char} (h : isHexDigit c = true) : c ≠ ':' := by
  rintro rfl
  exact absurd h (by decide)

/-- No text that is written from a cursor at an event is read back: the last two colons of
the text stand around the second half of the checksum and not around the sequence. -/
theorem decode_encode_ne_ok {cursor : RuntimeEventCursor}
    (hat : store.Identifies sha256 cursor) (result : RuntimeEventCursor) :
    RuntimeEventCursor.decode cursor.encode ≠ .ok result := by
  rcases hat with ⟨i, event, -, -, hchecksum⟩
  set digest := (sha256 event.toDict.stableJsonDumps).text.toList with hdigest
  have htext : cursor.encode.toList = (cursor.streamId.val.toList ++ ':' ::
      (toString cursor.sequence).toList ++ ':' :: ['s', 'h', 'a', '2', '5', '6']) ++
        ':' :: digest := by
    unfold RuntimeEventCursor.encode
    simp only [String.toList_append, hchecksum, toList_checksum, ← hdigest]
    simp
  have hstrip : PyText.strip cursor.encode = cursor.encode := by
    apply PyText.strip_eq_self
    · intro c hc
      refine PyText.head?_of_strip_eq_self cursor.streamId.trimmed c ?_
      have hne : cursor.streamId.val.toList ≠ [] := by
        simpa using cursor.streamId.nonempty
      rw [htext, append_assoc, append_assoc, head?_append_of_ne_nil _ hne] at hc
      exact hc
    · intro c hc
      have hne : digest ≠ [] := HexDigest.toList_ne_nil _
      rw [htext, getLast?_append_of_ne_nil _ (cons_ne_nil _ _), getLast?_cons_of_ne_nil hne] at hc
      exact HexDigest.getLast?_not_space _ c hc
  intro hdecode
  obtain ⟨raw, hraw, hdecode⟩ := bind_inv hdecode
  have hval : raw.val = cursor.encode := by
    unfold text at hraw
    split at hraw
    · cases hraw
    · split at hraw
      · cases hraw
        exact hstrip
      · cases hraw
  rw [hval, htext, rsplitColon_append _ (fun c hc => ne_colon_of_isHexDigit
    (HexDigest.hex _ c hc)), orRaise_some, ok_bind] at hdecode
  dsimp only at hdecode
  rw [rsplitColon_append _ (by simp), orRaise_some, ok_bind] at hdecode
  rw [show PyNumber.int? (String.ofList ['s', 'h', 'a', '2', '5', '6']) = none from by
    decide +kernel, orRaise_none, error_bind] at hdecode
  cases hdecode

/-- A stream that fits no cursor cannot be read once it has an event. -/
theorem Placed.read_eq_error (h : store.Placed) (htrimmed : PyText.strip streamId = streamId)
    (hempty : streamId ≠ "") (hlong : ¬ streamId.length ≤ 512)
    (hlimit : 1 ≤ limit ∧ limit ≤ 1000) (hne : store.stream streamId ≠ []) :
    store.read sha256 streamId (0 : ℕ) limit =
      .error (.valueError "stream_id exceeds its bounded length") := by
  have hpage : ((store.stream streamId).drop 0).take limit.toNat ≠ [] := by
    rw [drop_zero, ne_eq, take_eq_nil_iff]
    rintro (hzero | hnil)
    · omega
    · exact hne hnil
  unfold InMemoryRuntimeEventStore.read
  rw [check_of_pos hlimit, check_of_pos (Int.natCast_nonneg 0)]
  dsimp only
  rw [h.filter_stream, cursorBehind]
  cases hlast : (((store.stream streamId).drop 0).take limit.toNat).getLast? with
  | none => exact absurd (getLast?_eq_none_iff.mp hlast) hpage
  | some last =>
    dsimp only
    rw [construct_eq sha256 _ last.toDict htrimmed hempty, dif_neg hlong, error_bind, error_bind]

/-- What an operator needs of the pages of a stream: the walk with the texts of cursors
returns every event once and in order, the texts are read back, and the text of a cursor
whose event was changed is refused. -/
structure Resumes (sha256 : String → HexDigest) (store : InMemoryRuntimeEventStore)
    (streamId : String) (limit : ℤ) : Prop where
  walk : Walk sha256 store (fun cursor => .byText cursor.encode) streamId limit none
    (store.stream streamId)
  decodes : ∀ after page, store.read sha256 streamId after limit = .ok page →
    ∀ cursor ∈ page.cursor, RuntimeEventCursor.decode cursor.encode = .ok cursor
  rejects : ∀ after page, store.read sha256 streamId after limit = .ok page →
    ∀ cursor ∈ page.cursor, ∀ changed : InMemoryRuntimeEventStore,
      (changed.stream streamId)[cursor.sequence - 1]? ≠ (store.stream streamId)[cursor.sequence - 1]? →
        ∃ error, changed.timeline sha256 streamId (some (.byText cursor.encode)) limit = .error error

theorem read_of_stream_eq_nil (hnil : store.stream streamId = [])
    (hlimit : 1 ≤ limit ∧ limit ≤ 1000) {after : ℤ} (hafter : 0 ≤ after) :
    store.read sha256 streamId after limit = .ok ⟨[], none, false⟩ := by
  have hmore : decide (after + (0 : ℕ) < (0 : ℕ)) = false := decide_eq_false (by omega)
  unfold InMemoryRuntimeEventStore.read
  rw [hnil, check_of_pos hlimit, check_of_pos hafter]
  simp only [filter_nil, take_nil, cursorBehind, getLast?_nil, ok_bind, length_nil, hmore]

theorem cursor_eq_none (hnil : store.stream streamId = []) {after : ℤ} {page : RuntimeEventPage}
    (hread : store.read sha256 streamId after limit = .ok page) : page.cursor = none := by
  unfold InMemoryRuntimeEventStore.read at hread
  obtain ⟨hlimit, hrest⟩ := check_inv hread
  obtain ⟨hafter, -⟩ := check_inv hrest
  have hempty := @read_of_stream_eq_nil _ _ sha256 _ hnil (of_require hlimit) _
    (of_require hafter)
  exact ok_inj (hempty.symm.trans hread) ▸ rfl

theorem Walk.exists_page {present : RuntimeEventCursor → After} {events : List RuntimeEventEnvelope}
    (h : Walk sha256 store present streamId limit after events) :
    ∃ page, store.timeline sha256 streamId (after.map present) limit = .ok page := by
  cases h with
  | last hpage hlast => exact ⟨_, hpage⟩
  | more hpage hmore hrest => exact ⟨_, hpage⟩

/-- An operator can resume exactly on the streams that have no event. -/
theorem resumes_iff (events : List RuntimeEventEnvelope) (streamId : Text 2048)
    (hlimit : 1 ≤ limit ∧ limit ≤ 1000) : (appendAll events).Resumes sha256 streamId.val limit ↔
      (appendAll events).stream streamId.val = [] := by
  have hplaced := placed_appendAll events
  constructor
  · intro h
    by_contra hne
    by_cases hfits : streamId.val.length ≤ 512
    · rcases @Placed.read_eq _ _ sha256 _ hplaced streamId.trimmed streamId.nonempty hfits hlimit 0
        with ⟨page, cursor, hread, hpage, -, hcursor⟩
      have hsome : page ≠ [] := by
        rw [hpage, drop_zero, ne_eq, take_eq_nil_iff]
        rintro (hzero | hnil)
        · omega
        · exact hne hnil
      rcases hcursor hsome with ⟨hbehind, hsome⟩
      cases cursor with
      | none => cases hsome
      | some cursor =>
        exact decode_encode_ne_ok hbehind.2.2 cursor (h.decodes _ _ hread cursor rfl)
    · have herror := @Placed.read_eq_error _ _ sha256 _ hplaced streamId.trimmed streamId.nonempty
        hfits hlimit hne
      have htimeline : (appendAll events).timeline sha256 streamId.val none limit =
          .error (.valueError "stream_id exceeds its bounded length") := herror
      rcases h.walk.exists_page with ⟨page, hpage⟩
      cases htimeline.symm.trans hpage
  · intro hnil
    constructor
    · have hpage : (appendAll events).timeline sha256 streamId.val (Option.map
          (fun cursor : RuntimeEventCursor => After.byText cursor.encode) none) limit =
            .ok ⟨[], none, false⟩ := read_of_stream_eq_nil hnil hlimit le_rfl
      rw [hnil]
      exact Walk.last hpage rfl
    · intro after page hread cursor hcursor
      rw [cursor_eq_none hnil hread] at hcursor
      cases hcursor
    · intro after page hread cursor hcursor
      rw [cursor_eq_none hnil hread] at hcursor
      cases hcursor

/-! ## One heartbeat -/

open RuntimeEventProjection (heartbeat workerStream)

theorem resumes_nothing : (appendAll []).Resumes sha256Hex workerStream.val 100 :=
  (resumes_iff [] workerStream (by decide)).mpr rfl

/-- The cursor behind one heartbeat is not read back. -/
theorem not_resumes_heartbeat :
    ¬ (appendAll [heartbeat workerStream]).Resumes sha256Hex workerStream.val 100 := by
  intro h
  have hplaced := placed_appendAll [heartbeat workerStream]
  rcases @Placed.read_eq _ _ sha256Hex 100 hplaced workerStream.trimmed workerStream.nonempty
    (by decide) (by decide) 0 with ⟨page, cursor, hread, hpage, -, hcursor⟩
  have hsome : page ≠ [] := by
    rw [hpage]
    exact cons_ne_nil _ _
  rcases hcursor hsome with ⟨hbehind, hsome⟩
  cases cursor with
  | none => cases hsome
  | some cursor => exact decode_encode_ne_ok hbehind.2.2 cursor (h.decodes _ _ hread cursor rfl)

end Pages

end InMemoryRuntimeEventStore

end RuntimeEvents
