/-
# Runtime events in any order

A projection depends only on which events were delivered to it: after any sequence of
deliveries the cursor of a stream is behind the contiguous prefix that has arrived, and a
status is the latest one.  This needs every stream to fit a cursor: the application that
completes the first prefix of a longer stream raises, and has noted the event by then.
-/
import AgoraHub.OutOfOrder
import AgoraHub.Sha256
import AgoraHub.RuntimeProjection

namespace RuntimeEvents

open Fallible GraphIdentity OutOfOrder List PyDict HexDigest Option
open RuntimeEventEnvelope (candidate)

/-! ## Cursors that are made -/

/-- A hexadecimal digit is in lower case. -/
theorem toLower_of_isHexDigit {c : Char} (h : isHexDigit c = true) : c.toLower = c := by
  have hc : (48 ≤ c.toNat ∧ c.toNat ≤ 57) ∨ (97 ≤ c.toNat ∧ c.toNat ≤ 102) := by
    simp only [isHexDigit, Bool.or_eq_true, Bool.and_eq_true, decide_eq_true_eq] at h
    exact h
  unfold Char.toLower
  rw [dif_neg]
  rintro ⟨hge, hle⟩
  have hge' : 65 ≤ c.toNat := hge
  have hle' : c.toNat ≤ 90 := hle
  omega

section Checksums

variable (sha256 : String → HexDigest) (value : PyValue)

theorem toList_checksum : (value.checksum sha256).toList =
    ['s', 'h', 'a', '2', '5', '6', ':'] ++ (sha256 value.stableJsonDumps).text.toList := by
  unfold PyValue.checksum
  rw [String.toList_append]
  rfl

theorem length_checksum : (value.checksum sha256).length = 71 := by
  unfold PyValue.checksum
  rw [String.length_append, length_eq]
  rfl

theorem strip_checksum : PyText.strip (value.checksum sha256) = value.checksum sha256 := by
  apply PyText.strip_eq_self
  · intro c hc
    rw [toList_checksum] at hc
    obtain rfl : 's' = c := Option.some.inj hc
    rfl
  · intro c hc
    rw [toList_checksum, getLast?_append_of_ne_nil _ (toList_ne_nil _)] at hc
    exact getLast?_not_space _ c hc

theorem toLower_checksum : (value.checksum sha256).toLower = value.checksum sha256 := by
  apply String.ext
  have hmap : (value.checksum sha256).toLower.toList =
      (value.checksum sha256).toList.map Char.toLower := String.toList_map
  rw [hmap, toList_checksum, map_append]
  congr 1
  calc (sha256 value.stableJsonDumps).text.toList.map Char.toLower
      = (sha256 value.stableJsonDumps).text.toList.map id :=
        map_congr_left fun c hc => toLower_of_isHexDigit (HexDigest.hex _ c hc)
    _ = (sha256 value.stableJsonDumps).text.toList := map_id _

theorem isChecksum_checksum : isChecksum (value.checksum sha256).toList = true := by
  rw [toList_checksum]
  have hlength : (sha256 value.stableJsonDumps).text.toList.length = 64 := by
    rw [String.length_toList, length_eq]
  simp only [isChecksum, Bool.and_eq_true, beq_iff_eq]
  refine ⟨⟨rfl, ?_⟩, ?_⟩
  · simpa using hlength
  · exact all_eq_true.mpr (HexDigest.hex _)

theorem isChecksumIgnoringCase_checksum :
    isChecksumIgnoringCase (value.checksum sha256).toList = true := by
  have h := isChecksum_checksum sha256 value
  rw [toList_checksum] at h ⊢
  simpa [isChecksumIgnoringCase] using h

end Checksums

/-- A cursor at an event can be made exactly when the text of its stream fits. -/
theorem construct_eq (sha256 : String → HexDigest) {stream : String} (sequence : ℕ)
    (value : PyValue) (htrimmed : PyText.strip stream = stream) (hempty : stream ≠ "") :
    RuntimeEventCursor.construct stream sequence (value.checksum sha256) =
      if h : stream.length ≤ 512 then
        .ok ⟨⟨stream, htrimmed, hempty, h⟩, sequence, value.checksum sha256,
          isChecksumIgnoringCase_checksum sha256 value⟩
      else .error (.valueError "stream_id exceeds its bounded length") := by
  have hne : value.checksum sha256 ≠ "" := by
    intro h
    have := congrArg String.length h
    rw [length_checksum] at this
    simp at this
  unfold RuntimeEventCursor.construct
  rw [text_eq htrimmed hempty]
  by_cases hfits : stream.length ≤ 512
  · rw [dif_pos hfits, dif_pos hfits, ok_bind, check_of_pos (Int.natCast_nonneg sequence), text_eq (strip_checksum sha256 value) hne,
      dif_pos (by rw [length_checksum]; norm_num), ok_bind]
    have hform := isChecksumIgnoringCase_checksum sha256 value
    simp only [toLower_checksum, hform, dif_pos, Int.toNat_natCast]
  · rw [dif_neg hfits, dif_neg hfits, error_bind]
    rfl

variable {n : ℕ} {delivered' : List RuntimeEventEnvelope}

namespace RuntimeEventProjection

variable {sha256 : String → HexDigest}

/-! ## The run behind a cursor -/

/-- The cursor of a stream at a sequence, where an event of that sequence was seen. -/
def CursorAt (sha256 : String → HexDigest)
    (sequenceSeen : PyDict (String × ℕ) RuntimeEventEnvelope) (stream : String) :
    ℕ → Option RuntimeEventCursor → Prop
  | 0, cursor => cursor = none
  | n + 1, cursor => ∃ event c, sequenceSeen.get? (stream, n + 1) = some event ∧ cursor = some c ∧
      c.streamId.val = stream ∧ c.sequence = n + 1 ∧ c.checksum = event.toDict.checksum sha256

/-- A sequence of the stream was seen. -/
def Has (sequenceSeen : PyDict (String × ℕ) RuntimeEventEnvelope) (stream : String) (n : ℕ) :
    Prop := (sequenceSeen.get? (stream, n)).isSome = true

variable {sequenceSeen : PyDict (String × ℕ) RuntimeEventEnvelope} {stream : String}

variable {cursor : Option RuntimeEventCursor}

theorem CursorAt.sequence (h : CursorAt sha256 sequenceSeen stream n cursor) :
    (cursor.map RuntimeEventCursor.sequence).getD 0 = n := by
  cases n with
  | zero =>
    obtain rfl : cursor = none := h
    rfl
  | succ n =>
    obtain ⟨event, c, -, rfl, -, hsequence, -⟩ := h
    exact hsequence

/-- There is one cursor at a sequence. -/
theorem CursorAt.unique {cursor' : Option RuntimeEventCursor}
    (h : CursorAt sha256 sequenceSeen stream n cursor)
    (h' : CursorAt sha256 sequenceSeen stream n cursor') : cursor = cursor' := by
  cases n with
  | zero => exact (show cursor = none from h).trans (show cursor' = none from h').symm
  | succ n =>
    obtain ⟨event, c, hevent, rfl, hstream, hsequence, hchecksum⟩ := h
    obtain ⟨event', c', hevent', rfl, hstream', hsequence', hchecksum'⟩ := h'
    obtain rfl : event = event' := Option.some.inj (hevent.symm.trans hevent')
    obtain ⟨streamId, sequence, checksum, _⟩ := c
    obtain ⟨streamId', sequence', checksum', _⟩ := c'
    obtain rfl : streamId = streamId' := Text.ext (hstream.trans hstream'.symm)
    obtain rfl : sequence = sequence' := hsequence.trans hsequence'.symm
    obtain rfl : checksum = checksum' := hchecksum.trans hchecksum'.symm
    rfl

theorem CursorAt.mono {sequenceSeen' : PyDict (String × ℕ) RuntimeEventEnvelope}
    (h : CursorAt sha256 sequenceSeen stream n cursor)
    (hsub : ∀ k event, sequenceSeen.get? k = some event → sequenceSeen'.get? k = some event) :
    CursorAt sha256 sequenceSeen' stream n cursor := by
  cases n with
  | zero => exact h
  | succ n =>
    obtain ⟨event, c, hevent, hrest⟩ := h
    exact ⟨event, c, hsub _ _ hevent, hrest⟩

/-- Fewer sequences follow one another than are seen. -/
theorem exists_not_has (start : ℕ) :
    ∃ k ≤ sequenceSeen.length, ¬ Has sequenceSeen stream (start + k) := by
  by_contra hall
  push Not at hall
  set run := (List.range (sequenceSeen.length + 1)).map fun k => (stream, start + k) with hrun
  have hnodup : run.Nodup := by
    refine List.Nodup.map (fun a b hab => ?_) nodup_range
    simpa using hab
  have hsub : run ⊆ sequenceSeen.keys := by
    intro key hkey
    obtain ⟨k, hk, rfl⟩ := mem_map.mp hkey
    have hk := mem_range.mp hk
    exact (mem_keys_iff _ _).mpr
      (isSome_iff_exists.mp (hall k (Nat.lt_succ_iff.mp hk)))
  have hlength := (subperm_of_subset hnodup hsub).length_le
  rw [hrun, length_map, length_range, PyDict.keys, length_map] at hlength
  omega

/-- The run behind a cursor ends behind the contiguous prefix. -/
theorem advance_eq_ok (htrimmed : PyText.strip stream = stream) (hempty : stream ≠ "")
    (hfits : stream.length ≤ 512) {fuel : ℕ} : ∀ {n : ℕ} {cursor : Option RuntimeEventCursor},
      CursorAt sha256 sequenceSeen stream n cursor →
      (∀ i, 1 ≤ i → i ≤ n → Has sequenceSeen stream i) →
      (∃ k < fuel, ¬ Has sequenceSeen stream (n + 1 + k)) →
        ∃ m cursor', advance sha256 sequenceSeen stream fuel (n + 1) cursor = .ok cursor' ∧
          n ≤ m ∧ IsPrefix (Has sequenceSeen stream) m ∧
          CursorAt sha256 sequenceSeen stream m cursor' := by
  induction fuel with
  | zero =>
    rintro n cursor - - ⟨k, hk, -⟩
    omega
  | succ fuel ih =>
    rintro n cursor hcursor hbelow ⟨k, hk, hends⟩
    unfold advance
    cases hget : sequenceSeen.get? (stream, n + 1) with
    | none =>
      refine ⟨n, cursor, rfl, le_rfl, ⟨hbelow, ?_⟩, hcursor⟩
      rw [Has, hget]
      decide
    | some event =>
      have hhas : Has sequenceSeen stream (n + 1) := by
        rw [Has, hget]
        rfl
      dsimp only
      rw [construct_eq sha256 (n + 1) event.toDict htrimmed hempty, dif_pos hfits, ok_bind]
      have hnext : CursorAt sha256 sequenceSeen stream (n + 1) (some ⟨⟨stream, htrimmed, hempty,
          hfits⟩, n + 1, event.toDict.checksum sha256,
          isChecksumIgnoringCase_checksum sha256 event.toDict⟩) :=
        ⟨event, _, hget, rfl, rfl, rfl, rfl⟩
      have hbelow' : ∀ i, 1 ≤ i → i ≤ n + 1 → Has sequenceSeen stream i := by
        intro i hpos hle
        rcases hle.lt_or_eq with hlt | rfl
        · exact hbelow i hpos (by omega)
        · exact hhas
      have hends' : ∃ k < fuel, ¬ Has sequenceSeen stream (n + 1 + 1 + k) := by
        cases k with
        | zero => exact absurd hhas hends
        | succ k => exact ⟨k, by omega, by rwa [show n + 1 + 1 + k = n + 1 + (k + 1) by omega]⟩
      obtain ⟨m, cursor', hadvance, hle, hinitial, hcursor'⟩ := ih hnext hbelow' hends'
      exact ⟨m, cursor', hadvance, by omega, hinitial, hcursor'⟩

/-! ## What is known of the events that were delivered -/

/-- The order in which statuses take each other's place. -/
def eventOrder (event : RuntimeEventEnvelope) : ℕ ×ₗ Datetime ×ₗ String :=
  statusOrder event.candidate

/-- The events that report on an identity. -/
def reporting (key : StatusKey) (events : List RuntimeEventEnvelope) : List RuntimeEventEnvelope :=
  events.filter fun event => event.reports && decide (statusKey event.identity = key)

theorem mem_reporting {key : StatusKey} {events : List RuntimeEventEnvelope}
    {event : RuntimeEventEnvelope} : event ∈ reporting key events ↔
      event ∈ events ∧ event.reports = true ∧ statusKey event.identity = key := by
  unfold reporting
  rw [mem_filter]
  simp

/-- A projection that the events were delivered to. -/
structure Delivered (sha256 : String → HexDigest) (projection : RuntimeEventProjection)
    (delivered : List RuntimeEventEnvelope) : Prop where
  seen : ∀ id event, projection.seen.get? id = some event ↔
    event ∈ delivered ∧ event.eventId.val = id
  sequenceSeen : ∀ stream n event, projection.sequenceSeen.get? (stream, n) = some event ↔
    event ∈ delivered ∧ event.stream = stream ∧ event.sequence = some n
  cursors : ∀ stream, ∃ n, IsPrefix (Has projection.sequenceSeen stream) n ∧
    CursorAt sha256 projection.sequenceSeen stream n (projection.cursors.get? stream)
  status : ∀ key, ∃ kept, IsLatest eventOrder (reporting key delivered) kept ∧
    projection.status.get? key = kept.map candidate

theorem delivered_empty : Delivered sha256 {} [] where
  seen := by simp [PyDict.get?]
  sequenceSeen := by simp [PyDict.get?]
  cursors := fun stream =>
    ⟨0, ⟨fun i hpos hle => absurd hpos (by omega), by simp [Has, PyDict.get?]⟩, rfl⟩
  status := fun key => ⟨none, rfl, rfl⟩

/-! ## One delivery -/

section Delivery

variable {projection : RuntimeEventProjection} {delivered : List RuntimeEventEnvelope}
  {event : RuntimeEventEnvelope}

theorem Delivered.get?_seen (h : Delivered sha256 projection delivered) (hmem : event ∈ delivered) :
    projection.seen.get? event.eventId.val = some event :=
  (h.seen _ _).mpr ⟨hmem, rfl⟩

theorem Delivered.apply_again (h : Delivered sha256 projection delivered)
    (hmem : event ∈ delivered) : apply sha256 projection event = (.ok false, projection) := by
  unfold apply
  rw [h.get?_seen hmem]
  simp

/-- What is known depends only on which events were delivered. -/
theorem Delivered.congr (h : Delivered sha256 projection delivered)
    (hmem : ∀ e, e ∈ delivered ↔ e ∈ delivered') : Delivered sha256 projection delivered' where
  seen id e := (h.seen id e).trans (by rw [hmem])
  sequenceSeen stream n e := (h.sequenceSeen stream n e).trans (by rw [hmem])
  cursors := h.cursors
  status key := by
    obtain ⟨kept, hlatest, hget⟩ := h.status key
    refine ⟨kept, hlatest.congr fun e => ?_, hget⟩
    rw [mem_reporting, mem_reporting, hmem]

/-- The status that is kept is the one of the latest event. -/
theorem get?_keepStatus {status : PyDict StatusKey RuntimeStatus} {key : StatusKey}
    {kept : Option RuntimeEventEnvelope}
    (hlatest : IsLatest eventOrder (reporting key delivered) kept)
    (hget : status.get? key = kept.map candidate)
    (event : RuntimeEventEnvelope) :
    ∃ kept', IsLatest eventOrder (reporting key (delivered ++ [event])) kept' ∧
      (keepStatus status event).get? key = kept'.map candidate := by
  have hsplit : reporting key (delivered ++ [event]) =
      reporting key delivered ++ reporting key [event] := filter_append ..
  rw [hsplit]
  by_cases hreports : event.reports = true
  · by_cases hkey : statusKey event.identity = key
    · -- the event reports on this identity: it is adopted where it is not earlier
      have hone : reporting key [event] = [event] := by simp [reporting, hreports, hkey]
      rw [hone]
      refine ⟨_, hlatest.adopt event, ?_⟩
      unfold keepStatus
      rw [if_pos hreports, hkey, hget]
      cases kept with
      | none =>
        rw [adopt_none]
        exact get?_set_self _ _ _
      | some previous =>
        rw [adopt_some]
        by_cases hle : eventOrder previous ≤ eventOrder event
        · have hle' : statusOrder previous.candidate ≤ statusOrder event.candidate := hle
          simp only [map_some, if_pos hle, if_pos hle', get?_set_self]
        · have hle' : ¬ statusOrder previous.candidate ≤ statusOrder event.candidate := hle
          simp only [map_some, if_neg hle, if_neg hle', hget]
    · have hnone : reporting key [event] = [] := by simp [reporting, hkey]
      rw [hnone, append_nil]
      refine ⟨kept, hlatest, ?_⟩
      have hother : ∀ value, (status.set (statusKey event.identity) value).get? key =
          kept.map candidate := fun value => by
        rw [get?_set_of_ne _ _ (Ne.symm hkey), hget]
      unfold keepStatus
      rw [if_pos hreports]
      cases status.get? (statusKey event.identity) with
      | none => exact hother _
      | some previous =>
        dsimp only
        split
        · exact hother _
        · exact hget
  · have hnone : reporting key [event] = [] := by simp [reporting, hreports]
    rw [hnone, append_nil]
    refine ⟨kept, hlatest, ?_⟩
    unfold keepStatus
    rw [if_neg hreports, hget]

end Delivery

/-! ## Sets of events -/

/-- Events with identities of their own, where the events of each stream carry the sequences
from one to their number. -/
structure EventSet (events : List RuntimeEventEnvelope) : Prop where
  ids : (events.map fun event => event.eventId.val).Nodup
  sequences : ∀ stream, ∃ n, ((events.filter fun event => decide (event.stream = stream)).map
    RuntimeEventEnvelope.sequence).Perm ((List.range' 1 n).map some)

namespace EventSet

variable {events : List RuntimeEventEnvelope} {a b : RuntimeEventEnvelope}

theorem eq_of_eventId (h : EventSet events) (ha : a ∈ events) (hb : b ∈ events)
    (hid : a.eventId.val = b.eventId.val) : a = b :=
  inj_on_of_nodup_map h.ids ha hb hid

theorem exists_sequence (h : EventSet events) (ha : a ∈ events) : ∃ n, a.sequence = some n := by
  obtain ⟨n, hperm⟩ := h.sequences a.stream
  have hmem : a.sequence ∈ (events.filter fun event => decide (event.stream = a.stream)).map
      RuntimeEventEnvelope.sequence :=
    mem_map.mpr ⟨a, mem_filter.mpr ⟨ha, decide_eq_true rfl⟩, rfl⟩
  obtain ⟨i, -, hi⟩ := mem_map.mp (hperm.mem_iff.mp hmem)
  exact ⟨i, hi.symm⟩

theorem eq_of_sequence (h : EventSet events) (ha : a ∈ events) (hb : b ∈ events)
    (hstream : a.stream = b.stream) (hsequence : a.sequence = b.sequence) : a = b := by
  obtain ⟨n, hperm⟩ := h.sequences a.stream
  have hnodup : ((events.filter fun event => decide (event.stream = a.stream)).map
      RuntimeEventEnvelope.sequence).Nodup :=
    hperm.nodup_iff.mpr (List.Nodup.map (some_injective ℕ) nodup_range')
  refine inj_on_of_nodup_map hnodup ?_ ?_ hsequence
  · exact mem_filter.mpr ⟨ha, decide_eq_true rfl⟩
  · exact mem_filter.mpr ⟨hb, decide_eq_true hstream.symm⟩

/-- A stream with an event has a first one. -/
theorem exists_first (h : EventSet events) (ha : a ∈ events) :
    ∃ first ∈ events, first.stream = a.stream ∧ first.sequence = some 1 := by
  obtain ⟨n, hperm⟩ := h.sequences a.stream
  have hmem : a ∈ events.filter fun event => decide (event.stream = a.stream) :=
    mem_filter.mpr ⟨ha, decide_eq_true rfl⟩
  have hpos : 1 ≤ n := by
    rcases Nat.eq_zero_or_pos n with rfl | hpos
    · have hnil := map_eq_nil_iff.mp (List.Perm.eq_nil hperm)
      exact absurd (hnil ▸ hmem) not_mem_nil
    · exact hpos
  have hone : some 1 ∈ (List.range' 1 n).map some :=
    mem_map.mpr ⟨1, mem_range'_1.mpr ⟨le_rfl, by omega⟩, rfl⟩
  obtain ⟨first, hfirst, hsequence⟩ := mem_map.mp (hperm.mem_iff.mpr hone)
  obtain ⟨hfirst, hstream⟩ := mem_filter.mp hfirst
  exact ⟨first, hfirst, of_decide_eq_true hstream, hsequence⟩

theorem eq_of_eventOrder (h : EventSet events) (ha : a ∈ events) (hb : b ∈ events)
    (horder : eventOrder a = eventOrder b) : a = b := by
  unfold eventOrder statusOrder at horder
  simp only [EmbeddingLike.apply_eq_iff_eq, Prod.mk.injEq] at horder
  exact h.eq_of_eventId ha hb horder.2.2

end EventSet

section Step

variable {projection : RuntimeEventProjection} {delivered events : List RuntimeEventEnvelope}
  {event : RuntimeEventEnvelope}

variable {cursors : PyDict String RuntimeEventCursor}

/-- A cursor that is not behind the one that is kept takes its place. -/
theorem get?_keepCursor {m : ℕ} {last : Option RuntimeEventCursor}
    (hcurrent : CursorAt sha256 sequenceSeen stream n (cursors.get? stream))
    (hlast : CursorAt sha256 sequenceSeen stream m last) (hle : n ≤ m) :
    (keepCursor cursors stream last).get? stream = last := by
  cases last with
  | none =>
    have hm : m = 0 := hlast.sequence.symm
    obtain rfl : n = 0 := by omega
    exact hcurrent
  | some cursor =>
    have hm : cursor.sequence = m := hlast.sequence
    unfold keepCursor
    dsimp only
    split
    · exact get?_set_self _ _ _
    · rename_i hbehind
      obtain rfl : n = m := by
        cases hget : cursors.get? stream with
        | none =>
          rw [hget] at hbehind
          simp at hbehind
        | some current =>
          have hn : current.sequence = n := by
            rw [hget] at hcurrent
            exact hcurrent.sequence
          rw [hget] at hbehind
          simp only [all_some, decide_eq_true_eq] at hbehind
          omega
      exact hcurrent.unique hlast

/-- No other cursor moves. -/
theorem get?_keepCursor_of_ne {other : String} (last : Option RuntimeEventCursor)
    (hne : other ≠ stream) : (keepCursor cursors stream last).get? other = cursors.get? other := by
  unfold keepCursor
  cases last with
  | none => rfl
  | some cursor =>
    dsimp only
    split
    · exact get?_set_of_ne _ _ hne
    · rfl

section

variable (h : Delivered sha256 projection delivered)

include h

/-- What the sequences hold once the sequence of an event is noted. -/
theorem Delivered.get?_noted (hset : EventSet events) (hsub : delivered ⊆ events)
    (hmem : event ∈ events) (hsequence : event.sequence = some n) (stream : String) (i : ℕ)
    (e : RuntimeEventEnvelope) :
    (projection.sequenceSeen.set (event.stream, n) event).get? (stream, i) = some e ↔
      e ∈ delivered ++ [event] ∧ e.stream = stream ∧ e.sequence = some i := by
  by_cases hkey : (stream, i) = (event.stream, n)
  · cases hkey
    rw [get?_set_self]
    constructor
    · intro he
      obtain rfl : event = e := Option.some.inj he
      exact ⟨mem_append_right _ (mem_singleton_self _), rfl, hsequence⟩
    · rintro ⟨he, hstream, hat⟩
      have hin : e ∈ events := by
        rcases mem_append.mp he with he | he
        · exact hsub he
        · exact mem_singleton.mp he ▸ hmem
      exact congrArg some (hset.eq_of_sequence hmem hin hstream.symm (hsequence.trans hat.symm))
  · rw [get?_set_of_ne _ _ hkey, h.sequenceSeen]
    constructor
    · rintro ⟨he, hrest⟩
      exact ⟨mem_append_left _ he, hrest⟩
    · rintro ⟨he, hstream, hat⟩
      refine ⟨?_, hstream, hat⟩
      rcases mem_append.mp he with he | he
      · exact he
      · obtain rfl : e = event := mem_singleton.mp he
        exact absurd (Prod.ext hstream.symm (Option.some.inj (hat.symm.trans hsequence))) hkey

/-- What is seen once an event is. -/
theorem Delivered.get?_seen_set
    (hset : EventSet events) (hsub : delivered ⊆ events) (hmem : event ∈ events) (id : String)
    (e : RuntimeEventEnvelope) : (projection.seen.set event.eventId.val event).get? id = some e ↔
      e ∈ delivered ++ [event] ∧ e.eventId.val = id := by
  by_cases hkey : id = event.eventId.val
  · subst hkey
    rw [get?_set_self]
    constructor
    · intro he
      obtain rfl : event = e := Option.some.inj he
      exact ⟨mem_append_right _ (mem_singleton_self _), rfl⟩
    · rintro ⟨he, hid⟩
      have hin : e ∈ events := by
        rcases mem_append.mp he with he | he
        · exact hsub he
        · exact mem_singleton.mp he ▸ hmem
      exact congrArg some (hset.eq_of_eventId hmem hin hid.symm)
  · rw [get?_set_of_ne _ _ hkey, h.seen]
    constructor
    · rintro ⟨he, hid⟩
      exact ⟨mem_append_left _ he, hid⟩
    · rintro ⟨he, hid⟩
      refine ⟨?_, hid⟩
      rcases mem_append.mp he with he | he
      · exact he
      · exact absurd (mem_singleton.mp he ▸ hid.symm) hkey

/-- An event of a set is new or was delivered. -/
theorem Delivered.apply_new (hset : EventSet events) (hsub : delivered ⊆ events)
    (hmem : event ∈ events) (hnew : event ∉ delivered) (hsequence : event.sequence = some n) :
    apply sha256 projection event =
      match advance sha256 (projection.sequenceSeen.set (event.stream, n) event) event.stream
          ((projection.sequenceSeen.set (event.stream, n) event).length + 1)
          (((projection.cursors.get? event.stream).map RuntimeEventCursor.sequence).getD 0 + 1)
          (projection.cursors.get? event.stream) with
      | .error e => (.error e, { projection with
          sequenceSeen := projection.sequenceSeen.set (event.stream, n) event })
      | .ok last => (.ok true, commit { projection with
          sequenceSeen := projection.sequenceSeen.set (event.stream, n) event
          cursors := keepCursor projection.cursors event.stream last } event) := by
  have hseen : projection.seen.get? event.eventId.val = none := by
    rw [eq_none_iff_forall_not_mem]
    intro e he
    obtain ⟨hin, hid⟩ := (h.seen _ _).mp he
    exact hnew (hset.eq_of_eventId (hsub hin) hmem hid ▸ hin)
  have hfree : projection.sequenceSeen.get? (event.stream, n) = none := by
    rw [eq_none_iff_forall_not_mem]
    intro e he
    obtain ⟨hin, hstream, hat⟩ := (h.sequenceSeen _ _ _).mp he
    exact hnew (hset.eq_of_sequence (hsub hin) hmem hstream (hat.trans hsequence.symm) ▸ hin)
  unfold apply
  cases hadvance : advance sha256 (projection.sequenceSeen.set (event.stream, n) event) event.stream
      ((projection.sequenceSeen.set (event.stream, n) event).length + 1)
      (((projection.cursors.get? event.stream).map RuntimeEventCursor.sequence).getD 0 + 1)
      (projection.cursors.get? event.stream) with
  | error e | ok last => simp only [hseen, hsequence, hfree, hadvance]

/-- The step: an event whose stream fits a cursor is accepted. -/
theorem Delivered.step (hset : EventSet events)
    (hsub : delivered ⊆ events) (hmem : event ∈ events) (hfits : event.stream.length ≤ 512) :
    ∃ fresh, (apply sha256 projection event).1 = .ok fresh ∧
      Delivered sha256 (apply sha256 projection event).2 (delivered ++ [event]) := by
  by_cases hnew : event ∈ delivered
  · rw [h.apply_again hnew]
    refine ⟨false, rfl, h.congr fun e => ?_⟩
    rw [mem_append, mem_singleton]
    constructor
    · exact Or.inl
    · rintro (he | rfl)
      · exact he
      · exact hnew
  obtain ⟨n, hsequence⟩ := hset.exists_sequence hmem
  have hnoted := h.get?_noted hset hsub hmem hsequence
  have hmore : ∀ k e, projection.sequenceSeen.get? k = some e →
      (projection.sequenceSeen.set (event.stream, n) event).get? k = some e := by
    rintro ⟨stream, i⟩ e he
    obtain ⟨hin, hrest⟩ := (h.sequenceSeen _ _ _).mp he
    exact (hnoted stream i e).mpr ⟨mem_append_left _ hin, hrest⟩
  -- the cursor moves from the old prefix of the stream to the new one
  obtain ⟨start, hinitial, hcursor⟩ := h.cursors event.stream
  have hends : ∃ k < (projection.sequenceSeen.set (event.stream, n) event).length + 1,
      ¬ Has (projection.sequenceSeen.set (event.stream, n) event) event.stream (start + 1 + k) := by
    rcases @exists_not_has (projection.sequenceSeen.set (event.stream, n) event)
      event.stream (start + 1) with ⟨k, hk, hnot⟩
    exact ⟨k, by omega, hnot⟩
  have hbelow : ∀ i, 1 ≤ i → i ≤ start →
      Has (projection.sequenceSeen.set (event.stream, n) event) event.stream i := by
    intro i hpos hle
    obtain ⟨e, he⟩ := isSome_iff_exists.mp (hinitial.1 i hpos hle)
    exact isSome_iff_exists.mpr ⟨e, hmore _ _ he⟩
  rcases advance_eq_ok event.strip_stream.1 event.strip_stream.2 hfits (hcursor.mono hmore) hbelow
    hends with ⟨finish, last, hadvance, hle, hinitial', hcursor'⟩
  rw [h.apply_new hset hsub hmem hnew hsequence, hcursor.sequence, hadvance]
  refine ⟨true, rfl, h.get?_seen_set hset hsub hmem, hnoted, fun stream => ?_, fun key => ?_⟩
  · by_cases hstream : stream = event.stream
    · subst hstream
      refine ⟨finish, hinitial', ?_⟩
      have hkept := get?_keepCursor (hcursor.mono hmore) hcursor' hle
      exact hkept.symm ▸ hcursor'
    · obtain ⟨other, hother, hat⟩ := h.cursors stream
      have hsame : ∀ i, Has projection.sequenceSeen stream i ↔
          Has (projection.sequenceSeen.set (event.stream, n) event) stream i := by
        intro i
        unfold Has
        rw [get?_set_of_ne _ _ (by simp [hstream])]
      refine ⟨other, hother.congr hsame, ?_⟩
      have hkept := @get?_keepCursor_of_ne _ projection.cursors _ last hstream
      exact hkept.symm ▸ hat.mono hmore
  · obtain ⟨kept, hlatest, hget⟩ := h.status key
    exact get?_keepStatus hlatest hget event

end

end Step

/-! ## Whole deliveries -/

section Runs

variable {events deliveries : List RuntimeEventEnvelope}

variable {projection : RuntimeEventProjection}

theorem rebuildStep_eq_ok {event : RuntimeEventEnvelope} {fresh : Bool}
    (h : (apply sha256 projection event).1 = .ok fresh) :
    rebuildStep sha256 projection event = .ok (apply sha256 projection event).2 := by
  unfold rebuildStep
  rcases hresult : apply sha256 projection event with ⟨result, projection'⟩
  rw [hresult] at h
  rw [show result = .ok fresh from h]

/-- After a run over events of a set, in any order and any number of times, what is known
of the projection is known of the events that were delivered, and nothing has raised. -/
theorem delivered_run (hset : EventSet events) (hfits : ∀ e ∈ events, e.stream.length ≤ 512) :
    ∀ {deliveries : List RuntimeEventEnvelope}, deliveries ⊆ events →
      Delivered sha256 (applyAll sha256 {} deliveries) deliveries ∧
      deliveries.foldlM (rebuildStep sha256) {} = .ok (applyAll sha256 {} deliveries) := by
  intro deliveries
  induction deliveries using List.reverseRecOn with
  | nil =>
    intro hsub
    exact ⟨delivered_empty, rfl⟩
  | append_singleton deliveries event ih =>
    intro hsub
    have hmem : event ∈ events := hsub (mem_append_right _ (mem_singleton_self _))
    have hsub' : deliveries ⊆ events := fun e he => hsub (mem_append_left _ he)
    obtain ⟨hdelivered, hrebuild⟩ := ih hsub'
    obtain ⟨fresh, hok, hnext⟩ := hdelivered.step hset hsub' hmem (hfits event hmem)
    have hlast : applyAll sha256 {} (deliveries ++ [event]) =
        (apply sha256 (applyAll sha256 {} deliveries) event).2 := by
      unfold applyAll
      rw [foldl_append]
      rfl
    rw [hlast]
    refine ⟨hnext, ?_⟩
    rw [foldlM_append, hrebuild, ok_bind, foldlM_cons, rebuildStep_eq_ok hok, ok_bind]
    rfl

/-- Two projections with the same events have the same statuses and cursors. -/
theorem Delivered.views {projection' : RuntimeEventProjection}
    {delivered : List RuntimeEventEnvelope} (h : Delivered sha256 projection delivered)
    (h' : Delivered sha256 projection' delivered') (hset : EventSet events)
    (hsub : delivered ⊆ events) (hmem : ∀ e, e ∈ delivered ↔ e ∈ delivered') :
    PyDict.eq projection.status projection'.status ∧
      PyDict.eq projection.cursors projection'.cursors := by
  have h' := h'.congr fun e => (hmem e).symm
  constructor
  · refine (eq_iff _ _).mpr fun key => ?_
    obtain ⟨kept, hlatest, hget⟩ := h.status key
    obtain ⟨kept', hlatest', hget'⟩ := h'.status key
    have hkept : kept = kept' := hlatest.unique hlatest' fun a ha b hb horder =>
      hset.eq_of_eventOrder (hsub (mem_reporting.mp ha).1) (hsub (mem_reporting.mp hb).1) horder
    rw [hget, hget', hkept]
  · refine (eq_iff _ _).mpr fun stream => ?_
    obtain ⟨n, hinitial, hat⟩ := h.cursors stream
    obtain ⟨n', hinitial', hat'⟩ := h'.cursors stream
    have hsame : ∀ k e, projection.sequenceSeen.get? k = some e →
        projection'.sequenceSeen.get? k = some e :=
      fun k e he => (h'.sequenceSeen _ _ _).mpr ((h.sequenceSeen _ _ _).mp he)
    have hhas : ∀ i, Has projection.sequenceSeen stream i ↔ Has projection'.sequenceSeen stream i := by
      intro i
      unfold Has
      rw [isSome_iff_exists, isSome_iff_exists]
      exact exists_congr fun e => (h.sequenceSeen _ _ _).trans (h'.sequenceSeen _ _ _).symm
    obtain rfl : n = n' := (hinitial.congr hhas).unique hinitial'
    exact (hat.mono hsame).unique hat'

/-- What order and repetition of deliveries do not change, and what an application that
raises leaves. -/
structure Converges (sha256 : String → HexDigest) (events : List RuntimeEventEnvelope) : Prop where
  final : ∀ deliveries : List RuntimeEventEnvelope, (∀ e, e ∈ deliveries ↔ e ∈ events) →
    ∃ rebuilt, rebuild sha256 events = .ok rebuilt ∧
      PyDict.eq (applyAll sha256 {} deliveries).status rebuilt.status ∧
      PyDict.eq (applyAll sha256 {} deliveries).cursors rebuilt.cursors
  contiguous : ∀ deliveries ⊆ events, ∀ stream, ∃ n,
    IsPrefix (fun i => ∃ e ∈ deliveries, e.stream = stream ∧ e.sequence = some i) n ∧
      (((applyAll sha256 {} deliveries).cursors.get? stream).map RuntimeEventCursor.sequence) =
        if n = 0 then none else some n
  atomic : ∀ deliveries ⊆ events, ∀ event ∈ events, ∀ error,
    (apply sha256 (applyAll sha256 {} deliveries) event).1 = .error error →
      (apply sha256 (applyAll sha256 {} deliveries) event).2 = applyAll sha256 {} deliveries ∧
      (apply sha256 (apply sha256 (applyAll sha256 {} deliveries) event).2 event).1 ≠ .ok false

/-- Behind the prefix there is a cursor, and before the first event there is none. -/
theorem Delivered.contiguous (h : Delivered sha256 projection deliveries) (stream : String) : ∃ n,
      IsPrefix (fun i => ∃ e ∈ deliveries, e.stream = stream ∧ e.sequence = some i) n ∧
        ((projection.cursors.get? stream).map RuntimeEventCursor.sequence) =
          if n = 0 then none else some n := by
  obtain ⟨n, hinitial, hat⟩ := h.cursors stream
  refine ⟨n, hinitial.congr fun i => ?_, ?_⟩
  · unfold Has
    rw [isSome_iff_exists]
    exact exists_congr fun e => h.sequenceSeen stream i e
  · cases n with
    | zero =>
      rw [show projection.cursors.get? stream = none from hat]
      rfl
    | succ n =>
      obtain ⟨e, c, -, hget, -, hsequence, -⟩ := hat
      rw [hget, map_some, hsequence, if_neg (Nat.succ_ne_zero n)]

/-- The first event of a stream that fits no cursor is noted by an application that raises. -/
theorem apply_first {event : RuntimeEventEnvelope} (hsequence : event.sequence = some 1)
    (hlong : ¬ event.stream.length ≤ 512) : apply sha256 {} event =
      (.error (.valueError "stream_id exceeds its bounded length"),
        { sequenceSeen := [((event.stream, 1), event)] }) := by
  have hget : PyDict.get? [((event.stream, 1), event)] (event.stream, 1) = some event := by
    rw [get?_cons, if_pos rfl]
  have hconstruct := construct_eq sha256 1 event.toDict event.strip_stream.1 event.strip_stream.2
  rw [dif_neg hlong] at hconstruct
  have hadvance : advance sha256 [((event.stream, 1), event)] event.stream 2 1 none =
      .error (.valueError "stream_id exceeds its bounded length") := by
    unfold advance
    rw [hget]
    dsimp only
    rw [hconstruct, error_bind]
  unfold apply
  rw [hsequence]
  simp only [get?_nil, PyDict.set, length_cons, length_nil, map_none,
    getD_none, Nat.zero_add, hadvance]

theorem eventSet_singleton {event : RuntimeEventEnvelope} (h : event.sequence = some 1) :
    EventSet [event] where
  ids := nodup_singleton _
  sequences stream := by
    by_cases hstream : event.stream = stream
    · exact ⟨1, by simp [hstream, h]⟩
    · exact ⟨0, by simp [hstream]⟩

/-- The heartbeat of a worker at the start of a stream. -/
def heartbeat (stream : Text 2048) : RuntimeEventEnvelope where
  eventId := .ofLiteral "event-1" (by decide +kernel)
  eventType := .workerHeartbeat
  occurredAt := ⟨0, by decide⟩
  status := some (.ofLiteral "running" (by decide +kernel))
  sequence := some 1
  streamId := some stream
  source := .ofLiteral "worker" (by decide +kernel)

/-- The stream of a worker. -/
def workerStream : Text 2048 := .ofLiteral "worker-1" (by decide +kernel)

theorem length_replicate (n : ℕ) (c : Char) : (String.ofList (List.replicate n c)).length = n := by
  rw [String.length_ofList, List.length_replicate]

theorem strip_replicate (n : ℕ) {c : Char} (h : PyText.isSpace c = false) :
    PyText.strip (String.ofList (List.replicate n c)) = String.ofList (List.replicate n c) := by
  apply PyText.strip_eq_self
  · intro d hd
    rw [String.toList_ofList] at hd
    exact eq_of_mem_replicate (mem_of_mem_head? hd) ▸ h
  · intro d hd
    rw [String.toList_ofList] at hd
    exact eq_of_mem_replicate (mem_of_mem_getLast? hd) ▸ h

/-- A stream id that an envelope admits and a cursor does not. -/
def longStream : Text 2048 where
  val := String.ofList (List.replicate 513 's')
  trimmed := strip_replicate 513 (by decide)
  nonempty h := absurd ((length_replicate 513 's').symm.trans (congrArg String.length h)) (by decide)
  bounded := (length_replicate 513 's').trans_le (by omega)

end Runs

end RuntimeEventProjection

end RuntimeEvents
