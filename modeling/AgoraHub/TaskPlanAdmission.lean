/-
# Admission of dispatch groups and waves

The check every append to a TaskPlan event log passes: it derives the groups, their
owners and their waves from the whole log again.  A group snapshot is the mapping
of its event, whose values are compared as the source language compares them.
-/
import AgoraHub.Sha256
import AgoraHub.TaskPlanWave

namespace TaskPlan

open Fallible List PyDict DispatchWave

/-! ## The values of a payload -/

/-- A value of a payload, as `==`, `<` and `hash` tell values apart: a boolean or a float is
the number it equals, and the fields of an object are listed in key order. -/
inductive PayloadValue where
  | null
  | num (value : ℚ)
  | str (text : String)
  | arr (items : List PayloadValue)
  | obj (fields : List (String × PayloadValue))

namespace PayloadValue

mutual

/-- Equality of values. -/
def beq : PayloadValue → PayloadValue → Bool
  | null, null => true
  | num a, num b => a == b
  | str a, str b => a == b
  | arr xs, arr ys => beqItems xs ys
  | obj fs, obj gs => beqFields fs gs
  | _, _ => false

/-- Equality of the items of two arrays. -/
def beqItems : List PayloadValue → List PayloadValue → Bool
  | [], [] => true
  | x :: xs, y :: ys => beq x y && beqItems xs ys
  | _, _ => false

/-- Equality of the fields of two objects. -/
def beqFields : List (String × PayloadValue) → List (String × PayloadValue) → Bool
  | [], [] => true
  | (k, x) :: fs, (l, y) :: gs => k == l && (beq x y && beqFields fs gs)
  | _, _ => false

end

mutual

theorem beq_iff : ∀ a b : PayloadValue, beq a b = true ↔ a = b
  | null, b => by cases b <;> simp [beq]
  | num x, b => by cases b <;> simp [beq]
  | str x, b => by cases b <;> simp [beq]
  | arr xs, b => by cases b <;> simp [beq, beqItems_iff xs]
  | obj fs, b => by cases b <;> simp [beq, beqFields_iff fs]

theorem beqItems_iff : ∀ xs ys : List PayloadValue, beqItems xs ys = true ↔ xs = ys
  | [], ys => by cases ys <;> simp [beqItems]
  | x :: xs, ys => by cases ys <;> simp [beqItems, beq_iff x, beqItems_iff xs]

theorem beqFields_iff : ∀ fs gs : List (String × PayloadValue), beqFields fs gs = true ↔ fs = gs
  | [], gs => by cases gs <;> simp [beqFields]
  | (k, x) :: fs, gs => by
    cases gs with
    | nil => simp [beqFields]
    | cons g gs =>
      obtain ⟨l, y⟩ := g
      simp [beqFields, beq_iff x, beqFields_iff fs, and_assoc]

end

instance : DecidableEq PayloadValue := fun a b =>
  decidable_of_iff (beq a b = true) (beq_iff a b)

/-- A value that can be a key: an array can if its items can, an object cannot. -/
def hashable : PayloadValue → Bool
  | arr items => go items
  | obj _ => false
  | _ => true
where
  /-- The items of an array can all be keys. -/
  go : List PayloadValue → Bool
    | [] => true
    | x :: xs => hashable x && go xs

end PayloadValue

/-! ## Errors -/

/-- What the check raises: its own errors, and those of operations on malformed payloads. -/
inductive Raised where
  | invalid (error : HarnessValidationError)
  | keyError (name : String)
  | typeError

/-- `HarnessValidationError(message, code=code)`. -/
def raised (message code : String) : Raised := .invalid ⟨message, code, []⟩

/-- A conflict with an admission. -/
def admissionConflict (message : String) : Raised :=
  raised message "TASK_GROUP_ADMISSION_CONFLICT"

/-- A snapshot: the mapping a payload holds. -/
abbrev Snapshot := PyDict String PayloadValue

namespace Snapshot

/-- `snapshot.get(name)`. -/
def lookup (snapshot : Snapshot) (name : String) : PayloadValue :=
  (PyDict.get? snapshot name).getD .null

/-- `snapshot[name]`. -/
def item (snapshot : Snapshot) (name : String) : Except Raised PayloadValue :=
  orRaise (PyDict.get? snapshot name) (.keyError name)

end Snapshot

/-- `int > value` compares numbers only. -/
def number : PayloadValue → Except Raised ℚ
  | .num q => .ok q
  | _ => .error .typeError

/-- `tuple(value)`. -/
def itemsOf : PayloadValue → Except Raised (List PayloadValue)
  | .arr items => .ok items
  | .str text => .ok (text.toList.map fun c => .str (String.ofList [c]))
  | .obj fields => .ok (fields.map fun p => .str p.1)
  | _ => .error .typeError

/-- `hash(value)`. -/
def hashed (value : PayloadValue) : Except Raised Unit :=
  require (value.hashable = true) .typeError

/-! ## Events -/

/-- An event as the check reads it: its type and its payload.  `wave` is what the mapping at
`payload["wave"]` says, if there is one. -/
structure AdmissionEvent where
  eventType : String
  payload : Snapshot
  wave : Option DispatchWave.Payload

namespace AdmissionEvent

/-- `payload.get("group")`, when it is a mapping. -/
def group (e : AdmissionEvent) : Option Snapshot :=
  match e.payload.get? "group" with
  | some (.obj fields) => some fields
  | _ => none

/-- The events for which an append is checked. -/
def relevant (e : AdmissionEvent) : Prop :=
  e.eventType ∈ ["TASK_GROUP_ADMITTED", "TASK_WAVE_ADMITTED", "TASK_WAVE_COMPLETED"] ∨
    ("TASK_GROUP_".isPrefixOf e.eventType = true ∧ (e.payload.get? "group").isSome = true)

instance (e : AdmissionEvent) : Decidable e.relevant := inferInstanceAs (Decidable (_ ∨ _))

end AdmissionEvent

/-! ## The index -/

/-- What the check derives from a log: `groups`, `owners` and `waves`. -/
structure AdmissionIndex where
  groups : PyDict String Snapshot
  owners : List (List PayloadValue)
  waves : PyDict String DispatchWave

/-- A log without events. -/
def AdmissionIndex.empty : AdmissionIndex := ⟨[], [], []⟩

/-- The plan version that owns a group. -/
def ownerOf (group : Snapshot) : List PayloadValue :=
  ["run_id", "stage_id", "plan_id", "plan_version"].map group.lookup

/-- `any(snapshot.get(name) != value for name, value in group.items() if name != "state")`
is false. -/
def MatchesAdmission (snapshot group : Snapshot) : Prop :=
  ∀ p ∈ group, p.1 ≠ "state" → snapshot.lookup p.1 = p.2

instance (snapshot group : Snapshot) : Decidable (MatchesAdmission snapshot group) :=
  inferInstanceAs (Decidable (∀ p ∈ group, _))

/-- `validate_wave_admission_slot`, for a group of the index and a wave of that group. -/
def validateWaveAdmissionSlot (group : Snapshot) (waveId : String) (wave : DispatchWave)
    (waves : PyDict String DispatchWave) (code : String) : Except Raised Unit := do
  let previous := waves.filter fun p => decide (.str p.2.groupId = group.lookup "group_id")
  let scope ← itemsOf (← group.item "task_ids")
  scope.forM hashed
  require (∀ t ∈ wave.taskIds, .str t ∈ scope)
    (raised "wave exceeds immutable group scope or capacity" code)
  let capacity ← number (← group.item "max_parallelism")
  require ((wave.effectiveParallelism : ℚ) ≤ capacity)
    (raised "wave exceeds immutable group scope or capacity" code)
  require (∀ p ∈ previous, p.2.state = .terminal)
    (raised "dispatch group already has an active wave" code)
  require (wave.ordinal = previous.length + 1)
    (raised "wave ordinal must advance the bounded group sequence" code)
  let limit ← number (← group.item "max_waves")
  require ((wave.ordinal : ℚ) ≤ limit)
    (raised "wave ordinal must advance the bounded group sequence" code)
  require (∀ p ∈ previous, p.1 ≠ waveId)
    (raised "wave ordinal must advance the bounded group sequence" code)

/-- An admission of a group. -/
def admitGroup (s : AdmissionIndex) (e : AdmissionEvent) : Except Raised AdmissionIndex := do
  let group ← orRaise e.group (admissionConflict "group admission snapshot is missing")
  match group.lookup "group_id" with
  | .str groupId =>
    require (group.lookup "state" = .str "ADMITTED")
      (admissionConflict "group admission requires admitted state")
    require (groupId ∉ s.groups.keys)
      (admissionConflict "accepted plan already owns a dispatch group")
    (ownerOf group).forM hashed
    require (ownerOf group ∉ s.owners)
      (admissionConflict "accepted plan already owns a dispatch group")
    return { s with groups := s.groups.set groupId group, owners := s.owners ++ [ownerOf group] }
  | _ => .error (admissionConflict "group admission snapshot is missing")

/-- An admission of a wave. -/
def admitWave (sha256 : String → HexDigest) (s : AdmissionIndex) (e : AdmissionEvent) :
    Except Raised AdmissionIndex := do
  let payload ← orRaise e.wave (admissionConflict "wave admission snapshot is missing")
  let snapshot ← orRaise e.group (admissionConflict "wave admission snapshot is missing")
  let wave ← (fromDict sha256 payload).mapError .invalid
  let waveId := DispatchWave.waveId sha256 wave
  require (wave.state = .admitted) (admissionConflict "wave admission requires admitted state")
  let group ← orRaise (s.groups.get? wave.groupId)
    (admissionConflict "wave admission differs from durable group")
  require (MatchesAdmission snapshot group)
    (admissionConflict "wave admission differs from durable group")
  hashed (group.lookup "state")
  require (group.lookup "state" ∈ [.str "ADMITTED", .str "DISPATCHING", .str "RUNNING"])
    (admissionConflict "durable group is closed to admission")
  validateWaveAdmissionSlot group waveId wave s.waves "TASK_GROUP_ACTIVE_WAVE_CONFLICT"
  return { s with waves := s.waves.set waveId wave }

/-- A completion of a wave. -/
def completeWave (s : AdmissionIndex) (e : AdmissionEvent) : Except Raised AdmissionIndex := do
  let conflict := raised "wave terminal evidence conflicts with admission"
    "TASK_GROUP_ACTIVE_WAVE_CONFLICT"
  hashed (e.payload.lookup "wave_id")
  match e.payload.lookup "wave_id" with
  | .str waveId =>
    let wave ← orRaise (s.waves.get? waveId) conflict
    require (e.payload.lookup "group_id" = .str wave.groupId) conflict
    require (wave.state ≠ .terminal) conflict
    let taskIds ← itemsOf ((e.payload.get? "task_ids").getD (.arr []))
    require (taskIds = wave.taskIds.map .str) conflict
    hashed (e.payload.lookup "terminal_outcome")
    require (e.payload.lookup "terminal_outcome" ∈ terminalOutcomeValues.map .str) conflict
    return { s with waves := s.waves.set waveId { wave with state := .terminal } }
  | _ => .error conflict

/-- A transition of a group. -/
def moveGroup (s : AdmissionIndex) (snapshot : Snapshot) : Except Raised AdmissionIndex := do
  let conflict := admissionConflict "group transition differs from admission"
  hashed (snapshot.lookup "group_id")
  match snapshot.lookup "group_id" with
  | .str groupId =>
    let group ← orRaise (s.groups.get? groupId) conflict
    require (MatchesAdmission snapshot group) conflict
    let state ← snapshot.item "state"
    return { s with groups := s.groups.set groupId (group.set "state" state) }
  | _ => .error conflict

/-- One turn of the loop over the log. -/
def admissionStep (sha256 : String → HexDigest) (s : AdmissionIndex) (e : AdmissionEvent) :
    Except Raised AdmissionIndex :=
  if e.eventType = "TASK_GROUP_ADMITTED" then admitGroup s e
  else if e.eventType = "TASK_WAVE_ADMITTED" then admitWave sha256 s e
  else if e.eventType = "TASK_WAVE_COMPLETED" then completeWave s e
  else if "TASK_GROUP_".isPrefixOf e.eventType = true then
    match e.group with
    | some snapshot => moveGroup s snapshot
    | none => .ok s
  else .ok s

/-- `validate_parallel_admission_append`.  `validateEarlier` stands for the checks before the
loop, of attempt histories and continuations, which only raise or return. -/
def validateParallelAdmissionAppend (sha256 : String → HexDigest)
    (validateEarlier : List AdmissionEvent → List AdmissionEvent → Except Raised Unit)
    (history batch : List AdmissionEvent) : Except Raised Unit := do
  validateEarlier history batch
  if ∃ e ∈ batch, e.relevant then
    let _ ← (history ++ batch).foldlM (admissionStep sha256) .empty
    return ()
  else return ()

/-! ## Logs -/

/-- The logs grown from the empty log by accepted appends. -/
inductive Grown (sha256 : String → HexDigest)
    (validateEarlier : List AdmissionEvent → List AdmissionEvent → Except Raised Unit) :
    List AdmissionEvent → Prop
  | empty : Grown sha256 validateEarlier []
  | append {history batch : List AdmissionEvent} (h : Grown sha256 validateEarlier history)
      (accepted : validateParallelAdmissionAppend sha256 validateEarlier history batch = .ok ()) :
      Grown sha256 validateEarlier (history ++ batch)

/-- The group an event admits, under its identifier. -/
def AdmissionEvent.admittedGroup (e : AdmissionEvent) : Option (String × Snapshot) :=
  if e.eventType = "TASK_GROUP_ADMITTED" then
    match e.group with
    | some group =>
      match group.lookup "group_id" with
      | .str groupId => some (groupId, group)
      | _ => none
    | none => none
  else none

/-- The wave an event admits. -/
def AdmissionEvent.admittedWave (sha256 : String → HexDigest) (e : AdmissionEvent) :
    Option DispatchWave :=
  if e.eventType = "TASK_WAVE_ADMITTED" then
    e.wave.bind fun payload => (fromDict sha256 payload).toOption
  else none

/-- The wave identifier an event completes. -/
def AdmissionEvent.completedWave (e : AdmissionEvent) : Option PayloadValue :=
  if e.eventType = "TASK_WAVE_COMPLETED" then some (e.payload.lookup "wave_id") else none

/-- The groups a log admits. -/
def admittedGroups (log : List AdmissionEvent) : List (String × Snapshot) :=
  log.filterMap AdmissionEvent.admittedGroup

/-- The waves a log admits. -/
def admittedWaves (sha256 : String → HexDigest) (log : List AdmissionEvent) : List DispatchWave :=
  log.filterMap (AdmissionEvent.admittedWave sha256)

/-- The waves a log completes. -/
def completedWaves (log : List AdmissionEvent) : List PayloadValue :=
  log.filterMap AdmissionEvent.completedWave

/-- The waves a log admits to one group. -/
def wavesOf (sha256 : String → HexDigest) (log : List AdmissionEvent) (groupId : String) :
    List DispatchWave :=
  (admittedWaves sha256 log).filter fun w => decide (w.groupId = groupId)

/-- The waves of a group that the log has not completed. -/
def activeWaves (sha256 : String → HexDigest) (log : List AdmissionEvent) (groupId : String) :
    List DispatchWave :=
  (wavesOf sha256 log groupId).filter fun w =>
    decide (.str (w.waveId sha256) ∉ completedWaves log)

/-- What holds of a log: a group has one active wave at most; its waves have the ordinals from
one, in order, up to its bound, and its tasks; a plan version owns one group; and a completion
names a wave that was admitted before and not completed before. -/
structure WellAdmitted (sha256 : String → HexDigest) (log : List AdmissionEvent) : Prop where
  active : ∀ groupId, (activeWaves sha256 log groupId).length ≤ 1
  ordinals : ∀ groupId, (wavesOf sha256 log groupId).map DispatchWave.ordinal =
    (List.range (wavesOf sha256 log groupId).length).map fun (i : ℕ) => (i : ℤ) + 1
  admitted : ∀ w ∈ admittedWaves sha256 log, ∃ group, (w.groupId, group) ∈ admittedGroups log
  scope : ∀ w ∈ admittedWaves sha256 log, ∀ group, (w.groupId, group) ∈ admittedGroups log →
    ∃ items, itemsOf (group.lookup "task_ids") = .ok items ∧ ∀ t ∈ w.taskIds, .str t ∈ items
  bound : ∀ p ∈ admittedGroups log, wavesOf sha256 log p.1 ≠ [] →
    ∃ limit, p.2.lookup "max_waves" = .num limit ∧
      ((wavesOf sha256 log p.1).length : ℚ) ≤ limit
  groups : ((admittedGroups log).map Prod.fst).Nodup
  owners : ((admittedGroups log).map fun p => ownerOf p.2).Nodup
  waves : ((admittedWaves sha256 log).map (DispatchWave.waveId sha256)).Nodup
  completed : ∀ before e after, log = before ++ e :: after → ∀ waveId,
    e.completedWave = some waveId → waveId ∉ completedWaves before ∧
      ∃ w ∈ admittedWaves sha256 before, waveId = .str (w.waveId sha256)

/-! ## What one event does -/

section Step

variable {sha256 : String → HexDigest}

/-- What an accepted event does to the index, by what it adds to the log. -/
inductive Effect (sha256 : String → HexDigest) (s : AdmissionIndex) (e : AdmissionEvent) :
    AdmissionIndex → Prop
  | group {groupId : String} {group : Snapshot} (hgroup : e.admittedGroup = some (groupId, group))
      (hwave : e.admittedWave sha256 = none) (hdone : e.completedWave = none)
      (fresh : groupId ∉ s.groups.keys) (free : ownerOf group ∉ s.owners) :
      Effect sha256 s e { s with
        groups := s.groups.set groupId group, owners := s.owners ++ [ownerOf group] }
  | wave {w : DispatchWave} {group : Snapshot} {items : List PayloadValue} {limit : ℚ}
      {previous : PyDict String DispatchWave} (hgroup : e.admittedGroup = none)
      (hwave : e.admittedWave sha256 = some w) (hdone : e.completedWave = none)
      (state : w.state = .admitted) (known : s.groups.get? w.groupId = some group)
      (hitems : itemsOf (group.lookup "task_ids") = .ok items)
      (scope : ∀ t ∈ w.taskIds, .str t ∈ items)
      (hprevious : previous =
        s.waves.filter fun p => decide (.str p.2.groupId = group.lookup "group_id"))
      (closed : ∀ p ∈ previous, p.2.state = .terminal)
      (ordinal : w.ordinal = previous.length + 1)
      (hlimit : group.lookup "max_waves" = .num limit) (bound : (w.ordinal : ℚ) ≤ limit)
      (fresh : ∀ p ∈ previous, p.1 ≠ w.waveId sha256) :
      Effect sha256 s e { s with waves := s.waves.set (w.waveId sha256) w }
  | completed {waveId : String} {w : DispatchWave} (hgroup : e.admittedGroup = none)
      (hwave : e.admittedWave sha256 = none) (hdone : e.completedWave = some (.str waveId))
      (known : s.waves.get? waveId = some w) (running : w.state ≠ .terminal) :
      Effect sha256 s e { s with waves := s.waves.set waveId { w with state := .terminal } }
  | moved {groupId : String} {group : Snapshot} {state : PayloadValue}
      (hgroup : e.admittedGroup = none) (hwave : e.admittedWave sha256 = none)
      (hdone : e.completedWave = none) (known : s.groups.get? groupId = some group) :
      Effect sha256 s e { s with groups := s.groups.set groupId (group.set "state" state) }
  | same (hgroup : e.admittedGroup = none) (hwave : e.admittedWave sha256 = none)
      (hdone : e.completedWave = none) : Effect sha256 s e s

theorem Snapshot.lookup_of_item {g : Snapshot} {name : String} {v : PayloadValue}
    (h : g.item name = .ok v) : g.lookup name = v := by
  unfold Snapshot.item at h
  rw [orRaise_eq_ok] at h
  unfold Snapshot.lookup
  rw [h]
  rfl

theorem number_eq_ok {v : PayloadValue} {q : ℚ} (h : number v = .ok q) : v = .num q := by
  cases v with
  | num value =>
    cases h
    rfl
  | null | str text | arr items | obj fields => cases h

theorem mapError_eq_ok {ε ε' α : Type} {f : ε → ε'} {x : Except ε α} {a : α}
    (h : x.mapError f = .ok a) : x = .ok a := by
  cases x with
  | ok b =>
    obtain rfl : b = a := by simpa [Except.mapError] using h
    rfl
  | error e => simp [Except.mapError] at h

variable {s s' : AdmissionIndex} {e : AdmissionEvent}

theorem admitGroup_effect (htype : e.eventType = "TASK_GROUP_ADMITTED")
    (h : admitGroup s e = .ok s') : Effect sha256 s e s' := by
  unfold admitGroup at h
  obtain ⟨group, hgroup, h₁⟩ := bind_inv h
  rw [orRaise_eq_ok] at hgroup
  cases hid : group.lookup "group_id" with
  | str groupId =>
    rw [hid] at h₁
    obtain ⟨-, h₂⟩ := check_inv h₁
    obtain ⟨hfresh, h₃⟩ := check_inv h₂
    obtain ⟨-, h₄⟩ := check_inv h₃
    obtain ⟨hfree, h₅⟩ := check_inv h₄
    rw [require_eq_ok] at hfresh hfree
    cases h₅
    apply Effect.group _ _ _ hfresh hfree
    · unfold AdmissionEvent.admittedGroup
      rw [if_pos htype, hgroup]
      show (match group.lookup "group_id" with
        | .str groupId => some (groupId, group)
        | _ => none) = _
      rw [hid]
    · unfold AdmissionEvent.admittedWave
      rw [if_neg (by rw [htype]; decide)]
    · unfold AdmissionEvent.completedWave
      rw [if_neg (by rw [htype]; decide)]
  | null | num q | arr items | obj fields => rw [hid] at h₁; cases h₁

theorem admitWave_effect (htype : e.eventType = "TASK_WAVE_ADMITTED")
    (h : admitWave sha256 s e = .ok s') : Effect sha256 s e s' := by
  unfold admitWave at h
  obtain ⟨payload, hpayload, h₁⟩ := bind_inv h
  obtain ⟨snapshot, -, h₂⟩ := bind_inv h₁
  obtain ⟨w, hw, h₃⟩ := bind_inv h₂
  obtain ⟨hstate, h₄⟩ := check_inv h₃
  obtain ⟨group, hknown, h₅⟩ := bind_inv h₄
  obtain ⟨-, h₆⟩ := check_inv h₅
  obtain ⟨-, h₇⟩ := check_inv h₆
  obtain ⟨-, h₈⟩ := check_inv h₇
  obtain ⟨hslot, h₉⟩ := check_inv h₈
  cases h₉
  rw [orRaise_eq_ok] at hpayload hknown
  rw [require_eq_ok] at hstate
  unfold validateWaveAdmissionSlot at hslot
  obtain ⟨scope, hscope, k₁⟩ := bind_inv hslot
  obtain ⟨items, hitems, k₂⟩ := bind_inv k₁
  obtain ⟨-, k₃⟩ := check_inv k₂
  obtain ⟨htasks, k₄⟩ := check_inv k₃
  obtain ⟨capacity, -, k₅⟩ := bind_inv k₄
  obtain ⟨capacity', -, k₆⟩ := bind_inv k₅
  obtain ⟨-, k₇⟩ := check_inv k₆
  obtain ⟨hclosed, k₈⟩ := check_inv k₇
  obtain ⟨hordinal, k₉⟩ := check_inv k₈
  obtain ⟨max, hmax, k₁₀⟩ := bind_inv k₉
  obtain ⟨limit, hlimit, k₁₁⟩ := bind_inv k₁₀
  obtain ⟨hbound, hfresh⟩ := check_inv k₁₁
  rw [require_eq_ok] at htasks hclosed hordinal hbound hfresh
  rw [← Snapshot.lookup_of_item hscope] at hitems
  have hmaxValue : group.lookup "max_waves" = .num limit := by
    rw [Snapshot.lookup_of_item hmax]
    exact number_eq_ok hlimit
  refine Effect.wave ?_ ?_ ?_ hstate hknown hitems htasks rfl hclosed hordinal hmaxValue hbound
    hfresh
  · unfold AdmissionEvent.admittedGroup
    rw [if_neg (by rw [htype]; decide)]
  · unfold AdmissionEvent.admittedWave
    rw [if_pos htype, hpayload, Option.bind_some, mapError_eq_ok hw]
    rfl
  · unfold AdmissionEvent.completedWave
    rw [if_neg (by rw [htype]; decide)]

theorem completeWave_effect (htype : e.eventType = "TASK_WAVE_COMPLETED")
    (h : completeWave s e = .ok s') : Effect sha256 s e s' := by
  unfold completeWave at h
  obtain ⟨-, h₁⟩ := check_inv h
  cases hid : e.payload.lookup "wave_id" with
  | str waveId =>
    rw [hid] at h₁
    obtain ⟨w, hknown, h₂⟩ := bind_inv h₁
    obtain ⟨-, h₃⟩ := check_inv h₂
    obtain ⟨hrunning, h₄⟩ := check_inv h₃
    obtain ⟨taskIds, -, h₅⟩ := bind_inv h₄
    obtain ⟨-, h₆⟩ := check_inv h₅
    obtain ⟨-, h₇⟩ := check_inv h₆
    obtain ⟨-, h₈⟩ := check_inv h₇
    cases h₈
    rw [orRaise_eq_ok] at hknown
    rw [require_eq_ok] at hrunning
    refine Effect.completed ?_ ?_ ?_ hknown hrunning
    · unfold AdmissionEvent.admittedGroup
      rw [if_neg (by rw [htype]; decide)]
    · unfold AdmissionEvent.admittedWave
      rw [if_neg (by rw [htype]; decide)]
    · unfold AdmissionEvent.completedWave
      rw [if_pos htype, hid]
  | null | num q | arr items | obj fields => rw [hid] at h₁; cases h₁

/-- A transition of a group only changes the state of a group of the index. -/
theorem moveGroup_eq_ok {snapshot : Snapshot} (h : moveGroup s snapshot = .ok s') :
    ∃ groupId group state,
      s.groups.get? groupId = some group ∧
        s' = { s with groups := s.groups.set groupId (group.set "state" state) } := by
  unfold moveGroup at h
  obtain ⟨-, h₁⟩ := check_inv h
  cases hid : snapshot.lookup "group_id" with
  | str groupId =>
    rw [hid] at h₁
    obtain ⟨group, hknown, h₂⟩ := bind_inv h₁
    obtain ⟨-, h₃⟩ := check_inv h₂
    obtain ⟨state, -, h₄⟩ := bind_inv h₃
    cases h₄
    rw [orRaise_eq_ok] at hknown
    exact ⟨groupId, group, state, hknown, rfl⟩
  | null | num q | arr items | obj fields => rw [hid] at h₁; cases h₁

/-- What a turn of the loop does, if it does not raise. -/
theorem admissionStep_effect (h : admissionStep sha256 s e = .ok s') : Effect sha256 s e s' := by
  unfold admissionStep at h
  by_cases hgroup : e.eventType = "TASK_GROUP_ADMITTED"
  · rw [if_pos hgroup] at h
    exact admitGroup_effect hgroup h
  rw [if_neg hgroup] at h
  by_cases hwave : e.eventType = "TASK_WAVE_ADMITTED"
  · rw [if_pos hwave] at h
    exact admitWave_effect hwave h
  rw [if_neg hwave] at h
  by_cases hdone : e.eventType = "TASK_WAVE_COMPLETED"
  · rw [if_pos hdone] at h
    exact completeWave_effect hdone h
  rw [if_neg hdone] at h
  have nogroup : e.admittedGroup = none := if_neg hgroup
  have nowave : e.admittedWave sha256 = none := if_neg hwave
  have nodone : e.completedWave = none := if_neg hdone
  by_cases hmove : "TASK_GROUP_".isPrefixOf e.eventType = true
  · rw [if_pos hmove] at h
    cases hsnapshot : e.group with
    | some snapshot =>
      rw [hsnapshot] at h
      obtain ⟨groupId, group, state, hknown, rfl⟩ := moveGroup_eq_ok h
      exact Effect.moved nogroup nowave nodone hknown
    | none =>
      rw [hsnapshot] at h
      cases h
      exact Effect.same nogroup nowave nodone
  · rw [if_neg hmove] at h
    cases h
    exact Effect.same nogroup nowave nodone

/-- An event that the append does not check leaves the index as it is. -/
theorem admissionStep_of_not_relevant (h : ¬ e.relevant) : admissionStep sha256 s e = .ok s := by
  unfold AdmissionEvent.relevant at h
  rw [not_or] at h
  obtain ⟨htype, hmove⟩ := h
  unfold admissionStep
  rw [if_neg (fun heq => htype (by simp [heq])), if_neg (fun heq => htype (by simp [heq])),
    if_neg (fun heq => htype (by simp [heq]))]
  by_cases hhead : "TASK_GROUP_".isPrefixOf e.eventType = true
  · rw [if_pos hhead]
    have hnone : e.payload.get? "group" = none := by
      cases hget : e.payload.get? "group" with
      | none => rfl
      | some v => exact absurd ⟨hhead, by rw [hget]; rfl⟩ hmove
    unfold AdmissionEvent.group
    rw [hnone]
  · rw [if_neg hhead]

end Step

/-! ## What the index knows of the log -/

variable {groupId : String}

section Logs

variable {sha256 : String → HexDigest} {log : List AdmissionEvent} {e : AdmissionEvent}

theorem admittedGroups_append (log : List AdmissionEvent) (e : AdmissionEvent) :
    admittedGroups (log ++ [e]) = admittedGroups log ++ e.admittedGroup.toList := by
  unfold admittedGroups
  rw [filterMap_append]
  cases h : e.admittedGroup <;> simp [h]

theorem admittedWaves_append (log : List AdmissionEvent) (e : AdmissionEvent) :
    admittedWaves sha256 (log ++ [e]) =
      admittedWaves sha256 log ++ (e.admittedWave sha256).toList := by
  unfold admittedWaves
  rw [filterMap_append]
  cases h : e.admittedWave sha256 <;> simp [h]

theorem completedWaves_append (log : List AdmissionEvent) (e : AdmissionEvent) :
    completedWaves (log ++ [e]) = completedWaves log ++ e.completedWave.toList := by
  unfold completedWaves
  rw [filterMap_append]
  cases h : e.completedWave <;> simp [h]

theorem admittedGroups_append_of_none (log : List AdmissionEvent) (h : e.admittedGroup = none) :
    admittedGroups (log ++ [e]) = admittedGroups log := by
  rw [admittedGroups_append, h, Option.toList_none, append_nil]

theorem admittedWaves_append_of_none (log : List AdmissionEvent)
    (h : e.admittedWave sha256 = none) :
    admittedWaves sha256 (log ++ [e]) = admittedWaves sha256 log := by
  rw [admittedWaves_append, h, Option.toList_none, append_nil]

theorem completedWaves_append_of_none (log : List AdmissionEvent) (h : e.completedWave = none) :
    completedWaves (log ++ [e]) = completedWaves log := by
  rw [completedWaves_append, h, Option.toList_none, append_nil]

theorem wavesOf_append_of_none (h : e.admittedWave sha256 = none) (groupId : String) :
    wavesOf sha256 (log ++ [e]) groupId = wavesOf sha256 log groupId := by
  unfold wavesOf
  rw [admittedWaves_append_of_none log h]

variable {w : DispatchWave}

theorem wavesOf_append (h : e.admittedWave sha256 = some w) (groupId : String) :
    wavesOf sha256 (log ++ [e]) groupId =
      wavesOf sha256 log groupId ++ if w.groupId = groupId then [w] else [] := by
  unfold wavesOf
  rw [admittedWaves_append, h, Option.toList_some, filter_append]
  by_cases hg : w.groupId = groupId <;> simp [hg]

variable {group : Snapshot}

/-- A group is admitted under the identifier its snapshot has. -/
theorem lookup_groupId_of_admittedGroup (h : e.admittedGroup = some (groupId, group)) :
    group.lookup "group_id" = .str groupId := by
  unfold AdmissionEvent.admittedGroup at h
  split at h
  · split at h
    · split at h
      · rename_i hid
        cases h
        exact hid
      · cases h
    · cases h
  · cases h

theorem lookup_groupId {p : String × Snapshot} (h : p ∈ admittedGroups log) :
    p.2.lookup "group_id" = .str p.1 := by
  obtain ⟨e, -, he⟩ := mem_filterMap.mp h
  exact lookup_groupId_of_admittedGroup he

/-- Where a longer log splits: at its last event, or inside the shorter one. -/
theorem split_append {α : Type} {log before after : List α} {e f : α}
    (h : log ++ [e] = before ++ f :: after) :
    (log = before ∧ e = f) ∨ ∃ rest, log = before ++ f :: rest := by
  rcases eq_nil_or_concat after with rfl | ⟨rest, last, rfl⟩
  · have hsplit := append_inj' h rfl
    exact Or.inl ⟨hsplit.1, (List.cons.inj hsplit.2).1⟩
  · rw [concat_eq_append, ← cons_append, ← append_assoc] at h
    exact Or.inr ⟨rest, (append_inj' h rfl).1⟩

/-- A wave of the log as the index keeps it. -/
def stored (sha256 : String → HexDigest) (log : List AdmissionEvent) (w : DispatchWave) :
    String × DispatchWave :=
  (w.waveId sha256,
    if .str (w.waveId sha256) ∈ completedWaves log then { w with state := .terminal } else w)

@[simp] theorem stored_fst (w : DispatchWave) : (stored sha256 log w).1 = w.waveId sha256 := rfl

@[simp] theorem stored_groupId (w : DispatchWave) :
    (stored sha256 log w).2.groupId = w.groupId := by
  unfold stored
  split <;> rfl

/-- A completed wave has the same entry whether or not it was completed before. -/
theorem stored_terminal (w : DispatchWave) : { (stored sha256 log w).2 with state := .terminal } =
      ({ w with state := .terminal } : DispatchWave) := by
  unfold stored
  split <;> rfl

/-- The index of a log: its groups, its owners, and its waves with the states the completions
leave them in. -/
structure Tracks (sha256 : String → HexDigest) (log : List AdmissionEvent) (s : AdmissionIndex) :
    Prop where
  groupIds : s.groups.keys = (admittedGroups log).map Prod.fst
  group : ∀ p ∈ admittedGroups log, ∃ group, s.groups.get? p.1 = some group ∧
    ∀ name, name ≠ "state" → group.lookup name = p.2.lookup name
  owners : s.owners = (admittedGroups log).map fun p => ownerOf p.2
  waves : s.waves = (admittedWaves sha256 log).map (stored sha256 log)
  states : ∀ w ∈ admittedWaves sha256 log, w.state = .admitted

namespace Tracks

variable {s : AdmissionIndex}

theorem exists_admitted (t : Tracks sha256 log s) (h : s.groups.get? groupId = some group) :
    ∃ admitted, (groupId, admitted) ∈ admittedGroups log ∧
      ∀ name, name ≠ "state" → group.lookup name = admitted.lookup name := by
  have hkey : groupId ∈ s.groups.keys := (mem_keys_iff _ _).mpr ⟨group, h⟩
  rw [t.groupIds] at hkey
  obtain ⟨p, hp, rfl⟩ := mem_map.mp hkey
  obtain ⟨group', hget, hsame⟩ := t.group p hp
  obtain rfl := Option.some.inj (h.symm.trans hget)
  exact ⟨p.2, hp, hsame⟩

theorem previous_eq (t : Tracks sha256 log s) (groupId : String) :
    s.waves.filter (fun p => decide (PayloadValue.str p.2.groupId = .str groupId)) =
      (wavesOf sha256 log groupId).map (stored sha256 log) := by
  rw [t.waves, filter_map]
  unfold wavesOf
  congr 1
  apply filter_congr
  intro w _
  simp

theorem completed_of_terminal (t : Tracks sha256 log s) (hw : w ∈ admittedWaves sha256 log)
    (h : (stored sha256 log w).2.state = .terminal) :
    .str (w.waveId sha256) ∈ completedWaves log := by
  by_contra hnot
  unfold stored at h
  rw [if_neg hnot] at h
  rw [t.states w hw] at h
  cases h

end Tracks

/-! ## Every event keeps what holds of the log -/

/-- The first 32 digits of the digests tell the contents of the admitted waves apart. -/
def CollisionFree (sha256 : String → HexDigest) (log : List AdmissionEvent) : Prop :=
  ∀ w ∈ admittedWaves sha256 log, ∀ w' ∈ admittedWaves sha256 log,
    shortDigest sha256 w.content.dumps =
      shortDigest sha256 w'.content.dumps → w.content.dumps = w'.content.dumps

/-- A completion names a wave of the log. -/
theorem WellAdmitted.exists_wave (h : WellAdmitted sha256 log) {waveId : PayloadValue}
    (hmem : waveId ∈ completedWaves log) :
    ∃ w ∈ admittedWaves sha256 log, waveId = .str (w.waveId sha256) := by
  obtain ⟨e, he, hdone⟩ := mem_filterMap.mp hmem
  obtain ⟨before, after, hsplit⟩ := append_of_mem he
  obtain ⟨w, hw, heq⟩ := (h.completed before e after hsplit waveId hdone).2
  refine ⟨w, ?_, heq⟩
  unfold admittedWaves at hw ⊢
  rw [hsplit, filterMap_append]
  exact mem_append_left _ hw

/-- A log that completes nothing more keeps what its completions satisfy. -/
theorem WellAdmitted.completed_append (h : WellAdmitted sha256 log)
    (hdone : e.completedWave = none) : ∀ before f after, log ++ [e] = before ++ f :: after →
      ∀ waveId, f.completedWave = some waveId → waveId ∉ completedWaves before ∧
        ∃ w ∈ admittedWaves sha256 before, waveId = .str (w.waveId sha256) := by
  intro before f after hsplit waveId hf
  rcases split_append hsplit with ⟨rfl, rfl⟩ | ⟨rest, hlog⟩
  · rw [hdone] at hf
    cases hf
  · exact h.completed before f rest hlog waveId hf

/-- An event that adds nothing to a log keeps what holds of it. -/
theorem WellAdmitted.append_nothing (h : WellAdmitted sha256 log)
    (hgroup : e.admittedGroup = none) (hwave : e.admittedWave sha256 = none)
    (hdone : e.completedWave = none) : WellAdmitted sha256 (log ++ [e]) := by
  have hgroups := admittedGroups_append_of_none log hgroup
  have hwaves := admittedWaves_append_of_none log hwave
  have hcompleted := completedWaves_append_of_none log hdone
  have hof : ∀ groupId, wavesOf sha256 (log ++ [e]) groupId = wavesOf sha256 log groupId :=
    wavesOf_append_of_none hwave
  refine ⟨?_, ?_, ?_, ?_, ?_, ?_, ?_, ?_, h.completed_append hdone⟩
  · intro groupId
    unfold activeWaves
    rw [hof, hcompleted]
    exact h.active groupId
  · intro groupId
    rw [hof]
    exact h.ordinals groupId
  · rw [hwaves, hgroups]
    exact h.admitted
  · rw [hwaves, hgroups]
    exact h.scope
  · intro p hp
    rw [hof]
    exact h.bound p (hgroups ▸ hp)
  · rw [hgroups]
    exact h.groups
  · rw [hgroups]
    exact h.owners
  · rw [hwaves]
    exact h.waves

/-- A dictionary of items with distinct keys, after an assignment to the key of one of them. -/
theorem set_map_of_nodup {α ν : Type} {key : α → String} {value : α → ν} {xs : List α} {x : α}
    (hnodup : (xs.map key).Nodup) (hx : x ∈ xs) (v : ν) :
    PyDict.set (xs.map fun y => (key y, value y)) (key x) v =
      xs.map fun y => (key y, if key y = key x then v else value y) := by
  induction xs with
  | nil => cases hx
  | cons y ys ih =>
    rw [map_cons, nodup_cons] at hnodup
    rw [map_cons, map_cons]
    by_cases hkey : key y = key x
    · have hrest : ∀ z ∈ ys, key z ≠ key x := by
        intro z hz heq
        exact hnodup.1 (mem_map.mpr ⟨z, hz, heq.trans hkey.symm⟩)
      show (if key y = key x then _ else _) = _
      rw [if_pos hkey, if_pos hkey, hkey]
      congr 1
      apply map_congr_left
      intro z hz
      rw [if_neg (hrest z hz)]
    · have hx' : x ∈ ys := by
        rcases mem_cons.mp hx with rfl | hx'
        · exact absurd rfl hkey
        · exact hx'
      show (if key y = key x then _ else _) = _
      rw [if_neg hkey, if_neg hkey, ih hnodup.2 hx']

variable {s : AdmissionIndex}

theorem lookup_set {g : Snapshot} {name key : String} (v : PayloadValue) (h : name ≠ key) :
    Snapshot.lookup (PyDict.set g key v) name = Snapshot.lookup g name := by
  unfold Snapshot.lookup
  rw [get?_set_of_ne g v h]

theorem stored_append_of_none (hdone : e.completedWave = none) :
    stored sha256 (log ++ [e]) = stored sha256 log := by
  funext w
  unfold stored
  rw [completedWaves_append_of_none log hdone]

section

variable (t : Tracks sha256 log s)

include t

/-- A transition of a group changes nothing but the state in its entry. -/
theorem Tracks.move {state : PayloadValue} (hgroup : e.admittedGroup = none)
    (hwave : e.admittedWave sha256 = none) (hdone : e.completedWave = none)
    (known : s.groups.get? groupId = some group) : Tracks sha256 (log ++ [e])
      { s with groups := s.groups.set groupId (group.set "state" state) } := by
  have hgroups := admittedGroups_append_of_none log hgroup
  have hwaves := admittedWaves_append_of_none log hwave
  refine ⟨?_, ?_, ?_, ?_, ?_⟩
  · rw [hgroups, ← t.groupIds]
    exact keys_set_of_mem _ ((mem_keys_iff _ _).mpr ⟨group, known⟩)
  · rw [hgroups]
    intro p hp
    obtain ⟨entry, hget, hsame⟩ := t.group p hp
    by_cases hid : p.1 = groupId
    · refine ⟨group.set "state" state, ?_, ?_⟩
      · rw [hid]
        exact get?_set_self _ _ _
      · intro name hname
        rw [lookup_set _ hname]
        rw [hid, known] at hget
        cases hget
        exact hsame name hname
    · refine ⟨entry, ?_, hsame⟩
      rw [get?_set_of_ne _ _ hid, hget]
  · rw [hgroups]
    exact t.owners
  · rw [hwaves, stored_append_of_none hdone]
    exact t.waves
  · rw [hwaves]
    exact t.states

/-- An event that adds nothing to the log leaves the index of the log. -/
theorem Tracks.same (hgroup : e.admittedGroup = none)
    (hwave : e.admittedWave sha256 = none) (hdone : e.completedWave = none) :
    Tracks sha256 (log ++ [e]) s := by
  have hgroups := admittedGroups_append_of_none log hgroup
  have hwaves := admittedWaves_append_of_none log hwave
  refine ⟨?_, ?_, ?_, ?_, ?_⟩
  · rw [hgroups]
    exact t.groupIds
  · rw [hgroups]
    exact t.group
  · rw [hgroups]
    exact t.owners
  · rw [hwaves, stored_append_of_none hdone]
    exact t.waves
  · rw [hwaves]
    exact t.states

/-- An admission of a group adds its entry and its owner. -/
theorem Tracks.admitGroup (hgroup : e.admittedGroup = some (groupId, group))
    (hwave : e.admittedWave sha256 = none) (hdone : e.completedWave = none)
    (fresh : groupId ∉ s.groups.keys) : Tracks sha256 (log ++ [e]) { s with
      groups := s.groups.set groupId group, owners := s.owners ++ [ownerOf group] } := by
  have hgroups : admittedGroups (log ++ [e]) = admittedGroups log ++ [(groupId, group)] := by
    rw [admittedGroups_append, hgroup, Option.toList_some]
  have hwaves := admittedWaves_append_of_none log hwave
  refine ⟨?_, ?_, ?_, ?_, ?_⟩
  · rw [hgroups, map_append, ← t.groupIds]
    exact keys_set_of_notMem _ fresh
  · rw [hgroups]
    intro p hp
    rcases mem_append.mp hp with hp | hp
    · obtain ⟨entry, hget, hsame⟩ := t.group p hp
      have hne : p.1 ≠ groupId := by
        rintro rfl
        exact fresh ((mem_keys_iff _ _).mpr ⟨entry, hget⟩)
      refine ⟨entry, ?_, hsame⟩
      rw [get?_set_of_ne _ _ hne, hget]
    · obtain rfl := mem_singleton.mp hp
      exact ⟨group, get?_set_self _ _ _, fun name _ => rfl⟩
  · rw [hgroups, map_append, ← t.owners]
    rfl
  · rw [hwaves, stored_append_of_none hdone]
    exact t.waves
  · rw [hwaves]
    exact t.states

/-- An admission of a wave under a new identifier adds its entry. -/
theorem Tracks.admitWave (hgroup : e.admittedGroup = none)
    (hwave : e.admittedWave sha256 = some w) (hdone : e.completedWave = none)
    (state : w.state = .admitted)
    (fresh : w.waveId sha256 ∉ (admittedWaves sha256 log).map (DispatchWave.waveId sha256))
    (hnew : PayloadValue.str (w.waveId sha256) ∉ completedWaves log) :
    Tracks sha256 (log ++ [e]) { s with waves := s.waves.set (w.waveId sha256) w } := by
  have hgroups := admittedGroups_append_of_none log hgroup
  have hwaves : admittedWaves sha256 (log ++ [e]) = admittedWaves sha256 log ++ [w] := by
    rw [admittedWaves_append, hwave, Option.toList_some]
  have hkeys : w.waveId sha256 ∉ s.waves.keys := by
    rw [t.waves]
    unfold PyDict.keys
    rw [map_map]
    exact fresh
  have hstored : stored sha256 log w = (w.waveId sha256, w) := by
    unfold stored
    rw [if_neg hnew]
  refine ⟨?_, ?_, ?_, ?_, ?_⟩
  · rw [hgroups]
    exact t.groupIds
  · rw [hgroups]
    exact t.group
  · rw [hgroups]
    exact t.owners
  · show s.waves.set (w.waveId sha256) w = _
    rw [hwaves, stored_append_of_none hdone, map_append, ← t.waves, map_singleton, hstored]
    exact set_of_notMem _ hkeys
  · rw [hwaves]
    intro v hv
    rcases mem_append.mp hv with hv | hv
    · exact t.states v hv
    · exact mem_singleton.mp hv ▸ state

/-- A completion makes the entry of its wave terminal. -/
theorem Tracks.complete {waveId : String} (hgroup : e.admittedGroup = none)
    (hwave : e.admittedWave sha256 = none) (hdone : e.completedWave = some (.str waveId))
    (known : s.waves.get? waveId = some w)
    (hnodup : ((admittedWaves sha256 log).map (DispatchWave.waveId sha256)).Nodup) :
    Tracks sha256 (log ++ [e])
      { s with waves := s.waves.set waveId { w with state := .terminal } } := by
  have hgroups := admittedGroups_append_of_none log hgroup
  have hwaves := admittedWaves_append_of_none log hwave
  have hmem := mem_of_get? known
  rw [t.waves] at hmem
  obtain ⟨v, hv, heq⟩ := mem_map.mp hmem
  cases heq
  refine ⟨?_, ?_, ?_, ?_, ?_⟩
  · rw [hgroups]
    exact t.groupIds
  · rw [hgroups]
    exact t.group
  · rw [hgroups]
    exact t.owners
  · show PyDict.set s.waves (v.waveId sha256) _ = _
    rw [hwaves, t.waves]
    refine (set_map_of_nodup hnodup hv _).trans ?_
    apply map_congr_left
    intro u hu
    have hcompleted : completedWaves (log ++ [e]) =
        completedWaves log ++ [.str (v.waveId sha256)] := by
      rw [completedWaves_append, hdone]
      rfl
    by_cases hid : u.waveId sha256 = v.waveId sha256
    · -- the identifiers are distinct, so this is the completed wave itself
      obtain rfl := inj_on_of_nodup_map hnodup hu hv hid
      rw [if_pos rfl]
      refine congrArg (Prod.mk _) ((stored_terminal u).trans ?_)
      rw [if_pos (by rw [hcompleted]; simp)]
    · rw [if_neg hid]
      unfold stored
      rw [hcompleted]
      simp [hid]
  · rw [hwaves]
    exact t.states

end

/-- An admission of a group keeps what holds of the log. -/
theorem WellAdmitted.admitGroup (h : WellAdmitted sha256 log)
    (hgroup : e.admittedGroup = some (groupId, group)) (hwave : e.admittedWave sha256 = none)
    (hdone : e.completedWave = none) (fresh : groupId ∉ (admittedGroups log).map Prod.fst)
    (free : ownerOf group ∉ (admittedGroups log).map fun p => ownerOf p.2) :
    WellAdmitted sha256 (log ++ [e]) := by
  have hgroups : admittedGroups (log ++ [e]) = admittedGroups log ++ [(groupId, group)] := by
    rw [admittedGroups_append, hgroup, Option.toList_some]
  have hwaves := admittedWaves_append_of_none log hwave
  have hcompleted := completedWaves_append_of_none log hdone
  have hof : ∀ groupId, wavesOf sha256 (log ++ [e]) groupId = wavesOf sha256 log groupId :=
    wavesOf_append_of_none hwave
  -- no wave of the log belongs to the new group
  have hnone : ∀ w ∈ admittedWaves sha256 log, w.groupId ≠ groupId := by
    rintro w hw rfl
    obtain ⟨group', hmem⟩ := h.admitted w hw
    exact fresh (mem_map.mpr ⟨_, hmem, rfl⟩)
  refine ⟨?_, ?_, ?_, ?_, ?_, ?_, ?_, ?_, h.completed_append hdone⟩
  · intro id
    unfold activeWaves
    rw [hof, hcompleted]
    exact h.active id
  · intro id
    rw [hof]
    exact h.ordinals id
  · rw [hwaves, hgroups]
    intro w hw
    obtain ⟨group', hmem⟩ := h.admitted w hw
    exact ⟨group', mem_append_left _ hmem⟩
  · rw [hwaves, hgroups]
    intro w hw group' hmem
    rcases mem_append.mp hmem with hmem | hmem
    · exact h.scope w hw group' hmem
    · obtain ⟨hid, -⟩ := Prod.mk.inj (mem_singleton.mp hmem)
      exact absurd hid (hnone w hw)
  · rw [hgroups]
    intro p hp
    rw [hof]
    rcases mem_append.mp hp with hp | hp
    · exact h.bound p hp
    · obtain rfl := mem_singleton.mp hp
      intro hne
      obtain ⟨w, hw⟩ := exists_mem_of_ne_nil _ hne
      obtain ⟨hmem, hid⟩ := mem_filter.mp hw
      exact absurd (of_decide_eq_true hid) (hnone w hmem)
  · rw [hgroups, map_append, map_singleton, ← concat_eq_append]
    exact h.groups.concat fresh
  · rw [hgroups, map_append, map_singleton, ← concat_eq_append]
    exact h.owners.concat free
  · rw [hwaves]
    exact h.waves

/-- A completion of a wave that was not completed keeps what holds of the log. -/
theorem WellAdmitted.complete (h : WellAdmitted sha256 log) (hgroup : e.admittedGroup = none)
    (hwave : e.admittedWave sha256 = none)
    (hdone : e.completedWave = some (.str (w.waveId sha256))) (hw : w ∈ admittedWaves sha256 log)
    (hopen : PayloadValue.str (w.waveId sha256) ∉ completedWaves log) :
    WellAdmitted sha256 (log ++ [e]) := by
  have hgroups := admittedGroups_append_of_none log hgroup
  have hwaves := admittedWaves_append_of_none log hwave
  have hcompleted : completedWaves (log ++ [e]) =
      completedWaves log ++ [.str (w.waveId sha256)] := by
    rw [completedWaves_append, hdone, Option.toList_some]
  have hof : ∀ groupId, wavesOf sha256 (log ++ [e]) groupId = wavesOf sha256 log groupId :=
    wavesOf_append_of_none hwave
  refine ⟨?_, ?_, ?_, ?_, ?_, ?_, ?_, ?_, ?_⟩
  · intro id
    unfold activeWaves
    rw [hof]
    refine le_trans (List.Sublist.length_le (monotone_filter_right _ ?_)) (h.active id)
    intro v hv
    rw [decide_eq_true_eq, hcompleted] at hv
    exact decide_eq_true fun hmem => hv (mem_append_left _ hmem)
  · intro id
    rw [hof]
    exact h.ordinals id
  · rw [hwaves, hgroups]
    exact h.admitted
  · rw [hwaves, hgroups]
    exact h.scope
  · rw [hgroups]
    intro p hp
    rw [hof]
    exact h.bound p hp
  · rw [hgroups]
    exact h.groups
  · rw [hgroups]
    exact h.owners
  · rw [hwaves]
    exact h.waves
  · intro before f after hsplit waveId hf
    rcases split_append hsplit with ⟨rfl, rfl⟩ | ⟨rest, hlog⟩
    · rw [hdone] at hf
      cases hf
      exact ⟨hopen, w, hw, rfl⟩
    · exact h.completed before f rest hlog waveId hf

/-- An admission of the next wave of a group without active waves keeps what holds of the
log. -/
theorem WellAdmitted.admitWave (h : WellAdmitted sha256 log) {items : List PayloadValue}
    {limit : ℚ} (hgroup : e.admittedGroup = none) (hwave : e.admittedWave sha256 = some w)
    (hdone : e.completedWave = none) (known : (w.groupId, group) ∈ admittedGroups log)
    (hitems : itemsOf (group.lookup "task_ids") = .ok items)
    (scope : ∀ t ∈ w.taskIds, .str t ∈ items)
    (closed : ∀ v ∈ wavesOf sha256 log w.groupId, .str (v.waveId sha256) ∈ completedWaves log)
    (ordinal : w.ordinal = (wavesOf sha256 log w.groupId).length + 1)
    (hlimit : group.lookup "max_waves" = .num limit) (bound : (w.ordinal : ℚ) ≤ limit)
    (fresh : w.waveId sha256 ∉ (admittedWaves sha256 log).map (DispatchWave.waveId sha256)) :
    WellAdmitted sha256 (log ++ [e]) := by
  have hgroups := admittedGroups_append_of_none log hgroup
  have hwaves : admittedWaves sha256 (log ++ [e]) = admittedWaves sha256 log ++ [w] := by
    rw [admittedWaves_append, hwave, Option.toList_some]
  have hcompleted := completedWaves_append_of_none log hdone
  have hof : ∀ groupId, wavesOf sha256 (log ++ [e]) groupId =
      wavesOf sha256 log groupId ++ if w.groupId = groupId then [w] else [] :=
    wavesOf_append hwave
  have honly : ∀ group', (w.groupId, group') ∈ admittedGroups log → group' = group := by
    intro group' hmem
    have heq := inj_on_of_nodup_map h.groups hmem known rfl
    exact (Prod.mk.inj heq).2
  refine ⟨?_, ?_, ?_, ?_, ?_, ?_, ?_, ?_, h.completed_append hdone⟩
  · intro id
    unfold activeWaves
    rw [hof, hcompleted, filter_append, length_append]
    by_cases hid : w.groupId = id
    · -- the earlier waves of the group are completed
      subst hid
      have hnil : (wavesOf sha256 log w.groupId).filter
          (fun v => decide (.str (v.waveId sha256) ∉ completedWaves log)) = [] := by
        rw [filter_eq_nil_iff]
        intro v hv hnot
        exact of_decide_eq_true hnot (closed v hv)
      rw [hnil, if_pos rfl, length_nil, Nat.zero_add]
      exact length_filter_le _ _
    · rw [if_neg hid, filter_nil, length_nil, Nat.add_zero]
      exact h.active id
  · intro id
    rw [hof]
    by_cases hid : w.groupId = id
    · subst hid
      rw [if_pos rfl, map_append, h.ordinals, map_singleton, ordinal,
        length_append, length_singleton, range_succ, map_append]
      rfl
    · rw [if_neg hid, append_nil]
      exact h.ordinals id
  · rw [hwaves, hgroups]
    intro v hv
    rcases mem_append.mp hv with hv | hv
    · exact h.admitted v hv
    · obtain rfl := mem_singleton.mp hv
      exact ⟨group, known⟩
  · rw [hwaves, hgroups]
    intro v hv group' hmem
    rcases mem_append.mp hv with hv | hv
    · exact h.scope v hv group' hmem
    · obtain rfl := mem_singleton.mp hv
      rw [honly group' hmem]
      exact ⟨items, hitems, scope⟩
  · rw [hgroups]
    intro p hp hne
    rw [hof] at hne ⊢
    by_cases hid : w.groupId = p.1
    · obtain ⟨id, group'⟩ := p
      obtain rfl : w.groupId = id := hid
      rw [if_pos rfl, length_append, length_singleton]
      refine ⟨limit, ?_, ?_⟩
      · rw [honly group' hp]
        exact hlimit
      · rw [ordinal] at bound
        exact_mod_cast bound
    · rw [if_neg hid, append_nil] at hne ⊢
      exact h.bound p hp hne
  · rw [hgroups]
    exact h.groups
  · rw [hgroups]
    exact h.owners
  · rw [hwaves, map_append, map_singleton, ← concat_eq_append]
    exact h.waves.concat fresh

/-! ## Runs -/

/-- Every accepted event keeps the index of the log and what holds of the log. -/
theorem step (h : WellAdmitted sha256 log) (t : Tracks sha256 log s) {s' : AdmissionIndex}
    (hfree : CollisionFree sha256 (log ++ [e])) (heffect : Effect sha256 s e s') :
    WellAdmitted sha256 (log ++ [e]) ∧ Tracks sha256 (log ++ [e]) s' := by
  cases heffect with
  | group hgroup hwave hdone fresh free =>
    refine ⟨h.admitGroup hgroup hwave hdone ?_ ?_, t.admitGroup hgroup hwave hdone fresh⟩
    · rw [← t.groupIds]
      exact fresh
    · rw [← t.owners]
      exact free
  | wave hgroup hwave hdone state known hitems scope hprevious closed ordinal hlimit bound
      fresh =>
    rename_i w group items limit previous
    obtain ⟨admitted, hmem, hsame⟩ := t.exists_admitted known
    rw [hsame _ (by decide), lookup_groupId hmem, t.previous_eq] at hprevious
    rw [hsame _ (by decide)] at hitems hlimit
    subst hprevious
    rw [length_map] at ordinal
    have hclosed : ∀ v ∈ wavesOf sha256 log w.groupId,
        PayloadValue.str (v.waveId sha256) ∈ completedWaves log := by
      intro v hv
      exact t.completed_of_terminal (mem_filter.mp hv).1
        (closed _ (mem_map.mpr ⟨v, hv, rfl⟩))
    have hwaves : admittedWaves sha256 (log ++ [e]) = admittedWaves sha256 log ++ [w] := by
      rw [admittedWaves_append, hwave, Option.toList_some]
    -- a wave of the same identifier would be a wave of the same group
    have hfresh : w.waveId sha256 ∉
        (admittedWaves sha256 log).map (DispatchWave.waveId sha256) := by
      intro hid
      obtain ⟨v, hv, heq⟩ := mem_map.mp hid
      have hsame : v.groupId = w.groupId := by
        apply groupId_eq_of_waveId _ heq
        apply hfree v _ w
        · rw [hwaves]
          simp
        · rw [hwaves]
          exact mem_append_left _ hv
      refine fresh _ (mem_map.mpr ⟨v, ?_, rfl⟩) heq
      exact mem_filter.mpr ⟨hv, decide_eq_true hsame⟩
    have hnew : PayloadValue.str (w.waveId sha256) ∉ completedWaves log := by
      intro hid
      obtain ⟨v, hv, heq⟩ := h.exists_wave hid
      exact hfresh (mem_map.mpr ⟨v, hv, (PayloadValue.str.inj heq).symm⟩)
    exact ⟨h.admitWave hgroup hwave hdone hmem hitems scope hclosed ordinal hlimit bound hfresh,
      t.admitWave hgroup hwave hdone state hfresh hnew⟩
  | completed hgroup hwave hdone known running =>
    rename_i waveId w
    have hmem := mem_of_get? known
    rw [t.waves] at hmem
    obtain ⟨v, hv, heq⟩ := mem_map.mp hmem
    cases heq
    have hopen : PayloadValue.str (v.waveId sha256) ∉ completedWaves log := by
      intro hdone'
      rw [if_pos hdone'] at running
      exact running rfl
    exact ⟨h.complete hgroup hwave hdone hv hopen, t.complete hgroup hwave hdone known h.waves⟩
  | moved hgroup hwave hdone known =>
    exact ⟨h.append_nothing hgroup hwave hdone, t.move hgroup hwave hdone known⟩
  | same hgroup hwave hdone =>
    exact ⟨h.append_nothing hgroup hwave hdone, t.same hgroup hwave hdone⟩

theorem CollisionFree.of_initial {pre : List AdmissionEvent} (h : CollisionFree sha256 log)
    (hpre : pre <+: log) : CollisionFree sha256 pre := by
  have hsub : ∀ w ∈ admittedWaves sha256 pre, w ∈ admittedWaves sha256 log := by
    intro w hw
    exact (hpre.filterMap _).subset hw
  intro w hw w' hw'
  exact h w (hsub w hw) w' (hsub w' hw')

theorem wellAdmitted_nil : WellAdmitted sha256 [] where
  active _ := Nat.zero_le _
  ordinals _ := rfl
  admitted w hw := by cases hw
  scope w hw := by cases hw
  bound p hp := by cases hp
  groups := nodup_nil
  owners := nodup_nil
  waves := nodup_nil
  completed before e after hsplit := by simp at hsplit

theorem tracks_nil : Tracks sha256 [] .empty where
  groupIds := rfl
  group p hp := by cases hp
  owners := rfl
  waves := rfl
  states w hw := by cases hw

/-- A log that can be replayed is well admitted, and its index is that of the log. -/
theorem wellAdmitted_of_foldlM (log : List AdmissionEvent) : ∀ {s : AdmissionIndex},
    log.foldlM (admissionStep sha256) .empty = .ok s → CollisionFree sha256 log →
      WellAdmitted sha256 log ∧ Tracks sha256 log s := by
  induction log using List.reverseRecOn with
  | nil =>
    intro s h _
    cases h
    exact ⟨wellAdmitted_nil, tracks_nil⟩
  | append_singleton log e ih =>
    intro s h hfree
    rw [foldlM_append] at h
    obtain ⟨mid, hmid, hlast⟩ := bind_inv h
    rw [foldlM_cons] at hlast
    obtain ⟨s', hstep, hend⟩ := bind_inv hlast
    cases hend
    obtain ⟨hwell, htracks⟩ := ih hmid (hfree.of_initial (prefix_append log [e]))
    exact step hwell htracks hfree (admissionStep_effect hstep)

theorem foldlM_of_not_relevant {batch : List AdmissionEvent} (s : AdmissionIndex)
    (h : ∀ e ∈ batch, ¬ e.relevant) : batch.foldlM (admissionStep sha256) s = .ok s := by
  induction batch with
  | nil => rfl
  | cons e batch ih =>
    rw [foldlM_cons, admissionStep_of_not_relevant (h e (by simp)), ok_bind]
    exact ih fun f hf => h f (mem_cons_of_mem _ hf)

/-- A grown log can be replayed, also where an append returned early. -/
theorem Grown.exists_index {validateEarlier : List AdmissionEvent → List AdmissionEvent →
    Except Raised Unit} (h : Grown sha256 validateEarlier log) :
    ∃ s, log.foldlM (admissionStep sha256) .empty = .ok s := by
  induction h with
  | empty => exact ⟨.empty, rfl⟩
  | append h accepted ih =>
    rename_i history batch
    unfold validateParallelAdmissionAppend at accepted
    obtain ⟨-, hcheck⟩ := check_inv accepted
    by_cases hrelevant : ∃ e ∈ batch, e.relevant
    · rw [if_pos hrelevant] at hcheck
      obtain ⟨s, hs, -⟩ := bind_inv hcheck
      exact ⟨s, hs⟩
    · obtain ⟨s, hs⟩ := ih
      refine ⟨s, ?_⟩
      rw [foldlM_append, hs, ok_bind]
      apply foldlM_of_not_relevant
      intro e he hr
      exact hrelevant ⟨e, he, hr⟩

/-- Every prefix of a grown log is well admitted. -/
theorem wellAdmitted_of_grown {validateEarlier : List AdmissionEvent → List AdmissionEvent →
    Except Raised Unit} (h : Grown sha256 validateEarlier log) (hfree : CollisionFree sha256 log)
    {pre : List AdmissionEvent} (hpre : pre <+: log) : WellAdmitted sha256 pre := by
  obtain ⟨s, hs⟩ := h.exists_index
  obtain ⟨rest, hrest⟩ := hpre
  rw [← hrest, foldlM_append] at hs
  obtain ⟨mid, hmid, -⟩ := bind_inv hs
  exact (wellAdmitted_of_foldlM pre hmid (hfree.of_initial ⟨rest, hrest⟩)).1

end Logs

namespace Sample

/-- The snapshot of a group of the task `t` with one wave at most. -/
def groupSnapshot : Snapshot :=
  [("group_id", .str "g"), ("state", .str "ADMITTED"), ("run_id", .str "r"),
    ("stage_id", .str "s"), ("plan_id", .str "p"), ("plan_version", .num 1),
    ("task_ids", .arr [.str "t"]), ("max_parallelism", .num 1), ("max_waves", .num 1)]

/-- The wave of the task `t`. -/
def firstWave : DispatchWave where
  groupId := "g"
  ordinal := 1
  taskIds := ["t"]
  effectiveParallelism := 1
  reservations := [⟨"t", "k", [("turns", 1)], [], [], none⟩]
  state := .admitted
  terminalOutcome := none
  schemaVersion := DispatchWave.schema
  executionMode := "SUPERVISED"
  packing := ⟨["t"], [], .obj [("selected", .arr [.str "t"])]⟩

/-- The identifier of the wave. -/
def firstWaveId : String := firstWave.waveId sha256Hex

/-- An admission of the group and its wave, and the completion of the wave. -/
def admissionLog : List AdmissionEvent :=
  [⟨"TASK_GROUP_ADMITTED", [("group", .obj groupSnapshot)], none⟩,
    ⟨"TASK_WAVE_ADMITTED", [("group", .obj groupSnapshot)], some ⟨firstWaveId, firstWave⟩⟩,
    ⟨"TASK_WAVE_COMPLETED", [("wave_id", .str firstWaveId), ("group_id", .str "g"),
      ("task_ids", .arr [.str "t"]), ("terminal_outcome", .str "SUCCEEDED")], none⟩]

theorem collisionFree_admissionLog : CollisionFree sha256Hex admissionLog := by
  have hone : (admittedWaves sha256Hex admissionLog).length = 1 := by decide +kernel
  obtain ⟨w, hw⟩ := length_eq_one_iff.mp hone
  intro v hv v' hv' _
  rw [hw] at hv hv'
  rw [mem_singleton.mp hv, mem_singleton.mp hv']

/-- The log of one append is well admitted. -/
theorem wellAdmitted_admissionLog : WellAdmitted sha256Hex admissionLog :=
  have grown : Grown sha256Hex (fun _ _ => .ok ()) ([] ++ admissionLog) :=
    Grown.append Grown.empty (eq_ok_of_isOk (by decide +kernel))
  wellAdmitted_of_grown grown collisionFree_admissionLog (prefix_refl _)

end Sample

end TaskPlan
