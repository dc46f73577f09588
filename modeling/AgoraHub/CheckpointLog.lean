/-
# The log of checkpoints

`JsonlTaskPlanCheckpointStore` appends a line for every new checkpoint and reads the lines
back when it is opened.  A process that stops inside the text of a line leaves a log that
cannot be opened, and one that stops before the line break leaves a log that the next line
spoils; in every other run the log is read back as it was written.
-/
import AgoraHub.PyDict
import AgoraHub.PyText
import AgoraHub.StepRuns
import AgoraHub.TaskPlanCanonical

namespace TaskPlan

open Fallible List PyDict StepRuns
open StepRuns (run)

/-! ## Lines -/

/-- A character that ends a line for `str.splitlines`. -/
def isLineBreak (c : Char) : Bool :=
  [10, 11, 12, 13, 28, 29, 30, 0x85, 0x2028, 0x2029].contains c.toNat

/-- `str.splitlines`, from a line that was begun.  A text that was read has no carriage return
before a line feed. -/
def splitLines : List Char → List Char → List (List Char)
  | [], current => if current = [] then [] else [current]
  | c :: text, current =>
    if isLineBreak c then current :: splitLines text [] else splitLines text (current ++ [c])

theorem splitLines_append {line : List Char} (h : ∀ c ∈ line, isLineBreak c = false)
    (text current : List Char) :
    splitLines (line ++ text) current = splitLines text (current ++ line) := by
  induction line generalizing current with
  | nil => rw [nil_append, append_nil]
  | cons c line ih =>
    rw [cons_append, splitLines, if_neg (by simp [h c mem_cons_self]),
      ih (fun c hc => h c (mem_cons_of_mem _ hc)), append_assoc, singleton_append]

/-! ## The store -/

/-- What the store uses of checkpoints: their identity, their checksum, the text
`json.dumps(checkpoint.to_dict(), ...)` and `from_dict(json.loads(line))`, which can raise. -/
structure CheckpointCodec (C : Type) where
  checkpointId : C → String
  checkpointChecksum : C → String
  encode : C → List Char
  decode : List Char → Option C

/-- A text is read back as the checkpoint it was written from, is one line that is not blank, and
the checksum stands for the content. -/
structure CheckpointCodec.Lawful {C : Type} (codec : CheckpointCodec C) : Prop where
  decode_encode : ∀ c, codec.decode (codec.encode c) = some c
  no_break : ∀ c, ∀ ch ∈ codec.encode c, isLineBreak ch = false
  visible : ∀ c, (codec.encode c).all PyText.isSpace = false
  checksum_inj : ∀ c c', codec.checkpointChecksum c = codec.checkpointChecksum c' → c = c'

namespace CheckpointLog

variable {C : Type} (codec : CheckpointCodec C) (path : String)

/-- `InMemoryTaskPlanCheckpointStore.save` -/
def remember (checkpoints : PyDict String C) (checkpoint : C) :
    Except HarnessValidationError (PyDict String C) :=
  let id := codec.checkpointId checkpoint
  match checkpoints.get? id with
  | none => .ok (checkpoints.set id checkpoint)
  | some existing => do
    require (codec.checkpointChecksum existing = codec.checkpointChecksum checkpoint)
      ⟨"TaskPlan checkpoint id already contains different content", "task_plan_checkpoint_conflict",
        [("checkpoint_id", .str id)]⟩
    return checkpoints.set id checkpoint

/-- `load` of a normalized identity. -/
def load (checkpoints : PyDict String C) (checkpointId : String) : Except HarnessValidationError C :=
  orRaise (checkpoints.get? checkpointId)
    ⟨"TaskPlan checkpoint was not found", "task_plan_checkpoint_missing",
      [("checkpoint_id", .str checkpointId)]⟩

/-- The loop of the constructor over the lines from a number on. -/
def readLines : ℕ → List (List Char) → PyDict String C →
    Except HarnessValidationError (PyDict String C)
  | _, [], checkpoints => .ok checkpoints
  | number, line :: lines, checkpoints =>
    if line.all PyText.isSpace then readLines (number + 1) lines checkpoints
    else do
      let checkpoint ← orRaise (codec.decode line)
        ⟨"TaskPlan checkpoint log contains invalid content", "task_plan_checkpoint_log_corrupt",
          [("path", .str path), ("line", .int number)]⟩
      let checkpoints ← remember codec checkpoints checkpoint
      readLines (number + 1) lines checkpoints

/-- The constructor, over the content of the file. -/
def openLog (file : List Char) : Except HarnessValidationError (PyDict String C) :=
  readLines codec path 1 (splitLines file []) []

/-- The line that is appended for a checkpoint. -/
def lineOf (checkpoint : C) : List Char := codec.encode checkpoint ++ ['\n']

/-- `JsonlTaskPlanCheckpointStore.save` -/
def save (file : List Char) (checkpoints : PyDict String C) (checkpoint : C) :
    Except HarnessValidationError (List Char × PyDict String C) :=
  match checkpoints.get? (codec.checkpointId checkpoint) with
  | some _ => do
    let checkpoints ← remember codec checkpoints checkpoint
    return (file, checkpoints)
  | none => do
    let checkpoints ← remember codec checkpoints checkpoint
    return (file ++ lineOf codec checkpoint, checkpoints)

/-! ## Runs -/

/-- The file and the store that has it open, or what opening it raised. -/
structure State (C : Type) where
  file : List Char := []
  store : Except HarnessValidationError (PyDict String C) := .ok []

/-- A call of `save`, a call in which the process stops after some characters of the line, and
the opening of the file by a process anew. -/
inductive Step (C : Type) where
  | save (checkpoint : C)
  | stop (checkpoint : C) (written : ℕ)
  | reopen

/-- No checkpoint of that identity is there, so that a line is appended for one. -/
def IsNew (checkpoints : PyDict String C) (checkpoint : C) : Prop :=
  checkpoints.get? (codec.checkpointId checkpoint) = none

instance (checkpoints : PyDict String C) (checkpoint : C) :
    Decidable (IsNew codec checkpoints checkpoint) :=
  decidable_of_iff ((checkpoints.get? (codec.checkpointId checkpoint)).isNone = true)
    Option.isNone_iff_eq_none

/-- What is left in the file when the process stops; a stopped process is followed by another,
which opens the file. -/
def step (s : State C) : Step C → State C
  | .save checkpoint =>
    match s.store with
    | .error _ => s
    | .ok checkpoints =>
      match save codec s.file checkpoints checkpoint with
      | .error _ => s
      | .ok (file, checkpoints) => ⟨file, .ok checkpoints⟩
  | .stop checkpoint written =>
    match s.store with
    | .error _ => s
    | .ok checkpoints =>
      let file := if IsNew codec checkpoints checkpoint then
        s.file ++ (lineOf codec checkpoint).take written else s.file
      ⟨file, openLog codec path file⟩
  | .reopen => ⟨s.file, openLog codec path s.file⟩

/-- A line can be appended. -/
def Ended (file : List Char) : Prop := file = [] ∨ file.getLast? = some '\n'

instance (file : List Char) : Decidable (Ended file) := inferInstanceAs (Decidable (_ ∨ _))

/-- A process stops before or after the text of its line, and no line is appended to one whose
line break was not written. -/
def Allowed (s : State C) : Step C → Prop
  | .save checkpoint =>
    ∀ checkpoints, s.store = .ok checkpoints → IsNew codec checkpoints checkpoint → Ended s.file
  | .stop checkpoint written =>
    ∀ checkpoints, s.store = .ok checkpoints → IsNew codec checkpoints checkpoint → written ≠ 0 →
      Ended s.file ∧ (codec.encode checkpoint).length ≤ written
  | .reopen => True

/-- A call of `save` that returns. -/
def Saves (s : State C) (checkpoint : C) : Prop :=
  ∃ checkpoints, s.store = .ok checkpoints ∧
    ∃ result, save codec s.file checkpoints checkpoint = .ok result

/-- What is loaded from a state. -/
def Loads (s : State C) (checkpoint : C) : Prop :=
  ∃ checkpoints, s.store = .ok checkpoints ∧
    load checkpoints (codec.checkpointId checkpoint) = .ok checkpoint

/-- No checkpoint of that identity is loaded from a state. -/
def Lacks (s : State C) (checkpoint : C) : Prop :=
  ∃ checkpoints, s.store = .ok checkpoints ∧ IsNew codec checkpoints checkpoint

/-- After a run the log is open, what was saved is loaded, and a checkpoint whose line was
interrupted is absent or whole and can be saved. -/
structure Recovers (steps : List (Step C)) : Prop where
  opens : ∃ checkpoints, (run (step codec path) {} steps).store = .ok checkpoints
  saved : ∀ before checkpoint after, steps = before ++ .save checkpoint :: after →
    Saves codec (run (step codec path) {} before) checkpoint →
      Loads codec (run (step codec path) {} steps) checkpoint
  interrupted : ∀ before checkpoint written, steps = before ++ [.stop checkpoint written] →
    Lacks codec (run (step codec path) {} before) checkpoint →
      (Lacks codec (run (step codec path) {} steps) checkpoint ∨
        Loads codec (run (step codec path) {} steps) checkpoint) ∧
      Saves codec (run (step codec path) {} steps) checkpoint

/-! ## What the file holds -/

variable {codec path}

/-- The checkpoints of a log, by their identities. -/
def dictOf (codec : CheckpointCodec C) (written : List C) : PyDict String C :=
  written.map fun c => (codec.checkpointId c, c)

theorem keys_dictOf (written : List C) :
    (dictOf codec written).keys = written.map codec.checkpointId := by
  rw [PyDict.keys, dictOf, map_map]
  rfl

/-- The file holds the lines of these checkpoints, the last one perhaps without its line break,
and the store holds the checkpoints. -/
structure Holds (codec : CheckpointCodec C) (s : State C) (written : List C) : Prop where
  file : s.file = written.flatMap (lineOf codec) ∨
    s.file ++ ['\n'] = written.flatMap (lineOf codec)
  distinct : (written.map codec.checkpointId).Nodup
  store : s.store = .ok (dictOf codec written)

variable {s : State C} {written : List C} {c : C}

theorem get?_dictOf (h : Holds codec s written) (hc : c ∈ written) :
    (dictOf codec written).get? (codec.checkpointId c) = some c :=
  get?_of_mem (by rw [keys_dictOf]; exact h.distinct) (mem_map_of_mem hc)

theorem loads_of_mem (h : Holds codec s written) (hc : c ∈ written) : Loads codec s c :=
  ⟨_, h.store, by rw [load, get?_dictOf h hc]; rfl⟩

theorem isNew_iff : IsNew codec (dictOf codec written) c ↔
    codec.checkpointId c ∉ written.map codec.checkpointId := by
  rw [IsNew, get?_eq_none_iff, keys_dictOf]

/-- A checkpoint that is there is saved without a change. -/
theorem save_present (h : Holds codec s written) (hc : c ∈ written) :
    save codec s.file (dictOf codec written) c = .ok (s.file, dictOf codec written) := by
  have hget := get?_dictOf h hc
  rw [save, remember, hget]
  show (require _ _ >>= _ >>= _) = _
  rw [check_of_pos rfl]
  show Except.ok (s.file, (dictOf codec written).set (codec.checkpointId c) c) = _
  rw [set_of_get? hget]

theorem Holds.saves_present (h : Holds codec s written) (hc : c ∈ written) : Saves codec s c :=
  ⟨_, h.store, _, save_present h hc⟩

theorem remember_new (hnew : IsNew codec (dictOf codec written) c) :
    remember codec (dictOf codec written) c = .ok (dictOf codec (written ++ [c])) := by
  rw [remember, hnew]
  show Except.ok ((dictOf codec written).set _ c) = _
  rw [set_of_notMem _ ((get?_eq_none_iff _ _).mp hnew), dictOf, dictOf, map_append]
  rfl

/-- A checkpoint of a new identity gets a line. -/
theorem save_new (hnew : IsNew codec (dictOf codec written) c) (file : List Char) :
    save codec file (dictOf codec written) c =
      .ok (file ++ lineOf codec c, dictOf codec (written ++ [c])) := by
  rw [save, remember_new hnew, hnew]
  rfl

/-- What is written of the line: all of it, or all but its line break. -/
theorem take_lineOf {n : ℕ} (hn : (codec.encode c).length ≤ n) :
    (lineOf codec c).take n = lineOf codec c ∨
      (lineOf codec c).take n ++ ['\n'] = lineOf codec c := by
  rcases hn.eq_or_lt with rfl | hlt
  · exact Or.inr (by rw [lineOf, take_left])
  · exact Or.inl (take_of_length_le (by rw [lineOf, length_append, length_singleton]; omega))

variable (hcodec : codec.Lawful)

include hcodec

/-- Complete lines are split off one after another. -/
theorem splitLines_lines (written : List C) (text : List Char) :
    splitLines (written.flatMap (lineOf codec) ++ text) [] =
      written.map codec.encode ++ splitLines text [] := by
  induction written with
  | nil => rfl
  | cons c written ih =>
    rw [flatMap_cons, lineOf, append_assoc, append_assoc, splitLines_append (hcodec.no_break c),
      nil_append, cons_append, splitLines, if_pos (by decide), nil_append, ih, map_cons, cons_append]

theorem encode_ne_nil (c : C) : codec.encode c ≠ [] := fun h => by
  have hvisible := hcodec.visible c
  rw [h] at hvisible
  cases hvisible

variable {written : List C}

/-- The lines of a log do not depend on its last line break. -/
theorem splitLines_file {file : List Char}
    (h : file = written.flatMap (lineOf codec) ∨ file ++ ['\n'] = written.flatMap (lineOf codec)) :
    splitLines file [] = written.map codec.encode := by
  rcases h with rfl | h
  · have hlines := splitLines_lines hcodec written []
    rwa [append_nil, show splitLines [] [] = [] from rfl, append_nil] at hlines
  · rcases eq_nil_or_concat written with rfl | ⟨before, c, rfl⟩
    · cases (append_eq_nil_iff.mp h).2
    · rw [concat_eq_append, flatMap_append, flatMap_singleton, lineOf, ← append_assoc] at h
      rw [concat_eq_append, append_cancel_right h, splitLines_lines hcodec, map_append]
      have hline := splitLines_append (hcodec.no_break c) [] []
      rw [append_nil, nil_append, splitLines, if_neg (encode_ne_nil hcodec c)] at hline
      rw [hline]
      rfl

theorem readLines_encode {number : ℕ} {known : List C}
    (hdistinct : ((known ++ written).map codec.checkpointId).Nodup) :
    readLines codec path number (written.map codec.encode) (dictOf codec known) =
      .ok (dictOf codec (known ++ written)) := by
  induction written generalizing number known with
  | nil =>
    rw [append_nil]
    rfl
  | cons c written ih =>
    have hnew : IsNew codec (dictOf codec known) c := by
      rw [map_append, map_cons] at hdistinct
      exact isNew_iff.mpr fun h => disjoint_of_nodup_append hdistinct h mem_cons_self
    rw [map_cons, readLines, if_neg (by simp [hcodec.visible c]), hcodec.decode_encode]
    show (remember codec (dictOf codec known) c >>= _) = _
    rw [remember_new hnew, ok_bind, ih (by rwa [append_assoc, singleton_append]), append_assoc,
      singleton_append]

/-- A log is opened with what it holds. -/
theorem openLog_file {file : List Char}
    (h : file = written.flatMap (lineOf codec) ∨ file ++ ['\n'] = written.flatMap (lineOf codec))
    (hdistinct : (written.map codec.checkpointId).Nodup) :
    openLog codec path file = .ok (dictOf codec written) := by
  rw [openLog, splitLines_file hcodec h]
  exact @readLines_encode _ _ _ hcodec _ _ [] hdistinct

/-- A file to which a line can be appended has its last line break. -/
theorem file_eq_of_ended {s : State C} (h : Holds codec s written) (hended : Ended s.file) :
    s.file = written.flatMap (lineOf codec) := by
  refine h.file.resolve_right fun hfile => ?_
  rcases eq_nil_or_concat written with rfl | ⟨before, c, rfl⟩
  · cases (append_eq_nil_iff.mp hfile).2
  · rw [concat_eq_append, flatMap_append, flatMap_singleton, lineOf, ← append_assoc] at hfile
    have hlast := append_cancel_right hfile
    obtain ⟨text, last, hencode⟩ := (eq_nil_or_concat _).resolve_left (encode_ne_nil hcodec c)
    rw [hencode, concat_eq_append, ← append_assoc] at hlast
    rcases hended with hnil | hbreak
    · cases (append_eq_nil_iff.mp (hlast.symm.trans hnil)).2
    · rw [hlast, getLast?_append_of_ne_nil _ (by simp), getLast?_singleton] at hbreak
      have := hcodec.no_break c last (by simp [hencode])
      rw [Option.some.inj hbreak] at this
      cases this

theorem holds_openLog {file : List Char}
    (h : file = written.flatMap (lineOf codec) ∨ file ++ ['\n'] = written.flatMap (lineOf codec))
    (hdistinct : (written.map codec.checkpointId).Nodup) :
    Holds codec ⟨file, openLog codec path file⟩ written :=
  ⟨h, hdistinct, openLog_file hcodec h hdistinct⟩

theorem Holds.append (h : Holds codec s written) (hnew : IsNew codec (dictOf codec written) c)
    (hended : Ended s.file) {text : List Char}
    (htext : text = lineOf codec c ∨ text ++ ['\n'] = lineOf codec c) :
    (s.file ++ text = (written ++ [c]).flatMap (lineOf codec) ∨
      s.file ++ text ++ ['\n'] = (written ++ [c]).flatMap (lineOf codec)) ∧
    ((written ++ [c]).map codec.checkpointId).Nodup := by
  rw [file_eq_of_ended hcodec h hended, flatMap_append, flatMap_singleton, map_append, append_assoc]
  refine ⟨htext.imp (congrArg _) (congrArg _), nodup_append.mpr ⟨h.distinct, nodup_singleton _, ?_⟩⟩
  rintro id hid _ hc rfl
  exact isNew_iff.mp hnew (mem_singleton.mp hc ▸ hid)

/-- A checkpoint whose identity is there is the one that is there, or it is refused. -/
theorem save_old (h : Holds codec s written) (hold : ¬ IsNew codec (dictOf codec written) c) :
    c ∈ written ∨ ∃ e, save codec s.file (dictOf codec written) c = .error e := by
  rw [isNew_iff, not_not] at hold
  obtain ⟨existing, hmem, hid⟩ := mem_map.mp hold
  have hget := get?_dictOf h hmem
  rw [hid] at hget
  cases hsave : save codec s.file (dictOf codec written) c with
  | error e => exact Or.inr ⟨e, rfl⟩
  | ok result =>
    left
    rw [save, remember, hget] at hsave
    obtain ⟨_, hremember, -⟩ := bind_inv hsave
    exact hcodec.checksum_inj _ _ (of_require (check_inv hremember).1) ▸ hmem

/-- One step adds at most the checkpoint it is about. -/
theorem Holds.step (h : Holds codec s written) {a : Step C} (ha : Allowed codec s a) :
    ∃ more, Holds codec (CheckpointLog.step codec path s a) (written ++ more) ∧
      (∀ c, a = .save c → Saves codec s c → c ∈ written ++ more) ∧
      ∀ c n, a = .stop c n → Lacks codec s c → more = [] ∨ more = [c] := by
  have hreopen : Holds codec ⟨s.file, openLog codec path s.file⟩ (written ++ []) := by
    rw [append_nil]
    exact holds_openLog hcodec h.file h.distinct
  cases a with
  | reopen => exact ⟨[], hreopen, nofun, nofun⟩
  | save c =>
    by_cases hnew : IsNew codec (dictOf codec written) c
    · obtain ⟨hfile, hdistinct⟩ := h.append hcodec hnew (ha _ h.store hnew) (Or.inl rfl)
      have hstep : CheckpointLog.step codec path s (.save c) =
          ⟨s.file ++ lineOf codec c, .ok (dictOf codec (written ++ [c]))⟩ := by
        simp only [CheckpointLog.step, h.store, save_new hnew]
      refine ⟨[c], hstep ▸ ⟨hfile, hdistinct, rfl⟩, fun c' hc' _ => ?_, nofun⟩
      cases hc'
      exact mem_append_right _ (mem_singleton_self _)
    · have hold := save_old hcodec h hnew
      have hstep : CheckpointLog.step codec path s (.save c) = s := by
        rcases hold with hmem | ⟨e, he⟩
        · simp only [CheckpointLog.step, h.store, save_present h hmem]
          rw [← h.store]
        · simp only [CheckpointLog.step, h.store, he]
      refine ⟨[], by rw [hstep, append_nil]; exact h, fun c' hc' hsaves => ?_, nofun⟩
      cases hc'
      rw [append_nil]
      refine hold.resolve_right fun ⟨e, he⟩ => ?_
      obtain ⟨checkpoints, hstore, result, hresult⟩ := hsaves
      cases h.store.symm.trans hstore
      cases he.symm.trans hresult
  | stop c n =>
    by_cases hnew : IsNew codec (dictOf codec written) c
    · have hstep : CheckpointLog.step codec path s (.stop c n) =
          ⟨s.file ++ (lineOf codec c).take n,
            openLog codec path (s.file ++ (lineOf codec c).take n)⟩ := by
        simp only [CheckpointLog.step, h.store, if_pos hnew]
      rw [hstep]
      by_cases hn : n = 0
      · rw [hn, take_zero, append_nil]
        exact ⟨[], hreopen, nofun, fun _ _ _ _ => Or.inl rfl⟩
      · obtain ⟨hended, hlength⟩ := ha _ h.store hnew hn
        obtain ⟨hfile, hdistinct⟩ := h.append hcodec hnew hended (take_lineOf hlength)
        refine ⟨[c], holds_openLog hcodec hfile hdistinct, nofun, fun c' n' hc' _ => ?_⟩
        cases hc'
        exact Or.inr rfl
    · have hstep : CheckpointLog.step codec path s (.stop c n) =
          ⟨s.file, openLog codec path s.file⟩ := by
        simp only [CheckpointLog.step, h.store, if_neg hnew]
      exact ⟨[], hstep ▸ hreopen, nofun, fun _ _ _ _ => Or.inl rfl⟩

/-- What a log holds stays in it. -/
theorem Holds.run (h : Holds codec s written) {steps : List (Step C)}
    (hsteps : StepRuns.Along (CheckpointLog.step codec path) (Allowed codec) s steps) :
    ∃ more, Holds codec (run (CheckpointLog.step codec path) s steps)
      (written ++ more) := by
  induction steps generalizing s written with
  | nil => exact ⟨[], by rwa [append_nil]⟩
  | cons a steps ih =>
    obtain ⟨first, hfirst, -⟩ := @Holds.step _ _ path _ hcodec _ h _ hsteps.1
    obtain ⟨rest, hrest⟩ := ih hfirst hsteps.2
    exact ⟨first ++ rest, by rwa [← append_assoc]⟩

omit hcodec

/-- Checkpoints that are told by their number of strokes. -/
def strokes : CheckpointCodec ℕ where
  checkpointId n := String.ofList (replicate n '1')
  checkpointChecksum n := String.ofList (replicate n '1')
  encode n := '[' :: replicate n '1' ++ [']']
  decode line :=
    let n := line.length - 2
    if line = '[' :: replicate n '1' ++ [']'] then some n else none

theorem lawful_strokes : strokes.Lawful where
  decode_encode n := by simp [strokes]
  no_break n ch hch := by
    have hcases : ch = '[' ∨ ¬ n = 0 ∧ ch = '1' ∨ ch = ']' := by simpa [strokes] using hch
    rcases hcases with rfl | ⟨-, rfl⟩ | rfl <;> rfl
  visible n := rfl
  checksum_inj n m h := by
    have hlength := congrArg (fun s : String => s.toList.length) h
    simpa [strokes] using hlength

end CheckpointLog

end TaskPlan
