/-
# Lifecycle of one attempt

`AttemptSupervisor.run` from its admission to its terminal fact, with one
authoritative sink.  A `Script` says what the callable, the callbacks and the sink
do and what the supervisor reads at each moment: completion, cancellation,
deadline and the marks of descendants.  The result is the list of the calls on the
sink and on the caller's publication, and what `run` returns or raises.

Readings of the marks and the outcome that they decide are one moment.  Elapsed
times, contexts and the texts of errors are left out; an error is its code.
-/
import Mathlib.Tactic

namespace AttemptLifecycle

open List Option

variable {ν : Type*}

/-! ## Outcomes -/

inductive AttemptState where
  | rejected
  | succeeded
  | failed
  | indeterminate
  | timedOut
  deriving DecidableEq

structure AttemptOutcome (ν : Type*) where
  state : AttemptState
  value : Option ν
  error : Option String
  timedOut : Bool
  terminationConfirmed : Bool
  indeterminate : Bool
  started : Bool
  reasonCode : Option String
  deriving DecidableEq

/-- The defaults of `AttemptOutcome`. -/
def AttemptOutcome.ofState (state : AttemptState) : AttemptOutcome ν :=
  ⟨state, none, none, false, true, false, true, none⟩

/-- How a context is marked: an unconfirmed descendant is an indeterminate one too. -/
inductive Marks where
  | clear
  | indeterminate
  | unconfirmed
  deriving DecidableEq

/-- `has_indeterminate_descendant`. -/
def Marks.hasIndeterminate (m : Marks) : Bool := m ≠ .clear

/-- `has_unconfirmed_descendant`. -/
def Marks.hasUnconfirmed (m : Marks) : Bool := m = .unconfirmed

/-- `_completed_outcome`, for what the callable returned or raised. -/
def completedOutcome (marks : Marks) (result : Except String ν) : AttemptOutcome ν :=
  if marks.hasIndeterminate then
    { AttemptOutcome.ofState (if marks.hasUnconfirmed then .timedOut else .indeterminate) with
      error := match result with
        | .ok _ => none
        | .error e => some e
      timedOut := marks.hasUnconfirmed
      terminationConfirmed := !marks.hasUnconfirmed
      indeterminate := true }
  else
    match result with
    | .error e => { AttemptOutcome.ofState .failed with error := some e }
    | .ok value => { (AttemptOutcome.ofState .succeeded : AttemptOutcome ν) with value := some value }

/-! ## The callable under supervision -/

/-- One round of the supervisor's loop: the callable has not completed, and `cancelled` and the
deadline are read; or it has, and its completion time and twice `cancelled` are read. -/
inductive Poll where
  | waiting (cancelled lapsed : Bool)
  | completed (late cancelled₁ cancelled₂ : Bool)
  deriving DecidableEq

/-- The variables that the loop leaves. -/
structure Exit where
  completedBeforeDeadline : Bool
  cancellationRequested : Bool
  deadlineExpired : Bool
  deriving DecidableEq

/-- The loop of `_run_threaded`: none while it has not been left. -/
def watch (deadlineExpired : Bool) : List Poll → Option Exit
  | [] => none
  | .completed late cancelled₁ cancelled₂ :: _ =>
    some ⟨!cancelled₂ && !late, cancelled₁ && !late, late⟩
  | .waiting cancelled lapsed :: polls =>
    if lapsed then some ⟨false, cancelled, true⟩
    else if cancelled then some ⟨false, true, deadlineExpired⟩
    else watch deadlineExpired polls

/-- The outcome of an attempt that was interrupted: `terminated` is the wait for the callable within
the grace. -/
def interruptedOutcome (exit : Exit) (terminated : Bool) (marks : Marks) : AttemptOutcome ν :=
  let terminationConfirmed := terminated && !marks.hasUnconfirmed
  let indeterminate := !terminationConfirmed || marks.hasIndeterminate
  if exit.cancellationRequested && !exit.deadlineExpired then
    if terminationConfirmed then
      { AttemptOutcome.ofState .timedOut with
        error := some "attempt_cancelled"
        reasonCode := some "attempt_cancelled" }
    else
      { AttemptOutcome.ofState .indeterminate with
        error := some "attempt_indeterminate"
        terminationConfirmed := false
        indeterminate := true
        reasonCode := some "attempt_cancellation_unconfirmed" }
  else
    { AttemptOutcome.ofState .timedOut with
      timedOut := true
      terminationConfirmed := terminationConfirmed
      indeterminate := indeterminate }

/-- The execution of the callable, up to the moment that its outcome is built: with `_run_inline`, or
with `_run_threaded` where the deadline may have expired during `prepare`. -/
inductive Execution (ν : Type*) where
  | inline (result : Except String ν) (marks : Marks)
  | threaded (expired : Bool) (polls : List Poll) (terminated : Bool) (result : Except String ν)
      (marks : Marks)

namespace Execution

/-- The outcome that the supervisor builds, none while it waits. -/
def outcome : Execution ν → Option (AttemptOutcome ν)
  | .inline result marks => some (completedOutcome marks result)
  | .threaded expired polls terminated result marks =>
    (watch expired polls).map fun exit =>
      if exit.completedBeforeDeadline then completedOutcome marks result
      else interruptedOutcome exit terminated marks

/-- When the outcome is built the termination of the callable is not confirmed, or a descendant is
marked. -/
def uncertain : Execution ν → Bool
  | .inline _ marks => marks.hasIndeterminate
  | .threaded expired polls terminated _ marks =>
    marks.hasIndeterminate ||
      (watch expired polls).any fun exit => !exit.completedBeforeDeadline && !terminated

/-- The attempt was cancelled before its deadline and its callable has terminated. -/
def cancelledInTime : Execution ν → Bool
  | .inline _ _ => false
  | .threaded expired polls terminated _ marks =>
    (watch expired polls).any fun exit =>
      !exit.completedBeforeDeadline && exit.cancellationRequested && !exit.deadlineExpired &&
        terminated && !marks.hasUnconfirmed

end Execution

/-! ## Finalization -/

/-- What `finalize` answers with in place of an outcome. -/
inductive Candidate (ν : Type*) where
  | notOutcome
  | otherContext
  | outcome (o : AttemptOutcome ν)

/-- The candidate that passes the checks. -/
def Candidate.accepted : Candidate ν → Option (AttemptOutcome ν)
  | .outcome o => if o.started = true ∧ o.state ≠ .rejected then some o else none
  | _ => none

/-- What `finalize` does: it raises, answers with an outcome, or answers with an
`AttemptFinalization`, whose callbacks may raise. -/
inductive Answer (ν : Type*) where
  | raises
  | outcome (c : Candidate ν)
  | publication (c : Candidate ν) (rollbackRaises completeRaises : Bool)

/-- The calls on the sink and on the caller's publication, and whether they raised. -/
inductive Call (ν : Type*) where
  | rejected (reason : String) (raised : Bool)
  | started (raised : Bool)
  | terminal (o : AttemptOutcome ν) (raised : Bool)
  | complete (raised : Bool)
  | rollback (raised : Bool)
  deriving DecidableEq

/-- How `run` ends, if it has ended. -/
inductive Result (ν : Type*) where
  | returned (o : AttemptOutcome ν)
  | raised (phase : String)
  | running

/-- A run: its calls and its end. -/
structure Run (ν : Type*) where
  calls : List (Call ν)
  result : Result ν

/-- `_indeterminate_finalization_outcome`. -/
def indeterminateFinalization (o : AttemptOutcome ν) (code : String) : AttemptOutcome ν :=
  { AttemptOutcome.ofState .indeterminate with
    error := some code
    timedOut := o.timedOut
    terminationConfirmed := o.terminationConfirmed
    indeterminate := true
    reasonCode := some code }

/-- The variables of `_finalize_started_outcome`: `rollback` and `complete` are the callbacks that
are still to be called, as whether they raise. -/
structure Finalizing (ν : Type*) where
  finalized : AttemptOutcome ν
  callbacks : Option (Bool × Bool)
  calls : List (Call ν)

namespace Finalizing

/-- The call of `finalize` and the checks of its answer. -/
def finalize (o : AttemptOutcome ν) : Option (Answer ν) → Finalizing ν
  | none => ⟨o, none, []⟩
  | some .raises =>
    ⟨indeterminateFinalization o "attempt_outcome_finalization_failed", none, []⟩
  | some (.outcome c) =>
    match c.accepted with
    | some o' => ⟨o', none, []⟩
    | none => ⟨indeterminateFinalization o "attempt_outcome_finalization_failed", none, []⟩
  | some (.publication c rollbackRaises completeRaises) =>
    match c.accepted with
    | some o' => ⟨o', some (rollbackRaises, completeRaises), []⟩
    | none =>
      ⟨indeterminateFinalization o "attempt_outcome_finalization_failed", none,
        [.rollback rollbackRaises]⟩

/-- The cleanup that `prepare` returned, as whether it raises. -/
def cleanup (f : Finalizing ν) : Option Bool → Finalizing ν
  | some true =>
    { f with finalized := indeterminateFinalization f.finalized "attempt_cleanup_failed" }
  | _ => f

/-- The rollback of a publication that is not a success. -/
def rollback (f : Finalizing ν) : Finalizing ν :=
  if f.finalized.state ≠ .succeeded then
    match f.callbacks with
    | some (rollbackRaises, _) =>
      { finalized :=
          if rollbackRaises then
            indeterminateFinalization f.finalized "attempt_finalization_rollback_failed"
          else f.finalized
        callbacks := none
        calls := f.calls ++ [.rollback rollbackRaises] }
    | none => f
  else f

/-- The terminal fact, and the callback that it leaves to be called. -/
def emit (f : Finalizing ν) (terminalRaises : Bool) : Run ν :=
  let calls := f.calls ++ [.terminal f.finalized terminalRaises]
  if terminalRaises then
    match f.callbacks with
    | some (rollbackRaises, _) =>
      ⟨calls ++ [.rollback rollbackRaises],
        .raised (if rollbackRaises then "terminal_compensation" else "terminal")⟩
    | none => ⟨calls, .raised "terminal"⟩
  else
    match f.callbacks with
    | some (_, completeRaises) =>
      ⟨calls ++ [.complete completeRaises],
        if completeRaises then .raised "terminal_completion" else .returned f.finalized⟩
    | none => ⟨calls, .returned f.finalized⟩

end Finalizing

def finalizeStartedOutcome (o : AttemptOutcome ν) (finalize : Option (AttemptOutcome ν → Answer ν))
    (cleanup : Option Bool) (terminalRaises : Bool) : Run ν :=
  (((Finalizing.finalize o (finalize.map (· o))).cleanup cleanup).rollback).emit terminalRaises

/-! ## The run -/

/-- What `prepare` does: a runtime error that it raises keeps its code. -/
inductive Prepare where
  | absent
  | returnsNone
  | returnsCleanup (cleanupRaises : Bool)
  | returnsOther
  | raises (code : Option String)
  deriving DecidableEq

/-- `_prepare_started_attempt`, with `_preparation_error`. -/
def Prepare.cleanup : Prepare → Except String (Option Bool)
  | .absent | .returnsNone => .ok none
  | .returnsCleanup cleanupRaises => .ok (some cleanupRaises)
  | .returnsOther => .error "attempt_preparation_failed"
  | .raises code => .error (code.getD "attempt_preparation_failed")

/-- Everything that a run meets: the reason that admission rejects it with, what the sink's calls do,
`prepare`, the marks where it raises, the execution and `finalize`. -/
structure Script (ν : Type*) where
  rejection : Option String
  rejectedRaises : Bool
  startedRaises : Bool
  prepare : Prepare
  marksAtPrepare : Marks
  execution : Execution ν
  finalize : Option (AttemptOutcome ν → Answer ν)
  terminalRaises : Bool

def run (s : Script ν) : Run ν :=
  match s.rejection with
  | some reason =>
    ⟨[.rejected reason s.rejectedRaises], if s.rejectedRaises then .raised "rejected"
      else .returned { AttemptOutcome.ofState .rejected with
        error := some reason, started := false, reasonCode := some reason }⟩
  | none =>
    if s.startedRaises then ⟨[.started true], .raised "started"⟩
    else
      match s.prepare.cleanup with
      | .error e =>
        let r := finalizeStartedOutcome (completedOutcome s.marksAtPrepare (.error e)) none none
          s.terminalRaises
        ⟨.started false :: r.calls, r.result⟩
      | .ok cleanup =>
        match s.execution.outcome with
        | none => ⟨[.started false], .running⟩
        | some o =>
          let r := finalizeStartedOutcome o s.finalize cleanup s.terminalRaises
          ⟨.started false :: r.calls, r.result⟩

/-! ## The sink -/

/-- A call on the lifecycle sink, and not on the caller's publication. -/
def Call.onSink : Call ν → Bool
  | .rejected _ _ | .started _ | .terminal _ _ => true
  | .complete _ | .rollback _ => false

section OnSink

variable (reason : String) (o : AttemptOutcome ν) (raised : Bool)

@[simp] theorem onSink_rejected : (Call.rejected reason raised : Call ν).onSink = true := rfl

@[simp] theorem onSink_started : (Call.started raised : Call ν).onSink = true := rfl

@[simp] theorem onSink_terminal : (Call.terminal o raised).onSink = true := rfl

@[simp] theorem onSink_complete : (Call.complete raised : Call ν).onSink = false := rfl

@[simp] theorem onSink_rollback : (Call.rollback raised : Call ν).onSink = false := rfl

end OnSink

/-- One rejection, or a start that raised, or a start and one terminal fact, which is what `run`
returns if it returns; the terminal fact is outstanding while the attempt runs. -/
def SinkProtocol (r : Run ν) : Prop :=
  (∃ reason raised, r.calls.filter Call.onSink = [.rejected reason raised]) ∨
    r.calls.filter Call.onSink = [.started true] ∨
    (∃ o raised, r.calls.filter Call.onSink = [.started false, .terminal o raised] ∧
      ∀ o', r.result = .returned o' → o' = o) ∨
    r.result = .running ∧ r.calls.filter Call.onSink = [.started false]

/-- One terminal fact is emitted, and it is what is returned if anything is. -/
def EmitsOnce (r : Run ν) : Prop :=
  ∃ o raised, r.calls.filter Call.onSink = [.terminal o raised] ∧
    ∀ o', r.result = .returned o' → o' = o

variable {f : Finalizing ν}

theorem Finalizing.emitsOnce_emit (hf : f.calls.filter Call.onSink = []) (terminalRaises : Bool) :
    EmitsOnce (f.emit terminalRaises) := by
  refine ⟨f.finalized, terminalRaises, ?_⟩
  obtain ⟨o, callbacks, calls⟩ := f
  have hcalls : calls.filter Call.onSink = [] := hf
  cases terminalRaises with
  | true => rcases callbacks with _ | ⟨rb, cp⟩ <;> simp [emit, hcalls, filter_cons]
  | false =>
    rcases callbacks with _ | ⟨rb, cp⟩
    · simp [emit, hcalls, filter_cons]
    · cases cp <;> simp [emit, hcalls, filter_cons]

theorem Finalizing.onSink_finalize (o : AttemptOutcome ν) (answer : Option (Answer ν)) :
    (finalize o answer).calls.filter Call.onSink = [] := by
  rcases answer with _ | _ | c | ⟨c, rb, cp⟩
  · rfl
  · rfl
  · cases h : c.accepted <;> simp [finalize, h]
  · cases h : c.accepted <;> simp [finalize, h]

theorem Finalizing.onSink_cleanup (f : Finalizing ν) (cleanup : Option Bool) :
    (f.cleanup cleanup).calls = f.calls := by
  rcases cleanup with _ | _ | _ <;> rfl

theorem Finalizing.onSink_rollback (f : Finalizing ν) :
    f.rollback.calls.filter Call.onSink = f.calls.filter Call.onSink := by
  unfold rollback
  split
  · rcases f with ⟨o, _ | ⟨rb, cp⟩, calls⟩ <;> simp
  · rfl

theorem emitsOnce_finalizeStartedOutcome (o : AttemptOutcome ν)
    (finalize : Option (AttemptOutcome ν → Answer ν)) (cleanup : Option Bool)
    (terminalRaises : Bool) :
    EmitsOnce (finalizeStartedOutcome o finalize cleanup terminalRaises) := by
  apply Finalizing.emitsOnce_emit
  rw [Finalizing.onSink_rollback, Finalizing.onSink_cleanup, Finalizing.onSink_finalize]

/-- Every run keeps the protocol of its sink. -/
theorem sinkProtocol_run (s : Script ν) : SinkProtocol (run s) := by
  have hstarted : ∀ r : Run ν, EmitsOnce r → SinkProtocol ⟨.started false :: r.calls, r.result⟩ := by
    rintro r ⟨o, raised, hcalls, hreturn⟩
    right; right; left
    refine ⟨o, raised, ?_, hreturn⟩
    rw [filter_cons_of_pos rfl, hcalls]
  unfold run
  split
  · rename_i reason hrejected
    exact Or.inl ⟨reason, s.rejectedRaises, rfl⟩
  · split
    · exact Or.inr (Or.inl rfl)
    · split
      · exact hstarted _ (emitsOnce_finalizeStartedOutcome _ _ _ _)
      · split
        · exact Or.inr (Or.inr (Or.inr ⟨rfl, rfl⟩))
        · exact hstarted _ (emitsOnce_finalizeStartedOutcome _ _ _ _)

/-! ## The publication -/

/-- A call on the caller's publication. -/
def Call.onPublication : Call ν → Bool
  | .complete _ | .rollback _ => true
  | .rejected _ _ | .started _ | .terminal _ _ => false

section OnPublication

variable (reason : String) (o : AttemptOutcome ν) (raised : Bool)

@[simp] theorem onPublication_rejected :
    (Call.rejected reason raised : Call ν).onPublication = false := rfl

@[simp] theorem onPublication_started : (Call.started raised : Call ν).onPublication = false := rfl

@[simp] theorem onPublication_terminal : (Call.terminal o raised).onPublication = false := rfl

@[simp] theorem onPublication_complete : (Call.complete raised : Call ν).onPublication = true := rfl

@[simp] theorem onPublication_rollback : (Call.rollback raised : Call ν).onPublication = true := rfl

end OnPublication

/-- The publication is completed right after the terminal fact of a success has been emitted, or it is
rolled back; once, and not both. -/
def Settles (r : Run ν) : Prop :=
  (∃ front o raised, r.calls = front ++ [.terminal o false, .complete raised] ∧
    o.state = .succeeded ∧ front.filter Call.onPublication = []) ∨
  ∃ raised, r.calls.filter Call.onPublication = [.rollback raised]

/-- No call is made on a publication. -/
def NothingPublished (r : Run ν) : Prop := r.calls.filter Call.onPublication = []

/-- `finalize` answered with an `AttemptFinalization`. -/
def Answer.isPublication : Answer ν → Bool
  | .publication _ _ _ => true
  | _ => false

/-- The stages of the finalization: a publication is still held, or it has been rolled back; without
one no call is made. -/
structure Finalizing.Holds (f : Finalizing ν) (published : Bool) : Prop where
  held : ∀ c, f.callbacks = some c → published = true ∧ f.calls.filter Call.onPublication = []
  settled : f.callbacks = none → published = true →
    ∃ raised, f.calls.filter Call.onPublication = [.rollback raised]
  none : published = false → f.calls.filter Call.onPublication = []

theorem Finalizing.holds_finalize (o : AttemptOutcome ν) (answer : Option (Answer ν)) :
    (finalize o answer).Holds (answer.any Answer.isPublication) := by
  rcases answer with _ | _ | c | ⟨c, rb, cp⟩
  · constructor <;> simp [finalize]
  · constructor <;> simp [finalize, Answer.isPublication]
  · cases h : c.accepted <;> constructor <;> simp [finalize, h, Answer.isPublication]
  · cases h : c.accepted <;> constructor <;>
      simp [finalize, h, Answer.isPublication, filter_cons]

variable {published : Bool}

theorem Finalizing.Holds.cleanup (h : f.Holds published) (cleanup : Option Bool) :
    (f.cleanup cleanup).Holds published := by
  rcases cleanup with _ | _ | _
  · exact h
  · exact h
  · exact ⟨h.held, h.settled, h.none⟩

theorem Finalizing.Holds.rollback (h : f.Holds published) : f.rollback.Holds published ∧
      (f.rollback.callbacks ≠ Option.none → f.rollback.finalized.state = .succeeded) := by
  unfold Finalizing.rollback
  split
  · rename_i hstate
    cases hc : f.callbacks with
    | none =>
      refine ⟨h, ?_⟩
      rw [hc]
      intro hne
      exact absurd rfl hne
    | some c =>
      obtain ⟨hpublished, hcalls⟩ := h.held c hc
      refine ⟨⟨?_, ?_, ?_⟩, ?_⟩
      · intro c' hc'
        cases hc'
      · intro _ _
        exact ⟨c.1, by simp [hcalls, filter_cons]⟩
      · intro hnot
        rw [hpublished] at hnot
        cases hnot
      · intro hne
        exact absurd rfl hne
  · rename_i hstate
    exact ⟨h, fun _ => not_not.mp hstate⟩

theorem Finalizing.Holds.emit (h : f.Holds published)
    (hstate : f.callbacks ≠ Option.none → f.finalized.state = .succeeded) (terminalRaises : Bool) :
    if published then Settles (f.emit terminalRaises) else NothingPublished (f.emit terminalRaises) := by
  rcases f with ⟨o, _ | ⟨rb, cp⟩, calls⟩
  · cases published with
    | false =>
      have hcalls : calls.filter Call.onPublication = [] := h.none rfl
      cases terminalRaises <;>
        simp [NothingPublished, Finalizing.emit, hcalls]
    | true =>
      obtain ⟨raised, hcalls⟩ := h.settled rfl rfl
      refine Or.inr ⟨raised, ?_⟩
      have hcalls' : calls.filter Call.onPublication = [.rollback raised] := hcalls
      cases terminalRaises <;> simp [Finalizing.emit, hcalls']
  · rcases h.held (rb, cp) rfl with ⟨rfl, hcalls⟩
    have hcalls' : calls.filter Call.onPublication = [] := hcalls
    have hsuccess : o.state = .succeeded := hstate (by simp)
    cases terminalRaises with
    | true => exact Or.inr ⟨rb, by simp [Finalizing.emit, hcalls', filter_cons]⟩
    | false =>
      refine Or.inl ⟨calls, o, cp, ?_, hsuccess, hcalls'⟩
      simp [Finalizing.emit]

/-- `finalize` is called, and answers with an `AttemptFinalization`. -/
def Script.publishes (s : Script ν) : Bool :=
  s.rejection.isNone && !s.startedRaises && s.prepare.cleanup.isOk &&
    s.execution.outcome.any fun o => (s.finalize.map (· o)).any Answer.isPublication

theorem settles_finalizeStartedOutcome (o : AttemptOutcome ν)
    (finalize : Option (AttemptOutcome ν → Answer ν)) (cleanup : Option Bool)
    (terminalRaises : Bool) : if (finalize.map (· o)).any Answer.isPublication then
      Settles (finalizeStartedOutcome o finalize cleanup terminalRaises)
    else NothingPublished (finalizeStartedOutcome o finalize cleanup terminalRaises) := by
  have h := ((Finalizing.holds_finalize o (finalize.map (· o))).cleanup cleanup).rollback
  exact h.1.emit h.2 terminalRaises

/-- A start before a run makes no difference to the publication. -/
theorem settles_cons {r : Run ν} {published raised : Bool}
    (h : if published then Settles r else NothingPublished r) :
    if published then Settles ⟨.started raised :: r.calls, r.result⟩
    else NothingPublished ⟨.started raised :: r.calls, r.result⟩ := by
  cases published with
  | false => exact (filter_cons_of_neg (by simp)).trans h
  | true =>
    rcases h with ⟨front, o, raised', hcalls, hstate, hfront⟩ | ⟨raised', hcalls⟩
    · refine Or.inl ⟨.started raised :: front, o, raised', ?_, hstate, ?_⟩
      · rw [hcalls]
        rfl
      · rw [filter_cons_of_neg (by simp), hfront]
    · exact Or.inr ⟨raised', (filter_cons_of_neg (by simp)).trans hcalls⟩

/-- Every run settles the publication that it was given, and touches no other. -/
theorem settles_run (s : Script ν) :
    if s.publishes then Settles (run s) else NothingPublished (run s) := by
  unfold Script.publishes run
  cases s.rejection with
  | some reason => exact rfl
  | none =>
    cases s.startedRaises with
    | true => exact rfl
    | false =>
      cases s.prepare.cleanup with
      | error e =>
        exact @settles_cons ν _ false false (settles_finalizeStartedOutcome _ none none _)
      | ok cleanup =>
        cases s.execution.outcome with
        | none => exact rfl
        | some o => exact settles_cons (settles_finalizeStartedOutcome o s.finalize cleanup _)

/-! ## The uncertain effect -/

/-- When the supervisor builds the outcome, the termination is unconfirmed or a descendant is
marked. -/
def Script.uncertain (s : Script ν) : Bool :=
  s.rejection.isNone && !s.startedRaises &&
    if s.prepare.cleanup.isOk then s.execution.uncertain else s.marksAtPrepare.hasIndeterminate

/-- A returned outcome is indeterminate where its effect is uncertain. -/
def Flagged (s : Script ν) (r : Run ν) : Prop :=
  ∀ o, r.result = .returned o → s.uncertain = true → o.indeterminate = true

/-- The outcome that `finalize` leaves to stand, where neither it nor a callback of its publication
fails. -/
def standing (o : AttemptOutcome ν) : Option (Answer ν) → Option (AttemptOutcome ν)
  | none => some o
  | some .raises => none
  | some (.outcome c) => c.accepted
  | some (.publication c rollbackRaises completeRaises) =>
    c.accepted.filter fun o' =>
      !(if o'.state = .succeeded then completeRaises else rollbackRaises)

/-- The outcome that `finalize` leaves to stand is without the flag; or there is no `finalize`, and
the attempt was cancelled in time. -/
def Script.answersUnflagged (s : Script ν) (o : AttemptOutcome ν) : Bool :=
  match s.finalize with
  | none => s.execution.cancelledInTime
  | some f => (standing o (some (f o))).any fun o' => !o'.indeterminate

/-- The effect is uncertain, no callback fails, and the flag is not in the answer that stands. -/
def Script.dropsFlag (s : Script ν) : Bool :=
  s.uncertain && !s.terminalRaises && s.execution.outcome.any s.answersUnflagged &&
    match s.prepare.cleanup with
    | .ok cleanup => cleanup ≠ some true
    | .error _ => false

theorem completedOutcome_indeterminate (marks : Marks) (result : Except String ν) :
    (completedOutcome marks result).indeterminate = marks.hasIndeterminate := by
  unfold completedOutcome
  cases hmarks : marks.hasIndeterminate with
  | true => rfl
  | false => cases result <;> rfl

theorem interruptedOutcome_indeterminate (exit : Exit) (terminated : Bool) (marks : Marks) :
    (interruptedOutcome exit terminated marks : AttemptOutcome ν).indeterminate =
      ((!terminated || marks.hasIndeterminate) &&
        !(exit.cancellationRequested && !exit.deadlineExpired && terminated &&
          !marks.hasUnconfirmed)) := by
  obtain ⟨before, requested, expired⟩ := exit
  cases requested <;> cases expired <;> cases terminated <;> cases marks <;> rfl

/-- The outcome that the supervisor builds has the flag, except for a cancellation in time. -/
theorem Execution.outcome_indeterminate {x : Execution ν} {o : AttemptOutcome ν}
    (h : x.outcome = some o) : o.indeterminate = (x.uncertain && !x.cancelledInTime) := by
  cases x with
  | inline result marks =>
    cases h
    rw [completedOutcome_indeterminate, uncertain, cancelledInTime, Bool.not_false, Bool.and_true]
  | threaded expired polls terminated result marks =>
    obtain ⟨exit, hexit, rfl⟩ := map_eq_some_iff.mp h
    simp only [uncertain, cancelledInTime, hexit, any_some]
    cases hbefore : exit.completedBeforeDeadline with
    | true =>
      rw [if_pos rfl, completedOutcome_indeterminate]
      simp
    | false =>
      rw [if_neg (by simp), interruptedOutcome_indeterminate]
      simp [Bool.or_comm]

variable {terminalRaises : Bool}

/-- A terminal fact that lets `run` return is the finalized outcome, and its callback has not
raised. -/
theorem Finalizing.of_emit {o' : AttemptOutcome ν}
    (h : (f.emit terminalRaises).result = .returned o') :
    terminalRaises = false ∧ o' = f.finalized ∧ ∀ c, f.callbacks = some c → c.2 = false := by
  rcases f with ⟨o, _ | ⟨rb, cp⟩, calls⟩ <;> cases terminalRaises
  · obtain rfl : o = o' := by simpa [emit] using h
    simp
  · simp [emit] at h
  · cases cp with
    | true => simp [emit] at h
    | false =>
      obtain rfl : o = o' := by simpa [emit] using h
      simp
  · simp [emit] at h

/-- The rollback keeps the outcome where it does not fail, and otherwise sets the flag. -/
theorem Finalizing.of_rollback (f : Finalizing ν) :
    f.rollback.finalized.indeterminate = true ∨ f.rollback.finalized = f.finalized ∧
      (f.finalized.state = .succeeded → f.rollback.callbacks = f.callbacks) ∧
      (f.finalized.state ≠ .succeeded → ∀ c, f.callbacks = some c → c.1 = false) := by
  obtain ⟨o, callbacks, calls⟩ := f
  by_cases hstate : o.state = .succeeded
  · right
    simp [rollback, hstate]
  · rcases callbacks with _ | ⟨rb, cp⟩
    · right
      simp [rollback, hstate]
    · cases rb with
      | true =>
        left
        simp [rollback, hstate, indeterminateFinalization]
      | false =>
        right
        simp [rollback, hstate]

/-- The answer of `finalize` stands, or the finalized outcome has the flag. -/
theorem Finalizing.of_finalize (o : AttemptOutcome ν) (answer : Option (Answer ν)) :
    (finalize o answer).finalized.indeterminate = true ∨
      ((∀ c, (finalize o answer).callbacks = some c →
        (if (finalize o answer).finalized.state = .succeeded then c.2 else c.1) = false) →
          standing o answer = some (finalize o answer).finalized) := by
  rcases answer with _ | _ | c | ⟨c, rb, cp⟩
  · right
    intro _
    rfl
  · left
    rfl
  · cases hc : c.accepted with
    | none =>
      left
      simp [finalize, hc, indeterminateFinalization]
    | some o' =>
      right
      intro _
      simp [finalize, standing, hc]
  · cases hc : c.accepted with
    | none =>
      left
      simp [finalize, hc, indeterminateFinalization]
    | some o' =>
      right
      intro hkeeps
      have hkeep := hkeeps (rb, cp) (by simp [finalize, hc])
      simp only [finalize, hc] at hkeep ⊢
      simp [standing, hc, hkeep]

/-- What a finalization returns has the flag, or it is the outcome that stands. -/
theorem indeterminate_or_standing {o o' : AttemptOutcome ν}
    {finalize : Option (AttemptOutcome ν → Answer ν)} {cleanup : Option Bool}
    (h : (finalizeStartedOutcome o finalize cleanup terminalRaises).result = .returned o') :
    o'.indeterminate = true ∨ terminalRaises = false ∧ cleanup ≠ some true ∧
      standing o (finalize.map (· o)) = some o' := by
  unfold finalizeStartedOutcome at h
  generalize finalize.map (· o) = answer at h ⊢
  obtain ⟨hterminal, rfl, hcomplete⟩ := Finalizing.of_emit h
  rcases Finalizing.of_rollback ((Finalizing.finalize o answer).cleanup cleanup) with
    hflag | ⟨hsame, hsuccess, hfailure⟩
  · exact Or.inl hflag
  rw [hsame]
  rcases cleanup with _ | _ | _
  case some.true => exact Or.inl rfl
  all_goals
    rcases Finalizing.of_finalize o answer with hflag | hstands
    · exact Or.inl hflag
    · refine Or.inr ⟨hterminal, by simp, hstands ?_⟩
      intro c hc
      split
      · rename_i hstate
        exact hcomplete c ((hsuccess hstate).trans hc)
      · rename_i hstate
        exact hfailure hstate c hc

/-- The outcome that stands is returned, where the sink and the cleanup do not fail. -/
theorem returned_of_standing {o o' : AttemptOutcome ν}
    {finalize : Option (AttemptOutcome ν → Answer ν)} {cleanup : Option Bool}
    (hcleanup : cleanup ≠ some true) (h : standing o (finalize.map (· o)) = some o') :
    (finalizeStartedOutcome o finalize cleanup false).result = .returned o' := by
  unfold finalizeStartedOutcome
  generalize finalize.map (· o) = answer at h ⊢
  have hkeep : ∀ f : Finalizing ν, f.cleanup cleanup = f := by
    intro f
    rcases cleanup with _ | _ | _
    · rfl
    · rfl
    · exact absurd rfl hcleanup
  rw [hkeep]
  rcases answer with _ | _ | c | ⟨c, rb, cp⟩
  · cases h
    by_cases hstate : o.state = .succeeded <;>
      simp [Finalizing.finalize, Finalizing.rollback, Finalizing.emit, hstate]
  · cases h
  · have hc : c.accepted = some o' := h
    by_cases hstate : o'.state = .succeeded <;>
      simp [Finalizing.finalize, Finalizing.rollback, Finalizing.emit, hc, hstate]
  · obtain ⟨hc, hkeeps⟩ := filter_eq_some_iff.mp h
    by_cases hstate : o'.state = .succeeded
    · have hcp : cp = false := by simpa [hstate] using hkeeps
      simp [Finalizing.finalize, Finalizing.rollback, Finalizing.emit, hc, hstate, hcp]
    · have hrb : rb = false := by simpa [hstate] using hkeeps
      simp [Finalizing.finalize, Finalizing.rollback, Finalizing.emit, hc, hstate, hrb]

/-- Every outcome that a finalization returns has the flag, unless one without it stands. -/
theorem flagged_finalize_iff (o : AttemptOutcome ν)
    (finalize : Option (AttemptOutcome ν → Answer ν)) (cleanup : Option Bool)
    (terminalRaises : Bool) :
    (∀ o', (finalizeStartedOutcome o finalize cleanup terminalRaises).result = .returned o' →
      o'.indeterminate = true) ↔ ¬ (terminalRaises = false ∧ cleanup ≠ some true ∧
      (standing o (finalize.map (· o))).any (fun o' => !o'.indeterminate) = true) := by
  constructor
  · rintro h ⟨rfl, hcleanup, hstands⟩
    cases hsome : standing o (finalize.map (· o)) with
    | none =>
      rw [hsome] at hstands
      cases hstands
    | some o' =>
      rw [hsome, any_some, h o' (returned_of_standing hcleanup hsome)] at hstands
      cases hstands
  · intro h o' ho'
    rcases indeterminate_or_standing ho' with hflag | ⟨hterminal, hcleanup, hstands⟩
    · exact hflag
    · by_contra hunflagged
      refine h ⟨hterminal, hcleanup, ?_⟩
      rw [hstands, any_some]
      simpa using hunflagged

/-- The flag of a started attempt is lost exactly where it is dropped. -/
theorem flagged_run_iff (s : Script ν) : Flagged s (run s) ↔ s.dropsFlag = false := by
  cases hu : s.uncertain with
  | false =>
    refine iff_of_true (fun o _ huncertain => ?_) (by simp [Script.dropsFlag, hu])
    rw [hu] at huncertain
    cases huncertain
  | true =>
    have hstart := hu
    unfold Script.uncertain at hstart
    simp only [Bool.and_eq_true, isNone_iff_eq_none, Bool.not_eq_true'] at hstart
    obtain ⟨⟨hrejection, hstarted⟩, hexecution⟩ := hstart
    unfold Flagged run Script.dropsFlag
    rw [hrejection, hu, hstarted]
    cases hprepare : s.prepare.cleanup with
    | error e =>
      -- the outcome of a failed preparation is not finalized by the caller
      refine iff_of_true (fun o ho _ => ?_) (by simp)
      rw [hprepare] at hexecution
      rcases indeterminate_or_standing ho with hflag | ⟨-, -, hstands⟩
      · exact hflag
      · cases hstands
        rw [completedOutcome_indeterminate]
        exact hexecution
    | ok cleanup =>
      rw [hprepare] at hexecution
      cases houtcome : s.execution.outcome with
      | none => exact iff_of_true (fun o ho => by cases ho) (by simp)
      | some o =>
        have hbuilt := Execution.outcome_indeterminate houtcome
        rw [show s.execution.uncertain = true from hexecution, Bool.true_and] at hbuilt
        have hanswer : (standing o (s.finalize.map (· o))).any (fun o' => !o'.indeterminate) =
            s.answersUnflagged o := by
          unfold Script.answersUnflagged
          cases s.finalize with
          | none => rw [map_none, standing, any_some, hbuilt, Bool.not_not]
          | some f => rfl
        have hflagged := flagged_finalize_iff o s.finalize cleanup s.terminalRaises
        rw [hanswer] at hflagged
        refine Iff.trans ⟨fun h o' ho' => h o' ho' rfl, fun h o' ho' _ => h o' ho'⟩
          (hflagged.trans ?_)
        cases hterminal : s.terminalRaises <;> cases hunflagged : s.answersUnflagged o <;>
          simp [hunflagged]

/-- **The run of an attempt**: it keeps the protocol of its sink, settles what its caller publishes,
and flags an uncertain effect unless the flag is dropped. -/
theorem run_correct_iff (s : Script ν) : (SinkProtocol (run s) ∧ Flagged s (run s) ∧
      if s.publishes then Settles (run s) else NothingPublished (run s)) ↔ s.dropsFlag = false := by
  constructor
  · rintro ⟨-, hflagged, -⟩
    exact (flagged_run_iff s).mp hflagged
  · intro h
    exact ⟨sinkProtocol_run s, (flagged_run_iff s).mpr h, settles_run s⟩

/-- A cancelled attempt whose callable has terminated, and whose descendant has not answered for its
effect. -/
def cancelledParent : Script ν where
  rejection := none
  rejectedRaises := false
  startedRaises := false
  prepare := .absent
  marksAtPrepare := .clear
  execution := .threaded false [.waiting true false] true (.error "attempt_cancelled") .indeterminate
  finalize := none
  terminalRaises := false

/-- Its outcome is not indeterminate. -/
theorem not_flagged_cancelledParent : ¬ (SinkProtocol (run (cancelledParent : Script Unit)) ∧
      Flagged cancelledParent (run (cancelledParent : Script Unit)) ∧
      if (cancelledParent : Script Unit).publishes then
        Settles (run (cancelledParent : Script Unit))
      else NothingPublished (run (cancelledParent : Script Unit))) := by
  rintro ⟨-, hflagged, -⟩
  have h := hflagged _ rfl rfl
  cases h

end AttemptLifecycle
