/-
# The schedules of tasks

`Scheduler` looks at each schedule at the time of a tick: it reads off the times that
are due since the schedule ran last, enqueues a task for each of them and returns the
new last times.  A cron expression is matched minute by minute; an interval counts
from its first time.
-/
import AgoraHub.PyDict
import AgoraHub.PyNumber
import AgoraHub.WorkerTask

namespace Workers

open Fallible

/-! ## Schedules -/

inductive ScheduleTriggerType where
  | manual | date | interval | cron | event | webhook | sourceHealth | subscription
  deriving DecidableEq

inductive MisfirePolicy where
  | skip | runOnce | catchUp | catchUpLimited
  deriving DecidableEq

/-- A `ScheduleSpec`, with what its constructor checks. -/
structure ScheduleSpec where
  scheduleId : String
  triggerType : ScheduleTriggerType
  taskType : String
  queueName : String := "framework:queue:default"
  enabled : Bool := true
  intervalSeconds : Option ℤ := none
  runAt : Option Datetime := none
  cron : Option String := none
  misfirePolicy : MisfirePolicy := .runOnce
  maxCatchupRuns : ℤ := 1
  maxCatchupRuns_pos : 1 ≤ maxCatchupRuns := by decide
  interval_pos : triggerType = .interval → ∃ seconds, intervalSeconds = some seconds ∧ 0 < seconds
  runAt_isSome : triggerType = .date → runAt ≠ none
  cron_nonempty : triggerType = .cron → ∃ expression, cron = some expression ∧ expression ≠ ""

structure ScheduleEvaluation where
  scheduleId : String
  triggerType : ScheduleTriggerType
  dueTimes : List Datetime := []
  nextRunAt : Option Datetime := none
  stateUpdateAt : Option Datetime := none
  enabled : Bool := true
  reason : Option String := none
  deriving DecidableEq

structure EnqueuedScheduleTask where
  scheduleId : String
  dueAt : Datetime
  task : Task
  deriving DecidableEq

structure SchedulerTickResult where
  evaluations : List ScheduleEvaluation := []
  enqueued : List EnqueuedScheduleTask := []
  stateUpdates : PyDict String Datetime := []
  deriving DecidableEq

/-! ## Cron expressions -/

/-- The error of `int(text)`. -/
def invalidInt : WorkerError := .valueError "invalid literal for int() with base 10"

/-- The loop of `_field_matches` over the parts of the field. -/
def partsMatch (value minimum maximum : ℤ) : List String → Except WorkerError Bool
  | [] => .ok false
  | text :: rest =>
    let part := PyText.strip text
    if part = "" then partsMatch value minimum maximum rest
    else if part.toList.take 2 = ['*', '/'] then do
      let step ← orRaise (PyNumber.int? (String.ofList (part.toList.drop 2))) invalidInt
      if step ≤ 0 then .error (.valueError "cron step must be greater than zero")
      else if (value - minimum) % step = 0 then .ok true
      else partsMatch value minimum maximum rest
    else do
      let number ← orRaise (PyNumber.int? part) invalidInt
      let expected := if number = 7 ∧ maximum = 7 then 0 else number
      if expected < minimum ∨ maximum < expected then
        .error (.valueError ("cron field value out of range: " ++ part))
      else if value = expected then .ok true
      else partsMatch value minimum maximum rest

def fieldMatches (field : String) (value minimum maximum : ℤ) : Except WorkerError Bool :=
  if field = "*" then .ok true
  else partsMatch value minimum maximum (PyNumber.splitAt ',' field)

/-- `x and y` of two tests that can raise. -/
def andThen (x y : Except WorkerError Bool) : Except WorkerError Bool := do
  if ← x then y else .ok false

def cronMatches (expression : String) (moment : Datetime) : Except WorkerError Bool :=
  match PyNumber.words expression with
  | [minute, hour, day, month, dayOfWeek] =>
    let cronWeekday := (moment.weekday + 1) % 7
    andThen (fieldMatches minute moment.minute 0 59) <|
      andThen (fieldMatches hour moment.hour 0 23) <|
        andThen (fieldMatches day moment.monthAndDay.2 1 31) <|
          andThen (fieldMatches month moment.monthAndDay.1 1 12)
            (fieldMatches dayOfWeek cronWeekday 0 7)
  | _ => .error (.valueError "cron expression must have five fields")

/-- A `timedelta` computed by the source, with its `OverflowError`. -/
def duration (d : Except OverflowError ℤ) : Except WorkerError ℤ :=
  match d with
  | .ok d => .ok d
  | .error _ => .error .overflowError

/-- `moment + timedelta(minutes=1)`. -/
def nextMinute (t : Datetime) : Except WorkerError Datetime :=
  moment (t.addMicros Datetime.microsPerMinute)

/-- The search of `_next_cron_time` from a minute on. -/
def searchCron (expression : String) : ℕ → Datetime → Except WorkerError (Option Datetime)
  | 0, _ => .ok none
  | n + 1, current => do
    if ← cronMatches expression current then .ok (some current)
    else do
      let next ← nextMinute current
      searchCron expression n next

def nextCronTime (expression : String) (after : Datetime) :
    Except WorkerError (Option Datetime) := do
  let current ← nextMinute after.floorMinute
  searchCron expression 1440 current

def minuteRange (end_ : Datetime) : ℕ → Datetime → Except WorkerError (List Datetime)
  | 0, _ => .ok []
  | n + 1, current =>
    if current ≤ end_ then do
      let next ← nextMinute current
      let rest ← minuteRange end_ n next
      .ok (current :: rest)
    else .ok []

/-- `[moment for moment in minutes if _cron_matches(expression, moment)]`. -/
def matchingMinutes (expression : String) : List Datetime → Except WorkerError (List Datetime)
  | [] => .ok []
  | m :: rest => do
    let matched ← cronMatches expression m
    let later ← matchingMinutes expression rest
    .ok (if matched then m :: later else later)

/-- `values[-1]`. -/
def lastOf (values : List Datetime) : Except WorkerError Datetime :=
  orRaise values.getLast? .indexError

/-! ## Evaluation -/

/-- `_interval_due_count` of times with `base ≤ now`. -/
def intervalDueCount (base now : Datetime) (seconds : ℤ) : ℕ :=
  PyNumber.floorDivSeconds (now.val - base.val) seconds.toNat + 1

/-- `base_due_at + index * interval`. -/
def intervalTime (base : Datetime) (interval : ℤ) (index : ℕ) : Except WorkerError Datetime :=
  moment (base.addMicros (index * interval))

def intervalDueTimes (base : Datetime) (interval : ℤ) (dueCount : ℕ) (policy : MisfirePolicy)
    (maxCatchupRuns : ℤ) : Except WorkerError (List Datetime) :=
  if policy = .runOnce then do
    let latest ← intervalTime base interval (dueCount - 1)
    .ok [latest]
  else (List.range (min dueCount maxCatchupRuns.toNat)).mapM (intervalTime base interval)

section

variable (schedule : ScheduleSpec)

/-- `base_due_at`: the first due time, or the one after the last run. -/
def baseDueAt (now : Datetime) (interval : ℤ) : Option Datetime → Except WorkerError Datetime
  | none => .ok (schedule.runAt.getD now)
  | some lastRunAt => moment (lastRunAt.addMicros interval)

def evaluateInterval (now : Datetime) (last : Option Datetime) :
    Except WorkerError ScheduleEvaluation := do
  let seconds := schedule.intervalSeconds.getD 0
  let interval ← duration (Datetime.timedelta (seconds * Datetime.microsPerSecond))
  let base ← baseDueAt schedule now interval last
  if now < base then
    .ok {
      scheduleId := schedule.scheduleId, triggerType := schedule.triggerType
      nextRunAt := some base, reason := some "not_due" }
  else do
    let dueCount := intervalDueCount base now seconds
    let latest ← intervalTime base interval (dueCount - 1)
    if 1 < dueCount ∧ schedule.misfirePolicy = .skip then do
      let next ← moment (latest.addMicros interval)
      .ok {
        scheduleId := schedule.scheduleId, triggerType := schedule.triggerType
        nextRunAt := some next, stateUpdateAt := some latest, reason := some "misfire_skipped" }
    else do
      let dueTimes ←
        intervalDueTimes base interval dueCount schedule.misfirePolicy schedule.maxCatchupRuns
      let final ← lastOf dueTimes
      let next ← moment (final.addMicros interval)
      .ok {
        scheduleId := schedule.scheduleId, triggerType := schedule.triggerType
        dueTimes := dueTimes, nextRunAt := some next, stateUpdateAt := some final }

def evaluateDate (now : Datetime) (last : Option Datetime) : ScheduleEvaluation :=
  let evaluation : ScheduleEvaluation :=
    { scheduleId := schedule.scheduleId, triggerType := schedule.triggerType }
  match schedule.runAt, last with
  | none, _ => { evaluation with reason := some "missing_run_at" }
  | some _, some _ => { evaluation with reason := some "already_run" }
  | some runAt, none =>
    if now < runAt then { evaluation with nextRunAt := some runAt, reason := some "not_due" }
    else { evaluation with dueTimes := [runAt], stateUpdateAt := some runAt }

end

/-- `Scheduler`, with the bound that its constructor checks. -/
structure Scheduler where
  maxCronCatchupMinutes : ℤ := 1440
  maxCronCatchupMinutes_pos : 1 ≤ maxCronCatchupMinutes := by decide

namespace Scheduler

variable (scheduler : Scheduler)

section

variable (schedule : ScheduleSpec)

/-- The branch of `_evaluate_cron` for a schedule that has never run. -/
def evaluateFirstCron (expression : String) (currentMinute : Datetime) :
    Except WorkerError ScheduleEvaluation := do
  if ← cronMatches expression currentMinute then do
    let next ← nextCronTime expression currentMinute
    .ok {
      scheduleId := schedule.scheduleId, triggerType := schedule.triggerType
      dueTimes := [currentMinute], nextRunAt := next, stateUpdateAt := some currentMinute }
  else do
    let next ← nextCronTime expression currentMinute
    .ok {
      scheduleId := schedule.scheduleId, triggerType := schedule.triggerType
      nextRunAt := next, reason := some "not_due" }

/-- The due times of `_evaluate_cron` that are kept under a policy other than `SKIP`, and under
`SKIP` when there is one. -/
def keptDueTimes (dueTimes : List Datetime) : List Datetime :=
  if schedule.misfirePolicy = .runOnce then dueTimes.drop (dueTimes.length - 1)
  else if schedule.maxCatchupRuns < dueTimes.length then
    dueTimes.drop (dueTimes.length - schedule.maxCatchupRuns.toNat)
  else dueTimes

/-- The branch of `_evaluate_cron` after a scan that has found due times. -/
def evaluateDueCron (expression : String) (catchupBounded : Bool)
    (dueTimes : List Datetime) : Except WorkerError ScheduleEvaluation :=
  if 1 < dueTimes.length ∧ schedule.misfirePolicy = .skip then do
    let latest ← lastOf dueTimes
    let next ← nextCronTime expression latest
    .ok {
      scheduleId := schedule.scheduleId, triggerType := schedule.triggerType
      nextRunAt := next, stateUpdateAt := some latest
      reason := some (if catchupBounded then "catchup_bounded_skipped" else "misfire_skipped") }
  else do
    let kept := keptDueTimes schedule dueTimes
    let final ← lastOf kept
    let next ← nextCronTime expression final
    .ok {
      scheduleId := schedule.scheduleId, triggerType := schedule.triggerType
      dueTimes := kept, nextRunAt := next, stateUpdateAt := some final
      reason := if catchupBounded then some "catchup_bounded" else none }

/-- The branch of `_evaluate_cron` for a schedule that ran last at a known time. -/
def evaluateNextCron (expression : String) (currentMinute : Datetime)
    (lastRunAt : Datetime) : Except WorkerError ScheduleEvaluation := do
  let start ← nextMinute lastRunAt.floorMinute
  if currentMinute < start then do
    let next ← nextCronTime expression currentMinute
    .ok {
      scheduleId := schedule.scheduleId, triggerType := schedule.triggerType
      nextRunAt := next, reason := some "not_due" }
  else do
    let scanned ← minuteRange currentMinute scheduler.maxCronCatchupMinutes.toNat start
    let bound ← duration
      (Datetime.timedelta ((scheduler.maxCronCatchupMinutes - 1) * Datetime.microsPerMinute))
    let catchupBounded := decide (bound < (currentMinute.val : ℤ) - start.val)
    let dueTimes ← matchingMinutes expression scanned
    if dueTimes = [] then do
      let next ← nextCronTime expression currentMinute
      .ok {
        scheduleId := schedule.scheduleId, triggerType := schedule.triggerType
        nextRunAt := next
        reason := some (if catchupBounded then "catchup_bounded" else "not_due") }
    else evaluateDueCron schedule expression catchupBounded dueTimes

def evaluateCron (now : Datetime) (last : Option Datetime) :
    Except WorkerError ScheduleEvaluation :=
  match schedule.cron with
  | none => .ok {
      scheduleId := schedule.scheduleId, triggerType := schedule.triggerType
      reason := some "missing_cron" }
  | some expression =>
    if expression = "" then
      .ok {
        scheduleId := schedule.scheduleId, triggerType := schedule.triggerType
        reason := some "missing_cron" }
    else
      match last with
      | none => evaluateFirstCron schedule expression now.floorMinute
      | some lastRunAt => scheduler.evaluateNextCron schedule expression now.floorMinute lastRunAt

def evaluate (now : Datetime) (last : Option Datetime) : Except WorkerError ScheduleEvaluation :=
  let evaluation : ScheduleEvaluation :=
    { scheduleId := schedule.scheduleId, triggerType := schedule.triggerType }
  if schedule.enabled = false then
    .ok { evaluation with enabled := false, reason := some "disabled" }
  else
    match schedule.triggerType with
    | .manual => .ok { evaluation with reason := some "manual_trigger_required" }
    | .date => .ok (evaluateDate schedule now last)
    | .interval => evaluateInterval schedule now last
    | .cron => scheduler.evaluateCron schedule now last
    | _ => .ok { evaluation with reason := some "unsupported_trigger" }

/-- The task of `_enqueue_schedule_task`. -/
def scheduleTask (dueAt : Datetime) : EnqueuedScheduleTask where
  scheduleId := schedule.scheduleId
  dueAt := dueAt
  task :=
    { taskType := schedule.taskType, queueName := schedule.queueName,
      scheduledFor := some dueAt, executionScope := some .standalone }

/-- What a tick adds for one evaluated schedule. -/
def record (result : SchedulerTickResult)
    (evaluation : ScheduleEvaluation) : SchedulerTickResult where
  evaluations := result.evaluations ++ [evaluation]
  enqueued := result.enqueued ++ evaluation.dueTimes.map (scheduleTask schedule)
  stateUpdates :=
    match evaluation.dueTimes, evaluation.stateUpdateAt with
    | [], some stateUpdateAt => result.stateUpdates.set schedule.scheduleId stateUpdateAt
    | dueTimes, _ =>
      dueTimes.foldl (fun updates dueAt => updates.set schedule.scheduleId dueAt)
        result.stateUpdates

end

/-- The loop of `enqueue_due`; what was enqueued before an evaluation raises stays enqueued. -/
def enqueueLoop (now : Datetime) (state : PyDict String Datetime) :
    List ScheduleSpec → SchedulerTickResult → Except WorkerError Unit × SchedulerTickResult
  | [], result => (.ok (), result)
  | schedule :: rest, result =>
    match scheduler.evaluate schedule now (state.get? schedule.scheduleId) with
    | .error e => (.error e, result)
    | .ok evaluation => enqueueLoop now state rest (record schedule result evaluation)

def enqueueDue (schedules : List ScheduleSpec) (now : Datetime) (state : PyDict String Datetime) :
    Except WorkerError Unit × SchedulerTickResult :=
  scheduler.enqueueLoop now state schedules {}

end Scheduler

end Workers
