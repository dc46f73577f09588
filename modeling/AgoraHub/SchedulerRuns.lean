/-
# Runs of the scheduler

A run is a list of ticks; the state updates of a tick that returns are fed back as the
last runs.  The due times that are put out for a schedule increase strictly over a whole
run.  A due tick puts some out, or under `SKIP` moves the last run on, as long as what
its evaluation needs is there: for a cron expression, above all, a match among the first
minutes that are scanned.
-/
import AgoraHub.SchedulerCron
import AgoraHub.StepRuns

namespace Workers

open Fallible List PyDict Scheduler

namespace ScheduleSpec

variable (schedule : ScheduleSpec)

/-! ## Due times of a schedule -/

/-- The cron expression. -/
def expression : String := schedule.cron.getD ""

/-- An enabled schedule with a cron expression that is accepted, or with an interval. -/
structure Recurring : Prop where
  enabled : schedule.enabled = true
  trigger : schedule.triggerType = .interval ∨
    (schedule.triggerType = .cron ∧ CronAccepted schedule.expression)

/-- The due times: the minutes that the cron expression matches, or the grid of the interval. -/
def dueSet (anchor : Datetime) : Set Datetime :=
  if schedule.triggerType = .cron then cronDue schedule.expression
  else grid anchor schedule.seconds

/-- The due times in the window of a tick, after the last run and not after now.  A cron schedule
that has never run has only the minute of now. -/
def window (anchor now : Datetime) (last : Option Datetime) : Set Datetime :=
  { d | d ∈ schedule.dueSet anchor ∧ d ≤ now ∧ (∀ l ∈ last, l < d) ∧
    (schedule.triggerType = .cron → last = none → d = now.floorMinute) }

/-- What the evaluation of a due tick needs. -/
def Fits (scheduler : Scheduler) (now : Datetime) (last : Option Datetime) : Prop :=
  if schedule.triggerType = .cron then scheduler.CronFits schedule.expression now last
  else schedule.IntervalFits now last

/-- The grid starts at the first due time, and the last run is on it; `first` is the time of the
first tick. -/
def AnchorFits (anchor first : Datetime) (last : Option Datetime) : Prop :=
  schedule.triggerType = .interval →
    match last with
    | none => anchor = schedule.runAt.getD first
    | some l => l ∈ grid anchor schedule.seconds

variable {schedule} {scheduler : Scheduler} {anchor now : Datetime} {last : Option Datetime}

/-! ## One evaluation -/

theorem cron_eq_expression (h : schedule.triggerType = .cron) :
    schedule.cron = some schedule.expression ∧ schedule.expression ≠ "" := by
  obtain ⟨text, hcron, hne⟩ := schedule.cron_nonempty h
  unfold expression
  rw [hcron]
  exact ⟨rfl, hne⟩

/-- The window of an interval holds a due time exactly when the first due time has come. -/
theorem window_nonempty_iff (htrigger : schedule.triggerType = .interval)
    (hanchor : schedule.AnchorFits anchor now last) :
    (schedule.window anchor now last).Nonempty ↔ schedule.firstDue now last ≤ now.val := by
  have hpos := schedule.seconds_pos htrigger
  have hset : schedule.dueSet anchor = grid anchor schedule.seconds := by
    unfold dueSet
    rw [htrigger, if_neg (by decide)]
  have hnotCron : schedule.triggerType ≠ .cron := by
    rw [htrigger]
    decide
  have hinterval : 0 < schedule.seconds * Datetime.microsPerSecond := mul_pos hpos (by decide)
  unfold window
  rw [hset]
  cases last with
  | none =>
    have hfirst : schedule.firstDue now none = anchor.val := by rw [hanchor htrigger]; rfl
    rw [hfirst]
    constructor
    · rintro ⟨d, ⟨k, hk⟩, hnow, -⟩
      have hnonneg : (0 : ℤ) ≤ k * (schedule.seconds * Datetime.microsPerSecond) := by positivity
      have hle := Fin.le_def.mp hnow
      omega
    · intro hle
      exact ⟨anchor, mem_grid_self _ _, Fin.le_def.mpr (by omega), by simp,
        fun h => (hnotCron h).elim⟩
  | some l =>
    have hl : l ∈ grid anchor schedule.seconds := hanchor htrigger
    constructor
    · rintro ⟨d, hd, hnow, hlast, -⟩
      have hle := Fin.le_def.mp hnow
      have := add_le_of_mem_grid hpos hl hd (hlast l rfl)
      show (l.val : ℤ) + schedule.seconds * Datetime.microsPerSecond ≤ now.val
      omega
    · intro hle
      have hlt := @lt_firstDue schedule now hpos l
      obtain ⟨d, hd⟩ := exists_datetime (by omega) hle
      refine ⟨d, grid_subset_of_mem hl ⟨1, ?_⟩, Fin.le_def.mpr (by omega), ?_,
        fun h => (hnotCron h).elim⟩
      · rw [hd, Nat.cast_one, one_mul]
        rfl
      · intro l' hl'
        obtain rfl := Option.mem_some_iff.mp hl'
        exact Fin.lt_def.mpr (by omega)

/-- A due tick that fits puts out due times, or under `SKIP` moves on to one. -/
theorem evaluate_fires (h : schedule.Recurring) (hanchor : schedule.AnchorFits anchor now last)
    (hdue : (schedule.window anchor now last).Nonempty) (hfits : schedule.Fits scheduler now last) :
    ∃ e, scheduler.evaluate schedule now last = .ok e ∧
      DueTimes.Tick (schedule.dueSet anchor) last now e.dueTimes e.update ∧
      (e.dueTimes ≠ [] ∨ (schedule.misfirePolicy = .skip ∧ e.update ≠ none)) := by
  unfold Scheduler.evaluate
  have henabled : ¬ schedule.enabled = false := by simp [h.enabled]
  rw [if_neg henabled]
  rcases h.trigger with htrigger | ⟨htrigger, haccepted⟩
  · have hset : schedule.dueSet anchor = grid anchor schedule.seconds := by
      unfold dueSet
      rw [htrigger, if_neg (by decide)]
    have hfits' : schedule.IntervalFits now last := by
      unfold Fits at hfits
      rwa [htrigger, if_neg (by decide)] at hfits
    simp only [htrigger, hset]
    refine evaluateInterval_fires htrigger ((window_nonempty_iff htrigger hanchor).mp hdue) hfits' ?_
    intro base hbase
    cases last with
    | none =>
      have hval : base = anchor := by
        apply Fin.ext
        have hfirst : (base.val : ℤ) = (schedule.runAt.getD now).val := hbase
        rw [hanchor htrigger]
        omega
      rw [hval]
      exact mem_grid_self _ _
    | some l =>
      refine grid_subset_of_mem (hanchor htrigger) ⟨1, ?_⟩
      rw [hbase, Nat.cast_one, one_mul]
      rfl
  · obtain ⟨hcron, hne⟩ := cron_eq_expression htrigger
    have hset : schedule.dueSet anchor = cronDue schedule.expression := by
      unfold dueSet
      rw [htrigger, if_pos rfl]
    have hfits' : scheduler.CronFits schedule.expression now last := by
      unfold Fits at hfits
      rwa [htrigger, if_pos rfl] at hfits
    simp only [htrigger, hset]
    refine evaluateCron_fires hcron hne haccepted ?_ hfits'
    obtain ⟨d, hd, hnow, hlast, hfirst⟩ := hdue
    rw [hset] at hd
    refine ⟨d, hd, ?_⟩
    cases last with
    | none => exact hfirst htrigger rfl
    | some l => exact ⟨hlast l rfl, hnow⟩

/-- An evaluation of a tick that is not due changes nothing, if it returns. -/
theorem evaluate_idle (h : schedule.Recurring) (hanchor : schedule.AnchorFits anchor now last)
    (hnot : ¬ (schedule.window anchor now last).Nonempty) {e : ScheduleEvaluation}
    (he : scheduler.evaluate schedule now last = .ok e) : e.dueTimes = [] ∧ e.update = none := by
  have hidle : e.dueTimes = [] ∧ e.stateUpdateAt = none := by
    unfold Scheduler.evaluate at he
    have henabled : ¬ schedule.enabled = false := by simp [h.enabled]
    rw [if_neg henabled] at he
    rcases h.trigger with htrigger | ⟨htrigger, -⟩
    · simp only [htrigger] at he
      rw [window_nonempty_iff htrigger hanchor, not_le] at hnot
      exact evaluateInterval_idle hnot he
    · obtain ⟨hcron, hne⟩ := cron_eq_expression htrigger
      simp only [htrigger] at he
      refine evaluateCron_idle hcron hne ?_ he
      rintro ⟨d, hd, hwindow⟩
      have hd' : d ∈ schedule.dueSet anchor := by
        unfold dueSet
        rwa [htrigger, if_pos rfl]
      cases last with
      | none =>
        have hd'' : d = now.floorMinute := hwindow
        exact hnot ⟨d, hd', hd''.le.trans (floorMinute_le now), by simp, fun _ _ => hd''⟩
      | some l =>
        refine hnot ⟨d, hd', hwindow.2, ?_, by simp⟩
        intro l' hl'
        obtain rfl := Option.mem_some_iff.mp hl'
        exact hwindow.1
  rw [ScheduleEvaluation.update, if_pos hidle.1]
  exact hidle

end ScheduleSpec

/-! ## One call -/

/-- The due times that were put out for a schedule. -/
def dueTimesOf (scheduleId : String) (tasks : List EnqueuedScheduleTask) : List Datetime :=
  (tasks.filter fun t => t.scheduleId = scheduleId).map (·.dueAt)

@[simp] theorem dueTimesOf_append (scheduleId : String) (tasks tasks' : List EnqueuedScheduleTask) :
    dueTimesOf scheduleId (tasks ++ tasks') =
      dueTimesOf scheduleId tasks ++ dueTimesOf scheduleId tasks' := by
  simp [dueTimesOf]

theorem dueTimesOf_map_self (schedule : ScheduleSpec) (dueTimes : List Datetime) :
    dueTimesOf schedule.scheduleId (dueTimes.map (scheduleTask schedule)) = dueTimes := by
  induction dueTimes with
  | nil => rfl
  | cons d dueTimes ih =>
    unfold dueTimesOf at ih ⊢
    rw [map_cons, filter_cons_of_pos (by simp [scheduleTask]), map_cons, ih]
    rfl

theorem dueTimesOf_map_of_ne {schedule : ScheduleSpec} {scheduleId : String}
    (h : schedule.scheduleId ≠ scheduleId) (dueTimes : List Datetime) :
    dueTimesOf scheduleId (dueTimes.map (scheduleTask schedule)) = [] := by
  unfold dueTimesOf
  rw [map_eq_nil_iff, filter_eq_nil_iff]
  intro t ht
  obtain ⟨d, -, rfl⟩ := mem_map.mp ht
  simp [scheduleTask, h]

namespace Scheduler

variable (scheduler : Scheduler) (now : Datetime) (state : PyDict String Datetime)

/-- The state updates after a schedule is recorded. -/
theorem stateUpdates_record (schedule : ScheduleSpec) (result : SchedulerTickResult)
    (e : ScheduleEvaluation) : (record schedule result e).stateUpdates = match e.update with
      | some u => result.stateUpdates.set schedule.scheduleId u
      | none => result.stateUpdates := by
  have hlast : ∀ (ds : List Datetime) (updates : PyDict String Datetime),
      ds.foldl (fun updates dueAt => updates.set schedule.scheduleId dueAt) updates =
        match ds.getLast? with
        | some u => updates.set schedule.scheduleId u
        | none => updates := by
    intro ds
    induction ds with
    | nil => exact fun _ => rfl
    | cons d ds ih =>
      intro updates
      rw [foldl_cons, ih]
      cases ds with
      | nil => rfl
      | cons d' ds =>
        rw [getLast?_cons_cons]
        cases h : (d' :: ds).getLast? with
        | none => simp at h
        | some u => exact set_set _ _ _ _
  unfold record ScheduleEvaluation.update
  cases hdue : e.dueTimes with
  | nil => cases hstate : e.stateUpdateAt <;> simp
  | cons d ds =>
    rw [if_neg (cons_ne_nil _ _)]
    exact hlast (d :: ds) result.stateUpdates

/-- What a recorded schedule adds to its own due times and last run. -/
theorem record_self (schedule : ScheduleSpec) (result : SchedulerTickResult)
    (e : ScheduleEvaluation) : dueTimesOf schedule.scheduleId (record schedule result e).enqueued =
        dueTimesOf schedule.scheduleId result.enqueued ++ e.dueTimes ∧
      (record schedule result e).stateUpdates.get? schedule.scheduleId =
        e.update.or (result.stateUpdates.get? schedule.scheduleId) := by
  constructor
  · unfold record
    rw [dueTimesOf_append, dueTimesOf_map_self]
  · rw [stateUpdates_record]
    cases e.update with
    | none => rfl
    | some u => exact get?_set_self _ _ _

/-- A recorded schedule adds nothing to another one. -/
theorem record_of_ne {schedule : ScheduleSpec} {scheduleId : String}
    (h : schedule.scheduleId ≠ scheduleId) (result : SchedulerTickResult) (e : ScheduleEvaluation) :
    dueTimesOf scheduleId (record schedule result e).enqueued =
        dueTimesOf scheduleId result.enqueued ∧
      (record schedule result e).stateUpdates.get? scheduleId =
        result.stateUpdates.get? scheduleId := by
  constructor
  · unfold record
    rw [dueTimesOf_append, dueTimesOf_map_of_ne h, append_nil]
  · rw [stateUpdates_record]
    cases e.update with
    | none => rfl
    | some u => exact get?_set_of_ne _ _ (Ne.symm h)

theorem nodup_keys_record (schedule : ScheduleSpec) {result : SchedulerTickResult}
    (e : ScheduleEvaluation) (h : result.stateUpdates.keys.Nodup) :
    (record schedule result e).stateUpdates.keys.Nodup := by
  rw [stateUpdates_record]
  cases e.update with
  | none => exact h
  | some u => exact nodup_keys_set h _ _

theorem nodup_keys_enqueueLoop : ∀ (schedules : List ScheduleSpec) (result : SchedulerTickResult),
    result.stateUpdates.keys.Nodup →
      (scheduler.enqueueLoop now state schedules result).2.stateUpdates.keys.Nodup := by
  intro schedules
  induction schedules with
  | nil => exact fun _ h => h
  | cons s schedules ih =>
    intro result h
    unfold enqueueLoop
    cases scheduler.evaluate s now (state.get? s.scheduleId) with
    | error err => exact h
    | ok e => exact ih _ (nodup_keys_record s e h)

/-- A call without a schedule of that id changes nothing of it. -/
theorem enqueueLoop_absent {scheduleId : String} :
    ∀ {schedules : List ScheduleSpec}, scheduleId ∉ schedules.map (·.scheduleId) →
      ∀ result : SchedulerTickResult,
        dueTimesOf scheduleId (scheduler.enqueueLoop now state schedules result).2.enqueued =
            dueTimesOf scheduleId result.enqueued ∧
          (scheduler.enqueueLoop now state schedules result).2.stateUpdates.get? scheduleId =
            result.stateUpdates.get? scheduleId := by
  intro schedules
  induction schedules with
  | nil => exact fun _ _ => ⟨rfl, rfl⟩
  | cons s schedules ih =>
    intro h result
    rw [map_cons, mem_cons, not_or] at h
    unfold enqueueLoop
    cases scheduler.evaluate s now (state.get? s.scheduleId) with
    | error err => exact ⟨rfl, rfl⟩
    | ok e =>
      obtain ⟨hdue, hlast⟩ := ih h.2 (record s result e)
      obtain ⟨hdue', hlast'⟩ := record_of_ne (Ne.symm h.1) result e
      exact ⟨hdue.trans hdue', hlast.trans hlast'⟩

/-- A call with the schedule adds what its evaluation puts out, or raises before it comes to it. -/
theorem enqueueLoop_present {schedule : ScheduleSpec} :
    ∀ {schedules : List ScheduleSpec}, (schedules.map (·.scheduleId)).Nodup →
      schedule ∈ schedules → ∀ result : SchedulerTickResult,
        (∃ e, scheduler.evaluate schedule now (state.get? schedule.scheduleId) = .ok e ∧
          dueTimesOf schedule.scheduleId
              (scheduler.enqueueLoop now state schedules result).2.enqueued =
            dueTimesOf schedule.scheduleId result.enqueued ++ e.dueTimes ∧
          (scheduler.enqueueLoop now state schedules result).2.stateUpdates.get?
              schedule.scheduleId = e.update.or (result.stateUpdates.get? schedule.scheduleId)) ∨
        (dueTimesOf schedule.scheduleId
              (scheduler.enqueueLoop now state schedules result).2.enqueued =
            dueTimesOf schedule.scheduleId result.enqueued ∧
          ∃ err, (scheduler.enqueueLoop now state schedules result).1 = .error err) := by
  intro schedules
  induction schedules with
  | nil => exact fun _ h => (not_mem_nil h).elim
  | cons s schedules ih =>
    intro hnodup hmem result
    rw [map_cons, nodup_cons] at hnodup
    unfold enqueueLoop
    cases he : scheduler.evaluate s now (state.get? s.scheduleId) with
    | error err => exact Or.inr ⟨rfl, err, rfl⟩
    | ok e =>
      rcases mem_cons.mp hmem with rfl | hmem
      · rcases enqueueLoop_absent scheduler now state hnodup.1 (record schedule result e)
          with ⟨hdue, hlast⟩
        obtain ⟨hdue', hlast'⟩ := record_self schedule result e
        exact Or.inl ⟨e, he, hdue.trans hdue', hlast.trans hlast'⟩
      · have hne : s.scheduleId ≠ schedule.scheduleId := by
          intro heq
          exact hnodup.1 (heq ▸ mem_map_of_mem hmem)
        obtain ⟨hdue', hlast'⟩ := record_of_ne hne result e
        have h := ih hnodup.2 hmem (record s result e)
        rwa [hdue', hlast'] at h

/-- A call returns when every schedule of it evaluates. -/
theorem enqueueLoop_ok : ∀ {schedules : List ScheduleSpec},
    (∀ s ∈ schedules, ∃ e, scheduler.evaluate s now (state.get? s.scheduleId) = .ok e) →
      ∀ result, (scheduler.enqueueLoop now state schedules result).1 = .ok () := by
  intro schedules
  induction schedules with
  | nil => exact fun _ _ => rfl
  | cons s schedules ih =>
    intro h result
    obtain ⟨e, he⟩ := h s mem_cons_self
    unfold enqueueLoop
    rw [he]
    exact ih (fun s' hs' => h s' (mem_cons_of_mem _ hs')) _

end Scheduler

/-! ## Runs -/

/-- A tick of a run about a schedule: a call of `enqueue_due` with schedules of distinct ids, in
which only the schedule itself has its id. -/
structure SchedulerCall (schedule : ScheduleSpec) where
  schedules : List ScheduleSpec
  now : Datetime
  distinct : (schedules.map (·.scheduleId)).Nodup
  named : ∀ s ∈ schedules, s.scheduleId = schedule.scheduleId → s = schedule

/-- The last runs that are fed back, and every task that was enqueued. -/
structure SchedulerRun where
  lastRunAt : PyDict String Datetime
  enqueued : List EnqueuedScheduleTask := []

namespace SchedulerRun

variable {schedule : ScheduleSpec} (scheduler : Scheduler)

section

variable (s : SchedulerRun)

/-- A tick.  The state updates of a call that raises are lost, but not the tasks that it has
enqueued. -/
def tick (c : SchedulerCall schedule) : SchedulerRun :=
  match scheduler.enqueueDue c.schedules c.now s.lastRunAt with
  | (.ok _, result) =>
    { lastRunAt := s.lastRunAt.update result.stateUpdates,
      enqueued := s.enqueued ++ result.enqueued }
  | (.error _, result) => { s with enqueued := s.enqueued ++ result.enqueued }

/-- The last run of the schedule. -/
def last (schedule : ScheduleSpec) : Option Datetime :=
  s.lastRunAt.get? schedule.scheduleId

/-- The due times that were put out for the schedule. -/
def dueTimes (schedule : ScheduleSpec) : List Datetime :=
  dueTimesOf schedule.scheduleId s.enqueued

/-- The due times that a tick puts out for the schedule. -/
def newDueTimes (c : SchedulerCall schedule) : List Datetime :=
  dueTimesOf schedule.scheduleId
    (scheduler.enqueueDue c.schedules c.now s.lastRunAt).2.enqueued

end

theorem dueTimes_tick (s : SchedulerRun) (c : SchedulerCall schedule) :
    (s.tick scheduler c).dueTimes schedule = s.dueTimes schedule ++ s.newDueTimes scheduler c := by
  unfold dueTimes newDueTimes tick
  obtain ⟨outcome, result⟩ := scheduler.enqueueDue c.schedules c.now s.lastRunAt
  cases outcome <;> simp

/-- A tick puts out due times of the schedule that are not after now.  When its window holds a due
time it puts some out, or under `SKIP` it moves the last run on to one. -/
structure Served (anchor : Datetime) (s : SchedulerRun) (c : SchedulerCall schedule) : Prop where
  due : ∀ d ∈ s.newDueTimes scheduler c, d ∈ schedule.dueSet anchor ∧ d ≤ c.now
  notStarved : schedule ∈ c.schedules →
    (schedule.window anchor c.now (s.last schedule)).Nonempty →
      s.newDueTimes scheduler c ≠ [] ∨
        (schedule.misfirePolicy = .skip ∧ ∃ u ∈ schedule.dueSet anchor,
          u ≤ c.now ∧ (∀ l ∈ s.last schedule, l < u) ∧ (s.tick scheduler c).last schedule = some u)

/-- The condition on a tick: when it is due, what the evaluation of the schedule needs is there,
and the other schedules of the call evaluate. -/
def Meets (anchor : Datetime) (s : SchedulerRun) (c : SchedulerCall schedule) : Prop :=
  schedule ∈ c.schedules → (schedule.window anchor c.now (s.last schedule)).Nonempty →
    schedule.Fits scheduler c.now (s.last schedule) ∧
      ∀ other ∈ c.schedules, other.scheduleId ≠ schedule.scheduleId →
        ∃ e, scheduler.evaluate other c.now (s.lastRunAt.get? other.scheduleId) = .ok e

/-- The time of the first tick with the schedule. -/
def firstTick : List (SchedulerCall schedule) → Datetime
  | [] => 0
  | c :: calls =>
    if schedule.scheduleId ∈ c.schedules.map (·.scheduleId) then c.now else firstTick calls

/-- The first time of the grid: the last run, the first due time of the schedule, or the first
tick. -/
def anchor (schedule : ScheduleSpec) (s : SchedulerRun) (calls : List (SchedulerCall schedule)) :
    Datetime :=
  (s.last schedule).getD (schedule.runAt.getD (firstTick calls))

variable {scheduler} {s : SchedulerRun} {c : SchedulerCall schedule} {start : Datetime}

/-- A tick without the schedule changes nothing of it. -/
theorem tick_absent (scheduler : Scheduler) (s : SchedulerRun)
    (h : schedule.scheduleId ∉ c.schedules.map (·.scheduleId)) :
    s.newDueTimes scheduler c = [] ∧ (s.tick scheduler c).last schedule = s.last schedule := by
  obtain ⟨hdue, hlast⟩ := scheduler.enqueueLoop_absent c.now s.lastRunAt h {}
  have hnodup := scheduler.nodup_keys_enqueueLoop c.now s.lastRunAt c.schedules {} nodup_nil
  refine ⟨hdue, ?_⟩
  unfold last tick enqueueDue
  rcases hresult : scheduler.enqueueLoop c.now s.lastRunAt c.schedules {} with ⟨outcome, result⟩
  rw [hresult] at hlast hnodup
  cases outcome with
  | error err => rfl
  | ok u =>
    show (s.lastRunAt.update result.stateUpdates).get? _ = _
    rw [get?_update hnodup, hlast]
    rfl

/-- What a tick with the schedule does for it: what its evaluation says, or nothing; the last run
is fed back when the call returns. -/
theorem tick_present (scheduler : Scheduler) (s : SchedulerRun) (h : schedule ∈ c.schedules) :
    (∃ e, scheduler.evaluate schedule c.now (s.last schedule) = .ok e ∧
      s.newDueTimes scheduler c = e.dueTimes ∧
      ((s.tick scheduler c).last schedule = e.update.or (s.last schedule) ∨
        ((∃ err, (scheduler.enqueueDue c.schedules c.now s.lastRunAt).1 = .error err) ∧
          (s.tick scheduler c).last schedule = s.last schedule))) ∨
    (s.newDueTimes scheduler c = [] ∧
      (∃ err, (scheduler.enqueueDue c.schedules c.now s.lastRunAt).1 = .error err) ∧
      (s.tick scheduler c).last schedule = s.last schedule) := by
  have hnodup := scheduler.nodup_keys_enqueueLoop c.now s.lastRunAt c.schedules {} nodup_nil
  have hraised : ∀ err, (scheduler.enqueueDue c.schedules c.now s.lastRunAt).1 = .error err →
      (s.tick scheduler c).last schedule = s.last schedule := by
    intro err herr
    unfold last tick
    rcases hresult : scheduler.enqueueDue c.schedules c.now s.lastRunAt with ⟨outcome, result⟩
    rw [hresult] at herr
    obtain rfl : outcome = .error err := herr
    rfl
  rcases scheduler.enqueueLoop_present c.now s.lastRunAt c.distinct h {} with
    ⟨e, he, hdue, hlast⟩ | ⟨hdue, err, herr⟩
  · refine Or.inl ⟨e, he, hdue, ?_⟩
    cases houtcome : (scheduler.enqueueDue c.schedules c.now s.lastRunAt).1 with
    | error err => exact Or.inr ⟨⟨err, rfl⟩, hraised err houtcome⟩
    | ok u =>
      refine Or.inl ?_
      unfold last tick
      unfold enqueueDue at houtcome ⊢
      rcases hresult : scheduler.enqueueLoop c.now s.lastRunAt c.schedules {} with
        ⟨outcome, result⟩
      rw [hresult] at houtcome hlast hnodup
      obtain rfl : outcome = .ok u := houtcome
      show (s.lastRunAt.update result.stateUpdates).get? _ = _
      rw [get?_update hnodup, hlast]
      cases e.update <;> rfl
  · exact Or.inr ⟨hdue, ⟨err, herr⟩, hraised err herr⟩

section

variable (hrec : schedule.Recurring)

include hrec

/-- A due tick that meets the condition does what its evaluation says. -/
theorem tick_due (h : schedule ∈ c.schedules)
    (hanchor : schedule.AnchorFits start c.now (s.last schedule))
    (hdue : (schedule.window start c.now (s.last schedule)).Nonempty)
    (hmeets : Meets scheduler start s c) :
    ∃ update, DueTimes.Tick (schedule.dueSet start) (s.last schedule) c.now
        (s.newDueTimes scheduler c) update ∧
      (s.tick scheduler c).last schedule = update.or (s.last schedule) ∧
      (s.newDueTimes scheduler c ≠ [] ∨ (schedule.misfirePolicy = .skip ∧ update ≠ none)) := by
  obtain ⟨hfits, hothers⟩ := hmeets h hdue
  obtain ⟨e, he, htick, hout⟩ := ScheduleSpec.evaluate_fires hrec hanchor hdue hfits
  have hall : ∀ other ∈ c.schedules,
      ∃ e, scheduler.evaluate other c.now (s.lastRunAt.get? other.scheduleId) = .ok e := by
    intro other hother
    by_cases hid : other.scheduleId = schedule.scheduleId
    · rw [c.named other hother hid]
      exact ⟨e, he⟩
    · exact hothers other hother hid
  have hok : (scheduler.enqueueDue c.schedules c.now s.lastRunAt).1 = .ok () :=
    scheduler.enqueueLoop_ok c.now s.lastRunAt hall {}
  rcases tick_present scheduler s h with
    ⟨e', he', hnew, hlast | ⟨⟨err, herr⟩, -⟩⟩ | ⟨-, ⟨err, herr⟩, -⟩
  · rw [he] at he'
    cases he'
    rw [hnew]
    exact ⟨e.update, htick, hlast, hout⟩
  · rw [hok] at herr
    cases herr
  · rw [hok] at herr
    cases herr

/-- A tick that is not due changes nothing. -/
theorem tick_idle (h : schedule ∈ c.schedules)
    (hanchor : schedule.AnchorFits start c.now (s.last schedule))
    (hnot : ¬ (schedule.window start c.now (s.last schedule)).Nonempty) :
    s.newDueTimes scheduler c = [] ∧ (s.tick scheduler c).last schedule = s.last schedule := by
  rcases tick_present scheduler s h with
    ⟨e, he, hnew, hlast⟩ | ⟨hnew, -, hlast⟩
  · obtain ⟨hempty, hnone⟩ := ScheduleSpec.evaluate_idle hrec hanchor hnot he
    rw [hnone] at hlast
    refine ⟨hnew.trans hempty, ?_⟩
    rcases hlast with hlast | ⟨-, hlast⟩
    · exact hlast
    · exact hlast
  · exact ⟨hnew, hlast⟩

/-- The grid still fits after a tick. -/
theorem anchorFits_tick (hmeets : Meets scheduler start s c) {calls : List (SchedulerCall schedule)}
    (hanchor : schedule.AnchorFits start (firstTick (c :: calls)) (s.last schedule)) :
    schedule.AnchorFits start (firstTick calls) ((s.tick scheduler c).last schedule) := by
  by_cases hid : schedule.scheduleId ∈ c.schedules.map (·.scheduleId)
  · have hmem : schedule ∈ c.schedules := by
      obtain ⟨other, hother, heq⟩ := mem_map.mp hid
      exact c.named other hother heq ▸ hother
    rw [firstTick, if_pos hid] at hanchor
    by_cases hdue : (schedule.window start c.now (s.last schedule)).Nonempty
    · obtain ⟨update, htick, hlast, hout⟩ := tick_due hrec hmem hanchor hdue hmeets
      rw [hlast]
      intro htrigger
      cases hupdate : update with
      | some u =>
        have hdueSet := (htick.advanced u hupdate).1
        unfold ScheduleSpec.dueSet at hdueSet
        rw [htrigger, if_neg (by decide)] at hdueSet
        exact hdueSet
      | none =>
        -- a due tick always moves the last run
        rcases hout with hnew | ⟨-, hne⟩
        · rw [htick.remembered hnew, getLast?_eq_none_iff] at hupdate
          exact (hnew hupdate).elim
        · exact (hne hupdate).elim
    · rw [(tick_idle hrec hmem hanchor hdue).2]
      cases hlast : s.last schedule with
      | some l =>
        intro htrigger
        rw [hlast] at hanchor
        exact hanchor htrigger
      | none =>
        intro htrigger
        rw [hlast] at hanchor hdue
        -- without a first time the first tick is due
        cases hrunAt : schedule.runAt with
        | some r =>
          have hstart : start = schedule.runAt.getD c.now := hanchor htrigger
          rw [hrunAt] at hstart
          exact hstart
        | none =>
          refine (hdue ((ScheduleSpec.window_nonempty_iff htrigger hanchor).mpr ?_)).elim
          show ((schedule.runAt.getD c.now).val : ℤ) ≤ c.now.val
          rw [hrunAt]
          exact le_refl _
  · rw [firstTick, if_neg hid] at hanchor
    rw [(tick_absent scheduler s hid).2]
    exact hanchor

/-- A tick keeps the order of what was put out, and serves the schedule. -/
theorem ordered_tick (hmeets : Meets scheduler start s c)
    (hanchor : schedule ∈ c.schedules → schedule.AnchorFits start c.now (s.last schedule))
    (hordered : DueTimes.Ordered (s.dueTimes schedule) (s.last schedule)) :
    DueTimes.Ordered ((s.tick scheduler c).dueTimes schedule) ((s.tick scheduler c).last schedule) ∧
      Served scheduler start s c := by
  rw [dueTimes_tick]
  have hunchanged : s.newDueTimes scheduler c = [] →
      (s.tick scheduler c).last schedule = s.last schedule →
      DueTimes.Ordered (s.dueTimes schedule ++ s.newDueTimes scheduler c)
        ((s.tick scheduler c).last schedule) ∧
      ∀ d ∈ s.newDueTimes scheduler c, d ∈ schedule.dueSet start ∧ d ≤ c.now := by
    intro hnew hlast
    rw [hnew, hlast, append_nil]
    exact ⟨hordered, by simp⟩
  by_cases hmem : schedule ∈ c.schedules
  · by_cases hdue : (schedule.window start c.now (s.last schedule)).Nonempty
    · obtain ⟨update, htick, hlast, hout⟩ := tick_due hrec hmem (hanchor hmem) hdue hmeets
      rw [hlast]
      refine ⟨htick.ordered hordered, fun d hd => ⟨(htick.due d hd).1, (htick.due d hd).2.1⟩, ?_⟩
      intro _ _
      rcases hout with hnew | ⟨hskip, hne⟩
      · exact Or.inl hnew
      · obtain ⟨u, hu⟩ := Option.ne_none_iff_exists'.mp hne
        obtain ⟨hmemU, hnow, hafter⟩ := htick.advanced u hu
        exact Or.inr ⟨hskip, u, hmemU, hnow, hafter, by rw [hlast, hu]; rfl⟩
    · obtain ⟨hnew, hlast⟩ := tick_idle hrec hmem (hanchor hmem) hdue
      obtain ⟨hordered', hall⟩ := hunchanged hnew hlast
      exact ⟨hordered', hall, fun _ h => (hdue h).elim⟩
  · have hid : schedule.scheduleId ∉ c.schedules.map (·.scheduleId) := by
      intro hid
      obtain ⟨other, hother, heq⟩ := mem_map.mp hid
      exact hmem (c.named other hother heq ▸ hother)
    obtain ⟨hnew, hlast⟩ := tick_absent scheduler s hid
    obtain ⟨hordered', hall⟩ := hunchanged hnew hlast
    exact ⟨hordered', hall, fun h => (hmem h).elim⟩

/-- The order is kept and every tick serves the schedule, along every run of ticks that meet the
condition. -/
theorem ordered_run : ∀ {calls : List (SchedulerCall schedule)} {s : SchedulerRun},
      schedule.AnchorFits start (firstTick calls) (s.last schedule) →
      DueTimes.Ordered (s.dueTimes schedule) (s.last schedule) →
      StepRuns.Along (tick scheduler) (Meets scheduler start) s calls →
        DueTimes.Ordered ((StepRuns.run (tick scheduler) s calls).dueTimes schedule)
            ((StepRuns.run (tick scheduler) s calls).last schedule) ∧
          StepRuns.Along (tick scheduler) (Served scheduler start) s calls := by
  intro calls
  induction calls with
  | nil => exact fun _ hordered _ => ⟨hordered, trivial⟩
  | cons c calls ih =>
    intro s hanchor hordered hmeets
    have hfirst : schedule ∈ c.schedules → schedule.AnchorFits start c.now (s.last schedule) := by
      intro hmem
      rwa [firstTick, if_pos (mem_map_of_mem hmem)] at hanchor
    obtain ⟨hordered', hserved⟩ := ordered_tick hrec hmeets.1 hfirst hordered
    obtain ⟨hrun, hlater⟩ := ih (anchorFits_tick hrec hmeets.1 hanchor) hordered' hmeets.2
    exact ⟨hrun, hserved, hlater⟩

end

theorem anchorFits_anchor (s : SchedulerRun) (calls : List (SchedulerCall schedule)) :
    schedule.AnchorFits (anchor schedule s calls) (firstTick calls) (s.last schedule) := by
  intro _
  unfold anchor
  cases s.last schedule with
  | none => rfl
  | some l => exact mem_grid_self l _

/-- Over a run of ticks that meet the condition, the due times that are put out for a schedule
increase strictly, each is due and not after its tick, and no due tick starves the schedule. -/
theorem due_times_along_run (scheduler : Scheduler) (hrec : schedule.Recurring)
    (lastRunAt : PyDict String Datetime) (calls : List (SchedulerCall schedule))
    (hmeets : StepRuns.Along (tick scheduler)
      (Meets scheduler (anchor schedule { lastRunAt := lastRunAt } calls))
      { lastRunAt := lastRunAt } calls) :
    ((StepRuns.run (tick scheduler) { lastRunAt := lastRunAt } calls).dueTimes schedule).Pairwise
        (· < ·) ∧
      StepRuns.Along (tick scheduler)
        (Served scheduler (anchor schedule { lastRunAt := lastRunAt } calls))
        { lastRunAt := lastRunAt } calls := by
  have hnil : DueTimes.Ordered (dueTimes { lastRunAt := lastRunAt } schedule)
      (last { lastRunAt := lastRunAt } schedule) := DueTimes.ordered_nil _
  obtain ⟨hordered, hserved⟩ := ordered_run hrec (anchorFits_anchor _ calls) hnil hmeets
  exact ⟨hordered.1, hserved⟩

/-- A schedule of every minute. -/
def everyMinute : ScheduleSpec where
  scheduleId := "s"
  triggerType := .interval
  taskType := "t"
  intervalSeconds := some 60
  interval_pos := fun _ => ⟨60, rfl, by decide⟩
  runAt_isSome := by simp
  cron_nonempty := by simp

/-- A call with that schedule alone. -/
def callOf (schedule : ScheduleSpec) (now : Datetime) : SchedulerCall schedule where
  schedules := [schedule]
  now := now
  distinct := nodup_singleton _
  named := fun _ hs _ => mem_singleton.mp hs

/-- Two ticks of a schedule that has never run. -/
theorem due_times_along_run_everyMinute : ((StepRuns.run (tick {}) { lastRunAt := [] }
        [callOf everyMinute 0, callOf everyMinute 60000000]).dueTimes everyMinute).Pairwise
        (· < ·) ∧ StepRuns.Along (tick {}) (Served {} (anchor everyMinute { lastRunAt := [] }
          [callOf everyMinute 0, callOf everyMinute 60000000]))
        { lastRunAt := [] } [callOf everyMinute 0, callOf everyMinute 60000000] := by
  have hother : ∀ (now : Datetime) (s : SchedulerRun), ∀ other ∈ (callOf everyMinute now).schedules,
      other.scheduleId ≠ everyMinute.scheduleId →
        ∃ e, Scheduler.evaluate {} other now (s.lastRunAt.get? other.scheduleId) = .ok e := by
    intro now s other hmem hne
    obtain rfl := mem_singleton.mp hmem
    exact (hne rfl).elim
  refine due_times_along_run {} ⟨rfl, Or.inl rfl⟩ [] _ ⟨fun _ _ => ⟨?_, hother 0 _⟩,
    fun _ _ => ⟨?_, hother 60000000 _⟩, trivial⟩
  · exact ⟨by decide +kernel, by decide +kernel⟩
  · have hlast : (tick {} { lastRunAt := [] } (callOf everyMinute 0)).last everyMinute = some 0 := by
      decide +kernel
    rw [hlast]
    exact ⟨by decide +kernel, by decide +kernel⟩

/-- A schedule of every fifth minute. -/
def everyFifthMinute : ScheduleSpec where
  scheduleId := "s"
  triggerType := .cron
  taskType := "t"
  cron := some "*/5 * * * *"
  interval_pos := by simp
  runAt_isSome := by simp
  cron_nonempty := fun _ => ⟨_, rfl, by decide⟩

theorem everyFifthMinute_recurring : everyFifthMinute.Recurring := by
  refine ⟨rfl, Or.inr ⟨rfl, fun m => ?_⟩⟩
  have hwords : PyNumber.words everyFifthMinute.expression = ["*/5", "*", "*", "*", "*"] := by
    decide +kernel
  have hstar : ∀ value minimum maximum, fieldMatches "*" value minimum maximum = .ok true :=
    fun _ _ _ => rfl
  have hfifth : ∀ value, ∃ b, fieldMatches "*/5" value 0 59 = .ok b := by
    intro value
    have hsplit : PyNumber.splitAt ',' "*/5" = ["*/5"] := by decide +kernel
    have hstrip : PyText.strip "*/5" = "*/5" := by decide +kernel
    have hnumber : PyNumber.int? (String.ofList ("*/5".toList.drop 2)) = some 5 := by
      decide +kernel
    have hfield : fieldMatches "*/5" value 0 59 =
        if (value - 0) % 5 = 0 then .ok true else .ok false := by
      unfold fieldMatches
      rw [if_neg (by decide), hsplit]
      unfold partsMatch
      simp only [hstrip, hnumber]
      rfl
    rw [hfield]
    split
    · exact ⟨_, rfl⟩
    · exact ⟨_, rfl⟩
  obtain ⟨b, hb⟩ := hfifth m.minute
  unfold cronMatches
  rw [hwords]
  simp only [hstar, hb]
  cases b <;> exact ⟨_, rfl⟩

/-- With a bound of one minute, a schedule of every fifth minute that ran at its first minute puts
out nothing at the next one. -/
theorem sparse_cron_starves :
    ¬ ∀ (scheduler : Scheduler) (schedule : ScheduleSpec), schedule.Recurring →
      ∀ (lastRunAt : PyDict String Datetime) (calls : List (SchedulerCall schedule)),
        calls.Pairwise (fun c c' => c.now ≤ c'.now) →
          ((StepRuns.run (tick scheduler) { lastRunAt := lastRunAt } calls).dueTimes
              schedule).Pairwise (· < ·) ∧ StepRuns.Along (tick scheduler)
              (Served scheduler (anchor schedule { lastRunAt := lastRunAt } calls))
              { lastRunAt := lastRunAt } calls := by
  intro hall
  have hserved := (hall { maxCronCatchupMinutes := 1 } everyFifthMinute everyFifthMinute_recurring
    [("s", 0)] [callOf everyFifthMinute 300000000] (pairwise_singleton _ _)).2.1
  have hdue : (300000000 : Datetime) ∈ cronDue everyFifthMinute.expression := by
    refine ⟨by decide +kernel, by decide +kernel⟩
  have hafter : ∀ l ∈ last { lastRunAt := [("s", 0)] } everyFifthMinute,
      l < (300000000 : Datetime) := by
    intro l hl
    obtain rfl : 0 = l := Option.some.inj hl
    decide
  rcases hserved.notStarved mem_cons_self
    ⟨300000000, hdue, le_refl _, hafter, by decide +kernel⟩ with hnew | ⟨hskip, -⟩
  · exact hnew (by decide +kernel)
  · revert hskip
    decide

end SchedulerRun

end Workers
