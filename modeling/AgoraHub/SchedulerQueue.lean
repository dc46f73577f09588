/-
# A tick over a queue

`Scheduler.enqueue_due` with an `InMemoryTaskQueue` under it.  A queue that is full answers a
task with a refusal; the tick moves the last run on all the same.  So the state stays behind
every refused run exactly when the queue has room for all the due runs of the tick.
-/
import AgoraHub.SchedulerRuns
import AgoraHub.WorkerQueueRuns

namespace Workers

open Fallible List InMemoryTaskQueue Scheduler

/-- What the tasks of a tick get: a new id each, and the reading of the clock of the queue when
the task is offered. -/
structure Offers where
  taskId : ℕ → String
  reading : ℕ → Datetime
  injective : Function.Injective taskId

/-- The queue during a tick, with its answers so far; `none` is an acceptance. -/
structure QueueTick where
  queue : InMemoryTaskQueue
  answers : List (Option TaskEnqueueResult) := []

section

variable (offers : Offers) (queue : InMemoryTaskQueue)

/-- `self.queue.enqueue(task)` of a new task. -/
def offer (t : QueueTick) (entry : EnqueuedScheduleTask) : QueueTick :=
  let n := t.answers.length
  let answer := (t.queue.updateTask (offers.taskId n) fun _ => entry.task).enqueue
    (offers.taskId n) (offers.reading n)
  ⟨answer.2, t.answers ++ [answer.1]⟩

/-- The tasks are offered in the order in which the tick lists them. -/
def offerAll (runs : List EnqueuedScheduleTask) : QueueTick := runs.foldl (offer offers) ⟨queue, []⟩

/-- `enqueue_due`; an evaluation does not look at the queue. -/
def Scheduler.enqueueDueOn (scheduler : Scheduler) (schedules : List ScheduleSpec)
    (now : Datetime) (state : PyDict String Datetime) :
    Except WorkerError Unit × SchedulerTickResult × QueueTick :=
  let (outcome, result) := scheduler.enqueueDue schedules now state
  (outcome, result, offerAll offers queue result.enqueued)

/-- The pending tasks of a queue after some runs: those it had, and those of the runs that are due
by the next reading of its clock. -/
def pendingAfter (earlier : List EnqueuedScheduleTask) (name : String) : ℕ :=
  let now := offers.reading earlier.length
  queue.pendingCount name now + earlier.countP fun e => e.task.queueName = name ∧ e.dueAt ≤ now

/-- The queue has room for each run after the ones before it. -/
def HasRoom (runs : List EnqueuedScheduleTask) : Prop :=
  ∀ earlier entry, earlier ++ [entry] <+: runs →
    ¬ queue.backpressurePolicy.ShouldReject (pendingAfter offers queue earlier entry.task.queueName)

end

/-- The due runs of a tick, as its evaluations give them. -/
def Scheduler.dueRuns (scheduler : Scheduler) (schedules : List ScheduleSpec) (now : Datetime)
    (state : PyDict String Datetime) : List EnqueuedScheduleTask :=
  schedules.flatMap fun schedule =>
    match scheduler.evaluate schedule now (state.get? schedule.scheduleId) with
    | .ok evaluation => evaluation.dueTimes.map (scheduleTask schedule)
    | .error _ => []

/-- The last run of a schedule is at or after a due time only if the task of that time was
accepted. -/
def KeepsRefused (result : SchedulerTickResult) (answers : List (Option TaskEnqueueResult)) : Prop :=
  ∀ p ∈ result.enqueued.zip answers, ∀ last ∈ result.stateUpdates.get? p.1.scheduleId,
    p.1.dueAt ≤ last → p.2 = none

/-! ## One offer -/

theorem pendingCount_eq (q : InMemoryTaskQueue) (name : String) (now : Datetime) :
    q.pendingCount name now =
      ((q.queued.get? name).getD []).countP (fun i => ¬ (q.tasks i).Delayed now) +
        (q.inFlight.filter fun i => (q.tasks i).queueName = name).length := by
  have hsplit := length_eq_countP_add_countP (fun i => decide ((q.tasks i).Delayed now))
    (l := (q.queued.get? name).getD [])
  unfold pendingCount
  rw [countP_eq_length_filter] at hsplit
  simp only [Bool.decide_iff, decide_not] at hsplit ⊢
  omega

theorem pendingCount_appendQueued (q : InMemoryTaskQueue) (i name queueName : String)
    (now : Datetime) : (q.appendQueued queueName i).pendingCount name now =
      q.pendingCount name now + if queueName = name ∧ ¬ (q.tasks i).Delayed now then 1 else 0 := by
  rw [pendingCount_eq, pendingCount_eq]
  show (((q.queued.set queueName _).get? name).getD []).countP
    (fun j => decide ¬ (q.tasks j).Delayed now) + _ = _
  by_cases hname : queueName = name
  · subst hname
    rw [PyDict.get?_set_self, Option.getD_some, countP_append, countP_singleton, add_right_comm]
    simp
    rfl
  · rw [PyDict.get?_set_of_ne _ _ (Ne.symm hname), if_neg fun h => hname h.1]
    rfl

theorem length_answers (offers : Offers) (queue : InMemoryTaskQueue)
    (runs : List EnqueuedScheduleTask) : (offerAll offers queue runs).answers.length = runs.length := by
  unfold offerAll
  induction runs using reverseRecOn with
  | nil => rfl
  | append_singleton runs entry ih => simp [foldl_append, offer, ih]

/-- The tick after the tasks of some runs were accepted. -/
structure Filled (offers : Offers) (queue : InMemoryTaskQueue) (runs : List EnqueuedScheduleTask)
    (t : QueueTick) : Prop where
  accepted : t.answers = replicate runs.length none
  policy : t.queue.backpressurePolicy = queue.backpressurePolicy
  active : ∀ i ∈ t.queue.activeIds, i ∈ queue.activeIds ∨ ∃ n < runs.length, i = offers.taskId n
  pending : ∀ name now, t.queue.pendingCount name now = queue.pendingCount name now +
    runs.countP fun e => e.task.queueName = name ∧ e.dueAt ≤ now

section

variable {offers : Offers} {queue : InMemoryTaskQueue} {runs : List EnqueuedScheduleTask}
  (hfresh : ∀ n, offers.taskId n ∉ queue.activeIds)

include hfresh

/-- The next task is accepted when there is room for it, and refused when there is not. -/
theorem Filled.next {t : QueueTick} (h : Filled offers queue runs t) (schedule : ScheduleSpec)
    (dueAt : Datetime) :
    (queue.backpressurePolicy.ShouldReject (pendingAfter offers queue runs schedule.queueName) →
      ∃ refused, (offer offers t (scheduleTask schedule dueAt)).answers =
        t.answers ++ [some refused]) ∧
    (¬ queue.backpressurePolicy.ShouldReject (pendingAfter offers queue runs schedule.queueName) →
      Filled offers queue (runs ++ [scheduleTask schedule dueAt])
        (offer offers t (scheduleTask schedule dueAt))) := by
  have hlength : t.answers.length = runs.length := by rw [h.accepted, length_replicate]
  have hnew : offers.taskId runs.length ∉ t.queue.activeIds := by
    intro hmem
    rcases h.active _ hmem with hmem | ⟨n, hn, heq⟩
    · exact hfresh _ hmem
    · exact hn.ne' (offers.injective heq)
  -- to change a task object that is not active changes no count
  have hcount : ∀ (q : InMemoryTaskQueue), q.queued = t.queue.queued →
      q.inFlight = t.queue.inFlight → (∀ i ≠ offers.taskId runs.length, q.tasks i = t.queue.tasks i) →
        ∀ name now, q.pendingCount name now = t.queue.pendingCount name now := by
    intro q hq hflight htasks
    exact pendingCount_congr hq hflight fun i hi => htasks i fun heq => hnew (heq ▸ hi)
  generalize hq : t.queue.updateTask (offers.taskId runs.length)
    (fun _ => (scheduleTask schedule dueAt).task) = q
  have htask : q.tasks (offers.taskId runs.length) = (scheduleTask schedule dueAt).task := by
    rw [← hq, tasks_updateTask_self]
  have hothers : ∀ i ≠ offers.taskId runs.length, q.tasks i = t.queue.tasks i := by
    intro i hi
    rw [← hq, tasks_updateTask_of_ne _ _ hi]
  have hpolicy : q.backpressurePolicy = queue.backpressurePolicy := by rw [← hq, ← h.policy]; rfl
  have hqueued : q.queued = t.queue.queued := by rw [← hq]; rfl
  have hflight : q.inFlight = t.queue.inFlight := by rw [← hq]; rfl
  have hadmission : taskAdmissionError (q.tasks (offers.taskId runs.length)) = none := by
    rw [htask]
    rfl
  have hdup : ¬ q.IsDuplicate (offers.taskId runs.length) := by
    rintro ⟨key, hkey, -⟩
    rw [htask] at hkey
    cases hkey
  have hpending : q.pendingCount (q.tasks (offers.taskId runs.length)).queueName
      (offers.reading runs.length) = pendingAfter offers queue runs schedule.queueName := by
    rw [htask, hcount q hqueued hflight hothers]
    exact h.pending _ _
  unfold offer
  simp only [hlength, hq]
  constructor
  · intro hfull
    refine ⟨q.refusal (offers.taskId runs.length) "backpressure", ?_⟩
    unfold InMemoryTaskQueue.enqueue
    simp only [hadmission, hdup, if_false]
    rw [if_pos (by rw [hpolicy, hpending]; exact hfull)]
  · intro hroom
    rw [enqueue_eq_accept q hadmission hdup (by rw [hpolicy, hpending]; exact hroom)]
    refine ⟨?_, hpolicy, ?_, ?_⟩
    · rw [h.accepted, length_append, length_singleton, replicate_succ']
    · intro i hi
      have hperm : (q.acceptTask (offers.taskId runs.length)).queuedIds ~
          offers.taskId runs.length :: q.queuedIds :=
        Multiset.coe_eq_coe.mp (queuedIds_appendQueued _ _ _)
      have hactive : i = offers.taskId runs.length ∨ i ∈ t.queue.activeIds := by
        unfold activeIds queuedIds at hi hperm ⊢
        rw [hqueued] at hperm
        rcases mem_append.mp hi with hi | hi
        · exact (mem_cons.mp (hperm.mem_iff.mp hi)).imp_right fun hi => mem_append_left _ hi
        · exact Or.inr (mem_append_right _ (hflight ▸ hi))
      rw [length_append, length_singleton]
      rcases hactive with rfl | hi
      · exact Or.inr ⟨_, Nat.lt_succ_self _, rfl⟩
      · exact (h.active i hi).imp_right fun ⟨n, hn, heq⟩ => ⟨n, Nat.lt_succ_of_lt hn, heq⟩
    · intro name now
      show ((q.updateTask _ _).appendQueued _ _).pendingCount name now = _
      rw [pendingCount_appendQueued, hcount (q.updateTask _ _) hqueued hflight fun i hi =>
        (tasks_updateTask_of_ne _ _ hi).trans (hothers i hi), h.pending, countP_append,
        countP_singleton, add_assoc, tasks_updateTask_self, htask]
      by_cases hdue : schedule.queueName = name ∧ dueAt ≤ now <;> simp [Task.Delayed, scheduleTask, hdue]

/-- Every task of the runs is accepted exactly when there is room for them. -/
theorem filled_of_hasRoom
    (hruns : ∀ entry ∈ runs, ∃ schedule dueAt, entry = scheduleTask schedule dueAt) :
    (HasRoom offers queue runs → Filled offers queue runs (offerAll offers queue runs)) ∧
      ((∀ a ∈ (offerAll offers queue runs).answers, a = none) → HasRoom offers queue runs) := by
  unfold offerAll
  induction runs using reverseRecOn with
  | nil =>
    refine ⟨fun _ => ⟨rfl, rfl, fun _ hi => Or.inl hi, fun _ _ => rfl⟩, ?_⟩
    intro _ earlier entry hprefix
    simp at hprefix
  | append_singleton runs entry ih =>
    obtain ⟨hfilled, hroom⟩ := ih fun e he => hruns e (mem_append_left _ he)
    obtain ⟨schedule, dueAt, rfl⟩ := hruns entry (mem_append_right _ mem_cons_self)
    rw [foldl_append, foldl_cons, foldl_nil]
    constructor
    · intro h
      have hnext := hfilled fun earlier e hbefore =>
        h earlier e (hbefore.trans (prefix_append _ _))
      exact (hnext.next hfresh schedule dueAt).2 (h runs _ (prefix_refl _))
    · intro h earlier e hprefix hfull
      have hroom' := hroom fun a ha => h a (mem_append_left _ ha)
      rcases prefix_concat_iff.mp hprefix with heq | hprefix
      · obtain ⟨rfl, hlast⟩ := append_inj' heq rfl
        obtain rfl := (cons.inj hlast).1
        obtain ⟨refused, hrefused⟩ := ((hfilled hroom').next hfresh schedule dueAt).1 hfull
        cases h (some refused) (hrefused ▸ mem_append_right _ mem_cons_self)
      · exact hroom' earlier e hprefix hfull

end

/-! ## One tick -/

theorem sorted_intervalDueTimes {base : Datetime} {interval : ℤ} {count : ℕ}
    {policy : MisfirePolicy} {catchup : ℤ} {ts : List Datetime} (hpos : 0 < interval)
    (h : intervalDueTimes base interval count policy catchup = .ok ts) : ts.Pairwise (· < ·) := by
  unfold intervalDueTimes at h
  split at h
  · obtain ⟨latest, -, h⟩ := bind_inv h
    cases h
    exact pairwise_singleton _ _
  · obtain ⟨hlength, hget⟩ := forall₂_iff_get.mp (forall₂_of_mapM h)
    rw [pairwise_iff_getElem]
    intro i j hi hj hlt
    have hti := hget i (hlength ▸ hi) hi
    have htj := hget j (hlength ▸ hj) hj
    simp only [get_eq_getElem, getElem_range, intervalTime_eq_ok] at hti htj
    have hmul := mul_lt_mul_of_pos_right (Int.ofNat_lt.mpr hlt) hpos
    exact Fin.lt_def.mpr (by omega)

/-- An evaluation lists its due times in order. -/
theorem Scheduler.sorted_dueTimes {scheduler : Scheduler} {schedule : ScheduleSpec}
    {now : Datetime} {last : Option Datetime} {e : ScheduleEvaluation}
    (he : scheduler.evaluate schedule now last = .ok e) : e.dueTimes.Pairwise (· < ·) := by
  unfold evaluate evaluateDate at he
  by_cases henabled : schedule.enabled = false
  · rw [if_pos henabled] at he
    cases he
    exact Pairwise.nil
  rw [if_neg henabled] at he
  cases htrigger : schedule.triggerType <;> simp only [htrigger] at he
  case interval =>
    obtain ⟨interval, hinterval, he⟩ := bind_inv he
    obtain rfl := eq_of_duration hinterval
    repeat' first
      | split at he
      | obtain ⟨_, _, he⟩ := bind_inv he
    all_goals cases he
    all_goals first
      | exact Pairwise.nil
      | exact sorted_intervalDueTimes (mul_pos (schedule.seconds_pos htrigger)
          (show 0 < Datetime.microsPerSecond by decide)) ‹_›
  case cron =>
    have hdue : ∀ {expression bounded dueTimes}, dueTimes.Pairwise (· < ·) → dueTimes ≠ [] →
        evaluateDueCron schedule expression bounded dueTimes = .ok e →
          e.dueTimes.Pairwise (· < ·) := by
      intro expression bounded dueTimes hsorted hne he
      unfold evaluateDueCron at he
      repeat' first
        | split at he
        | obtain ⟨_, _, he⟩ := bind_inv he
      all_goals cases he
      all_goals first
        | exact Pairwise.nil
        | exact hsorted.sublist (keptDueTimes_spec schedule hne).1
    unfold evaluateCron evaluateFirstCron evaluateNextCron at he
    repeat' first
      | split at he
      | obtain ⟨_, _, he⟩ := bind_inv he
    all_goals first
      | cases he
        first
        | exact Pairwise.nil
        | exact pairwise_singleton _ _
      | skip
    rename_i hscanned _ _ _ _ _ hmatching hne
    exact hdue ((minuteRange_spec hscanned).1.sublist (matchingMinutes_spec hmatching).1) hne he
  all_goals
    repeat' split at he
    all_goals cases he
    all_goals first
      | exact Pairwise.nil
      | exact pairwise_singleton _ _

section

variable {scheduler : Scheduler} {now : Datetime} {state : PyDict String Datetime}

/-- A call whose schedules evaluate lists the due runs. -/
theorem Scheduler.enqueued_enqueueLoop : ∀ {schedules : List ScheduleSpec},
    (∀ s ∈ schedules, ∃ e, scheduler.evaluate s now (state.get? s.scheduleId) = .ok e) →
      ∀ result, (scheduler.enqueueLoop now state schedules result).2.enqueued =
        result.enqueued ++ scheduler.dueRuns schedules now state := by
  intro schedules
  induction schedules with
  | nil => exact fun _ _ => (append_nil _).symm
  | cons s schedules ih =>
    intro h result
    obtain ⟨e, he⟩ := h s mem_cons_self
    unfold enqueueLoop
    rw [he]
    rw [ih fun s' hs' => h s' (mem_cons_of_mem _ hs')]
    simp [record, dueRuns, he]

variable {schedules : List ScheduleSpec} {offers : Offers} {queue : InMemoryTaskQueue}

/-- A tick that returns keeps every refused run exactly when the queue has room for all the due
runs. -/
theorem Scheduler.keepsRefused_iff (hdistinct : (schedules.map (·.scheduleId)).Nodup)
    (hfresh : ∀ n, offers.taskId n ∉ queue.activeIds)
    (hall : ∀ s ∈ schedules, ∃ e, scheduler.evaluate s now (state.get? s.scheduleId) = .ok e) :
    (scheduler.enqueueDueOn offers queue schedules now state).1 = .ok () ∧
      (KeepsRefused (scheduler.enqueueDueOn offers queue schedules now state).2.1
        (scheduler.enqueueDueOn offers queue schedules now state).2.2.answers ↔
      HasRoom offers queue (scheduler.dueRuns schedules now state)) := by
  have hok := scheduler.enqueueLoop_ok now state hall {}
  have hresult := scheduler.enqueued_enqueueLoop hall {}
  rw [show ({} : SchedulerTickResult).enqueued = [] from rfl, nil_append] at hresult
  have hruns : ∀ entry ∈ scheduler.dueRuns schedules now state,
      ∃ s ∈ schedules, ∃ e d, scheduler.evaluate s now (state.get? s.scheduleId) = .ok e ∧
        d ∈ e.dueTimes ∧ entry = scheduleTask s d := by
    intro entry hentry
    obtain ⟨s, hs, hentry⟩ := mem_flatMap.mp hentry
    obtain ⟨e, he⟩ := hall s hs
    rw [he] at hentry
    obtain ⟨d, hd, rfl⟩ := mem_map.mp hentry
    exact ⟨s, hs, e, d, he, hd, rfl⟩
  obtain ⟨hfilled, hroom⟩ := filled_of_hasRoom hfresh
    fun entry hentry => let ⟨s, _, _, d, _, _, heq⟩ := hruns entry hentry; ⟨s, d, heq⟩
  unfold enqueueDueOn enqueueDue KeepsRefused
  refine ⟨hok, ?_⟩
  simp only [hresult]
  constructor
  · intro hkeeps
    refine hroom fun a ha => ?_
    rw [← map_snd_zip (length_answers offers queue _).le] at ha
    obtain ⟨⟨entry, a⟩, hp, rfl⟩ := mem_map.mp ha
    obtain ⟨s, hs, e, d, he, hd, rfl⟩ := hruns entry (of_mem_zip hp).1
    obtain ⟨e', he', -, hlast⟩ | ⟨-, err, herr⟩ :=
      scheduler.enqueueLoop_present now state hdistinct hs {}
    · obtain rfl := ok_inj (he.symm.trans he')
      have hne := ne_nil_of_mem hd
      obtain ⟨u, hu, -⟩ := exists_lastOf hne
      rw [ScheduleEvaluation.update, if_neg hne, hu] at hlast
      exact hkeeps _ hp u hlast (DueTimes.le_getLast? (sorted_dueTimes he) hd hu)
    · rw [hok] at herr
      cases herr
  · intro h p hp last _ _
    have ha := (of_mem_zip hp).2
    rw [(hfilled h).accepted] at ha
    exact eq_of_mem_replicate ha

end

/-! ## A refused run -/

/-- A schedule of one date. -/
def dateSchedule (scheduleId : String) : ScheduleSpec where
  scheduleId := scheduleId
  triggerType := .date
  taskType := "report"
  runAt := some 0
  maxCatchupRuns_pos := le_rfl
  interval_pos := nofun
  runAt_isSome := nofun
  cron_nonempty := nofun

/-- A queue that has room for one task. -/
def narrowQueue : InMemoryTaskQueue where
  tasks _ := { taskType := "report" }
  backpressurePolicy := { maxPendingPerQueue := some 1 }

def numbered : Offers where
  taskId n := String.ofList (replicate n 'x')
  reading _ := 0
  injective m n h := by simpa using congrArg String.length h

theorem Scheduler.keepsRefused_iff_dates :
    let tick := Scheduler.enqueueDueOn numbered narrowQueue {} [dateSchedule "a", dateSchedule "b"] 0 []
    tick.1 = .ok () ∧ (KeepsRefused tick.2.1 tick.2.2.answers ↔
      HasRoom numbered narrowQueue (Scheduler.dueRuns {} [dateSchedule "a", dateSchedule "b"] 0 [])) :=
  keepsRefused_iff (by decide) (fun _ => not_mem_nil)
    (by rintro s (_ | ⟨_, _ | ⟨_, ⟨⟩⟩⟩) <;> exact ⟨_, rfl⟩)

/-- The second of two dates is refused and not offered again. -/
theorem Scheduler.not_keepsRefused_dates :
    let tick := Scheduler.enqueueDueOn numbered narrowQueue {} [dateSchedule "a", dateSchedule "b"] 0 []
    tick.1 = .ok () ∧ ¬ KeepsRefused tick.2.1 tick.2.2.answers ∧
      ∃ e, Scheduler.evaluate {} (dateSchedule "b") 1 (tick.2.1.stateUpdates.get? "b") = .ok e ∧
        e.dueTimes = [] := by
  refine ⟨rfl, fun h => ?_, _, rfl, rfl⟩
  cases h (scheduleTask (dateSchedule "b") 0, some {
    taskId := "x", queueName := "framework:queue:default", status := .created, reason := "backpressure" })
    (by decide +kernel) 0 rfl le_rfl

end Workers
