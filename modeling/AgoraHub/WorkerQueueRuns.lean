/-
# Runs of the task queue

Each operation moves one task from one place to another, as long as three things do
not go wrong: a retry that the queue refuses, a date out of range in the middle of a
call, and a dead letter that is requeued while its key is in use.  In a run without
these, every accepted task is always in exactly one place.
-/
import AgoraHub.WorkerQueuePlaces
import AgoraHub.StepRuns

namespace Workers

open Fallible Placement InMemoryTaskQueue List PyDict

variable {now : Datetime}

namespace InMemoryTaskQueue

variable (q : InMemoryTaskQueue)

/-! ## What can go wrong -/

/-- The key of the task, if it has one, is not the key of a queued task or one in flight. -/
def KeyFree (taskId : String) : Prop :=
  ∀ i ∈ q.activeIds, ∀ key,
    (q.tasks taskId).dedupKey = some key → (q.tasks i).dedupKey ≠ some key

/-- The queue refuses the task for its scope or for backpressure. -/
def Refuses (taskId : String) (now : Datetime) : Prop :=
  taskAdmissionError (q.tasks taskId) ≠ none ∨
    q.backpressurePolicy.ShouldReject (q.pendingCount (q.tasks taskId).queueName now)

/-- A task with the empty key, which the queue takes for no key, is refused or has it alone. -/
def EmptyKeyFits (taskId : String) (now : Datetime) : Prop :=
  (q.tasks taskId).dedupKey = some "" → q.Refuses taskId now ∨ q.KeyFree taskId

/-- The lease of the task that is taken, if one is, ends at a date. -/
def LeaseFits (queueNames : List String) (leaseSeconds : Option ℤ) (now : Datetime) : Prop :=
  ∀ name i, q.leaseCandidate? queueNames now = some (name, i) →
    ∃ expires, leaseEnd (q.tasks i) leaseSeconds now = .ok expires

/-- Every turn of a batch takes a task with a lease that ends at a date. -/
def TurnsFit (workerId queueName : String) (leaseSeconds : ℤ) (q : InMemoryTaskQueue) :
    List Datetime → Prop
  | [] => True
  | now :: later =>
    q.LeaseFits [queueName] (some leaseSeconds) now ∧
      TurnsFit workerId queueName leaseSeconds
        (q.leaseOne workerId [queueName] (some leaseSeconds) now).2 later

/-- The lease that is reclaimed, if one is, ends at a date again. -/
def ReclaimFits (queueNames : List String) (reference : Datetime) : Prop :=
  ∀ i, q.inFlight.find? (fun i => q.Stale queueNames reference i) = some i →
    ∃ expires, reclaimedEnd (q.tasks i) reference = .ok expires

/-- A retry, if one is decided, has a time, and its queue has room for the task. -/
def RetryFits (taskId : String) (error : TaskError) (now later : Datetime) : Prop :=
  taskId ∈ q.inFlight → q.retryPolicy.ShouldRetry (q.tasks taskId) error →
    (∃ nextRunAt, q.retryPolicy.nextRunAt (q.tasks taskId) now = .ok nextRunAt) ∧
      ¬ q.backpressurePolicy.ShouldReject
        ((q.popInFlight taskId).pendingCount (q.tasks taskId).queueName later)

/-! ## Admission -/

/-- `_has_unfinished_dedup_key` finds a queued task or one in flight. -/
theorem exists_active_of_hasKey {key : String} (h : q.HasUnfinishedDedupKey key) :
    ∃ i ∈ q.activeIds, (q.tasks i).dedupKey = some key := by
  rcases h with ⟨ids, hids, i, hi, hunfinished⟩ | ⟨i, hi, hunfinished⟩
  · exact ⟨i, mem_append_left _ (mem_flatten.mpr ⟨ids, hids, hi⟩), hunfinished.1⟩
  · exact ⟨i, mem_append_right _ hi, hunfinished.1⟩

theorem hasKey_of_active {key i : String}
    (hall : ∀ i ∈ q.activeIds, (q.tasks i).status ∈ TaskStatus.unfinished)
    (hi : i ∈ q.activeIds) (hkey : (q.tasks i).dedupKey = some key) :
    q.HasUnfinishedDedupKey key := by
  rcases mem_append.mp hi with hq | hf
  · obtain ⟨ids, hids, hmem⟩ := mem_flatten.mp hq
    exact Or.inl ⟨ids, hids, i, hmem, hkey, hall i hi⟩
  · exact Or.inr ⟨i, hf, hkey, hall i hi⟩

theorem enqueue_eq_accept {i : String} (hadmission : taskAdmissionError (q.tasks i) = none)
    (hdup : ¬ q.IsDuplicate i)
    (hroom : ¬ q.backpressurePolicy.ShouldReject (q.pendingCount (q.tasks i).queueName now)) :
    q.enqueue i now = (none, q.acceptTask i) := by
  unfold enqueue
  simp only [hadmission, hdup, hroom, if_false]

/-- The pending tasks are counted among the active ones. -/
theorem pendingCount_congr {q q' : InMemoryTaskQueue} (hqueued : q'.queued = q.queued)
    (hflight : q'.inFlight = q.inFlight) (htasks : ∀ i ∈ q.activeIds, q'.tasks i = q.tasks i)
    (name : String) (now : Datetime) : q'.pendingCount name now = q.pendingCount name now := by
  have hdelayed : ((q.queued.get? name).getD []).filter (fun i => (q'.tasks i).Delayed now) =
      ((q.queued.get? name).getD []).filter fun i => (q.tasks i).Delayed now := by
    apply filter_congr
    intro i hi
    rw [htasks i (mem_append_left _ (q.mem_queuedIds_of_get? hi))]
  have hnamed : q.inFlight.filter (fun i => (q'.tasks i).queueName = name) =
      q.inFlight.filter fun i => (q.tasks i).queueName = name := by
    apply filter_congr
    intro i hi
    rw [htasks i (mem_append_right _ hi)]
  simp only [pendingCount, hqueued, hflight, hdelayed, hnamed]

end InMemoryTaskQueue

namespace QueueRun

variable {s : QueueRun}

/-- The run with another queue. -/
def withQueue (s : QueueRun) (q : InMemoryTaskQueue) : QueueRun := { s with queue := q }

/-! ## Each operation keeps the invariant -/

theorem Kept.queued_ne_inFlight (h : s.Kept) {i : String} (hi : i ∈ s.queue.queuedIds) :
    i ∉ s.queue.inFlight := by
  intro hf
  have := h.place_unique .queued .inFlight hi hf
  cases this

theorem Kept.enqueue (h : s.Kept) {i : String} (hfresh : i ∉ s.accepted)
    (hfits : s.queue.EmptyKeyFits i now) : QueueRun.Kept { s with
        queue := (s.queue.enqueue i now).2
        accepted := if (s.queue.enqueue i now).1 = none then s.accepted ++ [i] else s.accepted } := by
  unfold InMemoryTaskQueue.enqueue
  cases hadmission : taskAdmissionError (s.queue.tasks i) with
  | some reason => exact h
  | none =>
    by_cases hdup : s.queue.IsDuplicate i
    · simp only [hdup, if_true]
      exact h
    by_cases hfull : s.queue.backpressurePolicy.ShouldReject
        (s.queue.pendingCount (s.queue.tasks i).queueName now)
    · simp only [hdup, hfull, if_true, if_false]
      exact h
    simp only [hdup, hfull, if_true, if_false]
    refine h.of_enters i ⟨?_, ?_⟩ hfresh rfl ?_ hadmission ?_ ?_ ?_ ?_
    · exact queuedIds_appendQueued _ _ i
    · intro p hp
      cases p with
      | queued => exact (hp rfl).elim
      | inFlight => rfl
      | deadLetter => rfl
      | closed => rfl
    · exact nodup_keys_set h.queues _ _
    · intro b hb
      simp [acceptTask, hb]
    · simp only [acceptTask, tasks_recordEvent,
        tasks_appendQueued, tasks_updateTask_self]
      exact ⟨rfl, rfl, rfl⟩
    · simp [acceptTask, TaskStatus.unfinished]
    · -- the queue has looked for the key, unless it is empty
      intro b hb key hi hbkey
      by_cases hempty : key = ""
      · subst hempty
        rcases hfits hi with hrefuses | hfree
        · rcases hrefuses with hadm | hreject
          · exact hadm hadmission
          · exact hfull hreject
        · exact hfree b hb "" hi hbkey
      · exact hdup ⟨key, hi, hempty, s.queue.hasKey_of_active h.unfinished hb hbkey⟩

theorem Kept.leaseOne (h : s.Kept) (workerId : String) {queueNames : List String}
    {leaseSeconds : Option ℤ} (hfits : s.queue.LeaseFits queueNames leaseSeconds now) :
    (s.withQueue (s.queue.leaseOne workerId queueNames leaseSeconds now).2).Kept := by
  unfold InMemoryTaskQueue.leaseOne
  cases hcandidate : s.queue.leaseCandidate? queueNames now with
  | none => exact h
  | some c =>
    obtain ⟨name, i⟩ := c
    obtain ⟨expires, hexpires⟩ := hfits name i hcandidate
    have hmem := (s.queue.leaseCandidate?_spec hcandidate).1
    have hqueued := s.queue.mem_queuedIds_of_get? hmem
    have hflight := h.queued_ne_inFlight hqueued
    simp only [hexpires]
    refine h.of_moves i .queued .inFlight ⟨by decide, ?_, ?_, ?_⟩ rfl ?_ ?_ ?_
      ?_ ?_
    · exact s.queue.queuedIds_removeQueued hmem
    · exact inFlight_putInFlight _ hflight
    · intro p hp hp'
      cases p with
      | queued => exact (hp rfl).elim
      | inFlight => exact (hp' rfl).elim
      | deadLetter => rfl
      | closed => rfl
    · exact nodup_keys_set h.queues _ _
    · intro b hb
      simp [withQueue, hb]
    · simp only [withQueue, tasks_recordEvent, tasks_putInFlight, tasks_updateTask_self,
        tasks_removeQueued]
      exact ⟨rfl, rfl, rfl⟩
    · intro _
      simp [withQueue, TaskStatus.unfinished]
    · intro _ hp
      exact (hp trivial).elim

theorem Kept.leaseTurns {workerId queueName : String} {leaseSeconds : ℤ} {turns : List Datetime} :
    ∀ {s : QueueRun}, s.Kept →
      InMemoryTaskQueue.TurnsFit workerId queueName leaseSeconds s.queue turns → (s.withQueue
          (InMemoryTaskQueue.leaseTurns workerId queueName leaseSeconds s.queue turns).2).Kept := by
  induction turns with
  | nil =>
    intro s h _
    exact h
  | cons now later ih =>
    intro s h hfits
    have hone := h.leaseOne workerId hfits.1
    have hrest := ih hone hfits.2
    unfold InMemoryTaskQueue.leaseTurns
    rcases hleased : s.queue.leaseOne workerId [queueName] (some leaseSeconds) now with ⟨result, q'⟩
    rw [hleased] at hone hrest
    cases result with
    | error e => exact hone
    | ok leased =>
      cases leased with
      | none => exact hone
      | some i =>
        show (s.withQueue _).Kept
        rcases hturns : InMemoryTaskQueue.leaseTurns workerId queueName leaseSeconds q' later with
          ⟨result', q''⟩
        have hrest' : (s.withQueue q'').Kept := by
          have hrest'' : (s.withQueue
              (InMemoryTaskQueue.leaseTurns workerId queueName leaseSeconds q' later).2).Kept := hrest
          rwa [hturns] at hrest''
        simp only
        rw [hturns]
        cases result' with
        | error e => exact hrest'
        | ok leased' => exact hrest'

section

variable (h : s.Kept)

include h

theorem Kept.ack (i : String) (workerId : Option String) : QueueRun.Kept { s with
        queue := s.queue.ack i workerId
        closed := if i ∈ s.queue.inFlight then s.closed ++ [i] else s.closed } := by
  unfold InMemoryTaskQueue.ack
  by_cases hi : i ∈ s.queue.inFlight
  · simp only [hi, if_true]
    refine h.of_moves i .inFlight .closed ⟨by decide, ?_, ?_, ?_⟩ rfl h.queues
      ?_ ?_ (fun hp => hp.elim) (fun hp => hp.elim)
    · exact s.queue.inFlight_popInFlight hi
    · show ((s.closed ++ [i] : List String) : Multiset String) = i ::ₘ s.closed
      rw [Multiset.cons_coe, Multiset.coe_eq_coe]
      exact perm_append_singleton i s.closed
    · intro p hp hp'
      cases p with
      | queued => rfl
      | inFlight => exact (hp rfl).elim
      | deadLetter => rfl
      | closed => exact (hp' rfl).elim
    · intro b hb
      simp [hb]
    · simp only [tasks_recordEvent, tasks_updateTask_self, tasks_popInFlight]
      exact ⟨rfl, rfl, rfl⟩
  · simp only [hi, if_false]
    exact h

variable {i : String}

theorem Kept.notMem_active_popInFlight (hi : i ∈ s.queue.inFlight) :
    i ∉ (s.queue.popInFlight i).activeIds := by
  intro hmem
  rcases mem_append.mp hmem with hq | hf
  · exact h.queued_ne_inFlight hq hi
  · have hle : s.places .inFlight ≤ Placement.total s.places :=
      Finset.single_le_sum (fun _ _ => Multiset.zero_le _) (Finset.mem_univ _)
    have hnodup : s.queue.inFlight.Nodup := Multiset.coe_nodup.mp (Multiset.nodup_of_le hle h.nodup_total)
    exact hnodup.not_mem_erase hf

variable {workerId : String} {later : Datetime}

/-- What a scheduled retry leaves is accepted by the queue again. -/
theorem Kept.retry_accepted {nextRunAt : Datetime} (hi : i ∈ s.queue.inFlight)
    (hroom : ¬ s.queue.backpressurePolicy.ShouldReject
      ((s.queue.popInFlight i).pendingCount (s.queue.tasks i).queueName later)) :
    ((s.queue.popInFlight i).scheduleRetry i workerId nextRunAt).enqueue i later =
      (none, ((s.queue.popInFlight i).scheduleRetry i workerId nextRunAt).acceptTask i) := by
  have hnot := h.notMem_active_popInFlight hi
  have hne : ∀ b ∈ (s.queue.popInFlight i).activeIds, b ≠ i := fun b hb hbi => hnot (hbi ▸ hb)
  have hsame : ∀ b, b ≠ i →
      ((s.queue.popInFlight i).scheduleRetry i workerId nextRunAt).tasks b = s.queue.tasks b := by
    intro b hb
    simp [scheduleRetry, hb]
  apply enqueue_eq_accept
  · have hadmitted := h.admitted i (h.mem_accepted (p := .inFlight) hi)
    simp only [scheduleRetry, tasks_recordEvent,
      tasks_updateTask_self, tasks_popInFlight]
    exact hadmitted
  · -- another active task with the key would have shared it before the retry
    rintro ⟨key, hkey, -, hhas⟩
    obtain ⟨b, hb, hbkey⟩ := exists_active_of_hasKey _ hhas
    have hb' : b ∈ (s.queue.popInFlight i).activeIds := hb
    have hbne := hne b hb'
    rw [hsame b hbne] at hbkey
    have hikey : (s.queue.tasks i).dedupKey = some key := by
      simpa [scheduleRetry] using hkey
    have hbactive : b ∈ s.queue.activeIds := by
      rcases mem_append.mp hb' with hq | hf
      · exact mem_append_left _ hq
      · exact mem_append_right _ (mem_of_mem_erase hf)
    exact hbne (h.distinct b hbactive i (mem_append_right _ hi) key hbkey hikey)
  · have htasks : ∀ b ∈ (s.queue.popInFlight i).activeIds,
        ((s.queue.popInFlight i).scheduleRetry i workerId nextRunAt).tasks b =
          (s.queue.popInFlight i).tasks b := fun b hb => hsame b (hne b hb)
    have hqueued : ((s.queue.popInFlight i).scheduleRetry i workerId nextRunAt).queued =
      (s.queue.popInFlight i).queued := rfl
    have hcount := pendingCount_congr hqueued rfl htasks
      (s.queue.tasks i).queueName later
    simp only [scheduleRetry, tasks_recordEvent,
      tasks_updateTask_self, tasks_popInFlight]
    show ¬ s.queue.backpressurePolicy.ShouldReject
      (((s.queue.popInFlight i).scheduleRetry i workerId nextRunAt).pendingCount _ later)
    rw [hcount]
    exact hroom

theorem Kept.fail {error : TaskError} (hfits : s.queue.RetryFits i error now later) :
    (s.withQueue (s.queue.fail i workerId error now later).2).Kept := by
  unfold InMemoryTaskQueue.fail
  by_cases hi : i ∈ s.queue.inFlight
  · by_cases hretry : s.queue.retryPolicy.ShouldRetry (s.queue.tasks i) error
    · obtain ⟨⟨nextRunAt, hnext⟩, hroom⟩ := hfits hi hretry
      simp only [hi, hretry, hnext, if_true, h.retry_accepted hi hroom]
      refine h.of_moves i .inFlight .queued ⟨by decide, ?_, ?_, ?_⟩ rfl ?_ ?_
        ?_ ?_ ?_
      · exact s.queue.inFlight_popInFlight hi
      · exact queuedIds_appendQueued _ _ i
      · intro p hp hp'
        cases p with
        | queued => exact (hp' rfl).elim
        | inFlight => exact (hp rfl).elim
        | deadLetter => rfl
        | closed => rfl
      · exact nodup_keys_set h.queues _ _
      · intro b hb
        simp [withQueue, acceptTask, scheduleRetry, hb]
      · simp only [withQueue, acceptTask, scheduleRetry,
          tasks_recordEvent, tasks_appendQueued, tasks_updateTask_self, tasks_popInFlight]
        exact ⟨rfl, rfl, rfl⟩
      · intro _
        simp [withQueue, acceptTask, TaskStatus.unfinished]
      · intro _ hp
        exact (hp trivial).elim
    · simp only [hi, hretry, if_true, if_false]
      refine h.of_moves i .inFlight .deadLetter ⟨by decide, ?_, ?_, ?_⟩ rfl
        h.queues ?_ ?_ (fun hp => hp.elim) (fun hp => hp.elim)
      · exact s.queue.inFlight_popInFlight hi
      · show ((List.map DeadLetterRecord.taskId (s.queue.deadLetters ++ [_]) : List String) :
          Multiset String) = i ::ₘ (s.queue.deadIds : Multiset String)
        rw [map_append, map_singleton, Multiset.cons_coe, Multiset.coe_eq_coe]
        exact perm_append_singleton i _
      · intro p hp hp'
        cases p with
        | queued => rfl
        | inFlight => exact (hp rfl).elim
        | deadLetter => exact (hp' rfl).elim
        | closed => rfl
      · intro b hb
        simp [withQueue, moveToDeadLetter, hb]
      · simp only [withQueue, moveToDeadLetter,
          tasks_recordEvent, tasks_updateTask_self, tasks_popInFlight]
        exact ⟨rfl, rfl, rfl⟩
  · simp only [hi, if_false]
    exact h

theorem Kept.reschedule (hi : i ∈ s.queue.inFlight) (retryAt : Option Datetime) :
    (s.withQueue (s.queue.reschedule i retryAt)).Kept := by
  cases retryAt with
  | none => exact h
  | some retryAt =>
    refine h.of_same_places i rfl rfl h.queues ?_ ?_ ?_
    · intro b hb
      simp [withQueue, InMemoryTaskQueue.reschedule, hb]
    · simp only [withQueue, InMemoryTaskQueue.reschedule, tasks_updateTask_self]
      exact ⟨rfl, rfl, rfl⟩
    · simpa [withQueue, InMemoryTaskQueue.reschedule] using
        h.unfinished i (mem_append_right _ hi)

theorem Kept.nack {error : InMemoryTaskQueue.Failure} {retryAt : Option Datetime}
    (hfits : (s.queue.reschedule i retryAt).RetryFits i error.toTaskError now later) :
    (s.withQueue (s.queue.nack i error retryAt now later).2).Kept := by
  unfold InMemoryTaskQueue.nack
  by_cases hi : i ∈ s.queue.inFlight
  · simp only [hi, if_true]
    exact (h.reschedule hi retryAt).fail hfits
  · simp only [hi, if_false, InMemoryTaskQueue.fail]
    exact h

theorem Kept.cancel (i : String) : QueueRun.Kept { s with
        queue := (s.queue.cancel i).2
        closed := if (s.queue.cancel i).1 then s.closed ++ [i] else s.closed } := by
  unfold InMemoryTaskQueue.cancel
  have hclosed : ((s.closed ++ [i] : List String) : Multiset String) = i ::ₘ s.closed := by
    rw [Multiset.cons_coe, Multiset.coe_eq_coe]
    exact perm_append_singleton i s.closed
  cases hfind : s.queue.queued.find? fun entry => i ∈ entry.2 with
  | some entry =>
    obtain ⟨name, ids⟩ := entry
    have hget := get?_of_mem h.queues (mem_of_find?_eq_some hfind)
    have hids : i ∈ ids := by simpa using find?_some hfind
    have hmem : i ∈ (s.queue.queued.get? name).getD [] := by
      rw [hget]
      exact hids
    simp only [if_true]
    refine h.of_moves i .queued .closed ⟨by decide, ?_, hclosed, ?_⟩ rfl ?_ ?_ ?_
      (fun hp => hp.elim) (fun hp => hp.elim)
    · exact s.queue.queuedIds_removeQueued hmem
    · intro p hp hp'
      cases p with
      | queued => exact (hp rfl).elim
      | inFlight => rfl
      | deadLetter => rfl
      | closed => exact (hp' rfl).elim
    · exact nodup_keys_set h.queues _ _
    · intro b hb
      simp [cancelTask, hb]
    · simp only [cancelTask, tasks_updateTask_self, tasks_removeQueued]
      exact ⟨rfl, rfl, rfl⟩
  | none =>
    by_cases hi : i ∈ s.queue.inFlight
    · simp only [hi, if_true]
      refine h.of_moves i .inFlight .closed ⟨by decide, ?_, hclosed, ?_⟩ rfl h.queues ?_ ?_
        (fun hp => hp.elim) (fun hp => hp.elim)
      · exact s.queue.inFlight_popInFlight hi
      · intro p hp hp'
        cases p with
        | queued => rfl
        | inFlight => exact (hp rfl).elim
        | deadLetter => rfl
        | closed => exact (hp' rfl).elim
      · intro b hb
        simp [cancelTask, hb]
      · simp only [cancelTask, tasks_updateTask_self, tasks_popInFlight]
        exact ⟨rfl, rfl, rfl⟩
    · simp only [hi, if_false]
      exact h

theorem Kept.reclaimStale {queueNames : List String} {reference : Datetime}
    (hfits : s.queue.ReclaimFits queueNames reference) :
    (s.withQueue (s.queue.reclaimStale workerId queueNames reference).2).Kept := by
  unfold InMemoryTaskQueue.reclaimStale
  cases hstale : s.queue.inFlight.find? fun i => s.queue.Stale queueNames reference i with
  | none => exact h
  | some i =>
    have hi : i ∈ s.queue.inFlight := mem_of_find?_eq_some hstale
    obtain ⟨expires, hexpires⟩ := hfits i hstale
    have hnot : i ∉ (s.queue.popInFlight i).inFlight := fun hmem =>
      h.notMem_active_popInFlight hi (mem_append_right _ hmem)
    simp only [hexpires]
    refine h.of_same_places i ?_ rfl h.queues ?_ ?_ ?_
    · funext p
      cases p with
      | queued => rfl
      | inFlight =>
        have hput := inFlight_putInFlight _ hnot
        exact hput.trans (s.queue.inFlight_popInFlight hi).symm
      | deadLetter => rfl
      | closed => rfl
    · intro b hb
      simp [withQueue, hb]
    · simp only [withQueue, tasks_recordEvent, tasks_putInFlight, tasks_updateTask_self,
        tasks_popInFlight]
      exact ⟨rfl, rfl, rfl⟩
    · simp [withQueue, TaskStatus.unfinished]

theorem Kept.requeueDeadLetter (hfree : i ∈ s.queue.deadIds → s.queue.KeyFree i) :
    (s.withQueue (s.queue.requeueDeadLetter i).2).Kept := by
  unfold InMemoryTaskQueue.requeueDeadLetter
  by_cases hi : i ∈ s.queue.deadIds
  · simp only [hi, if_true]
    refine h.of_moves i .deadLetter .queued ⟨by decide, ?_, ?_, ?_⟩ rfl ?_ ?_ ?_ ?_ ?_
    · show (s.queue.deadIds : Multiset String) =
        i ::ₘ ((s.queue.deadLetters.eraseP _).map DeadLetterRecord.taskId : List String)
      rw [map_taskId_eraseP, ← Multiset.coe_erase, Multiset.cons_erase hi]
      rfl
    · exact queuedIds_appendQueued _ _ i
    · intro p hp hp'
      cases p with
      | queued => exact (hp' rfl).elim
      | inFlight => rfl
      | deadLetter => exact (hp rfl).elim
      | closed => rfl
    · exact nodup_keys_set h.queues _ _
    · intro b hb
      simp [withQueue, hb]
    · simp only [withQueue, tasks_recordEvent, tasks_appendQueued, tasks_updateTask_self]
      exact ⟨rfl, rfl, rfl⟩
    · intro _
      simp [withQueue, TaskStatus.unfinished]
    · intro _ _
      exact hfree hi
  · simp only [hi, if_false]
    exact h

end

end QueueRun

/-! ## Calls -/

/-- A call of the queue, with the readings of the clock that it makes. -/
inductive QueueCall where
  | enqueue (taskId : String) (now : Datetime)
  | lease (workerId : String) (queueNames : List String) (now : Datetime)
  | leaseBatch (queueName workerId : String) (leaseSeconds : Option ℤ) (turns : List Datetime)
  | ack (taskId : String) (workerId : Option String)
  | nack (taskId : String) (error : InMemoryTaskQueue.Failure) (retryAt : Option Datetime)
      (now later : Datetime)
  | fail (taskId workerId : String) (error : TaskError) (now later : Datetime)
  | cancel (taskId : String)
  | reclaimStale (workerId : String) (queueNames : List String) (reference : Datetime)
  | requeueDeadLetter (taskId : String)

namespace QueueCall

/-- The task that a call offers to the queue. -/
def offered : QueueCall → Option String
  | enqueue taskId _ => some taskId
  | _ => none

/-- The condition on a call, in the state that it is made in. -/
def Meets (s : QueueRun) : QueueCall → Prop
  | enqueue taskId now => s.queue.EmptyKeyFits taskId now
  | lease _ queueNames now => s.queue.LeaseFits queueNames none now
  | leaseBatch queueName workerId leaseSeconds turns =>
    InMemoryTaskQueue.TurnsFit workerId queueName (leaseSeconds.getD 60) s.queue turns
  | nack taskId error retryAt now later =>
    (s.queue.reschedule taskId retryAt).RetryFits taskId error.toTaskError now later
  | fail taskId _ error now later => s.queue.RetryFits taskId error now later
  | reclaimStale _ queueNames reference => s.queue.ReclaimFits queueNames reference
  | requeueDeadLetter taskId => taskId ∈ s.queue.deadIds → s.queue.KeyFree taskId
  | _ => True

end QueueCall

variable {c : QueueCall}

namespace QueueRun

/-- A queue without tasks. -/
def start (tasks : String → Task) (retryPolicy : TaskRetryPolicy)
    (backpressurePolicy : BackpressurePolicy) : QueueRun where
  queue :=
    { tasks := tasks, retryPolicy := retryPolicy, backpressurePolicy := backpressurePolicy }

/-- Make a call; the state is kept as the call leaves it, also when it raises. -/
def step (s : QueueRun) : QueueCall → QueueRun
  | .enqueue taskId now =>
    { s with
      queue := (s.queue.enqueue taskId now).2
      accepted :=
        if (s.queue.enqueue taskId now).1 = none then s.accepted ++ [taskId] else s.accepted }
  | .lease workerId queueNames now => s.withQueue (s.queue.lease workerId queueNames now).2
  | .leaseBatch queueName workerId leaseSeconds turns =>
    s.withQueue (s.queue.leaseBatch queueName workerId leaseSeconds turns).2
  | .ack taskId workerId =>
    { s with
      queue := s.queue.ack taskId workerId
      closed := if taskId ∈ s.queue.inFlight then s.closed ++ [taskId] else s.closed }
  | .nack taskId error retryAt now later =>
    s.withQueue (s.queue.nack taskId error retryAt now later).2
  | .fail taskId workerId error now later =>
    s.withQueue (s.queue.fail taskId workerId error now later).2
  | .cancel taskId =>
    { s with
      queue := (s.queue.cancel taskId).2
      closed := if (s.queue.cancel taskId).1 then s.closed ++ [taskId] else s.closed }
  | .reclaimStale workerId queueNames reference =>
    s.withQueue (s.queue.reclaimStale workerId queueNames reference).2
  | .requeueDeadLetter taskId => s.withQueue (s.queue.requeueDeadLetter taskId).2

theorem Kept.start (tasks : String → Task) (retryPolicy : TaskRetryPolicy)
    (backpressurePolicy : BackpressurePolicy) :
    (start tasks retryPolicy backpressurePolicy).Kept := by
  constructor
  · show Placement.total _ = 0
    refine Finset.sum_eq_zero fun p _ => ?_
    cases p <;> rfl
  · exact nodup_nil
  · exact nodup_nil
  · simp [QueueRun.start]
  · simp [QueueRun.start, activeIds, queuedIds]
  · simp [QueueRun.start, activeIds, queuedIds]

/-- A call that meets its condition, and offers no task twice, keeps the invariant. -/
theorem Kept.step {s : QueueRun} (h : s.Kept) {c : QueueCall}
    (hfresh : ∀ i ∈ c.offered, i ∉ s.accepted) (hmeets : c.Meets s) : (s.step c).Kept := by
  cases c with
  | enqueue taskId now => exact h.enqueue (hfresh taskId rfl) hmeets
  | lease workerId queueNames now =>
    show (s.withQueue (s.queue.lease workerId queueNames now).2).Kept
    unfold InMemoryTaskQueue.lease
    split
    · exact h
    · exact h.leaseOne workerId hmeets
  | leaseBatch queueName workerId leaseSeconds turns =>
    show (s.withQueue (s.queue.leaseBatch queueName workerId leaseSeconds turns).2).Kept
    unfold InMemoryTaskQueue.leaseBatch
    split
    · exact h
    · exact h.leaseTurns hmeets
  | ack taskId workerId => exact h.ack taskId workerId
  | nack taskId error retryAt now later => exact h.nack hmeets
  | fail taskId workerId error now later => exact h.fail hmeets
  | cancel taskId => exact h.cancel taskId
  | reclaimStale workerId queueNames reference => exact h.reclaimStale hmeets
  | requeueDeadLetter taskId => exact h.requeueDeadLetter hmeets

/-- What a call accepts it was offered. -/
theorem mem_accepted_step {s : QueueRun} {i : String} (h : i ∈ (s.step c).accepted) :
    i ∈ s.accepted ∨ c.offered = some i := by
  cases c with
  | enqueue taskId now =>
    unfold QueueRun.step at h
    simp only at h
    split at h
    · rw [mem_append, mem_singleton] at h
      rcases h with h | rfl
      · exact Or.inl h
      · exact Or.inr rfl
    · exact Or.inl h
  | _ => exact Or.inl h

/-! ## Scheduled retries -/

/-- The events that a call records. -/
def newEvents (s : QueueRun) (c : QueueCall) : List TaskEvent :=
  (s.step c).queue.events.drop s.queue.events.length

/-- A task for which the call schedules a retry is queued after it. -/
def RetriedIsQueued (s : QueueRun) (c : QueueCall) : Prop :=
  ∀ e ∈ s.newEvents c, e.eventType = .taskRetryScheduled → e.taskId ∈ (s.step c).queue.queuedIds

end QueueRun

/-- The events between two states, none of which schedules a retry. -/
def InMemoryTaskQueue.Silent (q q' : InMemoryTaskQueue) : Prop :=
  ∃ new, q'.events = q.events ++ new ∧ ∀ e ∈ new, e.eventType ≠ .taskRetryScheduled

namespace InMemoryTaskQueue

theorem Silent.refl (q : InMemoryTaskQueue) : q.Silent q :=
  ⟨[], (append_nil _).symm, by simp⟩

variable {q q' : InMemoryTaskQueue}

theorem Silent.of_events_eq (h : q'.events = q.events) : q.Silent q' :=
  ⟨[], by rw [h, append_nil], by simp⟩

theorem Silent.of_event {e : TaskEvent} (h : q'.events = q.events ++ [e])
    (he : e.eventType ≠ .taskRetryScheduled) : q.Silent q' :=
  ⟨[e], h, by simpa using he⟩

theorem Silent.trans {q'' : InMemoryTaskQueue} (h : q.Silent q') (h' : q'.Silent q'') :
    q.Silent q'' := by
  obtain ⟨new, hnew, hsilent⟩ := h
  obtain ⟨new', hnew', hsilent'⟩ := h'
  refine ⟨new ++ new', by rw [hnew', hnew, append_assoc], fun e he => ?_⟩
  rcases mem_append.mp he with he | he
  · exact hsilent e he
  · exact hsilent' e he

theorem silent_leaseOne (q : InMemoryTaskQueue) (workerId : String) (queueNames : List String)
    (leaseSeconds : Option ℤ) (now : Datetime) :
    q.Silent (q.leaseOne workerId queueNames leaseSeconds now).2 := by
  unfold leaseOne
  split
  · exact Silent.refl q
  · split
    · exact Silent.of_events_eq rfl
    · exact Silent.of_event rfl (by simp)

theorem silent_leaseTurns (workerId queueName : String) (leaseSeconds : ℤ)
    (turns : List Datetime) : ∀ q : InMemoryTaskQueue,
      q.Silent (leaseTurns workerId queueName leaseSeconds q turns).2 := by
  induction turns with
  | nil => exact Silent.refl
  | cons now later ih =>
    intro q
    have hone := q.silent_leaseOne workerId [queueName] (some leaseSeconds) now
    unfold leaseTurns
    rcases hleased : q.leaseOne workerId [queueName] (some leaseSeconds) now with ⟨result, q'⟩
    rw [hleased] at hone
    have hrest := hone.trans (ih q')
    cases result with
    | error e => exact hone
    | ok leased =>
      cases leased with
      | none => exact hone
      | some i =>
        simp only
        rcases hturns : leaseTurns workerId queueName leaseSeconds q' later with ⟨result', q''⟩
        rw [hturns] at hrest
        cases result' with
        | error e => exact hrest
        | ok leased' => exact hrest

end InMemoryTaskQueue

namespace QueueRun

variable {s : QueueRun}

theorem retriedIsQueued_of_silent (h : s.queue.Silent (s.step c).queue) : s.RetriedIsQueued c := by
  obtain ⟨new, hnew, hsilent⟩ := h
  intro e he hretry
  unfold newEvents at he
  rw [hnew, drop_left] at he
  exact (hsilent e he hretry).elim

/-- A failed task is a dead letter, or its retry is queued. -/
theorem Kept.fail_events (h : s.Kept) {i : String} {error : TaskError} {later : Datetime}
    (hfits : s.queue.RetryFits i error now later) (workerId : String) :
    s.queue.Silent (s.queue.fail i workerId error now later).2 ∨
      (i ∈ (s.queue.fail i workerId error now later).2.queuedIds ∧
        ∃ new, (s.queue.fail i workerId error now later).2.events = s.queue.events ++ new ∧
          ∀ e ∈ new, e.taskId = i) := by
  unfold InMemoryTaskQueue.fail
  by_cases hi : i ∈ s.queue.inFlight
  · by_cases hretry : s.queue.retryPolicy.ShouldRetry (s.queue.tasks i) error
    · obtain ⟨⟨nextRunAt, hnext⟩, hroom⟩ := hfits hi hretry
      simp only [hi, hretry, hnext, if_true, h.retry_accepted hi hroom]
      right
      refine ⟨?_, ?_⟩
      · have hmem := queuedIds_appendQueued
          (((s.queue.popInFlight i).scheduleRetry i workerId nextRunAt).updateTask i fun t =>
            { t with status := .queued, leasedBy := none, leaseExpiresAt := none })
          (((s.queue.popInFlight i).scheduleRetry i workerId nextRunAt).tasks i).queueName i
        show i ∈ ((appendQueued _ _ i).queuedIds : Multiset String)
        rw [hmem]
        exact Multiset.mem_cons_self i _
      · exact ⟨_, append_assoc .., by simp⟩
    · simp only [hi, hretry, if_true, if_false]
      exact Or.inl (InMemoryTaskQueue.Silent.of_event rfl (by simp))
  · simp only [hi, if_false]
    exact Or.inl (InMemoryTaskQueue.Silent.refl _)

/-- A call whose only task, as far as its events go, is queued after it. -/
theorem retriedIsQueued_of_queued {i : String} (hqueued : i ∈ (s.step c).queue.queuedIds)
    (hevents : ∃ new, (s.step c).queue.events = s.queue.events ++ new ∧ ∀ e ∈ new, e.taskId = i) :
    s.RetriedIsQueued c := by
  obtain ⟨new, hnew, hall⟩ := hevents
  intro e he _
  unfold newEvents at he
  rw [hnew, drop_left] at he
  rw [hall e he]
  exact hqueued

theorem Kept.retriedIsQueued (h : s.Kept) (hmeets : c.Meets s) : s.RetriedIsQueued c := by
  cases c with
  | enqueue taskId now =>
    apply retriedIsQueued_of_silent
    show s.queue.Silent (s.queue.enqueue taskId now).2
    unfold InMemoryTaskQueue.enqueue
    split
    · exact InMemoryTaskQueue.Silent.refl _
    · split
      · exact InMemoryTaskQueue.Silent.refl _
      · split
        · exact InMemoryTaskQueue.Silent.refl _
        · exact InMemoryTaskQueue.Silent.of_event rfl (by simp)
  | lease workerId queueNames now =>
    apply retriedIsQueued_of_silent
    show s.queue.Silent (s.queue.lease workerId queueNames now).2
    unfold InMemoryTaskQueue.lease
    split
    · exact InMemoryTaskQueue.Silent.refl _
    · exact silent_leaseOne ..
  | leaseBatch queueName workerId leaseSeconds turns =>
    apply retriedIsQueued_of_silent
    show s.queue.Silent (s.queue.leaseBatch queueName workerId leaseSeconds turns).2
    unfold InMemoryTaskQueue.leaseBatch
    split
    · exact InMemoryTaskQueue.Silent.refl _
    · exact silent_leaseTurns ..
  | ack taskId workerId =>
    apply retriedIsQueued_of_silent
    show s.queue.Silent (s.queue.ack taskId workerId)
    unfold InMemoryTaskQueue.ack
    split
    · exact InMemoryTaskQueue.Silent.of_event rfl (by simp)
    · exact InMemoryTaskQueue.Silent.refl _
  | nack taskId error retryAt now later =>
    by_cases hi : taskId ∈ s.queue.inFlight
    · have hstep : (s.step (.nack taskId error retryAt now later)).queue =
          ((s.queue.reschedule taskId retryAt).fail taskId
            ((s.queue.tasks taskId).leasedBy.getD "") error.toTaskError now later).2 := by
        show (s.queue.nack taskId error retryAt now later).2 = _
        rw [InMemoryTaskQueue.nack, if_pos hi]
      have hevents : (s.queue.reschedule taskId retryAt).events = s.queue.events := by
        cases retryAt <;> rfl
      rcases (h.reschedule hi retryAt).fail_events hmeets
          ((s.queue.tasks taskId).leasedBy.getD "") with hsilent | ⟨hqueued, hnew⟩
      · apply retriedIsQueued_of_silent
        rw [hstep]
        exact (InMemoryTaskQueue.Silent.of_events_eq hevents).trans hsilent
      · refine retriedIsQueued_of_queued (i := taskId) ?_ ?_
        · rw [hstep]
          exact hqueued
        · rw [hstep, ← hevents]
          exact hnew
    · apply retriedIsQueued_of_silent
      show s.queue.Silent (s.queue.nack taskId error retryAt now later).2
      rw [InMemoryTaskQueue.nack, if_neg hi, InMemoryTaskQueue.fail, if_neg hi]
      exact InMemoryTaskQueue.Silent.refl _
  | fail taskId workerId error now later =>
    rcases h.fail_events hmeets workerId with hsilent | ⟨hqueued, hnew⟩
    · exact retriedIsQueued_of_silent hsilent
    · exact retriedIsQueued_of_queued hqueued hnew
  | cancel taskId =>
    apply retriedIsQueued_of_silent
    show s.queue.Silent (s.queue.cancel taskId).2
    unfold InMemoryTaskQueue.cancel
    split
    · exact InMemoryTaskQueue.Silent.of_events_eq rfl
    · split
      · exact InMemoryTaskQueue.Silent.of_events_eq rfl
      · exact InMemoryTaskQueue.Silent.refl _
  | reclaimStale workerId queueNames reference =>
    apply retriedIsQueued_of_silent
    show s.queue.Silent (s.queue.reclaimStale workerId queueNames reference).2
    unfold InMemoryTaskQueue.reclaimStale
    split
    · exact InMemoryTaskQueue.Silent.refl _
    · split
      · exact InMemoryTaskQueue.Silent.of_events_eq rfl
      · exact InMemoryTaskQueue.Silent.of_event rfl (by simp)
  | requeueDeadLetter taskId =>
    apply retriedIsQueued_of_silent
    show s.queue.Silent (s.queue.requeueDeadLetter taskId).2
    unfold InMemoryTaskQueue.requeueDeadLetter
    split
    · exact InMemoryTaskQueue.Silent.of_event rfl (by simp)
    · exact InMemoryTaskQueue.Silent.refl _

/-! ## Whole runs -/

/-- Every accepted task is in exactly one place, and no two unfinished tasks share a key. -/
structure Sound (s : QueueRun) : Prop where
  onePlace : ∀ i ∈ s.accepted, InOnePlace s.places i
  distinctKeys : ∀ i ∈ s.queue.activeIds, ∀ j ∈ s.queue.activeIds, ∀ key,
    (s.queue.tasks i).dedupKey = some key → (s.queue.tasks j).dedupKey = some key → i = j

theorem Kept.sound (h : s.Kept) : s.Sound := by
  refine ⟨fun i hi => inOnePlace_of_nodup h.nodup_total ?_, h.distinct⟩
  rw [h.total]
  exact hi

variable (tasks : String → Task) (retryPolicy : TaskRetryPolicy)
  (backpressurePolicy : BackpressurePolicy)

/-- In a run whose calls all meet the condition, the accepted tasks are always in exactly one
place, scheduled retries are queued, and unfinished tasks have keys of their own. -/
theorem tasks_kept_along_run {calls : List QueueCall}
    (hoffered : (calls.filterMap QueueCall.offered).Nodup)
    (hmeets : StepRuns.Along step (fun s c => c.Meets s)
      (start tasks retryPolicy backpressurePolicy) calls) :
    (StepRuns.run step (start tasks retryPolicy backpressurePolicy) calls).Sound ∧
      StepRuns.Along step (fun s c => s.RetriedIsQueued c)
        (start tasks retryPolicy backpressurePolicy) calls := by
  have hstart := Kept.start tasks retryPolicy backpressurePolicy
  have hfresh : StepRuns.Along step (fun s c => ∀ i ∈ c.offered, i ∉ s.accepted)
      (start tasks retryPolicy backpressurePolicy) calls :=
    StepRuns.along_fresh (fun s c _ => mem_accepted_step (s := s) (c := c)) hoffered
      fun i _ => not_mem_nil
  have hboth := hfresh.and hmeets
  have keep : ∀ (s : QueueRun) c, s.Kept → ((∀ i ∈ c.offered, i ∉ s.accepted) ∧ c.Meets s) →
      (s.step c).Kept := fun s c h hc => h.step hc.1 hc.2
  refine ⟨(StepRuns.run_invariant keep hstart hboth).sound, ?_⟩
  exact StepRuns.along_of_invariant keep (fun s c h hc => h.retriedIsQueued hc.2) hstart hboth

/-- A retry of a task that has room in its queue. -/
theorem tasks_kept_along_run_retry :
    (StepRuns.run step (start (fun _ => { taskType := "t", executionScope := some .standalone })
      {} {})
      [.enqueue "a" 0, .lease "w" ["framework:queue:default"] 0,
        .fail "a" "w" { errorType := "E", errorMessage := "" } 0 0]).Sound ∧
      StepRuns.Along step (fun s c => s.RetriedIsQueued c)
        (start (fun _ => { taskType := "t", executionScope := some .standalone }) {} {})
        [.enqueue "a" 0, .lease "w" ["framework:queue:default"] 0,
          .fail "a" "w" { errorType := "E", errorMessage := "" } 0 0] := by
  refine tasks_kept_along_run _ _ _ (by decide +kernel) ⟨?_, ?_, ?_, trivial⟩
  · intro hkey
    cases hkey
  · intro name i hcandidate
    have hi : i = "a" := by
      have hfound := congrArg (Option.map Prod.snd) hcandidate
      have hcomputed : Option.map Prod.snd
          ((step (start (fun _ => { taskType := "t", executionScope := some .standalone }) {} {})
            (.enqueue "a" 0)).queue.leaseCandidate? ["framework:queue:default"] 0) = some "a" := by
        decide +kernel
      rw [hcomputed] at hfound
      exact (Option.some.inj hfound).symm
    subst hi
    exact ⟨none, rfl⟩
  · intro _ _
    exact ⟨⟨_, rfl⟩, by decide +kernel⟩

/-- Two tasks of a queue with room for one become due together: when the first one fails, its
scheduled retry is refused and the task is nowhere. -/
theorem retried_task_is_lost : ¬ ∀ (tasks : String → Task) (retryPolicy : TaskRetryPolicy)
        (backpressurePolicy : BackpressurePolicy) (calls : List QueueCall),
        (calls.filterMap QueueCall.offered).Nodup →
          (StepRuns.run step (start tasks retryPolicy backpressurePolicy) calls).Sound ∧
            StepRuns.Along step (fun s c => s.RetriedIsQueued c)
              (start tasks retryPolicy backpressurePolicy) calls := by
  intro hall
  have hsound := (hall
    (fun _ => { taskType := "t", executionScope := some .standalone, scheduledFor := some 10 })
    {} { maxPendingPerQueue := some 1 }
    [.enqueue "a" 0, .enqueue "b" 0, .lease "w" ["framework:queue:default"] 10,
      .fail "a" "w" { errorType := "E", errorMessage := "" } 10 10] (by decide +kernel)).1
  obtain ⟨p, hp, -⟩ := hsound.onePlace "a" (by decide +kernel)
  revert hp
  cases p <;> decide +kernel

end QueueRun

end Workers
