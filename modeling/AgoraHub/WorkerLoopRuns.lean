/-
# Runs of several workers

`ack` and `fail` find a task by its id alone, and a reclaimed lease does not count
as an attempt.  In a run where every worker starts and settles a task only while it
holds the lease (or acks a task that is not in flight), and where the queue gives no
task out more often than the limit of its attempts, only the holder of a lease
changes a task, a lease is settled at most once, and no task is handed to a handler
more often than its limit.
-/
import AgoraHub.WorkerFrames

namespace Workers

open Fallible InMemoryTaskQueue List Function
open StepRuns (run)

variable {i : String}

namespace InMemoryTaskQueue

variable (q : InMemoryTaskQueue)

/-! ## What a settlement leaves -/

theorem inFlight_enqueue (i : String) (now : Datetime) :
    (q.enqueue i now).2.inFlight = q.inFlight := by
  unfold enqueue
  split
  · rfl
  · split
    · rfl
    · split <;> rfl

theorem notMem_inFlight_ack (h : q.held.Nodup) (i : String) (workerId : Option String) :
    i ∉ (q.ack i workerId).inFlight := by
  unfold ack
  split
  · rename_i hi
    exact (notMem_of_inFlight h hi).2.2
  · assumption

theorem notMem_inFlight_fail (h : q.held.Nodup) (i workerId : String) (error : TaskError)
    (now later : Datetime) : i ∉ (q.fail i workerId error now later).2.inFlight := by
  unfold fail
  split
  · rename_i hi
    have hpopped := (notMem_of_inFlight h hi).2.2
    simp only
    split
    · split
      · exact hpopped
      · rw [inFlight_enqueue]
        exact hpopped
    · exact hpopped
  · assumption

theorem shouldRetry_of_queued_fail (h : q.held.Nodup) {workerId : String} {error : TaskError}
    {now later : Datetime} (hi : i ∈ q.inFlight)
    (hqueued : i ∈ (q.fail i workerId error now later).2.queuedIds) :
    q.retryPolicy.ShouldRetry (q.tasks i) error := by
  by_contra hretry
  simp only [fail, hi, hretry, if_true, if_false] at hqueued
  exact (notMem_of_inFlight h hi).1 hqueued

end InMemoryTaskQueue

variable {w : String}

namespace WorkerSystem

/-! ## The invariant -/

/-- The worker holds the lease of the task. -/
def Current (s : WorkerSystem) (workerId taskId : String) : Prop :=
  taskId ∈ s.queue.inFlight ∧ (s.queue.tasks taskId).leasedBy = some workerId

instance (s : WorkerSystem) (workerId taskId : String) : Decidable (s.Current workerId taskId) :=
  inferInstanceAs (Decidable (_ ∧ _))

/-- How often the task may be attempted. -/
def limit (s : WorkerSystem) (taskId : String) : ℤ :=
  s.queue.retryPolicy.attemptLimit (s.queue.tasks taskId)

/-- The invariant of a system whose workers keep to their leases. -/
structure Fair (s : WorkerSystem) : Prop where
  queues : s.queue.queued.keys.Nodup
  nodup : s.queue.held.Nodup
  offered : ∀ i ∈ s.queue.held, i ∈ s.offered
  counts : ∀ i, s.handed i ≤ s.delivered i
  waiting : ∀ w i, s.phase w = .leased i → s.Current w i → s.handed i < s.delivered i
  bounded : ∀ i, s.delivered i = 0 ∨ (s.delivered i : ℤ) ≤ s.limit i
  queued : ∀ i ∈ s.queue.queuedIds, s.delivered i = 0 ∨ (s.delivered i : ℤ) < s.limit i
  settledOnce : ∀ i, s.settles i ≤ 1
  unsettled : ∀ i ∈ s.queue.inFlight, s.settles i = 0

/-- What a step that changes one task has to show about that task. -/
structure FairAt (s : WorkerSystem) (i : String) : Prop where
  counts : s.handed i ≤ s.delivered i
  waiting : ∀ w, s.phase w = .leased i → s.Current w i → s.handed i < s.delivered i
  bounded : s.delivered i = 0 ∨ (s.delivered i : ℤ) ≤ s.limit i
  queued : i ∈ s.queue.queuedIds → s.delivered i = 0 ∨ (s.delivered i : ℤ) < s.limit i
  settledOnce : s.settles i ≤ 1
  unsettled : i ∈ s.queue.inFlight → s.settles i = 0

/-- The counts and phases that a step on one task keeps. -/
structure CountsKept (s s' : WorkerSystem) (i : String) : Prop where
  phase : ∀ w j, j ≠ i → s'.phase w = .leased j → s.phase w = .leased j
  delivered : ∀ j, j ≠ i → s'.delivered j = s.delivered j
  handed : ∀ j, j ≠ i → s'.handed j = s.handed j
  settles : ∀ j, j ≠ i → s'.settles j = s.settles j

/-- A step that changes one task keeps the invariant when it keeps it for that task. -/
theorem Fair.of_frame {s s' : WorkerSystem} (h : s.Fair) (hframe : s.queue.Frame s'.queue i)
    (hnodup : s'.queue.held.Nodup) (hoffered : ∀ j ∈ s'.queue.held, j ∈ s'.offered)
    (hkept : s.CountsKept s' i) (hat : s'.FairAt i) : s'.Fair := by
  have hlimit : ∀ j, s'.limit j = s.limit j := hframe.attemptLimit
  refine ⟨hframe.queues h.queues, hnodup, hoffered, ?_, ?_, ?_, ?_, ?_, ?_⟩
  · intro j
    by_cases hj : j = i
    · rw [hj]; exact hat.counts
    · rw [hkept.handed j hj, hkept.delivered j hj]
      exact h.counts j
  · intro w j hphase hcurrent
    by_cases hj : j = i
    · rw [hj] at hphase hcurrent ⊢
      exact hat.waiting w hphase hcurrent
    · have huntouched := hframe.others j hj
      rw [hkept.handed j hj, hkept.delivered j hj]
      refine h.waiting w j (hkept.phase w j hj hphase) ⟨huntouched.mem_inFlight.mp hcurrent.1, ?_⟩
      rw [← huntouched.object]
      exact hcurrent.2
  · intro j
    by_cases hj : j = i
    · rw [hj]; exact hat.bounded
    · rw [hkept.delivered j hj, hlimit]
      exact h.bounded j
  · intro j hmem
    by_cases hj : j = i
    · rw [hj] at hmem ⊢
      exact hat.queued hmem
    · rw [hkept.delivered j hj, hlimit]
      exact h.queued j ((hframe.others j hj).mem_queuedIds.mp hmem)
  · intro j
    by_cases hj : j = i
    · rw [hj]; exact hat.settledOnce
    · rw [hkept.settles j hj]
      exact h.settledOnce j
  · intro j hmem
    by_cases hj : j = i
    · rw [hj] at hmem ⊢
      exact hat.unsettled hmem
    · rw [hkept.settles j hj]
      exact h.unsettled j ((hframe.others j hj).mem_inFlight.mp hmem)

theorem Fair.held_of_le {s : WorkerSystem} (h : s.Fair) {q : InMemoryTaskQueue}
    (hle : q.held ≤ s.queue.held) : q.held.Nodup ∧ ∀ j ∈ q.held, j ∈ s.offered :=
  ⟨Multiset.nodup_of_le hle h.nodup, fun j hj => h.offered j (Multiset.mem_of_le hle hj)⟩

/-! ## Each step keeps the invariant -/

section Steps

variable {s : WorkerSystem}

theorem Fair.enqueue (h : s.Fair) (hfresh : i ∉ s.offered) (now : Datetime) :
    (s.step (.enqueue i now)).Fair := by
  have hnotHeld : i ∉ s.queue.held := fun hi => hfresh (h.offered i hi)
  have hle := s.queue.held_enqueue_le i now
  have hflight : i ∉ (s.queue.enqueue i now).2.inFlight := by
    rw [inFlight_enqueue]
    exact fun hi => hnotHeld (mem_held.mpr (Or.inr (Or.inl hi)))
  refine h.of_frame (i := i) (s.queue.frame_enqueue i now) ?_ ?_ ⟨?_, ?_, ?_, ?_⟩ ⟨?_, ?_, ?_, ?_, ?_, ?_⟩
  · exact Multiset.nodup_of_le hle (Multiset.nodup_cons.mpr ⟨hnotHeld, h.nodup⟩)
  · intro j hj
    show j ∈ s.offered ++ [i]
    rcases Multiset.mem_cons.mp (Multiset.mem_of_le hle hj) with rfl | hold
    · exact mem_append_right _ (mem_singleton_self j)
    · exact mem_append_left _ (h.offered j hold)
  · exact fun _ _ _ hphase => hphase
  · exact fun j hj => update_of_ne hj _ _
  · exact fun j hj => update_of_ne hj _ _
  · exact fun _ _ => rfl
  · simp [step, act, renew]
  · exact fun _ _ hcurrent => (hflight hcurrent.1).elim
  · exact Or.inl (update_self ..)
  · exact fun _ => Or.inl (update_self ..)
  · exact h.settledOnce i
  · exact fun hi => (hflight hi).elim

/-- A task that was taken for an idle worker. -/
theorem Fair.receive (h : s.Fair) {r : Except WorkerError (Option String) × InMemoryTaskQueue}
    (hidle : s.phase w = .idle) (hgranted : s.queue.Granted w r i)
    (hroom : (s.delivered i : ℤ) < s.limit i) : (s.receive w r).2.Fair := by
  obtain ⟨hnodup, hoffered⟩ := h.held_of_le hgranted.held
  rcases hgranted.result with hresult | ⟨⟨e, hresult⟩, hlost⟩
  · have hstep : (s.receive w r).2 = (s.withQueue r.2).deliver w i := by
      unfold WorkerSystem.receive
      rw [hresult]
    rw [hstep]
    refine h.of_frame (i := i) hgranted.frame hnodup hoffered ⟨?_, ?_, ?_, ?_⟩ ⟨?_, ?_, ?_, ?_, ?_, ?_⟩
    · intro w' j hj hphase
      by_cases hw : w' = w
      · subst hw
        have hleased : WorkerPhase.leased i = .leased j :=
          (update_self ..).symm.trans hphase
        exact (hj (WorkerPhase.leased.inj hleased).symm).elim
      · exact (update_of_ne hw _ _).symm.trans hphase
    · exact fun j hj => update_of_ne hj _ _
    · exact fun _ _ => rfl
    · exact fun j hj => update_of_ne hj _ _
    · have := h.counts i
      simp only [deliver, withQueue, update_self]
      omega
    · have := h.counts i
      intro _ _ _
      simp only [deliver, withQueue, update_self]
      omega
    · right
      have hlimit : ((s.withQueue r.2).deliver w i).limit i = s.limit i :=
        hgranted.frame.attemptLimit i
      rw [hlimit]
      simp only [deliver, withQueue, update_self]
      push_cast
      omega
    · exact fun hi => (hgranted.notQueued hi).elim
    · simp [deliver]
    · intro _
      simp [deliver]
  · have hstep : (s.receive w r).2 = s.withQueue r.2 := by
      unfold WorkerSystem.receive
      rw [hresult]
    rw [hstep]
    refine h.of_frame (i := i) hgranted.frame hnodup hoffered
      ⟨fun _ _ _ hphase => hphase, fun _ _ => rfl, fun _ _ => rfl, fun _ _ => rfl⟩
      ⟨h.counts i, ?_, ?_, fun hi => (hgranted.notQueued hi).elim, h.settledOnce i,
        fun hi => (hlost hi).elim⟩
    · -- the worker that the lost task is leased by is idle
      intro w' hphase hcurrent
      have hby := hcurrent.2.symm.trans hgranted.leasedBy
      rw [Option.some.inj hby] at hphase
      have hphase' : s.phase w = .leased i := hphase
      rw [hidle] at hphase'
      cases hphase'
    · have hlimit : (s.withQueue r.2).limit i = s.limit i := hgranted.frame.attemptLimit i
      rw [hlimit]
      exact h.bounded i

theorem Fair.setPhase_idle (h : s.Fair) (w : String) : (s.setPhase w .idle).Fair := by
  have hphase : ∀ w' j, (s.setPhase w .idle).phase w' = .leased j → s.phase w' = .leased j := by
    intro w' j hphase
    by_cases hw : w' = w
    · subst hw
      have hidle : WorkerPhase.idle = .leased j := (update_self ..).symm.trans hphase
      cases hidle
    · exact (update_of_ne hw _ _).symm.trans hphase
  exact ⟨h.queues, h.nodup, h.offered, h.counts,
    fun w' j hw hcurrent => h.waiting w' j (hphase w' j hw) hcurrent, h.bounded, h.queued,
    h.settledOnce, h.unsettled⟩

/-- A task whose lease a settlement has ended. -/
theorem Fair.settled (h : s.Fair) {w i : String} (hcurrent : s.Current w i)
    {q : InMemoryTaskQueue} (hframe : s.queue.Frame q i) (hle : q.held ≤ s.queue.held)
    (hlanded : i ∉ q.inFlight)
    (hqueued : i ∈ q.queuedIds → s.delivered i = 0 ∨ (s.delivered i : ℤ) < s.limit i) :
    (((s.countSettle i).withQueue q).setPhase w .idle).Fair := by
  obtain ⟨hnodup, hoffered⟩ := h.held_of_le hle
  apply Fair.setPhase_idle
  have hcount : s.countSettle i =
      { s with settles := Function.update s.settles i (s.settles i + 1) } := by
    unfold countSettle
    rw [if_pos hcurrent.1]
  have hlimit : ((s.countSettle i).withQueue q).limit i = s.limit i := hframe.attemptLimit i
  rw [hcount] at hlimit ⊢
  refine h.of_frame (i := i) hframe hnodup hoffered
    ⟨fun _ _ _ hphase => hphase, fun _ _ => rfl, fun _ _ => rfl, ?_⟩
    ⟨h.counts i, fun _ _ hc => (hlanded hc.1).elim, ?_, ?_, ?_, fun hi => (hlanded hi).elim⟩
  · exact fun j hj => update_of_ne hj _ _
  · rw [hlimit]
    exact h.bounded i
  · rw [hlimit]
    exact hqueued
  · have hzero := h.unsettled i hcurrent.1
    simp [withQueue, hzero]

/-- The status of a leased task changes. -/
theorem Fair.setStatus (h : s.Fair) (w i : String) (status : TaskStatus) :
    ((s.withQueue (s.queue.setStatus i status)).setPhase w .idle).Fair := by
  apply Fair.setPhase_idle
  have hframe := s.queue.frame_setStatus i status
  have hlimit : (s.withQueue (s.queue.setStatus i status)).limit i = s.limit i :=
    hframe.attemptLimit i
  refine h.of_frame (i := i) hframe h.nodup h.offered
    ⟨fun _ _ _ hphase => hphase, fun _ _ => rfl, fun _ _ => rfl, fun _ _ => rfl⟩
    ⟨h.counts i, ?_, ?_, ?_, h.settledOnce i, h.unsettled i⟩
  · intro w' hphase hc
    refine h.waiting w' i hphase ⟨hc.1, ?_⟩
    simpa [withQueue, InMemoryTaskQueue.setStatus] using hc.2
  · rw [hlimit]
    exact h.bounded i
  · rw [hlimit]
    exact h.queued i

/-- What `start` does: it hands the task to the handler, or fails it for good. -/
theorem startTask_cases (q : InMemoryTaskQueue) (handlers : List String) (w i : String)
    (now later : Datetime) :
    q.startTask handlers w i now later = (.ok true, q.setStatus i .running) ∨
      ∃ status error, error.retryable = false ∧ (q.startTask handlers w i now later).1 ≠ .ok true ∧
        (q.startTask handlers w i now later).2 =
          ((q.setStatus i status).fail i w error now later).2 := by
  have hne : ∀ x : Except WorkerError Unit, (x.map fun _ => false) ≠ .ok true := by
    intro x
    cases x <;> simp [Except.map]
  unfold startTask
  cases hrejection : rejection? (q.tasks i) with
  | some error =>
    refine Or.inr ⟨.failed, error, ?_, hne _, rfl⟩
    unfold rejection? at hrejection
    split at hrejection
    · rw [← Option.some.inj hrejection]
    · split at hrejection
      · rw [← Option.some.inj hrejection]
      · split at hrejection
        · cases hrejection
        · rw [← Option.some.inj hrejection]
  | none =>
    by_cases htype : (q.tasks i).taskType ∈ handlers
    · left
      simp only [htype, if_true]
    · simp only [htype, if_false]
      exact Or.inr ⟨.running, _, rfl, hne _, rfl⟩

theorem Fair.start (h : s.Fair) (hphase : s.phase w = .leased i) (hcurrent : s.Current w i)
    (now later : Datetime) : (s.startStep w i now later).2.Fair := by
  have hframe := s.queue.frame_startTask (s.handlers w) w i now later
  have hle := s.queue.held_startTask_le (s.handlers w) w i now later
  rcases startTask_cases s.queue (s.handlers w) w i now later with hstart | hfail
  · have hstep : (s.startStep w i now later).2 =
        ((s.withQueue (s.queue.setStatus i .running)).setPhase w (.running i)).countHandOut i := by
      unfold startStep
      rw [hstart]
    rw [hstep]
    rw [hstart] at hframe
    have hlimit : (((s.withQueue (s.queue.setStatus i .running)).setPhase w
        (.running i)).countHandOut i).limit i = s.limit i := hframe.attemptLimit i
    have hmore := h.waiting w i hphase hcurrent
    refine h.of_frame (i := i) hframe h.nodup h.offered ⟨?_, fun _ _ => rfl, ?_, fun _ _ => rfl⟩
      ⟨?_, ?_, ?_, ?_, h.settledOnce i, h.unsettled i⟩
    · intro w' j hj hphase'
      by_cases hw : w' = w
      · subst hw
        have hrunning : WorkerPhase.running i = .leased j :=
          (update_self ..).symm.trans hphase'
        cases hrunning
      · exact (update_of_ne hw _ _).symm.trans hphase'
    · exact fun j hj => update_of_ne hj _ _
    · simp only [countHandOut, setPhase, withQueue, update_self]
      omega
    · -- another worker that waits with the task does not hold its lease
      intro w' hphase' hc
      by_cases hw : w' = w
      · subst hw
        have hrunning : WorkerPhase.running i = .leased i :=
          (update_self ..).symm.trans hphase'
        cases hrunning
      · have hby : (s.queue.tasks i).leasedBy = some w' := by
          simpa [countHandOut, setPhase, withQueue, InMemoryTaskQueue.setStatus] using hc.2
        rw [hcurrent.2] at hby
        exact (hw (Option.some.inj hby).symm).elim
    · rw [hlimit]
      exact h.bounded i
    · rw [hlimit]
      exact h.queued i
  · obtain ⟨status, error, hretryable, hresult, hqueue⟩ := hfail
    have hstep : (s.startStep w i now later).2 =
        ((s.countSettle i).withQueue (s.queue.startTask (s.handlers w) w i now later).2).setPhase w
          .idle := by
      unfold startStep
      rcases hr : s.queue.startTask (s.handlers w) w i now later with ⟨result, q⟩
      rw [hr] at hresult
      cases result with
      | error e => rfl
      | ok b =>
        cases b with
        | false => rfl
        | true => exact (hresult rfl).elim
    rw [hstep]
    refine h.settled hcurrent hframe hle ?_ ?_
    · rw [hqueue]
      exact notMem_inFlight_fail (s.queue.setStatus i status) h.nodup i w error
        now later
    · intro hqueued
      rw [hqueue] at hqueued
      have hretry := shouldRetry_of_queued_fail (s.queue.setStatus i status)
        h.nodup hcurrent.1 hqueued
      have hyes := hretry.2.2.1
      rw [hretryable] at hyes
      cases hyes

/-- A retry that the attempts allow leaves room for another hand-out. -/
def RetryCounted (s : WorkerSystem) (taskId : String) (outcome : HandlerOutcome) : Prop :=
  ∀ error, settlement (s.queue.tasks taskId) outcome = .fail error →
    s.queue.retryPolicy.ShouldRetry (s.queue.tasks taskId) error →
      (s.queue.tasks taskId).attempts < s.delivered taskId →
        (s.delivered taskId : ℤ) < s.limit taskId

theorem Fair.settle (h : s.Fair) {outcome : HandlerOutcome} (hcurrent : s.Current w i)
    (hcounted : s.RetryCounted i outcome) (now later : Datetime) :
    (s.settleStep w i outcome now later).2.Fair := by
  have hframe := s.queue.frame_settleTask w i outcome now later
  have hle := s.queue.held_settleTask_le w i outcome now later
  unfold settleStep
  unfold settleTask at hframe hle ⊢
  cases hsettlement : settlement (s.queue.tasks i) outcome with
  | ack =>
    simp only [hsettlement] at hframe hle ⊢
    have hlanded := s.queue.notMem_inFlight_ack h.nodup i (some w)
    refine h.settled hcurrent hframe hle hlanded fun hqueued => ?_
    have hold : i ∉ (s.queue.ack i (some w)).queuedIds := by
      unfold InMemoryTaskQueue.ack
      rw [if_pos hcurrent.1]
      exact (notMem_of_inFlight h.nodup hcurrent.1).1
    exact (hold hqueued).elim
  | fail error =>
    simp only [hsettlement] at hframe hle ⊢
    have hlanded := s.queue.notMem_inFlight_fail h.nodup i w error now later
    refine h.settled hcurrent hframe hle hlanded fun hqueued => ?_
    have hretry := shouldRetry_of_queued_fail s.queue h.nodup hcurrent.1 hqueued
    -- either the attempts count every delivery, or the condition leaves room
    by_cases hlag : (s.queue.tasks i).attempts < s.delivered i
    · exact Or.inr (hcounted error hsettlement hretry hlag)
    · have hattempts : (s.queue.tasks i).attempts < s.limit i := hretry.2.2.2
      right
      omega
  | setStatus status => exact h.setStatus w i status

theorem Fair.cancel (h : s.Fair) (i : String) : (s.step (.cancel i)).Fair := by
  have hframe := s.queue.frame_cancel h.queues i
  obtain ⟨hnodup, hoffered⟩ := h.held_of_le (s.queue.held_cancel_le h.queues i)
  have hlimit : (s.step (.cancel i)).limit i = s.limit i := hframe.attemptLimit i
  have hflight : i ∉ (s.queue.cancel i).2.inFlight := by
    unfold InMemoryTaskQueue.cancel
    split
    · rename_i name ids hfind
      have hids : i ∈ ids := by simpa using find?_some hfind
      have hqueued : i ∈ s.queue.queuedIds :=
        mem_flatten.mpr ⟨ids, mem_map.mpr ⟨_, mem_of_find?_eq_some hfind, rfl⟩, hids⟩
      exact (notMem_of_queued h.nodup hqueued).1
    · split
      · rename_i hi
        exact (notMem_of_inFlight h.nodup hi).2.2
      · assumption
  have hqueued : i ∈ (s.queue.cancel i).2.queuedIds → i ∈ s.queue.queuedIds := by
    unfold InMemoryTaskQueue.cancel
    split
    · rename_i name ids hfind
      intro _
      have hids : i ∈ ids := by simpa using find?_some hfind
      exact mem_flatten.mpr
        ⟨ids, mem_map.mpr ⟨_, mem_of_find?_eq_some hfind, rfl⟩, hids⟩
    · split
      · exact fun hi => hi
      · exact fun hi => hi
  refine h.of_frame (i := i) hframe hnodup hoffered
    ⟨fun _ _ _ hphase => hphase, fun _ _ => rfl, fun _ _ => rfl, fun _ _ => rfl⟩
    ⟨h.counts i, fun _ _ hc => (hflight hc.1).elim, ?_, ?_, h.settledOnce i,
      fun hi => (hflight hi).elim⟩
  · rw [hlimit]
    exact h.bounded i
  · rw [hlimit]
    exact fun hi => h.queued i (hqueued hi)

theorem Fair.requeueDeadLetter (h : s.Fair) (i : String) :
    (s.step (.requeueDeadLetter i)).Fair := by
  have hframe := s.queue.frame_requeueDeadLetter i
  have hheld := s.queue.held_requeueDeadLetter i
  by_cases hi : i ∈ s.queue.deadIds
  · have hstep : s.step (.requeueDeadLetter i) =
        (s.withQueue (s.queue.requeueDeadLetter i).2).renew i := by
      have hresult : (s.queue.requeueDeadLetter i).1 = true := by
        unfold InMemoryTaskQueue.requeueDeadLetter
        rw [if_pos hi]
      unfold step act
      simp only [hresult, if_true]
    have hflight : i ∉ (s.queue.requeueDeadLetter i).2.inFlight := by
      unfold InMemoryTaskQueue.requeueDeadLetter
      rw [if_pos hi]
      exact fun hf => (notMem_of_inFlight h.nodup hf).2.1 hi
    rw [hstep]
    obtain ⟨hnodup, hoffered⟩ := h.held_of_le (le_of_eq hheld)
    refine h.of_frame (i := i) hframe hnodup hoffered
      ⟨fun _ _ _ hphase => hphase, ?_, ?_, fun _ _ => rfl⟩
      ⟨?_, fun _ _ hc => (hflight hc.1).elim, ?_, ?_, h.settledOnce i, fun hf => (hflight hf).elim⟩
    · exact fun j hj => update_of_ne hj _ _
    · exact fun j hj => update_of_ne hj _ _
    · simp [renew]
    · exact Or.inl (update_self ..)
    · exact fun _ => Or.inl (update_self ..)
  · have hstep : s.step (.requeueDeadLetter i) = s := by
      have hresult : (s.queue.requeueDeadLetter i).1 = false := by
        unfold InMemoryTaskQueue.requeueDeadLetter
        rw [if_neg hi]
      unfold step act
      simp [hresult]
    rw [hstep]
    exact h

end Steps

end WorkerSystem

/-! ## Runs -/

namespace WorkerAction

/-- The task that a step offers to the queue. -/
def offered : WorkerAction → Option String
  | enqueue taskId _ => some taskId
  | _ => none

/-- The condition on a step, in the state that it is made in. -/
def Meets (s : WorkerSystem) : WorkerAction → Prop
  | lease w queueNames now =>
    s.phase w = .idle → w ≠ "" → ∀ name i,
      s.queue.leaseCandidate? queueNames now = some (name, i) → s.delivered i = 0 → 1 ≤ s.limit i
  | reclaim w queueNames reference =>
    s.phase w = .idle → ∀ i,
      s.queue.inFlight.find? (fun i => s.queue.Stale queueNames reference i) = some i →
        (s.delivered i : ℤ) < s.limit i
  | start w _ _ => ∀ i, s.phase w = .leased i → s.Current w i
  | settle w outcome _ _ => ∀ i, s.phase w = .running i →
    (s.Current w i ∧ s.RetryCounted i outcome) ∨
      (settlement (s.queue.tasks i) outcome = .ack ∧ i ∉ s.queue.inFlight)
  | _ => True

end WorkerAction

variable {a : WorkerAction}

namespace WorkerSystem

/-- Workers over a queue without tasks. -/
def begin (tasks : String → Task) (retryPolicy : TaskRetryPolicy)
    (backpressurePolicy : BackpressurePolicy) (handlers : String → List String) : WorkerSystem where
  queue :=
    { tasks := tasks, retryPolicy := retryPolicy, backpressurePolicy := backpressurePolicy }
  handlers := handlers

theorem Fair.begin (tasks : String → Task) (retryPolicy : TaskRetryPolicy)
    (backpressurePolicy : BackpressurePolicy) (handlers : String → List String) :
    (begin tasks retryPolicy backpressurePolicy handlers).Fair := by
  have hheld : (WorkerSystem.begin tasks retryPolicy backpressurePolicy handlers).queue.held = 0 :=
    rfl
  constructor
  · exact nodup_nil
  · rw [hheld]
    exact Multiset.nodup_zero
  · rw [hheld]
    simp
  · exact fun _ => le_refl 0
  · exact fun _ _ hphase => by cases hphase
  · exact fun _ => Or.inl rfl
  · exact fun _ _ => Or.inl rfl
  · exact fun _ => Nat.zero_le 1
  · exact fun _ _ => rfl

section Steps

variable {s : WorkerSystem}

theorem Fair.lease (h : s.Fair) {queueNames : List String} {now : Datetime}
    (hmeets : (WorkerAction.lease w queueNames now).Meets s) :
    (s.step (.lease w queueNames now)).Fair := by
  unfold step act
  by_cases hidle : s.phase w = .idle
  · simp only [hidle, if_true]
    unfold InMemoryTaskQueue.lease
    by_cases hw : w = ""
    · simp only [hw, if_true]
      exact h
    · simp only [hw, if_false]
      cases hcandidate : s.queue.leaseCandidate? queueNames now with
      | none =>
        unfold leaseOne
        simp only [hcandidate]
        exact h
      | some c =>
        obtain ⟨name, i⟩ := c
        have hqueued := s.queue.mem_queuedIds_of_get? (s.queue.leaseCandidate?_spec hcandidate).1
        refine h.receive hidle (s.queue.granted_leaseOne h.nodup w hcandidate) ?_
        rcases h.queued i hqueued with hzero | hless
        · have hone := hmeets hidle hw name i hcandidate hzero
          omega
        · exact hless
  · simp only [hidle, if_false]
    exact h

theorem Fair.reclaim (h : s.Fair) {queueNames : List String} {reference : Datetime}
    (hmeets : (WorkerAction.reclaim w queueNames reference).Meets s) :
    (s.step (.reclaim w queueNames reference)).Fair := by
  unfold step act
  by_cases hidle : s.phase w = .idle
  · simp only [hidle, if_true]
    cases hstale : s.queue.inFlight.find? fun i => s.queue.Stale queueNames reference i with
    | none =>
      unfold reclaimStale
      simp only [hstale]
      exact h
    | some i =>
      exact h.receive hidle (s.queue.granted_reclaimStale h.nodup w hstale) (hmeets hidle i hstale)
  · simp only [hidle, if_false]
    exact h

/-- An ack of a task that is not in flight changes nothing but the phase of the worker. -/
theorem settleStep_of_landed {outcome : HandlerOutcome} (now later : Datetime)
    (hack : settlement (s.queue.tasks i) outcome = .ack) (hi : i ∉ s.queue.inFlight) :
    s.settleStep w i outcome now later = (.ok (), s.setPhase w .idle) := by
  have hqueue : s.queue.ack i (some w) = s.queue := by
    rw [InMemoryTaskQueue.ack, if_neg hi]
  have hcount : s.countSettle i = s := by
    rw [countSettle, if_neg hi]
  unfold settleStep settleTask
  simp only [hack, hqueue, hcount]
  rfl

/-- A step that meets its condition keeps the invariant. -/
theorem Fair.step (h : s.Fair) {a : WorkerAction} (hfresh : ∀ i ∈ a.offered, i ∉ s.offered)
    (hmeets : a.Meets s) : (s.step a).Fair := by
  cases a with
  | enqueue i now => exact h.enqueue (hfresh i rfl) now
  | lease w queueNames now => exact h.lease hmeets
  | reclaim w queueNames reference => exact h.reclaim hmeets
  | start w now later =>
    unfold WorkerSystem.step
    cases hphase : s.phase w with
    | idle | running i =>
      simp only [act, hphase]
      exact h
    | leased i =>
      simp only [act, hphase]
      exact h.start hphase (hmeets i hphase) now later
  | settle w outcome now later =>
    unfold WorkerSystem.step
    cases hphase : s.phase w with
    | idle | leased i =>
      simp only [act, hphase]
      exact h
    | running i =>
      simp only [act, hphase]
      rcases hmeets i hphase with ⟨hcurrent, hcounted⟩ | ⟨hack, hlanded⟩
      · exact h.settle hcurrent hcounted now later
      · simp only [settleStep_of_landed now later hack hlanded]
        exact h.setPhase_idle w
  | cancel i => exact h.cancel i
  | requeueDeadLetter i => exact h.requeueDeadLetter i

/-! ## Only the holder of a lease changes a task -/

/-- A worker that starts or settles the task `i` changes only tasks whose lease it holds, and if
it does not hold that of `i`, it changes nothing and does not raise. -/
structure KeepsToLease (s : WorkerSystem) (w i : String) (a : WorkerAction) : Prop where
  others : ∀ j, ¬ s.Current w j → s.queue.Untouched (s.step a).queue j
  stale : ¬ s.Current w i → (s.act a).1 = .ok () ∧ (s.step a).queue = s.queue

/-- What a step may change: a task in flight is changed by its holder, by a cancellation, or by a
reclaim once its lease has ended. -/
def StepSafe (s : WorkerSystem) (a : WorkerAction) : Prop :=
  match a with
  | .start w _ _ => ∀ i, s.phase w = .leased i → s.KeepsToLease w i a
  | .settle w _ _ _ => ∀ i, s.phase w = .running i → s.KeepsToLease w i a
  | .reclaim _ queueNames reference =>
    ∀ j ∈ s.queue.inFlight, ¬ s.queue.Stale queueNames reference j →
      s.queue.Untouched (s.step a).queue j
  | .cancel i => ∀ j, j ≠ i → s.queue.Untouched (s.step a).queue j
  | _ => ∀ j ∈ s.queue.inFlight, s.queue.Untouched (s.step a).queue j

theorem keepsToLease_of_current (hcurrent : s.Current w i)
    (hframe : s.queue.Frame (s.step a).queue i) : s.KeepsToLease w i a :=
  ⟨fun j hj => hframe.others j fun hji => hj (hji ▸ hcurrent), fun hnot => (hnot hcurrent).elim⟩

theorem queue_receive (w : String) (r : Except WorkerError (Option String) × InMemoryTaskQueue) :
    (s.receive w r).2.queue = r.2 := by
  unfold receive
  split <;> rfl

theorem queue_startStep (w i : String) (now later : Datetime) :
    (s.startStep w i now later).2.queue = (s.queue.startTask (s.handlers w) w i now later).2 := by
  unfold startStep
  simp only
  split <;> rfl

theorem Fair.stepSafe_lease (h : s.Fair) (w : String) (queueNames : List String) (now : Datetime) :
    s.StepSafe (.lease w queueNames now) := by
  intro j hj
  show s.queue.Untouched (s.act (.lease w queueNames now)).2.queue j
  unfold act
  by_cases hidle : s.phase w = .idle
  · simp only [hidle, if_true]
    rw [queue_receive]
    unfold InMemoryTaskQueue.lease
    split
    · exact InMemoryTaskQueue.Untouched.refl _ j
    · cases hcandidate : s.queue.leaseCandidate? queueNames now with
      | none =>
        unfold leaseOne
        simp only [hcandidate]
        exact InMemoryTaskQueue.Untouched.refl _ j
      | some c =>
        obtain ⟨name, i⟩ := c
        have hqueued := s.queue.mem_queuedIds_of_get? (s.queue.leaseCandidate?_spec hcandidate).1
        refine (s.queue.granted_leaseOne h.nodup w hcandidate).frame.others j fun hji => ?_
        exact (notMem_of_queued h.nodup hqueued).1 (hji ▸ hj)
  · simp only [hidle, if_false]
    exact InMemoryTaskQueue.Untouched.refl _ j

theorem Fair.stepSafe_reclaim (h : s.Fair) (w : String) (queueNames : List String)
    (reference : Datetime) : s.StepSafe (.reclaim w queueNames reference) := by
  intro j _ hfresh
  show s.queue.Untouched (s.act (.reclaim w queueNames reference)).2.queue j
  unfold act
  by_cases hidle : s.phase w = .idle
  · simp only [hidle, if_true]
    rw [queue_receive]
    cases hstale : s.queue.inFlight.find? fun i => s.queue.Stale queueNames reference i with
    | none =>
      unfold reclaimStale
      simp only [hstale]
      exact InMemoryTaskQueue.Untouched.refl _ j
    | some i =>
      refine (s.queue.granted_reclaimStale h.nodup w hstale).frame.others j fun hji => hfresh ?_
      rw [hji]
      simpa using find?_some hstale
  · simp only [hidle, if_false]
    exact InMemoryTaskQueue.Untouched.refl _ j

theorem Fair.stepSafe (h : s.Fair) (hfresh : ∀ i ∈ a.offered, i ∉ s.offered) (hmeets : a.Meets s) :
    s.StepSafe a := by
  cases a with
  | enqueue i now =>
    intro j hj
    refine (s.queue.frame_enqueue i now).others j fun hji => hfresh i rfl (h.offered i ?_)
    exact mem_held.mpr (Or.inr (Or.inl (hji ▸ hj)))
  | lease w queueNames now => exact h.stepSafe_lease w queueNames now
  | reclaim w queueNames reference => exact h.stepSafe_reclaim w queueNames reference
  | start w now later =>
    intro i hphase
    refine keepsToLease_of_current (hmeets i hphase) ?_
    have hqueue : (s.step (.start w now later)).queue =
        (s.queue.startTask (s.handlers w) w i now later).2 := by
      simp only [WorkerSystem.step, act, hphase]
      exact queue_startStep w i now later
    rw [hqueue]
    exact s.queue.frame_startTask (s.handlers w) w i now later
  | settle w outcome now later =>
    intro i hphase
    have hact : s.act (.settle w outcome now later) = s.settleStep w i outcome now later := by
      simp only [act, hphase]
    rcases hmeets i hphase with ⟨hcurrent, -⟩ | ⟨hack, hlanded⟩
    · refine keepsToLease_of_current hcurrent ?_
      unfold WorkerSystem.step
      rw [hact]
      exact s.queue.frame_settleTask w i outcome now later
    · have hsame : (s.step (.settle w outcome now later)).queue = s.queue := by
        unfold WorkerSystem.step
        rw [hact, settleStep_of_landed now later hack hlanded]
        rfl
      refine ⟨fun j _ => ?_, fun _ => ⟨?_, hsame⟩⟩
      · rw [hsame]
        exact InMemoryTaskQueue.Untouched.refl _ j
      · rw [hact, settleStep_of_landed now later hack hlanded]
  | cancel i =>
    intro j hj
    exact (s.queue.frame_cancel h.queues i).others j hj
  | requeueDeadLetter i =>
    intro j hj
    have hqueue : (s.step (.requeueDeadLetter i)).queue = (s.queue.requeueDeadLetter i).2 := by
      unfold WorkerSystem.step act
      by_cases hi : i ∈ s.queue.deadIds
      · simp only [InMemoryTaskQueue.requeueDeadLetter, hi, if_true]
        rfl
      · simp [InMemoryTaskQueue.requeueDeadLetter, hi]
    rw [hqueue]
    by_cases hi : i ∈ s.queue.deadIds
    · refine (s.queue.frame_requeueDeadLetter i).others j fun hji => ?_
      exact (notMem_of_inFlight h.nodup hj).2.1 (hji ▸ hi)
    · rw [InMemoryTaskQueue.requeueDeadLetter, if_neg hi]
      exact InMemoryTaskQueue.Untouched.refl _ j

/-- A step offers what it adds to the offered tasks. -/
theorem mem_offered_step (h : i ∈ (s.step a).offered) : i ∈ s.offered ∨ a.offered = some i := by
  have hreceive : ∀ w r, (s.receive w r).2.offered = s.offered := by
    intro w r
    unfold receive
    split <;> rfl
  cases a with
  | enqueue taskId now =>
    have hmem : i ∈ s.offered ++ [taskId] := h
    rw [mem_append, mem_singleton] at hmem
    rcases hmem with hold | rfl
    · exact Or.inl hold
    · exact Or.inr rfl
  | lease w queueNames now | reclaim w queueNames reference =>
    left
    simp only [WorkerSystem.step, act] at h
    split at h
    · rwa [hreceive] at h
    · exact h
  | start w now later =>
    left
    have hsettled : ∀ i, (s.countSettle i).offered = s.offered := by
      intro i
      unfold countSettle
      split <;> rfl
    simp only [WorkerSystem.step, act] at h
    split at h
    · unfold startStep at h
      simp only at h
      split at h
      · exact h
      · exact (hsettled _) ▸ h
      · exact (hsettled _) ▸ h
    · exact h
  | settle w outcome now later =>
    left
    have hsettled : ∀ i, (s.countSettle i).offered = s.offered := by
      intro i
      unfold countSettle
      split <;> rfl
    simp only [WorkerSystem.step, act] at h
    split at h
    · unfold settleStep at h
      simp only at h
      have hcounted : ∀ (q : InMemoryTaskQueue) (t : WorkerSystem), ((t.withQueue q).setPhase w .idle).offered = t.offered :=
        fun _ _ => rfl
      rw [hcounted] at h
      split at h
      · exact h
      · exact (hsettled _) ▸ h
    · exact h
  | cancel taskId => exact Or.inl h
  | requeueDeadLetter taskId =>
    left
    simp only [WorkerSystem.step, act] at h
    split at h
    · exact h
    · exact h

end Steps

/-! ## Whole runs -/

/-- A task is settled at most once after each lease, and handed to a handler at most as often as
its limit since it was last enqueued or requeued. -/
structure WithinLimits (s : WorkerSystem) : Prop where
  settledOnce : ∀ i, s.settles i ≤ 1
  handed : ∀ i, 0 < s.handed i → (s.handed i : ℤ) ≤ s.limit i

theorem Fair.withinLimits {s : WorkerSystem} (h : s.Fair) : s.WithinLimits := by
  refine ⟨h.settledOnce, fun i hpos => ?_⟩
  have hcounts := h.counts i
  rcases h.bounded i with hzero | hle
  · omega
  · omega

variable (tasks : String → Task) (retryPolicy : TaskRetryPolicy)
  (backpressurePolicy : BackpressurePolicy) (handlers : String → List String)

/-- In a run whose steps all meet the condition, only the holder of a lease changes a task, and
leases and hand-outs stay within their limits. -/
theorem leases_kept_along_run {actions : List WorkerAction}
    (hoffered : (actions.filterMap WorkerAction.offered).Nodup)
    (hmeets : StepRuns.Along step (fun s a => a.Meets s)
      (begin tasks retryPolicy backpressurePolicy handlers) actions) :
    StepRuns.Along step StepSafe (begin tasks retryPolicy backpressurePolicy handlers) actions ∧
      (run step (begin tasks retryPolicy backpressurePolicy handlers)
        actions).WithinLimits := by
  have hbegin := Fair.begin tasks retryPolicy backpressurePolicy handlers
  have hfresh : StepRuns.Along step (fun s a => ∀ i ∈ a.offered, i ∉ s.offered)
      (begin tasks retryPolicy backpressurePolicy handlers) actions :=
    StepRuns.along_fresh (fun s a _ => mem_offered_step (s := s) (a := a)) hoffered
      fun i _ => not_mem_nil
  have hboth := hfresh.and hmeets
  have keep : ∀ (s : WorkerSystem) a, s.Fair →
      ((∀ i ∈ a.offered, i ∉ s.offered) ∧ a.Meets s) → (s.step a).Fair :=
    fun s a h ha => h.step ha.1 ha.2
  refine ⟨?_, (StepRuns.run_invariant keep hbegin hboth).withinLimits⟩
  exact StepRuns.along_of_invariant keep (fun s a h ha => h.stepSafe ha.1 ha.2) hbegin hboth

/-- A worker starts and acks the only task. -/
theorem leases_kept_along_run_ack : let task : Task :=
      { taskType := "t", timeoutSeconds := some 1, executionScope := some .graph,
        graphIdentity := some (.execution "g") }
    let outcome : HandlerOutcome := .result {
      success := true, status := .succeeded, executionScope := some .graph,
      graphIdentity := some (.execution "g") }
    let s := begin (fun _ => task) {} {} fun _ => ["t"]
    let actions : List WorkerAction :=
      [.enqueue "a" 0, .lease "w" ["framework:queue:default"] 0, .start "w" 0 0,
        .settle "w" outcome 0 0]
    StepRuns.Along step StepSafe s actions ∧ (run step s actions).WithinLimits := by
  intro task outcome s actions
  refine leases_kept_along_run _ _ _ _ (by decide +kernel) ⟨trivial, ?_, ?_, ?_, trivial⟩
  · intro _ _ name i hcandidate _
    have hcomputed : ((step s (.enqueue "a" 0)).queue.leaseCandidate?
        ["framework:queue:default"] 0).map Prod.snd = some "a" := by
      decide +kernel
    have hfound := congrArg (Option.map Prod.snd) hcandidate
    rw [hcomputed] at hfound
    cases hfound
    decide +kernel
  · intro i hphase
    have hcomputed : (run step s (actions.take 2)).phase "w" = .leased "a" := by
      decide +kernel
    obtain rfl := WorkerPhase.leased.inj (hcomputed.symm.trans hphase)
    decide +kernel
  · intro i hphase
    have hcomputed : (run step s (actions.take 3)).phase "w" = .running "a" := by
      decide +kernel
    obtain rfl := WorkerPhase.running.inj (hcomputed.symm.trans hphase)
    refine Or.inl ⟨by decide +kernel, ?_⟩
    intro error herror
    have hack : settlement ((run step s (actions.take 3)).queue.tasks "a") outcome =
        .ack := by
      decide +kernel
    cases hack.symm.trans herror

/-- The lease of a worker ends while its handler runs, another worker reclaims the task, and the
first one acks it: the second one's lease is gone. -/
theorem stale_ack_ends_lease : ¬ ∀ (tasks : String → Task) (retryPolicy : TaskRetryPolicy)
        (backpressurePolicy : BackpressurePolicy) (handlers : String → List String)
        (actions : List WorkerAction), (actions.filterMap WorkerAction.offered).Nodup →
          StepRuns.Along step StepSafe (begin tasks retryPolicy backpressurePolicy handlers)
              actions ∧ (run step (begin tasks retryPolicy backpressurePolicy handlers)
              actions).WithinLimits := by
  intro hall
  have hsafe := (hall
    (fun _ => { taskType := "t", timeoutSeconds := some 1, executionScope := some .graph,
                graphIdentity := some (.execution "g") }) {} {} (fun _ => ["t"])
    [.enqueue "a" 0, .lease "w" ["framework:queue:default"] 0, .start "w" 0 0,
      .reclaim "v" ["framework:queue:default"] 1000000,
      .settle "w"
        (.result {
          success := true, status := .succeeded, executionScope := some .graph,
          graphIdentity := some (.execution "g") }) 1000000 1000000] (by decide +kernel)).1
  have hkeeps := hsafe.2.2.2.2.1 "a" (by decide +kernel)
  have hqueue := congrArg inFlight (hkeeps.stale (by decide +kernel)).2
  revert hqueue
  decide +kernel

end WorkerSystem

end Workers
