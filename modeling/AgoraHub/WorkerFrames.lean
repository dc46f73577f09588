/-
# What one operation of the queue leaves alone

An operation on one task leaves every other task as it is: the object and how often
its id stands in each container.  No operation but `enqueue` adds an id to the
containers as a whole.
-/
import AgoraHub.WorkerLoop
import AgoraHub.WorkerQueuePlaces

namespace Workers

open List PyDict DeadLetterRecord
open Multiset (le_cons_self)

variable {q' : InMemoryTaskQueue} {j name : String}

namespace InMemoryTaskQueue

/-! ## Frames -/

/-- A task that is the same object in the same containers. -/
structure Untouched (q q' : InMemoryTaskQueue) (j : String) : Prop where
  object : q'.tasks j = q.tasks j
  queued : q'.queuedIds.count j = q.queuedIds.count j
  inFlight : q'.inFlight.count j = q.inFlight.count j
  deadLetter : q'.deadIds.count j = q.deadIds.count j

theorem Untouched.refl (q : InMemoryTaskQueue) (j : String) : q.Untouched q j :=
  ⟨rfl, rfl, rfl, rfl⟩

theorem Untouched.trans {q q'' : InMemoryTaskQueue} (h : q.Untouched q' j)
    (h' : q'.Untouched q'' j) : q.Untouched q'' j :=
  ⟨h'.object.trans h.object, h'.queued.trans h.queued, h'.inFlight.trans h.inFlight,
    h'.deadLetter.trans h.deadLetter⟩

theorem Untouched.mem_queuedIds {q : InMemoryTaskQueue} (h : q.Untouched q' j) :
    j ∈ q'.queuedIds ↔ j ∈ q.queuedIds := by
  rw [← count_pos_iff, ← count_pos_iff, h.queued]

theorem Untouched.mem_inFlight {q : InMemoryTaskQueue} (h : q.Untouched q' j) :
    j ∈ q'.inFlight ↔ j ∈ q.inFlight := by
  rw [← count_pos_iff, ← count_pos_iff, h.inFlight]

/-- Only the task `i` changes, and no limit does. -/
structure Frame (q q' : InMemoryTaskQueue) (i : String) : Prop where
  others : ∀ j, j ≠ i → q.Untouched q' j
  policy : q'.retryPolicy = q.retryPolicy
  maxAttempts : (q'.tasks i).maxAttempts = (q.tasks i).maxAttempts
  queues : q.queued.keys.Nodup → q'.queued.keys.Nodup

theorem Frame.refl (q : InMemoryTaskQueue) (i : String) : q.Frame q i :=
  ⟨fun j _ => Untouched.refl q j, rfl, rfl, id⟩

variable {i : String}

theorem Frame.trans {q q'' : InMemoryTaskQueue} (h : q.Frame q' i) (h' : q'.Frame q'' i) :
    q.Frame q'' i :=
  ⟨fun j hj => (h.others j hj).trans (h'.others j hj), h'.policy.trans h.policy,
    h'.maxAttempts.trans h.maxAttempts, fun hq => h'.queues (h.queues hq)⟩

theorem Frame.attemptLimit {q : InMemoryTaskQueue} (h : q.Frame q' i) (j : String) :
    q'.retryPolicy.attemptLimit (q'.tasks j) = q.retryPolicy.attemptLimit (q.tasks j) := by
  unfold TaskRetryPolicy.attemptLimit
  rw [h.policy]
  by_cases hj : j = i
  · rw [hj, h.maxAttempts]
  · rw [(h.others j hj).object]

variable (q : InMemoryTaskQueue)

theorem frame_updateTask {f : Task → Task} (hf : ∀ t, (f t).maxAttempts = t.maxAttempts)
    (i : String) : q.Frame (q.updateTask i f) i := by
  refine ⟨fun j hj => ⟨tasks_updateTask_of_ne q f hj, rfl, rfl, rfl⟩, rfl, ?_, id⟩
  rw [tasks_updateTask_self, hf]

theorem frame_recordEvent (eventType : TaskEventType) (i : String) (workerId : Option String) :
    q.Frame (q.recordEvent eventType i workerId) i :=
  ⟨fun _ _ => ⟨rfl, rfl, rfl, rfl⟩, rfl, rfl, id⟩

theorem count_of_coe_eq_cons {l l' : List String} (h : (l' : Multiset String) = i ::ₘ l)
    (hj : j ≠ i) : l'.count j = l.count j := by
  rw [Multiset.cons_coe, Multiset.coe_eq_coe] at h
  rw [h.count_eq, count_cons_of_ne hj.symm]

theorem frame_appendQueued (name i : String) : q.Frame (q.appendQueued name i) i :=
  ⟨fun _ hj => ⟨rfl, count_of_coe_eq_cons (q.queuedIds_appendQueued name i) hj, rfl, rfl⟩, rfl,
    rfl, fun h => nodup_keys_set h _ _⟩

theorem frame_removeQueued (h : i ∈ (q.queued.get? name).getD []) :
    q.Frame (q.removeQueued name i) i :=
  ⟨fun _ hj => ⟨rfl, (count_of_coe_eq_cons (q.queuedIds_removeQueued h) hj).symm, rfl, rfl⟩, rfl,
    rfl, fun h => nodup_keys_set h _ _⟩

theorem frame_popInFlight (i : String) : q.Frame (q.popInFlight i) i :=
  ⟨fun _ hj => ⟨rfl, rfl, count_erase_of_ne hj, rfl⟩, rfl, rfl, id⟩

theorem frame_putInFlight (i : String) : q.Frame (q.putInFlight i) i := by
  refine ⟨fun j hj => ⟨rfl, rfl, ?_, rfl⟩, rfl, rfl, id⟩
  unfold putInFlight
  split
  · rfl
  · rw [count_append, count_singleton, beq_false_of_ne hj.symm]
    simp

/-! ## The frame of each operation -/

theorem frame_acceptTask (i : String) : q.Frame (q.acceptTask i) i :=
  ((q.frame_updateTask (by intro t; rfl) i).trans (frame_appendQueued _ _ i)).trans
    (frame_recordEvent _ _ i _)

theorem frame_enqueue (i : String) (now : Datetime) : q.Frame (q.enqueue i now).2 i := by
  unfold enqueue
  split
  · exact Frame.refl q i
  · split
    · exact Frame.refl q i
    · split
      · exact Frame.refl q i
      · exact q.frame_acceptTask i

theorem frame_ack (i : String) (workerId : Option String) : q.Frame (q.ack i workerId) i := by
  unfold ack
  split
  · exact ((q.frame_popInFlight i).trans (frame_updateTask _ (by intro t; rfl) i)).trans
      (frame_recordEvent _ _ i _)
  · exact Frame.refl q i

theorem frame_moveToDeadLetter (i reason : String) (error : Option TaskError) :
    q.Frame (q.moveToDeadLetter i reason error) i := by
  have hburied := (q.frame_updateTask (f := fun t =>
    { t with status := .deadLetter, leasedBy := none, leaseExpiresAt := none }) (by intro t; rfl)
      i).trans (frame_recordEvent _ .taskDeadLettered i none)
  refine ⟨fun j hj => ?_, hburied.policy, hburied.maxAttempts, hburied.queues⟩
  have h := hburied.others j hj
  refine ⟨h.object, h.queued, h.inFlight, ?_⟩
  show (List.map taskId (q.deadLetters ++ [_])).count j = q.deadIds.count j
  rw [map_append, map_singleton, count_append, count_singleton, beq_false_of_ne hj.symm]
  simp [deadIds]

theorem frame_scheduleRetry (i workerId : String) (nextRunAt : Datetime) :
    q.Frame (q.scheduleRetry i workerId nextRunAt) i :=
  (q.frame_updateTask (by intro t; rfl) i).trans (frame_recordEvent _ _ i _)

theorem frame_fail (i workerId : String) (error : TaskError) (now later : Datetime) :
    q.Frame (q.fail i workerId error now later).2 i := by
  unfold fail
  split
  · have hpop := q.frame_popInFlight i
    simp only
    split
    · split
      · exact hpop
      · exact (hpop.trans (frame_scheduleRetry _ i workerId _)).trans (frame_enqueue _ i later)
    · exact hpop.trans (frame_moveToDeadLetter _ i _ _)
  · exact Frame.refl q i

theorem frame_setStatus (i : String) (status : TaskStatus) : q.Frame (q.setStatus i status) i :=
  q.frame_updateTask (by intro t; rfl) i

theorem frame_startTask (handlers : List String) (workerId i : String) (now later : Datetime) :
    q.Frame (q.startTask handlers workerId i now later).2 i := by
  unfold startTask
  split
  · exact (q.frame_setStatus i _).trans (frame_fail _ i workerId _ now later)
  · simp only
    split
    · exact q.frame_setStatus i _
    · exact (q.frame_setStatus i _).trans (frame_fail _ i workerId _ now later)

theorem frame_settleTask (workerId i : String) (outcome : HandlerOutcome) (now later : Datetime) :
    q.Frame (q.settleTask workerId i outcome now later).2 i := by
  unfold settleTask
  split
  · exact q.frame_ack i _
  · exact q.frame_fail i workerId _ now later
  · exact q.frame_setStatus i _

theorem frame_cancelTask (i : String) : q.Frame (q.cancelTask i) i :=
  q.frame_updateTask (by intro t; rfl) i

theorem frame_cancel (hkeys : q.queued.keys.Nodup) (i : String) : q.Frame (q.cancel i).2 i := by
  unfold cancel
  split
  · rename_i name ids hfind
    have hget := get?_of_mem hkeys (mem_of_find?_eq_some hfind)
    have hmem : i ∈ (q.queued.get? name).getD [] := by
      rw [hget]
      simpa using find?_some hfind
    exact (q.frame_removeQueued hmem).trans (frame_cancelTask _ i)
  · split
    · exact (q.frame_popInFlight i).trans (frame_cancelTask _ i)
    · exact Frame.refl q i

theorem frame_requeueDeadLetter (i : String) : q.Frame (q.requeueDeadLetter i).2 i := by
  unfold requeueDeadLetter
  split
  · have htaken : q.Frame { q with
        deadLetters := q.deadLetters.eraseP fun record => record.taskId = i } i := by
      refine ⟨fun j hj => ⟨rfl, rfl, rfl, ?_⟩, rfl, rfl, id⟩
      show (List.map taskId (q.deadLetters.eraseP _)).count j = q.deadIds.count j
      rw [map_taskId_eraseP, count_erase_of_ne hj]
      rfl
    exact ((htaken.trans (frame_updateTask _ (by intro t; rfl) i)).trans
      (frame_appendQueued _ _ i)).trans (frame_recordEvent _ _ i _)
  · exact Frame.refl q i

/-! ## The ids in the containers -/

/-- The ids in the containers. -/
def held : Multiset String := q.queuedIds + q.inFlight + q.deadIds

variable {q}

theorem mem_held : i ∈ q.held ↔ i ∈ q.queuedIds ∨ i ∈ q.inFlight ∨ i ∈ q.deadIds := by
  unfold held
  rw [Multiset.mem_add, Multiset.mem_add, or_assoc]
  rfl

theorem notMem_of_inFlight (h : q.held.Nodup) (hi : i ∈ q.inFlight) :
    i ∉ q.queuedIds ∧ i ∉ q.deadIds ∧ i ∉ (q.popInFlight i).inFlight := by
  unfold held at h
  rw [Multiset.nodup_add, Multiset.nodup_add] at h
  rcases h with ⟨⟨-, hflight, hqf⟩, -, hdead⟩
  refine ⟨fun hq => ?_, fun hd => ?_, (Multiset.coe_nodup.mp hflight).not_mem_erase⟩
  · exact Multiset.disjoint_left.mp hqf hq hi
  · exact Multiset.disjoint_left.mp hdead (Multiset.mem_add.mpr (Or.inr hi)) hd

theorem notMem_of_queued (h : q.held.Nodup) (hi : i ∈ q.queuedIds) :
    i ∉ q.inFlight ∧ i ∉ q.deadIds := by
  refine ⟨fun hf => (notMem_of_inFlight h hf).1 hi, fun hd => ?_⟩
  unfold held at h
  rw [Multiset.nodup_add] at h
  exact Multiset.disjoint_left.mp h.2.2 (Multiset.mem_add.mpr (Or.inl hi)) hd

variable (q)

theorem held_popInFlight (h : i ∈ q.inFlight) : q.held = i ::ₘ (q.popInFlight i).held := by
  unfold held
  rw [q.inFlight_popInFlight h, Multiset.add_cons, Multiset.cons_add]
  rfl

theorem held_popInFlight_le (i : String) : (q.popInFlight i).held ≤ q.held := by
  by_cases hi : i ∈ q.inFlight
  · rw [q.held_popInFlight hi]
    exact le_cons_self _ _
  · refine le_of_eq ?_
    unfold held popInFlight
    rw [erase_of_not_mem hi]

theorem held_putInFlight_le (i : String) : (q.putInFlight i).held ≤ i ::ₘ q.held := by
  by_cases hi : i ∈ q.inFlight
  · have hsame : (q.putInFlight i).held = q.held := by
      unfold held putInFlight
      rw [if_pos hi]
    rw [hsame]
    exact le_cons_self _ _
  · refine le_of_eq ?_
    unfold held
    rw [q.inFlight_putInFlight hi, Multiset.add_cons, Multiset.cons_add]
    rfl

theorem held_appendQueued (name i : String) : (q.appendQueued name i).held = i ::ₘ q.held := by
  unfold held
  rw [q.queuedIds_appendQueued, Multiset.cons_add, Multiset.cons_add]
  rfl

theorem held_removeQueued (h : i ∈ (q.queued.get? name).getD []) :
    q.held = i ::ₘ (q.removeQueued name i).held := by
  unfold held
  rw [q.queuedIds_removeQueued h, Multiset.cons_add, Multiset.cons_add]
  rfl

/-- Enqueueing a task adds at most the task. -/
theorem held_enqueue_le (i : String) (now : Datetime) :
    (q.enqueue i now).2.held ≤ i ::ₘ q.held := by
  unfold enqueue
  split
  · exact le_cons_self _ _
  · split
    · exact le_cons_self _ _
    · split
      · exact le_cons_self _ _
      · exact le_of_eq (held_appendQueued _ _ i)

theorem held_ack_le (i : String) (workerId : Option String) : (q.ack i workerId).held ≤ q.held := by
  unfold ack
  split
  · exact q.held_popInFlight_le i
  · exact le_refl _

theorem held_moveToDeadLetter (i reason : String) (error : Option TaskError) :
    (q.moveToDeadLetter i reason error).held = i ::ₘ q.held := by
  have hdead : ((q.moveToDeadLetter i reason error).deadIds : Multiset String) =
      i ::ₘ q.deadIds := by
    show ((List.map taskId (q.deadLetters ++ [_]) : List String) :
      Multiset String) = _
    rw [map_append, map_singleton, Multiset.cons_coe, Multiset.coe_eq_coe]
    exact perm_append_singleton i _
  unfold held
  rw [hdead, Multiset.add_cons]
  rfl

theorem held_fail_le (i workerId : String) (error : TaskError) (now later : Datetime) :
    (q.fail i workerId error now later).2.held ≤ q.held := by
  unfold fail
  split
  · rename_i hi
    simp only
    rw [q.held_popInFlight hi]
    split
    · split
      · exact le_cons_self _ _
      · exact held_enqueue_le _ i later
    · exact le_of_eq (held_moveToDeadLetter _ i _ _)
  · exact le_refl _

theorem held_startTask_le (handlers : List String) (workerId i : String) (now later : Datetime) :
    (q.startTask handlers workerId i now later).2.held ≤ q.held := by
  unfold startTask
  split
  · exact held_fail_le (q.setStatus i .failed) i workerId _ now later
  · simp only
    split
    · exact le_refl _
    · exact held_fail_le (q.setStatus i .running) i workerId _ now later

theorem held_settleTask_le (workerId i : String) (outcome : HandlerOutcome) (now later : Datetime) :
    (q.settleTask workerId i outcome now later).2.held ≤ q.held := by
  unfold settleTask
  split
  · exact q.held_ack_le i _
  · exact q.held_fail_le i workerId _ now later
  · exact le_refl _

theorem held_cancel_le (hkeys : q.queued.keys.Nodup) (i : String) :
    (q.cancel i).2.held ≤ q.held := by
  unfold cancel
  split
  · rename_i name ids hfind
    have hget := get?_of_mem hkeys (mem_of_find?_eq_some hfind)
    have hmem : i ∈ (q.queued.get? name).getD [] := by
      rw [hget]
      simpa using find?_some hfind
    rw [q.held_removeQueued hmem]
    exact le_cons_self _ _
  · split
    · exact q.held_popInFlight_le i
    · exact le_refl _

theorem held_requeueDeadLetter (i : String) : (q.requeueDeadLetter i).2.held = q.held := by
  unfold requeueDeadLetter
  split
  · rename_i hi
    simp only
    refine (held_appendQueued _ _ i).trans ?_
    unfold held
    rw [← Multiset.add_cons]
    congr 1
    show i ::ₘ ((q.deadLetters.eraseP _).map taskId : List String) =
      (q.deadIds : Multiset String)
    rw [map_taskId_eraseP, ← Multiset.coe_erase]
    exact Multiset.cons_erase hi
  · rfl

/-! ## Leases -/

/-- A task was taken for a worker: it was given to the worker, or lost by an overflow. -/
structure Granted (q : InMemoryTaskQueue) (workerId : String)
    (r : Except WorkerError (Option String) × InMemoryTaskQueue) (i : String) : Prop where
  frame : q.Frame r.2 i
  held : r.2.held ≤ q.held
  leasedBy : (r.2.tasks i).leasedBy = some workerId
  notQueued : i ∉ r.2.queuedIds
  result : r.1 = .ok (some i) ∨ ((∃ e, r.1 = .error e) ∧ i ∉ r.2.inFlight)

theorem granted_leaseOne (h : q.held.Nodup) (workerId : String) {queueNames : List String}
    {leaseSeconds : Option ℤ} {now : Datetime}
    (hcandidate : q.leaseCandidate? queueNames now = some (name, i)) :
    q.Granted workerId (q.leaseOne workerId queueNames leaseSeconds now) i := by
  have hmem := (q.leaseCandidate?_spec hcandidate).1
  have hqueued := q.mem_queuedIds_of_get? hmem
  have hremoved := q.held_removeQueued hmem
  have hnot : i ∉ (q.removeQueued name i).held := by
    rw [hremoved] at h
    exact (Multiset.nodup_cons.mp h).1
  have hnotQueued : i ∉ (q.removeQueued name i).queuedIds := fun hq => hnot (mem_held.mpr (Or.inl hq))
  have hframe : q.Frame ((q.removeQueued name i).updateTask i fun t =>
      { t with status := .leased, leasedBy := some workerId, attempts := t.attempts + 1 }) i :=
    (q.frame_removeQueued hmem).trans (frame_updateTask _ (by intro t; rfl) i)
  unfold leaseOne
  simp only [hcandidate]
  split
  · refine ⟨hframe, ?_, ?_, hnotQueued, Or.inr ⟨⟨_, rfl⟩, (notMem_of_queued h hqueued).1⟩⟩
    · rw [hremoved]
      exact le_cons_self _ _
    · simp
  · refine ⟨?_, ?_, ?_, hnotQueued, Or.inl rfl⟩
    · exact ((hframe.trans (frame_updateTask _ (by intro t; rfl) i)).trans
        (frame_putInFlight _ i)).trans (frame_recordEvent _ _ i _)
    · rw [hremoved]
      exact held_putInFlight_le _ i
    · simp

theorem granted_reclaimStale (h : q.held.Nodup) (workerId : String) {queueNames : List String}
    {reference : Datetime}
    (hstale : q.inFlight.find? (fun i => q.Stale queueNames reference i) = some i) :
    q.Granted workerId (q.reclaimStale workerId queueNames reference) i := by
  have hi : i ∈ q.inFlight := mem_of_find?_eq_some hstale
  rcases notMem_of_inFlight h hi with ⟨hnotQueued, -, hpopped⟩
  have hframe : q.Frame ((q.popInFlight i).updateTask i fun t =>
      { t with status := .leased, leasedBy := some workerId }) i :=
    (q.frame_popInFlight i).trans (frame_updateTask _ (by intro t; rfl) i)
  unfold reclaimStale
  simp only [hstale]
  split
  · refine ⟨hframe, q.held_popInFlight_le i, ?_, hnotQueued, Or.inr ⟨⟨_, rfl⟩, hpopped⟩⟩
    simp
  · refine ⟨?_, ?_, ?_, hnotQueued, Or.inl rfl⟩
    · exact ((hframe.trans (frame_updateTask _ (by intro t; rfl) i)).trans
        (frame_putInFlight _ i)).trans (frame_recordEvent _ _ i _)
    · rw [q.held_popInFlight hi]
      exact held_putInFlight_le _ i
    · simp

end InMemoryTaskQueue

end Workers
