/-
# The places of the tasks of a queue

Every task that the queue has accepted is queued, in flight, a dead letter or
closed (acked or cancelled).  The invariant says so, and that the keys of the
unfinished tasks are distinct.  A step that moves one task, or lets one in, keeps
it when the key of a task that becomes active is free.
-/
import AgoraHub.WorkerQueue
import AgoraHub.Placement

namespace Workers

open Fallible Placement List PyDict

/-! ## The places of a task -/

/-- Where an accepted task can be. -/
inductive Place where
  | queued | inFlight | deadLetter | closed
  deriving DecidableEq

instance : Fintype Place where
  elems := {.queued, .inFlight, .deadLetter, .closed}
  complete := by
    intro p
    cases p <;> decide

/-- The places of unfinished tasks. -/
def Place.Active : Place → Prop
  | .queued => True
  | .inFlight => True
  | _ => False

namespace InMemoryTaskQueue

variable (q : InMemoryTaskQueue)

/-- The tasks of each place, given those that were acked or cancelled. -/
def places (closed : List String) : Place → Multiset String
  | .queued => q.queuedIds
  | .inFlight => q.inFlight
  | .deadLetter => q.deadIds
  | .closed => closed

@[simp] theorem places_queued (closed : List String) : q.places closed .queued = q.queuedIds := rfl

@[simp] theorem places_inFlight (closed : List String) :
    q.places closed .inFlight = q.inFlight := rfl

@[simp] theorem places_deadLetter (closed : List String) :
    q.places closed .deadLetter = q.deadIds := rfl

@[simp] theorem places_closed (closed : List String) : q.places closed .closed = closed := rfl

variable {i : String}

theorem mem_activeIds_iff {q : InMemoryTaskQueue} {closed : List String} :
    i ∈ q.activeIds ↔ ∃ p : Place, p.Active ∧ i ∈ q.places closed p := by
  unfold activeIds
  rw [mem_append]
  constructor
  · rintro (h | h)
    · exact ⟨.queued, trivial, h⟩
    · exact ⟨.inFlight, trivial, h⟩
  · rintro ⟨p, hp, h⟩
    cases p with
    | queued => exact Or.inl h
    | inFlight => exact Or.inr h
    | deadLetter => exact hp.elim
    | closed => exact hp.elim

/-! ## What the primitive changes do -/

theorem queuedIds_eq_sumOf : (q.queuedIds : Multiset String) = q.queued.sumOf Multiset.ofList := by
  unfold queuedIds PyDict.sumOf
  induction q.queued.values with
  | nil => rfl
  | cons ids rest ih =>
    rw [flatten_cons, ← Multiset.coe_add, ih, map_cons, sum_cons]

theorem sumOf_set (d : PyDict String (List String)) (name : String) (ids : List String) :
    (d.set name ids).sumOf Multiset.ofList + ((d.get? name).getD []) =
      d.sumOf Multiset.ofList + ids := by
  cases hget : d.get? name with
  | none =>
    rw [sumOf_set_new _ ids hget, Option.getD_none, Multiset.coe_nil, add_zero]
  | some old => exact sumOf_set_present _ ids hget

theorem queuedIds_appendQueued (name i : String) :
    ((q.appendQueued name i).queuedIds : Multiset String) = i ::ₘ q.queuedIds := by
  have h := sumOf_set q.queued name ((q.queued.get? name).getD [] ++ [i])
  rw [queuedIds_eq_sumOf, queuedIds_eq_sumOf]
  rw [← Multiset.coe_add, ← add_assoc, add_right_comm] at h
  have hsum := add_right_cancel h
  show (q.queued.set name _).sumOf _ = _
  rw [hsum, add_comm]
  rfl

variable {name : String}

theorem queuedIds_removeQueued (h : i ∈ (q.queued.get? name).getD []) :
    (q.queuedIds : Multiset String) = i ::ₘ (q.removeQueued name i).queuedIds := by
  have hsum := sumOf_set q.queued name (((q.queued.get? name).getD []).erase i)
  have hold : (((q.queued.get? name).getD [] : List String) : Multiset String) =
      {i} + (((q.queued.get? name).getD []).erase i : List String) := by
    rw [← Multiset.coe_erase, Multiset.singleton_add, Multiset.cons_erase h]
  rw [hold, ← add_assoc] at hsum
  have hcancel := add_right_cancel hsum
  rw [queuedIds_eq_sumOf, queuedIds_eq_sumOf, ← hcancel, add_comm]
  rfl

theorem inFlight_popInFlight (h : i ∈ q.inFlight) :
    (q.inFlight : Multiset String) = i ::ₘ (q.popInFlight i).inFlight := by
  show (q.inFlight : Multiset String) = i ::ₘ (q.inFlight.erase i : List String)
  rw [← Multiset.coe_erase, Multiset.cons_erase h]

theorem inFlight_putInFlight (h : i ∉ q.inFlight) :
    ((q.putInFlight i).inFlight : Multiset String) = i ::ₘ q.inFlight := by
  show ((if i ∈ q.inFlight then q.inFlight else q.inFlight ++ [i] : List String) :
    Multiset String) = _
  rw [if_neg h, ← Multiset.coe_add, add_comm]
  rfl

theorem map_taskId_eraseP (records : List DeadLetterRecord) (i : String) :
    (records.eraseP fun record => record.taskId = i).map DeadLetterRecord.taskId =
      (records.map DeadLetterRecord.taskId).erase i := by
  rw [erase_eq_eraseP', eraseP_map]
  rfl

/-! ## Which task is taken -/

theorem leaseCandidate?_spec {queueNames : List String} {now : Datetime}
    (h : q.leaseCandidate? queueNames now = some (name, i)) :
    i ∈ (q.queued.get? name).getD [] ∧ ¬ (q.tasks i).Delayed now := by
  unfold leaseCandidate? at h
  rcases exists_of_findSome?_eq_some h with ⟨name', -, hname⟩
  rcases Option.map_eq_some_iff.mp hname with ⟨j, hj, heq⟩
  cases heq
  refine ⟨mem_of_find?_eq_some hj, ?_⟩
  simpa using find?_some hj

theorem mem_queuedIds_of_get? (h : i ∈ (q.queued.get? name).getD []) : i ∈ q.queuedIds := by
  cases hget : q.queued.get? name with
  | none =>
    rw [hget] at h
    simp at h
  | some ids =>
    rw [hget] at h
    exact mem_flatten.mpr ⟨ids, mem_values_of_get? hget, h⟩

end InMemoryTaskQueue

/-- What an operation keeps of a task object. -/
structure Task.SameOrigin (t t' : Task) : Prop where
  queueName : t'.queueName = t.queueName
  dedupKey : t'.dedupKey = t.dedupKey
  admission : taskAdmissionError t' = taskAdmissionError t

/-! ## The invariant -/

/-- A queue with what is known of its history: the accepted tasks, and those that were acked or
cancelled. -/
structure QueueRun where
  queue : InMemoryTaskQueue
  accepted : List String := []
  closed : List String := []

namespace QueueRun

/-- The places of the tasks. -/
def places (s : QueueRun) : Place → Multiset String := s.queue.places s.closed

/-- The invariant of the queue. -/
structure Kept (s : QueueRun) : Prop where
  total : Placement.total s.places = s.accepted
  nodup : s.accepted.Nodup
  queues : s.queue.queued.keys.Nodup
  admitted : ∀ i ∈ s.accepted, taskAdmissionError (s.queue.tasks i) = none
  unfinished : ∀ i ∈ s.queue.activeIds, (s.queue.tasks i).status ∈ TaskStatus.unfinished
  distinct : ∀ i ∈ s.queue.activeIds, ∀ j ∈ s.queue.activeIds, ∀ key,
    (s.queue.tasks i).dedupKey = some key → (s.queue.tasks j).dedupKey = some key → i = j

variable {s : QueueRun}

theorem Kept.nodup_total (h : s.Kept) : (Placement.total s.places).Nodup := by
  rw [h.total, Multiset.coe_nodup]
  exact h.nodup

theorem Kept.mem_accepted (h : s.Kept) {i : String} {p : Place} (hi : i ∈ s.places p) :
    i ∈ s.accepted := by
  have hmem : i ∈ Placement.total s.places := mem_total.mpr ⟨p, hi⟩
  rwa [h.total, Multiset.mem_coe] at hmem

theorem Kept.place_unique (h : s.Kept) {i : String} (p p' : Place) (hp : i ∈ s.places p)
    (hp' : i ∈ s.places p') : p = p' :=
  eq_of_mem_of_mem h.nodup_total hp hp'

theorem Kept.mem_active_of_place {i : String} {p : Place} (hp : p.Active) (hi : i ∈ s.places p) :
    i ∈ s.queue.activeIds :=
  InMemoryTaskQueue.mem_activeIds_iff.mpr ⟨p, hp, hi⟩

variable {s' : QueueRun}

/-- A step that changes one task object. -/
theorem Kept.of_change (h : s.Kept) (a : String)
    (htotal : Placement.total s'.places = s'.accepted) (hnodup : s'.accepted.Nodup)
    (hqueues : s'.queue.queued.keys.Nodup) (haccepted : ∀ i ∈ s'.accepted, i ≠ a → i ∈ s.accepted)
    (hadmitted : a ∈ s'.accepted → taskAdmissionError (s.queue.tasks a) = none)
    (hothers : ∀ b, b ≠ a → s'.queue.tasks b = s.queue.tasks b)
    (horigin : (s.queue.tasks a).SameOrigin (s'.queue.tasks a))
    (hactive : ∀ i ∈ s'.queue.activeIds, i ≠ a → i ∈ s.queue.activeIds)
    (hstatus : a ∈ s'.queue.activeIds → (s'.queue.tasks a).status ∈ TaskStatus.unfinished)
    (hkey : a ∈ s'.queue.activeIds → ∀ b ∈ s.queue.activeIds, b ≠ a → ∀ key,
      (s.queue.tasks a).dedupKey = some key → (s.queue.tasks b).dedupKey ≠ some key) : s'.Kept := by
  refine ⟨htotal, hnodup, hqueues, ?_, ?_, ?_⟩
  · intro i hi
    by_cases hia : i = a
    · subst hia
      rw [horigin.admission]
      exact hadmitted hi
    · rw [hothers i hia]
      exact h.admitted i (haccepted i hi hia)
  · intro i hi
    by_cases hia : i = a
    · subst hia
      exact hstatus hi
    · rw [hothers i hia]
      exact h.unfinished i (hactive i hi hia)
  · intro i hi j hj key hik hjk
    by_cases hia : i = a
    · by_cases hja : j = a
      · rw [hia, hja]
      · subst hia
        rw [horigin.dedupKey] at hik
        rw [hothers j hja] at hjk
        exact (hkey hi j (hactive j hj hja) hja key hik hjk).elim
    · rw [hothers i hia] at hik
      by_cases hja : j = a
      · subst hja
        rw [horigin.dedupKey] at hjk
        exact (hkey hj i (hactive i hi hia) hia key hjk hik).elim
      · rw [hothers j hja] at hjk
        exact h.distinct i (hactive i hi hia) j (hactive j hj hja) key hik hjk

/-- A step that keeps the places and changes the lease of one of the unfinished tasks. -/
theorem Kept.of_same_places (h : s.Kept) (a : String) (hplaces : s'.places = s.places)
    (haccepted : s'.accepted = s.accepted) (hqueues : s'.queue.queued.keys.Nodup)
    (hothers : ∀ b, b ≠ a → s'.queue.tasks b = s.queue.tasks b)
    (horigin : (s.queue.tasks a).SameOrigin (s'.queue.tasks a))
    (hstatus : (s'.queue.tasks a).status ∈ TaskStatus.unfinished) : s'.Kept := by
  have hactive : ∀ i ∈ s'.queue.activeIds, i ∈ s.queue.activeIds := by
    intro i hi
    rcases InMemoryTaskQueue.mem_activeIds_iff.mp hi with ⟨p, hp, hmem⟩
    have hmem' : i ∈ s'.places p := hmem
    rw [hplaces] at hmem'
    exact Kept.mem_active_of_place hp hmem'
  refine h.of_change a ?_ ?_ hqueues ?_ ?_ hothers horigin (fun i hi _ => hactive i hi)
    (fun _ => hstatus) ?_
  · rw [hplaces, haccepted]; exact h.total
  · rw [haccepted]; exact h.nodup
  · intro i hi _
    exact haccepted ▸ hi
  · intro ha
    exact h.admitted a (haccepted ▸ ha)
  · intro ha b hb hba key hak hbk
    exact hba (h.distinct b hb a (hactive a ha) key hbk hak)

/-- A step that moves one task. -/
theorem Kept.of_moves (h : s.Kept) (a : String) (p p' : Place)
    (hmoves : Moves a p p' s.places s'.places) (haccepted : s'.accepted = s.accepted)
    (hqueues : s'.queue.queued.keys.Nodup)
    (hothers : ∀ b, b ≠ a → s'.queue.tasks b = s.queue.tasks b)
    (horigin : (s.queue.tasks a).SameOrigin (s'.queue.tasks a))
    (hstatus : p'.Active → (s'.queue.tasks a).status ∈ TaskStatus.unfinished)
    (hkey : p'.Active → ¬ p.Active → ∀ b ∈ s.queue.activeIds, ∀ key,
      (s.queue.tasks a).dedupKey = some key → (s.queue.tasks b).dedupKey ≠ some key) : s'.Kept := by
  have htotal : Placement.total s'.places = s'.accepted := by
    rw [hmoves.total_eq, haccepted, h.total]
  have hnodup : (Placement.total s'.places).Nodup := by
    rw [hmoves.total_eq]; exact h.nodup_total
  have hap : a ∈ s.places p := by rw [hmoves.source]; exact Multiset.mem_cons_self a _
  have hap' : a ∈ s'.places p' := by rw [hmoves.target]; exact Multiset.mem_cons_self a _
  -- the moved task is active after the step only when its new place is
  have hplace : a ∈ s'.queue.activeIds → p'.Active := by
    intro ha
    rcases InMemoryTaskQueue.mem_activeIds_iff.mp ha with ⟨r, hr, hmem⟩
    rw [← eq_of_mem_of_mem hnodup (i := r) hmem hap']
    exact hr
  refine h.of_change a htotal (haccepted ▸ h.nodup) hqueues (fun i hi _ => haccepted ▸ hi)
    (fun ha => h.admitted a (haccepted ▸ ha)) hothers horigin ?_ (fun ha => hstatus (hplace ha)) ?_
  · intro i hi hia
    rcases InMemoryTaskQueue.mem_activeIds_iff.mp hi with ⟨r, hr, hmem⟩
    refine Kept.mem_active_of_place hr ?_
    have hmem' : i ∈ s'.places r := hmem
    by_cases hrp' : r = p'
    · rw [hrp', hmoves.target, Multiset.mem_cons] at hmem'
      rw [hrp']
      exact hmem'.resolve_left hia
    · by_cases hrp : r = p
      · rw [hrp] at hmem' ⊢
        rw [hmoves.source]
        exact Multiset.mem_cons_of_mem hmem'
      · rw [hmoves.others r hrp hrp'] at hmem'
        exact hmem'
  · intro ha b hb hba key hak hbk
    by_cases hp : p.Active
    · exact hba (h.distinct b hb a (Kept.mem_active_of_place hp hap) key hbk hak)
    · exact hkey (hplace ha) hp b hb key hak hbk

/-- A step that accepts one task into a queue. -/
theorem Kept.of_enters (h : s.Kept) (a : String) (henters : Enters a .queued s.places s'.places)
    (hfresh : a ∉ s.accepted) (haccepted : s'.accepted = s.accepted ++ [a])
    (hqueues : s'.queue.queued.keys.Nodup)
    (hadmitted : taskAdmissionError (s.queue.tasks a) = none)
    (hothers : ∀ b, b ≠ a → s'.queue.tasks b = s.queue.tasks b)
    (horigin : (s.queue.tasks a).SameOrigin (s'.queue.tasks a))
    (hstatus : (s'.queue.tasks a).status ∈ TaskStatus.unfinished)
    (hkey : ∀ b ∈ s.queue.activeIds, ∀ key,
      (s.queue.tasks a).dedupKey = some key → (s.queue.tasks b).dedupKey ≠ some key) : s'.Kept := by
  refine h.of_change a ?_ ?_ hqueues ?_ (fun _ => hadmitted) hothers horigin ?_ (fun _ => hstatus)
    (fun _ b hb _ key => hkey b hb key)
  · rw [henters.total_eq, h.total, haccepted, Multiset.cons_coe, Multiset.coe_eq_coe]
    exact (perm_append_singleton a s.accepted).symm
  · rw [haccepted]
    exact nodup_append.mpr ⟨h.nodup, nodup_singleton a, by
      intro x hx y hy hxy
      rw [mem_singleton] at hy
      exact hfresh (hy ▸ hxy ▸ hx)⟩
  · intro i hi hia
    rw [haccepted, mem_append, mem_singleton] at hi
    exact hi.resolve_right hia
  · intro i hi hia
    rcases InMemoryTaskQueue.mem_activeIds_iff.mp hi with ⟨r, hr, hmem⟩
    refine Kept.mem_active_of_place hr ?_
    have hmem' : i ∈ s'.places r := hmem
    by_cases hrq : r = .queued
    · rw [hrq, henters.target, Multiset.mem_cons] at hmem'
      rw [hrq]
      exact hmem'.resolve_left hia
    · rw [henters.others r hrq] at hmem'
      exact hmem'

end QueueRun

end Workers
