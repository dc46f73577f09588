/-
# Admission of nested attempts

`AttemptSupervisor.run` up to the admitted context: the execution window inside the
parent's deadline and the root's hard deadline, and the cancellation tests.  Times
are rationals.

A tree of attempts is the list of the admitted contexts and the events that are set.
A call of `run` is two steps, since the tests are made twice: `request` makes the
first ones and waits with the context it would create, `start` repeats them.  The
budget, credit and capacity tests between them can reject a call in any state.
-/
import AgoraHub.StepRuns
import AgoraHub.Fallible

open Fallible StepRuns

namespace AttemptAdmission

open List Option

/-! ## Policies and limits -/

structure DeadlineAdmissionPolicy where
  timeoutSeconds : Option ℚ
  minStartWindowSeconds : ℚ
  cancellationGraceSeconds : ℚ
  completionReserveSeconds : ℚ
  timeout_pos : ∀ t ∈ timeoutSeconds, 0 < t
  window_nonneg : 0 ≤ minStartWindowSeconds
  grace_nonneg : 0 ≤ cancellationGraceSeconds
  reserve_nonneg : 0 ≤ completionReserveSeconds
  window_le_timeout : ∀ t ∈ timeoutSeconds, minStartWindowSeconds ≤ t

/-- A `threading.Event`: the one that an attempt creates for itself, or one that a caller gives. -/
inductive Event where
  | own (attempt : ℕ)
  | given (name : ℕ)
  deriving DecidableEq

/-- `ExecutionLimits`, as far as admission reads them. -/
structure ExecutionLimits where
  hardDeadline : Option ℚ
  verifyReserveSeconds : ℚ
  commitReserveSeconds : ℚ
  cancelEvent : Event
  verify_nonneg : 0 ≤ verifyReserveSeconds
  commit_nonneg : 0 ≤ commitReserveSeconds

def ExecutionLimits.rootReserveSeconds (l : ExecutionLimits) : ℚ :=
  l.verifyReserveSeconds + l.commitReserveSeconds

/-- `root_until`: the hard deadline without the root's reserves. -/
def ExecutionLimits.rootUntil (l : ExecutionLimits) : Option ℚ :=
  l.hardDeadline.map fun t => t - l.rootReserveSeconds

/-- What a child keeps free before a completion boundary. -/
def DeadlineAdmissionPolicy.childReserve (p : DeadlineAdmissionPolicy) : ℚ :=
  p.cancellationGraceSeconds + p.completionReserveSeconds

theorem DeadlineAdmissionPolicy.childReserve_nonneg (p : DeadlineAdmissionPolicy) :
    0 ≤ p.childReserve := add_nonneg p.grace_nonneg p.reserve_nonneg

/-! ## The execution window -/

/-- `min(values) if values else None`, over the values that are not `None`. -/
def earliest (values : List (Option ℚ)) : Option ℚ := (values.filterMap id).min?

/-- The calculation that admission reports. -/
structure WindowDetails where
  nowMonotonic : ℚ
  requestedUntil : Option ℚ
  parentAvailableUntil : Option ℚ
  rootAvailableUntil : Option ℚ
  completionUntil : Option ℚ
  effectiveDeadline : Option ℚ
  executionWindowSeconds : Option ℚ
  minStartWindowSeconds : ℚ
  cancellationGraceSeconds : ℚ
  completionReserveSeconds : ℚ

def computeAdmissionWindow (now : ℚ) (requestedTimeout : Option ℚ)
    (policy : DeadlineAdmissionPolicy) (parentAvailableDeadline : Option ℚ)
    (limits : Option ExecutionLimits) : WindowDetails :=
  let requestedUntil := (requestedTimeout.filter (fun t => 0 < t)).map fun t => now + t
  let parentUntil := parentAvailableDeadline
  let rootUntil := limits.bind ExecutionLimits.rootUntil
  let childReserve := policy.childReserve
  let effectiveDeadline := earliest [requestedUntil, parentUntil.map (fun t => t - childReserve),
    rootUntil.map (fun t => t - childReserve)]
  let completionUntil := earliest [requestedUntil.map (fun t => t + childReserve), parentUntil,
    rootUntil]
  { nowMonotonic := now
    requestedUntil := requestedUntil
    parentAvailableUntil := parentUntil
    rootAvailableUntil := rootUntil
    completionUntil := completionUntil
    effectiveDeadline := effectiveDeadline
    executionWindowSeconds := effectiveDeadline.map fun t => t - now
    minStartWindowSeconds := policy.minStartWindowSeconds
    cancellationGraceSeconds := policy.cancellationGraceSeconds
    completionReserveSeconds := policy.completionReserveSeconds }

/-- The earliest of some values is at most each of them. -/
theorem earliest_le {values : List (Option ℚ)} {t : ℚ} (h : some t ∈ values) :
    ∃ d, earliest values = some d ∧ d ≤ t := by
  have hmem : t ∈ values.filterMap id := mem_filterMap.mpr ⟨some t, h, rfl⟩
  unfold earliest
  cases hmin : (values.filterMap id).min? with
  | none =>
    rw [min?_eq_none_iff] at hmin
    rw [hmin] at hmem
    cases hmem
  | some d => exact ⟨d, rfl, (min?_eq_some_iff.mp hmin).2 t hmem⟩

/-- A deadline inside `bound` leaves the child's reserve. -/
def Within (policy : DeadlineAdmissionPolicy) (deadline bound : Option ℚ) : Prop :=
  ∀ t ∈ bound, ∃ d, deadline = some d ∧ d + policy.childReserve ≤ t

theorem within_parent (now : ℚ) (timeout : Option ℚ) (policy : DeadlineAdmissionPolicy)
    (parent : Option ℚ) (limits : Option ExecutionLimits) :
    Within policy (computeAdmissionWindow now timeout policy parent limits).effectiveDeadline
      parent := by
  intro t ht
  obtain rfl := mem_def.mp ht
  rcases @earliest_le [_, _, _] (t - policy.childReserve)
    (mem_cons_of_mem _ mem_cons_self) with ⟨d, hd, hle⟩
  exact ⟨d, hd, by linarith⟩

/-- The effective deadline is inside the root's hard deadline without its reserves. -/
theorem within_root (now : ℚ) (timeout : Option ℚ) (policy : DeadlineAdmissionPolicy)
    (parent : Option ℚ) (limits : Option ExecutionLimits) :
    Within policy (computeAdmissionWindow now timeout policy parent limits).effectiveDeadline
      (limits.bind ExecutionLimits.rootUntil) := by
  intro t ht
  have hmem : some (t - policy.childReserve) =
      (limits.bind ExecutionLimits.rootUntil).map (fun t => t - policy.childReserve) := by
    rw [mem_def.mp ht]
    rfl
  have hlast : some (t - policy.childReserve) ∈
      [(timeout.filter (fun t => 0 < t)).map (fun t => now + t),
        parent.map (fun t => t - policy.childReserve),
        (limits.bind ExecutionLimits.rootUntil).map (fun t => t - policy.childReserve)] := by
    rw [← hmem]
    simp
  obtain ⟨d, hd, hle⟩ := earliest_le hlast
  exact ⟨d, hd, by linarith⟩

/-! ## Contexts -/

/-- `AttemptContext`, as far as its descendants read it: `parent` is the parent context and
`parentCancelEvent` the parent's own event, or the one that the caller of a root gives.  `policy` is
the one that it was admitted with. -/
structure AttemptContext where
  parent : Option ℕ
  limits : Option ExecutionLimits
  deadline : Option ℚ
  policy : DeadlineAdmissionPolicy
  cancelEvent : Event
  parentCancelEvent : Option Event

/-- What admission rejects with. -/
inductive Rejection where
  | parentCancelledBeforeStart
  | deadlineAdmissionRejected
  | resourcesExhausted
  deriving DecidableEq

/-- A call of `run` that has passed the first tests. -/
structure Waiting where
  parent : Option ℕ
  limits : Option ExecutionLimits
  policy : DeadlineAdmissionPolicy
  deadline : Option ℚ
  cancelEvent : Option Event
  parentCancelEvent : Option Event

/-- The admitted contexts, the calls between the two tests and the events that are set. -/
structure Tree where
  contexts : List AttemptContext
  waiting : List Waiting
  isSet : Event → Bool

namespace Tree

/-- No attempt yet. -/
def empty : Tree := ⟨[], [], fun _ => false⟩

def set (t : Tree) (e : Event) : Tree := { t with isSet := Function.update t.isSet e true }

/-- An event that may be missing is set. -/
def hasSet (t : Tree) (e : Option Event) : Bool := e.any t.isSet

def cancelled (t : Tree) (c : AttemptContext) : Bool :=
  t.isSet c.cancelEvent || t.hasSet c.parentCancelEvent ||
    t.hasSet (c.limits.map ExecutionLimits.cancelEvent)

def cancelledBeforeStart (t : Tree) (parent : Option AttemptContext)
    (cancelEvent parentCancelEvent : Option Event) (limits : Option ExecutionLimits) : Bool :=
  parent.any t.cancelled || t.hasSet cancelEvent || t.hasSet parentCancelEvent ||
    t.hasSet (limits.map ExecutionLimits.cancelEvent)

end Tree

/-- The arguments of a call of `run` that admission reads.  A child gives its parent context and
inherits limits and deadline from it; a root gives them itself. -/
inductive Scope where
  | child (parent : ℕ)
  | root (limits : Option ExecutionLimits) (deadline : Option ℚ) (parentCancelEvent : Option Event)

/-- The parent of a scope. -/
def Scope.parent : Scope → Option ℕ
  | .child i => some i
  | .root _ _ _ => none

/-- A call of `run`: `resources` is what the budget, credit and capacity tests say. -/
structure Request where
  scope : Scope
  now : ℚ
  timeoutSeconds : Option ℚ
  policy : DeadlineAdmissionPolicy
  cancelEvent : Option Event
  resources : Bool

namespace Tree

/-- The parent context of a call. -/
def parentOf (t : Tree) (parent : Option ℕ) : Option AttemptContext := parent.bind (t.contexts[·]?)

/-- The limits, the available deadline and the parent's event of a call. -/
def inherited (t : Tree) : Scope → Option ExecutionLimits × Option ℚ × Option Event
  | .child i =>
    let context := t.parentOf (some i)
    (context.bind AttemptContext.limits, context.bind AttemptContext.deadline,
      context.map AttemptContext.cancelEvent)
  | .root limits deadline event => (limits, deadline, event)

/-- The first part of `run`: inheritance, window and tests, up to the second test. -/
def request (t : Tree) (q : Request) : Except Rejection Waiting := do
  let (limits, available, parentCancelEvent) := t.inherited q.scope
  let timeout := q.policy.timeoutSeconds.or q.timeoutSeconds
  let window := computeAdmissionWindow q.now timeout q.policy available limits
  require (t.cancelledBeforeStart (t.parentOf q.scope.parent) q.cancelEvent parentCancelEvent
    limits = false) .parentCancelledBeforeStart
  require (∀ w ∈ window.executionWindowSeconds, ¬ (w ≤ 0 ∨ w < q.policy.minStartWindowSeconds))
    .deadlineAdmissionRejected
  require (q.resources = true) .resourcesExhausted
  return ⟨q.scope.parent, limits, q.policy, window.effectiveDeadline, q.cancelEvent, parentCancelEvent⟩

/-- `_raise_if_start_window_closed` and the creation of the context. -/
def start (t : Tree) (w : Waiting) (now : ℚ) : Except Rejection AttemptContext := do
  require (t.cancelledBeforeStart (t.parentOf w.parent) w.cancelEvent w.parentCancelEvent
    w.limits = false) .parentCancelledBeforeStart
  require (∀ d ∈ w.deadline, ¬ (d - now ≤ 0 ∨ d - now < w.policy.minStartWindowSeconds))
    .deadlineAdmissionRejected
  return {
    parent := w.parent
    limits := w.limits
    deadline := w.deadline
    policy := w.policy
    cancelEvent := w.cancelEvent.getD (.own t.contexts.length)
    parentCancelEvent := w.parentCancelEvent }

end Tree

/-- A step of the attempts: a call reaches its second test, or makes it; `cancel()` is called on a
context; an event is set from outside; or the supervisor of a context polls it. -/
inductive Move where
  | request (q : Request)
  | start (k : ℕ) (now : ℚ)
  | cancel (i : ℕ)
  | set (name : ℕ)
  | poll (i : ℕ)

/-- One step. -/
def step (t : Tree) : Move → Tree
  | .request q =>
    -- a call can only be given a context that exists
    if ∀ i ∈ q.scope.parent, i < t.contexts.length then
      match t.request q with
      | .ok w => { t with waiting := t.waiting ++ [w] }
      | .error _ => t
    else t
  | .start k now =>
    match t.waiting[k]? with
    | none => t
    | some w =>
      let rest := t.waiting.eraseIdx k
      match t.start w now with
      | .ok c => { t with contexts := t.contexts ++ [c], waiting := rest }
      | .error _ => { t with waiting := rest }
  | .cancel i =>
    match t.contexts[i]? with
    | none => t
    | some c => t.set c.cancelEvent
  | .set name => t.set (.given name)
  | .poll i =>
    match t.contexts[i]? with
    | none => t
    | some c => if t.cancelled c then t.set c.cancelEvent else t

/-- The attempts after some steps. -/
def after (moves : List Move) : Tree := run step .empty moves

/-! ## What a step keeps -/

/-- A context and the parent context that it was created under. -/
structure Inherits (t : Tree) (parent : Option ℕ) (limits : Option ExecutionLimits)
    (policy : DeadlineAdmissionPolicy) (deadline : Option ℚ) (event : Option Event) : Prop where
  root : Within policy deadline (limits.bind ExecutionLimits.rootUntil)
  parent : ∀ p ∈ parent, ∃ c, t.contexts[p]? = some c ∧ limits = c.limits ∧
    event = some c.cancelEvent ∧ Within policy deadline c.deadline

/-- Every context, and every call that waits, is inside its parent. -/
structure Nested (t : Tree) : Prop where
  contexts : ∀ c ∈ t.contexts,
    Inherits t c.parent c.limits c.policy c.deadline c.parentCancelEvent
  waiting : ∀ w ∈ t.waiting,
    Inherits t w.parent w.limits w.policy w.deadline w.parentCancelEvent

variable {i : ℕ}

theorem getElem?_of_initial {α : Type*} {xs ys : List α} (h : xs <+: ys) {a : α}
    (hget : xs[i]? = some a) : ys[i]? = some a := by
  obtain ⟨hlt, rfl⟩ := List.getElem?_eq_some_iff.mp hget
  exact prefix_iff_getElem?.mp h i hlt

variable {policy : DeadlineAdmissionPolicy}

theorem Inherits.mono {t t' : Tree} {parent : Option ℕ} {limits : Option ExecutionLimits}
    {deadline : Option ℚ} {event : Option Event}
    (h : Inherits t parent limits policy deadline event) (hle : t.contexts <+: t'.contexts) :
    Inherits t' parent limits policy deadline event := by
  refine ⟨h.root, fun p hp => ?_⟩
  obtain ⟨c, hget, hrest⟩ := h.parent p hp
  exact ⟨c, getElem?_of_initial hle hget, hrest⟩

variable {t : Tree}

/-- What waits after the first tests is inside its parent. -/
theorem inherits_of_request {q : Request} {w : Waiting}
    (hparent : ∀ i ∈ q.scope.parent, i < t.contexts.length) (h : t.request q = .ok w) :
    Inherits t w.parent w.limits w.policy w.deadline w.parentCancelEvent := by
  unfold Tree.request at h
  simp only [check_bind_eq_ok] at h
  obtain ⟨-, -, -, h⟩ := h
  obtain rfl := pure_eq_ok_iff.mp h
  refine ⟨within_root _ _ _ _ _, fun i hi => ?_⟩
  have hlt := hparent i hi
  refine ⟨t.contexts[i], getElem?_eq_getElem hlt, ?_⟩
  cases hscope : q.scope with
  | root limits deadline event =>
    rw [hscope] at hi
    cases hi
  | child j =>
    rw [hscope] at hi
    obtain rfl := Option.some.inj hi
    have hget : t.parentOf (some j) = some t.contexts[j] := getElem?_eq_getElem hlt
    simp only [Tree.inherited, hget]
    exact ⟨rfl, rfl, within_parent _ _ _ _ _⟩

variable {c : AttemptContext}

theorem context_of_start {w : Waiting} {now : ℚ} (h : t.start w now = .ok c) :
    c.parent = w.parent ∧ c.limits = w.limits ∧ c.policy = w.policy ∧ c.deadline = w.deadline ∧
      c.parentCancelEvent = w.parentCancelEvent := by
  iterate 2 rcases check_inv h with ⟨-, h⟩
  cases h
  exact ⟨rfl, rfl, rfl, rfl, rfl⟩

/-- A step keeps the contexts, or it adds the one that a waiting call starts. -/
theorem contexts_step (t : Tree) (m : Move) : (step t m).contexts = t.contexts ∨
      ∃ w ∈ t.waiting, ∃ now c, t.start w now = .ok c ∧
        (step t m).contexts = t.contexts ++ [c] := by
  cases m with
  | request q =>
    left
    simp only [step]
    split
    · split <;> rfl
    · rfl
  | start k now =>
    simp only [step]
    split
    · left; rfl
    · rename_i w hget
      split
      · rename_i c hc
        right
        exact ⟨w, mem_of_getElem? hget, now, c, hc, rfl⟩
      · left; rfl
  | cancel i =>
    left
    simp only [step]
    split <;> rfl
  | set name => left; rfl
  | poll i =>
    left
    simp only [step]
    split
    · rfl
    · split <;> rfl

theorem prefix_step (t : Tree) (m : Move) : t.contexts <+: (step t m).contexts := by
  rcases contexts_step t m with h | ⟨w, -, now, c, -, h⟩
  · rw [h]
  · rw [h]
    exact prefix_append _ _

/-- Events are never cleared. -/
theorem isSet_step (t : Tree) (m : Move) {e : Event} (h : t.isSet e = true) :
    (step t m).isSet e = true := by
  have hset : ∀ e', (t.set e').isSet e = true := by
    intro e'
    by_cases he : e = e' <;> simp [Tree.set, he, h]
  cases m with
  | request q =>
    simp only [step]
    split
    · split <;> exact h
    · exact h
  | start k now =>
    simp only [step]
    split
    · exact h
    · split <;> exact h
  | cancel i =>
    simp only [step]
    split
    · exact h
    · exact hset _
  | set name => exact hset _
  | poll i =>
    simp only [step]
    split
    · exact h
    · split
      · exact hset _
      · exact h

/-- The calls that wait are the old ones and the one that the step adds. -/
theorem mem_waiting_step {m : Move} {w : Waiting} (hw : w ∈ (step t m).waiting) : w ∈ t.waiting ∨
      ∃ q, (∀ i ∈ q.scope.parent, i < t.contexts.length) ∧ t.request q = .ok w := by
  cases m with
  | request q =>
    simp only [step] at hw
    split at hw
    · rename_i hparent
      split at hw
      · rename_i u hu
        rcases mem_append.mp hw with hw | hw
        · exact Or.inl hw
        · obtain rfl := mem_singleton.mp hw
          exact Or.inr ⟨q, hparent, hu⟩
      · exact Or.inl hw
    · exact Or.inl hw
  | start k now =>
    left
    simp only [step] at hw
    split at hw
    · exact hw
    · split at hw <;> exact mem_of_mem_eraseIdx hw
  | cancel i =>
    left
    simp only [step] at hw
    split at hw <;> exact hw
  | set name => exact Or.inl hw
  | poll i =>
    left
    simp only [step] at hw
    split at hw
    · exact hw
    · split at hw <;> exact hw

theorem Nested.step (h : Nested t) (m : Move) : Nested (AttemptAdmission.step t m) := by
  have hle := prefix_step t m
  constructor
  · intro c hc
    rcases contexts_step t m with heq | ⟨w, hw, now, d, hstart, heq⟩
    · rw [heq] at hc
      exact (h.contexts c hc).mono hle
    rw [heq] at hc
    rcases mem_append.mp hc with hc | hc
    · exact (h.contexts c hc).mono hle
    · obtain rfl := mem_singleton.mp hc
      obtain ⟨hp, hl, hpolicy, hd, he⟩ := context_of_start hstart
      rw [hp, hl, hpolicy, hd, he]
      exact (h.waiting w hw).mono hle
  · intro w hw
    rcases mem_waiting_step hw with hold | ⟨q, hparent, hq⟩
    · exact (h.waiting w hold).mono hle
    · exact (inherits_of_request hparent hq).mono hle

theorem nested_run (h : Nested t) (moves : List Move) : Nested (run step t moves) := by
  induction moves generalizing t with
  | nil => exact h
  | cons m moves ih => exact ih (h.step m)

theorem nested_after (moves : List Move) : Nested (after moves) :=
  nested_run ⟨by simp [Tree.empty], by simp [Tree.empty]⟩ moves

theorem prefix_run (t : Tree) (moves : List Move) : t.contexts <+: (run step t moves).contexts := by
  induction moves generalizing t with
  | nil => exact prefix_refl _
  | cons m moves ih => exact (prefix_step t m).trans (ih (step t m))

theorem isSet_run {e : Event} (h : t.isSet e = true) (moves : List Move) :
    (run step t moves).isSet e = true := by
  induction moves generalizing t with
  | nil => exact h
  | cons m moves ih => exact ih (isSet_step t m h)

/-! ## Ancestors -/

/-- Attempt `p` is the parent of attempt `i`. -/
def Tree.IsParent (t : Tree) (p i : ℕ) : Prop :=
  p < t.contexts.length ∧ t.contexts[i]?.bind AttemptContext.parent = some p

instance (t : Tree) (p i : ℕ) : Decidable (t.IsParent p i) := inferInstanceAs (Decidable (_ ∧ _))

variable {p : ℕ}

theorem Tree.IsParent.exists_context (h : t.IsParent p i) :
    ∃ c, t.contexts[i]? = some c ∧ c.parent = some p := bind_eq_some_iff.mp h.2

/-- Attempt `a` is an ancestor of attempt `i`, through the attempts `between`. -/
def Tree.Lineage (t : Tree) : ℕ → List ℕ → ℕ → Prop
  | a, [], i => t.IsParent a i
  | a, p :: between, i => t.IsParent a p ∧ Lineage t p between i

instance decidableLineage (t : Tree) :
    ∀ (a : ℕ) (between : List ℕ) (i : ℕ), Decidable (t.Lineage a between i)
  | a, [], i => inferInstanceAs (Decidable (t.IsParent a i))
  | a, p :: between, i =>
    have := decidableLineage t p between i
    inferInstanceAs (Decidable (t.IsParent a p ∧ t.Lineage p between i))

variable {between : List ℕ}

theorem Tree.Lineage.exists_context {a : ℕ} (h : t.Lineage a between i) :
    ∃ c, t.contexts[a]? = some c := by
  cases between with
  | nil => exact ⟨_, getElem?_eq_getElem h.1⟩
  | cons p between => exact ⟨_, getElem?_eq_getElem h.1.1⟩

/-- A deadline inside another one, with both reserves or with the outer bound's alone. -/
theorem Within.trans {policy' : DeadlineAdmissionPolicy} {d d' b : Option ℚ}
    (h : Within policy d d') (h' : Within policy' d' b) : Within policy d b := by
  intro t ht
  obtain ⟨u, hu, hle⟩ := h' t ht
  obtain ⟨v, hv, hle'⟩ := h u hu
  have hpos := policy'.childReserve_nonneg
  exact ⟨v, hv, by linarith⟩

variable {d : AttemptContext}

/-- A child's deadline is inside its parent's, and it has the parent's limits. -/
theorem Nested.of_isParent (h : Nested t) (hi : t.IsParent p i) (hp : t.contexts[p]? = some d)
    (hc : t.contexts[i]? = some c) :
    c.limits = d.limits ∧ c.parentCancelEvent = some d.cancelEvent ∧
      Within c.policy c.deadline d.deadline := by
  obtain ⟨c', hc', hparent⟩ := hi.exists_context
  obtain rfl : c' = c := Option.some.inj (hc'.symm.trans hc)
  obtain ⟨d', hd', hrest⟩ := (h.contexts c' (mem_of_getElem? hc)).parent p hparent
  obtain rfl : d' = d := Option.some.inj (hd'.symm.trans hp)
  exact hrest

/-- A deadline is inside the deadline of every ancestor, and the limits are those of the root. -/
theorem Nested.of_lineage (h : Nested t) :
    ∀ {a i : ℕ} {d c : AttemptContext}, t.Lineage a between i → t.contexts[a]? = some d →
      t.contexts[i]? = some c → c.limits = d.limits ∧ Within c.policy c.deadline d.deadline := by
  induction between with
  | nil =>
    intro a i d c hl ha hi
    have hp := h.of_isParent hl ha hi
    exact ⟨hp.1, hp.2.2⟩
  | cons p between ih =>
    intro a i d c hl ha hi
    obtain ⟨u, hu⟩ := hl.2.exists_context
    have hp := h.of_isParent hl.1 ha hu
    obtain ⟨hlimits, hwithin⟩ := ih hl.2 hu hi
    exact ⟨hlimits.trans hp.1, hwithin.trans hp.2.2⟩

/-! ## Cancellation -/

theorem cancelled_of_isParent (h : Nested t) (hi : t.IsParent p i) (hp : t.contexts[p]? = some d)
    (hc : t.contexts[i]? = some c) (hset : t.isSet d.cancelEvent = true) :
    t.cancelled c = true := by
  have hevent := (h.of_isParent hi hp hc).2.1
  simp [Tree.cancelled, Tree.hasSet, hevent, hset]

/-- A call under a cancelled context is rejected by the first test and by the second one. -/
theorem rejected_of_cancelled (hc : t.contexts[i]? = some c) (hcancelled : t.cancelled c = true) :
    (∀ q : Request, q.scope.parent = some i →
      t.request q = .error .parentCancelledBeforeStart) ∧ ∀ w : Waiting, w.parent = some i → ∀ now,
      t.start w now = .error .parentCancelledBeforeStart := by
  have hparent : t.parentOf (some i) = some c := hc
  constructor
  · intro q hq
    unfold Tree.request
    dsimp only
    rw [require_of_neg _ (by simp [hq, hparent, Tree.cancelledBeforeStart, hcancelled])]
    rfl
  · intro w hw now
    unfold Tree.start
    rw [require_of_neg _ (by simp [hw, hparent, Tree.cancelledBeforeStart, hcancelled])]
    rfl

/-- Under a context that sees a cancellation nothing is admitted any more. -/
theorem exists_before {t : Tree} (h : Nested t) (hp : t.contexts[p]? = some d)
    (hset : t.isSet d.cancelEvent = true) (moves : List Move)
    (hi : (run step t moves).IsParent p i) : i < t.contexts.length := by
  induction moves generalizing t with
  | nil =>
    obtain ⟨c, hc, -⟩ := hi.exists_context
    exact (List.getElem?_eq_some_iff.mp hc).1
  | cons m moves ih =>
    have hle := prefix_step t m
    have hlt := ih (h.step m) (getElem?_of_initial hle hp) (isSet_step t m hset) hi
    rcases contexts_step t m with heq | ⟨w, -, now, u, hstart, heq⟩
    · rwa [heq] at hlt
    · by_contra hnew
      -- the context that the step adds would be a child of `p`
      have hlast : (step t m).contexts[i]? = some u := by
        rw [heq, length_append, length_singleton] at hlt
        rw [heq, show i = t.contexts.length by omega]
        simp
      obtain ⟨c, hc, hparent⟩ := hi.exists_context
      have hfinal := getElem?_of_initial (prefix_run (step t m) moves) hlast
      obtain rfl : u = c := Option.some.inj (hfinal.symm.trans hc)
      have hcancelled : t.cancelled d = true := by simp [Tree.cancelled, hset]
      have hw : w.parent = some p := (context_of_start hstart).1.symm.trans hparent
      rw [(rejected_of_cancelled hp hcancelled).2 w hw now] at hstart
      cases hstart

/-- Once an ancestor is cancelled and the supervisors in between have polled, top down, the
cancellation is seen. -/
theorem cancelled_of_polls : ∀ {t : Tree} {a i : ℕ} {d c : AttemptContext}
    {moves : List Move}, Nested t → t.contexts[a]? = some d → t.isSet d.cancelEvent = true →
      (run step t moves).Lineage a between i → (run step t moves).contexts[i]? = some c →
      (between.map Move.poll).Sublist moves → (run step t moves).cancelled c = true := by
  induction between with
  | nil =>
    intro t a i d c moves h ha hset hl hc _
    exact cancelled_of_isParent (nested_run h moves) hl
      (getElem?_of_initial (prefix_run t moves) ha) hc (isSet_run hset moves)
  | cons p between ih =>
    intro t a i d c moves h ha hset hl hc hpolls
    rw [map_cons] at hpolls
    obtain ⟨first, rest, rfl, hmem, hrest⟩ := cons_sublist_iff.mp hpolls
    obtain ⟨front, back, rfl⟩ := append_of_mem hmem
    -- the poll of `p` is made in `s`, where `p` sees its parent's event
    let s := run step t front
    have hs : Nested s := nested_run h front
    have ha' : s.contexts[a]? = some d := getElem?_of_initial (prefix_run t front) ha
    have hset' : s.isSet d.cancelEvent = true := isSet_run hset front
    have hsplit : run step t ((front ++ Move.poll p :: back) ++ rest) =
        run step (step s (.poll p)) (back ++ rest) := by
      rw [append_assoc, cons_append, run_append, run_cons]
    rw [hsplit] at hl hc ⊢
    have hp : p < s.contexts.length :=
      exists_before hs ha' hset' (.poll p :: (back ++ rest)) hl.1
    have hget : s.contexts[p]? = some s.contexts[p] := getElem?_eq_getElem hp
    have hparent : s.IsParent a p := by
      obtain ⟨u, hu, hup⟩ := hl.1.exists_context
      have hfinal := getElem?_of_initial
        (prefix_run s (.poll p :: (back ++ rest))) hget
      obtain rfl : s.contexts[p] = u := Option.some.inj (hfinal.symm.trans hu)
      refine ⟨(List.getElem?_eq_some_iff.mp ha').1, ?_⟩
      rw [hget]
      exact hup
    have hseen : s.cancelled s.contexts[p] = true :=
      cancelled_of_isParent hs hparent ha' hget hset'
    have hpolled : step s (.poll p) = s.set s.contexts[p].cancelEvent := by
      simp only [step, hget]
      rw [if_pos hseen]
    have hnow : (step s (.poll p)).isSet s.contexts[p].cancelEvent = true := by
      rw [hpolled]
      simp [Tree.set]
    have hget' : (step s (.poll p)).contexts[p]? = some s.contexts[p] :=
      getElem?_of_initial (prefix_step s _) hget
    exact ih (hs.step _) hget' hnow hl.2 hc (hrest.trans (sublist_append_right _ _))

/-! ## The tree of attempts -/

/-- `cancel()` on a context that is there sets its event. -/
theorem isSet_cancel {a : ℕ} (ha : t.contexts[a]? = some d) :
    (step t (.cancel a)).isSet d.cancelEvent = true := by
  simp [step, ha, Tree.set]

/-- The deadlines of nested attempts, and how far a cancellation reaches. -/
theorem nested_attempts (moves : List Move) (i : ℕ) (c : AttemptContext)
    (hc : (after moves).contexts[i]? = some c) :
    Within c.policy c.deadline (c.limits.bind ExecutionLimits.rootUntil) ∧
    (∀ a between d, (after moves).Lineage a between i → (after moves).contexts[a]? = some d →
      c.limits = d.limits ∧ Within c.policy c.deadline d.deadline ∧
      ∀ before later, moves = before ++ .cancel a :: later →
        a < (after before).contexts.length → (between.map Move.poll).Sublist later →
          (after moves).cancelled c = true) ∧
    (∀ l ∈ c.limits, (after moves).isSet l.cancelEvent = true → (after moves).cancelled c = true) ∧
    ((after moves).cancelled c = true → (∀ q : Request, q.scope.parent = some i →
        (after moves).request q = .error .parentCancelledBeforeStart) ∧
      ∀ w ∈ (after moves).waiting, w.parent = some i → ∀ now,
        (after moves).start w now = .error .parentCancelledBeforeStart) := by
  have h := nested_after moves
  refine ⟨(h.contexts c (mem_of_getElem? hc)).root, ?_, ?_, ?_⟩
  · intro a between d hl ha
    obtain ⟨hlimits, hwithin⟩ := h.of_lineage hl ha hc
    refine ⟨hlimits, hwithin, ?_⟩
    rintro before later rfl hlt hpolls
    have hstart : (after before).contexts[a]? = some (after before).contexts[a] :=
      getElem?_eq_getElem hlt
    have hsplit : after (before ++ .cancel a :: later) =
        run step (step (after before) (.cancel a)) later := by
      rw [after, run_append, run_cons]
      rfl
    rw [hsplit] at hl hc ⊢
    exact cancelled_of_polls ((nested_after before).step _)
      (getElem?_of_initial (prefix_step _ _) hstart) (isSet_cancel hstart) hl hc hpolls
  · intro l hlimits hset
    simp [Tree.cancelled, Tree.hasSet, mem_def.mp hlimits, hset]
  · intro hcancelled
    obtain ⟨hrequest, hstart⟩ := rejected_of_cancelled hc hcancelled
    exact ⟨hrequest, fun w _ => hstart w⟩

/-- A policy without limits of its own. -/
def freePolicy : DeadlineAdmissionPolicy where
  timeoutSeconds := none
  minStartWindowSeconds := 0
  cancellationGraceSeconds := 1
  completionReserveSeconds := 0
  timeout_pos := by simp
  window_nonneg := le_refl 0
  grace_nonneg := by norm_num
  reserve_nonneg := le_refl 0
  window_le_timeout := by simp

/-- A call of `run` with these arguments, up to its admission. -/
def admission (scope : Scope) : List Move :=
  [.request ⟨scope, 0, none, freePolicy, none, true⟩, .start 0 0]

/-- An attempt with a child and a grandchild. -/
def threeAttempts : List Move :=
  admission (.root none (some 10) none) ++ admission (.child 0) ++ admission (.child 1)

/-- The cancellation reaches the grandchild with the poll of the child. -/
theorem nested_attempts_three :
    ∃ c, (after (threeAttempts ++ [.cancel 0, .poll 1])).contexts[2]? = some c ∧
      (after (threeAttempts ++ [.cancel 0, .poll 1])).cancelled c = true := by
  have htwo : 2 < (after (threeAttempts ++ [.cancel 0, .poll 1])).contexts.length := by
    decide +kernel
  have hget := getElem?_eq_getElem htwo
  have ha := getElem?_eq_getElem (Nat.zero_lt_of_lt htwo)
  have hl : (after (threeAttempts ++ [.cancel 0, .poll 1])).Lineage 0 [1] 2 := by decide +kernel
  exact ⟨_, hget, ((nested_attempts _ 2 _ hget).2.1 0 [1] _ hl ha).2.2 threeAttempts [.poll 1] rfl
    (by decide +kernel) (List.Sublist.refl _)⟩

/-- Without the poll it does not. -/
theorem not_cancelled_of_ancestor : ¬ ∀ (moves : List Move) (a : ℕ) (between : List ℕ) (i : ℕ)
    (d c : AttemptContext), (after moves).Lineage a between i →
      (after moves).contexts[a]? = some d → (after moves).contexts[i]? = some c →
        (after moves).isSet d.cancelEvent = true → (after moves).cancelled c = true := by
  intro h
  have htwo : 2 < (after (threeAttempts ++ [.cancel 0])).contexts.length := by decide +kernel
  have hget := getElem?_eq_getElem htwo
  have ha := getElem?_eq_getElem (Nat.zero_lt_of_lt htwo)
  have hl : (after (threeAttempts ++ [.cancel 0])).Lineage 0 [1] 2 := by decide +kernel
  have hset : (after (threeAttempts ++ [.cancel 0])).contexts[0]?.any
      (fun d => (after (threeAttempts ++ [.cancel 0])).isSet d.cancelEvent) = true := by
    decide +kernel
  have hunseen : (after (threeAttempts ++ [.cancel 0])).contexts[2]?.any
      (fun c => (after (threeAttempts ++ [.cancel 0])).cancelled c) = false := by
    decide +kernel
  rw [ha, any_some] at hset
  rw [hget, any_some, h _ 0 [1] 2 _ _ hl ha hget hset] at hunseen
  cases hunseen

end AttemptAdmission
