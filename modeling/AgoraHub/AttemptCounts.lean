/-
# Budgets, retry credits and capacity of attempts

The admission half of `AttemptSupervisor.run` as threads over the shared counters:
the local budget of each operation, the retry ledger and the execution capacity.
Every acquisition and release is an action of its own, so the calls interleave at
each of them.  A call on another thread waits while the budget's lock is held.

What the callables, sinks and callbacks do is the `Event` of an action: they return
(`ok`) or they raise, or the start window is closed (`fails`).
-/
import AgoraHub.ThreadPool

open ThreadPool StepRuns

namespace AttemptCounts

open Option

variable {ι : Type*} [DecidableEq ι]

/-! ## The counters -/

/-- The limits that the counters are created with: `max_attempts` of each budget,
`max_total_retries` and `max_active`. -/
structure Limits (ι : Type*) where
  maxAttempts : ι → ℕ
  maxTotalRetries : ℕ
  maxActive : ℕ

/-- The shared counters: the used count of each operation's `LocalRetryBudget` and whether its lock
is held, `_used_retries` of the ledger and `_active` of the capacity.  `emitted` records the attempts
whose start has been emitted: the operation and its `local_attempt_no`. -/
@[ext] structure Counters (ι : Type*) where
  used : ι → ℕ
  locked : ι → Bool
  usedRetries : ℕ
  active : ℕ
  emitted : List (ι × ℕ)

namespace Counters

/-- The counters before any call. -/
def initial : Counters ι := ⟨fun _ => 0, fun _ => false, 0, 0, []⟩

section

variable (s : Counters ι)

/-- The numbers of an operation's started attempts, in the order of their starts. -/
def attemptNos (o : ι) : List ℕ :=
  (s.emitted.filter (fun e => e.1 = o)).map Prod.snd

/-- The started attempts that are retries. -/
def retries : ℕ := s.emitted.countP (fun e => 1 < e.2)

/-- `local_budget._lock.acquire()`: none while it is held. -/
def acquireLock (o : ι) : Option (Counters ι) :=
  if s.locked o then none else some { s with locked := Function.update s.locked o true }

/-- `local_budget._lock.release()`: none (an error) where it is not held. -/
def releaseLock (o : ι) : Option (Counters ι) :=
  if s.locked o then some { s with locked := Function.update s.locked o false } else none

/-- `local_budget._used = used`. -/
def setUsed (o : ι) (used : ℕ) : Counters ι :=
  { s with used := Function.update s.used o used }

/-- `local_budget._used -= 1`: none (an error) at zero. -/
def returnAttempt (o : ι) : Option (Counters ι) :=
  if 0 < s.used o then some (s.setUsed o (s.used o - 1)) else none

end

/-- `retry_ledger.claim()`: none where it raises. -/
def claimCredit (c : Limits ι) (s : Counters ι) : Option (Counters ι) :=
  if s.usedRetries < c.maxTotalRetries then some { s with usedRetries := s.usedRetries + 1 }
  else none

/-- `retry_ledger.rollback()`: none (an error) at zero. -/
def returnCredit (s : Counters ι) : Option (Counters ι) :=
  if 0 < s.usedRetries then some { s with usedRetries := s.usedRetries - 1 } else none

/-- `capacity.acquire()`: none where it returns false. -/
def acquireSlot (c : Limits ι) (s : Counters ι) : Option (Counters ι) :=
  if s.active < c.maxActive then some { s with active := s.active + 1 } else none

/-- `capacity.release()`: none (an error) at zero. -/
def releaseSlot (s : Counters ι) : Option (Counters ι) :=
  if 0 < s.active then some { s with active := s.active - 1 } else none

end Counters

/-! ## The calls -/

/-- Where a call of `run` is. -/
inductive Phase where
  /-- before the cancellation and window test -/
  | entered
  /-- before `local_budget.can_claim()` -/
  | windowOpen
  /-- before reading `local_budget.used` -/
  | budgetOpen
  /-- before `retry_ledger.can_claim()` -/
  | needsCredit
  /-- before `capacity.acquire()` -/
  | acquiring
  /-- the slot is taken, before `local_budget._lock.acquire()` -/
  | reserving
  /-- inside `_reserve_attempt`, with the lock -/
  | holding
  /-- `_reserve_attempt` raises, before the release of the lock -/
  | unlocking
  /-- reserved, before the second test of the start window -/
  | reserved (no : ℕ)
  /-- before the started sink -/
  | starting (no : ℕ)
  /-- the start is emitted, before `reservation.commit()` -/
  | started (no : ℕ)
  /-- before the decrement of `reservation.rollback()` -/
  | rollingBack (no : ℕ) (raising : Bool)
  /-- before `retry_ledger.rollback()` -/
  | refunding (no : ℕ) (raising : Bool)
  /-- rolled back, before the release of the lock -/
  | returned (raising : Bool)
  /-- nothing reserved, before `capacity.release()` -/
  | unwinding (raising : Bool)
  /-- committed, before `prepare` -/
  | committed (no : ℕ)
  /-- `prepare` has raised, before `capacity.release()` -/
  | unprepared (no : ℕ)
  /-- the callable runs -/
  | running (no : ℕ)
  /-- the callable has finished, or never runs -/
  | finished (no : ℕ)
  /-- the call was rejected -/
  | rejected
  /-- the call raised, since the started sink did -/
  | raised
  deriving DecidableEq

/-- A call of `run` on an operation. -/
@[ext] structure Call (ι : Type*) where
  operation : ι
  phase : Phase

/-- What the code outside the counters does at an action. -/
inductive Event where
  | ok
  | fails
  deriving DecidableEq

/-- A call enters `run`. -/
def enter (o : ι) : Call ι := ⟨o, .entered⟩

/-- The next action of a call, where it is enabled. -/
def act (c : Limits ι) (s : Counters ι) (r : Call ι) (e : Event) : Option (Counters ι × Call ι) :=
  let o := r.operation
  match r.phase with
  | .entered =>
    -- `_snapshots` reads the budget under its lock, then cancellation and window are tested
    if s.locked o then none
    else some (s, ⟨o, if e = .ok then .windowOpen else .rejected⟩)
  | .windowOpen =>
    if s.locked o then none
    else some (s, ⟨o, if s.used o < c.maxAttempts o then .budgetOpen else .rejected⟩)
  | .budgetOpen =>
    if s.locked o then none
    else some (s, ⟨o, if 0 < s.used o then .needsCredit else .acquiring⟩)
  | .needsCredit =>
    some (s, ⟨o, if s.usedRetries < c.maxTotalRetries then .acquiring else .rejected⟩)
  | .acquiring =>
    match s.acquireSlot c with
    | some s' => some (s', ⟨o, .reserving⟩)
    | none => some (s, ⟨o, .rejected⟩)
  | .reserving => (s.acquireLock o).map fun s' => (s', ⟨o, .holding⟩)
  | .holding =>
    let no := s.used o + 1
    if c.maxAttempts o ≤ s.used o then some (s, ⟨o, .unlocking⟩)
    else if 1 < no then
      match s.claimCredit c with
      | some s' => some (s'.setUsed o no, ⟨o, .reserved no⟩)
      | none => some (s, ⟨o, .unlocking⟩)
    else some (s.setUsed o no, ⟨o, .reserved no⟩)
  | .unlocking => (s.releaseLock o).map fun s' => (s', ⟨o, .unwinding false⟩)
  | .reserved no => some (s, ⟨o, if e = .ok then .starting no else .rollingBack no false⟩)
  | .starting no =>
    if e = .ok then some ({ s with emitted := s.emitted ++ [(o, no)] }, ⟨o, .started no⟩)
    else some (s, ⟨o, .rollingBack no true⟩)
  | .started no => (s.releaseLock o).map fun s' => (s', ⟨o, .committed no⟩)
  | .rollingBack no raising =>
    (s.returnAttempt o).map fun s' =>
      (s', ⟨o, if 1 < no then .refunding no raising else .returned raising⟩)
  | .refunding _ raising => s.returnCredit.map fun s' => (s', ⟨o, .returned raising⟩)
  | .returned raising => (s.releaseLock o).map fun s' => (s', ⟨o, .unwinding raising⟩)
  | .unwinding raising =>
    s.releaseSlot.map fun s' => (s', ⟨o, if raising then .raised else .rejected⟩)
  | .committed no => some (s, ⟨o, if e = .ok then .running no else .unprepared no⟩)
  | .unprepared no => s.releaseSlot.map fun s' => (s', ⟨o, .finished no⟩)
  | .running no => s.releaseSlot.map fun s' => (s', ⟨o, .finished no⟩)
  | .finished _ | .rejected | .raised => none

/-- The counters and calls after a schedule. -/
def after (c : Limits ι) (moves : List (Move ι Event)) : Pool (Counters ι) (Call ι) :=
  run (step enter (act c)) ⟨.initial, []⟩ moves

namespace Phase

/-- The call holds its budget's lock. -/
@[simp] def holdsLock : Phase → Bool
  | .holding | .unlocking | .reserved _ | .starting _ | .started _ | .rollingBack _ _
  | .refunding _ _ | .returned _ => true
  | _ => false

/-- The call has counted an attempt in its budget, and not taken it back. -/
@[simp] def holdsAttempt : Phase → Bool
  | .reserved _ | .starting _ | .started _ | .rollingBack _ _ | .committed _ | .unprepared _
  | .running _ | .finished _ => true
  | _ => false

/-- The call has taken a retry credit, and not given it back. -/
@[simp] def holdsCredit : Phase → Bool
  | .reserved no | .starting no | .started no | .rollingBack no _ | .committed no | .unprepared no
  | .running no | .finished no => 1 < no
  | .refunding _ _ => true
  | _ => false

/-- The call has taken a slot, and not given it back. -/
@[simp] def holdsSlot : Phase → Bool
  | .reserving | .holding | .unlocking | .reserved _ | .starting _ | .started _ | .rollingBack _ _
  | .refunding _ _ | .returned _ | .unwinding _ | .committed _ | .unprepared _ | .running _ => true
  | _ => false

/-- The call is between its reservation (its slot is the first part of it) and the commit, or the
end of the rollback. -/
@[simp] def midReservation : Phase → Bool
  | .reserving | .holding | .unlocking | .reserved _ | .starting _ | .started _ | .rollingBack _ _
  | .refunding _ _ | .returned _ | .unwinding _ => true
  | _ => false

/-- The attempt is admitted and its callable has not finished. -/
@[simp] def unfinished : Phase → Bool
  | .committed _ | .unprepared _ | .running _ => true
  | _ => false

/-- The number of the call's attempt, where its start can still be emitted. -/
@[simp] def heldNo : Phase → Option ℕ
  | .reserved no | .starting no => some no
  | _ => none

/-- The number of the call's attempt, where its start has been emitted. -/
@[simp] def emittedNo : Phase → Option ℕ
  | .started no | .committed no | .unprepared no | .running no | .finished no => some no
  | _ => none

end Phase

/-- The phases that one action goes through. -/
inductive Next : Phase → Phase → Prop
  | opens : Next .entered .windowOpen
  | closes : Next .entered .rejected
  | claimable : Next .windowOpen .budgetOpen
  | exhausted : Next .windowOpen .rejected
  | retries : Next .budgetOpen .needsCredit
  | first : Next .budgetOpen .acquiring
  | credited : Next .needsCredit .acquiring
  | uncredited : Next .needsCredit .rejected
  | acquires : Next .acquiring .reserving
  | full : Next .acquiring .rejected
  | locks : Next .reserving .holding
  | refuses : Next .holding .unlocking
  | reserves (no : ℕ) : Next .holding (.reserved no)
  | unlocks : Next .unlocking (.unwinding false)
  | stays (no : ℕ) : Next (.reserved no) (.starting no)
  | shuts (no : ℕ) : Next (.reserved no) (.rollingBack no false)
  | starts (no : ℕ) : Next (.starting no) (.started no)
  | raises (no : ℕ) : Next (.starting no) (.rollingBack no true)
  | commits (no : ℕ) : Next (.started no) (.committed no)
  | retry (no : ℕ) (raising : Bool) (h : 1 < no) :
      Next (.rollingBack no raising) (.refunding no raising)
  | single (no : ℕ) (raising : Bool) (h : ¬ 1 < no) :
      Next (.rollingBack no raising) (.returned raising)
  | refunds (no : ℕ) (raising : Bool) : Next (.refunding no raising) (.returned raising)
  | frees (raising : Bool) : Next (.returned raising) (.unwinding raising)
  | rejects : Next (.unwinding false) .rejected
  | reraises : Next (.unwinding true) .raised
  | prepares (no : ℕ) : Next (.committed no) (.running no)
  | aborts (no : ℕ) : Next (.committed no) (.unprepared no)
  | drops (no : ℕ) : Next (.unprepared no) (.finished no)
  | finishes (no : ℕ) : Next (.running no) (.finished no)

/-! ## What one action changes -/

/-- A truth value as a count. -/
def count (b : Bool) : ℤ := if b then 1 else 0

@[simp] theorem count_true : count true = 1 := rfl

@[simp] theorem count_false : count false = 0 := rfl

theorem count_nonneg (b : Bool) : 0 ≤ count b := by cases b <;> simp

namespace Counters

/-- From `s` to `s'` an operation's lock and used count, the credits and the slots have changed by
these numbers, and the starts with numbers `log` have been added. -/
structure Changes (s s' : Counters ι) (o : ι) (lock used credits slots : ℤ) (log : List ℕ) :
    Prop where
  lock : ∀ o', count (s'.locked o') = count (s.locked o') + if o = o' then lock else 0
  used : ∀ o', (s'.used o' : ℤ) = s.used o' + if o = o' then used else 0
  usedRetries : (s'.usedRetries : ℤ) = s.usedRetries + credits
  active : (s'.active : ℤ) = s.active + slots
  emitted : s'.emitted = s.emitted ++ log.map fun no => (o, no)

theorem Changes.refl (s : Counters ι) (o : ι) : Changes s s o 0 0 0 0 [] := by
  constructor <;> simp

variable {s s' : Counters ι}

theorem changes_acquireLock {o : ι} (h : s.acquireLock o = some s') :
    Changes s s' o 1 0 0 0 [] := by
  unfold acquireLock at h
  split at h
  · cases h
  · rename_i hfree
    cases h
    refine ⟨fun o' => ?_, by simp, by simp, by simp, by simp⟩
    by_cases ho : o = o'
    · subst ho
      simp [hfree]
    · simp [ho, Ne.symm ho]

theorem changes_releaseLock {o : ι} (h : s.releaseLock o = some s') :
    Changes s s' o (-1) 0 0 0 [] := by
  unfold releaseLock at h
  split at h
  · rename_i hheld
    cases h
    refine ⟨fun o' => ?_, by simp, by simp, by simp, by simp⟩
    by_cases ho : o = o'
    · subst ho
      simp [hheld]
    · simp [ho, Ne.symm ho]
  · cases h

theorem changes_setUsed (s : Counters ι) (o : ι) (used : ℕ) :
    Changes s (s.setUsed o used) o 0 (used - s.used o) 0 0 [] := by
  refine ⟨by simp [setUsed], fun o' => ?_, by simp [setUsed], by simp [setUsed], by simp [setUsed]⟩
  by_cases ho : o = o'
  · subst ho
    simp [setUsed]
  · simp [setUsed, ho, Ne.symm ho]

theorem changes_returnAttempt {o : ι} (h : s.returnAttempt o = some s') :
    Changes s s' o 0 (-1) 0 0 [] := by
  unfold returnAttempt at h
  split at h
  · rename_i hpos
    cases h
    have hmove := changes_setUsed s o (s.used o - 1)
    rwa [show ((s.used o - 1 : ℕ) : ℤ) - s.used o = -1 by omega] at hmove
  · cases h

theorem changes_claimCredit {c : Limits ι} (o : ι) (h : s.claimCredit c = some s') :
    Changes s s' o 0 0 1 0 [] := by
  unfold claimCredit at h
  split at h
  · cases h
    constructor <;> simp
  · cases h

theorem changes_returnCredit (o : ι) (h : s.returnCredit = some s') :
    Changes s s' o 0 0 (-1) 0 [] := by
  unfold returnCredit at h
  split at h
  · cases h
    constructor <;> simp
    omega
  · cases h

theorem changes_acquireSlot {c : Limits ι} (o : ι) (h : s.acquireSlot c = some s') :
    Changes s s' o 0 0 0 1 [] := by
  unfold acquireSlot at h
  split at h
  · cases h
    constructor <;> simp
  · cases h

theorem changes_releaseSlot (o : ι) (h : s.releaseSlot = some s') :
    Changes s s' o 0 0 0 (-1) [] := by
  unfold releaseSlot at h
  split at h
  · cases h
    constructor <;> simp
    omega
  · cases h

/-- Two changes one after the other. -/
theorem Changes.trans {s t u : Counters ι} {o : ι} {l l' n n' k k' a a' : ℤ} {log log' : List ℕ}
    (h : Changes s t o l n k a log) (h' : Changes t u o l' n' k' a' log') :
    Changes s u o (l + l') (n + n') (k + k') (a + a') (log ++ log') := by
  constructor
  · intro o'
    have h₁ := h.lock o'
    have h₂ := h'.lock o'
    split at h₁ <;> split at h₂ <;> split <;> simp_all <;> omega
  · intro o'
    have h₁ := h.used o'
    have h₂ := h'.used o'
    split at h₁ <;> split at h₂ <;> split <;> simp_all <;> omega
  · rw [h'.usedRetries, h.usedRetries, add_assoc]
  · rw [h'.active, h.active, add_assoc]
  · rw [h'.emitted, h.emitted, List.map_append, List.append_assoc]

/-- The share that a call gains. -/
@[simp] def gain (f : Phase → Bool) (r r' : Call ι) : ℤ := count (f r'.phase) - count (f r.phase)

/-- The start that an action emits. -/
@[simp] def startOf (r r' : Call ι) : List ℕ :=
  if r.phase.emittedNo = none then r'.phase.emittedNo.toList else []

/-- A call whose action goes on to the next phase and has the changes of its shares. -/
structure Acts (s s' : Counters ι) (r r' : Call ι) : Prop where
  operation : r'.operation = r.operation
  next : Next r.phase r'.phase
  changes : Changes s s' r.operation (gain Phase.holdsLock r r') (gain Phase.holdsAttempt r r')
    (gain Phase.holdsCredit r r') (gain Phase.holdsSlot r r') (startOf r r')

/-- Every action changes the counters by what it changes in the shares of its call. -/
theorem acts_of_act {c : Limits ι} {r r' : Call ι} {e : Event} (h : act c s r e = some (s', r')) :
    Acts s s' r r' := by
  rcases r with ⟨o, phase⟩
  cases phase with
  | entered | windowOpen | budgetOpen =>
    simp only [act] at h
    split at h
    · cases h
    · cases h
      refine ⟨rfl, ?_, ?_⟩
      · dsimp only
        split <;> constructor
      · split <;> exact Changes.refl s o
  | needsCredit =>
    cases h
    refine ⟨rfl, ?_, ?_⟩
    · dsimp only
      split <;> constructor
    · dsimp only
      split <;> exact Changes.refl s o
  | acquiring =>
    simp only [act] at h
    split at h
    · rename_i s₁ hslot
      cases h
      exact ⟨rfl, by constructor, changes_acquireSlot o hslot⟩
    · cases h
      exact ⟨rfl, by constructor, Changes.refl s o⟩
  | reserving =>
    rcases map_eq_some_iff.mp h with ⟨s₁, hlock, heq⟩
    cases heq
    exact ⟨rfl, by constructor, changes_acquireLock hlock⟩
  | holding =>
    have hset : ∀ t : Counters ι, t.used o = s.used o →
        Changes t (t.setUsed o (s.used o + 1)) o 0 1 0 0 [] := by
      intro t ht
      have hmove := changes_setUsed t o (s.used o + 1)
      rwa [ht, show ((s.used o + 1 : ℕ) : ℤ) - s.used o = 1 by omega] at hmove
    simp only [act] at h
    split at h
    · cases h
      exact ⟨rfl, by constructor, Changes.refl s o⟩
    split at h
    · rename_i hretry
      split at h
      · rename_i s₁ hcredit
        cases h
        have hclaim := changes_claimCredit o hcredit
        have hsame : s₁.used o = s.used o := by
          have hused := hclaim.used o
          simp only [ite_self, add_zero] at hused
          exact_mod_cast hused
        have hmoves := hclaim.trans (hset s₁ hsame)
        refine ⟨rfl, by constructor, ?_⟩
        simpa [hretry] using hmoves
      · cases h
        exact ⟨rfl, by constructor, Changes.refl s o⟩
    · rename_i hfirst
      cases h
      refine ⟨rfl, by constructor, ?_⟩
      simpa [hfirst] using hset s rfl
  | unlocking | returned raising =>
    rcases map_eq_some_iff.mp h with ⟨s₁, hlock, heq⟩
    cases heq
    exact ⟨rfl, by constructor, changes_releaseLock hlock⟩
  | reserved no | committed no =>
    cases h
    refine ⟨rfl, ?_, ?_⟩
    · dsimp only
      split <;> constructor
    · dsimp only
      split <;> simpa using Changes.refl s o
  | starting no =>
    simp only [act] at h
    split at h
    · cases h
      refine ⟨rfl, by constructor, ?_⟩
      constructor <;> simp
    · cases h
      refine ⟨rfl, by constructor, ?_⟩
      simpa using Changes.refl s o
  | started no =>
    rcases map_eq_some_iff.mp h with ⟨s₁, hlock, heq⟩
    cases heq
    refine ⟨rfl, by constructor, ?_⟩
    simpa using changes_releaseLock hlock
  | rollingBack no raising =>
    rcases map_eq_some_iff.mp h with ⟨s₁, hreturn, heq⟩
    cases heq
    split
    · rename_i hretry
      refine ⟨rfl, .retry no raising hretry, ?_⟩
      simpa [hretry] using changes_returnAttempt hreturn
    · rename_i hfirst
      refine ⟨rfl, .single no raising hfirst, ?_⟩
      simpa [hfirst] using changes_returnAttempt hreturn
  | refunding no raising =>
    rcases map_eq_some_iff.mp h with ⟨s₁, hreturn, heq⟩
    cases heq
    exact ⟨rfl, by constructor, changes_returnCredit o hreturn⟩
  | unwinding raising =>
    rcases map_eq_some_iff.mp h with ⟨s₁, hslot, heq⟩
    cases heq
    refine ⟨rfl, ?_, ?_⟩
    · cases raising <;> constructor
    · cases raising <;> exact changes_releaseSlot o hslot
  | unprepared no | running no =>
    rcases map_eq_some_iff.mp h with ⟨s₁, hslot, heq⟩
    cases heq
    refine ⟨rfl, by constructor, ?_⟩
    simpa using changes_releaseSlot o hslot
  | finished no => cases h
  | rejected => cases h
  | raised => cases h

end Counters

end AttemptCounts
