/-
# What fences promise

The calls that owners of side effects make, in any order, and what a run of them is to keep: the
attempts at an effect follow one another, its outcome is recorded once and for the latest
attempt, and a call that raises or comes too late changes nothing.
-/
import AgoraHub.SideEffectStore
import AgoraHub.StepRuns

open Fallible StepRuns

namespace HarnessSideEffects

/-! ## Calls -/

/-- A call, with what it reads from the clock. -/
inductive Call (Ref M : Type) where
  | putDecision (decision : HarnessSideEffectDecision Ref)
  | acquireAttempt (decision : HarnessSideEffectDecision Ref) (ownerId leaseId : String)
      (now : Datetime)
  | renewAttempt (attempt : HarnessSideEffectAttemptLease Ref) (checkedAt now : Datetime)
  | finishAttempt (attempt : HarnessSideEffectAttemptLease Ref) (terminationConfirmed : Bool)
      (now : Datetime)
  | completeAttempt (attempt : HarnessSideEffectAttemptLease Ref)
      (outcome : HarnessSideEffectOutcome Ref M) (checkedAt now : Datetime)
  | reconcileAttempt (attempt : HarnessSideEffectAttemptLease Ref)
      (outcome : HarnessSideEffectOutcome Ref M) (now : Datetime)
  | setDisposition (effectId disposition : String) (identityScopeRef subjectScopeRef : Ref)

/-- What a call returns. -/
inductive Reply (Ref M : Type) where
  | decision (decision : HarnessSideEffectDecision Ref)
  | lease (lease : HarnessSideEffectAttemptLease Ref)
  | outcome (outcome : Option (HarnessSideEffectOutcome Ref M))
  deriving DecidableEq

namespace Call

variable {Ref M : Type}

/-- The readings of the clock, in their order. -/
def readings : Call Ref M → List Datetime
  | putDecision _ => []
  | acquireAttempt _ _ _ now => [now]
  | renewAttempt _ checkedAt now => [checkedAt, now]
  | finishAttempt _ _ now => [now]
  | completeAttempt _ _ checkedAt now => [checkedAt, now]
  | reconcileAttempt _ _ now => [now]
  | setDisposition _ _ _ _ => []

/-- The attempt that a call uses. -/
def attempt? : Call Ref M → Option (HarnessSideEffectAttemptLease Ref)
  | renewAttempt attempt _ _ => some attempt
  | finishAttempt attempt _ _ => some attempt
  | completeAttempt attempt _ _ _ => some attempt
  | reconcileAttempt attempt _ _ => some attempt
  | _ => none

/-- The outcome that a call records. -/
def outcome? : Call Ref M → Option (HarnessSideEffectOutcome Ref M)
  | completeAttempt _ outcome _ _ => some outcome
  | reconcileAttempt _ outcome _ => some outcome
  | _ => none

/-- The same call at another time. -/
def again (checkedAt now : Datetime) : Call Ref M → Call Ref M
  | completeAttempt attempt outcome _ _ => completeAttempt attempt outcome checkedAt now
  | reconcileAttempt attempt outcome _ => reconcileAttempt attempt outcome now
  | call => call

end Call

namespace InMemoryHarnessSideEffectStore

variable {Ref M : Type} [DecidableEq Ref] [DecidableEq M] (digests : Digests Ref M)
variable (store : InMemoryHarnessSideEffectStore Ref M)

/-- An answer of an operation that changes the store only when it returns. -/
def replied {α : Type} (reply : α → Reply Ref M)
    (result : Except SideEffectError (α × InMemoryHarnessSideEffectStore Ref M)) :
    Except SideEffectError (Reply Ref M) × InMemoryHarnessSideEffectStore Ref M :=
  match result with
  | .error e => (.error e, store)
  | .ok (value, after) => (.ok (reply value), after)

/-- The answer to a call and the store that it leaves. -/
def answer : Call Ref M →
    Except SideEffectError (Reply Ref M) × InMemoryHarnessSideEffectStore Ref M
  | .putDecision decision =>
    let (result, after) := store.putDecision digests decision
    (result.map .decision, after)
  | .acquireAttempt decision ownerId leaseId now =>
    let (result, after) := store.acquireAttempt digests decision ownerId leaseId now
    (result.map .lease, after)
  | .renewAttempt attempt checkedAt now =>
    store.replied .lease (store.renewAttempt attempt checkedAt now)
  | .finishAttempt attempt terminationConfirmed now =>
    store.replied .lease (store.finishAttempt attempt terminationConfirmed now)
  | .completeAttempt attempt outcome checkedAt now =>
    let (result, after) := store.completeAttempt digests attempt outcome checkedAt now
    (result.map fun outcome => .outcome (some outcome), after)
  | .reconcileAttempt attempt outcome now =>
    let (result, after) := store.reconcileAttempt digests attempt outcome now
    (result.map fun outcome => .outcome (some outcome), after)
  | .setDisposition effectId disposition identityScopeRef subjectScopeRef =>
    let (result, after) :=
      store.setDisposition digests effectId disposition identityScopeRef subjectScopeRef
    (result.map .outcome, after)

/-- The store after a call. -/
def step (call : Call Ref M) : InMemoryHarnessSideEffectStore Ref M := (store.answer digests call).2

/-! ## The attempts at an effect -/

/-- The attempts at an effect, in the order in which they were acquired. -/
def attemptsOf (identityKey : Ref) : List (HarnessSideEffectAttemptLease Ref) :=
  store.attemptLeasesById.values.filter fun attempt =>
    digests.identityKey attempt.toEffectIdentity = identityKey

/-- The latest attempt at an effect. -/
def latest (identityKey : Ref) : Option (HarnessSideEffectAttemptLease Ref) :=
  (store.attemptsOf digests identityKey).getLast?

/-- The fences of a store: generations count the attempts at an effect up to the limit of its
decision, and an outcome is the only one of its effect and of its key. -/
structure Fenced : Prop where
  generations : ∀ key, (store.attemptsOf digests key).map (·.fencingGeneration) =
    List.range' 1 (store.attemptsOf digests key).length
  limited : ∀ key, ∀ attempt ∈ store.attemptsOf digests key,
    ∃ decision, store.decisionsByIdentity.get? key = some decision ∧
      (store.attemptsOf digests key).length ≤ decision.effectAttemptLimit
  indexed : ∀ idempotencyKey outcome, store.outcomesByIdempotency.get? idempotencyKey = some outcome ↔
    outcome.idempotencyKey = idempotencyKey ∧
      store.outcomesByIdentity.get? (digests.identityKey outcome.toEffectIdentity) = some outcome
  identified : ∀ key outcome, store.outcomesByIdentity.get? key = some outcome →
    digests.identityKey outcome.toEffectIdentity = key

/-- Two outcomes that differ only in the disposition and in what follows from it. -/
def SameButDisposition (outcome outcome' : HarnessSideEffectOutcome Ref M) : Prop :=
  outcome' = { outcome with
    disposition := outcome'.disposition
    publicRefs := outcome'.publicRefs
    reasonCode := outcome'.reasonCode }

/-- What a call keeps. -/
structure Keeps (call : Call Ref M) : Prop where
  /-- A lease that is returned is one of the attempts at its effect. -/
  returned : ∀ lease, (store.answer digests call).1 = .ok (.lease lease) →
    lease ∈ (store.step digests call).attemptsOf digests (digests.identityKey lease.toEffectIdentity)
  /-- No attempt begins before the earlier ones are terminated, or after an outcome. -/
  created : ∀ key,
    (store.attemptsOf digests key).length < ((store.step digests call).attemptsOf digests key).length →
      (∀ attempt ∈ store.attemptsOf digests key, attempt.status = .terminated) ∧
        store.outcomesByIdentity.get? key = none
  /-- No attempt disappears. -/
  remains : ∀ key, (store.attemptsOf digests key).map (·.attemptId) <+:
    ((store.step digests call).attemptsOf digests key).map (·.attemptId)
  /-- An outcome is recorded for the latest attempt. -/
  recorded : ∀ key outcome, store.outcomesByIdentity.get? key = none →
    (store.step digests call).outcomesByIdentity.get? key = some outcome →
      ∃ attempt, store.latest digests key = some attempt ∧
        outcome.attemptId = some attempt.attemptId ∧
        outcome.fencingGeneration = some attempt.fencingGeneration
  /-- What is recorded stays, and only its disposition changes. -/
  kept : ∀ key outcome, store.outcomesByIdentity.get? key = some outcome →
    ∃ outcome', (store.step digests call).outcomesByIdentity.get? key = some outcome' ∧
      SameButDisposition outcome outcome'
  /-- A call with another attempt than the latest changes nothing. -/
  stale : ∀ attempt, call.attempt? = some attempt →
    (∀ last, store.latest digests (digests.identityKey attempt.toEffectIdentity) = some last →
      last.attemptId ≠ attempt.attemptId) → store.step digests call = store
  /-- A call that raises changes nothing. -/
  raised : ∀ e, (store.answer digests call).1 = .error e → store.step digests call = store

/-- A call leaves the disposition of the outcome of an effect. -/
def KeepsDisposition (identityKey : Ref) (call : Call Ref M) : Prop :=
  ∀ outcome outcome', store.outcomesByIdentity.get? identityKey = some outcome →
    (store.step digests call).outcomesByIdentity.get? identityKey = some outcome' →
      outcome'.disposition = outcome.disposition

/-- A run keeps the fences, and a call that recorded an outcome can be repeated until a disposition
changes. -/
structure RunsFenced (attemptLeaseMicros : ℕ) (calls : List (Call Ref M)) : Prop where
  fenced : ∀ before, before <+: calls →
    (run (step digests) (empty attemptLeaseMicros) before).Fenced digests
  keeps : Along (step digests) (Keeps digests) (empty attemptLeaseMicros) calls
  repeats : ∀ before call later outcome committed, before ++ call :: later <+: calls →
    call.outcome? = some outcome →
    ((run (step digests) (empty attemptLeaseMicros) before).answer digests call).1 =
      .ok (.outcome (some committed)) →
    Along (step digests)
      (fun store call =>
        store.KeepsDisposition digests (digests.identityKey outcome.toEffectIdentity) call)
      (run (step digests) (empty attemptLeaseMicros) (before ++ [call])) later →
    ∀ checkedAt now,
      (run (step digests) (empty attemptLeaseMicros) (before ++ call :: later)).answer digests
          (call.again checkedAt now) =
        (.ok (.outcome (some committed)),
          run (step digests) (empty attemptLeaseMicros) (before ++ call :: later))

/-- The effects with an attempt that `set_disposition` cannot tell apart. -/
def leasesOf (effectId : String) (identityScopeRef subjectScopeRef : Ref) :
    List (HarnessSideEffectAttemptLease Ref) :=
  (store.attemptLeasesByIdentity.values.filter fun lease => lease.effectId = effectId).filter
    fun lease => lease.identityScopeRef = identityScopeRef ∧ lease.subjectScopeRef = subjectScopeRef

/-- The call changes the disposition of an outcome whose effect id and scopes are those of the
attempts at more than one effect. -/
def RedisposesAmbiguously : Call Ref M → Prop
  | .setDisposition effectId disposition identityScopeRef subjectScopeRef =>
    (∃ outcome next, store.redisposable effectId disposition identityScopeRef subjectScopeRef =
      .ok (some (outcome, some next))) ∧
      1 < (store.leasesOf effectId identityScopeRef subjectScopeRef).length
  | _ => False

end InMemoryHarnessSideEffectStore

end HarnessSideEffects
