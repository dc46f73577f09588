/-
# The operations of the side-effect store

What each operation can do to a store that meets the invariant: it leaves the store, or it makes
one of five writes.  Each of these keeps the invariant and what the fences promise.
-/
import Mathlib.Data.List.ReduceOption
import AgoraHub.SideEffectInvariant

open Fallible StepRuns

namespace HarnessSideEffects

open List InMemoryHarnessSideEffectStore HarnessSideEffectAttemptLease

namespace HarnessSideEffectAttemptLease

variable {Ref : Type} {lease lease' : HarnessSideEffectAttemptLease Ref}

/-- A renewed lease is the same attempt. -/
theorem follows_of_renewed {leaseExpiresAt : Datetime}
    (h : lease.renewed leaseExpiresAt = .ok lease') :
    InMemoryHarnessSideEffectStore.Follows lease lease' := by
  unfold renewed at h
  obtain ⟨hactive, h⟩ := check_inv h
  obtain ⟨-, h⟩ := check_inv h
  obtain ⟨rfl, hchecked⟩ := postInit_eq_ok.mp h
  refine ⟨⟨rfl, rfl, rfl, rfl, rfl, rfl, rfl, rfl⟩, hchecked, rfl, ?_⟩
  intro hterminated
  rw [of_require hactive] at hterminated
  cases hterminated

/-- A terminated attempt can be relinked. -/
theorem relinkedOutcome_eq (hchecked : lease.Checked) (hterminated : lease.status = .terminated)
    (outcomeRef : Ref) : ∃ next, lease.relinkedOutcome outcomeRef = .ok next ∧
      InMemoryHarnessSideEffectStore.Follows lease next := by
  unfold relinkedOutcome
  rw [check_of_pos hterminated]
  have hclosed := hchecked.closed (by simp [hterminated])
  have hc : ({ lease with outcomeRef := some outcomeRef } :
      HarnessSideEffectAttemptLease Ref).Checked := by
    refine ⟨hchecked.leaseId, hchecked.ownerId, hchecked.positive, hchecked.attempt_eq,
      hchecked.expires, hchecked.ordered, ?_, ?_⟩
    · intro hactive
      have hactive : lease.status = .active := hactive
      rw [hterminated] at hactive
      cases hactive
    · intro _
      exact ⟨hclosed.1, hclosed.2.1, by simp [hterminated]⟩
  exact ⟨_, postInit_eq_ok.mpr ⟨rfl, hc⟩, ⟨rfl, rfl, rfl, rfl, rfl, rfl, rfl, rfl⟩, hc, rfl, fun h => h⟩

/-- An attempt that is not terminated can be resolved from its acquisition on. -/
theorem resolved_eq (hchecked : lease.Checked) (hopen : lease.status ≠ .terminated)
    {now : Datetime} (hnow : lease.acquiredAt ≤ now) {confirmed : Bool} {outcomeRef : Option Ref}
    (href : confirmed = false → outcomeRef = none) :
    ∃ next, lease.resolved confirmed now outcomeRef = .ok next ∧
      InMemoryHarnessSideEffectStore.Follows lease next ∧
      (confirmed = true → next.status = .terminated) := by
  unfold resolved
  rw [if_neg hopen]
  set next : HarnessSideEffectAttemptLease Ref := { lease with
    status := if confirmed then .terminated else .indeterminate
    terminationConfirmed := confirmed
    resolvedAt := some now
    outcomeRef := outcomeRef } with hnext
  have hc : next.Checked := by
    refine ⟨hchecked.leaseId, hchecked.ownerId, hchecked.positive, hchecked.attempt_eq,
      hchecked.expires, ?_, ?_, ?_⟩
    · show decide (lease.acquiredAt ≤ now) = true
      rw [decide_eq_true_eq]
      exact hnow
    · intro hactive
      cases confirmed <;> simp [hnext] at hactive
    · intro _
      cases confirmed with
      | false => simp [hnext, href rfl]
      | true => simp [hnext]
  refine ⟨next, postInit_eq_ok.mpr ⟨rfl, hc⟩, ⟨⟨rfl, rfl, rfl, rfl, rfl, rfl, rfl, rfl⟩, hc, rfl, ?_⟩, ?_⟩
  · exact fun h => absurd h hopen
  · rintro rfl
    rfl

end HarnessSideEffectAttemptLease

namespace InMemoryHarnessSideEffectStore

variable {Ref M : Type} [DecidableEq Ref] {digests : Digests Ref M}
variable {store : InMemoryHarnessSideEffectStore Ref M} {time : Datetime}

/-! ## Attempts in use -/

variable {current : HarnessSideEffectAttemptLease Ref}

/-- The attempt of a call is the stored one, in the generation of the call. -/
theorem assertCurrentAttempt_eq_ok {attempt : HarnessSideEffectAttemptLease Ref} :
    store.assertCurrentAttempt attempt = .ok current ↔
      store.attemptLeasesById.get? attempt.attemptId = some current ∧
        SameAttemptGeneration current attempt := by
  unfold assertCurrentAttempt
  cases store.attemptLeasesById.get? attempt.attemptId with
  | none => simp
  | some stored =>
    show (if SameAttemptGeneration stored attempt then Except.ok stored else _) = _ ↔ _
    by_cases hsame : SameAttemptGeneration stored attempt
    · rw [if_pos hsame]
      constructor
      · intro h
        cases h
        exact ⟨rfl, hsame⟩
      · rintro ⟨h, -⟩
        rw [Option.some.inj h]
    · rw [if_neg hsame]
      constructor
      · intro h
        cases h
      · rintro ⟨h, hsame'⟩
        rw [← Option.some.inj h] at hsame'
        exact absurd hsame' hsame

/-- What a call with an attempt does: it raises, it returns what is stored, or it stores a new
version of the latest attempt. -/
inductive Uses (store : InMemoryHarnessSideEffectStore Ref M) (digests : Digests Ref M)
    (attempt : HarnessSideEffectAttemptLease Ref) :
    Except SideEffectError
      (HarnessSideEffectAttemptLease Ref × InMemoryHarnessSideEffectStore Ref M) → Prop
  | refused (e : SideEffectError) : Uses store digests attempt (.error e)
  | unchanged (current : HarnessSideEffectAttemptLease Ref)
      (stored : store.attemptLeasesById.get? current.attemptId = some current) :
      Uses store digests attempt (.ok (current, store))
  | replaced (current next : HarnessSideEffectAttemptLease Ref)
      (latest : store.latest digests (digests.identityKey current.toEffectIdentity) = some current)
      (same : SameAttemptGeneration current attempt) (follows : Follows current next) :
      Uses store digests attempt
        (.ok (next, store.writeAttempt (digests.identityKey current.toEffectIdentity) next))

theorem Attempted.get?_attemptId (h : store.Attempted digests time) {id : Ref}
    (hget : store.attemptLeasesById.get? id = some current) :
    store.attemptLeasesById.get? current.attemptId = some current := by
  rw [(h.leases id current hget).id_eq]
  exact hget

/-- `renew_attempt`. -/
theorem Attempted.renewAttempt (h : store.Attempted digests time)
    (attempt : HarnessSideEffectAttemptLease Ref) (checkedAt now : Datetime) :
    store.Uses digests attempt (store.renewAttempt attempt checkedAt now) := by
  cases hresult : store.renewAttempt attempt checkedAt now with
  | error e => exact .refused e
  | ok result =>
    unfold InMemoryHarnessSideEffectStore.renewAttempt at hresult
    obtain ⟨current, hcurrent, hresult⟩ := bind_inv hresult
    obtain ⟨hget, hsame⟩ := assertCurrentAttempt_eq_ok.mp hcurrent
    obtain ⟨haccepts, hresult⟩ := check_inv hresult
    obtain ⟨expiry, -, hresult⟩ := bind_inv hresult
    have hactive : current.status = .active := by
      unfold assertLeaseAcceptsResult at haccepts
      exact of_require (check_inv haccepts).1
    have hlatest := h.latest_of_ne_terminated hget (by simp [hactive])
    split at hresult
    · cases hresult
      exact .unchanged current (h.get?_attemptId hget)
    · obtain ⟨next, hnext, hresult⟩ := bind_inv hresult
      have hfollows := HarnessSideEffectAttemptLease.follows_of_renewed hnext
      rw [h.replaceAttempt_eq hfollows.same.1.symm hlatest, ok_bind] at hresult
      cases hresult
      exact .replaced current next hlatest hsame hfollows

variable {now : Datetime}

/-- `_resolve_current_attempt`, for an attempt that is not terminated. -/
theorem Attempted.resolveCurrentAttempt_eq (h : store.Attempted digests time) {id : Ref}
    (hget : store.attemptLeasesById.get? id = some current) (hopen : current.status ≠ .terminated)
    (hnow : time ≤ now) (confirmed : Bool) (outcomeRef : Option Ref)
    (href : confirmed = false → outcomeRef = none) :
    ∃ next, Follows current next ∧ (confirmed = true → next.status = .terminated) ∧
      store.resolveCurrentAttempt current confirmed outcomeRef now =
        .ok (next, store.writeAttempt (digests.identityKey current.toEffectIdentity) next) := by
  have hlease := h.leases id current hget
  rcases HarnessSideEffectAttemptLease.resolved_eq hlease.checked hopen
    (hlease.acquired.trans hnow) href with ⟨next, hnext, hfollows, hstatus⟩
  refine ⟨next, hfollows, hstatus, ?_⟩
  unfold resolveCurrentAttempt
  rw [hnext, ok_bind, h.replaceAttempt_eq hfollows.same.1.symm
    (h.latest_of_ne_terminated hget hopen), ok_bind]
  rfl

/-- `finish_attempt`. -/
theorem Attempted.finishAttempt (h : store.Attempted digests time)
    (attempt : HarnessSideEffectAttemptLease Ref) (confirmed : Bool) (hnow : time ≤ now) :
    store.Uses digests attempt (store.finishAttempt attempt confirmed now) := by
  cases hresult : store.finishAttempt attempt confirmed now with
  | error e => exact .refused e
  | ok result =>
    unfold InMemoryHarnessSideEffectStore.finishAttempt at hresult
    obtain ⟨current, hcurrent, hresult⟩ := bind_inv hresult
    obtain ⟨hget, hsame⟩ := assertCurrentAttempt_eq_ok.mp hcurrent
    split at hresult
    · obtain ⟨-, hresult⟩ := check_inv hresult
      cases hresult
      exact .unchanged current (h.get?_attemptId hget)
    · rename_i hopen
      split at hresult
      · cases hresult
        exact .unchanged current (h.get?_attemptId hget)
      · obtain ⟨next, hfollows, -, heq⟩ := h.resolveCurrentAttempt_eq hget hopen hnow confirmed none (fun _ => rfl)
        rw [heq] at hresult
        cases hresult
        exact .replaced current next (h.latest_of_ne_terminated hget hopen) hsame hfollows

/-! ## Outcomes in place -/

section Outcomes

variable [DecidableEq M]

theorem existingOutcome_of_stored {outcome : HarnessSideEffectOutcome Ref M}
    (h : store.outcomesByIdentity.get? (digests.identityKey outcome.toEffectIdentity) = some outcome) :
    store.existingOutcome digests outcome = .ok (some outcome) := by
  unfold existingOutcome
  rw [h]
  exact if_pos rfl

/-- What is found is the outcome itself, in its place. -/
theorem Recorded.of_existingOutcome (h : store.Recorded digests)
    {outcome existing : HarnessSideEffectOutcome Ref M}
    (hexisting : store.existingOutcome digests outcome = .ok (some existing)) : existing = outcome ∧
      store.outcomesByIdentity.get? (digests.identityKey outcome.toEffectIdentity) = some outcome := by
  unfold existingOutcome at hexisting
  cases hidentity : store.outcomesByIdentity.get? (digests.identityKey outcome.toEffectIdentity) with
  | some candidate =>
    rw [hidentity] at hexisting
    have hexisting : (if candidate = outcome then Except.ok (some candidate)
      else .error _) = Except.ok (some existing) := hexisting
    split at hexisting
    · rename_i he
      rw [← Option.some.inj (ok_inj hexisting)]
      exact ⟨he, congrArg some he⟩
    · cases hexisting
  | none =>
    cases hkey : store.outcomesByIdempotency.get? outcome.idempotencyKey with
    | some candidate =>
      rw [hidentity, hkey] at hexisting
      have hexisting : (if candidate = outcome then Except.ok (some candidate)
        else .error _) = Except.ok (some existing) := hexisting
      split at hexisting
      · rename_i he
        -- the index under the key has no outcome of its own
        have hstored := (h.keys _ candidate hkey).2
        rw [he, hidentity] at hstored
        cases hstored
      · cases hexisting
    | none =>
      rw [hidentity, hkey] at hexisting
      cases ok_inj hexisting

/-- Nothing is found only where both places are empty. -/
theorem of_existingOutcome_none {outcome : HarnessSideEffectOutcome Ref M}
    (h : store.existingOutcome digests outcome = .ok none) :
    store.outcomesByIdentity.get? (digests.identityKey outcome.toEffectIdentity) = none ∧
      store.outcomesByIdempotency.get? outcome.idempotencyKey = none := by
  unfold existingOutcome at h
  dsimp only at h
  split at h
  · split at h
    · cases ok_inj h
    · cases h
  · rename_i hnil
    cases hidentity : store.outcomesByIdentity.get? (digests.identityKey outcome.toEffectIdentity)
    · cases hkey : store.outcomesByIdempotency.get? outcome.idempotencyKey
      · exact ⟨rfl, rfl⟩
      · rw [hidentity, hkey] at hnil
        cases hnil
    · rw [hidentity] at hnil
      cases hnil

/-- An outcome that is bound to an attempt. -/
structure Bound (store : InMemoryHarnessSideEffectStore Ref M)
    (attempt current : HarnessSideEffectAttemptLease Ref)
    (outcome bound : HarnessSideEffectOutcome Ref M) : Prop where
  stored : store.attemptLeasesById.get? attempt.attemptId = some current
  same : SameAttemptGeneration current attempt
  authorized : ∃ decision, store.decisionsByRef.get? bound.decisionRef = some decision ∧
    bound.toEffectIdentity = decision.toEffectIdentity ∧
    bound.idempotencyKey = decision.idempotencyKey
  identity : bound.toEffectIdentity = current.toEffectIdentity
  outcome : bound.toEffectIdentity = outcome.toEffectIdentity
  attemptId : bound.attemptId = some current.attemptId
  fencingGeneration : bound.fencingGeneration = some current.fencingGeneration

omit [DecidableEq M] in
/-- The binding keeps everything but the attempt. -/
theorem of_bindOutcomeToAttempt {current : HarnessSideEffectAttemptLease Ref}
    {outcome bound : HarnessSideEffectOutcome Ref M}
    (h : bindOutcomeToAttempt outcome current = .ok bound) :
    outcome.toEffectIdentity = current.toEffectIdentity ∧ bound = { outcome with
        attemptId := some current.attemptId
        fencingGeneration := some current.fencingGeneration } := by
  unfold bindOutcomeToAttempt at h
  obtain ⟨hidentity, h⟩ := check_inv h
  refine ⟨(of_require hidentity).1, ?_⟩
  split at h
  · exact (pure_eq_ok_iff.mp h).symm
  · obtain ⟨hsame, h⟩ := check_inv h
    obtain ⟨hid, hgen⟩ := of_require hsame
    rw [← pure_eq_ok_iff.mp h, ← hid, ← hgen]

omit [DecidableEq M] in
theorem of_boundOutcome {attempt current : HarnessSideEffectAttemptLease Ref}
    {outcome bound : HarnessSideEffectOutcome Ref M}
    (h : store.boundOutcome digests attempt outcome = .ok (current, bound)) :
    store.Bound attempt current outcome bound := by
  unfold boundOutcome at h
  obtain ⟨current', hcurrent, h⟩ := bind_inv h
  obtain ⟨hauthorized, h⟩ := check_inv h
  obtain ⟨bound', hbound, h⟩ := bind_inv h
  cases h
  obtain ⟨hget, hsame⟩ := assertCurrentAttempt_eq_ok.mp hcurrent
  obtain ⟨hidentity, rfl⟩ := of_bindOutcomeToAttempt hbound
  unfold assertAuthorized at hauthorized
  obtain ⟨decision, hdecision, hmatches⟩ := bind_inv hauthorized
  obtain ⟨-, hident, -, -, hkey, -⟩ := of_require hmatches
  exact ⟨hget, hsame, ⟨decision, orRaise_eq_ok.mp hdecision, hident, hkey⟩, hidentity, rfl, rfl, rfl⟩

/-- What a call with an outcome does: it raises, it returns what is recorded, or it records the
outcome for the latest attempt, which is terminated with it. -/
inductive Records (store : InMemoryHarnessSideEffectStore Ref M) (digests : Digests Ref M)
    (attempt : HarnessSideEffectAttemptLease Ref) (outcome : HarnessSideEffectOutcome Ref M) :
    Except SideEffectError (HarnessSideEffectOutcome Ref M) ×
      InMemoryHarnessSideEffectStore Ref M → Prop
  | refused (e : SideEffectError) : Records store digests attempt outcome (.error e, store)
  | existing (current : HarnessSideEffectAttemptLease Ref) (bound : HarnessSideEffectOutcome Ref M)
      (bind : store.boundOutcome digests attempt outcome = .ok (current, bound))
      (stored : store.outcomesByIdentity.get? (digests.identityKey bound.toEffectIdentity)
        = some bound) :
      Records store digests attempt outcome (.ok bound, store)
  | recorded (current next : HarnessSideEffectAttemptLease Ref)
      (bound : HarnessSideEffectOutcome Ref M)
      (bind : store.boundOutcome digests attempt outcome = .ok (current, bound))
      (latest : store.latest digests (digests.identityKey current.toEffectIdentity) = some current)
      (follows : Follows current next) (terminated : next.status = .terminated)
      (identity : store.outcomesByIdentity.get? (digests.identityKey bound.toEffectIdentity) = none)
      (key : store.outcomesByIdempotency.get? bound.idempotencyKey = none) :
      Records store digests attempt outcome
        (.ok bound, (store.writeOutcome digests bound).writeAttempt
          (digests.identityKey current.toEffectIdentity) next)

/-- The end of the recording, for an attempt that is not terminated. -/
theorem Inv.commitOutcome (h : store.Inv digests time)
    {attempt current : HarnessSideEffectAttemptLease Ref}
    {outcome bound : HarnessSideEffectOutcome Ref M}
    (hbind : store.boundOutcome digests attempt outcome = .ok (current, bound))
    (hnone : store.existingOutcome digests bound = .ok none) (hopen : current.status ≠ .terminated)
    {now : Datetime} (hnow : time ≤ now) :
    store.Records digests attempt outcome (store.commitOutcome digests current bound now) := by
  have hb := of_boundOutcome hbind
  obtain ⟨hidentity, hkey⟩ := of_existingOutcome_none hnone
  have hwritten := h.attempted.writeOutcome bound
  rcases hwritten.resolveCurrentAttempt_eq hb.stored hopen hnow true
    (some (digests.outcomeChecksum bound)) (fun h => by cases h) with ⟨next, hfollows, hstatus, heq⟩
  unfold InMemoryHarnessSideEffectStore.commitOutcome persistOutcome
  rw [hnone]
  dsimp only
  rw [heq]
  exact .recorded current next bound hbind (h.attempted.latest_of_ne_terminated hb.stored hopen)
    hfollows (hstatus rfl) hidentity hkey

/-- `complete_attempt`. -/
theorem Inv.completeAttempt (h : store.Inv digests time)
    (attempt : HarnessSideEffectAttemptLease Ref) (outcome : HarnessSideEffectOutcome Ref M)
    (checkedAt : Datetime) {now : Datetime} (hnow : time ≤ now) :
    store.Records digests attempt outcome
      (store.completeAttempt digests attempt outcome checkedAt now) := by
  unfold InMemoryHarnessSideEffectStore.completeAttempt
  cases hbind : store.boundOutcome digests attempt outcome with
  | error e => exact .refused e
  | ok result =>
    obtain ⟨current, bound⟩ := result
    dsimp only
    cases hexisting : store.existingOutcome digests bound with
    | error e => exact .refused e
    | ok found =>
      cases found with
      | some existing =>
        obtain ⟨rfl, hstored⟩ := h.recorded.of_existingOutcome hexisting
        exact .existing current existing hbind hstored
      | none =>
        cases haccepts : assertLeaseAcceptsResult current checkedAt with
        | error e => exact .refused e
        | ok _ =>
          unfold assertLeaseAcceptsResult at haccepts
          have hactive := of_require (check_inv haccepts).1
          exact h.commitOutcome hbind hexisting (by simp [hactive]) hnow

/-- `reconcile_attempt`. -/
theorem Inv.reconcileAttempt (h : store.Inv digests time)
    (attempt : HarnessSideEffectAttemptLease Ref) (outcome : HarnessSideEffectOutcome Ref M)
    {now : Datetime} (hnow : time ≤ now) : store.Records digests attempt outcome
      (store.reconcileAttempt digests attempt outcome now) := by
  unfold InMemoryHarnessSideEffectStore.reconcileAttempt
  cases hbind : store.boundOutcome digests attempt outcome with
  | error e => exact .refused e
  | ok result =>
    obtain ⟨current, bound⟩ := result
    dsimp only
    cases hexisting : store.existingOutcome digests bound with
    | error e => exact .refused e
    | ok found =>
      cases found with
      | some existing =>
        obtain ⟨rfl, hstored⟩ := h.recorded.of_existingOutcome hexisting
        exact .existing current existing hbind hstored
      | none =>
        dsimp only
        split
        · exact .refused _
        · rename_i hopen
          exact h.commitOutcome hbind hexisting hopen hnow

end Outcomes

/-! ## Dispositions -/

variable {identityScopeRef subjectScopeRef : Ref}

variable {effectId : String}

/-- The one record of an effect id and two scopes. -/
theorem resolveEffectRecord_eq_some {α : Type} {identity : α → EffectIdentity Ref}
    {records : PyDict Ref α} {record : α} :
    resolveEffectRecord identity records effectId identityScopeRef subjectScopeRef =
        .ok (some record) ↔ (records.values.filter fun r => (identity r).effectId = effectId).filter
        (fun r => (identity r).identityScopeRef = identityScopeRef ∧
          (identity r).subjectScopeRef = subjectScopeRef) = [record] := by
  unfold resolveEffectRecord
  dsimp only
  split
  · rename_i hnil
    rw [hnil]
    constructor
    · intro h
      split at h
      · cases ok_inj h
      · cases h
    · intro h
      cases h
  · rename_i only hone
    rw [hone]
    constructor
    · intro h
      rw [Option.some.inj (ok_inj h)]
    · intro h
      rw [head_eq_of_cons_eq h]
  · rename_i hmany
    rw [hmany]
    constructor
    · intro h
      cases h
    · intro h
      cases h

/-- Several records of an effect id and two scopes are ambiguous. -/
theorem resolveEffectRecord_eq_error {α : Type} {identity : α → EffectIdentity Ref}
    {records : PyDict Ref α}
    (h : 1 < ((records.values.filter fun r => (identity r).effectId = effectId).filter
        (fun r => (identity r).identityScopeRef = identityScopeRef ∧
          (identity r).subjectScopeRef = subjectScopeRef)).length) :
    resolveEffectRecord identity records effectId identityScopeRef subjectScopeRef =
      .error (.attemptError "side_effect_identity_ambiguous" "side-effect identity is ambiguous") := by
  unfold resolveEffectRecord
  dsimp only
  split
  · rename_i hnil
    rw [hnil] at h
    cases h
  · rename_i only hone
    rw [hone] at h
    exact absurd h (Nat.lt_irrefl 1)
  · rfl

/-- An outcome that is to get another disposition. -/
structure Redisposable (store : InMemoryHarnessSideEffectStore Ref M) (digests : Digests Ref M)
    (effectId : String) (identityScopeRef subjectScopeRef : Ref)
    (outcome : HarnessSideEffectOutcome Ref M) (next : HarnessSideEffectDisposition) : Prop where
  stored : store.outcomesByIdentity.get? (digests.identityKey outcome.toEffectIdentity) = some outcome
  effect : outcome.effectId = effectId
  identityScope : outcome.identityScopeRef = identityScopeRef
  subjectScope : outcome.subjectScopeRef = subjectScopeRef
  other : next ≠ outcome.disposition

variable {outcome : HarnessSideEffectOutcome Ref M} {next : HarnessSideEffectDisposition}

variable {disposition : String}

theorem Recorded.redisposable (h : store.Recorded digests)
    (hresult : store.redisposable effectId disposition identityScopeRef subjectScopeRef =
      .ok (some (outcome, some next))) :
    store.Redisposable digests effectId identityScopeRef subjectScopeRef outcome next := by
  unfold InMemoryHarnessSideEffectStore.redisposable at hresult
  obtain ⟨found, hfound, hresult⟩ := bind_inv hresult
  cases found with
  | none => cases pure_eq_ok_iff.mp hresult
  | some outcome' =>
    obtain ⟨-, hresult⟩ := check_inv hresult
    obtain ⟨next', -, hresult⟩ := bind_inv hresult
    split at hresult
    · cases pure_eq_ok_iff.mp hresult
    · rename_i hother
      obtain ⟨-, hresult⟩ := check_inv hresult
      obtain ⟨rfl, he⟩ := Prod.mk.inj (Option.some.inj (pure_eq_ok_iff.mp hresult))
      cases he
      have hmem : outcome' ∈ [outcome'] := mem_singleton_self _
      rw [← resolveEffectRecord_eq_some.mp hfound] at hmem
      obtain ⟨hmem, hscopes⟩ := mem_filter.mp hmem
      obtain ⟨hmem, heffect⟩ := mem_filter.mp hmem
      obtain ⟨key, hget⟩ := PyDict.exists_get?_of_mem_values h.identityKeys hmem
      have hidentified := (h.outcomes key outcome' hget).identified
      rw [decide_eq_true_eq] at hscopes heffect
      exact ⟨by rw [hidentified]; exact hget, heffect, hscopes.1, hscopes.2, Ne.symm hother⟩

/-- The lease of the outcome is among those of its effect id and scopes. -/
theorem Inv.mem_leasesOf (h : store.Inv digests time)
    (hr : store.Redisposable digests effectId identityScopeRef subjectScopeRef outcome next) :
    ∃ attempt ∈ store.leasesOf effectId identityScopeRef subjectScopeRef,
      store.latest digests (digests.identityKey outcome.toEffectIdentity) = some attempt ∧
        attempt.status = .terminated := by
  have ho := h.recorded.outcomes _ outcome hr.stored
  obtain ⟨attempt, hlatest, hstatus, -, -⟩ := ho.bound
  obtain ⟨hstored, hkey⟩ := h.attempted.of_latest hlatest
  -- the attempt has the decision of the outcome
  obtain ⟨decision, hdecision, hident⟩ := (h.attempted.leases _ attempt hstored).authorized
  obtain ⟨decision', hdecision', hident', -⟩ := ho.authorized
  have hidentity := (h.decided.refs _ decision hdecision).2.1
  have hidentity' := (h.decided.refs _ decision' hdecision').2.1
  rw [← hident, hkey] at hidentity
  rw [← hident', hidentity] at hidentity'
  have hsame : attempt.toEffectIdentity = outcome.toEffectIdentity := by
    rw [hident, hident', Option.some.inj hidentity']
  refine ⟨attempt, ?_, hlatest, hstatus⟩
  have hmem := PyDict.mem_values_of_get? ((h.attempted.current _).trans hlatest)
  apply mem_filter.mpr
  refine ⟨mem_filter.mpr ⟨hmem, ?_⟩, ?_⟩
  · rw [decide_eq_true_eq, ← hr.effect]
    exact congrArg EffectIdentity.effectId hsame
  · rw [decide_eq_true_eq, ← hr.identityScope, ← hr.subjectScope]
    exact ⟨congrArg EffectIdentity.identityScopeRef hsame,
      congrArg EffectIdentity.subjectScopeRef hsame⟩

/-- What `set_disposition` does: it raises or returns what is stored, it writes the outcome of the
changed disposition and raises, or it writes it, and a new version of the lease when that refers
to the outcome. -/
inductive Disposes (store : InMemoryHarnessSideEffectStore Ref M) (digests : Digests Ref M)
    (effectId disposition : String) (identityScopeRef subjectScopeRef : Ref) :
    Except SideEffectError (Option (HarnessSideEffectOutcome Ref M)) ×
      InMemoryHarnessSideEffectStore Ref M → Prop
  | refused (e : SideEffectError) :
      Disposes store digests effectId disposition identityScopeRef subjectScopeRef (.error e, store)
  | unchanged (result : Option (HarnessSideEffectOutcome Ref M)) :
      Disposes store digests effectId disposition identityScopeRef subjectScopeRef (.ok result, store)
  | halfway (e : SideEffectError) (outcome : HarnessSideEffectOutcome Ref M)
      (next : HarnessSideEffectDisposition)
      (chosen : store.redisposable effectId disposition identityScopeRef subjectScopeRef =
        .ok (some (outcome, some next)))
      (ambiguous : 1 < (store.leasesOf effectId identityScopeRef subjectScopeRef).length) :
      Disposes store digests effectId disposition identityScopeRef subjectScopeRef
        (.error e, store.writeOutcome digests (outcome.redisposed next))
  | updated (outcome : HarnessSideEffectOutcome Ref M) (next : HarnessSideEffectDisposition)
      (chosen : store.redisposable effectId disposition identityScopeRef subjectScopeRef =
        .ok (some (outcome, some next))) :
      Disposes store digests effectId disposition identityScopeRef subjectScopeRef
        (.ok (some (outcome.redisposed next)), store.writeOutcome digests (outcome.redisposed next))
  | relinked (outcome : HarnessSideEffectOutcome Ref M) (next : HarnessSideEffectDisposition)
      (chosen : store.redisposable effectId disposition identityScopeRef subjectScopeRef =
        .ok (some (outcome, some next)))
      (current lease : HarnessSideEffectAttemptLease Ref)
      (latest : store.latest digests (digests.identityKey current.toEffectIdentity) = some current)
      (follows : Follows current lease) :
      Disposes store digests effectId disposition identityScopeRef subjectScopeRef
        (.ok (some (outcome.redisposed next)),
          (store.writeOutcome digests (outcome.redisposed next)).writeAttempt
            (digests.identityKey current.toEffectIdentity) lease)

/-- Where several leases come into question, the changed outcome is written and the call raises. -/
theorem setDisposition_of_ambiguous
    (chosen : store.redisposable effectId disposition identityScopeRef subjectScopeRef =
      .ok (some (outcome, some next)))
    (ambiguous : 1 < (store.leasesOf effectId identityScopeRef subjectScopeRef).length) :
    store.setDisposition digests effectId disposition identityScopeRef subjectScopeRef =
      (.error (.attemptError "side_effect_identity_ambiguous" "side-effect identity is ambiguous"),
        store.writeOutcome digests (outcome.redisposed next)) := by
  have hresolve : resolveEffectRecord toEffectIdentity
      (store.writeDisposition digests outcome (outcome.redisposed next)).attemptLeasesByIdentity
      effectId identityScopeRef subjectScopeRef = _ := resolveEffectRecord_eq_error ambiguous
  unfold setDisposition
  rw [chosen]
  dsimp only
  unfold relinkAttempt
  rw [hresolve, error_bind]
  rfl

/-- The lookup of the lease after the outcome is written. -/
theorem Inv.relinkAttempt (h : store.Inv digests time)
    (hr : store.Redisposable digests effectId identityScopeRef subjectScopeRef outcome next)
    (hone : ¬ 1 < (store.leasesOf effectId identityScopeRef subjectScopeRef).length)
    (updated : HarnessSideEffectOutcome Ref M) :
    (store.writeOutcome digests updated).relinkAttempt digests effectId identityScopeRef
        subjectScopeRef outcome updated = .ok (store.writeOutcome digests updated) ∨
      ∃ current lease,
        store.latest digests (digests.identityKey current.toEffectIdentity) = some current ∧
        Follows current lease ∧
        (store.writeOutcome digests updated).relinkAttempt digests effectId identityScopeRef
            subjectScopeRef outcome updated = .ok ((store.writeOutcome digests updated).writeAttempt
            (digests.identityKey current.toEffectIdentity) lease) := by
  obtain ⟨attempt, hmem, hlatest, hstatus⟩ := h.mem_leasesOf hr
  have honly : store.leasesOf effectId identityScopeRef subjectScopeRef = [attempt] := by
    have hpos := length_pos_of_mem hmem
    obtain ⟨a, ha⟩ := length_eq_one_iff.mp (Nat.le_antisymm (Nat.le_of_not_lt hone) hpos)
    rw [ha] at hmem ⊢
    rw [mem_singleton.mp hmem]
  have hresolve : resolveEffectRecord toEffectIdentity
      (store.writeOutcome digests updated).attemptLeasesByIdentity effectId
      identityScopeRef subjectScopeRef = .ok (some attempt) :=
    resolveEffectRecord_eq_some.mpr honly
  unfold InMemoryHarnessSideEffectStore.relinkAttempt
  rw [hresolve, ok_bind]
  dsimp only
  split
  · -- the lease refers to the outcome
    right
    obtain ⟨hstored, hkey⟩ := h.attempted.of_latest hlatest
    rcases HarnessSideEffectAttemptLease.relinkedOutcome_eq
      (h.attempted.leases _ attempt hstored).checked hstatus (digests.outcomeChecksum updated)
      with ⟨lease, hlease, hfollows⟩
    rw [← hkey] at hlatest
    refine ⟨attempt, lease, hlatest, hfollows, ?_⟩
    rw [hlease, ok_bind]
    exact (h.attempted.writeOutcome updated).replaceAttempt_eq hfollows.same.1.symm hlatest
  · exact Or.inl rfl

/-- `set_disposition`. -/
theorem Inv.setDisposition (h : store.Inv digests time) (effectId disposition : String)
    (identityScopeRef subjectScopeRef : Ref) :
    store.Disposes digests effectId disposition identityScopeRef subjectScopeRef
      (store.setDisposition digests effectId disposition identityScopeRef subjectScopeRef) := by
  cases hresult : store.redisposable effectId disposition identityScopeRef subjectScopeRef with
  | error e =>
    unfold InMemoryHarnessSideEffectStore.setDisposition
    rw [hresult]
    exact .refused e
  | ok result =>
    rcases result with _ | ⟨outcome, _ | next⟩
    · unfold InMemoryHarnessSideEffectStore.setDisposition
      rw [hresult]
      exact .unchanged none
    · unfold InMemoryHarnessSideEffectStore.setDisposition
      rw [hresult]
      exact .unchanged (some outcome)
    · by_cases hambiguous : 1 < (store.leasesOf effectId identityScopeRef subjectScopeRef).length
      · rw [setDisposition_of_ambiguous hresult hambiguous]
        exact .halfway _ outcome next hresult hambiguous
      · have hr := h.recorded.redisposable hresult
        have hwrite : store.writeDisposition digests outcome (outcome.redisposed next) =
          store.writeOutcome digests (outcome.redisposed next) := rfl
        unfold InMemoryHarnessSideEffectStore.setDisposition
        rw [hresult]
        dsimp only
        rw [hwrite]
        rcases h.relinkAttempt hr hambiguous (outcome.redisposed next) with
          heq | ⟨current, lease, hlatest, hfollows, heq⟩
        · rw [heq]
          exact .updated outcome next hresult
        · rw [heq]
          exact .relinked outcome next hresult current lease hlatest hfollows

/-! ## Decisions and new attempts -/

/-- What `put_decision` does: it raises, it returns what is stored, or it stores a decision. -/
inductive Decides (store : InMemoryHarnessSideEffectStore Ref M) (digests : Digests Ref M) :
    Except SideEffectError (HarnessSideEffectDecision Ref) ×
      InMemoryHarnessSideEffectStore Ref M → Prop
  | unchanged (result : Except SideEffectError (HarnessSideEffectDecision Ref)) :
      Decides store digests (result, store)
  | decided (decision : HarnessSideEffectDecision Ref)
      (undecided : store.Undecided digests decision) :
      Decides store digests (.ok decision, store.writeDecision digests decision)

/-- `put_decision`. -/
theorem decides_putDecision (store : InMemoryHarnessSideEffectStore Ref M) (digests : Digests Ref M)
    (decision : HarnessSideEffectDecision Ref) :
    store.Decides digests (store.putDecision digests decision) := by
  unfold putDecision
  dsimp only
  split
  · split
    · exact .unchanged _
    · exact .unchanged _
  · rename_i hnil
    have hall : ∀ candidate ∈ [store.decisionsById.get? decision.decisionId,
        store.decisionsByRef.get? (digests.decisionChecksum decision),
        store.decisionsByIdentity.get? (digests.identityKey decision.toEffectIdentity),
        store.decisionsByIdempotency.get? decision.idempotencyKey], candidate = none := by
      intro candidate hmem
      cases candidate with
      | none => rfl
      | some existing =>
        rw [← reduceOption_mem_iff, hnil] at hmem
        cases hmem
    exact .decided decision ⟨hall _ (by simp), hall _ (by simp), hall _ (by simp)⟩

/-- What `acquire_attempt` does: it raises, it returns the lease of the lease id, or it stores a
lease of the next attempt. -/
inductive Acquires (store : InMemoryHarnessSideEffectStore Ref M) (digests : Digests Ref M)
    (now : Datetime) :
    Except SideEffectError (HarnessSideEffectAttemptLease Ref) ×
      InMemoryHarnessSideEffectStore Ref M → Prop
  | refused (e : SideEffectError) : Acquires store digests now (.error e, store)
  | existing (lease : HarnessSideEffectAttemptLease Ref)
      (stored : store.attemptLeasesById.get? lease.attemptId = some lease) :
      Acquires store digests now (.ok lease, store)
  | acquired (decision : HarnessSideEffectDecision Ref) (lease : HarnessSideEffectAttemptLease Ref)
      (next : store.Next digests now decision lease)
      (unrecorded : store.outcomesByIdentity.get? (digests.identityKey lease.toEffectIdentity) = none) :
      Acquires store digests now (.ok lease, store.writeLease digests lease)

omit [DecidableEq Ref] in
/-- A created lease is active and has the payload of its attempt as its id. -/
theorem of_createLease {decision : HarnessSideEffectDecision Ref} {attempt : ℕ}
    {ownerId leaseId : String} {acquiredAt leaseExpiresAt : Datetime}
    {lease : HarnessSideEffectAttemptLease Ref}
    (h : digests.createLease decision attempt ownerId leaseId acquiredAt leaseExpiresAt = .ok lease) :
    lease.Checked ∧ lease.toEffectIdentity = decision.toEffectIdentity ∧
      lease.decisionRef = digests.decisionChecksum decision ∧ lease.attemptId = digests.attemptId
        { decisionRef := lease.decisionRef
          effectId := lease.effectId
          idempotencyKey := lease.idempotencyKey
          fencingGeneration := lease.fencingGeneration } ∧
      lease.fencingGeneration = attempt ∧ lease.leaseId = leaseId ∧ lease.acquiredAt = acquiredAt := by
  unfold Digests.createLease at h
  simp only [check_bind_eq_ok] at h
  obtain ⟨rfl, hchecked⟩ := HarnessSideEffectAttemptLease.postInit_eq_ok.mp h.2.2.2
  exact ⟨hchecked, rfl, rfl, rfl, rfl, rfl, rfl⟩

/-- The lease that `acquire_attempt` creates is that of the next attempt. -/
theorem Attempted.acquirableLease (h : store.Attempted digests time)
    {decision : HarnessSideEffectDecision Ref} {ownerId leaseId : String}
    {lease : HarnessSideEffectAttemptLease Ref}
    (hresult : store.acquirableLease digests decision ownerId leaseId now = .ok (.inr lease)) :
    store.Next digests now decision lease ∧
      store.outcomesByIdentity.get? (digests.identityKey lease.toEffectIdentity) = none := by
  unfold InMemoryHarnessSideEffectStore.acquirableLease at hresult
  obtain ⟨hcommitted, hresult⟩ := check_inv hresult
  split at hresult
  · obtain ⟨-, hresult⟩ := check_inv hresult
    cases pure_eq_ok_iff.mp hresult
  · rename_i hfree
    obtain ⟨hnone, hresult⟩ := check_inv hresult
    rw [h.counted, h.current] at hresult
    -- the latest attempt is terminated, if there is one
    obtain ⟨hsettled, hresult⟩ : (∀ attempt,
        store.latest digests (digests.identityKey decision.toEffectIdentity) = some attempt →
          attempt.status = .terminated) ∧ _ := by
      split at hresult
      · rename_i current hcurrent
        obtain ⟨hterminated, hresult⟩ := check_inv hresult
        refine ⟨?_, hresult⟩
        intro attempt hattempt
        rw [hcurrent] at hattempt
        rw [← Option.some.inj hattempt]
        exact of_require hterminated
      · rename_i hcurrent
        obtain ⟨-, hresult⟩ := check_inv hresult
        refine ⟨?_, hresult⟩
        intro attempt hattempt
        rw [hcurrent] at hattempt
        cases hattempt
    obtain ⟨hwithin, hresult⟩ := check_inv hresult
    obtain ⟨expiry, -, hresult⟩ := bind_inv hresult
    obtain ⟨lease', hlease, hresult⟩ := bind_inv hresult
    obtain rfl := Sum.inr.inj (pure_eq_ok_iff.mp hresult)
    rcases of_createLease hlease with ⟨hchecked, hident, href, hdigest, hgen, hid, hacquired⟩
    have hlimit := of_require hwithin
    unfold assertCommitted at hcommitted
    rw [← hident] at hgen hsettled hnone hlimit
    refine ⟨⟨of_require hcommitted, hident, href, hdigest, hgen, ?_, hchecked,
      le_of_eq hacquired, hsettled, ?_⟩, of_require hnone⟩
    · omega
    · rw [hid]
      exact hfree

/-- `acquire_attempt`. -/
theorem Attempted.acquireAttempt [DecidableEq M] (h : store.Attempted digests time)
    (decision : HarnessSideEffectDecision Ref) (ownerId leaseId : String) (now : Datetime) :
    store.Acquires digests now (store.acquireAttempt digests decision ownerId leaseId now) := by
  unfold InMemoryHarnessSideEffectStore.acquireAttempt
  split
  · exact .refused _
  · rename_i lease hresult
    unfold InMemoryHarnessSideEffectStore.acquirableLease at hresult
    obtain ⟨-, hresult⟩ := check_inv hresult
    split at hresult
    · rename_i existing hlease
      obtain ⟨-, hresult⟩ := check_inv hresult
      obtain rfl := Sum.inl.inj (pure_eq_ok_iff.mp hresult)
      exact .existing existing (h.leaseIds leaseId existing hlease).2
    · -- what is created is not an existing lease
      obtain ⟨-, hresult⟩ := check_inv hresult
      exfalso
      split at hresult
      all_goals
        iterate 2 rcases check_inv hresult with ⟨-, hresult⟩
        obtain ⟨expiry, -, hresult⟩ := bind_inv hresult
        obtain ⟨created, -, hresult⟩ := bind_inv hresult
        cases pure_eq_ok_iff.mp hresult
  · rename_i lease hresult
    rcases h.acquirableLease hresult with ⟨hnext, hnone⟩
    exact .acquired decision lease hnext hnone

end InMemoryHarnessSideEffectStore

end HarnessSideEffects
