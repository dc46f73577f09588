/-
# Runs of the side-effect store

Every call keeps the invariant, also one that raises halfway.  A run keeps the fences exactly when
no call of it changes a disposition for which the attempts at more than one effect come into
question.
-/
import AgoraHub.SideEffectSteps

open Fallible StepRuns

namespace HarnessSideEffects

open List PyDict

namespace InMemoryHarnessSideEffectStore

variable {Ref M : Type} [DecidableEq Ref] {digests : Digests Ref M}
variable {store after : InMemoryHarnessSideEffectStore Ref M} {time : Datetime}

/-! ## What one call does to the records -/

/-- The records of a store after a call: decisions and attempts remain, attempts follow one another,
and an outcome is recorded once, for the latest attempt. -/
structure Passes (digests : Digests Ref M) (store after : InMemoryHarnessSideEffectStore Ref M) :
    Prop where
  decisions : ∀ ref decision, store.decisionsByRef.get? ref = some decision →
    after.decisionsByRef.get? ref = some decision
  leases : ∀ id attempt, store.attemptLeasesById.get? id = some attempt →
    ∃ attempt', after.attemptLeasesById.get? id = some attempt' ∧
      SameAttemptGeneration attempt' attempt
  created : ∀ key,
    (store.attemptsOf digests key).length < (after.attemptsOf digests key).length →
      (∀ attempt ∈ store.attemptsOf digests key, attempt.status = .terminated) ∧
        store.outcomesByIdentity.get? key = none
  remains : ∀ key, (store.attemptsOf digests key).map (·.attemptId) <+:
    (after.attemptsOf digests key).map (·.attemptId)
  recorded : ∀ key outcome, store.outcomesByIdentity.get? key = none →
    after.outcomesByIdentity.get? key = some outcome →
      ∃ attempt, store.latest digests key = some attempt ∧
        outcome.attemptId = some attempt.attemptId ∧
        outcome.fencingGeneration = some attempt.fencingGeneration
  kept : ∀ key outcome, store.outcomesByIdentity.get? key = some outcome →
    ∃ outcome', after.outcomesByIdentity.get? key = some outcome' ∧
      (outcome' = outcome ∨ ∃ next, next ≠ outcome.disposition ∧ outcome' = outcome.redisposed next)

/-- A store that keeps the attempts at every effect, and every outcome but perhaps its
disposition. -/
theorem Passes.of_attempts
    (decisions : ∀ ref decision, store.decisionsByRef.get? ref = some decision →
      after.decisionsByRef.get? ref = some decision)
    (leases : ∀ id attempt, store.attemptLeasesById.get? id = some attempt →
      ∃ attempt', after.attemptLeasesById.get? id = some attempt' ∧
        SameAttemptGeneration attempt' attempt)
    (attempts : ∀ key, (after.attemptsOf digests key).map (·.attemptId) =
      (store.attemptsOf digests key).map (·.attemptId))
    (recorded : ∀ key outcome, store.outcomesByIdentity.get? key = none →
      after.outcomesByIdentity.get? key = some outcome →
        ∃ attempt, store.latest digests key = some attempt ∧
          outcome.attemptId = some attempt.attemptId ∧
          outcome.fencingGeneration = some attempt.fencingGeneration)
    (kept : ∀ key outcome, store.outcomesByIdentity.get? key = some outcome →
      ∃ outcome', after.outcomesByIdentity.get? key = some outcome' ∧ (outcome' = outcome ∨
          ∃ next, next ≠ outcome.disposition ∧ outcome' = outcome.redisposed next)) :
    Passes digests store after := by
  refine ⟨decisions, leases, ?_, ?_, recorded, kept⟩
  · intro key hlt
    have hlength := congrArg List.length (attempts key)
    rw [length_map, length_map] at hlength
    omega
  · intro key
    rw [attempts key]

theorem Passes.refl (digests : Digests Ref M) (store : InMemoryHarnessSideEffectStore Ref M) :
    Passes digests store store := by
  apply Passes.of_attempts
  · exact fun _ _ h => h
  · exact fun id attempt h => ⟨attempt, h, .refl attempt⟩
  · exact fun _ => rfl
  · intro key outcome hnone hsome
    rw [hnone] at hsome
    cases hsome
  · exact fun key outcome h => ⟨outcome, h, Or.inl rfl⟩

theorem Undecided.passes {decision : HarnessSideEffectDecision Ref}
    (hu : store.Undecided digests decision) :
    Passes digests store (store.writeDecision digests decision) := by
  have hrefl := Passes.refl digests store
  exact ⟨fun _ _ => hu.get?_ref, hrefl.leases, hrefl.created, hrefl.remains, hrefl.recorded,
    hrefl.kept⟩

section Versions

variable {current next : HarnessSideEffectAttemptLease Ref}

/-- The stored leases after a new version of one. -/
theorem Follows.leases_writeAttempt (hf : Follows current next)
    (hget : store.attemptLeasesById.get? current.attemptId = some current) (identityKey : Ref)
    {id : Ref} {attempt : HarnessSideEffectAttemptLease Ref}
    (hattempt : store.attemptLeasesById.get? id = some attempt) :
    ∃ attempt', (store.writeAttempt identityKey next).attemptLeasesById.get? id = some attempt' ∧
      SameAttemptGeneration attempt' attempt := by
  show ∃ attempt', (store.attemptLeasesById.set next.attemptId next).get? id = some attempt' ∧ _
  rw [get?_set]
  split
  · rename_i he
    rw [he, ← hf.same.1, hget] at hattempt
    rw [← Option.some.inj hattempt]
    exact ⟨next, rfl, hf.same.symm⟩
  · exact ⟨attempt, hattempt, .refl attempt⟩

/-- A new version of the latest attempt, with outcomes that are kept or recorded for it. -/
theorem Attempted.passes_writeAttempt (h : store.Attempted digests time) (hf : Follows current next)
    (hlatest : store.latest digests (digests.identityKey current.toEffectIdentity) = some current)
    (hpasses : Passes digests store after) (hleases : after.attemptLeasesById = store.attemptLeasesById)
    (hafter : after.Attempted digests time) (identityKey : Ref) :
    Passes digests store (after.writeAttempt identityKey next) := by
  have hget := (h.of_latest hlatest).1
  have hget' : after.attemptLeasesById.get? current.attemptId = some current := by
    rw [hleases]
    exact hget
  have hsame : ∀ key, after.attemptsOf digests key = store.attemptsOf digests key := by
    intro key
    unfold attemptsOf
    rw [hleases]
  apply Passes.of_attempts
  · exact hpasses.decisions
  · intro id attempt hattempt
    rw [← hleases] at hattempt
    exact hf.leases_writeAttempt hget' identityKey hattempt
  · intro key
    rw [hafter.attemptsOf_writeAttempt hf hget', KeyedList.map_key_replace, hsame]
  · exact hpasses.recorded
  · exact hpasses.kept

end Versions

/-- The next attempt. -/
theorem Attempted.passes_writeLease (h : store.Attempted digests time)
    {decision : HarnessSideEffectDecision Ref} {lease : HarnessSideEffectAttemptLease Ref}
    (hn : store.Next digests time decision lease)
    (hnone : store.outcomesByIdentity.get? (digests.identityKey lease.toEffectIdentity) = none) :
    Passes digests store (store.writeLease digests lease) := by
  have hrefl := Passes.refl digests store
  refine ⟨hrefl.decisions, ?_, ?_, ?_, hrefl.recorded, hrefl.kept⟩
  · intro id attempt hattempt
    refine ⟨attempt, ?_, .refl attempt⟩
    show (store.attemptLeasesById.set lease.attemptId lease).get? id = some attempt
    rw [get?_set_of_ne, hattempt]
    rintro rfl
    rw [h.fresh hn] at hattempt
    cases hattempt
  · intro key hlt
    rw [h.attemptsOf_writeLease hn, length_append] at hlt
    by_cases hkey : key = digests.identityKey lease.toEffectIdentity
    · subst hkey
      refine ⟨?_, hnone⟩
      intro attempt hmem
      by_cases hlatest : store.latest digests (digests.identityKey lease.toEffectIdentity) = some attempt
      · exact hn.settled attempt hlatest
      · exact h.earlier _ attempt hmem hlatest
    · rw [if_neg hkey, length_nil] at hlt
      omega
  · intro key
    rw [h.attemptsOf_writeLease hn, map_append]
    exact prefix_append _ _

/-- An outcome that is written where one was before, with another disposition. -/
theorem Redisposable.passes {effectId : String} {identityScopeRef subjectScopeRef : Ref}
    {outcome : HarnessSideEffectOutcome Ref M} {next : HarnessSideEffectDisposition}
    (hr : store.Redisposable digests effectId identityScopeRef subjectScopeRef outcome next) :
    Passes digests store (store.writeOutcome digests (outcome.redisposed next)) := by
  have hrefl := Passes.refl digests store
  have hget : ∀ key, (store.writeOutcome digests (outcome.redisposed next)).outcomesByIdentity.get? key
      = if key = digests.identityKey outcome.toEffectIdentity then some (outcome.redisposed next)
        else store.outcomesByIdentity.get? key := fun key => get?_set _ _ _ _
  apply Passes.of_attempts
  · exact hrefl.decisions
  · exact hrefl.leases
  · exact fun _ => rfl
  · intro key outcome' hnone hsome
    rw [hget] at hsome
    split at hsome
    · rename_i he
      rw [he, hr.stored] at hnone
      cases hnone
    · rw [hnone] at hsome
      cases hsome
  · intro key outcome' hold
    rw [hget]
    split
    · rename_i he
      rw [he, hr.stored] at hold
      rw [← Option.some.inj hold]
      exact ⟨_, rfl, Or.inr ⟨next, hr.other, rfl⟩⟩
    · exact ⟨outcome', hold, Or.inl rfl⟩

/-- An outcome that is recorded for the latest attempt. -/
theorem passes_recorded {current : HarnessSideEffectAttemptLease Ref}
    {bound : HarnessSideEffectOutcome Ref M}
    (hidentity : bound.toEffectIdentity = current.toEffectIdentity)
    (hid : bound.attemptId = some current.attemptId)
    (hgen : bound.fencingGeneration = some current.fencingGeneration)
    (hlatest : store.latest digests (digests.identityKey current.toEffectIdentity) = some current)
    (hnone : store.outcomesByIdentity.get? (digests.identityKey bound.toEffectIdentity) = none) :
    Passes digests store (store.writeOutcome digests bound) := by
  have hrefl := Passes.refl digests store
  have hget : ∀ key, (store.writeOutcome digests bound).outcomesByIdentity.get? key
      = if key = digests.identityKey bound.toEffectIdentity then some bound
        else store.outcomesByIdentity.get? key := fun key => get?_set _ _ _ _
  apply Passes.of_attempts
  · exact hrefl.decisions
  · exact hrefl.leases
  · exact fun _ => rfl
  · intro key outcome hnone' hsome
    rw [hget] at hsome
    split at hsome
    · rename_i he
      rw [← Option.some.inj hsome, he, hidentity]
      exact ⟨current, hlatest, hid, hgen⟩
    · rw [hnone'] at hsome
      cases hsome
  · intro key outcome hold
    rw [hget, if_neg]
    · exact ⟨outcome, hold, Or.inl rfl⟩
    · rintro rfl
      rw [hnone] at hold
      cases hold

/-! ## What one call does -/

section Calls

/-- What a call does, apart from what it leaves when it raises. -/
structure Proceeds (digests : Digests Ref M) (store : InMemoryHarnessSideEffectStore Ref M)
    (time : Datetime) (attempt? : Option (HarnessSideEffectAttemptLease Ref))
    (answer : Except SideEffectError (Reply Ref M) × InMemoryHarnessSideEffectStore Ref M) : Prop where
  inv : answer.2.Inv digests time
  passes : Passes digests store answer.2
  returned : ∀ lease, answer.1 = .ok (.lease lease) →
    lease ∈ answer.2.attemptsOf digests (digests.identityKey lease.toEffectIdentity)
  stale : ∀ attempt, attempt? = some attempt →
    (∀ last, store.latest digests (digests.identityKey attempt.toEffectIdentity) = some last →
      last.attemptId ≠ attempt.attemptId) → answer.2 = store

/-- A call that leaves the store and returns no lease but a stored one. -/
theorem Inv.proceeds_unchanged (h : store.Inv digests time)
    (attempt? : Option (HarnessSideEffectAttemptLease Ref))
    {result : Except SideEffectError (Reply Ref M)}
    (hstored : ∀ lease, result = .ok (.lease lease) →
      store.attemptLeasesById.get? lease.attemptId = some lease) :
    Proceeds digests store time attempt? (result, store) :=
  ⟨h, .refl digests store, fun lease hlease => h.attempted.mem_attemptsOf.mpr ⟨hstored lease hlease, rfl⟩,
    fun _ _ _ => rfl⟩

/-- A call that stores a new version of the latest attempt, which is its own. -/
theorem Inv.proceeds_writeAttempt (h : store.Inv digests time)
    {attempt current next : HarnessSideEffectAttemptLease Ref}
    (hlatest : store.latest digests (digests.identityKey current.toEffectIdentity) = some current)
    (hsame : SameAttemptGeneration current attempt) (hf : Follows current next)
    (hinv : after.Inv digests time) (hpasses : Passes digests store after)
    (hleases : after.attemptLeasesById = store.attemptLeasesById)
    (hafter : (after.writeAttempt (digests.identityKey current.toEffectIdentity) next).Inv digests time)
    {result : Except SideEffectError (Reply Ref M)}
    (hreturned : ∀ lease, result = .ok (.lease lease) → lease = next) :
    Proceeds digests store time (some attempt)
      (result, after.writeAttempt (digests.identityKey current.toEffectIdentity) next) := by
  refine ⟨hafter, h.attempted.passes_writeAttempt hf hlatest hpasses hleases hinv.attempted _, ?_, ?_⟩
  · intro lease hlease
    obtain rfl := hreturned lease hlease
    apply hafter.attempted.mem_attemptsOf.mpr
    exact ⟨get?_set_self _ _ _, rfl⟩
  · intro attempt' hattempt hother
    obtain rfl := Option.some.inj hattempt
    rw [← hsame.2.2.2.1] at hother
    exact absurd hsame.1 (hother current hlatest)

variable {attempt : HarnessSideEffectAttemptLease Ref}

/-- `renew_attempt` and `finish_attempt`. -/
theorem Inv.proceeds_uses (h : store.Inv digests time) {result : Except SideEffectError
      (HarnessSideEffectAttemptLease Ref × InMemoryHarnessSideEffectStore Ref M)}
    (hu : store.Uses digests attempt result) :
    Proceeds digests store time (some attempt) (store.replied .lease result) := by
  cases hu with
  | refused e => exact h.proceeds_unchanged _ fun _ hlease => by cases hlease
  | unchanged current stored =>
    apply h.proceeds_unchanged
    intro lease hlease
    cases hlease
    exact stored
  | replaced current next latest same follows =>
    apply h.proceeds_writeAttempt latest same follows h (.refl digests store) rfl
    · exact ⟨⟨h.decided.refs, h.decided.identities, h.decided.keys⟩,
        h.attempted.writeAttempt follows latest, h.recorded.writeAttempt h.attempted follows latest⟩
    · intro lease hlease
      cases hlease
      rfl

variable {identityScopeRef subjectScopeRef : Ref} {outcome : HarnessSideEffectOutcome Ref M}

section

variable (h : store.Inv digests time)

include h

/-- The outcome of another disposition keeps the invariant. -/
theorem Inv.writeOutcome_redisposed {effectId : String} {next : HarnessSideEffectDisposition}
    (hr : store.Redisposable digests effectId identityScopeRef subjectScopeRef outcome next) :
    (store.writeOutcome digests (outcome.redisposed next)).Inv digests time := by
  have ho := h.recorded.outcomes _ outcome hr.stored
  refine ⟨⟨h.decided.refs, h.decided.identities, h.decided.keys⟩, h.attempted.writeOutcome _, ?_⟩
  apply h.recorded.writeOutcome
  · intro old hold
    have hold : store.outcomesByIdentity.get? (digests.identityKey outcome.toEffectIdentity) = some old :=
      hold
    rw [hr.stored] at hold
    rw [← Option.some.inj hold]
    rfl
  · intro old hold
    have hold : store.outcomesByIdempotency.get? outcome.idempotencyKey = some old := hold
    rw [ho.indexed] at hold
    rw [← Option.some.inj hold]
    rfl
  · exact ho.authorized
  · exact ho.bound

/-- `set_disposition`. -/
theorem Inv.proceeds_disposes {effectId disposition : String}
    {result : Except SideEffectError (Option (HarnessSideEffectOutcome Ref M)) ×
      InMemoryHarnessSideEffectStore Ref M}
    (hd : store.Disposes digests effectId disposition identityScopeRef subjectScopeRef result) :
    Proceeds digests store time none (result.1.map .outcome, result.2) := by
  cases hd with
  | refused e | unchanged result => exact h.proceeds_unchanged _ fun _ hlease => by cases hlease
  | halfway e outcome next chosen ambiguous | updated outcome next chosen =>
    have hr := h.recorded.redisposable chosen
    exact ⟨h.writeOutcome_redisposed hr, hr.passes, fun _ hlease => (by cases hlease),
      fun _ hnone => (by cases hnone)⟩
  | relinked outcome next chosen current lease latest follows =>
    have hr := h.recorded.redisposable chosen
    have hinv := h.writeOutcome_redisposed hr
    have hlatest : (store.writeOutcome digests (outcome.redisposed next)).latest digests
        (digests.identityKey current.toEffectIdentity) = some current := latest
    exact ⟨⟨⟨hinv.decided.refs, hinv.decided.identities, hinv.decided.keys⟩,
      hinv.attempted.writeAttempt follows hlatest,
      hinv.recorded.writeAttempt hinv.attempted follows hlatest⟩,
      h.attempted.passes_writeAttempt follows latest hr.passes rfl hinv.attempted _,
      fun _ hlease => (by cases hlease), fun _ hnone => (by cases hnone)⟩

/-- `put_decision`. -/
theorem Inv.proceeds_decides {result : Except SideEffectError (HarnessSideEffectDecision Ref) ×
      InMemoryHarnessSideEffectStore Ref M} (hd : store.Decides digests result) :
    Proceeds digests store time none (result.1.map .decision, result.2) := by
  cases hd with
  | unchanged result =>
    apply h.proceeds_unchanged
    intro lease hlease
    cases result <;> cases hlease
  | decided decision undecided =>
    exact ⟨⟨h.decided.writeDecision undecided, h.attempted.writeDecision undecided h.decided,
      h.recorded.writeDecision undecided⟩, undecided.passes, fun _ hlease => (by cases hlease),
      fun _ hnone => (by cases hnone)⟩

/-- `acquire_attempt`. -/
theorem Inv.proceeds_acquires {result : Except SideEffectError (HarnessSideEffectAttemptLease Ref) ×
      InMemoryHarnessSideEffectStore Ref M} (ha : store.Acquires digests time result) :
    Proceeds digests store time none (result.1.map .lease, result.2) := by
  cases ha with
  | refused e => exact h.proceeds_unchanged _ fun _ hlease => by cases hlease
  | existing lease stored =>
    apply h.proceeds_unchanged
    intro lease' hlease
    cases hlease
    exact stored
  | acquired decision lease next unrecorded =>
    have hinv := h.attempted.writeLease next h.decided
    refine ⟨⟨⟨h.decided.refs, h.decided.identities, h.decided.keys⟩, hinv,
      h.recorded.writeLease h.attempted next unrecorded⟩,
      h.attempted.passes_writeLease next unrecorded, ?_, fun _ hnone => (by cases hnone)⟩
    intro lease' hlease
    cases hlease
    apply hinv.mem_attemptsOf.mpr
    exact ⟨get?_set_self _ _ _, rfl⟩

/-- `complete_attempt` and `reconcile_attempt`. -/
theorem Inv.proceeds_records {result : Except SideEffectError (HarnessSideEffectOutcome Ref M) ×
      InMemoryHarnessSideEffectStore Ref M} (hr : store.Records digests attempt outcome result) :
    Proceeds digests store time (some attempt)
      (result.1.map fun outcome => .outcome (some outcome), result.2) := by
  cases hr with
  | refused e => exact h.proceeds_unchanged _ fun _ hlease => by cases hlease
  | existing current bound bind stored =>
    exact h.proceeds_unchanged _ fun _ hlease => by cases hlease
  | recorded current next bound bind latest follows terminated identity key =>
    have hb := of_boundOutcome bind
    have hpasses := passes_recorded hb.identity hb.attemptId hb.fencingGeneration latest identity
    have hwritten := h.attempted.writeOutcome bound
    -- the lease is resolved before the outcome is looked at
    have hresolved := h.recorded.writeAttempt h.attempted follows latest
    have hrecorded : ((store.writeAttempt (digests.identityKey current.toEffectIdentity) next).writeOutcome
        digests bound).Recorded digests := by
      apply hresolved.writeOutcome
      · intro old hold
        have hold : store.outcomesByIdentity.get? _ = some old := hold
        rw [identity] at hold
        cases hold
      · intro old hold
        have hold : store.outcomesByIdempotency.get? _ = some old := hold
        rw [key] at hold
        cases hold
      · exact hb.authorized
      · refine ⟨next, ?_, terminated, ?_, ?_⟩
        · rw [h.attempted.latest_writeAttempt follows latest, if_pos (by rw [hb.identity])]
        · rw [hb.attemptId, follows.same.1]
        · rw [hb.fencingGeneration, follows.same.2.2.2.2.2.2.2]
    have hlatest : (store.writeOutcome digests bound).latest digests
        (digests.identityKey current.toEffectIdentity) = some current := latest
    refine ⟨⟨⟨h.decided.refs, h.decided.identities, h.decided.keys⟩,
      hwritten.writeAttempt follows hlatest, hrecorded⟩,
      h.attempted.passes_writeAttempt follows latest hpasses rfl hwritten _,
      fun _ hlease => (by cases hlease), ?_⟩
    intro attempt' hattempt hother
    obtain rfl := Option.some.inj hattempt
    rw [← hb.same.2.2.2.1] at hother
    exact absurd hb.same.1 (hother current latest)

end

/-! An operation that raises leaves the store. -/

omit [DecidableEq Ref] in
theorem replied_of_error {α : Type} {reply : α → Reply Ref M}
    {result : Except SideEffectError (α × InMemoryHarnessSideEffectStore Ref M)} {e : SideEffectError}
    (he : (store.replied reply result).1 = .error e) : (store.replied reply result).2 = store := by
  cases result with
  | error e' => rfl
  | ok value => cases he

theorem Decides.of_error {result : Except SideEffectError (HarnessSideEffectDecision Ref) ×
      InMemoryHarnessSideEffectStore Ref M} (hd : store.Decides digests result)
    {reply : HarnessSideEffectDecision Ref → Reply Ref M} {e : SideEffectError}
    (he : result.1.map reply = .error e) : result.2 = store := by
  cases hd with
  | unchanged result => rfl
  | decided decision undecided => cases he

theorem Acquires.of_error {result : Except SideEffectError (HarnessSideEffectAttemptLease Ref) ×
      InMemoryHarnessSideEffectStore Ref M} (ha : store.Acquires digests time result)
    {reply : HarnessSideEffectAttemptLease Ref → Reply Ref M} {e : SideEffectError}
    (he : result.1.map reply = .error e) : result.2 = store := by
  cases ha with
  | refused e' => rfl
  | existing lease stored => rfl
  | acquired decision lease next unrecorded => cases he

theorem Disposes.of_error {effectId disposition : String}
    {result : Except SideEffectError (Option (HarnessSideEffectOutcome Ref M)) ×
      InMemoryHarnessSideEffectStore Ref M}
    (hd : store.Disposes digests effectId disposition identityScopeRef subjectScopeRef result)
    (hclear : ¬ store.RedisposesAmbiguously
      (.setDisposition effectId disposition identityScopeRef subjectScopeRef))
    {reply : Option (HarnessSideEffectOutcome Ref M) → Reply Ref M} {e : SideEffectError}
    (he : result.1.map reply = .error e) : result.2 = store := by
  cases hd with
  | refused e' => rfl
  | unchanged result => rfl
  | halfway e' outcome next chosen ambiguous =>
    exact absurd ⟨⟨outcome, next, chosen⟩, ambiguous⟩ hclear
  | updated outcome next chosen => cases he
  | relinked outcome next chosen current lease latest follows => cases he

theorem Records.of_error {result : Except SideEffectError (HarnessSideEffectOutcome Ref M) ×
      InMemoryHarnessSideEffectStore Ref M} (hr : store.Records digests attempt outcome result)
    {reply : HarnessSideEffectOutcome Ref M → Reply Ref M} {e : SideEffectError}
    (he : result.1.map reply = .error e) : result.2 = store := by
  cases hr with
  | refused e' => rfl
  | existing current bound bind stored => rfl
  | recorded current next bound bind latest follows terminated identity key => cases he

/-- The time after a call. -/
def timeAfter (call : Call Ref M) (time : Datetime) : Datetime := call.readings.getLastD time

variable [DecidableEq M]

/-- What every call does. -/
theorem Inv.proceeds (h : store.Inv digests time) (call : Call Ref M)
    (hclock : ∀ t ∈ call.readings, time ≤ t) :
    Proceeds digests store (timeAfter call time) call.attempt? (store.answer digests call) := by
  cases call with
  | putDecision decision => exact h.proceeds_decides (decides_putDecision store digests decision)
  | acquireAttempt decision ownerId leaseId now =>
    have hnow := h.mono (hclock now mem_cons_self)
    exact hnow.proceeds_acquires (hnow.attempted.acquireAttempt decision ownerId leaseId now)
  | renewAttempt attempt checkedAt now =>
    have hnow := h.mono (hclock now (by simp [Call.readings]))
    exact hnow.proceeds_uses (hnow.attempted.renewAttempt attempt checkedAt now)
  | finishAttempt attempt terminationConfirmed now =>
    have hnow := h.mono (hclock now mem_cons_self)
    exact hnow.proceeds_uses (hnow.attempted.finishAttempt attempt terminationConfirmed le_rfl)
  | completeAttempt attempt outcome checkedAt now =>
    have hnow := h.mono (hclock now (by simp [Call.readings]))
    exact hnow.proceeds_records (hnow.completeAttempt attempt outcome checkedAt le_rfl)
  | reconcileAttempt attempt outcome now =>
    have hnow := h.mono (hclock now mem_cons_self)
    exact hnow.proceeds_records (hnow.reconcileAttempt attempt outcome le_rfl)
  | setDisposition effectId disposition identityScopeRef subjectScopeRef =>
    exact h.proceeds_disposes (h.setDisposition effectId disposition identityScopeRef subjectScopeRef)

variable {call : Call Ref M}

/-- A call that raises leaves the store, unless it changes a disposition ambiguously. -/
theorem Inv.raised (h : store.Inv digests time) (hclock : ∀ t ∈ call.readings, time ≤ t)
    (hclear : ¬ store.RedisposesAmbiguously call) {e : SideEffectError}
    (he : (store.answer digests call).1 = .error e) : (store.answer digests call).2 = store := by
  cases call with
  | putDecision decision => exact (decides_putDecision store digests decision).of_error he
  | acquireAttempt decision ownerId leaseId now =>
    exact (h.attempted.acquireAttempt decision ownerId leaseId now).of_error he
  | renewAttempt attempt checkedAt now | finishAttempt attempt terminationConfirmed now => exact replied_of_error he
  | completeAttempt attempt outcome checkedAt now =>
    have hnow := hclock now (by simp [Call.readings])
    exact (h.completeAttempt attempt outcome checkedAt hnow).of_error he
  | reconcileAttempt attempt outcome now =>
    exact (h.reconcileAttempt attempt outcome (hclock now mem_cons_self)).of_error he
  | setDisposition effectId disposition identityScopeRef subjectScopeRef =>
    exact (h.setDisposition effectId disposition identityScopeRef subjectScopeRef).of_error hclear he

/-- A call keeps the fences exactly when it does not change a disposition ambiguously. -/
theorem Inv.keeps_iff (h : store.Inv digests time) (hclock : ∀ t ∈ call.readings, time ≤ t) :
    store.Keeps digests call ↔ ¬ store.RedisposesAmbiguously call := by
  constructor
  · intro hkeeps hambiguous
    cases call with
    | setDisposition effectId disposition identityScopeRef subjectScopeRef =>
      obtain ⟨⟨outcome, next, chosen⟩, hmany⟩ := hambiguous
      have hr := h.recorded.redisposable chosen
      have heq : store.setDisposition digests effectId disposition identityScopeRef subjectScopeRef
          = _ := setDisposition_of_ambiguous chosen hmany
      have hanswer : store.answer digests
          (.setDisposition effectId disposition identityScopeRef subjectScopeRef) = _ :=
        congrArg (fun r => (Except.map Reply.outcome r.1, r.2)) heq
      have hstep := hkeeps.raised _ (congrArg Prod.fst hanswer)
      unfold InMemoryHarnessSideEffectStore.step at hstep
      rw [hanswer] at hstep
      -- the outcome of the changed disposition is in the place of the one before
      have hget := congrArg (fun s => s.outcomesByIdentity.get?
        (digests.identityKey outcome.toEffectIdentity)) hstep
      have hget : (store.outcomesByIdentity.set (digests.identityKey outcome.toEffectIdentity)
          (outcome.redisposed next)).get? (digests.identityKey outcome.toEffectIdentity) =
        store.outcomesByIdentity.get? (digests.identityKey outcome.toEffectIdentity) := hget
      rw [get?_set_self, hr.stored] at hget
      exact hr.other (congrArg HarnessSideEffectOutcome.disposition (Option.some.inj hget))
    | putDecision _ | acquireAttempt _ _ _ _ | renewAttempt _ _ _ | finishAttempt _ _ _
    | completeAttempt _ _ _ _ | reconcileAttempt _ _ _ => exact hambiguous
  · intro hclear
    have hp := h.proceeds call hclock
    refine ⟨hp.returned, hp.passes.created, hp.passes.remains, hp.passes.recorded, ?_, hp.stale,
      fun e he => h.raised hclock hclear he⟩
    intro key outcome hget
    rcases hp.passes.kept key outcome hget with ⟨outcome', hget', rfl | ⟨next, -, rfl⟩⟩
    · exact ⟨outcome', hget', rfl⟩
    · exact ⟨_, hget', rfl⟩

/-! ## Repeated calls -/

omit [DecidableEq M] in
/-- The attempt and the bound outcome of a later store. -/
theorem boundOutcome_later {attempt current : HarnessSideEffectAttemptLease Ref}
    {outcome bound : HarnessSideEffectOutcome Ref M}
    (hbind : store.boundOutcome digests attempt outcome = .ok (current, bound))
    (hdecisions : ∀ ref decision, store.decisionsByRef.get? ref = some decision →
      after.decisionsByRef.get? ref = some decision)
    (hleases : ∀ id attempt, store.attemptLeasesById.get? id = some attempt →
      ∃ attempt', after.attemptLeasesById.get? id = some attempt' ∧
        SameAttemptGeneration attempt' attempt) :
    ∃ current', after.boundOutcome digests attempt outcome = .ok (current', bound) := by
  unfold boundOutcome at hbind
  obtain ⟨current', hcurrent, hbind⟩ := bind_inv hbind
  obtain ⟨hauthorized, hbind⟩ := check_inv hbind
  obtain ⟨bound', hbound, hbind⟩ := bind_inv hbind
  obtain ⟨rfl, rfl⟩ := Prod.mk.inj (pure_eq_ok_iff.mp hbind)
  obtain ⟨hget, hsame⟩ := assertCurrentAttempt_eq_ok.mp hcurrent
  obtain ⟨later, hlater, hgeneration⟩ := hleases _ current' hget
  -- the later version binds in the same way
  have hbound' : bindOutcomeToAttempt outcome later = .ok bound' := by
    rw [← hbound]
    unfold bindOutcomeToAttempt
    rw [hgeneration.1, hgeneration.2.2.2.1, hgeneration.2.2.2.2.1, hgeneration.2.2.2.2.2.1,
      hgeneration.2.2.2.2.2.2.2]
  refine ⟨later, ?_⟩
  unfold boundOutcome
  rw [assertCurrentAttempt_eq_ok.mpr ⟨hlater, hgeneration.trans hsame⟩, ok_bind]
  unfold assertAuthorized at hauthorized ⊢
  obtain ⟨decision, hdecision, hmatches⟩ := bind_inv hauthorized
  rw [hdecisions _ decision (orRaise_eq_ok.mp hdecision), orRaise_some, ok_bind, hmatches, ok_bind,
    hbound', ok_bind]
  rfl

/-- A call that records an outcome which is in its place returns it. -/
theorem answer_again_of_stored {call : Call Ref M} {outcome bound : HarnessSideEffectOutcome Ref M}
    {attempt current : HarnessSideEffectAttemptLease Ref}
    (hattempt : call.attempt? = some attempt) (houtcome : call.outcome? = some outcome)
    (hbind : store.boundOutcome digests attempt outcome = .ok (current, bound))
    (hstored : store.outcomesByIdentity.get? (digests.identityKey bound.toEffectIdentity) = some bound)
    (checkedAt now : Datetime) :
    store.answer digests (call.again checkedAt now) = (.ok (.outcome (some bound)), store) := by
  have hexisting := existingOutcome_of_stored hstored
  cases call with
  | completeAttempt attempt' outcome' _ _ =>
    obtain rfl := Option.some.inj hattempt
    obtain rfl := Option.some.inj houtcome
    have hcomplete : store.completeAttempt digests attempt' outcome' checkedAt now = (.ok bound, store) := by
      unfold InMemoryHarnessSideEffectStore.completeAttempt
      rw [hbind]
      dsimp only
      rw [hexisting]
    exact congrArg (fun r => (Except.map (fun outcome => Reply.outcome (some outcome)) r.1, r.2)) hcomplete
  | reconcileAttempt attempt' outcome' _ =>
    obtain rfl := Option.some.inj hattempt
    obtain rfl := Option.some.inj houtcome
    have hreconcile : store.reconcileAttempt digests attempt' outcome' now = (.ok bound, store) := by
      unfold InMemoryHarnessSideEffectStore.reconcileAttempt
      rw [hbind]
      dsimp only
      rw [hexisting]
    exact congrArg (fun r => (Except.map (fun outcome => Reply.outcome (some outcome)) r.1, r.2)) hreconcile
  | putDecision _ | acquireAttempt _ _ _ _ | renewAttempt _ _ _ | finishAttempt _ _ _
  | setDisposition _ _ _ _ => cases houtcome

variable {outcome committed : HarnessSideEffectOutcome Ref M}

omit [DecidableEq M] in
/-- What a call with an outcome returned is in its place afterwards. -/
theorem Records.of_ok {result : Except SideEffectError (HarnessSideEffectOutcome Ref M) ×
      InMemoryHarnessSideEffectStore Ref M} (hr : store.Records digests attempt outcome result)
    (he : result.1.map (fun outcome => Reply.outcome (some outcome)) =
      (.ok (.outcome (some committed)) : Except SideEffectError (Reply Ref M))) :
    (∃ current, store.boundOutcome digests attempt outcome = .ok (current, committed)) ∧
      result.2.outcomesByIdentity.get? (digests.identityKey committed.toEffectIdentity) =
        some committed := by
  cases hr with
  | refused e => cases he
  | existing current bound bind stored =>
    cases he
    exact ⟨⟨current, bind⟩, stored⟩
  | recorded current next bound bind latest follows terminated identity key =>
    cases he
    exact ⟨⟨current, bind⟩, get?_set_self _ _ _⟩

/-- What a successful call with an outcome returned and left. -/
theorem Inv.of_committed (h : store.Inv digests time) (hclock : ∀ t ∈ call.readings, time ≤ t)
    (houtcome : call.outcome? = some outcome)
    (he : (store.answer digests call).1 = .ok (.outcome (some committed))) :
    ∃ attempt current, call.attempt? = some attempt ∧
      store.boundOutcome digests attempt outcome = .ok (current, committed) ∧
      (store.step digests call).outcomesByIdentity.get?
        (digests.identityKey committed.toEffectIdentity) = some committed := by
  cases call with
  | completeAttempt attempt outcome' checkedAt now =>
    obtain rfl := Option.some.inj houtcome
    have hnow := hclock now (by simp [Call.readings])
    obtain ⟨⟨current, hbind⟩, hstored⟩ := (h.completeAttempt attempt outcome' checkedAt hnow).of_ok he
    exact ⟨attempt, current, rfl, hbind, hstored⟩
  | reconcileAttempt attempt outcome' now =>
    obtain rfl := Option.some.inj houtcome
    have hnow := hclock now mem_cons_self
    obtain ⟨⟨current, hbind⟩, hstored⟩ := (h.reconcileAttempt attempt outcome' hnow).of_ok he
    exact ⟨attempt, current, rfl, hbind, hstored⟩
  | putDecision _ | acquireAttempt _ _ _ _ | renewAttempt _ _ _ | finishAttempt _ _ _
  | setDisposition _ _ _ _ => cases houtcome

/-! ## Runs -/

/-- The clock does not go back from a time on. -/
def Timely (time : Datetime) (calls : List (Call Ref M)) : Prop :=
  (time :: calls.flatMap Call.readings).Pairwise (· ≤ ·)

variable {calls : List (Call Ref M)}

omit [DecidableEq Ref] [DecidableEq M] in
theorem Timely.cons (h : Timely time (call :: calls)) :
    (∀ t ∈ call.readings, time ≤ t) ∧ Timely (timeAfter call time) calls := by
  unfold Timely at h ⊢
  rw [flatMap_cons, ← cons_append] at h
  obtain ⟨hcall, hcalls, hacross⟩ := pairwise_append.mp h
  refine ⟨(pairwise_cons.mp hcall).1, pairwise_cons.mpr ⟨?_, hcalls⟩⟩
  exact fun t ht => hacross _ getLastD_mem_cons t ht

section

variable (h : store.Inv digests time)

include h

/-- The store after a run, and the time that the rest of the run starts from. -/
theorem Inv.inv_run {calls later : List (Call Ref M)} (hclock : Timely time (calls ++ later)) :
    ∃ time', (run (step digests) store calls).Inv digests time' ∧ Timely time' later := by
  induction calls generalizing store time with
  | nil => exact ⟨time, h, hclock⟩
  | cons call calls ih =>
    obtain ⟨hcall, hrest⟩ := hclock.cons
    exact ih (h.proceeds call hcall).inv hrest

/-- What a run remembers of decisions and attempts. -/
theorem Inv.run_remembers (hclock : Timely time calls) :
    (∀ ref decision, store.decisionsByRef.get? ref = some decision →
      (run (step digests) store calls).decisionsByRef.get? ref = some decision) ∧
    ∀ id attempt, store.attemptLeasesById.get? id = some attempt →
      ∃ attempt', (run (step digests) store calls).attemptLeasesById.get? id = some attempt' ∧
        SameAttemptGeneration attempt' attempt := by
  induction calls generalizing store time with
  | nil => exact ⟨fun _ _ h => h, fun id attempt h => ⟨attempt, h, .refl attempt⟩⟩
  | cons call calls ih =>
    obtain ⟨hcall, hrest⟩ := hclock.cons
    have hp := h.proceeds call hcall
    obtain ⟨hdecisions, hleases⟩ := ih hp.inv hrest
    constructor
    · exact fun ref decision hget => hdecisions ref decision (hp.passes.decisions ref decision hget)
    · intro id attempt hget
      obtain ⟨attempt', hget', hsame⟩ := hp.passes.leases id attempt hget
      obtain ⟨attempt'', hget'', hsame'⟩ := hleases id attempt' hget'
      exact ⟨attempt'', hget'', hsame'.trans hsame⟩

/-- An outcome remains as it is until its disposition changes. -/
theorem Inv.run_keeps_outcome (hclock : Timely time calls) {key : Ref}
    (hget : store.outcomesByIdentity.get? key = some outcome)
    (hkeeps : Along (step digests) (fun store call => store.KeepsDisposition digests key call)
      store calls) :
    (run (step digests) store calls).outcomesByIdentity.get? key = some outcome := by
  induction calls generalizing store time with
  | nil => exact hget
  | cons call calls ih =>
    obtain ⟨hcall, hrest⟩ := hclock.cons
    have hp := h.proceeds call hcall
    apply ih hp.inv hrest ?_ hkeeps.2
    rcases hp.passes.kept key outcome hget with ⟨outcome', hget', rfl | ⟨next, hother, rfl⟩⟩
    · exact hget'
    · exact absurd (hkeeps.1 outcome _ hget hget') hother

theorem Inv.along_keeps_iff (hclock : Timely time calls) :
    Along (step digests) (Keeps digests) store calls ↔
      Along (step digests) (fun store call => ¬ store.RedisposesAmbiguously call) store calls := by
  induction calls generalizing store time with
  | nil => exact Iff.rfl
  | cons call calls ih =>
    obtain ⟨hcall, hrest⟩ := hclock.cons
    exact and_congr (h.keeps_iff hcall) (ih (h.proceeds call hcall).inv hrest)

/-- A call that recorded an outcome returns it again. -/
theorem Inv.answer_again {later : List (Call Ref M)}
    (hclock : Timely time (call :: later)) (houtcome : call.outcome? = some outcome)
    (he : (store.answer digests call).1 = .ok (.outcome (some committed)))
    (hkeeps : Along (step digests) (fun store call =>
        store.KeepsDisposition digests (digests.identityKey outcome.toEffectIdentity) call)
      (store.step digests call) later) (checkedAt now : Datetime) :
    (run (step digests) (store.step digests call) later).answer digests (call.again checkedAt now) =
      (.ok (.outcome (some committed)), run (step digests) (store.step digests call) later) := by
  obtain ⟨hcall, hrest⟩ := hclock.cons
  obtain ⟨attempt, current, hattempt, hbind, hstored⟩ := h.of_committed hcall houtcome he
  have hidentity := (of_boundOutcome hbind).outcome
  obtain ⟨hdecisions, hleases⟩ := h.run_remembers hclock
  rcases boundOutcome_later hbind hdecisions hleases with ⟨current', hbind'⟩
  rw [← hidentity] at hkeeps
  exact answer_again_of_stored hattempt houtcome hbind'
    ((h.proceeds call hcall).inv.run_keeps_outcome hrest hstored hkeeps) checkedAt now

end

/-- A run with a clock that does not go back, and attempt ids without collisions, keeps the fences
exactly when no call of it changes a disposition for which the attempts at more than one effect
come into question. -/
theorem runsFenced_iff (digests : Digests Ref M) (hdistinct : Function.Injective digests.attemptId)
    (attemptLeaseMicros : ℕ) (calls : List (Call Ref M))
    (hclock : (calls.flatMap Call.readings).Pairwise (· ≤ ·)) :
    RunsFenced digests attemptLeaseMicros calls ↔
      Along (step digests) (fun store call => ¬ store.RedisposesAmbiguously call)
        (empty attemptLeaseMicros) calls := by
  have htimely : Timely 0 calls := pairwise_cons.mpr ⟨fun t _ => Fin.zero_le t, hclock⟩
  have hempty : (empty attemptLeaseMicros : InMemoryHarnessSideEffectStore Ref M).Inv digests 0 :=
    inv_empty hdistinct attemptLeaseMicros 0
  constructor
  · intro h
    exact (hempty.along_keeps_iff htimely).mp h.keeps
  · intro h
    refine ⟨?_, (hempty.along_keeps_iff htimely).mpr h, ?_⟩
    · rintro before ⟨rest, rfl⟩
      rcases hempty.inv_run htimely with ⟨time, hinv, -⟩
      exact hinv.fenced
    · intro before call later outcome committed hprefix houtcome he hkeeps checkedAt now
      rcases hprefix with ⟨rest, rfl⟩
      rw [append_assoc] at htimely
      rcases hempty.inv_run htimely with ⟨time, hinv, hlater⟩
      have hlater : Timely time (call :: later) := by
        refine List.Pairwise.sublist (List.Sublist.cons_cons _ ?_) hlater
        rw [cons_append, flatMap_cons, flatMap_cons, flatMap_append, ← append_assoc]
        exact sublist_append_left _ _
      rw [run_append, run_cons, run_nil] at hkeeps
      rw [run_append, run_cons]
      exact hinv.answer_again hlater houtcome he hkeeps checkedAt now

end Calls

end InMemoryHarnessSideEffectStore

/-! ## Two instances of one node -/

/-- References that spell out what they are references of. -/
inductive Reference where
  | text (value : String)
  | number (value : ℕ)
  | pair (first second : Reference)
  deriving DecidableEq

namespace Reference

/-- Several references as one. -/
def all : List Reference → Reference
  | [] => text ""
  | first :: rest => pair first (all rest)

/-- A text that can be missing. -/
def option : Option String → Reference
  | none => number 0
  | some value => text value

/-- The fields of an identity. -/
def ofIdentity (identity : EffectIdentity Reference) : Reference :=
  all [text identity.runId, text identity.graphRef, identity.graphChecksum,
    option identity.nodeId, option identity.nodeInstanceId, option identity.activityId,
    number identity.activityAttempt, option identity.terminalAction, text identity.effectId,
    identity.identityScopeRef, identity.subjectScopeRef]

/-- Digests that spell out what they are taken of. -/
def digests : Digests Reference Unit where
  identityKey := ofIdentity
  attemptId attempt := pair attempt.decisionRef (pair (text attempt.effectId)
    (pair (text attempt.idempotencyKey) (number attempt.fencingGeneration)))
  decisionRef decision := pair (text decision.decisionId)
    (pair (ofIdentity decision.toEffectIdentity) (text decision.idempotencyKey))
  outcomeRef outcome := pair (text outcome.outcomeId)
    (pair (text outcome.disposition.value) (text outcome.reasonCode))

theorem injective_attemptId : Function.Injective digests.attemptId := by
  rintro ⟨ref, effectId, key, generation⟩ ⟨ref', effectId', key', generation'⟩ h
  simpa [digests] using h

end Reference

section

variable (instanceId : String)

/-- The identity of the effect of one instance of the publishing node. -/
def publishIdentity : EffectIdentity Reference where
  origin := .worker
  runId := "run-side-effect-identity"
  graphId := "research.graph"
  graphVersion := "1"
  graphRef := "research.graph@1"
  graphChecksum := .text "graph"
  nodeId := some "publish"
  nodeInstanceId := some instanceId
  activityId := some ("activity:" ++ instanceId)
  activityAttempt := 1
  terminalAction := none
  effectId := "shared-effect-id"
  identityScopeRef := .text "tenant-1"
  subjectScopeRef := .text "subject-1"

/-- The decision of one instance of the publishing node. -/
def publishDecision : HarnessSideEffectDecision Reference where
  toEffectIdentity := publishIdentity instanceId
  decisionId := "decision:" ++ instanceId
  intentRef := .text ("intent:" ++ instanceId)
  kind := "artifact"
  handler := ⟨"research.artifact", "1"⟩
  atomicGroup := "shared-effect-group"
  idempotencyKey := "key:" ++ instanceId
  commandOrdinal := 1
  causationId := "event:" ++ instanceId
  disposition := .prepared
  status := .authorized
  stepId := none
  workerResultRef := some ("worker:" ++ instanceId)
  terminalStateRef := none
  gateRefs := []
  gateResultRefs := []
  aggregateVerdictRef := none
  approvalEvidenceRef := some (.text "approval")
  budgetRef := none
  effectAttempt := 1
  effectAttemptLimit := 2
  reasonCode := "authorized"
  decisionVersion := "1"
  decidedAt := 0

/-- The first lease of one instance. -/
def publishLease : HarnessSideEffectAttemptLease Reference where
  toEffectIdentity := publishIdentity instanceId
  attemptId := Reference.digests.attemptId
    { decisionRef := Reference.digests.decisionChecksum (publishDecision instanceId)
      effectId := "shared-effect-id"
      idempotencyKey := "key:" ++ instanceId
      fencingGeneration := 1 }
  leaseId := "lease:" ++ instanceId
  ownerId := "owner:" ++ instanceId
  decisionRef := Reference.digests.decisionChecksum (publishDecision instanceId)
  idempotencyKey := "key:" ++ instanceId
  attempt := 1
  fencingGeneration := 1
  acquiredAt := 0
  leaseExpiresAt := 30000000
  status := .active
  terminationConfirmed := false
  resolvedAt := none
  outcomeRef := none

/-- The outcome of one instance. -/
def publishOutcome : HarnessSideEffectOutcome Reference Unit where
  toEffectIdentity := publishIdentity instanceId
  outcomeId := "outcome:" ++ instanceId
  decisionRef := Reference.digests.decisionChecksum (publishDecision instanceId)
  kind := "artifact"
  handler := ⟨"research.artifact", "1"⟩
  idempotencyKey := "key:" ++ instanceId
  atomicGroup := "shared-effect-group"
  disposition := .prepared
  status := .committed
  stepId := none
  candidateRefs := []
  publicRefs := []
  resultRef := none
  reasonCode := "committed"
  committedAt := 0
  retentionUntil := none
  metadata := ()
  attemptId := none
  fencingGeneration := none

end

/-- One instance acquires its attempt, renews it, completes it and is put into quarantine. -/
def publishOnce : List (Call Reference Unit) :=
  [.putDecision (publishDecision "publish:1"),
    .acquireAttempt (publishDecision "publish:1") "owner:publish:1" "lease:publish:1" 0,
    .renewAttempt (publishLease "publish:1") 1000000 1000000,
    .completeAttempt (publishLease "publish:1") (publishOutcome "publish:1") 2000000 2000000,
    .setDisposition "shared-effect-id" "quarantine" (.text "tenant-1") (.text "subject-1")]

/-- Another instance has an attempt when the outcome of the first is put into quarantine. -/
def publishTwice : List (Call Reference Unit) :=
  [.putDecision (publishDecision "publish:1"), .putDecision (publishDecision "publish:2"),
    .acquireAttempt (publishDecision "publish:1") "owner:publish:1" "lease:publish:1" 0,
    .acquireAttempt (publishDecision "publish:2") "owner:publish:2" "lease:publish:2" 0,
    .completeAttempt (publishLease "publish:1") (publishOutcome "publish:1") 2000000 2000000,
    .setDisposition "shared-effect-id" "quarantine" (.text "tenant-1") (.text "subject-1")]

namespace InMemoryHarnessSideEffectStore

/-- The fences of one instance. -/
theorem runsFenced_publishOnce : RunsFenced Reference.digests 30000000 publishOnce :=
  (runsFenced_iff Reference.digests Reference.injective_attemptId 30000000 publishOnce (by decide +kernel)).mpr
    ⟨id, id, id, id, fun h => absurd h.2 (by decide +kernel), trivial⟩

/-- The call for the second instance raises, and the outcome of the first is in quarantine. -/
theorem not_runsFenced_publishTwice : ¬ RunsFenced Reference.digests 30000000 publishTwice := by
  intro h
  have hraised := h.keeps.2.2.2.2.2.1.raised
    (.attemptError "side_effect_identity_ambiguous" "side-effect identity is ambiguous") (by decide +kernel)
  have houtcomes := congrArg (fun store => store.outcomesByIdentity.values.map (·.disposition)) hraised
  revert houtcomes
  decide +kernel

end InMemoryHarnessSideEffectStore

end HarnessSideEffects
