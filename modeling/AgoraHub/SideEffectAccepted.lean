/-
# Records that operations make

A lease of an accepted decision, an outcome bound to an attempt and an outcome of another
disposition are accepted by their constructors, like the records that they are made from.
-/
import AgoraHub.SideEffectStatements

open Fallible

namespace HarnessSideEffects

open HarnessSideEffectAttemptLease

open InMemoryHarnessSideEffectStore (Follows)

variable {Ref : Type}

/-! ## Leases -/

variable {decision : HarnessSideEffectDecision Ref}

/-- The identity that a decision gives to its leases is accepted. -/
theorem HarnessSideEffectDecision.Readable.leaseIdentity (h : decision.Readable)
    {attempt : HarnessSideEffectAttemptLease Ref}
    (hident : attempt.toEffectIdentity = decision.toEffectIdentity)
    (hkey : attempt.idempotencyKey = decision.idempotencyKey) :
    HarnessSideEffects.leaseIdentity attempt = .ok () := by
  have haccepted := h.accepted
  unfold postInit at haccepted
  simp only [check_bind_eq_ok, require_eq_ok] at haccepted
  rcases haccepted with ⟨-, heffect, -, hrun, -, hidempotency, -, -, -, hgraph, -, hactivity, -, -, -,
    hnode, hinstance, hactivityId, -, hterminal, -, -, horigin⟩
  unfold HarnessSideEffects.leaseIdentity
  rw [hident, hkey, heffect, ok_bind, hrun, ok_bind, hidempotency, ok_bind, hgraph, ok_bind, hnode,
    ok_bind, hinstance, ok_bind, hactivityId, ok_bind, hterminal, ok_bind]
  cases hcase : decision.origin with
  | worker =>
    simp only [hcase, check_bind_eq_ok, require_eq_ok] at horigin
    rcases horigin with ⟨⟨hn, hi, ha, -, ht⟩, -⟩
    rw [if_neg (by simp [hn, hi, ha]), check_of_pos ht, require_of_pos _ hactivity]
  | controllerTerminal =>
    simp only [hcase, check_bind_eq_ok, require_eq_ok] at horigin
    rcases horigin with ⟨⟨ht, -, hn, hi, ha, -⟩, -⟩
    rw [if_pos (Or.inl hn), check_of_pos ⟨hn, hi, ha⟩, check_of_pos ht, require_of_pos _ hactivity]

theorem HarnessSideEffectDecision.Readable.one_le_limit (h : decision.Readable) :
    1 ≤ decision.effectAttemptLimit := by
  have haccepted := h.accepted
  unfold postInit at haccepted
  simp only [check_bind_eq_ok, require_eq_ok] at haccepted
  exact haccepted.2.2.2.2.2.2.2.2.2.2.2.2.2.1

variable [DecidableEq Ref] {digests : RecordDigests Ref}

/-- A lease that is created is an accepted one of the decision, not yet resolved. -/
structure Created (digests : RecordDigests Ref) (decision : HarnessSideEffectDecision Ref)
    (generation : ℕ) (ownerId leaseId : String) (attempt : HarnessSideEffectAttemptLease Ref) :
    Prop where
  readable : attempt.Readable
  of : AttemptOf digests attempt decision
  digest : attempt.attemptId = digests.attemptId
    { decisionRef := digests.decisionChecksum decision
      effectId := decision.effectId
      idempotencyKey := decision.idempotencyKey
      fencingGeneration := generation }
  generation : attempt.fencingGeneration = generation
  ownerId : attempt.ownerId = ownerId
  leaseId : attempt.leaseId = leaseId
  unresolved : attempt.outcomeRef = none

omit [DecidableEq Ref] in
theorem created_of_createLease (h : decision.Readable) {generation : ℕ} {ownerId leaseId : String}
    {acquiredAt leaseExpiresAt : Datetime} {attempt : HarnessSideEffectAttemptLease Ref}
    (hcreate : digests.createLease decision generation ownerId leaseId acquiredAt leaseExpiresAt
      = .ok attempt) : Created digests decision generation ownerId leaseId attempt := by
  unfold Digests.createLease at hcreate
  simp only [check_bind_eq_ok] at hcreate
  rcases hcreate with ⟨-, -, -, hinit⟩
  rcases postInit_eq_ok.mp hinit with ⟨rfl, hchecked⟩
  exact ⟨⟨h.leaseIdentity rfl rfl, hchecked⟩, ⟨rfl, rfl, rfl⟩, rfl, rfl, rfl, rfl, rfl⟩

/-! ## Outcomes -/

variable {outcome bound : HarnessSideEffectOutcome Ref Metadata}
  {current : HarnessSideEffectAttemptLease Ref}

/-- An outcome of an attempt is bound by giving it the fence of the attempt. -/
theorem of_bindOutcomeToAttempt (hbind : bindOutcomeToAttempt outcome current = .ok bound) :
    (outcome.toEffectIdentity = current.toEffectIdentity ∧ outcome.decisionRef = current.decisionRef) ∧
      bound = { outcome with
        attemptId := some current.attemptId
        fencingGeneration := some current.fencingGeneration } := by
  unfold bindOutcomeToAttempt at hbind
  obtain ⟨hidentity, hbind⟩ := check_inv hbind
  rcases of_require hidentity with ⟨hident, href, -⟩
  refine ⟨⟨hident, href⟩, ?_⟩
  cases hid : outcome.attemptId with
  | none =>
    rw [hid] at hbind
    exact (pure_eq_ok_iff.mp hbind).symm
  | some id =>
    rw [hid] at hbind
    obtain ⟨hfence, hbind⟩ := check_inv hbind
    rcases of_require hfence with ⟨hattempt, hgeneration⟩
    rw [← pure_eq_ok_iff.mp hbind, ← hattempt, ← hgeneration, ← hid]

theorem fences_of_bindOutcomeToAttempt (hbind : bindOutcomeToAttempt outcome current = .ok bound) :
    Fences current bound := by
  rcases of_bindOutcomeToAttempt hbind with ⟨⟨hident, href⟩, rfl⟩
  exact ⟨hident, href, rfl, rfl⟩

/-- An outcome that is bound to an attempt is still one of its decision. -/
theorem OutcomeOf.of_bindOutcomeToAttempt (hof : OutcomeOf digests outcome decision)
    (hbind : bindOutcomeToAttempt outcome current = .ok bound) :
    OutcomeOf digests bound decision := by
  rcases HarnessSideEffects.of_bindOutcomeToAttempt hbind with ⟨-, rfl⟩
  exact hof

/-- An outcome that is bound to an attempt is accepted. -/
theorem readable_of_bindOutcomeToAttempt (h : outcome.Readable)
    (hpositive : 1 ≤ current.fencingGeneration)
    (hbind : bindOutcomeToAttempt outcome current = .ok bound) : bound.Readable := by
  rcases of_bindOutcomeToAttempt hbind with ⟨-, rfl⟩
  refine ⟨?_, h.stepless, h.json⟩
  have haccepted := h.accepted
  unfold HarnessSideEffectOutcome.postInit at haccepted ⊢
  simp only [check_bind_eq_ok, require_eq_ok] at haccepted ⊢
  cases horigin : outcome.origin with
  | worker =>
    simp only [horigin, check_bind_eq_ok, require_eq_ok] at haccepted ⊢
    rcases haccepted with ⟨h1, h2, h3, h4, h5, h6, h7, h8, h9, h10, h11, h12, h13, h14, h15, h16,
      h17, h18, h19, -, -, h20, h21, -⟩
    exact ⟨h1, h2, h3, h4, h5, h6, h7, h8, h9, h10, h11, h12, h13, h14, h15, h16, h17, h18, h19,
      rfl, by simpa using hpositive, h20, h21, rfl⟩
  | controllerTerminal =>
    simp only [horigin, check_bind_eq_ok, require_eq_ok] at haccepted ⊢
    rcases haccepted with ⟨h1, h2, h3, h4, h5, h6, h7, h8, h9, h10, h11, h12, h13, h14, h15, h16,
      h18, h19, -, -, h20, h21, -⟩
    exact ⟨h1, h2, h3, h4, h5, h6, h7, h8, h9, h10, h11, h12, h13, h14, h15, h16, h18, h19,
      rfl, by simpa using hpositive, h20, h21, rfl⟩

omit [DecidableEq Ref] in
/-- An outcome of another disposition is accepted. -/
theorem HarnessSideEffectOutcome.Readable.redisposed
    {outcome : HarnessSideEffectOutcome Ref Metadata} (h : outcome.Readable)
    {disposition : HarnessSideEffectDisposition} (hnext : disposition ≠ .accepted) :
    (outcome.redisposed disposition).Readable := by
  refine ⟨?_, h.stepless, h.json⟩
  have hreason : requiredText ("disposition_" ++ disposition.value) "reason_code" = .ok () := by
    cases disposition <;> decide
  have hrefs : HarnessSideEffects.candidateRefs [] "public_refs" = .ok () := by decide
  have haccepted := h.accepted
  unfold postInit at haccepted ⊢
  simp only [check_bind_eq_ok, require_eq_ok] at haccepted ⊢
  cases horigin : outcome.origin with
  | worker =>
    simp only [horigin, check_bind_eq_ok, require_eq_ok] at haccepted
    rcases haccepted with ⟨h1, h2, h3, h4, h5, h6, -, h8, h9, h10, h11, h12, h13, h14, h15, h16,
      h17, h18, -, h19, h20, -, -, -⟩
    have horigin' : (outcome.redisposed disposition).origin = .worker := horigin
    simp only [horigin', check_bind_eq_ok, require_eq_ok]
    exact ⟨h1, h2, h3, h4, h5, h6, hreason, h8, h9, h10, h11, h12, h13, h14, h15, h16, h17, h18,
      hrefs, h19, h20, fun he => absurd he hnext, fun _ => rfl, rfl⟩
  | controllerTerminal =>
    simp only [horigin, check_bind_eq_ok, require_eq_ok] at haccepted
    rcases haccepted with ⟨h1, h2, h3, h4, h5, h6, -, h8, h9, h10, h11, h12, h13, h14, h15, h16,
      h18, -, h19, h20, -, -, -⟩
    have horigin' : (outcome.redisposed disposition).origin = .controllerTerminal := horigin
    simp only [horigin', check_bind_eq_ok, require_eq_ok]
    exact ⟨h1, h2, h3, h4, h5, h6, hreason, h8, h9, h10, h11, h12, h13, h14, h15, h16, h18,
      hrefs, h19, h20, fun he => absurd he hnext, fun _ => rfl, rfl⟩

omit [DecidableEq Ref] in
theorem Written.revises_redisposed (outcome : HarnessSideEffectOutcome Ref Metadata)
    (disposition : HarnessSideEffectDisposition) :
    Written.Revises outcome (outcome.redisposed disposition) :=
  ⟨rfl, rfl, rfl, rfl, rfl, rfl, rfl, rfl, rfl⟩

/-! ## Resolved attempts -/

omit [DecidableEq Ref] in
/-- A resolved attempt is the same attempt, with the reference that it was given. -/
theorem follows_of_resolved {current next : HarnessSideEffectAttemptLease Ref}
    (hopen : current.status ≠ .terminated) {confirmed : Bool} {now : Datetime}
    {outcomeRef : Option Ref} (h : current.resolved confirmed now outcomeRef = .ok next) :
    Follows current next ∧ next.outcomeRef = outcomeRef := by
  unfold HarnessSideEffectAttemptLease.resolved at h
  rw [if_neg hopen] at h
  rcases postInit_eq_ok.mp h with ⟨rfl, hchecked⟩
  exact ⟨⟨⟨rfl, rfl, rfl, rfl, rfl, rfl, rfl, rfl⟩, hchecked, rfl, fun he => absurd he hopen⟩, rfl⟩

omit [DecidableEq Ref] in
/-- An attempt that was acquired before resolves with an outcome. -/
theorem HarnessSideEffectAttemptLease.exists_resolved {current : HarnessSideEffectAttemptLease Ref}
    (h : current.Checked) (hopen : current.status ≠ .terminated) {now : Datetime}
    (hafter : current.acquiredAt ≤ now) (outcomeRef : Ref) :
    ∃ next, current.resolved true now (some outcomeRef) = .ok next := by
  unfold HarnessSideEffectAttemptLease.resolved
  rw [if_neg hopen]
  refine ⟨_, postInit_eq_ok.mpr ⟨rfl, h.leaseId, h.ownerId, h.positive,
    h.attempt_eq, h.expires, ?_, ?_, ?_⟩⟩
  · simpa using hafter
  · intro hactive
    cases hactive
  · intro _
    exact ⟨Option.some_ne_none _, by simp, by simp⟩

omit [DecidableEq Ref] in
theorem HarnessSideEffectAttemptLease.outcomeRef_of_renewed
    {current next : HarnessSideEffectAttemptLease Ref} {expiry : Datetime}
    (h : current.renewed expiry = .ok next) : next.outcomeRef = current.outcomeRef := by
  unfold HarnessSideEffectAttemptLease.renewed at h
  iterate 2 rcases check_inv h with ⟨-, h⟩
  rw [(postInit_eq_ok.mp h).1]

omit [DecidableEq Ref] in
/-- A relinked attempt is the same attempt, with the reference that it was given. -/
theorem follows_of_relinkedOutcome {current next : HarnessSideEffectAttemptLease Ref}
    {outcomeRef : Ref} (h : current.relinkedOutcome outcomeRef = .ok next) :
    Follows current next ∧ next.outcomeRef = some outcomeRef := by
  unfold relinkedOutcome at h
  obtain ⟨-, h⟩ := check_inv h
  rcases postInit_eq_ok.mp h with ⟨rfl, hchecked⟩
  exact ⟨⟨⟨rfl, rfl, rfl, rfl, rfl, rfl, rfl, rfl⟩, hchecked, rfl, fun he => he⟩, rfl⟩

end HarnessSideEffects
