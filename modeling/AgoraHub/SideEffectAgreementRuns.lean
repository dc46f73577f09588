/-
# Runs of two stores

A reading finds the same records in both stores where the condition of its call holds.  So a run
of calls that are all alike for the stores is answered alike by them, call by call, and leaves them
with the same records.
-/
import AgoraHub.SideEffectAgreementSteps

open Fallible StepRuns HarnessSideEffects.SQLiteHarnessSideEffectStore

namespace HarnessSideEffects

open List PyDict InMemoryHarnessSideEffectStore SQLiteHarnessSideEffectStore Reference

open SQLiteHarnessSideEffectStore (ofWritten commit)

section Stores

variable {Ref : Type} [DecidableEq Ref]
variable {attemptLeaseMicros : ℕ} {sqlite : SQLite} {digests : RecordDigests Ref} {count : Ref → ℕ}
variable {written : Written Ref} {store : InMemoryHarnessSideEffectStore Ref Metadata}

/-! ## Agreeing answers -/

omit [DecidableEq Ref] in
theorem agrees_rfl {α : Type} {result : Except SideEffectError α} : Agrees result result := by
  cases result with
  | error e => exact fun _ he => he
  | ok value => rfl

omit [DecidableEq Ref] in
theorem agrees_plain {α : Type} {message : String} {e : SideEffectError} :
    Agrees (.error (.plain message) : Except SideEffectError α) (.error e) := fun _ he => nomatch he

omit [DecidableEq Ref] in
/-- Of agreeing answers both are values, or none. -/
theorem Agrees.isOk_eq {α : Type} {result result' : Except SideEffectError α}
    (h : Agrees result result') : result.isOk = result'.isOk := by
  cases result with
  | error e =>
    cases result' with
    | error e' => rfl
    | ok value' => exact h.elim
  | ok value =>
    cases result' with
    | error e' => exact h.elim
    | ok value' => rfl

theorem filter_eq_singleton {α : Type} [DecidableEq α] {xs : List α} {p : α → Bool} {x : α}
    (hnodup : xs.Nodup) (hmem : x ∈ xs) (hp : ∀ y ∈ xs, p y = true ↔ y = x) : xs.filter p = [x] := by
  have hsame : xs.filter p = xs.filter fun y => y == x := by
    apply filter_congr
    intro y hy
    rw [Bool.eq_iff_iff, hp y hy, beq_iff_eq]
  rw [hsame, filter_beq, count_eq_one_of_mem hnodup hmem, replicate_one]

variable (h : Mirrored attemptLeaseMicros sqlite digests count written store)

include h

/-! ## Outcomes -/

variable {effectId : String}

variable {outcome : HarnessSideEffectOutcome Ref Metadata}

theorem Mirrored.mem_outcomesOfEffect : outcome ∈ store.outcomesOfEffect effectId ↔
      outcome ∈ written.outcomes ∧ outcome.effectId = effectId := by
  unfold outcomesOfEffect
  rw [mem_filter, h.mirrors.outcomesByIdentity, values_index, decide_eq_true_eq]

theorem Mirrored.outcomesOfEffect_sublist :
    (store.outcomesOfEffect effectId).Sublist written.outcomes := by
  unfold outcomesOfEffect
  rw [h.mirrors.outcomesByIdentity, values_index]
  exact filter_sublist

/-- `read_outcome` answers alike. -/
theorem Mirrored.readOutcome_agrees (effectId : String) (identityScopeRef subjectScopeRef : Ref) :
    Agrees (store.readOutcome effectId identityScopeRef subjectScopeRef)
      ((ofWritten digests count written).readOutcome digests effectId identityScopeRef
        subjectScopeRef) := by
  have hrows : ((ofWritten digests count written).outcomeRowsOf effectId).filter (fun row =>
      row.identityScopeRef = identityScopeRef ∧ row.subjectScopeRef = subjectScopeRef ∧
        (none : Option String).all fun key => row.idempotencyKey = key) =
      (store.outcomesInScope effectId identityScopeRef subjectScopeRef).map (outcomeRow digests) := by
    rw [← h.outcomeRowsInScope]
    apply filter_congr
    intro row _
    simp
  unfold InMemoryHarnessSideEffectStore.readOutcome SQLiteHarnessSideEffectStore.readOutcome
    outcomeForEffect
  rw [resolveOutcome_eq, hrows, h.outcomeRowsOf]
  cases hscope : store.outcomesInScope effectId identityScopeRef subjectScopeRef with
  | nil =>
    rw [map_nil]
    have hall : ((store.outcomesOfEffect effectId).map (outcomeRow digests)).all (fun row =>
        (none : Option String).all fun key => row.idempotencyKey = key) = true :=
      all_eq_true.mpr fun _ _ => rfl
    rw [check_of_pos hall]
    by_cases hempty : store.outcomesOfEffect effectId = []
    · rw [if_pos hempty, hempty]
      exact agrees_rfl
    · have hsome : ¬ (store.outcomesOfEffect effectId).map (outcomeRow digests) = [] :=
        fun he => hempty (map_eq_nil_iff.mp he)
      rw [if_neg hempty, require_of_neg _ hsome]
      exact agrees_plain
  | cons outcome rest =>
    cases rest with
    | cons other rest => exact agrees_rfl
    | nil =>
      have hmem : outcome ∈ store.outcomesInScope effectId identityScopeRef subjectScopeRef := by
        rw [hscope]
        exact mem_cons_self
      rw [map_cons, map_nil]
      dsimp only
      rw [h.authorizedOutcome (h.mem_outcomesInScope.mp hmem).1]
      exact agrees_rfl

variable {identityScopeRef subjectScopeRef : Ref}

/-- `get_outcome` answers alike. -/
theorem Mirrored.getOutcome_agrees {idempotencyKey : String}
    (halike : store.outcomesByIdempotency.get? idempotencyKey ≠ none ↔
      store.outcomesOfEffect effectId ≠ []) :
    Agrees (store.getOutcome effectId identityScopeRef subjectScopeRef idempotencyKey)
      ((ofWritten digests count written).getOutcome digests effectId identityScopeRef subjectScopeRef
        idempotencyKey) := by
  have hrows : ((ofWritten digests count written).outcomeRowsOf effectId).filter (fun row =>
      row.identityScopeRef = identityScopeRef ∧ row.subjectScopeRef = subjectScopeRef ∧
        (some idempotencyKey).all fun key => row.idempotencyKey = key) =
      ((store.outcomesOfEffect effectId).filter fun outcome =>
        outcome.identityScopeRef = identityScopeRef ∧ outcome.subjectScopeRef = subjectScopeRef ∧
          outcome.idempotencyKey = idempotencyKey).map (outcomeRow digests) := by
    rw [h.outcomeRowsOf, filter_map]
    congr 1
    apply filter_congr
    intro outcome _
    exact decide_eq_decide.mpr (and_congr_right fun _ => and_congr_right fun _ => decide_eq_true_iff)
  unfold InMemoryHarnessSideEffectStore.getOutcome SQLiteHarnessSideEffectStore.getOutcome
    outcomeForEffect
  rw [hrows, h.outcomeRowsOf]
  cases hget : store.outcomesByIdempotency.get? idempotencyKey with
  | none =>
    have hempty : store.outcomesOfEffect effectId = [] := by
      by_contra hne
      exact halike.mpr hne hget
    rw [hempty]
    exact agrees_rfl
  | some outcome =>
    have hne : store.outcomesOfEffect effectId ≠ [] := by
      apply halike.mp
      rw [hget]
      exact Option.some_ne_none _
    obtain ⟨hmem, hkey⟩ := h.get?_idempotency.mp hget
    -- no other outcome has the key
    have hunique : ∀ other ∈ written.outcomes, other.idempotencyKey = idempotencyKey →
        other = outcome := fun other hother he =>
      inj_on_of_nodup_map h.outcomeIdempotency hother hmem (he.trans hkey.symm)
    dsimp only
    by_cases hmatch : outcome.effectId = effectId ∧ outcome.identityScopeRef = identityScopeRef ∧
        outcome.subjectScopeRef = subjectScopeRef
    · have hfound : (store.outcomesOfEffect effectId).filter (fun other =>
          decide (other.identityScopeRef = identityScopeRef ∧ other.subjectScopeRef = subjectScopeRef ∧
            other.idempotencyKey = idempotencyKey)) = [outcome] := by
        apply filter_eq_singleton
        · exact (List.Nodup.of_map _ h.consistent.recorded.refs).sublist h.outcomesOfEffect_sublist
        · exact h.mem_outcomesOfEffect.mpr ⟨hmem, hmatch.1⟩
        · intro other hother
          rw [decide_eq_true_eq]
          constructor
          · exact fun hall => hunique other (h.mem_outcomesOfEffect.mp hother).1 hall.2.2
          · rintro rfl
            exact ⟨hmatch.2.1, hmatch.2.2, hkey⟩
      rw [hfound, map_cons, map_nil]
      dsimp only
      rw [h.authorizedOutcome hmem]
      unfold assertScope
      rw [check_of_pos hmatch.1]
      exact agrees_rfl
    · have hfound : (store.outcomesOfEffect effectId).filter (fun other =>
          decide (other.identityScopeRef = identityScopeRef ∧ other.subjectScopeRef = subjectScopeRef ∧
            other.idempotencyKey = idempotencyKey)) = [] := by
        rw [filter_eq_nil_iff]
        intro other hother hscope
        obtain ⟨hstored, heffect⟩ := h.mem_outcomesOfEffect.mp hother
        obtain ⟨hidentity, hsubject, hkey'⟩ := of_decide_eq_true hscope
        rw [hunique other hstored hkey'] at heffect hidentity hsubject
        exact hmatch ⟨heffect, hidentity, hsubject⟩
      have hsome : ¬ (store.outcomesOfEffect effectId).map (outcomeRow digests) = [] :=
        fun he => hne (map_eq_nil_iff.mp he)
      have hmemory : ∃ message, (require (outcome.effectId = effectId)
          (.plain "side-effect outcome identity mismatch") >>= fun _ =>
            assertScope outcome identityScopeRef subjectScopeRef >>=
              fun _ => require (outcome.idempotencyKey = idempotencyKey)
                (.plain "side-effect outcome idempotency identity mismatch") >>= fun _ =>
                  pure (some outcome)) = .error (.plain message) := by
        unfold assertScope
        by_cases heffect : outcome.effectId = effectId
        · rw [check_of_pos heffect, require_of_neg _ fun hscope => hmatch ⟨heffect, hscope⟩]
          exact ⟨_, rfl⟩
        · rw [require_of_neg _ heffect]
          exact ⟨_, rfl⟩
      obtain ⟨message, hmemory⟩ := hmemory
      rw [hmemory, hfound, map_nil]
      by_cases hall : ((store.outcomesOfEffect effectId).map (outcomeRow digests)).all (fun row =>
          (some idempotencyKey).all fun key => row.idempotencyKey = key) = true
      · rw [check_of_pos hall, require_of_neg _ hsome]
        exact agrees_plain
      · rw [require_of_neg _ hall]
        exact agrees_plain

/-! ## Decisions -/

/-- `get_decision` answers alike. -/
theorem Mirrored.getDecision_agrees (decisionRef : Ref) :
    Agrees (.ok (store.decisionsByRef.get? decisionRef))
      ((ofWritten digests count written).getDecision digests decisionRef) := by
  have hfind : (ofWritten digests count written).tables.decisions.find? (fun row =>
      decide (row.decisionRef = decisionRef))
      = (store.decisionsByRef.get? decisionRef).map (decisionRow digests) := by
    rw [h.mirrors.decisionsByRef, get?_index]
    show (written.decisions.map (decisionRow digests)).find? _ = _
    rw [List.find?_map]
    rfl
  unfold SQLiteHarnessSideEffectStore.getDecision
  rw [hfind]
  cases hget : store.decisionsByRef.get? decisionRef with
  | none => exact agrees_rfl
  | some decision =>
    have hread := h.consistent.decided.readable decision (h.get?_ref.mp hget).1
    rw [Option.map_some]
    dsimp only
    rw [decisionFromRow_decisionRow hread]
    exact agrees_rfl

/-- `list_decisions` answers alike. -/
theorem Mirrored.listDecisions_agrees (runId : String) : Agrees (.ok (store.listDecisions runId))
      ((ofWritten digests count written).listDecisions digests runId) := by
  have hlist : (((ofWritten digests count written).tables.decisions.filter fun row =>
      decide (row.runId = runId)).insertionSort DecisionRowLe)
      = (store.listDecisions runId).map (decisionRow digests) := by
    unfold InMemoryHarnessSideEffectStore.listDecisions
    rw [h.mirrors.decisionsById, values_index,
      map_insertionSort DecisionLe
        DecisionRowLe (decisionRow digests) _ fun _ _ _ _ => Iff.rfl]
    show ((written.decisions.map (decisionRow digests)).filter _).insertionSort _ = _
    rw [filter_map]
    rfl
  have hread : ((store.listDecisions runId).map (decisionRow digests)).mapM (decisionFromRow digests)
      = .ok (store.listDecisions runId) := by
    apply mapM_map_eq_ok
    intro decision hdecision
    unfold InMemoryHarnessSideEffectStore.listDecisions at hdecision
    rw [mem_insertionSort, h.mirrors.decisionsById, values_index] at hdecision
    exact decisionFromRow_decisionRow
      (h.consistent.decided.readable decision (mem_filter.mp hdecision).1)
  unfold SQLiteHarnessSideEffectStore.listDecisions
  rw [hlist, hread]
  exact agrees_rfl

/-! ## Attempts -/

variable {decision : HarnessSideEffectDecision Ref}

theorem Mirrored.mem_decisionsOfEffect : decision ∈ store.decisionsOfEffect effectId ↔
      decision ∈ written.decisions ∧ decision.effectId = effectId := by
  unfold decisionsOfEffect
  rw [mem_filter, h.mirrors.decisionsById, values_index, decide_eq_true_eq]

theorem Mirrored.mem_decisionsInScope :
    decision ∈ store.decisionsInScope effectId identityScopeRef subjectScopeRef ↔
      decision ∈ written.decisions ∧ decision.effectId = effectId ∧
        decision.identityScopeRef = identityScopeRef ∧ decision.subjectScopeRef = subjectScopeRef := by
  unfold decisionsInScope
  rw [mem_filter, h.mem_decisionsOfEffect, decide_eq_true_eq, and_assoc]

theorem Mirrored.decisionsInScope_sublist :
    (store.decisionsInScope effectId identityScopeRef subjectScopeRef).Sublist written.decisions := by
  unfold decisionsInScope
    decisionsOfEffect
  rw [h.mirrors.decisionsById, values_index]
  exact filter_sublist.trans filter_sublist

variable {attempt : HarnessSideEffectAttemptLease Ref}

/-- The latest attempts at the effects of an effect id and two scopes. -/
theorem Mirrored.mem_leasesInScope :
    attempt ∈ store.leasesOf effectId identityScopeRef subjectScopeRef ↔
      (attempt ∈ written.attemptLeases ∧
        written.latest digests (attemptKey digests attempt) = some attempt) ∧
        attempt.effectId = effectId ∧ attempt.identityScopeRef = identityScopeRef ∧
          attempt.subjectScopeRef = subjectScopeRef := by
  unfold leasesOf
  rw [mem_filter, mem_filter, decide_eq_true_eq, decide_eq_true_eq, and_assoc]
  refine and_congr_left fun _ => ⟨h.lease_of_mem_values, ?_⟩
  rintro ⟨-, hlatest⟩
  exact mem_values_of_get? ((h.get?_latest _).trans hlatest)

theorem Mirrored.decision_of_attempt (hmem : attempt ∈ written.attemptLeases) :
    ∃ decision ∈ store.decisionsInScope attempt.effectId attempt.identityScopeRef
      attempt.subjectScopeRef, decisionKey digests decision = attemptKey digests attempt := by
  obtain ⟨decision, hdecision, hof⟩ := h.consistent.attempted.authorized attempt hmem
  refine ⟨decision, h.mem_decisionsInScope.mpr ⟨hdecision, ?_⟩, congrArg digests.identityKey hof.1.symm⟩
  rw [hof.1]
  exact ⟨rfl, rfl, rfl⟩

theorem Mirrored.decision_of_outcome (hmem : outcome ∈ written.outcomes) :
    ∃ decision ∈ store.decisionsInScope outcome.effectId outcome.identityScopeRef
      outcome.subjectScopeRef, decisionKey digests decision = outcomeKey digests outcome := by
  obtain ⟨decision, hdecision, hof⟩ := h.consistent.recorded.authorized outcome hmem
  refine ⟨decision, h.mem_decisionsInScope.mpr ⟨hdecision, ?_⟩,
    congrArg digests.identityKey hof.2.1.symm⟩
  rw [hof.2.1]
  exact ⟨rfl, rfl, rfl⟩

/-- Without a decision of an effect id there is no attempt at its effects. -/
theorem Mirrored.attemptsOfEffect_eq_nil (hempty : store.decisionsOfEffect effectId = []) :
    store.attemptsOfEffect effectId = [] := by
  unfold attemptsOfEffect
  rw [filter_eq_nil_iff]
  intro attempt hattempt he
  have hmem := (h.lease_of_mem_values hattempt).1
  obtain ⟨decision, hdecision, hof⟩ := h.consistent.attempted.authorized attempt hmem
  have hin : decision ∈ store.decisionsOfEffect effectId := by
    refine h.mem_decisionsOfEffect.mpr ⟨hdecision, ?_⟩
    rw [← hof.1]
    exact of_decide_eq_true he
  rw [hempty] at hin
  cases hin

/-- The key of the only decision of an effect id and two scopes. -/
theorem Mirrored.identityKeyForEffect (effectId : String) (identityScopeRef subjectScopeRef : Ref) :
    (ofWritten digests count written).identityKeyForEffect effectId identityScopeRef subjectScopeRef =
      match store.decisionsInScope effectId identityScopeRef subjectScopeRef with
      | [] =>
        if store.decisionsOfEffect effectId = [] then .ok none
        else .error (.plain "side-effect attempt scope mismatch")
      | [decision] => .ok (some (decisionKey digests decision))
      | _ :: _ :: _ => .error (.attemptError "side_effect_identity_ambiguous"
          "side-effect identity is ambiguous") := by
  have hrows : (ofWritten digests count written).tables.decisions.filter (fun row =>
      decide (row.decisionJson.effectId = effectId))
      = (store.decisionsOfEffect effectId).map (decisionRow digests) := by
    unfold decisionsOfEffect
    rw [h.mirrors.decisionsById, values_index]
    show (written.decisions.map (decisionRow digests)).filter _ = _
    rw [filter_map]
    rfl
  have hkeys : ((((store.decisionsOfEffect effectId).map (decisionRow digests)).filter fun row =>
      decide (row.identityScopeRef = identityScopeRef ∧ row.subjectScopeRef = subjectScopeRef)).map
        (·.effectId)).dedup
      = (store.decisionsInScope effectId identityScopeRef subjectScopeRef).map (decisionKey digests) := by
    rw [filter_map, map_map]
    apply List.Nodup.dedup
    exact h.consistent.decided.keys.sublist (List.Sublist.map _ h.decisionsInScope_sublist)
  unfold SQLiteHarnessSideEffectStore.identityKeyForEffect
  dsimp only
  rw [hrows, hkeys]
  cases store.decisionsInScope effectId identityScopeRef subjectScopeRef with
  | nil =>
    by_cases hempty : store.decisionsOfEffect effectId = []
    · rw [if_pos hempty, hempty]
      rfl
    · have hsome : ¬ (store.decisionsOfEffect effectId).map (decisionRow digests) = [] :=
        fun he => hempty (map_eq_nil_iff.mp he)
      rw [if_neg hempty, map_nil]
      rw [require_of_neg _ hsome]
      rfl
  | cons decision rest =>
    cases rest with
    | nil => rfl
    | cons other rest => rfl

/-- An attempt is the latest one of one effect. -/
theorem Mirrored.values_nodup : store.attemptLeasesByIdentity.values.Nodup := by
  refine List.Nodup.map_on ?_ (List.Nodup.of_map _ h.mirrors.currentKeys)
  intro p hp p' hp' he
  have hkey : ∀ q ∈ store.attemptLeasesByIdentity, attemptKey digests q.2 = q.1 := by
    intro q hq
    have hget := get?_of_mem h.mirrors.currentKeys hq
    rw [h.get?_latest] at hget
    exact (Written.of_latest hget).2
  refine Prod.ext ?_ he
  rw [← hkey p hp, ← hkey p' hp', he]

/-- The latest attempt at the effect of the only decision of an effect id and two scopes. -/
theorem Mirrored.leasesOf_eq
    (hscope : store.decisionsInScope effectId identityScopeRef subjectScopeRef = [decision]) :
    store.leasesOf effectId identityScopeRef subjectScopeRef =
      (written.latest digests (decisionKey digests decision)).toList := by
  have hkey : ∀ attempt ∈ store.leasesOf effectId identityScopeRef subjectScopeRef,
      written.latest digests (decisionKey digests decision) = some attempt := by
    intro attempt hattempt
    obtain ⟨⟨hmem, hlatest⟩, rfl, rfl, rfl⟩ := h.mem_leasesInScope.mp hattempt
    obtain ⟨other, hother, he⟩ := h.decision_of_attempt hmem
    rw [hscope, mem_singleton] at hother
    rw [← hother, he]
    exact hlatest
  cases hlatest : written.latest digests (decisionKey digests decision) with
  | none =>
    rw [Option.toList_none, eq_nil_iff_forall_not_mem]
    intro attempt hattempt
    rw [hkey attempt hattempt] at hlatest
    cases hlatest
  | some last =>
    have hlast : last ∈ store.leasesOf effectId identityScopeRef subjectScopeRef := by
      obtain ⟨hmem, he⟩ := Written.of_latest hlatest
      obtain ⟨other, hother, hof⟩ := h.consistent.attempted.authorized last hmem
      have hdecision : decision ∈ store.decisionsInScope effectId identityScopeRef subjectScopeRef := by
        rw [hscope]
        exact mem_cons_self
      obtain ⟨hstored, hin⟩ := h.mem_decisionsInScope.mp hdecision
      have hsame : other = decision := h.consistent.decided.eq_of_key hother hstored
        ((congrArg digests.identityKey hof.1).symm.trans he)
      refine h.mem_leasesInScope.mpr ⟨⟨hmem, by rw [he]; exact hlatest⟩, ?_⟩
      rw [hof.1, hsame]
      exact hin
    have hnodup : (store.leasesOf effectId identityScopeRef subjectScopeRef).Nodup :=
      h.values_nodup.sublist (filter_sublist.trans filter_sublist)
    have hall : ∀ attempt ∈ store.leasesOf effectId identityScopeRef subjectScopeRef,
        attempt = last := by
      intro attempt hattempt
      exact Option.some.inj ((hkey attempt hattempt).symm.trans hlatest)
    rw [Option.toList_some, ← replicate_one, ← count_eq_one_of_mem hnodup hlast, ← filter_beq]
    exact (filter_eq_self.mpr fun attempt hattempt => beq_iff_eq.mpr (hall attempt hattempt)).symm

/-- `get_attempt` answers alike. -/
theorem Mirrored.getAttempt_agrees
    (halike : Alike sqlite digests store (.getAttempt effectId identityScopeRef subjectScopeRef)) :
    Agrees (store.getAttempt effectId identityScopeRef subjectScopeRef)
      ((ofWritten digests count written).getAttempt digests effectId identityScopeRef
        subjectScopeRef) := by
  unfold InMemoryHarnessSideEffectStore.getAttempt SQLiteHarnessSideEffectStore.getAttempt
  rw [resolveLease_eq, h.identityKeyForEffect]
  cases hscope : store.decisionsInScope effectId identityScopeRef subjectScopeRef with
  | nil =>
    cases hleases : store.leasesOf effectId identityScopeRef subjectScopeRef with
    | nil =>
      simp only [Alike, hscope, hleases] at halike
      by_cases hempty : store.decisionsOfEffect effectId = []
      · rw [if_pos (h.attemptsOfEffect_eq_nil hempty), if_pos hempty]
        exact agrees_rfl
      · rw [if_neg (halike hempty), if_neg hempty]
        exact agrees_plain
    | cons attempt rest =>
      have hattempt : attempt ∈ store.leasesOf effectId identityScopeRef subjectScopeRef := by
        rw [hleases]
        exact mem_cons_self
      obtain ⟨⟨hmem, -⟩, rfl, rfl, rfl⟩ := h.mem_leasesInScope.mp hattempt
      obtain ⟨decision, hdecision, -⟩ := h.decision_of_attempt hmem
      rw [hscope] at hdecision
      cases hdecision
  | cons decision rest =>
    cases rest with
    | nil =>
      rw [h.leasesOf_eq hscope, ok_bind]
      dsimp only
      rw [latestAttempt_ofWritten h.consistent, ok_bind]
      cases hlatest : written.latest digests (decisionKey digests decision) with
      | none =>
        have hleases := h.leasesOf_eq hscope
        rw [hlatest, Option.toList_none] at hleases
        simp only [Alike, hscope, hleases] at halike
        rw [Option.toList_none]
        rw [if_pos halike]
        exact agrees_rfl
      | some last => exact agrees_rfl
    | cons other rest =>
      cases hleases : store.leasesOf effectId identityScopeRef subjectScopeRef with
      | nil =>
        simp only [Alike, hscope, hleases] at halike
        rw [if_neg halike]
        exact agrees_plain
      | cons attempt leases =>
        cases leases with
        | nil =>
          simp only [Alike, hscope, hleases] at halike
        | cons attempt' leases => exact agrees_rfl

/-- The count of the attempts that the database gives for the only decision of an effect id and two
scopes. -/
theorem Mirrored.attemptCount_eq
    (hscope : store.decisionsInScope effectId identityScopeRef subjectScopeRef = [decision]) :
    (ofWritten digests count written).attemptCount digests effectId identityScopeRef subjectScopeRef
      = .ok (count (decisionKey digests decision)) := by
  have hdecision : decision ∈ store.decisionsInScope effectId identityScopeRef subjectScopeRef := by
    rw [hscope]
    exact mem_cons_self
  obtain ⟨hmem, -, rfl, rfl⟩ := h.mem_decisionsInScope.mp hdecision
  unfold SQLiteHarnessSideEffectStore.attemptCount
  rw [h.identityKeyForEffect, hscope]
  rw [ok_bind]
  dsimp only
  have hfind : written.decisions.find? (fun other => decide (digests.decisionChecksum other =
      (ledgerRow digests decision (count (decisionKey digests decision))).decisionRef)) = some decision :=
    (find?_decision h.consistent).mpr ⟨hmem, rfl⟩
  rw [find?_ledger h.consistent hmem, orRaise_some, ok_bind,
    decisionOf_ofWritten h.consistent, hfind, orRaise_some, ok_bind,
    assertLedgerMatchesDecision_ledgerRow h.consistent hmem, ok_bind, require_of_pos _ ⟨rfl, rfl⟩]
  rfl

/-- Without a decision of an effect id and two scopes the database counts no attempts. -/
theorem Mirrored.attemptCount_nil
    (hscope : store.decisionsInScope effectId identityScopeRef subjectScopeRef = []) :
    (ofWritten digests count written).attemptCount digests effectId identityScopeRef subjectScopeRef
      = if store.decisionsOfEffect effectId = [] then .ok 0
        else .error (.plain "side-effect attempt scope mismatch") := by
  unfold SQLiteHarnessSideEffectStore.attemptCount
  rw [h.identityKeyForEffect, hscope]
  dsimp only
  split <;> rfl

/-- With several decisions of an effect id and two scopes the database counts no attempts. -/
theorem Mirrored.attemptCount_many {first second : HarnessSideEffectDecision Ref}
    {others : List (HarnessSideEffectDecision Ref)}
    (hscope : store.decisionsInScope effectId identityScopeRef subjectScopeRef
      = first :: second :: others) :
    (ofWritten digests count written).attemptCount digests effectId identityScopeRef subjectScopeRef
      = .error (.attemptError "side_effect_identity_ambiguous" "side-effect identity is ambiguous") := by
  unfold SQLiteHarnessSideEffectStore.attemptCount
  rw [h.identityKeyForEffect, hscope]
  rfl

theorem Mirrored.outcomesInScope_nodup (effectId : String) (identityScopeRef subjectScopeRef : Ref) :
    (store.outcomesInScope effectId identityScopeRef subjectScopeRef).Nodup :=
  (List.Nodup.of_map _ h.consistent.recorded.refs).sublist
    (filter_sublist.trans h.outcomesOfEffect_sublist)

/-- The count of the attempts in memory: that of the only outcome, or else of the only decision. -/
theorem Mirrored.attemptCount_memory (effectId : String) (identityScopeRef subjectScopeRef : Ref) :
    store.attemptCount digests.toDigests effectId identityScopeRef subjectScopeRef =
      match store.outcomesInScope effectId identityScopeRef subjectScopeRef with
      | [] =>
        if store.outcomesOfEffect effectId = [] then
          match store.decisionsInScope effectId identityScopeRef subjectScopeRef with
          | [] =>
            if store.decisionsOfEffect effectId = [] then .ok 0
            else .error (.plain "side-effect attempt scope mismatch")
          | [decision] => .ok ((store.attemptsByIdentity.get?
              (digests.identityKey decision.toEffectIdentity)).getD 0)
          | _ :: _ :: _ => .error (.attemptError "side_effect_identity_ambiguous"
              "side-effect identity is ambiguous")
        else .error (.plain "side-effect scope mismatch")
      | [outcome] => .ok ((store.attemptsByIdentity.get?
          (digests.identityKey outcome.toEffectIdentity)).getD 0)
      | _ :: _ :: _ => .error (.attemptError "side_effect_identity_ambiguous"
          "side-effect identity is ambiguous") := by
  unfold InMemoryHarnessSideEffectStore.attemptCount
  rw [resolveOutcome_eq]
  cases hout : store.outcomesInScope effectId identityScopeRef subjectScopeRef with
  | nil =>
    by_cases hempty : store.outcomesOfEffect effectId = []
    · rw [if_pos hempty, if_pos hempty, ok_bind]
      show (match store.decisionsInScope effectId identityScopeRef subjectScopeRef with
        | [] => require (store.decisionsOfEffect effectId = []) _ >>= fun _ => pure 0
        | [_] => _
        | _ :: _ :: _ => _) = _
      rcases store.decisionsInScope effectId identityScopeRef subjectScopeRef with
        _ | ⟨decision, _ | ⟨decision', rest⟩⟩
      · dsimp only
        split <;> rename_i hdecisions
        · rw [require_of_pos _ hdecisions]
          rfl
        · rw [require_of_neg _ hdecisions]
          rfl
      · rfl
      · rfl
    · rw [if_neg hempty, if_neg hempty]
      rfl
  | cons outcome rest =>
    cases rest with
    | nil =>
      have houtcome : outcome ∈ store.outcomesInScope effectId identityScopeRef subjectScopeRef := by
        rw [hout]
        exact mem_cons_self
      obtain ⟨-, -, hscopes⟩ := h.mem_outcomesInScope.mp houtcome
      rw [ok_bind]
      dsimp only
      unfold assertScope
      rw [require_of_pos _ hscopes]
      rfl
    | cons other rest => rfl

/-- `attempt_count` answers alike. -/
theorem Mirrored.attemptCount_agrees
    (halike : Alike sqlite digests store (.attemptCount effectId identityScopeRef subjectScopeRef)) :
    Agrees (store.attemptCount digests.toDigests effectId identityScopeRef subjectScopeRef)
      ((ofWritten digests count written).attemptCount digests effectId identityScopeRef
        subjectScopeRef) := by
  -- an outcome in scope is that of a decision in scope
  have hdecided : ∀ outcome ∈ store.outcomesInScope effectId identityScopeRef subjectScopeRef,
      ∃ decision ∈ store.decisionsInScope effectId identityScopeRef subjectScopeRef,
        decisionKey digests decision = outcomeKey digests outcome := by
    intro outcome houtcome
    obtain ⟨hmem, rfl, rfl, rfl⟩ := h.mem_outcomesInScope.mp houtcome
    exact h.decision_of_outcome hmem
  have hdecisions : store.decisionsOfEffect effectId = [] → store.outcomesOfEffect effectId = [] := by
    intro hempty
    rw [eq_nil_iff_forall_not_mem]
    intro outcome houtcome
    obtain ⟨hmem, rfl⟩ := h.mem_outcomesOfEffect.mp houtcome
    rcases h.decision_of_outcome hmem with ⟨decision, hdecision, -⟩
    rcases h.mem_decisionsInScope.mp hdecision with ⟨hstored, heffect, -⟩
    have hin := h.mem_decisionsOfEffect.mpr ⟨hstored, heffect⟩
    rw [hempty] at hin
    cases hin
  rw [h.attemptCount_memory]
  cases hout : store.outcomesInScope effectId identityScopeRef subjectScopeRef with
  | nil =>
    dsimp only
    cases hscope : store.decisionsInScope effectId identityScopeRef subjectScopeRef with
    | nil =>
      rw [h.attemptCount_nil hscope]
      by_cases hempty : store.decisionsOfEffect effectId = []
      · rw [if_pos (hdecisions hempty), if_pos hempty]
        exact agrees_rfl
      · rw [if_neg hempty]
        split <;> exact agrees_plain
    | cons decision rest =>
      cases rest with
      | nil =>
        simp only [Alike, hscope, hout] at halike
        rw [h.attemptCount_eq hscope, if_pos halike]
        dsimp only
        rw [h.count_eq]
        exact agrees_rfl
      | cons other rest =>
        rw [h.attemptCount_many hscope]
        split
        · exact agrees_rfl
        · exact agrees_plain
  | cons outcome rest =>
    have houtcome : outcome ∈ store.outcomesInScope effectId identityScopeRef subjectScopeRef := by
      rw [hout]
      exact mem_cons_self
    rcases hdecided outcome houtcome with ⟨decision, hdecision, hkey⟩
    cases hscope : store.decisionsInScope effectId identityScopeRef subjectScopeRef with
    | nil =>
      rw [hscope] at hdecision
      cases hdecision
    | cons first others =>
      cases others with
      | nil =>
        rw [hscope, mem_singleton] at hdecision
        cases rest with
        | nil =>
          rw [h.attemptCount_eq hscope, ← hdecision, hkey]
          exact h.mirrors.counts _
        | cons other rest =>
          -- two outcomes would be of the one decision
          have hother : other ∈ store.outcomesInScope effectId identityScopeRef subjectScopeRef := by
            rw [hout]
            exact mem_cons_of_mem _ mem_cons_self
          rcases hdecided other hother with ⟨decision', hdecision', hkey'⟩
          rw [hscope, mem_singleton] at hdecision'
          have hsame : outcome = other := h.consistent.recorded.eq_of_key
            (h.mem_outcomesInScope.mp houtcome).1 (h.mem_outcomesInScope.mp hother).1
            (hkey.symm.trans ((hdecision.trans hdecision'.symm) ▸ hkey'))
          have hnodup := h.outcomesInScope_nodup effectId identityScopeRef subjectScopeRef
          rw [hout, hsame, nodup_cons] at hnodup
          exact absurd mem_cons_self hnodup.1
      | cons second others =>
        cases rest with
        | nil => simp only [Alike, hscope, hout] at halike
        | cons other rest =>
          rw [h.attemptCount_many hscope]
          exact agrees_rfl

/-! ## Calls -/

omit h in
/-- The replies of a call are answered as what its operation returns. -/
theorem Answers.reply {α β : Type}
    {result : Except SideEffectError α × InMemoryHarnessSideEffectStore Ref Metadata}
    {result' : Except SideEffectError (α × SQLiteHarnessSideEffectStore Ref)}
    (ha : Answers attemptLeaseMicros sqlite digests store result result') (f : α → β) :
    Answers attemptLeaseMicros sqlite digests store (result.1.map f, result.2)
      (result'.map (Prod.map f id)) := by
  cases ha with
  | returned value after count written hresult hresult' hmirrored =>
    rw [hresult, hresult']
    exact .returned (f value) after count written rfl rfl hmirrored
  | raised e e' hresult hresult' hcode =>
    rw [hresult, hresult']
    exact .raised e e' rfl rfl hcode

omit h in
/-- The replies of a fenced operation are answered as what it returns. -/
theorem Answers.fencedReply {α : Type}
    {result : Except SideEffectError α × InMemoryHarnessSideEffectStore Ref Metadata}
    {result' : Except SideEffectError (α × SQLiteHarnessSideEffectStore Ref)}
    (ha : Answers attemptLeaseMicros sqlite digests store result result')
    (reply : α → Reply Ref Metadata) : Answers attemptLeaseMicros sqlite digests store
      ((result.1.map reply).map portReply, result.2)
      (result'.map (Prod.map (portReply ∘ reply) id)) := by
  have hmap : (result.1.map reply).map portReply
      = result.1.map (portReply ∘ reply) := by
    cases result.1 <;> rfl
  rw [hmap]
  exact ha.reply (portReply ∘ reply)

omit h [DecidableEq Ref] in
theorem replied_eq_leaving {α : Type} (reply : α → Reply Ref Metadata)
    (result : Except SideEffectError (α × InMemoryHarnessSideEffectStore Ref Metadata)) :
    store.replied reply result = ((leaving store result).1.map reply, (leaving store result).2) := by
  cases result <;> rfl

/-- A reading that agrees is answered alike and changes nothing. -/
theorem Mirrored.reads {α β : Type} {result result' : Except SideEffectError α}
    (hagrees : Agrees result result') (f : α → β) :
    Answers attemptLeaseMicros sqlite digests store (result.map f, store)
      (result'.map fun value => (f value, ofWritten digests count written)) := by
  cases result with
  | error e =>
    cases result' with
    | error e' => exact .raised e e' rfl rfl hagrees
    | ok value' => exact hagrees.elim
  | ok value =>
    cases result' with
    | error e' => exact hagrees.elim
    | ok value' =>
      obtain rfl : value = value' := hagrees
      exact .returned (f value) store count written rfl rfl h

/-- An accepted call for which the stores are alike is answered alike. -/
theorem Mirrored.portAnswer {call : PortCall Ref Metadata} (haccepted : call.Accepted)
    (hexpiry : ∀ now, sqlite.leaseExpiry now = addLease now attemptLeaseMicros)
    (halike : Alike sqlite digests store call) :
    Answers attemptLeaseMicros sqlite digests store (store.portAnswer digests.toDigests call)
      ((ofWritten digests count written).attempt sqlite digests call) := by
  cases call with
  | fenced call =>
    cases call with
    | putDecision decision =>
      exact (h.putDecision_answers (haccepted.1 decision rfl) halike).fencedReply Reply.decision
    | acquireAttempt decision ownerId leaseId now =>
      exact (h.acquireAttempt_answers (hexpiry now) halike).fencedReply Reply.lease
    | renewAttempt attempt checkedAt now =>
      have ha := (h.renewAttempt_answers attempt checkedAt (hexpiry now)).fencedReply Reply.lease
      show Answers _ _ _ _ ((store.replied Reply.lease _).1.map _, (store.replied Reply.lease _).2) _
      rw [replied_eq_leaving]
      exact ha
    | finishAttempt attempt confirmed now =>
      have ha := (h.finishAttempt_answers halike).fencedReply Reply.lease
      show Answers _ _ _ _ ((store.replied Reply.lease _).1.map _, (store.replied Reply.lease _).2) _
      rw [replied_eq_leaving]
      exact ha
    | completeAttempt attempt outcome checkedAt now =>
      exact (h.completeAttempt_answers (haccepted.2 outcome rfl) halike).fencedReply
        fun outcome => Reply.outcome (some outcome)
    | reconcileAttempt attempt outcome now =>
      exact (h.reconcileAttempt_answers (haccepted.2 outcome rfl) halike).fencedReply
        fun outcome => Reply.outcome (some outcome)
    | setDisposition effectId disposition identityScopeRef subjectScopeRef =>
      exact (h.setDisposition_answers halike).fencedReply Reply.outcome
  | putOutcome outcome =>
    exact (h.putOutcome_answers (haccepted.2 outcome rfl) halike).reply (PortReply.outcome ∘ some)
  | reserveAttempt decision =>
    have ha := (h.reserveAttempt_answers decision).reply (fun number =>
      (PortReply.count number : PortReply Ref Metadata))
    have hanswer : store.portAnswer digests.toDigests (.reserveAttempt decision) =
        ((leaving store (store.reserveAttempt digests.toDigests decision)).1.map PortReply.count,
          (leaving store (store.reserveAttempt digests.toDigests decision)).2) := by
      unfold InMemoryHarnessSideEffectStore.portAnswer leaving
      dsimp only
      cases store.reserveAttempt digests.toDigests decision <;> rfl
    rw [hanswer]
    exact ha
  | getOutcome effectId identityScopeRef subjectScopeRef idempotencyKey =>
    exact h.reads (h.getOutcome_agrees halike) PortReply.outcome
  | readOutcome effectId identityScopeRef subjectScopeRef =>
    exact h.reads (h.readOutcome_agrees effectId identityScopeRef subjectScopeRef) PortReply.outcome
  | getDecision decisionRef => exact h.reads (h.getDecision_agrees decisionRef) PortReply.decision
  | getAttempt effectId identityScopeRef subjectScopeRef =>
    exact h.reads (h.getAttempt_agrees halike) PortReply.attempt
  | attemptCount effectId identityScopeRef subjectScopeRef =>
    exact h.reads (h.attemptCount_agrees halike) PortReply.count
  | listDecisions runId => exact h.reads (h.listDecisions_agrees runId) PortReply.decisions

/-! ## Runs -/

/-- A call for which the stores are alike is answered alike and leaves both with the same records. -/
theorem Mirrored.stepBoth {call : PortCall Ref Metadata} (haccepted : call.Accepted)
    (hexpiry : ∀ now, sqlite.leaseExpiry now = addLease now attemptLeaseMicros)
    (halike : Alike sqlite digests store call) :
    AgreesOn sqlite digests (store, ofWritten digests count written) call ∧
      ∃ count' written', (HarnessSideEffects.stepBoth sqlite digests
          (store, ofWritten digests count written) call).2 = ofWritten digests count' written' ∧
        Mirrored attemptLeaseMicros sqlite digests count' written'
          (HarnessSideEffects.stepBoth sqlite digests (store, ofWritten digests count written) call).1 := by
  unfold AgreesOn HarnessSideEffects.stepBoth SQLiteHarnessSideEffectStore.step
  cases h.portAnswer haccepted hexpiry halike with
  | returned value after count' written' hresult hresult' hmirrored =>
    rw [hresult, hresult']
    exact ⟨rfl, count', written', rfl, hmirrored⟩
  | raised e e' hresult hresult' hcode =>
    rw [hresult, hresult']
    exact ⟨hcode, count, written, rfl, h⟩

omit h in
theorem mirrored_empty : Mirrored attemptLeaseMicros sqlite digests (fun _ => 0)
    (⟨[], [], []⟩ : Written Ref) (InMemoryHarnessSideEffectStore.empty attemptLeaseMicros) := by
  refine ⟨consistent_nil, ⟨?_, ?_, ?_, ?_⟩,
    ⟨rfl, rfl, rfl, rfl, rfl, rfl, rfl, fun _ => rfl, rfl, rfl, nodup_nil, fun _ => rfl⟩⟩
  all_goals exact fun _ hmem => absurd hmem not_mem_nil

omit h in
/-- A run of calls for which the stores are alike is answered alike. -/
theorem along_agreesOn (hexpiry : ∀ now, sqlite.leaseExpiry now = addLease now attemptLeaseMicros) :
    ∀ {calls : List (PortCall Ref Metadata)} {count : Ref → ℕ} {written : Written Ref}
      {store : InMemoryHarnessSideEffectStore Ref Metadata},
      Mirrored attemptLeaseMicros sqlite digests count written store →
        (∀ call ∈ calls, call.Accepted) →
          Along (stepBoth sqlite digests) (fun stores call => Alike sqlite digests stores.1 call)
            (store, ofWritten digests count written) calls →
          Along (stepBoth sqlite digests) (AgreesOn sqlite digests)
            (store, ofWritten digests count written) calls := by
  intro calls
  induction calls with
  | nil => exact fun _ _ _ => trivial
  | cons call calls ih =>
    intro count written store h haccepted halike
    rcases h.stepBoth (haccepted call mem_cons_self) hexpiry halike.1 with
      ⟨hagrees, count', written', hdatabase, hmirrored⟩
    refine ⟨hagrees, ?_⟩
    have hstores : stepBoth sqlite digests (store, ofWritten digests count written) call =
        ((stepBoth sqlite digests (store, ofWritten digests count written) call).1,
          ofWritten digests count' written') := Prod.ext rfl hdatabase
    have hlater := halike.2
    rw [hstores] at hlater ⊢
    exact ih hmirrored (fun call hmem => haccepted call (mem_cons_of_mem _ hmem)) hlater

omit h in
/-- Two new stores that take the same calls with accepted records answer them alike, as long as they
are alike for each call. -/
theorem agreesAlong_of_alike (attemptLeaseMicros : ℕ) (jsonValid : PyValue → Bool)
    (digests : RecordDigests Ref) (calls : List (PortCall Ref Metadata))
    (haccepted : ∀ call ∈ calls, call.Accepted)
    (halike : AlikeAlong attemptLeaseMicros jsonValid digests calls) :
    AgreesAlong attemptLeaseMicros jsonValid digests calls := by
  have hexpiry : ∀ now, (sqliteOf attemptLeaseMicros jsonValid).leaseExpiry now
      = addLease now attemptLeaseMicros := by
    intro now
    dsimp only [sqliteOf]
  have hempty : Mirrored attemptLeaseMicros (sqliteOf attemptLeaseMicros jsonValid) digests
      (fun _ => 0) (⟨[], [], []⟩ : Written Ref)
      (InMemoryHarnessSideEffectStore.empty attemptLeaseMicros) := mirrored_empty
  exact along_agreesOn hexpiry hempty haccepted halike

end Stores

/-! ## Two new stores -/

/-- A terminated attempt is confirmed again after the next one was acquired. -/
def confirmSuperseded : List (PortCall Reference Metadata) :=
  [.fenced (.putDecision (publishDecision "publish:1")),
    .fenced (.acquireAttempt (publishDecision "publish:1") "owner:publish:1" "lease:publish:1" 0),
    .fenced (.finishAttempt (publishLease "publish:1") true 1000000),
    .fenced (.acquireAttempt (publishDecision "publish:1") "owner:publish:2" "lease:publish:2" 2000000),
    .fenced (.finishAttempt (publishLease "publish:1") true 3000000)]

/-- The stores agree on the effect of one instance that is recorded and read. -/
theorem agreesAlong_storeOnce :
    AgreesAlong 30000000 (fun _ => true) recordDigests storeOnce := by
  refine agreesAlong_of_alike _ _ _ _ (by decide +kernel) ⟨?_, ?_, trivial, ?_, ?_, trivial⟩
  · exact fun _ => ⟨rfl, by decide, by decide⟩
  · exact fun _ => ⟨Or.inr (by decide), fun _ _ _ => by decide +kernel⟩
  · intro current hcurrent _
    obtain rfl : current = { publishLease "publish:1" with leaseExpiresAt := 31000000 } :=
      ok_inj (hcurrent.symm.trans (by decide +kernel))
    refine ⟨fun hsuperseded => absurd (by decide +kernel) hsuperseded, fun _ bound _ => ⟨?_, ?_⟩⟩
    · exact fun other hother => absurd (ne_nil_of_mem hother) (by decide +kernel)
    · exact fun _ => ⟨⟨rfl, rfl, rfl, rfl⟩, by decide⟩
  · refine ⟨fun hunknown => absurd hunknown (by decide), ?_⟩
    intro outcome next hscope _ _ _
    refine ⟨by decide +kernel, fun hnone => absurd hnone (by decide +kernel), ?_⟩
    intro other hother hne
    have hmem : other ∈ ((storeOnce.take 4).foldl (stepBoth _ _) (_, _)).1.outcomesByIdentity.values :=
      hother
    have hvalues : ((storeOnce.take 4).foldl (stepBoth (sqliteOf 30000000 fun _ => true)
        recordDigests) (.empty 30000000, .empty)).1.outcomesByIdentity.values =
        ((storeOnce.take 4).foldl (stepBoth (sqliteOf 30000000 fun _ => true)
        recordDigests) (.empty 30000000, .empty)).1.outcomesInScope "shared-effect-id"
        (.text "tenant-1") (.text "subject-1") := by
      decide +kernel
    rw [hvalues] at hmem
    exact absurd (mem_singleton.mp (hscope ▸ hmem)) hne

/-- The store in memory confirms the superseded attempt, the database refuses it as stale. -/
theorem not_agreesAlong_confirmSuperseded : (∀ call ∈ confirmSuperseded, call.Accepted) ∧
      ¬ AgreesAlong 30000000 (fun _ => true) recordDigests confirmSuperseded := by
  refine ⟨by decide +kernel, fun h => ?_⟩
  have hlast := h.2.2.2.2.1.isOk_eq
  revert hlast
  decide +kernel

end HarnessSideEffects
