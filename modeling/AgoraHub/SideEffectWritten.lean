/-
# Consistent records of side effects

The records that a side-effect store holds, apart from how it holds them: decisions, the attempts
at their effects with a count for each effect, and outcomes.  Both stores are compared with these
records: the tables are their image, the dictionaries are indexes of them.

Records are consistent when every attempt and outcome has its decision, only the latest attempt at
an effect can be unresolved, and an outcome that is fenced is the one that its attempt refers to.
-/
import AgoraHub.SQLiteSideEffects
import AgoraHub.SideEffectSteps

open Fallible

/-! ## The greatest item of a list -/

namespace KeyedList

open List

/-- A map that keeps the measure maps the greatest item. -/
theorem argmax_map {α β : Type*} {f : α → ℕ} {f' : β → ℕ} {g : α → β} :
    ∀ {xs : List α}, (∀ x ∈ xs, f' (g x) = f x) → (xs.map g).argmax f' = (xs.argmax f).map g := by
  intro xs
  induction xs using List.reverseRecOn with
  | nil => intro _; rfl
  | append_singleton xs x ih =>
    intro h
    have hx : f' (g x) = f x := h x (mem_append_right _ mem_cons_self)
    have ih := ih fun y hy => h y (mem_append_left _ hy)
    rw [map_append, map_singleton, argmax_concat, argmax_concat, ih]
    cases hmax : xs.argmax f with
    | none => rfl
    | some m =>
      have hm : f' (g m) = f m := h m (mem_append_left _ (argmax_mem hmax))
      show (if f' (g m) < f' (g x) then some (g x) else some (g m))
        = Option.map g (if f m < f x then some x else some m)
      rw [hx, hm]
      by_cases hlt : f m < f x
      · rw [if_pos hlt, if_pos hlt]
        rfl
      · rw [if_neg hlt, if_neg hlt]
        rfl

end KeyedList

namespace HarnessSideEffects

section

variable {Ref : Type} [DecidableEq Ref] {digests : RecordDigests Ref}

/-! ## Records that read back -/

/-- A decision that is accepted and has no `step_id`. -/
structure HarnessSideEffectDecision.Readable (decision : HarnessSideEffectDecision Ref) : Prop where
  accepted : decision.postInit = .ok decision
  stepless : decision.stepId = none

/-- An outcome that is accepted, with no `step_id` and with metadata of JSON. -/
structure HarnessSideEffectOutcome.Readable (outcome : HarnessSideEffectOutcome Ref Metadata) :
    Prop where
  accepted : outcome.postInit = .ok outcome
  stepless : outcome.stepId = none
  json : outcome.metadata.foreign = []

/-- A lease that is accepted. -/
structure HarnessSideEffectAttemptLease.Readable (attempt : HarnessSideEffectAttemptLease Ref) :
    Prop where
  identity : leaseIdentity attempt = .ok ()
  checked : attempt.Checked

omit [DecidableEq Ref] in
theorem Metadata.toJsonable_of_foreign {metadata : Metadata} (h : metadata.foreign = []) :
    metadata.toJsonable = metadata := by
  unfold toJsonable
  rw [← h]

variable {decision : HarnessSideEffectDecision Ref}

/-- The object of a decision reads back. -/
theorem decisionFromDict_decisionToDict (h : decision.Readable) :
    decisionFromDict digests (decisionToDict digests decision) = .ok decision := by
  have hself : ({ decision with stepId := none } : HarnessSideEffectDecision Ref) = decision := by
    rw [← h.stepless]
  show (HarnessSideEffectDecision.postInit { decision with stepId := none } >>= fun d =>
    require (digests.decisionChecksum decision = digests.decisionChecksum d) _ >>= fun _ =>
      pure d) = _
  rw [hself, h.accepted, ok_bind, check_of_pos rfl]
  rfl

variable {outcome : HarnessSideEffectOutcome Ref Metadata}

/-- The object of an outcome reads back. -/
theorem outcomeFromDict_outcomeToDict (h : outcome.Readable) :
    outcomeFromDict digests (outcomeToDict digests outcome) = .ok outcome := by
  have hself : ({ outcome with stepId := none, metadata := outcome.metadata.toJsonable } :
      HarnessSideEffectOutcome Ref Metadata) = outcome := by
    rw [Metadata.toJsonable_of_foreign h.json, ← h.stepless]
  show (HarnessSideEffectOutcome.postInit
    { outcome with stepId := none, metadata := outcome.metadata.toJsonable } >>= fun o =>
      require (digests.outcomeChecksum outcome = digests.outcomeChecksum o) _ >>= fun _ =>
        pure o) = _
  rw [hself, h.accepted, ok_bind, check_of_pos rfl]
  rfl

variable {attempt : HarnessSideEffectAttemptLease Ref}

theorem attemptFromDict_attemptToDict (h : attempt.Readable) :
    attemptFromDict digests (attemptToDict digests attempt) = .ok attempt := by
  have hinit : attempt.postInit = .ok attempt :=
    HarnessSideEffectAttemptLease.postInit_eq_ok.mpr ⟨rfl, h.checked⟩
  show (leaseIdentity attempt >>= fun _ => attempt.postInit >>= fun a =>
    require (digests.leaseChecksum attempt = digests.leaseChecksum a) _ >>= fun _ => pure a) = _
  rw [h.identity, ok_bind, hinit, ok_bind, check_of_pos rfl]
  rfl

theorem decisionFromRow_decisionRow (h : decision.Readable) :
    decisionFromRow digests (decisionRow digests decision) = .ok decision := by
  unfold decisionFromRow
  show ((decisionFromDict digests (decisionToDict digests decision)).mapError _ >>= _) = _
  rw [decisionFromDict_decisionToDict h]
  show (require _ _ >>= fun _ => pure decision) = _
  rw [require_of_pos _ ⟨rfl, rfl, rfl, rfl, rfl, rfl, rfl, rfl, rfl⟩]
  rfl

theorem outcomeFromRow_outcomeRow (h : outcome.Readable) :
    outcomeFromRow digests (outcomeRow digests outcome) = .ok outcome := by
  unfold outcomeFromRow
  show ((outcomeFromDict digests (outcomeToDict digests outcome)).mapError _ >>= _) = _
  rw [outcomeFromDict_outcomeToDict h]
  show (require _ _ >>= fun _ => pure outcome) = _
  rw [require_of_pos _ ⟨rfl, rfl, rfl, rfl, rfl, rfl, rfl, rfl, rfl⟩]
  rfl

/-- The row of a lease reads back. -/
theorem attemptFromRow_attemptRow (h : attempt.Readable) :
    attemptFromRow digests (attemptRow digests attempt) = .ok attempt := by
  unfold attemptFromRow
  show ((attemptFromDict digests (attemptToDict digests attempt)).mapError _ >>= _) = _
  rw [attemptFromDict_attemptToDict h]
  show (require _ _ >>= fun _ => pure attempt) = _
  rw [require_of_pos _ ⟨rfl, rfl, rfl, rfl, rfl, rfl, rfl, rfl, rfl, rfl, rfl, rfl, rfl, rfl, rfl,
    rfl⟩]
  rfl

end

open List KeyedList Function

open InMemoryHarnessSideEffectStore (Follows)

variable {Ref : Type} [DecidableEq Ref] (digests : RecordDigests Ref)

/-! ## Records that belong together -/

/-- The identity of the effect of a decision. -/
def decisionKey (decision : HarnessSideEffectDecision Ref) : Ref :=
  digests.identityKey decision.toEffectIdentity

/-- The identity of the effect of an attempt. -/
def attemptKey (attempt : HarnessSideEffectAttemptLease Ref) : Ref :=
  digests.identityKey attempt.toEffectIdentity

/-- The identity of the effect of an outcome. -/
def outcomeKey (outcome : HarnessSideEffectOutcome Ref Metadata) : Ref :=
  digests.identityKey outcome.toEffectIdentity

/-- The attempt is one at the effect of the decision. -/
def AttemptOf (attempt : HarnessSideEffectAttemptLease Ref)
    (decision : HarnessSideEffectDecision Ref) : Prop :=
  attempt.toEffectIdentity = decision.toEffectIdentity ∧
    attempt.decisionRef = digests.decisionChecksum decision ∧
    attempt.idempotencyKey = decision.idempotencyKey

/-- The outcome is one of the effect of the decision. -/
def OutcomeOf (outcome : HarnessSideEffectOutcome Ref Metadata)
    (decision : HarnessSideEffectDecision Ref) : Prop :=
  outcome.decisionRef = digests.decisionChecksum decision ∧
    outcome.toEffectIdentity = decision.toEffectIdentity ∧
    outcome.kind = decision.kind ∧
    outcome.handler = decision.handler ∧
    outcome.idempotencyKey = decision.idempotencyKey ∧
    outcome.atomicGroup = decision.atomicGroup

omit [DecidableEq Ref] in
/-- The outcome is the one of the attempt. -/
def Fences (attempt : HarnessSideEffectAttemptLease Ref)
    (outcome : HarnessSideEffectOutcome Ref Metadata) : Prop :=
  outcome.toEffectIdentity = attempt.toEffectIdentity ∧
    outcome.decisionRef = attempt.decisionRef ∧
    outcome.attemptId = some attempt.attemptId ∧
    outcome.fencingGeneration = some attempt.fencingGeneration

/-- An outcome passes the check against a decision exactly when it is one of it. -/
theorem assertOutcomeMatchesDecision_eq_ok {outcome : HarnessSideEffectOutcome Ref Metadata}
    {decision : HarnessSideEffectDecision Ref} {u : Unit} :
    assertOutcomeMatchesDecision digests.toDigests outcome decision = .ok u ↔
      OutcomeOf digests outcome decision := by
  unfold assertOutcomeMatchesDecision
  rw [require_eq_ok]
  constructor
  · rintro ⟨hr, hi, hk, hh, hkey, hg, -⟩
    exact ⟨hr, hi, hk, hh, hkey, hg⟩
  · rintro ⟨hr, hi, hk, hh, hkey, hg⟩
    exact ⟨hr, hi, hk, hh, hkey, hg, by rw [hi]⟩

namespace Written

variable (written : Written Ref)

/-- The attempts at an effect. -/
def attemptsOf (identityKey : Ref) : List (HarnessSideEffectAttemptLease Ref) :=
  written.attemptLeases.filter fun attempt => attemptKey digests attempt = identityKey

/-- The attempt of the greatest generation at an effect. -/
def latest (identityKey : Ref) : Option (HarnessSideEffectAttemptLease Ref) :=
  (written.attemptsOf digests identityKey).argmax (·.fencingGeneration)

/-- Decisions differ in each of their keys, and the attempts at their effects are counted up to
their limits. -/
structure Decided (count : Ref → ℕ) : Prop where
  refs : (written.decisions.map digests.decisionChecksum).Nodup
  keys : (written.decisions.map (decisionKey digests)).Nodup
  ids : (written.decisions.map (·.decisionId)).Nodup
  idempotencyKeys : (written.decisions.map (·.idempotencyKey)).Nodup
  readable : ∀ decision ∈ written.decisions, decision.Readable
  limited : ∀ decision ∈ written.decisions,
    count (decisionKey digests decision) ≤ decision.effectAttemptLimit
  uncounted : ∀ key ∉ written.decisions.map (decisionKey digests), count key = 0

/-- Attempts belong to decisions, and only the latest one at an effect can be unresolved. -/
structure Attempted (count : Ref → ℕ) : Prop where
  ids : (written.attemptLeases.map (·.attemptId)).Nodup
  leaseIds : (written.attemptLeases.map (·.leaseId)).Nodup
  readable : ∀ attempt ∈ written.attemptLeases, attempt.Readable
  authorized : ∀ attempt ∈ written.attemptLeases,
    ∃ decision ∈ written.decisions, AttemptOf digests attempt decision
  counted : ∀ attempt ∈ written.attemptLeases,
    attempt.fencingGeneration ≤ count (attemptKey digests attempt)
  settled : ∀ attempt ∈ written.attemptLeases,
    written.latest digests (attemptKey digests attempt) ≠ some attempt → attempt.status = .terminated

/-- Outcomes belong to decisions, and there is one for each effect. -/
structure Recorded : Prop where
  refs : (written.outcomes.map digests.outcomeChecksum).Nodup
  ids : (written.outcomes.map (·.outcomeId)).Nodup
  keys : (written.outcomes.map (outcomeKey digests)).Nodup
  readable : ∀ outcome ∈ written.outcomes, outcome.Readable
  authorized : ∀ outcome ∈ written.outcomes,
    ∃ decision ∈ written.decisions, OutcomeOf digests outcome decision

/-- Attempts and fenced outcomes refer to one another. -/
structure Linked : Prop where
  outcome : ∀ attempt ∈ written.attemptLeases, ∀ outcomeRef, attempt.outcomeRef = some outcomeRef →
    ∃ outcome ∈ written.outcomes, digests.outcomeChecksum outcome = outcomeRef ∧
      Fences attempt outcome
  attempt : ∀ outcome ∈ written.outcomes, outcome.attemptId ≠ none →
    ∃ attempt ∈ written.attemptLeases, attempt.outcomeRef = some (digests.outcomeChecksum outcome)

/-- Consistent records, with the number of attempts at each effect. -/
structure Consistent (count : Ref → ℕ) : Prop where
  decided : written.Decided digests count
  attempted : written.Attempted digests count
  recorded : written.Recorded digests
  linked : written.Linked digests

variable {digests written} {count : Ref → ℕ}

section

variable {changed : Written Ref}

omit [DecidableEq Ref] in
theorem Decided.count_eq_zero (h : written.Decided digests count)
    (hfresh : ∀ other ∈ written.decisions, decisionKey digests other ≠ decisionKey digests decision) :
    count (decisionKey digests decision) = 0 := by
  apply h.uncounted
  intro hmem
  obtain ⟨other, hother, he⟩ := mem_map.mp hmem
  exact hfresh other hother he

omit [DecidableEq Ref] in
theorem Decided.congr (h : written.Decided digests count)
    (hdecisions : changed.decisions = written.decisions) : changed.Decided digests count := by
  obtain ⟨refs, keys, ids, idempotencyKeys, readable, limited, uncounted⟩ := h
  constructor <;> rwa [hdecisions]

theorem Attempted.congr (h : written.Attempted digests count)
    (hdecisions : changed.decisions = written.decisions)
    (hattempts : changed.attemptLeases = written.attemptLeases) : changed.Attempted digests count := by
  obtain ⟨ids, leaseIds, readable, authorized, counted, settled⟩ := h
  constructor <;> simpa only [latest, attemptsOf, hdecisions, hattempts]

omit [DecidableEq Ref] in
theorem Recorded.congr (h : written.Recorded digests)
    (hdecisions : changed.decisions = written.decisions)
    (houtcomes : changed.outcomes = written.outcomes) : changed.Recorded digests := by
  obtain ⟨refs, ids, keys, readable, authorized⟩ := h
  constructor <;> simpa only [hdecisions, houtcomes]

end

/-! ## Attempts at an effect -/

variable {attempt : HarnessSideEffectAttemptLease Ref}

/-- The attempts before the next one at an effect whose latest attempt is terminated. -/
theorem Attempted.earlier (h : written.Attempted digests count)
    (hkey : attemptKey digests attempt = decisionKey digests decision)
    (hgeneration : attempt.fencingGeneration = count (decisionKey digests decision) + 1)
    (hsettled : ∀ last, written.latest digests (decisionKey digests decision) = some last →
      last.status = .terminated) : ∀ other ∈ written.attemptLeases, other.Readable ∧
      (attemptKey digests other = attemptKey digests attempt →
        other.fencingGeneration < attempt.fencingGeneration ∧ other.status = .terminated) := by
  intro other hother
  refine ⟨h.readable other hother, fun he => ⟨?_, ?_⟩⟩
  · have hcounted := h.counted other hother
    rw [he, hkey] at hcounted
    rw [hgeneration]
    exact Nat.lt_succ_of_le hcounted
  · by_cases hlatest : written.latest digests (attemptKey digests other) = some other
    · rw [he, hkey] at hlatest
      exact hsettled other hlatest
    · exact h.settled other hother hlatest

theorem mem_attemptsOf {key : Ref} : attempt ∈ written.attemptsOf digests key ↔
      attempt ∈ written.attemptLeases ∧ attemptKey digests attempt = key := by
  unfold attemptsOf
  rw [mem_filter, decide_eq_true_eq]

theorem of_latest {key : Ref} (h : written.latest digests key = some attempt) :
    attempt ∈ written.attemptLeases ∧ attemptKey digests attempt = key :=
  mem_attemptsOf.mp (argmax_mem h)

theorem Attempted.latest_of_ne_terminated (h : written.Attempted digests count)
    (hmem : attempt ∈ written.attemptLeases) (hopen : attempt.status ≠ .terminated) :
    written.latest digests (attemptKey digests attempt) = some attempt := by
  by_contra hlatest
  exact hopen (h.settled attempt hmem hlatest)

theorem Attempted.terminated_of_outcomeRef (h : written.Attempted digests count)
    (hmem : attempt ∈ written.attemptLeases) (href : attempt.outcomeRef ≠ none) :
    attempt.status = .terminated := by
  have hchecked := (h.readable attempt hmem).checked
  cases hstatus : attempt.status with
  | active => exact absurd (hchecked.active hstatus).2.2 href
  | terminated => rfl
  | indeterminate =>
    exact absurd ⟨hstatus, href⟩ (hchecked.closed (by simp [hstatus])).2.2

theorem Attempted.eq_of_id (h : written.Attempted digests count)
    {attempt other : HarnessSideEffectAttemptLease Ref} (hmem : attempt ∈ written.attemptLeases)
    (hother : other ∈ written.attemptLeases) (hid : attempt.attemptId = other.attemptId) :
    attempt = other :=
  inj_on_of_nodup_map h.ids hmem hother hid

omit [DecidableEq Ref] in
/-- Decisions are the same when their references are. -/
theorem Decided.eq_of_ref (h : written.Decided digests count)
    {decision other : HarnessSideEffectDecision Ref} (hmem : decision ∈ written.decisions)
    (hother : other ∈ written.decisions)
    (href : digests.decisionChecksum decision = digests.decisionChecksum other) :
    decision = other :=
  inj_on_of_nodup_map h.refs hmem hother href

omit [DecidableEq Ref] in
theorem Decided.eq_of_key (h : written.Decided digests count)
    {decision other : HarnessSideEffectDecision Ref} (hmem : decision ∈ written.decisions)
    (hother : other ∈ written.decisions)
    (hkey : decisionKey digests decision = decisionKey digests other) : decision = other :=
  inj_on_of_nodup_map h.keys hmem hother hkey

omit [DecidableEq Ref] in
theorem Recorded.eq_of_ref (h : written.Recorded digests)
    {outcome other : HarnessSideEffectOutcome Ref Metadata} (hmem : outcome ∈ written.outcomes)
    (hother : other ∈ written.outcomes)
    (href : digests.outcomeChecksum outcome = digests.outcomeChecksum other) : outcome = other :=
  inj_on_of_nodup_map h.refs hmem hother href

omit [DecidableEq Ref] in
theorem Recorded.eq_of_key (h : written.Recorded digests)
    {outcome other : HarnessSideEffectOutcome Ref Metadata} (hmem : outcome ∈ written.outcomes)
    (hother : other ∈ written.outcomes)
    (hkey : outcomeKey digests outcome = outcomeKey digests other) : outcome = other :=
  inj_on_of_nodup_map h.keys hmem hother hkey

/-! ## A new decision -/

section AddDecision

variable {decision : HarnessSideEffectDecision Ref}

/-- The records with a new decision. -/
def addDecision (written : Written Ref) (decision : HarnessSideEffectDecision Ref) : Written Ref :=
  { written with decisions := written.decisions ++ [decision] }

/-- A new decision keeps the records consistent. -/
theorem Consistent.addDecision (h : written.Consistent digests count) (hread : decision.Readable)
    (hfresh : ∀ other ∈ written.decisions,
      digests.decisionChecksum other ≠ digests.decisionChecksum decision ∧
        other.decisionId ≠ decision.decisionId ∧
        decisionKey digests other ≠ decisionKey digests decision ∧
        other.idempotencyKey ≠ decision.idempotencyKey) :
    (written.addDecision decision).Consistent digests count := by
  have hzero := h.decided.count_eq_zero fun other hother => (hfresh other hother).2.2.1
  refine ⟨⟨?_, ?_, ?_, ?_, ?_, ?_, ?_⟩, ⟨h.attempted.ids, h.attempted.leaseIds,
    h.attempted.readable, ?_, h.attempted.counted, h.attempted.settled⟩,
    ⟨h.recorded.refs, h.recorded.ids, h.recorded.keys, h.recorded.readable, ?_⟩, ⟨h.linked.outcome, h.linked.attempt⟩⟩
  · exact nodup_map_concat h.decided.refs fun other hother => (hfresh other hother).1
  · exact nodup_map_concat h.decided.keys fun other hother => (hfresh other hother).2.2.1
  · exact nodup_map_concat h.decided.ids fun other hother => (hfresh other hother).2.1
  · exact nodup_map_concat h.decided.idempotencyKeys fun other hother => (hfresh other hother).2.2.2
  · exact forall_mem_concat h.decided.readable hread
  · exact forall_mem_concat h.decided.limited (hzero.trans_le (Nat.zero_le _))
  · intro key hkey
    apply h.decided.uncounted
    intro hmem
    apply hkey
    show key ∈ (written.decisions ++ [decision]).map (decisionKey digests)
    rw [map_append]
    exact mem_append_left _ hmem
  · intro attempt hattempt
    obtain ⟨other, hother, hof⟩ := h.attempted.authorized attempt hattempt
    exact ⟨other, mem_append_left _ hother, hof⟩
  · intro outcome houtcome
    obtain ⟨other, hother, hof⟩ := h.recorded.authorized outcome houtcome
    exact ⟨other, mem_append_left _ hother, hof⟩

/-- A higher count of the attempts at an effect keeps the records consistent. -/
theorem Consistent.advance (h : written.Consistent digests count)
    (hmem : decision ∈ written.decisions) {next : ℕ} (hle : next ≤ decision.effectAttemptLimit)
    (hge : count (decisionKey digests decision) ≤ next) :
    written.Consistent digests (Function.update count (decisionKey digests decision) next) := by
  refine ⟨⟨h.decided.refs, h.decided.keys, h.decided.ids, h.decided.idempotencyKeys,
    h.decided.readable, ?_, ?_⟩, ⟨h.attempted.ids, h.attempted.leaseIds, h.attempted.readable,
    h.attempted.authorized, ?_, h.attempted.settled⟩, h.recorded, h.linked⟩
  · intro other hother
    by_cases hkey : decisionKey digests other = decisionKey digests decision
    · rw [hkey, update_self, h.decided.eq_of_key hother hmem hkey]
      exact hle
    · rw [update_of_ne hkey]
      exact h.decided.limited other hother
  · intro key hkey
    rw [update_of_ne]
    · exact h.decided.uncounted key hkey
    · rintro rfl
      exact hkey (mem_map_of_mem hmem)
  · intro attempt hattempt
    by_cases hkey : attemptKey digests attempt = decisionKey digests decision
    · have hcounted := h.attempted.counted attempt hattempt
      rw [hkey] at hcounted
      rw [hkey, update_self]
      exact hcounted.trans hge
    · rw [update_of_ne hkey]
      exact h.attempted.counted attempt hattempt

end AddDecision

/-! ## A new attempt -/

section AddAttempt

variable {attempt : HarnessSideEffectAttemptLease Ref}

/-- The records with a new attempt. -/
def addAttempt (written : Written Ref) (attempt : HarnessSideEffectAttemptLease Ref) : Written Ref :=
  { written with attemptLeases := written.attemptLeases ++ [attempt] }

/-- An attempt of a greater generation is the latest one. -/
theorem latest_addAttempt (hgen : ∀ other ∈ written.attemptLeases,
      attemptKey digests other = attemptKey digests attempt →
        other.fencingGeneration < attempt.fencingGeneration) (key : Ref) :
    (written.addAttempt attempt).latest digests key =
      if attemptKey digests attempt = key then some attempt else written.latest digests key := by
  unfold latest attemptsOf
  show ((written.attemptLeases ++ [attempt]).filter _).argmax _ = _
  rw [filter_append]
  by_cases hkey : attemptKey digests attempt = key
  · rw [if_pos hkey, filter_cons_of_pos (by simpa using hkey), filter_nil,
      argmax_concat]
    cases hmax : (written.attemptLeases.filter fun other => attemptKey digests other = key).argmax
      (·.fencingGeneration) with
    | none => rfl
    | some last =>
      obtain ⟨hlast, hlastKey⟩ := mem_filter.mp (argmax_mem hmax)
      have hlt := hgen last hlast ((of_decide_eq_true hlastKey).trans hkey.symm)
      exact if_pos hlt
  · rw [if_neg hkey, filter_cons_of_neg (by simpa using hkey), filter_nil,
      append_nil]

/-- A new attempt keeps the records consistent. -/
theorem Consistent.addAttempt (h : written.Consistent digests count) (hread : attempt.Readable)
    {decision : HarnessSideEffectDecision Ref} (hmem : decision ∈ written.decisions)
    (hof : AttemptOf digests attempt decision)
    (hcount : attempt.fencingGeneration ≤ count (attemptKey digests attempt))
    (hgen : ∀ other ∈ written.attemptLeases, attemptKey digests other = attemptKey digests attempt →
      other.fencingGeneration < attempt.fencingGeneration)
    (hfresh : ∀ other ∈ written.attemptLeases,
      other.attemptId ≠ attempt.attemptId ∧ other.leaseId ≠ attempt.leaseId)
    (hsettled : ∀ last, written.latest digests (attemptKey digests attempt) = some last →
      last.status = .terminated) (href : attempt.outcomeRef = none) :
    (written.addAttempt attempt).Consistent digests count := by
  refine ⟨h.decided.congr rfl, ⟨?_, ?_, ?_, ?_, ?_, ?_⟩, h.recorded.congr rfl rfl, ⟨?_, ?_⟩⟩
  · exact nodup_map_concat h.attempted.ids fun other hother => (hfresh other hother).1
  · exact nodup_map_concat h.attempted.leaseIds fun other hother => (hfresh other hother).2
  · exact forall_mem_concat h.attempted.readable hread
  · exact forall_mem_concat h.attempted.authorized ⟨decision, hmem, hof⟩
  · exact forall_mem_concat h.attempted.counted hcount
  · intro other hother hlatest
    rw [latest_addAttempt hgen] at hlatest
    by_cases hkey : attemptKey digests attempt = attemptKey digests other
    · rw [if_pos hkey] at hlatest
      rcases mem_append.mp hother with hother | hother
      · by_cases hlast : written.latest digests (attemptKey digests attempt) = some other
        · exact hsettled other hlast
        · exact h.attempted.settled other hother (hkey ▸ hlast)
      · exact absurd (congrArg some (mem_singleton.mp hother).symm) hlatest
    · rw [if_neg hkey] at hlatest
      rcases mem_append.mp hother with hother | hother
      · exact h.attempted.settled other hother hlatest
      · exact absurd (congrArg (attemptKey digests) (mem_singleton.mp hother).symm) hkey
  · intro other hother outcomeRef hother'
    rcases mem_append.mp hother with hother | hother
    · exact h.linked.outcome other hother outcomeRef hother'
    · rw [mem_singleton.mp hother, href] at hother'
      cases hother'
  · intro outcome houtcome hfenced
    obtain ⟨other, hother, hother'⟩ := h.linked.attempt outcome houtcome hfenced
    exact ⟨other, mem_append_left _ hother, hother'⟩

end AddAttempt

/-! ## A later version of an attempt -/

section ReplaceAttempt

variable {current next : HarnessSideEffectAttemptLease Ref}

/-- The records with another version of an attempt. -/
def replaceAttempt (written : Written Ref) (next : HarnessSideEffectAttemptLease Ref) : Written Ref :=
  { written with
    attemptLeases := KeyedList.replace (·.attemptId) written.attemptLeases next }

variable {other : HarnessSideEffectAttemptLease Ref}

theorem Attempted.eq_current (h : written.Attempted digests count) (hf : Follows current next)
    (hmem : current ∈ written.attemptLeases) (hother : other ∈ written.attemptLeases)
    (hid : other.attemptId = next.attemptId) :
    other = current := h.eq_of_id hother hmem (hid.trans hf.same.1.symm)

/-- An attempt of the changed records is the later version or another attempt. -/
theorem mem_replaceAttempt (hf : Follows current next)
    (hother : other ∈ (written.replaceAttempt next).attemptLeases) :
    other = next ∨ other ∈ written.attemptLeases ∧ other ≠ current := by
  rcases mem_replace_iff.mp hother with ⟨rfl, -⟩ | ⟨hold, hne⟩
  · exact Or.inl rfl
  · refine Or.inr ⟨hold, ?_⟩
    rintro rfl
    exact hne hf.same.1

theorem mem_replaceAttempt_self (hf : Follows current next) (hmem : current ∈ written.attemptLeases) :
    next ∈ (written.replaceAttempt next).attemptLeases :=
  mem_replace_iff.mpr (Or.inl ⟨rfl, mem_map.mpr ⟨current, hmem, hf.same.1⟩⟩)

theorem Attempted.mem_replaceAttempt_of_ne (h : written.Attempted digests count)
    (hf : Follows current next) (hmem : current ∈ written.attemptLeases)
    (hother : other ∈ written.attemptLeases) (hne : other ≠ current) :
    other ∈ (written.replaceAttempt next).attemptLeases :=
  mem_replace_iff.mpr
    (Or.inr ⟨hother, fun hid => hne (h.eq_current hf hmem hother hid)⟩)

/-- The latest attempts after a new version of one. -/
theorem Attempted.latest_replaceAttempt (h : written.Attempted digests count)
    (hf : Follows current next) (hmem : current ∈ written.attemptLeases) (key : Ref) :
    (written.replaceAttempt next).latest digests key = (written.latest digests key).map fun attempt =>
      if attempt.attemptId = next.attemptId then next else attempt := by
  -- the new version has the identity and the generation of the old one
  have hsame : ∀ other ∈ written.attemptLeases,
      (if other.attemptId = next.attemptId then next else other).toEffectIdentity
          = other.toEffectIdentity ∧
        (if other.attemptId = next.attemptId then next else other).fencingGeneration
          = other.fencingGeneration := by
    intro other hother
    by_cases hid : other.attemptId = next.attemptId
    · rw [if_pos hid, h.eq_current hf hmem hother hid]
      exact ⟨hf.same.2.2.2.1.symm, hf.same.2.2.2.2.2.2.2.symm⟩
    · rw [if_neg hid]
      exact ⟨rfl, rfl⟩
  unfold latest attemptsOf
  show ((KeyedList.replace (·.attemptId) written.attemptLeases next).filter _).argmax _ = _
  unfold KeyedList.replace
  rw [filter_map, ← KeyedList.argmax_map (f := fun a : HarnessSideEffectAttemptLease Ref =>
    a.fencingGeneration)]
  · congr 2
    apply filter_congr
    intro other hother
    show decide (digests.identityKey _ = key) = decide (digests.identityKey _ = key)
    rw [(hsame other hother).1]
  · intro other hother
    exact (hsame other (mem_filter.mp hother).1).2

omit [DecidableEq Ref] in
/-- An outcome of an attempt is one of its later versions. -/
theorem fences_of_follows {outcome : HarnessSideEffectOutcome Ref Metadata} (hf : Follows current next)
    (h : Fences current outcome) : Fences next outcome :=
  ⟨h.1.trans hf.same.2.2.2.1, h.2.1.trans hf.same.2.2.2.2.1,
    h.2.2.1.trans (congrArg some hf.same.1), h.2.2.2.trans (congrArg some hf.same.2.2.2.2.2.2.2)⟩

/-- A later version of an attempt keeps the attempts consistent. -/
theorem Attempted.replaceAttempt (h : written.Attempted digests count) (hf : Follows current next)
    (hmem : current ∈ written.attemptLeases) :
    (written.replaceAttempt next).Attempted digests count := by
  have hident : next.toEffectIdentity = current.toEffectIdentity := hf.same.2.2.2.1.symm
  have hkey : attemptKey digests next = attemptKey digests current :=
    congrArg digests.identityKey hident
  refine ⟨?_, ?_, ?_, ?_, ?_, ?_⟩
  · show ((KeyedList.replace (·.attemptId) written.attemptLeases next).map _).Nodup
    rw [map_key_replace]
    exact h.ids
  · -- the lease ids stay where they are
    show ((KeyedList.replace (·.attemptId) written.attemptLeases next).map _).Nodup
    rw [map_replace]
    · exact h.leaseIds
    · intro other hother hid
      rw [h.eq_current hf hmem hother hid]
      exact hf.same.2.1.symm
  · intro other hother
    rcases mem_replaceAttempt hf hother with rfl | ⟨hold, -⟩
    · refine ⟨?_, hf.checked⟩
      have hidentity := (h.readable current hmem).identity
      unfold leaseIdentity at hidentity ⊢
      rw [hident, ← hf.same.2.2.2.2.2.1]
      exact hidentity
    · exact h.readable other hold
  · intro other hother
    rcases mem_replaceAttempt hf hother with rfl | ⟨hold, -⟩
    · obtain ⟨decision, hdecision, hi, hr, hk⟩ := h.authorized current hmem
      exact ⟨decision, hdecision, hident.trans hi, hf.same.2.2.2.2.1.symm.trans hr,
        hf.same.2.2.2.2.2.1.symm.trans hk⟩
    · exact h.authorized other hold
  · intro other hother
    rcases mem_replaceAttempt hf hother with rfl | ⟨hold, -⟩
    · rw [hkey, ← hf.same.2.2.2.2.2.2.2]
      exact h.counted current hmem
    · exact h.counted other hold
  · intro other hother hlatest
    rw [h.latest_replaceAttempt hf hmem] at hlatest
    rcases mem_replaceAttempt hf hother with rfl | ⟨hold, hne⟩
    · by_cases hlast : written.latest digests (attemptKey digests current) = some current
      · rw [hkey, hlast] at hlatest
        exact absurd (congrArg some (if_pos hf.same.1)) hlatest
      · exact hf.settled (h.settled current hmem hlast)
    · apply h.settled other hold
      intro hlast
      rw [hlast] at hlatest
      exact hlatest (congrArg some (if_neg fun hid => hne (h.eq_current hf hmem hold hid)))

/-- A later version of an attempt that keeps its reference keeps the records consistent. -/
theorem Consistent.replaceAttempt (h : written.Consistent digests count) (hf : Follows current next)
    (hmem : current ∈ written.attemptLeases) (href : next.outcomeRef = current.outcomeRef) :
    (written.replaceAttempt next).Consistent digests count := by
  refine ⟨h.decided.congr rfl, h.attempted.replaceAttempt hf hmem, h.recorded.congr rfl rfl, ⟨?_, ?_⟩⟩
  · intro other hother outcomeRef hother'
    rcases mem_replaceAttempt hf hother with rfl | ⟨hold, -⟩
    · rcases h.linked.outcome current hmem outcomeRef (href ▸ hother') with
        ⟨outcome, houtcome, hchecksum, hfences⟩
      exact ⟨outcome, houtcome, hchecksum, fences_of_follows hf hfences⟩
    · exact h.linked.outcome other hold outcomeRef hother'
  · intro outcome houtcome hfenced
    obtain ⟨other, hother, hother'⟩ := h.linked.attempt outcome houtcome hfenced
    by_cases hcurrent : other = current
    · subst hcurrent
      exact ⟨next, mem_replaceAttempt_self hf hmem, href.trans hother'⟩
    · exact ⟨other, h.attempted.mem_replaceAttempt_of_ne hf hmem hother hcurrent, hother'⟩

end ReplaceAttempt

/-! ## Outcomes -/

section Outcomes

variable {outcome updated : HarnessSideEffectOutcome Ref Metadata}
variable {current next : HarnessSideEffectAttemptLease Ref}

/-- The records with a new outcome. -/
def addOutcome (written : Written Ref) (outcome : HarnessSideEffectOutcome Ref Metadata) :
    Written Ref :=
  { written with outcomes := written.outcomes ++ [outcome] }

/-- The records with another revision of an outcome. -/
def replaceOutcome (written : Written Ref) (digests : RecordDigests Ref)
    (updated : HarnessSideEffectOutcome Ref Metadata) : Written Ref :=
  { written with outcomes := KeyedList.replace (outcomeKey digests) written.outcomes updated }

/-- An outcome that no other one has the keys of. -/
def FreshOutcome (digests : RecordDigests Ref) (written : Written Ref)
    (outcome : HarnessSideEffectOutcome Ref Metadata) : Prop :=
  ∀ other ∈ written.outcomes,
    digests.outcomeChecksum other ≠ digests.outcomeChecksum outcome ∧
      other.outcomeId ≠ outcome.outcomeId ∧ outcomeKey digests other ≠ outcomeKey digests outcome

omit [DecidableEq Ref] in
/-- A new outcome keeps the outcomes consistent. -/
theorem Recorded.addOutcome (h : written.Recorded digests) (hread : outcome.Readable)
    (hof : ∃ decision ∈ written.decisions, OutcomeOf digests outcome decision)
    (hfresh : written.FreshOutcome digests outcome) :
    (written.addOutcome outcome).Recorded digests := by
  refine ⟨nodup_map_concat h.refs fun other hother => (hfresh other hother).1,
    nodup_map_concat h.ids fun other hother => (hfresh other hother).2.1,
    nodup_map_concat h.keys fun other hother => (hfresh other hother).2.2,
    forall_mem_concat h.readable hread, forall_mem_concat h.authorized hof⟩

/-- A new outcome that no attempt fences keeps the records consistent. -/
theorem Consistent.addOutcome (h : written.Consistent digests count) (hread : outcome.Readable)
    (hof : ∃ decision ∈ written.decisions, OutcomeOf digests outcome decision)
    (hfresh : written.FreshOutcome digests outcome) (hunfenced : outcome.attemptId = none) :
    (written.addOutcome outcome).Consistent digests count := by
  refine ⟨h.decided.congr rfl, h.attempted.congr rfl rfl, h.recorded.addOutcome hread hof hfresh,
    ⟨?_, ?_⟩⟩
  · intro attempt hattempt outcomeRef href
    obtain ⟨other, hother, hfences⟩ := h.linked.outcome attempt hattempt outcomeRef href
    exact ⟨other, mem_append_left _ hother, hfences⟩
  · intro other hother hfenced
    rcases mem_append.mp hother with hother | hother
    · exact h.linked.attempt other hother hfenced
    · rw [mem_singleton.mp hother] at hfenced
      exact absurd hunfenced hfenced

/-- A new outcome with the attempt that it resolves keeps the records consistent. -/
theorem Consistent.recordOutcome (h : written.Consistent digests count) (hread : outcome.Readable)
    (hof : ∃ decision ∈ written.decisions, OutcomeOf digests outcome decision)
    (hfresh : written.FreshOutcome digests outcome) (hf : Follows current next)
    (hmem : current ∈ written.attemptLeases) (hfences : Fences current outcome)
    (hopen : current.outcomeRef = none)
    (href : next.outcomeRef = some (digests.outcomeChecksum outcome)) :
    ((written.addOutcome outcome).replaceAttempt next).Consistent digests count := by
  have hattempted : (written.addOutcome outcome).Attempted digests count := h.attempted.congr rfl rfl
  have hrecorded := h.recorded.addOutcome hread hof hfresh
  refine ⟨h.decided.congr rfl, hattempted.replaceAttempt hf hmem, hrecorded.congr rfl rfl, ⟨?_, ?_⟩⟩
  · intro attempt hattempt outcomeRef href'
    rcases mem_replaceAttempt hf hattempt with rfl | ⟨hold, -⟩
    · exact ⟨outcome, mem_append_right _ mem_cons_self,
        Option.some.inj (href.symm.trans href'), fences_of_follows hf hfences⟩
    · obtain ⟨other, hother, hother'⟩ := h.linked.outcome attempt hold outcomeRef href'
      exact ⟨other, mem_append_left _ hother, hother'⟩
  · intro other hother hfenced
    rcases mem_append.mp hother with hother | hother
    · obtain ⟨attempt, hattempt, href'⟩ := h.linked.attempt other hother hfenced
      refine ⟨attempt, hattempted.mem_replaceAttempt_of_ne hf hmem hattempt ?_, href'⟩
      rintro rfl
      rw [hopen] at href'
      cases href'
    · rw [mem_singleton.mp hother]
      exact ⟨next, mem_replaceAttempt_self hf hmem, href⟩

/-- Another revision of an outcome, the same but for what a disposition changes. -/
structure Revises (outcome updated : HarnessSideEffectOutcome Ref Metadata) : Prop where
  identity : updated.toEffectIdentity = outcome.toEffectIdentity
  id : updated.outcomeId = outcome.outcomeId
  decisionRef : updated.decisionRef = outcome.decisionRef
  kind : updated.kind = outcome.kind
  handler : updated.handler = outcome.handler
  idempotencyKey : updated.idempotencyKey = outcome.idempotencyKey
  atomicGroup : updated.atomicGroup = outcome.atomicGroup
  attemptId : updated.attemptId = outcome.attemptId
  fencingGeneration : updated.fencingGeneration = outcome.fencingGeneration

/-- What another revision replaces is the revision before. -/
theorem Recorded.mem_replaceOutcome (h : written.Recorded digests) (hr : Revises outcome updated)
    (hmem : outcome ∈ written.outcomes) {other : HarnessSideEffectOutcome Ref Metadata} :
    other ∈ (written.replaceOutcome digests updated).outcomes ↔
      other = updated ∨ other ∈ written.outcomes ∧ other ≠ outcome := by
  have hkey : outcomeKey digests updated = outcomeKey digests outcome :=
    congrArg digests.identityKey hr.identity
  show other ∈ KeyedList.replace _ _ _ ↔ _
  rw [mem_replace_iff, hkey]
  constructor
  · rintro (⟨rfl, -⟩ | ⟨hother, hne⟩)
    · exact Or.inl rfl
    · exact Or.inr ⟨hother, fun he => hne (congrArg _ he)⟩
  · rintro (rfl | ⟨hother, hne⟩)
    · exact Or.inl ⟨rfl, mem_map_of_mem hmem⟩
    · exact Or.inr ⟨hother, fun he => hne (h.eq_of_key hother hmem he)⟩

/-- Another revision of an outcome keeps the outcomes consistent. -/
theorem Recorded.replaceOutcome (h : written.Recorded digests) (hr : Revises outcome updated)
    (hmem : outcome ∈ written.outcomes) (hread : updated.Readable)
    (hfresh : ∀ other ∈ written.outcomes, other ≠ outcome →
      digests.outcomeChecksum other ≠ digests.outcomeChecksum updated) :
    (written.replaceOutcome digests updated).Recorded digests := by
  have hkey : outcomeKey digests updated = outcomeKey digests outcome :=
    congrArg digests.identityKey hr.identity
  have hreplaced : ∀ other ∈ written.outcomes,
      outcomeKey digests other = outcomeKey digests updated → other = outcome :=
    fun other hother he => h.eq_of_key hother hmem (he.trans hkey)
  refine ⟨?_, ?_, ?_, ?_, ?_⟩
  · show ((KeyedList.replace _ _ _).map _).Nodup
    unfold KeyedList.replace
    rw [map_map]
    refine List.Nodup.map_on ?_ (List.Nodup.of_map _ h.refs)
    intro a ha b hb hab
    show a = b
    have hab : digests.outcomeChecksum (if outcomeKey digests a = outcomeKey digests updated
        then updated else a) = digests.outcomeChecksum (if outcomeKey digests b =
          outcomeKey digests updated then updated else b) := hab
    by_cases hka : outcomeKey digests a = outcomeKey digests updated
    · by_cases hkb : outcomeKey digests b = outcomeKey digests updated
      · rw [hreplaced a ha hka, hreplaced b hb hkb]
      · rw [if_pos hka, if_neg hkb] at hab
        exact absurd hab.symm (hfresh b hb fun he => hkb (by rw [he, hkey]))
    · by_cases hkb : outcomeKey digests b = outcomeKey digests updated
      · rw [if_neg hka, if_pos hkb] at hab
        exact absurd hab (hfresh a ha fun he => hka (by rw [he, hkey]))
      · rw [if_neg hka, if_neg hkb] at hab
        exact h.eq_of_ref ha hb hab
  · -- the ids stay where they are
    show ((KeyedList.replace _ _ _).map _).Nodup
    rw [map_replace]
    · exact h.ids
    · intro other hother he
      rw [hreplaced other hother he]
      exact hr.id
  · show ((KeyedList.replace _ _ _).map _).Nodup
    rw [map_key_replace]
    exact h.keys
  · intro other hother
    rcases (h.mem_replaceOutcome hr hmem).mp hother with rfl | ⟨hold, -⟩
    · exact hread
    · exact h.readable other hold
  · intro other hother
    rcases (h.mem_replaceOutcome hr hmem).mp hother with rfl | ⟨hold, -⟩
    · obtain ⟨decision, hdecision, hd, hi, hk, hh, hkey', hg⟩ := h.authorized outcome hmem
      exact ⟨decision, hdecision, hr.decisionRef.trans hd, hr.identity.trans hi, hr.kind.trans hk,
        hr.handler.trans hh, hr.idempotencyKey.trans hkey', hr.atomicGroup.trans hg⟩
    · exact h.authorized other hold

section

variable (h : written.Consistent digests count)
    (hr : Revises outcome updated) (hmem : outcome ∈ written.outcomes) (hread : updated.Readable)
    (hfresh : ∀ other ∈ written.outcomes, other ≠ outcome →
      digests.outcomeChecksum other ≠ digests.outcomeChecksum updated)
include h hr hmem hread hfresh

/-- Another revision of an outcome that no attempt refers to keeps the records consistent. -/
theorem Consistent.replaceOutcome (hfree : ∀ attempt ∈ written.attemptLeases,
      attempt.outcomeRef ≠ some (digests.outcomeChecksum outcome)) :
    (written.replaceOutcome digests updated).Consistent digests count := by
  refine ⟨h.decided.congr rfl, h.attempted.congr rfl rfl,
    h.recorded.replaceOutcome hr hmem hread hfresh, ⟨?_, ?_⟩⟩
  · intro attempt hattempt outcomeRef href
    obtain ⟨other, hother, hchecksum, hf⟩ := h.linked.outcome attempt hattempt outcomeRef href
    refine ⟨other, (h.recorded.mem_replaceOutcome hr hmem).mpr (Or.inr ⟨hother, ?_⟩), hchecksum, hf⟩
    rintro rfl
    exact hfree attempt hattempt (hchecksum ▸ href)
  · intro other hother hfenced
    rcases (h.recorded.mem_replaceOutcome hr hmem).mp hother with rfl | ⟨hold, -⟩
    · rw [hr.attemptId] at hfenced
      obtain ⟨attempt, hattempt, href⟩ := h.linked.attempt outcome hmem hfenced
      exact absurd href (hfree attempt hattempt)
    · exact h.linked.attempt other hold hfenced

/-- Another revision of an outcome, with the attempt that refers to it, keeps the records
consistent. -/
theorem Consistent.relinkOutcome (hf : Follows current next) (hcurrent : current ∈ written.attemptLeases)
    (href : current.outcomeRef = some (digests.outcomeChecksum outcome))
    (hnext : next.outcomeRef = some (digests.outcomeChecksum updated)) :
    ((written.replaceOutcome digests updated).replaceAttempt next).Consistent digests count := by
  have hattempted : (written.replaceOutcome digests updated).Attempted digests count := h.attempted.congr rfl rfl
  have hrecorded := h.recorded.replaceOutcome hr hmem hread hfresh
  -- the attempt of the outcome is the one that is relinked
  have hfences : Fences current outcome := by
    obtain ⟨other, hother, hchecksum, hfences⟩ := h.linked.outcome current hcurrent _ href
    rw [h.recorded.eq_of_ref hother hmem hchecksum] at hfences
    exact hfences
  refine ⟨h.decided.congr rfl, hattempted.replaceAttempt hf hcurrent, hrecorded.congr rfl rfl, ⟨?_, ?_⟩⟩
  · intro attempt hattempt outcomeRef href'
    rcases mem_replaceAttempt hf hattempt with rfl | ⟨hold, hne⟩
    · exact ⟨updated, (h.recorded.mem_replaceOutcome hr hmem).mpr (Or.inl rfl),
        Option.some.inj (hnext.symm.trans href'),
        fences_of_follows hf ⟨hr.identity.trans hfences.1, hr.decisionRef.trans hfences.2.1,
          hr.attemptId.trans hfences.2.2.1, hr.fencingGeneration.trans hfences.2.2.2⟩⟩
    · obtain ⟨other, hother, hchecksum, hf'⟩ := h.linked.outcome attempt hold outcomeRef href'
      refine ⟨other, (h.recorded.mem_replaceOutcome hr hmem).mpr (Or.inr ⟨hother, ?_⟩), hchecksum,
        hf'⟩
      rintro rfl
      apply hne
      apply h.attempted.eq_of_id hold hcurrent
      exact Option.some.inj (hf'.2.2.1.symm.trans hfences.2.2.1)
  · intro other hother hfenced
    rcases (h.recorded.mem_replaceOutcome hr hmem).mp hother with rfl | ⟨hold, hne⟩
    · exact ⟨next, mem_replaceAttempt_self hf hcurrent, hnext⟩
    · obtain ⟨attempt, hattempt, href'⟩ := h.linked.attempt other hold hfenced
      refine ⟨attempt, hattempted.mem_replaceAttempt_of_ne hf hcurrent hattempt ?_, href'⟩
      rintro rfl
      exact hne (h.recorded.eq_of_ref hold hmem (Option.some.inj (href'.symm.trans href)))

end

end Outcomes

end Written

end HarnessSideEffects
