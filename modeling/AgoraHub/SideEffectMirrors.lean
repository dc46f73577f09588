/-
# Two stores of the same records

The dictionaries of the store in memory are indexes of the records whose image the tables are.
The relation is kept by the writes of the two stores, which change the records in the same way.
-/
import AgoraHub.Ensures
import AgoraHub.SideEffectAgreement
import AgoraHub.SideEffectAccepted

open Fallible StepRuns HarnessSideEffects.SQLiteHarnessSideEffectStore

/-! ## Indexes -/

namespace PyDict

open List KeyedList

variable {κ α : Type*} [DecidableEq κ] {key : α → κ} {xs : List α}

/-- The items of a list under their keys. -/
def index (key : α → κ) (xs : List α) : PyDict κ α := xs.map fun x => (key x, x)

omit [DecidableEq κ] in
@[simp] theorem keys_index : (index key xs).keys = xs.map key := by
  unfold keys index
  rw [map_map]
  rfl

omit [DecidableEq κ] in
@[simp] theorem values_index : (index key xs).values = xs := by
  unfold values index
  rw [map_map]
  exact map_id xs

theorem get?_index (k : κ) : (index key xs).get? k = KeyedList.find? key xs k := by
  induction xs with
  | nil => rfl
  | cons x xs ih =>
    show (if key x = k then some x else (index key xs).get? k) = KeyedList.find? key (x :: xs) k
    unfold KeyedList.find? at ih ⊢
    by_cases h : key x = k
    · rw [if_pos h, find?_cons_of_pos (by simpa using h)]
    · rw [if_neg h, find?_cons_of_neg (by simpa using h), ih]

theorem get?_index_eq_some (hkeys : (xs.map key).Nodup) {k : κ} {x : α} :
    (index key xs).get? k = some x ↔ x ∈ xs ∧ key x = k := by
  rw [get?_index]
  constructor
  · exact mem_of_find?
  · rintro ⟨hmem, rfl⟩
    exact find?_of_mem hkeys hmem

theorem get?_index_eq_none {k : κ} : (index key xs).get? k = none ↔ ∀ x ∈ xs, key x ≠ k := by
  rw [get?_index, find?_eq_none_iff, mem_map]
  constructor
  · intro h x hx he
    exact h ⟨x, hx, he⟩
  · rintro h ⟨x, hx, he⟩
    exact h x hx he

theorem set_index_new (key : α → κ) {u : α} (h : ∀ x ∈ xs, key x ≠ key u) :
    (index key xs).set (key u) u = index key (xs ++ [u]) := by
  rw [set_of_notMem]
  · unfold index
    rw [map_append]
    rfl
  · rw [keys_index, mem_map]
    rintro ⟨x, hx, he⟩
    exact h x hx he

/-- Setting the key of an item replaces it in an index. -/
theorem set_index_replace (key : α → κ) (hkeys : (xs.map key).Nodup) {u : α} (h : key u ∈ xs.map key) :
    (index key xs).set (key u) u = index key (KeyedList.replace key xs u) := by
  induction xs with
  | nil => cases h
  | cons x xs ih =>
    rw [map_cons, nodup_cons] at hkeys
    show (if key x = key u then (key u, u) :: index key xs
      else (key x, x) :: (index key xs).set (key u) u) = _
    by_cases he : key x = key u
    · rw [if_pos he]
      have hnot : key u ∉ xs.map key := he ▸ hkeys.1
      show _ = index key ((if key x = key u then u else x) :: KeyedList.replace key xs u)
      rw [if_pos he, replace_of_notMem hnot]
      rfl
    · rw [if_neg he, ih hkeys.2 ((mem_cons.mp h).resolve_left fun e => he e.symm)]
      show _ = index key ((if key x = key u then u else x) :: KeyedList.replace key xs u)
      rw [if_neg he]
      rfl

end PyDict

namespace HarnessSideEffects

open List PyDict SQLiteHarnessSideEffectStore InMemoryHarnessSideEffectStore Written

open InMemoryHarnessSideEffectStore (Follows)

variable {Ref : Type} [DecidableEq Ref]

/-! ## The relation -/

/-- The store in memory is an index of records. -/
structure Mirrors (attemptLeaseMicros : ℕ) (digests : RecordDigests Ref) (count : Ref → ℕ)
    (written : Written Ref) (store : InMemoryHarnessSideEffectStore Ref Metadata) : Prop where
  micros : store.attemptLeaseMicros = attemptLeaseMicros
  decisionsByRef : store.decisionsByRef = PyDict.index digests.decisionChecksum written.decisions
  decisionsById : store.decisionsById = PyDict.index (·.decisionId) written.decisions
  decisionsByIdentity :
    store.decisionsByIdentity = PyDict.index (decisionKey digests) written.decisions
  decisionsByIdempotency :
    store.decisionsByIdempotency = PyDict.index (·.idempotencyKey) written.decisions
  outcomesByIdentity : store.outcomesByIdentity = PyDict.index (outcomeKey digests) written.outcomes
  outcomesByIdempotency :
    store.outcomesByIdempotency = PyDict.index (·.idempotencyKey) written.outcomes
  counts : ∀ key, (store.attemptsByIdentity.get? key).getD 0 = count key
  leasesById : store.attemptLeasesById = PyDict.index (·.attemptId) written.attemptLeases
  leasesByLeaseId : store.attemptLeasesByLeaseId = PyDict.index (·.leaseId) written.attemptLeases
  currentKeys : store.attemptLeasesByIdentity.keys.Nodup
  current : ∀ key, store.attemptLeasesByIdentity.get? key = written.latest digests key

/-- What the columns have taken, and that an attempt with an outcome is the last one at its
effect. -/
structure Fit (sqlite : SQLite) (digests : RecordDigests Ref) (written : Written Ref) : Prop where
  bounded : ∀ decision ∈ written.decisions, decision.effectAttemptLimit < 2 ^ 63
  texts : ∀ attempt ∈ written.attemptLeases,
    1 ≤ sqlLength attempt.leaseId ∧ 1 ≤ sqlLength attempt.ownerId
  valid : ∀ outcome ∈ written.outcomes,
    jsonValid sqlite (outcomeRow digests outcome)
  last : ∀ attempt ∈ written.attemptLeases, attempt.outcomeRef ≠ none →
    written.latest digests (attemptKey digests attempt) = some attempt

/-- Both stores hold the same consistent records. -/
structure Mirrored (attemptLeaseMicros : ℕ) (sqlite : SQLite) (digests : RecordDigests Ref)
    (count : Ref → ℕ) (written : Written Ref)
    (store : InMemoryHarnessSideEffectStore Ref Metadata) : Prop where
  consistent : written.Consistent digests count
  fit : Fit sqlite digests written
  mirrors : Mirrors attemptLeaseMicros digests count written store

/-- What an operation does in both stores: it returns the same value and they hold the same records
afterwards, or it raises and changes nothing, with the code of the store in memory. -/
inductive Answers {α : Type} (attemptLeaseMicros : ℕ) (sqlite : SQLite) (digests : RecordDigests Ref)
    (store : InMemoryHarnessSideEffectStore Ref Metadata)
    (result : Except SideEffectError α × InMemoryHarnessSideEffectStore Ref Metadata)
    (result' : Except SideEffectError (α × SQLiteHarnessSideEffectStore Ref)) : Prop where
  | returned (value : α) (after : InMemoryHarnessSideEffectStore Ref Metadata) (count : Ref → ℕ)
      (written : Written Ref) (hresult : result = (.ok value, after))
      (hresult' : result' = .ok (value, ofWritten digests count written))
      (hmirrored : Mirrored attemptLeaseMicros sqlite digests count written after)
  | raised (e e' : SideEffectError) (hresult : result = (.error e, store)) (hresult' : result' = .error e')
      (hcode : ∀ code, e.code = some code → e'.code = some code)

variable {decision : HarnessSideEffectDecision Ref}

section Lookups

variable {attemptLeaseMicros : ℕ} {sqlite : SQLite} {digests : RecordDigests Ref} {count : Ref → ℕ}
variable {written : Written Ref} {store : InMemoryHarnessSideEffectStore Ref Metadata}
variable (h : Mirrored attemptLeaseMicros sqlite digests count written store)

include h

/-! ## Lookups -/

theorem Mirrored.get?_ref {ref : Ref} : store.decisionsByRef.get? ref = some decision ↔
      decision ∈ written.decisions ∧ digests.decisionChecksum decision = ref := by
  rw [h.mirrors.decisionsByRef]
  exact PyDict.get?_index_eq_some h.consistent.decided.refs

variable {outcome : HarnessSideEffectOutcome Ref Metadata}

theorem Mirrored.get?_outcome {key : Ref} : store.outcomesByIdentity.get? key = some outcome ↔
      outcome ∈ written.outcomes ∧ outcomeKey digests outcome = key := by
  rw [h.mirrors.outcomesByIdentity]
  exact PyDict.get?_index_eq_some h.consistent.recorded.keys

theorem Mirrored.get?_outcome_eq_none {key : Ref} : store.outcomesByIdentity.get? key = none ↔
      ∀ outcome ∈ written.outcomes, outcomeKey digests outcome ≠ key := by
  rw [h.mirrors.outcomesByIdentity]
  exact PyDict.get?_index_eq_none

variable {attempt : HarnessSideEffectAttemptLease Ref}

theorem Mirrored.get?_attempt {id : Ref} : store.attemptLeasesById.get? id = some attempt ↔
      attempt ∈ written.attemptLeases ∧ attempt.attemptId = id := by
  rw [h.mirrors.leasesById]
  exact PyDict.get?_index_eq_some h.consistent.attempted.ids

theorem Mirrored.get?_lease {leaseId : String} :
    store.attemptLeasesByLeaseId.get? leaseId = some attempt ↔
      attempt ∈ written.attemptLeases ∧ attempt.leaseId = leaseId := by
  rw [h.mirrors.leasesByLeaseId]
  exact PyDict.get?_index_eq_some h.consistent.attempted.leaseIds

/-- Outcomes of one key are of one decision. -/
theorem Mirrored.outcomeIdempotency : (written.outcomes.map (·.idempotencyKey)).Nodup := by
  refine List.Nodup.map_on ?_ (List.Nodup.of_map _ h.consistent.recorded.refs)
  intro outcome houtcome other hother he
  obtain ⟨decision, hdecision, hof⟩ := h.consistent.recorded.authorized outcome houtcome
  obtain ⟨decision', hdecision', hof'⟩ := h.consistent.recorded.authorized other hother
  have hsame : decision = decision' :=
    inj_on_of_nodup_map h.consistent.decided.idempotencyKeys hdecision hdecision'
      (hof.2.2.2.2.1.symm.trans (he.trans hof'.2.2.2.2.1))
  apply h.consistent.recorded.eq_of_key houtcome hother
  show digests.identityKey _ = digests.identityKey _
  rw [hof.2.1, hof'.2.1, hsame]

theorem Mirrored.get?_idempotency {key : String} :
    store.outcomesByIdempotency.get? key = some outcome ↔
      outcome ∈ written.outcomes ∧ outcome.idempotencyKey = key := by
  rw [h.mirrors.outcomesByIdempotency]
  exact PyDict.get?_index_eq_some h.outcomeIdempotency

theorem Mirrored.assertCommitted (decision : HarnessSideEffectDecision Ref) :
    store.assertCommitted digests.toDigests decision = require (decision ∈ written.decisions)
        (.plain "handler attempt requires the exact durable authorization") := by
  unfold InMemoryHarnessSideEffectStore.assertCommitted
  by_cases hmem : decision ∈ written.decisions
  · rw [require_of_pos _ (h.get?_ref.mpr ⟨hmem, rfl⟩), require_of_pos _ hmem]
  · rw [require_of_neg _ fun hget => hmem (h.get?_ref.mp hget).1, require_of_neg _ hmem]

theorem Mirrored.assertAuthorized (outcome : HarnessSideEffectOutcome Ref Metadata) :
    store.assertAuthorized digests.toDigests outcome =
      (ofWritten digests count written).assertOutcomeAuthorized digests
        outcome := by
  unfold InMemoryHarnessSideEffectStore.assertAuthorized
    SQLiteHarnessSideEffectStore.assertOutcomeAuthorized
  rw [decisionOf_ofWritten h.consistent, h.mirrors.decisionsByRef, PyDict.get?_index]
  rfl

omit h in
/-- The outcome of the effect is the one that counts. -/
theorem existingOutcome_of_some {outcome stored : HarnessSideEffectOutcome Ref Metadata}
    (hget : store.outcomesByIdentity.get? (outcomeKey digests outcome) = some stored) :
    store.existingOutcome digests.toDigests outcome = if stored = outcome then .ok (some stored)
      else .error (.plain "side-effect outcome identity is immutable") := by
  have hget : store.outcomesByIdentity.get? (digests.identityKey outcome.toEffectIdentity)
      = some stored := hget
  unfold InMemoryHarnessSideEffectStore.existingOutcome
  simp only [hget, reduceOption_cons_of_some]

omit h in
theorem existingOutcome_of_none
    (hget : store.outcomesByIdentity.get? (outcomeKey digests outcome) = none)
    (hidempotent : store.outcomesByIdempotency.get? outcome.idempotencyKey = none) :
    store.existingOutcome digests.toDigests outcome = .ok none := by
  have hget : store.outcomesByIdentity.get? (digests.identityKey outcome.toEffectIdentity)
      = none := hget
  unfold InMemoryHarnessSideEffectStore.existingOutcome
  simp only [hget, hidempotent, reduceOption_cons_of_none, reduceOption_nil]

/-- An outcome of a decision is known to the two stores alike, if one that is new for its effect
has an unused id and reference. -/
theorem Mirrored.existingOutcome (hdecision : decision ∈ written.decisions)
    (hof : OutcomeOf digests outcome decision)
    (hunused : store.outcomesByIdentity.get? (outcomeKey digests outcome) = none →
      UnusedOutcome digests store outcome) : store.existingOutcome digests.toDigests outcome =
      (ofWritten digests count written).existingOutcome digests
        outcome := by
  -- outcomes of the same key are of the same effect
  have hkeys : ∀ other ∈ written.outcomes, other.idempotencyKey = outcome.idempotencyKey →
      outcomeKey digests other = outcomeKey digests outcome := by
    intro other hother he
    obtain ⟨decision', hdecision', hof'⟩ := h.consistent.recorded.authorized other hother
    have hsame : decision' = decision :=
      inj_on_of_nodup_map h.consistent.decided.idempotencyKeys hdecision' hdecision
        (hof'.2.2.2.2.1.symm.trans (he.trans hof.2.2.2.2.1))
    show digests.identityKey _ = digests.identityKey _
    rw [hof'.2.1, hof.2.1, hsame]
  rw [existingOutcome_ofWritten h.consistent]
  cases hexisting : store.outcomesByIdentity.get? (outcomeKey digests outcome) with
  | some stored =>
    obtain ⟨hstored, hkey⟩ := h.get?_outcome.mp hexisting
    rw [existingOutcome_of_some hexisting]
    by_cases he : stored = outcome
    · rw [if_pos he, require_of_pos, ok_bind, if_pos (he ▸ hstored), he]
      · rfl
      · rintro other hother (href | hid | hother' | hidempotency)
        · exact h.consistent.recorded.eq_of_ref hother (he ▸ hstored) href
        · exact inj_on_of_nodup_map h.consistent.recorded.ids hother (he ▸ hstored) hid
        · exact h.consistent.recorded.eq_of_key hother (he ▸ hstored) hother'
        · exact h.consistent.recorded.eq_of_key hother (he ▸ hstored) (hkeys other hother hidempotency)
    · rw [if_neg he, require_of_neg]
      · rfl
      · exact fun hall => he (hall stored hstored (Or.inr (Or.inr (Or.inl hkey))))
  | none =>
    have hnone := h.get?_outcome_eq_none.mp hexisting
    have hidempotent : store.outcomesByIdempotency.get? outcome.idempotencyKey = none := by
      cases hget : store.outcomesByIdempotency.get? outcome.idempotencyKey with
      | none => rfl
      | some other =>
        obtain ⟨hother, he⟩ := h.get?_idempotency.mp hget
        exact absurd (hkeys other hother he) (hnone other hother)
    have hunused := hunused hexisting
    unfold UnusedOutcome at hunused
    rw [h.mirrors.outcomesByIdentity, PyDict.values_index] at hunused
    rw [existingOutcome_of_none hexisting hidempotent, require_of_pos, ok_bind, if_neg]
    · rfl
    · exact fun hmem => hnone outcome hmem rfl
    · rintro other hother (href | hid | hother' | hidempotency)
      · exact absurd href (hunused other hother).2
      · exact absurd hid (hunused other hother).1
      · exact absurd hother' (hnone other hother)
      · exact absurd (hkeys other hother hidempotency) (hnone other hother)

/-- The attempt of a call, where the database finds it too. -/
theorem Mirrored.assertCurrentAttempt_of_current {current : HarnessSideEffectAttemptLease Ref}
    (hcurrent : store.assertCurrentAttempt attempt = .ok current)
    (hlatest : ¬ store.Superseded digests.toDigests current) :
    (ofWritten digests count written).assertCurrentAttempt digests attempt
      = .ok current := by
  obtain ⟨hget, hsame⟩ := InMemoryHarnessSideEffectStore.assertCurrentAttempt_eq_ok.mp hcurrent
  have hlatest : store.attemptLeasesByIdentity.get? (attemptKey digests current) = some current :=
    not_not.mp hlatest
  rw [h.mirrors.current] at hlatest
  have hkey : attemptKey digests attempt = attemptKey digests current :=
    congrArg digests.identityKey hsame.2.2.2.1.symm
  exact (assertCurrentAttempt_eq_ok h.consistent).mpr
    ⟨hkey ▸ hlatest, hsame⟩

/-- The database knows no attempt that is not current in memory, or superseded. -/
theorem Mirrored.assertCurrentAttempt_of_stale
    (hstale : ∀ current, store.assertCurrentAttempt attempt = .ok current →
      store.Superseded digests.toDigests current) :
    (ofWritten digests count written).assertCurrentAttempt digests attempt
      = .error (.attemptError "stale_side_effect_attempt"
        "side-effect attempt no longer owns the current fence") := by
  cases hattempt : (ofWritten digests count written).assertCurrentAttempt
      digests attempt with
  | ok current =>
    rcases (assertCurrentAttempt_eq_ok h.consistent).mp hattempt with
      ⟨hlatest, hsame⟩
    have hget := h.get?_attempt.mpr ⟨(of_latest hlatest).1, hsame.1⟩
    have hsuperseded := hstale current
      (InMemoryHarnessSideEffectStore.assertCurrentAttempt_eq_ok.mpr ⟨hget, hsame⟩)
    apply absurd _ hsuperseded
    rw [h.mirrors.current]
    show written.latest digests (attemptKey digests current) = some current
    rw [show attemptKey digests current = attemptKey digests attempt from
      congrArg digests.identityKey hsame.2.2.2.1]
    exact hlatest
  | error e =>
    have hraises : Raises (· = SideEffectError.attemptError "stale_side_effect_attempt"
        "side-effect attempt no longer owns the current fence")
        ((ofWritten digests count written).assertCurrentAttempt digests attempt) := by
      rw [assertCurrentAttempt_ofWritten h.consistent]
      simp
    exact congrArg Except.error (hraises e hattempt)

end Lookups

/-! ## Writes -/

variable {updated : HarnessSideEffectOutcome Ref Metadata}

section Writes

variable {attemptLeaseMicros : ℕ} {sqlite : SQLite} {digests : RecordDigests Ref} {count : Ref → ℕ}
variable {written : Written Ref} {store : InMemoryHarnessSideEffectStore Ref Metadata}

section

variable (h : Mirrors attemptLeaseMicros digests count written store)

include h

/-- A new decision is indexed under its keys. -/
theorem Mirrors.writeDecision (hfresh : FreshDecision digests written decision) :
    Mirrors attemptLeaseMicros digests count (written.addDecision decision)
      (store.writeDecision digests.toDigests decision) := by
  refine ⟨h.micros, ?_, ?_, ?_, ?_, h.outcomesByIdentity, h.outcomesByIdempotency, h.counts,
    h.leasesById, h.leasesByLeaseId, h.currentKeys, h.current⟩
  · show store.decisionsByRef.set _ decision = _
    rw [h.decisionsByRef]
    exact PyDict.set_index_new digests.decisionChecksum fun other hother => (hfresh other hother).1
  · show store.decisionsById.set _ decision = _
    rw [h.decisionsById]
    exact PyDict.set_index_new (fun d : HarnessSideEffectDecision Ref => d.decisionId)
      fun other hother => (hfresh other hother).2.1
  · show store.decisionsByIdentity.set _ decision = _
    rw [h.decisionsByIdentity]
    exact PyDict.set_index_new (decisionKey digests)
      fun other hother => (hfresh other hother).2.2.1
  · show store.decisionsByIdempotency.set _ decision = _
    rw [h.decisionsByIdempotency]
    exact PyDict.set_index_new (fun d : HarnessSideEffectDecision Ref => d.idempotencyKey)
      fun other hother => (hfresh other hother).2.2.2

theorem counts_set (key : Ref) (next : ℕ) (other : Ref) :
    ((store.attemptsByIdentity.set key next).get? other).getD 0 = Function.update count key next other := by
  rw [get?_set]
  by_cases he : other = key
  · rw [if_pos he, he, Function.update_self]
    rfl
  · rw [if_neg he, Function.update_of_ne he]
    exact h.counts other

/-- A new attempt is indexed under its ids and is the latest one at its effect. -/
theorem Mirrors.writeLease
    {attempt : HarnessSideEffectAttemptLease Ref} (hgeneration : attempt.attempt = attempt.fencingGeneration)
    (hgen : ∀ other ∈ written.attemptLeases, attemptKey digests other = attemptKey digests attempt →
      other.fencingGeneration < attempt.fencingGeneration)
    (hfresh : ∀ other ∈ written.attemptLeases,
      other.attemptId ≠ attempt.attemptId ∧ other.leaseId ≠ attempt.leaseId) :
    Mirrors attemptLeaseMicros digests
      (Function.update count (attemptKey digests attempt) attempt.fencingGeneration)
      (written.addAttempt attempt) (store.writeLease digests.toDigests attempt) := by
  refine ⟨h.micros, h.decisionsByRef, h.decisionsById, h.decisionsByIdentity,
    h.decisionsByIdempotency, h.outcomesByIdentity, h.outcomesByIdempotency, ?_, ?_, ?_, ?_, ?_⟩
  · intro key
    show ((store.attemptsByIdentity.set (attemptKey digests attempt) attempt.attempt).get? key).getD 0 = _
    rw [hgeneration]
    exact counts_set h _ _ key
  · show store.attemptLeasesById.set _ attempt = _
    rw [h.leasesById]
    exact PyDict.set_index_new (fun a : HarnessSideEffectAttemptLease Ref => a.attemptId)
      fun other hother => (hfresh other hother).1
  · show store.attemptLeasesByLeaseId.set _ attempt = _
    rw [h.leasesByLeaseId]
    exact PyDict.set_index_new (fun a : HarnessSideEffectAttemptLease Ref => a.leaseId)
      fun other hother => (hfresh other hother).2
  · exact nodup_keys_set h.currentKeys _ _
  · intro key
    show (store.attemptLeasesByIdentity.set (attemptKey digests attempt) attempt).get? key = _
    rw [get?_set, latest_addAttempt hgen, h.current]
    by_cases he : key = attemptKey digests attempt
    · rw [if_pos he, if_pos he.symm]
    · rw [if_neg he, if_neg fun he' => he he'.symm]

end

variable {current next : HarnessSideEffectAttemptLease Ref}

/-- A later version of the latest attempt replaces it in the indexes. -/
theorem Mirrors.writeAttempt (h : Mirrors attemptLeaseMicros digests count written store)
    (ha : written.Attempted digests count) (hf : Follows current next)
    (hlatest : written.latest digests (attemptKey digests current) = some current) :
    Mirrors attemptLeaseMicros digests count (written.replaceAttempt next)
      (store.writeAttempt (attemptKey digests current) next) := by
  have hmem := (of_latest hlatest).1
  -- replacing under the lease id is replacing under the attempt id
  have hleases : KeyedList.replace (·.leaseId) written.attemptLeases next
      = KeyedList.replace (·.attemptId) written.attemptLeases next := by
    refine KeyedList.replace_congr fun other hother => ⟨fun he => ?_, fun he => ?_⟩
    · rw [inj_on_of_nodup_map ha.leaseIds hother hmem (he.trans hf.same.2.1.symm)]
      exact hf.same.1
    · rw [ha.eq_current hf hmem hother he]
      exact hf.same.2.1
  refine ⟨h.micros, h.decisionsByRef, h.decisionsById, h.decisionsByIdentity,
    h.decisionsByIdempotency, h.outcomesByIdentity, h.outcomesByIdempotency, h.counts, ?_, ?_, ?_, ?_⟩
  · show store.attemptLeasesById.set _ next = _
    rw [h.leasesById]
    exact PyDict.set_index_replace (fun a : HarnessSideEffectAttemptLease Ref => a.attemptId)
      ha.ids (mem_map.mpr ⟨current, hmem, hf.same.1⟩)
  · show store.attemptLeasesByLeaseId.set _ next = _
    rw [h.leasesByLeaseId, PyDict.set_index_replace
      (fun a : HarnessSideEffectAttemptLease Ref => a.leaseId) ha.leaseIds
      (mem_map.mpr ⟨current, hmem, hf.same.2.1⟩), hleases]
    rfl
  · exact nodup_keys_set h.currentKeys _ _
  · intro key
    show (store.attemptLeasesByIdentity.set (attemptKey digests current) next).get? key = _
    rw [get?_set, ha.latest_replaceAttempt hf hmem, h.current]
    by_cases he : key = attemptKey digests current
    · rw [if_pos he, he, hlatest]
      exact congrArg some (if_pos hf.same.1).symm
    · rw [if_neg he]
      cases hlast : written.latest digests key with
      | none => rfl
      | some last =>
        obtain ⟨hlastMem, hlastKey⟩ := of_latest hlast
        refine congrArg some (if_neg fun hid => he ?_).symm
        rw [← hlastKey, ha.eq_current hf hmem hlastMem hid]

/-- A new outcome is indexed under its keys. -/
theorem Mirrors.writeOutcome (h : Mirrors attemptLeaseMicros digests count written store)
    {outcome : HarnessSideEffectOutcome Ref Metadata}
    (hfresh : ∀ other ∈ written.outcomes, outcomeKey digests other ≠ outcomeKey digests outcome ∧
      other.idempotencyKey ≠ outcome.idempotencyKey) :
    Mirrors attemptLeaseMicros digests count (written.addOutcome outcome)
      (store.writeOutcome digests.toDigests outcome) := by
  refine ⟨h.micros, h.decisionsByRef, h.decisionsById, h.decisionsByIdentity,
    h.decisionsByIdempotency, ?_, ?_, h.counts, h.leasesById, h.leasesByLeaseId, h.currentKeys,
    h.current⟩
  · show store.outcomesByIdentity.set _ outcome = _
    rw [h.outcomesByIdentity]
    exact PyDict.set_index_new (outcomeKey digests) fun other hother => (hfresh other hother).1
  · show store.outcomesByIdempotency.set _ outcome = _
    rw [h.outcomesByIdempotency]
    exact PyDict.set_index_new
      (fun o : HarnessSideEffectOutcome Ref Metadata => o.idempotencyKey)
      fun other hother => (hfresh other hother).2

/-- Another revision of an outcome replaces it in the indexes. -/
theorem Mirrored.writeDisposition
    (h : Mirrored attemptLeaseMicros sqlite digests count written store)
    {outcome : HarnessSideEffectOutcome Ref Metadata} (hr : Written.Revises outcome updated)
    (hmem : outcome ∈ written.outcomes) :
    Mirrors attemptLeaseMicros digests count (written.replaceOutcome digests updated)
      (store.writeDisposition digests.toDigests outcome updated) := by
  have hkey : outcomeKey digests updated = outcomeKey digests outcome :=
    congrArg digests.identityKey hr.identity
  -- replacing under the idempotency key is replacing under the identity
  have hreplace : KeyedList.replace (·.idempotencyKey) written.outcomes updated
      = KeyedList.replace (outcomeKey digests) written.outcomes updated := by
    refine KeyedList.replace_congr fun other hother => ⟨fun he => ?_, fun he => ?_⟩
    · rw [inj_on_of_nodup_map h.outcomeIdempotency hother hmem (he.trans hr.idempotencyKey), hkey]
    · rw [h.consistent.recorded.eq_of_key hother hmem (he.trans hkey), hr.idempotencyKey]
  refine ⟨h.mirrors.micros, h.mirrors.decisionsByRef, h.mirrors.decisionsById,
    h.mirrors.decisionsByIdentity, h.mirrors.decisionsByIdempotency, ?_, ?_, h.mirrors.counts,
    h.mirrors.leasesById, h.mirrors.leasesByLeaseId, h.mirrors.currentKeys, h.mirrors.current⟩
  · show store.outcomesByIdentity.set _ updated = _
    rw [h.mirrors.outcomesByIdentity]
    exact PyDict.set_index_replace (outcomeKey digests) h.consistent.recorded.keys
      (hkey ▸ mem_map_of_mem hmem)
  · show store.outcomesByIdempotency.set outcome.idempotencyKey updated = _
    rw [h.mirrors.outcomesByIdempotency, ← hr.idempotencyKey, PyDict.set_index_replace
      (fun o : HarnessSideEffectOutcome Ref Metadata => o.idempotencyKey)
      h.outcomeIdempotency (mem_map.mpr ⟨outcome, hmem, hr.idempotencyKey.symm⟩), hreplace]
    rfl

/-- The latest attempt at an effect is the one that is replaced. -/
theorem Mirrored.replaceAttempt_eq
    (h : Mirrored attemptLeaseMicros sqlite digests count written store) (hf : Follows current next)
    (hlatest : written.latest digests (attemptKey digests current) = some current)
    {changed : InMemoryHarnessSideEffectStore Ref Metadata}
    (hchanged : changed.attemptLeasesByIdentity = store.attemptLeasesByIdentity) :
    changed.replaceAttempt next = .ok (changed.writeAttempt (attemptKey digests current) next) := by
  have hget : store.attemptLeasesByIdentity.get? (attemptKey digests current) = some current := by
    rw [h.mirrors.current, hlatest]
  unfold InMemoryHarnessSideEffectStore.replaceAttempt
  rw [hchanged]
  cases hfind : store.attemptLeasesByIdentity.find? fun p => p.2.attemptId = next.attemptId with
  | none =>
    rw [find?_eq_none] at hfind
    exact absurd (decide_eq_true hf.same.1) (hfind _ (mem_of_get? hget))
  | some p =>
    have hid := find?_some hfind
    have hid : p.2.attemptId = next.attemptId := of_decide_eq_true hid
    have hp : store.attemptLeasesByIdentity.get? p.1 = some p.2 :=
      get?_of_mem h.mirrors.currentKeys (mem_of_find?_eq_some hfind)
    rw [h.mirrors.current] at hp
    obtain ⟨hmem, hkey⟩ := of_latest hp
    have hsame := h.consistent.attempted.eq_current hf (of_latest hlatest).1 hmem hid
    show Except.ok (changed.writeAttempt p.1 next) = _
    rw [← hkey, hsame]

/-! ## What the columns take -/

section

variable (h : Fit sqlite digests written)

include h

/-- A new attempt after others that have no outcome fits. -/
theorem Fit.addAttempt {attempt : HarnessSideEffectAttemptLease Ref}
    (htexts : 1 ≤ sqlLength attempt.leaseId ∧ 1 ≤ sqlLength attempt.ownerId)
    (hgen : ∀ other ∈ written.attemptLeases, attemptKey digests other = attemptKey digests attempt →
      other.fencingGeneration < attempt.fencingGeneration)
    (hfree : ∀ other ∈ written.attemptLeases, attemptKey digests other = attemptKey digests attempt →
      other.outcomeRef = none) : Fit sqlite digests (written.addAttempt attempt) := by
  refine ⟨h.bounded, ?_, h.valid, ?_⟩
  · exact KeyedList.forall_mem_concat h.texts htexts
  · intro other hother href
    rw [latest_addAttempt hgen]
    rcases mem_append.mp hother with hother | hother
    · rw [if_neg fun he => href (hfree other hother he.symm)]
      exact h.last other hother href
    · rw [mem_singleton.mp hother, if_pos rfl]

/-- A later version of the latest attempt fits. -/
theorem Fit.replaceAttempt (ha : written.Attempted digests count) (hf : Follows current next)
    (hlatest : written.latest digests (attemptKey digests current) = some current) :
    Fit sqlite digests (written.replaceAttempt next) := by
  have hmem := (of_latest hlatest).1
  refine ⟨h.bounded, ?_, h.valid, ?_⟩
  · intro other hother
    rcases mem_replaceAttempt hf hother with rfl | ⟨hold, -⟩
    · rw [← hf.same.2.1, ← hf.same.2.2.1]
      exact h.texts current hmem
    · exact h.texts other hold
  · intro other hother href
    rw [ha.latest_replaceAttempt hf hmem]
    rcases mem_replaceAttempt hf hother with rfl | ⟨hold, hne⟩
    · rw [show attemptKey digests other = attemptKey digests current from
        congrArg digests.identityKey hf.same.2.2.2.1.symm, hlatest]
      exact congrArg some (if_pos hf.same.1)
    · rw [h.last other hold href]
      exact congrArg some (if_neg fun hid => hne (ha.eq_current hf hmem hold hid))

theorem Fit.addDecision (hlimit : decision.effectAttemptLimit < 2 ^ 63) :
    Fit sqlite digests (written.addDecision decision) := by
  exact ⟨KeyedList.forall_mem_concat h.bounded hlimit, h.texts, h.valid, h.last⟩

/-- A new outcome of a valid document fits. -/
theorem Fit.addOutcome {outcome : HarnessSideEffectOutcome Ref Metadata}
    (hvalid : jsonValid sqlite (outcomeRow digests outcome)) :
    Fit sqlite digests (written.addOutcome outcome) := by
  exact ⟨h.bounded, h.texts, KeyedList.forall_mem_concat h.valid hvalid, h.last⟩

theorem Fit.replaceOutcome (hvalid : jsonValid sqlite (outcomeRow digests updated)) :
    Fit sqlite digests (written.replaceOutcome digests updated) := by
  refine ⟨h.bounded, h.texts, ?_, h.last⟩
  intro other hother
  rcases KeyedList.mem_replace_iff.mp hother with ⟨rfl, -⟩ | ⟨hold, -⟩
  · exact hvalid
  · exact h.valid other hold

end

end Writes

end HarnessSideEffects
