/-
# The invariant of the side-effect store

Every dictionary of the store speaks about the same decisions, attempts and outcomes.  The
attempts at an effect are numbered in the order in which they were acquired, only the last of
them can be unresolved, and an outcome belongs to the last one, which is terminated.
-/
import AgoraHub.SideEffectSpec
import AgoraHub.KeyedList

open Fallible StepRuns

/-! ## An assignment among the values -/

namespace PyDict

open List

/-- Where the key can be read off the value, an assignment to a present key replaces one value. -/
theorem values_set_eq_replace {κ ν : Type*} [DecidableEq κ] {d : PyDict κ ν} {key : ν → κ}
    (hkeys : d.keys.Nodup) (hkey : ∀ p ∈ d, key p.2 = p.1) {u : ν} (h : key u ∈ d.keys) :
    (d.set (key u) u).values = KeyedList.replace key d.values u := by
  induction d with
  | nil => simp at h
  | cons p d ih =>
    rw [keys_cons, nodup_cons] at hkeys
    have hp : key p.2 = p.1 := hkey p mem_cons_self
    have hrest : ∀ q ∈ d, key q.2 = q.1 := fun q hq => hkey q (mem_cons_of_mem p hq)
    have hvalues : (values d).map key = keys d := by
      unfold values keys
      rw [map_map]
      exact map_congr_left hrest
    by_cases he : p.1 = key u
    · have hnot : key u ∉ (values d).map key := by
        rw [hvalues, ← he]
        exact hkeys.1
      show values (if p.1 = key u then (key u, u) :: d else (p.1, p.2) :: set d (key u) u) = _
      rw [if_pos he]
      show u :: values d = (if key p.2 = key u then u else p.2) :: KeyedList.replace key (values d) u
      rw [if_pos (hp.trans he), KeyedList.replace_of_notMem hnot]
    · have hmem : key u ∈ keys d := by
        rcases mem_cons.mp h with h | h
        · exact absurd h.symm he
        · exact h
      show values (if p.1 = key u then (key u, u) :: d else (p.1, p.2) :: set d (key u) u) = _
      rw [if_neg he]
      show p.2 :: values (set d (key u) u)
        = (if key p.2 = key u then u else p.2) :: KeyedList.replace key (values d) u
      rw [if_neg (fun e => he (hp.symm.trans e)), ih hkeys.2 hrest hmem]

end PyDict

namespace HarnessSideEffects

open List PyDict KeyedList

namespace InMemoryHarnessSideEffectStore

variable {Ref M : Type} [DecidableEq Ref] (digests : Digests Ref M)
variable (store : InMemoryHarnessSideEffectStore Ref M)

/-! ## The invariant -/

/-- A lease of the store, under its attempt id. -/
structure Lease (time : Datetime) (attemptId : Ref) (attempt : HarnessSideEffectAttemptLease Ref) :
    Prop where
  id_eq : attempt.attemptId = attemptId
  digest : attempt.attemptId = digests.attemptId
    { decisionRef := attempt.decisionRef
      effectId := attempt.effectId
      idempotencyKey := attempt.idempotencyKey
      fencingGeneration := attempt.fencingGeneration }
  authorized : ∃ decision, store.decisionsByRef.get? attempt.decisionRef = some decision ∧
    attempt.toEffectIdentity = decision.toEffectIdentity
  checked : attempt.Checked
  acquired : attempt.acquiredAt ≤ time

/-- An outcome of the store, under the identity of its effect. -/
structure Outcome (identityKey : Ref) (outcome : HarnessSideEffectOutcome Ref M) : Prop where
  identified : digests.identityKey outcome.toEffectIdentity = identityKey
  indexed : store.outcomesByIdempotency.get? outcome.idempotencyKey = some outcome
  authorized : ∃ decision, store.decisionsByRef.get? outcome.decisionRef = some decision ∧
    outcome.toEffectIdentity = decision.toEffectIdentity ∧
    outcome.idempotencyKey = decision.idempotencyKey
  bound : ∃ attempt, store.latest digests identityKey = some attempt ∧
    attempt.status = .terminated ∧
    outcome.attemptId = some attempt.attemptId ∧
    outcome.fencingGeneration = some attempt.fencingGeneration

/-- The dictionaries of the decisions agree. -/
structure Decided : Prop where
  refs : ∀ ref decision, store.decisionsByRef.get? ref = some decision →
    digests.decisionChecksum decision = ref ∧
    store.decisionsByIdentity.get? (digests.identityKey decision.toEffectIdentity) = some decision ∧
    store.decisionsByIdempotency.get? decision.idempotencyKey = some decision
  identities : ∀ key decision, store.decisionsByIdentity.get? key = some decision →
    digests.identityKey decision.toEffectIdentity = key ∧
    store.decisionsByRef.get? (digests.decisionChecksum decision) = some decision
  keys : ∀ idempotencyKey decision,
    store.decisionsByIdempotency.get? idempotencyKey = some decision →
      decision.idempotencyKey = idempotencyKey ∧
      store.decisionsByRef.get? (digests.decisionChecksum decision) = some decision

/-- The dictionaries of the attempts agree, and the attempts at an effect follow one another.
Different attempts have different ids. -/
structure Attempted (time : Datetime) : Prop where
  distinct : Function.Injective digests.attemptId
  idKeys : store.attemptLeasesById.keys.Nodup
  currentKeys : store.attemptLeasesByIdentity.keys.Nodup
  leases : ∀ id attempt, store.attemptLeasesById.get? id = some attempt →
    store.Lease digests time id attempt
  generations : ∀ key, (store.attemptsOf digests key).map (·.fencingGeneration) =
    List.range' 1 (store.attemptsOf digests key).length
  counted : ∀ key,
    (store.attemptsByIdentity.get? key).getD 0 = (store.attemptsOf digests key).length
  limited : ∀ key decision, store.decisionsByIdentity.get? key = some decision →
    (store.attemptsOf digests key).length ≤ decision.effectAttemptLimit
  current : ∀ key, store.attemptLeasesByIdentity.get? key = store.latest digests key
  earlier : ∀ key, ∀ attempt ∈ store.attemptsOf digests key,
    store.latest digests key ≠ some attempt → attempt.status = .terminated
  leaseIds : ∀ leaseId attempt, store.attemptLeasesByLeaseId.get? leaseId = some attempt →
    attempt.leaseId = leaseId ∧ store.attemptLeasesById.get? attempt.attemptId = some attempt

/-- The dictionaries of the outcomes agree. -/
structure Recorded : Prop where
  identityKeys : store.outcomesByIdentity.keys.Nodup
  outcomes : ∀ key outcome, store.outcomesByIdentity.get? key = some outcome →
    store.Outcome digests key outcome
  keys : ∀ idempotencyKey outcome,
    store.outcomesByIdempotency.get? idempotencyKey = some outcome →
      outcome.idempotencyKey = idempotencyKey ∧
      store.outcomesByIdentity.get? (digests.identityKey outcome.toEffectIdentity) = some outcome

/-- The invariant, after a reading of the clock. -/
structure Inv (time : Datetime) : Prop where
  decided : store.Decided digests
  attempted : store.Attempted digests time
  recorded : store.Recorded digests

/-- A lease of the next attempt at an effect. -/
structure Next (time : Datetime) (decision : HarnessSideEffectDecision Ref)
    (lease : HarnessSideEffectAttemptLease Ref) : Prop where
  authorized : store.decisionsByRef.get? (digests.decisionChecksum decision) = some decision
  identity : lease.toEffectIdentity = decision.toEffectIdentity
  decisionRef : lease.decisionRef = digests.decisionChecksum decision
  digest : lease.attemptId = digests.attemptId
    { decisionRef := lease.decisionRef
      effectId := lease.effectId
      idempotencyKey := lease.idempotencyKey
      fencingGeneration := lease.fencingGeneration }
  generation : lease.fencingGeneration =
    (store.attemptsOf digests (digests.identityKey lease.toEffectIdentity)).length + 1
  within : lease.fencingGeneration ≤ decision.effectAttemptLimit
  checked : lease.Checked
  acquired : lease.acquiredAt ≤ time
  settled : ∀ attempt,
    store.latest digests (digests.identityKey lease.toEffectIdentity) = some attempt →
      attempt.status = .terminated
  leaseId : store.attemptLeasesByLeaseId.get? lease.leaseId = none

/-- Nothing is stored under the reference, the identity or the key of a decision. -/
structure Undecided (decision : HarnessSideEffectDecision Ref) : Prop where
  ref : store.decisionsByRef.get? (digests.decisionChecksum decision) = none
  identity : store.decisionsByIdentity.get? (digests.identityKey decision.toEffectIdentity) = none
  key : store.decisionsByIdempotency.get? decision.idempotencyKey = none

variable {digests store}

/-! ## Lookups and lists of attempts -/

section Attempts

variable {time : Datetime} (h : store.Attempted digests time)

include h

variable {attempt : HarnessSideEffectAttemptLease Ref}

/-- An attempt at an effect is what is stored under its id. -/
theorem Attempted.mem_attemptsOf {key : Ref} : attempt ∈ store.attemptsOf digests key ↔
      store.attemptLeasesById.get? attempt.attemptId = some attempt ∧
        digests.identityKey attempt.toEffectIdentity = key := by
  unfold attemptsOf
  rw [mem_filter, decide_eq_true_eq]
  constructor
  · rintro ⟨hmem, hkey⟩
    obtain ⟨id, hid⟩ := exists_get?_of_mem_values h.idKeys hmem
    rw [(h.leases id attempt hid).id_eq]
    exact ⟨hid, hkey⟩
  · rintro ⟨hget, hkey⟩
    exact ⟨mem_values_of_get? hget, hkey⟩

theorem Attempted.of_latest {key : Ref} (hlatest : store.latest digests key = some attempt) :
    store.attemptLeasesById.get? attempt.attemptId = some attempt ∧
      digests.identityKey attempt.toEffectIdentity = key :=
  h.mem_attemptsOf.mp (mem_of_getLast? hlatest)

/-- An attempt with a generation in use is one of those of its effect. -/
theorem Attempted.generation_le {key : Ref} (hmem : attempt ∈ store.attemptsOf digests key) :
    1 ≤ attempt.fencingGeneration ∧
      attempt.fencingGeneration ≤ (store.attemptsOf digests key).length := by
  have hgen : attempt.fencingGeneration ∈ (store.attemptsOf digests key).map (·.fencingGeneration) :=
    mem_map_of_mem hmem
  rw [h.generations key, mem_range'] at hgen
  obtain ⟨i, hi, he⟩ := hgen
  omega

theorem Attempted.latest_of_ne_terminated {id : Ref}
    (hget : store.attemptLeasesById.get? id = some attempt) (hne : attempt.status ≠ .terminated) :
    store.latest digests (digests.identityKey attempt.toEffectIdentity) = some attempt := by
  by_contra hlatest
  have hid : attempt.attemptId = id := (h.leases id attempt hget).id_eq
  have hmem : attempt ∈ store.attemptsOf digests (digests.identityKey attempt.toEffectIdentity) :=
    h.mem_attemptsOf.mpr ⟨hid ▸ hget, rfl⟩
  exact hne (h.earlier _ attempt hmem hlatest)

end Attempts

/-! ## A lease in place of the latest one -/

section WriteAttempt

variable {time : Datetime} {current next : HarnessSideEffectAttemptLease Ref}

/-- A later version of an attempt: the same one, with other terms. -/
structure Follows (current next : HarnessSideEffectAttemptLease Ref) : Prop where
  same : SameAttemptGeneration current next
  checked : next.Checked
  acquired : next.acquiredAt = current.acquiredAt
  settled : current.status = .terminated → next.status = .terminated

/-- The attempts at an effect after a new version of one. -/
theorem Attempted.attemptsOf_writeAttempt (h : store.Attempted digests time) (hf : Follows current next)
    (hget : store.attemptLeasesById.get? current.attemptId = some current) (key identityKey : Ref) :
    (store.writeAttempt identityKey next).attemptsOf digests key =
      KeyedList.replace (·.attemptId) (store.attemptsOf digests key) next := by
  have hid : next.attemptId = current.attemptId := hf.same.1.symm
  have hident : next.toEffectIdentity = current.toEffectIdentity := hf.same.2.2.2.1.symm
  have hkeys : next.attemptId ∈ store.attemptLeasesById.keys := by
    rw [hid]
    exact (mem_keys_iff _ _).mpr ⟨current, hget⟩
  have hvalues : (store.writeAttempt identityKey next).attemptLeasesById.values =
      KeyedList.replace (·.attemptId) store.attemptLeasesById.values next :=
    PyDict.values_set_eq_replace h.idKeys
      (fun p hp => (h.leases p.1 p.2 (get?_of_mem h.idKeys hp)).id_eq) hkeys
  unfold attemptsOf
  rw [hvalues]
  unfold KeyedList.replace
  rw [filter_map]
  congr 1
  apply filter_congr
  -- the new version is an attempt at the same effect
  intro attempt hmem
  obtain ⟨id, hattempt⟩ := exists_get?_of_mem_values h.idKeys hmem
  show decide (digests.identityKey
    (if attempt.attemptId = next.attemptId then next else attempt).toEffectIdentity = key) = _
  by_cases he : attempt.attemptId = next.attemptId
  · have hsame : attempt = current := by
      rw [← (h.leases id attempt hattempt).id_eq, he, hid, hget] at hattempt
      exact (Option.some.inj hattempt).symm
    rw [if_pos he, hident, hsame]
  · rw [if_neg he]

/-- The latest attempts after a new version of one of them. -/
theorem Attempted.latest_writeAttempt (h : store.Attempted digests time) (hf : Follows current next)
    (hlatest : store.latest digests (digests.identityKey current.toEffectIdentity) = some current)
    (key identityKey : Ref) : (store.writeAttempt identityKey next).latest digests key =
      if key = digests.identityKey current.toEffectIdentity then some next
      else store.latest digests key := by
  have hid : next.attemptId = current.attemptId := hf.same.1.symm
  have hget := (h.of_latest hlatest).1
  unfold latest at hlatest ⊢
  rw [h.attemptsOf_writeAttempt hf hget]
  by_cases hkey : key = digests.identityKey current.toEffectIdentity
  · subst hkey
    rw [if_pos rfl]
    unfold KeyedList.replace
    rw [getLast?_map, hlatest]
    show some (if current.attemptId = next.attemptId then next else current) = some next
    rw [if_pos hid.symm]
  · rw [if_neg hkey, replace_of_notMem]
    intro hmem
    obtain ⟨attempt, hattempt, he⟩ := mem_map.mp hmem
    obtain ⟨hget', hkey'⟩ := h.mem_attemptsOf.mp hattempt
    rw [he, hid, hget] at hget'
    exact hkey (by rw [← hkey', Option.some.inj hget'])

/-- A new version of the latest attempt keeps the invariant of the attempts. -/
theorem Attempted.writeAttempt (h : store.Attempted digests time) (hf : Follows current next)
    (hlatest : store.latest digests (digests.identityKey current.toEffectIdentity) = some current) :
    (store.writeAttempt (digests.identityKey current.toEffectIdentity) next).Attempted digests
      time := by
  -- the new version has the identity of the old one, so it takes its place in every index
  have hid : next.attemptId = current.attemptId := hf.same.1.symm
  have hleaseId : next.leaseId = current.leaseId := hf.same.2.1.symm
  have hident : next.toEffectIdentity = current.toEffectIdentity := hf.same.2.2.2.1.symm
  have hgen : next.fencingGeneration = current.fencingGeneration := hf.same.2.2.2.2.2.2.2.symm
  have hget := (h.of_latest hlatest).1
  have hattempts := h.attemptsOf_writeAttempt hf hget
  have hlast := h.latest_writeAttempt hf hlatest
  have hlength : ∀ key identityKey, ((store.writeAttempt identityKey next).attemptsOf digests key).length
      = (store.attemptsOf digests key).length := by
    intro key identityKey
    rw [hattempts, KeyedList.length_replace]
  constructor
  · exact h.distinct
  · exact nodup_keys_set h.idKeys _ _
  · exact nodup_keys_set h.currentKeys _ _
  · intro id attempt hattempt
    have hattempt : (store.attemptLeasesById.set next.attemptId next).get? id = some attempt := hattempt
    rw [get?_set] at hattempt
    split at hattempt
    · rename_i he
      cases hattempt
      have hold := h.leases _ current hget
      refine ⟨he.symm, ?_, ?_, hf.checked, hf.acquired ▸ hold.acquired⟩
      · rw [hid, hold.digest, hf.same.2.2.2.2.1, hf.same.2.2.2.2.2.1, hgen]
        simp only [hident]
      · rw [hident, ← hf.same.2.2.2.2.1]
        exact hold.authorized
    · have hold := h.leases id attempt hattempt
      exact ⟨hold.id_eq, hold.digest, hold.authorized, hold.checked, hold.acquired⟩
  · intro key
    rw [hlength, hattempts, ← h.generations key]
    refine KeyedList.map_replace fun attempt hmem he => ?_
    have hstored := (h.mem_attemptsOf.mp hmem).1
    rw [he, hid, hget] at hstored
    rw [hgen, Option.some.inj hstored]
  · intro key
    rw [hlength]
    exact h.counted key
  · intro key decision hdecision
    rw [hlength]
    exact h.limited key decision hdecision
  · intro key
    rw [hlast]
    show (store.attemptLeasesByIdentity.set _ next).get? key = _
    rw [get?_set, h.current key]
  · intro key attempt hmem hne
    rw [hattempts] at hmem
    rw [hlast] at hne
    rcases mem_replace_iff.mp hmem with ⟨rfl, hold⟩ | ⟨hold, hother⟩
    · -- the new version is the latest attempt at its effect
      obtain ⟨old, holdmem, he⟩ := mem_map.mp hold
      obtain ⟨hstored, hkey⟩ := h.mem_attemptsOf.mp holdmem
      rw [he, hid, hget] at hstored
      rw [← hkey, ← Option.some.inj hstored, if_pos rfl] at hne
      exact absurd rfl hne
    · apply h.earlier key attempt hold
      intro hlatest'
      split at hne
      · rename_i hkey
        rw [hkey, hlatest] at hlatest'
        cases hlatest'
        exact hother hid.symm
      · exact hne hlatest'
  · intro leaseId attempt hattempt
    have hattempt : (store.attemptLeasesByLeaseId.set next.leaseId next).get? leaseId
        = some attempt := hattempt
    show attempt.leaseId = leaseId ∧
      (store.attemptLeasesById.set next.attemptId next).get? attempt.attemptId = some attempt
    rw [get?_set] at hattempt ⊢
    split at hattempt
    · rename_i he
      cases hattempt
      exact ⟨he.symm, if_pos rfl⟩
    · rename_i he
      obtain ⟨hlease, hstored⟩ := h.leaseIds leaseId attempt hattempt
      refine ⟨hlease, ?_⟩
      rw [if_neg, hstored]
      intro he'
      rw [he', hid, hget] at hstored
      cases hstored
      exact he (hlease.symm.trans hleaseId.symm)

/-- `_replace_attempt` finds the latest attempt under its effect. -/
theorem Attempted.replaceAttempt_eq (h : store.Attempted digests time)
    (hid : next.attemptId = current.attemptId)
    (hlatest : store.latest digests (digests.identityKey current.toEffectIdentity) = some current) :
    store.replaceAttempt next =
      .ok (store.writeAttempt (digests.identityKey current.toEffectIdentity) next) := by
  have hget := (h.of_latest hlatest).1
  have hcurrent : store.attemptLeasesByIdentity.get? (digests.identityKey current.toEffectIdentity)
      = some current := (h.current _).trans hlatest
  unfold replaceAttempt
  cases hfind : store.attemptLeasesByIdentity.find? fun p => p.2.attemptId = next.attemptId with
  | none =>
    have hnone := find?_eq_none.mp hfind _ (mem_of_get? hcurrent)
    exact absurd hid.symm (by simpa using hnone)
  | some p =>
    have hmem := mem_of_find?_eq_some hfind
    have he : p.2.attemptId = next.attemptId := by simpa using find?_some hfind
    have hp : store.latest digests p.1 = some p.2 :=
      (h.current p.1).symm.trans (get?_of_mem h.currentKeys hmem)
    obtain ⟨hstored, hkey⟩ := h.of_latest hp
    rw [he, hid, hget] at hstored
    rw [← Option.some.inj hstored] at hkey
    show Except.ok (store.writeAttempt p.1 next) = _
    rw [hkey]

end WriteAttempt

/-! ## A new attempt -/

section WriteLease

variable {time : Datetime} {decision : HarnessSideEffectDecision Ref}
variable {lease : HarnessSideEffectAttemptLease Ref}

variable (h : store.Attempted digests time)
variable (hn : store.Next digests time decision lease)

include h hn

/-- The next attempt has an id of its own. -/
theorem Attempted.fresh : store.attemptLeasesById.get? lease.attemptId = none := by
  cases hget : store.attemptLeasesById.get? lease.attemptId with
  | none => rfl
  | some old =>
    exfalso
    have hold := h.leases _ old hget
    -- the same id is that of the same generation under the same decision
    have hdigest := hold.id_eq
    rw [hold.digest, hn.digest] at hdigest
    have hpayload := h.distinct hdigest
    have href : old.decisionRef = lease.decisionRef := congrArg AttemptIdentity.decisionRef hpayload
    have hgen : old.fencingGeneration = lease.fencingGeneration :=
      congrArg AttemptIdentity.fencingGeneration hpayload
    obtain ⟨decision', hget', hident⟩ := hold.authorized
    rw [href, hn.decisionRef, hn.authorized] at hget'
    rw [← Option.some.inj hget', ← hn.identity] at hident
    have hmem : old ∈ store.attemptsOf digests (digests.identityKey lease.toEffectIdentity) := by
      apply h.mem_attemptsOf.mpr
      rw [hold.id_eq, hident]
      exact ⟨hget, rfl⟩
    have hle := (h.generation_le hmem).2
    have hnext := hn.generation
    omega

/-- The attempts at an effect after the next one began. -/
theorem Attempted.attemptsOf_writeLease (key : Ref) :
    (store.writeLease digests lease).attemptsOf digests key = store.attemptsOf digests key ++
        if key = digests.identityKey lease.toEffectIdentity then [lease] else [] := by
  have hvalues : (store.writeLease digests lease).attemptLeasesById.values =
      store.attemptLeasesById.values ++ [lease] := by
    show (store.attemptLeasesById.set lease.attemptId lease).values = _
    rw [set_of_notMem _ ((get?_eq_none_iff _ _).mp (h.fresh hn))]
    exact map_append
  unfold attemptsOf
  rw [hvalues, filter_append]
  congr 1
  by_cases hkey : key = digests.identityKey lease.toEffectIdentity
  · rw [if_pos hkey, filter_singleton, hkey]
    simp
  · rw [if_neg hkey, filter_singleton]
    simp [Ne.symm hkey]

theorem Attempted.latest_writeLease (key : Ref) :
    (store.writeLease digests lease).latest digests key =
      if key = digests.identityKey lease.toEffectIdentity then some lease
      else store.latest digests key := by
  unfold latest
  rw [h.attemptsOf_writeLease hn]
  by_cases hkey : key = digests.identityKey lease.toEffectIdentity
  · rw [if_pos hkey, if_pos hkey, getLast?_concat]
  · rw [if_neg hkey, if_neg hkey, append_nil]

/-- The next attempt keeps the invariant of the attempts. -/
theorem Attempted.writeLease (hd : store.Decided digests) :
    (store.writeLease digests lease).Attempted digests time := by
  have hattempts := h.attemptsOf_writeLease hn
  have hlast := h.latest_writeLease hn
  -- only the effect of the lease has one attempt more
  have hlength : ∀ key, ((store.writeLease digests lease).attemptsOf digests key).length =
      (store.attemptsOf digests key).length +
        if key = digests.identityKey lease.toEffectIdentity then 1 else 0 := by
    intro key
    rw [hattempts, length_append]
    by_cases hkey : key = digests.identityKey lease.toEffectIdentity
    · rw [if_pos hkey, if_pos hkey, length_singleton]
    · rw [if_neg hkey, if_neg hkey, length_nil]
  constructor
  · exact h.distinct
  · exact nodup_keys_set h.idKeys _ _
  · exact nodup_keys_set h.currentKeys _ _
  · intro id attempt hattempt
    have hattempt : (store.attemptLeasesById.set lease.attemptId lease).get? id = some attempt :=
      hattempt
    rw [get?_set] at hattempt
    split at hattempt
    · rename_i he
      cases hattempt
      refine ⟨he.symm, hn.digest, ⟨decision, ?_, hn.identity⟩, hn.checked, hn.acquired⟩
      rw [hn.decisionRef]
      exact hn.authorized
    · have hold := h.leases id attempt hattempt
      exact ⟨hold.id_eq, hold.digest, hold.authorized, hold.checked, hold.acquired⟩
  · intro key
    rw [hlength, hattempts, map_append, h.generations key]
    by_cases hkey : key = digests.identityKey lease.toEffectIdentity
    · have hgen := hn.generation
      rw [← hkey] at hgen
      rw [if_pos hkey, if_pos hkey, range'_concat, map_singleton, hgen]
      congr 2
      omega
    · rw [if_neg hkey, if_neg hkey, map_nil, append_nil, Nat.add_zero]
  · intro key
    rw [hlength]
    show ((store.attemptsByIdentity.set _ lease.attempt).get? key).getD 0 = _
    rw [get?_set]
    by_cases hkey : key = digests.identityKey lease.toEffectIdentity
    · rw [if_pos hkey, if_pos hkey, hkey, ← hn.generation, ← hn.checked.attempt_eq]
      rfl
    · rw [if_neg hkey, if_neg hkey, h.counted key, Nat.add_zero]
  · intro key decision' hdecision
    rw [hlength]
    by_cases hkey : key = digests.identityKey lease.toEffectIdentity
    · -- the effect has one decision
      have hown := (hd.refs _ decision hn.authorized).2.1
      rw [← hn.identity, ← hkey] at hown
      have hdecision : store.decisionsByIdentity.get? key = some decision' := hdecision
      rw [hown] at hdecision
      rw [if_pos hkey, hkey, ← hn.generation, ← Option.some.inj hdecision]
      exact hn.within
    · rw [if_neg hkey, Nat.add_zero]
      exact h.limited key decision' hdecision
  · intro key
    rw [hlast]
    show (store.attemptLeasesByIdentity.set _ lease).get? key = _
    rw [get?_set, h.current key]
  · intro key attempt hmem hne
    rw [hlast] at hne
    rw [hattempts] at hmem
    by_cases hkey : key = digests.identityKey lease.toEffectIdentity
    · rw [if_pos hkey] at hmem hne
      rcases mem_append.mp hmem with hold | hnew
      · by_cases hlatest : store.latest digests key = some attempt
        · exact hn.settled attempt (hkey ▸ hlatest)
        · exact h.earlier key attempt hold hlatest
      · exact absurd (congrArg some (mem_singleton.mp hnew).symm) hne
    · rw [if_neg hkey] at hne
      rw [if_neg hkey, append_nil] at hmem
      exact h.earlier key attempt hmem hne
  · intro leaseId attempt hattempt
    have hattempt : (store.attemptLeasesByLeaseId.set lease.leaseId lease).get? leaseId
        = some attempt := hattempt
    show attempt.leaseId = leaseId ∧
      (store.attemptLeasesById.set lease.attemptId lease).get? attempt.attemptId = some attempt
    rw [get?_set] at hattempt ⊢
    split at hattempt
    · rename_i he
      cases hattempt
      exact ⟨he.symm, if_pos rfl⟩
    · obtain ⟨hlease, hstored⟩ := h.leaseIds leaseId attempt hattempt
      refine ⟨hlease, ?_⟩
      rw [if_neg, hstored]
      intro he
      rw [he, h.fresh hn] at hstored
      cases hstored

end WriteLease

/-! ## A new decision -/

section WriteDecision

variable {time : Datetime} {decision : HarnessSideEffectDecision Ref}

variable (hu : store.Undecided digests decision)

include hu

theorem Undecided.get?_ref {ref : Ref} {decision' : HarnessSideEffectDecision Ref}
    (hget : store.decisionsByRef.get? ref = some decision') :
    (store.writeDecision digests decision).decisionsByRef.get? ref = some decision' := by
  show (store.decisionsByRef.set _ decision).get? ref = some decision'
  rw [get?_set_of_ne _ _, hget]
  rintro rfl
  rw [hu.ref] at hget
  cases hget

/-- A new decision keeps the invariant of the decisions. -/
theorem Decided.writeDecision (h : store.Decided digests) :
    (store.writeDecision digests decision).Decided digests := by
  constructor
  · intro ref decision' hget
    have hget : (store.decisionsByRef.set _ decision).get? ref = some decision' := hget
    show _ ∧ (store.decisionsByIdentity.set _ decision).get? _ = some decision' ∧
      (store.decisionsByIdempotency.set _ decision).get? _ = some decision'
    rw [get?_set] at hget
    split at hget
    · rename_i he
      cases hget
      exact ⟨he.symm, get?_set_self _ _ _, get?_set_self _ _ _⟩
    · obtain ⟨hr, hi, hk⟩ := h.refs ref decision' hget
      refine ⟨hr, ?_, ?_⟩
      · rw [get?_set_of_ne _ _, hi]
        intro he
        rw [he, hu.identity] at hi
        cases hi
      · rw [get?_set_of_ne _ _, hk]
        intro he
        rw [he, hu.key] at hk
        cases hk
  · intro key decision' hget
    have hget : (store.decisionsByIdentity.set _ decision).get? key = some decision' := hget
    rw [get?_set] at hget
    split at hget
    · rename_i he
      cases hget
      exact ⟨he.symm, get?_set_self _ _ _⟩
    · obtain ⟨hi, hr⟩ := h.identities key decision' hget
      exact ⟨hi, hu.get?_ref hr⟩
  · intro key decision' hget
    have hget : (store.decisionsByIdempotency.set _ decision).get? key = some decision' := hget
    rw [get?_set] at hget
    split at hget
    · rename_i he
      cases hget
      exact ⟨he.symm, get?_set_self _ _ _⟩
    · obtain ⟨hk, hr⟩ := h.keys key decision' hget
      exact ⟨hk, hu.get?_ref hr⟩

/-- A new decision keeps the invariant of the attempts: its effect has none. -/
theorem Attempted.writeDecision (h : store.Attempted digests time) (hd : store.Decided digests) :
    (store.writeDecision digests decision).Attempted digests time := by
  refine ⟨h.distinct, h.idKeys, h.currentKeys, ?_, h.generations, h.counted, ?_, h.current, h.earlier, h.leaseIds⟩
  · intro id attempt hattempt
    have hold := h.leases id attempt hattempt
    obtain ⟨decision', hget, hident⟩ := hold.authorized
    exact ⟨hold.id_eq, hold.digest, ⟨decision', hu.get?_ref hget, hident⟩, hold.checked,
      hold.acquired⟩
  · intro key decision' hget
    have hget : (store.decisionsByIdentity.set _ decision).get? key = some decision' := hget
    rw [get?_set] at hget
    split at hget
    · rename_i hkey
      have hnone : store.attemptsOf digests key = [] := by
        apply eq_nil_iff_forall_not_mem.mpr
        intro attempt hmem
        obtain ⟨hstored, hident⟩ := h.mem_attemptsOf.mp hmem
        obtain ⟨decision'', hget', he⟩ := (h.leases _ attempt hstored).authorized
        have hidentity := (hd.refs _ decision'' hget').2.1
        rw [← he, hident, hkey, hu.identity] at hidentity
        cases hidentity
      show (store.attemptsOf digests key).length ≤ _
      rw [hnone]
      exact Nat.zero_le _
    · exact h.limited key decision' hget

theorem Recorded.writeDecision (h : store.Recorded digests) :
    (store.writeDecision digests decision).Recorded digests := by
  refine ⟨h.identityKeys, ?_, h.keys⟩
  intro key outcome hget
  have hold := h.outcomes key outcome hget
  obtain ⟨decision', hget', hmatch⟩ := hold.authorized
  exact ⟨hold.identified, hold.indexed, ⟨decision', hu.get?_ref hget', hmatch⟩, hold.bound⟩

end WriteDecision

/-! ## Outcomes -/

section WriteOutcome

variable {time : Datetime}

theorem Attempted.writeOutcome (h : store.Attempted digests time)
    (outcome : HarnessSideEffectOutcome Ref M) :
    (store.writeOutcome digests outcome).Attempted digests time := by
  refine ⟨h.distinct, h.idKeys, h.currentKeys, ?_, h.generations, h.counted, h.limited, h.current, h.earlier,
    h.leaseIds⟩
  intro id attempt hattempt
  have hold := h.leases id attempt hattempt
  exact ⟨hold.id_eq, hold.digest, hold.authorized, hold.checked, hold.acquired⟩

/-- An outcome that takes its own places keeps the invariant of the outcomes. -/
theorem Recorded.writeOutcome (h : store.Recorded digests) {outcome : HarnessSideEffectOutcome Ref M}
    (hkey : ∀ old, store.outcomesByIdentity.get? (digests.identityKey outcome.toEffectIdentity)
      = some old → old.idempotencyKey = outcome.idempotencyKey)
    (hidem : ∀ old, store.outcomesByIdempotency.get? outcome.idempotencyKey = some old →
      digests.identityKey old.toEffectIdentity = digests.identityKey outcome.toEffectIdentity)
    (hauthorized : ∃ decision, store.decisionsByRef.get? outcome.decisionRef = some decision ∧
      outcome.toEffectIdentity = decision.toEffectIdentity ∧
      outcome.idempotencyKey = decision.idempotencyKey) (hbound : ∃ attempt,
      store.latest digests (digests.identityKey outcome.toEffectIdentity) = some attempt ∧
      attempt.status = .terminated ∧ outcome.attemptId = some attempt.attemptId ∧
      outcome.fencingGeneration = some attempt.fencingGeneration) :
    (store.writeOutcome digests outcome).Recorded digests := by
  constructor
  · exact nodup_keys_set h.identityKeys _ _
  · intro key other hother
    have hother : (store.outcomesByIdentity.set (digests.identityKey outcome.toEffectIdentity)
      outcome).get? key = some other := hother
    rw [get?_set] at hother
    split at hother
    · rename_i he
      cases hother
      exact ⟨he.symm, get?_set_self _ _ _, hauthorized, he ▸ hbound⟩
    · rename_i he
      have hold := h.outcomes key other hother
      refine ⟨hold.identified, ?_, hold.authorized, hold.bound⟩
      show (store.outcomesByIdempotency.set outcome.idempotencyKey outcome).get? _ = some other
      rw [get?_set_of_ne _ _, hold.indexed]
      -- another effect has another key
      intro hsame
      have hindexed := hold.indexed
      rw [hsame] at hindexed
      exact he (hold.identified.symm.trans (hidem other hindexed))
  · intro idempotencyKey other hother
    have hother : (store.outcomesByIdempotency.set outcome.idempotencyKey outcome).get?
      idempotencyKey = some other := hother
    show _ ∧ (store.outcomesByIdentity.set (digests.identityKey outcome.toEffectIdentity)
      outcome).get? _ = some other
    rw [get?_set] at hother
    split at hother
    · rename_i he
      cases hother
      exact ⟨he.symm, get?_set_self _ _ _⟩
    · rename_i he
      rcases h.keys idempotencyKey other hother with ⟨hkey', hget⟩
      refine ⟨hkey', ?_⟩
      rw [get?_set_of_ne _ _, hget]
      intro hsame
      rw [hsame] at hget
      exact he (hkey'.symm.trans (hkey other hget))

/-- A new version of the latest attempt keeps the invariant of the outcomes. -/
theorem Recorded.writeAttempt (h : store.Recorded digests) (ha : store.Attempted digests time)
    {current next : HarnessSideEffectAttemptLease Ref} (hf : Follows current next)
    (hlatest : store.latest digests (digests.identityKey current.toEffectIdentity) = some current) :
    (store.writeAttempt (digests.identityKey current.toEffectIdentity) next).Recorded digests := by
  refine ⟨h.identityKeys, ?_, h.keys⟩
  intro key outcome hget
  have hold := h.outcomes key outcome hget
  refine ⟨hold.identified, hold.indexed, hold.authorized, ?_⟩
  rcases hold.bound with ⟨attempt, hattempt, hstatus, hid, hgen⟩
  rw [ha.latest_writeAttempt hf hlatest]
  split
  · rename_i hkey
    rw [hkey, hlatest] at hattempt
    cases hattempt
    rw [hf.same.1] at hid
    rw [hf.same.2.2.2.2.2.2.2] at hgen
    exact ⟨next, rfl, hf.settled hstatus, hid, hgen⟩
  · exact ⟨attempt, hattempt, hstatus, hid, hgen⟩

/-- The next attempt at an effect without an outcome keeps the invariant of the outcomes. -/
theorem Recorded.writeLease (h : store.Recorded digests) (ha : store.Attempted digests time)
    {decision : HarnessSideEffectDecision Ref} {lease : HarnessSideEffectAttemptLease Ref}
    (hn : store.Next digests time decision lease)
    (hnone : store.outcomesByIdentity.get? (digests.identityKey lease.toEffectIdentity) = none) :
    (store.writeLease digests lease).Recorded digests := by
  refine ⟨h.identityKeys, ?_, h.keys⟩
  intro key outcome hget
  have hold := h.outcomes key outcome hget
  refine ⟨hold.identified, hold.indexed, hold.authorized, ?_⟩
  rw [ha.latest_writeLease hn, if_neg]
  · exact hold.bound
  · rintro rfl
    have hget : store.outcomesByIdentity.get? _ = some outcome := hget
    rw [hnone] at hget
    cases hget

end WriteOutcome

theorem Attempted.mono {time : Datetime} (h : store.Attempted digests time) {time' : Datetime} (hle : time ≤ time') :
    store.Attempted digests time' := by
  refine ⟨h.distinct, h.idKeys, h.currentKeys, ?_, h.generations, h.counted, h.limited, h.current, h.earlier,
    h.leaseIds⟩
  intro id attempt hattempt
  have hold := h.leases id attempt hattempt
  exact ⟨hold.id_eq, hold.digest, hold.authorized, hold.checked, hold.acquired.trans hle⟩

theorem Inv.mono {time : Datetime} (h : store.Inv digests time) {time' : Datetime} (hle : time ≤ time') :
    store.Inv digests time' := ⟨h.decided, h.attempted.mono hle, h.recorded⟩

theorem inv_empty (hdistinct : Function.Injective digests.attemptId) (attemptLeaseMicros : ℕ)
    (time : Datetime) :
    (empty attemptLeaseMicros : InMemoryHarnessSideEffectStore Ref M).Inv digests time := by
  refine ⟨⟨?_, ?_, ?_⟩, ⟨hdistinct, nodup_nil, nodup_nil, ?_, ?_, ?_, ?_, ?_, ?_, ?_⟩,
    ⟨nodup_nil, ?_, ?_⟩⟩
  all_goals simp [empty, attemptsOf, latest]

/-- The invariant gives the fences. -/
theorem Inv.fenced {time : Datetime} (h : store.Inv digests time) : store.Fenced digests := by
  refine ⟨h.attempted.generations, ?_, ?_, fun key outcome hget =>
    (h.recorded.outcomes key outcome hget).identified⟩
  · intro key attempt hmem
    rcases h.attempted.mem_attemptsOf.mp hmem with ⟨hstored, hkey⟩
    rcases (h.attempted.leases _ attempt hstored).authorized with ⟨decision, hget, hident⟩
    have hidentity := (h.decided.refs _ decision hget).2.1
    rw [← hident, hkey] at hidentity
    exact ⟨decision, hidentity, h.attempted.limited key decision hidentity⟩
  · intro idempotencyKey outcome
    constructor
    · exact h.recorded.keys idempotencyKey outcome
    · rintro ⟨rfl, hget⟩
      exact (h.recorded.outcomes _ outcome hget).indexed

end InMemoryHarnessSideEffectStore

end HarnessSideEffects
