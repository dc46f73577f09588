/-
# Operations of two stores

An operation of the store in memory and the same operation of the one in SQLite, on the same
records: where the condition of the call holds, both return the same value and write the same
records, or both raise.
-/
import AgoraHub.SideEffectMirrors
import AgoraHub.SQLiteSideEffectRuns

open Fallible StepRuns HarnessSideEffects.SQLiteHarnessSideEffectStore

namespace HarnessSideEffects

open List PyDict InMemoryHarnessSideEffectStore SQLiteHarnessSideEffectStore Written
open InMemoryHarnessSideEffectStore (resolveEffectRecord)
open HarnessSideEffectAttemptLease (toEffectIdentity)

open InMemoryHarnessSideEffectStore (Follows assertLeaseAcceptsResult attemptOverlap)
open SQLiteHarnessSideEffectStore (ofWritten commit)

variable {Ref : Type} [DecidableEq Ref]
variable {attemptLeaseMicros : ℕ} {sqlite : SQLite} {digests : RecordDigests Ref} {count : Ref → ℕ}
variable {written : Written Ref} {store : InMemoryHarnessSideEffectStore Ref Metadata}

/-! ## Answers -/

/-- Both operations return a value, and commit the same records. -/
theorem Mirrored.commits {after : InMemoryHarnessSideEffectStore Ref Metadata}
    (h : Mirrored attemptLeaseMicros sqlite digests count written after) {α : Type} (operation : String)
    (value : α) : Answers attemptLeaseMicros sqlite digests store (.ok value, after)
      (commit operation (value, ofWritten digests count written)) :=
  .returned value after count written rfl
    (commit_ofWritten h.consistent.linked value) h

theorem answers_error {α : Type} (e : SideEffectError) :
    Answers (α := α) attemptLeaseMicros sqlite digests store (.error e, store) (.error e) :=
  .raised e e rfl rfl fun _ he => he

theorem answers_plain {α : Type} (message : String) (e : SideEffectError) :
    Answers (α := α) attemptLeaseMicros sqlite digests store (.error (.plain message), store)
      (.error e) :=
  .raised (.plain message) e rfl rfl fun _ he => nomatch he

/-- The result of an operation that returns the changed store, with the store that it leaves. -/
def leaving {α : Type} (store : InMemoryHarnessSideEffectStore Ref Metadata)
    (result : Except SideEffectError (α × InMemoryHarnessSideEffectStore Ref Metadata)) :
    Except SideEffectError α × InMemoryHarnessSideEffectStore Ref Metadata :=
  match result with
  | .error e => (.error e, store)
  | .ok (value, after) => (.ok value, after)

/-- Where both operations begin with the same step, they answer alike when the rest does. -/
theorem answers_bind {α β : Type} {x : Except SideEffectError β}
    {f : β → Except SideEffectError (α × InMemoryHarnessSideEffectStore Ref Metadata)}
    {g : β → Except SideEffectError (α × SQLiteHarnessSideEffectStore Ref)}
    (h : ∀ b, x = .ok b → Answers attemptLeaseMicros sqlite digests store (leaving store (f b)) (g b)) :
    Answers attemptLeaseMicros sqlite digests store (leaving store (x >>= f)) (x >>= g) := by
  cases x with
  | error e => exact answers_error e
  | ok b => exact h b rfl

/-- Both operations check the same. -/
theorem answers_require {α : Type} {checked checked' : Prop} [Decidable checked] [Decidable checked']
    {e : SideEffectError}
    {f : Unit → Except SideEffectError (α × InMemoryHarnessSideEffectStore Ref Metadata)}
    {g : Unit → Except SideEffectError (α × SQLiteHarnessSideEffectStore Ref)}
    (hiff : checked ↔ checked')
    (h : checked → Answers attemptLeaseMicros sqlite digests store (leaving store (f ())) (g ())) :
    Answers attemptLeaseMicros sqlite digests store (leaving store (require checked e >>= f))
      (require checked' e >>= g) := by
  simp only [← hiff]
  exact answers_bind fun _ hok => h (of_require hok)

variable (h : Mirrored attemptLeaseMicros sqlite digests count written store)

include h

/-! ## Decisions -/

/-- The decisions that share a key with a decision. -/
theorem Mirrored.decisionRows (decision : HarnessSideEffectDecision Ref) :
    (uniqueRows (·.decisionRef)
      ((ofWritten digests count written).tables.decisions.filter fun row =>
        row.decisionId = decision.decisionId ∨ row.decisionRef = digests.decisionChecksum decision ∨
          row.effectId = digests.identityKey decision.toEffectIdentity ∨
          row.idempotencyKey = decision.idempotencyKey)).mapM (decisionFromRow digests)
      = .ok (written.decisions.filter fun other =>
        other.decisionId = decision.decisionId ∨
          digests.decisionChecksum other = digests.decisionChecksum decision ∨
          decisionKey digests other = decisionKey digests decision ∨
          other.idempotencyKey = decision.idempotencyKey) := by
  have hrows : ∀ shares : DecisionRow Ref → Bool,
      uniqueRows (·.decisionRef)
        ((written.decisions.map (decisionRow digests)).filter shares)
      = (written.decisions.filter (shares ∘ decisionRow digests)).map (decisionRow digests) := by
    intro shares
    rw [filter_map, uniqueRows_of_nodup]
    rw [map_map]
    exact h.consistent.decided.refs.sublist (List.Sublist.map _ filter_sublist)
  show (uniqueRows _
    ((written.decisions.map (decisionRow digests)).filter _)).mapM _ = _
  rw [hrows]
  exact mapM_map_eq_ok fun other hother => decisionFromRow_decisionRow
    (h.consistent.decided.readable other (mem_filter.mp hother).1)

/-- The keys of a decision find it, or find none. -/
theorem Mirrored.get?_keys {decision other : HarnessSideEffectDecision Ref} :
    (store.decisionsById.get? decision.decisionId = some other →
      other ∈ written.decisions ∧ other.decisionId = decision.decisionId) ∧
    (store.decisionsByRef.get? (digests.decisionChecksum decision) = some other →
      other ∈ written.decisions ∧
        digests.decisionChecksum other = digests.decisionChecksum decision) ∧
    (store.decisionsByIdentity.get? (digests.identityKey decision.toEffectIdentity) = some other →
      other ∈ written.decisions ∧ decisionKey digests other = decisionKey digests decision) ∧
    (store.decisionsByIdempotency.get? decision.idempotencyKey = some other →
      other ∈ written.decisions ∧ other.idempotencyKey = decision.idempotencyKey) := by
  rw [h.mirrors.decisionsById, h.mirrors.decisionsByRef, h.mirrors.decisionsByIdentity,
    h.mirrors.decisionsByIdempotency]
  exact ⟨(get?_index_eq_some h.consistent.decided.ids).mp,
    (get?_index_eq_some h.consistent.decided.refs).mp,
    (get?_index_eq_some h.consistent.decided.keys).mp,
    (get?_index_eq_some h.consistent.decided.idempotencyKeys).mp⟩

variable {decision : HarnessSideEffectDecision Ref}

/-- `put_decision` answers alike. -/
theorem Mirrored.putDecision_answers (haccepted : decision.postInit = .ok decision)
    (hnew : store.UnknownDecision digests.toDigests decision →
      decision.stepId = none ∧ decision.commandOrdinal < 2 ^ 63 ∧
        decision.effectAttemptLimit < 2 ^ 63) :
    Answers attemptLeaseMicros sqlite digests store (store.putDecision digests.toDigests decision)
      ((ofWritten digests count written).putDecision digests decision) := by
  set shares : HarnessSideEffectDecision Ref → Prop := fun other =>
    other.decisionId = decision.decisionId ∨
      digests.decisionChecksum other = digests.decisionChecksum decision ∨
      decisionKey digests other = decisionKey digests decision ∨
      other.idempotencyKey = decision.idempotencyKey with hshares
  show Answers _ _ _ _ _
    (List.mapM (decisionFromRow digests) (uniqueRows _ _) >>= _)
  have hrows := h.decisionRows decision
  change _ = Except.ok (written.decisions.filter fun other => decide (shares other)) at hrows
  rw [hrows, ok_bind]
  cases hcandidates : [store.decisionsById.get? decision.decisionId,
      store.decisionsByRef.get? (digests.decisionChecksum decision),
      store.decisionsByIdentity.get? (digests.identityKey decision.toEffectIdentity),
      store.decisionsByIdempotency.get? decision.idempotencyKey].reduceOption with
  | cons existing rest =>
    -- the first record found in memory is among the rows that SQLite selects
    have hexisting : existing ∈ written.decisions ∧ shares existing := by
      have hmem : existing ∈ existing :: rest := mem_cons_self
      rw [← hcandidates, reduceOption_mem_iff] at hmem
      obtain ⟨hid, href, hkey, hidempotency⟩ := h.get?_keys
      rcases mem_cons.mp hmem with hget | hmem
      · exact ⟨(hid hget.symm).1, Or.inl (hid hget.symm).2⟩
      rcases mem_cons.mp hmem with hget | hmem
      · exact ⟨(href hget.symm).1, Or.inr (Or.inl (href hget.symm).2)⟩
      rcases mem_cons.mp hmem with hget | hmem
      · exact ⟨(hkey hget.symm).1, Or.inr (Or.inr (Or.inl (hkey hget.symm).2))⟩
      rcases mem_cons.mp hmem with hget | hmem
      · exact ⟨(hidempotency hget.symm).1, Or.inr (Or.inr (Or.inr (hidempotency hget.symm).2))⟩
      · cases hmem
    have hput : store.putDecision digests.toDigests decision =
        if existing = decision then (.ok existing, store)
        else (.error (.plain "side-effect decision identity is immutable"), store) := by
      unfold InMemoryHarnessSideEffectStore.putDecision
      simp only [hcandidates]
    have hfiltered : existing ∈ written.decisions.filter fun other => decide (shares other) :=
      mem_filter.mpr ⟨hexisting.1, decide_eq_true hexisting.2⟩
    rw [hput]
    cases hlist : written.decisions.filter fun other => decide (shares other) with
    | nil => rw [hlist] at hfiltered; cases hfiltered
    | cons first others =>
      rw [hlist] at hfiltered
      by_cases he : existing = decision
      · -- what shares a key with a stored decision is that decision
        have hsame : ∀ candidate ∈ first :: others, candidate = decision := by
          intro candidate hcandidate
          rw [← hlist] at hcandidate
          obtain ⟨hmem, hshare⟩ := mem_filter.mp hcandidate
          have hstored := he ▸ hexisting.1
          rcases of_decide_eq_true hshare with hs | hs | hs | hs
          · exact inj_on_of_nodup_map h.consistent.decided.ids hmem hstored hs
          · exact h.consistent.decided.eq_of_ref hmem hstored hs
          · exact h.consistent.decided.eq_of_key hmem hstored hs
          · exact inj_on_of_nodup_map h.consistent.decided.idempotencyKeys hmem hstored hs
        rw [if_pos he]
        show Answers _ _ _ _ _ (require (∀ candidate ∈ first :: others, candidate = decision) _ >>= _)
        rw [require_of_pos _ hsame, ok_bind, assertAttemptLedger_ofWritten h.consistent
            (he ▸ hexisting.1 : decision ∈ written.decisions), ok_bind,
          hsame first mem_cons_self, he]
        exact h.commits _ decision
      · rw [if_neg he]
        show Answers _ _ _ _ _ (require (∀ candidate ∈ first :: others, candidate = decision) _ >>= _)
        rw [require_of_neg _ fun hall => he (hall existing hfiltered)]
        exact answers_error _
  | nil =>
    have hput : store.putDecision digests.toDigests decision =
        (.ok decision, store.writeDecision digests.toDigests decision) := by
      unfold InMemoryHarnessSideEffectStore.putDecision
      simp only [hcandidates]
    have hnone : ∀ found : Option (HarnessSideEffectDecision Ref),
        found ∈ [store.decisionsById.get? decision.decisionId,
          store.decisionsByRef.get? (digests.decisionChecksum decision),
          store.decisionsByIdentity.get? (digests.identityKey decision.toEffectIdentity),
          store.decisionsByIdempotency.get? decision.idempotencyKey] → found = none := by
      intro found hfound
      cases found with
      | none => rfl
      | some other =>
        have hmem := reduceOption_mem_iff.mpr hfound
        rw [hcandidates] at hmem
        cases hmem
    -- no dictionary knows a key of the decision, so no row shares one with it
    have hunknown : store.UnknownDecision digests.toDigests decision :=
      ⟨hnone _ (by simp), hnone _ (by simp), hnone _ (by simp), hnone _ (by simp)⟩
    obtain ⟨hstep, hordinal, hlimit⟩ := hnew hunknown
    have hfresh : FreshDecision digests written decision := by
      obtain ⟨hid, href, hkey, hidempotency⟩ := hunknown
      rw [h.mirrors.decisionsById, get?_index_eq_none] at hid
      rw [h.mirrors.decisionsByRef, get?_index_eq_none] at href
      rw [h.mirrors.decisionsByIdentity, get?_index_eq_none] at hkey
      rw [h.mirrors.decisionsByIdempotency, get?_index_eq_none] at hidempotency
      intro other hother
      exact ⟨href other hother, hid other hother, hkey other hother, hidempotency other hother⟩
    have hempty : written.decisions.filter (fun other => decide (shares other)) = [] := by
      rw [filter_eq_nil_iff]
      intro other hother hshare
      rcases of_decide_eq_true hshare with hs | hs | hs | hs
      · exact (hfresh other hother).2.1 hs
      · exact (hfresh other hother).1 hs
      · exact (hfresh other hother).2.2.1 hs
      · exact (hfresh other hother).2.2.2 hs
    have hread : decision.Readable := ⟨haccepted, hstep⟩
    have hinserted : ((ofWritten digests count written).insertDecision digests
        "persist Harness side-effect decision" decision >>= fun store =>
          store.insertLedger digests "persist Harness side-effect decision" decision)
        = .ok (ofWritten digests count (written.addDecision decision)) :=
      (insertDecision_eq_ok h.consistent hread.one_le_limit).mpr
        ⟨⟨hordinal, hlimit⟩, hfresh, rfl⟩
    rw [hput, hempty]
    obtain ⟨inserted, hinsert, hledger⟩ := bind_inv hinserted
    show Answers _ _ _ _ _ (insertDecision _ _ _ _ >>= _)
    rw [hinsert, ok_bind, hledger, ok_bind]
    exact Mirrored.commits ⟨h.consistent.addDecision hread hfresh, h.fit.addDecision hlimit,
      h.mirrors.writeDecision hfresh⟩ _ decision

/-! ## Attempts -/

theorem Mirrored.count_eq (decision : HarnessSideEffectDecision Ref) :
    (store.attemptsByIdentity.get? (digests.identityKey decision.toEffectIdentity)).getD 0
      = count (decisionKey digests decision) :=
  h.mirrors.counts _

theorem Mirrored.get?_latest (key : Ref) :
    store.attemptLeasesByIdentity.get? key = written.latest digests key := h.mirrors.current key

variable {lease : HarnessSideEffectAttemptLease Ref}

theorem Mirrored.lease_of_mem_values (hlease : lease ∈ store.attemptLeasesByIdentity.values) :
    lease ∈ written.attemptLeases ∧
      written.latest digests (attemptKey digests lease) = some lease := by
  obtain ⟨p, hp, rfl⟩ := mem_map.mp hlease
  have hget := get?_of_mem h.mirrors.currentKeys hp
  rw [h.get?_latest] at hget
  obtain ⟨hmem, hkey⟩ := of_latest hget
  exact ⟨hmem, by rw [hkey]; exact hget⟩

variable {key : Ref}

theorem Mirrored.isFenced_iff :
    (ofWritten digests count written).IsFenced key ↔ store.attemptLeasesByIdentity.get? key ≠ none := by
  rw [isFenced_ofWritten, h.get?_latest, Ne, Written.latest,
    argmax_eq_none, eq_nil_iff_forall_not_mem, not_forall_not]
  exact exists_congr fun attempt => mem_attemptsOf.symm

theorem Mirrored.next_lt (hmem : decision ∈ written.decisions) {next : ℕ}
    (hle : next ≤ decision.effectAttemptLimit) : next < 2 ^ 63 :=
  lt_of_le_of_lt hle (h.fit.bounded decision hmem)

omit h [DecidableEq Ref] in
theorem ledgerRow_lt_iff {attempts : ℕ} : (ledgerRow digests decision attempts).attemptCount
        < (ledgerRow digests decision attempts).attemptLimit ↔
      attempts < decision.effectAttemptLimit := Iff.rfl

theorem Mirrored.advanceAttemptLedger (operation : String) (hmem : decision ∈ written.decisions)
    (hlimit : count (decisionKey digests decision) < decision.effectAttemptLimit) :
    let ledger := ledgerRow digests decision (count (decisionKey digests decision))
    (ofWritten digests count written).advanceAttemptLedger digests operation decision
        ledger.attemptCount (ledger.attemptCount + 1)
      = .ok (ofWritten digests (Function.update count (decisionKey digests decision)
        (count (decisionKey digests decision) + 1)) written) :=
  (advanceAttemptLedger_eq_ok h.consistent hmem).mpr
    ⟨h.next_lt hmem hlimit, hlimit, rfl⟩

/-- `reserve_attempt` answers alike. -/
theorem Mirrored.reserveAttempt_answers (decision : HarnessSideEffectDecision Ref) :
    Answers attemptLeaseMicros sqlite digests store
      (leaving store (store.reserveAttempt digests.toDigests decision))
      ((ofWritten digests count written).reserveAttempt digests decision) := by
  unfold InMemoryHarnessSideEffectStore.reserveAttempt SQLiteHarnessSideEffectStore.reserveAttempt
  rw [assertCommitted_ofWritten h.consistent, h.assertCommitted]
  refine answers_require Iff.rfl fun hmem => ?_
  rw [assertAttemptLedger_ofWritten h.consistent hmem, ok_bind]
  dsimp only
  rw [h.count_eq]
  refine answers_require h.isFenced_iff.not_left.symm fun _ => ?_
  refine answers_require ledgerRow_lt_iff.symm fun hlimit => ?_
  rw [h.advanceAttemptLedger _ hmem hlimit, ok_bind]
  refine Mirrored.commits ⟨h.consistent.advance hmem hlimit (Nat.le_succ _), h.fit, ?_⟩ _ _
  exact { h.mirrors with counts := counts_set h.mirrors _ _ }

theorem Mirrored.find?_leaseRow (leaseId : String) :
    ((ofWritten digests count written).tables.attemptLeases.find? fun row => row.leaseId = leaseId)
      = (store.attemptLeasesByLeaseId.get? leaseId).map (attemptRow digests) := by
  rw [h.mirrors.leasesByLeaseId, get?_index]
  show (written.attemptLeases.map (attemptRow digests)).find? _ = _
  rw [List.find?_map]
  rfl

theorem Mirrored.outcomeRows_iff :
    (∀ row ∈ (ofWritten digests count written).tables.outcomes, row.effectId ≠ key) ↔
      store.outcomesByIdentity.get? key = none := by
  rw [h.get?_outcome_eq_none]
  exact forall_mem_map

omit h [DecidableEq Ref] in
/-- A text that is required and has no NUL first is not empty for the database. -/
theorem one_le_sqlLength {text fieldName : String} (htext : requiredText text fieldName = .ok ())
    (hhead : text.toList.head? ≠ some '\x00') : 1 ≤ sqlLength text := by
  have hne := (of_require htext).1
  unfold sqlLength
  cases htoList : text.toList with
  | nil => exact absurd (String.toList_eq_nil_iff.mp htoList) hne
  | cons c cs =>
    rw [htoList] at hhead
    have hc : c ≠ '\x00' := fun he => hhead (congrArg some he)
    rw [takeWhile_cons_of_pos (by simpa using hc)]
    exact Nat.succ_pos _

variable {leaseId ownerId : String}

/-- A lease for a next attempt is written in both stores. -/
theorem Mirrored.writesLease (hmem : decision ∈ written.decisions)
    {acquiredAt expiresAt : Datetime}
    (hlimit : count (decisionKey digests decision) < decision.effectAttemptLimit)
    (hcreate : digests.createLease decision (count (decisionKey digests decision) + 1) ownerId leaseId
      acquiredAt expiresAt = .ok lease)
    (hsettled : ∀ last, written.latest digests (decisionKey digests decision) = some last →
      last.status = .terminated)
    (hopen : store.outcomesByIdentity.get? (decisionKey digests decision) = none)
    (hlease : store.attemptLeasesByLeaseId.get? leaseId = none)
    (hid : store.attemptLeasesById.get? (digests.attemptId
      { decisionRef := digests.decisionChecksum decision
        effectId := decision.effectId
        idempotencyKey := decision.idempotencyKey
        fencingGeneration := count (decisionKey digests decision) + 1 }) = none)
    (hheads : ownerId.toList.head? ≠ some '\x00' ∧ leaseId.toList.head? ≠ some '\x00')
    (operation : String) : (ofWritten digests (Function.update count (decisionKey digests decision)
        (count (decisionKey digests decision) + 1)) written).insertAttempt digests operation lease
      = .ok (ofWritten digests (Function.update count (decisionKey digests decision)
        (count (decisionKey digests decision) + 1)) (written.addAttempt lease)) ∧
    Mirrored attemptLeaseMicros sqlite digests (Function.update count (decisionKey digests decision)
        (count (decisionKey digests decision) + 1)) (written.addAttempt lease)
      (store.writeLease digests.toDigests lease) := by
  have hcreated := created_of_createLease (h.consistent.decided.readable decision hmem) hcreate
  have hkey : attemptKey digests lease = decisionKey digests decision :=
    congrArg digests.identityKey hcreated.of.1
  have hchecked := hcreated.readable.checked
  have htexts : 1 ≤ sqlLength lease.leaseId ∧ 1 ≤ sqlLength lease.ownerId := by
    rw [hcreated.leaseId, hcreated.ownerId]
    exact ⟨one_le_sqlLength (hcreated.leaseId ▸ hchecked.leaseId) hheads.2,
      one_le_sqlLength (hcreated.ownerId ▸ hchecked.ownerId) hheads.1⟩
  have hfresh : ∀ other ∈ written.attemptLeases,
      other.attemptId ≠ lease.attemptId ∧ other.leaseId ≠ lease.leaseId := by
    rw [h.mirrors.leasesById, get?_index_eq_none] at hid
    rw [h.mirrors.leasesByLeaseId, get?_index_eq_none] at hlease
    rw [hcreated.digest, hcreated.leaseId]
    exact fun other hother => ⟨hid other hother, hlease other hother⟩
  have hearlier := h.consistent.attempted.earlier hkey hcreated.generation hsettled
  have hgen := fun other hother he => ((hearlier other hother).2 he).1
  -- an earlier attempt with an outcome would have one of the effect
  have hfree : ∀ other ∈ written.attemptLeases,
      attemptKey digests other = attemptKey digests lease → other.outcomeRef = none := by
    intro other hother he
    cases href : other.outcomeRef with
    | none => rfl
    | some outcomeRef =>
      rcases h.consistent.linked.outcome other hother outcomeRef href with
        ⟨outcome, houtcome, -, hfences⟩
      refine absurd ?_ (h.get?_outcome_eq_none.mp hopen outcome houtcome)
      rw [← hkey, ← he]
      exact congrArg digests.identityKey hfences.1
  have hadvanced := h.consistent.advance hmem hlimit (Nat.le_succ _)
  refine ⟨?_, hadvanced.addAttempt hcreated.readable hmem hcreated.of ?_ hgen hfresh ?_
    hcreated.unresolved, h.fit.addAttempt htexts hgen hfree, ?_⟩
  · refine (insertAttempt_eq_ok hmem hcreated.of hchecked hearlier).mpr
      ⟨⟨?_, htexts⟩, hfresh, rfl⟩
    rw [hcreated.generation]
    exact h.next_lt hmem hlimit
  · rw [hkey, Function.update_self, hcreated.generation]
  · rw [hkey]
    exact hsettled
  · have hwritten := h.mirrors.writeLease hchecked.attempt_eq hgen hfresh
    rw [hkey, hcreated.generation] at hwritten
    exact hwritten

omit h in
/-- Where nothing but its texts stands against it, a lease is created. -/
theorem acquirableLease_of_acquirable {ownerId leaseId : String} {now : Datetime}
    (hcommitted : store.assertCommitted digests.toDigests decision = .ok ())
    (hacquirable : store.Acquirable digests.toDigests decision leaseId) :
    store.acquirableLease digests.toDigests decision ownerId leaseId now =
      (addLease now store.attemptLeaseMicros >>= fun leaseExpiresAt =>
        digests.createLease decision ((store.attemptsByIdentity.get?
          (digests.identityKey decision.toEffectIdentity)).getD 0 + 1) ownerId leaseId now
          leaseExpiresAt >>= fun lease => pure (.inr lease)) := by
  obtain ⟨hlease, houtcome, hcurrent, hlimit⟩ := hacquirable
  unfold InMemoryHarnessSideEffectStore.acquirableLease
  rw [hcommitted, ok_bind]
  simp only [hlease]
  rw [check_of_pos houtcome]
  cases hget : store.attemptLeasesByIdentity.get? (digests.identityKey decision.toEffectIdentity) with
  | none =>
    rw [hget] at hcurrent
    rw [check_of_pos hcurrent, check_of_pos hlimit]
  | some current =>
    rw [hget] at hcurrent
    dsimp only at hcurrent ⊢
    rw [check_of_pos hcurrent, check_of_pos hlimit]

variable {now : Datetime}

/-- Without its texts or its decision, no lease is acquired in the database. -/
theorem Mirrored.acquireAttempt_raises
    (hnot : ¬ (requiredText ownerId "owner_id" = .ok () ∧ requiredText leaseId "lease_id" = .ok () ∧
      decision ∈ written.decisions)) :
    ∃ e, (ofWritten digests count written).acquireAttempt sqlite digests decision ownerId leaseId now
      = .error e := by
  cases hresult : (ofWritten digests count written).acquireAttempt sqlite digests decision ownerId
      leaseId now with
  | error e => exact ⟨e, rfl⟩
  | ok result =>
    obtain ⟨howner, hrest⟩ := check_inv hresult
    obtain ⟨hlease, hrest⟩ := check_inv hrest
    obtain ⟨hcommitted, -⟩ := check_inv hrest
    rw [assertCommitted_ofWritten h.consistent] at hcommitted
    exact absurd ⟨howner, hlease, of_require hcommitted⟩ hnot

omit h [DecidableEq Ref] in
/-- A lease without its texts is refused without a code. -/
theorem createLease_eq_plain (digests : RecordDigests Ref) (decision : HarnessSideEffectDecision Ref)
    {attempt : ℕ} {ownerId leaseId : String} (now expiresAt : Datetime) (hpositive : 1 ≤ attempt)
    (hnot : ¬ (requiredText ownerId "owner_id" = .ok () ∧ requiredText leaseId "lease_id" = .ok ())) :
    ∃ message, digests.createLease decision attempt ownerId leaseId now expiresAt
      = .error (.plain message) := by
  unfold Digests.createLease
  rw [check_of_pos hpositive]
  cases hlease : requiredText leaseId "lease_id" with
  | error e =>
    rw [← (require_eq_error.mp hlease).2]
    exact ⟨_, rfl⟩
  | ok u =>
    cases howner : requiredText ownerId "owner_id" with
    | error e =>
      rw [← (require_eq_error.mp howner).2]
      exact ⟨_, rfl⟩
    | ok u => exact absurd ⟨howner, hlease⟩ hnot

omit h [DecidableEq Ref] in
/-- A date out of range has no code. -/
theorem addLease_eq_error {now : Datetime} {micros : ℕ} {e : SideEffectError}
    (hadd : addLease now micros = .error e) : e = .overflow := by
  unfold addLease at hadd
  cases hmicros : now.addMicros micros with
  | error e' =>
    rw [hmicros] at hadd
    exact (Except.error.inj hadd).symm
  | ok later =>
    rw [hmicros] at hadd
    cases hadd

omit h in
/-- `acquire_attempt` returns the lease that is there or writes the one that it creates. -/
theorem acquireAttempt_eq_leaving : store.acquireAttempt digests.toDigests decision ownerId leaseId now =
      leaving store (store.acquirableLease digests.toDigests decision ownerId leaseId now >>=
        fun result => match result with
          | .inl existing => .ok (existing, store)
          | .inr lease => .ok (lease, store.writeLease digests.toDigests lease)) := by
  unfold InMemoryHarnessSideEffectStore.acquireAttempt
  rcases store.acquirableLease digests.toDigests decision ownerId leaseId now with e | existing | lease
    <;> rfl

/-- Where nothing stands against it, both stores create the lease. -/
theorem Mirrored.createsLease (hmem : decision ∈ written.decisions)
    (hexpiry : sqlite.leaseExpiry now = addLease now attemptLeaseMicros)
    (hacquirable : store.Acquirable digests.toDigests decision leaseId)
    (hnew : (addLease now store.attemptLeaseMicros).isOk = true →
      ownerId.toList.head? ≠ some '\x00' ∧ leaseId.toList.head? ≠ some '\x00' ∧
      store.attemptLeasesById.get? (digests.attemptId
        { decisionRef := digests.decisionChecksum decision
          effectId := decision.effectId
          idempotencyKey := decision.idempotencyKey
          fencingGeneration := (store.attemptsByIdentity.get?
            (digests.identityKey decision.toEffectIdentity)).getD 0 + 1 }) = none)
    (operation : String) :
    let ledger := ledgerRow digests decision (count (decisionKey digests decision))
    Answers attemptLeaseMicros sqlite digests store
      (store.acquireAttempt digests.toDigests decision ownerId leaseId now)
      (sqlite.leaseExpiry now >>= fun leaseExpiresAt =>
        digests.createLease decision (ledger.attemptCount + 1) ownerId leaseId now leaseExpiresAt >>=
          fun lease => (ofWritten digests count written).advanceAttemptLedger digests operation decision
            ledger.attemptCount (ledger.attemptCount + 1) >>= fun store =>
              store.insertAttempt digests operation lease >>= fun store =>
                commit operation (lease, store)) := by
  intro ledger
  have hcommitted : store.assertCommitted digests.toDigests decision = .ok () := by
    rw [h.assertCommitted, require_of_pos _ hmem]
  rw [acquireAttempt_eq_leaving, acquirableLease_of_acquirable hcommitted hacquirable, hexpiry,
    h.mirrors.micros, h.count_eq]
  obtain ⟨hlease, hopen, hcurrent, hlimit⟩ := hacquirable
  rw [h.count_eq] at hlimit
  rw [h.mirrors.micros, h.count_eq] at hnew
  have hsettled : ∀ last, written.latest digests (decisionKey digests decision) = some last →
      last.status = .terminated := by
    intro last hlast
    rw [h.get?_latest] at hcurrent
    have hlast : written.latest digests (digests.identityKey decision.toEffectIdentity) = some last :=
      hlast
    rw [hlast] at hcurrent
    exact hcurrent
  rw [bind_assoc]
  refine answers_bind fun expiresAt hadd => ?_
  rw [bind_assoc]
  refine answers_bind fun lease hcreate => ?_
  have hnew := hnew (by rw [hadd]; rfl)
  rcases h.writesLease hmem hlimit hcreate hsettled hopen hlease hnew.2.2 ⟨hnew.1, hnew.2.1⟩
    operation with ⟨hinsert, hmirrored⟩
  rw [h.advanceAttemptLedger _ hmem hlimit, ok_bind, hinsert, ok_bind]
  exact hmirrored.commits operation lease

/-- `acquire_attempt` answers alike. -/
theorem Mirrored.acquireAttempt_answers
    (hexpiry : sqlite.leaseExpiry now = addLease now attemptLeaseMicros)
    (halike : Alike sqlite digests store (.fenced (.acquireAttempt decision ownerId leaseId now))) :
    Answers attemptLeaseMicros sqlite digests store
      (store.acquireAttempt digests.toDigests decision ownerId leaseId now)
      ((ofWritten digests count written).acquireAttempt sqlite digests decision ownerId leaseId now) := by
  by_cases hmem : decision ∈ written.decisions
  · rcases halike (h.get?_ref.mpr ⟨hmem, rfl⟩) with ⟨htexts, hnew⟩
    have hcommitted : store.assertCommitted digests.toDigests decision = .ok () := by
      rw [h.assertCommitted, require_of_pos _ hmem]
    by_cases hboth : requiredText ownerId "owner_id" = .ok () ∧ requiredText leaseId "lease_id" = .ok ()
    · have hcreates := fun hacquirable => h.createsLease hmem hexpiry hacquirable
        (hnew hacquirable hboth) "acquire fenced Harness side-effect attempt"
      rw [acquireAttempt_eq_leaving] at hcreates ⊢
      unfold InMemoryHarnessSideEffectStore.acquirableLease
        SQLiteHarnessSideEffectStore.acquireAttempt
      rw [hcommitted, ok_bind, hboth.1, ok_bind, hboth.2, ok_bind, assertCommitted_ofWritten h.consistent,
        require_of_pos _ hmem, ok_bind, assertAttemptLedger_ofWritten h.consistent hmem, ok_bind,
        h.find?_leaseRow]
      cases hlease : store.attemptLeasesByLeaseId.get? leaseId with
      | some existing =>
        rw [Option.map_some]
        dsimp only
        rw [attemptFromRow_attemptRow (h.consistent.attempted.readable existing (h.get?_lease.mp hlease).1),
          ok_bind, bind_assoc]
        exact answers_require Iff.rfl fun _ => h.commits _ existing
      | none =>
        have hcreates := fun hacquirable => acquirableLease_of_acquirable hcommitted hacquirable ▸
          hcreates hacquirable
        dsimp only [Option.map_none]
        rw [bind_assoc]
        refine answers_require h.outcomeRows_iff.symm fun hopen => ?_
        rw [latestAttempt_ofWritten h.consistent, ok_bind, h.get?_latest, h.count_eq]
        cases hlast : written.latest digests (digests.identityKey decision.toEffectIdentity) with
        | some current =>
          rw [bind_assoc]
          refine answers_require Iff.rfl fun hterminated => ?_
          rw [bind_assoc]
          refine answers_require ledgerRow_lt_iff.symm fun hlimit => ?_
          have hacquirable : store.Acquirable digests.toDigests decision leaseId := by
            refine ⟨hlease, hopen, ?_, ?_⟩
            · rw [h.get?_latest, hlast]
              exact hterminated
            · rw [h.count_eq]
              exact hlimit
          have := hcreates hacquirable
          rw [h.count_eq] at this
          exact this
        | none =>
          rw [bind_assoc]
          refine answers_require Iff.rfl fun hzero => ?_
          rw [bind_assoc]
          refine answers_require ledgerRow_lt_iff.symm fun hlimit => ?_
          have hacquirable : store.Acquirable digests.toDigests decision leaseId := by
            refine ⟨hlease, hopen, ?_, ?_⟩
            · rw [h.get?_latest, hlast, h.count_eq]
              exact hzero
            · rw [h.count_eq]
              exact hlimit
          have := hcreates hacquirable
          rw [h.count_eq] at this
          exact this
    · -- the database looks at the texts first, the store in memory when it creates the lease
      have hacquirable := htexts.resolve_right hboth
      have hnot : ¬ (requiredText ownerId "owner_id" = .ok () ∧
          requiredText leaseId "lease_id" = .ok () ∧ decision ∈ written.decisions) :=
        fun hall => hboth ⟨hall.1, hall.2.1⟩
      obtain ⟨e', he'⟩ := h.acquireAttempt_raises hnot
      unfold InMemoryHarnessSideEffectStore.acquireAttempt
      rw [acquirableLease_of_acquirable hcommitted hacquirable, he']
      cases hadd : addLease now store.attemptLeaseMicros with
      | error e =>
        refine .raised e e' rfl rfl fun code hcode => ?_
        rw [addLease_eq_error hadd] at hcode
        cases hcode
      | ok expiresAt =>
        rw [ok_bind]
        rcases createLease_eq_plain digests decision now expiresAt (Nat.succ_pos _) hboth with
          ⟨message, hcreate⟩
        rw [hcreate]
        exact answers_plain message e'
  · have hrefused : store.acquireAttempt digests.toDigests decision ownerId leaseId now
        = (.error (.plain "handler attempt requires the exact durable authorization"), store) := by
      unfold InMemoryHarnessSideEffectStore.acquireAttempt
        InMemoryHarnessSideEffectStore.acquirableLease
      rw [h.assertCommitted, require_of_neg _ hmem]
      rfl
    have hnot : ¬ (requiredText ownerId "owner_id" = .ok () ∧ requiredText leaseId "lease_id" = .ok () ∧
        decision ∈ written.decisions) := fun hall => hmem hall.2.2
    obtain ⟨e', he'⟩ := h.acquireAttempt_raises hnot
    rw [hrefused, he']
    exact answers_plain _ e'

/-- What an attempt that no longer owns its fence is refused with. -/
def staleAttempt : SideEffectError :=
  .attemptError "stale_side_effect_attempt" "side-effect attempt no longer owns the current fence"

omit h in
theorem assertCurrentAttempt_eq_error {attempt : HarnessSideEffectAttemptLease Ref}
    {e : SideEffectError} (hstale : store.assertCurrentAttempt attempt = .error e) : e = staleAttempt := by
  unfold InMemoryHarnessSideEffectStore.assertCurrentAttempt at hstale
  split at hstale
  · split at hstale
    · cases hstale
    · exact (Except.error.inj hstale).symm
  · exact (Except.error.inj hstale).symm

/-- The attempt of a call is the latest one of its effect in both stores, or the database refuses it
and in memory it is refused or one that is superseded. -/
theorem Mirrored.assertCurrentAttempt_cases (attempt : HarnessSideEffectAttemptLease Ref) :
    (∃ current, store.assertCurrentAttempt attempt = .ok current ∧
      (ofWritten digests count written).assertCurrentAttempt digests attempt = .ok current ∧
      written.latest digests (attemptKey digests current) = some current) ∨
    (ofWritten digests count written).assertCurrentAttempt digests attempt = .error staleAttempt ∧
      (store.assertCurrentAttempt attempt = .error staleAttempt ∨
        ∃ current, store.assertCurrentAttempt attempt = .ok current ∧
          store.Superseded digests.toDigests current ∧ current ∈ written.attemptLeases ∧
          current.status = .terminated) := by
  cases hcurrent : store.assertCurrentAttempt attempt with
  | error e =>
    refine Or.inr ⟨h.assertCurrentAttempt_of_stale ?_, Or.inl ?_⟩
    · intro current hok
      rw [hcurrent] at hok
      cases hok
    · rw [assertCurrentAttempt_eq_error hcurrent]
  | ok current =>
    have hget := (assertCurrentAttempt_eq_ok.mp hcurrent).1
    have hmem := (h.get?_attempt.mp hget).1
    by_cases hlatest : written.latest digests (attemptKey digests current) = some current
    · refine Or.inl ⟨current, rfl, h.assertCurrentAttempt_of_current hcurrent ?_, hlatest⟩
      exact not_not.mpr ((h.get?_latest _).trans hlatest)
    · have hsuperseded : store.Superseded digests.toDigests current :=
        fun he => hlatest ((h.get?_latest _).symm.trans he)
      refine Or.inr ⟨h.assertCurrentAttempt_of_stale ?_, Or.inr ⟨current, rfl, hsuperseded, hmem,
        h.consistent.attempted.settled current hmem hlatest⟩⟩
      intro other hok
      rw [hcurrent] at hok
      rw [← ok_inj hok]
      exact hsuperseded

variable {current : HarnessSideEffectAttemptLease Ref}

/-- A later version of the latest attempt replaces it in both stores. -/
theorem Mirrored.replacesAttempt {next : HarnessSideEffectAttemptLease Ref}
    (hf : Follows current next)
    (hlatest : written.latest digests (attemptKey digests current) = some current)
    (href : next.outcomeRef = current.outcomeRef) (operation : String) :
    (ofWritten digests count written).updateAttempt digests operation next
        = .ok (ofWritten digests count (written.replaceAttempt next)) ∧
      ∃ after, store.replaceAttempt next = .ok after ∧
        Mirrored attemptLeaseMicros sqlite digests count (written.replaceAttempt next) after := by
  have hmem := (of_latest hlatest).1
  refine ⟨(updateAttempt_eq_ok h.consistent.attempted hf hmem).mpr
    ⟨h.fit.texts current hmem, rfl⟩, _, h.replaceAttempt_eq hf hlatest rfl, ?_⟩
  exact ⟨h.consistent.replaceAttempt hf hmem href,
    h.fit.replaceAttempt h.consistent.attempted hf hlatest,
    h.mirrors.writeAttempt h.consistent.attempted hf hlatest⟩

/-- `renew_attempt` answers alike. -/
theorem Mirrored.renewAttempt_answers (attempt : HarnessSideEffectAttemptLease Ref)
    (checkedAt : Datetime) (hexpiry : sqlite.leaseExpiry now = addLease now attemptLeaseMicros) :
    Answers attemptLeaseMicros sqlite digests store
      (leaving store (store.renewAttempt attempt checkedAt now))
      ((ofWritten digests count written).renewAttempt sqlite digests attempt checkedAt now) := by
  unfold InMemoryHarnessSideEffectStore.renewAttempt SQLiteHarnessSideEffectStore.renewAttempt
  rcases h.assertCurrentAttempt_cases attempt with ⟨current, hcurrent, hattempt, hlatest⟩ |
    ⟨hattempt, hcurrent | ⟨current, hcurrent, -, -, hterminated⟩⟩
  · rw [hcurrent, hattempt, ok_bind, ok_bind]
    refine answers_bind fun _ _ => ?_
    rw [hexpiry, h.mirrors.micros]
    refine answers_bind fun nextExpiry _ => ?_
    by_cases hlater : nextExpiry ≤ current.leaseExpiresAt
    · rw [if_pos hlater, if_pos hlater]
      exact h.commits _ current
    · rw [if_neg hlater, if_neg hlater]
      refine answers_bind fun next hrenewed => ?_
      have hf := HarnessSideEffectAttemptLease.follows_of_renewed hrenewed
      rcases h.replacesAttempt hf hlatest
        (HarnessSideEffectAttemptLease.outcomeRef_of_renewed hrenewed)
        "renew Harness side-effect attempt" with ⟨hupdate, after, hreplace, hmirrored⟩
      rw [hupdate, hreplace, ok_bind, ok_bind]
      exact hmirrored.commits _ next
  · rw [hcurrent, hattempt]
    exact answers_error _
  · -- a superseded attempt is terminated, so that its lease takes no result
    rw [hcurrent, hattempt, ok_bind, assertLeaseAcceptsResult, require_of_neg]
    · exact .raised _ _ rfl rfl fun code hcode => hcode
    · rw [hterminated]
      decide

variable {attempt : HarnessSideEffectAttemptLease Ref}

/-- `finish_attempt` answers alike. -/
theorem Mirrored.finishAttempt_answers {confirmed : Bool}
    (halike : Alike sqlite digests store (.fenced (.finishAttempt attempt confirmed now))) :
    Answers attemptLeaseMicros sqlite digests store
      (leaving store (store.finishAttempt attempt confirmed now))
      ((ofWritten digests count written).finishAttempt digests attempt confirmed now) := by
  unfold InMemoryHarnessSideEffectStore.finishAttempt SQLiteHarnessSideEffectStore.finishAttempt
  rcases h.assertCurrentAttempt_cases attempt with ⟨current, hcurrent, hattempt, hlatest⟩ |
    ⟨hattempt, hcurrent | ⟨current, hcurrent, hsuperseded, hmem, hterminated⟩⟩
  · rw [hcurrent, hattempt, ok_bind, ok_bind]
    by_cases hterminated : current.status = .terminated
    · rw [if_pos hterminated, if_pos hterminated]
      refine answers_require Iff.rfl fun _ => ?_
      exact h.commits _ current
    · rw [if_neg hterminated, if_neg hterminated]
      by_cases hkept : current.status = .indeterminate ∧ confirmed = false
      · rw [if_pos hkept, if_pos hkept]
        exact h.commits _ current
      · rw [if_neg hkept, if_neg hkept]
        unfold InMemoryHarnessSideEffectStore.resolveCurrentAttempt
          SQLiteHarnessSideEffectStore.resolveAttempt
        rw [bind_assoc]
        refine answers_bind fun next hresolved => ?_
        obtain ⟨hf, href⟩ := follows_of_resolved hterminated hresolved
        have hopen : current.outcomeRef = none := by
          by_contra hne
          exact hterminated (h.consistent.attempted.terminated_of_outcomeRef
            (of_latest hlatest).1 hne)
        rcases h.replacesAttempt hf hlatest (href.trans hopen.symm)
          "finish Harness side-effect attempt" with ⟨hupdate, after, hreplace, hmirrored⟩
        rw [hupdate, hreplace]
        exact hmirrored.commits _ next
  · rw [hcurrent, hattempt]
    exact answers_error _
  · -- a superseded attempt is not confirmed again
    have hunconfirmed : ¬ confirmed = true := by
      intro hconfirmed
      exact halike hconfirmed current hcurrent hsuperseded
    rw [hcurrent, hattempt, ok_bind, if_pos hterminated, require_of_neg _ hunconfirmed]
    exact answers_plain _ _

/-! ## Outcomes -/

variable {outcome : HarnessSideEffectOutcome Ref Metadata}

/-- An outcome that the database does not know has none of the keys of the others. -/
theorem Mirrored.freshKeys_of_existingOutcome
    (hexisting : (ofWritten digests count written).existingOutcome digests outcome = .ok none) :
    ∀ other ∈ written.outcomes, outcomeKey digests other ≠ outcomeKey digests outcome ∧
      other.idempotencyKey ≠ outcome.idempotencyKey := by
  have hfresh := freshOutcome_of_existingOutcome h.consistent hexisting
  intro other hother
  refine ⟨(hfresh other hother).2.2, ?_⟩
  rw [existingOutcome_ofWritten h.consistent] at hexisting
  obtain ⟨hall, -⟩ := check_inv hexisting
  intro he
  have hsame := of_require hall other hother (Or.inr (Or.inr (Or.inr he)))
  exact (hfresh other hother).2.1 (congrArg _ hsame)

/-- An outcome that is recorded is written in both stores. -/
theorem Mirrored.recordsOutcome
    (hlatest : written.latest digests (attemptKey digests current) = some current)
    (hopen : current.status ≠ .terminated) (hread : outcome.Readable)
    (hvalid : jsonValid sqlite (outcomeRow digests outcome)) (hfences : Fences current outcome)
    (hdecision : decision ∈ written.decisions) (hof : OutcomeOf digests outcome decision)
    (hexisting : store.existingOutcome digests.toDigests outcome = .ok none)
    (hexisting' : (ofWritten digests count written).existingOutcome digests outcome = .ok none)
    (hafter : current.acquiredAt ≤ now) (operation : String) :
    Answers attemptLeaseMicros sqlite digests store
      (store.commitOutcome digests.toDigests current outcome now)
      ((ofWritten digests count written).commitOutcome sqlite digests operation current outcome now) := by
  have hmem := (of_latest hlatest).1
  have hfresh := freshOutcome_of_existingOutcome h.consistent hexisting'
  have hfreshKeys := h.freshKeys_of_existingOutcome hexisting'
  -- the attempt resolves, as the reading of the clock is not before its acquisition
  rcases HarnessSideEffectAttemptLease.exists_resolved
    (h.consistent.attempted.readable current hmem).checked hopen hafter
    (digests.outcomeChecksum outcome) with ⟨next, hnext⟩
  obtain ⟨hf, href⟩ := follows_of_resolved hopen hnext
  have hnone : current.outcomeRef = none := by
    by_contra hne
    exact hopen (h.consistent.attempted.terminated_of_outcomeRef hmem hne)
  have hinsert : (ofWritten digests count written).insertOutcome sqlite digests operation outcome
      = .ok (ofWritten digests count (written.addOutcome outcome)) :=
    (insertOutcome_eq_ok h.consistent hdecision hof).mpr
      ⟨hvalid, hfresh, rfl⟩
  have hattempted : (written.addOutcome outcome).Attempted digests count :=
    h.consistent.attempted.congr rfl rfl
  have hupdate : (ofWritten digests count (written.addOutcome outcome)).updateAttempt digests operation
      next = .ok (ofWritten digests count ((written.addOutcome outcome).replaceAttempt next)) :=
    (updateAttempt_eq_ok hattempted hf hmem).mpr
      ⟨h.fit.texts current hmem, rfl⟩
  have hreplace := h.replaceAttempt_eq hf hlatest
    (show (store.writeOutcome digests.toDigests outcome).attemptLeasesByIdentity
      = store.attemptLeasesByIdentity from rfl)
  have hpersist : store.persistOutcome digests.toDigests outcome
      = (.ok outcome, store.writeOutcome digests.toDigests outcome) := by
    unfold persistOutcome
    rw [hexisting]
  unfold InMemoryHarnessSideEffectStore.commitOutcome SQLiteHarnessSideEffectStore.commitOutcome
  unfold InMemoryHarnessSideEffectStore.resolveCurrentAttempt
    SQLiteHarnessSideEffectStore.resolveAttempt
  rw [hpersist, hinsert, ok_bind]
  dsimp only
  rw [hnext, ok_bind, ok_bind, hupdate, hreplace]
  refine Mirrored.commits ⟨h.consistent.recordOutcome hread ⟨decision, hdecision, hof⟩ hfresh hf hmem
    hfences hnone href, ?_, ?_⟩ _ outcome
  · exact (h.fit.addOutcome hvalid).replaceAttempt hattempted hf hlatest
  · exact (h.mirrors.writeOutcome hfreshKeys).writeAttempt hattempted hf hlatest

omit h in
/-- The attempt that an outcome is recorded for in the database, and the outcome bound to it. -/
def boundInDatabase (digests : RecordDigests Ref) (database : SQLiteHarnessSideEffectStore Ref)
    (attempt : HarnessSideEffectAttemptLease Ref) (outcome : HarnessSideEffectOutcome Ref Metadata) :
    Except SideEffectError (HarnessSideEffectAttemptLease Ref × HarnessSideEffectOutcome Ref Metadata) := do
  let current ← database.assertCurrentAttempt digests attempt
  database.assertOutcomeAuthorized digests outcome
  let outcome ← bindOutcomeToAttempt outcome current
  return (current, outcome)

omit h in
/-- What is done with a bound outcome comes after all that binds it. -/
theorem bind_boundInDatabase {α : Type} {database : SQLiteHarnessSideEffectStore Ref}
    {attempt : HarnessSideEffectAttemptLease Ref}
    (f : HarnessSideEffectAttemptLease Ref × HarnessSideEffectOutcome Ref Metadata →
      Except SideEffectError α) : (boundInDatabase digests database attempt outcome >>= f) =
      (database.assertCurrentAttempt digests attempt >>= fun current =>
        database.assertOutcomeAuthorized digests outcome >>= fun _ =>
          bindOutcomeToAttempt outcome current >>= fun bound => f (current, bound)) := by
  unfold boundInDatabase
  cases database.assertCurrentAttempt digests attempt with
  | error e => rfl
  | ok current =>
    cases database.assertOutcomeAuthorized digests outcome with
    | error e => rfl
    | ok u =>
      rw [ok_bind, ok_bind, ok_bind, ok_bind]
      cases bindOutcomeToAttempt outcome current with
      | error e => rfl
      | ok bound => rfl

/-- What is known of an outcome that both stores bind to the latest attempt at its effect. -/
structure Bound (sqlite : SQLite) (digests : RecordDigests Ref) (count : Ref → ℕ)
    (written : Written Ref) (store : InMemoryHarnessSideEffectStore Ref Metadata)
    (current : HarnessSideEffectAttemptLease Ref) (bound : HarnessSideEffectOutcome Ref Metadata)
    (now : Datetime) (accepts : HarnessSideEffectAttemptLease Ref → Prop) : Prop where
  latest : written.latest digests (attemptKey digests current) = some current
  fences : Fences current bound
  authorized : ∃ decision ∈ written.decisions, OutcomeOf digests bound decision
  existing : store.existingOutcome digests.toDigests bound =
    (ofWritten digests count written).existingOutcome digests bound
  storable : store.existingOutcome digests.toDigests bound = .ok none → accepts current →
    bound.Readable ∧ jsonValid sqlite (outcomeRow digests bound) ∧
      current.acquiredAt ≤ now

omit h in
theorem get?_of_existingOutcome
    (hexisting : store.existingOutcome digests.toDigests outcome = .ok none) :
    store.outcomesByIdentity.get? (outcomeKey digests outcome) = none := by
  cases hget : store.outcomesByIdentity.get? (outcomeKey digests outcome) with
  | none => rfl
  | some stored =>
    rw [existingOutcome_of_some hget] at hexisting
    split at hexisting <;> cases hexisting

variable {bound : HarnessSideEffectOutcome Ref Metadata}
variable {accepts : HarnessSideEffectAttemptLease Ref → Prop}

/-- A bound outcome that may be recorded is known to both stores alike. -/
theorem Mirrored.existingOutcome_bound
    (hrecordable : Recordable sqlite digests store attempt outcome now accepts)
    (hcurrent : store.assertCurrentAttempt attempt = .ok current)
    (hauthorized : store.assertAuthorized digests.toDigests outcome = .ok ())
    (hbind : bindOutcomeToAttempt outcome current = .ok bound)
    (hdecision : decision ∈ written.decisions) (hof : OutcomeOf digests bound decision) :
    store.existingOutcome digests.toDigests bound =
      (ofWritten digests count written).existingOutcome digests bound := by
  refine h.existingOutcome hdecision hof fun hnone => ?_
  have hkey : outcomeKey digests bound = outcomeKey digests outcome := by
    rw [(of_bindOutcomeToAttempt hbind).2]
    rfl
  rw [hkey] at hnone
  exact ((hrecordable current hcurrent hauthorized).2 hnone bound hbind).1

/-- An outcome that is not authorized is refused without a code. -/
theorem Mirrored.raises_assertOutcomeAuthorized : Raises (fun e => e.code = none)
    ((ofWritten digests count written).assertOutcomeAuthorized digests outcome) := by
  unfold assertOutcomeAuthorized
  rw [decisionOf_ofWritten h.consistent]
  exact raises_bind.mpr ⟨raises_orRaise.mpr fun _ => rfl, fun _ _ => raises_require.mpr fun _ => rfl⟩

omit h in
/-- An outcome of the effect of an attempt is refused for its fence alone. -/
theorem raises_bindOutcomeToAttempt {current : HarnessSideEffectAttemptLease Ref}
    (hident : outcome.toEffectIdentity = current.toEffectIdentity ∧
      outcome.decisionRef = current.decisionRef ∧ outcome.idempotencyKey = current.idempotencyKey) :
    Raises (fun e => e.code = staleAttempt.code) (bindOutcomeToAttempt outcome current) := by
  unfold bindOutcomeToAttempt
  rw [check_of_pos hident]
  split
  · exact raises_pure _
  · exact raises_bind.mpr ⟨raises_require.mpr fun _ => rfl, fun _ _ => raises_pure _⟩

/-- No outcome is recorded for a superseded attempt. -/
theorem Mirrored.notMem_of_superseded (hsuperseded : store.Superseded digests.toDigests current)
    (hmem : current ∈ written.attemptLeases) (hfences : Fences current outcome) :
    outcome ∉ written.outcomes := by
  intro houtcome
  have hfenced : outcome.attemptId ≠ none := by
    rw [hfences.2.2.1]
    exact Option.some_ne_none _
  obtain ⟨attempt, hattempt, href⟩ := h.consistent.linked.attempt outcome houtcome hfenced
  obtain ⟨other, hother, hchecksum, hfences'⟩ := h.consistent.linked.outcome attempt hattempt _ href
  rw [h.consistent.recorded.eq_of_ref hother houtcome hchecksum] at hfences'
  -- the attempt of the outcome is the superseded one, but it is the last one at its effect
  have hsame : attempt = current := h.consistent.attempted.eq_of_id hattempt hmem
    (Option.some.inj (hfences'.2.2.1.symm.trans hfences.2.2.1))
  have hlast := h.fit.last attempt hattempt (by rw [href]; exact Option.some_ne_none _)
  rw [hsame] at hlast
  exact hsuperseded ((h.get?_latest _).trans hlast)

/-- Both stores bind an outcome to the latest attempt, or both refuse it, or the database refuses it
and the store in memory binds it to a superseded attempt, where nothing can be recorded. -/
theorem Mirrored.boundOutcome_cases (haccepted : outcome.postInit = .ok outcome)
    (hrecordable : Recordable sqlite digests store attempt outcome now accepts) :
    (∃ e e', store.boundOutcome digests.toDigests attempt outcome = .error e ∧
      boundInDatabase digests (ofWritten digests count written) attempt outcome = .error e' ∧
      ∀ code, e.code = some code → e'.code = some code) ∨
    (∃ current bound, store.boundOutcome digests.toDigests attempt outcome = .ok (current, bound) ∧
      boundInDatabase digests (ofWritten digests count written) attempt outcome
        = .ok (current, bound) ∧ Bound sqlite digests count written store current bound now accepts) ∨
    (∃ current bound, store.boundOutcome digests.toDigests attempt outcome = .ok (current, bound) ∧
      boundInDatabase digests (ofWritten digests count written) attempt outcome
        = .error staleAttempt ∧ current.status = .terminated ∧
      (store.existingOutcome digests.toDigests bound = .ok none ∨
        ∃ message, store.existingOutcome digests.toDigests bound = .error (.plain message))) := by
  have hsame := h.assertAuthorized outcome
  unfold boundOutcome boundInDatabase
  rw [hsame]
  rcases h.assertCurrentAttempt_cases attempt with ⟨current, hcurrent, hattempt, hlatest⟩ |
    ⟨hattempt, hcurrent | ⟨current, hcurrent, hsuperseded, hmem, hterminated⟩⟩
  · rw [hcurrent, hattempt, ok_bind]
    cases hauthorized : (ofWritten digests count written).assertOutcomeAuthorized digests outcome with
    | error e => exact Or.inl ⟨e, e, rfl, rfl, fun _ he => he⟩
    | ok u =>
      rw [ok_bind]
      cases hbind : bindOutcomeToAttempt outcome current with
      | error e => exact Or.inl ⟨e, e, rfl, rfl, fun _ he => he⟩
      | ok bound =>
        rcases (assertOutcomeAuthorized_eq_ok h.consistent).mp hauthorized
          with ⟨decision, hdecision, hof⟩
        have hfences := fences_of_bindOutcomeToAttempt hbind
        have hof' := hof.of_bindOutcomeToAttempt hbind
        have hchecked := (h.consistent.attempted.readable current (of_latest hlatest).1).checked
        refine Or.inr (Or.inl ⟨current, bound, rfl, rfl, hlatest, hfences,
          ⟨decision, hdecision, hof'⟩,
          h.existingOutcome_bound hrecordable hcurrent (hsame.trans hauthorized) hbind hdecision hof', ?_⟩)
        intro hexisting haccepts
        have hnone := get?_of_existingOutcome hexisting
        obtain ⟨-, hbound⟩ := of_bindOutcomeToAttempt hbind
        rw [hbound] at hnone
        rcases ((hrecordable current hcurrent (hsame.trans hauthorized)).2 hnone bound hbind).2 haccepts
          with ⟨⟨hstep, hforeign, hvalid⟩, hafter⟩
        refine ⟨readable_of_bindOutcomeToAttempt ⟨haccepted, hstep, hforeign⟩
          (hchecked.attempt_eq ▸ hchecked.positive) hbind, ?_, hafter⟩
        rw [hbound]
        exact hvalid
  -- no store knows the attempt
  · refine Or.inl ⟨staleAttempt, staleAttempt, ?_, ?_, fun _ he => he⟩
    · rw [hcurrent]
      rfl
    · rw [hattempt]
      rfl
  -- memory still finds a superseded attempt by its id, SQLite refuses it at once
  · rw [hcurrent, hattempt, ok_bind]
    cases hauthorized : (ofWritten digests count written).assertOutcomeAuthorized digests outcome with
    | error e =>
      refine Or.inl ⟨e, staleAttempt, rfl, rfl, fun code hcode => ?_⟩
      rw [h.raises_assertOutcomeAuthorized e hauthorized] at hcode
      cases hcode
    | ok u =>
      rw [ok_bind]
      rcases (assertOutcomeAuthorized_eq_ok h.consistent).mp hauthorized
        with ⟨decision, hdecision, hof⟩
      cases hbind : bindOutcomeToAttempt outcome current with
      | error e =>
        have hident := (hrecordable current hcurrent (hsame.trans hauthorized)).1 hsuperseded
        exact Or.inl ⟨e, staleAttempt, rfl, rfl, fun code hcode =>
          (raises_bindOutcomeToAttempt hident e hbind).symm.trans hcode⟩
      | ok bound =>
        refine Or.inr (Or.inr ⟨current, bound, rfl, rfl, hterminated, ?_⟩)
        rw [h.existingOutcome_bound hrecordable hcurrent (hsame.trans hauthorized) hbind hdecision
            (hof.of_bindOutcomeToAttempt hbind), existingOutcome_ofWritten h.consistent,
          if_neg (h.notMem_of_superseded hsuperseded hmem (fences_of_bindOutcomeToAttempt hbind))]
        by_cases hall : ∀ candidate ∈ written.outcomes,
            (digests.outcomeChecksum candidate = digests.outcomeChecksum bound ∨
              candidate.outcomeId = bound.outcomeId ∨
              outcomeKey digests candidate = outcomeKey digests bound ∨
              candidate.idempotencyKey = bound.idempotencyKey) → candidate = bound
        · rw [require_of_pos _ hall]
          exact Or.inl rfl
        · rw [require_of_neg _ hall]
          exact Or.inr ⟨_, rfl⟩

/-- A bound outcome that is new is recorded by both stores. -/
theorem Mirrored.recordsBound
    (hbound : Bound sqlite digests count written store current bound now accepts)
    (haccepts : accepts current) (hnew : store.existingOutcome digests.toDigests bound = .ok none)
    (hopen : current.status ≠ .terminated) (operation : String) :
    Answers attemptLeaseMicros sqlite digests store
      (store.commitOutcome digests.toDigests current bound now)
      ((ofWritten digests count written).commitOutcome sqlite digests operation current bound now) := by
  obtain ⟨hread, hvalid, hafter⟩ := hbound.storable hnew haccepts
  obtain ⟨decision, hdecision, hof⟩ := hbound.authorized
  exact h.recordsOutcome hbound.latest hopen hread hvalid hbound.fences hdecision hof hnew
    (hbound.existing ▸ hnew) hafter operation

omit h in
theorem completeAttempt_eq {database : SQLiteHarnessSideEffectStore Ref}
    {attempt : HarnessSideEffectAttemptLease Ref} {checkedAt now : Datetime} :
    database.completeAttempt sqlite digests attempt outcome checkedAt now =
      (boundInDatabase digests database attempt outcome >>= fun p =>
        database.existingOutcome digests p.2 >>= fun existing =>
          match existing with
          | some existing => commit "complete Harness side-effect attempt" (existing, database)
          | none => assertLeaseAcceptsResult p.1 checkedAt >>= fun _ =>
            database.commitOutcome sqlite digests "complete Harness side-effect attempt" p.1 p.2 now) := by
  rw [bind_boundInDatabase]
  rfl

/-- `complete_attempt` answers alike. -/
theorem Mirrored.completeAttempt_answers {checkedAt : Datetime}
    (haccepted : outcome.postInit = .ok outcome)
    (hrecordable : Recordable sqlite digests store attempt outcome now fun current =>
      current.status = .active ∧ checkedAt < current.leaseExpiresAt) :
    Answers attemptLeaseMicros sqlite digests store
      (store.completeAttempt digests.toDigests attempt outcome checkedAt now)
      ((ofWritten digests count written).completeAttempt sqlite digests attempt outcome checkedAt now) := by
  unfold InMemoryHarnessSideEffectStore.completeAttempt
  rw [completeAttempt_eq]
  rcases h.boundOutcome_cases haccepted hrecordable with ⟨e, e', hmemory, hdatabase, hcode⟩ |
    ⟨current, bound, hmemory, hdatabase, hbound⟩ |
    ⟨current, bound, hmemory, hdatabase, hterminated, hexisting⟩
  · rw [hmemory, hdatabase]
    exact .raised e e' rfl rfl hcode
  · rw [hmemory, hdatabase, ok_bind]
    dsimp only
    rw [← hbound.existing]
    cases hexisting : store.existingOutcome digests.toDigests bound with
    | error e => exact answers_error e
    | ok existing =>
      cases existing with
      | some existing => exact h.commits _ existing
      | none =>
        rw [ok_bind]
        cases haccepts : assertLeaseAcceptsResult current checkedAt with
        | error e => exact answers_error e
        | ok u =>
          obtain ⟨hactive, hbefore⟩ := check_inv haccepts
          refine h.recordsBound hbound ⟨of_require hactive, of_require hbefore⟩ hexisting
            ?_ _
          rw [of_require hactive]
          decide
  · -- the lease of a superseded attempt takes no result
    rw [hmemory, hdatabase]
    dsimp only
    rcases hexisting with hnone | ⟨message, hplain⟩
    · rw [hnone, assertLeaseAcceptsResult, require_of_neg]
      · exact .raised _ _ rfl rfl fun code hcode => hcode
      · rw [hterminated]
        decide
    · rw [hplain]
      exact answers_plain message _

omit h in
theorem reconcileAttempt_eq {database : SQLiteHarnessSideEffectStore Ref}
    {attempt : HarnessSideEffectAttemptLease Ref} {now : Datetime} :
    database.reconcileAttempt sqlite digests attempt outcome now =
      (boundInDatabase digests database attempt outcome >>= fun p =>
        database.existingOutcome digests p.2 >>= fun existing =>
          match existing with
          | some existing => commit "reconcile Harness side-effect attempt" (existing, database)
          | none => require (p.1.status ≠ .terminated)
              (.attemptError "stale_side_effect_attempt"
                "terminated side-effect attempt has no reconciled outcome") >>= fun _ =>
            database.commitOutcome sqlite digests "reconcile Harness side-effect attempt" p.1 p.2 now) := by
  rw [bind_boundInDatabase]
  rfl

/-- `reconcile_attempt` answers alike. -/
theorem Mirrored.reconcileAttempt_answers (haccepted : outcome.postInit = .ok outcome)
    (hrecordable : Recordable sqlite digests store attempt outcome now fun current =>
      current.status ≠ .terminated) : Answers attemptLeaseMicros sqlite digests store
      (store.reconcileAttempt digests.toDigests attempt outcome now)
      ((ofWritten digests count written).reconcileAttempt sqlite digests attempt outcome now) := by
  unfold InMemoryHarnessSideEffectStore.reconcileAttempt
  rw [reconcileAttempt_eq]
  rcases h.boundOutcome_cases haccepted hrecordable with ⟨e, e', hmemory, hdatabase, hcode⟩ |
    ⟨current, bound, hmemory, hdatabase, hbound⟩ |
    ⟨current, bound, hmemory, hdatabase, hterminated, hexisting⟩
  · rw [hmemory, hdatabase]
    exact .raised e e' rfl rfl hcode
  · rw [hmemory, hdatabase, ok_bind]
    dsimp only
    rw [← hbound.existing]
    cases hexisting : store.existingOutcome digests.toDigests bound with
    | error e => exact answers_error e
    | ok existing =>
      cases existing with
      | some existing => exact h.commits _ existing
      | none =>
        rw [ok_bind]
        by_cases hopen : current.status = .terminated
        · rw [if_pos hopen, require_of_neg _ (not_not.mpr hopen)]
          exact answers_error _
        · rw [if_neg hopen, require_of_pos _ hopen]
          exact h.recordsBound hbound hopen hexisting hopen _
  · rw [hmemory, hdatabase]
    dsimp only
    rcases hexisting with hnone | ⟨message, hplain⟩
    · rw [hnone]
      rw [if_pos hterminated]
      exact .raised _ _ rfl rfl fun code hcode => hcode
    · rw [hplain]
      exact answers_plain message _

/-- An effect has a lease in memory where it has one in the database. -/
theorem Mirrored.any_lease_iff : (store.attemptLeasesByIdentity.values.any fun lease =>
      decide (digests.identityKey lease.toEffectIdentity = key)) = true ↔
      (ofWritten digests count written).IsFenced key := by
  rw [any_eq_true, isFenced_ofWritten]
  constructor
  · rintro ⟨lease, hlease, he⟩
    exact ⟨lease, h.lease_of_mem_values hlease |>.1, of_decide_eq_true he⟩
  · intro hfenced
    have hne := h.isFenced_iff.mp (isFenced_ofWritten.mpr hfenced)
    cases hget : store.attemptLeasesByIdentity.get? key with
    | none => exact absurd hget hne
    | some lease =>
      rw [h.get?_latest] at hget
      refine ⟨lease, mem_values_of_get? ((h.get?_latest key).trans hget),
        decide_eq_true (of_latest hget).2⟩

/-- `put_outcome` answers alike. -/
theorem Mirrored.putOutcome_answers (haccepted : outcome.postInit = .ok outcome)
    (halike : Alike sqlite digests store (.putOutcome outcome)) :
    Answers attemptLeaseMicros sqlite digests store (store.putOutcome digests.toDigests outcome)
      ((ofWritten digests count written).putOutcome sqlite digests outcome) := by
  unfold InMemoryHarnessSideEffectStore.putOutcome SQLiteHarnessSideEffectStore.putOutcome
  have hcondition : ((store.attemptLeasesByIdentity.values.any fun lease =>
      decide (digests.identityKey lease.toEffectIdentity = digests.identityKey outcome.toEffectIdentity))
        = true ∨ outcome.attemptId ≠ none) ↔
      ((ofWritten digests count written).IsFenced (digests.identityKey outcome.toEffectIdentity) ∨
        outcome.attemptId ≠ none) := or_congr_left h.any_lease_iff
  -- a fenced effect takes no outcome without its attempt
  by_cases hfenced : (ofWritten digests count written).IsFenced
      (digests.identityKey outcome.toEffectIdentity) ∨ outcome.attemptId ≠ none
  · rw [require_of_neg _ (not_not.mpr hfenced)]
    rw [if_pos (hcondition.mpr hfenced)]
    exact answers_error _
  · rw [check_of_pos hfenced]
    have hsame := h.assertAuthorized outcome
    have hunfenced : outcome.attemptId = none := by
      by_contra hne
      exact hfenced (Or.inr hne)
    have hfree : store.attemptLeasesByIdentity.get? (digests.identityKey outcome.toEffectIdentity)
        = none := by
      by_contra hne
      exact hfenced (Or.inl (h.isFenced_iff.mpr hne))
    rw [if_neg (hcondition.not.mpr hfenced), hsame]
    cases hauthorized : (ofWritten digests count written).assertOutcomeAuthorized digests outcome with
    | error e => exact answers_error e
    | ok u =>
      rw [ok_bind]
      have hnew := halike hfree hunfenced (hsame.trans hauthorized)
      rcases (assertOutcomeAuthorized_eq_ok h.consistent).mp hauthorized
        with ⟨decision, hdecision, hof⟩
      have hexisting := h.existingOutcome hdecision hof fun hnone => (hnew hnone).2
      unfold persistOutcome
      rw [← hexisting]
      cases hknown : store.existingOutcome digests.toDigests outcome with
      | error e => exact answers_error e
      | ok existing =>
        cases existing with
        | some existing => exact h.commits _ existing
        | none =>
          obtain ⟨⟨hstep, hforeign, hvalid⟩, -⟩ := hnew (get?_of_existingOutcome hknown)
          rw [hknown] at hexisting
          have hfresh := freshOutcome_of_existingOutcome h.consistent
            hexisting.symm
          have hinsert : (ofWritten digests count written).insertOutcome sqlite digests
              "persist Harness side-effect outcome" outcome
              = .ok (ofWritten digests count (written.addOutcome outcome)) :=
            (insertOutcome_eq_ok h.consistent hdecision hof).mpr
              ⟨hvalid, hfresh, rfl⟩
          rw [ok_bind]
          rw [hinsert, ok_bind]
          exact Mirrored.commits ⟨h.consistent.addOutcome ⟨haccepted, hstep, hforeign⟩
            ⟨decision, hdecision, hof⟩ hfresh hunfenced, h.fit.addOutcome hvalid,
            h.mirrors.writeOutcome (h.freshKeys_of_existingOutcome hexisting.symm)⟩ _ outcome

/-! ## Dispositions -/

omit h in
/-- The outcome of an effect id and two scopes. -/
theorem resolveOutcome_eq (effectId : String) (identityScopeRef subjectScopeRef : Ref) :
    resolveEffectRecord HarnessSideEffectOutcome.toEffectIdentity
        store.outcomesByIdentity effectId identityScopeRef subjectScopeRef =
      match store.outcomesInScope effectId identityScopeRef subjectScopeRef with
      | [] =>
        if store.outcomesOfEffect effectId = [] then .ok none
        else .error (.plain "side-effect scope mismatch")
      | [outcome] => .ok (some outcome)
      | _ :: _ :: _ => .error (.attemptError "side_effect_identity_ambiguous"
          "side-effect identity is ambiguous") := by
  unfold resolveEffectRecord
    outcomesInScope outcomesOfEffect
  dsimp only
  split <;> rename_i hmatching <;> rw [hmatching]

omit h in
/-- The lease of an effect id and two scopes. -/
theorem resolveLease_eq (effectId : String) (identityScopeRef subjectScopeRef : Ref) :
    resolveEffectRecord toEffectIdentity
        store.attemptLeasesByIdentity effectId identityScopeRef subjectScopeRef =
      match store.leasesOf effectId identityScopeRef subjectScopeRef with
      | [] =>
        if store.attemptsOfEffect effectId = [] then .ok none
        else .error (.plain "side-effect scope mismatch")
      | [attempt] => .ok (some attempt)
      | _ :: _ :: _ => .error (.attemptError "side_effect_identity_ambiguous"
          "side-effect identity is ambiguous") := by
  unfold resolveEffectRecord
    leasesOf attemptsOfEffect
  dsimp only
  split <;> rename_i hmatching <;> rw [hmatching]

theorem Mirrored.outcomeRowsOf (effectId : String) :
    (ofWritten digests count written).outcomeRowsOf effectId =
      (store.outcomesOfEffect effectId).map (outcomeRow digests) := by
  unfold SQLiteHarnessSideEffectStore.outcomeRowsOf outcomesOfEffect
  rw [h.mirrors.outcomesByIdentity, values_index]
  show (written.outcomes.map (outcomeRow digests)).filter _ = _
  rw [filter_map]
  rfl

/-- The rows of an effect id and two scopes are those of its outcomes. -/
theorem Mirrored.outcomeRowsInScope (effectId : String) (identityScopeRef subjectScopeRef : Ref) :
    ((ofWritten digests count written).outcomeRowsOf effectId).filter (fun row =>
        row.identityScopeRef = identityScopeRef ∧ row.subjectScopeRef = subjectScopeRef) =
      (store.outcomesInScope effectId identityScopeRef subjectScopeRef).map (outcomeRow digests) := by
  rw [h.outcomeRowsOf, filter_map]
  rfl

variable {effectId : String} {identityScopeRef subjectScopeRef : Ref}

theorem Mirrored.mem_outcomesInScope :
    outcome ∈ store.outcomesInScope effectId identityScopeRef subjectScopeRef ↔
      outcome ∈ written.outcomes ∧ outcome.effectId = effectId ∧
        outcome.identityScopeRef = identityScopeRef ∧ outcome.subjectScopeRef = subjectScopeRef := by
  unfold outcomesInScope outcomesOfEffect
  rw [mem_filter, mem_filter, h.mirrors.outcomesByIdentity, values_index,
    decide_eq_true_eq, decide_eq_true_eq, and_assoc]

/-- The outcome of a row is authorized. -/
theorem Mirrored.authorizedOutcome (hmem : outcome ∈ written.outcomes) :
    (ofWritten digests count written).authorizedOutcome digests (outcomeRow digests outcome)
      = .ok outcome := by
  obtain ⟨decision, hdecision, hof⟩ := h.consistent.recorded.authorized outcome hmem
  unfold SQLiteHarnessSideEffectStore.authorizedOutcome
  rw [outcomeFromRow_outcomeRow (h.consistent.recorded.readable outcome hmem), ok_bind,
    decisionOf_ofWritten h.consistent, (find?_decision h.consistent).mpr ⟨hdecision, hof.1.symm⟩,
    orRaise_some, ok_bind]
  have hmatches : assertOutcomeMatchesDecision digests.toDigests outcome decision = .ok () :=
    (assertOutcomeMatchesDecision_eq_ok digests).mpr hof
  unfold assertStoredOutcomeMatchesDecision
  rw [hmatches]
  rfl

/-- An attempt that refers to an outcome is found under the scopes of the outcome. -/
theorem Mirrored.mem_leasesOf (hattempt : attempt ∈ written.attemptLeases)
    (houtcome : outcome ∈ written.outcomes)
    (href : attempt.outcomeRef = some (digests.outcomeChecksum outcome)) :
    attempt ∈ store.leasesOf outcome.effectId outcome.identityScopeRef outcome.subjectScopeRef ∧
      Fences attempt outcome := by
  obtain ⟨other, hother, hchecksum, hfences⟩ := h.consistent.linked.outcome attempt hattempt _ href
  rw [h.consistent.recorded.eq_of_ref hother houtcome hchecksum] at hfences
  have hlast := h.fit.last attempt hattempt (by rw [href]; exact Option.some_ne_none _)
  refine ⟨?_, hfences⟩
  unfold leasesOf
  rw [mem_filter, mem_filter, hfences.1]
  exact ⟨⟨mem_values_of_get? ((h.get?_latest _).trans hlast), decide_eq_true rfl⟩,
    decide_eq_true ⟨rfl, rfl⟩⟩

/-- Another revision of an outcome is written in both stores, and the lease that refers to the
outcome gets the reference of the revision. -/
theorem Mirrored.redisposes (hmem : outcome ∈ written.outcomes)
    {next : HarnessSideEffectDisposition} (hnext : next ≠ .accepted)
    (hlength : (store.leasesOf outcome.effectId outcome.identityScopeRef
      outcome.subjectScopeRef).length ≤ 1)
    (hnone : store.leasesOf outcome.effectId outcome.identityScopeRef outcome.subjectScopeRef = [] →
      store.attemptsOfEffect outcome.effectId = [])
    (hfresh : ∀ other ∈ written.outcomes, other ≠ outcome →
      digests.outcomeChecksum other ≠ digests.outcomeChecksum (outcome.redisposed next))
    (operation : String) : ∃ after written',
      (store.writeDisposition digests.toDigests outcome (outcome.redisposed next)).relinkAttempt
        digests.toDigests outcome.effectId outcome.identityScopeRef outcome.subjectScopeRef outcome
        (outcome.redisposed next) = .ok after ∧
      ((ofWritten digests count written).updateOutcome sqlite digests operation outcome
        (outcome.redisposed next) >>= fun database => database.relinkAttempt digests operation outcome
          (outcome.redisposed next)) = .ok (ofWritten digests count written') ∧
      Mirrored attemptLeaseMicros sqlite digests count written' after := by
  set updated := outcome.redisposed next with hupdated
  have hr : Written.Revises outcome updated := revises_redisposed outcome next
  have hread : updated.Readable := (h.consistent.recorded.readable outcome hmem).redisposed hnext
  have hvalid : jsonValid sqlite (outcomeRow digests updated) :=
    h.fit.valid outcome hmem
  have hupdate : (ofWritten digests count written).updateOutcome sqlite digests operation outcome updated
      = .ok (ofWritten digests count (written.replaceOutcome digests updated)) :=
    (updateOutcome_eq_ok h.consistent hr hmem).mpr ⟨hvalid, hfresh, rfl⟩
  have hrevised := h.writeDisposition hr hmem
  have hfit := h.fit.replaceOutcome hvalid
  -- what refers to the outcome is the lease of its effect
  have hreferring : ∀ attempt ∈ written.attemptLeases,
      attempt.outcomeRef = some (digests.outcomeChecksum outcome) →
        store.leasesOf outcome.effectId outcome.identityScopeRef outcome.subjectScopeRef = [attempt] := by
    intro attempt hattempt href
    have hlease := (h.mem_leasesOf hattempt hmem href).1
    obtain ⟨first, rest, hlist⟩ := exists_cons_of_ne_nil (ne_nil_of_mem hlease)
    rw [hlist] at hlength hlease ⊢
    have hrest : rest = [] := eq_nil_of_length_eq_zero (by simpa using hlength)
    rw [hrest, mem_singleton] at hlease
    rw [hrest, hlease]
  have hfind : ∀ attempt ∈ written.attemptLeases,
      attempt.outcomeRef = some (digests.outcomeChecksum outcome) →
        (written.attemptLeases.map (attemptRow digests)).find? (fun row =>
          decide (row.outcomeRef = some (digests.outcomeChecksum outcome)))
          = some (attemptRow digests attempt) := by
    intro attempt hattempt href
    refine KeyedList.find?_of_unique (mem_map_of_mem hattempt) (decide_eq_true href) fun row hrow hp => ?_
    obtain ⟨other, hother, rfl⟩ := mem_map.mp hrow
    have hsame := (hreferring other hother (of_decide_eq_true hp)).symm.trans
      (hreferring attempt hattempt href)
    rw [(List.cons.inj hsame).1]
  rw [hupdate, ok_bind]
  unfold InMemoryHarnessSideEffectStore.relinkAttempt SQLiteHarnessSideEffectStore.relinkAttempt
  have hresolve : resolveEffectRecord
      toEffectIdentity
      (store.writeDisposition digests.toDigests outcome updated).attemptLeasesByIdentity outcome.effectId
      outcome.identityScopeRef outcome.subjectScopeRef =
    resolveEffectRecord toEffectIdentity
      store.attemptLeasesByIdentity outcome.effectId outcome.identityScopeRef
      outcome.subjectScopeRef := rfl
  rw [hresolve, resolveLease_eq]
  by_cases hlinked : ∃ attempt ∈ written.attemptLeases,
      attempt.outcomeRef = some (digests.outcomeChecksum outcome)
  · obtain ⟨attempt, hattempt, href⟩ := hlinked
    have hrow : (ofWritten digests count (written.replaceOutcome digests updated)).tables.attemptLeases.find?
        (fun row => decide (row.outcomeRef = some (digests.outcomeChecksum outcome)))
        = some (attemptRow digests attempt) := hfind attempt hattempt href
    have hlatest := h.fit.last attempt hattempt (by rw [href]; exact Option.some_ne_none _)
    have hterminated := h.consistent.attempted.terminated_of_outcomeRef hattempt
      (by rw [href]; exact Option.some_ne_none _)
    have hchecked := (h.consistent.attempted.readable attempt hattempt)
    rcases HarnessSideEffectAttemptLease.relinkedOutcome_eq hchecked.checked hterminated
      (digests.outcomeChecksum updated) with ⟨relinked, hrelinked, -⟩
    obtain ⟨hf, hnextRef⟩ := follows_of_relinkedOutcome hrelinked
    have hattempted : (written.replaceOutcome digests updated).Attempted digests count :=
      h.consistent.attempted.congr rfl rfl
    have hwrite : (ofWritten digests count (written.replaceOutcome digests updated)).updateAttempt digests
        operation relinked = .ok (ofWritten digests count
          ((written.replaceOutcome digests updated).replaceAttempt relinked)) :=
      (updateAttempt_eq_ok hattempted hf hattempt).mpr
        ⟨h.fit.texts attempt hattempt, rfl⟩
    have hreplace := h.replaceAttempt_eq hf hlatest
      (show (store.writeDisposition digests.toDigests outcome updated).attemptLeasesByIdentity
        = store.attemptLeasesByIdentity from rfl)
    refine ⟨_, (written.replaceOutcome digests updated).replaceAttempt relinked, ?_, ?_,
      h.consistent.relinkOutcome hr hmem hread hfresh hf hattempt href hnextRef,
      hfit.replaceAttempt hattempted hf hlatest, hrevised.writeAttempt hattempted hf hlatest⟩
    · rw [hreferring attempt hattempt href]
      rw [ok_bind]
      dsimp only
      rw [if_pos href, hrelinked, ok_bind, hreplace]
    · rw [hrow]
      dsimp only
      rw [attemptFromRow_attemptRow hchecked, ok_bind, hrelinked, ok_bind, hwrite]
  · have hfree : ∀ attempt ∈ written.attemptLeases,
        attempt.outcomeRef ≠ some (digests.outcomeChecksum outcome) :=
      fun attempt hattempt href => hlinked ⟨attempt, hattempt, href⟩
    have hrow : (ofWritten digests count (written.replaceOutcome digests updated)).tables.attemptLeases.find?
        (fun row => decide (row.outcomeRef = some (digests.outcomeChecksum outcome))) = none := by
      rw [find?_eq_none]
      intro row hrow href
      obtain ⟨attempt, hattempt, rfl⟩ := mem_map.mp hrow
      exact hfree attempt hattempt (of_decide_eq_true href)
    refine ⟨store.writeDisposition digests.toDigests outcome updated,
      written.replaceOutcome digests updated, ?_, ?_,
      h.consistent.replaceOutcome hr hmem hread hfresh hfree, hfit, hrevised⟩
    · cases hleases : store.leasesOf outcome.effectId outcome.identityScopeRef
          outcome.subjectScopeRef with
      | nil =>
        rw [if_pos (hnone hleases)]
        rfl
      | cons attempt rest =>
        have hrest : rest = [] := by
          rw [hleases] at hlength
          exact eq_nil_of_length_eq_zero (by simpa using hlength)
        subst hrest
        have hattempt : attempt ∈ store.leasesOf outcome.effectId outcome.identityScopeRef
            outcome.subjectScopeRef := by
          rw [hleases]
          exact mem_cons_self
        have hvalues := (mem_filter.mp (mem_filter.mp hattempt).1).1
        rw [ok_bind]
        dsimp only
        rw [if_neg (hfree attempt (h.lease_of_mem_values hvalues).1)]
        rfl
    · rw [hrow]
      rfl

/-- `set_disposition` answers alike. -/
theorem Mirrored.setDisposition_answers {disposition : String}
    (hchangeable : Changeable digests store effectId disposition identityScopeRef subjectScopeRef) :
    Answers attemptLeaseMicros sqlite digests store
      (store.setDisposition digests.toDigests effectId disposition identityScopeRef subjectScopeRef)
      ((ofWritten digests count written).setDisposition sqlite digests effectId disposition
        identityScopeRef subjectScopeRef) := by
  obtain ⟨hinvalid, hchange⟩ := hchangeable
  unfold InMemoryHarnessSideEffectStore.setDisposition InMemoryHarnessSideEffectStore.redisposable
    SQLiteHarnessSideEffectStore.setDisposition
  rw [resolveOutcome_eq, h.outcomeRowsInScope, h.outcomeRowsOf]
  cases hnext : HarnessSideEffectDisposition.ofValue? disposition with
  | none =>
  -- the text names no disposition: SQLite raises first, memory after it has looked up
    rcases hinvalid hnext with hone | ⟨hnone, hsome⟩
    · obtain ⟨outcome, hscope⟩ := length_eq_one_iff.mp hone
      have hmem : outcome ∈ store.outcomesInScope effectId identityScopeRef subjectScopeRef := by
        rw [hscope]
        exact mem_cons_self
      have hin := h.mem_outcomesInScope.mp hmem
      rw [hscope]
      rw [ok_bind]
      dsimp only
      unfold assertScope
      rw [require_of_pos _ hin.2.2]
      exact .raised _ _ rfl rfl fun code hcode => nomatch hcode
    · rw [hnone]
      rw [if_neg hsome]
      exact answers_plain _ _
  | some next =>
    rw [orRaise_some, orRaise_some, ok_bind]
    cases hscope : store.outcomesInScope effectId identityScopeRef subjectScopeRef with
    | nil =>
      dsimp only [map_nil]
      by_cases hempty : store.outcomesOfEffect effectId = []
      · rw [if_pos hempty, require_of_pos _ (by rw [hempty]; rfl)]
        exact h.commits _ none
      · have hrows : ¬ (store.outcomesOfEffect effectId).map (outcomeRow digests) = [] :=
          fun he => hempty (map_eq_nil_iff.mp he)
        rw [if_neg hempty, require_of_neg _ hrows]
        exact answers_plain _ _
    | cons outcome rest =>
      cases rest with
      | cons other rest => exact answers_error _
      | nil =>
        have hmem : outcome ∈ store.outcomesInScope effectId identityScopeRef subjectScopeRef := by
          rw [hscope]
          exact mem_cons_self
        obtain ⟨hstored, rfl, rfl, rfl⟩ := h.mem_outcomesInScope.mp hmem
        have hscopes : outcome.identityScopeRef = outcome.identityScopeRef ∧
          outcome.subjectScopeRef = outcome.subjectScopeRef := ⟨rfl, rfl⟩
        rw [map_cons, map_nil]
        dsimp only
        unfold assertScope
        rw [ok_bind, h.authorizedOutcome hstored, ok_bind, require_of_pos _ hscopes, ok_bind]
        dsimp only
        rw [require_of_pos _ hscopes, ok_bind, ok_bind]
        by_cases hsame : outcome.disposition = next
        · rw [if_pos hsame, if_pos hsame]
          exact h.commits _ (some outcome)
        · rw [if_neg hsame, if_neg hsame]
          by_cases haccepted : next ≠ .accepted
          · obtain ⟨hlength, hnone, hfresh⟩ := hchange outcome next hscope hnext hsame haccepted
            rw [h.mirrors.outcomesByIdentity, values_index] at hfresh
            rcases h.redisposes hstored haccepted hlength hnone hfresh
              "update Harness side-effect disposition" with ⟨after, written', hmemory, hdatabase, hm⟩
            obtain ⟨database, hupdate, hrelink⟩ := bind_inv hdatabase
            rw [require_of_pos _ haccepted, ok_bind, ok_bind, hupdate, ok_bind, hrelink, ok_bind]
            have hredisposed : (pure (some (outcome, some next)) : Except SideEffectError
                (Option (HarnessSideEffectOutcome Ref Metadata × Option HarnessSideEffectDisposition)))
                = .ok (some (outcome, some next)) := rfl
            rw [hredisposed]
            dsimp only
            rw [hmemory]
            exact hm.commits _ (some (outcome.redisposed next))
          · rw [require_of_neg _ haccepted]
            exact answers_plain _ _

end HarnessSideEffects
