/-
# Runs of the SQLite side-effect store

A run of calls of the store, of which some may raise, leaves a database that can be opened again
and reads back what was written, as long as the records that are written read back at all: they
have no `step_id`, and the metadata of outcomes are JSON.
-/
import AgoraHub.SideEffectAccepted
import AgoraHub.SideEffectRuns

open Fallible StepRuns

namespace HarnessSideEffects

open List PyDict HarnessSideEffectAttemptLease Written

open InMemoryHarnessSideEffectStore (Follows)

/-! ## Records of calls -/

namespace PortCall

variable {Ref : Type}

/-- The decision that a call stores. -/
def decision? {M : Type} : PortCall Ref M → Option (HarnessSideEffectDecision Ref)
  | .fenced (.putDecision decision) => some decision
  | _ => none

/-- The outcome that a call records. -/
def outcome? {M : Type} : PortCall Ref M → Option (HarnessSideEffectOutcome Ref M)
  | .putOutcome outcome => some outcome
  | .fenced (.completeAttempt _ outcome _ _) => some outcome
  | .fenced (.reconcileAttempt _ outcome _) => some outcome
  | _ => none

/-- The constructors accept the records of a call. -/
def Accepted {M : Type} (call : PortCall Ref M) : Prop :=
  (∀ decision ∈ call.decision?, decision.postInit = .ok decision) ∧
    ∀ outcome ∈ call.outcome?, outcome.postInit = .ok outcome

instance {M : Type} [DecidableEq Ref] [DecidableEq M] (call : PortCall Ref M) :
    Decidable call.Accepted := inferInstanceAs (Decidable (_ ∧ _))

/-- The records of a call have no `step_id`, and metadata of JSON. -/
def Plain (call : PortCall Ref Metadata) : Prop :=
  (∀ decision ∈ call.decision?, decision.stepId = none) ∧
    ∀ outcome ∈ call.outcome?, outcome.stepId = none ∧ outcome.metadata.foreign = []

instance (call : PortCall Ref Metadata) : Decidable call.Plain :=
  inferInstanceAs (Decidable (_ ∧ _))

end PortCall

namespace SQLiteHarnessSideEffectStore

variable {Ref : Type} [DecidableEq Ref]

/-! ## Sound databases -/

/-- What the claim of a database is: it verifies, so that it can be opened; its rows read back as
the records that they were last given; a lease with an outcome refers to the current revision of
the outcome of its attempt; and of the attempts at an effect one at most is not terminated. -/
structure Sound (digests : RecordDigests Ref) (store : SQLiteHarnessSideEffectStore Ref) : Prop where
  verified : store.verifyIntegrity digests = .ok ()
  decisions : store.tables.decisions.map (decisionFromRow digests) =
    store.written.decisions.map .ok
  attemptLeases : store.tables.attemptLeases.map (attemptFromRow digests) =
    store.written.attemptLeases.map .ok
  outcomes : store.tables.outcomes.map (outcomeFromRow digests) = store.written.outcomes.map .ok
  linked : ∀ attempt ∈ store.written.attemptLeases, ∀ outcomeRef,
    attempt.outcomeRef = some outcomeRef → ∃! outcome, outcome ∈ store.written.outcomes ∧
      digests.outcomeChecksum outcome = outcomeRef ∧ Fences attempt outcome
  unresolved : ∀ attempt ∈ store.written.attemptLeases, ∀ other ∈ store.written.attemptLeases,
    attemptKey digests attempt = attemptKey digests other →
      attempt.status ≠ .terminated → other.status ≠ .terminated → attempt = other

/-- The store after every part of a run is sound. -/
def RunsSound (sqlite : SQLite) (digests : RecordDigests Ref) (calls : List (PortCall Ref Metadata)) :
    Prop :=
  ∀ before, before <+: calls → (run (step sqlite digests) empty before).Sound digests

variable {digests : RecordDigests Ref} {count : Ref → ℕ} {written : Written Ref}

section Verified

variable (h : written.Consistent digests count)

include h

variable {decision : HarnessSideEffectDecision Ref}

/-- The decisions that `verify_integrity` reads. -/
theorem get?_decisions (hmem : decision ∈ written.decisions) :
    (ofItems digests.decisionChecksum id written.decisions).get?
      (digests.decisionChecksum decision) = some decision :=
  (get?_ofItems h.decided.refs _ _).mpr ⟨decision, hmem, rfl, rfl⟩

theorem verifyLedger_ofWritten (hmem : decision ∈ written.decisions) :
    verifyLedger digests (ofItems digests.decisionChecksum id written.decisions)
      (ledgerRow digests decision (count (decisionKey digests decision))) = .ok () := by
  unfold verifyLedger
  show (orRaise (PyDict.get? _ (digests.decisionChecksum decision)) _ >>= _) = _
  rw [get?_decisions h hmem]
  exact assertLedgerMatchesDecision_ledgerRow h hmem

variable {attempt : HarnessSideEffectAttemptLease Ref}

/-- The outcome of a lease is verified. -/
theorem verifyLink_ofWritten (hmem : attempt ∈ written.attemptLeases) {outcomeRef : Ref}
    (href : attempt.outcomeRef = some outcomeRef) :
    (ofWritten digests count written).verifyLink digests attempt outcomeRef = .ok () := by
  obtain ⟨outcome, houtcome, hchecksum, hfences⟩ := h.linked.outcome attempt hmem outcomeRef href
  have hfind : (written.outcomes.map (outcomeRow digests)).find?
      (fun row => decide (row.outcomeRef = outcomeRef)) = some (outcomeRow digests outcome) := by
    rw [List.find?_map]
    exact congrArg (Option.map _) (KeyedList.find?_of_unique houtcome (decide_eq_true hchecksum)
      fun _ hother hsame => h.recorded.eq_of_ref hother houtcome
        ((of_decide_eq_true hsame).trans hchecksum.symm))
  unfold verifyLink
  show (orRaise ((written.outcomes.map (outcomeRow digests)).find? _) _ >>= _) = _
  rw [hfind, orRaise_some, ok_bind, outcomeFromRow_outcomeRow (h.recorded.readable outcome houtcome),
    ok_bind]
  apply require_of_pos
  exact ⟨congrArg EffectIdentity.effectId hfences.1, hfences.2.1, hfences.2.2.1, hfences.2.2.2⟩

/-- A lease is verified. -/
theorem verifyAttempt_ofWritten (hmem : attempt ∈ written.attemptLeases) :
    (ofWritten digests count written).verifyAttempt digests
      (ofItems digests.decisionChecksum id written.decisions) (attemptRow digests attempt)
        = .ok attempt := by
  obtain ⟨decision, hdecision, hof⟩ := h.attempted.authorized attempt hmem
  have hkey : digests.identityKey attempt.toEffectIdentity = decisionKey digests decision :=
    congrArg digests.identityKey hof.1
  have hledger : (ofItems (·.effectId) id (ofWritten digests count written).tables.attempts).get?
      (digests.identityKey attempt.toEffectIdentity)
      = some (ledgerRow digests decision (count (decisionKey digests decision))) := by
    rw [hkey, get?_ofItems]
    · exact ⟨_, mem_map_of_mem hdecision, rfl, rfl⟩
    · show ((written.decisions.map _).map _).Nodup
      rw [map_map]
      exact h.decided.keys
  have hmatches : assertAttemptMatchesDecision digests attempt decision = .ok () :=
    require_of_pos _ hof
  have hcount : attempt.attempt ≤ count (decisionKey digests decision) := by
    have hcounted := h.attempted.counted attempt hmem
    rw [show attemptKey digests attempt = decisionKey digests decision from hkey] at hcounted
    rw [(h.attempted.readable attempt hmem).checked.attempt_eq]
    exact hcounted
  unfold verifyAttempt
  rw [attemptFromRow_attemptRow (h.attempted.readable attempt hmem), ok_bind, hof.2.1,
    get?_decisions h hdecision, orRaise_some, ok_bind, hmatches, ok_bind]
  show (orRaise (PyDict.get? _ _) _ >>= _) = _
  rw [hledger, orRaise_some, ok_bind]
  show (require (attempt.attempt ≤ count (decisionKey digests decision)) _ >>= _) = _
  rw [check_of_pos hcount]
  cases href : attempt.outcomeRef with
  | none => rfl
  | some outcomeRef =>
    show ((ofWritten digests count written).verifyLink digests attempt outcomeRef >>= _) = _
    rw [verifyLink_ofWritten h hmem href]
    rfl

/-- An outcome is verified: a fenced one is that of one attempt. -/
theorem verifyOutcome_ofWritten {outcome : HarnessSideEffectOutcome Ref Metadata}
    (hmem : outcome ∈ written.outcomes) :
    verifyOutcome digests (ofItems digests.decisionChecksum id written.decisions)
      written.attemptLeases (outcomeRow digests outcome) = .ok () := by
  obtain ⟨decision, hdecision, hof⟩ := h.recorded.authorized outcome hmem
  have hmatches : assertStoredOutcomeMatchesDecision digests outcome decision = .ok () := by
    unfold assertStoredOutcomeMatchesDecision
    rw [(assertOutcomeMatchesDecision_eq_ok digests).mpr hof]
    rfl
  unfold verifyOutcome
  rw [outcomeFromRow_outcomeRow (h.recorded.readable outcome hmem), ok_bind, hof.1,
    get?_decisions h hdecision, orRaise_some, ok_bind, hmatches, ok_bind]
  apply require_of_pos
  intro hfenced
  obtain ⟨attempt, hattempt, href⟩ := h.linked.attempt outcome hmem hfenced
  have hsame : written.attemptLeases.filter (fun other =>
      decide (other.outcomeRef = some (digests.outcomeChecksum outcome)))
      = written.attemptLeases.filter fun other => other == attempt := by
    apply filter_congr
    intro other hother
    by_cases he : other = attempt
    · rw [he, href]
      simp
    · have hne : other.outcomeRef ≠ some (digests.outcomeChecksum outcome) := by
        intro hother'
        -- both attempts are the one of the outcome
        obtain ⟨first, hfirst, hchecksum, hf⟩ := h.linked.outcome other hother _ hother'
        obtain ⟨second, hsecond, hchecksum', hf'⟩ := h.linked.outcome attempt hattempt _ href
        have hboth := h.recorded.eq_of_ref hfirst hsecond (hchecksum.trans hchecksum'.symm)
        rw [hboth] at hf
        exact he (h.attempted.eq_of_id hother hattempt
          (Option.some.inj (hf.2.2.1.symm.trans hf'.2.2.1)))
      rw [decide_eq_false hne]
      simpa using he
  have hnodup : written.attemptLeases.Nodup := List.Nodup.of_map _ h.attempted.ids
  rw [hsame, ← countP_eq_length_filter]
  exact count_eq_one_of_mem hnodup hattempt

/-- The database of consistent records is sound. -/
theorem sound_ofWritten : (ofWritten digests count written).Sound digests := by
  have hdecisions : (written.decisions.map (decisionRow digests)).mapM (decisionFromRow digests)
      = .ok written.decisions :=
    mapM_map_eq_ok fun decision hmem => decisionFromRow_decisionRow (h.decided.readable decision hmem)
  have hattempts : (written.attemptLeases.map (attemptRow digests)).mapM
      ((ofWritten digests count written).verifyAttempt digests
        (ofItems digests.decisionChecksum id written.decisions)) = .ok written.attemptLeases :=
    mapM_map_eq_ok fun attempt hmem => verifyAttempt_ofWritten h hmem
  refine ⟨?_, ?_, ?_, ?_, ?_, ?_⟩
  · unfold verifyIntegrity
    show ((written.decisions.map (decisionRow digests)).mapM (decisionFromRow digests) >>= _) = _
    rw [hdecisions, ok_bind]
    show ((written.decisions.map _).forM _ >>= _) = _
    rw [forM_ok (forall_mem_map.mpr fun decision hmem => verifyLedger_ofWritten h hmem), ok_bind]
    show (List.mapM _ (written.attemptLeases.map (attemptRow digests)) >>= _) = _
    rw [hattempts, ok_bind]
    exact forM_ok (forall_mem_map.mpr fun outcome hmem => verifyOutcome_ofWritten h hmem)
  · show (written.decisions.map (decisionRow digests)).map _ = _
    rw [map_map]
    exact map_congr_left fun decision hmem =>
      decisionFromRow_decisionRow (h.decided.readable decision hmem)
  · show (written.attemptLeases.map (attemptRow digests)).map _ = _
    rw [map_map]
    exact map_congr_left fun attempt hmem =>
      attemptFromRow_attemptRow (h.attempted.readable attempt hmem)
  · show (written.outcomes.map (outcomeRow digests)).map _ = _
    rw [map_map]
    exact map_congr_left fun outcome hmem =>
      outcomeFromRow_outcomeRow (h.recorded.readable outcome hmem)
  · intro attempt hmem outcomeRef href
    obtain ⟨outcome, houtcome, hchecksum, hf⟩ := h.linked.outcome attempt hmem outcomeRef href
    refine ⟨outcome, ⟨houtcome, hchecksum, hf⟩, ?_⟩
    rintro other ⟨hother, hchecksum', -⟩
    exact h.recorded.eq_of_ref hother houtcome (hchecksum'.trans hchecksum.symm)
  · intro attempt hmem other hother hkey hopen hopen'
    have hlatest := h.attempted.latest_of_ne_terminated hmem hopen
    have hlatest' := h.attempted.latest_of_ne_terminated hother hopen'
    rw [hkey] at hlatest
    exact Option.some.inj (hlatest.symm.trans hlatest')

end Verified

/-! ## What operations keep -/

/-- The store is the image of consistent records. -/
def Holds (digests : RecordDigests Ref) (store : SQLiteHarnessSideEffectStore Ref) : Prop :=
  ∃ count written, store = ofWritten digests count written ∧ written.Consistent digests count

variable {sqlite : SQLite} {store' : SQLiteHarnessSideEffectStore Ref}

section Operations

variable (h : written.Consistent digests count)

include h

variable {operation : String}

theorem holds_of_commit {α : Type} {value value' : α}
    (hcommit : commit operation (value, ofWritten digests count written) = .ok (value', store')) :
    store'.Holds digests := by
  rw [commit_ofWritten h.linked] at hcommit
  obtain ⟨-, rfl⟩ := Prod.mk.inj (ok_inj hcommit)
  exact ⟨count, written, rfl, h⟩

/-- `put_decision` keeps consistent records. -/
theorem putDecision_holds {decision decision' : HarnessSideEffectDecision Ref}
    (hread : decision.Readable)
    (hput : (ofWritten digests count written).putDecision digests decision
      = .ok (decision', store')) : store'.Holds digests := by
  obtain ⟨existing, -, hrest⟩ := bind_inv hput
  cases existing with
  | nil =>
    obtain ⟨first, hfirst, hrest⟩ := bind_inv hrest
    obtain ⟨second, hsecond, hcommit⟩ := bind_inv hrest
    rcases (insertDecision_eq_ok h hread.one_le_limit).mp (bind_intro hfirst hsecond) with
      ⟨-, hfresh, rfl⟩
    exact holds_of_commit (h.addDecision hread hfresh) hcommit
  | cons first rest =>
    obtain ⟨-, hrest⟩ := check_inv hrest
    obtain ⟨_, -, hcommit⟩ := bind_inv hrest
    exact holds_of_commit h hcommit

variable {decision : HarnessSideEffectDecision Ref}

/-- `reserve_attempt` keeps consistent records. -/
theorem reserveAttempt_holds {number : ℕ}
    (hreserve : (ofWritten digests count written).reserveAttempt digests decision
      = .ok (number, store')) : store'.Holds digests := by
  obtain ⟨hcommitted, hrest⟩ := check_inv hreserve
  rw [assertCommitted_ofWritten h] at hcommitted
  have hmem := of_require hcommitted
  obtain ⟨-, hrest⟩ := check_inv hrest
  rw [assertAttemptLedger_ofWritten h hmem, ok_bind] at hrest
  obtain ⟨-, hrest⟩ := check_inv hrest
  obtain ⟨advanced, hadvance, hcommit⟩ := bind_inv hrest
  obtain ⟨-, hwithin, rfl⟩ := (advanceAttemptLedger_eq_ok h hmem).mp hadvance
  exact holds_of_commit (h.advance hmem hwithin (Nat.le_succ _)) hcommit

variable {attempt : HarnessSideEffectAttemptLease Ref}

variable {now : Datetime}

/-- `acquire_attempt` keeps consistent records. -/
theorem acquireAttempt_holds {ownerId leaseId : String}
    (hacquire : (ofWritten digests count written).acquireAttempt sqlite digests decision ownerId
      leaseId now = .ok (attempt, store')) : store'.Holds digests := by
  obtain ⟨-, hrest⟩ := check_inv hacquire
  obtain ⟨-, hrest⟩ := check_inv hrest
  obtain ⟨hcommitted, hrest⟩ := check_inv hrest
  rw [assertCommitted_ofWritten h] at hcommitted
  have hmem := of_require hcommitted
  rw [assertAttemptLedger_ofWritten h hmem, ok_bind] at hrest
  split at hrest
  · obtain ⟨_, -, hrest⟩ := bind_inv hrest
    obtain ⟨-, hcommit⟩ := check_inv hrest
    exact holds_of_commit h hcommit
  · obtain ⟨-, hrest⟩ := check_inv hrest
    rw [latestAttempt_ofWritten h, ok_bind] at hrest
    -- the latest attempt is terminated, if there is one
    have hsettled : (∀ last, written.latest digests (decisionKey digests decision) = some last →
        last.status = .terminated) ∧ ∃ nextCount leaseExpiresAt lease advanced inserted,
          nextCount = count (decisionKey digests decision) + 1 ∧
          digests.createLease decision nextCount ownerId leaseId now leaseExpiresAt = .ok lease ∧
          (ofWritten digests count written).advanceAttemptLedger digests
            "acquire fenced Harness side-effect attempt" decision
            (count (decisionKey digests decision)) nextCount = .ok advanced ∧
          advanced.insertAttempt digests "acquire fenced Harness side-effect attempt" lease
            = .ok inserted ∧
          commit "acquire fenced Harness side-effect attempt" (lease, inserted)
            = .ok (attempt, store') := by
      split at hrest <;> rename_i hlatest
      all_goals
        obtain ⟨hfirst, hrest⟩ := check_inv hrest
        obtain ⟨-, hrest⟩ := check_inv hrest
        obtain ⟨expiry, -, hrest⟩ := bind_inv hrest
        obtain ⟨lease, hlease, hrest⟩ := bind_inv hrest
        obtain ⟨advanced, hadvance, hrest⟩ := bind_inv hrest
        obtain ⟨inserted, hinsert, hcommit⟩ := bind_inv hrest
        refine ⟨?_, _, expiry, lease, advanced, inserted, rfl, hlease, hadvance, hinsert, hcommit⟩
        intro last hlast
      · rw [show written.latest digests (decisionKey digests decision) = some _ from hlatest] at hlast
        rw [← Option.some.inj hlast]
        exact of_require hfirst
      · rw [show written.latest digests (decisionKey digests decision) = none from hlatest] at hlast
        cases hlast
    rcases hsettled with ⟨hsettled, nextCount, expiry, lease, advanced, inserted, rfl, hlease,
      hadvance, hinsert, hcommit⟩
    have hcreated := created_of_createLease (h.decided.readable decision hmem) hlease
    have hkey : attemptKey digests lease = decisionKey digests decision :=
      congrArg digests.identityKey hcreated.of.1
    obtain ⟨-, hwithin, rfl⟩ := (advanceAttemptLedger_eq_ok h hmem).mp hadvance
    have hadvanced := h.advance hmem hwithin (Nat.le_succ _)
    have hearlier := h.attempted.earlier hkey hcreated.generation hsettled
    rcases (insertAttempt_eq_ok hmem hcreated.of hcreated.readable.checked hearlier).mp hinsert with
      ⟨-, hfresh, rfl⟩
    refine holds_of_commit (hadvanced.addAttempt hcreated.readable hmem hcreated.of ?_
      (fun other hother he => ((hearlier other hother).2 he).1) hfresh ?_
      hcreated.unresolved) hcommit
    · rw [hkey, Function.update_self, hcreated.generation]
    · intro last hlast
      rw [hkey] at hlast
      exact hsettled last hlast

variable {current : HarnessSideEffectAttemptLease Ref}

/-- A later version of an attempt, with its reference, keeps consistent records. -/
theorem updateAttempt_holds {α : Type} {value value' : α}
    {next : HarnessSideEffectAttemptLease Ref} {updated : SQLiteHarnessSideEffectStore Ref}
    (hf : Follows current next) (hmem : current ∈ written.attemptLeases)
    (href : next.outcomeRef = current.outcomeRef)
    (hupdate : (ofWritten digests count written).updateAttempt digests operation next = .ok updated)
    (hcommit : commit operation (value, updated) = .ok (value', store')) :
    store'.Holds digests := by
  obtain ⟨-, rfl⟩ := (updateAttempt_eq_ok h.attempted hf hmem).mp hupdate
  exact holds_of_commit (h.replaceAttempt hf hmem href) hcommit

/-- `renew_attempt` keeps consistent records. -/
theorem renewAttempt_holds {renewed : HarnessSideEffectAttemptLease Ref} {checkedAt : Datetime}
    (hrenew : (ofWritten digests count written).renewAttempt sqlite digests attempt checkedAt now
      = .ok (renewed, store')) : store'.Holds digests := by
  obtain ⟨current, hcurrent, hrest⟩ := bind_inv hrenew
  obtain ⟨hlatest, -⟩ := (assertCurrentAttempt_eq_ok h).mp hcurrent
  obtain ⟨-, hrest⟩ := check_inv hrest
  obtain ⟨expiry, -, hrest⟩ := bind_inv hrest
  split at hrest
  · exact holds_of_commit h hrest
  · obtain ⟨next, hnext, hrest⟩ := bind_inv hrest
    obtain ⟨updated, hupdate, hcommit⟩ := bind_inv hrest
    have hf := follows_of_renewed hnext
    exact updateAttempt_holds h hf (of_latest hlatest).1
      (outcomeRef_of_renewed hnext) hupdate hcommit

/-- `finish_attempt` keeps consistent records. -/
theorem finishAttempt_holds {finished : HarnessSideEffectAttemptLease Ref} {confirmed : Bool}
    (hfinish : (ofWritten digests count written).finishAttempt digests attempt confirmed now
      = .ok (finished, store')) : store'.Holds digests := by
  obtain ⟨current, hcurrent, hrest⟩ := bind_inv hfinish
  obtain ⟨hlatest, -⟩ := (assertCurrentAttempt_eq_ok h).mp hcurrent
  have hmem := (of_latest hlatest).1
  split at hrest
  · obtain ⟨-, hcommit⟩ := check_inv hrest
    exact holds_of_commit h hcommit
  · rename_i hopen
    split at hrest
    · exact holds_of_commit h hrest
    · obtain ⟨⟨next, updated⟩, hresolve, hcommit⟩ := bind_inv hrest
      obtain ⟨resolved, hresolved, hresolve⟩ := bind_inv hresolve
      obtain ⟨_, hupdate, hpure⟩ := bind_inv hresolve
      cases hpure
      obtain ⟨hf, href⟩ := follows_of_resolved hopen hresolved
      have hnone : current.outcomeRef = none := by
        by_contra hne
        exact hopen (h.attempted.terminated_of_outcomeRef hmem hne)
      exact updateAttempt_holds h hf hmem (href.trans hnone.symm) hupdate hcommit

/-- An outcome that is new has none of the keys of the others. -/
theorem freshOutcome_of_existingOutcome {outcome : HarnessSideEffectOutcome Ref Metadata}
    (hexisting : (ofWritten digests count written).existingOutcome digests outcome = .ok none) :
    written.FreshOutcome digests outcome := by
  rw [existingOutcome_ofWritten h] at hexisting
  obtain ⟨hall, hnone⟩ := check_inv hexisting
  have hnotMem : outcome ∉ written.outcomes := by
    intro hmem
    rw [if_pos hmem] at hnone
    cases pure_eq_ok_iff.mp hnone
  intro other hother
  refine ⟨?_, ?_, ?_⟩
  · exact fun he => hnotMem (of_require hall other hother (Or.inl he) ▸ hother)
  · exact fun he => hnotMem (of_require hall other hother (Or.inr (Or.inl he)) ▸ hother)
  · exact fun he =>
      hnotMem (of_require hall other hother (Or.inr (Or.inr (Or.inl he))) ▸ hother)

variable {outcome outcome' : HarnessSideEffectOutcome Ref Metadata}

/-- `put_outcome` keeps consistent records. -/
theorem putOutcome_holds (hread : outcome.Readable)
    (hput : (ofWritten digests count written).putOutcome sqlite digests outcome
      = .ok (outcome', store')) : store'.Holds digests := by
  obtain ⟨hfenced, hrest⟩ := check_inv hput
  have hfenced := of_require hfenced
  have hunfenced : outcome.attemptId = none := by
    by_contra hne
    exact hfenced (Or.inr hne)
  obtain ⟨hauthorized, hrest⟩ := check_inv hrest
  obtain ⟨decision, hdecision, hof⟩ := (assertOutcomeAuthorized_eq_ok h).mp hauthorized
  obtain ⟨existing, hexisting, hrest⟩ := bind_inv hrest
  cases existing with
  | some existing => exact holds_of_commit h hrest
  | none =>
    obtain ⟨inserted, hinsert, hcommit⟩ := bind_inv hrest
    obtain ⟨-, hfresh, rfl⟩ := (insertOutcome_eq_ok h hdecision hof).mp hinsert
    exact holds_of_commit (h.addOutcome hread ⟨decision, hdecision, hof⟩ hfresh hunfenced) hcommit

/-- Recording an outcome that is bound to the latest attempt keeps consistent records. -/
theorem commitOutcome_holds {bound : HarnessSideEffectOutcome Ref Metadata}
    (hread : outcome.Readable)
    (hcurrent : (ofWritten digests count written).assertCurrentAttempt digests attempt = .ok current)
    (hauthorized : (ofWritten digests count written).assertOutcomeAuthorized digests outcome = .ok ())
    (hbound : bindOutcomeToAttempt outcome current = .ok bound)
    (hopen : current.status ≠ .terminated)
    (hcommit : (ofWritten digests count written).commitOutcome sqlite digests operation current
      bound now = .ok (outcome', store')) : store'.Holds digests := by
  have hmem := (of_latest ((assertCurrentAttempt_eq_ok h).mp hcurrent).1).1
  obtain ⟨decision, hdecision, hof⟩ := (assertOutcomeAuthorized_eq_ok h).mp hauthorized
  have hof' := hof.of_bindOutcomeToAttempt hbound
  have hchecked := (h.attempted.readable current hmem).checked
  have hread' := readable_of_bindOutcomeToAttempt hread (hchecked.attempt_eq ▸ hchecked.positive)
    hbound
  obtain ⟨inserted, hinsert, hrest⟩ := bind_inv hcommit
  obtain ⟨-, hfresh, rfl⟩ := (insertOutcome_eq_ok h hdecision hof').mp hinsert
  obtain ⟨⟨next, updated⟩, hresolve, hcommit⟩ := bind_inv hrest
  obtain ⟨resolved, hresolved, hresolve⟩ := bind_inv hresolve
  obtain ⟨_, hupdate, hpure⟩ := bind_inv hresolve
  cases hpure
  obtain ⟨hf, href⟩ := follows_of_resolved hopen hresolved
  have hnone : current.outcomeRef = none := by
    by_contra hne
    exact hopen (h.attempted.terminated_of_outcomeRef hmem hne)
  have hattempted : (written.addOutcome bound).Attempted digests count :=
    ⟨h.attempted.ids, h.attempted.leaseIds, h.attempted.readable, h.attempted.authorized,
      h.attempted.counted, h.attempted.settled⟩
  obtain ⟨-, rfl⟩ := (updateAttempt_eq_ok hattempted hf hmem).mp hupdate
  exact holds_of_commit (h.recordOutcome hread' ⟨decision, hdecision, hof'⟩ hfresh hf hmem
    (fences_of_bindOutcomeToAttempt hbound) hnone href) hcommit

/-- `complete_attempt` keeps consistent records. -/
theorem completeAttempt_holds {checkedAt : Datetime} (hread : outcome.Readable)
    (hcomplete : (ofWritten digests count written).completeAttempt sqlite digests attempt outcome
      checkedAt now = .ok (outcome', store')) : store'.Holds digests := by
  obtain ⟨current, hcurrent, hrest⟩ := bind_inv hcomplete
  obtain ⟨hauthorized, hrest⟩ := check_inv hrest
  obtain ⟨bound, hbound, hrest⟩ := bind_inv hrest
  obtain ⟨existing, -, hrest⟩ := bind_inv hrest
  cases existing with
  | some existing => exact holds_of_commit h hrest
  | none =>
    obtain ⟨haccepts, hrest⟩ := check_inv hrest
    have hopen : current.status ≠ .terminated := by
      obtain ⟨hactive, -⟩ := check_inv haccepts
      rw [of_require hactive]
      decide
    exact commitOutcome_holds h hread hcurrent hauthorized hbound hopen hrest

/-- `reconcile_attempt` keeps consistent records. -/
theorem reconcileAttempt_holds (hread : outcome.Readable)
    (hreconcile : (ofWritten digests count written).reconcileAttempt sqlite digests attempt outcome
      now = .ok (outcome', store')) : store'.Holds digests := by
  obtain ⟨current, hcurrent, hrest⟩ := bind_inv hreconcile
  obtain ⟨hauthorized, hrest⟩ := check_inv hrest
  obtain ⟨bound, hbound, hrest⟩ := bind_inv hrest
  obtain ⟨existing, -, hrest⟩ := bind_inv hrest
  cases existing with
  | some existing => exact holds_of_commit h hrest
  | none =>
    obtain ⟨hopen, hrest⟩ := check_inv hrest
    exact commitOutcome_holds h hread hcurrent hauthorized hbound (of_require hopen) hrest

/-- The outcome of a row is one of the records. -/
theorem authorizedOutcome_eq_ok {row : OutcomeRow Ref}
    (hrow : row ∈ (ofWritten digests count written).tables.outcomes)
    (hread : (ofWritten digests count written).authorizedOutcome digests row = .ok outcome) :
    outcome ∈ written.outcomes := by
  obtain ⟨stored, hstored, rfl⟩ := mem_map.mp hrow
  unfold authorizedOutcome at hread
  rw [outcomeFromRow_outcomeRow (h.recorded.readable stored hstored), ok_bind] at hread
  obtain ⟨_, -, hread⟩ := bind_inv hread
  obtain ⟨-, hpure⟩ := check_inv hread
  rw [← pure_eq_ok_iff.mp hpure]
  exact hstored

/-- `set_disposition` keeps consistent records. -/
theorem setDisposition_holds {effectId disposition : String} {identityScopeRef subjectScopeRef : Ref}
    {outcome' : Option (HarnessSideEffectOutcome Ref Metadata)}
    (hset : (ofWritten digests count written).setDisposition sqlite digests effectId disposition
      identityScopeRef subjectScopeRef = .ok (outcome', store')) : store'.Holds digests := by
  obtain ⟨next, -, hrest⟩ := bind_inv hset
  split at hrest
  · obtain ⟨-, hcommit⟩ := check_inv hrest
    exact holds_of_commit h hcommit
  · exact absurd hrest throw_ne_ok
  · rename_i row hrows
    have hrow : row ∈ (ofWritten digests count written).tables.outcomes := by
      have hmem : row ∈ [row] := mem_cons_self
      rw [← hrows] at hmem
      exact (mem_filter.mp (mem_filter.mp hmem).1).1
    obtain ⟨outcome, houtcome, hrest⟩ := bind_inv hrest
    have hmem := authorizedOutcome_eq_ok h hrow houtcome
    obtain ⟨-, hrest⟩ := check_inv hrest
    split at hrest
    · exact holds_of_commit h hrest
    · obtain ⟨hnext, hrest⟩ := check_inv hrest
      have hr := revises_redisposed outcome next
      have hread := (h.recorded.readable outcome hmem).redisposed (of_require hnext)
      obtain ⟨updated, hupdate, hrest⟩ := bind_inv hrest
      obtain ⟨-, hfresh, rfl⟩ := (updateOutcome_eq_ok h hr hmem).mp hupdate
      obtain ⟨relinked, hrelink, hcommit⟩ := bind_inv hrest
      have hattempted : (written.replaceOutcome digests (outcome.redisposed next)).Attempted digests
          count :=
        ⟨h.attempted.ids, h.attempted.leaseIds, h.attempted.readable, h.attempted.authorized,
          h.attempted.counted, h.attempted.settled⟩
      unfold relinkAttempt at hrelink
      split at hrelink
      · -- no lease refers to the outcome
        rename_i hfind
        cases hrelink
        refine holds_of_commit (h.replaceOutcome hr hmem hread hfresh ?_) hcommit
        intro attempt hattempt href
        rw [find?_eq_none] at hfind
        exact hfind (attemptRow digests attempt) (mem_map_of_mem hattempt)
          (decide_eq_true href)
      · rename_i leaseRow hfind
        obtain ⟨current, hcurrent, rfl⟩ := mem_map.mp (mem_of_find?_eq_some hfind)
        have href := find?_some hfind
        have href : current.outcomeRef = some (digests.outcomeChecksum outcome) :=
          of_decide_eq_true href
        rw [attemptFromRow_attemptRow (h.attempted.readable current hcurrent), ok_bind] at hrelink
        obtain ⟨lease, hlease, hrelink⟩ := bind_inv hrelink
        obtain ⟨hf, hnextRef⟩ := follows_of_relinkedOutcome hlease
        obtain ⟨-, rfl⟩ := (updateAttempt_eq_ok hattempted hf hcurrent).mp hrelink
        exact holds_of_commit (h.relinkOutcome hr hmem hread hfresh hf hcurrent href hnextRef) hcommit

end Operations

/-! ## Runs -/

/-- No records are consistent. -/
theorem consistent_nil : (⟨[], [], []⟩ : Written Ref).Consistent digests fun _ => 0 := by
  constructor
  · exact ⟨nodup_nil, nodup_nil, nodup_nil, nodup_nil,
      fun _ hmem => absurd hmem not_mem_nil, fun _ hmem => absurd hmem not_mem_nil,
      fun _ _ => rfl⟩
  · exact ⟨nodup_nil, nodup_nil, fun _ hmem => absurd hmem not_mem_nil,
      fun _ hmem => absurd hmem not_mem_nil, fun _ hmem => absurd hmem not_mem_nil,
      fun _ hmem => absurd hmem not_mem_nil⟩
  · exact ⟨nodup_nil, nodup_nil, nodup_nil,
      fun _ hmem => absurd hmem not_mem_nil, fun _ hmem => absurd hmem not_mem_nil⟩
  · exact ⟨fun _ hmem => absurd hmem not_mem_nil, fun _ hmem => absurd hmem not_mem_nil⟩

theorem holds_empty : (empty : SQLiteHarnessSideEffectStore Ref).Holds digests :=
  ⟨fun _ => 0, ⟨[], [], []⟩, rfl, consistent_nil⟩

omit [DecidableEq Ref] in
theorem map_prodMap_eq_ok {α β : Type} {f : α → β}
    {result : Except SideEffectError (α × SQLiteHarnessSideEffectStore Ref)} {reply : β}
    (h : result.map (Prod.map f id) = .ok (reply, store')) :
    ∃ value, result = .ok (value, store') ∧ f value = reply := by
  cases result with
  | error e => cases h
  | ok pair =>
    obtain ⟨hreply, rfl⟩ := Prod.mk.inj (ok_inj h)
    exact ⟨pair.1, rfl, hreply⟩

omit [DecidableEq Ref] in
theorem map_reading_eq_ok {α β : Type} {f : α → β} {store : SQLiteHarnessSideEffectStore Ref}
    {result : Except SideEffectError α} {reply : β}
    (h : (result.map fun value => (f value, store)) = .ok (reply, store')) : store' = store := by
  cases result with
  | error e => cases h
  | ok value =>
    obtain ⟨-, rfl⟩ := Prod.mk.inj (ok_inj h)
    rfl

variable {store : SQLiteHarnessSideEffectStore Ref}

/-- A call with accepted and plain records that returns keeps consistent records. -/
theorem attempt_holds (h : store.Holds digests) {call : PortCall Ref Metadata}
    (haccepted : call.Accepted) (hplain : call.Plain) {reply : PortReply Ref Metadata}
    (hcall : store.attempt sqlite digests call = .ok (reply, store')) : store'.Holds digests := by
  have hall := h
  obtain ⟨count, written, rfl, h⟩ := h
  cases call with
  | fenced call =>
    cases call with
    | putDecision decision =>
      obtain ⟨_, hput, -⟩ := map_prodMap_eq_ok hcall
      exact putDecision_holds h ⟨haccepted.1 _ rfl, hplain.1 _ rfl⟩ hput
    | acquireAttempt decision ownerId leaseId now =>
      obtain ⟨_, hacquire, -⟩ := map_prodMap_eq_ok hcall
      exact acquireAttempt_holds h hacquire
    | renewAttempt attempt checkedAt now =>
      obtain ⟨_, hrenew, -⟩ := map_prodMap_eq_ok hcall
      exact renewAttempt_holds h hrenew
    | finishAttempt attempt confirmed now =>
      obtain ⟨_, hfinish, -⟩ := map_prodMap_eq_ok hcall
      exact finishAttempt_holds h hfinish
    | completeAttempt attempt outcome checkedAt now =>
      obtain ⟨_, hcomplete, -⟩ := map_prodMap_eq_ok hcall
      obtain ⟨hstep, hjson⟩ := hplain.2 outcome rfl
      exact completeAttempt_holds h ⟨haccepted.2 _ rfl, hstep, hjson⟩ hcomplete
    | reconcileAttempt attempt outcome now =>
      rcases map_prodMap_eq_ok hcall with ⟨_, hreconcile, -⟩
      rcases hplain.2 outcome rfl with ⟨hstep, hjson⟩
      exact reconcileAttempt_holds h ⟨haccepted.2 _ rfl, hstep, hjson⟩ hreconcile
    | setDisposition effectId disposition identityScopeRef subjectScopeRef =>
      rcases map_prodMap_eq_ok hcall with ⟨_, hset, -⟩
      exact setDisposition_holds h hset
  | putOutcome outcome =>
    rcases map_prodMap_eq_ok hcall with ⟨_, hput, -⟩
    rcases hplain.2 outcome rfl with ⟨hstep, hjson⟩
    exact putOutcome_holds h ⟨haccepted.2 _ rfl, hstep, hjson⟩ hput
  | reserveAttempt decision =>
    rcases map_prodMap_eq_ok hcall with ⟨_, hreserve, -⟩
    exact reserveAttempt_holds h hreserve
  | getOutcome | readOutcome | getDecision | getAttempt | attemptCount | listDecisions => exact map_reading_eq_ok hcall ▸ hall

theorem step_holds (h : store.Holds digests) {call : PortCall Ref Metadata}
    (haccepted : call.Accepted) (hplain : call.Plain) :
    (step sqlite digests store call).Holds digests := by
  unfold step
  cases hcall : store.attempt sqlite digests call with
  | error e => exact h
  | ok result => exact attempt_holds h haccepted hplain hcall

/-- A run of calls with accepted and plain records leaves consistent records. -/
theorem run_holds : ∀ {calls : List (PortCall Ref Metadata)} {store : SQLiteHarnessSideEffectStore Ref},
    store.Holds digests → (∀ call ∈ calls, call.Accepted ∧ call.Plain) →
      (run (step sqlite digests) store calls).Holds digests := by
  intro calls
  induction calls with
  | nil => exact fun h _ => h
  | cons call calls ih =>
    intro store h hcalls
    rcases hcalls call mem_cons_self with ⟨haccepted, hplain⟩
    exact ih (step_holds h haccepted hplain) fun call hmem =>
      hcalls call (mem_cons_of_mem _ hmem)

/-- Every database that a run of calls with accepted records reaches is sound, when the records have
no `step_id` and metadata of JSON. -/
theorem runsSound_of_plain (sqlite : SQLite) (digests : RecordDigests Ref)
    (calls : List (PortCall Ref Metadata)) (haccepted : ∀ call ∈ calls, call.Accepted)
    (hplain : ∀ call ∈ calls, call.Plain) : RunsSound sqlite digests calls := by
  intro before hbefore
  have hcalls : ∀ call ∈ before, call.Accepted ∧ call.Plain := fun call hmem =>
    ⟨haccepted call (hbefore.subset hmem), hplain call (hbefore.subset hmem)⟩
  have hholds : (run (step sqlite digests) empty before).Holds digests :=
    run_holds holds_empty hcalls
  rcases hholds with ⟨count, written, hstore, hconsistent⟩
  rw [hstore]
  exact sound_ofWritten hconsistent

end SQLiteHarnessSideEffectStore

/-! ## An effect in the database -/

namespace Reference

/-- Digests of records that spell out what they are taken of. -/
def recordDigests : RecordDigests Reference where
  identityKey := ofIdentity
  attemptId := digests.attemptId
  decisionRef := digests.decisionRef
  outcomeRef outcome := pair (text outcome.outcomeId)
    (pair (text outcome.disposition.value) (text outcome.reasonCode))
  leaseChecksum attempt := pair attempt.attemptId (text attempt.leaseId)
  outcomeRef_toJsonable _ := rfl

end Reference

/-- A database that takes every document, with leases of thirty seconds. -/
def plainSQLite : SQLite where
  jsonValid _ := true
  leaseExpiry now := addLease now 30000000

/-- The outcome of one instance, with empty metadata. -/
def storedOutcome (instanceId : String) : HarnessSideEffectOutcome Reference Metadata :=
  { publishOutcome instanceId with
    metadata := { json := .obj [], sorted := by decide, nonFinite := [], foreign := [] } }

/-- One instance acquires its attempt, renews it, completes it and is put into quarantine. -/
def storeOnce : List (PortCall Reference Metadata) :=
  [.fenced (.putDecision (publishDecision "publish:1")),
    .fenced (.acquireAttempt (publishDecision "publish:1") "owner:publish:1" "lease:publish:1" 0),
    .fenced (.renewAttempt (publishLease "publish:1") 1000000 1000000),
    .fenced (.completeAttempt (publishLease "publish:1") (storedOutcome "publish:1") 2000000 2000000),
    .fenced (.setDisposition "shared-effect-id" "quarantine" (.text "tenant-1")
      (.text "subject-1"))]

/-- The decision of a step of an instance. -/
def steppedDecision : HarnessSideEffectDecision Reference :=
  { publishDecision "publish:1" with stepId := some "publish" }

namespace SQLiteHarnessSideEffectStore

/-- The database of one instance. -/
theorem runsSound_storeOnce : RunsSound plainSQLite Reference.recordDigests storeOnce :=
  runsSound_of_plain plainSQLite Reference.recordDigests storeOnce (by decide +kernel)
    (by decide +kernel)

/-- A decision with a `step_id` does not read back. -/
theorem not_runsSound_steppedDecision :
    (∀ call ∈ [(.fenced (.putDecision steppedDecision) : PortCall Reference Metadata)],
      call.Accepted) ∧
        ¬ RunsSound plainSQLite Reference.recordDigests [.fenced (.putDecision steppedDecision)] := by
  refine ⟨by decide +kernel, fun h => ?_⟩
  have hdecisions := (h _ prefix_rfl).decisions
  revert hdecisions
  decide +kernel

end SQLiteHarnessSideEffectStore

end HarnessSideEffects
