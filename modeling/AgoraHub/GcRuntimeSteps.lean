/-
# Steps of the governance runtime

What one step of a running call keeps: it adds no entry to the catalog, and the objects in
progress stay named by their own entries alone, or by none once these are detached.
-/
import AgoraHub.GcRuntimeInvariant

namespace ArtifactGovernance

open Fallible GraphResult ArtifactCatalog List RecordDict

section Steps

variable {c : LocalJsonArtifactCatalog} {g : GovernanceDigests c.digests}
variable {state : c.State} {ledger : GovernanceLedger g}

variable {α : Type}

theorem of_port {answer : Answer} {result : Except GraphArtifactResultError α} {a : α}
    (h : answer.port result = .ok a) : result = .ok a := by
  unfold Answer.port at h
  split at h
  · simp at h
  · exact mapError_eq_ok.mp h

/-! ## The catalog in a step -/

/-- A call of the catalog in memory leaves the state that the call of the store leaves. -/
theorem callCatalog_snd (callback : c.State → Except GraphArtifactResultError (c.State × α)) :
    (callCatalog c callback state).2 = c.settle state ((callback state).map Prod.fst) := by
  unfold callCatalog LocalJsonArtifactCatalog.settle
  rcases callback state with e | ⟨updated, result⟩
  · rfl
  · simp only [Except.map]
    by_cases hsame : updated = state
    · rw [if_pos (.inl hsame), hsame, ite_self]
    · by_cases hsize : c.encodedLength (c.document updated) ≤ c.maxStateBytes
      · rw [if_pos (.inr hsize), if_pos hsize]
      · rw [if_neg (not_or.mpr ⟨hsame, hsize⟩), if_neg hsize]

variable {callback : c.State → Except GraphArtifactResultError (c.State × α)}

/-- A call that returns has made the state of its callback. -/
theorem of_callCatalog {result : α} (h : (callCatalog c callback state).1 = .ok result) :
    callback state = .ok ((callCatalog c callback state).2, result) := by
  unfold callCatalog at h ⊢
  rcases hcallback : callback state with e | ⟨updated, value⟩
  · rw [hcallback] at h
    simp at h
  · rw [hcallback] at h
    dsimp only at h ⊢
    split at h
    · rename_i hwritten
      rw [if_pos hwritten, ok_inj h]
    · simp at h

/-- A call that raises has changed nothing. -/
theorem callCatalog_of_error {e : GraphArtifactResultError}
    (h : (callCatalog c callback state).1 = .error e) :
    (callCatalog c callback state).2 = state := by
  unfold callCatalog at h ⊢
  rcases hcallback : callback state with e' | ⟨updated, value⟩
  · rfl
  · rw [hcallback] at h
    dsimp only at h ⊢
    split at h
    · simp at h
    · rename_i hwritten
      rw [if_neg hwritten]

theorem state_of_detach (moment : Moment) (current : GraphArtifactGcOperation g) :
    (detach moment current state).2 = state ∨ (detach moment current state).2 =
      c.advance state (.detachGcCandidate current.intent.detachRequest) := by
  unfold detach
  split
  · exact .inl rfl
  · exact .inr (callCatalog_snd _)

variable {current : GraphArtifactGcOperation g}

/-- What a detach that returns has found and taken away. -/
theorem of_detach {moment : Moment} {receipt : ArtifactCatalogGcDetachReceipt}
    (h : (detach moment current state).1 = .ok receipt) :
    ∃ entry, state.entries.get? (current.intent.entry.entryId c.digests) = some entry ∧
      state.decisionOf entry current.intent.preparedAt = current.intent.decision ∧
      (detach moment current state).2.entries =
        state.entries.del (current.intent.entry.entryId c.digests) := by
  unfold detach at h ⊢
  split at h
  · simp at h
  · rename_i hanswer
    have hreturns := of_callCatalog (mapError_eq_ok.mp h)
    obtain ⟨entry, hentry, hdecision, hstate⟩ := of_detachGcCandidate hreturns
    have hid : current.intent.detachRequest.decision.entryId =
        current.intent.entry.entryId c.digests := current.intent.entry_of.1.symm
    rw [hid] at hentry
    refine ⟨entry, hentry, hdecision, ?_⟩
    rw [hstate, ← id_of_get? hentry]

/-- A detach that raises has changed nothing. -/
theorem detach_of_error {moment : Moment} {raised : Raised}
    (h : (detach moment current state).1 = .error raised) :
    (detach moment current state).2 = state := by
  unfold detach at h ⊢
  split at h
  · rfl
  · dsimp only at h ⊢
    rcases hcall : (callCatalog c (fun s => s.detachGcCandidate current.intent.detachRequest)
        state).1 with e | receipt
    · exact callCatalog_of_error hcall
    · rw [hcall] at h
      simp [Except.mapError] at h

theorem entries_of_detach (moment : Moment) (current : GraphArtifactGcOperation g) :
    (detach moment current state).2.entries.values ⊆ state.entries.values := by
  rcases hresult : (detach moment current state).1 with raised | receipt
  · rw [detach_of_error hresult]
    exact List.Subset.refl _
  · obtain ⟨entry, -, -, hentries⟩ := of_detach hresult
    rw [hentries]
    exact values_del_subset _ _

/-! ## A step of an operation -/

/-- Without a trace of the entry in the snapshot of its tenant nothing names its object. -/
theorem unnamed_of_snapshot {intent : GraphArtifactGcOperationIntent c.digests}
    (h : NamedBySelf state intent.entry)
    (hgone : ¬ (catalogSnapshot state intent.tenantId).Shows c.digests
      (intent.entry.entryId c.digests)) : Unnamed state intent.entry := by
  intro e he hsame
  apply hgone
  refine .inl ⟨e, mem_filter.mpr ⟨he, ?_⟩, h e he hsame⟩
  exact decide_eq_true (hsame.1.trans intent.entry_of.2.1)

/-- What a detach and what follows it keep. -/
theorem within_afterDetach (hentry : NamedBySelf state current.intent.entry)
    (hdetached : ∀ e ∈ current.detached, Unnamed state e) (moment : Moment) (budget : ℕ) :
    (afterDetach moment.now current budget (detach moment current state).1).Within
      (NamedBySelf (detach moment current state).2) (Unnamed (detach moment current state).2) := by
  have hsub : (detach moment current state).2.entries.values ⊆ state.entries.values :=
    entries_of_detach moment current
  have hentry' := hentry.of_subset hsub
  have hdetached' : ∀ e ∈ current.detached, Unnamed (detach moment current state).2 e :=
    fun e he => (hdetached e he).of_subset hsub
  rcases hresult : (detach moment current state).1 with raised | receipt
  · cases raised with
    | result error =>
      dsimp only [afterDetach]
      split
      · exact ⟨by simpa [Phase.pending] using hentry', hdetached'⟩
      · exact within_handle hentry' hdetached' _ _ _
    | other => exact within_handle hentry' hdetached' _ _ _
  · -- the entry is gone, and with it the last one that names the object
    obtain ⟨entry, -, -, hentries⟩ := of_detach hresult
    have habsent : (detach moment current state).2.entries.get?
        (current.intent.entry.entryId c.digests) = none := by
      rw [hentries, get?_del, if_pos rfl]
    exact within_commit hentry' hdetached' _ _ fun candidate hcandidate =>
      ⟨of_detachedCandidate hcandidate, fun _ => hentry'.unnamed habsent⟩

/-- A step on an operation keeps the catalog's entries, the ledger and what the call holds. -/
theorem Phase.proceed_kept {phase : Phase g} (hledger : Kept state ledger.pending ledger.cleared)
    (hphase : Kept state phase.pending phase.cleared) (moment : Moment) :
    let after := phase.proceed moment state ledger
    after.1.entries.values ⊆ state.entries.values ∧
      Kept after.1 after.2.1.pending after.2.1.cleared ∧
      after.2.2.Within (NamedBySelf after.1) (Unnamed after.1) := by
  have hself := List.Subset.refl state.entries.values
  cases phase with
  | reloading operation =>
    refine ⟨hself, hledger, ?_⟩
    dsimp only [Phase.proceed]
    split
    · rename_i stored hport
      have hmem : stored ∈ ledger.operations.values :=
        mem_of_getGcOperation (orRaise_eq_ok.mp (of_port hport))
      have hstored := kept_of_mem hledger hmem
      exact ⟨hstored.pending, hstored.cleared⟩
    · trivial
  | starting current budget =>
    refine ⟨hself, hledger, ?_⟩
    dsimp only [Phase.proceed]
    split
    · split
      · trivial
      · rename_i hrunning
        -- an operation that is not at its end is held
        have hpending := hphase.pending
        have hcleared := hphase.cleared
        simp only [Phase.pending, GraphArtifactGcOperation.pending, if_neg hrunning] at hpending
        simp only [Phase.cleared, GraphArtifactGcOperation.cleared, if_neg hrunning] at hcleared
        exact ⟨hpending, hcleared⟩
    · trivial
  | acting current budget =>
    have hentry : NamedBySelf state current.intent.entry :=
      hphase.pending _ (mem_singleton_self _)
    dsimp only [Phase.proceed]
    split
    · refine ⟨entries_of_detach moment current, hledger.of_subset (entries_of_detach moment current),
        within_afterDetach hentry hphase.cleared moment budget⟩
    · rename_i request hrequest
      have hunnamed := forall_detached_iff.mp hphase.cleared (by simp [hrequest])
      exact ⟨hself, hledger, within_collect hentry hunnamed moment budget⟩
  | recoverSnapshot current error budget =>
    have hentry : NamedBySelf state current.intent.entry :=
      hphase.pending _ (mem_singleton_self _)
    refine ⟨hself, hledger, ?_⟩
    dsimp only [Phase.proceed]
    split
    · rename_i snapshot hport
      split
      · exact within_handle hentry hphase.cleared _ _ _
      · rename_i hgone
        obtain rfl := ok_inj (of_port hport)
        have hunnamed := unnamed_of_snapshot hentry hgone
        exact ⟨by simpa [Phase.pending] using hentry, by simpa [Phase.cleared] using hunnamed⟩
    · exact within_handle hentry hphase.cleared _ _ _
  | recoverList current error budget =>
    have hentry : NamedBySelf state current.intent.entry :=
      hphase.pending _ (mem_singleton_self _)
    have hunnamed : Unnamed state current.intent.entry :=
      hphase.cleared _ (mem_singleton_self _)
    have hdetached : ∀ e ∈ current.detached, Unnamed state e :=
      forall_detached_iff.mpr fun _ => hunnamed
    refine ⟨hself, hledger, ?_⟩
    dsimp only [Phase.proceed]
    split
    · split
      · exact within_handle hentry hdetached _ _ _
      · exact within_commit hentry hdetached _ _ fun candidate hcandidate =>
          ⟨of_detachedCandidate hcandidate, fun _ => hunnamed⟩
    · exact within_handle hentry hdetached _ _ _
  | committing current candidate final budget =>
    have hentry : NamedBySelf state current.intent.entry := hphase.pending _ (by simp [Phase.pending])
    have hcandidate : NamedBySelf state candidate.intent.entry :=
      hphase.pending _ (by simp [Phase.pending])
    have hcurrent : ∀ e ∈ current.detached, Unnamed state e := fun e he =>
      hphase.cleared e (mem_append_left _ he)
    have hheld : Kept state candidate.pending candidate.cleared :=
      kept_of_held hcandidate fun e he => hphase.cleared e (mem_append_right _ he)
    dsimp only [Phase.proceed]
    split
    · rename_i ledger' stored hport
      obtain ⟨rfl, hwritten⟩ := of_compareAndSetGcOperation (of_port hport)
      refine ⟨hself, hledger.of_written hheld hwritten, ?_, ?_⟩
      · intro e he
        rcases mem_cons.mp he with rfl | hstored
        · exact hentry
        · exact hheld.pending e hstored
      · intro e he
        exact (mem_append.mp he).elim (hcurrent e) (hheld.cleared e)
    · exact ⟨hself, hledger, by simpa [Phase.pending] using hentry, hcurrent⟩
    · exact ⟨hself, hledger, within_commitRaised hentry hcurrent _ _ _ _⟩
  | rereading current error final budget =>
    have hentry : NamedBySelf state current.intent.entry :=
      hphase.pending _ (mem_singleton_self _)
    refine ⟨hself, hledger, ?_⟩
    dsimp only [Phase.proceed]
    split
    · rename_i latest hport
      split
      · have hmem : latest ∈ ledger.operations.values :=
          mem_of_getGcOperation (ok_inj (of_port hport))
        have hlatest := kept_of_mem hledger hmem
        constructor
        · intro e he
          rcases mem_cons.mp he with rfl | hstored
          · exact hentry
          · exact hlatest.pending e hstored
        · intro e he
          exact (mem_append.mp he).elim (hphase.cleared e) (hlatest.cleared e)
      · exact within_commitRaised hentry hphase.cleared _ _ _ _
    · exact within_commitRaised hentry hphase.cleared _ _ _ _
    · exact within_commitRaised hentry hphase.cleared _ _ _ _
  | recording current stored final budget =>
    have hentry : NamedBySelf state current.intent.entry := hphase.pending _ (by simp [Phase.pending])
    have hcurrent : ∀ e ∈ current.detached, Unnamed state e := fun e he =>
      hphase.cleared e (mem_append_left _ he)
    refine ⟨hself, hledger, ?_⟩
    dsimp only [Phase.proceed]
    split
    · split
      · trivial
      · split
        · trivial
        · exact ⟨fun e he => hphase.pending e (mem_cons_of_mem _ he),
            fun e he => hphase.cleared e (mem_append_right _ he)⟩
    · exact within_commitRaised hentry hcurrent _ _ _ _

/-! ## A step of a call -/

/-- The operation for a decision is about an entry of the snapshot, and nothing is detached yet. -/
theorem of_operation {p : Preparation g} {decision : ArtifactCatalogGcDecision}
    {prepared : GraphArtifactGcOperation g} (hdecision : decision ∈ p.decisions)
    (h : p.operation decision = .ok prepared) :
    prepared.intent.entry ∈ p.pending ∧ prepared.detached = [] := by
  obtain ⟨intent, hintent, h⟩ := bind_inv h
  obtain ⟨-, h⟩ := check_inv h
  have hfields := create_eq_ok h
  obtain ⟨entry, hentry, hintent⟩ := bind_inv hintent
  obtain ⟨-, hintent⟩ := check_inv hintent
  have hfound := orRaise_eq_ok.mp hentry
  have hof : intent.entry = entry := by
    unfold GraphArtifactGcOperationIntent.create at hintent
    split at hintent
    · split at hintent
      · split at hintent
        · rw [← ok_inj hintent]
        · simp at hintent
      · simp at hintent
    · simp at hintent
  constructor
  · rw [hfields, hof]
    refine mem_filter.mpr ⟨mem_of_find?_eq_some hfound, decide_eq_true ?_⟩
    have hid := find?_some hfound
    exact ⟨decision, hdecision, (of_decide_eq_true hid).symm⟩
  · rw [GraphArtifactGcOperation.detached, hfields, if_pos rfl]

theorem pending_subset {p p' : Preparation g} (hsnapshot : p'.snapshot = p.snapshot)
    (hdecisions : p'.decisions ⊆ p.decisions) : p'.pending ⊆ p.pending := by
  intro e he
  obtain ⟨hmem, hdecided⟩ := mem_filter.mp he
  obtain ⟨decision, hdecision, hid⟩ := of_decide_eq_true hdecided
  rw [hsnapshot] at hmem
  exact mem_filter.mpr ⟨hmem, decide_eq_true ⟨decision, hdecisions hdecision, hid⟩⟩

/-- The step that looks for the operation of a decision. -/
theorem Preparation.proceed_kept {p : Preparation g} (h : ∀ e ∈ p.pending, NamedBySelf state e)
    (moment : Moment) : ∀ call ∈ p.proceed moment ledger, Kept state call.pending call.cleared := by
  intro call hcall
  unfold Preparation.proceed at hcall
  split at hcall
  · simp at hcall
  · rename_i decision decisions hdecisions
    have hrest : ∀ e ∈ ({ p with decisions := decisions } : Preparation g).pending,
        NamedBySelf state e := by
      intro e he
      have hsub : decisions ⊆ p.decisions := hdecisions ▸ subset_cons_self decision decisions
      exact h e (@pending_subset _ _ p { p with decisions := decisions } rfl hsub e he)
    split at hcall
    · simp at hcall
    · rename_i prepared hprepared
      obtain ⟨hentry, hdetached⟩ := of_operation (by rw [hdecisions]; simp) hprepared
      split at hcall
      · simp at hcall
      · cases hcall
        constructor
        · intro e he
          rcases mem_cons.mp he with rfl | hpending
          · exact h _ hentry
          · exact hrest e hpending
        · intro e he
          rw [show (Call.putting { p with decisions := decisions } prepared).cleared =
            prepared.detached from rfl, hdetached] at he
          simp at he
      · split at hcall
        · cases hcall
          exact ⟨hrest, by simp [Call.cleared]⟩
        · simp at hcall

/-- A step of a call keeps the catalog's entries, the ledger and what the call holds. -/
theorem Call.proceed_kept {call : Call g} (hunique : UniqueRefs state)
    (hledger : Kept state ledger.pending ledger.cleared)
    (hcall : Kept state call.pending call.cleared) (moment : Moment) :
    let after := call.proceed moment state ledger
    after.1.entries.values ⊆ state.entries.values ∧
      Kept after.1 after.2.1.pending after.2.1.cleared ∧
      ∀ next ∈ after.2.2, Kept after.1 next.pending next.cleared := by
  have hself := List.Subset.refl state.entries.values
  cases call with
  | planning tenantId policyVersion now attempts | applying tenantId planChecksum limit =>
    refine ⟨hself, hledger, fun next hnext => ?_⟩
    dsimp only [Call.proceed] at hnext
    split at hnext
    · cases hnext
      exact kept_nil state
    · simp at hnext
  | planned tenantId policyVersion now attempts decisions snapshotChecksum =>
    refine ⟨hself, hledger, fun next hnext => ?_⟩
    dsimp only [Call.proceed] at hnext
    split at hnext
    · rename_i snapshot hport
      obtain rfl := ok_inj (of_port hport)
      split at hnext
      · -- the entries of the snapshot are present, and each is the only one of its object
        cases hnext
        refine ⟨fun e he => ?_, by simp [Call.cleared]⟩
        have hmem := (mem_filter.mp (mem_filter.mp he).1).1
        exact namedBySelf_of_mem hunique hmem
      · split at hnext
        · simp at hnext
        · cases hnext
          exact kept_nil state
    · simp at hnext
  | storing p =>
    -- a plan is stored beside the operations
    dsimp only [Call.proceed]
    split
    · rename_i ledger' stored hport
      have hsame := operations_of_putGcPlan (of_port hport)
      refine ⟨hself, ?_, fun next hnext => ?_⟩
      · dsimp only [GovernanceLedger.pending, GovernanceLedger.cleared]
        rw [hsame]
        exact hledger
      · dsimp only at hnext
        split at hnext
        · cases hnext
          exact hcall
        · simp at hnext
    · exact ⟨hself, hledger, by simp⟩
  | listing p | recordingPrepared p =>
    refine ⟨hself, hledger, fun next hnext => ?_⟩
    dsimp only [Call.proceed] at hnext
    split at hnext
    · cases hnext
      exact hcall
    · simp at hnext
  | preparing p => exact ⟨hself, hledger, Preparation.proceed_kept hcall.pending moment⟩
  | putting p prepared =>
    dsimp only [Call.proceed]
    split
    · rename_i ledger' stored hport
      obtain ⟨rfl, hwritten⟩ := of_putGcOperation (of_port hport)
      have hheld := kept_of_held (hcall.pending _ mem_cons_self) hcall.cleared
      refine ⟨hself, hledger.of_written hheld hwritten, fun next hnext => ?_⟩
      split at hnext
      · cases hnext
        exact ⟨fun e he => hcall.pending e (mem_cons_of_mem _ he), by simp [Call.cleared]⟩
      · simp at hnext
    · exact ⟨hself, hledger, by simp⟩
  | applyListing tenantId plan limit | resuming tenantId limit =>
    refine ⟨hself, hledger, fun next hnext => ?_⟩
    dsimp only [Call.proceed] at hnext
    split at hnext
    · exact kept_advanceNext hnext
    · simp at hnext
  | advancing phase queue =>
    -- the only phase that writes to the catalog
    obtain ⟨hsub, hledger', hwithin⟩ := Phase.proceed_kept hledger hcall moment
    exact ⟨hsub, hledger', hwithin.kept queue⟩

end Steps

end ArtifactGovernance
