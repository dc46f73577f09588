/-
# What the operations in progress may still touch

An operation in progress, and a call that holds one, names an object of a tenant.  As long as
only the entry of the operation names that object in the catalog, and none does once the
entry is detached, the lifecycle port never reaches an object that is in use.
-/
import AgoraHub.GcRuntime

namespace ArtifactGovernance

open Fallible GraphResult ArtifactCatalog List

/-! ## Objects -/

/-- Two entries of a tenant name the same physical ref. -/
def SameObject (e e' : ArtifactCatalogEntry) : Prop :=
  e.identity.tenantId = e'.identity.tenantId ∧ e.record.ref = e'.record.ref

instance (e e' : ArtifactCatalogEntry) : Decidable (SameObject e e') :=
  inferInstanceAs (Decidable (_ ∧ _))

/-- Of the present entries only the entry itself, registered again or not, names its object. -/
def NamedBySelf {d : CatalogDigests} (state : CatalogState d) (entry : ArtifactCatalogEntry) :
    Prop :=
  ∀ e ∈ state.entries.values, SameObject e entry → e.entryId d = entry.entryId d

/-- No present entry names the object of an entry. -/
def Unnamed {d : CatalogDigests} (state : CatalogState d) (entry : ArtifactCatalogEntry) : Prop :=
  ∀ e ∈ state.entries.values, ¬ SameObject e entry

section Objects

variable {d : CatalogDigests} {state state' : CatalogState d} {entry : ArtifactCatalogEntry}

theorem NamedBySelf.of_subset (h : NamedBySelf state entry)
    (hsub : state'.entries.values ⊆ state.entries.values) : NamedBySelf state' entry :=
  fun e he => h e (hsub he)

theorem Unnamed.of_subset (h : Unnamed state entry)
    (hsub : state'.entries.values ⊆ state.entries.values) : Unnamed state' entry :=
  fun e he => h e (hsub he)

/-- An entry of a state with unique refs is the only one that names its object. -/
theorem namedBySelf_of_mem (hunique : UniqueRefs state) (hentry : entry ∈ state.entries.values) :
    NamedBySelf state entry := by
  rintro e he ⟨htenant, href⟩
  rw [hunique e he entry hentry htenant href]

theorem NamedBySelf.unnamed (h : NamedBySelf state entry)
    (habsent : state.entries.get? (entry.entryId d) = none) : Unnamed state entry := by
  intro e he hsame
  have hget := RecordDict.mem_values.mp he
  rw [h e he hsame, habsent] at hget
  simp at hget

end Objects

/-! ## What is in progress -/

section Progress

variable {d : CatalogDigests} {g : GovernanceDigests d}

section

variable (operation : GraphArtifactGcOperation g)

/-- The entry of an operation that is not at its end. -/
def GraphArtifactGcOperation.pending : List ArtifactCatalogEntry :=
  if operation.state.terminal then [] else [operation.intent.entry]

/-- The entry of an operation whose entry is detached. -/
def GraphArtifactGcOperation.detached : List ArtifactCatalogEntry :=
  if operation.request = none then [] else [operation.intent.entry]

/-- The entry of an operation that may be collected without the catalog being asked again. -/
def GraphArtifactGcOperation.cleared : List ArtifactCatalogEntry :=
  if operation.state.terminal then [] else operation.detached

end

/-- The entries that a call of `_advance_operation` may still detach or collect. -/
def Phase.pending : Phase g → List ArtifactCatalogEntry
  | .reloading _ => []
  | .starting current _ => current.pending
  | .acting current _ | .recoverSnapshot current _ _ | .recoverList current _ _
  | .rereading current _ _ _ => [current.intent.entry]
  | .committing current candidate _ _ => [current.intent.entry, candidate.intent.entry]
  | .recording current stored _ _ => current.intent.entry :: stored.pending

/-- The entries that it may collect without asking the catalog again. -/
def Phase.cleared : Phase g → List ArtifactCatalogEntry
  | .reloading _ => []
  | .starting current _ => current.cleared
  | .acting current _ | .recoverSnapshot current _ _ | .rereading current _ _ _ => current.detached
  | .recoverList current _ _ => [current.intent.entry]
  | .committing current candidate _ _ => current.detached ++ candidate.detached
  | .recording current stored _ _ => current.detached ++ stored.cleared

/-- What follows a step holds only entries with the given properties. -/
def Progress.Within (P C : ArtifactCatalogEntry → Prop) : Progress g → Prop
  | .next phase => (∀ e ∈ phase.pending, P e) ∧ ∀ e ∈ phase.cleared, C e
  | .returned | .raised => True

variable {P C : ArtifactCatalogEntry → Prop} {current candidate : GraphArtifactGcOperation g}

theorem forall_detached_iff :
    (∀ e ∈ current.detached, C e) ↔ (current.request ≠ none → C current.intent.entry) := by
  unfold GraphArtifactGcOperation.detached
  split <;> simp_all

theorem forall_cleared_of_detached (h : ∀ e ∈ current.detached, C e) :
    ∀ e ∈ current.cleared, C e := by
  unfold GraphArtifactGcOperation.cleared
  split
  · simp
  · exact h

theorem forall_pending_of_entry (h : P current.intent.entry) : ∀ e ∈ current.pending, P e := by
  unfold GraphArtifactGcOperation.pending
  split
  · simp
  · simpa using h

/-- What `_operation` makes is about the entry of the operation that it continues. -/
theorem of_operationOf {now : ℤ} {state : GraphArtifactGcOperationState}
    {request : Option GraphArtifactPhysicalDeleteRequest}
    {quarantine : Option GraphArtifactQuarantineReceipt}
    {deletion : Option GraphArtifactDeletionReceipt}
    {errorCode : Option GraphArtifactResultErrorCode}
    (h : operationOf now current state request quarantine deletion errorCode = .ok candidate) :
    candidate.intent = current.intent ∧ candidate.request = request := by
  have hfields := create_eq_ok h
  constructor
  · rw [hfields]
  · rw [hfields]

/-- The handlers keep the entry, and what was detached before. -/
theorem of_handlerCandidate {now : ℤ} {raised : Raised}
    (h : handlerCandidate now current raised = .ok candidate) : candidate.intent = current.intent ∧
      (candidate.request = current.request ∨ candidate.request = none) := by
  unfold handlerCandidate at h
  split at h
  · split at h
    · obtain ⟨hintent, hrequest⟩ := of_operationOf h
      exact ⟨hintent, .inr hrequest⟩
    · obtain ⟨hintent, hrequest⟩ := of_operationOf h
      exact ⟨hintent, .inl hrequest⟩
  · obtain ⟨hintent, hrequest⟩ := of_operationOf h
    exact ⟨hintent, .inl hrequest⟩

/-- A candidate that is to be committed. -/
theorem within_committing (hP : P current.intent.entry) (hC : ∀ e ∈ current.detached, C e)
    (hintent : candidate.intent = current.intent)
    (hrequest : candidate.request ≠ none → C current.intent.entry) (final : Bool) (budget : ℕ) :
    (Progress.next (Phase.committing current candidate final budget)).Within P C := by
  constructor
  · intro e he
    simp only [Phase.pending, mem_cons, not_mem_nil, or_false, hintent, or_self] at he
    rw [he]
    exact hP
  · intro e he
    rcases mem_append.mp he with hcurrent | hcandidate
    · exact hC e hcurrent
    · refine forall_detached_iff.mpr ?_ e hcandidate
      rw [hintent]
      exact hrequest

/-- What the handlers lead to. -/
theorem within_handle (hP : P current.intent.entry) (hC : ∀ e ∈ current.detached, C e) (now : ℤ)
    (raised : Raised) (budget : ℕ) : (handle now current raised budget).Within P C := by
  unfold handle
  split
  · rename_i candidate hcandidate
    obtain ⟨hintent, hrequest⟩ := of_handlerCandidate hcandidate
    apply within_committing hP hC hintent
    intro hsome
    rcases hrequest with hsame | hnone
    · exact forall_detached_iff.mp hC (hsame ▸ hsome)
    · exact absurd hnone hsome
  · trivial

theorem within_commitRaised (hP : P current.intent.entry) (hC : ∀ e ∈ current.detached, C e)
    (now : ℤ) (final : Bool) (raised : Raised) (budget : ℕ) :
    (commitRaised now current final raised budget).Within P C := by
  unfold commitRaised
  split
  · trivial
  · exact within_handle hP hC now raised budget

/-- What a candidate of the `try` block leads to. -/
theorem within_commit (hP : P current.intent.entry) (hC : ∀ e ∈ current.detached, C e) (now : ℤ)
    (budget : ℕ) {made : Except GraphArtifactResultError (GraphArtifactGcOperation g)}
    (hmade : ∀ candidate, made = .ok candidate → candidate.intent = current.intent ∧
      (candidate.request ≠ none → C current.intent.entry)) :
    (commit now current budget made).Within P C := by
  unfold commit
  split
  · rename_i candidate
    obtain ⟨hintent, hrequest⟩ := hmade candidate rfl
    exact within_committing hP hC hintent hrequest false budget
  · exact within_handle hP hC now _ budget

theorem of_detachedCandidate {now : ℤ} {receipt : ArtifactCatalogGcDetachReceipt}
    (h : detachedCandidate now current receipt = .ok candidate) :
    candidate.intent = current.intent := by
  obtain ⟨request, -, h⟩ := bind_inv h
  exact (of_operationOf h).1

/-- Collecting a detached object asks for nothing new. -/
theorem within_collect (hP : P current.intent.entry) (hC : C current.intent.entry)
    (moment : Moment) (budget : ℕ) : (collect moment current budget).Within P C := by
  have hdetached : ∀ e ∈ current.detached, C e := forall_detached_iff.mpr fun _ => hC
  have hmade {state quarantine deletion errorCode} : ∀ candidate, operationOf moment.now current
      state current.request quarantine deletion errorCode = .ok candidate →
      candidate.intent = current.intent ∧ (candidate.request ≠ none → C current.intent.entry) :=
    fun candidate h => ⟨(of_operationOf h).1, fun _ => hC⟩
  unfold collect
  split
  · split
    · exact within_commit hP hdetached _ _ hmade
    · exact within_handle hP hdetached _ _ _
  · split
    · split
      · exact within_commit hP hdetached _ _ hmade
      · exact within_handle hP hdetached _ _ _
    · exact within_commit hP hdetached _ _ hmade

end Progress

/-! ## The invariant -/

section Invariant

variable {c : LocalJsonArtifactCatalog} {g : GovernanceDigests c.digests}

/-- The entries for whose decisions a preparation still stores operations. -/
def Preparation.pending (p : Preparation g) : List ArtifactCatalogEntry :=
  p.snapshot.entries.filter fun e =>
    decide (∃ decision ∈ p.decisions, decision.entryId = e.entryId c.digests)

/-- The entries that a call of a runtime may still prepare, detach or collect. -/
def Call.pending : Call g → List ArtifactCatalogEntry
  | .planning .. | .planned .. | .applying .. | .applyListing .. | .resuming .. => []
  | .storing p | .listing p | .preparing p | .recordingPrepared p => p.pending
  | .putting p prepared => prepared.intent.entry :: p.pending
  | .advancing phase _ => phase.pending

/-- The entries that it may collect without asking the catalog again. -/
def Call.cleared : Call g → List ArtifactCatalogEntry
  | .putting _ prepared => prepared.detached
  | .advancing phase _ => phase.cleared
  | _ => []

/-- The entries of the operations that are not at their end. -/
def GovernanceLedger.pending (ledger : GovernanceLedger g) : List ArtifactCatalogEntry :=
  ledger.operations.values.flatMap GraphArtifactGcOperation.pending

/-- The entries of those of them whose entry is detached. -/
def GovernanceLedger.cleared (ledger : GovernanceLedger g) : List ArtifactCatalogEntry :=
  ledger.operations.values.flatMap GraphArtifactGcOperation.cleared

/-- The entries whose collection is in progress. -/
def World.pending (w : World g) : List ArtifactCatalogEntry :=
  w.ledger.pending ++ w.calls.flatMap Call.pending

/-- The entries that may be collected without the catalog being asked again. -/
def World.cleared (w : World g) : List ArtifactCatalogEntry :=
  w.ledger.cleared ++ w.calls.flatMap Call.cleared

/-- An object in progress is named by its entry alone, and by none once its entry is detached. -/
structure Kept (state : c.State) (pending cleared : List ArtifactCatalogEntry) : Prop where
  pending : ∀ e ∈ pending, NamedBySelf state e
  cleared : ∀ e ∈ cleared, Unnamed state e

theorem kept_append {state : c.State} {pending cleared pending' cleared' : List ArtifactCatalogEntry} :
    Kept state (pending ++ pending') (cleared ++ cleared') ↔
      Kept state pending cleared ∧ Kept state pending' cleared' := by
  constructor
  · rintro ⟨hpending, hcleared⟩
    exact ⟨⟨fun e he => hpending e (mem_append_left _ he),
        fun e he => hcleared e (mem_append_left _ he)⟩,
      ⟨fun e he => hpending e (mem_append_right _ he),
        fun e he => hcleared e (mem_append_right _ he)⟩⟩
  · rintro ⟨h, h'⟩
    exact ⟨fun e he => (mem_append.mp he).elim (h.pending e) (h'.pending e),
      fun e he => (mem_append.mp he).elim (h.cleared e) (h'.cleared e)⟩

/-- What is kept of every element of a list. -/
theorem kept_flatMap {α : Type} {state : c.State} {xs : List α}
    {pending cleared : α → List ArtifactCatalogEntry} :
    Kept state (xs.flatMap pending) (xs.flatMap cleared) ↔
      ∀ x ∈ xs, Kept state (pending x) (cleared x) := by
  constructor
  · rintro ⟨hpending, hcleared⟩ x hx
    exact ⟨fun e he => hpending e (mem_flatMap.mpr ⟨x, hx, he⟩),
      fun e he => hcleared e (mem_flatMap.mpr ⟨x, hx, he⟩)⟩
  · intro h
    constructor
    · intro e he
      obtain ⟨x, hx, he⟩ := mem_flatMap.mp he
      exact (h x hx).pending e he
    · intro e he
      obtain ⟨x, hx, he⟩ := mem_flatMap.mp he
      exact (h x hx).cleared e he

theorem Kept.of_subset {state state' : c.State} {pending cleared : List ArtifactCatalogEntry}
    (h : Kept state pending cleared) (hsub : state'.entries.values ⊆ state.entries.values) :
    Kept state' pending cleared :=
  ⟨fun e he => (h.pending e he).of_subset hsub, fun e he => (h.cleared e he).of_subset hsub⟩

theorem kept_nil (state : c.State) : Kept state [] [] := by
  constructor <;> simp

variable {state : c.State} {ledger ledger' : GovernanceLedger g}
variable {operation : GraphArtifactGcOperation g}

theorem kept_of_held (hentry : NamedBySelf state operation.intent.entry)
    (hdetached : ∀ e ∈ operation.detached, Unnamed state e) :
    Kept state operation.pending operation.cleared :=
  ⟨forall_pending_of_entry hentry, forall_cleared_of_detached hdetached⟩

theorem kept_of_mem (h : Kept state ledger.pending ledger.cleared)
    (hmem : operation ∈ ledger.operations.values) :
    Kept state operation.pending operation.cleared :=
  kept_flatMap.mp h operation hmem

/-- A transaction that adds a kept operation and no other keeps the ledger. -/
theorem Kept.of_written (h : Kept state ledger.pending ledger.cleared)
    (hoperation : Kept state operation.pending operation.cleared)
    (hwritten : ∀ other ∈ ledger'.operations.values,
      other = operation ∨ other ∈ ledger.operations.values) :
    Kept state ledger'.pending ledger'.cleared := by
  apply kept_flatMap.mpr
  intro other hother
  rcases hwritten other hother with rfl | hold
  · exact hoperation
  · exact kept_of_mem h hold

theorem kept_advanceNext {queue : List (GraphArtifactGcOperation g)} {call : Call g}
    (h : call ∈ advanceNext queue) : Kept state call.pending call.cleared := by
  match queue with
  | [] => simp [advanceNext] at h
  | operation :: queue =>
    cases h
    exact kept_nil state

/-- A phase after which the call goes on keeps what the call holds. -/
theorem Progress.Within.kept {progress : Progress g}
    (h : progress.Within (NamedBySelf state) (Unnamed state))
    (queue : List (GraphArtifactGcOperation g)) :
    ∀ call ∈ progress.call queue, Kept state call.pending call.cleared := by
  intro call hcall
  match progress, h with
  | .next phase, h =>
    cases hcall
    exact ⟨h.1, h.2⟩
  | .returned, _ => exact kept_advanceNext hcall
  | .raised, _ => simp [Progress.call] at hcall

end Invariant

end ArtifactGovernance
