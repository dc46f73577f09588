/-
# Runs of the governance runtime

In every run of catalog calls, runtime calls and crashes: where no registration brings back the
object of a collection in progress, and no entry is detached before its plan was made, the
lifecycle port is never called for an object that a present entry names, and no entry is
detached while a reference to it is active.
-/
import AgoraHub.GcRuntimeSteps

namespace ArtifactGovernance

open Fallible GraphResult ArtifactCatalog List RecordDict StepRuns
open World (step)
open StepRuns (run)

section Runs

variable {c : LocalJsonArtifactCatalog} {g : GovernanceDigests c.digests}

/-! ## What is safe, and when -/

/-- The tenant and the ref that the lifecycle port is called with in the next step of a call. -/
def Call.collects : Call g → Option (String × String)
  | .advancing (.acting current _) _ =>
    match current.request, current.quarantine, current.deletion with
    | some request, none, _ => some (current.intent.tenantId, request.record.ref)
    | some _, some quarantine, none => some (current.intent.tenantId, quarantine.ref)
    | _, _, _ => none
  | _ => none

/-- The operation whose entry the next step of a call asks the catalog to detach. -/
def Call.detaching : Call g → Option (GraphArtifactGcOperation g)
  | .advancing (.acting current _) _ => if current.request = none then some current else none
  | _ => none

/-- The entry of an operation has no active reference. -/
def Unreferenced (state : c.State) (current : GraphArtifactGcOperation g) (now : ℤ) : Prop :=
  ∀ r ∈ state.references.values,
    r.entryId = current.intent.entry.entryId c.digests → r.isActiveAt now = false

/-- What an event has to spare: the lifecycle port is not called for an object that a present
entry names, and the catalog detaches no entry that has an active reference. -/
def World.StepSafe (w : World g) : Event c → Prop
  | .proceed running moment => ∀ call ∈ w.calls[running]?,
    (∀ object ∈ call.collects, ∀ e ∈ w.state.entries.values,
      ¬ (e.identity.tenantId = object.1 ∧ e.record.ref = object.2)) ∧
    ∀ current ∈ call.detaching, ∀ receipt,
      (detach moment current w.state).1 = .ok receipt → Unreferenced w.state current moment.now
  | _ => True

/-- A registration that adds an entry names no object of a present entry, of the collection of
another entry, or of an entry that is being collected. -/
def World.NamesFreeObject (w : World g) (request : ArtifactCatalogRegistrationRequest c.digests) :
    Prop :=
  NamesFreeRef w.state request ∧
    (w.state.entries.get? (c.digests.entryId request.record.catalogIdentity) = none →
      (∀ e ∈ w.pending, SameObject (.fromVerifiedRecord request) e →
        e.entryId c.digests = c.digests.entryId request.record.catalogIdentity) ∧
      ∀ e ∈ w.cleared, ¬ SameObject (.fromVerifiedRecord request) e)

instance (w : World g) (request : ArtifactCatalogRegistrationRequest c.digests) :
    Decidable (w.NamesFreeObject request) :=
  inferInstanceAs (Decidable (_ ∧ (_ → _ ∧ _)))

/-- The condition on an event: a registration names a free object, and no entry is detached at a
time before the one that its plan was made for. -/
def World.Spares (w : World g) : Event c → Prop
  | .client (.register request) => w.NamesFreeObject request
  | .proceed running moment => ∀ call ∈ w.calls[running]?, ∀ current ∈ call.detaching,
    current.intent.preparedAt ≤ moment.now
  | _ => True

instance (w : World g) (event : Event c) : Decidable (w.Spares event) := by
  unfold World.Spares
  split <;> infer_instance

/-- The invariant of a run. -/
structure World.Safe (w : World g) : Prop where
  unique : UniqueRefs w.state
  kept : Kept w.state w.pending w.cleared

/-! ## The catalog along a run -/

/-- The state after a call of the catalog holds what was there and what was registered. -/
theorem entries_of_advance {state : c.State} {call : CatalogCall c.digests}
    {e : ArtifactCatalogEntry} (h : e ∈ (c.advance state call).entries.values) :
    e ∈ state.entries.values ∨ ∃ request, call = .register request ∧
      state.entries.get? (c.digests.entryId request.record.catalogIdentity) = none ∧
      e = .fromVerifiedRecord request := by
  unfold LocalJsonArtifactCatalog.advance LocalJsonArtifactCatalog.settle at h
  split at h
  · exact .inl h
  · rename_i updated hupdate
    split at h
    · rcases CatalogCall.update_cases hupdate with hsub | ⟨request, entry, rfl, hr⟩
      · exact .inl (hsub h)
      -- the only call that adds an entry
      rw [hr.result] at h
      rcases get?_of_get?_put (mem_values.mp h) with rfl | hold
      · cases hpresent : state.entries.get? (e.entryId c.digests) with
        | some existing =>
          obtain rfl := hr.entry_kept existing hpresent
          exact .inl (mem_values.mpr hpresent)
        | none =>
          obtain ⟨hnew, -⟩ := hr.entry_new hpresent
          have hid : c.digests.entryId request.record.catalogIdentity = e.entryId c.digests := by
            rw [ArtifactCatalogEntry.entryId, hr.identity]
          exact .inr ⟨request, rfl, hid ▸ hpresent, hnew⟩
      · exact .inl (mem_values.mpr hold)
    · exact .inl h

/-- A step of a call leaves the catalog alone or makes one of its calls. -/
theorem state_of_proceed (call : Call g) (moment : Moment) (state : c.State)
    (ledger : GovernanceLedger g) : (call.proceed moment state ledger).1 = state ∨
      ∃ catalogCall, (call.proceed moment state ledger).1 = c.advance state catalogCall := by
  cases call with
  | storing p | putting p prepared => dsimp only [Call.proceed]; split <;> exact .inl rfl
  | advancing phase queue =>
    cases phase with
    | acting current budget =>
      dsimp only [Call.proceed, Phase.proceed]
      split
      · rcases state_of_detach moment current with hsame | hcall
        · exact .inl hsame
        · exact .inr ⟨_, hcall⟩
      · exact .inl rfl
    | committing current candidate final budget =>
      dsimp only [Call.proceed, Phase.proceed]
      split <;> exact .inl rfl
    | _ => exact .inl rfl
  | _ => exact .inl rfl

/-- An event leaves the catalog alone or makes one of its calls. -/
theorem state_of_step (w : World g) (event : Event c) : (w.step event).state = w.state ∨
      ∃ catalogCall, (w.step event).state = c.advance w.state catalogCall := by
  cases event with
  | client call => exact .inr ⟨_, rfl⟩
  | start call => exact .inl rfl
  | crash running => exact .inl rfl
  | proceed running moment =>
    unfold step
    dsimp only
    split
    · exact .inl rfl
    · exact state_of_proceed _ _ _ _

/-- No plan is lost or replaced, and an operation changes by accepted transitions alone: these keep
its intent and each receipt that it has, and none leads out of its end. -/
structure GovernanceLedger.Grows (ledger ledger' : GovernanceLedger g) : Prop where
  plans : ∀ k row, ledger.plans.get? k = some row → ledger'.plans.get? k = some row
  operations : ∀ k o, ledger.operations.get? k = some o →
    ∃ o', ledger'.operations.get? k = some o' ∧ Relation.ReflTransGen Follows o o'

namespace GovernanceLedger.Grows

variable {ledger ledger' ledger'' : GovernanceLedger g}

theorem refl (ledger : GovernanceLedger g) : ledger.Grows ledger :=
  ⟨fun _ _ => id, fun _ o h => ⟨o, h, .refl⟩⟩

theorem trans (h : ledger.Grows ledger') (h' : ledger'.Grows ledger'') : ledger.Grows ledger'' where
  plans k row hrow := h'.plans k row (h.plans k row hrow)
  operations k o ho := by
    obtain ⟨o', ho', hleads⟩ := h.operations k o ho
    obtain ⟨o'', ho'', hleads'⟩ := h'.operations k o' ho'
    exact ⟨o'', ho'', hleads.trans hleads'⟩

theorem of_putGcPlan {tenantId : String} {plan stored : ArtifactCatalogGcPlan}
    (h : ledger.putGcPlan tenantId plan = .ok (ledger', stored)) : ledger.Grows ledger' := by
  obtain ⟨-, h⟩ := check_inv h
  split at h
  · obtain ⟨-, h⟩ := check_inv h
    cases h
    exact .refl _
  · rename_i hnone
    cases h
    exact ⟨fun k row => get?_put_of_get? (by simp [GcPlanRow.planChecksum, hnone]),
      (refl ledger).operations⟩

theorem of_putGcOperation {operation stored : GraphArtifactGcOperation g}
    (h : ledger.putGcOperation operation = .ok (ledger', stored)) : ledger.Grows ledger' := by
  obtain ⟨-, h⟩ := check_inv h
  split at h
  · obtain ⟨-, h⟩ := check_inv h
    cases h
    exact .refl _
  · rename_i hnone
    cases h
    exact ⟨fun _ _ => id, fun k o ho => ⟨o, get?_put_of_get? (by simp [hnone]) ho, .refl⟩⟩

theorem of_compareAndSet {operation stored : GraphArtifactGcOperation g} {checksum : HexDigest}
    (h : ledger.compareAndSetGcOperation operation checksum = .ok (ledger', stored)) :
    ledger.Grows ledger' := by
  obtain ⟨current, hcurrent, h⟩ := bind_inv h
  split at h
  · cases h
    exact .refl _
  · obtain ⟨-, h⟩ := check_inv h
    obtain ⟨hfollows, h⟩ := check_inv h
    cases h
    refine ⟨fun _ _ => id, fun k o ho => ?_⟩
    by_cases hk : operation.operationId g = k
    · subst hk
      obtain rfl := Option.some.inj (ho.symm.trans (orRaise_eq_ok.mp hcurrent))
      exact ⟨operation, get?_put_self _ _, .single (of_require hfollows)⟩
    · exact ⟨o, by rw [get?_put, if_neg hk, ho], .refl⟩

end GovernanceLedger.Grows

/-- A step of a call writes through the calls of the ledger only. -/
theorem grows_of_proceed (call : Call g) (moment : Moment) (state : c.State)
    (ledger : GovernanceLedger g) : ledger.Grows (call.proceed moment state ledger).2.1 := by
  cases call with
  | storing p =>
    dsimp only [Call.proceed]
    split
    · rename_i hport
      exact .of_putGcPlan (of_port hport)
    · exact .refl _
  | putting p prepared =>
    dsimp only [Call.proceed]
    split
    · rename_i hport
      exact .of_putGcOperation (of_port hport)
    · exact .refl _
  | advancing phase queue =>
    cases phase with
    | acting current budget =>
      dsimp only [Call.proceed, Phase.proceed]
      split <;> exact .refl _
    | committing current candidate final budget =>
      dsimp only [Call.proceed, Phase.proceed]
      split
      · rename_i hport
        exact .of_compareAndSet (of_port hport)
      · exact .refl _
      · exact .refl _
    | _ => exact .refl _
  | _ => exact .refl _

/-- In every run, also of calls that crash and of calls that race, nothing that the ledger holds of a
collection is lost or changed. -/
theorem ledger_grows_run (w : World g) (events : List (Event c)) :
    w.ledger.Grows (run step w events).ledger := by
  induction events generalizing w with
  | nil => exact .refl _
  | cons event events ih =>
    refine GovernanceLedger.Grows.trans ?_ (ih (w.step event))
    cases event with
    | proceed running moment =>
      unfold step
      dsimp only
      split
      · exact .refl _
      · exact grows_of_proceed _ _ _ _
    | _ => exact .refl _

/-! ## The invariant along a run -/

theorem World.Safe.start : (World.start g).Safe where
  unique e he := by
    have hget := mem_values.mp he
    simp [World.start, CatalogState.empty] at hget
  kept := by
    apply kept_append.mpr
    exact ⟨kept_flatMap.mpr fun operation hoperation => by
      have hget := mem_values.mp hoperation
      simp [World.start, GovernanceLedger.empty] at hget, kept_nil _⟩

variable {w : World g}

/-- The calls that remain after one has made a step. -/
theorem mem_of_replaceCall {calls : List (Call g)} {running : ℕ} {next : Option (Call g)}
    {call : Call g} (h : call ∈ replaceCall calls running next) : call ∈ calls ∨ call ∈ next := by
  unfold replaceCall at h
  split at h
  · rename_i next
    rcases mem_or_eq_of_mem_set h with hold | rfl
    · exact .inl hold
    · exact .inr rfl
  · exact .inl (mem_of_mem_eraseIdx h)

theorem World.Safe.kept_iff :
    Kept w.state w.pending w.cleared ↔ Kept w.state w.ledger.pending w.ledger.cleared ∧
      ∀ call ∈ w.calls, Kept w.state call.pending call.cleared := by
  rw [← kept_flatMap]
  exact kept_append

/-- A call of a user keeps the invariant, if a registration names a free object. -/
theorem World.Safe.client (h : w.Safe) {call : CatalogClientCall c.digests}
    (hspares : w.Spares (.client call)) : (w.step (.client call)).Safe := by
  have hentries : ∀ e ∈ (w.step (.client call)).state.entries.values,
      e ∈ w.state.entries.values ∨ ∃ request, call = .register request ∧
        w.state.entries.get? (c.digests.entryId request.record.catalogIdentity) = none ∧
        e = .fromVerifiedRecord request := by
    intro e he
    rcases entries_of_advance he with hold | ⟨request, hcall, hnone, hnew⟩
    · exact .inl hold
    · refine .inr ⟨request, ?_, hnone, hnew⟩
      cases call with
      | register request' => exact congrArg _ (CatalogCall.register.inj hcall)
      | _ => simp [CatalogClientCall.catalogCall] at hcall
  refine ⟨?_, ?_, ?_⟩
  · show UniqueRefs (c.advance w.state call.catalogCall)
    have hfree : CallNamesFreeRef w.state call.catalogCall := by
      cases call with
      | register request => exact hspares.1
      | _ => trivial
    unfold LocalJsonArtifactCatalog.advance LocalJsonArtifactCatalog.settle
    split
    · exact h.unique
    · split
      · exact h.unique.update hfree ‹_›
      · exact h.unique
  · intro entry hentry e he hsame
    rcases hentries e he with hold | ⟨request, rfl, hnone, rfl⟩
    · exact h.kept.pending entry hentry e hold hsame
    · exact ((hspares.2 hnone).1 entry hentry hsame).symm
  · intro entry hentry e he hsame
    rcases hentries e he with hold | ⟨request, rfl, hnone, rfl⟩
    · exact h.kept.cleared entry hentry e hold hsame
    · exact (hspares.2 hnone).2 entry hentry hsame

/-- A step of a running call keeps the invariant. -/
theorem World.Safe.proceed (h : w.Safe) (running : ℕ) (moment : Moment) :
    (w.step (.proceed running moment)).Safe := by
  obtain ⟨hledger, hcalls⟩ := World.Safe.kept_iff.mp h.kept
  unfold step
  dsimp only
  split
  · exact h
  · rename_i call hcall
    have hmem : call ∈ w.calls := mem_of_getElem? hcall
    obtain ⟨hsub, hledger', hnext⟩ := Call.proceed_kept h.unique hledger (hcalls call hmem) moment
    refine ⟨h.unique.of_subset hsub, World.Safe.kept_iff.mpr ⟨hledger', fun other hother => ?_⟩⟩
    rcases mem_of_replaceCall hother with hold | hnew
    · exact (hcalls other hold).of_subset hsub
    · exact hnext other hnew

/-- Every event that spares what is in progress keeps the invariant. -/
theorem World.Safe.step (w : World g) (event : Event c) (h : w.Safe) (hspares : w.Spares event) :
    (w.step event).Safe := by
  obtain ⟨hledger, hcalls⟩ := World.Safe.kept_iff.mp h.kept
  cases event with
  | client call => exact h.client hspares
  | proceed running moment => exact h.proceed running moment
  | start call =>
    refine ⟨h.unique, World.Safe.kept_iff.mpr ⟨hledger, fun other hother => ?_⟩⟩
    rcases mem_append.mp hother with hold | hnew
    · exact hcalls other hold
    · obtain rfl := mem_singleton.mp hnew
      cases call <;> exact kept_nil _
  | crash running =>
    refine ⟨h.unique, World.Safe.kept_iff.mpr ⟨hledger, fun other hother => ?_⟩⟩
    exact hcalls other (mem_of_mem_eraseIdx hother)

/-! ## Safety -/

theorem isActiveAt_of_le {r : ArtifactLogicalReference} {now now' : ℤ} (hle : now ≤ now')
    (h : r.isActiveAt now' = true) : r.isActiveAt now = true := by
  unfold ArtifactLogicalReference.isActiveAt at h ⊢
  split
  · rfl
  · rename_i expiresAt hexpires
    rw [hexpires] at h
    exact decide_eq_true (lt_of_le_of_lt hle (of_decide_eq_true h))

/-- An entry that is detached has no active reference from the time of its plan on. -/
theorem unreferenced_of_detach {state : c.State} {moment : Moment}
    {current : GraphArtifactGcOperation g} {receipt : ArtifactCatalogGcDetachReceipt}
    (h : (detach moment current state).1 = .ok receipt)
    (htime : current.intent.preparedAt ≤ moment.now) : Unreferenced state current moment.now := by
  obtain ⟨entry, hentry, hdecision, -⟩ := of_detach h
  have hid := id_of_get? hentry
  have haction : (state.decisionOf entry current.intent.preparedAt).action = .deleteCandidate := by
    rw [hdecision]
    exact current.intent.decided.1
  have hnone := active_eq_nil_of_delete haction
  intro r hr hof
  by_contra hactive
  have hbefore := isActiveAt_of_le htime (Bool.not_eq_false _ ▸ hactive)
  have hmem : r ∈ ((state.referencesForEntry (entry.entryId c.digests)).filter fun reference =>
      reference.isActiveAt current.intent.preparedAt).values := by
    rw [mem_values, get?_filter, CatalogState.referencesForEntry,
      get?_filter, mem_values.mp hr]
    simp [hof, hid, hbefore]
  rw [hnone] at hmem
  simp at hmem

/-- A step of a run that meets the invariant is safe. -/
theorem World.Safe.stepSafe (w : World g) (event : Event c) (h : w.Safe)
    (hspares : w.Spares event) : w.StepSafe event := by
  cases event with
  | proceed running moment =>
    intro call hcall
    have hkept := (World.Safe.kept_iff.mp h.kept).2 call (mem_of_getElem? hcall)
    constructor
    · intro object hobject e he hsame
      unfold Call.collects at hobject
      split at hobject
      · rename_i current budget queue
        -- the object of the request and of the quarantine is that of the entry
        have hdetached : current.request ≠ none → ¬ SameObject e current.intent.entry :=
          fun hrequest => forall_detached_iff.mp hkept.cleared hrequest e he
        have htenant := current.intent.entry_of.2.1
        split at hobject
        · rename_i request _ hrequest _
          cases hobject
          refine hdetached (by simp [hrequest]) ⟨hsame.1.trans htenant.symm, ?_⟩
          rw [← current.record_of_request hrequest]
          exact hsame.2
        · rename_i quarantine hrequest hquarantine _
          cases hobject
          obtain ⟨hsome, href⟩ := current.ref_of_quarantine hquarantine
          exact hdetached hsome ⟨hsame.1.trans htenant.symm, hsame.2.trans href⟩
        · simp at hobject
      · simp at hobject
    · intro current hcurrent receipt hreceipt
      exact unreferenced_of_detach hreceipt (hspares call hcall current hcurrent)
  | _ => trivial

/-- In every run whose registrations name free objects and whose detaches come after their plans,
no object of a present entry is collected and no referenced entry is detached. -/
theorem stepsSafe_of_spares (g : GovernanceDigests c.digests) (events : List (Event c))
    (hspares : StepRuns.Along step World.Spares (World.start g) events) :
    StepRuns.Along step World.StepSafe (World.start g) events :=
  along_of_invariant World.Safe.step World.Safe.stepSafe World.Safe.start hspares

end Runs

/-! ## Content that is registered again -/

namespace Sample

/-- The content of the file. -/
def content : HexDigest :=
  .ofNat 0x982d9e3eb996f559e633f4d194def3761d909f5a3b647d1a851fead67c32c9d1

/-- The digests of the texts that the runs below hash. -/
def digests : CatalogDigests where
  entry _ := .ofNat 0xea67158ba6be793ddbc1d8565d1b0b160c1e7c5e0e43a06c82dcf6576738b8c4
  claim _ := .ofNat 0x6a245f53f1e5b0b32e6eb7f9548eba3c7a6c2894bd3e8c51f3801aff084dc80c
  reference _ := .ofNat 0xb8742ece1b0a419dd676e08bddf24c7cd099e8c9c7d419ee7b62b05f31ed7c6f

/-- A catalog with the default bounds. -/
def catalog : LocalJsonArtifactCatalog where
  maxEntries := 100000
  maxClaims := 1000000
  maxReferences := 1000000
  maxStateBytes := 128 * 1024 * 1024
  positive := CatalogBounds.default_positive
  digests := digests
  stateDigest payload :=
    if payload.entries = [] then
      .ofNat 0xb55ef34687a9761550a1c3efb2bc18eaf490c5e45e224675e321a70787f8848d
    else .ofNat 0x15ddf03b73efed5f4cc0850515e3a8cf9e064cc89fa1e6d27719a47ac4c2e956
  issueDigest _ := content
  encodedLength doc := if doc.entries = [] then 188 else 2390

/-- The digests of the records of its collection. -/
def governance : GovernanceDigests catalog.digests where
  snapshot _ := .ofNat 0x54678af00596df74f3a92d84399928598f205be73bd6e7e7fbce16352fc1a479
  decision _ := .ofNat 0x4f98ed27f8fead017f91d6658cbe93f2c3744bfb8b6dcdc832ba7c1f5530d1eb
  plan _ := .ofNat 0xd040b92882b39715fa89648d7e208625f54b4ec7a252b0c268f5d07df231cce3
  operationId _ := .ofNat 0x59d8118f7d5ac77ae1a71c065ea17683d0cfbcbc06236ad201fbee683dfd8305
  quarantine _ := .ofNat 0x1be400e24b114c1ae3045dee6a7741e9a534b5021fd63ea918637c8b07f16470
  operation fields :=
    match fields.state with
    | .prepared => .ofNat 0xecf79c88cc5a843a4127a3da85bfa3fe455d56ec36cb82de480e18617af789cb
    | .catalogDetached => .ofNat 0x6013176d6a7b52aecfa87ece4fd3817889bc840857dfd4223b069ff111dcbebd
    | .quarantined => .ofNat 0x8d65f9c43fae7a2051f3caceba09606851fcf7ceb09a76df9f071ab9380a77d7
    | .purged => .ofNat 0xc51d1eaa8c4f5e773e6135997b6163edc08b8966d91679ed02de02f9e1b2a7ba
    | _ => .ofNat 0xe1d7953be5f86ce6c0aa6a77021eecd34bced7db1c10e05fe65d9f6dfa8dfcd3

/-- A cached artifact that expires at the second 20. -/
def record : ArtifactRecord where
  ref := "artifact://run-1/first"
  artifactId := "artifact-1"
  artifactType := "note"
  contentChecksum := content
  byteSize := 4
  mediaType := "text/plain"
  artifactClass := .intermediate
  tenantId := "tenant-1"
  runId := "run-1"
  graphId := "graph-1"
  nodeId := "node-1"
  attemptId := "attempt-1"
  producerRevision := "writer@1"
  sensitivity := .internal
  reusable := false
  dependencyDigest := none
  retentionClass := .cache
  expiresAt := some 20000000
  requiredForReplay := false
  requiredForPublication := false
  createdAt := 10000000
  dependency_known := Bool.noConfusion
  expires_after := (by simp : ∀ e ∈ some (20000000 : ℤ), e > 10000000)

/-- Its registration. -/
def cached : ArtifactCatalogRegistrationRequest catalog.digests where
  record := record
  verification := ⟨"tenant-1", "artifact://run-1/first", content, 4, "text/plain", 10000000⟩
  initialReference := ⟨catalog.digests.entryId record.catalogIdentity, "tenant-1", "run-1",
    "artifact-1", .cache, some 20000000, 10000000, record.expires_after, .refl true⟩
  verified := ⟨rfl, rfl, rfl, rfl, rfl, le_refl _⟩
  initial := ⟨rfl, rfl, rfl, rfl, rfl, rfl, rfl⟩

/-- The id of the operation that collects it. -/
def operationId : String := "graph-artifact-gc://" ++ (governance.operationId
  ⟨"tenant-1", .ofNat 0, .ofNat 0⟩).text

/-- What the lifecycle port returns for the quarantine. -/
def quarantined : GraphArtifactQuarantineReceipt :=
  ⟨operationId, "artifact://run-1/first", content, 4, 32000000⟩

/-- What it returns for the purge. -/
def deleted : GraphArtifactDeletionReceipt :=
  ⟨operationId, governance.quarantine quarantined, "artifact://run-1/first", content, 4, 33000000⟩

/-- The running call makes some steps, at one time. -/
def steps (count : ℕ) (now : ℤ) : List (Event catalog) :=
  List.replicate count (.proceed 0 ⟨now, .returns⟩)

/-- The artifact is registered, it expires, its collection is prepared, and `resume_gc` has detached
it and is about to quarantine its object. -/
def collecting : List (Event catalog) :=
  [.client (.register cached),
    .start (.prepareGc "tenant-1" "graph-artifact-policy@1" 30000000)] ++ steps 8 30000000 ++
  [.start (.resumeGc "tenant-1" 100)] ++ steps 7 31000000

/-- The object is quarantined and purged, and the operation is completed. -/
def collected : List (Event catalog) :=
  [.proceed 0 ⟨32000000, .quarantined quarantined⟩] ++ steps 3 32000000 ++
  [.proceed 0 ⟨33000000, .deleted deleted⟩] ++ steps 3 33000000 ++ steps 5 34000000

/-- The artifact is registered again once its collection has completed. -/
theorem stepsSafe_afterCompletion :
    StepRuns.Along step World.StepSafe (World.start governance)
      (collecting ++ collected ++ [.client (.register cached)]) :=
  stepsSafe_of_spares governance _ (by decide +kernel)

/-- The artifact is registered again between its detachment and its quarantine: the lifecycle port
is called for the object that the new entry names. -/
theorem not_stepsSafe_duringCollection :
    ¬ StepRuns.Along step World.StepSafe (World.start governance)
      (collecting ++ [.client (.register cached),
        .proceed 0 ⟨32000000, .quarantined quarantined⟩]) := by
  intro h
  have hlast := (along_append.mp h).2.2.1
  have hnamed : ∃ call ∈ ((run step (World.start governance) collecting).step
        (.client (.register cached))).calls[0]?, ∃ object ∈ call.collects,
      ∃ e ∈ ((run step (World.start governance) collecting).step
        (.client (.register cached))).state.entries.values,
        e.identity.tenantId = object.1 ∧ e.record.ref = object.2 := by
    decide +kernel
  obtain ⟨call, hcall, object, hobject, e, he, hsame⟩ := hnamed
  exact (hlast call hcall).1 object hobject e he hsame

end Sample

end ArtifactGovernance
