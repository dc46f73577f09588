/-
# Retention of shared content

Several records can be registered under one entry, and the entry keeps the first of them.
What `plan_gc` decides about such an entry, for every order of the registrations, and
when the decision respects the retention of all the records.
-/
import AgoraHub.CatalogRuns

namespace ArtifactCatalog

open Fallible GraphResult List Option LocalJsonArtifactCatalog RecordDict

/-! ## Retention -/

/-- The rule that `_gc_decision` applies to the record of an entry. -/
def ArtifactRecord.AllowsDeletion (record : ArtifactRecord) (now : ℤ) : Prop :=
  record.requiredForReplay = false ∧ record.requiredForPublication = false ∧
    ∃ e ∈ record.expiresAt, e ≤ now

instance (record : ArtifactRecord) (now : ℤ) : Decidable (record.AllowsDeletion now) :=
  inferInstanceAs (Decidable (_ ∧ _))

/-- An entry is a candidate if nothing refers to it and its record allows the deletion. -/
theorem gcAction_eq (record : ArtifactRecord) (active : List ArtifactLogicalReference) (now : ℤ) :
    (gcAction record active now).1 =
      if active = [] ∧ record.AllowsDeletion now then .deleteCandidate else .keep := by
  by_cases hactive : active = []
  · subst hactive
    unfold gcAction ArtifactRecord.AllowsDeletion
    by_cases hreplay : record.requiredForReplay = true
    · simp [hreplay]
    · by_cases hpublication : record.requiredForPublication = true
      · simp [hreplay, hpublication]
      · obtain hexpires | ⟨e, hexpires⟩ := eq_none_or_eq_some record.expiresAt
        · simp [hreplay, hpublication, hexpires]
        · by_cases hlater : now < e
          · simp [hreplay, hpublication, hexpires, hlater]
          · simp [hreplay, hpublication, hexpires, hlater, not_lt.mp hlater]
  · have hkept : (gcAction record active now).1 ≠ .deleteCandidate :=
      fun h => hactive (active_eq_nil_of_delete h)
    rw [if_neg (fun h => hactive h.1)]
    cases haction : (gcAction record active now).1 with
    | keep => rfl
    | deleteCandidate => exact absurd haction hkept

/-! ## Histories -/

section Histories

variable (c : LocalJsonArtifactCatalog)

/-- The store after a call that returns. -/
def LocalJsonArtifactCatalog.performOk (store : CatalogStore) (call : CatalogCall c.digests) :
    Except GraphArtifactResultError CatalogStore :=
  match c.perform store call with
  | (.ok _, store') => .ok store'
  | (.error e, _) => .error e

/-- The store after calls that all return. -/
def LocalJsonArtifactCatalog.performAll (store : CatalogStore)
    (calls : List (CatalogCall c.digests)) : Except GraphArtifactResultError CatalogStore :=
  calls.foldlM c.performOk store

/-- Registrations in the given order, and then retirements. -/
def history {d : CatalogDigests} (order : List (ArtifactCatalogRegistrationRequest d))
    (retirements : List ArtifactReferenceRetirementRequest) : List (CatalogCall d) :=
  order.map .register ++ retirements.map .retireReference

/-- The action that `plan_gc` plans for an entry. -/
def LocalJsonArtifactCatalog.plannedAction (store : CatalogStore) (now : ℤ) (entryId : String) :
    Except GraphArtifactResultError (Option ArtifactCatalogGcAction) := do
  let decisions ← c.planGc store now none
  .ok ((decisions.find? fun decision => decide (decision.entryId = entryId)).map (·.action))

/-- Some initial reference of the requests is left by the retirements and active. -/
def SurvivingReference {d : CatalogDigests} (requests : List (ArtifactCatalogRegistrationRequest d))
    (retirements : List ArtifactReferenceRetirementRequest) (now : ℤ) : Prop :=
  ∃ q ∈ requests, q.initialReference.isActiveAt now = true ∧
    q.initialReference.referenceId d ∉ retirements.map fun r => r.reference.referenceId d

instance {d : CatalogDigests} (requests : List (ArtifactCatalogRegistrationRequest d))
    (retirements : List ArtifactReferenceRetirementRequest) (now : ℤ) :
    Decidable (SurvivingReference requests retirements now) :=
  inferInstanceAs (Decidable (∃ q ∈ requests, _))

/-- The retention of all requests is respected, in every order of the registrations. -/
structure RetentionRespected (start : CatalogStore) (entryId : String)
    (requests : List (ArtifactCatalogRegistrationRequest c.digests))
    (retirements : List ArtifactReferenceRetirementRequest) (now : ℤ) : Prop where
  /-- The planned action does not depend on the order. -/
  order_independent : ∀ order order' store store', order.Perm requests → order'.Perm requests →
    c.performAll start (history order retirements) = .ok store →
    c.performAll start (history order' retirements) = .ok store' →
    c.plannedAction store now entryId = c.plannedAction store' now entryId
  /-- An entry is only a candidate without active references. -/
  inactive_of_delete : ∀ order store state, order.Perm requests →
    c.performAll start (history order retirements) = .ok store → c.readState store = .ok state →
    c.plannedAction store now entryId = .ok (some .deleteCandidate) →
    ∀ r ∈ (state.referencesForEntry entryId).values, r.isActiveAt now = false
  /-- An entry is only a candidate if every registered record allows its deletion. -/
  allowed_of_delete : ∀ order store, order.Perm requests →
    c.performAll start (history order retirements) = .ok store →
    c.plannedAction store now entryId = .ok (some .deleteCandidate) →
    ∀ q ∈ requests, q.record.AllowsDeletion now

end Histories

section Retention

variable {c : LocalJsonArtifactCatalog} {store store' : CatalogStore} {state : c.State}
  {entryId : String}

/-- The state after updates that all fit. -/
def LocalJsonArtifactCatalog.updateAll (c : LocalJsonArtifactCatalog) (state : c.State)
    (calls : List (CatalogCall c.digests)) : Except GraphArtifactResultError c.State :=
  calls.foldlM (fun state call => do
    let updated ← call.update c.toCatalogBounds state
    require (c.encodedLength (c.document updated) ≤ c.maxStateBytes)
      ⟨.artifactQuotaExceeded, "catalog.state_bytes"⟩
    .ok updated) state

/-- A call whose update fits returns. -/
theorem Holds.performOk_of_update (h : Holds c store state) {call : CatalogCall c.digests}
    {updated : c.State} (hupdate : call.update c.toCatalogBounds state = .ok updated)
    (hsize : c.encodedLength (c.document updated) ≤ c.maxStateBytes) :
    ∃ store', c.performOk store call = .ok store' ∧ Holds c store' updated := by
  have hadvance : c.advance state call = updated := by
    rw [LocalJsonArtifactCatalog.advance, hupdate, LocalJsonArtifactCatalog.settle, if_pos hsize]
  have hreturns : ∀ {α : Type} {f : c.State → Except GraphArtifactResultError (c.State × α)},
      (f state).map Prod.fst = .ok updated →
      ((c.mutate f store).map (Except.map fun _ => ()) id).1 = .ok () := by
    intro α f hf
    obtain ⟨result, hresult⟩ := of_map_fst hf
    unfold LocalJsonArtifactCatalog.mutate
    rw [h.readState]
    dsimp only
    rw [hresult]
    dsimp only
    by_cases hsame : updated = state
    · rw [if_pos hsame]
      rfl
    · rw [if_neg hsame, if_pos hsize]
      rfl
  have hok : (c.perform store call).1 = .ok () := by
    cases call with
    | register request => exact hreturns (f := fun s => s.register c.toCatalogBounds request) hupdate
    | addReference reference =>
      exact hreturns (f := fun s => s.addReference c.toCatalogBounds reference) hupdate
    | removeReference tenantId referenceId =>
      exact hreturns (f := fun s => s.removeReference tenantId referenceId) hupdate
    | retireReference request => exact hreturns (f := fun s => s.retireReference request) hupdate
    | detachGcCandidate request =>
      exact hreturns (f := fun s => s.detachGcCandidate request) hupdate
  refine ⟨c.apply store call, ?_, hadvance ▸ h.apply call⟩
  unfold performOk
  rcases hperform : c.perform store call with ⟨e | u, after⟩
  · rw [hperform] at hok
    simp at hok
  · rw [LocalJsonArtifactCatalog.apply, hperform]

/-- Calls whose updates fit all return. -/
theorem Holds.performAll_of_updates (calls : List (CatalogCall c.digests)) :
    ∀ {store : CatalogStore} {state updated : c.State}, Holds c store state →
      c.updateAll state calls = .ok updated →
      ∃ store', c.performAll store calls = .ok store' ∧ Holds c store' updated := by
  induction calls with
  | nil =>
    intro store state updated h hall
    obtain rfl : state = updated := ok_inj hall
    exact ⟨store, rfl, h⟩
  | cons call calls ih =>
    intro store state updated h hall
    obtain ⟨next, hnext, hrest⟩ := bind_inv hall
    obtain ⟨first, hupdate, hnext⟩ := bind_inv hnext
    obtain ⟨hsize, hnext⟩ := check_inv hnext
    obtain rfl : first = next := ok_inj hnext
    obtain ⟨store₁, hcall, h₁⟩ := h.performOk_of_update hupdate (of_require hsize)
    obtain ⟨store', hcalls, h'⟩ := ih h₁ hrest
    refine ⟨store', ?_, h'⟩
    rw [performAll, foldlM_cons, hcall, ok_bind]
    exact hcalls

/-- A call that returns has updated the state that the store holds. -/
theorem Holds.performOk (h : Holds c store state) {call : CatalogCall c.digests}
    (hcall : c.performOk store call = .ok store') :
    ∃ state', call.update c.toCatalogBounds state = .ok state' ∧ Holds c store' state' := by
  obtain ⟨u, hcall⟩ : ∃ u, c.perform store call = (.ok u, store') := by
    unfold LocalJsonArtifactCatalog.performOk at hcall
    split at hcall
    · rename_i u after hperform
      exact ⟨u, by rw [hperform, ok_inj hcall]⟩
    · simp at hcall
  -- every call reads the document, changes the state and writes it back if it has changed
  have hmutate : ∀ {α : Type} {f : c.State → Except GraphArtifactResultError (c.State × α)},
      (c.mutate f store).map (Except.map fun _ => ()) id = (.ok u, store') →
      ∃ updated, (f state).map Prod.fst = .ok updated ∧
        (updated = state ∧ store' = store ∨ c.encodedLength (c.document updated) ≤ c.maxStateBytes ∧
            store' = some (c.document updated)) := by
    intro α f hf
    unfold LocalJsonArtifactCatalog.mutate at hf
    rw [h.readState] at hf
    dsimp only at hf
    rcases hresult : f state with e | ⟨updated, result⟩
    · simp [hresult, Except.map] at hf
    · refine ⟨updated, rfl, ?_⟩
      rw [hresult] at hf
      dsimp only at hf
      split at hf
      · exact .inl ⟨‹_›, (Prod.mk.inj hf).2.symm⟩
      · split at hf
        · exact .inr ⟨‹_›, (Prod.mk.inj hf).2.symm⟩
        · simp [Except.map] at hf
  have hupdated : ∃ updated, call.update c.toCatalogBounds state = .ok updated ∧
      (updated = state ∧ store' = store ∨ c.encodedLength (c.document updated) ≤ c.maxStateBytes ∧
        store' = some (c.document updated)) := by
    cases call with
    | register request => exact hmutate (f := fun s => s.register c.toCatalogBounds request) hcall
    | addReference reference =>
      exact hmutate (f := fun s => s.addReference c.toCatalogBounds reference) hcall
    | removeReference tenantId referenceId =>
      exact hmutate (f := fun s => s.removeReference tenantId referenceId) hcall
    | retireReference request => exact hmutate (f := fun s => s.retireReference request) hcall
    | detachGcCandidate request => exact hmutate (f := fun s => s.detachGcCandidate request) hcall
  obtain ⟨updated, hupdate, ⟨rfl, rfl⟩ | ⟨hsize, rfl⟩⟩ := hupdated
  · exact ⟨updated, hupdate, h⟩
  · exact ⟨updated, hupdate, h.consistent.update hupdate, .inr ⟨rfl, hsize⟩⟩

/-! ## Registrations -/

/-- The state after the registrations of a list that share an entry, as far as the entry is
concerned. -/
structure RegisteredFor (entryId : String)
    (requests : List (ArtifactCatalogRegistrationRequest c.digests)) (retired : List String)
    (state : c.State) : Prop where
  entry_eq : state.entries.get? entryId = requests.head?.map .fromVerifiedRecord
  mem_references : ∀ r : ArtifactLogicalReference, r.entryId = entryId →
    (state.references.get? (r.referenceId c.digests) = some r ↔
      (∃ q ∈ requests, q.initialReference = r) ∧ r.referenceId c.digests ∉ retired)

/-- A state without the entry. -/
theorem registeredFor_nil (h : Consistent c.toCatalogBounds state)
    (hfresh : state.entries.get? entryId = none) : RegisteredFor entryId [] [] state where
  entry_eq := by simp [hfresh]
  mem_references r hr := by
    constructor
    · intro hget
      obtain ⟨entry, hentry, -⟩ := h.reference_entry _ _ hget
      rw [hr, hfresh] at hentry
      simp at hentry
    · rintro ⟨⟨q, hq, -⟩, -⟩
      simp at hq

variable {requests : List (ArtifactCatalogRegistrationRequest c.digests)}

/-- One more registration under the entry. -/
theorem RegisteredFor.register (h : RegisteredFor entryId requests [] state)
    {q : ArtifactCatalogRegistrationRequest c.digests}
    (hq : c.digests.entryId q.record.catalogIdentity = entryId) {entry : ArtifactCatalogEntry}
    {state' : c.State} (hr : Registers c.toCatalogBounds state q entry state') :
    RegisteredFor entryId (requests ++ [q]) [] state' := by
  obtain rfl := hr.result
  have hid : entry.entryId c.digests = entryId := by
    rw [ArtifactCatalogEntry.entryId, hr.identity, hq]
  constructor
  · have hhead : entry = ((requests ++ [q]).head?.map .fromVerifiedRecord).getD entry := by
      cases requests with
      | nil => exact (hr.entry_new (by rw [hid, h.entry_eq]; rfl)).1
      | cons first rest => exact (hr.entry_kept _ (by rw [hid, h.entry_eq]; rfl)).symm
    rw [get?_put, if_pos hid]
    cases requests <;> exact congrArg some hhead
  · intro r hrid
    simp only [mem_append, mem_singleton, not_mem_nil, not_false_eq_true, and_true]
    constructor
    · intro hget
      rcases get?_of_get?_put hget with rfl | hold
      · exact ⟨q, .inr rfl, rfl⟩
      · obtain ⟨⟨p, hp, hpr⟩, -⟩ := (h.mem_references r hrid).mp hold
        exact ⟨p, .inl hp, hpr⟩
    · rintro ⟨p, hp | rfl, rfl⟩
      · exact get?_put_of_get? hr.reference_kept
          ((h.mem_references _ hrid).mpr ⟨⟨p, hp, rfl⟩, by simp⟩)
      · exact get?_put_self _ _

/-- One more retirement. -/
theorem RegisteredFor.retire {retired : List String}
    (h : RegisteredFor entryId requests retired state) (referenceId : String) :
    RegisteredFor entryId requests (retired ++ [referenceId])
      { state with references := state.references.del referenceId } where
  entry_eq := h.entry_eq
  mem_references r hr := by
    rw [get?_del, mem_append, mem_singleton]
    by_cases hid : referenceId = r.referenceId c.digests
    · simp [hid]
    · rw [if_neg hid, h.mem_references r hr]
      simp [Ne.symm hid]

/-- The references of an entry, after registrations and retirements. -/
theorem RegisteredFor.mem_referencesForEntry {retired : List String}
    (h : RegisteredFor entryId requests retired state) {r : ArtifactLogicalReference} :
    r ∈ (state.referencesForEntry entryId).values ↔
      r.entryId = entryId ∧ (∃ q ∈ requests, q.initialReference = r) ∧
        r.referenceId c.digests ∉ retired := by
  rw [mem_values, CatalogState.referencesForEntry, get?_filter,
    filter_eq_some_iff, decide_eq_true_eq]
  constructor
  · rintro ⟨hget, hid⟩
    exact ⟨hid, (h.mem_references r hid).mp hget⟩
  · rintro ⟨hid, hmem⟩
    exact ⟨(h.mem_references r hid).mpr hmem, hid⟩

/-- Registrations that all return. -/
theorem exists_registeredFor_of_register
    (order : List (ArtifactCatalogRegistrationRequest c.digests)) :
    ∀ {requests : List (ArtifactCatalogRegistrationRequest c.digests)} {store : CatalogStore}
      {state : c.State}, Holds c store state → RegisteredFor entryId requests [] state →
      (∀ q ∈ order, c.digests.entryId q.record.catalogIdentity = entryId) →
      c.performAll store (order.map .register) = .ok store' →
      ∃ state', Holds c store' state' ∧ RegisteredFor entryId (requests ++ order) [] state' := by
  induction order with
  | nil =>
    intro requests store state hholds h _ hrun
    obtain rfl : store = store' := ok_inj hrun
    exact ⟨state, hholds, by rwa [append_nil]⟩
  | cons q order ih =>
    intro requests store state hholds h hshared hrun
    obtain ⟨next, hcall, hrest⟩ := bind_inv hrun
    obtain ⟨state₁, hupdate, hholds₁⟩ := hholds.performOk hcall
    obtain ⟨result, hregister⟩ := of_map_fst hupdate
    have hnext := h.register (hshared q mem_cons_self) (registers_of_register hregister)
    obtain ⟨state', hholds', hdone⟩ :=
      ih hholds₁ hnext (fun p hp => hshared p (mem_cons_of_mem _ hp)) hrest
    exact ⟨state', hholds', by rwa [append_assoc] at hdone⟩

/-- Retirements that all return. -/
theorem exists_registeredFor_of_retire (retirements : List ArtifactReferenceRetirementRequest) :
    ∀ {requests : List (ArtifactCatalogRegistrationRequest c.digests)} {retired : List String}
      {store : CatalogStore} {state : c.State}, Holds c store state →
      RegisteredFor entryId requests retired state →
      c.performAll store (retirements.map .retireReference) = .ok store' →
      ∃ state', Holds c store' state' ∧ RegisteredFor entryId requests
        (retired ++ retirements.map fun r => r.reference.referenceId c.digests) state' := by
  induction retirements with
  | nil =>
    intro requests retired store state hholds h hrun
    obtain rfl : store = store' := ok_inj hrun
    exact ⟨state, hholds, by simpa using h⟩
  | cons r retirements ih =>
    intro requests retired store state hholds h hrun
    obtain ⟨next, hcall, hrest⟩ := bind_inv hrun
    obtain ⟨state₁, hupdate, hholds₁⟩ := hholds.performOk hcall
    obtain ⟨receipt, hretire⟩ := of_map_fst hupdate
    obtain ⟨-, rfl⟩ := of_retireReference hretire
    obtain ⟨state', hholds', hdone⟩ := ih hholds₁ (h.retire _) hrest
    exact ⟨state', hholds', by simpa using hdone⟩

variable {order : List (ArtifactCatalogRegistrationRequest c.digests)}
variable {retirements : List ArtifactReferenceRetirementRequest}

/-- The state after a history that returns. -/
theorem exists_registeredFor (hholds : Holds c store state)
    (hfresh : state.entries.get? entryId = none)
    (hshared : ∀ q ∈ order, c.digests.entryId q.record.catalogIdentity = entryId)
    (hrun : c.performAll store (history order retirements) = .ok store') :
    ∃ state', Holds c store' state' ∧ RegisteredFor entryId order
      (retirements.map fun r => r.reference.referenceId c.digests) state' := by
  rw [performAll, history, foldlM_append] at hrun
  obtain ⟨middle, hregistered, hretired⟩ := bind_inv hrun
  obtain ⟨state₁, hholds₁, h₁⟩ := exists_registeredFor_of_register order hholds
    (registeredFor_nil hholds.consistent hfresh) hshared hregistered
  exact exists_registeredFor_of_retire retirements hholds₁ h₁ hretired

/-- The action that is planned for an entry of a state. -/
theorem Holds.plannedAction (h : Holds c store state) (now : ℤ) (entryId : String) :
    c.plannedAction store now entryId = .ok ((state.entries.get? entryId).map fun entry =>
      (state.decisionOf entry now).action) := by
  rw [LocalJsonArtifactCatalog.plannedAction, LocalJsonArtifactCatalog.planGc, h.readState,
    ok_bind, ok_bind]
  have hall : (state.entries.values.filter fun entry =>
      (none : Option String).all fun tenant => decide (entry.identity.tenantId = tenant)) =
      state.entries.values := by
    simp
  rw [CatalogState.planGc, hall, List.find?_map, Option.map_map]
  have hfind : (state.entries.values.find? ((fun decision : ArtifactCatalogGcDecision =>
      decide (decision.entryId = entryId)) ∘ fun entry => state.decisionOf entry now)) =
      state.entries.get? entryId := state.entries.find?_values entryId
  rw [hfind]
  rfl

/-- What is planned for an entry after a history that returns: a reference that survives, or the
retention of the first record, keeps it. -/
theorem plannedAction_history (hholds : Holds c store state)
    (hfresh : state.entries.get? entryId = none)
    (hshared : ∀ q ∈ order, c.digests.entryId q.record.catalogIdentity = entryId)
    (hrun : c.performAll store (history order retirements) = .ok store') (now : ℤ) :
    c.plannedAction store' now entryId = .ok (order.head?.map fun q =>
      if ¬ SurvivingReference order retirements now ∧ q.record.AllowsDeletion now then
        .deleteCandidate else .keep) := by
  obtain ⟨state', hholds', h⟩ := exists_registeredFor hholds hfresh hshared hrun
  rw [hholds'.plannedAction, h.entry_eq, Option.map_map]
  cases hhead : order.head? with
  | none => rfl
  | some q =>
    have hq : q ∈ order := mem_of_mem_head? hhead
    have hid : (ArtifactCatalogEntry.fromVerifiedRecord q).entryId c.digests = entryId :=
      hshared q hq
    -- the references of the entry that are active are those of the surviving registrations
    have hnil : ((state'.referencesForEntry entryId).filter fun r => r.isActiveAt now).values = [] ↔
        ¬ SurvivingReference order retirements now := by
      rw [eq_nil_iff_forall_not_mem]
      constructor
      · rintro hnone ⟨p, hp, hactive, hkept⟩
        have hmem : p.initialReference ∈ (state'.referencesForEntry entryId).values :=
          h.mem_referencesForEntry.mpr
            ⟨p.initial.entryId.trans (hshared p hp), ⟨p, hp, rfl⟩, hkept⟩
        apply hnone p.initialReference
        rw [mem_values] at hmem ⊢
        rw [get?_filter, hmem, filter_some, if_pos hactive]
      · intro hnone r hr
        rw [mem_values, get?_filter, filter_eq_some_iff] at hr
        obtain ⟨-, ⟨p, hp, rfl⟩, hkept⟩ :=
          h.mem_referencesForEntry.mp (mem_values.mpr hr.1)
        exact hnone ⟨p, hp, hr.2, hkept⟩
    show Except.ok (some (gcAction q.record ((state'.referencesForEntry
      ((ArtifactCatalogEntry.fromVerifiedRecord q).entryId c.digests)).filter
        fun r => r.isActiveAt now).values now).1) = _
    rw [hid, gcAction_eq]
    simp only [hnil]
    rfl

/-- Whether a reference survives does not depend on the order of the registrations. -/
theorem survivingReference_perm {d : CatalogDigests}
    {order requests : List (ArtifactCatalogRegistrationRequest d)} (h : order.Perm requests)
    (retirements : List ArtifactReferenceRetirementRequest) (now : ℤ) :
    SurvivingReference order retirements now ↔ SurvivingReference requests retirements now := by
  unfold SurvivingReference
  simp only [h.mem_iff]

/-- For requests that share an entry which the catalog does not have yet, registered in any order
and followed by retirements, all accepted: the retention of all of them is respected if and only
if a reference survives and is active, or the records agree on whether they may be deleted. -/
theorem retentionRespected_iff (c : LocalJsonArtifactCatalog) {start : CatalogStore}
    {state : c.State} (hholds : Holds c start state) {entryId : String}
    (hfresh : state.entries.get? entryId = none)
    (requests : List (ArtifactCatalogRegistrationRequest c.digests))
    (hshared : ∀ q ∈ requests, c.digests.entryId q.record.catalogIdentity = entryId)
    (retirements : List ArtifactReferenceRetirementRequest)
    (haccepted : ∀ order, order.Perm requests →
      ∃ store, c.performAll start (history order retirements) = .ok store) (now : ℤ) :
    RetentionRespected c start entryId requests retirements now ↔
      SurvivingReference requests retirements now ∨ ∀ q ∈ requests, ∀ q' ∈ requests,
          q.record.AllowsDeletion now → q'.record.AllowsDeletion now := by
  have hplanned : ∀ order store, order.Perm requests →
      c.performAll start (history order retirements) = .ok store →
      c.plannedAction store now entryId = .ok (order.head?.map fun q =>
        if ¬ SurvivingReference requests retirements now ∧ q.record.AllowsDeletion now then
          .deleteCandidate else .keep) := by
    intro order store hperm hrun
    rw [plannedAction_history hholds hfresh (fun q hq => hshared q (hperm.mem_iff.mp hq)) hrun now]
    simp only [survivingReference_perm hperm]
  constructor
  · intro h
    by_contra hnot
    push Not at hnot
    obtain ⟨hnone, q, hq, q', hq', hallowed, hrefused⟩ := hnot
    -- the order that begins with the record which may be deleted
    obtain ⟨before, after, rfl⟩ := append_of_mem hq
    have hperm : (q :: (before ++ after)).Perm (before ++ q :: after) :=
      perm_middle.symm
    obtain ⟨store, hrun⟩ := haccepted _ hperm
    apply hrefused
    apply h.allowed_of_delete _ store hperm hrun _ q' hq'
    rw [hplanned _ store hperm hrun, head?_cons, map_some, if_pos ⟨hnone, hallowed⟩]
  · intro hcondition
    -- every order leads to the decision of the first one
    have hsame : ∀ order store, order.Perm requests →
        c.performAll start (history order retirements) = .ok store →
        c.plannedAction store now entryId = .ok (requests.head?.map fun q =>
          if ¬ SurvivingReference requests retirements now ∧ q.record.AllowsDeletion now then
            .deleteCandidate else .keep) := by
      intro order store hperm hrun
      rw [hplanned order store hperm hrun]
      cases order with
      | nil => rw [nil_perm.mp hperm]
      | cons q order =>
        cases requests with
        | nil => exact absurd hperm.symm (not_perm_nil_cons _ _)
        | cons q' requests =>
          have hq : q ∈ q' :: requests := hperm.mem_iff.mp mem_cons_self
          have hq' : q' ∈ q' :: requests := mem_cons_self
          rcases hcondition with hsurvives | hagree
          · simp [hsurvives]
          · have hiff : q.record.AllowsDeletion now ↔ q'.record.AllowsDeletion now :=
              ⟨hagree q hq q' hq', hagree q' hq' q hq⟩
            simp only [head?_cons, map_some, hiff]
    constructor
    · intro order order' store store' hperm hperm' hrun hrun'
      rw [hsame order store hperm hrun, hsame order' store' hperm' hrun']
    · intro order store state' hperm hrun hread hdelete r hr
      obtain ⟨state₁, hholds₁, h₁⟩ := exists_registeredFor hholds hfresh
        (fun q hq => hshared q (hperm.mem_iff.mp hq)) hrun
      obtain rfl : state₁ = state' := ok_inj (hholds₁.readState.symm.trans hread)
      rw [hholds₁.plannedAction] at hdelete
      obtain ⟨entry, hentry, haction⟩ := map_eq_some_iff.mp (ok_inj hdelete)
      have hactive := active_eq_nil_of_delete haction
      by_contra hne
      have hmem : r ∈ ((state₁.referencesForEntry (entry.entryId c.digests)).filter
          fun r => r.isActiveAt now).values := by
        rw [id_of_get? hentry]
        rw [mem_values] at hr ⊢
        rw [get?_filter, hr, filter_some, if_pos (by simpa using hne)]
      rw [hactive] at hmem
      exact not_mem_nil hmem
    · intro order store hperm hrun hdelete q' hq'
      rw [hplanned order store hperm hrun] at hdelete
      obtain ⟨q, hq, haction⟩ := map_eq_some_iff.mp (ok_inj hdelete)
      split at haction
      · rename_i hdeleted
        rcases hcondition with hsurvives | hagree
        · exact absurd hsurvives hdeleted.1
        · exact hagree q (hperm.mem_iff.mp (mem_of_mem_head? hq)) q' hq' hdeleted.2
      · simp at haction

end Retention

/-! ## A report that shares its content with a cached artifact -/

namespace SharedContent

/-- A record with the shared content. -/
def record (ref artifactId runId : String) (artifactClass : ArtifactClass)
    (retentionClass : RetentionClass) (expiresAt : Option ℤ)
    (expires_after : ∀ e ∈ expiresAt, 10000000 < e) : ArtifactRecord where
  ref := ref
  artifactId := artifactId
  artifactType := "note"
  contentChecksum := Sample.content
  byteSize := 4
  mediaType := "text/plain"
  artifactClass := artifactClass
  tenantId := "tenant-1"
  runId := runId
  graphId := "graph-1"
  nodeId := "node-1"
  attemptId := "attempt-1"
  producerRevision := "writer@1"
  sensitivity := .internal
  reusable := false
  dependencyDigest := none
  retentionClass := retentionClass
  expiresAt := expiresAt
  requiredForReplay := false
  requiredForPublication := false
  createdAt := 10000000
  dependency_known := nofun
  expires_after := expires_after

/-- The digests of the texts that the histories below hash. -/
def digests : CatalogDigests where
  entry _ := .ofNat 0xea67158ba6be793ddbc1d8565d1b0b160c1e7c5e0e43a06c82dcf6576738b8c4
  claim identity :=
    if identity.artifactId = "artifact-1" then
      .ofNat 0x6a245f53f1e5b0b32e6eb7f9548eba3c7a6c2894bd3e8c51f3801aff084dc80c
    else .ofNat 0x49de9e88effa2ed948ba9e5767f0009163856d6aff7ea95f14dc1755f2e49f74
  reference identity :=
    if identity.ownerId = "artifact-1" then
      .ofNat 0xb8742ece1b0a419dd676e08bddf24c7cd099e8c9c7d419ee7b62b05f31ed7c6f
    else .ofNat 0xa44bea04019d47a1b7a74f82a17962765a86c744c61a34ec69e387a6e553edb3

/-- The digest and the length of the document, for each first record and each number of claims and
references. -/
def written (payload : CatalogPayload) : HexDigest × ℕ :=
  match payload.entries.all fun entry => decide (entry.record.artifactId = "artifact-1"),
    payload.claims.length, payload.references.length with
  | true, 1, _ =>
    (.ofNat 0x15ddf03b73efed5f4cc0850515e3a8cf9e064cc89fa1e6d27719a47ac4c2e956, 2390)
  | true, _, 2 =>
    (.ofNat 0x18cd3413c5366e39a20392d6c78c29f3cf46db36e8bf42e7d3d31231365d8cf1, 3617)
  | true, _, _ =>
    (.ofNat 0xfd18c41c87adfc0b0ddf98d330e4acf5413ba3c05f95914ea1f2daf842d11797, 3279)
  | false, 1, _ =>
    (.ofNat 0xad9c80fb06de35aff55e7081dbe5f6b1eb36a8c5431d4831c10eb85127d3052c, 2329)
  | false, _, 2 =>
    (.ofNat 0x2341cfe04b9fe1968c85d76d761abd46fcb93a74cfb4e349e42c4eb5654c2fc6, 3597)
  | false, _, _ =>
    (.ofNat 0xe4b266a54a26c0dada3a1978a2ab80bb59376bf79bac44c1aab981f31fb8f3d9, 3259)

/-- A catalog with the default bounds. -/
def catalog : LocalJsonArtifactCatalog where
  maxEntries := 100000
  maxClaims := 1000000
  maxReferences := 1000000
  maxStateBytes := 128 * 1024 * 1024
  positive := CatalogBounds.default_positive
  digests := digests
  stateDigest payload := (written payload).1
  issueDigest _ := Sample.content
  encodedLength doc := (written doc.toCatalogPayload).2

/-- The id of the shared entry. -/
def entryId : String := catalog.digests.entryId
  ⟨"tenant-1", Sample.content, "text/plain", "writer@1"⟩

/-- A cached artifact that expires at the second 20. -/
def cached : ArtifactCatalogRegistrationRequest catalog.digests where
  record := record "artifact://run-1/first" "artifact-1" "run-1" .intermediate .cache
    (some 20000000) (by simp)
  verification := ⟨"tenant-1", "artifact://run-1/first", Sample.content, 4, "text/plain", 10000000⟩
  initialReference := ⟨entryId, "tenant-1", "run-1", "artifact-1", .cache, some 20000000,
    10000000, by simp, rfl⟩
  verified := ⟨rfl, rfl, rfl, rfl, rfl, le_refl _⟩
  initial := ⟨rfl, rfl, rfl, rfl, rfl, rfl, rfl⟩

/-- The reference of a report. -/
def reportReference : ArtifactLogicalReference :=
  ⟨entryId, "tenant-1", "run-2", "artifact-2", .report, none, 10000000,
    (by simp : ∀ e ∈ (none : Option ℤ), e > 10000000), .refl false⟩

/-- A report that is kept indefinitely. -/
def report : ArtifactCatalogRegistrationRequest catalog.digests where
  record := record "artifact://run-2/second" "artifact-2" "run-2" .report .report none
    reportReference.expires_after
  verification := ⟨"tenant-1", "artifact://run-2/second", Sample.content, 4, "text/plain", 10000000⟩
  initialReference := reportReference
  verified := ⟨rfl, rfl, rfl, rfl, rfl, le_refl _⟩
  initial := ⟨rfl, rfl, rfl, rfl, rfl, rfl, rfl⟩

/-- The publication of the report is retired at the second 15. -/
def retirement : ArtifactReferenceRetirementRequest where
  reference := reportReference
  authorization := ⟨.publicationRetired, "tenant-1", "run-2", "artifact-2", "lifecycle://report",
    15000000, "graph-artifact-policy@1"⟩
  requestedAt := 15000000
  scope := ⟨rfl, rfl, rfl, le_refl _⟩
  retirable := rfl

/-- Both orders of the registrations are accepted, and the retirement too. -/
theorem accepted (order : List (ArtifactCatalogRegistrationRequest catalog.digests))
    (h : order.Perm [cached, report]) :
    ∃ store, catalog.performAll none (history order [retirement]) = .ok store := by
  have hnew : Holds catalog none (.empty catalog.digests) :=
    ⟨consistent_empty _ _, .inl ⟨rfl, rfl⟩⟩
  have hboth : (catalog.updateAll (.empty catalog.digests)
        (history [cached, report] [retirement])).isOk = true ∧
      (catalog.updateAll (.empty catalog.digests)
        (history [report, cached] [retirement])).isOk = true := by
    decide +kernel
  rcases perm_pair.mp h with rfl | rfl
  · obtain ⟨state, hstate⟩ := exists_eq_ok_of_isOk hboth.1
    exact ⟨_, (hnew.performAll_of_updates _ hstate).choose_spec.1⟩
  · obtain ⟨state, hstate⟩ := exists_eq_ok_of_isOk hboth.2
    exact ⟨_, (hnew.performAll_of_updates _ hstate).choose_spec.1⟩

/-- While the cached artifact has not expired, the retention of both records is respected. -/
theorem retentionRespected_beforeExpiry :
    RetentionRespected catalog none entryId [cached, report] [retirement] 18000000 :=
  (retentionRespected_iff catalog ⟨consistent_empty _ _, .inl ⟨rfl, rfl⟩⟩ (by decide +kernel)
    [cached, report] (by decide +kernel) [retirement] accepted 18000000).mpr
    (.inl (by decide +kernel))

/-- Once the cached artifact has expired, the report that shares its content is a candidate for
deletion if the cached artifact was registered first. -/
theorem not_retentionRespected_afterExpiry :
    ¬ RetentionRespected catalog none entryId [cached, report] [retirement] 30000000 := by
  intro h
  obtain ⟨store, hrun⟩ := accepted [cached, report] (.refl _)
  have hnew : Holds catalog none (.empty catalog.digests) :=
    ⟨consistent_empty _ _, .inl ⟨rfl, rfl⟩⟩
  have hplanned : catalog.plannedAction store 30000000 entryId = _ :=
    plannedAction_history hnew (by decide +kernel) (by decide +kernel) hrun 30000000
  have hdelete : catalog.plannedAction store 30000000 entryId = .ok (some .deleteCandidate) := by
    rw [hplanned]
    decide +kernel
  have hallowed := h.allowed_of_delete [cached, report] store (.refl _) hrun hdelete report
    (by simp)
  revert hallowed
  decide

end SharedContent

end ArtifactCatalog
