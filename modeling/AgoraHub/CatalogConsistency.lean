/-
# Consistent states of the artifact catalog

The invariant of the catalog's states, that a consistent state is read back from its
document as it is, and that every call keeps a state consistent.
-/
import AgoraHub.CatalogDocument

namespace ArtifactCatalog

open Fallible GraphResult RecordDict List
open LocalJsonArtifactCatalog (document payload)

/-! ## Records are read back -/

@[simp] theorem ArtifactCatalogEntry.fromDict_toDict (d : CatalogDigests)
    (entry : ArtifactCatalogEntry) : fromDict d (entry.toDict d) = .ok entry := by
  simp [fromDict, toDict, entryId, identity, entry.verified_after]

@[simp] theorem ArtifactCatalogClaim.fromDict_toDict (d : CatalogDigests)
    (claim : ArtifactCatalogClaim) : fromDict d (claim.toDict d) = .ok claim := by
  simp [fromDict, toDict, claimId, logicalIdentity, entryId]

@[simp] theorem ArtifactLogicalReference.fromDict_toDict (d : CatalogDigests)
    (r : ArtifactLogicalReference) : fromDict d (r.toDict d) = .ok r := by
  rw [fromDict, toDict, dif_pos ⟨r.expires_after, r.expires_iff⟩]
  simp [referenceId, logicalIdentity]

/-- Decoding the written records of a dictionary gives the dictionary, without issues. -/
theorem decodeModels_values {ρ ν : Type} [DecidableEq ν] {id entryId : ν → String}
    {decoder : ρ → Except GraphArtifactResultError ν} {encode : ν → ρ}
    (hdecode : ∀ v, decoder (encode v) = .ok v) (records : RecordDict id) :
    decodeModels entryId decoder (records.values.map encode) = .ok (records, []) := by
  have hfold : ∀ (vs : List ν) (known : RecordDict id), (vs.map id).Nodup →
      (∀ v ∈ vs, known.get? (id v) = none) →
      (vs.map encode).foldlM (decodeModel entryId decoder) (known, []) =
        .ok (vs.foldl RecordDict.put known, []) := by
    intro vs
    induction vs with
    | nil => intro known _ _; rfl
    | cons v vs ih =>
      intro known hnodup hnew
      obtain ⟨hnotMem, htail⟩ := nodup_cons.mp hnodup
      have hstep : decodeModel entryId decoder (known, []) (encode v) =
          .ok (known.put v, []) := by
        simp [decodeModel, hdecode, hnew v mem_cons_self]
      rw [map_cons, foldlM_cons, hstep, ok_bind, ih (known.put v) htail]
      · rfl
      · -- the records that follow have other ids
        intro w hw
        rw [get?_put, if_neg, hnew w (mem_cons_of_mem _ hw)]
        intro heq
        exact hnotMem (heq ▸ mem_map_of_mem hw)
  rw [decodeModels, hfold records.values .empty records.nodup_ids (fun v _ => by simp)]
  exact congrArg _ (congrArg (·, []) records.ofList_values)

/-! ## The invariant -/

/-- A claim is one of the entry's: it has its identity, its ref and its size. -/
structure ArtifactCatalogClaim.Of (claim : ArtifactCatalogClaim) (entry : ArtifactCatalogEntry) :
    Prop where
  identity : claim.record.catalogIdentity = entry.identity
  ref : claim.record.ref = entry.record.ref
  byteSize : claim.record.byteSize = entry.record.byteSize

/-- The maps of a state fit together and are within the bounds. -/
structure Consistent (bounds : CatalogBounds) {d : CatalogDigests} (state : CatalogState d) :
    Prop where
  entries_le : state.entries.size ≤ bounds.maxEntries
  claims_le : state.claims.size ≤ bounds.maxClaims
  references_le : state.references.size ≤ bounds.maxReferences
  claim_entry : ∀ id claim, state.claims.get? id = some claim →
    ∃ entry, state.entries.get? (claim.entryId d) = some entry ∧ claim.Of entry
  reference_entry : ∀ id reference, state.references.get? id = some reference →
    ∃ entry, state.entries.get? reference.entryId = some entry ∧
      reference.tenantId = entry.identity.tenantId
  claimed : ∀ id entry, state.entries.get? id = some entry →
    ∃ claimId claim, state.claims.get? claimId = some claim ∧ claim.entryId d = id

section Consistency

variable {bounds : CatalogBounds} {d : CatalogDigests} {state : CatalogState d}

theorem consistent_empty (bounds : CatalogBounds) (d : CatalogDigests) :
    Consistent bounds (CatalogState.empty d) where
  entries_le := Nat.zero_le _
  claims_le := Nat.zero_le _
  references_le := Nat.zero_le _
  claim_entry id claim h := by simp [CatalogState.empty] at h
  reference_entry id reference h := by simp [CatalogState.empty] at h
  claimed id entry h := by simp [CatalogState.empty] at h

theorem claimIssue_eq_none {entries : RecordDict (ArtifactCatalogEntry.entryId d)}
    {claim : ArtifactCatalogClaim} {entry : ArtifactCatalogEntry}
    (hentry : entries.get? (claim.entryId d) = some entry) (h : claim.Of entry) :
    claimIssue d entries claim = none := by
  have hidentity := h.identity
  simp only [ArtifactRecord.catalogIdentity, ArtifactCatalogEntry.identity,
    ArtifactCatalogIdentity.mk.injEq] at hidentity
  obtain ⟨htenant, hcontent, hmedia, hproducer⟩ := hidentity
  simp [claimIssue, hentry, ArtifactCatalogEntry.identity, ArtifactRecord.catalogIdentity, htenant,
    hcontent, hmedia, hproducer, h.ref, h.byteSize]

/-- A consistent state has no issues. -/
theorem Consistent.no_issues (h : Consistent bounds state) :
    state.claims.values.filterMap (claimIssue d state.entries) = [] ∧
      state.references.values.filterMap (referenceIssue d state.entries) = [] ∧
      state.entries.values.filterMap (orphanIssue state) = [] := by
  refine ⟨?_, ?_, ?_⟩ <;> rw [filterMap_eq_nil_iff]
  · intro claim hclaim
    obtain ⟨entry, hentry, hof⟩ := h.claim_entry _ _ (mem_values.mp hclaim)
    exact claimIssue_eq_none hentry hof
  · intro reference hreference
    obtain ⟨entry, hentry, htenant⟩ := h.reference_entry _ _ (mem_values.mp hreference)
    simp [referenceIssue, hentry, htenant]
  · intro entry hentry
    obtain ⟨claimId, claim, hclaim, hid⟩ := h.claimed _ _ (mem_values.mp hentry)
    rw [orphanIssue, if_pos]
    exact .inl ⟨claim, mem_values_iff_exists.mpr ⟨claimId, hclaim⟩, hid⟩

end Consistency

/-- The document of a consistent state is decoded to that state. -/
theorem decodeState_document (c : LocalJsonArtifactCatalog) {state : c.State}
    (h : Consistent c.toCatalogBounds state) :
    c.decodeState (c.document state) = .ok (state, []) := by
  obtain ⟨hclaims, hreferences, hentries⟩ := h.no_issues
  have hentriesLe : (c.document state).entries.length ≤ c.maxEntries := by
    simpa [document, payload] using h.entries_le
  have hclaimsLe : (c.document state).claims.length ≤ c.maxClaims := by
    simpa [document, payload] using h.claims_le
  have hreferencesLe : (c.document state).references.length ≤ c.maxReferences := by
    simpa [document, payload] using
      h.references_le
  have hversion : (c.document state).schemaVersion = catalogSchemaVersion := rfl
  have hchecksum : c.stateDigest (c.document state).toCatalogPayload =
      (c.document state).stateChecksum := rfl
  rw [LocalJsonArtifactCatalog.decodeState, check_of_pos hversion,
    check_of_pos hchecksum, check_of_pos hentriesLe,
    check_of_pos hclaimsLe, check_of_pos hreferencesLe]
  simp only [document, payload]
  rw [decodeModels_values (ArtifactCatalogEntry.fromDict_toDict c.digests), ok_bind,
    decodeModels_values (ArtifactCatalogClaim.fromDict_toDict c.digests), ok_bind,
    decodeModels_values (ArtifactLogicalReference.fromDict_toDict c.digests), ok_bind]
  rw [hclaims, hreferences, hentries]
  rfl

/-! ## What the calls do -/

section Calls

variable {bounds : CatalogBounds} {d : CatalogDigests} {state state' : CatalogState d}

/-- The record under an id is the one asked for. -/
theorem of_canonicalRecord {ν : Type} [DecidableEq ν] {id : ν → String} {known : RecordDict id}
    {limit : ℕ} {value v : ν} {conflict full : GraphArtifactResultError}
    (h : canonicalRecord known limit value conflict full = .ok v) :
    v = value ∧ (∀ w, known.get? (id value) = some w → w = value) ∧
      (known.get? (id value) = none → known.size < limit) := by
  unfold canonicalRecord at h
  split at h
  · rename_i existing hexisting
    obtain ⟨hsame, h⟩ := check_inv h
    have hvalue := of_require hsame
    refine ⟨?_, ?_, ?_⟩
    · rw [← ok_inj h, hvalue]
    · intro w hw
      rw [hexisting] at hw
      rw [← Option.some.inj hw, hvalue]
    · rw [hexisting]
      simp
  · rename_i hnone
    obtain ⟨hroom, h⟩ := check_inv h
    refine ⟨(ok_inj h).symm, ?_, fun _ => of_require hroom⟩
    rw [hnone]
    simp

/-- Writing the record under an id keeps the number of records within the limit. -/
theorem size_put_le {ν : Type} {id : ν → String} {known : RecordDict id} {limit : ℕ} {value : ν}
    (hle : known.size ≤ limit) (hroom : known.get? (id value) = none → known.size < limit) :
    (known.put value).size ≤ limit := by
  rw [size_put]
  split
  · exact hroom ‹_›
  · exact hle

/-- What a registration that returns has found and written. -/
structure Registers (bounds : CatalogBounds) (state : CatalogState d)
    (request : ArtifactCatalogRegistrationRequest d) (entry : ArtifactCatalogEntry)
    (state' : CatalogState d) : Prop where
  identity : entry.identity = request.record.catalogIdentity
  byteSize : entry.record.byteSize = request.record.byteSize
  entry_kept : ∀ e, state.entries.get? (entry.entryId d) = some e → e = entry
  entry_new : state.entries.get? (entry.entryId d) = none →
    entry = .fromVerifiedRecord request ∧ state.entries.size < bounds.maxEntries
  claim_kept : ∀ claim, state.claims.get?
      ((ArtifactCatalogClaim.mk (request.record.withRef entry.record.ref)).claimId d) =
        some claim → claim = ⟨request.record.withRef entry.record.ref⟩
  claim_room : state.claims.get?
      ((ArtifactCatalogClaim.mk (request.record.withRef entry.record.ref)).claimId d) = none →
    state.claims.size < bounds.maxClaims
  reference_kept : ∀ r, state.references.get? (request.initialReference.referenceId d) = some r →
    r = request.initialReference
  reference_room : state.references.get? (request.initialReference.referenceId d) = none →
    state.references.size < bounds.maxReferences
  result : state' = ⟨state.entries.put entry,
    state.claims.put ⟨request.record.withRef entry.record.ref⟩,
    state.references.put request.initialReference⟩

/-- The entry of a registration. -/
theorem of_canonicalEntry {candidate entry : ArtifactCatalogEntry} {deduplicated : Bool}
    (h : canonicalEntry bounds state candidate = .ok (entry, deduplicated)) :
    entry.identity = candidate.identity ∧ entry.record.byteSize = candidate.record.byteSize ∧
      (∀ e, state.entries.get? (candidate.entryId d) = some e → e = entry) ∧
      (state.entries.get? (candidate.entryId d) = none →
        entry = candidate ∧ state.entries.size < bounds.maxEntries) := by
  unfold canonicalEntry at h
  split at h
  · rename_i existing hexisting
    obtain ⟨hvalid, h⟩ := check_inv h
    obtain ⟨hidentity, hsize⟩ := check_inv hvalid
    obtain rfl : existing = entry := (Prod.mk.inj (ok_inj h)).1
    refine ⟨of_require hidentity, of_require hsize, ?_, ?_⟩
    · intro e he
      rw [hexisting] at he
      exact (Option.some.inj he).symm
    · rw [hexisting]
      simp
  · rename_i hnone
    obtain ⟨hroom, h⟩ := check_inv h
    obtain rfl : candidate = entry := (Prod.mk.inj (ok_inj h)).1
    refine ⟨rfl, rfl, ?_, fun _ => ⟨rfl, of_require hroom⟩⟩
    rw [hnone]
    simp

variable {request : ArtifactCatalogRegistrationRequest d}

/-- A registration that returns has written its entry, its claim and its reference. -/
theorem registers_of_register {result : ArtifactCatalogRegistrationResult}
    (h : state.register bounds request = .ok (state', result)) :
    Registers bounds state request result.entry state' := by
  obtain ⟨-, h⟩ := check_inv h
  obtain ⟨⟨entry, deduplicated⟩, hentry, h⟩ := bind_inv h
  obtain ⟨claim, hclaim, h⟩ := bind_inv h
  obtain ⟨reference, hreference, h⟩ := bind_inv h
  cases h
  obtain ⟨hidentity, hsize, hkept, hnew⟩ := of_canonicalEntry hentry
  obtain ⟨rfl, hclaimKept, hclaimRoom⟩ := of_canonicalRecord hclaim
  obtain ⟨rfl, hreferenceKept, hreferenceRoom⟩ := of_canonicalRecord hreference
  have hid : entry.entryId d =
      (ArtifactCatalogEntry.fromVerifiedRecord request).entryId d := by
    rw [ArtifactCatalogEntry.entryId, hidentity, ArtifactCatalogEntry.entryId]
  exact {
    identity := hidentity
    byteSize := hsize
    entry_kept := hid ▸ hkept
    entry_new := hid ▸ hnew
    claim_kept := hclaimKept
    claim_room := hclaimRoom
    reference_kept := hreferenceKept
    reference_room := hreferenceRoom
    result := rfl }

/-- A registration keeps a state consistent. -/
theorem Consistent.register (h : Consistent bounds state) {entry : ArtifactCatalogEntry}
    (hr : Registers bounds state request entry state') : Consistent bounds state' := by
  obtain rfl := hr.result
  have hclaimId : (ArtifactCatalogClaim.mk (request.record.withRef entry.record.ref)).entryId d =
      entry.entryId d := by
    show d.entryId request.record.catalogIdentity = d.entryId entry.identity
    rw [hr.identity]
  constructor
  · exact size_put_le h.entries_le fun hnone => (hr.entry_new hnone).2
  · exact size_put_le h.claims_le hr.claim_room
  · exact size_put_le h.references_le hr.reference_room
  · intro id claim hclaim
    rcases get?_of_get?_put hclaim with rfl | hold
    · refine ⟨entry, ?_, hr.identity.symm, rfl, hr.byteSize.symm⟩
      rw [hclaimId]
      exact get?_put_self _ _
    · obtain ⟨e, he, hof⟩ := h.claim_entry id claim hold
      exact ⟨e, get?_put_of_get? hr.entry_kept he, hof⟩
  · intro id reference hreference
    rcases get?_of_get?_put hreference with rfl | hold
    · refine ⟨entry, ?_, ?_⟩
      · rw [request.initial.entryId, ← hr.identity]
        exact get?_put_self _ _
      · rw [request.initial.tenantId, hr.identity]
        rfl
    · obtain ⟨e, he, htenant⟩ := h.reference_entry id reference hold
      exact ⟨e, get?_put_of_get? hr.entry_kept he, htenant⟩
  · intro id e he
    rcases get?_of_get?_put he with rfl | hold
    · refine ⟨_, _, get?_put_self _ _, ?_⟩
      rw [hclaimId]
      exact id_of_get? he
    · obtain ⟨claimId, claim, hclaim, hid⟩ := h.claimed id e hold
      exact ⟨claimId, claim, get?_put_of_get? hr.claim_kept hclaim, hid⟩

/-- Adding a reference keeps a state consistent. -/
theorem Consistent.addReference (h : Consistent bounds state)
    {reference result : ArtifactLogicalReference}
    (ha : state.addReference bounds reference = .ok (state', result)) :
    Consistent bounds state' := by
  obtain ⟨entry, hentry, ha⟩ := bind_inv ha
  obtain ⟨htenant, ha⟩ := check_inv ha
  obtain ⟨added, hadded, ha⟩ := bind_inv ha
  cases ha
  obtain ⟨rfl, -, hroom⟩ := of_canonicalRecord hadded
  refine ⟨h.entries_le, h.claims_le, size_put_le h.references_le hroom, h.claim_entry, ?_,
    h.claimed⟩
  intro id r hr
  rcases get?_of_get?_put hr with rfl | hold
  · exact ⟨entry, orRaise_eq_ok.mp hentry, (of_require htenant).symm⟩
  · exact h.reference_entry id r hold

theorem Consistent.del_reference (h : Consistent bounds state) (referenceId : String) :
    Consistent bounds { state with references := state.references.del referenceId } := by
  refine ⟨h.entries_le, h.claims_le, (size_del_le _ _).trans h.references_le,
    h.claim_entry, ?_, h.claimed⟩
  intro id r hr
  rw [get?_del] at hr
  split at hr
  · simp at hr
  · exact h.reference_entry id r hr

/-- What is left of a reference's dictionary by `remove_reference`. -/
theorem of_removeReference {tenantId referenceId : String} {removed : Bool}
    (h : state.removeReference tenantId referenceId = .ok (state', removed)) :
    state' = state ∨ state' = { state with references := state.references.del referenceId } := by
  unfold CatalogState.removeReference at h
  split at h
  · exact .inl (Prod.mk.inj (ok_inj h)).1.symm
  · obtain ⟨-, h⟩ := check_inv h
    obtain ⟨-, h⟩ := check_inv h
    exact .inr (Prod.mk.inj (ok_inj h)).1.symm

/-- What is left of a reference's dictionary by `retire_reference`. -/
theorem of_retireReference {request : ArtifactReferenceRetirementRequest}
    {receipt : ArtifactReferenceRetirementReceipt}
    (h : state.retireReference request = .ok (state', receipt)) :
    (∀ r, state.references.get? (request.reference.referenceId d) = some r →
      r = request.reference) ∧ state' = { state with
      references := state.references.del (request.reference.referenceId d) } := by
  unfold CatalogState.retireReference at h
  split at h
  · rename_i hnone
    rw [← (Prod.mk.inj (ok_inj h)).1]
    refine ⟨by simp [hnone], ?_⟩
    have hsame : state.references.del (request.reference.referenceId d) = state.references := by
      apply RecordDict.ext
      intro k
      rw [get?_del]
      split
      · rename_i hk
        rw [← hk, hnone]
      · rfl
    rw [hsame]
  · rename_i existing hexisting
    obtain ⟨hsame, h⟩ := check_inv h
    obtain ⟨-, h⟩ := check_inv h
    obtain rfl := of_require hsame
    refine ⟨?_, (Prod.mk.inj (ok_inj h)).1.symm⟩
    intro r hr
    rw [hexisting] at hr
    exact (Option.some.inj hr).symm

/-- What `detach_gc_candidate` takes away. -/
theorem of_detachGcCandidate {request : ArtifactCatalogGcDetachRequest}
    {receipt : ArtifactCatalogGcDetachReceipt}
    (h : state.detachGcCandidate request = .ok (state', receipt)) :
    ∃ entry, state.entries.get? request.decision.entryId = some entry ∧
      state.decisionOf entry request.requestedAt = request.decision ∧
      state' = ⟨state.entries.del (entry.entryId d),
        state.claims.filter fun claim => decide (claim.entryId d ≠ entry.entryId d),
        state.references.filter fun r => decide (r.entryId ≠ entry.entryId d)⟩ := by
  obtain ⟨entry, hentry, h⟩ := bind_inv h
  obtain ⟨hdecision, h⟩ := check_inv h
  exact ⟨entry, orRaise_eq_ok.mp hentry, of_require hdecision,
    (Prod.mk.inj (ok_inj h)).1.symm⟩

/-- Taking an entry away with all its claims and references keeps a state consistent. -/
theorem Consistent.detach (h : Consistent bounds state) (entryId : String) :
    Consistent bounds (⟨state.entries.del entryId,
      state.claims.filter fun claim => decide (claim.entryId d ≠ entryId),
      state.references.filter fun r => decide (r.entryId ≠ entryId)⟩ : CatalogState d) := by
  have hentry : ∀ k, k ≠ entryId → (state.entries.del entryId).get? k = state.entries.get? k := by
    intro k hk
    rw [get?_del, if_neg hk.symm]
  constructor
  · exact (size_del_le _ _).trans h.entries_le
  · exact (size_filter_le _ _).trans h.claims_le
  · exact (size_filter_le _ _).trans h.references_le
  · intro id claim hclaim
    rw [get?_filter, Option.filter_eq_some_iff] at hclaim
    obtain ⟨e, he, hof⟩ := h.claim_entry id claim hclaim.1
    exact ⟨e, by rw [hentry _ (of_decide_eq_true hclaim.2), he], hof⟩
  · intro id r hr
    rw [get?_filter, Option.filter_eq_some_iff] at hr
    obtain ⟨e, he, htenant⟩ := h.reference_entry id r hr.1
    exact ⟨e, by rw [hentry _ (of_decide_eq_true hr.2), he], htenant⟩
  · intro id e he
    rw [get?_del] at he
    split at he
    · simp at he
    · rename_i hid
      obtain ⟨claimId, claim, hclaim, hof⟩ := h.claimed id e he
      refine ⟨claimId, claim, ?_, hof⟩
      rw [get?_filter, hclaim, Option.filter_some, if_pos]
      exact decide_eq_true (by rw [hof]; exact fun heq => hid heq.symm)

end Calls

end ArtifactCatalog
