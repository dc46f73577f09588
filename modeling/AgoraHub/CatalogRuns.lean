/-
# Runs of the artifact catalog

The stored document follows the state that the calls make in memory, over every run and
whether the calls return or raise.  Where no registration adds a second entry under the
ref of a present one, the lookups by ref find every entry.
-/
import AgoraHub.CatalogConsistency
import AgoraHub.StepRuns

namespace ArtifactCatalog

open Fallible GraphResult List LocalJsonArtifactCatalog RecordDict
open StepRuns (run)

/-! ## Calls on the state and on the store -/

/-- A call that can change a catalog. -/
inductive CatalogCall (d : CatalogDigests) where
  | register (request : ArtifactCatalogRegistrationRequest d)
  | addReference (reference : ArtifactLogicalReference)
  | removeReference (tenantId referenceId : String)
  | retireReference (request : ArtifactReferenceRetirementRequest)
  | detachGcCandidate (request : ArtifactCatalogGcDetachRequest)

/-- The state that the callback of a call makes. -/
def CatalogCall.update {d : CatalogDigests} (bounds : CatalogBounds) (state : CatalogState d) :
    CatalogCall d → Except GraphArtifactResultError (CatalogState d)
  | .register request => (state.register bounds request).map Prod.fst
  | .addReference reference => (state.addReference bounds reference).map Prod.fst
  | .removeReference tenantId referenceId =>
    (state.removeReference tenantId referenceId).map Prod.fst
  | .retireReference request => (state.retireReference request).map Prod.fst
  | .detachGcCandidate request => (state.detachGcCandidate request).map Prod.fst

section Calls

variable (c : LocalJsonArtifactCatalog)

/-- What a call does with the store, and whether it returns. -/
def LocalJsonArtifactCatalog.perform (store : CatalogStore) :
    CatalogCall c.digests → Except GraphArtifactResultError Unit × CatalogStore
  | .register request => (c.register request store).map (Except.map fun _ => ()) id
  | .addReference reference => (c.addReference reference store).map (Except.map fun _ => ()) id
  | .removeReference tenantId referenceId =>
    (c.removeReference tenantId referenceId store).map (Except.map fun _ => ()) id
  | .retireReference request => (c.retireReference request store).map (Except.map fun _ => ()) id
  | .detachGcCandidate request =>
    (c.detachGcCandidate request store).map (Except.map fun _ => ()) id

/-- The store after a call, whether it returns or raises. -/
def LocalJsonArtifactCatalog.apply (store : CatalogStore) (call : CatalogCall c.digests) :
    CatalogStore :=
  (c.perform store call).2

/-- The state in memory after an update that may raise or may be too large to be written. -/
def LocalJsonArtifactCatalog.settle (state : c.State)
    (update : Except GraphArtifactResultError c.State) : c.State :=
  match update with
  | .error _ => state
  | .ok updated =>
    if c.encodedLength (c.document updated) ≤ c.maxStateBytes then updated else state

/-- The state in memory after a call. -/
def LocalJsonArtifactCatalog.advance (state : c.State) (call : CatalogCall c.digests) : c.State :=
  c.settle state (call.update c.toCatalogBounds state)

end Calls

section Runs

variable {c : LocalJsonArtifactCatalog} {store : CatalogStore} {state : c.State}

/-! ## The store holds the state -/

/-- The store holds a state: it is the document of the state, or there is no document yet. -/
structure Holds (c : LocalJsonArtifactCatalog) (store : CatalogStore) (state : c.State) :
    Prop where
  consistent : Consistent c.toCatalogBounds state
  stored : store = none ∧ state = .empty c.digests ∨
    store = some (c.document state) ∧ c.encodedLength (c.document state) ≤ c.maxStateBytes

theorem Holds.readDrifted (h : Holds c store state) : c.readDrifted store = .ok (state, []) := by
  rcases h.stored with ⟨rfl, rfl⟩ | ⟨rfl, hsize⟩
  · rfl
  · rw [readDrifted, check_of_pos hsize,
      decodeState_document c h.consistent]

theorem Holds.readState (h : Holds c store state) : c.readState store = .ok state := by
  rw [LocalJsonArtifactCatalog.readState, h.readDrifted, ok_bind]
  rfl

/-- What `_mutate` does with a store that holds a state. -/
theorem Holds.mutate (h : Holds c store state) {α : Type}
    {f : c.State → Except GraphArtifactResultError (c.State × α)}
    (hf : ∀ updated, (f state).map Prod.fst = .ok updated → Consistent c.toCatalogBounds updated) :
    Holds c (c.mutate f store).2 (c.settle state ((f state).map Prod.fst)) := by
  unfold LocalJsonArtifactCatalog.mutate LocalJsonArtifactCatalog.settle
  rw [h.readState]
  dsimp only
  rcases hresult : f state with e | ⟨updated, result⟩
  · exact h
  · simp only [Except.map]
    by_cases hsame : updated = state
    · rw [if_pos hsame, hsame, ite_self]
      exact h
    · rw [if_neg hsame]
      split
      · exact ⟨hf updated (by rw [hresult]; rfl), .inr ⟨rfl, ‹_›⟩⟩
      · exact h

/-- A call that raises leaves the store as it was. -/
theorem mutate_of_error {α : Type}
    {callback : c.State → Except GraphArtifactResultError (c.State × α)}
    {e : GraphArtifactResultError} (h : (c.mutate callback store).1 = .error e) :
    (c.mutate callback store).2 = store := by
  unfold LocalJsonArtifactCatalog.mutate at h ⊢
  split at h
  · rfl
  · rename_i state hread
    split at h
    · rename_i hcallback
      rfl
    · rename_i updated result hcallback
      split at h
      · simp at h
      · split at h
        · simp at h
        · rename_i hchanged hsize
          simp only [if_neg hchanged, if_neg hsize]

theorem perform_of_error {call : CatalogCall c.digests} {e : GraphArtifactResultError}
    (h : (c.perform store call).1 = .error e) : c.apply store call = store := by
  have hraised : ∀ {α : Type} {x : Except GraphArtifactResultError α},
      x.map (fun _ => ()) = .error e → x = .error e := by
    rintro α (e' | a) hx
    · exact congrArg Except.error (Except.error.inj hx)
    · simp [Except.map] at hx
  cases call <;> exact mutate_of_error (hraised h)

/-! ## What the calls keep -/

theorem of_map_fst {σ α : Type} {x : Except GraphArtifactResultError (σ × α)} {s : σ}
    (h : x.map Prod.fst = .ok s) : ∃ result, x = .ok (s, result) := by
  rcases x with e | ⟨s', result⟩
  · simp [Except.map] at h
  · obtain rfl : s' = s := ok_inj h
    exact ⟨result, rfl⟩

variable {d : CatalogDigests}

variable {bounds : CatalogBounds} {state' : CatalogState d}

/-- A call keeps a state consistent. -/
theorem Consistent.update {state : CatalogState d} (h : Consistent bounds state)
    {call : CatalogCall d} (hupdate : call.update bounds state = .ok state') :
    Consistent bounds state' := by
  cases call with
  | register request =>
    obtain ⟨result, hregister⟩ := of_map_fst hupdate
    exact h.register (registers_of_register hregister)
  | addReference reference =>
    obtain ⟨result, hadd⟩ := of_map_fst hupdate
    exact h.addReference hadd
  | removeReference tenantId referenceId =>
    obtain ⟨removed, hremove⟩ := of_map_fst hupdate
    rcases of_removeReference hremove with rfl | rfl
    · exact h
    · exact h.del_reference referenceId
  | retireReference request =>
    obtain ⟨receipt, hretire⟩ := of_map_fst hupdate
    rw [(of_retireReference hretire).2]
    exact h.del_reference _
  | detachGcCandidate request =>
    obtain ⟨receipt, hdetach⟩ := of_map_fst hupdate
    obtain ⟨entry, -, -, rfl⟩ := of_detachGcCandidate hdetach
    exact h.detach _

/-- The store follows the state in memory. -/
theorem Holds.apply (h : Holds c store state) (call : CatalogCall c.digests) :
    Holds c (c.apply store call) (c.advance state call) := by
  have hkeeps : ∀ updated, call.update c.toCatalogBounds state = .ok updated →
      Consistent c.toCatalogBounds updated := fun updated => h.consistent.update
  cases call with
  | register request =>
    exact h.mutate (f := fun s => s.register c.toCatalogBounds request) hkeeps
  | addReference reference =>
    exact h.mutate (f := fun s => s.addReference c.toCatalogBounds reference) hkeeps
  | removeReference tenantId referenceId =>
    exact h.mutate (f := fun s => s.removeReference tenantId referenceId) hkeeps
  | retireReference request =>
    exact h.mutate (f := fun s => s.retireReference request) hkeeps
  | detachGcCandidate request =>
    exact h.mutate (f := fun s => s.detachGcCandidate request) hkeeps

/-! ## Refs that name one entry -/

/-- No two entries of a tenant have the same ref. -/
def UniqueRefs {d : CatalogDigests} (state : CatalogState d) : Prop :=
  ∀ e ∈ state.entries.values, ∀ e' ∈ state.entries.values,
    e.identity.tenantId = e'.identity.tenantId → e.record.ref = e'.record.ref → e = e'

/-- A registration that adds an entry names a ref that no present entry of its tenant has. -/
def NamesFreeRef {d : CatalogDigests} (state : CatalogState d)
    (request : ArtifactCatalogRegistrationRequest d) : Prop :=
  state.entries.get? (d.entryId request.record.catalogIdentity) = none →
    ∀ e ∈ state.entries.values,
      ¬ (e.identity.tenantId = request.record.tenantId ∧ e.record.ref = request.record.ref)

instance {d : CatalogDigests} (state : CatalogState d)
    (request : ArtifactCatalogRegistrationRequest d) : Decidable (NamesFreeRef state request) :=
  inferInstanceAs (Decidable (_ → _))

/-- The condition on a call. -/
def CallNamesFreeRef {d : CatalogDigests} (state : CatalogState d) : CatalogCall d → Prop
  | .register request => NamesFreeRef state request
  | _ => True

instance {d : CatalogDigests} (state : CatalogState d) (call : CatalogCall d) :
    Decidable (CallNamesFreeRef state call) := by
  unfold CallNamesFreeRef
  split <;> infer_instance

/-- A state whose entries are among those of a state with unique refs has unique refs. -/
theorem UniqueRefs.of_subset {state : CatalogState d} (h : UniqueRefs state)
    (hsub : state'.entries.values ⊆ state.entries.values) : UniqueRefs state' :=
  fun e he e' he' => h e (hsub he) e' (hsub he')

/-- A registration under a free ref keeps the refs unique. -/
theorem UniqueRefs.register {state : CatalogState d} (h : UniqueRefs state)
    {request : ArtifactCatalogRegistrationRequest d} {entry : ArtifactCatalogEntry}
    (hr : Registers bounds state request entry state') (hfree : NamesFreeRef state request) :
    UniqueRefs state' := by
  obtain rfl := hr.result
  have hid : d.entryId request.record.catalogIdentity = entry.entryId d := by
    rw [ArtifactCatalogEntry.entryId, hr.identity]
  cases hpresent : state.entries.get? (entry.entryId d) with
  | some e =>
    obtain rfl := hr.entry_kept e hpresent
    apply h.of_subset
    rw [put_of_get? hpresent]
    exact List.Subset.refl _
  | none =>
    obtain ⟨rfl, -⟩ := hr.entry_new hpresent
    have hother := hfree (hid ▸ hpresent)
    -- the new entry shares its ref with no old one
    intro e he e' he' htenant href
    rcases get?_of_get?_put (mem_values.mp he) with rfl | hold <;>
      rcases get?_of_get?_put (mem_values.mp he') with rfl | hold'
    · rfl
    · exact absurd ⟨htenant.symm, href.symm⟩ (hother e' (mem_values.mpr hold'))
    · exact absurd ⟨htenant, href⟩ (hother e (mem_values.mpr hold))
    · exact h e (mem_values.mpr hold) e' (mem_values.mpr hold') htenant href

/-- Only a registration adds entries. -/
theorem CatalogCall.update_cases {state : CatalogState d} {call : CatalogCall d}
    (hupdate : call.update bounds state = .ok state') :
    state'.entries.values ⊆ state.entries.values ∨ ∃ request result, call = .register request ∧
      Registers bounds state request result state' := by
  cases call with
  | register request =>
    obtain ⟨result, hregister⟩ := of_map_fst hupdate
    exact .inr ⟨request, _, rfl, registers_of_register hregister⟩
  | addReference reference =>
    obtain ⟨result, hadd⟩ := of_map_fst hupdate
    obtain ⟨entry, -, hadd⟩ := bind_inv hadd
    obtain ⟨-, hadd⟩ := check_inv hadd
    obtain ⟨added, -, hadd⟩ := bind_inv hadd
    obtain ⟨rfl, -⟩ := Prod.mk.inj (ok_inj hadd)
    exact .inl (List.Subset.refl _)
  | removeReference tenantId referenceId =>
    obtain ⟨removed, hremove⟩ := of_map_fst hupdate
    rcases of_removeReference hremove with rfl | rfl <;> exact .inl (List.Subset.refl _)
  | retireReference request =>
    obtain ⟨receipt, hretire⟩ := of_map_fst hupdate
    rw [(of_retireReference hretire).2]
    exact .inl (List.Subset.refl _)
  | detachGcCandidate request =>
    obtain ⟨receipt, hdetach⟩ := of_map_fst hupdate
    obtain ⟨entry, -, -, rfl⟩ := of_detachGcCandidate hdetach
    exact .inl (values_del_subset _ _)

/-- A call that names no taken ref keeps the refs unique. -/
theorem UniqueRefs.update {state : CatalogState d} (h : UniqueRefs state) {call : CatalogCall d}
    (hfree : CallNamesFreeRef state call) (hupdate : call.update bounds state = .ok state') :
    UniqueRefs state' := by
  rcases CatalogCall.update_cases hupdate with hsub | ⟨request, result, rfl, hr⟩
  · exact h.of_subset hsub
  · exact h.register hr hfree

/-- With unique refs an entry is found by its ref. -/
theorem UniqueRefs.entryByRef {state : CatalogState d} (hunique : UniqueRefs state)
    {entry : ArtifactCatalogEntry} (hentry : entry ∈ state.entries.values) :
    state.entryByRef entry.identity.tenantId entry.record.ref = .ok entry := by
  unfold CatalogState.entryByRef
  have hnodup : (state.entries.values.filter fun e =>
      decide (e.identity.tenantId = entry.identity.tenantId ∧
        e.record.ref = entry.record.ref)).Nodup :=
    (state.entries.nodup_ids.of_map _).filter _
  have honly : ∀ e ∈ state.entries.values.filter fun e =>
      decide (e.identity.tenantId = entry.identity.tenantId ∧ e.record.ref = entry.record.ref),
      e = entry := by
    intro e he
    obtain ⟨hmem, hmatch⟩ := mem_filter.mp he
    obtain ⟨htenant, href⟩ := of_decide_eq_true hmatch
    exact hunique e hmem entry hentry htenant href
  have hfound : entry ∈ state.entries.values.filter fun e =>
      decide (e.identity.tenantId = entry.identity.tenantId ∧ e.record.ref = entry.record.ref) :=
    mem_filter.mpr ⟨hentry, decide_eq_true ⟨rfl, rfl⟩⟩
  generalize (state.entries.values.filter fun e =>
      decide (e.identity.tenantId = entry.identity.tenantId ∧
        e.record.ref = entry.record.ref)) = found at hnodup honly hfound
  match found, hnodup, honly, hfound with
  | [e], _, honly, _ => rw [honly e mem_cons_self]
  | e :: e' :: rest, hnodup, honly, _ =>
    -- two entries found would be the same
    have hsame : e = e' := (honly e mem_cons_self).trans (honly e' (by simp)).symm
    exact absurd hsame (rel_of_pairwise_cons hnodup mem_cons_self)

theorem Holds.getByRef (h : Holds c store state) (tenantId ref : String) :
    c.getByRef store tenantId ref = state.entryByRef tenantId ref := by
  rw [LocalJsonArtifactCatalog.getByRef, h.readState, ok_bind]

theorem Holds.reconcile (h : Holds c store state) (tenantId : Option String) :
    c.reconcile store tenantId = .ok [] := by
  rw [LocalJsonArtifactCatalog.reconcile, h.readDrifted, ok_bind]
  cases tenantId <;> rfl

/-! ## What a catalog guarantees -/

/-- The guarantees of a catalog whose calls have made a state. -/
structure CatalogSound (c : LocalJsonArtifactCatalog) (store : CatalogStore) (state : c.State) :
    Prop where
  /-- The stored document is read back as the state. -/
  read_back : c.readState store = .ok state
  /-- Claims and references point at present entries of their tenant. -/
  claim_entry : ∀ claim ∈ state.claims.values, ∃ entry,
    state.entries.get? (claim.entryId c.digests) = some entry ∧
      claim.record.tenantId = entry.identity.tenantId
  reference_entry : ∀ reference ∈ state.references.values, ∃ entry,
    state.entries.get? reference.entryId = some entry ∧
      reference.tenantId = entry.identity.tenantId
  /-- Every entry is the one that is found by its ref. -/
  by_ref : ∀ entry ∈ state.entries.values,
    c.getByRef store entry.identity.tenantId entry.record.ref = .ok entry
  /-- Nothing is reported about what the catalog wrote. -/
  reconciled : ∀ tenantId, c.reconcile store tenantId = .ok []
  /-- A call that raises changes nothing. -/
  raising : ∀ call e, (c.perform store call).1 = .error e → c.apply store call = store

/-- A store that holds a state with unique refs is sound. -/
theorem Holds.sound (h : Holds c store state) (hunique : UniqueRefs state) :
    CatalogSound c store state where
  read_back := h.readState
  claim_entry claim hclaim := by
    obtain ⟨entry, hentry, hof⟩ := h.consistent.claim_entry _ _ (mem_values.mp hclaim)
    exact ⟨entry, hentry, congrArg ArtifactCatalogIdentity.tenantId hof.identity⟩
  reference_entry reference hreference :=
    h.consistent.reference_entry _ _ (mem_values.mp hreference)
  by_ref entry hentry := by rw [h.getByRef, hunique.entryByRef hentry]
  reconciled := h.reconcile
  raising call e hraised := perform_of_error hraised

/-- Along a run of the states: the store holds the state, and the refs stay unique where every
call names a free ref. -/
theorem holds_run (calls : List (CatalogCall c.digests)) :
    ∀ {store : CatalogStore} {state : c.State}, Holds c store state →
      Holds c (run c.apply store calls) (run c.advance state calls) := by
  induction calls with
  | nil => exact fun h => h
  | cons call calls ih => exact fun h => ih (h.apply call)

theorem uniqueRefs_run {calls : List (CatalogCall c.digests)}
    (hfree : StepRuns.Along c.advance CallNamesFreeRef (.empty c.digests) calls) :
    UniqueRefs (run c.advance (.empty c.digests) calls) := by
  refine StepRuns.run_invariant (fun state call hunique hcall => ?_) ?_ hfree
  · unfold LocalJsonArtifactCatalog.advance LocalJsonArtifactCatalog.settle
    split
    · exact hunique
    · split
      · exact hunique.update hcall ‹_›
      · exact hunique
  · intro e he
    have hget := mem_values.mp he
    simp [CatalogState.empty] at hget

/-- After every run of calls on a new catalog, returning or raising, the guarantees hold if no
registration that adds an entry names the ref of a present entry of its tenant. -/
theorem catalogSound_of_freeRefs (c : LocalJsonArtifactCatalog)
    (calls : List (CatalogCall c.digests))
    (hfree : StepRuns.Along c.advance CallNamesFreeRef (.empty c.digests) calls) :
    CatalogSound c (run c.apply none calls)
      (run c.advance (.empty c.digests) calls) :=
  (holds_run calls ⟨consistent_empty _ _, .inl ⟨rfl, rfl⟩⟩).sound (uniqueRefs_run hfree)

end Runs

/-! ## One file under two entries -/

namespace Sample

/-- The content of the file. -/
def content : HexDigest :=
  .ofNat 0x982d9e3eb996f559e633f4d194def3761d909f5a3b647d1a851fead67c32c9d1

/-- The record of an artifact of `run-1`. -/
def record (ref artifactId producerRevision : String) : ArtifactRecord where
  ref := ref
  artifactId := artifactId
  artifactType := "note"
  contentChecksum := content
  byteSize := 4
  mediaType := "text/plain"
  artifactClass := .intermediate
  tenantId := "tenant-1"
  runId := "run-1"
  graphId := "graph-1"
  nodeId := "node-1"
  attemptId := "attempt-1"
  producerRevision := producerRevision
  sensitivity := .internal
  reusable := false
  dependencyDigest := none
  retentionClass := .run
  expiresAt := none
  requiredForReplay := false
  requiredForPublication := false
  createdAt := 10000000
  dependency_known := by simp
  expires_after := by simp

/-- The digests of the texts that the run below hashes. -/
def digests : CatalogDigests where
  entry identity :=
    if identity.producerRevision = "writer@1" then
      .ofNat 0xea67158ba6be793ddbc1d8565d1b0b160c1e7c5e0e43a06c82dcf6576738b8c4
    else .ofNat 0x55262372ae8ae08943d47f36c47f91ce3538cc5a546491ea920eaa527fef2798
  claim identity :=
    if identity.artifactId = "artifact-1" then
      .ofNat 0x6a245f53f1e5b0b32e6eb7f9548eba3c7a6c2894bd3e8c51f3801aff084dc80c
    else .ofNat 0x16d330966b25ef1a943cfab6cdbf52c39879bfaf2023626df49fd4c14ad52018
  reference identity :=
    if identity.ownerId = "artifact-1" then
      .ofNat 0xf363f605ab23c59d051808e9534853b5186815e260a4de2d7f5b31993a3f8321
    else .ofNat 0xaa3081283b6dc4614bd8bdfd951149ab3ea73b7440971d73a21d2780e1ab3b21

/-- A catalog with the default bounds. -/
def catalog : LocalJsonArtifactCatalog where
  maxEntries := 100000
  maxClaims := 1000000
  maxReferences := 1000000
  maxStateBytes := 128 * 1024 * 1024
  positive := CatalogBounds.default_positive
  digests := digests
  stateDigest payload :=
    if payload.entries.length = 1 then
      .ofNat 0xbc8bd81981f6ea4f65103102c160fb2e45b58073b96f5e7770bff12fa261dc91
    else if payload.entries.all fun entry => decide (entry.record.ref = "artifact://run-1/first") then
      .ofNat 0x407610e3ee454aef88f4496759422c6e4955a7ce5c4019a71f1dd6c96db065da
    else .ofNat 0x8e860772343bd9cecefbb941b1243219fb481877d3deb568d74f12706996b2c4
  issueDigest _ := content
  encodedLength doc := if doc.entries.length = 1 then 2330 else 4477

/-- The verified registration of a record. -/
def registration (ref artifactId producerRevision : String) :
    ArtifactCatalogRegistrationRequest catalog.digests where
  record := record ref artifactId producerRevision
  verification := ⟨"tenant-1", ref, content, 4, "text/plain", 10000000⟩
  initialReference := ⟨catalog.digests.entryId (record ref artifactId producerRevision).catalogIdentity,
    "tenant-1", "run-1", artifactId, .run, none, 10000000, by simp, rfl⟩
  verified := ⟨rfl, rfl, rfl, rfl, rfl, le_refl _⟩
  initial := ⟨rfl, rfl, rfl, rfl, rfl, rfl, rfl⟩

/-- Register a file, then a file with the same content that another revision has produced. -/
def registerTwice (secondRef : String) : List (CatalogCall catalog.digests) :=
  [.register (registration "artifact://run-1/first" "artifact-1" "writer@1"),
    .register (registration secondRef "artifact-2" "writer@2")]

/-- With a ref of its own for each entry the guarantees hold. -/
theorem catalogSound_ownRefs : CatalogSound catalog
    (run catalog.apply none (registerTwice "artifact://run-1/second"))
    (run catalog.advance (.empty catalog.digests) (registerTwice "artifact://run-1/second")) :=
  catalogSound_of_freeRefs catalog (registerTwice "artifact://run-1/second") (by decide +kernel)

/-- With one ref for both, each registration returns and the lookup of the ref finds the catalog
corrupt. -/
theorem not_catalogSound_sharedRef : ¬ CatalogSound catalog
      (run catalog.apply none (registerTwice "artifact://run-1/first"))
      (run catalog.advance (.empty catalog.digests) (registerTwice "artifact://run-1/first")) ∧
    catalog.getByRef (run catalog.apply none (registerTwice "artifact://run-1/first"))
      "tenant-1" "artifact://run-1/first" = .error (catalogCorrupt "catalog.ref") := by
  have hholds := holds_run (registerTwice "artifact://run-1/first")
    ⟨consistent_empty catalog.toCatalogBounds catalog.digests, .inl ⟨rfl, rfl⟩⟩
  have hstate : (∃ entry ∈ (run catalog.advance (.empty catalog.digests)
        (registerTwice "artifact://run-1/first")).entries.values,
        entry.identity.tenantId = "tenant-1" ∧ entry.record.ref = "artifact://run-1/first") ∧
      (run catalog.advance (.empty catalog.digests)
        (registerTwice "artifact://run-1/first")).entryByRef "tenant-1" "artifact://run-1/first" =
          .error (catalogCorrupt "catalog.ref") := by
    decide +kernel
  obtain ⟨⟨entry, hentry, htenant, href⟩, hlookup⟩ := hstate
  have hcorrupt : catalog.getByRef
      (run catalog.apply none (registerTwice "artifact://run-1/first"))
      "tenant-1" "artifact://run-1/first" = .error (catalogCorrupt "catalog.ref") := by
    rw [hholds.getByRef, hlookup]
  refine ⟨fun h => ?_, hcorrupt⟩
  have hfound := h.by_ref entry hentry
  rw [htenant, href, hcorrupt] at hfound
  simp at hfound

end Sample

end ArtifactCatalog
