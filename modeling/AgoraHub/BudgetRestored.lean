/-
# Restored ledgers

What `restore` guarantees of a ledger when it accepts a snapshot.  Its validation
compares every operation record with the reservation index, but not the index with
the records, so an open reservation that no record carries is accepted with it.
-/
import AgoraHub.BudgetAnyRuns
import AgoraHub.BudgetRestore

namespace Budget

open Fallible PyText List PyDict

variable {record : BudgetOperationRecord}

namespace BudgetLedger

variable {sha256 : String → HexDigest} {L M R : BudgetLedger} {S : BudgetSnapshot}

/-! ## The scopes of a snapshot -/

/-- A pass registers the items it does not leave pending. -/
theorem of_registerPass {items : List BudgetScopeSnapshot} :
    ∀ {M after : BudgetLedger} {pending : List BudgetScopeSnapshot}, M.ScopeTree →
      M.registerPass items = .ok (after, pending) → after.ScopeTree ∧
        ∀ id, id ∈ after.scopes.keys ∨ id ∈ idsOf pending ↔ id ∈ M.scopes.keys ∨ id ∈ idsOf items := by
  induction items with
  | nil =>
    intro M after pending h hpass
    cases hpass
    exact ⟨h, fun _ => Iff.rfl⟩
  | cons i rest ih =>
    intro M after pending h hpass
    rw [registerPass] at hpass
    split at hpass
    · obtain ⟨view, hview, hrest⟩ := bind_inv hpass
      unfold registerScope at hview hrest
      split at hview
      · cases hview
      all_goals
        rename_i hcheck
        rw [hcheck] at hrest
      · -- the scope is known already
        obtain ⟨htree, hkeys⟩ := ih h hrest
        have hknown : i.scope.scopeId ∈ M.scopes.keys := by
          unfold registerCheck at hcheck
          split at hcheck
          · exact mem_scopes_keys ‹_›
          · simp [bind_eq_ok] at hcheck
        refine ⟨htree, fun id => (hkeys id).trans ?_⟩
        rw [idsOf, idsOf, map_cons, mem_cons, ← or_assoc]
        exact or_congr_left ⟨.inl, fun hor => hor.elim (·) (fun heq => heq ▸ hknown)⟩
      · obtain ⟨htree, hkeys⟩ := ih (h.addScope (of_registerCheck hcheck)) hrest
        refine ⟨htree, fun id => (hkeys id).trans ?_⟩
        have hnew := (get?_eq_none_iff _ _).mp (of_registerCheck hcheck).unknown
        rw [addScope_keys hnew, mem_append, mem_singleton, idsOf, idsOf, map_cons,
          mem_cons, or_assoc]
    · obtain ⟨⟨next, left⟩, hnext, hrest⟩ := bind_inv hpass
      cases hrest
      obtain ⟨htree, hkeys⟩ := ih h hnext
      refine ⟨htree, fun id => ?_⟩
      have hid := hkeys id
      simp only [idsOf, map_cons, mem_cons] at hid ⊢
      tauto

/-- The passes end when every item is registered. -/
theorem of_registerAll {fuel : ℕ} : ∀ {M after : BudgetLedger} {items : List BudgetScopeSnapshot},
    M.ScopeTree → registerAll fuel M items = .ok after → after.ScopeTree ∧
      ∀ id, id ∈ after.scopes.keys ↔ id ∈ M.scopes.keys ∨ id ∈ idsOf items := by
  induction fuel with
  | zero =>
    intro M after items h hall
    cases items with
    | nil =>
      cases hall
      exact ⟨h, fun _ => by simp [idsOf]⟩
    | cons i rest => cases hall
  | succ fuel ih =>
    intro M after items h hall
    cases items with
    | nil =>
      cases hall
      exact ⟨h, fun _ => by simp [idsOf]⟩
    | cons i rest =>
      rw [registerAll] at hall
      obtain ⟨⟨next, pending⟩, hpass, hall⟩ := bind_inv hall
      dsimp only at hall
      split at hall
      · cases hall
      · obtain ⟨htree, hkeys⟩ := of_registerPass h hpass
        obtain ⟨hfinal, hfinalKeys⟩ := ih htree hall
        exact ⟨hfinal, fun id => (hfinalKeys id).trans (hkeys id)⟩

/-- The parts of an accepted snapshot that the validations read. -/
structure Accepted (sha256 : String → HexDigest) (S : BudgetSnapshot) (R : BudgetLedger) : Prop where
  scopes_nodup : (idsOf S.scopes).Nodup
  open_nodup : (S.openReservations.map fun r => r.reservationId.val).Nodup
  operations_nodup : (S.operationRecords.map BudgetOperationRecord.operationId).Nodup
  keys : ∀ id, id ∈ R.scopes.keys ↔ id ∈ idsOf S.scopes
  tables : ∃ registered : BudgetLedger, registered.ScopeTree ∧
    (registered.withSnapshot S).validateCommittedTotals S = .ok R.baselineCommitted ∧
    R = { registered.withSnapshot S with baselineCommitted := R.baselineCommitted }
  valid : R.validateRestoredState sha256 = .ok ()

theorem asHistory_eq_ok {α : Type} {x : Except BudgetError α} {a : α} :
    asHistory x = .ok a ↔ x = .ok a := by
  cases x <;> simp [asHistory]

theorem accepted_of_restore (h : restore sha256 S = .ok R) : Accepted sha256 S R := by
  unfold restore rejectDuplicateIdentities at h
  obtain ⟨hscopes, h⟩ := check_inv h
  obtain ⟨hopen, h⟩ := check_inv h
  obtain ⟨hoperations, h⟩ := check_inv h
  obtain ⟨-, h⟩ := check_inv h
  obtain ⟨root, hroot, h⟩ := bind_inv h
  iterate 2 obtain ⟨-, h⟩ := check_inv h
  obtain ⟨fresh, hfresh, h⟩ := bind_inv h
  obtain ⟨registered, hregistered, h⟩ := bind_inv h
  obtain ⟨baselines, hbaselines, h⟩ := bind_inv h
  obtain ⟨hvalid, h⟩ := check_inv h
  cases h
  have hnodup : (idsOf S.scopes).Nodup := of_require hscopes
  obtain ⟨i, hi, hid, rfl⟩ := (get?_ofItems hnodup _ _).mp (orRaise_eq_ok.mp hroot)
  have hinitial : fresh.IsInitial := ⟨i.scope, i.policy, BudgetAmounts.zero, .inl hfresh⟩
  obtain ⟨htree, hkeys⟩ := of_registerAll (hinitial.inv : LedgerInv sha256 fresh).tree hregistered
  have hfreshKeys : ∀ k, k ∈ fresh.scopes.keys ↔ k = S.rootScopeId := by
    intro k
    iterate 2 obtain ⟨-, hfresh⟩ := check_inv hfresh
    cases hfresh
    rw [← hid]
    exact mem_singleton
  refine ⟨hnodup, ?_, of_require hoperations, fun k => (hkeys k).trans ?_,
    ⟨registered, htree, asHistory_eq_ok.mp hbaselines, rfl⟩, asHistory_eq_ok.mp hvalid⟩
  · have := (of_require hopen).map (f := RequiredText.val) fun a b => RequiredText.ext
    rwa [map_map] at this
  · -- the pending items are all items but the root
    rw [hfreshKeys, ofItems_eq_map hnodup, PyDict.values, filter_map, map_map]
    by_cases hk : k = S.rootScopeId
    · subst hk
      simp only [true_or, true_iff]
      exact mem_map.mpr ⟨i, hi, hid⟩
    · simp only [hk, false_or, idsOf, mem_map, mem_filter, Function.comp_apply, id_eq,
        decide_eq_true_eq]
      constructor
      · rintro ⟨j, ⟨x, ⟨hx, -⟩, rfl⟩, rfl⟩
        exact ⟨x, hx, rfl⟩
      · rintro ⟨x, hx, rfl⟩
        exact ⟨x, ⟨x, ⟨hx, hk⟩, rfl⟩, rfl⟩

/-! ## The totals of a restored ledger -/

variable {t t' : PyDict RequiredText BudgetAmounts}

/-- Booking on a local table that does not raise. -/
theorem added_of_bookUp (h : L.ScopeTree) {id : RequiredText} {amount : BudgetAmounts}
    (hbook : L.bookUp id true amount t = .ok t') : Added L id amount t t' := by
  unfold bookUp at hbook
  split at hbook
  · rename_i out after hpass
    cases hbook
    have hdone : (L.ancestors id).2 = true := by
      unfold applyDeltaUp at hpass
      split at hpass
      · cases (Prod.mk.inj hpass).1
      · by_contra hnot
        rw [if_neg hnot] at hpass
        cases (Prod.mk.inj hpass).1
    simpa using added_of_applyDeltaUp h (registered_of_done hdone) hpass
  · cases hbook

/-- A fold that books one amount for each item has booked all of them. -/
theorem of_foldlM_booked {α : Type} {f : PyDict RequiredText BudgetAmounts → α →
      Except BudgetError (PyDict RequiredText BudgetAmounts)}
    {g : RequiredText → α → BudgetDimension → ℕ} {xs : List α}
    (step : ∀ t t' a, f t a = .ok t' → t'.keys = t.keys ∧ ∀ k, amountAt t' k = amountAt t k + g k a) :
    ∀ {t t' : PyDict RequiredText BudgetAmounts}, xs.foldlM f t = .ok t' →
      t'.keys = t.keys ∧ ∀ k, amountAt t' k = amountAt t k + (xs.map (g k)).sum := by
  induction xs with
  | nil =>
    intro t t' h
    cases h
    exact ⟨rfl, fun k => (add_zero _).symm⟩
  | cons a xs ih =>
    intro t t' h
    rw [foldlM_cons] at h
    obtain ⟨mid, hmid, hrest⟩ := bind_inv h
    obtain ⟨hkeys, hamount⟩ := step t mid a hmid
    obtain ⟨hkeys', hamount'⟩ := ih hrest
    refine ⟨hkeys'.trans hkeys, fun k => ?_⟩
    rw [hamount', hamount, map_cons, sum_cons, add_assoc]

theorem of_expectReservation (h : L.ScopeTree) {r : BudgetReservation}
    (hbook : L.expectReservation sha256 t r = .ok t') :
    t'.keys = t.keys ∧ ∀ k, amountAt t' k = amountAt t k + L.openAmount k r := by
  unfold expectReservation at hbook
  obtain ⟨policy, -, hbook⟩ := bind_inv (check_inv hbook).2
  have hbook := (check_inv hbook).2
  split at hbook
  · rename_i hopen
    have hadded := added_of_bookUp h hbook
    exact ⟨hadded.keys, fun k => by rw [hadded.amount_eq, openAmount, if_pos hopen]⟩
  · rename_i hclosed
    cases hbook
    exact ⟨rfl, fun k => by rw [openAmount, if_neg hclosed, add_zero]⟩

theorem of_expectSettlement (h : L.ScopeTree) (hbook : L.expectSettlement t record = .ok t') :
    t'.keys = t.keys ∧ ∀ k, amountAt t' k = amountAt t k + L.settledAmount k record := by
  unfold expectSettlement at hbook
  split at hbook
  · rename_i hnone
    cases hbook
    exact ⟨rfl, fun k => by rw [settledAmount, hnone, add_zero]⟩
  · rename_i settlement hsome
    have hadded := added_of_bookUp h (check_inv hbook).2
    exact ⟨hadded.keys, fun k => by rw [hadded.amount_eq, settledAmount, hsome]⟩

/-- Inferring baselines keeps the scopes they are for. -/
theorem keys_of_inferBaselines {legacy : List RequiredText}
    (h : L.inferBaselines legacy t record = .ok t') : t'.keys = t.keys := by
  unfold inferBaselines at h
  split at h
  · cases h
    rfl
  · obtain ⟨out, hfold, hrest⟩ := bind_inv h
    obtain rfl := ok_inj (check_inv hrest).2
    refine of_foldlM_keeps (P := fun _ s => s.keys = t.keys) (fun a rest s s' hs hstep => ?_) rfl hfold
    split at hstep
    · obtain ⟨current, hcurrent, hstep⟩ := bind_inv hstep
      obtain ⟨next, -, hstep⟩ := bind_inv hstep
      cases hstep
      have hmem := (mem_keys_iff _ _).mpr ⟨current, item_eq_ok.mp hcurrent⟩
      exact (keys_set_of_mem next hmem).trans hs
    · cases hstep
      exact hs

namespace Accepted

/-- The scopes of a restored ledger form a tree with an entry of every table for each of them. -/
theorem tree (h : Accepted sha256 S R) : R.ScopeTree := by
  obtain ⟨registered, htree, htotals, hR⟩ := h.tables
  have hkeys := h.keys
  unfold validateCommittedTotals at htotals
  obtain ⟨baselines, hinfer, htotals⟩ := bind_inv htotals
  obtain ⟨expected, -, htotals⟩ := bind_inv htotals
  obtain rfl := ok_inj (check_inv htotals).2
  have hbaseline : R.baselineCommitted.keys = idsOf S.scopes := by
    refine of_foldlM_keeps (P := fun _ s => s.keys = idsOf S.scopes) (fun a rest s s' hs hstep => ?_)
      (keys_ofItems h.scopes_nodup) hinfer
    split at hstep
    · cases hstep
      exact hs
    · exact (keys_of_inferBaselines hstep).trans hs
  have hcovers : ∀ {value : BudgetScopeSnapshot → BudgetAmounts},
      R.Covers (ofItems (fun i => i.scope.scopeId) value S.scopes) := fun {value} id => by
    rw [keys_ofItems h.scopes_nodup, hkeys]
    rfl
  have hcoversBaseline : R.Covers R.baselineCommitted := fun id => by rw [hbaseline, hkeys]
  rw [hR] at hcovers hcoversBaseline ⊢
  exact ⟨htree.nodup, htree.key_eq, htree.grown, htree.policies, hcovers, hcoversBaseline, hcovers,
    htree.root, htree.only_root, htree.same_run, htree.revision⟩

theorem operations_eq (h : Accepted sha256 S R) :
    R.operations = S.operationRecords.map fun record => (record.operationId, record) := by
  obtain ⟨registered, -, -, hR⟩ := h.tables
  rw [hR]
  exact ofItems_eq_map h.operations_nodup

/-- The committed totals of a restored ledger are its baselines and its settlements. -/
theorem committed_eq (h : Accepted sha256 S R) {k : RequiredText} (hk : k ∈ R.scopes.keys) :
    amountAt R.committed k =
      amountAt R.baselineCommitted k + sumOf (R.settledAmount k) R.operations := by
  have htree := h.tree
  obtain ⟨registered, -, htotals, hR⟩ := h.tables
  unfold validateCommittedTotals at htotals
  obtain ⟨baselines, -, htotals⟩ := bind_inv htotals
  obtain ⟨expected, hexpected, htotals⟩ := bind_inv htotals
  obtain ⟨hmatch, htotals⟩ := check_inv htotals
  cases htotals
  have hfold : S.operationRecords.foldlM R.expectSettlement R.baselineCommitted = .ok expected := by
    rw [hR]
    exact hexpected
  obtain ⟨-, hamount⟩ := of_foldlM_booked (g := R.settledAmount)
    (fun t t' record => of_expectSettlement htree) hfold
  obtain ⟨committed, hcommitted⟩ := htree.committed.exists_get hk
  have hentry : expected.get? k = some committed := by
    have hmem : (k, committed) ∈ (registered.withSnapshot S).committed := by
      rw [hR] at hcommitted
      exact mem_of_get? hcommitted
    obtain ⟨amounts, hamounts, heq⟩ := bind_inv (of_forM hmatch _ hmem)
    exact (item_eq_ok.mp hamounts).trans (congrArg some (of_require heq).symm)
  have hvalues : R.operations.values = S.operationRecords := by
    rw [h.operations_eq, PyDict.values, map_map]
    exact map_id _
  rw [amountAt_of_get? hcommitted, ← amountAt_of_get? hentry, hamount, sumOf, hvalues]

/-- A restored ledger has the totals of its reservations and settlements, within the limits. -/
theorem totals (h : Accepted sha256 S R) : R.Totals := by
  have htree := h.tree
  have hvalid := h.valid
  unfold validateRestoredState at hvalid
  obtain ⟨expected, hexpected, hvalid⟩ := bind_inv hvalid
  obtain ⟨heq, hvalid⟩ := check_inv hvalid
  obtain ⟨hscopes, -⟩ := check_inv hvalid
  have hfits : ∀ id ∈ R.scopes.keys, R.FitsAt (amountAt R.committed id + amountAt R.reserved id) id := by
    intro id hid
    obtain ⟨scope, hscope⟩ := (mem_keys_iff _ _).mp hid
    have hcheck := of_forM hscopes _ (mem_of_get? hscope)
    unfold validateScope at hcheck
    obtain ⟨root, -, hcheck⟩ := bind_inv hcheck
    obtain ⟨-, hcheck⟩ := check_inv hcheck
    obtain ⟨total, htotal, hcheck⟩ := bind_inv hcheck
    obtain ⟨policy, hpolicy, hcheck⟩ := bind_inv hcheck
    rw [← of_usedAt htotal]
    exact ⟨total.le_max, policy, item_eq_ok.mp hpolicy,
      BudgetLimits.violations_eq_nil_iff.mp (of_require hcheck)⟩
  refine ⟨fun id hid => ?_, fun id hid => h.committed_eq hid, fun id hid => (hfits id hid).1, ?_⟩
  · obtain ⟨-, hamount⟩ := of_foldlM_booked (g := R.openAmount)
      (fun t t' r => of_expectReservation htree) hexpected
    have hzero : amountAt (R.scopes.map fun p => (p.1, BudgetAmounts.zero)) id = 0 := amountAt_zeros _ id
    have hget := (eq_iff _ _).mp (of_require heq) id
    rw [amountAt, ← hget, ← amountAt, hamount, hzero, zero_add]
    rfl
  · intro id policy hpolicy
    have hid := (htree.policies id).mp ((mem_keys_iff _ _).mpr ⟨policy, hpolicy⟩)
    obtain ⟨-, policy', hpolicy', hadmits⟩ := hfits id hid
    rwa [Option.some.inj (hpolicy.symm.trans hpolicy')]

end Accepted

/-! ## Records of known reservations -/

/-- The operation of every reservation that the index or a record carries has a record. -/
structure Recorded (L : BudgetLedger) : Prop where
  index : ∀ e ∈ L.reservations, e.2.operationId ∈ L.operations.keys
  records : ∀ e ∈ L.operations, ∀ r, e.2.reservation = some r → r.operationId ∈ L.operations.keys

/-- `self._operations[reservation.operation_id]` is defined for the reservation that a settling call
finds under a reservation id. -/
def FindsRecords (L : BudgetLedger) : Prop :=
  ∀ reservationId r, L.reservationOrRecorded reservationId = .ok r →
    ∃ record, L.operations.get? r.operationId = some record

namespace Recorded

theorem frame (h : L.Recorded) {L' : BudgetLedger} (hreservations : L'.reservations = L.reservations)
    (hoperations : L'.operations = L.operations) : L'.Recorded := by
  constructor
  · rw [hreservations, hoperations]
    exact h.index
  · rw [hoperations]
    exact h.records

theorem findsRecords (h : L.Recorded) : L.FindsRecords := by
  intro reservationId r hr
  obtain ⟨id, -, hr⟩ := bind_inv hr
  rw [← mem_keys_iff]
  cases hget : L.reservations.get? id.val with
  | some found =>
    rw [hget] at hr
    cases hr
    exact h.index _ (mem_of_get? hget)
  | none =>
    rw [hget] at hr
    obtain ⟨record, hmem, hfound⟩ := exists_of_findSome?_eq_some (orRaise_eq_ok.mp hr)
    obtain ⟨e, he, rfl⟩ := mem_map.mp hmem
    split at hfound
    · exact h.records e he r hfound
    · cases hfound

/-- A record of its own reservation can be written. -/
theorem setRecord (h : L.Recorded) (hcreate : record.create = .ok record) {L' : BudgetLedger}
    (hoperations : L'.operations = L.operations.set record.operationId record)
    (hreservations : ∀ e ∈ L'.reservations, e ∈ L.reservations ∨ e.2.operationId ∈ L'.operations.keys) :
    L'.Recorded := by
  have hkeep : ∀ {k}, k ∈ L.operations.keys → k ∈ L'.operations.keys := fun hk =>
    hoperations ▸ mem_keys_set record hk
  refine ⟨fun e he => ?_, fun e he r hr => ?_⟩
  · rcases hreservations e he with he | he
    · exact hkeep (h.index e he)
    · exact he
  · rw [hoperations] at he
    rcases mem_set he with rfl | he
    · rw [← (BudgetOperationRecord.of_create_reservation hcreate hr).2.1, hoperations]
      exact self_mem_keys_set _ _ _
    · exact hkeep (h.records e he r hr)

/-- A reservation whose operation has a record can be closed. -/
theorem close (h : L.Recorded) {key text : String} {r : BudgetReservation} {s : BudgetSettlement}
    {revision : ℕ} (hr : r.operationId ∈ L.operations.keys) : Recorded ((do
      setReservation key r
      setOperation record
      advance revision text
      pure s : Commit BudgetSettlement).exec L).2 := by
  obtain ⟨operations, revision', last, heq, hcases⟩ := exec_close L key r record s revision text
  rw [heq]
  have hindex : ∀ e ∈ L.reservations.set key r, e ∈ L.reservations ∨ e.2.operationId ∈ L.operations.keys := by
    intro e he
    rcases mem_set he with rfl | he
    · exact .inr hr
    · exact .inl he
  rcases hcases with ⟨rfl, -⟩ | ⟨hcreate, rfl, -⟩
  · exact ⟨fun e he => (hindex e he).elim (h.index e) (·), h.records⟩
  · exact h.setRecord hcreate rfl fun e he =>
      (hindex e he).imp_right fun hk => mem_keys_set record hk

end Recorded

variable (sha256) in
/-- No call makes a reservation known whose operation has no record. -/
theorem stable_recorded : Stable sha256 Recorded where
  registered hL _ := hL.frame rfl rfl
  denied {L} _ _ _ _ _ _ _ _ d e hL hcheck := by
    have hd := of_reserveCheck_deny hcheck
    rw [denyCommit_exec hd.allowed]
    exact hL.setRecord (create_denied hd.allowed) rfl fun _ he => .inl he
  created {L} _ _ _ _ _ _ _ fingerprint r e hL hcheck := by
    refine exec_applyReservedDelta_bind (fun _ _ _ => hL.frame rfl rfl) fun t hpass => ?_
    have hexec : (createCommit fingerprint r e).exec _ = _ := createCommit_exec hpass
    rw [createCommit, Stateful.exec_bind_ok (exec_applyReservedDelta hpass)] at hexec
    rw [hexec]
    refine hL.setRecord create_reserved rfl fun e he => ?_
    rcases mem_set he with rfl | he
    · exact .inr (self_mem_keys_set _ _ _)
    · exact .inl he
  settled hL hcheck := by
    obtain ⟨-, hrecord, -⟩ := settleCheck_commit hcheck
    have hmem := (mem_keys_iff _ _).mpr ⟨_, hrecord⟩
    refine exec_applyReservedDelta_bind (fun _ _ _ => hL.frame rfl rfl) fun t _ => ?_
    refine exec_applyCommittedDelta_bind (fun _ => hL.frame rfl rfl) fun t' => ?_
    refine Recorded.close ?_ hmem
    exact hL.frame rfl rfl
  released hL hcheck := by
    obtain ⟨-, hrecord, -⟩ := releaseCheck_eq_commit.mp hcheck
    have hmem := (mem_keys_iff _ _).mpr ⟨_, hrecord⟩
    refine exec_applyReservedDelta_bind (fun _ _ _ => hL.frame rfl rfl) fun t _ => ?_
    refine Recorded.close ?_ hmem
    exact hL.frame rfl rfl
  indeterminate hL hcheck := by
    obtain ⟨-, hrecord, -⟩ := markIndeterminateCheck_eq_commit.mp hcheck
    exact hL.close ((mem_keys_iff _ _).mpr ⟨_, hrecord⟩)

/-! ## The reservations of a restored ledger -/

namespace Accepted

theorem get?_operations (h : Accepted sha256 S R) {op : RequiredText} :
    R.operations.get? op = some record ↔ record ∈ S.operationRecords ∧ record.operationId = op := by
  obtain ⟨registered, -, -, hR⟩ := h.tables
  rw [hR]
  refine (get?_ofItems h.operations_nodup op record).trans ⟨?_, ?_⟩
  · rintro ⟨_, hmem, rfl, rfl⟩
    exact ⟨hmem, rfl⟩
  · rintro ⟨hmem, rfl⟩
    exact ⟨record, hmem, rfl, rfl⟩

/-- The validation compares a record with both indexes. -/
theorem operation (h : Accepted sha256 S R) (hmem : record ∈ S.operationRecords) :
    R.idempotencyIndex.get? record.idempotencyKey = some record.operationId ∧
      ∀ r, record.reservation = some r → r.operationId = record.operationId := by
  have hget := h.get?_operations.mpr ⟨hmem, rfl⟩
  have hvalid := h.valid
  unfold validateRestoredState at hvalid
  obtain ⟨_, -, hvalid⟩ := bind_inv hvalid
  have hvalid := (check_inv (check_inv hvalid).2).2
  have hcheck := of_forM hvalid _ (mem_of_get? hget)
  unfold validateOperation at hcheck
  obtain ⟨-, hcheck⟩ := check_inv hcheck
  obtain ⟨hkey, hcheck⟩ := check_inv hcheck
  refine ⟨of_require hkey, fun r hr => ?_⟩
  split at hcheck
  · unfold validateReserved at hcheck
    obtain ⟨r', hr', hcheck⟩ := bind_inv hcheck
    have hcheck := (check_inv (check_inv hcheck).2).2
    obtain rfl := Option.some.inj (hr.symm.trans (orRaise_eq_ok.mp hr'))
    exact of_require (check_inv hcheck).1
  · unfold validateDenied at hcheck
    have hnone := (of_require (check_inv hcheck).1).1
    rw [hr] at hnone
    cases hnone

theorem mem_reservations (h : Accepted sha256 S R) {e : String × BudgetReservation} :
    (e.2 ∈ S.openReservations ∧ e.1 = e.2.reservationId.val → e ∈ R.reservations) ∧
      (e ∈ R.reservations → e.2 ∈ S.openReservations ∨
        ∃ record ∈ S.operationRecords, record.reservation = some e.2) := by
  obtain ⟨registered, -, -, hR⟩ := h.tables
  rw [hR]
  have hopen : ofItems _ id _ = _ := ofItems_eq_map h.open_nodup
  obtain ⟨-, hkeep, honly, -⟩ := foldl_indexRecorded S.operationRecords
    (d := ofItems (fun r : BudgetReservation => r.reservationId.val) id S.openReservations)
    (by rw [keys_ofItems h.open_nodup]; exact h.open_nodup)
  refine ⟨fun hmem => hkeep e ?_, fun hmem => ?_⟩
  · rw [hopen]
    exact mem_map.mpr ⟨e.2, hmem.1, Prod.ext hmem.2.symm rfl⟩
  · rcases honly e hmem with hmem | ⟨record, hrecord, r, hres, rfl⟩
    · rw [hopen] at hmem
      obtain ⟨r, hr, rfl⟩ := mem_map.mp hmem
      exact .inl hr
    · exact .inr ⟨record, hrecord, hres⟩

end Accepted

/-- The ties between the tables of a ledger. -/
structure Represents (L : BudgetLedger) : Prop where
  tree : L.ScopeTree
  totals : L.Totals
  recorded : ∀ e ∈ L.reservations, ∃ record, L.operations.get? e.2.operationId = some record ∧
    record.reservation = some e.2
  idempotency : ∀ op record, L.operations.get? op = some record →
    L.idempotencyIndex.get? record.idempotencyKey = some op

theorem Represents.toRecorded (h : L.Represents) (hown : ∀ e ∈ L.operations, ∀ r,
    e.2.reservation = some r → r.operationId ∈ L.operations.keys) : L.Recorded := by
  refine ⟨fun e he => ?_, hown⟩
  obtain ⟨record, hget, -⟩ := h.recorded e he
  exact (mem_keys_iff _ _).mpr ⟨record, hget⟩

end BudgetLedger

/-- Every open reservation is the reservation of an operation record. -/
def BudgetSnapshot.Recorded (S : BudgetSnapshot) : Prop :=
  ∀ r ∈ S.openReservations, ∃ record ∈ S.operationRecords, record.reservation = some r

instance (S : BudgetSnapshot) : Decidable S.Recorded :=
  inferInstanceAs (Decidable (∀ r ∈ S.openReservations, _))

namespace BudgetLedger

variable {sha256 : String → HexDigest} {S : BudgetSnapshot}

/-- A restored ledger is well formed, and after any calls every reservation that a settling call
finds has its operation record, exactly when the snapshot has a record for each open reservation. -/
theorem represents_iff_recorded (sha256 : String → HexDigest) (S : BudgetSnapshot) (R : BudgetLedger)
    (h : restore sha256 S = .ok R) :
    (R.Represents ∧ ∀ steps, FindsRecords (runSteps sha256 steps R).1) ↔ S.Recorded := by
  have haccepted := accepted_of_restore h
  constructor
  · rintro ⟨hrep, -⟩ r hr
    have hmem : (r.reservationId.val, r) ∈ R.reservations := haccepted.mem_reservations.1 ⟨hr, rfl⟩
    obtain ⟨record, hget, hres⟩ := hrep.recorded _ hmem
    exact ⟨record, (haccepted.get?_operations.mp hget).1, hres⟩
  · intro hS
    have hrep : R.Represents := by
      refine ⟨haccepted.tree, haccepted.totals, fun e he => ?_, fun op record hget => ?_⟩
      · obtain ⟨record, hrecord, hres⟩ := (haccepted.mem_reservations.2 he).elim (hS e.2) id
        have hown := (haccepted.operation hrecord).2 _ hres
        exact ⟨record, haccepted.get?_operations.mpr ⟨hrecord, hown.symm⟩, hres⟩
      · obtain ⟨hmem, rfl⟩ := haccepted.get?_operations.mp hget
        exact (haccepted.operation hmem).1
    refine ⟨hrep, fun steps => ?_⟩
    have hrecorded : R.Recorded := hrep.toRecorded fun e he r hr => by
      rw [haccepted.operations_eq] at he
      obtain ⟨record, hmem, rfl⟩ := mem_map.mp he
      rw [(haccepted.operation hmem).2 r hr]
      exact (mem_keys_iff _ _).mpr ⟨record, haccepted.get?_operations.mpr ⟨hmem, rfl⟩⟩
    exact ((stable_recorded sha256).run hrecorded).findsRecords

end BudgetLedger

/-! ## A snapshot without the record of an open reservation -/

namespace Sample

open BudgetLedger

/-- The ledger after one call is reserved. -/
def reservedLedger : BudgetLedger :=
  (runSteps sha256 [⟨.reserve scope oneCall "op-1" "key-1" none (some 0), .absent, 0⟩] ledger).1

/-- Its snapshot. -/
def reservedSnapshot : Except BudgetError BudgetSnapshot := reservedLedger.snapshot sha256

/-- The snapshot of the ledger restores a well-formed ledger. -/
theorem represents_reservedSnapshot : ∃ S R, restore sha256 S = .ok R ∧ R.Represents ∧
    ∀ steps, FindsRecords (runSteps sha256 steps R).1 := by
  have hok : (reservedSnapshot >>= fun S => restore sha256 S >>= fun _ =>
      .ok (decide S.Recorded)) = .ok true := by decide +kernel
  obtain ⟨S, -, hok⟩ := bind_inv hok
  obtain ⟨R, hR, hok⟩ := bind_inv hok
  exact ⟨S, R, hR, (represents_iff_recorded sha256 S R hR).mpr (of_decide_eq_true (ok_inj hok))⟩

/-- Without the operation record `restore` accepts the snapshot, and releasing the reservation
ends in a missing operation record. -/
theorem not_represents_orphan : ∃ S R, restore sha256 S = .ok R ∧
    (R.release sha256 .absent reservationId "op-1" "done" false none).outcome =
      .error ⟨.keyError, "op-1"⟩ ∧
    ¬ (R.Represents ∧ ∀ steps, FindsRecords (runSteps sha256 steps R).1) := by
  have hok : (reservedSnapshot >>= fun S => restore sha256 { S with operationRecords := [] } >>= fun R =>
      .ok (R.reservations.map fun e => (R.operations.get? e.2.operationId).isSome,
        (R.release sha256 .absent reservationId "op-1" "done" false none).outcome)) =
      .ok ([false], .error ⟨.keyError, "op-1"⟩) := by decide +kernel
  obtain ⟨S, -, hok⟩ := bind_inv hok
  obtain ⟨R, hR, hok⟩ := bind_inv hok
  obtain ⟨hindex, hrelease⟩ := Prod.mk.inj (ok_inj hok)
  refine ⟨_, R, hR, hrelease, fun h => ?_⟩
  have hmem : false ∈ R.reservations.map fun e => (R.operations.get? e.2.operationId).isSome := by
    rw [hindex]
    exact mem_cons_self
  obtain ⟨e, he, hnone⟩ := mem_map.mp hmem
  obtain ⟨record, hget, -⟩ := h.1.recorded e he
  rw [hget] at hnone
  cases hnone

end Sample

end Budget
