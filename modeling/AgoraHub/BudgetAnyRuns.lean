/-
# Runs of any calls

What holds of a ledger after any calls, also after calls that write a reservation
under another name than the one they read it under: the scopes form a tree, and
what is used at a scope stays within its bounds and limits.  A commit that stops
halfway has only freed amounts.
-/
import AgoraHub.BudgetPreservation

namespace Budget

open Fallible PyText PyDict Stateful

/-! ## Predicates that every call preserves -/

variable {α : Type} {reservationId : String} {id : RequiredText} {amount : BudgetAmounts}
variable {rest : Unit → Commit α} {record : BudgetOperationRecord}

namespace BudgetLedger

/-- Registrations and commits preserve the predicate, as far as a commit gets. -/
structure Stable (sha256 : String → HexDigest) (P : BudgetLedger → Prop) : Prop where
  registered {L : BudgetLedger} {scope : BudgetScopeRef} {policy : BudgetPolicy} :
    P L → L.Registered scope policy → P (L.addScope scope policy)
  denied {L : BudgetLedger} {clock : ℤ} {scope : BudgetScopeRef} {request : BudgetAmounts}
      {op key : String} {policy : Option BudgetPolicy} {createdAt : Option ℤ}
      {fingerprint : RequiredText} {d : BudgetDecision} {e : BudgetEvent} :
    P L → L.reserveCheck sha256 clock scope request op key policy createdAt =
      .ok (.deny fingerprint d e) → P ((denyCommit fingerprint d e).exec L).2
  created {L : BudgetLedger} {clock : ℤ} {scope : BudgetScopeRef} {request : BudgetAmounts}
      {op key : String} {policy : Option BudgetPolicy} {createdAt : Option ℤ}
      {fingerprint : RequiredText} {r : BudgetReservation} {e : BudgetEvent} :
    P L → L.reserveCheck sha256 clock scope request op key policy createdAt =
      .ok (.create fingerprint r e) → P ((createCommit fingerprint r e).exec L).2
  settled {L : BudgetLedger} {reservationId text : String} {r : BudgetReservation}
      {record : BudgetOperationRecord} {asked s : BudgetSettlement} {e : BudgetEvent} :
    P L → L.settleCheck reservationId asked = .ok (.commit r record s e text) →
      P ((settleCommit reservationId r record s e text).exec L).2
  released {L : BudgetLedger} {reservationId op reason text : String} {dispatched : Bool}
      {eventId : Option String} {eventType : BudgetEventType} {status : BudgetReservationStatus}
      {r : BudgetReservation} {record : BudgetOperationRecord} {s : BudgetSettlement}
      {e : BudgetEvent} :
    P L → L.releaseCheck sha256 reservationId op reason dispatched eventId eventType status =
      .ok (.commit r record s e text) → P ((releaseCommit reservationId status r record s e text).exec L).2
  indeterminate {L : BudgetLedger} {reservationId op reason text : String}
      {eventId : Option String} {r : BudgetReservation} {record : BudgetOperationRecord}
      {s : BudgetSettlement} {e : BudgetEvent} :
    P L → L.markIndeterminateCheck sha256 reservationId op reason eventId =
      .ok (.commit r record s e text) →
      P ((markIndeterminateCommit reservationId r record s e text).exec L).2

variable {sha256 : String → HexDigest} {P : BudgetLedger → Prop} {L : BudgetLedger}
  {sink : SinkReply}

theorem appendThen_ledger {event : BudgetEvent} {commit : Commit α} (hL : P L)
    (hcommit : P (commit.exec L).2) : P (appendThen sink event commit L).ledger := by
  unfold appendThen
  split
  · exact hL
  · exact hcommit

namespace Stable

theorem markIndeterminate (h : Stable sha256 P) (hL : P L) {op reason : String}
    {eventId : Option String} :
    P (L.markIndeterminate sha256 sink reservationId op reason eventId).ledger := by
  unfold BudgetLedger.markIndeterminate
  split
  · exact hL
  · exact hL
  · exact hL
  · exact appendThen_ledger hL (h.indeterminate hL ‹_›)

theorem releaseLocked (h : Stable sha256 P) (hL : P L) {op reason : String} {dispatched : Bool}
    {eventId : Option String} {eventType : BudgetEventType} {status : BudgetReservationStatus} :
    P (L.releaseLocked sha256 sink reservationId op reason dispatched eventId eventType
      status).ledger := by
  unfold BudgetLedger.releaseLocked
  split
  · exact hL
  · exact hL
  · exact hL
  · exact appendThen_ledger hL (h.released hL ‹_›)

/-- A step preserves the predicate, whether it returns or raises. -/
theorem step (h : Stable sha256 P) (hL : P L) (step : LedgerStep) : P (step.apply sha256 L).1 := by
  obtain ⟨call, sink, clock⟩ := step
  cases call with
  | registerScope scope policy =>
    show P (L.registerScope scope policy).ledger
    unfold registerScope
    split
    · exact hL
    · exact hL
    · exact h.registered hL (of_registerCheck ‹_›)
  | reserve scope request op key policy createdAt =>
    show P (reserve sha256 sink clock L scope request op key policy createdAt).ledger
    unfold reserve
    split
    · exact hL
    · exact hL
    · exact appendThen_ledger hL (h.denied hL ‹_›)
    · exact appendThen_ledger hL (h.created hL ‹_›)
  | settle reservationId settlement =>
    show P (settle sha256 sink L reservationId settlement).ledger
    unfold settle
    split
    · exact hL
    · exact hL
    · exact h.markIndeterminate hL
    · exact appendThen_ledger hL (h.settled hL ‹_›)
  | release reservationId op reason dispatched eventId => exact h.releaseLocked hL
  | expire reservationId now =>
    show P (expire sha256 sink clock L reservationId now).ledger
    unfold expire
    split
    · exact hL
    · exact h.releaseLocked hL
  | markIndeterminate reservationId op reason eventId => exact h.markIndeterminate hL

theorem run (h : Stable sha256 P) {steps : List LedgerStep} :
    ∀ {L : BudgetLedger}, P L → P (runSteps sha256 steps L).1 := by
  induction steps with
  | nil => exact fun hL => hL
  | cons step steps ih => exact fun hL => ih (h.step hL step)

end Stable

/-! ## Commits that close a reservation -/

/-- The assignments that follow the passes of a settling commit. -/
theorem exec_close (L : BudgetLedger) (key : String) (r : BudgetReservation)
    (record : BudgetOperationRecord) (s : BudgetSettlement) (revision : ℕ) (text : String) :
    ∃ operations revision' last, ((do
        setReservation key r
        setOperation record
        advance revision text
        pure s : Commit BudgetSettlement).exec L).2 = { L with
            reservations := L.reservations.set key r, operations := operations
            revision := revision', lastEventId := last } ∧
      (operations = L.operations ∧ revision' = L.revision ∨ record.create = .ok record ∧
          operations = L.operations.set record.operationId record ∧ revision' = revision) := by
  rw [exec_bind_ok (show (setReservation key r).exec L = (.ok (), _) from rfl)]
  cases hcreate : record.create with
  | error e =>
    have hexec : (setOperation record).exec { L with reservations := L.reservations.set key r } =
        (.error e, { L with reservations := L.reservations.set key r }) := by
      rw [setOperation, hcreate]
      rfl
    rw [exec_bind_error hexec]
    exact ⟨_, _, _, rfl, .inl ⟨rfl, rfl⟩⟩
  | ok record' =>
    obtain rfl := (BudgetOperationRecord.create_eq_ok.mp hcreate).2.2.2
    rw [exec_bind_ok (exec_setOperation hcreate)]
    exact ⟨_, _, _, rfl, .inr ⟨rfl, rfl, rfl⟩⟩

/-- A commit that starts with a pass over the reserved totals. -/
theorem exec_applyReservedDelta_bind {add : Bool}
    (hstop : ∀ e t, L.applyDeltaUp id add amount L.reserved = (.error e, t) →
      P { L with reserved := t })
    (hrest : ∀ t, L.applyDeltaUp id add amount L.reserved = (.ok (), t) →
      P ((rest ()).exec { L with reserved := t }).2) :
    P ((applyReservedDelta id amount add >>= rest).exec L).2 := by
  rcases hpass : L.applyDeltaUp id add amount L.reserved with ⟨e | _, t⟩
  · have hexec : (applyReservedDelta id amount add).exec L = (.error e, { L with reserved := t }) := by
      simp only [Stateful.exec, applyReservedDelta, hpass]
    rw [exec_bind_error hexec]
    exact hstop e t hpass
  · rw [exec_bind_ok (exec_applyReservedDelta hpass)]
    exact hrest t hpass

/-- A commit that starts with a pass over the committed totals. -/
theorem exec_applyCommittedDelta_bind {add : Bool} (hstop : ∀ t, P { L with committed := t })
    (hrest : ∀ t, P ((rest ()).exec { L with committed := t }).2) :
    P ((applyCommittedDelta id amount add >>= rest).exec L).2 := by
  rcases hpass : L.applyDeltaUp id add amount L.committed with ⟨e | _, t⟩
  · have hexec : (applyCommittedDelta id amount add).exec L =
        (.error e, { L with committed := t }) := by
      simp only [Stateful.exec, applyCommittedDelta, hpass]
    rw [exec_bind_error hexec]
    exact hstop t
  · rw [exec_bind_ok (exec_applyCommittedDelta hpass)]
    exact hrest t

/-- A pass that subtracts, as far as it gets. -/
theorem applyDeltaUp_subtract_le (id : RequiredText) (amount : BudgetAmounts)
    (t : PyDict RequiredText BudgetAmounts) : (L.applyDeltaUp id false amount t).2.keys = t.keys ∧
      ∀ k, amountAt (L.applyDeltaUp id false amount t).2 k ≤ amountAt t k := by
  have h := @applyDelta_subtract_le amount (L.ancestors id).1 t
  have hsame : (L.applyDeltaUp id false amount t).2 = (applyDelta false amount (L.ancestors id).1 t).2 := by
    rw [applyDeltaUp]
    split
    · rename_i heq
      rw [heq]
    · rename_i heq
      rw [heq]
      split <;> rfl
  rwa [hsame]

/-! ## Bounds and limits -/

theorem FitsAt.mono {v w : BudgetDimension → ℕ} {k : RequiredText} (h : L.FitsAt v k) (hle : w ≤ v) :
    L.FitsAt w k := by
  obtain ⟨hmax, policy, hpolicy, hadmits⟩ := h
  exact ⟨fun d => (hle d).trans (hmax d), policy, hpolicy, hadmits.mono hle⟩

theorem registered_of_done (h : (L.ancestors id).2 = true) : id ∈ L.scopes.keys := by
  by_contra hnot
  have hnone : L.parentOf id = none := by
    rw [parentOf, (get?_eq_none_iff _ _).mpr hnot]
    rfl
  rw [ancestors, Forest.walk, if_neg List.not_mem_nil, hnone] at h
  exact absurd h Bool.false_ne_true

/-- The scopes form a tree, and what is used at a scope fits there. -/
structure Balanced (L : BudgetLedger) : Prop where
  tree : L.ScopeTree
  fits : ∀ k ∈ L.scopes.keys, L.FitsAt (amountAt L.committed k + amountAt L.reserved k) k
  revision_le : L.revision ≤ maxBudgetInteger

namespace Balanced

/-- A ledger stays balanced when its new totals fit. -/
theorem frame (h : L.Balanced) {L' : BudgetLedger} (hroot : L'.rootScopeId = L.rootScopeId)
    (hscopes : L'.scopes = L.scopes) (hpolicies : L'.policies = L.policies)
    (hbaseline : L'.baselineCommitted = L.baselineCommitted)
    (hcommitted : L'.committed.keys = L.committed.keys)
    (hreserved : L'.reserved.keys = L.reserved.keys)
    (hfits : ∀ k ∈ L.scopes.keys, L.FitsAt (amountAt L'.committed k + amountAt L'.reserved k) k)
    (hrevision : L'.revision ≤ maxBudgetInteger) : L'.Balanced := by
  refine ⟨h.tree.frame hroot hscopes hpolicies hcommitted hbaseline hreserved, ?_, hrevision⟩
  intro k hk
  rw [FitsAt, hpolicies]
  exact hfits k (hscopes ▸ hk)

/-- A commit that first frees amounts leaves a balanced ledger when the rest of it does. -/
theorem free (h : L.Balanced)
    (hrest : ∀ freed, L.applyDeltaUp id false amount L.reserved = (.ok (), freed) →
      Balanced { L with reserved := freed } →
        Balanced ((rest ()).exec { L with reserved := freed }).2) :
    Balanced ((applyReservedDelta id amount false >>= rest).exec L).2 := by
  have hfree : ∀ {out freed}, L.applyDeltaUp id false amount L.reserved = (out, freed) →
      Balanced { L with reserved := freed } := by
    intro out freed hpass
    obtain ⟨hkeys, hle⟩ := applyDeltaUp_subtract_le (L := L) id amount L.reserved
    rw [hpass] at hkeys hle
    exact h.frame rfl rfl rfl rfl rfl hkeys
      (fun k hk => (h.fits k hk).mono (add_le_add_right (hle k) _)) h.revision_le
  refine exec_applyReservedDelta_bind (fun e freed hpass => hfree hpass) fun freed hpass => ?_
  exact hrest freed hpass (hfree hpass)

/-- A ledger stays balanced when a reservation is closed. -/
theorem close (h : L.Balanced) {key text : String} {r : BudgetReservation} {s : BudgetSettlement}
    {revision : ℕ} (hrevision : revision ≤ maxBudgetInteger) : Balanced ((do
      setReservation key r
      setOperation record
      advance revision text
      pure s : Commit BudgetSettlement).exec L).2 := by
  obtain ⟨operations, revision', last, heq, hcases⟩ := exec_close L key r record s revision text
  rw [heq]
  refine h.frame rfl rfl rfl rfl rfl rfl h.fits ?_
  rcases hcases with ⟨-, rfl⟩ | ⟨-, -, rfl⟩
  · exact h.revision_le
  · exact hrevision

end Balanced

/-- A registered scope starts with nothing. -/
theorem Balanced.addScope (h : L.Balanced) {scope : BudgetScopeRef} {policy : BudgetPolicy}
    (hreg : L.Registered scope policy) : (L.addScope scope policy).Balanced := by
  refine ⟨h.tree.addScope hreg, fun k hk => ?_, h.revision_le⟩
  by_cases hself : k = scope.scopeId
  · subst hself
    have hzero : ∀ d : PyDict RequiredText BudgetAmounts,
        amountAt (d.set scope.scopeId BudgetAmounts.zero) scope.scopeId = 0 := fun d => by
      rw [amountAt_set, if_pos rfl, BudgetAmounts.get_zero]
    show FitsAt _ (amountAt (L.committed.set _ _) _ + amountAt (L.reserved.set _ _) _) _
    rw [hzero, hzero, add_zero]
    exact ⟨fun _ => Nat.zero_le _, policy, get?_set_self _ _ _,
      fun _ _ _ => Nat.zero_le _, fun _ _ => Nat.zero_le _⟩
  · have hold : k ∈ L.scopes.keys := by
      obtain ⟨found, hfound⟩ := (mem_keys_iff _ _).mp hk
      exact mem_scopes_keys ((get?_set_of_ne _ _ hself).symm.trans hfound)
    obtain ⟨hmax, limits, hlimits, hadmits⟩ := h.fits k hold
    show FitsAt _ (amountAt (L.committed.set _ _) _ + amountAt (L.reserved.set _ _) _) _
    rw [amountAt_set, amountAt_set, if_neg hself, if_neg hself]
    exact ⟨hmax, limits, (get?_set_of_ne _ _ hself).trans hlimits, hadmits⟩

/-- A settlement that fits leaves a balanced ledger, as far as its commit gets. -/
theorem Balanced.settleCommit (h : L.Balanced) {text : String} {r : BudgetReservation}
    {asked s : BudgetSettlement} {e : BudgetEvent}
    (hcheck : L.settleCheck reservationId asked = .ok (.commit r record s e text)) :
    Balanced ((BudgetLedger.settleCommit reservationId r record s e text).exec L).2 := by
  obtain ⟨-, -, -, -, -, rfl, -, hfits, -, hevent⟩ := settleCheck_commit hcheck
  obtain ⟨hdone, hfits⟩ := of_settlementFitsReservation hfits
  have hid := registered_of_done hdone
  refine h.free fun freed hpass hfree => ?_
  have hfreed : Added L r.scope.scopeId r.requested freed L.reserved := by
    simpa using added_of_applyDeltaUp h.tree hid hpass
  have hroom : ∀ k ∈ (L.ancestors r.scope.scopeId).1,
      L.FitsAt (amountAt L.committed k + amountAt freed k + s.actual.get) k := by
    intro k hk
    obtain ⟨rest, hrest, hfit⟩ := hfits k hk
    rw [hfreed.amount_eq, amountOn, if_pos hk, ← add_assoc] at hrest
    rwa [← add_right_cancel hrest]
  obtain ⟨booked, hbooked, hadded⟩ := applyDeltaUp_add s.actual h.tree hid h.tree.committed
    fun k hk d => by
      have := (hroom k hk).1 d
      simp only [Pi.add_apply] at this
      omega
  rw [exec_bind_ok (exec_applyCommittedDelta (L := { L with reserved := freed }) hbooked)]
  refine Balanced.close ?_ (BudgetEvent.of_create hevent).1
  refine hfree.frame rfl rfl rfl rfl hadded.keys rfl (fun k hk => ?_) h.revision_le
  show L.FitsAt (amountAt booked k + amountAt freed k) k
  rw [hadded.amount_eq]
  by_cases hmem : k ∈ (L.ancestors r.scope.scopeId).1
  · rw [amountOn, if_pos hmem, add_right_comm]
    exact hroom k hmem
  · rw [amountOn, if_neg hmem, add_zero]
    exact hfree.fits k hk

variable (sha256) in
/-- Every call keeps a ledger balanced. -/
theorem stable_balanced : Stable sha256 Balanced where
  registered hL hreg := hL.addScope hreg
  denied {L} _ _ _ _ _ _ _ _ _ e hL hcheck := by
    have hd := of_reserveCheck_deny hcheck
    have hrevision : e.ledgerRevision ≤ maxBudgetInteger := hd.revision.trans_le hd.revision_le
    rw [denyCommit_exec hd.allowed]
    exact hL.frame rfl rfl rfl rfl rfl rfl hL.fits hrevision
  created {L} _ _ _ _ _ _ _ _ r e hL hcheck := by
    have hadm := of_reserveCheck_create hcheck
    have hid := mem_scopes_keys hadm.scope
    obtain ⟨reserved, hbooked, hadded⟩ := applyDeltaUp_add r.requested hL.tree hid hL.tree.reserved
      fun k hk d => by
        have := (hadm.fits k hk).1 d
        simp only [Pi.add_apply] at this
        omega
    rw [createCommit_exec hbooked]
    refine hL.frame rfl rfl rfl rfl rfl hadded.keys (fun k hk => ?_)
      (hadm.event ▸ hadm.revision_le)
    show L.FitsAt (amountAt L.committed k + amountAt reserved k) k
    rw [hadded.amount_eq, ← add_assoc]
    by_cases hmem : k ∈ (L.ancestors r.scope.scopeId).1
    · rw [amountOn, if_pos hmem]
      exact hadm.fits k hmem
    · rw [amountOn, if_neg hmem, add_zero]
      exact hL.fits k hk
  settled hL hcheck := hL.settleCommit hcheck
  released hL hcheck := by
    obtain ⟨-, -, -, -, -, -, -, _, _, _, -, -, -, -, -, hevent⟩ := releaseCheck_eq_commit.mp hcheck
    exact hL.free fun _ _ hfree => hfree.close (BudgetEvent.of_create hevent).1
  indeterminate hL hcheck := by
    obtain ⟨-, -, -, -, -, -, _, _, _, -, -, -, -, -, hevent⟩ :=
      markIndeterminateCheck_eq_commit.mp hcheck
    exact hL.close (BudgetEvent.of_create hevent).1

end BudgetLedger

end Budget
