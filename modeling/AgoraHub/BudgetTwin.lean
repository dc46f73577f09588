/-
# Checks of ledgers with equal entries

Two ledgers that satisfy the invariant and have the same entries answer every check
alike, so an operation that commits in one commits in the other, and the two results
have the same entries again.
-/
import AgoraHub.BudgetRoundTrip

namespace Budget

open Fallible PyText PyDict BudgetLedger

namespace BudgetLedger

/-- Two ledgers with the same entries that satisfy the invariant. -/
structure Twin (sha256 : String → HexDigest) (L R : BudgetLedger) : Prop where
  same : Same L R
  left : LedgerInv sha256 L
  right : LedgerInv sha256 R

/-- `_reservation_or_recorded` is a lookup in the index. -/
theorem reservationOrRecorded_eq {sha256 : String → HexDigest} {L : BudgetLedger}
    (h : Records sha256 L) (reservationId : String) : L.reservationOrRecorded reservationId = (do
      let id ← requiredText reservationId "reservation_id"
      orRaise (L.reservations.get? id.val) (.state ("unknown reservation: " ++ id.val))) := by
  cases hr : L.reservationOrRecorded reservationId with
  | ok r =>
    have hget := of_reservationOrRecorded h hr
    simp only [reservationOrRecorded, bind_eq_ok] at hr
    obtain ⟨id, hid, -⟩ := hr
    rw [hid, ok_bind, val_of_requiredText hid, hget, orRaise_some]
  | error e =>
    rw [reservationOrRecorded] at hr
    cases hid : requiredText reservationId "reservation_id" with
    | error e' => rw [hid] at hr; exact hr.symm
    | ok id =>
      rw [hid, ok_bind] at hr
      rw [ok_bind]
      cases hget : L.reservations.get? id.val with
      | some r => rw [hget] at hr; simp at hr
      | none =>
        rw [hget] at hr
        cases hfound : L.operations.values.findSome? fun record =>
            if record.reservationId = some id then record.reservation else none with
        | some r => rw [hfound] at hr; simp at hr
        | none => rw [hfound] at hr; exact hr.symm

namespace Twin

variable {sha256 : String → HexDigest} {L R : BudgetLedger}

section

variable (h : Twin sha256 L R)

include h

theorem ancestors : R.ancestors = L.ancestors :=
  funext fun id => h.same.ancestors h.left.tree h.right.tree id

theorem usedAt : R.usedAt = L.usedAt := by
  funext id
  simp only [BudgetLedger.usedAt, item, h.same.committed, h.same.reserved]

theorem effectiveAvailable : R.effectiveAvailable = L.effectiveAvailable := by
  funext id extra
  simp only [BudgetLedger.effectiveAvailable, forAncestors, h.ancestors, h.usedAt, item,
    h.same.policies]

theorem projectedForRequest : R.projectedForRequest = L.projectedForRequest := by
  funext id request
  simp only [BudgetLedger.projectedForRequest, forAncestors, h.ancestors, h.usedAt,
    h.effectiveAvailable, item, h.same.policies, h.same.committed, h.same.reserved, h.same.revision]

theorem requireScope : R.requireScope = L.requireScope := by
  funext scope policy
  simp only [BudgetLedger.requireScope, item, h.same.scopes, h.same.policies]

theorem existingOperation : R.existingOperation = L.existingOperation := by
  funext operationId key fingerprint
  simp only [BudgetLedger.existingOperation, h.same.idempotency, h.same.operations]

theorem reserveCheck : R.reserveCheck sha256 = L.reserveCheck sha256 := by
  funext clock scope request op key policy createdAt
  simp only [BudgetLedger.reserveCheck, h.requireScope, h.existingOperation, h.projectedForRequest,
    h.same.revision]

theorem reservation : R.reservation = L.reservation := by
  funext reservationId
  simp only [BudgetLedger.reservation, h.same.reservations]

theorem reservationOrRecorded : R.reservationOrRecorded = L.reservationOrRecorded := by
  funext reservationId
  rw [reservationOrRecorded_eq h.left.records, reservationOrRecorded_eq h.right.records]
  simp only [h.same.reservations]

theorem settlementFitsReservation : R.settlementFitsReservation = L.settlementFitsReservation := by
  funext r actual
  simp only [BudgetLedger.settlementFitsReservation, forAncestors, h.ancestors, h.usedAt, item,
    h.same.policies]

theorem settleCheck : R.settleCheck = L.settleCheck := by
  funext reservationId s
  simp only [BudgetLedger.settleCheck, settleRest, h.reservationOrRecorded,
    h.settlementFitsReservation, item, h.same.operations, h.same.revision]

theorem releaseCheck : R.releaseCheck sha256 = L.releaseCheck sha256 := by
  funext reservationId op reason dispatched eventId eventType status
  simp only [BudgetLedger.releaseCheck, h.reservationOrRecorded, item, h.same.operations,
    h.same.revision]

theorem markIndeterminateCheck :
    R.markIndeterminateCheck sha256 = L.markIndeterminateCheck sha256 := by
  funext reservationId op reason eventId
  simp only [BudgetLedger.markIndeterminateCheck, h.reservationOrRecorded, item, h.same.operations,
    h.same.revision]

theorem expireCheck : R.expireCheck = L.expireCheck := by
  funext clock reservationId now
  simp only [BudgetLedger.expireCheck, h.reservation, item, h.same.policies]

end

end Twin

/-! ## Commits on both sides -/

section Commits

variable {sha256 : String → HexDigest} {L R : BudgetLedger}

variable {t t' u u' : PyDict RequiredText BudgetAmounts}

/-- Tables that differ from equal tables by the same booking are equal. -/
theorem Twin.added_eq (h : Twin sha256 L R) {id : RequiredText} {amount : BudgetAmounts}
    (htu : ∀ k, u.get? k = t.get? k) (ht : Added L id amount t t') (hu : Added R id amount u u')
    (k : RequiredText) : u'.get? k = t'.get? k := by
  refine get?_eq_of_amountAt ?_ ?_
  · rw [ht.keys, hu.keys, mem_keys_iff, mem_keys_iff, htu]
  · rw [ht.amount_eq, hu.amount_eq, h.ancestors, amountAt, amountAt, htu]

/-- Tables from which the same booking leads to equal tables are equal. -/
theorem Twin.freed_eq (h : Twin sha256 L R) {id : RequiredText} {amount : BudgetAmounts}
    (htu : ∀ k, u.get? k = t.get? k) (ht : Added L id amount t' t) (hu : Added R id amount u' u)
    (k : RequiredText) : u'.get? k = t'.get? k := by
  refine get?_eq_of_amountAt ?_ ?_
  · rw [← ht.keys, ← hu.keys, mem_keys_iff, mem_keys_iff, htu]
  · have ht' := ht.amount_eq k
    have hu' := hu.amount_eq k
    rw [amountAt, htu, ← amountAt, ht', h.ancestors] at hu'
    funext d
    have := congrFun hu' d
    simp only [Pi.add_apply] at this
    omega

theorem Same.withDenial (h : Same L R) (fingerprint : RequiredText) (d : BudgetDecision)
    (e : BudgetEvent) : Same (L.withDenial fingerprint d e) (R.withDenial fingerprint d e) :=
  { h with
    operations := fun op => by
      rw [BudgetLedger.withDenial, BudgetLedger.withDenial, get?_set, get?_set,
        h.operations]
    idempotency := fun key => by
      rw [BudgetLedger.withDenial, BudgetLedger.withDenial, get?_set, get?_set,
        h.idempotency]
    revision := rfl }

theorem Same.withReservation (h : Same L R) (fingerprint : RequiredText) (r : BudgetReservation)
    (e : BudgetEvent) (htu : ∀ k, u.get? k = t.get? k) :
    Same (L.withReservation fingerprint r e t) (R.withReservation fingerprint r e u) :=
  { h with
    reserved := htu
    reservations := fun key => by
      rw [BudgetLedger.withReservation, BudgetLedger.withReservation, get?_set,
        get?_set, h.reservations]
    operations := fun op => by
      rw [BudgetLedger.withReservation, BudgetLedger.withReservation, get?_set,
        get?_set, h.operations]
    idempotency := fun key => by
      rw [BudgetLedger.withReservation, BudgetLedger.withReservation, get?_set,
        get?_set, h.idempotency]
    revision := rfl }

theorem Same.withSettlement (h : Same L R) (key : String) (r : BudgetReservation)
    (record : BudgetOperationRecord) (s : BudgetSettlement) (revision : ℕ) (text text' : String)
    (htu : ∀ k, u.get? k = t.get? k) (htu' : ∀ k, u'.get? k = t'.get? k) :
    Same (L.withSettlement key r record s revision text t t')
      (R.withSettlement key r record s revision text' u u') :=
  { h with
    reserved := htu
    committed := htu'
    reservations := fun k => by
      rw [BudgetLedger.withSettlement, BudgetLedger.withSettlement, get?_set,
        get?_set, h.reservations]
    operations := fun op => by
      rw [BudgetLedger.withSettlement, BudgetLedger.withSettlement, get?_set,
        get?_set, h.operations]
    revision := rfl }

end Commits

/-! ## Snapshots of both sides -/

section Snapshots

variable {sha256 : String → HexDigest} {L R : BudgetLedger}

/-- Sorting the keys of equal dictionaries gives one list. -/
theorem sortedKeys_eq {ν : Type} {d d' : PyDict RequiredText ν} (hd : d.keys.Nodup)
    (hd' : d'.keys.Nodup) (h : ∀ k, d'.get? k = d.get? k) : sortedKeys d' = sortedKeys d := by
  have hperm : (sortedKeys d').Perm (sortedKeys d) :=
    (sortedKeys_perm d').trans (((perm_of_get?_eq hd hd' h).map Prod.fst).trans
      (sortedKeys_perm d).symm)
  have htotal : Std.Total (fun a b : RequiredText => a.val ≤ b.val) :=
    ⟨fun a b => le_total a.val b.val⟩
  have hsorted : ∀ t : PyDict RequiredText ν,
      (sortedKeys t).Pairwise fun a b => a.val ≤ b.val := fun t =>
    List.pairwise_insertionSort _ _
  exact hperm.eq_of_pairwise (fun a b _ _ hab hba => RequiredText.ext (le_antisymm hab hba))
    (hsorted d') (hsorted d)

/-- Twins whose last event ids agree up to white space have the same snapshot. -/
theorem Twin.snapshot_eq (h : Twin sha256 L R)
    (hlast : R.lastEventId.map strip = L.lastEventId.map strip) :
    R.snapshot sha256 = L.snapshot sha256 := by
  have hscopes : sortedKeys R.scopes = sortedKeys L.scopes :=
    sortedKeys_eq h.left.tree.nodup h.right.tree.nodup h.same.scopes
  have hoperations : sortedKeys R.operations = sortedKeys L.operations :=
    sortedKeys_eq h.left.records.operations_nodup h.right.records.operations_nodup
      h.same.operations
  have hreservations : sorted R.reservations.keys = sorted L.reservations.keys :=
    sorted_eq ((perm_of_get?_eq h.left.records.reservations_nodup
      h.right.records.reservations_nodup h.same.reservations).map Prod.fst)
  have hscope : R.scopeSnapshot = L.scopeSnapshot := by
    funext id
    simp only [scopeSnapshot, item, h.same.scopes, h.same.policies, h.same.committed,
      h.same.reserved, h.same.baseline]
  have htext : optionalText R.lastEventId "last_event_id" =
      optionalText L.lastEventId "last_event_id" := by
    cases hR : R.lastEventId with
    | none => cases hL : L.lastEventId with
      | none => rfl
      | some text => simp [hR, hL] at hlast
    | some text => cases hL : L.lastEventId with
      | none => simp [hR, hL] at hlast
      | some text' =>
        rw [hR, hL] at hlast
        simp only [optionalText, requiredText_congr (Option.some.inj hlast)]
  simp only [snapshot, BudgetSnapshot.create, hscopes, hoperations, hreservations, hscope, htext,
    item, h.same.root, h.same.policies, h.same.reservations, h.same.operations, h.same.revision]

end Snapshots

end BudgetLedger

end Budget
