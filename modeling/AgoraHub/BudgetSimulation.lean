/-
# Replaying one event

The event of a change says everything about it: running the event through the public
operation on the ledger before the change makes the change again, and on a ledger
with the same entries it makes one with the same result.
-/
import AgoraHub.BudgetTwin

namespace Budget

open Fallible PyText

variable {s : BudgetSettlement} {status : BudgetReservationStatus}

namespace BudgetLedger

variable {sha256 : String → HexDigest} {L R : BudgetLedger}

/-! ## Events of changes -/

/-- The event fits the ledger before the change. -/
structure EventOf (sha256 : String → HexDigest) (L : BudgetLedger) (e : BudgetEvent) : Prop where
  scope : L.scopes.get? e.scope.scopeId = some e.scope
  digest : ∀ policy, L.policies.get? e.scope.scopeId = some policy →
    policy.digest sha256 = e.policyDigest
  run : e.runId = e.scope.runId
  revision : e.ledgerRevision = L.revision + 1

variable {e : BudgetEvent}

theorem eventOf_closing (hrec : Records sha256 L) {reservationId : String} {r : BudgetReservation}
    {record : BudgetOperationRecord} (h : Closing L reservationId r record s e status)
    (hscope : e.scope = r.scope) (hdigest : e.policyDigest = r.policyDigest)
    (hrun : e.runId = r.scope.runId) : EventOf sha256 L e := by
  obtain ⟨-, record', -, -, -, hok⟩ := hrec.of_index h.found
  refine ⟨by rw [hscope]; exact hok.scope, fun policy hp => ?_, by rw [hscope]; exact hrun,
    h.revision⟩
  rw [hdigest]
  rw [hscope] at hp
  exact (hok.digest policy hp).symm

variable {call : LedgerCall} {L' : BudgetLedger}

/-- Every change appends an event that fits the ledger. -/
theorem Change.eventOf (hrec : Records sha256 L) (hc : Change sha256 L call e L') :
    EventOf sha256 L e := by
  cases hc with
  | denied check =>
    obtain ⟨registered, _, _, _, _, hscope, -, -, -, -, -, -, _, -, -, hevent⟩ :=
      reserveCheck_eq_deny.mp check
    obtain ⟨hreg, hpolicy⟩ := of_requireScope hscope
    obtain ⟨-, -, _, -, rfl⟩ := BudgetEvent.of_create hevent
    refine ⟨hreg, fun p hp => ?_, rfl, rfl⟩
    rw [Option.some.inj (hp.symm.trans hpolicy)]
    rfl
  | created check fresh booked =>
    have hadm := of_reserveCheck_create check
    obtain rfl := hadm.event
    exact ⟨hadm.scope, fun p hp => (hadm.digest p hp).symm, rfl, rfl⟩
  | settled key check free book =>
    obtain ⟨hclosing, -, -, -, rfl⟩ := of_settleCheck_commit hrec check
    exact eventOf_closing hrec hclosing rfl rfl rfl
  | released key check free =>
    have hclosing := (of_releaseCheck_commit hrec (.inl rfl) check).1
    obtain ⟨-, -, -, -, -, -, -, _, _, _, -, -, -, -, rfl, -⟩ := releaseCheck_eq_commit.mp check
    exact eventOf_closing hrec hclosing rfl rfl rfl
  | expired key due check free =>
    have hclosing := (of_releaseCheck_commit hrec (.inr ⟨rfl, rfl⟩) check).1
    obtain ⟨-, -, -, -, -, -, -, _, _, _, -, -, -, -, rfl, -⟩ := releaseCheck_eq_commit.mp check
    exact eventOf_closing hrec hclosing rfl rfl rfl
  | indeterminate origin key check =>
    have hclosing := (of_markIndeterminateCheck_commit hrec check).1
    obtain ⟨-, -, -, -, -, -, _, _, _, -, -, -, -, rfl, -⟩ := markIndeterminateCheck_eq_commit.mp check
    exact eventOf_closing hrec hclosing rfl rfl rfl

/-- After a change the last event is its event, up to surrounding white space. -/
theorem Change.lastEventId (hrec : Records sha256 L) (hc : Change sha256 L call e L') :
    L'.lastEventId.map strip = some e.eventId.val := by
  cases hc with
  | denied check | created check fresh booked => exact congrArg some e.eventId.trimmed
  | settled key check free book =>
    obtain ⟨hclosing, -⟩ := of_settleCheck_commit hrec check
    rw [hclosing.event_id]
    exact congrArg some (RequiredText.trimmed _)
  | released key check free =>
    obtain ⟨hclosing, -, -, -, -, hstrip, -⟩ := of_releaseCheck_commit hrec (.inl rfl) check
    rw [hclosing.event_id]
    exact congrArg some hstrip
  | expired key due check free =>
    obtain ⟨hclosing, -, -, -, -, hstrip, -⟩ :=
      of_releaseCheck_commit hrec (.inr ⟨rfl, rfl⟩) check
    rw [hclosing.event_id]
    exact congrArg some hstrip
  | indeterminate origin key check =>
    obtain ⟨hclosing, -, -, -, -, hstrip⟩ := of_markIndeterminateCheck_commit hrec check
    rw [hclosing.event_id]
    exact congrArg some hstrip

/-- A change advances the revision to that of its event and leaves the scopes alone. -/
theorem Change.advances (hrec : Records sha256 L) (hc : Change sha256 L call e L') :
    L'.revision = L.revision + 1 ∧ L'.scopes = L.scopes ∧ L'.rootScopeId = L.rootScopeId := by
  have hrevision := (hc.eventOf hrec).revision
  cases hc <;> exact ⟨hrevision, rfl, rfl⟩

/-! ## The same change in a ledger with the same entries -/

/-- A change of one twin is a change of the other, and the results are twins. -/
theorem Change.twin (h : Twin sha256 L R) (hc : Change sha256 L call e L') :
    ∃ R', Change sha256 R call e R' ∧ Twin sha256 L' R' := by
  suffices hsame : ∃ R', Change sha256 R call e R' ∧ Same L' R' by
    obtain ⟨R', hR, hsame⟩ := hsame
    exact ⟨R', hR, hsame, h.left.change hc, h.right.change hR⟩
  cases hc with
  | denied check =>
    rw [← h.reserveCheck] at check
    exact ⟨_, .denied check, h.same.withDenial _ _ _⟩
  | created check fresh booked =>
    rw [← h.reserveCheck] at check
    have hadm := of_reserveCheck_create check
    obtain ⟨t, ht, hadded⟩ := h.right.exists_reserved (mem_scopes_keys hadm.scope) hadm.fits
    have hadmL := of_reserveCheck_create (h.reserveCheck ▸ check)
    obtain ⟨t', ht', hadded'⟩ := h.left.exists_reserved (mem_scopes_keys hadmL.scope) hadmL.fits
    obtain rfl := congrArg Prod.snd (booked.symm.trans ht')
    exact ⟨_, .created check ((h.same.reservations _).trans fresh) ht,
      h.same.withReservation _ _ _ (h.added_eq h.same.reserved hadded' hadded)⟩
  | settled key check free book =>
    obtain ⟨hclosing, -, -, hfits, -⟩ := of_settleCheck_commit h.left.records check
    obtain ⟨t, ht, hfreed⟩ := h.left.exists_freed hclosing.found hclosing.is_open
    obtain ⟨u, hu, hbooked⟩ := h.left.exists_booked hclosing.found hclosing.is_open hfits
    obtain rfl := congrArg Prod.snd (free.symm.trans ht)
    obtain rfl := congrArg Prod.snd (book.symm.trans hu)
    rw [← h.settleCheck] at check
    obtain ⟨hclosingR, -, -, hfitsR, -⟩ := of_settleCheck_commit h.right.records check
    obtain ⟨t', ht', hfreed'⟩ := h.right.exists_freed hclosingR.found hclosingR.is_open
    obtain ⟨u', hu', hbooked'⟩ := h.right.exists_booked hclosingR.found hclosingR.is_open hfitsR
    exact ⟨_, .settled key check ht' hu', h.same.withSettlement _ _ _ _ _ _ _
      (h.freed_eq h.same.reserved hfreed hfreed') (h.added_eq h.same.committed hbooked hbooked')⟩
  | released key check free =>
    have hclosing := (of_releaseCheck_commit h.left.records (.inl rfl) check).1
    obtain ⟨t, ht, hfreed⟩ := h.left.exists_freed hclosing.found hclosing.is_open
    obtain rfl := congrArg Prod.snd (free.symm.trans ht)
    rw [← h.releaseCheck] at check
    have hclosingR := (of_releaseCheck_commit h.right.records (.inl rfl) check).1
    obtain ⟨t', ht', hfreed'⟩ := h.right.exists_freed hclosingR.found hclosingR.is_open
    exact ⟨_, .released key check ht', h.same.withSettlement _ _ _ _ _ _ _
      (h.freed_eq h.same.reserved hfreed hfreed') h.same.committed⟩
  | expired key due check free =>
    have hclosing := (of_releaseCheck_commit h.left.records (.inr ⟨rfl, rfl⟩) check).1
    obtain ⟨t, ht, hfreed⟩ := h.left.exists_freed hclosing.found hclosing.is_open
    obtain rfl := congrArg Prod.snd (free.symm.trans ht)
    rw [← h.releaseCheck, ← h.same.revision] at check
    rw [← h.expireCheck] at due
    have hclosingR := (of_releaseCheck_commit h.right.records (.inr ⟨rfl, rfl⟩) check).1
    obtain ⟨t', ht', hfreed'⟩ := h.right.exists_freed hclosingR.found hclosingR.is_open
    exact ⟨_, .expired key due check ht', h.same.withSettlement _ _ _ _ _ _ _
      (h.freed_eq h.same.reserved hfreed hfreed') h.same.committed⟩
  | indeterminate origin key check =>
    rw [← h.markIndeterminateCheck] at check
    exact ⟨_, .indeterminate origin key check, h.same.withSettlement _ _ _ _ _ _ _
      h.same.reserved h.same.committed⟩

/-! ## Running an event again -/

section Checks

variable {scope : BudgetScopeRef} {policy : Option BudgetPolicy}

theorem requireScope_none {registered : BudgetPolicy}
    (h : L.requireScope scope policy = .ok registered) :
    L.requireScope scope none = .ok registered := by
  obtain ⟨hscope, hpolicy⟩ := of_requireScope h
  rw [requireScope, check_of_pos hscope, item_eq_ok.mpr hpolicy, ok_bind, check_of_pos (by simp)]

theorem boundedInt_again {value : ℤ} {n : ℕ} {fieldName : String}
    (h : boundedInt value fieldName = .ok n) : boundedInt (n : ℤ) fieldName = .ok n := by
  unfold boundedInt at h
  split at h
  · rename_i hvalue
    cases h
    rw [boundedInt, if_pos (by omega), Int.toNat_natCast]
  · simp at h

/-- Checked texts do not depend on the field they are checked for. -/
theorem mapM_requiredText_unique {xs : List String} {field field' : String} :
    ∀ {ts ts' : List RequiredText}, xs.mapM (fun x => requiredText x field) = .ok ts →
      xs.mapM (fun x => requiredText x field') = .ok ts' → ts = ts' := by
  induction xs with
  | nil =>
    intro ts ts' h h'
    exact ok_inj (h.symm.trans h')
  | cons x xs ih =>
    intro ts ts' h h'
    simp only [List.mapM_cons, bind_eq_ok, pure_eq_ok_iff] at h h'
    obtain ⟨t, ht, rest, hrest, rfl⟩ := h
    obtain ⟨t', ht', rest', hrest', rfl⟩ := h'
    rw [ih hrest hrest', RequiredText.ext
      ((val_of_requiredText ht).trans (val_of_requiredText ht').symm)]

variable {op : String}

/-- A denial is decided again from its event, for the same reasons. -/
theorem reserveCheck_deny_again (clock' : ℤ) {clock : ℤ} {request : BudgetAmounts} {key : String}
    {createdAt : Option ℤ} {fingerprint : RequiredText} {d : BudgetDecision}
    (h : L.reserveCheck sha256 clock scope request op key policy createdAt =
      .ok (.deny fingerprint d e)) : e.eventType = .denied ∧ d.violations = e.reasonCodes ∧
      L.reserveCheck sha256 clock' e.scope e.amounts e.operationId.val e.idempotencyKey.val none
        none = .ok (.deny fingerprint d e) := by
  obtain ⟨registered, operationId, idempotencyKey, violations, projected, hscope, -, -, hexisting,
    hproj, hviol, rfl, usage, husage, hdecision, hevent⟩ := reserveCheck_eq_deny.mp h
  obtain ⟨-, -, items, hitems, he⟩ := BudgetEvent.of_create hevent
  have hcodes : d.violations = e.reasonCodes := by
    simp only [BudgetDecision.create, bind_eq_ok] at hdecision
    obtain ⟨items', hitems', _, -, _, -, _, -, _, -, hd⟩ := hdecision
    rw [← ok_inj hd, he, mapM_requiredText_unique hitems' hitems]
  refine ⟨by rw [he]; rfl, hcodes, ?_⟩
  rw [reserveCheck_eq_deny]
  have hscope' : e.scope = scope := by rw [he]; rfl
  have hamounts : e.amounts = request := by rw [he]; rfl
  have hop : e.operationId = operationId := by rw [he]; rfl
  have hkey : e.idempotencyKey = idempotencyKey := by rw [he]; rfl
  rw [hscope', hamounts, hop, hkey]
  exact ⟨registered, operationId, idempotencyKey, violations, projected, requireScope_none hscope,
    requiredText_val _ _, requiredText_val _ _, hexisting, hproj, hviol, rfl, usage, husage,
    hdecision, hevent⟩

variable {r : BudgetReservation}

/-- An admission is made again from its event. -/
theorem reserveCheck_create_again (clock' : ℤ) {clock : ℤ} {request : BudgetAmounts}
    {key : String} {createdAt : Option ℤ} {fingerprint : RequiredText}
    (h : L.reserveCheck sha256 clock scope request op key policy createdAt =
      .ok (.create fingerprint r e)) :
    L.reserveCheck sha256 clock' r.scope r.requested r.operationId.val r.idempotencyKey.val none
      (some r.createdAtEpochMs) = .ok (.create fingerprint r e) := by
  obtain ⟨registered, operationId, idempotencyKey, projected, created, hscope, -, -, hexisting,
    hproj, hcreated, hfingerprint, hr, he, hevent⟩ := reserveCheck_eq_create.mp h
  have hscope' : r.scope = scope := by rw [hr]; rfl
  have hrequested : r.requested = request := by rw [hr]; rfl
  have hop : r.operationId = operationId := by rw [hr]; rfl
  have hkey : r.idempotencyKey = idempotencyKey := by rw [hr]; rfl
  have hat : r.createdAtEpochMs = created := by rw [hr]; rfl
  rw [reserveCheck_eq_create, hscope', hrequested, hop, hkey, hat]
  exact ⟨registered, operationId, idempotencyKey, projected, created, requireScope_none hscope,
    requiredText_val _ _, requiredText_val _ _, hexisting, hproj, boundedInt_again hcreated,
    hfingerprint, hr, he, hevent⟩

theorem suppliedOr_some (t derived : RequiredText) : suppliedOr (some t.val) derived = t.val := by
  simp only [suppliedOr, if_neg t.nonempty]

variable {reservationId : String} {record : BudgetOperationRecord}

/-- A release is checked again from its event. -/
theorem releaseCheck_again {reason : String} {dispatched : Bool} {eventId : Option String}
    {eventType : BudgetEventType} {text : String} (key : strip reservationId = reservationId)
    (h : L.releaseCheck sha256 reservationId op reason dispatched eventId eventType status =
      .ok (.commit r record s e text)) :
    replayReservationId e = reservationId ∧ e.settlement = some s ∧ e.operationId = r.operationId ∧
      e.eventType = eventType ∧ L.releaseCheck sha256 reservationId e.operationId.val
        ((s.reasonCode.map RequiredText.val).getD "released") false (some e.eventId.val) eventType
        status = .ok (.commit r record s e e.eventId.val) := by
  obtain ⟨hr, hrecord, hop, hdispatched, hset, hres, htext, code, id, terminal, hcode, hid,
    hterminal, hs, he, hevent⟩ := releaseCheck_eq_commit.mp h
  have hreservation : replayReservationId e = reservationId := by
    rw [he, ← key, ← val_of_requiredText hid]
    rfl
  have hoperation : e.operationId = r.operationId := by rw [he]; rfl
  have heventId : e.eventId = terminal := by rw [he, hs]; rfl
  refine ⟨hreservation, by rw [he]; rfl, hoperation, by rw [he]; rfl, ?_⟩
  rw [releaseCheck_eq_commit, hoperation, heventId, hs]
  rw [hs] at he
  exact ⟨hr, hrecord, rfl, rfl, hset, hres, (suppliedOr_some _ _).symm, code, id, terminal,
    requiredText_val _ _, hid, requiredText_val _ _, rfl, he, hevent⟩

/-- A reservation is marked again from the event. -/
theorem markIndeterminateCheck_again {reason : String} {eventId : Option String} {text : String}
    (key : strip reservationId = reservationId)
    (h : L.markIndeterminateCheck sha256 reservationId op reason eventId =
      .ok (.commit r record s e text)) :
    replayReservationId e = reservationId ∧ e.settlement = some s ∧ e.eventType = .indeterminate ∧
      L.markIndeterminateCheck sha256 reservationId e.operationId.val
        (e.reasonCodes.head?.getD "indeterminate") (some e.eventId.val) =
        .ok (.commit r record s e e.eventId.val) := by
  obtain ⟨hr, hrecord, hop, hset, hres, htext, code, id, terminal, hcode, hid, hterminal, hs, he,
    hevent⟩ := markIndeterminateCheck_eq_commit.mp h
  have hreservation : replayReservationId e = reservationId := by
    rw [he, ← key, ← val_of_requiredText hid]
    rfl
  have hoperation : e.operationId = r.operationId := by rw [he]; rfl
  have heventId : e.eventId = terminal := by rw [he, hs]; rfl
  have hreason : e.reasonCodes.head?.getD "indeterminate" = code.val := by rw [he, hs]; rfl
  refine ⟨hreservation, by rw [he]; rfl, by rw [he]; rfl, ?_⟩
  rw [markIndeterminateCheck_eq_commit, hoperation, heventId, hreason]
  exact ⟨hr, hrecord, rfl, hset, hres, (suppliedOr_some _ _).symm, code, id, terminal,
    requiredText_val _ _, hid, requiredText_val _ _, hs, he, hevent⟩

/-- A reservation that has expired has expired at its deadline, whatever the clock. -/
theorem expireCheck_again (hrec : Records sha256 L) (clock' : ℤ) {clock : ℤ} {now : Option ℤ}
    (h : L.expireCheck clock reservationId now = .ok r) :
    L.reservation reservationId = .ok r ∧ L.scopes.get? r.scope.scopeId = some r.scope ∧
      ∀ policy, L.policies.get? r.scope.scopeId = some policy → L.expireCheck clock' reservationId
          (some (r.createdAtEpochMs + policy.reservationTtlSeconds * 1000)) = .ok r := by
  simp only [expireCheck, bind_eq_ok, item_eq_ok] at h
  obtain ⟨r', hr, policy, hp, _, -, _, -, h⟩ := h
  obtain rfl := ok_inj h
  have hindex : ∃ key, L.reservations.get? key = some r' := by
    simp only [BudgetLedger.reservation, bind_eq_ok, orRaise_eq_ok] at hr
    obtain ⟨id, -, hget⟩ := hr
    exact ⟨_, hget⟩
  obtain ⟨key, hkey⟩ := hindex
  obtain ⟨-, _, -, -, -, hok⟩ := hrec.of_index hkey
  refine ⟨hr, hok.scope, fun policy' hp' => ?_⟩
  obtain rfl := Option.some.inj (hp.symm.trans hp')
  exact bind_intro hr (bind_intro (item_eq_ok.mpr hp) (bind_eq_ok.mpr
    ⟨(), require_eq_ok.mpr (by rw [Option.getD_some]; positivity), bind_eq_ok.mpr
      ⟨(), require_eq_ok.mpr (by rw [Option.getD_some]; push_cast; exact le_rfl), rfl⟩⟩))

end Checks

section Replaying

variable {e : BudgetEvent} {clock : ℤ}

variable {L' : BudgetLedger}

theorem appendThen_absent {α : Type} {commit : Commit α} {a : α}
    (hexec : commit.exec L = (.ok a, L')) : appendThen .absent e commit L = ⟨.ok a, L', []⟩ := by
  simp only [appendThen, appendEvent, hexec]

theorem replayed_ok {α : Type} {a : α} {p : α → Prop} [DecidablePred p] {changed : String}
    (hp : p a) : replayed ⟨.ok a, L', []⟩ p changed = .ok L' := by
  simp only [replayed, ok_bind, require_of_pos _ hp]

/-- Replaying the event of a change makes the change, with the event id as the event
carries it. -/
theorem Change.replay (hinv : LedgerInv sha256 L) (clock : ℤ) (hc : Change sha256 L call e L') :
    replayOperation sha256 clock L e = .ok { L' with lastEventId := some e.eventId.val } := by
  have hevent := hc.eventOf hinv.records
  obtain ⟨view, hview, hpolicy, -⟩ :=
    viewLocked_ok hinv.tree hinv.records.revision_le hinv.totals.fits hevent.scope
  rw [replayOperation]
  refine bind_intro hview (bind_eq_ok.mpr
    ⟨(), require_eq_ok.mpr (hevent.digest _ hpolicy), ?_⟩)
  cases hc with
  | denied check =>
    obtain ⟨htype, hcodes, hagain⟩ := reserveCheck_deny_again clock check
    have hallowed := (of_reserveCheck_deny check).allowed
    rw [htype]
    simp only [BudgetLedger.reserve, hagain, appendThen_absent (denyCommit_exec hallowed), ok_bind,
      require_of_pos _ hallowed, require_of_pos _ hcodes]
    rfl
  | created check fresh booked =>
    rename_i r _
    have hagain := reserveCheck_create_again clock check
    obtain rfl := (of_reserveCheck_create check).event
    refine bind_eq_ok.mpr ⟨r, rfl, ?_⟩
    show replayed (BudgetLedger.reserve sha256 .absent clock L r.scope r.requested
      r.operationId.val r.idempotencyKey.val none (some r.createdAtEpochMs)) _ _ = _
    rw [BudgetLedger.reserve, hagain]
    dsimp only
    rw [appendThen_absent (createCommit_exec booked)]
    exact replayed_ok rfl
  | settled key check free book =>
    rename_i reservationId r record s freed booked
    obtain ⟨hclosing, -, -, -, he⟩ := of_settleCheck_commit hinv.records check
    have hreservation := (hinv.records.of_index hclosing.found).1
    rw [key] at hreservation
    subst hreservation he
    refine bind_eq_ok.mpr ⟨s, rfl, ?_⟩
    show replayed (BudgetLedger.settle sha256 .absent L r.reservationId.val s) _ _ = _
    rw [BudgetLedger.settle, check]
    dsimp only
    rw [appendThen_absent (settleCommit_exec hinv.records hclosing free book)]
    exact replayed_ok rfl
  | released key check free =>
    obtain ⟨hreservation, hsettlement, hop, htype, hagain⟩ := releaseCheck_again key check
    have hclosing := (of_releaseCheck_commit hinv.records (.inl rfl) check).1
    rw [htype]
    refine bind_intro (orRaise_eq_ok.mpr hsettlement) ?_
    simp only [BudgetLedger.release, releaseLocked, hreservation, hagain]
    rw [appendThen_absent (releaseCommit_exec hinv.records hclosing free)]
    exact replayed_ok rfl
  | expired key due check free =>
    rename_i clock' reservationId now r₀ r record s text freed
    obtain ⟨hreservation, hsettlement, hop, htype, -⟩ := releaseCheck_again key check
    have hclosing := (of_releaseCheck_commit hinv.records (.inr ⟨rfl, rfl⟩) check).1
    obtain ⟨-, -, -, -, -, -, htext, _, _, terminal, -, -, hterminal, hs, he, -⟩ :=
      releaseCheck_eq_commit.mp check
    have htextEq : text = e.eventId.val := by
      rw [suppliedOr_some] at htext
      rw [htext, requiredText_val] at hterminal
      rw [htext, he, hs, ok_inj hterminal]
      rfl
    obtain ⟨hr₀, hscope, hagain⟩ := expireCheck_again hinv.records clock due
    obtain ⟨scopeView, hscopeView, hscopePolicy, -⟩ :=
      viewLocked_ok hinv.tree hinv.records.revision_le hinv.totals.fits hscope
    rw [htype]
    refine bind_eq_ok.mpr ⟨r₀, by rw [hreservation]; exact hr₀, bind_eq_ok.mpr
      ⟨scopeView, hscopeView, ?_⟩⟩
    simp only [hreservation, BudgetLedger.expire, hagain _ hscopePolicy, releaseLocked, check]
    rw [appendThen_absent (releaseCommit_exec hinv.records hclosing free), htextEq]
    exact replayed_ok hsettlement.symm
  | indeterminate origin key check =>
    obtain ⟨hreservation, hsettlement, htype, hagain⟩ := markIndeterminateCheck_again key check
    have hclosing := (of_markIndeterminateCheck_commit hinv.records check).1
    rw [htype]
    simp only [BudgetLedger.markIndeterminate, hreservation, hagain]
    rw [appendThen_absent (markIndeterminateCommit_exec hinv.records hclosing)]
    exact replayed_ok hsettlement.symm

end Replaying

end BudgetLedger

end Budget
