/-
# Preflight and available amounts

`preflight` reports the limits that a request would exceed on any ancestor, while
`view` and `available_total_tokens` report what is left as a minimum over the
ancestors.  On every reachable ledger nothing used exceeds a limit, so the two
agree, and a new `reserve` creates a reservation exactly when `preflight` allows it.
-/
import AgoraHub.BudgetRestored

namespace Budget

open Fallible PyText List BudgetAmounts

/-! ## What one policy leaves -/

namespace BudgetLimits

/-- What a limit leaves is enough for a request exactly when the sum stays within the limit. -/
theorem le_available_iff {l : BudgetLimits} {used : BudgetAmounts} (h : l.Admits used.get)
    {d : BudgetDimension} {n : ℕ} (hn : n ≤ maxAmount d) :
    n ≤ (l.available used).get d ↔ ∀ bound, l.limit d = some bound → used.get d + n ≤ bound := by
  unfold available
  dsimp only
  split
  · rename_i hnone
    simp [hnone, hn]
  · rename_i bound hbound
    have hused := h.1 d bound hbound
    rw [hbound]
    constructor
    · rintro hle _ ⟨⟩
      omega
    · intro hle
      have := hle bound rfl
      omega

/-- A policy admits a request on top of what is used exactly when the request is within what is
available and its tokens are within what the total leaves. -/
theorem admits_add_iff {l : BudgetLimits} {used request : BudgetAmounts} (h : l.Admits used.get) :
    l.Admits (used.get + request.get) ↔ (∀ d, request.get d ≤ (l.available used).get d) ∧
      ∀ n, l.totalTokens = some n → request.totalTokens ≤ n - used.totalTokens := by
  refine and_congr (forall_congr' fun d => (le_available_iff h (request.le_max d)).symm) ?_
  refine forall_congr' fun n => imp_congr_right fun hn => ?_
  have hused := h.2 n hn
  have htotal : BudgetAmounts.totalOf (used.get + request.get) =
      used.totalTokens + request.totalTokens := by
    simp only [BudgetAmounts.totalOf, BudgetAmounts.totalTokens, Pi.add_apply]
    omega
  rw [htotal]
  rw [← BudgetAmounts.totalTokens] at hused
  omega

theorem exists_code_of_mem_violations {l : BudgetLimits} {a : BudgetAmounts} {text : String}
    (h : text ∈ l.violations a) : ∃ c : BudgetReasonCode, c.value = text := by
  rw [violations, mem_sorted, violationCodes, mem_append] at h
  rcases h with h | h
  · obtain ⟨d, -, rfl⟩ := mem_map.mp h
    exact ⟨_, rfl⟩
  · split at h
    · exact ⟨_, (mem_singleton.mp h).symm⟩
    · cases h

end BudgetLimits

theorem BudgetAmounts.within_iff {a ceiling : BudgetAmounts} :
    a.within ceiling = true ↔ ∀ d, a.get d ≤ ceiling.get d := by
  simp [within, BudgetDimension.mem_all]

/-- The codes are few enough for a decision. -/
theorem length_sortedSet_codes {texts : List String}
    (h : ∀ text ∈ texts, ∃ c : BudgetReasonCode, c.value = text) :
    (sortedSet texts).length ≤ maxBudgetReasonCodes := by
  let codes : List BudgetReasonCode := [.maxLlmCalls, .maxInputTokens, .maxOutputTokens,
    .maxReasoningTokens, .maxCachedInputTokens, .maxTotalTokens, .maxEstimatedCostUsd,
    .reservationExpired, .reservationReleased, .dispatchIndeterminate, .actualExceedsReservation]
  have hsub : sortedSet texts ⊆ codes.map BudgetReasonCode.value := by
    intro text htext
    obtain ⟨c, rfl⟩ := h text (mem_sortedSet.mp htext)
    exact mem_map_of_mem (by cases c <;> decide)
  have hnodup : (sortedSet texts).Nodup :=
    (perm_insertionSort _ _).nodup_iff.mpr (nodup_dedup texts)
  exact (hnodup.subperm hsub).length_le.trans (by decide)

/-- A decision about codes passes its constructor. -/
theorem BudgetDecision.exists_create {violations : List String} (usage : BudgetUsage) {revision : ℕ}
    (h : ∀ text ∈ violations, ∃ c : BudgetReasonCode, c.value = text)
    (hrevision : revision ≤ maxBudgetInteger) :
    ∃ d, BudgetDecision.create ⟨decide (violations = []), violations, usage, none, revision⟩ = .ok d ∧
      (d.allowed = true ↔ violations = []) := by
  obtain ⟨items, hitems, hvalues, -⟩ := exists_mapM_key
    (f := fun item => requiredText item "violation") RequiredText.val violations fun text htext => by
      obtain ⟨c, rfl⟩ := h text htext
      exact ⟨c.text, requiredText_val c.text _, rfl⟩
  have hbounded : boundedInt revision "ledger_revision" = .ok revision := boundedInt_natCast hrevision _
  have hnil : sortedSet violations = [] ↔ violations = [] := sortedSet_eq_nil_iff
  refine ⟨⟨decide (violations = []), sortedSet violations, usage, none, revision⟩, ?_,
    decide_eq_true_iff⟩
  rw [create]
  simp only [hitems, ok_bind, hvalues, require_of_pos _ (length_sortedSet_codes h), hbounded]
  rw [require_of_pos, ok_bind, require_of_pos, ok_bind]
  · rintro ⟨hfalse, hempty⟩
    exact absurd (hnil.mp hempty) (of_decide_eq_false hfalse)
  · rintro ⟨htrue, hne⟩
    exact hne (hnil.mpr (of_decide_eq_true htrue))

namespace BudgetLedger

/-! ## preflight and available_total_tokens -/

def preflight (L : BudgetLedger) (scope : BudgetScopeRef) (request : BudgetAmounts)
    (policy : Option BudgetPolicy) : Except BudgetError BudgetDecision := do
  let _ ← L.requireScope scope policy
  let (violations, projected) ← L.projectedForRequest scope.scopeId request
  BudgetDecision.create ⟨decide (violations = []), violations, projected, none, L.revision⟩

def availableTotalTokens (L : BudgetLedger) (id : RequiredText) : Except BudgetError (Option ℕ) := do
  require ((L.scopes.get? id).isSome = true) (.contract ("unknown budget scope: " ++ id.val))
  let available ← L.forAncestors id (fun acc ancestor => do
    let policy ← item L.policies ancestor ancestor.val
    match policy.limits.totalTokens with
    | none => .ok acc
    | some limit => do
      let used ← L.usedAt ancestor
      .ok (acc ++ [limit - used.totalTokens])) []
  .ok available.min?

variable {sha256 : String → HexDigest} {L : BudgetLedger} {id : RequiredText} {request : BudgetAmounts}

/-- On top of what is used, the request is within the supported bounds at every ancestor. -/
def Room (L : BudgetLedger) (id : RequiredText) (request : BudgetAmounts) : Prop :=
  ∀ k ∈ (L.ancestors id).1, ∀ d,
    amountAt L.committed k d + amountAt L.reserved k d + request.get d ≤ maxAmount d

theorem usedWith_none (k : RequiredText) : L.usedWith none k = L.usedAt k := by
  unfold usedWith
  cases L.usedAt k <;> rfl

theorem violationsAt_eq {k : RequiredText} {used projected : BudgetAmounts} {policy : BudgetPolicy}
    (hused : L.usedAt k = .ok used) (hadd : used.add request = .ok projected)
    (hpolicy : L.policies.get? k = some policy) :
    L.violationsAt request k = .ok (policy.limits.violations projected) := by
  simp only [violationsAt, hused, hadd, item_eq_ok.mpr hpolicy, ok_bind]

/-- The tokens that an ancestor with a total limit has left. -/
def remainingAt (L : BudgetLedger) (k : RequiredText) : Except BudgetError (List ℕ) := do
  let policy ← item L.policies k k.val
  match policy.limits.totalTokens with
  | none => .ok []
  | some limit => do
    let used ← L.usedAt k
    .ok [limit - used.totalTokens]

namespace Balanced

theorem usedAt_ok (h : L.Balanced) {k : RequiredText} (hk : k ∈ L.scopes.keys) :
    ∃ used policy, L.usedAt k = .ok used ∧ L.policies.get? k = some policy ∧
      used.get = amountAt L.committed k + amountAt L.reserved k ∧ policy.limits.Admits used.get := by
  obtain ⟨hmax, policy, hpolicy, hadmits⟩ := h.fits k hk
  obtain ⟨used, hused, hget⟩ := BudgetLedger.usedAt_ok h.tree hk hmax
  exact ⟨used, policy, hused, hpolicy, hget, hget ▸ hadmits⟩

/-- A projection within the bounds is defined, and reports no violation exactly when every policy
on the way up admits the request. -/
theorem exists_projected (h : L.Balanced) (hid : id ∈ L.scopes.keys) (hroom : L.Room id request) :
    ∃ violations usage, L.projectedForRequest id request = .ok (violations, usage) ∧
      (∀ text ∈ violations, ∃ c : BudgetReasonCode, c.value = text) ∧
      (violations = [] ↔ ∀ k ∈ (L.ancestors id).1, ∀ used policy, L.usedAt k = .ok used →
        L.policies.get? k = some policy → policy.limits.Admits (used.get + request.get)) := by
  have hself := h.tree.self_mem_ancestors hid
  have hsum : ∀ k ∈ (L.ancestors id).1, ∃ used policy projected, L.usedAt k = .ok used ∧
      L.policies.get? k = some policy ∧ used.add request = .ok projected ∧
      projected.get = used.get + request.get := fun k hk => by
    obtain ⟨used, policy, hused, hpolicy, hget, -⟩ := h.usedAt_ok (h.tree.ancestors_registered hid hk)
    obtain ⟨projected, hadd, hprojected⟩ := exists_add (a := used) (b := request)
      fun d => by rw [hget]; exact hroom k hk d
    exact ⟨used, policy, projected, hused, hpolicy, hadd, hprojected⟩
  obtain ⟨out, hout, hmem⟩ := exists_forAncestors_append h.tree hid (f := L.violationsAt request)
    fun k hk => by
      obtain ⟨used, policy, projected, hused, hpolicy, hadd, -⟩ := hsum k hk
      exact ⟨_, violationsAt_eq hused hadd hpolicy⟩
  obtain ⟨available, havailable, -⟩ := exists_effectiveAvailable h.tree hid (some request)
    fun k hk => by
      obtain ⟨used, policy, projected, hused, -, hadd, -⟩ := hsum k hk
      exact ⟨projected, by simp only [usedWith, hused, hadd, ok_bind]⟩
  obtain ⟨committed, hcommitted⟩ := h.tree.committed.exists_get hid
  obtain ⟨reserved, hreserved⟩ := h.tree.reserved.exists_get hid
  have hlocal : ∀ d, committed.get d + reserved.get d + request.get d ≤ maxAmount d := fun d => by
    have := hroom id hself d
    rwa [amountAt_of_get? hcommitted, amountAt_of_get? hreserved] at this
  obtain ⟨more, hmore, hmoreGet⟩ := exists_add (a := reserved) (b := request)
    fun d => by have := hlocal d; omega
  obtain ⟨total, htotal, -⟩ := exists_add (a := committed) (b := more)
    fun d => by have := hlocal d; simp only [hmoreGet, Pi.add_apply]; omega
  refine ⟨sortedSet out, ⟨committed, more, available, L.revision⟩, ?_, fun text htext => ?_, ?_⟩
  · simp only [violationsAt, bind_assoc, ok_bind] at hout
    rw [BudgetLedger.projectedForRequest]
    simp only [hout, ok_bind, item_eq_ok.mpr hcommitted, item_eq_ok.mpr hreserved, hmore, htotal,
      havailable, BudgetUsage.create, boundedInt_natCast h.revision_le]
  · obtain ⟨k, -, b, hb, hin⟩ := (hmem text).mp (mem_sortedSet.mp htext)
    simp only [violationsAt, bind_eq_ok] at hb
    obtain ⟨_, -, _, -, policy, -, hb⟩ := hb
    cases hb
    exact BudgetLimits.exists_code_of_mem_violations hin
  · rw [sortedSet_eq_nil_iff, eq_nil_iff_forall_not_mem]
    constructor
    · intro hnone k hk used policy hused hpolicy
      obtain ⟨used', policy', projected, hused', hpolicy', hadd, hget⟩ := hsum k hk
      obtain rfl := ok_inj (hused.symm.trans hused')
      obtain rfl := Option.some.inj (hpolicy.symm.trans hpolicy')
      rw [← hget, ← BudgetLimits.violations_eq_nil_iff, eq_nil_iff_forall_not_mem]
      intro text htext
      exact hnone text ((hmem text).mpr ⟨k, hk, _, violationsAt_eq hused hadd hpolicy, htext⟩)
    · intro hall text htext
      obtain ⟨k, hk, b, hb, hin⟩ := (hmem text).mp htext
      simp only [violationsAt, bind_eq_ok, item_eq_ok] at hb
      obtain ⟨used, hused, projected, hadd, policy, hpolicy, hb⟩ := hb
      cases hb
      have hadmits := hall k hk used policy hused hpolicy
      rw [← add_eq_ok.mp hadd, ← BudgetLimits.violations_eq_nil_iff] at hadmits
      rw [hadmits] at hin
      cases hin

/-- `available_total_tokens` is the tightest of what the ancestors with a total limit leave. -/
theorem exists_availableTotalTokens (h : L.Balanced) (hid : id ∈ L.scopes.keys) :
    ∃ total, L.availableTotalTokens id = .ok total ∧ ∀ n, (∀ m ∈ total, n ≤ m) ↔
      ∀ k ∈ (L.ancestors id).1, ∀ used policy, L.usedAt k = .ok used →
        L.policies.get? k = some policy → ∀ limit, policy.limits.totalTokens = some limit →
          n ≤ limit - used.totalTokens := by
  have hremaining : ∀ {k used policy}, L.usedAt k = .ok used → L.policies.get? k = some policy →
      L.remainingAt k = .ok (policy.limits.totalTokens.toList.map fun limit =>
        limit - used.totalTokens) := fun hused hpolicy => by
    simp only [remainingAt, item_eq_ok.mpr hpolicy, ok_bind, hused]
    split <;> simp [*]
  obtain ⟨out, hout, hmem⟩ := exists_forAncestors_append h.tree hid (f := L.remainingAt)
    fun k hk => by
      obtain ⟨used, policy, hused, hpolicy, -⟩ := h.usedAt_ok (h.tree.ancestors_registered hid hk)
      exact ⟨_, hremaining hused hpolicy⟩
  have hbody : (fun (acc : List ℕ) k => L.remainingAt k >>= fun b => .ok (acc ++ b)) =
      (fun acc ancestor => do
        let policy ← item L.policies ancestor ancestor.val
        match policy.limits.totalTokens with
        | none => .ok acc
        | some limit => do
          let used ← L.usedAt ancestor
          .ok (acc ++ [limit - used.totalTokens])) := by
    funext acc k
    rw [remainingAt, bind_assoc]
    refine bind_congr fun policy => ?_
    split
    · rw [ok_bind, append_nil]
    · simp only [bind_assoc, ok_bind]
  obtain ⟨scope, hscope⟩ := (PyDict.mem_keys_iff _ _).mp hid
  refine ⟨out.min?, ?_, fun n => ?_⟩
  · rw [BudgetLedger.availableTotalTokens, check_of_pos (by rw [hscope]; rfl), ← hbody, hout,
      ok_bind]
  · have hmin : (∀ m ∈ out.min?, n ≤ m) ↔ ∀ m ∈ out, n ≤ m := by
      cases hout : out.min? with
      | none =>
        rw [min?_eq_none_iff.mp hout]
        simp
      | some m => simpa using le_min?_iff hout
    rw [hmin]
    constructor
    · intro hall k hk used policy hused hpolicy limit hlimit
      refine hall _ ((hmem _).mpr ⟨k, hk, _, hremaining hused hpolicy, ?_⟩)
      rw [hlimit]
      exact mem_singleton_self _
    · intro hall m hm
      obtain ⟨k, hk, b, hb, hin⟩ := (hmem m).mp hm
      obtain ⟨used, policy, hused, hpolicy, -⟩ := h.usedAt_ok (h.tree.ancestors_registered hid hk)
      rw [hremaining hused hpolicy] at hb
      cases hb
      obtain ⟨limit, hlimit, rfl⟩ := mem_map.mp hin
      exact hall k hk used policy hused hpolicy limit (Option.mem_toList.mp hlimit)

/-- `preflight` returns, and allows exactly what every policy on the way up admits. -/
theorem exists_preflight (h : L.Balanced) {scope : BudgetScopeRef}
    (hscope : L.scopes.get? scope.scopeId = some scope) (hroom : L.Room scope.scopeId request) :
    ∃ decision violations usage, L.preflight scope request none = .ok decision ∧
      L.projectedForRequest scope.scopeId request = .ok (violations, usage) ∧
      (decision.allowed = true ↔ violations = []) := by
  have hid := mem_scopes_keys hscope
  obtain ⟨violations, usage, hprojected, hcodes, -⟩ := h.exists_projected hid hroom
  obtain ⟨policy, hpolicy⟩ := h.tree.policies.exists_get hid
  obtain ⟨decision, hdecision, hallowed⟩ :=
    BudgetDecision.exists_create usage hcodes h.revision_le
  refine ⟨decision, violations, usage, ?_, hprojected, hallowed⟩
  rw [preflight, requireScope, check_of_pos hscope, item_eq_ok.mpr hpolicy, ok_bind,
    check_of_pos (by simp), ok_bind, hprojected, ok_bind]
  exact hdecision

/-- The two computations of the head-room agree. -/
theorem violations_eq_nil_iff (h : L.Balanced) (hid : id ∈ L.scopes.keys)
    (hroom : L.Room id request) {violations : List String} {usage : BudgetUsage}
    (hprojected : L.projectedForRequest id request = .ok (violations, usage))
    {available : BudgetAmounts} (havailable : L.effectiveAvailable id none = .ok available)
    {total : Option ℕ} (htotal : L.availableTotalTokens id = .ok total) : violations = [] ↔
      request.within available = true ∧ ∀ n ∈ total, request.totalTokens ≤ n := by
  obtain ⟨violations', usage', hprojected', -, hnil⟩ := h.exists_projected hid hroom
  obtain ⟨rfl, -⟩ := Prod.mk.inj (ok_inj (hprojected.symm.trans hprojected'))
  obtain ⟨available', havailable', hle⟩ := exists_effectiveAvailable h.tree hid none
    fun k hk => by
      obtain ⟨used, -, hused, -⟩ := h.usedAt_ok (h.tree.ancestors_registered hid hk)
      exact ⟨used, (usedWith_none k).trans hused⟩
  obtain rfl := ok_inj (havailable.symm.trans havailable')
  obtain ⟨total', htotal', hmin⟩ := h.exists_availableTotalTokens hid
  obtain rfl := ok_inj (htotal.symm.trans htotal')
  have hadmits : ∀ k ∈ (L.ancestors id).1, ∀ used policy, L.usedAt k = .ok used →
      L.policies.get? k = some policy → policy.limits.Admits used.get := by
    intro k hk used policy hused hpolicy
    obtain ⟨used', policy', hused', hpolicy', -, hadmits⟩ :=
      h.usedAt_ok (h.tree.ancestors_registered hid hk)
    obtain rfl := ok_inj (hused.symm.trans hused')
    rwa [Option.some.inj (hpolicy.symm.trans hpolicy')]
  simp only [usedWith_none] at hle
  rw [hnil, within_iff, hmin]
  constructor
  · intro hall
    refine ⟨fun d => (hle d _).mpr fun k hk used policy hused hpolicy => ?_,
      fun k hk used policy hused hpolicy limit hlimit => ?_⟩
    · exact ((BudgetLimits.admits_add_iff (hadmits k hk used policy hused hpolicy)).mp
        (hall k hk used policy hused hpolicy)).1 d
    · exact ((BudgetLimits.admits_add_iff (hadmits k hk used policy hused hpolicy)).mp
        (hall k hk used policy hused hpolicy)).2 limit hlimit
  · rintro ⟨hwithin, htokens⟩ k hk used policy hused hpolicy
    refine (BudgetLimits.admits_add_iff (hadmits k hk used policy hused hpolicy)).mpr
      ⟨fun d => ?_, fun limit hlimit => htokens k hk used policy hused hpolicy limit hlimit⟩
    exact (hle d _).mp (hwithin d) k hk used policy hused hpolicy

end Balanced

/-! ## A new reserve -/

/-- The texts name an operation and a key that the ledger does not know. -/
def IsFresh (L : BudgetLedger) (operationId idempotencyKey : String) : Prop :=
  ∃ op key, requiredText operationId "operation_id" = .ok op ∧
    requiredText idempotencyKey "idempotency_key" = .ok key ∧ L.NewOperation op key

/-- The event of a new reservation passes its constructor. -/
theorem createdEvent_create {scope : BudgetScopeRef} {digest op key : RequiredText} {created : ℕ}
    (hrevision : L.revision < maxBudgetInteger) :
    let r := newReservation sha256 scope digest op key request (L.revision + 1) created
    (createdEvent r (L.revision + 1)).create = .ok (createdEvent r (L.revision + 1)) := by
  have hbounded : boundedInt ((L.revision : ℤ) + 1) "ledger_revision" = .ok (L.revision + 1) := by
    exact_mod_cast boundedInt_natCast (Nat.succ_le_of_lt hrevision) "ledger_revision"
  intro r
  rw [BudgetEvent.create]
  simp [createdEvent, r, newReservation, hbounded, BudgetEvent.validateProjection,
    BudgetEvent.validateType, BudgetReservationStatus.value, require, pure, Except.pure]

/-- A new `reserve` that returns has created a reservation exactly when the condition holds, and
then it returns unless the revision, the time or the event sink stands in the way. -/
def ReservesWhen (sha256 : String → HexDigest) (L : BudgetLedger) (scope : BudgetScopeRef)
    (request : BudgetAmounts) (condition : Prop) : Prop :=
  ∀ op key sink clock createdAt, L.IsFresh op key →
    let out := reserve sha256 sink clock L scope request op key none createdAt
    (∀ answer, out.outcome = .ok answer → ((∃ r, answer = .reservation r) ↔ condition)) ∧
      (L.revision < maxBudgetInteger → 0 ≤ createdAt.getD clock →
        createdAt.getD clock ≤ maxBudgetInteger → sink ≠ .failed true → condition →
          ∃ r, out.outcome = .ok (.reservation r) ∧
            out.ledger.reservations.get? r.reservationId.val = some r)

theorem Balanced.reservesWhen (h : L.Balanced) {scope : BudgetScopeRef}
    (hscope : L.scopes.get? scope.scopeId = some scope) {violations : List String}
    {usage : BudgetUsage}
    (hprojected : L.projectedForRequest scope.scopeId request = .ok (violations, usage)) :
    ReservesWhen sha256 L scope request (violations = []) := by
  intro op key sink clock createdAt hfresh out
  have hid := mem_scopes_keys hscope
  obtain ⟨opId, keyId, hop, hkey, hnew⟩ := hfresh
  obtain ⟨policy, hpolicy⟩ := h.tree.policies.exists_get hid
  have hrequire : L.requireScope scope none = .ok policy := by
    rw [requireScope, check_of_pos hscope, item_eq_ok.mpr hpolicy, ok_bind, check_of_pos (by simp)]
  have hexisting : ∀ fingerprint, L.existingOperation opId keyId fingerprint = .ok none := fun _ => by
    have hkeyId : ∀ indexed ∈ L.idempotencyIndex.get? keyId, indexed = opId := hnew.key
    rw [existingOperation, check_of_pos hkeyId, hnew.operation]
  have hcreates : ∀ {fingerprint r e}, L.reserveCheck sha256 clock scope request op key none createdAt =
      .ok (.create fingerprint r e) → ∃ reserved, (createCommit fingerprint r e).exec L =
        (.ok (.reservation r), L.withReservation fingerprint r e reserved) := by
    intro fingerprint r e hcheck
    have hadm := of_reserveCheck_create hcheck
    obtain ⟨reserved, hbooked, -⟩ := applyDeltaUp_add r.requested h.tree (mem_scopes_keys hadm.scope)
      h.tree.reserved fun k hk d => by
        have := (hadm.fits k hk).1 d
        simp only [Pi.add_apply] at this
        omega
    exact ⟨reserved, createCommit_exec hbooked⟩
  constructor
  · intro answer hanswer
    unfold out reserve at hanswer
    split at hanswer
    · cases hanswer
    · -- a known operation answers, and this one is new
      rename_i hcheck
      simp only [reserveCheck, hrequire, hop, hkey, hexisting, hprojected, ok_bind] at hcheck
      split at hcheck <;> simp [bind_eq_ok] at hcheck
    · rename_i fingerprint d e hcheck
      obtain ⟨_, _, _, violations', _, -, -, -, -, hprojected', hviolations, -⟩ :=
        reserveCheck_eq_deny.mp hcheck
      obtain ⟨rfl, -⟩ := Prod.mk.inj (ok_inj (hprojected.symm.trans hprojected'))
      unfold appendThen at hanswer
      split at hanswer
      · cases hanswer
      · rw [denyCommit_exec (of_reserveCheck_deny hcheck).allowed] at hanswer
        cases hanswer
        simp [hviolations]
    · rename_i fingerprint r e hcheck
      obtain ⟨_, _, _, _, _, -, -, -, -, hprojected', -⟩ := reserveCheck_eq_create.mp hcheck
      obtain ⟨rfl, -⟩ := Prod.mk.inj (ok_inj (hprojected.symm.trans hprojected'))
      obtain ⟨reserved, hexec⟩ := hcreates hcheck
      unfold appendThen at hanswer
      split at hanswer
      · cases hanswer
      · rw [hexec] at hanswer
        cases hanswer
        simp
  · rintro hrevision hzero hmax hsink rfl
    have hbounded : boundedInt (createdAt.getD clock) "created_at_epoch_ms" =
        .ok (createdAt.getD clock).toNat := by rw [boundedInt, if_pos ⟨hzero, hmax⟩]
    let r := newReservation sha256 scope (policy.digest sha256) opId keyId request (L.revision + 1)
      (createdAt.getD clock).toNat
    have hcheck : L.reserveCheck sha256 clock scope request op key none createdAt = .ok (.create
        (operationFingerprint sha256 scope request (policy.digest sha256)) r
        (createdEvent r (L.revision + 1))) :=
      reserveCheck_eq_create.mpr ⟨policy, opId, keyId, usage, _, hrequire, hop, hkey, hexisting _,
        hprojected, hbounded, rfl, rfl, rfl, createdEvent_create hrevision⟩
    obtain ⟨reserved, hexec⟩ := hcreates hcheck
    have happend : ∀ e, ∃ recorded, appendEvent sink e = .ok recorded := by
      intro e
      rcases sink with - | - | - | -
      exacts [⟨_, rfl⟩, ⟨_, rfl⟩, ⟨_, rfl⟩, absurd rfl hsink]
    obtain ⟨recorded, happend⟩ := happend (createdEvent r (L.revision + 1))
    refine ⟨r, ?_, ?_⟩
    all_goals simp only [out, reserve, hcheck, appendThen, happend, hexec]
    exact PyDict.get?_set_self _ _ _

/-! ## Reachable ledgers -/

/-- Calls lead to the ledger from a new one or from a restored snapshot, whose constructor bounds
its revision. -/
def Reachable (sha256 : String → HexDigest) (L : BudgetLedger) : Prop :=
  ∃ M steps, (M.IsInitial ∨ ∃ S, S.ledgerRevision ≤ maxBudgetInteger ∧ restore sha256 S = .ok M) ∧
      L = (runSteps sha256 steps M).1

theorem Balanced.of_totals (htree : L.ScopeTree) (htotals : L.Totals)
    (hrevision : L.revision ≤ maxBudgetInteger) : L.Balanced := by
  refine ⟨htree, fun k hk => ?_, hrevision⟩
  obtain ⟨policy, hpolicy⟩ := htree.policies.exists_get hk
  exact ⟨htotals.fits k hk, policy, hpolicy, htotals.admits k policy hpolicy⟩

theorem Reachable.balanced (h : Reachable sha256 L) : L.Balanced := by
  obtain ⟨M, steps, hstart, rfl⟩ := h
  refine (stable_balanced sha256).run ?_
  rcases hstart with hinitial | ⟨S, hrevision, hrestore⟩
  · have hinv : LedgerInv sha256 M := hinitial.inv
    exact .of_totals hinv.tree hinv.totals hinv.records.revision_le
  · have haccepted := accepted_of_restore hrestore
    refine .of_totals haccepted.tree haccepted.totals ?_
    obtain ⟨registered, -, -, hM⟩ := haccepted.tables
    rw [hM]
    exact hrevision

/-- `preflight`, `view` with `available_total_tokens`, and a new `reserve` agree on a request. -/
def Agrees (sha256 : String → HexDigest) (L : BudgetLedger) (scope : BudgetScopeRef)
    (request : BudgetAmounts) : Prop :=
  ∃ decision view total, L.preflight scope request none = .ok decision ∧
    L.viewLocked scope.scopeId = .ok view ∧ L.availableTotalTokens scope.scopeId = .ok total ∧
    (decision.allowed = true ↔
      request.within view.usage.available = true ∧ ∀ n ∈ total, request.totalTokens ≤ n) ∧
    ReservesWhen sha256 L scope request (decision.allowed = true)

/-- On every reachable ledger the three agree on every request within the supported bounds at a
registered scope. -/
theorem agrees_of_reachable (sha256 : String → HexDigest) (L : BudgetLedger)
    (scope : BudgetScopeRef) (request : BudgetAmounts) (h : Reachable sha256 L)
    (hscope : L.scopes.get? scope.scopeId = some scope) (hroom : L.Room scope.scopeId request) :
    Agrees sha256 L scope request := by
  have hbalanced := h.balanced
  have hid := mem_scopes_keys hscope
  obtain ⟨decision, violations, usage, hdecision, hprojected, hallowed⟩ :=
    hbalanced.exists_preflight hscope hroom
  obtain ⟨view, hview, -, havailable⟩ := viewLocked_ok hbalanced.tree hbalanced.revision_le
    (fun k hk => (hbalanced.fits k hk).1) hscope
  obtain ⟨total, htotal, -⟩ := hbalanced.exists_availableTotalTokens hid
  refine ⟨decision, view, total, hdecision, hview, htotal, ?_, ?_⟩
  · exact hallowed.trans (hbalanced.violations_eq_nil_iff hid hroom hprojected havailable htotal)
  · rw [hallowed]
    exact hbalanced.reservesWhen hscope hprojected

/-- In every reachable ledger, also after calls that raised, stopped halfway or were settled under
another name, what is committed and reserved at a scope is within each of its limits, and `view`
returns. -/
theorem limits_kept (h : Reachable sha256 L) {scope : BudgetScopeRef}
    (hscope : L.scopes.get? scope.scopeId = some scope) :
    (∃ used policy, L.usedAt scope.scopeId = .ok used ∧
      L.policies.get? scope.scopeId = some policy ∧ policy.limits.Admits used.get) ∧
    ∃ view, L.viewLocked scope.scopeId = .ok view := by
  have hbalanced := h.balanced
  obtain ⟨used, policy, hused, hpolicy, -, hadmits⟩ := hbalanced.usedAt_ok (mem_scopes_keys hscope)
  obtain ⟨view, hview, -, -⟩ := viewLocked_ok hbalanced.tree hbalanced.revision_le
    (fun k hk => (hbalanced.fits k hk).1) hscope
  exact ⟨⟨used, policy, hused, hpolicy, hadmits⟩, view, hview⟩

end BudgetLedger

namespace Sample

open BudgetLedger

/-- A ledger whose reservation is released under a padded name, so that its totals disagree. -/
theorem limits_kept_padded : (∃ used policy, paddedLedger.usedAt scope.scopeId = .ok used ∧
      paddedLedger.policies.get? scope.scopeId = some policy ∧ policy.limits.Admits used.get) ∧
    ∃ view, paddedLedger.viewLocked scope.scopeId = .ok view := by
  have hreach : Reachable sha256 paddedLedger :=
    ⟨ledger, reserveThenRelease (" " ++ reservationId), .inl ledger_isInitial, rfl⟩
  have hscope : paddedLedger.scopes.get? scope.scopeId = some scope := by decide +kernel
  exact limits_kept hreach hscope

/-- One more call after a call is reserved. -/
theorem agrees_oneCall : Agrees sha256 reservedLedger scope oneCall := by
  have hroom : ∀ k ∈ (reservedLedger.ancestors scope.scopeId).1, ∀ d ∈ BudgetDimension.all,
      amountAt reservedLedger.committed k d + amountAt reservedLedger.reserved k d +
        oneCall.get d ≤ maxAmount d := by decide +kernel
  exact agrees_of_reachable sha256 reservedLedger scope oneCall
    ⟨ledger, _, .inl ledger_isInitial, rfl⟩ (by decide +kernel)
    fun k hk d => hroom k hk d (BudgetDimension.mem_all d)

end Sample

end Budget
