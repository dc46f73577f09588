/-
# Restoring a snapshot

`restore` registers the scopes of a snapshot parents first, in as many passes as it
needs, fills in the recorded tables and validates the result.  Restoring the snapshot
of a ledger gives a ledger with the same entries.
-/
import AgoraHub.BudgetValidation

namespace Budget

open Fallible PyText List PyDict BudgetOperationRecord

namespace BudgetLedger

variable {sha256 : String → HexDigest} {L M : BudgetLedger}

/-! ## Views -/

/-- What is used at a scope, with the amounts that `_effective_available` adds. -/
def usedWith (L : BudgetLedger) (extra : Option BudgetAmounts) (id : RequiredText) :
    Except BudgetError BudgetAmounts := do
  let used ← L.usedAt id
  match extra with
  | none => .ok used
  | some amounts => used.add amounts

variable {id : RequiredText}

/-- A loop over the ancestors that appends returns when its body does, with all the items. -/
theorem exists_forAncestors_append {γ : Type} (h : L.ScopeTree) (hid : id ∈ L.scopes.keys)
    {f : RequiredText → Except BudgetError (List γ)}
    (hf : ∀ k ∈ (L.ancestors id).1, ∃ b, f k = .ok b) : ∃ out,
      L.forAncestors id (fun acc k => f k >>= fun b => .ok (acc ++ b)) [] = .ok out ∧
        ∀ y, y ∈ out ↔ ∃ k ∈ (L.ancestors id).1, ∃ b, f k = .ok b ∧ y ∈ b := by
  obtain ⟨out, hout, hmem⟩ := exists_foldlM_append hf []
  refine ⟨out, ?_, fun y => (hmem y).trans (or_iff_right not_mem_nil)⟩
  rw [forAncestors, hout, ok_bind, require_of_pos _ (h.ancestors_done hid)]
  rfl

theorem le_foldl_tighter_iff {rest : List BudgetAmounts} {d : BudgetDimension} {n : ℕ} :
    ∀ {a : BudgetAmounts}, n ≤ (rest.foldl tighter a).get d ↔ ∀ x ∈ a :: rest, n ≤ x.get d := by
  induction rest with
  | nil => simp
  | cons b rest ih =>
    intro a
    rw [foldl_cons, ih]
    simp [tighter, and_assoc]

/-- `_effective_available` is the tightest of what the ancestors leave. -/
theorem exists_effectiveAvailable (h : L.ScopeTree) (hid : id ∈ L.scopes.keys)
    (extra : Option BudgetAmounts)
    (hused : ∀ k ∈ (L.ancestors id).1, ∃ used, L.usedWith extra k = .ok used) :
    ∃ a, L.effectiveAvailable id extra = .ok a ∧ ∀ d n, n ≤ a.get d ↔
      ∀ k ∈ (L.ancestors id).1, ∀ used policy, L.usedWith extra k = .ok used →
        L.policies.get? k = some policy → n ≤ (policy.limits.available used).get d := by
  let leftAt (k : RequiredText) : Except BudgetError (List BudgetAmounts) := do
    let used ← L.usedWith extra k
    let policy ← item L.policies k k.val
    .ok [policy.limits.available used]
  have hleft : ∀ {k used policy}, L.usedWith extra k = .ok used → L.policies.get? k = some policy →
      leftAt k = .ok [policy.limits.available used] := fun hk hp => by
    simp only [leftAt, hk, item_eq_ok.mpr hp, ok_bind]
  have hpolicy : ∀ k ∈ (L.ancestors id).1, ∃ policy, L.policies.get? k = some policy := fun k hk =>
    h.policies.exists_get (h.ancestors_registered hid hk)
  obtain ⟨out, hout, hmem⟩ := exists_forAncestors_append h hid (f := leftAt) fun k hk => by
    obtain ⟨used, hk'⟩ := hused k hk
    obtain ⟨policy, hp⟩ := hpolicy k hk
    exact ⟨_, hleft hk' hp⟩
  have hbody : ∀ a rest, out = a :: rest →
      L.effectiveAvailable id extra = .ok (rest.foldl tighter a) := by
    rintro a rest rfl
    rw [effectiveAvailable]
    cases extra
    all_goals
      simp only [leftAt, usedWith, bind_assoc, ok_bind] at hout
      simp only [hout, ok_bind]
  have hitems : ∀ y, y ∈ out ↔ ∃ k ∈ (L.ancestors id).1, ∃ used policy,
      L.usedWith extra k = .ok used ∧ L.policies.get? k = some policy ∧
        y = policy.limits.available used := fun y => by
    rw [hmem]
    refine exists_congr fun k => and_congr_right fun hk => ?_
    obtain ⟨used, hk'⟩ := hused k hk
    obtain ⟨policy, hp⟩ := hpolicy k hk
    simp [hleft hk' hp, hk', hp]
  cases out with
  | nil =>
    obtain ⟨used, hk⟩ := hused id (h.self_mem_ancestors hid)
    obtain ⟨policy, hp⟩ := hpolicy id (h.self_mem_ancestors hid)
    exact absurd ((hitems _).mpr ⟨id, h.self_mem_ancestors hid, used, policy, hk, hp, rfl⟩)
      not_mem_nil
  | cons a rest =>
    refine ⟨_, hbody a rest rfl, fun d n => le_foldl_tighter_iff.trans ⟨fun hall k hk used policy hu hp => ?_,
      fun hall x hx => ?_⟩⟩
    · exact hall _ ((hitems _).mpr ⟨k, hk, used, policy, hu, hp, rfl⟩)
    · obtain ⟨k, hk, used, policy, hu, hp, rfl⟩ := (hitems x).mp hx
      exact hall k hk used policy hu hp

/-- The view of a registered scope is defined. -/
theorem viewLocked_ok (h : L.ScopeTree) (hrevision : L.revision ≤ maxBudgetInteger)
    (hfits : ∀ k ∈ L.scopes.keys, ∀ d,
      amountAt L.committed k d + amountAt L.reserved k d ≤ maxAmount d) {scope : BudgetScopeRef}
    (hget : L.scopes.get? id = some scope) :
    ∃ view, L.viewLocked id = .ok view ∧ L.policies.get? id = some view.policy ∧
      L.effectiveAvailable id none = .ok view.usage.available := by
  have hid := mem_scopes_keys hget
  obtain ⟨policy, hpolicy⟩ := h.policies.exists_get hid
  obtain ⟨committed, hcommitted⟩ := h.committed.exists_get hid
  obtain ⟨reserved, hreserved⟩ := h.reserved.exists_get hid
  obtain ⟨available, havailable, -⟩ := exists_effectiveAvailable h hid none fun k hk => by
    have hreg := h.ancestors_registered hid hk
    obtain ⟨used, hused, -⟩ := usedAt_ok h hreg (hfits k hreg)
    exact ⟨used, by simp only [usedWith, hused, ok_bind]⟩
  refine ⟨⟨scope, policy, ⟨committed, reserved, available, L.revision⟩⟩, ?_, hpolicy, havailable⟩
  rw [viewLocked]
  simp only [hget, orRaise_some, item_eq_ok.mpr hpolicy, item_eq_ok.mpr hcommitted,
    item_eq_ok.mpr hreserved, havailable, ok_bind, BudgetUsage.create,
    boundedInt_natCast hrevision, BudgetView.create,
    require_of_pos _ (h.revision id scope policy hget hpolicy)]

/-! ## Registering the scopes again -/

/-- `M` has some of the scopes of `L` and is otherwise empty. -/
structure Part (sha256 : String → HexDigest) (L M : BudgetLedger) : Prop where
  inv : LedgerInv sha256 M
  root : M.rootScopeId = L.rootScopeId
  scopes : ∀ id scope, M.scopes.get? id = some scope → L.scopes.get? id = some scope
  policies : ∀ id policy, M.policies.get? id = some policy → L.policies.get? id = some policy

/-- An item of a snapshot of `L`. -/
structure ItemOf (L : BudgetLedger) (i : BudgetScopeSnapshot) : Prop where
  scope : L.scopes.get? i.scope.scopeId = some i.scope
  policy : L.policies.get? i.scope.scopeId = some i.policy

variable {i : BudgetScopeSnapshot}

/-- A pending scope whose parent is known can be registered. -/
theorem Part.registers (h : Part sha256 L M) (hL : L.ScopeTree) (hi : ItemOf L i)
    (hnew : i.scope.scopeId ∉ M.scopes.keys)
    (hparent : ∃ parent ∈ i.scope.parentScopeId, (M.scopes.get? parent).isSome = true) :
    ∃ view, M.registerScope i.scope i.policy = ⟨.ok view, M.addScope i.scope i.policy, []⟩ ∧
      Part sha256 L (M.addScope i.scope i.policy) := by
  have hunknown := (get?_eq_none_iff M.scopes i.scope.scopeId).mpr hnew
  obtain ⟨root, hroot, hrootType⟩ := h.inv.tree.root
  have hrootL : L.scopes.get? L.rootScopeId = some root := by
    rw [← h.root]; exact h.scopes _ _ hroot
  have hrun := hL.same_run _ _ _ hi.scope hrootL
  have hchild : i.scope.scopeType ≠ .run := by
    intro htype
    have := hL.only_root _ _ hi.scope htype
    rw [this, ← h.root, hroot] at hunknown
    simp at hunknown
  have hrevision := hL.revision _ _ _ hi.scope hi.policy
  have hcheck : M.registerCheck i.scope i.policy = .ok false := by
    rw [registerCheck, hunknown]
    simp only [item_eq_ok.mpr hroot, ok_bind, require_of_pos _ hrun, require_of_pos _ hchild,
      require_of_pos _ hparent, require_of_pos _ hrevision]
  have hinv := h.inv.addScope (of_registerCheck hcheck)
  have hself : (M.addScope i.scope i.policy).scopes.get? i.scope.scopeId = some i.scope :=
    get?_set_self _ _ _
  obtain ⟨view, hview, -⟩ := viewLocked_ok hinv.tree hinv.records.revision_le hinv.totals.fits hself
  refine ⟨view, by rw [registerScope, hcheck, hview], hinv, h.root, ?_, ?_⟩
  · intro id scope hget
    rw [addScope, get?_set] at hget
    split at hget
    · cases hget
      subst id
      exact hi.scope
    · exact h.scopes id scope hget
  · intro id policy hget
    rw [addScope, get?_set] at hget
    split at hget
    · cases hget
      subst id
      exact hi.policy
    · exact h.policies id policy hget

/-- The scope ids of snapshot items. -/
def idsOf (items : List BudgetScopeSnapshot) : List RequiredText :=
  items.map fun i => i.scope.scopeId

theorem addScope_keys (hnew : i.scope.scopeId ∉ M.scopes.keys) :
    (M.addScope i.scope i.policy).scopes.keys = M.scopes.keys ++ [i.scope.scopeId] :=
  keys_set_of_notMem _ hnew

/-- What one pass over pending items does. -/
structure Passed (sha256 : String → HexDigest) (L M : BudgetLedger)
    (items : List BudgetScopeSnapshot) (after : BudgetLedger) (pending : List BudgetScopeSnapshot) :
    Prop where
  part : Part sha256 L after
  sublist : pending.Sublist items
  keys : ∀ id, id ∈ after.scopes.keys ∨ id ∈ idsOf pending ↔ id ∈ M.scopes.keys ∨ id ∈ idsOf items
  new : ∀ id ∈ idsOf pending, id ∉ after.scopes.keys
  progress : (∃ i ∈ items, ∃ parent ∈ i.scope.parentScopeId, parent ∈ M.scopes.keys) →
    pending.length < items.length

/-- One pass registers items until none of the rest has a known parent. -/
theorem registerPass_ok (hL : L.ScopeTree) :
    ∀ {items : List BudgetScopeSnapshot} {M : BudgetLedger}, Part sha256 L M →
      (∀ i ∈ items, ItemOf L i) → (idsOf items).Nodup → (∀ id ∈ idsOf items, id ∉ M.scopes.keys) →
      ∃ after pending, M.registerPass items = .ok (after, pending) ∧
        Passed sha256 L M items after pending := by
  intro items
  induction items with
  | nil =>
    intro M h _ _ _
    exact ⟨M, [], rfl, h, List.Sublist.refl _, fun _ => Iff.rfl, by simp [idsOf], by simp⟩
  | cons i rest ih =>
    intro M h hitems hnodup hnew
    have hnodup' : i.scope.scopeId ∉ idsOf rest ∧ (idsOf rest).Nodup := by
      simpa [idsOf] using hnodup
    have hiNew : i.scope.scopeId ∉ M.scopes.keys := hnew _ (by simp [idsOf])
    have hrestNew : ∀ id ∈ idsOf rest, id ∉ M.scopes.keys := fun id hid =>
      hnew id (mem_cons_of_mem _ hid)
    by_cases hparent : ∃ parent ∈ i.scope.parentScopeId, (M.scopes.get? parent).isSome = true
    · obtain ⟨view, hregister, hpart⟩ := h.registers hL (hitems i (by simp)) hiNew hparent
      have hkeys := addScope_keys hiNew
      obtain ⟨after, pending, hpass, hp⟩ := ih hpart
        (fun j hj => hitems j (mem_cons_of_mem _ hj)) hnodup'.2 (by
          intro id hid hmem
          rw [hkeys, mem_append, mem_singleton] at hmem
          rcases hmem with hmem | rfl
          · exact hrestNew id hid hmem
          · exact hnodup'.1 hid)
      refine ⟨after, pending, ?_, hp.part, hp.sublist.cons _, fun id => ?_, hp.new, fun _ => ?_⟩
      · rw [registerPass, if_pos hparent]
        simp only [hregister, ok_bind, hpass]
      · rw [hp.keys, hkeys, mem_append, mem_singleton, idsOf, idsOf, map_cons, mem_cons, or_assoc]
      · exact Nat.lt_succ_of_le hp.sublist.length_le
    · obtain ⟨after, pending, hpass, hp⟩ := ih h
        (fun j hj => hitems j (mem_cons_of_mem _ hj)) hnodup'.2 hrestNew
      refine ⟨after, i :: pending, ?_, hp.part, hp.sublist.cons_cons _, fun id => ?_, ?_, ?_⟩
      · rw [registerPass, if_neg hparent]
        simp only [hpass, ok_bind]
      · have := hp.keys id
        simp only [idsOf, map_cons, mem_cons] at this ⊢
        tauto
      · intro id hid hmem
        rcases mem_cons.mp hid with rfl | hid
        · have := (hp.keys i.scope.scopeId).mp (.inl hmem)
          rcases this with hmem' | hmem'
          · exact hiNew hmem'
          · exact hnodup'.1 hmem'
        · exact hp.new id hid hmem
      · rintro ⟨j, hj, parent, hjp, hknown⟩
        rcases mem_cons.mp hj with rfl | hj
        · refine absurd ⟨parent, hjp, ?_⟩ hparent
          obtain ⟨scope, hscope⟩ := (mem_keys_iff _ _).mp hknown
          rw [hscope]; rfl
        · exact Nat.succ_lt_succ (hp.progress ⟨j, hj, parent, hjp, hknown⟩)

/-- While scopes are pending, one of them has a known parent. -/
theorem Part.exists_ready (h : Part sha256 L M) (hL : L.ScopeTree)
    {items : List BudgetScopeSnapshot} (hitems : ∀ i ∈ items, ItemOf L i)
    (hcover : ∀ id ∈ L.scopes.keys, id ∈ M.scopes.keys ∨ id ∈ idsOf items)
    (hnew : ∀ id ∈ idsOf items, id ∉ M.scopes.keys) (hne : items ≠ []) :
    ∃ i ∈ items, ∃ parent ∈ i.scope.parentScopeId, parent ∈ M.scopes.keys := by
  obtain ⟨i₀, hi₀⟩ := exists_mem_of_ne_nil items hne
  have hmiss : ∃ x ∈ L.scopes.keys.reverse, ¬ x ∈ M.scopes.keys :=
    ⟨i₀.scope.scopeId, mem_reverse.mpr (mem_scopes_keys (hitems i₀ hi₀).scope),
      hnew _ (mem_map.mpr ⟨i₀, hi₀, rfl⟩)⟩
  obtain ⟨x, hx, hmissing, hup⟩ := hL.grown.exists_frontier (· ∈ M.scopes.keys) hmiss
  have hxItem : x ∈ idsOf items := (hcover x (mem_reverse.mp hx)).resolve_left hmissing
  obtain ⟨i, hi, rfl⟩ := mem_map.mp hxItem
  have hscope := (hitems i hi).scope
  rw [parentOf, hscope, Option.map_some] at hup
  rcases hup with hroot | ⟨p, hp, hup⟩
  · have htype : i.scope.scopeType = .run := by
      by_contra hne
      exact i.scope.child_parent hne (Option.some.inj hroot)
    obtain ⟨root, hroot', -⟩ := h.inv.tree.root
    rw [h.root, ← hL.only_root _ _ hscope htype] at hroot'
    exact absurd (mem_scopes_keys hroot') hmissing
  · exact ⟨i, hi, p, Option.some.inj hup, hp⟩

/-- The passes register every pending scope. -/
theorem registerAll_ok (hL : L.ScopeTree) :
    ∀ (fuel : ℕ) {items : List BudgetScopeSnapshot} {M : BudgetLedger}, items.length ≤ fuel →
      Part sha256 L M → (∀ i ∈ items, ItemOf L i) → (idsOf items).Nodup →
      (∀ id ∈ idsOf items, id ∉ M.scopes.keys) →
      (∀ id ∈ L.scopes.keys, id ∈ M.scopes.keys ∨ id ∈ idsOf items) →
      ∃ after, registerAll fuel M items = .ok after ∧ Part sha256 L after ∧
        ∀ id ∈ L.scopes.keys, id ∈ after.scopes.keys := by
  intro fuel
  induction fuel with
  | zero =>
    intro items M hfuel h _ _ _ hcover
    obtain rfl : items = [] := length_eq_zero_iff.mp (Nat.le_zero.mp hfuel)
    exact ⟨M, by rw [registerAll], h, fun id hid => by simpa [idsOf] using hcover id hid⟩
  | succ fuel ih =>
    intro items M hfuel h hitems hnodup hnew hcover
    cases items with
    | nil => exact ⟨M, by rw [registerAll], h, fun id hid => by simpa [idsOf] using hcover id hid⟩
    | cons i rest =>
      obtain ⟨after, pending, hpass, hp⟩ := registerPass_ok hL h hitems hnodup hnew
      have hlt := hp.progress (h.exists_ready hL hitems hcover hnew (by simp))
      have hpendingNodup : (idsOf pending).Nodup := (hp.sublist.map _).nodup hnodup
      obtain ⟨final, hfinal, hpart, hall⟩ := ih (by omega) hp.part
        (fun j hj => hitems j (hp.sublist.subset hj)) hpendingNodup hp.new
        fun id hid => (hp.keys id).mpr (hcover id hid)
      refine ⟨final, ?_, hpart, hall⟩
      rw [registerAll]
      simp only [hpass, ok_bind]
      rw [if_neg (by omega)]
      exact hfinal

/-! ## The snapshot of a ledger -/

/-- What the snapshot `S` holds of the ledger `L`. -/
structure IsSnapshot (sha256 : String → HexDigest) (L : BudgetLedger) (S : BudgetSnapshot) :
    Prop where
  root : S.rootScopeId = L.rootScopeId
  digest : ∀ policy, L.policies.get? L.rootScopeId = some policy →
    S.policyDigest = policy.digest sha256
  ids : idsOf S.scopes = sortedKeys L.scopes
  scopes : ∀ i ∈ S.scopes, L.scopeSnapshot i.scope.scopeId = .ok i
  open_nodup : (S.openReservations.map fun r => r.reservationId.val).Nodup
  mem_open : ∀ r, r ∈ S.openReservations ↔
    L.reservations.get? r.reservationId.val = some r ∧ r.status.isOpen = true
  operations : S.operationRecords.map operationId = sortedKeys L.operations
  records : ∀ record ∈ S.operationRecords, L.operations.get? record.operationId = some record
  last : S.lastEventId.map RequiredText.val = L.lastEventId.map strip
  revision : S.ledgerRevision = L.revision

theorem sortedKeys_perm {ν : Type} (d : PyDict RequiredText ν) : (sortedKeys d).Perm d.keys :=
  perm_insertionSort _ _

theorem of_scopeSnapshot (h : L.scopeSnapshot id = .ok i) :
    L.scopes.get? id = some i.scope ∧ L.policies.get? id = some i.policy ∧
      L.committed.get? id = some i.committed ∧ L.reserved.get? id = some i.reserved ∧
      ∃ b, L.baselineCommitted.get? id = some b ∧ i.baselineCommitted = some b := by
  simp only [scopeSnapshot, bind_eq_ok, item_eq_ok, BudgetScopeSnapshot.create] at h
  obtain ⟨scope, hs, policy, hp, committed, hc, reserved, hr, baseline, hb, _, -, h⟩ := h
  cases h
  exact ⟨hs, hp, hc, hr, baseline, hb, rfl⟩

theorem scopeSnapshot_ok (h : L.ScopeTree) (hid : id ∈ L.scopes.keys) :
    ∃ i, L.scopeSnapshot id = .ok i ∧ i.scope.scopeId = id := by
  obtain ⟨scope, hs⟩ := (mem_keys_iff _ _).mp hid
  obtain ⟨policy, hp⟩ := h.policies.exists_get hid
  obtain ⟨committed, hc⟩ := h.committed.exists_get hid
  obtain ⟨reserved, hr⟩ := h.reserved.exists_get hid
  obtain ⟨baseline, hb⟩ := h.baseline.exists_get hid
  refine ⟨⟨scope, policy, committed, reserved, some baseline⟩, ?_, h.key_eq id scope hs⟩
  simp only [scopeSnapshot, item_eq_ok.mpr hs, item_eq_ok.mpr hp, item_eq_ok.mpr hc,
    item_eq_ok.mpr hr, item_eq_ok.mpr hb, ok_bind, BudgetScopeSnapshot.create,
    require_of_pos _ (h.revision id scope policy hs hp)]

/-- The lists a snapshot collects before its constructor checks them. -/
theorem snapshot_parts (hinv : LedgerInv sha256 L) :
    ∃ (policy : BudgetPolicy) (scopes : List BudgetScopeSnapshot)
      (reservations : List BudgetReservation) (records : List BudgetOperationRecord),
      L.policies.get? L.rootScopeId = some policy ∧ idsOf scopes = sortedKeys L.scopes ∧
      (∀ i ∈ scopes, L.scopeSnapshot i.scope.scopeId = .ok i) ∧
      reservations.map (fun r => r.reservationId.val) = sorted L.reservations.keys ∧
      (∀ r ∈ reservations, L.reservations.get? r.reservationId.val = some r) ∧
      records.map operationId = sortedKeys L.operations ∧
      (∀ record ∈ records, L.operations.get? record.operationId = some record) ∧
      L.snapshot sha256 = BudgetSnapshot.create L.rootScopeId (policy.digest sha256) scopes
        (reservations.filter fun r => r.status.isOpen) records L.lastEventId L.revision := by
  obtain ⟨root, hroot, -⟩ := hinv.tree.root
  obtain ⟨policy, hpolicy⟩ := hinv.tree.policies.exists_get (mem_scopes_keys hroot)
  obtain ⟨scopes, hscopes, hids, hall⟩ := exists_mapM_key (f := L.scopeSnapshot)
    (fun i => i.scope.scopeId) (sortedKeys L.scopes) fun id hid =>
      scopeSnapshot_ok hinv.tree ((sortedKeys_perm _).mem_iff.mp hid)
  obtain ⟨reservations, hres, hkeys, hresAll⟩ := exists_mapM_key
    (f := fun key => item L.reservations key key)
    (fun r : BudgetReservation => r.reservationId.val) (sorted L.reservations.keys) (by
      intro key hkey
      obtain ⟨r, hr⟩ := (mem_keys_iff _ _).mp (mem_sorted.mp hkey)
      exact ⟨r, item_eq_ok.mpr hr, (hinv.records.linked key r hr).1⟩)
  obtain ⟨records, hrec, hops, hrecAll⟩ := exists_mapM_key
    (f := fun op : RequiredText => item L.operations op op.val)
    operationId (sortedKeys L.operations) (by
      intro op hop
      obtain ⟨record, hr⟩ := (mem_keys_iff _ _).mp ((sortedKeys_perm _).mem_iff.mp hop)
      exact ⟨record, item_eq_ok.mpr hr, (hinv.records.record op record hr).id_eq⟩)
  refine ⟨policy, scopes, reservations, records, hpolicy, hids, hall, hkeys,
    fun r hr => item_eq_ok.mp (hresAll r hr), hops, fun r hr => item_eq_ok.mp (hrecAll r hr), ?_⟩
  rw [snapshot]
  simp only [item_eq_ok.mpr hpolicy, hscopes, hres, hrec, ok_bind]

theorem of_optionalText {value : Option String} {fieldName : String} {t : Option RequiredText}
    (h : optionalText value fieldName = .ok t) : t.map RequiredText.val = value.map strip := by
  cases value with
  | none =>
    cases h
    rfl
  | some text =>
    simp only [optionalText, bind_eq_ok] at h
    obtain ⟨checked, hchecked, h⟩ := h
    cases h
    exact congrArg some (val_of_requiredText hchecked)

/-- A snapshot that was taken holds the entries of the ledger. -/
theorem isSnapshot_of_snapshot (hinv : LedgerInv sha256 L) {S : BudgetSnapshot}
    (h : L.snapshot sha256 = .ok S) : IsSnapshot sha256 L S := by
  obtain ⟨policy, scopes, reservations, records, hpolicy, hids, hscopes, hkeys, hres, hops, hrec,
    heq⟩ := snapshot_parts hinv
  rw [heq] at h
  simp only [BudgetSnapshot.create, bind_eq_ok] at h
  obtain ⟨_, -, _, -, _, -, last, hlast, revision, hrevision, h⟩ := h
  cases h
  have hnodup : (sorted L.reservations.keys).Nodup :=
    (perm_insertionSort _ _).nodup_iff.mpr hinv.records.reservations_nodup
  refine ⟨rfl, fun p hp => ?_, hids, hscopes, ?_, fun r => ?_, hops, hrec, of_optionalText hlast, ?_⟩
  · obtain rfl := Option.some.inj (hpolicy.symm.trans hp)
    rfl
  · exact ((filter_sublist.map _).nodup (hkeys ▸ hnodup))
  · rw [mem_filter]
    refine and_congr_left fun _ => ⟨hres r, fun hget => ?_⟩
    have hmem : r.reservationId.val ∈ sorted L.reservations.keys :=
      mem_sorted.mpr ((mem_keys_iff _ _).mpr ⟨r, hget⟩)
    rw [← hkeys] at hmem
    obtain ⟨r', hr', hid⟩ := mem_map.mp hmem
    have hget' := hres r' hr'
    rw [hid, hget] at hget'
    rwa [Option.some.inj hget']
  · rw [boundedInt] at hrevision
    split at hrevision
    · exact (ok_inj hrevision).symm
    · simp at hrevision

/-- A ledger within the bounds of a snapshot has one. -/
theorem snapshot_ok (hinv : LedgerInv sha256 L) (hscopes : L.scopes.length ≤ maxSnapshotRecords)
    (hreservations : L.reservations.length ≤ maxSnapshotRecords)
    (hoperations : L.operations.length ≤ maxSnapshotRecords)
    (hlast : ∀ text, L.lastEventId = some text → ∃ t : RequiredText, t.val = strip text) :
    ∃ S, L.snapshot sha256 = .ok S := by
  obtain ⟨policy, scopes, reservations, records, -, hids, -, hkeys, -, hops, -, heq⟩ :=
    snapshot_parts hinv
  have hlen₁ : scopes.length = L.scopes.length := by
    have := congrArg List.length hids
    rwa [idsOf, length_map, (sortedKeys_perm _).length_eq, PyDict.keys, length_map] at this
  have hlen₂ : reservations.length = L.reservations.length := by
    have := congrArg List.length hkeys
    rwa [length_map, sorted, length_insertionSort, PyDict.keys, length_map] at this
  have hlen₃ : records.length = L.operations.length := by
    have := congrArg List.length hops
    rwa [length_map, (sortedKeys_perm _).length_eq, PyDict.keys, length_map] at this
  obtain ⟨last, hlast'⟩ : ∃ t, optionalText L.lastEventId "last_event_id" = .ok t := by
    cases hl : L.lastEventId with
    | none => exact ⟨none, rfl⟩
    | some text =>
      obtain ⟨t, ht⟩ := hlast text hl
      have htext : requiredText text "last_event_id" = .ok t := by
        rw [requiredText_congr (ht.symm.trans t.trimmed.symm), requiredText_val]
      exact ⟨some t, by rw [optionalText, htext, ok_bind]⟩
  have hrevision : boundedInt L.revision "ledger_revision" = .ok L.revision := by
    rw [boundedInt, if_pos ⟨by positivity, by exact_mod_cast hinv.records.revision_le⟩]
    rfl
  refine ⟨⟨L.rootScopeId, policy.digest sha256, scopes, reservations.filter fun r => r.status.isOpen,
    records, last, L.revision⟩, ?_⟩
  rw [heq, BudgetSnapshot.create, check_of_pos (hlen₁ ▸ hscopes),
    check_of_pos ((length_filter_le _ _).trans (hlen₂ ▸ hreservations)),
    check_of_pos (hlen₃ ▸ hoperations), hlast', ok_bind, hrevision, ok_bind]

/-- Indexing the recorded reservations keeps what is indexed and adds only recorded reservations. -/
theorem foldl_indexRecorded (records : List BudgetOperationRecord) :
    ∀ {d : PyDict String BudgetReservation}, d.keys.Nodup →
      (records.foldl indexRecorded d).keys.Nodup ∧ (∀ e ∈ d, e ∈ records.foldl indexRecorded d) ∧
      (∀ e ∈ records.foldl indexRecorded d, e ∈ d ∨ ∃ record ∈ records, ∃ r,
        record.reservation = some r ∧ e = (r.reservationId.val, r)) ∧
      ∀ record ∈ records, ∀ r, record.reservation = some r →
        r.reservationId.val ∈ (records.foldl indexRecorded d).keys := by
  induction records with
  | nil => exact fun hd => ⟨hd, fun _ => id, fun _ => .inl, by simp⟩
  | cons record records ih =>
    intro d hd
    rw [foldl_cons]
    cases hres : record.reservation with
    | none =>
      have hstep : indexRecorded d record = d := by rw [indexRecorded, hres]
      obtain ⟨hnodup, hkeep, honly, hkeys⟩ := ih hd
      rw [hstep]
      refine ⟨hnodup, hkeep, fun e he => (honly e he).imp_right ?_, fun x hx r hr => ?_⟩
      · rintro ⟨x, hx, hxe⟩
        exact ⟨x, mem_cons_of_mem _ hx, hxe⟩
      · rcases mem_cons.mp hx with rfl | hx
        · cases hres.symm.trans hr
        · exact hkeys x hx r hr
    | some r₀ =>
      have hstep : indexRecorded d record = d.setDefault r₀.reservationId.val r₀ := by
        rw [indexRecorded, hres]
      obtain ⟨hnodup, hkeep, honly, hkeys⟩ := ih (nodup_keys_setDefault hd _ r₀)
      rw [hstep]
      refine ⟨hnodup, fun e he => hkeep e (mem_setDefault.1 he), fun e he => ?_,
        fun x hx r hr => ?_⟩
      · rcases honly e he with he | ⟨x, hx, hxe⟩
        · exact (mem_setDefault.2 he).symm.imp_right fun heq =>
            ⟨record, mem_cons_self, r₀, hres, heq⟩
        · exact .inr ⟨x, mem_cons_of_mem _ hx, hxe⟩
      · rcases mem_cons.mp hx with rfl | hx
        · obtain rfl := Option.some.inj (hres.symm.trans hr)
          obtain ⟨v, hv⟩ : ∃ v, (d.setDefault r₀.reservationId.val r₀).get? r₀.reservationId.val =
              some v := ⟨_, by rw [get?_setDefault, if_pos rfl]⟩
          exact mem_map.mpr ⟨_, hkeep _ (mem_of_get? hv), rfl⟩
        · exact hkeys x hx r hr

/-! ## The restored ledger -/

namespace IsSnapshot

variable {S : BudgetSnapshot}

section

variable (h : IsSnapshot sha256 L S)

include h

theorem ids_nodup (hL : L.ScopeTree) : (idsOf S.scopes).Nodup := by
  rw [h.ids]
  exact (sortedKeys_perm _).nodup_iff.mpr hL.nodup

theorem mem_ids (id : RequiredText) : id ∈ idsOf S.scopes ↔ id ∈ L.scopes.keys := by
  rw [h.ids]
  exact (sortedKeys_perm _).mem_iff

theorem itemOf {i : BudgetScopeSnapshot} (hi : i ∈ S.scopes) : ItemOf L i :=
  have hs := of_scopeSnapshot (h.scopes i hi)
  ⟨hs.1, hs.2.1⟩

/-- A table built from the scopes of the snapshot has the entries of the ledger's. -/
theorem get?_table (hL : L.ScopeTree) {ν : Type}
    {t : PyDict RequiredText ν} (hcovers : L.Covers t) {value : BudgetScopeSnapshot → ν}
    (hvalue : ∀ i ∈ S.scopes, t.get? i.scope.scopeId = some (value i)) (id : RequiredText) :
    (ofItems (fun i : BudgetScopeSnapshot => i.scope.scopeId) value S.scopes).get? id =
      t.get? id := by
  refine Option.ext fun v => ?_
  rw [get?_ofItems (h.ids_nodup hL)]
  constructor
  · rintro ⟨i, hi, rfl, rfl⟩
    exact hvalue i hi
  · intro hget
    have hid := (h.mem_ids id).mpr ((hcovers id).mp ((mem_keys_iff _ _).mpr ⟨v, hget⟩))
    obtain ⟨i, hi, rfl⟩ := mem_map.mp hid
    exact ⟨i, hi, rfl, Option.some.inj ((hvalue i hi).symm.trans hget)⟩

theorem operations_nodup (hrec : Records sha256 L) :
    (S.operationRecords.map operationId).Nodup := by
  rw [h.operations]
  exact (sortedKeys_perm _).nodup_iff.mpr hrec.operations_nodup

theorem mem_records {op : RequiredText} {record : BudgetOperationRecord}
    (hget : L.operations.get? op = some record) :
    record ∈ S.operationRecords ∧ record.operationId = op := by
  have hmem : op ∈ sortedKeys L.operations :=
    (sortedKeys_perm _).mem_iff.mpr ((mem_keys_iff _ _).mpr ⟨record, hget⟩)
  rw [← h.operations] at hmem
  obtain ⟨record', hrecord', rfl⟩ := mem_map.mp hmem
  obtain rfl := Option.some.inj (hget.symm.trans (h.records record' hrecord'))
  exact ⟨hrecord', rfl⟩

theorem keys_nodup (hrec : Records sha256 L) :
    (S.operationRecords.map idempotencyKey).Nodup := by
  refine List.Nodup.map_on (fun x hx y hy hkey => ?_) (h.operations_nodup hrec).of_map
  have hx' := (hrec.idempotency _ _).mpr ⟨x, h.records x hx, rfl⟩
  have hy' := (hrec.idempotency _ _).mpr ⟨y, h.records y hy, rfl⟩
  rw [hkey, hy'] at hx'
  have hop := Option.some.inj hx'
  have hget := h.records x hx
  rw [← hop, h.records y hy] at hget
  exact (Option.some.inj hget).symm

theorem records_perm (hrec : Records sha256 L) : S.operationRecords.Perm L.operations.values := by
  have hnodup : L.operations.values.Nodup := by
    refine List.Nodup.of_map operationId ?_
    have : L.operations.values.map operationId = L.operations.keys := by
      rw [PyDict.values, PyDict.keys, map_map]
      refine map_congr_left fun p hp => ?_
      exact (hrec.record _ _ (get?_of_mem hrec.operations_nodup hp)).id_eq
    rw [this]
    exact hrec.operations_nodup
  refine (perm_ext_iff_of_nodup (h.operations_nodup hrec).of_map hnodup).mpr fun record => ?_
  constructor
  · exact fun hmem => mem_values_of_get? (h.records record hmem)
  · intro hmem
    obtain ⟨op, hget⟩ := exists_get?_of_mem_values hrec.operations_nodup hmem
    exact (h.mem_records hget).1

/-- The restored index is the reservation index. -/
theorem restoredIndex_eq (hrec : Records sha256 L) : (restoredIndex S).keys.Nodup ∧
      ∀ key, (restoredIndex S).get? key = L.reservations.get? key := by
  have hopen : ofItems _ id _ = _ := ofItems_eq_map h.open_nodup
  obtain ⟨hnodup, hkeep, honly, hkeys⟩ := foldl_indexRecorded S.operationRecords
    (d := ofItems (fun r : BudgetReservation => r.reservationId.val) id S.openReservations)
    (by rw [keys_ofItems h.open_nodup]; exact h.open_nodup)
  refine ⟨hnodup, fun key => Option.ext fun r => ?_⟩
  have hsound : ∀ {key r}, (restoredIndex S).get? key = some r →
      L.reservations.get? key = some r := by
    intro key r hget
    rcases honly _ (mem_of_get? hget) with hmem | ⟨record, hrecord, r', hr', heq⟩
    · rw [hopen] at hmem
      obtain ⟨r', hr', heq⟩ := mem_map.mp hmem
      cases heq
      exact ((h.mem_open r').mp hr').1
    · cases heq
      exact ((hrec.record _ _ (h.records record hrecord)).reservation _ hr').indexed
  refine ⟨hsound, fun hget => ?_⟩
  obtain ⟨r', hget'⟩ : ∃ r', (restoredIndex S).get? key = some r' := by
    rw [← mem_keys_iff]
    obtain ⟨rfl, record, hrecord, hres, -⟩ := hrec.of_index hget
    exact hkeys record (h.mem_records hrecord).1 r hres
  rwa [Option.some.inj (hget.symm.trans (hsound hget'))]

end

end IsSnapshot

/-- The tree of a ledger with the entries of `L` and scopes grown root first. -/
theorem ScopeTree.of_same (hL : L.ScopeTree) (h : Same L M) (hnodup : M.scopes.keys.Nodup)
    (hgrown : Forest.Grown M.parentOf M.scopes.keys.reverse) : M.ScopeTree := by
  have hcovers : ∀ {ν : Type} {t t' : PyDict RequiredText ν}, (∀ id, t'.get? id = t.get? id) →
      L.Covers t → M.Covers t' := by
    intro ν t t' hget hcovers id
    rw [mem_keys_iff, hget, ← mem_keys_iff, hcovers id, h.keys]
  refine ⟨hnodup, ?_, hgrown, hcovers h.policies hL.policies, hcovers h.committed hL.committed,
    hcovers h.baseline hL.baseline, hcovers h.reserved hL.reserved, ?_, ?_, ?_, ?_⟩
  · intro id scope hget
    exact hL.key_eq id scope (by rw [← h.scopes]; exact hget)
  · rw [h.root]
    simp only [h.scopes]
    exact hL.root
  · intro id scope hget htype
    rw [h.root]
    exact hL.only_root id scope (by rw [← h.scopes]; exact hget) htype
  · rw [h.root]
    simp only [h.scopes]
    exact hL.same_run
  · simp only [h.scopes, h.policies]
    exact hL.revision

/-- Restoring a snapshot of `L` validates and returns a ledger with the entries of `L`. -/
theorem restore_eq (hinv : LedgerInv sha256 L) {S : BudgetSnapshot} (hS : IsSnapshot sha256 L S) :
    ∃ R, Same L R ∧ LedgerInv sha256 R ∧ R.lastEventId = L.lastEventId.map strip ∧
      restore sha256 S = (do
        asHistory (R.validateRestoredState sha256)
        .ok R) := by
  obtain ⟨rootScope, hroot, hrootType⟩ := hinv.tree.root
  have hrootMem := (hS.mem_ids _).mpr (mem_scopes_keys hroot)
  obtain ⟨root, hrootItem, hrootId⟩ := mem_map.mp hrootMem
  have hrootOf := hS.itemOf hrootItem
  have hnodup := hS.ids_nodup hinv.tree
  have hlookup : (ofItems (fun i : BudgetScopeSnapshot => i.scope.scopeId) id
      S.scopes).get? S.rootScopeId = some root :=
    (get?_ofItems hnodup _ _).mpr ⟨root, hrootItem, hrootId.trans hS.root.symm, rfl⟩
  have htype : root.scope.scopeType = .run := by
    have hscope := hrootOf.scope
    rw [hrootId, hroot] at hscope
    rw [← Option.some.inj hscope]
    exact hrootType
  have hdigest : root.policy.digest sha256 = S.policyDigest :=
    (hS.digest root.policy (hrootId ▸ hrootOf.policy)).symm
  have hrevision := hinv.tree.revision _ _ _ hrootOf.scope hrootOf.policy
  have hfresh : create root.scope root.policy =
      .ok (initial root.scope root.policy BudgetAmounts.zero) := by
    rw [create, check_of_pos htype, check_of_pos hrevision]
  have hpending : PyDict.values ((ofItems (fun i : BudgetScopeSnapshot => i.scope.scopeId) id
      S.scopes).filter fun p => p.1 ≠ S.rootScopeId) =
      S.scopes.filter fun i => i.scope.scopeId ≠ S.rootScopeId := by
    rw [ofItems_eq_map hnodup, PyDict.values, filter_map, map_map]
    exact map_id _
  set pending := S.scopes.filter fun i => i.scope.scopeId ≠ S.rootScopeId with hpendingDef
  have hfreshKeys : ∀ id, id ∈ (initial root.scope root.policy BudgetAmounts.zero).scopes.keys ↔
      id = S.rootScopeId := by
    intro id
    rw [hS.root, ← hrootId]
    simp [initial]
  have hpart : Part sha256 L (initial root.scope root.policy BudgetAmounts.zero) := by
    refine ⟨ledgerInv_initial htype hrevision ⟨fun _ _ _ => Nat.zero_le _, fun _ _ => Nat.zero_le _⟩,
      hrootId, fun id scope hget => ?_, fun id policy hget => ?_⟩
    · obtain rfl : id = S.rootScopeId := (hfreshKeys id).mp (mem_scopes_keys hget)
      rw [hS.root, ← hrootId] at hget ⊢
      rw [hrootOf.scope, ← hget]
      simp [initial, PyDict.get?]
    · obtain rfl : id = S.rootScopeId := by
        have := (mem_keys_iff _ _).mpr ⟨policy, hget⟩
        exact (hfreshKeys id).mp this
      rw [hS.root, ← hrootId] at hget ⊢
      rw [hrootOf.policy, ← hget]
      simp [initial, PyDict.get?]
  obtain ⟨registered, hregistered, hpartR, hall⟩ := registerAll_ok hinv.tree pending.length
    (M := initial root.scope root.policy BudgetAmounts.zero) le_rfl hpart
    (fun i hi => hS.itemOf (mem_of_mem_filter hi)) ((filter_sublist.map _).nodup hnodup)
    (by
      intro id hid hmem
      obtain ⟨i, hi, rfl⟩ := mem_map.mp hid
      have hne : i.scope.scopeId ≠ S.rootScopeId := by simpa using (mem_filter.mp hi).2
      exact hne ((hfreshKeys _).mp hmem))
    (by
      intro id hid
      by_cases heq : id = S.rootScopeId
      · exact .inl ((hfreshKeys id).mpr heq)
      · right
        obtain ⟨i, hi, rfl⟩ := mem_map.mp ((hS.mem_ids id).mpr hid)
        exact mem_map.mpr ⟨i, mem_filter.mpr ⟨hi, by simpa using heq⟩, rfl⟩)
  set given := ofItems (fun i : BudgetScopeSnapshot => i.scope.scopeId)
    (fun i => i.baselineCommitted.getD i.committed) S.scopes with hgiven
  have hlookups := fun i hi => of_scopeSnapshot (hS.scopes i hi)
  have hgivenGet : ∀ id, given.get? id = L.baselineCommitted.get? id :=
    hS.get?_table hinv.tree hinv.tree.baseline fun i hi => by
      obtain ⟨-, -, -, -, b, hb, hib⟩ := hlookups i hi
      rw [hb, hib, Option.getD_some]
  obtain ⟨hindexNodup, hindex⟩ := hS.restoredIndex_eq hinv.records
  have hopsNodup := hS.operations_nodup hinv.records
  let R : BudgetLedger := { registered.withSnapshot S with baselineCommitted := given }
  have hscopesR : ∀ id, registered.scopes.get? id = L.scopes.get? id := by
    intro id
    cases hget : L.scopes.get? id with
    | none =>
      refine Option.eq_none_iff_forall_ne_some.mpr fun scope hs => ?_
      rw [hpartR.scopes id scope hs] at hget
      simp at hget
    | some scope =>
      obtain ⟨scope', hs⟩ := (mem_keys_iff _ _).mp (hall id (mem_scopes_keys hget))
      rw [hs, ← hget, hpartR.scopes id scope' hs]
  have hpoliciesR : ∀ id, registered.policies.get? id = L.policies.get? id := by
    intro id
    cases hget : L.policies.get? id with
    | none =>
      refine Option.eq_none_iff_forall_ne_some.mpr fun policy hp => ?_
      rw [hpartR.policies id policy hp] at hget
      simp at hget
    | some policy =>
      have hid := (hinv.tree.policies id).mp ((mem_keys_iff _ _).mpr ⟨policy, hget⟩)
      obtain ⟨policy', hp⟩ := hpartR.inv.tree.policies.exists_get (hall id hid)
      rw [hp, ← hget, hpartR.policies id policy' hp]
  have hsame : Same L R :=
    { root := hpartR.root
      scopes := hscopesR
      policies := hpoliciesR
      committed := hS.get?_table hinv.tree hinv.tree.committed fun i hi => (hlookups i hi).2.2.1
      baseline := hgivenGet
      reserved := hS.get?_table hinv.tree hinv.tree.reserved fun i hi => (hlookups i hi).2.2.2.1
      reservations := hindex
      operations := fun op => by
        refine Option.ext fun record => ?_
        refine (get?_ofItems hopsNodup op record).trans ⟨?_, fun hget => ?_⟩
        · rintro ⟨record', hrecord', rfl, rfl⟩
          exact hS.records record' hrecord'
        · obtain ⟨hmem, hop⟩ := hS.mem_records hget
          exact ⟨record, hmem, hop, rfl⟩
      idempotency := fun key => by
        refine Option.ext fun op => ?_
        refine (get?_ofItems (hS.keys_nodup hinv.records) key op).trans ?_
        rw [hinv.records.idempotency]
        constructor
        · rintro ⟨record, hrecord, rfl, rfl⟩
          exact ⟨record, hS.records record hrecord, rfl⟩
        · rintro ⟨record, hget, rfl⟩
          obtain ⟨hmem, hop⟩ := hS.mem_records hget
          exact ⟨record, hmem, rfl, hop⟩
      revision := hS.revision }
  have htreeR : R.ScopeTree :=
    hinv.tree.of_same hsame hpartR.inv.tree.nodup hpartR.inv.tree.grown
  have hopsNodupR : R.operations.keys.Nodup := by
    show (ofItems operationId id S.operationRecords).keys.Nodup
    rwa [keys_ofItems hopsNodup]
  have hinvR : LedgerInv sha256 R := hinv.of_same hsame htreeR hindexNodup hopsNodupR
  have htotals : (registered.withSnapshot S).validateCommittedTotals S = .ok given := by
    refine validateCommittedTotals_ok (L := R) hinvR ?_ ?_ ?_ ?_
    · show (ofItems (fun i : BudgetScopeSnapshot => i.scope.scopeId)
        BudgetScopeSnapshot.committed S.scopes).keys.Nodup
      rw [keys_ofItems hnodup]
      exact hnodup
    · intro i hi
      obtain ⟨-, -, -, -, b, -, hib⟩ := hlookups i hi
      exact ⟨b, hib⟩
    · exact fun _ => rfl
    · refine (hS.records_perm hinv.records).trans ?_
      exact ((perm_of_get?_eq hinv.records.operations_nodup hopsNodupR
        hsame.operations).map Prod.snd).symm
  refine ⟨R, hsame, hinvR, hS.last, ?_⟩
  have hopenIds : (S.openReservations.map BudgetReservation.reservationId).Nodup :=
    List.Nodup.of_map RequiredText.val (by rw [map_map]; exact hS.open_nodup)
  have hids : (S.scopes.map fun i => i.scope.scopeId).Nodup := hnodup
  rw [restore]
  simp only [rejectDuplicateIdentities, require_of_pos _ hids, require_of_pos _ hopenIds,
    require_of_pos _ hopsNodup, require_of_pos _ (hS.keys_nodup hinv.records), hlookup, orRaise_some, ok_bind, require_of_pos _ htype, require_of_pos _ hdigest,
    hfresh, hpending, hregistered, htotals, asHistory]
  rfl

end BudgetLedger

end Budget
