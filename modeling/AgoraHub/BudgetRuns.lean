/-
# The totals along runs

Every ledger that a run of clean calls reaches satisfies the invariant, so at each
scope the reserved and the committed totals are the sums over its subtree and no
limit is exceeded.
-/
import AgoraHub.BudgetPreservation

namespace Budget

open Fallible PyText PyDict
open BudgetAmounts (zero)

namespace BudgetLedger

variable {sha256 : String → HexDigest} {L : BudgetLedger}

/-! ## Steps -/

/-- Every change keeps the invariant. -/
theorem LedgerInv.change (h : LedgerInv sha256 L) {call : LedgerCall} {e : BudgetEvent}
    {L' : BudgetLedger} (hc : Change sha256 L call e L') : LedgerInv sha256 L' := by
  cases hc with
  | denied check =>
    have hd := of_reserveCheck_deny check
    exact ⟨h.tree.frame rfl rfl rfl rfl rfl rfl, h.records.withDenial hd,
      h.totals.withDenial hd.fresh.operation⟩
  | created check fresh booked =>
    have hadm := of_reserveCheck_create check
    obtain ⟨reserved, hbooked, hadded⟩ :=
      h.exists_reserved (mem_scopes_keys hadm.scope) hadm.fits
    obtain rfl := congrArg Prod.snd (booked.symm.trans hbooked)
    exact ⟨h.tree.frame rfl rfl rfl rfl rfl hadded.keys, h.records.withReservation hadm fresh,
      h.totals.withReservation hadm fresh hadded⟩
  | settled key check free book =>
    obtain ⟨hclosing, -, -, hfits, -⟩ := of_settleCheck_commit h.records check
    obtain ⟨freed, hfreed, haddedFreed⟩ := h.exists_freed hclosing.found hclosing.is_open
    obtain ⟨booked, hbooked, haddedBooked⟩ :=
      h.exists_booked hclosing.found hclosing.is_open hfits
    obtain rfl := congrArg Prod.snd (free.symm.trans hfreed)
    obtain rfl := congrArg Prod.snd (book.symm.trans hbooked)
    exact ⟨h.tree.frame rfl rfl rfl haddedBooked.keys rfl haddedFreed.keys.symm,
      h.records.withSettlement hclosing key,
      h.totals.withSettlement_fits h.records hclosing key haddedFreed haddedBooked hfits⟩
  | released key check free | expired key due check free =>
    obtain ⟨hclosing, hzero, -⟩ := of_releaseCheck_commit h.records (by simp) check
    obtain ⟨freed, hfreed, hadded⟩ := h.exists_freed hclosing.found hclosing.is_open
    obtain rfl := congrArg Prod.snd (free.symm.trans hfreed)
    exact ⟨h.tree.frame rfl rfl rfl rfl rfl hadded.keys.symm, h.records.withSettlement hclosing key,
      h.totals.withSettlement_zero h.records hclosing key (fun k => (hadded.amount_eq k).symm)
        hzero⟩
  | indeterminate origin key check =>
    obtain ⟨hclosing, hzero, -⟩ := of_markIndeterminateCheck_commit h.records check
    exact ⟨h.tree.frame rfl rfl rfl rfl rfl rfl, h.records.withSettlement hclosing key,
      h.totals.withSettlement_zero h.records hclosing key (fun k => add_zero _) hzero⟩

theorem LedgerInv.addScope (h : LedgerInv sha256 L) {scope : BudgetScopeRef}
    {policy : BudgetPolicy} (hreg : L.Registered scope policy) :
    LedgerInv sha256 (L.addScope scope policy) :=
  ⟨h.tree.addScope hreg, h.records.addScope hreg, h.totals.addScope h.tree h.records hreg⟩

theorem LedgerInv.step (h : LedgerInv sha256 L) {step : LedgerStep}
    (hclean : Clean sha256 L step.call) : LedgerInv sha256 (step.apply sha256 L).1 := by
  rcases LedgerStep.apply_cases h hclean with
    happly | ⟨scope, policy, -, hcheck, happly⟩ | ⟨e, L', recorded, hchange, -, happly⟩
  · rw [happly]; exact h
  · rw [happly]; exact h.addScope (of_registerCheck hcheck)
  · rw [happly]; exact h.change hchange

/-! ## Runs -/

/-- Every step of a run meets `ok` in the ledger it is applied to. -/
def EveryStep (sha256 : String → HexDigest) (ok : BudgetLedger → LedgerCall → Prop) :
    List LedgerStep → BudgetLedger → Prop
  | [], _ => True
  | step :: steps, L => ok L step.call ∧ EveryStep sha256 ok steps (step.apply sha256 L).1

theorem LedgerInv.run {steps : List LedgerStep} :
    ∀ {L : BudgetLedger}, LedgerInv sha256 L → EveryStep sha256 (Clean sha256) steps L →
      LedgerInv sha256 (runSteps sha256 steps L).1 := by
  induction steps with
  | nil => intro L h _; exact h
  | cons step steps ih => intro L h hclean; exact ih (h.step hclean.1) hclean.2

/-- A fresh root scope whose amounts respect its policy satisfies the invariant. -/
theorem ledgerInv_initial {scope : BudgetScopeRef} {policy : BudgetPolicy}
    {committed : BudgetAmounts} (htype : scope.scopeType = .run)
    (hrevision : scope.policyRevision = policy.policyRevision)
    (hadmits : policy.limits.Admits committed.get) :
    LedgerInv sha256 (initial scope policy committed) := by
  have hget : ∀ {ν : Type} {v found : ν} {id : RequiredText},
      PyDict.get? [(scope.scopeId, v)] id = some found → scope.scopeId = id ∧ v = found := by
    intro ν v found id h
    rw [get?_cons] at h
    split at h
    · exact ⟨‹_›, Option.some.inj h⟩
    · simp at h
  have hself : ∀ {ν : Type} (v : ν), PyDict.get? [(scope.scopeId, v)] scope.scopeId = some v :=
    fun v => by rw [get?_cons, if_pos rfl]
  refine ⟨?_, ?_, ?_⟩
  · constructor
    · simp [initial]
    · intro id found h
      obtain ⟨rfl, rfl⟩ := hget h
      rfl
    · refine ⟨.inl ?_, trivial⟩
      show (PyDict.get? [(scope.scopeId, scope)] scope.scopeId).map _ = _
      rw [hself, Option.map_some, scope.run_root htype]
    · exact fun _ => Iff.rfl
    · exact fun _ => Iff.rfl
    · exact fun _ => Iff.rfl
    · exact fun _ => Iff.rfl
    · exact ⟨scope, hself scope, htype⟩
    · intro id found h _
      exact (hget h).1.symm
    · intro id found root h h'
      rw [← (hget h).2, ← (hget h').2]
    · intro id found found' h h'
      rw [← (hget h).2, ← (hget h').2]
      exact hrevision
  · constructor <;> simp [initial]
  · have hamount : ∀ {id : RequiredText} (v : BudgetAmounts), id = scope.scopeId →
        amountAt [(scope.scopeId, v)] id = v.get := by
      rintro id v rfl
      exact amountAt_of_get? (hself v)
    have hkey : ∀ {id : RequiredText}, id ∈ (initial scope policy committed).scopes.keys →
        id = scope.scopeId := fun hid => by simpa [initial] using hid
    constructor
    · intro id hid
      exact hamount zero (hkey hid)
    · intro id hid
      exact (hamount committed (hkey hid)).trans
        (((add_zero _).symm).trans (congrArg (· + 0) (hamount committed (hkey hid)).symm))
    · intro id hid d
      show amountAt [(scope.scopeId, committed)] id d +
        amountAt [(scope.scopeId, zero)] id d ≤ maxAmount d
      rw [hamount _ (hkey hid), hamount _ (hkey hid)]
      exact committed.le_max d
    · intro id found h
      obtain ⟨rfl, rfl⟩ := hget h
      show policy.limits.Admits (amountAt [(scope.scopeId, committed)] scope.scopeId +
        amountAt [(scope.scopeId, zero)] scope.scopeId)
      rw [hamount _ rfl, hamount _ rfl]
      exact hadmits

/-- The constructor and the import of a legacy snapshot establish the invariant. -/
theorem IsInitial.inv (h : L.IsInitial) : LedgerInv sha256 L := by
  obtain ⟨scope, policy, committed, h | h⟩ := h
  · simp only [create, bind_eq_ok, require_eq_ok] at h
    obtain ⟨_, htype, _, hrevision, hL⟩ := h
    cases hL
    exact ledgerInv_initial htype hrevision
      ⟨fun _ _ _ => Nat.zero_le _, fun _ _ => Nat.zero_le _⟩
  · simp only [restoreLegacy, create, bind_eq_ok, require_eq_ok] at h
    obtain ⟨_, ⟨_, htype, _, hrevision, -⟩, _, hadmits, hL⟩ := h
    cases hL
    exact ledgerInv_initial htype hrevision (BudgetLimits.violations_eq_nil_iff.mp hadmits)

/-! ## The totals of every scope -/

/-- What the totals of the scope `id` must be.  A scope is at or below `id` when `id`
is among its ancestors, that is, when parent pointers lead from it to `id`. -/
structure ScopeTotals (L : BudgetLedger) (id : RequiredText)
    (committed baseline reserved : BudgetAmounts) (policy : BudgetPolicy) : Prop where
  below : ∀ below ∈ L.scopes.keys,
    id ∈ (L.ancestors below).1 ↔ Relation.ReflTransGen (Forest.Up L.parentOf) below id
  reserved_eq : reserved.get = sumOf (L.openAmount id) L.reservations
  committed_eq : committed.get = baseline.get + sumOf (L.settledAmount id) L.operations
  within : ∃ total, committed.add reserved = .ok total ∧ policy.limits.violations total = []

/-- Every registered scope has its totals. -/
def TotalsAgree (L : BudgetLedger) : Prop :=
  ∀ id ∈ L.scopes.keys, ∃ committed baseline reserved policy,
    L.committed.get? id = some committed ∧ L.baselineCommitted.get? id = some baseline ∧
      L.reserved.get? id = some reserved ∧ L.policies.get? id = some policy ∧
      ScopeTotals L id committed baseline reserved policy

/-- The invariant gives the totals of every scope. -/
theorem LedgerInv.totalsAgree (h : LedgerInv sha256 L) : TotalsAgree L := by
  intro id hid
  obtain ⟨committed, hc⟩ := h.tree.committed.exists_get hid
  obtain ⟨baseline, hb⟩ := h.tree.baseline.exists_get hid
  obtain ⟨reserved, hr⟩ := h.tree.reserved.exists_get hid
  obtain ⟨policy, hp⟩ := h.tree.policies.exists_get hid
  have hceq := h.totals.committed_eq id hid
  have hreq := h.totals.reserved_eq id hid
  have hfits := h.totals.fits id hid
  have hadmits := h.totals.admits id policy hp
  rw [amountAt_of_get? hc, amountAt_of_get? hb] at hceq
  rw [amountAt_of_get? hr] at hreq
  rw [amountAt_of_get? hc, amountAt_of_get? hr] at hfits hadmits
  obtain ⟨total, htotal, hget⟩ := BudgetAmounts.exists_add hfits
  refine ⟨committed, baseline, reserved, policy, hc, hb, hr, hp,
    fun below hbelow => h.tree.mem_ancestors_iff hbelow, hreq, hceq, total, htotal, ?_⟩
  exact BudgetLimits.violations_eq_nil_iff.mpr (hget ▸ hadmits)

/-- In every run of clean calls from a new ledger, returning or raising and with any
replies of the event sink, each scope keeps its totals and stays within its limits. -/
theorem totalsAgree_of_clean_run (sha256 : String → HexDigest) (L : BudgetLedger)
    (steps : List LedgerStep) (hinit : L.IsInitial)
    (hclean : EveryStep sha256 (Clean sha256) steps L) : TotalsAgree (runSteps sha256 steps L).1 :=
  (hinit.inv.run hclean).totalsAgree

end BudgetLedger

/-! ## A padded reservation id -/

namespace Sample

open BudgetLedger

/-- A checked text. -/
def text (val : String) (trimmed : strip val = val := by decide) (nonempty : val ≠ "" := by decide)
    (bounded : val.length ≤ 512 := by decide) : RequiredText :=
  ⟨val, trimmed, nonempty, bounded⟩

/-- The digest of the text of `op-1` and `key-1`. -/
def operationDigest : HexDigest :=
  .ofNat 0x78d682449461528a355c2e559e643ca62f646063a76b41a5fafbd65a646fdf4d

/-- The id derived for the operation `op-1` with the key `key-1`. -/
def reservationId : String := "budget-reservation:" ++ operationDigest.text

/-- The digest of the text of `op-2` and `key-2`. -/
def otherDigest : HexDigest :=
  .ofNat 0xe9437842108d90c8d93ead31f55d0406999d4ba73f5b50abf22b9a6bee0fbe0a

/-- The id derived for the operation `op-2` with the key `key-2`. -/
def otherReservationId : String := "budget-reservation:" ++ otherDigest.text

/-- The SHA-256 digests of the texts the runs below hash. -/
def sha256 (hashed : String) : HexDigest :=
  if hashed = "op-1\x00key-1" then operationDigest
  else if hashed = "op-2\x00key-2" then otherDigest
  else if hashed = "created\x00" ++ otherReservationId ++ "\x002" then
    .ofNat 0x835102c9815fdb3bfb8c80105212fac372f70cecebced4d2168a75bfe0e06b3d
  else if hashed = "created\x00" ++ reservationId ++ "\x001" then
    .ofNat 0x3286652ffdf2ecfaaf3b0e5e22817675fc0724570230835e689177e8594b1c5f
  else if hashed = "released\x00" ++ reservationId ++ "\x002" then
    .ofNat 0xe5a585789e05200b2857f49c9e0515624950f22c04cea2050ff4c903615bb59b
  else if hashed = "released\x00 " ++ reservationId ++ "\x002" then
    .ofNat 0x3ab9efe1025babfac6c56f7bbaad247212e6eb1d141b2df48f3672a8ca2b9252
  else if hashed.startsWith "\x7b\"limits\"" then
    .ofNat 0xdbf6ba2644491602a808673922784bd860b0e7ca02a45d103d78e46ed9bbb84f
  else .ofNat 0x3f75741da588f21e3b1f9f7174021ba9c41df0b0e3f992ba02520d47fa22ffa4

/-- The run root `root` of the run `run-1`. -/
def scope : BudgetScopeRef where
  runId := text "run-1"
  scopeId := text "root"
  scopeType := .run
  policyRevision := text "v1"
  parentScopeId := none
  executionIdentity := none
  identity_run := by simp
  graph_exact := by simp
  run_root := by simp
  child_parent := by simp

/-- A policy without limits. -/
def policy : BudgetPolicy where
  policyRevision := text "v1"
  limits := ⟨fun _ => none, none, by simp, by simp⟩
  reservationTtlSeconds := 60
  ttl_le := by decide

/-- One LLM call. -/
def oneCall : BudgetAmounts := ⟨fun d => if d = .llmCalls then 1 else 0, by decide⟩

/-- The new ledger of the run. -/
def ledger : BudgetLedger := BudgetLedger.initial scope policy zero

theorem ledger_isInitial : ledger.IsInitial :=
  ⟨scope, policy, zero, .inl rfl⟩

/-- Reserve one call, then release the reservation under the given name. -/
def reserveThenRelease (name : String) : List LedgerStep :=
  [⟨.reserve scope oneCall "op-1" "key-1" none (some 0), .absent, 0⟩,
    ⟨.release name "op-1" "done" false none, .absent, 0⟩]

theorem everyStep_clean : EveryStep sha256 (Clean sha256) (reserveThenRelease reservationId) ledger := by
  refine ⟨fun _ _ _ _ _ => rfl, fun hne => absurd ?_ hne, trivial⟩
  decide

/-- Under its own id the release returns the whole reservation. -/
theorem totalsAgree_release :
    TotalsAgree (runSteps sha256 (reserveThenRelease reservationId) ledger).1 :=
  totalsAgree_of_clean_run sha256 ledger _ ledger_isInitial everyStep_clean

/-- The ledger after the release under a padded id. -/
def paddedLedger : BudgetLedger :=
  (runSteps sha256 (reserveThenRelease (" " ++ reservationId)) ledger).1

/-- Under a padded id the release frees the total and leaves the reservation open. -/
theorem not_totalsAgree_padded_release : ¬ TotalsAgree paddedLedger := by
  have hrun : scope.scopeId ∈ paddedLedger.scopes.keys ∧
      amountAt paddedLedger.reserved scope.scopeId .llmCalls = 0 ∧
      sumOf (paddedLedger.openAmount scope.scopeId) paddedLedger.reservations .llmCalls = 1 := by
    decide +kernel
  intro h
  obtain ⟨_, _, reserved, _, -, -, hget, -, htotals⟩ := h scope.scopeId hrun.1
  have hfreed := hrun.2.1
  rw [amountAt_of_get? hget, htotals.reserved_eq, hrun.2.2] at hfreed
  exact absurd hfreed (by decide)

end Sample

end Budget
