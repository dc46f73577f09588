/-
# Repeating a settlement

A caller that has lost the answer of `settle` asks again with the same arguments.
The second call compares its settlement with the stored one, which `settle` may have
rewritten: it turns a settlement that does not fit into an indeterminate one, and it
stores an indeterminate settlement with zero amounts, as dispatched and with a
reason.  The first rewriting is recognised when the call is repeated, the second
only where it changed nothing.
-/
import AgoraHub.BudgetRuns

namespace Budget

open Fallible PyText PyDict BudgetOperationRecord Stateful BudgetReasonCode
open CallResult (raised)

/-- A search through the values after an assignment that keeps what was found or puts
a new find in its place. -/
theorem exists_findSome?_values_set {κ ν μ : Type} [DecidableEq κ] {d : PyDict κ ν} {k : κ}
    {old v : ν} {f : ν → Option μ} {a : μ} (hold : d.get? k = some old)
    (hkept : f old ≠ none → f v ≠ none) (hfound : d.values.findSome? f = some a) :
    ∃ b, (d.set k v).values.findSome? f = some b ∧ (b = a ∨ f v = some b) := by
  induction d with
  | nil => simp at hold
  | cons p d ih =>
    rw [values_cons, List.findSome?_cons] at hfound
    by_cases hp : p.1 = k
    · obtain rfl : p.2 = old := by simpa [get?_cons, hp] using hold
      rw [PyDict.set, if_pos hp, values_cons, List.findSome?_cons]
      cases hv : f v with
      | some b => exact ⟨b, rfl, .inr rfl⟩
      | none =>
        -- the old value was skipped too, so the find lies behind it
        have hnone : f p.2 = none := by
          by_contra h
          exact hkept h hv
        rw [hnone] at hfound
        exact ⟨a, hfound, .inl rfl⟩
    · rw [PyDict.set, if_neg hp, values_cons, List.findSome?_cons]
      cases hhead : f p.2 with
      | some b =>
        rw [hhead] at hfound
        exact ⟨b, rfl, .inl (Option.some.inj hfound)⟩
      | none =>
        rw [hhead] at hfound
        rw [get?_cons, if_neg hp] at hold
        exact ih hold hfound

variable {reason : String} {settled : BudgetSettlement} {first : CallResult BudgetSettlement}

namespace BudgetLedger

variable {sha256 : String → HexDigest} {L L' : BudgetLedger}

/-! ## The ledger after a settling commit -/

/-- What a settling commit has stored: the reservation under the id it was called
with and the terminal record under the operation. -/
structure Stored (L L' : BudgetLedger) (reservationId : String) (r : BudgetReservation)
    (record : BudgetOperationRecord) (s : BudgetSettlement) (status : BudgetReservationStatus) :
    Prop where
  create : (settledRecord record (r.withStatus status) s).create =
    .ok (settledRecord record (r.withStatus status) s)
  reservations : L'.reservations = L.reservations.set reservationId (r.withStatus status)
  operations : L'.operations =
    L.operations.set record.operationId (settledRecord record (r.withStatus status) s)

section Stored

variable {reservationId : String} {r : BudgetReservation} {record : BudgetOperationRecord}
  {s : BudgetSettlement} {status : BudgetReservationStatus}

section

variable (h : Stored L L' reservationId r record s status)

include h

theorem Stored.identity :
    record.reservationId = some r.reservationId ∧ record.operationId = r.operationId := by
  obtain ⟨hid, hop, -⟩ := of_create_reservation h.create rfl
  exact ⟨hid, hop⟩

theorem Stored.reservationId_eq : s.reservationId = r.reservationId := by
  obtain ⟨-, hset, -⟩ := create_eq_ok.mp h.create
  have hid := (of_require hset).1
  have hrecord : record.reservationId = some s.reservationId := hid
  exact Option.some.inj (hrecord.symm.trans h.identity.1)

theorem Stored.operation :
    L'.operations.get? r.operationId = some (settledRecord record (r.withStatus status) s) := by
  rw [h.operations, ← h.identity.2]
  exact get?_set_self _ _ _

/-- The next lookup under the same id finds the reservation, as it was or with its
new status: a padded id is read trimmed and written as it is. -/
theorem Stored.reservation (hr : L.reservationOrRecorded reservationId = .ok r)
    (hrecord : L.operations.get? r.operationId = some record) :
    ∃ r', L'.reservationOrRecorded reservationId = .ok r' ∧ r'.operationId = r.operationId ∧
      (r' = r ∨ r' = r.withStatus status) := by
  simp only [reservationOrRecorded, bind_eq_ok] at hr
  obtain ⟨id, hid, hr⟩ := hr
  simp only [reservationOrRecorded, hid, ok_bind]
  rw [h.reservations, get?_set]
  by_cases hkey : id.val = reservationId
  · rw [if_pos hkey]
    exact ⟨_, rfl, rfl, .inr rfl⟩
  · rw [if_neg hkey]
    cases hidx : L.reservations.get? id.val with
    | some r₀ =>
      rw [hidx] at hr
      obtain rfl := ok_inj hr
      exact ⟨_, rfl, rfl, .inl rfl⟩
    | none =>
      rw [hidx] at hr
      -- the record that changed has the same reservation id as before
      have hset : L.operations.get? record.operationId = some record := by
        rw [h.identity.2]
        exact hrecord
      obtain ⟨r', hfound, hr'⟩ := exists_findSome?_values_set
        (v := settledRecord record (r.withStatus status) s) hset (by
          intro hne hnone
          apply hne
          have hid : ¬ record.reservationId = some id := by
            intro heq
            simp [settledRecord, heq] at hnone
          exact if_neg hid) (orRaise_eq_ok.mp hr)
      rw [h.operations]
      rcases hr' with rfl | hnew
      · exact ⟨_, orRaise_eq_ok.mpr hfound, rfl, .inl rfl⟩
      · split at hnew
        · obtain rfl := Option.some.inj hnew
          exact ⟨_, orRaise_eq_ok.mpr hfound, rfl, .inr rfl⟩
        · simp at hnew

end

end Stored

/-! ## Commits that returned -/

section Commits

variable {reservationId : String} {r : BudgetReservation} {record : BudgetOperationRecord}
  {s answer : BudgetSettlement} {e : BudgetEvent} {text : String}

/-- An operation that returned has appended its event and committed. -/
theorem of_appendThen_ok {α : Type} {sink : SinkReply} {commit : Commit α} {a : α}
    (h : (appendThen sink e commit L).outcome = .ok a) :
    commit.exec L = (.ok a, (appendThen sink e commit L).ledger) := by
  unfold appendThen at h ⊢
  cases happ : appendEvent sink e with
  | error err =>
    rw [happ] at h
    simp [raised] at h
  | ok recorded =>
    rw [happ] at h
    exact Prod.ext h rfl

theorem of_setOperation {u : Unit} (h : (setOperation record).exec L = (.ok u, L')) :
    record.create = .ok record ∧
      L' = { L with operations := L.operations.set record.operationId record } := by
  obtain ⟨record', L₁, hlift, hset⟩ := exec_bind_eq_ok h
  obtain ⟨hcreate, rfl⟩ : record.create = .ok record' ∧ L = L₁ := Prod.mk.inj hlift
  obtain rfl := (create_eq_ok.mp hcreate).2.2.2
  exact ⟨hcreate, (Prod.mk.inj hset).2.symm⟩

/-- What the assignments after a reservation is closed have stored. -/
theorem of_closingAssignments {status : BudgetReservationStatus} {revision : ℕ} (h : (do
      setReservation reservationId (r.withStatus status)
      setOperation (settledRecord record (r.withStatus status) s)
      advance revision text
      pure s : Commit BudgetSettlement).exec L = (.ok answer, L')) :
    answer = s ∧ Stored L L' reservationId r record s status ∧
      L' = L.withSettlement reservationId (r.withStatus status) record s revision text L.reserved
        L.committed := by
  obtain ⟨_, L₁, hreservation, h⟩ := exec_bind_eq_ok h
  obtain ⟨-, rfl⟩ := Prod.mk.inj hreservation
  obtain ⟨_, L₂, hoperation, h⟩ := exec_bind_eq_ok h
  obtain ⟨hcreate, rfl⟩ := of_setOperation hoperation
  obtain ⟨hanswer, hL'⟩ := Prod.mk.inj h
  cases hanswer
  subst hL'
  exact ⟨rfl, ⟨hcreate, rfl, rfl⟩, rfl⟩

theorem of_settleCommit
    (h : (settleCommit reservationId r record s e text).exec L = (.ok answer, L')) :
    answer = s ∧ Stored L L' reservationId r record s .settled := by
  obtain ⟨_, L₁, hfreed, h⟩ := exec_bind_eq_ok h
  obtain ⟨-, rfl⟩ := Prod.mk.inj hfreed
  obtain ⟨_, L₂, hbooked, h⟩ := exec_bind_eq_ok h
  obtain ⟨-, rfl⟩ := Prod.mk.inj hbooked
  obtain ⟨rfl, hstored, -⟩ := of_closingAssignments h
  exact ⟨rfl, hstored.create, hstored.reservations, hstored.operations⟩

end Commits

/-! ## The second call -/

section SecondCall

variable {reservationId : String} {r : BudgetReservation} {record : BudgetOperationRecord}
  {s stored : BudgetSettlement} {status : BudgetReservationStatus}
    (hr : L.reservationOrRecorded reservationId = .ok r)
    (hrecord : L.operations.get? r.operationId = some record)

include hr hrecord

/-- A settlement whose command is the stored one is answered from the record. -/
theorem Stored.settleCheck_same (h : Stored L L' reservationId r record stored status)
    (hsame : stored.toSettlementCommand = s.toSettlementCommand) :
    L'.settleCheck reservationId s = .ok (.recorded stored) := by
  obtain ⟨r', hr', hoperation, -⟩ := h.reservation hr hrecord
  simp only [settleCheck, hr', ok_bind, hoperation, item_eq_ok.mpr h.operation]
  exact if_pos hsame

/-- A repeated indeterminate settlement that was stored as another one is refused. -/
theorem Stored.settleCheck_other (h : Stored L L' reservationId r record stored status)
    (hother : stored.toSettlementCommand ≠ s.toSettlementCommand)
    (hout : s.outcome = .indeterminate) : L'.settleCheck reservationId s =
      .error (.identityConflict "conflicting duplicate settlement") := by
  obtain ⟨r', hr', hoperation, -⟩ := h.reservation hr hrecord
  simp only [settleCheck, hr', ok_bind, hoperation, item_eq_ok.mpr h.operation]
  refine (if_neg hother).trans ?_
  rw [require_of_neg _ (fun hrec => hrec.2 hout), error_bind]

/-- A repeated settlement that was stored as indeterminate, because it does not fit,
is downgraded again. -/
theorem Stored.settleCheck_exceeding (h : Stored L L' reservationId r record stored .indeterminate)
    (hstored : stored.outcome = .indeterminate) (hout : s.outcome ≠ .indeterminate)
    (hvalid : validateSettlement r s = .ok ()) (hstatus : r.status = .reserved)
    (hfits : ∀ r', r' = r ∨ r' = r.withStatus .indeterminate →
      L'.settlementFitsReservation r' s.actual = .ok false) : L'.settleCheck reservationId s =
      .ok (.downgrade actualExceedsReservation.value) := by
  obtain ⟨r', hr', hoperation, hcases⟩ := h.reservation hr hrecord
  have hvalid' : validateSettlement r' s = .ok () := by
    rcases hcases with rfl | rfl <;> exact hvalid
  have hopen : r'.status = .reserved ∨ r'.status = .indeterminate := by
    rcases hcases with rfl | rfl
    · exact .inl hstatus
    · exact .inr rfl
  have hother : stored.toSettlementCommand ≠ s.toSettlementCommand := by
    intro heq
    exact hout ((congrArg SettlementCommand.outcome heq).symm.trans hstored)
  simp only [settleCheck, hr', ok_bind, hoperation, item_eq_ok.mpr h.operation]
  refine (if_neg hother).trans ?_
  rw [check_of_pos ⟨hstored, hout⟩, hvalid', ok_bind, check_of_pos hopen,
    settleRest, if_neg hout, hfits r' hcases, ok_bind, if_pos rfl]

/-- The downgrade of a repeated settlement finds the stored one. -/
theorem Stored.markIndeterminateCheck_same
    (h : Stored L L' reservationId r record stored .indeterminate)
    {op : String} {code : RequiredText}
    (hop : op = r.operationId.val) (hcode : requiredText reason "reason" = .ok code)
    (hstored : stored.outcome = .indeterminate) (hreason : stored.reasonCode = some code) :
    L'.markIndeterminateCheck sha256 reservationId op reason (some stored.settledEventId.val) =
      .ok (.recorded stored) := by
  obtain ⟨r', hr', hoperation, -⟩ := h.reservation hr hrecord
  simp only [markIndeterminateCheck, hr', ok_bind, hoperation, item_eq_ok.mpr h.operation,
    require_of_pos _ hop, hcode]
  show (require (stored.outcome = .indeterminate ∧ stored.reasonCode = some code ∧
    ∀ text ∈ some stored.settledEventId.val, text = stored.settledEventId.val) _ >>= _) = _
  have hevent : ∀ text ∈ some stored.settledEventId.val, text = stored.settledEventId.val :=
    fun text htext => (Option.some.inj htext).symm
  rw [check_of_pos ⟨hstored, hreason, hevent⟩]

end SecondCall

/-! ## The first call -/

section FirstCall

variable {reservationId : String} {s : BudgetSettlement}

/-- Why `settle` hands a settlement to `mark_indeterminate`. -/
inductive Downgraded (L : BudgetLedger) (s : BudgetSettlement) (r : BudgetReservation)
    (record : BudgetOperationRecord) : String → Prop where
  | asked (outcome : s.outcome = .indeterminate) (unsettled : record.settlement = none) :
      Downgraded L s r record ((s.reasonCode.map RequiredText.val).getD
        dispatchIndeterminate.value)
  | exceeding (outcome : s.outcome ≠ .indeterminate)
      (fits : L.settlementFitsReservation r s.actual = .ok false) :
      Downgraded L s r record actualExceedsReservation.value

/-- When `settle` downgrades, it has validated the settlement. -/
theorem of_settleCheck_downgrade (h : L.settleCheck reservationId s = .ok (.downgrade reason)) :
    ∃ r record, L.reservationOrRecorded reservationId = .ok r ∧
      L.operations.get? r.operationId = some record ∧ validateSettlement r s = .ok () ∧
      Downgraded L s r record reason := by
  simp only [settleCheck, bind_eq_ok, item_eq_ok] at h
  obtain ⟨r, hr, record, hrecord, h⟩ := h
  have hrest : validateSettlement r s = .ok () ∧
      (s.outcome = .indeterminate → record.settlement = none) ∧
      L.settleRest r record s = .ok (.downgrade reason) := by
    cases hset : record.settlement with
    | none =>
      rw [hset] at h
      simp only [check_bind_eq_ok, require_eq_ok] at h
      obtain ⟨hvalid, -, h⟩ := h
      exact ⟨hvalid, fun _ => rfl, h⟩
    | some settled =>
      rw [hset] at h
      simp only at h
      split at h
      · simp at h
      · simp only [check_bind_eq_ok, require_eq_ok] at h
        obtain ⟨hout, hvalid, -, h⟩ := h
        exact ⟨hvalid, fun hind => absurd hind hout.2, h⟩
  obtain ⟨hvalid, hunsettled, h⟩ := hrest
  refine ⟨r, record, hr, hrecord, hvalid, ?_⟩
  unfold settleRest at h
  split at h
  · rename_i hout
    obtain rfl := SettlePlan.downgrade.inj (ok_inj h)
    exact .asked hout (hunsettled hout)
  · rename_i hout
    simp only [bind_eq_ok] at h
    obtain ⟨fits, hfits, h⟩ := h
    split at h
    · rename_i hfalse
      obtain rfl := SettlePlan.downgrade.inj (ok_inj h)
      rw [hfalse] at hfits
      exact .exceeding hout hfits
    · simp [bind_eq_ok] at h

/-- When `settle` commits, the settlement is not an indeterminate one. -/
theorem of_settleCheck_settled {r : BudgetReservation} {record : BudgetOperationRecord}
    {s' : BudgetSettlement} {e : BudgetEvent} {text : String}
    (h : L.settleCheck reservationId s = .ok (.commit r record s' e text)) :
    L.reservationOrRecorded reservationId = .ok r ∧
      L.operations.get? r.operationId = some record ∧ s.outcome ≠ .indeterminate ∧ s' = s := by
  simp only [settleCheck, bind_eq_ok, item_eq_ok] at h
  obtain ⟨r₀, hr, record₀, hrecord, h⟩ := h
  have hrest : L.settleRest r₀ record₀ s = .ok (.commit r record s' e text) := by
    split at h
    · split at h
      · simp at h
      · simp only [check_bind_eq_ok] at h
        exact h.2.2.2
    · simp only [check_bind_eq_ok] at h
      exact h.2.2
  unfold settleRest at hrest
  split at hrest
  · simp at hrest
  · rename_i hout
    simp only [bind_eq_ok] at hrest
    obtain ⟨fits, -, hrest⟩ := hrest
    split at hrest
    · simp at hrest
    · simp only [bind_eq_ok] at hrest
      obtain ⟨event, -, hrest⟩ := hrest
      obtain ⟨rfl, rfl, rfl, -, -⟩ := SettlePlan.commit.inj (ok_inj hrest)
      exact ⟨hr, hrecord, hout, rfl⟩

/-- When `settle` answers from the record, a settlement is recorded. -/
theorem of_settleCheck_recorded (h : L.settleCheck reservationId s = .ok (.recorded settled)) :
    ∃ r record, L.reservationOrRecorded reservationId = .ok r ∧
      L.operations.get? r.operationId = some record ∧ record.settlement = some settled := by
  simp only [settleCheck, bind_eq_ok, item_eq_ok] at h
  obtain ⟨r, hr, record, hrecord, h⟩ := h
  have hrest : L.settleRest r record s ≠ .ok (.recorded settled) := by
    intro hrest
    unfold settleRest at hrest
    split at hrest
    · simp at hrest
    · simp only [bind_eq_ok] at hrest
      obtain ⟨fits, -, hrest⟩ := hrest
      split at hrest <;> simp [bind_eq_ok] at hrest
  refine ⟨r, record, hr, hrecord, ?_⟩
  split at h
  · rename_i settled' hset
    split at h
    · rw [hset, SettlePlan.recorded.inj (ok_inj h)]
    · simp only [check_bind_eq_ok] at h
      exact absurd h.2.2.2 hrest
  · simp only [check_bind_eq_ok] at h
    exact absurd h.2.2 hrest

/-- When `mark_indeterminate` answers from the record, a settlement is recorded. -/
theorem of_markIndeterminateCheck_recorded {op : String} {eventId : Option String}
    (h : L.markIndeterminateCheck sha256 reservationId op reason eventId = .ok (.recorded settled)) :
    ∃ r record, L.reservationOrRecorded reservationId = .ok r ∧
      L.operations.get? r.operationId = some record ∧ record.settlement = some settled := by
  simp only [markIndeterminateCheck, bind_eq_ok, item_eq_ok] at h
  obtain ⟨r, hr, record, hrecord, _, -, code, -, h⟩ := h
  refine ⟨r, record, hr, hrecord, ?_⟩
  split at h
  · rename_i settled' hset
    simp only [bind_eq_ok] at h
    obtain ⟨_, -, h⟩ := h
    rw [hset, SettlePlan.recorded.inj (ok_inj h)]
  · simp [bind_eq_ok] at h

end FirstCall

/-! ## The answer of a repeated call -/

/-- The call asked again answers as the first one did, appends nothing and leaves the
ledger alone. -/
def RetryAnswers (sha256 : String → HexDigest) (sink : SinkReply) (reservationId : String)
    (s : BudgetSettlement) (first : CallResult BudgetSettlement) : Prop :=
  first.ledger.settle sha256 sink reservationId s = ⟨first.outcome, first.ledger, []⟩

theorem RetryAnswers.outcome {sink : SinkReply} {reservationId : String} {s : BudgetSettlement}
    (h : RetryAnswers sha256 sink reservationId s first) :
    (first.ledger.settle sha256 sink reservationId s).outcome = first.outcome := by
  rw [RetryAnswers] at h
  rw [h]

/-- A settlement that `mark_indeterminate` stores with the fields it came with. -/
structure StoredAsAsked (s : BudgetSettlement) : Prop where
  actual : s.actual = BudgetAmounts.zero
  dispatched : s.requestDispatched = true
  cacheHit : s.cacheHit = false
  reason : s.reasonCode ≠ none

/-- An indeterminate settlement of an operation that is not settled yet is stored as
it is asked. -/
def RetrySafe (L : BudgetLedger) (reservationId : String) (s : BudgetSettlement) : Prop :=
  s.outcome = .indeterminate → ∀ r record, L.reservationOrRecorded reservationId = .ok r →
    L.operations.get? r.operationId = some record → record.settlement = none → StoredAsAsked s

section Answers

variable {reservationId : String} {s : BudgetSettlement} {again : SinkReply}

variable {r : BudgetReservation}

variable {record : BudgetOperationRecord}

theorem retrySafe_of_recorded (hr : L.reservationOrRecorded reservationId = .ok r)
    (hrecord : L.operations.get? r.operationId = some record)
    (hset : record.settlement = some settled) : L.RetrySafe reservationId s := by
  intro _ r' record' hr' hrecord' hnone
  obtain rfl := ok_inj (hr.symm.trans hr')
  obtain rfl := Option.some.inj (hrecord.symm.trans hrecord')
  rw [hset] at hnone
  simp at hnone

/-- What `mark_indeterminate` stores has the command asked exactly when the condition
holds. -/
theorem closing_command_eq_iff {id : RequiredText} {code : RequiredText} {eventId : RequiredText}
    (hid : id = r.reservationId) (hvalid : validateSettlement r s = .ok ())
    (hout : s.outcome = .indeterminate)
    (hcode : requiredText ((s.reasonCode.map RequiredText.val).getD
      dispatchIndeterminate.value) "reason" = .ok code) :
    (closingSettlement id r true .indeterminate code eventId).toSettlementCommand =
      s.toSettlementCommand ↔ StoredAsAsked s := by
  simp only [validateSettlement, check_bind_eq_ok, require_eq_ok] at hvalid
  obtain ⟨hsid, hsop, hscope, hdigest, -⟩ := hvalid
  constructor
  · intro heq
    refine ⟨?_, ?_, ?_, ?_⟩
    · exact (congrArg SettlementCommand.actual heq).symm
    · exact (congrArg SettlementCommand.requestDispatched heq).symm
    · exact (congrArg SettlementCommand.cacheHit heq).symm
    · intro hnone
      have hreason : some code = s.reasonCode := congrArg SettlementCommand.reasonCode heq
      rw [hnone] at hreason
      simp at hreason
  · intro h
    obtain ⟨reason, hreason⟩ := Option.ne_none_iff_exists'.mp h.reason
    rw [hreason] at hcode
    obtain rfl : reason = code := by simpa using hcode
    cases s with
    | mk command event =>
      cases command
      simp only at hsid hsop hscope hdigest hout hreason
      obtain ⟨hactual, hdispatched, hhit, -⟩ := h
      simp only at hactual hdispatched hhit
      simp only [closingSettlement, hid, hsid, hsop, hscope, hdigest, hout, hreason, hactual,
        hdispatched, hhit]

variable {stored : BudgetSettlement}

/-- A second call whose checks find the answer in the record returns it. -/
theorem retryAnswers_of_recorded (houtcome : first.outcome = .ok stored)
    (hcheck : first.ledger.settleCheck reservationId s = .ok (.recorded stored)) :
    RetryAnswers sha256 again reservationId s first := by
  rw [RetryAnswers, settle, hcheck, houtcome]
  rfl

variable {sink : SinkReply}

theorem retryAnswers_returned (h : L.settle sha256 sink reservationId s = .returned stored L)
    (hagain : L.settle sha256 again reservationId s = L.settle sha256 sink reservationId s) :
    RetryAnswers sha256 again reservationId s (L.settle sha256 sink reservationId s) := by
  have hledger : (L.settle sha256 sink reservationId s).ledger = L := by rw [h]; rfl
  rw [RetryAnswers, hledger, hagain, h]
  rfl

variable {answer : BudgetSettlement}

/-- A committed settlement is recognised. -/
theorem retryAnswers_settled {s' : BudgetSettlement} {e : BudgetEvent} {text : String}
    (hcheck : L.settleCheck reservationId s = .ok (.commit r record s' e text))
    (houtcome : (L.settle sha256 sink reservationId s).outcome = .ok answer) :
    RetryAnswers sha256 again reservationId s (L.settle sha256 sink reservationId s) := by
  obtain ⟨hr, hrecord, -, rfl⟩ := of_settleCheck_settled hcheck
  have hsettle : L.settle sha256 sink reservationId s' =
      appendThen sink e (settleCommit reservationId r record s' e text) L := by
    rw [settle, hcheck]
  rw [hsettle] at houtcome ⊢
  obtain ⟨rfl, hstored⟩ := of_settleCommit (of_appendThen_ok houtcome)
  exact retryAnswers_of_recorded houtcome (hstored.settleCheck_same hr hrecord rfl)

/-- A settlement stored as indeterminate is recognised exactly when it does not fit or
was stored as it was asked. -/
theorem retryAnswers_downgraded {e : BudgetEvent} {text : String}
    (hcheck : L.settleCheck reservationId s = .ok (.downgrade reason))
    (hmark : L.markIndeterminateCheck sha256 reservationId s.operationId.val reason
      (some s.settledEventId.val) = .ok (.commit r record stored e text))
    (houtcome : (L.settle sha256 sink reservationId s).outcome = .ok answer) :
    RetryAnswers sha256 again reservationId s (L.settle sha256 sink reservationId s) ↔
      L.RetrySafe reservationId s := by
  obtain ⟨hr, hrecord, hop, hunsettled, hstatus, htext, code, id, terminal, hcode, -, hterminal,
    hstored, -, -⟩ := markIndeterminateCheck_eq_commit.mp hmark
  obtain ⟨r', record', hr', hrecord', hvalid, hdown⟩ := of_settleCheck_downgrade hcheck
  obtain rfl := ok_inj (hr.symm.trans hr')
  obtain rfl := Option.some.inj (hrecord.symm.trans hrecord')
  -- the event id of the caller is not empty, so it is the one stored
  obtain rfl : terminal = s.settledEventId := by
    have hsupplied : text = s.settledEventId.val := by
      rw [htext]
      exact if_neg s.settledEventId.nonempty
    rw [hsupplied, requiredText_val] at hterminal
    exact (ok_inj hterminal).symm
  have hsettle : L.settle sha256 sink reservationId s =
      appendThen sink e (markIndeterminateCommit reservationId r record stored e text) L := by
    rw [settle, hcheck]
    show L.markIndeterminate sha256 sink reservationId _ _ _ = _
    rw [markIndeterminate, hmark]
  rw [hsettle] at houtcome ⊢
  have hcommit := of_appendThen_ok houtcome
  generalize appendThen sink e (markIndeterminateCommit reservationId r record stored e text) L =
    first at houtcome hcommit ⊢
  obtain ⟨rfl, hwritten, hledger⟩ := of_closingAssignments hcommit
  have hind : answer.outcome = .indeterminate := by rw [hstored]; rfl
  cases hdown with
  | asked hout _ =>
    have hid : id = r.reservationId := by
      have := hwritten.reservationId_eq
      rwa [hstored] at this
    have hiff : answer.toSettlementCommand = s.toSettlementCommand ↔ StoredAsAsked s := by
      rw [hstored]
      exact closing_command_eq_iff hid hvalid hout hcode
    constructor
    · intro hretry _ _ _ _ _ _
      by_contra hother
      rw [RetryAnswers, settle,
        hwritten.settleCheck_other hr hrecord (fun heq => hother (hiff.mp heq)) hout] at hretry
      have hraised := congrArg CallResult.outcome hretry
      rw [houtcome] at hraised
      simp [raised] at hraised
    · intro hsafe
      have hsame := hiff.mpr (hsafe hout r record hr hrecord hunsettled)
      exact retryAnswers_of_recorded houtcome (hwritten.settleCheck_same hr hrecord hsame)
  | exceeding hout hfits =>
    refine iff_of_true ?_ (fun h => absurd h hout)
    have hfits' : ∀ r', r' = r ∨ r' = r.withStatus .indeterminate →
        first.ledger.settlementFitsReservation r' s.actual = .ok false := by
      rw [hledger]
      rintro r' (rfl | rfl)
      · exact hfits
      · exact hfits
    have hevent : answer.settledEventId = s.settledEventId := by rw [hstored]; rfl
    have hreason : answer.reasonCode = some code := by rw [hstored]; rfl
    rw [RetryAnswers, settle, hwritten.settleCheck_exceeding hr hrecord hind hout hvalid hstatus
      hfits', houtcome]
    show first.ledger.markIndeterminate sha256 again reservationId _ _ _ = _
    rw [markIndeterminate, ← hevent,
      hwritten.markIndeterminateCheck_same hr hrecord hop hcode hind hreason]
    rfl

end Answers

end BudgetLedger

/-! ## A lost answer -/

namespace Sample

open BudgetLedger

/-- The ledger of the run with one open reservation. -/
def openLedger : BudgetLedger :=
  (runSteps sha256 [⟨.reserve scope oneCall "op-1" "key-1" none (some 0), .absent, 0⟩] ledger).1

/-- The indeterminate settlement of the reservation with the given reason. -/
def lost (reason : Option RequiredText) : BudgetSettlement where
  reservationId := reservationIdOf sha256 (text "op-1") (text "key-1")
  operationId := text "op-1"
  scope := scope
  policyDigest := policy.digest sha256
  actual := BudgetAmounts.zero
  requestDispatched := true
  cacheHit := false
  outcome := .indeterminate
  reasonCode := reason
  settledEventId := text "event-1"

end Sample

end Budget
