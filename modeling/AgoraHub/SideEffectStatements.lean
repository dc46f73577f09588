/-
# Tables of consistent records

The tables of consistent records are searched like the records, and a statement that passes its
constraints writes the image of the changed records.
-/
import AgoraHub.SideEffectWritten

open Fallible

namespace HarnessSideEffects

open List Written EffectIdentity

open InMemoryHarnessSideEffectStore (Follows)

namespace SQLiteHarnessSideEffectStore

variable {Ref : Type} [DecidableEq Ref]

/-- The store whose tables are the image of records. -/
def ofWritten (digests : RecordDigests Ref) (count : Ref → ℕ) (written : Written Ref) :
    SQLiteHarnessSideEffectStore Ref where
  tables :=
    { decisions := written.decisions.map (decisionRow digests)
      attempts := written.decisions.map fun decision =>
        ledgerRow digests decision (count (decisionKey digests decision))
      attemptLeases := written.attemptLeases.map (attemptRow digests)
      outcomes := written.outcomes.map (outcomeRow digests) }
  written := written

variable {digests : RecordDigests Ref} {count : Ref → ℕ} {written : Written Ref}
variable (h : written.Consistent digests count)

/-! ## Lookups -/

theorem uniqueRows_of_nodup {α : Type} {key : α → Ref} {rows : List α} (hkeys : (rows.map key).Nodup) :
    uniqueRows key rows = rows := by
  unfold uniqueRows
  rw [PyDict.ofItems_eq_map hkeys]
  unfold PyDict.values
  rw [map_map]
  exact map_id rows

include h

/-- The decision of a reference. -/
theorem decisionOf_ofWritten (ref : Ref) (missing : SideEffectError) :
    (ofWritten digests count written).decisionOf digests ref missing =
      orRaise (written.decisions.find? fun decision => digests.decisionChecksum decision = ref)
        missing := by
  unfold decisionOf
  show (orRaise ((written.decisions.map (decisionRow digests)).find? _) missing >>= _) = _
  rw [List.find?_map]
  show (orRaise ((written.decisions.find? fun decision =>
    decide (digests.decisionChecksum decision = ref)).map (decisionRow digests)) missing >>= _) = _
  cases hfind : written.decisions.find? fun decision =>
      decide (digests.decisionChecksum decision = ref) with
  | none => rfl
  | some decision =>
    exact decisionFromRow_decisionRow (h.decided.readable decision (mem_of_find?_eq_some hfind))

variable {decision : HarnessSideEffectDecision Ref}

/-- A decision of the records is found under its reference. -/
theorem find?_decision {ref : Ref} :
    (written.decisions.find? fun decision => digests.decisionChecksum decision = ref)
        = some decision ↔ decision ∈ written.decisions ∧ digests.decisionChecksum decision = ref := by
  constructor
  · intro hfind
    have href := find?_some hfind
    exact ⟨mem_of_find?_eq_some hfind, by simpa using href⟩
  · rintro ⟨hmem, href⟩
    exact KeyedList.find?_of_unique hmem (decide_eq_true href) fun _ hother hsame =>
      h.decided.eq_of_ref hother hmem ((of_decide_eq_true hsame).trans href.symm)

/-- A decision is the stored one exactly when it is among the records. -/
theorem assertCommitted_ofWritten (decision : HarnessSideEffectDecision Ref) :
    (ofWritten digests count written).assertCommitted digests decision =
      require (decision ∈ written.decisions)
        (.plain "handler attempt requires the exact durable authorization") := by
  show ((ofWritten digests count written).decisionOf digests _ _ >>= fun stored =>
    require (stored = decision) _) = _
  rw [decisionOf_ofWritten h]
  cases hfind : written.decisions.find? fun other =>
      decide (digests.decisionChecksum other = digests.decisionChecksum decision) with
  | none =>
    rw [require_of_neg]
    · rfl
    · intro hmem
      rw [find?_eq_none] at hfind
      exact hfind decision hmem (decide_eq_true rfl)
  | some other =>
    show (require (other = decision) _) = _
    obtain ⟨hmem, href⟩ := (find?_decision h).mp hfind
    by_cases he : other = decision
    · rw [require_of_pos _ he, require_of_pos _ (he ▸ hmem)]
    · rw [require_of_neg _ he, require_of_neg]
      intro hmem'
      exact he (h.decided.eq_of_ref hmem hmem' href)

/-- The ledger of a decision is the row of the identity of its effect. -/
theorem find?_ledger (hmem : decision ∈ written.decisions) :
    (ofWritten digests count written).tables.attempts.find? (fun row =>
        decide (row.effectId = decisionKey digests decision))
      = some (ledgerRow digests decision (count (decisionKey digests decision))) := by
  show (written.decisions.map _).find? _ = _
  rw [List.find?_map]
  exact congrArg (Option.map _) (KeyedList.find?_of_unique hmem (decide_eq_true rfl)
    fun _ hother hkey => h.decided.eq_of_key hother hmem (of_decide_eq_true hkey))

theorem assertLedgerMatchesDecision_ledgerRow (hmem : decision ∈ written.decisions) :
    assertLedgerMatchesDecision digests
      (ledgerRow digests decision (count (decisionKey digests decision))) decision = .ok () := by
  unfold assertLedgerMatchesDecision
  rw [check_of_pos ⟨rfl, rfl, rfl, rfl, rfl⟩]
  exact require_of_pos _ (h.decided.limited decision hmem)

theorem assertAttemptLedger_ofWritten (hmem : decision ∈ written.decisions) :
    (ofWritten digests count written).assertAttemptLedger digests decision =
      .ok (ledgerRow digests decision (count (decisionKey digests decision))) := by
  unfold assertAttemptLedger
  show (orRaise (List.find? (fun row : LedgerRow Ref =>
    decide (row.effectId = decisionKey digests decision)) _) _ >>= _) = _
  rw [find?_ledger h hmem, orRaise_some, ok_bind, assertLedgerMatchesDecision_ledgerRow h hmem]
  rfl

variable {outcome : HarnessSideEffectOutcome Ref Metadata}

/-- An outcome is authorized exactly by a decision of the records. -/
theorem assertOutcomeAuthorized_eq_ok {u : Unit} :
    (ofWritten digests count written).assertOutcomeAuthorized digests outcome = .ok u ↔
      ∃ decision ∈ written.decisions, OutcomeOf digests outcome decision := by
  unfold assertOutcomeAuthorized
  rw [decisionOf_ofWritten h, bind_eq_ok]
  constructor
  · rintro ⟨decision, hfind, hmatches⟩
    obtain ⟨hmem, -⟩ := (find?_decision h).mp (orRaise_eq_ok.mp hfind)
    exact ⟨decision, hmem, (assertOutcomeMatchesDecision_eq_ok digests).mp hmatches⟩
  · rintro ⟨decision, hmem, hof⟩
    exact ⟨decision, orRaise_eq_ok.mpr ((find?_decision h).mpr ⟨hmem, hof.1.symm⟩),
      (assertOutcomeMatchesDecision_eq_ok digests).mpr hof⟩

/-- The outcomes that share a key with an outcome. -/
theorem existingOutcome_ofWritten (outcome : HarnessSideEffectOutcome Ref Metadata) :
    (ofWritten digests count written).existingOutcome digests outcome =
      (require (∀ candidate ∈ written.outcomes,
        (digests.outcomeChecksum candidate = digests.outcomeChecksum outcome ∨
          candidate.outcomeId = outcome.outcomeId ∨
          outcomeKey digests candidate = outcomeKey digests outcome ∨
          candidate.idempotencyKey = outcome.idempotencyKey) → candidate = outcome)
        (.plain "side-effect outcome identity is immutable") >>= fun _ =>
          pure (if outcome ∈ written.outcomes then some outcome else none)) := by
  set shares : HarnessSideEffectOutcome Ref Metadata → Prop := fun candidate =>
    digests.outcomeChecksum candidate = digests.outcomeChecksum outcome ∨
      candidate.outcomeId = outcome.outcomeId ∨
      outcomeKey digests candidate = outcomeKey digests outcome ∨
      candidate.idempotencyKey = outcome.idempotencyKey with hshares
  have hrows : uniqueRows (·.outcomeRef) ((ofWritten digests count written).tables.outcomes.filter
      fun row => row.outcomeRef = digests.outcomeChecksum outcome ∨
        row.outcomeId = outcome.outcomeId ∨
        row.effectId = digests.identityKey outcome.toEffectIdentity ∨
        row.idempotencyKey = outcome.idempotencyKey)
      = (written.outcomes.filter fun candidate => shares candidate).map (outcomeRow digests) := by
    show uniqueRows _ ((written.outcomes.map (outcomeRow digests)).filter _) = _
    rw [filter_map, uniqueRows_of_nodup]
    · rfl
    · rw [map_map]
      exact h.recorded.refs.sublist (List.Sublist.map _ filter_sublist)
  have hread : ((written.outcomes.filter fun candidate => shares candidate).map
      (outcomeRow digests)).mapM (outcomeFromRow digests)
      = .ok (written.outcomes.filter fun candidate => shares candidate) :=
    mapM_map_eq_ok fun candidate hmem =>
      outcomeFromRow_outcomeRow (h.recorded.readable candidate (mem_filter.mp hmem).1)
  show (List.mapM (outcomeFromRow digests) (uniqueRows _ _) >>= fun existing =>
    require (∀ candidate ∈ existing, candidate = outcome) _ >>= fun _ => pure existing.head?) = _
  rw [hrows, hread, ok_bind]
  have hiff : (∀ candidate ∈ written.outcomes.filter fun candidate => decide (shares candidate),
      candidate = outcome) ↔ ∀ candidate ∈ written.outcomes, shares candidate → candidate = outcome := by
    constructor
    · intro hall candidate hmem hshare
      exact hall candidate (mem_filter.mpr ⟨hmem, decide_eq_true hshare⟩)
    · intro hall candidate hmem
      obtain ⟨hmem, hshare⟩ := mem_filter.mp hmem
      exact hall candidate hmem (of_decide_eq_true hshare)
  by_cases hall : ∀ candidate ∈ written.outcomes, shares candidate → candidate = outcome
  · rw [require_of_pos _ (hiff.mpr hall), check_of_pos hall, ok_bind]
    congr 1
    by_cases hmem : outcome ∈ written.outcomes
    · rw [if_pos hmem]
      have hself : outcome ∈ written.outcomes.filter fun candidate => decide (shares candidate) :=
        mem_filter.mpr ⟨hmem, decide_eq_true (Or.inl rfl)⟩
      cases hlist : written.outcomes.filter fun candidate => decide (shares candidate) with
      | nil => rw [hlist] at hself; cases hself
      | cons first rest =>
        rw [hlist] at hiff
        rw [head?_cons, hiff.mpr hall first mem_cons_self]
    · rw [if_neg hmem]
      cases hlist : written.outcomes.filter fun candidate => decide (shares candidate) with
      | nil => rfl
      | cons first rest =>
        have hfirst : first ∈ written.outcomes.filter fun candidate => decide (shares candidate) := by
          rw [hlist]
          exact mem_cons_self
        rw [hlist] at hiff
        have he := hiff.mpr hall first mem_cons_self
        exact absurd (he ▸ (mem_filter.mp hfirst).1) hmem
  · rw [require_of_neg _ (fun hc => hall (hiff.mp hc)), require_of_neg _ hall]
    rfl

/-- The latest lease of an effect. -/
theorem latestAttempt_ofWritten (key : Ref) :
    (ofWritten digests count written).latestAttempt digests key =
      .ok (written.latest digests key) := by
  have hmax : ((ofWritten digests count written).tables.attemptLeases.filter fun row =>
      decide (row.effectId = key)).argmax (·.fencingGeneration)
      = (written.latest digests key).map (attemptRow digests) := by
    show ((written.attemptLeases.map (attemptRow digests)).filter _).argmax _ = _
    rw [filter_map]
    exact KeyedList.argmax_map fun _ _ => rfl
  unfold latestAttempt
  rw [hmax]
  cases hlatest : written.latest digests key with
  | none => rfl
  | some attempt =>
    show (attemptFromRow digests (attemptRow digests attempt)).map some = _
    rw [attemptFromRow_attemptRow (h.attempted.readable attempt (of_latest hlatest).1)]
    rfl

/-- The attempt of a call is the latest one, in the generation of the call. -/
theorem assertCurrentAttempt_ofWritten (attempt : HarnessSideEffectAttemptLease Ref) :
    (ofWritten digests count written).assertCurrentAttempt digests attempt =
      (orRaise (written.latest digests (attemptKey digests attempt))
        (.attemptError "stale_side_effect_attempt"
          "side-effect attempt no longer owns the current fence") >>= fun current =>
        require (SameAttemptGeneration current attempt)
          (.attemptError "stale_side_effect_attempt"
            "side-effect attempt no longer owns the current fence") >>= fun _ => pure current) := by
  unfold assertCurrentAttempt
  rw [latestAttempt_ofWritten h]
  rfl

theorem assertCurrentAttempt_eq_ok {attempt current : HarnessSideEffectAttemptLease Ref} :
    (ofWritten digests count written).assertCurrentAttempt digests attempt = .ok current ↔
      written.latest digests (attemptKey digests attempt) = some current ∧
        SameAttemptGeneration current attempt := by
  rw [assertCurrentAttempt_ofWritten h, bind_eq_ok]
  constructor
  · rintro ⟨stored, hlatest, hrest⟩
    obtain ⟨hsame, hpure⟩ := check_inv hrest
    cases hpure
    exact ⟨orRaise_eq_ok.mp hlatest, of_require hsame⟩
  · rintro ⟨hlatest, hsame⟩
    exact ⟨current, orRaise_eq_ok.mpr hlatest, by rw [require_of_pos _ hsame]; rfl⟩

omit h [DecidableEq Ref] in
/-- An effect is fenced when there is an attempt at it. -/
theorem isFenced_ofWritten {key : Ref} : (ofWritten digests count written).IsFenced key ↔
      ∃ attempt ∈ written.attemptLeases, attemptKey digests attempt = key := by
  unfold IsFenced
  constructor
  · rintro ⟨row, hrow, rfl⟩
    obtain ⟨attempt, hattempt, rfl⟩ := mem_map.mp hrow
    exact ⟨attempt, hattempt, rfl⟩
  · rintro ⟨attempt, hattempt, rfl⟩
    exact ⟨attemptRow digests attempt, mem_map_of_mem hattempt, rfl⟩

/-! ## Statements about decisions -/

section Selected

variable {α ρ : Type} [DecidableEq α] {xs : List α} {row row' : α → ρ} {a : α} {selects : ρ → Bool}
variable (hrow : ∀ x ∈ xs, selects (row x) = decide (x = a))

include hrow

omit h [DecidableEq Ref] in
/-- A statement that selects the row of one item changes one row. -/
theorem length_selected (hnodup : xs.Nodup) (ha : a ∈ xs) :
    ((xs.map row).filter selects).length = 1 := by
  have hsame : xs.filter (selects ∘ row) = xs.filter fun x => x == a :=
    filter_congr fun x hx => hrow x hx
  rw [filter_map, length_map, hsame, ← countP_eq_length_filter]
  exact count_eq_one_of_mem hnodup ha

omit h [DecidableEq Ref] in
theorem forall_selected {P : ρ → Prop} (ha : a ∈ xs) :
    (∀ r ∈ xs.map row, selects r = true → P r) ↔ P (row a) := by
  rw [forall_mem_map]
  constructor
  · intro hall
    exact hall a ha (by rw [hrow a ha, decide_eq_true rfl])
  · intro ha x hx hselected
    rw [hrow x hx, decide_eq_true_eq] at hselected
    rwa [hselected]

omit h [DecidableEq Ref] in
theorem map_selected {change : ρ → ρ} (ha : change (row a) = row' a)
    (hother : ∀ x ∈ xs, x ≠ a → row x = row' x) :
    (xs.map row).map (fun r => if selects r then change r else r) = xs.map row' := by
  rw [map_map]
  apply map_congr_left
  intro x hx
  show (if selects (row x) then change (row x) else row x) = row' x
  rw [hrow x hx]
  by_cases he : x = a
  · rw [if_pos (decide_eq_true he), he, ha]
  · rw [if_neg (by simpa using he), hother x hx he]

end Selected

/-- A decision that no other one shares a key with. -/
def FreshDecision (digests : RecordDigests Ref) (written : Written Ref)
    (decision : HarnessSideEffectDecision Ref) : Prop :=
  ∀ other ∈ written.decisions,
    digests.decisionChecksum other ≠ digests.decisionChecksum decision ∧
      other.decisionId ≠ decision.decisionId ∧
      decisionKey digests other ≠ decisionKey digests decision ∧
      other.idempotencyKey ≠ decision.idempotencyKey

variable {operation : String} {store' : SQLiteHarnessSideEffectStore Ref}

/-- The two statements of a new decision write its rows. -/
theorem insertDecision_eq_ok (hlimit : 1 ≤ decision.effectAttemptLimit) :
    ((ofWritten digests count written).insertDecision digests operation decision >>= fun store =>
        store.insertLedger digests operation decision) = .ok store' ↔
      (decision.commandOrdinal < 2 ^ 63 ∧ decision.effectAttemptLimit < 2 ^ 63) ∧
        FreshDecision digests written decision ∧
        store' = ofWritten digests count (written.addDecision decision) := by
  have hfresh : (∀ other ∈ (ofWritten digests count written).tables.decisions,
      other.decisionRef ≠ (decisionRow digests decision).decisionRef ∧
        other.decisionId ≠ (decisionRow digests decision).decisionId ∧
        other.effectId ≠ (decisionRow digests decision).effectId ∧
        other.idempotencyKey ≠ (decisionRow digests decision).idempotencyKey) ↔
      FreshDecision digests written decision := forall_mem_map
  unfold insertDecision insertLedger bindInteger
  simp only [bind_eq_ok, require_eq_ok, pure_eq_ok_iff, hfresh]
  constructor
  · rintro ⟨_, ⟨_, hordinal, _, hnew, rfl⟩, _, hbound, _, -, _, -, rfl⟩
    refine ⟨⟨hordinal, hbound⟩, hnew, ?_⟩
    have hzero := h.decided.count_eq_zero fun other hother => (hnew other hother).2.2.1
    unfold ofWritten addDecision
    simp only [map_append, map_cons, map_nil, hzero]
  · rintro ⟨⟨hordinal, hbound⟩, hnew, rfl⟩
    have hzero := h.decided.count_eq_zero fun other hother => (hnew other hother).2.2.1
    refine ⟨_, ⟨(), hordinal, (), hnew, rfl⟩, (), hbound, (), ?_, (), ⟨hlimit, ?_⟩, ?_⟩
    · exact ⟨decisionRow digests decision, mem_append_right _ mem_cons_self, rfl, rfl, rfl, rfl⟩
    · intro other hother
      obtain ⟨stored, hstored, rfl⟩ := mem_map.mp hother
      exact ⟨(hnew stored hstored).2.2.1, (hnew stored hstored).1⟩
    · unfold ofWritten addDecision
      simp only [map_append, map_cons, map_nil, hzero]

/-- Advancing the ledger of a decision. -/
theorem advanceAttemptLedger_eq_ok (hmem : decision ∈ written.decisions) {next : ℕ} :
    (ofWritten digests count written).advanceAttemptLedger digests operation decision
        (count (decisionKey digests decision)) next = .ok store' ↔
      next < 2 ^ 63 ∧ next ≤ decision.effectAttemptLimit ∧
        store' = ofWritten digests (Function.update count (decisionKey digests decision) next)
          written := by
  set counted : LedgerRow Ref → Bool := fun row =>
    row.effectId = digests.identityKey decision.toEffectIdentity ∧
      row.decisionRef = digests.decisionChecksum decision ∧
      row.attemptCount = count (decisionKey digests decision) with hcounted
  -- the statement meets the row of the decision and no other
  have hrow : ∀ other ∈ written.decisions,
      counted (ledgerRow digests other (count (decisionKey digests other))) =
        decide (other = decision) := by
    intro other hother
    by_cases he : other = decision
    · rw [he, decide_eq_true rfl]
      exact decide_eq_true ⟨rfl, rfl, rfl⟩
    · rw [decide_eq_false he]
      exact decide_eq_false fun hc => he (h.decided.eq_of_key hother hmem hc.1)
  set rows : List (LedgerRow Ref) := written.decisions.map fun other =>
    ledgerRow digests other (count (decisionKey digests other)) with hrows
  have hfilter : (rows.filter counted).length = 1 :=
    length_selected hrow (List.Nodup.of_map _ h.decided.refs) hmem
  have hupdate : rows.map (fun row =>
        if counted row then { row with attemptCount := next } else row)
      = written.decisions.map fun other => ledgerRow digests other
        (Function.update count (decisionKey digests decision) next (decisionKey digests other)) := by
    refine map_selected hrow ?_ fun other hother he => ?_
    · rw [Function.update_self]
      rfl
    · rw [Function.update_of_ne]
      exact fun hkey => he (h.decided.eq_of_key hother hmem hkey)
  have hwithin : (∀ row ∈ rows, counted row = true → next ≤ row.attemptLimit) ↔
      next ≤ decision.effectAttemptLimit := forall_selected hrow hmem
  show (bindInteger next >>= fun _ => require (∀ row ∈ rows, counted row = true →
    next ≤ row.attemptLimit) _ >>= fun _ => require ((rows.filter counted).length = 1) _ >>=
      fun _ => pure _) = _ ↔ _
  unfold bindInteger
  simp only [check_bind_eq_ok, require_eq_ok, pure_eq_ok_iff, hfilter, true_and, hwithin]
  refine and_congr_right fun _ => and_congr_right fun _ => ?_
  constructor
  · rintro rfl
    unfold ofWritten
    rw [hupdate]
  · rintro rfl
    unfold ofWritten
    rw [hupdate]

/-! ## Statements about attempts -/

omit h [DecidableEq Ref] in
/-- The constraints of a lease that is accepted. -/
theorem valid_attemptRow {attempt : HarnessSideEffectAttemptLease Ref} (hchecked : attempt.Checked) :
    (attemptRow digests attempt).Valid ↔
      1 ≤ sqlLength attempt.leaseId ∧ 1 ≤ sqlLength attempt.ownerId := by
  constructor
  · rintro ⟨hlease, howner, -⟩
    exact ⟨hlease, howner⟩
  · rintro ⟨hlease, howner⟩
    have hpositive : 1 ≤ attempt.fencingGeneration := hchecked.attempt_eq ▸ hchecked.positive
    refine ⟨hlease, howner, hchecked.positive, hpositive, hchecked.attempt_eq, ?_, ?_⟩
    · show (attempt.status = _ ∧ _ ∧ attempt.resolvedAt.isNone) ∨ _ ∨ _
      cases hstatus : attempt.status with
      | active =>
        obtain ⟨hconfirmed, hresolved, -⟩ := hchecked.active hstatus
        exact Or.inl ⟨rfl, hconfirmed, by rw [hresolved]; rfl⟩
      | terminated =>
        obtain ⟨hresolved, hconfirmed, -⟩ := hchecked.closed (by simp [hstatus])
        exact Or.inr (Or.inl ⟨hstatus, hconfirmed.mp hstatus,
          Option.isSome_iff_ne_none.mpr hresolved⟩)
      | indeterminate =>
        obtain ⟨hresolved, hconfirmed, -⟩ := hchecked.closed (by simp [hstatus])
        refine Or.inr (Or.inr ⟨hstatus, ?_, Option.isSome_iff_ne_none.mpr hresolved⟩)
        show attempt.terminationConfirmed = false
        rw [Bool.eq_false_iff]
        intro hc
        rw [hconfirmed.mpr hc] at hstatus
        cases hstatus
    · show attempt.status = _ ∨ attempt.outcomeRef.isNone
      cases hstatus : attempt.status with
      | active => exact Or.inr (by rw [(hchecked.active hstatus).2.2]; rfl)
      | terminated => exact Or.inl rfl
      | indeterminate =>
        right
        rw [Option.isNone_iff_eq_none]
        by_contra href
        exact (hchecked.closed (by simp [hstatus])).2.2 ⟨hstatus, href⟩

omit h in
theorem not_overlaps_of_terminated {row : AttemptRow Ref}
    {attempt : HarnessSideEffectAttemptLease Ref} (hterminated : attempt.status = .terminated) :
    ¬ row.Overlaps (attemptRow digests attempt) := by
  rintro ⟨-, -, hopen⟩
  have hopen : attempt.status = .active ∨ attempt.status = .indeterminate := hopen
  rw [hterminated] at hopen
  rcases hopen with hopen | hopen <;> cases hopen

omit h [DecidableEq Ref] in
/-- A decision of the records can be referred to. -/
theorem hasDecision_of_attemptOf {attempt : HarnessSideEffectAttemptLease Ref}
    {decision : HarnessSideEffectDecision Ref} (hmem : decision ∈ written.decisions)
    (hof : AttemptOf digests attempt decision) :
    (ofWritten digests count written).HasDecision (attemptKey digests attempt) attempt.decisionRef
      attempt.identityScopeRef attempt.subjectScopeRef attempt.idempotencyKey := by
  refine ⟨decisionRow digests decision, mem_map_of_mem hmem, ?_, hof.2.1.symm, ?_, ?_, hof.2.2.symm⟩
  · exact congrArg digests.identityKey hof.1.symm
  · exact congrArg identityScopeRef hof.1.symm
  · exact congrArg subjectScopeRef hof.1.symm

omit h in
/-- Writing the lease of a next attempt. -/
theorem insertAttempt_eq_ok {attempt : HarnessSideEffectAttemptLease Ref}
    {decision : HarnessSideEffectDecision Ref} (hmem : decision ∈ written.decisions)
    (hof : AttemptOf digests attempt decision) (hchecked : attempt.Checked)
    (hearlier : ∀ other ∈ written.attemptLeases, other.Readable ∧
      (attemptKey digests other = attemptKey digests attempt →
        other.fencingGeneration < attempt.fencingGeneration ∧ other.status = .terminated)) :
    (ofWritten digests count written).insertAttempt digests operation attempt = .ok store' ↔
      (attempt.fencingGeneration < 2 ^ 63 ∧
        1 ≤ sqlLength attempt.leaseId ∧ 1 ≤ sqlLength attempt.ownerId) ∧
        (∀ other ∈ written.attemptLeases,
          other.attemptId ≠ attempt.attemptId ∧ other.leaseId ≠ attempt.leaseId) ∧
        store' = ofWritten digests count (written.addAttempt attempt) := by
  have hfresh : (∀ other ∈ (ofWritten digests count written).tables.attemptLeases,
      other.attemptId ≠ (attemptRow digests attempt).attemptId ∧
        other.leaseId ≠ (attemptRow digests attempt).leaseId ∧
        ¬ (other.effectId = (attemptRow digests attempt).effectId ∧
          other.attempt = (attemptRow digests attempt).attempt) ∧
        ¬ (other.effectId = (attemptRow digests attempt).effectId ∧
          other.fencingGeneration = (attemptRow digests attempt).fencingGeneration) ∧
        ¬ (attemptRow digests attempt).Overlaps other) ↔
      ∀ other ∈ written.attemptLeases,
        other.attemptId ≠ attempt.attemptId ∧ other.leaseId ≠ attempt.leaseId := by
    show (∀ other ∈ written.attemptLeases.map (attemptRow digests), _) ↔ _
    rw [forall_mem_map]
    refine forall₂_congr fun other hother => ?_
    constructor
    · rintro ⟨hid, hlease, -⟩
      exact ⟨hid, hlease⟩
    · rintro ⟨hid, hlease⟩
      obtain ⟨hread, hbefore⟩ := hearlier other hother
      refine ⟨hid, hlease, ?_, ?_, ?_⟩
      -- the numbers of an effect increase, and its earlier attempts are terminated
      · rintro ⟨hkey, he⟩
        have he : other.attempt = attempt.attempt := he
        have hlt := (hbefore hkey).1
        rw [← hread.checked.attempt_eq, ← hchecked.attempt_eq] at hlt
        omega
      · rintro ⟨hkey, he⟩
        have he : other.fencingGeneration = attempt.fencingGeneration := he
        have hlt := (hbefore hkey).1
        omega
      · intro hoverlap
        exact not_overlaps_of_terminated (hbefore hoverlap.1.symm).2 hoverlap
  unfold insertAttempt bindInteger
  simp only [check_bind_eq_ok, require_eq_ok, pure_eq_ok_iff, hfresh, valid_attemptRow hchecked,
    hchecked.attempt_eq]
  have hstored : ({ ofWritten digests count written with
      tables.attemptLeases := (ofWritten digests count written).tables.attemptLeases
        ++ [attemptRow digests attempt]
      written.attemptLeases := (ofWritten digests count written).written.attemptLeases
        ++ [attempt] } : SQLiteHarnessSideEffectStore Ref)
      = ofWritten digests count (written.addAttempt attempt) := by
    unfold ofWritten addAttempt
    simp only [map_append, map_cons, map_nil]
  rw [hstored]
  constructor
  · rintro ⟨hbound, -, htexts, hnew, -, rfl⟩
    exact ⟨⟨hbound, htexts⟩, hnew, rfl⟩
  · rintro ⟨⟨hbound, htexts⟩, hnew, rfl⟩
    exact ⟨hbound, hbound, htexts, hnew, hasDecision_of_attemptOf hmem hof, rfl⟩

omit h in
/-- Writing a later version of an attempt. -/
theorem updateAttempt_eq_ok (ha : written.Attempted digests count)
    {current next : HarnessSideEffectAttemptLease Ref} (hf : Follows current next)
    (hmem : current ∈ written.attemptLeases) :
    (ofWritten digests count written).updateAttempt digests operation next = .ok store' ↔
      (1 ≤ sqlLength current.leaseId ∧ 1 ≤ sqlLength current.ownerId) ∧
        store' = ofWritten digests count (written.replaceAttempt next) := by
  have hkey : attemptKey digests next = attemptKey digests current :=
    congrArg digests.identityKey hf.same.2.2.2.1.symm
  set fenced : AttemptRow Ref → Bool := fun row =>
    row.attemptId = next.attemptId ∧ row.leaseId = next.leaseId ∧
      row.effectId = digests.identityKey next.toEffectIdentity ∧
      row.fencingGeneration = next.fencingGeneration with hfenced
  set renewed : AttemptRow Ref → AttemptRow Ref := fun row =>
    { row with
      leaseExpiresAt := next.leaseExpiresAt
      status := next.status
      terminationConfirmed := next.terminationConfirmed
      resolvedAt := next.resolvedAt
      outcomeRef := next.outcomeRef
      attemptJson := attemptToDict digests next } with hrenewed
  -- the statement meets the row of the attempt and no other
  have hrow : ∀ other ∈ written.attemptLeases,
      fenced (attemptRow digests other) = decide (other = current) := by
    intro other hother
    by_cases he : other = current
    · rw [he, decide_eq_true rfl]
      exact decide_eq_true ⟨hf.same.1, hf.same.2.1, hkey.symm, hf.same.2.2.2.2.2.2.2⟩
    · rw [decide_eq_false he]
      exact decide_eq_false fun hc => he (ha.eq_current hf hmem hother hc.1)
  have hnext : renewed (attemptRow digests current) = attemptRow digests next := by
    have hacquired := hf.acquired
    obtain ⟨ci, cid, clease, cowner, cref, ckey, cattempt, cgen, cacq, _, _, _, _, _⟩ := current
    obtain ⟨ni, nid, nlease, nowner, nref, nkey, nattempt, ngen, nacq, _, _, _, _, _⟩ := next
    obtain ⟨h1, h2, h3, h4, h5, h6, h7, h8⟩ := hf.same
    simp only at h1 h2 h3 h4 h5 h6 h7 h8 hacquired
    subst h1 h2 h3 h4 h5 h6 h7 h8 hacquired
    rfl
  have hfilter : ((written.attemptLeases.map (attemptRow digests)).filter fenced).length = 1 :=
    length_selected hrow (List.Nodup.of_map _ ha.ids) hmem
  have hupdate : (written.attemptLeases.map (attemptRow digests)).map
      (fun row => if fenced row then renewed row else row)
      = (written.replaceAttempt next).attemptLeases.map (attemptRow digests) := by
    show _ = (KeyedList.replace (·.attemptId) written.attemptLeases next).map _
    unfold KeyedList.replace
    conv_rhs => rw [map_map]
    refine map_selected hrow ?_ fun other hother he => ?_
    · show _ = attemptRow digests (if current.attemptId = next.attemptId then next else current)
      rw [if_pos hf.same.1, hnext]
    · show _ = attemptRow digests (if other.attemptId = next.attemptId then next else other)
      rw [if_neg fun hid => he (ha.eq_current hf hmem hother hid)]
  have hvalid : (∀ row ∈ written.attemptLeases.map (attemptRow digests), fenced row = true →
      (renewed row).Valid ∧ ∀ other ∈ written.attemptLeases.map (attemptRow digests),
        ¬ fenced other = true → ¬ (renewed row).Overlaps other) ↔
      1 ≤ sqlLength current.leaseId ∧ 1 ≤ sqlLength current.ownerId := by
    rw [forall_selected hrow hmem, hnext, valid_attemptRow hf.checked, ← hf.same.2.1,
      ← hf.same.2.2.1, forall_mem_map, and_iff_left]
    intro stored hstored hother' hoverlap
    rw [hrow stored hstored, decide_eq_true_eq] at hother'
    -- of two attempts at an effect, one is not the latest
    have hsame : attemptKey digests stored = attemptKey digests current :=
      hoverlap.1.symm.trans hkey
    by_cases hterminated : stored.status = .terminated
    · exact not_overlaps_of_terminated hterminated hoverlap
    · have hlatest := ha.latest_of_ne_terminated hstored hterminated
      rw [hsame] at hlatest
      have hsettled := hf.settled (ha.settled current hmem fun hl => hother'
        (Option.some.inj (hlatest.symm.trans hl)))
      have hopen : next.status = .active ∨ next.status = .indeterminate := hoverlap.2.1
      rw [hsettled] at hopen
      rcases hopen with hopen | hopen <;> cases hopen
  show (require (∀ row ∈ written.attemptLeases.map (attemptRow digests), fenced row = true →
      (renewed row).Valid ∧ ∀ other ∈ written.attemptLeases.map (attemptRow digests),
        ¬ fenced other = true → ¬ (renewed row).Overlaps other) _ >>= fun _ =>
    require (((written.attemptLeases.map (attemptRow digests)).filter fenced).length = 1) _ >>=
      fun _ => pure _) = _ ↔ _
  simp only [check_bind_eq_ok, require_eq_ok, pure_eq_ok_iff, hfilter, hvalid, true_and]
  refine and_congr_right fun _ => ?_
  constructor
  · rintro rfl
    unfold ofWritten
    rw [← hupdate]
    rfl
  · rintro rfl
    unfold ofWritten
    rw [← hupdate]
    rfl

/-! ## Statements about outcomes -/

variable {sqlite : SQLite}

/-- Writing a new outcome of a decision. -/
theorem insertOutcome_eq_ok (hmem : decision ∈ written.decisions)
    (hof : OutcomeOf digests outcome decision) :
    (ofWritten digests count written).insertOutcome sqlite digests operation outcome = .ok store' ↔
      jsonValid sqlite (outcomeRow digests outcome) ∧ written.FreshOutcome digests outcome ∧
        store' = ofWritten digests count (written.addOutcome outcome) := by
  have hkey : outcomeKey digests outcome = decisionKey digests decision :=
    congrArg digests.identityKey hof.2.1
  have hfresh : (∀ other ∈ (ofWritten digests count written).tables.outcomes,
      other.outcomeRef ≠ (outcomeRow digests outcome).outcomeRef ∧
        other.outcomeId ≠ (outcomeRow digests outcome).outcomeId ∧
        other.effectId ≠ (outcomeRow digests outcome).effectId ∧
        other.decisionRef ≠ (outcomeRow digests outcome).decisionRef ∧
        other.idempotencyKey ≠ (outcomeRow digests outcome).idempotencyKey) ↔
      written.FreshOutcome digests outcome := by
    show (∀ other ∈ written.outcomes.map (outcomeRow digests), _) ↔ _
    rw [forall_mem_map]
    refine forall₂_congr fun other hother => ?_
    constructor
    · rintro ⟨href, hid, hother', -, -⟩
      exact ⟨href, hid, hother'⟩
    · rintro ⟨href, hid, hne⟩
      -- an outcome of the same decision is one of the same effect
      rcases h.recorded.authorized other hother with ⟨stored, hstored, hof'⟩
      have hkey' : outcomeKey digests other = decisionKey digests stored :=
        congrArg digests.identityKey hof'.2.1
      have hdecision : stored ≠ decision := by
        rintro rfl
        exact hne (hkey'.trans hkey.symm)
      refine ⟨href, hid, hne, ?_, ?_⟩
      · intro he
        have he : other.decisionRef = outcome.decisionRef := he
        exact hdecision (h.decided.eq_of_ref hstored hmem (hof'.1.symm.trans (he.trans hof.1)))
      · intro he
        have he : other.idempotencyKey = outcome.idempotencyKey := he
        exact hdecision (inj_on_of_nodup_map h.decided.idempotencyKeys hstored hmem
          (hof'.2.2.2.2.1.symm.trans (he.trans hof.2.2.2.2.1)))
  have hreferred : (ofWritten digests count written).HasDecision (outcomeKey digests outcome)
      outcome.decisionRef outcome.identityScopeRef outcome.subjectScopeRef
      outcome.idempotencyKey :=
    ⟨decisionRow digests decision, mem_map_of_mem hmem, hkey.symm, hof.1.symm,
      congrArg identityScopeRef hof.2.1.symm,
      congrArg subjectScopeRef hof.2.1.symm, hof.2.2.2.2.1.symm⟩
  have hstored : ({ ofWritten digests count written with
      tables.outcomes := (ofWritten digests count written).tables.outcomes
        ++ [outcomeRow digests outcome]
      written.outcomes := (ofWritten digests count written).written.outcomes ++ [outcome] } :
        SQLiteHarnessSideEffectStore Ref) = ofWritten digests count (written.addOutcome outcome) := by
    unfold ofWritten addOutcome
    simp only [map_append, map_cons, map_nil]
  unfold insertOutcome
  simp only [check_bind_eq_ok, require_eq_ok, pure_eq_ok_iff, hfresh]
  rw [hstored]
  constructor
  · rintro ⟨hvalid, hnew, -, rfl⟩
    exact ⟨hvalid, hnew, rfl⟩
  · rintro ⟨hvalid, hnew, rfl⟩
    exact ⟨hvalid, hnew, hreferred, rfl⟩

/-- Writing another revision of an outcome. -/
theorem updateOutcome_eq_ok {updated : HarnessSideEffectOutcome Ref Metadata}
    (hr : Written.Revises outcome updated) (hmem : outcome ∈ written.outcomes) :
    (ofWritten digests count written).updateOutcome sqlite digests operation outcome updated
        = .ok store' ↔ jsonValid sqlite (outcomeRow digests updated) ∧
        (∀ other ∈ written.outcomes, other ≠ outcome →
          digests.outcomeChecksum other ≠ digests.outcomeChecksum updated) ∧
        store' = ofWritten digests count (written.replaceOutcome digests updated) := by
  have hkey : outcomeKey digests updated = outcomeKey digests outcome :=
    congrArg digests.identityKey hr.identity
  set current : OutcomeRow Ref → Bool := fun row =>
    row.effectId = digests.identityKey outcome.toEffectIdentity ∧
      row.outcomeRef = digests.outcomeChecksum outcome with hcurrent
  set changed : OutcomeRow Ref → OutcomeRow Ref := fun row =>
    { row with
      outcomeRef := digests.outcomeChecksum updated
      disposition := updated.disposition
      outcomeJson := outcomeToDict digests updated } with hchanged
  -- the statement meets the row of the outcome and no other
  have hrow : ∀ other ∈ written.outcomes,
      current (outcomeRow digests other) = decide (other = outcome) := by
    intro other hother
    by_cases he : other = outcome
    · rw [he, decide_eq_true rfl]
      exact decide_eq_true ⟨rfl, rfl⟩
    · rw [decide_eq_false he]
      exact decide_eq_false fun hc => he (h.recorded.eq_of_key hother hmem hc.1)
  have hupdated : changed (outcomeRow digests outcome) = outcomeRow digests updated := by
    unfold changed outcomeRow
    simp only [hr.id, hr.identity, hr.decisionRef, hr.idempotencyKey]
  have hfilter : ((written.outcomes.map (outcomeRow digests)).filter current).length = 1 :=
    length_selected hrow (List.Nodup.of_map _ h.recorded.refs) hmem
  have hupdate : (written.outcomes.map (outcomeRow digests)).map
      (fun row => if current row then changed row else row)
      = (written.replaceOutcome digests updated).outcomes.map (outcomeRow digests) := by
    show _ = (KeyedList.replace _ written.outcomes updated).map _
    unfold KeyedList.replace
    rw [hkey]
    conv_rhs => rw [map_map]
    refine map_selected hrow ?_ fun other hother he => ?_
    · show _ = outcomeRow digests (if outcomeKey digests outcome = _ then updated else outcome)
      rw [if_pos rfl, hupdated]
    · show _ = outcomeRow digests (if outcomeKey digests other = _ then updated else other)
      rw [if_neg fun hk => he (h.recorded.eq_of_key hother hmem hk)]
  have hvalid : (∀ row ∈ written.outcomes.map (outcomeRow digests), current row = true →
      jsonValid sqlite (changed row) ∧ ∀ other ∈ written.outcomes.map (outcomeRow digests),
        ¬ current other = true → other.outcomeRef ≠ (changed row).outcomeRef) ↔
      jsonValid sqlite (outcomeRow digests updated) ∧
        ∀ other ∈ written.outcomes, other ≠ outcome →
          digests.outcomeChecksum other ≠ digests.outcomeChecksum updated := by
    have hothers : (∀ other ∈ written.outcomes.map (outcomeRow digests), ¬ current other = true →
        other.outcomeRef ≠ (outcomeRow digests updated).outcomeRef) ↔
        ∀ other ∈ written.outcomes, other ≠ outcome →
          digests.outcomeChecksum other ≠ digests.outcomeChecksum updated := by
      rw [forall_mem_map]
      refine forall₂_congr fun other hother => ?_
      rw [hrow other hother, decide_eq_true_eq]
      rfl
    rw [forall_selected hrow hmem, hupdated, hothers]
  show (require (∀ row ∈ written.outcomes.map (outcomeRow digests), current row = true →
      jsonValid sqlite (changed row) ∧ ∀ other ∈ written.outcomes.map (outcomeRow digests),
        ¬ current other = true → other.outcomeRef ≠ (changed row).outcomeRef) _ >>= fun _ =>
    require (((written.outcomes.map (outcomeRow digests)).filter current).length = 1) _ >>=
      fun _ => pure _) = _ ↔ _
  simp only [check_bind_eq_ok, require_eq_ok, pure_eq_ok_iff, hfilter, hvalid, true_and, and_assoc]
  refine and_congr_right fun _ => and_congr_right fun _ => ?_
  constructor
  · rintro rfl
    unfold ofWritten
    rw [← hupdate]
    rfl
  · rintro rfl
    unfold ofWritten
    rw [← hupdate]
    rfl

omit h in
/-- The references of linked records are there at the end of a transaction. -/
theorem commit_ofWritten (hl : written.Linked digests) {α : Type} (value : α) :
    commit operation (value, ofWritten digests count written) =
      .ok (value, ofWritten digests count written) := by
  unfold commit
  rw [require_of_pos]
  · rfl
  · intro row hrow
    rcases mem_map.mp hrow with ⟨attempt, hattempt, rfl⟩
    show (attempt.outcomeRef.all _) = true
    cases href : attempt.outcomeRef with
    | none => rfl
    | some outcomeRef =>
      rcases hl.outcome attempt hattempt outcomeRef href with ⟨outcome, houtcome, hchecksum, -⟩
      show (List.any _ _) = true
      rw [any_eq_true]
      exact ⟨outcomeRow digests outcome, mem_map_of_mem houtcome, decide_eq_true hchecksum⟩

end SQLiteHarnessSideEffectStore

end HarnessSideEffects
