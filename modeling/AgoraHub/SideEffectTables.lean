/-
# The tables of side effects

The rows of `SQLiteHarnessSideEffectStore`, the statements that write them and what a row reads
back as.  A row has the object of its record and index columns that are computed from the record.

A statement checks the constraints of its table and raises when one fails.  Beside the tables
stands what the statements were given: `Written` is no part of the database, it remembers for
each row the record that the last statement about it wrote.
-/
import AgoraHub.SideEffectStore
import AgoraHub.SideEffectWires
import AgoraHub.KeyedList
import Mathlib.Data.List.MinMax

open Fallible

namespace HarnessSideEffects

/-! ## Rows -/

/-- A row of `harness_side_effect_decisions`. -/
structure DecisionRow (Ref : Type) where
  decisionRef : Ref
  decisionId : String
  effectId : Ref
  runId : String
  origin : HarnessSideEffectOrigin
  commandOrdinal : ℕ
  identityScopeRef : Ref
  subjectScopeRef : Ref
  idempotencyKey : String
  decisionJson : DecisionObject Ref
  deriving DecidableEq

/-- A row of `harness_side_effect_attempts`, the ledger of an effect. -/
structure LedgerRow (Ref : Type) where
  effectId : Ref
  decisionRef : Ref
  identityScopeRef : Ref
  subjectScopeRef : Ref
  attemptCount : ℕ
  attemptLimit : ℕ
  deriving DecidableEq

/-- A row of `harness_side_effect_attempt_leases`. -/
structure AttemptRow (Ref : Type) where
  attemptId : Ref
  leaseId : String
  ownerId : String
  effectId : Ref
  decisionRef : Ref
  idempotencyKey : String
  identityScopeRef : Ref
  subjectScopeRef : Ref
  attempt : ℕ
  fencingGeneration : ℕ
  acquiredAt : Datetime
  leaseExpiresAt : Datetime
  status : HarnessSideEffectAttemptStatus
  terminationConfirmed : Bool
  resolvedAt : Option Datetime
  outcomeRef : Option Ref
  attemptJson : AttemptObject Ref
  deriving DecidableEq

/-- A row of `harness_side_effect_outcomes`. -/
structure OutcomeRow (Ref : Type) where
  outcomeRef : Ref
  outcomeId : String
  effectId : Ref
  decisionRef : Ref
  runId : String
  identityScopeRef : Ref
  subjectScopeRef : Ref
  idempotencyKey : String
  disposition : HarnessSideEffectDisposition
  outcomeJson : OutcomeObject Ref
  deriving DecidableEq

/-- The tables. -/
structure Tables (Ref : Type) where
  decisions : List (DecisionRow Ref)
  attempts : List (LedgerRow Ref)
  attemptLeases : List (AttemptRow Ref)
  outcomes : List (OutcomeRow Ref)
  deriving DecidableEq

/-- The records that the rows were last given. -/
structure Written (Ref : Type) where
  decisions : List (HarnessSideEffectDecision Ref)
  attemptLeases : List (HarnessSideEffectAttemptLease Ref)
  outcomes : List (HarnessSideEffectOutcome Ref Metadata)
  deriving DecidableEq

/-- `SQLiteHarnessSideEffectStore`: the tables, with what was written. -/
structure SQLiteHarnessSideEffectStore (Ref : Type) where
  tables : Tables Ref
  written : Written Ref
  deriving DecidableEq

/-- What the database and the clock contribute: `json_valid` of the document of an outcome, which
may be nested too deeply, and `now + timedelta(seconds=attempt_lease_seconds)`. -/
structure SQLite where
  jsonValid : PyValue → Bool
  leaseExpiry : Datetime → Except SideEffectError Datetime

def corruption (message : String) : SideEffectError :=
  .attemptError "side_effect_store_corrupt" message

/-- `_sqlite_error` of an `IntegrityError`. -/
def conflict (operation : String) : SideEffectError :=
  .attemptError "side_effect_store_conflict"
    (operation ++ " violated the durable side-effect contract")

/-- Binding an integer to a column. -/
def bindInteger (n : ℕ) : Except SideEffectError Unit := require (n < 2 ^ 63) .overflow

/-- `length` of a text in SQL, which ends before the first `NUL`. -/
def sqlLength (text : String) : ℕ := (text.toList.takeWhile (· ≠ '\x00')).length

section Rows

variable {Ref : Type} [DecidableEq Ref] (digests : RecordDigests Ref)

/-! ## The rows of records -/

/-- The row of a decision. -/
def decisionRow (decision : HarnessSideEffectDecision Ref) : DecisionRow Ref where
  decisionRef := digests.decisionChecksum decision
  decisionId := decision.decisionId
  effectId := digests.identityKey decision.toEffectIdentity
  runId := decision.runId
  origin := decision.origin
  commandOrdinal := decision.commandOrdinal
  identityScopeRef := decision.identityScopeRef
  subjectScopeRef := decision.subjectScopeRef
  idempotencyKey := decision.idempotencyKey
  decisionJson := decisionToDict digests decision

/-- The ledger of a decision. -/
def ledgerRow (decision : HarnessSideEffectDecision Ref) (attemptCount : ℕ) : LedgerRow Ref where
  effectId := digests.identityKey decision.toEffectIdentity
  decisionRef := digests.decisionChecksum decision
  identityScopeRef := decision.identityScopeRef
  subjectScopeRef := decision.subjectScopeRef
  attemptCount := attemptCount
  attemptLimit := decision.effectAttemptLimit

/-- `_attempt_row_values`. -/
def attemptRow (attempt : HarnessSideEffectAttemptLease Ref) : AttemptRow Ref where
  attemptId := attempt.attemptId
  leaseId := attempt.leaseId
  ownerId := attempt.ownerId
  effectId := digests.identityKey attempt.toEffectIdentity
  decisionRef := attempt.decisionRef
  idempotencyKey := attempt.idempotencyKey
  identityScopeRef := attempt.identityScopeRef
  subjectScopeRef := attempt.subjectScopeRef
  attempt := attempt.attempt
  fencingGeneration := attempt.fencingGeneration
  acquiredAt := attempt.acquiredAt
  leaseExpiresAt := attempt.leaseExpiresAt
  status := attempt.status
  terminationConfirmed := attempt.terminationConfirmed
  resolvedAt := attempt.resolvedAt
  outcomeRef := attempt.outcomeRef
  attemptJson := attemptToDict digests attempt

/-- The row of an outcome. -/
def outcomeRow (outcome : HarnessSideEffectOutcome Ref Metadata) : OutcomeRow Ref where
  outcomeRef := digests.outcomeChecksum outcome
  outcomeId := outcome.outcomeId
  effectId := digests.identityKey outcome.toEffectIdentity
  decisionRef := outcome.decisionRef
  runId := outcome.runId
  identityScopeRef := outcome.identityScopeRef
  subjectScopeRef := outcome.subjectScopeRef
  idempotencyKey := outcome.idempotencyKey
  disposition := outcome.disposition
  outcomeJson := outcomeToDict digests outcome

/-! ## Reading rows -/

def decisionFromRow (row : DecisionRow Ref) :
    Except SideEffectError (HarnessSideEffectDecision Ref) := do
  let decision ← (decisionFromDict digests row.decisionJson).mapError fun _ =>
    corruption "stored side-effect decision is invalid"
  require
    (row.decisionRef = digests.decisionChecksum decision ∧ row.decisionId = decision.decisionId ∧
      row.effectId = digests.identityKey decision.toEffectIdentity ∧ row.runId = decision.runId ∧
      row.origin = decision.origin ∧ row.commandOrdinal = decision.commandOrdinal ∧
      row.identityScopeRef = decision.identityScopeRef ∧
      row.subjectScopeRef = decision.subjectScopeRef ∧ row.idempotencyKey = decision.idempotencyKey)
    (corruption "stored side-effect decision indexes do not match its payload")
  return decision

def outcomeFromRow (row : OutcomeRow Ref) :
    Except SideEffectError (HarnessSideEffectOutcome Ref Metadata) := do
  let outcome ← (outcomeFromDict digests row.outcomeJson).mapError fun _ =>
    corruption "stored side-effect outcome is invalid"
  require
    (row.outcomeRef = digests.outcomeChecksum outcome ∧ row.outcomeId = outcome.outcomeId ∧
      row.effectId = digests.identityKey outcome.toEffectIdentity ∧
      row.decisionRef = outcome.decisionRef ∧ row.runId = outcome.runId ∧
      row.identityScopeRef = outcome.identityScopeRef ∧
      row.subjectScopeRef = outcome.subjectScopeRef ∧ row.idempotencyKey = outcome.idempotencyKey ∧
      row.disposition = outcome.disposition)
    (corruption "stored side-effect outcome indexes do not match its payload")
  return outcome

def attemptFromRow (row : AttemptRow Ref) :
    Except SideEffectError (HarnessSideEffectAttemptLease Ref) := do
  let attempt ← (attemptFromDict digests row.attemptJson).mapError fun _ =>
    corruption "stored side-effect attempt lease is invalid"
  require
    (row.attemptId = attempt.attemptId ∧ row.leaseId = attempt.leaseId ∧
      row.ownerId = attempt.ownerId ∧ row.effectId = digests.identityKey attempt.toEffectIdentity ∧
      row.decisionRef = attempt.decisionRef ∧ row.idempotencyKey = attempt.idempotencyKey ∧
      row.identityScopeRef = attempt.identityScopeRef ∧
      row.subjectScopeRef = attempt.subjectScopeRef ∧ row.attempt = attempt.attempt ∧
      row.fencingGeneration = attempt.fencingGeneration ∧ row.acquiredAt = attempt.acquiredAt ∧
      row.leaseExpiresAt = attempt.leaseExpiresAt ∧ row.status = attempt.status ∧
      row.terminationConfirmed = attempt.terminationConfirmed ∧
      row.resolvedAt = attempt.resolvedAt ∧ row.outcomeRef = attempt.outcomeRef)
    (corruption "stored side-effect attempt indexes do not match its payload")
  return attempt

/-! ## Checks between records -/

def assertLedgerMatchesDecision (row : LedgerRow Ref) (decision : HarnessSideEffectDecision Ref) :
    Except SideEffectError Unit := do
  require
    (row.effectId = digests.identityKey decision.toEffectIdentity ∧
      row.decisionRef = digests.decisionChecksum decision ∧
      row.identityScopeRef = decision.identityScopeRef ∧
      row.subjectScopeRef = decision.subjectScopeRef ∧
      row.attemptLimit = decision.effectAttemptLimit)
    (corruption "side-effect attempt ledger conflicts with its decision")
  require (row.attemptCount ≤ decision.effectAttemptLimit)
    (corruption "side-effect attempt ledger count is invalid")

def assertAttemptMatchesDecision (attempt : HarnessSideEffectAttemptLease Ref)
    (decision : HarnessSideEffectDecision Ref) : Except SideEffectError Unit :=
  require
    (attempt.toEffectIdentity = decision.toEffectIdentity ∧
      attempt.decisionRef = digests.decisionChecksum decision ∧
      attempt.idempotencyKey = decision.idempotencyKey)
    (corruption "side-effect attempt lease conflicts with its decision")

def assertStoredOutcomeMatchesDecision (outcome : HarnessSideEffectOutcome Ref Metadata)
    (decision : HarnessSideEffectDecision Ref) : Except SideEffectError Unit :=
  (assertOutcomeMatchesDecision digests.toDigests outcome decision).mapError fun _ =>
    corruption "side-effect outcome conflicts with its decision"

end Rows

/-! ## Constraints -/

namespace AttemptRow

variable {Ref : Type}

/-- The attempt is not known to have ended. -/
def Unresolved (row : AttemptRow Ref) : Prop := row.status = .active ∨ row.status = .indeterminate

instance (row : AttemptRow Ref) : Decidable row.Unresolved := inferInstanceAs (Decidable (_ ∨ _))

/-- The `CHECK` constraints of a lease. -/
def Valid (row : AttemptRow Ref) : Prop :=
  1 ≤ sqlLength row.leaseId ∧
    1 ≤ sqlLength row.ownerId ∧
    1 ≤ row.attempt ∧
    1 ≤ row.fencingGeneration ∧
    row.attempt = row.fencingGeneration ∧
    ((row.status = .active ∧ row.terminationConfirmed = false ∧ row.resolvedAt.isNone) ∨
      (row.status = .terminated ∧ row.terminationConfirmed = true ∧ row.resolvedAt.isSome) ∨
      (row.status = .indeterminate ∧ row.terminationConfirmed = false ∧ row.resolvedAt.isSome)) ∧
    (row.status = .terminated ∨ row.outcomeRef.isNone)

instance (row : AttemptRow Ref) : Decidable row.Valid := inferInstanceAs (Decidable (_ ∧ _))

/-- The two leases violate the index of unresolved attempts. -/
def Overlaps [DecidableEq Ref] (row other : AttemptRow Ref) : Prop :=
  row.effectId = other.effectId ∧ row.Unresolved ∧ other.Unresolved

instance [DecidableEq Ref] (row other : AttemptRow Ref) : Decidable (row.Overlaps other) :=
  inferInstanceAs (Decidable (_ ∧ _))

end AttemptRow

/-! ## Statements -/

namespace SQLiteHarnessSideEffectStore

variable {Ref : Type} [DecidableEq Ref] (sqlite : SQLite) (digests : RecordDigests Ref)
variable (operation : String) (store : SQLiteHarnessSideEffectStore Ref)

/-- A new store. -/
def empty : SQLiteHarnessSideEffectStore Ref := ⟨⟨[], [], [], []⟩, ⟨[], [], []⟩⟩

section

variable (decision : HarnessSideEffectDecision Ref)

/-- `INSERT INTO harness_side_effect_decisions`. -/
def insertDecision : Except SideEffectError (SQLiteHarnessSideEffectStore Ref) := do
  bindInteger decision.commandOrdinal
  let row := decisionRow digests decision
  require (∀ other ∈ store.tables.decisions,
      other.decisionRef ≠ row.decisionRef ∧ other.decisionId ≠ row.decisionId ∧
        other.effectId ≠ row.effectId ∧ other.idempotencyKey ≠ row.idempotencyKey)
    (conflict operation)
  return { store with
    tables.decisions := store.tables.decisions ++ [row]
    written.decisions := store.written.decisions ++ [decision] }

/-- `INSERT INTO harness_side_effect_attempts`. -/
def insertLedger : Except SideEffectError (SQLiteHarnessSideEffectStore Ref) := do
  bindInteger decision.effectAttemptLimit
  let row := ledgerRow digests decision 0
  require (∃ other ∈ store.tables.decisions,
      other.effectId = row.effectId ∧ other.decisionRef = row.decisionRef ∧
        other.identityScopeRef = row.identityScopeRef ∧ other.subjectScopeRef = row.subjectScopeRef)
    (conflict operation)
  require (1 ≤ row.attemptLimit ∧ ∀ other ∈ store.tables.attempts,
      other.effectId ≠ row.effectId ∧ other.decisionRef ≠ row.decisionRef)
    (conflict operation)
  return { store with tables.attempts := store.tables.attempts ++ [row] }

def advanceAttemptLedger (currentCount nextCount : ℕ) :
    Except SideEffectError (SQLiteHarnessSideEffectStore Ref) := do
  let counted (row : LedgerRow Ref) : Bool :=
    row.effectId = digests.identityKey decision.toEffectIdentity ∧
      row.decisionRef = digests.decisionChecksum decision ∧ row.attemptCount = currentCount
  bindInteger nextCount
  require (∀ row ∈ store.tables.attempts, counted row → nextCount ≤ row.attemptLimit)
    (conflict operation)
  require ((store.tables.attempts.filter counted).length = 1)
    (.attemptError "side_effect_store_conflict" "side-effect attempt reservation conflicted")
  return { store with
    tables.attempts := store.tables.attempts.map fun row =>
      if counted row then { row with attemptCount := nextCount } else row }

end

/-- A decision for a lease or an outcome to refer to. -/
def HasDecision (effectId decisionRef identityScopeRef subjectScopeRef : Ref)
    (idempotencyKey : String) : Prop :=
  ∃ other ∈ store.tables.decisions,
    other.effectId = effectId ∧ other.decisionRef = decisionRef ∧
      other.identityScopeRef = identityScopeRef ∧ other.subjectScopeRef = subjectScopeRef ∧
      other.idempotencyKey = idempotencyKey

instance (effectId decisionRef identityScopeRef subjectScopeRef : Ref) (idempotencyKey : String) :
    Decidable (store.HasDecision effectId decisionRef identityScopeRef subjectScopeRef
      idempotencyKey) :=
  inferInstanceAs (Decidable (∃ _ ∈ _, _))

def insertAttempt (attempt : HarnessSideEffectAttemptLease Ref) :
    Except SideEffectError (SQLiteHarnessSideEffectStore Ref) := do
  bindInteger attempt.attempt
  bindInteger attempt.fencingGeneration
  let row := attemptRow digests attempt
  require row.Valid (conflict operation)
  require (∀ other ∈ store.tables.attemptLeases,
      other.attemptId ≠ row.attemptId ∧ other.leaseId ≠ row.leaseId ∧
        ¬ (other.effectId = row.effectId ∧ other.attempt = row.attempt) ∧
        ¬ (other.effectId = row.effectId ∧ other.fencingGeneration = row.fencingGeneration) ∧
        ¬ row.Overlaps other)
    (conflict operation)
  require (store.HasDecision row.effectId row.decisionRef row.identityScopeRef row.subjectScopeRef
      row.idempotencyKey)
    (conflict operation)
  return { store with
    tables.attemptLeases := store.tables.attemptLeases ++ [row]
    written.attemptLeases := store.written.attemptLeases ++ [attempt] }

def updateAttempt (attempt : HarnessSideEffectAttemptLease Ref) :
    Except SideEffectError (SQLiteHarnessSideEffectStore Ref) := do
  let fenced (row : AttemptRow Ref) : Bool :=
    row.attemptId = attempt.attemptId ∧ row.leaseId = attempt.leaseId ∧
      row.effectId = digests.identityKey attempt.toEffectIdentity ∧
      row.fencingGeneration = attempt.fencingGeneration
  let renewed (row : AttemptRow Ref) : AttemptRow Ref :=
    { row with
      leaseExpiresAt := attempt.leaseExpiresAt
      status := attempt.status
      terminationConfirmed := attempt.terminationConfirmed
      resolvedAt := attempt.resolvedAt
      outcomeRef := attempt.outcomeRef
      attemptJson := attemptToDict digests attempt }
  require (∀ row ∈ store.tables.attemptLeases, fenced row →
      (renewed row).Valid ∧ ∀ other ∈ store.tables.attemptLeases,
        ¬ fenced other → ¬ (renewed row).Overlaps other)
    (conflict operation)
  require ((store.tables.attemptLeases.filter fenced).length = 1)
    (.attemptError "stale_side_effect_attempt" "side-effect attempt update lost its current fence")
  return { store with
    tables.attemptLeases := store.tables.attemptLeases.map fun row =>
      if fenced row then renewed row else row
    written.attemptLeases := KeyedList.replace (·.attemptId) store.written.attemptLeases attempt }

/-- `json_valid(outcome_json)`. -/
def jsonValid (row : OutcomeRow Ref) : Prop :=
  row.outcomeJson.metadata.nonFinite = [] ∧ sqlite.jsonValid row.outcomeJson.metadata.json = true

instance (row : OutcomeRow Ref) : Decidable (jsonValid sqlite row) :=
  inferInstanceAs (Decidable (_ ∧ _))

def insertOutcome (outcome : HarnessSideEffectOutcome Ref Metadata) :
    Except SideEffectError (SQLiteHarnessSideEffectStore Ref) := do
  let row := outcomeRow digests outcome
  require (jsonValid sqlite row) (conflict operation)
  require (∀ other ∈ store.tables.outcomes,
      other.outcomeRef ≠ row.outcomeRef ∧ other.outcomeId ≠ row.outcomeId ∧
        other.effectId ≠ row.effectId ∧ other.decisionRef ≠ row.decisionRef ∧
        other.idempotencyKey ≠ row.idempotencyKey)
    (conflict operation)
  require (store.HasDecision row.effectId row.decisionRef row.identityScopeRef row.subjectScopeRef
      row.idempotencyKey)
    (conflict operation)
  return { store with
    tables.outcomes := store.tables.outcomes ++ [row]
    written.outcomes := store.written.outcomes ++ [outcome] }

/-- `UPDATE harness_side_effect_outcomes`. -/
def updateOutcome (outcome updated : HarnessSideEffectOutcome Ref Metadata) :
    Except SideEffectError (SQLiteHarnessSideEffectStore Ref) := do
  let current (row : OutcomeRow Ref) : Bool :=
    row.effectId = digests.identityKey outcome.toEffectIdentity ∧
      row.outcomeRef = digests.outcomeChecksum outcome
  let changed (row : OutcomeRow Ref) : OutcomeRow Ref :=
    { row with
      outcomeRef := digests.outcomeChecksum updated
      disposition := updated.disposition
      outcomeJson := outcomeToDict digests updated }
  require (∀ row ∈ store.tables.outcomes, current row →
      jsonValid sqlite (changed row) ∧ ∀ other ∈ store.tables.outcomes,
        ¬ current other → other.outcomeRef ≠ (changed row).outcomeRef)
    (conflict operation)
  require ((store.tables.outcomes.filter current).length = 1)
    (.attemptError "side_effect_store_conflict" "side-effect disposition update conflicted")
  return { store with
    tables.outcomes := store.tables.outcomes.map fun row =>
      if current row then changed row else row
    written.outcomes := KeyedList.replace
      (fun o => digests.identityKey o.toEffectIdentity) store.written.outcomes updated }

/-- The end of `_write`: `COMMIT` checks the references to outcomes, which are deferred. -/
def commit {α : Type} (result : α × SQLiteHarnessSideEffectStore Ref) :
    Except SideEffectError (α × SQLiteHarnessSideEffectStore Ref) := do
  require (∀ row ∈ result.2.tables.attemptLeases, row.outcomeRef.all fun ref =>
      result.2.tables.outcomes.any fun outcome => outcome.outcomeRef = ref)
    (conflict operation)
  return result

end SQLiteHarnessSideEffectStore

end HarnessSideEffects
