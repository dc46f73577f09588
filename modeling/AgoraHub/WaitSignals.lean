/-
# Waits and signals

The records of the waits of a graph run and of the signals that resolve them, as the
signal inbox keeps them.  The checksums a record derives from its own content are
functions of the record.
-/
import AgoraHub.GraphModel

namespace HarnessGraph

open TaskPlan (canonicalPayloadChecksum HarnessValidationError)

/-! ## Waits and signals -/

/-- `HarnessSignalInboxEntryStatus`. -/
inductive SignalInboxEntryStatus where
  | early
  | matched
  deriving DecidableEq

structure HarnessWaitScope where
  waitId : String
  runId : String
  nodeInstanceId : String
  tenantScopeRef : String
  identityScopeRef : String
  signalSchemaRef : String
  correlationRef : String
  deriving DecidableEq

def HarnessWaitScope.toDict (s : HarnessWaitScope) : Json :=
  .obj [("wait_id", .str s.waitId), ("run_id", .str s.runId),
    ("node_instance_id", .str s.nodeInstanceId), ("tenant_scope_ref", .str s.tenantScopeRef),
    ("identity_scope_ref", .str s.identityScopeRef),
    ("signal_schema_ref", .str s.signalSchemaRef), ("correlation_ref", .str s.correlationRef)]

structure HarnessWaitSignal where
  signalId : String
  scope : HarnessWaitScope
  payloadRef : String
  receivedSequence : ℕ
  deriving DecidableEq

/-- `HARNESS_WAIT_RECORD_SCHEMA`. -/
def waitRecordSchema : String := "newsroom.harness.wait-record/v1"

/-- `idempotency_projection`: a delivery retry may have another sequence. -/
def HarnessWaitSignal.idempotencyProjection (s : HarnessWaitSignal) : Json :=
  .obj [("record_schema", .str waitRecordSchema), ("signal_id", .str s.signalId),
    ("scope", s.scope.toDict), ("payload_ref", .str s.payloadRef)]

structure HarnessWaitSignalMatch where
  scope : HarnessWaitScope
  registrationRef : String
  signalRef : String
  matchedSequence : ℕ
  deriving DecidableEq

structure HarnessSignalInboxEntry where
  signal : HarnessWaitSignal
  status : SignalInboxEntryStatus
  signalMatch : Option HarnessWaitSignalMatch
  deriving DecidableEq

/-! ## Checksums -/

/-- The checksums of records, by `sha256`. -/
structure Checksums where
  sha256 : String → HexDigest

namespace Checksums

variable (c : Checksums)

/-- `canonical_checksum`. -/
def checksum (value : Json) : String := canonicalPayloadChecksum c.sha256 value

def signalRef (s : HarnessWaitSignal) : String := c.checksum s.idempotencyProjection

/-- `registration_ref` of a `HarnessWaitRegistrationRecord`. -/
def registrationRef (scope : HarnessWaitScope) (kind : WaitKind) (registeredSequence : ℕ)
    (deadlineRef : Option String) : String :=
  c.checksum (.obj [("record_schema", .str waitRecordSchema), ("scope", scope.toDict),
    ("kind", .str (match kind with
      | .signal => "signal"
      | .timer => "timer"
      | .approval => "approval")),
    ("registered_sequence", .int registeredSequence), ("deadline_ref", .optStr deadlineRef)])

end Checksums

/-! ## Entries of the signal inbox -/

open Fallible List

/-- An error without details. -/
def invalid (message code : String) : HarnessValidationError := ⟨message, code, []⟩

/-- `HarnessSignalInboxEntry.__post_init__`. -/
def HarnessSignalInboxEntry.construct (c : Checksums) (e : HarnessSignalInboxEntry) :
    Except HarnessValidationError HarnessSignalInboxEntry := do
  require (∀ m ∈ e.signalMatch, m.signalRef = c.signalRef e.signal)
    (invalid "signal inbox match references another signal" "wait_signal_match_mismatch")
  require (∀ m ∈ e.signalMatch, m.scope = e.signal.scope)
    (invalid "signal inbox match belongs to another scope" "wait_signal_scope_mismatch")
  require (e.status = .early → e.signalMatch = none)
    (invalid "early signal inbox entry cannot carry a match" "invalid_signal_inbox_entry")
  require (e.status = .matched → e.signalMatch.isSome = true)
    (invalid "matched signal inbox entry requires durable match evidence"
      "invalid_signal_inbox_entry")
  return e

namespace HarnessGraphState

/-- The order of signals: by sequence, identifier and reference. -/
def signalLe (c : Checksums) (a b : HarnessSignalInboxEntry) : Prop :=
  a.signal.receivedSequence < b.signal.receivedSequence ∨
    (a.signal.receivedSequence = b.signal.receivedSequence ∧
      (a.signal.signalId < b.signal.signalId ∨ (a.signal.signalId = b.signal.signalId ∧
        c.signalRef a.signal ≤ c.signalRef b.signal)))

instance (c : Checksums) : DecidableRel (signalLe c) :=
  fun _ _ => inferInstanceAs (Decidable (_ ∨ _))

end HarnessGraphState

/-- The order of `min` over early signals: sequence, identifier and reference. -/
def signalLt (c : Checksums) (a b : HarnessSignalInboxEntry) : Prop :=
  ¬ HarnessGraphState.signalLe c b a

instance (c : Checksums) : DecidableRel (signalLt c) := fun _ _ => inferInstanceAs (Decidable (¬ _))

/-- `max` or `min` with a key: the first item that no later item is better than. -/
def pyBest? {α : Type} (better : α → α → Prop) [DecidableRel better] : List α → Option α
  | [] => none
  | a :: rest => some (rest.foldl (fun best b => if better b best then b else best) a)

/-- The best item is one of them. -/
theorem mem_of_pyBest? {α : Type} {better : α → α → Prop} [DecidableRel better] {xs : List α}
    {a : α} (h : pyBest? better xs = some a) : a ∈ xs := by
  cases xs with
  | nil => cases h
  | cons x rest =>
    cases h
    suffices hfold : ∀ (ys : List α) (best : α),
        ys.foldl (fun best b => if better b best then b else best) best = best ∨
          ys.foldl (fun best b => if better b best then b else best) best ∈ ys by
      rcases hfold rest x with heq | hmem
      · rw [heq]; exact mem_cons_self
      · exact mem_cons_of_mem _ hmem
    intro ys
    induction ys with
    | nil => intro best; exact Or.inl rfl
    | cons y ys ih =>
      intro best
      rw [foldl_cons]
      rcases ih (if better y best then y else best) with heq | hmem
      · by_cases hy : better y best
        · rw [if_pos hy] at heq ⊢
          rw [heq]
          exact Or.inr mem_cons_self
        · rw [if_neg hy] at heq ⊢
          exact Or.inl heq
      · exact Or.inr (mem_cons_of_mem _ hmem)

end HarnessGraph
