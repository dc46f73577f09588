/-
# The signal inbox

`InMemoryHarnessSignalInbox`: signals that arrive before a wait is registered are kept
within a window of sequence numbers, and a registration takes the earliest one of its
scope.  A call that raises keeps what it has changed until then.
-/
import AgoraHub.WaitSignals

namespace WaitInbox

open Fallible HarnessGraph
open TaskPlan (HarnessValidationError)

/-! ## Records -/

/-- `HarnessEarlySignalRetentionPolicy`: bounds that pass its constructor. -/
structure HarnessEarlySignalRetentionPolicy where
  maxSignals : ℕ
  maxSignalsPerScope : ℕ
  sequenceWindow : ℕ
  positive : 0 < maxSignals ∧ 0 < maxSignalsPerScope ∧ 0 < sequenceWindow
  within : maxSignalsPerScope ≤ maxSignals

structure HarnessWaitRegistrationRecord where
  scope : HarnessWaitScope
  kind : WaitKind
  registeredSequence : ℕ
  deadlineRef : Option String

def HarnessWaitRegistrationRecord.registrationRef (c : Checksums)
    (r : HarnessWaitRegistrationRecord) : String :=
  c.registrationRef r.scope r.kind r.registeredSequence r.deadlineRef

/-- The fields of a scope with the ends of their codes. -/
def scopeFields : List (String × String × (HarnessWaitScope → String)) :=
  [("wait_id", "wait_mismatch", HarnessWaitScope.waitId),
    ("run_id", "run_scope_mismatch", HarnessWaitScope.runId),
    ("node_instance_id", "node_scope_mismatch", HarnessWaitScope.nodeInstanceId),
    ("tenant_scope_ref", "tenant_scope_mismatch", HarnessWaitScope.tenantScopeRef),
    ("identity_scope_ref", "identity_scope_mismatch", HarnessWaitScope.identityScopeRef),
    ("signal_schema_ref", "schema_mismatch", HarnessWaitScope.signalSchemaRef),
    ("correlation_ref", "correlation_mismatch", HarnessWaitScope.correlationRef)]

def validateScopeMatch (expected actual : HarnessWaitScope) (codeStart : String) :
    Except HarnessValidationError Unit :=
  scopeFields.forM fun f => require (f.2.2 expected = f.2.2 actual)
    ⟨"Wait signal " ++ f.1 ++ " does not match the authorized scope", codeStart ++ "_" ++ f.2.1,
      [("field", .str f.1)]⟩

def validateSignalAuthorization (signal : HarnessWaitSignal) (authorizedScope : HarnessWaitScope) :
    Except HarnessValidationError Unit :=
  validateScopeMatch authorizedScope signal.scope "wait_signal_authorization"

def validateSignalForRegistration (registration : HarnessWaitRegistrationRecord)
    (signal : HarnessWaitSignal) : Except HarnessValidationError Unit := do
  require (registration.kind = .signal)
    (invalid "only signal Wait registrations may consume signal inbox entries"
      "wait_signal_kind_mismatch")
  validateScopeMatch registration.scope signal.scope "wait_signal"

/-! ## The inbox -/

/-- The identity of a signal within its tenant. -/
abbrev SignalKey := String × String

def signalKey (signal : HarnessWaitSignal) : SignalKey :=
  (signal.scope.tenantScopeRef, signal.signalId)

/-- `InMemoryHarnessSignalInbox`. -/
structure SignalInbox where
  entries : PyDict SignalKey HarnessSignalInboxEntry
  signalMatches : PyDict String HarnessWaitSignalMatch
  highWatermark : ℕ
  deriving DecidableEq

namespace SignalInbox

/-- The inbox at the start. -/
def empty : SignalInbox := ⟨[], [], 0⟩

variable (c : Checksums) (policy : HarnessEarlySignalRetentionPolicy)

section

variable (inbox : SignalInbox)

/-- One turn of the loop over the expired keys. -/
def dropExpired (expired : SignalKey × HarnessSignalInboxEntry) : SignalInbox :=
  { inbox with
    entries := inbox.entries.pop expired.1
    signalMatches := match expired.2.signalMatch with
      | some signalMatch => inbox.signalMatches.pop signalMatch.registrationRef
      | none => inbox.signalMatches }

def pruneLocked (throughSequence : ℕ) : List String × SignalInbox :=
  let inbox := { inbox with highWatermark := max inbox.highWatermark throughSequence }
  let cutoff : ℤ := inbox.highWatermark - policy.sequenceWindow
  if cutoff < 0 then ([], inbox)
  else
    let expired := inbox.entries.filter fun p =>
      decide ((p.2.signal.receivedSequence : ℤ) ≤ cutoff)
    (PyText.sorted (expired.map fun p => c.signalRef p.2.signal), expired.foldl dropExpired inbox)

def assertCapacity (scope : HarnessWaitScope) : Except HarnessValidationError Unit := do
  require (inbox.entries.length < policy.maxSignals)
    ⟨"early-signal inbox reached its total retention bound", "early_signal_retention_exhausted",
      [("max_signals", .int policy.maxSignals)]⟩
  require ((inbox.entries.filter fun p => decide (p.2.signal.scope = scope)).length <
      policy.maxSignalsPerScope)
    ⟨"early-signal inbox reached its per-scope retention bound",
      "early_signal_scope_retention_exhausted", [("scope_ref", .str (c.checksum scope.toDict)),
        ("max_signals_per_scope", .int policy.maxSignalsPerScope)]⟩

/-- The rest of `put_signal`, after the inbox is pruned. -/
def admitSignal (signal : HarnessWaitSignal) :
    Except HarnessValidationError (HarnessSignalInboxEntry × SignalInbox) := do
  let oldestAccepted := inbox.highWatermark - policy.sequenceWindow
  require (¬ (signal.receivedSequence ≤ oldestAccepted ∧ inbox.highWatermark ≠ 0))
    ⟨"Wait signal is outside the bounded early-signal window", "early_signal_retention_expired",
      [("received_sequence", .int signal.receivedSequence),
        ("oldest_accepted_sequence", .int (oldestAccepted + 1))]⟩
  assertCapacity c policy inbox signal.scope
  let entry ← HarnessSignalInboxEntry.construct c
    { signal := signal, status := .early, signalMatch := none }
  return (entry, { inbox with
    entries := inbox.entries.set (signalKey signal) entry
    highWatermark := max inbox.highWatermark signal.receivedSequence })

/-- `put_signal`: what it returns or raises, and the inbox that it leaves. -/
def putSignal (signal : HarnessWaitSignal) (authorizedScope : HarnessWaitScope) :
    Except HarnessValidationError HarnessSignalInboxEntry × SignalInbox :=
  match validateSignalAuthorization signal authorizedScope with
  | .error e => (.error e, inbox)
  | .ok _ =>
    match inbox.entries.get? (signalKey signal) with
    | some existing =>
      if existing.signal.idempotencyProjection = signal.idempotencyProjection then
        (.ok existing, inbox)
      else (.error ⟨"Wait signal identity was reused with conflicting content",
        "wait_signal_identity_conflict", [("signal_id", .str signal.signalId)]⟩, inbox)
    | none =>
      let pruned := (pruneLocked c policy inbox signal.receivedSequence).2
      match admitSignal c policy pruned signal with
      | .error e => (.error e, pruned)
      | .ok (entry, admitted) => (.ok entry, admitted)

/-- The early signals of a scope. -/
def candidates (scope : HarnessWaitScope) : List HarnessSignalInboxEntry :=
  inbox.entries.values.filter fun e => decide (e.status = .early ∧ e.signal.scope = scope)

/-- The signal that is selected is matched. -/
def matchSelected (registration : HarnessWaitRegistrationRecord)
    (selected : HarnessSignalInboxEntry) (matchedSequence : ℤ) :
    Except HarnessValidationError (HarnessWaitSignalMatch × SignalInbox) := do
  validateSignalForRegistration registration selected.signal
  require ((selected.signal.receivedSequence : ℤ) ≤ matchedSequence)
    (invalid "signal match cannot precede signal receipt" "wait_signal_sequence_regression")
  let signalMatch : HarnessWaitSignalMatch :=
    { scope := registration.scope
      registrationRef := registration.registrationRef c
      signalRef := c.signalRef selected.signal
      matchedSequence := matchedSequence.toNat }
  let entry ← HarnessSignalInboxEntry.construct c
    { selected with status := .matched, signalMatch := some signalMatch }
  return (signalMatch, {
    entries := inbox.entries.set (signalKey selected.signal) entry
    signalMatches := inbox.signalMatches.set (registration.registrationRef c) signalMatch
    highWatermark := max inbox.highWatermark matchedSequence.toNat })

def consumeMatching (registration : HarnessWaitRegistrationRecord) (matchedSequence : ℤ) :
    Except HarnessValidationError (Option HarnessWaitSignalMatch × SignalInbox) := do
  require ((registration.registeredSequence : ℤ) ≤ matchedSequence)
    (invalid "signal match cannot precede Wait registration" "wait_signal_sequence_regression")
  match inbox.signalMatches.get? (registration.registrationRef c) with
  | some existing => return (some existing, inbox)
  | none =>
    match pyBest? (signalLt c) (inbox.candidates registration.scope) with
    | none => return (none, inbox)
    | some selected => do
      let (signalMatch, matched) ← matchSelected c inbox registration selected matchedSequence
      return (some signalMatch, matched)

def pruneEarlySignals (throughSequence : ℤ) :
    Except HarnessValidationError (List String × SignalInbox) := do
  require (0 ≤ throughSequence)
    (invalid "through_sequence must be a non-negative integer" "invalid_wait_sequence")
  return pruneLocked c policy inbox throughSequence.toNat

end

end SignalInbox

/-! ## Calls -/

/-- A call of the inbox. -/
inductive InboxCall where
  | putSignal (signal : HarnessWaitSignal) (authorizedScope : HarnessWaitScope)
  | consumeMatching (registration : HarnessWaitRegistrationRecord) (matchedSequence : ℤ)
  | pruneEarlySignals (throughSequence : ℤ)

/-- What a call returns. -/
inductive InboxAnswer where
  | entry (e : HarnessSignalInboxEntry)
  | matched (m : Option HarnessWaitSignalMatch)
  | pruned (refs : List String)
  deriving DecidableEq

/-- A call that changes nothing when it raises. -/
def allOrNothing {α : Type} (x : Except HarnessValidationError (α × SignalInbox))
    (answer : α → InboxAnswer) (inbox : SignalInbox) :
    Except HarnessValidationError InboxAnswer × SignalInbox :=
  match x with
  | .ok (a, inbox') => (.ok (answer a), inbox')
  | .error e => (.error e, inbox)

/-- One call: what it returns or raises, and the inbox that it leaves. -/
def InboxCall.apply (c : Checksums) (policy : HarnessEarlySignalRetentionPolicy)
    (inbox : SignalInbox) : InboxCall → Except HarnessValidationError InboxAnswer × SignalInbox
  | putSignal signal authorizedScope =>
    let answered := inbox.putSignal c policy signal authorizedScope
    (answered.1.map .entry, answered.2)
  | consumeMatching registration matchedSequence =>
    allOrNothing (inbox.consumeMatching c registration matchedSequence) .matched inbox
  | pruneEarlySignals throughSequence =>
    allOrNothing (inbox.pruneEarlySignals c policy throughSequence) .pruned inbox

end WaitInbox
