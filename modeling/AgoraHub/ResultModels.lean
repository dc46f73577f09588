/-
# Graph results and their errors

The enumerations that the records of a Graph run share, and the errors that the
stores behind them raise: a code and the field that failed.
-/
import AgoraHub.Fallible
import AgoraHub.PyJson

namespace GraphResult

open Fallible

inductive ArtifactClass where
  | control
  | evidence
  | transcript
  | intermediate
  | report
  | debug
  deriving DecidableEq

inductive RetentionClass where
  | ephemeral
  | run
  | evidence
  | report
  | cache
  deriving DecidableEq

/-- The members of `GraphArtifactResultErrorCode` that the modelled stores raise. -/
inductive GraphArtifactResultErrorCode where
  | resultSchemaInvalid
  | artifactQuotaExceeded
  | artifactQuotaReservationFailed
  | artifactQuotaSettlementFailed
  | artifactReadbackFailed
  | artifactScopeMismatch
  | artifactCatalogCorrupt
  | artifactCatalogNotFound
  | artifactReferenceConflict
  | policyVersionUnsupported
  | resultIdentityConflict
  | governanceLedgerFailed
  | gcPlanStale
  | gcOperationFailed
  | lifecycleAuthorizationInvalid
  | governanceRecordNotFound
  deriving DecidableEq

/-- `GraphArtifactResultError`: its code and the field it names. -/
structure GraphArtifactResultError where
  code : GraphArtifactResultErrorCode
  field : String
  deriving DecidableEq

def nonNegativeInt (value : ℤ) (field : String) : Except GraphArtifactResultError ℕ :=
  if 0 ≤ value then .ok value.toNat else .error ⟨.resultSchemaInvalid, field⟩

def positiveInt (value : ℤ) (field : String) : Except GraphArtifactResultError ℕ := do
  let normalized ← nonNegativeInt value field
  require (1 ≤ normalized) ⟨.resultSchemaInvalid, field⟩
  .ok normalized

@[simp] theorem nonNegativeInt_ofNat (n : ℕ) (field : String) : nonNegativeInt n field = .ok n := by
  simp [nonNegativeInt]

theorem positiveInt_ofNat {n : ℕ} (h : 1 ≤ n) (field : String) : positiveInt n field = .ok n := by
  simp [positiveInt, h]

/-- A checked positive number is the one given. -/
theorem of_positiveInt {value : ℤ} {field : String} {n : ℕ} (h : positiveInt value field = .ok n) :
    value = n ∧ 1 ≤ n := by
  obtain ⟨m, hm, h⟩ := bind_inv h
  obtain ⟨hpos, h⟩ := check_inv h
  have hvalue : m = n := ok_inj h
  subst hvalue
  refine ⟨?_, of_require hpos⟩
  unfold nonNegativeInt at hm
  split at hm
  · have := ok_inj hm
    omega
  · simp at hm

end GraphResult
