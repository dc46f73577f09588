/-
# Context groups

The complete groups that a context is made of: their members, the checks their constructor
makes and the snapshot that lists them.  The identity of a group is the digest of what it
says.
-/
import AgoraHub.Fallible
import AgoraHub.PyDynamic

namespace ContextCompaction

open Fallible List
open Json (quote)

/-- What planning and execution raise. -/
inductive CompactionError where
  | validation (message : String)
  | keyError (key : String)
  | typeError
  deriving DecidableEq

/-! ## Texts -/

/-- A trimmed text that is not empty. -/
structure Ref where
  val : String
  trimmed : PyText.strip val = val
  nonempty : val ≠ ""

theorem Ref.ext {a b : Ref} (h : a.val = b.val) : a = b := by
  cases a
  cases b
  simpa using h

instance : DecidableEq Ref := fun _ _ => decidable_of_iff _ ⟨Ref.ext, congrArg Ref.val⟩

/-- The text of a literal. -/
def Ref.ofLiteral (val : String) (h : decide (PyText.strip val = val ∧ val ≠ "") = true) : Ref :=
  ⟨val, (of_decide_eq_true h).1, (of_decide_eq_true h).2⟩

/-- `required_text`, of the characters of a value that is a text. -/
def requiredText (value : Option String) (field : String) : Except CompactionError Ref :=
  match value with
  | none => .error (.validation (field ++ " must be a non-empty string"))
  | some s =>
    if hempty : PyText.strip s = "" then
      .error (.validation (field ++ " must be a non-empty string"))
    else .ok ⟨PyText.strip s, PyText.strip_strip s, hempty⟩

/-- `text_tuple`, of the characters of the values that are texts. -/
def textTuple (values : List (Option String)) (field : String) (required : Bool := false) :
    Except CompactionError (List Ref) := do
  let result ← values.mapM fun item => requiredText item field
  require (required = true → result ≠ []) (.validation (field ++ " must not be empty"))
  require result.Nodup (.validation (field ++ " must not contain duplicates"))
  .ok result

/-! ## Written form -/

/-- The compact text of an object with these written fields. -/
def objectText (fields : List (String × String)) : String :=
  "\x7b" ++ ",".intercalate ((Json.sortFields fields).map fun p => quote p.1 ++ ":" ++ p.2) ++
    "\x7d"

/-- The compact text of an array with these written items. -/
def arrayText (items : List String) : String := "[" ++ ",".intercalate items ++ "]"

/-- The compact text of a text or `None`. -/
def optText (value : Option Ref) : String :=
  match value with
  | none => "null"
  | some ref => quote ref.val

/-- The compact text of a list of texts. -/
def refsText (refs : List Ref) : String := arrayText (refs.map fun ref => quote ref.val)

/-- `identity`: the digest of a projection behind its prefix. -/
def identity (sha256 : String → HexDigest) (kind projection : String) : String :=
  kind ++ "://" ++ (sha256 projection).text

section Metadata

variable {V : Type} [PyDynamic V]

/-- Metadata that `json.dumps` can write. -/
def Writable (metadata : PyDict String V) : Prop :=
  ∀ p ∈ metadata, (PyDynamic.json? p.2).isSome = true

instance (metadata : PyDict String V) : Decidable (Writable metadata) :=
  inferInstanceAs (Decidable (∀ p ∈ metadata, _))

/-- The compact text of metadata that can be written. -/
def metadataText (metadata : PyDict String V) : String :=
  objectText (metadata.map fun p => (p.1, (PyDynamic.json? p.2).getD ""))

end Metadata

/-! ## Kinds -/

inductive ContextGroupKind where
  | systemInstruction | graphContract | currentTask | outputContract | runState
  | toolTransaction | evidence | conversationTurn | memoryReference | reconstructable
  | authorizedToolSchema
  deriving DecidableEq

def ContextGroupKind.value : ContextGroupKind → String
  | systemInstruction => "system_instruction"
  | graphContract => "graph_contract"
  | currentTask => "current_task"
  | outputContract => "output_contract"
  | runState => "run_state"
  | toolTransaction => "tool_transaction"
  | evidence => "evidence"
  | conversationTurn => "conversation_turn"
  | memoryReference => "memory_reference"
  | reconstructable => "reconstructable"
  | authorizedToolSchema => "authorized_tool_schema"

inductive ContextGroupMemberKind where
  | message | control | schema | toolCall | toolResult | evidenceSpan | reference
  deriving DecidableEq

def ContextGroupMemberKind.value : ContextGroupMemberKind → String
  | message => "message"
  | control => "control"
  | schema => "schema"
  | toolCall => "tool_call"
  | toolResult => "tool_result"
  | evidenceSpan => "evidence_span"
  | reference => "reference"

inductive ContextProtectionReason where
  | globalPolicy | safetyConstraint | graphContract | currentTask | outputContract
  | pendingToolTransaction | retryReplanState | requiredEvidence | controlDecision
  deriving DecidableEq

def ContextProtectionReason.value : ContextProtectionReason → String
  | globalPolicy => "global_policy"
  | safetyConstraint => "safety_constraint"
  | graphContract => "graph_contract"
  | currentTask => "current_task"
  | outputContract => "output_contract"
  | pendingToolTransaction => "pending_tool_transaction"
  | retryReplanState => "retry_replan_state"
  | requiredEvidence => "required_evidence"
  | controlDecision => "control_decision"

inductive ContextReconstructionPolicy where
  | none | durableRef | sourceRetrieval
  deriving DecidableEq

def ContextReconstructionPolicy.value : ContextReconstructionPolicy → String
  | none => "none"
  | durableRef => "durable_ref"
  | sourceRetrieval => "source_retrieval"

inductive ContextToolTransactionState where
  | notApplicable | completed | pending | unresolved | failed
  deriving DecidableEq

def ContextToolTransactionState.value : ContextToolTransactionState → String
  | notApplicable => "not_applicable"
  | completed => "completed"
  | pending => "pending"
  | unresolved => "unresolved"
  | failed => "failed"

/-! ## Members -/

structure ContextGroupMember (V : Type) [PyDynamic V] where
  memberKind : ContextGroupMemberKind
  contentRef : Ref
  ordinal : ℕ
  role : Option Ref
  toolCallId : Option Ref
  sourceRefs : List Ref
  semanticMetadata : PyDict String V
  schemaRevision : Ref
  sourcesDistinct : sourceRefs.Nodup
  writable : Writable semanticMetadata

variable {V : Type} [PyDynamic V]

namespace ContextGroupMember

/-- `identity_projection`, written. -/
def identityProjection (member : ContextGroupMember V) : String :=
  objectText [("schema_revision", quote member.schemaRevision.val),
    ("member_kind", quote member.memberKind.value),
    ("content_ref", quote member.contentRef.val), ("ordinal", toString member.ordinal),
    ("role", optText member.role), ("tool_call_id", optText member.toolCallId),
    ("source_refs", refsText member.sourceRefs),
    ("semantic_metadata", metadataText member.semanticMetadata)]

def memberId (sha256 : String → HexDigest) (member : ContextGroupMember V) : String :=
  identity sha256 "context-member" member.identityProjection

end ContextGroupMember

/-! ## Groups -/

/-- The arguments of the constructor of a group, their texts trimmed. -/
structure ContextGroupFields (V : Type) [PyDynamic V] where
  groupKind : ContextGroupKind
  members : List (ContextGroupMember V)
  sourceRefs : List Ref
  protectionReasons : List ContextProtectionReason
  reconstructionPolicy : ContextReconstructionPolicy
  reconstructionRef : Option Ref
  toolTransactionState : ContextToolTransactionState
  queryBindingRef : Option Ref
  requiredCitationRefs : List Ref
  semanticMetadata : PyDict String V
  schemaRevision : Ref

namespace ContextGroupFields

section

variable (fields : ContextGroupFields V)

def validateToolTransaction : Except CompactionError Unit := do
  let callMembers := fields.members.filter fun m => m.memberKind == .toolCall
  let resultMembers := fields.members.filter fun m => m.memberKind == .toolResult
  require (callMembers.length = 1)
    (.validation "tool transaction must contain exactly one tool-call member")
  let callId := callMembers.head?.bind ContextGroupMember.toolCallId
  require (callId.isSome = true ∧ ∀ m ∈ resultMembers, m.toolCallId = callId)
    (.validation "tool result members must match the transaction call id")
  require (fields.toolTransactionState = .completed → resultMembers ≠ [])
    (.validation "completed tool transaction requires at least one tool result")
  require (fields.toolTransactionState = .pending ∨ fields.toolTransactionState = .unresolved →
      ContextProtectionReason.pendingToolTransaction ∈ fields.protectionReasons)
    (.validation "pending or unresolved tool transaction must be protected")

/-- The part of the check that concerns tool transactions. -/
def validateTransactionState : Except CompactionError Unit :=
  if fields.groupKind = .toolTransaction then fields.validateToolTransaction
  else require (fields.toolTransactionState = .notApplicable)
    (.validation "tool_transaction_state applies only to tool transaction groups")

/-- The checks of `ContextGroup.__post_init__`. -/
def check : Except CompactionError Unit := do
  require (fields.members ≠ []) (.validation "members must be a non-empty list")
  require (fields.members.map ContextGroupMember.ordinal = List.range fields.members.length)
    (.validation "member ordinals must be contiguous and ordered")
  require (fields.sourceRefs ≠ []) (.validation "source_refs must not be empty")
  require fields.sourceRefs.Nodup (.validation "source_refs must not contain duplicates")
  require fields.protectionReasons.Nodup
    (.validation "protection_reasons must not contain duplicates")
  require (fields.reconstructionPolicy = .none → fields.reconstructionRef = none)
    (.validation "reconstruction_ref requires a non-none reconstruction_policy")
  require (fields.reconstructionPolicy ≠ .none → fields.reconstructionRef ≠ none)
    (.validation "reconstruction_policy requires reconstruction_ref")
  fields.validateTransactionState
  require fields.requiredCitationRefs.Nodup
    (.validation "required_citation_refs must not contain duplicates")
  require (Writable fields.semanticMetadata) .typeError

end

/-- What the checks of the constructor come to. -/
structure Valid (fields : ContextGroupFields V) : Prop where
  members_nonempty : fields.members ≠ []
  ordinals : fields.members.map ContextGroupMember.ordinal = List.range fields.members.length
  sources_nonempty : fields.sourceRefs ≠ []
  sources_distinct : fields.sourceRefs.Nodup
  reasons_distinct : fields.protectionReasons.Nodup
  ref_none : fields.reconstructionPolicy = .none → fields.reconstructionRef = none
  ref_some : fields.reconstructionPolicy ≠ .none → fields.reconstructionRef ≠ none
  transaction : fields.validateTransactionState = .ok ()
  citations_distinct : fields.requiredCitationRefs.Nodup
  writable : Writable fields.semanticMetadata

theorem check_eq_ok {fields : ContextGroupFields V} : fields.check = .ok () ↔ fields.Valid := by
  unfold check
  simp only [check_bind_eq_ok, require_eq_ok]
  constructor
  · rintro ⟨h₁, h₂, h₃, h₄, h₅, h₆, h₇, h₈, h₉, h₁₀⟩
    exact ⟨h₁, h₂, h₃, h₄, h₅, h₆, h₇, h₈, h₉, h₁₀⟩
  · rintro ⟨h₁, h₂, h₃, h₄, h₅, h₆, h₇, h₈, h₉, h₁₀⟩
    exact ⟨h₁, h₂, h₃, h₄, h₅, h₆, h₇, h₈, h₉, h₁₀⟩

end ContextGroupFields

structure ContextGroup (V : Type) [PyDynamic V] extends ContextGroupFields V where
  valid : toContextGroupFields.check = .ok ()

namespace ContextGroup

/-- The constructor of a group. -/
def construct (fields : ContextGroupFields V) : Except CompactionError (ContextGroup V) :=
  match h : fields.check with
  | .ok () => .ok ⟨fields, h⟩
  | .error e => .error e

variable (group : ContextGroup V)

theorem isValid : group.toContextGroupFields.Valid :=
  ContextGroupFields.check_eq_ok.mp group.valid

/-- `protected` -/
def isProtected : Bool := !group.protectionReasons.isEmpty

/-- `identity_projection`, written. -/
def identityProjection : String :=
  objectText [("schema_revision", quote group.schemaRevision.val),
    ("group_kind", quote group.groupKind.value),
    ("members", arrayText (group.members.map ContextGroupMember.identityProjection)),
    ("source_refs", refsText group.sourceRefs), ("protection_reasons",
      arrayText (group.protectionReasons.map fun reason => quote reason.value)),
    ("reconstruction_policy", quote group.reconstructionPolicy.value),
    ("reconstruction_ref", optText group.reconstructionRef),
    ("tool_transaction_state", quote group.toolTransactionState.value),
    ("query_binding_ref", optText group.queryBindingRef),
    ("required_citation_refs", refsText group.requiredCitationRefs),
    ("semantic_metadata", metadataText group.semanticMetadata)]

def groupId (sha256 : String → HexDigest) (group : ContextGroup V) : String :=
  identity sha256 "context-group" group.identityProjection

end ContextGroup

/-! ## Snapshots -/

inductive ContextSemanticSnapshotKind where
  | source | result | rejectedResult
  deriving DecidableEq

def ContextSemanticSnapshotKind.value : ContextSemanticSnapshotKind → String
  | source => "source"
  | result => "result"
  | rejectedResult => "rejected_result"

/-- The arguments of the constructor of a snapshot, their texts trimmed. -/
structure SnapshotFields (V : Type) [PyDynamic V] where
  runId : Ref
  stageId : Option Ref
  taskBindingRef : Ref
  groups : List (ContextGroup V)
  policyRevision : Ref
  physicalProfileRevision : Option Ref
  parentSnapshotId : Option Ref
  snapshotKind : ContextSemanticSnapshotKind
  schemaRevision : Ref

/-- The checks of `ContextSemanticSnapshot.__post_init__`. -/
def SnapshotFields.check (sha256 : String → HexDigest) (fields : SnapshotFields V) :
    Except CompactionError Unit := do
  require (fields.groups ≠ []) (.validation "groups must contain at least one ContextGroup")
  require (fields.groups.map (ContextGroup.groupId sha256)).Nodup
    (.validation "snapshot groups must have unique identities")
  require (fields.snapshotKind = .source → fields.parentSnapshotId = none)
    (.validation "source snapshot must not have a parent snapshot")
  require (fields.snapshotKind ≠ .source → fields.parentSnapshotId ≠ none)
    (.validation "result snapshot requires parent_snapshot_id")

structure ContextSemanticSnapshot (sha256 : String → HexDigest) (V : Type) [PyDynamic V] extends
    SnapshotFields V where
  valid : toSnapshotFields.check sha256 = .ok ()

namespace ContextSemanticSnapshot

variable {sha256 : String → HexDigest}

/-- The constructor of a snapshot. -/
def construct (fields : SnapshotFields V) :
    Except CompactionError (ContextSemanticSnapshot sha256 V) :=
  match h : fields.check sha256 with
  | .ok () => .ok ⟨fields, h⟩
  | .error e => .error e

variable (snapshot : ContextSemanticSnapshot sha256 V)

/-- `identity_projection`, written. -/
def identityProjection : String :=
  objectText [("schema_revision", quote snapshot.schemaRevision.val),
    ("run_id", quote snapshot.runId.val), ("stage_id", optText snapshot.stageId),
    ("task_binding_ref", quote snapshot.taskBindingRef.val),
    ("groups", arrayText (snapshot.groups.map ContextGroup.identityProjection)),
    ("policy_revision", quote snapshot.policyRevision.val),
    ("physical_profile_revision", optText snapshot.physicalProfileRevision),
    ("parent_snapshot_id", optText snapshot.parentSnapshotId),
    ("snapshot_kind", quote snapshot.snapshotKind.value)]

def snapshotId : String := identity sha256 "context-snapshot-v2" snapshot.identityProjection

def checksum : String := "sha256:" ++ (sha256 snapshot.identityProjection).text

/-- The identities of the groups. -/
def groupIds : List String := snapshot.groups.map (ContextGroup.groupId sha256)

theorem nodup_groupIds : snapshot.groupIds.Nodup := by
  have h := snapshot.valid
  unfold SnapshotFields.check at h
  exact of_require (check_inv (check_inv h).2).1

end ContextSemanticSnapshot

/-! ## Identities as texts -/

/-- A digest behind a name is a trimmed text. -/
theorem strip_identity (sha256 : String → HexDigest) {kind projection : String} {first : Char}
    (hfirst : kind.toList.head? = some first) (hspace : PyText.isSpace first = false) :
    PyText.strip (identity sha256 kind projection) = identity sha256 kind projection := by
  have hne : kind.toList ≠ [] := by
    intro h
    rw [h] at hfirst
    cases hfirst
  refine PyText.strip_eq_self ?_ ?_
  · intro c hc
    unfold identity at hc
    rw [String.toList_append, String.toList_append, append_assoc,
      head?_append_of_ne_nil _ hne, hfirst] at hc
    obtain rfl := Option.mem_some_iff.mp hc
    exact hspace
  · intro c hc
    unfold identity at hc
    rw [String.toList_append, getLast?_append_of_ne_nil _ (HexDigest.toList_ne_nil _)] at hc
    exact HexDigest.getLast?_not_space _ c hc

theorem identity_ne_empty (sha256 : String → HexDigest) (kind projection : String) :
    identity sha256 kind projection ≠ "" := by
  intro h
  have hlist := congrArg String.toList h
  unfold identity at hlist
  rw [String.toList_append] at hlist
  exact HexDigest.toList_ne_nil _ (append_eq_nil_iff.mp hlist).2

namespace ContextGroup

variable (sha256 : String → HexDigest) (group : ContextGroup V)

theorem strip_groupId : PyText.strip (group.groupId sha256) = group.groupId sha256 :=
  strip_identity sha256 (show _ = some 'c' by decide) (by decide)

theorem groupId_ne_empty : group.groupId sha256 ≠ "" := identity_ne_empty sha256 _ _

end ContextGroup

end ContextCompaction
