/-
# Graph identities

The identity of a Graph run, and of one activity of it.  A text of an identity is trimmed
and made of the characters that may stand in a reference; the version is exact, and the
reference and the checksum of the Graph belong to it.
-/
import AgoraHub.Fallible
import AgoraHub.PyValue

namespace GraphIdentity

open Fallible List PyText

/-- `ValueError` or `TypeError`. -/
inductive PyError where
  | valueError (message : String)
  | typeError (message : String)
  deriving DecidableEq

/-! ## Texts -/

/-- A character that may follow the first of a text. -/
def isIdentityChar (c : Char) : Bool :=
  c.isAlphanum || ['.', '_', ':', '+', '@', '/', '-'].contains c

/-- `_TEXT` -/
def isIdentityText : List Char → Bool
  | [] => false
  | c :: cs => c.isAlphanum && cs.all isIdentityChar && decide (cs.length ≤ 511)

/-- `_CHECKSUM` -/
def isChecksum (cs : List Char) : Bool :=
  cs.take 7 == ['s', 'h', 'a', '2', '5', '6', ':'] && (cs.drop 7).length == 64 && (cs.drop 7).all isHexDigit

/-- A text of an identity. -/
structure IdentityText where
  val : String
  valid : isIdentityText val.toList = true
  deriving DecidableEq

def requiredText (value : PyValue) (fieldName : String) : Except PyError IdentityText :=
  match value with
  | .str s =>
    if h : isIdentityText (PyText.strip s).toList = true then .ok ⟨PyText.strip s, h⟩
    else .error (.valueError (fieldName ++ " is invalid"))
  | _ => .error (.valueError (fieldName ++ " must be a string"))

/-- No character of an identity is white space. -/
theorem isSpace_of_isIdentityChar {c : Char} (h : isIdentityChar c = true) :
    isSpace c = false := by
  have hranges : (48 ≤ c.toNat ∧ c.toNat ≤ 122) ∨ c ∈ ['.', '_', ':', '+', '@', '/', '-'] := by
    have hletters : c.isAlphanum = (decide ('A'.val ≤ c.val ∧ c.val ≤ 'Z'.val) ||
        decide ('a'.val ≤ c.val) && decide (c.val ≤ 'z'.val) ||
        decide ('0'.val ≤ c.val) && decide (c.val ≤ '9'.val)) := rfl
    simp only [isIdentityChar, hletters, Bool.or_eq_true, Bool.and_eq_true, decide_eq_true_eq,
      contains_iff_mem, UInt32.le_iff_toNat_le] at h
    rcases h with ((h | h) | h) | h
    · exact Or.inl ⟨le_trans (by decide) h.1, le_trans h.2 (by decide)⟩
    · exact Or.inl ⟨le_trans (by decide) h.1, h.2⟩
    · exact Or.inl ⟨h.1, le_trans h.2 (by decide)⟩
    · exact Or.inr h
  rcases hranges with h | h
  · simp only [isSpace, Bool.or_eq_false_iff, Bool.and_eq_false_iff,
      decide_eq_false_iff_not, beq_eq_false_iff_ne]
    omega
  · simp only [mem_cons, not_mem_nil, or_false] at h
    rcases h with rfl | rfl | rfl | rfl | rfl | rfl | rfl <;> rfl

namespace IdentityText

theorem ext {a b : IdentityText} (h : a.val = b.val) : a = b := by
  cases a
  cases b
  simpa using h

/-- Every character of a text of an identity is of the allowed kind. -/
theorem isIdentityChar_of_mem (t : IdentityText) {c : Char} (hc : c ∈ t.val.toList) :
    isIdentityChar c = true := by
  have hvalid := t.valid
  rcases hlist : t.val.toList with _ | ⟨first, rest⟩
  · rw [hlist] at hc
    cases hc
  · rw [hlist] at hvalid hc
    simp only [isIdentityText, Bool.and_eq_true, all_eq_true] at hvalid
    rcases mem_cons.mp hc with rfl | hc
    · simp [isIdentityChar, hvalid.1.1]
    · exact hvalid.1.2 c hc

theorem strip_val (t : IdentityText) : PyText.strip t.val = t.val :=
  strip_eq_self
    (fun _ hc => isSpace_of_isIdentityChar (t.isIdentityChar_of_mem (mem_of_mem_head? hc)))
    (fun _ hc => isSpace_of_isIdentityChar (t.isIdentityChar_of_mem (mem_of_getLast? hc)))

theorem val_ne_empty (t : IdentityText) : t.val ≠ "" := by
  intro h
  have hvalid := t.valid
  rw [h] at hvalid
  cases hvalid

theorem length_le (t : IdentityText) : t.val.length ≤ 512 := by
  have hvalid := t.valid
  rw [← String.length_toList]
  rcases hlist : t.val.toList with _ | ⟨first, rest⟩
  · simp
  · rw [hlist] at hvalid
    simp only [isIdentityText, Bool.and_eq_true, decide_eq_true_eq] at hvalid
    rw [length_cons]
    omega

end IdentityText

/-! ## Identities -/

def movingVersions : List String := ["current", "default", "latest", "stable"]

structure GraphRunIdentity where
  runId : IdentityText
  graphId : IdentityText
  graphVersion : IdentityText
  graphRef : IdentityText
  graphChecksum : IdentityText
  exact : graphVersion.val.toLower ∉ movingVersions
  ref_eq : graphRef.val = graphId.val ++ "@" ++ graphVersion.val
  checksum : isChecksum graphChecksum.val.toList = true
  deriving DecidableEq

structure GraphExecutionIdentity extends GraphRunIdentity where
  nodeId : IdentityText
  nodeInstanceId : IdentityText
  activityId : IdentityText
  attempt : ℕ
  attempt_pos : attempt ≥ 1
  deriving DecidableEq

/-- The fields that name the Graph run. -/
def GraphRunIdentity.fields (identity : GraphRunIdentity) : List (String × PyValue) :=
  [("run_id", .str identity.runId.val), ("graph_id", .str identity.graphId.val),
    ("graph_version", .str identity.graphVersion.val), ("graph_ref", .str identity.graphRef.val),
    ("graph_checksum", .str identity.graphChecksum.val)]

/-- `GraphExecutionIdentity.to_dict` -/
def GraphExecutionIdentity.fields (identity : GraphExecutionIdentity) : List (String × PyValue) :=
  identity.toGraphRunIdentity.fields ++
    [("node_id", .str identity.nodeId.val), ("node_instance_id", .str identity.nodeInstanceId.val),
      ("activity_id", .str identity.activityId.val), ("attempt", .int identity.attempt)]

def GraphExecutionIdentity.toDict (identity : GraphExecutionIdentity) : PyValue :=
  .obj identity.fields

end GraphIdentity
