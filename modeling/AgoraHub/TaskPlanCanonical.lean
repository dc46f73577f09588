/-
# Task-plan contract checks

The text, reference, checksum and integer checks that every task-plan contract
makes on its fields, with the error each of them raises.

Texts are sequences of Unicode scalar values (what can be written as UTF-8), and
integers that the source requires to be non-negative are natural numbers.
-/
import AgoraHub.Fallible
import AgoraHub.PyDict
import AgoraHub.PyJson

namespace TaskPlan

open Fallible PyText List

/-! ## Errors -/

/-- `HarnessValidationError`: its message, its code and its details. -/
structure HarnessValidationError where
  message : String
  code : String
  details : List (String × Json)

/-- `_contract_error`: the details repeat the code. -/
def contractError (code message : String) (details : List (String × Json)) :
    HarnessValidationError :=
  ⟨message, code, ("code", .str code) :: details⟩

/-! ## Text -/

/-- `[A-Za-z0-9]`. -/
def isAlphanumeric (c : Char) : Bool :=
  ('A' ≤ c && c ≤ 'Z') || ('a' ≤ c && c ≤ 'z') || ('0' ≤ c && c ≤ '9')

/-- `[A-Za-z0-9._:/+-]`. -/
def isIdentifierChar (c : Char) : Bool :=
  isAlphanumeric c || ['.', '_', ':', '/', '+', '-'].contains c

/-- `[A-Za-z0-9._+-]`. -/
def isVersionChar (c : Char) : Bool :=
  isAlphanumeric c || ['.', '_', '+', '-'].contains c

/-- One alphanumeric character, then characters that satisfy `p`. -/
def isWord (p : Char → Bool) : List Char → Bool
  | [] => false
  | c :: cs => isAlphanumeric c && cs.all p

/-- `_IDENTIFIER_PATTERN.fullmatch`. -/
def isIdentifier (value : String) : Bool := isWord isIdentifierChar value.toList

def movingVersionAliases : List String := ["current", "default", "latest", "stable"]

/-- `_EXACT_REFERENCE_PATTERN.fullmatch` with a version that is not a moving alias. -/
def isExactReference (value : String) : Bool :=
  match value.toList.splitOn '@' with
  | [name, version] =>
    isWord isIdentifierChar name && isWord isVersionChar version &&
      !movingVersionAliases.contains (String.ofList (version.map Char.toLower))
  | _ => false

/-- `_CHECKSUM_PATTERN.fullmatch`. -/
def isChecksum (value : String) : Bool :=
  match value.toList with
  | 's' :: 'h' :: 'a' :: '2' :: '5' :: '6' :: ':' :: digits =>
    digits.length = 64 && digits.all isHexDigit
  | _ => false

def requiredText (value fieldName : String) (maxLength : ℕ) :
    Except HarnessValidationError Unit := do
  require (strip value = value ∧ value ≠ "")
    (contractError "task_plan_required_field"
      (fieldName ++ " must be a non-blank trimmed string") [("field", .str fieldName)])
  require (value.length ≤ maxLength)
    (contractError "task_plan_field_too_long" (fieldName ++ " exceeds its maximum length")
      [("field", .str fieldName), ("max_length", .int maxLength)])

def identifier (value fieldName : String) : Except HarnessValidationError Unit := do
  requiredText value fieldName 512
  require (isIdentifier value = true)
    (contractError "invalid_task_plan_identifier" (fieldName ++ " must be a stable identifier")
      [("field", .str fieldName)])

def exactReference (value fieldName : String) : Except HarnessValidationError Unit := do
  requiredText value fieldName 512
  require (isExactReference value = true)
    (contractError "task_plan_inexact_reference"
      (fieldName ++ " must use exact '<id>@<version>' form")
      [("field", .str fieldName), ("reference", .str value)])

def checksum (value fieldName : String) : Except HarnessValidationError Unit := do
  requiredText value fieldName 512
  require (isChecksum value = true)
    (contractError "invalid_task_plan_checksum"
      (fieldName ++ " must use sha256:<64 lowercase hex> form") [("field", .str fieldName)])

/-- `[A-Za-z][A-Za-z0-9+.-]*://[^\s]+`. -/
def isUri (value : String) : Bool :=
  let isSchemeChar (c : Char) := isAlphanumeric c || ['+', '.', '-'].contains c
  let scheme := value.toList.takeWhile isSchemeChar
  scheme.head?.any (fun c => isAlphanumeric c && !c.isDigit) &&
    match value.toList.drop scheme.length with
    | ':' :: '/' :: '/' :: rest => rest ≠ [] && rest.all fun c => !isSpace c
    | _ => false

def reference (value fieldName : String) : Except HarnessValidationError Unit := do
  requiredText value fieldName 2048
  require (isUri value = true ∨ isIdentifier value = true)
    (contractError "invalid_task_plan_reference" (fieldName ++ " must be a stable reference")
      [("field", .str fieldName)])

/-- `stable_text_tuple`: distinct values that pass a check, in order. -/
def stableTextTuple (check : String → String → Except HarnessValidationError Unit)
    (values : List String) (fieldName : String) (allowEmpty : Bool) :
    Except HarnessValidationError (List String) := do
  values.forM (check · fieldName)
  require (allowEmpty = true ∨ values ≠ [])
    (contractError "invalid_task_plan_collection" (fieldName ++ " must not be empty")
      [("field", .str fieldName)])
  require values.Nodup
    (contractError "duplicate_task_plan_collection_value"
      (fieldName ++ " must contain unique values") [("field", .str fieldName)])
  return sorted values

/-- What follows `task://` or `task:` in a reference, with the one that it starts with. -/
def taskReferenceRemainder (value : String) : Option (String × List Char) :=
  match value.toList with
  | 't' :: 'a' :: 's' :: 'k' :: ':' :: '/' :: '/' :: rest => some ("task://", rest)
  | 't' :: 'a' :: 's' :: 'k' :: ':' :: rest => some ("task:", rest)
  | _ => none

def taskReferenceProducer (value : String) (knownTaskIds : List String) :
    Except HarnessValidationError (Option String) := do
  reference value "input_ref"
  match taskReferenceRemainder value with
  | some (_, rest) =>
    let producer := String.ofList ((rest.takeWhile fun c => c ≠ '/').takeWhile fun c => c ≠ '#')
    require (producer ≠ "")
      (contractError "invalid_task_plan_reference"
        "task input reference must identify a producer task" [("field", .str "input_ref")])
    identifier producer "producer_task_id"
    return some producer
  | none => return if value ∈ knownTaskIds then some value else none

/-- `positive_int`, on a value that is not negative. -/
def positiveInt (value : ℕ) (fieldName : String) : Except HarnessValidationError Unit :=
  require (0 < value)
    (contractError "invalid_task_plan_limit" (fieldName ++ " must be greater than zero")
      [("field", .str fieldName)])

theorem requiredText_eq_ok {value fieldName : String} {maxLength : ℕ} {u : Unit} :
    requiredText value fieldName maxLength = .ok u ↔
      strip value = value ∧ value ≠ "" ∧ value.length ≤ maxLength := by
  unfold requiredText
  rw [check_bind_eq_ok, require_eq_ok, require_eq_ok, and_assoc]

theorem positiveInt_eq_ok {value : ℕ} {fieldName : String} {u : Unit} :
    positiveInt value fieldName = .ok u ↔ 0 < value := require_eq_ok

/-! ## Canonical checksums -/

/-- `canonical_payload_checksum`: the tagged digest of the canonical JSON text. -/
def canonicalPayloadChecksum (sha256 : String → HexDigest) (payload : Json) : String :=
  "sha256:" ++ (sha256 payload.dumps).text

theorem toList_canonicalPayloadChecksum (sha256 : String → HexDigest) (payload : Json) :
    (canonicalPayloadChecksum sha256 payload).toList =
      's' :: 'h' :: 'a' :: '2' :: '5' :: '6' :: ':' :: (sha256 payload.dumps).text.toList := by
  rw [canonicalPayloadChecksum, String.toList_append]
  rfl

/-- A computed checksum passes the checksum check. -/
theorem checksum_canonicalPayloadChecksum (sha256 : String → HexDigest) (payload : Json)
    (fieldName : String) :
    checksum (canonicalPayloadChecksum sha256 payload) fieldName = .ok () := by
  set d := sha256 payload.dumps with hd
  have hlist := toList_canonicalPayloadChecksum sha256 payload
  rw [← hd] at hlist
  have hlen : d.text.toList.length = 64 := by rw [String.length_toList, d.length_eq]
  unfold checksum
  rw [check_bind_eq_ok, requiredText_eq_ok, require_eq_ok]
  refine ⟨⟨?_, ?_, ?_⟩, ?_⟩
  · apply strip_eq_self
    · rw [hlist]
      simp [isSpace]
    · -- the last character is the last digit of the digest
      rw [canonicalPayloadChecksum, String.toList_append,
        getLast?_append_of_ne_nil _ d.toList_ne_nil]
      exact d.getLast?_not_space
  · intro h
    rw [h] at hlist
    simp at hlist
  · rw [← String.length_toList, hlist]
    simp only [length_cons, hlen]
    norm_num
  · unfold isChecksum
    rw [hlist]
    simp only [hlen, Bool.and_eq_true, all_eq_true]
    exact ⟨rfl, d.hex⟩

/-- A hexadecimal digit may stand in an identifier. -/
theorem isIdentifierChar_of_isHexDigit {c : Char} (h : isHexDigit c = true) :
    isIdentifierChar c = true := by
  have halpha : isAlphanumeric c = true := by
    unfold isHexDigit at h
    unfold isAlphanumeric
    simp only [Bool.or_eq_true, Bool.and_eq_true, decide_eq_true_eq] at h ⊢
    rcases h with h | ⟨ha, hf⟩
    · exact Or.inr h
    · exact Or.inl (Or.inr ⟨ha, hf.trans (by decide)⟩)
  unfold isIdentifierChar
  rw [halpha, Bool.true_or]

/-- A digest behind a prefix that starts like an identifier is an identifier. -/
theorem identifier_append_digest {pre : String} (d : HexDigest) {fieldName : String}
    (hpre : isIdentifier pre = true) (hspace : pre.toList.head?.any isSpace = false)
    (hlen : pre.length ≤ 448) : identifier (pre ++ d.text) fieldName = .ok () := by
  have hne : pre.toList ≠ [] := by
    intro h
    unfold isIdentifier isWord at hpre
    rw [h] at hpre
    cases hpre
  unfold identifier
  rw [check_bind_eq_ok, requiredText_eq_ok, require_eq_ok]
  refine ⟨⟨?_, ?_, ?_⟩, ?_⟩
  · apply strip_eq_self
    · rw [String.toList_append, head?_append_of_ne_nil _ hne]
      intro c hc
      rwa [Option.mem_def.mp hc, Option.any_some] at hspace
    · rw [String.toList_append, getLast?_append_of_ne_nil _ d.toList_ne_nil]
      exact d.getLast?_not_space
  · intro h
    have hnil := congrArg String.toList h
    rw [String.toList_append] at hnil
    exact d.toList_ne_nil (append_eq_nil_iff.mp hnil).2
  · rw [String.length_append, d.length_eq]
    omega
  · unfold isIdentifier at hpre ⊢
    rw [String.toList_append]
    cases hp : pre.toList with
    | nil => exact absurd hp hne
    | cons c cs =>
      rw [hp] at hpre
      unfold isWord at hpre ⊢
      rw [cons_append]
      simp only [Bool.and_eq_true, all_append] at hpre ⊢
      refine ⟨hpre.1, hpre.2, ?_⟩
      rw [all_eq_true]
      exact fun c hc => isIdentifierChar_of_isHexDigit (d.hex c hc)

def verifyChecksum (supplied computed fieldName model : String) :
    Except HarnessValidationError Unit :=
  require (supplied = computed)
    ⟨model ++ " checksum does not match canonical content", "task_plan_checksum_mismatch",
      [("model", .str model), ("field", .str fieldName)]⟩

end TaskPlan
