/-
# JSON texts

The values `json.dumps` writes and the compact text it writes for them with
sorted keys.  Digests are taken over these texts, so the writer is modelled; the
digest itself is a parameter of the models that use it.
-/
import AgoraHub.PyText

/-- A JSON value.  Object fields are listed in the order the source builds them. -/
inductive Json : Type where
  | null : Json
  | bool : Bool → Json
  | int : ℤ → Json
  | str : String → Json
  | arr : List Json → Json
  | obj : List (String × Json) → Json

namespace Json

/-- A text or `null`. -/
def optStr : Option String → Json
  | none => null
  | some s => str s

/-- Four lower-case hexadecimal digits. -/
def hex4 (n : ℕ) : String :=
  let digits := Nat.toDigits 16 n
  String.ofList (List.replicate (4 - digits.length) '0' ++ digits)

/-- One character of a JSON string, as `json.dumps(ensure_ascii=False)` writes it. -/
def escapeChar (c : Char) : String :=
  if c = '"' then "\\\""
  else if c = '\\' then "\\\\"
  else if c = '\n' then "\\n"
  else if c = '\r' then "\\r"
  else if c = '\t' then "\\t"
  else if c.toNat = 8 then "\\b"
  else if c.toNat = 12 then "\\f"
  else if c.toNat < 32 then "\\u" ++ hex4 c.toNat
  else String.ofList [c]

/-- A quoted JSON string. -/
def quote (s : String) : String :=
  "\"" ++ String.join (s.toList.map escapeChar) ++ "\""

/-- One written field per key, in key order: a later field of the same key wins. -/
def sortFields (fields : List (String × String)) : List (String × String) :=
  fields.insertionSort (fun a b => a.1 ≤ b.1)

mutual

/-- `json.dumps(value, ensure_ascii=False, sort_keys=True, separators=(",", ":"))`. -/
def dumps : Json → String
  | null => "null"
  | bool true => "true"
  | bool false => "false"
  | int n => toString n
  | str s => quote s
  | arr xs => "[" ++ ",".intercalate (dumpsItems xs) ++ "]"
  | obj fields =>
    "\x7b" ++ ",".intercalate
      ((sortFields (dumpsFields fields)).map (fun p => quote p.1 ++ ":" ++ p.2)) ++ "\x7d"

/-- The texts of the items of an array. -/
def dumpsItems : List Json → List String
  | [] => []
  | x :: xs => dumps x :: dumpsItems xs

/-- The texts of the fields of an object. -/
def dumpsFields : List (String × Json) → List (String × String)
  | [] => []
  | (k, x) :: fields => (k, dumps x) :: dumpsFields fields

end

mutual

/-- Equality of values, field by field. -/
def beq : Json → Json → Bool
  | null, null => true
  | bool a, bool b => a == b
  | int a, int b => a == b
  | str a, str b => a == b
  | arr xs, arr ys => beqItems xs ys
  | obj fs, obj gs => beqFields fs gs
  | _, _ => false

/-- Equality of the items of two arrays. -/
def beqItems : List Json → List Json → Bool
  | [], [] => true
  | x :: xs, y :: ys => beq x y && beqItems xs ys
  | _, _ => false

/-- Equality of the fields of two objects. -/
def beqFields : List (String × Json) → List (String × Json) → Bool
  | [], [] => true
  | (k, x) :: fs, (l, y) :: gs => k == l && (beq x y && beqFields fs gs)
  | _, _ => false

end

mutual

theorem beq_iff : ∀ a b : Json, beq a b = true ↔ a = b
  | null, b => by cases b <;> simp [beq]
  | bool x, b => by cases b <;> simp [beq]
  | int x, b => by cases b <;> simp [beq]
  | str x, b => by cases b <;> simp [beq]
  | arr xs, b => by cases b <;> simp [beq, beqItems_iff xs]
  | obj fs, b => by cases b <;> simp [beq, beqFields_iff fs]

theorem beqItems_iff : ∀ xs ys : List Json, beqItems xs ys = true ↔ xs = ys
  | [], ys => by cases ys <;> simp [beqItems]
  | x :: xs, ys => by cases ys <;> simp [beqItems, beq_iff x, beqItems_iff xs]

theorem beqFields_iff : ∀ fs gs : List (String × Json), beqFields fs gs = true ↔ fs = gs
  | [], gs => by cases gs <;> simp [beqFields]
  | (k, x) :: fs, gs => by
    cases gs with
    | nil => simp [beqFields]
    | cons g gs =>
      rcases g with ⟨l, y⟩
      simp [beqFields, beq_iff x, beqFields_iff fs, and_assoc]

end

instance : DecidableEq Json := fun a b => decidable_of_iff (beq a b = true) (beq_iff a b)

end Json

/-! ## Digests -/

/-- A lower-case hexadecimal digit. -/
def isHexDigit (c : Char) : Bool :=
  ('0' ≤ c && c ≤ '9') || ('a' ≤ c && c ≤ 'f')

/-- The text `sha256(...).hexdigest()`: 64 lower-case hexadecimal digits. -/
structure HexDigest where
  text : String
  length_eq : text.length = 64
  hex : ∀ c ∈ text.toList, isHexDigit c = true
  deriving DecidableEq

namespace HexDigest

theorem isSpace_of_isHexDigit {c : Char} (h : isHexDigit c = true) : PyText.isSpace c = false := by
  have hc : (48 ≤ c.toNat ∧ c.toNat ≤ 57) ∨ (97 ≤ c.toNat ∧ c.toNat ≤ 102) := by
    simp only [isHexDigit, Bool.or_eq_true, Bool.and_eq_true, decide_eq_true_eq] at h
    exact h
  simp only [PyText.isSpace, Bool.or_eq_false_iff, Bool.and_eq_false_iff, decide_eq_false_iff_not,
    beq_eq_false_iff_ne]
  omega

/-- The hexadecimal digit of a number below 16. -/
def digit (n : ℕ) : Char := if n < 10 then Char.ofNat (48 + n) else Char.ofNat (87 + n)

theorem isHexDigit_digit {n : ℕ} (h : n < 16) : isHexDigit (digit n) = true := by
  interval_cases n <;> decide

/-- The digest whose text is the 64 hexadecimal digits of `n`. -/
def ofNat (n : ℕ) : HexDigest where
  text := String.ofList ((List.range 64).map fun i => digit (n / 16 ^ (63 - i) % 16))
  length_eq := by simp
  hex c hc := by
    obtain ⟨i, -, rfl⟩ : ∃ i, i < 64 ∧ digit (n / 16 ^ (63 - i) % 16) = c := by simpa using hc
    exact isHexDigit_digit (Nat.mod_lt _ (by norm_num))

theorem getLast?_not_space (d : HexDigest) :
    ∀ c ∈ d.text.toList.getLast?, PyText.isSpace c = false := fun c hc =>
  isSpace_of_isHexDigit (d.hex c (List.mem_of_mem_getLast? hc))

theorem toList_ne_nil (d : HexDigest) : d.text.toList ≠ [] := by
  intro h
  have hlen := d.length_eq
  rw [← String.length_toList, h] at hlen
  simp at hlen

end HexDigest
