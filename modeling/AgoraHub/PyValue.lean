/-
# Plain values

What `json.dumps` can write: the values a payload, a metadata object or a reducer state is
made of, floating-point numbers included.  A finite float is told by its `repr`, the
shortest decimal text that reads back as it; two floats are the same exactly when their
texts are.  A value of zero is written as an integer by those who normalise it.
-/
import AgoraHub.PyJson

/-! ## Finite floats -/

namespace PyFloat

/-- One digit or more. -/
def isDigits (cs : List Char) : Bool := !cs.isEmpty && cs.all Char.isDigit

/-- `e`, a sign, and digits. -/
def isExponent : List Char → Bool
  | 'e' :: '+' :: cs => isDigits cs
  | 'e' :: '-' :: cs => isDigits cs
  | _ => false

/-- A whole number without a leading zero. -/
def isWhole (cs : List Char) : Bool := isDigits cs && (cs.head? != some '0' || cs.length == 1)

/-- What follows the whole part of a float: a fraction, an exponent, or both. -/
def isTail : List Char → Bool
  | '.' :: cs => isDigits (cs.takeWhile Char.isDigit) &&
      ((cs.dropWhile Char.isDigit).isEmpty || isExponent (cs.dropWhile Char.isDigit))
  | cs => isExponent cs

/-- The digits of a float, without its sign. -/
def isUnsigned (cs : List Char) : Bool :=
  isWhole (cs.takeWhile Char.isDigit) && isTail (cs.dropWhile Char.isDigit)

/-- The form of `repr` of a finite float. -/
def isRepr : List Char → Bool
  | '-' :: cs => isUnsigned cs
  | cs => isUnsigned cs

end PyFloat

/-- A finite `float`. -/
structure PyFloat where
  repr : String
  shape : PyFloat.isRepr repr.toList = true
  deriving DecidableEq

/-- `value == 0`: no digit before the exponent is another than zero. -/
def PyFloat.isZero (x : PyFloat) : Bool :=
  (x.repr.toList.takeWhile (· != 'e')).all fun c => !c.isDigit || c == '0'

/-! ## Values -/

/-- A plain value.  The fields of an object are listed in the order they were set in. -/
inductive PyValue : Type where
  | null : PyValue
  | bool : Bool → PyValue
  | int : ℤ → PyValue
  | float : PyFloat → PyValue
  | str : String → PyValue
  | arr : List PyValue → PyValue
  | obj : List (String × PyValue) → PyValue

namespace PyValue

/-- A text or `None`. -/
def optStr : Option String → PyValue
  | none => null
  | some s => str s

/-- Fields in the order of their keys. -/
def sortFields (fields : List (String × PyValue)) : List (String × PyValue) :=
  fields.insertionSort fun a b => a.1 ≤ b.1

mutual

/-- The value with the fields of every object in the order of their keys. -/
def canon : PyValue → PyValue
  | arr xs => arr (canonItems xs)
  | obj fields => obj (sortFields (canonFields fields))
  | value => value

/-- The items of an array in that form. -/
def canonItems : List PyValue → List PyValue
  | [] => []
  | x :: xs => canon x :: canonItems xs

/-- The values of the fields of an object in that form. -/
def canonFields : List (String × PyValue) → List (String × PyValue)
  | [] => []
  | (key, x) :: fields => (key, canon x) :: canonFields fields

end

mutual

/-- The compact text of a value, its fields in their order. -/
def text : PyValue → String
  | null => "null"
  | bool true => "true"
  | bool false => "false"
  | int n => toString n
  | float x => x.repr
  | str s => Json.quote s
  | arr xs => "[" ++ ",".intercalate (textItems xs) ++ "]"
  | obj fields => "\x7b" ++ ",".intercalate (textFields fields) ++ "\x7d"

/-- The texts of the items of an array. -/
def textItems : List PyValue → List String
  | [] => []
  | x :: xs => text x :: textItems xs

/-- The texts of the fields of an object. -/
def textFields : List (String × PyValue) → List String
  | [] => []
  | (key, x) :: fields => (Json.quote key ++ ":" ++ text x) :: textFields fields

end

/-- `stable_json_dumps`: compact, with sorted keys. -/
def stableJsonDumps (value : PyValue) : String := (canon value).text

mutual

/-- Equality of values, field by field. -/
def beq : PyValue → PyValue → Bool
  | null, null => true
  | bool a, bool b => a == b
  | int a, int b => a == b
  | float a, float b => a == b
  | str a, str b => a == b
  | arr xs, arr ys => beqItems xs ys
  | obj fs, obj gs => beqFields fs gs
  | _, _ => false

/-- Equality of the items of two arrays. -/
def beqItems : List PyValue → List PyValue → Bool
  | [], [] => true
  | x :: xs, y :: ys => beq x y && beqItems xs ys
  | _, _ => false

/-- Equality of the fields of two objects. -/
def beqFields : List (String × PyValue) → List (String × PyValue) → Bool
  | [], [] => true
  | (k, x) :: fs, (l, y) :: gs => k == l && (beq x y && beqFields fs gs)
  | _, _ => false

end

mutual

theorem beq_iff : ∀ a b : PyValue, beq a b = true ↔ a = b
  | null, b => by cases b <;> simp [beq]
  | bool x, b => by cases b <;> simp [beq]
  | int x, b => by cases b <;> simp [beq]
  | float x, b => by cases b <;> simp [beq]
  | str x, b => by cases b <;> simp [beq]
  | arr xs, b => by cases b <;> simp [beq, beqItems_iff xs]
  | obj fs, b => by cases b <;> simp [beq, beqFields_iff fs]

theorem beqItems_iff : ∀ xs ys : List PyValue, beqItems xs ys = true ↔ xs = ys
  | [], ys => by cases ys <;> simp [beqItems]
  | x :: xs, ys => by cases ys <;> simp [beqItems, beq_iff x, beqItems_iff xs]

theorem beqFields_iff : ∀ fs gs : List (String × PyValue), beqFields fs gs = true ↔ fs = gs
  | [], gs => by cases gs <;> simp [beqFields]
  | (k, x) :: fs, gs => by
    cases gs with
    | nil => simp [beqFields]
    | cons g gs =>
      rcases g with ⟨l, y⟩
      simp [beqFields, beq_iff x, beqFields_iff fs, and_assoc]

end

instance : DecidableEq PyValue := fun a b => decidable_of_iff (beq a b = true) (beq_iff a b)

/-- `"sha256:" + sha256(text.encode("utf-8")).hexdigest()` of the compact text of a value. -/
def checksum (sha256 : String → HexDigest) (value : PyValue) : String :=
  "sha256:" ++ (sha256 value.stableJsonDumps).text

end PyValue
