/-
# Numbers in text and in floating point

`int(text)`, the two forms of `str.split`, and the two places where the source goes
through a `float`: the seconds of a `timedelta`, and their floor division by a whole
number of seconds.
-/
import AgoraHub.PyText
import Mathlib.Data.Nat.Log

namespace PyNumber

/-! ## Text -/

/-- `text.split()`. -/
def words (text : String) : List String :=
  ((text.toList.splitOnP PyText.isSpace).filter (· ≠ [])).map String.ofList

/-- `text.split(sep)` for a separator of one character. -/
def splitAt (sep : Char) (text : String) : List String :=
  (text.toList.splitOnP (· = sep)).map String.ofList

/-- The code points of the decimal zeros; the nine code points after each are the other digits. -/
def decimalZeros : List ℕ :=
  [48, 1632, 1776, 1984, 2406, 2534, 2662, 2790, 2918, 3046, 3174, 3302, 3430, 3558, 3664, 3792,
    3872, 4160, 4240, 6112, 6160, 6470, 6608, 6784, 6800, 6992, 7088, 7232, 7248, 42528, 43216,
    43264, 43472, 43504, 43600, 44016, 65296, 66720, 68912, 69734, 69872, 69942, 70096, 70384,
    70736, 70864, 71248, 71360, 71472, 71904, 72016, 72784, 73040, 73120, 92768, 92864, 93008,
    120782, 120792, 120802, 120812, 120822, 123200, 123632, 125264, 130032]

/-- The value of a decimal digit. -/
def digit? (c : Char) : Option ℕ :=
  (decimalZeros.find? fun z => z ≤ c.toNat ∧ c.toNat ≤ z + 9).map fun z => c.toNat - z

/-- Digits, with single underscores between them. -/
def digits? : List Char → Option (List ℕ)
  | [] => none
  | [c] => (digit? c).map fun d => [d]
  | c :: '_' :: rest => do
    let d ← digit? c
    let ds ← digits? rest
    some (d :: ds)
  | c :: rest => do
    let d ← digit? c
    let ds ← digits? rest
    some (d :: ds)

/-- The number that the digits spell; more than 4300 of them are refused. -/
def natural? (cs : List Char) : Option ℕ := do
  let ds ← digits? cs
  if ds.length ≤ 4300 then some (ds.foldl (fun n d => 10 * n + d) 0) else none

/-- `int(text)`. -/
def int? (text : String) : Option ℤ :=
  match (PyText.strip text).toList with
  | '-' :: cs => (natural? cs).map fun n => -(n : ℤ)
  | '+' :: cs => (natural? cs).map fun n => (n : ℤ)
  | cs => (natural? cs).map fun n => (n : ℤ)

/-! ## Seconds in floating point -/

/-- The fraction bits of the double nearest to `micros / 10 ^ 6`, which has 53 significant bits. -/
def fractionBits (micros : ℕ) : ℕ := 72 - Nat.log2 (micros * 2 ^ 20 / 10 ^ 6)

/-- `a / b` rounded to a whole number, to the even one of two that are equally near. -/
def roundHalfEven (a b : ℕ) : ℕ :=
  if 2 * (a % b) < b ∨ (2 * (a % b) = b ∧ a / b % 2 = 0) then a / b else a / b + 1

/-- `timedelta(microseconds=micros).total_seconds()`, in units of the last fraction bit. -/
def totalSeconds (micros : ℕ) : ℕ := roundHalfEven (micros * 2 ^ fractionBits micros) (10 ^ 6)

/-- `int(timedelta(microseconds=micros).total_seconds() // seconds)` for a whole number of
seconds.  The remainder is taken exactly, and so is the quotient of what is left. -/
def floorDivSeconds (micros seconds : ℕ) : ℕ :=
  totalSeconds micros / (2 ^ fractionBits micros * seconds)

theorem le_roundHalfEven (a b : ℕ) : a / b ≤ roundHalfEven a b := by
  unfold roundHalfEven
  split <;> omega

/-- The floating-point seconds have reached a multiple of the whole number of seconds that the
microseconds have not. -/
def RoundsUp (micros seconds : ℕ) : Prop :=
  2 ^ fractionBits micros * (seconds * (micros / (10 ^ 6 * seconds) + 1)) ≤ totalSeconds micros

instance (micros seconds : ℕ) : Decidable (RoundsUp micros seconds) :=
  inferInstanceAs (Decidable (_ ≤ _))

/-- The floor division of the microseconds is exact, unless the seconds were rounded up to a
multiple. -/
theorem floorDivSeconds_eq {micros seconds : ℕ} (hs : 0 < seconds) (h : ¬ RoundsUp micros seconds) :
    floorDivSeconds micros seconds = micros / (10 ^ 6 * seconds) := by
  unfold RoundsUp at h
  unfold floorDivSeconds
  have hpos : 0 < 2 ^ fractionBits micros * seconds := by positivity
  apply Nat.le_antisymm
  · rw [← Nat.lt_succ_iff, Nat.div_lt_iff_lt_mul hpos]
    refine lt_of_lt_of_eq (not_le.mp h) ?_
    rw [Nat.succ_eq_add_one]
    ring
  · rw [Nat.le_div_iff_mul_le hpos]
    refine le_trans ?_ (le_roundHalfEven _ _)
    rw [Nat.le_div_iff_mul_le (by norm_num)]
    have hk : micros / (10 ^ 6 * seconds) * (10 ^ 6 * seconds) ≤ micros := Nat.div_mul_le_self _ _
    calc micros / (10 ^ 6 * seconds) * (2 ^ fractionBits micros * seconds) * 10 ^ 6
        = micros / (10 ^ 6 * seconds) * (10 ^ 6 * seconds) * 2 ^ fractionBits micros := by ring
      _ ≤ micros * 2 ^ fractionBits micros := Nat.mul_le_mul_right _ hk

end PyNumber
