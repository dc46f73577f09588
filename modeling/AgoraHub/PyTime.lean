/-
# Moments in UTC

An aware `datetime` normalised to UTC.  Its range is bounded, so adding a
`timedelta` can raise; comparisons are those of the number of microseconds since
the least moment.
-/
import AgoraHub.Fallible

/-- The number of microseconds between `datetime.min` and the end of `datetime.max`. -/
def datetimeRange : ℕ := 315537897600000000

/-- A `datetime` in UTC, as the number of microseconds since `datetime.min`. -/
abbrev Datetime := Fin datetimeRange

instance : NeZero datetimeRange := ⟨by decide⟩

/-- `OverflowError: date value out of range`. -/
structure OverflowError where
  deriving DecidableEq

namespace Datetime

/-- The number of microseconds in a second. -/
def microsPerSecond : ℤ := 1000000

/-- `t + timedelta(microseconds=d)`. -/
def addMicros (t : Datetime) (d : ℤ) : Except OverflowError Datetime :=
  if h : 0 ≤ (t.val : ℤ) + d ∧ (t.val : ℤ) + d < datetimeRange then
    .ok ⟨((t.val : ℤ) + d).toNat, by omega⟩
  else .error {}

/-- `t + timedelta(seconds=s)`. -/
def addSeconds (t : Datetime) (s : ℤ) : Except OverflowError Datetime :=
  t.addMicros (s * microsPerSecond)

theorem val_of_addMicros {t u : Datetime} {d : ℤ} (h : t.addMicros d = .ok u) :
    (u.val : ℤ) = t.val + d := by
  unfold addMicros at h
  split at h
  · rename_i hrange
    cases h
    show (((t.val : ℤ) + d).toNat : ℤ) = t.val + d
    omega
  · simp at h

/-- An addition returns exactly when its value is in range. -/
theorem addMicros_eq_ok_iff {t u : Datetime} {d : ℤ} :
    t.addMicros d = .ok u ↔ (u.val : ℤ) = t.val + d := by
  refine ⟨val_of_addMicros, fun h => ?_⟩
  have hrange : 0 ≤ (t.val : ℤ) + d ∧ (t.val : ℤ) + d < datetimeRange := by omega
  rw [addMicros, dif_pos hrange]
  congr 1
  apply Fin.ext
  show ((t.val : ℤ) + d).toNat = u.val
  omega

/-- `timedelta(microseconds=d)`: at most 999999999 days forth or back. -/
def timedelta (d : ℤ) : Except OverflowError ℤ :=
  if -86399999913600000000 ≤ d ∧ d < 86400000000000000000 then .ok d else .error {}

/-! ## The calendar -/

/-- The number of microseconds in a minute. -/
def microsPerMinute : ℕ := 60000000

section

variable (t : Datetime)

/-- The minutes since `datetime.min`. -/
def minutes : ℕ := t.val / microsPerMinute

def minute : ℕ := t.minutes % 60

def hour : ℕ := t.minutes / 60 % 24

/-- The days since the first of January of the year one. -/
def days : ℕ := t.minutes / 1440

/-- `t.weekday()`, which counts from Monday; the first day of the calendar is one. -/
def weekday : ℕ := t.days % 7

end

/-- The lengths of the months. -/
def monthLengths (leap : Bool) : List ℕ :=
  [31, if leap then 29 else 28, 31, 30, 31, 30, 31, 31, 30, 31, 30, 31]

/-- The month of a day of the year, and the day of the month, both counted from one. -/
def monthDay (month : ℕ) : List ℕ → ℕ → ℕ × ℕ
  | [], day => (month, day + 1)
  | length :: rest, day =>
    if day < length then (month, day + 1) else monthDay (month + 1) rest (day - length)

/-- The month and the day of a date of the proleptic Gregorian calendar. -/
def monthAndDay (t : Datetime) : ℕ × ℕ :=
  let era := t.days % 146097
  -- the last day of a leap year that closes a cycle belongs to no further century or year
  let century := min (era / 36524) 3
  let inCentury := era - century * 36524
  let cycle := inCentury / 1461
  let inCycle := inCentury % 1461
  let year := min (inCycle / 365) 3
  let leap := year = 3 ∧ (cycle ≠ 24 ∨ century = 3)
  monthDay 1 (monthLengths leap) (inCycle - year * 365)

/-- `t.replace(second=0, microsecond=0)`. -/
def floorMinute (t : Datetime) : Datetime :=
  ⟨t.val - t.val % microsPerMinute, lt_of_le_of_lt (Nat.sub_le _ _) t.isLt⟩

theorem val_floorMinute (t : Datetime) : t.floorMinute.val = microsPerMinute * t.minutes := by
  have h := Nat.div_add_mod t.val microsPerMinute
  show t.val - t.val % microsPerMinute = microsPerMinute * (t.val / microsPerMinute)
  omega

/-! ## ISO form -/

def year (t : Datetime) : ℕ :=
  let era := t.days % 146097
  let century := min (era / 36524) 3
  let inCentury := era - century * 36524
  let inCycle := inCentury % 1461
  400 * (t.days / 146097) + 100 * century + 4 * (inCentury / 1461) + min (inCycle / 365) 3 + 1

/-- A number in at least `width` digits. -/
def padded (width n : ℕ) : String :=
  let digits := Nat.toDigits 10 n
  String.ofList (List.replicate (width - digits.length) '0' ++ digits)

/-- The microseconds since the last whole second. -/
def micros (t : Datetime) : ℕ := t.val % 1000000

def isoformat (t : Datetime) : String :=
  padded 4 t.year ++ "-" ++ padded 2 t.monthAndDay.1 ++ "-" ++ padded 2 t.monthAndDay.2 ++ "T" ++
    padded 2 t.hour ++ ":" ++ padded 2 t.minute ++ ":" ++ padded 2 (t.val / 1000000 % 60) ++
    (if t.micros = 0 then "" else "." ++ padded 6 t.micros) ++ "+00:00"

end Datetime
