/-
# Plain values at run time

What a program finds out about a plain value while it runs: whether it is a mapping or a
text, whether it counts as true, its `repr`, and its form once its objects are sorted and
its zeros are whole numbers.
-/
import AgoraHub.PyDict
import AgoraHub.PyNumber
import AgoraHub.PyRepr

namespace PyValue

open List PyRepr

/-- The fields of a mapping. -/
def obj? : PyValue → Option (PyDict String PyValue)
  | obj fields => some fields
  | _ => none

/-- The characters of a text. -/
def str? : PyValue → Option String
  | str s => some s
  | _ => none

/-- `bool(value)` -/
def truthy : PyValue → Bool
  | null => false
  | bool b => b
  | int n => n != 0
  | float x => !x.isZero
  | str s => s != ""
  | arr xs => !xs.isEmpty
  | obj fields => !fields.isEmpty

/-- The whole number that a float below `10 ** 16` is equal to. -/
def wholeOfFloat (x : PyFloat) : Option ℤ :=
  match x.repr.toList.reverse with
  | '0' :: '.' :: digits => PyNumber.int? (String.ofList digits.reverse)
  | _ => none

/-- The whole number that a value is equal to. -/
def whole? : PyValue → Option ℤ
  | int n => some n
  | bool b => some (if b then 1 else 0)
  | float x => wholeOfFloat x
  | _ => none

/-! ## `repr` -/

/-- The text of a tuple. -/
def tupleText (items : List (List Char)) : List Char :=
  match items with
  | [x] => '(' :: (x ++ [',', ')'])
  | xs => '(' :: ([',', ' '].intercalate xs ++ [')'])

mutual

/-- `repr` of a value whose arrays are tuples and whose objects are read only. -/
def reprText (isPrintable : Char → Bool) : PyValue → List Char
  | null => ['N', 'o', 'n', 'e']
  | bool true => ['T', 'r', 'u', 'e']
  | bool false => ['F', 'a', 'l', 's', 'e']
  | int n => (toString n).toList
  | float x => x.repr.toList
  | str s => strText isPrintable s.toList
  | arr xs => tupleText (reprItems isPrintable xs)
  | obj fields => "mappingproxy(\x7b".toList ++
      [',', ' '].intercalate (reprFields isPrintable fields) ++ "\x7d)".toList

/-- The texts of the items of an array. -/
def reprItems (isPrintable : Char → Bool) : List PyValue → List (List Char)
  | [] => []
  | x :: xs => reprText isPrintable x :: reprItems isPrintable xs

/-- The texts of the fields of an object. -/
def reprFields (isPrintable : Char → Bool) : List (String × PyValue) → List (List Char)
  | [] => []
  | (key, x) :: fields => (strText isPrintable key.toList ++ ':' :: ' ' ::
      reprText isPrintable x) :: reprFields isPrintable fields

end

/-- `str([...])` -/
def listRepr (isPrintable : Char → Bool) (items : List PyValue) : String :=
  String.ofList ('[' :: ([',', ' '].intercalate (items.map (reprText isPrintable)) ++ [']']))

/-- A scalar as a value. -/
def ofScalar : PyRepr.Scalar → PyValue
  | .none => null
  | .int n => int n
  | .str s => str s

theorem reprText_ofScalar (isPrintable : Char → Bool) (x : PyRepr.Scalar) :
    (ofScalar x).reprText isPrintable = x.text isPrintable := by
  cases x with
  | none => rfl
  | int n => rfl
  | str s => rfl

theorem intercalate_ofScalar (isPrintable : Char → Bool) (x : PyRepr.Scalar)
    (xs : List PyRepr.Scalar) : [',', ' '].intercalate
      (((x :: xs).map ofScalar).map (reprText isPrintable)) ++ [']'] =
        x.text isPrintable ++ tailText isPrintable xs := by
  induction xs generalizing x with
  | nil => simp [List.intercalate, reprText_ofScalar, tailText]
  | cons y ys ih =>
    have htail := ih y
    simp only [map_cons, List.intercalate, intersperse_cons_cons, flatten_cons,
      reprText_ofScalar, append_assoc] at htail ⊢
    rw [htail]
    simp [tailText]

theorem listRepr_map_ofScalar (isPrintable : Char → Bool) (xs : List PyRepr.Scalar) :
    listRepr isPrintable (xs.map ofScalar) = listStr isPrintable xs := by
  unfold listRepr listStr
  cases xs with
  | nil => rfl
  | cons x xs => rw [intercalate_ofScalar, listText]

/-! ## Canonical form -/

mutual

/-- `normalize_canonical_json` of a value of finite numbers: a float that is zero is the whole
number. -/
def normalize : PyValue → PyValue
  | float x => if x.isZero then int 0 else float x
  | arr xs => arr (normalizeItems xs)
  | obj fields => obj (normalizeFields fields)
  | value => value

/-- The items of an array in that form. -/
def normalizeItems : List PyValue → List PyValue
  | [] => []
  | x :: xs => normalize x :: normalizeItems xs

/-- The values of the fields of an object in that form. -/
def normalizeFields : List (String × PyValue) → List (String × PyValue)
  | [] => []
  | (key, x) :: fields => (key, normalize x) :: normalizeFields fields

end

theorem normalizeFields_eq_map (fields : List (String × PyValue)) :
    normalizeFields fields = fields.map fun p => (p.1, normalize p.2) := by
  induction fields with
  | nil => rfl
  | cons p fields ih => simp [normalizeFields, ih]

theorem normalizeItems_eq_map (xs : List PyValue) : normalizeItems xs = xs.map normalize := by
  induction xs with
  | nil => rfl
  | cons x xs ih => simp [normalizeItems, ih]

theorem canonFields_eq_map (fields : List (String × PyValue)) :
    canonFields fields = fields.map fun p => (p.1, canon p.2) := by
  induction fields with
  | nil => rfl
  | cons p fields ih => simp [canonFields, ih]

theorem canonItems_eq_map (xs : List PyValue) : canonItems xs = xs.map canon := by
  induction xs with
  | nil => rfl
  | cons x xs ih => simp [canonItems, ih]

end PyValue

namespace PyDict

variable {κ ν μ : Type*} [DecidableEq κ]

theorem get?_map (f : ν → μ) (d : PyDict κ ν) (k : κ) :
    get? (d.map fun p => (p.1, f p.2)) k = (get? d k).map f := by
  induction d with
  | nil => rfl
  | cons p d ih =>
    rw [List.map_cons, get?_cons, get?_cons, ih]
    split
    · rfl
    · rfl

theorem get?_of_perm {d d' : PyDict κ ν} (h : d.Perm d') (hd : d.keys.Nodup) (k : κ) :
    d.get? k = d'.get? k := by
  have hd' : d'.keys.Nodup := (h.map Prod.fst).nodup_iff.mp hd
  cases hget : d.get? k with
  | none =>
    rw [get?_eq_none_iff] at hget
    exact ((get?_eq_none_iff _ _).mpr fun hk => hget ((h.map Prod.fst).mem_iff.mpr hk)).symm
  | some v => exact (get?_of_mem hd' (h.mem_iff.mp (mem_of_get? hget))).symm

end PyDict
