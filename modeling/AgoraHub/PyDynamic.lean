/-
# Values of any type

What a program can do with a value it knows nothing about: compare it, write it, ask
whether it is a text, go through it.  Code that reads untyped metadata is modelled over this
interface, so that what is proved of it holds whatever the metadata are made of; plain
values are one instance.
-/
import AgoraHub.PyObject

/-- A value of unknown type. -/
class PyDynamic (V : Type) where
  /-- `value is None` -/
  isNone : V → Bool
  /-- `value is True`, `value is False` -/
  bool? : V → Option Bool
  /-- the characters of an instance of `str` -/
  text? : V → Option String
  /-- `str(value)` -/
  str : V → String
  /-- `value == other` -/
  eq : V → V → Bool
  /-- whether `hash(value)` returns -/
  hashable : V → Bool
  /-- `tuple(value)`, unless the value is not iterable -/
  iter? : V → Option (List V)
  /-- a text as a value -/
  ofText : String → V
  /-- a tuple as a value -/
  ofTuple : List V → V
  /-- what `json.dumps` writes for `to_jsonable(value)`, unless it raises -/
  json? : V → Option String

/-- What holds of these operations whatever the type. -/
class LawfulPyDynamic (V : Type) [PyDynamic V] : Prop where
  text?_ofText (s : String) : PyDynamic.text? (PyDynamic.ofText s : V) = some s
  json?_ofText (s : String) : PyDynamic.json? (PyDynamic.ofText s : V) = some (Json.quote s)
  hashable_of_text {v : V} (h : (PyDynamic.text? v).isSome = true) : PyDynamic.hashable v = true
  json?_of_text {v : V} (h : (PyDynamic.text? v).isSome = true) :
    (PyDynamic.json? v).isSome = true

namespace PyDynamic

export LawfulPyDynamic (text?_ofText json?_ofText hashable_of_text json?_of_text)

attribute [simp] text?_ofText json?_ofText

/-! ## Plain values -/

mutual

/-- Whether `hash` returns of a plain value whose arrays are tuples. -/
def hashableJson : PyValue → Bool
  | .arr xs => hashableItems xs
  | .obj _ => false
  | _ => true

/-- Whether it returns of every item of a tuple. -/
def hashableItems : List PyValue → Bool
  | [] => true
  | x :: xs => hashableJson x && hashableItems xs

end

/-- What a loop over a plain value goes through. -/
def iterJson : PyValue → Option (List PyValue)
  | .str s => some (s.toList.map fun c => .str (String.singleton c))
  | .arr xs => some xs
  | .obj fields => some (fields.map fun p => .str p.1)
  | _ => none

/-- `str` of a plain value. -/
def strJson (isPrintable : Char → Bool) : PyValue → String
  | .str s => s
  | value => String.ofList (value.reprText isPrintable)

mutual

/-- `==` of two plain values: numbers of the same value are equal, whatever their types. -/
def eqJson : PyValue → PyValue → Bool
  | .arr xs, .arr ys => eqItems xs ys
  | .obj fs, .obj gs => fs.length == gs.length && eqFields fs gs
  | a, b =>
    match a.whole?, b.whole? with
    | some m, some n => m == n
    | none, none => PyValue.beq a b
    | _, _ => false

/-- `==` of the items of two tuples. -/
def eqItems : List PyValue → List PyValue → Bool
  | [], [] => true
  | x :: xs, y :: ys => eqJson x y && eqItems xs ys
  | _, _ => false

/-- Whether every field of one mapping is equal to that of another. -/
def eqFields : List (String × PyValue) → List (String × PyValue) → Bool
  | [], _ => true
  | (key, x) :: fs, gs =>
    (match PyDict.get? gs key with
      | some y => eqJson x y
      | none => false) && eqFields fs gs

end

/-- The plain values, of which `isPrintable` tells the characters that `repr` leaves as they
are. -/
@[reducible] def ofJson (isPrintable : Char → Bool) : PyDynamic PyValue where
  isNone v := v == .null
  bool? v := match v with
    | .bool b => some b
    | _ => none
  text? := PyValue.str?
  str := strJson isPrintable
  eq := eqJson
  hashable := hashableJson
  iter? := iterJson
  ofText := .str
  ofTuple := .arr
  json? v := some v.stableJsonDumps

theorem lawful_ofJson (isPrintable : Char → Bool) : @LawfulPyDynamic PyValue (ofJson isPrintable) :=
  letI := ofJson isPrintable
  { text?_ofText := fun _ => rfl
    json?_ofText := fun _ => rfl
    hashable_of_text := fun {v} h => by
      cases v with
      | str s => simp [hashable, hashableJson]
      | _ => cases h
    json?_of_text := fun _ => rfl }

end PyDynamic
