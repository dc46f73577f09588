/-
# JSON texts determine their values

The text `json.dumps` writes with sorted keys is that of one value only, up to the
order of the fields of objects.  Every part of a text ends where the next part
begins, so the parts can be split off one after another.
-/
import AgoraHub.PyJson

namespace Json

open List

/-! ## Strings -/

/-- The value of a hexadecimal digit. -/
def hexValue (c : Char) : ℕ :=
  if c.isDigit then c.toNat - 48 else c.toNat - 87

/-- Read one character of a JSON string. -/
def unescape : List Char → Option (Char × List Char)
  | '\\' :: '"' :: r => some ('"', r)
  | '\\' :: '\\' :: r => some ('\\', r)
  | '\\' :: 'n' :: r => some ('\n', r)
  | '\\' :: 'r' :: r => some ('\r', r)
  | '\\' :: 't' :: r => some ('\t', r)
  | '\\' :: 'b' :: r => some (Char.ofNat 8, r)
  | '\\' :: 'f' :: r => some (Char.ofNat 12, r)
  | '\\' :: 'u' :: _ :: _ :: c :: d :: r => some (Char.ofNat (16 * hexValue c + hexValue d), r)
  | c :: r => some (c, r)
  | [] => none

theorem toList_hex4 : ∀ n < 32, ∃ c d, (hex4 n).toList = ['0', '0', c, d] ∧
    16 * hexValue c + hexValue d = n := by
  intro n hn
  refine ⟨((hex4 n).toList.drop 2).headD '0', ((hex4 n).toList.drop 3).headD '0', ?_⟩
  interval_cases n <;> decide

/-- A written character can be read back, whatever follows. -/
theorem unescape_escapeChar (c : Char) (r : List Char) :
    unescape ((escapeChar c).toList ++ r) = some (c, r) := by
  unfold escapeChar
  by_cases h₁ : c = '"'
  · rw [if_pos h₁, h₁]
    rfl
  rw [if_neg h₁]
  by_cases h₂ : c = '\\'
  · rw [if_pos h₂, h₂]
    rfl
  rw [if_neg h₂]
  by_cases h₃ : c = '\n'
  · rw [if_pos h₃, h₃]
    rfl
  rw [if_neg h₃]
  by_cases h₄ : c = '\r'
  · rw [if_pos h₄, h₄]
    rfl
  rw [if_neg h₄]
  by_cases h₅ : c = '\t'
  · rw [if_pos h₅, h₅]
    rfl
  rw [if_neg h₅]
  by_cases h₆ : c.toNat = 8
  · rw [if_pos h₆, ← Char.ofNat_toNat c, h₆]
    rfl
  rw [if_neg h₆]
  by_cases h₇ : c.toNat = 12
  · rw [if_pos h₇, ← Char.ofNat_toNat c, h₇]
    rfl
  rw [if_neg h₇]
  by_cases h₈ : c.toNat < 32
  · rw [if_pos h₈]
    rcases toList_hex4 c.toNat h₈ with ⟨x, y, hdigits, hvalue⟩
    have hu : "\\u".toList = ['\\', 'u'] := by decide
    rw [String.toList_append, hu, hdigits]
    show some (Char.ofNat (16 * hexValue x + hexValue y), r) = some (c, r)
    rw [hvalue, Char.ofNat_toNat]
  · -- any other character stands for itself
    rw [if_neg h₈, String.toList_ofList]
    show unescape (c :: r) = some (c, r)
    unfold unescape
    split <;> simp_all

theorem escapeChar_ne_quote (c : Char) (r t : List Char) :
    (escapeChar c).toList ++ r ≠ '"' :: t := by
  intro h
  have hread := unescape_escapeChar c r
  rw [h] at hread
  have hquote : unescape ('"' :: t) = some ('"', t) := rfl
  rw [hquote] at hread
  cases hread
  have hlength := congrArg List.length h
  have hself : (escapeChar '"').toList = ['\\', '"'] := by decide
  rw [hself] at hlength
  simp at hlength

/-- The characters of a quoted text after the first quote. -/
def quoted (s : List Char) : List Char := s.flatMap (fun c => (escapeChar c).toList) ++ ['"']

theorem toList_quote (s : String) : (quote s).toList = '"' :: quoted s.toList := by
  have hquote : "\"".toList = ['"'] := by decide
  unfold quote quoted
  rw [String.toList_append, String.toList_append, hquote, String.toList_join, flatMap_map]
  rfl

/-- Where a quoted text ends is determined by its characters. -/
theorem quoted_split : ∀ (s t r u : List Char), quoted s ++ r = quoted t ++ u → s = t ∧ r = u
  | [], [], r, u, h => ⟨rfl, (List.cons.inj h).2⟩
  | [], d :: t, r, u, h => by
    unfold quoted at h
    rw [flatMap_cons, append_assoc, append_assoc, append_assoc] at h
    exact absurd h.symm (escapeChar_ne_quote d _ r)
  | c :: s, [], r, u, h => by
    unfold quoted at h
    rw [flatMap_cons, append_assoc, append_assoc, append_assoc] at h
    exact absurd h (escapeChar_ne_quote c _ u)
  | c :: s, d :: t, r, u, h => by
    unfold quoted at h
    rw [flatMap_cons, flatMap_cons, append_assoc, append_assoc, append_assoc, append_assoc] at h
    have hread := congrArg unescape h
    rw [unescape_escapeChar, unescape_escapeChar] at hread
    obtain ⟨rfl, hrest⟩ := Prod.mk.inj (Option.some.inj hread)
    rw [← append_assoc, ← append_assoc] at hrest
    obtain ⟨rfl, rfl⟩ := quoted_split s t r u hrest
    exact ⟨rfl, rfl⟩

variable {r u : List Char}

theorem quote_split {s t : String} (h : (quote s).toList ++ r = (quote t).toList ++ u) :
    s = t ∧ r = u := by
  rw [toList_quote, toList_quote] at h
  rcases quoted_split _ _ _ _ (List.cons.inj h).2 with ⟨hs, hr⟩
  exact ⟨String.toList_inj.mp hs, hr⟩

/-! ## Numbers -/

/-- What may follow a value in a text. -/
def Delimited (r : List Char) : Prop := ∀ c ∈ r.head?, c = ',' ∨ c = ']' ∨ c = '\x7d'

theorem Delimited.takeWhile (h : Delimited r) : r.takeWhile Char.isDigit = [] := by
  cases r with
  | nil => rfl
  | cons c r =>
    have hc : c.isDigit = false := by
      rcases h c rfl with rfl | rfl | rfl <;> decide
    rw [takeWhile_cons_of_neg (by simp [hc])]

/-- Where the digits of a number end is determined by them. -/
theorem digits_split {m n : ℕ} (hr : Delimited r) (hu : Delimited u)
    (h : Nat.toDigits 10 m ++ r = Nat.toDigits 10 n ++ u) : m = n ∧ r = u := by
  have hdigits : ∀ (k : ℕ) (s : List Char), Delimited s →
      (Nat.toDigits 10 k ++ s).takeWhile Char.isDigit = Nat.toDigits 10 k := by
    intro k s hs
    rw [takeWhile_append_of_pos fun c hc => Nat.isDigit_of_mem_toDigits (by omega) (by omega) hc,
      hs.takeWhile, append_nil]
  have heq := congrArg (List.takeWhile Char.isDigit) h
  rw [hdigits m r hr, hdigits n u hu] at heq
  have hmn := congrArg (fun l => Nat.ofDigitChars 10 l 0) heq
  simp only [Nat.ofDigitChars_ten_toDigits] at hmn
  rw [heq] at h
  exact ⟨hmn, append_cancel_left h⟩

theorem toList_toString_ofNat (m : ℕ) : (toString (m : ℤ)).toList = Nat.toDigits 10 m :=
  Nat.toList_repr

theorem toList_toString_negSucc (m : ℕ) :
    (toString (Int.negSucc m)).toList = '-' :: Nat.toDigits 10 (m + 1) := by
  have hminus : "-".toList = ['-'] := by decide
  show ("-" ++ (m + 1).repr).toList = _
  rw [String.toList_append, Nat.toList_repr, hminus]
  rfl

theorem head_toDigits_ne {m : ℕ} {d : Char} {t : List Char} (hd : d.isDigit = false) :
    Nat.toDigits 10 m ++ r ≠ d :: t := by
  intro h
  cases hdigits : Nat.toDigits 10 m with
  | nil => exact Nat.toDigits_ne_nil hdigits
  | cons c rest =>
    have hc : c.isDigit = true :=
      Nat.isDigit_of_mem_toDigits (b := 10) (n := m) (by omega) (by omega) (by simp [hdigits])
    rw [hdigits] at h
    rw [(List.cons.inj h).1, hd] at hc
    cases hc

theorem number_split {a b : ℤ} (hr : Delimited r) (hu : Delimited u)
    (h : (toString a).toList ++ r = (toString b).toList ++ u) : a = b ∧ r = u := by
  cases a with
  | ofNat m =>
    cases b with
    | ofNat n =>
      rw [Int.ofNat_eq_natCast, Int.ofNat_eq_natCast, toList_toString_ofNat,
        toList_toString_ofNat] at h
      rcases digits_split hr hu h with ⟨rfl, rfl⟩
      exact ⟨rfl, rfl⟩
    | negSucc n =>
      rw [Int.ofNat_eq_natCast, toList_toString_ofNat, toList_toString_negSucc] at h
      exact absurd h (head_toDigits_ne rfl)
  | negSucc m =>
    cases b with
    | ofNat n =>
      rw [Int.ofNat_eq_natCast, toList_toString_ofNat, toList_toString_negSucc] at h
      exact absurd h.symm (head_toDigits_ne rfl)
    | negSucc n =>
      rw [toList_toString_negSucc, toList_toString_negSucc] at h
      rcases digits_split hr hu (List.cons.inj h).2 with ⟨hmn, rfl⟩
      obtain rfl : m = n := by omega
      exact ⟨rfl, rfl⟩

/-! ## Values -/

/-- Fields in the order of their keys. -/
def sortByKey {α : Type} (fields : List (String × α)) : List (String × α) :=
  fields.insertionSort fun p q => p.1 ≤ q.1

mutual

/-- A value with the fields of its objects in the order of their keys. -/
def canon : Json → Json
  | null => null
  | bool b => bool b
  | int n => int n
  | str s => str s
  | arr xs => arr (canonItems xs)
  | obj fields => obj (sortByKey (canonFields fields))

/-- The items of an array, each with sorted fields. -/
def canonItems : List Json → List Json
  | [] => []
  | x :: xs => canon x :: canonItems xs

/-- The fields of an object, each value with sorted fields. -/
def canonFields : List (String × Json) → List (String × Json)
  | [] => []
  | (k, x) :: fields => (k, canon x) :: canonFields fields

end

theorem canonItems_eq_map (xs : List Json) : canonItems xs = xs.map canon := by
  induction xs with
  | nil => rfl
  | cons x xs ih => rw [canonItems, ih, map_cons]

theorem canonFields_eq_map (fields : List (String × Json)) :
    canonFields fields = fields.map fun p => (p.1, canon p.2) := by
  induction fields with
  | nil => rfl
  | cons p fields ih => rw [canonFields, ih, map_cons]

/-- Sorting by keys does not look at the values. -/
theorem sortByKey_map {α β : Type} (f : α → β) (fields : List (String × α)) :
    sortByKey (fields.map fun p => (p.1, f p.2)) =
      (sortByKey fields).map fun p => (p.1, f p.2) := by
  have hinsert : ∀ (p : String × α) (l : List (String × α)),
      List.orderedInsert (fun p q : String × β => p.1 ≤ q.1) (p.1, f p.2)
        (l.map fun q => (q.1, f q.2)) =
          (List.orderedInsert (fun p q : String × α => p.1 ≤ q.1) p l).map
            fun q => (q.1, f q.2) := by
    intro p l
    induction l with
    | nil => rfl
    | cons q l ih =>
      rw [map_cons, List.orderedInsert, List.orderedInsert]
      by_cases h : p.1 ≤ q.1
      · rw [if_pos h, if_pos h]
        rfl
      · rw [if_neg h, if_neg h, ih]
        rfl
  unfold sortByKey
  induction fields with
  | nil => rfl
  | cons p fields ih =>
    rw [map_cons, insertionSort_cons, insertionSort_cons, ih, hinsert]

/-- The text after an item of an array. -/
def itemsTail : List Json → List Char
  | [] => [']']
  | x :: xs => ',' :: ((dumps x).toList ++ itemsTail xs)

/-- The text of a field. -/
def fieldText (p : String × Json) : List Char := (quote p.1).toList ++ ':' :: (dumps p.2).toList

/-- The text after a field of an object. -/
def fieldsTail : List (String × Json) → List Char
  | [] => ['\x7d']
  | p :: fields => ',' :: (fieldText p ++ fieldsTail fields)

theorem delimited_itemsTail (xs : List Json) (r : List Char) : Delimited (itemsTail xs ++ r) := by
  cases xs with
  | nil =>
    intro c hc
    exact Or.inr (Or.inl (Option.some.inj hc).symm)
  | cons x xs =>
    intro c hc
    exact Or.inl (Option.some.inj hc).symm

theorem delimited_fieldsTail (fields : List (String × Json)) (r : List Char) :
    Delimited (fieldsTail fields ++ r) := by
  cases fields with
  | nil =>
    intro c hc
    exact Or.inr (Or.inr (Option.some.inj hc).symm)
  | cons p fields =>
    intro c hc
    exact Or.inl (Option.some.inj hc).symm

/-- Texts joined by commas, with something after the last. -/
theorem toList_intercalate_cons (first : String) (rest : List String) (last : List Char) :
    (",".intercalate (first :: rest)).toList ++ last =
      first.toList ++ (rest.flatMap (fun t => ',' :: t.toList) ++ last) := by
  have hcomma : ",".toList = [','] := by decide
  induction rest generalizing first with
  | nil => rw [String.intercalate_singleton, flatMap_nil, nil_append]
  | cons second rest ih =>
    rw [String.intercalate_cons_cons, String.toList_append, String.toList_append, hcomma,
      append_assoc, append_assoc, ih, flatMap_cons]
    simp

theorem dumpsItems_eq_map (xs : List Json) : dumpsItems xs = xs.map dumps := by
  induction xs with
  | nil => rfl
  | cons x xs ih => rw [dumpsItems, ih, map_cons]

theorem dumpsFields_eq_map (fields : List (String × Json)) :
    dumpsFields fields = fields.map fun p => (p.1, dumps p.2) := by
  induction fields with
  | nil => rfl
  | cons p fields ih => rw [dumpsFields, ih, map_cons]

theorem itemsTail_eq (xs : List Json) :
    itemsTail xs = (xs.map dumps).flatMap (fun t => ',' :: t.toList) ++ [']'] := by
  induction xs with
  | nil => rfl
  | cons x xs ih => rw [itemsTail, ih, map_cons, flatMap_cons]; simp

theorem fieldsTail_eq (fields : List (String × Json)) :
    fieldsTail fields = (fields.map fun p => quote p.1 ++ ":" ++ dumps p.2).flatMap
      (fun t => ',' :: t.toList) ++ ['\x7d'] := by
  have hcolon : ":".toList = [':'] := by decide
  induction fields with
  | nil => rfl
  | cons p fields ih =>
    rw [fieldsTail, ih, map_cons, flatMap_cons, fieldText, String.toList_append,
      String.toList_append, hcolon]
    simp

/-- The text of an array. -/
theorem toList_dumps_arr (xs : List Json) : (dumps (arr xs)).toList = '[' :: (match xs with
      | [] => [']']
      | x :: xs => (dumps x).toList ++ itemsTail xs) := by
  have hopen : "[".toList = ['['] := by decide
  have hclose : "]".toList = [']'] := by decide
  rw [dumps, dumpsItems_eq_map, String.toList_append, String.toList_append, hopen, hclose,
    append_assoc]
  cases xs with
  | nil => rfl
  | cons x xs =>
    rw [map_cons, toList_intercalate_cons, ← itemsTail_eq]
    rfl

/-- The text of an object: its fields in the order of their keys. -/
theorem toList_dumps_obj (fields : List (String × Json)) :
    (dumps (obj fields)).toList = '\x7b' :: (match sortByKey fields with
      | [] => ['\x7d']
      | p :: fields => fieldText p ++ fieldsTail fields) := by
  have hopen : "\x7b".toList = ['\x7b'] := by decide
  have hclose : "\x7d".toList = ['\x7d'] := by decide
  have hcolon : ":".toList = [':'] := by decide
  have hsorted : (sortFields (dumpsFields fields)).map (fun p => quote p.1 ++ ":" ++ p.2) =
      (sortByKey fields).map fun p => quote p.1 ++ ":" ++ dumps p.2 := by
    rw [dumpsFields_eq_map]
    show (sortByKey (fields.map fun p => (p.1, dumps p.2))).map _ = _
    rw [sortByKey_map, map_map]
    rfl
  rw [dumps, hsorted, String.toList_append, String.toList_append, hopen, hclose, append_assoc]
  cases sortByKey fields with
  | nil => rfl
  | cons p rest =>
    rw [map_cons, toList_intercalate_cons, ← fieldsTail_eq, String.toList_append,
      String.toList_append, hcolon]
    simp [fieldText]

/-! ## Splitting a text -/

/-- The text of a value determines the value, and where it ends. -/
def Splits (a : Json) : Prop :=
  ∀ (b : Json) (r u : List Char), Delimited r → Delimited u →
    (dumps a).toList ++ r = (dumps b).toList ++ u → canon a = canon b ∧ r = u

/-- The first character of a text tells what kind of value it is of. -/
def kindOf : List Char → ℕ
  | [] => 0
  | c :: _ =>
    if c = 'n' then 1 else if c = 't' then 2 else if c = 'f' then 3 else if c = '"' then 4
    else if c = '[' then 5 else if c = '\x7b' then 6
    else if c = '-' ∨ c.isDigit = true then 7 else 0

/-- The kind of a value. -/
def kind : Json → ℕ
  | null => 1
  | bool true => 2
  | bool false => 3
  | str _ => 4
  | arr _ => 5
  | obj _ => 6
  | int _ => 7

theorem kindOf_dumps (a : Json) (r : List Char) : kindOf ((dumps a).toList ++ r) = kind a := by
  cases a with
  | null =>
    have h : (dumps null).toList = ['n', 'u', 'l', 'l'] := by decide
    rw [h]
    rfl
  | bool b =>
    cases b with
    | true =>
      have h : (dumps (bool true)).toList = ['t', 'r', 'u', 'e'] := by decide
      rw [h]
      rfl
    | false =>
      have h : (dumps (bool false)).toList = ['f', 'a', 'l', 's', 'e'] := by decide
      rw [h]
      rfl
  | int n =>
    have hdigit : ∀ m, ∃ c rest, Nat.toDigits 10 m = c :: rest ∧ c.isDigit = true := by
      intro m
      cases hdigits : Nat.toDigits 10 m with
      | nil => exact absurd hdigits Nat.toDigits_ne_nil
      | cons c rest =>
        exact ⟨c, rest, rfl, Nat.isDigit_of_mem_toDigits (b := 10) (n := m) (by omega) (by omega)
          (by simp [hdigits])⟩
    cases n with
    | ofNat m =>
      rcases hdigit m with ⟨c, rest, hdigits, hc⟩
      rw [dumps, Int.ofNat_eq_natCast, toList_toString_ofNat, hdigits]
      have hne : ∀ d : Char, d.isDigit = false → c ≠ d := by
        rintro d hd rfl
        rw [hc] at hd
        cases hd
      show (if c = 'n' then 1 else if c = 't' then 2 else if c = 'f' then 3 else if c = '"' then 4
        else if c = '[' then 5 else if c = '\x7b' then 6
        else if c = '-' ∨ c.isDigit = true then 7 else 0) = 7
      rw [if_neg (hne 'n' (by decide)), if_neg (hne 't' (by decide)), if_neg (hne 'f' (by decide)),
        if_neg (hne '"' (by decide)), if_neg (hne '[' (by decide)),
        if_neg (hne '\x7b' (by decide)), if_pos (Or.inr hc)]
    | negSucc m =>
      rw [dumps, toList_toString_negSucc]
      rfl
  | str s =>
    rw [dumps, toList_quote]
    rfl
  | arr xs =>
    rw [toList_dumps_arr]
    rfl
  | obj fields =>
    rw [toList_dumps_obj]
    rfl

theorem kind_eq {a b : Json} (h : (dumps a).toList ++ r = (dumps b).toList ++ u) :
    kind a = kind b := by
  rw [← kindOf_dumps a r, h, kindOf_dumps]

theorem itemsTail_split : ∀ {xs ys : List Json} {r u : List Char}, (∀ x ∈ xs, Splits x) →
    itemsTail xs ++ r = itemsTail ys ++ u → xs.map canon = ys.map canon ∧ r = u
  | [], [], r, u, _, h => ⟨rfl, (List.cons.inj h).2⟩
  | [], y :: ys, r, u, _, h => absurd (List.cons.inj h).1 (by decide)
  | x :: xs, [], r, u, _, h => absurd (List.cons.inj h).1 (by decide)
  | x :: xs, y :: ys, r, u, hsplits, h => by
    have h : (dumps x).toList ++ (itemsTail xs ++ r) = (dumps y).toList ++ (itemsTail ys ++ u) := by
      rw [← append_assoc, ← append_assoc]
      exact (List.cons.inj h).2
    rcases hsplits x mem_cons_self y _ _ (delimited_itemsTail xs r) (delimited_itemsTail ys u)
      h with ⟨hx, hrest⟩
    rcases itemsTail_split (fun z hz => hsplits z (mem_cons_of_mem _ hz)) hrest with ⟨hxs, hr⟩
    exact ⟨by rw [map_cons, map_cons, hx, hxs], hr⟩

theorem field_split {p q : String × Json} (hsplits : Splits p.2) (hr : Delimited r)
    (hu : Delimited u) (h : fieldText p ++ r = fieldText q ++ u) :
    (p.1, canon p.2) = (q.1, canon q.2) ∧ r = u := by
  unfold fieldText at h
  rw [append_assoc, append_assoc] at h
  rcases quote_split h with ⟨hkey, hvalue⟩
  rcases hsplits q.2 r u hr hu (List.cons.inj hvalue).2 with ⟨hcanon, hrest⟩
  exact ⟨by rw [hkey, hcanon], hrest⟩

theorem fieldsTail_split : ∀ {fs gs : List (String × Json)} {r u : List Char},
    (∀ p ∈ fs, Splits p.2) → fieldsTail fs ++ r = fieldsTail gs ++ u →
      fs.map (fun p => (p.1, canon p.2)) = gs.map (fun p => (p.1, canon p.2)) ∧ r = u
  | [], [], r, u, _, h => ⟨rfl, (List.cons.inj h).2⟩
  | [], q :: gs, r, u, _, h => absurd (List.cons.inj h).1 (by decide)
  | p :: fs, [], r, u, _, h => absurd (List.cons.inj h).1 (by decide)
  | p :: fs, q :: gs, r, u, hsplits, h => by
    have h : fieldText p ++ (fieldsTail fs ++ r) = fieldText q ++ (fieldsTail gs ++ u) := by
      rw [← append_assoc, ← append_assoc]
      exact (List.cons.inj h).2
    rcases field_split (hsplits p mem_cons_self) (delimited_fieldsTail fs r)
      (delimited_fieldsTail gs u) h with ⟨hp, hrest⟩
    rcases fieldsTail_split (fun z hz => hsplits z (mem_cons_of_mem _ hz)) hrest with ⟨hfs, hr⟩
    exact ⟨by rw [map_cons, map_cons, hp, hfs], hr⟩

theorem ne_dumps_append {c : Char} (hc : kindOf [c] = 0) (a : Json) (r u : List Char) :
    c :: r ≠ (dumps a).toList ++ u := by
  intro h
  have hkind := congrArg kindOf h
  rw [kindOf_dumps, show kindOf (c :: r) = kindOf [c] from rfl, hc] at hkind
  cases a with
  | bool b => cases b <;> cases hkind
  | _ => cases hkind

theorem splits_arr {xs : List Json} (hsplits : ∀ x ∈ xs, Splits x) : Splits (arr xs) := by
  intro b r u hr hu h
  have hkind := kind_eq h
  cases b with
  | arr ys =>
    rw [toList_dumps_arr, toList_dumps_arr] at h
    rw [canon, canon, canonItems_eq_map, canonItems_eq_map]
    cases xs with
    | nil =>
      cases ys with
      | nil => exact ⟨rfl, (List.cons.inj (List.cons.inj h).2).2⟩
      | cons y ys =>
        have h : ']' :: r = (dumps y).toList ++ (itemsTail ys ++ u) := by
          rw [← append_assoc]
          exact (List.cons.inj h).2
        exact absurd h (ne_dumps_append (by decide) y r _)
    | cons x xs =>
      cases ys with
      | nil =>
        have h : (dumps x).toList ++ (itemsTail xs ++ r) = ']' :: u := by
          rw [← append_assoc]
          exact (List.cons.inj h).2
        exact absurd h.symm (ne_dumps_append (by decide) x u _)
      | cons y ys =>
        -- as in the tail of an array, after a comma
        have h : itemsTail (x :: xs) ++ r = itemsTail (y :: ys) ++ u :=
          congrArg (List.cons ',') (List.cons.inj h).2
        rcases itemsTail_split hsplits h with ⟨hmap, hrest⟩
        exact ⟨by rw [hmap], hrest⟩
  | bool b => cases b <;> cases hkind
  | _ => cases hkind

theorem ne_fieldText_append (p : String × Json) (r u : List Char) :
    '\x7d' :: r ≠ fieldText p ++ u := by
  intro h
  unfold fieldText at h
  rw [toList_quote] at h
  exact absurd (List.cons.inj h).1 (by decide)

theorem splits_obj {fields : List (String × Json)} (hsplits : ∀ p ∈ fields, Splits p.2) :
    Splits (obj fields) := by
  intro b r u hr hu h
  have hkind := kind_eq h
  cases b with
  | obj gs =>
    have hsorted : ∀ p ∈ sortByKey fields, Splits p.2 := fun p hp =>
      hsplits p ((perm_insertionSort _ fields).mem_iff.mp hp)
    rw [toList_dumps_obj, toList_dumps_obj] at h
    rw [canon, canon, canonFields_eq_map, canonFields_eq_map, sortByKey_map, sortByKey_map]
    cases hf : sortByKey fields with
    | nil =>
      cases hg : sortByKey gs with
      | nil =>
        rw [hf, hg] at h
        exact ⟨rfl, (List.cons.inj (List.cons.inj h).2).2⟩
      | cons q rest =>
        rw [hf, hg] at h
        have h : '\x7d' :: r = fieldText q ++ (fieldsTail rest ++ u) := by
          rw [← append_assoc]
          exact (List.cons.inj h).2
        exact absurd h (ne_fieldText_append q r _)
    | cons p rest =>
      cases hg : sortByKey gs with
      | nil =>
        rw [hf, hg] at h
        have h : fieldText p ++ (fieldsTail rest ++ r) = '\x7d' :: u := by
          rw [← append_assoc]
          exact (List.cons.inj h).2
        exact absurd h.symm (ne_fieldText_append p u _)
      | cons q rest' =>
        -- as in the tail of an object, after a comma
        rw [hf, hg] at h
        have h : fieldsTail (p :: rest) ++ r = fieldsTail (q :: rest') ++ u :=
          congrArg (List.cons ',') (List.cons.inj h).2
        rcases fieldsTail_split (hf ▸ hsorted) h with ⟨hmap, hrest⟩
        exact ⟨by rw [hmap], hrest⟩
  | bool b => cases b <;> cases hkind
  | _ => cases hkind

mutual

/-- The text of every value determines it. -/
theorem splits : ∀ a : Json, Splits a
  | null => by
    intro b r u _ _ h
    have hkind := kind_eq h
    cases b with
    | null => exact ⟨rfl, append_cancel_left h⟩
    | bool b => cases b <;> cases hkind
    | _ => cases hkind
  | bool x => by
    intro b r u _ _ h
    have hkind := kind_eq h
    cases b with
    | bool y =>
      obtain rfl : x = y := by cases x <;> cases y <;> first | rfl | cases hkind
      exact ⟨rfl, append_cancel_left h⟩
    | _ => cases x <;> cases hkind
  | int x => by
    intro b r u hr hu h
    have hkind := kind_eq h
    cases b with
    | int y =>
      rcases number_split hr hu h with ⟨rfl, rfl⟩
      exact ⟨rfl, rfl⟩
    | bool b => cases b <;> cases hkind
    | _ => cases hkind
  | str x => by
    intro b r u _ _ h
    have hkind := kind_eq h
    cases b with
    | str y =>
      rcases quote_split h with ⟨rfl, rfl⟩
      exact ⟨rfl, rfl⟩
    | bool b => cases b <;> cases hkind
    | _ => cases hkind
  | arr xs => splits_arr (splitsItems xs)
  | obj fields => splits_obj (splitsFields fields)

theorem splitsItems : ∀ xs : List Json, ∀ x ∈ xs, Splits x
  | [], _, h => by cases h
  | y :: xs, x, h => by
    rcases mem_cons.mp h with heq | h
    · exact heq ▸ splits y
    · exact splitsItems xs x h

theorem splitsFields : ∀ fields : List (String × Json), ∀ p ∈ fields, Splits p.2
  | [], _, h => by cases h
  | (k, y) :: fields, p, h => by
    rcases mem_cons.mp h with heq | h
    · exact heq ▸ splits y
    · exact splitsFields fields p h

end

/-- Values with the same text are the same, up to the order of the fields of objects. -/
theorem canon_eq_of_dumps_eq {a b : Json} (h : dumps a = dumps b) : canon a = canon b := by
  have hnil : Delimited [] := fun c hc => by cases hc
  refine (splits a b [] [] hnil hnil ?_).1
  rw [h]

/-- A field that two objects with the same text have, if its key is theirs only once. -/
theorem field_eq_of_dumps_eq {fields gs : List (String × Json)} (key : String) {x y : Json}
    (h : dumps (obj fields) = dumps (obj gs)) (hx : (key, x) ∈ fields)
    (honly : ∀ z, (key, z) ∈ gs → z = y) : canon x = canon y := by
  have hcanon := canon_eq_of_dumps_eq h
  rw [canon, canon, canonFields_eq_map, canonFields_eq_map] at hcanon
  have hsame := Json.obj.inj hcanon
  have hmem : (key, canon x) ∈ sortByKey (fields.map fun p => (p.1, canon p.2)) :=
    (perm_insertionSort _ _).mem_iff.mpr (mem_map.mpr ⟨_, hx, rfl⟩)
  rw [hsame] at hmem
  rcases mem_map.mp ((perm_insertionSort _ _).mem_iff.mp hmem) with ⟨p, hp, heq⟩
  obtain ⟨hkey, hvalue⟩ := Prod.mk.inj heq
  rw [← hvalue, honly p.2 (hkey ▸ hp)]

end Json
