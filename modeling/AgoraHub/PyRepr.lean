/-
# `repr` of lists of scalars

`str([...])` of a list of texts, whole numbers and `None` determines the list.  A text is
written between quotes of the kind that spares escapes, and each of its characters is
written so that it can be read back whatever follows.  Which characters outside ASCII are
printable is a table of the interpreter, taken as a parameter.
-/
import AgoraHub.PyJsonText
import AgoraHub.PyValue

namespace PyRepr

open List

open Json (hexValue Delimited)

/-! ## Characters -/

/-- A number in `width` hexadecimal digits. -/
def hexText : ℕ → ℕ → List Char
  | 0, _ => []
  | width + 1, n => hexText width (n / 16) ++ [HexDigest.digit (n % 16)]

/-- The number that digits stand for. -/
def ofHex (digits : List Char) : ℕ := digits.foldl (fun n c => 16 * n + hexValue c) 0

theorem hexValue_digit {n : ℕ} (h : n < 16) : hexValue (HexDigest.digit n) = n := by
  interval_cases n <;> decide

@[simp] theorem length_hexText (width n : ℕ) : (hexText width n).length = width := by
  induction width generalizing n with
  | zero => rfl
  | succ width ih => rw [hexText, length_append, ih, length_singleton]

/-- A number that fits is read back from its digits. -/
theorem ofHex_hexText {width n : ℕ} (h : n < 16 ^ width) : ofHex (hexText width n) = n := by
  induction width generalizing n with
  | zero =>
    obtain rfl : n = 0 := by simpa using h
    rfl
  | succ width ih =>
    have hdiv : n / 16 < 16 ^ width := by
      rw [Nat.div_lt_iff_lt_mul (by omega), ← pow_succ]
      exact h
    have hlast := hexValue_digit (Nat.mod_lt n (show 0 < 16 by omega))
    unfold ofHex at ih ⊢
    rw [hexText, foldl_append, ih hdiv, foldl_cons, foldl_nil, hlast]
    omega

variable {isPrintable : Char → Bool} {q : Char}

/-- One character of a text between quotes. -/
def escape (isPrintable : Char → Bool) (q c : Char) : List Char :=
  if c = q ∨ c = '\\' then ['\\', c]
  else if c = '\t' then ['\\', 't']
  else if c = '\n' then ['\\', 'n']
  else if c = '\r' then ['\\', 'r']
  else if c.toNat < 32 ∨ c.toNat = 127 then '\\' :: 'x' :: hexText 2 c.toNat
  else if c.toNat < 127 ∨ isPrintable c = true then [c]
  else if c.toNat < 256 then '\\' :: 'x' :: hexText 2 c.toNat
  else if c.toNat < 65536 then '\\' :: 'u' :: hexText 4 c.toNat
  else '\\' :: 'U' :: hexText 8 c.toNat

/-- The character at the head of a text, and the rest. -/
def unescape : List Char → Option (Char × List Char)
  | '\\' :: 't' :: r => some ('\t', r)
  | '\\' :: 'n' :: r => some ('\n', r)
  | '\\' :: 'r' :: r => some ('\r', r)
  | '\\' :: 'x' :: r => some (Char.ofNat (ofHex (r.take 2)), r.drop 2)
  | '\\' :: 'u' :: r => some (Char.ofNat (ofHex (r.take 4)), r.drop 4)
  | '\\' :: 'U' :: r => some (Char.ofNat (ofHex (r.take 8)), r.drop 8)
  | '\\' :: c :: r => some (c, r)
  | c :: r => some (c, r)
  | [] => none

theorem read_hexText {width : ℕ} {c : Char} (h : c.toNat < 16 ^ width) (r : List Char) :
    (Char.ofNat (ofHex ((hexText width c.toNat ++ r).take width)),
      (hexText width c.toNat ++ r).drop width) = (c, r) := by
  rw [take_left' (length_hexText _ _), drop_left' (length_hexText _ _), ofHex_hexText h,
    Char.ofNat_toNat]

/-- A written character can be read back, whatever follows. -/
theorem unescape_escape (hq : q = '\'' ∨ q = '"') (c : Char) (r : List Char) :
    unescape (escape isPrintable q c ++ r) = some (c, r) := by
  have hsmall : c.toNat < 16 ^ 8 := c.val.toNat_lt
  unfold escape
  by_cases h₁ : c = q ∨ c = '\\'
  · rw [if_pos h₁]
    rcases h₁ with rfl | rfl
    · rcases hq with rfl | rfl
      · rfl
      · rfl
    · rfl
  rw [if_neg h₁]
  by_cases h₂ : c = '\t'
  · rw [if_pos h₂, h₂]
    rfl
  rw [if_neg h₂]
  by_cases h₃ : c = '\n'
  · rw [if_pos h₃, h₃]
    rfl
  rw [if_neg h₃]
  by_cases h₄ : c = '\r'
  · rw [if_pos h₄, h₄]
    rfl
  rw [if_neg h₄]
  by_cases h₅ : c.toNat < 32 ∨ c.toNat = 127
  · rw [if_pos h₅]
    exact congrArg some (read_hexText (by omega) r)
  rw [if_neg h₅]
  by_cases h₆ : c.toNat < 127 ∨ isPrintable c = true
  · -- the character stands for itself
    rw [if_pos h₆]
    show unescape (c :: r) = some (c, r)
    unfold unescape
    split <;> simp_all
  rw [if_neg h₆]
  by_cases h₇ : c.toNat < 256
  · rw [if_pos h₇]
    exact congrArg some (read_hexText (by omega) r)
  rw [if_neg h₇]
  by_cases h₈ : c.toNat < 65536
  · rw [if_pos h₈]
    exact congrArg some (read_hexText (by omega) r)
  rw [if_neg h₈]
  exact congrArg some (read_hexText hsmall r)

/-! ## Texts -/

/-- No written character begins with the quote. -/
theorem escape_ne_quote (hq : q = '\'' ∨ q = '"') (c : Char) (r t : List Char) :
    escape isPrintable q c ++ r ≠ q :: t := by
  intro h
  have hread := @unescape_escape isPrintable q hq c r
  have hquote : unescape (q :: t) = some (q, t) := by
    rcases hq with rfl | rfl
    · rfl
    · rfl
  rw [h, hquote] at hread
  cases hread
  have hlength := congrArg List.length h
  rw [escape, if_pos (Or.inl rfl)] at hlength
  simp at hlength

/-- The characters of a text behind the first quote. -/
def quoted (isPrintable : Char → Bool) (q : Char) (s : List Char) : List Char :=
  s.flatMap (escape isPrintable q) ++ [q]

theorem quoted_cons (c : Char) (s r : List Char) : quoted isPrintable q (c :: s) ++ r =
    escape isPrintable q c ++ (quoted isPrintable q s ++ r) := by
  simp [quoted]

/-- Where a text ends is determined by its characters. -/
theorem quoted_split (hq : q = '\'' ∨ q = '"') : ∀ (s t r u : List Char),
    quoted isPrintable q s ++ r = quoted isPrintable q t ++ u → s = t ∧ r = u
  | [], [], r, u, h => ⟨rfl, (List.cons.inj h).2⟩
  | [], d :: t, r, u, h => by
    rw [quoted_cons] at h
    exact absurd h.symm (escape_ne_quote hq d _ r)
  | c :: s, [], r, u, h => by
    rw [quoted_cons] at h
    exact absurd h (escape_ne_quote hq c _ u)
  | c :: s, d :: t, r, u, h => by
    rw [quoted_cons, quoted_cons] at h
    have hread := congrArg unescape h
    rw [unescape_escape hq, unescape_escape hq] at hread
    obtain ⟨rfl, hrest⟩ := Prod.mk.inj (Option.some.inj hread)
    obtain ⟨rfl, rfl⟩ := quoted_split hq s t r u hrest
    exact ⟨rfl, rfl⟩

/-- The quote of a text: double only for a text with single quotes and without double ones. -/
def quoteFor (s : List Char) : Char := if '\'' ∈ s ∧ '"' ∉ s then '"' else '\''

theorem quoteFor_cases (s : List Char) : quoteFor s = '\'' ∨ quoteFor s = '"' := by
  unfold quoteFor
  split
  · exact Or.inr rfl
  · exact Or.inl rfl

/-- `repr` of a text. -/
def strText (isPrintable : Char → Bool) (s : List Char) : List Char :=
  quoteFor s :: quoted isPrintable (quoteFor s) s

theorem strText_split {s t r u : List Char}
    (h : strText isPrintable s ++ r = strText isPrintable t ++ u) : s = t ∧ r = u := by
  obtain ⟨hquote, hrest⟩ := List.cons.inj h
  rw [← hquote] at hrest
  exact quoted_split (quoteFor_cases s) s t r u hrest

/-! ## Scalars and lists of them -/

/-- What a list of scalars is made of. -/
inductive Scalar where
  | none
  | int (n : ℤ)
  | str (s : String)
  deriving DecidableEq

/-- `repr` of a scalar. -/
def Scalar.text (isPrintable : Char → Bool) : Scalar → List Char
  | .none => ['N', 'o', 'n', 'e']
  | .int n => (toString n).toList
  | .str s => strText isPrintable s.toList

/-- What follows an item of a list. -/
def tailText (isPrintable : Char → Bool) : List Scalar → List Char
  | [] => [']']
  | x :: xs => ',' :: ' ' :: (x.text isPrintable ++ tailText isPrintable xs)

/-- `str(items)` -/
def listText (isPrintable : Char → Bool) : List Scalar → List Char
  | [] => ['[', ']']
  | x :: xs => '[' :: (x.text isPrintable ++ tailText isPrintable xs)

/-- `str(items)` -/
def listStr (isPrintable : Char → Bool) (items : List Scalar) : String :=
  String.ofList (listText isPrintable items)

theorem delimited_tailText (xs : List Scalar) : Delimited (tailText isPrintable xs) := by
  intro c hc
  cases xs with
  | nil => exact Or.inr (Or.inl (Option.some.inj hc).symm)
  | cons x xs => exact Or.inl (Option.some.inj hc).symm

/-- What the first character of a scalar tells. -/
def kindOf : List Char → ℕ
  | 'N' :: _ => 0
  | '\'' :: _ => 1
  | '"' :: _ => 1
  | _ => 2

/-- The kind of a scalar. -/
def Scalar.kind : Scalar → ℕ
  | .none => 0
  | .str _ => 1
  | .int _ => 2

theorem kindOf_toDigits (n : ℕ) (r : List Char) : kindOf (Nat.toDigits 10 n ++ r) = 2 := by
  cases hdigits : Nat.toDigits 10 n with
  | nil => exact absurd hdigits Nat.toDigits_ne_nil
  | cons c rest =>
    have hc : c.isDigit = true :=
      Nat.isDigit_of_mem_toDigits (b := 10) (n := n) (by omega) (by omega) (by simp [hdigits])
    unfold kindOf
    split
    · rename_i heq
      rw [(List.cons.inj heq).1] at hc
      cases hc
    · rename_i heq
      rw [(List.cons.inj heq).1] at hc
      cases hc
    · rename_i heq
      rw [(List.cons.inj heq).1] at hc
      cases hc
    · rfl

theorem kindOf_text (x : Scalar) (r : List Char) : kindOf (x.text isPrintable ++ r) = x.kind := by
  cases x with
  | none => rfl
  | int n =>
    cases n with
    | ofNat m =>
      rw [Scalar.text, Int.ofNat_eq_natCast, Json.toList_toString_ofNat]
      exact kindOf_toDigits m r
    | negSucc m =>
      rw [Scalar.text, Json.toList_toString_negSucc]
      rfl
  | str s =>
    simp only [Scalar.text, strText]
    rcases quoteFor_cases s.toList with h | h
    · rw [h]
      rfl
    · rw [h]
      rfl

/-- Where a scalar ends is determined by its characters. -/
theorem text_split {x y : Scalar} {r u : List Char} (hr : Delimited r) (hu : Delimited u)
    (h : x.text isPrintable ++ r = y.text isPrintable ++ u) : x = y ∧ r = u := by
  have hkind : x.kind = y.kind := by
    rw [← @kindOf_text isPrintable x r, h, kindOf_text]
  cases x with
  | none =>
    cases y with
    | none => exact ⟨rfl, append_cancel_left h⟩
    | int n => cases hkind
    | str t => cases hkind
  | int m =>
    cases y with
    | none => cases hkind
    | int n =>
      obtain ⟨rfl, rfl⟩ := Json.number_split hr hu h
      exact ⟨rfl, rfl⟩
    | str t => cases hkind
  | str s =>
    cases y with
    | none => cases hkind
    | int n => cases hkind
    | str t =>
      obtain ⟨hst, rfl⟩ := strText_split h
      exact ⟨congrArg Scalar.str (String.toList_inj.mp hst), rfl⟩

theorem tailText_inj : ∀ {xs ys : List Scalar},
    tailText isPrintable xs = tailText isPrintable ys → xs = ys
  | [], [], _ => rfl
  | [], y :: ys, h => absurd (List.cons.inj h).1 (by decide)
  | x :: xs, [], h => absurd (List.cons.inj h).1 (by decide)
  | x :: xs, y :: ys, h => by
    obtain ⟨rfl, htail⟩ := text_split (delimited_tailText xs) (delimited_tailText ys)
      (List.cons.inj (List.cons.inj h).2).2
    rw [tailText_inj htail]

/-- No scalar is written as the end of a list. -/
theorem text_ne_bracket (x : Scalar) (r : List Char) : x.text isPrintable ++ r ≠ [']'] := by
  intro h
  have hkind := @kindOf_text isPrintable x r
  rw [h] at hkind
  cases x with
  | none => cases hkind
  | int n =>
    cases n with
    | ofNat m =>
      rw [Scalar.text, Int.ofNat_eq_natCast, Json.toList_toString_ofNat] at h
      exact Json.head_toDigits_ne rfl h
    | negSucc m =>
      rw [Scalar.text, Json.toList_toString_negSucc] at h
      cases (List.cons.inj h).1
  | str s => cases hkind

theorem listText_inj {xs ys : List Scalar}
    (h : listText isPrintable xs = listText isPrintable ys) : xs = ys := by
  cases xs with
  | nil =>
    cases ys with
    | nil => rfl
    | cons y ys => exact absurd (List.cons.inj h).2.symm (text_ne_bracket y _)
  | cons x xs =>
    cases ys with
    | nil => exact absurd (List.cons.inj h).2 (text_ne_bracket x _)
    | cons y ys =>
      obtain ⟨rfl, htail⟩ := text_split (delimited_tailText xs) (delimited_tailText ys)
        (List.cons.inj h).2
      rw [tailText_inj htail]

theorem listStr_inj {xs ys : List Scalar} :
    listStr isPrintable xs = listStr isPrintable ys ↔ xs = ys := by
  constructor
  · intro h
    have hlist := congrArg String.toList h
    rw [listStr, listStr, String.toList_ofList, String.toList_ofList] at hlist
    exact listText_inj hlist
  · rintro rfl
    rfl

end PyRepr
