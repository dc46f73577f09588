/-
# Moments as the texts they are stored as

`format_datetime` writes a moment in ISO form and leaves the fraction out when it is
zero.  A table stores the text and its CHECK constraints compare texts, while the
rest of the store compares moments.  The two orders agree, except that a moment on a
whole second is textually after every other moment of its second.
-/
import Mathlib.Data.Char
import Mathlib.Data.List.Lex
import AgoraHub.PyTime

namespace Datetime

open List

/-- The number of the second that a moment lies in.  The first 19 characters of its text are those
of this second, and they have the same order: every field is written at full width. -/
def second (t : Datetime) : ℕ := t.val / 1000000

def microsecond (t : Datetime) : ℕ := t.val % 1000000

/-- A number in `n` digits, then the mark of UTC. -/
def digitsText : ℕ → ℕ → List Char
  | 0, _ => ['Z']
  | n + 1, k => Nat.digitChar (k / 10 ^ n) :: digitsText n (k % 10 ^ n)

/-- What `format_datetime` writes after the seconds. -/
def fractionText (t : Datetime) : List Char :=
  if t.microsecond = 0 then ['Z'] else '.' :: digitsText 6 t.microsecond

/-- `format_datetime(a) <= format_datetime(b)`, a comparison of texts. -/
def TextLe (a b : Datetime) : Prop :=
  a.second < b.second ∨ a.second = b.second ∧ a.fractionText ≤ b.fractionText

instance (a b : Datetime) : Decidable (TextLe a b) := inferInstanceAs (Decidable (_ ∨ _))

/-! ## The order of the texts -/

/-- The place of a moment among the texts of its second. -/
def fractionKey (t : Datetime) : ℕ := if t.microsecond = 0 then 1000000 else t.microsecond

theorem digitChar_lt_iff {k l : ℕ} (hk : k < 10) (hl : l < 10) :
    Nat.digitChar k < Nat.digitChar l ↔ k < l := by
  interval_cases k <;> interval_cases l <;> decide

theorem digitChar_inj {k l : ℕ} (hk : k < 10) (hl : l < 10) :
    Nat.digitChar k = Nat.digitChar l ↔ k = l := by
  interval_cases k <;> interval_cases l <;> decide

/-- Numbers written at one width have the order of their texts. -/
theorem digitsText_lt_iff (n : ℕ) {k l : ℕ} (hk : k < 10 ^ n) (hl : l < 10 ^ n) :
    digitsText n k < digitsText n l ↔ k < l := by
  induction n generalizing k l with
  | zero =>
    obtain rfl : k = 0 := by omega
    obtain rfl : l = 0 := by omega
    simp [digitsText]
  | succ n ih =>
    have hpos : 0 < 10 ^ n := by positivity
    have hkd : k / 10 ^ n < 10 := Nat.div_lt_of_lt_mul (by rwa [pow_succ] at hk)
    have hld : l / 10 ^ n < 10 := Nat.div_lt_of_lt_mul (by rwa [pow_succ] at hl)
    have hksplit := Nat.div_add_mod k (10 ^ n)
    have hlsplit := Nat.div_add_mod l (10 ^ n)
    have hkm := Nat.mod_lt k hpos
    have hlm := Nat.mod_lt l hpos
    rw [digitsText, digitsText, cons_lt_cons_iff, digitChar_lt_iff hkd hld,
      digitChar_inj hkd hld, ih hkm hlm]
    constructor
    · rintro (h | ⟨he, h⟩)
      · have : 10 ^ n * (k / 10 ^ n) + 10 ^ n ≤ 10 ^ n * (l / 10 ^ n) := by
          calc 10 ^ n * (k / 10 ^ n) + 10 ^ n = 10 ^ n * (k / 10 ^ n + 1) := by ring
            _ ≤ 10 ^ n * (l / 10 ^ n) := Nat.mul_le_mul_left _ h
        omega
      · rw [he] at hksplit
        omega
    · intro h
      rcases lt_trichotomy (k / 10 ^ n) (l / 10 ^ n) with hd | hd | hd
      · exact Or.inl hd
      · rw [hd] at hksplit
        exact Or.inr ⟨hd, by omega⟩
      · have := Nat.div_le_div_right (c := 10 ^ n) h.le
        omega

/-- The order of what is written after the seconds. -/
theorem fractionText_lt_iff (a b : Datetime) :
    a.fractionText < b.fractionText ↔ a.fractionKey < b.fractionKey := by
  have ha : a.microsecond < 10 ^ 6 := Nat.mod_lt _ (by norm_num)
  have hb : b.microsecond < 10 ^ 6 := Nat.mod_lt _ (by norm_num)
  have hdot : ('Z' : Char) ≠ '.' := by decide
  have hlt : ¬ ('Z' : Char) < '.' := by decide
  have hgt : ('.' : Char) < 'Z' := by decide
  unfold fractionText fractionKey
  by_cases ha0 : a.microsecond = 0 <;> by_cases hb0 : b.microsecond = 0
  · simp [ha0, hb0]
  · rw [if_pos ha0, if_neg hb0, if_pos ha0, if_neg hb0, cons_lt_cons_iff]
    simp only [hlt, hdot, false_and, or_false, false_iff]
    omega
  · rw [if_neg ha0, if_pos hb0, if_neg ha0, if_pos hb0, cons_lt_cons_iff]
    simp only [hgt, true_or, true_iff]
    omega
  · rw [if_neg ha0, if_neg hb0, if_neg ha0, if_neg hb0, cons_lt_cons_iff]
    simp [digitsText_lt_iff 6 ha hb]

theorem textLe_iff (a b : Datetime) :
    TextLe a b ↔ a.second < b.second ∨ a.second = b.second ∧ a.fractionKey ≤ b.fractionKey := by
  have hle : a.fractionText ≤ b.fractionText ↔ ¬ b.fractionText < a.fractionText := not_lt.symm
  unfold TextLe
  rw [← not_lt (a := b.fractionKey), ← fractionText_lt_iff, hle]

theorem textLe_refl (a : Datetime) : TextLe a a := (textLe_iff a a).mpr (Or.inr ⟨rfl, le_rfl⟩)

theorem textLe_trans {a b c : Datetime} (hab : TextLe a b) (hbc : TextLe b c) : TextLe a c := by
  rw [textLe_iff] at *
  omega

/-! ## Both orders at once -/

/-- At or before, as a moment and as a text. -/
def Before (a b : Datetime) : Prop := a ≤ b ∧ TextLe a b

instance (a b : Datetime) : Decidable (Before a b) := inferInstanceAs (Decidable (_ ∧ _))

theorem before_refl (a : Datetime) : Before a a := ⟨le_rfl, textLe_refl a⟩

theorem Before.trans {a b c : Datetime} (hab : Before a b) (hbc : Before b c) : Before a c :=
  ⟨hab.1.trans hbc.1, textLe_trans hab.2 hbc.2⟩

theorem Before.max_eq {a b : Datetime} (h : Before a b) : max a b = b := max_eq_right h.1

end Datetime
