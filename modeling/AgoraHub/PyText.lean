/-
# Text handling

`str.strip`, and the two orders the source language uses on text: `sorted` over
strings and the deduplicating `sorted(set(...))`.
-/
import Mathlib.Tactic
import Mathlib.Data.List.Sort
import Mathlib.Data.String.Basic

namespace PyText

open List

/-- `str.isspace` for one code point: the white space that `str.strip` removes. -/
def isSpace (c : Char) : Bool :=
  let n := c.toNat
  (9 ≤ n && n ≤ 13) || (28 ≤ n && n ≤ 32) || n == 0x85 || n == 0xA0 || n == 0x1680 ||
    (0x2000 ≤ n && n ≤ 0x200A) || n == 0x2028 || n == 0x2029 || n == 0x202F || n == 0x205F ||
    n == 0x3000

/-- Remove the elements satisfying `p` from both ends. -/
def trimList {α : Type*} (p : α → Bool) (l : List α) : List α :=
  ((l.dropWhile p).reverse.dropWhile p).reverse

def strip (value : String) : String :=
  String.ofList (trimList isSpace value.toList)

variable {α : Type*}

theorem dropWhile_eq_self_of_head {p : α → Bool} {l : List α} (h : ∀ a ∈ l.head?, p a = false) :
    l.dropWhile p = l := by
  cases l with
  | nil => rfl
  | cons a l => simp [h a (by simp)]

theorem head?_dropWhile_false (p : α → Bool) (l : List α) :
    ∀ a ∈ (l.dropWhile p).head?, p a = false := by
  induction l with
  | nil => simp
  | cons b l ih =>
    by_cases hb : p b
    · simpa [hb] using ih
    · simp [hb]

/-- Trimming twice is trimming once. -/
theorem trimList_trimList (p : α → Bool) (l : List α) :
    trimList p (trimList p l) = trimList p l := by
  set m := l.dropWhile p with hm
  set r := m.reverse.dropWhile p with hr
  have hlast : ∀ a ∈ r.head?, p a = false := head?_dropWhile_false p m.reverse
  -- the head of what is left after trimming the right end is still the head of `m`
  have hhead : ∀ a ∈ r.reverse.head?, p a = false := by
    intro a ha
    have hpre : r.reverse <+: m := by
      have : r <:+ m.reverse := dropWhile_suffix p
      simpa using reverse_prefix.mpr this
    obtain ⟨t, ht⟩ := hpre
    have : a ∈ m.head? := by
      rw [← ht]
      cases hrr : r.reverse with
      | nil => simp [hrr] at ha
      | cons b bs => simpa [hrr] using ha
    exact head?_dropWhile_false p l a this
  have h1 : trimList p l = r.reverse := rfl
  rw [h1, trimList, dropWhile_eq_self_of_head hhead, reverse_reverse,
    dropWhile_eq_self_of_head hlast]

theorem trimList_eq_self {p : α → Bool} {l : List α} (hhead : ∀ a ∈ l.head?, p a = false)
    (hlast : ∀ a ∈ l.getLast?, p a = false) : trimList p l = l := by
  rw [trimList, dropWhile_eq_self_of_head hhead, dropWhile_eq_self_of_head, reverse_reverse]
  simpa [head?_reverse] using hlast

/-- A text whose first and last characters are not white space is trimmed. -/
theorem strip_eq_self {s : String} (hhead : ∀ c ∈ s.toList.head?, isSpace c = false)
    (hlast : ∀ c ∈ s.toList.getLast?, isSpace c = false) : strip s = s := by
  rw [strip, trimList_eq_self hhead hlast, String.ofList_toList]

/-- A trimmed text does not begin with white space. -/
theorem head?_of_strip_eq_self {s : String} (h : strip s = s) :
    ∀ c ∈ s.toList.head?, isSpace c = false := by
  intro c hc
  by_contra hspace
  have hlist : trimList isSpace s.toList = s.toList := by
    conv_rhs => rw [← h, strip, String.toList_ofList]
  cases hs : s.toList with
  | nil =>
    rw [hs] at hc
    cases hc
  | cons d cs =>
    rw [hs] at hc hlist
    obtain rfl : d = c := Option.some.inj hc
    -- the first character would be dropped, and nothing is added
    have hlength := congrArg List.length hlist
    rw [trimList, dropWhile_cons_of_pos (by simpa using hspace), length_reverse,
      length_cons] at hlength
    have hright := ((cs.dropWhile isSpace).reverse.dropWhile_suffix isSpace).length_le
    have hleft := (cs.dropWhile_suffix isSpace).length_le
    rw [length_reverse] at hright
    omega

/-- A trimmed text does not end with white space. -/
theorem getLast?_of_strip_eq_self {s : String} (h : strip s = s) :
    ∀ c ∈ s.toList.getLast?, isSpace c = false := by
  rw [← h, strip, String.toList_ofList, trimList, getLast?_reverse]
  exact head?_dropWhile_false isSpace _

/-- `strip` is idempotent. -/
@[simp] theorem strip_strip (s : String) : strip (strip s) = strip s := by
  simp [strip, trimList_trimList]

/-- `sorted(values)` on text. -/
def sorted (values : List String) : List String := values.insertionSort (· ≤ ·)

/-- `sorted(set(values))` on text. -/
def sortedSet (values : List String) : List String := sorted values.dedup

/-- The order in which texts are given does not matter for sorting them. -/
theorem sorted_eq {xs ys : List String} (h : xs.Perm ys) : sorted xs = sorted ys :=
  ((perm_insertionSort _ xs).trans (h.trans (perm_insertionSort _ ys).symm)).eq_of_pairwise
    (fun _ _ _ _ hab hba => le_antisymm hab hba)
    (pairwise_insertionSort _ _) (pairwise_insertionSort _ _)

variable {values : List String}

theorem mem_sorted {x : String} : x ∈ sorted values ↔ x ∈ values :=
  (perm_insertionSort _ values).mem_iff

theorem mem_sortedSet {x : String} : x ∈ sortedSet values ↔ x ∈ values := by
  rw [sortedSet, mem_sorted, mem_dedup]

@[simp] theorem sortedSet_nil : sortedSet [] = [] := rfl

theorem sorted_eq_nil_iff : sorted values = [] ↔ values = [] := by
  unfold sorted
  rw [← length_eq_zero_iff, length_insertionSort, length_eq_zero_iff]

theorem sortedSet_eq_nil_iff : sortedSet values = [] ↔ values = [] := by
  rw [sortedSet, sorted_eq_nil_iff, dedup_eq_nil]

end PyText
