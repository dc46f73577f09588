/-
# Items in places

A store that keeps each of its items in one of several places, as a family of
multisets.  A step moves one item or lets one enter; the items of all places
together say what is in the store, and when they are distinct each item is in
exactly one place.
-/
import Mathlib.Tactic
import Mathlib.Algebra.BigOperators.Group.Finset.Basic
import Mathlib.Algebra.BigOperators.Group.Multiset.Basic

namespace Placement

open Multiset Function

variable {ι α : Type*} [Fintype ι] [DecidableEq ι]

/-- The items of all places. -/
def total (c : ι → Multiset α) : Multiset α := ∑ i, c i

/-- The item leaves place `i` for place `j`, and nothing else changes. -/
structure Moves (a : α) (i j : ι) (c c' : ι → Multiset α) : Prop where
  ne : i ≠ j
  source : c i = a ::ₘ c' i
  target : c' j = a ::ₘ c j
  others : ∀ k, k ≠ i → k ≠ j → c' k = c k

/-- The item enters place `j`, and nothing else changes. -/
structure Enters (a : α) (j : ι) (c c' : ι → Multiset α) : Prop where
  target : c' j = a ::ₘ c j
  others : ∀ k, k ≠ j → c' k = c k

theorem Enters.total_eq {a : α} {j : ι} {c c' : ι → Multiset α} (h : Enters a j c c') :
    total c' = a ::ₘ total c := by
  unfold total
  rw [← Finset.add_sum_erase _ _ (Finset.mem_univ j), ← Finset.add_sum_erase _ c (Finset.mem_univ j),
    h.target, cons_add]
  congr 2
  exact Finset.sum_congr rfl fun k hk => h.others k (Finset.ne_of_mem_erase hk)

/-- A move keeps what is in the store. -/
theorem Moves.total_eq {a : α} {i j : ι} {c c' : ι → Multiset α} (h : Moves a i j c c') :
    total c' = total c := by
  -- what stays is a store that the item enters at `i`, and one that it enters at `j`
  have hleft : Enters a i (Function.update c i (c' i)) c := by
    refine ⟨by rw [update_self, h.source], fun k hk => ?_⟩
    rw [update_of_ne hk]
  have hright : Enters a j (Function.update c i (c' i)) c' := by
    refine ⟨by rw [update_of_ne h.ne.symm, h.target], fun k hk => ?_⟩
    by_cases hki : k = i
    · rw [hki, update_self]
    · rw [update_of_ne hki, h.others k hki hk]
  rw [hleft.total_eq, hright.total_eq]

omit [DecidableEq ι] in
theorem mem_total {c : ι → Multiset α} {a : α} : a ∈ total c ↔ ∃ i, a ∈ c i := by
  unfold total
  rw [mem_sum]
  simp

/-- The item is in one place, once, and in no other place. -/
def InOnePlace [DecidableEq α] (c : ι → Multiset α) (a : α) : Prop :=
  ∃ i, (c i).count a = 1 ∧ ∀ j, j ≠ i → a ∉ c j

/-- Places whose items are distinct share none. -/
theorem eq_of_mem_of_mem [DecidableEq α] {c : ι → Multiset α} (h : (total c).Nodup) {a : α}
    {i j : ι} (hi : a ∈ c i) (hj : a ∈ c j) : i = j := by
  by_contra hne
  have hle : c i + c j ≤ total c := by
    unfold total
    rw [← Finset.sum_pair hne]
    exact Finset.sum_le_sum_of_subset (Finset.subset_univ _)
  have hcount := nodup_iff_count_le_one.mp h a
  have hle' := count_le_of_le a hle
  rw [count_add] at hle'
  have := count_pos.mpr hi
  have := count_pos.mpr hj
  omega

/-- With distinct items every item of the store is in exactly one place. -/
theorem inOnePlace_of_nodup [DecidableEq α] {c : ι → Multiset α} (h : (total c).Nodup) {a : α}
    (ha : a ∈ total c) : InOnePlace c a := by
  rcases mem_total.mp ha with ⟨i, hi⟩
  refine ⟨i, ?_, fun j hj hmem => hj (eq_of_mem_of_mem h hmem hi)⟩
  have hle : c i ≤ total c := Finset.single_le_sum (fun _ _ => Multiset.zero_le _) (Finset.mem_univ i)
  exact count_eq_one_of_mem (nodup_of_le hle h) hi

end Placement
