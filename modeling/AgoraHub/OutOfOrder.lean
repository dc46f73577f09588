/-
# What arrives out of order

Items arrive in any order, some of them more than once.  Two things that a reader keeps
depend only on which items have arrived: the latest item in a linear order, and the
greatest number below which no number is missing.
-/
import Mathlib.Tactic

namespace OutOfOrder

open List

/-! ## The latest item -/

section Latest

variable {α ω : Type*} [LinearOrder ω] {order : α → ω} {items items' : List α}

/-- What is kept of the items: nothing of none, and else one that no item is after. -/
def IsLatest (order : α → ω) (items : List α) : Option α → Prop
  | none => items = []
  | some a => a ∈ items ∧ ∀ b ∈ items, order b ≤ order a

/-- The later of what is kept and a new item, the new one where they are level. -/
def adopt (order : α → ω) (kept : Option α) (a : α) : Option α :=
  if kept.all fun b => decide (order b ≤ order a) then some a else kept

@[simp] theorem adopt_none (a : α) : adopt order none a = some a := rfl

theorem adopt_some (b a : α) :
    adopt order (some b) a = if order b ≤ order a then some a else some b := by
  simp [adopt]

/-- One more item. -/
theorem IsLatest.adopt {kept : Option α} (h : IsLatest order items kept) (a : α) :
    IsLatest order (items ++ [a]) (OutOfOrder.adopt order kept a) := by
  unfold OutOfOrder.adopt
  cases kept with
  | none =>
    obtain rfl : items = [] := h
    simp [IsLatest]
  | some b =>
    rcases h with ⟨hmem, hall⟩
    by_cases hle : order b ≤ order a
    · rw [if_pos (by simpa using hle)]
      refine ⟨by simp, fun c hc => ?_⟩
      rcases mem_append.mp hc with hc | hc
      · exact (hall c hc).trans hle
      · rw [mem_singleton.mp hc]
    · rw [if_neg (by simpa using hle)]
      refine ⟨mem_append_left _ hmem, fun c hc => ?_⟩
      rcases mem_append.mp hc with hc | hc
      · exact hall c hc
      · rw [mem_singleton.mp hc]
        exact (not_le.mp hle).le

theorem IsLatest.congr {kept : Option α} (h : IsLatest order items kept)
    (hmem : ∀ a, a ∈ items ↔ a ∈ items') : IsLatest order items' kept := by
  cases kept with
  | none =>
    obtain rfl : items = [] := h
    exact eq_nil_iff_forall_not_mem.mpr fun a ha => not_mem_nil ((hmem a).mpr ha)
  | some a => exact ⟨(hmem a).mp h.1, fun b hb => h.2 b ((hmem b).mpr hb)⟩

/-- Where no two items are level, what is kept depends only on which items have arrived. -/
theorem IsLatest.unique {kept kept' : Option α} (h : IsLatest order items kept)
    (h' : IsLatest order items kept')
    (hinj : ∀ a ∈ items, ∀ b ∈ items, order a = order b → a = b) : kept = kept' := by
  cases kept with
  | none =>
    obtain rfl : items = [] := h
    cases kept' with
    | none => rfl
    | some b => exact absurd h'.1 not_mem_nil
  | some a =>
    cases kept' with
    | none =>
      obtain rfl : items = [] := h'
      exact absurd h.1 not_mem_nil
    | some b => exact congrArg some (hinj a h.1 b h'.1 (le_antisymm (h'.2 a h.1) (h.2 b h'.1)))

end Latest

/-! ## The contiguous prefix -/

section Prefix

variable {has has' : ℕ → Prop}

/-- The numbers from one to `n` have arrived, and the next one has not. -/
def IsPrefix (has : ℕ → Prop) (n : ℕ) : Prop := (∀ i, 1 ≤ i → i ≤ n → has i) ∧ ¬ has (n + 1)

theorem IsPrefix.congr {n : ℕ} (h : IsPrefix has n) (hhas : ∀ i, has i ↔ has' i) :
    IsPrefix has' n :=
  ⟨fun i hpos hle => (hhas i).mp (h.1 i hpos hle), fun hnext => h.2 ((hhas _).mpr hnext)⟩

theorem IsPrefix.unique {m n : ℕ} (hm : IsPrefix has m) (hn : IsPrefix has n) : m = n := by
  rcases lt_trichotomy m n with h | h | h
  · exact absurd (hn.1 (m + 1) (by omega) (by omega)) hm.2
  · exact h
  · exact absurd (hm.1 (n + 1) (by omega) (by omega)) hn.2

end Prefix

end OutOfOrder
