/-
# Lists related item by item

A table whose rows change in place is related to the table before, row by row.  What
follows from such a relation: every item has a counterpart, relations compose, and a
property that only disappears is counted at most as often afterwards.
-/
import Mathlib.Tactic

namespace RelatedLists

open List

variable {α β γ : Type*} {R : α → β → Prop} {xs : List α} {ys : List β}

theorem exists_right (h : Forall₂ R xs ys) {x : α} (hx : x ∈ xs) : ∃ y ∈ ys, R x y := by
  induction h with
  | nil => cases hx
  | cons hxy _ ih =>
    rcases mem_cons.mp hx with rfl | hx
    · exact ⟨_, mem_cons_self, hxy⟩
    · rcases ih hx with ⟨y, hy, hr⟩
      exact ⟨y, mem_cons_of_mem _ hy, hr⟩

theorem exists_left (h : Forall₂ R xs ys) {y : β} (hy : y ∈ ys) : ∃ x ∈ xs, R x y := by
  induction h with
  | nil => cases hy
  | cons hxy _ ih =>
    rcases mem_cons.mp hy with rfl | hy
    · exact ⟨_, mem_cons_self, hxy⟩
    · rcases ih hy with ⟨x, hx, hr⟩
      exact ⟨x, mem_cons_of_mem _ hx, hr⟩

theorem trans {S : β → γ → Prop} {T : α → γ → Prop} (h : Forall₂ R xs ys) {zs : List γ}
    (h' : Forall₂ S ys zs) (comp : ∀ a b c, R a b → S b c → T a c) : Forall₂ T xs zs := by
  induction h generalizing zs with
  | nil =>
    cases h'
    exact .nil
  | cons hxy _ ih =>
    cases h' with
    | cons hyz htail => exact .cons (comp _ _ _ hxy hyz) (ih htail)

theorem map_eq {f : α → γ} {g : β → γ} (agree : ∀ a b, R a b → g b = f a) (h : Forall₂ R xs ys) :
    ys.map g = xs.map f := by
  induction h with
  | nil => rfl
  | cons hxy _ ih => rw [map_cons, map_cons, agree _ _ hxy, ih]

/-- A property that no item gains is counted at most as often. -/
theorem countP_le {p : α → Bool} {q : β → Bool} (lose : ∀ a b, R a b → q b = true → p a = true)
    (h : Forall₂ R xs ys) : ys.countP q ≤ xs.countP p := by
  induction h with
  | nil => exact le_rfl
  | @cons a b _ _ hab _ ih =>
    rw [countP_cons, countP_cons]
    by_cases hq : q b = true
    · rw [if_pos hq, if_pos (lose a b hab hq)]
      exact Nat.succ_le_succ ih
    · rw [if_neg hq]
      exact le_add_right ih

end RelatedLists
