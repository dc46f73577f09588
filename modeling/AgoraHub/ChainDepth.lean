/-
# Longest chains

How long the chains below a node of a graph can be.  Where every node has a longest
chain there is no cycle, and every node hangs on one with nothing below it.
-/
import Mathlib.Tactic
import Mathlib.Logic.Relation

namespace ChainDepth

open List

variable {α : Type} (below : α → List α)

/-- A chain of so many steps starts at the node. -/
inductive Chain : α → ℕ → Prop where
  | nil (x : α) : Chain x 0
  | cons {x y : α} {n : ℕ} : y ∈ below x → Chain y n → Chain x (n + 1)

/-- The longest chain below the node has so many steps. -/
def IsDepth (x : α) (n : ℕ) : Prop := Chain below x n ∧ ∀ m, Chain below x m → m ≤ n

/-- No chain comes back to the node that it starts at. -/
def Acyclic : Prop := ∀ x, ¬ Relation.TransGen (fun x y => y ∈ below x) x x

variable {below}

variable {x : α} {n : ℕ}

theorem IsDepth.unique {m : ℕ} (hm : IsDepth below x m) (hn : IsDepth below x n) : m = n :=
  Nat.le_antisymm (hn.2 m hm.1) (hm.2 n hn.1)

theorem Chain.congr {below' : α → List α} (h : ∀ x y, y ∈ below x → y ∈ below' x)
    (hchain : Chain below x n) : Chain below' x n := by
  induction hchain with
  | nil x => exact Chain.nil x
  | cons hy _ ih => exact Chain.cons (h _ _ hy) ih

theorem Chain.exists_longer {y : α} (h : Relation.TransGen (fun x y => y ∈ below x) x y)
    (hchain : Chain below y n) : ∃ m, n < m ∧ Chain below x m := by
  induction h using Relation.TransGen.head_induction_on with
  | single hy => exact ⟨n + 1, Nat.lt_succ_self n, Chain.cons hy hchain⟩
  | head hy _ ih =>
    rcases ih with ⟨m, hm, hlonger⟩
    exact ⟨m + 1, Nat.lt_succ_of_lt hm, Chain.cons hy hlonger⟩

theorem acyclic_of_isDepth (h : ∀ x y, y ∈ below x → ∃ n, IsDepth below x n) : Acyclic below := by
  intro x hcycle
  have hbelow : ∃ y, y ∈ below x := by
    rcases Relation.TransGen.head'_iff.mp hcycle with ⟨y, hy, -⟩
    exact ⟨y, hy⟩
  rcases hbelow with ⟨y, hy⟩
  rcases h x y hy with ⟨n, hchain, hmax⟩
  rcases Chain.exists_longer hcycle hchain with ⟨m, hlt, hlonger⟩
  exact absurd (hmax m hlonger) (Nat.not_le.mpr hlt)

/-- Nothing is below a node exactly when its depth is zero. -/
theorem isDepth_zero : IsDepth below x 0 ↔ below x = [] := by
  constructor
  · intro h
    rw [eq_nil_iff_forall_not_mem]
    intro y hy
    exact absurd (h.2 1 (Chain.cons hy (Chain.nil y))) (by omega)
  · intro h
    refine ⟨Chain.nil x, fun m hm => ?_⟩
    cases hm with
    | nil => exact le_refl 0
    | cons hy _ => rw [h] at hy; cases hy

/-- The depth of a node is one more than the greatest depth below it. -/
theorem isDepth_succ {depths : List ℕ} (h : List.Forall₂ (IsDepth below) (below x) depths)
    (hmax : depths.max? = some n) : IsDepth below x (n + 1) := by
  rcases max?_eq_some_iff.mp hmax with ⟨hmem, hle⟩
  constructor
  · rcases mem_iff_getElem.mp hmem with ⟨i, hi, rfl⟩
    have hi' : i < (below x).length := by rw [h.length_eq]; exact hi
    exact Chain.cons (getElem_mem hi') (h.get hi' hi).1
  · intro m hm
    cases hm with
    | nil => exact Nat.zero_le _
    | @cons _ y m hy hchain =>
      rcases mem_iff_getElem.mp hy with ⟨i, hi, rfl⟩
      have hi' : i < depths.length := by rw [← h.length_eq]; exact hi
      have hdepth := (h.get hi hi').2 m hchain
      exact Nat.succ_le_succ (hdepth.trans (hle _ (getElem_mem hi')))

/-- A longest chain ends at a node with nothing below it. -/
theorem IsDepth.exists_root : ∀ {x : α}, IsDepth below x n →
    ∃ r, below r = [] ∧ Relation.ReflTransGen (fun x y => y ∈ below x) x r := by
  induction n with
  | zero => exact fun {x} h => ⟨x, isDepth_zero.mp h, Relation.ReflTransGen.refl⟩
  | succ n ih =>
    intro x h
    rcases h with ⟨hchain, hmax⟩
    cases hchain with
    | @cons _ y _ hy hchain =>
      have hdepth : IsDepth below y n :=
        ⟨hchain, fun m hm => Nat.le_of_succ_le_succ (hmax (m + 1) (Chain.cons hy hm))⟩
      rcases ih hdepth with ⟨r, hroot, hpath⟩
      exact ⟨r, hroot, Relation.ReflTransGen.head hy hpath⟩

end ChainDepth
