/-
# Parent-pointer forests

A forest given by a parent function: `parent x = none` when `x` is unknown,
`some none` when `x` is a root and `some (some p)` when its parent is `p`.  The
chain of `x` is the path from `x` to its root.  A walk that follows the pointers
and remembers what it has seen returns exactly this chain, and a quantity booked
on every node of a chain is the sum over the subtree below each node.
-/
import Mathlib.Tactic
import Mathlib.Logic.Relation

namespace Forest

open List

variable {α : Type*} (parent : α → Option (Option α))

/-- `Chain parent x l`: the path from `x` up to its root is `l`. -/
inductive Chain : α → List α → Prop where
  | root {x : α} : parent x = some none → Chain x [x]
  | step {x p : α} {l : List α} : parent x = some (some p) → Chain p l → Chain x (x :: l)

/-- One step up. -/
def Up (x y : α) : Prop := parent x = some (some y)

variable {parent}

namespace Chain

variable {x : α} {l : List α}

theorem mem_self (h : Chain parent x l) : x ∈ l := by
  cases h <;> simp

/-- A node has one chain. -/
theorem unique {l' : List α} (h : Chain parent x l) (h' : Chain parent x l') : l = l' := by
  induction h generalizing l' with
  | root hx =>
    cases h' with
    | root _ => rfl
    | step hx' _ => simp [hx] at hx'
  | step hx _ ih =>
    cases h' with
    | root hx' => simp [hx] at hx'
    | step hx' h' =>
      obtain rfl : _ = _ := by simpa [hx] using hx'
      rw [ih h']

/-- Every node of a chain has a chain, which is a suffix. -/
theorem suffix_of_mem {y : α} (h : Chain parent x l) (hy : y ∈ l) :
    ∃ l', Chain parent y l' ∧ l' <:+ l := by
  induction h with
  | @root x hx =>
    obtain rfl : y = x := by simpa using hy
    exact ⟨[y], .root hx, suffix_rfl⟩
  | @step x p l hx hl ih =>
    rcases mem_cons.mp hy with rfl | hy
    · exact ⟨_, .step hx hl, suffix_rfl⟩
    · obtain ⟨l', hl', hsuf⟩ := ih hy
      exact ⟨l', hl', hsuf.trans (suffix_cons x l)⟩

/-- A chain visits no node twice. -/
theorem nodup (h : Chain parent x l) : l.Nodup := by
  induction h with
  | root _ => simp
  | @step x p l hx hl ih =>
    refine nodup_cons.mpr ⟨fun hmem => ?_, ih⟩
    -- otherwise the chain of `x` would be a suffix of its own tail
    obtain ⟨l', hl', hsuf⟩ := hl.suffix_of_mem hmem
    have heq := (Chain.step hx hl).unique hl'
    have hlen := hsuf.length_le
    rw [← heq, length_cons] at hlen
    omega

/-- Being on the chain is being reached by steps up. -/
theorem mem_iff_reflTransGen {y : α} (h : Chain parent x l) :
    y ∈ l ↔ Relation.ReflTransGen (Up parent) x y := by
  constructor
  · intro hy
    induction h with
    | @root x hx =>
      obtain rfl : y = x := by simpa using hy
      exact .refl
    | @step x p l hx hl ih =>
      rcases mem_cons.mp hy with rfl | hy
      · exact .refl
      · exact .head hx (ih hy)
  · intro hxy
    induction hxy using Relation.ReflTransGen.head_induction_on generalizing l with
    | refl => exact h.mem_self
    | head hup _ ih =>
      cases h with
      | root hx => rw [Up, hx] at hup; simp at hup
      | step hx hl =>
        obtain rfl : _ = _ := by simpa [Up, hx] using hup
        exact mem_cons_of_mem _ (ih hl)

theorem congr {parent' : α → Option (Option α)} (h : Chain parent x l)
    (heq : ∀ y ∈ l, parent' y = parent y) : Chain parent' x l := by
  induction h with
  | @root x hx => exact .root ((heq x (by simp)).trans hx)
  | @step x p l hx _ ih =>
    exact .step ((heq x (by simp)).trans hx) (ih fun y hy => heq y (mem_cons_of_mem _ hy))

end Chain

/-! ## The walk -/

variable [DecidableEq α]

/-- Follow the parent pointers from `current`.  The second component is `false`
when the walk meets a node it has seen or does not know. -/
def walk (parent : α → Option (Option α)) : ℕ → List α → Option α → List α × Bool
  | _, _, none => ([], true)
  | 0, _, some _ => ([], false)
  | fuel + 1, seen, some x =>
    if x ∈ seen then ([], false)
    else match parent x with
      | none => ([], false)
      | some next =>
        let rest := walk parent fuel (x :: seen) next
        (x :: rest.1, rest.2)

/-- With enough fuel the walk returns the chain. -/
theorem walk_of_chain {x : α} {l : List α} (h : Chain parent x l) :
    ∀ (fuel : ℕ) (seen : List α), l.length ≤ fuel → (∀ y ∈ l, y ∉ seen) →
      walk parent fuel seen (some x) = (l, true) := by
  induction h with
  | @root x hx =>
    intro fuel seen hfuel hseen
    obtain ⟨n, rfl⟩ : ∃ n, fuel = n + 1 := ⟨fuel - 1, by simp at hfuel; omega⟩
    have : x ∉ seen := hseen x (by simp)
    simp [walk, this, hx]
  | @step x p l hx hl ih =>
    intro fuel seen hfuel hseen
    rw [length_cons] at hfuel
    obtain ⟨n, rfl⟩ : ∃ n, fuel = n + 1 := ⟨fuel - 1, by omega⟩
    have hx' : x ∉ seen := hseen x (by simp)
    have hnd := (Chain.step hx hl).nodup
    have hrest : ∀ y ∈ l, y ∉ x :: seen := by
      intro y hy hmem
      rcases mem_cons.mp hmem with rfl | hmem
      · exact (nodup_cons.mp hnd).1 hy
      · exact hseen y (mem_cons_of_mem _ hy) hmem
    simp [walk, hx', hx, ih n (x :: seen) (by omega) hrest]

/-! ## Chains of a forest grown root first -/

/-- `Grown parent ks`: every node of `ks` is a root or hangs below an earlier one. -/
def Grown (parent : α → Option (Option α)) : List α → Prop
  | [] => True
  | x :: ks => (parent x = some none ∨ ∃ p ∈ ks, parent x = some (some p)) ∧ Grown parent ks

omit [DecidableEq α] in
theorem Grown.congr {parent' : α → Option (Option α)} {ks : List α} (h : Grown parent ks)
    (heq : ∀ x ∈ ks, parent' x = parent x) : Grown parent' ks := by
  induction ks with
  | nil => trivial
  | cons k ks ih =>
    obtain ⟨hk, hks⟩ := h
    refine ⟨?_, ih hks fun x hx => heq x (mem_cons_of_mem _ hx)⟩
    rw [heq k (by simp)]
    exact hk

omit [DecidableEq α] in
/-- In a forest grown root first every node has a chain inside the forest. -/
theorem Grown.exists_chain {ks : List α} (h : Grown parent ks) :
    ∀ x ∈ ks, ∃ l, Chain parent x l ∧ ∀ y ∈ l, y ∈ ks := by
  induction ks with
  | nil => simp
  | cons k ks ih =>
    intro x hx
    obtain ⟨hk, hks⟩ := h
    rcases mem_cons.mp hx with rfl | hx
    · rcases hk with hroot | ⟨p, hp, hup⟩
      · exact ⟨[x], .root hroot, by simp⟩
      · obtain ⟨l, hl, hsub⟩ := ih hks p hp
        refine ⟨x :: l, .step hup hl, ?_⟩
        intro y hy
        rcases mem_cons.mp hy with rfl | hy
        · simp
        · exact mem_cons_of_mem _ (hsub y hy)
    · obtain ⟨l, hl, hsub⟩ := ih hks x hx
      exact ⟨l, hl, fun y hy => mem_cons_of_mem _ (hsub y hy)⟩

omit [DecidableEq α] in
/-- When a set misses some node of the forest, it misses one that is a root or whose
parent it contains. -/
theorem Grown.exists_frontier {ks : List α} (h : Grown parent ks) (known : α → Prop)
    (hmiss : ∃ x ∈ ks, ¬ known x) :
    ∃ x ∈ ks, ¬ known x ∧ (parent x = some none ∨ ∃ p, known p ∧ parent x = some (some p)) := by
  induction ks with
  | nil => simp at hmiss
  | cons k ks ih =>
    obtain ⟨hk, hks⟩ := h
    by_cases hrest : ∃ x ∈ ks, ¬ known x
    · obtain ⟨x, hx, hmissing, hup⟩ := ih hks hrest
      exact ⟨x, mem_cons_of_mem _ hx, hmissing, hup⟩
    · push Not at hrest
      obtain ⟨x, hx, hmissing⟩ := hmiss
      rcases mem_cons.mp hx with rfl | hx
      · refine ⟨x, by simp, hmissing, ?_⟩
        rcases hk with hroot | ⟨p, hp, hup⟩
        · exact .inl hroot
        · exact .inr ⟨p, hrest p hp, hup⟩
      · exact absurd (hrest x hx) hmissing

end Forest
