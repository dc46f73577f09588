/-
# Lists of items with keys

A record of a list is found and replaced under its key.  The facts below say what
such a replacement keeps: the keys, the length, and every sum that the new item
does not change.
-/
import Mathlib.Tactic

namespace KeyedList

open List

variable {α κ : Type*} [DecidableEq κ] (key : α → κ)

/-- The items with the one of the same key replaced. -/
def replace (xs : List α) (u : α) : List α := xs.map fun x => if key x = key u then u else x

/-- The item of a key. -/
def find? (xs : List α) (k : κ) : Option α := xs.find? fun x => decide (key x = k)

variable {key}

@[simp] theorem length_replace (xs : List α) (u : α) : (replace key xs u).length = xs.length :=
  length_map _

@[simp] theorem map_key_replace (xs : List α) (u : α) : (replace key xs u).map key = xs.map key := by
  unfold replace
  rw [map_map]
  apply map_congr_left
  intro x _
  by_cases h : key x = key u <;> simp [h]

variable {xs : List α}

/-- A field that the new item has in common with the ones that it replaces stays where it is. -/
theorem map_replace {β : Type*} {f : α → β} {u : α} (h : ∀ x ∈ xs, key x = key u → f u = f x) :
    (replace key xs u).map f = xs.map f := by
  unfold replace
  rw [map_map]
  apply map_congr_left
  intro x hx
  show f (if key x = key u then u else x) = f x
  split
  · exact h x hx ‹_›
  · rfl

/-- Keys that single out the same items replace the same items. -/
theorem replace_congr {κ' : Type*} [DecidableEq κ'] {key' : α → κ'} {u : α}
    (h : ∀ x ∈ xs, key' x = key' u ↔ key x = key u) : replace key' xs u = replace key xs u :=
  map_congr_left fun x hx => by simp only [h x hx]

theorem mem_replace {u x : α} (h : x ∈ replace key xs u) : x = u ∨ x ∈ xs := by
  rcases mem_map.mp h with ⟨y, hy, rfl⟩
  by_cases hk : key y = key u
  · exact Or.inl (if_pos hk)
  · right
    rw [if_neg hk]
    exact hy

/-- An item of a replacement is the new one or an old one of another key. -/
theorem mem_replace_iff {u x : α} :
    x ∈ replace key xs u ↔ (x = u ∧ key u ∈ xs.map key) ∨ (x ∈ xs ∧ key x ≠ key u) := by
  unfold replace
  rw [mem_map]
  constructor
  · rintro ⟨y, hy, rfl⟩
    by_cases hk : key y = key u
    · rw [if_pos hk]
      exact Or.inl ⟨rfl, hk ▸ mem_map_of_mem hy⟩
    · rw [if_neg hk]
      exact Or.inr ⟨hy, hk⟩
  · rintro (⟨rfl, hu⟩ | ⟨hx, hk⟩)
    · rcases mem_map.mp hu with ⟨y, hy, hk⟩
      exact ⟨y, hy, if_pos hk⟩
    · exact ⟨x, hx, if_neg hk⟩

theorem replace_of_notMem {u : α} (h : key u ∉ xs.map key) : replace key xs u = xs := by
  unfold replace
  conv_rhs => rw [← map_id xs]
  apply map_congr_left
  intro x hx
  apply if_neg
  intro hk
  exact h (hk ▸ mem_map_of_mem hx)

/-- A replacement changes a sum by the difference between the two items. -/
theorem sum_replace {μ : Type*} [AddCommMonoid μ] (f : α → μ) (hkeys : (xs.map key).Nodup) {a u : α}
    (ha : a ∈ xs) (hu : key u = key a) :
    ((replace key xs u).map f).sum + f a = (xs.map f).sum + f u := by
  induction xs with
  | nil => cases ha
  | cons x xs ih =>
    rw [map_cons, nodup_cons] at hkeys
    rcases mem_cons.mp ha with rfl | ha
    · have hrest : replace key xs u = xs := replace_of_notMem (hu ▸ hkeys.1)
      show (((if key a = key u then u else a) :: replace key xs u).map f).sum + f a = _
      rw [hrest, if_pos hu.symm]
      simp only [map_cons, sum_cons]
      rw [add_comm (f u), add_right_comm, add_comm (f a)]
    · have hx : key x ≠ key u := by
        intro hk
        exact hkeys.1 (by rw [hk, hu]; exact mem_map_of_mem ha)
      show (((if key x = key u then u else x) :: replace key xs u).map f).sum + f a = _
      rw [if_neg hx]
      simp only [map_cons, sum_cons]
      rw [add_assoc, ih hkeys.2 ha, ← add_assoc]

theorem mem_of_find? {k : κ} {a : α} (h : find? key xs k = some a) : a ∈ xs ∧ key a = k :=
  ⟨mem_of_find?_eq_some h, by simpa using find?_some h⟩

/-- What is found of items that are mapped without a change of their keys. -/
theorem find?_map {β : Type*} {key' : β → κ} {f : β → α} (hkey : ∀ b, key (f b) = key' b)
    (xs : List β) (k : κ) : find? key (xs.map f) k = (find? key' xs k).map f := by
  unfold find?
  rw [List.find?_map]
  congr 2
  funext b
  show decide (key (f b) = k) = _
  rw [hkey b]

theorem find?_eq_none_iff {k : κ} : find? key xs k = none ↔ k ∉ xs.map key := by
  simp [find?]

theorem find?_concat (xs : List α) (u : α) (k : κ) :
    find? key (xs ++ [u]) k = (find? key xs k).or (if key u = k then some u else none) := by
  unfold find?
  rw [find?_append]
  by_cases hk : key u = k <;> simp [hk]

/-- The only item that passes a test is found. -/
theorem find?_of_unique {p : α → Bool} {a : α} (ha : a ∈ xs) (hp : p a = true)
    (hunique : ∀ b ∈ xs, p b = true → b = a) : xs.find? p = some a := by
  cases hfind : xs.find? p with
  | none => exact absurd hp (find?_eq_none.mp hfind a ha)
  | some b => exact congrArg some (hunique b (mem_of_find?_eq_some hfind) (find?_some hfind))

/-- Where keys are distinct, an item is found under its key. -/
theorem find?_of_mem (hkeys : (xs.map key).Nodup) {a : α} (ha : a ∈ xs) :
    find? key xs (key a) = some a :=
  find?_of_unique ha (decide_eq_true rfl) fun _ hb hk =>
    inj_on_of_nodup_map hkeys hb ha (of_decide_eq_true hk)

/-- A test that passes neither the items of a key nor what replaces them. -/
theorem filter_replace {p : α → Bool} {u : α} (hnew : p u = false)
    (hold : ∀ x ∈ xs, key x = key u → p x = false) : (replace key xs u).filter p = xs.filter p := by
  unfold replace
  induction xs with
  | nil => rfl
  | cons x xs ih =>
    rw [map_cons]
    have htail := ih fun y hy => hold y (mem_cons_of_mem _ hy)
    by_cases hk : key x = key u
    · have hx := hold x mem_cons_self hk
      rw [if_pos hk, filter_cons_of_neg (by simp [hnew]),
        filter_cons_of_neg (by simp [hx]), htail]
    · rw [if_neg hk, filter_cons, filter_cons, htail]

/-- A replacement relates the items in their order, where keys are distinct. -/
theorem forall₂_replace {R : α → α → Prop} (hkeys : (xs.map key).Nodup) {a u : α} (ha : a ∈ xs)
    (hu : key u = key a) (hrefl : ∀ x ∈ xs, R x x) (h : R a u) :
    List.Forall₂ R xs (replace key xs u) := by
  unfold replace
  rw [forall₂_map_right_iff]
  refine forall₂_same.mpr fun x hx => ?_
  by_cases hk : key x = key u
  · obtain rfl : x = a := inj_on_of_nodup_map hkeys hx ha (hk.trans hu)
    rw [if_pos hk]
    exact h
  · rw [if_neg hk]
    exact hrefl x hx

/-- A replacement adds at most one to a count. -/
theorem countP_replace_le {p : α → Bool} (hkeys : (xs.map key).Nodup) (u : α) :
    (replace key xs u).countP p ≤ xs.countP p + 1 := by
  induction xs with
  | nil => exact Nat.zero_le _
  | cons x xs ih =>
    rw [map_cons, nodup_cons] at hkeys
    by_cases hk : key x = key u
    · have htail : replace key xs u = xs := replace_of_notMem (hk ▸ hkeys.1)
      have hreplace : replace key (x :: xs) u = u :: xs := by
        rw [replace, map_cons, if_pos hk]
        exact congrArg _ htail
      rw [hreplace, countP_cons, countP_cons]
      split <;> split <;> omega
    · have hreplace : replace key (x :: xs) u = x :: replace key xs u := by
        rw [replace, map_cons, if_neg hk, replace]
      rw [hreplace, countP_cons, countP_cons]
      have := ih hkeys.2
      omega

/-- What is found of another key stays. -/
theorem find?_replace_of_ne {u : α} {k : κ} (h : key u ≠ k) :
    find? key (replace key xs u) k = find? key xs k := by
  unfold find? replace
  induction xs with
  | nil => rfl
  | cons x xs ih =>
    rw [map_cons]
    by_cases hx : key x = key u
    · rw [if_pos hx, find?_cons_of_neg (by simpa using h),
        find?_cons_of_neg (by simpa [hx] using h), ih]
    · rw [if_neg hx]
      by_cases hk : key x = k
      · rw [find?_cons_of_pos (by simpa using hk), find?_cons_of_pos (by simpa using hk)]
      · rw [find?_cons_of_neg (by simpa using hk), find?_cons_of_neg (by simpa using hk),
          ih]

/-- The new item is found under its key, when there was one before. -/
theorem find?_replace_self {u : α} (h : key u ∈ xs.map key) :
    find? key (replace key xs u) (key u) = some u := by
  unfold find? replace
  induction xs with
  | nil => cases h
  | cons x xs ih =>
    rw [map_cons]
    by_cases hx : key x = key u
    · rw [if_pos hx]
      exact find?_cons_of_pos (by simp)
    · rw [if_neg hx, find?_cons_of_neg (by simpa using hx)]
      rw [map_cons, mem_cons] at h
      exact ih (h.resolve_left fun he => hx he.symm)

/-- What is found does not depend on the order, where keys are distinct. -/
theorem find?_perm {xs ys : List α} (hp : xs.Perm ys) (hkeys : (xs.map key).Nodup) (k : κ) :
    find? key xs k = find? key ys k := by
  have hkeys' : (ys.map key).Nodup := (hp.map key).nodup_iff.mp hkeys
  cases hx : find? key xs k with
  | none =>
    symm
    unfold find? at hx ⊢
    rw [find?_eq_none] at hx ⊢
    intro x hmem
    exact hx x (hp.mem_iff.mpr hmem)
  | some a =>
    rcases mem_of_find? hx with ⟨ha, rfl⟩
    exact (find?_of_mem hkeys' (hp.mem_iff.mp ha)).symm

omit [DecidableEq κ] in
theorem nodup_map_concat {u : α} (hkeys : (xs.map key).Nodup) (hnew : ∀ x ∈ xs, key x ≠ key u) :
    ((xs ++ [u]).map key).Nodup := by
  rw [map_append, nodup_append]
  refine ⟨hkeys, nodup_singleton _, ?_⟩
  rintro _ hmem _ hsingle rfl
  rcases mem_map.mp hmem with ⟨x, hx, he⟩
  exact hnew x hx (he.trans (mem_singleton.mp hsingle))

omit [DecidableEq κ] in
theorem forall_mem_concat {P : α → Prop} {u : α} (h : ∀ x ∈ xs, P x) (hu : P u) :
    ∀ x ∈ xs ++ [u], P x :=
  forall_mem_append.mpr ⟨h, forall_mem_singleton.mpr hu⟩

end KeyedList
