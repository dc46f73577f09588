/-
# Insertion-ordered dictionaries

The `dict` of the source language: an association list in insertion order.
Assigning to a key that is present keeps its place; a new key goes to the end.
The facts are the ones every user needs: what a lookup sees after an assignment,
and how an assignment moves a sum over the values.
-/
import Mathlib.Tactic
import Mathlib.Algebra.BigOperators.Group.List.Basic

/-- A dictionary with keys in insertion order. -/
abbrev PyDict (κ ν : Type*) := List (κ × ν)

namespace PyDict

open List

variable {κ ν μ : Type*} [DecidableEq κ]

/-- `d.get(k)`. -/
def get? : PyDict κ ν → κ → Option ν
  | [], _ => none
  | (k', v) :: d, k => if k' = k then some v else get? d k

/-- `d[k] = v`. -/
def set : PyDict κ ν → κ → ν → PyDict κ ν
  | [], k, v => [(k, v)]
  | (k', v') :: d, k, v => if k' = k then (k, v) :: d else (k', v') :: set d k v

/-- `d.setdefault(k, v)`. -/
def setDefault (d : PyDict κ ν) (k : κ) (v : ν) : PyDict κ ν :=
  match d.get? k with
  | some _ => d
  | none => d.set k v

/-- `{key(x): value(x) for x in xs}`: a later item overwrites an earlier one. -/
def ofItems {α : Type*} (key : α → κ) (value : α → ν) (xs : List α) : PyDict κ ν :=
  xs.foldl (fun d x => d.set (key x) (value x)) []

def update (d : PyDict κ ν) (items : List (κ × ν)) : PyDict κ ν :=
  items.foldl (fun d p => d.set p.1 p.2) d

/-- `dict.pop(key, None)`. -/
def pop (d : PyDict κ ν) (key : κ) : PyDict κ ν := d.filter fun p => decide (p.1 ≠ key)

/-- `d == d'`: the same keys with the same values, in any order. -/
def eq (d d' : PyDict κ ν) : Prop :=
  (∀ p ∈ d, d.get? p.1 = d'.get? p.1) ∧ ∀ p ∈ d', d.get? p.1 = d'.get? p.1

instance [DecidableEq ν] (d d' : PyDict κ ν) : Decidable (eq d d') :=
  inferInstanceAs (Decidable (_ ∧ _))

/-- `list(d)`. -/
def keys (d : PyDict κ ν) : List κ := d.map Prod.fst

/-- `list(d.values())`. -/
def values (d : PyDict κ ν) : List ν := d.map Prod.snd

omit [DecidableEq κ] in
@[simp] theorem keys_nil : keys ([] : PyDict κ ν) = [] := rfl

omit [DecidableEq κ] in
@[simp] theorem keys_cons (p : κ × ν) (d : PyDict κ ν) : keys (p :: d) = p.1 :: keys d := rfl

omit [DecidableEq κ] in
@[simp] theorem values_nil : values ([] : PyDict κ ν) = [] := rfl

omit [DecidableEq κ] in
@[simp] theorem values_cons (p : κ × ν) (d : PyDict κ ν) : values (p :: d) = p.2 :: values d := rfl

@[simp] theorem get?_nil (k : κ) : get? ([] : PyDict κ ν) k = none := rfl

theorem get?_cons (p : κ × ν) (d : PyDict κ ν) (k : κ) :
    get? (p :: d) k = if p.1 = k then some p.2 else get? d k := rfl

/-! ## Lookups after an assignment -/

@[simp] theorem get?_set_self (d : PyDict κ ν) (k : κ) (v : ν) : (d.set k v).get? k = some v := by
  induction d with
  | nil => simp [set, get?]
  | cons p d ih =>
    by_cases h : p.1 = k
    · simp [set, get?, h]
    · simp [set, get?, h, ih]

theorem get?_set_of_ne (d : PyDict κ ν) {k k' : κ} (v : ν) (h : k' ≠ k) :
    (d.set k v).get? k' = d.get? k' := by
  induction d with
  | nil => simp [set, get?, h.symm]
  | cons p d ih =>
    by_cases hp : p.1 = k
    · subst hp
      simp [set, get?, h.symm]
    · simp only [set, hp, if_false, get?_cons, ih]

theorem get?_set (d : PyDict κ ν) (k k' : κ) (v : ν) :
    (d.set k v).get? k' = if k' = k then some v else d.get? k' := by
  by_cases h : k' = k
  · subst h; simp
  · rw [get?_set_of_ne d v h, if_neg h]

theorem set_set (d : PyDict κ ν) (k : κ) (v w : ν) : (d.set k v).set k w = d.set k w := by
  induction d with
  | nil => simp [set]
  | cons p d ih =>
    by_cases hp : p.1 = k
    · simp [set, hp]
    · simp only [set, hp, if_false, ih]

theorem mem_keys_iff (d : PyDict κ ν) (k : κ) : k ∈ d.keys ↔ ∃ v, d.get? k = some v := by
  induction d with
  | nil => simp
  | cons p d ih =>
    by_cases h : p.1 = k
    · simp [get?_cons, h]
    · simp [get?_cons, h, ih, Ne.symm h]

/-- Equal dictionaries are those with equal lookups. -/
theorem eq_iff (d d' : PyDict κ ν) : eq d d' ↔ ∀ k, d.get? k = d'.get? k := by
  constructor
  · rintro ⟨h, h'⟩ k
    cases hk : d.get? k with
    | some v =>
      rw [← hk]
      obtain ⟨p, hp, rfl⟩ := mem_map.mp ((mem_keys_iff d k).mpr ⟨v, hk⟩)
      exact h p hp
    | none =>
      cases hk' : d'.get? k with
      | none => rfl
      | some v =>
        obtain ⟨p, hp, rfl⟩ := mem_map.mp ((mem_keys_iff d' k).mpr ⟨v, hk'⟩)
        rw [← hk', ← h' p hp, hk]
  · exact fun h => ⟨fun p _ => h p.1, fun p _ => h p.1⟩

theorem get?_eq_none_iff (d : PyDict κ ν) (k : κ) : d.get? k = none ↔ k ∉ d.keys := by
  rw [mem_keys_iff, Option.eq_none_iff_forall_ne_some]
  push Not
  rfl

variable {d : PyDict κ ν}

variable {k : κ}

variable {v : ν}

theorem mem_of_get? (h : d.get? k = some v) : (k, v) ∈ d := by
  induction d with
  | nil => simp at h
  | cons p d ih =>
    rw [get?_cons] at h
    split at h
    · rename_i hp
      obtain rfl : p.2 = v := by simpa using h
      subst hp
      simp
    · exact mem_cons_of_mem _ (ih h)

theorem mem_values_of_get? (h : d.get? k = some v) : v ∈ d.values :=
  mem_map.mpr ⟨(k, v), mem_of_get? h, rfl⟩

theorem get?_of_mem (hd : d.keys.Nodup) (h : (k, v) ∈ d) : d.get? k = some v := by
  induction d with
  | nil => simp at h
  | cons p d ih =>
    rw [keys_cons, nodup_cons] at hd
    rcases mem_cons.mp h with rfl | h
    · simp [get?_cons]
    · have hk : k ∈ keys d := mem_map.mpr ⟨(k, v), h, rfl⟩
      have hne : p.1 ≠ k := fun e => hd.1 (e ▸ hk)
      rw [get?_cons, if_neg hne, ih hd.2 h]

theorem exists_get?_of_mem_values (hd : d.keys.Nodup) (h : v ∈ d.values) :
    ∃ k, d.get? k = some v := by
  obtain ⟨⟨k, w⟩, hmem, rfl⟩ := mem_map.mp h
  exact ⟨k, get?_of_mem hd hmem⟩

/-! ## Keys after an assignment -/

theorem keys_set (d : PyDict κ ν) (k : κ) (v : ν) :
    (d.set k v).keys = if k ∈ d.keys then d.keys else d.keys ++ [k] := by
  induction d with
  | nil => simp [set]
  | cons p d ih =>
    by_cases h : p.1 = k
    · simp [set, h]
    · simp only [set, h, if_false, keys_cons, ih, mem_cons, Ne.symm h, false_or]
      split <;> simp

theorem mem_keys_set {k' : κ} (v : ν) (h : k' ∈ d.keys) : k' ∈ (d.set k v).keys := by
  rw [keys_set]
  split
  · exact h
  · exact mem_append_left _ h

theorem self_mem_keys_set (d : PyDict κ ν) (k : κ) (v : ν) : k ∈ (d.set k v).keys :=
  (mem_keys_iff _ _).mpr ⟨v, get?_set_self d k v⟩

/-- An entry of a dict after a key was set. -/
theorem mem_set {p : κ × ν} (h : p ∈ d.set k v) : p = (k, v) ∨ p ∈ d := by
  induction d with
  | nil => exact Or.inl (mem_singleton.mp h)
  | cons q d ih =>
    unfold set at h
    split at h
    · rcases mem_cons.mp h with rfl | h
      · exact Or.inl rfl
      · exact Or.inr (mem_cons_of_mem _ h)
    · rcases mem_cons.mp h with rfl | h
      · exact Or.inr mem_cons_self
      · rcases ih h with h | h
        · exact Or.inl h
        · exact Or.inr (mem_cons_of_mem _ h)

theorem keys_set_of_mem (v : ν) (h : k ∈ d.keys) :
    (d.set k v).keys = d.keys := by rw [keys_set, if_pos h]

theorem keys_set_of_notMem (v : ν) (h : k ∉ d.keys) :
    (d.set k v).keys = d.keys ++ [k] := by rw [keys_set, if_neg h]

theorem set_of_notMem (v : ν) (h : k ∉ d.keys) : d.set k v = d ++ [(k, v)] := by
  induction d with
  | nil => rfl
  | cons p d ih =>
    rw [keys_cons, mem_cons, not_or] at h
    simp only [set, Ne.symm h.1, if_false, ih h.2, cons_append]

/-- Assigning what is there changes nothing. -/
theorem set_of_get? (h : d.get? k = some v) : d.set k v = d := by
  induction d with
  | nil => cases h
  | cons p d ih =>
    obtain ⟨k', v'⟩ := p
    rw [get?_cons] at h
    by_cases hk : k' = k
    · rw [if_pos hk] at h
      rw [set, if_pos hk, ← Option.some.inj h, hk]
    · rw [if_neg hk] at h
      rw [set, if_neg hk, ih h]

theorem get?_append (d d' : PyDict κ ν) (k : κ) : get? (d ++ d') k = (d.get? k).or (d'.get? k) := by
  induction d with
  | nil => rfl
  | cons p d ih =>
    rw [cons_append, get?_cons, get?_cons, ih]
    split <;> rfl

/-- What a lookup sees after an update with distinct keys. -/
theorem get?_update {items : PyDict κ ν} (h : items.keys.Nodup) (d : PyDict κ ν) (k : κ) :
    (d.update items).get? k = (items.get? k).or (d.get? k) := by
  induction items generalizing d with
  | nil => rfl
  | cons p items ih =>
    rw [keys_cons, nodup_cons] at h
    show (update (d.set p.1 p.2) items).get? k = _
    rw [ih h.2, get?_cons]
    by_cases hk : p.1 = k
    · subst hk
      rw [if_pos rfl, (get?_eq_none_iff items p.1).mpr h.1, get?_set_self]
      rfl
    · rw [if_neg hk, get?_set_of_ne d p.2 (Ne.symm hk)]

/-- An assignment to a present key keeps what does not depend on the value. -/
theorem map_set_of_get? {α : Type*} (f : κ × ν → α) {w : ν} (v : ν) (h : d.get? k = some w)
    (hf : f (k, v) = f (k, w)) : (d.set k v).map f = d.map f := by
  induction d with
  | nil => simp at h
  | cons p d ih =>
    rw [get?_cons] at h
    split at h
    · rename_i hp
      obtain rfl : p.2 = w := by simpa using h
      subst hp
      simp only [set, if_true, map_cons, hf]
    · rename_i hp
      simp only [set, hp, if_false, map_cons, ih h]

theorem length_le_set (d : PyDict κ ν) (k : κ) (v : ν) : d.length ≤ (d.set k v).length := by
  have hlen : ∀ t : PyDict κ ν, t.keys.length = t.length := fun t => length_map ..
  by_cases hk : k ∈ d.keys
  · rw [← hlen, ← hlen, keys_set_of_mem v hk]
  · rw [← hlen, ← hlen, keys_set_of_notMem v hk, length_append]
    omega

theorem nodup_keys_set (hd : d.keys.Nodup) (k : κ) (v : ν) : (d.set k v).keys.Nodup := by
  rw [keys_set]
  split
  · exact hd
  · rename_i h
    exact nodup_append.mpr ⟨hd, by simp, by
      intro a ha b hb
      obtain rfl : b = k := by simpa using hb
      exact fun e => h (e ▸ ha)⟩

/-! ## Sums over the values -/

section Sums

variable [AddCommMonoid μ] (f : ν → μ)

/-- The sum of `f` over the values. -/
def sumOf (d : PyDict κ ν) : μ := (d.values.map f).sum

omit [DecidableEq κ] in
@[simp] theorem sumOf_nil : sumOf f ([] : PyDict κ ν) = 0 := rfl

omit [DecidableEq κ] in
@[simp] theorem sumOf_cons (p : κ × ν) (d : PyDict κ ν) :
    sumOf f (p :: d) = f p.2 + sumOf f d := by simp [sumOf]

/-- A new key adds its summand. -/
theorem sumOf_set_new (v : ν) (h : d.get? k = none) : sumOf f (d.set k v) = sumOf f d + f v := by
  induction d with
  | nil => simp [set]
  | cons p d ih =>
    rw [get?_cons] at h
    split at h
    · simp at h
    · rename_i hp
      simp only [set, hp, if_false, sumOf_cons, ih h, add_assoc]

/-- An assignment to a present key exchanges its summand. -/
theorem sumOf_set_present {w : ν} (v : ν) (h : d.get? k = some w) :
    sumOf f (d.set k v) + f w = sumOf f d + f v := by
  induction d with
  | nil => simp at h
  | cons p d ih =>
    rw [get?_cons] at h
    split at h
    · rename_i hp
      obtain rfl : p.2 = w := by simpa using h
      simp only [set, hp, if_true, sumOf_cons]
      abel
    · rename_i hp
      simp only [set, hp, if_false, sumOf_cons]
      rw [add_assoc, ih h, add_assoc]

omit [DecidableEq κ] in
theorem sumOf_congr {d : PyDict κ ν} {g : ν → μ} (h : ∀ v ∈ d.values, f v = g v) :
    sumOf f d = sumOf g d := by
  unfold sumOf
  rw [map_congr_left h]

end Sums

/-! ## Equal dictionaries and dictionaries of items -/

theorem perm_of_get?_eq {d' : PyDict κ ν} (hd : d.keys.Nodup) (hd' : d'.keys.Nodup)
    (h : ∀ k, d'.get? k = d.get? k) : d'.Perm d := by
  refine (perm_ext_iff_of_nodup hd'.of_map hd.of_map).mpr fun p => ?_
  constructor
  · intro hp
    exact mem_of_get? ((h p.1).symm.trans (get?_of_mem hd' hp))
  · intro hp
    exact mem_of_get? ((h p.1).trans (get?_of_mem hd hp))

theorem sumOf_eq_of_get?_eq [AddCommMonoid μ] (f : ν → μ) {d' : PyDict κ ν} (hd : d.keys.Nodup)
    (hd' : d'.keys.Nodup) (h : ∀ k, d'.get? k = d.get? k) : sumOf f d' = sumOf f d :=
  (((perm_of_get?_eq hd hd' h).map Prod.snd).map f).sum_eq

section Items

variable {α : Type*} {key : α → κ} {value : α → ν} {xs : List α}

theorem foldl_set_of_nodup (d : PyDict κ ν) (h : (d.keys ++ xs.map key).Nodup) :
    xs.foldl (fun d x => d.set (key x) (value x)) d = d ++ xs.map fun x => (key x, value x) := by
  induction xs generalizing d with
  | nil => simp
  | cons x xs ih =>
    have hx : key x ∉ d.keys := by
      intro hmem
      rw [nodup_append] at h
      exact h.2.2 _ hmem _ (by simp) rfl
    have hset : d.set (key x) (value x) = d ++ [(key x, value x)] := set_of_notMem _ hx
    rw [foldl_cons, ih, hset, map_cons, append_assoc, singleton_append]
    rw [hset]
    simpa [keys] using h

theorem ofItems_eq_map (h : (xs.map key).Nodup) :
    ofItems key value xs = xs.map fun x => (key x, value x) :=
  foldl_set_of_nodup [] (by simpa using h)

theorem keys_ofItems (h : (xs.map key).Nodup) : (ofItems key value xs).keys = xs.map key := by
  rw [ofItems_eq_map h, keys, map_map]
  rfl

/-- What a lookup finds among items with distinct keys. -/
theorem get?_ofItems (h : (xs.map key).Nodup) (k : κ) (v : ν) :
    (ofItems key value xs).get? k = some v ↔ ∃ x ∈ xs, key x = k ∧ value x = v := by
  have hnodup : (ofItems key value xs).keys.Nodup := by rwa [keys_ofItems h]
  constructor
  · intro hget
    have hmem := mem_of_get? hget
    rw [ofItems_eq_map h, mem_map] at hmem
    obtain ⟨x, hx, heq⟩ := hmem
    exact ⟨x, hx, congrArg Prod.fst heq, congrArg Prod.snd heq⟩
  · rintro ⟨x, hx, rfl, rfl⟩
    refine get?_of_mem hnodup ?_
    rw [ofItems_eq_map h]
    exact mem_map.mpr ⟨x, hx, rfl⟩

end Items

/-- What a lookup sees after `setdefault`. -/
theorem get?_setDefault (d : PyDict κ ν) (k k' : κ) (v : ν) :
    (d.setDefault k v).get? k' = if k' = k then some ((d.get? k).getD v) else d.get? k' := by
  unfold setDefault
  cases hk : d.get? k with
  | some w =>
    by_cases hk' : k' = k
    · rw [if_pos hk', hk', Option.getD_some]
      exact hk
    · rw [if_neg hk']
  | none => exact get?_set d k k' v

/-- What is in a dictionary stays in it under `setdefault`, and only the default is new. -/
theorem mem_setDefault {e : κ × ν} :
    (e ∈ d → e ∈ d.setDefault k v) ∧ (e ∈ d.setDefault k v → e = (k, v) ∨ e ∈ d) := by
  unfold setDefault
  split
  · exact ⟨id, .inr⟩
  · rename_i hnone
    rw [set_of_notMem v ((get?_eq_none_iff _ _).mp hnone), mem_append, mem_singleton]
    exact ⟨.inl, Or.symm⟩

theorem nodup_keys_setDefault (hd : d.keys.Nodup) (k : κ) (v : ν) :
    (d.setDefault k v).keys.Nodup := by
  unfold setDefault
  split
  · exact hd
  · exact nodup_keys_set hd k v

end PyDict
