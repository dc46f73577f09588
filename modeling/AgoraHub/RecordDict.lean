/-
# Dictionaries of records under their own ids

A `dict` that stores every record under an id which is a function of the record.  Its
equality ignores the order of insertion, and its records are listed in the order of the
ids, as `sorted(d)` lists them.
-/
import Mathlib.Order.Compare
import Mathlib.Data.String.Basic
import AgoraHub.KeyedList

/-- A dictionary whose records are stored under their ids. -/
structure RecordDict {ν : Type} (id : ν → String) where
  dict : Std.ExtTreeMap String ν compare
  id_eq : ∀ (k : String) (v : ν), dict[k]? = some v → id v = k

namespace RecordDict

open List KeyedList

variable {ν : Type} {id : ν → String}

instance [DecidableEq ν] : DecidableEq (RecordDict id) := fun d d' =>
  decidable_of_iff (d.dict = d'.dict) ⟨fun h => by cases d; cases d'; congr, fun h => by rw [h]⟩

/-- `d.get(k)`. -/
def get? (d : RecordDict id) (k : String) : Option ν := d.dict[k]?

theorem ext {d d' : RecordDict id} (h : ∀ k, d.get? k = d'.get? k) : d = d' := by
  have hdict : d.dict = d'.dict := Std.ExtTreeMap.ext_getElem? h
  cases d
  cases d'
  congr

variable {d : RecordDict id}

variable {k : String} {v : ν}

theorem id_of_get? (h : d.get? k = some v) : id v = k :=
  d.id_eq k v h

/-! ## Operations -/

/-- `{}`. -/
def empty : RecordDict id where
  dict := ∅
  id_eq k v h := by simp at h

@[simp] theorem get?_empty (k : String) : (empty : RecordDict id).get? k = none := by
  simp [get?, empty]

/-- `d[id(v)] = v`. -/
def put (d : RecordDict id) (v : ν) : RecordDict id where
  dict := d.dict.insert (id v) v
  id_eq k w h := by
    rw [Std.ExtTreeMap.getElem?_insert] at h
    split at h
    · rename_i hk
      rw [← Option.some.inj h, Std.compare_eq_iff_eq.mp hk]
    · exact d.id_eq k w h

theorem get?_put (d : RecordDict id) (v : ν) (k : String) :
    (d.put v).get? k = if id v = k then some v else d.get? k := by
  rw [get?, put, Std.ExtTreeMap.getElem?_insert]
  simp only [Std.compare_eq_iff_eq, get?]

@[simp] theorem get?_put_self (d : RecordDict id) (v : ν) : (d.put v).get? (id v) = some v := by
  rw [get?_put, if_pos rfl]

/-- `del d[k]`. -/
def del (d : RecordDict id) (k : String) : RecordDict id where
  dict := d.dict.erase k
  id_eq k' v h := by
    rw [Std.ExtTreeMap.getElem?_erase] at h
    split at h
    · simp at h
    · exact d.id_eq k' v h

theorem get?_del (d : RecordDict id) (k k' : String) :
    (d.del k).get? k' = if k = k' then none else d.get? k' := by
  rw [get?, del, Std.ExtTreeMap.getElem?_erase]
  simp only [Std.compare_eq_iff_eq, get?]

/-- The records that satisfy a test. -/
def filter (p : ν → Bool) (d : RecordDict id) : RecordDict id where
  dict := d.dict.filter fun _ v => p v
  id_eq k v h := by
    rw [Std.ExtTreeMap.getElem?_filter] at h
    cases hk : d.dict[k]? with
    | none => simp [hk] at h
    | some w =>
      rw [hk] at h
      obtain ⟨rfl, -⟩ : w = v ∧ p v = true := by simpa using h
      exact d.id_eq k w hk

theorem get?_filter (p : ν → Bool) (d : RecordDict id) (k : String) :
    (d.filter p).get? k = (d.get? k).filter p := by
  rw [get?, filter, Std.ExtTreeMap.getElem?_filter, get?]
  cases d.dict[k]? <;> simp [Option.filter]

theorem put_of_get? (h : d.get? (id v) = some v) : d.put v = d := by
  apply ext
  intro k
  rw [get?_put]
  split
  · rename_i hk
    rw [← hk, h]
  · rfl

/-- Writing a record whose id is free, or taken by the same record, keeps what is there. -/
theorem get?_put_of_get? {w : ν} (hv : ∀ w, d.get? (id v) = some w → w = v)
    (h : d.get? k = some w) : (d.put v).get? k = some w := by
  rw [get?_put]
  split
  · rename_i hk
    rw [hv w (hk ▸ h)]
  · exact h

/-- What is found after a record is written was there or is that record. -/
theorem get?_of_get?_put {w : ν} (h : (d.put v).get? k = some w) : w = v ∨ d.get? k = some w := by
  rw [get?_put] at h
  split at h
  · exact .inl (Option.some.inj h).symm
  · exact .inr h

/-! ## Listing -/

/-- The records, in the order of their ids. -/
def values (d : RecordDict id) : List ν := d.dict.toList.map Prod.snd

/-- The ids, in order. -/
def ids (d : RecordDict id) : List String := d.dict.toList.map Prod.fst

/-- `len(d)`. -/
def size (d : RecordDict id) : ℕ := d.dict.size

theorem mem_values_iff_exists : v ∈ d.values ↔ ∃ k, d.get? k = some v := by
  rw [values, mem_map]
  constructor
  · rintro ⟨⟨k, w⟩, hmem, rfl⟩
    exact ⟨k, Std.ExtTreeMap.mem_toList_iff_getElem?_eq_some.mp hmem⟩
  · rintro ⟨k, hk⟩
    exact ⟨(k, v), Std.ExtTreeMap.mem_toList_iff_getElem?_eq_some.mpr hk, rfl⟩

theorem mem_values : v ∈ d.values ↔ d.get? (id v) = some v := by
  rw [mem_values_iff_exists]
  constructor
  · rintro ⟨k, hk⟩
    rw [id_of_get? hk, hk]
  · exact fun h => ⟨id v, h⟩

theorem values_del_subset (d : RecordDict id) (k : String) : (d.del k).values ⊆ d.values := by
  intro v hv
  have hget := mem_values.mp hv
  rw [get?_del] at hget
  split at hget
  · simp at hget
  · exact mem_values.mpr hget

theorem ids_eq (d : RecordDict id) : d.ids = d.values.map id := by
  rw [ids, values, map_map]
  apply map_congr_left
  rintro ⟨k, v⟩ hmem
  exact (d.id_eq k v (Std.ExtTreeMap.mem_toList_iff_getElem?_eq_some.mp hmem)).symm

theorem pairwise_ids (d : RecordDict id) : d.ids.Pairwise (· < ·) := by
  rw [ids, pairwise_map]
  refine d.dict.ordered_keys_toList.imp ?_
  intro a b hlt
  exact compare_lt_iff_lt.mp hlt

theorem nodup_ids (d : RecordDict id) : (d.values.map id).Nodup := by
  rw [← ids_eq]
  exact d.pairwise_ids.imp fun h => h.ne

theorem mem_ids : k ∈ d.ids ↔ ∃ v, d.get? k = some v := by
  rw [ids_eq, mem_map]
  constructor
  · rintro ⟨v, hv, rfl⟩
    exact ⟨v, mem_values.mp hv⟩
  · rintro ⟨v, hv⟩
    have hid := id_of_get? hv
    exact ⟨v, mem_values.mpr (by rw [hid, hv]), hid⟩

@[simp] theorem length_values (d : RecordDict id) : d.values.length = d.size := by
  simp [values, size]

/-- `len(d)` after `d[id(v)] = v`. -/
theorem size_put (d : RecordDict id) (v : ν) :
    (d.put v).size = if d.get? (id v) = none then d.size + 1 else d.size := by
  rw [size, put, Std.ExtTreeMap.size_insert, Std.ExtTreeMap.contains_eq_isSome_getElem?]
  unfold get? size
  cases d.dict[id v]? <;> rfl

theorem size_le_of_get? {d d' : RecordDict id}
    (h : ∀ k v, d'.get? k = some v → d.get? k = some v) : d'.size ≤ d.size := by
  rw [← length_values, ← length_values]
  have hsub : d'.values ⊆ d.values := fun v hv => mem_values.mpr (h _ _ (mem_values.mp hv))
  exact (d'.nodup_ids.of_map id |>.subperm hsub).length_le

theorem size_filter_le (p : ν → Bool) (d : RecordDict id) : (d.filter p).size ≤ d.size := by
  apply size_le_of_get?
  intro k v h
  rw [get?_filter] at h
  exact (Option.filter_eq_some_iff.mp h).1

theorem size_del_le (d : RecordDict id) (k : String) : (d.del k).size ≤ d.size := by
  apply size_le_of_get?
  intro k' v h
  rw [get?_del] at h
  split at h
  · simp at h
  · exact h

/-! ## Dictionaries made from lists -/

/-- The dictionary of a list of records, later ones first. -/
def ofList (vs : List ν) : RecordDict id := vs.foldl put empty

/-- What is found after the records of a list are written. -/
theorem get?_foldl_put (vs : List ν) (d : RecordDict id) (hnodup : (vs.map id).Nodup)
    (k : String) : (vs.foldl put d).get? k = (KeyedList.find? id vs k).or (d.get? k) := by
  induction vs generalizing d with
  | nil => rfl
  | cons v vs ih =>
    obtain ⟨hnotMem, htail⟩ := nodup_cons.mp hnodup
    rw [foldl_cons, ih _ htail, get?_put]
    show _ = (List.find? (fun w => decide (id w = k)) (v :: vs)).or (d.get? k)
    rw [find?_cons]
    by_cases hkey : id v = k
    · -- no later record has this id
      have hnone : KeyedList.find? id vs k = none :=
        find?_eq_none_iff.mpr (hkey ▸ hnotMem)
      simp [hkey, hnone]
    · simp [hkey, KeyedList.find?]

/-- The first record with an id is the one stored under it. -/
theorem find?_values (d : RecordDict id) (k : String) :
    KeyedList.find? id d.values k = d.get? k := by
  cases hk : d.get? k with
  | none =>
    rw [find?_eq_none_iff, ← ids_eq, mem_ids]
    simp [hk]
  | some v =>
    have hid := id_of_get? hk
    have hmem : v ∈ d.values := mem_values.mpr (by rw [hid, hk])
    rw [← hid]
    exact find?_of_mem d.nodup_ids hmem

@[simp] theorem ofList_values (d : RecordDict id) : (ofList d.values : RecordDict id) = d := by
  apply ext
  intro k
  rw [ofList, get?_foldl_put _ _ d.nodup_ids, get?_empty, Option.or_none, find?_values]

end RecordDict
