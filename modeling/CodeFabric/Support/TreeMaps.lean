import Mathlib.Tactic

/-! # Totals over ordered maps

A counter kept beside an ordered map is the sum of a weight over its values. The lemmas below say
how that sum moves when an entry is added, replaced or removed, and orders structures by a key. -/

namespace TreeMaps

open Std ExtTreeMap

universe u v

section

variable {α β : Type*} [Ord β]

/-- Comparing by a key whose type is ordered is an order. -/
theorem transOrd_of_key [TransOrd β] (key : α → β) :
    TransCmp fun left right : α => compare (key left) (key right) where
  eq_swap := OrientedOrd.eq_swap
  isLE_trans := TransOrd.isLE_trans

/-- Two values with the same injective key are equal. -/
theorem lawfulEqOrd_of_injective [LawfulEqOrd β] (key : α → β) (h : Function.Injective key) :
    LawfulEqCmp fun left right : α => compare (key left) (key right) where
  compare_self := ReflOrd.compare_self
  eq_of_compare hcom := h (LawfulEqOrd.eq_of_compare hcom)

end

variable {κ : Type u} {α : Type v} [Ord κ] [TransOrd κ] {m : ExtTreeMap κ α} {k : κ} {v w : α}
  {f : α → Nat}

/-- The sum of a weight over the values of a map. -/
def total (f : α → Nat) (m : ExtTreeMap κ α) : Nat :=
  (m.toList.map fun entry => f entry.2).sum

@[simp] theorem total_empty : total f (∅ : ExtTreeMap κ α) = 0 := rfl

variable [LawfulEqOrd κ] {j : κ} {keys : ExtTreeSet κ}

/-- Reading after an insertion, where keys that compare equal are equal. -/
theorem getElem?_insert_eq [DecidableEq κ] :
    (m.insert k v)[j]? = if k = j then some v else m[j]? := by
  simp only [getElem?_insert, Std.compare_eq_iff_eq]

/-- Reading after a removal. -/
theorem getElem?_erase_eq [DecidableEq κ] : (m.erase k)[j]? = if k = j then none else m[j]? := by
  simp only [getElem?_erase, Std.compare_eq_iff_eq]

theorem mem_insert_iff : j ∈ keys.insert k ↔ k = j ∨ j ∈ keys := by
  rw [ExtTreeSet.mem_insert, Std.compare_eq_iff_eq]

theorem mem_erase_iff : j ∈ keys.erase k ↔ k ≠ j ∧ j ∈ keys := by
  rw [ExtTreeSet.mem_erase, Ne, Std.compare_eq_iff_eq]

/-- Removing what is not there changes nothing. -/
theorem erase_eq_self (h : k ∉ keys) : keys.erase k = keys := by
  refine ExtTreeSet.ext_mem fun j => ?_
  rw [mem_erase_iff]
  exact and_iff_right_of_imp fun hj hkey => h (hkey ▸ hj)

/-- The last of two insertions under one key counts. -/
theorem insert_insert : (m.insert k w).insert k v = m.insert k v := by
  classical
  refine ext_getElem? fun j => ?_
  simp only [getElem?_insert_eq]
  split_ifs <;> rfl

/-- Inserting what is there changes nothing. -/
theorem insert_eq_self (h : m[k]? = some v) : m.insert k v = m := by
  classical
  refine ext_getElem? fun j => ?_
  rw [getElem?_insert_eq]
  split
  · rename_i hkey
    rw [← h, hkey]
  · rfl

/-- Removing a key that was just added restores the set. -/
theorem erase_insert (h : k ∉ keys) : (keys.insert k).erase k = keys := by
  refine ExtTreeSet.ext_mem fun j => ?_
  rw [mem_erase_iff, mem_insert_iff]
  constructor
  · rintro ⟨hne, heq | hj⟩
    · exact absurd heq hne
    · exact hj
  · exact fun hj => ⟨fun heq => h (heq ▸ hj), .inr hj⟩

/-- The entries of a map have distinct keys. -/
theorem nodup_toList (m : ExtTreeMap κ α) : m.toList.Nodup := by
  refine List.Pairwise.imp ?_ m.distinct_keys_toList
  rintro a b hne rfl
  exact hne (Std.compare_eq_iff_eq.2 rfl)

/-- An insertion lists the new entry and what the map holds elsewhere. -/
theorem toList_insert_perm : (m.insert k v).toList.Perm ((k, v) :: (m.erase k).toList) := by
  classical
  refine (List.perm_ext_iff_of_nodup (nodup_toList _) ?_).2 ?_
  · refine List.nodup_cons.2 ⟨?_, nodup_toList _⟩
    rw [mem_toList_iff_getElem?_eq_some, getElem?_erase_self]
    exact nofun
  · rintro ⟨j, u⟩
    rw [List.mem_cons, mem_toList_iff_getElem?_eq_some,
      mem_toList_iff_getElem?_eq_some, getElem?_insert_eq, getElem?_erase_eq]
    by_cases hkey : k = j
    · subst hkey
      simp [eq_comm]
    · simp [hkey, Ne.symm hkey]

/-- A map with an entry lists it and what the map holds elsewhere. -/
theorem toList_perm_of_getElem? (h : m[k]? = some v) :
    m.toList.Perm ((k, v) :: (m.erase k).toList) := by
  simpa only [insert_eq_self h] using toList_insert_perm (m := m) (k := k) (v := v)

/-- What the total of a map is besides one entry. -/
theorem total_erase (h : m[k]? = some v) : total f (m.erase k) + f v = total f m := by
  have hp := (toList_perm_of_getElem? h).map fun entry => f entry.2
  have hsum := hp.sum_eq
  rw [List.map_cons, List.sum_cons] at hsum
  rw [total, total, hsum, Nat.add_comm]

/-- Inserting adds the weight of the new entry to what the map holds elsewhere. -/
theorem total_insert_erase : total f (m.insert k v) = total f (m.erase k) + f v := by
  have hp := (toList_insert_perm (m := m) (k := k) (v := v)).map fun entry => f entry.2
  have hsum := hp.sum_eq
  rw [List.map_cons, List.sum_cons] at hsum
  rw [total, total, hsum, Nat.add_comm]

/-- Replacing an entry exchanges its weight. -/
theorem total_insert (h : m[k]? = some w) : total f (m.insert k v) + f w = total f m + f v := by
  have he := total_erase (f := f) h
  rw [total_insert_erase]
  omega

/-- A new entry adds its weight. -/
theorem total_insert_new (h : m[k]? = none) : total f (m.insert k v) = total f m + f v := by
  classical
  have hs : m.erase k = m := by
    refine ext_getElem? fun j => ?_
    rw [getElem?_erase_eq]
    split
    · rename_i hkey
      rw [← h, hkey]
    · rfl
  rw [total_insert_erase, hs]

theorem weight_le_total (h : m[k]? = some v) : f v ≤ total f m := by
  have he := total_erase (f := f) h
  omega

end TreeMaps
