import Mathlib.Data.List.Destutter
import Mathlib.Data.List.Sort
import Mathlib.Tactic

/-! # Sorting and deduplicating by a key

`sort` and `dedup` of a vector whose elements are ordered by a key, over any linear order. -/

namespace SortedKeys

open Std List

variable {α κ : Type*} [LE κ] [LT κ] [DecidableLE κ] [DecidableEq κ]

def sortOn (key : α → κ) (items : List α) : List α :=
  items.insertionSort fun left right => key left ≤ key right

/-- Remove every element whose key is that of the element retained before it. -/
def dedupOn (key : α → κ) (items : List α) : List α :=
  items.destutter fun left right => key left ≠ key right

variable {key : α → κ} {items : List α}

omit [LT κ] [DecidableEq κ] in
/-- A map that keeps the key commutes with the sort. -/
theorem map_sortOn {β : Type*} {key' : β → κ} {f : α → β} (h : ∀ item, key' (f item) = key item) :
    (sortOn key items).map f = sortOn key' (items.map f) := by
  refine map_insertionSort _ _ f items fun left _ right _ => ?_
  rw [h, h]

omit [LE κ] [LT κ] [DecidableLE κ] in
/-- A map that keeps the key commutes with the deduplication. -/
theorem map_dedupOn {β : Type*} {key' : β → κ} {f : α → β} (h : ∀ item, key' (f item) = key item) :
    (dedupOn key items).map f = dedupOn key' (items.map f) := by
  refine map_destutter fun left _ right _ => ?_
  rw [h, h]

omit [LT κ] in
/-- The keys of the sorted and deduplicated elements are the sorted and deduplicated keys. -/
theorem map_key_dedupOn_sortOn (key : α → κ) (items : List α) :
    (dedupOn key (sortOn key items)).map key = dedupOn id (sortOn id (items.map key)) := by
  have hd : (dedupOn key (sortOn key items)).map key =
      dedupOn id ((sortOn key items).map key) := map_dedupOn fun _ => rfl
  have hs : (sortOn key items).map key = sortOn id (items.map key) := map_sortOn fun _ => rfl
  rw [hd, hs]

omit [LE κ] [LT κ] [DecidableLE κ] in
/-- Only elements of the list are retained. -/
theorem mem_of_mem_dedupOn {item : α} (h : item ∈ dedupOn key items) : item ∈ items :=
  (destutter_sublist _ _).subset h

omit [LT κ] [DecidableEq κ] in
@[simp] theorem mem_sortOn {item : α} : item ∈ sortOn key items ↔ item ∈ items :=
  mem_insertionSort _

variable [Std.IsLinearOrder κ]

omit [LT κ] [DecidableEq κ] in
theorem ascending_sortOn (key : α → κ) (items : List α) :
    (sortOn key items).Pairwise fun left right => key left ≤ key right := by
  have : Std.Total fun left right : α => key left ≤ key right := ⟨fun _ _ => Std.le_total⟩
  have : IsTrans α fun left right => key left ≤ key right := ⟨fun _ _ _ => Std.le_trans⟩
  exact pairwise_insertionSort _ items

variable [LawfulOrderLT κ]

omit [DecidableLE κ] [DecidableEq κ] in
/-- Ascending keys without equal neighbours are strictly increasing. -/
theorem strict_of_ascending (hasc : items.Pairwise fun left right => key left ≤ key right)
    (hd : (items.map key).IsChain (· ≠ ·)) : (items.map key).Pairwise (· < ·) := by
  have hc : (items.map key).IsChain (· ≤ ·) := (List.pairwise_map.2 hasc).isChain
  refine List.isChain_iff_pairwise.1 ?_
  rw [isChain_iff_getElem] at hc hd ⊢
  intro i hi
  exact Std.lt_of_le_of_ne (hc i hi) (hd i hi)

/-- **Sorted and deduplicated keys are strictly increasing.** -/
theorem strict_dedupOn_sortOn (key : α → κ) (items : List α) :
    ((dedupOn key (sortOn key items)).map key).Pairwise (· < ·) := by
  refine strict_of_ascending ?_ ?_
  · exact (ascending_sortOn key items).sublist (destutter_sublist _ _)
  · exact (isChain_map key).2 (isChain_destutter _ _)

omit [DecidableEq κ] [Std.IsLinearOrder κ] in
/-- A sort leaves strictly increasing keys alone. -/
theorem sortOn_of_strict (h : (items.map key).Pairwise (· < ·)) : sortOn key items = items := by
  refine List.Pairwise.insertionSort_eq ((List.pairwise_map.1 h).imp fun hlt => ?_)
  exact Std.le_of_lt hlt

omit [DecidableLE κ] [Std.IsLinearOrder κ] in
/-- Deduplication leaves strictly increasing keys alone. -/
theorem dedupOn_of_strict (h : (items.map key).Pairwise (· < ·)) : dedupOn key items = items := by
  refine (destutter_eq_self_iff _ _).2 (List.Pairwise.isChain ?_)
  refine (List.pairwise_map.1 h).imp fun hlt heq => ?_
  rw [heq] at hlt
  exact Std.lt_irrefl hlt

end SortedKeys
