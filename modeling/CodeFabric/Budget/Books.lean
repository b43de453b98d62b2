import CodeFabric.Budget.Tree
import Mathlib.Algebra.Order.BigOperators.Group.Multiset

/-! # Books

The purpose of the ledger, said without it: a multiset of charges, each held by a live scope, and
for every scope the sum of the charges held in its subtree.

* **`total`** sums the charges of a multiset that a predicate counts.
* **`Ledger.Exact.charge`**, **`.release`**, **`.exchange`**, **`.withChild`**,
  **`.withoutScope`**: what charging, releasing, splitting charges, creating and removing scopes
  preserve. -/

namespace CodeFabric.Budget

open Ancestry NodeState

/-! ## Charges -/

structure Charge where
  owner : Nat
  resourceClass : ResourceClass
  amounts : Quantities

def total (counts : Nat → ResourceClass → Bool) (charges : Multiset Charge)
    (dimension : ResourceDimension) : Nat :=
  (charges.map fun charge =>
    if counts charge.owner charge.resourceClass then charge.amounts dimension else 0).sum

section

variable {counts counts' : Nat → ResourceClass → Bool} {charges charges' : Multiset Charge}
  {dimension : ResourceDimension}

@[simp] theorem total_zero : total counts 0 dimension = 0 := by
  simp [total]

@[simp] theorem total_add : total counts (charges + charges') dimension =
    total counts charges dimension + total counts charges' dimension := by
  simp [total]

theorem total_congr (h : ∀ charge ∈ charges,
      counts charge.owner charge.resourceClass = counts' charge.owner charge.resourceClass) :
    total counts charges dimension = total counts' charges dimension := by
  refine congrArg Multiset.sum (Multiset.map_congr rfl fun charge hch => ?_)
  rw [h charge hch]

theorem total_mono (h : ∀ owner resourceClass,
      counts owner resourceClass → counts' owner resourceClass) :
    total counts charges dimension ≤ total counts' charges dimension := by
  refine Multiset.sum_map_le_sum_map _ _ fun charge _ => ?_
  by_cases hcts : counts charge.owner charge.resourceClass
  · rw [if_pos hcts, if_pos (h _ _ hcts)]
  · rw [if_neg hcts]
    exact Nat.zero_le _

theorem total_eq_zero (h : ∀ charge ∈ charges,
    counts charge.owner charge.resourceClass = false) : total counts charges dimension = 0 := by
  refine Multiset.sum_eq_zero fun _ ha => ?_
  obtain ⟨charge, hch, rfl⟩ := Multiset.mem_map.1 ha
  simp [h charge hch]

end

/-- The second books hold an amount of one owner and class more than the first. -/
def Adds (owner : Nat) (resourceClass : ResourceClass) (amounts : Quantities)
    (before after : Multiset Charge) : Prop :=
  ∀ counts dimension, total counts after dimension =
    total counts before dimension + if counts owner resourceClass then amounts dimension else 0

/-! ## Subtrees -/

def Ledger.within (ledger : Ledger) (token owner : Nat) (_ : ResourceClass) : Bool :=
  token ∈ ledger.lineage owner

open Ledger

def Ledger.dataWithin (ledger : Ledger) (token owner : Nat) (resourceClass : ResourceClass) :
    Bool :=
  resourceClass = .data ∧ token ∈ ledger.lineage owner

/-- **Exact books.** Every counter is the sum of the charges held in the subtree. -/
structure Ledger.Exact (ledger : Ledger) (charges : Multiset Charge) : Prop where
  sound : ledger.Sound
  owner_live : ∀ charge ∈ charges, (ledger.up charge.owner).isSome
  used_eq : ∀ token node, ledger.nodes token = some node → ∀ dimension,
    node.used dimension = total (ledger.within token) charges dimension
  dataUsed_eq : ∀ token node, ledger.nodes token = some node → ∀ dimension,
    node.dataUsed dimension = total (ledger.dataWithin token) charges dimension
  used_le_peak : ∀ token node, ledger.nodes token = some node → ∀ dimension,
    node.used dimension ≤ node.peak dimension
  used_lt_width : ∀ token node, ledger.nodes token = some node → ∀ dimension,
    node.used dimension < 2 ^ 128

section

variable {ledger : Ledger} {charges charges' : Multiset Charge} {owner : Nat}
  {resourceClass : ResourceClass} {amounts : Quantities}

theorem Ledger.exact_iff : ledger.Exact charges ↔ ledger.Sound ∧
    (∀ charge ∈ charges, (ledger.up charge.owner).isSome) ∧
    ∀ token node, ledger.nodes token = some node → ∀ dimension,
      node.used dimension = total (ledger.within token) charges dimension ∧
        node.dataUsed dimension = total (ledger.dataWithin token) charges dimension ∧
        node.used dimension ≤ node.peak dimension ∧ node.used dimension < 2 ^ 128 :=
  ⟨fun h => ⟨h.sound, h.owner_live, fun _ _ hn d => ⟨h.used_eq _ _ hn d, h.dataUsed_eq _ _ hn d,
    h.used_le_peak _ _ hn d, h.used_lt_width _ _ hn d⟩⟩, fun ⟨hs, hl, h⟩ => ⟨hs, hl,
    fun _ _ hn d => (h _ _ hn d).1, fun _ _ hn d => (h _ _ hn d).2.1,
    fun _ _ hn d => (h _ _ hn d).2.2.1, fun _ _ hn d => (h _ _ hn d).2.2.2⟩⟩

theorem Ledger.Exact.dataUsed_le_used (h : ledger.Exact charges) {token : Nat} {node : NodeState}
    (hn : ledger.nodes token = some node) (dimension : ResourceDimension) :
    node.dataUsed dimension ≤ node.used dimension := by
  rw [h.dataUsed_eq token node hn, h.used_eq token node hn]
  refine total_mono fun _ _ hd => ?_
  simp only [dataWithin, decide_eq_true_eq] at hd
  simpa [within] using hd.2

/-! ## Charging and releasing -/

theorem Ledger.Exact.exchange (h : ledger.Exact charges)
    (hl : ∀ charge ∈ charges', (ledger.up charge.owner).isSome)
    (hs : ∀ counts dimension, total counts charges' dimension = total counts charges dimension) :
    ledger.Exact charges' where
  sound := h.sound
  owner_live := hl
  used_eq token node hn dimension := by rw [hs, h.used_eq token node hn]
  dataUsed_eq token node hn dimension := by rw [hs, h.dataUsed_eq token node hn]
  used_le_peak := h.used_le_peak
  used_lt_width := h.used_lt_width

variable {change : NodeState → NodeState}

theorem within_onLineage (hchg : ∀ node, (change node).parent = node.parent) :
    (ledger.onLineage owner change).within = ledger.within := by
  funext token other resourceClass
  rw [Ledger.within, Ledger.lineage, Ledger.up_onLineage hchg]
  rfl

theorem dataWithin_onLineage (hchg : ∀ node, (change node).parent = node.parent) :
    (ledger.onLineage owner change).dataWithin = ledger.dataWithin := by
  funext token other resourceClass
  rw [Ledger.dataWithin, Ledger.lineage, Ledger.up_onLineage hchg]
  rfl

theorem nodes_onLineage {token : Nat} {after : NodeState}
    (h : (ledger.onLineage owner change).nodes token = some after) :
    ∃ node, ledger.nodes token = some node ∧
      after = if token ∈ ledger.lineage owner then change node else node := by
  by_cases htok : token ∈ ledger.lineage owner
  · obtain ⟨node, hn, rfl⟩ : ∃ node, ledger.nodes token = some node ∧ change node = after := by
      simpa [onLineage, htok] using h
    exact ⟨node, hn, by rw [if_pos htok]⟩
  · exact ⟨after, by simpa [onLineage, htok] using h, by rw [if_neg htok]⟩

section

variable (h : ledger.Exact charges)
include h

/-- **Charging keeps the books exact.** -/
theorem Ledger.Exact.charge (hl : ∀ charge ∈ charges', (ledger.up charge.owner).isSome)
    (hf : ∀ ancestor ∈ ledger.lineage owner, ∀ node, ledger.nodes ancestor = some node →
      ∀ dimension, node.used dimension + amounts dimension < 2 ^ 128)
    (hadd : Adds owner resourceClass amounts charges charges') :
    (ledger.onLineage owner (NodeState.charge resourceClass amounts)).Exact charges' := by
  have hpar : ∀ node, (NodeState.charge resourceClass amounts node).parent = node.parent :=
    fun _ => rfl
  obtain ⟨hs, -, hn⟩ := exact_iff.1 h
  refine exact_iff.2 ⟨hs.onLineage fun _ => rfl, by rwa [up_onLineage hpar], ?_⟩
  intro token after haf dimension
  obtain ⟨node, hnd, rfl⟩ := nodes_onLineage haf
  obtain ⟨hu, hd, hpk, hw⟩ := hn token node hnd dimension
  rw [within_onLineage hpar, dataWithin_onLineage hpar, hadd, hadd, ← hu, ← hd]
  by_cases htok : token ∈ ledger.lineage owner
  · have hroom := hf token htok node hnd dimension
    by_cases hdata : resourceClass = .data <;>
      simpa [htok, hdata, within, dataWithin, NodeState.charge] using hroom
  · simpa [htok, within, dataWithin, hpk] using hw

theorem Ledger.Exact.covers (hadd : Adds owner resourceClass amounts charges' charges) :
    ∀ ancestor ∈ ledger.lineage owner, ∀ node, ledger.nodes ancestor = some node →
      node.Covers resourceClass amounts := by
  intro ancestor hanc node hn _
  rw [h.used_eq ancestor node hn, h.dataUsed_eq ancestor node hn, hadd, hadd]
  refine ⟨?_, fun hd => ?_⟩
  · simp [within, hanc]
  · simp [dataWithin, hanc, hd]

/-- **Releasing keeps the books exact.** -/
theorem Ledger.Exact.release (hl : ∀ charge ∈ charges', (ledger.up charge.owner).isSome)
    (hadd : Adds owner resourceClass amounts charges' charges) :
    (ledger.onLineage owner (without resourceClass amounts)).Exact charges' := by
  have hpar : ∀ node, (without resourceClass amounts node).parent = node.parent :=
    fun _ => rfl
  obtain ⟨hs, -, hn⟩ := exact_iff.1 h
  refine exact_iff.2 ⟨hs.onLineage fun _ => rfl, by rwa [up_onLineage hpar], ?_⟩
  intro token after haf dimension
  obtain ⟨node, hnd, rfl⟩ := nodes_onLineage haf
  obtain ⟨hu, hd, hpk, hw⟩ := hn token node hnd dimension
  rw [hadd] at hu hd
  rw [within_onLineage hpar, dataWithin_onLineage hpar]
  by_cases htok : token ∈ ledger.lineage owner
  · by_cases hdata : resourceClass = .data <;>
      simp [htok, hdata, within, dataWithin, without] at hu hd ⊢ <;> omega
  · simpa [htok, within, dataWithin, hpk] using And.intro hu (And.intro hd hw)

/-! ## Creating and removing scopes -/

theorem Ledger.Exact.of_lineage {after : Ledger} (hs : after.Sound)
    (hlv : ∀ charge ∈ charges, (after.up charge.owner).isSome)
    (hlin : ∀ charge ∈ charges, after.lineage charge.owner = ledger.lineage charge.owner)
    (hnodes : ∀ token node, after.nodes token = some node → ledger.nodes token = some node ∨
      (∃ owner parent policy, node = .fresh owner parent policy) ∧
        ∀ charge ∈ charges, token ∉ ledger.lineage charge.owner) : after.Exact charges := by
  have hwi : ∀ token dimension, total (after.within token) charges dimension =
      total (ledger.within token) charges dimension :=
    fun token dimension => total_congr fun charge hch => by
      simp only [within, hlin charge hch]
  have hdataWithin : ∀ token dimension, total (after.dataWithin token) charges dimension =
      total (ledger.dataWithin token) charges dimension :=
    fun token dimension => total_congr fun charge hch => by
      simp only [dataWithin, hlin charge hch]
  obtain ⟨-, -, hn⟩ := exact_iff.1 h
  refine exact_iff.2 ⟨hs, hlv, fun token node hnd dimension => ?_⟩
  rw [hwi, hdataWithin]
  obtain hold | ⟨⟨_, _, _, rfl⟩, hout⟩ := hnodes token node hnd
  · exact hn token node hold dimension
  · refine ⟨(total_eq_zero fun charge hch => ?_).symm, (total_eq_zero fun charge hch => ?_).symm,
      le_rfl, Nat.two_pow_pos 128⟩
    · simp [within, hout charge hch]
    · simp [dataWithin, hout charge hch]

/-- **Creating a scope keeps the books exact.** -/
theorem Ledger.Exact.withChild {parent : Nat} {child : ResourceOwner}
    {policy : ValidPolicy} {node : NodeState} (hpar : ledger.nodes parent = some node)
    (hf : ledger.children (parent, child) = none) (hcap : (ledger.childCounts parent).getD 0 <
      childScopeCapacity node.policy.toResourceBudgetPolicy) :
    (ledger.withChild parent child policy).Exact charges := by
  have hlv := isSome_up.2 ⟨node, hpar⟩
  refine h.of_lineage (h.sound.withChild hpar hf hcap) ?_ ?_ ?_
  · intro charge hch
    obtain ⟨hol, hh⟩ := isSome_up.1 (h.owner_live charge hch)
    exact isSome_up.2 ⟨hol, h.sound.nodes_withChild hh⟩
  · intro charge hch
    rw [Ledger.lineage, up_withChild]
    exact h.sound.forest.lineage_insert h.sound.live_lt hlv (h.owner_live charge hch)
  · intro token after haf
    by_cases htok : token = ledger.next
    · subst htok
      obtain rfl : NodeState.fresh child (some parent) policy = after := by
        simpa [Ledger.withChild] using haf
      refine .inr ⟨⟨_, _, _, rfl⟩, fun charge hch hmem => ?_⟩
      -- the fresh token is younger than every owner
      have hown := h.owner_live charge hch
      have hle := (h.sound.forest.of_mem_lineage hown _ hmem).1
      exact absurd (h.sound.live_lt _ hown) (not_lt.2 hle)
    · exact .inl ((Function.update_of_ne htok _ _).symm.trans haf)

/-- **Removing a scope nothing is held in keeps the books exact.** -/
theorem Ledger.Exact.withoutScope {token : Nat} (hl : ∀ other, ledger.up other ≠ some (some token))
    (hf : ∀ charge ∈ charges, charge.owner ≠ token) :
    (ledger.withoutScope token).Exact charges := by
  refine h.of_lineage (h.sound.withoutScope hl) ?_ ?_ ?_
  · intro charge hch
    rw [up_withoutScope, Function.update_of_ne (hf charge hch)]
    exact h.owner_live charge hch
  · intro charge hch
    rw [Ledger.lineage, up_withoutScope]
    exact h.sound.forest.lineage_remove hl (h.owner_live charge hch) (hf charge hch)
  · intro other _ haf
    by_cases ho : other = token
    · simp [Ledger.withoutScope, ho] at haf
    · exact .inl ((Function.update_of_ne ho _ _).symm.trans haf)

end

theorem exact_process (owner : ResourceOwner) (policy : ValidPolicy) :
    (process owner policy).Exact 0 := by
  have hnodes : ∀ token node, (process owner policy).nodes token = some node →
      node = .fresh owner none policy := by
    intro token node hnd
    by_cases htok : token = 0
    · simpa [process, htok, eq_comm] using hnd
    · simp [process, htok] at hnd
  refine exact_iff.2 ⟨sound_process owner policy, by simp, fun token node hnd dimension => ?_⟩
  rw [hnodes token node hnd, total_zero, total_zero]
  exact ⟨rfl, rfl, le_rfl, Nat.two_pow_pos 128⟩

end

/-! ## Moves -/

/-- What one operation can do to the ledger; its charges are checked against the limits, or not. -/
inductive Ledger.Moves (checked : Bool) (ledger : Ledger) : Ledger → Prop
  | same : ledger.Moves checked ledger
  | charged {owner : Nat} {resourceClass : ResourceClass} {amounts : Quantities}
      (admits : ∀ ancestor ∈ ledger.lineage owner, ∀ node, ledger.nodes ancestor = some node →
        node.Admits resourceClass amounts checked) :
      ledger.Moves checked (ledger.onLineage owner (NodeState.charge resourceClass amounts))
  | released {owner : Nat} {resourceClass : ResourceClass} {amounts : Quantities} :
      ledger.Moves checked (ledger.onLineage owner (NodeState.without resourceClass amounts))
  | created {parent : Nat} {owner : ResourceOwner} {policy : ValidPolicy} :
      ledger.Moves checked (ledger.withChild parent owner policy)
  | removed {token : Nat} : ledger.Moves checked (ledger.withoutScope token)

end CodeFabric.Budget
