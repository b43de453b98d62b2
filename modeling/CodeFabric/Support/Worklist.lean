import Mathlib.Algebra.BigOperators.Group.Finset.Basic
import Mathlib.Data.Finset.Sort
import Mathlib.Logic.Relation
import Mathlib.Tactic

/-! # Ordered sets and worklists

The elements of a finite set in ascending order, and the closure of a finite set under successors
by a first-in first-out worklist. -/

namespace Worklist

open List

/-! ## Values along paths -/

section

variable {α β : Type*} {R : α → α → Prop} {values : α → Set β} {a b : α}

/-- The values found along paths from an element, its own included. -/
def gathered (R : α → α → Prop) (values : α → Set β) (a : α) : Set β :=
  {v | ∃ b, Relation.ReflTransGen R a b ∧ v ∈ values b}

/-- **What contains the values of an element and is closed along paths contains all gathered
values.** -/
theorem gathered_subset {F : α → Set β} (hvs : ∀ b, Relation.ReflTransGen R a b → values b ⊆ F b)
    (hs : ∀ b c, Relation.ReflTransGen R a b → R b c → F c ⊆ F b) : gathered R values a ⊆ F a := by
  rintro v ⟨b, hp, hv⟩
  have hb : v ∈ F b := hvs b hp hv
  -- walk the path backwards from `b`
  clear hv
  induction hp with
  | refl => exact hb
  | tail hi hl ih => exact ih (hs _ _ hi hl hb)

end

variable {α : Type*} [LinearOrder α] (s : Finset α) {successors : α → List α}
  {marked domain start : Finset α} {queue : List α}

/-! ## Sets in order -/

/-- The elements of a finite set in ascending order. -/
def inOrder (s : Finset α) : List α :=
  Quot.liftOn s.val (fun l => l.insertionSort (· ≤ ·)) fun l l' h => by
    have hperm : (l.insertionSort (· ≤ ·)).Perm (l'.insertionSort (· ≤ ·)) :=
      ((List.perm_insertionSort _ l).trans h).trans (List.perm_insertionSort _ l').symm
    exact hperm.eq_of_pairwise' (List.pairwise_insertionSort _ l) (List.pairwise_insertionSort _ l')

/-- The enumeration is the sorted list of the set. -/
theorem inOrder_eq_sort : inOrder s = s.sort (· ≤ ·) := by
  obtain ⟨val, hnd⟩ := s
  induction val using Quot.ind with
  | mk l =>
    have hs : (Finset.sort ⟨Quot.mk _ l, hnd⟩ (· ≤ ·)).Perm l :=
      Multiset.coe_eq_coe.1 (Finset.sort_eq _ _)
    exact ((perm_insertionSort _ l).trans hs.symm).eq_of_pairwise'
      (pairwise_insertionSort _ l) (Finset.pairwise_sort _ _)

@[simp] theorem mem_inOrder {s : Finset α} {a : α} : a ∈ inOrder s ↔ a ∈ s := by
  rw [inOrder_eq_sort, Finset.mem_sort]

theorem nodup_inOrder : (inOrder s).Nodup := by
  rw [inOrder_eq_sort]
  exact Finset.sort_nodup _ _

@[simp] theorem length_inOrder : (inOrder s).length = s.card := by
  rw [inOrder_eq_sort, Finset.length_sort]

@[simp] theorem toFinset_inOrder : (inOrder s).toFinset = s := by
  ext a
  rw [mem_toFinset, mem_inOrder]

/-- Adding up over the enumeration adds up over the set. -/
theorem sum_inOrder (g : α → Nat) : ((inOrder s).map g).sum = ∑ a ∈ s, g a := by
  rw [← sum_toFinset g (nodup_inOrder s), toFinset_inOrder]

/-- The elements of a list, counted by a key. -/
theorem sum_length_filter {β : Type*} (key : β → α) (keys : Finset α) (l : List β)
    (hky : ∀ b ∈ l, key b ∈ keys) : ∑ k ∈ keys, (l.filter (key · = k)).length = l.length := by
  induction l with
  | nil => simp
  | cons b l ih =>
    have hb : ∑ k ∈ keys, (if key b = k then 1 else 0) = 1 := by
      rw [Finset.sum_ite_eq, if_pos (hky b mem_cons_self)]
    have hspl : ∀ k, ((b :: l).filter (key · = k)).length =
        (l.filter (key · = k)).length + if key b = k then 1 else 0 := by
      intro k
      rw [filter_cons]
      by_cases hk : key b = k
      · simp [hk]
      · simp [hk]
    rw [Finset.sum_congr rfl fun k _ => hspl k, Finset.sum_add_distrib, hb,
      ih fun b' hb' => hky b' (mem_cons_of_mem _ hb'), length_cons]

/-! ## Worklists -/

/-- Mark the successors that are not yet marked, and enqueue them. -/
def visit (marked : Finset α) (queue : List α) : List α → Finset α × List α
  | [] => (marked, queue)
  | x :: successors =>
    if x ∈ marked then visit marked queue successors
    else visit (insert x marked) (queue ++ [x]) successors

/-- Take elements from the queue and visit their successors until the queue is empty. -/
def saturate (successors : α → List α) : Nat → Finset α → List α → Finset α
  | 0, marked, _ => marked
  | _ + 1, marked, [] => marked
  | fuel + 1, marked, x :: queue =>
    let (marked, queue) := visit marked queue (successors x)
    saturate successors fuel marked queue

/-- The closure of `start` under successors, for successors within `domain`. -/
def close (successors : α → List α) (domain start : Finset α) : Finset α :=
  saturate successors (domain ∪ start).card start (inOrder start)

/-- Visiting marks the successors, enqueues what it marks, and enqueues nothing twice. -/
theorem visit_spec (xs : List α) (marked : Finset α) (queue : List α) :
    ∃ fresh : List α, (visit marked queue xs).2 = queue ++ fresh ∧ fresh.Nodup ∧
      (∀ x, x ∈ fresh ↔ x ∈ xs ∧ x ∉ marked) ∧
      (visit marked queue xs).1 = marked ∪ fresh.toFinset := by
  induction xs generalizing marked queue with
  | nil => exact ⟨[], by simp [visit]⟩
  | cons x xs ih =>
    by_cases hx : x ∈ marked
    · obtain ⟨fresh, hq, hnd, hmem, hmk⟩ := ih marked queue
      rw [visit, if_pos hx]
      refine ⟨fresh, hq, hnd, fun y => ?_, hmk⟩
      rw [hmem, mem_cons]
      exact ⟨fun ⟨hy, hm⟩ => ⟨.inr hy, hm⟩,
        fun ⟨hy, hm⟩ => ⟨hy.resolve_left fun h => hm (h ▸ hx), hm⟩⟩
    · obtain ⟨fresh, hq, hnd, hmem, hmk⟩ := ih (insert x marked) (queue ++ [x])
      rw [visit, if_neg hx]
      refine ⟨x :: fresh, by rw [hq, append_assoc]; rfl, ?_, fun y => ?_, ?_⟩
      · exact List.nodup_cons.2 ⟨fun h => ((hmem x).1 h).2 (Finset.mem_insert_self x marked), hnd⟩
      · rw [mem_cons, hmem, mem_cons, Finset.mem_insert]
        by_cases hy : y = x
        · subst hy
          simp [hx]
        · simp [hy]
      · rw [hmk]
        ext y
        simp

/-- The state of a worklist: everything queued is marked, everything marked lies in the domain,
and the successors of what has left the queue are marked. -/
structure Pending (successors : α → List α) (domain marked : Finset α) (queue : List α) :
    Prop where
  queued : ∀ x ∈ queue, x ∈ marked
  within : marked ⊆ domain
  done : ∀ x ∈ marked, x ∉ queue → ∀ y ∈ successors x, y ∈ marked

/-- A visited element leaves the worklist in order. -/
theorem Pending.visit {x : α} (h : Pending successors domain marked (x :: queue))
    (hsc : ∀ y ∈ successors x, y ∈ domain) :
    Pending successors domain (Worklist.visit marked queue (successors x)).1
        (Worklist.visit marked queue (successors x)).2 ∧
      (domain \ (Worklist.visit marked queue (successors x)).1).card +
          (Worklist.visit marked queue (successors x)).2.length <
        (domain \ marked).card + (x :: queue).length := by
  obtain ⟨fresh, hq, hnd, hmem, hmk⟩ := visit_spec (successors x) marked queue
  rw [hq, hmk]
  refine ⟨⟨fun y hy => ?_, fun y hy => ?_, fun y hy hnot z hz => ?_⟩, ?_⟩
  · rw [Finset.mem_union, mem_toFinset]
    exact (List.mem_append.1 hy).imp_left fun hy => h.queued y (mem_cons_of_mem _ hy)
  · obtain hy | hy := Finset.mem_union.1 hy
    · exact h.within hy
    · exact hsc y ((hmem y).1 (List.mem_toFinset.1 hy)).1
  · rw [mem_append, not_or] at hnot
    rw [Finset.mem_union, mem_toFinset] at hy ⊢
    have hy' : y ∈ marked := hy.resolve_right hnot.2
    by_cases hz' : z ∈ marked
    · exact .inl hz'
    · -- only the element that has just left the queue can have unmarked successors
      have hyx : y = x := by
        by_contra hne
        exact hz' (h.done y hy' (by simp [hne, hnot.1]) z hz)
      exact .inr ((hmem z).2 ⟨hyx ▸ hz, hz'⟩)
  · have hf : fresh.toFinset ⊆ domain \ marked := fun y hy => by
      obtain ⟨hy, hnot⟩ := (hmem y).1 (List.mem_toFinset.1 hy)
      exact Finset.mem_sdiff.2 ⟨hsc y hy, hnot⟩
    have hc : fresh.toFinset.card = fresh.length := toFinset_card_of_nodup hnd
    have hle := Finset.card_le_card hf
    have hspl : domain \ (marked ∪ fresh.toFinset) = (domain \ marked) \ fresh.toFinset :=
      sdiff_sdiff_left.symm
    rw [hspl, Finset.card_sdiff_of_subset hf, hc, length_append, length_cons]
    omega

/-- Marks are never removed. -/
theorem subset_saturate (fuel : Nat) (marked : Finset α) (queue : List α) :
    marked ⊆ saturate successors fuel marked queue := by
  induction fuel generalizing marked queue with
  | zero => exact Finset.Subset.refl _
  | succ fuel ih =>
    cases queue with
    | nil => exact Finset.Subset.refl _
    | cons x queue =>
      obtain ⟨fresh, _, _, _, hmk⟩ := visit_spec (successors x) marked queue
      refine Finset.Subset.trans ?_ (ih _ _)
      rw [hmk]
      exact Finset.subset_union_left

/-- **Soundness.** Only what is reachable from a mark gets marked. -/
theorem reachable_of_mem_saturate {fuel : Nat} {marked : Finset α} {queue : List α}
    (hqu : ∀ x ∈ queue, x ∈ marked) {y : α} (hy : y ∈ saturate successors fuel marked queue) :
    ∃ x ∈ marked, Relation.ReflTransGen (fun a b => b ∈ successors a) x y := by
  induction fuel generalizing marked queue with
  | zero => exact ⟨y, hy, .refl⟩
  | succ fuel ih =>
    cases queue with
    | nil => exact ⟨y, hy, .refl⟩
    | cons x queue =>
      obtain ⟨fresh, hq', _, hmem, hmk⟩ := visit_spec (successors x) marked queue
      have hq : ∀ z ∈ (visit marked queue (successors x)).2,
          z ∈ (visit marked queue (successors x)).1 := by
        intro z hz
        rw [hq'] at hz
        rw [hmk, Finset.mem_union, mem_toFinset]
        exact (List.mem_append.1 hz).imp_left fun hz => hqu z (mem_cons_of_mem _ hz)
      obtain ⟨z, hz, hr⟩ := ih hq hy
      rw [hmk, Finset.mem_union, mem_toFinset] at hz
      obtain hz | hz := hz
      · exact ⟨z, hz, hr⟩
      · exact ⟨x, hqu x mem_cons_self, .head ((hmem z).1 hz).1 hr⟩

/-- **Completeness.** With enough fuel the marks end up closed under successors. -/
theorem saturate_closed {fuel : Nat} {marked : Finset α} {queue : List α}
    (hd : ∀ x ∈ domain, ∀ y ∈ successors x, y ∈ domain) (h : Pending successors domain marked queue)
    (hf : (domain \ marked).card + queue.length ≤ fuel) {x y : α}
    (hx : x ∈ saturate successors fuel marked queue) (hy : y ∈ successors x) :
    y ∈ saturate successors fuel marked queue := by
  induction fuel generalizing marked queue with
  | zero =>
    have hemp : queue = [] := List.length_eq_zero_iff.1 (by omega)
    subst hemp
    exact h.done x hx (by simp) y hy
  | succ fuel ih =>
    cases queue with
    | nil => exact h.done x hx (by simp) y hy
    | cons z queue =>
      obtain ⟨hp, hl⟩ :=
        h.visit (hd z (h.within (h.queued z mem_cons_self)))
      exact ih hp (by omega) hx

/-- **A worklist computes reachability**: the closure of a set holds exactly what is reachable from
one of its elements. -/
theorem mem_close (hd : ∀ x ∈ domain, ∀ y ∈ successors x, y ∈ domain)
    (hsta : start ⊆ domain) {y : α} : y ∈ close successors domain start ↔
      ∃ x ∈ start, Relation.ReflTransGen (fun a b => b ∈ successors a) x y := by
  constructor
  · exact reachable_of_mem_saturate fun x hx => mem_inOrder.1 hx
  · rintro ⟨x, hx, hr⟩
    have hp : Pending successors domain start (inOrder start) :=
      ⟨fun z hz => mem_inOrder.1 hz, hsta, fun z hz hnot => absurd (mem_inOrder.2 hz) hnot⟩
    have hf : (domain \ start).card + (inOrder start).length ≤ (domain ∪ start).card := by
      rw [length_inOrder, Finset.union_eq_left.2 hsta, Finset.card_sdiff_of_subset hsta]
      have := Finset.card_le_card hsta
      omega
    induction hr with
    | refl => exact subset_saturate _ _ _ hx
    | tail _ hst ih => exact saturate_closed hd hp hf ih hst

end Worklist
