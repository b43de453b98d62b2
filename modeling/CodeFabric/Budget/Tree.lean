import CodeFabric.Budget.Ledger

/-! # The scope tree of the ledger

The child map and the child counts of the ledger describe its live scopes. **`Ledger.Sound`** states
it; charging, creating and removing scopes preserve it. -/

namespace CodeFabric.Budget

open Fallible Ancestry Function Finset

def Ledger.liveChildren (ledger : Ledger) (parent : Nat) : Finset Nat :=
  (Finset.range ledger.next).filter fun token => ledger.up token = some (some parent)

open Ledger

/-- The child count of a scope with so many children: no entry for none. -/
def countEntry (count : Nat) : Option Nat :=
  if count = 0 then none else some count

/-- **The child index agrees with the live scopes.** -/
structure Ledger.Sound (ledger : Ledger) : Prop where
  forest : Forest ledger.up
  live_lt : ∀ token, (ledger.up token).isSome → token < ledger.next
  children_iff : ∀ parent owner token, ledger.children (parent, owner) = some token ↔
    ∃ node, ledger.nodes token = some node ∧ node.parent = some parent ∧ node.owner = owner
  childCounts_eq : ∀ parent,
    ledger.childCounts parent = countEntry (ledger.liveChildren parent).card
  capacity : ∀ parent node, ledger.nodes parent = some node →
    (ledger.liveChildren parent).card ≤ childScopeCapacity node.policy.toResourceBudgetPolicy

@[simp] theorem countEntry_getD (count : Nat) : (countEntry count).getD 0 = count := by
  unfold countEntry
  split <;> simp_all

theorem releasedCount_countEntry (count : Nat) :
    releasedCount (countEntry (count + 1)) = .ok (countEntry count) := by
  simp [countEntry, releasedCount, checkedSub, okOr, bind, Except.bind, pure, Except.pure]

variable {ledger : Ledger} {token : Nat}

theorem up_eq_some {parent : Option Nat} : ledger.up token = some parent ↔
    ∃ node, ledger.nodes token = some node ∧ node.parent = parent := by
  rw [up, Option.map_eq_some_iff]

theorem isSome_up : (ledger.up token).isSome ↔ ∃ node, ledger.nodes token = some node := by
  rw [up, Option.isSome_map, Option.isSome_iff_exists]

theorem Ledger.Sound.mem_liveChildren (h : ledger.Sound) {parent : Nat} :
    token ∈ ledger.liveChildren parent ↔ ledger.up token = some (some parent) := by
  rw [liveChildren, mem_filter, mem_range]
  exact ⟨And.right, fun hup => ⟨h.live_lt token (by simp [hup]), hup⟩⟩

/-! ## The process root -/

theorem up_process (owner : ResourceOwner) (policy : ValidPolicy) (token : Nat) :
    (Ledger.process owner policy).up token = if token = 0 then some none else none := by
  by_cases htok : token = 0
  · simp [htok, Ledger.up, Ledger.process, NodeState.fresh]
  · simp [htok, Ledger.up, Ledger.process]

theorem sound_process (owner : ResourceOwner) (policy : ValidPolicy) :
    (process owner policy).Sound := by
  have hr : ∀ token parent, (process owner policy).up token ≠ some (some parent) := by
    intro token parent
    rw [up_process]
    split <;> simp
  have hemp : ∀ parent, (process owner policy).liveChildren parent = ∅ :=
    fun parent => Finset.filter_eq_empty_iff.2 fun token _ => hr token parent
  constructor
  · exact ⟨fun hup => absurd hup (hr _ _), fun hup => absurd hup (hr _ _)⟩
  · intro token hl
    rw [up_process] at hl
    by_cases htok : token = 0
    · exact htok ▸ Nat.one_pos
    · simp [htok] at hl
  · intro parent child token
    refine ⟨fun hc => by simp [process] at hc, ?_⟩
    rintro ⟨node, hn, hpar, -⟩
    exact absurd (up_eq_some.2 ⟨node, hn, hpar⟩) (hr token parent)
  · intro parent
    rw [hemp]
    rfl
  · intro parent node _
    rw [hemp]
    exact Nat.zero_le _

/-! ## Charging -/

def NodeState.header (node : NodeState) : Option Nat × ResourceOwner × ValidPolicy :=
  (node.parent, node.owner, node.policy)

open NodeState

theorem exists_child_iff {parent : Nat} {owner : ResourceOwner} :
    (∃ node, ledger.nodes token = some node ∧ node.parent = some parent ∧ node.owner = owner) ↔
      ∃ policy, (ledger.nodes token).map header = some (some parent, owner, policy) := by
  constructor
  · rintro ⟨node, hn, hpar, hown⟩
    exact ⟨node.policy, by simp [hn, header, hpar, hown]⟩
  · rintro ⟨policy, hhd⟩
    obtain ⟨node, hn, heq⟩ := Option.map_eq_some_iff.1 hhd
    obtain ⟨hpar, hown, -⟩ : node.parent = some parent ∧ node.owner = owner ∧
        node.policy = policy := by simpa [header] using heq
    exact ⟨node, hn, hpar, hown⟩

theorem Ledger.Sound.onLineage (h : ledger.Sound) {change : NodeState → NodeState}
    (hchg : ∀ node, (change node).header = node.header) :
    (ledger.onLineage token change).Sound := by
  have hup : (ledger.onLineage token change).up = ledger.up :=
    Ledger.up_onLineage fun node => congrArg Prod.fst (hchg node)
  have hhd : ∀ ancestor, ((ledger.onLineage token change).nodes ancestor).map NodeState.header =
      (ledger.nodes ancestor).map NodeState.header := by
    intro ancestor
    by_cases hanc : ancestor ∈ ledger.lineage token
    · simp [Ledger.onLineage, hanc, comp_def, hchg]
    · simp [Ledger.onLineage, hanc]
  have hchi : ∀ parent, (ledger.onLineage token change).liveChildren parent =
      ledger.liveChildren parent := by
    intro parent
    rw [Ledger.liveChildren, hup]
    rfl
  constructor
  · rw [hup]
    exact h.forest
  · rw [hup]
    exact h.live_lt
  · intro parent owner child
    rw [exists_child_iff, hhd, ← exists_child_iff]
    exact h.children_iff parent owner child
  · intro parent
    rw [hchi]
    exact h.childCounts_eq parent
  · intro parent after haf
    have hs := hhd parent
    rw [haf, Option.map_some] at hs
    obtain ⟨node, hn, heq⟩ := Option.map_eq_some_iff.1 hs.symm
    have hp : node.policy = after.policy := congrArg (fun header => header.2.2) heq
    rw [hchi, ← hp]
    exact h.capacity parent node hn

/-! ## Creating scopes -/

def Ledger.withChild (ledger : Ledger) (parent : Nat) (owner : ResourceOwner)
    (policy : ValidPolicy) : Ledger where
  next := ledger.next + 1
  nodes := Function.update ledger.nodes ledger.next (some (.fresh owner (some parent) policy))
  children := Function.update ledger.children (parent, owner) (some ledger.next)
  childCounts :=
    Function.update ledger.childCounts parent (some ((ledger.childCounts parent).getD 0 + 1))

variable {required kind : ResourceScopeKind} {policy : ResourceBudgetPolicy}

theorem Ledger.child_eq_ok {after : Ledger} {id : Vector UInt8 16}
    (h : ledger.child token required kind id policy = .ok after) :
    ∃ parent valid, ledger.nodes token = some parent ∧ ledger.children (token, ⟨kind, id⟩) = none ∧
      (ledger.childCounts token).getD 0 < childScopeCapacity parent.policy.toResourceBudgetPolicy ∧
      after = ledger.withChild token ⟨kind, id⟩ valid := by
  simp only [child, ok_iff, checkedAdd_eq_some] at h
  obtain ⟨valid, -, parent, hpar, -, -, -, -, -, -, -, hf, -, hcap, _, ⟨-, rfl⟩, rfl⟩ := h
  exact ⟨parent, valid, hpar, hf, hcap, rfl⟩

theorem Ledger.child_eq_error {id : Vector UInt8 16}
    {failure : Failure} (hlv : (ledger.up token).isSome)
    (h : ledger.child token required kind id policy = .error failure) :
    ∃ error, failure = .error error := by
  obtain ⟨parent, hpar⟩ := isSome_up.1 hlv
  obtain hpl | ⟨valid, -, h⟩ := bind_eq_error h
  · exact ResourceBudgetPolicy.validate_eq_error hpl
  obtain hmis | ⟨_, hfd, h⟩ := bind_eq_error h
  · rw [hpar] at hmis
    cases hmis
  -- what is left are checks, each with its own error
  obtain hk | ⟨_, -, h⟩ := bind_eq_error h
  · exact ⟨_, (ensure_eq_error hk).1⟩
  obtain hi | ⟨_, -, h⟩ := bind_eq_error h
  · exact ⟨_, (ensure_eq_error hi).1⟩
  obtain hlm | ⟨_, -, h⟩ := bind_eq_error h
  · exact ⟨_, (ensure_eq_error hlm).1⟩
  obtain hdup | ⟨_, -, h⟩ := bind_eq_error h
  · exact ⟨_, (ensure_eq_error hdup).1⟩
  obtain hcap | ⟨_, -, h⟩ := bind_eq_error h
  · exact ⟨_, (ensure_eq_error hcap).1⟩
  obtain ho | ⟨_, -, h⟩ := bind_eq_error h
  · exact ⟨_, (okOr_eq_error ho).1⟩
  · cases h

section

variable {ledger : Ledger} {parent : Nat} {owner : ResourceOwner} {policy : ValidPolicy}

theorem up_withChild : (ledger.withChild parent owner policy).up =
    update ledger.up ledger.next (some (some parent)) := by
  funext token
  by_cases htok : token = ledger.next
  · simp [htok, up, withChild, fresh]
  · simp [htok, up, withChild]

theorem Ledger.Sound.nodes_next (h : ledger.Sound) : ledger.nodes ledger.next = none := by
  rw [Option.eq_none_iff_forall_ne_some]
  intro node hn
  exact (h.live_lt _ (isSome_up.2 ⟨node, hn⟩)).false

theorem Ledger.Sound.nodes_withChild (h : ledger.Sound) {node : NodeState}
    (hnd : ledger.nodes token = some node) :
    (ledger.withChild parent owner policy).nodes token = some node := by
  have hne : token ≠ ledger.next := (h.live_lt token (isSome_up.2 ⟨node, hnd⟩)).ne
  exact (update_of_ne hne _ _).trans hnd

theorem Ledger.Sound.liveChildren_withChild (h : ledger.Sound) (other : Nat) :
    (ledger.withChild parent owner policy).liveChildren other =
      if other = parent then insert ledger.next (ledger.liveChildren other)
      else ledger.liveChildren other := by
  ext token
  have hmem : token ∈ (ledger.withChild parent owner policy).liveChildren other ↔
      token < ledger.next + 1 ∧
        update ledger.up ledger.next (some (some parent)) token = some (some other) := by
    rw [liveChildren, mem_filter, mem_range, up_withChild]
    rfl
  have hn : ledger.next ∉ ledger.liveChildren other := by simp [liveChildren]
  rw [hmem]
  by_cases htok : token = ledger.next
  · subst htok
    by_cases ho : other = parent
    · simp [ho]
    · simp [ho, hn, Ne.symm ho]
  · have hspl : token ∈ (if other = parent then insert ledger.next (ledger.liveChildren other)
        else ledger.liveChildren other) ↔ token ∈ ledger.liveChildren other := by
      split <;> simp [htok]
    rw [hspl, h.mem_liveChildren, update_of_ne htok]
    exact ⟨And.right, fun hup => ⟨by have := h.live_lt token (by simp [hup]); omega, hup⟩⟩

theorem Ledger.Sound.children_withChild (h : ledger.Sound)
    (hf : ledger.children (parent, owner) = none) (other : Nat) (child : ResourceOwner)
    (token : Nat) : (ledger.withChild parent owner policy).children (other, child) = some token ↔
      ∃ node, (ledger.withChild parent owner policy).nodes token = some node ∧
        node.parent = some other ∧ node.owner = child := by
  have hold := h.children_iff other child token
  by_cases htok : token = ledger.next
  · -- the fresh node is the child of its own key only
    subst htok
    have hnn : ledger.children (other, child) ≠ some ledger.next := by
      rw [Ne, hold]
      rintro ⟨node, hnd, -⟩
      simp [h.nodes_next] at hnd
    by_cases hkey : (other, child) = (parent, owner)
    · cases hkey
      simp [withChild, fresh]
    · have hne : ¬(parent = other ∧ owner = child) := by
        rintro ⟨rfl, rfl⟩
        exact hkey rfl
      simp [withChild, hkey, fresh, hnn, hne]
  · by_cases hkey : (other, child) = (parent, owner)
    · rw [hkey, hf] at hold
      simp [withChild, hkey, htok, Ne.symm htok, ← hold]
    · simp [withChild, hkey, htok, hold]

/-- **Creation keeps the index.** -/
theorem Ledger.Sound.withChild (h : ledger.Sound) {node : NodeState}
    (hpar : ledger.nodes parent = some node) (hfr : ledger.children (parent, owner) = none)
    (hcap : (ledger.childCounts parent).getD 0 <
      childScopeCapacity node.policy.toResourceBudgetPolicy) :
    (ledger.withChild parent owner policy).Sound := by
  have hl := isSome_up.2 ⟨node, hpar⟩
  have hn : ∀ other, ledger.next ∉ ledger.liveChildren other := by simp [Ledger.liveChildren]
  constructor
  · rw [up_withChild]
    exact h.forest.insert h.live_lt hl
  · intro token hs
    show token < ledger.next + 1
    rw [up_withChild] at hs
    by_cases htok : token = ledger.next
    · omega
    · rw [update_of_ne htok] at hs
      exact (h.live_lt token hs).trans (Nat.lt_succ_self _)
  · exact h.children_withChild hfr
  · intro other
    rw [h.liveChildren_withChild]
    by_cases ho : other = parent
    · subst ho
      rw [if_pos rfl, card_insert_of_notMem (hn _)]
      show update _ _ _ _ = _
      rw [update_self, h.childCounts_eq, countEntry_getD]
      rfl
    · simp [Ledger.withChild, ho, h.childCounts_eq]
  · intro other after haf
    rw [h.liveChildren_withChild]
    by_cases ho : other = parent
    · subst ho
      rw [h.nodes_withChild hpar] at haf
      cases haf
      rw [h.childCounts_eq, countEntry_getD] at hcap
      rw [if_pos rfl, card_insert_of_notMem (hn _)]
      exact hcap
    · rw [if_neg ho]
      by_cases hfreshNode : other = ledger.next
      · have hemp : ledger.liveChildren other = ∅ := by
          refine eq_empty_of_forall_notMem fun token htok => ?_
          have hd := h.live_lt _ (h.forest.parent_live (h.mem_liveChildren.1 htok))
          exact (hfreshNode ▸ hd).false
        rw [hemp]
        exact Nat.zero_le _
      · exact h.capacity other after ((update_of_ne hfreshNode _ _).symm.trans haf)

end

/-! ## Removing scopes -/

section

variable {ledger : Ledger} {token : Nat} {node : NodeState}

def Ledger.withoutScope (ledger : Ledger) (token : Nat) : Ledger where
  next := ledger.next
  nodes := Function.update ledger.nodes token none
  children key := if ledger.children key = some token then none else ledger.children key
  childCounts parent := countEntry ((ledger.liveChildren parent).erase token).card

theorem Ledger.Sound.children_eq_token (h : ledger.Sound) (hn : ledger.nodes token = some node)
    (key : Nat × ResourceOwner) :
    ledger.children key = some token ↔ node.parent = some key.1 ∧ node.owner = key.2 := by
  rw [h.children_iff key.1 key.2 token]
  simp [hn]

theorem Ledger.Sound.dropScope_child (h : ledger.Sound) {parent : Nat}
    (hnd : ledger.nodes token = some node) (hpar : node.parent = some parent) :
    ledger.dropScope token = .ok (ledger.withoutScope token) := by
  have hup : ledger.up token = some (some parent) := up_eq_some.2 ⟨node, hnd, hpar⟩
  have hch : token ∈ ledger.liveChildren parent := h.mem_liveChildren.2 hup
  have hcn : ledger.childCounts parent =
      countEntry (((ledger.liveChildren parent).erase token).card + 1) := by
    rw [h.childCounts_eq, card_erase_add_one hch]
  have hchi : update ledger.children (parent, node.owner) none =
      (ledger.withoutScope token).children := by
    funext key
    have hkey : ledger.children key = some token ↔ key = (parent, node.owner) := by
      rw [h.children_eq_token hnd, hpar, Prod.ext_iff, Option.some_inj, eq_comm, @eq_comm _ _ key.2]
    simp only [withoutScope, hkey, update_apply]
  have hcts : update ledger.childCounts parent
      (countEntry ((ledger.liveChildren parent).erase token).card) =
        (ledger.withoutScope token).childCounts := by
    funext other
    by_cases ho : other = parent
    · simp [ho, withoutScope]
    · have hnotChild : token ∉ ledger.liveChildren other := by
        rw [h.mem_liveChildren, hup]
        simp [Ne.symm ho]
      simp [ho, withoutScope, h.childCounts_eq, erase_eq_of_notMem hnotChild]
  simp only [dropScope, hnd, hpar, hcn, releasedCount_countEntry, ok_iff]
  exact ⟨_, rfl, by rw [hchi, hcts]; rfl⟩

theorem Ledger.Sound.dropScope_root (h : ledger.Sound) (hnd : ledger.nodes token = some node)
    (hpar : node.parent = none) : ledger.dropScope token = .ok (ledger.withoutScope token) := by
  have hchi : (ledger.withoutScope token).children = ledger.children := by
    funext key
    have hkey : ledger.children key ≠ some token := by
      rw [Ne, h.children_eq_token hnd, hpar]
      simp
    exact if_neg hkey
  have hcts : (ledger.withoutScope token).childCounts = ledger.childCounts := by
    funext parent
    have hnotChild : token ∉ ledger.liveChildren parent := by
      rw [h.mem_liveChildren, up_eq_some]
      simp [hnd, hpar]
    simp [withoutScope, h.childCounts_eq, erase_eq_of_notMem hnotChild]
  simp only [dropScope, hnd, hpar, Except.ok.injEq]
  rw [← hchi, ← hcts]
  rfl

/-- **Removing a live scope.** -/
theorem Ledger.Sound.dropScope_of_live (h : ledger.Sound) (hl : (ledger.up token).isSome) :
    ledger.dropScope token = .ok (ledger.withoutScope token) := by
  obtain ⟨node, hn⟩ := isSome_up.1 hl
  cases hpar : node.parent with
  | none => exact h.dropScope_root hn hpar
  | some parent => exact h.dropScope_child hn hpar

theorem up_withoutScope : (ledger.withoutScope token).up = update ledger.up token none := by
  funext other
  by_cases ho : other = token
  · simp [ho, up, withoutScope]
  · simp [ho, up, withoutScope]

theorem liveChildren_withoutScope (parent : Nat) :
    (ledger.withoutScope token).liveChildren parent = (ledger.liveChildren parent).erase token := by
  ext other
  rw [liveChildren, up_withoutScope, liveChildren, mem_erase, mem_filter, mem_filter]
  by_cases ho : other = token
  · simp [ho]
  · simp [ho, withoutScope]

/-- **Removal of a childless scope keeps the index.** -/
theorem Ledger.Sound.withoutScope (h : ledger.Sound)
    (hlf : ∀ other, ledger.up other ≠ some (some token)) : (ledger.withoutScope token).Sound := by
  have hn : ∀ {other after}, (ledger.withoutScope token).nodes other = some after →
      other ≠ token ∧ ledger.nodes other = some after := by
    intro other after haf
    by_cases ho : other = token
    · simp [Ledger.withoutScope, ho] at haf
    · exact ⟨ho, (update_of_ne ho _ _).symm.trans haf⟩
  constructor
  · rw [up_withoutScope]
    exact h.forest.remove hlf
  · intro other hlv
    obtain ⟨after, haf⟩ := isSome_up.1 hlv
    exact h.live_lt other (isSome_up.2 ⟨after, (hn haf).2⟩)
  · intro parent owner other
    have hold := h.children_iff parent owner other
    by_cases ho : other = token
    · subst ho
      simp [Ledger.withoutScope]
    · have hk : (ledger.withoutScope token).children (parent, owner) = some other ↔
          ledger.children (parent, owner) = some other := by
        simp only [Ledger.withoutScope]
        split
        · rename_i htok
          simp [htok, Ne.symm ho]
        · rfl
      rw [hk, hold]
      simp [Ledger.withoutScope, ho]
  · intro parent
    rw [liveChildren_withoutScope]
    rfl
  · intro parent after haf
    rw [liveChildren_withoutScope]
    exact (card_le_card (erase_subset _ _)).trans (h.capacity parent after (hn haf).2)

end

end CodeFabric.Budget
