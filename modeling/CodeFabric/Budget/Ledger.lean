import CodeFabric.Budget.Policy
import CodeFabric.Support.Ancestry
import Mathlib.Data.Finset.Card

/-! # The resource ledger

The ledger behind every budget handle: one node per live scope, each charge recorded on the whole
lineage of its owner. -/

namespace CodeFabric.Budget

open Fallible Ancestry

/-! ## Nodes -/

/-- The counters of one live scope. -/
structure NodeState where
  owner : ResourceOwner
  parent : Option Nat
  policy : ValidPolicy
  used : Quantities
  dataUsed : Quantities
  peak : Quantities

open NodeState

def NodeState.fresh (owner : ResourceOwner) (parent : Option Nat) (policy : ValidPolicy) :
    NodeState :=
  ⟨owner, parent, policy, fun _ => 0, fun _ => 0, fun _ => 0⟩

variable (node : NodeState)

/-- What is left for data work: the limit without the control headroom. -/
def NodeState.dataLimit (dimension : ResourceDimension) : Nat :=
  node.policy.limits.values dimension - node.policy.controlReserve.values dimension

def NodeState.checkDimension (resourceClass : ResourceClass)
    (amounts : Quantities) (checked : Bool) (dimension : ResourceDimension) :
    Except Failure Unit := do
  let total ← okOr (checkedAdd 128 (node.used dimension) (amounts dimension)) (.error .overflow)
  let limit := node.policy.limits.values dimension
  ensure (checked → total ≤ limit) (.error (.exhausted node.owner dimension total limit))
  let requested := node.dataUsed dimension + amounts dimension
  ensure (checked → resourceClass = .data → requested ≤ node.dataLimit dimension)
    (.error (.exhausted node.owner dimension requested (node.dataLimit dimension)))

def NodeState.check (resourceClass : ResourceClass) (amounts : Quantities)
    (checked : Bool) : Except Failure Unit :=
  ResourceDimension.all.forM (node.checkDimension resourceClass amounts checked)

variable (resourceClass : ResourceClass) (amounts : Quantities)

def NodeState.charge (node : NodeState) : NodeState :=
  { node with
    used := fun dimension => node.used dimension + amounts dimension
    peak := fun dimension => max (node.peak dimension) (node.used dimension + amounts dimension)
    dataUsed := fun dimension =>
      if resourceClass = .data then node.dataUsed dimension + amounts dimension
      else node.dataUsed dimension }

def NodeState.without (node : NodeState) : NodeState :=
  { node with
    used := fun dimension => node.used dimension - amounts dimension
    dataUsed := fun dimension =>
      if resourceClass = .data then node.dataUsed dimension - amounts dimension
      else node.dataUsed dimension }

/-- Remove a charge from a node; a counter below zero is a panic. -/
def NodeState.release (node : NodeState) : Except Failure NodeState := do
  ResourceDimension.all.forM fun dimension => ensure (amounts dimension ≤ node.used dimension ∧
      (resourceClass = .data → amounts dimension ≤ node.dataUsed dimension)) .underflow
  return node.without resourceClass amounts

/-! ## The ledger -/

/-- The shared ledger of one process root. -/
structure Ledger where
  next : Nat
  nodes : Nat → Option NodeState
  children : Nat × ResourceOwner → Option Nat
  childCounts : Nat → Option Nat

open Ledger

variable (ledger : Ledger) (token : Nat)

def Ledger.up : Option (Option Nat) :=
  (ledger.nodes token).map NodeState.parent

/-- The tokens a charge of a scope is recorded on, the scope first. -/
def Ledger.lineage (ledger : Ledger) (token : Nat) : List Nat :=
  Ancestry.lineage ledger.up token

def Ledger.visit (change : NodeState → Except Failure NodeState) (ledger : Ledger) (token : Nat) :
    Except Failure Ledger := do
  let node ← okOr (ledger.nodes token) .missingNode
  let node ← change node
  return { ledger with nodes := Function.update ledger.nodes token (some node) }

/-- Charge the whole lineage of a scope, after checking all of it. -/
def Ledger.add (resourceClass : ResourceClass)
    (amounts : Quantities) (checked : Bool) : Except Failure Ledger := do
  (ledger.lineage token).forM fun ancestor => do
    let node ← okOr (ledger.nodes ancestor) .missingNode
    node.check resourceClass amounts checked
  (ledger.lineage token).foldlM
    (Ledger.visit fun node => .ok (node.charge resourceClass amounts)) ledger

/-- Release a charge from the whole lineage of a scope. -/
def Ledger.subtract (resourceClass : ResourceClass)
    (amounts : Quantities) : Except Failure Ledger :=
  (ledger.lineage token).foldlM (Ledger.visit (NodeState.release resourceClass amounts)) ledger

def Ledger.process (owner : ResourceOwner) (policy : ValidPolicy) : Ledger where
  next := 1
  nodes := Function.update (fun _ => none) 0 (some (.fresh owner none policy))
  children _ := none
  childCounts _ := none

def Ledger.child (required kind : ResourceScopeKind)
    (id : Vector UInt8 16) (policy : ResourceBudgetPolicy) : Except Failure Ledger := do
  let policy ← policy.validate
  let parent ← okOr (ledger.nodes token) .missingNode
  ensure (parent.owner.kind = required) (.error .invalidHierarchy)
  ensure (id ≠ Vector.replicate 16 0) (.error .invalidIdentity)
  ensure (policy.limits.intersection parent.policy.limits = policy.limits)
    (.error .invalidHierarchy)
  let owner : ResourceOwner := ⟨kind, id⟩
  ensure (ledger.children (token, owner) = none) (.error .duplicateOwner)
  let count := (ledger.childCounts token).getD 0
  ensure (count < childScopeCapacity parent.policy.toResourceBudgetPolicy) (.error .scopeCapacity)
  let next ← okOr (checkedAdd 64 ledger.next 1) (.error .overflow)
  return {
    next := next
    nodes := Function.update ledger.nodes ledger.next (some (.fresh owner (some token) policy))
    children := Function.update ledger.children (token, owner) (some ledger.next)
    childCounts := Function.update ledger.childCounts token (some (count + 1)) }

def releasedCount : Option Nat → Except Failure (Option Nat)
  | none => .ok none
  | some count => do
    let count ← okOr (checkedSub count 1) .underflow
    return if count = 0 then none else some count

/-- Remove the node of a scope whose last handle is gone. -/
def Ledger.dropScope : Except Failure Ledger :=
  match ledger.nodes token with
  | none => .ok ledger
  | some node =>
    match node.parent with
    | none => .ok { ledger with nodes := Function.update ledger.nodes token none }
    | some parent => do
      let count ← releasedCount (ledger.childCounts parent)
      return { ledger with
        nodes := Function.update ledger.nodes token none
        children := Function.update ledger.children (parent, node.owner) none
        childCounts := Function.update ledger.childCounts parent count }

/-! ## What charging and releasing do -/

/-- A charge a node admits: it fits the counters, and, if checked, the limits. -/
def NodeState.Admits (node : NodeState) (resourceClass : ResourceClass) (amounts : Quantities)
    (checked : Bool) : Prop :=
  ∀ dimension, node.used dimension + amounts dimension < 2 ^ 128 ∧
    (checked → node.used dimension + amounts dimension ≤ node.policy.limits.values dimension) ∧
    (checked → resourceClass = .data →
      node.dataUsed dimension + amounts dimension ≤ node.dataLimit dimension)

def NodeState.Covers (node : NodeState) (resourceClass : ResourceClass) (amounts : Quantities) :
    Prop :=
  ∀ dimension, amounts dimension ≤ node.used dimension ∧
    (resourceClass = .data → amounts dimension ≤ node.dataUsed dimension)

variable {resourceClass : ResourceClass} {amounts : Quantities} {node : NodeState}

theorem NodeState.check_eq_ok {checked : Bool} {done : Unit} :
    node.check resourceClass amounts checked = .ok done ↔
      node.Admits resourceClass amounts checked := by
  simp only [check, forM_eq_ok, ResourceDimension.mem_all, true_implies, checkDimension, ok_iff,
    checkedAdd_eq_some, NodeState.Admits]
  refine forall_congr' fun _ => ?_
  constructor
  · rintro ⟨_, ⟨hf, rfl⟩, -, hl, hd⟩
    exact ⟨hf, hl, hd⟩
  · rintro ⟨hf, hl, hd⟩
    exact ⟨_, ⟨hf, rfl⟩, (), hl, hd⟩

theorem NodeState.check_eq_error {checked : Bool} {failure : Failure}
    (h : node.check resourceClass amounts checked = .error failure) :
    ∃ error, failure = .error error := by
  obtain ⟨_, -, hchk⟩ := forM_eq_error h
  unfold checkDimension at hchk
  obtain hadd | ⟨_, -, hchk⟩ := bind_eq_error hchk
  · exact ⟨_, (okOr_eq_error hadd).1⟩
  · obtain hl | ⟨_, -, hd⟩ := bind_eq_error hchk
    · exact ⟨_, (ensure_eq_error hl).1⟩
    · exact ⟨_, (ensure_eq_error hd).1⟩

theorem NodeState.release_of_covers (h : node.Covers resourceClass amounts) :
    node.release resourceClass amounts = .ok (node.without resourceClass amounts) := by
  simp only [release, ok_iff, forM_eq_ok]
  exact ⟨(), fun dimension _ => h dimension, trivial⟩

def Ledger.onLineage (change : NodeState → NodeState) : Ledger :=
  { ledger with
    nodes := fun ancestor =>
      if ancestor ∈ ledger.lineage token then (ledger.nodes ancestor).map change
      else ledger.nodes ancestor }

theorem foldlM_visit {change : NodeState → Except Failure NodeState}
    {result : NodeState → NodeState} {tokens : List Nat} {ledger : Ledger} (hnd : tokens.Nodup)
    (hlv : ∀ token ∈ tokens, ∃ node, ledger.nodes token = some node ∧
      change node = .ok (result node)) :
    tokens.foldlM (visit change) ledger = .ok { ledger with
      nodes := fun token =>
        if token ∈ tokens then (ledger.nodes token).map result else ledger.nodes token } := by
  induction tokens generalizing ledger with
  | nil => simp [pure, Except.pure]
  | cons token tokens ih =>
    obtain ⟨hf, hnd⟩ := List.nodup_cons.1 hnd
    obtain ⟨⟨node, hnode, hchg⟩, hr⟩ := List.forall_mem_cons.1 hlv
    have hv : visit change ledger token =
        .ok { ledger with nodes := Function.update ledger.nodes token (some (result node)) } := by
      simp only [visit, hnode, okOr, ok_iff]
      exact ⟨node, rfl, result node, hchg, rfl⟩
    have hos : ∀ other ∈ tokens,
        Function.update ledger.nodes token (some (result node)) other = ledger.nodes other :=
      fun other ho => Function.update_of_ne (ne_of_mem_of_not_mem ho hf) _ _
    have hl' : ∀ other ∈ tokens, ∃ node',
        Function.update ledger.nodes token (some (result node)) other = some node' ∧
          change node' = .ok (result node') := by
      intro other ho
      rw [hos other ho]
      exact hr other ho
    rw [List.foldlM_cons, hv]
    show List.foldlM _ _ tokens = _
    rw [ih hnd hl']
    congr 2
    funext other
    -- the head has been changed already, and the tail does not contain it
    by_cases hh : other = token
    · subst hh
      simp [hf, hnode]
    · by_cases ht : other ∈ tokens
      · simp [ht, hos other ht]
      · simp [ht, hh]

section

variable {ledger after : Ledger} {token : Nat} {resourceClass : ResourceClass}
  {amounts : Quantities} {checked : Bool}

theorem Ledger.nodes_of_mem_lineage (hfor : Forest ledger.up) (hl : (ledger.up token).isSome) :
    ∀ ancestor ∈ ledger.lineage token, ∃ node, ledger.nodes ancestor = some node := by
  intro ancestor hanc
  have hs := (hfor.of_mem_lineage hl ancestor hanc).2
  rw [up, Option.isSome_map] at hs
  exact Option.isSome_iff_exists.1 hs

theorem Ledger.up_onLineage {change : NodeState → NodeState}
    (hchg : ∀ node, (change node).parent = node.parent) :
    (ledger.onLineage token change).up = ledger.up := by
  funext ancestor
  by_cases hanc : ancestor ∈ ledger.lineage token
  · simp [up, onLineage, hanc, Function.comp_def, hchg]
  · simp [up, onLineage, hanc]

@[simp] theorem Ledger.up_charge : (ledger.onLineage token
    (charge resourceClass amounts)).up = ledger.up :=
  up_onLineage fun _ => rfl

@[simp] theorem Ledger.up_without : (ledger.onLineage token
    (without resourceClass amounts)).up = ledger.up :=
  up_onLineage fun _ => rfl

theorem Ledger.forM_check_eq_ok (hfor : Forest ledger.up) (hl : (ledger.up token).isSome)
    {done : Unit} : ((ledger.lineage token).forM fun ancestor => do
        let node ← okOr (ledger.nodes ancestor) Failure.missingNode
        node.check resourceClass amounts checked) = .ok done ↔
      ∀ ancestor ∈ ledger.lineage token, ∀ node, ledger.nodes ancestor = some node →
        node.Admits resourceClass amounts checked := by
  simp only [forM_eq_ok, ok_iff, check_eq_ok]
  refine forall₂_congr fun ancestor hanc => ?_
  obtain ⟨node, hn⟩ := nodes_of_mem_lineage hfor hl ancestor hanc
  simp [hn]

/-- **Charging.** It succeeds when the whole lineage admits the charge, and then records it on the
whole lineage. -/
theorem Ledger.add_eq_ok (hfor : Forest ledger.up) (hl : (ledger.up token).isSome) :
    ledger.add token resourceClass amounts checked = .ok after ↔
      (∀ ancestor ∈ ledger.lineage token, ∀ node, ledger.nodes ancestor = some node →
        node.Admits resourceClass amounts checked) ∧
      after = ledger.onLineage token (charge resourceClass amounts) := by
  have hch : (ledger.lineage token).foldlM
      (visit fun node => .ok (node.charge resourceClass amounts)) ledger =
        .ok (ledger.onLineage token (charge resourceClass amounts)) := by
    refine foldlM_visit (hfor.lineage_nodup hl) fun ancestor hanc => ?_
    obtain ⟨node, hn⟩ := nodes_of_mem_lineage hfor hl ancestor hanc
    exact ⟨node, hn, rfl⟩
  rw [add, bind_eq_ok]
  simp only [forM_check_eq_ok hfor hl, hch, Except.ok.injEq]
  constructor
  · rintro ⟨_, hadm, haf⟩
    exact ⟨hadm, haf.symm⟩
  · rintro ⟨hadm, haf⟩
    exact ⟨(), hadm, haf.symm⟩

theorem Ledger.live_of_add (h : ledger.add token resourceClass amounts checked = .ok after) :
    (ledger.up token).isSome := by
  rw [add, bind_eq_ok] at h
  obtain ⟨_, hchk, -⟩ := h
  have hs := forM_eq_ok.1 hchk token (mem_lineage_self ledger.up token)
  simp only [ok_iff] at hs
  obtain ⟨_, hn, -⟩ := hs
  simp [up, hn]

theorem Ledger.add_eq_error (hfor : Forest ledger.up) (hl : (ledger.up token).isSome)
    {failure : Failure} (h : ledger.add token resourceClass amounts checked = .error failure) :
    ∃ error, failure = .error error := by
  obtain hchk | ⟨_, hchk, _⟩ := bind_eq_error h
  · obtain ⟨ancestor, hanc, hfl⟩ := forM_eq_error hchk
    obtain ⟨_, hn⟩ := nodes_of_mem_lineage hfor hl ancestor hanc
    rw [hn] at hfl
    exact check_eq_error hfl
  · -- after a passed check the charge itself succeeds
    have hadm := (forM_check_eq_ok hfor hl).1 hchk
    have hok := (add_eq_ok hfor hl).2 ⟨hadm, rfl⟩
    rw [h] at hok
    cases hok

/-- **Releasing.** It succeeds when the whole lineage holds the charge. -/
theorem Ledger.subtract_of_covers (hfor : Forest ledger.up) (hl : (ledger.up token).isSome)
    (hcov : ∀ ancestor ∈ ledger.lineage token, ∀ node, ledger.nodes ancestor = some node →
      node.Covers resourceClass amounts) :
    ledger.subtract token resourceClass amounts =
      .ok (ledger.onLineage token (without resourceClass amounts)) := by
  refine foldlM_visit (hfor.lineage_nodup hl) fun ancestor hanc => ?_
  obtain ⟨node, hn⟩ := nodes_of_mem_lineage hfor hl ancestor hanc
  exact ⟨node, hn, release_of_covers (hcov ancestor hanc node hn)⟩

end

end CodeFabric.Budget
