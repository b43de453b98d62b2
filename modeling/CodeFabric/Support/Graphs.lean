import CodeFabric.Support.Worklist

/-! # Finite directed graphs

Graphs as lists of nodes and edges, with executable algorithms on them: reachability by a worklist,
strongly connected components, condensation and topological order. -/

namespace CodeFabric

open Worklist List

/-- A directed graph without parallel edges, its nodes in order of insertion. -/
structure Digraph (V : Type) where
  nodes : List V
  edges : List (V × V)

namespace Digraph

variable {V : Type}

/-- Add an edge unless it is there. -/
def updateEdge [DecidableEq V] (graph : Digraph V) (source target : V) : Digraph V :=
  if (source, target) ∈ graph.edges then graph
  else { graph with edges := graph.edges ++ [(source, target)] }

variable (graph : Digraph V)

/-- The graph with all edges turned around. -/
def reversed : Digraph V :=
  { graph with edges := graph.edges.map Prod.swap }

/-- One edge leads from `source` to `target`. -/
def Adjacent (source target : V) : Prop := (source, target) ∈ graph.edges

/-- Graphs with distinct nodes and edges between nodes. -/
structure WellFormed (graph : Digraph V) : Prop where
  nodup : graph.nodes.Nodup
  within : ∀ edge ∈ graph.edges, edge.1 ∈ graph.nodes ∧ edge.2 ∈ graph.nodes

/-- No node reaches itself over an edge. -/
def Acyclic : Prop := ∀ v, ¬Relation.TransGen graph.Adjacent v v

/-- There is a path from one node to another. -/
abbrev Reaches : V → V → Prop := Relation.ReflTransGen graph.Adjacent

/-! ## Components -/

section

variable [LinearOrder V] {graph : Digraph V} {a b : V}

/-- The targets of a node's edges. -/
def successors (graph : Digraph V) (v : V) : List V :=
  (graph.edges.filter (·.1 = v)).map (·.2)

def reach (graph : Digraph V) (v : V) : Finset V :=
  close graph.successors graph.nodes.toFinset {v}

theorem mem_successors : b ∈ graph.successors a ↔ graph.Adjacent a b := by
  simp only [successors, Adjacent, mem_map, mem_filter, decide_eq_true_eq]
  exact ⟨fun ⟨edge, ⟨he, ha⟩, hb⟩ => by rwa [← ha, ← hb], fun h => ⟨(a, b), ⟨h, rfl⟩, rfl⟩⟩

section

variable (hgr : graph.WellFormed)
include hgr

theorem mem_reach (ha : a ∈ graph.nodes) : b ∈ graph.reach a ↔ graph.Reaches a b := by
  have hs : (fun x y => y ∈ graph.successors x) = graph.Adjacent := by
    funext x y
    exact propext mem_successors
  rw [reach, mem_close, hs]
  · simp
  · intro x _ y hy
    exact List.mem_toFinset.2 (hgr.within _ (mem_successors.1 hy)).2
  · simpa using ha

/-- The nodes that reach `v` and that `v` reaches. -/
def componentOf (graph : Digraph V) (v : V) : List V :=
  graph.nodes.filter fun w => w ∈ graph.reach v ∧ v ∈ graph.reach w

def components (graph : Digraph V) : List (List V) := (graph.nodes.map graph.componentOf).dedup

theorem mem_componentOf (ha : a ∈ graph.nodes) :
    b ∈ graph.componentOf a ↔ b ∈ graph.nodes ∧ graph.Reaches a b ∧ graph.Reaches b a := by
  simp only [componentOf, mem_filter, decide_eq_true_eq]
  refine and_congr_right fun hb => ?_
  rw [mem_reach hgr ha, mem_reach hgr hb]

variable {component : List V}

theorem eq_componentOf (hc : component ∈ graph.components) (ha : a ∈ component) :
    a ∈ graph.nodes ∧ component = graph.componentOf a := by
  obtain ⟨v, hv, rfl⟩ := List.mem_map.1 (List.mem_dedup.1 hc)
  obtain ⟨hn, hto, hb⟩ := (mem_componentOf hgr hv).1 ha
  refine ⟨hn, filter_congr fun w hw => ?_⟩
  rw [decide_eq_decide, mem_reach hgr hv, mem_reach hgr hw, mem_reach hgr hn, mem_reach hgr hw]
  exact ⟨fun h => ⟨hb.trans h.1, h.2.trans hto⟩, fun h => ⟨hto.trans h.1, h.2.trans hb⟩⟩

theorem componentOf_mem (ha : a ∈ graph.nodes) :
    graph.componentOf a ∈ graph.components ∧ a ∈ graph.componentOf a :=
  ⟨List.mem_dedup.2 (mem_map_of_mem ha), (mem_componentOf hgr ha).2 ⟨ha, .refl, .refl⟩⟩

/-- **Two nodes share a component when they reach each other.** -/
theorem mem_components
    (hc : component ∈ graph.components) (ha : a ∈ component) (hb : b ∈ graph.nodes) :
    b ∈ component ↔ graph.Reaches a b ∧ graph.Reaches b a := by
  obtain ⟨hn, rfl⟩ := eq_componentOf hgr hc ha
  rw [mem_componentOf hgr hn]
  exact and_iff_right hb

theorem components_nonempty (hc : component ∈ graph.components) : component ≠ [] := by
  obtain ⟨v, hv, rfl⟩ := List.mem_map.1 (List.mem_dedup.1 hc)
  exact ne_nil_of_mem (componentOf_mem hgr hv).2

/-- The components share the nodes among them. -/
theorem components_perm : graph.components.flatten.Perm graph.nodes := by
  refine (perm_ext_iff_of_nodup ?_ hgr.nodup).2 fun v => ?_
  · refine List.nodup_flatten.2 ⟨fun component hc => ?_, ?_⟩
    · obtain ⟨v, _, rfl⟩ := List.mem_map.1 (List.mem_dedup.1 hc)
      exact hgr.nodup.filter _
    · refine (List.Pairwise.and_mem.1 (nodup_dedup _)).imp ?_
      rintro left right ⟨hl, hr, hne⟩ v hvl hvr
      exact hne ((eq_componentOf hgr hl hvl).2.trans (eq_componentOf hgr hr hvr).2.symm)
  · rw [mem_flatten]
    constructor
    · rintro ⟨component, hc, hv⟩
      exact (eq_componentOf hgr hc hv).1
    · exact fun hv => ⟨_, componentOf_mem hgr hv⟩

end

/-! ## Condensation -/

/-- An edge leads from one list of nodes to another. -/
def Joined (graph : Digraph V) (left right : List V) : Prop :=
  ∃ edge ∈ graph.edges, edge.1 ∈ left ∧ edge.2 ∈ right

instance (graph : Digraph V) (left right : List V) : Decidable (graph.Joined left right) :=
  inferInstanceAs (Decidable (∃ edge ∈ graph.edges, _))

/-- The graph of components, without loops. -/
def condensation (graph : Digraph V) : Digraph (List V) where
  nodes := graph.components
  edges := (graph.components ×ˢ graph.components).filter fun pair =>
    pair.1 ≠ pair.2 ∧ graph.Joined pair.1 pair.2

theorem condensation_adjacent {left right : List V} : graph.condensation.Adjacent left right ↔
    left ∈ graph.components ∧ right ∈ graph.components ∧ left ≠ right ∧
      graph.Joined left right := by
  simp [condensation, Adjacent, and_assoc]

theorem condensation_wellFormed : graph.condensation.WellFormed where
  nodup := nodup_dedup _
  within edge he := by
    obtain ⟨hl, hr, _⟩ := condensation_adjacent.1 he
    exact ⟨hl, hr⟩

/-- A path between components is a path between their members. -/
theorem reaches_of_condensation (hgr : graph.WellFormed) {left right : List V}
    (hl : left ∈ graph.components) (h : graph.condensation.Reaches left right) (ha : a ∈ left)
    (hb : b ∈ right) : graph.Reaches a b := by
  have hi : ∀ {component : List V}, component ∈ graph.components → ∀ {x y : V},
      x ∈ component → y ∈ component → graph.Reaches x y := fun hc _ _ hx hy =>
    ((mem_components hgr hc hx (eq_componentOf hgr hc hy).1).1 hy).1
  induction h generalizing b with
  | refl => exact hi hl ha hb
  | tail _ hst ih =>
    obtain ⟨_, hr, _, edge, he, hsrc, ht⟩ := condensation_adjacent.1 hst
    exact ((ih hsrc).tail he).trans (hi hr ht hb)

/-- **The condensation has no cycle.** -/
theorem condensation_acyclic (hgr : graph.WellFormed) : graph.condensation.Acyclic := by
  intro component hcy
  obtain ⟨next, hst, hb⟩ := Relation.TransGen.head'_iff.1 hcy
  obtain ⟨hcm, hnx, hne, edge, he, hsrc, ht⟩ := condensation_adjacent.1 hst
  have hr := reaches_of_condensation hgr hnx hb ht hsrc
  have hmb : edge.2 ∈ component := (mem_components hgr hcm hsrc
    (eq_componentOf hgr hnx ht).1).2 ⟨.single he, hr⟩
  exact hne ((eq_componentOf hgr hcm hmb).2.trans (eq_componentOf hgr hnx ht).2.symm)

end

/-! ## Topological order -/

section

variable [DecidableEq V] {graph : Digraph V}

/-- Take a node without incoming edges from the remaining ones, again and again. -/
def peel (edges : List (V × V)) : Nat → List V → Option (List V)
  | _, [] => some []
  | 0, _ :: _ => none
  | fuel + 1, v :: rest => do
    let first ← (v :: rest).find? fun w => ∀ u ∈ v :: rest, (u, w) ∉ edges
    let order ← peel edges fuel ((v :: rest).erase first)
    return first :: order

/-- The nodes in an order in which edges lead forward, unless there is a cycle. -/
def topologicalOrder (graph : Digraph V) : Option (List V) :=
  peel graph.edges graph.nodes.length graph.nodes

theorem peel_perm {edges : List (V × V)} {fuel : Nat} {remaining order : List V}
    (h : peel edges fuel remaining = some order) : order.Perm remaining := by
  induction fuel generalizing remaining order with
  | zero =>
    cases remaining with
    | nil =>
      cases h
      exact .nil
    | cons v rest => cases h
  | succ fuel ih =>
    cases remaining with
    | nil =>
      cases h
      exact .nil
    | cons v rest =>
      simp only [peel, Option.bind_eq_bind, Option.bind_eq_some_iff, Option.pure_def,
        Option.some.injEq] at h
      obtain ⟨first, hfst, tail, ht, rfl⟩ := h
      have hmem : first ∈ v :: rest := mem_of_find?_eq_some hfst
      exact ((ih ht).cons first).trans (perm_cons_erase hmem).symm

/-- Some node has no incoming edge from the others. -/
theorem exists_source (hacy : graph.Acyclic) {remaining : List V} (hne : remaining ≠ []) :
    ∃ w ∈ remaining, ∀ u ∈ remaining, (u, w) ∉ graph.edges := by
  let before : {v // v ∈ remaining} → {v // v ∈ remaining} → Prop :=
    fun u w => Relation.TransGen graph.Adjacent u w
  have hi : Std.Irrefl before := ⟨fun v => hacy v⟩
  have ht : IsTrans _ before := ⟨fun _ _ _ => Relation.TransGen.trans⟩
  have hf : Finite {v // v ∈ remaining} := inferInstance
  obtain ⟨v, hv⟩ := exists_mem_of_ne_nil remaining hne
  obtain ⟨⟨w, hw⟩, _, hmin⟩ := (Finite.wellFounded_of_trans_of_irrefl before).has_min Set.univ
    ⟨⟨v, hv⟩, trivial⟩
  exact ⟨w, hw, fun u hu he => hmin ⟨u, hu⟩ trivial (.single he)⟩

theorem peel_isSome (hacy : graph.Acyclic) {fuel : Nat} {remaining : List V}
    (hfl : remaining.length ≤ fuel) : (peel graph.edges fuel remaining).isSome := by
  induction fuel generalizing remaining with
  | zero =>
    obtain rfl := eq_nil_of_length_eq_zero (Nat.le_zero.1 hfl)
    rfl
  | succ fuel ih =>
    cases remaining with
    | nil => rfl
    | cons v rest =>
      obtain ⟨w, hw, hsrc⟩ := exists_source hacy (cons_ne_nil v rest)
      have hfd : ((v :: rest).find? fun w => ∀ u ∈ v :: rest, (u, w) ∉ graph.edges).isSome :=
        find?_isSome.2 ⟨w, hw, by simpa using hsrc⟩
      obtain ⟨first, hfst⟩ := Option.isSome_iff_exists.1 hfd
      have hlen : ((v :: rest).erase first).length ≤ fuel := by
        rw [length_erase_of_mem (mem_of_find?_eq_some hfst)]
        exact Nat.sub_le_of_le_add hfl
      obtain ⟨order, ho⟩ := Option.isSome_iff_exists.1 (ih hlen)
      have hp : peel graph.edges (fuel + 1) (v :: rest) = some (first :: order) := by
        rw [peel, hfst, Option.bind_eq_bind, Option.bind_some, ho]
        rfl
      rw [hp]
      rfl

theorem topologicalOrder_perm {order : List V} (h : graph.topologicalOrder = some order) :
    order.Perm graph.nodes := peel_perm h

/-- **A graph without cycles has a topological order.** -/
theorem topologicalOrder_isSome (hacy : graph.Acyclic) : graph.topologicalOrder.isSome :=
  peel_isSome hacy le_rfl

end

end Digraph

end CodeFabric
