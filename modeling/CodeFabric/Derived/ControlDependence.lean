import CodeFabric.Derived.Summaries
import CodeFabric.Support.Dominance

/-! # Control dependence

The control dependences an analysis emits against the classical ones, with post-dominance by paths.

* `mem_dependents_iff`: what one edge emits. An edge to a node that cannot reach an exit emits that
  node, and a loop emits nothing.
* `control_facts_iff`: the facts of an analysis are what the edges of its owners emit. A fact does
  not name its owner, so owners that use the same node identities emit into each other.
* `exactControl_iff`: when the facts about the nodes of an owner are the classical ones. -/

namespace CodeFabric.Derived

open Dominance Fallible CfgVertex List

/-- The control-flow graph of an owner. -/
structure Cfg where
  nodes : List CommonCfgNode
  edges : List CommonCfgEdge
  deriving DecidableEq

open Cfg

namespace Cfg

variable (cfg : Cfg)

/-! ## Post-dominance by paths -/

def Flows (source target : String) : Prop :=
  ∃ edge ∈ cfg.edges, edge.sourceNodeId = source ∧ edge.targetNodeId = target

/-- A path leads from a node to an exit over allowed nodes only. -/
inductive Leaves (allowed : String → Prop) : String → Prop
  | exit {node : CommonCfgNode} : node ∈ cfg.nodes → node.isExit → allowed node.nodeId →
      Leaves allowed node.nodeId
  | flow {a b : String} : allowed a → cfg.Flows a b → Leaves allowed b → Leaves allowed a

def ReachesExit (v : String) : Prop := cfg.Leaves (fun _ => True) v

/-- A node reaches an exit, and all its paths to an exit pass through `d`. -/
def PostDominates (d v : String) : Prop := cfg.ReachesExit v ∧ ¬cfg.Leaves (· ≠ d) v

/-- The classical dependence of `n` on the branch of `c`. -/
def ControlDependent (n c : String) : Prop :=
  ∃ t, cfg.Flows c t ∧ cfg.PostDominates n t ∧ ¬(n ≠ c ∧ cfg.PostDominates n c)

/-- The dependences an edge from `c` emits: of a target that cannot reach an exit the target itself,
of another that is not `c` what post-dominates it and not `c`. -/
def Emitted (n c : String) : Prop :=
  ∃ t, cfg.Flows c t ∧ ((¬cfg.ReachesExit t ∧ n = t) ∨
    (cfg.ReachesExit t ∧ t ≠ c ∧ cfg.PostDominates n t ∧ ¬(n ≠ c ∧ cfg.PostDominates n c)))

/-- The dependences on the nodes of an owner are the classical ones, none is about a node that
cannot reach an exit, and these nodes are reported. -/
structure ExactControl (owner : String) (complete : Bool) (s : AnalysisState) : Prop where
  facts : ∀ n, ∀ node ∈ cfg.nodes, (cfgFact .controlDependence n node.nodeId complete ∈ s.facts ↔
      cfg.ControlDependent n node.nodeId)
  leaves : ∀ n, ∀ node ∈ cfg.nodes,
    cfgFact .controlDependence n node.nodeId complete ∈ s.facts → cfg.ReachesExit n
  unknown : ∀ node ∈ cfg.nodes, ¬cfg.ReachesExit node.nodeId →
    ⟨.postDominator, some node.nodeId, "CFG_NODE_CANNOT_REACH_EXIT", some owner, 0⟩ ∈ s.unknowns

/-! ## The graph post-dominators are computed on -/

/-- The edges turned around, and the edges from the added exit. -/
inductive Back : CfgVertex → CfgVertex → Prop
  | flow {a b : String} : cfg.Flows a b → Back (.node b) (.node a)
  | exit {node : CommonCfgNode} : node ∈ cfg.nodes → node.isExit →
      Back .virtualExit (.node node.nodeId)

/-- The graph the source gives to petgraph. -/
def postGraph (graph : Digraph CfgVertex) : Digraph CfgVertex :=
  (withVirtualExit graph (cfg.nodes.filter (·.isExit))).reversed

variable {cfg}

/-- Backwards from the added exit, the same nodes are met as on the paths to an exit. -/
theorem reached_iff {allowed : CfgVertex → Prop} (hx : allowed .virtualExit) {v : String} :
    Reached cfg.Back .virtualExit allowed (.node v) ↔
      cfg.Leaves (fun n => allowed (.node n)) v := by
  constructor
  · intro h
    generalize hw : node v = w at h
    induction h generalizing v with
    | root => cases hw
    | step _ hab hb ih =>
      subst hw
      cases hab with
      | flow hf => exact .flow hb hf (ih rfl)
      | exit hn he => exact .exit hn he hb
  · intro h
    induction h with
    | exit hn he ha => exact .step (.root hx) (.exit hn he) ha
    | flow ha hf _ ih => exact .step ih (.flow hf) ha

theorem reachesExit_iff {v : String} :
    Reached cfg.Back .virtualExit (fun _ => True) (.node v) ↔ cfg.ReachesExit v :=
  reached_iff trivial

theorem dominates_iff {d v : String} :
    Dominates cfg.Back .virtualExit (.node d) (.node v) ↔ cfg.PostDominates d v := by
  rw [Dominates, PostDominates, reachesExit_iff, reached_iff (by simp)]
  simp only [ne_eq, node.injEq]

theorem mem_updateEdge {graph : Digraph CfgVertex} {a b : CfgVertex}
    {pair : CfgVertex × CfgVertex} :
    pair ∈ (graph.updateEdge a b).edges ↔ pair ∈ graph.edges ∨ pair = (a, b) := by
  unfold Digraph.updateEdge
  split <;> simp_all

theorem of_addEdges {ids : List String} {edges : List CommonCfgEdge}
    {start graph : Digraph CfgVertex}
    (h : edges.foldlM (fun graph edge => do
      ensure (edge.sourceNodeId ∈ ids) (.invalidInput "missing CFG source")
      ensure (edge.targetNodeId ∈ ids) (.invalidInput "missing CFG target")
      return graph.updateEdge (.node edge.sourceNodeId) (.node edge.targetNodeId)) start =
        (.ok graph : Except CommonDerivedAnalysisError _)) :
    (∀ pair, pair ∈ graph.edges ↔ pair ∈ start.edges ∨
      ∃ edge ∈ edges, pair = (.node edge.sourceNodeId, .node edge.targetNodeId)) ∧
    ∀ edge ∈ edges, edge.sourceNodeId ∈ ids := by
  induction edges generalizing start with
  | nil =>
    cases h
    simp
  | cons edge edges ih =>
    simp only [foldlM_cons, ok_iff] at h
    obtain ⟨_, ⟨_, hs, _, _, rfl⟩, h⟩ := h
    obtain ⟨he, hin⟩ := ih h
    refine ⟨fun pair => ?_, List.forall_mem_cons.2 ⟨hs, hin⟩⟩
    simp only [he, mem_updateEdge, mem_cons, exists_eq_or_imp, or_assoc]

theorem of_buildCfgGraph (cfg : Cfg) {graph : Digraph CfgVertex}
    (h : buildCfgGraph cfg.nodes cfg.edges = .ok graph) :
    (cfg.postGraph graph).Adjacent = cfg.Back ∧
      ∀ c t, cfg.Flows c t → ∃ node ∈ cfg.nodes, node.nodeId = c := by
  obtain ⟨hed, hin⟩ := of_addEdges h
  constructor
  · funext a b
    simp only [postGraph, withVirtualExit, Digraph.reversed, Digraph.Adjacent, map_append,
      mem_append, mem_map, hed, mem_filter, not_mem_nil, false_or, eq_iff_iff]
    constructor
    · rintro (⟨_, ⟨edge, he, rfl⟩, heq⟩ | ⟨_, ⟨node, ⟨hn, hx⟩, rfl⟩, heq⟩) <;> cases heq
      · exact .flow ⟨edge, he, rfl, rfl⟩
      · exact .exit hn hx
    · rintro (⟨⟨edge, he, rfl, rfl⟩⟩ | ⟨hn, hx⟩)
      · exact .inl ⟨_, ⟨edge, he, rfl⟩, rfl⟩
      · exact .inr ⟨_, ⟨_, ⟨hn, hx⟩, rfl⟩, rfl⟩
  · rintro c t ⟨edge, he, rfl, -⟩
    exact List.mem_map.1 (hin edge he)

end Cfg

/-! ## One edge -/

/-- The answers of petgraph's `simple_fast` are the dominator tree. -/
structure Dominators.Exact (dominators : Dominators) (step : CfgVertex → CfgVertex → Prop)
    (root : CfgVertex) : Prop where
  tree : IsTree step root dominators.strictDominators
  immediate : ∀ v, dominators.immediateDominator v = (dominators.strictDominators v).bind List.head?

/-- On the graph of an owner, petgraph answers with the post-dominator tree. -/
def Cfg.Answered (cfg : Cfg) (lib : Libraries) : Prop :=
  ∀ graph, buildCfgGraph cfg.nodes cfg.edges = .ok graph →
    (lib.simpleFast (cfg.postGraph graph) .virtualExit).Exact (cfg.postGraph graph).Adjacent
      .virtualExit

/-- The walk up the tree emits what comes before the stop. -/
theorem controlRun_eq {post : Dominators} {step : CfgVertex → CfgVertex → Prop}
    {root stop v : CfgVertex} (hp : post.Exact step root) {front rest l : List CfgVertex}
    {fuel : Nat} {seen : List String} (hv : post.strictDominators v = some l)
    (hl : v :: l = front ++ stop :: rest) (hx : virtualExit ∉ front)
    (hs : ∀ n ∈ seen, node n ∉ front) (hf : front.length ≤ fuel) :
    (controlRun post (some stop) fuel seen (some v)).map node = front := by
  have hnd := hp.tree.nodup hv
  rw [hl] at hnd
  induction front generalizing v l fuel seen with
  | nil =>
    obtain ⟨rfl, -⟩ := List.cons.inj hl
    cases fuel <;> cases v <;> simp [controlRun]
  | cons x front ih =>
    obtain ⟨rfl, htl⟩ := List.cons.inj hl
    obtain ⟨hnot, htail⟩ := List.nodup_cons.1 hnd
    cases v with
    | virtualExit => exact absurd mem_cons_self hx
    | node n =>
      cases fuel with
      | zero => cases hf
      | succ fuel =>
        have hgo : ¬(some (node n) = some stop ∨ n ∈ seen) := by
          rintro (h | h)
          · exact hnot (by simp [Option.some.inj h])
          · exact hs n h mem_cons_self
        rw [controlRun, if_neg hgo, hp.immediate, hv, Option.bind_some, map_cons]
        -- the rest of the chain is not empty: it still holds the stop
        cases l with
        | nil => exact absurd htl (by simp)
        | cons w l =>
          rw [head?_cons, ih (hp.tree.chain _ _ _ hv) htl (fun h => hx (.tail _ h)) ?_
            (Nat.le_of_succ_le_succ hf) htail]
          intro m hm hmem
          rcases List.mem_cons.1 hm with rfl | hm
          · exact hnot (mem_append_left _ hmem)
          · exact hs m hm (.tail _ hmem)

section

variable {cfg : Cfg} {post : Dominators} (hp : post.Exact cfg.Back .virtualExit) {c t n : String}

include hp

theorem Dominators.Exact.strict_eq_none (h : ¬cfg.ReachesExit t) :
    post.strictDominators (.node t) = none := by
  rw [← Option.not_isSome_iff_eq_none, hp.tree.reached, reachesExit_iff]
  exact h

/-- An edge to a node that cannot reach an exit emits that node. -/
theorem dependents_of_stuck (h : ¬cfg.ReachesExit t) (count : Nat) :
    dependents post count c t = [t] := by
  have hnot : ∀ d, ¬Dominates cfg.Back .virtualExit (.node t) d :=
    fun d hd => h (reachesExit_iff.1 hd.reached)
  have hany : (post.dominators (.node c)).any (node t ∈ ·) = false := by
    rw [Dominators.dominators]
    cases hc : post.strictDominators (.node c) with
    | none => rfl
    | some l => exact decide_eq_false fun hm => hnot _ ((hp.tree.mem_cons hc).1 hm)
  have hgo : ¬(some (node t) = post.immediateDominator (.node c) ∨ t ∈ []) := by
    rintro (hs | hs)
    · rw [hp.immediate, eq_comm, Option.bind_eq_some_iff] at hs
      obtain ⟨l, hl, hs⟩ := hs
      exact hnot _ ((hp.tree.mem _ _ hl _).1 (mem_of_mem_head? hs)).2
    · cases hs
  rw [dependents, hany, if_neg (by decide), controlRun, if_neg hgo, hp.immediate (.node t),
    hp.strict_eq_none h]
  cases count <;> rfl

variable (hin : ∀ c t, cfg.Flows c t → ∃ node ∈ cfg.nodes, node.nodeId = c)

include hin

/-- The chain of a vertex is no longer than the nodes and the added exit. -/
theorem length_chain {v : CfgVertex} {l : List CfgVertex} (hv : post.strictDominators v = some l) :
    (v :: l).length ≤ cfg.nodes.length + 1 := by
  have hsub : v :: l ⊆ virtualExit :: cfg.nodes.map fun node => .node node.nodeId := by
    intro w hw
    cases ((hp.tree.mem_cons hv).1 hw).reached with
    | root => exact mem_cons_self
    | step _ hab =>
      refine mem_cons_of_mem _ ?_
      cases hab with
      | flow hf =>
        obtain ⟨node, hn, hid⟩ := hin _ _ hf
        exact List.mem_map.2 ⟨node, hn, congrArg _ hid⟩
      | exit hn => exact mem_map_of_mem hn
  simpa using ((hp.tree.nodup hv).subperm hsub).length_le

/-- What an edge emits when its target reaches an exit. -/
theorem mem_dependents (hf : cfg.Flows c t) (h : cfg.ReachesExit t) :
    n ∈ dependents post cfg.nodes.length c t ↔
      t ≠ c ∧ cfg.PostDominates n t ∧ ¬(n ≠ c ∧ cfg.PostDominates n c) := by
  have hrc := reachesExit_iff.2 h
  have hbc : cfg.Back (.node t) (.node c) := .flow hf
  obtain ⟨_, hbl⟩ := hp.tree.exists_some hrc
  obtain ⟨above, hab⟩ := hp.tree.exists_some (.step hrc hbc trivial)
  have hany : (post.dominators (.node c)).any (node t ∈ ·) =
      decide (node t ∈ .node c :: above) := by
    rw [Dominators.dominators, hab]
    rfl
  have hrt : virtualExit ∈ above := (hp.tree.mem _ _ hab _).2
    ⟨nofun, dominates_root (hp.tree.reached_of_some hab)⟩
  have hst : n ≠ c ∧ cfg.PostDominates n c ↔ node n ∈ above := by
    rw [hp.tree.mem _ _ hab, dominates_iff, ne_eq, ne_eq, node.injEq]
  rw [dependents, hany, hst, ← dominates_iff, ← hp.tree.mem_cons hbl]
  by_cases hmem : node t ∈ .node c :: above
  · -- the successor post-dominates the controller, so all that post-dominates it does
    rw [decide_eq_true hmem, if_pos rfl]
    refine iff_of_false not_mem_nil fun ⟨hne, hn, hnot⟩ => hnot ?_
    obtain ⟨front, rest, heq, hrs⟩ := hp.tree.split hab hmem
    cases hbl.symm.trans hrs
    cases front with
    | nil => exact absurd (node.inj (List.cons.inj heq).1).symm hne
    | cons _ front =>
      rw [(List.cons.inj heq).2]
      exact mem_append_right _ hn
  · rw [decide_eq_false hmem, if_neg (by decide)]
    have hne : t ≠ c := fun heq => hmem (heq ▸ mem_cons_self)
    cases above with
    | nil => cases hrt
    | cons stop above =>
      -- the immediate post-dominator of the controller post-dominates the successor
      obtain ⟨hs, hdom⟩ := (hp.tree.mem _ _ hab stop).1 mem_cons_self
      obtain ⟨front, rest, heq, hrs⟩ := hp.tree.split hbl
        ((hp.tree.mem_cons hbl).2 (dominates_of_step hdom hrc hbc hs))
      cases (hp.tree.chain _ _ _ hab).symm.trans hrs
      have hnd := hp.tree.nodup hbl
      have hlen := length_chain hp hin hbl
      rw [heq] at hnd hlen
      have hdis := disjoint_of_nodup_append hnd
      have hrun := controlRun_eq hp hbl heq (fun hx => hdis hx hrt)
        (fun _ h => absurd h not_mem_nil)
        ((sublist_append_left _ _).length_le.trans hlen)
      rw [hp.immediate, hab, Option.bind_some, head?_cons, heq, mem_append,
        ← mem_map_of_injective fun _ _ => node.inj, hrun]
      exact ⟨fun hf => ⟨hne, .inl hf, fun ha => hdis hf ha⟩, fun hf => hf.2.1.resolve_right hf.2.2⟩

/-- **What the edges of a node emit.** -/
theorem mem_dependents_iff :
    (∃ t, cfg.Flows c t ∧ n ∈ dependents post cfg.nodes.length c t) ↔ cfg.Emitted n c := by
  refine exists_congr fun t => and_congr_right fun hf => ?_
  by_cases h : cfg.ReachesExit t
  · rw [mem_dependents hp hin hf h]
    simp [h]
  · rw [dependents_of_stuck hp h]
    simp [h]

end

/-! ## The analysis -/

/-- The control-flow graph of an owner. -/
def ownerCfg (lib : Libraries) (input : CommonDerivedAnalysisInput) (owner : String) : Cfg :=
  ⟨ownerNodes input.cfgNodes owner, ownerEdges (stagedEdges lib input) owner⟩

/-- An owner with one entry and an exit. -/
def RootedOwner (lib : Libraries) (input : CommonDerivedAnalysisInput) (owner : String) : Prop :=
  Rooted (ownerCfg lib input owner).nodes

/-- Another owner emits the dependence of `n` on `c`, for nodes of its own with these identities. -/
def Elsewhere (lib : Libraries) (input : CommonDerivedAnalysisInput) (owner n c : String) : Prop :=
  ∃ other, other ≠ owner ∧ RootedOwner lib input other ∧ (ownerCfg lib input other).Emitted n c

section

variable {lib : Libraries} {bounds : CommonAnalysisBounds} {complete : Bool} {owner : String}
  {post : Dominators} {s s' : AnalysisState} {cfg : Cfg} {n c : String}
  {input : CommonDerivedAnalysisInput}

theorem control_mem_graphRows {graph : Digraph CfgVertex} :
    cfgFact .controlDependence n c complete ∈ graphRows lib complete cfg.nodes cfg.edges graph ↔
      ∃ t, cfg.Flows c t ∧ n ∈ dependents (lib.simpleFast (cfg.postGraph graph) .virtualExit)
        cfg.nodes.length c t := by
  simp only [graphRows, mem_append, mem_flatMap]
  constructor
  · rintro ((⟨_, _, h⟩ | ⟨_, _, h⟩) | ⟨edge, he, h⟩)
    · exact absurd (family_of_mem_dominanceRows h) (by simp [cfgFact])
    · exact absurd (family_of_mem_dominanceRows h) (by simp [cfgFact])
    · simp only [controlRows, mem_map, cfgFact, FactRow.mk.injEq, Option.some.injEq, true_and,
        and_true] at h
      obtain ⟨_, hm, rfl, rfl⟩ := h
      exact ⟨_, ⟨edge, he, rfl, rfl⟩, hm⟩
  · rintro ⟨_, ⟨edge, he, rfl, rfl⟩, hm⟩
    exact .inr ⟨edge, he, List.mem_map.2 ⟨n, hm, rfl⟩⟩

/-- A node that cannot reach an exit is reported, and stays so for the loops that follow. -/
theorem unknowns_dominanceLoop {family : Family} {gap : String} (nodes : List CommonCfgNode)
    (s : AnalysisState) : s.unknowns ⊆
        (forEach nodes (deriveDominance family gap owner complete post bounds) s).unknowns ∧
      ∀ node ∈ nodes, post.strictDominators (.node node.nodeId) = none →
        ⟨family, some node.nodeId, gap, some owner, 0⟩ ∈
          (forEach nodes (deriveDominance family gap owner complete post bounds) s).unknowns := by
  induction nodes generalizing s with
  | nil => exact ⟨Finset.Subset.refl _, fun _ h => absurd h not_mem_nil⟩
  | cons first nodes ih =>
    rw [forEach_cons]
    obtain ⟨hsub, hmem⟩ := ih (deriveDominance family gap owner complete post bounds first s)
    have hst : s.unknowns ⊆
        (deriveDominance family gap owner complete post bounds first s).unknowns := by
      unfold deriveDominance
      split
      · exact Finset.subset_insert _ _
      · simp [AnalysisState.adjust]
    refine ⟨hst.trans hsub, fun node hn hnn => ?_⟩
    rcases List.mem_cons.1 hn with rfl | hn
    · refine hsub ?_
      rw [deriveDominance, hnn]
      exact Finset.mem_insert_self _ _
    · exact hmem node hn hnn

theorem unknowns_controlLoop {count : Nat} (edges : List CommonCfgEdge) (s : AnalysisState) :
    (forEach edges (deriveControl complete post count bounds) s).unknowns = s.unknowns :=
  forEach_induct (P := fun t : AnalysisState => t.unknowns = s.unknowns) rfl fun edge _ t ht => by
    simpa [deriveControl, AnalysisState.adjust] using ht

/-- What deriving an owner with one entry and an exit builds and reports. -/
theorem deriveOwner_reports {nodes : List CommonCfgNode} {edges : List CommonCfgEdge}
    (hcfg : cfg = ⟨ownerNodes nodes owner, ownerEdges edges owner⟩) (hr : Rooted cfg.nodes)
    (h : deriveOwner lib complete nodes edges bounds s owner = .ok s') :
    ∃ graph, buildCfgGraph cfg.nodes cfg.edges = .ok graph ∧ ∀ node ∈ cfg.nodes,
      (lib.simpleFast (cfg.postGraph graph) .virtualExit).strictDominators (.node node.nodeId) =
          none →
        ⟨.postDominator, some node.nodeId, "CFG_NODE_CANNOT_REACH_EXIT", some owner, 0⟩ ∈
          s'.unknowns := by
  subst hcfg
  unfold deriveOwner at h
  simp only [hr, not_true_eq_false, if_false, ok_iff] at h
  obtain ⟨graph, hg, rfl⟩ := h
  refine ⟨graph, hg, fun node hn hnn => ?_⟩
  rw [unknowns_controlLoop]
  exact (unknowns_dominanceLoop _ _).2 node hn hnn

theorem unknowns_deriveOwner {nodes : List CommonCfgNode} {edges : List CommonCfgEdge}
    (h : deriveOwner lib complete nodes edges bounds s owner = .ok s') :
    s.unknowns ⊆ s'.unknowns := by
  obtain ⟨_, rfl⟩ | ⟨_, _, _, rfl⟩ := deriveOwner_eq_ok h
  · exact fun _ hrow => mem_unrootedState.2 (.inl hrow)
  · rw [unknowns_controlLoop]
    exact (unknowns_dominanceLoop _ _).1.trans (unknowns_dominanceLoop _ _).1

/-- Every item of a loop is visited, and what its step reports is kept to the end. -/
theorem exists_step_of_foldlM {α ε : Type} {items : List α} {a : α}
    {body : AnalysisState → α → Except ε AnalysisState}
    (hbd : ∀ a s s', body s a = .ok s' → s.unknowns ⊆ s'.unknowns) (ha : a ∈ items)
    (h : items.foldlM body s = .ok s') :
    ∃ s₁ s₂, body s₁ a = .ok s₂ ∧ s₂.unknowns ⊆ s'.unknowns := by
  induction items generalizing s with
  | nil => cases ha
  | cons first items ih =>
    rw [foldlM_cons, bind_eq_ok] at h
    obtain ⟨t, hst, h⟩ := h
    rcases List.mem_cons.1 ha with rfl | ha
    · exact ⟨s, t, hst, foldlM_induct (P := fun t' : AnalysisState => t.unknowns ⊆ t'.unknowns)
        (Finset.Subset.refl _) (fun a _ _ _ hst hs => hs.trans (hbd a _ _ hst)) h⟩
    · exact ih ha h

variable (h : analyzeCommonDerived lib input bounds = .ok s)
  (hwi : ¬CfgExceeds input (stagedEdges lib input) bounds)

include h hwi

/-- The stages of an analysis within the bounds on its control-flow graph. -/
theorem analysis_cfg : ∃ cfg : AnalysisState,
    (cfgOwners input.cfgNodes).foldlM (deriveOwner lib (input.covers .cfg) input.cfgNodes
        (stagedEdges lib input) bounds) (requestCfg input (stagedEdges lib input) .initial) =
          .ok cfg ∧
      Emits bounds (cfgRows lib input (stagedEdges lib input)) .initial cfg ∧
      (∀ row : FactRow, row.family = .controlDependence → (row ∈ s.facts ↔ row ∈ cfg.facts)) ∧
      ∀ row ∈ cfg.unknowns, row.family = .postDominator → row ∈ s.unknowns := by
  obtain ⟨_, triples, cfg, calls, callers, covered, hspl, hcfg, hcalls, hcov, hs⟩ :=
    analyzeCommonDerived_eq_ok h
  have hst : stagedEdges lib input = triples.cfg := by rw [stagedEdges, hspl]
  have hrpt : Reports (deriveInvalidation input callers calls) s := by
    rw [hs]
    exact (reports_applyUpstreamCoverage hcov).trans (reports_exhaustedLoop covered)
  rw [hst] at hwi ⊢
  refine ⟨cfg, ?_, ?_, fun row hrow => ?_, fun row hrow hfam => hrpt.unknowns ?_⟩
  · obtain ⟨hexc, _⟩ | ⟨_, hown⟩ := deriveCfgFamilies_eq_ok hcfg
    · exact absurd hexc hwi
    · exact hown
  · obtain ⟨hexc, _⟩ | ⟨_, hem⟩ := emits_deriveCfgFamilies hcfg
    · exact absurd hexc hwi
    · exact hem
  · rw [hrpt.facts]
    refine ((emitsOnly_deriveCallFamilies hcalls).mem_facts_iff ?_).trans
      ((emitsOnly_deriveDataDependence _ cfg).mem_facts_iff ?_)
    · rw [hrow]
      decide
    · rw [hrow]
      decide
  · have hfr : Frame .postDominator cfg calls :=
      (Frame.deriveDataDependence (by decide) cfg).trans (.deriveCallFamilies (by decide) hcalls)
    exact (hfr.unknowns row hfam).2 hrow

/-- An owner with one entry and an exit is derived. -/
theorem analysis_owner (hr : RootedOwner lib input owner) :
    ∃ graph, buildCfgGraph (ownerCfg lib input owner).nodes (ownerCfg lib input owner).edges =
        .ok graph ∧ ∀ node ∈ (ownerCfg lib input owner).nodes,
      (lib.simpleFast ((ownerCfg lib input owner).postGraph graph) .virtualExit).strictDominators
          (.node node.nodeId) = none →
        ⟨.postDominator, some node.nodeId, "CFG_NODE_CANNOT_REACH_EXIT", some owner, 0⟩ ∈
          s.unknowns := by
  obtain ⟨cfg, hown, _, _, hunk⟩ := analysis_cfg h hwi
  obtain ⟨_, _, hst, hsub⟩ := exists_step_of_foldlM (fun _ _ _ => unknowns_deriveOwner)
    (mem_cfgOwners_of_rooted hr) hown
  obtain ⟨graph, hg, hrep⟩ := deriveOwner_reports rfl hr hst
  exact ⟨graph, hg, fun node hn hnn => hunk _ (hsub (hrep node hn hnn)) rfl⟩

variable (hans : ∀ other, RootedOwner lib input other → (ownerCfg lib input other).Answered lib)

include hans

/-- The dominator tree of an owner, and the reports that go with it. -/
theorem analysis_tree (hr : RootedOwner lib input owner) :
    ∃ graph, buildCfgGraph (ownerCfg lib input owner).nodes (ownerCfg lib input owner).edges =
        .ok graph ∧
      (lib.simpleFast ((ownerCfg lib input owner).postGraph graph) .virtualExit).Exact
        (ownerCfg lib input owner).Back .virtualExit ∧
      (∀ c t, (ownerCfg lib input owner).Flows c t →
        ∃ node ∈ (ownerCfg lib input owner).nodes, node.nodeId = c) ∧
      ∀ node ∈ (ownerCfg lib input owner).nodes,
        ¬(ownerCfg lib input owner).ReachesExit node.nodeId →
        ⟨.postDominator, some node.nodeId, "CFG_NODE_CANNOT_REACH_EXIT", some owner, 0⟩ ∈
          s.unknowns := by
  obtain ⟨graph, hg, hrep⟩ := analysis_owner h hwi hr
  obtain ⟨hb, hin⟩ := of_buildCfgGraph (ownerCfg lib input owner) hg
  have hp := hans owner hr graph hg
  rw [hb] at hp
  exact ⟨graph, hg, hp, hin, fun node hn hx => hrep node hn (hp.strict_eq_none hx)⟩

variable (hout : ¬LeavesOut bounds (cfgRows lib input (stagedEdges lib input)) .controlDependence)

include hout

/-- **The control dependences of an analysis** are what the edges of its owners emit. -/
theorem control_facts_iff :
    cfgFact .controlDependence n c (input.covers .cfg) ∈ s.facts ↔
      ∃ owner, RootedOwner lib input owner ∧ (ownerCfg lib input owner).Emitted n c := by
  obtain ⟨cfg, _, hem, hfacts, _⟩ := analysis_cfg h hwi
  have hown : ∀ owner, RootedOwner lib input owner →
      (cfgFact .controlDependence n c (input.covers .cfg) ∈
          ownerRows lib (input.covers .cfg) input.cfgNodes (stagedEdges lib input) owner ↔
        (ownerCfg lib input owner).Emitted n c) := by
    intro owner hr
    obtain ⟨graph, hg, hp, hin, _⟩ := analysis_tree h hwi hans hr
    rw [ownerRows_of_build hr hg]
    have hrow : cfgFact .controlDependence n c (input.covers .cfg) ∈
        graphRows lib (input.covers .cfg) (ownerCfg lib input owner).nodes
          (ownerCfg lib input owner).edges graph ↔ _ := control_mem_graphRows
    exact hrow.trans (mem_dependents_iff hp hin)
  rw [hfacts _ rfl, hem.mem_facts_iff hout, cfgRows, mem_flatMap]
  constructor
  · rintro ⟨owner, _, hrow⟩
    have hr : RootedOwner lib input owner := rooted_of_mem_ownerRows hrow
    exact ⟨owner, hr, (hown owner hr).1 hrow⟩
  · rintro ⟨owner, hr, hrow⟩
    exact ⟨owner, mem_cfgOwners_of_rooted hr, (hown owner hr).2 hrow⟩

/-- A dependence is emitted by the owner itself or by another one. -/
theorem control_fact_of_owner (hr : RootedOwner lib input owner) :
    cfgFact .controlDependence n c (input.covers .cfg) ∈ s.facts ↔
      (ownerCfg lib input owner).Emitted n c ∨ Elsewhere lib input owner n c := by
  rw [control_facts_iff h hwi hans hout]
  constructor
  · rintro ⟨other, hro, hem⟩
    by_cases ho : other = owner
    · exact .inl (ho ▸ hem)
    · exact .inr ⟨other, ho, hro, hem⟩
  · rintro (hem | ⟨other, _, hro, hem⟩)
    · exact ⟨owner, hr, hem⟩
    · exact ⟨other, hro, hem⟩

/-- **When the control dependences of an owner are the classical ones**, if petgraph answers with
the dominator trees and no row is left out: no edge leads to a node that cannot reach an exit, a
node with a loop post-dominates another of its successors unless another owner emits its
dependence on itself, and what other owners emit about nodes of the same identities is classical
here as well. -/
theorem exactControl_iff (hr : RootedOwner lib input owner) :
    (ownerCfg lib input owner).ExactControl owner (input.covers .cfg) s ↔
      (∀ c t, (ownerCfg lib input owner).Flows c t → (ownerCfg lib input owner).ReachesExit t) ∧
      (∀ c, (ownerCfg lib input owner).Flows c c →
        (∃ t, (ownerCfg lib input owner).Flows c t ∧ t ≠ c ∧
          (ownerCfg lib input owner).PostDominates c t) ∨ Elsewhere lib input owner c c) ∧
      ∀ n, ∀ node ∈ (ownerCfg lib input owner).nodes, Elsewhere lib input owner n node.nodeId →
        (ownerCfg lib input owner).ControlDependent n node.nodeId := by
  obtain ⟨_, _, _, hin, hunk⟩ := analysis_tree h hwi hans hr
  have hfact := fun n c => control_fact_of_owner (n := n) (c := c) h hwi hans hout hr
  generalize ownerCfg lib input owner = cfg at *
  constructor
  · intro hex
    have hrc : ∀ c t, cfg.Flows c t → cfg.ReachesExit t := by
      intro c t hf
      -- a target without a way out is emitted as its own dependent
      by_contra hx
      obtain ⟨node, hn, rfl⟩ := hin c t hf
      exact hx (hex.leaves t node hn ((hfact _ _).2 (.inl ⟨t, hf, .inl ⟨hx, rfl⟩⟩)))
    refine ⟨hrc, fun c hf => ?_, fun n node hn hel => ?_⟩
    · obtain ⟨node, hn, rfl⟩ := hin c c hf
      have hsl := dominates_iff.1 (dominates_self (reachesExit_iff.2 (hrc _ _ hf)))
      have hdep : cfg.ControlDependent node.nodeId node.nodeId := ⟨_, hf, hsl, fun h => h.1 rfl⟩
      refine ((hfact _ _).1 ((hex.facts _ node hn).2 hdep)).imp_left ?_
      rintro ⟨t, ht, ⟨hx, _⟩ | ⟨_, hne, hpd, _⟩⟩
      · exact absurd (hrc _ _ ht) hx
      · exact ⟨t, ht, hne, hpd⟩
    · exact (hex.facts n node hn).1 ((hfact _ _).2 (.inr hel))
  · rintro ⟨hrc, hlp, hel⟩
    have hiff : ∀ n, ∀ node ∈ cfg.nodes,
        (cfgFact .controlDependence n node.nodeId (input.covers .cfg) ∈ s.facts ↔
          cfg.ControlDependent n node.nodeId) := by
      intro n node hn
      rw [hfact]
      constructor
      · rintro (⟨t, hf, ⟨hx, _⟩ | ⟨_, _, hdep⟩⟩ | hother)
        · exact absurd (hrc _ _ hf) hx
        · exact ⟨t, hf, hdep⟩
        · exact hel n node hn hother
      · rintro ⟨t, hf, hpd, hnot⟩
        by_cases ht : t = node.nodeId
        · -- a loop emits nothing itself; another edge of the node does, or another owner
          subst ht
          obtain rfl : n = node.nodeId := by_contra fun hne => hnot ⟨hne, hpd⟩
          refine (hlp _ hf).imp_left ?_
          rintro ⟨t, hf, hne, hpd⟩
          exact ⟨t, hf, .inr ⟨hpd.1, hne, hpd, fun h => h.1 rfl⟩⟩
        · exact .inl ⟨t, hf, .inr ⟨hpd.1, ht, hpd, hnot⟩⟩
    refine ⟨hiff, fun n node hn hm => ?_, hunk⟩
    obtain ⟨t, -, hpd, -⟩ := (hiff n node hn).1 hm
    exact reachesExit_iff.1 (dominates_iff.2 hpd).reached

end

/-! ## A branch -/

/-- An input whose one owner branches at `a`, and the same input with a loop at the exit. -/
def branchInput (loop : Bool) : CommonDerivedAnalysisInput :=
  { sampleInput {"db"} with
    cfgNodes := [⟨"f", "a", true, false⟩, ⟨"f", "b", false, false⟩, ⟨"f", "d", false, true⟩]
    cfgEdges := [⟨"f", "a", "b"⟩, ⟨"f", "a", "d"⟩, ⟨"f", "b", "d"⟩] ++
      if loop then [⟨"f", "d", "d"⟩] else []
    defUseReaching := [] }

/-- The post-dominators of its nodes. -/
def branchStrict (v : CfgVertex) : Option (List CfgVertex) :=
  if v = .virtualExit then some []
  else if v = .node "d" then some [.virtualExit]
  else if v = .node "a" ∨ v = .node "b" then some [.node "d", .virtualExit] else none

def branchLibraries : Libraries :=
  { sampleLibraries with
    simpleFast := fun _ _ => ⟨fun v => (branchStrict v).bind List.head?, branchStrict⟩ }

def branchCfg (loop : Bool) : Cfg := ⟨(branchInput loop).cfgNodes, (branchInput loop).cfgEdges⟩

theorem ownerCfg_branch (loop : Bool) :
    ownerCfg branchLibraries (branchInput loop) "f" = branchCfg loop := by
  cases loop <;> decide +kernel

theorem branch_owner {loop : Bool} {other : String}
    (h : RootedOwner branchLibraries (branchInput loop) other) : other = "f" := by
  simpa [mem_cfgOwners, branchInput] using mem_cfgOwners_of_rooted h

theorem not_leavesOut {bounds : CommonAnalysisBounds} {rows : List FactRow} {f : Family}
    (h : rows.length ≤ bounds.maxOutputRows) : ¬LeavesOut bounds rows f := by
  rintro ⟨before, row, after, rfl, _, hle⟩
  have hcard := before.toFinset_card_le
  simp only [length_append, length_cons] at h
  omega

theorem branch_reached {loop : Bool} {allowed : CfgVertex → Prop} {v : CfgVertex} :
    Reached (branchCfg loop).Back .virtualExit allowed v ↔
      allowed .virtualExit ∧ allowed v ∧ (v = .virtualExit ∨
        allowed (.node "d") ∧ (v = .node "d" ∨ v = .node "a" ∨ v = .node "b")) := by
  have hfl : ∀ a b, (branchCfg loop).Flows a b →
      (b = "d" ∨ b = "b") ∧ (a = "d" ∨ a = "a" ∨ a = "b") := by
    rintro a b ⟨_, he, rfl, rfl⟩
    cases loop <;> simp [branchCfg, branchInput] at he
    · rcases he with rfl | rfl | rfl <;> simp
    · rcases he with rfl | rfl | rfl | rfl <;> simp
  constructor
  · intro h
    induction h with
    | root h => exact ⟨h, h, .inl rfl⟩
    | step _ hab hb ih =>
      cases hab with
      | flow hf =>
        obtain ⟨hto, h⟩ := hfl _ _ hf
        refine ⟨ih.1, hb, .inr ⟨?_, by simpa using h⟩⟩
        rcases hto with rfl | rfl
        · exact ih.2.1
        · exact (ih.2.2.resolve_left CfgVertex.noConfusion).1
      | exit hn he =>
        simp only [branchCfg, branchInput, mem_cons, not_mem_nil, or_false] at hn
        rcases hn with rfl | rfl | rfl
        · cases he
        · cases he
        · exact ⟨ih.1, hb, .inr ⟨hb, .inl rfl⟩⟩
  · rintro ⟨hx, hv, rfl | ⟨hb, h⟩⟩
    · exact .root hx
    · have hexit : ⟨"f", "d", false, true⟩ ∈ (branchCfg loop).nodes := by
        simp [branchCfg, branchInput]
      have hrc := Reached.step (.root hx) (Cfg.Back.exit hexit rfl) hb
      rcases h with rfl | rfl | rfl
      · exact hrc
      · exact .step hrc (.flow ⟨⟨"f", "a", "d"⟩, by simp [branchCfg, branchInput], rfl, rfl⟩) hv
      · exact .step hrc (.flow ⟨⟨"f", "b", "d"⟩, by simp [branchCfg, branchInput], rfl, rfl⟩) hv

theorem branch_answered (loop : Bool) : (branchCfg loop).Answered branchLibraries := by
  intro _ hg
  rw [(of_buildCfgGraph _ hg).1]
  refine ⟨⟨fun v => ?_, fun v l hl d => ?_, fun v d l hl => ?_⟩, fun _ => rfl⟩
  all_goals simp only [branchLibraries, branchStrict, branch_reached, Dominates] at *
  · split_ifs <;> simp_all
  · split_ifs at hl <;> grind
  · split_ifs at hl <;> grind

def branchRun (loop : Bool) : Except CommonDerivedAnalysisError AnalysisState :=
  analyzeCommonDerived branchLibraries (branchInput loop) sampleBounds

/-- The branch has the classical dependences: `b` depends on `a`, and nothing else. -/
theorem branch_exactControl : ∃ s, branchRun false = .ok s ∧
    cfgFact .controlDependence "b" "a" true ∈ s.facts ∧
    (ownerCfg branchLibraries (branchInput false) "f").ExactControl "f"
      ((branchInput false).covers .cfg) s := by
  obtain ⟨s, hs, hfact⟩ := exists_ok_of_any (x := branchRun false)
    (p := fun s => decide (cfgFact .controlDependence "b" "a" true ∈ s.facts)) (by decide +kernel)
  refine ⟨s, hs, of_decide_eq_true hfact, (exactControl_iff hs ?_ ?_ ?_ ?_).2 ⟨?_, ?_, ?_⟩⟩
  · unfold CfgExceeds
    decide +kernel
  · intro other hr
    rw [branch_owner hr, ownerCfg_branch]
    exact branch_answered false
  · exact not_leavesOut (by decide +kernel)
  · unfold RootedOwner
    decide +kernel
  · rw [ownerCfg_branch]
    rintro _ _ ⟨edge, he, rfl, rfl⟩
    refine reachesExit_iff.1 (branch_reached.2 ?_)
    simp only [branchCfg, branchInput, Bool.false_eq_true, if_false, append_nil, mem_cons,
      not_mem_nil, or_false] at he
    rcases he with rfl | rfl | rfl <;> simp
  · rw [ownerCfg_branch]
    rintro _ ⟨edge, he, rfl, ht⟩
    simp only [branchCfg, branchInput, Bool.false_eq_true, if_false, append_nil, mem_cons,
      not_mem_nil, or_false] at he
    rcases he with rfl | rfl | rfl <;> exact absurd ht (by decide)
  · rintro n node _ ⟨other, hne, hr, _⟩
    exact absurd (branch_owner hr) hne

/-- The loop at the exit depends on itself, and nothing is emitted for it. -/
theorem loop_not_emitted :
    (ownerCfg branchLibraries (branchInput true) "f").Answered branchLibraries ∧
    ∃ s, branchRun true = .ok s ∧ Family.controlDependence ∉ s.outputExhaustedFamilies ∧
      (ownerCfg branchLibraries (branchInput true) "f").ControlDependent "d" "d" ∧
      cfgFact .controlDependence "d" "d" true ∉ s.facts := by
  obtain ⟨s, hs, hrun⟩ := exists_ok_of_any (x := branchRun true)
    (p := fun s => decide (Family.controlDependence ∉ s.outputExhaustedFamilies ∧
      cfgFact .controlDependence "d" "d" true ∉ s.facts)) (by decide +kernel)
  obtain ⟨hfr, hno⟩ := of_decide_eq_true hrun
  rw [ownerCfg_branch]
  refine ⟨branch_answered true, s, hs, hfr, ⟨"d", ?_, ?_, fun h => h.1 rfl⟩, hno⟩
  · exact ⟨⟨"f", "d", "d"⟩, by simp [branchCfg, branchInput], rfl, rfl⟩
  · exact dominates_iff.1 (dominates_self (branch_reached.2 (by simp)))

end CodeFabric.Derived
