import CodeFabric.Derived.Staging

/-! # The call graph, its components and its schedule

What the graph algorithms return for the graph of exact calls.

**`mem_component_iff`**: a recursive component holds exactly callables that call themselves,
directly or through others. -/

namespace CodeFabric.Derived

open Fallible Worklist List

/-! ## Exact calls -/

/-- One callable calls another at some exact call site. -/
def Calls (input : CommonDerivedAnalysisInput) (caller callee : String) : Prop :=
  ∃ call ∈ input.calls, call.callerId = caller ∧ call.resolution = .exact callee

section

variable {lib : Libraries} {input : CommonDerivedAnalysisInput} {exactCalls : List ExactCall}
  {caller callee : String} {graph : Digraph String} {component : List String}

def Staged (input : CommonDerivedAnalysisInput) (exactCalls : List ExactCall) : Prop :=
  ∀ call, call ∈ exactCalls ↔ call ∈ input.calls.filterMap (·.toCall)

theorem Staged.exists_iff (h : Staged input exactCalls) :
    (∃ call ∈ exactCalls, call.caller = caller ∧ call.callee = callee) ↔
      Calls input caller callee := by
  constructor
  · rintro ⟨call, hc, rfl, rfl⟩
    rw [h, mem_filterMap] at hc
    obtain ⟨site, hs, hc⟩ := hc
    refine ⟨site, hs, ?_⟩
    cases hr : site.resolution <;>
      simp [CommonCallSite.toCall, CommonCallResolution.callee, hr] at hc
    rw [← hc]
    exact ⟨rfl, rfl⟩
  · rintro ⟨site, hs, rfl, hr⟩
    refine ⟨⟨site.callerId, callee, site.callSiteId⟩, ?_, rfl, rfl⟩
    rw [h, mem_filterMap]
    exact ⟨site, hs, by simp [CommonCallSite.toCall, CommonCallResolution.callee, hr]⟩

theorem mem_adjacency (h : Staged input exactCalls) :
    callee ∈ adjacency exactCalls caller ↔ Calls input caller callee := by
  rw [← h.exists_iff]
  simp [adjacency, and_assoc]

theorem mem_reverseCallers (h : Staged input exactCalls) :
    caller ∈ reverseCallers exactCalls callee ↔ Calls input caller callee := by
  rw [← h.exists_iff]
  simp only [reverseCallers, mem_toFinset, mem_map, mem_filter, decide_eq_true_eq]
  exact ⟨fun ⟨call, ⟨hcl, hcle⟩, hclr⟩ => ⟨call, hcl, hclr, hcle⟩,
    fun ⟨call, hcl, hclr, hcle⟩ => ⟨call, ⟨hcl, hcle⟩, hclr⟩⟩

theorem Calls.mem_callablesOf (h : Calls input caller callee) :
    caller ∈ callablesOf input ∧ callee ∈ callablesOf input := by
  obtain ⟨call, hc, rfl, hr⟩ := h
  simp only [callablesOf, Finset.mem_union, mem_toFinset, mem_map, mem_filterMap]
  exact ⟨.inl (.inr ⟨call, hc, rfl⟩), .inr ⟨call, hc, by rw [hr]; rfl⟩⟩

/-! ## The graph -/

theorem buildCallGraph_eq_ok {callables : Finset String} {graph : Digraph String}
    (h : buildCallGraph callables exactCalls = .ok graph) : graph.nodes = inOrder callables ∧
      (∀ edge, edge ∈ graph.edges ↔ ∃ call ∈ exactCalls, (call.caller, call.callee) = edge) ∧
      ∀ edge ∈ graph.edges, edge.1 ∈ callables ∧ edge.2 ∈ callables := by
  have hf : ∀ (calls : List ExactCall) (start : Digraph String),
      (∀ edge ∈ start.edges, edge.1 ∈ callables ∧ edge.2 ∈ callables) →
      calls.foldlM (fun graph call => do
        ensure (call.caller ∈ callables)
          (CommonDerivedAnalysisError.invalidInput "missing call graph caller")
        ensure (call.callee ∈ callables)
          (CommonDerivedAnalysisError.invalidInput "missing call graph callee")
        return graph.updateEdge call.caller call.callee) start = .ok graph →
      graph.nodes = start.nodes ∧ (∀ edge, edge ∈ graph.edges ↔ edge ∈ start.edges ∨
          ∃ call ∈ calls, (call.caller, call.callee) = edge) ∧
        ∀ edge ∈ graph.edges, edge.1 ∈ callables ∧ edge.2 ∈ callables := by
    intro calls
    induction calls with
    | nil =>
      intro start hsta hok
      cases hok
      exact ⟨rfl, by simp, hsta⟩
    | cons call calls ih =>
      intro start hsta hok
      simp only [foldlM_cons, ok_iff] at hok
      obtain ⟨next, ⟨_, hclr, _, hcle, rfl⟩, hr⟩ := hok
      have hedges : ∀ edge, edge ∈ (start.updateEdge call.caller call.callee).edges ↔
          edge ∈ start.edges ∨ (call.caller, call.callee) = edge := by
        intro edge
        unfold Digraph.updateEdge
        split
        · rename_i hmem
          exact ⟨.inl, fun h => h.elim id fun h => h ▸ hmem⟩
        · simp [eq_comm]
      have hnd : (start.updateEdge call.caller call.callee).nodes = start.nodes := by
        unfold Digraph.updateEdge
        split <;> rfl
      have hwi : ∀ edge ∈ (start.updateEdge call.caller call.callee).edges,
          edge.1 ∈ callables ∧ edge.2 ∈ callables := by
        intro edge hed
        obtain hed | rfl := (hedges edge).1 hed
        · exact hsta edge hed
        · exact ⟨hclr, hcle⟩
      obtain ⟨hn, he, hw⟩ := ih _ hwi hr
      refine ⟨hn.trans hnd, fun edge => ?_, hw⟩
      rw [he, hedges, or_assoc]
      simp
  obtain ⟨hn, he, hw⟩ := hf exactCalls ⟨inOrder callables, []⟩ (by simp) h
  exact ⟨hn, by simpa using he, hw⟩

/-- The graph of an input's exact calls, as the algorithms see it. -/
structure IsCallGraph (input : CommonDerivedAnalysisInput) (graph : Digraph String) : Prop where
  nodes : graph.nodes = inOrder (callablesOf input)
  adjacent : ∀ caller callee, graph.Adjacent caller callee ↔ Calls input caller callee

theorem isCallGraph_of_build (hstg : Staged input exactCalls) {graph : Digraph String}
    (h : buildCallGraph (callablesOf input) exactCalls = .ok graph) : IsCallGraph input graph := by
  obtain ⟨hn, he, _⟩ := buildCallGraph_eq_ok h
  refine ⟨hn, fun caller callee => ?_⟩
  rw [Digraph.Adjacent, he, ← hstg.exists_iff]
  simp

theorem IsCallGraph.wellFormed (h : IsCallGraph input graph) : graph.WellFormed where
  nodup := by
    rw [h.nodes]
    exact nodup_inOrder _
  within edge he := by
    rw [h.nodes, mem_inOrder, mem_inOrder]
    exact ((h.adjacent edge.1 edge.2).1 he).mem_callablesOf

/-! ## Components -/

theorem mem_deterministicSccs : component ∈ deterministicSccs lib graph ↔
    ∃ found ∈ lib.tarjanScc graph, component = found.insertionSort (· ≤ ·) := by
  simp [deterministicSccs, eq_comm]

theorem deterministicSccs_perm (hlib : lib.Documented) (h : IsCallGraph input graph) :
    (deterministicSccs lib graph).flatten.Perm (inOrder (callablesOf input)) := by
  have hs : (deterministicSccs lib graph).flatten.Perm
      ((lib.tarjanScc graph).map (·.insertionSort (· ≤ ·))).flatten :=
    (perm_insertionSort _ _).flatten
  have hm : ∀ components : List (List String),
      (components.map (·.insertionSort (· ≤ ·))).flatten.Perm components.flatten := by
    intro components
    induction components with
    | nil => exact .nil
    | cons component components ih =>
      exact (perm_insertionSort _ component).append ih
  have hfd := hlib.tarjanScc_perm graph h.wellFormed
  rw [h.nodes] at hfd
  exact (hs.trans (hm _)).trans hfd

theorem mem_flatten_deterministicSccs (hlib : lib.Documented) (h : IsCallGraph input graph)
    {callable : String} :
    callable ∈ (deterministicSccs lib graph).flatten ↔ callable ∈ callablesOf input := by
  rw [(deterministicSccs_perm hlib h).mem_iff, mem_inOrder]

theorem IsCallGraph.reaches_iff (h : IsCallGraph input graph) {a b : String} :
    Relation.ReflTransGen graph.Adjacent a b ↔ Relation.ReflTransGen (Calls input) a b := by
  have heq : graph.Adjacent = Calls input := by
    funext caller callee
    exact propext (h.adjacent caller callee)
  rw [heq]

/-- A callable that reaches itself by exact calls. -/
def Recursive (input : CommonDerivedAnalysisInput) (callable : String) : Prop :=
  Relation.TransGen (Calls input) callable callable

section

variable (hlib : lib.Documented)
include hlib

section

variable (h : IsCallGraph input graph) (hc : component ∈ deterministicSccs lib graph)
include h hc

theorem mem_component_iff {a b : String} (ha : a ∈ component) (hb : b ∈ callablesOf input) :
    b ∈ component ↔
    Relation.ReflTransGen (Calls input) a b ∧ Relation.ReflTransGen (Calls input) b a := by
  obtain ⟨found, hfd, rfl⟩ := mem_deterministicSccs.1 hc
  rw [mem_insertionSort] at ha ⊢
  have hb' : b ∈ graph.nodes := by rwa [h.nodes, mem_inOrder]
  rw [hlib.mem_tarjanScc graph h.wellFormed found hfd a ha b hb', h.reaches_iff, h.reaches_iff]

theorem mem_callablesOf_of_mem_component {a : String} (ha : a ∈ component) :
    a ∈ callablesOf input :=
  (mem_flatten_deterministicSccs hlib h).1 (List.mem_flatten.2 ⟨component, hc, ha⟩)

theorem exists_other_member (hlen : 1 < component.length) (a : String) :
    ∃ b ∈ component, b ≠ a := by
  have hnd : component.Nodup := by
    have hfl : (deterministicSccs lib graph).flatten.Nodup :=
      (deterministicSccs_perm hlib h).nodup_iff.2 (nodup_inOrder _)
    exact (List.nodup_flatten.1 hfl).1 component hc
  obtain ⟨first, second, rest, rfl⟩ : ∃ first second rest, component = first :: second :: rest := by
    match component, hlen with
    | first :: second :: rest, _ => exact ⟨first, second, rest, rfl⟩
  by_cases hfst : first = a
  · refine ⟨second, by simp, fun hsnd => ?_⟩
    simp [hfst, hsnd] at hnd
  · exact ⟨first, by simp, hfst⟩

end

/-- **Recursive components hold the recursive callables.** -/
theorem mem_recursive_component (hstg : Staged input exactCalls)
    (h : IsCallGraph input graph) {callable : String} :
    (∃ component ∈ deterministicSccs lib graph, IsRecursive (adjacency exactCalls) component ∧
        callable ∈ component) ↔ Recursive input callable := by
  constructor
  · rintro ⟨component, hcm, hr, hcal⟩
    obtain hlen | ⟨other, ho, hsl⟩ := hr
    · obtain ⟨other, ho, hne⟩ := exists_other_member hlib h hcm hlen callable
      obtain ⟨hto, hb⟩ := (mem_component_iff hlib h hcm hcal
        (mem_callablesOf_of_mem_component hlib h hcm ho)).1 ho
      have hst := (Relation.reflTransGen_iff_eq_or_transGen.1 hto).resolve_left hne
      exact hst.trans_left hb
    · obtain ⟨hto, hb⟩ := (mem_component_iff hlib h hcm hcal
        (mem_callablesOf_of_mem_component hlib h hcm ho)).1 ho
      exact (Relation.TransGen.tail' hto ((mem_adjacency hstg).1 hsl)).trans_left hb
  · intro hr
    obtain ⟨next, hcl, hb⟩ := Relation.TransGen.head'_iff.1 hr
    have hmem := (mem_flatten_deterministicSccs hlib h).2 hcl.mem_callablesOf.1
    obtain ⟨component, hcm, hcal⟩ := List.mem_flatten.1 hmem
    refine ⟨component, hcm, ?_, hcal⟩
    by_cases hnx : next = callable
    · exact .inr ⟨callable, hcal, (mem_adjacency hstg).2 (hnx ▸ hcl)⟩
    · have hmb := (mem_component_iff hlib h hcm hcal hcl.mem_callablesOf.2).2 ⟨.single hcl, hb⟩
      left
      by_contra hlen
      obtain ⟨single, rfl⟩ : ∃ single, component = [single] := by
        cases component with
        | nil => cases hcal
        | cons first rest =>
          cases rest with
          | nil => exact ⟨first, rfl⟩
          | cons second rest => exact absurd (by simp) hlen
      rw [mem_singleton] at hcal hmb
      exact hnx (hmb.trans hcal.symm)

/-! ## Schedule -/

/-- **The schedule holds every callable**, and only callables. -/
theorem mem_schedule (h : IsCallGraph input graph) {components schedule : List (List String)}
    (hsch : fixedPointSchedule lib graph components = .ok schedule) {callable : String} :
    callable ∈ schedule.flatten ↔ callable ∈ callablesOf input := by
  have hn : callable ∈ graph.nodes ↔ callable ∈ callablesOf input := by
    rw [h.nodes, mem_inOrder]
  unfold fixedPointSchedule at hsch
  dsimp only at hsch
  split at hsch
  · simp only [ok_iff] at hsch
    obtain ⟨order, ho, rfl⟩ := hsch
    have hp := hlib.toposort_perm _ order (hlib.condensation_acyclic graph h.wellFormed).1 ho
    have hcon := hlib.condensation_perm graph h.wellFormed
    have hg : callable ∈ order.flatten ↔ callable ∈ graph.nodes := by
      rw [hp.flatten.mem_iff, hcon.mem_iff]
    rw [← hn, ← hg]
    simp
  · simp only [ok_iff] at hsch
    obtain ⟨order, ho, rfl⟩ := hsch
    have hp := hlib.toposort_perm graph order h.wellFormed ho
    rw [← hn, ← hp.mem_iff]
    simp

end

end

end CodeFabric.Derived
