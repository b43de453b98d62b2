import CodeFabric.Derived.State
import CodeFabric.Identity.Cbef

/-! # Stages of the common derived analysis

The derivation of every family from the staged input, and the analysis that runs the stages in
order (`common_derived_analysis.rs`). A loop of the source is a fold over the items it visits, in
the source's order. -/

namespace CodeFabric.Derived

open Fallible Worklist

variable (input : CommonDerivedAnalysisInput)

def CommonDerivedAnalysisInput.covers (family : CommonInputFamily) : Bool :=
  (input.coverage family).any (·.isComplete)

/-! ## Control-flow families -/

def cfgFamilies : List Family := [.dominator, .postDominator, .controlDependence]

def commonCfgAnalysisRelease : String := "codefabric.common-cfg.petgraph-0.8.3.v1"
def commonCfgPrecision : String := "canonical-node-exact-accepted-cfg.v1"

/-- A fact about two nodes of a control-flow graph. -/
def cfgFact (family : Family) (subject object : String) (complete : Bool) : FactRow :=
  ⟨family, subject, some object, none, none, commonCfgAnalysisRelease, commonCfgPrecision, 0,
    complete⟩

/-- The identity a vertex is emitted with; the added exit is never emitted. -/
def CfgVertex.emitted : CfgVertex → Option String
  | .node nodeId => some nodeId
  | .virtualExit => none

variable (nodes : List CommonCfgNode)

def ownerNodes (owner : String) : List CommonCfgNode :=
  (nodes.filter (·.ownerId = owner)).insertionSort fun left right => left.nodeId ≤ right.nodeId

def ownerEdges (edges : List CommonCfgEdge) (owner : String) : List CommonCfgEdge :=
  edges.filter (·.ownerId = owner)

def cfgOwners : List String :=
  inOrder (nodes.map (·.ownerId)).toFinset

/-- An owner needs one entry and an exit. -/
def Rooted : Prop :=
  (nodes.filter (·.isEntry)).length = 1 ∧ nodes.filter (·.isExit) ≠ []
  deriving Decidable

def buildCfgGraph (edges : List CommonCfgEdge) :
    Except CommonDerivedAnalysisError (Digraph CfgVertex) :=
  edges.foldlM (fun graph edge => do
    ensure (edge.sourceNodeId ∈ nodes.map (·.nodeId)) (.invalidInput "missing CFG source")
    ensure (edge.targetNodeId ∈ nodes.map (·.nodeId)) (.invalidInput "missing CFG target")
    return graph.updateEdge (.node edge.sourceNodeId) (.node edge.targetNodeId))
    ⟨nodes.map fun node => .node node.nodeId, []⟩

def withVirtualExit (graph : Digraph CfgVertex) (exits : List CommonCfgNode) :
    Digraph CfgVertex where
  nodes := graph.nodes ++ [.virtualExit]
  edges := graph.edges ++ exits.map fun exit => (.node exit.nodeId, .virtualExit)

/-- The dominators, or post-dominators, of one node: facts if the root reaches it, a gap if not. -/
def deriveDominance (family : Family) (gap owner : String) (complete : Bool)
    (dominators : Dominators) (bounds : CommonAnalysisBounds) (node : CommonCfgNode)
    (s : AnalysisState) : AnalysisState :=
  match dominators.strictDominators (.node node.nodeId) with
  | none =>
    (s.unknown family (some node.nodeId) gap (some owner) 0).adjust family (·.addUnknown 1)
  | some strict =>
    (s.insertFacts ((strict.filterMap CfgVertex.emitted).map fun dominator =>
      cfgFact family node.nodeId dominator complete) bounds).adjust family (·.addCompleted 1)

/-- The nodes from a successor up the post-dominator tree to `stop`. The loop of the source stops at
a node it has seen, so it runs at most once for each node. -/
def controlRun (post : Dominators) (stop : Option CfgVertex) :
    Nat → List String → Option CfgVertex → List String
  | fuel + 1, seen, some (.node current) =>
    if some (.node current) = stop ∨ current ∈ seen then []
    else current :: controlRun post stop fuel (current :: seen)
      (post.immediateDominator (.node current))
  | _, _, _ => []

def deriveControl (complete : Bool) (post : Dominators) (nodeCount : Nat)
    (bounds : CommonAnalysisBounds) (edge : CommonCfgEdge) (s : AnalysisState) : AnalysisState :=
  let controller := edge.sourceNodeId
  let successor := CfgVertex.node edge.targetNodeId
  let postDominatesController := (post.dominators (.node controller)).any (successor ∈ ·)
  let dependent := if postDominatesController then []
    else controlRun post (post.immediateDominator (.node controller)) (nodeCount + 1) []
      (some successor)
  (s.insertFacts (dependent.map fun subject =>
    cfgFact .controlDependence subject controller complete) bounds).adjust .controlDependence
      (·.addCompleted 1)

def deriveOwner (lib : Libraries) (complete : Bool) (nodes : List CommonCfgNode)
    (edges : List CommonCfgEdge) (bounds : CommonAnalysisBounds) (s : AnalysisState)
    (owner : String) : Except CommonDerivedAnalysisError AnalysisState :=
  let ownNodes := ownerNodes nodes owner
  let ownEdges := ownerEdges edges owner
  let entries := ownNodes.filter (·.isEntry)
  let exits := ownNodes.filter (·.isExit)
  let entryCount := entries.length
  let exitCount := exits.length
  if ¬Rooted ownNodes then
    let s := s.unknownAll cfgFamilies (some owner) "CFG_ROOT_OR_EXIT_UNKNOWN"
      (some s!"entry_count={entryCount} exit_count={exitCount}") 0
    let s := s.adjust .dominator (·.addUnknown ownNodes.length)
    let s := s.adjust .postDominator (·.addUnknown ownNodes.length)
    .ok (s.adjust .controlDependence (·.addUnknown ownEdges.length))
  else do
    let graph ← buildCfgGraph ownNodes ownEdges
    let entry := (entries.head?.map (·.nodeId)).getD ""
    let dominators := lib.simpleFast graph (.node entry)
    let s := forEach ownNodes (deriveDominance .dominator "CFG_NODE_UNREACHABLE_FROM_ENTRY" owner
      complete dominators bounds) s
    let post := lib.simpleFast (withVirtualExit graph exits).reversed .virtualExit
    let s := forEach ownNodes (deriveDominance .postDominator "CFG_NODE_CANNOT_REACH_EXIT" owner
      complete post bounds) s
    return forEach ownEdges (deriveControl complete post ownNodes.length bounds) s

/-- The counters a control-flow derivation starts with. -/
def requestCfg (edges : List CommonCfgEdge) (s : AnalysisState) : AnalysisState :=
  let s := s.adjustAll [.dominator, .postDominator] fun _ => .requesting input.cfgNodes.length
  s.adjust .controlDependence fun _ => .requesting edges.length

def deriveCfgFamilies (lib : Libraries) (input : CommonDerivedAnalysisInput)
    (edges : List CommonCfgEdge) (bounds : CommonAnalysisBounds) (s : AnalysisState) :
    Except CommonDerivedAnalysisError AnalysisState :=
  let s := requestCfg input edges s
  let nodeCount := input.cfgNodes.length
  let edgeCount := edges.length
  let nodeBound := (bounds.maxCfgNodes : Nat)
  let edgeBound := (bounds.maxCfgEdges : Nat)
  if nodeBound < nodeCount ∨ edgeBound < edgeCount then
    let s := s.unknownAll cfgFamilies none "CFG_RESOURCE_BOUND_EXHAUSTED"
      (some s!"nodes={nodeCount} edges={edgeCount} node_bound={nodeBound} edge_bound={edgeBound}") 0
    .ok (s.adjustAll cfgFamilies fun progress => { progress with unknown := progress.requested })
  else
    (cfgOwners input.cfgNodes).foldlM
      (deriveOwner lib (input.covers .cfg) input.cfgNodes edges bounds) s

/-! ## Data dependence -/

def commonDataDependenceRelease : String := "codefabric.common-data-dependence.datafusion-55.v1"
def commonDataDependencePrecision : String := "accepted-def-use-reaching-evidence.v1"

def deriveDataDependence (rows : List CommonDefUse)
    (bounds : CommonAnalysisBounds) (s : AnalysisState) : AnalysisState :=
  let s := s.adjust .dataDependence fun _ => (Progress.requesting rows.length).addCompleted
    rows.length
  s.insertFacts (rows.map fun row =>
    ⟨.dataDependence, row.useNodeId, some row.definitionNodeId, some row.locationId, none,
      commonDataDependenceRelease, commonDataDependencePrecision, 0,
      input.covers .defUseReaching⟩) bounds

end CodeFabric.Derived
