import CodeFabric.Derived.Input
import CodeFabric.Support.BigEndian
import CodeFabric.Support.Graphs

/-! # State of the common derived analysis

The rows the analysis emits, the counters of each derived family, the libraries it rests on, and
the staging of its input (`common_derived_analysis.rs`). Family identities are validated to be
distinct, so a family is a constructor here. Lengths are counted exactly: they fit 64 bits, as every
vector's length does.

**`Libraries`** are DataFusion's distinct rows, petgraph's algorithms and BLAKE3, with their
documented behaviour in **`Libraries.Documented`**. -/

namespace CodeFabric.Derived

open Fallible

/-! ## Rows and counters -/

inductive Family
  | dominator | postDominator | controlDependence | dataDependence | callGraph | sccMembership
  | reachability | callableEffect | callableResource | callableSummary
  deriving DecidableEq, Repr

structure FactRow where
  family : Family
  subject : String
  object : Option String
  value : Option String
  distance : Option Nat
  algorithm : String
  precision : String
  iteration : Nat
  complete : Bool
  deriving DecidableEq, Repr

structure UnknownRow where
  family : Family
  subject : Option String
  reason : String
  detail : Option String
  iteration : Nat
  deriving DecidableEq, Repr

structure InvalidationRow where
  family : Family
  scopeKind : String
  scopeId : String
  cause : String
  deriving DecidableEq, Repr

/-- The units of one derived family. -/
structure Progress where
  requested : Nat
  completed : Nat
  remainder : Nat
  unknown : Nat
  deriving DecidableEq, Repr

/-- A family is reported complete when everything requested was completed. -/
def Progress.complete (progress : Progress) : Bool :=
  progress.requested = progress.completed ∧ progress.remainder = 0 ∧ progress.unknown = 0

/-- Counters that start with `requested` units. -/
def Progress.requesting (requested : Nat) : Progress := ⟨requested, 0, 0, 0⟩

def Progress.addCompleted (units : Nat) (progress : Progress) : Progress :=
  { progress with completed := progress.completed + units }

def Progress.addUnknown (units : Nat) (progress : Progress) : Progress :=
  { progress with unknown := progress.unknown + units }

def u64Max : Nat := 2 ^ 64 - 1

/-- Addition of 64-bit numbers that stops at the largest. -/
def saturatingAdd (left right : Nat) : Nat := min (left + right) u64Max

structure AnalysisState where
  facts : Finset FactRow
  unknowns : Finset UnknownRow
  progress : Family → Progress
  invalidation : Finset InvalidationRow
  iterations : Nat
  outputExhaustedFamilies : Finset Family

namespace AnalysisState

/-- The state before any family is derived. -/
def initial : AnalysisState := ⟨∅, ∅, fun _ => .requesting 0, ∅, 0, ∅⟩

/-- Emit a fact, or note that its family lost one to the row bound. -/
def insertFact (row : FactRow) (bounds : CommonAnalysisBounds) (s : AnalysisState) :
    AnalysisState :=
  if s.facts.card < bounds.maxOutputRows then
    { s with facts := insert row s.facts }
  else
    { s with outputExhaustedFamilies := insert row.family s.outputExhaustedFamilies }

def insertFacts (rows : List FactRow) (bounds : CommonAnalysisBounds) (s : AnalysisState) :
    AnalysisState :=
  rows.foldl (fun s row => s.insertFact row bounds) s

def unknown (family : Family) (subject : Option String) (reason : String)
    (detail : Option String) (iteration : Nat) (s : AnalysisState) : AnalysisState :=
  { s with unknowns := insert ⟨family, subject, reason, detail, iteration⟩ s.unknowns }

/-- Emit the same unknown row for several families. -/
def unknownAll (families : List Family) (subject : Option String) (reason : String)
    (detail : Option String) (iteration : Nat) (s : AnalysisState) : AnalysisState :=
  families.foldl (fun s family => s.unknown family subject reason detail iteration) s

def adjust (family : Family) (change : Progress → Progress) (s : AnalysisState) : AnalysisState :=
  { s with progress := Function.update s.progress family (change (s.progress family)) }

/-- Change the counters of several families alike. -/
def adjustAll (families : List Family) (change : Progress → Progress) (s : AnalysisState) :
    AnalysisState :=
  families.foldl (fun s family => s.adjust family change) s

end AnalysisState

/-- Run a loop body on every item in order. -/
def forEach {α σ : Type} (items : List α) (body : α → σ → σ) (s : σ) : σ :=
  items.foldl (fun s item => body item s) s

/-! ## Libraries -/

/-- A node of a control-flow graph, or the exit added to compute post-dominators. -/
inductive CfgVertex
  | node (nodeId : String)
  | virtualExit
  deriving DecidableEq, Repr

/-- The answers of a dominator computation. A node without strict dominators is not reachable from
the root. -/
structure Dominators where
  immediateDominator : CfgVertex → Option CfgVertex
  strictDominators : CfgVertex → Option (List CfgVertex)

def Dominators.dominators (dominators : Dominators) (vertex : CfgVertex) :
    Option (List CfgVertex) :=
  (dominators.strictDominators vertex).map (vertex :: ·)

structure NormalizedStageRow where
  kind : String
  scope : String
  source : String
  target : String
  value : Option String
  deriving DecidableEq, Repr

structure Libraries where
  /-- DataFusion: distinct rows in a deterministic order. -/
  distinctSorted : List NormalizedStageRow → List NormalizedStageRow
  /-- petgraph: strongly connected components. -/
  tarjanScc : Digraph String → List (List String)
  /-- petgraph: the graph of strongly connected components, without loops. -/
  condensation : Digraph String → Digraph (List String)
  /-- petgraph: a topological order, unless there is a cycle. -/
  toposort : {V : Type} → [DecidableEq V] → Digraph V → Option (List V)
  /-- petgraph: dominators from a root. -/
  simpleFast : Digraph CfgVertex → CfgVertex → Dominators
  /-- The hexadecimal BLAKE3 hash of a byte string. -/
  blake3Hex : List UInt8 → String

structure Libraries.Documented (lib : Libraries) : Prop where
  distinctSorted_nodup : ∀ rows, (lib.distinctSorted rows).Nodup
  mem_distinctSorted : ∀ rows row, row ∈ lib.distinctSorted rows ↔ row ∈ rows
  tarjanScc_perm : ∀ graph, graph.WellFormed → (lib.tarjanScc graph).flatten.Perm graph.nodes
  tarjanScc_nonempty : ∀ graph, graph.WellFormed → ∀ component ∈ lib.tarjanScc graph, component ≠ []
  mem_tarjanScc : ∀ graph, graph.WellFormed → ∀ component ∈ lib.tarjanScc graph,
    ∀ a ∈ component, ∀ b ∈ graph.nodes, b ∈ component ↔
      Relation.ReflTransGen graph.Adjacent a b ∧ Relation.ReflTransGen graph.Adjacent b a
  condensation_perm : ∀ graph, graph.WellFormed →
    (lib.condensation graph).nodes.flatten.Perm graph.nodes
  condensation_acyclic : ∀ graph, graph.WellFormed →
    (lib.condensation graph).WellFormed ∧ (lib.condensation graph).Acyclic
  toposort_perm : ∀ {V : Type} [DecidableEq V] (graph : Digraph V) order, graph.WellFormed →
    lib.toposort graph = some order → order.Perm graph.nodes
  toposort_acyclic : ∀ {V : Type} [DecidableEq V] (graph : Digraph V), graph.WellFormed →
    graph.Acyclic → (lib.toposort graph).isSome

/-! ## Staging -/

/-- The edges, data rows and exact calls of an input as rows of one relation. -/
def stageRows (input : CommonDerivedAnalysisInput) : List NormalizedStageRow :=
  input.cfgEdges.map (fun edge =>
    ⟨"cfg", edge.ownerId, edge.sourceNodeId, edge.targetNodeId, none⟩) ++
  input.defUseReaching.map (fun row =>
    ⟨"data", row.ownerId, row.definitionNodeId, row.useNodeId, some row.locationId⟩) ++
  input.calls.filterMap fun call =>
    match call.resolution with
    | .exact calleeId =>
      some ⟨"call", "call-graph", call.callerId, calleeId, some call.callSiteId⟩
    | _ => none

/-- One exact call as it comes back from staging. -/
structure ExactCall where
  caller : String
  callee : String
  callSite : String
  deriving DecidableEq, Repr

/-- The staged rows by kind. -/
structure NormalizedTriples where
  cfg : List CommonCfgEdge
  data : List CommonDefUse
  calls : List ExactCall
  deriving DecidableEq, Repr

/-- Sort the staged rows back into edges, data rows and exact calls. -/
def splitStage : List NormalizedStageRow → Except CommonDerivedAnalysisError NormalizedTriples
  | [] => .ok ⟨[], [], []⟩
  | row :: rest =>
    if row.kind = "cfg" then do
      let triples ← splitStage rest
      return { triples with cfg := ⟨row.scope, row.source, row.target⟩ :: triples.cfg }
    else if row.kind = "data" then do
      let location ← okOr row.value (.schema "data stage row has no location")
      let triples ← splitStage rest
      return { triples with
        data := ⟨row.scope, row.source, row.target, location⟩ :: triples.data }
    else if row.kind = "call" then do
      let site ← okOr row.value (.schema "call stage row has no site")
      let triples ← splitStage rest
      return { triples with calls := ⟨row.source, row.target, site⟩ :: triples.calls }
    else .error (.unknownStageKind row.kind)

end CodeFabric.Derived
