import CodeFabric.Derived.Calls

/-! # Reference libraries

Executable stand-ins for the libraries the analysis calls, built on finite graphs. They keep the
documentation, so the assumptions about the libraries can be met, and the analysis can be evaluated.
-/

namespace CodeFabric.Derived

open Worklist

def NormalizedStageRow.columns (row : NormalizedStageRow) : List String :=
  [row.kind, row.scope, row.source, row.target, row.value.getD ""]

/-- Vertices by identity, the added exit after all nodes. -/
instance : LinearOrder CfgVertex :=
  LinearOrder.lift' (fun vertex : CfgVertex => match vertex with
    | .node nodeId => (nodeId : WithTop String)
    | .virtualExit => ⊤) (by
      rintro (a | _) (b | _) h
      · exact congrArg _ (WithTop.coe_injective h)
      · cases h
      · cases h
      · rfl)

variable (graph : Digraph CfgVertex)

def Digraph.avoiding (vertex : CfgVertex) : Digraph CfgVertex :=
  { graph with edges := graph.edges.filter fun edge => edge.1 ≠ vertex ∧ edge.2 ≠ vertex }

/-- The vertices on every path from the root to a vertex, other than the vertex. -/
def strictlyDominating (root vertex : CfgVertex) : List CfgVertex :=
  graph.nodes.filter fun other => other ≠ vertex ∧ other ∈ graph.reach root ∧
    (other = root ∨ vertex ∉ (Digraph.avoiding graph other).reach root)

/-- Dominators by definition: the nearest of the vertices on every path from the root comes first,
being dominated by the others. -/
def dominatorsByPaths (root : CfgVertex) : Dominators :=
  let strict := fun vertex => (strictlyDominating graph root vertex).insertionSort fun left right =>
    (strictlyDominating graph root right).length ≤ (strictlyDominating graph root left).length
  { strictDominators := fun vertex =>
      if vertex ∈ graph.reach root then some (strict vertex) else none
    immediateDominator := fun vertex =>
      if vertex ∈ graph.reach root then (strict vertex).head? else none }

def referenceLibraries (blake3Hex : List UInt8 → String) : Libraries where
  distinctSorted rows := rows.dedup.insertionSort fun left right => left.columns ≤ right.columns
  tarjanScc graph := graph.components
  condensation graph := graph.condensation
  toposort graph := graph.topologicalOrder
  simpleFast := dominatorsByPaths
  blake3Hex := blake3Hex

/-- **The stand-ins keep the documentation.** -/
theorem referenceLibraries_documented (blake3Hex : List UInt8 → String) :
    (referenceLibraries blake3Hex).Documented where
  distinctSorted_nodup rows :=
    (List.perm_insertionSort _ _).nodup_iff.2 (List.nodup_dedup rows)
  mem_distinctSorted rows row := by
    rw [referenceLibraries, List.mem_insertionSort, List.mem_dedup]
  tarjanScc_perm graph hgr := Digraph.components_perm hgr
  tarjanScc_nonempty graph hgr component hc :=
    Digraph.components_nonempty hgr hc
  mem_tarjanScc graph hgr component hc a ha b hb :=
    Digraph.mem_components hgr hc ha hb
  condensation_perm graph hgr := Digraph.components_perm hgr
  condensation_acyclic graph hgr :=
    ⟨Digraph.condensation_wellFormed, Digraph.condensation_acyclic hgr⟩
  toposort_perm graph order _ h := Digraph.topologicalOrder_perm h
  toposort_acyclic graph _ hacy := Digraph.topologicalOrder_isSome hacy

/-! ## A sample

Function `f` has two nodes and calls `g`; `f` does input and output, `g` uses a database. -/

def sampleCoverage : CommonInputCoverage := ⟨1, 1, 0, 0, Vector.replicate 32 1⟩

/-- The sample, given what `g` uses. -/
def sampleInput (resources : Finset String) : CommonDerivedAnalysisInput where
  provenance := ⟨Vector.replicate 32 1, Vector.replicate 32 1, Vector.replicate 32 1,
    Vector.replicate 32 1⟩
  cfgNodes := [⟨"f", "n1", true, false⟩, ⟨"f", "n2", false, true⟩]
  cfgEdges := [⟨"f", "n1", "n2"⟩]
  defUseReaching := [⟨"f", "n1", "n2", "x"⟩]
  calls := [⟨"c1", "f", .exact "g"⟩]
  localSemantics := [⟨"f", "m", "f", {"io"}, ∅⟩, ⟨"g", "m", "g", ∅, resources⟩]
  coverage := fun _ => some sampleCoverage
  changedScopes := {.callable "g"}

def sampleBounds : CommonAnalysisBounds := ⟨99, 99, 99, 99, 99, 99, 99, 99⟩

def sampleBlake3 (bytes : List UInt8) : String :=
  let component := fun name => Identity.utf8Bytes "codefabric.common-analysis.scc.v1\x00" ++
    framed name
  let summary := fun (effects resources : List String) =>
    Identity.utf8Bytes "codefabric.common-analysis.callable-summary.v1\x00" ++ [1] ++
      Identity.utf8Bytes "e" ++ effects.flatMap framed ++
      Identity.utf8Bytes "r" ++ resources.flatMap framed
  if bytes = component "f" then "92a1776b693c342b745dacd0d9a26bc3656e7cb363b38dbad5f39f74bf22e3c3"
  else if bytes = component "g" then
    "a3ccb8b2ceabbd88a43cadaa0506a3d22779fdafbc2b262b968ccf36a137ff71"
  else if bytes = summary ["io"] ["db"] then
    "566ab12ccdeb9f07fae51897de1801c42bf0cd7f19136f44b6fb506105c9c724"
  else if bytes = summary [] ["db"] then
    "802d3cb6290fd09cea0f7f887f99e0f3bd4d98f7b00cf66ebf008ca8410100d5"
  else if bytes = summary ["io"] ["db", "net"] then
    "2ca0be9240d79968ef01a304d5c0b21a8918760bd436be717953c07442ef866a"
  else if bytes = summary [] ["db", "net"] then
    "5752f2b1c4a2f4476019c20ba9902e0b396fdb100b248f0ac9becbc54f142b5a"
  else ""

def sampleLibraries : Libraries := referenceLibraries sampleBlake3

theorem exists_ok_of_any {α ε : Type} {x : Except ε α} {p : α → Bool}
    (h : x.toOption.any p = true) : ∃ a, x = .ok a ∧ p a = true := by
  cases x with
  | error e => cases h
  | ok a => exact ⟨a, rfl, h⟩

end CodeFabric.Derived
