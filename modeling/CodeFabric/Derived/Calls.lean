import CodeFabric.Derived.Stages

/-! # Call families and the analysis

The call graph, its components, reachability and the effect and resource summaries of callables,
followed by the invalidation, the upstream gaps and the analysis itself
(`common_derived_analysis.rs`). -/

namespace CodeFabric.Derived

open Fallible Worklist

def commonCallGraphRelease : String := "codefabric.common-call-graph.petgraph-0.8.3.v1"
def commonCallGraphPrecision : String := "exact-target-edges-explicit-dynamic-remainder.v1"
def commonInterproceduralRelease : String := "codefabric.common-interprocedural.monotone-set.v1"
def commonInterproceduralPrecision : String := "context-insensitive-may-effect-resource-union.v1"

def topologyFamilies : List Family := [.sccMembership, .reachability]
def summaryFamilies : List Family := [.callableEffect, .callableResource, .callableSummary]
def callFamilies : List Family := .callGraph :: (topologyFamilies ++ summaryFamilies)

/-! ## Call graph -/

def CommonCallResolution.callee : CommonCallResolution → Option String
  | .exact calleeId => some calleeId
  | _ => none

variable (input : CommonDerivedAnalysisInput) (callables : Finset String)
  (bounds : CommonAnalysisBounds) (lib : Libraries) (adjacent : String → Finset String)
  (s : AnalysisState)

def callablesOf : Finset String :=
  (input.localSemantics.map (·.callableId)).toFinset ∪ (input.calls.map (·.callerId)).toFinset ∪
    (input.calls.filterMap (·.resolution.callee)).toFinset

def adjacency (exactCalls : List ExactCall) (caller : String) : Finset String :=
  ((exactCalls.filter (·.caller = caller)).map (·.callee)).toFinset

def reverseCallers (exactCalls : List ExactCall) (callee : String) : Finset String :=
  ((exactCalls.filter (·.callee = callee)).map (·.caller)).toFinset

def buildCallGraph (exactCalls : List ExactCall) :
    Except CommonDerivedAnalysisError (Digraph String) :=
  exactCalls.foldlM (fun graph call => do
    ensure (call.caller ∈ callables) (.invalidInput "missing call graph caller")
    ensure (call.callee ∈ callables) (.invalidInput "missing call graph callee")
    return graph.updateEdge call.caller call.callee)
    ⟨inOrder callables, []⟩

def emitCall (call : ExactCall) (s : AnalysisState) : AnalysisState :=
  (s.insertFact ⟨.callGraph, call.caller, some call.callee, some call.callSite, none,
    commonCallGraphRelease, commonCallGraphPrecision, 0, true⟩ bounds).adjust .callGraph
      (·.addCompleted 1)

def CommonCallResolution.gap : CommonCallResolution → Option (String × String)
  | .exact _ => none
  | .dynamic reason => some ("DYNAMIC_DISPATCH_TARGET_UNKNOWN", reason)
  | .unknown reason => some (reason, reason)

/-- A call that is not exact is a gap of the call graph and of its topology. -/
def emitCallGap (call : CommonCallSite) (s : AnalysisState) : AnalysisState :=
  match call.resolution.gap with
  | none => s
  | some (reason, detail) =>
    let s := s.unknown .callGraph (some call.callSiteId) reason (some detail) 0
    let s := s.adjust .callGraph (·.addUnknown 1)
    let s := s.unknownAll topologyFamilies (some call.callSiteId) reason
      (some "call topology is incomplete") 0
    s.adjustAll topologyFamilies (·.addUnknown 1)

/-! ## Components -/

def deterministicSccs (graph : Digraph String) : List (List String) :=
  ((lib.tarjanScc graph).map (·.insertionSort (· ≤ ·))).insertionSort (· ≤ ·)

def framed (text : String) : List UInt8 :=
  let bytes := Identity.utf8Bytes text
  BigEndian.encode 8 bytes.length ++ bytes

def componentIdentity (component : List String) : String :=
  "b3:" ++ lib.blake3Hex (Identity.utf8Bytes "codefabric.common-analysis.scc.v1\x00" ++
    component.flatMap framed)

/-- A component with several members, or with one that calls itself. -/
def IsRecursive (component : List String) : Prop :=
  1 < component.length ∨ ∃ callable ∈ component, callable ∈ adjacent callable
  deriving Decidable

def recordMember (identity : String) (topologyComplete : Bool) (bounds : CommonAnalysisBounds)
    (callable : String) (s : AnalysisState) : AnalysisState :=
  (s.insertFact ⟨.sccMembership, callable, some identity, none, none, commonCallGraphRelease,
    commonCallGraphPrecision, 0, topologyComplete⟩ bounds).adjust .sccMembership (·.addCompleted 1)

def emitMember (topologyComplete : Bool)
    (bounds : CommonAnalysisBounds) (component : List String) (callable : String)
    (s : AnalysisState) : AnalysisState :=
  let identity := componentIdentity lib component
  let s := recordMember identity topologyComplete bounds callable s
  if IsRecursive adjacent component then
    s.unknownAll summaryFamilies (some callable) "RECURSIVE_SCC" (some identity) 0
  else s

def emitComponent (topologyComplete : Bool)
    (bounds : CommonAnalysisBounds) (component : List String) (s : AnalysisState) :
    AnalysisState :=
  forEach component (emitMember lib adjacent topologyComplete bounds component) s

/-! ## Reachability -/

/-- Record the distance of callees that have none yet, and enqueue them. -/
def visitCallees (root : String) (next : Nat) (distances : String → Option Nat)
    (queue : List (String × Nat)) : List String → (String → Option Nat) × List (String × Nat)
  | [] => (distances, queue)
  | callee :: callees =>
    if callee = root ∨ (distances callee).isSome then
      visitCallees root next distances queue callees
    else
      visitCallees root next (Function.update distances callee (some next))
        (queue ++ [(callee, next)]) callees

/-- The distances of what a root calls, breadth first; each callable is enqueued once. -/
def callDistances (adjacent : String → Finset String) (root : String) :
    Nat → (String → Option Nat) → List (String × Nat) → (String → Option Nat)
  | fuel + 1, distances, (current, distance) :: queue =>
    let (distances, queue) :=
      visitCallees root (distance + 1) distances queue (inOrder (adjacent current))
    callDistances adjacent root fuel distances queue
  | _, distances, _ => distances

def reachablePairs (adjacent : String → Finset String) (root : String) : List (String × Nat) :=
  let distances := callDistances adjacent root (callables.card + 1) (fun _ => none) [(root, 0)]
  (inOrder callables).filterMap fun callable => (distances callable).map (callable, ·)

/-- The pairs emitted so far, and whether the bound was met. -/
structure PairCount where
  emitted : Nat
  exhausted : Bool

/-- The reachability of one root, unless the bound on pairs is met. -/
def emitReachable (adjacent : String → Finset String)
    (topologyComplete : Bool) (bounds : CommonAnalysisBounds) (root : String)
    (current : PairCount × AnalysisState) : PairCount × AnalysisState :=
  let (count, s) := current
  let pairBound := (bounds.maxReachabilityPairs : Nat)
  let gap (detail : String) (s : AnalysisState) : AnalysisState :=
    (s.unknown .reachability (some root) "REACHABILITY_PAIR_BOUND_EXHAUSTED" (some detail) 0).adjust
      .reachability (·.addUnknown 1)
  if count.exhausted then
    (count, gap s!"pair_bound={pairBound}" s)
  else
    let pairs := reachablePairs callables adjacent root
    let observed := count.emitted + pairs.length
    if pairBound < observed then
      ({ count with exhausted := true },
        gap s!"observed_at_least={observed} pair_bound={pairBound}" s)
    else
      let rows := pairs.map fun pair => ⟨.reachability, root, some pair.1, none, some pair.2,
        commonCallGraphRelease, commonCallGraphPrecision, 0, topologyComplete⟩
      ({ count with emitted := observed },
        (s.insertFacts rows bounds).adjust .reachability (·.addCompleted 1))

def deriveReachability (adjacent : String → Finset String)
    (topologyComplete : Bool) (bounds : CommonAnalysisBounds) (s : AnalysisState) :
    AnalysisState :=
  (forEach (inOrder callables) (emitReachable callables adjacent topologyComplete bounds)
    (⟨0, false⟩, s)).2

/-! ## Summaries -/

/-- The effect and resource summaries, and the callables whose summary is not complete. -/
structure Summaries where
  effects : String → Finset String
  resources : String → Finset String
  incomplete : Finset String

def CommonDerivedAnalysisInput.local (callable : String) : Option CommonCallableLocalSemantics :=
  input.localSemantics.find? (·.callableId = callable)

def takeValues (bound : Nat) (values : Finset String) : Finset String :=
  ((inOrder values).take bound).toFinset

/-- Local semantics with more values than a summary may hold. -/
def CommonCallableLocalSemantics.Exceeds (semantics : CommonCallableLocalSemantics)
    (bound : Nat) : Prop :=
  bound < semantics.effects.card ∨ bound < semantics.resources.card
  deriving Decidable

/-- The gap of a callable without local semantics, or with too many local values. -/
def emitSeedGap (callable : String) (s : AnalysisState) : AnalysisState :=
  let bound := (bounds.maxSummaryValues : Nat)
  match input.local callable with
  | some semantics =>
    if semantics.Exceeds bound then
      let effectCount := semantics.effects.card
      let resourceCount := semantics.resources.card
      s.unknownAll summaryFamilies (some callable) "SUMMARY_VALUE_BOUND_EXHAUSTED"
        (some (s!"local_effect_count={effectCount} local_resource_count={resourceCount} " ++
          s!"value_bound={bound}")) 0
    else s
  | none =>
    s.unknownAll summaryFamilies (some callable) "CALLABLE_LOCAL_SEMANTICS_MISSING" none 0

def unresolvedCallers : Finset String :=
  ((input.calls.filter fun call => call.resolution.gap.isSome).map (·.callerId)).toFinset

/-- The callables that cannot have a complete summary, before any propagation. -/
def seedIncomplete (components : List (List String)) : Finset String :=
  unresolvedCallers input ∪
    (if input.covers .callTargets ∧ input.covers .localEffectResource then ∅
      else callablesOf input) ∪
    (components.filter (IsRecursive adjacent ·)).flatten.toFinset ∪
    (callablesOf input).filter fun callable =>
      (input.local callable).all (·.Exceeds bounds.maxSummaryValues)

def seedSummaries (components : List (List String)) : Summaries where
  effects callable := takeValues bounds.maxSummaryValues
    (((input.local callable).map (·.effects)).getD ∅)
  resources callable := takeValues bounds.maxSummaryValues
    (((input.local callable).map (·.resources)).getD ∅)
  incomplete := seedIncomplete input bounds adjacent components

/-- Groups of callables, callees before callers; a cycle is scheduled as one group. -/
def fixedPointSchedule (graph : Digraph String) (components : List (List String)) :
    Except CommonDerivedAnalysisError (List (List String)) :=
  let hasCycle := components.any fun component =>
    1 < component.length ∨ component.any fun callable => graph.edges.contains (callable, callable)
  if hasCycle then do
    let order ← okOr (lib.toposort (lib.condensation graph))
      (.invalidInput "petgraph condensation unexpectedly retained a cycle")
    return order.reverse.map (·.insertionSort (· ≤ ·))
  else do
    let order ← okOr (lib.toposort graph)
      (.invalidInput "acyclic call graph unexpectedly contains a cycle")
    return order.reverse.map ([·])

/-- A summary that takes in values: what it holds then, whether the bound kept one out, and whether
it changed. -/
structure Absorbed where
  summary : Finset String
  boundHit : Bool
  changed : Bool

/-- Take in one value, unless it is there or the summary is full. -/
def Absorbed.add (bound : Nat) (current : Absorbed) (value : String) : Absorbed :=
  if value ∈ current.summary then current
  else if current.summary.card = bound then { current with boundHit := true }
  else { current with summary := insert value current.summary, changed := true }

/-- Take in the values of a callee's summary. -/
def absorb (bound : Nat) (values summary : Finset String) : Absorbed :=
  ((inOrder values).take bound).foldl (Absorbed.add bound) ⟨summary, false, false⟩

structure Round where
  summaries : Summaries
  changed : Bool
  state : AnalysisState

/-- Propagate the summary a callee had before the round to one of its callers. -/
def propagateCall (iteration : Nat) (prior : Summaries)
    (call : String × String) (round : Round) : Round :=
  let (caller, callee) := call
  let bound := (bounds.maxSummaryValues : Nat)
  let effects := absorb bound (prior.effects callee) (round.summaries.effects caller)
  let resources := absorb bound (prior.resources callee) (round.summaries.resources caller)
  let boundHit := effects.boundHit || resources.boundHit
  let newlyIncomplete :=
    (boundHit ∨ callee ∈ prior.incomplete) ∧ caller ∉ round.summaries.incomplete
  { summaries :=
      { effects := Function.update round.summaries.effects caller effects.summary
        resources := Function.update round.summaries.resources caller resources.summary
        incomplete := if boundHit ∨ callee ∈ prior.incomplete
          then insert caller round.summaries.incomplete else round.summaries.incomplete }
    changed := round.changed || effects.changed || resources.changed || newlyIncomplete
    state := if boundHit then
        round.state.unknownAll summaryFamilies (some caller) "SUMMARY_VALUE_BOUND_EXHAUSTED"
          (some s!"value_bound={bound}") iteration
      else round.state }

/-- The calls of a schedule, in the order a round propagates them. -/
def scheduledCalls (schedule : List (List String)) (adjacent : String → Finset String) :
    List (String × String) :=
  schedule.flatten.flatMap fun caller => (inOrder (adjacent caller)).map (caller, ·)

/-- Rounds of propagation until nothing changes; whether the rounds ran out. -/
def propagateRounds (bounds : CommonAnalysisBounds) (calls : List (String × String)) :
    Nat → Nat → Summaries → AnalysisState → Bool × Summaries × AnalysisState
  | 0, _, summaries, s => (true, summaries, s)
  | remaining + 1, iteration, summaries, s =>
    let round := forEach calls (propagateCall bounds iteration summaries)
      ⟨summaries, false, { s with iterations := iteration }⟩
    if round.changed then
      propagateRounds bounds calls remaining (iteration + 1) round.summaries round.state
    else (false, round.summaries, round.state)

def propagateSummaries (schedule : List (List String)) (adjacent : String → Finset String)
    (bounds : CommonAnalysisBounds) (summaries : Summaries) (s : AnalysisState) :
    Bool × Summaries × AnalysisState :=
  if schedule.isEmpty then (false, summaries, s)
  else propagateRounds bounds (scheduledCalls schedule adjacent) bounds.maxIterations 1 summaries s

def propagateIncompleteCallers (callers : String → Finset String)
    (incomplete : Finset String) : Finset String :=
  close (fun callee => inOrder (callers callee)) callables incomplete

def summaryIdentity (effects resources : Finset String) (complete : Bool) : String :=
  "b3:" ++ lib.blake3Hex (Identity.utf8Bytes "codefabric.common-analysis.callable-summary.v1\x00" ++
      [if complete then 1 else 0] ++
      Identity.utf8Bytes "e" ++ (inOrder effects).flatMap framed ++
      Identity.utf8Bytes "r" ++ (inOrder resources).flatMap framed)

def summaryFact (family : Family) (callable value : String) (iterations : Nat) (complete : Bool) :
    FactRow :=
  ⟨family, callable, none, some value, none, commonInterproceduralRelease,
    commonInterproceduralPrecision, iterations, complete⟩

/-- The rows of one callable: its effects, its resources, then its summary. -/
def summaryFacts (summaries : Summaries) (iterations : Nat) (callable : String) : List FactRow :=
  let complete := decide (callable ∉ summaries.incomplete)
  (inOrder (summaries.effects callable)).map
      (summaryFact .callableEffect callable · iterations complete) ++
    (inOrder (summaries.resources callable)).map
      (summaryFact .callableResource callable · iterations complete) ++
    [summaryFact .callableSummary callable
      (summaryIdentity lib (summaries.effects callable) (summaries.resources callable) complete)
      iterations complete]

def emitCallableSummary (summaries : Summaries) (bounds : CommonAnalysisBounds)
    (callable : String) (s : AnalysisState) : AnalysisState :=
  let incomplete := callable ∈ summaries.incomplete
  let s := if incomplete then
      s.unknownAll summaryFamilies (some callable) "TRANSITIVE_SUMMARY_INCOMPLETE" none s.iterations
    else s
  let s := s.insertFacts (summaryFacts lib summaries s.iterations callable) bounds
  s.adjustAll summaryFamilies (if incomplete then (·.addUnknown 1) else (·.addCompleted 1))

/-- Propagation that ran out of rounds leaves every callable incomplete. -/
def emitConvergenceGap (callable : String) (s : AnalysisState) : AnalysisState :=
  let bound := (bounds.maxIterations : Nat)
  s.unknownAll summaryFamilies (some callable) "FIXED_POINT_CONVERGENCE_EXHAUSTED"
    (some s!"iteration_bound={bound}") s.iterations

/-! ## The call stage -/

def unresolvedCount : Nat :=
  (input.calls.filter fun call => call.resolution.gap.isSome).length

def requestCalls : AnalysisState :=
  let callableCount := (callablesOf input).card
  let s := s.adjust .callGraph fun _ => .requesting input.calls.length
  let s := s.adjustAll topologyFamilies fun _ =>
    .requesting (saturatingAdd callableCount (unresolvedCount input))
  s.adjustAll summaryFamilies fun _ => .requesting callableCount

/-- The call graph is larger than the bounds allow. -/
def CallsExceed : Prop :=
  bounds.maxCallables < (callablesOf input).card ∨ bounds.maxCallSites < input.calls.length
  deriving Decidable

/-- Every call family is a gap when the call graph is too large. -/
def exhaustCalls : AnalysisState :=
  let callableCount := (callablesOf input).card
  let callCount := input.calls.length
  let callableBound := (bounds.maxCallables : Nat)
  let callBound := (bounds.maxCallSites : Nat)
  let s := s.unknownAll callFamilies none "CALL_GRAPH_RESOURCE_BOUND_EXHAUSTED"
    (some (s!"callables={callableCount} call_sites={callCount} " ++
      s!"callable_bound={callableBound} call_site_bound={callBound}")) 0
  s.adjustAll callFamilies fun progress => { progress with unknown := progress.requested }

def deriveTopology (input : CommonDerivedAnalysisInput)
    (exactCalls : List ExactCall) (components : List (List String))
    (bounds : CommonAnalysisBounds) (s : AnalysisState) : AnalysisState :=
  let adjacent := adjacency exactCalls
  let topologyComplete := unresolvedCount input = 0 ∧ input.covers .callTargets
  let s := forEach exactCalls (emitCall bounds) s
  let s := forEach input.calls emitCallGap s
  let s := forEach components (emitComponent lib adjacent topologyComplete bounds) s
  deriveReachability (callablesOf input) adjacent topologyComplete bounds s

/-- The summaries propagation ends with, and whether its rounds ran out. -/
def deriveSummaries (exactCalls : List ExactCall)
    (components schedule : List (List String)) (bounds : CommonAnalysisBounds)
    (s : AnalysisState) : Summaries × AnalysisState :=
  let callables := callablesOf input
  let adjacent := adjacency exactCalls
  let (exhausted, summaries, s) := propagateSummaries schedule adjacent bounds
    (seedSummaries input bounds adjacent components) s
  let s := if exhausted then forEach (inOrder callables) (emitConvergenceGap bounds) s else s
  let incomplete := if exhausted then summaries.incomplete ∪ callables else summaries.incomplete
  ({ summaries with incomplete :=
      propagateIncompleteCallers callables (reverseCallers exactCalls) incomplete }, s)

def deriveCallFamilies (input : CommonDerivedAnalysisInput)
    (exactCalls : List ExactCall) (bounds : CommonAnalysisBounds) (s : AnalysisState) :
    Except CommonDerivedAnalysisError (AnalysisState × (String → Finset String)) :=
  let callables := callablesOf input
  let s := requestCalls input s
  if CallsExceed input bounds then
    .ok (exhaustCalls input bounds s, fun _ => ∅)
  else do
    let graph ← buildCallGraph callables exactCalls
    let components := deterministicSccs lib graph
    let s := deriveTopology lib input exactCalls components bounds s
    let s := forEach (inOrder callables) (emitSeedGap input bounds) s
    let schedule ← fixedPointSchedule lib graph components
    let (summaries, s) := deriveSummaries input exactCalls components schedule bounds s
    return (forEach (inOrder callables) (emitCallableSummary lib summaries bounds) s,
      reverseCallers exactCalls)

/-! ## Invalidation -/

def affectedCallables (callables : Finset String) (callers : String → Finset String)
    (callable : String) : Finset String :=
  close (fun callee => inOrder (callers callee)) (insert callable callables) {callable}

def invalidatedBy (callables : Finset String) (callers : String → Finset String) :
    CommonChangedScope → Finset InvalidationRow
  | .owner owner => (cfgFamilies ++ [Family.dataDependence]).toFinset.image
      (⟨·, "owner", owner, "OWNER_INPUT_CHANGED"⟩)
  | .module module => callFamilies.toFinset.image (⟨·, "module", module, "MODULE_INPUT_CHANGED"⟩)
  | .callable callable => (affectedCallables callables callers callable).biUnion fun affected =>
    summaryFamilies.toFinset.image (⟨·, "callable", affected, "TRANSITIVE_CALLEE_INPUT_CHANGED"⟩)

def deriveInvalidation (callers : String → Finset String) (s : AnalysisState) : AnalysisState :=
  { s with invalidation := s.invalidation ∪
      input.changedScopes.biUnion (invalidatedBy (callablesOf input) callers) }

/-! ## Upstream gaps -/

def CommonInputFamily.derived : CommonInputFamily → List Family
  | .cfg => cfgFamilies
  | .defUseReaching => [.dataDependence]
  | .callTargets => callFamilies
  | .localEffectResource => summaryFamilies

/-- The lower-case hexadecimal digits of a byte string. -/
def hexFull (bytes : Vector UInt8 32) : String :=
  String.ofList (bytes.toList.flatMap fun byte =>
    [Nat.digitChar (byte.toNat / 16), Nat.digitChar (byte.toNat % 16)])

/-- The gap of one derived family when its input is not complete. -/
def CommonInputCoverage.gap (coverage : CommonInputCoverage) (progress : Progress) : Progress where
  requested := saturatingAdd progress.requested
    (saturatingAdd coverage.remainderUnits coverage.unknownUnits)
  completed := progress.completed
  remainder := saturatingAdd progress.remainder coverage.remainderUnits
  unknown := saturatingAdd progress.unknown coverage.unknownUnits

/-- Carry the gaps of one input family over to what is derived from it. -/
def applyCoverage
    (inputFamily : CommonInputFamily) : Except CommonDerivedAnalysisError AnalysisState := do
  let coverage ← okOr (input.coverage inputFamily) (.missingCoverage inputFamily)
  if coverage.isComplete then return s
  else
    let family := inputFamily.debug
    let remainder := coverage.remainderUnits
    let unknown := coverage.unknownUnits
    let proof := hexFull coverage.executionProofPin
    let s := s.unknownAll inputFamily.derived none "UPSTREAM_INPUT_INCOMPLETE"
      (some s!"input_family={family} remainder={remainder} unknown={unknown} proof={proof}")
      s.iterations
    return s.adjustAll inputFamily.derived coverage.gap

def applyUpstreamCoverage : Except CommonDerivedAnalysisError AnalysisState :=
  CommonInputFamily.all.foldlM (applyCoverage input) s

/-! ## The analysis -/

def Family.all : List Family :=
  cfgFamilies ++ [.dataDependence] ++ callFamilies

/-- A family that lost a fact to the row bound has a gap. -/
def reportExhausted (family : Family) (s : AnalysisState) : AnalysisState :=
  if family ∈ s.outputExhaustedFamilies then
    (s.unknown family none "OUTPUT_ROW_BOUND_EXHAUSTED"
      (some "semantic fact output exceeded the configured row bound") s.iterations).adjust family
        fun progress =>
          { progress with
            requested := saturatingAdd progress.requested 1
            unknown := saturatingAdd progress.unknown 1 }
  else s

/-- Run the analysis: its facts, unknown rows, counters and invalidations are the emitted
relations. -/
def analyzeCommonDerived (input : CommonDerivedAnalysisInput)
    (bounds : CommonAnalysisBounds) : Except CommonDerivedAnalysisError AnalysisState := do
  validateProvenance input.provenance
  validateInput input
  validateCoverage input.coverage
  let staged ← splitStage (lib.distinctSorted (stageRows input))
  let s ← deriveCfgFamilies lib input staged.cfg bounds .initial
  let s := deriveDataDependence input staged.data bounds s
  let (s, callers) ← deriveCallFamilies lib input staged.calls bounds s
  let s := deriveInvalidation input callers s
  let s ← applyUpstreamCoverage input s
  return forEach Family.all reportExhausted s

end CodeFabric.Derived
