import CodeFabric.Budget.Policy
import CodeFabric.Support.Graphs
import CodeFabric.Support.TreeMaps

/-! # Block outcomes

The outcome table of a query's blocks (`fabric/query_block_outcomes.rs` and
`semantic_query_contract/block_outcome.rs`): it is read from the semantic response, blocks are
marked failed or not executed, and it is written back for the manifest.

The JSON response is given by the members that are read, as `serde_json` decodes them. petgraph's
topological sort fails exactly on a cycle; here it is the sort of the graph library. -/

namespace CodeFabric.Result

open Fallible

/-! ## Errors -/

inductive ArrowError
  | divideByZero | arithmeticOverflow | castError | computeError | other
  deriving DecidableEq, Repr

inductive DataFusionError
  | execution (detail : String)
  | arrowError (error : ArrowError)
  | other (detail : String)
  deriving DecidableEq, Repr

/-- Malformed computation inputs of one block; every other failure ends the request. -/
def isolatedExecutionError : DataFusionError → Bool
  | .execution _ => true
  | .arrowError error => error != .other
  | .other _ => false

/-- The failures of a package (`StreamedResultPackageError`) that the modelled functions return.
`external` are those of Arrow, DataFusion and JSON encodings. -/
inductive StreamedResultPackageError
  | external (detail : String)
  | objectLength
  | resource (error : Budget.ResourceBudgetError)
  | invalidPins
  | relationLimit (observed limit : Nat)
  | duplicateRelation (relation : String)
  | streamSchemaDrift (relation : String)
  | invalidRelationRowLimit (relation : String)
  | relationRowLimit (relation : String) (observed limit : Nat)
  | pageLimit (observed limit : Nat)
  | pageByteLimit (observed limit : Nat)
  | totalRowLimit (observed limit : Nat)
  | totalByteLimit (observed limit : Nat)
  | manifestLimit (observed limit : Nat)
  | provenanceLimit
  | invalidProvenance
  | nonCanonicalResponse
  | manifestShape
  | manifestTotals
  | cancelled
  | deadlineExceeded
  | publicationIntent
  | counterOverflow
  | dataFusion (error : DataFusionError)
  | objectStore
  | expired
  | unknownPage (ordinal : Nat)
  | invalidReadRange
  | pageIntegrity (ordinal : Nat)
  | canonicalResponse
  deriving DecidableEq, Repr

/-! ## Outcomes -/

inductive QueryBlockExecutionState
  | complete
  | failed
  | notExecutedDependency
  deriving DecidableEq, Repr

/-- One reason why a block has no result. -/
structure QueryBlockIssue where
  code : String
  subjectId : String
  relatedId : Option String
  deriving DecidableEq, Repr

structure QueryBlockOutcome where
  queryId : String
  executionState : QueryBlockExecutionState
  errors : List QueryBlockIssue
  deriving DecidableEq, Repr

/-- Text that is not empty, not longer than a maximum, and without a zero character. -/
def boundedText (value : String) (maximum : Nat) : Bool :=
  !value.isEmpty && decide (value.utf8ByteSize ≤ maximum) && !value.toList.contains '\x00'

def QueryBlockIssue.valid (issue : QueryBlockIssue) : Bool :=
  boundedText issue.code 128 && boundedText issue.subjectId 512 &&
    issue.relatedId.all (boundedText · 512)

/-- An outcome is bounded, and its issues agree with its state. -/
def QueryBlockOutcome.valid (outcome : QueryBlockOutcome) : Bool :=
  boundedText outcome.queryId 128 && decide (outcome.errors.length ≤ 128) &&
    outcome.errors.all QueryBlockIssue.valid &&
    match outcome.executionState with
    | .complete => outcome.errors.isEmpty
    | .failed => !outcome.errors.isEmpty
    | .notExecutedDependency => !outcome.errors.isEmpty && outcome.errors.all fun error =>
      error.code == "NOT_EXECUTED_DEPENDENCY" && error.relatedId.isSome

/-- One element of the `queries` array: its two members, if they are texts. -/
structure QueryBinding where
  queryId : Option String
  relationId : Option String
  deriving DecidableEq, Repr

/-- The members of the semantic response that are read here. `queries` is absent if the response
has no such array; `queryResults` is absent if there is no such member, and holds nothing if it is
there and does not decode. -/
structure SemanticResponse where
  queries : Option (List QueryBinding)
  queryResults : Option (Option (List QueryBlockOutcome))
  deriving DecidableEq, Repr

/-- The outcome table, with the relation of each complete block it was read with. -/
structure QueryBlockOutcomes where
  outcomes : List QueryBlockOutcome
  bindings : Std.ExtTreeMap String String

namespace QueryBlockOutcomes

/-! ## Reading the table -/

variable (outcomes : List QueryBlockOutcome) (table : QueryBlockOutcomes) (relation : String)

/-- The dependencies a table names, from the producer to the block that was not executed. Validity
has made sure that each issue names one. -/
def dependencies : List (String × String) :=
  (outcomes.filter (·.executionState == .notExecutedDependency)).flatMap fun row =>
    row.errors.filterMap fun error => error.relatedId.map (·, row.queryId)

def stateOf (query : String) : Option QueryBlockExecutionState :=
  (outcomes.find? (·.queryId == query)).map QueryBlockOutcome.executionState

def graph : Digraph String :=
  ⟨outcomes.map QueryBlockOutcome.queryId, dependencies outcomes⟩

/-- Add one binding; neither its block nor its relation may be bound. -/
def addBinding (bound : Std.ExtTreeMap String String × Std.ExtTreeSet String)
    (binding : QueryBinding) :
    Except StreamedResultPackageError (Std.ExtTreeMap String String × Std.ExtTreeSet String) := do
  let query ← okOr binding.queryId .manifestShape
  let relation ← okOr binding.relationId .manifestShape
  ensure (¬(query ∈ bound.1 ∨ relation ∈ bound.2)) .manifestShape
  return (bound.1.insert query relation, bound.2.insert relation)

def completeIds : List String :=
  (outcomes.filter (·.executionState == .complete)).map QueryBlockOutcome.queryId

/-- Read and validate the table of a response, if it has one. -/
def parse (response : SemanticResponse) :
    Except StreamedResultPackageError (Option QueryBlockOutcomes) :=
  match response.queryResults with
  | none => .ok none
  | some decoded => do
    let outcomes ← okOr decoded .canonicalResponse
    ensure (¬(outcomes.isEmpty ∨ ¬(outcomes.map QueryBlockOutcome.queryId).Nodup ∨
      outcomes.any fun row => !row.valid)) .manifestShape
    ensure (∀ edge ∈ dependencies outcomes, stateOf outcomes edge.1 = some .failed ∨
      stateOf outcomes edge.1 = some .notExecutedDependency) .manifestShape
    ensure (graph outcomes).topologicalOrder.isSome .manifestShape
    let queries ← okOr response.queries .manifestShape
    let (byQuery, _) ← queries.foldlM addBinding (∅, ∅)
    ensure ((∀ query ∈ byQuery.keys, query ∈ completeIds outcomes) ∧
      ∀ query ∈ completeIds outcomes, query ∈ byQuery) .manifestShape
    return some ⟨outcomes, byQuery⟩

/-! ## Questions -/

def allFailed : Bool :=
  table.outcomes.all fun row => row.executionState != .complete

def queryId : Option String :=
  (table.bindings.toList.find? fun entry => entry.2 == relation).map Prod.fst

def complete (table : QueryBlockOutcomes) (query : String) : Bool :=
  table.outcomes.any fun row => row.queryId == query && row.executionState == .complete

/-! ## Marking a block -/

def executionIssue (query : String) : QueryBlockIssue := ⟨"QUERY_EXECUTION_FAILED", query, none⟩

/-- The issue of a block one of whose producers is not complete. -/
def dependencyIssue (query related : String) : QueryBlockIssue :=
  ⟨"NOT_EXECUTED_DEPENDENCY", query, some related⟩

/-- The issue that names a producer, which must be a known block that is not complete. -/
def issueFor (query relation : String) : Except StreamedResultPackageError QueryBlockIssue := do
  let related ← okOr (table.queryId relation) .manifestShape
  ensure (¬table.complete related) .manifestShape
  return dependencyIssue query related

/-- Mark the block of a relation, which must be complete, as failed or, with dependencies, as not
executed. -/
def fail (dependencies : List String) : Except StreamedResultPackageError QueryBlockOutcomes := do
  let query ← okOr (table.queryId relation) .manifestShape
  let errors ← if dependencies.isEmpty then .ok [executionIssue query]
    else dependencies.mapM (table.issueFor query)
  let index ← okOr (table.outcomes.findIdx? (·.queryId == query)) .manifestShape
  let outcome ← okOr table.outcomes[index]? .manifestShape
  ensure (outcome.executionState = .complete) .manifestShape
  return { table with outcomes := table.outcomes.set index { outcome with
    executionState := if dependencies.isEmpty then .failed else .notExecutedDependency
    errors } }

def failExecution : Except StreamedResultPackageError QueryBlockOutcomes :=
  table.fail relation []

/-! ## Writing it back -/

/-- Put the table back, with the bindings of the complete blocks only. -/
def writeResponse (response : SemanticResponse) :
    Except StreamedResultPackageError SemanticResponse := do
  let queries ← okOr response.queries .manifestShape
  return ⟨some (queries.filter fun binding => binding.queryId.any table.complete),
    some (some table.outcomes)⟩

/-- The relations of a manifest are those of the complete blocks. -/
def validateRelations (relations : List String) : Except StreamedResultPackageError Unit :=
  let bound := (table.bindings.toList.filter fun entry => table.complete entry.1).map Prod.snd
  ensure ((∀ relation ∈ bound, relation ∈ relations) ∧ ∀ relation ∈ relations, relation ∈ bound)
    .manifestShape

end QueryBlockOutcomes

end CodeFabric.Result
