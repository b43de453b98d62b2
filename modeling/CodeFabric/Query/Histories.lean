import CodeFabric.Query.Realization

/-! # Histories of the coordinator

The operations of the coordinator as one alphabet, and the histories they make. With successful
journal writes the books are right after every history. -/

namespace CodeFabric.Query

open CodeFabric.Command Fallible TreeMaps Procedures Interleaving Runs

/-- The operations of the coordinator. `signal` is the first critical section of a `cancel` whose
second one, a `terminal`, comes after other operations. -/
inductive CoordinatorOperation
  | accept (operation : NormalizedQueryOperation) (observedAt : Int)
  | appendEvent (queryId : QueryId) (payload : QueryControlEventPayload) (observedAt : Int)
  | reconcilePublication (queryId : QueryId) (previous retained : PendingResultObjectSet)
      (observedAt : Int)
  | terminal (queryId : QueryId) (ending : QueryTerminalState) (publicCode : Option String)
      (actualResult : Option (Nat × Nat)) (observedAt : Int)
  | signal (queryId : QueryId)
  | cancel (queryId : QueryId) (observedAt : Int)
  | cancelIdempotent (queryId : QueryId) (cancellationId : String) (observedAt : Int)
  | releaseResult (queryId : QueryId)
  | markResultCleanupComplete (queryId : QueryId)
  | collectExpired (observedAt : Int)

inductive CoordinatorReply
  | accepted (outcome : QueryAcceptanceOutcome)
  | appended (event : QueryControlEvent)
  | closed (event : QueryControlEvent)
  | signalled (queued : Bool)
  | cancelled (outcome : QueryCancellationOutcome)
  | collected (count : Nat)
  | done
  deriving DecidableEq

variable (coordinator : QueryCoordinator)

def CoordinatorOperation.procedure : CoordinatorOperation → CoordinatorM CoordinatorReply
  | accept operation observedAt => do
    let outcome ← Query.accept coordinator operation observedAt
    return .accepted outcome
  | appendEvent queryId payload observedAt => do
    let event ← Query.appendEvent coordinator queryId payload observedAt
    return .appended event
  | reconcilePublication queryId previous retained observedAt => do
    let event ← reconcilePublicationAfterCleanup coordinator queryId previous retained observedAt
    return .appended event
  | terminal queryId ending publicCode actualResult observedAt => do
    let event ← Query.terminal coordinator queryId ending publicCode actualResult observedAt
    return .closed event
  | signal queryId => do
    let queued ← Query.signal queryId
    return .signalled queued
  | cancel queryId observedAt => do
    Query.cancel coordinator queryId observedAt
    return .done
  | cancelIdempotent queryId cancellationId observedAt => do
    let outcome ← Query.cancelIdempotent coordinator queryId cancellationId observedAt
    return .cancelled outcome
  | releaseResult queryId => do
    Query.releaseResult queryId
    return .done
  | markResultCleanupComplete queryId => do
    Query.markResultCleanupComplete queryId
    return .done
  | collectExpired observedAt => do
    let count ← Query.collectExpired coordinator observedAt
    return .collected count

/-- One operation of a history: what was asked, the calls it made and what it returned. -/
structure Invocation where
  operation : CoordinatorOperation
  calls : Calls
  result : Except CoordinatorError CoordinatorReply

/-- One operation taking the coordinator from one state to the next. -/
def Step (state : CoordinatorState) (invocation : Invocation) (after : CoordinatorState) : Prop :=
  (invocation.operation.procedure coordinator).Yields state invocation.calls invocation.result after

variable {coordinator} {state after : CoordinatorState}

/-- **Every operation is realized** by moves and at most one scan. -/
theorem wp_operation (hs : Coherent coordinator state) (operation : CoordinatorOperation) :
    wp (operation.procedure coordinator) state (Realized coordinator true state) := by
  cases operation with
  | accept operation observedAt => exact Realized.return (wp_accept hs operation observedAt)
  | appendEvent queryId payload observedAt =>
    exact Realized.weaken (Realized.return (wp_appendEvent hs payload observedAt none))
  | reconcilePublication queryId previous _ observedAt =>
    exact Realized.weaken (Realized.return (wp_appendEvent hs _ observedAt (some previous)))
  | terminal queryId _ _ _ observedAt =>
    exact Realized.return (wp_terminal hs _ _ _ _)
  | signal queryId => exact Realized.weaken (Realized.return (wp_signal hs))
  | cancel queryId observedAt => exact Realized.return (wp_cancel hs observedAt)
  | cancelIdempotent queryId _ observedAt =>
    exact Realized.return (wp_cancelIdempotent hs _ _)
  | releaseResult queryId => exact Realized.weaken (Realized.return (wp_releaseResult hs))
  | markResultCleanupComplete queryId =>
    exact Realized.weaken (Realized.return (wp_markResultCleanupComplete hs))
  | collectExpired observedAt => exact Realized.return (wp_collectExpired hs observedAt)

/-- One operation whose journal writes succeeded is moves and perhaps a dispatch, with these
writes. -/
theorem Step.realized {invocation : Invocation} (step : Step coordinator state invocation after)
    (hs : Coherent coordinator state) (hwr : Written invocation.calls) :
    Conducts coordinator true state (journalWrites invocation.calls) after ∧
      invocation.result ≠ .error .coordinatorState :=
  yields_of_wp (wp_operation hs invocation.operation) step hwr

abbrev History := List (Transition CoordinatorState Invocation)

/-- Every journal write of a history succeeded. -/
def History.Written (history : History) : Prop := ∀ x ∈ history, Query.Written x.label.calls

def History.writes (history : History) : List JournalWrite :=
  history.flatMap fun x => journalWrites x.label.calls

/-- A history whose writes succeed makes the changes of its journal writes. -/
theorem changes_of_history {history : History} (run : Run (Step coordinator) state history after)
    (hwr : history.Written) (hs : Coherent coordinator state) :
    Changes coordinator state history.writes after ∧
      ∀ x ∈ history, x.label.result ≠ .error .coordinatorState := by
  induction run with
  | nil => exact ⟨.refl _, by simp⟩
  | cons step _ ih =>
    obtain ⟨hh, ht⟩ := List.forall_mem_cons.1 hwr
    obtain ⟨hcon, hres⟩ := step.realized hs hh
    obtain ⟨hrs, hresul⟩ := ih ht (hcon.coherent hs)
    exact ⟨hcon.changes.trans hrs, List.forall_mem_cons.2 ⟨hres, hresul⟩⟩

/-- **Query coordinator accounting.** After every history whose journal writes succeeded, the
counters, the queue and the tables agree with the queries, the caps of the policy hold, and no
operation failed with the internal state error. -/
theorem coordinator_accounting {history : History}
    (run : Run (Step coordinator) .default history state) (hwritten : history.Written) :
    Coherent coordinator state ∧ EventBytesBounded coordinator state ∧
      ∀ x ∈ history, x.label.result ≠ .error .coordinatorState := by
  obtain ⟨⟨_, changes, -⟩, hres⟩ :=
    changes_of_history run hwritten (coherent_default coordinator)
  have hcoh := changes.invariant (fun _ _ _ change => change.coherent)
    (coherent_default coordinator)
  have hb : EventBytesBounded coordinator state := by
    refine changes.invariant (fun _ _ _ change => change.eventBytesBounded) ?_
    intro _ _ hfd
    simp [CoordinatorState.default] at hfd
  exact ⟨hcoh, hb, hres⟩

/-! ## Histories under given answers -/

/-- The history of a list of operations whose effects a function answers. -/
def performed (coordinator : QueryCoordinator) (answers : (e : Effect) → Response e) :
    List CoordinatorOperation → CoordinatorState → History × CoordinatorState
  | [], state => ([], state)
  | operation :: rest, state =>
    let (calls, result, after) :=
      answered answers ((operation.procedure coordinator).start state)
    let (history, last) := performed coordinator answers rest after
    (⟨state, ⟨operation, calls, result⟩, after⟩ :: history, last)

/-- Operations performed in turn are a run. -/
theorem run_performed (answers : (e : Effect) → Response e)
    (operations : List CoordinatorOperation) (state : CoordinatorState) :
    Run (Step coordinator) state (performed coordinator answers operations state).1
      (performed coordinator answers operations state).2 := by
  induction operations generalizing state with
  | nil => exact .nil state
  | cons operation operations ih =>
    have step := yields_answered answers ((operation.procedure coordinator).start state)
    exact .cons step (ih _)

def successful : (e : Effect) → Response e
  | .childScope _ => Except.ok ()
  | .reserve _ => Except.ok ()
  | .journal _ => Except.ok ()
  | .joinScope _ => Except.ok ()

protected theorem Written.performed (operations : List CoordinatorOperation)
    (state : CoordinatorState) :
    (performed coordinator successful operations state).1.Written := by
  induction operations generalizing state with
  | nil => exact fun x hx => absurd hx List.not_mem_nil
  | cons _ operations ih =>
    refine List.forall_mem_cons.2 ⟨fun _ he => ?_, ih _⟩
    obtain ⟨call, hc, hjr⟩ := List.mem_filterMap.1 he
    have hans := answered_calls successful _ call hc
    obtain ⟨_ | _ | _ | _, _⟩ := call
    · exact absurd hjr nofun
    · exact absurd hjr nofun
    · cases hjr
      exact hans
    · exact absurd hjr nofun

/-! ## A small coordinator -/

/-- External functions for small histories: a polynomial hash, the canonical request `{}`, and
event and record encodings of fixed length. -/
def sampleCodec : Codec where
  blake3 bytes :=
    let digest := bytes.foldl (fun value byte => (value * 257 + byte.toNat + 1) % 256 ^ 32) 0
    Vector.ofFn fun index : Fin 32 => UInt8.ofNat (digest / 256 ^ (31 - index.val))
  canonicalize bytes := if bytes = [123, 125] then some bytes else none
  eventLength _ := 128

/-- Two running queries, one per workspace and principal. -/
def samplePolicy : QueryCoordinatorPolicy where
  maxRunning := 2
  maxRunningPerWorkspace := 1
  maxRunningPerPrincipal := 1
  maxQueued := 16
  maxTasks := 16
  maxEventsPerQuery := 16
  maxEventBytesPerQuery := 32 * 1024
  maxTotalResultBytes := 1024
  maxTotalResultPages := 64
  maxRecoveryRecords := 64
  maxRunning_pos := by decide
  maxRunningPerWorkspace_pos := Nat.one_pos
  maxRunningPerPrincipal_pos := Nat.one_pos
  maxQueued_pos := by decide
  maxTasks_pos := by decide
  maxEventBytesPerQuery_pos := by decide
  maxTotalResultBytes_pos := by decide
  maxTotalResultPages_pos := by decide
  maxRecoveryRecords_pos := by decide
  workspace_le := by decide
  principal_le := by decide
  three_le_events := by decide
  events_lt := by decide
  eventBytes_lt := by decide
  resultBytes_lt := by decide
  resultPages_lt := by decide

def sampleCoordinator : QueryCoordinator := ⟨samplePolicy, 1, sampleCodec⟩

def sampleOperation (owner : UInt8) (key : String) : NormalizedQueryOperation where
  workspaceId := ⟨.replicate 16 owner⟩
  principalId := ⟨.replicate 16 owner⟩
  policyGeneration := 7
  revocationGeneration := 3
  sessionSharingClass := .principalBound
  idempotencyKey := key
  canonicalRequest := [123, 125]
  semanticProfile := "semantic"
  requestContract := "request"
  responseContract := "response"
  deliveryProfile := "delivery"
  compressionProfile := "compression"
  freshnessPolicy := "freshness"
  epochPolicy := "epoch"
  deadlineUnixMs := 1000
  leaseExpiresAtUnixMs := 2000
  maximumResultBytes := 64
  maximumResultPages := 4

def sampleQuery (owner : UInt8) (key : String) : QueryId :=
  ⟨(sampleOperation owner key).fingerprint sampleCodec.blake3⟩

/-- Three accepted queries of two owners; the first fails and makes room for the second. -/
def sampleOperations : List CoordinatorOperation :=
  [.accept (sampleOperation 1 "a") 10, .accept (sampleOperation 1 "b") 20,
    .accept (sampleOperation 2 "c") 30, .terminal (sampleQuery 1 "a") .failed none none 40]

/-- The books after these operations: the freed slot went to the query that waited for it. -/
theorem sample_accounting :
    ((performed sampleCoordinator successful sampleOperations .default).2.running = 2 ∧
      (performed sampleCoordinator successful sampleOperations .default).2.queue = [] ∧
      (performed sampleCoordinator successful sampleOperations .default).2.reservedResultBytes =
        128) ∧
    Coherent sampleCoordinator (performed sampleCoordinator successful sampleOperations
      .default).2 :=
  ⟨by decide +kernel, (coordinator_accounting (run_performed _ _ _) (.performed _ _)).1⟩

end CodeFabric.Query
