import CodeFabric.Query.Events
import CodeFabric.Support.Procedure

/-! # The query coordinator

The coordinator of `fabric/query_coordinator.rs`: the handles of accepted queries, the counters and
the queue kept beside them, and the operations that admit, run, close, release and expire queries.

Every operation is one critical section, except `cancel`, whose first section is `signal`.
Waiters, task scopes and attached tasks are left out: no operation here reads them. -/

namespace CodeFabric.Query

open CodeFabric.Command CodeFabric.Budget Fallible Procedures

/-! ## Records and handles -/

structure QueryAcceptance where
  queryId : QueryId
  operationFingerprint : String
  acceptedAtUnixMs : Int
  leaseExpiresAtUnixMs : Int
  generation : Nat
  phase : QueryExecutionPhase
  deriving DecidableEq

structure DurableQueryRecord where
  acceptance : QueryAcceptance
  workspaceId : String
  principalId : String
  policyGeneration : Nat
  revocationGeneration : Nat
  sessionSharingClass : QuerySessionSharingClass
  idempotencyKey : String
  operationFingerprint : String
  semanticProfile : String
  reservedResultBytes : Nat
  reservedResultPages : Nat
  cancellationIds : Std.ExtTreeSet String
  resultRetention : ResultRetentionState
  events : List QueryControlEvent
  deriving DecidableEq

/-- The coordinator's own state of a query. -/
structure QueryHandle where
  operation : NormalizedQueryOperation
  acceptance : QueryAcceptance
  fingerprint : Fingerprint
  cancelled : Bool
  cancellationIds : Std.ExtTreeSet String
  events : List QueryControlEvent
  eventBytes : Nat
  resultRetention : ResultRetentionState
  deriving DecidableEq

/-- The record the journal keeps of a handle (`durable_record`). -/
def durableRecord (handle : QueryHandle) : DurableQueryRecord where
  acceptance := handle.acceptance
  workspaceId := hex handle.operation.workspaceId.asBytes.toList
  principalId := hex handle.operation.principalId.asBytes.toList
  policyGeneration := handle.operation.policyGeneration
  revocationGeneration := handle.operation.revocationGeneration
  sessionSharingClass := handle.operation.sessionSharingClass
  idempotencyKey := handle.operation.idempotencyKey
  operationFingerprint := hex handle.fingerprint.toList
  semanticProfile := handle.operation.semanticProfile
  reservedResultBytes := handle.operation.maximumResultBytes
  reservedResultPages := handle.operation.maximumResultPages
  cancellationIds := handle.cancellationIds
  resultRetention := handle.resultRetention
  events := handle.events

namespace QueryHandle

def phase (handle : QueryHandle) : QueryExecutionPhase := handle.acceptance.phase

variable (handle : QueryHandle) (phase : QueryExecutionPhase)

def setPhase : QueryHandle :=
  { handle with acceptance := { handle.acceptance with phase } }

@[simp] theorem setPhase_phase : (handle.setPhase phase).phase = phase := rfl

@[simp] theorem setPhase_operation : (handle.setPhase phase).operation = handle.operation := rfl

@[simp] theorem setPhase_resultRetention :
    (handle.setPhase phase).resultRetention = handle.resultRetention := rfl

@[simp] theorem setPhase_events : (handle.setPhase phase).events = handle.events := rfl

end QueryHandle

/-- The state behind the coordinator's lock. -/
structure CoordinatorState where
  handles : Std.ExtTreeMap QueryId QueryHandle
  idempotency : Std.ExtTreeMap IdempotencyScope QueryId
  queue : List QueryId
  running : Nat
  runningByWorkspace : Std.ExtTreeMap WorkspaceId Nat
  runningByPrincipal : Std.ExtTreeMap PrincipalId Nat
  reservedResultBytes : Nat
  reservedResultPages : Nat
  taskReservations : Std.ExtTreeSet QueryId
  deriving DecidableEq

def CoordinatorState.default : CoordinatorState :=
  ⟨∅, ∅, [], 0, ∅, ∅, 0, 0, ∅⟩

def CoordinatorState.setHandle (state : CoordinatorState) (queryId : QueryId)
    (handle : QueryHandle) : CoordinatorState :=
  { state with handles := state.handles.insert queryId handle }

/-- The external functions of the coordinator: the hash, the canonical JSON check of a request and
the canonical length of an event. -/
structure Codec where
  blake3 : List UInt8 → Fingerprint
  canonicalize : List UInt8 → Option (List UInt8)
  eventLength : QueryControlEvent → Nat

/-- One coordinator: its limits, its generation and its external functions. -/
structure QueryCoordinator where
  policy : QueryCoordinatorPolicy
  generation : Nat
  codec : Codec

/-! ## Effects -/

inductive JournalWrite
  | create (record : DurableQueryRecord)
  | replace (record : DurableQueryRecord)
  | delete (queryId : QueryId)

/-- How a journal write fails. -/
inductive JournalError
  | state
  | encoding
  | sqlite
  | unknownQuery (queryId : QueryId)
  deriving DecidableEq

def JournalError.report : JournalError → CoordinatorError
  | .state => .journalState
  | .encoding => .journalEncoding
  | .sqlite => .sqlite
  | .unknownQuery queryId => .unknownQuery queryId

/-- What an operation asks of its surroundings. -/
inductive Effect
  | childScope (queryId : QueryId)
  | reserve (memoryBytes : Nat)
  | journal (write : JournalWrite)
  | joinScope (queryId : QueryId)

def Response : Effect → Type
  | .childScope _ | .joinScope _ => Except String Unit
  | .reserve _ => Except ResourceBudgetError Unit
  | .journal _ => Except JournalError Unit

abbrev CoordinatorM := Procedure Effect Response CoordinatorState CoordinatorError

def childScope (queryId : QueryId) : CoordinatorM Unit := do
  let answer : Except String Unit ← effect (Effect.childScope queryId)
  check (answer.mapError .structuredTask)

def reserve (memoryBytes : Nat) : CoordinatorM Unit := do
  let answer : Except ResourceBudgetError Unit ← effect (Effect.reserve memoryBytes)
  check (answer.mapError .resource)

def journal (write : JournalWrite) : CoordinatorM (Except JournalError Unit) :=
  effect (Effect.journal write)

/-- Write the journal, returning early when the write fails. -/
def write (entry : JournalWrite) : CoordinatorM Unit := do
  let answer ← journal entry
  check (answer.mapError JournalError.report)

def joinScope (queryId : QueryId) : CoordinatorM Unit := do
  let answer : Except String Unit ← effect (Effect.joinScope queryId)
  check (answer.mapError .structuredTask)

/-! ## Counters -/

/-- Take one running query off the counter of its scope; a counter at zero is removed. -/
def decrementScope {κ : Type} [Ord κ] [Std.TransOrd κ] (values : Std.ExtTreeMap κ Nat) (key : κ) :
    Except CoordinatorError (Std.ExtTreeMap κ Nat) := do
  let value ← okOr values[key]? .coordinatorState
  let next ← okOr (checkedSub value 1) .coordinatorState
  return if next = 0 then values.erase key else values.insert key next

/-- Give back a running slot (`release_running`). -/
def releaseRunning (workspace : WorkspaceId) (principal : PrincipalId) : CoordinatorM Unit := do
  let state ← read
  let running ← check (okOr (checkedSub state.running 1) .coordinatorState)
  update fun state => { state with running }
  let byWorkspace ← check (decrementScope state.runningByWorkspace workspace)
  update fun state => { state with runningByWorkspace := byWorkspace }
  let byPrincipal ← check (decrementScope state.runningByPrincipal principal)
  update fun state => { state with runningByPrincipal := byPrincipal }

/-- Give back a result reservation (`release_result_reservation`). -/
def releaseResultReservation (reservedBytes reservedPages : Nat) : CoordinatorM Unit := do
  let state ← read
  let bytes ← check (okOr (checkedSub state.reservedResultBytes reservedBytes) .coordinatorState)
  update fun state => { state with reservedResultBytes := bytes }
  let pages ← check (okOr (checkedSub state.reservedResultPages reservedPages) .coordinatorState)
  update fun state => { state with reservedResultPages := pages }

/-- Take a query out of the queue (`queue.retain`). -/
def unqueue (queryId : QueryId) : CoordinatorM Unit :=
  update fun state => { state with queue := state.queue.filter (· ≠ queryId) }

def releaseTask (queryId : QueryId) : CoordinatorM Unit :=
  update fun state => { state with taskReservations := state.taskReservations.erase queryId }

/-! ## Dispatch -/

/-- Whether a workspace or a principal has its running queries. -/
def CoordinatorState.Capped (policy : QueryCoordinatorPolicy) (state : CoordinatorState)
    (operation : NormalizedQueryOperation) : Prop :=
  policy.maxRunningPerWorkspace ≤ (state.runningByWorkspace[operation.workspaceId]?).getD 0 ∨
    policy.maxRunningPerPrincipal ≤ (state.runningByPrincipal[operation.principalId]?).getD 0
  deriving Decidable

def CoordinatorState.countRunning (state : CoordinatorState)
    (operation : NormalizedQueryOperation) : CoordinatorState :=
  { state with
    running := state.running + 1
    runningByWorkspace := state.runningByWorkspace.insert operation.workspaceId
      ((state.runningByWorkspace[operation.workspaceId]?).getD 0 + 1)
    runningByPrincipal := state.runningByPrincipal.insert operation.principalId
      ((state.runningByPrincipal[operation.principalId]?).getD 0 + 1) }

/-- The scan of `dispatch_locked`, with the number of queue entries it may still look at. -/
def dispatchScan (policy : QueryCoordinatorPolicy) : Nat → CoordinatorM Unit
  | 0 => pure ()
  | attempts + 1 => do
    let state ← read
    if state.running < policy.maxRunning then
      match state.queue with
      | [] => pure ()
      | queryId :: rest => do
        update fun state => { state with queue := rest }
        let handle ← check (okOr state.handles[queryId]? .coordinatorState)
        if handle.phase.isTerminal then
          dispatchScan policy attempts
        else if state.Capped policy handle.operation then do
          update fun state => { state with queue := rest ++ [queryId] }
          dispatchScan policy attempts
        else do
          update fun state => state.countRunning handle.operation
          -- The source reads the handle again; the counters do not touch it.
          update fun state => state.setHandle queryId (handle.setPhase .running)
          write (.replace (durableRecord (handle.setPhase .running)))
          dispatchScan policy attempts
    else
      pure ()

/-- Start queued queries while running slots are free (`dispatch_locked`). -/
def dispatchLocked (policy : QueryCoordinatorPolicy) : CoordinatorM Unit := do
  let state ← read
  dispatchScan policy state.queue.length

/-! ## Operations -/

variable (coordinator : QueryCoordinator) (operation : NormalizedQueryOperation)
  (events : List QueryControlEvent) (queryId : QueryId)

/-- The acceptance of a new query, or of the query an earlier acceptance created. -/
inductive QueryAcceptanceOutcome
  | new (acceptance : QueryAcceptance)
  | replay (acceptance : QueryAcceptance)
  deriving DecidableEq

/-- The capacity checks of a new query: the totals of reserved bytes and pages with it. -/
def admissionTotals (state : CoordinatorState) (operation : NormalizedQueryOperation)
    (queryId : QueryId) : Except CoordinatorError (Nat × Nat) := do
  ensure (¬(coordinator.policy.maxQueued ≤ state.queue.length ∨
    coordinator.policy.maxTasks ≤ state.taskReservations.size)) .admissionBackpressure
  let bytes ← okOr (checkedAdd 64 state.reservedResultBytes operation.maximumResultBytes)
    .counterOverflow
  let pages ← okOr (checkedAdd 64 state.reservedResultPages operation.maximumResultPages)
    .counterOverflow
  ensure (¬(coordinator.policy.maxTotalResultBytes < bytes ∨
    coordinator.policy.maxTotalResultPages < pages)) .resultCapacityBackpressure
  ensure (state.handles[queryId]? = none) .queryIdentityCollision
  return (bytes, pages)

def newHandle (fingerprint : Fingerprint) (observedAtUnixMs : Int) : QueryHandle where
  operation
  acceptance := {
    queryId := ⟨fingerprint⟩
    operationFingerprint := hex fingerprint.toList
    acceptedAtUnixMs := observedAtUnixMs
    leaseExpiresAtUnixMs := operation.leaseExpiresAtUnixMs
    generation := coordinator.generation
    phase := .queued }
  fingerprint
  cancelled := false
  cancellationIds := ∅
  events := []
  eventBytes := 0
  resultRetention := .reserved

/-- The metadata memory of a query: eight times the journal, twice the request and 128 KiB. -/
def metadataBytes : Option Nat := do
  let journalBytes ← checkedMul 64 coordinator.policy.maxEventBytesPerQuery 8
  let requestBytes ← checkedMul 64 operation.canonicalRequest.length 2
  let both ← checkedAdd 64 journalBytes requestBytes
  checkedAdd 64 both (128 * 1024)

/-- Enter a new query in every table. -/
def CoordinatorState.enroll (state : CoordinatorState) (handle : QueryHandle) (bytes pages : Nat) :
    CoordinatorState :=
  { state with
    reservedResultBytes := bytes
    reservedResultPages := pages
    idempotency := state.idempotency.insert handle.operation.scope handle.acceptance.queryId
    queue := state.queue ++ [handle.acceptance.queryId]
    taskReservations := state.taskReservations.insert handle.acceptance.queryId
    handles := state.handles.insert handle.acceptance.queryId handle }

/-- Reserve every bounded resource and return an exact new or replayed acceptance. -/
def accept (observedAtUnixMs : Int) : CoordinatorM QueryAcceptanceOutcome := do
  let operation ← check (operation.tryNew coordinator.codec.canonicalize)
  check (ensure (observedAtUnixMs < operation.deadlineUnixMs) .deadlineElapsed)
  let fingerprint := operation.fingerprint coordinator.codec.blake3
  let state ← read
  match state.idempotency[operation.scope]? with
  | some queryId => do
    let handle ← check (okOr state.handles[queryId]? .coordinatorState)
    check (ensure (handle.fingerprint = fingerprint) .idempotencyConflict)
    return .replay handle.acceptance
  | none => do
    let (bytes, pages) ← check (admissionTotals coordinator state operation ⟨fingerprint⟩)
    childScope ⟨fingerprint⟩
    let memoryBytes ← check (okOr (metadataBytes coordinator operation) .counterOverflow)
    reserve memoryBytes
    let handle := newHandle coordinator operation fingerprint observedAtUnixMs
    write (.create (durableRecord handle))
    update fun state => state.enroll handle bytes pages
    dispatchLocked coordinator.policy
    let state ← read
    let handle ← check (okOr state.handles[(⟨fingerprint⟩ : QueryId)]? .coordinatorState)
    return .new handle.acceptance

/-- How the pages of a checkpoint relate to those of the one before: they extend them, or, when the
writer names the checkpoint it cleaned up after, they are a proper prefix of them. -/
def PagesFollow (previous objectSet : PendingResultObjectSet) : Option PendingResultObjectSet → Prop
  | some expected => expected = previous ∧
      objectSet.pageObjectPaths.length < previous.pageObjectPaths.length ∧
      objectSet.pageObjectPaths <+: previous.pageObjectPaths
  | none => previous.pageObjectPaths.length < objectSet.pageObjectPaths.length ∧
      previous.pageObjectPaths <+: objectSet.pageObjectPaths

instance (previous objectSet : PendingResultObjectSet) (named : Option PendingResultObjectSet) :
    Decidable (PagesFollow previous objectSet named) :=
  match named with
  | some _ => inferInstanceAs (Decidable (_ ∧ _ ∧ _))
  | none => inferInstanceAs (Decidable (_ ∧ _))

/-- The rules of a publication checkpoint: within the accepted pages, before the result, and of the
same package as the previous checkpoint, whose pages it follows. -/
def checkPublication (handle : QueryHandle) (objectSet : PendingResultObjectSet)
    (cleanupPrecondition : Option PendingResultObjectSet) : Except CoordinatorError Unit := do
  ensure (objectSet.pageObjectPaths.length ≤ handle.operation.maximumResultPages) .journalCapacity
  ensure ((retainedLocator handle.events).isNone) .publicationIntentConflict
  match publicationIntent handle.events with
  | some previous =>
    ensure (previous.manifestObjectPath = objectSet.manifestObjectPath ∧
      previous.epochId = objectSet.epochId ∧
      previous.queryExecution = objectSet.queryExecution ∧
      PagesFollow previous objectSet cleanupPrecondition) .publicationIntentConflict
  | none => ensure cleanupPrecondition.isNone .publicationIntentMissing

/-- The rules of a published result: it is the last checkpoint, and the first result. -/
def checkResultReady (handle : QueryHandle) (locator : RetainedPackageLocator) :
    Except CoordinatorError Unit := do
  let expected ← okOr (publicationIntent handle.events) .publicationIntentMissing
  ensure (expected = pendingObjectSetFromLocator locator) .publicationIntentConflict
  ensure ((retainedLocator handle.events).isNone) .publicationIntentConflict

/-- The rules an event has to meet in the state of its query. -/
def checkPayload (handle : QueryHandle) (payload : QueryControlEventPayload)
    (cleanupPrecondition : Option PendingResultObjectSet) : Except CoordinatorError Unit :=
  match payload with
  | .publicationPending objectSet => checkPublication handle objectSet cleanupPrecondition
  | .resultReady _ _ _ _ _ _ locator => checkResultReady handle locator
  | _ => .ok ()

/-- The position of the last publication checkpoint (`rposition`). -/
def lastCheckpoint : Option Nat :=
  (events.reverse.findIdx? fun event => event.payload.isPublicationPending).map
    (events.length - 1 - ·)

/-- The event an appended event takes the place of: the last checkpoint for a checkpoint, the last
event for progress after progress. -/
def replacement (payload : QueryControlEventPayload) : Option Nat :=
  if payload.isPublicationPending then
    lastCheckpoint events
  else if payload.isProgress && (events.getLast?.any fun event => event.payload.isProgress) then
    some (events.length - 1)
  else
    none

def appendSequence (payload : QueryControlEventPayload) : Except CoordinatorError Nat :=
  match (replacement events payload).bind (events[·]?) with
  | some event => .ok event.sequence
  | none => nextSequence events

/-- An event list with an event appended, or put in the place of another. -/
def placeEvent (event : QueryControlEvent) : List QueryControlEvent :=
  match replacement events event.payload with
  | some index => events.set index event
  | none => events ++ [event]

/-- The length of the event that an appended event takes the place of. -/
def replacedBytes (codec : Codec) (events : List QueryControlEvent)
    (payload : QueryControlEventPayload) : Nat :=
  match (replacement events payload).bind (events[·]?) with
  | some event => codec.eventLength event
  | none => 0

/-- The checks of an appended event after its rules, and the handle with it: one event slot and a
tail of 1 KiB stay free for the terminal event. -/
def appendedHandle (handle : QueryHandle) (payload : QueryControlEventPayload)
    (observedAtUnixMs : Int) : Except CoordinatorError (QueryHandle × QueryControlEvent) := do
  let sequence ← appendSequence handle.events payload
  let event : QueryControlEvent := ⟨sequence, observedAtUnixMs, payload⟩
  let kept ← okOr (checkedSub handle.eventBytes
    (replacedBytes coordinator.codec handle.events payload)) .counterOverflow
  let nextBytes ← okOr (checkedAdd 64 kept (coordinator.codec.eventLength event)) .counterOverflow
  let events := placeEvent handle.events event
  ensure (¬(coordinator.policy.maxEventsPerQuery ≤ events.length ∨
    coordinator.policy.maxEventBytesPerQuery < min (nextBytes + 1024) (2 ^ 64 - 1)))
    .journalCapacity
  return ({ handle with events, eventBytes := nextBytes }, event)

/-- Append a control event, coalescing progress and the private publication checkpoint
(`append_event_with_cleanup_precondition`). -/
def appendEventWithCleanupPrecondition (payload : QueryControlEventPayload)
    (observedAtUnixMs : Int) (cleanupPrecondition : Option PendingResultObjectSet) :
    CoordinatorM QueryControlEvent := do
  check (ensure (¬payload.isTerminal) .terminalRequiresClosure)
  check (validateResultReadyPayload payload)
  check (validatePublicationPending payload)
  let state ← read
  let handle ← check (okOr state.handles[queryId]? (.unknownQuery queryId))
  check (ensure (¬handle.phase.isTerminal) .alreadyTerminal)
  check (checkPayload handle payload cleanupPrecondition)
  let (appended, event) ← check (appendedHandle coordinator handle payload observedAtUnixMs)
  update fun state => state.setHandle queryId appended
  write (.replace (durableRecord appended))
  return event

/-- Append a control event (`append_event`). -/
def appendEvent (payload : QueryControlEventPayload)
    (observedAtUnixMs : Int) : CoordinatorM QueryControlEvent :=
  appendEventWithCleanupPrecondition coordinator queryId payload observedAtUnixMs none

/-- Replace the exact private checkpoint after its writer deleted a trailing page set. -/
def reconcilePublicationAfterCleanup
    (previous retained : PendingResultObjectSet) (observedAtUnixMs : Int) :
    CoordinatorM QueryControlEvent :=
  appendEventWithCleanupPrecondition coordinator queryId (.publicationPending retained)
    observedAtUnixMs (some previous)

variable (handle : QueryHandle) (state : QueryTerminalState) (publicCode : Option String)
  (actualResult : Option (Nat × Nat)) (observedAtUnixMs : Int)

/-- A handle with its terminal event, if the reserved event slot and bytes are still there. -/
def closedHandle (observedAtUnixMs : Int) :
    Except CoordinatorError (QueryHandle × QueryControlEvent) := do
  let sequence ← nextSequence handle.events
  let event : QueryControlEvent := ⟨sequence, observedAtUnixMs, .terminal state publicCode⟩
  let nextBytes ← okOr (checkedAdd 64 handle.eventBytes (coordinator.codec.eventLength event))
    .counterOverflow
  ensure (¬(coordinator.policy.maxEventsPerQuery ≤ handle.events.length ∨
    coordinator.policy.maxEventBytesPerQuery < nextBytes)) .terminalReservationBroken
  let closed := handle.setPhase (.terminal state)
  return ({ closed with events := handle.events ++ [event], eventBytes := nextBytes }, event)

/-- What a successful end needs: a result within the reservation, published before. -/
def checkSucceeded : Except CoordinatorError Unit := do
  let (bytes, pages) ← okOr actualResult .resultMissing
  ensure (¬(handle.operation.maximumResultBytes < bytes ∨
    handle.operation.maximumResultPages < pages)) .resultReservationExceeded
  ensure (retainedLocator handle.events).isSome .resultMissing

/-- The checks of `terminal` that depend on how the query ends. -/
def checkEnd : Except CoordinatorError Unit :=
  if state = .succeeded then checkSucceeded handle actualResult else .ok ()

/-- A closed handle: a success keeps its reservation, any other end leaves at most objects. -/
def settleRetention (closed : QueryHandle) (state : QueryTerminalState) : QueryHandle :=
  if state = .succeeded then closed
  else { closed with resultRetention := abandonedRetention closed.events }

/-- The checks of `terminal` and the handle it leaves. -/
def terminalHandle : Except CoordinatorError (QueryHandle × QueryControlEvent) := do
  ensure (¬handle.phase.isTerminal) .alreadyTerminal
  checkEnd handle state actualResult
  let (closed, event) ← closedHandle coordinator handle state publicCode observedAtUnixMs
  return (settleRetention closed state, event)

/-- Give back the running slot of a query, or its place in the queue. -/
def releaseSlot : CoordinatorM Unit :=
  if handle.phase = .running then
    releaseRunning handle.operation.workspaceId handle.operation.principalId
  else
    unqueue queryId

/-- Give back the result reservation of a query, if it is to be given back. -/
def releaseHeld (release : Bool) : CoordinatorM Unit :=
  if release then
    releaseResultReservation handle.operation.maximumResultBytes handle.operation.maximumResultPages
  else
    pure ()

/-- Give back what a query held while it was not terminal. -/
def releaseClosed (release : Bool) : CoordinatorM Unit := do
  releaseSlot queryId handle
  releaseHeld handle release
  releaseTask queryId

/-- Close once, release running capacity, and retain or release the reserved result envelope. -/
def terminal : CoordinatorM QueryControlEvent := do
  let current ← read
  let handle ← check (okOr current.handles[queryId]? (.unknownQuery queryId))
  let (closed, event) ← check (terminalHandle coordinator handle state publicCode actualResult
    observedAtUnixMs)
  update fun current => current.setHandle queryId closed
  write (.replace (durableRecord closed))
  releaseClosed queryId handle (state ≠ .succeeded)
  dispatchLocked coordinator.policy
  return event

/-- The first critical section of `cancel`: raise the flag and report whether the query waits. -/
def signal : CoordinatorM Bool := do
  let state ← read
  let handle ← check (okOr state.handles[queryId]? (.unknownQuery queryId))
  update fun state => state.setHandle queryId { handle with cancelled := true }
  return handle.phase = .queued

/-- Signal cancellation at every stage; queued work closes immediately. -/
def cancel : CoordinatorM Unit := do
  let queued ← signal queryId
  if queued then do
    let _ ← terminal coordinator queryId .cancelled (some "CANCELLED") none observedAtUnixMs
    return ()
  else
    return ()

/-- The phase a cancellation found, and whether its identity was known. -/
structure QueryCancellationOutcome where
  phase : QueryExecutionPhase
  idempotentReplay : Bool
  deriving DecidableEq

def maxCancellationIdentitiesPerQuery : Nat := 64

def validCancellationId (value : String) : Bool :=
  !value.isEmpty && decide (value.utf8ByteSize ≤ 256) && isAscii value

def QueryHandle.remember (handle : QueryHandle) (cancellationId : String) : QueryHandle :=
  { handle with cancellationIds := handle.cancellationIds.insert cancellationId }

/-- Remember the identity on a query that is running or has ended; a failed write forgets it. -/
def rememberCancellation (handle : QueryHandle) (cancellationId : String) :
    CoordinatorM QueryCancellationOutcome := do
  let remembered := handle.remember cancellationId
  update fun state => state.setHandle queryId remembered
  match ← journal (.replace (durableRecord remembered)) with
  | .error failure => do
    update fun state => state.setHandle queryId
      { remembered with cancellationIds := remembered.cancellationIds.erase cancellationId }
    throw failure.report
  | .ok () => do
    -- Only a running query is told; one that has ended keeps the identity.
    update fun state => state.setHandle queryId
      { remembered with cancelled := handle.cancelled || decide (handle.phase = .running) }
    return ⟨handle.phase, false⟩

/-- Give back what a waiting query held. -/
def releaseQueued (handle : QueryHandle) : CoordinatorM Unit := do
  unqueue queryId
  releaseHeld handle true
  releaseTask queryId

/-- Close a queued query; a failed write restores its handle. -/
def cancelQueued (handle : QueryHandle) (cancellationId : String)
    (observedAtUnixMs : Int) : CoordinatorM QueryCancellationOutcome := do
  let (closed, _) ← check (closedHandle coordinator handle .cancelled (some "CANCELLED")
    observedAtUnixMs)
  let cancelled := { closed.remember cancellationId with
    resultRetention := abandonedRetention closed.events }
  update fun state => state.setHandle queryId cancelled
  match ← journal (.replace (durableRecord cancelled)) with
  | .error failure => do
    -- Field by field: the pushed event, the byte count, the phase, the retention, the identity.
    let restored := cancelled.setPhase .queued
    update fun state => state.setHandle queryId { restored with
      events := restored.events.dropLast
      eventBytes := handle.eventBytes
      resultRetention := handle.resultRetention
      cancellationIds := restored.cancellationIds.erase cancellationId }
    throw failure.report
  | .ok () => do
    update fun state => state.setHandle queryId { cancelled with cancelled := true }
    releaseQueued queryId handle
    dispatchLocked coordinator.policy
    return ⟨.terminal .cancelled, false⟩

/-- Apply one bounded cancellation identity exactly once and return the observed phase. -/
def cancelIdempotent (cancellationId : String) (observedAtUnixMs : Int) :
    CoordinatorM QueryCancellationOutcome := do
  check (ensure (validCancellationId cancellationId) .invalidCancellationId)
  let state ← read
  let handle ← check (okOr state.handles[queryId]? (.unknownQuery queryId))
  if cancellationId ∈ handle.cancellationIds then
    return ⟨handle.phase, true⟩
  else do
    check (ensure (handle.cancellationIds.size < maxCancellationIdentitiesPerQuery)
      .cancellationCapacity)
    if handle.phase = .queued then
      cancelQueued coordinator queryId handle cancellationId observedAtUnixMs
    else
      rememberCancellation queryId handle cancellationId

/-- Durably revoke reissue before any object cleanup begins; a failed write keeps the result. -/
def releaseResult : CoordinatorM Unit := do
  let state ← read
  let handle ← check (okOr state.handles[queryId]? (.unknownQuery queryId))
  check (ensure (handle.phase = .terminal .succeeded) .resultNotReleasable)
  if handle.resultRetention ≠ .reserved then
    return ()
  else do
    let released := { handle with resultRetention := .cleanupPending }
    update fun state => state.setHandle queryId released
    match ← journal (.replace (durableRecord released)) with
    | .error failure => do
      update fun state => state.setHandle queryId { released with resultRetention := .reserved }
      throw failure.report
    | .ok () => releaseHeld handle true

/-- Durably acknowledge that every locator-bound object was deleted or already absent. -/
def markResultCleanupComplete : CoordinatorM Unit := do
  let state ← read
  let handle ← check (okOr state.handles[queryId]? (.unknownQuery queryId))
  match handle.resultRetention with
  | .released => return ()
  | .reserved => throw .resultNotReleasable
  | .cleanupPending => do
    let released := { handle with resultRetention := .released }
    update fun state => state.setHandle queryId released
    match ← journal (.replace (durableRecord released)) with
    | .error failure => do
      update fun state => state.setHandle queryId
        { released with resultRetention := .cleanupPending }
      throw failure.report
    | .ok () => return ()

/-! ## Expiry -/

/-- The queries whose lease has expired and whose objects nobody is deleting. -/
def expiredQueries (state : CoordinatorState) (observedAtUnixMs : Int) : List QueryId :=
  (state.handles.toList.filter fun entry =>
    decide (entry.2.acceptance.leaseExpiresAtUnixMs ≤ observedAtUnixMs) &&
      entry.2.resultRetention != .cleanupPending).map Prod.fst

/-- Whether an expired query owns objects that have to be deleted first. -/
def QueryHandle.stagesCleanup (handle : QueryHandle) : Bool :=
  handle.resultRetention == .reserved && (cleanupObjectSet handle.events).isSome

/-- The handle of an expired query that waits for its cleanup: a query that had not ended is
lost. -/
def stagedHandle (handle : QueryHandle) (observedAtUnixMs : Int) :
    Except CoordinatorError QueryHandle := do
  if handle.phase.isTerminal then
    return { handle with resultRetention := .cleanupPending }
  else
    let (closed, _) ← closedHandle coordinator handle .lost (some "QUERY_EXPIRED") observedAtUnixMs
    return { closed with resultRetention := .cleanupPending }

/-- Give back the running slot of a query, or its place in the queue; one that has ended has
neither. -/
def releaseLiveSlot (handle : QueryHandle) : CoordinatorM Unit :=
  if handle.phase = .running then
    releaseRunning handle.operation.workspaceId handle.operation.principalId
  else if handle.phase = .queued then
    unqueue queryId
  else
    pure ()

def stageExpired (handle : QueryHandle) (observedAtUnixMs : Int) : CoordinatorM Unit := do
  let staged ← check (stagedHandle coordinator handle observedAtUnixMs)
  update fun state => state.setHandle queryId staged
  write (.replace (durableRecord staged))
  releaseLiveSlot queryId handle
  update fun state => state.setHandle queryId { staged with cancelled := true }
  releaseHeld handle true
  releaseTask queryId

def releaseIfRunning (handle : QueryHandle) : CoordinatorM Unit :=
  if handle.phase = .running then
    releaseRunning handle.operation.workspaceId handle.operation.principalId
  else
    pure ()

def dropExpired (handle : QueryHandle) : CoordinatorM Unit := do
  update fun state => { state with handles := state.handles.erase queryId }
  unqueue queryId
  releaseIfRunning handle
  releaseHeld handle (handle.resultRetention = .reserved)
  releaseTask queryId
  update fun state => { state with
    idempotency := state.idempotency.erase handle.operation.scope }
  write (.delete queryId)

def expireQuery : CoordinatorM Unit := do
  let state ← read
  let handle ← check (okOr state.handles[queryId]? .coordinatorState)
  if handle.stagesCleanup then
    stageExpired coordinator queryId handle observedAtUnixMs
  else
    dropExpired queryId handle

def expireQueries (observedAtUnixMs : Int) : List QueryId → CoordinatorM Unit
  | [] => pure ()
  | queryId :: rest => do
    expireQuery coordinator queryId observedAtUnixMs
    expireQueries observedAtUnixMs rest

def joinScopes : List QueryId → CoordinatorM Unit
  | [] => pure ()
  | queryId :: rest => do
    joinScope queryId
    joinScopes rest

/-- Expire entries and their tombstones under the one declared lease policy. -/
def collectExpired : CoordinatorM Nat := do
  let state ← read
  let expired := expiredQueries state observedAtUnixMs
  expireQueries coordinator observedAtUnixMs expired
  dispatchLocked coordinator.policy
  joinScopes expired
  return expired.length

end CodeFabric.Query
