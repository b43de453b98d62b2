import CodeFabric.Budget.Policy
import CodeFabric.Command.Types
import CodeFabric.Support.BigEndian
import CodeFabric.Support.TreeMaps

/-! # Query operations and coordinator policy

What a client asks the query coordinator to run (`fabric/query_coordinator.rs`): the session that
asks, the normalized operation with every field that can change its meaning, and the limits of the
coordinator. -/

namespace CodeFabric.Query

open CodeFabric.Command CodeFabric.Budget Fallible

/-! ## Errors -/

/-- The failures of the coordinator (`QueryCoordinatorError`) that its modelled operations
return. -/
inductive QueryCoordinatorError (ι : Type)
  | resource (error : ResourceBudgetError)
  | integerRange
  | invalidPolicy (limit : String)
  | invalidCoordinatorIdentity
  | invalidSessionAuthority
  | invalidIdempotencyKey
  | invalidCancellationId
  | cancellationCapacity
  | invalidOperationField (name : String)
  | invalidOperationBounds
  | nonCanonicalRequest
  | deadlineElapsed
  | idempotencyConflict
  | admissionBackpressure
  | resultCapacityBackpressure
  | journalCapacity
  | terminalReservationBroken
  | terminalRequiresClosure
  | alreadyTerminal
  | unknownQuery (queryId : ι)
  | queryIdentityCollision
  | resultMissing
  | resultReservationExceeded
  | resultNotReleasable
  | invalidResultRetentionState
  | invalidRetainedPackageLocator
  | publicationIntentMissing
  | publicationIntentConflict
  | recoveryLimit
  | recoveryCapacity
  | coordinatorState
  | journalState
  | nonCanonicalJournalRecord
  | counterOverflow
  | invalidHex
  | canonicalRequest
  | journalEncoding
  | sqlite
  | structuredTask (detail : String)
  deriving DecidableEq, Repr

/-! ## Identities -/

abbrev Fingerprint := Vector UInt8 32

/-- A query identity, `query:` and the lowercase hexadecimal digits of the fingerprint it is made
from. -/
structure QueryId where
  fingerprint : Fingerprint
  deriving DecidableEq, Repr

instance : Ord QueryId := ⟨fun left right => compare left.fingerprint right.fingerprint⟩

instance : Std.TransOrd QueryId := TreeMaps.transOrd_of_key QueryId.fingerprint

theorem QueryId.fingerprint_injective : Function.Injective QueryId.fingerprint :=
  fun ⟨_⟩ ⟨_⟩ h => congrArg QueryId.mk h

instance : Std.LawfulEqOrd QueryId :=
  TreeMaps.lawfulEqOrd_of_injective QueryId.fingerprint QueryId.fingerprint_injective

instance {name : IdentityName} {width : Nat} : Ord (ByteIdentity name width) :=
  ⟨fun left right => compare left.asBytes right.asBytes⟩

instance {name : IdentityName} {width : Nat} : Std.TransOrd (ByteIdentity name width) :=
  TreeMaps.transOrd_of_key ByteIdentity.asBytes

instance : Std.TransOrd WorkspaceId := TreeMaps.transOrd_of_key ByteIdentity.asBytes

instance : Std.TransOrd PrincipalId := TreeMaps.transOrd_of_key ByteIdentity.asBytes

theorem asBytes_injective {name : IdentityName} {width : Nat} :
    Function.Injective (@ByteIdentity.asBytes name width) :=
  fun ⟨_⟩ ⟨_⟩ h => congrArg ByteIdentity.mk h

instance {name : IdentityName} {width : Nat} : Std.LawfulEqOrd (ByteIdentity name width) :=
  TreeMaps.lawfulEqOrd_of_injective ByteIdentity.asBytes asBytes_injective

abbrev CoordinatorError := QueryCoordinatorError QueryId

def allZero {name : IdentityName} {width : Nat} (identity : ByteIdentity name width) : Bool :=
  identity.asBytes.all (· == 0)

/-! ## Sessions -/

inductive QuerySessionSharingClass
  | principalBound
  deriving DecidableEq, Repr

/-! ## Operations -/

/-- Every field that can change execution, delivery, freshness or retention meaning. -/
structure NormalizedQueryOperation where
  workspaceId : WorkspaceId
  principalId : PrincipalId
  policyGeneration : Nat
  revocationGeneration : Nat
  sessionSharingClass : QuerySessionSharingClass
  idempotencyKey : String
  canonicalRequest : List UInt8
  semanticProfile : String
  requestContract : String
  responseContract : String
  deliveryProfile : String
  compressionProfile : String
  freshnessPolicy : String
  epochPolicy : String
  deadlineUnixMs : Int
  leaseExpiresAtUnixMs : Int
  maximumResultBytes : Nat
  maximumResultPages : Nat
  deriving DecidableEq, Repr

/-- Whether a text holds only ASCII characters (`str::is_ascii`). -/
def isAscii (text : String) : Bool := text.toList.all (·.toNat < 128)

def textBytes (text : String) : List UInt8 := text.toUTF8.data.toList

namespace NormalizedQueryOperation

/-- The profile and contract fields, with the names their errors report. -/
def namedFields (operation : NormalizedQueryOperation) : List (String × String) :=
  [("semantic_profile", operation.semanticProfile), ("request_contract", operation.requestContract),
    ("response_contract", operation.responseContract),
    ("delivery_profile", operation.deliveryProfile),
    ("compression_profile", operation.compressionProfile),
    ("freshness_policy", operation.freshnessPolicy),
    ("epoch_policy", operation.epochPolicy)]

/-- A profile or contract field is ASCII text of 1 to 256 bytes. -/
def validField (text : String) : Bool :=
  !(text.isEmpty || decide (256 < text.utf8ByteSize) || !isAscii text)

/-- Check the named fields in order; the error names the first that fails. -/
def validateFields : List (String × String) → Except CoordinatorError Unit
  | [] => .ok ()
  | (name, text) :: rest =>
    if validField text then validateFields rest else .error (.invalidOperationField name)

/-- Validate and canonicalize an operation. `canonicalize` decodes JSON bytes and encodes them
canonically, or fails on bytes that are no JSON. -/
def tryNew (canonicalize : List UInt8 → Option (List UInt8))
    (operation : NormalizedQueryOperation) : Except CoordinatorError NormalizedQueryOperation := do
  ensure (¬(allZero operation.workspaceId ∨ allZero operation.principalId ∨
    operation.policyGeneration = 0 ∨ operation.revocationGeneration = 0)) .invalidSessionAuthority
  ensure (¬(operation.idempotencyKey.isEmpty ∨ 256 < operation.idempotencyKey.utf8ByteSize))
    .invalidIdempotencyKey
  validateFields operation.namedFields
  ensure (¬(operation.deadlineUnixMs ≤ 0 ∨
    operation.leaseExpiresAtUnixMs ≤ operation.deadlineUnixMs ∨
    operation.maximumResultBytes = 0 ∨ operation.maximumResultPages = 0)) .invalidOperationBounds
  let canonical ← okOr (canonicalize operation.canonicalRequest) .canonicalRequest
  ensure (canonical = operation.canonicalRequest) .nonCanonicalRequest
  return { operation with canonicalRequest := canonical }

/-- A byte string preceded by its length, as the fingerprint hashes it. -/
def frame (bytes : List UInt8) : List UInt8 := BigEndian.encode 8 bytes.length ++ bytes

/-- The framed fields of an operation, in the order they are hashed. -/
def frames (operation : NormalizedQueryOperation) : List UInt8 :=
  frame (textBytes "codefabric.normalized-query-operation.v2") ++
  frame operation.workspaceId.asBytes.toList ++
  frame operation.principalId.asBytes.toList ++
  frame (BigEndian.encode 8 operation.policyGeneration) ++
  frame (BigEndian.encode 8 operation.revocationGeneration) ++
  frame (textBytes (match operation.sessionSharingClass with
    | .principalBound => "principal-bound")) ++
  frame (textBytes operation.idempotencyKey) ++
  frame operation.canonicalRequest ++
  operation.namedFields.flatMap (fun field => frame (textBytes field.2)) ++
  frame (BigEndian.encode 8 (operation.deadlineUnixMs % 2 ^ 64).toNat) ++
  frame (BigEndian.encode 8 (operation.leaseExpiresAtUnixMs % 2 ^ 64).toNat) ++
  frame (BigEndian.encode 8 operation.maximumResultBytes) ++
  frame (BigEndian.encode 8 operation.maximumResultPages)

/-- The fingerprint of an operation under a hash of its framed fields. -/
def fingerprint (blake3 : List UInt8 → Fingerprint) (operation : NormalizedQueryOperation) :
    Fingerprint :=
  blake3 operation.frames

/-- A validated operation is the operation itself, with positive result limits and a lease that
outlives its deadline. -/
theorem tryNew_eq_ok {canonicalize : List UInt8 → Option (List UInt8)}
    {operation validated : NormalizedQueryOperation}
    (h : tryNew canonicalize operation = .ok validated) :
    validated = operation ∧ allZero operation.principalId = false ∧
      0 < operation.policyGeneration ∧ 0 < operation.revocationGeneration ∧
      0 < operation.maximumResultBytes ∧ 0 < operation.maximumResultPages ∧
      operation.deadlineUnixMs < operation.leaseExpiresAtUnixMs := by
  simp only [tryNew, ok_iff, exists_const] at h
  obtain ⟨hi, -, -, -, hbds, canonical, -, hcan, rfl⟩ := h
  push Not at hi hbds
  obtain ⟨-, hpr, hpl, hrev⟩ := hi
  obtain ⟨-, hl, hb, hpg⟩ := hbds
  refine ⟨?_, by simpa using hpr, Nat.pos_of_ne_zero hpl, Nat.pos_of_ne_zero hrev,
    Nat.pos_of_ne_zero hb, Nat.pos_of_ne_zero hpg, hl⟩
  rw [hcan]

end NormalizedQueryOperation

/-- Where an idempotency key is unique. -/
structure IdempotencyScope where
  workspaceId : WorkspaceId
  principalId : PrincipalId
  key : String
  deriving DecidableEq, Repr

def NormalizedQueryOperation.scope (operation : NormalizedQueryOperation) : IdempotencyScope :=
  ⟨operation.workspaceId, operation.principalId, operation.idempotencyKey⟩

instance : Ord IdempotencyScope where
  compare := compareLex (compareOn IdempotencyScope.workspaceId)
    (compareLex (compareOn IdempotencyScope.principalId) (compareOn IdempotencyScope.key))

instance : Std.TransOrd IdempotencyScope :=
  inferInstanceAs (Std.TransCmp (compareLex (compareOn IdempotencyScope.workspaceId)
    (compareLex (compareOn IdempotencyScope.principalId) (compareOn IdempotencyScope.key))))

instance : Std.LawfulEqOrd IdempotencyScope where
  eq_of_compare {left right} h := by
    obtain ⟨hworkspace, hrest⟩ := Ordering.then_eq_eq.1 h
    obtain ⟨hprincipal, hkey⟩ := Ordering.then_eq_eq.1 hrest
    cases left
    cases right
    simp only [IdempotencyScope.mk.injEq]
    exact ⟨Std.LawfulEqOrd.eq_of_compare hworkspace, Std.LawfulEqOrd.eq_of_compare hprincipal,
      Std.LawfulEqOrd.eq_of_compare hkey⟩

/-! ## Policy -/

/-- Aggregate limits of one coordinator: nonzero machine words, running bounds of a workspace and a
principal within the total, and room for the terminal event of every query. -/
structure QueryCoordinatorPolicy where
  maxRunning : Nat
  maxRunningPerWorkspace : Nat
  maxRunningPerPrincipal : Nat
  maxQueued : Nat
  maxTasks : Nat
  maxEventsPerQuery : Nat
  maxEventBytesPerQuery : Nat
  maxTotalResultBytes : Nat
  maxTotalResultPages : Nat
  maxRecoveryRecords : Nat
  maxRunning_pos : 0 < maxRunning
  maxRunningPerWorkspace_pos : 0 < maxRunningPerWorkspace
  maxRunningPerPrincipal_pos : 0 < maxRunningPerPrincipal
  maxQueued_pos : 0 < maxQueued
  maxTasks_pos : 0 < maxTasks
  maxEventBytesPerQuery_pos : 0 < maxEventBytesPerQuery
  maxTotalResultBytes_pos : 0 < maxTotalResultBytes
  maxTotalResultPages_pos : 0 < maxTotalResultPages
  maxRecoveryRecords_pos : 0 < maxRecoveryRecords
  workspace_le : maxRunningPerWorkspace ≤ maxRunning
  principal_le : maxRunningPerPrincipal ≤ maxRunning
  three_le_events : 3 ≤ maxEventsPerQuery
  events_lt : maxEventsPerQuery < 2 ^ 64
  eventBytes_lt : maxEventBytesPerQuery < 2 ^ 64
  resultBytes_lt : maxTotalResultBytes < 2 ^ 64
  resultPages_lt : maxTotalResultPages < 2 ^ 64

/-- A positive machine word, or the error that names the limit. -/
def positive (limit : Nat) (name : String) : Except CoordinatorError (PLift (0 < limit)) :=
  if h : 0 < limit then .ok ⟨h⟩ else .error (.invalidPolicy name)

/-- Validate the limits in the order they are declared. The four limits that enter checked
arithmetic are machine words by their type. -/
def QueryCoordinatorPolicy.tryNew (maxRunning maxRunningPerWorkspace maxRunningPerPrincipal
    maxQueued maxTasks : Nat) (maxEventsPerQuery maxEventBytesPerQuery maxTotalResultBytes
    maxTotalResultPages : Fin (2 ^ 64)) (maxRecoveryRecords : Nat) :
    Except CoordinatorError QueryCoordinatorPolicy := do
  let running ← positive maxRunning "max_running"
  let workspace ← positive maxRunningPerWorkspace "max_running_per_workspace"
  let principal ← positive maxRunningPerPrincipal "max_running_per_principal"
  let queued ← positive maxQueued "max_queued"
  let tasks ← positive maxTasks "max_tasks"
  let _ ← positive maxEventsPerQuery "max_events_per_query"
  let eventBytes ← positive maxEventBytesPerQuery "max_event_bytes_per_query"
  let resultBytes ← positive maxTotalResultBytes "max_total_result_bytes"
  let resultPages ← positive maxTotalResultPages "max_total_result_pages"
  let records ← positive maxRecoveryRecords "max_recovery_records"
  if h : maxRunning < maxRunningPerWorkspace ∨ maxRunning < maxRunningPerPrincipal ∨
      maxEventsPerQuery.val < 3 then
    throw (.invalidPolicy "scope running bounds or terminal event reservation")
  else
    return {
      maxRunning, maxRunningPerWorkspace, maxRunningPerPrincipal, maxQueued, maxTasks,
      maxEventsPerQuery, maxEventBytesPerQuery, maxTotalResultBytes, maxTotalResultPages,
      maxRecoveryRecords
      maxRunning_pos := running.down, maxRunningPerWorkspace_pos := workspace.down
      maxRunningPerPrincipal_pos := principal.down, maxQueued_pos := queued.down
      maxTasks_pos := tasks.down, maxEventBytesPerQuery_pos := eventBytes.down
      maxTotalResultBytes_pos := resultBytes.down, maxTotalResultPages_pos := resultPages.down
      maxRecoveryRecords_pos := records.down
      workspace_le := by omega, principal_le := by omega, three_le_events := by omega
      events_lt := maxEventsPerQuery.isLt, eventBytes_lt := maxEventBytesPerQuery.isLt
      resultBytes_lt := maxTotalResultBytes.isLt, resultPages_lt := maxTotalResultPages.isLt }

end CodeFabric.Query
