import CodeFabric.Command.Types
import CodeFabric.Support.Fallible
import CodeFabric.Support.SortedKeys

/-! # The activation chain

The activation history of a workspace (`fabric/activation.rs`) is a set of durable events, each
naming its predecessor. `derive` accepts the sets that form one line from an empty workspace and
returns that line.

**`walk`** follows the children from the root. The source loops without a bound; the model stops
after as many visits as there are events, with a failure of its own. -/

namespace CodeFabric.Activation

open Fallible SortedKeys Command

/-! ## Identities -/

/-- The names of the `activation_identity!` newtypes. -/
inductive ActivationIdentityName
  | activationEventId | tableVersionSetRef | overlaySegmentSetRef | policySetRef
  | compatibilityClassRef | backendCommitRef | activationReadbackRef
  deriving DecidableEq, Repr

/-- A typed 32-byte identity (`activation_identity!`). -/
structure ActivationIdentity (name : ActivationIdentityName) where
  asBytes : Vector UInt8 32
  deriving DecidableEq, Repr

abbrev ActivationEventId := ActivationIdentity .activationEventId
/-- Exact Delta-version vector selected by an epoch. -/
abbrev TableVersionSetRef := ActivationIdentity .tableVersionSetRef
/-- Exact immutable in-memory segment set selected by an epoch. -/
abbrev OverlaySegmentSetRef := ActivationIdentity .overlaySegmentSetRef
abbrev PolicySetRef := ActivationIdentity .policySetRef
/-- Application-owned compatibility class used for admission and rollback. -/
abbrev CompatibilityClassRef := ActivationIdentity .compatibilityClassRef
/-- Backend commit identity read back after the activation append. -/
abbrev BackendCommitRef := ActivationIdentity .backendCommitRef
/-- Durable evidence that readback returned the exact appended event. -/
abbrev ActivationReadbackRef := ActivationIdentity .activationReadbackRef

/-! ## Events -/

/-- Monotonic position in one workspace activation-event chain: a nonzero `u64`. -/
@[ext] structure ActivationOrdinal where
  get : Nat
  ne_zero : get ≠ 0
  lt_width : get < 2 ^ 64
  deriving Repr

instance : DecidableEq ActivationOrdinal :=
  fun _ _ => decidable_of_iff _ ActivationOrdinal.ext_iff.symm

/-- Complete semantic and physical pins selected by one activation. -/
structure FabricEpochPins where
  epoch : EpochId
  inputRelease : InputReleaseRef
  programRelease : ProgramReleaseRef
  applicationRelease : ApplicationReleaseRef
  sourceAuthority : SourceAuthorityRef
  sourceGeneration : SourceGeneration
  providerRelease : ProviderReleaseRef
  providerSet : ProviderSetRef
  tableVersions : TableVersionSetRef
  overlaySegments : OverlaySegmentSetRef
  policySet : PolicySetRef
  resourceEnvelope : ResourceEnvelopeRef
  proofReceipt : ProofReceiptRef
  deriving DecidableEq, Repr

/-- Exact durable commit and readback evidence for the final activation append. -/
structure ActivationCommit where
  operationSelection : OperationSelectionRef
  transaction : TransactionRef
  backendCommit : BackendCommitRef
  readback : ActivationReadbackRef
  deriving DecidableEq, Repr

/-- One append-only selection event. -/
structure ActivationEvent where
  eventId : ActivationEventId
  workspaceId : WorkspaceId
  operationId : OperationId
  predecessorEventId : Option ActivationEventId
  predecessorEpoch : ExpectedHead
  ordinal : ActivationOrdinal
  executionFence : WriterFence
  pins : FabricEpochPins
  compatibility : CompatibilityClassRef
  retention : RetentionPolicyRef
  commit : ActivationCommit
  deriving DecidableEq, Repr

structure ActivationChain where
  workspaceId : WorkspaceId
  orderedEvents : List ActivationEvent
  deriving DecidableEq, Repr

/-! ## Failures -/

/-- Reasons why an attempt is no event, and why a set of events is not a chain. -/
inductive ActivationError
  | commandDoesNotSelectEpoch
  | proofReceiptMismatch
  | selectedEpochMismatch (command event : EpochId)
  | commandPinMismatch
  | workspaceMismatch (expected actual : WorkspaceId)
  | duplicateEvent (event : ActivationEventId)
  | duplicateOperation (operation : OperationId)
  | duplicateOperationSelection (selection : OperationSelectionRef)
  | duplicateTransaction (transaction : TransactionRef)
  | rootCount (count : Nat)
  | invalidRoot (event : ActivationEventId)
  | missingPredecessor (event predecessor : ActivationEventId)
  | fork (predecessor : ActivationEventId)
  | predecessorEpochMismatch (event predecessor : ActivationEventId)
  | ordinalGap (event : ActivationEventId) (expected actual : Nat)
  | writerGenerationRegression (event predecessor : ActivationEventId)
  | disconnectedOrCyclicHistory (reachable total : Nat)
  deriving DecidableEq, Repr

/-- How a derivation can end other than with a chain. -/
inductive DeriveFailure
  | error (error : ActivationError)
  /-- The addition of one to an ordinal overflowed. -/
  | ordinalOverflow
  /-- The `expect` of the walk found no event. -/
  | missingEvent
  /-- The walk went on for more visits than there are events. -/
  | diverges
  deriving DecidableEq, Repr

/-! ## Indexing -/

/-- The map of events by identity and the sets of their other identities. -/
structure EventIndex where
  byId : List ActivationEvent
  operations : List OperationId
  selections : List OperationSelectionRef
  transactions : List TransactionRef

/-- Index one event of a workspace, unless one of its identities has been seen. -/
def EventIndex.insert (workspaceId : WorkspaceId) (index : EventIndex) (event : ActivationEvent) :
    Except DeriveFailure EventIndex := do
  ensure (event.workspaceId = workspaceId)
    (.error (.workspaceMismatch workspaceId event.workspaceId))
  ensure (event.eventId ∉ index.byId.map ActivationEvent.eventId)
    (.error (.duplicateEvent event.eventId))
  ensure (event.operationId ∉ index.operations) (.error (.duplicateOperation event.operationId))
  ensure (event.commit.operationSelection ∉ index.selections)
    (.error (.duplicateOperationSelection event.commit.operationSelection))
  ensure (event.commit.transaction ∉ index.transactions)
    (.error (.duplicateTransaction event.commit.transaction))
  return {
    byId := event :: index.byId
    operations := event.operationId :: index.operations
    selections := event.commit.operationSelection :: index.selections
    transactions := event.commit.transaction :: index.transactions }

variable (index : EventIndex)

def EventIndex.get (id : ActivationEventId) : Option ActivationEvent :=
  index.byId.find? fun event => event.eventId = id

def EventIndex.values : List ActivationEvent :=
  sortOn (fun event => event.eventId.asBytes.toList) index.byId

/-! ## Linking and walking -/

/-- Check one event against its predecessor, and record it as the predecessor's child. -/
def linkChild (children : ActivationEventId → Option ActivationEventId) (event : ActivationEvent) :
    Except DeriveFailure (ActivationEventId → Option ActivationEventId) :=
  match event.predecessorEventId with
  | none => .ok children
  | some parentId => do
    let parent ← okOr (index.get parentId) (.error (.missingPredecessor event.eventId parentId))
    ensure (children parentId = none) (.error (.fork parentId))
    ensure (event.predecessorEpoch = .epoch parent.pins.epoch)
      (.error (.predecessorEpochMismatch event.eventId parentId))
    let expected ← okOr (checkedAdd 64 parent.ordinal.get 1) .ordinalOverflow
    ensure (event.ordinal.get = expected)
      (.error (.ordinalGap event.eventId expected event.ordinal.get))
    ensure (parent.executionFence.generation.get ≤ event.executionFence.generation.get)
      (.error (.writerGenerationRegression event.eventId parentId))
    return Function.update children parentId (some event.eventId)

/-- Follow the children of an event, for a number of visits. -/
def walk (index : EventIndex) (children : ActivationEventId → Option ActivationEventId) :
    Nat → ActivationEventId → List ActivationEvent → Except DeriveFailure (List ActivationEvent)
  | 0, _, _ => .error .diverges
  | visits + 1, next, ordered => do
    let event ← okOr (index.get next) .missingEvent
    match children next with
    | none => return ordered ++ [event]
    | some child => walk index children visits child (ordered ++ [event])

def orderEvents : Except DeriveFailure (List ActivationEvent) :=
  match index.values.filter (fun event => event.predecessorEventId = none) with
  | [root] => do
    ensure (root.predecessorEpoch = .empty ∧ root.ordinal.get = 1)
      (.error (.invalidRoot root.eventId))
    let children ← index.values.foldlM (linkChild index) fun _ => none
    let ordered ← walk index children index.byId.length root.eventId []
    ensure (ordered.length = index.byId.length)
      (.error (.disconnectedOrCyclicHistory ordered.length index.byId.length))
    return ordered
  | roots => .error (.error (.rootCount roots.length))

/-- Derive the unique linear history from an unordered set of durable events. -/
def derive (workspaceId : WorkspaceId) (events : List ActivationEvent) :
    Except DeriveFailure ActivationChain := do
  let index ← events.foldlM (EventIndex.insert workspaceId) ⟨[], [], [], []⟩
  if index.byId.isEmpty then
    return ⟨workspaceId, []⟩
  else
    let ordered ← orderEvents index
    return ⟨workspaceId, ordered⟩

end CodeFabric.Activation
