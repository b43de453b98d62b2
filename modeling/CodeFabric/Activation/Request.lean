import CodeFabric.Activation.Admission
import CodeFabric.Command.Attempt

/-! # Activation requests

What an activation is asked to do, and what an append and a recovery are checked against
(`fabric/activation_transaction.rs`, with the event constructor of `fabric/activation.rs`).

* `validateCommittedSelection`: an event read back is the one of its contract and the head.
* `validateRecoveredSelection`, `RecoveredUnchangedChainMatches`: what a recovery accepts of a
  selection, and of a chain without one. -/

namespace CodeFabric.Activation

open Fallible Command

/-! ## Selected tables and candidates -/

structure ExactDeltaPin where
  canonicalRoot : String
  version : UInt64
  deriving DecidableEq, Repr

/-- Complete, canonically ordered set of exact Delta relation states selected by one epoch. -/
structure TableVersionSet where
  reference : TableVersionSetRef
  components : List (String × ExactDeltaPin)
  deriving DecidableEq, Repr

/-- A sealed epoch, by what an activation reads of it. -/
structure ProgrammaticFabricEpoch where
  identity : EpochId
  tableVersionSet : TableVersionSet
  deriving DecidableEq, Repr

def ProgrammaticFabricEpoch.tableVersionSetRef (candidate : ProgrammaticFabricEpoch) :
    TableVersionSetRef :=
  candidate.tableVersionSet.reference

/-- Exact activation-control predecessor and the binding that owns the append plan. -/
structure ActivationControlRelationPin where
  table : ExactDeltaPin
  bindingFingerprint : Vector UInt8 32
  fingerprint : Vector UInt8 32
  deriving DecidableEq, Repr

/-- The selected event of a readback with its reversible table versions. -/
structure SelectedEpochRecord where
  event : ActivationEvent
  tableVersions : TableVersionSet
  deriving DecidableEq, Repr

/-! ## Events of an attempt -/

abbrev ActivationAttempt := ValidatedCommandAttempt

abbrev ActivationRecoveryAttempt := ValidatedCommandRecovery

/-- The epoch a payload selects, and the proof receipt an activation carries. -/
def selectedBy : FabricCommandPayload → Option (EpochId × Option ProofReceiptRef)
  | .activateEpoch candidateEpoch proofReceipt => some (candidateEpoch, some proofReceipt)
  | .rollbackEpoch targetEpoch _ => some (targetEpoch, none)
  | _ => none

def FabricEpochPins.CommandPinsMatch (pins : FabricEpochPins) (command : FabricCommand) : Prop :=
  pins.inputRelease = command.pins.inputRelease ∧
  pins.programRelease = command.pins.programRelease ∧
  pins.applicationRelease = command.pins.applicationRelease ∧
  pins.sourceAuthority = command.pins.sourceAuthority ∧
  pins.sourceGeneration = command.pins.sourceGeneration ∧
  pins.providerRelease = command.pins.providerRelease ∧
  pins.providerSet = command.pins.providerSet ∧
  pins.resourceEnvelope = command.resources
  deriving Decidable

/-- The event of an attempt, if the pins are those of its command. -/
def ActivationEvent.tryFromAttempt (eventId : ActivationEventId) (attempt : ActivationAttempt)
    (predecessorEventId : Option ActivationEventId) (ordinal : ActivationOrdinal)
    (pins : FabricEpochPins) (compatibility : CompatibilityClassRef)
    (retention : RetentionPolicyRef) (commit : ActivationCommit) :
    Except ActivationError ActivationEvent := do
  let command := attempt.command
  let (expectedTarget, proofReceipt) ← okOr (selectedBy command.payload) .commandDoesNotSelectEpoch
  ensure (proofReceipt = none ∨ proofReceipt = some pins.proofReceipt) .proofReceiptMismatch
  ensure (expectedTarget = pins.epoch) (.selectedEpochMismatch expectedTarget pins.epoch)
  ensure (pins.CommandPinsMatch command) .commandPinMismatch
  return {
    eventId := eventId
    workspaceId := command.ownership.workspaceId
    operationId := command.identity.operationId
    predecessorEventId := predecessorEventId
    predecessorEpoch := command.expectedHead
    ordinal := ordinal
    executionFence := attempt.executionOwner.fence
    pins := pins
    compatibility := compatibility
    retention := retention
    commit := commit }

/-! ## Requests -/

inductive ActivationTransactionRequestError
  | commandDoesNotSelectEpoch
  | candidateIdentityMismatch
  | candidateTableVersionSetMismatch
  | proofReceiptMismatch
  | commandPinMismatch
  deriving DecidableEq, Repr

/-- The command, fence and selected epoch of an attempt whose pins are those of the command. -/
def validateRequestContract (attempt : ActivationAttempt) (pins : FabricEpochPins) :
    Except ActivationTransactionRequestError (FabricCommand × WriterFence × EpochId) := do
  let command := attempt.command
  let (selectedEpoch, activationProof) ←
    okOr (selectedBy command.payload) .commandDoesNotSelectEpoch
  ensure (selectedEpoch = pins.epoch) .candidateIdentityMismatch
  ensure (activationProof = none ∨ activationProof = some pins.proofReceipt) .proofReceiptMismatch
  ensure (pins.CommandPinsMatch command) .commandPinMismatch
  return (command, attempt.executionOwner.fence, selectedEpoch)

/-- Durable activation inputs sufficient for marker-driven restart recovery. -/
structure ActivationRecoveryRequest where
  attempt : ActivationAttempt
  pins : FabricEpochPins
  eventId : ActivationEventId
  compatibility : CompatibilityClassRef
  retention : RetentionPolicyRef
  operationSelection : OperationSelectionRef
  transaction : TransactionRef
  controlRelation : ActivationControlRelationPin
  /-- The pins are those of the command. -/
  valid : (validateRequestContract attempt pins).isOk
  deriving DecidableEq, Repr

namespace ActivationRecoveryRequest

variable (request : ActivationRecoveryRequest)

def command : FabricCommand := request.attempt.command

def executionFence : WriterFence := request.attempt.executionOwner.fence

/-- Reconstitute one recovery request from durable command and ticket inputs. -/
def tryNew (attempt : ActivationAttempt) (pins : FabricEpochPins) (eventId : ActivationEventId)
    (compatibility : CompatibilityClassRef) (retention : RetentionPolicyRef)
    (operationSelection : OperationSelectionRef) (transaction : TransactionRef)
    (controlRelation : ActivationControlRelationPin) :
    Except ActivationTransactionRequestError ActivationRecoveryRequest :=
  match h : validateRequestContract attempt pins with
  | .ok _ => .ok {
      attempt := attempt, pins := pins, eventId := eventId, compatibility := compatibility
      retention := retention, operationSelection := operationSelection
      transaction := transaction, controlRelation := controlRelation
      valid := by rw [h]; rfl }
  | .error error => .error error

end ActivationRecoveryRequest

/-- One sealed candidate and all event inputs fixed before transaction execution. -/
structure ActivationTransactionRequest extends ActivationRecoveryRequest where
  candidate : ProgrammaticFabricEpoch
  candidate_identity : pins.epoch = candidate.identity
  candidate_tables : pins.tableVersions = candidate.tableVersionSetRef
  deriving DecidableEq, Repr

/-- The durable request contract, without the process-local candidate. -/
abbrev ActivationTransactionRequest.recoveryRequest (request : ActivationTransactionRequest) :
    ActivationRecoveryRequest :=
  request.toActivationRecoveryRequest

/-- Bind a validated execution attempt to one sealed candidate and exact event identities. -/
def ActivationTransactionRequest.tryNew (attempt : ActivationAttempt)
    (candidate : ProgrammaticFabricEpoch) (pins : FabricEpochPins) (eventId : ActivationEventId)
    (compatibility : CompatibilityClassRef) (retention : RetentionPolicyRef)
    (operationSelection : OperationSelectionRef) (transaction : TransactionRef)
    (controlRelation : ActivationControlRelationPin) :
    Except ActivationTransactionRequestError ActivationTransactionRequest := do
  let request ← ActivationRecoveryRequest.tryNew attempt pins eventId compatibility retention
    operationSelection transaction controlRelation
  if hidentity : request.pins.epoch = candidate.identity then
    if htables : request.pins.tableVersions = candidate.tableVersionSetRef then
      return { request with
        candidate := candidate, candidate_identity := hidentity, candidate_tables := htables }
    else
      throw .candidateTableVersionSetMismatch
  else
    throw .candidateIdentityMismatch

/-! ## Append contracts -/

/-- Validated durable activation history plus the current writer fence. -/
structure ActivationAuthoritySnapshot where
  chain : ActivationChain
  activeFence : WriterFence
  deriving DecidableEq, Repr

/-- Exact append contract passed to the one durable activation-event writer. -/
structure ActivationAppendContract where
  attempt : ActivationAttempt
  command : FabricCommand
  executionFence : WriterFence
  eventId : ActivationEventId
  predecessorEventId : Option ActivationEventId
  ordinal : ActivationOrdinal
  pins : FabricEpochPins
  tableVersions : TableVersionSet
  compatibility : CompatibilityClassRef
  retention : RetentionPolicyRef
  operationSelection : OperationSelectionRef
  transaction : TransactionRef
  controlRelation : ActivationControlRelationPin
  deriving DecidableEq, Repr

def ActivationRecoveryRequest.contractAt (request : ActivationRecoveryRequest)
    (predecessorEventId : Option ActivationEventId) (ordinal : ActivationOrdinal)
    (tableVersions : TableVersionSet) : ActivationAppendContract where
  attempt := request.attempt
  command := request.command
  executionFence := request.executionFence
  eventId := request.eventId
  predecessorEventId := predecessorEventId
  ordinal := ordinal
  pins := request.pins
  tableVersions := tableVersions
  compatibility := request.compatibility
  retention := request.retention
  operationSelection := request.operationSelection
  transaction := request.transaction
  controlRelation := request.controlRelation

def ActivationOrdinal.new (value : Nat) : Option ActivationOrdinal :=
  if h : value ≠ 0 ∧ value < 2 ^ 64 then some ⟨value, h.1, h.2⟩ else none

def nextPosition (chain : ActivationChain) :
    Option (Option ActivationEventId × ActivationOrdinal) :=
  match chain.headEvent with
  | some head => do
    let next ← checkedAdd 64 head.ordinal.get 1
    let ordinal ← ActivationOrdinal.new next
    return (some head.eventId, ordinal)
  | none => do
    let ordinal ← ActivationOrdinal.new 1
    return (none, ordinal)

/-- The contract for the event after the head of the revalidated chain. -/
def appendContract (request : ActivationTransactionRequest)
    (authority : ActivationAuthoritySnapshot) : Option ActivationAppendContract := do
  let (predecessorEventId, ordinal) ← nextPosition authority.chain
  return request.contractAt predecessorEventId ordinal request.candidate.tableVersionSet

def AuthorityMatches (request : ActivationTransactionRequest)
    (snapshot : ActivationAuthoritySnapshot) : Prop :=
  snapshot.chain.workspaceId = request.command.ownership.workspaceId ∧
  snapshot.chain.currentHead = request.command.expectedHead ∧
  snapshot.activeFence = request.executionFence
  deriving Decidable

inductive ActivationReadbackViolation
  | eventContract (error : ActivationError)
  | eventDiffersFromContract
  | tableVersionSetMismatch
  | chainWorkspaceMismatch
  | eventIsNotUniqueHead
  | chainHeadMismatch
  | unchangedChainMismatch
  | cacheReceiptMismatch
  | acknowledgementReceiptMismatch
  | authorityMismatch
  | recoveryTicketMismatch
  | operationMarkerMismatch
  | acknowledgementMarkerMismatch
  | recoveryAttemptMismatch
  | recoveryFenceNotAuthorized
  deriving DecidableEq, Repr

/-- The read-back event is the one of the contract and the head of the chain. -/
def validateCommittedSelection (contract : ActivationAppendContract) (event : ActivationEvent)
    (tableVersions : TableVersionSet) (chain : ActivationChain) :
    Except ActivationReadbackViolation Unit := do
  let expected ← (ActivationEvent.tryFromAttempt contract.eventId contract.attempt
    contract.predecessorEventId contract.ordinal contract.pins contract.compatibility
    contract.retention
    { event.commit with
      operationSelection := contract.operationSelection
      transaction := contract.transaction }).mapError .eventContract
  ensure (expected = event) .eventDiffersFromContract
  ensure (tableVersions.reference = contract.pins.tableVersions ∧
    tableVersions = contract.tableVersions) .tableVersionSetMismatch
  ensure (chain.workspaceId = contract.command.ownership.workspaceId) .chainWorkspaceMismatch
  ensure (chain.headEvent = some event) .eventIsNotUniqueHead
  ensure (chain.currentHead = .epoch contract.pins.epoch) .chainHeadMismatch

def UnchangedChainMatches (request : ActivationTransactionRequest)
    (authority : ActivationAuthoritySnapshot) (chain : ActivationChain) : Prop :=
  chain = authority.chain ∧
  chain.workspaceId = request.command.ownership.workspaceId ∧
  chain.currentHead = request.command.expectedHead
  deriving Decidable

/-- A recovered event is the requested one at the position it names itself. -/
def validateRecoveredSelection (request : ActivationRecoveryRequest) (event : ActivationEvent)
    (tableVersions : TableVersionSet) (chainAfterReadback : ActivationChain) :
    Except ActivationReadbackViolation Unit :=
  (validateCommittedSelection
    (request.contractAt event.predecessorEventId event.ordinal tableVersions)
    event tableVersions chainAfterReadback).mapError fun violation =>
      match violation with
      | .tableVersionSetMismatch => violation
      | _ => .operationMarkerMismatch

/-- A chain without any trace of the request, still at the expected head. -/
def RecoveredUnchangedChainMatches (request : ActivationRecoveryRequest)
    (chain : ActivationChain) : Prop :=
  chain.workspaceId = request.command.ownership.workspaceId ∧
  chain.currentHead = request.command.expectedHead ∧
  ∀ event ∈ chain.orderedEvents, event.operationId ≠ request.command.identity.operationId ∧
    event.eventId ≠ request.eventId ∧
    event.commit.transaction ≠ request.transaction ∧
    event.commit.operationSelection ≠ request.operationSelection
  deriving Decidable

/-! ## Receipts -/

structure ActivationCacheReceipt where
  workspaceId : WorkspaceId
  operationId : OperationId
  eventId : ActivationEventId
  selectedEpoch : EpochId
  activeFence : WriterFence
  transaction : TransactionRef
  deriving DecidableEq, Repr

/-- Exact terminal acknowledgement, downstream of reopening. -/
structure ActivationAcknowledgementReceipt where
  workspaceId : WorkspaceId
  operationId : OperationId
  eventId : ActivationEventId
  selectedEpoch : EpochId
  activeFence : WriterFence
  transaction : TransactionRef
  operationSelection : OperationSelectionRef
  deriving DecidableEq, Repr

/-- The cache receipt names the request, the event and the fence. -/
def CacheReceiptMatches (request : ActivationRecoveryRequest) (event : ActivationEvent)
    (activeFence : WriterFence) (receipt : ActivationCacheReceipt) : Prop :=
  receipt.workspaceId = request.command.ownership.workspaceId ∧
  receipt.operationId = request.command.identity.operationId ∧
  receipt.eventId = event.eventId ∧
  receipt.selectedEpoch = request.pins.epoch ∧
  receipt.activeFence = activeFence ∧
  receipt.transaction = request.transaction
  deriving Decidable

/-- The acknowledgement names the request, the event and the fence. -/
def AcknowledgementMatches (request : ActivationRecoveryRequest) (event : ActivationEvent)
    (activeFence : WriterFence) (receipt : ActivationAcknowledgementReceipt) : Prop :=
  receipt.workspaceId = request.command.ownership.workspaceId ∧
  receipt.operationId = request.command.identity.operationId ∧
  receipt.eventId = event.eventId ∧
  receipt.selectedEpoch = request.pins.epoch ∧
  receipt.activeFence = activeFence ∧
  receipt.transaction = request.transaction ∧
  receipt.operationSelection = request.operationSelection
  deriving Decidable

/-- An acknowledgement found by a recovery was given under a fence between the two. -/
def RecoveredAcknowledgementMatches (request : ActivationRecoveryRequest) (event : ActivationEvent)
    (activeRecoveryFence : WriterFence) (receipt : ActivationAcknowledgementReceipt) : Prop :=
  receipt.workspaceId = request.command.ownership.workspaceId ∧
  receipt.operationId = request.command.identity.operationId ∧
  receipt.eventId = event.eventId ∧
  receipt.selectedEpoch = request.pins.epoch ∧
  RecoveryFenceAuthorizes request.executionFence receipt.activeFence ∧
  RecoveryFenceAuthorizes receipt.activeFence activeRecoveryFence ∧
  receipt.transaction = request.transaction ∧
  receipt.operationSelection = request.operationSelection
  deriving Decidable

end CodeFabric.Activation
