import CodeFabric.Activation.Tickets
import CodeFabric.Command.Actor

/-! # The activation command effect

What the command actor calls for an activation (`fabric/activation_command_effect.rs`):
preparation resolves the immutable request, a commit runs the coordinator, and a reconciliation
loads the stored ticket and runs the recovery. Each is given what it reads and returns what it
changes: the stored ticket and the gate.

**`prepare`**, **`commit`** and **`reconcile`** are the effect's methods. -/

namespace CodeFabric.Activation

open Fallible Command Interleaving

/-! ## Requests and classifications -/

/-- Read-only prepared binding between one command and its deterministic transaction. -/
structure ResolvedActivationTransaction where
  request : ActivationTransactionRequest
  transaction : TransactionRef
  bound : request.transaction = transaction
  deriving DecidableEq, Repr

def ResolvedActivationTransaction.tryNew (request : ActivationTransactionRequest)
    (transaction : TransactionRef) :
    Except ActivationCommandBindingError ResolvedActivationTransaction :=
  if h : request.transaction = transaction then .ok ⟨request, transaction, h⟩
  else .error .transactionMismatch

structure ActivationCommandRequestMaterial where
  key : FabricCommand
  candidate : ProgrammaticFabricEpoch
  pins : FabricEpochPins
  eventId : ActivationEventId
  compatibility : CompatibilityClassRef
  retention : RetentionPolicyRef
  operationSelection : OperationSelectionRef
  transaction : TransactionRef
  controlRelation : ActivationControlRelationPin
  deriving DecidableEq, Repr

def ActivationCommandRequestMaterial.resolve (material : ActivationCommandRequestMaterial)
    (attempt : ActivationAttempt) : Except CommandPortError ResolvedActivationTransaction := do
  ensure (material.key = attempt.command) .corruptRecord
  let request ← (ActivationTransactionRequest.tryNew attempt material.candidate material.pins
    material.eventId material.compatibility material.retention material.operationSelection
    material.transaction material.controlRelation).mapError fun _ => CommandPortError.corruptRecord
  (ResolvedActivationTransaction.tryNew request material.transaction).mapError
    fun _ => CommandPortError.corruptRecord

structure ActivationNotSelectedClassificationQuery where
  request : FabricCommand
  transaction : TransactionRef
  stopped : ActivationNotSelected
  deriving DecidableEq, Repr

structure ActivationNotSelectedClassification where
  query : ActivationNotSelectedClassificationQuery
  failure : CommandFailure
  deriving DecidableEq, Repr

/-- What the effect asks, apart from the stored ticket and the gate. -/
structure EffectPorts where
  store : ActivationStateStore
  readRequest : FabricCommand → Except CommandPortError (Option ActivationCommandRequestMaterial)
  readClassification : ActivationNotSelectedClassificationQuery →
    Except CommandPortError (Option ActivationNotSelectedClassification)
  answers : PortAnswers

/-- What the effect changes: the stored ticket, and the gate of the process. -/
structure EffectState where
  row : Option ActivationReconciliationRecord
  gate : FabricAdmissionRuntime
  deriving DecidableEq, Repr

variable (ports : EffectPorts) (request : ActivationRecoveryRequest)
  (receipt : ActivatedEpochReceipt) (row : Option ActivationReconciliationRecord)

def resolveRequest (record : CommandRecord) (attempt : ActivationAttempt) :
    Except CommandPortError ResolvedActivationTransaction := do
  ensure (record.command = attempt.command) .corruptRecord
  let material ← ports.readRequest record.command
  let material ← okOr material .contextUnavailable
  ensure (material.key = record.command) .corruptRecord
  material.resolve attempt

def classifyNotSelected (resolved : ResolvedActivationTransaction)
    (stopped : ActivationNotSelected) : Except CommandPortError CommandFailure := do
  let query : ActivationNotSelectedClassificationQuery :=
    ⟨resolved.request.command, resolved.transaction, stopped⟩
  let classification ← ports.readClassification query
  let classification ← okOr classification .contextUnavailable
  ensure (classification.query = query) .corruptRecord
  return classification.failure

/-- The request the effect works with: of this attempt and, if known, this transaction. -/
def resolved (ports : EffectPorts) (record : CommandRecord) (attempt : ActivationAttempt)
    (transaction : Option TransactionRef) :
    Except CommandPortError ResolvedActivationTransaction := do
  let resolved ← resolveRequest ports record attempt
  ensure (resolved.request.attempt = attempt ∧
    ∀ value ∈ transaction, value = resolved.transaction) .corruptRecord
  return resolved

/-! ## Receipts -/

def activatedResult (receipt : ActivatedEpochReceipt) : CommandResult :=
  .epochActivated receipt.event.pins.epoch receipt.event.commit.operationSelection

def ActivatedReceiptIdentityMatches : Prop :=
  let event := receipt.event
  event.workspaceId = request.command.ownership.workspaceId ∧
  event.operationId = request.command.identity.operationId ∧
  event.eventId = request.eventId ∧
  event.predecessorEpoch = request.command.expectedHead ∧
  event.executionFence = request.executionFence ∧
  event.pins = request.pins ∧
  event.commit.transaction = request.transaction ∧
  event.commit.operationSelection = request.operationSelection ∧
  receipt.cache.workspaceId = event.workspaceId ∧
  receipt.cache.operationId = event.operationId ∧
  receipt.cache.eventId = event.eventId ∧
  receipt.cache.selectedEpoch = request.pins.epoch ∧
  receipt.cache.transaction = request.transaction ∧
  receipt.acknowledgement.workspaceId = event.workspaceId ∧
  receipt.acknowledgement.operationId = event.operationId ∧
  receipt.acknowledgement.eventId = event.eventId ∧
  receipt.acknowledgement.selectedEpoch = request.pins.epoch ∧
  receipt.acknowledgement.transaction = request.transaction ∧
  receipt.acknowledgement.operationSelection = request.operationSelection
  deriving Decidable

def ActivatedReceiptMatches (activeFence : WriterFence) : Prop :=
  ActivatedReceiptIdentityMatches request receipt ∧ receipt.cache.activeFence = activeFence ∧
    receipt.acknowledgement.activeFence = activeFence
  deriving Decidable

/-- The receipt of a recovery names the request; its acknowledgement may be of an earlier fence. -/
def RecoveredActivatedReceiptMatches (activeRecoveryFence : WriterFence) : Prop :=
  ActivatedReceiptIdentityMatches request receipt ∧
  receipt.cache.activeFence = activeRecoveryFence ∧
  RecoveryFenceAuthorizes request.executionFence receipt.acknowledgement.activeFence ∧
  RecoveryFenceAuthorizes receipt.acknowledgement.activeFence activeRecoveryFence
  deriving Decidable

def NotSelectedMatches (stopped : ActivationNotSelected) : Prop :=
  stopped.operationId = request.command.identity.operationId ∧
  stopped.candidateEpoch = request.pins.epoch
  deriving Decidable

/-! ## Methods -/

def EffectPorts.execute (program : Coordinator)
    (gate : FabricAdmissionRuntime) : ActivationTransactionOutcome × FabricAdmissionRuntime :=
  (program.run ports.answers.handler gate).2

def prepare (executing : CommandRecord) (owner : ExecutionOwner)
    (context : ReductionContext) : Except CommandPortError PrepareEffectOutcome := do
  let attempt ← executingAttempt executing owner context .activateEpoch
  let resolved ← resolved ports executing attempt none
  return .prepared resolved.transaction

/-- What a commit makes of the coordinator's outcome, and the ticket it leaves. -/
def commitOutcome (row : Option ActivationReconciliationRecord)
    (resolved : ResolvedActivationTransaction) (transaction : TransactionRef) :
    ActivationTransactionOutcome →
      Except CommandPortError (CommitEffectOutcome × Option ActivationReconciliationRecord)
  | .activated receipt => do
    ensure (receipt.reconciliationEvidence = none ∧
      ActivatedReceiptMatches resolved.request.recoveryRequest receipt
        resolved.request.executionFence) .corruptRecord
    return (.committed (activatedResult receipt), row)
  | .notSelected stopped => do
    ensure (NotSelectedMatches resolved.request.recoveryRequest stopped) .corruptRecord
    let failure ← classifyNotSelected ports resolved stopped
    return (.knownFailure failure, row)
  | .reconciliationNeeded ticket => do
    let recovery ← (ResolvedActivationRecovery.tryNew resolved.request.recoveryRequest
      transaction).mapError fun _ => CommandPortError.corruptRecord
    let _ ← (LoadedActivationReconciliation.tryNew recovery ticket).mapError
      fun _ => CommandPortError.corruptRecord
    let persisted ← persistReconciliation ports.store row recovery ticket
    return (.unknown persisted.unknown, some persisted)

def commit (state : EffectState) (prepared : CommandRecord)
    (owner : ExecutionOwner) (transaction : TransactionRef) (context : ReductionContext) :
    Except CommandPortError CommitEffectOutcome × EffectState :=
  let checked := do
    let attempt ← preparedAttempt prepared owner transaction context .activateEpoch
    resolved ports prepared attempt (some transaction)
  match checked with
  | .error error => (.error error, state)
  | .ok resolved =>
    let (outcome, gate) := ports.execute (activate resolved.request) state.gate
    match commitOutcome ports state.row resolved transaction outcome with
    | .error error => (.error error, { state with gate := gate })
    | .ok (outcome, row) => (.ok outcome, ⟨row, gate⟩)

/-- What a reconciliation makes of the recovery's outcome, and the ticket it leaves. -/
def observeRecovery (loaded : ResolvedActivationRecovery) (owner : ExecutionOwner) :
    ActivationTransactionOutcome →
      Except CommandPortError (ReconciliationObservation × Option ActivationReconciliationRecord)
  | .activated receipt => do
    let evidence ← okOr receipt.reconciliationEvidence .corruptRecord
    ensure (RecoveredActivatedReceiptMatches loaded.request receipt owner.fence) .corruptRecord
    return (.committed evidence (activatedResult receipt), row)
  | .notSelected stopped =>
    match stopped.reason with
    | .operationMarkerProvedNotSelected evidence => do
      ensure (NotSelectedMatches loaded.request stopped) .corruptRecord
      return (.notCommitted evidence, row)
    | _ => throw .corruptRecord
  | .reconciliationNeeded next => do
    let _ ← (LoadedActivationReconciliation.tryNew loaded next).mapError
      fun _ => CommandPortError.corruptRecord
    let persisted ← persistReconciliation ports.store row loaded next
    return (.indeterminate persisted.evidence, some persisted)

def loadRecovery (awaiting : CommandRecord)
    (owner : ExecutionOwner) (transaction : TransactionRef) (context : ReductionContext) :
    Except CommandPortError (LoadedActivationReconciliation × ActivationRecoveryAttempt) := do
  let recovery ← reconciliationAttempt awaiting owner transaction context .activateEpoch
  let attempt := recovery.attempt
  let loaded ← loadReconciliation row awaiting owner transaction context
  ensure (loaded.resolved.request.attempt = attempt ∧
    loaded.resolved.request.command = attempt.command ∧
    loaded.resolved.transaction = transaction ∧
    loaded.resolved.request.executionFence = attempt.executionOwner.fence) .corruptRecord
  return (loaded, recovery)

def reconcile (state : EffectState) (awaiting : CommandRecord)
    (owner : ExecutionOwner) (transaction : TransactionRef) (context : ReductionContext) :
    Except CommandPortError ReconciliationObservation × EffectState :=
  match loadRecovery state.row awaiting owner transaction context with
  | .error error => (.error error, state)
  | .ok (loaded, recovery) =>
    let (outcome, gate) :=
      ports.execute (recover loaded.resolved.request loaded.ticket recovery) state.gate
    match observeRecovery ports state.row loaded.resolved owner outcome with
    | .error error => (.error error, { state with gate := gate })
    | .ok (observation, row) => (.ok observation, ⟨row, gate⟩)

end CodeFabric.Activation
