import Mathlib.Tactic

/-! # The durable command contract: data model

The values of the durable command path (`fabric/command.rs`): typed identities, the immutable
command envelope, the nine durable states of a command record, and the events, results and errors
of its reducer. Everything here is data; `Reducer` holds the transition function.

* **`ByteIdentity name width`** is the family of the source's `byte_identity!` newtypes: the
  phantom `name` keeps two identities of one width apart.
* Counters (`attempt`, `probeCount`, `revision`) are natural numbers; the reducer's `checked_add`
  keeps them below `2 ^ 32` and `2 ^ 64`. -/

namespace CodeFabric.Command

/-! ## Identities -/

/-- The names of the `byte_identity!` newtypes. -/
inductive IdentityName
  | operationId | idempotencyKey | workspaceId | principalId | actorId | leaseId | epochId
  | authorizationRef | inputReleaseRef | programReleaseRef | applicationReleaseRef
  | sourceAuthorityRef | providerReleaseRef | providerSetRef | resourceEnvelopeRef
  | sourceImageSetRef | providerRunRef | ownerSetRef | relationSetRef | analysisRunRef
  | proofReceiptRef | rollbackAuthorizationRef | retentionPolicyRef | protectedSetRef
  | administrationRequestRef | operationSelectionRef | transactionRef
  | reconciliationEvidenceRef | diagnosticRef
  deriving DecidableEq, Repr

/-- A typed identity over its canonical bytes (`byte_identity!`). -/
structure ByteIdentity (name : IdentityName) (width : Nat) where
  /-- The canonical identity bytes. -/
  asBytes : Vector UInt8 width
  deriving DecidableEq, Repr

/-- Stable operation identity used for lookup and durable reconciliation. -/
abbrev OperationId := ByteIdentity .operationId 16
/-- Caller-stable key that prevents one logical intent from creating two operations. -/
abbrev IdempotencyKey := ByteIdentity .idempotencyKey 32
/-- Workspace identity owning the command and all of its effects. -/
abbrev WorkspaceId := ByteIdentity .workspaceId 16
abbrev PrincipalId := ByteIdentity .principalId 16
/-- Single-actor identity owning one execution attempt. -/
abbrev ActorId := ByteIdentity .actorId 16
/-- OS-backed lease identity paired with a writer generation. -/
abbrev LeaseId := ByteIdentity .leaseId 16
abbrev EpochId := ByteIdentity .epochId 16
abbrev AuthorizationRef := ByteIdentity .authorizationRef 32
abbrev InputReleaseRef := ByteIdentity .inputReleaseRef 32
abbrev ProgramReleaseRef := ByteIdentity .programReleaseRef 32
/-- Exact application and analysis implementation release pin. -/
abbrev ApplicationReleaseRef := ByteIdentity .applicationReleaseRef 32
abbrev SourceAuthorityRef := ByteIdentity .sourceAuthorityRef 32
abbrev ProviderReleaseRef := ByteIdentity .providerReleaseRef 32
/-- Exact admitted provider-run/configuration set authority. -/
abbrev ProviderSetRef := ByteIdentity .providerSetRef 32
abbrev ResourceEnvelopeRef := ByteIdentity .resourceEnvelopeRef 32
abbrev SourceImageSetRef := ByteIdentity .sourceImageSetRef 32
abbrev ProviderRunRef := ByteIdentity .providerRunRef 32
abbrev OwnerSetRef := ByteIdentity .ownerSetRef 32
abbrev RelationSetRef := ByteIdentity .relationSetRef 32
abbrev AnalysisRunRef := ByteIdentity .analysisRunRef 32
/-- Proof receipt for one exact candidate or equivalence claim. -/
abbrev ProofReceiptRef := ByteIdentity .proofReceiptRef 32
abbrev RollbackAuthorizationRef := ByteIdentity .rollbackAuthorizationRef 32
abbrev RetentionPolicyRef := ByteIdentity .retentionPolicyRef 32
abbrev ProtectedSetRef := ByteIdentity .protectedSetRef 32
abbrev AdministrationRequestRef := ByteIdentity .administrationRequestRef 32
/-- Durable operation-selection row written by the control relation. -/
abbrev OperationSelectionRef := ByteIdentity .operationSelectionRef 32
/-- Backend transaction or operation marker used for readback. -/
abbrev TransactionRef := ByteIdentity .transactionRef 32
abbrev ReconciliationEvidenceRef := ByteIdentity .reconciliationEvidenceRef 32
abbrev DiagnosticRef := ByteIdentity .diagnosticRef 32

/-! ## Fences, heads and the command envelope -/

/-- Monotonic single-writer generation: a nonzero `u64`. -/
structure WriterGeneration where
  /-- The numeric generation. -/
  get : Nat
  /-- Zero is never a valid generation. -/
  ne_zero : get ≠ 0
  /-- The generation fits in 64 bits. -/
  lt_width : get < 2 ^ 64
  deriving DecidableEq, Repr

/-- Exact source generation consumed or produced by a command. -/
structure SourceGeneration where
  /-- The numeric source generation; zero is the empty-workspace baseline. -/
  get : UInt64
  deriving DecidableEq, Repr

/-- Exact local-writer authority required at every durable write boundary. -/
structure WriterFence where
  leaseId : LeaseId
  generation : WriterGeneration
  deriving DecidableEq, Repr

/-- Predecessor selected when the command was authored. -/
inductive ExpectedHead
  /-- Bootstrap is legal only while no fabric epoch exists. -/
  | empty
  /-- The exact immutable epoch that must still be current. -/
  | epoch (epoch : EpochId)
  deriving DecidableEq, Repr

structure CommandIdentity where
  operationId : OperationId
  idempotencyKey : IdempotencyKey
  deriving DecidableEq, Repr

/-- Submission ownership and the exact authorization fact admitted with the command. -/
structure CommandOwnership where
  workspaceId : WorkspaceId
  principalId : PrincipalId
  authorization : AuthorizationRef
  deriving DecidableEq, Repr

/-- Complete semantic input pins shared by every durable command variant. -/
structure CommandPins where
  inputRelease : InputReleaseRef
  programRelease : ProgramReleaseRef
  applicationRelease : ApplicationReleaseRef
  sourceAuthority : SourceAuthorityRef
  sourceGeneration : SourceGeneration
  providerRelease : ProviderReleaseRef
  providerSet : ProviderSetRef
  deriving DecidableEq, Repr

/-- Relation family being replaced by a typed publication command. -/
inductive RelationClass
  | providerNative | canonical | derived | operationalFact
  deriving DecidableEq, Repr

inductive RelationPublication
  | providerNative (providerRun : ProviderRunRef) (owners : OwnerSetRef)
      (relations : RelationSetRef)
  | canonical (normalizationRun : AnalysisRunRef) (owners : OwnerSetRef)
      (relations : RelationSetRef)
  | derived (analysisRun : AnalysisRunRef) (owners : OwnerSetRef) (relations : RelationSetRef)
  | operationalFact (request : AdministrationRequestRef) (relations : RelationSetRef)
  deriving DecidableEq, Repr

inductive AdministrationAction
  | rebuildCandidate | repairTemporalCache | reconcileOperation | inspectDeltaRetention
  | validateDeltaRetention | planDeltaVacuum | createDeltaCheckpoint | compactDelta
  | executeDeltaVacuum
  deriving DecidableEq, Repr

/-- Exhaustive command kind used by dispatch and result compatibility checks. -/
inductive CommandKind
  | publishSourceWave | publishRelations | activateEpoch | rollbackEpoch | compactRelations
  | applyRetention | administer
  deriving DecidableEq, Repr

inductive FabricCommandPayload
  | publishSourceWave (sourceImages : SourceImageSetRef) (targetGeneration : SourceGeneration)
  | publishRelations (publication : RelationPublication)
  | activateEpoch (candidateEpoch : EpochId) (proofReceipt : ProofReceiptRef)
  | rollbackEpoch (targetEpoch : EpochId) (authorization : RollbackAuthorizationRef)
  | compactRelations (relations : RelationSetRef) (equivalenceProof : ProofReceiptRef)
  | applyRetention (policy : RetentionPolicyRef) (protectedSet : ProtectedSetRef)
  | administer (action : AdministrationAction) (request : AdministrationRequestRef)
  deriving DecidableEq, Repr

def FabricCommandPayload.kind : FabricCommandPayload → CommandKind
  | .publishSourceWave .. => .publishSourceWave
  | .publishRelations .. => .publishRelations
  | .activateEpoch .. => .activateEpoch
  | .rollbackEpoch .. => .rollbackEpoch
  | .compactRelations .. => .compactRelations
  | .applyRetention .. => .applyRetention
  | .administer .. => .administer

/-- Immutable command envelope admitted before any side effect. -/
structure FabricCommand where
  identity : CommandIdentity
  ownership : CommandOwnership
  expectedHead : ExpectedHead
  writerFence : WriterFence
  pins : CommandPins
  resources : ResourceEnvelopeRef
  payload : FabricCommandPayload
  deriving DecidableEq, Repr

/-- The command's variant, without a duplicate discriminant. -/
def FabricCommand.kind (command : FabricCommand) : CommandKind := command.payload.kind

/-! ## Contexts -/

/-- Authorization result supplied by the authoritative policy evaluator. -/
inductive AuthorizationDecision
  | authorized (reference : AuthorizationRef)
  | denied (diagnostic : DiagnosticRef)
  | unknown (diagnostic : DiagnosticRef)
  deriving DecidableEq, Repr

structure AdmissionContext where
  workspaceId : WorkspaceId
  currentHead : ExpectedHead
  activeFence : WriterFence
  authorization : AuthorizationDecision
  deriving DecidableEq, Repr

/-- Authoritative mutable facts re-read for each reducer event. -/
structure ReductionContext where
  currentHead : ExpectedHead
  activeFence : WriterFence
  deriving DecidableEq, Repr

/-- Actor and fence owning one execution attempt. -/
structure ExecutionOwner where
  actorId : ActorId
  fence : WriterFence
  deriving DecidableEq, Repr

/-! ## Results, failures and unknown commits -/

/-- Result of one command, typed by the command kind that may produce it. -/
inductive CommandResult
  | sourceWavePublished (sourceGeneration : SourceGeneration) (resultingHead : ExpectedHead)
      (selection : OperationSelectionRef)
  | relationsPublished (relationClass : RelationClass) (relations : RelationSetRef)
      (resultingHead : ExpectedHead) (selection : OperationSelectionRef)
  | epochActivated (epoch : EpochId) (selection : OperationSelectionRef)
  | epochRolledBack (epoch : EpochId) (selection : OperationSelectionRef)
  | relationsCompacted (relations : RelationSetRef) (resultingHead : ExpectedHead)
      (selection : OperationSelectionRef)
  | retentionApplied (protectedSet : ProtectedSetRef) (resultingHead : ExpectedHead)
      (selection : OperationSelectionRef)
  | administrationApplied (request : AdministrationRequestRef) (resultingHead : ExpectedHead)
      (selection : OperationSelectionRef)
  deriving DecidableEq, Repr

def CommandResult.kind : CommandResult → CommandKind
  | .sourceWavePublished .. => .publishSourceWave
  | .relationsPublished .. => .publishRelations
  | .epochActivated .. => .activateEpoch
  | .epochRolledBack .. => .rollbackEpoch
  | .relationsCompacted .. => .compactRelations
  | .retentionApplied .. => .applyRetention
  | .administrationApplied .. => .administer

inductive FailureCode
  | authorizationRevoked | invalidInput | resourceExhausted | backendUnavailable | cancelled
  | internalInvariant
  deriving DecidableEq, Repr

/-- Whether a known failure proves that the command did not commit. -/
inductive FailureClass
  | permanent | retryableBeforeCommit
  deriving DecidableEq, Repr

/-- Retry decision made only from a known failure or an unknown commit outcome. -/
inductive RetryClassification
  | never | retrySameCommandAfterKnownNoCommit | reconcileBeforeDecision
  deriving DecidableEq, Repr

/-- Typed known failure. It cannot represent an unknown commit outcome. -/
structure CommandFailure where
  code : FailureCode
  failureClass : FailureClass
  diagnostic : DiagnosticRef
  deriving DecidableEq, Repr

/-- Derive retry behavior without backend-specific guessing. -/
def CommandFailure.retryClassification (failure : CommandFailure) : RetryClassification :=
  match failure.failureClass with
  | .permanent => .never
  | .retryableBeforeCommit => .retrySameCommandAfterKnownNoCommit

/-- Why an adapter lost authoritative knowledge of a prepared commit. -/
inductive UnknownCommitReason
  | timeout | connectionLost | processInterrupted | readbackUnavailable
  deriving DecidableEq, Repr

/-- Unknown commit outcomes are not failures and can never authorize a blind retry. -/
structure UnknownCommit where
  reason : UnknownCommitReason
  diagnostic : DiagnosticRef
  deriving DecidableEq, Repr

/-- Why a command was cancelled while no commit was in flight. -/
structure CommandCancellation where
  diagnostic : DiagnosticRef
  deriving DecidableEq, Repr

/-- Evidence path that first established a successful terminal result. -/
inductive CommitConfirmation
  | direct
  | reconciled (evidence : ReconciliationEvidenceRef)
  deriving DecidableEq, Repr

/-- Durable basis that makes a subsequent retry legal. -/
inductive RetryBasis
  | knownFailure (failure : CommandFailure)
  | reconciledNotCommitted (evidence : ReconciliationEvidenceRef)
  deriving DecidableEq, Repr

/-! ## Durable states and records -/

inductive DurableCommandState
  | admitted (attempt : Nat)
  | executing (attempt : Nat) (owner : ExecutionOwner)
  | commitPrepared (attempt : Nat) (owner : ExecutionOwner) (transaction : TransactionRef)
  | awaitingReconciliation (attempt : Nat) (executionOwner recoveryOwner : ExecutionOwner)
      (transaction : TransactionRef) (unknown : UnknownCommit) (probeCount : Nat)
      (lastEvidence : Option ReconciliationEvidenceRef)
  | retryReady (nextAttempt : Nat) (requiredFence : WriterFence) (basis : RetryBasis)
  | succeeded (transaction : TransactionRef) (result : CommandResult)
      (confirmation : CommitConfirmation)
  | failed (failure : CommandFailure)
  | cancelled (cancellation : CommandCancellation)
  deriving DecidableEq, Repr

/-- Coarse state identity used in stable transition errors. -/
inductive CommandStateKind
  | admitted | executing | commitPrepared | awaitingReconciliation | retryReady | succeeded
  | failed | cancelled
  deriving DecidableEq, Repr

def DurableCommandState.kind : DurableCommandState → CommandStateKind
  | .admitted .. => .admitted
  | .executing .. => .executing
  | .commitPrepared .. => .commitPrepared
  | .awaitingReconciliation .. => .awaitingReconciliation
  | .retryReady .. => .retryReady
  | .succeeded .. => .succeeded
  | .failed .. => .failed
  | .cancelled .. => .cancelled

def DurableCommandState.isTerminal : DurableCommandState → Bool
  | .succeeded .. | .failed .. | .cancelled .. => true
  | .admitted .. | .executing .. | .commitPrepared .. | .awaitingReconciliation ..
  | .retryReady .. => false

structure CommandRecord where
  command : FabricCommand
  state : DurableCommandState
  revision : Nat
  deriving DecidableEq, Repr

def CommandRecord.operationId (record : CommandRecord) : OperationId :=
  record.command.identity.operationId

/-- The only legal restart action implied by one nonterminal durable state. -/
inductive CommandRecoveryObligation
  | resumePrecommit
  | markInterruptedCommit (transaction : TransactionRef)
  | reconcileCommit (transaction : TransactionRef)
  | retryProvedNotCommitted
  deriving DecidableEq, Repr

/-- The one restart obligation encoded by a record, or `none` when terminal. -/
def CommandRecord.recoveryObligation (record : CommandRecord) : Option CommandRecoveryObligation :=
  match record.state with
  | .admitted .. | .executing .. => some .resumePrecommit
  | .commitPrepared _ _ transaction => some (.markInterruptedCommit transaction)
  | .awaitingReconciliation _ _ _ transaction .. => some (.reconcileCommit transaction)
  | .retryReady .. => some .retryProvedNotCommitted
  | .succeeded .. | .failed .. | .cancelled .. => none

theorem CommandRecord.recoveryObligation_isSome (record : CommandRecord) :
    record.recoveryObligation.isSome = !record.state.isTerminal := by
  unfold recoveryObligation DurableCommandState.isTerminal
  cases record.state <;> rfl

/-! ## Events, reductions and errors -/

/-- Durable observation returned by operation-marker/control-history reconciliation. -/
inductive ReconciliationObservation
  | committed (evidence : ReconciliationEvidenceRef) (result : CommandResult)
  | notCommitted (evidence : ReconciliationEvidenceRef)
  | indeterminate (evidence : ReconciliationEvidenceRef)
  deriving DecidableEq, Repr

/-- Reducer input produced by the actor or a backend adapter. -/
inductive CommandEvent
  | start (owner : ExecutionOwner)
  | prepareCommit (owner : ExecutionOwner) (transaction : TransactionRef)
  | confirmCommit (owner : ExecutionOwner) (transaction : TransactionRef) (result : CommandResult)
  | reportKnownFailure (owner : ExecutionOwner) (failure : CommandFailure)
  | reportUnknownCommit (owner : ExecutionOwner) (transaction : TransactionRef)
      (unknown : UnknownCommit)
  | observeReconciliation (owner : ExecutionOwner) (transaction : TransactionRef)
      (observation : ReconciliationObservation)
  | cancelBeforeCommit (owner : ExecutionOwner) (cancellation : CommandCancellation)
  deriving DecidableEq, Repr

/-- Coarse event identity used in stable transition errors. -/
inductive CommandEventKind
  | start | prepareCommit | confirmCommit | reportKnownFailure | reportUnknownCommit
  | observeReconciliation | cancelBeforeCommit
  deriving DecidableEq, Repr

def CommandEvent.kind : CommandEvent → CommandEventKind
  | .start .. => .start
  | .prepareCommit .. => .prepareCommit
  | .confirmCommit .. => .confirmCommit
  | .reportKnownFailure .. => .reportKnownFailure
  | .reportUnknownCommit .. => .reportUnknownCommit
  | .observeReconciliation .. => .observeReconciliation
  | .cancelBeforeCommit .. => .cancelBeforeCommit

def CommandEvent.owner : CommandEvent → ExecutionOwner
  | .start owner | .prepareCommit owner _ | .confirmCommit owner _ _
  | .reportKnownFailure owner _ | .reportUnknownCommit owner _ _
  | .observeReconciliation owner _ _ | .cancelBeforeCommit owner _ => owner

/-- Whether reduction changed durable state or recognized an exact replay. -/
inductive ReductionEffect
  | stateChanged | idempotentReplay | reconciliationStillRequired
  deriving DecidableEq, Repr

/-- Predecessor/successor pair emitted only by the reducer. -/
structure ReducerTransition where
  predecessor : CommandRecord
  successor : CommandRecord
  effect : ReductionEffect
  deriving DecidableEq, Repr

structure Reduction where
  record : CommandRecord
  effect : ReductionEffect
  transition : Option ReducerTransition
  deriving DecidableEq, Repr

/-- Admission either creates one record or returns the already-authoritative exact record. -/
inductive AdmissionOutcome
  | new (record : CommandRecord)
  | existing (record : CommandRecord)
  deriving DecidableEq, Repr

def AdmissionOutcome.record : AdmissionOutcome → CommandRecord
  | .new record | .existing record => record

inductive CommandContractError
  | duplicateOperationConflict (operationId : OperationId)
  | payloadConflict (operationId : OperationId)
  | idempotencyKeyConflict (idempotencyKey : IdempotencyKey)
  | existingLookupMismatch
  | workspaceMismatch
  | authorizationDenied
  | authorizationUnknown
  | authorizationMismatch
  | staleExpectedHead (expected observed : ExpectedHead)
  | staleWriterFence (expected observed : WriterFence)
  | executionOwnerMismatch
  | recoveryFenceNotAdvanced
  | illegalTransition (state : CommandStateKind) (event : CommandEventKind)
  | transactionMismatch
  | resultKindMismatch (command result : CommandKind)
  | terminalConflict
  | attemptOverflow
  | revisionOverflow
  deriving DecidableEq, Repr

/-- Reducer invariants rechecked after deserializing one temporal journal record. -/
inductive CommandRecordInvariantError
  | invalidAttempt (state : CommandStateKind)
  | invalidRevision (state : CommandStateKind)
  | invalidExecutionFence (state : CommandStateKind)
  | invalidRecoveryFence
  | invalidReconciliationEvidence
  | invalidRetryBasis
  | invalidTerminalFailure
  | invalidResultKind
  deriving DecidableEq, Repr

end CodeFabric.Command
