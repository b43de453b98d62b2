import CodeFabric.Activation.Request
import CodeFabric.Support.Execution

/-! # The activation transaction

The ordered protocol that activates one sealed epoch, and its marker-driven recovery
(`fabric/activation_transaction.rs`). Both are programs over ports: every `await` of the source is
one call, answered by somebody else.

**`activate`** proves the candidate, closes the gate, revalidates the authority, appends the
event, publishes the epoch, reconciles the cache, reopens the gate and acknowledges, in that
order. It is cut into one definition per awaited stage. -/

namespace CodeFabric.Activation

open Fallible Command Interleaving

/-! ## Port answers -/

structure CandidateProofRequest where
  workspaceId : WorkspaceId
  operationId : OperationId
  expectedHead : ExpectedHead
  executionFence : WriterFence
  pins : FabricEpochPins
  deriving DecidableEq, Repr

inductive CandidateProofOutcome
  | proved (proofReceipt : ProofReceiptRef)
  | failed (diagnostic : DiagnosticRef)
  | unknown (diagnostic : DiagnosticRef)
  | cancelled (diagnostic : DiagnosticRef)
  deriving DecidableEq, Repr

/-- Authority lookup key supplied after the admission barrier has been established. -/
structure ActivationAuthorityRequest where
  workspaceId : WorkspaceId
  operationId : OperationId
  expectedHead : ExpectedHead
  executionFence : WriterFence
  deriving DecidableEq, Repr

/-- Revalidation result; only `valid` authorizes an append. -/
inductive AuthorityRevalidationOutcome
  | valid (snapshot : ActivationAuthoritySnapshot)
  | stale (snapshot : ActivationAuthoritySnapshot)
  | unknown (diagnostic : DiagnosticRef)
  | cancelled (diagnostic : DiagnosticRef)
  deriving DecidableEq, Repr

inductive ActivationNotCommittedReason
  | rejected | cancelledBeforeCommit | predecessorConflict
  deriving DecidableEq, Repr

/-- Why it is not known whether something was committed. -/
inductive ActivationAppendUnknownReason
  | commitOutcomeUnknown | readbackUnavailable | cancelledDuringCommit
  deriving DecidableEq, Repr

inductive ActivationAppendOutcome
  | committed (selection : SelectedEpochRecord) (chainAfterReadback : ActivationChain)
  | notCommitted (unchangedChain : ActivationChain) (reason : ActivationNotCommittedReason)
  | unknown (reason : ActivationAppendUnknownReason) (diagnostic : DiagnosticRef)
  deriving DecidableEq, Repr

inductive ActivationCacheOutcome
  | reconciled (receipt : ActivationCacheReceipt)
  | unknown (diagnostic : DiagnosticRef)
  | cancelled (diagnostic : DiagnosticRef)
  deriving DecidableEq, Repr

inductive ActivationAcknowledgementOutcome
  | acknowledged (receipt : ActivationAcknowledgementReceipt)
  | unknown (diagnostic : DiagnosticRef)
  | cancelled (diagnostic : DiagnosticRef)
  deriving DecidableEq, Repr

/-- Durable lookup key for an activation whose outcome is unknown. -/
structure ActivationOperationMarkerRequest where
  workspaceId : WorkspaceId
  operationId : OperationId
  eventId : ActivationEventId
  expectedHead : ExpectedHead
  executionFence : WriterFence
  activeRecoveryFence : WriterFence
  transaction : TransactionRef
  operationSelection : OperationSelectionRef
  controlRelation : ActivationControlRelationPin
  deriving DecidableEq, Repr

/-- Acknowledgement state observed in the same durable marker read. -/
inductive ActivationAcknowledgementMarker
  | absent
  | acknowledged (receipt : ActivationAcknowledgementReceipt)
  deriving DecidableEq, Repr

/-- Result of querying the operation marker and the complete control history. -/
inductive ActivationOperationMarkerOutcome
  | selected (selection : SelectedEpochRecord) (chainAfterReadback : ActivationChain)
      (acknowledgement : ActivationAcknowledgementMarker) (evidence : ReconciliationEvidenceRef)
  | provedNotSelected (unchangedChain : ActivationChain) (evidence : ReconciliationEvidenceRef)
  | unknown (diagnostic : DiagnosticRef)
  deriving DecidableEq, Repr

/-! ## Outcomes -/

/-- Ordered boundary reached when a transaction stops or requires recovery. -/
inductive ActivationTransactionStage
  | candidateProof | admissionClosure | authorityRevalidation | durableAppendReadback | epochSwap
  | cacheReconciliation | admissionReopen | acknowledgement
  deriving DecidableEq, Repr

/-- Knowledge about the durable selection at the point recovery became necessary. -/
inductive DurableSelectionKnowledge
  | notAttempted
  | unknown
  | readBack (eventId : ActivationEventId)
  deriving DecidableEq, Repr

/-- Process-local gate posture retained in a recovery ticket. -/
inductive ActivationAdmissionPosture
  | neverClosed | closed | swapped | reopened
  deriving DecidableEq, Repr

inductive ActivationNotSelectedReason
  | proofFailed (diagnostic : DiagnosticRef)
  | proofUnknown (diagnostic : DiagnosticRef)
  | cancelledBeforeClosure (diagnostic : DiagnosticRef)
  | proofReceiptMismatch
  | admissionRejected (error : AdmissionError)
  | appendProvedNotCommitted (reason : ActivationNotCommittedReason)
  | operationMarkerProvedNotSelected (evidence : ReconciliationEvidenceRef)
  deriving DecidableEq, Repr

inductive ActivationReconciliationReason
  | authorityStale
  | authorityUnknown (diagnostic : DiagnosticRef)
  | cancelledAfterClosure (diagnostic : DiagnosticRef)
  | appendUnknown (reason : ActivationAppendUnknownReason) (diagnostic : DiagnosticRef)
  | readbackViolation (violation : ActivationReadbackViolation)
  | admissionFailure (error : AdmissionError)
  | cacheUnknown (diagnostic : DiagnosticRef)
  | cacheCancelled (diagnostic : DiagnosticRef)
  | acknowledgementUnknown (diagnostic : DiagnosticRef)
  | acknowledgementCancelled (diagnostic : DiagnosticRef)
  | operationMarkerUnknown (diagnostic : DiagnosticRef)
  deriving DecidableEq, Repr

/-- Fully pinned instruction for deterministic recovery. -/
structure ActivationReconciliationTicket where
  stage : ActivationTransactionStage
  reason : ActivationReconciliationReason
  workspaceId : WorkspaceId
  operationId : OperationId
  candidateEpoch : EpochId
  expectedHead : ExpectedHead
  executionFence : WriterFence
  eventId : ActivationEventId
  transaction : TransactionRef
  operationSelection : OperationSelectionRef
  durableSelection : DurableSelectionKnowledge
  admissionPosture : ActivationAdmissionPosture
  deriving DecidableEq, Repr

structure ActivationNotSelected where
  stage : ActivationTransactionStage
  reason : ActivationNotSelectedReason
  operationId : OperationId
  candidateEpoch : EpochId
  deriving DecidableEq, Repr

structure ActivatedEpochReceipt where
  event : ActivationEvent
  cache : ActivationCacheReceipt
  acknowledgement : ActivationAcknowledgementReceipt
  reconciliationEvidence : Option ReconciliationEvidenceRef
  deriving DecidableEq, Repr

/-- Terminal coordinator result; only `activated` is success. -/
inductive ActivationTransactionOutcome
  | activated (receipt : ActivatedEpochReceipt)
  | notSelected (stopped : ActivationNotSelected)
  | reconciliationNeeded (ticket : ActivationReconciliationTicket)
  deriving DecidableEq, Repr

def notSelected (request : ActivationRecoveryRequest) (stage : ActivationTransactionStage)
    (reason : ActivationNotSelectedReason) : ActivationTransactionOutcome :=
  .notSelected {
    stage := stage
    reason := reason
    operationId := request.command.identity.operationId
    candidateEpoch := request.pins.epoch }

variable (request : ActivationRecoveryRequest) (stage : ActivationTransactionStage)
  (reason : ActivationReconciliationReason) (durableSelection : DurableSelectionKnowledge)
  (admissionPosture : ActivationAdmissionPosture)

def reconciliationTicket : ActivationReconciliationTicket where
  stage := stage
  reason := reason
  workspaceId := request.command.ownership.workspaceId
  operationId := request.command.identity.operationId
  candidateEpoch := request.pins.epoch
  expectedHead := request.command.expectedHead
  executionFence := request.executionFence
  eventId := request.eventId
  transaction := request.transaction
  operationSelection := request.operationSelection
  durableSelection := durableSelection
  admissionPosture := admissionPosture

def reconciliation : ActivationTransactionOutcome :=
  .reconciliationNeeded
    (reconciliationTicket request stage reason durableSelection admissionPosture)

/-! ## Accepted tickets -/

def DurableSelectionKnowledge.isReadBack : DurableSelectionKnowledge → Bool
  | .readBack _ => true
  | .notAttempted | .unknown => false

variable (ticket : ActivationReconciliationTicket)

/-- The stage of a ticket can have left the gate and the log as the ticket says. -/
def RecoveryStageIsCausal : Prop :=
  match ticket.stage with
  | .candidateProof | .admissionClosure =>
    ticket.admissionPosture = .neverClosed ∧ ticket.durableSelection = .notAttempted
  | .authorityRevalidation =>
    ticket.admissionPosture = .closed ∧ ticket.durableSelection = .notAttempted
  | .durableAppendReadback =>
    ticket.admissionPosture = .closed ∧
      (ticket.durableSelection = .notAttempted ∨ ticket.durableSelection = .unknown)
  | .epochSwap => ticket.admissionPosture = .closed ∧ ticket.durableSelection.isReadBack
  | .cacheReconciliation =>
    ticket.admissionPosture = .swapped ∧ ticket.durableSelection.isReadBack
  | .admissionReopen =>
    (ticket.admissionPosture = .closed ∧ ticket.durableSelection = .notAttempted) ∨
      (ticket.admissionPosture = .swapped ∧ ticket.durableSelection.isReadBack)
  | .acknowledgement => ticket.admissionPosture = .reopened ∧ ticket.durableSelection.isReadBack

instance (ticket : ActivationReconciliationTicket) : Decidable (RecoveryStageIsCausal ticket) := by
  unfold RecoveryStageIsCausal
  split <;> infer_instance

def DurableSelectionKnowledge.Names (eventId : ActivationEventId) : DurableSelectionKnowledge → Prop
  | .readBack selected => selected = eventId
  | .notAttempted | .unknown => True

instance (eventId : ActivationEventId) :
    (knowledge : DurableSelectionKnowledge) → Decidable (knowledge.Names eventId)
  | .readBack selected => inferInstanceAs (Decidable (selected = eventId))
  | .notAttempted => inferInstanceAs (Decidable True)
  | .unknown => inferInstanceAs (Decidable True)

def TicketNames : Prop :=
  ticket.workspaceId = request.command.ownership.workspaceId ∧
  ticket.operationId = request.command.identity.operationId ∧
  ticket.candidateEpoch = request.pins.epoch ∧
  ticket.expectedHead = request.command.expectedHead ∧
  ticket.executionFence = request.executionFence ∧
  ticket.eventId = request.eventId ∧
  ticket.transaction = request.transaction ∧
  ticket.operationSelection = request.operationSelection
  deriving Decidable

def RecoveryTicketMatches : Prop :=
  TicketNames request ticket ∧ ticket.durableSelection.Names request.eventId ∧
    RecoveryStageIsCausal ticket
  deriving Decidable

/-! ## Ports -/

/-- One awaited call of a coordinator. -/
inductive ActivationPort
  | proveCandidate (request : CandidateProofRequest)
  | closeAdmission (expectedHead : ExpectedHead) (executionFence : WriterFence)
  | revalidate (request : ActivationAuthorityRequest)
  | appendAndReadback (contract : ActivationAppendContract)
  | publishSelectedEpoch (barrier : ActivationBarrier) (selection : SelectedEpochRecord)
      (chainAfterReadback : ActivationChain) (candidate : ProgrammaticFabricEpoch)
  | reconcileSelected (event : ActivationEvent) (chainAfterReadback : ActivationChain)
      (activeFence : WriterFence)
  | reconcileAndReopen (barrier : ActivationBarrier) (reconciledHead : ExpectedHead)
  | abortProvedNoSelection (barrier : ActivationBarrier) (unchangedChain : ActivationChain)
  | acknowledge (event : ActivationEvent) (activeFence : WriterFence)
  | readOperationMarker (request : ActivationOperationMarkerRequest)
  | recoverSelectedEpoch (expectedHead : ExpectedHead)
      (executionFence activeRecoveryFence : WriterFence) (selection : SelectedEpochRecord)
      (chainAfterReadback : ActivationChain) (allowAlreadyReopened : Bool)
  | reopenRecoveredSelection (event : ActivationEvent) (chainAfterReadback : ActivationChain)
      (activeRecoveryFence : WriterFence)
  | recoverProvedNoSelection (expectedHead : ExpectedHead)
      (executionFence activeRecoveryFence : WriterFence) (unchangedChain : ActivationChain)
  deriving DecidableEq, Repr

abbrev PortAnswer : ActivationPort → Type
  | .proveCandidate _ => CandidateProofOutcome
  | .closeAdmission .. => Except AdmissionError ActivationBarrier
  | .revalidate _ => AuthorityRevalidationOutcome
  | .appendAndReadback _ => ActivationAppendOutcome
  | .publishSelectedEpoch .. => Except AdmissionError Unit
  | .reconcileSelected .. => ActivationCacheOutcome
  | .reconcileAndReopen .. => Except AdmissionError Unit
  | .abortProvedNoSelection .. => Except AdmissionError Unit
  | .acknowledge .. => ActivationAcknowledgementOutcome
  | .readOperationMarker _ => ActivationOperationMarkerOutcome
  | .recoverSelectedEpoch .. => Except AdmissionError RecoverySelectionPublication
  | .reopenRecoveredSelection .. => Except AdmissionError Unit
  | .recoverProvedNoSelection .. => Except AdmissionError Unit

abbrev Coordinator := Prog ActivationPort PortAnswer ActivationTransactionOutcome

def proofRequest (request : ActivationTransactionRequest) : CandidateProofRequest where
  workspaceId := request.command.ownership.workspaceId
  operationId := request.command.identity.operationId
  expectedHead := request.command.expectedHead
  executionFence := request.executionFence
  pins := request.pins

def authorityRequest (request : ActivationTransactionRequest) : ActivationAuthorityRequest where
  workspaceId := request.command.ownership.workspaceId
  operationId := request.command.identity.operationId
  expectedHead := request.command.expectedHead
  executionFence := request.executionFence

def operationMarkerRequest
    (activeRecoveryFence : WriterFence) : ActivationOperationMarkerRequest where
  workspaceId := request.command.ownership.workspaceId
  operationId := request.command.identity.operationId
  eventId := request.eventId
  expectedHead := request.command.expectedHead
  executionFence := request.executionFence
  activeRecoveryFence := activeRecoveryFence
  transaction := request.transaction
  operationSelection := request.operationSelection
  controlRelation := request.controlRelation

/-! ## The forward transaction -/

section

variable (request : ActivationTransactionRequest) (barrier : ActivationBarrier)

/-- `activate` after the gate has reopened: acknowledge the event. -/
def acknowledgeActivated (event : ActivationEvent) (cache : ActivationCacheReceipt) :
    Coordinator := do
  let failed (reason : ActivationReconciliationReason) :=
    reconciliation request.recoveryRequest .acknowledgement reason (.readBack event.eventId)
      .reopened
  match ← perform (.acknowledge event request.executionFence : ActivationPort) with
  | .acknowledged receipt =>
    if AcknowledgementMatches request.recoveryRequest event request.executionFence receipt then
      return .activated ⟨event, cache, receipt, none⟩
    else
      return failed (.readbackViolation .acknowledgementReceiptMismatch)
  | .unknown diagnostic => return failed (.acknowledgementUnknown diagnostic)
  | .cancelled diagnostic => return failed (.acknowledgementCancelled diagnostic)

/-- `activate` after the cache has been reconciled: reopen the gate. -/
def reopenActivated (event : ActivationEvent) (cache : ActivationCacheReceipt) : Coordinator := do
  match ← perform (.reconcileAndReopen barrier (.epoch request.pins.epoch) : ActivationPort) with
  | .ok _ => acknowledgeActivated request event cache
  | .error error =>
    return reconciliation request.recoveryRequest .admissionReopen (.admissionFailure error)
      (.readBack event.eventId) .swapped

/-- `activate` after the epoch has been published: reconcile the cache. -/
def reconcileActivated (event : ActivationEvent)
    (chainAfterReadback : ActivationChain) : Coordinator := do
  let failed (reason : ActivationReconciliationReason) :=
    reconciliation request.recoveryRequest .cacheReconciliation reason (.readBack event.eventId)
      .swapped
  match ← perform
      (.reconcileSelected event chainAfterReadback request.executionFence : ActivationPort) with
  | .reconciled receipt =>
    if CacheReceiptMatches request.recoveryRequest event request.executionFence receipt then
      reopenActivated request barrier event receipt
    else
      return failed (.readbackViolation .cacheReceiptMismatch)
  | .unknown diagnostic => return failed (.cacheUnknown diagnostic)
  | .cancelled diagnostic => return failed (.cacheCancelled diagnostic)

/-- `activate` after the selection has been read back: publish the epoch. -/
def publishActivated (selection : SelectedEpochRecord)
    (chainAfterReadback : ActivationChain) : Coordinator := do
  let event := selection.event
  match ← perform (.publishSelectedEpoch barrier selection chainAfterReadback request.candidate :
      ActivationPort) with
  | .ok _ => reconcileActivated request barrier event chainAfterReadback
  | .error error =>
    return reconciliation request.recoveryRequest .epochSwap (.admissionFailure error)
      (.readBack event.eventId) .closed

/-- `activate` after a proved non-commit: abort the closure. -/
def abortUnselected (unchangedChain : ActivationChain)
    (reason : ActivationNotCommittedReason) : Coordinator := do
  match ← perform (.abortProvedNoSelection barrier unchangedChain : ActivationPort) with
  | .ok _ =>
    return notSelected request.recoveryRequest .durableAppendReadback
      (.appendProvedNotCommitted reason)
  | .error error =>
    return reconciliation request.recoveryRequest .admissionReopen (.admissionFailure error)
      .notAttempted .closed

/-- `activate` under a revalidated authority: append the event and read it back. -/
def appendActivation (authority : ActivationAuthoritySnapshot)
    (contract : ActivationAppendContract) : Coordinator := do
  let failed (reason : ActivationReconciliationReason) :=
    reconciliation request.recoveryRequest .durableAppendReadback reason .unknown .closed
  match ← perform (.appendAndReadback contract : ActivationPort) with
  | .committed selection chainAfterReadback =>
    match validateCommittedSelection contract selection.event selection.tableVersions
        chainAfterReadback with
    | .error violation => return failed (.readbackViolation violation)
    | .ok _ => publishActivated request barrier selection chainAfterReadback
  | .notCommitted unchangedChain reason =>
    if UnchangedChainMatches request authority unchangedChain then
      abortUnselected request barrier unchangedChain reason
    else
      return failed (.readbackViolation .unchangedChainMismatch)
  | .unknown reason diagnostic => return failed (.appendUnknown reason diagnostic)

/-- `activate` behind a closed gate: revalidate the authority. -/
def revalidateActivation : Coordinator := do
  let failed (reason : ActivationReconciliationReason) :=
    reconciliation request.recoveryRequest .authorityRevalidation reason .notAttempted .closed
  match ← perform (.revalidate (authorityRequest request) : ActivationPort) with
  | .valid snapshot =>
    if AuthorityMatches request snapshot then
      match appendContract request snapshot with
      | some contract => appendActivation request barrier snapshot contract
      | none => return failed (.readbackViolation .authorityMismatch)
    else
      return failed .authorityStale
  | .stale _ => return failed .authorityStale
  | .unknown diagnostic => return failed (.authorityUnknown diagnostic)
  | .cancelled diagnostic => return failed (.cancelledAfterClosure diagnostic)

/-- `activate` for a proved candidate: close the gate. -/
def closeForActivation : Coordinator := do
  match ← perform (.closeAdmission request.command.expectedHead request.executionFence :
      ActivationPort) with
  | .ok barrier => revalidateActivation request barrier
  | .error error =>
    return notSelected request.recoveryRequest .admissionClosure (.admissionRejected error)

/-- Execute exactly one activation attempt without internal persistence retry. -/
def activate : Coordinator := do
  let stopped (reason : ActivationNotSelectedReason) :=
    notSelected request.recoveryRequest .candidateProof reason
  match ← perform (.proveCandidate (proofRequest request) : ActivationPort) with
  | .proved proofReceipt =>
    if proofReceipt = request.pins.proofReceipt then closeForActivation request
    else return stopped .proofReceiptMismatch
  | .failed diagnostic => return stopped (.proofFailed diagnostic)
  | .unknown diagnostic => return stopped (.proofUnknown diagnostic)
  | .cancelled diagnostic => return stopped (.cancelledBeforeClosure diagnostic)

end

/-! ## Recovery -/

section

variable (request : ActivationRecoveryRequest) (ticket : ActivationReconciliationTicket)
  (activeRecoveryFence : WriterFence) (event : ActivationEvent)
  (chainAfterReadback : ActivationChain) (publication : RecoverySelectionPublication)

/-- `recover` with a reopened gate: keep the acknowledgement found, or acknowledge. -/
def acknowledgeRecovered (cache : ActivationCacheReceipt)
    (marker : ActivationAcknowledgementMarker) (evidence : ReconciliationEvidenceRef) :
    Coordinator := do
  let failed (reason : ActivationReconciliationReason) :=
    reconciliation request .acknowledgement reason (.readBack event.eventId) .reopened
  match marker with
  | .acknowledged receipt => return .activated ⟨event, cache, receipt, some evidence⟩
  | .absent =>
    match ← perform (.acknowledge event activeRecoveryFence : ActivationPort) with
    | .acknowledged receipt =>
      if AcknowledgementMatches request event activeRecoveryFence receipt then
        return .activated ⟨event, cache, receipt, some evidence⟩
      else
        return failed (.readbackViolation .acknowledgementReceiptMismatch)
    | .unknown diagnostic => return failed (.acknowledgementUnknown diagnostic)
    | .cancelled diagnostic => return failed (.acknowledgementCancelled diagnostic)

/-- `recover` with a reconciled cache: reopen a gate that is still closed. -/
def reopenRecovered (cache : ActivationCacheReceipt)
    (marker : ActivationAcknowledgementMarker) (evidence : ReconciliationEvidenceRef) :
    Coordinator := do
  match publication with
  | .alreadyReopened =>
    acknowledgeRecovered request activeRecoveryFence event cache marker evidence
  | .publishedClosed =>
    match ← perform (.reopenRecoveredSelection event chainAfterReadback activeRecoveryFence :
        ActivationPort) with
    | .ok _ => acknowledgeRecovered request activeRecoveryFence event cache marker evidence
    | .error error =>
      return reconciliation request .admissionReopen (.admissionFailure error)
        (.readBack event.eventId) .swapped

def RecoverySelectionPublication.posture : RecoverySelectionPublication → ActivationAdmissionPosture
  | .publishedClosed => .swapped
  | .alreadyReopened => .reopened

/-- `recover` with a published selection: reconcile the cache. -/
def reconcileRecovered (marker : ActivationAcknowledgementMarker)
    (evidence : ReconciliationEvidenceRef) : Coordinator := do
  let failed (reason : ActivationReconciliationReason) :=
    reconciliation request .cacheReconciliation reason (.readBack event.eventId) publication.posture
  match ← perform
      (.reconcileSelected event chainAfterReadback activeRecoveryFence : ActivationPort) with
  | .reconciled receipt =>
    if CacheReceiptMatches request event activeRecoveryFence receipt then
      reopenRecovered request activeRecoveryFence event chainAfterReadback publication receipt
        marker evidence
    else
      return failed (.readbackViolation .cacheReceiptMismatch)
  | .unknown diagnostic => return failed (.cacheUnknown diagnostic)
  | .cancelled diagnostic => return failed (.cacheCancelled diagnostic)

/-- The acknowledgement found with the marker belongs to the request. -/
def MarkerAcknowledges : ActivationAcknowledgementMarker → Prop
  | .absent => True
  | .acknowledged receipt =>
    RecoveredAcknowledgementMatches request event activeRecoveryFence receipt

instance (event : ActivationEvent) : (marker : ActivationAcknowledgementMarker) →
    Decidable (MarkerAcknowledges request activeRecoveryFence event marker)
  | .absent => inferInstanceAs (Decidable True)
  | .acknowledged receipt => inferInstanceAs
      (Decidable (RecoveredAcknowledgementMatches request event activeRecoveryFence receipt))

/-- `recover` of a selection found with the marker. -/
def recoverSelected (selection : SelectedEpochRecord) (chainAfterReadback : ActivationChain)
    (marker : ActivationAcknowledgementMarker) (evidence : ReconciliationEvidenceRef) :
    Coordinator := do
  let event := selection.event
  match validateRecoveredSelection request event selection.tableVersions chainAfterReadback with
  | .error violation =>
    return reconciliation request .durableAppendReadback (.readbackViolation violation)
      .unknown ticket.admissionPosture
  | .ok _ =>
    if MarkerAcknowledges request activeRecoveryFence event marker then
      match ← perform (.recoverSelectedEpoch request.command.expectedHead
          request.executionFence activeRecoveryFence selection chainAfterReadback
          (ticket.admissionPosture = .reopened) : ActivationPort) with
      | .ok publication =>
        reconcileRecovered request activeRecoveryFence event chainAfterReadback publication
          marker evidence
      | .error error =>
        return reconciliation request .epochSwap (.admissionFailure error)
          (.readBack event.eventId) ticket.admissionPosture
    else
      return reconciliation request .acknowledgement
        (.readbackViolation .acknowledgementMarkerMismatch) (.readBack event.eventId)
        ticket.admissionPosture

/-- `recover` of a proved non-selection. -/
def recoverNotSelected (unchangedChain : ActivationChain)
    (evidence : ReconciliationEvidenceRef) : Coordinator := do
  let refused (violation : ActivationReadbackViolation) :=
    reconciliation request .durableAppendReadback (.readbackViolation violation) .unknown
      ticket.admissionPosture
  if ticket.durableSelection.isReadBack then
    return refused .operationMarkerMismatch
  else if RecoveredUnchangedChainMatches request unchangedChain then
    match ← perform (.recoverProvedNoSelection request.command.expectedHead
        request.executionFence activeRecoveryFence unchangedChain : ActivationPort) with
    | .ok _ =>
      return notSelected request .durableAppendReadback (.operationMarkerProvedNotSelected evidence)
    | .error error =>
      return reconciliation request .admissionReopen (.admissionFailure error) .notAttempted
        ticket.admissionPosture
  else
    return refused .unchangedChainMismatch

/-- `recover` with an accepted ticket: read the operation marker. -/
def recoverAccepted : Coordinator := do
  match ← perform (.readOperationMarker (operationMarkerRequest request activeRecoveryFence) :
        ActivationPort) with
  | .unknown diagnostic =>
    return reconciliation request .durableAppendReadback (.operationMarkerUnknown diagnostic)
      ticket.durableSelection ticket.admissionPosture
  | .provedNotSelected unchangedChain evidence =>
    recoverNotSelected request ticket activeRecoveryFence unchangedChain evidence
  | .selected selection chainAfterReadback acknowledgement evidence =>
    recoverSelected request ticket activeRecoveryFence selection chainAfterReadback
      acknowledgement evidence

/-- Reconcile one interrupted activation without persistence retry. -/
def recover (recovery : ActivationRecoveryAttempt) : Coordinator :=
  let refused (violation : ActivationReadbackViolation) :=
    reconciliation request ticket.stage (.readbackViolation violation) .unknown
      ticket.admissionPosture
  if request.attempt = recovery.attempt then
    if RecoveryTicketMatches request ticket then
      if RecoveryFenceAuthorizes request.executionFence recovery.activeRecoveryOwner.fence then
        recoverAccepted request ticket recovery.activeRecoveryOwner.fence
      else
        return refused .recoveryFenceNotAuthorized
    else
      return refused .recoveryTicketMismatch
  else
    return refused .recoveryAttemptMismatch

end

end CodeFabric.Activation
