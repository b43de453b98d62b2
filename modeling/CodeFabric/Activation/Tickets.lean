import CodeFabric.Activation.Outcomes

/-! # Stored reconciliation tickets

An activation that needs reconciliation stores its ticket, with the request it belongs to, in a row
keyed by the operation (`fabric/programmatic_activation_command_ports.rs` and
`…_command_sqlite.rs`). The row also fixes the unknown outcome and the evidence that the command
record is to carry.

* **`persistReconciliation`** writes the row; it may replace the ticket of the same request.
* **`loadReconciliation`** reads it back for a recovery and checks it against the command record. -/

namespace CodeFabric.Activation

open Fallible Command

/-! ## Bindings -/

/-- A request or ticket names something else than it was bound to. -/
inductive ActivationCommandBindingError
  | transactionMismatch | ticketMismatch
  deriving DecidableEq, Repr

/-- Candidate-free durable request binding used only by marker-driven recovery. -/
structure ResolvedActivationRecovery where
  request : ActivationRecoveryRequest
  transaction : TransactionRef
  bound : request.transaction = transaction
  deriving DecidableEq, Repr

variable (request : ActivationRecoveryRequest)

def ResolvedActivationRecovery.tryNew (transaction : TransactionRef) :
    Except ActivationCommandBindingError ResolvedActivationRecovery :=
  if h : request.transaction = transaction then .ok ⟨request, transaction, h⟩
  else .error .transactionMismatch

/-- Exact request/ticket pair loaded for read-only recovery. -/
structure LoadedActivationReconciliation where
  resolved : ResolvedActivationRecovery
  ticket : ActivationReconciliationTicket
  names : TicketNames resolved.request ticket
  deriving DecidableEq, Repr

def LoadedActivationReconciliation.tryNew (resolved : ResolvedActivationRecovery)
    (ticket : ActivationReconciliationTicket) :
    Except ActivationCommandBindingError LoadedActivationReconciliation :=
  if h : TicketNames resolved.request ticket then .ok ⟨resolved, ticket, h⟩
  else .error .ticketMismatch

/-! ## Rows -/

/-- The request of a row, as it survives a restart. -/
structure StoredActivationRequest where
  command : FabricCommand
  attempt : Nat
  executionOwner : ExecutionOwner
  pins : FabricEpochPins
  eventId : ActivationEventId
  compatibility : CompatibilityClassRef
  retention : RetentionPolicyRef
  operationSelection : OperationSelectionRef
  transaction : TransactionRef
  controlRelation : ActivationControlRelationPin
  deriving DecidableEq, Repr

/-- Persistable request/ticket row submitted to reconciliation storage. -/
structure ActivationReconciliationWrite extends StoredActivationRequest where
  ticket : ActivationReconciliationTicket
  deriving DecidableEq, Repr

def ActivationRecoveryRequest.stored : StoredActivationRequest where
  command := request.command
  attempt := request.attempt.attempt
  executionOwner := request.attempt.executionOwner
  pins := request.pins
  eventId := request.eventId
  compatibility := request.compatibility
  retention := request.retention
  operationSelection := request.operationSelection
  transaction := request.transaction
  controlRelation := request.controlRelation

open ActivationRecoveryRequest

/-- Validate the ticket against its request before anything is written. -/
def ActivationReconciliationWrite.tryNew (request : ActivationRecoveryRequest)
    (ticket : ActivationReconciliationTicket) :
    Except ActivationCommandBindingError ActivationReconciliationWrite := do
  let resolved ← ResolvedActivationRecovery.tryNew request request.transaction
  let _ ← LoadedActivationReconciliation.tryNew resolved ticket
  return { request.stored with ticket := ticket }

/-- Exact row returned after persistence or lookup. -/
structure ActivationReconciliationRecord where
  write : ActivationReconciliationWrite
  unknown : UnknownCommit
  evidence : ReconciliationEvidenceRef
  deriving DecidableEq, Repr

/-- The policy that names unknown outcomes and evidence. The digests are those of the named inputs;
only the evidence depends on the ticket. -/
structure ActivationReconciliationIdentityPolicy where
  reason : UnknownCommitReason
  diagnostic : WorkspaceId → OperationId → TransactionRef → DiagnosticRef
  evidence : WorkspaceId → OperationId → TransactionRef → ActivationReconciliationTicket →
    ReconciliationEvidenceRef

def ActivationReconciliationIdentityPolicy.identities
    (policy : ActivationReconciliationIdentityPolicy) (workspaceId : WorkspaceId)
    (operationId : OperationId) (transaction : TransactionRef)
    (ticket : ActivationReconciliationTicket) : UnknownCommit × ReconciliationEvidenceRef :=
  (⟨policy.reason, policy.diagnostic workspaceId operationId transaction⟩,
    policy.evidence workspaceId operationId transaction ticket)

structure ActivationStateStore where
  workspaceId : WorkspaceId
  policy : ActivationReconciliationIdentityPolicy

variable (store : ActivationStateStore)

def ActivationStateStore.row
    (write : ActivationReconciliationWrite) : ActivationReconciliationRecord :=
  let (unknown, evidence) := store.policy.identities store.workspaceId
    write.command.identity.operationId write.transaction write.ticket
  ⟨write, unknown, evidence⟩

def ActivationStateStore.rowOf (store : ActivationStateStore) (request : ActivationRecoveryRequest)
    (ticket : ActivationReconciliationTicket) : ActivationReconciliationRecord :=
  store.row ⟨request.stored, ticket⟩

variable (existing : Option ActivationReconciliationRecord)

/-- Insert a row, or replace the ticket of the same request with the same unknown outcome. -/
def persistReconciliationSync (row : ActivationReconciliationRecord) :
    Except CommandPortError ActivationReconciliationRecord := do
  ensure (row.write.attempt ≠ 0) .corruptRecord
  match existing with
  | some existing =>
    ensure (existing.write.toStoredActivationRequest = row.write.toStoredActivationRequest ∧
      existing.unknown = row.unknown) .corruptRecord
    return row
  | none => return row

def persistReconciliation (resolved : ResolvedActivationRecovery)
    (ticket : ActivationReconciliationTicket) :
    Except CommandPortError ActivationReconciliationRecord := do
  let write ← (ActivationReconciliationWrite.tryNew resolved.request ticket).mapError
    fun _ => CommandPortError.corruptRecord
  ensure (write.command.ownership.workspaceId = store.workspaceId) .corruptRecord
  persistReconciliationSync existing (store.row write)

/-- The request of a row, under an attempt validated by the reducer. -/
def StoredActivationRequest.recoveryRequest (write : StoredActivationRequest)
    (attempt : ActivationAttempt) :
    Except ActivationTransactionRequestError ActivationRecoveryRequest :=
  ActivationRecoveryRequest.tryNew attempt write.pins write.eventId write.compatibility
    write.retention write.operationSelection write.transaction write.controlRelation

def loadReconciliation (stored : Option ActivationReconciliationRecord) (record : CommandRecord)
    (owner : ExecutionOwner) (transaction : TransactionRef) (context : ReductionContext) :
    Except CommandPortError LoadedActivationReconciliation := do
  let recovery ← reconciliationAttempt record owner transaction context .activateEpoch
  match record.state with
  | .awaitingReconciliation attempt executionOwner _ _ unknown _ lastEvidence => do
    let row ← okOr stored .contextUnavailable
    ensure (row.unknown = unknown ∧ ∀ evidence ∈ lastEvidence, evidence = row.evidence)
      .corruptRecord
    let write := row.write
    let expected := recovery.attempt
    ensure (write.command = record.command ∧ write.attempt = attempt ∧
      write.attempt = expected.attempt ∧ write.executionOwner = executionOwner ∧
      write.executionOwner = expected.executionOwner ∧ write.transaction = transaction)
      .corruptRecord
    let request ← (write.recoveryRequest expected).mapError fun _ => CommandPortError.corruptRecord
    ensure (request.command = record.command ∧ request.transaction = transaction ∧
      request.executionFence = executionOwner.fence ∧ request.pins = write.pins ∧
      request.eventId = write.eventId ∧ request.compatibility = write.compatibility ∧
      request.retention = write.retention ∧
      request.operationSelection = write.operationSelection ∧
      request.controlRelation = write.controlRelation) .corruptRecord
    let resolved ← (ResolvedActivationRecovery.tryNew request transaction).mapError
      fun _ => CommandPortError.corruptRecord
    (LoadedActivationReconciliation.tryNew resolved write.ticket).mapError
      fun _ => CommandPortError.corruptRecord
  | _ => throw .corruptRecord

/-! ## What a load checks -/

section

variable {store : ActivationStateStore} {row : ActivationReconciliationRecord}
  {write : StoredActivationRequest} {request request' : ActivationRecoveryRequest}
  {ticket : ActivationReconciliationTicket} {transaction : TransactionRef}
  {attempt : ActivationAttempt} {last : Option ReconciliationEvidenceRef}
  {executionOwner : ExecutionOwner} {unknown : UnknownCommit} {recovery : ValidatedCommandRecovery}
  {recoveryOwner : ExecutionOwner}

/-- The row holds the request of a prepared transaction. -/
structure StoredActivationRequest.Describes (write : StoredActivationRequest)
    (request : ActivationRecoveryRequest) : Prop where
  stored : request.stored = write
  prepared : request.attempt.preparedTransaction = some request.transaction

theorem StoredActivationRequest.Describes.unique (h : write.Describes request)
    (h' : write.Describes request') : request = request' := by
  obtain ⟨⟨_⟩, _, _, _, _, _, _, _, _⟩ := request
  obtain ⟨⟨_⟩, _, _, _, _, _, _, _, _⟩ := request'
  have hsto := h.stored.trans h'.stored.symm
  have hpr := h.prepared
  have hp' := h'.prepared
  simp only [ActivationRecoveryRequest.stored, ActivationRecoveryRequest.command,
    StoredActivationRequest.mk.injEq] at hsto hpr hp'
  obtain ⟨rfl, rfl, rfl, rfl, rfl, rfl, rfl, rfl, rfl, rfl⟩ := hsto
  subst hpr hp'
  rfl

/-- A row as the store writes it, for a request and a ticket that names it. -/
structure Written (store : ActivationStateStore) (row : ActivationReconciliationRecord)
    (request : ActivationRecoveryRequest) : Prop where
  describes : row.write.Describes request
  names : TicketNames request row.write.ticket
  stored : row = store.row row.write
  attempt : row.write.attempt ≠ 0
  workspace : row.write.command.ownership.workspaceId = store.workspaceId

/-- What a command record and a row have to agree on. -/
structure Aligned (command : FabricCommand) (attempt : Nat) (executionOwner : ExecutionOwner)
    (transaction : TransactionRef) (unknown : UnknownCommit)
    (lastEvidence : Option ReconciliationEvidenceRef) (row : ActivationReconciliationRecord) :
    Prop where
  command : row.write.command = command
  attempt : row.write.attempt = attempt
  executionOwner : row.write.executionOwner = executionOwner
  transaction : row.write.transaction = transaction
  unknown : row.unknown = unknown
  evidence : ∀ evidence ∈ lastEvidence, evidence = row.evidence

theorem tryNew_eq_ok {pins : FabricEpochPins}
    {eventId : ActivationEventId} {compatibility : CompatibilityClassRef}
    {retention : RetentionPolicyRef} {operationSelection : OperationSelectionRef}
    {controlRelation : ActivationControlRelationPin} :
    tryNew attempt pins eventId compatibility retention
        operationSelection transaction controlRelation = .ok request ↔
      request.attempt = attempt ∧ request.pins = pins ∧ request.eventId = eventId ∧
        request.compatibility = compatibility ∧ request.retention = retention ∧
        request.operationSelection = operationSelection ∧ request.transaction = transaction ∧
        request.controlRelation = controlRelation := by
  have hv := request.valid
  unfold tryNew
  obtain ⟨_, _, _, _, _, _, _, _, _⟩ := request
  split
  case h_1 => simp [eq_comm, mk.injEq]
  case h_2 error href =>
    refine iff_of_false (by simp) ?_
    rintro ⟨rfl, rfl, -⟩
    rw [href] at hv
    exact Bool.false_ne_true hv

theorem Written.recoveryRequest_eq_ok (h : Written store row request)
    (hatt : attempt = request.attempt) :
    row.write.recoveryRequest attempt = .ok request' ↔ request' = request := by
  rw [StoredActivationRequest.recoveryRequest, tryNew_eq_ok, hatt, ← h.describes.stored]
  obtain ⟨_, _, _, _, _, _, _, _, _⟩ := request
  obtain ⟨_, _, _, _, _, _, _, _, _⟩ := request'
  simp [ActivationRecoveryRequest.stored]

theorem reconciliationAttempt_eq_ok {record : CommandRecord} {owner : ExecutionOwner}
    {prepared : TransactionRef} {context : ReductionContext} {attempt probes : Nat}
    (hst : record.state = .awaitingReconciliation attempt executionOwner recoveryOwner prepared
      unknown probes last) :
    reconciliationAttempt record owner transaction context .activateEpoch = .ok recovery ↔
      (context.activeFence = owner.fence ∧ record.command.kind = .activateEpoch ∧
        recoveryOwner.Succeeds executionOwner ∧ owner.Succeeds recoveryOwner ∧
        prepared = transaction ∧ executionOwner.fence.Succeeds record.command.writerFence) ∧
      recovery = ⟨⟨record.command, attempt, executionOwner, some transaction⟩, owner⟩ := by
  simp only [reconciliationAttempt, validateContext, validateKind, validateOwnerAdvance,
    validatedAttempt, hst, ok_iff, Bool.false_eq_true, false_implies]
  constructor
  · rintro ⟨-, ⟨-, hf, -⟩, -, hk, -, hrcv, -, hown, -, hp, _, ⟨-, hwtr, rfl⟩, rfl⟩
    exact ⟨⟨hf, hk, hrcv, hown, hp, hwtr⟩, rfl⟩
  · rintro ⟨⟨hf, hk, hrcv, hown, hp, hwtr⟩, rfl⟩
    exact ⟨(), ⟨(), hf, trivial⟩, (), hk, (), hrcv, (), hown, (), hp, _, ⟨(), hwtr, rfl⟩, rfl⟩

theorem Aligned.attempt_eq {command : FabricCommand} {attempt : Nat}
    (h : Aligned command attempt executionOwner transaction unknown last row)
    (hwr : Written store row request) :
    request.attempt = ⟨command, attempt, executionOwner, some transaction⟩ := by
  rw [← h.command, ← h.attempt, ← h.executionOwner, ← h.transaction, ← hwr.describes.stored]
  have hp := hwr.describes.prepared
  obtain ⟨⟨_, _, _, _⟩, _, _, _, _, _, _, _, _⟩ := request
  simp only at hp
  rw [hp]
  rfl

theorem loadReconciliation_eq_ok {record : CommandRecord} {owner : ExecutionOwner}
    {context : ReductionContext} {attempt probes : Nat}
    {loaded : LoadedActivationReconciliation}
    (hst : record.state = .awaitingReconciliation attempt executionOwner recoveryOwner
      transaction unknown probes last)
    (hrcv : reconciliationAttempt record owner transaction context .activateEpoch =
      .ok recovery) (hwr : Written store row request) :
    loadReconciliation (some row) record owner transaction context = .ok loaded ↔
      Aligned record.command attempt executionOwner transaction unknown last row ∧
        loaded.resolved.request = request ∧ loaded.ticket = row.write.ticket := by
  have hrc := ((reconciliationAttempt_eq_ok hst).1 hrcv).2
  simp only [loadReconciliation, hrcv, hst, okOr, ok_iff, mapError_eq_ok, Except.ok.injEq,
    exists_eq_left', hrc]
  constructor
  · rintro ⟨-, ⟨hunk, hevd⟩, -, ⟨hcmd, hatt, -, hown, -, htx⟩,
      request', hreq, -, -, resolved, hrs, hl⟩
    have hal : Aligned record.command attempt executionOwner transaction unknown last row :=
      ⟨hcmd, hatt, hown, htx, hunk, hevd⟩
    rw [hwr.recoveryRequest_eq_ok (hal.attempt_eq hwr).symm] at hreq
    subst hreq
    unfold ResolvedActivationRecovery.tryNew at hrs
    unfold LoadedActivationReconciliation.tryNew at hl
    split at hrs <;> cases hrs
    split at hl <;> cases hl
    exact ⟨hal, rfl, rfl⟩
  · rintro ⟨hal, hreq, htk⟩
    have hatt := hal.attempt_eq hwr
    have htx : request.transaction = transaction := by
      rw [← hal.transaction, ← hwr.describes.stored]
      rfl
    refine ⟨(), ⟨hal.unknown, hal.evidence⟩, (), ⟨hal.command, hal.attempt,
      hal.attempt, hal.executionOwner, hal.executionOwner, hal.transaction⟩, request,
      (hwr.recoveryRequest_eq_ok hatt.symm).2 rfl, (), ?_, ⟨request, transaction,
      htx⟩, dif_pos htx, ?_⟩
    · rw [command, executionFence, hatt, ← hwr.describes.stored]
      exact ⟨rfl, htx, rfl, rfl, rfl, rfl, rfl, rfl, rfl⟩
    · rw [LoadedActivationReconciliation.tryNew, dif_pos hwr.names]
      obtain ⟨⟨_, _, hbd⟩, _, _⟩ := loaded
      simp only at hreq htk
      subst hreq htk
      simp only [hbd] at htx
      subst htx
      rfl

theorem write_tryNew_eq_ok {write : ActivationReconciliationWrite} :
    ActivationReconciliationWrite.tryNew request ticket = .ok write ↔
      TicketNames request ticket ∧ write = { request.stored with ticket := ticket } := by
  simp only [ActivationReconciliationWrite.tryNew, ResolvedActivationRecovery.tryNew,
    LoadedActivationReconciliation.tryNew, dite_true, ok_iff, Except.ok.injEq, exists_eq_left']
  constructor
  · rintro ⟨_, hl, rfl⟩
    split at hl
    case isTrue hn => exact ⟨hn, rfl⟩
    case isFalse => cases hl
  · rintro ⟨hn, rfl⟩
    exact ⟨_, dif_pos hn, rfl⟩

variable {existing : Option ActivationReconciliationRecord} {resolved : ResolvedActivationRecovery}

theorem persistReconciliationSync_eq_ok {result : ActivationReconciliationRecord} :
    persistReconciliationSync existing row = .ok result ↔ row.write.attempt ≠ 0 ∧
      (∀ stored ∈ existing, stored.write.toStoredActivationRequest =
        row.write.toStoredActivationRequest ∧ stored.unknown = row.unknown) ∧ result = row := by
  cases existing with
  | none =>
    simp only [persistReconciliationSync, ok_iff, exists_const, Option.mem_def, reduceCtorEq,
      false_implies, implies_true, true_and, @eq_comm _ row result]
  | some stored =>
    simp only [persistReconciliationSync, ok_iff, exists_const, Option.mem_def, Option.some.injEq,
      forall_eq', @eq_comm _ row result]

theorem persistReconciliation_eq_ok :
    persistReconciliation store existing resolved ticket = .ok row ↔
      (TicketNames resolved.request ticket ∧
        resolved.request.command.ownership.workspaceId = store.workspaceId ∧
        resolved.request.attempt.attempt ≠ 0) ∧
      row = store.rowOf resolved.request ticket ∧ ∀ stored ∈ existing,
        stored.write.toStoredActivationRequest = resolved.request.stored ∧
          stored.unknown = row.unknown := by
  simp only [persistReconciliation, ok_iff, mapError_eq_ok, write_tryNew_eq_ok,
    persistReconciliationSync_eq_ok]
  constructor
  · rintro ⟨_, ⟨hn, rfl⟩, -, hws, hatt, hs, hrow⟩
    rw [hrow]
    exact ⟨⟨hn, hws, hatt⟩, rfl, hs⟩
  · rintro ⟨⟨hn, hws, hatt⟩, hrow, hs⟩
    rw [hrow] at hs
    exact ⟨_, ⟨hn, rfl⟩, (), hws, hatt, hs, hrow⟩

theorem written_of_persist
    (hp : resolved.request.attempt.preparedTransaction = some resolved.request.transaction)
    (h : persistReconciliation store existing resolved ticket = .ok row) :
    Written store row resolved.request := by
  obtain ⟨⟨hn, hws, hatt⟩, rfl, -⟩ := persistReconciliation_eq_ok.1 h
  exact ⟨⟨rfl, hp⟩, hn, rfl, hatt, hws⟩

theorem Written.unknown_rowOf (h : Written store row request) :
    (store.rowOf request ticket).unknown = row.unknown := by
  rw [h.stored, ActivationStateStore.row, ← h.describes.stored]
  rfl

theorem Written.persist (h : Written store row request) (hr : resolved.request = request)
    (hn : TicketNames request ticket) : persistReconciliation store (some row) resolved ticket =
      .ok (store.rowOf request ticket) := by
  subst hr
  refine persistReconciliation_eq_ok.2 ⟨⟨hn, ?_, ?_⟩, rfl, ?_⟩
  · have hws := h.workspace
    rw [← h.describes.stored] at hws
    exact hws
  · have hatt := h.attempt
    rw [← h.describes.stored] at hatt
    exact hatt
  · rintro _ ⟨⟩
    refine ⟨h.describes.stored.symm, ?_⟩
    exact h.unknown_rowOf.symm

theorem Written.rowOf (h : Written store row request) (hn : TicketNames request ticket) :
    Written store (store.rowOf request ticket) request := by
  have hatt := h.attempt
  have hws := h.workspace
  rw [← h.describes.stored] at hatt hws
  exact ⟨⟨rfl, h.describes.prepared⟩, hn, rfl, hatt, hws⟩

theorem Aligned.rowOf {command : FabricCommand} {attempt : Nat}
    (h : Aligned command attempt executionOwner transaction unknown last row)
    (hwr : Written store row request) : Aligned command attempt executionOwner transaction unknown
      (some (store.rowOf request ticket).evidence) (store.rowOf request ticket) := by
  obtain ⟨hcmd, hatt, hown, htx, hunk, -⟩ := h
  rw [← hwr.describes.stored] at hcmd hatt hown htx
  exact ⟨hcmd, hatt, hown, htx, hwr.unknown_rowOf.trans hunk, by simp⟩

end

end CodeFabric.Activation
