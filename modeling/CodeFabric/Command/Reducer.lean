import CodeFabric.Command.Types
import CodeFabric.Support.Fallible

/-! # The durable command reducer

`CommandReducer::admit` (here `admitCommand`) and `reduce` (`fabric/command.rs`), function by
function, followed by the description of what a reduction can do that every later proof uses. -/

namespace CodeFabric.Command

open Fallible DurableCommandState

/-! ## Guards -/

/-- The transition error of an event that a state does not accept. -/
def illegal (state : DurableCommandState) (event : CommandEvent) : CommandContractError :=
  .illegalTransition state.kind event.kind

def CommandEvent.claimedResult : CommandEvent → Option CommandResult
  | .confirmCommit _ _ result => some result
  | .observeReconciliation _ _ (.committed _ result) => some result
  | _ => none

def validateResultKind (command : FabricCommand) (event : CommandEvent) :
    Except CommandContractError Unit :=
  match event.claimedResult with
  | some result =>
    ensure (command.kind = result.kind) (.resultKindMismatch command.kind result.kind)
  | none => .ok ()

def CommandEvent.requiresHead : CommandEvent → Bool
  | .start .. | .prepareCommit .. => true
  | _ => false

variable (record : CommandRecord)

/-- Reject an event from a fence that is not active, or against a head that moved. -/
def validateReductionContext (event : CommandEvent)
    (context : ReductionContext) : Except CommandContractError Unit := do
  let owner := event.owner
  ensure (owner.fence = context.activeFence) (.staleWriterFence owner.fence context.activeFence)
  ensure (event.requiresHead → context.currentHead = record.command.expectedHead)
    (.staleExpectedHead record.command.expectedHead context.currentHead)

/-- `fence` is the required fence or belongs to a newer generation. -/
def WriterFence.Succeeds (fence required : WriterFence) : Prop :=
  fence = required ∨ required.generation.get < fence.generation.get
  deriving Decidable

/-- `observed` is the current owner or holds a newer generation. -/
def ExecutionOwner.Succeeds (observed current : ExecutionOwner) : Prop :=
  current = observed ∨ current.fence.generation.get < observed.fence.generation.get
  deriving Decidable

/-- A new owner needs the required fence or a newer generation. -/
def validateNewOrRecoveryOwner (required : WriterFence) (owner : ExecutionOwner) :
    Except CommandContractError Unit :=
  ensure (owner.fence.Succeeds required) .recoveryFenceNotAdvanced

def validateCurrentOwner (current observed : ExecutionOwner) : Except CommandContractError Unit :=
  ensure (current = observed) .executionOwnerMismatch

/-- The current owner, or a newer generation, may present the event. -/
def validateRecoveryOwner (current observed : ExecutionOwner) : Except CommandContractError Unit :=
  ensure (observed.Succeeds current) .recoveryFenceNotAdvanced

def validateTransaction (prepared observed : TransactionRef) : Except CommandContractError Unit :=
  ensure (prepared = observed) .transactionMismatch

variable (attempt : Nat)

/-- The attempt after this one, unless the `u32` counter is exhausted. -/
def nextAttempt : Except CommandContractError Nat :=
  okOr (checkedAdd 32 attempt 1) .attemptOverflow

/-! ## Reductions -/

/-- A material transition: the next revision, with the predecessor/successor pair. -/
def changed (state : DurableCommandState) : Except CommandContractError Reduction := do
  let revision ← okOr (checkedAdd 64 record.revision 1) .revisionOverflow
  let successor : CommandRecord := { record with revision := revision, state := state }
  pure ⟨successor, .stateChanged, some ⟨record, successor, .stateChanged⟩⟩

/-- An exact replay: the record is unchanged and no transition is issued. -/
def idempotent : Reduction := ⟨record, .idempotentReplay, none⟩

variable (event : CommandEvent)

/-- An event presented to a terminal record is an exact replay or a conflict; any other record is
left to the state's own reducer (`none`). -/
def terminalReplay : Except CommandContractError (Option Reduction) :=
  let exact : Option Bool :=
    match record.state, event with
    | .succeeded committed current _, .confirmCommit _ transaction result =>
      some (committed = transaction && current = result)
    | .succeeded committed current _, .observeReconciliation _ transaction (.committed _ result) =>
      some (committed = transaction && current = result)
    | .failed current, .reportKnownFailure _ failure => some (current = failure)
    | .cancelled current, .cancelBeforeCommit _ cancellation => some (current = cancellation)
    | state, _ => if state.isTerminal then some false else none
  match exact with
  | none => .ok none
  | some true => .ok (some (idempotent record))
  | some false => .error .terminalConflict

theorem CommandFailure.retryClassification_ne (failure : CommandFailure) :
    failure.retryClassification ≠ .reconcileBeforeDecision := by
  unfold retryClassification
  cases failure.failureClass <;> decide

/-- The state a known failure leads to: terminal, or ready for the next attempt. -/
def knownFailureState (requiredFence : WriterFence) (failure : CommandFailure) :
    Except CommandContractError DurableCommandState :=
  match h : failure.retryClassification with
  | .never => .ok (.failed failure)
  | .retrySameCommandAfterKnownNoCommit => do
    let next ← nextAttempt attempt
    pure (.retryReady next requiredFence (.knownFailure failure))
  | .reconcileBeforeDecision => absurd h failure.retryClassification_ne

/-- `Admitted` accepts a start and a cancellation. -/
def reduceAdmitted : Except CommandContractError Reduction := do
  let next ← match event with
    | .start owner => do
      validateNewOrRecoveryOwner record.command.writerFence owner
      pure (DurableCommandState.executing attempt owner)
    | .cancelBeforeCommit owner cancellation => do
      validateNewOrRecoveryOwner record.command.writerFence owner
      pure (.cancelled cancellation)
    | event => throw (illegal record.state event)
  changed record next

/-- `RetryReady` accepts a start of the next attempt and a replay of its own basis. -/
def reduceRetryReady (nextAttempt : Nat) (requiredFence : WriterFence)
    (basis : RetryBasis) (event : CommandEvent) : Except CommandContractError Reduction :=
  match event with
  | .start owner => do
    validateNewOrRecoveryOwner requiredFence owner
    changed record (.executing nextAttempt owner)
  | .reportKnownFailure owner failure =>
    if basis = .knownFailure failure then .ok (idempotent record)
    else throw (illegal record.state (.reportKnownFailure owner failure))
  | event => throw (illegal record.state event)

/-- `Executing` accepts adoption by a newer generation, preparation, a known failure and a
cancellation. -/
def reduceExecuting (current : ExecutionOwner)
    (event : CommandEvent) : Except CommandContractError Reduction :=
  match event with
  | .start owner =>
    if current = owner then .ok (idempotent record)
    else do
      validateRecoveryOwner current owner
      changed record (.executing attempt owner)
  | .prepareCommit owner transaction => do
    validateCurrentOwner current owner
    changed record (.commitPrepared attempt owner transaction)
  | .reportKnownFailure owner failure => do
    validateCurrentOwner current owner
    let next ← knownFailureState attempt current.fence failure
    changed record next
  | .cancelBeforeCommit owner cancellation => do
    validateCurrentOwner current owner
    changed record (.cancelled cancellation)
  | event => throw (illegal record.state event)

/-- `CommitPrepared` accepts a confirmation, a known failure and an unknown outcome of its own
transaction. -/
def reducePrepared (current : ExecutionOwner)
    (prepared : TransactionRef) (event : CommandEvent) : Except CommandContractError Reduction :=
  match event with
  | .prepareCommit owner transaction => do
    validateCurrentOwner current owner
    validateTransaction prepared transaction
    pure (idempotent record)
  | .confirmCommit owner transaction result => do
    validateCurrentOwner current owner
    validateTransaction prepared transaction
    changed record (.succeeded transaction result .direct)
  | .reportKnownFailure owner failure => do
    validateCurrentOwner current owner
    let next ← knownFailureState attempt current.fence failure
    changed record next
  | .reportUnknownCommit owner transaction unknown => do
    validateRecoveryOwner current owner
    validateTransaction prepared transaction
    changed record (.awaitingReconciliation attempt current owner transaction unknown 0 none)
  | event => throw (illegal record.state event)

/-- The fields of `AwaitingReconciliation` that reconciliation reads. -/
structure ReconciliationProgress where
  attempt : Nat
  executionOwner : ExecutionOwner
  recoveryOwner : ExecutionOwner
  transaction : TransactionRef
  unknown : UnknownCommit
  probeCount : Nat
  deriving DecidableEq, Repr

variable (progress : ReconciliationProgress)

def reconciledState :
    ReconciliationObservation → Except CommandContractError (DurableCommandState × ReductionEffect)
  | .committed evidence result =>
    .ok (.succeeded progress.transaction result (.reconciled evidence), .stateChanged)
  | .notCommitted evidence => do
    let next ← nextAttempt progress.attempt
    pure (.retryReady next progress.recoveryOwner.fence (.reconciledNotCommitted evidence),
      .stateChanged)
  | .indeterminate evidence => do
    let probeCount ← okOr (checkedAdd 32 progress.probeCount 1) .attemptOverflow
    pure (.awaitingReconciliation progress.attempt progress.executionOwner
        progress.recoveryOwner progress.transaction progress.unknown probeCount (some evidence),
      .reconciliationStillRequired)

/-- Apply one reconciliation observation; the reduction and its transition carry its effect. -/
def applyReconciliation
    (observation : ReconciliationObservation) : Except CommandContractError Reduction := do
  let (state, effect) ← reconciledState progress observation
  let reduction ← changed record state
  pure { reduction with
    effect := effect
    transition := reduction.transition.map fun transition => { transition with effect := effect } }

/-- `AwaitingReconciliation` accepts a replay of its unknown outcome and observations of its own
transaction. -/
def reduceAwaitingReconciliation (event : CommandEvent) : Except CommandContractError Reduction :=
  match event with
  | .reportUnknownCommit owner transaction unknown => do
    validateRecoveryOwner progress.recoveryOwner owner
    validateTransaction progress.transaction transaction
    if progress.unknown = unknown then pure (idempotent record)
    else throw (illegal record.state (.reportUnknownCommit owner transaction unknown))
  | .observeReconciliation owner transaction observation => do
    validateRecoveryOwner progress.recoveryOwner owner
    validateTransaction progress.transaction transaction
    applyReconciliation record { progress with recoveryOwner := owner } observation
  | event => throw (illegal record.state event)

/-- Apply one observed event to a durable record. -/
def reduce (context : ReductionContext) : Except CommandContractError Reduction := do
  validateResultKind record.command event
  match ← terminalReplay record event with
  | some reduction => pure reduction
  | none =>
    validateReductionContext record event context
    match record.state with
    | .admitted attempt => reduceAdmitted record attempt event
    | .executing attempt owner => reduceExecuting record attempt owner event
    | .commitPrepared attempt owner transaction =>
      reducePrepared record attempt owner transaction event
    | .awaitingReconciliation attempt executionOwner recoveryOwner transaction unknown
        probeCount _ =>
      reduceAwaitingReconciliation record
        ⟨attempt, executionOwner, recoveryOwner, transaction, unknown, probeCount⟩ event
    | .retryReady nextAttempt requiredFence basis =>
      reduceRetryReady record nextAttempt requiredFence basis event
    | state => throw (illegal state event)

/-! ## Admission -/

/-- The error for an existing record that holds a different command. -/
def existingConflict (existing command : FabricCommand) : CommandContractError :=
  if existing.identity.operationId = command.identity.operationId then
    if existing.identity.idempotencyKey = command.identity.idempotencyKey ∧
        existing.payload ≠ command.payload then
      .payloadConflict command.identity.operationId
    else .duplicateOperationConflict command.identity.operationId
  else if existing.identity.idempotencyKey = command.identity.idempotencyKey then
    .idempotencyKeyConflict command.identity.idempotencyKey
  else .existingLookupMismatch

def validateAuthorization (reference : AuthorizationRef) :
    AuthorizationDecision → Except CommandContractError Unit
  | .authorized granted => ensure (granted = reference) .authorizationMismatch
  | .denied _ => throw .authorizationDenied
  | .unknown _ => throw .authorizationUnknown

/-- Admit a new command or return the exact existing record for an idempotent retry. -/
def admitCommand (existing : Option CommandRecord) (command : FabricCommand)
    (context : AdmissionContext) : Except CommandContractError AdmissionOutcome :=
  match existing with
  | some existing =>
    if existing.command = command then .ok (.existing existing)
    else .error (existingConflict existing.command command)
  | none => do
    ensure (context.workspaceId = command.ownership.workspaceId) .workspaceMismatch
    validateAuthorization command.ownership.authorization context.authorization
    ensure (context.currentHead = command.expectedHead)
      (.staleExpectedHead command.expectedHead context.currentHead)
    ensure (context.activeFence = command.writerFence)
      (.staleWriterFence command.writerFence context.activeFence)
    pure (.new ⟨command, .admitted 1, 0⟩)

theorem admitCommand_none_ok {command : FabricCommand} {context : AdmissionContext}
    {outcome : AdmissionOutcome} (h : admitCommand none command context = .ok outcome) :
    outcome = .new ⟨command, .admitted 1, 0⟩ := by
  simp only [admitCommand, ok_iff] at h
  obtain ⟨-, -, -, -, -, -, -, -, rfl⟩ := h
  rfl

theorem admitCommand_some_ok {existing : CommandRecord} {command : FabricCommand}
    {context : AdmissionContext} {outcome : AdmissionOutcome}
    (h : admitCommand (some existing) command context = .ok outcome) :
    outcome = .existing existing ∧ existing.command = command := by
  simp only [admitCommand] at h
  split at h
  · cases h
    exact ⟨rfl, by assumption⟩
  · cases h

/-! ## What one reduction can do -/

/-- The material transitions of a command, one constructor per accepted state change, with the
guards checked on the way. -/
inductive Advance (command : FabricCommand) :
    DurableCommandState → CommandEvent → DurableCommandState → Prop
  | startAdmitted {attempt owner} (fence : owner.fence.Succeeds command.writerFence) :
      Advance command (.admitted attempt) (.start owner) (.executing attempt owner)
  | cancelAdmitted {attempt owner cancellation}
      (fence : owner.fence.Succeeds command.writerFence) :
      Advance command (.admitted attempt) (.cancelBeforeCommit owner cancellation)
        (.cancelled cancellation)
  | startRetry {next required basis owner} (fence : owner.fence.Succeeds required) :
      Advance command (.retryReady next required basis) (.start owner) (.executing next owner)
  | adopt {attempt current owner}
      (newer : current.fence.generation.get < owner.fence.generation.get) :
      Advance command (.executing attempt current) (.start owner) (.executing attempt owner)
  | prepare {attempt owner transaction} :
      Advance command (.executing attempt owner) (.prepareCommit owner transaction)
        (.commitPrepared attempt owner transaction)
  | cancelExecuting {attempt owner cancellation} :
      Advance command (.executing attempt owner) (.cancelBeforeCommit owner cancellation)
        (.cancelled cancellation)
  | failExecuting {attempt owner failure} (permanent : failure.failureClass = .permanent) :
      Advance command (.executing attempt owner) (.reportKnownFailure owner failure)
        (.failed failure)
  | retryExecuting {attempt owner failure} (bound : attempt + 1 < 2 ^ 32)
      (retryable : failure.failureClass = .retryableBeforeCommit) :
      Advance command (.executing attempt owner) (.reportKnownFailure owner failure)
        (.retryReady (attempt + 1) owner.fence (.knownFailure failure))
  | confirm {attempt owner transaction result} (kind : command.kind = result.kind) :
      Advance command (.commitPrepared attempt owner transaction)
        (.confirmCommit owner transaction result) (.succeeded transaction result .direct)
  | failPrepared {attempt owner transaction failure}
      (permanent : failure.failureClass = .permanent) :
      Advance command (.commitPrepared attempt owner transaction)
        (.reportKnownFailure owner failure) (.failed failure)
  | retryPrepared {attempt owner transaction failure} (bound : attempt + 1 < 2 ^ 32)
      (retryable : failure.failureClass = .retryableBeforeCommit) :
      Advance command (.commitPrepared attempt owner transaction)
        (.reportKnownFailure owner failure)
        (.retryReady (attempt + 1) owner.fence (.knownFailure failure))
  | loseCommit {attempt current owner transaction unknown} (recovery : owner.Succeeds current) :
      Advance command (.commitPrepared attempt current transaction)
        (.reportUnknownCommit owner transaction unknown)
        (.awaitingReconciliation attempt current owner transaction unknown 0 none)
  | observeCommitted {attempt execution recovery owner transaction unknown probes last evidence
      result} (newer : owner.Succeeds recovery) (kind : command.kind = result.kind) :
      Advance command
        (.awaitingReconciliation attempt execution recovery transaction unknown probes last)
        (.observeReconciliation owner transaction (.committed evidence result))
        (.succeeded transaction result (.reconciled evidence))
  | observeNotCommitted {attempt execution recovery owner transaction unknown probes last evidence}
      (newer : owner.Succeeds recovery) (bound : attempt + 1 < 2 ^ 32) :
      Advance command
        (.awaitingReconciliation attempt execution recovery transaction unknown probes last)
        (.observeReconciliation owner transaction (.notCommitted evidence))
        (.retryReady (attempt + 1) owner.fence (.reconciledNotCommitted evidence))
  | observeIndeterminate {attempt execution recovery owner transaction unknown probes last
      evidence} (newer : owner.Succeeds recovery) (bound : probes + 1 < 2 ^ 32) :
      Advance command
        (.awaitingReconciliation attempt execution recovery transaction unknown probes last)
        (.observeReconciliation owner transaction (.indeterminate evidence))
        (.awaitingReconciliation attempt execution owner transaction unknown (probes + 1)
          (some evidence))

/-- The reduction that moves `record` to `state`, with the effect it reports. -/
def advanced (state : DurableCommandState) (effect : ReductionEffect) : Reduction :=
  let successor : CommandRecord := ⟨record.command, state, record.revision + 1⟩
  ⟨successor, effect, some ⟨record, successor, effect⟩⟩

/-- `reduction` is an exact replay of `record`, or one material transition of it. -/
def Reduces (reduction : Reduction) : Prop :=
  reduction = idempotent record ∨ ∃ state effect, Advance record.command record.state event state ∧
      record.revision + 1 < 2 ^ 64 ∧ effect ≠ .idempotentReplay ∧
      reduction = advanced record state effect

variable {record : CommandRecord} {reduction : Reduction} {state : DurableCommandState}

theorem changed_ok (h : changed record state = .ok reduction) :
    record.revision + 1 < 2 ^ 64 ∧ reduction = advanced record state .stateChanged := by
  simp only [changed, ok_iff, checkedAdd_eq_some] at h
  obtain ⟨_, ⟨hw, rfl⟩, rfl⟩ := h
  exact ⟨hw, rfl⟩

variable {event : CommandEvent}

theorem reduces_of_changed (advance : Advance record.command record.state event state)
    (h : changed record state = .ok reduction) : Reduces record event reduction := by
  obtain ⟨hw, rfl⟩ := changed_ok h
  exact .inr ⟨state, .stateChanged, advance, hw, by decide, rfl⟩

variable {attempt : Nat}

theorem knownFailureState_ok {fence : WriterFence} {failure : CommandFailure}
    (h : knownFailureState attempt fence failure = .ok state) :
    (failure.failureClass = .permanent ∧ state = .failed failure) ∨
      (failure.failureClass = .retryableBeforeCommit ∧ attempt + 1 < 2 ^ 32 ∧
        state = .retryReady (attempt + 1) fence (.knownFailure failure)) := by
  unfold knownFailureState at h
  split at h
  · rename_i hcl
    cases h
    refine .inl ⟨?_, rfl⟩
    cases hcs : failure.failureClass <;> simp_all [CommandFailure.retryClassification]
  · rename_i hcl
    simp only [nextAttempt, ok_iff, checkedAdd_eq_some] at h
    obtain ⟨_, ⟨hw, rfl⟩, rfl⟩ := h
    refine .inr ⟨?_, hw, rfl⟩
    cases hcs : failure.failureClass <;> simp_all [CommandFailure.retryClassification]
  · rename_i hcl
    exact absurd hcl failure.retryClassification_ne

theorem reduceAdmitted_ok (hst : record.state = .admitted attempt)
    (h : reduceAdmitted record attempt event = .ok reduction) : Reduces record event reduction := by
  cases event with
  | start owner =>
    simp only [reduceAdmitted, validateNewOrRecoveryOwner, ok_iff] at h
    obtain ⟨_, hf, _, rfl, h⟩ := h
    exact reduces_of_changed (hst ▸ .startAdmitted hf) h
  | cancelBeforeCommit owner =>
    simp only [reduceAdmitted, validateNewOrRecoveryOwner, ok_iff] at h
    obtain ⟨_, hf, _, rfl, h⟩ := h
    exact reduces_of_changed (hst ▸ .cancelAdmitted hf) h
  | _ => simp [reduceAdmitted] at h

theorem reduceRetryReady_ok {next : Nat} {required : WriterFence} {basis : RetryBasis}
    (hst : record.state = .retryReady next required basis)
    (h : reduceRetryReady record next required basis event = .ok reduction) :
    Reduces record event reduction := by
  cases event with
  | start owner =>
    simp only [reduceRetryReady, validateNewOrRecoveryOwner, ok_iff] at h
    obtain ⟨_, hf, h⟩ := h
    exact reduces_of_changed (hst ▸ .startRetry hf) h
  | reportKnownFailure owner =>
    simp only [reduceRetryReady] at h
    split at h
    · cases h
      exact .inl rfl
    · simp at h
  | _ => simp [reduceRetryReady] at h

theorem reduceExecuting_ok {current : ExecutionOwner}
    (hst : record.state = .executing attempt current)
    (h : reduceExecuting record attempt current event = .ok reduction) :
    Reduces record event reduction := by
  cases event with
  | start owner =>
    simp only [reduceExecuting] at h
    split at h
    · cases h
      exact .inl rfl
    · rename_i hne
      simp only [validateRecoveryOwner, ok_iff] at h
      obtain ⟨_, hsuc, h⟩ := h
      exact reduces_of_changed (hst ▸ .adopt (hsuc.resolve_left hne)) h
  | prepareCommit owner =>
    simp only [reduceExecuting, validateCurrentOwner, ok_iff] at h
    obtain ⟨_, rfl, h⟩ := h
    exact reduces_of_changed (hst ▸ .prepare) h
  | reportKnownFailure owner =>
    simp only [reduceExecuting, validateCurrentOwner, ok_iff] at h
    obtain ⟨_, rfl, _, hnx, h⟩ := h
    obtain ⟨hc, rfl⟩ | ⟨hc, hbd, rfl⟩ := knownFailureState_ok hnx
    · exact reduces_of_changed (hst ▸ .failExecuting hc) h
    · exact reduces_of_changed (hst ▸ .retryExecuting hbd hc) h
  | cancelBeforeCommit owner =>
    simp only [reduceExecuting, validateCurrentOwner, ok_iff] at h
    obtain ⟨_, rfl, h⟩ := h
    exact reduces_of_changed (hst ▸ .cancelExecuting) h
  | _ => simp [reduceExecuting] at h

theorem reducePrepared_ok {current : ExecutionOwner} {prepared : TransactionRef}
    (hst : record.state = .commitPrepared attempt current prepared)
    (hk : validateResultKind record.command event = .ok ())
    (h : reducePrepared record attempt current prepared event = .ok reduction) :
    Reduces record event reduction := by
  cases event with
  | prepareCommit owner transaction =>
    simp only [reducePrepared, ok_iff] at h
    obtain ⟨_, _, _, _, rfl⟩ := h
    exact .inl rfl
  | confirmCommit owner transaction result =>
    simp only [reducePrepared, validateCurrentOwner, validateTransaction, ok_iff] at h
    obtain ⟨_, rfl, _, rfl, h⟩ := h
    have hres : record.command.kind = result.kind := by
      simpa [validateResultKind, CommandEvent.claimedResult] using hk
    exact reduces_of_changed (hst ▸ .confirm hres) h
  | reportKnownFailure owner =>
    simp only [reducePrepared, validateCurrentOwner, ok_iff] at h
    obtain ⟨_, rfl, _, hn, h⟩ := h
    obtain ⟨hc, rfl⟩ | ⟨hc, hbd, rfl⟩ := knownFailureState_ok hn
    · exact reduces_of_changed (hst ▸ .failPrepared hc) h
    · exact reduces_of_changed (hst ▸ .retryPrepared hbd hc) h
  | reportUnknownCommit owner transaction =>
    simp only [reducePrepared, validateRecoveryOwner, validateTransaction, ok_iff] at h
    obtain ⟨_, hrcv, _, rfl, h⟩ := h
    exact reduces_of_changed (hst ▸ .loseCommit hrcv) h
  | _ => simp [reducePrepared] at h

variable {progress : ReconciliationProgress} {context : ReductionContext}

theorem reduces_of_applyReconciliation {observation : ReconciliationObservation}
    (advance : ∀ state effect, reconciledState progress observation = .ok (state, effect) →
      Advance record.command record.state event state ∧ effect ≠ .idempotentReplay)
    (h : applyReconciliation record progress observation = .ok reduction) :
    Reduces record event reduction := by
  simp only [applyReconciliation, ok_iff] at h
  obtain ⟨⟨state, effect⟩, hst, _, hi, rfl⟩ := h
  obtain ⟨hadv, heff⟩ := advance state effect hst
  obtain ⟨hw, rfl⟩ := changed_ok hi
  exact .inr ⟨state, effect, hadv, hw, heff, rfl⟩

theorem reduceAwaitingReconciliation_ok {last : Option ReconciliationEvidenceRef}
    (hst : record.state = .awaitingReconciliation progress.attempt progress.executionOwner
      progress.recoveryOwner progress.transaction progress.unknown progress.probeCount last)
    (hk : validateResultKind record.command event = .ok ())
    (h : reduceAwaitingReconciliation record progress event = .ok reduction) :
    Reduces record event reduction := by
  cases event with
  | reportUnknownCommit owner transaction =>
    simp only [reduceAwaitingReconciliation, bind_eq_ok] at h
    obtain ⟨_, _, _, _, h⟩ := h
    split at h
    · cases h
      exact .inl rfl
    · simp at h
  | observeReconciliation owner transaction observation =>
    simp only [reduceAwaitingReconciliation, validateRecoveryOwner, validateTransaction,
      ok_iff] at h
    obtain ⟨_, hrcv, _, rfl, h⟩ := h
    refine reduces_of_applyReconciliation (fun _ _ hrcl => ?_) h
    rw [hst]
    cases observation with
    | committed evidence result =>
      have hres : record.command.kind = result.kind := by
        simpa [validateResultKind, CommandEvent.claimedResult] using hk
      cases hrcl
      exact ⟨.observeCommitted hrcv hres, by decide⟩
    | notCommitted evidence =>
      simp only [reconciledState, nextAttempt, ok_iff, checkedAdd_eq_some, Prod.mk.injEq] at hrcl
      obtain ⟨_, ⟨hbd, rfl⟩, rfl, rfl⟩ := hrcl
      exact ⟨.observeNotCommitted hrcv hbd, by decide⟩
    | indeterminate evidence =>
      simp only [reconciledState, ok_iff, checkedAdd_eq_some, Prod.mk.injEq] at hrcl
      obtain ⟨_, ⟨hbd, rfl⟩, rfl, rfl⟩ := hrcl
      exact ⟨.observeIndeterminate hrcv hbd, by decide⟩
  | _ => simp [reduceAwaitingReconciliation] at h

theorem terminalReplay_ok {outcome : Option Reduction}
    (h : terminalReplay record event = .ok outcome) :
    outcome = some (idempotent record) ∨ (outcome = none ∧ record.state.isTerminal = false) := by
  unfold terminalReplay at h
  simp only at h
  split at h
  · rename_i he
    cases h
    refine .inr ⟨rfl, ?_⟩
    split at he <;> simp_all
  · cases h
    exact .inl rfl
  · cases h

/-- **What an accepted event does.** It is an exact replay that leaves the record alone, or one
material transition that raises the revision by one. -/
theorem reduce_ok (h : reduce record event context = .ok reduction) :
    Reduces record event reduction := by
  simp only [reduce, bind_eq_ok] at h
  obtain ⟨_, hk, _, hrpl, h⟩ := h
  obtain rfl | ⟨rfl, _⟩ := terminalReplay_ok hrpl
  · cases h
    exact .inl rfl
  · simp only [bind_eq_ok] at h
    obtain ⟨_, _, h⟩ := h
    split at h
    · exact reduceAdmitted_ok (by assumption) h
    · exact reduceExecuting_ok (by assumption) h
    · exact reducePrepared_ok (by assumption) hk h
    · exact reduceAwaitingReconciliation_ok (by assumption) hk h
    · exact reduceRetryReady_ok (by assumption) h
    · simp at h

/-! ## Which states replay an event -/

theorem changed_ne_idempotent (record : CommandRecord) (state : DurableCommandState) :
    changed record state ≠ .ok (idempotent record) := by
  intro h
  obtain ⟨-, h⟩ := changed_ok h
  simp [idempotent, advanced] at h

theorem reduce_start_replay {owner : ExecutionOwner}
    (h : reduce record (.start owner) context = .ok (idempotent record)) :
    ∃ attempt, record.state = .executing attempt owner := by
  simp only [reduce, bind_eq_ok] at h
  obtain ⟨-, -, outcome, hrpl, h⟩ := h
  cases hst : record.state with
  | executing attempt current =>
    simp only [terminalReplay, hst, isTerminal] at hrpl
    cases hrpl
    simp only [hst, reduceExecuting, bind_eq_ok] at h
    obtain ⟨-, -, h⟩ := h
    split at h
    · rename_i hown
      exact ⟨attempt, by rw [hown]⟩
    · simp [changed_ne_idempotent] at h
  | succeeded | failed | cancelled =>
    simp [terminalReplay, hst, isTerminal] at hrpl
  | _ =>
    simp only [terminalReplay, hst, isTerminal] at hrpl
    cases hrpl
    simp [hst, reduceAdmitted, reducePrepared, reduceAwaitingReconciliation,
      reduceRetryReady, changed_ne_idempotent] at h

theorem reduce_prepareCommit_replay {owner : ExecutionOwner} {transaction : TransactionRef}
    (h : reduce record (.prepareCommit owner transaction) context = .ok (idempotent record)) :
    ∃ attempt, record.state = .commitPrepared attempt owner transaction := by
  simp only [reduce, bind_eq_ok] at h
  obtain ⟨-, -, outcome, hrpl, h⟩ := h
  cases hst : record.state with
  | commitPrepared attempt current prepared =>
    simp only [terminalReplay, hst, isTerminal] at hrpl
    cases hrpl
    simp only [hst, reducePrepared, validateCurrentOwner, validateTransaction, ok_iff] at h
    obtain ⟨-, -, -, hown, -, htx, -⟩ := h
    exact ⟨attempt, by rw [hown, htx]⟩
  | succeeded | failed | cancelled =>
    simp [terminalReplay, hst, isTerminal] at hrpl
  | _ =>
    simp only [terminalReplay, hst, isTerminal] at hrpl
    cases hrpl
    simp [hst, reduceAdmitted, reduceExecuting, reduceAwaitingReconciliation,
      reduceRetryReady, changed_ne_idempotent] at h

end CodeFabric.Command
