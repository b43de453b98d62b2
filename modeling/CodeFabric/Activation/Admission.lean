import CodeFabric.Activation.Chain
import CodeFabric.Support.Run

/-! # The admission gate

The process-local gate of one active workspace (`fabric/admission.rs`). It leases epochs to queries
while it is open, closes behind a barrier for an activation, and reopens in a new admission
generation. The gate holds no epoch: a query brings the epoch it has retained, of which the model
keeps the identity.

Every operation takes the lock of the state once, so operations are functions of the state, and an
operation that fails leaves it as it was. -/

namespace CodeFabric.Activation

open Fallible Command

variable (chain : ActivationChain)

def ActivationChain.headEvent : Option ActivationEvent :=
  chain.orderedEvents.getLast?

/-- The selected epoch of a chain, including the empty-workspace state. -/
def ActivationChain.currentHead : ExpectedHead :=
  match chain.headEvent with
  | none => .empty
  | some event => .epoch event.pins.epoch

/-! ## State -/

/-- Opaque proof that one runtime instance has closed new-query admission. -/
structure ActivationBarrier where
  runtimeInstance : Nat
  barrierId : Nat
  expectedHead : ExpectedHead
  authorityFence : WriterFence
  deriving DecidableEq, Repr

inductive AdmissionPhase
  | open
  | draining
  | recovering (durableHead : ExpectedHead)
  | closed (barrier : ActivationBarrier)
  | swapped (barrier : ActivationBarrier) (selectedEvent : ActivationEventId)
      (selectedEpoch : EpochId)
  deriving DecidableEq, Repr

/-- Process-local publication state after durable recovery selected an epoch. -/
inductive RecoverySelectionPublication
  | publishedClosed | alreadyReopened
  deriving DecidableEq, Repr

structure AdmissionState where
  phase : AdmissionPhase
  admissionGeneration : Nat
  nextBarrierId : Nat
  deriving DecidableEq, Repr

/-- One admitted query's immutable epoch pin. -/
structure FabricQueryLease where
  epoch : EpochId
  admissionGeneration : Nat
  deriving DecidableEq, Repr

/-- Process-local gate for one immutable active-workspace generation. -/
structure FabricAdmissionRuntime where
  workspaceId : WorkspaceId
  runtimeInstance : Nat
  state : AdmissionState
  deriving DecidableEq, Repr

inductive AdmissionError
  | admissionClosed
  | admissionAlreadyClosed
  | foreignBarrier
  | staleBarrier
  | admissionNotClosed
  | selectionAlreadyPublished
  | workspaceMismatch
  | missingSelectedEvent
  | selectedEventPredecessorMismatch
  | selectedEventFenceMismatch
  | selectedCandidateMismatch (selected candidate : EpochId)
  | selectionNotPublished
  | reconciliationMismatch (selected : EpochId) (reconciled active : ExpectedHead)
  | cannotAbortAfterSelection
  | recoveryEventIsNotHead
  | recoveryHeadMismatch (durable active : ExpectedHead)
  | recoveryPublishedSelectionMismatch
  | recoveryAdmissionUnexpectedlyOpen
  | shutdownTransitionInProgress
  | recoveryFenceNotAuthorized (execution active : WriterFence)
  | internalInvariant (text : String)
  deriving DecidableEq, Repr

/-! ## Construction -/

/-- The gate of a workspace without any selection: open. -/
def freshGenesis (workspaceId : WorkspaceId) (runtimeInstance : Nat) : FabricAdmissionRuntime :=
  ⟨workspaceId, runtimeInstance, ⟨.open, 1, 1⟩⟩

/-- The gate of a restarted workspace, closed until its selected epoch is rebuilt. -/
def recoverUnmaterializedForReconciliation (runtimeInstance : Nat) : FabricAdmissionRuntime :=
  ⟨chain.workspaceId, runtimeInstance, ⟨.recovering chain.currentHead, 1, 1⟩⟩

/-! ## Shared checks -/

/-- A recovery acts with the fence it recovers or a later one. -/
def RecoveryFenceAuthorizes (execution active : WriterFence) : Prop :=
  active = execution ∨ execution.generation.get < active.generation.get
  deriving Decidable

def requireRecoveryFence (execution active : WriterFence) : Except AdmissionError Unit :=
  ensure (RecoveryFenceAuthorizes execution active) (.recoveryFenceNotAuthorized execution active)

def advanceAdmissionGeneration (state : AdmissionState) : Except AdmissionError AdmissionState := do
  let generation ← okOr (checkedAdd 64 state.admissionGeneration 1)
    (.internalInvariant "admission generation exhausted")
  return { state with admissionGeneration := generation }

namespace FabricAdmissionRuntime

variable (gate : FabricAdmissionRuntime) (expectedHead : ExpectedHead) (event : ActivationEvent)
  (barrier : ActivationBarrier) (chainAfterReadback : ActivationChain)
  (executionFence activeRecoveryFence : WriterFence)

def nextBarrier (authorityFence : WriterFence) :
    Except AdmissionError (ActivationBarrier × AdmissionState) := do
  let next ← okOr (checkedAdd 64 gate.state.nextBarrierId 1)
    (.internalInvariant "activation barrier sequence exhausted")
  return (⟨gate.runtimeInstance, gate.state.nextBarrierId, expectedHead, authorityFence⟩,
    { gate.state with nextBarrierId := next })

def requireClosedBarrier (barrier : ActivationBarrier) : Except AdmissionError Unit := do
  ensure (barrier.runtimeInstance = gate.runtimeInstance) .foreignBarrier
  match gate.state.phase with
  | .closed active => ensure (active = barrier) .staleBarrier
  | .open | .draining | .recovering _ => .error .admissionNotClosed
  | .swapped _ _ _ => .error .selectionAlreadyPublished

/-! ## Operations -/

def installReconciledSelectedHead (chain : ActivationChain)
    (candidate : EpochId) (activeRecoveryFence : WriterFence) :
    Except AdmissionError AdmissionState := do
  requireRecoveryFence event.executionFence activeRecoveryFence
  ensure (chain.workspaceId = gate.workspaceId) .workspaceMismatch
  ensure (chain.headEvent = some event) .recoveryEventIsNotHead
  let selectedEpoch := event.pins.epoch
  ensure (chain.currentHead = .epoch selectedEpoch ∧ candidate = selectedEpoch)
    (.selectedCandidateMismatch selectedEpoch candidate)
  match gate.state.phase with
  | .recovering durableHead => do
    ensure (durableHead = .epoch selectedEpoch)
      (.recoveryHeadMismatch (.epoch selectedEpoch) durableHead)
    let state ← advanceAdmissionGeneration gate.state
    return { state with phase := .open }
  | _ => .error .recoveryAdmissionUnexpectedlyOpen

/-- Lease the exact epoch already retained by an active-workspace lease. -/
def admitSelected (epoch : EpochId) : Except AdmissionError FabricQueryLease := do
  ensure (gate.state.phase = .open) .admissionClosed
  return ⟨epoch, gate.state.admissionGeneration⟩

/-- Permanently close new-query admission before shutdown. -/
def closeForShutdown : Except AdmissionError AdmissionState :=
  match gate.state.phase with
  | .open => .ok { gate.state with phase := .draining }
  | .draining => .ok gate.state
  | .recovering _ | .closed _ | .swapped _ _ _ => .error .shutdownTransitionInProgress

/-- Close new-query admission before a durable activation append is attempted. -/
def closeAdmission (executionFence : WriterFence) :
    Except AdmissionError (ActivationBarrier × AdmissionState) := do
  ensure (gate.state.phase = .open) .admissionAlreadyClosed
  let (barrier, state) ← gate.nextBarrier expectedHead executionFence
  return (barrier, { state with phase := .closed barrier })

/-- Swap to the selected epoch of the chain read back, while admission remains closed. -/
def publishSelectedEpoch (candidate : EpochId) : Except AdmissionError AdmissionState := do
  gate.requireClosedBarrier barrier
  ensure (chainAfterReadback.workspaceId = gate.workspaceId) .workspaceMismatch
  let head ← okOr chainAfterReadback.headEvent .missingSelectedEvent
  ensure (head.predecessorEpoch = barrier.expectedHead) .selectedEventPredecessorMismatch
  ensure (head.executionFence = barrier.authorityFence) .selectedEventFenceMismatch
  let selectedEpoch := head.pins.epoch
  ensure (chainAfterReadback.currentHead = .epoch selectedEpoch ∧ candidate = selectedEpoch)
    (.selectedCandidateMismatch selectedEpoch candidate)
  return { gate.state with phase := .swapped barrier head.eventId selectedEpoch }

/-- Reopen after the receipt observer agrees with the swapped selection. -/
def reopenAfterReconciliation (reconciledHead : ExpectedHead) :
    Except AdmissionError AdmissionState :=
  match gate.state.phase with
  | .swapped active _ selected => do
    ensure (active = barrier) .staleBarrier
    ensure (reconciledHead = .epoch selected)
      (.reconciliationMismatch selected reconciledHead reconciledHead)
    let state ← advanceAdmissionGeneration gate.state
    return { state with phase := .open }
  | .open | .draining | .recovering _ | .closed _ => .error .selectionNotPublished

/-- Finish a slot handoff without reopening the retired predecessor. -/
def finishPredecessorHandoff (selected : EpochId) : Except AdmissionError AdmissionState :=
  match gate.state.phase with
  | .swapped active _ selectedEpoch => do
    ensure (active = barrier ∧ selectedEpoch = selected) .staleBarrier
    return { gate.state with phase := .draining }
  | _ => .error .selectionNotPublished

/-- Abort a closure when durable history proves that nothing was selected. -/
def abortBeforeSelection (durableChain : ActivationChain) :
    Except AdmissionError AdmissionState := do
  gate.requireClosedBarrier barrier
  ensure (durableChain.workspaceId = gate.workspaceId ∧
    durableChain.currentHead = barrier.expectedHead) .cannotAbortAfterSelection
  return { gate.state with phase := .open }

def recoverSelectedEpoch (event : ActivationEvent)
    (chainAfterReadback : ActivationChain) (allowAlreadyReopened : Bool) :
    Except AdmissionError (RecoverySelectionPublication × AdmissionState) := do
  requireRecoveryFence executionFence activeRecoveryFence
  ensure (chainAfterReadback.workspaceId = gate.workspaceId) .workspaceMismatch
  ensure (chainAfterReadback.headEvent = some event) .recoveryEventIsNotHead
  ensure (event.predecessorEpoch = expectedHead) .selectedEventPredecessorMismatch
  ensure (event.executionFence = executionFence) .selectedEventFenceMismatch
  let selectedEpoch := event.pins.epoch
  ensure (chainAfterReadback.currentHead = .epoch selectedEpoch) .recoveryEventIsNotHead
  match gate.state.phase with
  | .recovering durableHead => do
    ensure (durableHead = .epoch selectedEpoch)
      (.recoveryHeadMismatch (.epoch selectedEpoch) durableHead)
    let (barrier, state) ← gate.nextBarrier expectedHead activeRecoveryFence
    return (.publishedClosed,
      { state with phase := .swapped barrier event.eventId selectedEpoch })
  | .closed barrier => do
    ensure (barrier.expectedHead = expectedHead ∧ barrier.authorityFence = executionFence)
      .staleBarrier
    let (recoveryBarrier, state) ← gate.nextBarrier expectedHead activeRecoveryFence
    return (.publishedClosed,
      { state with phase := .swapped recoveryBarrier event.eventId selectedEpoch })
  | .swapped barrier selectedEvent activeEpoch => do
    ensure (selectedEvent = event.eventId ∧ activeEpoch = selectedEpoch ∧
      RecoveryFenceAuthorizes barrier.authorityFence activeRecoveryFence)
      .recoveryPublishedSelectionMismatch
    return (.publishedClosed, gate.state)
  | .open => do
    ensure allowAlreadyReopened .recoveryAdmissionUnexpectedlyOpen
    return (.alreadyReopened, gate.state)
  | .draining => .error .recoveryAdmissionUnexpectedlyOpen

def reopenRecoveredSelection
    (activeRecoveryFence : WriterFence) : Except AdmissionError AdmissionState := do
  requireRecoveryFence event.executionFence activeRecoveryFence
  ensure (chainAfterReadback.workspaceId = gate.workspaceId ∧
    chainAfterReadback.headEvent = some event) .recoveryEventIsNotHead
  match gate.state.phase with
  | .swapped barrier selectedEvent activeEpoch => do
    ensure (selectedEvent = event.eventId ∧ activeEpoch = event.pins.epoch ∧
      RecoveryFenceAuthorizes barrier.authorityFence activeRecoveryFence)
      .recoveryPublishedSelectionMismatch
    let state ← advanceAdmissionGeneration gate.state
    return { state with phase := .open }
  | .open => return gate.state
  | .draining => .error .recoveryAdmissionUnexpectedlyOpen
  | .recovering _ | .closed _ => .error .recoveryPublishedSelectionMismatch

/-- Complete a recovered handoff without reopening a retired predecessor. -/
def finishRecoveredPredecessor
    (activeRecoveryFence : WriterFence) : Except AdmissionError AdmissionState := do
  requireRecoveryFence event.executionFence activeRecoveryFence
  ensure (chainAfterReadback.workspaceId = gate.workspaceId ∧
    chainAfterReadback.headEvent = some event) .recoveryEventIsNotHead
  match gate.state.phase with
  | .swapped _ selectedEvent selectedEpoch => do
    ensure (selectedEvent = event.eventId ∧ selectedEpoch = event.pins.epoch)
      .recoveryPublishedSelectionMismatch
    return { gate.state with phase := .draining }
  | .open => return { gate.state with phase := .draining }
  | .draining | .recovering _ | .closed _ => .error .recoveryPublishedSelectionMismatch

/-- Reopen after durable readback proves that no selection occurred. -/
def recoverProvedNoSelection (unchangedChain : ActivationChain) :
    Except AdmissionError AdmissionState := do
  requireRecoveryFence executionFence activeRecoveryFence
  ensure (unchangedChain.workspaceId = gate.workspaceId ∧
    unchangedChain.currentHead = expectedHead) .cannotAbortAfterSelection
  match gate.state.phase with
  | .recovering durableHead => do
    ensure (durableHead = expectedHead) .cannotAbortAfterSelection
    let state ← advanceAdmissionGeneration gate.state
    return { state with phase := .open }
  | .closed barrier => do
    ensure (barrier.expectedHead = expectedHead ∧ barrier.authorityFence = executionFence)
      .cannotAbortAfterSelection
    let state ← advanceAdmissionGeneration gate.state
    return { state with phase := .open }
  | .open => return gate.state
  | .draining => .error .recoveryAdmissionUnexpectedlyOpen
  | .swapped _ _ _ => .error .cannotAbortAfterSelection

end FabricAdmissionRuntime

/-! ## Runs of the gate -/

/-- The calls a gate answers. -/
inductive AdmissionOperation
  | install (event : ActivationEvent) (chain : ActivationChain) (candidate : EpochId)
      (activeRecoveryFence : WriterFence)
  | lease (epoch : EpochId)
  | shutdown
  | close (expectedHead : ExpectedHead) (executionFence : WriterFence)
  | publish (barrier : ActivationBarrier) (chain : ActivationChain) (candidate : EpochId)
  | reopen (barrier : ActivationBarrier) (reconciledHead : ExpectedHead)
  | finishHandoff (barrier : ActivationBarrier) (selected : EpochId)
  | abort (barrier : ActivationBarrier) (durableChain : ActivationChain)
  | recover (expectedHead : ExpectedHead) (executionFence activeRecoveryFence : WriterFence)
      (event : ActivationEvent) (chain : ActivationChain) (allowAlreadyReopened : Bool)
  | reopenRecovered (event : ActivationEvent) (chain : ActivationChain)
      (activeRecoveryFence : WriterFence)
  | finishRecovered (event : ActivationEvent) (chain : ActivationChain)
      (activeRecoveryFence : WriterFence)
  | noSelection (expectedHead : ExpectedHead) (executionFence activeRecoveryFence : WriterFence)
      (unchangedChain : ActivationChain)
  deriving DecidableEq

/-- What a successful call returns. -/
inductive AdmissionAnswer
  | done
  | lease (lease : FabricQueryLease)
  | barrier (barrier : ActivationBarrier)
  | publication (publication : RecoverySelectionPublication)
  deriving DecidableEq, Repr

/-- A call on a gate: its answer and the state it leaves behind. -/
def AdmissionOperation.perform (gate : FabricAdmissionRuntime) :
    AdmissionOperation → Except AdmissionError (AdmissionAnswer × AdmissionState)
  | .install event chain candidate active =>
    (gate.installReconciledSelectedHead event chain candidate active).map (.done, ·)
  | .lease epoch => (gate.admitSelected epoch).map (.lease ·, gate.state)
  | .shutdown => gate.closeForShutdown.map (.done, ·)
  | .close expected fence => (gate.closeAdmission expected fence).map fun (b, s) => (.barrier b, s)
  | .publish barrier chain candidate =>
    (gate.publishSelectedEpoch barrier chain candidate).map (.done, ·)
  | .reopen barrier reconciled => (gate.reopenAfterReconciliation barrier reconciled).map (.done, ·)
  | .finishHandoff barrier selected =>
    (gate.finishPredecessorHandoff barrier selected).map (.done, ·)
  | .abort barrier chain => (gate.abortBeforeSelection barrier chain).map (.done, ·)
  | .recover expected fence active event chain allow =>
    (gate.recoverSelectedEpoch expected fence active event chain allow).map
      fun (p, s) => (.publication p, s)
  | .reopenRecovered event chain active =>
    (gate.reopenRecoveredSelection event chain active).map (.done, ·)
  | .finishRecovered event chain active =>
    (gate.finishRecoveredPredecessor event chain active).map (.done, ·)
  | .noSelection expected fence active chain =>
    (gate.recoverProvedNoSelection expected fence active chain).map (.done, ·)

/-- One call as its caller sees it: what was asked and what came back. -/
abbrev AdmissionCall := AdmissionOperation × Except AdmissionError AdmissionAnswer

/-- The answer of a gate to one call, and the gate afterwards. -/
def AdmissionOperation.call (gate : FabricAdmissionRuntime) (operation : AdmissionOperation) :
    Except AdmissionError AdmissionAnswer × FabricAdmissionRuntime :=
  match operation.perform gate with
  | .ok (answer, state) => (.ok answer, { gate with state })
  | .error error => (.error error, gate)

def AdmissionStep (gate : FabricAdmissionRuntime) (call : AdmissionCall)
    (after : FabricAdmissionRuntime) : Prop :=
  call.1.call gate = (call.2, after)

/-- The gates a process starts with, and the head that was selected by then. -/
inductive Starts : FabricAdmissionRuntime → ExpectedHead → Prop
  | fresh (workspaceId : WorkspaceId) (runtimeInstance : Nat) :
      Starts (freshGenesis workspaceId runtimeInstance) .empty
  | unmaterialized (chain : ActivationChain) (runtimeInstance : Nat) :
      Starts (recoverUnmaterializedForReconciliation chain runtimeInstance) chain.currentHead

open Runs in
def admissionTransitions (gate : FabricAdmissionRuntime) :
    List AdmissionOperation → List (Transition FabricAdmissionRuntime AdmissionCall)
  | [] => []
  | operation :: rest =>
    let (answer, after) := operation.call gate
    ⟨gate, (operation, answer), after⟩ :: admissionTransitions after rest

theorem run_admissionTransitions (gate : FabricAdmissionRuntime)
    (operations : List AdmissionOperation) :
    ∃ final, Runs.Run AdmissionStep gate (admissionTransitions gate operations) final := by
  induction operations generalizing gate with
  | nil => exact ⟨gate, .nil gate⟩
  | cons operation rest ih =>
    obtain ⟨final, run⟩ := ih (operation.call gate).2
    exact ⟨final, .cons rfl run⟩

end CodeFabric.Activation
