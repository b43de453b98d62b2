import CodeFabric.Activation.Leases
import CodeFabric.Activation.Transaction

/-! # What the outcome of an activation says

One run of `activate` against the admission gate of a process. The gate answers as its functions
compute; the proof, the authority, the event writer, the receipt observer and the acknowledgement
answer anything. -/

namespace CodeFabric.Activation

open Fallible Command Interleaving Runs

/-! ## The gate behind the ports -/

/-- The answer of a gate operation, and the gate afterwards. -/
def FabricAdmissionRuntime.reply {α : Type} (gate : FabricAdmissionRuntime)
    (result : Except AdmissionError (α × AdmissionState)) :
    Except AdmissionError α × FabricAdmissionRuntime :=
  match result with
  | .ok (value, state) => (.ok value, { gate with state })
  | .error error => (.error error, gate)

open FabricAdmissionRuntime

/-- The answer of a gate operation without a result of its own. -/
def FabricAdmissionRuntime.replyDone (gate : FabricAdmissionRuntime)
    (result : Except AdmissionError AdmissionState) :
    Except AdmissionError Unit × FabricAdmissionRuntime :=
  gate.reply (result.map ((), ·))

/-- What a port may answer: the gate as its functions compute, the others anything. -/
def GatePerforms : (port : ActivationPort) → FabricAdmissionRuntime → PortAnswer port →
    FabricAdmissionRuntime → Prop
  | .closeAdmission expectedHead executionFence, gate, answer, after =>
    gate.reply (gate.closeAdmission expectedHead executionFence) = (answer, after)
  | .publishSelectedEpoch barrier _ chain candidate, gate, answer, after =>
    gate.replyDone (gate.publishSelectedEpoch barrier chain candidate.identity) = (answer, after)
  | .reconcileAndReopen barrier reconciledHead, gate, answer, after =>
    gate.replyDone (gate.reopenAfterReconciliation barrier reconciledHead) = (answer, after)
  | .abortProvedNoSelection barrier unchangedChain, gate, answer, after =>
    gate.replyDone (gate.abortBeforeSelection barrier unchangedChain) = (answer, after)
  | .recoverSelectedEpoch expectedHead executionFence activeFence selection chain allow, gate,
      answer, after =>
    gate.reply (gate.recoverSelectedEpoch expectedHead executionFence activeFence
      selection.event chain allow) = (answer, after)
  | .reopenRecoveredSelection event chain activeFence, gate, answer, after =>
    gate.replyDone (gate.reopenRecoveredSelection event chain activeFence) = (answer, after)
  | .recoverProvedNoSelection expectedHead executionFence activeFence unchangedChain, gate,
      answer, after =>
    gate.replyDone (gate.recoverProvedNoSelection expectedHead executionFence activeFence
      unchangedChain) = (answer, after)
  | .proveCandidate _, gate, _, after => gate = after
  | .revalidate _, gate, _, after => gate = after
  | .appendAndReadback _, gate, _, after => gate = after
  | .reconcileSelected .., gate, _, after => gate = after
  | .acknowledge .., gate, _, after => gate = after
  | .readOperationMarker _, gate, _, after => gate = after

abbrev ActivationStep := Transition FabricAdmissionRuntime (Call ActivationPort PortAnswer)

section

variable {α : Type} {gate after : FabricAdmissionRuntime}
  {result : Except AdmissionError (α × AdmissionState)}

theorem reply_ok {value : α} : gate.reply result = (.ok value, after) ↔
    ∃ state, result = .ok (value, state) ∧ after = { gate with state } := by
  unfold reply
  split
  · rename_i answered state
    constructor
    · intro h
      injection h with hval haf
      injection hval with hval
      exact ⟨state, by rw [hval], haf.symm⟩
    · rintro ⟨_, hres, rfl⟩
      injection hres with hres
      injection hres with hval hst
      rw [hval, hst]
  · simp

theorem reply_error {error : AdmissionError}
    (h : gate.reply result = (.error error, after)) : after = gate := by
  unfold reply at h
  split at h
  · simp at h
  · exact (Prod.mk.inj h).2.symm

theorem replyDone_ok {result : Except AdmissionError AdmissionState} {done : Unit} :
    gate.replyDone result = (.ok done, after) ↔
      ∃ state, result = .ok state ∧ after = { gate with state } := by
  simp [replyDone, reply_ok]

end

structure PortAnswers where
  prove : CandidateProofRequest → CandidateProofOutcome
  revalidate : ActivationAuthorityRequest → AuthorityRevalidationOutcome
  append : ActivationAppendContract → ActivationAppendOutcome
  reconcile : ActivationEvent → ActivationChain → WriterFence → ActivationCacheOutcome
  acknowledge : ActivationEvent → WriterFence → ActivationAcknowledgementOutcome
  readMarker : ActivationOperationMarkerRequest → ActivationOperationMarkerOutcome

def PortAnswers.handler (answers : PortAnswers) :
    (port : ActivationPort) → FabricAdmissionRuntime → PortAnswer port × FabricAdmissionRuntime
  | .proveCandidate request, gate => (answers.prove request, gate)
  | .closeAdmission expectedHead executionFence, gate =>
    gate.reply (gate.closeAdmission expectedHead executionFence)
  | .revalidate request, gate => (answers.revalidate request, gate)
  | .appendAndReadback contract, gate => (answers.append contract, gate)
  | .publishSelectedEpoch barrier _ chain candidate, gate =>
    gate.replyDone (gate.publishSelectedEpoch barrier chain candidate.identity)
  | .reconcileSelected event chain activeFence, gate =>
    (answers.reconcile event chain activeFence, gate)
  | .reconcileAndReopen barrier reconciledHead, gate =>
    gate.replyDone (gate.reopenAfterReconciliation barrier reconciledHead)
  | .abortProvedNoSelection barrier unchangedChain, gate =>
    gate.replyDone (gate.abortBeforeSelection barrier unchangedChain)
  | .acknowledge event activeFence, gate => (answers.acknowledge event activeFence, gate)
  | .readOperationMarker request, gate => (answers.readMarker request, gate)
  | .recoverSelectedEpoch expectedHead executionFence activeFence selection chain allow, gate =>
    gate.reply (gate.recoverSelectedEpoch expectedHead executionFence activeFence
      selection.event chain allow)
  | .reopenRecoveredSelection event chain activeFence, gate =>
    gate.replyDone (gate.reopenRecoveredSelection event chain activeFence)
  | .recoverProvedNoSelection expectedHead executionFence activeFence unchangedChain, gate =>
    gate.replyDone (gate.recoverProvedNoSelection expectedHead executionFence activeFence
      unchangedChain)

theorem PortAnswers.performs (answers : PortAnswers) (port : ActivationPort)
    (gate : FabricAdmissionRuntime) :
    GatePerforms port gate (answers.handler port gate).1 (answers.handler port gate).2 := by
  cases port <;> rfl

/-! ## How far a run came -/

section

variable (request : ActivationTransactionRequest) (gate : FabricAdmissionRuntime)

structure Closure where
  barrier : ActivationBarrier
  closed : AdmissionState
  closes : gate.closeAdmission request.command.expectedHead request.executionFence =
    .ok (barrier, closed)

/-- The authority was revalidated behind the closed gate, and the event was to be appended. -/
structure Appending extends Closure request gate where
  authority : ActivationAuthoritySnapshot
  authorized : AuthorityMatches request authority
  contract : ActivationAppendContract
  contracted : appendContract request authority = some contract

/-- The appended event was read back. -/
structure Selection extends Appending request gate where
  selection : SelectedEpochRecord
  chain : ActivationChain
  verified : validateCommittedSelection contract selection.event selection.tableVersions chain =
    .ok ()

/-- The selected epoch was published behind the closed gate. -/
structure Publication extends Selection request gate where
  swapped : AdmissionState
  publishes : { gate with state := closed }.publishSelectedEpoch barrier chain
    request.candidate.identity = .ok swapped

/-- The cache was reconciled and the gate was reopened. -/
structure Reopening extends Publication request gate where
  cache : ActivationCacheReceipt
  cached : CacheReceiptMatches request.recoveryRequest selection.event request.executionFence cache
  opened : AdmissionState
  reopens : { gate with state := swapped }.reopenAfterReconciliation barrier
    (.epoch request.pins.epoch) = .ok opened

variable {request gate}

def Closure.closedGate (c : Closure request gate) : FabricAdmissionRuntime :=
  { gate with state := c.closed }

def Publication.swappedGate (p : Publication request gate) : FabricAdmissionRuntime :=
  { gate with state := p.swapped }

def Reopening.openGate (r : Reopening request gate) : FabricAdmissionRuntime :=
  { gate with state := r.opened }

def Closure.steps (c : Closure request gate) (rest : List ActivationStep) : List ActivationStep :=
  ⟨gate, ⟨.proveCandidate (proofRequest request), .proved request.pins.proofReceipt⟩, gate⟩ ::
  ⟨gate, ⟨.closeAdmission request.command.expectedHead request.executionFence, .ok c.barrier⟩,
    c.closedGate⟩ :: rest

/-- The calls up to an append with its answer, and what followed. -/
def Appending.steps (a : Appending request gate) (answer : ActivationAppendOutcome)
    (rest : List ActivationStep) : List ActivationStep :=
  a.toClosure.steps
    (⟨a.closedGate, ⟨.revalidate (authorityRequest request), .valid a.authority⟩, a.closedGate⟩ ::
    ⟨a.closedGate, ⟨.appendAndReadback a.contract, answer⟩, a.closedGate⟩ :: rest)

def Selection.steps (s : Selection request gate) (rest : List ActivationStep) :
    List ActivationStep :=
  s.toAppending.steps (.committed s.selection s.chain) rest

def Publication.steps (p : Publication request gate) (rest : List ActivationStep) :
    List ActivationStep :=
  p.toSelection.steps
    (⟨p.closedGate, ⟨.publishSelectedEpoch p.barrier p.selection p.chain request.candidate,
      .ok ()⟩, p.swappedGate⟩ :: rest)

def Reopening.steps (r : Reopening request gate) (rest : List ActivationStep) :
    List ActivationStep :=
  r.toPublication.steps
    (⟨r.swappedGate, ⟨.reconcileSelected r.selection.event r.chain request.executionFence,
      .reconciled r.cache⟩, r.swappedGate⟩ ::
    ⟨r.swappedGate, ⟨.reconcileAndReopen r.barrier (.epoch request.pins.epoch), .ok ()⟩,
      r.openGate⟩ :: rest)

variable (request gate)

/-- The ways a run of `activate` can end: its calls, its outcome and the gate it leaves. -/
inductive ActivationRun :
    List ActivationStep → ActivationTransactionOutcome → FabricAdmissionRuntime → Prop
  | unproved (answer : CandidateProofOutcome) (reason : ActivationNotSelectedReason) :
      ActivationRun [⟨gate, ⟨.proveCandidate (proofRequest request), answer⟩, gate⟩]
        (notSelected request.recoveryRequest .candidateProof reason) gate
  | rejected (error : AdmissionError) :
      ActivationRun
        [⟨gate, ⟨.proveCandidate (proofRequest request), .proved request.pins.proofReceipt⟩, gate⟩,
          ⟨gate, ⟨.closeAdmission request.command.expectedHead request.executionFence,
            .error error⟩, gate⟩]
        (notSelected request.recoveryRequest .admissionClosure (.admissionRejected error)) gate
  | unauthorized (c : Closure request gate) (answer : AuthorityRevalidationOutcome)
      (reason : ActivationReconciliationReason) :
      ActivationRun
        (c.steps [⟨c.closedGate, ⟨.revalidate (authorityRequest request), answer⟩, c.closedGate⟩])
        (reconciliation request.recoveryRequest .authorityRevalidation reason .notAttempted
          .closed) c.closedGate
  | appendUnsettled (a : Appending request gate) (answer : ActivationAppendOutcome)
      (reason : ActivationReconciliationReason) :
      ActivationRun (a.steps answer [])
        (reconciliation request.recoveryRequest .durableAppendReadback reason .unknown .closed)
        a.closedGate
  | abortRefused (a : Appending request gate) (chain : ActivationChain)
      (reason : ActivationNotCommittedReason) (error : AdmissionError)
      (unchanged : UnchangedChainMatches request a.authority chain) :
      ActivationRun
        (a.steps (.notCommitted chain reason)
          [⟨a.closedGate, ⟨.abortProvedNoSelection a.barrier chain, .error error⟩, a.closedGate⟩])
        (reconciliation request.recoveryRequest .admissionReopen (.admissionFailure error)
          .notAttempted .closed) a.closedGate
  | unselected (a : Appending request gate) (chain : ActivationChain)
      (reason : ActivationNotCommittedReason) (opened : AdmissionState)
      (unchanged : UnchangedChainMatches request a.authority chain)
      (aborts : a.closedGate.abortBeforeSelection a.barrier chain = .ok opened) :
      ActivationRun
        (a.steps (.notCommitted chain reason)
          [⟨a.closedGate, ⟨.abortProvedNoSelection a.barrier chain, .ok ()⟩,
            { gate with state := opened }⟩])
        (notSelected request.recoveryRequest .durableAppendReadback
          (.appendProvedNotCommitted reason)) { gate with state := opened }
  | swapRefused (s : Selection request gate) (error : AdmissionError) :
      ActivationRun
        (s.steps [⟨s.closedGate, ⟨.publishSelectedEpoch s.barrier s.selection s.chain
          request.candidate, .error error⟩, s.closedGate⟩])
        (reconciliation request.recoveryRequest .epochSwap (.admissionFailure error)
          (.readBack s.selection.event.eventId) .closed) s.closedGate
  | cacheUnsettled (p : Publication request gate) (answer : ActivationCacheOutcome)
      (reason : ActivationReconciliationReason) :
      ActivationRun
        (p.steps [⟨p.swappedGate, ⟨.reconcileSelected p.selection.event p.chain
          request.executionFence, answer⟩, p.swappedGate⟩])
        (reconciliation request.recoveryRequest .cacheReconciliation reason
          (.readBack p.selection.event.eventId) .swapped) p.swappedGate
  | reopenRefused (p : Publication request gate) (cache : ActivationCacheReceipt)
      (error : AdmissionError) :
      ActivationRun
        (p.steps [⟨p.swappedGate, ⟨.reconcileSelected p.selection.event p.chain
            request.executionFence, .reconciled cache⟩, p.swappedGate⟩,
          ⟨p.swappedGate, ⟨.reconcileAndReopen p.barrier (.epoch request.pins.epoch),
            .error error⟩, p.swappedGate⟩])
        (reconciliation request.recoveryRequest .admissionReopen (.admissionFailure error)
          (.readBack p.selection.event.eventId) .swapped) p.swappedGate
  | unacknowledged (r : Reopening request gate) (answer : ActivationAcknowledgementOutcome)
      (reason : ActivationReconciliationReason) :
      ActivationRun
        (r.steps [⟨r.openGate, ⟨.acknowledge r.selection.event request.executionFence, answer⟩,
          r.openGate⟩])
        (reconciliation request.recoveryRequest .acknowledgement reason
          (.readBack r.selection.event.eventId) .reopened) r.openGate
  | activated (r : Reopening request gate) (receipt : ActivationAcknowledgementReceipt)
      (acknowledged : AcknowledgementMatches request.recoveryRequest r.selection.event
        request.executionFence receipt) :
      ActivationRun
        (r.steps [⟨r.openGate, ⟨.acknowledge r.selection.event request.executionFence,
          .acknowledged receipt⟩, r.openGate⟩])
        (.activated ⟨r.selection.event, r.cache, receipt, none⟩) r.openGate

end

variable {chain : ActivationChain} {event : ActivationEvent} {contract : ActivationAppendContract}

section

variable {request : ActivationTransactionRequest} {gate after : FabricAdmissionRuntime}
  {steps : List ActivationStep} {outcome : ActivationTransactionOutcome}

theorem activationRun_of_acknowledge (r : Reopening request gate)
    (run : Execution GatePerforms (acknowledgeActivated request r.selection.event r.cache)
      r.openGate steps outcome after) :
    ActivationRun request gate (r.steps steps) outcome after := by
  obtain ⟨answer, m, _, hm, rfl, h⟩ := execution_perform_bind.1 run
  obtain rfl : r.openGate = m := hm
  cases answer with
  | acknowledged receipt =>
    dsimp only at h
    split_ifs at h with hrct
    · exact h.of_pure (.activated r receipt hrct)
    · exact h.of_pure (.unacknowledged r _ _)
  | unknown | cancelled => exact h.of_pure (.unacknowledged r _ _)

theorem activationRun_of_reopen (p : Publication request gate) {cache : ActivationCacheReceipt}
    (hc : CacheReceiptMatches request.recoveryRequest p.selection.event
      request.executionFence cache)
    (run : Execution GatePerforms (reopenActivated request p.barrier p.selection.event cache)
      p.swappedGate steps outcome after) :
    ActivationRun request gate
      (p.steps (⟨p.swappedGate, ⟨.reconcileSelected p.selection.event p.chain
        request.executionFence, .reconciled cache⟩, p.swappedGate⟩ :: steps)) outcome after := by
  obtain ⟨answer, m, _, hm, rfl, h⟩ := execution_perform_bind.1 run
  cases answer with
  | ok =>
    obtain ⟨opened, ho, rfl⟩ := replyDone_ok.1 hm
    exact activationRun_of_acknowledge ⟨p, cache, hc, opened, ho⟩ h
  | error error =>
    obtain rfl := reply_error hm
    exact h.of_pure (.reopenRefused p cache error)

theorem activationRun_of_reconcile (p : Publication request gate) (run : Execution GatePerforms
      (reconcileActivated request p.barrier p.selection.event p.chain) p.swappedGate steps outcome
      after) :
    ActivationRun request gate (p.steps steps) outcome after := by
  obtain ⟨answer, m, _, hm, rfl, h⟩ := execution_perform_bind.1 run
  obtain rfl : p.swappedGate = m := hm
  cases answer with
  | reconciled =>
    dsimp only at h
    split_ifs at h with hc
    · exact activationRun_of_reopen p hc h
    · exact h.of_pure (.cacheUnsettled p _ _)
  | unknown | cancelled => exact h.of_pure (.cacheUnsettled p _ _)

theorem activationRun_of_publish (s : Selection request gate)
    (run : Execution GatePerforms (publishActivated request s.barrier s.selection s.chain)
      s.closedGate steps outcome after) :
    ActivationRun request gate (s.steps steps) outcome after := by
  obtain ⟨answer, m, _, hm, rfl, h⟩ := execution_perform_bind.1 run
  cases answer with
  | ok =>
    obtain ⟨swapped, hswp, rfl⟩ := replyDone_ok.1 hm
    exact activationRun_of_reconcile ⟨s, swapped, hswp⟩ h
  | error error =>
    obtain rfl := reply_error hm
    exact h.of_pure (.swapRefused s error)

theorem activationRun_of_abort (a : Appending request gate) {reason : ActivationNotCommittedReason}
    (hu : UnchangedChainMatches request a.authority chain)
    (run : Execution GatePerforms (abortUnselected request a.barrier chain reason) a.closedGate
      steps outcome after) :
    ActivationRun request gate (a.steps (.notCommitted chain reason) steps) outcome after := by
  obtain ⟨answer, m, _, hm, rfl, h⟩ := execution_perform_bind.1 run
  cases answer with
  | ok =>
    obtain ⟨opened, ho, rfl⟩ := replyDone_ok.1 hm
    exact h.of_pure (.unselected a chain reason opened hu ho)
  | error error =>
    obtain rfl := reply_error hm
    exact h.of_pure (.abortRefused a chain reason error hu)

theorem activationRun_of_append (a : Appending request gate)
    (run : Execution GatePerforms (appendActivation request a.barrier a.authority a.contract)
      a.closedGate steps outcome after) :
    ∃ answer rest, steps =
        ⟨a.closedGate, ⟨.appendAndReadback a.contract, answer⟩, a.closedGate⟩ :: rest ∧
      ActivationRun request gate (a.steps answer rest) outcome after := by
  obtain ⟨answer, m, rest, hm, rfl, h⟩ := execution_perform_bind.1 run
  obtain rfl : a.closedGate = m := hm
  refine ⟨answer, rest, rfl, ?_⟩
  cases answer with
  | committed selection chain =>
    cases hver : validateCommittedSelection a.contract selection.event
        selection.tableVersions chain with
    | error =>
      simp only [hver] at h
      exact h.of_pure (.appendUnsettled a _ _)
    | ok =>
      simp only [hver] at h
      exact activationRun_of_publish ⟨a, selection, chain, hver⟩ h
  | notCommitted chain reason =>
    dsimp only at h
    split_ifs at h with hu
    · exact activationRun_of_abort a hu h
    · exact h.of_pure (.appendUnsettled a _ _)
  | unknown reason => exact h.of_pure (.appendUnsettled a _ _)

theorem activationRun_of_revalidate (c : Closure request gate)
    (run : Execution GatePerforms (revalidateActivation request c.barrier) c.closedGate steps
      outcome after) :
    ActivationRun request gate (c.steps steps) outcome after := by
  obtain ⟨answer, m, rest, hm, rfl, h⟩ := execution_perform_bind.1 run
  obtain rfl : c.closedGate = m := hm
  cases answer with
  | valid snapshot =>
    dsimp only at h
    split_ifs at h with hmat
    · cases hcon : appendContract request snapshot with
      | none =>
        simp only [hcon] at h
        exact h.of_pure (.unauthorized c _ _)
      | some contract =>
        simp only [hcon] at h
        obtain ⟨answer, rest, rfl, hrun⟩ :=
          activationRun_of_append ⟨c, snapshot, hmat, contract, hcon⟩ h
        exact hrun
    · exact h.of_pure (.unauthorized c _ _)
  | stale | unknown | cancelled => exact h.of_pure (.unauthorized c _ _)

theorem activationRun_of_close
    (run : Execution GatePerforms (closeForActivation request) gate steps outcome after) :
    ActivationRun request gate
      (⟨gate, ⟨.proveCandidate (proofRequest request), .proved request.pins.proofReceipt⟩, gate⟩ ::
        steps) outcome after := by
  obtain ⟨answer, m, _, hm, rfl, h⟩ := execution_perform_bind.1 run
  cases answer with
  | ok barrier =>
    obtain ⟨closed, hcl, rfl⟩ := reply_ok.1 hm
    exact activationRun_of_revalidate ⟨barrier, closed, hcl⟩ h
  | error error =>
    obtain rfl := reply_error hm
    exact h.of_pure (.rejected error)

/-- **A run of `activate` ends in one of the listed ways.** -/
theorem activationRun_of_execution
    (run : Execution GatePerforms (activate request) gate steps outcome after) :
    ActivationRun request gate steps outcome after := by
  obtain ⟨answer, m, _, hm, rfl, h⟩ := execution_perform_bind.1 run
  obtain rfl : gate = m := hm
  cases answer with
  | proved =>
    dsimp only at h
    split_ifs at h with hrct
    · rw [hrct]
      exact activationRun_of_close h
    · exact h.of_pure (.unproved _ _)
  | failed | unknown | cancelled => exact h.of_pure (.unproved _ _)

end

/-! ## What each stage established -/

theorem event_of_tryFromAttempt {eventId : ActivationEventId} {attempt : ActivationAttempt}
    {predecessor : Option ActivationEventId} {ordinal : ActivationOrdinal} {pins : FabricEpochPins}
    {compatibility : CompatibilityClassRef} {retention : RetentionPolicyRef}
    {commit : ActivationCommit}
    (h : ActivationEvent.tryFromAttempt eventId attempt predecessor ordinal pins compatibility
      retention commit = .ok event) : event.eventId = eventId ∧ event.pins = pins := by
  simp only [ActivationEvent.tryFromAttempt, ok_iff] at h
  obtain ⟨-, -, -, -, -, -, -, -, rfl⟩ := h
  exact ⟨rfl, rfl⟩

theorem contract_of_appendContract {request : ActivationTransactionRequest}
    {authority : ActivationAuthoritySnapshot}
    (h : appendContract request authority = some contract) :
    contract.eventId = request.eventId ∧ contract.pins = request.pins := by
  simp only [appendContract, Option.bind_eq_bind, Option.bind_eq_some_iff, Option.pure_def,
    Option.some.injEq] at h
  obtain ⟨_, -, rfl⟩ := h
  exact ⟨rfl, rfl⟩

theorem verified_selection {tableVersions : TableVersionSet}
    (h : validateCommittedSelection contract event tableVersions chain = .ok ()) :
    event.eventId = contract.eventId ∧ event.pins = contract.pins ∧
      chain.headEvent = some event := by
  simp only [validateCommittedSelection, ok_iff, mapError_eq_ok] at h
  obtain ⟨_, hexp, -, rfl, -, -, -, -, -, hh, -⟩ := h
  obtain ⟨hev, hp⟩ := event_of_tryFromAttempt hexp
  exact ⟨hev, hp, hh⟩

section

variable {request : ActivationTransactionRequest} {gate : FabricAdmissionRuntime}

theorem Closure.phase (c : Closure request gate) :
    gate.state.phase = .open ∧ c.closed.phase = .closed c.barrier ∧
      c.barrier.expectedHead = request.command.expectedHead ∧
      c.barrier.authorityFence = request.executionFence := by
  have h := c.closes
  simp only [closeAdmission, nextBarrier, ok_iff, Prod.mk.injEq] at h
  obtain ⟨-, ho, _, ⟨_, -, hf⟩, hbar, hcl⟩ := h
  rw [← hcl, ← hbar, ← hf]
  exact ⟨ho, rfl, rfl, rfl⟩

theorem Appending.contract_eq (a : Appending request gate) :
    a.contract.eventId = request.eventId ∧ a.contract.pins = request.pins :=
  contract_of_appendContract a.contracted

theorem Selection.event_eq (s : Selection request gate) :
    s.selection.event.eventId = request.eventId ∧ s.selection.event.pins = request.pins ∧
      s.chain.headEvent = some s.selection.event := by
  obtain ⟨hev, hp, hh⟩ := verified_selection s.verified
  exact ⟨hev.trans s.contract_eq.1, hp.trans s.contract_eq.2, hh⟩

theorem Publication.phase (p : Publication request gate) :
    p.swapped.phase = .swapped p.barrier request.eventId request.pins.epoch := by
  obtain ⟨hev, hp, hh⟩ := p.event_eq
  have h := p.publishes
  simp only [publishSelectedEpoch, ok_iff, hh, Option.some.injEq] at h
  obtain ⟨-, -, -, -, _, rfl, -, -, -, -, -, -, hswp⟩ := h
  rw [← hswp, hev, hp]

theorem Reopening.phase (r : Reopening request gate) : r.opened.phase = .open := by
  have h := r.reopens
  rw [reopenAfterReconciliation] at h
  simp only [r.toPublication.phase, ok_iff] at h
  obtain ⟨-, -, -, -, _, -, ho⟩ := h
  rw [← ho]

theorem open_of_abort {barrier : ActivationBarrier} {opened : AdmissionState}
    (h : gate.abortBeforeSelection barrier chain = .ok opened) : opened.phase = .open := by
  simp only [abortBeforeSelection, ok_iff] at h
  obtain ⟨-, -, -, -, ho⟩ := h
  rw [← ho]

end

/-! ## Soundness of the outcomes -/

def ActivationStep.IsAppend (step : ActivationStep) : Prop :=
  ∃ contract answer, step.label = ⟨.appendAndReadback contract, answer⟩

section

variable (request : ActivationTransactionRequest)

/-- The append is asked for at most once, behind a gate that this run closed for the expected head,
after the authority was revalidated behind that gate. -/
def AppendsOnce (steps : List ActivationStep) : Prop :=
  (∀ x ∈ steps, ¬x.IsAppend) ∨
  ∃ past x future barrier snapshot, steps = past ++ x :: future ∧ x.IsAppend ∧
    (∀ y ∈ past, ¬y.IsAppend) ∧ (∀ y ∈ future, ¬y.IsAppend) ∧
    x.before.state.phase = .closed barrier ∧
    barrier.expectedHead = request.command.expectedHead ∧
    barrier.authorityFence = request.executionFence ∧
    (∃ y ∈ past, y.label = ⟨.closeAdmission request.command.expectedHead request.executionFence,
      .ok barrier⟩) ∧
    AuthorityMatches request snapshot ∧
    ∃ y ∈ past, y.before.state.phase = .closed barrier ∧
      y.label = ⟨.revalidate (authorityRequest request), .valid snapshot⟩

/-- The append was answered with the event, verified to be the requested one at the head of the
chain read back. In a valid chain that is the only event without a successor. -/
def ReadsBack (step : ActivationStep) (event : ActivationEvent) : Prop :=
  ∃ contract selection chain, step.label = ⟨.appendAndReadback contract,
      .committed selection chain⟩ ∧ selection.event = event ∧
    validateCommittedSelection contract event selection.tableVersions chain = .ok () ∧
    event.eventId = request.eventId ∧ event.pins = request.pins ∧
    chain.headEvent = some event ∧
    (ValidChain chain.workspaceId chain.orderedEvents → ∀ other ∈ chain.orderedEvents,
      (∀ next ∈ chain.orderedEvents, next.predecessorEventId ≠ some other.eventId) →
        other = event)

/-- The gate was published on the event and reopened before the acknowledgement. -/
def Activates (steps : List ActivationStep) (receipt : ActivatedEpochReceipt) : Prop :=
  ∃ append publish reopen acknowledge barrier,
    [append, publish, reopen, acknowledge].Sublist steps ∧
    ReadsBack request append receipt.event ∧
    (∃ selection chain, publish.label =
      ⟨.publishSelectedEpoch barrier selection chain request.candidate, .ok ()⟩ ∧
      selection.event = receipt.event) ∧
    publish.after.state.phase =
      .swapped barrier receipt.event.eventId receipt.event.pins.epoch ∧
    reopen.before.state.phase =
      .swapped barrier receipt.event.eventId receipt.event.pins.epoch ∧
    reopen.label = ⟨.reconcileAndReopen barrier (.epoch receipt.event.pins.epoch), .ok ()⟩ ∧
    reopen.after.state.phase = .open ∧
    acknowledge.before.state.phase = .open ∧
    acknowledge.label = ⟨.acknowledge receipt.event request.executionFence,
      .acknowledged receipt.acknowledgement⟩

/-- No append was asked for, or its port proved that the revalidated chain is unchanged. -/
def SelectsNothing (steps : List ActivationStep) : Prop :=
  (∀ x ∈ steps, ¬x.IsAppend) ∨
  ∃ x ∈ steps, ∃ y ∈ steps, ∃ contract chain reason snapshot,
    x.label = ⟨.appendAndReadback contract, .notCommitted chain reason⟩ ∧
    y.label = ⟨.revalidate (authorityRequest request), .valid snapshot⟩ ∧
    chain = snapshot.chain

def ActivationAdmissionPosture.Is (steps : List ActivationStep) (after : FabricAdmissionRuntime) :
    ActivationAdmissionPosture → Prop
  | .neverClosed => ∀ x ∈ steps, x.after = x.before
  | .closed => ∃ barrier, after.state.phase = .closed barrier ∧
      barrier.expectedHead = request.command.expectedHead ∧
      barrier.authorityFence = request.executionFence
  | .swapped => ∃ barrier, after.state.phase =
      .swapped barrier request.eventId request.pins.epoch
  | .reopened => after.state.phase = .open ∧
      ∃ x ∈ steps, ∃ barrier head, x.label = ⟨.reconcileAndReopen barrier head, .ok ()⟩

def DurableSelectionKnowledge.IsRead (steps : List ActivationStep) :
    DurableSelectionKnowledge → Prop
  | .notAttempted => SelectsNothing request steps
  | .unknown => True
  | .readBack eventId => ∃ x ∈ steps, ∃ event, ReadsBack request x event ∧ event.eventId = eventId

variable {request} {gate after : FabricAdmissionRuntime} {steps : List ActivationStep}
  {outcome : ActivationTransactionOutcome}

theorem ValidChain.eq_head {workspaceId : WorkspaceId} {events : List ActivationEvent}
    {other : ActivationEvent} (h : ValidChain workspaceId events)
    (hh : events.getLast? = some event) (ho : other ∈ events)
    (hls : ∀ next ∈ events, next.predecessorEventId ≠ some other.eventId) : other = event := by
  obtain ⟨i, hi⟩ := List.mem_iff_getElem?.1 ho
  obtain ⟨_, -⟩ := List.getElem?_eq_some_iff.1 hi
  -- an event after `other` would name it as its predecessor
  have hend : events.length ≤ i + 1 := by
    by_contra hm
    have hn : events[i + 1]? = some events[i + 1] := List.getElem?_eq_getElem (by omega)
    exact hls _ (List.mem_of_getElem? hn) (h.follows i _ _ hi hn).1
  obtain rfl : i = events.length - 1 := by omega
  rw [List.getLast?_eq_getElem?, hi] at hh
  exact Option.some.inj hh

theorem Appending.appendsOnce (a : Appending request gate) (answer : ActivationAppendOutcome)
    {rest : List ActivationStep} (hr : ∀ x ∈ rest, ¬x.IsAppend) :
    AppendsOnce request (a.steps answer rest) := by
  obtain ⟨-, hcl, hh, hf⟩ := a.toClosure.phase
  refine .inr ⟨_ :: _ :: [_], _, rest, a.barrier, a.authority, rfl, ⟨_, _, rfl⟩, ?_, hr,
    hcl, hh, hf, ?_, a.authorized, ?_⟩
  · simp [ActivationStep.IsAppend]
  · exact ⟨_, List.mem_cons_of_mem _ List.mem_cons_self, rfl⟩
  · exact ⟨_, List.mem_cons_of_mem _ (List.mem_cons_of_mem _ List.mem_cons_self), hcl, rfl⟩

theorem Selection.readsBack (s : Selection request gate) :
    ReadsBack request ⟨s.closedGate, ⟨.appendAndReadback s.contract,
      .committed s.selection s.chain⟩, s.closedGate⟩ s.selection.event := by
  obtain ⟨hev, hp, hh⟩ := s.event_eq
  exact ⟨_, _, _, rfl, rfl, s.verified, hev, hp, hh,
    fun hv _ ho hl => hv.eq_head hh ho hl⟩

theorem Selection.isRead (s : Selection request gate) (rest : List ActivationStep) :
    (DurableSelectionKnowledge.readBack s.selection.event.eventId).IsRead request
      (s.steps rest) := by
  refine ⟨_, ?_, _, s.readsBack, rfl⟩
  simp [Selection.steps, Appending.steps, Closure.steps]

theorem Appending.selectsNothing (a : Appending request gate)
    {reason : ActivationNotCommittedReason}
    (hu : UnchangedChainMatches request a.authority chain) (rest : List ActivationStep) :
    SelectsNothing request (a.steps (.notCommitted chain reason) rest) := by
  refine .inr ⟨⟨a.closedGate, _, a.closedGate⟩, ?_, ⟨a.closedGate, _, a.closedGate⟩, ?_,
    a.contract, chain, reason, a.authority, rfl, rfl, hu.1⟩ <;>
  simp [Appending.steps, Closure.steps]

theorem ActivationRun.appendsOnce (h : ActivationRun request gate steps outcome after) :
    AppendsOnce request steps := by
  cases h with
  | unproved | rejected | unauthorized =>
    exact .inl (by simp [Closure.steps, ActivationStep.IsAppend])
  | appendUnsettled a answer _ => exact a.appendsOnce answer (by simp)
  | abortRefused a | unselected a =>
    exact a.appendsOnce _ (by simp [ActivationStep.IsAppend])
  | swapRefused s =>
    exact s.toAppending.appendsOnce _ (by simp [ActivationStep.IsAppend])
  | cacheUnsettled p | reopenRefused p =>
    exact p.toAppending.appendsOnce _ (by simp [ActivationStep.IsAppend])
  | unacknowledged r | activated r =>
    exact r.toAppending.appendsOnce _ (by simp [ActivationStep.IsAppend])

theorem Reopening.activates (r : Reopening request gate)
    (receipt : ActivationAcknowledgementReceipt) : Activates request
      (r.steps [⟨r.openGate, ⟨.acknowledge r.selection.event request.executionFence,
        .acknowledged receipt⟩, r.openGate⟩]) ⟨r.selection.event, r.cache, receipt, none⟩ := by
  obtain ⟨hev, hp, -⟩ := r.event_eq
  have hswp : r.swapped.phase = .swapped r.barrier r.selection.event.eventId
      r.selection.event.pins.epoch := by
    rw [hev, hp]
    exact r.toPublication.phase
  -- of the eight calls, the proof, the closure, the revalidation and the cache are left out
  have hc (last : ActivationStep) : [_, _, _, last].Sublist (r.steps [last]) :=
    .cons _ (.cons _ (.cons _ (.cons_cons _ (.cons_cons _ (.cons _ (.cons_cons _
      (.cons_cons _ .slnil)))))))
  refine ⟨_, _, _, _, r.barrier, hc _, r.readsBack, ⟨r.selection, r.chain, rfl, rfl⟩, hswp,
    hswp, ?_, r.phase, r.phase, rfl⟩
  rw [hp]

/-- **The outcome of an activation is sound.** A run against the gate asks for its append at most
once, behind the gate it closed and after the authority was revalidated. If it says that the epoch
was activated, the event was read back as the head and the gate published and reopened on it before
the acknowledgement. If it says that nothing was selected, the port proved so and the gate is in the
phase it was in before. A ticket names the phase of the gate and what was read back of the log. -/
theorem activation_outcome_sound
    (run : Execution GatePerforms (activate request) gate steps outcome after) :
    AppendsOnce request steps ∧
    (∀ receipt, outcome = .activated receipt → Activates request steps receipt) ∧
    (∀ stopped, outcome = .notSelected stopped →
      SelectsNothing request steps ∧ after.state.phase = gate.state.phase) ∧
    (∀ ticket, outcome = .reconciliationNeeded ticket →
      ticket.admissionPosture.Is request steps after ∧
        ticket.durableSelection.IsRead request steps) := by
  have h := activationRun_of_execution run
  refine ⟨h.appendsOnce, ?_, ?_, ?_⟩
  · rintro receipt rfl
    cases h with
    | activated r receipt _ => exact r.activates receipt
  · rintro stopped hs
    cases h with
    | unproved | rejected => exact ⟨.inl (by simp [ActivationStep.IsAppend]), rfl⟩
    | unselected a chain reason opened hu ha =>
      refine ⟨a.selectsNothing hu _, ?_⟩
      rw [a.toClosure.phase.1]
      exact open_of_abort ha
    | _ => cases hs
  · rintro ticket htk
    cases h with
    | unauthorized c =>
      cases htk
      exact ⟨⟨c.barrier, c.phase.2⟩, .inl (by simp [Closure.steps, ActivationStep.IsAppend])⟩
    | appendUnsettled a =>
      cases htk
      exact ⟨⟨a.barrier, a.toClosure.phase.2⟩, trivial⟩
    | abortRefused a chain reason error hu =>
      cases htk
      exact ⟨⟨a.barrier, a.toClosure.phase.2⟩, a.selectsNothing hu _⟩
    | swapRefused s =>
      cases htk
      exact ⟨⟨s.barrier, s.toClosure.phase.2⟩, s.isRead _⟩
    | cacheUnsettled p | reopenRefused p =>
      cases htk
      exact ⟨⟨p.barrier, p.phase⟩, p.toSelection.isRead _⟩
    | unacknowledged r =>
      cases htk
      refine ⟨⟨r.phase, ⟨r.swappedGate, _, r.openGate⟩, ?_, r.barrier, .epoch request.pins.epoch,
        rfl⟩, r.toSelection.isRead _⟩
      simp [Reopening.steps, Publication.steps, Selection.steps, Appending.steps, Closure.steps]
    | _ => cases htk

end

/-! ## A run -/

def activationCommand : FabricCommand where
  identity := ⟨⟨Vector.replicate 16 30⟩, ⟨Vector.replicate 32 31⟩⟩
  ownership := ⟨sampleWorkspace, ⟨Vector.replicate 16 32⟩, ⟨Vector.replicate 32 33⟩⟩
  expectedHead := .empty
  writerFence := sampleFirst.executionFence
  pins := ⟨⟨Vector.replicate 32 2⟩, ⟨Vector.replicate 32 3⟩, ⟨Vector.replicate 32 4⟩,
    ⟨Vector.replicate 32 5⟩, ⟨6⟩, ⟨Vector.replicate 32 7⟩, ⟨Vector.replicate 32 8⟩⟩
  resources := ⟨Vector.replicate 32 12⟩
  payload := .activateEpoch sampleFirst.pins.epoch sampleFirst.pins.proofReceipt

def activationTables : TableVersionSet :=
  ⟨sampleFirst.pins.tableVersions, [("functions", ⟨"file:///functions", 3⟩)]⟩

def activationRequest : ActivationTransactionRequest where
  attempt := ⟨activationCommand, 1, ⟨⟨Vector.replicate 16 34⟩, sampleFirst.executionFence⟩,
    some sampleFirst.commit.transaction⟩
  pins := sampleFirst.pins
  eventId := sampleFirst.eventId
  compatibility := sampleFirst.compatibility
  retention := sampleFirst.retention
  operationSelection := sampleFirst.commit.operationSelection
  transaction := sampleFirst.commit.transaction
  controlRelation := ⟨⟨"file:///activation-control", 0⟩, Vector.replicate 32 35,
    Vector.replicate 32 36⟩
  valid := by decide +kernel
  candidate := ⟨sampleFirst.pins.epoch, activationTables⟩
  candidate_identity := rfl
  candidate_tables := rfl

/-- Ports of an empty workspace that append the event and answer with exact receipts. -/
def activationAnswers : PortAnswers where
  prove request := .proved request.pins.proofReceipt
  revalidate request := .valid ⟨⟨sampleWorkspace, []⟩, request.executionFence⟩
  append _ := .committed ⟨sampleFirst, activationTables⟩ ⟨sampleWorkspace, [sampleFirst]⟩
  reconcile event _ fence := .reconciled ⟨event.workspaceId, event.operationId, event.eventId,
    event.pins.epoch, fence, event.commit.transaction⟩
  acknowledge event fence := .acknowledged ⟨event.workspaceId, event.operationId, event.eventId,
    event.pins.epoch, fence, event.commit.transaction, event.commit.operationSelection⟩
  readMarker _ := .selected ⟨sampleFirst, activationTables⟩ ⟨sampleWorkspace, [sampleFirst]⟩
    .absent ⟨Vector.replicate 32 37⟩

def activationReceipt : ActivatedEpochReceipt where
  event := sampleFirst
  cache := ⟨sampleWorkspace, sampleFirst.operationId, sampleFirst.eventId, sampleFirst.pins.epoch,
    sampleFirst.executionFence, sampleFirst.commit.transaction⟩
  acknowledgement := ⟨sampleWorkspace, sampleFirst.operationId, sampleFirst.eventId,
    sampleFirst.pins.epoch, sampleFirst.executionFence, sampleFirst.commit.transaction,
    sampleFirst.commit.operationSelection⟩
  reconciliationEvidence := none

/-- The first activation of a workspace makes eight calls and activates the first epoch. -/
theorem first_activation : ∃ steps after,
    Execution GatePerforms (activate activationRequest) (freshGenesis sampleWorkspace 5) steps
      (.activated activationReceipt) after ∧
    steps.length = 8 ∧ after.state.phase = .open ∧ AppendsOnce activationRequest steps ∧
    Activates activationRequest steps activationReceipt := by
  have run := execution_run activationAnswers.performs (activate activationRequest)
    (freshGenesis sampleWorkspace 5)
  obtain ⟨hout, hlen, hop⟩ : ((activate activationRequest).run activationAnswers.handler
        (freshGenesis sampleWorkspace 5)).2.1 = .activated activationReceipt ∧
      ((activate activationRequest).run activationAnswers.handler
        (freshGenesis sampleWorkspace 5)).1.length = 8 ∧
      ((activate activationRequest).run activationAnswers.handler
        (freshGenesis sampleWorkspace 5)).2.2.state.phase = .open := by
    decide +kernel
  rw [hout] at run
  have sound := activation_outcome_sound run
  exact ⟨_, _, run, hlen, hop, sound.1, sound.2.1 activationReceipt rfl⟩

end CodeFabric.Activation
