import CodeFabric.Activation.Effect
import CodeFabric.Activation.Recovery

/-! # Recoveries with a definitive marker

What a recovery does when the marker answers definitively and the cache and the acknowledgement
port answer for what it proved. Then only the ticket decides: the gate a restart builds from the
durable chain takes over what a marker with that chain proves.

* **`gateAccepts_restart`**: the gate after a restart accepts what the marker proved.
* **`settles_of_immediate`**, **`refused_of_usable`** and **`fails_again`** are the three ways a
  recovery can end: it settles the command, returns a ticket that is acted on at once, or leaves the
  command as hopeless as it was. -/

namespace CodeFabric.Activation

open Fallible Command Interleaving FabricAdmissionRuntime PortAnswers

/-! ## Definitive answers -/

/-- The marker proves the selection, and the cache and the acknowledgement port answer for it. -/
structure AnswersSelected (answers : PortAnswers) (request : ActivationRecoveryRequest)
    (fence : WriterFence) (selection : SelectedEpochRecord) (chain : ActivationChain)
    (marker : ActivationAcknowledgementMarker) : Prop where
  valid : validateRecoveredSelection request selection.event selection.tableVersions chain = .ok ()
  acknowledges : MarkerAcknowledges request fence selection.event marker
  cache : ∃ receipt, answers.reconcile selection.event chain fence = .reconciled receipt ∧
    CacheReceiptMatches request selection.event fence receipt
  acknowledgement : ∃ receipt, answers.acknowledge selection.event fence = .acknowledged receipt ∧
      AcknowledgementMatches request selection.event fence receipt

def Definitive (answers : PortAnswers) (request : ActivationRecoveryRequest)
    (fence : WriterFence) : ActivationOperationMarkerOutcome → Prop
  | .selected selection chain marker _ =>
    AnswersSelected answers request fence selection chain marker
  | .provedNotSelected chain _ => RecoveredUnchangedChainMatches request chain
  | .unknown _ => False

/-- The marker answers with the durable chain. -/
def MatchesChain (durable : ActivationChain) : ActivationOperationMarkerOutcome → Prop
  | .selected _ chain _ _ => chain = durable
  | .provedNotSelected chain _ => chain = durable
  | .unknown _ => False

/-- The gate takes over what the marker proved. -/
def GateAccepts (gate : FabricAdmissionRuntime) (request : ActivationRecoveryRequest)
    (ticket : ActivationReconciliationTicket) (fence : WriterFence) :
    ActivationOperationMarkerOutcome → Prop
  | .selected selection chain _ _ =>
    ∃ publication state, gate.recoverSelectedEpoch request.command.expectedHead
        request.executionFence fence selection.event chain
        (ticket.admissionPosture = .reopened) = .ok (publication, state) ∧
      (publication = .publishedClosed → ∃ reopened,
        { gate with state := state }.reopenRecoveredSelection selection.event chain fence =
          .ok reopened)
  | .provedNotSelected chain _ =>
    ∃ state, gate.recoverProvedNoSelection request.command.expectedHead request.executionFence
      fence chain = .ok state
  | .unknown _ => False

variable (request : ActivationRecoveryRequest) (ticket : ActivationReconciliationTicket)

variable (answer : ActivationOperationMarkerOutcome)

def Immediate : Prop :=
  RecoveryTicketMatches request ticket ∧
    (ticket.durableSelection.isReadBack → ∃ selection chain marker evidence,
      answer = .selected selection chain marker evidence)

/-- A recovery acts on the ticket at once, or after it has refused it. It refuses an unaccepted
ticket, and one whose event the marker does not know; what it returns is accepted only for a closed
gate, back at the append. -/
def Usable : Prop :=
  Immediate request ticket answer ∨ (ticket.admissionPosture = .closed ∧
    (RecoveryTicketMatches request ticket ∨ ticket.stage = .durableAppendReadback))

/-! ## One recovery -/

section

variable {ports : EffectPorts} {request : ActivationRecoveryRequest}
  {ticket : ActivationReconciliationTicket} {recovery : ActivationRecoveryAttempt}
  {gate : FabricAdmissionRuntime}

theorem execute_perform_bind {port : ActivationPort} {next : PortAnswer port → Coordinator} :
    ports.execute (perform port >>= next) gate =
      ports.execute (next (ports.answers.handler port gate).1)
        (ports.answers.handler port gate).2 :=
  rfl

theorem execute_pure {outcome : ActivationTransactionOutcome} :
    ports.execute (pure outcome) gate = (outcome, gate) :=
  rfl

/-- The attempt and the fence of the recovery are those of the request. -/
structure Authorized (request : ActivationRecoveryRequest)
    (recovery : ActivationRecoveryAttempt) : Prop where
  attempt : request.attempt = recovery.attempt
  fence : RecoveryFenceAuthorizes request.executionFence recovery.activeRecoveryOwner.fence

/-- The answer to the marker a recovery reads. -/
abbrev EffectPorts.marker (ports : EffectPorts) (request : ActivationRecoveryRequest)
    (recovery : ActivationRecoveryAttempt) : ActivationOperationMarkerOutcome :=
  ports.answers.readMarker (operationMarkerRequest request recovery.activeRecoveryOwner.fence)

theorem execute_recover (h : Authorized request recovery)
    (hacc : RecoveryTicketMatches request ticket) :
    ports.execute (recover request ticket recovery) gate =
      match ports.marker request recovery with
      | .unknown diagnostic =>
        (reconciliation request .durableAppendReadback (.operationMarkerUnknown diagnostic)
          ticket.durableSelection ticket.admissionPosture, gate)
      | .provedNotSelected chain evidence =>
        ports.execute (recoverNotSelected request ticket recovery.activeRecoveryOwner.fence chain
          evidence) gate
      | .selected selection chain marker evidence =>
        ports.execute (recoverSelected request ticket recovery.activeRecoveryOwner.fence selection
          chain marker evidence) gate := by
  simp only [recover, if_pos h.attempt, if_pos hacc, if_pos h.fence]
  rw [recoverAccepted, execute_perform_bind]
  dsimp only [handler, EffectPorts.marker]
  cases ports.answers.readMarker _ <;> rfl

theorem execute_refused (href : ¬ RecoveryTicketMatches request ticket) :
    ∃ reason, ports.execute (recover request ticket recovery) gate =
      (reconciliation request ticket.stage reason .unknown ticket.admissionPosture, gate) := by
  obtain ⟨reason, hrcv⟩ := recover_refused href recovery
  exact ⟨reason, by rw [hrcv, execute_pure]⟩

/-- A receipt that a reconciliation takes as proof of the commit. -/
structure Proves (request : ActivationRecoveryRequest) (fence : WriterFence)
    (evidence : ReconciliationEvidenceRef) (receipt : ActivatedEpochReceipt) : Prop where
  evidence : receipt.reconciliationEvidence = some evidence
  receipt : RecoveredActivatedReceiptMatches request receipt fence

variable {event : ActivationEvent} {chain : ActivationChain}

theorem event_of_recovered {tables : TableVersionSet}
    (h : validateRecoveredSelection request event tables chain = .ok ()) :
    event.workspaceId = request.command.ownership.workspaceId ∧
    event.operationId = request.command.identity.operationId ∧ event.eventId = request.eventId ∧
    event.predecessorEpoch = request.command.expectedHead ∧
    event.executionFence = request.executionFence ∧ event.pins = request.pins ∧
    event.commit.transaction = request.transaction ∧
    event.commit.operationSelection = request.operationSelection := by
  have hver := mapError_eq_ok.1 h
  simp only [validateCommittedSelection, ok_iff, mapError_eq_ok] at hver
  obtain ⟨_, hexp, -, hs, -⟩ := hver
  simp only [ActivationEvent.tryFromAttempt, ok_iff] at hexp
  obtain ⟨-, -, -, -, -, -, -, -, rfl⟩ := hexp
  rw [← hs]
  exact ⟨rfl, rfl, rfl, rfl, rfl, rfl, rfl, rfl⟩

/-- The recovered event is the head of the chain it was read with. -/
theorem head_of_recovered {tables : TableVersionSet}
    (h : validateRecoveredSelection request event tables chain = .ok ()) :
    chain.headEvent = some event ∧ chain.currentHead = .epoch request.pins.epoch := by
  have hver := mapError_eq_ok.1 h
  simp only [validateCommittedSelection, ok_iff, mapError_eq_ok] at hver
  obtain ⟨_, -, -, -, -, -, -, -, -, hevent, hhead⟩ := hver
  exact ⟨hevent, hhead⟩

section

variable {fence : WriterFence} {selection : SelectedEpochRecord} {chain : ActivationChain}
  {marker : ActivationAcknowledgementMarker} {evidence : ReconciliationEvidenceRef}

theorem receiptIdentity_of_recovered {tables : TableVersionSet} {cache : ActivationCacheReceipt}
    {acknowledgement : ActivationAcknowledgementReceipt} {found : Option ReconciliationEvidenceRef}
    (hev : validateRecoveredSelection request event tables chain = .ok ())
    (hcc : CacheReceiptMatches request event fence cache)
    (hack : AcknowledgementMatches request event acknowledgement.activeFence acknowledgement) :
    ActivatedReceiptIdentityMatches request ⟨event, cache, acknowledgement, found⟩ := by
  obtain ⟨hws, hop, heventId, hh, hexec, hp, htx, hsel⟩ :=
    event_of_recovered hev
  obtain ⟨hcw, hcop, hcv, hcp, -, hctr⟩ := hcc
  obtain ⟨haw, haop, hav, hap, -, hatr, hasc⟩ :=
    hack
  exact ⟨hws, hop, heventId, hh, hexec, hp, htx, hsel,
    hcw.trans hws.symm, hcop.trans hop.symm, hcv, hcp,
    hctr, haw.trans hws.symm, haop.trans hop.symm, hav, hap, hatr, hasc⟩

section

variable (h : AnswersSelected ports.answers request fence selection chain marker)
  (hfn : RecoveryFenceAuthorizes request.executionFence fence)
include h hfn

theorem execute_acknowledge {cache : ActivationCacheReceipt}
    (hcc : CacheReceiptMatches request selection.event fence cache) :
    ∃ receipt, Proves request fence evidence receipt ∧ ∀ gate,
      ports.execute (acknowledgeRecovered request fence selection.event cache marker evidence)
        gate =
        (.activated receipt, gate) := by
  have hcf : cache.activeFence = fence := hcc.2.2.2.2.1
  cases marker with
  | acknowledged receipt =>
    obtain ⟨haw, haop, hav, hap, haf, haac, hatr, hasc⟩ := h.acknowledges
    refine ⟨⟨selection.event, cache, receipt, some evidence⟩, ⟨rfl, ?_, hcf, haf,
      haac⟩, fun gate => rfl⟩
    exact receiptIdentity_of_recovered h.valid hcc ⟨haw, haop, hav, hap, rfl, hatr, hasc⟩
  | absent =>
    obtain ⟨receipt, hans, hmat⟩ := h.acknowledgement
    have haf : receipt.activeFence = fence := hmat.2.2.2.2.1
    refine ⟨⟨selection.event, cache, receipt, some evidence⟩, ⟨rfl, ?_, hcf, ?_, ?_⟩,
      fun gate => ?_⟩
    · refine receiptIdentity_of_recovered h.valid hcc ?_
      rw [haf]
      exact hmat
    · rw [haf]
      exact hfn
    · exact .inl haf.symm
    · rw [acknowledgeRecovered, execute_perform_bind]
      dsimp only [handler]
      rw [hans]
      dsimp only
      rw [if_pos hmat, execute_pure]

theorem execute_selected : ∃ receipt, Proves request fence evidence receipt ∧
      ports.execute (recoverSelected request ticket fence selection chain marker evidence) gate =
        match gate.recoverSelectedEpoch request.command.expectedHead request.executionFence fence
          selection.event chain (ticket.admissionPosture = .reopened) with
        | .error error =>
          (reconciliation request .epochSwap (.admissionFailure error)
            (.readBack selection.event.eventId) ticket.admissionPosture, gate)
        | .ok (.alreadyReopened, state) => (.activated receipt, { gate with state := state })
        | .ok (.publishedClosed, state) =>
          match { gate with state := state }.reopenRecoveredSelection selection.event chain fence
            with
          | .error error =>
            (reconciliation request .admissionReopen (.admissionFailure error)
              (.readBack selection.event.eventId) .swapped, { gate with state := state })
          | .ok reopened => (.activated receipt, { gate with state := reopened }) := by
  obtain ⟨cache, hans, hmat⟩ := h.cache
  obtain ⟨receipt, hprv, hack⟩ :=
    @execute_acknowledge ports request fence selection chain marker evidence h hfn cache hmat
  refine ⟨receipt, hprv, ?_⟩
  simp only [recoverSelected, h.valid, if_pos h.acknowledges]
  rw [execute_perform_bind]
  dsimp only [handler, reply]
  cases hg : gate.recoverSelectedEpoch request.command.expectedHead request.executionFence fence
    selection.event chain (ticket.admissionPosture = .reopened) with
  | error error => rfl
  | ok result =>
    obtain ⟨publication, state⟩ := result
    dsimp only
    rw [reconcileRecovered, execute_perform_bind]
    dsimp only [handler]
    rw [hans]
    dsimp only
    rw [if_pos hmat]
    cases publication with
    | alreadyReopened => exact hack _
    | publishedClosed =>
      rw [reopenRecovered, execute_perform_bind]
      dsimp only [handler, replyDone, reply]
      cases hr : { gate with state := state }.reopenRecoveredSelection selection.event
        chain fence with
      | error error => rfl
      | ok reopened => exact hack _

end

theorem execute_notSelected (hu : RecoveredUnchangedChainMatches request chain)
    (hkn : ticket.durableSelection.isReadBack = false) :
    ports.execute (recoverNotSelected request ticket fence chain evidence) gate =
      match gate.recoverProvedNoSelection request.command.expectedHead request.executionFence fence
        chain with
      | .error error =>
        (reconciliation request .admissionReopen (.admissionFailure error) .notAttempted
          ticket.admissionPosture, gate)
      | .ok state =>
        (notSelected request .durableAppendReadback (.operationMarkerProvedNotSelected evidence),
          { gate with state := state }) := by
  simp only [recoverNotSelected, hkn, Bool.false_eq_true, if_false, if_pos hu]
  rw [execute_perform_bind]
  dsimp only [handler, replyDone, reply]
  cases gate.recoverProvedNoSelection request.command.expectedHead request.executionFence fence
    chain <;> rfl

theorem execute_contradicted (hkn : ticket.durableSelection.isReadBack = true) :
    ports.execute (recoverNotSelected request ticket fence chain evidence) gate =
      (reconciliation request .durableAppendReadback (.readbackViolation .operationMarkerMismatch)
        .unknown ticket.admissionPosture, gate) := by
  simp only [recoverNotSelected, hkn, if_true, execute_pure]

end

/-! ## Settling, refusing, failing -/

/-- **The gate after a restart accepts** what a marker proves with the chain it was built from. -/
theorem gateAccepts_restart {durable : ActivationChain} {runtimeInstance : Nat}
    {answers : PortAnswers} {fence : WriterFence} {answer : ActivationOperationMarkerOutcome}
    (hfn : RecoveryFenceAuthorizes request.executionFence fence)
    (hdf : Definitive answers request fence answer) (hch : MatchesChain durable answer) :
    GateAccepts (recoverUnmaterializedForReconciliation durable runtimeInstance) request ticket
      fence answer := by
  cases answer with
  | unknown => exact hdf.elim
  | provedNotSelected chain evidence =>
    obtain rfl : chain = durable := hch
    obtain ⟨_, hhead, _⟩ : RecoveredUnchangedChainMatches request chain := hdf
    refine ⟨⟨.open, 2, 1⟩, ?_⟩
    simp [recoverProvedNoSelection, recoverUnmaterializedForReconciliation, requireRecoveryFence,
      advanceAdmissionGeneration, checkedAdd, okOr, ensure, hfn, hhead, bind, Except.bind, pure,
      Except.pure]
  | selected selection chain marker evidence =>
    obtain rfl : chain = durable := hch
    have hval := AnswersSelected.valid hdf
    obtain ⟨_, _, _, hpre, hexe, hpins, _⟩ := event_of_recovered hval
    obtain ⟨hevent, hhead⟩ := head_of_recovered hval
    refine ⟨.publishedClosed, ⟨.swapped ⟨runtimeInstance, 1, request.command.expectedHead, fence⟩
      selection.event.eventId selection.event.pins.epoch, 1, 2⟩, ?_, fun _ => ⟨⟨.open, 2, 2⟩, ?_⟩⟩
    · simp [recoverSelectedEpoch, recoverUnmaterializedForReconciliation, requireRecoveryFence,
        nextBarrier, checkedAdd, okOr, ensure, hfn, hevent, hhead, hpre, hexe, hpins, bind,
        Except.bind, pure, Except.pure]
    · have hself : RecoveryFenceAuthorizes fence fence := .inl rfl
      simp [reopenRecoveredSelection, recoverUnmaterializedForReconciliation, requireRecoveryFence,
        advanceAdmissionGeneration, checkedAdd, okOr, ensure, hfn, hevent, hexe, hself, bind,
        Except.bind, pure, Except.pure]

/-- A recovery ended the command: a commit or a non-commit was proved. -/
def Settles (request : ActivationRecoveryRequest) (fence : WriterFence) :
    ActivationTransactionOutcome → Prop
  | .activated receipt => ∃ evidence, Proves request fence evidence receipt
  | .notSelected stopped =>
    (∃ evidence, stopped.reason = .operationMarkerProvedNotSelected evidence) ∧
      NotSelectedMatches request stopped
  | .reconciliationNeeded _ => False

section

variable {fence : WriterFence} {answer : ActivationOperationMarkerOutcome}
  {reason : ActivationReconciliationReason} (hatt : Authorized request recovery)
  (hdf : Definitive ports.answers request recovery.activeRecoveryOwner.fence
    (ports.marker request recovery))

theorem immediate_append : Immediate request
    (reconciliationTicket request .durableAppendReadback reason .unknown .closed) answer := by
  refine ⟨matches_reconciliationTicket.2 ⟨trivial, rfl, .inr rfl⟩, fun h => ?_⟩
  exact absurd h Bool.false_ne_true

/-- A refused ticket without knowledge of the log can be used only behind a closed gate, back at the
append. -/
theorem usable_refused {stage : ActivationTransactionStage} {posture : ActivationAdmissionPosture}
    (h : Usable request (reconciliationTicket request stage reason .unknown posture) answer) :
    posture = .closed ∧ stage = .durableAppendReadback := by
  have hacc (h : RecoveryTicketMatches request
      (reconciliationTicket request stage reason .unknown posture)) :
      posture = .closed ∧ stage = .durableAppendReadback := by
    have hcau := (matches_reconciliationTicket.1 h).2
    cases stage <;>
      simp_all [RecoveryStageIsCausal, reconciliationTicket, DurableSelectionKnowledge.isReadBack]
  rcases h with h | ⟨hcl, h | hs⟩
  · exact hacc h.1
  · exact hacc h
  · exact ⟨hcl, hs⟩

theorem gateAccepts_congr {next : ActivationReconciliationTicket}
    (h : next.admissionPosture = ticket.admissionPosture) :
    GateAccepts gate request next fence answer ↔ GateAccepts gate request ticket fence answer := by
  cases answer <;> simp [GateAccepts, h]

include hatt hdf

theorem settles_of_immediate (himm : Immediate request ticket (ports.marker request recovery))
    (hg : GateAccepts gate request ticket recovery.activeRecoveryOwner.fence
      (ports.marker request recovery)) :
    Settles request recovery.activeRecoveryOwner.fence
      (ports.execute (recover request ticket recovery) gate).1 := by
  rw [execute_recover hatt himm.1]
  cases hans : ports.marker request recovery with
  | unknown =>
    rw [hans] at hdf
    exact hdf.elim
  | provedNotSelected chain evidence =>
    rw [hans] at hdf himm hg
    have hkn : ticket.durableSelection.isReadBack = false := by
      by_contra h
      obtain ⟨_, _, _, _, hsel⟩ := himm.2 (Bool.not_eq_false _ ▸ h)
      cases hsel
    obtain ⟨state, hst⟩ := hg
    dsimp only
    rw [execute_notSelected hdf hkn, hst]
    exact ⟨⟨evidence, rfl⟩, rfl, rfl⟩
  | selected _ chain _ evidence =>
    rw [hans] at hdf hg
    obtain ⟨publication, state, hpub, hrp⟩ := hg
    obtain ⟨_, hprv, hrun⟩ :=
      @execute_selected ports request ticket gate _ _ _ _ evidence hdf hatt.fence
    dsimp only
    rw [hrun, hpub]
    cases publication with
    | alreadyReopened => exact ⟨evidence, hprv⟩
    | publishedClosed =>
      obtain ⟨_, hreopen⟩ := hrp rfl
      dsimp only
      rw [hreopen]
      exact ⟨evidence, hprv⟩

theorem refused_of_usable (hus : Usable request ticket (ports.marker request recovery))
    (hl : ¬ Immediate request ticket (ports.marker request recovery)) :
    ticket.admissionPosture = .closed ∧ ∃ reason,
      ports.execute (recover request ticket recovery) gate =
        (reconciliation request .durableAppendReadback reason .unknown .closed, gate) := by
  obtain himm | ⟨hcl, hus⟩ := hus
  · exact absurd himm hl
  refine ⟨hcl, ?_⟩
  by_cases hacc : RecoveryTicketMatches request ticket
  · -- only a read-back event that the marker does not know keeps an accepted ticket waiting
    rw [execute_recover hatt hacc]
    cases hans : ports.marker request recovery with
    | unknown =>
      rw [hans] at hdf
      exact hdf.elim
    | selected _ chain _ evidence =>
      rw [hans] at hl
      exact absurd ⟨hacc, fun _ => ⟨_, _, _, _, rfl⟩⟩ hl
    | provedNotSelected chain evidence =>
      rw [hans] at hl
      have hkn : ticket.durableSelection.isReadBack = true := by
        by_contra h
        exact hl ⟨hacc, fun h' => absurd h' h⟩
      dsimp only
      rw [execute_contradicted hkn, hcl]
      exact ⟨_, rfl⟩
  · obtain ⟨reason, hrun⟩ := execute_refused hacc
    rw [hrun, hus.resolve_left hacc, hcl]
    exact ⟨reason, rfl⟩

/-- A recovery that cannot act on its ticket leaves it so: it changes nothing, and the next ticket
is as useless. -/
theorem fails_again (hfails : ¬ Usable request ticket (ports.marker request recovery)) :
    ∃ stage reason knowledge posture, ports.execute (recover request ticket recovery) gate =
        (reconciliation request stage reason knowledge posture, gate) ∧
      ¬ Usable request (reconciliationTicket request stage reason knowledge posture)
        (ports.marker request recovery) := by
  by_cases hacc : RecoveryTicketMatches request ticket
  · rw [execute_recover hatt hacc]
    cases hans : ports.marker request recovery with
    | unknown =>
      rw [hans] at hdf
      exact hdf.elim
    | selected selection chain marker evidence =>
      rw [hans] at hfails
      exact absurd (.inl ⟨hacc, fun _ => ⟨_, _, _, _, rfl⟩⟩) hfails
    | provedNotSelected chain evidence =>
      rw [hans] at hfails
      dsimp only
      -- a ticket that has read a selection contradicts the answer
      cases hkn : ticket.durableSelection.isReadBack with
      | true =>
        refine ⟨_, _, _, _, execute_contradicted hkn, fun h => hfails ?_⟩
        obtain ⟨hcl, -⟩ := usable_refused h
        exact .inr ⟨hcl, .inl hacc⟩
      | false =>
        exact absurd (.inl ⟨hacc, fun h => absurd (hkn.symm.trans h) Bool.false_ne_true⟩) hfails
  · obtain ⟨reason, hrun⟩ := execute_refused hacc
    refine ⟨_, _, _, _, hrun, fun h => hfails ?_⟩
    obtain ⟨hcl, hstage⟩ := usable_refused h
    exact .inr ⟨hcl, .inr hstage⟩

end

end

end CodeFabric.Activation
