import CodeFabric.Activation.Outcomes

/-! # Recovering again

A recovery that cannot finish returns a ticket for the next one. The next recovery accepts a ticket
only if its stage fits the posture of the gate and the knowledge of the log. A recovery keeps the
posture, and sometimes the knowledge, of the ticket it was given, but names the stage at which it
stopped itself; the three need not fit. -/

namespace CodeFabric.Activation

open Fallible Command Interleaving Runs DurableSelectionKnowledge

abbrev PortCall := Call ActivationPort PortAnswer

/-! ## Accepted tickets -/

section

variable {request : ActivationRecoveryRequest} {ticket : ActivationReconciliationTicket}
  {stage : ActivationTransactionStage} {reason : ActivationReconciliationReason}
  {knowledge : DurableSelectionKnowledge} {posture : ActivationAdmissionPosture} {condition : Prop}

theorem matches_reconciliationTicket :
    RecoveryTicketMatches request (reconciliationTicket request stage reason knowledge posture) ↔
      knowledge.Names request.eventId ∧
        RecoveryStageIsCausal (reconciliationTicket request stage reason knowledge posture) := by
  constructor
  · rintro ⟨-, hn, hcau⟩
    exact ⟨hn, hcau⟩
  · rintro ⟨hn, hcau⟩
    exact ⟨⟨rfl, rfl, rfl, rfl, rfl, rfl, rfl, rfl⟩, hn, hcau⟩

/-- The outcome is no ticket, or one that is accepted under a condition. -/
def Reenters (request : ActivationRecoveryRequest) (condition : Prop)
    (outcome : ActivationTransactionOutcome) : Prop :=
  ∀ next, outcome = .reconciliationNeeded next → (RecoveryTicketMatches request next ↔ condition)

protected theorem Reenters.notSelected {why : ActivationNotSelectedReason} :
    Reenters request condition (notSelected request stage why) := by
  rintro _ ⟨⟩

theorem Reenters.activated {receipt : ActivatedEpochReceipt} :
    Reenters request condition (.activated receipt) := by
  rintro _ ⟨⟩

protected theorem Reenters.reconciliation (hn : knowledge.Names request.eventId)
    (hcau : RecoveryStageIsCausal
      (reconciliationTicket request stage reason knowledge posture) ↔ condition) :
    Reenters request condition (reconciliation request stage reason knowledge posture) := by
  rintro _ ⟨⟩
  rw [matches_reconciliationTicket, hcau]
  exact and_iff_right hn

theorem Reenters.of_causal (hn : knowledge.Names request.eventId) (hcau : RecoveryStageIsCausal
      (reconciliationTicket request stage reason knowledge posture)) :
    Reenters request True (reconciliation request stage reason knowledge posture) :=
  .reconciliation hn (iff_true_intro hcau)

end

/-! ## The tickets of an activation -/

section

variable {request : ActivationTransactionRequest} {barrier : ActivationBarrier}
  {event : ActivationEvent} {cache : ActivationCacheReceipt} {chain : ActivationChain}

/-- Whatever the ports answer, a ticket of the program is accepted for the request. -/
def GivesAcceptedTickets (request : ActivationTransactionRequest) (program : Coordinator) : Prop :=
  program.Always fun _ outcome => Reenters request.recoveryRequest True outcome

section

variable (hev : event.eventId = request.eventId)
include hev

theorem acknowledgeActivated_accepted :
    GivesAcceptedTickets request (acknowledgeActivated request event cache) := by
  rw [GivesAcceptedTickets, acknowledgeActivated, always_perform_bind]
  intro answer
  cases answer with
  | acknowledged =>
    dsimp only
    split
    · exact .activated
    · exact .of_causal hev ⟨rfl, rfl⟩
  | unknown | cancelled => exact .of_causal hev ⟨rfl, rfl⟩

theorem reopenActivated_accepted :
    GivesAcceptedTickets request (reopenActivated request barrier event cache) := by
  rw [GivesAcceptedTickets, reopenActivated, always_perform_bind]
  intro answer
  cases answer with
  | ok _ => exact acknowledgeActivated_accepted hev
  | error error => exact .of_causal hev (.inr ⟨rfl, rfl⟩)

theorem reconcileActivated_accepted :
    GivesAcceptedTickets request (reconcileActivated request barrier event chain) := by
  rw [GivesAcceptedTickets, reconcileActivated, always_perform_bind]
  intro answer
  cases answer with
  | reconciled =>
    dsimp only
    split
    · exact reopenActivated_accepted hev
    · exact .of_causal hev ⟨rfl, rfl⟩
  | unknown | cancelled => exact .of_causal hev ⟨rfl, rfl⟩

end

theorem publishActivated_accepted {selection : SelectedEpochRecord}
    (hev : selection.event.eventId = request.eventId) :
    GivesAcceptedTickets request (publishActivated request barrier selection chain) := by
  rw [GivesAcceptedTickets, publishActivated, always_perform_bind]
  intro answer
  cases answer with
  | ok _ => exact reconcileActivated_accepted hev
  | error error => exact .of_causal hev ⟨rfl, rfl⟩

theorem abortUnselected_accepted {reason : ActivationNotCommittedReason} :
    GivesAcceptedTickets request (abortUnselected request barrier chain reason) := by
  rw [GivesAcceptedTickets, abortUnselected, always_perform_bind]
  intro answer
  cases answer with
  | ok _ => exact .notSelected
  | error error => exact .of_causal trivial (.inl ⟨rfl, rfl⟩)

theorem appendActivation_accepted {authority : ActivationAuthoritySnapshot}
    {contract : ActivationAppendContract}
    (hcon : appendContract request authority = some contract) :
    GivesAcceptedTickets request (appendActivation request barrier authority contract) := by
  rw [GivesAcceptedTickets, appendActivation, always_perform_bind]
  intro answer
  cases answer with
  | committed _ chain =>
    dsimp only
    split
    · exact .of_causal trivial ⟨rfl, .inr rfl⟩
    case h_2 verified =>
      exact publishActivated_accepted
        ((verified_selection verified).1.trans (contract_of_appendContract hcon).1)
  | notCommitted chain reason =>
    dsimp only
    split
    · exact abortUnselected_accepted
    · exact .of_causal trivial ⟨rfl, .inr rfl⟩
  | unknown reason => exact .of_causal trivial ⟨rfl, .inr rfl⟩

theorem revalidateActivation_accepted :
    GivesAcceptedTickets request (revalidateActivation request barrier) := by
  rw [GivesAcceptedTickets, revalidateActivation, always_perform_bind]
  intro answer
  cases answer with
  | valid snapshot =>
    dsimp only
    split
    · split
      case h_1 contract hcon => exact appendActivation_accepted hcon
      case h_2 => exact .of_causal trivial ⟨rfl, rfl⟩
    · exact .of_causal trivial ⟨rfl, rfl⟩
  | stale | unknown | cancelled => exact .of_causal trivial ⟨rfl, rfl⟩

/-- **Every ticket of an activation is accepted** by its recovery. -/
theorem activate_accepted : GivesAcceptedTickets request (activate request) := by
  rw [GivesAcceptedTickets, activate, always_perform_bind]
  intro answer
  cases answer with
  | proved =>
    dsimp only
    split
    · intro closure
      cases closure with
      | ok => exact revalidateActivation_accepted
      | error error => exact .notSelected
    · exact .notSelected
  | failed | unknown | cancelled => exact .notSelected

end

/-! ## When a recovery resumes -/

/-- The ticket returned by a recovery from an accepted ticket is accepted again. A recovery that
stops at the marker goes back to the append, or to the acknowledgement if that does not match, and
one that stops at the gate or the cache stays there; each of these stages knows one posture. -/
def Resumes (request : ActivationRecoveryRequest) (ticket : ActivationReconciliationTicket) :
    List PortCall → Prop
  | [⟨.readOperationMarker _, .unknown _⟩] =>
    ticket.admissionPosture = .closed ∧ ticket.durableSelection.isReadBack = false
  | [⟨.readOperationMarker _, .provedNotSelected _ _⟩] => ticket.admissionPosture = .closed
  | [⟨.readOperationMarker _, .selected selection chain _ _⟩] =>
    match validateRecoveredSelection request selection.event selection.tableVersions chain with
    | .error _ => ticket.admissionPosture = .closed
    | .ok _ => ticket.admissionPosture = .reopened
  | [_, ⟨.recoverProvedNoSelection .., _⟩] => ticket.admissionPosture = .closed
  | [_, ⟨.recoverSelectedEpoch .., .error _⟩] => ticket.admissionPosture = .closed
  | [_, ⟨.recoverSelectedEpoch .., .ok publication⟩, ⟨.reconcileSelected .., _⟩] =>
    publication = .publishedClosed
  | _ => True

variable {posture : ActivationAdmissionPosture} {calls : List PortCall}
  {reason : ActivationReconciliationReason}

section

variable {request : ActivationRecoveryRequest} {ticket : ActivationReconciliationTicket}
  {activeFence : WriterFence} {event : ActivationEvent} {cache : ActivationCacheReceipt}
  {chain : ActivationChain} {marker : ActivationAcknowledgementMarker}
  {evidence : ReconciliationEvidenceRef} {publication : RecoverySelectionPublication}
  {markerRequest : ActivationOperationMarkerRequest} {selection : SelectedEpochRecord}

def StopsAccepted (request : ActivationRecoveryRequest) (calls : List PortCall)
    (outcome : ActivationTransactionOutcome) : Prop :=
  ∀ next, outcome = .reconciliationNeeded next → calls ≠ [] ∧ RecoveryTicketMatches request next

theorem stopsAccepted_activated {receipt : ActivatedEpochReceipt} :
    StopsAccepted request calls (.activated receipt) := by
  rintro _ ⟨⟩

theorem stopsAccepted_reconciliation {call : PortCall} {stage : ActivationTransactionStage}
    {knowledge : DurableSelectionKnowledge} (hn : knowledge.Names request.eventId)
    (hcau : RecoveryStageIsCausal (reconciliationTicket request stage reason knowledge posture)) :
    StopsAccepted request (call :: calls)
      (reconciliation request stage reason knowledge posture) := by
  rintro _ ⟨⟩
  exact ⟨List.cons_ne_nil _ _, matches_reconciliationTicket.2 ⟨hn, hcau⟩⟩

theorem acknowledgeRecovered_accepted (hev : event.eventId = request.eventId) :
    (acknowledgeRecovered request activeFence event cache marker evidence).Always
      (StopsAccepted request) := by
  cases marker with
  | acknowledged receipt => exact stopsAccepted_activated
  | absent =>
    rw [acknowledgeRecovered, always_perform_bind]
    intro answer
    cases answer with
    | acknowledged receipt =>
      dsimp only
      split
      · exact stopsAccepted_activated
      · exact stopsAccepted_reconciliation hev ⟨rfl, rfl⟩
    | unknown | cancelled => exact stopsAccepted_reconciliation hev ⟨rfl, rfl⟩

theorem reopenRecovered_accepted (hev : event.eventId = request.eventId) :
    (reopenRecovered request activeFence event chain publication cache marker evidence).Always
      (StopsAccepted request) := by
  cases publication with
  | alreadyReopened => exact acknowledgeRecovered_accepted hev
  | publishedClosed =>
    rw [reopenRecovered, always_perform_bind]
    intro answer
    cases answer with
    | ok _ =>
      exact (acknowledgeRecovered_accepted hev).mono fun _ _ h next hn =>
        ⟨List.cons_ne_nil _ _, (h next hn).2⟩
    | error error => exact stopsAccepted_reconciliation hev (.inr ⟨rfl, rfl⟩)

theorem StopsAccepted.reenters {outcome : ActivationTransactionOutcome} {chain' : ActivationChain}
    {head : ExpectedHead} {fence fence' : WriterFence} {allow : Bool}
    {answer : ActivationCacheOutcome} (h : StopsAccepted request calls outcome) :
    Reenters request (Resumes request ticket
      (⟨.readOperationMarker markerRequest, .selected selection chain marker evidence⟩ ::
        ⟨.recoverSelectedEpoch head fence activeFence selection chain allow, .ok publication⟩ ::
        ⟨.reconcileSelected event chain' fence', answer⟩ :: calls)) outcome := by
  intro next hn
  obtain ⟨hc, hmat⟩ := h next hn
  cases calls with
  | nil => exact absurd rfl hc
  | cons _ calls => exact iff_of_true hmat trivial

theorem reconcileRecovered_reenters (hev : event.eventId = request.eventId) {head : ExpectedHead}
    {fence : WriterFence} {allow : Bool} :
    (reconcileRecovered request activeFence event chain publication marker evidence).Always
      fun calls outcome => Reenters request (Resumes request ticket
        (⟨.readOperationMarker markerRequest, .selected selection chain marker evidence⟩ ::
          ⟨.recoverSelectedEpoch head fence activeFence selection chain allow, .ok publication⟩ ::
          calls)) outcome := by
  -- a recovered cache failure names the posture of the publication; `swapped` alone fits
  have unsettled : ∀ reason, Reenters request (publication = .publishedClosed)
      (reconciliation request .cacheReconciliation reason (.readBack event.eventId)
        publication.posture) := by
    intro reason
    refine .reconciliation hev ?_
    cases publication with
    | publishedClosed => exact iff_of_true ⟨rfl, rfl⟩ rfl
    | alreadyReopened => exact iff_of_false (fun h => nomatch h.1) (nofun)
  rw [reconcileRecovered, always_perform_bind]
  intro answer
  cases answer with
  | reconciled =>
    dsimp only
    split
    · exact (reopenRecovered_accepted hev).mono fun calls outcome h => h.reenters
    · exact unsettled _
  | unknown | cancelled => exact unsettled _

theorem recovered_selection {tables : TableVersionSet}
    (h : validateRecoveredSelection request event tables chain = .ok ()) :
    event.eventId = request.eventId :=
  (verified_selection (mapError_eq_ok.1 h)).1

protected theorem Reenters.append : Reenters request (posture = .closed)
    (reconciliation request .durableAppendReadback reason .unknown posture) := by
  refine .reconciliation trivial ?_
  simp [RecoveryStageIsCausal, reconciliationTicket]

/-- A ticket from the recovery of a selection is accepted exactly if its calls resume. -/
theorem recoverSelected_reenters :
    (recoverSelected request ticket activeFence selection chain marker evidence).Always
      fun calls outcome => Reenters request (Resumes request ticket
        (⟨.readOperationMarker markerRequest, .selected selection chain marker evidence⟩ :: calls))
        outcome := by
  rw [recoverSelected]
  cases hver : validateRecoveredSelection request selection.event selection.tableVersions chain with
  | error =>
    simp only [always_pure, Resumes, hver]
    exact .append
  | ok _ =>
    have hev := recovered_selection hver
    dsimp only
    split
    · rw [always_perform_bind]
      intro answer
      cases answer with
      | ok => exact reconcileRecovered_reenters hev
      | error error =>
        refine .reconciliation hev ?_
        simp [RecoveryStageIsCausal, reconciliationTicket, Resumes, isReadBack]
    · simp only [always_pure, Resumes, hver]
      refine .reconciliation hev ?_
      simp [RecoveryStageIsCausal, reconciliationTicket, isReadBack]

/-- So is one from the recovery of a proved failure to select. -/
theorem recoverNotSelected_reenters :
    (recoverNotSelected request ticket activeFence chain evidence).Always
      fun calls outcome => Reenters request (Resumes request ticket
        (⟨.readOperationMarker markerRequest, .provedNotSelected chain evidence⟩ :: calls))
        outcome := by
  rw [recoverNotSelected]
  split
  · exact .append
  · split
    · rw [always_perform_bind]
      intro answer
      cases answer with
      | ok _ => exact .notSelected
      | error error =>
        refine .reconciliation trivial ?_
        simp [RecoveryStageIsCausal, reconciliationTicket, Resumes, isReadBack]
    · exact .append

/-- So is every ticket from the recovery of an accepted one. -/
theorem recoverAccepted_reenters (hacc : RecoveryTicketMatches request ticket) :
    (recoverAccepted request ticket activeFence).Always
      fun calls outcome => Reenters request (Resumes request ticket calls) outcome := by
  rw [recoverAccepted, always_perform_bind]
  intro answer
  cases answer with
  | unknown =>
    refine .reconciliation hacc.2.1 ?_
    cases hkn : ticket.durableSelection <;>
      simp [RecoveryStageIsCausal, reconciliationTicket, Resumes, hkn, isReadBack]
  | provedNotSelected chain evidence => exact recoverNotSelected_reenters
  | selected _ chain _ evidence => exact recoverSelected_reenters

end

/-! ## Probe after probe -/

/-- A recovery of the accepted ticket by the same attempt, under an authorized fence. -/
structure Accepts (request : ActivationRecoveryRequest) (ticket : ActivationReconciliationTicket)
    (recovery : ActivationRecoveryAttempt) : Prop where
  attempt : request.attempt = recovery.attempt
  ticket : RecoveryTicketMatches request ticket
  fence : RecoveryFenceAuthorizes request.executionFence recovery.activeRecoveryOwner.fence

section

variable {σ : Type} (performs : (port : ActivationPort) → σ → PortAnswer port → σ → Prop)
  (request : ActivationRecoveryRequest)

def Probe (ticket : ActivationReconciliationTicket) (recovery : ActivationRecoveryAttempt)
    (calls : List PortCall) (next : ActivationReconciliationTicket) : Prop :=
  ∃ s steps t, Execution performs (recover request ticket recovery) s steps
    (.reconciliationNeeded next) t ∧ calls = steps.map Transition.label

/-- Recoveries that resume, each from the ticket of the one before; each may meet other ports, and
be run by another owner. -/
inductive Probes : ActivationReconciliationTicket → ActivationReconciliationTicket → Prop
  | refl (ticket) : Probes ticket ticket
  | step {ticket next last} (recovery : ActivationRecoveryAttempt) (calls : List PortCall)
      (attempt : request.attempt = recovery.attempt)
      (fence : RecoveryFenceAuthorizes request.executionFence recovery.activeRecoveryOwner.fence)
      (probe : Probe performs request ticket recovery calls next)
      (resumes : Resumes request ticket calls) (rest : Probes next last) : Probes ticket last

variable {performs request}

/-- After a probe the ticket is accepted exactly if the probe resumes. -/
theorem Probe.accepted_iff {ticket next : ActivationReconciliationTicket}
    {recovery : ActivationRecoveryAttempt} (h : Probe performs request ticket recovery calls next)
    (hacc : Accepts request ticket recovery) :
    RecoveryTicketMatches request next ↔ Resumes request ticket calls := by
  obtain ⟨s, _, t, run, rfl⟩ := h
  simp only [recover, if_pos hacc.attempt, if_pos hacc.ticket, if_pos hacc.fence] at run
  exact run.always (recoverAccepted_reenters hacc.ticket) next rfl

/-- Probes that resume keep the ticket accepted. -/
theorem Probes.accepted {ticket last : ActivationReconciliationTicket}
    (h : Probes performs request ticket last) (hacc : RecoveryTicketMatches request ticket) :
    RecoveryTicketMatches request last := by
  induction h with
  | refl ticket => exact hacc
  | step _ _ attempt fence probe resumes _ ih =>
    exact ih ((probe.accepted_iff ⟨attempt, hacc, fence⟩).2 resumes)

end

/-- **When recovery is re-entrant.** Every ticket of an activation is accepted by a recovery of the
same request. A recovery from an accepted ticket returns an accepted one exactly if it resumes, so
the tickets of any number of recoveries that resume stay accepted. -/
theorem recovery_reentrant_iff {σ : Type}
    {performs : (port : ActivationPort) → σ → PortAnswer port → σ → Prop} :
    (∀ request s steps ticket t,
      Execution performs (activate request) s steps (.reconciliationNeeded ticket) t →
      RecoveryTicketMatches request.recoveryRequest ticket) ∧
    (∀ request ticket recovery calls next, Accepts request ticket recovery →
      Probe performs request ticket recovery calls next →
      (RecoveryTicketMatches request next ↔ Resumes request ticket calls)) ∧
    (∀ request ticket last, RecoveryTicketMatches request ticket →
      Probes performs request ticket last → RecoveryTicketMatches request last) := by
  refine ⟨?_, ?_, ?_⟩
  · intro request s steps ticket t run
    exact (run.always activate_accepted ticket rfl).2 trivial
  · intro request ticket recovery calls next hacc probe
    exact probe.accepted_iff hacc
  · intro request ticket last hac probes
    exact probes.accepted hac

/-! ## A ticket that resumes -/

/-- Ports that append the event but answer neither the cache nor the marker. -/
def unansweredAnswers : PortAnswers :=
  { activationAnswers with
    reconcile := fun _ _ _ => .unknown ⟨Vector.replicate 32 38⟩
    readMarker := fun _ => .unknown ⟨Vector.replicate 32 39⟩ }

def activationRecovery : ActivationRecoveryAttempt :=
  ⟨activationRequest.attempt, activationRequest.attempt.executionOwner⟩

/-- The call that reads the marker of the sample request, without an answer. -/
def unansweredMarker : PortCall :=
  ⟨.readOperationMarker (operationMarkerRequest activationRequest.recoveryRequest
    sampleFirst.executionFence), .unknown ⟨Vector.replicate 32 39⟩⟩

variable {ticket : ActivationReconciliationTicket}

theorem unanswered_probe (gate : FabricAdmissionRuntime)
    (h : Accepts activationRequest.recoveryRequest ticket activationRecovery) :
    Execution GatePerforms (recover activationRequest.recoveryRequest ticket activationRecovery)
      gate [⟨gate, unansweredMarker, gate⟩]
      (reconciliation activationRequest.recoveryRequest .durableAppendReadback
        (.operationMarkerUnknown ⟨Vector.replicate 32 39⟩) ticket.durableSelection
        ticket.admissionPosture) gate := by
  rw [recover, if_pos h.attempt, if_pos h.ticket, if_pos h.fence]
  exact execution_perform_bind.2 ⟨_, _, _, rfl, rfl, execution_pure.2 ⟨rfl, rfl, rfl⟩⟩

def unansweredAppend : PortAnswers :=
  { unansweredAnswers with
    append := fun _ => .unknown .commitOutcomeUnknown ⟨Vector.replicate 32 40⟩ }

/-- The ticket of an activation that knows nothing about its append. -/
def unknownTicket (reason : ActivationReconciliationReason) : ActivationReconciliationTicket :=
  reconciliationTicket activationRequest.recoveryRequest .durableAppendReadback reason .unknown
    .closed

/-- The ticket of an append without an answer is accepted, and stays so when the marker gives no
answer at the next recovery. -/
theorem unanswered_append_resumes : ∃ gate steps reason,
    Execution GatePerforms (activate activationRequest) (freshGenesis sampleWorkspace 5) steps
      (.reconciliationNeeded (unknownTicket reason)) gate ∧
    RecoveryTicketMatches activationRequest.recoveryRequest (unknownTicket reason) ∧
    RecoveryTicketMatches activationRequest.recoveryRequest
      (unknownTicket (.operationMarkerUnknown ⟨Vector.replicate 32 39⟩)) := by
  have run := execution_run unansweredAppend.performs (activate activationRequest)
    (freshGenesis sampleWorkspace 5)
  have hout : ((activate activationRequest).run unansweredAppend.handler
      (freshGenesis sampleWorkspace 5)).2.1 = .reconciliationNeeded
        (unknownTicket (.appendUnknown .commitOutcomeUnknown ⟨Vector.replicate 32 40⟩)) := by
    decide +kernel
  rw [hout] at run
  obtain ⟨accepted, _, kept⟩ :=
    @recovery_reentrant_iff FabricAdmissionRuntime GatePerforms
  have htk := accepted _ _ _ _ _ run
  have hacc : Accepts activationRequest.recoveryRequest _ activationRecovery :=
    ⟨rfl, htk, .inl rfl⟩
  have probe : Probe GatePerforms activationRequest.recoveryRequest _ activationRecovery _ _ :=
    ⟨_, _, _, unanswered_probe (freshGenesis sampleWorkspace 5) hacc, rfl⟩
  refine ⟨_, _, _, run, htk, kept _ _ _ htk ?_⟩
  exact .step activationRecovery _ hacc.attempt hacc.fence probe ⟨rfl, rfl⟩ (.refl _)

/-! ## A ticket that is lost -/

/-- A refused ticket, whose gate was published or reopened. -/
def Lost (request : ActivationRecoveryRequest) (ticket : ActivationReconciliationTicket) : Prop :=
  ¬ RecoveryTicketMatches request ticket ∧ ticket.admissionPosture ≠ .closed

variable {request : ActivationRecoveryRequest}

/-- A ticket that does not match is refused without a call. -/
theorem recover_refused
    (href : ¬ RecoveryTicketMatches request ticket) (recovery : ActivationRecoveryAttempt) :
    ∃ reason, recover request ticket recovery =
      pure (reconciliation request ticket.stage reason .unknown ticket.admissionPosture) := by
  rw [recover]
  dsimp only
  split
  · exact ⟨_, rfl⟩
  · exact ⟨_, rfl⟩

theorem closed_of_causal {stage : ActivationTransactionStage}
    (h : RecoveryStageIsCausal (reconciliationTicket request stage reason .unknown posture)) :
    posture = .closed := by
  cases stage <;>
    simp_all [RecoveryStageIsCausal, reconciliationTicket, isReadBack]

/-- A lost ticket stays lost. -/
theorem Lost.probe {σ : Type} {performs : (port : ActivationPort) → σ → PortAnswer port → σ → Prop}
    {ticket next : ActivationReconciliationTicket} {recovery : ActivationRecoveryAttempt}
    (hl : Lost request ticket) (h : Probe performs request ticket recovery calls next) :
    calls = [] ∧ Lost request next := by
  obtain ⟨s, _, t, run, rfl⟩ := h
  obtain ⟨_, hrcv⟩ := recover_refused hl.1 recovery
  rw [hrcv] at run
  obtain ⟨rfl, hn, -⟩ := execution_pure.1 run
  cases hn
  refine ⟨rfl, fun hmat => hl.2 ?_, hl.2⟩
  exact closed_of_causal (matches_reconciliationTicket.1 hmat).2

/-- The cache of the first activation gives no answer. -/
def cacheTicket : ActivationReconciliationTicket :=
  reconciliationTicket activationRequest.recoveryRequest .cacheReconciliation
    (.cacheUnknown ⟨Vector.replicate 32 38⟩) (.readBack sampleFirst.eventId) .swapped

/-- Then the marker gives no answer either. -/
def markerTicket : ActivationReconciliationTicket :=
  reconciliationTicket activationRequest.recoveryRequest .durableAppendReadback
    (.operationMarkerUnknown ⟨Vector.replicate 32 39⟩) (.readBack sampleFirst.eventId) .swapped

/-- A cache that gives no answer leaves an accepted ticket. If the marker gives none at the next
recovery, the ticket is refused, and so is the ticket of every recovery after it: none of them asks
a port again. -/
theorem marker_unknown_spoils_ticket : ∃ gate steps,
    Execution GatePerforms (activate activationRequest) (freshGenesis sampleWorkspace 5) steps
      (.reconciliationNeeded cacheTicket) gate ∧
    Accepts activationRequest.recoveryRequest cacheTicket activationRecovery ∧
    Execution GatePerforms
      (recover activationRequest.recoveryRequest cacheTicket activationRecovery) gate
      [⟨gate, unansweredMarker, gate⟩] (.reconciliationNeeded markerTicket) gate ∧
    ¬ RecoveryTicketMatches activationRequest.recoveryRequest markerTicket ∧
    ∀ later, Relation.ReflTransGen (fun ticket next => ∃ recovery calls,
        Probe GatePerforms activationRequest.recoveryRequest ticket recovery calls next)
        markerTicket later →
      ¬ RecoveryTicketMatches activationRequest.recoveryRequest later ∧ ∀ recovery calls next,
        Probe GatePerforms activationRequest.recoveryRequest later recovery calls next →
        calls = [] := by
  have run := execution_run unansweredAnswers.performs (activate activationRequest)
    (freshGenesis sampleWorkspace 5)
  have hout : ((activate activationRequest).run unansweredAnswers.handler
      (freshGenesis sampleWorkspace 5)).2.1 = .reconciliationNeeded cacheTicket := by
    decide +kernel
  rw [hout] at run
  have hacc : Accepts activationRequest.recoveryRequest cacheTicket activationRecovery :=
    ⟨rfl, by decide +kernel, .inl rfl⟩
  have hls : Lost activationRequest.recoveryRequest markerTicket := by
    constructor <;> decide +kernel
  refine ⟨_, _, run, hacc, unanswered_probe _ hacc, hls.1, ?_⟩
  intro later hlt
  have hlt : Lost activationRequest.recoveryRequest later := by
    induction hlt with
    | refl => exact hls
    | tail _ hs ih =>
      obtain ⟨recovery, calls, probe⟩ := hs
      exact (ih.probe probe).2
  exact ⟨hlt.1, fun recovery calls next probe => (hlt.probe probe).1⟩

end CodeFabric.Activation
