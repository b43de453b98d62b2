import CodeFabric.Activation.Probes
import CodeFabric.Command.Sweep

/-! # Sweeping an interrupted activation

After a restart the sweeps work with what the command record and the ticket store hold.

* **`sweep_settles`**, **`sweep_indeterminate`** and **`sweep_of_not_aligned`** say what one sweep
  does.
* **`settles_iff_recoverable`**: repeated sweeps settle the command exactly if it is recoverable. -/

namespace CodeFabric.Activation

open Fallible Command Interleaving DurableCommandState LoadedActivationReconciliation

/-! ## The restarted runtime -/

def activationEffect (ports : EffectPorts) : CommandEffect EffectState where
  prepare executing owner context state := (prepare ports executing owner context, state)
  commit prepared owner transaction context state :=
    commit ports state prepared owner transaction context
  reconcile awaiting owner transaction context state :=
    reconcile ports state awaiting owner transaction context

/-- A restarted runtime: its ports, its actor and fence, and what it reads. -/
structure ActivationRuntime where
  ports : EffectPorts
  actorId : ActorId
  fence : WriterFence
  readContext : CommandRecord → Except CommandPortError ReductionContext
  interruptionDiagnostic :
    CommandRecord → TransactionRef → WriterFence → Except CommandPortError DiagnosticRef

namespace ActivationRuntime

variable (runtime : ActivationRuntime)

def recovery : Recovery EffectState where
  actorId := runtime.actorId
  fence := runtime.fence
  readContext := runtime.readContext
  interruptionDiagnostic := runtime.interruptionDiagnostic
  effect := activationEffect runtime.ports

def owner : ExecutionOwner := ⟨runtime.actorId, runtime.fence⟩

def answer (request : ActivationRecoveryRequest) : ActivationOperationMarkerOutcome :=
  runtime.ports.answers.readMarker (operationMarkerRequest request runtime.fence)

end ActivationRuntime

/-- The owner succeeds those of the record, and they the one it was admitted for. -/
def OwnerSucceeds (owner : ExecutionOwner) (record : CommandRecord) : Prop :=
  match record.state with
  | .commitPrepared _ current _ =>
    owner.Succeeds current ∧ current.fence.Succeeds record.command.writerFence
  | .awaitingReconciliation _ executionOwner recoveryOwner _ _ _ _ =>
    owner.Succeeds recoveryOwner ∧ recoveryOwner.Succeeds executionOwner ∧
      executionOwner.fence.Succeeds record.command.writerFence
  | _ => True

/-- The runtime holds the writer lease for the activation of the record. -/
structure Leased (runtime : ActivationRuntime) (record : CommandRecord) : Prop where
  context : ∀ observed : CommandRecord, observed.command = record.command →
    ∃ head, runtime.readContext observed = .ok ⟨head, runtime.fence⟩
  kind : record.command.kind = .activateEpoch
  owner : OwnerSucceeds runtime.owner record

/-- The record can be settled without exhausting a counter. -/
def HasRoom (record : CommandRecord) : Prop :=
  record.revision + 3 < 2 ^ 64 ∧
    match record.state with
    | .commitPrepared attempt _ _ => attempt + 1 < 2 ^ 32
    | .awaitingReconciliation attempt _ _ _ _ probes _ =>
      attempt + 1 < 2 ^ 32 ∧ probes + 1 < 2 ^ 32
    | _ => True

/-- The command has its answer, or is proved not to be committed. -/
def SettledRecord (record : CommandRecord) : Prop :=
  record.state.isTerminal ∨ record.state.kind = .retryReady

/-- A stored ticket is aligned with the record and usable. -/
def Resumable (runtime : ActivationRuntime) (command : FabricCommand) (attempt : Nat)
    (executionOwner : ExecutionOwner) (transaction : TransactionRef) (unknown : UnknownCommit)
    (last : Option ReconciliationEvidenceRef) (stored : Option ActivationReconciliationRecord) :
    Prop :=
  ∃ row request, stored = some row ∧ row.write.Describes request ∧
    Aligned command attempt executionOwner transaction unknown last row ∧
    Usable request row.write.ticket (runtime.answer request)

/-- The sweeps can work with what they find. An interrupted commit needs a diagnostic first, and its
row has to carry that diagnostic. -/
def Recoverable (runtime : ActivationRuntime) (s : Journaled EffectState) : Prop :=
  match s.record.state with
  | .commitPrepared attempt owner transaction => ∃ diagnostic,
      runtime.interruptionDiagnostic s.record transaction runtime.fence = .ok diagnostic ∧
      Resumable runtime s.record.command attempt owner transaction
        ⟨.processInterrupted, diagnostic⟩ none s.state.row
  | .awaitingReconciliation attempt executionOwner _ transaction unknown _ last =>
    Resumable runtime s.record.command attempt executionOwner transaction unknown last s.state.row
  | _ => SettledRecord s.record

/-! ## One sweep -/

variable {runtime : ActivationRuntime} {s : Journaled EffectState}
  {row : ActivationReconciliationRecord} {request : ActivationRecoveryRequest}
  {attempt probes : Nat}
  {executionOwner recoveryOwner : ExecutionOwner} {transaction : TransactionRef}
  {unknown : UnknownCommit} {last : Option ReconciliationEvidenceRef}

section

theorem recoveryFence_of_succeeds {owner prior : ExecutionOwner} (h : owner.Succeeds prior) :
    RecoveryFenceAuthorizes prior.fence owner.fence := by
  rcases h with rfl | h
  · exact .inl rfl
  · exact .inr h

theorem succeeds_trans {a b c : ExecutionOwner} (hab : a.Succeeds b) (hbc : b.Succeeds c) :
    a.Succeeds c := by
  rcases hab with rfl | hab
  · exact hbc
  · rcases hbc with rfl | hbc
    · exact .inr hab
    · exact .inr (hbc.trans hab)

variable {outcome : ActivationTransactionOutcome} {resolved : ResolvedActivationRecovery}

/-- A settling recovery is observed as committed or as not committed. -/
theorem observe_settles {ports : EffectPorts} {owner : ExecutionOwner}
    {stored : Option ActivationReconciliationRecord}
    (h : Settles resolved.request owner.fence outcome) :
    ∃ observation, observeRecovery ports stored resolved owner outcome = .ok (observation, stored) ∧
      ((∃ evidence result, observation = .committed evidence result ∧
        result.kind = .activateEpoch) ∨ ∃ evidence, observation = .notCommitted evidence) := by
  cases outcome with
  | activated receipt =>
    obtain ⟨evidence, hevd, hrct⟩ := h
    refine ⟨_, ?_, .inl ⟨evidence, activatedResult receipt, rfl, rfl⟩⟩
    simp only [observeRecovery, hevd, okOr, ensure, if_pos hrct, bind, Except.bind]
    rfl
  | notSelected =>
    obtain ⟨⟨evidence, hrs⟩, hmat⟩ := h
    refine ⟨_, ?_, .inr ⟨evidence, rfl⟩⟩
    simp only [observeRecovery, hrs, ensure, if_pos hmat, bind, Except.bind]
    rfl
  | reconciliationNeeded => exact h.elim

variable {ticket : ActivationReconciliationTicket}

/-- A ticket that is still needed is stored and observed as indeterminate. -/
theorem observe_reconciliation {ports : EffectPorts} {owner : ExecutionOwner}
    (hwr : Written ports.store row request) (hr : resolved.request = request)
    (hn : TicketNames request ticket) :
    observeRecovery ports (some row) resolved owner (.reconciliationNeeded ticket) =
      .ok (.indeterminate (ports.store.rowOf request ticket).evidence,
        some (ports.store.rowOf request ticket)) := by
  have hl : (tryNew resolved ticket).mapError (fun _ => CommandPortError.corruptRecord) =
      .ok ⟨resolved, ticket, hr ▸ hn⟩ := by
    rw [tryNew, dif_pos (hr ▸ hn)]
    rfl
  simp only [observeRecovery, hl, hwr.persist hr hn, bind, Except.bind]
  rfl

variable (h : Leased runtime s.record)
  (hstt : s.record.state = .awaitingReconciliation attempt executionOwner recoveryOwner
    transaction unknown probes last)
include h hstt

theorem Leased.validAttempt (head : ExpectedHead) :
    reconciliationAttempt s.record runtime.owner transaction ⟨head, runtime.fence⟩ .activateEpoch =
      .ok ⟨⟨s.record.command, attempt, executionOwner, some transaction⟩, runtime.owner⟩ := by
  have hown := h.owner
  simp only [OwnerSucceeds, hstt] at hown
  obtain ⟨hn, hrcv, hwtr⟩ := hown
  exact (reconciliationAttempt_eq_ok hstt).2 ⟨⟨rfl, h.kind, hrcv, hn, rfl, hwtr⟩, rfl⟩

/-- An aligned row loads, with its request and ticket. -/
theorem loadRecovery_of_aligned (hwr : Written runtime.ports.store row request)
    (hal : Aligned s.record.command attempt executionOwner transaction unknown last row)
    (head : ExpectedHead) :
    ∃ loaded, loadRecovery (some row) s.record runtime.owner transaction ⟨head, runtime.fence⟩ =
        .ok (loaded, ⟨request.attempt, runtime.owner⟩) ∧
      loaded.resolved.request = request ∧ loaded.ticket = row.write.ticket := by
  have hatt := hal.attempt_eq hwr
  have htx : request.transaction = transaction := by
    rw [← hal.transaction, ← hwr.describes.stored]
    rfl
  refine ⟨⟨⟨request, transaction, htx⟩, row.write.ticket, hwr.names⟩, ?_, rfl, rfl⟩
  have hl : loadReconciliation (some row) s.record runtime.owner transaction
      ⟨head, runtime.fence⟩ = .ok ⟨⟨request, transaction, htx⟩, row.write.ticket, hwr.names⟩ :=
    (loadReconciliation_eq_ok hstt (h.validAttempt hstt head) hwr).2 ⟨hal, rfl, rfl⟩
  simp only [loadRecovery, h.validAttempt hstt head, hl, ok_iff, Except.ok.injEq, exists_eq_left',
    hatt, Prod.mk.injEq, true_and, and_true, exists_const]
  exact ⟨congrArg ValidatedCommandAttempt.command hatt,
    congrArg (fun a => ValidatedCommandAttempt.executionOwner a |>.fence) hatt⟩

/-- Only an aligned row loads. -/
theorem aligned_of_loadRecovery
    {loaded : LoadedActivationReconciliation × ActivationRecoveryAttempt}
    (hwr : ∀ row ∈ s.state.row, ∃ request, Written runtime.ports.store row request)
    {head : ExpectedHead}
    (hl : loadRecovery s.state.row s.record runtime.owner transaction ⟨head, runtime.fence⟩ =
      .ok loaded) :
    ∃ row request, s.state.row = some row ∧ Written runtime.ports.store row request ∧
      Aligned s.record.command attempt executionOwner transaction unknown last row := by
  simp only [loadRecovery, h.validAttempt hstt head, bind_eq_ok, Except.ok.injEq,
    exists_eq_left'] at hl
  obtain ⟨_, hl, -⟩ := hl
  cases hrow : s.state.row with
  | none =>
    simp only [hrow, loadReconciliation, h.validAttempt hstt head, hstt, okOr, bind_eq_ok,
      reduceCtorEq, false_and, exists_false, and_false] at hl
  | some row =>
    obtain ⟨request, hreq⟩ := hwr row hrow
    rw [hrow] at hl
    exact ⟨row, request, rfl, hreq,
      ((loadReconciliation_eq_ok hstt (h.validAttempt hstt head) hreq).1 hl).1⟩

/-- A sweep of an unknown commit is one probe. -/
theorem sweep_probe : ∃ head, runtime.recovery.sweep s =
    recordProbe s.record runtime.owner transaction ⟨head, runtime.fence⟩
      (reconcile runtime.ports s.state s.record runtime.owner transaction
        ⟨head, runtime.fence⟩) := by
  obtain ⟨head, hctx⟩ := h.context s.record rfl
  have hrcv : runtime.recovery.readContext s.record = .ok ⟨head, runtime.fence⟩ := hctx
  exact ⟨head, sweep_awaiting hstt hrcv⟩

/-- Without an aligned row a sweep changes nothing. -/
theorem sweep_of_not_aligned
    (hwr : ∀ row ∈ s.state.row, ∃ request, Written runtime.ports.store row request)
    (hrow : ∀ row request, s.state.row = some row → Written runtime.ports.store row request →
      ¬ Aligned s.record.command attempt executionOwner transaction unknown last row) :
    runtime.recovery.sweep s = s := by
  obtain ⟨head, hsw⟩ := sweep_probe h hstt
  rw [hsw]
  have hl : ∃ error, loadRecovery s.state.row s.record runtime.owner transaction
      ⟨head, runtime.fence⟩ = .error error := by
    cases hl : loadRecovery s.state.row s.record runtime.owner transaction
        ⟨head, runtime.fence⟩ with
    | error error => exact ⟨error, rfl⟩
    | ok =>
      obtain ⟨row, request, hsm, hreq, hal⟩ :=
        aligned_of_loadRecovery h hstt hwr hl
      exact absurd hal (hrow row request hsm hreq)
  obtain ⟨error, hl⟩ := hl
  rw [reconcile, hl]
  rfl

variable (hrow : s.state.row = some row) (hwr : Written runtime.ports.store row request)
  (hal : Aligned s.record.command attempt executionOwner transaction unknown last row)
include hwr hal

/-- The restarted owner may recover the attempt of an aligned row. -/
theorem authorized_of_aligned : Authorized request ⟨request.attempt, runtime.owner⟩ := by
  have hown := h.owner
  simp only [OwnerSucceeds, hstt] at hown
  refine ⟨rfl, ?_⟩
  rw [ActivationRecoveryRequest.executionFence, hal.attempt_eq hwr]
  exact recoveryFence_of_succeeds (succeeds_trans hown.1 hown.2.1)

include hrow

/-- With an aligned row a sweep records what the recovery of its ticket observes. -/
theorem sweep_of_aligned {after : FabricAdmissionRuntime} (hrun : runtime.ports.execute
      (recover request row.write.ticket ⟨request.attempt, runtime.owner⟩) s.state.gate =
        (outcome, after)) :
    ∃ head resolved, resolved.request = request ∧ ∀ observation stored,
      observeRecovery runtime.ports (some row) resolved runtime.owner outcome =
        .ok (observation, stored) →
      runtime.recovery.sweep s = recordProbe s.record runtime.owner transaction
        ⟨head, runtime.fence⟩ (.ok observation, ⟨stored, after⟩) := by
  obtain ⟨head, hsw⟩ := sweep_probe h hstt
  obtain ⟨loaded, hl, hreq, htk⟩ :=
    loadRecovery_of_aligned h hstt hwr hal head
  refine ⟨head, loaded.resolved, hreq, fun observation stored hobs => ?_⟩
  rw [hsw, reconcile, hrow, hl]
  dsimp only
  rw [hreq, htk, hrun]
  dsimp only
  rw [hobs]

/-- A sweep with a ticket that is acted on at once settles the command. -/
theorem sweep_settles
    (hdef : Definitive runtime.ports.answers request runtime.fence (runtime.answer request))
    (himm : Immediate request row.write.ticket (runtime.answer request))
    (hg : GateAccepts s.state.gate request row.write.ticket runtime.fence (runtime.answer request))
    (hrev : s.record.revision + 1 < 2 ^ 64) (hatt : attempt + 1 < 2 ^ 32) :
    SettledRecord (runtime.recovery.sweep s).record := by
  have hats := authorized_of_aligned h hstt hwr hal
  have hset := settles_of_immediate hats hdef himm hg
  obtain ⟨_, _, rfl, hsw⟩ := sweep_of_aligned h hstt hrow hwr hal rfl
  obtain ⟨observation, hobs, hk⟩ := observe_settles hset
  have hown := h.owner
  simp only [OwnerSucceeds, hstt] at hown
  rw [hsw observation _ hobs, recordProbe]
  rcases hk with ⟨evidence, result, rfl, hres⟩ | ⟨evidence, rfl⟩
  · have hk : validateResultKind s.record.command (.observeReconciliation runtime.owner
        transaction (.committed evidence result)) = .ok () := by
      simp [validateResultKind, CommandEvent.claimedResult, ensure, h.kind, hres]
    rw [reduce_observed hstt rfl hown.1 hrev hk rfl]
    exact .inl rfl
  · have hrcl : reconciledState
        ⟨attempt, executionOwner, runtime.owner, transaction, unknown, probes⟩
        (.notCommitted evidence) = .ok (.retryReady (attempt + 1) runtime.owner.fence
          (.reconciledNotCommitted evidence), .stateChanged) := by
      simp only [reconciledState, nextAttempt, checkedAdd, if_pos hatt, okOr, bind, Except.bind]
      rfl
    rw [reduce_observed hstt rfl hown.1 hrev rfl hrcl]
    exact .inr rfl

/-- A sweep whose recovery needs another ticket stores it. -/
theorem sweep_indeterminate {after : FabricAdmissionRuntime} (hn : TicketNames request ticket)
    (hrun : runtime.ports.execute
      (recover request row.write.ticket ⟨request.attempt, runtime.owner⟩) s.state.gate =
        (.reconciliationNeeded ticket, after)) :
    ∃ head, runtime.recovery.sweep s = recordProbe s.record runtime.owner transaction
      ⟨head, runtime.fence⟩ (.ok (.indeterminate
        (runtime.ports.store.rowOf request ticket).evidence),
        ⟨some (runtime.ports.store.rowOf request ticket), after⟩) := by
  obtain ⟨head, _, hrs, hsw⟩ := sweep_of_aligned h hstt hrow hwr hal hrun
  exact ⟨head, hsw _ _ (observe_reconciliation hwr hrs hn)⟩

end

/-! ## Sweep after sweep -/

/-- A restarted runtime holds the lease, its stored ticket is one the store wrote, and the marker
answers definitively about it. -/
structure Restarted (runtime : ActivationRuntime) (s : Journaled EffectState) : Prop where
  leased : Leased runtime s.record
  rows : ∀ row ∈ s.state.row, ∃ request, Written runtime.ports.store row request ∧
    Definitive runtime.ports.answers request runtime.fence (runtime.answer request)

variable {record : CommandRecord}

theorem Leased.awaiting {revision : Nat} (h : Leased runtime record)
    (hn : runtime.owner.Succeeds executionOwner)
    (hwtr : executionOwner.fence.Succeeds record.command.writerFence) :
    Leased runtime ⟨record.command, .awaitingReconciliation attempt executionOwner runtime.owner
      transaction unknown probes last, revision⟩ :=
  ⟨h.context, h.kind, .inl rfl, hn, hwtr⟩

/-- A record that awaits reconciliation and cannot be resumed. -/
def Unresumable (runtime : ActivationRuntime) (s : Journaled EffectState) : Prop :=
  ∃ attempt executionOwner recoveryOwner transaction unknown probes last,
    s.record.state = .awaitingReconciliation attempt executionOwner recoveryOwner transaction
      unknown probes last ∧
    ¬ Resumable runtime s.record.command attempt executionOwner transaction unknown last
      s.state.row

/-- A row cannot be resumed with a ticket that is not usable. -/
theorem not_resumable_rowOf {ticket : ActivationReconciliationTicket}
    (hwr : Written runtime.ports.store row request)
    (hf : ¬ Usable request ticket (runtime.answer request)) :
    ¬ Resumable runtime record.command attempt executionOwner transaction unknown last
      (some (runtime.ports.store.rowOf request ticket)) := by
  rintro ⟨_, described, ⟨⟩, hdes, -, hus⟩
  have hs : described = request :=
    hdes.unique ⟨rfl, hwr.describes.prepared⟩
  subst hs
  exact hf hus

/-- A command that cannot be resumed stays so for a sweep. -/
theorem sweep_unresumable (h : Restarted runtime s) (hst : Unresumable runtime s) :
    Restarted runtime (runtime.recovery.sweep s) ∧
      Unresumable runtime (runtime.recovery.sweep s) := by
  obtain ⟨attempt, executionOwner, _, transaction, unknown, _, last, hstt, hnot⟩ := hst
  have hwr : ∀ row ∈ s.state.row, ∃ request, Written runtime.ports.store row request :=
    fun row hrow => (h.rows row hrow).imp fun _ hreq => hreq.1
  by_cases hal : ∃ row, s.state.row = some row ∧
      Aligned s.record.command attempt executionOwner transaction unknown last row
  · obtain ⟨row, hrow, hal⟩ := hal
    obtain ⟨request, hreq, hdef⟩ := h.rows row hrow
    have hatt := authorized_of_aligned h.leased hstt hreq hal
    have hf : ¬ Usable request row.write.ticket (runtime.answer request) :=
      fun hb => hnot ⟨row, request, hrow, hreq.describes, hal, hb⟩
    obtain ⟨stage, reason, knowledge, posture, hrun, hag⟩ := fails_again hatt hdef hf
    have hnm : TicketNames request (reconciliationTicket request stage reason knowledge posture) :=
      ⟨rfl, rfl, rfl, rfl, rfl, rfl, rfl, rfl⟩
    obtain ⟨_, hsw⟩ := sweep_indeterminate h.leased hstt hrow hreq hal hnm hrun
    have hrw : ∀ row ∈ some (runtime.ports.store.rowOf request
        (reconciliationTicket request stage reason knowledge posture)), ∃ request,
        Written runtime.ports.store row request ∧
        Definitive runtime.ports.answers request runtime.fence (runtime.answer request) := by
      rintro _ ⟨⟩
      exact ⟨request, hreq.rowOf hnm, hdef⟩
    have hown := h.leased.owner
    simp only [OwnerSucceeds, hstt] at hown
    rw [hsw]
    rcases recordProbe_cases hstt with hsm | hct
    · rw [hsm]
      exact ⟨⟨h.leased, hrw⟩, _, _, _, _, _, _, _, hstt, not_resumable_rowOf hreq hag⟩
    · rw [hct]
      refine ⟨⟨h.leased.awaiting (succeeds_trans hown.1 hown.2.1) hown.2.2, hrw⟩, _, _, _, _,
        _, _, _, rfl, ?_⟩
      exact not_resumable_rowOf hreq hag
  · have hsm : runtime.recovery.sweep s = s :=
      sweep_of_not_aligned h.leased hstt hwr fun row _ hrow _ hrow' => hal ⟨row, hrow, hrow'⟩
    rw [hsm]
    exact ⟨h, _, _, _, _, _, _, _, hstt, hnot⟩

/-- The gate takes over what the marker proves about the stored ticket. -/
def GateReady (runtime : ActivationRuntime) (state : EffectState) : Prop :=
  ∀ row ∈ state.row, ∀ request, row.write.Describes request →
    RecoveryFenceAuthorizes request.executionFence runtime.fence →
    GateAccepts state.gate request row.write.ticket runtime.fence (runtime.answer request)

/-- Sweeps settle a record that can be resumed: the first one, or the second if the first refuses
the ticket. -/
theorem settles_of_resumable (h : Restarted runtime s) (hgate : GateReady runtime s.state)
    (hstt : s.record.state = .awaitingReconciliation attempt executionOwner recoveryOwner
      transaction unknown probes last)
    (hres : Resumable runtime s.record.command attempt executionOwner transaction unknown last
      s.state.row)
    (hrev : s.record.revision + 2 < 2 ^ 64) (hatt : attempt + 1 < 2 ^ 32)
    (hp : probes + 1 < 2 ^ 32) : ∃ n, SettledRecord (runtime.recovery.sweeps n s).record := by
  obtain ⟨row, described, hrow, hdes, hal, hus⟩ := hres
  obtain ⟨_, hreq, hdef⟩ := h.rows row hrow
  obtain rfl := hdes.unique hreq.describes
  have hats := authorized_of_aligned h.leased hstt hreq hal
  have hg := hgate row hrow described hdes hats.fence
  by_cases himm : Immediate described row.write.ticket (runtime.answer described)
  · exact ⟨1, sweep_settles h.leased hstt hrow hreq hal hdef himm hg (by omega) hatt⟩
  · obtain ⟨hcl, reason, hrun⟩ := refused_of_usable hats hdef hus himm
    have hnm : TicketNames described
        (reconciliationTicket described .durableAppendReadback reason .unknown .closed) :=
      ⟨rfl, rfl, rfl, rfl, rfl, rfl, rfl, rfl⟩
    obtain ⟨_, hsw⟩ := sweep_indeterminate h.leased hstt hrow hreq hal hnm hrun
    have hown := h.leased.owner
    simp only [OwnerSucceeds, hstt] at hown
    rw [recordProbe_indeterminate hstt rfl hown.1 (by omega) hp] at hsw
    refine ⟨2, ?_⟩
    rw [Recovery.sweeps, Function.iterate_succ_apply, hsw]
    refine sweep_settles (h.leased.awaiting (succeeds_trans hown.1 hown.2.1) hown.2.2) rfl rfl
      (hreq.rowOf hnm) (hal.rowOf hreq) hdef immediate_append ?_ hrev hatt
    exact (gateAccepts_congr hcl.symm).2 hg

/-- A sweep of a prepared commit changes nothing or marks it as interrupted. -/
theorem sweep_commitPrepared {current : ExecutionOwner} (h : Leased runtime s.record)
    (hstt : s.record.state = .commitPrepared attempt current transaction) :
    runtime.recovery.sweep s = s ∨ ∃ diagnostic,
      runtime.interruptionDiagnostic s.record transaction runtime.fence = .ok diagnostic ∧
      runtime.recovery.sweep s = ⟨⟨s.record.command, .awaitingReconciliation attempt current
        runtime.owner transaction ⟨.processInterrupted, diagnostic⟩ 0 none,
        s.record.revision + 1⟩, s.state⟩ := by
  obtain ⟨head, hctx⟩ := h.context s.record rfl
  have hrcv : runtime.recovery.readContext s.record = .ok ⟨head, runtime.fence⟩ := hctx
  rw [sweep_prepared hstt hrcv]
  cases hd : runtime.recovery.interruptionDiagnostic s.record transaction
      runtime.recovery.fence with
  | error error => exact .inl rfl
  | ok diagnostic =>
    dsimp only
    cases hred : reduce s.record (.reportUnknownCommit
        (ownerIn runtime.recovery.actorId ⟨head, runtime.fence⟩) transaction
        ⟨.processInterrupted, diagnostic⟩) ⟨head, runtime.fence⟩ with
    | error error => exact .inl rfl
    | ok =>
      rcases reduce_ok hred with rfl | ⟨next, effect, hadv, -, -, rfl⟩
      · exact .inl rfl
      · rw [hstt] at hadv
        cases hadv with
        | loseCommit => exact .inr ⟨diagnostic, hd, rfl⟩

/-- With a diagnostic, a sweep marks a prepared commit as interrupted. -/
theorem sweep_interrupted {current : ExecutionOwner} {diagnostic : DiagnosticRef}
    (h : Leased runtime s.record)
    (hstt : s.record.state = .commitPrepared attempt current transaction)
    (hd : runtime.interruptionDiagnostic s.record transaction runtime.fence =
      .ok diagnostic) (hrev : s.record.revision + 1 < 2 ^ 64) :
    runtime.recovery.sweep s = ⟨⟨s.record.command, .awaitingReconciliation attempt current
      runtime.owner transaction ⟨.processInterrupted, diagnostic⟩ 0 none,
      s.record.revision + 1⟩, s.state⟩ := by
  obtain ⟨head, hctx⟩ := h.context s.record rfl
  have hrcv : runtime.recovery.readContext s.record = .ok ⟨head, runtime.fence⟩ := hctx
  have hfd : runtime.recovery.interruptionDiagnostic s.record transaction
      runtime.recovery.fence = .ok diagnostic := hd
  have hown := h.owner
  simp only [OwnerSucceeds, hstt] at hown
  have hred : reduce s.record (.reportUnknownCommit (ownerIn runtime.recovery.actorId
      ⟨head, runtime.fence⟩) transaction ⟨.processInterrupted, diagnostic⟩)
        ⟨head, runtime.fence⟩ = _ := reduce_interrupted hstt rfl hown.1 hrev
  rw [sweep_prepared hstt hrcv, hfd]
  dsimp only
  rw [hred]
  rfl

/-- A commit that is prepared or unknown, and that the sweeps cannot work with. -/
def Stuck (runtime : ActivationRuntime) (s : Journaled EffectState) : Prop :=
  Unresumable runtime s ∨ ∃ attempt current transaction,
    s.record.state = .commitPrepared attempt current transaction ∧ ¬ Recoverable runtime s

theorem Stuck.not_settled (h : Stuck runtime s) : ¬ SettledRecord s.record := by
  rcases h with ⟨_, _, _, _, _, _, _, hstt, -⟩ | ⟨_, _, _, hstt, -⟩ <;>
    simp [SettledRecord, hstt, isTerminal, kind]

/-- A stuck command stays stuck for a sweep. -/
theorem sweep_stuck (h : Restarted runtime s) (hst : Stuck runtime s) :
    Restarted runtime (runtime.recovery.sweep s) ∧ Stuck runtime (runtime.recovery.sweep s) := by
  rcases hst with hst | ⟨attempt, current, transaction, hstt, hnot⟩
  · exact (sweep_unresumable h hst).imp_right .inl
  rcases sweep_commitPrepared h.leased hstt with hsm | ⟨diagnostic, hd, hmk⟩
  · rw [hsm]
    exact ⟨h, .inr ⟨_, _, _, hstt, hnot⟩⟩
  · have hown := h.leased.owner
    simp only [OwnerSucceeds, hstt] at hown
    rw [hmk]
    refine ⟨⟨h.leased.awaiting hown.1 hown.2, h.rows⟩,
      .inl ⟨_, _, _, _, _, _, _, rfl, fun hres => hnot ?_⟩⟩
    simp only [Recoverable, hstt]
    exact ⟨diagnostic, hd, hres⟩

/-- A stuck command stays stuck for ever. -/
theorem sweeps_stuck (h : Restarted runtime s) (hs : Stuck runtime s) (n : Nat) :
    Restarted runtime (runtime.recovery.sweeps n s) ∧
      Stuck runtime (runtime.recovery.sweeps n s) := by
  induction n with
  | zero => exact ⟨h, hs⟩
  | succ n ih =>
    rw [Recovery.sweeps, Function.iterate_succ_apply']
    exact sweep_stuck ih.1 ih.2

/-- **Sweeps settle an activation past its execution exactly if it is recoverable.** -/
theorem settles_iff_recoverable (h : Restarted runtime s) (hgate : GateReady runtime s.state)
    (hp : s.record.state.kind ≠ .admitted ∧ s.record.state.kind ≠ .executing)
    (hrm : HasRoom s.record) :
    (∃ n, SettledRecord (runtime.recovery.sweeps n s).record) ↔ Recoverable runtime s := by
  constructor
  · rintro ⟨n, hset⟩
    by_contra hnot
    have hst : Stuck runtime s := by
      cases hstt : s.record.state with
      | commitPrepared attempt _ transaction => exact .inr ⟨_, _, _, hstt, hnot⟩
      | awaitingReconciliation attempt executionOwner recoveryOwner transaction unknown probes
          last =>
        refine .inl ⟨_, _, _, _, _, _, _, hstt, ?_⟩
        simpa only [Recoverable, hstt] using hnot
      | admitted | executing => simp [hstt, kind] at hp
      | _ => simp [Recoverable, SettledRecord, hstt, isTerminal, kind] at hnot
    exact (sweeps_stuck h hst n).2.not_settled hset
  · intro hrec
    obtain ⟨_, hcts⟩ := hrm
    cases hstt : s.record.state with
    | commitPrepared attempt _ transaction =>
      simp only [Recoverable, hstt] at hrec hcts
      obtain ⟨_, hd, hres⟩ := hrec
      have hmk := sweep_interrupted h.leased hstt hd (by omega)
      have hown := h.leased.owner
      simp only [OwnerSucceeds, hstt] at hown
      have hmarkedOk : Restarted runtime (runtime.recovery.sweep s) := by
        rw [hmk]
        exact ⟨h.leased.awaiting hown.1 hown.2, h.rows⟩
      rw [hmk] at hmarkedOk
      obtain ⟨n, hset⟩ := settles_of_resumable hmarkedOk hgate rfl hres (by simp; omega) hcts
        (by decide)
      refine ⟨n + 1, ?_⟩
      rw [Recovery.sweeps, Function.iterate_succ_apply, hmk]
      exact hset
    | awaitingReconciliation attempt executionOwner recoveryOwner transaction unknown probes last =>
      simp only [Recoverable, hstt] at hrec hcts
      exact settles_of_resumable h hgate hstt hrec (by omega) hcts.1 hcts.2
    | admitted | executing => simp [hstt, kind] at hp
    | _ =>
      simp only [Recoverable, hstt] at hrec
      exact ⟨0, hrec⟩

/-! ## Rounds over a journal -/

/-- The rounds of recovery over a journal with other commands. A page ends at the first row that
fails, so a round may not reach the command; such a round leaves it alone. -/
def ActivationRuntime.rounds (runtime : ActivationRuntime) (reached : Nat → Bool)
    (s : Journaled EffectState) : Nat → Journaled EffectState
  | 0 => s
  | n + 1 => if reached n then runtime.recovery.sweep (runtime.rounds reached s n)
    else runtime.rounds reached s n

/-- Only the rounds that reach the command count. -/
theorem rounds_eq_sweeps (reached : Nat → Bool) (n : Nat) :
    runtime.rounds reached s n = runtime.recovery.sweeps (Nat.count (reached · = true) n) s := by
  induction n with
  | zero => rfl
  | succ n ih =>
    rw [ActivationRuntime.rounds, Nat.count_succ, ih]
    split
    · rw [Recovery.sweeps, Recovery.sweeps, Function.iterate_succ_apply']
    · rfl

/-- Rounds that reach the command again and again settle what sweeps settle. -/
theorem rounds_settle_iff {reached : Nat → Bool}
    (fair : ∀ k, ∃ n, Nat.count (reached · = true) n = k) :
    (∃ n, SettledRecord (runtime.rounds reached s n).record) ↔
      ∃ n, SettledRecord (runtime.recovery.sweeps n s).record := by
  constructor
  · rintro ⟨n, h⟩
    rw [rounds_eq_sweeps] at h
    exact ⟨_, h⟩
  · rintro ⟨k, h⟩
    obtain ⟨n, rfl⟩ := fair k
    exact ⟨n, by rwa [rounds_eq_sweeps]⟩

end CodeFabric.Activation
