import CodeFabric.Activation.Sweeps

/-! # Crash points of an activation

The command record and the stored ticket of an activation are written at different moments, by
different components, and a crash may come between any two of the writes. -/

namespace CodeFabric.Activation

open Fallible Command Interleaving

/-! ## What an effect stores -/

section

variable {ports : EffectPorts} {record : CommandRecord}
  {row : Option ActivationReconciliationRecord} {stored : ActivationReconciliationRecord}
  {gate : FabricAdmissionRuntime} {owner : ExecutionOwner} {transaction : TransactionRef}
  {context : ReductionContext} {result : ResolvedActivationTransaction}
  {after : Option ActivationReconciliationRecord} {outcome : ActivationTransactionOutcome}

/-- A prepared attempt is one of the record itself. -/
theorem preparedAttempt_ok {attempt : ValidatedCommandAttempt}
    (h : preparedAttempt record owner transaction context .activateEpoch = .ok attempt) :
    ∃ number, record.state = .commitPrepared number owner transaction ∧
      attempt = ⟨record.command, number, owner, some transaction⟩ := by
  simp only [preparedAttempt, bind_eq_ok] at h
  obtain ⟨-, -, -, -, h⟩ := h
  split at h
  case h_1 number recorded prepared hst =>
    simp only [ok_iff, validatedAttempt] at h
    obtain ⟨-, ⟨rfl, rfl⟩, -, -, rfl⟩ := h
    exact ⟨number, hst, rfl⟩
  case h_2 => cases h

/-- A resolved request is for the attempt and the transaction it was resolved for. -/
theorem resolved_ok {attempt : ActivationAttempt}
    (h : resolved ports record attempt (some transaction) = .ok result) :
    result.request.attempt = attempt ∧ result.request.transaction = transaction := by
  simp only [resolved, ok_iff] at h
  obtain ⟨found, -, -, ⟨hatt, htx⟩, rfl⟩ := h
  exact ⟨hatt, found.bound.trans (htx transaction rfl).symm⟩

/-- A commit reports a known outcome, or stores the ticket of an unknown one. -/
theorem commitOutcome_ok {effect : CommitEffectOutcome}
    (h : commitOutcome ports row result transaction outcome = .ok (effect, after)) :
    (after = row ∧ ∀ unknown, effect ≠ .unknown unknown) ∨
      ∃ recovery ticket persisted, recovery.request = result.request.recoveryRequest ∧
        persistReconciliation ports.store row recovery ticket = .ok persisted ∧
        effect = .unknown persisted.unknown ∧ after = some persisted := by
  cases outcome with
  | activated =>
    simp only [commitOutcome, ok_iff, Prod.mk.injEq] at h
    obtain ⟨-, -, rfl, rfl⟩ := h
    exact .inl ⟨rfl, by simp⟩
  | notSelected =>
    simp only [commitOutcome, ok_iff, Prod.mk.injEq] at h
    obtain ⟨-, -, _, -, rfl, rfl⟩ := h
    exact .inl ⟨rfl, by simp⟩
  | reconciliationNeeded ticket =>
    simp only [commitOutcome, ok_iff, mapError_eq_ok, Prod.mk.injEq] at h
    obtain ⟨recovery, hrcv, -, -, persisted, hpst, rfl, rfl⟩ := h
    refine .inr ⟨recovery, ticket, persisted, ?_, hpst, rfl, rfl⟩
    unfold ResolvedActivationRecovery.tryNew at hrcv
    split at hrcv <;> cases hrcv
    rfl

/-- The row a store writes for an attempt is aligned with its record. -/
theorem aligned_rowOf {store : ActivationStateStore} {request : ActivationRecoveryRequest}
    {ticket : ActivationReconciliationTicket} {command : FabricCommand} {number : Nat}
    (hatt : request.attempt = ⟨command, number, owner, some transaction⟩)
    (htx : request.transaction = transaction) :
    Aligned command number owner transaction (store.rowOf request ticket).unknown none
      (store.rowOf request ticket) where
  command := congrArg ValidatedCommandAttempt.command hatt
  attempt := congrArg ValidatedCommandAttempt.attempt hatt
  executionOwner := congrArg ValidatedCommandAttempt.executionOwner hatt
  transaction := htx
  unknown := rfl
  evidence := by simp

/-- The stored ticket of an attempt carries its unknown outcome. -/
structure TicketOf (store : ActivationStateStore) (record : CommandRecord) (owner : ExecutionOwner)
    (transaction : TransactionRef) (stored : ActivationReconciliationRecord) : Prop where
  written : ∃ request, Written store stored request
  aligned : ∃ attempt, record.state = .commitPrepared attempt owner transaction ∧
    Aligned record.command attempt owner transaction stored.unknown none stored

/-- A commit leaves the row alone, or stores one aligned with what it reports. -/
theorem commit_cases : let answer := commit ports ⟨row, gate⟩ record owner transaction context
    answer.2.row = row ∧ (∀ unknown, answer.1 ≠ .ok (.unknown unknown)) ∨
      ∃ stored, answer.2.row = some stored ∧ answer.1 = .ok (.unknown stored.unknown) ∧
        TicketOf ports.store record owner transaction stored := by
  unfold commit
  dsimp only
  cases hchk : (do
      let attempt ← preparedAttempt record owner transaction context .activateEpoch
      resolved ports record attempt (some transaction)) with
  | error error => exact .inl ⟨rfl, by simp⟩
  | ok result =>
    simp only [bind_eq_ok] at hchk
    obtain ⟨attempt, hatt, hrs⟩ := hchk
    obtain ⟨number, hst, rfl⟩ := preparedAttempt_ok hatt
    obtain ⟨hreq, htx⟩ := resolved_ok hrs
    dsimp only
    cases hout : commitOutcome ports row result transaction
        (ports.execute (activate result.request) gate).1 with
    | error error => exact .inl ⟨rfl, by simp⟩
    | ok pair =>
      obtain ⟨_⟩ := pair
      rcases commitOutcome_ok hout with ⟨rfl, heff⟩ |
        ⟨recovery, ticket, persisted, hrcv, hpst, rfl, rfl⟩
      · exact .inl ⟨rfl, fun unknown hunk => heff unknown (by simpa using hunk)⟩
      · refine .inr ⟨persisted, rfl, rfl, ⟨recovery.request, ?_⟩, number, hst, ?_⟩
        · refine written_of_persist ?_ hpst
          rw [hrcv, hreq, htx]
        · obtain ⟨-, rfl, -⟩ := persistReconciliation_eq_ok.1 hpst
          rw [hrcv]
          exact aligned_rowOf hreq htx

/-- A recovery loads the ticket of its own record. -/
theorem loadRecovery_ok {loaded : LoadedActivationReconciliation}
    {recovery : ActivationRecoveryAttempt}
    (h : loadRecovery row record owner transaction context = .ok (loaded, recovery)) :
    ∃ existing attempt executionOwner recoveryOwner probes last, row = some existing ∧
      record.state = .awaitingReconciliation attempt executionOwner recoveryOwner transaction
        existing.unknown probes last ∧
      loaded.resolved.request.attempt =
        ⟨record.command, attempt, executionOwner, some transaction⟩ ∧
      loaded.resolved.request.transaction = transaction := by
  simp only [loadRecovery, ok_iff, Prod.mk.injEq] at h
  obtain ⟨_, hval, found, hl, -, ⟨hatt, -, htx, -⟩, rfl, rfl⟩ := h
  simp only [loadReconciliation, hval, bind_eq_ok, Except.ok.injEq, exists_eq_left'] at hl
  split at hl
  case h_1 attempt executionOwner recoveryOwner prepared unknown probes last hst =>
    simp only [ok_iff] at hl
    obtain ⟨existing, hrow, -, ⟨rfl, -⟩, -⟩ := hl
    obtain ⟨⟨-, -, -, -, rfl, -⟩, rfl⟩ := (reconciliationAttempt_eq_ok hst).1 hval
    exact ⟨existing, attempt, executionOwner, recoveryOwner, probes, last, hrow, hst, hatt,
      found.resolved.bound.trans htx⟩
  case h_2 => cases hl

/-- A probe observes a definitive outcome, or stores its next ticket. -/
theorem observeRecovery_ok {result : ResolvedActivationRecovery}
    {observation : ReconciliationObservation}
    (h : observeRecovery ports row result owner outcome = .ok (observation, after)) :
    (after = row ∧ ∀ evidence, observation ≠ .indeterminate evidence) ∨
      ∃ ticket persisted, persistReconciliation ports.store row result ticket = .ok persisted ∧
        observation = .indeterminate persisted.evidence ∧ after = some persisted := by
  cases outcome with
  | activated =>
    simp only [observeRecovery, ok_iff, Prod.mk.injEq] at h
    obtain ⟨evidence, -, -, -, rfl, rfl⟩ := h
    exact .inl ⟨rfl, by simp⟩
  | notSelected =>
    simp only [observeRecovery] at h
    split at h
    · simp only [ok_iff, Prod.mk.injEq] at h
      obtain ⟨-, -, rfl, rfl⟩ := h
      exact .inl ⟨rfl, by simp⟩
    · cases h
  | reconciliationNeeded ticket =>
    simp only [observeRecovery, ok_iff, mapError_eq_ok, Prod.mk.injEq] at h
    obtain ⟨-, -, persisted, hpst, rfl, rfl⟩ := h
    exact .inr ⟨ticket, persisted, hpst, rfl, rfl⟩

/-- The stored ticket of a probe carries its evidence. -/
structure ProbeTicketOf (store : ActivationStateStore) (record : CommandRecord)
    (transaction : TransactionRef) (stored : ActivationReconciliationRecord) : Prop where
  written : ∃ request, Written store stored request
  aligned : ∃ attempt executionOwner recoveryOwner unknown probes last,
    record.state = .awaitingReconciliation attempt executionOwner recoveryOwner transaction unknown
      probes last ∧
    Aligned record.command attempt executionOwner transaction unknown (some stored.evidence) stored

/-- A probe leaves the row alone, or stores one aligned with what it reports. -/
theorem reconcile_cases : let answer := reconcile ports ⟨row, gate⟩ record owner transaction context
    answer.2.row = row ∧ (∀ evidence, answer.1 ≠ .ok (.indeterminate evidence)) ∨
      ∃ stored, answer.2.row = some stored ∧ answer.1 = .ok (.indeterminate stored.evidence) ∧
        ProbeTicketOf ports.store record transaction stored := by
  unfold reconcile
  dsimp only
  cases hl : loadRecovery row record owner transaction context with
  | error error => exact .inl ⟨rfl, nofun⟩
  | ok pair =>
    obtain ⟨loaded, recovery⟩ := pair
    obtain ⟨existing, attempt, executionOwner, recoveryOwner, probes, last, rfl, hst, hatt,
      htx⟩ := loadRecovery_ok hl
    dsimp only
    cases hobs : observeRecovery ports (some existing) loaded.resolved owner
        (ports.execute (recover loaded.resolved.request loaded.ticket recovery) gate).1 with
    | error error => exact .inl ⟨rfl, nofun⟩
    | ok pair =>
      obtain ⟨_⟩ := pair
      rcases observeRecovery_ok hobs with ⟨rfl, hob⟩ | ⟨ticket, persisted, hpst, rfl, rfl⟩
      · exact .inl ⟨rfl, fun evidence h => hob evidence (by simpa using h)⟩
      · refine .inr ⟨persisted, rfl, rfl, ⟨loaded.resolved.request, ?_⟩, attempt,
          executionOwner, recoveryOwner, existing.unknown, probes, last, hst, ?_⟩
        · refine written_of_persist ?_ hpst
          rw [hatt, htx]
        · obtain ⟨-, rfl, hsm⟩ := persistReconciliation_eq_ok.1 hpst
          obtain ⟨hcmd, hn, hown, hpr, -, -⟩ :=
            @aligned_rowOf _ _ ports.store _ ticket _ _ hatt htx
          exact ⟨hcmd, hn, hown, hpr, (hsm existing rfl).2.symm, by simp⟩

end

/-! ## Crash points -/

/-- The record and the stored ticket that a crash can leave, once a commit has been prepared without
a ticket. Effects run before what they report is recorded, and a crash may come in between; the
reducer may record anything it accepts. -/
inductive CrashPoint (store : ActivationStateStore) :
    CommandRecord → Option ActivationReconciliationRecord → Prop
  | prepared {record attempt owner transaction}
      (hstate : record.state = .commitPrepared attempt owner transaction)
      (hwriter : owner.fence.Succeeds record.command.writerFence) : CrashPoint store record none
  | committing {record row} (ports : EffectPorts) (gate : FabricAdmissionRuntime)
      (owner : ExecutionOwner) (transaction : TransactionRef) (context : ReductionContext)
      (hstore : ports.store = store) (before : CrashPoint store record row) :
      CrashPoint store record (commit ports ⟨row, gate⟩ record owner transaction context).2.row
  | probing {record row} (ports : EffectPorts) (gate : FabricAdmissionRuntime)
      (owner : ExecutionOwner) (transaction : TransactionRef) (context : ReductionContext)
      (hstore : ports.store = store) (before : CrashPoint store record row) :
      CrashPoint store record (reconcile ports ⟨row, gate⟩ record owner transaction context).2.row
  | recorded {record row event context reduction}
      (hreduce : reduce record event context = .ok reduction)
      (before : CrashPoint store record row) : CrashPoint store reduction.record row

/-- The owners of a record follow the one it was admitted for. -/
def Owned (record : CommandRecord) : Prop :=
  match record.state with
  | .executing _ owner | .commitPrepared _ owner _ =>
    owner.fence.Succeeds record.command.writerFence
  | .awaitingReconciliation _ executionOwner recoveryOwner _ _ _ _ =>
    executionOwner.fence.Succeeds record.command.writerFence ∧ recoveryOwner.Succeeds executionOwner
  | .retryReady _ requiredFence _ => requiredFence.Succeeds record.command.writerFence
  | _ => True

/-- The lease of a restarted runtime: it reads its own fence as the active one, and it succeeds the
last owner of the activation. -/
structure LeaseHeld (runtime : ActivationRuntime) (record : CommandRecord) : Prop where
  context : ∀ observed : CommandRecord, observed.command = record.command →
    ∃ head, runtime.readContext observed = .ok ⟨head, runtime.fence⟩
  kind : record.command.kind = .activateEpoch
  newer : match record.state with
    | .commitPrepared _ current _ => runtime.owner.Succeeds current
    | .awaitingReconciliation _ _ recoveryOwner _ _ _ _ => runtime.owner.Succeeds recoveryOwner
    | _ => True

section

variable {runtime : ActivationRuntime} {store : ActivationStateStore} {record : CommandRecord}
  {row : Option ActivationReconciliationRecord} {gate : FabricAdmissionRuntime}

theorem fence_succeeds_trans {a b c : WriterFence} (hab : a.Succeeds b) (hbc : b.Succeeds c) :
    a.Succeeds c := by
  rcases hab with rfl | hab
  · exact hbc
  · rcases hbc with rfl | hbc
    · exact .inr hab
    · exact .inr (hbc.trans hab)

theorem fence_of_owner {a b : ExecutionOwner} (h : a.Succeeds b) : a.fence.Succeeds b.fence :=
  h.imp (fun hs => by rw [hs]) id

/-- Every transition keeps the order of the owners. -/
theorem owned_of_advance {record : CommandRecord} {event : CommandEvent}
    {state : DurableCommandState} {revision : Nat}
    (h : Advance record.command record.state event state) (ho : Owned record) :
    Owned ⟨record.command, state, revision⟩ := by
  obtain ⟨command, current, revision⟩ := record
  cases h with
  | startAdmitted fence => exact fence
  | startRetry fence => exact fence_succeeds_trans fence ho
  | adopt newer => exact fence_succeeds_trans (.inr newer) ho
  | prepare | retryExecuting | retryPrepared => exact ho
  | loseCommit recovery => exact ⟨ho, recovery⟩
  | observeNotCommitted newer =>
    exact fence_succeeds_trans (fence_of_owner (succeeds_trans newer ho.2)) ho.1
  | observeIndeterminate newer => exact ⟨ho.1, succeeds_trans newer ho.2⟩
  | _ => trivial

/-- At every crash point the owners of the record follow the one it was admitted for. -/
theorem CrashPoint.owned (h : CrashPoint store record row) : Owned record := by
  induction h with
  | prepared hst hwtr =>
    simp only [Owned, hst]
    exact hwtr
  | committing ports gate owner transaction context hstore before ih => exact ih
  | probing ports gate owner transaction context hstore before ih => exact ih
  | recorded hred before ih =>
    rcases reduce_ok hred with rfl | ⟨state, effect, hadv, -, -, rfl⟩
    · exact ih
    · exact owned_of_advance hadv ih

/-- At every crash point the stored row is one the store wrote. -/
theorem CrashPoint.written (h : CrashPoint store record row) :
    ∀ stored ∈ row, ∃ request, Written store stored request := by
  induction h with
  | prepared => simp
  | committing ports gate owner transaction context hst before ih =>
    rcases commit_cases with ⟨hsm, -⟩ | ⟨stored, hsto, -, htk⟩
    · rw [hsm]
      exact ih
    · rw [hsto]
      rintro _ ⟨⟩
      exact hst ▸ htk.written
  | probing ports gate owner transaction context hst before ih =>
    rcases reconcile_cases with ⟨hsm, -⟩ | ⟨stored, hsto, -, htk⟩
    · rw [hsm]
      exact ih
    · rw [hsto]
      rintro _ ⟨⟩
      exact hst ▸ htk.written
  | recorded _ before ih => exact ih

/-- A runtime that follows the last owner holds the lease for the record. -/
theorem LeaseHeld.leased (h : LeaseHeld runtime record) (ho : Owned record) :
    Leased runtime record := by
  refine ⟨h.context, h.kind, ?_⟩
  have hn := h.newer
  unfold OwnerSucceeds
  unfold Owned at ho
  cases hst : record.state with
  | commitPrepared attempt _ transaction =>
    simp only [hst] at hn ho
    exact ⟨hn, ho⟩
  | awaitingReconciliation attempt _ _ transaction =>
    simp only [hst] at hn ho
    exact ⟨hn, ho.2, ho.1⟩
  | _ => trivial

end

/-! ## Two crashes -/

def sampleStore : ActivationStateStore :=
  ⟨sampleWorkspace, ⟨.readbackUnavailable, fun _ _ _ => ⟨Vector.replicate 32 42⟩,
    fun _ _ _ _ => ⟨Vector.replicate 32 43⟩⟩⟩

/-- The ports of the activation effect, over given coordinator ports. -/
def samplePorts (answers : PortAnswers) : EffectPorts where
  store := sampleStore
  readRequest _ := .ok (some ⟨activationCommand, activationRequest.candidate,
    activationRequest.pins, activationRequest.eventId, activationRequest.compatibility,
    activationRequest.retention, activationRequest.operationSelection,
    activationRequest.transaction, activationRequest.controlRelation⟩)
  readClassification _ := .ok none
  answers := answers

def selectedChain : ActivationChain := ⟨sampleWorkspace, [sampleFirst]⟩

def restartFence : WriterFence := ⟨⟨Vector.replicate 16 41⟩, ⟨8, by decide, by decide⟩⟩

/-- A restarted runtime with an exact diagnostic for every interrupted commit. Its marker proves the
selection of the event. -/
def restartedRuntime : ActivationRuntime where
  ports := samplePorts activationAnswers
  actorId := ⟨Vector.replicate 16 44⟩
  fence := restartFence
  readContext _ := .ok ⟨selectedChain.currentHead, restartFence⟩
  interruptionDiagnostic _ _ _ := .ok ⟨Vector.replicate 32 45⟩

def restartedGate : FabricAdmissionRuntime :=
  recoverUnmaterializedForReconciliation selectedChain 6

def preparedRecord : CommandRecord where
  command := activationCommand
  state := .commitPrepared 1 activationRequest.attempt.executionOwner activationRequest.transaction
  revision := 2

def unknownRecord : CommandRecord where
  command := activationCommand
  state := .awaitingReconciliation 1 activationRequest.attempt.executionOwner
    activationRequest.attempt.executionOwner activationRequest.transaction
    ⟨.readbackUnavailable, ⟨Vector.replicate 32 42⟩⟩ 0 none
  revision := 3

def unknownRow : ActivationReconciliationRecord :=
  sampleStore.rowOf activationRequest.recoveryRequest
    (unknownTicket (.appendUnknown .commitOutcomeUnknown ⟨Vector.replicate 32 40⟩))

theorem restarted_succeeds :
    restartedRuntime.owner.Succeeds activationRequest.attempt.executionOwner := .inr (by decide)

theorem restarted_leaseHeld {record : CommandRecord} (hcmd : record.command = activationCommand)
    (hn : match record.state with
      | .commitPrepared _ current _ => restartedRuntime.owner.Succeeds current
      | .awaitingReconciliation _ _ recoveryOwner _ _ _ _ =>
        restartedRuntime.owner.Succeeds recoveryOwner
      | _ => True) : LeaseHeld restartedRuntime record where
  context _ _ := ⟨_, rfl⟩
  kind := by rw [hcmd]; rfl
  newer := hn

theorem restarted_definitive :
    Definitive restartedRuntime.ports.answers activationRequest.recoveryRequest restartFence
      (restartedRuntime.answer activationRequest.recoveryRequest) where
  valid := by decide +kernel
  acknowledges := trivial
  cache := ⟨_, rfl, by decide +kernel⟩
  acknowledgement := ⟨_, rfl, by decide +kernel⟩

/-- Every other round ends before it reaches the command. -/
def everyOther (n : Nat) : Bool := n % 2 = 1

/-- Half of the rounds reach the command. -/
theorem count_everyOther (k : Nat) : Nat.count (everyOther · = true) (2 * k) = k := by
  induction k with
  | zero => rfl
  | succ k ih =>
    have h0 : ¬everyOther (2 * k) = true := by simp [everyOther]
    have h1 : everyOther (2 * k + 1) = true := by simp [everyOther, Nat.add_mod]
    rw [Nat.mul_succ, Nat.count_succ, Nat.count_succ, ih, if_neg h0, if_pos h1]

/-- The record once a sweep has marked the commit as interrupted, without a ticket. -/
def interruptedState : Journaled EffectState where
  record := ⟨activationCommand, .awaitingReconciliation 1 activationRequest.attempt.executionOwner
    restartedRuntime.owner activationRequest.transaction
    ⟨.processInterrupted, ⟨Vector.replicate 32 45⟩⟩ 0 none, 3⟩
  state := ⟨none, restartedGate⟩

/-- Every sweep ends in the interrupted record without a ticket. -/
theorem sweeps_without_ticket (n : Nat) :
    restartedRuntime.recovery.sweeps (n + 1) ⟨preparedRecord, ⟨none, restartedGate⟩⟩ =
      interruptedState := by
  induction n with
  | zero =>
    have hl : Leased restartedRuntime preparedRecord :=
      (restarted_leaseHeld rfl restarted_succeeds).leased (.inl rfl)
    exact sweep_interrupted hl rfl rfl (by decide)
  | succ n ih =>
    rw [Recovery.sweeps, Function.iterate_succ_apply', ← Recovery.sweeps, ih]
    have hs : restartedRuntime.owner.Succeeds restartedRuntime.owner := .inl rfl
    have hl : Leased restartedRuntime interruptedState.record :=
      (restarted_leaseHeld rfl hs).leased ⟨.inl rfl, restarted_succeeds⟩
    exact sweep_of_not_aligned hl rfl (by simp [interruptedState]) (fun _ _ hrow => by cases hrow)

end CodeFabric.Activation
